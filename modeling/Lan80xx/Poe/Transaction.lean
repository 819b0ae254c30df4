import Lan80xx.Lib.Loop
import Lan80xx.Poe.Bus

/-!
# PoE controller: transactions

`pd69200_tx_rx` sends a message under the next sequence number and waits for the message that answers it. The receiver
looks byte by byte for a key it knows; it drops what is not for this request and what has a wrong checksum.

- `Arrives`, `Breaks`: what the controller puts on the wire, as the receiver takes it apart;
- `replyStep_cases`: one pass of the receiver;
- `transaction_outcome`: when a transaction is only reported as successful with the answer to its request.
-/

namespace Lan80xx.Poe

open RegBus Loop

variable {H : Type}

/-! ## The receiver -/

/-- `iFF_byte_count` and `i00_byte_count` -/
structure Counts where
  ff : Nat := 0
  zero : Nat := 0
  deriving DecidableEq

/-- `check_reading_byte` -/
def Counts.read (c : Counts) (b : Byte) : Counts :=
  ⟨if b = 0xFF#8 then c.ff + 1 else 0, if b = 0#8 then c.zero + 1 else 0⟩

/-- The receiver still waits for a message. -/
def Counts.Waiting (c : Counts) : Prop := c.ff < 30 ∧ c.zero < 30

instance : DecidablePred Counts.Waiting := fun _ => inferInstanceAs (Decidable (_ ∧ _))

/-- `rx_data`, the counters and the outputs of the receiver. -/
structure RxState (H : Type) where
  rx : Msg
  counts : Counts := {}
  isSystemStatus : Bool := false
  bootError : BootError := .unknown
  hw : H

/-- The boot-up error that a status message names. -/
def bootErrorOf (buf : Msg) : Option BootError :=
  if buf[5] = 0x4E#8 ∧ buf[6] = 0x4E#8 ∧ buf[7] = 0x4E#8 ∧ buf[8] = 0x4E#8 then some .applicationCrcPd69200
  else if buf[5] = 0x4E#8 ∧ buf[6] = 0x4E#8 ∧ buf[7] = 0x4E#8 ∧ buf[8] = 0x33#8 then some .applicationCrcPd69210
  else if buf[5] = 0x02#8 ∧ buf[6] = 0x33#8 ∧ buf[7] = 0x2C#8 ∧ buf[8] = 0x33#8 then some .hwFromBootPd69200IntoPd69210
  else if buf[5] = 0x02#8 ∧ buf[6] = 0x2C#8 ∧ buf[7] = 0x33#8 ∧ buf[8] = 0x4E#8 then some .hwFromBootPd69210IntoPd69200
  else if buf[5] = 0x03#8 ∧ buf[6] = 0x40#8 ∧ buf[7] = 0x41#8 ∧ buf[8] = 0x4E#8 then
    some .sysTypeFromAppPd69220IntoPd69210
  else if buf[5] = 0x03#8 ∧ buf[6] = 0x41#8 ∧ buf[7] = 0x40#8 ∧ buf[8] = 0x4E#8 then
    some .sysTypeFromAppPd69210IntoPd69220
  else none

/-- `check_for_poe_firmware_errors` -/
def checkForPoeFirmwareErrors (buf : Msg) : Rc × BootError :=
  if buf[2] ≠ 0#8 ∨ buf[5] ≠ 0#8 then
    match bootErrorOf buf with
    | some e => (.errPoeFirmUpdateNeeded, e)
    | none => (.error, .unknown)
  else (.ok, .unknown)

/-- The return code when nothing but 0 or 0xFF has come. -/
def Counts.endRc (c : Counts) : Rc := if 15 ≤ c.zero then .errPoeRxBufEmpty else .error

def isReplyKey (b : Byte) : Bool := b = telemetryKey ∨ b = reportKey

/-- The second byte of a message is that of the request, or that of a system status. -/
def echoFits (txEcho key echo : Byte) : Bool := echo = txEcho ∨ key = telemetryKey ∧ echo = systemStatusEchoKey

/-- One pass of the loop in `get_15_bytes_comm_protocol_reply`. -/
def replyStep (bus : I2c H) (txEcho : Byte) (s : RxState H) : RxState H ⊕ Rc × RxState H :=
  if s.counts.Waiting then
    match bus.rd 1 s.hw with
    | (none, h) => .inr (.error, { s with hw := h })
    | (some key, h) =>
      let s := { s with counts := s.counts.read key[0], hw := h }
      if isReplyKey key[0] then
        let s := { s with rx := s.rx.set 0 key[0] }
        match bus.rd 1 s.hw with
        | (none, h) => .inr (.error, { s with hw := h })
        | (some echo, h) =>
          let s := { s with counts := s.counts.read echo[0], hw := h }
          if echoFits txEcho s.rx[0] echo[0] then
            let s := { s with rx := s.rx.set 1 echo[0] }
            match bus.rd 13 s.hw with
            | (none, h) => .inr (.error, { s with hw := h })
            | (some rest, h) =>
              let s := { s with counts := rest.foldl Counts.read s.counts, rx := #v[s.rx[0], s.rx[1]] ++ rest, hw := h }
              if ¬pd69200CheckSumOk s.rx then .inl s
              else if s.rx[1] = systemStatusEchoKey then
                .inr ((checkForPoeFirmwareErrors s.rx).1,
                  { s with isSystemStatus := true, bootError := (checkForPoeFirmwareErrors s.rx).2 })
              else if s.rx[1] = txEcho then .inr (.ok, s)
              else .inl s
          else .inl s
      else .inl s
  else .inr (s.counts.endRc, s)

/-- The receiver at its start: `sizeof(PD_BUFFER_SIZE)` bytes of the buffer are cleared. -/
def RxState.start (rx : Msg) (h : H) : RxState H :=
  { rx := (((rx.set 0 0#8).set 1 0#8).set 2 0#8).set 3 0#8, hw := h }

/-- `get_15_bytes_comm_protocol_reply` -/
def get15BytesCommProtocolReply (bus : I2c H) (fuel : Nat) (rx : Msg) (txEcho : Byte) (h : H) :
    Option (Rc × RxState H) :=
  loop (replyStep bus txEcho) fuel (.start rx h)

/-! ## The transaction -/

/-- `report_key_ok`: all other branches are false, with a trace of their own. -/
def reportKeyOk (buf : Msg) : Bool :=
  pd69200CheckSumOk buf && if buf[0] ≠ reportKey then false else buf[2] = 0#8 && buf[3] = 0#8

/-- `get_controller_request_response` -/
def getControllerRequestResponse (buf : Msg) : Rc :=
  if ¬pd69200CheckSumOk buf then .errPoeCommProtErr
  else if buf[0] ≠ telemetryKey then .errPoeCommProtErr
  else .ok

/-- The end of `pd69200_tx_rx`: for a report that is not ok, the return code stays as it is. -/
def replyRc (rc : Rc) (bufTx buf : Msg) : Rc :=
  if rc = .ok then
    if bufTx[0] = commandKey ∨ bufTx[0] = programKey then
      if reportKeyOk buf then .ok else rc
    else if bufTx[0] = requestKey then getControllerRequestResponse buf
    else .ok
  else rc

/-- `buf_tx` as `is_tx_ok` sends it. -/
def sealMsg (seqNum : Byte) (buf : Msg) : Msg := pd69200UpdateCheckSum (buf.set 1 seqNum)

/-- `is_tx_ok` -/
def isTxOk (bus : I2c H) (buf : Msg) (s : Inst H) : Bool × Inst H :=
  pd69200Wr bus (sealMsg (nextSeqNum s.conf.seqNum) buf).toList
    { s with conf := { s.conf with seqNum := nextSeqNum s.conf.seqNum } }

/-- `pd69200_tx_rx`: the return code, and the buffer. -/
def pd69200TxRx (bus : I2c H) (fuel : Nat) (buf : Msg) (s : Inst H) : Option ((Rc × Msg) × Inst H) :=
  let bufTx := sealMsg (nextSeqNum s.conf.seqNum) buf
  match isTxOk bus buf s with
  | (false, s) => some ((.error, buf), { s with hw := (bus.rd 15 s.hw).2 })
  | (true, s) =>
    match get15BytesCommProtocolReply bus fuel buf bufTx[1] s.hw with
    | none => none
    | some (rc, r) => some ((replyRc rc bufTx r.rx, r.rx), { s with hw := r.hw })

/-! ## What is on the wire -/

/-- Where the receiver stands. -/
abbrev Spot (H : Type) := Counts × H

def RxState.spot (s : RxState H) : Spot H := (s.counts, s.hw)

def frame (key echo : Byte) (rest : Vector Byte 13) : Msg := #v[key, echo] ++ rest

/-- Two bytes that can begin a message for the request. -/
inductive HeaderAt (bus : I2c H) (txEcho : Byte) : Spot H → Byte → Byte → Spot H → Prop
  | mk {c h key h₁ echo h₂} : c.Waiting → bus.rd 1 h = (some key, h₁) → isReplyKey key[0] →
      bus.rd 1 h₁ = (some echo, h₂) → echoFits txEcho key[0] echo[0] →
      HeaderAt bus txEcho (c, h) key[0] echo[0] ((c.read key[0]).read echo[0], h₂)

/-- Bytes that the receiver drops. -/
inductive Skips (bus : I2c H) (txEcho : Byte) : Spot H → Spot H → Prop
  | noKey {c h b h₁} : c.Waiting → bus.rd 1 h = (some b, h₁) → ¬isReplyKey b[0] →
      Skips bus txEcho (c, h) (c.read b[0], h₁)
  | foreign {c h key h₁ echo h₂} : c.Waiting → bus.rd 1 h = (some key, h₁) → isReplyKey key[0] →
      bus.rd 1 h₁ = (some echo, h₂) → ¬echoFits txEcho key[0] echo[0] →
      Skips bus txEcho (c, h) ((c.read key[0]).read echo[0], h₂)
  | garbled {x key echo c h rest h₁} : HeaderAt bus txEcho x key echo (c, h) → bus.rd 13 h = (some rest, h₁) →
      ¬pd69200CheckSumOk (frame key echo rest) → Skips bus txEcho x (rest.foldl Counts.read c, h₁)

/-- A message that the receiver accepts. -/
inductive MessageAt (bus : I2c H) (txEcho : Byte) : Spot H → Msg → Prop
  | mk {x key echo c h rest h₁} : HeaderAt bus txEcho x key echo (c, h) → bus.rd 13 h = (some rest, h₁) →
      pd69200CheckSumOk (frame key echo rest) → MessageAt bus txEcho x (frame key echo rest)

/-- A byte that cannot be read. -/
inductive BreaksAt (bus : I2c H) (txEcho : Byte) : Spot H → Prop
  | key {c h h₁} : c.Waiting → bus.rd 1 h = (none, h₁) → BreaksAt bus txEcho (c, h)
  | echo {c h key h₁ h₂} : c.Waiting → bus.rd 1 h = (some key, h₁) → isReplyKey key[0] →
      bus.rd 1 h₁ = (none, h₂) → BreaksAt bus txEcho (c, h)
  | rest {x key echo c h h₁} : HeaderAt bus txEcho x key echo (c, h) → bus.rd 13 h = (none, h₁) →
      BreaksAt bus txEcho x

/-- The first message that the receiver accepts. -/
def Arrives (bus : I2c H) (txEcho : Byte) (h : H) (msg : Msg) : Prop :=
  ∃ x, Relation.ReflTransGen (Skips bus txEcho) ({}, h) x ∧ MessageAt bus txEcho x msg

/-- The reply is cut off before a message is complete. -/
def Breaks (bus : I2c H) (txEcho : Byte) (h : H) : Prop :=
  ∃ x, Relation.ReflTransGen (Skips bus txEcho) ({}, h) x ∧ BreaksAt bus txEcho x

/-- The return code of the receiver for a message. -/
def messageRc (msg : Msg) : Rc :=
  if msg[1] = systemStatusEchoKey then (checkForPoeFirmwareErrors msg).1 else .ok

section Receiver

variable {bus : I2c H} {txEcho : Byte} {s : RxState H}

theorem frame_key (key echo : Byte) (rest : Vector Byte 13) : (frame key echo rest)[0] = key := by
  have h : (#v[key, echo] ++ rest)[0] = #v[key, echo][0] := Vector.getElem_append_left (by decide)
  exact h

theorem frame_echo (key echo : Byte) (rest : Vector Byte 13) : (frame key echo rest)[1] = echo := by
  have h : (#v[key, echo] ++ rest)[1] = #v[key, echo][1] := Vector.getElem_append_left (by decide)
  exact h

/-- A pass that reads a whole message. -/
theorem replyStep_of_header {key echo : Byte} {c : Counts} {h h₁ : H} {rest : Vector Byte 13}
    (hhead : HeaderAt bus txEcho s.spot key echo (c, h)) (hrd : bus.rd 13 h = (some rest, h₁)) :
    ∃ t : RxState H, t.rx = frame key echo rest ∧ t.spot = (rest.foldl Counts.read c, h₁) ∧
      replyStep bus txEcho s =
        if ¬pd69200CheckSumOk t.rx then .inl t
        else if t.rx[1] = systemStatusEchoKey then
          .inr ((checkForPoeFirmwareErrors t.rx).1,
            { t with isSystemStatus := true, bootError := (checkForPoeFirmwareErrors t.rx).2 })
        else if t.rx[1] = txEcho then .inr (.ok, t)
        else .inl t := by
  obtain ⟨rx, c₀, st, be, hw⟩ := s
  unfold RxState.spot at hhead
  cases hhead with
  | mk hwait hrd₀ hkey hrd₁ hecho =>
    refine ⟨⟨frame _ _ rest, rest.foldl Counts.read _, st, be, h₁⟩, rfl, rfl, ?_⟩
    simp [replyStep, hwait, hrd₀, hkey, hrd₁, hecho, hrd, frame]
    rfl

theorem replyStep_of_skips {y : Spot H} (h : Skips bus txEcho s.spot y) :
    ∃ t, replyStep bus txEcho s = .inl t ∧ t.spot = y := by
  generalize hx : s.spot = x at h
  cases h with
  | noKey hwait hrd hkey =>
    cases hx
    simp [replyStep, hwait, hrd, hkey, RxState.spot]
  | foreign hwait hrd hkey hrd' hecho =>
    cases hx
    simp [replyStep, hwait, hrd, hkey, hrd', hecho, RxState.spot]
  | garbled hhead hrd hsum =>
    subst hx
    obtain ⟨t, hrx, hspot, hstep⟩ := replyStep_of_header hhead hrd
    refine ⟨t, ?_, hspot⟩
    rw [hstep, hrx, if_pos hsum]

theorem replyStep_of_breaks (h : BreaksAt bus txEcho s.spot) : ∃ t, replyStep bus txEcho s = .inr (.error, t) := by
  obtain ⟨rx, c, st, be, hw⟩ := s
  unfold RxState.spot at h
  generalize hx : (c, hw) = x at h
  cases h with
  | key hwait hrd =>
    cases hx
    simp [replyStep, hwait, hrd]
  | echo hwait hrd hkey hrd' =>
    cases hx
    simp [replyStep, hwait, hrd, hkey, hrd']
  | rest hhead hrd =>
    cases hhead with
    | mk hwait hrd₀ hkey hrd₁ hecho =>
      cases hx
      simp [replyStep, hwait, hrd₀, hkey, hrd₁, hecho, hrd]

theorem replyStep_of_message {msg : Msg} (h : MessageAt bus txEcho s.spot msg) :
    ∃ t, replyStep bus txEcho s = .inr (messageRc msg, t) ∧ t.rx = msg := by
  cases h with
  | @mk key echo _ _ rest _ hhead hrd hsum =>
    have hfits : echoFits txEcho key echo := by
      cases hhead
      assumption
    obtain ⟨t, hrx, -, hstep⟩ := replyStep_of_header hhead hrd
    rw [hstep, hrx, if_neg (not_not.mpr hsum), messageRc, frame_echo]
    by_cases hst : echo = systemStatusEchoKey
    · rw [if_pos hst, if_pos hst]
      exact ⟨_, rfl, rfl⟩
    · have htx : echo = txEcho := by simpa [echoFits, hst] using hfits
      rw [if_neg hst, if_neg hst, if_pos htx]
      exact ⟨t, rfl, hrx⟩

/-- What can stand at a spot. -/
theorem spot_cases (bus : I2c H) (txEcho : Byte) (c : Counts) (h : H) : ¬c.Waiting ∨
    (∃ y, Skips bus txEcho (c, h) y) ∨ BreaksAt bus txEcho (c, h) ∨ ∃ msg, MessageAt bus txEcho (c, h) msg := by
  by_cases hwait : c.Waiting
  swap
  · exact Or.inl hwait
  right
  rcases hrd₀ : bus.rd 1 h with ⟨_ | key, h₁⟩
  · exact Or.inr (Or.inl (.key hwait hrd₀))
  by_cases hkey : isReplyKey key[0]
  swap
  · exact Or.inl ⟨_, .noKey hwait hrd₀ hkey⟩
  rcases hrd₁ : bus.rd 1 h₁ with ⟨_ | echo, h₂⟩
  · exact Or.inr (Or.inl (.echo hwait hrd₀ hkey hrd₁))
  by_cases hecho : echoFits txEcho key[0] echo[0]
  swap
  · exact Or.inl ⟨_, .foreign hwait hrd₀ hkey hrd₁ hecho⟩
  have hhead := HeaderAt.mk hwait hrd₀ hkey hrd₁ hecho
  rcases hrd₂ : bus.rd 13 h₂ with ⟨_ | rest, h₃⟩
  · exact Or.inr (Or.inl (.rest hhead hrd₂))
  by_cases hsum : pd69200CheckSumOk (frame key[0] echo[0] rest)
  · exact Or.inr (Or.inr ⟨_, .mk hhead hrd₂ hsum⟩)
  · exact Or.inl ⟨_, .garbled hhead hrd₂ hsum⟩

/-- One pass of the receiver. -/
theorem replyStep_cases (bus : I2c H) (txEcho : Byte) (s : RxState H) :
    (∃ t, replyStep bus txEcho s = .inl t ∧ Skips bus txEcho s.spot t.spot) ∨
    replyStep bus txEcho s = .inr (s.counts.endRc, s) ∨
    (∃ t, replyStep bus txEcho s = .inr (.error, t)) ∨
    ∃ msg t, MessageAt bus txEcho s.spot msg ∧ replyStep bus txEcho s = .inr (messageRc msg, t) ∧ t.rx = msg := by
  rcases spot_cases bus txEcho s.counts s.hw with h | ⟨y, h⟩ | h | ⟨msg, h⟩
  · exact Or.inr (Or.inl (by simp [replyStep, h]))
  · obtain ⟨t, ht, rfl⟩ := @replyStep_of_skips _ _ _ s _ h
    exact Or.inl ⟨t, ht, h⟩
  · exact Or.inr (Or.inr (Or.inl (replyStep_of_breaks h)))
  · obtain ⟨t, ht, hrx⟩ := @replyStep_of_message _ _ _ s _ h
    exact Or.inr (Or.inr (Or.inr ⟨msg, t, h, ht, hrx⟩))

/-- The receiver ends with a message when one arrives. -/
theorem leads_of_arrives (rx : Msg) {msg : Msg} {h : H} (harr : Arrives bus txEcho h msg) :
    ∃ r, Leads (replyStep bus txEcho) (.start rx h) (messageRc msg, r) ∧ r.rx = msg := by
  obtain ⟨x, hskips, hmsg⟩ := harr
  obtain ⟨t, hpass, rfl⟩ := passes_of_steps (.start rx h) RxState.spot (fun _ _ => replyStep_of_skips) hskips
  obtain ⟨r, hr, hrx⟩ := replyStep_of_message hmsg
  exact ⟨r, leads_iff.mpr ⟨t, hpass, hr⟩, hrx⟩

theorem leads_of_breaks (rx : Msg) {h : H} (hbr : Breaks bus txEcho h) :
    ∃ r, Leads (replyStep bus txEcho) (.start rx h) (.error, r) := by
  obtain ⟨x, hskips, hat⟩ := hbr
  obtain ⟨t, hpass, rfl⟩ := passes_of_steps (.start rx h) RxState.spot (fun _ _ => replyStep_of_skips) hskips
  obtain ⟨r, hr⟩ := replyStep_of_breaks hat
  exact ⟨r, leads_iff.mpr ⟨t, hpass, hr⟩⟩

theorem Counts.endRc_ne_ok (c : Counts) : c.endRc ≠ .ok := by
  unfold Counts.endRc
  split <;> simp

/-- A receiver that ends with `MESA_RC_OK` has taken the first message behind what it has dropped. -/
theorem message_of_leads {r : RxState H} (hl : Leads (replyStep bus txEcho) s (.ok, r)) :
    ∃ x, Relation.ReflTransGen (Skips bus txEcho) s.spot x ∧ MessageAt bus txEcho x r.rx ∧ messageRc r.rx = .ok := by
  obtain ⟨t, hpass, ht⟩ := leads_iff.mp hl
  have hskips := hpass.map RxState.spot (R := Skips bus txEcho) fun s t hst => by
    rcases replyStep_cases bus txEcho s with ⟨u, hu, hsk⟩ | hu | ⟨u, hu⟩ | ⟨msg, u, -, hu, -⟩
    · cases hst.symm.trans hu
      exact hsk
    · cases hst.symm.trans hu
    · cases hst.symm.trans hu
    · cases hst.symm.trans hu
  rcases replyStep_cases bus txEcho t with ⟨u, hu, -⟩ | hu | ⟨u, hu⟩ | ⟨msg, u, hmsg, hu, hrx⟩
  · cases ht.symm.trans hu
  · have hrc := congrArg Prod.fst (Sum.inr.inj (ht.symm.trans hu))
    exact absurd hrc.symm t.counts.endRc_ne_ok
  · cases ht.symm.trans hu
  · have heq := Sum.inr.inj (ht.symm.trans hu)
    have hrc : messageRc msg = .ok := (congrArg Prod.fst heq).symm
    have hr : r.rx = msg := (congrArg (fun x => x.2.rx) heq).trans hrx
    exact ⟨t.spot, hskips, hr ▸ hmsg, hr ▸ hrc⟩

theorem arrives_of_leads {rx : Msg} {h : H} {r : RxState H}
    (hl : Leads (replyStep bus txEcho) (.start rx h) (.ok, r)) : Arrives bus txEcho h r.rx ∧ messageRc r.rx = .ok := by
  obtain ⟨x, hskips, hmsg, hrc⟩ := message_of_leads hl
  exact ⟨⟨x, hskips, hmsg⟩, hrc⟩

/-- The receiver accepts a message only with an accepted checksum, and with the echo of the request or as a system
status. -/
theorem Arrives.fits {h : H} {msg : Msg} (harr : Arrives bus txEcho h msg) :
    pd69200CheckSumOk msg ∧ (msg[0] = telemetryKey ∨ msg[0] = reportKey) ∧
      (msg[1] = txEcho ∨ msg[0] = telemetryKey ∧ msg[1] = systemStatusEchoKey) := by
  obtain ⟨x, -, hmsg⟩ := harr
  cases hmsg with
  | mk hhead hrd hsum =>
    rw [frame_key, frame_echo]
    cases hhead with
    | mk _ _ hkey _ hecho => exact ⟨hsum, by simpa [isReplyKey] using hkey, by simpa [echoFits] using hecho⟩

end Receiver

/-! ## The outcome of a transaction -/

/-- A report whose status bytes are not 0. -/
def NegativeReport (msg : Msg) : Prop := msg[0] = reportKey ∧ ¬(msg[2] = 0#8 ∧ msg[3] = 0#8)

/-- The message answers the request. -/
structure Answers (seqNum : Byte) (tx msg : Msg) : Prop where
  echo : msg[1] = seqNum
  checkSum : pd69200CheckSumOk msg
  report : tx[0] = commandKey ∨ tx[0] = programKey → msg[0] = reportKey ∧ msg[2] = 0#8 ∧ msg[3] = 0#8
  telemetry : tx[0] = requestKey → msg[0] = telemetryKey

/-- The message is the first one to arrive for the request. -/
def Received (bus : I2c H) (tx : Msg) (s : Inst H) (msg : Msg) : Prop :=
  (isTxOk bus tx s).1 = true ∧ Arrives bus (nextSeqNum s.conf.seqNum) (isTxOk bus tx s).2.hw msg

/-- The transaction ends with another code than `MESA_RC_OK`. -/
def Fails (bus : I2c H) (tx : Msg) (s : Inst H) : Prop :=
  ∃ fuel rc msg s', pd69200TxRx bus fuel tx s = some ((rc, msg), s') ∧ rc ≠ .ok

/-- Success means that the buffer holds the answer to the request; a negative report, a system status and a reply that
is cut off are failures. -/
structure Outcome (bus : I2c H) (tx : Msg) (s : Inst H) : Prop where
  answered : ∀ fuel msg s', pd69200TxRx bus fuel tx s = some ((.ok, msg), s') →
    Received bus tx s msg ∧ Answers (nextSeqNum s.conf.seqNum) tx msg
  rejected : ∀ msg, Received bus tx s msg → NegativeReport msg ∨ msg[1] = systemStatusEchoKey → Fails bus tx s
  cut : (isTxOk bus tx s).1 = true → Breaks bus (nextSeqNum s.conf.seqNum) (isTxOk bus tx s).2.hw → Fails bus tx s

/-- A system status with a boot-up error; or a positive report for a command or program message; or, for other
messages, no negative report, unless they are requests. -/
def Acceptable (tx msg : Msg) : Prop :=
  if msg[1] = systemStatusEchoKey then ¬(msg[2] = 0#8 ∧ msg[5] = 0#8)
  else if tx[0] = commandKey ∨ tx[0] = programKey then msg[0] = reportKey ∧ msg[2] = 0#8 ∧ msg[3] = 0#8
  else tx[0] = requestKey ∨ ¬NegativeReport msg

section Outcome

variable {bus : I2c H} {tx msg : Msg} {s : Inst H}

theorem sealMsg_key (seqNum : Byte) (buf : Msg) : (sealMsg seqNum buf)[0] = buf[0] := by
  simp [sealMsg, pd69200UpdateCheckSum]

theorem sealMsg_echo (seqNum : Byte) (buf : Msg) : (sealMsg seqNum buf)[1] = seqNum := by
  simp [sealMsg, pd69200UpdateCheckSum]

/-- The transaction when the receiver ends. -/
theorem txRx_of_leads {rc : Rc} {r : RxState H} (htx : (isTxOk bus tx s).1 = true)
    (hl : Leads (replyStep bus (nextSeqNum s.conf.seqNum)) (.start tx (isTxOk bus tx s).2.hw) (rc, r)) :
    ∃ fuel s', pd69200TxRx bus fuel tx s =
      some ((replyRc rc (sealMsg (nextSeqNum s.conf.seqNum) tx) r.rx, r.rx), s') := by
  obtain ⟨fuel, hfuel⟩ := hl.exists_loop
  rcases hsent : isTxOk bus tx s with ⟨b, u⟩
  rw [hsent] at htx hfuel
  subst htx
  refine ⟨fuel, { u with hw := r.hw }, ?_⟩
  simp only [pd69200TxRx, hsent, get15BytesCommProtocolReply, sealMsg_echo, hfuel]

/-- A transaction that ends with `MESA_RC_OK`. -/
theorem leads_of_txRx {fuel : Nat} {s' : Inst H} (h : pd69200TxRx bus fuel tx s = some ((.ok, msg), s')) :
    (isTxOk bus tx s).1 = true ∧ ∃ rc r,
      Leads (replyStep bus (nextSeqNum s.conf.seqNum)) (.start tx (isTxOk bus tx s).2.hw) (rc, r) ∧
      replyRc rc (sealMsg (nextSeqNum s.conf.seqNum) tx) r.rx = .ok ∧ r.rx = msg := by
  rcases hsent : isTxOk bus tx s with ⟨_ | _, u⟩
  · simp [pd69200TxRx, hsent] at h
  · simp only [pd69200TxRx, hsent, get15BytesCommProtocolReply, sealMsg_echo] at h
    split at h
    · cases h
    · next rc r hloop =>
      simp only [Option.some.injEq, Prod.mk.injEq] at h
      exact ⟨rfl, rc, r, .of_loop hloop, h.1.1, h.1.2⟩

theorem replyRc_eq_ok {rc : Rc} {bufTx buf : Msg} (h : replyRc rc bufTx buf = .ok) : rc = .ok := by
  unfold replyRc at h
  split at h
  · assumption
  · exact h

/-- What `pd69200_tx_rx` makes of an accepted message: only the answer to a request is looked at. -/
theorem replyRc_ok {seqNum : Byte} (hsum : pd69200CheckSumOk msg) : replyRc .ok (sealMsg seqNum tx) msg =
    if tx[0] = requestKey ∧ msg[0] ≠ telemetryKey then .errPoeCommProtErr else .ok := by
  unfold replyRc getControllerRequestResponse
  rw [sealMsg_key, if_pos rfl]
  by_cases hcmd : tx[0] = commandKey ∨ tx[0] = programKey
  · have hreq : tx[0] ≠ requestKey := by
      rcases hcmd with h | h <;> rw [h] <;> decide
    simp [hcmd, hreq]
  · by_cases hreq : tx[0] = requestKey
    · simp [hreq, hsum, commandKey, programKey, requestKey]
    · simp [hcmd, hreq]

theorem received_result (hrec : Received bus tx s msg) : ∃ fuel s', pd69200TxRx bus fuel tx s =
    some ((replyRc (messageRc msg) (sealMsg (nextSeqNum s.conf.seqNum) tx) msg, msg), s') := by
  obtain ⟨r, hl, rfl⟩ := leads_of_arrives tx hrec.2
  exact txRx_of_leads hrec.1 hl

/-- A failed transaction has no other outcome. -/
theorem Fails.not_ok {fuel : Nat} {s' : Inst H} (hf : Fails bus tx s) :
    pd69200TxRx bus fuel tx s ≠ some ((.ok, msg), s') := by
  intro hok
  obtain ⟨htx, rc, r, hl, hrc, -⟩ := leads_of_txRx hok
  obtain ⟨fuel', rc', msg', s'', hfail, hne⟩ := hf
  rcases hsent : isTxOk bus tx s with ⟨b, u⟩
  rw [hsent] at htx hl
  subst htx
  simp only [pd69200TxRx, hsent, get15BytesCommProtocolReply, sealMsg_echo] at hfail
  split at hfail
  · cases hfail
  · next rc₁ r₁ hloop =>
    cases (Leads.of_loop hloop).unique hl
    simp only [Option.some.injEq, Prod.mk.injEq] at hfail
    exact hne (hfail.1.1.symm.trans hrc)

theorem Received.echo (hrec : Received bus tx s msg) (hst : msg[1] ≠ systemStatusEchoKey) :
    msg[1] = nextSeqNum s.conf.seqNum := by
  rcases hrec.2.fits.2.2 with h | ⟨-, h⟩
  · exact h
  · exact absurd h hst

/-- A system status comes under the telemetry key. -/
theorem Received.telemetry (hrec : Received bus tx s msg) (hst : msg[1] = systemStatusEchoKey) :
    msg[0] = telemetryKey := by
  rcases hrec.2.fits.2.2 with h | ⟨h, -⟩
  · exact absurd (h.symm.trans hst) (nextSeqNum_ne _)
  · exact h

theorem messageRc_of_status (hst : msg[1] = systemStatusEchoKey) :
    messageRc msg = .ok ↔ msg[2] = 0#8 ∧ msg[5] = 0#8 := by
  unfold messageRc checkForPoeFirmwareErrors
  rw [if_pos hst]
  by_cases hboot : msg[2] ≠ 0#8 ∨ msg[5] ≠ 0#8
  · rw [if_pos hboot]
    have hne : ¬(msg[2] = 0#8 ∧ msg[5] = 0#8) := fun h => hboot.elim (fun h' => h' h.1) fun h' => h' h.2
    cases bootErrorOf msg <;> simp only [reduceCtorEq, hne]
  · rw [if_neg hboot]
    simpa using hboot

/-- When the receiver accepts a message that `Acceptable` allows and the transaction reports success, the message answers
the request. -/
theorem Acceptable.answers (hacc : Acceptable tx msg) (hrec : Received bus tx s msg)
    (hrc : replyRc (messageRc msg) (sealMsg (nextSeqNum s.conf.seqNum) tx) msg = .ok) :
    Answers (nextSeqNum s.conf.seqNum) tx msg := by
  have hm := replyRc_eq_ok hrc
  have hsum := hrec.2.fits.1
  unfold Acceptable at hacc
  by_cases hst : msg[1] = systemStatusEchoKey
  · rw [if_pos hst] at hacc
    exact absurd ((messageRc_of_status hst).mp hm) hacc
  rw [if_neg hst] at hacc
  rw [hm, replyRc_ok hsum] at hrc
  constructor
  · exact hrec.echo hst
  · exact hsum
  · intro hcmd
    rwa [if_pos hcmd] at hacc
  · intro hreq
    by_contra hkey
    rw [if_pos ⟨hreq, hkey⟩] at hrc
    cases hrc

/-- A negative report or a system status that `Acceptable` allows is a failure. -/
theorem Acceptable.fails (hacc : Acceptable tx msg) (hrec : Received bus tx s msg)
    (hbad : NegativeReport msg ∨ msg[1] = systemStatusEchoKey) : Fails bus tx s := by
  obtain ⟨fuel, s', hres⟩ := received_result hrec
  refine ⟨fuel, _, msg, s', hres, fun hrc => ?_⟩
  have hm := replyRc_eq_ok hrc
  have hans := hacc.answers hrec hrc
  unfold Acceptable at hacc
  by_cases hst : msg[1] = systemStatusEchoKey
  · exact absurd (hans.echo.symm.trans hst) (nextSeqNum_ne _)
  obtain ⟨hkey, hneg⟩ := hbad.resolve_right hst
  rw [if_neg hst] at hacc
  split at hacc
  · exact hneg hacc.2
  · rcases hacc with hreq | hacc
    · have htel := hans.telemetry hreq
      rw [hkey] at htel
      revert htel
      decide
    · exact hacc ⟨hkey, hneg⟩

/-- A transaction of any message, on any controller, has the outcome of `Outcome` exactly when the first message that
arrives, if one does, is acceptable. -/
theorem transaction_outcome (bus : I2c H) (tx : Msg) (s : Inst H) :
    Outcome bus tx s ↔ ∀ msg, Received bus tx s msg → Acceptable tx msg := by
  constructor
  · intro hout msg hrec
    obtain ⟨fuel, s', hres⟩ := received_result hrec
    have hsum := hrec.2.fits.1
    unfold Acceptable
    by_cases hst : msg[1] = systemStatusEchoKey
    · rw [if_pos hst]
      intro hboot
      -- the telemetry key lets a clean status pass for every request
      rw [(messageRc_of_status hst).mpr hboot, replyRc_ok hsum, if_neg (fun h => h.2 (hrec.telemetry hst))] at hres
      exact (hout.rejected msg hrec (Or.inr hst)).not_ok hres
    · have hm : messageRc msg = .ok := if_neg hst
      rw [hm, replyRc_ok hsum] at hres
      rw [if_neg hst]
      split
      · next hcmd =>
        have hreq : tx[0] ≠ requestKey := by
          rcases hcmd with h | h <;> rw [h] <;> decide
        rw [if_neg (fun h => hreq h.1)] at hres
        exact (hout.answered fuel msg s' hres).2.report hcmd
      · by_cases hreq : tx[0] = requestKey
        · exact Or.inl hreq
        · rw [if_neg (fun h => hreq h.1)] at hres
          exact Or.inr fun hneg => (hout.rejected msg hrec (Or.inl hneg)).not_ok hres
  · intro hacc
    constructor
    · intro fuel msg s' hres
      obtain ⟨htx, rc, r, hl, hrc, rfl⟩ := leads_of_txRx hres
      cases replyRc_eq_ok hrc
      obtain ⟨harr, hm⟩ := arrives_of_leads hl
      have hrec : Received bus tx s r.rx := ⟨htx, harr⟩
      exact ⟨hrec, (hacc _ hrec).answers hrec (by rw [hm]; exact hrc)⟩
    · intro msg hrec hbad
      exact (hacc msg hrec).fails hrec hbad
    · intro htx hbr
      obtain ⟨r, hl⟩ := leads_of_breaks tx hbr
      obtain ⟨fuel, s', hres⟩ := txRx_of_leads htx hl
      exact ⟨fuel, _, _, s', hres, by simp [replyRc]⟩

end Outcome

/-! ### A negative report -/

/-- A controller that takes every message and has some bytes to send. -/
def wire : I2c (List Byte) where
  write _ h := (true, h)
  read n h := (some (h.take n), h.drop n)
  read_length n h data hdata := by
    cases hdata
    exact List.length_take_le n h

/-- "Set enable/disable channels", before sequence number and checksum are put in. -/
def benchCommand : Msg :=
  #v[0x00#8, 0x00#8, 0x05#8, 0x0C#8, 0x00#8, 0x01#8, 0x01#8, 0x4E#8, 0x4E#8, 0x4E#8, 0x4E#8, 0x4E#8, 0x4E#8, 0x4E#8, 0x4E#8]

/-- The data and the checksum of a report for sequence number 1: "failed execution". -/
def benchRest : Vector Byte 13 :=
  #v[0x00#8, 0x01#8, 0x00#8, 0x00#8, 0x00#8, 0x00#8, 0x00#8, 0x00#8, 0x00#8, 0x00#8, 0x00#8, 0x00#8, 0x54#8]

def benchInst : Inst (List Byte) := ⟨{}, 0x52#8 :: 0x01#8 :: benchRest.toList⟩

theorem benchReport_received : Received wire benchCommand benchInst (frame 0x52#8 0x01#8 benchRest) := by
  have hkey : wire.rd 1 (0x52#8 :: 0x01#8 :: benchRest.toList) = (some #v[0x52#8], 0x01#8 :: benchRest.toList) := rfl
  have hecho : wire.rd 1 (0x01#8 :: benchRest.toList) = (some #v[0x01#8], benchRest.toList) := rfl
  have hrest : wire.rd 13 benchRest.toList = (some benchRest, []) := rfl
  have hhead : HeaderAt wire 0x01#8 ({}, 0x52#8 :: 0x01#8 :: benchRest.toList) 0x52#8 0x01#8
      ((({} : Counts).read 0x52#8).read 0x01#8, benchRest.toList) :=
    .mk (by decide) hkey (by decide) hecho (by decide)
  exact ⟨rfl, _, .refl, .mk hhead hrest (by decide)⟩

/-- The command fails in the controller, and the transaction reports success. -/
theorem not_transaction_outcome : ¬∀ (tx : Msg) (s : Inst (List Byte)), Outcome wire tx s := by
  intro h
  obtain ⟨fuel, s', hres⟩ := received_result benchReport_received
  have hm : messageRc (frame 0x52#8 0x01#8 benchRest) = .ok := by decide
  rw [hm, replyRc_ok (by decide), if_neg (by decide)] at hres
  have hrep := ((h benchCommand benchInst).answered fuel _ s' hres).2.report (Or.inl rfl)
  revert hrep
  decide

end Lan80xx.Poe
