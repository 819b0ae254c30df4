import Lan80xx.Lib.Journal
import Lan80xx.Mailbox.Command

/-!
# Mailbox: what a return code says of the responses

The history of the mailbox notes every request with the response that was read for it. A command that returns the code of
success has a response that passed the check and carries the id expected, unless a response failed the check on the way:
then the command returns the code of the read before it, or does not return at all (`integrity_iff`).
-/

namespace Lan80xx.Mailbox

open ByteMem Fallible RegBus Journal

variable {H α β : Type} {host : Host H}

/-! ## One exchange -/

/-- The history of the mailbox. -/
abbrev history (s : Dev McuConf H) : List Exchange := s.conf.exchanges

/-- Calls that change no data of the driver but the response buffer. -/
def respOnly : Frame (Dev McuConf H) where
  rel s s' := ∃ resp, s'.conf = { s.conf with resp := resp }
  refl s := ⟨s.conf.resp, rfl⟩
  trans := by
    rintro a b c ⟨r, hab⟩ ⟨r', hbc⟩
    exact ⟨r', by rw [hbc, hab]⟩

section RespOnly

theorem respOnly_of_conf {s s' : Dev McuConf H} (h : s'.conf = s.conf) : respOnly.rel s s' := ⟨s.conf.resp, h⟩

theorem respOnly_csrRd (r : McuReg) : Within respOnly (csrRd host r) :=
  (within_read (W := Set.univ) host.bus McuRc.access r).mono fun _ _ h => respOnly_of_conf h.1

theorem respOnly_csrWr (r : McuReg) (v : BitVec 32) : Within respOnly (csrWr host r v) :=
  (within_write (W := Set.univ) host.bus McuRc.access v fun _ _ => Set.mem_univ _).mono fun _ _ h => respOnly_of_conf h.1

theorem respOnly_gpioRead : Within respOnly (gpioRead host) := by
  intro s
  cases hg : host.gpioRead with
  | none =>
    simp only [final, gpioRead, hg]
    exact respOnly_of_conf rfl
  | some gpio =>
    simp only [final, gpioRead, hg]
    exact respOnly_of_conf rfl

theorem respOnly_msleep : Within respOnly (msleep host) := fun _ => respOnly_of_conf rfl

theorem respOnly_waitMcuReady : ∀ n, Within respOnly (waitMcuReady host n)
  | 0 => Within.throw _
  | n + 1 => (respOnly_csrRd _).bind fun _ => Within.ite (respOnly_waitMcuReady n) (Within.pure _)

theorem respOnly_sendRequest (cmdPkt : Mem) (dataLen : BitVec 16) : Within respOnly (sendRequest host cmdPkt dataLen) := by
  refine Within.failIf.bind fun _ => (Within.forUpTo _ fun k _ => respOnly_csrWr _ _).bind fun _ => ?_
  refine Within.failIf.bind fun _ => respOnly_gpioRead.bind fun _ => ?_
  refine (Within.when fun _ => respOnly_waitMcuReady _).bind fun _ => (respOnly_csrRd _).bind fun _ => ?_
  exact (respOnly_csrWr _ _).bind fun _ => respOnly_csrWr _ _

theorem respOnly_waitHostIntr : ∀ n, Within respOnly (waitHostIntr host n)
  | 0 => Within.pure _
  | n + 1 => by
    refine respOnly_gpioRead.bind fun _ => Within.bind ?_ fun _ => ?_
    · exact Within.ite (respOnly_csrRd _) (Within.pure _)
    · exact Within.ite (Within.pure _) (respOnly_msleep.bind fun _ => respOnly_waitHostIntr n)

theorem respOnly_storeResp (off : Nat) (v : BitVec 32) :
    Within respOnly (modifyConf fun c => { c with resp := storeWord c.resp off v } : Call H PUnit) :=
  fun s => ⟨storeWord s.conf.resp off v, rfl⟩

theorem respOnly_fetchResponse : Within respOnly (fetchResponse host) := by
  refine (respOnly_csrRd _).bind fun _ => Within.ite ?_ ?_
  · exact (respOnly_csrWr _ _).attempt.bind fun _ => Within.throw _
  · refine (respOnly_storeResp _ _).bind fun _ => Within.bind (Within.forUpTo _ fun k _ => ?_) fun _ => ?_
    · exact (respOnly_csrRd _).bind fun _ => respOnly_storeResp _ _
    · exact (respOnly_csrWr _ _).bind fun _ => Within.pure _

theorem respOnly_readResponse (timeout : Nat) : Within respOnly (readResponse host timeout) := by
  refine Within.failIf.bind fun _ => (respOnly_waitHostIntr _).bind fun _ => Within.ite ?_ respOnly_fetchResponse
  refine (respOnly_csrRd _).bind fun _ => (respOnly_csrRd _).bind fun _ => (respOnly_csrRd _).bind fun _ => ?_
  exact (respOnly_csrWr _ _).attempt.bind fun _ => Within.throw _

theorem respOnly_transfer (host : Host H) (cmdPkt : Mem) (dataLen : BitVec 16) (timeout : Nat) :
    Within respOnly (sendRequest host cmdPkt dataLen >>= fun _ => readResponse host timeout) :=
  (respOnly_sendRequest _ _).bind fun _ => respOnly_readResponse _

theorem unlogged_of_respOnly {x : Call H α} (h : Within respOnly x) : Within (unlogged history) x :=
  h.mono fun s s' ⟨_, hconf⟩ => show s'.conf.exchanges = s.conf.exchanges by rw [hconf]

end RespOnly

/-- A command notes one exchange. It fails when no response was read, and otherwise does what the response says. -/
def Exchanged (packetId reserved : Byte) (cmdData : List Byte) (decode : BitVec 16 → Mem → Except McuRc α)
    (r : Except McuRc (Option α)) (new : List Exchange) : Prop :=
  ∃ response, new = [⟨packetId, reserved, cmdData, response⟩] ∧
    match response with
    | .error rc => r = .error rc
    | .ok m => ∃ len, r = interpret packetId decode len m

theorem adds_command (packetId reserved : Byte) (cmdData : List Byte) (timeout : Nat)
    (decode : BitVec 16 → Mem → Except McuRc α) :
    Adds history (command host packetId reserved cmdData timeout decode) (Exchanged packetId reserved cmdData decode) := by
  intro s
  have hkeep := unlogged_of_respOnly (respOnly_transfer host (createPacket packetId cmdData reserved fun _ => 0).1
    (createPacket packetId cmdData reserved fun _ => 0).2 timeout) s
  cases hx : (sendRequest host (createPacket packetId cmdData reserved fun _ => 0).1
      (createPacket packetId cmdData reserved fun _ => 0).2 >>= fun _ => readResponse host timeout) s with
  | ok len t =>
    rw [final, hx] at hkeep
    have hex : exchange host packetId reserved cmdData timeout s = .ok len { t with conf := { t.conf with
        exchanges := t.conf.exchanges ++ [⟨packetId, reserved, cmdData, Except.ok t.conf.resp⟩] } } := by
      simp only [exchange, hx]
    have hcmd : command host packetId reserved cmdData timeout decode s =
        (ofExcept (interpret packetId decode len t.conf.resp) : Call H (Option α)) { t with conf := { t.conf with
          exchanges := t.conf.exchanges ++ [⟨packetId, reserved, cmdData, Except.ok t.conf.resp⟩] } } := by
      simp only [command, Bind.bind, EStateM.bind, hex]
      rfl
    refine ⟨[⟨packetId, reserved, cmdData, Except.ok t.conf.resp⟩], ?_, _, rfl, len, ?_⟩
    · rw [final, hcmd, ← hkeep]
      cases interpret packetId decode len t.conf.resp <;> rfl
    · rw [outcome, hcmd]
      cases interpret packetId decode len t.conf.resp <;> rfl
  | error e t =>
    rw [final, hx] at hkeep
    have hex : exchange host packetId reserved cmdData timeout s = .error e { t with conf := { t.conf with
        exchanges := t.conf.exchanges ++ [⟨packetId, reserved, cmdData, Except.error e⟩] } } := by
      simp only [exchange, hx]
    have hcmd : command host packetId reserved cmdData timeout decode s = .error e { t with conf := { t.conf with
        exchanges := t.conf.exchanges ++ [⟨packetId, reserved, cmdData, Except.error e⟩] } } := by
      simp only [command, Bind.bind, EStateM.bind, hex]
    refine ⟨[⟨packetId, reserved, cmdData, Except.error e⟩], ?_, _, rfl, ?_⟩
    · rw [final, hcmd, ← hkeep]
    · rw [outcome, hcmd]

/-! ## What a response can be -/

/-- The buffer passes `lan80xx_ValidatePacket`. -/
def Valid (m : Mem) : Prop := validatePacket (fun i => some (m i)) = some (.ok ())

/-- The answer to a command: it passes the check and carries the id expected. -/
def Genuine (packetId : Byte) (m : Mem) : Prop := Valid m ∧ m 0 = packetId + 0x80

/-- A response that passes the check; one to some other command is short enough for `packet_dump`. -/
def Tolerable (packetId : Byte) (m : Mem) : Prop :=
  Valid m ∧ (m 0 ≠ packetId + 0x80 → (pktLenOf m).toNat ≤ 252)

namespace Exchange

/-- The answer was read. -/
def Confirmed (e : Exchange) : Prop := ∃ m, e.response = .ok m ∧ Genuine e.packetId m

/-- A response was read that is not the answer: corrupted, truncated or foreign. -/
def Bogus (e : Exchange) : Prop := ∃ m, e.response = .ok m ∧ ¬Genuine e.packetId m

/-- What was read, if anything, is tolerable. -/
def Tolerated (e : Exchange) : Prop := ∀ m, e.response = .ok m → Tolerable e.packetId m

theorem Confirmed.not_bogus {e : Exchange} (h : e.Confirmed) : ¬e.Bogus := by
  obtain ⟨m, hm, hg⟩ := h
  rintro ⟨m', hm', hng⟩
  rw [hm] at hm'
  cases hm'
  exact hng hg

theorem tolerated_of_not_bogus {e : Exchange} (h : ¬e.Bogus) : e.Tolerated := by
  intro m hm
  have hg : Genuine e.packetId m := Classical.byContradiction fun hg => h ⟨m, hm, hg⟩
  exact ⟨hg.1, fun hid => absurd hg.2 hid⟩

end Exchange

section Interpret

variable {packetId : Byte} {decode : BitVec 16 → Mem → Except McuRc α} {len : BitVec 16} {m : Mem}

theorem interpret_genuine (h : Genuine packetId m) : interpret packetId decode len m = (decode len m).map some := by
  rw [interpret, show validatePacket (fun i => some (m i)) = some (.ok ()) from h.1]
  exact if_pos h.2

/-- A response to another command is rejected, unless it is too long to be dumped. -/
theorem interpret_foreign (decode : BitVec 16 → Mem → Except McuRc α) (len : BitVec 16) (hv : Valid m) (hid : m 0 ≠ packetId + 0x80) :
    ((pktLenOf m).toNat ≤ 252 ∧ ∃ rc, rc ≠ .hang ∧ interpret packetId decode len m = .error rc) ∨
      (252 < (pktLenOf m).toNat ∧ interpret packetId decode len m = .error .hang) := by
  have hint : interpret packetId decode len m = packetDump (pktLenOf m) >>= fun _ =>
      .error (if m 0 = packetId + 0x81 then .failResponse else .cmdProtoNoSync) := by
    rw [interpret, show validatePacket (fun i => some (m i)) = some (.ok ()) from hv]
    exact if_neg hid
  by_cases hlen : (pktLenOf m).toNat ≤ 252
  · refine Or.inl ⟨hlen, (if m 0 = packetId + 0x81 then .failResponse else .cmdProtoNoSync), ?_, ?_⟩
    · split <;> decide
    · rw [hint, packetDump, if_neg (by unfold maxPayloadLen; omega)]
      rfl
  · refine Or.inr ⟨by omega, ?_⟩
    rw [hint, packetDump, if_pos (by unfold maxPayloadLen; omega)]
    rfl

/-- A response that fails the check is not rejected. -/
theorem interpret_invalid (packetId : Byte) (decode : BitVec 16 → Mem → Except McuRc α) (len : BitVec 16) (hv : ¬Valid m) :
    interpret packetId decode len m = .ok none ∨ interpret packetId decode len m = .error .hang := by
  unfold interpret
  split
  · next h => exact absurd h hv
  · exact Or.inr rfl
  · exact Or.inl rfl

end Interpret

/-! ## What an outcome says of the responses -/

/-- How the outcome of a call goes with the exchanges it made. `done` tells the values that the call returns when it came
to its end from those that it returns when it stopped at a response that fails the check. -/
structure Reported (done : α → Prop) (r : Except McuRc α) (new : List Exchange) : Prop where
  ok : ∀ a, r = .ok a → done a → ∀ e ∈ new, e.Confirmed
  stopped : ∀ a, r = .ok a → ¬done a → ∃ e ∈ new, ¬e.Tolerated
  error : ∀ rc, r = .error rc → rc ≠ .hang → ∀ e ∈ new, e.Tolerated
  hang : r = .error .hang → (∃ e ∈ new, ¬e.Tolerated) ∨ ∀ e ∈ new, ¬e.Bogus

section Reported

variable {done : α → Prop} {done' : β → Prop} {x : Call H α} {f : α → Call H β}

theorem Reported.of_done {a : α} {new : List Exchange} (hd : done a) (h : ∀ e ∈ new, e.Confirmed) :
    Reported done (.ok a) new where
  ok _ _ _ := h
  stopped b hb hnb := by
    cases hb
    exact absurd hd hnb
  error _ hr := by cases hr
  hang hr := by cases hr

theorem Reported.of_stopped {a : α} {new : List Exchange} (hd : ¬done a) (h : ∃ e ∈ new, ¬e.Tolerated) :
    Reported done (.ok a) new where
  ok b hb hdb := by
    cases hb
    exact absurd hdb hd
  stopped _ _ _ := h
  error _ hr := by cases hr
  hang hr := by cases hr

theorem Reported.of_error {rc : McuRc} {new : List Exchange} (hrc : rc ≠ .hang) (h : ∀ e ∈ new, e.Tolerated) :
    Reported done (.error rc) new where
  ok _ hr := by cases hr
  stopped _ hr := by cases hr
  error _ _ _ := h
  hang hr := by
    cases hr
    exact absurd rfl hrc

theorem Reported.of_hang {new : List Exchange} (h : (∃ e ∈ new, ¬e.Tolerated) ∨ ∀ e ∈ new, ¬e.Bogus) :
    Reported done (.error .hang) new where
  ok _ hr := by cases hr
  stopped _ hr := by cases hr
  error _ hr hrc := by
    cases hr
    exact absurd rfl hrc
  hang _ := h

/-- Without a bogus response any error will do. -/
theorem Reported.of_not_bogus {rc : McuRc} {new : List Exchange} (h : ∀ e ∈ new, ¬e.Bogus) :
    Reported done (.error rc) new := by
  by_cases hrc : rc = .hang
  · subst hrc
    exact .of_hang (Or.inr h)
  · exact .of_error hrc fun e he => Exchange.tolerated_of_not_bogus (h e he)

/-- What an exchange makes of the outcome. -/
theorem Exchanged.reported {packetId reserved : Byte} {cmdData : List Byte} {decode : BitVec 16 → Mem → Except McuRc α}
    {r : Except McuRc (Option α)} {new : List Exchange}
    (h : Exchanged packetId reserved cmdData decode r new) : Reported (fun o => o.isSome = true) r new := by
  obtain ⟨response, rfl, hr⟩ := h
  have hone {P : Exchange → Prop} (h : P ⟨packetId, reserved, cmdData, response⟩) :
      ∀ e ∈ [(⟨packetId, reserved, cmdData, response⟩ : Exchange)], P e := fun e he => List.mem_singleton.mp he ▸ h
  cases response with
  | error rc =>
    rw [show r = .error rc from hr]
    exact .of_not_bogus (hone fun ⟨_, hm, _⟩ => by cases hm)
  | ok m =>
    obtain ⟨len, rfl⟩ := hr
    by_cases hv : Valid m
    · by_cases hid : m 0 = packetId + 0x80
      · have hc := hone (P := Exchange.Confirmed) ⟨m, rfl, hv, hid⟩
        rw [interpret_genuine ⟨hv, hid⟩]
        cases decode len m with
        | ok b => exact .of_done rfl hc
        | error rc => exact .of_not_bogus fun e he => (hc e he).not_bogus
      · rcases interpret_foreign decode len hv hid with ⟨hlen, rc, hrc, hint⟩ | ⟨hlen, hint⟩
        · rw [hint]
          refine .of_error hrc (hone fun m' hm' => ?_)
          cases hm'
          exact ⟨hv, fun _ => hlen⟩
        · rw [hint]
          refine .of_hang (Or.inl ⟨_, List.mem_singleton.mpr rfl, fun ht => ?_⟩)
          have := (ht m rfl).2 hid
          omega
    · have hbad : ∃ e ∈ [(⟨packetId, reserved, cmdData, .ok m⟩ : Exchange)], ¬e.Tolerated :=
        ⟨_, List.mem_singleton.mpr rfl, fun ht => hv (ht m rfl).1⟩
      rcases interpret_invalid packetId decode len hv with hint | hint
      · rw [hint]
        exact .of_stopped (fun h => by cases h) hbad
      · rw [hint]
        exact .of_hang (Or.inl hbad)

theorem Reported.append {a : α} {r : Except McuRc β} {new new' : List Exchange} (hx : Reported done (.ok a) new)
    (hf : done a → Reported done' r new') (hstop : ¬done a → ∃ b, r = .ok b ∧ ¬done' b) :
    Reported done' r (new ++ new') := by
  by_cases hd : done a
  · have hnew := hx.ok a rfl hd
    have hrest := hf hd
    refine ⟨fun b hb hdb e he => ?_, fun b hb hdb => ?_, fun rc hr hrc e he => ?_, fun hr => ?_⟩
    · rcases List.mem_append.mp he with he | he
      · exact hnew e he
      · exact hrest.ok b hb hdb e he
    · obtain ⟨e, he, ht⟩ := hrest.stopped b hb hdb
      exact ⟨e, List.mem_append_right _ he, ht⟩
    · rcases List.mem_append.mp he with he | he
      · exact Exchange.tolerated_of_not_bogus (hnew e he).not_bogus
      · exact hrest.error rc hr hrc e he
    · rcases hrest.hang hr with ⟨e, he, ht⟩ | hall
      · exact Or.inl ⟨e, List.mem_append_right _ he, ht⟩
      · refine Or.inr fun e he => ?_
        rcases List.mem_append.mp he with he | he
        · exact (hnew e he).not_bogus
        · exact hall e he
  · obtain ⟨b, rfl, hdb⟩ := hstop hd
    obtain ⟨e, he, ht⟩ := hx.stopped a rfl hd
    exact .of_stopped hdb ⟨e, List.mem_append_left _ he, ht⟩

/-- A call that goes on only after an answer. -/
theorem adds_reported_bind (hx : Adds history x (Reported done))
    (hf : ∀ a, done a → Adds history (f a) (Reported done')) (hstop : ∀ a, ¬done a → ∃ b, f a = pure b ∧ ¬done' b) :
    Adds history (x >>= f) (Reported done') := by
  refine Adds.bind (G := fun a r new => (done a → Reported done' r new) ∧ (¬done a → ∃ b, r = .ok b ∧ ¬done' b))
    hx (fun a => ?_) (fun a r new new' h h' => h.append h'.1 h'.2) fun e new h => ?_
  · by_cases hd : done a
    · exact (hf a hd).weaken fun _ _ h => ⟨fun _ => h, fun hn => absurd hd hn⟩
    · obtain ⟨b, hb, hdb⟩ := hstop a hd
      rw [hb]
      exact Adds.pure ⟨fun h => absurd h hd, fun _ => ⟨b, rfl, hdb⟩⟩
  · by_cases he : e = .hang
    · subst he
      exact .of_hang (h.hang rfl)
    · exact .of_error he (h.error e rfl he)

/-- The value of a call, seen by the caller only as whether it came to its end. -/
theorem adds_reported_map {g : α → β} (hx : Adds history x (Reported done)) (h : ∀ a, done' (g a) ↔ done a) :
    Adds history (x >>= fun a => pure (g a)) (Reported done') :=
  adds_reported_bind hx (fun a hd => Adds.pure (.of_done ((h a).mpr hd) fun _ he => absurd he List.not_mem_nil))
    fun a hd => ⟨g a, rfl, fun hg => hd ((h a).mp hg)⟩

theorem adds_reported_failIf {b : Prop} [Decidable b] {rc : McuRc} {f : Unit → Call H β}
    (hf : Adds history (f ()) (Reported done')) : Adds history (failIf b rc >>= f) (Reported done') :=
  Adds.failIf_bind (fun _ => .of_not_bogus fun _ he => absurd he List.not_mem_nil) fun _ => hf

/-- A step that sends nothing. -/
theorem adds_reported_unlogged (hx : Within (unlogged history) x) (hf : ∀ a, Adds history (f a) (Reported done')) :
    Adds history (x >>= f) (Reported done') :=
  Adds.bind (Adds.silent (D := fun _ new => new = []) hx fun _ => rfl) hf
    (fun _ _ _ _ hnew h => by rw [hnew]; exact h) fun _ _ hnew => by
      rw [hnew]
      exact .of_not_bogus fun _ he => absurd he List.not_mem_nil

end Reported

/-! ## The commands -/

theorem adds_command_reported {packetId reserved : Byte} {cmdData : List Byte} {timeout : Nat}
    {decode : BitVec 16 → Mem → Except McuRc α} :
    Adds history (command host packetId reserved cmdData timeout decode) (Reported fun o => o.isSome = true) :=
  (adds_command _ _ _ _ _).weaken fun _ _ h => h.reported

/-- The read loop: each round is one command. -/
theorem adds_otpReadFrom : ∀ n addr rest,
    Adds history (otpReadFrom host n addr rest) (Reported fun p => p.2 = true)
  | 0, _, _ => Adds.pure (.of_done rfl fun _ he => absurd he List.not_mem_nil)
  | n + 1, addr, rest => by
    refine Adds.ite (fun _ => Adds.pure (.of_done rfl fun _ he => absurd he List.not_mem_nil)) fun hrest => ?_
    refine adds_reported_bind adds_command_reported (fun chunk hd => ?_) fun chunk hn => ?_
    · obtain ⟨data, rfl⟩ := Option.isSome_iff_exists.mp hd
      exact adds_reported_map (adds_otpReadFrom n _ _) fun _ => Iff.rfl
    · obtain rfl := Option.not_isSome_iff_eq_none.mp hn
      exact ⟨_, rfl, Bool.false_ne_true⟩

theorem adds_otpWriteFrom (mode : Byte) : ∀ n addr data,
    Adds history (otpWriteFrom host mode n addr data) (Reported fun complete => complete = true)
  | 0, _, _ => Adds.pure (.of_done rfl fun _ he => absurd he List.not_mem_nil)
  | n + 1, addr, data => by
    refine Adds.ite (fun _ => Adds.pure (.of_done rfl fun _ he => absurd he List.not_mem_nil)) fun hdata => ?_
    refine adds_reported_bind adds_command_reported (fun chunk hd => ?_) fun chunk hs => ?_
    · obtain ⟨_, rfl⟩ := Option.isSome_iff_exists.mp hd
      exact adds_otpWriteFrom mode n _ _
    · obtain rfl := Option.not_isSome_iff_eq_none.mp hs
      exact ⟨_, rfl, Bool.false_ne_true⟩

theorem unlogged_setKrlog (ports : Byte) :
    Within (unlogged history) (modifyConf fun c => { c with krlogEnPorts := ports } : Call H PUnit) := fun _ => rfl

theorem adds_krLogEnable (channelId : Nat) (enable linePort hostPort : Bool) :
    Adds history (krLogEnable host channelId enable linePort hostPort) (Reported fun o => o.isSome = true) := by
  refine adds_reported_unlogged within_getConf fun conf => Adds.ite (fun _ => ?_) fun _ => ?_
  · exact adds_reported_unlogged (unlogged_setKrlog _) fun _ =>
      Adds.pure (.of_done rfl fun _ he => absurd he List.not_mem_nil)
  · refine adds_reported_failIf (adds_reported_failIf (adds_reported_bind adds_command_reported (fun answer hd => ?_)
      fun answer hn => ?_))
    · exact adds_reported_unlogged (Within.when fun _ => unlogged_setKrlog _) fun _ =>
        Adds.pure (.of_done hd fun _ he => absurd he List.not_mem_nil)
    · obtain rfl := Option.not_isSome_iff_eq_none.mp hn
      exact ⟨none, rfl, hn⟩

/-- The mailbox commands of the driver. -/
inductive Command
  | getFwInfo
  | memoryRead (addr : BitVec 32) (len : BitVec 16)
  | memoryWrite (addr : BitVec 32) (data : List Byte)
  | otpCfgRead (recIdx : Byte)
  | otpRead (offset len : BitVec 16)
  | otpWrite (data : List Byte) (offset : BitVec 16) (mode : Byte)
  | otpGetKeyStatus
  | otpProgReplacementKey (keyNo : Byte) (keyData : Vector Byte 128)
  | revokeAllOtpKeys
  | revokeRotKey
  | getSerdesConfig (speed : Byte) (cfgType : SerdesType)
  | setSerdesConfig (speed : Byte) (cfgType : SerdesType) (data : Vector Byte serdesSize)
  | krLogEnable (channelId : Nat) (enable linePort hostPort : Bool)
  | krLogReset (offset : BitVec 32) (len : BitVec 16)

/-- The function of the driver: whether it came to its end, when it returns the code of success. -/
def Command.call (host : Host H) : Command → Call H Bool
  | getFwInfo => return (← Mailbox.getFwInfo host).isSome
  | memoryRead addr len => return (← Mailbox.memoryRead host addr len).isSome
  | memoryWrite addr data => return (← Mailbox.memoryWrite host addr data).isSome
  | otpCfgRead recIdx => return (← Mailbox.otpCfgRead host recIdx).isSome
  | otpRead offset len => return (← Mailbox.otpRead host offset len).2
  | otpWrite data offset mode => Mailbox.otpWrite host data offset mode
  | otpGetKeyStatus => return (← Mailbox.otpGetKeyStatus host).isSome
  | otpProgReplacementKey keyNo keyData => return (← Mailbox.otpProgReplacementKey host keyNo keyData).isSome
  | revokeAllOtpKeys => return (← Mailbox.revokeAllOtpKeys host).isSome
  | revokeRotKey => return (← Mailbox.revokeRotKey host).isSome
  | getSerdesConfig speed cfgType => return (← Mailbox.getSerdesConfig host speed cfgType).isSome
  | setSerdesConfig speed cfgType data => return (← Mailbox.setSerdesConfig host speed cfgType data).isSome
  | krLogEnable channelId enable linePort hostPort =>
    return (← Mailbox.krLogEnable host channelId enable linePort hostPort).isSome
  | krLogReset offset len => return (← Mailbox.krLogReset host offset len).isSome

/-- Every command reports its exchanges. -/
theorem adds_call (c : Command) : Adds history (c.call host) (Reported fun complete => complete = true) := by
  have hmap {α : Type} {x : Call H (Option α)} (hx : Adds history x (Reported fun o => o.isSome = true)) :
      Adds history (x >>= fun o => pure o.isSome) (Reported fun complete => complete = true) :=
    adds_reported_map hx fun _ => Iff.rfl
  cases c with
  | getFwInfo => exact hmap adds_command_reported
  | memoryRead addr len => exact hmap (adds_reported_failIf adds_command_reported)
  | memoryWrite addr data => exact hmap (adds_reported_failIf adds_command_reported)
  | otpCfgRead recIdx => exact hmap (adds_reported_failIf adds_command_reported)
  | otpRead offset len => exact adds_reported_map (adds_reported_failIf (adds_otpReadFrom _ _ _)) fun _ => Iff.rfl
  | otpWrite data offset mode => exact adds_reported_failIf (adds_otpWriteFrom _ _ _ _)
  | otpGetKeyStatus => exact hmap adds_command_reported
  | otpProgReplacementKey keyNo keyData => exact hmap adds_command_reported
  | revokeAllOtpKeys => exact hmap adds_command_reported
  | revokeRotKey => exact hmap adds_command_reported
  | getSerdesConfig speed cfgType => exact hmap adds_command_reported
  | setSerdesConfig speed cfgType data =>
    refine hmap ?_
    cases cfgType with
    | part p => exact adds_command_reported
    | whole => exact adds_command_reported
    | unknown code => exact Adds.throw (.of_not_bogus fun _ he => absurd he List.not_mem_nil)
  | krLogEnable channelId enable linePort hostPort => exact hmap (adds_krLogEnable _ _ _ _)
  | krLogReset offset len => exact hmap adds_command_reported

/-! ## The return code -/

/-- A command returns the code of success only with the answers it asked for, and an error code for any response that is
not the answer. -/
structure Integrity (host : Host H) (c : Command) (s : Dev McuConf H) : Prop where
  success : ∀ complete s', c.call host s = .ok complete s' → ∀ e ∈ added history s s', e.Confirmed
  rejects : ∀ e ∈ added history s (final (c.call host) s), e.Bogus →
    ∃ rc s', c.call host s = .error rc s' ∧ rc ≠ .hang

/-- A command keeps its word exactly when every response that it reads passes the check, and no response to another
command is longer than `packet_dump` can index. -/
theorem integrity_iff (host : Host H) (c : Command) (s : Dev McuConf H) :
    Integrity host c s ↔ ∀ e ∈ added history s (final (c.call host) s), e.Tolerated := by
  have hr : Reported (fun complete => complete = true) (outcome (c.call host) s) (added history s (final (c.call host) s)) :=
    (adds_call c).added s
  cases hx : c.call host s with
  | ok complete t =>
    rw [outcome_ok hx] at hr
    have ht : final (c.call host) s = t := by rw [final, hx]
    rw [ht] at hr ⊢
    by_cases hc : complete = true
    · have hall := hr.ok _ rfl hc
      refine iff_of_true ⟨fun b t' h => ?_, fun e he hb => ?_⟩ fun e he =>
        Exchange.tolerated_of_not_bogus (hall e he).not_bogus
      · rw [hx] at h
        cases h
        exact hall
      · rw [ht] at he
        exact absurd hb (hall e he).not_bogus
    · obtain ⟨e, he, hbad⟩ := hr.stopped _ rfl hc
      refine iff_of_false (fun h => hbad ?_) fun h => hbad (h e he)
      exact Exchange.tolerated_of_not_bogus (h.success complete t hx e he).not_bogus
  | error rc t =>
    rw [outcome_error hx] at hr
    have ht : final (c.call host) s = t := by rw [final, hx]
    rw [ht] at hr ⊢
    have hsuccess : ∀ complete s', c.call host s = .ok complete s' → ∀ e ∈ added history s s', e.Confirmed := by
      intro complete s' h
      rw [hx] at h
      cases h
    by_cases hrc : rc = .hang
    · subst hrc
      have hnone : ¬∃ rc s', c.call host s = .error rc s' ∧ rc ≠ .hang := by
        rintro ⟨rc, s', h, hne⟩
        rw [hx] at h
        cases h
        exact hne rfl
      rcases hr.hang rfl with ⟨e, he, hbad⟩ | hall
      · refine iff_of_false (fun h => ?_) fun h => hbad (h e he)
        have hbogus : e.Bogus := Classical.byContradiction fun hb => hbad (Exchange.tolerated_of_not_bogus hb)
        exact hnone (h.rejects e (ht ▸ he) hbogus)
      · exact iff_of_true ⟨hsuccess, fun e he hb => absurd hb (hall e (ht ▸ he))⟩ fun e he =>
          Exchange.tolerated_of_not_bogus (hall e he)
    · exact iff_of_true ⟨hsuccess, fun e _ _ => ⟨rc, t, hx, hrc⟩⟩ fun e he => hr.error rc rfl hrc e he

/-- A board whose registers are storage, and whose MCU has raised the host interrupt. -/
def answeringBoard : Host (McuReg → BitVec 32) where
  bus := (storage statusReg fun _ => False).toBus
  gpioRead := some fun _ => 1
  msleep := id
  patience := 1

/-- A response to `eGET_DEVICE_INFO` is there, truncated to its header. -/
def truncated : Dev McuConf (McuReg → BitVec 32) where
  conf := {}
  hw r := if r = flagReg then 2 else if r = respReg 0 then 0x00020080 else 0

/-- The truncated response is taken for a success. -/
theorem not_integrity_truncated : ¬Integrity answeringBoard .getFwInfo truncated := by
  intro h
  have hout : outcome (Command.getFwInfo.call answeringBoard) truncated = .ok false := by rfl
  cases hx : Command.getFwInfo.call answeringBoard truncated with
  | ok complete t =>
    rw [outcome_ok hx] at hout
    cases hout
    have hr : Reported (fun complete => complete = true) (outcome (Command.getFwInfo.call answeringBoard) truncated) _ :=
      (adds_call .getFwInfo).added truncated
    rw [outcome_ok hx, final, hx] at hr
    obtain ⟨e, he, hbad⟩ := hr.stopped _ rfl Bool.false_ne_true
    exact hbad (Exchange.tolerated_of_not_bogus (h.success _ _ hx e he).not_bogus)
  | error rc t =>
    rw [outcome_error hx] at hout
    cases hout

end Lan80xx.Mailbox
