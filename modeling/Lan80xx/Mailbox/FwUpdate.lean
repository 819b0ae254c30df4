import Lan80xx.Mailbox.OtpKeys

/-!
# Firmware update

The DFU strap is set and the MCU reset, the image is sent packet by packet, the strap is cleared, and the MCU is started
with the new firmware.
-/

namespace Lan80xx.Mailbox

open ByteMem Fallible RegBus Journal

variable {H α : Type}

/-! ## The update -/

/-- `STRAP_OVERRIDE_REG` -/
def strapReg : McuReg := .mailbox 0x0201

/-- `eDFU_UPDATE` -/
def dfuUpdateId : Byte := 0x0B

/-- The firmware image with what the update needs besides the mailbox: the verdict of `authenticate_fw_image` on it, and
`lan80xx_post1_init_priv`, which only accesses registers other than the strap. The image ends one packet before offsets
of 32 bits do. -/
structure Firmware (H : Type) where
  image : List Byte
  fits : image.length + maxPayloadLen < 2 ^ 32
  authentic : Bool
  post1Init : H → Bool × H

section Update

variable (host : Host H)

/-- A write to the strap register. -/
def writeStrap (v : BitVec 32) : Call H Unit := do
  csrWr host strapReg v
  modifyConf fun c => { c with strapWrites := c.strapWrites ++ [v.getLsbD 0] }

/-- The DFU strap is set. -/
def setStrap : Call H Unit := do
  let val ← csrRd host strapReg
  writeStrap host (val ||| 1)

/-- The DFU strap is cleared. -/
def clearStrap : Call H Unit := do
  let val ← csrRd host strapReg
  writeStrap host (val &&& ~~~1)

/-- The strap is read back, `n` times at most. -/
def waitStrap : Nat → Call H Bool
  | 0 => pure false
  | n + 1 => do
    let val ← csrRd host strapReg
    if val.getLsbD 0 = true then pure true
    else do
      msleep host
      waitStrap n

/-- The wait for `BOOT_STS_DFU_MODE`, with `n` polls left. -/
def waitDfuMode : Nat → Call H Bool
  | 0 => pure false
  | n + 1 => do
    let val ← csrRd host .bootStatus
    if val = 0x12 then pure true
    else do
      msleep host
      waitDfuMode n

/-- `lan80xx_mcu_mailbox_init_priv` -/
def mailboxInit (mcuIntMask hostIntMask : BitVec 32) : Call H Unit := do
  writeMasked host.bus .access hostIntrMaskReg hostIntMask 0x2
  writeMasked host.bus .access mcuIntrMaskReg mcuIntMask 0x1
  writeMasked host.bus .access .intrSrcEn1 0x200000 0x200000

/-- The wait for the first packet interrupt, with `n` polls left and `timeout` made: whether it came in time. -/
def waitFirstPkt : Nat → Nat → Call H Bool
  | 0, _ => pure false
  | n + 1, timeout => do
    let mcuInterrupt ← gpioRead host
    let val ← flagIf host mcuInterrupt
    if val.getLsbD 6 = true then pure (decide (timeout < intrTimeout))
    else do
      msleep host
      waitFirstPkt n (timeout + 1)

/-- The memory reads before the first packet, whose return codes are not looked at. -/
def readSlices : Call H Unit := do
  unchecked (memoryRead host 0x00040000 4)
  unchecked (memoryRead host 0x00050000 4)
  unchecked (memoryRead host 0x00060000 4)
  unchecked (memoryRead host 0x00070000 4)

/-- From the strap to the first packet: whether the MCU has asked for it. -/
def enterDfu : Call H Bool := do
  let strap ← waitStrap host (intrTimeout + 1)
  failIf (strap = false) .fwUpdateFail
  csrWr host .softReset2 0x2
  let dfuMode ← waitDfuMode host (intrTimeout + 1)
  failIf (dfuMode = false) .fwUpdateFail
  mailboxInit host 1 2
  let firstPkt ← waitFirstPkt host (intrTimeout + 1) 0
  let _ ← attempt (writeFlag host 0x40000000)
  when (firstPkt = true) (readSlices host)
  return firstPkt

/-- A number of 32 bits. -/
def u32 (n : Nat) : Nat := n % 2 ^ 32

/-- The return code that the response to a packet of the image stands for. -/
def packetCode (resp : Mem) : Except McuRc (Except McuRc Unit) :=
  if resp 0 = dfuUpdateId + 0x80 then .ok (.ok ())
  else packetDump (pktLenOf resp) >>= fun _ =>
    .ok (.error (if resp 0 = dfuUpdateId + 0x81 then .failResponse else .cmdProtoNoSync))

/-- One packet of the image: the return code of its transfer. The response is not checked otherwise. -/
def sendPacket (data : List Byte) : Call H (Except McuRc Unit) := do
  let rc ← checked (exchange host dfuUpdateId reservedId data intrTimeout)
  let conf ← getConf
  match rc with
  | .error rc => return .error rc
  | .ok _ => ofExcept (packetCode conf.resp)

/-- The packet loop, with at most `n` rounds left: the return code, and the count of bytes written, which is advanced
before the packet is sent. -/
def sendFrom (image : List Byte) : Nat → Nat → Nat → Call H (Except McuRc Unit × Nat)
  | 0, _, _ => throw .hang
  | n + 1, offset, bytesWritten => do
    let len := if u32 image.length < u32 (offset + maxPayloadLen) then u32 image.length - offset else maxPayloadLen
    let rc ← sendPacket host ((image.drop offset).take len)
    match rc with
    | .error rc => return (.error rc, u32 (bytesWritten + len))
    | .ok () =>
      if u32 (offset + maxPayloadLen) < u32 image.length then
        sendFrom image n (u32 (offset + maxPayloadLen)) (u32 (bytesWritten + len))
      else return (.ok (), u32 (bytesWritten + len))

/-- The image is sent; every round but the last is for a full packet. -/
def sendImage (image : List Byte) : Call H (Except McuRc Unit × Nat) := sendFrom host image (image.length + 1) 0 0

/-- The wait for the new firmware, with `n` polls left. -/
def waitFwReady : Nat → Call H Bool
  | 0 => pure false
  | n + 1 => do
    let val ← csrRd host flagReg
    if val.getLsbD 2 = true then pure true
    else do
      msleep host
      waitFwReady n

/-- `lan80xx_post1_init_priv`, when the strap asks for it. -/
def post1 (fw : Firmware H) : Call H Unit := fun s =>
  match fw.post1Init s.hw with
  | (true, h) => .ok () { s with hw := h }
  | (false, h) => .error .error { s with hw := h }

/-- The last packet interrupt and the start of the new firmware. -/
def startFw (fw : Firmware H) : Call H Unit := do
  csrWr host mcuIntrMaskReg 0x80
  orFail (writeFlag host 0x00800000) .fwUpdateFail
  let strap ← csrRd host strapReg
  when (strap.getLsbD 1 = true) (post1 fw)
  let _ ← csrRd host strapReg
  let ready ← waitFwReady host intrTimeout
  when (ready = false) do
    let _ ← csrRd host mcuIntrMaskReg
    throw .fwUpdateFail
  let status ← checked (memoryRead host 0x00080004 4)
  match status with
  | .error _ => throw .fwUpdateFail
  | .ok bytes => failIf (((bytes.getD []).getD 0 0).getLsbD 3 = true) .fwUpdateFail

/-- What is checked before the strap is set. -/
def beginUpdate (fw : Firmware H) : Call H Unit := do
  failIf (host.baseDev = false) .error
  failIf (host.gpioRead.isNone = true) .parm
  failIf (fw.authentic = false) .error
  setStrap host

/-- `lan80xx_fw_update_priv` -/
def fwUpdate (fw : Firmware H) : Call H Unit := do
  beginUpdate host fw
  let firstPkt ← enterDfu host
  if firstPkt = true then do
    let (rc, bytesWritten) ← sendImage host fw.image
    clearStrap host
    if bytesWritten = u32 fw.image.length then startFw host fw
    else ofExcept rc
  else do
    clearStrap host
    throw .fwUpdateFail

end Update

/-! ## What the stages leave alone -/

/-- The packets of the image among the exchanges. -/
def dfuHistory (s : Dev McuConf H) : List Exchange := s.conf.exchanges.filter fun e => e.packetId = dfuUpdateId

/-- The DFU strap, as the driver wrote it. -/
abbrev strapHistory (s : Dev McuConf H) : List Bool := s.conf.strapWrites

/-- Calls that neither send a packet of the image nor write the strap. -/
def besideUpdate : Frame (Dev McuConf H) where
  rel s s' := dfuHistory s' = dfuHistory s ∧ strapHistory s' = strapHistory s
  refl _ := ⟨rfl, rfl⟩
  trans h₁ h₂ := ⟨h₂.1.trans h₁.1, h₂.2.trans h₁.2⟩

/-- The last exchange of a transfer, and what the driver's data are after it. -/
theorem exchange_cases (host : Host H) (packetId reserved : Byte) (cmdData : List Byte) (timeout : Nat)
    (s : Dev McuConf H) :
    (∃ len s', exchange host packetId reserved cmdData timeout s = .ok len s' ∧ s'.conf = { s.conf with
      resp := s'.conf.resp
      exchanges := s.conf.exchanges ++ [⟨packetId, reserved, cmdData, .ok s'.conf.resp⟩] }) ∨
    ∃ rc s', exchange host packetId reserved cmdData timeout s = .error rc s' ∧ s'.conf = { s.conf with
      resp := s'.conf.resp
      exchanges := s.conf.exchanges ++ [⟨packetId, reserved, cmdData, .error rc⟩] } := by
  have hkeep := respOnly_transfer host (createPacket packetId cmdData reserved fun _ => 0).1
    (createPacket packetId cmdData reserved fun _ => 0).2 timeout s
  cases hx : (sendRequest host (createPacket packetId cmdData reserved fun _ => 0).1
      (createPacket packetId cmdData reserved fun _ => 0).2 >>= fun _ => readResponse host timeout) s with
  | ok len t =>
    rw [final, hx] at hkeep
    obtain ⟨resp, hconf⟩ := hkeep
    have ht : t.conf = { s.conf with resp := resp } := hconf
    have hex : exchange host packetId reserved cmdData timeout s = .ok len { t with conf := { t.conf with
        exchanges := t.conf.exchanges ++ [⟨packetId, reserved, cmdData, Except.ok t.conf.resp⟩] } } := by
      simp only [exchange, hx]
    refine Or.inl ⟨len, _, hex, ?_⟩
    simp only [ht]
  | error rc t =>
    rw [final, hx] at hkeep
    obtain ⟨resp, hconf⟩ := hkeep
    have ht : t.conf = { s.conf with resp := resp } := hconf
    have hex : exchange host packetId reserved cmdData timeout s = .error rc { t with conf := { t.conf with
        exchanges := t.conf.exchanges ++ [⟨packetId, reserved, cmdData, Except.error rc⟩] } } := by
      simp only [exchange, hx]
    refine Or.inr ⟨rc, _, hex, ?_⟩
    simp only [ht]

section Beside

variable {host : Host H} {x : Call H α}

theorem beside_of_respOnly (h : Within respOnly x) : Within besideUpdate x :=
  h.mono fun s s' ⟨_, hconf⟩ => ⟨by simp only [dfuHistory, hconf], by simp only [strapHistory, hconf]⟩

theorem within_unchecked {F : Frame (Dev McuConf H)} (h : Within F x) : Within F (unchecked x) := by
  intro s
  have := h s
  unfold final unchecked at *
  cases hx : x s with
  | ok a t => simpa only [hx] using this
  | error rc t => cases rc <;> simpa only [hx] using this

theorem within_checked {F : Frame (Dev McuConf H)} (h : Within F x) : Within F (checked x) := by
  intro s
  have := h s
  unfold final checked at *
  cases hx : x s with
  | ok a t => simpa only [hx] using this
  | error rc t => cases rc <;> simpa only [hx] using this

theorem beside_exchange {packetId reserved : Byte} {cmdData : List Byte} {timeout : Nat} (hid : packetId ≠ dfuUpdateId) :
    Within besideUpdate (exchange host packetId reserved cmdData timeout) := by
  intro s
  rcases exchange_cases host packetId reserved cmdData timeout s with ⟨len, s', hx, hconf⟩ | ⟨rc, s', hx, hconf⟩
  · rw [final, hx]
    exact ⟨by rw [dfuHistory, hconf]; simp [dfuHistory, hid], by rw [strapHistory, hconf]⟩
  · rw [final, hx]
    exact ⟨by rw [dfuHistory, hconf]; simp [dfuHistory, hid], by rw [strapHistory, hconf]⟩

theorem within_ofExcept {F : Frame (Dev McuConf H)} (r : Except McuRc α) : Within F (ofExcept r : Call H α) := by
  intro s
  cases r <;> exact F.refl s

theorem beside_memoryRead (addr : BitVec 32) (len : BitVec 16) : Within besideUpdate (memoryRead host addr len) :=
  Within.failIf.bind fun _ => (beside_exchange (by decide)).bind fun _ => within_getConf.bind fun _ => within_ofExcept _

theorem beside_csrRd (r : McuReg) : Within besideUpdate (csrRd host r) := beside_of_respOnly (respOnly_csrRd r)

theorem beside_csrWr (r : McuReg) (v : BitVec 32) : Within besideUpdate (csrWr host r v) :=
  beside_of_respOnly (respOnly_csrWr r v)

theorem beside_waitStrap : ∀ n, Within besideUpdate (waitStrap host n)
  | 0 => Within.pure _
  | n + 1 => (beside_csrRd _).bind fun _ => Within.ite (Within.pure _)
      ((beside_of_respOnly respOnly_msleep).bind fun _ => beside_waitStrap n)

theorem beside_waitDfuMode : ∀ n, Within besideUpdate (waitDfuMode host n)
  | 0 => Within.pure _
  | n + 1 => (beside_csrRd _).bind fun _ => Within.ite (Within.pure _)
      ((beside_of_respOnly respOnly_msleep).bind fun _ => beside_waitDfuMode n)

theorem beside_waitFirstPkt : ∀ n timeout, Within besideUpdate (waitFirstPkt host n timeout)
  | 0, _ => Within.pure _
  | n + 1, timeout => by
    refine (beside_of_respOnly respOnly_gpioRead).bind fun _ => Within.bind (Within.ite (beside_csrRd _) (Within.pure _))
      fun _ => Within.ite (Within.pure _) ?_
    exact (beside_of_respOnly respOnly_msleep).bind fun _ => beside_waitFirstPkt n _

theorem beside_waitFwReady : ∀ n, Within besideUpdate (waitFwReady host n)
  | 0 => Within.pure _
  | n + 1 => (beside_csrRd _).bind fun _ => Within.ite (Within.pure _)
      ((beside_of_respOnly respOnly_msleep).bind fun _ => beside_waitFwReady n)

theorem beside_writeMasked (r : McuReg) (v mask : BitVec 32) :
    Within besideUpdate (writeMasked host.bus McuRc.access r v mask : Call H Unit) :=
  beside_of_respOnly ((within_writeMasked (W := Set.univ) host.bus McuRc.access v fun _ _ _ => Set.mem_univ _).mono
    fun _ _ h => respOnly_of_conf h.1)

theorem beside_enterDfu : Within besideUpdate (enterDfu host) := by
  refine (beside_waitStrap _).bind fun _ => Within.failIf.bind fun _ => (beside_csrWr _ _).bind fun _ => ?_
  refine (beside_waitDfuMode _).bind fun _ => Within.failIf.bind fun _ => Within.bind ?_ fun _ => ?_
  · exact (beside_writeMasked _ _ _).bind fun _ => (beside_writeMasked _ _ _).bind fun _ => beside_writeMasked _ _ _
  · have hread (addr : BitVec 32) : Within besideUpdate (unchecked (memoryRead host addr 4)) :=
      within_unchecked (beside_memoryRead addr 4)
    refine (beside_waitFirstPkt _ _).bind fun _ => (beside_csrWr _ _).attempt.bind fun _ => ?_
    refine Within.bind (Within.when fun _ => ?_) fun _ => Within.pure _
    exact (hread _).bind fun _ => (hread _).bind fun _ => (hread _).bind fun _ => hread _

theorem beside_post1 (fw : Firmware H) : Within besideUpdate (post1 fw) := by
  intro s
  unfold final post1
  rcases fw.post1Init s.hw with ⟨_ | _, h⟩
  · exact ⟨rfl, rfl⟩
  · exact ⟨rfl, rfl⟩

theorem beside_startFw (fw : Firmware H) : Within besideUpdate (startFw host fw) := by
  refine (beside_csrWr _ _).bind fun _ => (beside_csrWr _ _).orFail.bind fun _ => (beside_csrRd _).bind fun _ => ?_
  refine (Within.when fun _ => beside_post1 fw).bind fun _ => (beside_csrRd _).bind fun _ => ?_
  refine (beside_waitFwReady _).bind fun _ => (Within.when fun _ => (beside_csrRd _).bind fun _ => Within.throw _).bind
    fun _ => (within_checked (beside_memoryRead _ _)).bind fun status => ?_
  cases status with
  | error rc => exact Within.throw _
  | ok bytes => exact Within.failIf

end Beside

/-! ## The packets of the image -/

/-- The MCU has taken the packet. -/
def Exchange.Acked (e : Exchange) : Prop := ∃ m, e.response = .ok m ∧ m 0 = dfuUpdateId + 0x80

/-- The parameters of the exchanges, one after the other. -/
def sentBytes (new : List Exchange) : List Byte := new.flatMap Exchange.cmdData

/-- Every byte of the image was sent once and in order, and every packet acknowledged. -/
def SentAll (image : List Byte) (new : List Exchange) : Prop := sentBytes new = image ∧ ∀ e ∈ new, e.Acked

section Packets

variable {host : Host H}

/-- The code is that of success exactly for an acknowledgement. -/
theorem packetCode_ok_iff {m : Mem} {rc : Except McuRc Unit} (h : packetCode m = .ok rc) :
    rc = .ok () ↔ m 0 = dfuUpdateId + 0x80 := by
  unfold packetCode at h
  split at h
  · next hid =>
    cases h
    exact iff_of_true rfl hid
  · next hid =>
    refine iff_of_false (fun hrc => ?_) hid
    subst hrc
    cases hdump : packetDump (pktLenOf m) with
    | error e =>
      rw [hdump] at h
      cases h
    | ok u =>
      rw [hdump] at h
      cases h

theorem packetCode_error {m : Mem} {rc : McuRc} (h : packetCode m = .error rc) : rc = .hang := by
  unfold packetCode packetDump at h
  split at h
  · cases h
  · split at h
    · cases h
      rfl
    · cases h

/-- What is known of a call that returns the code of a transfer: only a transfer that does not return is an error. -/
def Returned (Q : α → List Exchange → Prop) (r : Except McuRc α) (new : List Exchange) : Prop :=
  match r with
  | .ok a => Q a new
  | .error rc => rc = .hang

/-- One packet is one exchange; its code tells whether it was acknowledged. -/
theorem adds_sendPacket (data : List Byte) :
    Adds dfuHistory (sendPacket host data)
      (Returned fun rc new => ∃ e : Exchange, new = [e] ∧ e.cmdData = data ∧ (rc = .ok () ↔ e.Acked)) := by
  intro s
  rcases exchange_cases host dfuUpdateId reservedId data intrTimeout s with ⟨len, t, hx, hconf⟩ | ⟨e, t, hx, hconf⟩
  · have hlog : dfuHistory t = dfuHistory s ++ [⟨dfuUpdateId, reservedId, data, .ok t.conf.resp⟩] := by
      rw [dfuHistory, hconf]
      simp [dfuHistory]
    have hrun : sendPacket host data s = (ofExcept (packetCode t.conf.resp) : Call H _) t := by
      simp only [sendPacket, checked, Bind.bind, EStateM.bind, hx]
      rfl
    refine ⟨[⟨dfuUpdateId, reservedId, data, .ok t.conf.resp⟩], ?_, ?_⟩
    · rw [← hlog, final, hrun]
      cases packetCode t.conf.resp <;> rfl
    · rw [outcome, hrun]
      cases hcode : packetCode t.conf.resp with
      | error e => exact packetCode_error hcode
      | ok rc =>
        refine ⟨_, rfl, rfl, (packetCode_ok_iff hcode).trans ⟨fun hid => ⟨_, rfl, hid⟩, ?_⟩⟩
        rintro ⟨m, hm, hid⟩
        cases hm
        exact hid
  · have hlog : dfuHistory t = dfuHistory s ++ [⟨dfuUpdateId, reservedId, data, .error e⟩] := by
      rw [dfuHistory, hconf]
      simp [dfuHistory]
    have hnot : ¬(⟨dfuUpdateId, reservedId, data, .error e⟩ : Exchange).Acked := by
      rintro ⟨m, hm, -⟩
      cases hm
    by_cases he : e = .hang
    · subst he
      have hrun : sendPacket host data s = .error .hang t := by
        simp only [sendPacket, checked, Bind.bind, EStateM.bind, hx]
      refine ⟨[⟨dfuUpdateId, reservedId, data, .error .hang⟩], by rw [← hlog, final, hrun], ?_⟩
      rw [outcome, hrun]
      exact rfl
    · have hcheck : checked (exchange host dfuUpdateId reservedId data intrTimeout) s = .ok (.error e) t := by
        unfold checked
        rw [hx]
        cases e <;> first | rfl | exact absurd rfl he
      have hrun : sendPacket host data s = .ok (.error e) t := by
        simp only [sendPacket, Bind.bind, EStateM.bind, hcheck]
        rfl
      refine ⟨[⟨dfuUpdateId, reservedId, data, .error e⟩], by rw [← hlog, final, hrun], ?_⟩
      rw [outcome, hrun]
      exact ⟨_, rfl, rfl, iff_of_false (fun h => by cases h) hnot⟩

/-- What the packet loop has sent from `offset` on, by its return code and its count of bytes. -/
structure SentFrom (image : List Byte) (offset : Nat) (rc : Except McuRc Unit) (bytesWritten : Nat) (new : List Exchange) :
    Prop where
  lower : offset ≤ bytesWritten
  upper : bytesWritten ≤ image.length
  bytes : sentBytes new = (image.drop offset).take (bytesWritten - offset)
  acked : rc = .ok () ↔ ∀ e ∈ new, e.Acked
  whole : rc = .ok () → bytesWritten = image.length

/-- The size of the packet at `offset`. -/
def chunkLen (image : List Byte) (offset : Nat) : Nat :=
  if image.length < offset + maxPayloadLen then image.length - offset else maxPayloadLen

theorem u32_of_lt {n : Nat} (h : n < 2 ^ 32) : u32 n = n := Nat.mod_eq_of_lt h

/-- One round of the packet loop, where no number reaches `2 ^ 32`. -/
theorem sendFrom_succ {image : List Byte} (hfits : image.length + maxPayloadLen < 2 ^ 32) {n offset : Nat}
    (ho : offset ≤ image.length) :
    sendFrom host image (n + 1) offset offset =
      sendPacket host ((image.drop offset).take (chunkLen image offset)) >>= fun rc =>
        match rc with
        | .error rc => pure (.error rc, offset + chunkLen image offset)
        | .ok () =>
          if offset + maxPayloadLen < image.length then sendFrom host image n (offset + maxPayloadLen) (offset + maxPayloadLen)
          else pure (.ok (), image.length) := by
  have hsize : u32 image.length = image.length := u32_of_lt (by omega)
  have hnext : u32 (offset + maxPayloadLen) = offset + maxPayloadLen := u32_of_lt (by omega)
  have hwritten : u32 (offset + chunkLen image offset) = offset + chunkLen image offset := by
    apply u32_of_lt
    unfold chunkLen
    split <;> omega
  rw [sendFrom, hsize, hnext, ← chunkLen]
  refine congrArg _ (funext fun rc => ?_)
  cases rc with
  | error rc => rw [hwritten]
  | ok u =>
    by_cases hmore : offset + maxPayloadLen < image.length
    · have hfull : chunkLen image offset = maxPayloadLen := if_neg (by omega)
      simp only [if_pos hmore, hfull, hnext]
    · have hlast : offset + chunkLen image offset = image.length := by
        unfold chunkLen
        split <;> omega
      simp only [if_neg hmore, hlast, hsize]

theorem adds_sendFrom {image : List Byte} (hfits : image.length + maxPayloadLen < 2 ^ 32) (n : Nat) : ∀ offset ≤ image.length,
    Adds dfuHistory (sendFrom host image n offset offset)
      (Returned fun out new => SentFrom image offset out.1 out.2 new) := by
  induction n with
  | zero => exact fun offset _ => Adds.throw rfl
  | succ n ih =>
    intro offset ho
    have hchunk : offset + chunkLen image offset ≤ image.length := by
      unfold chunkLen
      split <;> omega
    rw [sendFrom_succ hfits ho]
    refine Adds.bind (G := fun rc r new => ∀ e : Exchange, e.cmdData = (image.drop offset).take (chunkLen image offset) →
      (rc = .ok () ↔ e.Acked) → Returned (fun out new => SentFrom image offset out.1 out.2 (e :: new)) r new)
      (adds_sendPacket _) (fun rc => ?_) ?_ fun e new he => he
    · cases rc with
      | error rc =>
        refine Adds.pure fun e hdata hack => ?_
        refine ⟨Nat.le_add_right _ _, hchunk, ?_, iff_of_false (fun h => by cases h) fun hall => ?_, fun h => by cases h⟩
        · rw [sentBytes, List.flatMap_singleton, hdata, Nat.add_sub_cancel_left]
        · cases hack.mpr (hall e List.mem_cons_self)
      | ok u =>
        refine Adds.ite (fun hmore => ?_) fun hlast => ?_
        · have hfull : chunkLen image offset = maxPayloadLen := if_neg (by omega)
          refine (ih (offset + maxPayloadLen) (by omega)).weaken fun r new hrest e hdata hack => ?_
          cases r with
          | error rc => exact hrest
          | ok out =>
            have hs : SentFrom image (offset + maxPayloadLen) out.1 out.2 new := hrest
            have hlow := hs.lower
            refine ⟨by omega, hs.upper, ?_, ?_, hs.whole⟩
            · have hsplit : out.2 - offset = maxPayloadLen + (out.2 - (offset + maxPayloadLen)) := by omega
              rw [sentBytes, List.flatMap_cons, ← sentBytes, hs.bytes, hdata, hfull, hsplit, List.take_add, List.drop_drop]
            · rw [hs.acked, List.forall_mem_cons]
              exact ⟨fun h => ⟨hack.mp rfl, h⟩, fun h => h.2⟩
        · refine Adds.pure fun e hdata hack => ?_
          refine ⟨ho, Nat.le_refl _, ?_, iff_of_true rfl ?_, fun _ => rfl⟩
          · have hlen : image.length - offset = chunkLen image offset := by
              unfold chunkLen
              split <;> omega
            rw [sentBytes, List.flatMap_singleton, hdata, hlen]
          · rw [List.forall_mem_singleton]
            exact hack.mp rfl
    · rintro rc r new new' ⟨e, rfl, hdata, hack⟩ hrest
      have hr := hrest e hdata hack
      cases r with
      | error rc => exact hr
      | ok out => exact hr

theorem adds_sendImage (host : Host H) (fw : Firmware H) :
    Adds dfuHistory (sendImage host fw.image) (Returned fun out new => SentFrom fw.image 0 out.1 out.2 new) :=
  adds_sendFrom fw.fits _ 0 (Nat.zero_le _)

end Packets

/-! ## The strap -/

section Strap

variable {host : Host H}

theorem strap_of_beside {x : Call H α} (h : Within besideUpdate x) : Within (unlogged strapHistory) x :=
  h.mono fun _ _ h => h.2

theorem strap_exchange (packetId reserved : Byte) (cmdData : List Byte) (timeout : Nat) :
    Within (unlogged strapHistory) (exchange host packetId reserved cmdData timeout) := by
  intro s
  rcases exchange_cases host packetId reserved cmdData timeout s with ⟨len, t, hx, hconf⟩ | ⟨e, t, hx, hconf⟩
  · have hstrap := congrArg McuConf.strapWrites hconf
    rw [final, hx]
    exact hstrap
  · have hstrap := congrArg McuConf.strapWrites hconf
    rw [final, hx]
    exact hstrap

theorem strap_sendPacket (data : List Byte) : Within (unlogged strapHistory) (sendPacket host data) := by
  refine (within_checked (strap_exchange _ _ _ _)).bind fun rc => within_getConf.bind fun conf => ?_
  cases rc with
  | error rc => exact Within.pure _
  | ok len => exact within_ofExcept _

theorem strap_sendFrom (image : List Byte) (n : Nat) : ∀ offset bytesWritten,
    Within (unlogged strapHistory) (sendFrom host image n offset bytesWritten) := by
  induction n with
  | zero => exact fun _ _ => Within.throw _
  | succ n ih =>
    intro offset bytesWritten
    refine (strap_sendPacket _).bind fun rc => ?_
    cases rc with
    | error rc => exact Within.pure _
    | ok u => exact Within.ite (ih _ _) (Within.pure _)

/-- A write to the strap register is made or fails. -/
theorem adds_writeStrap (v : BitVec 32) :
    Adds strapHistory (writeStrap host v) fun r new => new = if r = .ok () then [v.getLsbD 0] else [] := by
  refine Adds.bind (G := fun _ r new => r = .ok () ∧ new = [v.getLsbD 0])
    (Adds.silent (D := fun _ new => new = []) (strap_of_beside (beside_csrWr _ _)) fun _ => rfl) (fun _ => ?_) ?_ ?_
  · exact fun s => ⟨[v.getLsbD 0], rfl, rfl, rfl⟩
  · rintro a r new new' rfl ⟨rfl, rfl⟩
    rfl
  · rintro e new rfl
    rfl

/-- Reading the strap register and writing it back. -/
theorem adds_updateStrap (f : BitVec 32 → BitVec 32) (b : Bool) (hf : ∀ v, (f v).getLsbD 0 = b) :
    Adds strapHistory (csrRd host strapReg >>= fun val => writeStrap host (f val))
      fun r new => new = if r = .ok () then [b] else [] := by
  refine Adds.bind (Adds.silent (D := fun _ new => new = []) (strap_of_beside (beside_csrRd _)) fun _ => rfl)
    (fun val => adds_writeStrap (f val)) ?_ ?_
  · rintro a r new new' rfl hnew
    rw [hnew, hf, List.nil_append]
  · rintro e new rfl
    rfl

theorem adds_clearStrap (host : Host H) :
    Adds strapHistory (clearStrap host) fun r new => new = if r = .ok () then [false] else [] :=
  adds_updateStrap (fun val => val &&& ~~~1) false fun v => by simp

/-- The strap is set when the preparation succeeds, and only then. -/
theorem adds_beginUpdate (host : Host H) (fw : Firmware H) :
    Adds strapHistory (beginUpdate host fw) fun r new => new = if r = .ok () then [true] else [] := by
  refine Adds.failIf_bind (fun _ => rfl) fun _ => Adds.failIf_bind (fun _ => rfl) fun _ => ?_
  exact Adds.failIf_bind (fun _ => rfl) fun _ => adds_updateStrap (fun val => val ||| 1) true fun v => by simp

theorem dfu_of_beside {x : Call H α} (h : Within besideUpdate x) : Within (unlogged dfuHistory) x :=
  h.mono fun _ _ h => h.1

theorem dfu_updateStrap (f : BitVec 32 → BitVec 32) :
    Within (unlogged dfuHistory) (csrRd host strapReg >>= fun val => writeStrap host (f val)) :=
  (dfu_of_beside (beside_csrRd _)).bind fun _ => (dfu_of_beside (beside_csrWr _ _)).bind fun _ _ => rfl

theorem dfu_beginUpdate (fw : Firmware H) : Within (unlogged dfuHistory) (beginUpdate host fw) :=
  Within.failIf.bind fun _ => Within.failIf.bind fun _ => Within.failIf.bind fun _ => dfu_updateStrap _

end Strap

/-! ## The outcome of an update -/

/-- The call fails; one that does not return does not fail. -/
def Fails (x : Call H α) (s : Dev McuConf H) : Prop := ∃ rc s', x s = .error rc s' ∧ rc ≠ .hang

/-- The update reports success only for an image that was sent and acknowledged in full, and leaves the strap cleared
whenever it returns. -/
structure FwUpdateOutcome (host : Host H) (fw : Firmware H) (s : Dev McuConf H) : Prop where
  sent : ∀ s', fwUpdate host fw s = .ok () s' → SentAll fw.image (added dfuHistory s s')
  strap : errorOf (fwUpdate host fw) s ≠ some .hang →
    (added strapHistory s (final (fwUpdate host fw) s)).getLast? ≠ some true

/-- What the device must do once the strap is set, in the state `s`: it enters the DFU mode, it lets the strap be cleared,
and it does not start an image of which the last packet was not acknowledged. -/
structure Cooperates (host : Host H) (fw : Firmware H) (s : Dev McuConf H) : Prop where
  enters : ¬Fails (enterDfu host) s
  idle : ∀ s', enterDfu host s = .ok false s' → ¬Fails (clearStrap host) s'
  clears : ∀ s₁ out s₂, enterDfu host s = .ok true s₁ → sendImage host fw.image s₁ = .ok out s₂ →
    ¬Fails (clearStrap host) s₂
  refuses : ∀ s₁ out s₂ s₃, enterDfu host s = .ok true s₁ → sendImage host fw.image s₁ = .ok out s₂ →
    clearStrap host s₂ = .ok () s₃ → sentBytes (added dfuHistory s₁ s₂) = fw.image →
    (∃ e ∈ added dfuHistory s₁ s₂, ¬e.Acked) → ∀ s₄, startFw host fw s₃ ≠ .ok () s₄

section Outcome

variable {host : Host H} {fw : Firmware H} {s s' s₁ s₂ s₃ s₄ : Dev McuConf H}

theorem strap_begin_ok (h : beginUpdate host fw s = .ok () s₁) : strapHistory s₁ = strapHistory s ++ [true] := by
  obtain ⟨new, hnew, rfl⟩ := (adds_beginUpdate host fw).ok h
  exact hnew

theorem strap_begin_error {rc : McuRc} (h : beginUpdate host fw s = .error rc s₁) : strapHistory s₁ = strapHistory s := by
  obtain ⟨new, hnew, rfl⟩ := (adds_beginUpdate host fw).error h
  exact hnew.trans (List.append_nil _)

theorem strap_clear_ok (h : clearStrap host s = .ok () s₁) : strapHistory s₁ = strapHistory s ++ [false] := by
  obtain ⟨new, hnew, rfl⟩ := (adds_clearStrap host).ok h
  exact hnew

theorem strap_clear_error {rc : McuRc} (h : clearStrap host s = .error rc s₁) : strapHistory s₁ = strapHistory s := by
  obtain ⟨new, hnew, rfl⟩ := (adds_clearStrap host).error h
  exact hnew.trans (List.append_nil _)

/-- The outcome, once the result is known. -/
theorem outcome_iff_of_ok (h : fwUpdate host fw s = .ok () s') (hs : strapHistory s' = strapHistory s ++ [true, false]) :
    FwUpdateOutcome host fw s ↔ SentAll fw.image (added dfuHistory s s') := by
  refine ⟨fun ho => ho.sent s' h, fun hsent => ⟨fun t ht => ?_, fun _ => ?_⟩⟩
  · rw [h] at ht
    cases ht
    exact hsent
  · rw [final, h]
    simp only [added_eq hs]
    simp

/-- A failed update has to leave the strap cleared. -/
theorem outcome_iff_of_error {rc : McuRc} {new : List Bool} (h : fwUpdate host fw s = .error rc s')
    (hs : strapHistory s' = strapHistory s ++ new) :
    FwUpdateOutcome host fw s ↔ (rc ≠ .hang → new.getLast? ≠ some true) := by
  have hstrap : errorOf (fwUpdate host fw) s = some rc := by simp only [errorOf, h]
  have hadded : added strapHistory s (final (fwUpdate host fw) s) = new := by
    rw [final, h]
    exact added_eq hs
  refine ⟨fun ho hrc => ?_, fun hnew => ⟨fun t ht => ?_, fun hne => ?_⟩⟩
  · have := ho.strap (by rw [hstrap]; simpa using hrc)
    rwa [hadded] at this
  · rw [h] at ht
    cases ht
  · rw [hadded]
    exact hnew fun hrc => hne (by rw [hstrap, hrc])

/-- Whether the last chunk is acknowledged matters only once all chunks are sent. -/
theorem sentAll_iff {rc : Except McuRc Unit} {w : Nat} {new : List Exchange} (h : SentFrom fw.image 0 rc w new) :
    SentAll fw.image new ↔ rc = .ok () := by
  refine ⟨fun hall => h.acked.mpr hall.2, fun hrc => ⟨?_, h.acked.mp hrc⟩⟩
  rw [h.bytes, h.whole hrc, List.drop_zero, Nat.sub_zero, List.take_length]

theorem sentBytes_eq_iff {rc : Except McuRc Unit} {w : Nat} {new : List Exchange} (h : SentFrom fw.image 0 rc w new) :
    sentBytes new = fw.image ↔ w = fw.image.length := by
  have hupper := h.upper
  rw [h.bytes, List.drop_zero, Nat.sub_zero]
  constructor
  · intro htake
    have hlen := congrArg List.length htake
    rw [List.length_take] at hlen
    omega
  · rintro rfl
    exact List.take_length

/-- The entry into the DFU mode fails. -/
theorem outcome_of_enter_error {rc : McuRc} (hb : beginUpdate host fw s = .ok () s₁)
    (he : enterDfu host s₁ = .error rc s₂) : FwUpdateOutcome host fw s ↔ Cooperates host fw s₁ := by
  have hrun : fwUpdate host fw s = .error rc s₂ := by
    simp only [fwUpdate, Bind.bind, EStateM.bind, hb, he]
  have hlog : strapHistory s₂ = strapHistory s ++ [true] := by
    rw [← strap_begin_ok hb]
    exact (strap_of_beside beside_enterDfu).error he
  rw [outcome_iff_of_error hrun hlog]
  constructor
  · intro hrc
    refine ⟨?_, fun s' h => ?_, fun t₁ out t₂ h => ?_, fun t₁ out t₂ t₃ h => ?_⟩
    · rintro ⟨rc', s', h, hne⟩
      rw [he] at h
      cases h
      exact absurd (hrc hne) (by simp)
    all_goals
      rw [he] at h
      cases h
  · intro hc hne
    exact absurd ⟨rc, s₂, he, hne⟩ hc.enters

/-- The first packet is not asked for. -/
theorem outcome_of_idle (hb : beginUpdate host fw s = .ok () s₁) (he : enterDfu host s₁ = .ok false s₂) :
    FwUpdateOutcome host fw s ↔ Cooperates host fw s₁ := by
  have hlog : strapHistory s₂ = strapHistory s ++ [true] := by
    rw [← strap_begin_ok hb]
    exact (strap_of_beside beside_enterDfu).ok he
  have hiff : Cooperates host fw s₁ ↔ ¬Fails (clearStrap host) s₂ := by
    refine ⟨fun hc => hc.idle s₂ he, fun hclear => ⟨?_, fun s' h => ?_, fun t₁ out t₂ h => ?_, fun t₁ out t₂ t₃ h => ?_⟩⟩
    · rintro ⟨rc', s', h, -⟩
      rw [he] at h
      cases h
    · rw [he] at h
      cases h
      exact hclear
    all_goals
      rw [he] at h
      cases h
  rw [hiff]
  cases hclear : clearStrap host s₂ with
  | error rc s₃ =>
    have hrun : fwUpdate host fw s = .error rc s₃ := by
      simp [fwUpdate, Bind.bind, EStateM.bind, hb, he, hclear]
    rw [outcome_iff_of_error hrun ((strap_clear_error hclear).trans hlog)]
    constructor
    · rintro hrc ⟨rc', s', h, hne⟩
      rw [hclear] at h
      cases h
      exact absurd (hrc hne) (by simp)
    · intro hnot hne
      exact absurd ⟨rc, s₃, hclear, hne⟩ hnot
  | ok u s₃ =>
    have hrun : fwUpdate host fw s = .error .fwUpdateFail s₃ := by
      have hfirst : ¬(false : Bool) = true := Bool.false_ne_true
      simp only [fwUpdate, Bind.bind, EStateM.bind, hb, he, if_neg hfirst, hclear]
      rfl
    have hlog' : strapHistory s₃ = strapHistory s ++ [true, false] := by
      rw [strap_clear_ok hclear, hlog, List.append_assoc]
      rfl
    rw [outcome_iff_of_error hrun hlog']
    refine iff_of_true (fun _ => by simp) ?_
    rintro ⟨rc', s', h, -⟩
    rw [hclear] at h
    cases h

theorem cooperates_iff_of_enter (he : enterDfu host s₁ = .ok true s₂) :
    Cooperates host fw s₁ ↔ ∀ out s₃, sendImage host fw.image s₂ = .ok out s₃ → ¬Fails (clearStrap host) s₃ ∧
      ∀ s₄, clearStrap host s₃ = .ok () s₄ → sentBytes (added dfuHistory s₂ s₃) = fw.image →
        (∃ e ∈ added dfuHistory s₂ s₃, ¬e.Acked) → ∀ s₅, startFw host fw s₄ ≠ .ok () s₅ := by
  constructor
  · exact fun hc out s₃ hsend => ⟨hc.clears s₂ out s₃ he hsend, fun s₄ hclear => hc.refuses s₂ out s₃ s₄ he hsend hclear⟩
  · refine fun h => ⟨?_, fun s' hi => ?_, fun t₁ out t₂ ht => ?_, fun t₁ out t₂ t₃ ht => ?_⟩
    · rintro ⟨rc', s', hf, -⟩
      rw [he] at hf
      cases hf
    · rw [he] at hi
      cases hi
    · rw [he] at ht
      cases ht
      exact fun hsend => (h out t₂ hsend).1
    · rw [he] at ht
      cases ht
      exact fun hsend => (h out t₂ hsend).2 t₃

/-- A transfer that does not return ends the update for good. -/
theorem outcome_of_send_error {rc : McuRc} (hb : beginUpdate host fw s = .ok () s₁) (he : enterDfu host s₁ = .ok true s₂)
    (hsend : sendImage host fw.image s₂ = .error rc s₃) : FwUpdateOutcome host fw s ↔ Cooperates host fw s₁ := by
  have hrun : fwUpdate host fw s = .error rc s₃ := by
    simp [fwUpdate, Bind.bind, EStateM.bind, hb, he, hsend]
  have hlog : strapHistory s₃ = strapHistory s ++ [true] := by
    rw [← strap_begin_ok hb, ← show strapHistory s₂ = strapHistory s₁ from (strap_of_beside beside_enterDfu).ok he]
    exact (strap_sendFrom _ _ _ _).error hsend
  have hrc : rc = .hang := by
    obtain ⟨new, -, hr⟩ := (adds_sendImage host fw).error hsend
    exact hr
  rw [outcome_iff_of_error hrun hlog, cooperates_iff_of_enter he]
  refine iff_of_true (fun hne => absurd hrc hne) fun out t ht => ?_
  rw [hsend] at ht
  cases ht

/-- The image is sent, or given up, and the strap is to be cleared. -/
theorem outcome_of_sent {rc : Except McuRc Unit} {w : Nat} (hb : beginUpdate host fw s = .ok () s₁)
    (he : enterDfu host s₁ = .ok true s₂) (hsend : sendImage host fw.image s₂ = .ok (rc, w) s₃) :
    FwUpdateOutcome host fw s ↔ Cooperates host fw s₁ := by
  have hlog : strapHistory s₃ = strapHistory s ++ [true] := by
    rw [← strap_begin_ok hb, ← show strapHistory s₂ = strapHistory s₁ from (strap_of_beside beside_enterDfu).ok he]
    exact (strap_sendFrom _ _ _ _).ok hsend
  obtain ⟨new, hnew, hr⟩ := (adds_sendImage host fw).ok hsend
  have hs : SentFrom fw.image 0 rc w new := hr
  have hbefore : dfuHistory s₂ = dfuHistory s :=
    ((dfu_of_beside beside_enterDfu).ok he).trans ((dfu_beginUpdate fw).ok hb)
  have hiff : Cooperates host fw s₁ ↔ ¬Fails (clearStrap host) s₃ ∧ ∀ s₄, clearStrap host s₃ = .ok () s₄ →
      w = fw.image.length → rc ≠ .ok () → ∀ s₅, startFw host fw s₄ ≠ .ok () s₅ := by
    have hunacked : (∃ e ∈ new, ¬e.Acked) ↔ rc ≠ .ok () := by
      rw [Ne, hs.acked]
      simp only [not_forall, exists_prop]
    rw [cooperates_iff_of_enter he]
    constructor
    · intro h
      have := h _ _ hsend
      rwa [added_eq hnew, sentBytes_eq_iff hs, hunacked] at this
    · intro h out t ht
      rw [hsend] at ht
      cases ht
      rwa [added_eq hnew, sentBytes_eq_iff hs, hunacked]
  rw [hiff]
  cases hclear : clearStrap host s₃ with
  | error rc' s₄ =>
    have hrun : fwUpdate host fw s = .error rc' s₄ := by
      simp [fwUpdate, Bind.bind, EStateM.bind, hb, he, hsend, hclear]
    rw [outcome_iff_of_error hrun ((strap_clear_error hclear).trans hlog)]
    constructor
    · refine fun hrc => ⟨?_, fun t ht => by cases ht⟩
      rintro ⟨rc₁, s', h, hne⟩
      rw [hclear] at h
      cases h
      exact absurd (hrc hne) (by simp)
    · intro hnot hne
      exact absurd ⟨rc', s₄, hclear, hne⟩ hnot.1
  | ok u s₄ =>
    have hlog' : strapHistory s₄ = strapHistory s ++ [true, false] := by
      rw [strap_clear_ok hclear, hlog, List.append_assoc]
      rfl
    have hclears : ¬Fails (clearStrap host) s₃ := by
      rintro ⟨rc₁, s', h, -⟩
      rw [hclear] at h
      cases h
    by_cases hw : w = fw.image.length
    · have hsize : w = u32 fw.image.length := by
        rw [hw, u32_of_lt]
        have := fw.fits
        omega
      have hrun : fwUpdate host fw s = startFw host fw s₄ := by
        simp [fwUpdate, Bind.bind, EStateM.bind, hb, he, hsend, hclear, hsize]
      cases hstart : startFw host fw s₄ with
      | error rc' s₅ =>
        have hlog₅ : strapHistory s₅ = strapHistory s ++ [true, false] := by
          rw [← hlog']
          exact (strap_of_beside (beside_startFw fw)).error hstart
        rw [outcome_iff_of_error (hrun.trans hstart) hlog₅]
        refine iff_of_true (fun _ => by simp) ⟨hclears, fun t ht _ _ t' hok => ?_⟩
        cases ht
        rw [hstart] at hok
        cases hok
      | ok u s₅ =>
        have hlog₅ : strapHistory s₅ = strapHistory s ++ [true, false] := by
          rw [← hlog']
          exact (strap_of_beside (beside_startFw fw)).ok hstart
        have hsent : dfuHistory s₅ = dfuHistory s ++ new := by
          rw [← hbefore, ← hnew, ← show dfuHistory s₄ = dfuHistory s₃ from (dfu_updateStrap _).ok hclear]
          exact (dfu_of_beside (beside_startFw fw)).ok hstart
        rw [outcome_iff_of_ok (hrun.trans hstart) hlog₅, added_eq hsent, sentAll_iff hs]
        refine ⟨fun hrc => ⟨hclears, fun _ _ _ hne => absurd hrc hne⟩, fun h => Classical.byContradiction fun hne => ?_⟩
        exact h.2 s₄ rfl hw hne s₅ hstart
    · have hrun : fwUpdate host fw s = (ofExcept rc : Call H Unit) s₄ := by
        have hsize : w ≠ u32 fw.image.length := by
          rw [u32_of_lt]
          · exact hw
          · have := fw.fits
            omega
        simp [fwUpdate, Bind.bind, EStateM.bind, hb, he, hsend, hclear, hsize]
      cases rc with
      | ok v => exact absurd (hs.whole rfl) hw
      | error rc =>
        rw [outcome_iff_of_error (hrun.trans rfl) hlog']
        exact iff_of_true (fun _ => by simp) ⟨hclears, fun _ _ h => absurd h hw⟩

/-- Before the strap is set nothing can go wrong. -/
theorem outcome_of_begin_error {rc : McuRc} (hb : beginUpdate host fw s = .error rc s₁) : FwUpdateOutcome host fw s := by
  have hrun : fwUpdate host fw s = .error rc s₁ := by
    simp only [fwUpdate, Bind.bind, EStateM.bind, hb]
  have hlog : strapHistory s₁ = strapHistory s ++ [] := (strap_begin_error hb).trans (List.append_nil _).symm
  rw [outcome_iff_of_error hrun hlog]
  exact fun _ => by simp

/-- The outcome is the one promised exactly when, once the strap is set, the device cooperates. -/
theorem fwUpdateOutcome_iff (host : Host H) (fw : Firmware H) (s : Dev McuConf H) :
    FwUpdateOutcome host fw s ↔ ∀ s₁, beginUpdate host fw s = .ok () s₁ → Cooperates host fw s₁ := by
  cases hb : beginUpdate host fw s with
  | error rc s₁ => exact iff_of_true (outcome_of_begin_error hb) fun t ht => by cases ht
  | ok u s₁ =>
    have hone : (∀ t, (.ok u s₁ : EStateM.Result McuRc (Dev McuConf H) Unit) = .ok () t → Cooperates host fw t) ↔
        Cooperates host fw s₁ :=
      ⟨fun h => h s₁ rfl, fun h t ht => by cases ht; exact h⟩
    rw [hone]
    cases he : enterDfu host s₁ with
    | error rc s₂ => exact outcome_of_enter_error hb he
    | ok firstPkt s₂ =>
      cases firstPkt with
      | false => exact outcome_of_idle hb he
      | true =>
        cases hsend : sendImage host fw.image s₂ with
        | error rc s₃ => exact outcome_of_send_error hb he hsend
        | ok out s₃ => exact outcome_of_sent hb he hsend

end Outcome

/-- A board on which all flags are always raised; the other registers are storage. -/
def flaggingBoard : Host (McuReg → BitVec 32) where
  bus :=
    { rd := fun r h => (.ok (if r = flagReg then 0x46 else h r), h)
      wr := fun r v h => (.ok (), fun q => if q = r then v else h q)
      drift := fun h h' => h' = h }
  gpioRead := some fun _ => 1
  msleep := id
  patience := 1

/-- An authentic image of one byte. -/
def oneByte : Firmware (McuReg → BitVec 32) where
  image := [0]
  fits := by decide
  authentic := true
  post1Init h := (true, h)

/-- The MCU is in the DFU mode, and its response is one to `eGET_DEVICE_INFO`. -/
def foreign : Dev McuConf (McuReg → BitVec 32) where
  conf := {}
  hw r := if r = .bootStatus then 0x12 else if r = respReg 0 then 0x00020080 else 0

/-- The update on that board: whether it returns the code of success, and the id of the response to the packet. -/
def foreignRun : Bool × Option Byte :=
  match fwUpdate flaggingBoard oneByte foreign with
  | .ok _ s => (true, (dfuHistory s).head?.bind fun e => e.response.toOption.map fun m => m 0)
  | .error _ _ => (false, none)

/-- The last packet is not acknowledged, and the update reports success. -/
theorem not_fwUpdateOutcome_foreign : ¬FwUpdateOutcome flaggingBoard oneByte foreign := by
  intro h
  have hrun : foreignRun = (true, some 0x80) := by decide +kernel
  unfold foreignRun at hrun
  split at hrun
  · next s hs =>
    have hack := (h.sent s hs).2
    have hadded : added dfuHistory foreign s = dfuHistory s := rfl
    rw [hadded] at hack
    cases hl : dfuHistory s with
    | nil =>
      rw [hl] at hrun
      cases hrun
    | cons e l =>
      rw [hl] at hrun hack
      obtain ⟨m, hm, hid⟩ := hack e List.mem_cons_self
      simp [hm, hid, Except.toOption, dfuUpdateId] at hrun
  · cases hrun

end Lan80xx.Mailbox
