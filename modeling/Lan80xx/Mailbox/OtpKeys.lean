import Lan80xx.Lib.FailStop
import Lan80xx.Mailbox.Integrity

/-!
# OTP: key operations

A key operation asks for the state of the keys, sends the key command, and then writes the records of an update list and
the signature to the OTP. It has to stop at the first step that fails (`otpFailStop_iff`).
-/

namespace Lan80xx.Mailbox

open ByteMem Fallible RegBus Journal

variable {H α : Type}

/-! ## The operations -/

/-- `OTPRAMUpdatedDB_t` -/
structure OtpUpdate where
  offset : BitVec 16
  len : BitVec 16

/-- The arguments of `lan80xx_otp_write`. -/
structure OtpWrite where
  data : List Byte
  offset : BitVec 16
  mode : Byte

/-- `OTP_SIGNATURE_LEN` -/
def otpSignatureLen : Nat := 0x40

/-- `eALL_KEYS_COMPROMISED` -/
def allKeysCompromised : Byte := 0x0F

/-- The bytes of the OTP image from an offset on. -/
def slice (otpBuffer : Mem) (offset len : Nat) : List Byte := (List.range len).map fun i => otpBuffer (offset + i)

/-- A record of the update list. -/
def recordWrite (otpBuffer : Mem) (u : OtpUpdate) : OtpWrite :=
  ⟨slice otpBuffer u.offset.toNat u.len.toNat, u.offset, otpWriteBuff⟩

/-- The signature. -/
def signatureWrite (otpBuffer : Mem) (u : OtpUpdate) : OtpWrite :=
  ⟨slice otpBuffer u.offset.toNat otpSignatureLen, u.offset, otpWriteAuth⟩

/-- The writes of an operation: the last entry of the update list is the signature, also of an empty list. -/
def otpWrites (otpBuffer : Mem) (cfgUpdates : Nat → OtpUpdate) (updateCnt : Byte) : List OtpWrite :=
  (List.range (updateCnt.toNat - 1)).map (fun i => recordWrite otpBuffer (cfgUpdates i)) ++
    [signatureWrite otpBuffer (cfgUpdates (updateCnt.toNat - 1))]

/-- Any error code is replaced by `MEPA_RC_ERR_MB_FAIL_RESPONSE`. -/
def failResponse (x : Call H α) : Call H α := fun s =>
  match x s with
  | .ok a s' => .ok a s'
  | .error .hang s' => .error .hang s'
  | .error _ s' => .error .failResponse s'

section Operations

variable (host : Host H)

/-- `lan80xx_otp_write`, for its return code. -/
def OtpWrite.run (w : OtpWrite) : Call H Unit := do
  let _ ← otpWrite host w.data w.offset w.mode
  return ()

/-- The writes that end every key operation. -/
def writeUpdates (otpBuffer : Mem) (cfgUpdates : Nat → OtpUpdate) (updateCnt : Byte) : Call H Unit := do
  forUpTo (updateCnt.toNat - 1) fun i => (recordWrite otpBuffer (cfgUpdates i)).run host
  failResponse ((signatureWrite otpBuffer (cfgUpdates (updateCnt.toNat - 1))).run host)

/-- What the two revocations share. -/
def revokeKeys (key : Call H (Option Byte)) (otpBuffer : Mem) (cfgUpdates : Nat → OtpUpdate) (updateCnt : Byte) :
    Call H Unit := do
  let keyStatus ← failResponse (otpGetKeyStatus host)
  failIf (keyStatus.getD 0 = allKeysCompromised) .allKeyCompromised
  let _ ← key
  writeUpdates host otpBuffer cfgUpdates updateCnt

/-- `lan80xx_otp_revoke_AllKeys_priv` -/
def otpRevokeAllKeys (otpBuffer : Mem) (cfgUpdates : Nat → OtpUpdate) (updateCnt : Byte) : Call H Unit :=
  revokeKeys host (revokeAllOtpKeys host) otpBuffer cfgUpdates updateCnt

/-- `lan80xx_otp_revoke_ROTKey_priv` -/
def otpRevokeROTKey (otpBuffer : Mem) (cfgUpdates : Nat → OtpUpdate) (updateCnt : Byte) : Call H Unit :=
  revokeKeys host (revokeRotKey host) otpBuffer cfgUpdates updateCnt

/-- The command that programs the key after the active one. -/
def nextKey (keyStatus : Byte) : Except McuRc Byte :=
  if keyStatus = 0 then .ok 0x0C
  else if keyStatus = 1 then .ok 0x0D
  else if keyStatus = 3 then .ok 0x0E
  else if keyStatus = 7 then .error .allKeyProgrammed
  else if keyStatus = allKeysCompromised then .error .allKeyCompromised
  else .error .cmdProtoNoSync

/-- `lan80xx_otp_prog_RepKey_priv`: the code of the key command is overwritten by that of the next write. -/
def otpProgRepKey (signedKey : Vector Byte 128) (otpBuffer : Mem) (cfgUpdates : Nat → OtpUpdate) (updateCnt : Byte) :
    Call H Unit := do
  let keyStatus ← failResponse (otpGetKeyStatus host)
  let keyNo ← ofExcept (nextKey (keyStatus.getD 0))
  unchecked (otpProgReplacementKey host keyNo signedKey)
  writeUpdates host otpBuffer cfgUpdates updateCnt

end Operations

/-- The key operations. -/
inductive KeyOp
  | progRepKey (signedKey : Vector Byte 128)
  | revokeAllKeys
  | revokeROTKey

def KeyOp.call (host : Host H) : KeyOp → Mem → (Nat → OtpUpdate) → Byte → Call H Unit
  | progRepKey signedKey => otpProgRepKey host signedKey
  | revokeAllKeys => otpRevokeAllKeys host
  | revokeROTKey => otpRevokeROTKey host

/-! ## What an exchange says -/

/-- The return code of a command that expects one byte: `.ok false` when it returns without an answer. -/
def Exchange.verdict (e : Exchange) : Except McuRc Bool :=
  match e.response with
  | .error rc => .error rc
  | .ok m => (interpret e.packetId decodeByte 0 m).map Option.isSome

/-- The MCU has carried out the request: the answer passes the check, has the id expected and one byte of payload. -/
def Exchange.Succeeded (e : Exchange) : Prop :=
  ∃ m, e.response = .ok m ∧ Genuine e.packetId m ∧ dataLenOf (pktLenOf m) = 1

theorem verdict_iff (e : Exchange) : e.verdict = .ok true ↔ e.Succeeded := by
  unfold Exchange.verdict Exchange.Succeeded
  cases e.response with
  | error rc => exact iff_of_false (fun h => by cases h) fun ⟨m, hm, _⟩ => by cases hm
  | ok m =>
    simp only [Except.ok.injEq, exists_eq_left']
    by_cases hg : Genuine e.packetId m
    · rw [interpret_genuine hg]
      by_cases hlen : dataLenOf (pktLenOf m) = 1
      · exact iff_of_true (by simp [decodeByte, hlen, Except.map]) ⟨hg, hlen⟩
      · exact iff_of_false (by simp [decodeByte, hlen, Except.map]) fun h => hlen h.2
    · refine iff_of_false (fun h => ?_) fun h => hg h.1
      by_cases hv : Valid m
      · rcases interpret_foreign decodeByte 0 hv (fun hid => hg ⟨hv, hid⟩) with ⟨-, rc, -, hint⟩ | ⟨-, hint⟩
        · rw [hint] at h
          cases h
        · rw [hint] at h
          cases h
      · rcases interpret_invalid e.packetId decodeByte 0 hv with hint | hint
        · rw [hint] at h
          cases h
        · rw [hint] at h
          cases h

/-- A command that expects one byte returns what its exchange says. -/
def Judged (packetId reserved : Byte) (cmdData : List Byte) (r : Except McuRc (Option Byte)) (new : List Exchange) : Prop :=
  ∃ response, new = [⟨packetId, reserved, cmdData, response⟩] ∧
    r.map Option.isSome = Exchange.verdict ⟨packetId, reserved, cmdData, response⟩

theorem adds_command_judged {host : Host H} (packetId reserved : Byte) (cmdData : List Byte) (timeout : Nat) :
    Adds history (command host packetId reserved cmdData timeout decodeByte) (Judged packetId reserved cmdData) := by
  refine (adds_command _ _ _ _ _).weaken fun r new => ?_
  rintro ⟨response, hnew, hr⟩
  refine ⟨response, hnew, ?_⟩
  cases response with
  | error rc =>
    rw [show r = .error rc from hr]
    rfl
  | ok m =>
    obtain ⟨len, rfl⟩ := hr
    rfl

/-! ## The writes -/

/-- What is sent for one packet. -/
abbrev Request := Byte × Byte × List Byte

def Exchange.request (e : Exchange) : Request := (e.packetId, e.reserved, e.cmdData)

/-- `eOTP_WRITE` -/
def otpWriteId : Byte := 0x09

/-- The packets that carry `data` to the OTP, `n` at most. -/
def otpWriteRequests (mode : Byte) : Nat → Nat → List Byte → List Request
  | 0, _, _ => []
  | n + 1, addr, data =>
    if data = [] then []
    else (otpWriteId, mode, otpAddrLen addr (data.take otpChunkLen).length ++ data.take otpChunkLen) ::
      otpWriteRequests mode n (addr + (data.take otpChunkLen).length) (data.drop otpChunkLen)

theorem length_drop_chunk {n : Nat} {data : List Byte} (h : data.length ≤ n + 1) : (data.drop otpChunkLen).length ≤ n := by
  simp only [List.length_drop, otpChunkLen, maxPayloadLen]
  omega

/-- The packets of one write: all but the last are carried out, and the last decides. -/
structure Written (mode : Byte) (n addr : Nat) (data : List Byte) (r : Except McuRc Bool) (new : List Exchange) : Prop where
  chain : ∃ pre e, new = pre ++ [e] ∧ (∀ x ∈ pre, x.Succeeded) ∧ r = e.verdict
  ids : ∀ e ∈ new, e.packetId = otpWriteId
  requests : r = .ok true → new.map Exchange.request = otpWriteRequests mode n addr data

theorem adds_otpWriteFrom_written {host : Host H} (mode : Byte) : ∀ (n addr : Nat) (data : List Byte),
    data.length ≤ n → data ≠ [] → Adds history (otpWriteFrom host mode n addr data) (Written mode n addr data)
  | 0, _, data, hn, hdata => absurd (List.length_eq_zero_iff.mp (Nat.le_zero.mp hn)) hdata
  | n + 1, addr, data, hn, hdata => by
    have hrequests : otpWriteRequests mode (n + 1) addr data =
        (otpWriteId, mode, otpAddrLen addr (data.take otpChunkLen).length ++ data.take otpChunkLen) ::
          otpWriteRequests mode n (addr + (data.take otpChunkLen).length) (data.drop otpChunkLen) := by
      rw [otpWriteRequests, if_neg hdata]
    rw [otpWriteFrom, if_neg hdata]
    refine Adds.bind (G := fun chunk r new => (chunk = none → r = .ok false ∧ new = []) ∧ (chunk.isSome = true →
        (data.drop otpChunkLen = [] → r = .ok true ∧ new = []) ∧ (data.drop otpChunkLen ≠ [] →
          Written mode n (addr + (data.take otpChunkLen).length) (data.drop otpChunkLen) r new)))
      (adds_command_judged _ _ _ _) (fun chunk => ?_) (fun chunk r new new' h h' => ?_) fun rc new h => ?_
    · cases chunk with
      | none => exact Adds.pure ⟨fun _ => ⟨rfl, rfl⟩, fun h => by cases h⟩
      | some b =>
        by_cases hrest : data.drop otpChunkLen = []
        · have hend : otpWriteFrom host mode n (addr + (data.take otpChunkLen).length) (data.drop otpChunkLen) =
              (pure true : Call H Bool) := by
            rw [hrest]
            cases n <;> rfl
          simp only [hend]
          exact Adds.pure ⟨fun h => (by cases h), fun _ => ⟨fun _ => ⟨rfl, rfl⟩, fun h => absurd hrest h⟩⟩
        · exact (adds_otpWriteFrom_written mode n _ _ (length_drop_chunk hn) hrest).weaken fun _ _ h =>
            ⟨fun h => (by cases h), fun _ => ⟨fun h => absurd h hrest, fun _ => h⟩⟩
    · obtain ⟨response, rfl, hv⟩ := h
      cases chunk with
      | none =>
        obtain ⟨rfl, rfl⟩ := h'.1 rfl
        exact ⟨⟨[], _, rfl, fun _ hx => absurd hx List.not_mem_nil, hv⟩, fun e he => List.mem_singleton.mp he ▸ rfl,
          fun hr => by cases hr⟩
      | some b =>
        have hgood := (verdict_iff _).mp hv.symm
        by_cases hrest : data.drop otpChunkLen = []
        · obtain ⟨rfl, rfl⟩ := (h'.2 rfl).1 hrest
          refine ⟨⟨[], _, rfl, fun _ hx => absurd hx List.not_mem_nil, hv⟩, fun e he => List.mem_singleton.mp he ▸ rfl,
            fun _ => ?_⟩
          rw [hrequests, hrest]
          cases n <;> rfl
        · have hw := (h'.2 rfl).2 hrest
          obtain ⟨pre, e, rfl, hpre, hr⟩ := hw.chain
          refine ⟨⟨_ :: pre, e, rfl, fun x hx => ?_, hr⟩, fun x hx => ?_, fun htrue => ?_⟩
          · rcases List.mem_cons.mp hx with rfl | hx
            · exact hgood
            · exact hpre x hx
          · rcases List.mem_cons.mp hx with rfl | hx
            · rfl
            · exact hw.ids x hx
          · rw [hrequests, ← hw.requests htrue]
            rfl
    · obtain ⟨response, rfl, hv⟩ := h
      exact ⟨⟨[], _, rfl, fun _ hx => absurd hx List.not_mem_nil, hv⟩, fun e he => List.mem_singleton.mp he ▸ rfl,
        fun hr => by cases hr⟩

/-! ## The run of an operation -/

/-- One irreversible step: the key command, or a write to the OTP. -/
inductive KeyStep
  | key (packetId : Byte) (cmdData : List Byte)
  | write (w : OtpWrite)

/-- The write lies in the OTP, which `lan80xx_otp_write` checks. -/
def OtpWrite.Fits (w : OtpWrite) : Prop :=
  ¬(w.data.length = 0 ∨ maxOtpSize < w.data.length ∨ maxOtpSize < w.offset.toNat + w.data.length)

def OtpWrite.requests (w : OtpWrite) : List Request :=
  otpWriteRequests w.mode w.data.length w.offset.toNat w.data

namespace KeyStep

def Fits : KeyStep → Prop
  | key _ _ => True
  | write w => w.Fits

def packetId : KeyStep → Byte
  | key packetId _ => packetId
  | write _ => otpWriteId

def requests : KeyStep → List Request
  | key packetId cmdData => [(packetId, reservedId, cmdData)]
  | write w => w.requests

end KeyStep

/-- `ePROG_OTP_KEY1` to `ePROG_OTP_KEY3` -/
def progKeyIds : List Byte := [0x0C, 0x0D, 0x0E]

/-- A failure after which the operation goes on: a response that fails the check of a packet, and any failure of the
command that programs a key. -/
def Unheeded (e : Exchange) : Prop :=
  e.verdict = .ok false ∨ (e.packetId ∈ progKeyIds ∧ ¬e.Succeeded ∧ e.verdict ≠ .error .hang)

theorem Unheeded.not_succeeded {e : Exchange} (h : Unheeded e) : ¬e.Succeeded := by
  rcases h with h | ⟨-, h, -⟩
  · rw [← verdict_iff, h]
    intro h
    cases h
  · exact h

/-- The steps that were carried out, whether they came to their end, and their exchanges. -/
abbrev KeyRun := FailStop.Run KeyStep.Fits Exchange.Succeeded Unheeded Exchange.request KeyStep.requests

/-- A call that carries out one step: when it returns, the run goes on, and otherwise it ends there. -/
structure StepOf (w : KeyStep) (r : Except McuRc α) (new : List Exchange) : Prop where
  ids : ∀ x ∈ new, x.packetId = w.packetId
  next : ∀ a, r = .ok a → ∀ ws b new', KeyRun ws b new' → KeyRun (w :: ws) b (new ++ new')
  last : ∀ rc, r = .error rc → ∀ ws, KeyRun (w :: ws) false new

/-- A call that carries out a list of writes. -/
structure Ran (ws : List OtpWrite) (r : Except McuRc Unit) (new : List Exchange) : Prop where
  ids : ∀ x ∈ new, x.packetId = otpWriteId
  run : KeyRun (ws.map .write) r.isOk new

section Run

variable {host : Host H} {ws : List OtpWrite}

theorem Written.not_unheeded {e : Exchange} (hid : e.packetId = otpWriteId) (hv : e.verdict ≠ .ok false) : ¬Unheeded e := by
  rintro (h | ⟨h, -⟩)
  · exact hv h
  · rw [hid] at h
    exact absurd h (by decide)

theorem Written.stepOf {w : OtpWrite} (hw : w.Fits) {r : Except McuRc Bool} {new : List Exchange}
    (h : Written w.mode w.data.length w.offset.toNat w.data r new) : StepOf (.write w) r new := by
  obtain ⟨pre, e, rfl, hpre, hr⟩ := h.chain
  have hid := h.ids e (List.mem_append_right _ (List.mem_singleton.mpr rfl))
  refine ⟨h.ids, fun a ha ws b new' hrun => ?_, fun rc hrc ws => ?_⟩
  · have hcons : pre ++ [e] ++ new' = pre ++ e :: new' := by simp
    rw [hcons]
    cases a with
    | true =>
      have hgood := (verdict_iff e).mp (hr ▸ ha)
      exact .pass hw hpre hgood (h.requests ha) hrun
    | false => exact .ignore hw hpre (Unheeded.not_succeeded (Or.inl (hr ▸ ha))) (Or.inl (hr ▸ ha)) hrun
  · refine .stop hw hpre (fun hg => ?_) (Written.not_unheeded hid fun hv => ?_)
    · rw [hr, (verdict_iff e).mpr hg] at hrc
      cases hrc
    · rw [hr, hv] at hrc
      cases hrc

theorem adds_otpWrite_run (w : OtpWrite) : Adds history (w.run host) (StepOf (.write w)) := by
  have hwrite : Adds history (otpWrite host w.data w.offset w.mode) (StepOf (.write w)) := by
    refine Adds.failIf_bind (fun hb => ?_) fun hb => ?_
    · exact ⟨fun _ hx => absurd hx List.not_mem_nil, fun _ h => (by cases h), fun _ _ _ => .refuse fun hw => hw hb⟩
    · have hdata : w.data ≠ [] := fun h => hb (Or.inl (by rw [h]; rfl))
      exact (adds_otpWriteFrom_written _ _ _ _ (Nat.le_refl _) hdata).weaken fun _ _ h => h.stepOf hb
  refine Adds.bind (G := fun _ r new => r = .ok () ∧ new = []) hwrite (fun _ => Adds.pure ⟨rfl, rfl⟩)
    (fun a r new new' h h' => ?_) fun rc new h => ⟨h.ids, fun _ h => (by cases h), fun _ _ => h.last rc rfl⟩
  obtain ⟨rfl, rfl⟩ := h'
  rw [List.append_nil]
  exact ⟨h.ids, fun _ _ => h.next a rfl, fun _ h => by cases h⟩

/-- One write after the others. -/
theorem adds_ran_bind {x : Call H Unit} {y : Unit → Call H Unit} {w : OtpWrite} (hx : Adds history x (Ran ws))
    (hy : Adds history (y ()) (StepOf (.write w))) : Adds history (x >>= y) (Ran (ws ++ [w])) := by
  refine Adds.bind hx (fun _ => hy) (fun a r new new' h h' => ⟨fun x hx => ?_, ?_⟩) fun rc new h => ⟨h.ids, ?_⟩
  · rcases List.mem_append.mp hx with hx | hx
    · exact h.ids x hx
    · exact h'.ids x hx
  · rw [List.map_append]
    cases r with
    | ok u =>
      have hlast : KeyRun [.write w] true (new' ++ []) := h'.next u rfl [] true [] .nil
      rw [List.append_nil] at hlast
      exact h.run.append hlast
    | error rc => exact h.run.append (h'.last rc rfl [])
  · rw [List.map_append]
    exact h.run.append_false

theorem adds_forUpTo_ran {f : Nat → Call H Unit} {w : Nat → OtpWrite}
    (hf : ∀ i, Adds history (f i) (StepOf (.write (w i)))) :
    ∀ n, Adds history (forUpTo n f) (Ran ((List.range n).map w))
  | 0 => Adds.pure ⟨fun _ hx => absurd hx List.not_mem_nil, .nil⟩
  | n + 1 => by
    rw [List.range_succ, List.map_append]
    exact adds_ran_bind (adds_forUpTo_ran hf n) (hf n)

/-- Replacing the error code changes nothing of what is done. -/
theorem adds_failResponse {x : Call H α} {D : Except McuRc α → List Exchange → Prop} (hx : Adds history x D)
    (hD : ∀ rc rc' new, D (.error rc) new → D (.error rc') new) : Adds history (failResponse x) D := by
  intro s
  obtain ⟨new, hnew, h⟩ := hx s
  refine ⟨new, ?_, ?_⟩
  · rw [← hnew]
    unfold final failResponse
    cases x s with
    | ok a t => rfl
    | error rc t => cases rc <;> rfl
  · unfold outcome failResponse at *
    cases hxs : x s with
    | ok a t =>
      rw [hxs] at h
      exact h
    | error rc t =>
      rw [hxs] at h
      cases rc <;> exact hD _ _ _ h

theorem StepOf.error {w : KeyStep} {rc rc' : McuRc} {new : List Exchange}
    (h : StepOf w (.error rc : Except McuRc α) new) : StepOf w (.error rc' : Except McuRc α) new :=
  ⟨h.ids, fun _ h => (by cases h), fun _ _ => h.last rc rfl⟩

theorem adds_writeUpdates (otpBuffer : Mem) (cfgUpdates : Nat → OtpUpdate) (updateCnt : Byte) :
    Adds history (writeUpdates host otpBuffer cfgUpdates updateCnt) (Ran (otpWrites otpBuffer cfgUpdates updateCnt)) :=
  adds_ran_bind (adds_forUpTo_ran (fun i => adds_otpWrite_run (recordWrite otpBuffer (cfgUpdates i))) _)
    (adds_failResponse (adds_otpWrite_run _) fun _ _ _ => StepOf.error)

end Run

/-! ## The operations -/

/-- `eOTP_KEY_STATUS` -/
def keyStatusId : Byte := 0x11

namespace KeyOp

/-- The ids that the key command can have. -/
def keyIds : KeyOp → List Byte
  | progRepKey _ => progKeyIds
  | revokeAllKeys => [0x0F]
  | revokeROTKey => [0x10]

def keyData : KeyOp → List Byte
  | progRepKey signedKey => signedKey.toList
  | revokeAllKeys => []
  | revokeROTKey => []

theorem keyIds_ne_status {op : KeyOp} {id : Byte} (h : id ∈ op.keyIds) : id ≠ keyStatusId := by
  cases op <;> revert h <;> simp only [keyIds, progKeyIds, keyStatusId, List.mem_cons, List.not_mem_nil] <;>
    rintro (rfl | rfl | rfl | h) <;> first | decide | cases h

end KeyOp

/-- What an operation does after it has asked for the state of the keys. -/
structure OpRun (op : KeyOp) (ws : List OtpWrite) (r : Except McuRc Unit) (new : List Exchange) : Prop where
  writes : ∀ x ∈ new.tail, x.packetId = otpWriteId
  run : (new = [] ∧ r.isOk = false) ∨ ∃ id ∈ op.keyIds, (∀ x ∈ new.head?, x.packetId = id) ∧
    KeyRun (.key id op.keyData :: ws.map .write) r.isOk new

/-- The key command: one exchange, after which the run goes on or ends. -/
def KeySent (packetId : Byte) (cmdData : List Byte) (r : Except McuRc α) (new : List Exchange) : Prop :=
  (∃ e, new = [e]) ∧ StepOf (.key packetId cmdData) r new

section Operations

variable {host : Host H} {ws : List OtpWrite}

/-- A key command whose return code is looked at. -/
theorem adds_key_checked {packetId : Byte} (cmdData : List Byte) (hid : packetId ∉ progKeyIds) :
    Adds history (keyCommand host packetId cmdData) (KeySent packetId cmdData) := by
  refine (adds_command_judged _ _ _ _).weaken fun r new => ?_
  rintro ⟨response, rfl, hv⟩
  refine ⟨⟨_, rfl⟩, fun x hx => List.mem_singleton.mp hx ▸ rfl, fun a ha ws b new' hrun => ?_, fun rc hrc ws => ?_⟩
  · subst ha
    cases a with
    | some b => exact .pass trivial (fun _ hx => absurd hx List.not_mem_nil) ((verdict_iff _).mp hv.symm) rfl hrun
    | none =>
      have hu : Unheeded ⟨packetId, reservedId, cmdData, response⟩ := Or.inl hv.symm
      exact .ignore trivial (fun _ hx => absurd hx List.not_mem_nil) hu.not_succeeded hu hrun
  · subst hrc
    refine .stop_first trivial (fun hg => ?_) ?_
    · rw [(verdict_iff _).mpr hg] at hv
      cases hv
    · rintro (h | ⟨h, -⟩)
      · rw [h] at hv
        cases hv
      · exact hid h

theorem adds_unchecked {x : Call H α} {D : Except McuRc α → List Exchange → Prop} {D' : Except McuRc Unit → List Exchange → Prop}
    (hx : Adds history x D) (hok : ∀ r new, D r new → r ≠ .error .hang → D' (.ok ()) new)
    (hhang : ∀ new, D (.error .hang) new → D' (.error .hang) new) : Adds history (unchecked x) D' := by
  intro s
  obtain ⟨new, hnew, h⟩ := hx s
  cases hxs : x s with
  | ok a t =>
    rw [outcome_ok hxs] at h
    have hu : unchecked x s = .ok () t := by simp only [unchecked, hxs]
    refine ⟨new, ?_, ?_⟩
    · rw [← hnew]
      simp only [final, hu, hxs]
    · rw [outcome_ok hu]
      exact hok _ _ h fun h => by cases h
  | error rc t =>
    rw [outcome_error hxs] at h
    by_cases hrc : rc = .hang
    · subst hrc
      have hu : unchecked x s = .error .hang t := by simp only [unchecked, hxs]
      refine ⟨new, ?_, ?_⟩
      · rw [← hnew]
        simp only [final, hu, hxs]
      · rw [outcome_error hu]
        exact hhang _ h
    · have hu : unchecked x s = .ok () t := by
        cases rc <;> first | exact absurd rfl hrc | simp only [unchecked, hxs]
      refine ⟨new, ?_, ?_⟩
      · rw [← hnew]
        simp only [final, hu, hxs]
      · rw [outcome_ok hu]
        exact hok _ _ h fun h => hrc (Except.error.inj h)

/-- A key command whose return code is overwritten. -/
theorem adds_key_unchecked {packetId : Byte} (cmdData : List Byte) (hid : packetId ∈ progKeyIds) :
    Adds history (unchecked (keyCommand host packetId cmdData)) (KeySent packetId cmdData) := by
  refine adds_unchecked (adds_command_judged _ _ _ _) (fun r new h hr => ?_) fun new h => ?_
  · obtain ⟨response, rfl, hv⟩ := h
    refine ⟨⟨_, rfl⟩, fun x hx => List.mem_singleton.mp hx ▸ rfl, fun _ _ ws b new' hrun => ?_, fun _ h => by cases h⟩
    by_cases hg : Exchange.Succeeded ⟨packetId, reservedId, cmdData, response⟩
    · exact .pass trivial (fun _ hx => absurd hx List.not_mem_nil) hg rfl hrun
    · refine .ignore trivial (fun _ hx => absurd hx List.not_mem_nil) hg (Or.inr ⟨hid, hg, fun hh => hr ?_⟩) hrun
      rw [hh] at hv
      cases r with
      | ok a => cases hv
      | error rc =>
        cases hv
        rfl
  · obtain ⟨response, rfl, hv⟩ := h
    refine ⟨⟨_, rfl⟩, fun x hx => List.mem_singleton.mp hx ▸ rfl, fun _ h => (by cases h), fun rc _ ws => ?_⟩
    refine .stop_first trivial (fun hg => ?_) ?_
    · rw [(verdict_iff _).mpr hg] at hv
      cases hv
    · rintro (h | ⟨-, -, h⟩)
      · rw [h] at hv
        cases hv
      · exact h hv.symm

/-- The key command and the writes after it. -/
theorem adds_opRun {op : KeyOp} {packetId : Byte} {key : Call H α} {otpBuffer : Mem} {cfgUpdates : Nat → OtpUpdate}
    {updateCnt : Byte} (hid : packetId ∈ op.keyIds) (hkey : Adds history key (KeySent packetId op.keyData)) :
    Adds history (key >>= fun _ => writeUpdates host otpBuffer cfgUpdates updateCnt)
      (OpRun op (otpWrites otpBuffer cfgUpdates updateCnt)) := by
  refine Adds.bind hkey (fun _ => adds_writeUpdates _ _ _) (fun a r new new' h h' => ?_) fun rc new h => ?_
  · obtain ⟨⟨e, rfl⟩, hstep⟩ := h
    refine ⟨h'.ids, Or.inr ⟨packetId, hid, fun x hx => ?_, hstep.next a rfl _ _ _ h'.run⟩⟩
    obtain rfl : e = x := by simpa using hx
    exact hstep.ids e List.mem_cons_self
  · obtain ⟨⟨e, rfl⟩, hstep⟩ := h
    refine ⟨fun x hx => absurd hx List.not_mem_nil, Or.inr ⟨packetId, hid, fun x hx => ?_, hstep.last rc rfl _⟩⟩
    obtain rfl : e = x := by simpa using hx
    exact hstep.ids e List.mem_cons_self

theorem OpRun.nil {op : KeyOp} {rc : McuRc} : OpRun op ws (.error rc) [] where
  writes _ hx := absurd hx List.not_mem_nil
  run := Or.inl ⟨rfl, rfl⟩

/-- The exchange that asks for the state of the keys, and what follows it. -/
def OpTrace (op : KeyOp) (ws : List OtpWrite) (r : Except McuRc Unit) (new : List Exchange) : Prop :=
  ∃ status rest, new = status :: rest ∧ status.request = (keyStatusId, reservedId, []) ∧ OpRun op ws r rest

theorem adds_status_bind {op : KeyOp} {f : Option Byte → Call H Unit} (hf : ∀ o, Adds history (f o) (OpRun op ws)) :
    Adds history (failResponse (otpGetKeyStatus host) >>= f) (OpTrace op ws) := by
  have hstatus : Adds history (failResponse (otpGetKeyStatus host))
      fun _ new => ∃ status, new = [status] ∧ status.request = (keyStatusId, reservedId, []) := by
    refine adds_failResponse ((adds_command_judged _ _ _ _).weaken ?_) fun _ _ _ h => h
    rintro r new ⟨response, rfl, -⟩
    exact ⟨_, rfl, rfl⟩
  refine Adds.bind hstatus hf (fun a r new new' h h' => ?_) fun rc new h => ?_
  · obtain ⟨status, rfl, hreq⟩ := h
    exact ⟨status, new', rfl, hreq, h'⟩
  · obtain ⟨status, rfl, hreq⟩ := h
    exact ⟨status, [], rfl, hreq, .nil⟩

theorem adds_revokeKeys {op : KeyOp} {packetId : Byte} {key : Call H (Option Byte)} {otpBuffer : Mem}
    {cfgUpdates : Nat → OtpUpdate} {updateCnt : Byte} (hid : packetId ∈ op.keyIds)
    (hkey : Adds history key (KeySent packetId op.keyData)) :
    Adds history (revokeKeys host key otpBuffer cfgUpdates updateCnt)
      (OpTrace op (otpWrites otpBuffer cfgUpdates updateCnt)) :=
  adds_status_bind fun _ => Adds.failIf_bind (fun _ => .nil) fun _ => adds_opRun hid hkey

theorem nextKey_ok {keyStatus keyNo : Byte} (h : nextKey keyStatus = .ok keyNo) : keyNo ∈ progKeyIds := by
  unfold nextKey at h
  split at h
  · cases h
    decide
  split at h
  · cases h
    decide
  split at h
  · cases h
    decide
  split at h
  · cases h
  split at h <;> cases h

/-- Every key operation leaves such a trace. -/
theorem adds_keyOp (op : KeyOp) (otpBuffer : Mem) (cfgUpdates : Nat → OtpUpdate) (updateCnt : Byte) :
    Adds history (op.call host otpBuffer cfgUpdates updateCnt) (OpTrace op (otpWrites otpBuffer cfgUpdates updateCnt)) := by
  cases op with
  | progRepKey signedKey =>
    refine adds_status_bind fun o => ?_
    cases hk : nextKey (o.getD 0) with
    | ok keyNo =>
      have hid := nextKey_ok hk
      exact adds_opRun hid (adds_key_unchecked _ hid)
    | error rc => exact Adds.throw (OpRun.nil)
  | revokeAllKeys => exact adds_revokeKeys (List.mem_singleton.mpr rfl) (adds_key_checked _ (by decide))
  | revokeROTKey => exact adds_revokeKeys (List.mem_singleton.mpr rfl) (adds_key_checked _ (by decide))

end Operations

/-! ## Fail-stop -/

/-- No record and no signature is written after the key command or an earlier write has failed, and the operation returns
the code of success only when the key command and every write of the update list were carried out. -/
structure OtpFailStop (host : Host H) (op : KeyOp) (otpBuffer : Mem) (cfgUpdates : Nat → OtpUpdate) (updateCnt : Byte)
    (s : Dev McuConf H) : Prop where
  order : ∀ pre e post, added history s (final (op.call host otpBuffer cfgUpdates updateCnt) s) = pre ++ e :: post →
    e.packetId ≠ keyStatusId → ¬e.Succeeded → ∀ e' ∈ post, e'.packetId ≠ otpWriteId
  success : outcome (op.call host otpBuffer cfgUpdates updateCnt) s = .ok () → ∃ keyId ∈ op.keyIds,
    (added history s (final (op.call host otpBuffer cfgUpdates updateCnt) s)).map Exchange.request =
      (keyStatusId, reservedId, []) :: (keyId, reservedId, op.keyData) ::
        (otpWrites otpBuffer cfgUpdates updateCnt).flatMap OtpWrite.requests ∧
    ∀ e ∈ (added history s (final (op.call host otpBuffer cfgUpdates updateCnt) s)).tail, e.Succeeded

section Trace

variable {op : KeyOp} {ws : List OtpWrite} {r : Except McuRc Unit} {status : Exchange} {rest : List Exchange}

/-- A split of the trace at a step that is not the question for the state of the keys is a split of what follows that. -/
theorem split_trace (hst : status.packetId = keyStatusId) {pre post : List Exchange} {e : Exchange}
    (h : status :: rest = pre ++ e :: post) (he : e.packetId ≠ keyStatusId) : ∃ pre', rest = pre' ++ e :: post := by
  cases pre with
  | nil =>
    obtain ⟨rfl, -⟩ := List.cons.inj h
    exact absurd hst he
  | cons x pre => exact ⟨pre, (List.cons.inj h).2⟩

theorem OpRun.key (h : OpRun op ws r rest) {e : Exchange} (he : e ∈ rest.head?) : e.packetId ∈ op.keyIds := by
  rcases h.run with ⟨rfl, -⟩ | ⟨id, hid, hhead, -⟩
  · cases he
  · exact hhead e he ▸ hid

theorem OpRun.ids (h : OpRun op ws r rest) {pre post : List Exchange} {e : Exchange} (hl : rest = pre ++ e :: post) :
    e.packetId ≠ keyStatusId ∧ ∀ x ∈ post, x.packetId = otpWriteId := by
  subst hl
  cases pre with
  | nil => exact ⟨KeyOp.keyIds_ne_status (h.key rfl), h.writes⟩
  | cons x pre =>
    refine ⟨?_, fun y hy => h.writes y (List.mem_append_right _ (List.mem_cons_of_mem _ hy))⟩
    rw [h.writes e (List.mem_append_right _ List.mem_cons_self)]
    decide

theorem flatMap_write (ws : List OtpWrite) :
    (ws.map KeyStep.write).flatMap KeyStep.requests = ws.flatMap OtpWrite.requests := by
  rw [List.flatMap_map]
  rfl

end Trace

/-- An operation is fail-stop exactly when no failure of the key command or of a write goes unheeded, but for one that is
followed by a write which lies outside the OTP and is refused. -/
theorem otpFailStop_iff (host : Host H) (op : KeyOp) (otpBuffer : Mem) (cfgUpdates : Nat → OtpUpdate) (updateCnt : Byte)
    (s : Dev McuConf H) : OtpFailStop host op otpBuffer cfgUpdates updateCnt s ↔
      ∀ pre e post, added history s (final (op.call host otpBuffer cfgUpdates updateCnt) s) = pre ++ e :: post →
        e.packetId ≠ keyStatusId → Unheeded e →
        post = [] ∧ ∃ w ∈ otpWrites otpBuffer cfgUpdates updateCnt, ¬w.Fits := by
  have htrace : OpTrace op (otpWrites otpBuffer cfgUpdates updateCnt) (outcome (op.call host otpBuffer cfgUpdates updateCnt) s)
      (added history s (final (op.call host otpBuffer cfgUpdates updateCnt) s)) :=
    (adds_keyOp op otpBuffer cfgUpdates updateCnt).added s
  have hdef (h₁ h₂) : OtpFailStop host op otpBuffer cfgUpdates updateCnt s := ⟨h₁, h₂⟩
  obtain ⟨status, rest, hnew, hreq, hrun⟩ := htrace
  have hst : status.packetId = keyStatusId := congrArg Prod.fst hreq
  rcases hrun.run with ⟨rfl, hr⟩ | ⟨keyId, hid, hhead, hkey⟩
  · refine iff_of_true (hdef (fun pre e post hl he _ => ?_) fun hok => ?_) fun pre e post hl he _ => ?_
    · obtain ⟨pre', hpre'⟩ := split_trace hst (hnew ▸ hl) he
      simp at hpre'
    · rw [hok] at hr
      cases hr
    · obtain ⟨pre', hpre'⟩ := split_trace hst (hnew ▸ hl) he
      simp at hpre'
  · have hstops := hkey.stops_iff fun e => Unheeded.not_succeeded
    have hmisfit : (∃ w ∈ (KeyStep.key keyId op.keyData :: (otpWrites otpBuffer cfgUpdates updateCnt).map .write),
        ¬w.Fits) ↔ ∃ w ∈ otpWrites otpBuffer cfgUpdates updateCnt, ¬w.Fits := by
      simp [KeyStep.Fits]
    constructor
    · intro hf pre e post hl he hu
      have hs : FailStop.Stops Exchange.Succeeded Exchange.request KeyStep.requests
          (KeyStep.key keyId op.keyData :: (otpWrites otpBuffer cfgUpdates updateCnt).map .write)
          (outcome (op.call host otpBuffer cfgUpdates updateCnt) s).isOk rest := by
        refine ⟨fun pre e post hl hbad => ?_, fun hok => ?_⟩
        · obtain ⟨hne, hids⟩ := hrun.ids hl
          refine List.eq_nil_iff_forall_not_mem.mpr fun x hx => ?_
          exact hf.order (status :: pre) e post (by rw [hnew, hl]; rfl) hne hbad x hx (hids x hx)
        · have hout : outcome (op.call host otpBuffer cfgUpdates updateCnt) s = .ok () := by
            cases ho : outcome (op.call host otpBuffer cfgUpdates updateCnt) s with
            | ok u => rfl
            | error rc =>
              rw [ho] at hok
              cases hok
          obtain ⟨keyId', hid', hmap, hgood⟩ := hf.success hout
          rw [hnew] at hmap hgood
          obtain ⟨-, hrest⟩ := List.cons.inj hmap
          cases rest with
          | nil => cases hrest
          | cons e rest =>
            have hkeyId : keyId = keyId' := by
              rw [← hhead e rfl]
              exact congrArg Prod.fst (List.cons.inj hrest).1
            refine ⟨hgood, ?_⟩
            rw [List.flatMap_cons, flatMap_write, hkeyId]
            exact hrest
      obtain ⟨pre', hpre'⟩ := split_trace hst (hnew ▸ hl) he
      exact (hstops.mp hs pre' e post hpre' hu).imp_right hmisfit.mp
    · intro hc
      have hs := hstops.mpr fun pre e post hl hu =>
        (hc (status :: pre) e post (by rw [hnew, hl]; rfl) (hrun.ids hl).1 hu).imp_right hmisfit.mpr
      refine hdef (fun pre e post hl he hbad => ?_) fun hok => ⟨keyId, hid, ?_⟩
      · obtain ⟨pre', hpre'⟩ := split_trace hst (hnew ▸ hl) he
        rw [hs.order pre' e post hpre' hbad]
        exact fun _ hx => absurd hx List.not_mem_nil
      · obtain ⟨hgood, hmap⟩ := hs.complete (by rw [hok]; rfl)
        rw [hnew, List.map_cons, hreq, hmap, List.flatMap_cons, flatMap_write]
        exact ⟨rfl, hgood⟩

/-- A board that counts the requests, and rejects the second one with a packet of another id. -/
def rejectingBoard : Host Nat where
  bus :=
    { rd := fun r n => (.ok (if r = flagReg then 2 else if r = respReg 0 then if n = 2 then 0x0002FFFF else 0x00020080 else 0), n)
      wr := fun r v n => (.ok (), if r = flagReg then if v = 0x00010000 then n + 1 else n else n)
      drift := fun n n' => n' = n }
  gpioRead := some fun _ => 1
  msleep := id
  patience := 1

/-- The operation on that board: whether it returns the code of success, and the verdict on the key command. -/
def rejectedKey : Bool × Option Bool :=
  match KeyOp.call rejectingBoard (.progRepKey (.replicate 128 0)) (fun _ => 0) (fun _ => ⟨0, 0⟩) 1 ⟨{}, 0⟩ with
  | .ok () s => (true, s.conf.exchanges.tail.head?.map fun e => e.verdict matches .ok true)
  | .error _ _ => (false, none)

/-- The key is not programmed, the signature is written all the same, and the operation returns the code of success. -/
theorem not_otpFailStop_rejected : ¬OtpFailStop rejectingBoard (.progRepKey (.replicate 128 0)) (fun _ => 0)
    (fun _ => ⟨0, 0⟩) 1 ⟨{}, 0⟩ := by
  intro h
  have hrun : rejectedKey = (true, some false) := by decide +kernel
  unfold rejectedKey at hrun
  split at hrun
  · next s hs =>
    obtain ⟨_, _, _, hgood⟩ := h.success (outcome_ok hs)
    have hadded : added history (⟨{}, 0⟩ : Dev McuConf Nat) s = s.conf.exchanges := rfl
    rw [final, hs, hadded] at hgood
    cases hl : s.conf.exchanges.tail with
    | nil =>
      rw [hl] at hrun
      cases hrun
    | cons e l =>
      rw [hl] at hrun hgood
      have hv := (verdict_iff e).mpr (hgood e List.mem_cons_self)
      simp [hv] at hrun
  · cases hrun

end Lan80xx.Mailbox
