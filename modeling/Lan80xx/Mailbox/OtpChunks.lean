import Lan80xx.Lib.Tiles
import Lan80xx.Mailbox.OtpKeys

/-!
# OTP: chunks

The OTP is read and written in chunks that fit into a packet. The counters, of 16 bits, advance with every chunk that is
acknowledged; any other response ends the loop.

- `otpReadPriv_eq`, `otpWritePriv_eq`: the loops with their counters are those over what is left of the data;
- `adds_chunkLoop`: the run of such a loop, chunk by chunk;
- `otp_chunks_iff`: the chunks are right and the loop comes to its end, unless a response fails the check of a packet, or
  is one to another command that is too long to be dumped.
-/

namespace Lan80xx.Mailbox

open ByteMem Fallible RegBus Journal

variable {H α β : Type}

/-! ## The loops -/

/-- `u16DataLen` of a round. -/
def roundLen (len curLen : BitVec 16) : BitVec 16 :=
  if otpChunkLen < len.toNat - curLen.toNat then BitVec.ofNat 16 otpChunkLen else len - curLen

/-- The loop of `lan80xx_otp_read_priv` and `lan80xx_otp_write_priv`, for `n` rounds at most, with what a round does left
open: only an acknowledged chunk goes on. -/
def chunkLoop (len : BitVec 16) (send : BitVec 16 → BitVec 16 → BitVec 16 → β → Call H (Option β)) :
    Nat → BitVec 16 → BitVec 16 → β → Call H (β × Bool)
  | 0, _, _, _ => throw .hang
  | n + 1, otpAddr, curLen, b =>
    if curLen < len then do
      let ack ← send otpAddr curLen (roundLen len curLen) b
      match ack with
      | none => pure (b, false)
      | some b' => chunkLoop len send n (otpAddr + roundLen len curLen) (curLen + roundLen len curLen) b'
    else pure (b, true)

/-- A `memcpy` to the caller's buffer: the offset and the bytes. -/
abbrev Copy := Nat × List Byte

/-- `eOTP_READ` -/
def otpReadId : Byte := 0x0A

section Loops

variable (host : Host H)

/-- A round of `lan80xx_otp_read_priv`; `copies` are those made so far. -/
def otpReadChunk (otpAddr curLen dataLen : BitVec 16) (copies : List Copy) : Call H (Option (List Copy)) := do
  let ack ← command host otpReadId reservedId (otpAddrLen otpAddr.toNat dataLen.toNat) intrTimeout (decodeLen dataLen.toNat)
  return ack.map fun data => copies ++ [(curLen.toNat, data)]

/-- `lan80xx_otp_read_priv`: the copies, and whether the loop came to its end. -/
def otpReadPriv (offset len : BitVec 16) (n : Nat) : Call H (List Copy × Bool) := do
  failIf (len.toNat = 0 ∨ maxOtpSize < len.toNat ∨ maxOtpSize < offset.toNat + len.toNat) .parm
  chunkLoop len (otpReadChunk host) n offset 0 []

/-- A round of `lan80xx_otp_write_priv`, with `u16Idx`. -/
def otpWriteChunk (mode : Byte) (pu8Data : Mem) (otpAddr _curLen dataLen idx : BitVec 16) :
    Call H (Option (BitVec 16)) := do
  let ack ← command host otpWriteId mode (otpAddrLen otpAddr.toNat dataLen.toNat ++ slice pu8Data idx.toNat dataLen.toNat)
    (if mode = otpWriteAuth then intrSignTimeout else intrTimeout) decodeByte
  return ack.map fun _ => idx + dataLen

/-- `lan80xx_otp_write_priv`: whether the loop came to its end. -/
def otpWritePriv (pu8Data : Mem) (offset len : BitVec 16) (mode : Byte) (n : Nat) : Call H Bool := do
  failIf (len.toNat = 0 ∨ maxOtpSize < len.toNat ∨ maxOtpSize < offset.toNat + len.toNat) .parm
  let done ← chunkLoop len (otpWriteChunk host mode pu8Data) n offset 0 0
  return done.2

end Loops

/-! ## The counters -/

section Counters

variable {host : Host H} {len curLen otpAddr : BitVec 16}

theorem roundLen_toNat (h : curLen < len) : (roundLen len curLen).toNat = min (len.toNat - curLen.toNat) otpChunkLen := by
  have hlt := BitVec.lt_def.mp h
  unfold roundLen
  split
  · next hbig =>
    have hchunk : (BitVec.ofNat 16 otpChunkLen).toNat = otpChunkLen := rfl
    omega
  · next hsmall =>
    rw [BitVec.toNat_sub_of_le (BitVec.le_of_lt h)]
    omega

/-- What a round of the loop does to its counters, as long as they do not wrap. -/
structure Advance (len otpAddr curLen : BitVec 16) : Prop where
  dataLen : (roundLen len curLen).toNat = min (len.toNat - curLen.toNat) otpChunkLen
  otpAddr : (otpAddr + roundLen len curLen).toNat = otpAddr.toNat + min (len.toNat - curLen.toNat) otpChunkLen
  curLen : (curLen + roundLen len curLen).toNat = curLen.toNat + min (len.toNat - curLen.toNat) otpChunkLen

theorem advance (h : curLen < len) (ha : otpAddr.toNat + (len.toNat - curLen.toNat) < 2 ^ 16) :
    Advance len otpAddr curLen := by
  have hlt := BitVec.lt_def.mp h
  have hlen := len.isLt
  have hround := roundLen_toNat h
  refine ⟨hround, ?_, ?_⟩
  · rw [BitVec.toNat_add, hround]
    omega
  · rw [BitVec.toNat_add, hround]
    omega

theorem slice_take (d : Mem) (off n k : Nat) : (slice d off n).take k = slice d off (min n k) := by
  unfold slice
  rw [← List.map_take, List.take_range, Nat.min_comm]

theorem slice_drop (d : Mem) (off n k : Nat) : (slice d off n).drop k = slice d (off + min n k) (n - min n k) := by
  refine List.ext_getElem (by simp [slice]; omega) fun i h₁ h₂ => ?_
  have hk : min n k = k := by
    simp [slice] at h₁
    omega
  simp [slice, hk, Nat.add_assoc]

theorem slice_length (d : Mem) (off n : Nat) : (slice d off n).length = n := by simp [slice]

theorem slice_eq_nil_iff (d : Mem) (off n : Nat) : slice d off n = [] ↔ n = 0 := by
  rw [← List.length_eq_zero_iff, slice_length]

/-- A round of the write loop is one over what is left of the data. -/
theorem chunkLoop_write (mode : Byte) (d : Mem) : ∀ (n k : Nat) (otpAddr curLen idx : BitVec 16),
    idx.toNat = curLen.toNat → len.toNat - curLen.toNat < n → len.toNat - curLen.toNat ≤ k →
      otpAddr.toNat + (len.toNat - curLen.toNat) < 2 ^ 16 →
        (chunkLoop len (otpWriteChunk host mode d) n otpAddr curLen idx >>= fun done => pure done.2) =
          otpWriteFrom host mode k otpAddr.toNat (slice d idx.toNat (len.toNat - curLen.toNat))
  | 0, _, _, _, _, _, hn, _, _ => absurd hn (Nat.not_lt_zero _)
  | n + 1, k, otpAddr, curLen, idx, hidx, hn, hk, ha => by
    rw [chunkLoop]
    by_cases h : curLen < len
    · have hlt := BitVec.lt_def.mp h
      obtain ⟨hdata, haddr, hcur⟩ := advance h ha
      obtain ⟨k, rfl⟩ : ∃ k', k = k' + 1 := ⟨k - 1, by omega⟩
      have hpos : 0 < otpChunkLen := by decide
      have hne : slice d idx.toNat (len.toNat - curLen.toNat) ≠ [] := by
        rw [Ne, slice_eq_nil_iff]
        omega
      have hidx' : (idx + roundLen len curLen).toNat = (curLen + roundLen len curLen).toNat := by
        rw [BitVec.toNat_add, BitVec.toNat_add, hidx]
      have hrest := chunkLoop_write mode d n k (otpAddr + roundLen len curLen) (curLen + roundLen len curLen)
        (idx + roundLen len curLen) hidx' (by omega) (by omega) (by omega)
      rw [if_pos h, otpWriteFrom, if_neg hne, slice_take, slice_drop, slice_length, bind_assoc, otpWriteChunk, bind_assoc,
        hdata]
      refine bind_congr fun ack => ?_
      cases ack with
      | none => rfl
      | some _ =>
        rw [hidx', hcur, haddr, ← Nat.sub_sub] at hrest
        rw [hidx]
        exact hrest
    · have hle : len.toNat - curLen.toNat = 0 := by
        have := BitVec.not_lt.mp h
        exact Nat.sub_eq_zero_of_le (BitVec.le_def.mp this)
      have hnil : slice d idx.toNat (len.toNat - curLen.toNat) = [] := (slice_eq_nil_iff _ _ _).mpr hle
      rw [if_neg h, hnil]
      cases k with
      | zero => rfl
      | succ k => rfl

/-- The same of the read loop: it hands out the bytes that it has copied. -/
theorem chunkLoop_read : ∀ (n k : Nat) (otpAddr curLen : BitVec 16) (copies : List Copy),
    len.toNat - curLen.toNat < n → len.toNat - curLen.toNat ≤ k → otpAddr.toNat + (len.toNat - curLen.toNat) < 2 ^ 16 →
      (chunkLoop len (otpReadChunk host) n otpAddr curLen copies >>= fun done => pure (done.1.flatMap Prod.snd, done.2)) =
        (otpReadFrom host k otpAddr.toNat (len.toNat - curLen.toNat) >>= fun r =>
          pure (copies.flatMap Prod.snd ++ r.1, r.2))
  | 0, _, _, _, _, hn, _, _ => absurd hn (Nat.not_lt_zero _)
  | n + 1, k, otpAddr, curLen, copies, hn, hk, ha => by
    rw [chunkLoop]
    by_cases h : curLen < len
    · have hlt := BitVec.lt_def.mp h
      obtain ⟨hdata, haddr, hcur⟩ := advance h ha
      obtain ⟨k, rfl⟩ : ∃ k', k = k' + 1 := ⟨k - 1, by omega⟩
      have hpos : 0 < otpChunkLen := by decide
      have hne : len.toNat - curLen.toNat ≠ 0 := by omega
      rw [if_pos h, otpReadFrom, if_neg hne, bind_assoc, otpReadChunk, bind_assoc, hdata, bind_assoc]
      refine bind_congr fun ack => ?_
      cases ack with
      | none => simp only [Option.map_none, pure_bind, List.append_nil]
      | some data =>
        have hrest := chunkLoop_read n k (otpAddr + roundLen len curLen) (curLen + roundLen len curLen)
          (copies ++ [(curLen.toNat, data)]) (by omega) (by omega) (by omega)
        rw [hcur, haddr, ← Nat.sub_sub, List.flatMap_append] at hrest
        simp only [List.flatMap_singleton, List.append_assoc] at hrest
        simp only [Option.map_some, pure_bind, bind_assoc]
        exact hrest
    · have hle : len.toNat - curLen.toNat = 0 := by
        have := BitVec.not_lt.mp h
        exact Nat.sub_eq_zero_of_le (BitVec.le_def.mp this)
      rw [if_neg h, hle]
      have hend : otpReadFrom host k otpAddr.toNat 0 = (pure ([], true) : Call H (List Byte × Bool)) := by
        cases k with
        | zero => rfl
        | succ k => rfl
      rw [hend, pure_bind, pure_bind, List.append_nil]

/-- `lan80xx_otp_write_priv` with its counters is the loop over the data. -/
theorem otpWritePriv_eq (pu8Data : Mem) (offset len : BitVec 16) (mode : Byte) {n : Nat} (hn : len.toNat < n) :
    otpWritePriv host pu8Data offset len mode n = otpWrite host (slice pu8Data 0 len.toNat) offset mode := by
  unfold otpWritePriv otpWrite
  rw [slice_length]
  by_cases h : len.toNat = 0 ∨ maxOtpSize < len.toNat ∨ maxOtpSize < offset.toNat + len.toNat
  · have hfail : (failIf (len.toNat = 0 ∨ maxOtpSize < len.toNat ∨ maxOtpSize < offset.toNat + len.toNat) .parm :
        Call H Unit) = throw .parm := if_pos h
    rw [hfail]
    rfl
  · have hmax : maxOtpSize = 0x4000 := rfl
    have hloop := @chunkLoop_write H host len mode pu8Data n len.toNat offset 0 0 rfl
      (by simpa using hn) (by simp) (by simp; omega)
    exact bind_congr fun _ => hloop

/-- `lan80xx_otp_read_priv` with its counters is the loop over the length that is left. -/
theorem otpReadPriv_eq (offset len : BitVec 16) {n : Nat} (hn : len.toNat < n) :
    (otpReadPriv host offset len n >>= fun done => pure (done.1.flatMap Prod.snd, done.2)) = otpRead host offset len := by
  unfold otpReadPriv otpRead
  rw [bind_assoc]
  by_cases h : len.toNat = 0 ∨ maxOtpSize < len.toNat ∨ maxOtpSize < offset.toNat + len.toNat
  · have hfail : (failIf (len.toNat = 0 ∨ maxOtpSize < len.toNat ∨ maxOtpSize < offset.toNat + len.toNat) .parm :
        Call H Unit) = throw .parm := if_pos h
    rw [hfail]
    rfl
  · have hmax : maxOtpSize = 0x4000 := rfl
    have hloop := @chunkLoop_read H host len n len.toNat offset 0 []
      (by simpa using hn) (by simp) (by simp; omega)
    refine bind_congr fun _ => hloop.trans ?_
    simp

end Counters

/-! ## Runs -/

/-- `packet_dump` does not get to the end of the packet. -/
def Dumped (m : Mem) : Prop := 252 < (pktLenOf m).toNat ∧ (pktLenOf m).toNat ≤ maxPktLen

namespace Exchange

/-- The response fails the check, and the call returns the code of the read before it. -/
def Slipped (e : Exchange) : Prop := ∃ m, e.response = .ok m ∧ ¬Valid m ∧ ¬Dumped m

/-- The response is not the answer, and the call does not return from dumping it. -/
def Stuck (e : Exchange) : Prop := ∃ m, e.response = .ok m ∧ ¬Genuine e.packetId m ∧ Dumped m

theorem Slipped.not_tolerated {e : Exchange} (h : e.Slipped) : ¬e.Tolerated := by
  obtain ⟨m, hm, hv, -⟩ := h
  exact fun ht => hv (ht m hm).1

theorem Stuck.not_tolerated {e : Exchange} (h : e.Stuck) : ¬e.Tolerated := by
  obtain ⟨m, hm, hg, hlong, -⟩ := h
  intro ht
  obtain ⟨hv, hshort⟩ := ht m hm
  have := hshort fun hid => hg ⟨hv, hid⟩
  omega

theorem Stuck.not_slipped {e : Exchange} (h : e.Stuck) : ¬e.Slipped := by
  obtain ⟨m, hm, -, hdump⟩ := h
  rintro ⟨m', hm', -, hnot⟩
  cases hm.symm.trans hm'
  exact hnot hdump

theorem Stuck.response_ne {e : Exchange} (h : e.Stuck) (rc : McuRc) : e.response ≠ .error rc := by
  obtain ⟨m, hm, -⟩ := h
  rw [hm]
  exact fun hcontra => by cases hcontra

end Exchange

theorem Valid.le_maxPktLen {m : Mem} (hv : Valid m) : (pktLenOf m).toNat ≤ maxPktLen := by
  unfold Valid at hv
  rw [header_eq (m := m) fun _ _ => rfl] at hv
  split at hv
  · cases hv
  · next h => exact Nat.not_lt.mp h

/-- What comes of a response that fails the check. -/
theorem interpret_of_not_valid {packetId : Byte} {decode : BitVec 16 → Mem → Except McuRc α} {len : BitVec 16} {m : Mem}
    (hv : ¬Valid m) : (¬Dumped m → interpret packetId decode len m = .ok none) ∧
      (Dumped m → interpret packetId decode len m = .error .hang) := by
  have hcheck := @header_eq (fun i => some (m i)) m fun _ _ => rfl
  have hcrc := @validateCrc_eq (fun i => some (m i)) m (pktLenOf m - BitVec.ofNat 16 maxCrcLen) fun _ _ => rfl
  rw [hcrc, Option.bind_some] at hcheck
  unfold Valid at hv
  unfold interpret Dumped
  rw [hcheck] at hv ⊢
  by_cases hbig : maxPktLen < (pktLenOf m).toNat
  · rw [if_pos hbig] at hv ⊢
    exact ⟨fun _ => rfl, fun h => by omega⟩
  · rw [if_neg hbig] at hv ⊢
    split at hv
    · next hok =>
      split at hok
      · exact absurd rfl hv
      · cases hok
    · next e herr =>
      simp only [packetDump]
      have he : e ≠ .hang := by
        split at herr
        · cases herr
        · cases herr
          decide
      by_cases hlong : 252 < (pktLenOf m).toNat
      · rw [if_pos (by unfold maxPayloadLen; omega)]
        exact ⟨fun h => absurd ⟨hlong, by omega⟩ h, fun _ => rfl⟩
      · rw [if_neg (by omega)]
        refine ⟨fun _ => ?_, fun h => absurd h.1 hlong⟩
        cases e <;> first | rfl | exact absurd rfl he

/-- How a command ends, and what that says of its exchange. -/
inductive Ending (e : Exchange) (answered : α → Prop) : Except McuRc (Option α) → Prop
  | answered {a : α} : answered a → Ending e answered (.ok (some a))
  | unheeded : e.Slipped → Ending e answered (.ok none)
  | failed {rc : McuRc} : rc ≠ .hang → e.Tolerated → Ending e answered (.error rc)
  | hung : e.response = .error .hang ∨ e.Stuck → Ending e answered (.error .hang)

theorem Ending.map {e : Exchange} {p : α → Prop} {q : β → Prop} {r : Except McuRc (Option α)} (f : α → β)
    (h : Ending e p r) (hpq : ∀ a, p a → q (f a)) : Ending e q (r.map (Option.map f)) := by
  cases h with
  | answered ha => exact .answered (hpq _ ha)
  | unheeded hbad => exact .unheeded hbad
  | failed hrc htol => exact .failed hrc htol
  | hung hh => exact .hung hh

theorem Ending.imp {e : Exchange} {p q : α → Prop} {r : Except McuRc (Option α)} (h : Ending e p r)
    (hpq : ∀ a, p a → q a) : Ending e q r := by
  cases h with
  | answered ha => exact .answered (hpq _ ha)
  | unheeded hbad => exact .unheeded hbad
  | failed hrc htol => exact .failed hrc htol
  | hung hh => exact .hung hh

/-- The answer that a response was decoded to. -/
def Decoded (decode : BitVec 16 → Mem → Except McuRc α) (e : Exchange) (a : α) : Prop :=
  ∃ m len, e.response = .ok m ∧ Genuine e.packetId m ∧ decode len m = .ok a

theorem Exchanged.ending {packetId reserved : Byte} {cmdData : List Byte} {decode : BitVec 16 → Mem → Except McuRc α}
    {r : Except McuRc (Option α)} {new : List Exchange} (hd : ∀ len m, decode len m ≠ .error .hang)
    (h : Exchanged packetId reserved cmdData decode r new) :
    ∃ e, new = [e] ∧ e.request = (packetId, reserved, cmdData) ∧ Ending e (Decoded decode e) r := by
  obtain ⟨response, rfl, hr⟩ := h
  refine ⟨_, rfl, rfl, ?_⟩
  cases response with
  | error rc =>
    rw [show r = .error rc from hr]
    by_cases hrc : rc = .hang
    · subst hrc
      exact .hung (Or.inl rfl)
    · exact .failed hrc fun m hm => by cases hm
  | ok m =>
    obtain ⟨len, rfl⟩ := hr
    by_cases hv : Valid m
    · by_cases hid : m 0 = packetId + 0x80
      · have htol : (⟨packetId, reserved, cmdData, .ok m⟩ : Exchange).Tolerated :=
          Exchange.tolerated_of_not_bogus (Exchange.Confirmed.not_bogus ⟨m, rfl, hv, hid⟩)
        rw [interpret_genuine ⟨hv, hid⟩]
        cases hdec : decode len m with
        | ok a => exact .answered ⟨m, len, rfl, ⟨hv, hid⟩, hdec⟩
        | error rc => exact .failed (fun hrc => hd len m (hrc ▸ hdec)) htol
      · rcases interpret_foreign decode len hv hid with ⟨hlen, rc, hrc, hint⟩ | ⟨hlen, hint⟩
        · rw [hint]
          refine .failed hrc fun m' hm' => ?_
          cases hm'
          exact ⟨hv, fun _ => hlen⟩
        · rw [hint]
          have hle : (pktLenOf m).toNat ≤ maxPktLen := Valid.le_maxPktLen hv
          exact .hung (Or.inr ⟨m, rfl, fun hg => hid hg.2, hlen, hle⟩)
    · obtain ⟨hslip, hstick⟩ := @interpret_of_not_valid _ packetId decode len m hv
      by_cases hdump : Dumped m
      · rw [hstick hdump]
        exact .hung (Or.inr ⟨m, rfl, fun hg => hv hg.1, hdump⟩)
      · rw [hslip hdump]
        exact .unheeded ⟨m, rfl, hv, hdump⟩

/-- A command with what is made of its answer. -/
theorem adds_command_ending {host : Host H} {packetId reserved : Byte} {cmdData : List Byte} {timeout : Nat}
    {decode : BitVec 16 → Mem → Except McuRc α} (hd : ∀ len m, decode len m ≠ .error .hang) (f : α → β) :
    Adds history (command host packetId reserved cmdData timeout decode >>= fun ack => pure (ack.map f)) fun r new =>
      ∃ e, new = [e] ∧ e.request = (packetId, reserved, cmdData) ∧
        Ending e (fun b => ∃ a, Decoded decode e a ∧ b = f a) r := by
  refine ((adds_command _ _ _ _ _).map (Option.map f)).weaken ?_
  rintro r new ⟨r', h, rfl⟩
  obtain ⟨e, rfl, hreq, hend⟩ := Exchanged.ending hd h
  exact ⟨e, rfl, hreq, hend.map f fun a ha => ⟨a, ha, rfl⟩⟩

/-- What goes out in the rounds of a loop, and what an acknowledged round leads to. -/
structure Rounds (β : Type) where
  packetId : Byte
  reserved : Byte
  body : Nat → β → List Byte
  acked : Nat → Nat → β → Exchange → β → Prop

/-- **A run of the loop** from the address `addr` and the length `cur` done. -/
inductive ChunkRun (R : Rounds β) (len : Nat) :
    Nat → Nat → β → Except McuRc (β × Bool) → List Exchange → Prop
  | done (addr : Nat) (b : β) : ChunkRun R len addr len b (.ok (b, true)) []
  | next {addr cur dl : Nat} {b b' : β} {e : Exchange} {r : Except McuRc (β × Bool)} {new : List Exchange} :
      cur < len → dl = min (len - cur) otpChunkLen →
        e.request = (R.packetId, R.reserved, otpAddrLen addr dl ++ R.body dl b) → R.acked cur dl b e b' →
          ChunkRun R len (addr + dl) (cur + dl) b' r new → ChunkRun R len addr cur b r (e :: new)
  | last {addr cur dl : Nat} {b : β} {e : Exchange} {r : Except McuRc (Option β)} :
      cur < len → dl = min (len - cur) otpChunkLen →
        e.request = (R.packetId, R.reserved, otpAddrLen addr dl ++ R.body dl b) → Ending e (fun _ => False) r →
          ChunkRun R len addr cur b (r.map fun _ => (b, false)) [e]

section Run

variable {R : Rounds β} {len : BitVec 16} {send : BitVec 16 → BitVec 16 → BitVec 16 → β → Call H (Option β)}

/-- The rounds that are run are those of the loop, whatever the responses. -/
theorem adds_chunkLoop (hsend : ∀ otpAddr curLen dataLen b, Adds history (send otpAddr curLen dataLen b) fun r new =>
      ∃ e, new = [e] ∧
        e.request = (R.packetId, R.reserved, otpAddrLen otpAddr.toNat dataLen.toNat ++ R.body dataLen.toNat b) ∧
          Ending e (R.acked curLen.toNat dataLen.toNat b e) r) : ∀ (n : Nat) (otpAddr curLen : BitVec 16) (b : β),
    curLen.toNat ≤ len.toNat → len.toNat - curLen.toNat < n → otpAddr.toNat + (len.toNat - curLen.toNat) < 2 ^ 16 →
      Adds history (chunkLoop len send n otpAddr curLen b) (ChunkRun R len.toNat otpAddr.toNat curLen.toNat b)
  | 0, _, _, _, _, hn, _ => absurd hn (Nat.not_lt_zero _)
  | n + 1, otpAddr, curLen, b, hle, hn, ha => by
    rw [chunkLoop]
    refine Adds.ite (fun h => ?_) fun h => ?_
    · have hlt := BitVec.lt_def.mp h
      obtain ⟨hdata, haddr, hcur⟩ := advance h ha
      have hpos : 0 < otpChunkLen := by decide
      have hrest (b' : β) := adds_chunkLoop hsend n (otpAddr + roundLen len curLen) (curLen + roundLen len curLen) b'
        (by omega) (by omega) (by omega)
      refine Adds.bind (G := fun ack r new => (ack = none → r = .ok (b, false) ∧ new = []) ∧
          ∀ b', ack = some b' → ChunkRun R len.toNat (otpAddr.toNat + (roundLen len curLen).toNat)
            (curLen.toNat + (roundLen len curLen).toNat) b' r new)
        (hsend otpAddr curLen (roundLen len curLen) b) (fun ack => ?_) (fun ack r new new' h₁ h₂ => ?_) fun rc new h₁ => ?_
      · cases ack with
        | none => exact Adds.pure ⟨fun _ => ⟨rfl, rfl⟩, fun _ h => by cases h⟩
        | some b' =>
          refine (hrest b').weaken fun r new hrun => ⟨fun h => (by cases h), fun b'' hb => ?_⟩
          cases hb
          rwa [haddr, hcur, ← hdata] at hrun
      · obtain ⟨e, rfl, hreq, hend⟩ := h₁
        cases hend with
        | answered hack => exact .next hlt hdata hreq hack (h₂.2 _ rfl)
        | unheeded hbad =>
          obtain ⟨rfl, rfl⟩ := h₂.1 rfl
          exact .last hlt hdata hreq (r := .ok none) (.unheeded hbad)
      · obtain ⟨e, rfl, hreq, hend⟩ := h₁
        cases hend with
        | failed hrc htol => exact .last hlt hdata hreq (r := .error rc) (.failed hrc htol)
        | hung hh => exact .last hlt hdata hreq (r := .error .hang) (.hung hh)
    · have heq : len.toNat = curLen.toNat := by
        have := BitVec.le_def.mp (BitVec.not_lt.mp h)
        omega
      rw [heq]
      exact Adds.pure (.done _ _)

end Run

/-! ## What the chunks are -/

/-- The address and the length in a request. -/
def Exchange.range (e : Exchange) : Nat × Nat :=
  ((half (e.cmdData.getD 0 0) (e.cmdData.getD 1 0)).toNat, (half (e.cmdData.getD 2 0) (e.cmdData.getD 3 0)).toNat)

section Facts

variable {R : Rounds β} {len addr cur : Nat} {b : β} {r : Except McuRc (β × Bool)} {new : List Exchange}

theorem range_of_request {e : Exchange} {packetId reserved : Byte} {dl : Nat} {body : List Byte}
    (h : e.request = (packetId, reserved, otpAddrLen addr dl ++ body)) (ha : addr < 2 ^ 16) (hdl : dl < 2 ^ 16) :
    e.range = (addr, dl) ∧ e.cmdData.drop 4 = body := by
  have hdata : e.cmdData = otpAddrLen addr dl ++ body := congrArg (fun q : Request => q.2.2) h
  have haddr : half (byteOf (BitVec.ofNat 16 addr) 0) (byteOf (BitVec.ofNat 16 addr) 1) = BitVec.ofNat 16 addr :=
    half_byteOf _
  have hlen : half (byteOf (BitVec.ofNat 16 dl) 0) (byteOf (BitVec.ofNat 16 dl) 1) = BitVec.ofNat 16 dl := half_byteOf _
  rw [Exchange.range, hdata]
  refine ⟨Prod.ext ?_ ?_, rfl⟩
  · refine (congrArg BitVec.toNat haddr).trans ?_
    rw [BitVec.toNat_ofNat, Nat.mod_eq_of_lt ha]
  · refine (congrArg BitVec.toNat hlen).trans ?_
    rw [BitVec.toNat_ofNat, Nat.mod_eq_of_lt hdl]

/-- The requests tile what they have reached. -/
theorem ChunkRun.tiles (h : ChunkRun R len addr cur b r new) (ha : addr + (len - cur) < 2 ^ 16) :
    ∃ hi ≤ addr + (len - cur), Tiles addr hi (new.map Exchange.range) := by
  have hpos : 0 < otpChunkLen := by decide
  induction h with
  | done addr b => exact ⟨addr, Nat.le_add_right _ _, .nil addr⟩
  | next hlt hdl hreq _ _ ih =>
    obtain ⟨hi, hhi, ht⟩ := ih (by omega)
    refine ⟨hi, by omega, ?_⟩
    rw [List.map_cons, (range_of_request hreq (by omega) (by omega)).1]
    exact .cons (by omega) ht
  | @last addr cur dl b e r hlt hdl hreq _ =>
    refine ⟨addr + dl, by omega, ?_⟩
    rw [List.map_singleton, (range_of_request hreq (by omega) (by omega)).1]
    exact .single (by omega)

theorem ChunkRun.small (h : ChunkRun R len addr cur b r new) (ha : addr + (len - cur) < 2 ^ 16) :
    ∀ e ∈ new, e.range.2 ≤ otpChunkLen := by
  have hpos : 0 < otpChunkLen := by decide
  induction h with
  | done addr b => exact fun e he => absurd he List.not_mem_nil
  | next hlt hdl hreq _ _ ih =>
    refine List.forall_mem_cons.mpr ⟨?_, ih (by omega)⟩
    rw [(range_of_request hreq (by omega) (by omega)).1]
    omega
  | last hlt hdl hreq _ =>
    refine List.forall_mem_singleton.mpr ?_
    rw [(range_of_request hreq (by omega) (by omega)).1]
    omega

/-- A loop that came to its end has tiled the whole, and every chunk was acknowledged. -/
theorem ChunkRun.complete {b' : β} (h : ChunkRun R len addr cur b r new) (hr : r = .ok (b', true))
    (ha : addr + (len - cur) < 2 ^ 16) :
    Tiles addr (addr + (len - cur)) (new.map Exchange.range) ∧
      ∀ e ∈ new, ∃ cur b b', R.acked cur e.range.2 b e b' := by
  have hpos : 0 < otpChunkLen := by decide
  induction h with
  | done addr b =>
    rw [Nat.sub_self]
    exact ⟨.nil addr, fun e he => absurd he List.not_mem_nil⟩
  | @next addr cur dl b b'' e r new hlt hdl hreq hack _ ih =>
    obtain ⟨ht, hacked⟩ := ih hr (by omega)
    have hrange := (range_of_request hreq (by omega) (by omega)).1
    have hend : addr + (len - cur) = addr + dl + (len - (cur + dl)) := by omega
    refine ⟨?_, List.forall_mem_cons.mpr ⟨⟨cur, b, b'', hrange ▸ hack⟩, hacked⟩⟩
    rw [List.map_cons, hrange, hend]
    exact .cons (by omega) ht
  | @last addr cur dl b e r hlt hdl hreq hend =>
    cases hend with
    | answered hfalse => exact hfalse.elim
    | unheeded hbad => cases hr
    | failed hrc htol => cases hr
    | hung hh => cases hr

/-- How a run ends: at its end or at an error, at a response that slips through, or at one that is dumped forever. -/
theorem ChunkRun.cases (h : ChunkRun R len addr cur b r new)
    (hR : ∀ cur dl b e b', R.acked cur dl b e b' → e.Confirmed) :
    ((∀ e ∈ new, e.Tolerated) ∧ ((∃ b', r = .ok (b', true)) ∨ ∃ rc, r = .error rc ∧
        (rc = .hang → ∃ e ∈ new, e.response = .error .hang))) ∨
      ((∃ e ∈ new, e.Slipped) ∧ ∃ b', r = .ok (b', false)) ∨
        ((∃ e ∈ new, e.Stuck) ∧ (∀ e ∈ new, ¬e.Slipped ∧ e.response ≠ .error .hang) ∧ r = .error .hang) := by
  induction h with
  | done addr b => exact Or.inl ⟨fun e he => absurd he List.not_mem_nil, Or.inl ⟨b, rfl⟩⟩
  | @next addr cur dl b b' e r new hlt hdl hreq hack _ ih =>
    have hconf := hR _ _ _ _ _ hack
    have htol := Exchange.tolerated_of_not_bogus hconf.not_bogus
    obtain ⟨m, hm, -⟩ := hconf
    rcases ih with ⟨hall, hend⟩ | ⟨⟨x, hx, hslip⟩, hend⟩ | ⟨⟨x, hx, hstuck⟩, hnone, hend⟩
    · refine Or.inl ⟨List.forall_mem_cons.mpr ⟨htol, hall⟩, hend.imp_right ?_⟩
      rintro ⟨rc, hr, hhang⟩
      exact ⟨rc, hr, fun hrc => (hhang hrc).imp fun x hx => ⟨List.mem_cons_of_mem _ hx.1, hx.2⟩⟩
    · exact Or.inr (Or.inl ⟨⟨x, List.mem_cons_of_mem _ hx, hslip⟩, hend⟩)
    · have he : ¬e.Slipped ∧ e.response ≠ .error .hang := by
        rw [hm]
        exact ⟨fun hslip => hslip.not_tolerated htol, fun hcontra => by cases hcontra⟩
      exact Or.inr (Or.inr ⟨⟨x, List.mem_cons_of_mem _ hx, hstuck⟩, List.forall_mem_cons.mpr ⟨he, hnone⟩, hend⟩)
  | @last addr cur dl b e r hlt hdl hreq hend =>
    have hmem : e ∈ [e] := List.mem_singleton.mpr rfl
    cases hend with
    | answered hfalse => exact hfalse.elim
    | unheeded hslip => exact Or.inr (Or.inl ⟨⟨e, hmem, hslip⟩, b, rfl⟩)
    | @failed rc hrc htol =>
      exact Or.inl ⟨List.forall_mem_singleton.mpr htol, Or.inr ⟨rc, rfl, fun h => absurd h hrc⟩⟩
    | hung hh =>
      rcases hh with hx | hstuck
      · have htol : e.Tolerated := fun m hm => by
          rw [hx] at hm
          cases hm
        exact Or.inl ⟨List.forall_mem_singleton.mpr htol, Or.inr ⟨.hang, rfl, fun _ => ⟨e, hmem, hx⟩⟩⟩
      · have hnone : ∀ x ∈ [e], ¬x.Slipped ∧ x.response ≠ .error .hang :=
          List.forall_mem_singleton.mpr ⟨hstuck.not_slipped, hstuck.response_ne .hang⟩
        exact Or.inr (Or.inr ⟨⟨e, hmem, hstuck⟩, hnone, rfl⟩)

/-- What is carried by the requests, when the rounds keep an invariant. -/
theorem ChunkRun.body {I : Nat → β → Prop} (h : ChunkRun R len addr cur b r new)
    (hI : ∀ cur dl b e b', cur + dl ≤ len → I cur b → R.acked cur dl b e b' → I (cur + dl) b') (h₀ : I cur b)
    (ha : addr + (len - cur) < 2 ^ 16) :
    ∀ e ∈ new, ∃ b, I (cur + (e.range.1 - addr)) b ∧ e.cmdData.drop 4 = R.body e.range.2 b := by
  have hpos : 0 < otpChunkLen := by decide
  induction h with
  | done addr b => exact fun e he => absurd he List.not_mem_nil
  | @next addr cur dl b b' e r new hlt hdl hreq hack hrun ih =>
    obtain ⟨hrange, hbody⟩ := range_of_request hreq (by omega) (by omega)
    refine List.forall_mem_cons.mpr ⟨⟨b, ?_, ?_⟩, fun x hx => ?_⟩
    · rw [hrange, Nat.sub_self]
      exact h₀
    · rw [hrange, hbody]
    · obtain ⟨hi, -, ht⟩ := hrun.tiles (by omega)
      have hle := (ht.bounds (List.mem_map_of_mem hx)).1
      obtain ⟨b, hb, hdata⟩ := ih (hI _ _ _ _ _ (by omega) h₀ hack) (by omega) x hx
      have hoff : cur + (x.range.1 - addr) = cur + dl + (x.range.1 - (addr + dl)) := by omega
      exact ⟨b, hoff ▸ hb, hdata⟩
  | @last addr cur dl b e r hlt hdl hreq _ =>
    obtain ⟨hrange, hbody⟩ := range_of_request hreq (by omega) (by omega)
    refine List.forall_mem_singleton.mpr ⟨b, ?_, ?_⟩
    · rw [hrange, Nat.sub_self]
      exact h₀
    · rw [hrange, hbody]

end Facts

/-! ## Reading -/

/-- The answer to a read: a payload of the length asked for. -/
def ReadAnswer (n : Nat) (e : Exchange) (m : Mem) : Prop :=
  e.response = .ok m ∧ Genuine e.packetId m ∧ dataLenOf (pktLenOf m) = n

/-- The rounds of the read loop. -/
def readRounds : Rounds (List Copy) where
  packetId := otpReadId
  reserved := reservedId
  body _ _ := []
  acked cur dl copies e copies' := ∃ m, ReadAnswer dl e m ∧ copies' = copies ++ [(cur, payload m dl)]

/-- What a copy fills. -/
def Copy.range (c : Copy) : Nat × Nat := (c.1, c.2.length)

theorem payload_length (m : Mem) (n : Nat) : (payload m n).length = n := by simp [payload]

section Read

variable {host : Host H} {offset len : BitVec 16}

theorem decodeLen_ok {n : Nat} {l : BitVec 16} {m : Mem} {data : List Byte} (h : decodeLen n l m = .ok data) :
    dataLenOf (pktLenOf m) = n ∧ data = payload m n := by
  unfold decodeLen at h
  split at h
  · cases h
  · next hne =>
    cases h
    exact ⟨Classical.byContradiction fun hn => hne (Or.inr hn), rfl⟩

theorem decodeLen_ne_hang {n : Nat} (l : BitVec 16) (m : Mem) : decodeLen n l m ≠ .error .hang := by
  unfold decodeLen
  split <;> simp

theorem adds_otpReadPriv {n : Nat} (hn : len.toNat < n) (h0 : 0 < len.toNat) (hfit : offset.toNat + len.toNat ≤ maxOtpSize) :
    Adds history (otpReadPriv host offset len n) (ChunkRun readRounds len.toNat offset.toNat 0 []) := by
  have hmax : maxOtpSize = 0x4000 := rfl
  refine Adds.failIf_bind (fun hbad => by omega) fun _ => ?_
  refine adds_chunkLoop (fun otpAddr curLen dataLen copies => ?_) n offset 0 [] (Nat.zero_le _) hn (by simp; omega)
  refine (adds_command_ending decodeLen_ne_hang fun data => copies ++ [(curLen.toNat, data)]).weaken ?_
  rintro r new ⟨e, rfl, hreq, hend⟩
  refine ⟨e, rfl, hreq, hend.imp ?_⟩
  rintro copies' ⟨data, ⟨m, l, hm, hg, hdec⟩, rfl⟩
  obtain ⟨hlen, rfl⟩ := decodeLen_ok hdec
  exact ⟨m, ⟨hm, hg, hlen⟩, rfl⟩

theorem readRounds_confirmed {cur dl : Nat} {copies copies' : List Copy} {e : Exchange}
    (h : readRounds.acked cur dl copies e copies') : e.Confirmed := by
  obtain ⟨m, ⟨hm, hg, -⟩, -⟩ := h
  exact ⟨m, hm, hg⟩

/-- What a run has copied: the copies fill the caller's buffer from the front, to its end when the loop came to its
end, and every answer was copied to its place. -/
structure Copied (len addr cur : Nat) (more : List Copy) (complete : Bool) (new : List Exchange) : Prop where
  tiles : ∃ hi ≤ len, (complete = true ↔ hi = len) ∧ Tiles cur hi (more.map Copy.range)
  stored : ∀ e ∈ new, ∀ m, ReadAnswer e.range.2 e m → (cur + (e.range.1 - addr), payload m e.range.2) ∈ more
  present : ∀ c ∈ more, ∃ e ∈ new, ∃ m, ReadAnswer c.2.length e m ∧ c.2 = payload m c.2.length

theorem ChunkRun.copied {len addr cur : Nat} {copies copies' : List Copy} {complete : Bool}
    {r : Except McuRc (List Copy × Bool)} {new : List Exchange} (h : ChunkRun readRounds len addr cur copies r new)
    (hr : r = .ok (copies', complete)) (ha : addr + (len - cur) < 2 ^ 16) :
    ∃ more, copies' = copies ++ more ∧ Copied len addr cur more complete new := by
  have hpos : 0 < otpChunkLen := by decide
  induction h with
  | done addr copies =>
    cases hr
    refine ⟨[], (List.append_nil _).symm, ⟨len, Nat.le_refl _, by simp, .nil len⟩, ?_, ?_⟩
    · exact fun e he => absurd he List.not_mem_nil
    · exact fun c hc => absurd hc List.not_mem_nil
  | @next addr cur dl copies copies'' e r new hlt hdl hreq hack hrun ih =>
    obtain ⟨m, hm, rfl⟩ := hack
    obtain ⟨more, rfl, ⟨hi, hhi, hcomplete, ht⟩, hstored, hpresent⟩ := ih hr (by omega)
    have hrange := (range_of_request hreq (by omega) (by omega)).1
    refine ⟨(cur, payload m dl) :: more, by simp, ⟨hi, hhi, hcomplete, ?_⟩, ?_, ?_⟩
    · rw [List.map_cons, Copy.range, payload_length]
      exact .cons (by omega) ht
    · refine List.forall_mem_cons.mpr ⟨fun m' hm' => ?_, fun x hx m' hm' => List.mem_cons_of_mem _ ?_⟩
      · have hsame : m' = m := Except.ok.inj (hm'.1.symm.trans hm.1)
        rw [hrange, Nat.sub_self, hsame]
        exact List.mem_cons_self
      · obtain ⟨_, -, htx⟩ := hrun.tiles (by omega)
        have hle := (htx.bounds (List.mem_map_of_mem hx)).1
        have hoff : cur + (x.range.1 - addr) = cur + dl + (x.range.1 - (addr + dl)) := by omega
        exact hoff ▸ hstored x hx m' hm'
    · refine List.forall_mem_cons.mpr ⟨⟨e, List.mem_cons_self, m, ?_⟩, fun c hc => ?_⟩
      · simp only [payload_length]
        exact ⟨hm, trivial⟩
      · obtain ⟨x, hx, hrest⟩ := hpresent c hc
        exact ⟨x, List.mem_cons_of_mem _ hx, hrest⟩
  | @last addr cur dl copies e r hlt hdl hreq hend =>
    cases hend with
    | answered hfalse => exact hfalse.elim
    | unheeded hbad =>
      cases hr
      refine ⟨[], (List.append_nil _).symm, ⟨cur, by omega, by simp; omega, .nil cur⟩, ?_, ?_⟩
      · refine List.forall_mem_singleton.mpr fun m hm => absurd ?_ hbad.not_tolerated
        exact Exchange.tolerated_of_not_bogus (Exchange.Confirmed.not_bogus ⟨m, hm.1, hm.2.1⟩)
      · exact fun c hc => absurd hc List.not_mem_nil
    | failed hrc htol => cases hr
    | hung hh => cases hr

end Read

/-! ## Writing -/

/-- The rounds of the write loop. -/
def writeRounds (mode : Byte) (pu8Data : Mem) : Rounds (BitVec 16) where
  packetId := otpWriteId
  reserved := mode
  body dl idx := slice pu8Data idx.toNat dl
  acked _ dl idx e idx' := e.Succeeded ∧ idx'.toNat = (idx.toNat + dl) % 2 ^ 16

section Write

variable {host : Host H} {offset len : BitVec 16} {mode : Byte} {pu8Data : Mem}

theorem decodeByte_ok {l : BitVec 16} {m : Mem} {v : Byte} (h : decodeByte l m = .ok v) : dataLenOf (pktLenOf m) = 1 := by
  unfold decodeByte at h
  split at h
  · cases h
  · next hlen => exact Decidable.not_not.mp hlen

theorem decodeByte_ne_hang (l : BitVec 16) (m : Mem) : decodeByte l m ≠ .error .hang := by
  unfold decodeByte
  split <;> simp

theorem adds_otpWritePriv {n : Nat} (hn : len.toNat < n) (h0 : 0 < len.toNat)
    (hfit : offset.toNat + len.toNat ≤ maxOtpSize) :
    Adds history (otpWritePriv host pu8Data offset len mode n) fun r new =>
      ∃ r', ChunkRun (writeRounds mode pu8Data) len.toNat offset.toNat 0 0 r' new ∧ r = r'.map Prod.snd := by
  have hmax : maxOtpSize = 0x4000 := rfl
  refine Adds.failIf_bind (fun hbad => by omega) fun _ => ?_
  have hloop : Adds history (chunkLoop len (otpWriteChunk host mode pu8Data) n offset 0 0)
      (ChunkRun (writeRounds mode pu8Data) len.toNat offset.toNat 0 0) := by
    refine adds_chunkLoop (fun otpAddr curLen dataLen idx => ?_) n offset 0 0 (Nat.zero_le _) hn (by simp; omega)
    refine (adds_command_ending decodeByte_ne_hang fun _ => idx + dataLen).weaken ?_
    rintro r new ⟨e, rfl, hreq, hend⟩
    refine ⟨e, rfl, hreq, hend.imp ?_⟩
    rintro idx' ⟨v, ⟨m, l, hm, hg, hdec⟩, rfl⟩
    exact ⟨⟨m, hm, hg, decodeByte_ok hdec⟩, BitVec.toNat_add _ _⟩
  exact hloop.map Prod.snd

theorem writeRounds_confirmed {cur dl : Nat} {idx idx' : BitVec 16} {e : Exchange}
    (h : (writeRounds mode pu8Data).acked cur dl idx e idx') : e.Confirmed := by
  obtain ⟨⟨m, hm, hg, -⟩, -⟩ := h
  exact ⟨m, hm, hg⟩

/-- The index into the data is the length done. -/
theorem writeRounds_body {r : Except McuRc (BitVec 16 × Bool)} {new : List Exchange} {addr len : Nat}
    (h : ChunkRun (writeRounds mode pu8Data) len addr 0 0 r new) (ha : addr + len < 2 ^ 16) :
    ∀ e ∈ new, e.cmdData.drop 4 = slice pu8Data (e.range.1 - addr) e.range.2 := by
  intro e he
  obtain ⟨idx, hidx, hbody⟩ := h.body (I := fun cur idx => idx.toNat = cur)
    (fun cur dl b e b' hle hI hack => by rw [hack.2, hI]; omega) rfl ha e he
  rw [hbody, Nat.zero_add] at *
  exact congrArg (fun i => slice pu8Data i e.range.2) hidx

end Write

/-! ## Chunks -/

/-- The two calls on the OTP. -/
inductive OtpOp
  | read
  | write (pu8Data : Mem) (mode : Byte)

namespace OtpOp

/-- The call, and what it has copied to the caller. -/
def call (host : Host H) (op : OtpOp) (offset len : BitVec 16) (n : Nat) : Call H (List Copy) :=
  match op with
  | read => otpReadPriv host offset len n >>= fun done => pure done.1
  | write pu8Data mode => otpWritePriv host pu8Data offset len mode n >>= fun _ => pure []

/-- The MCU has acknowledged the chunk. -/
def Acked (op : OtpOp) (e : Exchange) : Prop :=
  match op with
  | read => ∃ m, ReadAnswer e.range.2 e m
  | write _ _ => e.Succeeded

/-- The slice of the caller's buffer that a request carries. -/
def carried (op : OtpOp) (offset : Nat) (e : Exchange) : List Byte :=
  match op with
  | read => []
  | write pu8Data _ => slice pu8Data (e.range.1 - offset) e.range.2

/-- The slice of the caller's buffer that an answer fills. -/
def Stored (op : OtpOp) (offset : Nat) (copies : List Copy) (e : Exchange) : Prop :=
  match op with
  | read => ∀ m, ReadAnswer e.range.2 e m → (e.range.1 - offset, payload m e.range.2) ∈ copies
  | write _ _ => copies = []

end OtpOp

/-- The requests of a call cover its range from the front, each with its slice of the caller's buffer. A call that returns
the code of success has covered all of it, and one that does not return is stuck in the mailbox, not in its loop. -/
structure OtpChunked (op : OtpOp) (offset len : Nat) (r : Except McuRc (List Copy)) (new : List Exchange) : Prop where
  consecutive : ∃ hi ≤ offset + len, Tiles offset hi (new.map Exchange.range)
  small : ∀ e ∈ new, e.range.2 ≤ otpChunkLen
  carried : ∀ e ∈ new, e.cmdData.drop 4 = op.carried offset e
  stored : ∀ copies, r = .ok copies → ∀ e ∈ new, op.Stored offset copies e
  partition : ∀ copies, r = .ok copies → ∀ x, offset ≤ x → x < offset + len →
    ∃! q, q ∈ new.map Exchange.range ∧ q.1 ≤ x ∧ x < q.1 + q.2
  acknowledged : ∀ copies, r = .ok copies → ∀ e ∈ new, op.Acked e
  returns : r = .error .hang → ∃ e ∈ new, e.response = .error .hang

section Chunked

variable {R : Rounds β} {op : OtpOp} {offset len : Nat} {b : β} {r : Except McuRc (β × Bool)} {new : List Exchange}

theorem OtpOp.Acked.confirmed {e : Exchange} (h : op.Acked e) : e.Confirmed := by
  cases op with
  | read =>
    obtain ⟨m, hm, hg, -⟩ := h
    exact ⟨m, hm, hg⟩
  | write pu8Data mode =>
    obtain ⟨m, hm, hg, -⟩ := h
    exact ⟨m, hm, hg⟩

/-- The run of a loop is chunked unless a response is not tolerated. -/
theorem ChunkRun.chunked_iff {f : β × Bool → List Copy} (h : ChunkRun R len offset 0 b r new) (ha : offset + len < 2 ^ 16)
    (hR : ∀ cur dl b e b', R.acked cur dl b e b' → e.Confirmed)
    (hacked : ∀ cur b e b', R.acked cur e.range.2 b e b' → op.Acked e)
    (hcarried : ∀ e ∈ new, e.cmdData.drop 4 = op.carried offset e)
    (hstored : ∀ done, r = .ok done → ∀ e ∈ new, op.Stored offset (f done) e) :
    OtpChunked op offset len (r.map f) new ↔ ∀ e ∈ new, e.Tolerated := by
  have hconsecutive := h.tiles ha
  have hsmall := h.small ha
  rcases h.cases hR with ⟨hall, hend⟩ | ⟨⟨x, hx, hslip⟩, b', rfl⟩ | ⟨⟨x, hx, hstuck⟩, hnone, rfl⟩
  · refine iff_of_true ⟨hconsecutive, hsmall, hcarried, ?_, ?_, ?_, ?_⟩ hall
    all_goals rcases hend with ⟨b', rfl⟩ | ⟨rc, rfl, hhang⟩
    · intro copies hcopies
      cases hcopies
      exact hstored _ rfl
    · exact fun copies hcopies => by cases hcopies
    · intro copies _ y hlo hhi
      have hwhole := (h.complete rfl ha).1
      exact hwhole.existsUnique hlo hhi
    · exact fun copies hcopies => by cases hcopies
    · intro copies _ e he
      obtain ⟨cur, b₁, b₂, hack⟩ := (h.complete rfl ha).2 e he
      exact hacked cur b₁ e b₂ hack
    · exact fun copies hcopies => by cases hcopies
    · exact fun hcontra => by cases hcontra
    · intro hcontra
      exact hhang (Except.error.inj hcontra)
  · refine iff_of_false (fun hc => ?_) fun hall => hslip.not_tolerated (hall x hx)
    have hack := hc.acknowledged _ rfl x hx
    exact hslip.not_tolerated (Exchange.tolerated_of_not_bogus hack.confirmed.not_bogus)
  · refine iff_of_false (fun hc => ?_) fun hall => hstuck.not_tolerated (hall x hx)
    obtain ⟨y, hy, hhang⟩ := hc.returns rfl
    exact (hnone y hy).2 hhang

end Chunked

/-- **The OTP is read and written chunk by chunk**, as long as every response passes the check of a packet and one to
another command can be dumped. -/
theorem otp_chunks_iff (host : Host H) (op : OtpOp) (offset len : BitVec 16) (n : Nat) (s : Dev McuConf H)
    (h0 : 0 < len.toNat) (hfit : offset.toNat + len.toNat ≤ maxOtpSize) (hn : len.toNat < n) :
    OtpChunked op offset.toNat len.toNat (outcome (op.call host offset len n) s)
        (added history s (final (op.call host offset len n) s)) ↔
      ∀ e ∈ added history s (final (op.call host offset len n) s), e.Tolerated := by
  have hmax : maxOtpSize = 0x4000 := rfl
  cases op with
  | read =>
    have hadds : Adds history (OtpOp.read.call host offset len n) fun r new =>
        ∃ r', ChunkRun readRounds len.toNat offset.toNat 0 [] r' new ∧ r = r'.map Prod.fst :=
      (adds_otpReadPriv hn h0 hfit).map Prod.fst
    obtain ⟨r', hrun, hr⟩ := hadds.added s
    rw [hr]
    refine hrun.chunked_iff (by omega) (fun _ _ _ _ _ h => readRounds_confirmed h) (fun cur b e b' h => ?_) ?_ ?_
    · obtain ⟨m, hm, -⟩ := h
      exact ⟨m, hm⟩
    · intro e he
      obtain ⟨b, -, hbody⟩ := hrun.body (I := fun _ _ => True) (fun _ _ _ _ _ _ _ _ => trivial) trivial (by omega) e he
      exact hbody
    · rintro ⟨copies, complete⟩ hdone e he m hm
      obtain ⟨more, rfl, hcopied⟩ := hrun.copied hdone (by omega)
      have hmem := hcopied.stored e he m hm
      rwa [Nat.zero_add] at hmem
  | write pu8Data mode =>
    have hadds : Adds history ((OtpOp.write pu8Data mode).call host offset len n) fun r new =>
        ∃ r', ChunkRun (writeRounds mode pu8Data) len.toNat offset.toNat 0 0 r' new ∧ r = r'.map fun _ => [] := by
      refine ((adds_otpWritePriv hn h0 hfit).map fun _ => []).weaken ?_
      rintro r new ⟨_, ⟨r', hrun, rfl⟩, rfl⟩
      refine ⟨r', hrun, ?_⟩
      cases r' <;> rfl
    obtain ⟨r', hrun, hr⟩ := hadds.added s
    rw [hr]
    refine hrun.chunked_iff (by omega) (fun _ _ _ _ _ h => writeRounds_confirmed h) (fun cur b e b' h => h.1)
      (writeRounds_body hrun (by omega)) fun _ _ _ _ => rfl

/-- A board whose MCU answers every request with the acknowledgement of a write, but with a wrong CRC. -/
def corruptBoard : Host Unit where
  bus :=
    { rd := fun r h => (.ok (if r = flagReg then 2 else if r = respReg 0 then 0x00060089 else 0), h)
      wr := fun _ _ h => (.ok (), h)
      drift := fun h h' => h' = h }
  gpioRead := some fun _ => 1
  msleep := id
  patience := 1

theorem otpWritePriv_eq_one : otpWritePriv corruptBoard (fun _ => 0) 0 1 otpWriteBuff 2 =
    otpWrite corruptBoard (slice (fun _ => 0) 0 1) 0 otpWriteBuff :=
  otpWritePriv_eq _ 0 1 otpWriteBuff (by decide)

theorem otpReadPriv_eq_one : (otpReadPriv corruptBoard 0 1 2 >>= fun done => pure (done.1.flatMap Prod.snd, done.2)) =
    otpRead corruptBoard 0 1 :=
  otpReadPriv_eq 0 1 (by decide)

theorem otp_chunks_iff_one : (0 < (1 : BitVec 16).toNat ∧ (0 : BitVec 16).toNat + (1 : BitVec 16).toNat ≤ maxOtpSize) ∧
    (OtpChunked .read 0 1 (outcome (OtpOp.read.call corruptBoard 0 1 2) ⟨{}, ()⟩)
        (added history ⟨{}, ()⟩ (final (OtpOp.read.call corruptBoard 0 1 2) ⟨{}, ()⟩)) ↔
      ∀ e ∈ added history ⟨{}, ()⟩ (final (OtpOp.read.call corruptBoard 0 1 2) ⟨{}, ()⟩), e.Tolerated) :=
  ⟨by decide, otp_chunks_iff corruptBoard .read 0 1 2 ⟨{}, ()⟩ (by decide) (by decide) (by decide)⟩

/-- A write of one byte on that board: whether it returns the code of success, and the verdicts on its exchanges. -/
def corruptWrite : Bool × List Bool :=
  match OtpOp.call corruptBoard (.write (fun _ => 0) otpWriteBuff) 0 1 2 ⟨{}, ()⟩ with
  | .ok _ s => (true, s.conf.exchanges.map fun e => e.verdict matches .ok true)
  | .error _ _ => (false, [])

/-- It returns the code of success, and nothing was acknowledged. -/
theorem not_otp_chunks : ¬∀ (host : Host Unit) (op : OtpOp) (offset len : BitVec 16) (n : Nat) (s : Dev McuConf Unit),
    0 < len.toNat → offset.toNat + len.toNat ≤ maxOtpSize → len.toNat < n →
      OtpChunked op offset.toNat len.toNat (outcome (op.call host offset len n) s)
        (added history s (final (op.call host offset len n) s)) := by
  intro h
  have hchunked := h corruptBoard (.write (fun _ => 0) otpWriteBuff) 0 1 2 ⟨{}, ()⟩ (by decide) (by decide) (by decide)
  have hrun : corruptWrite = (true, [false]) := by decide +kernel
  unfold corruptWrite at hrun
  split at hrun
  · next copies s hs =>
    have hadded : added history (⟨{}, ()⟩ : Dev McuConf Unit) s = s.conf.exchanges := rfl
    have hacked := hchunked.acknowledged copies (outcome_ok hs)
    rw [final, hs, hadded] at hacked
    cases hl : s.conf.exchanges with
    | nil =>
      rw [hl] at hrun
      cases hrun
    | cons e l =>
      rw [hl] at hrun hacked
      have hv := (verdict_iff e).mpr (hacked e List.mem_cons_self)
      simp [hv] at hrun
  · cases hrun

end Lan80xx.Mailbox
