import Lan80xx.Lib.ByteMem
import Mathlib.Tactic.ByContra

/-!
# Mailbox: packets

A packet is a header of four bytes (id, reserved, length with the low byte first), the parameters, and two bytes of CRC.
`validatePacket` reads a received packet through a reader that may have no byte at an offset: `some` of the memory for
the function as the driver runs it, the 1024 bytes of the buffer for what it may read.
-/

namespace Lan80xx.Mailbox

open ByteMem

/-! ## Sizes and codes -/

/-- `MB_MAX_PKT_HEADER_LEN`, `MB_PKT_DATA_OFFSET`. -/
def maxPktHeaderLen : Nat := 4

/-- `MB_MAX_CRC_LEN`. -/
def maxCrcLen : Nat := 2

/-- `MB_MAX_PAYLOAD_LEN`. -/
def maxPayloadLen : Nat := 1018

/-- `MB_MAX_PKT_LEN`, and the size of `gau8RespBuffer`. -/
def maxPktLen : Nat := maxPayloadLen + maxPktHeaderLen + maxCrcLen

/-- A return code that is not `MEPA_RC_OK`: the mailbox codes, the code of a failed register access, or `hang` for a call
that does not return. -/
inductive McuRc
  | error
  | parm
  | invalidCrc
  | respTimeout
  | invalidPktLen
  | fwUpdateFail
  | failResponse
  | cmdProtoNoSync
  | allKeyCompromised
  | allKeyProgrammed
  | access (rc : Int)
  | hang
  deriving DecidableEq, Repr

/-! ## The CRC -/

/-- One bit of `crc_16`. -/
def crcBit (crc : BitVec 16) : BitVec 16 := if crc &&& 0x8000 ≠ 0 then crc <<< 1 ^^^ 0x1021 else crc <<< 1

/-- One byte of `crc_16`. -/
def crcByte (crc : BitVec 16) (b : Byte) : BitVec 16 := Nat.repeat crcBit 8 (crc ^^^ (b.setWidth 16 <<< 8))

/-- `crc_16`. -/
def crc16 (input : List Byte) : BitVec 16 := input.foldl crcByte 0xFFFF

example : crc16 [0x31, 0x32, 0x33, 0x34, 0x35, 0x36, 0x37, 0x38, 0x39] = 0x29B1 := by decide +kernel

/-! ## Making a packet -/

/-- `lan80xx_CreatePacket`: the buffer with the packet in it, and the length of the packet. -/
def createPacket (packetId : Byte) (cmdData : List Byte) (reserved : Byte) (buf : Mem) : Mem × BitVec 16 :=
  let len := BitVec.ofNat 16 (cmdData.length + maxPktHeaderLen + maxCrcLen)
  let buf := storeBytes buf 0 [packetId, reserved, byteOf len 0, byteOf len 1]
  let buf := storeBytes buf maxPktHeaderLen cmdData
  let crc := crc16 (bytes buf (cmdData.length + maxPktHeaderLen))
  (storeBytes buf (maxPktHeaderLen + cmdData.length) [byteOf crc 0, byteOf crc 1], len)

/-! ## Checking a packet -/

/-- `packet_dump`: its index is a byte, so that it never gets past a length above 252. -/
def packetDump (pktLen : BitVec 16) : Except McuRc Unit :=
  if 252 < min pktLen.toNat maxPayloadLen then .error .hang else .ok ()

/-- `ValidateCRC` -/
def validateCrc (rd : Nat → Option Byte) (len : BitVec 16) : Option (Except McuRc Unit) := do
  let input ← readBytes rd len.toNat
  let lo ← rd len.toNat
  let hi ← rd (len.toNat + 1)
  return if crc16 input = half lo hi then .ok () else .error .invalidCrc

/-- `lan80xx_ValidatePacket` -/
def validatePacket (rd : Nat → Option Byte) : Option (Except McuRc Unit) := do
  let pktLen := half (← rd 2) (← rd 3)
  if maxPktLen < pktLen.toNat then return .error .invalidPktLen
  else
    match ← validateCrc rd (pktLen - BitVec.ofNat 16 maxCrcLen) with
    | .ok () => return .ok ()
    | .error e => return packetDump pktLen >>= fun _ => .error e

/-- The 1024 bytes of the buffer. -/
def inBuffer (m : Mem) (i : Nat) : Option Byte := if i < maxPktLen then some (m i) else none

theorem maxPktLen_eq : maxPktLen = 1024 := rfl

theorem inBuffer_lt {m : Mem} {i : Nat} (h : i < 1024) : inBuffer m i = some (m i) := if_pos h

/-- `pPktHdr->u16PktLen` of the packet in the buffer. -/
def pktLenOf (m : Mem) : BitVec 16 := half (m 2) (m 3)

/-- The two bytes before offset `n` are the CRC of those before them. -/
def CrcAt (m : Mem) (n : Nat) : Prop := crc16 (bytes m (n - 2)) = half (m (n - 2)) (m (n - 1))

instance (m : Mem) (n : Nat) : Decidable (CrcAt m n) := inferInstanceAs (Decidable (_ = _))

section Validate

variable {rd : Nat → Option Byte} {m : Mem} {len : BitVec 16}

theorem validateCrc_eq (h : ∀ i < len.toNat + 2, rd i = some (m i)) : validateCrc rd len =
    some (if crc16 (bytes m len.toNat) = half (m len.toNat) (m (len.toNat + 1)) then .ok () else .error .invalidCrc) := by
  have hin : readBytes rd len.toNat = some (bytes m len.toNat) := readBytes_some fun i hi => h i (by omega)
  simp [validateCrc, hin, h len.toNat (by omega), h (len.toNat + 1) (by omega)]

theorem validateCrc_none {i : Nat} (hi : i < len.toNat) (h : rd i = none) : validateCrc rd len = none := by
  simp [validateCrc, readBytes_none h hi]

/-- The length of the checked part, when the subtraction does not wrap. -/
theorem sub_maxCrcLen (h : 2 ≤ len.toNat) : (len - BitVec.ofNat 16 maxCrcLen).toNat = len.toNat - 2 := by
  rw [BitVec.toNat_sub_of_le]
  · rfl
  · exact BitVec.le_def.mpr h

theorem header_eq (h : ∀ i < 4, rd i = some (m i)) : validatePacket rd =
    if maxPktLen < (pktLenOf m).toNat then some (.error .invalidPktLen)
    else (validateCrc rd (pktLenOf m - BitVec.ofNat 16 maxCrcLen)).bind fun r => some <| match r with
      | .ok () => .ok ()
      | .error e => packetDump (pktLenOf m) >>= fun _ => .error e := by
  simp only [validatePacket, h 2 (by decide), h 3 (by decide), Option.bind_eq_bind, Option.bind_some, ← pktLenOf.eq_1]
  split
  · rfl
  · cases validateCrc rd (pktLenOf m - BitVec.ofNat 16 maxCrcLen) with
    | none => rfl
    | some r => cases r <;> rfl

/-- The length is checked against the maximum first, and then the CRC. -/
theorem validatePacket_eq (h2 : 2 ≤ (pktLenOf m).toNat) (h : ∀ i < max 4 (min (pktLenOf m).toNat maxPktLen), rd i = some (m i)) :
    validatePacket rd = some (if maxPktLen < (pktLenOf m).toNat then .error .invalidPktLen
      else if CrcAt m (pktLenOf m).toNat then .ok () else packetDump (pktLenOf m) >>= fun _ => .error .invalidCrc) := by
  rw [header_eq fun i hi => h i (by omega)]
  split
  · rfl
  · have hlen := sub_maxCrcLen h2
    rw [validateCrc_eq fun i hi => h i (by omega), hlen]
    have hlast : (pktLenOf m).toNat - 2 + 1 = (pktLenOf m).toNat - 1 := by omega
    rw [hlast]
    by_cases hcrc : CrcAt m (pktLenOf m).toNat
    · have hc : crc16 (bytes m ((pktLenOf m).toNat - 2)) =
          half (m ((pktLenOf m).toNat - 2)) (m ((pktLenOf m).toNat - 1)) := hcrc
      simp [hcrc, hc]
    · have hc : ¬crc16 (bytes m ((pktLenOf m).toNat - 2)) =
          half (m ((pktLenOf m).toNat - 2)) (m ((pktLenOf m).toNat - 1)) := hcrc
      simp [hcrc, hc]

theorem packetDump_ne_ok {pktLen : BitVec 16} {e : McuRc} : (packetDump pktLen >>= fun _ => .error e) ≠ .ok () := by
  unfold packetDump
  split <;> simp [bind, Except.bind]

/-- A packet is accepted exactly when its length is at most 1024 and its CRC matches. -/
theorem accepted_iff (h2 : 2 ≤ (pktLenOf m).toNat) (h : ∀ i < max 4 (min (pktLenOf m).toNat maxPktLen), rd i = some (m i)) :
    validatePacket rd = some (.ok ()) ↔ (pktLenOf m).toNat ≤ maxPktLen ∧ CrcAt m (pktLenOf m).toNat := by
  rw [validatePacket_eq h2 h]
  split
  · next hlen => simp [show ¬(pktLenOf m).toNat ≤ maxPktLen by omega]
  · next hlen =>
    by_cases hcrc : CrcAt m (pktLenOf m).toNat
    · simp [hcrc, show (pktLenOf m).toNat ≤ maxPktLen by omega]
    · rw [if_neg hcrc, Option.some.injEq]
      exact iff_of_false packetDump_ne_ok fun hc => hcrc hc.2

/-- The length of the checked part wraps when the packet is shorter than its CRC. -/
theorem validatePacket_inBuffer_none (h2 : (pktLenOf m).toNat < 2) : validatePacket (inBuffer m) = none := by
  rw [header_eq (m := m) fun i hi => inBuffer_lt (by omega), if_neg (by rw [maxPktLen_eq]; omega)]
  have hwrap : 1024 < (pktLenOf m - BitVec.ofNat 16 maxCrcLen).toNat := by
    rw [BitVec.toNat_sub]
    simp only [maxCrcLen, BitVec.toNat_ofNat]
    omega
  rw [validateCrc_none hwrap (if_neg (by decide))]
  rfl

end Validate

/-! ## What an accepted packet is -/

/-- The buffer is accepted only with a length between 6 and 1024 and a matching CRC, and nothing outside it is read. -/
structure SoundCheck (m : Mem) : Prop where
  accepts : validatePacket (inBuffer m) = some (.ok ()) → 6 ≤ (pktLenOf m).toNat ∧ (pktLenOf m).toNat ≤ maxPktLen ∧
    CrcAt m (pktLenOf m).toNat
  inside : validatePacket (inBuffer m) ≠ none

/-- The check is sound except for lengths below 6: below 2 it reads outside the buffer, and from 2 to 5 it accepts a
header that holds its own CRC. -/
theorem soundCheck_iff (m : Mem) : SoundCheck m ↔
    2 ≤ (pktLenOf m).toNat ∧ ((pktLenOf m).toNat < 6 → ¬CrcAt m (pktLenOf m).toNat) := by
  have hread : ∀ i < max 4 (min (pktLenOf m).toNat maxPktLen), inBuffer m i = some (m i) := fun i hi =>
    inBuffer_lt (by rw [maxPktLen_eq] at hi; omega)
  constructor
  · intro hs
    have h2 : 2 ≤ (pktLenOf m).toNat := by
      by_contra h2
      exact hs.inside (validatePacket_inBuffer_none (by omega))
    refine ⟨h2, fun h6 hcrc => ?_⟩
    have hok : validatePacket (inBuffer m) = some (.ok ()) := by
      rw [validatePacket_eq h2 hread, if_neg (by rw [maxPktLen_eq]; omega), if_pos hcrc]
    have := (hs.accepts hok).1
    omega
  · rintro ⟨h2, h6⟩
    refine ⟨fun hok => ?_, by rw [validatePacket_eq h2 hread]; exact Option.some_ne_none _⟩
    obtain ⟨hle, hcrc⟩ := (accepted_iff h2 hread).mp hok
    refine ⟨?_, hle, hcrc⟩
    by_contra hlt
    exact h6 (by omega) hcrc

/-! ## A packet that was made -/

/-- The packet of an id, a reserved byte and parameters lies in memory. -/
structure IsPacket (m : Mem) (packetId : Byte) (cmdData : List Byte) (reserved : Byte) : Prop where
  id : m 0 = packetId
  reserved : m 1 = reserved
  len : (pktLenOf m).toNat = cmdData.length + 6
  data : ∀ k < cmdData.length, m (maxPktHeaderLen + k) = cmdData.getD k 0
  crc : CrcAt m (cmdData.length + 6)

section Made

variable {m m' buf : Mem} {packetId reserved : Byte} {cmdData : List Byte}

theorem CrcAt.congr {n : Nat} (h2 : 2 ≤ n) (h : ∀ i < n, m' i = m i) (hc : CrcAt m n) : CrcAt m' n := by
  unfold CrcAt at hc ⊢
  rw [bytes_congr fun i hi => h i (by omega), h (n - 2) (by omega), h (n - 1) (by omega), hc]

theorem IsPacket.congr (hp : IsPacket m packetId cmdData reserved) (h : ∀ i < cmdData.length + 6, m' i = m i) :
    IsPacket m' packetId cmdData reserved where
  id := by rw [h 0 (by omega), hp.id]
  reserved := by rw [h 1 (by omega), hp.reserved]
  len := by rw [pktLenOf, h 2 (by omega), h 3 (by omega), ← hp.len, pktLenOf]
  data k hk := by rw [h _ (by unfold maxPktHeaderLen; omega), hp.data k hk]
  crc := hp.crc.congr (by omega) h

theorem isPacket_createPacket (packetId reserved : Byte) (buf : Mem) (hn : cmdData.length ≤ maxPayloadLen) :
    IsPacket (createPacket packetId cmdData reserved buf).1 packetId cmdData reserved ∧
      (createPacket packetId cmdData reserved buf).2.toNat = cmdData.length + 6 := by
  have hlen : (BitVec.ofNat 16 (cmdData.length + maxPktHeaderLen + maxCrcLen)).toNat = cmdData.length + 6 := by
    rw [BitVec.toNat_ofNat]
    unfold maxPktHeaderLen maxCrcLen
    unfold maxPayloadLen at hn
    omega
  refine ⟨?_, hlen⟩
  generalize hm : (createPacket packetId cmdData reserved buf).1 = m
  -- the buffer after the header and after the parameters
  generalize hb₁ : storeBytes buf 0 [packetId, reserved,
    byteOf (BitVec.ofNat 16 (cmdData.length + maxPktHeaderLen + maxCrcLen)) 0,
    byteOf (BitVec.ofNat 16 (cmdData.length + maxPktHeaderLen + maxCrcLen)) 1] = b₁
  generalize hb₂ : storeBytes b₁ maxPktHeaderLen cmdData = b₂
  have hcreate : m = storeBytes b₂ (maxPktHeaderLen + cmdData.length)
      [byteOf (crc16 (bytes b₂ (cmdData.length + maxPktHeaderLen))) 0,
        byteOf (crc16 (bytes b₂ (cmdData.length + maxPktHeaderLen))) 1] := by
    rw [← hm, ← hb₂, ← hb₁]
    rfl
  have hbefore : ∀ k < cmdData.length + 4, m k = b₂ k := fun k hk => by
    rw [hcreate, storeBytes_of_lt (by unfold maxPktHeaderLen; omega)]
  have hheader : ∀ k < 4, m k = b₁ k := fun k hk => by
    rw [hbefore k (by omega), ← hb₂, storeBytes_of_lt (show k < maxPktHeaderLen from hk)]
  have hcrc : half (m (cmdData.length + 4)) (m (cmdData.length + 4 + 1)) =
      crc16 (bytes b₂ (cmdData.length + maxPktHeaderLen)) := by
    rw [hcreate, show cmdData.length + 4 = maxPktHeaderLen + cmdData.length + 0 by unfold maxPktHeaderLen; omega,
      storeBytes_at Nat.zero_lt_two, Nat.add_assoc, storeBytes_at Nat.one_lt_two]
    exact half_byteOf _
  refine ⟨?_, ?_, ?_, fun k hk => ?_, ?_⟩
  · rw [hheader 0 (by decide), ← hb₁]
    rfl
  · rw [hheader 1 (by decide), ← hb₁]
    rfl
  · rw [pktLenOf, hheader 2 (by decide), hheader 3 (by decide), ← hlen, ← hb₁]
    exact congrArg BitVec.toNat (half_byteOf _)
  · rw [hbefore _ (by unfold maxPktHeaderLen; omega), ← hb₂, storeBytes_at hk]
  · rw [CrcAt, show cmdData.length + 6 - 2 = cmdData.length + 4 by omega,
      show cmdData.length + 6 - 1 = cmdData.length + 4 + 1 by omega, hcrc]
    exact congrArg crc16 (bytes_congr hbefore)

end Made

end Lan80xx.Mailbox
