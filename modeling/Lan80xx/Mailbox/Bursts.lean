import Lan80xx.Mailbox.Packet
import Lan80xx.Lib.ShiftRegister

/-!
# Mailbox: errors in a packet

`crc_16` is the shift register of CRC-CCITT with the message bits of every byte taken in from the top one down, so that
an error that hits a packet in at most 16 consecutive bits changes its CRC. `lan80xx_ValidatePacket` then never accepts
the packet; but it dumps it before it returns, and the dump of more than 252 bytes does not end.

- `crc16_eq_run`: the CRC as a run of the shift register;
- `crc16_altered`: a burst changes the CRC;
- `bursts_rejected`: the altered packet is rejected exactly when its parameters are at most 246 bytes.
-/

namespace Lan80xx.Mailbox

open ByteMem ShiftRegister

/-! ## The CRC as a shift register -/

/-- `CRC_POLY_CCITT`. -/
def crcPoly : BitVec 16 := 0x1021

/-- The bits of a byte as the CRC takes them in. -/
def bitsOf (b : Byte) : List Bool := (List.range 8).map b.getMsbD

/-- The bits of the first `n` bytes. -/
def bits (m : Mem) (n : Nat) : List Bool := (List.range (8 * n)).map fun k => (m (k / 8)).getMsbD (k % 8)

section Crc

variable {m e : Mem} {n : Nat}

theorem crcBit_eq_shift (crc : BitVec 16) : crcBit crc = shift crcPoly crc := by
  have hmsb : crc &&& 0x8000 = if crc.getLsbD 15 then BitVec.twoPow 16 15 else 0#16 := BitVec.and_twoPow crc 15
  have hlast : crc.msb = crc.getLsbD 15 := BitVec.msb_eq_getLsbD_last crc
  rw [crcBit, shift, hmsb, hlast]
  cases crc.getLsbD 15
  · rfl
  · rfl

theorem repeat_crcBit (crc : BitVec 16) : ∀ k, Nat.repeat crcBit k crc = (shift crcPoly)^[k] crc
  | 0 => rfl
  | k + 1 => by
    rw [Function.iterate_succ_apply', ← repeat_crcBit crc k, ← crcBit_eq_shift]
    rfl

theorem place_bitsOf (b : Byte) : (place (bitsOf b) : BitVec 16) = b.setWidth 16 <<< 8 := by
  refine BitVec.eq_of_getMsbD_eq fun i hi => ?_
  rw [getMsbD_place hi, BitVec.getMsbD_shiftLeft, BitVec.getMsbD_setWidth]
  by_cases h8 : i < 8
  · simp [bitsOf, h8]
  · simp [bitsOf, h8, BitVec.getMsbD_of_ge b i (by omega)]

theorem crcByte_eq_run (crc : BitVec 16) (b : Byte) : crcByte crc b = run crcPoly crc (bitsOf b) := by
  have hlen : (bitsOf b).length = 8 := by simp [bitsOf]
  rw [run_eq_iterate (by omega), hlen, place_bitsOf, crcByte, repeat_crcBit]

theorem bits_succ (m : Mem) (n : Nat) : bits m (n + 1) = bits m n ++ bitsOf (m n) := by
  rw [bits, Nat.mul_succ, List.range_add, List.map_append, List.map_map, bits, bitsOf]
  congr 1
  refine List.map_congr_left fun k hk => ?_
  have hk8 := List.mem_range.mp hk
  change (m ((8 * n + k) / 8)).getMsbD ((8 * n + k) % 8) = _
  rw [show (8 * n + k) / 8 = n by omega, show (8 * n + k) % 8 = k by omega]

/-- The CRC of memory is a run of the shift register. -/
theorem crc16_eq_run (m : Mem) : ∀ n, crc16 (bytes m n) = run crcPoly 0xFFFF (bits m n)
  | 0 => rfl
  | n + 1 => by
    have hsucc : bytes m (n + 1) = bytes m n ++ [m n] := by simp [bytes, List.range_succ]
    rw [bits_succ, run_append, ← crc16_eq_run m n, ← crcByte_eq_run, crc16, hsucc, List.foldl_append]
    rfl

/-! ## Errors -/

/-- Memory with errors in it: a one in `e` for every bit that is wrong. -/
def altered (m e : Mem) : Mem := fun i => m i ^^^ e i

/-- The errors of a burst that hits a packet with `n` bytes of parameters: at most 16 consecutive bits, in the id, the
reserved byte or the parameters. -/
structure Burst (n : Nat) (e : Mem) : Prop where
  hits : ∃ i, e i ≠ 0
  confined : ∃ p, ∀ i, ∀ k < 8, (e i).getMsbD k = true → p ≤ 8 * i + k ∧ 8 * i + k < p + 16
  len : e 2 = 0 ∧ e 3 = 0
  inside : ∀ i, n + maxPktHeaderLen ≤ i → e i = 0

theorem bits_altered : bits (altered m e) n = List.zipWith (· ^^ ·) (bits m n) (bits e n) := by
  simp [bits, altered, List.zipWith_map, BitVec.getMsbD_xor]

theorem getD_bits {k : Nat} : (bits e n).getD k false = (decide (k < 8 * n) && (e (k / 8)).getMsbD (k % 8)) := by
  by_cases h : k < 8 * n <;> simp [bits, h]

/-- A burst changes the CRC of what it hits. -/
theorem crc16_altered (he : Burst n e) : crc16 (bytes (altered m e) (n + 4)) ≠ crc16 (bytes m (n + 4)) := by
  intro heq
  rw [crc16_eq_run, crc16_eq_run, bits_altered, ← BitVec.xor_zero (x := (0xFFFF : BitVec 16)),
    run_xor (by simp [bits]), BitVec.xor_zero] at heq
  have hrun : run crcPoly 0#16 (bits e (n + 4)) = 0#16 := by
    have := congrArg (fun x => run crcPoly 0xFFFF (bits m (n + 4)) ^^^ x) heq
    simpa [← BitVec.xor_assoc] using this
  obtain ⟨p, hp⟩ := he.confined
  have hnone : ∀ b ∈ bits e (n + 4), b = false := by
    refine run_burst (by decide) (p := p) (fun k hk => ?_) hrun
    rw [getD_bits, Bool.and_eq_true] at hk
    have := hp (k / 8) (k % 8) (by omega) hk.2
    omega
  obtain ⟨i, hi⟩ := he.hits
  refine hi (BitVec.eq_of_getMsbD_eq fun k hk => ?_)
  by_cases hout : n + 4 ≤ i
  · rw [he.inside i hout]
  · have hbit : (bits e (n + 4)).getD (8 * i + k) false = (e i).getMsbD k := by
      rw [getD_bits, show (8 * i + k) / 8 = i by omega, show (8 * i + k) % 8 = k by omega]
      simp [show 8 * i + k < 8 * (n + 4) by omega]
    have hlen : 8 * i + k < (bits e (n + 4)).length := by simp [bits]; omega
    have hzero : (0 : Byte).getMsbD k = false := BitVec.getMsbD_zero
    rw [← hbit, hzero, List.getD_eq_getElem?_getD, List.getElem?_eq_getElem hlen]
    exact hnone _ (List.getElem_mem hlen)

end Crc

/-! ## What the check makes of a burst -/

/-- The check of the packet returns, and with an error. -/
def Rejects (m : Mem) : Prop := ∃ rc, rc ≠ McuRc.hang ∧ validatePacket (fun i => some (m i)) = some (.error rc)

section Check

variable {packetId reserved : Byte} {cmdData : List Byte} {buf e : Mem}

/-- The length is as it was, the CRC does not match, and the packet is dumped. -/
theorem validatePacket_altered (hn : cmdData.length ≤ maxPayloadLen) (he : Burst cmdData.length e) :
    validatePacket (fun i => some (altered (createPacket packetId cmdData reserved buf).1 e i)) =
      some (if 246 < cmdData.length then .error .hang else .error .invalidCrc) := by
  obtain ⟨hp, -⟩ := isPacket_createPacket packetId reserved buf hn
  generalize (createPacket packetId cmdData reserved buf).1 = m at hp ⊢
  have hlen : pktLenOf (altered m e) = pktLenOf m := by
    simp [pktLenOf, altered, he.len.1, he.len.2]
  have hcrc : ¬CrcAt (altered m e) (cmdData.length + 6) := by
    have hsame {i : Nat} (hi : cmdData.length + 4 ≤ i) : altered m e i = m i := by
      simp [altered, he.inside i hi]
    intro hc
    refine crc16_altered (m := m) he ?_
    have hc' := hp.crc
    rw [CrcAt] at hc hc'
    rw [hsame (by omega), hsame (by omega), ← hc'] at hc
    exact hc
  unfold maxPayloadLen at hn
  rw [validatePacket_eq (m := altered m e) (by rw [hlen, hp.len]; omega) fun _ _ => rfl, hlen, hp.len,
    if_neg (by rw [maxPktLen_eq]; omega), if_neg hcrc, packetDump, hp.len]
  by_cases h : 246 < cmdData.length
  · rw [if_pos h, if_pos (by unfold maxPayloadLen; omega)]
    rfl
  · rw [if_neg h, if_neg (by omega)]
    rfl

/-- **Bursts are detected.** No packet with a burst of errors is accepted, and it is rejected exactly when its
parameters are at most 246 bytes: the dump of a longer packet never ends. -/
theorem bursts_rejected (packetId reserved : Byte) (buf : Mem) (hn : cmdData.length ≤ maxPayloadLen)
    (he : Burst cmdData.length e) :
    validatePacket (fun i => some (altered (createPacket packetId cmdData reserved buf).1 e i)) ≠ some (.ok ()) ∧
      (Rejects (altered (createPacket packetId cmdData reserved buf).1 e) ↔ cmdData.length ≤ 246) := by
  rw [Rejects, validatePacket_altered hn he]
  split
  · next h =>
    refine ⟨by simp, ?_⟩
    simp [show ¬cmdData.length ≤ 246 by omega]
  · next h =>
    refine ⟨by simp, ?_⟩
    simp [show cmdData.length ≤ 246 by omega]

/-- One wrong bit in the packet id. -/
def wrongId : Mem := fun i => if i = 0 then 1 else 0

theorem burst_wrongId (n : Nat) : Burst n wrongId where
  hits := ⟨0, by decide⟩
  confined := by
    refine ⟨0, fun i k hk hbit => ?_⟩
    by_cases h0 : i = 0
    · omega
    · simp [wrongId, h0] at hbit
  len := ⟨rfl, rfl⟩
  inside i hi := if_neg (by unfold maxPktHeaderLen at hi; omega)

theorem bursts_rejected_short :
    (validatePacket (fun i => some (altered (createPacket 0x08 [3] 0xFF fun _ => 0).1 wrongId i)) ≠ some (.ok ())) ∧
      (Rejects (altered (createPacket 0x08 [3] 0xFF fun _ => 0).1 wrongId) ↔ ([3] : List Byte).length ≤ 246) :=
  bursts_rejected 0x08 0xFF (fun _ => 0) (by decide) (burst_wrongId 1)

/-- A packet with 247 bytes of parameters and one wrong bit is not rejected. -/
theorem not_bursts_rejected : ¬∀ (packetId reserved : Byte) (cmdData : List Byte) (buf e : Mem),
    cmdData.length ≤ maxPayloadLen → Burst cmdData.length e →
      Rejects (altered (createPacket packetId cmdData reserved buf).1 e) := by
  intro h
  have hn : (List.replicate 247 (0 : Byte)).length ≤ maxPayloadLen := by
    rw [List.length_replicate]
    decide
  have he : Burst (List.replicate 247 (0 : Byte)).length wrongId := burst_wrongId _
  obtain ⟨rc, hrc, hval⟩ := h 0x07 0xFF (List.replicate 247 0) (fun _ => 0) wrongId hn he
  rw [validatePacket_altered hn he, List.length_replicate, if_pos (by decide)] at hval
  cases hval
  exact hrc rfl

end Check

end Lan80xx.Mailbox
