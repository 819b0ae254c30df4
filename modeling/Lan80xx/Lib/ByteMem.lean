import Mathlib.Algebra.Group.Nat.Defs

/-!
# Byte memory

Memory from the start of a buffer on, as a function from offsets to bytes. Words of 16 and 32 bits lie in it with the
low byte first. The lemmas say which byte a word read back has, and which bytes a store leaves alone.
-/

namespace ByteMem

abbrev Byte := BitVec 8

/-- Memory, from the start of a buffer on. -/
abbrev Mem := Nat → Byte

/-! ## Words and their bytes -/

/-- The 16-bit number of two bytes. -/
def half (lo hi : Byte) : BitVec 16 := lo.setWidth 16 ||| hi.setWidth 16 <<< 8

/-- The 32-bit number of four bytes. -/
def word (b0 b1 b2 b3 : Byte) : BitVec 32 :=
  b3.setWidth 32 <<< 24 ||| b2.setWidth 32 <<< 16 ||| b1.setWidth 32 <<< 8 ||| b0.setWidth 32

/-- Byte `k` of a word, the low byte being byte 0. -/
def byteOf {w : Nat} (v : BitVec w) (k : Nat) : Byte := (v >>> (8 * k)).setWidth 8

theorem byteOf_or {w : Nat} (u v : BitVec w) (k : Nat) : byteOf (u ||| v) k = byteOf u k ||| byteOf v k := by
  simp [byteOf, BitVec.ushiftRight_or_distrib]

/-- A byte put at place `l` shows there and nowhere else. -/
theorem byteOf_place {w : Nat} (b : Byte) {k l : Nat} (hk : 8 * (k + 1) ≤ w) :
    byteOf (b.setWidth w <<< (8 * l)) k = if k = l then b else 0 := by
  apply BitVec.eq_of_getLsbD_eq
  intro i hi
  simp only [byteOf, BitVec.getLsbD_setWidth, BitVec.getLsbD_ushiftRight, BitVec.getLsbD_shiftLeft, hi,
    show 8 * k + i < w by omega, decide_true, Bool.true_and]
  rcases Nat.lt_trichotomy k l with h | rfl | h
  · simp [show 8 * k + i < 8 * l by omega, show k ≠ l by omega]
  · simp [show i < w by omega]
  · simp [show k ≠ l by omega, BitVec.getLsbD_of_ge b (8 * k + i - 8 * l) (by omega)]

/-- The bytes of a word are those it was made of. -/
theorem byteOf_word (b0 b1 b2 b3 : Byte) : byteOf (word b0 b1 b2 b3) 0 = b0 ∧ byteOf (word b0 b1 b2 b3) 1 = b1 ∧
    byteOf (word b0 b1 b2 b3) 2 = b2 ∧ byteOf (word b0 b1 b2 b3) 3 = b3 := by
  have hw : word b0 b1 b2 b3 = b3.setWidth 32 <<< (8 * 3) ||| b2.setWidth 32 <<< (8 * 2) |||
      b1.setWidth 32 <<< (8 * 1) ||| b0.setWidth 32 <<< (8 * 0) := by simp [word]
  refine ⟨?_, ?_, ?_, ?_⟩ <;> rw [hw] <;> simp only [byteOf_or] <;>
    rw [byteOf_place _ (by decide), byteOf_place _ (by decide), byteOf_place _ (by decide),
      byteOf_place _ (by decide)] <;> simp

theorem half_byteOf (v : BitVec 16) : half (byteOf v 0) (byteOf v 1) = v := by
  apply BitVec.eq_of_getLsbD_eq
  intro i hi
  by_cases h : i < 8
  · simp [half, byteOf, h, hi]
  · simp [half, byteOf, h, hi, show i - 8 < 8 by omega, show 8 + (i - 8) = i by omega]

/-! ## Loads and stores -/

/-- The first `n` bytes. -/
def bytes (m : Mem) (n : Nat) : List Byte := (List.range n).map m

def loadWord (m : Mem) (off : Nat) : BitVec 32 := word (m off) (m (off + 1)) (m (off + 2)) (m (off + 3))

def storeWord (m : Mem) (off : Nat) (v : BitVec 32) : Mem := fun i =>
  if off ≤ i ∧ i < off + 4 then byteOf v (i - off) else m i

def storeBytes (m : Mem) (off : Nat) (bs : List Byte) : Mem := fun i =>
  if off ≤ i ∧ i < off + bs.length then bs.getD (i - off) 0 else m i

section Lemmas

variable {m m' : Mem} {off n i k : Nat}

@[simp] theorem length_bytes : (bytes m n).length = n := by simp [bytes]

theorem bytes_congr (h : ∀ i < n, m i = m' i) : bytes m n = bytes m' n :=
  List.map_congr_left fun i hi => h i (List.mem_range.mp hi)

theorem byteOf_loadWord (hk : k < 4) : byteOf (loadWord m off) k = m (off + k) := by
  obtain ⟨h0, h1, h2, h3⟩ := byteOf_word (m off) (m (off + 1)) (m (off + 2)) (m (off + 3))
  match k, hk with
  | 0, _ => exact h0
  | 1, _ => exact h1
  | 2, _ => exact h2
  | 3, _ => exact h3

theorem storeWord_of_lt {v : BitVec 32} (h : i < off) : storeWord m off v i = m i :=
  if_neg fun hi => Nat.not_le_of_lt h hi.1

theorem storeWord_of_ge {v : BitVec 32} (h : off + 4 ≤ i) : storeWord m off v i = m i :=
  if_neg fun hi => Nat.not_lt_of_le h hi.2

theorem storeWord_at {v : BitVec 32} (hk : k < 4) : storeWord m off v (off + k) = byteOf v k := by
  rw [storeWord, if_pos ⟨Nat.le_add_right _ _, by omega⟩, Nat.add_sub_cancel_left]

/-- Copying memory word by word. -/
theorem storeWord_loadWord (h : ∀ i < off, m' i = m i) : ∀ i < off + 4, storeWord m' off (loadWord m off) i = m i := by
  intro i hi
  by_cases hlt : i < off
  · rw [storeWord_of_lt hlt, h i hlt]
  · obtain ⟨j, rfl⟩ := Nat.exists_eq_add_of_le (Nat.le_of_not_lt hlt)
    rw [storeWord_at (by omega), byteOf_loadWord (by omega)]

theorem storeBytes_of_lt {bs : List Byte} (h : i < off) : storeBytes m off bs i = m i :=
  if_neg fun hi => Nat.not_le_of_lt h hi.1

theorem storeBytes_at {bs : List Byte} (hk : k < bs.length) : storeBytes m off bs (off + k) = bs.getD k 0 := by
  rw [storeBytes, if_pos ⟨Nat.le_add_right _ _, by omega⟩, Nat.add_sub_cancel_left]

end Lemmas

/-! ## Words in a row -/

/-- The four bytes of a word, the low one first. -/
def bytesOf (v : BitVec 32) : List Byte := (List.range 4).map (byteOf v)

/-- The bytes of `n` words. -/
def bytesOfWords (g : Nat → BitVec 32) (n : Nat) : List Byte := (List.range n).flatMap fun i => bytesOf (g i)

section Words

variable {g : Nat → BitVec 32} {n i : Nat}

@[simp] theorem length_bytesOf (v : BitVec 32) : (bytesOf v).length = 4 := by simp [bytesOf]

theorem bytesOfWords_succ (n : Nat) : bytesOfWords g (n + 1) = bytesOfWords g n ++ bytesOf (g n) := by
  simp [bytesOfWords, List.range_succ]

@[simp] theorem length_bytesOfWords (n : Nat) : (bytesOfWords g n).length = 4 * n := by
  induction n with
  | zero => rfl
  | succ n ih => rw [bytesOfWords_succ, List.length_append, ih, length_bytesOf, Nat.mul_succ]

theorem bytesOfWords_getElem? (hi : i < 4 * n) : (bytesOfWords g n)[i]? = some (byteOf (g (i / 4)) (i % 4)) := by
  induction n with
  | zero => omega
  | succ n ih =>
    rw [bytesOfWords_succ]
    rcases Nat.lt_or_ge i (4 * n) with hlt | hge
    · rw [List.getElem?_append_left (by simpa using hlt), ih hlt]
    · rw [List.getElem?_append_right (by simpa using hge), length_bytesOfWords, bytesOf, List.getElem?_map,
        List.getElem?_range (by omega)]
      have hdiv : i / 4 = n := by omega
      have hmod : i - 4 * n = i % 4 := by omega
      rw [hdiv, hmod]
      rfl

end Words

/-! ## Readers -/

/-- The first `n` bytes through a reader that may have no byte at an offset. -/
def readBytes (rd : Nat → Option Byte) (n : Nat) : Option (List Byte) := (List.range n).mapM rd

section Read

variable {rd : Nat → Option Byte} {m : Mem}

theorem readBytes_succ (n : Nat) :
    readBytes rd (n + 1) = (readBytes rd n).bind fun bs => (rd n).map fun b => bs ++ [b] := by
  simp only [readBytes, List.range_succ, List.mapM_append, List.mapM_cons, List.mapM_nil]
  cases (List.range n).mapM rd with
  | none => rfl
  | some bs => cases rd n <;> rfl

theorem readBytes_some : ∀ {n : Nat}, (∀ i < n, rd i = some (m i)) → readBytes rd n = some (bytes m n)
  | 0, _ => rfl
  | n + 1, h => by
    rw [readBytes_succ, readBytes_some fun i hi => h i (by omega), h n (by omega)]
    simp [bytes, List.range_succ]

theorem readBytes_none {i : Nat} (h : rd i = none) : ∀ {n : Nat}, i < n → readBytes rd n = none
  | n + 1, hi => by
    rw [readBytes_succ]
    rcases Nat.lt_succ_iff_lt_or_eq.mp hi with hlt | rfl
    · rw [readBytes_none h hlt]
      rfl
    · cases readBytes rd i <;> simp [h]

end Read

end ByteMem
