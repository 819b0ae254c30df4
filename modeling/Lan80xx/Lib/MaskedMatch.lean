import Mathlib.Data.BitVec
import Mathlib.Tactic.IntervalCases

/-!
# Masked comparisons

A comparator looks at some bits of what it is given: it compares words under a mask, and tests the range of one byte. A
word is compared as the four bytes that it is made of.

- `Matches`, `matches_append`: a comparison under a mask, as a whole and in parts;
- `matches_mask_inj`: the mask is known from what matches;
- `ofBytes`, `wordAt`: words of four bytes;
- `Pattern.accepts_iff`: what is compared byte by byte is compared word by word.
-/

namespace MaskedMatch

/-! ## Under a mask -/

/-- `x` is `value` in the bits of `mask`. -/
def Matches {n : Nat} (mask value x : BitVec n) : Prop := x &&& mask = value &&& mask

instance {n : Nat} (mask value x : BitVec n) : Decidable (Matches mask value x) := inferInstanceAs (Decidable (_ = _))

section Under

variable {n k : Nat} {mask value x : BitVec n}

theorem matches_iff_getLsbD : Matches mask value x ↔ ∀ i, mask.getLsbD i = true → x.getLsbD i = value.getLsbD i := by
  constructor
  · intro h i hi
    have hbit := congrArg (BitVec.getLsbD · i) h
    simpa [hi] using hbit
  · intro h
    refine BitVec.eq_of_getLsbD_eq fun i _ => ?_
    rw [BitVec.getLsbD_and, BitVec.getLsbD_and]
    cases hi : mask.getLsbD i with
    | true => rw [h i hi]
    | false => rw [Bool.and_false, Bool.and_false]

@[simp]
theorem matches_zero : Matches 0#n value x := by simp [Matches]

@[simp]
theorem matches_allOnes : Matches (BitVec.allOnes n) value x ↔ x = value := by simp [Matches]

/-- A value that is its own mask lets pass whatever has its bits. -/
theorem matches_self_allOnes : Matches value value (BitVec.allOnes n) := by simp [Matches]

/-- Two parts are compared each under its own part of the mask. -/
theorem matches_append {mask' value' x' : BitVec k} :
    Matches (mask ++ mask') (value ++ value') (x ++ x') ↔ Matches mask value x ∧ Matches mask' value' x' := by
  unfold Matches
  rw [BitVec.and_append, BitVec.and_append]
  constructor
  · intro h
    have hleft := congrArg (BitVec.extractLsb' k n) h
    have hright := congrArg (BitVec.extractLsb' 0 k) h
    rw [BitVec.extractLsb'_append_eq_left, BitVec.extractLsb'_append_eq_left] at hleft
    rw [BitVec.extractLsb'_append_eq_right, BitVec.extractLsb'_append_eq_right] at hright
    exact ⟨hleft, hright⟩
  · rintro ⟨hleft, hright⟩
    rw [hleft, hright]

/-- A mask with more bits lets less pass, and only such a mask does. -/
theorem getLsbD_of_matches {mask' : BitVec n} (h : ∀ x, Matches mask' value x → Matches mask value x) {i : Nat}
    (hi : mask.getLsbD i = true) : mask'.getLsbD i = true := by
  -- the value, with the bits outside `mask'` turned over
  have hflip : Matches mask' value (value ^^^ ~~~mask') := by
    rw [matches_iff_getLsbD]
    intro j hj
    simp [hj]
  have hn : i < n := BitVec.lt_of_getLsbD hi
  have hbit := matches_iff_getLsbD.mp (h _ hflip) i hi
  rw [BitVec.getLsbD_xor, BitVec.getLsbD_not, decide_eq_true hn, Bool.true_and] at hbit
  cases hmask : mask'.getLsbD i with
  | true => rfl
  | false =>
    rw [hmask] at hbit
    cases hv : value.getLsbD i <;> simp [hv] at hbit

/-- The mask is known from what matches. -/
theorem matches_mask_inj {mask' : BitVec n} : (∀ x, Matches mask value x ↔ Matches mask' value x) ↔ mask = mask' := by
  constructor
  · intro h
    refine BitVec.eq_of_getLsbD_eq fun i _ => Bool.eq_iff_iff.mpr ⟨?_, ?_⟩
    · exact getLsbD_of_matches fun x => (h x).mpr
    · exact getLsbD_of_matches fun x => (h x).mp
  · rintro rfl x
    rfl

end Under

/-! ## Words of bytes -/

/-- A word of four bytes, the first one at the top. -/
def ofBytes (a b c d : BitVec 8) : BitVec 32 := a ++ (b ++ (c ++ d))

section Words

variable (a b c d : BitVec 8)

/-- The bytes in their places. -/
theorem ofBytes_eq :
    ofBytes a b c d =
      a.setWidth 32 <<< 24 ||| b.setWidth 32 <<< 16 ||| c.setWidth 32 <<< 8 ||| d.setWidth 32 := by
  unfold ofBytes
  grind

/-- One byte, shifted to its place. -/
theorem first_shift : a.setWidth 32 <<< 24 = ofBytes a 0 0 0 := by simp [ofBytes_eq]

theorem second_shift : b.setWidth 32 <<< 16 = ofBytes 0 b 0 0 := by simp [ofBytes_eq]

theorem third_shift : c.setWidth 32 <<< 8 = ofBytes 0 0 c 0 := by simp [ofBytes_eq]

theorem fourth_shift : d.setWidth 32 = ofBytes 0 0 0 d := by simp [ofBytes_eq]

theorem ofBytes_first {n : Nat} (hn : n ≤ 8) : (ofBytes a b c d).extractLsb' 24 n = a.setWidth n := by
  unfold ofBytes
  grind

@[simp]
theorem ofBytes_second : (ofBytes a b c d).extractLsb' 16 8 = b := by
  unfold ofBytes
  grind

@[simp]
theorem ofBytes_third : (ofBytes a b c d).extractLsb' 8 8 = c := by
  unfold ofBytes
  grind

theorem ofBytes_bit {i : Nat} (hi : i < 8) : (ofBytes a b c d).getLsbD i = d.getLsbD i := by
  unfold ofBytes
  grind

theorem ofBytes_zero : ofBytes 0 0 0 0 = 0 := by decide

theorem ofBytes_or (a' b' c' d' : BitVec 8) :
    ofBytes a b c d ||| ofBytes a' b' c' d' = ofBytes (a ||| a') (b ||| b') (c ||| c') (d ||| d') := by
  unfold ofBytes
  grind

theorem matches_ofBytes {a b c d a' b' c' d' a'' b'' c'' d'' : BitVec 8} :
    Matches (ofBytes a b c d) (ofBytes a' b' c' d') (ofBytes a'' b'' c'' d'') ↔
      Matches a a' a'' ∧ Matches b b' b'' ∧ Matches c c' c'' ∧ Matches d d' d'' := by
  unfold ofBytes
  rw [matches_append, matches_append, matches_append]

end Words

/-! ## Patterns -/

/-- The word at a place of a sequence of bytes. -/
def wordAt (bytes : Nat → BitVec 8) (i : Nat) : BitVec 32 :=
  ofBytes (bytes i) (bytes (i + 1)) (bytes (i + 2)) (bytes (i + 3))

/-- The bounds of one byte. -/
structure ByteRange where
  offset : Nat
  lower : BitVec 8
  upper : BitVec 8
  deriving DecidableEq, Repr

def ByteRange.Holds (r : ByteRange) (bytes : Nat → BitVec 8) : Prop := r.lower ≤ bytes r.offset ∧ bytes r.offset ≤ r.upper

/-- What is asked of eight bytes. -/
structure Pattern where
  mask : Nat → BitVec 8
  value : Nat → BitVec 8
  range : Option ByteRange

/-- Each byte is compared under its mask, and the range of one of them is tested. -/
def Pattern.Accepts (p : Pattern) (bytes : Nat → BitVec 8) : Prop :=
  (∀ i < 8, Matches (p.mask i) (p.value i) (bytes i)) ∧ ∀ r, p.range = some r → r.Holds bytes

/-- The eight bytes are compared as two words. -/
theorem Pattern.accepts_iff (p : Pattern) (bytes : Nat → BitVec 8) :
    p.Accepts bytes ↔ Matches (wordAt p.mask 0) (wordAt p.value 0) (wordAt bytes 0) ∧
      Matches (wordAt p.mask 4) (wordAt p.value 4) (wordAt bytes 4) ∧ ∀ r, p.range = some r → r.Holds bytes := by
  unfold Pattern.Accepts wordAt
  rw [matches_ofBytes, matches_ofBytes]
  constructor
  · rintro ⟨hbytes, hrange⟩
    exact ⟨⟨hbytes 0 (by decide), hbytes 1 (by decide), hbytes 2 (by decide), hbytes 3 (by decide)⟩,
      ⟨hbytes 4 (by decide), hbytes 5 (by decide), hbytes 6 (by decide), hbytes 7 (by decide)⟩, hrange⟩
  · rintro ⟨⟨h0, h1, h2, h3⟩, ⟨h4, h5, h6, h7⟩, hrange⟩
    refine ⟨fun i hi => ?_, hrange⟩
    interval_cases i <;> assumption

end MaskedMatch
