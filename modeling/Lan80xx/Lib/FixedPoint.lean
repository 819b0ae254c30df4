import Mathlib.Algebra.Order.Field.Basic
import Mathlib.Data.BitVec
import Mathlib.Tactic.FieldSimp
import Mathlib.Tactic.Linarith
import Mathlib.Tactic.Ring

/-!
# Fixed-point numbers in machine words

Numbers whose lowest bits are a fraction, with a sign in two's complement.

- `labs_toNat`, `labs_toInt_iff`: the absolute value of a word, and where it overflows;
- `mul_toNat_iff`: the products that do not wrap;
- `isGreatest_div`, `le_one_div`, `one_div_sub_lt`: a rate as the reciprocal of a whole period.
-/

namespace FixedPoint

/-! ## Absolute values and products -/

section Words

variable {w : Nat} {x y : BitVec w}

/-- `labs` and `llabs`; the least number keeps its sign. -/
def labs (x : BitVec w) : BitVec w := if 0 < x.toInt then x else -x

/-- The absolute value as an unsigned number; that of the least number is right too. -/
theorem labs_toNat : (labs x).toNat = x.toInt.natAbs := by
  have hlt := x.isLt
  have hcond := BitVec.toInt_eq_toNat_cond x
  unfold labs
  split
  · split at hcond <;> omega
  · rw [BitVec.toNat_neg]
    have hmod (h : x.toNat ≠ 0) : (2 ^ w - x.toNat) % 2 ^ w = 2 ^ w - x.toNat := Nat.mod_eq_of_lt (by omega)
    by_cases hz : x.toNat = 0
    · simp_all
    · rw [hmod hz]
      split at hcond <;> omega

/-- As a signed number, the least one has no absolute value. -/
theorem labs_toInt_iff (hw : 0 < w) : (labs x).toInt = |x.toInt| ↔ x.toInt ≠ -2 ^ (w - 1) := by
  have hnat := labs_toNat (x := x)
  have hcond := BitVec.toInt_eq_toNat_cond (labs x)
  have hlow := x.le_toInt
  have hhigh := x.toInt_lt
  have hpow : 2 ^ w = 2 * 2 ^ (w - 1) := by rw [← Nat.pow_succ', Nat.succ_eq_add_one, Nat.sub_add_cancel hw]
  have hcast : ((2 ^ (w - 1) : Nat) : Int) = 2 ^ (w - 1) := by push_cast; rfl
  rw [Int.abs_eq_natAbs]
  split at hcond <;> omega

theorem mul_toNat_iff : (x * y).toNat = x.toNat * y.toNat ↔ x.toNat * y.toNat < 2 ^ w := by
  rw [BitVec.toNat_mul]
  constructor
  · intro h
    rw [← h]
    exact Nat.mod_lt _ (Nat.two_pow_pos w)
  · exact Nat.mod_eq_of_lt

end Words

/-! ## Periods -/

section Periods

variable {m a : Nat}

/-- The quotient is the greatest period of a rate that is not below the wanted one. -/
theorem isGreatest_div (ha : 0 < a) : IsGreatest {n | n * a ≤ m} (m / a) := by
  constructor
  · exact Nat.div_mul_le_self m a
  · intro n hn
    exact (Nat.le_div_iff_mul_le ha).mpr hn

theorem le_one_div (ha : 0 < a) (ham : a ≤ m) : (a : ℚ) / m ≤ 1 / (m / a : Nat) := by
  have hm : (0 : ℚ) < m := by exact_mod_cast ha.trans_le ham
  have hn : (0 : ℚ) < (m / a : Nat) := by exact_mod_cast Nat.div_pos ham ha
  rw [div_le_div_iff₀ hm hn, one_mul, mul_comm]
  exact_mod_cast Nat.div_mul_le_self m a

theorem one_div_sub_lt (ha : 0 < a) (ham : a ≤ m) :
    1 / ((m / a : Nat) : ℚ) - (a : ℚ) / m < 1 / ((m / a : Nat) * ((m / a : Nat) + 1)) := by
  have hm : (0 : ℚ) < m := by exact_mod_cast ha.trans_le ham
  have hn : (0 : ℚ) < (m / a : Nat) := by exact_mod_cast Nat.div_pos ham ha
  have hnext : 1 / (((m / a : Nat) : ℚ) + 1) < (a : ℚ) / m := by
    rw [div_lt_div_iff₀ (by linarith) hm, one_mul]
    exact_mod_cast Nat.lt_mul_div_succ m ha
  have hstep : 1 / ((m / a : Nat) : ℚ) - 1 / ((m / a : Nat) + 1) = 1 / ((m / a : Nat) * ((m / a : Nat) + 1)) := by
    field_simp
    ring
  linarith

end Periods

end FixedPoint
