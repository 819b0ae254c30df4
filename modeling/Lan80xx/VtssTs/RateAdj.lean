import Lan80xx.Lib.FixedPoint
import Lan80xx.VtssTs.Settings
import Mathlib.Tactic.Positivity

/-!
# The rate of the clock

The clock is made faster or slower by one nanosecond that is added or subtracted whenever a number of nanoseconds has
passed, and that number is what a rate adjustment is divided into.

- `autoAdjustNs_rateAdjust`, `autoAddSub_rateAdjust`: the fields of the register;
- `applied_iff`, `rate_mono_iff`: an adjustment of more than the whole rate has the period zero, and no effect.
-/

namespace Lan80xx.VtssTs

open FixedPoint Fallible RegBus RegScript

/-! ## The register -/

/-- One nanosecond for each: 10^9 parts in 10^9, in units of `vtss_phy_ts_scaled_ppb_t`. -/
def whole : Nat := 1000000000 * 0x10000

/-- `LTC_AUTO_ADJUST_NS` -/
def autoAdjustNs (w : BitVec 32) : Nat := (w &&& 0x3fffffff).toNat

/-- `LTC_AUTO_ADD_SUB_1NS` -/
def autoAddSub (w : BitVec 32) : Nat := (w >>> 30).toNat

/-- The nanoseconds that are added in each nanosecond; those subtracted are negative. -/
def rate (w : BitVec 32) : ℚ :=
  if autoAdjustNs w = 0 then 0
  else if autoAddSub w = 1 then 1 / autoAdjustNs w
  else if autoAddSub w = 2 then -(1 / autoAdjustNs w)
  else 0

/-- The rate that is asked for. -/
def wanted (adj : BitVec 64) : ℚ := adj.toInt / whole

/-- The period that is programmed, of an adjustment other than zero. -/
def period (adj : BitVec 64) : Nat := min (whole / adj.toInt.natAbs) 1000000000

section Register

variable {adj : BitVec 64}

theorem rateAdjust_of_ne (h : adj ≠ 0) : rateAdjust adj =
    (BitVec.ofNat 32 (period adj) &&& 0x3fffffff) ||| (if 0 < adj.toInt then 0x40000000 else 0x80000000) := by
  rw [rateAdjust, if_neg h]
  rfl

theorem period_lt : period adj < 2 ^ 30 := by
  unfold period
  omega

/-- The period fits into its field. -/
theorem autoAdjustNs_rateAdjust (h : adj ≠ 0) : autoAdjustNs (rateAdjust adj) = period adj := by
  have hp : period adj < 2 ^ 30 := period_lt
  have hmask (x d : BitVec 32) (hd : d &&& 0x3fffffff = 0) : (x &&& 0x3fffffff ||| d) &&& 0x3fffffff = x &&& 0x3fffffff := by
    rw [BitVec.and_or_distrib_right, hd, BitVec.and_assoc, BitVec.and_self]
    exact BitVec.or_zero
  have hd : (if 0 < adj.toInt then 0x40000000 else 0x80000000 : BitVec 32) &&& 0x3fffffff = 0 := by
    split <;> decide
  have hand : ((0x3fffffff : BitVec 32)).toNat = 2 ^ 30 - 1 := by decide
  rw [autoAdjustNs, rateAdjust_of_ne h, hmask _ _ hd, BitVec.toNat_and, hand, Nat.and_two_pow_sub_one_eq_mod,
    BitVec.toNat_ofNat]
  omega

theorem autoAddSub_rateAdjust (h : adj ≠ 0) : autoAddSub (rateAdjust adj) = if 0 < adj.toInt then 1 else 2 := by
  have hshift (x d : BitVec 32) : (x &&& 0x3fffffff ||| d) >>> 30 = d >>> 30 := by
    rw [BitVec.ushiftRight_or_distrib, BitVec.ushiftRight_and_distrib]
    have hzero : (0x3fffffff : BitVec 32) >>> 30 = 0#32 := by decide
    rw [hzero, BitVec.and_zero, BitVec.zero_or]
  rw [autoAddSub, rateAdjust_of_ne h, hshift]
  split <;> rfl

theorem rate_rateAdjust : rate (rateAdjust adj) =
    if 0 < adj.toInt then 1 / (period adj : ℚ) else if adj.toInt < 0 then -(1 / (period adj : ℚ)) else 0 := by
  by_cases hz : adj = 0
  · subst hz
    rfl
  have hne : adj.toInt ≠ 0 := fun h => hz (BitVec.toInt_inj.mp h)
  rw [rate, autoAdjustNs_rateAdjust hz, autoAddSub_rateAdjust hz]
  by_cases hp : period adj = 0
  · simp [hp]
  · by_cases hpos : 0 < adj.toInt
    · simp [hp, hpos]
    · have hneg : adj.toInt < 0 := by omega
      simp [hp, hpos, hneg]

theorem abs_rate (h : adj ≠ 0) : |rate (rateAdjust adj)| = 1 / (period adj : ℚ) := by
  have hne : adj.toInt ≠ 0 := fun hz => h (BitVec.toInt_inj.mp hz)
  have hnonneg : (0 : ℚ) ≤ 1 / (period adj : ℚ) := by positivity
  rw [rate_rateAdjust]
  by_cases hpos : 0 < adj.toInt
  · rw [if_pos hpos, abs_of_nonneg hnonneg]
  · rw [if_neg hpos, if_pos (by omega), abs_neg, abs_of_nonneg hnonneg]

theorem period_of_le (hlow : 2 ^ 16 ≤ adj.toInt.natAbs) : period adj = whole / adj.toInt.natAbs := by
  have hle : whole / adj.toInt.natAbs ≤ whole / 2 ^ 16 := Nat.div_le_div_left hlow (by decide)
  have hw : whole / 2 ^ 16 = 1000000000 := by decide
  unfold period
  omega

theorem period_of_lt (hlow : 0 < adj.toInt.natAbs) (hhigh : adj.toInt.natAbs < 2 ^ 16) : period adj = 1000000000 := by
  have hle : whole / 2 ^ 16 ≤ whole / adj.toInt.natAbs := Nat.div_le_div_left hhigh.le hlow
  have hw : whole / 2 ^ 16 = 1000000000 := by decide
  unfold period
  omega

theorem period_eq_zero_iff (h : adj ≠ 0) : period adj = 0 ↔ whole < adj.toInt.natAbs := by
  have hne : adj.toInt ≠ 0 := fun hz => h (BitVec.toInt_inj.mp hz)
  have hdiv : whole / adj.toInt.natAbs = 0 ↔ whole < adj.toInt.natAbs := Nat.div_eq_zero_iff_lt (by omega)
  unfold period
  omega

/-- Of two adjustments in the same direction, the greater one has the shorter period. -/
theorem period_anti {a b : BitVec 64} (ha : 0 < a.toInt.natAbs) (hab : a.toInt.natAbs ≤ b.toInt.natAbs) :
    period b ≤ period a := by
  have hle : whole / b.toInt.natAbs ≤ whole / a.toInt.natAbs := Nat.div_le_div_left hab ha
  unfold period
  omega

end Register

/-! ## One adjustment -/

/-- What an adjustment has to do: nothing overflows, the direction is that of the adjustment, the period is the greatest
one, and the rate is close to the wanted one and not below it. -/
structure Applied (adj : BitVec 64) : Prop where
  absolute : (labs adj).toInt = |adj.toInt|
  fits : adj ≠ 0 → autoAdjustNs (rateAdjust adj) = min ((BitVec.ofNat 64 whole / labs adj).toNat) 1000000000
  direction : autoAddSub (rateAdjust adj) = if 0 < adj.toInt then 1 else if adj.toInt < 0 then 2 else 0
  greatest : 2 ^ 16 ≤ adj.toInt.natAbs → adj.toInt.natAbs ≤ whole →
    IsGreatest {n | n * adj.toInt.natAbs ≤ whole} (autoAdjustNs (rateAdjust adj))
  near : 2 ^ 16 ≤ adj.toInt.natAbs → adj.toInt.natAbs ≤ whole →
    |wanted adj| ≤ |rate (rateAdjust adj)| ∧ |rate (rateAdjust adj)| - |wanted adj| <
      1 / (autoAdjustNs (rateAdjust adj) * (autoAdjustNs (rateAdjust adj) + 1))
  small : adj.toInt.natAbs < 2 ^ 16 → rate (rateAdjust adj) = 0 ∨ |rate (rateAdjust adj)| ≤ 1 / 1000000000

section Applied

variable {adj : BitVec 64}

theorem applied_iff : Applied adj ↔ adj.toInt ≠ -2 ^ 63 := by
  constructor
  · intro h
    exact (labs_toInt_iff (by decide)).mp h.absolute
  intro hmin
  have hw : (BitVec.ofNat 64 whole).toNat = whole := by decide
  have hne (hpos : 0 < adj.toInt.natAbs) : adj ≠ 0 := by
    rintro rfl
    exact absurd hpos (by decide)
  refine ⟨(labs_toInt_iff (by decide)).mpr hmin, ?_, ?_, ?_, ?_, ?_⟩
  · intro hz
    rw [autoAdjustNs_rateAdjust hz, BitVec.toNat_udiv, labs_toNat, hw]
    rfl
  · by_cases hz : adj = 0
    · subst hz
      rfl
    · have hne : adj.toInt ≠ 0 := fun h => hz (BitVec.toInt_inj.mp h)
      rw [autoAddSub_rateAdjust hz]
      split_ifs <;> first | rfl | omega
  · intro hlow _
    rw [autoAdjustNs_rateAdjust (hne (by omega)), period_of_le hlow]
    exact isGreatest_div (by omega)
  · intro hlow hhigh
    have hpos : 0 < adj.toInt.natAbs := by omega
    have hwanted : |wanted adj| = (adj.toInt.natAbs : ℚ) / whole := by
      rw [wanted, abs_div, Nat.abs_cast, Nat.cast_natAbs, Int.cast_abs]
    rw [autoAdjustNs_rateAdjust (hne hpos), abs_rate (hne hpos), period_of_le hlow, hwanted]
    exact ⟨le_one_div hpos hhigh, one_div_sub_lt hpos hhigh⟩
  · intro hsmall
    by_cases hz : adj = 0
    · subst hz
      exact .inl rfl
    · have hpos : 0 < adj.toInt.natAbs := by
        have : adj.toInt ≠ 0 := fun h => hz (BitVec.toInt_inj.mp h)
        omega
      right
      rw [abs_rate hz, period_of_lt hpos hsmall]
      norm_num

end Applied

/-! ## The order of adjustments -/

section Order

variable {a b : BitVec 64}

theorem one_div_period_nonneg : (0 : ℚ) ≤ 1 / (period a : ℚ) := by positivity

/-- A shorter period is a greater rate, while it is not zero. -/
theorem one_div_period_le (hb : period b ≠ 0) (h : period b ≤ period a) : 1 / (period a : ℚ) ≤ 1 / (period b : ℚ) := by
  have hpos : (0 : ℚ) < period b := by exact_mod_cast Nat.pos_of_ne_zero hb
  exact one_div_le_one_div_of_le hpos (by exact_mod_cast h)

theorem one_div_period_pos (ha : period a ≠ 0) : (0 : ℚ) < 1 / (period a : ℚ) := by
  have hpos : (0 : ℚ) < period a := by exact_mod_cast Nat.pos_of_ne_zero ha
  exact one_div_pos.mpr hpos

/-- An adjustment within the whole rate is above one beyond it. -/
theorem rate_mono_iff (h : a.toInt ≤ b.toInt) : rate (rateAdjust a) ≤ rate (rateAdjust b) ↔
    ¬(0 < a.toInt ∧ a.toInt ≤ whole ∧ whole < b.toInt) ∧ ¬(a.toInt < -whole ∧ -whole ≤ b.toInt ∧ b.toInt < 0) := by
  have hnz {x : BitVec 64} (hx : x.toInt ≠ 0) : x ≠ 0 := by
    rintro rfl
    exact hx rfl
  rw [rate_rateAdjust, rate_rateAdjust]
  rcases lt_trichotomy a.toInt 0 with ha | ha | ha
  · have hza := period_eq_zero_iff (hnz ha.ne)
    rw [if_neg (by omega), if_pos ha]
    by_cases hb : b.toInt < 0
    · have hzb := period_eq_zero_iff (hnz hb.ne)
      rw [if_neg (by omega), if_pos hb]
      by_cases hpa : period a = 0
      · by_cases hpb : period b = 0
        · rw [hpa, hpb]
          exact iff_of_true le_rfl (by omega)
        · have hpos := one_div_period_pos hpb
          rw [hpa, Nat.cast_zero, div_zero]
          constructor
          · intro hle
            linarith
          · intro hcond
            have : (period b = 0) := hzb.mpr (by omega)
            exact absurd this hpb
      · have hle := one_div_period_le hpa (period_anti (a := b) (b := a) (by omega) (by omega))
        exact iff_of_true (neg_le_neg hle) (by omega)
    · have hle : -(1 / (period a : ℚ)) ≤ if 0 < b.toInt then 1 / (period b : ℚ) else 0 := by
        have hna := one_div_period_nonneg (a := a)
        have hnb := one_div_period_nonneg (a := b)
        split <;> linarith
      rw [if_neg hb]
      exact iff_of_true hle (by omega)
  · rw [if_neg (by omega), if_neg (by omega)]
    have hnb := one_div_period_nonneg (a := b)
    by_cases hb : 0 < b.toInt
    · rw [if_pos hb]
      exact iff_of_true hnb (by omega)
    · rw [if_neg hb, if_neg (by omega)]
      exact iff_of_true le_rfl (by omega)
  · have hb : 0 < b.toInt := by omega
    have hza := period_eq_zero_iff (hnz ha.ne')
    have hzb := period_eq_zero_iff (hnz hb.ne')
    rw [if_pos ha, if_pos hb]
    by_cases hpb : period b = 0
    · by_cases hpa : period a = 0
      · rw [hpa, hpb]
        exact iff_of_true le_rfl (by omega)
      · have hpos := one_div_period_pos hpa
        rw [hpb, Nat.cast_zero, div_zero]
        constructor
        · intro hle
          linarith
        · omega
    · have hle := one_div_period_le hpb (period_anti (a := a) (b := b) (by omega) (by omega))
      exact iff_of_true hle (by omega)

end Order

/-! ## The call -/

section Call

variable {P H : Type} [DecidableEq P] (bus : Bus (P × TsReg) 32 H) (p : P) (phy : PhyView)

end Call

/-! ## All adjustments -/

/-- Both adjustments do what they have to, and the greater one does not make the clock slower than the other. -/
structure RatesRight (a b : BitVec 64) : Prop where
  left : Applied a
  right : Applied b
  mono : rate (rateAdjust a) ≤ rate (rateAdjust b)

/-- **Rates are right and in order, but for adjustments beyond the whole rate.** -/
theorem rates_right_iff (a b : BitVec 64) (h : a.toInt ≤ b.toInt) : RatesRight a b ↔
    a.toInt ≠ -2 ^ 63 ∧ ¬(0 < a.toInt ∧ a.toInt ≤ whole ∧ whole < b.toInt) ∧
      ¬(a.toInt < -whole ∧ -whole ≤ b.toInt ∧ b.toInt < 0) := by
  constructor
  · intro hright
    exact ⟨applied_iff.mp hright.left, (rate_mono_iff h).mp hright.mono⟩
  · rintro ⟨hmin, hmono⟩
    have hlow := a.le_toInt
    exact ⟨applied_iff.mpr hmin, applied_iff.mpr (by omega), (rate_mono_iff h).mpr hmono⟩

theorem rates_right_iff_ppb : RatesRight 0x28000 0x50000 :=
  (rates_right_iff 0x28000 0x50000 (by decide)).mpr (by decide)

/-- One part more than the whole rate stops the adjustment. -/
theorem not_rates_right : ¬∀ a b : BitVec 64, a.toInt ≤ b.toInt → RatesRight a b := by
  intro h
  have hmono := (rate_mono_iff (a := 65536000000000) (b := 65536000000001) (by decide)).mp
    (h 65536000000000 65536000000001 (by decide)).mono
  exact hmono.1 (by decide)

end Lan80xx.VtssTs
