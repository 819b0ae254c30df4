import Lan80xx.Ts.Types

/-!
# Timestamping: the rate of the local time counter

In each cycle the counter is advanced by an increment of 64 bits, whose nominal value a rate adjustment of `adj` parts in
10^9 changes by the same fraction. The product is formed in two parts, so that it stays within 64 bits.

- `exact_rateAdj`: no step of the computation wraps;
- `todInc_near`, `todInc_mono`: the increment is the wanted one but for rounding, and grows with `adj`;
- `rate_adj_right_iff`: all of this holds, but an adjustment of zero does not restore the increment that initialisation
  has programmed.
-/

namespace Lan80xx.Ts

open Fallible RegBus

/-! ## The increment -/

/-- `NOM_TOD_VAL`. -/
def nomTodVal : BitVec 64 := 3 <<< 59 + 0x121FB5452454FCE

/-- `LAN80XX_PTP_LTC_CLK_PER_CFG_1`. -/
def ptpLtcClkPerCfg1 : BitVec 32 := 0x1921fb54

/-- `LAN80XX_PTP_LTC_CLK_PER_CFG_0`. -/
def ptpLtcClkPerCfg0 : BitVec 32 := 0x7f9eae35

/-- The values that the case `LAN80XX_PHY_TS_RATE_ADJ_SET` computes, in their order. -/
structure RateAdj where
  val : BitVec 64
  todTrunk : BitVec 64
  product : BitVec 64
  truncated : BitVec 64
  todDelta : BitVec 64
  todInc : BitVec 64

/-- The computation of `LAN80XX_PHY_TS_RATE_ADJ_SET`. -/
def rateAdj (adj : BitVec 64) : RateAdj :=
  let val := if 0 < adj.toInt then adj else -adj
  let todTrunk := nomTodVal % 1000000000
  let product := nomTodVal / 1000000000 * val
  let truncated := todTrunk * val
  let todDelta := product + truncated / 1000000000
  ⟨val, todTrunk, product, truncated, todDelta, if 0 < adj.toInt then nomTodVal + todDelta else nomTodVal - todDelta⟩

/-- The increment that is programmed. -/
def todInc (adj : BitVec 64) : BitVec 64 := (rateAdj adj).todInc

/-- The increment that initialisation programs. -/
def initInc : BitVec 64 := ptpLtcClkPerCfg1 ++ ptpLtcClkPerCfg0

/-- The nominal increment, in units of 10^9 and what is left. -/
theorem nomTodVal_toNat : nomTodVal.toNat = 1811004864 * 1000000000 + 755748814 := by decide +kernel

/-- Every step of the computation has the result that it has on integers. -/
structure Exact (adj : BitVec 64) : Prop where
  val : (rateAdj adj).val.toNat = adj.toInt.natAbs
  todTrunk : (rateAdj adj).todTrunk.toNat = nomTodVal.toNat % 1000000000
  product : (rateAdj adj).product.toNat = nomTodVal.toNat / 1000000000 * adj.toInt.natAbs
  truncated : (rateAdj adj).truncated.toNat = nomTodVal.toNat % 1000000000 * adj.toInt.natAbs
  todDelta : (rateAdj adj).todDelta.toNat = nomTodVal.toNat / 1000000000 * adj.toInt.natAbs +
    nomTodVal.toNat % 1000000000 * adj.toInt.natAbs / 1000000000
  todInc : ((rateAdj adj).todInc.toNat : Int) =
    nomTodVal.toNat + if 0 < adj.toInt then ((rateAdj adj).todDelta.toNat : Int) else -(rateAdj adj).todDelta.toNat

/-- An adjustment of less than the whole rate. -/
def Adjusts (adj : BitVec 64) : Prop := -1000000000 < adj.toInt ∧ adj.toInt < 1000000000

instance (adj : BitVec 64) : Decidable (Adjusts adj) := inferInstanceAs (Decidable (_ ∧ _))

section Increment

variable {adj adj' : BitVec 64}

/-- `MEPA_LLABS` -/
theorem llabs_toNat (h : Adjusts adj) : (if 0 < adj.toInt then adj else -adj).toNat = adj.toInt.natAbs := by
  have hlt := adj.isLt
  have hcond := BitVec.toInt_eq_toNat_cond adj
  obtain ⟨hlow, hhigh⟩ := h
  split
  · next hpos =>
    split at hcond <;> omega
  · next hneg =>
    rw [BitVec.toNat_neg]
    split at hcond <;> omega

/-- The absolute value is small, and so is everything that is computed from it. -/
theorem exact_rateAdj (h : Adjusts adj) : Exact adj := by
  have hv : adj.toInt.natAbs < 1000000000 := by
    obtain ⟨hlow, hhigh⟩ := h
    omega
  have hval : (rateAdj adj).val.toNat = adj.toInt.natAbs := llabs_toNat h
  have htrunk : (rateAdj adj).todTrunk.toNat = nomTodVal.toNat % 1000000000 := BitVec.toNat_umod
  have hproduct : (rateAdj adj).product.toNat = nomTodVal.toNat / 1000000000 * adj.toInt.natAbs := by
    have hmul : (rateAdj adj).product = nomTodVal / 1000000000 * (rateAdj adj).val := rfl
    have hq : (nomTodVal / 1000000000).toNat = 1811004864 := by decide +kernel
    rw [hmul, BitVec.toNat_mul, hq, hval, nomTodVal_toNat]
    omega
  have htruncated : (rateAdj adj).truncated.toNat = nomTodVal.toNat % 1000000000 * adj.toInt.natAbs := by
    have hmul : (rateAdj adj).truncated = (rateAdj adj).todTrunk * (rateAdj adj).val := rfl
    rw [hmul, BitVec.toNat_mul, htrunk, hval, nomTodVal_toNat]
    omega
  have hdelta : (rateAdj adj).todDelta.toNat = nomTodVal.toNat / 1000000000 * adj.toInt.natAbs +
      nomTodVal.toNat % 1000000000 * adj.toInt.natAbs / 1000000000 := by
    have hadd : (rateAdj adj).todDelta = (rateAdj adj).product + (rateAdj adj).truncated / 1000000000 := rfl
    have hbillion : (1000000000 : BitVec 64).toNat = 1000000000 := rfl
    rw [hadd, BitVec.toNat_add, BitVec.toNat_udiv, hbillion, hproduct, htruncated, nomTodVal_toNat]
    omega
  refine ⟨hval, htrunk, hproduct, htruncated, hdelta, ?_⟩
  have hinc : (rateAdj adj).todInc =
      if 0 < adj.toInt then nomTodVal + (rateAdj adj).todDelta else nomTodVal - (rateAdj adj).todDelta := rfl
  rw [hinc]
  rw [nomTodVal_toNat] at hdelta ⊢
  split
  · rw [BitVec.toNat_add, nomTodVal_toNat]
    omega
  · rw [BitVec.toNat_sub, nomTodVal_toNat]
    omega

/-- The increment as a number. -/
theorem todInc_toNat (h : Adjusts adj) : ((todInc adj).toNat : Int) = 1811004864755748814 +
    if 0 < adj.toInt then (1811004864 * adj.toInt.natAbs + 755748814 * adj.toInt.natAbs / 1000000000 : Int)
    else -(1811004864 * adj.toInt.natAbs + 755748814 * adj.toInt.natAbs / 1000000000) := by
  have hx := exact_rateAdj h
  have hinc : ((todInc adj).toNat : Int) = _ := hx.todInc
  rw [hinc, hx.todDelta, nomTodVal_toNat]
  split <;> omega

/-- The increment is the wanted one but for less than two units. -/
theorem todInc_near (h : Adjusts adj) :
    ((todInc adj).toNat * 1000000000 - nomTodVal.toNat * (1000000000 + adj.toInt) : Int).natAbs < 2 * 1000000000 := by
  rw [todInc_toNat h, nomTodVal_toNat]
  split <;> omega

theorem todInc_mono (h : Adjusts adj) (h' : Adjusts adj') (hle : adj'.toInt ≤ adj.toInt) :
    (todInc adj').toNat ≤ (todInc adj).toNat := by
  have hinc := todInc_toNat h
  have hinc' := todInc_toNat h'
  split at hinc <;> split at hinc' <;> omega

end Increment

/-! ## The calls -/

section Calls

variable {H : Type} (bus : Bus TsReg 32 H)

/-- `LAN80XX_M_PTP_LTC_PTP_DOM_CFG_PTP_CLKCFG_DIS`. -/
def ptpClkcfgDis : BitVec 32 := 1

/-- `lan80xx_ts_csr_set_priv`, for `LAN80XX_PHY_TS_RATE_ADJ_SET`. -/
def rateAdjCsrSet : Call H Unit := do
  basePortGet
  let conf ← getConf
  let value ← read bus id .ptpDomCfg
  writeMasked bus id .ptpDomCfg (value ||| ptpClkcfgDis) ptpClkcfgDis
  write bus id (.clkPerCfg 0) ((todInc conf.rateAdj &&& 0xFFFFFFFF).setWidth 32)
  write bus id (.clkPerCfg 1) ((todInc conf.rateAdj >>> 32).setWidth 32)

/-- `lan80xx_phy_ts_clock_rateadj_set` -/
def clockRateadjSet (adj : BitVec 64) : Call H Unit := do
  let conf ← getConf
  failIf (conf.portTsInitDone = false) rcError
  modifyConf fun c => { c with rateAdj := adj }
  rateAdjCsrSet bus

/-- The part of `lan80xx_ts_block_init` that sets the clock value. -/
def clockValueInit : Call H Unit := do
  write bus id (.clkPerCfg 1) ptpLtcClkPerCfg1
  write bus id (.clkPerCfg 0) ptpLtcClkPerCfg0

end Calls

/-- The increment that the registers hold. -/
def clkPer (m : TsReg → BitVec 32) : BitVec 64 := m (.clkPerCfg 1) ++ m (.clkPerCfg 0)

section Written

variable {H : Type} (tb : TsBus H) {s s' : Dev TsConf H} {u : Unit} {adj : BitVec 64}

theorem words_append (x : BitVec 64) :
    ((x >>> 32).setWidth 32 : BitVec 32) ++ ((x &&& 0xFFFFFFFF).setWidth 32 : BitVec 32) = x := by
  have hmask (i : Nat) : (0xFFFFFFFF : BitVec 64).getLsbD i = decide (i < 32) := by
    have hones : (0xFFFFFFFF : BitVec 64) = (BitVec.allOnes 32).setWidth 64 := rfl
    rw [hones, BitVec.getLsbD_setWidth, BitVec.getLsbD_allOnes]
    by_cases h : i < 32
    · simp [h, show i < 64 by omega]
    · simp [h]
  refine BitVec.eq_of_getLsbD_eq fun i hi => ?_
  rw [BitVec.getLsbD_append]
  by_cases h : i < 32
  · rw [if_pos h, BitVec.getLsbD_setWidth, BitVec.getLsbD_and, hmask]
    simp [h]
  · simp [h, show i - 32 < 32 by omega, show 32 + (i - 32) = i by omega]

/-- A call that returns has programmed the increment. -/
theorem clkPer_clockRateadjSet (h : clockRateadjSet tb.toBus adj s = .ok u s') : clkPer (tb.view s'.hw) = todInc adj := by
  have hrun : Leads (Sees tb s.hw s.conf (tb.view s.hw)) (clockRateadjSet tb.toBus adj)
      fun _ s' => clkPer (tb.view s'.hw) = todInc adj := by
    refine leads_getConf tb (leads_failIf tb fun _ => ?_)
    refine (leads_modifyConf tb _).bind fun _ => leads_basePortGet tb (leads_getConf tb (leads_read tb _ ?_))
    refine (leads_writeMasked tb _ _ _).bind fun _ => (leads_write tb _ _).bind fun _ => ?_
    refine (leads_write tb _ _).weaken ?_ fun _ h => h
    rintro - s' ⟨-, -, hm⟩
    rw [clkPer, hm, Function.update_self, Function.update_of_ne (by decide), Function.update_self]
    exact words_append _
  exact hrun.ok (sees_start tb s) h

theorem clkPer_clockValueInit (h : clockValueInit tb.toBus s = .ok u s') : clkPer (tb.view s'.hw) = initInc := by
  have hrun : Leads (Sees tb s.hw s.conf (tb.view s.hw)) (clockValueInit tb.toBus)
      fun _ s' => clkPer (tb.view s'.hw) = initInc := by
    refine (leads_write tb _ _).bind fun _ => (leads_write tb _ _).weaken ?_ fun _ h => h
    rintro - s' ⟨-, -, hm⟩
    rw [clkPer, hm, Function.update_self, Function.update_of_ne (by decide), Function.update_self]
    rfl
  exact hrun.ok (sees_start tb s) h

end Written

/-! ## What an adjustment has to do -/

/-- The adjustment is computed without overflow, close to the wanted one, in the order of the adjustments, and one of
zero brings back what initialisation has programmed. -/
structure RateAdjRight (adj : BitVec 64) : Prop where
  exact : Exact adj
  near : ∀ {H : Type} (tb : TsBus H) (s s' : Dev TsConf H) (u : Unit), clockRateadjSet tb.toBus adj s = .ok u s' →
    ((clkPer (tb.view s'.hw)).toNat * 1000000000 - nomTodVal.toNat * (1000000000 + adj.toInt) : Int).natAbs <
      2 * 1000000000
  monotone : ∀ {H : Type} (tb : TsBus H) (s s' t t' : Dev TsConf H) (u v : Unit) (adj' : BitVec 64), Adjusts adj' →
    adj'.toInt ≤ adj.toInt → clockRateadjSet tb.toBus adj s = .ok u s' → clockRateadjSet tb.toBus adj' t = .ok v t' →
      (clkPer (tb.view t'.hw)).toNat ≤ (clkPer (tb.view s'.hw)).toNat
  initial : adj = 0 → ∀ {H : Type} (tb : TsBus H) (s s' t t' : Dev TsConf H) (u v : Unit),
    clockRateadjSet tb.toBus adj s = .ok u s' → clockValueInit tb.toBus t = .ok v t' →
      clkPer (tb.view s'.hw) = clkPer (tb.view t'.hw)

/-- Its start. -/
def benchStart : Dev TsConf (TsReg → BitVec 32) := ⟨{}, fun _ => 0⟩

/-- The nominal increment is not the one that initialisation programs. -/
theorem todInc_zero : todInc 0 ≠ initInc := by decide +kernel

/-- The rate that an adjustment of zero sets is not that of initialisation. -/
theorem not_rateAdjRight_zero : ¬RateAdjRight 0 := by
  intro h
  refine todInc_zero ?_
  have hset : clockRateadjSet bench.toBus 0 benchStart = .ok () (final (clockRateadjSet bench.toBus 0) benchStart) := rfl
  have hinit : clockValueInit bench.toBus benchStart = .ok () (final (clockValueInit bench.toBus) benchStart) := rfl
  have hsame := h.initial rfl bench benchStart _ benchStart _ () () hset hinit
  rwa [clkPer_clockRateadjSet bench hset, clkPer_clockValueInit bench hinit] at hsame

/-- **Rate adjustments are right, but for that of zero**: `NOM_TOD_VAL` is not the increment of initialisation. -/
theorem rate_adj_right_iff (adj : BitVec 64) (h : Adjusts adj) : RateAdjRight adj ↔ adj ≠ 0 := by
  constructor
  · rintro hright rfl
    exact not_rateAdjRight_zero hright
  · intro hne
    refine ⟨exact_rateAdj h, ?_, ?_, fun hz => absurd hz hne⟩
    · intro H tb s s' u hset
      rw [clkPer_clockRateadjSet tb hset]
      exact todInc_near h
    · intro H tb s s' t t' u v adj' h' hle hset hset'
      rw [clkPer_clockRateadjSet tb hset, clkPer_clockRateadjSet tb hset']
      exact todInc_mono h h' hle

theorem rate_adj_right_iff_one : Adjusts 1 ∧ (RateAdjRight 1 ↔ (1 : BitVec 64) ≠ 0) :=
  ⟨by decide, rate_adj_right_iff 1 (by decide)⟩

theorem not_rate_adj_right : ¬∀ adj : BitVec 64, Adjusts adj → RateAdjRight adj := fun h =>
  not_rateAdjRight_zero (h 0 (by decide))

end Lan80xx.Ts
