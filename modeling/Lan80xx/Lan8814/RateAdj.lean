import Lan80xx.Lan8814.Types
import Lan80xx.Lib.FixedPoint

/-!
# LAN8814: the rate of the clock

The clock of the four ports takes 2 ^ -32 nanoseconds in each of its cycles as the unit of a rate, and holds 30 bits of
them. Only the port that the clock belongs to changes it.

- `product_exact_iff`: the adjustments whose product stays within 64 bits;
- `ends_tsClockRateadjSet`: what the call writes and stores;
- `rateadj_right_iff`: the range check looks at the quotient of a product that may have wrapped.
-/

namespace Lan80xx.Lan8814

open FixedPoint Fallible RegBus

/-! ## The units of an adjustment -/

/-- `LAN8814_PTP_LTC_RATE_ADJ_HI`, `LAN8814_PTP_LTC_RATE_ADJ_LO` -/
inductive RateReg
  | hi
  | lo
  deriving DecidableEq, Repr

/-- Page and address. -/
def RateReg.addr : RateReg → Nat × Nat
  | .hi => (4, 524)
  | .lo => (4, 525)

/-- `CLK_PERIOD_250_MHZ`, in nanoseconds -/
def clkPeriod250 : BitVec 8 := 4

/-- `CLK_PERIOD_200_MHZ` -/
def clkPeriod200 : BitVec 8 := 5

/-- `period` -/
def clkPeriod : ClockFreq → BitVec 8
  | .m25 | .m250 => clkPeriod250
  | .m200 => clkPeriod200
  | _ => clkPeriod250

/-- `(1LL << 16) * period * adj_abs` -/
def adjProduct (f : ClockFreq) (adj : BitVec 64) : BitVec 64 :=
  (1#64 <<< 16 * (clkPeriod f).setWidth 64) * labs adj

/-- `adj_val` -/
def adjVal (f : ClockFreq) (adj : BitVec 64) : BitVec 64 := adjProduct f adj / 1000000000#64

/-- The word of `RATE_ADJ_HI`: `DIR`, and the upper bits. -/
def rateHi (f : ClockFreq) (adj : BitVec 64) : BitVec 16 :=
  (if 0 < adj.toInt then bit 15 else 0#16) ||| (0x3FFF#16 &&& (adjVal f adj >>> 16).setWidth 16)

/-- The word of `RATE_ADJ_LO`. -/
def rateLo (f : ClockFreq) (adj : BitVec 64) : BitVec 16 := (adjVal f adj).setWidth 16

/-! ## The call -/

/-- What the call looks at and stores: whether `base_dev` is the port itself, the frequency of the clock, and
`rate_adj`. -/
structure RateConf where
  isBase : Bool
  clkFreq : ClockFreq
  rateAdj : BitVec 64
  deriving DecidableEq, Repr

/-- The registers of the rate, on a device that keeps their words. -/
abbrev RateRegs (H : Type) := RegFile RateReg 16 H (fun _ => False) fun _ => False

section Call

variable {H : Type} (bus : Bus RateReg 16 H)

/-- `EP_WRM` of all bits: the code is not looked at. -/
def rateWr (r : RateReg) (val : BitVec 16) : Call RateConf H Unit := do
  let _ ← attempt (writeMasked bus Rc.access r val defMask)
  return ()

/-- `lan8814_ts_clock_rateadj_set` -/
def tsClockRateadjSet (adj : BitVec 64) : Call RateConf H Unit := do
  let c ← getConf
  when (c.isBase = true ∧ ¬(adjVal c.clkFreq adj).toNat ≥ 2 ^ 30) do
    rateWr bus .hi (rateHi c.clkFreq adj)
    rateWr bus .lo (rateLo c.clkFreq adj)
    modifyConf fun c => { c with rateAdj := adj }

/-- `lan8814_ts_clock_rateadj_get` -/
def tsClockRateadjGet : Call RateConf H (BitVec 64) := do
  let c ← getConf
  return c.rateAdj

theorem tsClockRateadjGet_eq (s : Dev RateConf H) : tsClockRateadjGet s = .ok s.conf.rateAdj s := rfl

end Call

section Ends

variable {H : Type} (rf : RateRegs H) {h₀ : H} {c : RateConf} {m : RateReg → BitVec 16} {E : Dev RateConf H → Prop}

theorem ends_rateWr (hs : rf.Sound h₀) (r : RateReg) (val : BitVec 16) :
    Ends (Holds rf h₀ c m) (rateWr rf.toBus r val) (fun _ => Holds rf h₀ c (Function.update m r val)) E := by
  have hmask : Patch.apply m ⟨r, val, defMask⟩ = Function.update m r val := by
    have hones : defMask = BitVec.allOnes 16 := rfl
    simp only [Patch.apply, hones, merge_allOnes]
  refine (Ends.attempt (ends_writeMasked_holds rf Rc.access r val defMask id)).bind fun o => Ends.pure fun s h => ?_
  rcases h with ⟨_, -, h⟩ | ⟨-, h⟩
  · rwa [hmask] at h
  · exact absurd hs h

/-- An adjustment that is accepted, on a device that carries out its accesses. -/
theorem ends_tsClockRateadjSet (hs : rf.Sound h₀) {adj : BitVec 64} (hbase : c.isBase = true)
    (hlt : (adjVal c.clkFreq adj).toNat < 2 ^ 30) : Ends (Holds rf h₀ c m) (tsClockRateadjSet rf.toBus adj)
      (fun _ => Holds rf h₀ { c with rateAdj := adj }
        (Function.update (Function.update m .hi (rateHi c.clkFreq adj)) .lo (rateLo c.clkFreq adj))) E := by
  apply ends_getConf_bind (c := c) fun _ h => h.1
  refine Ends.when (fun _ => ?_) fun hno => absurd ⟨hbase, by omega⟩ hno
  apply (ends_rateWr rf hs _ _).bind fun _ => ?_
  apply (ends_rateWr rf hs _ _).bind fun _ => ?_
  exact ends_modifyConf_holds rf _

/-- An adjustment that is refused, and one that is made on another port. -/
theorem tsClockRateadjSet_refused {s : Dev RateConf H} {adj : BitVec 64}
    (h : s.conf.isBase = false ∨ 2 ^ 30 ≤ (adjVal s.conf.clkFreq adj).toNat) :
    tsClockRateadjSet rf.toBus adj s = .ok () s := by
  have hcond : ¬(s.conf.isBase = true ∧ ¬(adjVal s.conf.clkFreq adj).toNat ≥ 2 ^ 30) := by
    rintro ⟨hbase, hlt⟩
    rcases h with h | h
    · exact absurd (hbase.symm.trans h) (by decide)
    · exact hlt h
  show (when (s.conf.isBase = true ∧ ¬(adjVal s.conf.clkFreq adj).toNat ≥ 2 ^ 30) _ : Call RateConf H Unit) s = _
  rw [when, if_neg hcond]
  rfl

end Ends

/-! ## What the registers say -/

/-- The 30 bits of the rate. -/
def rateField (m : RateReg → BitVec 16) : Nat := (m .hi).toNat % 2 ^ 14 * 2 ^ 16 + (m .lo).toNat

/-- `LAN8814_PTP_LTC_RATE_ADJ_HI_DIR` -/
def rateDir (m : RateReg → BitVec 16) : Bool := (m .hi).getLsbD 15

section Words

variable {f : ClockFreq} {adj : BitVec 64}

theorem clkPeriod_cases (f : ClockFreq) : (clkPeriod f).toNat = 4 ∨ (clkPeriod f).toNat = 5 := by
  cases f <;> decide

/-- The product is the one of the integers where that has 64 bits. -/
theorem product_exact_iff : (adjProduct f adj).toNat = 2 ^ 16 * (clkPeriod f).toNat * adj.toInt.natAbs ↔
    2 ^ 16 * (clkPeriod f).toNat * adj.toInt.natAbs < 2 ^ 64 := by
  have hunit : (1#64 <<< 16 * (clkPeriod f).setWidth 64).toNat = 2 ^ 16 * (clkPeriod f).toNat := by
    cases f <;> decide
  have h := mul_toNat_iff (x := 1#64 <<< 16 * (clkPeriod f).setWidth 64) (y := labs adj)
  rwa [hunit, labs_toNat] at h

theorem adjVal_toNat (h : 2 ^ 16 * (clkPeriod f).toNat * adj.toInt.natAbs < 2 ^ 64) :
    (adjVal f adj).toNat = 2 ^ 16 * (clkPeriod f).toNat * adj.toInt.natAbs / 1000000000 := by
  have hbillion : (1000000000#64).toNat = 1000000000 := rfl
  rw [adjVal, BitVec.toNat_udiv, product_exact_iff.mpr h, hbillion]

/-- The fields of the two words, written and then read. -/
theorem rateHi_field : (rateHi f adj).toNat % 2 ^ 14 = (adjVal f adj).toNat / 2 ^ 16 % 2 ^ 14 := by
  have hmask (d x : BitVec 16) (hd : d &&& 0x3FFF#16 = 0#16) :
      (d ||| (0x3FFF#16 &&& x)) &&& 0x3FFF#16 = x &&& 0x3FFF#16 := by
    rw [BitVec.and_or_distrib_right, hd, BitVec.zero_or, BitVec.and_comm 0x3FFF#16, BitVec.and_assoc, BitVec.and_self]
  have hdir : (if 0 < adj.toInt then bit 15 else 0#16) &&& 0x3FFF#16 = 0#16 := by
    split <;> decide
  have hmod (x : BitVec 16) : x.toNat % 2 ^ 14 = (x &&& 0x3FFF#16).toNat := by
    rw [BitVec.toNat_and]
    exact (Nat.and_two_pow_sub_one_eq_mod _ 14).symm
  rw [hmod, rateHi, hmask _ _ hdir, ← hmod, BitVec.toNat_setWidth, BitVec.toNat_ushiftRight, Nat.shiftRight_eq_div_pow]
  omega

theorem rateHi_dir : (rateHi f adj).getLsbD 15 = decide (0 < adj.toInt) := by
  have hlow : (0x3FFF#16).getLsbD 15 = false := by decide
  rw [rateHi, BitVec.getLsbD_or, BitVec.getLsbD_and, hlow, Bool.false_and, Bool.or_false]
  by_cases h : 0 < adj.toInt
  · rw [if_pos h, decide_eq_true h]
    decide
  · rw [if_neg h, decide_eq_false h]
    decide

theorem rateField_words (m : RateReg → BitVec 16) (h : (adjVal f adj).toNat < 2 ^ 30) :
    rateField (Function.update (Function.update m .hi (rateHi f adj)) .lo (rateLo f adj)) = (adjVal f adj).toNat := by
  have hlo : (rateLo f adj).toNat = (adjVal f adj).toNat % 2 ^ 16 := BitVec.toNat_setWidth ..
  rw [rateField, Function.update_self, Function.update_of_ne (by decide), Function.update_self, rateHi_field, hlo]
  omega

end Words

/-! ## What an adjustment has to do -/

/-- No step wraps; the adjustment is accepted when the rate has 30 bits, and then the registers and the stored rate are
those of the adjustment; otherwise they stay as they were. The call is made on the port that the clock belongs to, and
the device carries out its accesses. -/
structure RateadjRight (f : ClockFreq) (adj : BitVec 64) : Prop where
  absolute : (labs adj).toInt = |adj.toInt|
  product : (adjProduct f adj).toNat = 2 ^ 16 * (clkPeriod f).toNat * adj.toInt.natAbs
  accepted : 2 ^ 16 * (clkPeriod f).toNat * adj.toInt.natAbs / 1000000000 < 2 ^ 30 →
    ∀ {H : Type} (rf : RateRegs H) (s : Dev RateConf H), rf.Sound s.hw → s.conf.isBase = true → s.conf.clkFreq = f →
      ∃ s', tsClockRateadjSet rf.toBus adj s = .ok () s' ∧
        rateField (rf.peek s'.hw) = 2 ^ 16 * (clkPeriod f).toNat * adj.toInt.natAbs / 1000000000 ∧
        rateDir (rf.peek s'.hw) = decide (0 < adj.toInt) ∧ s'.conf = { s.conf with rateAdj := adj } ∧
        tsClockRateadjGet s' = .ok adj s'
  refused : 2 ^ 30 ≤ 2 ^ 16 * (clkPeriod f).toNat * adj.toInt.natAbs / 1000000000 →
    ∀ {H : Type} (rf : RateRegs H) (s : Dev RateConf H), rf.Sound s.hw → s.conf.isBase = true → s.conf.clkFreq = f →
      ∃ s', tsClockRateadjSet rf.toBus adj s = .ok () s' ∧ rf.peek s'.hw = rf.peek s.hw ∧ s'.conf = s.conf

/-- **An adjustment is right exactly when its product has 64 bits.** -/
theorem rateadj_right_iff (f : ClockFreq) (adj : BitVec 64) :
    RateadjRight f adj ↔ 2 ^ 16 * (clkPeriod f).toNat * adj.toInt.natAbs < 2 ^ 64 := by
  constructor
  · intro h
    exact product_exact_iff.mp h.product
  intro h
  have hval := adjVal_toNat h
  have hsmall : adj.toInt ≠ -2 ^ 63 := by
    intro hmin
    rcases clkPeriod_cases f with hp | hp <;> rw [hp, hmin] at h <;> omega
  refine ⟨(labs_toInt_iff (by decide)).mpr hsmall, product_exact_iff.mpr h, ?_, ?_⟩
  · intro hlt H rf s hs hbase hf
    rw [← hval, ← hf] at hlt ⊢
    have hrun : Ends (Holds rf s.hw s.conf (rf.peek s.hw)) (tsClockRateadjSet rf.toBus adj) _ fun _ => False :=
      ends_tsClockRateadjSet rf hs hbase hlt
    rcases hrun s (holds_start rf s) with ⟨_, s', hok, hconf, -, hpeek⟩ | ⟨_, _, -, hno⟩
    · have hwords : rf.peek s'.hw = _ := funext fun q => hpeek q id
      refine ⟨s', hok, ?_, ?_, hconf, ?_⟩
      · rw [hwords]
        exact rateField_words _ hlt
      · rw [hwords, rateDir, Function.update_of_ne (by decide), Function.update_self]
        exact rateHi_dir
      · rw [tsClockRateadjGet_eq, hconf]
    · exact hno.elim
  · intro hge H rf s _ _ hf
    rw [← hval, ← hf] at hge
    exact ⟨s, tsClockRateadjSet_refused rf (.inr hge), rfl, rfl⟩

/-- The port of a clock at 250 MHz. -/
def rateStart : Dev RateConf (RateReg → BitVec 16) := ⟨⟨true, .m250, 0⟩, fun _ => 0#16⟩

/-- At 250 MHz, the product of `2 ^ 46` wraps to zero, and the adjustment is accepted. -/
theorem not_rateadj_right : ¬∀ (f : ClockFreq) (adj : BitVec 64), RateadjRight f adj := by
  intro h
  let rf : RateRegs (RateReg → BitVec 16) := storage (fun _ => False) fun _ => False
  have hsound : rf.Sound rateStart.hw := storage_sound
  obtain ⟨s', hok, -, hconf⟩ :=
    (h .m250 0x400000000000).refused (by decide +kernel) rf rateStart hsound rfl rfl
  have hrun : Ends (Holds rf rateStart.hw rateStart.conf (rf.peek rateStart.hw)) (tsClockRateadjSet rf.toBus 0x400000000000)
      _ fun _ => False := ends_tsClockRateadjSet rf hsound rfl (by decide +kernel)
  have hstored : s'.conf = { rateStart.conf with rateAdj := 0x400000000000 } :=
    (hrun.ok (holds_start rf rateStart) hok).1
  have hrate := congrArg RateConf.rateAdj (hconf.symm.trans hstored)
  exact absurd hrate (by decide)

end Lan80xx.Lan8814
