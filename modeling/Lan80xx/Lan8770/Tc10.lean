import Lan80xx.Lan8770.BankRules
import Lan80xx.Tc10.Settings

/-!
# LAN8770: TC10 settings

The set calls change the wake-up registers as those of the LAN887x do, but through the banks: what a read returns is the
read-data word, and what it leaves in the register is the write-data word. The mode of the `WAKE_OUT` pin is or'ed into
its field.

- `obeys`: a call leaves the other settings alone if the data words agree with the registers on them (`Fits`).
-/

namespace Lan80xx.Lan8770

open Fallible RegBus Tc10

/-! ## Registers -/

/-- `LAN8770_PCS_SLEEP_WAKE_CTL_OFFSET` -/
def pcsSleepWakeCtl : BitVec 8 := 0x1B
/-- `LAN8770_MISC_WKP_COM_CTL0_OFFSET` -/
def miscWkpComCtl0 : BitVec 8 := 0x20
/-- `LAN8770_MISC_WKP_PRT_CTL1_OFFSET` -/
def miscWkpPrtCtl1 : BitVec 8 := 0x24

/-- `WKP_COM_CTL0_VBAT_COMM_WR`, `WKP_PRT_CTL1_VBAT_PORT_WR` -/
def vbat : BitVec 16 := bit 15

/-- `LAN8770_MISC_WKP_COM_CTL0_WK_OUT_MODE_SET` -/
def wkOutModeSet (x : BitVec 16) : BitVec 16 := (x &&& 3#16) <<< 9

/-! ## The words of the calls -/

def sleepWord (enable : Bool) (v : BitVec 16) : Option (BitVec 16) :=
  some (if enable then v &&& ~~~bit 4 else v ||| bit 4)

def wakeupWords (mode : WakeupMode) (v₁ v₂ : BitVec 16) : Option (BitVec 16 × BitVec 16) :=
  let v := match mode with
    | .disable => some (v₁ &&& ~~~bit 8, v₂ &&& ~~~bit 0)
    | .wupEnable => some (v₁ ||| bit 8, v₂ &&& ~~~bit 0)
    | .wakeinEnable => some (v₁ &&& ~~~bit 8, v₂ ||| bit 0)
    | .wupWakeinEnable => some (v₁ ||| bit 8, v₂ ||| bit 0)
    | .other _ => none
  v.map fun v => (v.1 ||| vbat, v.2 ||| vbat)

def wakeupFwdWords (mode : WakeupFwdMode) (v₁ v₂ : BitVec 16) : Option (BitVec 16 × BitVec 16) :=
  let v := match mode with
    | .disable => some (v₁ &&& ~~~bit 12, v₂ &&& ~~~bit 7)
    | .wupEnable => some (v₁ ||| bit 12, v₂ &&& ~~~bit 7)
    | .wakeoutEnable => some (v₁ &&& ~~~bit 12, v₂ ||| bit 7)
    | .wupWakeoutEnable => some (v₁ ||| bit 12, v₂ ||| bit 7)
    | .other _ => none
  v.map fun v => (v.1 ||| vbat, v.2 ||| vbat)

def polarityWord (pin : Pin) (polarity : GpioMode) (v : BitVec 16) : Option (BitVec 16) :=
  match pin, polarity with
  | .wakeIn, .activeLow => some (v ||| bit 12)
  | .wakeIn, .activeHigh => some (v &&& ~~~bit 12)
  | .wakeOut, .activeLow => some (v ||| bit 11)
  | .wakeOut, .activeHigh => some (v &&& ~~~bit 11)
  | _, _ => none

def pinModeWord (pin : Pin) (mode : GpioMode) (v : BitVec 16) : Option (BitVec 16) :=
  match pin, mode with
  -- the two bits of the old mode are not cleared
  | .wakeOut, .pushPull => some (v ||| wkOutModeSet 0)
  | .wakeOut, .openSource => some (v ||| wkOutModeSet 1)
  | .wakeOut, .openDrain => some (v ||| wkOutModeSet 2)
  | .inh, .openSource => some (v &&& ~~~bit 8)
  | .inh, .openDrain => some (v ||| bit 8)
  | _, _ => none

/-! ## The calls -/

section Calls

variable {H : Type} (bus : SmiBus H) (n : Nat)

/-- The data after an accepted request. -/
def PhyData.storeTc10 (data : PhyData) (req : Request) : PhyData := { data with tc10 := data.tc10.store req }

/-- A set call about one register. -/
def setBank (bank : BitVec 16) (offset : BitVec 8) (word : BitVec 16 → Option (BitVec 16)) (req : Request) :
    Call PhyData H PUnit :=
  setOne (phyExtBankRegRd bus n bank offset) (phyExtBankRegWr bus n bank offset) .errParm word
    (modifyConf (PhyData.storeTc10 · req))

/-- A set call about both wake-up registers. -/
def setWkp (words : BitVec 16 → BitVec 16 → Option (BitVec 16 × BitVec 16)) (req : Request) : Call PhyData H PUnit :=
  setTwo (phyExtBankRegRd bus n bankMisc miscWkpPrtCtl1) (phyExtBankRegRd bus n bankMisc miscWkpComCtl0)
    (phyExtBankRegWr bus n bankMisc miscWkpPrtCtl1) (phyExtBankRegWr bus n bankMisc miscWkpComCtl0) .errParm words
    (modifyConf (PhyData.storeTc10 · req))

/-- `phy_tc10_set_sleep_support` -/
def phyTc10SetSleepSupport (enable : Bool) : Call PhyData H PUnit :=
  setBank bus n bankPcs pcsSleepWakeCtl (sleepWord enable) (.sleepSupport enable)

/-- `phy_tc10_set_wakeup_support` -/
def phyTc10SetWakeupSupport (mode : WakeupMode) : Call PhyData H PUnit :=
  setWkp bus n (wakeupWords mode) (.wakeupSupport mode)

/-- `phy_tc10_set_wakeup_fwd_support` -/
def phyTc10SetWakeupFwdSupport (mode : WakeupFwdMode) : Call PhyData H PUnit :=
  setWkp bus n (wakeupFwdWords mode) (.wakeupFwdSupport mode)

/-- `phy_tc10_set_wake_pin_polarity` -/
def phyTc10SetWakePinPolarity (pin : Pin) (polarity : GpioMode) : Call PhyData H PUnit :=
  setBank bus n bankMisc miscWkpComCtl0 (polarityWord pin polarity) (.wakePinPolarity pin polarity)

/-- `phy_tc10_set_pin_mode` -/
def phyTc10SetPinMode (pin : Pin) (mode : GpioMode) : Call PhyData H PUnit :=
  setBank bus n bankMisc miscWkpComCtl0 (pinModeWord pin mode) (.pinMode pin mode)

/-- The set call of a request. -/
def phyTc10Set : Request → Call PhyData H PUnit
  | .sleepSupport enable => phyTc10SetSleepSupport bus n enable
  | .wakeupSupport mode => phyTc10SetWakeupSupport bus n mode
  | .wakeupFwdSupport mode => phyTc10SetWakeupFwdSupport bus n mode
  | .wakePinPolarity pin polarity => phyTc10SetWakePinPolarity bus n pin polarity
  | .pinMode pin mode => phyTc10SetPinMode bus n pin mode

end Calls

/-! ## The fields -/

/-- The register behind a bank access. -/
abbrev bankReg (bank : BitVec 16) (offset : BitVec 8) : Reg := .bank (bank.setWidth 3) offset

/-- The fields of the LAN8770. -/
def layout : Layout Reg where
  common := bankReg bankMisc miscWkpComCtl0
  port := bankReg bankMisc miscWkpPrtCtl1
  sleepReg := bankReg bankPcs pcsSleepWakeCtl
  sleepBit := 4
  sleepOn := false
  low := true

def chip : Chip Reg where
  toLayout := layout
  apart st st' hne := by cases st <;> cases st' <;> first | exact absurd rfl hne | decide
  noVbat st := by cases st <;> decide

/-- The registers that a call reads, in this order. -/
def readRegs : Request → List Reg
  | .sleepSupport _ => [layout.sleepReg]
  | .wakeupSupport _ | .wakeupFwdSupport _ => [layout.port, layout.common]
  | .wakePinPolarity _ _ | .pinMode _ _ => [layout.common]

/-- The word agrees with the register on the fields of all settings, but possibly one. -/
def Agrees (m : Words) (r : Reg) (v : BitVec 16) (except : Option Setting) : Prop :=
  ∀ st, except ≠ some st → ∀ f ∈ layout.field st, f.1 = r → v &&& f.2 = m r &&& f.2

instance (m : Words) (r : Reg) (v : BitVec 16) (except : Option Setting) : Decidable (Agrees m r v except) :=
  decidable_of_iff (∀ st ∈ [Setting.sleep, .wakeup, .wakeupFwd, .wakeInPol, .wakeOutPol, .wakeOutMode, .inhMode],
    except ≠ some st → ∀ f ∈ layout.field st, f.1 = r → v &&& f.2 = m r &&& f.2)
    ⟨fun h st => h st (by cases st <;> simp), fun h st _ => h st⟩

/-- Nothing is in the way of the mode in its field: it is not the `WAKE_OUT` pin's, or has the old bits among its own. -/
def DriveFits (m : Words) : Request → Prop
  | .pinMode .wakeOut mode => ∀ x ∈ mode.drive, (m (.smi extRegRdData) ||| x <<< (9 : Nat)) &&& driveMask = x <<< (9 : Nat)
  | _ => True

/-- The data words hold the fields that a call does not set: the read-data word, from which the registers are written,
and for a request without meaning the write-data word, which the reads leave in the registers. -/
structure Fits (m : Words) (req : Request) : Prop where
  drive : DriveFits m req
  accepted : layout.encode req ≠ none → ∀ r ∈ readRegs req, Agrees m r (m (.smi extRegRdData)) req.setting
  rejected : layout.encode req = none → ∀ r ∈ readRegs req, Agrees m r (m (.smi extRegWrData)) none

section Stores

variable {v v' : BitVec 16}

theorem sleepWord_stores {enable : Bool} (h : sleepWord enable v = some v') :
    ∃ p, layout.encode (.sleepSupport enable) = some [p] ∧ p.reg = layout.sleepReg ∧ Stores p v v' := by
  refine ⟨_, rfl, rfl, ?_⟩
  cases enable <;> cases h <;> simp only [reduceIte, Bool.false_eq_true, or_eq_merge, and_not_eq_merge] <;>
    exact stores_merge v (by decide) (by decide) (by decide)

theorem polarityWord_stores {pin : Pin} {polarity : GpioMode} (h : polarityWord pin polarity v = some v') :
    ∃ p, layout.encode (.wakePinPolarity pin polarity) = some [p] ∧ p.reg = layout.common ∧ Stores p v v' := by
  cases pin <;> cases polarity <;> cases h <;> refine ⟨_, rfl, rfl, ?_⟩ <;>
    simp only [or_eq_merge, and_not_eq_merge] <;> exact stores_merge v (by decide) (by decide) (by decide)

theorem pinModeWord_stores {pin : Pin} {mode : GpioMode} {m : Words} (hfit : DriveFits m (.pinMode pin mode))
    (h : pinModeWord pin mode (m (.smi extRegRdData)) = some v') :
    ∃ p, layout.encode (.pinMode pin mode) = some [p] ∧ p.reg = layout.common ∧ Stores p (m (.smi extRegRdData)) v' := by
  cases pin with
  | wakeIn | other => cases mode <;> cases h
  | inh =>
    cases mode <;> cases h <;> refine ⟨_, rfl, rfl, ?_⟩ <;> simp only [or_eq_merge, and_not_eq_merge] <;>
      exact stores_merge _ (by decide) (by decide) (by decide)
  | wakeOut =>
    cases mode <;> cases h <;> refine ⟨_, rfl, rfl, ?_⟩ <;> exact stores_or (hfit _ rfl) (by decide)

theorem wakeupWords_stores {mode : WakeupMode} {v₁ v₂ : BitVec 16} {v' : BitVec 16 × BitVec 16}
    (h : wakeupWords mode v₁ v₂ = some v') : ∃ p₁ p₂, layout.encode (.wakeupSupport mode) = some [p₁, p₂] ∧
      p₁.reg = layout.port ∧ p₂.reg = layout.common ∧ Stores p₁ v₁ v'.1 ∧ Stores p₂ v₂ v'.2 := by
  cases mode <;> cases h <;> refine ⟨_, _, rfl, rfl, rfl, ?_, ?_⟩ <;>
    simp only [or_eq_merge, and_not_eq_merge, merge_merge] <;> exact stores_merge _ (by decide) (by decide) (by decide)

theorem wakeupFwdWords_stores {mode : WakeupFwdMode} {v₁ v₂ : BitVec 16} {v' : BitVec 16 × BitVec 16}
    (h : wakeupFwdWords mode v₁ v₂ = some v') : ∃ p₁ p₂, layout.encode (.wakeupFwdSupport mode) = some [p₁, p₂] ∧
      p₁.reg = layout.port ∧ p₂.reg = layout.common ∧ Stores p₁ v₁ v'.1 ∧ Stores p₂ v₂ v'.2 := by
  cases mode <;> cases h <;> refine ⟨_, _, rfl, rfl, rfl, ?_, ?_⟩ <;>
    simp only [or_eq_merge, and_not_eq_merge, merge_merge] <;> exact stores_merge _ (by decide) (by decide) (by decide)

end Stores

/-! ## What the calls do -/

/-- The words after a bank write. -/
abbrev wrote (m : Words) (bank : BitVec 16) (offset : BitVec 8) (v : BitVec 16) : Words :=
  commanded (staged m v) bank offset

/-- A register of a bank. -/
def IsBank (r : Reg) : Prop := ∀ offset, r ≠ .smi offset

theorem field_isBank {st : Setting} : ∀ f ∈ layout.field st, IsBank f.1 := by
  cases st <;> simp [Layout.field, layout, IsBank]

section Words

variable {m : Words} {bank : BitVec 16} {offset : BitVec 8} {r : Reg}

theorem commanded_other (hr : IsBank r) (hne : r ≠ bankReg bank offset) : commanded m bank offset r = m r :=
  commanded_of_ne m (hr _) hne

theorem commanded_smi {o : BitVec 8} (ho : o ≠ extRegCtrl) : commanded m bank offset (.smi o) = m (.smi o) :=
  commanded_of_ne m (fun he => ho (Reg.smi.inj he)) (by simp)

theorem wrote_self (v : BitVec 16) : wrote m bank offset v (bankReg bank offset) = v := by
  rw [wrote, commanded_bank, staged_eq, Function.update_self]

theorem wrote_other (v : BitVec 16) (hr : IsBank r) (hne : r ≠ bankReg bank offset) : wrote m bank offset v r = m r := by
  rw [wrote, commanded_other hr hne, staged_of_ne m v (hr _)]

end Words

section Ends

variable {H : Type} (rf : SmiRegs H) {h₀ : H} {c : PhyData} {m : Words} {n : Nat} {E : Dev PhyData H → Prop}

/-- The words after a set call about one register. -/
abbrev setBankWords (m : Words) (bank : BitVec 16) (offset : BitVec 8) (v : BitVec 16) : Words :=
  wrote (commanded m bank offset) bank offset v

theorem ends_setBank {bank : BitVec 16} {offset : BitVec 8} (h0 : bank ≠ bankSmi) (h5 : bank ≤ bankInstrument)
    (word : BitVec 16 → Option (BitVec 16)) (req : Request) (hE : ∀ s, ¬(Ready rf h₀ ∧ 200 ≤ n) → E s)
    (hreject : ∀ s, word (m (.smi extRegRdData)) = none → Sees rf h₀ c (commanded m bank offset) s → E s) :
    Ends (Sees rf h₀ c m) (setBank rf.toBus n bank offset word req)
      (fun _ s => ∃ v', word (m (.smi extRegRdData)) = some v' ∧
        Sees rf h₀ (c.storeTc10 req) (setBankWords m bank offset v') s) E := by
  unfold setBank setOne
  refine (ends_bankRd rf h0 h5 hE).bind fun v => ?_
  rintro s ⟨hs, rfl⟩
  cases hw : word (m (.smi extRegRdData)) with
  | none => exact Or.inr ⟨.errParm, s, rfl, hreject s hw hs⟩
  | some v' =>
    have hcall := (ends_bankWr rf offset (m := commanded m bank offset) h0 h5 v' hE).bind fun _ =>
      ends_modifyConf_sees rf (ε := Rc) (c := c) (PhyData.storeTc10 · req)
    exact (hcall.weaken (fun _ t ht => ⟨v', rfl, ht⟩) fun t ht => ht) s hs

/-- The words after the reads of both wake-up registers. -/
abbrev wkpReadWords (m : Words) : Words := commanded (commanded m bankMisc miscWkpPrtCtl1) bankMisc miscWkpComCtl0

/-- The words after a set call about both wake-up registers. -/
abbrev setWkpWords (m : Words) (v : BitVec 16 × BitVec 16) : Words :=
  wrote (wrote (wkpReadWords m) bankMisc miscWkpPrtCtl1 v.1) bankMisc miscWkpComCtl0 v.2

theorem ends_setWkp (words : BitVec 16 → BitVec 16 → Option (BitVec 16 × BitVec 16)) (req : Request)
    (hE : ∀ s, ¬(Ready rf h₀ ∧ 200 ≤ n) → E s)
    (hreject : ∀ s, words (m (.smi extRegRdData)) (m (.smi extRegRdData)) = none →
      Sees rf h₀ c (wkpReadWords m) s → E s) :
    Ends (Sees rf h₀ c m) (setWkp rf.toBus n words req)
      (fun _ s => ∃ v', words (m (.smi extRegRdData)) (m (.smi extRegRdData)) = some v' ∧
        Sees rf h₀ (c.storeTc10 req) (setWkpWords m v') s) E := by
  have h0 : bankMisc ≠ bankSmi := by decide
  have h5 : bankMisc ≤ bankInstrument := by decide
  have hdata : commanded m bankMisc miscWkpPrtCtl1 (.smi extRegRdData) = m (.smi extRegRdData) :=
    commanded_smi (by decide)
  unfold setWkp setTwo
  refine (ends_bankRd rf h0 h5 hE).bind fun v₁ => ?_
  rintro s ⟨hs, rfl⟩
  refine ((ends_bankRd rf h0 h5 hE).bind fun v₂ => ?_) s hs
  rintro s ⟨hs, rfl⟩
  rw [hdata]
  cases hw : words (m (.smi extRegRdData)) (m (.smi extRegRdData)) with
  | none => exact Or.inr ⟨.errParm, s, rfl, hreject s hw hs⟩
  | some v' =>
    have hcall := (ends_bankWr rf miscWkpPrtCtl1 (m := wkpReadWords m) h0 h5 v'.1 hE).bind fun _ =>
      (ends_bankWr rf miscWkpComCtl0 h0 h5 v'.2 hE).bind fun _ =>
      ends_modifyConf_sees rf (ε := Rc) (c := c) (PhyData.storeTc10 · req)
    exact (hcall.weaken (fun _ t ht => ⟨v', rfl, ht⟩) fun t ht => ht) s hs

end Ends

/-! ## Keeping the settings -/

section Keeps

variable {m : Words} {req : Request} {st : Setting}

/-- The words after an accepted request. -/
theorem Fits.settle (h : Fits m req) (m' : Words) {ps : List (Patch Reg 16)} (hst : req.setting = some st)
    (henc : layout.encode req = some ps)
    (hstore : ∀ p ∈ ps, p.reg ∈ readRegs req ∧ Stores p (m (.smi extRegRdData)) (m' p.reg))
    (helse : ∀ r, IsBank r → (∀ p ∈ ps, p.reg ≠ r) → m' r = m r) :
    layout.Encodes req m' ∧ ∀ st', st' ≠ st → layout.KeepsField st' m m' := by
  refine chip.settle hst henc (fun p hp => ⟨_, (hstore p hp).2, fun st' hne f hf hfr => ?_⟩) fun st' _ f hf hreg => ?_
  · have hset : req.setting ≠ some st' := by
      rw [hst]
      exact fun he => hne (Option.some.inj he).symm
    rw [h.accepted (by simp [henc]) p.reg (hstore p hp).1 st' hset f hf hfr, hfr]
  · rw [helse f.1 (field_isBank f hf) hreg]

/-- The words after reads that have left the write-data word in the registers. -/
theorem keeps_of_agrees {rs : List Reg} (hagree : ∀ r ∈ rs, Agrees m r (m (.smi extRegWrData)) none)
    (hread : ∀ r, IsBank r → m' r = m r ∨ r ∈ rs ∧ m' r = m (.smi extRegWrData)) (st : Setting) :
    layout.KeepsField st m m' := by
  intro f hf
  rcases hread f.1 (field_isBank f hf) with heq | ⟨hmem, heq⟩
  · rw [heq]
  · rw [heq]
    exact hagree f.1 hmem st nofun f hf rfl

end Keeps

section Obeys

variable {H : Type} (rf : SmiRegs H) {n : Nat} {req : Request}

/-- What an accepted call has done. -/
abbrev Accepted (s : Dev PhyData H) (req : Request) (t : Dev PhyData H) : Prop :=
  t.conf.tc10 = s.conf.tc10.store req ∧ ∃ st, req.setting = some st ∧ layout.Encodes req (rf.view t.hw) ∧
    ∀ st', st' ≠ st → layout.KeepsField st' (rf.view s.hw) (rf.view t.hw)

/-- What a rejected call has left alone. -/
abbrev Rejected (s t : Dev PhyData H) : Prop :=
  t.conf.tc10 = s.conf.tc10 ∧ ∀ st', layout.KeepsField st' (rf.view s.hw) (rf.view t.hw)

variable {s : Dev PhyData H} {E : Dev PhyData H → Prop} (hfits : Fits (rf.view s.hw) req)
  (hE : ∀ t, ¬(Ready rf s.hw ∧ 200 ≤ n) ∨ Rejected rf s t → E t)
include hfits hE

theorem ends_setBank_obeys {bank : BitVec 16} {offset : BitVec 8} {word : BitVec 16 → Option (BitVec 16)}
    (h0 : bank ≠ bankSmi) (h5 : bank ≤ bankInstrument) (hreads : readRegs req = [bankReg bank offset])
    (hword : ∀ v', word (rf.view s.hw (.smi extRegRdData)) = some v' → ∃ p, layout.encode req = some [p] ∧
      p.reg = bankReg bank offset ∧ Stores p (rf.view s.hw (.smi extRegRdData)) v')
    (hnone : word (rf.view s.hw (.smi extRegRdData)) = none → layout.encode req = none) :
    Ends (Sees rf s.hw s.conf (rf.view s.hw)) (setBank rf.toBus n bank offset word req) (fun _ => Accepted rf s req)
      E := by
  refine (ends_setBank rf h0 h5 word req (fun t hno => hE t (Or.inl hno)) ?_).weaken ?_ fun _ h => h
  · rintro t hw ⟨hc, -, hview⟩
    refine hE t (Or.inr ⟨by rw [hc], keeps_of_agrees (hfits.rejected (hnone hw)) fun r hb => ?_⟩)
    rw [hview, hreads]
    by_cases hr : r = bankReg bank offset
    · rw [hr, commanded_bank]
      exact Or.inr ⟨List.mem_singleton_self _, rfl⟩
    · exact Or.inl (commanded_other hb hr)
  · rintro - t ⟨v', hv, hc, -, hview⟩
    obtain ⟨p, henc, hreg, hs⟩ := hword v' hv
    obtain ⟨st, hst⟩ := Layout.setting_of_encode henc
    have hsettle := hfits.settle (setBankWords (rf.view s.hw) bank offset v') hst henc
      (fun q hq => by
        obtain rfl := List.mem_singleton.mp hq
        rw [hreg, setBankWords, wrote_self, hreads]
        exact ⟨List.mem_singleton_self _, hs⟩)
      fun r hb hne => by
        have hother : r ≠ bankReg bank offset := fun he => hne p List.mem_cons_self (hreg.trans he.symm)
        rw [setBankWords, wrote_other v' hb hother, commanded_other hb hother]
    exact ⟨by rw [hc, PhyData.storeTc10], st, hst, by rw [hview]; exact hsettle.1, by rw [hview]; exact hsettle.2⟩

theorem ends_setWkp_obeys {words : BitVec 16 → BitVec 16 → Option (BitVec 16 × BitVec 16)}
    (hreads : readRegs req = [layout.port, layout.common])
    (hwords : ∀ v₁ v₂ v', words v₁ v₂ = some v' → ∃ p₁ p₂, layout.encode req = some [p₁, p₂] ∧ p₁.reg = layout.port ∧
      p₂.reg = layout.common ∧ Stores p₁ v₁ v'.1 ∧ Stores p₂ v₂ v'.2)
    (hnone : ∀ v₁ v₂, words v₁ v₂ = none → layout.encode req = none) :
    Ends (Sees rf s.hw s.conf (rf.view s.hw)) (setWkp rf.toBus n words req) (fun _ => Accepted rf s req) E := by
  have hne : layout.port ≠ layout.common := by decide
  have hbank : IsBank layout.port := fun _ => by simp [layout]
  have hport : layout.port = bankReg bankMisc miscWkpPrtCtl1 := rfl
  have hcommon : layout.common = bankReg bankMisc miscWkpComCtl0 := rfl
  refine (ends_setWkp rf words req (fun t hno => hE t (Or.inl hno)) ?_).weaken ?_ fun _ h => h
  · rintro t hw ⟨hc, -, hview⟩
    refine hE t (Or.inr ⟨by rw [hc], keeps_of_agrees (hfits.rejected (hnone _ _ hw)) fun r hb => ?_⟩)
    rw [hview, hreads]
    by_cases hc : r = layout.common
    · rw [hc, wkpReadWords, hcommon, commanded_bank, commanded_smi (by decide)]
      exact Or.inr ⟨List.mem_cons_of_mem _ List.mem_cons_self, rfl⟩
    · rw [wkpReadWords, commanded_other hb hc]
      by_cases hp : r = layout.port
      · rw [hp, hport, commanded_bank]
        exact Or.inr ⟨List.mem_cons_self, rfl⟩
      · exact Or.inl (commanded_other hb hp)
  · rintro - t ⟨v', hv, hc, -, hview⟩
    obtain ⟨p₁, p₂, henc, hreg₁, hreg₂, hs₁, hs₂⟩ := hwords _ _ v' hv
    obtain ⟨st, hst⟩ := Layout.setting_of_encode henc
    have hsettle := hfits.settle (setWkpWords (rf.view s.hw) v') hst henc
      (fun q hq => by
        rw [hreads]
        rcases List.mem_cons.mp hq with rfl | hq
        · rw [hreg₁, setWkpWords, wrote_other v'.2 hbank hne, hport, wrote_self]
          exact ⟨List.mem_cons_self, hs₁⟩
        · obtain rfl := List.mem_singleton.mp hq
          rw [hreg₂, setWkpWords, hcommon, wrote_self]
          exact ⟨List.mem_cons_of_mem _ List.mem_cons_self, hs₂⟩)
      fun r hb hout => by
        have hp : r ≠ layout.port := fun he => hout p₁ List.mem_cons_self (hreg₁.trans he.symm)
        have hc : r ≠ layout.common := fun he => hout p₂ (List.mem_cons_of_mem _ List.mem_cons_self) (hreg₂.trans he.symm)
        rw [setWkpWords, wrote_other v'.2 hb hc, wrote_other v'.1 hb hp, wkpReadWords, commanded_other hb hc,
          commanded_other hb hp]
    exact ⟨by rw [hc, PhyData.storeTc10], st, hst, by rw [hview]; exact hsettle.1, by rw [hview]; exact hsettle.2⟩

theorem ends_phyTc10Set : Ends (Sees rf s.hw s.conf (rf.view s.hw)) (phyTc10Set rf.toBus n req)
    (fun _ => Accepted rf s req) E := by
  cases req with
  | sleepSupport enable =>
    exact ends_setBank_obeys rf hfits hE (by decide) (by decide) rfl (fun _ h => sleepWord_stores h) nofun
  | wakeupSupport mode =>
    exact ends_setWkp_obeys rf hfits hE rfl (fun _ _ _ h => wakeupWords_stores h) fun _ _ h => by
      cases mode <;> first | rfl | cases h
  | wakeupFwdSupport mode =>
    exact ends_setWkp_obeys rf hfits hE rfl (fun _ _ _ h => wakeupFwdWords_stores h) fun _ _ h => by
      cases mode <;> first | rfl | cases h
  | wakePinPolarity pin polarity =>
    exact ends_setBank_obeys rf hfits hE (by decide) (by decide) rfl (fun _ h => polarityWord_stores h) fun h => by
      cases pin <;> cases polarity <;> first | rfl | cases h
  | pinMode pin mode =>
    exact ends_setBank_obeys rf hfits hE (by decide) (by decide) rfl (fun _ h => pinModeWord_stores hfits.drive h)
      fun h => by cases pin <;> cases mode <;> first | rfl | cases h

omit hfits hE in
/-- A call on a PHY that does not answer ends in its first read. -/
theorem ends_phyTc10Set_silent (hs : Silent rf s.hw)
    (hagree : ∀ r ∈ (readRegs req).take 1, Agrees (rf.view s.hw) r (rf.view s.hw (.smi extRegWrData)) none) :
    Ends (Sees rf s.hw s.conf (rf.view s.hw)) (phyTc10Set rf.toBus n req) (fun _ => Accepted rf s req)
      (Rejected rf s) := by
  have hfails : ∀ {bank offset} {f : BitVec 16 → Call PhyData H PUnit}, bank ≠ bankSmi → bank ≤ bankInstrument →
      (readRegs req).take 1 = [bankReg bank offset] →
      Ends (Sees rf s.hw s.conf (rf.view s.hw)) (phyExtBankRegRd rf.toBus n bank offset >>= f)
        (fun _ => Accepted rf s req) (Rejected rf s) := by
    intro bank offset f h0 h5 hreads
    refine ((ends_bankRd_silent rf hs h0 h5).weaken (fun _ _ h => h) ?_).bind fun _ _ h => h.elim
    rintro t (⟨hc, -, hview⟩ | ⟨hc, -, hview⟩)
    · exact ⟨by rw [hc], fun _ _ _ => by rw [hview]⟩
    · refine ⟨by rw [hc], keeps_of_agrees hagree fun r hb => ?_⟩
      rw [hview, hreads]
      by_cases he : r = bankReg bank offset
      · rw [he, commanded_bank]
        exact Or.inr ⟨List.mem_singleton_self _, rfl⟩
      · exact Or.inl (commanded_other hb he)
  cases req <;> exact hfails (by decide) (by decide) rfl

end Obeys

/-- The PHY answers, and the data words have the fields that the call does not set; or no read is answered, and the
write-data word has all the fields of the register that is read first. -/
def Regular {H : Type} (rf : SmiRegs H) (n : Nat) (s : Dev PhyData H) (req : Request) : Prop :=
  (Ready rf s.hw ∧ 200 ≤ n ∧ Fits (rf.view s.hw) req) ∨
    (Silent rf s.hw ∧ ∀ r ∈ (readRegs req).take 1, Agrees (rf.view s.hw) r (rf.view s.hw (.smi extRegWrData)) none)

theorem obeys {H : Type} (rf : SmiRegs H) :
    Obeys (fun n => phyTc10Set rf.toBus n) chip PhyData.tc10 rf.view (Regular rf) := by
  rintro n s req (⟨hr, hn, hfits⟩ | ⟨hs, hagree⟩)
  · have hcall := ends_phyTc10Set rf (n := n) (E := Rejected rf s) hfits fun t ht => ht.resolve_left fun hno => hno ⟨hr, hn⟩
    exact hcall.pre fun t ht => ht ▸ sees_start rf s
  · exact (ends_phyTc10Set_silent rf hs hagree).pre fun t ht => ht ▸ sees_start rf s

end Lan80xx.Lan8770
