import Lan80xx.Tc10.Settings
import Lan80xx.Lib.RegView

/-!
# LAN887x: TC10 settings

The set calls read the common register `MISC32`, and for the wake-up modes the port register `MISC36` as well, change
their fields and write the words back. A wake-up or forwarding mode that is none is taken for the last one of the switch.

- `tc10_coherent`: in every run of calls with such modes left out, the fields hold what was accepted last.
-/

namespace Lan80xx.Lan887x

open Fallible RegBus Tc10

variable {H : Type}

/-! ## Registers -/

/-- `LAN887X_DEV30_COMMON_TC10_MISC32` -/
def misc32 : BitVec 16 := 0x0C24

/-- `LAN887X_DEV30_COMMON_TC10_MISC36` -/
def misc36 : BitVec 16 := 0x0C27

/-- `BIT` -/
def bit (x : Nat) : BitVec 16 := 1#16 <<< x

/-- `MISC32_VBAT_COM_WR`, `MISC36_VBAT_PORT_WR` -/
def vbat : BitVec 16 := bit 15

/-- `MISC32_WK_OUT_MODE_SET` -/
def wkOutModeSet (x : BitVec 16) : BitVec 16 := (x &&& 3#16) <<< 9

/-- The registers of the MMD `VEND1`. -/
abbrev Vend1 (H : Type) := WordBus (BitVec 16) 16 H

/-- A return code other than OK. -/
inductive Rc
  | errParm
  | access (rc : Int)
  deriving DecidableEq, Repr

/-- A call; of the driver's data, only `tc10_cfg` counts. -/
abbrev Call (H α : Type) := EStateM Rc (Dev Data H) α

/-! ## The words of the calls -/

/-- `lan887x_phy_tc10_set_sleep_support` -/
def sleepWord (enable : Bool) (v : BitVec 16) : Option (BitVec 16) :=
  some ((if enable then v ||| bit 2 else v &&& ~~~bit 2) ||| vbat)

/-- `lan887x_phy_tc10_set_wakeup_support` -/
def wakeupWords (mode : WakeupMode) (v₁ v₂ : BitVec 16) : Option (BitVec 16 × BitVec 16) :=
  let v := match mode with
    | .disable => (v₁ &&& ~~~bit 8, v₂ &&& ~~~bit 0)
    | .wupEnable => (v₁ ||| bit 8, v₂ &&& ~~~bit 0)
    | .wakeinEnable => (v₁ &&& ~~~bit 8, v₂ ||| bit 0)
    | _ => (v₁ ||| bit 8, v₂ ||| bit 0)
  some (v.1 ||| vbat, v.2 ||| vbat)

/-- `lan887x_phy_tc10_set_wakeup_fwd_support` -/
def wakeupFwdWords (mode : WakeupFwdMode) (v₁ v₂ : BitVec 16) : Option (BitVec 16 × BitVec 16) :=
  let v := match mode with
    | .disable => (v₁ &&& ~~~bit 12, v₂ &&& ~~~bit 7)
    | .wupEnable => (v₁ ||| bit 12, v₂ &&& ~~~bit 7)
    | .wakeoutEnable => (v₁ &&& ~~~bit 12, v₂ ||| bit 7)
    | _ => (v₁ ||| bit 12, v₂ ||| bit 7)
  some (v.1 ||| vbat, v.2 ||| vbat)

/-- `lan887x_phy_tc10_set_wake_pin_polarity` -/
def polarityWord (pin : Pin) (polarity : GpioMode) (v : BitVec 16) : Option (BitVec 16) :=
  match pin, polarity with
  | .wakeIn, .activeLow => some ((v &&& ~~~bit 12) ||| vbat)
  | .wakeIn, .activeHigh => some ((v ||| bit 12) ||| vbat)
  | .wakeOut, .activeLow => some ((v &&& ~~~bit 11) ||| vbat)
  | .wakeOut, .activeHigh => some ((v ||| bit 11) ||| vbat)
  | _, _ => none

/-- `lan887x_phy_tc10_set_pin_mode` -/
def pinModeWord (pin : Pin) (mode : GpioMode) (v : BitVec 16) : Option (BitVec 16) :=
  match pin, mode with
  | .wakeOut, .pushPull => some (((v &&& ~~~wkOutModeSet 3) ||| wkOutModeSet 0) ||| vbat)
  | .wakeOut, .openSource => some (((v &&& ~~~wkOutModeSet 3) ||| wkOutModeSet 1) ||| vbat)
  | .wakeOut, .openDrain => some (((v &&& ~~~wkOutModeSet 3) ||| wkOutModeSet 2) ||| vbat)
  | .inh, .openSource => some ((v &&& ~~~bit 8) ||| vbat)
  | .inh, .openDrain => some ((v ||| bit 8) ||| vbat)
  | _, _ => none

/-! ## The calls -/

section Calls

variable (bus : Bus (BitVec 16) 16 H)

/-- `phy_mmd_reg_rd` of `VEND1` -/
def mmdRegRd (r : BitVec 16) : Call H (BitVec 16) := read bus Rc.access r

/-- `phy_mmd_reg_wr` of `VEND1` -/
def mmdRegWr (r v : BitVec 16) : Call H Unit := write bus Rc.access r v

/-- A set call about `MISC32`. -/
def setMisc32 (word : BitVec 16 → Option (BitVec 16)) (req : Request) : Call H PUnit :=
  setOne (mmdRegRd bus misc32) (mmdRegWr bus misc32) .errParm word (modifyConf (Data.store · req))

/-- A set call about `MISC36` and `MISC32`. -/
def setBoth (words : BitVec 16 → BitVec 16 → Option (BitVec 16 × BitVec 16)) (req : Request) : Call H PUnit :=
  setTwo (mmdRegRd bus misc36) (mmdRegRd bus misc32) (mmdRegWr bus misc36) (mmdRegWr bus misc32) .errParm words
    (modifyConf (Data.store · req))

/-- The set calls of the driver. -/
def tc10Set : Request → Call H PUnit
  | .sleepSupport enable => setMisc32 bus (sleepWord enable) (.sleepSupport enable)
  | .wakeupSupport mode => setBoth bus (wakeupWords mode) (.wakeupSupport mode)
  | .wakeupFwdSupport mode => setBoth bus (wakeupFwdWords mode) (.wakeupFwdSupport mode)
  | .wakePinPolarity pin polarity => setMisc32 bus (polarityWord pin polarity) (.wakePinPolarity pin polarity)
  | .pinMode pin mode => setMisc32 bus (pinModeWord pin mode) (.pinMode pin mode)

end Calls

/-! ## The fields -/

/-- The fields of the LAN887x. -/
def layout : Layout (BitVec 16) where
  common := misc32
  port := misc36
  sleepReg := misc32
  sleepBit := 2
  sleepOn := true
  low := false

def chip : Chip (BitVec 16) where
  toLayout := layout
  apart st st' hne := by
    have hall : ((layout.field st).all fun f =>
        (layout.field st').all fun f' => f.1 = f'.1 → f'.2 &&& f.2 = 0#16) = true := by
      cases st <;> cases st' <;> first | exact absurd rfl hne | decide
    simpa only [List.all_eq_true, decide_eq_true_eq] using hall
  noVbat st := forall_mem_of_all (by cases st <;> decide)

/-- A wake-up or forwarding mode that is one. -/
def IsMode : Request → Prop
  | .wakeupSupport mode => mode.sources ≠ none
  | .wakeupFwdSupport mode => mode.sinks ≠ none
  | _ => True

theorem sleepWord_stores {enable : Bool} {v v' : BitVec 16} (h : sleepWord enable v = some v') :
    ∃ p, layout.encode (.sleepSupport enable) = some [p] ∧ p.reg = misc32 ∧ Stores p v v' := by
  refine ⟨_, rfl, rfl, ?_⟩
  cases enable <;> cases h <;> simp only [reduceIte, Bool.false_eq_true, or_eq_merge, and_not_eq_merge, merge_merge] <;>
    exact stores_merge v (by decide) (by decide) (by decide)

theorem polarityWord_stores {pin : Pin} {polarity : GpioMode} {v v' : BitVec 16} (h : polarityWord pin polarity v = some v') :
    ∃ p, layout.encode (.wakePinPolarity pin polarity) = some [p] ∧ p.reg = misc32 ∧ Stores p v v' := by
  cases pin <;> cases polarity <;> cases h <;> refine ⟨_, rfl, rfl, ?_⟩ <;>
    simp only [or_eq_merge, and_not_eq_merge, merge_merge] <;> exact stores_merge v (by decide) (by decide) (by decide)

theorem pinModeWord_stores {pin : Pin} {mode : GpioMode} {v v' : BitVec 16} (h : pinModeWord pin mode v = some v') :
    ∃ p, layout.encode (.pinMode pin mode) = some [p] ∧ p.reg = misc32 ∧ Stores p v v' := by
  cases pin <;> cases mode <;> cases h <;> refine ⟨_, rfl, rfl, ?_⟩ <;>
    simp only [or_eq_merge, and_not_eq_merge, merge_merge] <;> exact stores_merge v (by decide) (by decide) (by decide)

theorem wakeupWords_stores {mode : WakeupMode} {v₁ v₂ : BitVec 16} {v' : BitVec 16 × BitVec 16} (hmode : mode.sources ≠ none)
    (h : wakeupWords mode v₁ v₂ = some v') : ∃ p₁ p₂, layout.encode (.wakeupSupport mode) = some [p₁, p₂] ∧
      p₁.reg = misc36 ∧ p₂.reg = misc32 ∧ Stores p₁ v₁ v'.1 ∧ Stores p₂ v₂ v'.2 := by
  cases mode with
  | other code => exact absurd rfl hmode
  | _ =>
    cases h
    refine ⟨_, _, rfl, rfl, rfl, ?_, ?_⟩ <;> simp only [or_eq_merge, and_not_eq_merge, merge_merge] <;>
      exact stores_merge _ (by decide) (by decide) (by decide)

theorem wakeupFwdWords_stores {mode : WakeupFwdMode} {v₁ v₂ : BitVec 16} {v' : BitVec 16 × BitVec 16}
    (hmode : mode.sinks ≠ none) (h : wakeupFwdWords mode v₁ v₂ = some v') :
    ∃ p₁ p₂, layout.encode (.wakeupFwdSupport mode) = some [p₁, p₂] ∧
      p₁.reg = misc36 ∧ p₂.reg = misc32 ∧ Stores p₁ v₁ v'.1 ∧ Stores p₂ v₂ v'.2 := by
  cases mode with
  | other code => exact absurd rfl hmode
  | _ =>
    cases h
    refine ⟨_, _, rfl, rfl, rfl, ?_, ?_⟩ <;> simp only [or_eq_merge, and_not_eq_merge, merge_merge] <;>
      exact stores_merge _ (by decide) (by decide) (by decide)

/-! ## What the calls do -/

section Ends

variable (rf : Vend1 H) {h₀ : H} {c : Data} {m : BitVec 16 → BitVec 16}

/-- What a call leaves behind when it fails: everything as it was, unless a write has failed. -/
abbrev Untouched (h₀ : H) (c : Data) (m : BitVec 16 → BitVec 16) (s : Dev Data H) : Prop :=
  ¬rf.WritesGo h₀ ∨ Sees rf h₀ c m s

theorem ends_setMisc32 (word : BitVec 16 → Option (BitVec 16)) (req : Request) :
    Ends (Sees rf h₀ c m) (setMisc32 rf.toBus word req)
      (fun _ s => ∃ v', word (m misc32) = some v' ∧ Sees rf h₀ (c.store req) (Function.update m misc32 v') s)
      (Untouched rf h₀ c m) := by
  unfold setMisc32 setOne
  refine (ends_read_sees rf Rc.access misc32 fun s _ hs => Or.inr hs).bind fun v => ?_
  rintro s ⟨hs, rfl⟩
  cases hw : word (m misc32) with
  | none => exact Or.inr ⟨.errParm, s, rfl, Or.inr hs⟩
  | some v' =>
    have hwrite := ends_write_sees rf Rc.access (c := c) (m := m) (E := Untouched rf h₀ c m) misc32 v'
      fun _ hno _ => Or.inl hno
    have hkeep := hwrite.bind fun _ => ends_modifyConf_sees rf (ε := Rc) (E := Untouched rf h₀ c m) (Data.store · req)
    exact (hkeep.weaken (fun _ t ht => ⟨v', rfl, ht⟩) fun t ht => ht) s hs

theorem ends_setBoth (words : BitVec 16 → BitVec 16 → Option (BitVec 16 × BitVec 16)) (req : Request) :
    Ends (Sees rf h₀ c m) (setBoth rf.toBus words req)
      (fun _ s => ∃ v', words (m misc36) (m misc32) = some v' ∧
        Sees rf h₀ (c.store req) (Function.update (Function.update m misc36 v'.1) misc32 v'.2) s)
      (Untouched rf h₀ c m) := by
  unfold setBoth setTwo
  refine (ends_read_sees rf Rc.access misc36 fun s _ hs => Or.inr hs).bind fun v₁ => ?_
  rintro s ⟨hs, rfl⟩
  refine ((ends_read_sees rf Rc.access misc32 fun s _ hs => Or.inr hs).bind fun v₂ => ?_) s hs
  rintro s ⟨hs, rfl⟩
  cases hw : words (m misc36) (m misc32) with
  | none => exact Or.inr ⟨.errParm, s, rfl, Or.inr hs⟩
  | some v' =>
    have hwrite₁ := ends_write_sees rf Rc.access (c := c) (m := m) (E := Untouched rf h₀ c m) misc36 v'.1
      fun _ hno _ => Or.inl hno
    have hwrite₂ := ends_write_sees rf Rc.access (c := c) (m := Function.update m misc36 v'.1)
      (E := Untouched rf h₀ c m) misc32 v'.2 fun _ hno _ => Or.inl hno
    have hkeep := hwrite₁.bind fun _ => hwrite₂.bind fun _ =>
      ends_modifyConf_sees rf (ε := Rc) (E := Untouched rf h₀ c m) (Data.store · req)
    exact (hkeep.weaken (fun _ t ht => ⟨v', rfl, ht⟩) fun t ht => ht) s hs

end Ends

/-- The call's mode is one, and no write of it fails. -/
def Regular (rf : Vend1 H) (_ : Unit) (s : Dev Data H) (req : Request) : Prop := IsMode req ∧ rf.WritesGo s.hw

section Runs

variable (rf : Vend1 H)

/-- An accepted call about one register. -/
theorem settle_one {req : Request} {st : Setting} {p : Patch (BitVec 16) 16} {m : BitVec 16 → BitVec 16} {v' : BitVec 16}
    (hst : req.setting = some st) (henc : layout.encode req = some [p]) (hreg : p.reg = misc32)
    (hs : Stores p (m misc32) v') : layout.Encodes req (Function.update m misc32 v') ∧
      ∀ st', st' ≠ st → layout.KeepsField st' m (Function.update m misc32 v') := by
  refine chip.settle hst henc (fun q hq => ?_) fun st' _ f _ hf => ?_
  · obtain rfl := List.mem_singleton.mp hq
    refine ⟨m misc32, by rw [hreg, Function.update_self]; exact hs, fun st' _ f _ hfr => ?_⟩
    rw [hfr, hreg]
  · have hne : f.1 ≠ misc32 := fun he => hf p List.mem_cons_self (hreg.trans he.symm)
    rw [Function.update_of_ne hne]

theorem settle_both {req : Request} {st : Setting} {p₁ p₂ : Patch (BitVec 16) 16} {m : BitVec 16 → BitVec 16}
    {v' : BitVec 16 × BitVec 16} (hst : req.setting = some st) (henc : layout.encode req = some [p₁, p₂])
    (hreg₁ : p₁.reg = misc36) (hreg₂ : p₂.reg = misc32) (hs₁ : Stores p₁ (m misc36) v'.1)
    (hs₂ : Stores p₂ (m misc32) v'.2) :
    layout.Encodes req (Function.update (Function.update m misc36 v'.1) misc32 v'.2) ∧ ∀ st', st' ≠ st →
      layout.KeepsField st' m (Function.update (Function.update m misc36 v'.1) misc32 v'.2) := by
  have hne : misc36 ≠ misc32 := by decide
  refine chip.settle hst henc (fun q hq => ?_) fun st' _ f _ hf => ?_
  · rcases List.mem_cons.mp hq with rfl | hq
    · refine ⟨m misc36, by rw [hreg₁, Function.update_of_ne hne, Function.update_self]; exact hs₁, fun st' _ f _ hfr => ?_⟩
      rw [hfr, hreg₁]
    · obtain rfl := List.mem_singleton.mp hq
      refine ⟨m misc32, by rw [hreg₂, Function.update_self]; exact hs₂, fun st' _ f _ hfr => ?_⟩
      rw [hfr, hreg₂]
  · have h₁ : f.1 ≠ misc36 := fun he => hf p₁ List.mem_cons_self (hreg₁.trans he.symm)
    have h₂ : f.1 ≠ misc32 := fun he => hf p₂ (List.mem_cons_of_mem _ List.mem_cons_self) (hreg₂.trans he.symm)
    rw [Function.update_of_ne h₂, Function.update_of_ne h₁]

/-- What a call leaves behind when it returns. -/
abbrev Accepted (s : Dev Data H) (req : Request) (t : Dev Data H) : Prop :=
  t.conf = s.conf.store req ∧ ∃ st, req.setting = some st ∧ layout.Encodes req (rf.view t.hw) ∧
    ∀ st', st' ≠ st → layout.KeepsField st' (rf.view s.hw) (rf.view t.hw)

theorem ends_setMisc32_accepted {word : BitVec 16 → Option (BitVec 16)} {req : Request} (s : Dev Data H)
    (hword : ∀ v v', word v = some v' → ∃ p, layout.encode req = some [p] ∧ p.reg = misc32 ∧ Stores p v v') :
    Ends (Sees rf s.hw s.conf (rf.view s.hw)) (setMisc32 rf.toBus word req) (fun _ => Accepted rf s req)
      (Untouched rf s.hw s.conf (rf.view s.hw)) := by
  refine (ends_setMisc32 rf word req).weaken ?_ fun t ht => ht
  rintro - t ⟨v', hv, hc, -, hview⟩
  obtain ⟨p, henc, hreg, hs⟩ := hword _ _ hv
  obtain ⟨st, hst⟩ := Layout.setting_of_encode henc
  have hsettle := settle_one hst henc hreg hs
  exact ⟨hc, st, hst, by rw [hview]; exact hsettle.1, by rw [hview]; exact hsettle.2⟩

theorem ends_setBoth_accepted {words : BitVec 16 → BitVec 16 → Option (BitVec 16 × BitVec 16)} {req : Request}
    (s : Dev Data H) (hwords : ∀ v₁ v₂ v', words v₁ v₂ = some v' → ∃ p₁ p₂, layout.encode req = some [p₁, p₂] ∧
      p₁.reg = misc36 ∧ p₂.reg = misc32 ∧ Stores p₁ v₁ v'.1 ∧ Stores p₂ v₂ v'.2) :
    Ends (Sees rf s.hw s.conf (rf.view s.hw)) (setBoth rf.toBus words req) (fun _ => Accepted rf s req)
      (Untouched rf s.hw s.conf (rf.view s.hw)) := by
  refine (ends_setBoth rf words req).weaken ?_ fun t ht => ht
  rintro - t ⟨v', hv, hc, -, hview⟩
  obtain ⟨p₁, p₂, henc, hreg₁, hreg₂, hs₁, hs₂⟩ := hwords _ _ _ hv
  obtain ⟨st, hst⟩ := Layout.setting_of_encode henc
  have hsettle := settle_both hst henc hreg₁ hreg₂ hs₁ hs₂
  exact ⟨hc, st, hst, by rw [hview]; exact hsettle.1, by rw [hview]; exact hsettle.2⟩

theorem ends_tc10Set (s : Dev Data H) {req : Request} (hmode : IsMode req) :
    Ends (Sees rf s.hw s.conf (rf.view s.hw)) (tc10Set rf.toBus req) (fun _ => Accepted rf s req)
      (Untouched rf s.hw s.conf (rf.view s.hw)) := by
  cases req with
  | sleepSupport enable => exact ends_setMisc32_accepted rf s fun _ _ h => sleepWord_stores h
  | wakeupSupport mode => exact ends_setBoth_accepted rf s fun _ _ _ h => wakeupWords_stores hmode h
  | wakeupFwdSupport mode => exact ends_setBoth_accepted rf s fun _ _ _ h => wakeupFwdWords_stores hmode h
  | wakePinPolarity pin polarity => exact ends_setMisc32_accepted rf s fun _ _ h => polarityWord_stores h
  | pinMode pin mode => exact ends_setMisc32_accepted rf s fun _ _ h => pinModeWord_stores h

theorem obeys : Obeys (fun _ => tc10Set rf.toBus) chip id rf.view (Regular rf) := by
  rintro - s req ⟨hmode, hgo⟩
  refine ((ends_tc10Set rf s hmode).weaken (fun _ t ht => ht) fun t ht => ?_).pre fun t ht => ht ▸ sees_start rf s
  rcases ht with hno | ⟨hc, -, hv⟩
  · exact absurd hgo hno
  · exact ⟨hc, fun st' f _ => by rw [hv]⟩

end Runs

end Lan80xx.Lan887x
