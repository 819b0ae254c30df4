import Lan80xx.Lan8770.Types

/-!
# LAN8770: loopbacks

A loopback is switched by a read-modify-write of which value and mask are the register's own word with the bit set or
cleared. A cleared bit is not in that mask, so that the read-modify-write keeps it: a loopback is never switched off.

- `ends_loopbackSet`: the words after a call;
- `loopback_honoured_iff`: when a call leaves the bits as requested and all others alone;
- `loopbacks_match`: every run of such calls does.
-/

namespace Lan80xx.Lan8770

open Fallible RegBus

variable {H : Type}

/-! ## The call -/

/-- `LAN8770_BASIC_CTRL_PCS_LOOPBACK` -/
def pcsLoopback : BitVec 16 := bit 14

/-- `LAN8770_LPBK_CTRL_FAR` -/
def lpbkCtrlFar : BitVec 16 := bit 9

/-- `LAN8770_LPBK_CTRL_PMA` -/
def lpbkCtrlPma : BitVec 16 := bit 0

def PhyData.setLoopback (loopback : Loopback) (d : PhyData) : PhyData := { d with loopback := loopback }

section Calls

variable (bus : SmiBus H) (fuel : Nat)

/-- The part of the call about one loopback: the register, its bit, and what is requested and stored. -/
def switchLoopback (rd : Call PhyData H (BitVec 16)) (offset : BitVec 8) (flag : BitVec 16) (ena was : Bool) :
    Call PhyData H Unit :=
  if ena then do
    let val ← rd
    phyReadModWriteRegister bus fuel bankSmi offset (val ||| flag) (val ||| flag)
  else when was do
    let val ← rd
    phyReadModWriteRegister bus fuel bankSmi offset (val &&& ~~~flag) (val &&& ~~~flag)

/-- `lan8770_loopback_set` -/
def loopbackSet (loopback : Loopback) : Call PhyData H Unit := do
  let d ← getConf
  switchLoopback bus fuel (phyDirectRegRd bus basicControl) basicControl pcsLoopback
    loopback.nearEndEna d.loopback.nearEndEna
  switchLoopback bus fuel (phyExtBankRegRd bus fuel bankSmi loopbackCtrl) loopbackCtrl lpbkCtrlFar
    loopback.farEndEna d.loopback.farEndEna
  switchLoopback bus fuel (phyExtBankRegRd bus fuel bankSmi loopbackCtrl) loopbackCtrl lpbkCtrlPma
    loopback.connectorEna d.loopback.connectorEna
  modifyConf (PhyData.setLoopback loopback)

end Calls

/-! ## The words after a call -/

theorem modified_self (val flag : BitVec 16) : modified val (val ||| flag) (val ||| flag) = val ||| flag := by
  rw [modified_eq]
  ext b hb
  simp only [BitVec.getElem_and, BitVec.getElem_or, BitVec.getElem_not]
  cases val[b] <;> cases flag[b] <;> rfl

/-- The cleared bit comes back. -/
theorem modified_cleared (val flag : BitVec 16) : modified val (val &&& ~~~flag) (val &&& ~~~flag) = val := by
  rw [modified_eq]
  ext b hb
  simp only [BitVec.getElem_and, BitVec.getElem_or, BitVec.getElem_not]
  cases val[b] <;> cases flag[b] <;> rfl

/-- The words after the part about one loopback. -/
def Words.switched (m : Words) (offset : BitVec 8) (flag : BitVec 16) (ena was : Bool) : Words :=
  if ena then m.write offset (m (.smi offset) ||| flag)
  else if was then m.write offset (m (.smi offset)) else m

/-- The words after a call. -/
def Words.looped (m : Words) (loopback was : Loopback) : Words :=
  ((m.switched basicControl pcsLoopback loopback.nearEndEna was.nearEndEna).switched loopbackCtrl lpbkCtrlFar
    loopback.farEndEna was.farEndEna).switched loopbackCtrl lpbkCtrlPma loopback.connectorEna was.connectorEna

section Ends

variable (rf : SmiRegs H) {h₀ : H} {c : PhyData} {m : Words} {fuel : Nat}

variable (h₀ c m fuel) in
theorem ends_modify_smi {offset : BitVec 8} (ho : ¬Volatile offset) (value mask : BitVec 16) :
    Ends (Sees rf h₀ c m) (phyReadModWriteRegister rf.toBus fuel bankSmi offset value mask)
      (fun _ => Sees rf h₀ c (m.write offset (modified (m (.smi offset)) value mask))) fun _ => True := by
  refine (ends_directRd rf ho fun _ _ _ => trivial).bind fun val => ?_
  rintro s ⟨hs, rfl⟩
  exact ends_directWr rf offset _ (fun _ _ _ => trivial) s hs

theorem ends_switchLoopback {rd : Call PhyData H (BitVec 16)} {offset : BitVec 8} (ho : ¬Volatile offset)
    (hrd : rd = phyDirectRegRd rf.toBus offset) (flag : BitVec 16) (ena was : Bool) :
    Ends (Sees rf h₀ c m) (switchLoopback rf.toBus fuel rd offset flag ena was)
      (fun _ => Sees rf h₀ c (m.switched offset flag ena was)) fun _ => True := by
  subst hrd
  unfold switchLoopback
  refine Ends.ite (fun hena => ?_) fun hena => ?_
  · have hwords : m.switched offset flag ena was = m.write offset (m (.smi offset) ||| flag) := if_pos hena
    refine (ends_directRd rf ho fun _ _ _ => trivial).bind fun val => ?_
    rintro s ⟨hs, rfl⟩
    have hmod := ends_modify_smi rf h₀ c m fuel ho (m (.smi offset) ||| flag)
      (m (.smi offset) ||| flag) s hs
    rwa [modified_self, ← hwords] at hmod
  · refine Ends.when (fun hwas => ?_) fun hwas s hs => ?_
    · have hwords : m.switched offset flag ena was = m.write offset (m (.smi offset)) := by
        rw [Words.switched, if_neg hena, if_pos hwas]
      refine (ends_directRd rf ho fun _ _ _ => trivial).bind fun val => ?_
      rintro s ⟨hs, rfl⟩
      have hmod := ends_modify_smi rf h₀ c m fuel ho (m (.smi offset) &&& ~~~flag)
        (m (.smi offset) &&& ~~~flag) s hs
      rwa [modified_cleared, ← hwords] at hmod
    · rwa [Words.switched, if_neg hena, if_neg hwas]

/-- The words and the data after a successful call. -/
theorem ends_loopbackSet (loopback : Loopback) :
    Ends (Sees rf h₀ c m) (loopbackSet rf.toBus fuel loopback)
      (fun _ => Sees rf h₀ (c.setLoopback loopback) (m.looped loopback c.loopback)) fun _ => True := by
  have hext : (phyExtBankRegRd rf.toBus fuel bankSmi loopbackCtrl : Call PhyData H _) =
      phyDirectRegRd rf.toBus loopbackCtrl := if_pos rfl
  refine ends_getConf_sees rf ?_
  refine (ends_switchLoopback rf (by decide) rfl _ _ _).bind fun _ => ?_
  refine (ends_switchLoopback rf (by decide) hext _ _ _).bind fun _ => ?_
  exact (ends_switchLoopback rf (by decide) hext _ _ _).bind fun _ => ends_modifyConf_sees rf _

end Ends

/-! ## What a call should do -/

/-- The loopback bits are as requested, and every other bit of the two registers is as before. -/
structure Honoured (m : Words) (loopback : Loopback) (m' : Words) : Prop where
  nearEnd : (m' (.smi basicControl)).getLsbD 14 = loopback.nearEndEna
  farEnd : (m' (.smi loopbackCtrl)).getLsbD 9 = loopback.farEndEna
  pma : (m' (.smi loopbackCtrl)).getLsbD 0 = loopback.connectorEna
  basicKept : ∀ i, i ≠ 14 → (m' (.smi basicControl)).getLsbD i = (m (.smi basicControl)).getLsbD i
  ctrlKept : ∀ i, i ≠ 9 → i ≠ 0 → (m' (.smi loopbackCtrl)).getLsbD i = (m (.smi loopbackCtrl)).getLsbD i

/-- Every loopback that is not requested is off already; the basic control register is not written during a reset. -/
structure NoneSwitchedOff (m : Words) (loopback was : Loopback) : Prop where
  nearEnd : loopback.nearEndEna = false → (m (.smi basicControl)).getLsbD 14 = false
  farEnd : loopback.farEndEna = false → (m (.smi loopbackCtrl)).getLsbD 9 = false
  pma : loopback.connectorEna = false → (m (.smi loopbackCtrl)).getLsbD 0 = false
  noReset : loopback.nearEndEna = true ∨ was.nearEndEna = true → (m (.smi basicControl)).getLsbD 15 = false

section Words

variable {m : Words} {loopback was : Loopback}

theorem switched_of_ne {offset : BitVec 8} {r : Reg} (ho : offset ≠ extRegCtrl) (hr : r ≠ .smi offset) (flag : BitVec 16)
    (ena was : Bool) : m.switched offset flag ena was r = m r := by
  unfold Words.switched
  split
  · rw [Words.write_of_ne ho, Function.update_of_ne hr]
  · split
    · rw [Words.write_of_ne ho, Function.update_of_ne hr]
    · rfl

theorem switched_self {offset : BitVec 8} (ho : offset ≠ extRegCtrl) (hb : offset ≠ basicControl) (flag : BitVec 16)
    (ena was : Bool) : m.switched offset flag ena was (.smi offset) =
      if ena then m (.smi offset) ||| flag else m (.smi offset) := by
  unfold Words.switched
  split
  · rw [Words.write_of_ne ho, Function.update_self, latched_of_ne hb]
  · split
    · rw [Words.write_of_ne ho, Function.update_self, latched_of_ne hb]
    · rfl

variable (m loopback was) in
theorem looped_basic : m.looped loopback was (.smi basicControl) =
    m.switched basicControl pcsLoopback loopback.nearEndEna was.nearEndEna (.smi basicControl) := by
  rw [Words.looped, switched_of_ne (by decide) (by decide), switched_of_ne (by decide) (by decide)]

theorem looped_ctrl_getLsbD (i : Nat) : (m.looped loopback was (.smi loopbackCtrl)).getLsbD i =
    ((m (.smi loopbackCtrl)).getLsbD i || (loopback.farEndEna && decide (i = 9)) ||
      (loopback.connectorEna && decide (i = 0))) := by
  have hbit : ∀ (x : BitVec 16) (ena : Bool) (b : Nat), b < 16 →
      (if ena then x ||| bit b else x).getLsbD i = (x.getLsbD i || (ena && decide (i = b))) := by
    intro x ena b hb
    cases ena with
    | true => simp [BitVec.getLsbD_or, bit_getLsbD hb]
    | false => simp
  rw [Words.looped, switched_self (by decide) (by decide), lpbkCtrlPma, hbit _ _ _ (by decide),
    switched_self (by decide) (by decide), lpbkCtrlFar, hbit _ _ _ (by decide),
    switched_of_ne (by decide) (by decide)]

/-- The near-end bit and the rest of the basic control register. -/
theorem switched_basic_iff (ena was : Bool) :
    ((m.switched basicControl pcsLoopback ena was (.smi basicControl)).getLsbD 14 = ena ∧
      ∀ i, i ≠ 14 → (m.switched basicControl pcsLoopback ena was (.smi basicControl)).getLsbD i =
        (m (.smi basicControl)).getLsbD i) ↔
    (ena = false → (m (.smi basicControl)).getLsbD 14 = false) ∧
      (ena = true ∨ was = true → (m (.smi basicControl)).getLsbD 15 = false) := by
  have hor : ∀ i, (m (.smi basicControl) ||| pcsLoopback).getLsbD i =
      ((m (.smi basicControl)).getLsbD i || decide (i = 14)) := fun i => by
    rw [BitVec.getLsbD_or, pcsLoopback, bit_getLsbD (by decide)]
  by_cases hwritten : ena = true ∨ was = true
  · have hword : m.switched basicControl pcsLoopback ena was (.smi basicControl) =
        latched basicControl (if ena then m (.smi basicControl) ||| pcsLoopback else m (.smi basicControl)) := by
      unfold Words.switched
      split
      · rw [Words.write_of_ne (by decide), Function.update_self]
      · next hena =>
        rw [if_pos (hwritten.resolve_left hena), Words.write_of_ne (by decide), Function.update_self]
    have hbits : ∀ i, (if ena then m (.smi basicControl) ||| pcsLoopback else m (.smi basicControl)).getLsbD i =
        ((m (.smi basicControl)).getLsbD i || (ena && decide (i = 14))) := by
      intro i
      cases ena with
      | true => simp [hor]
      | false => simp
    rw [hword]
    cases hreset : (m (.smi basicControl)).getLsbD 15 with
    | true =>
      -- the reset bit is written back, and does not stay set
      have hdefault : latched basicControl (if ena then m (.smi basicControl) ||| pcsLoopback
          else m (.smi basicControl)) = basicControlDefault := if_pos ⟨rfl, by rw [hbits, hreset]; rfl⟩
      rw [hdefault]
      refine ⟨fun h => ?_, fun h => absurd (h.2 hwritten) (by simp)⟩
      have hbit := h.2 15 (by decide)
      rw [hreset] at hbit
      cases hbit
    | false =>
      have hplain : latched basicControl (if ena then m (.smi basicControl) ||| pcsLoopback
          else m (.smi basicControl)) = if ena then m (.smi basicControl) ||| pcsLoopback else m (.smi basicControl) :=
        if_neg fun h => by
          have hbit := h.2
          rw [hbits, hreset] at hbit
          simp at hbit
      rw [hplain]
      simp only [hbits]
      cases ena with
      | true => exact ⟨fun _ => ⟨by simp, by simp⟩, fun _ => ⟨by simp, fun i hi => by simp [hi]⟩⟩
      | false => simp
  · have hena : ena = false := by
      cases ena with
      | true => exact absurd (Or.inl rfl) hwritten
      | false => rfl
    have hwas : was = false := by
      cases was with
      | true => exact absurd (Or.inr rfl) hwritten
      | false => rfl
    simp [Words.switched, hena, hwas]

/-- When a call leaves the bits as requested and all others alone. -/
theorem looped_honoured_iff : Honoured m loopback (m.looped loopback was) ↔ NoneSwitchedOff m loopback was := by
  have hbasic := switched_basic_iff (m := m) loopback.nearEndEna was.nearEndEna
  rw [← looped_basic m loopback was] at hbasic
  constructor
  · intro h
    obtain ⟨hnear, hreset⟩ := hbasic.mp ⟨h.nearEnd, h.basicKept⟩
    have hfar := h.farEnd
    have hpma := h.pma
    rw [looped_ctrl_getLsbD] at hfar hpma
    refine ⟨hnear, fun hoff => ?_, fun hoff => ?_, hreset⟩
    · simpa [hoff] using hfar
    · simpa [hoff] using hpma
  · intro h
    obtain ⟨hnear, hkept⟩ := hbasic.mpr ⟨h.nearEnd, h.noReset⟩
    refine ⟨hnear, ?_, ?_, hkept, fun i h9 h0 => ?_⟩
    · rw [looped_ctrl_getLsbD]
      cases hf : loopback.farEndEna with
      | true => simp
      | false =>
        rw [h.farEnd hf]
        simp
    · rw [looped_ctrl_getLsbD]
      cases hp : loopback.connectorEna with
      | true => simp
      | false =>
        rw [h.pma hp]
        simp
    · rw [looped_ctrl_getLsbD]
      simp [h9, h0]

end Words

/-! ## Runs -/

/-- A successful call, or an update by the PHY itself, and the loopbacks last requested. `P` restricts the calls. -/
inductive LoopbackStep (rf : SmiRegs H) (P : Dev PhyData H → Loopback → Prop) :
    Dev PhyData H × Option Loopback → Dev PhyData H × Option Loopback → Prop
  | set {s s' : Dev PhyData H} {last : Option Loopback} {fuel : Nat} {loopback : Loopback} : P s loopback →
      loopbackSet rf.toBus fuel loopback s = .ok () s' → LoopbackStep rf P (s, last) (s', some loopback)
  | drift {s : Dev PhyData H} {last : Option Loopback} {h : H} : rf.drift s.hw h →
      LoopbackStep rf P (s, last) ({ s with hw := h }, last)

abbrev LoopbackRun (rf : SmiRegs H) (P : Dev PhyData H → Loopback → Prop) :
    Dev PhyData H × Option Loopback → Dev PhyData H × Option Loopback → Prop :=
  Relation.ReflTransGen (LoopbackStep rf P)

/-- The loopback bits are as last requested; the other bits of the two registers are as they were at the start. -/
structure LoopbacksMatch (m₀ : Words) (last : Option Loopback) (m : Words) : Prop where
  bits : ∀ loopback ∈ last, (m (.smi basicControl)).getLsbD 14 = loopback.nearEndEna ∧
    (m (.smi loopbackCtrl)).getLsbD 9 = loopback.farEndEna ∧ (m (.smi loopbackCtrl)).getLsbD 0 = loopback.connectorEna
  basicKept : ∀ i, i ≠ 14 → (m (.smi basicControl)).getLsbD i = (m₀ (.smi basicControl)).getLsbD i
  ctrlKept : ∀ i, i ≠ 9 → i ≠ 0 → (m (.smi loopbackCtrl)).getLsbD i = (m₀ (.smi loopbackCtrl)).getLsbD i

/-- The call switches nothing off. -/
def SwitchesOn (rf : SmiRegs H) (s : Dev PhyData H) (loopback : Loopback) : Prop :=
  NoneSwitchedOff (rf.view s.hw) loopback s.conf.loopback

section Runs

variable {rf : SmiRegs H} {s s' : Dev PhyData H} {fuel : Nat} {loopback : Loopback}

theorem loopbackSet_view (hok : loopbackSet rf.toBus fuel loopback s = .ok () s') :
    rf.view s'.hw = (rf.view s.hw).looped loopback s.conf.loopback :=
  ((ends_loopbackSet rf loopback).ok (sees_start rf s) hok).2.2

/-- When a call leaves the bits as requested and all others alone. -/
theorem loopback_honoured_iff (hok : loopbackSet rf.toBus fuel loopback s = .ok () s') :
    Honoured (rf.view s.hw) loopback (rf.view s'.hw) ↔ SwitchesOn rf s loopback := by
  rw [loopbackSet_view hok]
  exact looped_honoured_iff

theorem LoopbackStep.match {m₀ : Words} {x y : Dev PhyData H × Option Loopback}
    (hstep : LoopbackStep rf (SwitchesOn rf) x y) (h : LoopbacksMatch m₀ x.2 (rf.view x.1.hw)) :
    LoopbacksMatch m₀ y.2 (rf.view y.1.hw) := by
  cases hstep with
  | set hP hok =>
    have hh := (loopback_honoured_iff hok).mpr hP
    refine ⟨?_, fun i hi => (hh.basicKept i hi).trans (h.basicKept i hi),
      fun i h9 h0 => (hh.ctrlKept i h9 h0).trans (h.ctrlKept i h9 h0)⟩
    rintro lb ⟨⟩
    exact ⟨hh.nearEnd, hh.farEnd, hh.pma⟩
  | drift hd =>
    have hview := rf.view_drift _ _ hd
    exact ⟨by rw [hview]; exact h.bits, by rw [hview]; exact h.basicKept, by rw [hview]; exact h.ctrlKept⟩

/-- In every run of successful calls none of which switches a loopback off, the loopback bits are as last requested, and
no other bit of their registers has changed. -/
theorem loopbacks_match (rf : SmiRegs H) {s₀ s : Dev PhyData H} {last : Option Loopback}
    (hrun : LoopbackRun rf (SwitchesOn rf) (s₀, none) (s, last)) :
    LoopbacksMatch (rf.view s₀.hw) last (rf.view s.hw) := by
  have hinv : ∀ y, LoopbackRun rf (SwitchesOn rf) (s₀, none) y →
      LoopbacksMatch (rf.view s₀.hw) y.2 (rf.view y.1.hw) := by
    intro y hy
    induction hy with
    | refl => exact ⟨by simp, fun _ _ => rfl, fun _ _ _ => rfl⟩
    | tail _ hstep ih => exact hstep.match ih
  exact hinv _ hrun

end Runs

/-! ### The near-end loopback on, and off again -/

/-- A PHY that answers, with all registers 0. -/
def loopStart : Dev PhyData Phy := ⟨probed, ⟨fun _ => 0, some 0, 0⟩⟩

def nearEndOn : Loopback := ⟨false, true, false⟩

def allOff : Loopback := ⟨false, false, false⟩

abbrev loopSet (loopback : Loopback) (s : Dev PhyData Phy) : Dev PhyData Phy :=
  final (loopbackSet (smiPhy (steadyLink (some 0))).toBus 0 loopback) s

theorem loopSet_on : loopbackSet (smiPhy (steadyLink (some 0))).toBus 0 nearEndOn loopStart =
    .ok () (loopSet nearEndOn loopStart) := rfl

theorem loopbacks_match_on : LoopbacksMatch (fun _ => 0) (some nearEndOn)
    ((smiPhy (steadyLink (some 0))).view (loopSet nearEndOn loopStart).hw) := by
  have hP : SwitchesOn (smiPhy (steadyLink (some 0))) loopStart nearEndOn :=
    ⟨fun _ => rfl, fun _ => rfl, fun _ => rfl, fun _ => rfl⟩
  exact loopbacks_match (smiPhy (steadyLink (some 0))) (.single (.set (s := loopStart) hP loopSet_on))

/-- The near-end loopback is switched on and off: its bit is still set. -/
theorem not_loopbacks_match : ¬∀ (s₀ s : Dev PhyData Phy) (last : Option Loopback),
    LoopbackRun (smiPhy (steadyLink (some 0))) (fun _ _ => True) (s₀, none) (s, last) →
      LoopbacksMatch s₀.hw.words last s.hw.words := by
  intro h
  have hoff : loopbackSet (smiPhy (steadyLink (some 0))).toBus 0 allOff (loopSet nearEndOn loopStart) =
      .ok () (loopSet allOff (loopSet nearEndOn loopStart)) := rfl
  have hon : LoopbackStep (smiPhy (steadyLink (some 0))) (fun _ _ => True) (loopStart, none)
      (loopSet nearEndOn loopStart, some nearEndOn) := .set trivial loopSet_on
  have hrun := (Relation.ReflTransGen.single hon).tail (.set trivial hoff)
  have hbit := ((h _ _ _ hrun).bits allOff rfl).1
  have hreg : ((loopSet allOff (loopSet nearEndOn loopStart)).hw.words (.smi basicControl)).getLsbD 14 = true := by decide
  rw [hreg] at hbit
  cases hbit

end Lan80xx.Lan8770
