import Lan80xx.Lan8770.Types

/-!
# LAN8770: events

`event_enable_set` keeps the enabled events and writes the interrupt mask register with the events that the call names,
whether it enables or disables them; `event_status_poll` returns the interrupt source register as it is.

- `eventEnableSet_agrees_iff`: when a call leaves mask register and enabled events in agreement;
- `events_agree`: every run of such calls does.
-/

namespace Lan80xx.Lan8770

open Fallible RegBus

variable {H : Type}

/-! ## The calls -/

/-- `ev_mask` after `n` rounds; `LAN8770_BIT` is made of an `unsigned int`. -/
def evMask (event : BitVec 32) : Nat → BitVec 16
  | 0 => 0
  | i + 1 => if event &&& (1#32 <<< i) ≠ 0#32 then evMask event i ||| bit i else evMask event i

/-- `INTR_BIT_LEN` -/
def intrBitLen : Nat := 8

/-- The enabled events after a call. -/
def eventsAfter (events event : BitVec 32) (enable : Bool) : BitVec 32 :=
  if enable then events ||| event else events &&& ~~~event

def PhyData.setEvents (events : BitVec 32) (d : PhyData) : PhyData := { d with events := events }

section Calls

variable (bus : SmiBus H)

/-- `lan8770_event_enable_set` -/
def eventEnableSet (event : BitVec 32) (enable : Bool) : Call PhyData H Unit := do
  let d ← getConf
  modifyConf (PhyData.setEvents (eventsAfter d.events event enable))
  phyDirectRegWr bus intrMask (evMask event intrBitLen)

/-- `lan8770_event_enable_get` -/
def eventEnableGet : Call PhyData H (BitVec 32) := do
  return (← getConf).events

/-- `lan8770_event_status_poll`: the return code if it is not OK, and the status, which is 0 then. -/
def eventStatusPoll : Call PhyData H (Option Rc × BitVec 32) := fun s =>
  match phyDirectRegRd bus intrSrc s with
  | .ok val s' => .ok (none, val.setWidth 32) s'
  | .error e s' => .ok (some e, 0#32) s'

end Calls

/-! ## The mask of a call -/

theorem evMask_getLsbD (event : BitVec 32) {n : Nat} (hn : n ≤ 16) (i : Nat) :
    (evMask event n).getLsbD i = (decide (i < n) && event.getLsbD i) := by
  induction n with
  | zero => simp [evMask]
  | succ n ih =>
    have htest : event &&& (1#32 <<< n) ≠ 0#32 ↔ event.getLsbD n = true := by
      rw [Ne, and_one_shiftLeft_eq_zero_iff event (by omega : n < 32), Bool.not_eq_false]
    have hlt : i < n + 1 ↔ i < n ∨ i = n := by omega
    simp only [evMask, htest]
    split
    · next h =>
      rw [BitVec.getLsbD_or, ih (by omega), bit_getLsbD (by omega)]
      by_cases hi : i = n
      · simp [hi, h]
      · simp [hlt, hi]
    · next h =>
      rw [ih (by omega)]
      by_cases hi : i = n
      · simp [hi, h]
      · simp [hlt, hi]

/-! ## Mask register and enabled events -/

/-- The low 16 events are those of the word. -/
def Mirrors (mask : BitVec 16) (events : BitVec 32) : Prop := ∀ i < 16, mask.getLsbD i = events.getLsbD i

/-- The interrupt mask register has the bits of the events that `event_enable_get` reports. -/
def EventsAgree (rf : SmiRegs H) (s : Dev PhyData H) : Prop := Mirrors (rf.view s.hw (.smi intrMask)) s.conf.events

/-- The events that the call names are the ones that are enabled after it, and, when the register could not be written,
those that it has are. -/
def EventsFit (rf : SmiRegs H) (s : Dev PhyData H) (event : BitVec 32) (enable : Bool) : Prop :=
  (rf.view (rf.wr intrMask (evMask event intrBitLen) s.hw).2 = rf.view s.hw ∧
    Mirrors (rf.view s.hw (.smi intrMask)) (eventsAfter s.conf.events event enable)) ∨
  (rf.view (rf.wr intrMask (evMask event intrBitLen) s.hw).2 =
      (rf.view s.hw).write intrMask (evMask event intrBitLen) ∧
    ∀ i < 16, (decide (i < 8) && event.getLsbD i) = (eventsAfter s.conf.events event enable).getLsbD i)

/-- The interrupt source register reports enabled events only. -/
def SourceEnabled (rf : SmiRegs H) (s : Dev PhyData H) : Prop :=
  ∀ v, (rf.rd intrSrc s.hw).1 = .ok v → v.setWidth 32 &&& ~~~s.conf.events = 0#32

/-- A call, whatever it returns, or an update by the PHY itself. `P` restricts the calls of `event_enable_set`. -/
inductive EventStep (rf : SmiRegs H) (P : Dev PhyData H → BitVec 32 → Bool → Prop) : Dev PhyData H → Dev PhyData H → Prop
  | set (s : Dev PhyData H) (event : BitVec 32) (enable : Bool) : P s event enable →
      EventStep rf P s (final (eventEnableSet rf.toBus event enable) s)
  | get (s : Dev PhyData H) : EventStep rf P s (final eventEnableGet s)
  | poll (s : Dev PhyData H) : EventStep rf P s (final (eventStatusPoll rf.toBus) s)
  | drift {s : Dev PhyData H} {h : H} : rf.drift s.hw h → EventStep rf P s { s with hw := h }

abbrev EventRun (rf : SmiRegs H) (P : Dev PhyData H → BitVec 32 → Bool → Prop) :
    Dev PhyData H → Dev PhyData H → Prop := Relation.ReflTransGen (EventStep rf P)

section Runs

variable {rf : SmiRegs H} {s s' : Dev PhyData H} {event : BitVec 32} {enable : Bool}

theorem final_eventEnableSet : final (eventEnableSet rf.toBus event enable) s =
    ⟨s.conf.setEvents (eventsAfter s.conf.events event enable),
      (rf.wr intrMask (evMask event intrBitLen) s.hw).2⟩ := by
  have hmod : (modifyConf (PhyData.setEvents (eventsAfter s.conf.events event enable)) : Call PhyData H PUnit) s =
      .ok () { s with conf := s.conf.setEvents (eventsAfter s.conf.events event enable) } := rfl
  rw [eventEnableSet, final, bind_of_ok (show getConf s = .ok s.conf s from rfl), bind_of_ok hmod]
  exact final_write rf.toBus Rc.access intrMask _ _

/-- When a call leaves mask register and enabled events in agreement. -/
theorem eventEnableSet_agrees_iff : EventsAgree rf (final (eventEnableSet rf.toBus event enable) s) ↔
    EventsFit rf s event enable := by
  have hword : ((rf.view s.hw).write intrMask (evMask event intrBitLen)) (.smi intrMask) = evMask event 8 := by
    rw [Words.write_of_ne (by decide), Function.update_self, latched_of_ne (by decide)]
    rfl
  have hmirrors : Mirrors (evMask event 8) (eventsAfter s.conf.events event enable) ↔
      ∀ i < 16, (decide (i < 8) && event.getLsbD i) = (eventsAfter s.conf.events event enable).getLsbD i := by
    simp only [Mirrors, evMask_getLsbD event (by decide : 8 ≤ 16)]
  have hview : rf.view (rf.wr intrMask (evMask event intrBitLen) s.hw).2 = rf.view s.hw ∨
      rf.view (rf.wr intrMask (evMask event intrBitLen) s.hw).2 =
        (rf.view s.hw).write intrMask (evMask event intrBitLen) := by
    cases hw : (rf.wr intrMask (evMask event intrBitLen) s.hw).1 with
    | ok u => exact Or.inr (rf.view_wr_ok _ _ _ hw)
    | error e => exact rf.view_wr_error _ _ _ e hw
  rw [EventsAgree, final_eventEnableSet]
  constructor
  · intro h
    rcases hview with hv | hv
    · exact Or.inl ⟨hv, hv ▸ h⟩
    · refine Or.inr ⟨hv, hmirrors.mp ?_⟩
      rw [hv, hword] at h
      exact h
  · rintro (⟨hv, h⟩ | ⟨hv, h⟩)
    · rw [hv]
      exact h
    · rw [hv, hword]
      exact hmirrors.mpr h

theorem EventsAgree.of_view (h : EventsAgree rf s) (hc : s'.conf = s.conf) (hv : rf.view s'.hw = rf.view s.hw) :
    EventsAgree rf s' := by
  rw [EventsAgree, hc, hv]
  exact h

theorem final_eventStatusPoll :
    final (eventStatusPoll rf.toBus) s = { s with hw := (rf.rd intrSrc s.hw).2 } := by
  have hread := final_read (C := PhyData) rf.toBus Rc.access intrSrc s
  simp only [final, eventStatusPoll, phyDirectRegRd] at hread ⊢
  cases hr : (RegBus.read rf.toBus Rc.access intrSrc : Call PhyData H _) s with
  | ok v t => simpa [hr] using hread
  | error e t => simpa [hr] using hread

/-- A poll reports enabled events only, exactly when the source register does. -/
theorem eventStatusPoll_enabled_iff {res : Option Rc × BitVec 32} (hok : eventStatusPoll rf.toBus s = .ok res s') :
    res.2 &&& ~~~s.conf.events = 0#32 ↔ SourceEnabled rf s := by
  simp only [eventStatusPoll, phyDirectRegRd] at hok
  cases hv : (rf.rd intrSrc s.hw).1 with
  | ok v =>
    rw [read_eq_ok rf.toBus Rc.access hv] at hok
    cases hok
    simp [SourceEnabled, hv]
  | error e =>
    have hr : (RegBus.read rf.toBus Rc.access intrSrc : Call PhyData H _) s =
        .error (.access e) { s with hw := (rf.rd intrSrc s.hw).2 } := by
      simp only [RegBus.read]
      rcases hrd : rf.rd intrSrc s.hw with ⟨_ | _, h'⟩ <;> simp_all
    rw [hr] at hok
    cases hok
    simp [SourceEnabled, hv]

theorem EventStep.agrees (hstep : EventStep rf (EventsFit rf) s s') (h : EventsAgree rf s) : EventsAgree rf s' := by
  cases hstep with
  | set event enable hfit => exact eventEnableSet_agrees_iff.mpr hfit
  | get => exact h
  | poll =>
    rw [final_eventStatusPoll]
    exact h.of_view rfl (rf.view_rd intrSrc s.hw)
  | drift hd => exact h.of_view rfl (rf.view_drift _ _ hd)

/-- In every run of calls that name the very events which are enabled after them, the mask register has the bits of the
enabled events, and a poll reports enabled events only as long as the source register does. -/
theorem events_agree (rf : SmiRegs H) {s₀ s : Dev PhyData H} (hstart : EventsAgree rf s₀)
    (hrun : EventRun rf (EventsFit rf) s₀ s) : EventsAgree rf s ∧
      ∀ res s', eventStatusPoll rf.toBus s = .ok res s' → (res.2 &&& ~~~s.conf.events = 0#32 ↔ SourceEnabled rf s) := by
  refine ⟨?_, fun res s' hok => eventStatusPoll_enabled_iff hok⟩
  induction hrun with
  | refl => exact hstart
  | tail _ hstep ih => exact hstep.agrees ih

end Runs

/-! ### One event after the other -/

/-- A PHY that answers, with all registers 0. -/
def benchStart : Dev PhyData Phy := ⟨probed, ⟨fun _ => 0, some 0, 0⟩⟩

abbrev benchSet (event : BitVec 32) (enable : Bool) (s : Dev PhyData Phy) : Dev PhyData Phy :=
  final (eventEnableSet (smiPhy (steadyLink (some 0))).toBus event enable) s

theorem bench_agrees : EventsAgree (smiPhy (steadyLink (some 0))) benchStart := by
  intro i _
  simp [benchStart, smiPhy, probed]

theorem events_agree_first : EventsAgree (smiPhy (steadyLink (some 0))) (benchSet 1 true benchStart) := by
  have hfit : EventsFit (smiPhy (steadyLink (some 0))) benchStart 1 true := Or.inr ⟨rfl, by decide⟩
  exact (events_agree _ bench_agrees (.single (.set benchStart 1 true hfit))).1

/-- Event 1 is enabled, then event 2: the mask register has event 2 only. -/
theorem not_events_agree : ¬∀ s₀ s : Dev PhyData Phy, EventsAgree (smiPhy (steadyLink (some 0))) s₀ →
    EventRun (smiPhy (steadyLink (some 0))) (fun _ _ _ => True) s₀ s → EventsAgree (smiPhy (steadyLink (some 0))) s := by
  intro h
  have hrun : EventRun (smiPhy (steadyLink (some 0))) (fun _ _ _ => True) benchStart
      (benchSet 2 true (benchSet 1 true benchStart)) :=
    (Relation.ReflTransGen.single (.set benchStart 1 true trivial)).tail (.set _ 2 true trivial)
  have hbit := h _ _ bench_agrees hrun 0 (by decide)
  cases hbit

end Lan80xx.Lan8770
