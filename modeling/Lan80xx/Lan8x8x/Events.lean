import Lan80xx.T1.Types
import Mathlib.Tactic.FinCases

/-!
# LAN8x8x: events

`event_enable_set` walks through the enabled events from bit 0 upwards, and stops as soon as it has passed the last bit of
the events that the call names. What is enabled above that bit gets no interrupt.

- `scan_getLsbD`: what the walk collects;
- `intEventsSet_agrees_iff`: when a call leaves the enable registers and the enabled events in agreement;
- `intEvents_agree`: every run of such calls does.
-/

namespace Lan80xx.Lan8x8x

open Fallible RegBus RegScript T1

/-! ## The calls -/

/-- `MESA_PHY_LINK_SPEED_STATE_CHANGE_EV` -/
def linkSpeedStateChangeEv : BitVec 32 := 1#32 <<< 3

/-- `MESA_PHY_LINK_AUTO_NEG_COMPLETE_EV` -/
def linkAutoNegCompleteEv : BitVec 32 := 1#32 <<< 6

/-- `MESA_PHY_LINK_TX_FIFO_OVERFLOW_INT_EV` -/
def linkTxFifoOverflowIntEv : BitVec 32 := 1#32 <<< 9

/-- `MESA_PHY_LINK_RX_FIFO_OVERFLOW_INT_EV` -/
def linkRxFifoOverflowIntEv : BitVec 32 := 1#32 <<< 10

/-- The three enable registers: `LAN8X8X_INT_IRQ_FUNC_MSK`, `LAN8X8X_INT_EN0_SC` and `LAN8X8X_INT_EN1_SC`. -/
inductive IntReg
  | irqFuncMsk
  | en0Sc
  | en1Sc
  deriving DecidableEq, Repr

/-- `int_mask`, `en0_mask` and `en1_mask` -/
abbrev IntMasks := IntReg → BitVec 16

/-- What the `switch` adds to the masks. -/
def eventCase (ev : BitVec 32) : IntMasks
  | .irqFuncMsk =>
    if ev = linkSpeedStateChangeEv then bit 1 ||| bit 2 else if ev = linkAutoNegCompleteEv then bit 6 else 0
  | .en0Sc => if ev = linkSpeedStateChangeEv ∨ ev = linkAutoNegCompleteEv then bit 2 else 0
  | .en1Sc => if ev = linkTxFifoOverflowIntEv ∨ ev = linkRxFifoOverflowIntEv then bit 0 else 0

/-- The loop from bit `i` on, for `n` rounds at most. -/
def scan (events : BitVec 32) : Nat → Nat → BitVec 32 → IntMasks → IntMasks
  | 0, _, _, masks => masks
  | n + 1, i, tmpEvt, masks =>
    let mask := 1#32 <<< i
    let masks := fun r => masks r ||| eventCase (events &&& mask) r
    let tmpEvt := tmpEvt &&& ~~~mask
    if tmpEvt = 0#32 then masks else scan events n (i + 1) tmpEvt masks

/-- The masks of a call. -/
def intMasks (events event : BitVec 32) : IntMasks := scan events 32 0 event fun _ => 0

/-- The enabled events after a call. -/
def eventsAfter (events event : BitVec 32) (enable : Bool) : BitVec 32 :=
  if enable then events ||| event else events &&& ~~~event

/-- The accesses of a call. -/
def intAccesses (masks : IntMasks) : List Acc :=
  phyMmdRegWr .vend1 0xF0E4 (masks .en0Sc) ::
    (phyMmdRegWr32 .pmapmd 0x8502 ((masks .irqFuncMsk).setWidth 32) ++ [phyMmdRegWr .vend1 0xF0E5 (masks .en1Sc)])

section Calls

variable {X H : Type} (bus : Bus Reg 16 H)

/-- `lan8x8x_int_events_set` -/
def intEventsSet (event : BitVec 32) (enable : Bool) : Call X H Unit := do
  let d ← getConf
  modifyConf (PhyData.setEvents (eventsAfter d.events event enable))
  script bus (intAccesses (intMasks (eventsAfter d.events event enable) event))

/-- `lan8x8x_event_enable_get` -/
def eventEnableGet : Call X H (BitVec 32) := do
  return (← getConf).events

end Calls

/-! ## What the walk collects -/

/-- The interrupt bits that belong to event `k`. -/
def eventBits (k : Nat) : IntMasks := eventCase (1#32 <<< k)

/-- The walk comes to bit `k`: it starts there, or there is a bit to come. -/
def Comes (tmpEvt : BitVec 32) (i k : Nat) : Prop := k = i ∨ ∃ j, k ≤ j ∧ tmpEvt.getLsbD j = true

theorem eventCase_zero (r : IntReg) : eventCase 0#32 r = 0 := by
  cases r <;> decide

theorem eventCase_masked (events : BitVec 32) {k : Nat} (hk : k < 32) (r : IntReg) :
    eventCase (events &&& 1#32 <<< k) r = if events.getLsbD k then eventBits k r else 0 := by
  have hmask : events &&& 1#32 <<< k = if events.getLsbD k then 1#32 <<< k else 0#32 := by
    apply BitVec.eq_of_getLsbD_eq
    intro i hi
    rw [BitVec.getLsbD_and, getLsbD_one_shiftLeft _ _ hk]
    by_cases hik : i = k
    · subst hik
      cases h : events.getLsbD i <;> simp [getLsbD_one_shiftLeft _ _ hk]
    · cases h : events.getLsbD k <;> simp [getLsbD_one_shiftLeft _ _ hk, hik]
  rw [hmask]
  cases h : events.getLsbD k with
  | true => rfl
  | false => exact eventCase_zero r

theorem exists_getLsbD {x : BitVec 32} (h : x ≠ 0#32) : ∃ j, x.getLsbD j = true := by
  by_contra hnone
  refine h (BitVec.eq_of_getLsbD_eq fun j _ => ?_)
  simpa using not_exists.mp hnone j

theorem scan_getLsbD (events : BitVec 32) (r : IntReg) (b : Nat) {n i : Nat} (hn : i + n = 32) {tmpEvt : BitVec 32}
    (hlow : ∀ j < i, tmpEvt.getLsbD j = false) (masks : IntMasks) :
    (scan events n i tmpEvt masks r).getLsbD b = true ↔ (masks r).getLsbD b = true ∨
      ∃ k, i ≤ k ∧ k < 32 ∧ Comes tmpEvt i k ∧ events.getLsbD k = true ∧ (eventBits k r).getLsbD b = true := by
  induction n generalizing i tmpEvt masks with
  | zero =>
    constructor
    · exact Or.inl
    · rintro (h | ⟨k, hk, hlt, -⟩)
      · exact h
      · omega
  | succ n ih =>
    have hi : i < 32 := by omega
    have hround : ∀ b, (masks r ||| eventCase (events &&& 1#32 <<< i) r).getLsbD b = true ↔
        (masks r).getLsbD b = true ∨ (events.getLsbD i = true ∧ (eventBits i r).getLsbD b = true) := by
      intro b
      rw [eventCase_masked events hi, BitVec.getLsbD_or, Bool.or_eq_true]
      cases events.getLsbD i <;> simp
    have hclear : ∀ j, (tmpEvt &&& ~~~(1#32 <<< i)).getLsbD j = (tmpEvt.getLsbD j && !decide (j = i)) := by
      intro j
      rw [BitVec.getLsbD_and, BitVec.getLsbD_not, getLsbD_one_shiftLeft _ _ hi]
      by_cases hj : j < 32
      · simp [hj]
      · simp [BitVec.getLsbD_of_ge _ _ (Nat.le_of_not_lt hj)]
    have hpast : ∀ j, i < j → ((tmpEvt &&& ~~~(1#32 <<< i)).getLsbD j = true ↔ tmpEvt.getLsbD j = true) := by
      intro j hj
      rw [hclear, decide_eq_false (by omega)]
      simp
    rw [scan]
    split
    · -- nothing is left of the named events: the walk ends here
      next hzero =>
      rw [hround]
      refine or_congr_right ⟨fun h => ⟨i, le_rfl, hi, Or.inl rfl, h⟩, ?_⟩
      rintro ⟨k, hik, -, hcomes, hk⟩
      rcases hcomes with rfl | ⟨j, hkj, hj⟩
      · exact hk
      · rcases Nat.lt_or_ge i k with hlt | hge
        · have := (hpast j (by omega)).mpr hj
          rw [hzero] at this
          simp at this
        · obtain rfl : k = i := by omega
          exact hk
    · next hne =>
      have hlow' : ∀ j < i + 1, (tmpEvt &&& ~~~(1#32 <<< i)).getLsbD j = false := by
        intro j hj
        rw [hclear]
        by_cases hji : j = i
        · simp [hji]
        · simp [hlow j (by omega)]
      have hcomes : ∀ k, i < k → (Comes (tmpEvt &&& ~~~(1#32 <<< i)) (i + 1) k ↔ Comes tmpEvt i k) := by
        intro k hik
        constructor
        · rintro (rfl | ⟨j, hkj, hj⟩)
          · obtain ⟨j, hj⟩ := exists_getLsbD hne
            refine Or.inr ⟨j, ?_, ?_⟩
            · by_contra hlt
              rw [hlow' j (by omega)] at hj
              cases hj
            · rw [hclear] at hj
              exact (Bool.and_eq_true_iff.mp hj).1
          · exact Or.inr ⟨j, hkj, (hpast j (by omega)).mp hj⟩
        · rintro (rfl | ⟨j, hkj, hj⟩)
          · omega
          · exact Or.inr ⟨j, hkj, (hpast j (by omega)).mpr hj⟩
      rw [ih (by omega) hlow', hround, or_assoc]
      refine or_congr_right ⟨?_, ?_⟩
      · rintro (h | ⟨k, hik, hlt, hc, hk⟩)
        · exact ⟨i, le_rfl, hi, Or.inl rfl, h⟩
        · exact ⟨k, by omega, hlt, (hcomes k (by omega)).mp hc, hk⟩
      · rintro ⟨k, hik, hlt, hc, hk⟩
        rcases Nat.lt_or_ge i k with hik' | hge
        · exact Or.inr ⟨k, hik', hlt, (hcomes k hik').mpr hc, hk⟩
        · obtain rfl : k = i := by omega
          exact Or.inl hk

/-! ## Enable registers and enabled events -/

/-- The register of an interrupt mask; the one for `IRQ_FUNC_MSK` is its low word. -/
def IntReg.reg : IntReg → Reg
  | irqFuncMsk => .mmd .pmapmd 0x8502
  | en0Sc => .mmd .vend1 0xF0E4
  | en1Sc => .mmd .vend1 0xF0E5

/-- The high word of `IRQ_FUNC_MSK`. -/
def irqFuncMskHigh : Reg := .mmd .pmapmd 0x8503

/-- The enable registers have the bits that belong to the enabled events, and no others. -/
structure EventsAgree (m : Bits Reg 16) (events : BitVec 32) : Prop where
  bits : ∀ r (b : Fin 16), m (IntReg.reg r) b = true ↔
    ∃ k < 32, events.getLsbD k = true ∧ (eventBits k r).getLsbD b = true
  high : ∀ b, m irqFuncMskHigh b = false

/-- Every interrupt bit of an enabled event also belongs to one that is not above all the named events. -/
def NoneDropped (events event : BitVec 32) : Prop :=
  ∀ r (b : Fin 16), ∀ k < 32, events.getLsbD k = true → (eventBits k r).getLsbD b = true →
    ∃ j < 32, Comes event 0 j ∧ events.getLsbD j = true ∧ (eventBits j r).getLsbD b = true

theorem intMasks_getLsbD (events event : BitVec 32) (r : IntReg) (b : Nat) :
    (intMasks events event r).getLsbD b = true ↔
      ∃ k < 32, Comes event 0 k ∧ events.getLsbD k = true ∧ (eventBits k r).getLsbD b = true := by
  rw [intMasks, scan_getLsbD events r b rfl (by omega)]
  simp

section Ends

variable {X H : Type} (rf : PhyBus H) {h₀ : H} {c : PhyData X} {m : Bits Reg 16} {event : BitVec 32} {enable : Bool}

theorem lastBit_intAccesses (masks : IntMasks) (r : IntReg) (b : Fin 16) :
    lastBit (intAccesses masks) r.reg b = some ((masks r).getLsbD b) := by
  cases r <;> simp [intAccesses, phyMmdRegWr32, phyMmdRegWr, lastBit, Access.bit, IntReg.reg]

theorem lastBit_intAccesses_high (masks : IntMasks) (b : Fin 16) : lastBit (intAccesses masks) irqFuncMskHigh b = some false := by
  have hb : 16 ≤ 16 + (b : Nat) := by omega
  simp [intAccesses, phyMmdRegWr32, phyMmdRegWr, lastBit, Access.bit, irqFuncMskHigh, hb]

/-- The words after a call, and the data. -/
theorem ends_intEventsSet (event : BitVec 32) (enable : Bool) : Ends (Sees rf h₀ c m) (intEventsSet rf.toBus event enable)
    (fun _ => Sees rf h₀ (c.setEvents (eventsAfter c.events event enable))
      (applyAll live (intAccesses (intMasks (eventsAfter c.events event enable) event)) m))
    fun _ => ¬rf.Sound h₀ := by
  refine ends_getConf_sees rf ((ends_modifyConf_sees rf _).bind fun _ => ?_)
  exact (ends_script rf _).weaken (fun _ _ h => h) fun _ h => h.1

/-- When the masks of a call are those of the enabled events. -/
theorem agrees_iff (events : BitVec 32) :
    EventsAgree (applyAll live (intAccesses (intMasks events event)) m) events ↔ NoneDropped events event := by
  have hbit : ∀ (r : IntReg) (b : Fin 16), applyAll live (intAccesses (intMasks events event)) m r.reg b =
      (intMasks events event r).getLsbD b := fun r b =>
    applyAll_of_lastBit (by cases r <;> rfl) (lastBit_intAccesses _ r b)
  constructor
  · intro h r b k hk hev hb
    have := (h.bits r b).mpr ⟨k, hk, hev, hb⟩
    rw [hbit, intMasks_getLsbD] at this
    exact this
  · refine fun h => ⟨fun r b => ?_, fun b => applyAll_of_lastBit rfl (lastBit_intAccesses_high _ b)⟩
    rw [hbit, intMasks_getLsbD]
    constructor
    · rintro ⟨k, hk, -, hev, hb⟩
      exact ⟨k, hk, hev, hb⟩
    · rintro ⟨k, hk, hev, hb⟩
      exact h r b k hk hev hb

end Ends

/-! ## Runs -/

/-- A call, whatever it returns, or an update by the PHY itself. `P` restricts the calls of `event_enable_set`. -/
inductive EventStep {X H : Type} (rf : PhyBus H) (P : Dev (PhyData X) H → BitVec 32 → Bool → Prop) :
    Dev (PhyData X) H → Dev (PhyData X) H → Prop
  | set (s : Dev (PhyData X) H) (event : BitVec 32) (enable : Bool) : P s event enable →
      EventStep rf P s (final (intEventsSet rf.toBus event enable) s)
  | get (s : Dev (PhyData X) H) : EventStep rf P s (final eventEnableGet s)
  | drift {s : Dev (PhyData X) H} {h : H} : rf.drift s.hw h → EventStep rf P s { s with hw := h }

abbrev EventRun {X H : Type} (rf : PhyBus H) (P : Dev (PhyData X) H → BitVec 32 → Bool → Prop) :
    Dev (PhyData X) H → Dev (PhyData X) H → Prop := Relation.ReflTransGen (EventStep rf P)

/-- No access of the call fails, and it drops no event. -/
def EventsFit {X H : Type} (rf : PhyBus H) (s : Dev (PhyData X) H) (event : BitVec 32) (enable : Bool) : Prop :=
  rf.Sound s.hw ∧ NoneDropped (eventsAfter s.conf.events event enable) event

section Runs

variable {X H : Type} {rf : PhyBus H} {s s' : Dev (PhyData X) H} {event : BitVec 32} {enable : Bool}

/-- When a call whose accesses succeed leaves enable registers and enabled events in agreement. -/
theorem intEventsSet_agrees_iff (hsound : rf.Sound s.hw) :
    EventsAgree (rf.view (final (intEventsSet rf.toBus event enable) s).hw)
      (final (intEventsSet rf.toBus event enable) s).conf.events ↔
    NoneDropped (eventsAfter s.conf.events event enable) event := by
  rcases (ends_intEventsSet rf event enable).final (sees_start rf s) with
    ⟨-, u, hc, -, hview⟩ | ⟨-, hno⟩
  · rw [hview, hc]
    exact agrees_iff _
  · exact absurd hsound hno

theorem EventStep.agrees (hstep : EventStep rf (EventsFit rf) s s') (h : EventsAgree (rf.view s.hw) s.conf.events) :
    EventsAgree (rf.view s'.hw) s'.conf.events := by
  cases hstep with
  | set event enable hfit => exact (intEventsSet_agrees_iff hfit.1).mpr hfit.2
  | get => exact h
  | drift hd => rwa [← rf.view_drift _ _ hd] at h

/-- **Events.** In every run of calls that drop no event, the enable registers have exactly the bits of the events that
`event_enable_get` reports. -/
theorem intEvents_agree (rf : PhyBus H) {s₀ s : Dev (PhyData X) H} (hstart : EventsAgree (rf.view s₀.hw) s₀.conf.events)
    (hrun : EventRun rf (EventsFit rf) s₀ s) : EventsAgree (rf.view s.hw) s.conf.events := by
  induction hrun with
  | refl => exact hstart
  | tail _ hstep ih => exact hstep.agrees ih

end Runs

/-! ### A lower event after a higher one -/

abbrev benchEvent (event : BitVec 32) (s : Dev (PhyData Unit) (Reg → BitVec 16)) : Dev (PhyData Unit) (Reg → BitVec 16) :=
  final (intEventsSet bench.toBus event true) s

theorem bench_agrees : EventsAgree (bench.view benchStart.hw) benchStart.conf.events := by
  refine ⟨fun r b => ⟨fun h => ?_, ?_⟩, fun b => ?_⟩
  · have hoff : bench.view benchStart.hw r.reg b = false := by cases r <;> fin_cases b <;> rfl
    rw [hoff] at h
    cases h
  · rintro ⟨k, -, hev, -⟩
    simp [benchStart, benchData] at hev
  · fin_cases b <;> rfl

theorem intEvents_agree_autoNeg : EventsAgree (bench.view (benchEvent linkAutoNegCompleteEv benchStart).hw)
    (benchEvent linkAutoNegCompleteEv benchStart).conf.events := by
  have hafter : eventsAfter benchStart.conf.events linkAutoNegCompleteEv true = linkAutoNegCompleteEv := by decide
  have hfit : EventsFit bench benchStart linkAutoNegCompleteEv true := by
    refine ⟨bitStorage_sound _, ?_⟩
    rw [hafter]
    exact fun r b k hk hev hb => ⟨k, hk, Or.inr ⟨k, le_rfl, hev⟩, hev, hb⟩
  exact intEvents_agree bench bench_agrees (.single (.set benchStart linkAutoNegCompleteEv true hfit))

/-- Event 6 is enabled, then event 3: event 6 has no interrupt any more. -/
theorem not_intEvents_agree : ¬∀ s₀ s : Dev (PhyData Unit) (Reg → BitVec 16),
    EventsAgree (bench.view s₀.hw) s₀.conf.events → EventRun bench (fun _ _ _ => True) s₀ s →
      EventsAgree (bench.view s.hw) s.conf.events := by
  intro h
  have hrun : EventRun bench (fun _ _ _ => True) benchStart
      (benchEvent linkSpeedStateChangeEv (benchEvent linkAutoNegCompleteEv benchStart)) :=
    (Relation.ReflTransGen.single (.set benchStart linkAutoNegCompleteEv true trivial)).tail
      (.set _ linkSpeedStateChangeEv true trivial)
  have hbits := (h _ _ bench_agrees hrun).bits .irqFuncMsk 6
  have hon := hbits.mpr ⟨6, by decide, by decide, by decide⟩
  have hoff : bench.view (benchEvent linkSpeedStateChangeEv (benchEvent linkAutoNegCompleteEv benchStart)).hw
      (IntReg.reg .irqFuncMsk) 6 = false := by decide
  rw [hoff] at hon
  cases hon

end Lan80xx.Lan8x8x
