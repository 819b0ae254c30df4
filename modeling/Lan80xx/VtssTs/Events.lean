import Lan80xx.Lib.RegScript
import Lan80xx.Lib.RegWords
import Lan80xx.VtssTs.Types

/-!
# Events

Ten events share three interrupt-mask registers, for ingress, egress and the local time counter. `event_enable_set` writes
them when none of the events that it enables is enabled already, or when one of those it disables is.

- `gather_getLsbD`: the masks, and the events that a poll decodes;
- `eventEnableSet_tracked_iff`: when a call leaves the registers and caches in step with the enabled events;
- `ends_eventPoll`: what a poll reports and acknowledges;
- `events_exact`: both, after any run of calls.
-/

namespace Lan80xx.VtssTs

open Fallible RegBus RegScript

/-! ## Events and registers -/

/-- A mask register with its status register: `INGR_INT_*`, `EGR_INT_*` and `LTC_INTR`. -/
inductive IntGroup
  | ingr
  | egr
  | ltc
  deriving DecidableEq, Repr

/-- The events of `vtss_phy_ts_event_t`. -/
inductive TsEvent
  | ingrEngineErr
  | ingrRwPreamErr
  | ingrRwFcsErr
  | egrEngineErr
  | egrRwFcsErr
  | egrTimestampCaptured
  | egrFifoOverflow
  | dataInRsrvdField
  | ltcNewPpsIntrpt
  | ltcLoadSaveNewTod
  deriving DecidableEq, Repr

namespace TsEvent

/-- The bit of `vtss_phy_ts_event_t`. -/
def ev : TsEvent → Nat
  | ingrEngineErr => 0
  | ingrRwPreamErr => 1
  | ingrRwFcsErr => 2
  | egrEngineErr => 3
  | egrRwFcsErr => 4
  | egrTimestampCaptured => 5
  | egrFifoOverflow => 6
  | dataInRsrvdField => 7
  | ltcNewPpsIntrpt => 8
  | ltcLoadSaveNewTod => 9

def group : TsEvent → IntGroup
  | ingrEngineErr | ingrRwPreamErr | ingrRwFcsErr | dataInRsrvdField => .ingr
  | egrEngineErr | egrRwFcsErr | egrTimestampCaptured | egrFifoOverflow => .egr
  | ltcNewPpsIntrpt | ltcLoadSaveNewTod => .ltc

/-- The bit of the mask register, and of the status register. -/
def bit : TsEvent → Nat
  | ingrEngineErr => 6
  | ingrRwPreamErr => 5
  | ingrRwFcsErr => 4
  | dataInRsrvdField => 7
  | egrEngineErr => 6
  | egrRwFcsErr => 4
  | egrTimestampCaptured => 2
  | egrFifoOverflow => 0
  | ltcNewPpsIntrpt => 1
  | ltcLoadSaveNewTod => 0

theorem ev_lt (e : TsEvent) : e.ev < 32 := by
  cases e <;> decide

theorem bit_lt (e : TsEvent) : e.bit < 32 := by
  cases e <;> decide

end TsEvent

/-- The events of a group, in the order in which the driver looks at them. -/
def eventsOf : IntGroup → List TsEvent
  | .ingr => [.ingrEngineErr, .ingrRwPreamErr, .ingrRwFcsErr, .dataInRsrvdField]
  | .egr => [.egrEngineErr, .egrRwFcsErr, .egrTimestampCaptured, .egrFifoOverflow]
  | .ltc => [.ltcNewPpsIntrpt, .ltcLoadSaveNewTod]

/-- `if (test) word |= 1 << pos`, one event after the other. -/
def gather (test : TsEvent → Bool) (pos : TsEvent → Nat) (events : List TsEvent) : BitVec 32 :=
  events.foldl (fun word e => if test e then word ||| 1#32 <<< pos e else word) 0

/-- `w_mask` -/
def wMask (g : IntGroup) : BitVec 32 := gather (fun _ => true) TsEvent.bit (eventsOf g)

/-- The registers of one port. -/
inductive IntReg
  | mask (g : IntGroup)
  | status (g : IntGroup)
  deriving DecidableEq, Repr

/-- The status registers change by themselves. -/
def IntReg.live : IntReg → Fin 32 → Bool
  | mask _, _ => false
  | status _, _ => true

abbrev IntBus (H : Type) := BitBus IntReg 32 IntReg.live H

/-! ## The driver's data -/

/-- `phy_type` -/
inductive PhyType
  | vsc8574
  | vsc8572
  | vsc8575
  | vsc8582
  | vsc8584
  | vsc8586
  | vsc8487
  | vsc8488
  | vsc8489
  | vsc8489_15
  | vsc8490
  | vsc8491
  | vsc8257
  | vsc8254
  | vsc8258
  deriving DecidableEq, Repr

/-- What `vtss_phy_ts_register_access_type_get` finds out. `later` is `!venice_rev_a` of a 10G PHY, and
`revision >= VTSS_PHY_VIPER_REV_B` of a 1G PHY. -/
structure Phy where
  type : PhyType
  later : Bool

/-- `rsvd_ingrs_data` -/
def Phy.rsvdIngrsData (phy : Phy) : Bool :=
  match phy.type with
  | .vsc8257 | .vsc8258 | .vsc8254 => true
  | .vsc8489 | .vsc8490 | .vsc8491 | .vsc8584 | .vsc8586 | .vsc8582 | .vsc8575 => phy.later
  | _ => false

/-- `ltc_int_supp` -/
def Phy.ltcIntSupp (phy : Phy) : Bool :=
  match phy.type with
  | .vsc8257 | .vsc8258 | .vsc8254 => true
  | .vsc8489 | .vsc8489_15 | .vsc8490 | .vsc8491 | .vsc8584 | .vsc8586 | .vsc8582 | .vsc8575 => phy.later
  | _ => false

/-- The mask that `PORT_EVT_MASK_SET` builds for a group. -/
def Phy.regMask (phy : Phy) (event : BitVec 32) (g : IntGroup) : BitVec 32 :=
  gather (fun e => event.getLsbD e.ev && (e != .dataInRsrvdField || phy.rsvdIngrsData)) TsEvent.bit (eventsOf g)

/-- What the calls use of `phy_ts_port_conf`. `phy` is `none` where the PHY or its data rate is not known. `regMask` is
`ingr_reg_mask`, `egr_reg_mask` and `ltc_reg_mask`. -/
structure TsEvents where
  portTsInitDone : Bool
  phy : Option Phy
  eventMask : BitVec 32
  regMask : IntGroup → BitVec 32

namespace TsEvents

def setMask (c : TsEvents) (g : IntGroup) (mask : BitVec 32) : TsEvents :=
  { c with regMask := Function.update c.regMask g mask }

def setMasks (c : TsEvents) (masks : IntGroup → BitVec 32) : TsEvents := { c with regMask := masks }

def setEvents (c : TsEvents) (events : BitVec 32) : TsEvents := { c with eventMask := events }

end TsEvents

abbrev EventCall (H α : Type) := EStateM Rc (Dev TsEvents H) α

/-! ## The calls -/

/-- `VTSS_PHY_TS_EVENT_MASK` -/
def eventMaskAll : BitVec 32 := 0x3ff

/-- The call is rejected before it does anything. -/
def Rejects (c : TsEvents) (evMask : BitVec 32) : Prop := evMask &&& ~~~eventMaskAll ≠ 0 ∨ c.portTsInitDone = false

/-- `mask_changed` -/
def maskChanged (events evMask : BitVec 32) (enable : Bool) : Bool :=
  if enable then events &&& evMask == 0 else events &&& evMask != 0

/-- `event_mask` after a call. -/
def eventsAfter (events evMask : BitVec 32) (enable : Bool) : BitVec 32 :=
  if enable then events ||| evMask else events &&& ~~~evMask

section Calls

variable {H : Type} (bus : Bus IntReg 32 H)

/-- A mask goes into its cache, and into the register by `warm_wr_masked` (without a warm start). -/
def maskSet (g : IntGroup) (mask : BitVec 32) : EventCall H Unit := do
  modifyConf fun c => c.setMask g mask
  (Access.modify (.mask g) (wMask g) (mask &&& wMask g)).run bus .access

/-- `vtss_phy_ts_csr_set_priv` with `VTSS_PHY_TS_PORT_EVT_MASK_SET` -/
def portEvtMaskSet : EventCall H Unit := do
  let c ← getConf
  match c.phy with
  | none => throw .error
  | some phy => do
    maskSet bus .ingr (phy.regMask c.eventMask .ingr)
    maskSet bus .egr (phy.regMask c.eventMask .egr)
    when (phy.ltcIntSupp = true) (maskSet bus .ltc (phy.regMask c.eventMask .ltc))

/-- `vtss_phy_ts_event_enable_set` -/
def eventEnableSet (enable : Bool) (evMask : BitVec 32) : EventCall H Unit := do
  failIf (evMask &&& ~~~eventMaskAll ≠ 0) .error
  let c ← getConf
  failIf (c.portTsInitDone = false) .error
  modifyConf fun c => c.setEvents (eventsAfter c.eventMask evMask enable)
  when (maskChanged c.eventMask evMask enable = true) (portEvtMaskSet bus)

/-- `vtss_phy_ts_event_enable_get` -/
def eventEnableGet : EventCall H (BitVec 32) := do
  let c ← getConf
  failIf (c.portTsInitDone = false) .error
  pure c.eventMask

/-- A status register is read, and what is pending and enabled in it is written back. -/
def pollGroup (g : IntGroup) : EventCall H (BitVec 32) := do
  let c ← getConf
  let pending ← read bus .access (.status g)
  write bus .access (.status g) (pending &&& c.regMask g)
  pure (pending &&& c.regMask g)

/-- The events of the bits that are set. -/
def eventsPending (g : IntGroup) (pending : BitVec 32) : BitVec 32 :=
  gather (fun e => pending.getLsbD e.bit) TsEvent.ev (eventsOf g)

/-- `vtss_phy_ts_event_poll` -/
def eventPoll : EventCall H (BitVec 32) := do
  let c ← getConf
  failIf (c.portTsInitDone = false) .error
  let ingr ← pollGroup bus .ingr
  let egr ← pollGroup bus .egr
  let ltc ← pollGroup bus .ltc
  pure (eventsPending .ingr ingr ||| eventsPending .egr egr ||| eventsPending .ltc ltc)

end Calls

/-! ## Masks -/

theorem mem_eventsOf (e : TsEvent) (g : IntGroup) : e ∈ eventsOf g ↔ e.group = g := by
  cases e <;> cases g <;> decide

theorem gather_getLsbD (test : TsEvent → Bool) {pos : TsEvent → Nat} (hpos : ∀ e, pos e < 32) (events : List TsEvent)
    (b : Nat) : (gather test pos events).getLsbD b = true ↔ ∃ e ∈ events, pos e = b ∧ test e = true := by
  have hfold : ∀ word : BitVec 32,
      (events.foldl (fun word e => if test e then word ||| 1#32 <<< pos e else word) word).getLsbD b = true ↔
        word.getLsbD b = true ∨ ∃ e ∈ events, pos e = b ∧ test e = true := by
    induction events with
    | nil => simp
    | cons e es ih =>
      intro word
      rw [List.foldl_cons, ih]
      by_cases he : test e = true
      · rw [if_pos he, BitVec.getLsbD_or, getLsbD_one_shiftLeft _ _ (hpos e), Bool.or_eq_true, decide_eq_true_iff, or_assoc]
        simp only [List.exists_mem_cons_iff, he, and_true, eq_comm]
      · rw [if_neg he]
        simp only [List.exists_mem_cons_iff, he, Bool.false_eq_true, and_false, false_or]
  rw [gather, hfold]
  simp

/-- An event of this bit is enabled. -/
def HasEvent (events : BitVec 32) (g : IntGroup) (b : Nat) : Prop :=
  ∃ e : TsEvent, e.group = g ∧ e.bit = b ∧ events.getLsbD e.ev = true

theorem regMask_getLsbD {phy : Phy} (hphy : phy.rsvdIngrsData = true) (event : BitVec 32) (g : IntGroup) (b : Nat) :
    (phy.regMask event g).getLsbD b = true ↔ HasEvent event g b := by
  rw [Phy.regMask, gather_getLsbD _ TsEvent.bit_lt]
  simp [mem_eventsOf, hphy, HasEvent]

theorem eventsPending_getLsbD (g : IntGroup) (pending : BitVec 32) (k : Nat) :
    (eventsPending g pending).getLsbD k = true ↔
      ∃ e : TsEvent, e.group = g ∧ e.ev = k ∧ pending.getLsbD e.bit = true := by
  rw [eventsPending, gather_getLsbD _ TsEvent.ev_lt]
  simp [mem_eventsOf]

/-! ## In step -/

/-- The mask registers and their caches have the bits of the enabled events, and no others. -/
structure EventsInStep (m : Bits IntReg 32) (c : TsEvents) (events : BitVec 32) : Prop where
  caches : ∀ g b, (c.regMask g).getLsbD b = true ↔ HasEvent events g b
  bits : ∀ g (b : Fin 32), (wMask g).getLsbD b = true → (m (.mask g) b = true ↔ HasEvent events g b)

/-- Every event of `vtss_phy_ts_event_t` can be enabled. -/
def TsEvents.SupportsAll (c : TsEvents) : Prop :=
  ∃ phy, c.phy = some phy ∧ phy.rsvdIngrsData = true ∧ phy.ltcIntSupp = true

/-- The registers are written although they do not have to be, or else the change is noticed. -/
def Noticed (events evMask : BitVec 32) (enable : Bool) : Prop :=
  maskChanged events evMask enable = true ∨ eventsAfter events evMask enable = events

section Ends

variable {H : Type} (rf : IntBus H) {h₀ : H} {c : TsEvents} {m : Bits IntReg 32} {enable : Bool} {evMask : BitVec 32}
  {E : Dev TsEvents H → Prop}

/-- The writes of `PORT_EVT_MASK_SET`. -/
def maskWrites (mask : IntGroup → BitVec 32) : List (Access IntReg 32) :=
  [.modify (.mask .ingr) (wMask .ingr) (mask .ingr &&& wMask .ingr),
    .modify (.mask .egr) (wMask .egr) (mask .egr &&& wMask .egr),
    .modify (.mask .ltc) (wMask .ltc) (mask .ltc &&& wMask .ltc)]

theorem ends_maskSet (hs : rf.Sound h₀) (g : IntGroup) (mask : BitVec 32) :
    Ends (Sees rf h₀ c m) (maskSet rf.toBus g mask)
      (fun _ => Sees rf h₀ (c.setMask g mask)
        (applyAll IntReg.live [.modify (.mask g) (wMask g) (mask &&& wMask g)] m)) E :=
  (ends_modifyConf_sees rf _).bind fun _ =>
    (ends_run rf Rc.access _).weaken (fun _ _ h => h) fun _ h => absurd hs h.1

/-- The registers and caches after `PORT_EVT_MASK_SET`. -/
theorem ends_portEvtMaskSet (hs : rf.Sound h₀) {phy : Phy} (hphy : c.phy = some phy) (hltc : phy.ltcIntSupp = true) :
    Ends (Sees rf h₀ c m) (portEvtMaskSet rf.toBus)
      (fun _ => Sees rf h₀ (c.setMasks (phy.regMask c.eventMask))
        (applyAll IntReg.live (maskWrites (phy.regMask c.eventMask)) m)) E := by
  refine ends_getConf_sees rf ?_
  rw [hphy]
  refine (ends_maskSet rf hs .ingr _).bind fun _ => (ends_maskSet rf hs .egr _).bind fun _ => ?_
  refine Ends.when (fun _ => (ends_maskSet rf hs .ltc _).weaken (fun _ s h => ?_) fun _ h => h) fun h => absurd hltc h
  have hconf : c.setMasks (phy.regMask c.eventMask) = ((c.setMask .ingr (phy.regMask c.eventMask .ingr)).setMask
      .egr (phy.regMask c.eventMask .egr)).setMask .ltc (phy.regMask c.eventMask .ltc) := by
    refine congrArg c.setMasks (funext fun g => ?_)
    cases g <;> rfl
  rw [← applyAll_cons, ← applyAll_cons] at h
  rw [hconf]
  exact h

theorem lastBit_maskWrites (mask : IntGroup → BitVec 32) (g : IntGroup) {b : Fin 32} (hb : (wMask g).getLsbD b = true) :
    lastBit (maskWrites mask) (.mask g) b = some ((mask g).getLsbD b) := by
  have hbit : modifiedBit (wMask g) (mask g &&& wMask g) b = some ((mask g).getLsbD b) := by
    rw [modifiedBit, BitVec.getLsbD_and, hb]
    cases (mask g).getLsbD b <;> rfl
  cases g <;> simp [maskWrites, lastBit, Access.bit, hbit]

theorem inStep_maskWrites {phy : Phy} (hphy : phy.rsvdIngrsData = true) (event : BitVec 32) :
    EventsInStep (applyAll IntReg.live (maskWrites (phy.regMask event)) m) (c.setMasks (phy.regMask event)) event := by
  refine ⟨fun g b => regMask_getLsbD hphy event g b, fun g b hb => ?_⟩
  rw [applyAll_of_lastBit rfl (lastBit_maskWrites _ g hb)]
  exact regMask_getLsbD hphy event g b

/-- An accepted call whose change is noticed. -/
theorem ends_eventEnableSet (hacc : ¬Rejects c evMask) (hchanged : maskChanged c.eventMask evMask enable = true)
    (hs : rf.Sound h₀) {phy : Phy} (hphy : c.phy = some phy) (hltc : phy.ltcIntSupp = true) :
    Ends (Sees rf h₀ c m) (eventEnableSet rf.toBus enable evMask)
      (fun _ => Sees rf h₀ ((c.setEvents (eventsAfter c.eventMask evMask enable)).setMasks
        (phy.regMask (eventsAfter c.eventMask evMask enable)))
        (applyAll IntReg.live (maskWrites (phy.regMask (eventsAfter c.eventMask evMask enable))) m)) E := by
  refine Ends.failIf_bind (fun s _ h => absurd (Or.inl h) hacc) fun _ => ends_getConf_sees rf ?_
  refine Ends.failIf_bind (fun s _ h => absurd (Or.inr h) hacc) fun _ => (ends_modifyConf_sees rf _).bind fun _ => ?_
  refine Ends.when (fun _ => ?_) fun h => absurd hchanged h
  exact ends_portEvtMaskSet rf hs (c := c.setEvents (eventsAfter c.eventMask evMask enable)) hphy hltc

/-- An accepted call that is taken for one that changes nothing. -/
theorem ends_eventEnableSet_unnoticed (hacc : ¬Rejects c evMask) (hchanged : maskChanged c.eventMask evMask enable = false) :
    Ends (Sees rf h₀ c m) (eventEnableSet rf.toBus enable evMask)
      (fun _ => Sees rf h₀ (c.setEvents (eventsAfter c.eventMask evMask enable)) m) E := by
  refine Ends.failIf_bind (fun s _ h => absurd (Or.inl h) hacc) fun _ => ends_getConf_sees rf ?_
  refine Ends.failIf_bind (fun s _ h => absurd (Or.inr h) hacc) fun _ => (ends_modifyConf_sees rf _).bind fun _ => ?_
  exact Ends.when (fun h => absurd (h.symm.trans hchanged) (by decide)) fun _ _ h => h

/-- A rejected call. -/
theorem ends_eventEnableSet_rejected {Q : Unit → Dev TsEvents H → Prop} (hrej : Rejects c evMask) :
    Ends (Sees rf h₀ c m) (eventEnableSet rf.toBus enable evMask) Q (Sees rf h₀ c m) := by
  refine Ends.failIf_bind (fun _ hs _ => hs) fun hmask => ends_getConf_sees rf ?_
  exact Ends.failIf_bind (fun _ hs _ => hs) fun hinit => absurd hrej (not_or.mpr ⟨hmask, hinit⟩)

theorem ends_eventEnableGet : Ends (Sees rf h₀ c m) eventEnableGet (fun _ => Sees rf h₀ c m) (Sees rf h₀ c m) :=
  ends_getConf_sees rf (Ends.failIf_bind (fun _ hs _ => hs) fun _ => Ends.pure fun _ h => h)

/-- A poll leaves the mask registers and the driver's data alone. -/
theorem ends_pollGroup (g : IntGroup) :
    Ends (Sees rf h₀ c m) (pollGroup rf.toBus g) (fun _ => Sees rf h₀ c m) (Sees rf h₀ c m) := by
  have hlive : ∀ v, onWrite IntReg.live (.status g) v m = m := by
    intro v
    funext q b
    rw [onWrite, if_neg]
    rintro ⟨rfl, h⟩
    cases h
  refine ends_getConf_sees rf ((ends_read_sees rf Rc.access _ fun _ _ h => h).bind fun p => ?_)
  rintro s ⟨hs, -⟩
  refine ((ends_write_sees rf Rc.access _ (p &&& c.regMask g) fun t _ h => ?_).bind fun _ => Ends.pure fun t h => ?_) s hs
  · rwa [hlive, or_self] at h
  · rwa [hlive] at h

theorem ends_eventPoll :
    Ends (Sees rf h₀ c m) (eventPoll rf.toBus) (fun _ => Sees rf h₀ c m) (Sees rf h₀ c m) := by
  refine ends_getConf_sees rf (Ends.failIf_bind (fun _ hs _ => hs) fun _ => ?_)
  refine (ends_pollGroup rf .ingr).bind fun _ => (ends_pollGroup rf .egr).bind fun _ => ?_
  exact (ends_pollGroup rf .ltc).bind fun _ => Ends.pure fun _ h => h

end Ends

/-! ## When a call keeps them in step -/

/-- A bit of a mask register belongs to one event. -/
theorem TsEvent.eq_of_bit {e e' : TsEvent} (hg : e.group = e'.group) (hb : e.bit = e'.bit) : e = e' := by
  revert hg hb
  cases e <;> cases e' <;> decide

theorem hasEvent_self (events : BitVec 32) (e : TsEvent) : HasEvent events e.group e.bit ↔ events.getLsbD e.ev = true := by
  constructor
  · rintro ⟨e', hg, hb, he⟩
    rwa [← TsEvent.eq_of_bit hg hb]
  · exact fun he => ⟨e, rfl, rfl, he⟩

/-- A mask that is accepted has bits of events only. -/
theorem exists_event {evMask : BitVec 32} (hmask : evMask &&& ~~~eventMaskAll = 0) {k : Nat} (hk : evMask.getLsbD k = true) :
    ∃ e : TsEvent, e.ev = k := by
  have hlt : k < 32 := BitVec.lt_of_getLsbD hk
  have hin : eventMaskAll.getLsbD k = true := by
    have hzero := congrArg (fun x : BitVec 32 => x.getLsbD k) hmask
    simpa [hk, hlt] using hzero
  have hall : ∀ k < 32, eventMaskAll.getLsbD k = true →
      ∃ e ∈ eventsOf .ingr ++ eventsOf .egr ++ eventsOf .ltc, e.ev = k := by decide
  obtain ⟨e, -, he⟩ := hall k hlt hin
  exact ⟨e, he⟩

/-- Masks that are in step with two sets of events, of which one comes from the other by an accepted call. -/
theorem eventsAfter_eq_of_caches {events evMask : BitVec 32} {enable : Bool} {masks : IntGroup → BitVec 32}
    (hmask : evMask &&& ~~~eventMaskAll = 0) (hold : ∀ g b, (masks g).getLsbD b = true ↔ HasEvent events g b)
    (hnew : ∀ g b, (masks g).getLsbD b = true ↔ HasEvent (eventsAfter events evMask enable) g b) :
    eventsAfter events evMask enable = events := by
  have hsame : ∀ e : TsEvent, (eventsAfter events evMask enable).getLsbD e.ev = events.getLsbD e.ev := by
    intro e
    rw [Bool.eq_iff_iff, ← hasEvent_self, ← hasEvent_self, ← hold, hnew]
  apply BitVec.eq_of_getLsbD_eq
  intro k hk
  cases hev : evMask.getLsbD k with
  | true =>
    obtain ⟨e, rfl⟩ := exists_event hmask hev
    exact hsame e
  | false =>
    cases enable with
    | true => rw [eventsAfter, if_pos rfl, BitVec.getLsbD_or, hev, Bool.or_false]
    | false =>
      rw [eventsAfter, if_neg Bool.false_ne_true, BitVec.getLsbD_and, BitVec.getLsbD_not, hev, decide_eq_true hk]
      exact Bool.and_true _

section Runs

variable {H : Type} {rf : IntBus H} {s s' : Dev TsEvents H} {enable : Bool} {evMask : BitVec 32}

/-- The PHY supports all events, and its mask registers and their caches have those that are enabled. -/
structure EventsTracked (rf : IntBus H) (s : Dev TsEvents H) : Prop where
  inStep : EventsInStep (rf.view s.hw) s.conf s.conf.eventMask
  supports : s.conf.SupportsAll

/-- When an accepted call, whose accesses succeed, leaves the mask registers and their caches in step. -/
theorem eventEnableSet_tracked_iff (hacc : ¬Rejects s.conf evMask) (h : EventsTracked rf s)
    (hs : maskChanged s.conf.eventMask evMask enable = true → rf.Sound s.hw) :
    EventsTracked rf (final (eventEnableSet rf.toBus enable evMask) s) ↔ Noticed s.conf.eventMask evMask enable := by
  obtain ⟨phy, hphy, hrsvd, hltc⟩ := h.supports
  cases hchanged : maskChanged s.conf.eventMask evMask enable with
  | true =>
    refine iff_of_true ?_ (Or.inl hchanged)
    rcases (ends_eventEnableSet rf (E := fun _ => False) hacc hchanged (hs hchanged) hphy hltc).final (sees_start rf s) with
      ⟨-, u, hc, -, hview⟩ | ⟨-, hno⟩
    · refine ⟨?_, ⟨phy, by rw [hc]; exact hphy, hrsvd, hltc⟩⟩
      rw [hview, hc]
      exact inStep_maskWrites hrsvd _
    · exact hno.elim
  | false =>
    rcases (ends_eventEnableSet_unnoticed rf (E := fun _ => False) hacc hchanged).final (sees_start rf s) with
      ⟨-, u, hc, -, hview⟩ | ⟨-, hno⟩
    · constructor
      · intro hafter
        have hcaches := hafter.inStep.caches
        rw [hc] at hcaches
        refine Or.inr (eventsAfter_eq_of_caches ?_ h.inStep.caches hcaches)
        exact not_not.mp fun hmask => hacc (Or.inl hmask)
      · rintro (hno | heq)
        · rw [hchanged] at hno
          cases hno
        · refine ⟨?_, ⟨phy, by rw [hc]; exact hphy, hrsvd, hltc⟩⟩
          have hconf : (s.conf.setEvents (eventsAfter s.conf.eventMask evMask enable)).eventMask = s.conf.eventMask := heq
          rw [hview, hc, hconf]
          exact ⟨h.inStep.caches, h.inStep.bits⟩
    · exact hno.elim

/-- A call, whatever it returns, or an update by the PHY itself. `P` restricts the calls of `event_enable_set`. -/
inductive EventStep (rf : IntBus H) (P : Dev TsEvents H → Bool → BitVec 32 → Prop) : Dev TsEvents H → Dev TsEvents H → Prop
  | set (s : Dev TsEvents H) (enable : Bool) (evMask : BitVec 32) : P s enable evMask →
      EventStep rf P s (final (eventEnableSet rf.toBus enable evMask) s)
  | get (s : Dev TsEvents H) : EventStep rf P s (final eventEnableGet s)
  | poll (s : Dev TsEvents H) : EventStep rf P s (final (eventPoll rf.toBus) s)
  | drift {s : Dev TsEvents H} {h : H} : rf.drift s.hw h → EventStep rf P s { s with hw := h }

abbrev EventRun (rf : IntBus H) (P : Dev TsEvents H → Bool → BitVec 32 → Prop) : Dev TsEvents H → Dev TsEvents H → Prop :=
  Relation.ReflTransGen (EventStep rf P)

/-- The call is rejected, or its change is noticed, and no access fails where it makes any. -/
def EventFits (rf : IntBus H) (s : Dev TsEvents H) (enable : Bool) (evMask : BitVec 32) : Prop :=
  Rejects s.conf evMask ∨ (Noticed s.conf.eventMask evMask enable ∧
    (maskChanged s.conf.eventMask evMask enable = true → rf.Sound s.hw))

/-- The device through a poll of one group: its status register shows `p`, and `w` is written to it. -/
def Shown (bus : Bus IntReg 32 H) (g : IntGroup) (p w : BitVec 32) (h h' : H) : Prop :=
  (bus.rd (.status g) h).1 = .ok p ∧ bus.wr (.status g) w (bus.rd (.status g) h).2 = (.ok (), h')

/-- The device through a poll of all groups. -/
def Polled (bus : Bus IntReg 32 H) (p w : IntGroup → BitVec 32) (h h' : H) : Prop :=
  ∃ h₁ h₂, Shown bus .ingr (p .ingr) (w .ingr) h h₁ ∧ Shown bus .egr (p .egr) (w .egr) h₁ h₂ ∧
    Shown bus .ltc (p .ltc) (w .ltc) h₂ h'

/-- The status registers show the event, and it is enabled. -/
def PendingEnabled (p : IntGroup → BitVec 32) (events : BitVec 32) (e : TsEvent) : Prop :=
  (p e.group).getLsbD e.bit = true ∧ events.getLsbD e.ev = true

theorem pollGroup_ok {bus : Bus IntReg 32 H} {g : IntGroup} {w : BitVec 32} (h : pollGroup bus g s = .ok w s') :
    ∃ p, Shown bus g p w s.hw s'.hw ∧ w = p &&& s.conf.regMask g ∧ s'.conf = s.conf := by
  obtain ⟨c, t, hc, h⟩ := (bind_ok_iff _ _ _ _ _).mp h
  cases hc
  obtain ⟨p, t, hp, h⟩ := (bind_ok_iff _ _ _ _ _).mp h
  obtain ⟨hshown, rfl⟩ := read_ok bus _ hp
  obtain ⟨u, t, hw, h⟩ := (bind_ok_iff _ _ _ _ _).mp h
  obtain ⟨hwritten, rfl⟩ := write_ok bus _ hw
  cases h
  exact ⟨p, ⟨hshown, Prod.ext hwritten rfl⟩, rfl, rfl⟩

theorem eventPoll_ok {bus : Bus IntReg 32 H} {reported : BitVec 32} (h : eventPoll bus s = .ok reported s') :
    ∃ p, Polled bus p (fun g => p g &&& s.conf.regMask g) s.hw s'.hw ∧
      reported = eventsPending .ingr (p .ingr &&& s.conf.regMask .ingr) |||
        eventsPending .egr (p .egr &&& s.conf.regMask .egr) ||| eventsPending .ltc (p .ltc &&& s.conf.regMask .ltc) := by
  obtain ⟨c, t, hc, h⟩ := (bind_ok_iff _ _ _ _ _).mp h
  cases hc
  obtain ⟨u, t, hinit, h⟩ := (bind_ok_iff _ _ _ _ _).mp h
  have ht : t = s := by
    simp only [failIf, Fallible.when] at hinit
    split at hinit <;> cases hinit
    rfl
  rw [ht] at h
  obtain ⟨w₁, t₁, h₁, h⟩ := (bind_ok_iff _ _ _ _ _).mp h
  obtain ⟨w₂, t₂, h₂, h⟩ := (bind_ok_iff _ _ _ _ _).mp h
  obtain ⟨w₃, t₃, h₃, h⟩ := (bind_ok_iff _ _ _ _ _).mp h
  obtain ⟨p₁, hp₁, rfl, hc₁⟩ := pollGroup_ok h₁
  obtain ⟨p₂, hp₂, rfl, hc₂⟩ := pollGroup_ok h₂
  obtain ⟨p₃, hp₃, rfl, hc₃⟩ := pollGroup_ok h₃
  cases h
  rw [hc₂, hc₁] at hp₃
  rw [hc₁] at hp₂
  let p : IntGroup → BitVec 32 := fun g => IntGroup.casesOn g p₁ p₂ p₃
  refine ⟨p, ⟨t₁.hw, t₂.hw, hp₁, hp₂, hp₃⟩, ?_⟩
  rw [hc₂, hc₁]

/-- What a poll reports and acknowledges when the caches are in step. -/
theorem eventPoll_exact {bus : Bus IntReg 32 H} {reported events : BitVec 32}
    (hcaches : ∀ g b, (s.conf.regMask g).getLsbD b = true ↔ HasEvent events g b) (h : eventPoll bus s = .ok reported s') :
    ∃ p w, Polled bus p w s.hw s'.hw ∧
      (∀ k, reported.getLsbD k = true ↔ ∃ e : TsEvent, e.ev = k ∧ PendingEnabled p events e) ∧
      ∀ g b, (w g).getLsbD b = true ↔ ∃ e : TsEvent, e.group = g ∧ e.bit = b ∧ PendingEnabled p events e := by
  obtain ⟨p, hpolled, rfl⟩ := eventPoll_ok h
  have hbit : ∀ e : TsEvent, (p e.group &&& s.conf.regMask e.group).getLsbD e.bit = true ↔ PendingEnabled p events e := by
    intro e
    rw [BitVec.getLsbD_and, Bool.and_eq_true, hcaches, hasEvent_self]
    rfl
  have hgroup : ∀ g k, (eventsPending g (p g &&& s.conf.regMask g)).getLsbD k = true ↔
      ∃ e : TsEvent, e.group = g ∧ e.ev = k ∧ PendingEnabled p events e := by
    intro g k
    rw [eventsPending_getLsbD]
    refine exists_congr fun e => and_congr_right fun hg => and_congr_right fun _ => ?_
    rw [← hg, hbit]
  refine ⟨p, _, hpolled, fun k => ?_, fun g b => ?_⟩
  · simp only [BitVec.getLsbD_or, Bool.or_eq_true, hgroup, ← exists_or, ← or_and_right]
    refine exists_congr fun e => ⟨fun h => h.2, fun h => ⟨?_, h⟩⟩
    cases e.group <;> simp
  · rw [BitVec.getLsbD_and, Bool.and_eq_true, hcaches]
    constructor
    · rintro ⟨hp, e, rfl, rfl, he⟩
      exact ⟨e, rfl, rfl, hp, he⟩
    · rintro ⟨e, rfl, rfl, hp, he⟩
      exact ⟨hp, e, rfl, rfl, he⟩

/-- A call that keeps the mask registers and the driver's data. -/
theorem EventsTracked.of_sees (h : EventsTracked rf s) (hsees : Sees rf s.hw s.conf (rf.view s.hw) s') :
    EventsTracked rf s' := by
  obtain ⟨hc, -, hview⟩ := hsees
  refine ⟨?_, by rw [hc]; exact h.supports⟩
  rw [hview, hc]
  exact h.inStep

theorem EventStep.tracked (hstep : EventStep rf (EventFits rf) s s') (h : EventsTracked rf s) : EventsTracked rf s' := by
  cases hstep with
  | set enable evMask hfit =>
    by_cases hrej : Rejects s.conf evMask
    · rcases (ends_eventEnableSet_rejected rf (Q := fun _ => Sees rf s.hw s.conf (rf.view s.hw)) hrej).final
        (sees_start rf s) with ⟨-, u, hsees⟩ | ⟨-, hsees⟩
      · exact h.of_sees hsees
      · exact h.of_sees hsees
    · obtain ⟨hnoticed, hsound⟩ := hfit.resolve_left hrej
      exact (eventEnableSet_tracked_iff hrej h hsound).mpr hnoticed
  | get =>
    rcases (ends_eventEnableGet rf).final (sees_start rf s) with ⟨-, u, hsees⟩ | ⟨-, hsees⟩
    · exact h.of_sees hsees
    · exact h.of_sees hsees
  | poll =>
    rcases (ends_eventPoll rf).final (sees_start rf s) with ⟨-, u, hsees⟩ | ⟨-, hsees⟩
    · exact h.of_sees hsees
    · exact h.of_sees hsees
  | drift hd => exact ⟨by rw [rf.view_drift _ _ hd]; exact h.inStep, h.supports⟩

/-- The mask registers and their caches have the events that `event_enable_get` reports, and a poll reports and
acknowledges those of them that are pending. -/
structure EventsExact (rf : IntBus H) (s : Dev TsEvents H) : Prop where
  inStep : ∀ events s', eventEnableGet s = .ok events s' → EventsInStep (rf.view s.hw) s.conf events
  polled : ∀ reported s', eventPoll rf.toBus s = .ok reported s' → ∃ p w, Polled rf.toBus p w s.hw s'.hw ∧
    (∀ k, reported.getLsbD k = true ↔ ∃ e : TsEvent, e.ev = k ∧ PendingEnabled p s.conf.eventMask e) ∧
    ∀ g b, (w g).getLsbD b = true ↔ ∃ e : TsEvent, e.group = g ∧ e.bit = b ∧ PendingEnabled p s.conf.eventMask e

theorem EventsTracked.exact (h : EventsTracked rf s) : EventsExact rf s := by
  refine ⟨fun events s' hget => ?_, fun reported s' hpoll => eventPoll_exact h.inStep.caches hpoll⟩
  have hevents : events = s.conf.eventMask := by
    obtain ⟨c, t, hc, hget⟩ := (bind_ok_iff _ _ _ _ _).mp hget
    cases hc
    obtain ⟨u, t, -, hget⟩ := (bind_ok_iff _ _ _ _ _).mp hget
    cases hget
    rfl
  rw [hevents]
  exact h.inStep

end Runs

/-- **Events.** On a PHY that supports all events, in every run of calls whose changes are noticed, the mask registers and
their caches have exactly the events that are reported as enabled, and a poll reports and acknowledges exactly those of them
that are pending. -/
theorem events_exact {H : Type} (rf : IntBus H) {s₀ s : Dev TsEvents H} (hstart : EventsTracked rf s₀)
    (hrun : EventRun rf (EventFits rf) s₀ s) : EventsExact rf s := by
  have htracked : EventsTracked rf s := by
    induction hrun with
    | refl => exact hstart
    | tail _ hstep ih => exact hstep.tracked ih
  exact htracked.exact

/-! ### An event that is enabled together with one that is enabled already -/

abbrev benchInt : IntBus (IntReg → BitVec 32) := bitStorage IntReg 32 IntReg.live

def benchEvents : Dev TsEvents (IntReg → BitVec 32) :=
  ⟨{ portTsInitDone := true, phy := some ⟨.vsc8257, false⟩, eventMask := 0, regMask := fun _ => 0 }, fun _ => 0⟩

abbrev benchEnable (evMask : BitVec 32) (s : Dev TsEvents (IntReg → BitVec 32)) : Dev TsEvents (IntReg → BitVec 32) :=
  final (eventEnableSet benchInt.toBus true evMask) s

theorem benchEvents_tracked : EventsTracked benchInt benchEvents := by
  have hnone : ∀ g b, ¬HasEvent benchEvents.conf.eventMask g b := by
    rintro g b ⟨e, -, -, he⟩
    simp [benchEvents] at he
  refine ⟨⟨fun g b => ?_, fun g b _ => ?_⟩, ⟨_, rfl, rfl, rfl⟩⟩
  · exact iff_of_false (by simp [benchEvents]) (hnone g b)
  · exact iff_of_false (by simp [benchInt, bitStorage, benchEvents]) (hnone g b)

theorem events_exact_single : EventsExact benchInt (benchEnable 0x3 benchEvents) :=
  events_exact benchInt benchEvents_tracked
    (.single (.set _ _ _ (Or.inr ⟨Or.inl (by decide), fun _ => bitStorage_sound _⟩)))

/-- Event 0 is enabled, then events 0 and 1: event 1 gets no interrupt. -/
theorem not_events_exact : ¬∀ s₀ s : Dev TsEvents (IntReg → BitVec 32), EventsTracked benchInt s₀ →
    EventRun benchInt (fun _ _ _ => True) s₀ s → EventsExact benchInt s := by
  intro h
  have hrun : EventRun benchInt (fun _ _ _ => True) benchEvents (benchEnable 0x3 (benchEnable 0x1 benchEvents)) :=
    (Relation.ReflTransGen.single (.set benchEvents true 0x1 trivial)).tail (.set _ true 0x3 trivial)
  have hbits := ((h _ _ benchEvents_tracked hrun).inStep 0x3 _ rfl).bits .ingr 5 (by decide)
  have hon := hbits.mpr ⟨.ingrRwPreamErr, rfl, rfl, by decide⟩
  have hoff : benchInt.view (benchEnable 0x3 (benchEnable 0x1 benchEvents)).hw (.mask .ingr) 5 = false := by decide
  rw [hoff] at hon
  cases hon

end Lan80xx.VtssTs
