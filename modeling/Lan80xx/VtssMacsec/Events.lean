import Lan80xx.Lib.RegView
import Lan80xx.Lib.RegCalls

/-!
# MACsec of the VTSS PHYs: events

Two events of the sequence numbers have an enable and a status bit each in one register. The interrupts go out through
an interrupt controller and a sticky mask that both events share, and which are switched off whenever an event is
disabled.

- `ends_eventEnableSet`, `ends_eventPoll`: what a call leaves in the registers;
- `stepRight_iff`: one step is right exactly where a condition on the state before it holds;
- `macsec_events_right_iff`: all steps of a run are right exactly where the condition holds at each.
-/

namespace Lan80xx.VtssMacsec

open Fallible RegBus
open RegCalls (getLsbD_merge)

/-! ## Registers -/

/-- The registers that the event calls use. -/
inductive EvReg
  | intrCtrlStatus
  | aicEnableCtrl
  | aicEnableClr
  | stickyMask
  | gpioIntr
  | intrSrcEn
  | intrStat (aggrInt : Nat)
  | gpioIntrStat
  deriving DecidableEq, Repr

/-- A write. A bit of `AIC_ENABLE_CLR` clears that of `AIC_ENABLE_CTRL`; a status bit is cleared by writing zero. -/
def evWrite (r : EvReg) (v : BitVec 32) (m : EvReg → BitVec 32) : EvReg → BitVec 32 :=
  match r with
  | .aicEnableClr => Function.update m .aicEnableCtrl (m .aicEnableCtrl &&& ~~~v)
  | .intrCtrlStatus => Function.update m .intrCtrlStatus (v &&& (m .intrCtrlStatus ||| 0xFFFF0000))
  | .intrStat _ | .gpioIntrStat => m
  | r => Function.update m r v

/-- What a read may show; nothing is known of `AIC_ENABLE_CLR`. -/
def evShows (r : EvReg) (v : BitVec 32) (m : EvReg → BitVec 32) : Prop := r = .aicEnableClr ∨ v = m r

/-- The MACsec block of a port, whose status bits stay as they are while a call goes on. -/
abbrev EvBus (H : Type) := ViewBus EvReg 32 evWrite evShows H

/-- One in which every access succeeds. -/
def evBench : EvBus (EvReg → BitVec 32) where
  rd r h := (.ok (h r), h)
  wr r v h := (.ok (), evWrite r v h)
  drift h h' := h' = h
  view h := h
  view_rd _ _ := rfl
  rd_ok _ _ _ hv := by cases hv; exact Or.inr rfl
  view_wr_ok _ _ _ _ := rfl
  view_wr_error _ _ _ _ hw := by cases hw
  view_drift _ _ hd := hd

/-! ## The calls -/

/-- `mask` of `vtss_macsec_event_enable_set_priv`. -/
def evMaskWord (ev : BitVec 32) : BitVec 32 :=
  let mask := if ev.getLsbD 0 = true then 1#32 <<< 20 else 0
  if ev.getLsbD 1 = true then mask ||| 1#32 <<< 21 else mask

/-- `value` of `vtss_macsec_event_enable_set_priv`. Disabling clears the bits of the status, which are not set. -/
def evValueWord (ev : BitVec 32) (enable : Bool) : BitVec 32 :=
  let value := if ev.getLsbD 0 = true then if enable then 0 ||| 1#32 <<< 20 else 0 &&& ~~~(1#32 <<< 4) else 0
  if ev.getLsbD 1 = true then if enable then value ||| 1#32 <<< 21 else value &&& ~~~(1#32 <<< 5) else value

/-- The events of two bits. -/
def evSet (threshold rollover : Bool) : BitVec 32 := (if threshold then 1 else 0) ||| if rollover then 2 else 0

/-- The events that are enabled in a word of `INTR_CTRL_STATUS`. -/
def evEnabled (value : BitVec 32) : BitVec 32 := evSet (value.getLsbD 20) (value.getLsbD 21)

/-- The events that are pending in a word of `INTR_CTRL_STATUS`. -/
def evPending (value : BitVec 32) : BitVec 32 := evSet (value.getLsbD 4) (value.getLsbD 5)

/-- `val` of `vtss_macsec_event_poll_priv`. -/
def evCleared (value : BitVec 32) : BitVec 32 :=
  let val := if value.getLsbD 4 = true then value &&& ~~~(1#32 <<< 4) else value
  if value.getLsbD 5 = true then val &&& ~~~(1#32 <<< 5) else val

/-- The return codes of the bus; the calls have none of their own. `malibu` says that the PHY is of that family. -/
abbrev EvCall (H α : Type) := EStateM Int (Dev Unit H) α

section Calls

variable {H : Type} (bus : Bus EvReg 32 H) (malibu : Bool)

/-- The interrupts of Malibu are routed to the aggregated interrupt. -/
def malibuRoute : EvCall H Unit := do
  if malibu = true then do
    writeMasked bus id .gpioIntr (1#32 <<< 6) (1#32 <<< 6)
    forUpTo 4 fun channelId =>
      writeMasked bus id .intrSrcEn (1#32 <<< (2 * channelId + 1)) (1#32 <<< (2 * channelId + 1))
  else
    pure ()

/-- The propagation on the egress side. -/
def propagationSet (ev : BitVec 32) (enable : Bool) : EvCall H Unit := do
  if enable = true then
    if ev ≠ 0 then do
      writeMasked bus id .aicEnableCtrl 0xF 0xF
      writeMasked bus id .stickyMask (1#32 <<< 3) (1#32 <<< 3)
    else
      pure ()
  else do
    writeMasked bus id .aicEnableClr 0xF 0xF
    writeMasked bus id .stickyMask 0 (1#32 <<< 3)

/-- `vtss_macsec_event_enable_set_priv` -/
def eventEnableSet (ev : BitVec 32) (enable : Bool) : EvCall H Unit := do
  malibuRoute bus malibu
  propagationSet bus ev enable
  writeMasked bus id .intrCtrlStatus (evValueWord ev enable) (evMaskWord ev)

/-- `vtss_macsec_event_enable_get_priv` -/
def eventEnableGet : EvCall H (BitVec 32) := do
  let value ← read bus id .intrCtrlStatus
  pure (evEnabled value)

/-- Malibu says that the interrupt is none of MACsec. -/
def noMacsecEvents : EvCall H Bool := do
  if malibu = true then do
    let aggrInt ← read bus id (.intrStat 0)
    let _ ← read bus id (.intrStat 1)
    let _ ← read bus id (.intrStat 2)
    let _ ← read bus id (.intrStat 3)
    if aggrInt &&& 0x2 ≠ 0 ∨ aggrInt &&& 0x8 ≠ 0 ∨ aggrInt &&& 0x20 ≠ 0 ∨ aggrInt &&& 0x80 ≠ 0 then do
      let channelInt ← read bus id .gpioIntrStat
      pure (decide (channelInt &&& 0x40 = 0))
    else
      pure false
  else
    pure false

/-- `vtss_macsec_event_poll_priv`. The result is `none` where `*ev_mask` is not assigned. -/
def eventPoll : EvCall H (Option (BitVec 32)) := do
  let none' ← noMacsecEvents bus malibu
  if none' = true then
    pure none
  else do
    let value ← read bus id .intrCtrlStatus
    write bus id .intrCtrlStatus (evCleared value)
    pure (some (evPending value))

end Calls

/-! ## Bits -/

/-- The events of a word. -/
theorem and_three (ev : BitVec 32) : ev &&& 3 = evSet (ev.getLsbD 0) (ev.getLsbD 1) := by
  have hand : (ev &&& 3).toNat = ev.toNat % 2 ^ 2 := Nat.and_two_pow_sub_one_eq_mod _ 2
  have hzero : ev.getLsbD 0 = decide (ev.toNat % 2 = 1) := by rw [BitVec.getLsbD, Nat.testBit_zero]
  have hone : ev.getLsbD 1 = decide (ev.toNat / 2 % 2 = 1) := by rw [BitVec.getLsbD, Nat.testBit_succ, Nat.testBit_zero]
  have hset (t r : Bool) : (evSet t r).toNat = t.toNat + 2 * r.toNat := by cases t <;> cases r <;> rfl
  refine BitVec.eq_of_toNat_eq ?_
  rw [hand, hset, hzero, hone]
  by_cases h0 : ev.toNat % 2 = 1 <;> by_cases h1 : ev.toNat / 2 % 2 = 1 <;> simp only [h0, h1] <;> simp <;> omega

/-- The events that are enabled after a call. -/
def evAfter (enabled ev : BitVec 32) (enable : Bool) : BitVec 32 :=
  if enable = true then enabled ||| ev &&& 3 else enabled &&& ~~~(ev &&& 3)

theorem evAfter_evSet (t r : Bool) (ev : BitVec 32) (enable : Bool) : evAfter (evSet t r) ev enable =
    evSet (if ev.getLsbD 0 = true then enable else t) (if ev.getLsbD 1 = true then enable else r) := by
  rw [evAfter, and_three]
  cases ev.getLsbD 0 <;> cases ev.getLsbD 1 <;> cases enable <;> cases t <;> cases r <;> rfl

/-- The bits of the mask are those of the events. -/
theorem evMaskWord_getLsbD (ev : BitVec 32) (b : Nat) : (evMaskWord ev).getLsbD b =
    (decide (b = 20) && ev.getLsbD 0 || decide (b = 21) && ev.getLsbD 1) := by
  have hbit (k : Nat) (hk : k < 32) : (1#32 <<< k).getLsbD b = decide (b = k) := getLsbD_one_shiftLeft k b hk
  unfold evMaskWord
  cases ev.getLsbD 0 <;> cases ev.getLsbD 1 <;>
    simp only [if_true, Bool.false_eq_true, if_false, BitVec.getLsbD_or, hbit 20 (by decide), hbit 21 (by decide)] <;> simp

theorem evValueWord_getLsbD (ev : BitVec 32) (enable : Bool) (b : Nat) : (evValueWord ev enable).getLsbD b =
    (enable && (evMaskWord ev).getLsbD b) := by
  unfold evValueWord evMaskWord
  cases ev.getLsbD 0 <;> cases ev.getLsbD 1 <;> cases enable <;> simp

/-- The bits of `INTR_CTRL_STATUS` after its write: the status bits are among those that were set. -/
theorem evWrite_getLsbD (m : EvReg → BitVec 32) (v : BitVec 32) {b : Nat} (hb : b < 32) :
    (evWrite .intrCtrlStatus v m .intrCtrlStatus).getLsbD b =
      (v.getLsbD b && ((m .intrCtrlStatus).getLsbD b || decide (16 ≤ b))) := by
  have hhigh : (0xFFFF0000 : BitVec 32).getLsbD b = decide (16 ≤ b) := by
    have hshift : (0xFFFF0000 : BitVec 32) = BitVec.allOnes 32 <<< 16 := by decide
    rw [hshift, BitVec.getLsbD_shiftLeft, BitVec.getLsbD_allOnes]
    by_cases h : b < 16
    · simp [h]
    · simp [h, hb, show 16 ≤ b by omega, show b - 16 < 32 by omega]
  rw [evWrite, Function.update_self, BitVec.getLsbD_and, BitVec.getLsbD_or, hhigh]

/-! ## What the calls leave behind -/

/-- What of the registers matters: the word of `INTR_CTRL_STATUS`, the enable field of the interrupt controller, the bit
of the sticky mask, and what Malibu says of its interrupts. -/
structure EvView where
  intr : BitVec 32
  aic : BitVec 4
  sticky : Bool
  aggrInt : BitVec 32
  channelInt : BitVec 32

/-- The registers, as far as they matter. -/
def evView (m : EvReg → BitVec 32) : EvView where
  intr := m .intrCtrlStatus
  aic := (m .aicEnableCtrl).setWidth 4
  sticky := (m .stickyMask).getLsbD 3
  aggrInt := m (.intrStat 0)
  channelInt := m .gpioIntrStat

/-- The interrupts go out, or none does. -/
def EvView.route (e : EvView) (on : Bool) : EvView := { e with aic := if on = true then 0xF#4 else 0#4, sticky := on }

/-- The events are enabled or disabled. -/
def EvView.setIntr (e : EvView) (ev : BitVec 32) (enable : Bool) : EvView :=
  { e with intr := merge e.intr (evValueWord ev enable) (evMaskWord ev) &&& (e.intr ||| 0xFFFF0000) }

section Ends

variable {H : Type} (eb : EvBus H) {h₀ : H} {e : EvView} {malibu : Bool}

/-- A read-modify-write of a register that shows its word. -/
theorem ends_writeMasked_view {r : EvReg} (hr : r ≠ .aicEnableClr) (v mask : BitVec 32) {e' : EvView}
    (hg : ∀ m, evView m = e → evView (evWrite r (merge (m r) v mask) m) = e') :
    Ends (SeesAs eb h₀ () evView e) (writeMasked eb.toBus id r v mask : EvCall H Unit)
      (fun _ => SeesAs eb h₀ () evView e') fun _ => True := by
  rintro s ⟨m, hs, hm⟩
  have hold (u : BitVec 32) (hu : evShows r u m) : u = m r := hu.resolve_left hr
  refine ((ends_writeMasked_sees eb id r v mask hold fun _ _ _ => trivial).weaken (fun _ _ ht => ?_) fun _ h => h) s hs
  exact ⟨_, ht, hg m hm⟩

theorem ends_malibuRoute : Ends (SeesAs eb h₀ () evView e) (malibuRoute eb.toBus malibu)
    (fun _ => SeesAs eb h₀ () evView e) fun _ => True := by
  have hgpio (v mask : BitVec 32) : Ends (SeesAs eb h₀ () evView e) (writeMasked eb.toBus id .gpioIntr v mask)
      (fun _ => SeesAs eb h₀ () evView e) fun _ => True := ends_writeMasked_view eb (by decide) v mask fun _ hm => hm
  have hsrc (v mask : BitVec 32) : Ends (SeesAs eb h₀ () evView e) (writeMasked eb.toBus id .intrSrcEn v mask)
      (fun _ => SeesAs eb h₀ () evView e) fun _ => True := ends_writeMasked_view eb (by decide) v mask fun _ hm => hm
  refine Ends.ite (fun _ => ?_) fun _ => Ends.pure fun _ h => h
  refine (hgpio _ _).bind fun _ => ?_
  exact Ends.forUpTo (I := fun _ => SeesAs eb h₀ () evView e) 4 fun _ _ => hsrc _ _

theorem setWidth_merge_ones (x : BitVec 32) : (merge x 0xF 0xF).setWidth 4 = 0xF#4 := by
  refine BitVec.eq_of_getLsbD_eq fun i hi => ?_
  have hones : (0xF : BitVec 32).getLsbD i = true := by
    obtain rfl | rfl | rfl | rfl : i = 0 ∨ i = 1 ∨ i = 2 ∨ i = 3 := by omega
    all_goals rfl
  have hfield : (0xF#4).getLsbD i = true := by
    obtain rfl | rfl | rfl | rfl : i = 0 ∨ i = 1 ∨ i = 2 ∨ i = 3 := by omega
    all_goals rfl
  rw [BitVec.getLsbD_setWidth, getLsbD_merge, if_pos hones, hones, hfield, decide_eq_true hi]
  rfl

/-- The sticky mask lets the interrupt through, or not. -/
theorem ends_stickyMask (v : BitVec 32) {on : Bool} (hv : v.getLsbD 3 = on) :
    Ends (SeesAs eb h₀ () evView e) (writeMasked eb.toBus id .stickyMask v (1#32 <<< 3))
      (fun _ => SeesAs eb h₀ () evView { e with sticky := on }) fun _ => True := by
  refine ends_writeMasked_view eb (by decide) _ _ ?_
  rintro m rfl
  have hbit : (merge (m .stickyMask) v (1#32 <<< 3)).getLsbD 3 = on := by
    rw [getLsbD_merge, if_pos (by decide), hv]
  rw [← hbit]
  rfl

theorem ends_propagationSet (ev : BitVec 32) (enable : Bool) :
    Ends (SeesAs eb h₀ () evView e) (propagationSet eb.toBus ev enable)
      (fun _ => SeesAs eb h₀ () evView (if enable = true ∧ ev = 0 then e else e.route enable)) fun _ => True := by
  unfold propagationSet
  cases enable with
  | true =>
    rw [if_pos rfl]
    by_cases hev : ev = 0
    · rw [if_neg (not_not.mpr hev), if_pos ⟨rfl, hev⟩]
      exact Ends.pure fun _ h => h
    · rw [if_pos hev, if_neg fun h => hev h.2]
      have haic : Ends (SeesAs eb h₀ () evView e) (writeMasked eb.toBus id .aicEnableCtrl 0xF 0xF)
          (fun _ => SeesAs eb h₀ () evView { e with aic := 0xF#4 }) fun _ => True := by
        refine ends_writeMasked_view eb (by decide) _ _ ?_
        rintro m rfl
        rw [← setWidth_merge_ones (m .aicEnableCtrl)]
        rfl
      exact haic.bind fun _ => ends_stickyMask eb _ (by decide)
  | false =>
    rw [if_neg (by decide), if_neg fun h => absurd h.1 (by decide)]
    have haic : Ends (SeesAs eb h₀ () evView e) (writeMasked eb.toBus id .aicEnableClr 0xF 0xF)
        (fun _ => SeesAs eb h₀ () evView { e with aic := 0#4 }) fun _ => True := by
      refine ends_read_as eb id (fun _ => trivial) fun _ u _ _ => ends_write_as eb id (fun _ => trivial) ?_
      rintro m rfl
      have hoff : (m .aicEnableCtrl &&& ~~~merge u 0xF 0xF).setWidth 4 = 0#4 := by
        rw [BitVec.setWidth_and, BitVec.setWidth_not (by decide), setWidth_merge_ones]
        exact BitVec.and_zero
      rw [← hoff]
      rfl
    exact haic.bind fun _ => ends_stickyMask eb _ (by decide)

/-- What a call leaves in the registers. -/
theorem ends_eventEnableSet (ev : BitVec 32) (enable : Bool) :
    Ends (SeesAs eb h₀ () evView e) (eventEnableSet eb.toBus malibu ev enable)
      (fun _ => SeesAs eb h₀ () evView
        ((if enable = true ∧ ev = 0 then e else e.route enable).setIntr ev enable)) fun _ => True := by
  refine (ends_malibuRoute eb).bind fun _ => (ends_propagationSet eb ev enable).bind fun _ => ?_
  refine ends_writeMasked_view eb (by decide) _ _ ?_
  rintro m hm
  rw [← hm]
  rfl

/-- What is enabled is reported. -/
theorem ends_eventEnableGet : Ends (SeesAs eb h₀ () evView e) (eventEnableGet eb.toBus)
    (fun v s => SeesAs eb h₀ () evView e s ∧ v = evEnabled e.intr) fun _ => True := by
  refine ends_read_as eb id (fun _ => trivial) ?_
  rintro m v rfl (hclr | rfl)
  · cases hclr
  · exact Ends.pure fun _ h => ⟨h, rfl⟩

/-- The PHY is a Malibu whose aggregated interrupt is up for another block than MACsec. -/
def Foreign (malibu : Bool) (e : EvView) : Prop :=
  malibu = true ∧ (e.aggrInt &&& 0x2 ≠ 0 ∨ e.aggrInt &&& 0x8 ≠ 0 ∨ e.aggrInt &&& 0x20 ≠ 0 ∨ e.aggrInt &&& 0x80 ≠ 0) ∧
    e.channelInt &&& 0x40 = 0

theorem ends_noMacsecEvents : Ends (SeesAs eb h₀ () evView e) (noMacsecEvents eb.toBus malibu)
    (fun b s => SeesAs eb h₀ () evView e s ∧ (b = true ↔ Foreign malibu e)) fun _ => True := by
  refine Ends.ite (fun hm => ?_) fun hm => Ends.pure fun _ h => ⟨h, by simp [Foreign, hm]⟩
  refine ends_read_as eb id (fun _ => trivial) ?_
  rintro m v rfl (hclr | rfl)
  · cases hclr
  refine ends_read_as eb id (fun _ => trivial) fun _ _ _ _ => ends_read_as eb id (fun _ => trivial) fun _ _ _ _ =>
    ends_read_as eb id (fun _ => trivial) fun _ _ _ _ => ?_
  refine Ends.ite (fun hup => ?_) fun hup => Ends.pure fun _ h => ⟨h, by simp [Foreign, hm]; exact fun h => absurd h hup⟩
  refine ends_read_as eb id (fun _ => trivial) ?_
  rintro m' v' hm' (hclr | rfl)
  · cases hclr
  · have hchannel : m' .gpioIntrStat = (evView m).channelInt := congrArg EvView.channelInt hm'
    refine Ends.pure fun _ h => ⟨h, ?_⟩
    rw [hchannel, decide_eq_true_iff]
    exact ⟨fun hzero => ⟨hm, hup, hzero⟩, fun hforeign => hforeign.2.2⟩

/-- The word of `INTR_CTRL_STATUS` after a poll. -/
def EvView.cleared (e : EvView) : EvView := { e with intr := evCleared e.intr &&& (e.intr ||| 0xFFFF0000) }

/-- What a poll reports and leaves in the registers: nothing where the interrupt is another block's. -/
theorem ends_eventPoll : Ends (SeesAs eb h₀ () evView e) (eventPoll eb.toBus malibu)
    (fun v s => (Foreign malibu e ∧ v = none ∧ SeesAs eb h₀ () evView e s) ∨
      (¬Foreign malibu e ∧ v = some (evPending e.intr) ∧ SeesAs eb h₀ () evView e.cleared s)) fun _ => True := by
  refine (ends_noMacsecEvents eb).bind fun b => Ends.ite (fun hb => Ends.pure ?_) fun hb => ?_
  · rintro s ⟨hs, hiff⟩
    exact Or.inl ⟨hiff.mp hb, rfl, hs⟩
  · rintro s ⟨hs, hiff⟩
    refine ends_read_as eb id (fun _ => trivial) ?_ s hs
    rintro m v rfl (hclr | rfl)
    · cases hclr
    have hwrite : Ends (SeesAs eb h₀ () evView (evView m))
        (write eb.toBus id .intrCtrlStatus (evCleared (m .intrCtrlStatus)))
        (fun _ => SeesAs eb h₀ () evView (evView m).cleared) fun _ => True := by
      refine ends_write_as eb id (fun _ => trivial) fun m' hm' => ?_
      have hintr : m' .intrCtrlStatus = m .intrCtrlStatus := congrArg EvView.intr hm'
      have hrest : evView (evWrite .intrCtrlStatus (evCleared (m .intrCtrlStatus)) m') =
          { evView m' with intr := evCleared (m .intrCtrlStatus) &&& (m' .intrCtrlStatus ||| 0xFFFF0000) } := rfl
      rw [hrest, hintr, hm']
      rfl
    exact hwrite.bind fun _ => Ends.pure fun _ h => Or.inr ⟨fun hf => hb (hiff.mpr hf), rfl, h⟩

end Ends

section Words

variable {e : EvView}

theorem setIntr_getLsbD (ev : BitVec 32) (enable : Bool) {b : Nat} (hlow : 16 ≤ b) (hb : b < 32) :
    (e.setIntr ev enable).intr.getLsbD b =
      if (evMaskWord ev).getLsbD b = true then enable else e.intr.getLsbD b := by
  have hwrite := evWrite_getLsbD (fun _ => e.intr) (merge e.intr (evValueWord ev enable) (evMaskWord ev)) hb
  rw [decide_eq_true hlow, Bool.or_true, Bool.and_true, getLsbD_merge, evValueWord_getLsbD] at hwrite
  refine hwrite.trans ?_
  split
  · next hmask => rw [hmask, Bool.and_true]
  · rfl

/-- What is enabled after a call. -/
theorem evEnabled_setIntr (ev : BitVec 32) (enable : Bool) :
    evEnabled (e.setIntr ev enable).intr = evAfter (evEnabled e.intr) ev enable := by
  rw [evEnabled, evEnabled, evAfter_evSet, setIntr_getLsbD ev enable (by decide) (by decide),
    setIntr_getLsbD ev enable (by decide) (by decide), evMaskWord_getLsbD, evMaskWord_getLsbD]
  simp

theorem evCleared_getLsbD (value : BitVec 32) {b : Nat} (hb : b < 32) :
    (evCleared value).getLsbD b = (value.getLsbD b && !decide (b = 4) && !decide (b = 5)) := by
  have hbit (k : Nat) (hk : k < 32) : (1#32 <<< k).getLsbD b = decide (b = k) := getLsbD_one_shiftLeft k b hk
  have hdrop (k : Nat) (hk : k < 32) (x : BitVec 32) : (x &&& ~~~(1#32 <<< k)).getLsbD b =
      (x.getLsbD b && !decide (b = k)) := by
    rw [BitVec.getLsbD_and, BitVec.getLsbD_not, hbit k hk, decide_eq_true hb, Bool.true_and]
  have hkeep (k : Nat) (x : BitVec 32) (hk : ¬x.getLsbD k = true) : (x.getLsbD b && !decide (b = k)) = x.getLsbD b := by
    by_cases h : b = k
    · subst h
      simp [hk]
    · simp [h]
  unfold evCleared
  by_cases h4 : value.getLsbD 4 = true <;> by_cases h5 : value.getLsbD 5 = true
  · rw [if_pos h5, if_pos h4, hdrop 5 (by decide), hdrop 4 (by decide)]
  · rw [if_neg h5, if_pos h4, hdrop 4 (by decide), Bool.and_right_comm, hkeep 5 value h5]
  · rw [if_pos h5, if_neg h4, hdrop 5 (by decide), hkeep 4 value h4]
  · rw [if_neg h5, if_neg h4, hkeep 4 value h4, hkeep 5 value h5]

/-- A poll clears the two status bits, and nothing else. -/
theorem cleared_getLsbD (e : EvView) (b : Nat) :
    e.cleared.intr.getLsbD b = (e.intr.getLsbD b && !decide (b = 4) && !decide (b = 5)) := by
  by_cases hb : b < 32
  · have hwrite := evWrite_getLsbD (fun _ => e.intr) (evCleared e.intr) hb
    rw [evCleared_getLsbD e.intr hb] at hwrite
    refine hwrite.trans ?_
    cases e.intr.getLsbD b <;> simp
  · rw [BitVec.getLsbD_of_ge _ _ (by omega), BitVec.getLsbD_of_ge _ _ (by omega)]
    rfl

end Words

/-! ## Runs -/

/-- The events enabled and not disabled since, and the device. -/
structure EvMoment (H : Type) where
  enabled : BitVec 32
  dev : Dev Unit H

/-- A call with its result, or a change of the status bits. -/
inductive EvAct
  | enableSet (ev : BitVec 32) (enable : Bool)
  | enableGet (result : BitVec 32)
  | poll (result : Option (BitVec 32))
  | hardware

/-- A step of a run. -/
structure EvStep (H : Type) where
  before : EvMoment H
  act : EvAct
  after : EvMoment H

section Runs

variable {H : Type} (malibu : Bool) (eb : EvBus H)

/-- What is seen of the device. -/
def EvMoment.view (p : EvMoment H) : EvView := evView (eb.view p.dev.hw)

/-- The events that are enabled after a step. -/
def EvAct.enabledAfter (enabled : BitVec 32) : EvAct → BitVec 32
  | .enableSet ev enable => evAfter enabled ev enable
  | _ => enabled

/-- A call returns `VTSS_RC_OK`, or status bits change. -/
def EvAct.Happens (p q : EvMoment H) : EvAct → Prop
  | .enableSet ev enable => eventEnableSet eb.toBus malibu ev enable p.dev = .ok () q.dev
  | .enableGet v => eventEnableGet eb.toBus p.dev = .ok v q.dev
  | .poll v => eventPoll eb.toBus malibu p.dev = .ok v q.dev
  | .hardware => (q.view eb).aic = (p.view eb).aic ∧ (q.view eb).sticky = (p.view eb).sticky ∧
    ∀ b, 16 ≤ b → (q.view eb).intr.getLsbD b = (p.view eb).intr.getLsbD b

/-- A run: its steps, the last one first, and where it has got to. It starts with all events and their propagation off. -/
inductive EvRun : List (EvStep H) → EvMoment H → Prop
  | start (p : EvMoment H) (henabled : p.enabled = 0) (hintr : evEnabled (p.view eb).intr = 0)
      (haic : (p.view eb).aic = 0) (hsticky : (p.view eb).sticky = false) : EvRun [] p
  | step {ts : List (EvStep H)} {p q : EvMoment H} {a : EvAct} (h : EvRun ts p)
      (henabled : q.enabled = a.enabledAfter p.enabled) (hn : a.Happens malibu eb p q) : EvRun (⟨p, a, q⟩ :: ts) q

/-- The propagation is on while an event is enabled, and off while none is. -/
def EvMoment.Routed (p : EvMoment H) : Prop :=
  if p.enabled = 0 then (p.view eb).aic = 0 ∧ (p.view eb).sticky = false
  else (p.view eb).aic = 0xF ∧ (p.view eb).sticky = true

/-- The register has the bits of the enabled events. -/
def EvMoment.Tracks (p : EvMoment H) : Prop := evEnabled (p.view eb).intr = p.enabled

/-- A step after which the propagation is right; what is asked for in it is reported, and a poll clears the pending
events and nothing else. -/
structure EvStep.Right (t : EvStep H) : Prop where
  routed : t.after.Routed eb
  get : ∀ v, t.act = .enableGet v → v = t.before.enabled
  polled : ∀ v, t.act = .poll v → v = some (evPending (t.before.view eb).intr)
  cleared : ∀ v, t.act = .poll v → evPending (t.after.view eb).intr = 0
  kept : ∀ v, t.act = .poll v → ∀ b, b ≠ 4 → b ≠ 5 →
    (t.after.view eb).intr.getLsbD b = (t.before.view eb).intr.getLsbD b

/-- The events that a call enables are known, unless some were enabled already; a call that disables events leaves none
enabled; and a poll does not find Malibu's interrupt up for another block. -/
def EvStep.Keeps (t : EvStep H) : Prop :=
  match t.act with
  | .enableSet ev true => ev = 0 ∨ ev &&& 3 ≠ 0 ∨ t.before.enabled ≠ 0
  | .enableSet ev false => t.before.enabled &&& ~~~(ev &&& 3) = 0
  | .poll _ => ¬Foreign malibu (t.before.view eb)
  | _ => True

end Runs

/-! ## One step -/

/-- What a step makes of what is seen. -/
def EvAct.Shows (malibu : Bool) (e e' : EvView) : EvAct → Prop
  | .enableSet ev enable => e' = (if enable = true ∧ ev = 0 then e else e.route enable).setIntr ev enable
  | .enableGet v => e' = e ∧ v = evEnabled e.intr
  | .poll v => (Foreign malibu e ∧ v = none ∧ e' = e) ∨
    (¬Foreign malibu e ∧ v = some (evPending e.intr) ∧ e' = e.cleared)
  | .hardware => e'.aic = e.aic ∧ e'.sticky = e.sticky ∧ ∀ b, 16 ≤ b → e'.intr.getLsbD b = e.intr.getLsbD b

section Steps

variable {H : Type} {malibu : Bool} {eb : EvBus H} {p q : EvMoment H} {a : EvAct} {ts : List (EvStep H)}

theorem shows_of_happens (hn : a.Happens malibu eb p q) : a.Shows malibu (p.view eb) (q.view eb) := by
  have hstart : SeesAs eb p.dev.hw () evView (p.view eb) p.dev := seesAs_start eb p.dev
  have hview {e : EvView} (hs : SeesAs eb p.dev.hw () evView e q.dev) : q.view eb = e := by
    obtain ⟨m, hs, rfl⟩ := hs
    rw [EvMoment.view, hs.2.2]
  cases a with
  | enableSet ev enable => exact hview ((ends_eventEnableSet eb ev enable).ok hstart hn)
  | enableGet v =>
    obtain ⟨hs, hv⟩ := (ends_eventEnableGet eb).ok hstart hn
    exact ⟨hview hs, hv⟩
  | poll v =>
    rcases (ends_eventPoll eb).ok hstart hn with ⟨hf, hv, hs⟩ | ⟨hf, hv, hs⟩
    · exact Or.inl ⟨hf, hv, hview hs⟩
    · exact Or.inr ⟨hf, hv, hview hs⟩
  | hardware => exact hn

/-- The bits follow the calls. -/
theorem tracks_step (ht : p.Tracks eb) (henabled : q.enabled = a.enabledAfter p.enabled)
    (hs : a.Shows malibu (p.view eb) (q.view eb)) : q.Tracks eb := by
  rw [EvMoment.Tracks] at ht ⊢
  rw [henabled, ← ht]
  cases a with
  | enableSet ev enable =>
    have hintr : (if enable = true ∧ ev = 0 then p.view eb else (p.view eb).route enable).intr = (p.view eb).intr := by
      split <;> rfl
    rw [hs, evEnabled_setIntr, hintr]
    rfl
  | enableGet v =>
    rw [hs.1]
    rfl
  | poll v =>
    rcases hs with ⟨-, -, hq⟩ | ⟨-, -, hq⟩
    · rw [hq]
      rfl
    · rw [hq, evEnabled, cleared_getLsbD, cleared_getLsbD]
      simp
      rfl
  | hardware =>
    rw [evEnabled, hs.2.2 20 (by decide), hs.2.2 21 (by decide)]
    rfl

/-- Setting events: the propagation follows the call and not what is enabled. -/
theorem routed_enableSet_iff {ev : BitVec 32} {enable : Bool} (hr : p.Routed eb)
    (henabled : q.enabled = evAfter p.enabled ev enable)
    (hq : q.view eb = (if enable = true ∧ ev = 0 then p.view eb else (p.view eb).route enable).setIntr ev enable) :
    q.Routed eb ↔ EvStep.Keeps malibu eb ⟨p, .enableSet ev enable, q⟩ := by
  cases enable with
  | true =>
    have hor : q.enabled = p.enabled ||| ev &&& 3 := henabled
    by_cases hev : ev = 0
    · have hsame : q.enabled = p.enabled := by
        rw [hor, hev]
        exact (congrArg (p.enabled ||| ·) BitVec.zero_and).trans BitVec.or_zero
      rw [if_pos ⟨rfl, hev⟩] at hq
      refine iff_of_true ?_ (Or.inl hev)
      rw [EvMoment.Routed, hq, hsame]
      exact hr
    · rw [if_neg fun h => hev h.2] at hq
      have hon : q.Routed eb ↔ q.enabled ≠ 0 := by
        rw [EvMoment.Routed, hq]
        by_cases hz : q.enabled = 0
        · rw [if_pos hz]
          exact iff_of_false (fun h => Bool.noConfusion h.2) (not_not.mpr hz)
        · rw [if_neg hz]
          exact iff_of_true ⟨rfl, rfl⟩ hz
      have hzero : p.enabled ||| ev &&& 3 = 0 ↔ p.enabled = 0 ∧ ev &&& 3 = 0 := BitVec.or_eq_zero_iff
      rw [hon, hor, ne_eq, hzero, not_and_or]
      exact ⟨fun h => Or.inr h.symm, fun h => (h.resolve_left hev).symm⟩
  | false =>
    rw [if_neg fun h => absurd h.1 (by decide)] at hq
    have hoff : q.Routed eb ↔ q.enabled = 0 := by
      rw [EvMoment.Routed, hq]
      by_cases hz : q.enabled = 0
      · rw [if_pos hz]
        exact iff_of_true ⟨rfl, rfl⟩ hz
      · rw [if_neg hz]
        exact iff_of_false (fun h => Bool.noConfusion h.2) hz
    rw [hoff, henabled]
    rfl

/-- A step is right exactly where its condition holds. -/
theorem stepRight_iff (ht : p.Tracks eb) (hr : p.Routed eb) (henabled : q.enabled = a.enabledAfter p.enabled)
    (hs : a.Shows malibu (p.view eb) (q.view eb)) :
    EvStep.Right eb ⟨p, a, q⟩ ↔ EvStep.Keeps malibu eb ⟨p, a, q⟩ := by
  cases a with
  | enableSet ev enable =>
    rw [← routed_enableSet_iff hr henabled hs]
    refine ⟨fun h => h.routed, fun h => ⟨h, ?_, ?_, ?_, ?_⟩⟩
    all_goals intro v hv; cases hv
  | enableGet v =>
    have hrouted : q.Routed eb := by
      rw [EvMoment.Routed, hs.1, henabled]
      exact hr
    refine iff_of_true ⟨hrouted, ?_, ?_, ?_, ?_⟩ trivial
    · intro v hv
      cases hv
      exact hs.2.trans ht
    all_goals intro v hv; cases hv
  | poll v =>
    rcases hs with ⟨hforeign, rfl, -⟩ | ⟨hforeign, rfl, hq⟩
    · refine iff_of_false (fun h => ?_) (not_not.mpr hforeign)
      cases h.polled none rfl
    · have hrouted : q.Routed eb := by
        rw [EvMoment.Routed, hq, henabled]
        exact hr
      refine iff_of_true ⟨hrouted, ?_, ?_, ?_, ?_⟩ hforeign
      · intro v hv
        cases hv
      · intro v hv
        cases hv
        rfl
      · intro v hv
        rw [hq, evPending, cleared_getLsbD, cleared_getLsbD]
        simp
        rfl
      · intro v hv b h4 h5
        rw [hq, cleared_getLsbD, decide_eq_false h4, decide_eq_false h5]
        simp
  | hardware =>
    have hrouted : q.Routed eb := by
      rw [EvMoment.Routed, hs.1, hs.2.1, henabled]
      exact hr
    refine iff_of_true ⟨hrouted, ?_, ?_, ?_, ?_⟩ trivial
    all_goals intro v hv; cases hv

/-! ## All steps -/

/-- The bits follow the calls in every run, and the propagation does while the steps are right. -/
theorem evRun_tracks (h : EvRun malibu eb ts p) : p.Tracks eb ∧ ((∀ t ∈ ts, EvStep.Right eb t) → p.Routed eb) := by
  induction h with
  | start p henabled hintr haic hsticky =>
    refine ⟨hintr.trans henabled.symm, fun _ => ?_⟩
    rw [EvMoment.Routed, if_pos henabled]
    exact ⟨haic, hsticky⟩
  | step h henabled hn ih =>
    exact ⟨tracks_step ih.1 henabled (shows_of_happens hn), fun hts => (hts _ List.mem_cons_self).routed⟩

/-- **The events of a run are right where its steps meet the condition.** -/
theorem macsec_events_right_iff (malibu : Bool) (eb : EvBus H) (ts : List (EvStep H)) (p : EvMoment H)
    (h : EvRun malibu eb ts p) : (∀ t ∈ ts, EvStep.Right eb t) ↔ ∀ t ∈ ts, EvStep.Keeps malibu eb t := by
  induction h with
  | start => simp
  | @step ts p q a h henabled hn ih =>
    have hiff (hts : ∀ t ∈ ts, EvStep.Right eb t) : EvStep.Right eb ⟨p, a, q⟩ ↔ EvStep.Keeps malibu eb ⟨p, a, q⟩ :=
      stepRight_iff (evRun_tracks h).1 ((evRun_tracks h).2 hts) henabled (shows_of_happens hn)
    simp only [List.forall_mem_cons]
    constructor
    · rintro ⟨hright, hts⟩
      exact ⟨(hiff hts).mp hright, ih.mp hts⟩
    · rintro ⟨hkeeps, hts⟩
      have hts' := ih.mpr hts
      exact ⟨(hiff hts').mpr hkeeps, hts'⟩

end Steps

section Bench

/-- No call was made yet. -/
def evIdle : EvMoment (EvReg → BitVec 32) := ⟨0, (), fun _ => 0⟩

theorem evRun_idle (malibu : Bool) : EvRun malibu evBench [] evIdle := .start evIdle rfl rfl rfl rfl

/-- A call of a run on the bench. -/
theorem evRun_call {ts : List (EvStep (EvReg → BitVec 32))} {p : EvMoment (EvReg → BitVec 32)}
    (h : EvRun false evBench ts p) {ev : BitVec 32} (hev : ev ≠ 0) (enable : Bool) :
    ∃ q, EvRun false evBench (⟨p, .enableSet ev enable, q⟩ :: ts) q ∧ q.enabled = evAfter p.enabled ev enable := by
  obtain ⟨s, hs⟩ : ∃ s, eventEnableSet evBench.toBus false ev enable p.dev = .ok () s := by
    cases enable with
    | true =>
      simp only [eventEnableSet, propagationSet, if_pos hev]
      exact ⟨_, rfl⟩
    | false => exact ⟨_, rfl⟩
  exact ⟨⟨evAfter p.enabled ev enable, s⟩, .step h rfl hs, rfl⟩

/-- One event is enabled. -/
theorem macsec_events_right_bench : ∃ t q, EvRun false evBench [t] q ∧ t.act = .enableSet 1 true ∧
    ((∀ t' ∈ [t], EvStep.Right evBench t') ↔ ∀ t' ∈ [t], EvStep.Keeps false evBench t') := by
  obtain ⟨q, hrun, -⟩ := @evRun_call _ _ (evRun_idle false) 1 (by decide) true
  exact ⟨_, q, hrun, rfl, macsec_events_right_iff false evBench _ q hrun⟩

/-- Both events are enabled, and the first one is disabled again: the interrupts of the other do not go out. -/
theorem not_macsec_events_right : ¬∀ (malibu : Bool) (eb : EvBus (EvReg → BitVec 32))
    (ts : List (EvStep (EvReg → BitVec 32))) (p : EvMoment (EvReg → BitVec 32)),
    EvRun malibu eb ts p → ∀ t ∈ ts, EvStep.Right eb t := by
  intro h
  obtain ⟨q, hrun, hq⟩ := @evRun_call _ _ (evRun_idle false) 3 (by decide) true
  obtain ⟨r, hrun', hr⟩ := @evRun_call _ _ hrun 1 (by decide) false
  have hrouted : q.Routed evBench := (h false evBench _ q hrun _ List.mem_cons_self).routed
  have hright : r.Routed evBench := (h false evBench _ r hrun' _ List.mem_cons_self).routed
  cases hrun' with
  | step _ henabled hn =>
    have hkeeps : q.enabled &&& ~~~(1 &&& 3) = 0 :=
      (@routed_enableSet_iff _ false _ _ _ _ _ hrouted henabled (shows_of_happens hn)).mp hright
    rw [hq] at hkeeps
    exact absurd hkeeps (by decide)

end Bench

end Lan80xx.VtssMacsec
