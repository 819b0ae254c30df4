import Lan80xx.Lan8814.Types

/-!
# LAN8814: timestamp events

`event_set` keeps a mask of the enabled events, and the interrupt-enable register has a bit for two of them. The register
is only written when the call finds that it changes the mask.

- `EventRun`: calls of `event_set`, with the events that are enabled after them;
- `event_masks`: mask and register agree with these events in every run in which no call enables a new event of the
  register together with one that is enabled already.
-/

namespace Lan80xx.Lan8814

open Fallible RegBus

variable {H : Type}

/-! ## The calls -/

/-- `MEPA_TS_EGR_TIMESTAMP_CAPTURED` -/
def tsEgrTimestampCaptured : BitVec 32 := 0x20#32

/-- `MEPA_TS_EGR_FIFO_OVERFLOW` -/
def tsEgrFifoOverflow : BitVec 32 := 0x40#32

/-- `LAN8814_PTP_TSU_INT_TX_TS_OVRFL_EN`, `LAN8814_PTP_TX_TS_OVRFL_INT` -/
def txTsOvrfl : BitVec 16 := bit 3

/-- `LAN8814_PTP_TSU_INT_TX_TS_EN`, `LAN8814_PTP_TX_TS_INT` -/
def txTs : BitVec 16 := bit 2

/-- A flag set or cleared in a register word. -/
def setFlag (b : Bool) (flag word : BitVec 16) : BitVec 16 := if b then word ||| flag else word &&& ~~~flag

/-- The interrupt-enable word for the events. -/
def tsuIntEnWord (events : BitVec 32) (word : BitVec 16) : BitVec 16 :=
  setFlag (events &&& tsEgrTimestampCaptured ≠ 0#32) txTs (setFlag (events &&& tsEgrFifoOverflow ≠ 0#32) txTsOvrfl word)

/-- `event_mask` after the call. -/
def maskAfter (events : BitVec 32) (enable : Bool) (evMask : BitVec 32) : BitVec 32 :=
  if enable then events ||| evMask else events &&& ~~~evMask

/-- `mask_changed` -/
def maskChanged (events : BitVec 32) (enable : Bool) (evMask : BitVec 32) : Bool :=
  if enable then 0#32 = events &&& evMask else 0#32 ≠ events &&& evMask

def PhyData.setEventMask (events : BitVec 32) (p : PhyData) : PhyData := { p with ts := { p.ts with eventMask := events } }

section Calls

variable (bus : PortBus H)

/-- `lan8814_ts_event_set` -/
def tsEventSet (enable : Bool) (evMask : BitVec 32) : Call PhyData H Unit := do
  let p ← getConf
  modifyConf (PhyData.setEventMask (maskAfter p.ts.eventMask enable evMask))
  when (maskChanged p.ts.eventMask enable evMask) do
    let mask ← epRd bus .tsuIntEn 0#16
    epWrm bus .tsuIntEn (tsuIntEnWord (maskAfter p.ts.eventMask enable evMask) mask) defMask

/-- The events that a status word reports, of those that are enabled. -/
def tsEvents (events : BitVec 32) (val : BitVec 16) (status : BitVec 32) : BitVec 32 :=
  status ||| (if val &&& txTsOvrfl ≠ 0#16 then events &&& tsEgrFifoOverflow else 0#32) |||
    if val &&& txTs ≠ 0#16 then events &&& tsEgrTimestampCaptured else 0#32

/-- `lan8814_ts_event_poll`: the return code, and the status word, to which events are added. -/
def tsEventPoll (status : BitVec 32) : Call PhyData H (Int × BitVec 32) := do
  let p ← getConf
  let chip ← extRegRd bus .chipLvlIntrStatus 0#16
  if chip.2.getLsbD (p.packetIdx.toNat % 4) then
    let sts ← extRegRd bus .tsuIntSts chip.2
    return (sts.1, tsEvents p.ts.eventMask sts.2 status)
  else
    return (chip.1, status)

end Calls

/-! ## Single bits -/

theorem and_bit_ne_zero {w : Nat} (x : BitVec w) {i : Nat} (hi : i < w) :
    x &&& BitVec.twoPow w i ≠ 0#w ↔ x.getLsbD i = true := by
  rw [BitVec.and_twoPow]
  have hne : BitVec.twoPow w i ≠ 0#w := by
    intro h
    have hbit := congrArg (fun y => y.getLsbD i) h
    simp [hi] at hbit
  cases hx : x.getLsbD i <;> simp [hne]

theorem and_bit_getLsbD {w : Nat} (x : BitVec w) {k : Nat} (hk : k < w) (i : Nat) :
    (x &&& BitVec.twoPow w k).getLsbD i = true ↔ x.getLsbD i = true ∧ i = k := by
  rw [BitVec.getLsbD_and, BitVec.getLsbD_twoPow]
  by_cases hi : k = i
  · subst hi
    simp [hk]
  · have hi' : ¬i = k := fun h => hi h.symm
    simp [hi, hi']

theorem setFlag_getLsbD (b : Bool) {k : Nat} (hk : k < 16) (word : BitVec 16) (i : Nat) :
    (setFlag b (bit k) word).getLsbD i = if i = k then b else word.getLsbD i := by
  unfold setFlag bit
  cases b with
  | true =>
    rw [if_pos rfl, BitVec.getLsbD_or, getLsbD_one_shiftLeft k i hk]
    by_cases hi : i = k
    · simp [hi]
    · simp [hi]
  | false =>
    rw [if_neg (by simp), BitVec.getLsbD_and, BitVec.getLsbD_not, getLsbD_one_shiftLeft k i hk]
    by_cases hi : i = k
    · simp [hi]
    · simp only [hi, decide_false, Bool.not_false, Bool.and_true, if_false]
      by_cases hlt : i < 16
      · simp [hlt]
      · simp [BitVec.getLsbD_of_ge _ _ (Nat.le_of_not_lt hlt)]

/-- The two flags of the interrupt-enable word follow the events; its other bits stay. -/
theorem tsuIntEnWord_getLsbD (events : BitVec 32) (word : BitVec 16) (i : Nat) :
    (tsuIntEnWord events word).getLsbD i =
      if i = 2 then events.getLsbD 5 else if i = 3 then events.getLsbD 6 else word.getLsbD i := by
  have hcap : decide (events &&& tsEgrTimestampCaptured ≠ 0#32) = events.getLsbD 5 := by
    rw [Bool.eq_iff_iff, decide_eq_true_iff]
    exact @and_bit_ne_zero 32 events 5 (by decide)
  have hovr : decide (events &&& tsEgrFifoOverflow ≠ 0#32) = events.getLsbD 6 := by
    rw [Bool.eq_iff_iff, decide_eq_true_iff]
    exact @and_bit_ne_zero 32 events 6 (by decide)
  rw [tsuIntEnWord, hcap, hovr, txTs, txTsOvrfl, setFlag_getLsbD _ (by decide), setFlag_getLsbD _ (by decide)]

/-! ## Runs -/

/-- The events that are on after a call: those it names are as it says, the others as before. -/
def eventsAfter (enable : Bool) (evMask : BitVec 32) (on : Nat → Bool) : Nat → Bool := fun i =>
  if evMask.getLsbD i then enable else on i

/-- A call of `event_set` or `event_poll` on a device that answers, or an update by the device itself. `P` restricts the
calls of `event_set`. -/
inductive EventStep (rf : PortRegs H) (P : PhyData → Bool → BitVec 32 → Prop) :
    Dev PhyData H × (Nat → Bool) → Dev PhyData H × (Nat → Bool) → Prop
  | set {s s' on enable evMask} : P s.conf enable evMask → rf.Sound s.hw →
      tsEventSet rf.toBus enable evMask s = .ok () s' → EventStep rf P (s, on) (s', eventsAfter enable evMask on)
  | poll {s s' on status res} : rf.Sound s.hw → tsEventPoll rf.toBus status s = .ok res s' →
      EventStep rf P (s, on) (s', on)
  | drift {s : Dev PhyData H} {on h'} : rf.drift s.hw h' → EventStep rf P (s, on) ({ s with hw := h' }, on)

abbrev EventRun (rf : PortRegs H) (P : PhyData → Bool → BitVec 32 → Prop) :
    Dev PhyData H × (Nat → Bool) → Dev PhyData H × (Nat → Bool) → Prop := Relation.ReflTransGen (EventStep rf P)

/-- The stored mask is that of the events, and the interrupt-enable register has their bits; its other bits are as they
were at the start. -/
structure EventsMatch (rf : PortRegs H) (s₀ : Dev PhyData H) (on : Nat → Bool) (s : Dev PhyData H) : Prop where
  mask : ∀ i < 32, s.conf.ts.eventMask.getLsbD i = on i
  captured : (rf.peek s.hw .tsuIntEn).getLsbD 2 = on 5
  overflow : (rf.peek s.hw .tsuIntEn).getLsbD 3 = on 6
  others : ∀ b, b ≠ 2 → b ≠ 3 → (rf.peek s.hw .tsuIntEn).getLsbD b = (rf.peek s₀.hw .tsuIntEn).getLsbD b

/-- The status registers report the event. -/
def Pending (rf : PortRegs H) (s : Dev PhyData H) (i : Nat) : Prop :=
  ∃ chip sts, (rf.rd .chipLvlIntrStatus s.hw).1 = .ok chip ∧
    (rf.rd .tsuIntSts (rf.rd .chipLvlIntrStatus s.hw).2).1 = .ok sts ∧
    chip.getLsbD (s.conf.packetIdx.toNat % 4) = true ∧
    (i = 5 ∧ sts.getLsbD 2 = true ∨ i = 6 ∧ sts.getLsbD 3 = true)

/-- The call enables no event of the register together with one that is enabled already. -/
def EnablesApart (p : PhyData) (enable : Bool) (evMask : BitVec 32) : Prop :=
  enable = true → 0#32 = p.ts.eventMask &&& evMask ∨
    ∀ i, i = 5 ∨ i = 6 → evMask.getLsbD i = true → p.ts.eventMask.getLsbD i = true

section Runs

variable {rf : PortRegs H} {s₀ s s' : Dev PhyData H} {on : Nat → Bool} {enable : Bool} {evMask : BitVec 32}
  {P : PhyData → Bool → BitVec 32 → Prop}

theorem maskAfter_getLsbD (events : BitVec 32) {i : Nat} (hi : i < 32) :
    (maskAfter events enable evMask).getLsbD i = eventsAfter enable evMask events.getLsbD i := by
  unfold maskAfter eventsAfter
  cases enable with
  | true =>
    rw [if_pos rfl, BitVec.getLsbD_or]
    cases evMask.getLsbD i <;> simp
  | false =>
    rw [if_neg (by simp), BitVec.getLsbD_and, BitVec.getLsbD_not]
    cases evMask.getLsbD i <;> simp [hi]

/-- `event_set` stores the mask, and writes the register when it finds the mask changed. -/
theorem ends_tsEventSet (hs : rf.Sound s.hw) : Ends (fun t => t = s) (tsEventSet rf.toBus enable evMask)
    (fun _ t => t.conf = s.conf.setEventMask (maskAfter s.conf.ts.eventMask enable evMask) ∧
      rf.peek t.hw .tsuIntEn = if maskChanged s.conf.ts.eventMask enable evMask
        then tsuIntEnWord (maskAfter s.conf.ts.eventMask enable evMask) (rf.peek s.hw .tsuIntEn)
        else rf.peek s.hw .tsuIntEn) fun _ => False := by
  refine ends_getConf_bind (c := s.conf) (fun t ht => by rw [ht]) ?_
  refine (ends_modifyConf_of (T := Holds rf s.hw
    (s.conf.setEventMask (maskAfter s.conf.ts.eventMask enable evMask)) (rf.peek s.hw)) ?_).bind fun _ => ?_
  · rintro t rfl
    exact ⟨rfl, .refl, fun _ _ => rfl⟩
  refine Ends.when (fun hch => ?_) fun hch t ht => ?_
  · refine (ends_epRd rf hs (by simp [EpReg.status]) _).bind fun mask => ?_
    rintro t ⟨ht, rfl⟩
    refine ((ends_epWrm rf hs (by simp [EpReg.status]) _ _).weaken ?_ fun _ h => h) t ht
    rintro - u ⟨hc, -, hm⟩
    refine ⟨hc, ?_⟩
    rw [hm .tsuIntEn (by simp [EpReg.status]), apply_defMask, Function.update_self, if_pos hch]
  · obtain ⟨hc, -, hm⟩ := ht
    exact ⟨hc, by rw [hm .tsuIntEn (by simp [EpReg.status]), if_neg hch]⟩

theorem tsEventPoll_eq (hs : rf.Sound s.hw) (status : BitVec 32) : ∃ chip sts,
    (rf.rd .chipLvlIntrStatus s.hw).1 = .ok chip ∧
    (rf.rd .tsuIntSts (rf.rd .chipLvlIntrStatus s.hw).2).1 = .ok sts ∧
    tsEventPoll rf.toBus status s = if chip.getLsbD (s.conf.packetIdx.toNat % 4)
      then .ok (0, tsEvents s.conf.ts.eventMask sts status)
        { s with hw := (rf.rd .tsuIntSts (rf.rd .chipLvlIntrStatus s.hw).2).2 }
      else .ok (0, status) { s with hw := (rf.rd .chipLvlIntrStatus s.hw).2 } := by
  obtain ⟨chip, hchip⟩ := (hs _ .refl).1 .chipLvlIntrStatus
  obtain ⟨sts, hsts⟩ := (hs _ (.rd .chipLvlIntrStatus _ .refl)).1 .tsuIntSts
  refine ⟨chip, sts, hchip, hsts, ?_⟩
  have hchip' := extRegRd_eq_ok rf.toBus 0#16 hchip
  unfold tsEventPoll
  rw [bind_of_ok (show getConf s = .ok s.conf s from rfl), bind_of_ok hchip']
  split
  · exact bind_of_ok (extRegRd_eq_ok rf.toBus chip hsts)
  · rfl

/-- What the poll adds to the status word. -/
theorem tsEvents_getLsbD (events : BitVec 32) (val : BitVec 16) (i : Nat) :
    (tsEvents events val 0#32).getLsbD i = true ↔
      events.getLsbD i = true ∧ (i = 5 ∧ val.getLsbD 2 = true ∨ i = 6 ∧ val.getLsbD 3 = true) := by
  have hcap : val &&& txTs ≠ 0#16 ↔ val.getLsbD 2 = true := @and_bit_ne_zero 16 val 2 (by decide)
  have hovr : val &&& txTsOvrfl ≠ 0#16 ↔ val.getLsbD 3 = true := @and_bit_ne_zero 16 val 3 (by decide)
  have hcap' := @and_bit_getLsbD 32 events 5 (by decide) i
  have hovr' := @and_bit_getLsbD 32 events 6 (by decide) i
  have hpart : ∀ (p : Prop) [Decidable p] (x : BitVec 32),
      (if p then x else 0#32).getLsbD i = true ↔ p ∧ x.getLsbD i = true := by
    intro p _ x
    by_cases hp : p
    · simp [hp]
    · simp [hp]
  unfold tsEvents
  rw [BitVec.getLsbD_or, BitVec.getLsbD_or, Bool.or_eq_true, Bool.or_eq_true, BitVec.getLsbD_zero, hpart, hpart]
  simp only [Bool.false_eq_true, false_or]
  rw [hovr, hcap, tsEgrFifoOverflow, tsEgrTimestampCaptured]
  constructor
  · rintro (⟨hv, hi⟩ | ⟨hv, hi⟩)
    · obtain ⟨he, rfl⟩ := hovr'.mp hi
      exact ⟨he, Or.inr ⟨rfl, hv⟩⟩
    · obtain ⟨he, rfl⟩ := hcap'.mp hi
      exact ⟨he, Or.inl ⟨rfl, hv⟩⟩
  · rintro ⟨he, ⟨rfl, hv⟩ | ⟨rfl, hv⟩⟩
    · exact Or.inr ⟨hv, hcap'.mpr ⟨he, rfl⟩⟩
    · exact Or.inl ⟨hv, hovr'.mpr ⟨he, rfl⟩⟩

/-- A call that finds no change to the mask leaves the events of the register as they were. -/
theorem eventsAfter_of_not_changed (hP : EnablesApart s.conf enable evMask)
    (hch : ¬maskChanged s.conf.ts.eventMask enable evMask = true) {i : Nat} (hi : i = 5 ∨ i = 6) :
    eventsAfter enable evMask s.conf.ts.eventMask.getLsbD i = s.conf.ts.eventMask.getLsbD i := by
  unfold eventsAfter
  split
  · next hev =>
    cases enable with
    | true =>
      rcases hP rfl with hz | hon
      · exact absurd (by simp [maskChanged, hz]) hch
      · exact (hon i hi hev).symm
    | false =>
      have hz : 0#32 = s.conf.ts.eventMask &&& evMask := by
        by_contra hne
        exact hch (by simp [maskChanged, hne])
      have hbit : (s.conf.ts.eventMask &&& evMask).getLsbD i = false := by rw [← hz, BitVec.getLsbD_zero]
      rw [BitVec.getLsbD_and, hev, Bool.and_true] at hbit
      exact hbit.symm
  · rfl

/-- The register after a call that may skip it, when it held the events before. -/
theorem EventsMatch.set (h : EventsMatch rf s₀ on s) (hP : EnablesApart s.conf enable evMask) (hs : rf.Sound s.hw)
    (hok : tsEventSet rf.toBus enable evMask s = .ok () s') :
    EventsMatch rf s₀ (eventsAfter enable evMask on) s' := by
  obtain ⟨hc, hreg⟩ := (ends_tsEventSet hs).ok rfl hok
  have hmask : ∀ i < 32, s'.conf.ts.eventMask.getLsbD i = eventsAfter enable evMask s.conf.ts.eventMask.getLsbD i :=
    fun i hi => by rw [hc]; exact maskAfter_getLsbD _ hi
  have hafter : ∀ i < 32, eventsAfter enable evMask s.conf.ts.eventMask.getLsbD i = eventsAfter enable evMask on i :=
    fun i hi => by simp only [eventsAfter, h.mask i hi]
  -- the word, whether it was written or not
  have hword : ∀ b, (rf.peek s'.hw .tsuIntEn).getLsbD b =
      if b = 2 then eventsAfter enable evMask s.conf.ts.eventMask.getLsbD 5
      else if b = 3 then eventsAfter enable evMask s.conf.ts.eventMask.getLsbD 6
      else (rf.peek s.hw .tsuIntEn).getLsbD b := by
    intro b
    rw [hreg]
    split
    · rw [tsuIntEnWord_getLsbD, maskAfter_getLsbD _ (by decide), maskAfter_getLsbD _ (by decide)]
    · next hch =>
      rw [eventsAfter_of_not_changed hP hch (Or.inl rfl), eventsAfter_of_not_changed hP hch (Or.inr rfl),
        h.mask 5 (by decide), h.mask 6 (by decide)]
      split
      · next hb => rw [hb, h.captured]
      · split
        · next hb => rw [hb, h.overflow]
        · rfl
  constructor
  · intro i hi
    rw [hmask i hi, hafter i hi]
  · rw [hword, if_pos rfl, hafter 5 (by decide)]
  · rw [hword, if_neg (by decide), if_pos rfl, hafter 6 (by decide)]
  · intro b hb2 hb3
    rw [hword, if_neg hb2, if_neg hb3, h.others b hb2 hb3]

theorem EventsMatch.of_peek (h : EventsMatch rf s₀ on s) (hc : s'.conf = s.conf)
    (hr : rf.peek s'.hw .tsuIntEn = rf.peek s.hw .tsuIntEn) : EventsMatch rf s₀ on s' :=
  ⟨by rw [hc]; exact h.mask, by rw [hr]; exact h.captured, by rw [hr]; exact h.overflow, by rw [hr]; exact h.others⟩

theorem EventStep.matches {x y : Dev PhyData H × (Nat → Bool)} (hstep : EventStep rf EnablesApart x y)
    (h : EventsMatch rf s₀ x.2 x.1) : EventsMatch rf s₀ y.2 y.1 := by
  cases hstep with
  | set hP hs hok => exact h.set hP hs hok
  | @poll s s' on status res hs hok =>
    obtain ⟨chip, sts, -, -, heq⟩ := tsEventPoll_eq hs status
    rw [heq] at hok
    have hreg : ¬EpReg.status .tsuIntEn := by simp [EpReg.status]
    split at hok
    · cases hok
      refine h.of_peek rfl ?_
      exact (rf.peek_rd _ _ _ hreg).trans (rf.peek_rd _ _ _ hreg)
    · cases hok
      exact h.of_peek rfl (rf.peek_rd _ _ _ hreg)
  | drift hd => exact h.of_peek rfl (rf.peek_drift _ _ _ (by simp [EpReg.status]) (fun h => h) hd)

/-- In every run on a device that answers, in which every call either enables nothing that overlaps the mask or no new
event of the register, mask and register hold the events that are on, and a poll that starts from an empty status word
reports those of them that are pending. -/
theorem event_masks (rf : PortRegs H) {s₀ s : Dev PhyData H} {on₀ on : Nat → Bool} (hstart : EventsMatch rf s₀ on₀ s₀)
    (hrun : EventRun rf EnablesApart (s₀, on₀) (s, on)) :
    EventsMatch rf s₀ on s ∧ ∀ res s', rf.Sound s.hw → tsEventPoll rf.toBus 0#32 s = .ok res s' →
      res.1 = 0 ∧ ∀ i, res.2.getLsbD i = true ↔ i < 32 ∧ on i = true ∧ Pending rf s i := by
  have hinv : ∀ y, EventRun rf EnablesApart (s₀, on₀) y → EventsMatch rf s₀ y.2 y.1 := by
    intro y hy
    induction hy with
    | refl => exact hstart
    | tail _ hstep ih => exact hstep.matches ih
  have h := hinv _ hrun
  refine ⟨h, fun res s' hs hok => ?_⟩
  obtain ⟨chip, sts, hchip, hsts, heq⟩ := tsEventPoll_eq hs 0#32
  rw [heq] at hok
  have hpending : ∀ i, Pending rf s i ↔ chip.getLsbD (s.conf.packetIdx.toNat % 4) = true ∧
      (i = 5 ∧ sts.getLsbD 2 = true ∨ i = 6 ∧ sts.getLsbD 3 = true) := by
    intro i
    constructor
    · rintro ⟨chip', sts', h₁, h₂, hrest⟩
      rw [hchip] at h₁
      rw [hsts] at h₂
      cases h₁
      cases h₂
      exact hrest
    · exact fun hrest => ⟨chip, sts, hchip, hsts, hrest⟩
  have hrange : ∀ i, (i = 5 ∧ sts.getLsbD 2 = true ∨ i = 6 ∧ sts.getLsbD 3 = true) → i < 32 := by
    rintro i (⟨rfl, -⟩ | ⟨rfl, -⟩) <;> decide
  split at hok
  · next hbit =>
    cases hok
    refine ⟨rfl, fun i => ?_⟩
    rw [tsEvents_getLsbD, hpending]
    constructor
    · rintro ⟨he, hi⟩
      exact ⟨hrange i hi, (h.mask i (hrange i hi)).symm.trans he, hbit, hi⟩
    · rintro ⟨hlt, hon, -, hi⟩
      exact ⟨(h.mask i hlt).trans hon, hi⟩
  · next hbit =>
    cases hok
    refine ⟨rfl, fun i => ?_⟩
    rw [hpending]
    simp [hbit]

end Runs

/-! ### A second event enabled beside a first one -/

abbrev benchSet (enable : Bool) (evMask : BitVec 32) (s : Dev PhyData (EpReg → BitVec 16)) :
    Dev PhyData (EpReg → BitVec 16) := final (tsEventSet bench.toBus enable evMask) s

theorem bench_events : EventsMatch bench benchInit (fun _ => false) benchInit := by
  refine ⟨fun i _ => ?_, rfl, rfl, fun _ _ _ => rfl⟩
  exact BitVec.getLsbD_zero

theorem event_masks_captured : EventsMatch bench benchInit (eventsAfter true tsEgrTimestampCaptured fun _ => false)
    (benchSet true tsEgrTimestampCaptured benchInit) := by
  have hok : tsEventSet bench.toBus true tsEgrTimestampCaptured benchInit =
      .ok () (benchSet true tsEgrTimestampCaptured benchInit) := rfl
  have hP : EnablesApart benchInit.conf true tsEgrTimestampCaptured := fun _ => Or.inl rfl
  exact (event_masks bench bench_events (.single (.set hP storage_sound hok))).1

/-- `CAPTURED` is enabled, then `CAPTURED` and `OVERFLOW`: the interrupt for `OVERFLOW` stays off. -/
theorem not_event_masks : ¬∀ (s₀ s : Dev PhyData (EpReg → BitVec 16)) (on₀ on : Nat → Bool),
    EventsMatch bench s₀ on₀ s₀ → EventRun bench (fun _ _ _ => True) (s₀, on₀) (s, on) → EventsMatch bench s₀ on s := by
  intro h
  have hok : tsEventSet bench.toBus true tsEgrTimestampCaptured benchInit =
      .ok () (benchSet true tsEgrTimestampCaptured benchInit) := rfl
  have hok' : tsEventSet bench.toBus true (tsEgrTimestampCaptured ||| tsEgrFifoOverflow)
      (benchSet true tsEgrTimestampCaptured benchInit) = .ok () (benchSet true
        (tsEgrTimestampCaptured ||| tsEgrFifoOverflow) (benchSet true tsEgrTimestampCaptured benchInit)) := rfl
  have hfirst : EventStep bench (fun _ _ _ => True) (benchInit, fun _ => false)
      (benchSet true tsEgrTimestampCaptured benchInit, eventsAfter true tsEgrTimestampCaptured fun _ => false) :=
    .set trivial storage_sound hok
  have hrun := (Relation.ReflTransGen.single hfirst).tail (.set trivial storage_sound hok')
  have hm := (h _ _ _ _ bench_events hrun).overflow
  have hreg : (bench.peek (benchSet true (tsEgrTimestampCaptured ||| tsEgrFifoOverflow)
      (benchSet true tsEgrTimestampCaptured benchInit)).hw .tsuIntEn).getLsbD 3 = false := rfl
  rw [hreg] at hm
  cases hm

end Lan80xx.Lan8814
