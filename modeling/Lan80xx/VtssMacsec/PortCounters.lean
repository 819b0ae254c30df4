import Lan80xx.VtssMacsec.CounterReads
import Lan80xx.VtssMacsec.Places
import Mathlib.Algebra.BigOperators.Group.Finset.Basic
import Mathlib.Order.Lattice.Nat

/-!
# MACsec of the VTSS PHYs: the counters of the common and the controlled port

- `CommonErrors`, `ControlledErrors`: the sums that the ports are to report;
- `steps_commonErrorsGet`, `steps_controlledCountersGet`: what they report;
- `PortOp`, `Port`: traffic, reads and clears in any order, with the traffic since the last clear;
- `port_counters_right`: the runs in which every report is right.
-/

namespace Lan80xx.VtssMacsec

open Fallible RegBus
open Macsec (MacsecPort Sci saPerScMax)

/-! ## What is to be reported -/

section Reports

variable (phy : Phy) (c : Conf)

def secysInUse : Finset Nat := (Finset.range phy.maxSecyCnt).filter fun i => (c.secy i).inUse = true

/-- A counter that is read port-wide: the largest of what the SecYs have. -/
def largest (f : SecyCounters → Nat) (st : Stats) : Nat := (secysInUse phy c).sup fun i => f (st.secy i).secyCnt

/-- The packets that the channels of a SecY have counted. -/
def channelPkts (i : Nat) (k : RxPkt) (st : Stats) : Nat :=
  ∑ sc ∈ Finset.range phy.maxScCnt, ((c.secy i).rxSc sc).elim 0 fun p => rxHeld c st p k

/-- The sums of the common port: over all SecYs, and over all their channels. -/
structure CommonErrors (k : CommonCounters) (st : Stats) : Prop where
  ifOutErrors : k.ifOutErrors = ∑ i ∈ secysInUse phy c, (st.secy i).secyCnt.outPktsTooLong
  ifInErrors : k.ifInErrors = largest phy c (·.inPktsBadTag) st + largest phy c (·.inPktsNoSci) st +
    ∑ i ∈ secysInUse phy c, (channelPkts phy c i .notUsingSa st + channelPkts phy c i .notValid st)
  ifInDiscards : k.ifInDiscards = largest phy c (·.inPktsNoTag) st +
    ∑ i ∈ secysInUse phy c, channelPkts phy c i .late st + largest phy c (·.inPktsOverrun) st

/-- The sums of a controlled port: over the channels of its SecY. -/
structure ControlledErrors (i : Nat) (k : SecyPortCounters) (st : Stats) : Prop where
  ifOutErrors : k.ifOutErrors = (st.secy i).secyCnt.outPktsTooLong
  ifInErrors : k.ifInErrors = largest phy c (·.inPktsBadTag) st + largest phy c (·.inPktsNoSci) st +
    (channelPkts phy c i .notUsingSa st + channelPkts phy c i .notValid st)
  ifInDiscards : k.ifInDiscards = largest phy c (·.inPktsNoTag) st + channelPkts phy c i .late st +
    largest phy c (·.inPktsOverrun) st

end Reports

/-! ## What the steps of a read keep -/

section Kept

variable {phy : Phy} {c : Conf} {D : Nat → Prop} {W : Prop} {i j : Nat} {st st' : Stats}

/-- The counters of the MACs, and what is derived from them. -/
structure SameMac (st st' : Stats) : Prop where
  lineMac : st'.lineMac = st.lineMac
  clrVal : st'.glb.commonCntClrVal = st.glb.commonCntClrVal
  rmon : st'.glb.rmonCountersClr = st.glb.rmonCountersClr
  traffic : st'.glb.commonCnt.traffic = st.glb.commonCnt.traffic

theorem readStep_sameMac (h : ReadStep phy c D W st st') : SameMac st st' := by
  cases h with
  | common _ hf => exact ⟨rfl, rfl, rfl, hf _⟩
  | _ => exact ⟨rfl, rfl, rfl, rfl⟩

theorem reads_sameMac (h : (reads phy c D W).rel st st') : SameMac st st' := by
  refine reads_keep (I := SameMac st) (fun st₁ st₂ hs h => ?_) h ⟨rfl, rfl, rfl, rfl⟩
  obtain ⟨hl, hc, hr, ht⟩ := readStep_sameMac hs
  exact ⟨hl.trans h.lineMac, hc.trans h.clrVal, hr.trans h.rmon, ht.trans h.traffic⟩

theorem readStep_inErrors (h : ReadStep phy c D W st st') :
    (st'.secy j).controlledCnt.ifInErrors = (st.secy j).controlledCnt.ifInErrors := by
  have hkept := @update_kept Nat _ _ _ fun s : SecyStats => s.controlledCnt.ifInErrors
  cases h with
  | tx => exact hkept (by rfl) j
  | txScPkts => exact hkept (by rfl) j
  | secyTx => exact hkept (by rfl) j
  | secyIn => exact hkept (by rfl) j
  | rxSa => exact hkept (by rfl) j
  | global =>
    simp only [globalDrain]
    split <;> rfl
  | controlled _ hf => exact hkept (hf _).1 j
  | _ => rfl

/-- No step adds to the errors in of a controlled port. -/
theorem reads_inErrors (h : (reads phy c D W).rel st st') :
    (st'.secy j).controlledCnt.ifInErrors = (st.secy j).controlledCnt.ifInErrors :=
  reads_keep (I := fun st' => (st'.secy j).controlledCnt.ifInErrors = (st.secy j).controlledCnt.ifInErrors)
    (fun _ _ hs h => (readStep_inErrors hs).trans h) h rfl

/-- Nothing more is added to what has been read port-wide. -/
theorem readStep_portWide (h : ReadStep phy c D W st st') (hg : st.global = {}) :
    st'.global = {} ∧ ∀ j, (st'.secy j).secyCnt.portWide = (st.secy j).secyCnt.portWide := by
  have hkept := @update_kept Nat _ _ _ fun s : SecyStats => s.secyCnt.portWide
  cases h with
  | tx => exact ⟨hg, hkept (by rfl)⟩
  | txScPkts => exact ⟨hg, hkept (by rfl)⟩
  | secyTx => exact ⟨hg, hkept (by rfl)⟩
  | secyIn => exact ⟨hg, hkept (by rfl)⟩
  | rxSa => exact ⟨hg, hkept (by rfl)⟩
  | global =>
    refine ⟨rfl, fun j => ?_⟩
    simp only [globalDrain, hg]
    split <;> rfl
  | controlled => exact ⟨hg, hkept (by rfl)⟩
  | _ => exact ⟨hg, fun _ => rfl⟩

theorem reads_portWide (h : (reads phy c D W).rel st st') (hg : st.global = {}) :
    st'.global = {} ∧ ∀ j, (st'.secy j).secyCnt.portWide = (st.secy j).secyCnt.portWide := by
  refine reads_keep (I := fun st' => st'.global = {} ∧ ∀ j, (st'.secy j).secyCnt.portWide = (st.secy j).secyCnt.portWide)
    (fun st₁ st₂ hs h => ?_) h ⟨hg, fun _ => rfl⟩
  have hstep := readStep_portWide hs h.1
  exact ⟨hstep.1, fun j => (hstep.2 j).trans (h.2 j)⟩

/-- The packets too long of a SecY whose SAs have none left to be read. -/
theorem readStep_secyTooLong (h : ReadStep phy c D W st st') (hr : TxRead c j saPerScMax st) :
    (st'.secy j).secyCnt.outPktsTooLong = (st.secy j).secyCnt.outPktsTooLong := by
  have hkept := @update_kept Nat _ _ _ fun s : SecyStats => s.secyCnt.outPktsTooLong
  cases h with
  | @tx i an r hu han hsa =>
    by_cases hij : j = i
    · subst hij
      simp [txSaDrain, hr hu an han r hsa]
    · simp [txSaDrain, Function.update_of_ne hij]
  | txScPkts => exact hkept (by rfl) j
  | secyTx => exact hkept (by rfl) j
  | secyIn => exact hkept (by rfl) j
  | rxSa => exact hkept (by rfl) j
  | global =>
    simp only [globalDrain]
    split <;> rfl
  | controlled => exact hkept (by rfl) j
  | _ => rfl

theorem reads_secyTooLong (h : (reads phy c D W).rel st st') (hr : TxRead c j saPerScMax st) :
    TxRead c j saPerScMax st' ∧ (st'.secy j).secyCnt.outPktsTooLong = (st.secy j).secyCnt.outPktsTooLong := by
  refine reads_keep (I := fun st' => TxRead c j saPerScMax st' ∧
    (st'.secy j).secyCnt.outPktsTooLong = (st.secy j).secyCnt.outPktsTooLong) (fun st₁ st₂ hs h => ?_) h ⟨hr, rfl⟩
  exact ⟨reads_txRead (.single hs) h.1, (readStep_secyTooLong hs h.1).trans h.2⟩

/-- The reads of SAs and SecYs leave the counters of the common port, and the sums of the controlled ports. -/
theorem readStep_ports (h : ReadStep phy c D False st st') : st'.glb = st.glb ∧
    ∀ j, (st'.secy j).controlledCnt.ifOutErrors = (st.secy j).controlledCnt.ifOutErrors := by
  have hkept := @update_kept Nat _ _ _ fun s : SecyStats => s.controlledCnt.ifOutErrors
  cases h with
  | tx => exact ⟨rfl, hkept (by rfl)⟩
  | txScPkts h => exact h.elim
  | secyTx => exact ⟨rfl, hkept (by rfl)⟩
  | secyIn => exact ⟨rfl, hkept (by rfl)⟩
  | rxOk => exact ⟨rfl, fun _ => rfl⟩
  | rxSa => exact ⟨rfl, hkept (by rfl)⟩
  | rxScPkts h => exact h.elim
  | global =>
    refine ⟨rfl, fun j => ?_⟩
    simp only [globalDrain]
    split <;> rfl
  | controlled h => exact h.elim
  | common h => exact h.elim

theorem reads_ports (h : (reads phy c D False).rel st st') : st'.glb = st.glb ∧
    ∀ j, (st'.secy j).controlledCnt.ifOutErrors = (st.secy j).controlledCnt.ifOutErrors := by
  refine reads_keep (I := fun st' => st'.glb = st.glb ∧
    ∀ j, (st'.secy j).controlledCnt.ifOutErrors = (st.secy j).controlledCnt.ifOutErrors) (fun st₁ st₂ hs h => ?_) h
    ⟨rfl, fun _ => rfl⟩
  have hstep := readStep_ports hs
  exact ⟨hstep.1.trans h.1, fun j => (hstep.2 j).trans (h.2 j)⟩

end Kept

/-! ## The port-wide counters -/

section PortWide

variable {phy : Phy} {c : Conf} {D : Nat → Prop} {i : Nat} {st st' : Stats}

/-- A counter of the first SecYs in use, other than `skip`. -/
def largestBelow (c : Conf) (skip : Option Nat) (n : Nat) (f : SecyCounters → Nat) (st : Stats) : Nat :=
  ((Finset.range n).filter fun j => (c.secy j).inUse = true ∧ skip ≠ some j).sup fun j => f (st.secy j).secyCnt

theorem largestBelow_succ {skip : Option Nat} {n : Nat} {f : SecyCounters → Nat} : largestBelow c skip (n + 1) f st =
    if (c.secy n).inUse = true ∧ skip ≠ some n then max (largestBelow c skip n f st) (f (st.secy n).secyCnt)
    else largestBelow c skip n f st := by
  rw [largestBelow, Finset.range_add_one, Finset.filter_insert]
  split
  · rw [Finset.sup_insert, max_comm]
    rfl
  · rfl

/-- What the loop over the SecYs has found. -/
def wideBelow (c : Conf) (skip : Option Nat) (n : Nat) (st : Stats) : PortWide where
  inPktsBadTag := largestBelow c skip n (·.inPktsBadTag) st
  inPktsNoSci := largestBelow c skip n (·.inPktsNoSci) st
  inPktsNoTag := largestBelow c skip n (·.inPktsNoTag) st
  inPktsOverrun := largestBelow c skip n (·.inPktsOverrun) st

theorem wideBelow_succ {skip : Option Nat} {n : Nat} : wideBelow c skip (n + 1) st =
    if (c.secy n).inUse = true ∧ skip ≠ some n then (wideBelow c skip n st).max (st.secy n).secyCnt.portWide
    else wideBelow c skip n st := by
  simp only [wideBelow, largestBelow_succ]
  split <;> rfl

theorem wideBelow_congr {skip : Option Nat} (h : ∀ j, (st'.secy j).secyCnt.portWide = (st.secy j).secyCnt.portWide)
    (n : Nat) : wideBelow c skip n st' = wideBelow c skip n st := by
  induction n with
  | zero => rfl
  | succ n ih => rw [wideBelow_succ, wideBelow_succ, ih, h n]

/-- No SecY has been read yet. -/
theorem wideBelow_none {skip : Option Nat} {n : Nat} (h : ∀ j < n, ¬((c.secy j).inUse = true ∧ skip ≠ some j)) :
    wideBelow c skip n st = {} := by
  induction n with
  | zero => rfl
  | succ n ih => rw [wideBelow_succ, if_neg (h n (Nat.lt_succ_self n)), ih fun j hj => h j (Nat.lt_succ_of_lt hj)]

theorem PortWide.max_empty (w : PortWide) : w.max {} = w := by simp [PortWide.max]

theorem PortWide.empty_max (w : PortWide) : ({} : PortWide).max w = w := by simp [PortWide.max]

theorem PortWide.max_assoc (a b d : PortWide) : (a.max b).max d = a.max (b.max d) := by
  simp [PortWide.max, Nat.max_assoc]

/-- The port-wide counters are read: after the first SecY, they stay as they are. -/
theorem steps_portWideRead {skip : Option Nat} {w : PortWide} (hD : ∀ j, D j) :
    Steps (reads phy c D False) (fun _ => True) (portWideRead phy c skip w) fun v st =>
      v = w.max (wideBelow c skip phy.maxSecyCnt st) := by
  refine ((Steps.foldUpTo (b := w) (I := fun n v st => v = w.max (wideBelow c skip n st) ∧
    ((∀ j < n, ¬((c.secy j).inUse = true ∧ skip ≠ some j)) ∨ st.global = {})) _ fun acc n hn => ?_).pre ?_).post
    fun _ _ h => h.1
  · refine Steps.ite (fun hin => ?_) fun hin => Steps.pure fun st h => ⟨?_, h.2.imp_left fun hj j hlt => ?_⟩
    · refine Steps.bind (Q := fun k st => (SecyRead phy c n st ∧ k = (st.secy n).secyCnt) ∧
        acc = w.max (wideBelow c skip n st)) ?_ fun k => Steps.pure fun st h => ⟨?_, .inr h.1.1.global⟩
      · refine ((steps_secyCountersGet (hD n)).pre fun _ _ => trivial).framed fun st st' h hrel => ?_
        rw [h.1]
        rcases h.2 with hnone | hg
        · rw [wideBelow_none hnone, wideBelow_none hnone]
        · rw [wideBelow_congr (reads_portWide hrel hg).2]
      · rw [wideBelow_succ, if_pos hin, ← PortWide.max_assoc, ← h.2, h.1.2]
    · rw [wideBelow_succ, if_neg hin, h.1]
    · rcases Nat.lt_succ_iff_lt_or_eq.mp hlt with hlt | rfl
      · exact hj j hlt
      · exact hin
  · exact fun st _ => ⟨(PortWide.max_empty w).symm, .inl fun j hj => absurd hj (Nat.not_lt_zero j)⟩

/-- The counters of the common port that come from the port-wide ones alone. -/
def PortWide.common (w : PortWide) (traffic : PortCnt → Nat) : CommonCounters where
  traffic
  ifInErrors := w.inPktsBadTag + w.inPktsNoSci
  ifInDiscards := w.inPktsNoTag + w.inPktsOverrun

/-- What `vtss_macsec_common_counters_get_priv` reports. -/
theorem steps_commonErrorsGet (hD : ∀ j, D j) : Steps (reads phy c D True) (fun _ => True) (commonErrorsGet phy c)
    fun k st => k = (wideBelow c none phy.maxSecyCnt st).common st.glb.commonCnt.traffic := by
  refine Steps.bind (Q := fun _ st => st.glb.commonCnt.ifOutErrors = 0) ?_ fun _ => ?_
  · exact Steps.modify fun st _ => ⟨.single (.common (f := fun k => { k with ifOutErrors := 0 }) trivial fun _ => rfl), rfl⟩
  refine Steps.bind (Q := fun wide st => wide = wideBelow c none phy.maxSecyCnt st ∧ st.glb.commonCnt.ifOutErrors = 0)
    ?_ fun wide => ?_
  · have hread := (@steps_portWideRead phy c _ none {} hD).pre
      fun st (_ : st.glb.commonCnt.ifOutErrors = 0) => trivial
    refine ((hread.framed fun st st' h hrel => ?_).mono fun st st' _ => reads_storing).post fun v st h => ⟨?_, h.2⟩
    · rw [(reads_ports hrel).1]
      exact h
    · rw [h.1]
      exact PortWide.empty_max _
  refine Steps.bind (Q := fun _ st => st.glb.commonCnt = wide.common st.glb.commonCnt.traffic ∧
    wide = wideBelow c none phy.maxSecyCnt st) ?_ fun _ => ?_
  · refine Steps.modify fun st h => ⟨.single (.common (f := fun k => { k with
      ifInErrors := wide.inPktsBadTag + wide.inPktsNoSci
      ifInDiscards := wide.inPktsNoTag + 0 + wide.inPktsOverrun }) trivial fun _ => rfl), ?_, ?_⟩
    · simp [PortWide.common, h.2]
    · rw [h.1]
      exact (wideBelow_congr (fun _ => rfl) _).symm
  · refine Steps.bind Steps.get fun st => Steps.pure fun st' h => ?_
    rw [h.2, ← h.1.2]
    exact h.1.1

end PortWide

/-! ## The controlled port -/

section Controlled

variable {phy : Phy} {c : Conf} {D : Nat → Prop} {W : Prop} {i : Nat} {st st' : Stats}

theorem channelPkts_eq (hn : Numbered c) (h : (reads phy c D W).rel st st') {k : RxPkt} :
    channelPkts phy c i k st' = channelPkts phy c i k st := by
  refine Finset.sum_congr rfl fun sc _ => ?_
  cases (c.secy i).rxSc sc with
  | none => rfl
  | some p => exact rxHeld_eq hn h

/-- The late packets of the last one of the first channels. -/
def lateBelow (c : Conf) (i : Nat) (st : Stats) : Nat → Nat
  | 0 => 0
  | sc + 1 => ((c.secy i).rxSc sc).elim (lateBelow c i st sc) fun p => rxHeld c st p .late

theorem lateBelow_eq (hn : Numbered c) (h : (reads phy c D W).rel st st') (n : Nat) :
    lateBelow c i st' n = lateBelow c i st n := by
  induction n with
  | zero => rfl
  | succ sc ih =>
    rw [lateBelow, lateBelow, ih]
    cases (c.secy i).rxSc sc with
    | none => rfl
    | some p => exact rxHeld_eq hn h

theorem rel_setControlled {f : SecyPortCounters → SecyPortCounters} (hf : ∀ s, (f s).ifInErrors = s.ifInErrors ∧
    (f s).ifInCastPkts = s.ifInCastPkts ∧ (f s).ifOutCastPkts = s.ifOutCastPkts) :
    (reads phy c D True).rel st (st.setControlled i f) := .single (.controlled trivial hf)

theorem reads_setControlled {f : SecyPortCounters → SecyPortCounters} (hf : ∀ s, (f s).ifInErrors = s.ifInErrors ∧
    (f s).ifInCastPkts = s.ifInCastPkts ∧ (f s).ifOutCastPkts = s.ifOutCastPkts) :
    Within (reads phy c D True) (modify fun st => st.setControlled i f : Reading PUnit) := fun _ => rel_setControlled hf

theorem reads_controlledRxRead (hD : D i) : Within (reads phy c D True) (controlledRxRead phy c i) := by
  refine Within.foldUpTo _ fun acc sc _ => ?_
  split
  · exact Within.pure _
  · refine (Within.forUpTo _ fun an han => ?_).bind fun _ => reads_get.bind fun _ => Within.pure _
    split
    · exact Within.pure _
    · refine Within.bind (within_iff.mpr ((steps_rxSaCountersGet hD han).post fun _ _ _ => trivial)) fun _ => ?_
      exact reads_setControlled fun _ => ⟨rfl, rfl, rfl⟩

theorem reads_controlledTxRead : Within (reads phy c D True) (controlledTxRead c i) :=
  Within.forUpTo _ fun _ _ => Within.when fun _ => reads_txSaCountersGet.bind fun _ =>
    reads_setControlled fun _ => ⟨rfl, rfl, rfl⟩

/-- The channels of a controlled port: each place is found by the SCI of its channel. -/
theorem steps_controlledScRead (hn : Numbered c) (hc : Channels phy c) (hD : D i) :
    Steps (reads phy c D True) (fun _ => True) (controlledScRead phy c i) fun v st =>
      v.2.2 = lateBelow c i st phy.maxScCnt := by
  refine (Steps.foldUpTo (b := ((0, 0, 0) : Nat × Nat × Nat)) (I := fun n v st => v.2.2 = lateBelow c i st n) _
    fun acc sc _ => ?_).pre fun _ _ => rfl
  split
  · next hp => exact Steps.pure fun st h => by rw [h, lateBelow, hp, Option.elim_none]
  · next p hp =>
    refine ((steps_rxScCountersGet hn hD trivial).pre fun _ _ => trivial).bind fun k => Steps.pure fun st h => ?_
    obtain ⟨sc', p', hsc, hp', -, hk⟩ := h
    obtain ⟨-, p'', hp'', hu, hsci⟩ := scFromSciGet_spec hsc
    cases hp'.symm.trans hp''
    cases hc.distinct (hc.pointed hp') (hc.pointed hp) hu hsci
    rw [lateBelow, hp]
    exact hk .late

/-- What the read of a controlled port has read first. -/
structure OwnRead (c : Conf) (i : Nat) (secy : SecyCounters) (st : Stats) : Prop where
  tx : TxRead c i saPerScMax st
  global : st.global = {}
  tooLong : secy.outPktsTooLong = (st.secy i).secyCnt.outPktsTooLong
  portWide : secy.portWide = (st.secy i).secyCnt.portWide

theorem OwnRead.kept {secy : SecyCounters} (h : OwnRead c i secy st) (hrel : (reads phy c D W).rel st st') :
    OwnRead c i secy st' where
  tx := (reads_secyTooLong hrel h.tx).1
  global := (reads_portWide hrel h.global).1
  tooLong := h.tooLong.trans (reads_secyTooLong hrel h.tx).2.symm
  portWide := h.portWide.trans ((reads_portWide hrel h.global).2 i).symm

/-- The port-wide counters, those of one SecY apart. -/
def wideOf (phy : Phy) (c : Conf) (i : Nat) (st : Stats) : PortWide :=
  (st.secy i).secyCnt.portWide.max (wideBelow c (some i) phy.maxSecyCnt st)

theorem wideOf_eq (h : (reads phy c D W).rel st st') (hg : st.global = {}) : wideOf phy c i st' = wideOf phy c i st := by
  have hwide := (reads_portWide h hg).2
  rw [wideOf, wideOf, hwide, wideBelow_congr hwide]

/-- What the read of a controlled port has found and stored before it looks at the other SecYs. -/
structure PortFound (phy : Phy) (c : Conf) (i late : Nat) (secy : SecyCounters) (st : Stats) : Prop where
  own : OwnRead c i secy st
  late : late = lateBelow c i st phy.maxScCnt
  ifOutErrors : (st.secy i).controlledCnt.ifOutErrors = secy.outPktsTooLong

theorem PortFound.kept {late : Nat} {secy : SecyCounters} (h : PortFound phy c i late secy st) (hn : Numbered c)
    (hrel : (reads phy c D W).rel st st')
    (ho : (st'.secy i).controlledCnt.ifOutErrors = (st.secy i).controlledCnt.ifOutErrors) :
    PortFound phy c i late secy st' where
  own := h.own.kept hrel
  late := by rw [lateBelow_eq hn hrel, h.late]
  ifOutErrors := ho.trans h.ifOutErrors

theorem steps_controlledCountersGet (hn : Numbered c) (hc : Channels phy c) (hD : ∀ j, D j) (hu : (c.secy i).inUse = true) :
    Steps (reads phy c D True) (fun _ => True) (controlledCountersGet phy c i) fun k st =>
      k = (st.secy i).controlledCnt ∧ k.ifOutErrors = (st.secy i).secyCnt.outPktsTooLong ∧
        k.ifInDiscards = (wideOf phy c i st).inPktsNoTag + lateBelow c i st phy.maxScCnt +
          (wideOf phy c i st).inPktsOverrun := by
  refine Steps.bind (Q := fun _ _ => True) (Steps.modify fun st _ => ⟨rel_setControlled ?_, trivial⟩) fun _ => ?_
  · exact fun _ => ⟨rfl, rfl, rfl⟩
  refine ((steps_secyCountersGet (hD i)).post fun secy st h => show OwnRead c i secy st from ?_).bind fun secy => ?_
  · rw [h.2]
    exact ⟨h.1.tx, h.1.global, rfl, rfl⟩
  have hkeep {α : Type} {x : Reading α} (hx : Within (reads phy c D True) x) :
      Steps (reads phy c D True) (OwnRead c i secy) x fun _ => OwnRead c i secy :=
    hx.steps fun _ _ h hrel => ⟨hrel, h.kept hrel⟩
  refine (hkeep reads_get).bind fun st₀ => ?_
  refine (hkeep (reads_setControlled fun _ => by exact ⟨rfl, rfl, rfl⟩)).bind fun _ => ?_
  refine Steps.ite (fun hno => absurd (hu.symm.trans hno) (by decide)) fun _ => ?_
  refine (hkeep (reads_controlledRxRead (hD i))).bind fun disabled => (hkeep reads_controlledTxRead).bind fun _ => ?_
  refine (hkeep (reads_setControlled fun _ => by exact ⟨rfl, rfl, rfl⟩)).bind fun _ => ?_
  refine Steps.bind (((steps_controlledScRead hn hc (hD i)).pre fun _ _ => trivial).framed fun _ _ h hrel => h.kept hrel)
    fun sc => ?_
  refine Steps.bind (Q := fun _ => PortFound phy c i sc.2.2 secy) ?_ fun _ => ?_
  · refine Steps.modify fun st h => ?_
    have hrel : (reads phy c D True).rel st (st.setControlled i fun s => { s with ifOutErrors := secy.outPktsTooLong }) :=
      rel_setControlled fun _ => ⟨rfl, rfl, rfl⟩
    exact ⟨hrel, h.2.kept hrel, by rw [lateBelow_eq hn hrel, h.1], by simp [Stats.setControlled, Stats.setSecy]⟩
  refine Steps.bind (Q := fun wide st => PortFound phy c i sc.2.2 secy st ∧ wide = wideOf phy c i st) ?_ fun wide => ?_
  · have hread := (@steps_portWideRead phy c _ (some i) secy.portWide hD).pre
      fun st (_ : PortFound phy c i sc.2.2 secy st) => trivial
    have hkept : ∀ st st', PortFound phy c i sc.2.2 secy st → (reads phy c D False).rel st st' →
        PortFound phy c i sc.2.2 secy st' := fun _ _ h hrel => h.kept hn hrel ((reads_ports hrel).2 i)
    refine ((hread.framed hkept).mono fun _ _ _ => reads_storing).post fun wide st h => ⟨h.2, ?_⟩
    rw [h.1, wideOf, h.2.own.portWide]
  refine Steps.bind (Q := fun _ st => PortFound phy c i sc.2.2 secy st ∧ wide = wideOf phy c i st)
    (Steps.modify fun st h => ?_) fun _ => ?_
  · have hrel : (reads phy c D True).rel st { st with glb := { st.glb with commonCnt := { st.glb.commonCnt with
        ifInErrors := wide.inPktsBadTag + wide.inPktsNoSci + sc.1 + sc.2.1 } } } :=
      .single (.common (f := fun k => { k with ifInErrors := _ }) trivial fun _ => rfl)
    exact ⟨hrel, h.1.kept hn hrel rfl, by rw [wideOf_eq hrel h.1.own.global, h.2]⟩
  refine Steps.bind (Q := fun _ st => (PortFound phy c i sc.2.2 secy st ∧ wide = wideOf phy c i st) ∧
    (st.secy i).controlledCnt.ifInDiscards = wide.inPktsNoTag + sc.2.2 + wide.inPktsOverrun)
    (Steps.modify fun st h => ?_) fun _ => ?_
  · have hrel : (reads phy c D True).rel st (st.setControlled i fun s =>
        { s with ifInDiscards := wide.inPktsNoTag + sc.2.2 + wide.inPktsOverrun }) :=
      rel_setControlled fun _ => ⟨rfl, rfl, rfl⟩
    refine ⟨hrel, ⟨h.1.kept hn hrel ?_, by rw [wideOf_eq hrel h.1.own.global, h.2]⟩, ?_⟩
    all_goals simp [Stats.setControlled, Stats.setSecy]
  refine Steps.bind Steps.get fun st => Steps.pure fun st' h => ?_
  obtain ⟨⟨⟨hfound, hwide⟩, hdiscards⟩, rfl⟩ := h
  refine ⟨rfl, hfound.ifOutErrors.trans hfound.own.tooLong, ?_⟩
  rw [hdiscards, ← hfound.late, ← hwide]

end Controlled

/-! ## When the reports are right -/

section Sound

variable (phy : Phy) (c : Conf)

/-- The common port misses no packets: there are none too long, and the channels hold none that it does not read. -/
structure CommonSound (st : Stats) : Prop where
  tooLong : ∀ i ∈ secysInUse phy c, TxRead c i saPerScMax st ∧ (st.secy i).secyCnt.outPktsTooLong = 0
  channels : ∀ i ∈ secysInUse phy c, ∀ k, k = .notUsingSa ∨ k = .notValid ∨ k = .late → channelPkts phy c i k st = 0

/-- No SecY has packets with a bad tag, or without an SCI. -/
structure NoInErrors (st : Stats) : Prop where
  badTag : st.global.inPktsBadTag = 0 ∧ ∀ i ∈ secysInUse phy c, (st.secy i).secyCnt.inPktsBadTag = 0
  noSci : st.global.inPktsNoSci = 0 ∧ ∀ i ∈ secysInUse phy c, (st.secy i).secyCnt.inPktsNoSci = 0

/-- A controlled port misses no packets: there are no errors in, and only the last channel has late packets. -/
structure ControlledSound (i : Nat) (st : Stats) : Prop where
  noInErrors : NoInErrors phy c st
  channels : channelPkts phy c i .notUsingSa st = 0 ∧ channelPkts phy c i .notValid st = 0
  late : ∀ sc p, (c.secy i).rxSc sc = some p → (∃ sc' < phy.maxScCnt, sc < sc' ∧ (c.secy i).rxSc sc' ≠ none) →
    rxHeld c st p .late = 0

variable {phy c} {D : Nat → Prop} {W : Prop} {i : Nat} {st st' : Stats}

theorem mem_secysInUse : i ∈ secysInUse phy c ↔ i < phy.maxSecyCnt ∧ (c.secy i).inUse = true := by
  simp [secysInUse]

theorem largest_eq {f : SecyCounters → Nat} : largestBelow c none phy.maxSecyCnt f st = largest phy c f st := by
  simp [largestBelow, largest, secysInUse]

/-- The largest counter is that of one SecY or of another one. -/
theorem max_largestBelow (hi : i ∈ secysInUse phy c) {f : SecyCounters → Nat} :
    max (f (st.secy i).secyCnt) (largestBelow c (some i) phy.maxSecyCnt f st) = largest phy c f st := by
  have hset : secysInUse phy c = insert i ((Finset.range phy.maxSecyCnt).filter fun j =>
      (c.secy j).inUse = true ∧ some i ≠ some j) := by
    ext j
    obtain ⟨hlt, hu⟩ := mem_secysInUse.mp hi
    simp only [mem_secysInUse, Finset.mem_insert, Finset.mem_filter, Finset.mem_range, ne_eq, Option.some.injEq]
    by_cases hj : j = i
    · simp [hj, hlt, hu]
    · simp [hj, Ne.symm hj]
  rw [largest, hset, Finset.sup_insert]
  rfl

theorem readStep_noInErrors (h : ReadStep phy c D W st st') (hno : NoInErrors phy c st) : NoInErrors phy c st' := by
  have hkept := @update_kept Nat _ _ _ fun s : SecyStats => s.secyCnt.portWide
  have hsame : (∀ j, (st'.secy j).secyCnt.portWide = (st.secy j).secyCnt.portWide) → st'.global = st.global →
      NoInErrors phy c st' := by
    intro hsecy hglobal
    refine ⟨⟨by rw [hglobal, hno.badTag.1], fun j hj => ?_⟩, by rw [hglobal, hno.noSci.1], fun j hj => ?_⟩
    · exact (congrArg PortWide.inPktsBadTag (hsecy j)).trans (hno.badTag.2 j hj)
    · exact (congrArg PortWide.inPktsNoSci (hsecy j)).trans (hno.noSci.2 j hj)
  cases h with
  | tx => exact hsame (hkept (by rfl)) rfl
  | txScPkts => exact hsame (hkept (by rfl)) rfl
  | secyTx => exact hsame (hkept (by rfl)) rfl
  | secyIn => exact hsame (hkept (by rfl)) rfl
  | rxSa => exact hsame (hkept (by rfl)) rfl
  | global =>
    refine ⟨⟨rfl, fun j hj => ?_⟩, rfl, fun j hj => ?_⟩
    · simp [globalDrain, SecyCounters.addGlobal, mem_secysInUse.mp hj, hno.badTag.1, hno.badTag.2 j hj]
    · simp [globalDrain, SecyCounters.addGlobal, mem_secysInUse.mp hj, hno.noSci.1, hno.noSci.2 j hj]
  | controlled => exact hsame (hkept (by rfl)) rfl
  | _ => exact hsame (fun _ => rfl) rfl

/-- Where only the last channel has late packets, they are the sum. -/
theorem sum_late (n : Nat) (h : ∀ sc p, (c.secy i).rxSc sc = some p →
    (∃ sc' < n, sc < sc' ∧ (c.secy i).rxSc sc' ≠ none) → rxHeld c st p .late = 0) :
    ∑ sc ∈ Finset.range n, (((c.secy i).rxSc sc).elim 0 fun p => rxHeld c st p .late) = lateBelow c i st n := by
  induction n with
  | zero => rfl
  | succ n ih =>
    rw [Finset.sum_range_succ, lateBelow]
    cases hp : (c.secy i).rxSc n with
    | none =>
      rw [Option.elim_none, Option.elim_none, Nat.add_zero]
      refine ih fun sc p hsc hlater => h sc p hsc ?_
      obtain ⟨sc', hlt, hrest⟩ := hlater
      exact ⟨sc', Nat.lt_succ_of_lt hlt, hrest⟩
    | some p =>
      rw [Option.elim_some, Option.elim_some, Finset.sum_eq_zero, Nat.zero_add]
      intro sc hsc
      cases hq : (c.secy i).rxSc sc with
      | none => rfl
      | some q => exact h sc q hq ⟨n, Nat.lt_succ_self n, Finset.mem_range.mp hsc, by simp [hp]⟩

/-- **The common port reports its sums when it misses no packets.** -/
theorem commonErrors_of_sound (hn : Numbered c) (hs : CommonSound phy c st) {k : CommonCounters}
    (h : commonErrorsGet phy c st = .ok k st') :
    CommonErrors phy c k st' ∧ k.traffic = st'.glb.commonCnt.traffic := by
  have hspec := @steps_commonErrorsGet phy c (fun _ => True) (fun _ => trivial)
  have hrel : (reads phy c (fun _ => True) True).rel st st' := (within_iff.mpr (hspec.post fun _ _ _ => trivial)).ok h
  have hzero (i : Nat) (hi : i ∈ secysInUse phy c) (k : RxPkt) (hk : k = .notUsingSa ∨ k = .notValid ∨ k = .late) :
      channelPkts phy c i k st' = 0 := (channelPkts_eq hn hrel).trans (hs.channels i hi k hk)
  rw [hspec.ok trivial h]
  refine ⟨⟨?_, ?_, ?_⟩, rfl⟩
  · refine (Finset.sum_eq_zero fun i hi => ?_).symm
    rw [(reads_secyTooLong hrel (hs.tooLong i hi).1).2, (hs.tooLong i hi).2]
  · rw [Finset.sum_eq_zero fun i hi => by rw [hzero i hi _ (.inl rfl), hzero i hi _ (.inr (.inl rfl)), Nat.add_zero]]
    simp only [PortWide.common, wideBelow, largest_eq, Nat.add_zero]
  · rw [Finset.sum_eq_zero fun i hi => hzero i hi _ (.inr (.inr rfl))]
    simp only [PortWide.common, wideBelow, largest_eq, Nat.add_zero]

/-- **A controlled port reports its sums when it misses no packets.** -/
theorem controlledErrors_of_sound (hn : Numbered c) (hc : Channels phy c) (hi : i ∈ secysInUse phy c)
    (hs : ControlledSound phy c i st) (hz : (st.secy i).controlledCnt.ifInErrors = 0) {k : SecyPortCounters}
    (h : controlledCountersGet phy c i st = .ok k st') : ControlledErrors phy c i k st' := by
  have hspec := @steps_controlledCountersGet phy c (fun _ => True) i hn hc (fun _ => trivial)
    (mem_secysInUse.mp hi).2
  have hrel : (reads phy c (fun _ => True) True).rel st st' := (within_iff.mpr (hspec.post fun _ _ _ => trivial)).ok h
  obtain ⟨hk, hout, hdiscards⟩ := hspec.ok trivial h
  have hno : NoInErrors phy c st' := reads_keep (fun _ _ => readStep_noInErrors) hrel hs.noInErrors
  refine ⟨hout, ?_, ?_⟩
  · rw [hk, reads_inErrors hrel, hz, channelPkts_eq hn hrel, channelPkts_eq hn hrel, hs.channels.1, hs.channels.2]
    have hbad : largest phy c (·.inPktsBadTag) st' = 0 := Finset.sup_eq_bot_iff _ _ |>.mpr hno.badTag.2
    have hsci : largest phy c (·.inPktsNoSci) st' = 0 := Finset.sup_eq_bot_iff _ _ |>.mpr hno.noSci.2
    rw [hbad, hsci]
  · have hlate : channelPkts phy c i .late st' = lateBelow c i st' phy.maxScCnt := by
      rw [channelPkts_eq hn hrel, lateBelow_eq hn hrel]
      exact sum_late phy.maxScCnt hs.late
    rw [hdiscards, hlate]
    simp only [wideOf, PortWide.max, wideBelow, SecyCounters.portWide, max_largestBelow hi]

end Sound

/-! ## Runs -/

/-- Frames that a MAC counts, frames that the SAs and the port-wide registers count, exported reads, and exported
clears. The reads of SecYs and channels are there because they share registers with those of the ports. -/
inductive PortOp
  | lineFrames (r : MacReg) (n : Nat)
  | hostFrames (r : MacReg) (n : Nat)
  | saFrames (egr : Nat → EgrSaStats) (igr : Nat → IgrSaStats) (global : GlobalStats)
  | commonGet
  | controlledGet (port : MacsecPort)
  | secyGet (port : MacsecPort)
  | txScGet (port : MacsecPort)
  | rxScGet (port : MacsecPort) (sci : Sci)
  | lmacGet (clear : Bool)
  | hmacGet (clear : Bool)
  | countersClear
  | lmacClear
  | hmacClear
  | commonClear

/-- A port of which the MAC is modelled: its counters, the traffic since the common port was cleared, and what the common
port has reported since then. -/
structure Port where
  stats : Stats
  traffic : PortCnt → Nat
  reported : PortCnt → Nat

section Runs

variable (phy : Phy) (c : Conf)

namespace PortOp

/-- The frames count, and so do the calls that need no MACsec; the others ask whether the block is enabled. -/
def accepted : PortOp → Bool
  | .lineFrames _ _ | .hostFrames _ _ | .saFrames _ _ _ | .lmacGet _ | .hmacGet _ => true
  | _ => c.glb.init.enable

/-- An exported read of one SecY. -/
def ofSecy (port : MacsecPort) (x : Nat → Stats → Stats) (st : Stats) : Stats :=
  match c.portFind phy port with
  | some i => x i st
  | none => st

/-- The counters after an operation. A register of a MAC starts anew after its largest value. -/
def run : PortOp → Stats → Stats
  | .lineFrames r n, st => { st with lineMac := Function.update st.lineMac r ((st.lineMac r + n) % 2 ^ r.width) }
  | .hostFrames r n, st => { st with hostMac := Function.update st.hostMac r ((st.hostMac r + n) % 2 ^ r.width) }
  | .saFrames egr igr global, st => { st with egr, igr, global }
  | .commonGet, st => final (commonCountersGet phy c false) st
  | .controlledGet port, st => ofSecy phy c port (fun i => final (controlledCountersGet phy c i)) st
  | .secyGet port, st => ofSecy phy c port (fun i => final (secyCountersGet phy c i)) st
  | .txScGet port, st => ofSecy phy c port (fun i => final (txScCountersGet c i)) st
  | .rxScGet port sci, st => ofSecy phy c port (fun i => final (rxScCountersGet phy c i sci)) st
  | .lmacGet clear, st => final (lmacCountersGet clear) st
  | .hmacGet clear, st => final (hmacCountersGet clear) st
  | .countersClear, st => final (VtssMacsec.countersClear phy c) st
  | .lmacClear, st => final lmacCountersClear st
  | .hmacClear, st => final hmacCountersClear st
  | .commonClear, st => final (commonCountersClear phy c) st

/-- The counters of the common port are cleared: by themselves, or with the registers they come from. -/
def clears : PortOp → Bool
  | .lmacGet clear => clear
  | .countersClear | .lmacClear | .commonClear => true
  | _ => false

/-- The traffic that an operation adds. -/
def adds : PortOp → PortCnt → Nat
  | .lineFrames r n, k => if k.reg = r then n else 0
  | _, _ => 0

/-- What the common port has reported last. -/
def reports : PortOp → Stats → (PortCnt → Nat) → PortCnt → Nat
  | .commonGet, st, _ => st.glb.commonCnt.traffic
  | _, _, reported => reported

end PortOp

/-- The port after an operation. -/
def Port.next (op : PortOp) (s : Port) : Port :=
  if op.accepted c = true then
    { stats := op.run phy c s.stats
      traffic := fun k => if op.clears = true then 0 else s.traffic k + op.adds k
      reported := fun k => if op.clears = true then 0 else op.reports (op.run phy c s.stats) s.reported k }
  else s

/-- Every operation of a list meets a condition in the state in which it is made. -/
def PortMeets (P : Port → PortOp → Prop) : List PortOp → Port → Prop
  | [], _ => True
  | op :: ops, s => P s op ∧ PortMeets P ops (s.next phy c op)

/-- What a report is to say. -/
def PortOp.Right (s : Port) : PortOp → Prop
  | .commonGet => c.glb.init.enable = true → ∃ k st, commonCountersGet phy c false s.stats = .ok k st ∧
      k.traffic = s.traffic ∧ (∀ x, s.reported x ≤ k.traffic x) ∧ CommonErrors phy c k st
  | .controlledGet port => c.glb.init.enable = true → ∀ i k st, c.portFind phy port = some i →
      controlledCountersGet phy c i s.stats = .ok k st → ControlledErrors phy c i k st
  | _ => True

/-- The condition: no register of the line MAC overflows, its registers are not cleared alone while the common port
remembers what they were, and the reports miss no packets. -/
def PortOp.Sound (s : Port) : PortOp → Prop
  | .lineFrames r n => s.stats.lineMac r + n < 2 ^ r.width
  | .lmacClear => s.stats.glb.rmonCountersClr = true ∨ ∀ k, s.stats.glb.commonCntClrVal k = 0
  | .commonGet => CommonSound phy c s.stats
  | .controlledGet port => ∀ i, c.portFind phy port = some i → ControlledSound phy c i s.stats
  | _ => True

/-- A port whose counters have not been cleared since it was probed. -/
def Port.uncleared (st : Stats) : Port where
  stats := st
  traffic k := st.lineMac k.reg
  reported _ := 0

end Runs

/-! ## What an operation keeps -/

section Steps

variable {phy : Phy} {c : Conf} {i : Nat} {st st' : Stats} {s : Port} {op : PortOp}

/-- The counters of the common port are the traffic, by themselves or after the subtraction. -/
structure Port.Tracks (s : Port) : Prop where
  cleared : s.stats.glb.rmonCountersClr = true → ∀ k, s.traffic k = s.stats.lineMac k.reg
  baseline : s.stats.glb.rmonCountersClr = false → ∀ k, s.stats.glb.commonCntClrVal k ≤ s.stats.lineMac k.reg ∧
    s.traffic k = s.stats.lineMac k.reg - s.stats.glb.commonCntClrVal k
  reported : ∀ k, s.reported k ≤ s.traffic k
  inErrors : ∀ i, (s.stats.secy i).controlledCnt.ifInErrors = 0

namespace Port.Tracks

theorem compensated (h : s.Tracks) (k : PortCnt) :
    VtssMacsec.compensated s.stats.glb (s.stats.lineMac k.reg) k = s.traffic k := by
  unfold VtssMacsec.compensated
  cases hr : s.stats.glb.rmonCountersClr with
  | true => simp [h.cleared hr k]
  | false => simp [h.baseline hr k]

/-- The registers of the line MAC and what is known of them stay. -/
theorem same (h : s.Tracks) (hl : st.lineMac = s.stats.lineMac) (hc : st.glb.commonCntClrVal = s.stats.glb.commonCntClrVal)
    (hr : st.glb.rmonCountersClr = s.stats.glb.rmonCountersClr)
    (he : ∀ i, (st.secy i).controlledCnt.ifInErrors = (s.stats.secy i).controlledCnt.ifInErrors)
    {reported : PortCnt → Nat} (hrep : ∀ k, reported k ≤ s.traffic k) : Port.Tracks ⟨st, s.traffic, reported⟩ where
  cleared hr' k := by
    rw [hl]
    exact h.cleared (hr.symm.trans hr') k
  baseline hr' k := by
    rw [hl, hc]
    exact h.baseline (hr.symm.trans hr') k
  reported := hrep
  inErrors i := (he i).trans (h.inErrors i)

theorem reads (h : s.Tracks) (hrel : (VtssMacsec.reads phy c (fun _ => True) True).rel s.stats st) :
    Port.Tracks ⟨st, s.traffic, s.reported⟩ := by
  have hmac := reads_sameMac hrel
  exact h.same hmac.lineMac hmac.clrVal hmac.rmon (fun _ => reads_inErrors hrel) h.reported

/-- The registers of the line MAC are cleared, and known to be. -/
theorem cleared_mac (hl : ∀ k : PortCnt, st.lineMac k.reg = 0)
    (hb : st.glb.rmonCountersClr = true ∨ ∀ k, st.glb.commonCntClrVal k = 0)
    (he : ∀ i, (st.secy i).controlledCnt.ifInErrors = 0) : Port.Tracks ⟨st, fun _ => 0, fun _ => 0⟩ where
  cleared _ k := (hl k).symm
  baseline hr k := by
    rcases hb with hb | hb
    · exact absurd (hb.symm.trans hr) (by decide)
    · rw [hl, hb]
      exact ⟨le_rfl, rfl⟩
  reported _ := le_rfl
  inErrors := he

end Port.Tracks

theorem rel_commonCountersGet (clear : Bool) : (reads phy c (fun _ => True) True).rel (commonTraffic clear st)
    (final (commonCountersGet phy c clear) st) := by
  have hspec := @steps_commonErrorsGet phy c (fun _ => True) (fun _ => trivial)
  exact (hspec (commonTraffic clear st) trivial).1

theorem rel_ofSecy {α : Type} {x : Nat → Reading α} {port : MacsecPort}
    (hx : ∀ i, c.portFind phy port = some i → Within (reads phy c (fun _ => True) True) (x i)) :
    (reads phy c (fun _ => True) True).rel st (PortOp.ofSecy phy c port (fun i => final (x i)) st) := by
  unfold PortOp.ofSecy
  split
  · next i hi => exact hx i hi st
  · exact .refl

theorem total_secyCountersGet : Total (secyCountersGet phy c i) := by
  have htx : Total (secyTxRead c i) := by
    refine Total.foldUpTo (fun acc an => ?_) _
    split
    · exact Total.pure _
    · exact Total.ite (Total.pure _) ((Total.modify _).bind fun _ => Total.get.bind fun _ => Total.pure _)
  have hrx (b : Bool) : Total (secyRxRead phy c i b) := by
    refine (Total.modify _).bind fun _ => Total.forUpTo (fun sc => ?_) _
    split
    · exact Total.pure _
    · refine (Total.forUpTo (fun an => ?_) _).bind fun _ => Total.modify _
      split
      · exact Total.pure _
      · exact Total.modify _
  exact htx.bind fun tx => (Total.modify _).bind fun _ => (hrx tx.2).bind fun _ => (Total.modify _).bind fun _ =>
    Total.get.bind fun _ => Total.pure _

/-- The common port is always read. -/
theorem total_commonErrorsGet : Total (commonErrorsGet phy c) := by
  refine (Total.modify _).bind fun _ => Total.bind (Total.foldUpTo (fun acc j => ?_) _) fun _ => ?_
  · exact Total.ite (total_secyCountersGet.bind fun _ => Total.pure _) (Total.pure _)
  · exact (Total.modify _).bind fun _ => Total.get.bind fun _ => Total.pure _

/-- The state after `vtss_macsec_counters_clear_priv`, as far as the MACs are concerned. -/
structure MacCleared (st : Stats) : Prop where
  lineMac : ∀ r, st.lineMac r = 0
  rmon : st.glb.rmonCountersClr = true
  inErrors : ∀ i, (st.secy i).controlledCnt.ifInErrors = 0

theorem MacCleared.of_eq (h : MacCleared st) (hl : st'.lineMac = st.lineMac) (hg : st'.glb = st.glb)
    (he : ∀ i, (st'.secy i).controlledCnt.ifInErrors = (st.secy i).controlledCnt.ifInErrors) : MacCleared st' where
  lineMac r := by rw [hl, h.lineMac]
  rmon := by rw [hg, h.rmon]
  inErrors i := (he i).trans (h.inErrors i)

theorem ends_clearSecyStats {E : Stats → Prop} : Ends MacCleared (clearSecyStats phy c i) (fun _ => MacCleared) E := by
  have hkept := @update_kept Nat _ _ _ fun s : SecyStats => s.controlledCnt.ifInErrors
  refine Ends.bind (Ends.modify (T := MacCleared) fun st h => h.of_eq rfl rfl (hkept (by rfl))) fun _ => ?_
  refine Ends.bind (Ends.forUpTo (I := fun _ => MacCleared) _ fun an _ => ?_) fun _ => ?_
  · split
    · exact Ends.pure fun _ h => h
    · exact Ends.modify fun st h => h.of_eq rfl rfl fun _ => rfl
  refine Ends.bind (Ends.modify (T := MacCleared) fun st h => h.of_eq rfl rfl (hkept (h.inErrors i).symm)) fun _ => ?_
  refine Ends.forUpTo (I := fun _ => MacCleared) _ fun sc _ => ?_
  split
  · exact Ends.pure fun _ h => h
  · refine Ends.bind (Ends.modify (T := MacCleared) fun st h => h.of_eq rfl rfl fun _ => rfl) fun _ => ?_
    refine Ends.forUpTo (I := fun _ => MacCleared) _ fun an _ => ?_
    split
    · exact Ends.pure fun _ h => h
    · exact Ends.modify fun st h => h.of_eq rfl rfl fun _ => rfl

theorem ends_countersClear {E : Stats → Prop} : Ends (fun st => ∀ i, (st.secy i).controlledCnt.ifInErrors = 0)
    (countersClear phy c) (fun _ => MacCleared) E := by
  refine Ends.bind (Q := fun _ st => ∀ i, (st.secy i).controlledCnt.ifInErrors = 0) (fun st h => .inl ?_) fun _ => ?_
  · obtain ⟨k, st', hread⟩ := @total_commonErrorsGet phy c (commonTraffic true st)
    have hfinal : final (commonCountersGet phy c true) st = st' := by
      have heq : commonCountersGet phy c true st = commonErrorsGet phy c (commonTraffic true st) := rfl
      rw [final, heq, hread]
    have hrel := @rel_commonCountersGet phy c st true
    rw [hfinal] at hrel
    exact ⟨⟨⟩, st', bind_of_ok hread, fun i => (reads_inErrors hrel).trans (h i)⟩
  refine Ends.bind (Q := fun _ => MacCleared) (fun st h => .inl ⟨_, _, rfl, fun _ => rfl, rfl, h⟩) fun _ => ?_
  refine Ends.bind (Q := fun _ => MacCleared) (fun st h => .inl ⟨_, _, rfl, h.of_eq rfl rfl fun _ => rfl⟩) fun _ => ?_
  refine Ends.bind (Ends.forUpTo (I := fun _ => MacCleared) _ fun _ _ => ends_clearSecyStats) fun _ => ?_
  exact Ends.modify fun st h => h.of_eq rfl rfl fun _ => rfl

theorem next_rejected (h : op.accepted c = false) : s.next phy c op = s := by simp [Port.next, h]

theorem next_kept (h : op.accepted c = true) (hc : op.clears = false) : s.next phy c op =
    ⟨op.run phy c s.stats, fun k => s.traffic k + op.adds k, op.reports (op.run phy c s.stats) s.reported⟩ := by
  simp [Port.next, h, hc]

theorem next_cleared (h : op.accepted c = true) (hc : op.clears = true) :
    s.next phy c op = ⟨op.run phy c s.stats, fun _ => 0, fun _ => 0⟩ := by
  simp [Port.next, h, hc]

/-- Frames that the line MAC counts. -/
theorem tracks_lineFrames {r : MacReg} {n : Nat} (h : s.Tracks) (hs : s.stats.lineMac r + n < 2 ^ r.width) :
    (s.next phy c (.lineFrames r n)).Tracks := by
  have hreg (k : PortCnt) : ((PortOp.lineFrames r n).run phy c s.stats).lineMac k.reg =
      s.stats.lineMac k.reg + (PortOp.lineFrames r n).adds k := by
    simp only [PortOp.run, PortOp.adds, Nat.mod_eq_of_lt hs, Function.update_apply]
    split
    · next hk => rw [hk]
    · rw [Nat.add_zero]
  rw [next_kept rfl rfl]
  refine ⟨fun hr k => ?_, fun hr k => ?_, fun k => (h.reported k).trans (Nat.le_add_right _ _), h.inErrors⟩
  · exact (congrArg (· + _) (h.cleared hr k)).trans (hreg k).symm
  · obtain ⟨hle, htraffic⟩ := h.baseline hr k
    dsimp only [PortOp.run] at hreg ⊢
    rw [hreg, htraffic]
    omega

/-- The common port is read, and reports the traffic. -/
theorem commonTraffic_tracks (h : s.Tracks) : (commonTraffic false s.stats).glb.commonCnt.traffic = s.traffic :=
  funext fun k => h.compensated k

theorem tracks_commonGet (h : s.Tracks) (hen : c.glb.init.enable = true) : (s.next phy c .commonGet).Tracks := by
  have hrel := @rel_commonCountersGet phy c s.stats false
  have hmac := reads_sameMac hrel
  rw [@next_kept phy c s .commonGet hen rfl]
  have hin (i : Nat) := reads_inErrors (j := i) hrel
  refine h.same hmac.lineMac hmac.clrVal hmac.rmon hin fun k => le_of_eq ?_
  exact congrFun (hmac.traffic.trans (commonTraffic_tracks h)) k

theorem tracks_commonClear (h : s.Tracks) (hen : c.glb.init.enable = true) : (s.next phy c .commonClear).Tracks := by
  have hrel := @rel_commonCountersGet phy c s.stats true
  have hmac := reads_sameMac hrel
  obtain ⟨k, st', hread⟩ := @total_commonErrorsGet phy c (commonTraffic true s.stats)
  have hfinal : (PortOp.commonClear).run phy c s.stats = final (commonCountersGet phy c true) s.stats := by
    have heq : commonCountersGet phy c true s.stats = .ok k st' := hread
    have hclear : commonCountersClear phy c s.stats = .ok () st' := bind_of_ok heq
    rw [PortOp.run, final, hclear, final, heq]
  rw [@next_cleared phy c s .commonClear hen rfl, hfinal]
  refine ⟨fun hr => ?_, fun hr k => ?_, fun _ => le_rfl, fun i => (reads_inErrors hrel).trans (h.inErrors i)⟩
  · have hno : (commonTraffic true s.stats).glb.rmonCountersClr = false := rfl
    exact absurd ((hmac.rmon.trans hno).symm.trans hr) (by decide)
  · rw [hmac.lineMac, hmac.clrVal]
    exact ⟨le_rfl, (Nat.sub_self _).symm⟩

theorem tracks_read (h : s.Tracks) (hen : c.glb.init.enable = true) (hrel : (reads phy c (fun _ => True) True).rel s.stats
    (op.run phy c s.stats)) (ha : op.accepted c = c.glb.init.enable) (hc : op.clears = false) (hadd : ∀ k, op.adds k = 0)
    (hrep : op.reports (op.run phy c s.stats) s.reported = s.reported) : (s.next phy c op).Tracks := by
  rw [next_kept (ha.trans hen) hc, hrep]
  simpa only [hadd, Nat.add_zero] using h.reads hrel

theorem portFind_secysInUse {port : MacsecPort} (h : c.portFind phy port = some i) : i ∈ secysInUse phy c :=
  mem_secysInUse.mpr (portFind_spec h)

/-- What an operation under the condition keeps. -/
theorem tracks_next (hn : Numbered c) (hch : Channels phy c) (h : s.Tracks) (hs : op.Sound phy c s) :
    (s.next phy c op).Tracks := by
  cases hacc : op.accepted c with
  | false => rwa [next_rejected hacc]
  | true =>
    cases op with
    | lineFrames r n => exact tracks_lineFrames h hs
    | hostFrames r n =>
      rw [next_kept hacc rfl]
      exact h.same (by rfl) (by rfl) (by rfl) (fun _ => by rfl) h.reported
    | saFrames egr igr global =>
      rw [next_kept hacc rfl]
      exact h.same (by rfl) (by rfl) (by rfl) (fun _ => by rfl) h.reported
    | commonGet => exact tracks_commonGet h hacc
    | controlledGet port =>
      refine tracks_read h hacc (rel_ofSecy fun i hi => ?_) rfl rfl (fun _ => rfl) rfl
      have hspec := @steps_controlledCountersGet phy c (fun _ => True) _ hn hch (fun _ => trivial)
        (portFind_spec hi).2
      exact within_iff.mpr (hspec.post fun _ _ _ => trivial)
    | secyGet port =>
      exact tracks_read h hacc (rel_ofSecy fun i _ => reads_secyCountersGet trivial) rfl rfl (fun _ => rfl) rfl
    | txScGet port =>
      exact tracks_read h hacc (rel_ofSecy fun i _ => reads_txScCountersGet trivial) rfl rfl (fun _ => rfl) rfl
    | rxScGet port sci =>
      refine tracks_read h hacc (rel_ofSecy fun i _ => ?_) rfl rfl (fun _ => rfl) rfl
      exact within_iff.mpr ((steps_rxScCountersGet hn trivial trivial).post fun _ _ _ => trivial)
    | lmacGet clear =>
      cases clear with
      | false =>
        rw [next_kept hacc rfl]
        exact h.same (by rfl) (by rfl) (by rfl) (fun _ => by rfl) h.reported
      | true =>
        rw [next_cleared hacc rfl]
        exact Port.Tracks.cleared_mac (fun _ => rfl) (.inl rfl) h.inErrors
    | hmacGet clear =>
      rw [next_kept hacc rfl]
      cases clear <;> exact h.same (by rfl) (by rfl) (by rfl) (fun _ => by rfl) h.reported
    | countersClear =>
      have hcleared : MacCleared (final (countersClear phy c) s.stats) := by
        have hends := @ends_countersClear phy c MacCleared
        rcases hends.final h.inErrors with ⟨-, -, hm⟩ | ⟨-, hm⟩ <;> exact hm
      rw [next_cleared hacc rfl]
      exact Port.Tracks.cleared_mac (fun k => hcleared.lineMac k.reg) (.inl hcleared.rmon) hcleared.inErrors
    | lmacClear =>
      rw [next_cleared hacc rfl]
      refine Port.Tracks.cleared_mac (fun k => ?_) hs h.inErrors
      cases k <;> rfl
    | hmacClear =>
      rw [next_kept hacc rfl]
      exact h.same (by rfl) (by rfl) (by rfl) (fun _ => by rfl) h.reported
    | commonClear => exact tracks_commonClear h hacc

/-- An operation under the condition reports what it should. -/
theorem right_of_sound (hn : Numbered c) (hch : Channels phy c) (h : s.Tracks) (hs : op.Sound phy c s) :
    op.Right phy c s := by
  cases op with
  | commonGet =>
    intro hen
    obtain ⟨k, st, hread⟩ := @total_commonErrorsGet phy c (commonTraffic false s.stats)
    have hrel := @rel_commonCountersGet phy c s.stats false
    have hfinal : final (commonCountersGet phy c false) s.stats = st := by
      have heq : commonCountersGet phy c false s.stats = .ok k st := hread
      rw [final, heq]
    rw [hfinal] at hrel
    have hsound : CommonSound phy c (commonTraffic false s.stats) := ⟨hs.tooLong, hs.channels⟩
    obtain ⟨herrors, htraffic⟩ := commonErrors_of_sound hn hsound hread
    have hreport : k.traffic = s.traffic := by
      rw [htraffic, (reads_sameMac hrel).traffic, commonTraffic_tracks h]
    exact ⟨k, st, hread, hreport, fun x => by rw [hreport]; exact h.reported x, herrors⟩
  | controlledGet port =>
    intro _ i k st hi hread
    exact controlledErrors_of_sound hn hch (portFind_secysInUse hi) (hs i hi) (h.inErrors i) hread
  | _ => trivial

end Steps

/-! ## Runs in which every report is right -/

/-- No counter of a port has been cleared yet, and no errors have been stored. -/
structure Uncleared (st : Stats) : Prop where
  clrVal : ∀ k, st.glb.commonCntClrVal k = 0
  inErrors : ∀ i, (st.secy i).controlledCnt.ifInErrors = 0

theorem Uncleared.tracks {st : Stats} (h : Uncleared st) : (Port.uncleared st).Tracks where
  cleared _ _ := rfl
  baseline _ k := by
    rw [Port.uncleared, h.clrVal]
    exact ⟨Nat.zero_le _, rfl⟩
  reported _ := Nat.zero_le _
  inErrors := h.inErrors

/-- **The counters of the ports.** In every run of traffic, reads and clears in which no register of the line MAC
overflows, the registers are not cleared behind the common port's back and the reports miss no packets, the common port
reports the traffic since it was cleared, and both ports report their sums. -/
theorem port_counters_right {H : Type} {hw : Hw H} {phy : Phy} {s : Dev Conf H} (hs : Reachable hw phy s) {st : Stats}
    (hst : Uncleared st) (ops : List PortOp)
    (hrun : PortMeets phy s.conf (fun p op => op.Sound phy s.conf p) ops (Port.uncleared st)) :
    PortMeets phy s.conf (fun p op => op.Right phy s.conf p) ops (Port.uncleared st) := by
  have hn : Numbered s.conf := fun r hr => (tables_reachable hs).numbered .ingress r hr
  have hc := channels_reachable hs
  suffices h : ∀ p : Port, p.Tracks → PortMeets phy s.conf (fun p op => op.Sound phy s.conf p) ops p →
      PortMeets phy s.conf (fun p op => op.Right phy s.conf p) ops p from h _ hst.tracks hrun
  clear hrun
  induction ops with
  | nil => exact fun _ _ _ => trivial
  | cons op ops ih =>
    intro p hp hm
    exact ⟨right_of_sound hn hc hp hm.1, ih _ (tracks_next hn hc hp hm.1) hm.2⟩

/-- A SecY with a transmit SA. -/
def portRun : List Op :=
  [.initSet (.request true false), .secyConfAdd (benchPort 1) benchSecy, .txScSet (benchPort 1),
    .txSaSet (benchPort 1) 0 1 true {} none]

/-- 60 octets come in and are read; the counters are cleared, and 64 octets follow. -/
def clearRun : List PortOp := [.lineFrames .rxOkBytes 60, .commonGet, .commonClear, .lineFrames .rxOkBytes 64]

theorem port_counters_right_bench :
    let c := (calls bench benchPhy portRun benchProbed).conf
    PortMeets benchPhy c (fun p op => op.Right benchPhy c p) clearRun (Port.uncleared {}) := by
  refine port_counters_right (reachable_calls bench benchPhy portRun ()) ⟨fun _ => rfl, fun _ => rfl⟩ _
    ⟨?_, ⟨fun i _ => ⟨fun _ _ _ _ _ => rfl, rfl⟩, ?_⟩, trivial, ?_, trivial⟩
  · simp only [PortOp.Sound]
    decide +kernel
  · rintro i hi k (rfl | rfl | rfl) <;> revert i <;> decide +kernel
  · simp only [PortOp.Sound]
    decide +kernel

/-- A frame that is too long for the SA is an error of its SecY, and none of the common port. -/
def tooLongRun : List PortOp := [.saFrames (fun _ => { outPktsTooLong := 1 }) (fun _ => {}) {}, .commonGet]

theorem not_port_counters_right : ∃ s, Reachable bench benchPhy s ∧
    ¬PortMeets benchPhy s.conf (fun p op => op.Right benchPhy s.conf p) tooLongRun (Port.uncleared {}) := by
  refine ⟨_, reachable_calls bench benchPhy portRun (), fun hm => ?_⟩
  obtain ⟨k, st, hread, -, -, herrors⟩ := hm.2.1 (by decide +kernel)
  have hst : st = final (commonCountersGet benchPhy (calls bench benchPhy portRun benchProbed).conf false)
      { egr := fun _ => { outPktsTooLong := 1 } } := by
    have hok : commonCountersGet benchPhy (calls bench benchPhy portRun benchProbed).conf false
        { egr := fun _ => { outPktsTooLong := 1 } } = .ok k st := hread
    rw [final, hok]
  have hzero : k.ifOutErrors = 0 := by
    have hspec := @steps_commonErrorsGet benchPhy (calls bench benchPhy portRun benchProbed).conf
      (fun _ => True) fun _ => trivial
    rw [hspec.ok trivial hread]
    rfl
  have hsum : ∑ i ∈ secysInUse benchPhy (calls bench benchPhy portRun benchProbed).conf,
      (st.secy i).secyCnt.outPktsTooLong = 1 := by
    rw [hst]
    decide +kernel
  exact absurd (hsum.symm.trans (herrors.ifOutErrors.symm.trans hzero)) (by decide)

end Lan80xx.VtssMacsec
