import Lan80xx.VtssMacsec.Counters

/-!
# MACsec of the VTSS PHYs: what the reads of the counters do

A read moves counts from the hardware to the tables, by a few kinds of steps.

- `ReadStep`: the steps; `reads_…`: each read is a sequence of them;
- `rxTotal`, `rxHeld`: what has been counted for a receive SA and for a channel, read or not, which the steps keep;
- `steps_secyCountersGet`, `steps_rxSaCountersGet`, `steps_rxScCountersGet`: what the reads report.
-/

namespace Lan80xx.VtssMacsec

open Fallible RegBus
open Macsec (Sci saPerScMax)

/-! ## The steps -/

/-- The confidentiality of the last transmit SA below an AN. -/
def evBelow (c : Conf) (i : Nat) : Nat → Bool
  | 0 => false
  | an + 1 =>
    match (c.secy i).txSc.sa an with
    | some r => (c.txSa r).confidentiality
    | none => evBelow c i an

/-- The confidentiality of the last transmit SA of a SecY. -/
def evBit (c : Conf) (i : Nat) : Bool := (c.secy i).txSc.inUse && evBelow c i saPerScMax

/-- The steps of the reads, with what they find in the tables. The octets of receive SAs are read by the SecYs of `D`, and
sums over SAs or channels are stored when `W` holds. -/
inductive ReadStep (phy : Phy) (c : Conf) (D : Nat → Prop) (W : Prop) (st : Stats) : Stats → Prop
  | tx {i an r : Nat} (hu : (c.secy i).txSc.inUse = true) (han : an < saPerScMax)
    (hr : (c.secy i).txSc.sa an = some r) : ReadStep phy c D W st (txSaDrain c i r st)
  | txScPkts {i : Nat} {e p : TxScStats → Nat} (hW : W) : ReadStep phy c D W st (st.setTxSc i fun t =>
      { t with cnt := { t.cnt with outPktsEncrypted := e t, outPktsProtected := p t } })
  | secyTx {i n : Nat} : ReadStep phy c D W st (secyTxStore c i n st)
  | secyIn {i : Nat} {v d : SecyCounters → Nat} : ReadStep phy c D W st (st.setSecyCnt i fun k =>
      { k with inOctetsValidated := v k, inOctetsDecrypted := d k })
  | rxOk {i sc p an r : Nat} (hD : D i) (hsc : sc < phy.maxScCnt) (hp : rxScInUse c i sc = some p)
    (han : an < saPerScMax) (hr : rxSaInUse c p an = some r) :
    ReadStep phy c D W st (rxOkDrain c i p r (evBit c i) st)
  | rxSa {i sc p an r : Nat} {b : Bool} (hp : rxScInUse c i sc = some p) (hr : rxSaInUse c p an = some r)
    (hn : (st.igr (c.rxSa r).record).inOctetsDecrypted = 0) : ReadStep phy c D W st (rxSaDrain c i p r b st)
  | rxScPkts {p : Nat} {f : RxScStats → RxSaCounters} (hW : W) : ReadStep phy c D W st (st.setRxSc p fun x =>
      { x with cnt := { x.cnt with pkts := f x } })
  | global : ReadStep phy c D W st (globalDrain c phy st)
  | controlled {i : Nat} {f : SecyPortCounters → SecyPortCounters} (hW : W) (hf : ∀ s, (f s).ifInErrors = s.ifInErrors ∧
      (f s).ifInCastPkts = s.ifInCastPkts ∧ (f s).ifOutCastPkts = s.ifOutCastPkts) :
    ReadStep phy c D W st (st.setControlled i f)
  | common {f : CommonCounters → CommonCounters} (hW : W) (hf : ∀ k, (f k).traffic = k.traffic) :
    ReadStep phy c D W st { st with glb := { st.glb with commonCnt := f st.glb.commonCnt } }

/-- The frame of the reads. -/
abbrev reads (phy : Phy) (c : Conf) (D : Nat → Prop) (W : Prop) : Frame Stats := Frame.closure (ReadStep phy c D W)

section Frames

variable {phy : Phy} {c : Conf} {D D' : Nat → Prop} {W W' : Prop} {i an r : Nat} {sci : Sci} {st st' : Stats}

theorem ReadStep.mono (hD : ∀ i, D i → D' i) (hW : W → W') (h : ReadStep phy c D W st st') :
    ReadStep phy c D' W' st st' := by
  cases h with
  | tx hu han hr => exact .tx hu han hr
  | txScPkts h => exact .txScPkts (hW h)
  | secyTx => exact .secyTx
  | secyIn => exact .secyIn
  | rxOk hi hsc hp han hr => exact .rxOk (hD _ hi) hsc hp han hr
  | rxSa hp hr hn => exact .rxSa hp hr hn
  | rxScPkts h => exact .rxScPkts (hW h)
  | global => exact .global
  | controlled h hf => exact .controlled (hW h) hf
  | common h hf => exact .common (hW h) hf

/-- A read that stores no sums, seen as any read. -/
theorem reads_storing (h : (reads phy c D False).rel st st') : (reads phy c D W).rel st st' :=
  Relation.ReflTransGen.mono (fun _ _ => ReadStep.mono (fun _ h => h) False.elim) _ _ h

/-- What each step keeps, a read keeps. -/
theorem reads_keep {I : Stats → Prop} (hstep : ∀ st st', ReadStep phy c D W st st' → I st → I st')
    (h : (reads phy c D W).rel st st') (hI : I st) : I st' := by
  induction h with
  | refl => exact hI
  | tail _ hs ih => exact hstep _ _ hs ih

theorem update_kept {ι α β : Type} [DecidableEq ι] (g : α → β) {f : ι → α} {x : α} {i : ι} (h : g x = g (f i)) (j : ι) :
    g (Function.update f i x j) = g (f j) := by
  rw [Function.update_apply]
  split
  · next hj => rw [hj, h]
  · rfl

theorem reads_modify {f : Stats → Stats} (h : ∀ st, ReadStep phy c D W st (f st)) :
    Within (reads phy c D W) (modify f : Reading PUnit) := fun st => .single (h st)

theorem reads_get : Within (reads phy c D W) (get : Reading Stats) := Within.get

theorem reads_txSaCountersGet : Within (reads phy c D W) (txSaCountersGet c i an) := by
  refine Within.ite' (fun _ => Within.pure _) fun hu => ?_
  refine within_iff.mpr (Steps.failIf_bind fun han => within_iff.mp ?_)
  split
  · exact Within.pure _
  · next r hr =>
    refine (reads_modify fun st => .tx (by simpa using hu) (Nat.lt_of_not_le han) hr).bind fun _ => ?_
    exact reads_get.bind fun _ => Within.pure _

theorem reads_txScCountersGet (hW : W) : Within (reads phy c D W) (txScCountersGet c i) := by
  refine Within.bind (reads_modify fun st => .txScPkts hW) fun _ => ?_
  have hread (an : Nat) := @reads_txSaCountersGet phy c D W i an
  refine (Within.forUpTo _ fun an _ => (hread an).bind fun _ => reads_modify fun st => .txScPkts hW).bind fun _ => ?_
  exact Within.bind (reads_modify fun st => .txScPkts hW) fun _ => reads_get.bind fun _ => Within.pure _

theorem readStep_tooLong {n : Nat} (h : ReadStep phy c D W st st') (hz : (st.egr n).outPktsTooLong = 0) :
    (st'.egr n).outPktsTooLong = 0 := by
  cases h with
  | tx =>
    simp only [txSaDrain, Function.update_apply]
    split
    · rfl
    · exact hz
  | _ => exact hz

/-- The packets that are too long are read of the first transmit SAs of a SecY. -/
def TxRead (c : Conf) (i n : Nat) (st : Stats) : Prop := (c.secy i).txSc.inUse = true → ∀ an < n, ∀ r,
  (c.secy i).txSc.sa an = some r → (st.egr (c.txSa r).record).outPktsTooLong = 0

theorem reads_txRead {n : Nat} (h : (reads phy c D W).rel st st') : TxRead c i n st → TxRead c i n st' :=
  reads_keep (fun _ _ hs hr hu an han r hsa => readStep_tooLong hs (hr hu an han r hsa)) h

theorem steps_secyTxRead : Steps (reads phy c D W) (fun _ => True) (secyTxRead c i) fun v st =>
    v.2 = evBit c i ∧ TxRead c i saPerScMax st := by
  refine (Steps.foldUpTo (b := ((0 : Nat), false)) (I := fun n (v : Nat × Bool) st =>
    v.2 = ((c.secy i).txSc.inUse && evBelow c i n) ∧ TxRead c i n st) _ fun acc an han => ?_).pre ?_
  · split
    · next hr =>
      refine Steps.pure fun st h => ⟨by simpa [evBelow, hr] using h.1, fun hu an' han' r' hr' => ?_⟩
      rcases Nat.lt_succ_iff_lt_or_eq.mp han' with hlt | rfl
      · exact h.2 hu an' hlt r' hr'
      · cases hr.symm.trans hr'
    · next r hr =>
      refine Steps.ite (fun hu => Steps.pure fun _ h => ⟨by simpa [hu] using h.1, ?_⟩) fun hu => ?_
      · exact fun hu' => absurd (hu.symm.trans hu') Bool.false_ne_true
      have hu : (c.secy i).txSc.inUse = true := by simpa using hu
      refine Steps.bind (Q := fun _ => TxRead c i (an + 1)) ?_ fun _ => ?_
      · refine Steps.modify fun st h => ⟨.single (.tx hu han hr), fun _ an' han' r' hr' => ?_⟩
        rcases Nat.lt_succ_iff_lt_or_eq.mp han' with hlt | rfl
        · exact @readStep_tooLong phy c D W _ _ _ (.tx hu han hr) (h.2 hu an' hlt r' hr')
        · cases hr.symm.trans hr'
          simp [txSaDrain]
      · exact Steps.bind Steps.get fun _ => Steps.pure fun _ h => ⟨by simp [evBelow, hr, hu], h.1⟩
  · exact fun _ _ => ⟨by simp [evBelow], fun _ an han => absurd han (Nat.not_lt_zero an)⟩

/-- The octets of the SAs of the first channels of a SecY are read. -/
def RxRead (c : Conf) (i n : Nat) (st : Stats) : Prop := ∀ sc < n, ∀ p, rxScInUse c i sc = some p →
  ∀ an < saPerScMax, ∀ r, rxSaInUse c p an = some r → (st.igr (c.rxSa r).record).inOctetsDecrypted = 0

theorem rxOkDrain_octets {p r q : Nat} {b : Bool} (h : q = (c.rxSa r).record ∨ (st.igr q).inOctetsDecrypted = 0) :
    ((rxOkDrain c i p r b st).igr q).inOctetsDecrypted = 0 := by
  simp only [rxOkDrain, Function.update_apply]
  split
  · rfl
  · exact h.resolve_left ‹_›

theorem steps_secyRxRead (hD : D i) : Steps (reads phy c D W) (fun _ => True) (secyRxRead phy c i (evBit c i))
    fun _ => RxRead c i phy.maxScCnt := by
  refine Steps.bind (Q := fun _ => RxRead c i 0) (Steps.modify fun st _ => ⟨.single .secyIn, ?_⟩) fun _ => ?_
  · exact fun sc hsc => absurd hsc (Nat.not_lt_zero sc)
  refine Steps.forUpTo _ fun sc hsc => ?_
  split
  · next hp =>
    refine Steps.pure fun st h sc' hsc' p hp' => ?_
    rcases Nat.lt_succ_iff_lt_or_eq.mp hsc' with hlt | rfl
    · exact h sc' hlt p hp'
    · cases hp.symm.trans hp'
  · next p hp =>
    refine Steps.bind (Q := fun _ st => RxRead c i sc st ∧ ∀ an < saPerScMax, ∀ r, rxSaInUse c p an = some r →
      (st.igr (c.rxSa r).record).inOctetsDecrypted = 0) ?_ fun _ => Steps.modify fun st h => ⟨.single .secyIn, ?_⟩
    · refine (Steps.forUpTo (I := fun n st => RxRead c i sc st ∧ ∀ an < n, ∀ r, rxSaInUse c p an = some r →
        (st.igr (c.rxSa r).record).inOctetsDecrypted = 0) _ fun an han => ?_).pre ?_
      · split
        · next hr =>
          refine Steps.pure fun st h => ⟨h.1, fun an' han' r' hr' => ?_⟩
          rcases Nat.lt_succ_iff_lt_or_eq.mp han' with hlt | rfl
          · exact h.2 an' hlt r' hr'
          · cases hr.symm.trans hr'
        · next r hr =>
          refine Steps.modify fun st h => ⟨.single (.rxOk hD hsc hp han hr), ?_, fun an' han' r' hr' => ?_⟩
          · exact fun sc' hsc' p' hp' an' han' r' hr' => rxOkDrain_octets (.inr (h.1 sc' hsc' p' hp' an' han' r' hr'))
          · rcases Nat.lt_succ_iff_lt_or_eq.mp han' with hlt | rfl
            · exact rxOkDrain_octets (.inr (h.2 an' hlt r' hr'))
            · cases hr.symm.trans hr'
              exact rxOkDrain_octets (.inl rfl)
      · exact fun st h => ⟨h, fun an han => absurd han (Nat.not_lt_zero an)⟩
    · intro sc' hsc' p' hp'
      rcases Nat.lt_succ_iff_lt_or_eq.mp hsc' with hlt | rfl
      · exact h.1 sc' hlt p' hp'
      · cases hp.symm.trans hp'
        exact h.2

/-- What a read of a SecY leaves: nothing port-wide, no octets of its receive SAs, and no packets too long. -/
structure SecyRead (phy : Phy) (c : Conf) (i : Nat) (st : Stats) : Prop where
  tx : TxRead c i saPerScMax st
  rx : RxRead c i phy.maxScCnt st
  global : st.global = {}

/-- A SecY's counters are read. -/
theorem steps_secyCountersGet (hD : D i) : Steps (reads phy c D W) (fun _ => True) (secyCountersGet phy c i)
    fun v st => SecyRead phy c i st ∧ v = (st.secy i).secyCnt := by
  refine steps_secyTxRead.bind fun tx => ?_
  refine Steps.bind (Q := fun _ st => TxRead c i saPerScMax st ∧ tx.2 = evBit c i) ?_ fun _ => Steps.imp fun hev => ?_
  · exact Steps.modify fun st h => ⟨.single .secyTx, h.2, h.1⟩
  rw [hev]
  refine Steps.bind (((steps_secyRxRead hD).pre fun _ _ => trivial).framed fun _ _ h hrel => reads_txRead hrel h) fun _ => ?_
  refine Steps.bind (Q := fun _ => SecyRead phy c i) ?_ fun _ => ?_
  · exact Steps.modify fun st h => ⟨.single .global, h.2, h.1, rfl⟩
  · exact Steps.bind Steps.get fun st => Steps.pure fun st' h => ⟨h.1, by rw [h.2]⟩

theorem reads_secyCountersGet (hD : D i) : Within (reads phy c D W) (secyCountersGet phy c i) :=
  within_iff.mpr ((steps_secyCountersGet hD).post fun _ _ _ => trivial)

theorem steps_scOfSci {P : Stats → Prop} : Steps (reads phy c D W) P (scOfSci phy c i sci)
    fun sc st => P st ∧ c.scFromSciGet phy i sci = some sc := by
  unfold scOfSci
  cases h : c.scFromSciGet phy i sci with
  | none => exact Steps.throw
  | some sc => exact Steps.pure fun st hP => ⟨hP, rfl⟩

/-- What is counted of a receive SA, read or not. -/
def rxTotal (c : Conf) (st : Stats) (r : Nat) : RxSaCounters := fun k => st.rxSa r k + (st.igr (c.rxSa r).record).pkts k

/-- A receive SA's counters are read. -/
theorem steps_rxSaCountersGet (hD : D i) (han : an < saPerScMax) :
    Steps (reads phy c D W) (fun _ => True) (rxSaCountersGet phy c i sci an) fun v st =>
      ∀ sc p r, c.scFromSciGet phy i sci = some sc → rxScInUse c i sc = some p → rxSaInUse c p an = some r →
        v = rxTotal c st r := by
  refine Steps.bind (Q := fun _ => RxRead c i phy.maxScCnt) ?_ fun _ => ?_
  · have h : (discard (secyCountersGet phy c i) : Reading PUnit) = secyCountersGet phy c i >>= fun _ => pure ⟨⟩ := rfl
    rw [h]
    exact (steps_secyCountersGet hD).bind fun _ => Steps.pure fun st h => h.1.rx
  refine steps_scOfSci.bind fun sc => Steps.imp fun hsc => ?_
  split
  · next hp =>
    refine Steps.pure fun st _ sc' p r hsc' hp' => ?_
    cases hsc.symm.trans hsc'
    cases hp.symm.trans hp'
  · next p hp =>
    split
    · next hr =>
      refine Steps.pure fun st _ sc' p' r hsc' hp' hr' => ?_
      cases hsc.symm.trans hsc'
      cases hp.symm.trans hp'
      cases hr.symm.trans hr'
    · next r hr =>
      refine Steps.bind (Q := fun _ st => (st.igr (c.rxSa r).record).pkts = fun _ => 0) ?_ fun _ => ?_
      · refine Steps.modify fun st h => ⟨.single (.rxSa hp hr ?_), ?_⟩
        · exact h sc (scFromSciGet_spec hsc).1 p hp an han r hr
        · simp [rxSaDrain]
      · refine Steps.bind Steps.get fun st => Steps.pure fun st' h sc' p' r' hsc' hp' hr' => ?_
        cases hsc.symm.trans hsc'
        cases hp.symm.trans hp'
        cases hr.symm.trans hr'
        funext k
        rw [rxTotal, h.1, h.2, Nat.add_zero]

end Frames

/-! ## Packets of the receive SAs -/

section Packets

variable {phy : Phy} {c : Conf} {D : Nat → Prop} {W : Prop} {i sc an p r : Nat} {sci : Sci} {st st' : Stats} {k : RxPkt}

theorem rxSaInUse_spec (h : rxSaInUse c p an = some r) : (c.rxSc p).sa an = some r ∧ (c.rxSa r).inUse = true := by
  unfold rxSaInUse at h
  split at h
  · next q hq =>
    split at h
    · next hu =>
      cases h
      exact ⟨hq, hu⟩
    · cases h
  · cases h

variable (c) in
/-- The receive SAs in use know the number of their entry. -/
def Numbered : Prop := ∀ r, (c.rxSa r).inUse = true → (c.rxSa r).record = r

theorem rxScStats_addOctets_pkts {x : RxScStats} {conf : Macsec.SecyConf} {revb ev : Bool} {n m : Nat} :
    (x.addOctets conf revb ev n m).cnt.pkts = x.cnt.pkts ∧ (x.addOctets conf revb ev n m).delRxSaCnt = x.delRxSaCnt := by
  unfold RxScStats.addOctets
  split
  · split <;> exact ⟨rfl, rfl⟩
  · exact ⟨rfl, rfl⟩

theorem addOctets_kept {q : Nat} {conf : Macsec.SecyConf} {revb ev : Bool} {n m : Nat} :
    ((Function.update st.rxSc p ((st.rxSc p).addOctets conf revb ev n m)) q).cnt.pkts = (st.rxSc q).cnt.pkts ∧
    ((Function.update st.rxSc p ((st.rxSc p).addOctets conf revb ev n m)) q).delRxSaCnt = (st.rxSc q).delRxSaCnt :=
  ⟨update_kept (fun x : RxScStats => x.cnt.pkts) rxScStats_addOctets_pkts.1 q,
    update_kept RxScStats.delRxSaCnt rxScStats_addOctets_pkts.2 q⟩

/-- A step keeps what has been counted of a receive SA in use, and of the deleted ones. -/
theorem readStep_packets (hn : Numbered c) (h : ReadStep phy c D W st st') :
    (∀ r, (c.rxSa r).inUse = true → rxTotal c st' r = rxTotal c st r) ∧
    ∀ p, (st'.rxSc p).delRxSaCnt = (st.rxSc p).delRxSaCnt := by
  cases h with
  | tx => exact ⟨fun _ _ => rfl, fun _ => rfl⟩
  | txScPkts => exact ⟨fun _ _ => rfl, fun _ => rfl⟩
  | secyTx => exact ⟨fun _ _ => rfl, fun _ => rfl⟩
  | secyIn => exact ⟨fun _ _ => rfl, fun _ => rfl⟩
  | @rxOk i sc p an r hD hsc hp han hr =>
    refine ⟨fun q hq => ?_, fun q => addOctets_kept.2⟩
    have hrec := hn r (rxSaInUse_spec hr).2
    funext k
    simp only [rxTotal, rxOkDrain, hrec, hn q hq, Function.update_apply]
    split
    · next h =>
      subst h
      by_cases hk : k = .ok <;> simp [hk]
    · rfl
  | @rxSa i sc p an r b hp hr hz =>
    refine ⟨fun q hq => ?_, fun q => addOctets_kept.2⟩
    have hrec := hn r (rxSaInUse_spec hr).2
    funext k
    simp only [rxTotal, rxSaDrain, hrec, hn q hq, Function.update_apply]
    split
    · next h =>
      subst h
      simp
    · rfl
  | @rxScPkts p f hW =>
    refine ⟨fun _ _ => rfl, fun q => ?_⟩
    simp only [Stats.setRxSc, Function.update_apply]
    split <;> simp_all
  | global => exact ⟨fun _ _ => rfl, fun _ => rfl⟩
  | controlled => exact ⟨fun _ _ => rfl, fun _ => rfl⟩
  | common => exact ⟨fun _ _ => rfl, fun _ => rfl⟩

theorem reads_packets (hn : Numbered c) (h : (reads phy c D W).rel st st') :
    (∀ r, (c.rxSa r).inUse = true → rxTotal c st' r = rxTotal c st r) ∧
    ∀ p, (st'.rxSc p).delRxSaCnt = (st.rxSc p).delRxSaCnt := by
  induction h with
  | refl => exact ⟨fun _ _ => rfl, fun _ => rfl⟩
  | tail _ hs ih =>
    have hstep := readStep_packets hn hs
    exact ⟨fun r hr => (hstep.1 r hr).trans (ih.1 r hr), fun p => (hstep.2 p).trans (ih.2 p)⟩

/-- The reads of SAs and SecYs leave the packets that have been added up for a channel. -/
theorem reads_scPkts (h : (reads phy c D False).rel st st') : ∀ p, (st'.rxSc p).cnt.pkts = (st.rxSc p).cnt.pkts := by
  induction h with
  | refl => exact fun _ => rfl
  | tail _ hs ih =>
    intro p
    rw [← ih p]
    cases hs with
    | tx => rfl
    | txScPkts h => exact h.elim
    | secyTx => rfl
    | secyIn => rfl
    | rxOk => exact addOctets_kept.1
    | rxSa => exact addOctets_kept.1
    | rxScPkts h => exact h.elim
    | global => rfl
    | controlled h => exact h.elim
    | common h => exact h.elim

/-- The packets that the SAs of a channel have counted below an AN. -/
def heldBelow (c : Conf) (st : Stats) (p : Nat) (k : RxPkt) : Nat → Nat
  | 0 => 0
  | an + 1 => heldBelow c st p k an + (rxSaInUse c p an).elim 0 fun r => rxTotal c st r k

/-- The packets that a channel has counted, those of deleted SAs included. -/
def rxHeld (c : Conf) (st : Stats) (p : Nat) (k : RxPkt) : Nat := heldBelow c st p k saPerScMax + (st.rxSc p).delRxSaCnt k

theorem heldBelow_eq (h : ∀ r, (c.rxSa r).inUse = true → rxTotal c st' r = rxTotal c st r) (n : Nat) :
    heldBelow c st' p k n = heldBelow c st p k n := by
  induction n with
  | zero => rfl
  | succ an ih =>
    rw [heldBelow, heldBelow, ih]
    cases hr : rxSaInUse c p an with
    | none => rfl
    | some r => simp only [Option.elim_some, h r (rxSaInUse_spec hr).2]

theorem rxHeld_eq (hn : Numbered c) (h : (reads phy c D W).rel st st') : rxHeld c st' p k = rxHeld c st p k := by
  have hkept := reads_packets hn h
  rw [rxHeld, rxHeld, heldBelow_eq hkept.1, hkept.2]

/-- A channel's counters are read. -/
theorem steps_rxScCountersGet (hn : Numbered c) (hD : D i) (hW : W) :
    Steps (reads phy c D W) (fun _ => True) (rxScCountersGet phy c i sci) fun v st =>
      ∃ sc p, c.scFromSciGet phy i sci = some sc ∧ (c.secy i).rxSc sc = some p ∧ v = (st.rxSc p).cnt ∧
        ∀ k, v.pkts k = rxHeld c st p k := by
  refine steps_scOfSci.bind fun sc => Steps.imp fun hsc => ?_
  obtain ⟨-, p, hp, hpu, -⟩ := scFromSciGet_spec hsc
  have hin : rxScInUse c i sc = some p := by simp [rxScInUse, hp, hpu]
  rw [hp]
  refine Steps.bind (Q := fun _ st => ∀ k, (st.rxSc p).cnt.pkts k = heldBelow c st p k 0) ?_ fun _ => ?_
  · exact Steps.modify fun st _ => ⟨.single (.rxScPkts hW), fun k => by simp [Stats.setRxSc, heldBelow]⟩
  refine Steps.bind (Q := fun _ st => ∀ k, (st.rxSc p).cnt.pkts k = heldBelow c st p k saPerScMax) ?_ fun _ => ?_
  · refine Steps.forUpTo (I := fun n st => ∀ k, (st.rxSc p).cnt.pkts k = heldBelow c st p k n) _ fun an han => ?_
    split
    · next hr => exact Steps.pure fun st h k => by simp [h k, heldBelow, hr]
    · next r hr =>
      refine Steps.bind (Q := fun v st => v = rxTotal c st r ∧ ∀ k, (st.rxSc p).cnt.pkts k = heldBelow c st p k an) ?_
        fun v => Steps.modify fun st h => ⟨.single (.rxScPkts hW), fun k => ?_⟩
      · have hread := @steps_rxSaCountersGet phy c D False i an sci hD han
        have hkept : ∀ st st' : Stats, (∀ k, (st.rxSc p).cnt.pkts k = heldBelow c st p k an) →
            (reads phy c D False).rel st st' → ∀ k, (st'.rxSc p).cnt.pkts k = heldBelow c st' p k an := by
          intro st st' h hrel k
          rw [reads_scPkts hrel p, heldBelow_eq (reads_packets hn hrel).1, h k]
        refine (((hread.pre fun _ _ => trivial).framed hkept).mono fun _ _ _ => reads_storing).post fun v st h => ⟨?_, h.2⟩
        exact h.1 sc p r hsc hin hr
      · rw [heldBelow, hr, @heldBelow_eq c p st (st.setRxSc p _) _ (fun _ _ => rfl), ← h.2 k]
        simp [Stats.setRxSc, h.1, rxTotal]
  · refine Steps.bind (Q := fun _ st => ∀ k, (st.rxSc p).cnt.pkts k = rxHeld c st p k) ?_ fun _ => ?_
    · refine Steps.modify fun st h => ⟨.single (.rxScPkts hW), fun k => ?_⟩
      rw [rxHeld, @heldBelow_eq c p st (st.setRxSc p _) _ (fun _ _ => rfl), ← h k]
      simp [Stats.setRxSc]
    · refine Steps.bind Steps.get fun st => Steps.pure fun st' h => ⟨sc, p, hsc, hp, by rw [h.2], fun k => ?_⟩
      rw [h.2]
      exact h.1 k

end Packets

end Lan80xx.VtssMacsec
