import Lan80xx.VtssMacsec.Transform

/-!
# MACsec of the VTSS PHYs: packet numbers set and read back

The record of a transmit SA holds the number below the next one, the record of a receive SA the lowest number and the
replay window on top.

- `ends_txSaSet_pn`, `ends_rxSaSet_pn`: the number in the record after a set;
- `TxRoundTrip`, `RxRoundTrip`: the number that was set comes back;
- `TxReadsBack`, `RxReadsBack`: when it does (`packet_numbers_round_trip`).
-/

namespace Lan80xx.VtssMacsec

open Fallible RegBus
open Macsec (Ssci MacsecPort Sci Sak PktNum CipherSuite Direction saPerScMax word PnApi TxSaStatus RxSaStatus
  rxGetPn rxStatusPn)

variable {H : Type} {chip : Chip H} {phy : Phy} {c : Conf} {d : Direction} {i an sc p r : Nat} {port : MacsecPort}
  {sci : Sci} {s s' : Dev Conf H} {x : PktNum}

/-! ## What a set leaves in the record -/

/-- The suite of the port's SecY. -/
def Conf.suiteOf (c : Conf) (phy : Phy) (port : MacsecPort) : CipherSuite :=
  match c.portFind phy port with
  | some i => (c.secy i).conf.currentCipherSuite
  | none => .gcmAes128

variable (chip c d i r) in
/-- The tables are `c`, and the record holds the packet number `v`. -/
def PnIs (v : PktNum) (s : Dev Conf H) : Prop :=
  s.conf = c ∧ chip.pn s.hw d r (c.secy i).conf.currentCipherSuite = v

theorem ends_spared {op : HwOp} (hop : op.sparesXform = true) {v : PktNum} :
    Ends (PnIs chip c d i r v) (hwOp chip.toHw op) (fun _ => PnIs chip c d i r v) fun _ => True := by
  refine ends_hwOp_answered ?_
  rintro s ⟨rfl, hv⟩ -
  exact ⟨rfl, (pn_congr (chip.spares op hop s.conf s.hw)).trans hv⟩

/-- Unless the configuration is programmed again, the record is written. -/
theorem ends_xform {v : PktNum} {b : Bool} {e : Rc} :
    Ends (PnIs chip c d i r v) (when (b = false) (orFail (hwOp chip.toHw (.saXformSet d r i an sc)) e))
      (fun _ => PnIs chip c d i r (if b = true then v else pnWritten c i d an sc)) fun _ => True := by
  cases b with
  | false =>
    rw [if_neg Bool.false_ne_true]
    refine Ends.when (fun _ => (ends_hwOp_answered ?_).orFail) fun h => absurd rfl h
    rintro s ⟨rfl, -⟩ hok
    exact ⟨rfl, pn_xformSet hok⟩
  | true =>
    rw [if_pos rfl]
    exact Ends.when (fun h => absurd h.symm Bool.false_ne_true) fun _ _ hs => hs

theorem ends_txSaProgram_pn {v : PktNum} : Ends (PnIs chip c .egress i r v) (txSaProgram chip.toHw i an r)
    (fun _ => PnIs chip c .egress i r (if c.glb.spdChangeMacsecRecfg = true then v else pnWritten c i .egress an 0))
    fun _ => True := by
  refine ends_getConf_bind (fun s hs => hs.1) ?_
  refine (ends_spared rfl).orFail.bind fun _ => (ends_spared rfl).orFail.bind fun _ => ends_xform.bind fun _ => ?_
  exact Ends.when (fun _ => (ends_spared rfl).orFail) fun _ s hs => hs

theorem ends_rxSaProgram_pn {v : PktNum} : Ends (PnIs chip c .ingress i r v) (rxSaProgram chip.toHw i sc an r)
    (fun _ => PnIs chip c .ingress i r (if c.glb.spdChangeMacsecRecfg = true then v else pnWritten c i .ingress an sc))
    fun _ => True := by
  refine ends_getConf_bind (fun s hs => hs.1) ?_
  refine (ends_spared rfl).orFail.bind fun _ => (ends_spared rfl).orFail.bind fun _ => ends_xform.bind fun _ => ?_
  exact (ends_spared rfl).orFail

/-! ## Transmit SAs -/

namespace Conf

variable (c)

/-- The entry that `tx_sa_set` puts an SA in: while reconfiguring, the one that it has. -/
def txSaEntry (phy : Phy) (i an : Nat) : Option Nat :=
  match (c.secy i).txSc.sa an with
  | some r => some (c.txSa r).record
  | none => if c.glb.spdChangeMacsecRecfg = true then none else c.recordEmptyGet phy .egress

/-- The entry that `rx_sa_set` puts an SA in. -/
def rxSaEntry (phy : Phy) (i sc an : Nat) : Option Nat :=
  match (c.rxScAt i sc).sa an with
  | some r => some (c.rxSa r).record
  | none => if c.glb.spdChangeMacsecRecfg = true then none else c.recordEmptyGet phy .ingress

end Conf

/-- The SA that the calls below are asked for. -/
structure TxSaThere (c : Conf) (phy : Phy) (port : MacsecPort) (an i r : Nat) : Prop where
  enabled : c.glb.init.enable = true
  found : c.portFind phy port = some i
  an_lt : an < saPerScMax
  sa : (c.secy i).txSc.sa an = some r
  record : (c.txSa r).record = r

/-- The number that the record of a transmit SA holds after a set. -/
def txPnSet (chip : Chip H) (s : Dev Conf H) (i r : Nat) (nextPn : PktNum) : PktNum :=
  if s.conf.glb.spdChangeMacsecRecfg = true then chip.pn s.hw .egress r (s.conf.secy i).conf.currentCipherSuite
  else if s.conf.xpn i then nextPn - 1 else (nextPn.pn - 1).setWidth 64

theorem linkTxSa_hasPort {o : Option Nat} (j : Nat) : (c.linkTxSa i an o).hasPort port j = c.hasPort port j := by
  simp only [Conf.hasPort, Conf.linkTxSa, Conf.setSecy_secy]
  split
  · next h => rw [h]
  · rfl

/-- An update of the SA, which has its entry. -/
theorem txSaThere_of {c' : Conf} (hen : c.glb.init.enable = true) (hf : c.portFind phy port = some i)
    (han : an < saPerScMax) (hs : c'.secy = (c.linkTxSa i an (some r)).secy) (hg : c'.glb = c.glb)
    (hr : (c'.txSa r).record = r) : TxSaThere c' phy port an i r where
  enabled := by rw [hg, hen]
  found := by
    rw [← hf]
    refine portFind_congr fun j => ?_
    have hj : (c.linkTxSa i an (some r)).hasPort port j = c.hasPort port j := linkTxSa_hasPort j
    rw [← hj, Conf.hasPort, Conf.hasPort, hs]
  an_lt := han
  sa := by rw [hs, Conf.linkTxSa_sa, if_pos ⟨rfl, rfl⟩]
  record := hr

variable (chip) in
/-- What is stored, and what the record then holds. -/
theorem ends_txSa_stored {f : Conf → Conf} {c₁ : Conf} {h : H} (hen : c.glb.init.enable = true)
    (hi : c.portFind phy port = some i) (han : an < saPerScMax)
    (hs : (f c₁).secy = (c.linkTxSa i an (some r)).secy) (hg : (f c₁).glb = c.glb) (hr : ((f c₁).txSa r).record = r)
    (hpn : c.glb.spdChangeMacsecRecfg = false → ((f c₁).txSa r).pnNextPn = x ∧
      ((f c₁).txSa r).nextPn = if c.xpn i then (x - 1).setWidth 32 else x.pn - 1) :
    Ends (fun s => s = { conf := c₁, hw := h }) (modifyConf f >>= fun _ => txSaProgram chip.toHw i an r) (fun _ s =>
      TxSaThere s.conf phy port an i r ∧ (s.conf.secy i).conf = (c.secy i).conf ∧
        chip.pn s.hw .egress r (c.secy i).conf.currentCipherSuite = txPnSet chip { conf := c, hw := h } i r x)
      fun _ => True := by
  have hconf : ((f c₁).secy i).conf = (c.secy i).conf := by rw [hs, Conf.linkTxSa_conf]
  have hsa : ((f c₁).secy i).txSc.sa an = some r := by rw [hs, Conf.linkTxSa_sa, if_pos ⟨rfl, rfl⟩]
  refine Ends.bind (Q := fun _ => PnIs chip (f c₁) .egress i r
    (chip.pn h .egress r (c.secy i).conf.currentCipherSuite)) (ends_modifyConf_of ?_) fun _ => ?_
  · rintro s rfl
    exact ⟨rfl, by rw [hconf]⟩
  · refine ends_txSaProgram_pn.weaken (fun _ s hs' => ?_) fun _ _ => trivial
    obtain ⟨hc, hv⟩ := hs'
    rw [hc]
    refine ⟨txSaThere_of hen hi han hs hg hr, hconf, ?_⟩
    rw [hconf, hg] at hv
    rw [hv, txPnSet]
    refine ite_congr rfl (fun _ => rfl) fun hno => ?_
    obtain ⟨hpn, hnext⟩ := hpn (by simpa using hno)
    rw [pnWritten, Conf.txSaAt_eq hsa, hpn, hnext, Conf.xpn, hconf]
    simp only [Conf.xpn]
    split <;> simp_all

/-- After a set, the SA is in its entry, and the record holds the number below the next one. -/
theorem ends_txSaSet_pn {nextPn : PktNum} {b : Bool} {sak : Sak} {ssci : Option Ssci} {s₀ : Dev Conf H}
    (hen : s₀.conf.glb.init.enable = true) (hi : s₀.conf.portFind phy port = some i) :
    Ends (fun s => s = s₀) (txSaSet chip.toHw phy i an nextPn b sak ssci) (fun _ s =>
      (s₀.conf.txSaEntry phy i an = none ∧ s = s₀ ∧ (s₀.conf.secy i).txSc.sa an = none) ∨
      ∃ r, s₀.conf.txSaEntry phy i an = some r ∧ TxSaThere s.conf phy port an i r ∧
        (s.conf.secy i).conf = (s₀.conf.secy i).conf ∧
        chip.pn s.hw .egress r (s₀.conf.secy i).conf.currentCipherSuite = txPnSet chip s₀ i r nextPn)
      fun _ => True := by
  obtain ⟨c, h⟩ := s₀
  refine ends_getConf_bind (fun s hs => by rw [hs]) ?_
  refine Ends.failIf_bind (fun _ _ _ => trivial) fun han => ?_
  refine Ends.failIf_bind (fun _ _ _ => trivial) fun _ => Ends.failIf_bind (fun _ _ _ => trivial) fun _ => ?_
  replace han : an < saPerScMax := Nat.lt_of_not_le han
  simp only [Conf.txSaEntry]
  cases hsa : (c.secy i).txSc.sa an with
  | some r =>
    cases hrec : c.glb.spdChangeMacsecRecfg with
    | false => exact Ends.throw fun _ _ => trivial
    | true =>
      refine (ends_txSa_stored chip (c := c) (x := nextPn) hen hi han rfl rfl ?_ fun hno => ?_).weaken
        (fun _ s hs => Or.inr ⟨_, rfl, hs⟩) fun _ _ => trivial
      · simp [Conf.startTxSa, Conf.pointTxSa]
      · simp [hrec] at hno
  | none =>
    cases hrec : c.glb.spdChangeMacsecRecfg with
    | true =>
      refine Ends.pure ?_
      rintro s rfl
      exact Or.inl ⟨rfl, rfl, rfl⟩
    | false =>
      simp only [Bool.false_eq_true, ↓reduceIte]
      cases hempty : c.recordEmptyGet phy .egress with
      | none => exact Ends.throw fun _ _ => trivial
      | some r =>
        let f : Conf → Conf := fun c' =>
          (c'.pointTxSa i an r).keyTxSa r b sak (if c.xpn i = true then ssci else none)
        refine Ends.bind (Q := fun _ s => s = { conf := f c, hw := h }) (ends_modifyConf_of ?_) fun _ => ?_
        · rintro s rfl
          rfl
        refine Ends.failIf_bind (fun _ _ _ => trivial) fun _ => ?_
        refine (ends_txSa_stored chip (c := c) (x := nextPn) hen hi han rfl rfl ?_ fun _ => ?_).weaken
          (fun _ s hs => Or.inr ⟨_, rfl, hs⟩) fun _ _ => trivial
        · simp [f, Conf.startTxSa, Conf.keyTxSa, Conf.pointTxSa]
        · simp [f, Conf.startTxSa, Conf.keyTxSa, Conf.pointTxSa]

theorem suiteOf_eq (hf : c.portFind phy port = some i) : c.suiteOf phy port = (c.secy i).conf.currentCipherSuite := by
  rw [Conf.suiteOf, hf]

/-- A call that reads the packet number of a record and then returns, whatever was read. -/
theorem readPn_bind_iff {suite : CipherSuite} {β : Type} {f : PktNum → Call H β} {G : β → Dev Conf H → Prop}
    {Y : PktNum → Dev Conf H → Prop} (hf : ∀ v t, t.conf = s.conf → ∃ b t', f v t = .ok b t' ∧ (G b t' ↔ Y v t)) :
    (∃ b s', (readPn chip d r suite >>= f) s = .ok b s' ∧ G b s') ↔ chip.regs.Answers (pnRegs d r suite) s.hw ∧
      Y (chip.pn s.hw d r suite) { s with hw := chip.regs.afterReads (pnRegs d r suite) s.hw } := by
  obtain ⟨b', t', hb', hg'⟩ :=
    hf (chip.pn s.hw d r suite) { s with hw := chip.regs.afterReads (pnRegs d r suite) s.hw } rfl
  constructor
  · rintro ⟨b, s', hb, hg⟩
    obtain ⟨v, t, hv, hb⟩ := (bind_ok_iff _ _ _ _ _).mp hb
    obtain ⟨ha, rfl, rfl⟩ := readPn_ok_iff.mp hv
    rw [hb'] at hb
    cases hb
    exact ⟨ha, hg'.mp hg⟩
  · rintro ⟨ha, hy⟩
    exact ⟨b', t', (bind_ok_iff _ _ _ _ _).mpr ⟨_, _, readPn_ok_iff.mpr ⟨ha, rfl, rfl⟩, hb'⟩, hg'.mpr hy⟩

/-- The packet number that `tx_sa_status_get` makes of the number read. -/
def txStatusPn (xpn : Bool) (v : PktNum) : PktNum := if xpn then v + 1 else (v.pn + 1).setWidth 64

theorem setTxSaAt_txSaAt {f : TxSa → TxSa} (hsa : (c.secy i).txSc.sa an = some r) :
    (c.setTxSaAt i an f).txSaAt i an = f (c.txSa r) := by
  rw [Conf.setTxSaAt_eq hsa, Conf.txSaAt_eq (r := r) (by simpa using hsa), Conf.setTxSa_txSa_self]

theorem txSaStatusGet_iff (h : TxSaThere s.conf phy port an i r) :
    (∃ st s', txSaStatusGet chip phy port an s = .ok st s' ∧ st.num (s.conf.suiteOf phy port).xpn = x) ↔
      chip.regs.Answers (pnRegs .egress r (s.conf.suiteOf phy port)) s.hw ∧
        txStatusPn (s.conf.suiteOf phy port).xpn (chip.pn s.hw .egress r (s.conf.suiteOf phy port)) = x := by
  rw [suiteOf_eq h.found, txSaStatusGet, bind_of_ok (portCheck_eq h.enabled h.found), txSaStatusGetPriv, bind_assoc,
    bind_of_ok (show getConf s = .ok s.conf s from rfl), bind_assoc, failIf_bind_of_not (Nat.not_le.mpr h.an_lt),
    bind_assoc, failIf_bind_of_not (by simp [h.sa]), bind_assoc, Conf.txSaAt_eq h.sa, h.record]
  refine readPn_bind_iff (Y := fun v _ => txStatusPn _ v = x) fun v t ht => ?_
  cases (s.conf.secy i).conf.currentCipherSuite.xpn with
  | true =>
    refine ⟨_, _, rfl, ?_⟩
    simp only [TxSaStatus.num, txStatusPn, ↓reduceIte, ht, setTxSaAt_txSaAt h.sa]
  | false =>
    refine ⟨_, _, rfl, ?_⟩
    simp only [TxSaStatus.num, txStatusPn, Bool.false_eq_true, ↓reduceIte, ht, setTxSaAt_txSaAt h.sa]

/-- One is taken off, and one is added. -/
theorem txStatusPn_pred {xpn : Bool} :
    txStatusPn xpn (if xpn = true then x - 1 else (x.pn - 1).setWidth 64) = x.num xpn := by
  cases xpn <;> simp only [txStatusPn, PktNum.num, PktNum.pn, Bool.false_eq_true, ↓reduceIte] <;> bv_omega

/-! ## Receive SAs -/

/-- The SA that the calls below are asked for. -/
structure RxSaThere (c : Conf) (phy : Phy) (port : MacsecPort) (sci : Sci) (an i sc p r : Nat) : Prop where
  enabled : c.glb.init.enable = true
  found : c.portFind phy port = some i
  channel : c.scFromSciGet phy i sci = some sc
  place : (c.secy i).rxSc sc = some p
  an_lt : an < saPerScMax
  sa : (c.rxSc p).sa an = some r
  record : (c.rxSa r).record = r
  inUse : (c.rxSa r).inUse = true

/-- The number that the record of a receive SA holds after a set. -/
def rxPnSet (chip : Chip H) (s : Dev Conf H) (i sc r : Nat) (lowestPn : PktNum) : PktNum :=
  let window := (s.conf.rxScAt i sc).conf.replayWindow
  if s.conf.glb.spdChangeMacsecRecfg = true then chip.pn s.hw .ingress r (s.conf.secy i).conf.currentCipherSuite
  else if s.conf.xpn i then lowestPn + BitVec.ofNat 64 window else (lowestPn.pn + word window).setWidth 64

theorem linkRxSa_rxSc_conf {o : Option Nat} {q : Nat} (hp : (c.secy i).rxSc sc = some p) :
    ((c.linkRxSa i sc an o).rxSc q).conf = (c.rxSc q).conf := by
  rw [Conf.linkRxSa_eq hp, Conf.setRxSc_rxSc]
  split <;> simp_all

/-- The channels alone decide which one has an SCI. -/
theorem scFromSciGet_congr {c' : Conf} (hs : c'.secy = c.secy)
    (hu : ∀ q, (c'.rxSc q).inUse = (c.rxSc q).inUse ∧ (c'.rxSc q).sci = (c.rxSc q).sci) :
    c'.scFromSciGet phy i sci = c.scFromSciGet phy i sci := by
  rw [Conf.scFromSciGet, Conf.scFromSciGet, hs]
  refine congrArg (fun f => (List.range phy.maxScCnt).find? f) (funext fun sc => ?_)
  cases (c.secy i).rxSc sc with
  | none => rfl
  | some q => simp only [(hu q).1, (hu q).2]

variable (chip) in
/-- What is stored, and what the record then holds. -/
theorem ends_rxSa_stored {f : Conf → Conf} {h : H} (hen : c.glb.init.enable = true) (hi : c.portFind phy port = some i)
    (han : an < saPerScMax) (hsc : c.scFromSciGet phy i sci = some sc) (hp : (c.secy i).rxSc sc = some p)
    (hs : (f c).secy = c.secy) (hx : (f c).rxSc = (c.linkRxSa i sc an (some r)).rxSc) (hg : (f c).glb = c.glb)
    (hr : ((f c).rxSa r).record = r) (hu : ((f c).rxSa r).inUse = true)
    (hpn : ((f c).rxSa r).pnLowestPn = x ∧ ((f c).rxSa r).lowestPn = x.pn) :
    Ends (fun s => s.conf = c ∧ ∀ q, chip.regs.peek s.hw q = chip.regs.peek h q)
      (modifyConf f >>= fun _ => rxSaProgram chip.toHw i sc an r) (fun _ s =>
      RxSaThere s.conf phy port sci an i sc p r ∧ (s.conf.secy i).conf = (c.secy i).conf ∧
        (s.conf.rxSc p).conf = (c.rxSc p).conf ∧
        chip.pn s.hw .ingress r (c.secy i).conf.currentCipherSuite = rxPnSet chip { conf := c, hw := h } i sc r x)
      fun _ => True := by
  have hp' : ((f c).secy i).rxSc sc = some p := by rw [hs, hp]
  have hsa : ((f c).rxSc p).sa an = some r := by rw [hx, Conf.linkRxSa_sa hp, if_pos ⟨rfl, rfl⟩]
  have hconf : ((f c).rxSc p).conf = (c.rxSc p).conf := by rw [hx, linkRxSa_rxSc_conf hp]
  have hchannel : (f c).scFromSciGet phy i sci = some sc := by
    rw [← hsc]
    refine scFromSciGet_congr hs fun q => ?_
    rw [hx, Conf.linkRxSa_inUse hp, Conf.linkRxSa_sci hp]
    exact ⟨rfl, rfl⟩
  have hfound : (f c).portFind phy port = some i := by
    rw [← hi]
    exact portFind_congr fun j => by rw [Conf.hasPort, Conf.hasPort, hs]
  refine Ends.bind (Q := fun _ => PnIs chip (f c) .ingress i r
    (chip.pn h .ingress r (c.secy i).conf.currentCipherSuite)) (ends_modifyConf_of ?_) fun _ => ?_
  · rintro s ⟨rfl, hq⟩
    exact ⟨rfl, by rw [hs]; exact pn_congr hq⟩
  · refine ends_rxSaProgram_pn.weaken (fun _ s hs' => ?_) fun _ _ => trivial
    obtain ⟨hc, hv⟩ := hs'
    rw [hc]
    refine ⟨⟨by rw [hg, hen], hfound, hchannel, hp', han, hsa, hr, hu⟩, by rw [hs], hconf, ?_⟩
    rw [hs, hg] at hv
    rw [hv, rxPnSet]
    refine ite_congr rfl (fun _ => rfl) fun _ => ?_
    rw [pnWritten, Conf.rxSaAt_eq hp' hsa, hpn.1, hpn.2, Conf.rxScAt_eq hp', hconf, Conf.xpn, Conf.xpn, hs,
      Conf.rxScAt_eq hp]

/-- After a set, the SA is in its entry, and the record holds the lowest number and the window. -/
theorem ends_rxSaSet_pn {lowestPn : PktNum} {sak : Sak} {ssci : Option Ssci} {s₀ : Dev Conf H}
    (hen : s₀.conf.glb.init.enable = true) (hi : s₀.conf.portFind phy port = some i) :
    Ends (fun s => s = s₀) (rxSaSet chip.toHw phy i sci an lowestPn sak ssci) (fun _ s =>
      ∃ sc, s₀.conf.scFromSciGet phy i sci = some sc ∧ ((s₀.conf.rxSaEntry phy i sc an = none ∧ s.conf = s₀.conf ∧
          (s₀.conf.rxScAt i sc).sa an = none) ∨
        ∃ p r, (s₀.conf.secy i).rxSc sc = some p ∧ s₀.conf.rxSaEntry phy i sc an = some r ∧
          RxSaThere s.conf phy port sci an i sc p r ∧ (s.conf.secy i).conf = (s₀.conf.secy i).conf ∧
          (s.conf.rxSc p).conf = (s₀.conf.rxSc p).conf ∧
          chip.pn s.hw .ingress r (s₀.conf.secy i).conf.currentCipherSuite = rxPnSet chip s₀ i sc r lowestPn))
      fun _ => True := by
  obtain ⟨c, h⟩ := s₀
  refine Ends.bind (Q := fun sc s => s = { conf := c, hw := h } ∧ c.scFromSciGet phy i sci = some sc) ?_ fun sc => ?_
  · refine ends_getConf_bind (fun s hs => by rw [hs]) ?_
    cases c.scFromSciGet phy i sci with
    | none => exact Ends.throw fun _ _ => trivial
    | some sc => exact Ends.pure fun s hs => ⟨hs, rfl⟩
  refine Ends.imp fun hsc => ?_
  obtain ⟨-, p, hp, -, -⟩ := scFromSciGet_spec hsc
  refine ends_getConf_bind (fun s hs => by rw [hs]) ?_
  refine Ends.failIf_bind (fun _ _ _ => trivial) fun _ => Ends.failIf_bind (fun _ _ _ => trivial) fun _ => ?_
  refine Ends.failIf_bind (fun _ _ _ => trivial) fun han => ?_
  replace han : an < saPerScMax := Nat.lt_of_not_le han
  refine Ends.bind (Q := fun _ s => s.conf = c ∧ ∀ q, chip.regs.peek s.hw q = chip.regs.peek h q) ?_ fun _ => ?_
  · refine Ends.when (fun _ => ends_hwOp_answered ?_) ?_
    · rintro s rfl -
      exact ⟨rfl, chip.spares _ rfl c h⟩
    · rintro - s rfl
      exact ⟨rfl, fun _ => rfl⟩
  simp only [Conf.rxSaEntry, hsc, Option.some.injEq, exists_eq_left']
  cases hsa : (c.rxScAt i sc).sa an with
  | some r =>
    cases hrec : c.glb.spdChangeMacsecRecfg with
    | false => exact Ends.throw fun _ _ => trivial
    | true =>
      refine (ends_rxSa_stored chip (x := lowestPn) hen hi han hsc hp ?_ ?_ ?_ ?_ ?_ ?_).weaken
        (fun _ s hs => Or.inr ⟨p, _, hp, rfl, hs⟩) fun _ _ => trivial
      all_goals simp [Conf.startRxSa, Conf.pointRxSa]
  | none =>
    cases hrec : c.glb.spdChangeMacsecRecfg with
    | true => exact Ends.pure fun s hs => Or.inl ⟨rfl, hs.1, rfl⟩
    | false =>
      simp only [Bool.false_eq_true, ↓reduceIte]
      cases hempty : c.recordEmptyGet phy .ingress with
      | none => exact Ends.throw fun _ _ => trivial
      | some r =>
        refine (ends_rxSa_stored chip (x := lowestPn) hen hi han hsc hp ?_ ?_ ?_ ?_ ?_ ?_).weaken
          (fun _ s hs => Or.inr ⟨p, _, hp, rfl, hs⟩) fun _ _ => trivial
        all_goals simp [Conf.startRxSa, Conf.keyRxSa, Conf.pointRxSa]

/-- The packet number of `rx_sa_get` or `rx_seca_get`; `lowestPn` is what the caller's union holds before. -/
def rxPnGet (chip : Chip H) (phy : Phy) (port : MacsecPort) (sci : Sci) (an : Nat) (api : PnApi) (lowestPn : PktNum) :
    Call H PktNum :=
  match api with
  | .sa => do return (← rxSaGet chip phy port sci an).lowestPn.setWidth 64
  | .seca => do return (← rxSecaGet chip phy port sci an lowestPn).lowestPn

/-- The power mode, and then the packet number of the record, can be read. -/
def PowerAnswers (chip : Chip H) (r : Nat) (suite : CipherSuite) (s : Dev Conf H) : Prop :=
  (chip.run .powerGet s.conf s.hw).1 = true ∧
    chip.regs.Answers (pnRegs .ingress r suite) (chip.run .powerGet s.conf s.hw).2

/-- The state after `rx_sa_get` of the record. -/
def afterGet (chip : Chip H) (r : Nat) (suite : CipherSuite) (s : Dev Conf H) : Dev Conf H :=
  { s with hw := chip.regs.afterReads (pnRegs .ingress r suite) (chip.run .powerGet s.conf s.hw).2 }

theorem pn_afterGet {suite : CipherSuite} {q : Nat} :
    chip.pn (afterGet chip r suite s).hw .ingress q suite = chip.pn s.hw .ingress q suite :=
  pn_congr fun a => (chip.regs.peek_afterReads _ _ not_false).trans (chip.spares _ rfl _ _ a)

/-- A call that reads the power mode first. -/
theorem powerGet_bind_iff {β : Type} {f : Unit → Call H β} {G : β → Dev Conf H → Prop} :
    (∃ b t, (orFail (hwOp chip.toHw .powerGet) .phyPoweredDown >>= f) s = .ok b t ∧ G b t) ↔
      (chip.run .powerGet s.conf s.hw).1 = true ∧
        ∃ b t, f () { s with hw := (chip.run .powerGet s.conf s.hw).2 } = .ok b t ∧ G b t := by
  by_cases hok : (chip.run .powerGet s.conf s.hw).1 = true
  · have hpower : (orFail (hwOp chip.toHw .powerGet) .phyPoweredDown : Call H Unit) s =
        .ok () { s with hw := (chip.run .powerGet s.conf s.hw).2 } := by
      rw [orFail_ok_iff]
      exact if_pos hok
    rw [bind_of_ok hpower]
    simp only [hok, true_and]
  · refine iff_of_false ?_ fun h => hok h.1
    rintro ⟨b, t, hb, -⟩
    obtain ⟨u, t', hu, -⟩ := (bind_ok_iff _ _ _ _ _).mp hb
    rw [orFail_ok_iff, hwOp, if_neg hok] at hu
    cases hu

/-- Both getters call `vtss_macsec_rx_sa_get_priv`, and hand out what fits. -/
theorem rxPnGet_eq (chip : Chip H) (phy : Phy) (port : MacsecPort) (sci : Sci) (an : Nat) (api : PnApi) (buf : PktNum) :
    ∃ buf', rxPnGet chip phy port sci an api buf =
    portCheck phy port >>= fun i => rxSaGetPriv chip phy i sci an buf' >>= fun conf => pure (api.cut conf.lowestPn) := by
  cases api with
  | sa => exact ⟨0, by simp [rxPnGet, rxSaGet, PnApi.cut]⟩
  | seca => exact ⟨buf, by simp [rxPnGet, rxSecaGet, PnApi.cut]⟩

theorem rxPnGet_iff {Q : Dev Conf H → Prop} {api : PnApi} {buf : PktNum} (h : RxSaThere s.conf phy port sci an i sc p r)
    {suite : CipherSuite} (hsuite : (s.conf.secy i).conf.currentCipherSuite = suite) :
    (∃ q t, rxPnGet chip phy port sci an api buf s = .ok q t ∧ q.num suite.xpn = x ∧ Q t) ↔
      PowerAnswers chip r suite s ∧ api.cut (rxGetPn suite.xpn (s.conf.rxSc p).conf.replayWindow
        (chip.pn s.hw .ingress r suite)) = x ∧ Q (afterGet chip r suite s) := by
  obtain ⟨buf', hget⟩ := rxPnGet_eq chip phy port sci an api buf
  have hpn : chip.pn (chip.run .powerGet s.conf s.hw).2 .ingress r suite = chip.pn s.hw .ingress r suite :=
    pn_congr (chip.spares _ rfl _ _)
  rw [hget, bind_of_ok (portCheck_eq h.enabled h.found), rxSaGetPriv, bind_assoc, powerGet_bind_iff, PowerAnswers,
    and_assoc, afterGet, ← hpn]
  refine and_congr_right fun _ => ?_
  generalize ht : ({ s with hw := (chip.run .powerGet s.conf s.hw).2 } : Dev Conf H) = t
  have hc : t.conf = s.conf := by rw [← ht]
  have hw : (chip.run .powerGet s.conf s.hw).2 = t.hw := by rw [← ht]
  have hsc : (scFromSci phy i sci : Call H Nat) t = .ok sc t := by
    rw [scFromSci, bind_of_ok (show getConf t = .ok t.conf t from rfl), hc, h.channel]
    rfl
  rw [bind_assoc, bind_of_ok hsc, bind_assoc, bind_of_ok (show getConf t = .ok t.conf t from rfl), hc, bind_assoc,
    failIf_bind_of_not (Nat.not_le.mpr h.an_lt), bind_assoc, Conf.rxScAt_eq h.place, failIf_bind_of_not (by simp [h.sa]), hw]
  simp only [Conf.rxSaAt_eq h.place h.sa, h.record, hsuite, bind_assoc]
  rw [show ({ conf := s.conf, hw := chip.regs.afterReads (pnRegs .ingress r suite) t.hw } : Dev Conf H) =
    { t with hw := chip.regs.afterReads (pnRegs .ingress r suite) t.hw } by rw [← hc]]
  refine readPn_bind_iff (Y := fun v t => api.cut (rxGetPn suite.xpn _ v) = x ∧ Q t) fun v t ht => ⟨_, _, rfl, ?_⟩
  cases api <;> cases suite.xpn <;> simp [PnApi.cut, rxGetPn, PktNum.num, Macsec.setPn_pn, Macsec.pn_setWidth]

theorem setRxSaAt_rxSaAt {f : RxSa → RxSa} (hp : (c.secy i).rxSc sc = some p) (hsa : (c.rxSc p).sa an = some r) :
    (c.setRxSaAt i sc an f).rxSaAt i sc an = f (c.rxSa r) := by
  have hset : c.setRxSaAt i sc an f = c.setRxSa r f := by rw [Conf.setRxSaAt, Conf.rxScAt_eq hp, hsa]
  rw [hset, Conf.rxSaAt_eq (p := p) (r := r) (by simpa using hp) (by simpa using hsa), Conf.setRxSa_rxSa_self]

theorem rxSaStatusGet_iff (h : RxSaThere s.conf phy port sci an i sc p r) {suite : CipherSuite}
    (hsuite : (s.conf.secy i).conf.currentCipherSuite = suite) :
    (∃ st t, rxSaStatusGet chip phy port sci an s = .ok (some st) t ∧ st.num suite.xpn = x) ↔
      chip.regs.Answers (pnRegs .ingress r suite) s.hw ∧
        rxStatusPn suite.xpn (s.conf.rxSc p).conf.replayWindow (chip.pn s.hw .ingress r suite) = x := by
  have hsome : (∃ st t, rxSaStatusGet chip phy port sci an s = .ok (some st) t ∧ st.num suite.xpn = x) ↔
      ∃ o t, rxSaStatusGet chip phy port sci an s = .ok o t ∧ ∃ st, o = some st ∧ st.num suite.xpn = x := by
    constructor
    · rintro ⟨st, t, hst, hx⟩
      exact ⟨_, t, hst, st, rfl, hx⟩
    · rintro ⟨_, t, hst, st, rfl, hx⟩
      exact ⟨st, t, hst, hx⟩
  rw [hsome, rxSaStatusGet, bind_of_ok (portCheck_eq h.enabled h.found), rxSaStatusGetPriv,
    bind_of_ok (show getConf s = .ok s.conf s from rfl)]
  simp only [h.channel]
  rw [failIf_bind_of_not (Nat.not_le.mpr h.an_lt), Conf.rxScAt_eq h.place, failIf_bind_of_not (by simp [h.sa]),
    Conf.rxSaAt_eq h.place h.sa, failIf_bind_of_not (by simp [h.inUse])]
  simp only [h.record, hsuite]
  refine readPn_bind_iff (Y := fun v _ => rxStatusPn _ _ v = x) fun v t ht => ?_
  cases suite.xpn with
  | true =>
    refine ⟨_, _, rfl, ?_⟩
    simp only [RxSaStatus.num, rxStatusPn, ↓reduceIte, ht, setRxSaAt_rxSaAt h.place h.sa, Option.some.injEq,
      exists_eq_left']
  | false =>
    refine ⟨_, _, rfl, ?_⟩
    simp only [RxSaStatus.num, rxStatusPn, Bool.false_eq_true, ↓reduceIte, ht, setRxSaAt_rxSaAt h.place h.sa,
      Option.some.injEq, exists_eq_left']

/-! ## When the number comes back -/

section Main

variable (chip phy port)

/-- From here, `tx_sa_status_get` returns this packet number. -/
def TxRoundTrip (an : Nat) (nextPn : PktNum) (s : Dev Conf H) : Prop :=
  let xpn := (s.conf.suiteOf phy port).xpn
  ∃ st t, txSaStatusGet chip phy port an s = .ok st t ∧ st.num xpn = nextPn.num xpn

/-- From here, `rx_sa_get` and then `rx_sa_status_get` return this packet number, and the number in the record of the SA
is not below it. -/
def RxRoundTrip (api : PnApi) (sci : Sci) (an : Nat) (lowestPn : PktNum) (s : Dev Conf H) : Prop :=
  let suite := s.conf.suiteOf phy port
  (∀ buf, ∃ p t st t', rxPnGet chip phy port sci an api buf s = .ok p t ∧
    rxSaStatusGet chip phy port sci an t = .ok (some st) t' ∧
    p.num suite.xpn = lowestPn.num suite.xpn ∧ st.num suite.xpn = lowestPn.num suite.xpn) ∧
  ∀ i sc, s.conf.portFind phy port = some i → s.conf.scFromSciGet phy i sci = some sc →
    lowestPn.num suite.xpn ≤ chip.pn s.hw .ingress (s.conf.rxSaAt i sc an).record suite

/-- When `tx_sa_status_get` returns the packet number that the call from `s` to `s'` has set: always, when its register
is read and the configuration is not being programmed again. Then the record is not written, and has to hold it. -/
def TxReadsBack (an : Nat) (nextPn : PktNum) (s s' : Dev Conf H) : Prop :=
  let suite := s.conf.suiteOf phy port
  ∃ i r, s.conf.portFind phy port = some i ∧ s.conf.txSaEntry phy i an = some r ∧
    chip.regs.Answers (pnRegs .egress r suite) s'.hw ∧
    (s.conf.glb.spdChangeMacsecRecfg = true →
      txStatusPn suite.xpn (chip.pn s.hw .egress r suite) = nextPn.num suite.xpn)

/-- When `rx_sa_get` and `rx_sa_status_get` return the lowest packet number that the call from `s` to `s'` has set: it is
positive, fits the getter, and does not wrap with the replay window. -/
def RxReadsBack (api : PnApi) (sci : Sci) (an : Nat) (lowestPn : PktNum) (s s' : Dev Conf H) : Prop :=
  let suite := s.conf.suiteOf phy port
  let lowest := (lowestPn.num suite.xpn).toNat
  ∃ i sc r, s.conf.portFind phy port = some i ∧ s.conf.scFromSciGet phy i sci = some sc ∧
    s.conf.rxSaEntry phy i sc an = some r ∧ PowerAnswers chip r suite s' ∧
    chip.regs.Answers (pnRegs .ingress r suite) (afterGet chip r suite s').hw ∧ (api = .sa → lowest < 2 ^ 32) ∧
    let window := (s.conf.rxScAt i sc).conf.replayWindow
    if s.conf.glb.spdChangeMacsecRecfg = true then
      window < (chip.pn s.hw .ingress r suite).toNat ∧
        chip.pn s.hw .ingress r suite - BitVec.ofNat 64 window = lowestPn.num suite.xpn
    else 1 ≤ lowest ∧ lowest + window < 2 ^ (if suite.xpn then 64 else 32)

variable {chip phy port}

/-- A number that is written with the window on top comes back if it is positive and the sum does not wrap. -/
theorem rxPn_written {xpn : Bool} {w : Nat} :
    let v := if xpn then x + BitVec.ofNat 64 w else (x.pn + word w).setWidth 64
    (w < v.toNat ∧ v - BitVec.ofNat 64 w = x.num xpn) ↔
      1 ≤ (x.num xpn).toNat ∧ (x.num xpn).toNat + w < 2 ^ (if xpn then 64 else 32) := by
  cases xpn with
  | true => exact Macsec.written_xpn
  | false =>
    have hx := x.pn.isLt
    have hv : ((x.pn + word w).setWidth 64 : PktNum).toNat = (x.pn.toNat + w) % 2 ^ 32 := by
      rw [BitVec.toNat_setWidth, BitVec.toNat_add, word, BitVec.toNat_ofNat]
      omega
    have hnum : (x.pn.setWidth 64 : PktNum).toNat = x.pn.toNat := by
      rw [BitVec.toNat_setWidth]
      omega
    simp only [Bool.false_eq_true, ↓reduceIte, PktNum.num, ← BitVec.toNat_inj, BitVec.toNat_sub, hv, hnum,
      BitVec.toNat_ofNat]
    omega

/-- Without an SA there is no status. -/
theorem not_txRoundTrip {an : Nat} {nextPn : PktNum} (hen : s.conf.glb.init.enable = true)
    (hi : s.conf.portFind phy port = some i) (hsa : (s.conf.secy i).txSc.sa an = none) :
    ¬TxRoundTrip chip phy port an nextPn s := by
  rintro ⟨st, t, hst, -⟩
  rw [txSaStatusGet, bind_of_ok (portCheck_eq hen hi), txSaStatusGetPriv, bind_assoc,
    bind_of_ok (show getConf s = .ok s.conf s from rfl), bind_assoc] at hst
  obtain ⟨-, t', ht, hst⟩ := (bind_ok_iff _ _ _ _ _).mp hst
  rw [bind_assoc, hsa, failIf, when, if_pos rfl] at hst
  cases hst

theorem txReadsBack_iff {an : Nat} {nextPn : PktNum} {b : Bool} {sak : Sak} {ssci : Option Ssci}
    (hset : (Op.txSaSet port an nextPn b sak ssci).call chip.toHw phy s = .ok () s') :
    TxRoundTrip chip phy port an nextPn s' ↔ TxReadsBack chip phy port an nextPn s s' := by
  obtain ⟨i, t, hp, ht⟩ := (bind_ok_iff _ _ _ _ _).mp hset
  obtain ⟨hen, hi, rfl⟩ := portCheck_ok hp
  rcases (ends_txSaSet_pn hen hi).ok rfl ht with ⟨hentry, rfl, hsa⟩ | ⟨r, hentry, hthere, hconf, hpn⟩
  · refine iff_of_false (not_txRoundTrip hen hi hsa) ?_
    rintro ⟨i', r, hi', hentry', -⟩
    cases hi.symm.trans hi'
    cases hentry.symm.trans hentry'
  · have hsuite : s'.conf.suiteOf phy port = t.conf.suiteOf phy port := by
      rw [suiteOf_eq hthere.found, suiteOf_eq hi, hconf]
    unfold TxRoundTrip TxReadsBack
    rw [txSaStatusGet_iff hthere, hsuite]
    rw [← suiteOf_eq hi] at hpn
    rw [hpn, txPnSet]
    constructor
    · rintro ⟨ha, hv⟩
      refine ⟨i, r, hi, hentry, ha, fun hrec => ?_⟩
      rwa [if_pos hrec, ← suiteOf_eq hi] at hv
    · rintro ⟨i', r', hi', hentry', ha, hv⟩
      cases hi.symm.trans hi'
      cases hentry.symm.trans hentry'
      refine ⟨ha, ?_⟩
      split
      · next hrec =>
        rw [← suiteOf_eq hi]
        exact hv hrec
      · rw [suiteOf_eq hi]
        exact txStatusPn_pred

/-- Without an SA the getter fails. -/
theorem not_rxRoundTrip {api : PnApi} {sci : Sci} {an sc : Nat} {lowestPn : PktNum}
    (hen : s.conf.glb.init.enable = true) (hi : s.conf.portFind phy port = some i)
    (hsc : s.conf.scFromSciGet phy i sci = some sc) (hsa : (s.conf.rxScAt i sc).sa an = none) :
    ¬RxRoundTrip chip phy port api sci an lowestPn s := by
  rintro ⟨h, -⟩
  obtain ⟨q, t, -, -, hq, -⟩ := h 0
  obtain ⟨buf, hget⟩ := rxPnGet_eq chip phy port sci an api 0
  rw [hget, bind_of_ok (portCheck_eq hen hi)] at hq
  obtain ⟨conf, t', hconf, -⟩ := (bind_ok_iff _ _ _ _ _).mp hq
  have hno : Ends (fun t => t.conf = s.conf) (rxSaGetPriv chip phy i sci an buf) (fun _ _ => False) fun _ => True := by
    refine Ends.bind (Q := fun _ t => t.conf = s.conf) ?_ fun _ => ?_
    · exact (ends_hwOp_answered (Q := fun t => t.conf = s.conf) fun t ht _ => ht).orFail
    refine Ends.bind (Q := fun sc' t => t.conf = s.conf ∧ sc' = sc) ?_ fun sc' => Ends.imp fun hsc' => ?_
    · refine ends_getConf_bind (fun _ ht => ht) ?_
      rw [hsc]
      exact Ends.pure fun t ht => ⟨ht, rfl⟩
    subst hsc'
    refine ends_getConf_bind (fun _ ht => ht) (Ends.failIf_bind (fun _ _ _ => trivial) fun _ => ?_)
    exact Ends.failIf_bind (fun _ _ _ => trivial) fun hne => absurd hsa hne
  exact hno.ok rfl hconf

/-- The two readers, one after the other. -/
theorem rxReaders_iff {api : PnApi} {suite : CipherSuite} (h : RxSaThere s.conf phy port sci an i sc p r)
    (hsuite : (s.conf.secy i).conf.currentCipherSuite = suite) {v : PktNum}
    (hv : chip.pn s.hw .ingress r suite = v) :
    (∀ buf, ∃ q t st t', rxPnGet chip phy port sci an api buf s = .ok q t ∧
      rxSaStatusGet chip phy port sci an t = .ok (some st) t' ∧ q.num suite.xpn = x ∧ st.num suite.xpn = x) ↔
    PowerAnswers chip r suite s ∧ chip.regs.Answers (pnRegs .ingress r suite) (afterGet chip r suite s).hw ∧
      (api = .sa → x.toNat < 2 ^ 32) ∧ (s.conf.rxSc p).conf.replayWindow < v.toNat ∧
        v - BitVec.ofNat 64 (s.conf.rxSc p).conf.replayWindow = x := by
  have hget : ∀ buf, (∃ q t st t', rxPnGet chip phy port sci an api buf s = .ok q t ∧
      rxSaStatusGet chip phy port sci an t = .ok (some st) t' ∧ q.num suite.xpn = x ∧ st.num suite.xpn = x) ↔
      ∃ q t, rxPnGet chip phy port sci an api buf s = .ok q t ∧ q.num suite.xpn = x ∧
        ∃ st t', rxSaStatusGet chip phy port sci an t = .ok (some st) t' ∧ st.num suite.xpn = x := by
    intro buf
    constructor
    · rintro ⟨q, t, st, t', hq, hst, hqn, hstn⟩
      exact ⟨q, t, hq, hqn, st, t', hst, hstn⟩
    · rintro ⟨q, t, hq, hqn, st, t', hst, hstn⟩
      exact ⟨q, t, st, t', hq, hst, hqn, hstn⟩
  have hafter : RxSaThere (afterGet chip r suite s).conf phy port sci an i sc p r := h
  have hshort : suite.xpn = false → v.toNat < 2 ^ 32 := fun hx => hv ▸ pn_short hx
  simp only [hget, rxPnGet_iff h hsuite, rxSaStatusGet_iff hafter hsuite, pn_afterGet, hv, forall_const,
    ← Macsec.rx_agree hshort]
  constructor
  · rintro ⟨hp, hg, ha, hst⟩
    exact ⟨hp, ha, hg, hst⟩
  · rintro ⟨hp, ha, hg, hst⟩
    exact ⟨hp, hg, ha, hst⟩

theorem rxReadsBack_iff {api : PnApi} {sci : Sci} {an : Nat} {lowestPn : PktNum} {sak : Sak} {ssci : Option Ssci}
    (hset : (Op.rxSaSet port sci an lowestPn sak ssci).call chip.toHw phy s = .ok () s') :
    RxRoundTrip chip phy port api sci an lowestPn s' ↔ RxReadsBack chip phy port api sci an lowestPn s s' := by
  obtain ⟨i, t, hp, ht⟩ := (bind_ok_iff _ _ _ _ _).mp hset
  obtain ⟨hen, hi, rfl⟩ := portCheck_ok hp
  obtain ⟨sc, hsc, ⟨hentry, hconf, hsa⟩ | ⟨p, r, hplace, hentry, hthere, hconf, hwindow, hpn⟩⟩ :=
    (ends_rxSaSet_pn hen hi).ok rfl ht
  · refine iff_of_false (not_rxRoundTrip (by rw [hconf, hen]) (by rw [hconf, hi]) (by rw [hconf, hsc])
      (by rw [hconf, hsa])) ?_
    rintro ⟨i', sc', r, hi', hsc', hentry', -⟩
    cases hi.symm.trans hi'
    cases hsc.symm.trans hsc'
    cases hentry.symm.trans hentry'
  · have hsuite : s'.conf.suiteOf phy port = t.conf.suiteOf phy port := by
      rw [suiteOf_eq hthere.found, suiteOf_eq hi, hconf]
    have hcur : (s'.conf.secy i).conf.currentCipherSuite = t.conf.suiteOf phy port := by rw [hconf, suiteOf_eq hi]
    rw [← suiteOf_eq hi] at hpn
    have hword : ((t.conf.rxScAt i sc).conf.replayWindow < (rxPnSet chip t i sc r lowestPn).toNat ∧
        rxPnSet chip t i sc r lowestPn - BitVec.ofNat 64 (t.conf.rxScAt i sc).conf.replayWindow =
          lowestPn.num (t.conf.suiteOf phy port).xpn) ↔
        if t.conf.glb.spdChangeMacsecRecfg = true then
          (t.conf.rxScAt i sc).conf.replayWindow < (chip.pn t.hw .ingress r (t.conf.suiteOf phy port)).toNat ∧
            chip.pn t.hw .ingress r (t.conf.suiteOf phy port) -
              BitVec.ofNat 64 (t.conf.rxScAt i sc).conf.replayWindow = lowestPn.num (t.conf.suiteOf phy port).xpn
        else 1 ≤ (lowestPn.num (t.conf.suiteOf phy port).xpn).toNat ∧
          (lowestPn.num (t.conf.suiteOf phy port).xpn).toNat + (t.conf.rxScAt i sc).conf.replayWindow <
            2 ^ (if (t.conf.suiteOf phy port).xpn then 64 else 32) := by
      simp only [rxPnSet, suiteOf_eq hi]
      split
      · exact Iff.rfl
      · exact rxPn_written
    simp only [RxRoundTrip, hsuite]
    rw [rxReaders_iff hthere hcur hpn, hwindow, ← Conf.rxScAt_eq hplace, and_assoc, and_assoc, and_assoc, hword]
    constructor
    · rintro ⟨hpow, ha, hfit, hrest, -⟩
      exact ⟨i, sc, r, hi, hsc, hentry, hpow, ha, hfit, hrest⟩
    · rintro ⟨i', sc', r', hi', hsc', hentry', hpow, ha, hfit, hrest⟩
      cases hi.symm.trans hi'
      cases hsc.symm.trans hsc'
      cases hentry.symm.trans hentry'
      refine ⟨hpow, ha, hfit, hrest, fun j sc' hj hsc' => ?_⟩
      cases hthere.found.symm.trans hj
      cases hthere.channel.symm.trans hsc'
      obtain ⟨hlt, hsub⟩ := hword.mpr hrest
      rw [Conf.rxSaAt_eq hthere.place hthere.sa, hthere.record, hpn, ← hsub, BitVec.le_def, BitVec.toNat_sub,
        BitVec.toNat_ofNat]
      omega

/-- **After a successful set, the readers return the packet number that was set exactly when it reads back.** -/
theorem packet_numbers_round_trip (chip : Chip H) (phy : Phy) (port : MacsecPort) (s s' : Dev Conf H) (an : Nat)
    (sak : Sak) (ssci : Option Ssci) :
    (∀ nextPn b, (Op.txSaSet port an nextPn b sak ssci).call chip.toHw phy s = .ok () s' →
      (TxRoundTrip chip phy port an nextPn s' ↔ TxReadsBack chip phy port an nextPn s s')) ∧
    ∀ api sci lowestPn, (Op.rxSaSet port sci an lowestPn sak ssci).call chip.toHw phy s = .ok () s' →
      (RxRoundTrip chip phy port api sci an lowestPn s' ↔ RxReadsBack chip phy port api sci an lowestPn s s') :=
  ⟨fun _ _ => txReadsBack_iff, fun _ _ _ => rxReadsBack_iff⟩

end Main

/-! ## A wrap -/

/-- After every successful set, the readers of the suite's width return the packet number that was set. -/
def PacketNumbersRoundTrip (chip : Chip H) (phy : Phy) : Prop :=
  ∀ (s s' : Dev Conf H) (port : MacsecPort) (an : Nat) (sak : Sak) (ssci : Option Ssci), Reachable chip.toHw phy s →
    (∀ nextPn b, 1 ≤ (nextPn.num (s.conf.suiteOf phy port).xpn).toNat →
      (Op.txSaSet port an nextPn b sak ssci).call chip.toHw phy s = .ok () s' →
        TxRoundTrip chip phy port an nextPn s') ∧
    ∀ sci lowestPn, (Op.rxSaSet port sci an lowestPn sak ssci).call chip.toHw phy s = .ok () s' →
      RxRoundTrip chip phy port (if (s.conf.suiteOf phy port).xpn then .seca else .sa) sci an lowestPn s'

/-- A SecY with a receive channel and this replay window. -/
def windowRun (window : Nat) : List Op :=
  [.initSet (.request true false), .secyConfAdd (benchPort 1) { benchSecy with replayWindow := window },
    .rxScAdd (benchPort 1) benchSci]

def setRxSa (lowestPn : PktNum) : Op := .rxSaSet (benchPort 1) benchSci 0 lowestPn {} none

/-- The state in which the SA is set. -/
def windowState : Dev Conf (Nat → BitVec 32) := calls benchChip.toHw benchPhy (windowRun 16) benchChipProbed

/-- The sets below use SecY 0, channel 0 and entry 0. -/
theorem windowState_entry : windowState.conf.portFind benchPhy (benchPort 1) = some 0 ∧
    windowState.conf.scFromSciGet benchPhy 0 benchSci = some 0 ∧ windowState.conf.rxSaEntry benchPhy 0 0 0 = some 0 ∧
    (windowState.conf.rxScAt 0 0).conf.replayWindow = 16 ∧
    (windowState.conf.suiteOf benchPhy (benchPort 1)).xpn = false ∧
    windowState.conf.glb.spdChangeMacsecRecfg = false := by
  decide +kernel

/-- With a window of 16, the lowest packet number 5 comes back. -/
theorem packet_numbers_round_trip_bench : RxRoundTrip benchChip benchPhy (benchPort 1) .sa benchSci 0 5
    (final ((setRxSa 5).call benchChip.toHw benchPhy) windowState) := by
  obtain ⟨hi, hsc, hentry, hwindow, hx, hrec⟩ := windowState_entry
  have hset := ok_final (x := (setRxSa 5).call benchChip.toHw benchPhy) (s := windowState) (by decide +kernel)
  refine ((packet_numbers_round_trip benchChip benchPhy _ _ _ 0 {} none).2 _ _ _ hset).mpr ?_
  unfold RxReadsBack
  simp only [hx, hrec, Bool.false_eq_true, ↓reduceIte]
  refine ⟨0, 0, 0, hi, hsc, hentry, ⟨rfl, benchRegs_answers _ _⟩, benchRegs_answers _ _, fun _ => by decide, ?_⟩
  rw [hwindow]
  decide

/-- With a window of 16, the number in the record wraps when the lowest packet number is 2^32 - 8. -/
theorem not_packet_numbers_round_trip : ¬PacketNumbersRoundTrip benchChip benchPhy := by
  intro h
  obtain ⟨hi, hsc, -, hwindow, hx, hrec⟩ := windowState_entry
  have hset := ok_final (x := (setRxSa 0xFFFFFFF8).call benchChip.toHw benchPhy) (s := windowState) (by decide +kernel)
  have hback := (h _ _ _ _ _ _ (reachable_calls benchChip.toHw benchPhy (windowRun 16) _)).2 _ _ hset
  obtain ⟨i, sc, r, hi', hsc', -, -, -, -, hread⟩ := (rxReadsBack_iff hset).mp hback
  cases hi.symm.trans hi'
  cases hsc.symm.trans hsc'
  simp only [hx, hrec, hwindow, Bool.false_eq_true, ↓reduceIte] at hread
  revert hread
  decide

end Lan80xx.VtssMacsec
