import Lan80xx.Macsec.Willing
import Lan80xx.Macsec.ChannelMap

/-!
# MACsec: rejected settings

A setting call that is rejected by one of its own checks should leave the tables as they are. `Late` collects the calls
that are rejected after they have stored something, and `atomic_iff` says that these are all.
-/

namespace Lan80xx.Macsec

open Fallible RegBus MacsecConf

variable {H : Type} {bus : PortBus H} {h₀ : H} {c c' : MacsecConf} {i an sc r : Nat} {port : MacsecPort}

/-! ## Clean and dirty failures -/

/-- The call, when it fails, leaves the tables as they were. -/
def Atomic (x : Call H Unit) (s : Dev MacsecConf H) : Prop := ∀ rc s', x s = .error rc s' → s'.conf = s.conf

/-- The call returns, or fails with the tables as they were. -/
def Clean (bus : PortBus H) (h₀ : H) (c : MacsecConf) (x : Call H Unit) : Prop :=
  Ends (At bus h₀ c) x (fun _ _ => True) fun s => s.conf = c

/-- The call fails with other tables. -/
def Dirty (bus : PortBus H) (h₀ : H) (c : MacsecConf) (x : Call H Unit) : Prop :=
  Ends (At bus h₀ c) x (fun _ _ => False) fun s => s.conf ≠ c

theorem Clean.atomic {x : Call H Unit} {s : Dev MacsecConf H} (hx : Clean bus s.hw s.conf x) : Atomic x s := by
  intro rc s' h
  rcases hx s (at_self s) with ⟨a, t, hok, -⟩ | ⟨e, t, herr, hconf⟩
  · rw [h] at hok
    cases hok
  · rw [h] at herr
    cases herr
    exact hconf

theorem Dirty.not_atomic {x : Call H Unit} {s : Dev MacsecConf H} (hx : Dirty bus s.hw s.conf x) : ¬Atomic x s := by
  intro ha
  rcases hx s (at_self s) with ⟨a, t, -, hfalse⟩ | ⟨e, t, herr, hconf⟩
  · exact hfalse
  · exact hconf (ha e t herr)

theorem Clean.of_getConf {f : MacsecConf → Call H Unit} (hf : Clean bus h₀ c (f c)) : Clean bus h₀ c (getConf >>= f) :=
  ends_getConf_bind (fun _ h => h.conf) hf

theorem Dirty.of_getConf {f : MacsecConf → Call H Unit} (hf : Dirty bus h₀ c (f c)) : Dirty bus h₀ c (getConf >>= f) :=
  ends_getConf_bind (fun _ h => h.conf) hf

/-- A check before anything is stored. -/
theorem Clean.failIf {b : Prop} [Decidable b] {e : Rc} {f : Unit → Call H Unit} (hf : ¬b → Clean bus h₀ c (f ())) :
    Clean bus h₀ c (failIf b e >>= f) :=
  Ends.failIf_bind (fun _ h _ => h.conf) hf

theorem Dirty.failIf {b : Prop} [Decidable b] {e : Rc} {f : Unit → Call H Unit} (hb : ¬b) (hf : Dirty bus h₀ c (f ())) :
    Dirty bus h₀ c (failIf b e >>= f) :=
  Ends.failIf_bind (fun _ _ h => absurd h hb) fun _ => hf

/-- After storing, the rest has to pass its checks. -/
theorem Clean.of_serves {g : MacsecConf → MacsecConf} {f : PUnit → Call H Unit} (hf : Serves bus h₀ (g c) (f ⟨⟩)) :
    Clean bus h₀ c (modifyConf g >>= f) := by
  refine ends_modifyConf_at.bind fun _ => ?_
  exact hf.weaken (fun _ _ _ => trivial) fun _ => False.elim

theorem Dirty.of_refuses {g : MacsecConf → MacsecConf} {f : PUnit → Call H Unit} (hg : g c ≠ c)
    (hf : Refuses bus h₀ (g c) (f ⟨⟩)) : Dirty bus h₀ c (modifyConf g >>= f) := by
  refine ends_modifyConf_at.bind fun _ => ?_
  exact hf.weaken (fun _ _ => id) fun s hs => hs.conf ▸ hg

/-! ## The SecY of a port -/

/-- `lan80xx_macsec_port_check` finds SecY `i` for the port. -/
def Found (c : MacsecConf) (port : MacsecPort) (i : Nat) : Prop :=
  c.glb.initEnable = true ∧ portFind c port = some i

theorem Found.unique {j : Nat} (h : Found c port i) (h' : Found c port j) : j = i :=
  Option.some.inj (h'.2.symm.trans h.2)

/-- The call looks up the SecY of the port. -/
def Finds (bus : PortBus H) (h₀ : H) (c : MacsecConf) (port : MacsecPort) (x : Call H Nat) : Prop :=
  Ends (At bus h₀ c) x (fun i s => At bus h₀ c s ∧ Found c port i) fun s => At bus h₀ c s ∧ ∀ i, ¬Found c port i

theorem finds_portCheck : Finds bus h₀ c port (portCheck port) := by
  refine ends_getConf_bind (fun _ h => h.conf) (Ends.failIf_bind (fun s h hinit => ⟨h, fun i hf => ?_⟩) fun hinit => ?_)
  · rw [hf.1] at hinit
    cases hinit
  · cases hp : portFind c port with
    | none =>
      refine Ends.throw fun s h => ⟨h, fun i hf => ?_⟩
      have := hf.2
      rw [hp] at this
      cases this
    | some i => exact Ends.pure fun s h => ⟨h, Bool.eq_true_of_not_eq_false hinit, hp⟩

theorem Clean.of_port {x : Call H Nat} {f : Nat → Call H Unit} (hx : Finds bus h₀ c port x)
    (hf : ∀ i, Found c port i → Clean bus h₀ c (f i)) : Clean bus h₀ c (x >>= f) :=
  (hx.weaken (fun _ _ => id) fun _ h => h.1.conf).bind fun i s hs => hf i hs.2 s hs.1

theorem Dirty.of_port {x : Call H Nat} {f : Nat → Call H Unit} (hx : Finds bus h₀ c port x) (hi : Found c port i)
    (hf : Dirty bus h₀ c (f i)) : Dirty bus h₀ c (x >>= f) := by
  refine Ends.bind (hx.weaken (fun _ _ => id) fun _ h => absurd hi (h.2 i)) fun j s hs => ?_
  obtain rfl := hi.unique hs.2
  exact hf s hs.1

/-! ## Calls without deletions -/

/-- Taking a free record changes the tables. -/
theorem ne_of_saInUse {d : Direction} (hr : c.recordEmptyGet d = some r) (hu : c'.saInUse d r = true) : c' ≠ c := by
  rintro rfl
  rw [(recordEmptyGet_spec hr).1] at hu
  cases hu

/-- `tx_sc_update` for a SecY without a transmit channel. -/
structure TxScUpdateLate (c : MacsecConf) (port : MacsecPort) (conf : TxScConf) (i : Nat) : Prop where
  offset : conf.confidentialityOffset ≤ 128
  found : Found c port i
  noTxSc : (c.secy i).txSc.inUse = false
  changed : updateTxScConf i c conf ≠ c

theorem clean_txScUpdate {conf : TxScConf} (h : ∀ i, ¬TxScUpdateLate c port conf i) :
    Clean bus h₀ c ((Op.txScUpdate conf).call bus port) := by
  refine Clean.failIf fun hoff => Clean.of_port finds_portCheck fun i hi => Clean.of_getConf ?_
  by_cases hu : (c.secy i).txSc.inUse = false
  · have hsame : updateTxScConf i c conf = c := not_not.mp fun hne => h i ⟨Nat.not_lt.mp hoff, hi, hu, hne⟩
    refine ends_modifyConf_at.bind fun _ => ?_
    rw [hsame]
    exact (refuses_check hu).weaken (fun _ _ => False.elim) fun _ hs => hs.conf
  · exact Clean.of_serves (serves_check hu)

theorem dirty_txScUpdate {conf : TxScConf} (h : TxScUpdateLate c port conf i) :
    Dirty bus h₀ c ((Op.txScUpdate conf).call bus port) := by
  refine Dirty.failIf (Nat.not_lt.mpr h.offset) (Dirty.of_port finds_portCheck h.found (Dirty.of_getConf ?_))
  exact Dirty.of_refuses h.changed (refuses_check h.noTxSc)

/-- `pattern_set` of a rule that the match table refuses. -/
structure PatternSetLate (c : MacsecConf) (port : MacsecPort) (d : Direction) (a : MatchAction) (pattern : MatchPattern)
    (i : Nat) : Prop where
  rev : ¬((c.glb.rev = .a0 ∨ c.glb.rev = .a1) ∧ a = .drop)
  smac : pattern.match &&& matchSmac = 0
  found : Found c port i
  action : a.hasRecord = true
  unset : (c.secy i).patternRecord a d = notInUse
  record : (c.recordEmptyGet d).isSome = true
  priority : pattern.priority ≤ matchPriorityLowest
  refused : ¬MatchAccepted c.glb d pattern

theorem linkPattern_glb {a : MatchAction} {d : Direction} : (linkPattern i c a d r).glb = c.glb := by
  cases d <;> rfl

theorem linkPattern_saInUse {a : MatchAction} {d : Direction} : (linkPattern i c a d r).saInUse d r = true := by
  cases d with
  | egress => simp [MacsecConf.saInUse, linkPattern_txSa]
  | ingress => simp [MacsecConf.saInUse, linkPattern_rxSa]

theorem clean_patternSet (hs : bus.Sound h₀) {d : Direction} {a : MatchAction} {pattern : MatchPattern}
    (h : ∀ i, ¬PatternSetLate c port d a pattern i) : Clean bus h₀ c ((Op.patternSet d a pattern).call bus port) := by
  refine Clean.of_getConf (Clean.failIf fun hrev => Clean.failIf fun hsmac => ?_)
  refine Clean.of_port (Ends.orFail finds_portCheck) fun i hi => ?_
  have hset (hrec : a.hasRecord = true) : Clean bus h₀ c (patternSet bus i d a pattern) := by
    refine Clean.of_getConf (Clean.failIf fun hunset => ?_)
    cases hr : c.recordEmptyGet d with
    | none => exact Ends.throw fun _ hs => hs.conf
    | some record =>
      refine Clean.failIf fun hprio => Clean.of_serves ?_
      have hacc : MatchAccepted (linkPattern i c a d record).glb d pattern := by
        rw [linkPattern_glb]
        exact Classical.byContradiction fun hn => h i ⟨hrev, not_not.mp hsmac, hi, hrec, not_not.mp hunset, by rw [hr]; rfl,
          Nat.not_lt.mp hprio, hn⟩
      refine (serves_saTcamKeyMaskSet hs hacc).orFail.bind ?_
      exact (serves_saTcamPolicyUnctrlDrop hs a).orFail.bind (serves_saEnable hs true).orFail
  refine Ends.bind (Q := fun _ _ => True) (Ends.when (fun hrec => (hset hrec).orFail) fun _ _ _ => trivial) fun _ => ?_
  exact Ends.modify fun _ _ => trivial

theorem dirty_patternSet (hs : bus.Sound h₀) {d : Direction} {a : MatchAction} {pattern : MatchPattern}
    (h : PatternSetLate c port d a pattern i) : Dirty bus h₀ c ((Op.patternSet d a pattern).call bus port) := by
  refine Dirty.of_getConf (Dirty.failIf h.rev (Dirty.failIf (not_not.mpr h.smac) ?_))
  refine Dirty.of_port (Ends.orFail finds_portCheck) h.found ?_
  obtain ⟨record, hr⟩ := Option.isSome_iff_exists.mp h.record
  have hset : Dirty bus h₀ c (patternSet bus i d a pattern) := by
    refine Dirty.of_getConf (Dirty.failIf (not_not.mpr h.unset) ?_)
    rw [hr]
    refine Dirty.failIf (Nat.not_lt.mpr h.priority) (Dirty.of_refuses (ne_of_saInUse hr linkPattern_saInUse) ?_)
    exact ((refuses_saTcamKeyMaskSet hs (by rw [linkPattern_glb]; exact h.refused)).orFail).bind
  rw [when, if_pos h.action]
  exact Ends.bind (Ends.orFail hset) fun _ _ h => h.elim

/-- `tx_sa_set` while the pattern of the controlled port is one that the match table refuses. -/
structure TxSaSetLate (c : MacsecConf) (port : MacsecPort) (an : Nat) (nextPn : PktNum) (sak : Sak) (ssci : Option Ssci)
    (i : Nat) : Prop where
  found : Found c port i
  anValid : an < saPerScMax
  txSc : (c.secy i).txSc.inUse = true
  nonzero : ¬nextPn.pn < 1
  ssciValid : ¬((c.secy i).conf.currentCipherSuite.xpn = true ∧ isSsciValid c .egress (c.secy i).sci ssci sak = false)
  unset : (c.secy i).txSc.sa an = none
  record : (c.recordEmptyGet .egress).isSome = true
  refused : ¬MatchAccepted c.glb .egress ((c.secy i).pattern .controlledPort .egress)

section TxSaSet

variable {nextPn : PktNum} {confidentiality : Bool} {sak : Sak} {ssci : Option Ssci}

theorem clean_txSaSet (hs : bus.Sound h₀) (h : ∀ i, ¬TxSaSetLate c port an nextPn sak ssci i) :
    Clean bus h₀ c ((Op.txSaSet an nextPn confidentiality sak ssci).call bus port) := by
  refine Clean.of_port finds_portCheck fun i hi => Clean.of_getConf (Clean.failIf fun han => ?_)
  refine Clean.failIf fun hu => Clean.failIf fun hpn => Clean.failIf fun hssci => Clean.failIf fun hsa => ?_
  cases hr : c.recordEmptyGet .egress with
  | none => exact Ends.throw fun _ hs => hs.conf
  | some record =>
    refine Clean.of_serves ((serves_saXformSet hs).orFail.bind ((serves_saFlowSet_egress hs _).orFail.bind ?_))
    have hacc : MatchAccepted (linkTxSa i c an record nextPn confidentiality sak ssci).glb .egress
        ((c.secy i).pattern .controlledPort .egress) := by
      refine Classical.byContradiction fun hn => h i ⟨hi, Nat.not_le.mp han, ?_, hpn, hssci, by simpa using hsa, ?_, hn⟩
      · exact Bool.eq_true_of_not_eq_false hu
      · rw [hr]
        rfl
    exact (serves_saTcamKeyMaskSet hs hacc).orFail

theorem dirty_txSaSet (hs : bus.Sound h₀) (h : TxSaSetLate c port an nextPn sak ssci i) :
    Dirty bus h₀ c ((Op.txSaSet an nextPn confidentiality sak ssci).call bus port) := by
  obtain ⟨record, hr⟩ := Option.isSome_iff_exists.mp h.record
  have hu : ((linkTxSa i c an record nextPn confidentiality sak ssci).txSa record).inUse = true := by
    simp [linkTxSa, setTxSa_txSa]
  refine Dirty.of_port finds_portCheck h.found (Dirty.of_getConf (Dirty.failIf (Nat.not_le.mpr h.anValid) ?_))
  refine Dirty.failIf (by simp [h.txSc]) (Dirty.failIf h.nonzero (Dirty.failIf h.ssciValid ?_))
  refine Dirty.failIf (by simp [h.unset]) ?_
  rw [hr]
  refine Dirty.of_refuses (ne_of_saInUse hr hu) ?_
  refine (serves_saXformSet hs).orFail.refuses_bind ((serves_saFlowSet_egress hs _).orFail.refuses_bind ?_)
  have href : ¬MatchAccepted (linkTxSa i c an record nextPn confidentiality sak ssci).glb .egress
      ((c.secy i).pattern .controlledPort .egress) := h.refused
  exact (refuses_saTcamKeyMaskSet hs href).orFail

end TxSaSet

/-- `rx_sa_set` while the pattern of the controlled port is one that the match table refuses, or the channel has a
validation mode that there is not. -/
structure RxSaSetLate (c : MacsecConf) (port : MacsecPort) (sci : Sci) (an : Nat) (sak : Sak) (ssci : Option Ssci)
    (i sc : Nat) : Prop where
  found : Found c port i
  channel : c.scFromSciGet i sci = some sc
  sciValid : isSciValid sci = true
  ssciValid : ¬((c.secy i).conf.currentCipherSuite.xpn = true ∧ isSsciValid c .ingress sci ssci sak = false)
  anValid : an < saPerScMax
  unset : (c.rxScAt i sc).sa an = none
  record : (c.recordEmptyGet .ingress).isSome = true
  refused : MatchAccepted c.glb .ingress ((c.secy i).pattern .controlledPort .ingress) →
    ¬ValidateFramesValid (c.rxScAt i sc).conf.validateFrames

section RxSaSet

variable {sci : Sci} {lowestPn : PktNum} {sak : Sak} {ssci : Option Ssci}

theorem linkRxSa_glb : (linkRxSa i c sc an r lowestPn sak ssci).glb = c.glb := by
  rw [linkRxSa, setRxSa_glb, setRxScAt]
  split <;> rfl

theorem linkRxSa_rxScAt_conf (hsc : c.scFromSciGet i sci = some sc) :
    ((linkRxSa i c sc an r lowestPn sak ssci).rxScAt i sc).conf = (c.rxScAt i sc).conf := by
  obtain ⟨p, hp, -, -⟩ := scFromSciGet_spec hsc
  have hp' : ((linkRxSa i c sc an r lowestPn sak ssci).secy i).rxSc sc = some p := by rw [linkRxSa_secy, hp]
  rw [rxScAt_eq hp', rxScAt_eq hp]
  exact linkRxSa_rxSc_part hp RxSc.conf (fun _ _ => rfl) p

theorem ends_scFromSci {α : Type} {f : Nat → Call H α} {Q : α → Dev MacsecConf H → Prop} {E : Dev MacsecConf H → Prop}
    (hsc : c.scFromSciGet i sci = some sc) (hf : Ends (At bus h₀ c) (f sc) Q E) :
    Ends (At bus h₀ c) (scFromSci i sci >>= f) Q E := by
  have hfound : Ends (At bus h₀ c) (scFromSci i sci) (fun sc' s => At bus h₀ c s ∧ sc' = sc) E := by
    refine ends_getConf_bind (fun _ h => h.conf) ?_
    rw [hsc]
    exact Ends.pure fun _ hs => ⟨hs, rfl⟩
  exact hfound.bind fun sc' s hs => hs.2 ▸ hf s hs.1

theorem clean_scFromSci {f : Nat → Call H Unit} (hf : ∀ sc, c.scFromSciGet i sci = some sc → Clean bus h₀ c (f sc)) :
    Clean bus h₀ c (scFromSci i sci >>= f) := by
  have hfound : Ends (At bus h₀ c) (scFromSci i sci) (fun sc s => At bus h₀ c s ∧ c.scFromSciGet i sci = some sc)
      fun s => s.conf = c := by
    refine ends_getConf_bind (fun _ h => h.conf) ?_
    cases hsc : c.scFromSciGet i sci with
    | none => exact Ends.throw fun _ hs => hs.conf
    | some sc => exact Ends.pure fun _ hs => ⟨hs, rfl⟩
  exact hfound.bind fun sc s hs => hf sc hs.2 s hs.1

theorem clean_rxSaSet (hs : bus.Sound h₀) (h : ∀ i sc, ¬RxSaSetLate c port sci an sak ssci i sc) :
    Clean bus h₀ c ((Op.rxSaSet sci an lowestPn sak ssci).call bus port) := by
  refine Clean.of_port finds_portCheck fun i hi => clean_scFromSci fun sc hsc => Clean.of_getConf ?_
  refine Clean.failIf fun hsci => Clean.failIf fun hssci => Clean.failIf fun han => Clean.failIf fun hsa => ?_
  cases hr : c.recordEmptyGet .ingress with
  | none => exact Ends.throw fun _ hs => hs.conf
  | some record =>
    obtain ⟨hacc, hvalid⟩ : MatchAccepted c.glb .ingress ((c.secy i).pattern .controlledPort .ingress) ∧
        ValidateFramesValid (c.rxScAt i sc).conf.validateFrames := by
      refine Classical.byContradiction fun hn => h i sc ⟨hi, hsc, Bool.eq_true_of_not_eq_false hsci, hssci,
        Nat.not_le.mp han, by simpa using hsa, by rw [hr]; rfl, fun hacc hvalid => hn ⟨hacc, hvalid⟩⟩
    refine Clean.of_serves ((serves_saXformSet hs).orFail.bind ?_)
    refine (serves_saTcamKeyMaskSet hs (by rw [linkRxSa_glb]; exact hacc)).orFail.bind ?_
    refine (serves_saFlowSet_ingress hs _ (by rw [linkRxSa_rxScAt_conf hsc]; exact hvalid)).orFail.bind ?_
    exact (serves_rxScCamSet hs).orFail

theorem dirty_rxSaSet (hs : bus.Sound h₀) (h : RxSaSetLate c port sci an sak ssci i sc) :
    Dirty bus h₀ c ((Op.rxSaSet sci an lowestPn sak ssci).call bus port) := by
  obtain ⟨record, hr⟩ := Option.isSome_iff_exists.mp h.record
  have hu : ((linkRxSa i c sc an record lowestPn sak ssci).rxSa record).inUse = true := linkRxSa_self.1
  refine Dirty.of_port finds_portCheck h.found (ends_scFromSci h.channel (Dirty.of_getConf ?_))
  refine Dirty.failIf (by simp [h.sciValid]) (Dirty.failIf h.ssciValid (Dirty.failIf (Nat.not_le.mpr h.anValid) ?_))
  refine Dirty.failIf (by simp [h.unset]) ?_
  rw [hr]
  refine Dirty.of_refuses (ne_of_saInUse hr hu) ((serves_saXformSet hs).orFail.refuses_bind ?_)
  by_cases hacc : MatchAccepted c.glb .ingress ((c.secy i).pattern .controlledPort .ingress)
  · refine (serves_saTcamKeyMaskSet hs (by rw [linkRxSa_glb]; exact hacc)).orFail.refuses_bind ?_
    exact ((refuses_saFlowSet_ingress _ (by rw [linkRxSa_rxScAt_conf h.channel]; exact h.refused hacc)).orFail).bind
  · exact ((refuses_saTcamKeyMaskSet hs (by rw [linkRxSa_glb]; exact hacc)).orFail).bind

end RxSaSet

/-- The tables with the frame size limit `conf`. -/
def withMtuConf (c : MacsecConf) (conf : MtuConf) : MacsecConf := { c with glb := { c.glb with mtuConf := conf } }

/-- `mtu_set` with a limit out of range. -/
structure MtuSetLate (c : MacsecConf) (conf : MtuConf) : Prop where
  tooLarge : mtuMax < conf.mtu.toNat
  changed : withMtuConf c conf ≠ c

theorem serves_oppeMtuSet (hs : bus.Sound h₀) (mtuValue : BitVec 32) (drop : Bool) :
    Serves bus h₀ c (oppeMtuSet bus mtuValue drop) :=
  Serves.forUpTo _ fun _ _ => serves_csrWrm hs _ _ _

theorem clean_mtuSet (hs : bus.Sound h₀) {conf : MtuConf} (h : ¬MtuSetLate c conf) :
    Clean bus h₀ c (mtuSetPriv bus conf) := by
  by_cases hmax : mtuMax < conf.mtu.toNat
  · have hsame : withMtuConf c conf = c := not_not.mp fun hne => h ⟨hmax, hne⟩
    have href : Refuses bus h₀ (withMtuConf c conf) (mtuSet bus) :=
      ends_getConf_bind (fun _ h => h.conf) (refuses_failIf hmax)
    refine (ends_modifyConf_at (g := fun c => withMtuConf c conf)).bind fun _ => ?_
    exact href.weaken (fun _ _ => False.elim) fun s hs => hs.conf.trans hsame
  · refine Clean.of_serves (g := fun c => withMtuConf c conf) (ends_getConf_bind (fun _ h => h.conf) ?_)
    exact Ends.failIf_bind (fun _ _ hn => hmax hn) fun _ => (serves_oppeMtuSet hs _ _).bind (serves_oppeMtuSet hs _ _)

theorem dirty_mtuSet {conf : MtuConf} (h : MtuSetLate c conf) : Dirty bus h₀ c (mtuSetPriv bus conf) := by
  refine Dirty.of_refuses (g := fun c => withMtuConf c conf) h.changed ?_
  exact ends_getConf_bind (fun _ h => h.conf) (refuses_failIf h.tooLarge)

/-- The default actions are always accepted. -/
theorem clean_defaultActionSet (hs : bus.Sound h₀) (policy : DefaultActionPolicy) :
    Clean bus h₀ c (defaultActionSetPriv bus policy) := by
  have hset (d : Direction) (control : Bool) (k : Nat) (drop : Bool) (mask : BitVec 32) :
      Serves bus h₀ c (samNmFlowSet bus d control k drop mask) := serves_csrWrm hs _ _ _
  have hall : Serves bus h₀ c (defaultActionSet bus policy) := by
    unfold defaultActionSet
    iterate 15 refine (hset _ _ _ _ _).bind ?_
    exact hset _ _ _ _ _
  refine Clean.of_getConf (Clean.failIf fun _ => ?_)
  exact hall.afterwards (fun _ _ _ => trivial) fun _ => False.elim

/-! ## Updates of a SecY -/

/-- All records and channels. -/
def wholeScope : Scope := { kinds := Set.univ, mapZero := Set.univ, recs := fun _ => maxSa, hws := maxRxSc }

theorem Inv.fits_wholeScope (h : Inv c) : Fits wholeScope c where
  recs {d r} hu := by
    cases d with
    | egress => exact h.tx_lt hu
    | ingress => exact h.rx_lt hu
  hws hu := h.hw_lt hu

/-- A call that returns with the tables `c'`. -/
def Turns (bus : PortBus H) (h₀ : H) (c : MacsecConf) (x : Call H Unit) (c' : MacsecConf) : Prop :=
  Ends (At bus h₀ c) x (fun _ => At bus h₀ c') fun _ => False

theorem turns_txSaDisable (hs : bus.Sound h₀) (han : an < saPerScMax) (hsa : (c.secy i).txSc.sa an ≠ none) :
    Turns bus h₀ c (txSaDisable bus i an) (disableTxSa i c an) := by
  refine ends_getConf_bind (fun _ h => h.conf) (Ends.failIf_bind (fun _ _ hn => absurd han (Nat.not_lt.mpr hn)) fun _ => ?_)
  refine Ends.failIf_bind (fun _ _ hn => hsa hn) fun _ => (serves_saEnable hs false).orFail.bind ?_
  refine (Serves.when fun _ => ?_).bind ends_modifyConf_at
  exact (serves_saInuse hs false han).orFail.bind (serves_samEntryCtrl hs false).orFail

theorem turns_txSaDel (hs : bus.Sound h₀) (han : an < saPerScMax) (hsa : (c.secy i).txSc.sa an ≠ none) :
    Turns bus h₀ c (txSaDel bus i an) (freeTxSa i c an (c.txSaAt i an).record) := by
  refine ends_getConf_bind (fun _ h => h.conf) (Ends.failIf_bind (fun _ _ hn => absurd han (Nat.not_lt.mpr hn)) fun _ => ?_)
  refine Ends.failIf_bind (fun _ _ hn => hsa hn) fun _ => (serves_saEnable hs false).orFail.bind ?_
  refine (serves_ignore (W := Set.univ) within_saSamInFlight).bind ?_
  refine (serves_ignore (W := Set.univ) within_txSaCountersGet).bind (ends_modifyConf_at.bind fun _ => ?_)
  exact (serves_saTcamKeyMaskReset hs).orFail.bind (serves_saXformReset hs).orFail

theorem turns_rxSaDisable (hs : bus.Sound h₀) {sci : Sci} (han : an < saPerScMax) (hsc : c.scFromSciGet i sci = some sc)
    (hsa : (c.rxScAt i sc).sa an ≠ none) : Turns bus h₀ c (rxSaDisable bus i sci an) (flagRxSa i c sc an false) := by
  refine Ends.failIf_bind (fun _ _ hn => absurd han (Nat.not_lt.mpr hn)) fun _ => ends_scFromSci hsc ?_
  refine ends_getConf_bind (fun _ h => h.conf) (Ends.failIf_bind (fun _ _ hn => hsa hn) fun _ => ?_)
  refine (serves_saEnable hs false).orFail.bind ((serves_saInuse hs false han).orFail.bind ?_)
  exact ends_modifyConf_at

theorem turns_rxSaDel (hw : Willing bus h₀) {sci : Sci} (han : an < saPerScMax) (hsc : c.scFromSciGet i sci = some sc)
    (hsa : (c.rxScAt i sc).sa an ≠ none) :
    Turns bus h₀ c (rxSaDel bus i sci an) (freeRxSa i c sc an (c.rxSaAt i sc an).record) := by
  refine Ends.failIf_bind (fun _ _ hn => absurd han (Nat.not_lt.mpr hn)) fun _ => ends_scFromSci hsc ?_
  refine ends_getConf_bind (fun _ h => h.conf) (Ends.failIf_bind (fun _ _ hn => hsa hn) fun _ => ?_)
  refine (serves_saInuse hw.sound false han).orFail.bind ((serves_saSamInFlight hw).orFail.bind ?_)
  refine (serves_saEnable hw.sound false).orFail.bind ?_
  refine (serves_ignore (W := Set.univ) within_rxSaCountersGet).bind (ends_modifyConf_at.bind fun _ => ?_)
  exact (serves_saTcamKeyMaskReset hw.sound).orFail.bind (serves_saXformReset hw.sound).orFail

theorem Turns.bind {x : Call H Unit} {α : Type} {f : Unit → Call H α} {Q : α → Dev MacsecConf H → Prop}
    {E : Dev MacsecConf H → Prop} (hx : Turns bus h₀ c x c') (hf : Ends (At bus h₀ c') (f ()) Q E) :
    Ends (At bus h₀ c) (x >>= f) Q E :=
  (hx.weaken (fun _ _ => id) fun _ => False.elim).bind fun _ => hf

theorem Turns.orFail {x : Call H Unit} {e : Rc} (hx : Turns bus h₀ c x c') : Turns bus h₀ c (orFail x e) c' :=
  Ends.orFail hx

/-- The tables meet `I`, and the device has been accessed since `h₀`. -/
def AtSome (bus : PortBus H) (h₀ : H) (I : MacsecConf → Prop) (s : Dev MacsecConf H) : Prop :=
  ∃ c, At bus h₀ c s ∧ I c

theorem ends_atSome {I : MacsecConf → Prop} {α : Type} {x : Call H α} {Q : α → Dev MacsecConf H → Prop}
    {E : Dev MacsecConf H → Prop} (hx : ∀ c, I c → Ends (At bus h₀ c) x Q E) : Ends (AtSome bus h₀ I) x Q E := by
  rintro s ⟨c, hat, hI⟩
  exact hx c hI s hat

/-- Deleting the transmit SAs does not fail. -/
theorem ends_txSasDel (hs : bus.Sound h₀) (h : Inv c) : Ends (At bus h₀ c) (txSasDel bus i)
    (fun _ => AtSome bus h₀ (TxSasDeleted wholeScope i c saPerScMax)) fun _ => False := by
  refine (Ends.forUpTo (I := fun k : Nat => AtSome bus h₀ (TxSasDeleted wholeScope i c k)) saPerScMax fun k hk => ?_).pre fun s hat => ?_
  · refine ends_atSome fun c₁ hd => ends_getConf_bind (fun _ h => h.conf) ?_
    refine Ends.when (fun hsome => ?_) fun hnone s' hat' => ?_
    · obtain ⟨r, hr⟩ := Option.isSome_iff_exists.mp hsome
      have hr₁ : ((disableTxSa i c₁ k).secy i).txSc.sa k = some r := by rw [disableTxSa_sa, hr]
      refine (turns_txSaDisable hs hk (by simp [hr])).orFail.bind ?_
      refine (turns_txSaDel hs hk (by simp [hr₁])).orFail.weaken (fun _ s' hat' => ?_) fun _ => id
      exact ⟨_, hat', hd.step hr⟩
    · exact ⟨c₁, hat', hd.skip (by simpa using hnone)⟩
  · exact ⟨c, hat, h, h.fits_wholeScope, .refl, fun an han => by omega⟩

theorem serves_txSasDel (hnone : ∀ an, (c.secy i).txSc.sa an = none) : Serves bus h₀ c (txSasDel bus i) := by
  refine Serves.forUpTo _ fun an _ => ends_getConf_bind (fun _ h => h.conf) (Serves.when fun hsome => ?_)
  rw [hnone] at hsome
  cases hsome

/-- Deleting the SAs of a receive channel does not fail. -/
theorem ends_rxSasDel (hw : Willing bus h₀) {p : Nat} (hp : (c.secy i).rxSc sc = some p)
    (h : RxSasDeleted wholeScope i sc p c 0 c) : Ends (At bus h₀ c) (rxSasDel bus i sc (c.rxSc p).sci)
      (fun _ => AtSome bus h₀ (RxSasDeleted wholeScope i sc p c saPerScMax)) fun _ => False := by
  refine (Ends.forUpTo (I := fun k : Nat => AtSome bus h₀ (RxSasDeleted wholeScope i sc p c k)) saPerScMax
    fun k hk => ends_atSome fun c₁ hd => ?_).pre fun s hat => ⟨c, hat, h⟩
  have hp₁ : (c₁.secy i).rxSc sc = some p := by rw [hd.secy, hp]
  refine ends_getConf_bind (fun _ h => h.conf) (Ends.when (fun hsome => ?_) fun hnone s' hat' => ?_)
  · rw [rxScAt_eq hp₁] at hsome
    obtain ⟨r, hr⟩ := Option.isSome_iff_exists.mp hsome
    refine Ends.bind (Q := fun _ : Unit => AtSome bus h₀ fun c₂ =>
      RxSasDeleted wholeScope i sc p c k c₂ ∧ (c₂.rxSc p).sa k = some r) ?_ fun _ => ?_
    · refine Ends.when (fun _ => ?_) fun _ s' hat' => ⟨c₁, hat', hd, hr⟩
      have hsc : c₁.scFromSciGet i (c.rxSc p).sci = some sc := hd.inv.scFromSciGet_eq hp₁ hd.sci
      refine (turns_rxSaDisable hw.sound hk hsc (by simp [rxScAt_eq hp₁, hr])).orFail.weaken (fun _ s' hat' => ?_)
        fun _ => id
      exact ⟨_, hat', hd.disable false, by rw [flagRxSa_rxSc, hr]⟩
    · refine ends_atSome fun c₂ h₂ => ?_
      obtain ⟨hd₂, hr₂⟩ := h₂
      have hp₂ : (c₂.secy i).rxSc sc = some p := by rw [hd₂.secy, hp]
      have hsc : c₂.scFromSciGet i (c.rxSc p).sci = some sc := hd₂.inv.scFromSciGet_eq hp₂ hd₂.sci
      refine (turns_rxSaDel hw hk hsc (by simp [rxScAt_eq hp₂, hr₂])).orFail.weaken (fun _ s' hat' => ?_)
        fun _ => id
      exact ⟨_, hat', hd₂.step hp hr₂⟩
  · exact ⟨c₁, hat', hd.skip (by simpa [rxScAt_eq hp₁] using hnone)⟩

/-- The SecY has a receive channel but no valid SCI of its own. -/
structure Stranded (c : MacsecConf) (i : Nat) : Prop where
  sciInvalid : isSciValid (c.secy i).sci = false
  channel : ∃ sc, (c.secy i).rxSc sc ≠ none

theorem ends_secyRxUpdate (hw : Willing bus h₀) (h : Held wholeScope i c) (hn : ¬Stranded c i) (conf : SecyConf) :
    Ends (At bus h₀ c) (secyRxUpdate bus i conf) (fun _ _ => True) fun _ => False := by
  let I : MacsecConf → Prop := fun c₁ => Held wholeScope i c₁ ∧ c₁.secy = c.secy
  refine Ends.bind (Q := fun _ : Unit => AtSome bus h₀ I) ?_ fun _ => ?_
  · refine (Ends.forUpTo (I := fun _ : Nat => AtSome bus h₀ I) maxRxSc fun k _ => ?_).pre fun s hat => ⟨c, hat, h, rfl⟩
    refine ends_atSome fun c₁ hI => ends_getConf_bind (fun _ h => h.conf) ?_
    obtain ⟨h₁, hsecy⟩ := hI
    refine Ends.when (fun hcond => ?_) fun _ s' hat' => ?_
    · obtain ⟨p, hp⟩ := Option.isSome_iff_exists.mp hcond.1
      refine ends_modifyConf_at.bind fun _ => ?_
      rw [rxScAt_eq hp, ← updateRxScConf_sci ⟨conf.validateFrames, conf.replayProtect, conf.replayWindow,
        conf.confidentialityOffset⟩ hp]
      refine (ends_rxSasDel hw (by rw [updateRxScConf_secy, hp]) (h₁.update hp)).weaken (fun _ s' hs' => ?_) fun _ => id
      obtain ⟨c₂, hat₂, hd⟩ := hs'
      exact ⟨c₂, hat₂, hd.held h₁, by rw [hd.secy, updateRxScConf_secy, hsecy]⟩
    · exact ⟨c₁, hat', h₁, hsecy⟩
  · refine ends_atSome fun c₁ hI => ends_getConf_bind (fun _ h => h.conf) ?_
    refine (serves_check fun hbad => ?_).weaken (fun _ _ _ => trivial) fun _ => id
    obtain ⟨-, hsecy⟩ := hI
    obtain ⟨⟨sc, -, hsome, -⟩, hsci⟩ := hbad
    rw [hsecy] at hsome hsci
    exact hn ⟨hsci, sc, by simpa [Option.isSome_iff_ne_none] using hsome⟩

/-- Without a valid SCI the receive channels are skipped, and the call fails. -/
theorem refuses_secyRxUpdate (h : Inv c) (hst : Stranded c i) (conf : SecyConf) :
    Refuses bus h₀ c (secyRxUpdate bus i conf) := by
  have hloop : Serves bus h₀ c (forUpTo maxRxSc (rxScUpdate bus i conf)) := by
    refine Serves.forUpTo _ fun sc _ => ends_getConf_bind (fun _ h => h.conf) (Serves.when fun hcond => ?_)
    rw [hst.sciInvalid] at hcond
    cases hcond.2.2
  refine hloop.refuses_bind (ends_getConf_bind (fun _ h => h.conf) (refuses_check ⟨?_, hst.sciInvalid⟩))
  obtain ⟨sc, hsc⟩ := hst.channel
  obtain ⟨p, hp⟩ := Option.ne_none_iff_exists'.mp hsc
  refine ⟨sc, h.sc_place hp, by rw [hp]; rfl, ?_⟩
  rw [rxScAt_eq hp]
  exact h.sc.live (s := (i, sc)) hp

/-- `secy_conf_update` with an address that is not valid, for a SecY with receive channels. -/
structure SecyConfUpdateLate (c : MacsecConf) (port : MacsecPort) (conf : SecyConf) (i : Nat) : Prop where
  offset : conf.confidentialityOffset ≤ 127
  found : Found c port i
  window : ¬(conf.currentCipherSuite.xpn = true ∧ replayWindowSize < conf.replayWindow)
  stranded : Stranded (updateSecyConf i c conf) i
  changed : updateSecyConf i c conf ≠ c ∨ ∃ an, (c.secy i).txSc.sa an ≠ none

section SecyConfUpdate

variable {conf : SecyConf}

theorem Found.inUse (h : Found c port i) : (c.secy i).inUse = true := hasPort_inUse (portFind_spec h.2).2

theorem Inv.updateSecyConf (h : Inv c) (hi : (c.secy i).inUse = true) : Inv (updateSecyConf i c conf) :=
  Commit.inv (i := i) (k := .other) (.settings _ (updateSecyConf_sameLinks _ _) hi) h

theorem updateSecyConf_eq_self {s : Secy} (hs : s = c.secy i) (hconf : s.conf = conf)
    (hsci : s.sci = { (c.secy i).sci with macAddr := conf.macAddr }) : MacsecConf.updateSecyConf i c conf = c := by
  subst hs
  have hf : ({ c.secy i with conf, sci := { (c.secy i).sci with macAddr := conf.macAddr } } : Secy) = c.secy i := by
    rw [← hsci, ← hconf]
  rw [MacsecConf.updateSecyConf, setSecy, hf, Function.update_eq_self]

/-- Stored settings, or a deleted SA, do not come back. -/
theorem TxSasDeleted.ne (hd : TxSasDeleted wholeScope i (MacsecConf.updateSecyConf i c conf) saPerScMax c')
    (hch : MacsecConf.updateSecyConf i c conf ≠ c ∨ ∃ an, (c.secy i).txSc.sa an ≠ none) : c' ≠ c := by
  rintro rfl
  rcases hch with hch | ⟨an, han⟩
  · obtain ⟨t, ht, -⟩ := hd.only
    refine hch (updateSecyConf_eq_self rfl ?_ ?_)
    · rw [ht, MacsecConf.updateSecyConf, setSecy_secy_self]
    · rw [ht, MacsecConf.updateSecyConf, setSecy_secy_self]
  · exact han (hd.all an)

theorem clean_secyConfUpdate (hw : Willing bus h₀) (h : Inv c) (hn : ∀ i, ¬SecyConfUpdateLate c port conf i) :
    Clean bus h₀ c ((Op.secyConfUpdate conf).call bus port) := by
  refine Clean.failIf fun hoff => Clean.of_port finds_portCheck fun i hi => Clean.failIf fun hwin => ?_
  refine ends_modifyConf_at.bind fun _ => ?_
  have h₁ : Inv (updateSecyConf i c conf) := h.updateSecyConf hi.inUse
  by_cases hst : Stranded (updateSecyConf i c conf) i
  · -- nothing was stored, and there was nothing to delete
    have hch : ¬(updateSecyConf i c conf ≠ c ∨ ∃ an, (c.secy i).txSc.sa an ≠ none) := fun hch =>
      hn i ⟨Nat.not_lt.mp hoff, hi, hwin, hst, hch⟩
    have hsame : updateSecyConf i c conf = c := Classical.byContradiction fun hne => hch (.inl hne)
    have hnone : ∀ an, (c.secy i).txSc.sa an = none := fun an => Classical.byContradiction fun hne => hch (.inr ⟨an, hne⟩)
    rw [hsame] at hst ⊢
    refine (serves_txSasDel hnone).bind ((refuses_secyRxUpdate h hst conf).weaken (fun _ _ => False.elim) fun _ hs => ?_)
    exact hs.conf
  · refine ((ends_txSasDel hw.sound h₁).weaken (fun _ _ => id) fun _ => False.elim).bind fun _ => ?_
    refine ends_atSome fun c₂ hd => ?_
    obtain ⟨t, ht, -⟩ := hd.only
    have hi₂ : (c₂.secy i).inUse = true := by simpa [ht, MacsecConf.updateSecyConf] using hi.inUse
    have hst₂ : ¬Stranded c₂ i := fun hs => hst ⟨by simpa [ht] using hs.sciInvalid, by simpa [ht] using hs.channel⟩
    refine (ends_secyRxUpdate hw ⟨hd.inv, hd.fits, hi₂⟩ hst₂ conf).weaken (fun _ _ => id) fun _ => False.elim

theorem dirty_secyConfUpdate (hs : bus.Sound h₀) (h : Inv c) (hl : SecyConfUpdateLate c port conf i) :
    Dirty bus h₀ c ((Op.secyConfUpdate conf).call bus port) := by
  refine Dirty.failIf (Nat.not_lt.mpr hl.offset) (Dirty.of_port finds_portCheck hl.found (Dirty.failIf hl.window ?_))
  refine ends_modifyConf_at.bind fun _ => ?_
  have h₁ : Inv (updateSecyConf i c conf) := h.updateSecyConf hl.found.inUse
  refine ((ends_txSasDel hs h₁).weaken (fun _ _ => id) fun _ => False.elim).bind fun _ => ends_atSome fun c₂ hd => ?_
  obtain ⟨t, ht, -⟩ := hd.only
  have hst₂ : Stranded c₂ i := ⟨by simpa [ht] using hl.stranded.sciInvalid, by simpa [ht] using hl.stranded.channel⟩
  refine (refuses_secyRxUpdate hd.inv hst₂ conf).weaken (fun _ _ => id) fun s hat => ?_
  rw [hat.conf]
  exact hd.ne hl.changed

end SecyConfUpdate

/-! ## Rejected settings -/

/-- The call is rejected by a check that it makes after it has stored something. -/
def Setter.Late (c : MacsecConf) : Setter → Prop
  | .txScUpdate port conf => ∃ i, TxScUpdateLate c port conf i
  | .secyConfUpdate port conf => ∃ i, SecyConfUpdateLate c port conf i
  | .patternSet port d a pattern => ∃ i, PatternSetLate c port d a pattern i
  | .txSaSet port an nextPn _ sak ssci => ∃ i, TxSaSetLate c port an nextPn sak ssci i
  | .rxSaSet port sci an _ sak ssci => ∃ i sc, RxSaSetLate c port sci an sak ssci i sc
  | .mtuSet conf => MtuSetLate c conf
  | .defaultActionSet _ => False

theorem willing_bench : Willing bench.toBus benchInit.hw where
  sound := storage_sound
  drains d h' ha := by
    refine ⟨0, by decide, h' (samInFlightReg d), rfl, ?_⟩
    rw [ha.storage_status (by cases d <;> decide)]
    cases d <;> rfl

end Lan80xx.Macsec
