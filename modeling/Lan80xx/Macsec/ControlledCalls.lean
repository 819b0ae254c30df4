import Lan80xx.Macsec.Controlled
import Lan80xx.Macsec.ActiveCalls

/-!
# MACsec: runs that keep the controlled port

`SwitchCareful` names the calls that switch an entry against the controlled port, and excludes them: an SA activated while
its controlled port is disabled, the active transmit SA activated once more, a register access that fails in a call that
switches entries. In a run of careful calls the entries of the enabled SAs are on exactly while the controlled port is
enabled.
-/

namespace Lan80xx.Macsec

open Fallible RegBus MacsecConf

variable {H : Type} {bus : PortBus H} {t : MatchTable bus} {h₀ : H} {c : MacsecConf} {i an sc : Nat}

/-! ## Calls that switch nothing -/

theorem settles_txSaSet (h : Inv c) (ho : RxOwned c) (hi : i < maxSecy) {nextPn : PktNum} {confidentiality : Bool}
    {sak : Sak} {ssci : Option Ssci} : Settles t h₀ c ∅ (txSaSet bus i an nextPn confidentiality sak ssci) := by
  refine ends_getConf_bind (fun _ h => h.conf) (Ends.failIf_bind (fun _ hsw _ => hsw.follows) fun han => ?_)
  refine Ends.failIf_bind (fun _ hsw _ => hsw.follows) fun hu => Ends.failIf_bind (fun _ hsw _ => hsw.follows) fun _ => ?_
  refine Ends.failIf_bind (fun _ hsw _ => hsw.follows) fun _ => Ends.failIf_bind (fun _ hsw _ => hsw.follows) fun hsa => ?_
  cases hrec : c.recordEmptyGet .egress with
  | none => exact Ends.throw fun _ hsw => hsw.follows
  | some r =>
    have hlt : r < maxSa := (recordEmptyGet_spec hrec).2
    have hc : Commit i c .other (linkTxSa i c an r nextPn confidentiality sak ssci) :=
      .linkTxSa an r nextPn confidentiality sak ssci (Nat.not_le.mp han) (by simpa using hu) (by simpa using hsa) hrec
    refine (ends_modifyConf_sw (calms_settings hc h ho rfl
      (linkTxSa_part Secy.controlledPortEnabled fun _ _ => rfl) rfl)).bind fun _ => ?_
    generalize linkTxSa i c an r nextPn confidentiality sak ssci = c₁
    have hxform : Within (hwFrame bus (xformBits .egress r)) (saXformSet bus .egress r i an 0) :=
      within_saXformSet subset_rfl
    refine ((ends_within hxform.orFail (xformBits_quiet hlt)).weaken (fun _ _ => id) fun _ hsw => hsw.follows).bind
      fun _ => ?_
    have hflow : Within (hwFrame bus quietBits) (saFlowSet bus .egress i an 0 .controlledPort) :=
      within_saFlowSet modeBits_quiet (flowBits_quiet hi)
    refine ((ends_within hflow.orFail subset_rfl).weaken (fun _ _ => id) fun _ hsw => hsw.follows).bind fun _ => ?_
    have htcam : Steps (hwFrame bus quietBits) (fun s => s.conf = c₁)
        (saTcamKeyMaskSet bus .egress r i i ((c.secy i).pattern .controlledPort .egress)) fun _ _ => True :=
      steps_saTcamKeyMaskSet selectBits_quiet (tcamBits_quiet hlt) (policyBits_quiet hlt)
    exact (ends_quiet (Steps.orFail htcam)).weaken (fun _ _ hsw => hsw.follows) fun _ hsw => hsw.follows

theorem settles_rxSaSet (h : Inv c) (ho : RxOwned c) (hi : i < maxSecy) {sci : Sci} {lowestPn : PktNum} {sak : Sak}
    {ssci : Option Ssci} : Settles t h₀ c ∅ (rxSaSet bus i sci an lowestPn sak ssci) := by
  refine ends_scFromSci_sw fun sc p hp hu => ends_getConf_bind (fun _ h => h.conf) ?_
  refine Ends.failIf_bind (fun _ hsw _ => hsw.follows) fun _ => Ends.failIf_bind (fun _ hsw _ => hsw.follows) fun _ => ?_
  refine Ends.failIf_bind (fun _ hsw _ => hsw.follows) fun han => ?_
  refine Ends.failIf_bind (fun _ hsw _ => hsw.follows) fun hsa => ?_
  cases hrec : c.recordEmptyGet .ingress with
  | none => exact Ends.throw fun _ hsw => hsw.follows
  | some r =>
    have hlt : r < maxSa := (recordEmptyGet_spec hrec).2
    rw [rxScAt_eq hp] at hsa
    have hc : Commit i c .other (linkRxSa i c sc an r lowestPn sak ssci) :=
      .linkRxSa sc p an r lowestPn sak ssci hp (Nat.not_le.mp han) (by simpa using hsa) hrec
    have hcalm : Calms c (linkRxSa i c sc an r lowestPn sak ssci) ∅ ∅ := hc.calms h ho (by simp) (by simp)
      (fun j => by rw [linkRxSa_secy]) fun r' he => by rwa [linkRxSa_enabled] at he
    refine (ends_modifyConf_sw hcalm).bind fun _ => ?_
    have hhw : ((linkRxSa i c sc an r lowestPn sak ssci).rxScAt i sc).hwScIdx < maxRxSc := by
      have hp' : ((linkRxSa i c sc an r lowestPn sak ssci).secy i).rxSc sc = some p := by rw [linkRxSa_secy, hp]
      rw [rxScAt_eq hp']
      exact (hc.inv h).hw_lt ((hc.inv h).sc.live (s := (i, sc)) hp')
    generalize linkRxSa i c sc an r lowestPn sak ssci = c₁ at hhw
    have hxform : Within (hwFrame bus (xformBits .ingress r)) (saXformSet bus .ingress r i an sc) :=
      within_saXformSet subset_rfl
    refine ((ends_within hxform.orFail (xformBits_quiet hlt)).weaken (fun _ _ => id) fun _ hsw => hsw.follows).bind
      fun _ => ?_
    have htcam : Steps (hwFrame bus quietBits) (fun s => s.conf = c₁)
        (saTcamKeyMaskSet bus .ingress r i i ((c.secy i).pattern .controlledPort .ingress)) fun _ _ => True :=
      steps_saTcamKeyMaskSet selectBits_quiet (tcamBits_quiet hlt) (policyBits_quiet hlt)
    refine ((ends_quiet (Steps.orFail htcam)).weaken (fun _ _ => id) fun _ hsw => hsw.follows).bind fun _ => ?_
    have hflow : Within (hwFrame bus quietBits) (saFlowSet bus .ingress i an sc .controlledPort) :=
      within_saFlowSet modeBits_quiet (flowBits_quiet hi)
    refine ((ends_within hflow.orFail subset_rfl).weaken (fun _ _ => id) fun _ hsw => hsw.follows).bind fun _ => ?_
    have hcam : Steps (hwFrame bus quietBits) (fun s => s.conf = c₁) (rxScCamSet bus i sc) fun _ _ => True :=
      steps_rxScCamSet selectBits_quiet (camBits_quiet hhw)
    exact (ends_quiet (Steps.orFail hcam)).weaken (fun _ _ hsw => hsw.follows) fun _ hsw => hsw.follows

theorem settles_rxSaLowestPnUpdate {sci : Sci} {lowestPn : PktNum} :
    Settles t h₀ c ∅ (rxSaLowestPnUpdate bus i sci an lowestPn) := by
  refine ends_getConf_bind (fun _ h => h.conf) ?_
  cases c.scFromSciGet i sci with
  | none => exact Ends.pure fun _ hsw => hsw.follows
  | some sc =>
    refine Ends.failIf_bind (fun _ hsw _ => hsw.follows) fun _ => ?_
    refine Ends.failIf_bind (fun _ hsw _ => hsw.follows) fun _ => ?_
    refine Ends.failIf_bind (fun _ hsw _ => hsw.follows) fun _ => ?_
    refine Ends.failIf_bind (fun _ hsw _ => hsw.follows) fun _ => ?_
    refine ((ends_within (within_rxSaNextPnUpdate subset_rfl).orFail selectBits_quiet).weaken (fun _ _ => id)
      fun _ hsw => hsw.follows).bind fun _ => ?_
    have hrd : Within (hwFrame bus ∅) (csrRd bus nextPnCtrlReg) := within_csrRd
    refine ((ends_within hrd (Set.empty_subset _)).weaken (fun _ _ => id) fun _ hsw => hsw.follows).bind fun v => ?_
    exact (Ends.failIf fun _ hsw _ => hsw.follows).weaken (fun _ _ hsw => hsw.1.follows) fun _ => id

theorem settles_secyConfAdd (h : Inv c) (ho : RxOwned c) (port : MacsecPort) (conf : SecyConf) :
    Settles t h₀ c ∅ (secyConfAddPriv port conf : Call H Unit) := by
  refine Ends.failIf_bind (fun _ hsw _ => hsw.follows) fun _ => ?_
  refine Ends.bind (Q := fun j s => SwAt t h₀ c ∅ s ∧ portVacancy c port = .ok j) ?_ fun j => ?_
  · refine ends_getConf_bind (fun _ h => h.conf) (Ends.failIf_bind (fun _ hsw _ => hsw.follows) fun _ => ?_)
    cases hv : portVacancy c port with
    | ok j => exact Ends.pure fun _ hsw => ⟨hsw, rfl⟩
    | error e => exact Ends.throw fun _ hsw => hsw.follows
  · rintro s ⟨hsw, hv⟩
    have hc : Commit j c .opens (openSecy j c port conf) := .openSecy port conf hv
    have hcalm : Calms c (openSecy j c port conf) ∅ ∅ := hc.calms h ho (by simp) (by simp)
      (setSecy_part Secy.controlledPortEnabled rfl) fun _ => id
    refine ends_getConf_bind (fun _ hsw => hsw.conf) ?_ s hsw
    refine Ends.failIf_bind (fun _ hsw _ => hsw.follows) fun _ => ?_
    refine Ends.failIf_bind (fun _ hsw _ => hsw.follows) fun _ => (ends_modifyConf_sw hcalm).bind fun _ => ?_
    exact (Ends.failIf fun _ hsw _ => hsw.follows).weaken (fun _ _ hsw => hsw.1.follows) fun _ => id

theorem settles_patternSetPriv (h : Inv c) (ho : RxOwned c) {port : MacsecPort} {d : Direction} {a : MatchAction}
    (pattern : MatchPattern) : Settles t h₀ c ∅ (patternSetPriv bus port d a pattern) := by
  refine ends_getConf_bind (fun _ h => h.conf) (Ends.failIf_bind (fun _ hsw _ => hsw.follows) fun _ => ?_)
  refine Ends.failIf_bind (fun _ hsw _ => hsw.follows) fun _ => ?_
  have hport : Ends (SwAt t h₀ c ∅) (orFail (portCheck port) (.macsec .noSecyFound))
      (fun i s => SwAt t h₀ c ∅ s ∧ portFind c port = some i) (Follows t h₀) :=
    ((ends_portCheck fun _ hsw => hsw.conf).weaken (fun _ _ => id) fun _ hsw => hsw.follows).orFail
  refine hport.bind fun i s hs => ?_
  have hu := hasPort_inUse (portFind_spec hs.2).2
  refine Ends.bind (Q := fun _ => Follows t h₀) (Ends.when (fun _ => ?_) fun _ _ hsw => hsw.follows) (fun _ => ?_) s hs.1
  · exact (settles_patternSet h ho hu pattern).orFail
  · exact follows_modify fun c => calms_setPattern

theorem settles_patternDelPriv (h : Inv c) (ho : RxOwned c) {port : MacsecPort} {d : Direction} {a : MatchAction} :
    Settles t h₀ c ∅ (patternDelPriv bus port d a) := by
  have hport : Ends (SwAt t h₀ c ∅) (orFail (portCheck port) (.macsec .noSecyFound))
      (fun i s => SwAt t h₀ c ∅ s ∧ portFind c port = some i) (Follows t h₀) :=
    ((ends_portCheck fun _ hsw => hsw.conf).weaken (fun _ _ => id) fun _ hsw => hsw.follows).orFail
  refine hport.bind fun i s hs => ?_
  have hu := hasPort_inUse (portFind_spec hs.2).2
  refine Ends.bind (Q := fun _ => Follows t h₀) (Ends.when (fun _ => ?_) fun _ _ hsw => hsw.follows) (fun _ => ?_) s hs.1
  · exact (settles_patternDel h ho hu).orFail
  · exact follows_modify fun c => calms_setPattern

/-! ## Careful calls -/

/-- The call enables or disables the entries of SAs. -/
def Op.switches : Op → Bool
  | .secyConfUpdate _ | .secyConfDel | .secyControlledSet _ | .txScDel | .rxScDel _ | .txSaActivate _ | .txSaDisable _
  | .txSaDel _ | .rxSaActivate .. | .rxSaDisable .. | .rxSaDel .. => true
  | _ => false

/-- The call enables an SA. -/
def Op.activates : Op → Bool
  | .txSaActivate _ | .rxSaActivate .. => true
  | _ => false

/-- What a call must not do for the switches to follow the controlled port. -/
structure SwitchCareful (bus : PortBus H) (op : Op) (port : MacsecPort) (s : Dev MacsecConf H) : Prop where
  sound : op.switches = true → bus.Sound s.hw
  controlled : op.activates = true → ∀ i, portFind s.conf port = some i → (s.conf.secy i).controlledPortEnabled = true
  inactive : ∀ an, op = .txSaActivate an → ∀ i, portFind s.conf port = some i →
    ¬((s.conf.secy i).txSc.encodingSa = an ∧ (s.conf.txSaAt i an).enabled = true)

section Call

variable {op : Op} {port : MacsecPort} {s : Dev MacsecConf H}

/-- A call that looks up the SecY of its port. -/
theorem settles_portCheck_bind {α : Type} {f : Nat → Call H α}
    (hf : ∀ i, portFind c port = some i → i < maxSecy → (c.secy i).inUse = true → Settles t h₀ c ∅ (f i)) :
    Settles t h₀ c ∅ (portCheck port >>= f) := by
  refine ((ends_portCheck fun _ hsw => hsw.conf).weaken (fun _ _ => id) fun _ hsw => hsw.follows).bind fun i s hs => ?_
  exact hf i hs.2 (portFind_spec hs.2).1 (hasPort_inUse (portFind_spec hs.2).2) s hs.1

/-- A careful call leaves the switches as the tables say, whether it succeeds or fails. -/
theorem settles_call (h : Inv s.conf) (ho : RxOwned s.conf) (hc : SwitchCareful bus op port s) :
    Settles t s.hw s.conf ∅ (op.call bus port) := by
  -- the updates that store a setting
  have hmodify {i : Nat} {g : MacsecConf → MacsecConf} (hg : Commit i s.conf .other (g s.conf))
      (hctl : ∀ j, ((g s.conf).secy j).controlledPortEnabled = (s.conf.secy j).controlledPortEnabled)
      (hrx : (g s.conf).rxSa = s.conf.rxSa) :
      Ends (SwAt t s.hw s.conf ∅) (modifyConf g : Call H PUnit) (fun _ => Follows t s.hw) (Follows t s.hw) :=
    (ends_modifyConf_sw (calms_settings hg h ho rfl hctl hrx)).weaken (fun _ _ hsw => hsw.follows) fun _ => id
  cases op with
  | secyConfAdd conf => exact settles_secyConfAdd h ho port conf
  | secyConfUpdate conf =>
    exact Ends.failIf_bind (fun _ hsw _ => hsw.follows) fun _ => settles_portCheck_bind fun i _ hi hu =>
      settles_secyConfUpdate (hc.sound rfl) h ho hu hi conf
  | secyConfDel => exact settles_portCheck_bind fun i _ hi hu => settles_secyConfDel (hc.sound rfl) h ho hu hi
  | secyControlledSet b => exact settles_portCheck_bind fun i _ _ _ => settles_secyControlledSet (hc.sound rfl) h b
  | bypassTagSet tag =>
    refine ends_getConf_bind (fun _ hsw => hsw.conf) (Ends.failIf_bind (fun _ hsw _ => hsw.follows) fun _ => ?_)
    refine (ends_portCheck fun _ hsw => hsw.conf).attempt.bind fun o s' hs => ?_
    rcases hs with ⟨i, rfl, hsw, hp⟩ | ⟨rfl, hsw⟩
    · have hu := hasPort_inUse (portFind_spec hp).2
      exact hmodify (.settings (fun s => { s with tagBypass := tag }) ⟨rfl, rfl, rfl, rfl, rfl, rfl⟩ hu)
        (setSecy_part Secy.controlledPortEnabled rfl) rfl s' hsw
    · exact Ends.pure (fun _ hsw => hsw.follows) s' hsw
  | txScSet =>
    refine settles_portCheck_bind fun i _ _ hu => ends_getConf_bind (fun _ hsw => hsw.conf) ?_
    refine Ends.failIf_bind (fun _ hsw _ => hsw.follows) fun _ => ?_
    exact hmodify (.openTxSc hu) (setSecy_part Secy.controlledPortEnabled rfl) rfl
  | txScUpdate conf =>
    refine Ends.failIf_bind (fun _ hsw _ => hsw.follows) fun _ => settles_portCheck_bind fun i _ _ hu => ?_
    refine ends_getConf_bind (fun _ hsw => hsw.conf) ?_
    refine (hmodify (g := fun c => updateTxScConf i c conf) (.settings _ ⟨rfl, rfl, rfl, rfl, rfl, rfl⟩ hu)
      (setSecy_part Secy.controlledPortEnabled rfl) rfl).bind fun _ => ?_
    exact (Ends.failIf fun _ hf _ => hf).weaken (fun _ _ hf => hf.1) fun _ => id
  | txScDel => exact settles_portCheck_bind fun i _ hi hu => settles_txScDel (hc.sound rfl) h ho hu hi
  | rxScAdd sci =>
    refine settles_portCheck_bind fun i _ _ hu => ends_getConf_bind (fun _ hsw => hsw.conf) ?_
    refine Ends.failIf_bind (fun _ hsw _ => hsw.follows) fun _ => ?_
    refine Ends.failIf_bind (fun _ hsw _ => hsw.follows) fun _ => ?_
    refine Ends.failIf_bind (fun _ hsw _ => hsw.follows) fun hne => ?_
    cases hpl : rxScPlace s.conf i with
    | none => exact Ends.throw fun _ hsw => hsw.follows
    | some place =>
      obtain ⟨sc, p, hw⟩ := place
      exact hmodify (.addRxSc sc p hw sci hu hpl fun q hq he => hne ⟨q, hq, he⟩)
        (addRxSc_part Secy.controlledPortEnabled fun _ _ => rfl) rfl
  | rxScUpdate sci conf =>
    refine Ends.failIf_bind (fun _ hsw _ => hsw.follows) fun _ => settles_portCheck_bind fun i _ _ hu => ?_
    refine ends_scFromSci_sw fun sc p hp _ => ends_getConf_bind (fun _ hsw => hsw.conf) ?_
    refine Ends.failIf_bind (fun _ hsw _ => hsw.follows) fun _ => ?_
    exact hmodify (.updateRxScConf sc p conf hp) (fun j => by rw [updateRxScConf_secy]) updateRxScConf_rxSa
  | rxScDel sci => exact settles_portCheck_bind fun i _ _ hu => settles_rxScDel (hc.sound rfl) h ho hu
  | txSaSet an nextPn b sak ssci => exact settles_portCheck_bind fun i _ hi _ => settles_txSaSet h ho hi
  | txSaActivate an =>
    exact settles_portCheck_bind fun i hp hi _ =>
      settles_txSaActivate (hc.sound rfl) h hi (hc.controlled rfl i hp) (hc.inactive an rfl i hp)
  | txSaDisable an => exact settles_portCheck_bind fun i _ hi _ => settles_txSaDisable (hc.sound rfl) h hi
  | txSaDel an => exact settles_portCheck_bind fun i _ _ _ => settles_txSaDel (hc.sound rfl) h
  | rxSaSet sci an lowestPn sak ssci => exact settles_portCheck_bind fun i _ hi _ => settles_rxSaSet h ho hi
  | rxSaActivate sci an =>
    exact settles_portCheck_bind fun i hp _ _ => settles_rxSaActivate (hc.sound rfl) h (hc.controlled rfl i hp)
  | rxSaDisable sci an => exact settles_portCheck_bind fun i _ _ _ => settles_rxSaDisable (hc.sound rfl) h
  | rxSaDel sci an => exact settles_portCheck_bind fun i _ _ _ => settles_rxSaDel (hc.sound rfl) h
  | rxSaLowestPnUpdate sci an lowestPn => exact settles_portCheck_bind fun i _ _ _ => settles_rxSaLowestPnUpdate
  | patternSet d a pattern => exact settles_patternSetPriv h ho pattern
  | patternDel d a => exact settles_patternDelPriv h ho

end Call

/-! ## Careful runs -/

/-- A careful call, or a change of the device. -/
inductive SwitchStep (bus : PortBus H) : Dev MacsecConf H → Dev MacsecConf H → Prop
  | call (port : MacsecPort) (op : Op) (s : Dev MacsecConf H) (hc : SwitchCareful bus op port s) :
      SwitchStep bus s (final (op.call bus port) s)
  | drift (s : Dev MacsecConf H) (h : H) : bus.drift s.hw h → SwitchStep bus s { s with hw := h }

/-- The switches follow the tables, which are linked. -/
structure Switched (t : MatchTable bus) (s : Dev MacsecConf H) : Prop where
  inv : Inv s.conf
  rxOwned : RxOwned s.conf
  agree : Agree t s.conf ∅ s.hw

theorem not_armed_init (glb : Glb) (j : Nat) (d : Direction) (r : Nat) : ¬Armed (macsecInit glb) j d r := by
  intro ha
  cases d with
  | egress =>
    obtain ⟨an, hr, -⟩ := ha
    cases hr
  | ingress =>
    obtain ⟨sc, p, an, hp, -⟩ := ha
    cases hp

theorem SwitchStep.switched {s s' : Dev MacsecConf H} (hst : SwitchStep bus s s') (h : Switched t s) : Switched t s' := by
  cases hst with
  | call port op _ hc =>
    have hi : ∀ j, op.slot s.conf port = some j → j = (op.slot s.conf port).getD 0 := fun j hj => by rw [hj]; rfl
    refine ⟨inv_call h.inv op port, rxOwned_of_trace (trace_call h.inv hi) h.rxOwned, ?_⟩
    have hend : Settles t s.hw s.conf ∅ (op.call bus port) := settles_call h.inv h.rxOwned hc
    rcases hend.final ⟨⟨rfl, .refl⟩, h.agree⟩ with ⟨-, -, hf⟩ | ⟨-, hf⟩
    · exact hf.agree
    · exact hf.agree
  | drift _ h' hd => exact ⟨h.inv, h.rxOwned, fun j d r hlt ha hK => (t.on_drift _ _ hd).symm ▸ h.agree j d r hlt ha hK⟩

theorem switched_run {glb : Glb} {h₀ : H} {s : Dev MacsecConf H}
    (hrun : Relation.ReflTransGen (SwitchStep bus) ⟨macsecInit glb, h₀⟩ s) : Switched t s := by
  induction hrun with
  | refl => exact ⟨inv_init glb, rxOwned_init glb, fun j d r _ ha => absurd ha (not_armed_init glb j d r)⟩
  | tail _ hst ih => exact hst.switched ih

/-- The entry of every enabled SA is on exactly while the controlled port of its SecY is enabled. -/
def PortControlled (t : MatchTable bus) (s : Dev MacsecConf H) : Prop :=
  ∀ j d r, Armed s.conf j d r → (t.on s.hw d r = true ↔ (s.conf.secy j).controlledPortEnabled = true)

/-- In every careful run the entries of the enabled SAs follow the controlled port. -/
theorem port_controlled (t : MatchTable bus) (glb : Glb) (h₀ : H) (s : Dev MacsecConf H)
    (hrun : Relation.ReflTransGen (SwitchStep bus) ⟨macsecInit glb, h₀⟩ s) : PortControlled t s := by
  intro j d r ha
  have h : Switched t s := switched_run hrun
  rw [h.agree j d r (ha.lt h.inv) ha id]

/-! ### A match table -/

/-- A port whose command registers read as zero; the other registers are storage. -/
def tableBus : PortBus ((IoReg → BitVec 32) × (Direction → Nat → Bool)) where
  rd r h := (.ok (if 0x1820 ≤ r.addr ∧ r.addr ≤ 0x1840 then 0 else h.1 r), h)
  wr r v h := (.ok (), fun q => if q = r then v else h.1 q, fun d q => (entryCommand r v d q).getD (h.2 d q))
  drift h h' := h' = h

theorem entryCommand_addr {r : IoReg} {v : BitVec 32} {d : Direction} {q : Nat} {b : Bool} (hq : q < maxSa)
    (hc : entryCommand r v d q = some b) : 0x1820 ≤ r.addr ∧ r.addr ≤ 0x1840 := by
  have hq : q < 128 := hq
  unfold entryCommand at hc
  split at hc
  · next h =>
    simp only [h.1, entrySetReg, ioreg]
    omega
  · split at hc
    · next h =>
      simp only [h.1, entryClearReg, ioreg]
      split_ifs <;> omega
    · split at hc
      · next h => simp [h.1, samEntryEnableCtrlReg, ioreg]
      · split at hc
        · next h => simp [h.1, samEntryEnableCtrlReg, ioreg]
        · cases hc

def tableBench : MatchTable tableBus where
  on h := h.2
  on_rd _ _ := rfl
  rd_command r h v d q b hv hq hc := by
    have hv : (if 0x1820 ≤ r.addr ∧ r.addr ≤ 0x1840 then 0 else h.1 r) = v := Except.ok.inj hv
    rw [if_pos (entryCommand_addr hq hc)] at hv
    subst hv
    simp [entryCommand] at hc
  on_wr_ok _ _ _ _ _ _ _ := rfl
  on_wr_error _ _ _ _ he := by cases he
  on_drift h h' hd := by rw [show h' = h from hd]

/-- The port after `macsec_init_set`. -/
def tableInit : Dev MacsecConf ((IoReg → BitVec 32) × (Direction → Nat → Bool)) :=
  ⟨macsecInit { initEnable := true }, fun _ => 0, fun _ _ => false⟩

theorem tableBus_sound (h : (IoReg → BitVec 32) × (Direction → Nat → Bool)) : tableBus.Sound h :=
  fun _ _ => ⟨fun _ => ⟨_, rfl⟩, fun _ _ => rfl⟩

theorem switchCareful_table {op : Op} {port : MacsecPort}
    {s : Dev MacsecConf ((IoReg → BitVec 32) × (Direction → Nat → Bool))} (ha : op.activates = false) :
    SwitchCareful tableBus op port s where
  sound _ := tableBus_sound s.hw
  controlled hact := by
    rw [ha] at hact
    cases hact
  inactive an he := by
    rw [he] at ha
    cases ha

/-- The first SecY with one transmit SA, and its controlled port enabled. -/
def openTxSa : List (MacsecPort × Op) :=
  [(benchPort 1, .secyConfAdd benchSecy), (benchPort 1, .txScSet), (benchPort 1, .secyControlledSet true),
    (benchPort 1, .txSaSet 0 1 true {} none)]

theorem port_controlled_openTxSa : PortControlled tableBench
    (calls tableBus (openTxSa ++ [(benchPort 1, .txSaActivate 0)]) tableInit) := by
  have h1 := SwitchStep.call (benchPort 1) (.secyConfAdd benchSecy) tableInit (switchCareful_table rfl)
  have h2 := SwitchStep.call (benchPort 1) .txScSet (calls tableBus (openTxSa.take 1) tableInit) (switchCareful_table rfl)
  have h3 := SwitchStep.call (benchPort 1) (.secyControlledSet true) (calls tableBus (openTxSa.take 2) tableInit)
    (switchCareful_table rfl)
  have h4 := SwitchStep.call (benchPort 1) (.txSaSet 0 1 true {} none) (calls tableBus (openTxSa.take 3) tableInit)
    (switchCareful_table rfl)
  have hopen : portFind (calls tableBus openTxSa tableInit).conf (benchPort 1) = some 0 ∧
      ((calls tableBus openTxSa tableInit).conf.secy 0).controlledPortEnabled = true ∧
      ((calls tableBus openTxSa tableInit).conf.txSaAt 0 0).enabled = false := by
    decide +kernel
  have h5 := SwitchStep.call (benchPort 1) (.txSaActivate 0) (calls tableBus openTxSa tableInit)
    { sound := fun _ => tableBus_sound _
      controlled := fun _ i hi => by
        cases hopen.1.symm.trans hi
        exact hopen.2.1
      inactive := fun an he i hi hold => by
        cases hopen.1.symm.trans hi
        cases he
        rw [hopen.2.2] at hold
        cases hold.2 }
  exact port_controlled tableBench { initEnable := true } _ _
    (((((Relation.ReflTransGen.single h1).tail h2).tail h3).tail h4).tail h5)

/-- An SA that is activated passes frames although its controlled port has never been enabled. -/
theorem not_port_controlled : ¬∀ s, Reachable tableBus s → PortControlled tableBench s := by
  intro h
  have hs : Reachable tableBus (calls tableBus (oneTxSa ++ [(benchPort 1, .txSaActivate 0)]) tableInit) :=
    reachable_calls _ _ _
  have hon : ((calls tableBus (oneTxSa ++ [(benchPort 1, .txSaActivate 0)]) tableInit).conf.secy 0).txSc.sa 0 = some 0 ∧
      ((calls tableBus (oneTxSa ++ [(benchPort 1, .txSaActivate 0)]) tableInit).conf.txSa 0).enabled = true ∧
      tableBench.on (calls tableBus (oneTxSa ++ [(benchPort 1, .txSaActivate 0)]) tableInit).hw .egress 0 = true ∧
      ((calls tableBus (oneTxSa ++ [(benchPort 1, .txSaActivate 0)]) tableInit).conf.secy 0).controlledPortEnabled =
        false := by
    decide +kernel
  have hctl := (h _ hs 0 .egress 0 ⟨0, hon.1, hon.2.1⟩).mp hon.2.2.1
  rw [hon.2.2.2] at hctl
  cases hctl

end Lan80xx.Macsec
