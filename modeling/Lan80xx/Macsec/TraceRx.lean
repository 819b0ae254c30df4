import Lan80xx.Macsec.Trace

/-!
# MACsec: the small steps of receive SAs

The functions of a SecY's receive channels as sequences of small steps. The SCI passed to them picks one channel of the
SecY (`Inv.scFromSciGet_eq`), because no two channels in use have the same SCI.
-/

namespace Lan80xx.Macsec

open Fallible RegBus Ownership MacsecConf

variable {H : Type}

/-! ## Channels by SCI -/

section Sci

variable {c : MacsecConf} {i sc p an r : Nat} {sci : Sci}

theorem scFromSciGet_spec (hs : c.scFromSciGet i sci = some sc) :
    ∃ p, (c.secy i).rxSc sc = some p ∧ (c.rxSc p).inUse = true ∧ (c.rxSc p).sci = sci := by
  have hf := List.find?_some hs
  cases hp : (c.secy i).rxSc sc with
  | none => simp [hp] at hf
  | some p =>
    simp only [hp, Bool.and_eq_true, decide_eq_true_eq] at hf
    exact ⟨p, rfl, hf.1, hf.2.symm⟩

/-- The channel with this SCI is the only one. -/
theorem Inv.scFromSciGet_eq (h : Inv c) (hp : (c.secy i).rxSc sc = some p) (hsci : (c.rxSc p).sci = sci) :
    c.scFromSciGet i sci = some sc := by
  have hu : (c.rxSc p).inUse = true := h.sc.live (s := (i, sc)) hp
  cases hs : c.scFromSciGet i sci with
  | none =>
    have hn := List.find?_eq_none.mp hs sc (List.mem_range.mpr (h.sc_place hp))
    simp [hp, hu, hsci] at hn
  | some sc' =>
    obtain ⟨p', hp', hu', hsci'⟩ := scFromSciGet_spec hs
    have hpp := h.sci_inj hu' hu (hsci'.trans hsci.symm)
    subst hpp
    have := h.sc.inj (s := (i, sc')) (t := (i, sc)) hp' hp
    simp_all

theorem rxSaAt_eq (hp : (c.secy i).rxSc sc = some p) (hr : (c.rxSc p).sa an = some r) : c.rxSaAt i sc an = c.rxSa r := by
  simp [rxSaAt, rxScAt_eq hp, hr]

theorem Inv.rxSa_record (h : Inv c) (hp : (c.secy i).rxSc sc = some p) (hr : (c.rxSc p).sa an = some r) :
    (c.rxSaAt i sc an).record = r := by
  rw [rxSaAt_eq hp hr, h.rx_record hr]

theorem rxSa_owned (hp : (c.secy i).rxSc sc = some p) (hr : (c.rxSc p).sa an = some r) : c.ownedBy .ingress i r :=
  Or.inl ⟨sc, p, an, hp, hr⟩

theorem steps_scFromSci {F : Frame (Dev MacsecConf H)} :
    Steps F (fun s => s.conf = c) (scFromSci i sci : Call H Nat)
      fun sc s => s.conf = c ∧ c.scFromSciGet i sci = some sc := by
  refine steps_getConf_bind ?_
  cases hs : c.scFromSciGet i sci with
  | none => exact Steps.throw
  | some sc => exact Steps.pure fun s h => ⟨h, rfl⟩

/-- After the lookup of a channel, the pointer it found. -/
theorem steps_scFromSci_bind {F : Frame (Dev MacsecConf H)} {α : Type} {f : Nat → Call H α}
    {R : α → Dev MacsecConf H → Prop}
    (hf : ∀ sc p, c.scFromSciGet i sci = some sc → (c.secy i).rxSc sc = some p → (c.rxSc p).inUse = true →
      Steps F (fun s => s.conf = c) (f sc) R) :
    Steps F (fun s => s.conf = c) (scFromSci i sci >>= f) R :=
  steps_scFromSci.bind fun sc => Steps.imp fun hs => by
    obtain ⟨p, hp, hu, -⟩ := scFromSciGet_spec hs
    exact hf sc p hs hp hu

end Sci

/-! ## Receive SAs -/

section Rx

variable {bus : PortBus H} {sp : Scope} {i an : Nat} {c : MacsecConf} {sci : Sci}

theorem within_scFromSci {F : Frame (Dev MacsecConf H)} : Within F (scFromSci i sci : Call H Nat) := by
  refine within_getConf.bind fun c => ?_
  cases c.scFromSciGet i sci with
  | none => exact Within.throw _
  | some sc => exact Within.pure _

theorem within_rxSaCountersGet {W : Set (IoReg × Nat)} : Within (hwFrame bus W) (rxSaCountersGet bus i sci an) := by
  refine within_scFromSci.bind fun sc => within_getConf.bind fun c => Within.failIf.bind fun _ => ?_
  exact Within.forUpTo _ fun k _ => within_csrRd64.bind fun _ => Within.pure _

theorem channelMap_allowed {sc p : Nat} (h : Inv c) (hf : Fits sp c) (hp : (c.secy i).rxSc sc = some p) :
    mapBits .ingress (c.rxScAt i sc).hwScIdx ⊆ allowed sp i c := by
  rw [rxScAt_eq hp]
  exact Set.subset_union_left.trans (channel_allowed hp (hf.hws (h.sc.live (s := (i, sc)) hp)))

theorem channelCam_allowed {sc p : Nat} (hw : (c.rxSc p).hwScIdx < sp.hws)
    (hp : (c.secy i).rxSc sc = some p) : camBits (c.rxScAt i sc).hwScIdx ⊆ allowed sp i c := by
  rw [rxScAt_eq hp]
  exact Set.subset_union_right.trans (channel_allowed hp hw)

theorem steps_rxSaSet (h : Inv c) (hf : Fits sp c)
    (hnew : ∀ r, c.recordEmptyGet .ingress = some r → r < sp.recs .ingress)
    (hk : .other ∈ sp.kinds) (lowestPn : PktNum) (sak : Sak) (ssci : Option Ssci) :
    Steps (trace bus sp i) (fun s => s.conf = c) (rxSaSet bus i sci an lowestPn sak ssci) fun _ _ => True := by
  refine steps_scFromSci_bind fun sc p _ hp hu => steps_getConf_bind ?_
  refine Steps.failIf_bind fun _ => Steps.failIf_bind fun _ => Steps.failIf_bind fun han => ?_
  refine Steps.failIf_bind fun hsa => ?_
  have hsa : (c.rxSc p).sa an = none := by simpa [rxScAt_eq hp] using hsa
  cases hrec : c.recordEmptyGet .ingress with
  | none => exact Steps.throw
  | some r =>
    have hc : Commit i c .other (linkRxSa i c sc an r lowestPn sak ssci) :=
      .linkRxSa sc p an r lowestPn sak ssci hp (by omega) hsa hrec
    refine (steps_commit hc hk).bind fun _ => ?_
    have h₁ := hc.inv h
    have hp₁ : ((linkRxSa i c sc an r lowestPn sak ssci).secy i).rxSc sc = some p := by rw [linkRxSa_secy, hp]
    have hr₁ : ((linkRxSa i c sc an r lowestPn sak ssci).rxSc p).sa an = some r := by simp [linkRxSa_sa hp]
    have hhw : ((linkRxSa i c sc an r lowestPn sak ssci).rxSc p).hwScIdx < sp.hws := by
      rw [linkRxSa_rxSc_part hp RxSc.hwScIdx fun _ _ => rfl]
      exact hf.hws hu
    generalize linkRxSa i c sc an r lowestPn sak ssci = c₁ at h₁ hp₁ hr₁ hhw ⊢
    have hr := rxSa_owned hp₁ hr₁
    have hbits : recordBits c₁.glb .ingress r ⊆ allowed sp i c₁ :=
      record_allowed (hnew r hrec) fun _ hj ho => hj (h₁.ownedBy_unique ho hr)
    refine (Steps.orFail (steps_within (within_saXformSet (xform_of_record hbits)) subset_rfl)).bind fun _ => ?_
    refine (Steps.orFail (steps_hw (steps_saTcamKeyMaskSet selectBits_allowed (tcam_of_record hbits)
      (policy_of_record hbits)) subset_rfl)).bind fun _ => ?_
    refine (Steps.orFail (steps_within (within_saFlowSet modeBits_allowed flow_allowed) subset_rfl)).bind fun _ => ?_
    exact (Steps.orFail (steps_hw (steps_rxScCamSet selectBits_allowed (channelCam_allowed hhw hp₁))
      subset_rfl)).post fun _ _ _ => trivial

theorem steps_rxSaActivate (h : Inv c) (hf : Fits sp c) (hk : .other ∈ sp.kinds) :
    Steps (trace bus sp i) (fun s => s.conf = c) (rxSaActivate bus i sci an) fun _ _ => True := by
  refine steps_scFromSci_bind fun sc p _ hp _ => steps_getConf_bind ?_
  refine Steps.failIf_bind fun _ => Steps.failIf_bind fun _ => Steps.failIf_bind fun hsa => ?_
  obtain ⟨r, hr⟩ := Option.ne_none_iff_exists'.mp hsa
  rw [rxScAt_eq hp] at hr
  rw [h.rxSa_record hp hr]
  have hbits := h.owned_allowed hf (rxSa_owned hp hr)
  refine (Steps.orFail (steps_within (within_saInuse (channelMap_allowed h hf hp)) subset_rfl)).bind fun _ => ?_
  refine (Steps.orFail (steps_within (within_saEnable (enable_of_record hbits)) subset_rfl)).bind fun _ => ?_
  exact (steps_commit (.flagRxSa sc p an true hp) hk).post fun _ _ _ => trivial

theorem steps_rxSaDisable (h : Inv c) (hf : Fits sp c) (hk : .other ∈ sp.kinds) :
    Steps (trace bus sp i) (fun s => s.conf = c) (rxSaDisable bus i sci an)
      fun _ s => ∃ sc, c.scFromSciGet i sci = some sc ∧ s.conf = flagRxSa i c sc an false := by
  refine Steps.failIf_bind fun _ => steps_scFromSci_bind fun sc p hs hp _ => steps_getConf_bind ?_
  refine Steps.failIf_bind fun hsa => ?_
  obtain ⟨r, hr⟩ := Option.ne_none_iff_exists'.mp hsa
  rw [rxScAt_eq hp] at hr
  rw [h.rxSa_record hp hr]
  have hbits := h.owned_allowed hf (rxSa_owned hp hr)
  refine (Steps.orFail (steps_within (within_saEnable (enable_of_record hbits)) subset_rfl)).bind fun _ => ?_
  refine (Steps.orFail (steps_within (within_saInuse (channelMap_allowed h hf hp)) subset_rfl)).bind fun _ => ?_
  exact (steps_commit (.flagRxSa sc p an false hp) hk).post fun _ s hs' => ⟨sc, hs, hs'⟩

theorem steps_rxSaDel (h : Inv c) (hf : Fits sp c) (hk : .other ∈ sp.kinds) :
    Steps (trace bus sp i) (fun s => s.conf = c) (rxSaDel bus i sci an)
      fun _ s => ∃ sc, c.scFromSciGet i sci = some sc ∧ s.conf = freeRxSa i c sc an (c.rxSaAt i sc an).record := by
  refine Steps.failIf_bind fun _ => steps_scFromSci_bind fun sc p hs hp _ => steps_getConf_bind ?_
  refine Steps.failIf_bind fun hsa => ?_
  obtain ⟨r, hr⟩ := Option.ne_none_iff_exists'.mp hsa
  rw [rxScAt_eq hp] at hr
  rw [h.rxSa_record hp hr]
  have hbits := h.owned_allowed hf (rxSa_owned hp hr)
  refine (Steps.orFail (steps_within (within_saInuse (channelMap_allowed h hf hp)) subset_rfl)).bind fun _ => ?_
  refine (Steps.orFail (steps_within within_saSamInFlight subset_rfl)).bind fun _ => ?_
  refine (Steps.orFail (steps_within (within_saEnable (enable_of_record hbits)) subset_rfl)).bind fun _ => ?_
  refine (steps_within (Within.attempt within_rxSaCountersGet |>.bind fun _ => Within.pure _) subset_rfl).bind fun _ => ?_
  have hc : Commit i c .other (freeRxSa i c sc an r) := .freeRxSa sc p an r hp hr
  refine (steps_commit hc hk).bind fun _ => ?_
  have h₁ := hc.inv h
  have hfree : (freeRxSa i c sc an r).saInUse .ingress r = false := by simp [saInUse, freeRxSa_rxSa]
  have hbits₁ : recordBits (freeRxSa i c sc an r).glb .ingress r ⊆ allowed sp i (freeRxSa i c sc an r) :=
    h₁.free_allowed (hf.recs (h.ownedBy_inUse (rxSa_owned hp hr))) hfree
  refine (Steps.orFail (steps_within (within_saTcamKeyMaskReset samEntryBits_allowed (tcamWord_of_record hbits₁))
    subset_rfl)).bind fun _ => ?_
  refine (Steps.orFail (steps_within (within_saXformReset (xform_of_record hbits₁)) subset_rfl)).post
    fun _ s hs' => ⟨sc, hs, ?_⟩
  rw [h.rxSa_record hp hr]
  exact hs'

theorem within_rxSaNextPnUpdate {W : Set (IoReg × Nat)} (hW : selectBits ⊆ W) {nextPn : PktNum} {record : Nat} :
    Within (hwFrame bus W) (rxSaNextPnUpdate bus i nextPn record) := by
  have hlo : wordBits nextPnLoReg ⊆ W := fun _ hb => hW (Or.inr (Or.inr (Or.inr (Or.inr (Or.inl hb)))))
  have hhi : wordBits nextPnHiReg ⊆ W := fun _ hb => hW (Or.inr (Or.inr (Or.inr (Or.inr (Or.inr (Or.inl hb))))))
  have hctrl : wordBits nextPnCtrlReg ⊆ W := fun _ hb => hW (Or.inr (Or.inr (Or.inr (Or.inr (Or.inr (Or.inr hb))))))
  refine within_getConf.bind fun c' => (within_csrWr hlo).bind fun _ => ?_
  refine Within.bind (Within.when fun _ => within_csrWr hhi) fun _ => ?_
  exact (within_csrWr hctrl).bind fun _ => within_csrWrm_word hctrl

theorem steps_rxSaLowestPnUpdate (lowestPn : PktNum) :
    Steps (trace bus sp i) (fun s => s.conf = c) (rxSaLowestPnUpdate bus i sci an lowestPn) fun _ _ => True := by
  refine steps_getConf_bind ?_
  cases hs : c.scFromSciGet i sci with
  | none => exact Steps.pure fun _ _ => trivial
  | some sc =>
    refine Steps.failIf_bind fun _ => Steps.failIf_bind fun _ => Steps.failIf_bind fun _ => ?_
    refine Steps.failIf_bind fun _ => ?_
    refine (steps_within ?_ (selectBits_allowed (i := i) (c := c))).post fun _ _ _ => trivial
    exact Within.bind (Within.orFail (within_rxSaNextPnUpdate subset_rfl)) fun _ => within_csrRd.bind fun _ => Within.failIf

end Rx

end Lan80xx.Macsec
