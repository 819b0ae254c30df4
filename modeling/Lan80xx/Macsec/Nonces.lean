import Lan80xx.Macsec.ControlledCalls

/-!
# MACsec: nonces of the extended suites

With an extended packet number the nonce of a frame is made of the key's salt, the SSCI and the packet number. `XpnSa`
names what two SAs must not share. Every update of the tables except for setting an SA and reconfiguring a SecY leaves
fewer SAs and changes none of them (`Shrinks`); the two calls that set an SA check its SSCI against all of them.
-/

namespace Lan80xx.Macsec

open Fallible RegBus MacsecConf

variable {H : Type} {bus : PortBus H} {c c' c₁ : MacsecConf} {i j an sc p r record : Nat}

/-! ## SAs of the extended suites -/

/-- What `is_ssci_valid` compares: the key with its salt, the SSCI, and the SCI of the channel. -/
structure Nonce where
  sak : Sak
  ssci : Ssci
  sci : Sci
  deriving DecidableEq

/-- The direction of the SA in a slot. -/
def Slot.dir : Slot → Option Direction
  | .txSa _ => some .egress
  | .rxSa _ _ => some .ingress
  | .pattern _ => none

/-- The SA in a slot is in use under an XPN suite, with this key, SSCI and SCI. -/
def XpnSa (c : MacsecConf) : Nat × Slot → Nonce → Prop
  | (i, .txSa an), n => ∃ r, (c.secy i).txSc.sa an = some r ∧ (c.txSa r).inUse = true ∧
    (c.secy i).conf.currentCipherSuite.xpn = true ∧ n = ⟨(c.txSa r).sak, (c.txSa r).ssci, (c.secy i).sci⟩
  | (i, .rxSa sc an), n => ∃ p r, (c.secy i).rxSc sc = some p ∧ (c.rxSc p).sa an = some r ∧ (c.rxSa r).inUse = true ∧
    (c.secy i).conf.currentCipherSuite.xpn = true ∧ n = ⟨(c.rxSa r).sak, (c.rxSa r).ssci, (c.rxSc p).sci⟩
  | (_, .pattern _), _ => False

/-- No two SAs of a direction share key, SSCI and SCI. -/
def Separate (c : MacsecConf) : Prop :=
  ∀ u v n, u.2.dir = v.2.dir → XpnSa c u n → XpnSa c v n → u = v

/-- Every SA was there before, with the same values. -/
def Shrinks (c c' : MacsecConf) : Prop := ∀ u n, XpnSa c' u n → XpnSa c u n

theorem Shrinks.refl (c : MacsecConf) : Shrinks c c := fun _ _ h => h

theorem Shrinks.trans (h : Shrinks c c₁) (h' : Shrinks c₁ c') : Shrinks c c' := fun u n hn => h u n (h' u n hn)

theorem Separate.shrink (hs : Separate c) (h : Shrinks c c') : Separate c' :=
  fun u v n hd hu hv => hs u v n hd (h u n hu) (h v n hv)

/-! ## Updates of one entry -/

theorem shrinks_setSecy {f : Secy → Secy}
    (htx : ∀ an r, (f (c.secy i)).txSc.sa an = some r → (c.secy i).txSc.sa an = some r)
    (hrx : ∀ sc p, (f (c.secy i)).rxSc sc = some p → (c.secy i).rxSc sc = some p)
    (hkey : (f (c.secy i)).conf.currentCipherSuite.xpn = true →
      (c.secy i).conf.currentCipherSuite.xpn = true ∧ (f (c.secy i)).sci = (c.secy i).sci) :
    Shrinks c (c.setSecy i f) := by
  rintro ⟨j, an | ⟨sc, an⟩ | a⟩ n h
  · obtain ⟨r, hsa, hu, hx, rfl⟩ := h
    by_cases hj : j = i
    · subst hj
      rw [setSecy_secy_self] at hsa hx ⊢
      obtain ⟨hx', hsci⟩ := hkey hx
      exact ⟨r, htx an r hsa, hu, hx', by rw [hsci]; rfl⟩
    · rw [setSecy_secy, if_neg hj] at hsa hx ⊢
      exact ⟨r, hsa, hu, hx, rfl⟩
  · obtain ⟨p, r, hsc, hsa, hu, hx, rfl⟩ := h
    by_cases hj : j = i
    · subst hj
      rw [setSecy_secy_self] at hsc hx
      exact ⟨p, r, hrx sc p hsc, hsa, hu, (hkey hx).1, rfl⟩
    · rw [setSecy_secy, if_neg hj] at hsc hx
      exact ⟨p, r, hsc, hsa, hu, hx, rfl⟩
  · exact h

theorem shrinks_setTxSa {f : TxSa → TxSa} (hf : (f (c.txSa r)).inUse = true →
    (c.txSa r).inUse = true ∧ (f (c.txSa r)).sak = (c.txSa r).sak ∧ (f (c.txSa r)).ssci = (c.txSa r).ssci) :
    Shrinks c (c.setTxSa r f) := by
  rintro ⟨j, an | ⟨sc, an⟩ | a⟩ n h
  · obtain ⟨q, hsa, hu, hx, rfl⟩ := h
    rw [setTxSa_txSa] at hu
    simp only [setTxSa_txSa]
    split at hu
    · next hq =>
      subst hq
      obtain ⟨hu', hsak, hssci⟩ := hf hu
      exact ⟨q, hsa, hu', hx, by rw [if_pos rfl, hsak, hssci]; rfl⟩
    · next hq => exact ⟨q, hsa, hu, hx, by rw [if_neg hq]; rfl⟩
  · exact h
  · exact h

theorem shrinks_setRxSc {f : RxSc → RxSc} (hf : ∀ an r, (f (c.rxSc p)).sa an = some r →
    (c.rxSc p).sa an = some r ∧ (f (c.rxSc p)).sci = (c.rxSc p).sci) : Shrinks c (c.setRxSc p f) := by
  rintro ⟨j, an | ⟨sc, an⟩ | a⟩ n h
  · exact h
  · obtain ⟨q, r, hsc, hsa, hu, hx, rfl⟩ := h
    rw [setRxSc_rxSc] at hsa
    simp only [setRxSc_rxSc]
    split at hsa
    · next hq =>
      subst hq
      obtain ⟨hsa', hsci⟩ := hf an r hsa
      exact ⟨q, r, hsc, hsa', hu, hx, by rw [if_pos rfl, hsci]; rfl⟩
    · next hq => exact ⟨q, r, hsc, hsa, hu, hx, by rw [if_neg hq]; rfl⟩
  · exact h

theorem shrinks_setRxSa {f : RxSa → RxSa} (hf : (f (c.rxSa r)).inUse = true →
    (c.rxSa r).inUse = true ∧ (f (c.rxSa r)).sak = (c.rxSa r).sak ∧ (f (c.rxSa r)).ssci = (c.rxSa r).ssci) :
    Shrinks c (c.setRxSa r f) := by
  rintro ⟨j, an | ⟨sc, an⟩ | a⟩ n h
  · exact h
  · obtain ⟨q, t, hsc, hsa, hu, hx, rfl⟩ := h
    rw [setRxSa_rxSa] at hu
    simp only [setRxSa_rxSa]
    split at hu
    · next hq =>
      subst hq
      obtain ⟨hu', hsak, hssci⟩ := hf hu
      exact ⟨q, t, hsc, hsa, hu', hx, by rw [if_pos rfl, hsak, hssci]; rfl⟩
    · next hq => exact ⟨q, t, hsc, hsa, hu, hx, by rw [if_neg hq]; rfl⟩
  · exact h

/-- An update of a SecY that concerns neither its SAs nor its suite and address. -/
theorem shrinks_settings {f : Secy → Secy} (htx : (f (c.secy i)).txSc.sa = (c.secy i).txSc.sa)
    (hrx : (f (c.secy i)).rxSc = (c.secy i).rxSc)
    (hx : (f (c.secy i)).conf.currentCipherSuite = (c.secy i).conf.currentCipherSuite)
    (hsci : (f (c.secy i)).sci = (c.secy i).sci) : Shrinks c (c.setSecy i f) :=
  shrinks_setSecy (fun an r h => by rwa [htx] at h) (fun sc p h => by rwa [hrx] at h) fun h => ⟨by rwa [hx] at h, hsci⟩

theorem shrinks_setTxSaAt {f : TxSa → TxSa}
    (hf : ∀ sa, (f sa).inUse = sa.inUse ∧ (f sa).sak = sa.sak ∧ (f sa).ssci = sa.ssci) :
    Shrinks c (c.setTxSaAt i an f) := by
  unfold setTxSaAt
  split
  · next r _ => exact shrinks_setTxSa fun hu => ⟨by rwa [(hf _).1] at hu, (hf _).2⟩
  · exact .refl c

theorem shrinks_setRxSaAt {f : RxSa → RxSa}
    (hf : ∀ sa, (f sa).inUse = sa.inUse ∧ (f sa).sak = sa.sak ∧ (f sa).ssci = sa.ssci) :
    Shrinks c (c.setRxSaAt i sc an f) := by
  unfold setRxSaAt
  split
  · next r _ => exact shrinks_setRxSa fun hu => ⟨by rwa [(hf _).1] at hu, (hf _).2⟩
  · exact .refl c

theorem shrinks_setRxScAt {f : RxSc → RxSc}
    (hf : ∀ x an r, (f x).sa an = some r → x.sa an = some r ∧ (f x).sci = x.sci) :
    Shrinks c (c.setRxScAt i sc f) := by
  unfold setRxScAt
  split
  · exact shrinks_setRxSc (hf _)
  · exact .refl c

/-! ## Updates of the calls -/

theorem shrinks_freeTxSa : Shrinks c (freeTxSa i c an r) :=
  (shrinks_setTxSa fun hu => by simp at hu).trans
    (shrinks_setSecy (fun _ _ => update_none) (fun _ _ => id) fun h => ⟨h, rfl⟩)

theorem shrinks_clearTxSc : Shrinks c (clearTxSc i c) :=
  shrinks_setSecy (fun _ _ h => by simp at h) (fun _ _ => id) fun h => ⟨h, rfl⟩

theorem shrinks_clearSecy : Shrinks c (clearSecy i c) :=
  shrinks_setSecy (fun _ _ h => by simp at h) (fun _ _ h => by simp at h) fun h => by simp [CipherSuite.xpn] at h

theorem shrinks_openTxSc : Shrinks c (openTxSc i c) := shrinks_settings rfl rfl rfl rfl

theorem shrinks_activateTxSa {oldAn : Nat} {b : Bool} : Shrinks c (activateTxSa i c an oldAn b) := by
  have hflag (c₁ : MacsecConf) :
      Shrinks c₁ (c₁.setTxSaAt i an fun sa => { sa with enabled := true, statusInUse := true }) :=
    shrinks_setTxSaAt fun _ => ⟨rfl, rfl, rfl⟩
  unfold MacsecConf.activateTxSa
  refine Shrinks.trans ?_ ((hflag _).trans (shrinks_settings rfl rfl rfl rfl))
  split
  · exact shrinks_setTxSaAt fun _ => ⟨rfl, rfl, rfl⟩
  · exact .refl c

theorem shrinks_disableTxSa : Shrinks c (disableTxSa i c an) := by
  refine (shrinks_settings ?_ rfl rfl rfl).trans (shrinks_setTxSaAt fun _ => ⟨rfl, rfl, rfl⟩)
  split <;> rfl

theorem shrinks_freeRxSc : Shrinks c (freeRxSc i c sc) := by
  have hidx : Shrinks c { c with rxScHwIdxInUse := c.rxScHwIdxInUse &&& ~~~(1#64 <<< (c.rxScAt i sc).hwScIdx) } :=
    fun _ _ h => h
  have hgone : ∀ c₁ : MacsecConf, Shrinks c₁ (c₁.setRxScAt i sc fun _ => {}) :=
    fun _ => shrinks_setRxScAt fun _ _ _ h => by cases h
  have hptr : ∀ c₁ : MacsecConf, Shrinks c₁ (c₁.setSecy i fun s => { s with rxSc := Function.update s.rxSc sc none }) :=
    fun _ => shrinks_setSecy (fun _ _ => id) (fun _ _ => update_none) fun h => ⟨h, rfl⟩
  exact (hidx.trans (hgone _)).trans (hptr _)

theorem shrinks_updateRxScConf {conf : RxScConf} : Shrinks c (updateRxScConf i c sc conf) :=
  shrinks_setRxScAt fun _ _ _ h => ⟨h, rfl⟩

theorem shrinks_freeRxSa : Shrinks c (freeRxSa i c sc an r) :=
  (shrinks_setRxSa fun hu => by simp at hu).trans (shrinks_setRxScAt fun _ _ _ h => ⟨update_none h, rfl⟩)

theorem shrinks_flagRxSa {b : Bool} : Shrinks c (flagRxSa i c sc an b) := shrinks_setRxSaAt fun _ => ⟨rfl, rfl, rfl⟩

theorem shrinks_freePattern {a : MatchAction} {d : Direction} : Shrinks c (freePattern i c a d r) := by
  have hrec : ∀ c₁ : MacsecConf, Shrinks c₁ (c₁.setPatternRecord i a d notInUse) :=
    fun _ => shrinks_settings rfl rfl rfl rfl
  have hpat : ∀ c₁ : MacsecConf, Shrinks c₁ (c₁.setPattern i a d fun p => { p with «match» := matchDisable }) :=
    fun _ => shrinks_settings rfl rfl rfl rfl
  refine Shrinks.trans ?_ ((hrec _).trans (hpat _))
  cases d with
  | egress =>
    have hfree : Shrinks c (c.setTxSa r fun sa => { sa with inUse := false }) := shrinks_setTxSa fun hu => by cases hu
    exact hfree
  | ingress =>
    have hfree : Shrinks c (c.setRxSa r fun sa => { sa with inUse := false }) := shrinks_setRxSa fun hu => by cases hu
    exact hfree

/-! ## Calls that set no SA -/

/-- A call leaves at most the SAs there were. -/
def shrinking : Frame (Dev MacsecConf H) where
  rel s s' := Shrinks s.conf s'.conf
  refl s := .refl s.conf
  trans := Shrinks.trans

section Within

variable {W : Set (IoReg × Nat)} {α : Type} {d : Direction}

theorem within_modifyConf_shrinking {f : MacsecConf → MacsecConf} (hf : ∀ c, Shrinks c (f c)) :
    Within shrinking (modifyConf f : Call H PUnit) := fun s => hf s.conf

theorem shrinking_hw {x : Call H α} (hx : Within (hwFrame bus W) x) : Within shrinking x :=
  hx.mono fun s s' h => by
    have hc : s'.conf = s.conf := h.1
    change Shrinks s.conf s'.conf
    rw [hc]
    exact .refl _

theorem shrinking_hw_steps {x : Call H α} (hx : ∀ c, Steps (hwFrame bus W) (fun s => s.conf = c) x fun _ _ => True) :
    Within shrinking x := by
  have hw : Within (hwFrame bus W) x := fun s => (hx s.conf s rfl).1
  exact shrinking_hw hw

theorem shrinking_saTcamKeyMaskSet {pattern : MatchPattern} :
    Within shrinking (saTcamKeyMaskSet bus d record i sc pattern) :=
  shrinking_hw_steps fun _ => steps_saTcamKeyMaskSet (Set.subset_univ _) (Set.subset_univ _) (Set.subset_univ _)

theorem shrinking_rxScCamSet : Within shrinking (rxScCamSet bus i sc) :=
  shrinking_hw_steps fun _ => steps_rxScCamSet (Set.subset_univ _) (Set.subset_univ _)

theorem shrinking_saXformSet : Within shrinking (saXformSet bus d record i an sc) :=
  shrinking_hw (within_saXformSet (Set.subset_univ _))

theorem shrinking_saFlowSet {a : MatchAction} : Within shrinking (saFlowSet bus d i an sc a) :=
  shrinking_hw (within_saFlowSet (Set.subset_univ _) (Set.subset_univ _))

theorem shrinking_saEnable {b : Bool} : Within shrinking (saEnable bus record d b) :=
  shrinking_hw (within_saEnable (Set.subset_univ _))

theorem shrinking_saInuse {b : Bool} : Within shrinking (saInuse bus record sc an d b) :=
  shrinking_hw (within_saInuse (Set.subset_univ _))

theorem shrinking_saSamInFlight : Within shrinking (saSamInFlight bus d) :=
  shrinking_hw (W := ∅) within_saSamInFlight

theorem shrinking_saTcamKeyMaskReset : Within shrinking (saTcamKeyMaskReset bus d record) :=
  shrinking_hw (within_saTcamKeyMaskReset (Set.subset_univ _) fun _ => Set.subset_univ _)

theorem shrinking_saXformReset : Within shrinking (saXformReset bus d record) :=
  shrinking_hw (within_saXformReset (Set.subset_univ _))

theorem shrinking_scFromSci {sci : Sci} : Within shrinking (scFromSci i sci : Call H Nat) := within_scFromSci

theorem shrinking_txSaActivate : Within shrinking (txSaActivate bus i an) := by
  refine within_getConf.bind fun c => Within.failIf.bind fun _ => Within.failIf.bind fun _ => ?_
  refine Within.failIf.bind fun _ => shrinking_saInuse.orFail.bind fun _ => ?_
  refine shrinking_saSamInFlight.orFail.bind fun _ => ?_
  refine shrinking_saEnable.orFail.bind fun _ => (Within.when fun _ => shrinking_saEnable.orFail).bind fun _ => ?_
  exact within_modifyConf_shrinking fun _ => shrinks_activateTxSa

theorem shrinking_txSaDisable : Within shrinking (txSaDisable bus i an) := by
  refine within_getConf.bind fun c => Within.failIf.bind fun _ => Within.failIf.bind fun _ => ?_
  refine shrinking_saEnable.orFail.bind fun _ => (Within.when fun _ => ?_).bind fun _ => ?_
  · exact shrinking_saInuse.orFail.bind fun _ => (shrinking_hw (within_samEntryCtrl (Set.subset_univ _))).orFail
  · exact within_modifyConf_shrinking fun _ => shrinks_disableTxSa

theorem shrinking_txSaDel : Within shrinking (txSaDel bus i an) := by
  refine within_getConf.bind fun c => Within.failIf.bind fun _ => Within.failIf.bind fun _ => ?_
  refine shrinking_saEnable.orFail.bind fun _ => ?_
  refine (Within.bind shrinking_saSamInFlight.attempt fun _ => Within.pure _).bind fun _ => ?_
  refine (Within.bind (shrinking_hw (W := ∅) within_txSaCountersGet).attempt fun _ => Within.pure _).bind fun _ => ?_
  refine (within_modifyConf_shrinking fun _ => shrinks_freeTxSa).bind fun _ => ?_
  exact shrinking_saTcamKeyMaskReset.orFail.bind fun _ => shrinking_saXformReset.orFail

theorem shrinking_txSasDel : Within shrinking (txSasDel bus i) := by
  refine Within.forUpTo _ fun an _ => within_getConf.bind fun c => Within.when fun _ => ?_
  exact shrinking_txSaDisable.orFail.bind fun _ => shrinking_txSaDel.orFail

theorem shrinking_txScDel : Within shrinking (txScDel bus i) := by
  refine within_getConf.bind fun c => Within.failIf.bind fun _ => shrinking_txSasDel.bind fun _ => ?_
  exact within_modifyConf_shrinking fun _ => shrinks_clearTxSc

theorem shrinking_txScSet : Within shrinking (txScSet i : Call H Unit) :=
  within_getConf.bind fun _ => Within.failIf.bind fun _ => within_modifyConf_shrinking fun _ => shrinks_openTxSc

theorem shrinking_rxSaActivate {sci : Sci} : Within shrinking (rxSaActivate bus i sci an) := by
  refine shrinking_scFromSci.bind fun sc => within_getConf.bind fun c => Within.failIf.bind fun _ => ?_
  refine Within.failIf.bind fun _ => Within.failIf.bind fun _ => ?_
  refine shrinking_saInuse.orFail.bind fun _ => shrinking_saEnable.orFail.bind fun _ => ?_
  exact within_modifyConf_shrinking fun _ => shrinks_flagRxSa

theorem shrinking_rxSaDisable {sci : Sci} : Within shrinking (rxSaDisable bus i sci an) := by
  refine Within.failIf.bind fun _ => shrinking_scFromSci.bind fun sc => within_getConf.bind fun c => ?_
  refine Within.failIf.bind fun _ => shrinking_saEnable.orFail.bind fun _ => shrinking_saInuse.orFail.bind fun _ => ?_
  exact within_modifyConf_shrinking fun _ => shrinks_flagRxSa

theorem shrinking_rxSaDel {sci : Sci} : Within shrinking (rxSaDel bus i sci an) := by
  refine Within.failIf.bind fun _ => shrinking_scFromSci.bind fun sc => within_getConf.bind fun c => ?_
  refine Within.failIf.bind fun _ => shrinking_saInuse.orFail.bind fun _ => ?_
  refine shrinking_saSamInFlight.orFail.bind fun _ => shrinking_saEnable.orFail.bind fun _ => ?_
  refine (Within.bind (shrinking_hw (W := ∅) within_rxSaCountersGet).attempt fun _ => Within.pure _).bind fun _ => ?_
  refine (within_modifyConf_shrinking fun _ => shrinks_freeRxSa).bind fun _ => ?_
  exact shrinking_saTcamKeyMaskReset.orFail.bind fun _ => shrinking_saXformReset.orFail

theorem shrinking_rxSasDel {sci : Sci} : Within shrinking (rxSasDel bus i sc sci) := by
  refine Within.forUpTo _ fun an _ => within_getConf.bind fun c => Within.when fun _ => ?_
  exact (Within.when fun _ => shrinking_rxSaDisable.orFail).bind fun _ => shrinking_rxSaDel.orFail

theorem shrinking_rxScDel {sci : Sci} : Within shrinking (rxScDel bus i sci) := by
  refine shrinking_scFromSci.bind fun sc => shrinking_rxSasDel.bind fun _ => within_getConf.bind fun c => ?_
  refine (shrinking_hw (within_csrWr (Set.subset_univ _))).bind fun _ => ?_
  refine (within_modifyConf_shrinking fun _ => shrinks_freeRxSc).bind fun _ => ?_
  exact shrinking_hw (within_updateGlbValidate (Set.subset_univ _))

theorem shrinking_rxScsDel : Within shrinking (rxScsDel bus i) :=
  Within.forUpTo _ fun _ _ => within_getConf.bind fun _ => Within.when fun _ => shrinking_rxScDel

theorem shrinking_patternDel {a : MatchAction} : Within shrinking (patternDel bus i d a) := by
  refine within_getConf.bind fun c => Within.failIf.bind fun _ => shrinking_saEnable.orFail.bind fun _ => ?_
  refine shrinking_saInuse.orFail.bind fun _ => shrinking_saTcamKeyMaskReset.orFail.bind fun _ => ?_
  exact within_modifyConf_shrinking fun _ => shrinks_freePattern

theorem shrinking_patternsDel : Within shrinking (patternsDel bus i) :=
  Within.forUpTo _ fun _ _ => within_getConf.bind fun _ => Within.when fun _ => shrinking_patternDel

theorem shrinking_secyConfDel : Within shrinking (secyConfDel bus i) := by
  refine within_getConf.bind fun c => (Within.when fun _ => shrinking_txScDel).bind fun _ => ?_
  refine shrinking_rxScsDel.bind fun _ => shrinking_patternsDel.bind fun _ => ?_
  exact within_modifyConf_shrinking fun _ => shrinks_clearSecy

theorem shrinking_secyControlledSet {b : Bool} : Within shrinking (secyControlledSet bus i b) := by
  refine within_getConf.bind fun c => Within.when fun _ => ?_
  refine Within.bind (Within.forUpTo _ fun sc _ => Within.forUpTo _ fun an _ => ?_) fun _ => ?_
  · exact Within.when fun _ => shrinking_saEnable.orFail
  · refine Within.bind (Within.forUpTo _ fun an _ => Within.when fun _ => shrinking_saEnable.orFail) fun _ => ?_
    exact within_modifyConf_shrinking fun _ => shrinks_settings rfl rfl rfl rfl

theorem shrinking_txScUpdatePriv {conf : TxScConf} : Within shrinking (txScUpdatePriv i conf : Call H Unit) := by
  refine within_getConf.bind fun c => (within_modifyConf_shrinking fun _ => ?_).bind fun _ => Within.failIf
  exact shrinks_settings rfl rfl rfl rfl

theorem shrinking_rxScUpdatePriv {sci : Sci} {conf : RxScConf} :
    Within shrinking (rxScUpdatePriv i sci conf : Call H Unit) := by
  refine shrinking_scFromSci.bind fun sc => within_getConf.bind fun c => Within.failIf.bind fun _ => ?_
  exact within_modifyConf_shrinking fun _ => shrinks_updateRxScConf

theorem shrinking_rxSaLowestPnUpdate {sci : Sci} {lowestPn : PktNum} :
    Within shrinking (rxSaLowestPnUpdate bus i sci an lowestPn) := by
  refine within_getConf.bind fun c => ?_
  cases c.scFromSciGet i sci with
  | none => exact Within.pure _
  | some sc =>
    refine Within.failIf.bind fun _ => Within.failIf.bind fun _ => Within.failIf.bind fun _ => ?_
    refine Within.failIf.bind fun _ => ?_
    refine (shrinking_hw (within_rxSaNextPnUpdate (Set.subset_univ _))).orFail.bind fun _ => ?_
    exact (shrinking_hw (W := ∅) within_csrRd).bind fun _ => Within.failIf

theorem shrinking_portCheck {port : MacsecPort} : Within shrinking (portCheck port : Call H Nat) := by
  refine within_getConf.bind fun c => Within.failIf.bind fun _ => ?_
  cases portFind c port with
  | some i => exact Within.pure _
  | none => exact Within.throw _

theorem shrinking_setPattern {a : MatchAction} {f : MatchPattern → MatchPattern} :
    Within shrinking (modifyConf fun c => setPattern i c a d f : Call H PUnit) :=
  within_modifyConf_shrinking fun _ => shrinks_settings rfl rfl rfl rfl

theorem shrinking_patternDelPriv {port : MacsecPort} {a : MatchAction} :
    Within shrinking (patternDelPriv bus port d a) := by
  refine shrinking_portCheck.orFail.bind fun i => (Within.when fun _ => shrinking_patternDel.orFail).bind fun _ => ?_
  exact shrinking_setPattern

theorem shrinking_bypassTagSetPriv {port : MacsecPort} {tag : Nat} :
    Within shrinking (bypassTagSetPriv port tag : Call H Unit) := by
  refine within_getConf.bind fun c => Within.failIf.bind fun _ => shrinking_portCheck.attempt.bind fun o => ?_
  cases o with
  | some i => exact within_modifyConf_shrinking fun _ => shrinks_settings rfl rfl rfl rfl
  | none => exact Within.pure _

end Within

/-! ## Calls that link a table entry -/

/-- The calls below keep the SAs separate; they say so of the tables they start from. -/
def separating : Frame (Dev MacsecConf H) := .keeps fun s => Separate s.conf

theorem separating_of_shrinking {α : Type} {x : Call H α} {Q : α → Dev MacsecConf H → Prop}
    (hx : Steps shrinking (fun s => s.conf = c) x Q) : Steps separating (fun s => s.conf = c) x Q :=
  hx.mono fun _ _ _ h hs => hs.shrink h

theorem steps_shrinking {α : Type} {x : Call H α} (hx : Within shrinking x) {P : Dev MacsecConf H → Prop} :
    Steps shrinking P x fun _ _ => True :=
  (within_iff.mp hx).pre fun _ _ => trivial

theorem steps_modifyConf_shrinking {f : MacsecConf → MacsecConf} (hf : Shrinks c (f c)) :
    Steps shrinking (fun s => s.conf = c) (modifyConf f : Call H PUnit) fun _ _ => True :=
  Steps.modify fun s hs => ⟨by rw [← hs] at hf; exact hf, trivial⟩

/-- A SecY without SAs may take any suite and address. -/
theorem shrinks_bare {f : Secy → Secy} (htx : ∀ an, (f (c.secy i)).txSc.sa an = none)
    (hrx : ∀ sc, (f (c.secy i)).rxSc sc = none) : Shrinks c (c.setSecy i f) := by
  rintro ⟨j, an | ⟨sc, an⟩ | a⟩ n h
  · obtain ⟨r, hsa, hu, hx, rfl⟩ := h
    rw [setSecy_secy] at hsa hx ⊢
    split at hsa
    · rw [htx] at hsa
      cases hsa
    · next hj =>
      rw [if_neg hj] at hx ⊢
      exact ⟨r, hsa, hu, hx, rfl⟩
  · obtain ⟨p, r, hsc, hsa, hu, hx, rfl⟩ := h
    rw [setSecy_secy] at hsc hx
    split at hsc
    · rw [hrx] at hsc
      cases hsc
    · next hj =>
      rw [if_neg hj] at hx
      exact ⟨p, r, hsc, hsa, hu, hx, rfl⟩
  · exact h

theorem Inv.shrinks_openSecy (h : Inv c) {port : MacsecPort} {conf : SecyConf} (hi : (c.secy i).inUse = false) :
    Shrinks c (MacsecConf.openSecy i c port conf) := by
  obtain ⟨-, htx, hrx⟩ := h.not_inUse hi
  unfold MacsecConf.openSecy
  exact shrinks_bare htx hrx

/-- The entry of `rx_sc` taken for a channel has no SAs. -/
theorem Inv.shrinks_addRxSc (h : Inv c) {hw : Nat} {sci : Sci} (hpl : rxScPlace c i = some (sc, p, hw)) :
    Shrinks c (MacsecConf.addRxSc i c sc p hw sci) := by
  obtain ⟨-, ⟨-, hu⟩, -⟩ := rxScPlace_spec hpl
  have hsa : ∀ an, (c.rxSc p).sa an = none := fun an => by
    cases hs : (c.rxSc p).sa an with
    | none => rfl
    | some r => simp [(h.rx_place hs).2] at hu
  rintro ⟨j, an | ⟨sc', an⟩ | a⟩ n hn
  · obtain ⟨r, hr, hru, hx, rfl⟩ := hn
    rw [addRxSc_part Secy.txSc fun _ _ => rfl] at hr
    rw [addRxSc_part Secy.conf fun _ _ => rfl] at hx
    exact ⟨r, hr, hru, hx, by rw [addRxSc_part Secy.sci fun _ _ => rfl]; rfl⟩
  · obtain ⟨q, r, hq, hr, hru, hx, rfl⟩ := hn
    have hqp : q ≠ p := by
      rintro rfl
      rw [(addRxSc_self i sc q hw sci c).2.2.2, hsa] at hr
      cases hr
    rw [addRxSc_other hqp] at hr ⊢
    rw [addRxSc_rxScPtr] at hq
    rw [addRxSc_part Secy.conf fun _ _ => rfl] at hx
    split at hq
    · cases hq
      exact absurd rfl hqp
    · exact ⟨q, r, hq, hr, hru, hx, rfl⟩
  · exact hn

/-- The record taken for a pattern is no SA. -/
theorem Inv.shrinks_linkPattern (h : Inv c) {a : MatchAction} {d : Direction} (hr : c.recordEmptyGet d = some r) :
    Shrinks c (MacsecConf.linkPattern i c a d r) := by
  obtain ⟨hu, -⟩ := recordEmptyGet_spec hr
  have hrec : ∀ c₁ : MacsecConf, Shrinks c₁ (c₁.setPatternRecord i a d r) := fun _ => shrinks_settings rfl rfl rfl rfl
  refine Shrinks.trans ?_ (hrec _)
  rintro ⟨j, an | ⟨sc, an⟩ | a'⟩ n hn
  · cases d with
    | ingress => exact hn
    | egress =>
      obtain ⟨t, ht, htu, hx, rfl⟩ := hn
      have htr : t ≠ r := by
        rintro rfl
        simp [saInUse, h.tx.live (s := .sa j an) ht] at hu
      simp only [setSaInUse, setSaRecord, setTxSa_txSa, if_neg htr] at htu ⊢
      exact ⟨t, ht, htu, hx, rfl⟩
  · cases d with
    | egress => exact hn
    | ingress =>
      obtain ⟨q, t, hq, ht, htu, hx, rfl⟩ := hn
      have htq : (c.rxSc q).sa an = some t := ht
      have htr : t ≠ r := by
        rintro rfl
        simp [saInUse, h.rx.live (s := .sa q an) htq] at hu
      simp only [setSaInUse, setSaRecord, setRxSa_rxSa, if_neg htr] at htu ⊢
      exact ⟨q, t, hq, htq, htu, hx, rfl⟩
  · exact hn

/-! ## Setting an SA -/

/-- One SA more, with a nonce that no SA of its direction has. -/
theorem Separate.join (hs : Separate c) (u₀ : Nat × Slot) (n₀ : Nonce)
    (hjoin : ∀ u n, XpnSa c' u n → XpnSa c u n ∨ (u = u₀ ∧ n = n₀))
    (hnew : ∀ v, v.2.dir = u₀.2.dir → ¬XpnSa c v n₀) : Separate c' := by
  intro u v n hd hu hv
  rcases hjoin u n hu with hu | ⟨rfl, hn⟩
  · rcases hjoin v n hv with hv | ⟨rfl, rfl⟩
    · exact hs u v n hd hu hv
    · exact absurd hu (hnew u hd)
  · rcases hjoin v n hv with hv | ⟨rfl, -⟩
    · rw [hn] at hv
      exact absurd hv (hnew v hd.symm)
    · rfl

/-- An accepted SSCI: no SA of the direction has this key, SSCI and SCI. -/
theorem Inv.isSsciValid_fresh (h : Inv c) {d : Direction} {sci : Sci} {ssci : Option Ssci} {sak : Sak}
    (hv : isSsciValid c d sci ssci sak = true) :
    ∃ x, ssci = some x ∧ ∀ v, v.2.dir = some d → ¬XpnSa c v ⟨sak, x, sci⟩ := by
  cases ssci with
  | none => simp [isSsciValid] at hv
  | some x =>
    refine ⟨x, rfl, ?_⟩
    simp only [isSsciValid, List.all_eq_true, List.mem_range, Bool.or_eq_true, Bool.not_eq_eq_eq_not,
      Bool.not_true] at hv
    rintro ⟨j, an | ⟨sc, an⟩ | a⟩ hd hn
    · cases hd
      obtain ⟨r, hsa, hu, -, hnonce⟩ := hn
      obtain ⟨han, htx⟩ := h.tx_place hsa
      have hin := h.txSc_secy htx
      have hall := (hv j (h.secy_lt hin)).resolve_left (by simp [hin])
      simp only [List.all_eq_true, List.mem_range] at hall
      have := hall an han
      simp only [Nonce.mk.injEq] at hnonce
      simp [hsa, hu, hnonce] at this
    · cases hd
      obtain ⟨p, r, hsc, hsa, hu, -, hnonce⟩ := hn
      obtain ⟨han, hpu⟩ := h.rx_place hsa
      have hin := h.sc_secy hsc
      have hall := (hv j (h.secy_lt hin)).resolve_left (by simp [hin])
      simp only [List.all_eq_true, List.mem_range] at hall
      have := hall sc (h.sc_place hsc)
      simp only [hsc, hpu, Bool.not_true, Bool.false_or, List.all_eq_true, List.mem_range] at this
      have := this an han
      simp only [Nonce.mk.injEq] at hnonce
      simp [hsa, hu, hnonce] at this
    · cases hd

theorem Inv.join_linkTxSa (h : Inv c) {nextPn : PktNum} {b : Bool} {sak : Sak} {ssci : Option Ssci}
    (hu : (c.txSa r).inUse = false) {u : Nat × Slot} {n : Nonce}
    (hn : XpnSa (MacsecConf.linkTxSa i c an r nextPn b sak ssci) u n) :
    XpnSa c u n ∨ (u = (i, .txSa an) ∧ (c.secy i).conf.currentCipherSuite.xpn = true ∧
      ∀ x, ssci = some x → n = ⟨sak, x, (c.secy i).sci⟩) := by
  have hconf : ∀ j, ((MacsecConf.linkTxSa i c an r nextPn b sak ssci).secy j).conf = (c.secy j).conf :=
    linkTxSa_part Secy.conf fun _ _ => rfl
  have hsci : ∀ j, ((MacsecConf.linkTxSa i c an r nextPn b sak ssci).secy j).sci = (c.secy j).sci :=
    linkTxSa_part Secy.sci fun _ _ => rfl
  obtain ⟨j, an' | ⟨sc, an'⟩ | a⟩ := u
  · obtain ⟨t, ht, htu, hx, rfl⟩ := hn
    rw [linkTxSa_sa] at ht
    rw [hconf] at hx
    rw [hsci]
    split at ht
    · next hj =>
      obtain ⟨rfl, rfl⟩ := hj
      cases ht
      refine Or.inr ⟨rfl, hx, ?_⟩
      rintro x rfl
      simp [MacsecConf.linkTxSa, setTxSa_txSa, hx]
    · have htr : t ≠ r := by
        rintro rfl
        simp [h.tx.live (s := .sa j an') ht] at hu
      rw [linkTxSa_other htr] at htu ⊢
      exact Or.inl ⟨t, ht, htu, hx, rfl⟩
  · obtain ⟨p, t, hp, ht, htu, hx, rfl⟩ := hn
    rw [hconf] at hx
    rw [linkTxSa_part Secy.rxSc fun _ _ => rfl] at hp
    exact Or.inl ⟨p, t, hp, ht, htu, hx, rfl⟩
  · exact hn.elim

theorem Inv.join_linkRxSa (h : Inv c) {lowestPn : PktNum} {sak : Sak} {ssci : Option Ssci}
    (hp : (c.secy i).rxSc sc = some p) (hu : (c.rxSa r).inUse = false) {u : Nat × Slot} {n : Nonce}
    (hn : XpnSa (MacsecConf.linkRxSa i c sc an r lowestPn sak ssci) u n) :
    XpnSa c u n ∨ (u = (i, .rxSa sc an) ∧ (c.secy i).conf.currentCipherSuite.xpn = true ∧
      ∀ x, ssci = some x → n = ⟨sak, x, (c.rxSc p).sci⟩) := by
  have htx : (MacsecConf.linkRxSa i c sc an r lowestPn sak ssci).txSa = c.txSa := by
    rw [MacsecConf.linkRxSa, setRxScAt_eq hp]
    rfl
  obtain ⟨j, an' | ⟨sc', an'⟩ | a⟩ := u
  · obtain ⟨t, ht, htu, hx, rfl⟩ := hn
    rw [linkRxSa_secy] at ht hx ⊢
    rw [htx] at htu ⊢
    exact Or.inl ⟨t, ht, htu, hx, rfl⟩
  · obtain ⟨q, t, hq, ht, htu, hx, rfl⟩ := hn
    rw [linkRxSa_secy] at hq hx
    rw [linkRxSa_sa hp] at ht
    rw [linkRxSa_rxSc_part hp RxSc.sci fun _ _ => rfl]
    split at ht
    · next hqa =>
      obtain ⟨rfl, rfl⟩ := hqa
      obtain ⟨rfl, rfl⟩ : j = i ∧ sc' = sc := by simpa using h.sc.inj (s := (j, sc')) (t := (i, sc)) hq hp
      cases ht
      refine Or.inr ⟨rfl, hx, ?_⟩
      rintro x rfl
      simp [MacsecConf.linkRxSa, setRxSa_rxSa, hx]
    · have htr : t ≠ r := by
        rintro rfl
        simp [h.rx.live (s := .sa q an') ht] at hu
      rw [linkRxSa_other htr] at htu ⊢
      exact Or.inl ⟨q, t, hq, ht, htu, hx, rfl⟩
  · exact hn.elim

/-- What both calls come to: under an XPN suite the SSCI was accepted, and the update joins one SA. -/
theorem Inv.separate_join (h : Inv c) (hs : Separate c) {d : Direction} {sci : Sci} {ssci : Option Ssci} {sak : Sak}
    {xpn : Bool} (u₀ : Nat × Slot) (hd : u₀.2.dir = some d) (hv : ¬(xpn = true ∧ isSsciValid c d sci ssci sak = false))
    (hjoin : ∀ u n, XpnSa c' u n →
      XpnSa c u n ∨ (u = u₀ ∧ xpn = true ∧ ∀ x, ssci = some x → n = ⟨sak, x, sci⟩)) : Separate c' := by
  cases hx : xpn with
  | false =>
    refine hs.shrink fun u n hn => (hjoin u n hn).resolve_right ?_
    simp [hx]
  | true =>
    obtain ⟨x, rfl, hfresh⟩ := h.isSsciValid_fresh (by simpa [hx] using hv)
    refine hs.join u₀ ⟨sak, x, sci⟩ (fun u n hn => ?_) fun v hdv => ?_
    · exact (hjoin u n hn).imp_right fun hj => ⟨hj.1, hj.2.2 x rfl⟩
    · exact hfresh v (hdv.trans hd)

theorem separating_update {α : Type} {f : MacsecConf → MacsecConf} {x : Call H α} (hf : Separate c → Separate (f c))
    (hx : Within shrinking x) :
    Steps separating (fun s => s.conf = c) ((modifyConf f : Call H PUnit) >>= fun _ => x) fun _ _ => True := by
  refine Steps.bind (Q := fun _ _ => True) (Steps.modify fun s hs => ⟨?_, trivial⟩) fun _ => ?_
  · subst hs
    exact hf
  · exact (steps_shrinking hx).mono fun _ _ _ h hs => hs.shrink h

theorem separating_txSaSet (h : Inv c) {nextPn : PktNum} {b : Bool} {sak : Sak} {ssci : Option Ssci} :
    Steps separating (fun s => s.conf = c) (txSaSet bus i an nextPn b sak ssci) fun _ _ => True := by
  refine steps_getConf_bind (Steps.failIf_bind fun _ => Steps.failIf_bind fun _ => Steps.failIf_bind fun _ => ?_)
  refine Steps.failIf_bind fun hv => Steps.failIf_bind fun _ => ?_
  cases hr : c.recordEmptyGet .egress with
  | none => exact Steps.throw
  | some record =>
    have hu : (c.txSa record).inUse = false := (recordEmptyGet_spec hr).1
    refine separating_update (fun hs => ?_) (shrinking_saXformSet.orFail.bind fun _ => ?_)
    · exact h.separate_join hs (i, .txSa an) rfl hv fun u n hn => h.join_linkTxSa hu hn
    · exact shrinking_saFlowSet.orFail.bind fun _ => shrinking_saTcamKeyMaskSet.orFail

theorem separating_rxSaSet (h : Inv c) {sci : Sci} {lowestPn : PktNum} {sak : Sak} {ssci : Option Ssci} :
    Steps separating (fun s => s.conf = c) (rxSaSet bus i sci an lowestPn sak ssci) fun _ _ => True := by
  refine steps_scFromSci_bind fun sc p hget hp _ => steps_getConf_bind (Steps.failIf_bind fun _ => ?_)
  refine Steps.failIf_bind fun hv => Steps.failIf_bind fun _ => Steps.failIf_bind fun _ => ?_
  obtain ⟨q, hq, -, rfl⟩ := scFromSciGet_spec hget
  cases hr : c.recordEmptyGet .ingress with
  | none => exact Steps.throw
  | some record =>
    have hu : (c.rxSa record).inUse = false := (recordEmptyGet_spec hr).1
    refine separating_update (fun hs => ?_) (shrinking_saXformSet.orFail.bind fun _ => ?_)
    · exact h.separate_join hs (i, .rxSa sc an) rfl hv fun u n hn => h.join_linkRxSa hq hu hn
    · refine shrinking_saTcamKeyMaskSet.orFail.bind fun _ => shrinking_saFlowSet.orFail.bind fun _ => ?_
      exact shrinking_rxScCamSet.orFail

/-! ## The other calls -/

theorem separating_secyConfAddPriv (h : Inv c) {port : MacsecPort} {conf : SecyConf} :
    Steps separating (fun s => s.conf = c) (secyConfAddPriv port conf : Call H Unit) fun _ _ => True := by
  refine Steps.failIf_bind fun _ => ?_
  refine Steps.bind (Q := fun j s => s.conf = c ∧ portVacancy c port = .ok j) ?_ fun j => Steps.imp fun hv => ?_
  · refine steps_getConf_bind (Steps.failIf_bind fun _ => ?_)
    cases hv : portVacancy c port with
    | ok j => exact Steps.pure fun s h => ⟨h, rfl⟩
    | error e => exact Steps.throw
  · refine steps_getConf_bind (Steps.failIf_bind fun _ => Steps.failIf_bind fun _ => ?_)
    exact separating_update (fun hs => hs.shrink (h.shrinks_openSecy (portVacancy_ok hv).2)) Within.failIf

theorem separating_rxScAdd (h : Inv c) {sci : Sci} :
    Steps separating (fun s => s.conf = c) (rxScAdd i sci : Call H Unit) fun _ _ => True := by
  refine steps_getConf_bind (Steps.failIf_bind fun _ => Steps.failIf_bind fun _ => Steps.failIf_bind fun _ => ?_)
  cases hpl : rxScPlace c i with
  | none => exact Steps.throw
  | some t =>
    obtain ⟨sc, p, hw⟩ := t
    exact separating_of_shrinking (steps_modifyConf_shrinking (h.shrinks_addRxSc hpl))

theorem separating_patternSet (h : Inv c) {d : Direction} {a : MatchAction} {pattern : MatchPattern} :
    Steps separating (fun s => s.conf = c) (patternSet bus i d a pattern) fun _ _ => True := by
  refine steps_getConf_bind (Steps.failIf_bind fun _ => ?_)
  cases hr : c.recordEmptyGet d with
  | none => exact Steps.throw
  | some record =>
    refine Steps.failIf_bind fun _ => ?_
    have hpol : Within shrinking (saTcamPolicyUnctrlDrop bus record d a) :=
      shrinking_hw (within_saTcamPolicyUnctrlDrop (Set.subset_univ _))
    refine separating_update (fun hs => hs.shrink (h.shrinks_linkPattern hr)) ?_
    exact shrinking_saTcamKeyMaskSet.orFail.bind fun _ => hpol.orFail.bind fun _ => shrinking_saEnable.orFail

theorem separating_patternSetPriv (h : Inv c) {port : MacsecPort} {d : Direction} {a : MatchAction}
    {pattern : MatchPattern} :
    Steps separating (fun s => s.conf = c) (patternSetPriv bus port d a pattern) fun _ _ => True := by
  refine steps_getConf_bind (Steps.failIf_bind fun _ => Steps.failIf_bind fun _ => ?_)
  refine Steps.bind (Steps.orFail steps_portCheck) fun i => Steps.imp fun _ => ?_
  refine Steps.bind (Q := fun _ _ => True) ?_ fun _ => ?_
  · exact Steps.when (fun _ => (separating_patternSet h).orFail) fun _ _ _ => trivial
  · exact (steps_shrinking shrinking_setPattern).mono fun _ _ _ h hs => hs.shrink h

/-! ## Reconfiguring a SecY -/

/-- What a SecY update has left before round `k` of its receive channels: the other SecYs' SAs, none of its transmit
channel, and none of the first `k` receive channels when the SecY's SCI is valid. -/
structure Emptied (i : Nat) (sci : Sci) (c : MacsecConf) (k : Nat) (c₁ : MacsecConf) : Prop where
  others : ∀ u n, u.1 ≠ i → XpnSa c₁ u n → XpnSa c u n
  tx : ∀ an n, ¬XpnSa c₁ (i, .txSa an) n
  rx : isSciValid sci = true → ∀ sc < k, ∀ an n, ¬XpnSa c₁ (i, .rxSa sc an) n

theorem Emptied.shrink {sci : Sci} {k : Nat} (h : Emptied i sci c k c₁) (hs : Shrinks c₁ c') :
    Emptied i sci c k c' where
  others u n hu hn := h.others u n hu (hs u n hn)
  tx an n hn := h.tx an n (hs _ n hn)
  rx hv sc hsc an n hn := h.rx hv sc hsc an n (hs _ n hn)

/-- The round of a receive channel that is left out, or whose SAs are all gone. -/
theorem Emptied.round {sci : Sci} {k : Nat} (h : Emptied i sci c k c₁)
    (hk : isSciValid sci = true → ∀ an n, ¬XpnSa c₁ (i, .rxSa k an) n) : Emptied i sci c (k + 1) c₁ := by
  refine ⟨h.others, h.tx, fun hv sc hsc => ?_⟩
  rcases Nat.lt_succ_iff_lt_or_eq.mp hsc with hsc | rfl
  · exact h.rx hv sc hsc
  · exact hk hv

/-- The tables between two rounds. -/
structure Rounds (i : Nat) (sci : Sci) (c : MacsecConf) (k : Nat) (c₁ : MacsecConf) : Prop where
  held : Held wholeScope i c₁
  addr : (c₁.secy i).sci = sci
  emptied : Emptied i sci c k c₁

theorem Held.rxSa_none (h : Held wholeScope i c) {n : Nonce}
    (hsc : ¬(((c.secy i).rxSc sc).isSome = true ∧ (c.rxScAt i sc).inUse = true)) : ¬XpnSa c (i, .rxSa sc an) n := by
  rintro ⟨p, r, hp, hr, -⟩
  apply hsc
  rw [rxScAt_eq hp, hp]
  exact ⟨rfl, (h.inv.rx_place hr).2⟩

theorem steps_rxScUpdate_rounds {sci : Sci} {conf : SecyConf} {k : Nat} :
    Steps Frame.all (fun s => Rounds i sci c k s.conf) (rxScUpdate bus i conf k)
      fun _ s => Rounds i sci c (k + 1) s.conf := by
  intro s hs
  refine steps_getConf_bind (c := s.conf) ?_ s rfl
  refine Steps.when (fun hcond => ?_) fun s' hcond hs' => ?_
  · obtain ⟨p, hp⟩ := Option.isSome_iff_exists.mp hcond.1
    let conf' : RxScConf := ⟨conf.validateFrames, conf.replayProtect, conf.replayWindow, conf.confidentialityOffset⟩
    have hupd : RxSasDeleted wholeScope i k p (updateRxScConf i s.conf k conf') 0 (updateRxScConf i s.conf k conf') :=
      hs.held.update hp
    refine Steps.bind (Q := fun _ t => t.conf = updateRxScConf i s.conf k conf') ?_ fun _ => ?_
    · exact Steps.modify fun t ht => ⟨trivial, by rw [← ht]⟩
    · have hp' : ((updateRxScConf i s.conf k conf').secy i).rxSc k = some p := by rw [updateRxScConf_secy, hp]
      have htrace : Steps (trace bus wholeScope i) _ _ _ := steps_rxSasDel hp' (Set.mem_univ _)
      have hdel := htrace.mono (G := Frame.all) fun _ _ _ _ => trivial
      rw [updateRxScConf_sci conf' hp, ← rxScAt_eq hp] at hdel
      have hshr : Shrinks s.conf (updateRxScConf i s.conf k conf') := shrinks_updateRxScConf
      have hkeep (t t' : Dev MacsecConf H) (ht : Emptied i sci c k t.conf) (h : shrinking.rel t t') :
          Emptied i sci c k t'.conf := ht.shrink h
      refine (hdel.alongside shrinking_rxSasDel hkeep).weaken (fun t ht => ?_) fun _ t ht => ?_
      · rw [ht]
        exact ⟨hupd, hs.emptied.shrink hshr⟩
      · obtain ⟨hd, he⟩ := ht
        have hsecy : t.conf.secy = s.conf.secy := by rw [hd.secy, updateRxScConf_secy]
        refine ⟨hd.held hs.held, by rw [hsecy, hs.addr], he.round fun _ an n hn => ?_⟩
        obtain ⟨q, r, hq, hr, -⟩ := hn
        rw [hsecy, hp] at hq
        cases hq
        rw [hd.all] at hr
        exact nomatch hr
  · rw [hs']
    refine ⟨hs.held, hs.addr, hs.emptied.round fun hv an n => hs.held.rxSa_none fun hin => hcond ⟨hin.1, hin.2, ?_⟩⟩
    rw [hs.addr, hv]

/-- When the call returns, the SecY has no SAs left, and the other SecYs have what they had. -/
theorem steps_secyConfUpdate_shrinks (h : Inv c) (hi : (c.secy i).inUse = true) (conf : SecyConf) :
    Steps Frame.all (fun s => s.conf = c) (secyConfUpdate bus i conf) fun _ s => Shrinks c s.conf := by
  refine Steps.failIf_bind fun _ => ?_
  have hoff : ∀ u n, u.1 ≠ i → XpnSa (MacsecConf.updateSecyConf i c conf) u n → XpnSa c u n := by
    rintro ⟨j, an | ⟨sc, an⟩ | a⟩ n hj hn
    · obtain ⟨r, hsa, hu, hx, rfl⟩ := hn
      rw [MacsecConf.updateSecyConf, setSecy_secy, if_neg hj] at hsa hx ⊢
      exact ⟨r, hsa, hu, hx, rfl⟩
    · obtain ⟨p, r, hp, hsa, hu, hx, rfl⟩ := hn
      rw [MacsecConf.updateSecyConf, setSecy_secy, if_neg hj] at hp hx
      exact ⟨p, r, hp, hsa, hu, hx, rfl⟩
    · exact hn
  refine Steps.bind (Q := fun _ s => s.conf = MacsecConf.updateSecyConf i c conf) ?_ fun _ => ?_
  · exact Steps.modify fun s hs => ⟨trivial, by rw [← hs]⟩
  have h₁ : Inv (MacsecConf.updateSecyConf i c conf) := h.updateSecyConf hi
  have hi₁ : ((MacsecConf.updateSecyConf i c conf).secy i).inUse = true := by simpa [MacsecConf.updateSecyConf] using hi
  obtain ⟨sci, hsci⟩ : ∃ sci, ((MacsecConf.updateSecyConf i c conf).secy i).sci = sci := ⟨_, rfl⟩
  refine Steps.bind (Q := fun _ s => Rounds i sci c 0 s.conf) ?_ fun _ => ?_
  · have hdis : DisablesTxSa Frame.all bus wholeScope i := fun c an h hf =>
      (disablesTxSa_trace (Set.mem_univ _) c an h hf).mono fun _ _ _ _ => trivial
    have hdel := steps_txSasDel (c := MacsecConf.updateSecyConf i c conf) (fun _ _ _ => trivial) hdis (Set.mem_univ _)
    have hkeep : ∀ t t' : Dev MacsecConf H, (∀ u n, u.1 ≠ i → XpnSa t.conf u n → XpnSa c u n) → shrinking.rel t t' →
        ∀ u n, u.1 ≠ i → XpnSa t'.conf u n → XpnSa c u n := fun _ _ ht hs u n hu hn => ht u n hu (hs u n hn)
    refine (hdel.alongside shrinking_txSasDel hkeep).weaken (fun s hs => ?_) fun _ s hs => ?_
    · rw [hs]
      exact ⟨⟨h₁, h₁.fits_wholeScope, .refl, fun an han => by omega⟩, hoff⟩
    · obtain ⟨hd, ho⟩ := hs
      obtain ⟨t, ht, -⟩ := hd.only
      refine ⟨⟨hd.inv, hd.fits, by rw [ht]; exact hi₁⟩, by rw [ht]; exact hsci, ho, ?_, fun _ sc hsc => by omega⟩
      rintro an n ⟨r, hr, -⟩
      rw [hd.all] at hr
      cases hr
  · refine Steps.bind (Steps.forUpTo (I := fun k (s : Dev MacsecConf H) => Rounds i sci c k s.conf) maxRxSc
      fun k _ => steps_rxScUpdate_rounds) fun _ => ?_
    intro s hs
    refine steps_getConf_bind (c := s.conf) ?_ s rfl
    refine Steps.failIf.post ?_
    rintro - s' ⟨hs', hcond⟩ ⟨j, slot⟩ n hn
    rw [hs'] at hn
    by_cases hj : j = i
    · subst hj
      obtain an | ⟨sc, an⟩ | a := slot
      · exact absurd hn (hs.emptied.tx an n)
      · have hin : ((s.conf.secy j).rxSc sc).isSome = true ∧ (s.conf.rxScAt j sc).inUse = true := by
          by_contra hno
          exact hs.held.rxSa_none hno hn
        obtain ⟨p, hp⟩ := Option.isSome_iff_exists.mp hin.1
        have hsc : sc < maxRxSc := hs.held.inv.sc_place hp
        cases hv : isSciValid sci with
        | false => exact absurd ⟨⟨sc, hsc, hin⟩, by rw [hs.addr, hv]⟩ hcond
        | true => exact absurd hn (hs.emptied.rx hv sc hsc an n)
      · exact hn.elim
    · exact hs.emptied.others _ n hj hn

/-! ## Runs -/

/-- A SecY update that stores the new configuration also completes. -/
def Completes (bus : PortBus H) (port : MacsecPort) (op : Op) (s : Dev MacsecConf H) : Prop :=
  ∀ conf, op = .secyConfUpdate conf →
    errorOf (op.call bus port) s = none ∨ (final (op.call bus port) s).conf = s.conf

/-- A step in which no SecY update stops halfway. -/
inductive SettledStep (bus : PortBus H) : Dev MacsecConf H → Dev MacsecConf H → Prop
  | call (port : MacsecPort) (op : Op) (s : Dev MacsecConf H) : Completes bus port op s →
      SettledStep bus s (final (op.call bus port) s)
  | drift (s : Dev MacsecConf H) (h : H) : bus.drift s.hw h → SettledStep bus s { s with hw := h }

theorem SettledStep.step {s s' : Dev MacsecConf H} (h : SettledStep bus s s') : Step bus s s' := by
  cases h with
  | call port op s _ => exact .call port op s
  | drift s h hd => exact .drift s h hd

/-- A call that looks up the SecY of its port. -/
theorem separating_portCheck_bind {port : MacsecPort} {f : Nat → Call H Unit}
    (hf : ∀ i, (c.secy i).inUse = true → Steps separating (fun s => s.conf = c) (f i) fun _ _ => True) :
    Steps separating (fun s => s.conf = c) (portCheck port >>= f) fun _ _ => True :=
  steps_portCheck.bind fun i => Steps.imp fun hi => hf i (hasPort_inUse (portFind_spec hi).2)

theorem separating_of_within {x : Call H Unit} (hx : Within shrinking x) :
    Steps separating (fun s => s.conf = c) x fun _ _ => True :=
  separating_of_shrinking (steps_shrinking hx)

/-- A call that is no SecY update. -/
theorem separating_op (h : Inv c) {op : Op} {port : MacsecPort} (hop : ∀ conf, op ≠ .secyConfUpdate conf) :
    Steps separating (fun s => s.conf = c) (op.call bus port) fun _ _ => True := by
  cases op with
  | secyConfAdd conf => exact separating_secyConfAddPriv h
  | secyConfUpdate conf => exact absurd rfl (hop conf)
  | secyConfDel => exact separating_of_within (shrinking_portCheck.bind fun _ => shrinking_secyConfDel)
  | secyControlledSet enable =>
    exact separating_of_within (shrinking_portCheck.bind fun _ => shrinking_secyControlledSet)
  | bypassTagSet tag => exact separating_of_within shrinking_bypassTagSetPriv
  | txScSet => exact separating_of_within (shrinking_portCheck.bind fun _ => shrinking_txScSet)
  | txScUpdate conf =>
    exact separating_of_within (Within.failIf.bind fun _ => shrinking_portCheck.bind fun _ => shrinking_txScUpdatePriv)
  | txScDel => exact separating_of_within (shrinking_portCheck.bind fun _ => shrinking_txScDel)
  | rxScAdd sci => exact separating_portCheck_bind fun _ _ => separating_rxScAdd h
  | rxScUpdate sci conf =>
    exact separating_of_within (Within.failIf.bind fun _ => shrinking_portCheck.bind fun _ => shrinking_rxScUpdatePriv)
  | rxScDel sci => exact separating_of_within (shrinking_portCheck.bind fun _ => shrinking_rxScDel)
  | txSaSet an nextPn b sak ssci => exact separating_portCheck_bind fun _ _ => separating_txSaSet h
  | txSaActivate an => exact separating_of_within (shrinking_portCheck.bind fun _ => shrinking_txSaActivate)
  | txSaDisable an => exact separating_of_within (shrinking_portCheck.bind fun _ => shrinking_txSaDisable)
  | txSaDel an => exact separating_of_within (shrinking_portCheck.bind fun _ => shrinking_txSaDel)
  | rxSaSet sci an lowestPn sak ssci => exact separating_portCheck_bind fun _ _ => separating_rxSaSet h
  | rxSaActivate sci an => exact separating_of_within (shrinking_portCheck.bind fun _ => shrinking_rxSaActivate)
  | rxSaDisable sci an => exact separating_of_within (shrinking_portCheck.bind fun _ => shrinking_rxSaDisable)
  | rxSaDel sci an => exact separating_of_within (shrinking_portCheck.bind fun _ => shrinking_rxSaDel)
  | rxSaLowestPnUpdate sci an lowestPn =>
    exact separating_of_within (shrinking_portCheck.bind fun _ => shrinking_rxSaLowestPnUpdate)
  | patternSet d a pattern => exact separating_patternSetPriv h
  | patternDel d a => exact separating_of_within shrinking_patternDelPriv

theorem steps_secyConfUpdate_op (h : Inv c) {port : MacsecPort} (conf : SecyConf) :
    Steps Frame.all (fun s => s.conf = c) ((Op.secyConfUpdate conf).call bus port) fun _ s => Shrinks c s.conf :=
  Steps.failIf_bind fun _ => steps_portCheck.bind fun _ => Steps.imp fun hi =>
    steps_secyConfUpdate_shrinks h (hasPort_inUse (portFind_spec hi).2) conf

theorem SettledStep.separate {s s' : Dev MacsecConf H} (hst : SettledStep bus s s') (h : Inv s.conf)
    (hs : Separate s.conf) : Separate s'.conf := by
  cases hst with
  | drift _ _ => exact hs
  | call port op _ hok =>
    by_cases hop : ∀ conf, op ≠ .secyConfUpdate conf
    · exact (separating_op h hop s rfl).1 hs
    · obtain ⟨conf, hconf⟩ := not_forall.mp hop
      obtain rfl := not_not.mp hconf
      rcases hok conf rfl with hnone | hkept
      · exact hs.shrink ((steps_secyConfUpdate_op h conf).ok rfl (ok_final hnone))
      · rw [hkept]
        exact hs

theorem separate_init (glb : Glb) : Separate (macsecInit glb) := by
  rintro ⟨i, an | ⟨sc, an⟩ | a⟩ v n - hu -
  · obtain ⟨r, hr, -⟩ := hu
    cases hr
  · obtain ⟨p, r, hp, -⟩ := hu
    cases hp
  · exact hu.elim

/-- The states of a port after `macsec_init_set`, when no SecY update stopped halfway. -/
def SettledReachable (bus : PortBus H) (s : Dev MacsecConf H) : Prop :=
  ∃ glb h, Relation.ReflTransGen (SettledStep bus) { conf := macsecInit glb, hw := h } s

theorem SettledReachable.reachable {s : Dev MacsecConf H} (hs : SettledReachable bus s) : Reachable bus s := by
  obtain ⟨glb, h, hrun⟩ := hs
  exact ⟨glb, h, Relation.ReflTransGen.mono (fun _ _ => SettledStep.step) _ _ hrun⟩

theorem settled_calls (ops : List (MacsecPort × Op)) (hops : ∀ op ∈ ops, ∀ conf, op.2 ≠ .secyConfUpdate conf)
    (s : Dev MacsecConf H) : Relation.ReflTransGen (SettledStep bus) s (calls bus ops s) := by
  induction ops generalizing s with
  | nil => exact .refl
  | cons op ops ih =>
    have hop : Completes bus op.1 op.2 s := fun conf hconf => absurd hconf (hops op (by simp) conf)
    exact .head (.call op.1 op.2 s hop) (ih (fun op' h => hops op' (by simp [h])) _)

/-! ### Two SecYs with one key -/

def benchXpn : SecyConf := { benchSecy with currentCipherSuite := .gcmAesXpn128 }

/-- The transmit SA of two ports, with the same key and SSCI. -/
def sharedRun : List (MacsecPort × Op) :=
  [1, 2].flatMap fun portId =>
    [(benchPort portId, .secyConfAdd benchXpn), (benchPort portId, .txScSet),
      (benchPort portId, .txSaSet 0 1 true {} (some (Vector.replicate 4 7)))]

/-- Two receive SAs with the same key, and a change of suite that stops at the SecY's invalid address. -/
def haltedRun : List (MacsecPort × Op) :=
  let peer : Sci := { macAddr := Vector.replicate 6 2#8, portId := 1 }
  [(benchPort 1, .secyConfAdd benchSecy), (benchPort 1, .rxScAdd peer), (benchPort 1, .rxSaSet peer 0 1 {} none),
    (benchPort 1, .rxSaSet peer 1 1 {} none),
    (benchPort 1, .secyConfUpdate { benchXpn with macAddr := Vector.replicate 6 0#8 })]

/-- What the runs leave. -/
theorem nonce_runs :
    (let c := (calls bench.toBus sharedRun benchInit).conf
     ((c.secy 0).txSc.sa 0 = some 0 ∧ (c.secy 1).txSc.sa 0 = some 1) ∧
      (c.txSa 0).inUse = true ∧ (c.txSa 1).inUse = true ∧ (c.secy 0).conf.currentCipherSuite.xpn = true ∧
      (c.secy 1).conf.currentCipherSuite.xpn = true ∧ (c.txSa 0).sak = (c.txSa 1).sak ∧
      (c.txSa 0).ssci = (c.txSa 1).ssci) ∧
    (let c := (calls bench.toBus haltedRun benchInit).conf
     (c.secy 0).rxSc 0 = some 0 ∧ (c.rxSc 0).sa 0 = some 0 ∧ (c.rxSc 0).sa 1 = some 1 ∧
      (c.rxSa 0).inUse = true ∧ (c.rxSa 1).inUse = true ∧ (c.secy 0).conf.currentCipherSuite.xpn = true ∧
      (c.rxSa 0).sak = (c.rxSa 1).sak ∧ (c.rxSa 0).ssci = (c.rxSa 1).ssci) := by
  decide +kernel

/-- No two SAs of a direction under XPN suites share key, salt and SSCI. -/
def NoncesUnique (c : MacsecConf) : Prop :=
  ∀ u v n m, u.2.dir = v.2.dir → XpnSa c u n → XpnSa c v m → n.sak = m.sak → n.ssci = m.ssci → u = v

end Lan80xx.Macsec
