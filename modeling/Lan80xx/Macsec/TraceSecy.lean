import Lan80xx.Macsec.TraceRx

/-!
# MACsec: the small steps of channels, patterns and SecYs

The loops over SAs, channels and patterns carry what they have deleted so far and what of the SecY they keep
(`TxOnly`, `RxOnly`, `PatternOnly`); deleting a SecY runs them one after the other. `trace_op` is the result for the
exported calls.
-/

namespace Lan80xx.Macsec

open Fallible RegBus Ownership MacsecConf

variable {H : Type} {bus : PortBus H} {sp : Scope} {i an sc p r : Nat} {c c₁ c₂ : MacsecConf}

/-! ## Bounds and deletions -/

theorem Fits.of_le (hf : Fits sp c) (hr : ∀ d r, c₁.saInUse d r = true → c.saInUse d r = true)
    (hh : ∀ p, (c₁.rxSc p).inUse = true → (c.rxSc p).inUse = true ∧ (c₁.rxSc p).hwScIdx = (c.rxSc p).hwScIdx) :
    Fits sp c₁ where
  recs hu := hf.recs (hr _ _ hu)
  hws hu := by
    rw [(hh _ hu).2]
    exact hf.hws (hh _ hu).1

theorem setTxSaAt_secy {f : TxSa → TxSa} : (c.setTxSaAt i an f).secy = c.secy := by
  unfold setTxSaAt
  split <;> rfl

theorem setTxSaAt_rx {f : TxSa → TxSa} : (c.setTxSaAt i an f).rxSc = c.rxSc ∧ (c.setTxSaAt i an f).rxSa = c.rxSa := by
  unfold setTxSaAt
  split <;> exact ⟨rfl, rfl⟩

theorem setTxSaAt_part {β : Type} {f : TxSa → TxSa} (g : TxSa → β) (hg : ∀ sa, g (f sa) = g sa) (r : Nat) :
    g ((c.setTxSaAt i an f).txSa r) = g (c.txSa r) := by
  unfold setTxSaAt
  split
  · exact setTxSa_part g (hg _) r
  · rfl

theorem disableTxSa_secy (j : Nat) : (disableTxSa i c an).secy j =
    if j = i then { c.secy i with txSc :=
      if an = (c.secy i).txSc.encodingSa then { (c.secy i).txSc with encodingSa := 0, encipheringSa := 0 }
      else (c.secy i).txSc } else c.secy j := by
  simp only [disableTxSa, setTxSaAt_secy, setSecy_secy]

theorem disableTxSa_sa (j an' : Nat) : ((disableTxSa i c an).secy j).txSc.sa an' = (c.secy j).txSc.sa an' := by
  rw [disableTxSa_secy]
  split
  · next hj =>
    rw [hj]
    simp only
    split <;> rfl
  · rfl

theorem disableTxSa_rx : (disableTxSa i c an).rxSc = c.rxSc ∧ (disableTxSa i c an).rxSa = c.rxSa := setTxSaAt_rx

theorem disableTxSa_inUse (r : Nat) : ((disableTxSa i c an).txSa r).inUse = (c.txSa r).inUse := by
  refine setTxSaAt_part TxSa.inUse ?_ r
  intro sa
  rfl

theorem setTxSaAt_txSa {f : TxSa → TxSa} (hr : (c.secy i).txSc.sa an = some r) (r' : Nat) :
    (c.setTxSaAt i an f).txSa r' = if r' = r then f (c.txSa r) else c.txSa r' := by
  simp only [setTxSaAt, hr, setTxSa_txSa]

theorem disableTxSa_txSa (hr : (c.secy i).txSc.sa an = some r) (r' : Nat) : (disableTxSa i c an).txSa r' =
    if r' = r then { c.txSa r with statusInUse := false, enabled := false } else c.txSa r' := by
  rw [disableTxSa, setTxSaAt_txSa (r := r), setSecy_txSa]
  simp only [setSecy_secy_self]
  split <;> exact hr

/-- The SA that has been disabled is not enabled. -/
theorem disableTxSa_enabled (hr : (c.secy i).txSc.sa an = some r) : ((disableTxSa i c an).txSa r).enabled = false := by
  rw [disableTxSa_txSa hr, if_pos rfl]

theorem Fits.disableTxSa (hf : Fits sp c) : Fits sp (disableTxSa i c an) :=
  hf.of_le
    (fun d r hu => by
      cases d with
      | egress => exact (disableTxSa_inUse r).symm.trans hu
      | ingress => simpa [saInUse, disableTxSa_rx.2] using hu)
    fun p hu => by
      rw [disableTxSa_rx.1] at hu ⊢
      exact ⟨hu, rfl⟩

theorem Fits.freeTxSa (hf : Fits sp c) : Fits sp (freeTxSa i c an r) :=
  hf.of_le
    (fun d r' hu => by
      cases d with
      | egress =>
        simp only [saInUse, freeTxSa_txSa] at hu ⊢
        split at hu
        · simp at hu
        · exact hu
      | ingress => exact hu)
    fun p hu => ⟨hu, rfl⟩

/-! ## The transmit channel -/

/-- The update is confined to the transmit channel of SecY `i`. -/
def TxOnly (i : Nat) (c c₁ : MacsecConf) : Prop :=
  ∃ t : TxSc, c₁.secy i = { c.secy i with txSc := t } ∧ t.inUse = (c.secy i).txSc.inUse

theorem TxOnly.refl : TxOnly i c c := ⟨(c.secy i).txSc, rfl, rfl⟩

theorem TxOnly.trans (h₁ : TxOnly i c c₁) (h₂ : TxOnly i c₁ c₂) : TxOnly i c c₂ := by
  obtain ⟨t, ht, hu⟩ := h₁
  obtain ⟨t', ht', hu'⟩ := h₂
  exact ⟨t', by rw [ht', ht], by rw [hu', ht, hu]⟩

theorem txOnly_disableTxSa : TxOnly i c (disableTxSa i c an) := by
  refine ⟨_, by rw [disableTxSa_secy, if_pos rfl], ?_⟩
  split <;> rfl

theorem txOnly_freeTxSa : TxOnly i c (freeTxSa i c an r) :=
  ⟨{ (c.secy i).txSc with sa := Function.update (c.secy i).txSc.sa an none }, by simp [freeTxSa], rfl⟩

/-- What the loop over the transmit SAs has done before round `k`. -/
structure TxSasDeleted (sp : Scope) (i : Nat) (c : MacsecConf) (k : Nat) (c₁ : MacsecConf) : Prop where
  inv : Inv c₁
  fits : Fits sp c₁
  only : TxOnly i c c₁
  gone : ∀ an < k, (c₁.secy i).txSc.sa an = none

/-- One round: the SA is disabled and deleted. -/
theorem TxSasDeleted.step {k : Nat} (hs : TxSasDeleted sp i c k c₁) (hr : (c₁.secy i).txSc.sa k = some r) :
    TxSasDeleted sp i c (k + 1)
      (MacsecConf.freeTxSa i (disableTxSa i c₁ k) k ((disableTxSa i c₁ k).txSaAt i k).record) := by
  have h₁ : Inv (disableTxSa i c₁ k) := hs.inv.disableTxSa
  have hr₁ : ((disableTxSa i c₁ k).secy i).txSc.sa k = some r := by rw [disableTxSa_sa, hr]
  rw [h₁.txSa_record hr₁]
  refine ⟨h₁.freeTxSa hr₁, hs.fits.disableTxSa.freeTxSa,
    hs.only.trans (txOnly_disableTxSa.trans txOnly_freeTxSa), fun an han => ?_⟩
  rw [freeTxSa_sa]
  split
  · rfl
  · next hne =>
    rw [disableTxSa_sa]
    exact hs.gone an (by omega)

theorem TxSasDeleted.skip {k : Nat} (hs : TxSasDeleted sp i c k c₁) (hnone : (c₁.secy i).txSc.sa k = none) :
    TxSasDeleted sp i c (k + 1) c₁ := by
  refine ⟨hs.inv, hs.fits, hs.only, fun an han => ?_⟩
  rcases Nat.lt_succ_iff_lt_or_eq.mp han with han | rfl
  · exact hs.gone an han
  · exact hnone

/-- After the loop the transmit channel has no SAs. -/
theorem TxSasDeleted.all (h : TxSasDeleted sp i c saPerScMax c₁) (an : Nat) : (c₁.secy i).txSc.sa an = none := by
  cases hs : (c₁.secy i).txSc.sa an with
  | none => rfl
  | some r => rw [← hs, h.gone an (h.inv.tx_place hs).1]

/-- What the calls below need to know of disabling a transmit SA, in a frame `F` that allows small steps. -/
def DisablesTxSa (F : Frame (Dev MacsecConf H)) (bus : PortBus H) (sp : Scope) (i : Nat) : Prop :=
  ∀ c an, Inv c → Fits sp c →
    Steps F (fun s => s.conf = c) (txSaDisable bus i an) fun _ s => s.conf = disableTxSa i c an

theorem disablesTxSa_trace (hsw : .txSwitch ∈ sp.kinds) : DisablesTxSa (trace bus sp i) bus sp i :=
  fun _ _ h hf => steps_txSaDisable h hf hsw

section Frames

variable {F : Frame (Dev MacsecConf H)} (hF : ∀ s s', (trace bus sp i).rel s s' → F.rel s s')
  (hdis : DisablesTxSa F bus sp i)

include hF

theorem Steps.widen {α : Type} {P : Dev MacsecConf H → Prop} {x : Call H α} {Q : α → Dev MacsecConf H → Prop}
    (hx : Steps (trace bus sp i) P x Q) : Steps F P x Q :=
  hx.mono fun s s' _ => hF s s'

include hdis

theorem steps_txSasDel (hfree : .txFree false ∈ sp.kinds) :
    Steps F (fun s => TxSasDeleted sp i c 0 s.conf) (txSasDel bus i)
      fun _ s => TxSasDeleted sp i c saPerScMax s.conf := by
  refine Steps.forUpTo (I := fun k (s : Dev MacsecConf H) => TxSasDeleted sp i c k s.conf) saPerScMax fun k _ => ?_
  intro s hs
  refine steps_getConf_bind (c := s.conf) ?_ s rfl
  refine Steps.when (fun hsome => ?_) fun s' hnone hs' => ?_
  · obtain ⟨r, hr⟩ := Option.isSome_iff_exists.mp hsome
    refine (Steps.orFail (hdis _ k hs.inv hs.fits)).bind fun _ => ?_
    have h₁ : Inv (disableTxSa i s.conf k) := hs.inv.disableTxSa
    have hr₁ : ((disableTxSa i s.conf k).secy i).txSc.sa k = some r := by rw [disableTxSa_sa, hr]
    have hen : ∀ r', ((disableTxSa i s.conf k).secy i).txSc.sa k = some r' →
        .txFree ((disableTxSa i s.conf k).txSa r').enabled ∈ sp.kinds := fun r' hr' => by
      rw [hr₁] at hr'
      cases hr'
      rw [disableTxSa_enabled hr]
      exact hfree
    refine (Steps.orFail (Steps.widen hF (steps_txSaDel h₁ hs.fits.disableTxSa hen))).post fun _ s' hs' => ?_
    rw [hs']
    exact hs.step hr
  · rw [hs']
    exact hs.skip (by simpa using hnone)

theorem steps_txScDel (h : Inv c) (hf : Fits sp c) (hfree : .txFree false ∈ sp.kinds) (hk : .other ∈ sp.kinds) :
    Steps F (fun s => s.conf = c) (txScDel bus i)
      fun _ s => Inv s.conf ∧ Fits sp s.conf ∧ s.conf.secy i = { c.secy i with txSc := {} } := by
  refine steps_getConf_bind (Steps.failIf_bind fun hu => ?_)
  refine ((steps_txSasDel (c := c) hF hdis hfree).pre fun s hs => ?_).bind fun _ => ?_
  · subst hs
    exact ⟨h, hf, .refl, fun an han => by omega⟩
  · intro s hs
    obtain ⟨t, ht, htu⟩ := hs.only
    have hin : (s.conf.secy i).inUse = true := hs.inv.txSc_secy (by rw [ht, htu]; simpa using hu)
    refine (Steps.widen hF (steps_commit (.clearTxSc hin hs.all) hk)).post (fun _ s' hs' => ?_) s rfl
    rw [hs']
    refine ⟨hs.inv.clearTxSc hs.all, hs.fits.of_le (fun d r => by cases d <;> exact id) fun p hp => ⟨hp, rfl⟩, ?_⟩
    simp [clearTxSc, ht]

end Frames

theorem steps_txScSet (hin : (c.secy i).inUse = true) (hk : .other ∈ sp.kinds) :
    Steps (trace bus sp i) (fun s => s.conf = c) (txScSet i : Call H Unit) fun _ _ => True :=
  steps_getConf_bind <| Steps.failIf_bind fun _ => (steps_commit (.openTxSc hin) hk).post fun _ _ _ => trivial

/-! ## Receive channels -/

theorem flagRxSa_secy {b : Bool} : (flagRxSa i c sc an b).secy = c.secy := by
  unfold flagRxSa setRxSaAt
  split <;> rfl

theorem flagRxSa_rxSc {b : Bool} : (flagRxSa i c sc an b).rxSc = c.rxSc := by
  unfold flagRxSa setRxSaAt
  split <;> rfl

theorem flagRxSa_inUse {b : Bool} (d : Direction) (r : Nat) :
    (flagRxSa i c sc an b).saInUse d r = c.saInUse d r := by
  unfold flagRxSa setRxSaAt
  split
  · cases d with
    | egress => rfl
    | ingress => exact setRxSa_part RxSa.inUse rfl r
  · rfl

theorem Fits.flagRxSa {b : Bool} (hf : Fits sp c) : Fits sp (flagRxSa i c sc an b) :=
  hf.of_le (fun d r hu => by rwa [flagRxSa_inUse] at hu) fun p hu => by
    rw [flagRxSa_rxSc] at hu ⊢
    exact ⟨hu, rfl⟩

theorem Fits.freeRxSa (hf : Fits sp c) (hp : (c.secy i).rxSc sc = some p) : Fits sp (freeRxSa i c sc an r) :=
  hf.of_le
    (fun d r' hu => by
      cases d with
      | egress =>
        have htx : (MacsecConf.freeRxSa i c sc an r).txSa = c.txSa := by
          simp only [MacsecConf.freeRxSa, setRxScAt]
          split <;> rfl
        simpa [saInUse, htx] using hu
      | ingress =>
        simp only [saInUse, freeRxSa_rxSa] at hu ⊢
        split at hu
        · simp at hu
        · exact hu)
    fun q hu => ⟨(freeRxSa_rxSc_part hp RxSc.inUse (fun _ _ => rfl) q).symm.trans hu,
      freeRxSa_rxSc_part hp RxSc.hwScIdx (fun _ _ => rfl) q⟩

/-- What the loop over the SAs of one receive channel has done before round `k`. -/
structure RxSasDeleted (sp : Scope) (i sc p : Nat) (c : MacsecConf) (k : Nat) (c₁ : MacsecConf) : Prop where
  inv : Inv c₁
  fits : Fits sp c₁
  secy : c₁.secy = c.secy
  sci : (c₁.rxSc p).sci = (c.rxSc p).sci
  gone : ∀ an < k, (c₁.rxSc p).sa an = none

theorem RxSasDeleted.disable {k : Nat} (hs : RxSasDeleted sp i sc p c k c₁) (b : Bool) :
    RxSasDeleted sp i sc p c k (MacsecConf.flagRxSa i c₁ sc k b) := by
  refine ⟨hs.inv.flagRxSa b, hs.fits.flagRxSa, ?_, ?_, ?_⟩
  · rw [flagRxSa_secy, hs.secy]
  · rw [flagRxSa_rxSc, hs.sci]
  · rw [flagRxSa_rxSc]
    exact hs.gone

/-- One round: the SA is deleted. -/
theorem RxSasDeleted.step {k : Nat} (hs : RxSasDeleted sp i sc p c k c₁) (hp : (c.secy i).rxSc sc = some p)
    (hr : (c₁.rxSc p).sa k = some r) :
    RxSasDeleted sp i sc p c (k + 1) (MacsecConf.freeRxSa i c₁ sc k (c₁.rxSaAt i sc k).record) := by
  have hp₁ : (c₁.secy i).rxSc sc = some p := by rw [hs.secy, hp]
  rw [hs.inv.rxSa_record hp₁ hr]
  refine ⟨hs.inv.freeRxSa hp₁ hr, hs.fits.freeRxSa hp₁, ?_, ?_, fun an han => ?_⟩
  · rw [freeRxSa_secy, hs.secy]
  · rw [freeRxSa_rxSc_part hp₁ RxSc.sci fun _ _ => rfl, hs.sci]
  · rw [freeRxSa_sa hp₁]
    split
    · rfl
    · exact hs.gone an (by omega)

theorem RxSasDeleted.skip {k : Nat} (hs : RxSasDeleted sp i sc p c k c₁) (hnone : (c₁.rxSc p).sa k = none) :
    RxSasDeleted sp i sc p c (k + 1) c₁ := by
  refine ⟨hs.inv, hs.fits, hs.secy, hs.sci, fun an han => ?_⟩
  rcases Nat.lt_succ_iff_lt_or_eq.mp han with han | rfl
  · exact hs.gone an han
  · exact hnone

theorem steps_rxSasDel (hp : (c.secy i).rxSc sc = some p) (hk : .other ∈ sp.kinds) :
    Steps (trace bus sp i) (fun s => RxSasDeleted sp i sc p c 0 s.conf) (rxSasDel bus i sc (c.rxSc p).sci)
      fun _ s => RxSasDeleted sp i sc p c saPerScMax s.conf := by
  refine Steps.forUpTo (I := fun k (s : Dev MacsecConf H) => RxSasDeleted sp i sc p c k s.conf) saPerScMax fun k _ => ?_
  intro s hs
  have hp₀ : (s.conf.secy i).rxSc sc = some p := by rw [hs.secy, hp]
  have hget : s.conf.scFromSciGet i (c.rxSc p).sci = some sc := hs.inv.scFromSciGet_eq hp₀ hs.sci
  refine steps_getConf_bind (c := s.conf) ?_ s rfl
  refine Steps.when (fun hsome => ?_) fun s' hnone hs' => ?_
  · rw [rxScAt_eq hp₀] at hsome
    obtain ⟨r, hr⟩ := Option.isSome_iff_exists.mp hsome
    -- whether or not the SA has been disabled first, its record is still linked
    refine Steps.bind (Q := fun _ s' => ∃ c₁, s'.conf = c₁ ∧ RxSasDeleted sp i sc p c k c₁ ∧ (c₁.rxSc p).sa k = some r)
      ?_ fun _ => Steps.ghost fun c₁ => ?_
    · refine Steps.when (fun _ => ?_) fun s' _ hs' => ⟨s.conf, hs', hs, hr⟩
      refine (Steps.orFail (steps_rxSaDisable hs.inv hs.fits hk)).post fun _ s' hs' => ?_
      obtain ⟨sc', hsc', hc⟩ := hs'
      cases hget.symm.trans hsc'
      exact ⟨_, hc, hs.disable false, by rw [flagRxSa_rxSc, hr]⟩
    · rintro s₁ ⟨hc₁, hd, hr₁⟩
      have hp₁ : (c₁.secy i).rxSc sc = some p := by rw [hd.secy, hp]
      refine (Steps.orFail (steps_rxSaDel hd.inv hd.fits hk)).post (fun _ s' hs' => ?_) s₁ hc₁
      obtain ⟨sc', hsc', hc⟩ := hs'
      cases (hd.inv.scFromSciGet_eq hp₁ hd.sci).symm.trans hsc'
      rw [hc]
      exact hd.step hp hr₁
  · rw [hs']
    exact hs.skip (by simpa [rxScAt_eq hp₀] using hnone)

/-- After the loop the receive channel has no SAs. -/
theorem RxSasDeleted.all (h : RxSasDeleted sp i sc p c saPerScMax c₁) (an : Nat) : (c₁.rxSc p).sa an = none := by
  cases hs : (c₁.rxSc p).sa an with
  | none => rfl
  | some r => rw [← hs, h.gone an (h.inv.rx_place hs).1]

theorem freeRxSc_secy (hp : (c.secy i).rxSc sc = some p) :
    (freeRxSc i c sc).secy i = { c.secy i with rxSc := Function.update (c.secy i).rxSc sc none } := by
  rw [freeRxSc_eq hp]
  simp

theorem Fits.freeRxSc (hf : Fits sp c) (hp : (c.secy i).rxSc sc = some p) : Fits sp (freeRxSc i c sc) := by
  rw [freeRxSc_eq hp]
  refine hf.of_le (fun d r => by cases d <;> exact id) fun q hu => ?_
  simp only [setSecy_rxSc, setRxSc_rxSc] at hu ⊢
  split at hu
  · simp at hu
  · next hq =>
    rw [if_neg hq]
    exact ⟨hu, rfl⟩

/-- Deleting a receive channel: only its pointer is gone from the SecY. -/
theorem steps_rxScDel (h : Inv c) (hf : Fits sp c) (hp : (c.secy i).rxSc sc = some p) (hk : .other ∈ sp.kinds) :
    Steps (trace bus sp i) (fun s => s.conf = c) (rxScDel bus i (c.rxSc p).sci)
      fun _ s => Inv s.conf ∧ Fits sp s.conf ∧
        s.conf.secy i = { c.secy i with rxSc := Function.update (c.secy i).rxSc sc none } := by
  refine steps_scFromSci_bind fun sc' p' hs _ _ => ?_
  cases (h.scFromSciGet_eq hp rfl).symm.trans hs
  refine ((steps_rxSasDel hp hk).pre fun s hs => ?_).bind fun _ => ?_
  · subst hs
    exact ⟨h, hf, rfl, rfl, fun an han => by omega⟩
  · intro s hs
    have hp₁ : (s.conf.secy i).rxSc sc = some p := by rw [hs.secy, hp]
    refine steps_getConf_bind (c := s.conf) ?_ s rfl
    have hcam : wordBits rxscEntryEnableCtrlReg ⊆ allowed sp i s.conf := fun _ hb =>
      sharedBits_allowed (Or.inr (Or.inr (Or.inr (Or.inl hb))))
    refine (steps_within (within_csrWr hcam) subset_rfl).bind fun _ => ?_
    have hc : Commit i s.conf .other (freeRxSc i s.conf sc) := .freeRxSc sc p hp₁ hs.all
    refine (steps_commit hc hk).bind fun _ => ?_
    refine (steps_within (within_updateGlbValidate modeBits_allowed) subset_rfl).post fun _ s' hs' => ?_
    rw [hs']
    exact ⟨hc.inv hs.inv, hs.fits.freeRxSc hp₁, by rw [freeRxSc_secy hp₁, hs.secy]⟩

theorem steps_rxScDel_any (h : Inv c) (hf : Fits sp c) (hk : .other ∈ sp.kinds) (sci : Sci) :
    Steps (trace bus sp i) (fun s => s.conf = c) (rxScDel bus i sci) fun _ _ => True := by
  cases hs : c.scFromSciGet i sci with
  | none =>
    refine Steps.bind steps_scFromSci fun sc => Steps.imp fun hs' => ?_
    rw [hs] at hs'
    cases hs'
  | some sc =>
    obtain ⟨p, hp, -, rfl⟩ := scFromSciGet_spec hs
    exact (steps_rxScDel h hf hp hk).post fun _ _ _ => trivial

theorem steps_rxScAdd (hin : (c.secy i).inUse = true) (hk : .other ∈ sp.kinds) (sci : Sci) :
    Steps (trace bus sp i) (fun s => s.conf = c) (rxScAdd i sci : Call H Unit) fun _ _ => True := by
  refine steps_getConf_bind (Steps.failIf_bind fun _ => Steps.failIf_bind fun _ => Steps.failIf_bind fun hne => ?_)
  cases hpl : rxScPlace c i with
  | none => exact Steps.throw
  | some t =>
    obtain ⟨sc, p, hw⟩ := t
    exact (steps_commit (.addRxSc sc p hw sci hin hpl fun q hq he => hne ⟨q, hq, he⟩) hk).post fun _ _ _ => trivial

theorem steps_rxScUpdatePriv (hk : .other ∈ sp.kinds) (sci : Sci) (conf : RxScConf) :
    Steps (trace bus sp i) (fun s => s.conf = c) (rxScUpdatePriv i sci conf : Call H Unit) fun _ _ => True :=
  steps_scFromSci_bind fun sc p _ hp _ => steps_getConf_bind <| Steps.failIf_bind fun _ =>
    (steps_commit (.updateRxScConf sc p conf hp) hk).post fun _ _ _ => trivial

/-- What the loop over the receive channels has done before round `k`. -/
structure RxScsDeleted (sp : Scope) (i : Nat) (c : MacsecConf) (k : Nat) (c₁ : MacsecConf) : Prop where
  inv : Inv c₁
  fits : Fits sp c₁
  only : ∃ f, c₁.secy i = { c.secy i with rxSc := f }
  gone : ∀ sc < k, (c₁.secy i).rxSc sc = none

theorem steps_rxScsDel (hk : .other ∈ sp.kinds) :
    Steps (trace bus sp i) (fun s => RxScsDeleted sp i c 0 s.conf) (rxScsDel bus i)
      fun _ s => RxScsDeleted sp i c maxRxSc s.conf := by
  refine Steps.forUpTo (I := fun k (s : Dev MacsecConf H) => RxScsDeleted sp i c k s.conf) maxRxSc fun k _ => ?_
  intro s hs
  obtain ⟨f, hf⟩ := hs.only
  refine steps_getConf_bind (c := s.conf) ?_ s rfl
  refine Steps.when (fun hsome => ?_) fun s' hnone hs' => ?_
  · obtain ⟨p, hp⟩ := Option.isSome_iff_exists.mp hsome
    rw [rxScAt_eq hp]
    refine (steps_rxScDel hs.inv hs.fits hp hk).post fun _ s' hs' => ?_
    obtain ⟨h₁, hf₁, he⟩ := hs'
    refine ⟨h₁, hf₁, ⟨_, by rw [he, hf]⟩, fun sc hsc => ?_⟩
    have hrx : (s'.conf.secy i).rxSc = Function.update (s.conf.secy i).rxSc k none := by rw [he]
    rw [hrx, Function.update_apply]
    split
    · rfl
    · exact hs.gone sc (by omega)
  · rw [hs']
    refine ⟨hs.inv, hs.fits, hs.only, fun sc hsc => ?_⟩
    rcases Nat.lt_succ_iff_lt_or_eq.mp hsc with hsc | rfl
    · exact hs.gone sc hsc
    · simpa using hnone

/-- After the loop the SecY has no receive channels. -/
theorem RxScsDeleted.all (h : RxScsDeleted sp i c maxRxSc c₁) (sc : Nat) : (c₁.secy i).rxSc sc = none := by
  cases hs : (c₁.secy i).rxSc sc with
  | none => rfl
  | some p => rw [← hs, h.gone sc (h.inv.sc_place hs)]

/-! ## Match patterns -/

theorem pattern_owned {d : Direction} {a : MatchAction} (hi : (c.secy i).inUse = true)
    (hpat : (c.secy i).patternRecord a d ≠ notInUse) : c.ownedBy d i ((c.secy i).patternRecord a d) :=
  Or.inr ⟨a, by rw [saOwner_pattern, if_pos ⟨hi, hpat⟩]⟩

theorem steps_patternSet (h : Inv c) (hi : (c.secy i).inUse = true) {d : Direction} {a : MatchAction}
    (hnew : ∀ r, c.recordEmptyGet d = some r → r < sp.recs d) (hk : .other ∈ sp.kinds) (pattern : MatchPattern) :
    Steps (trace bus sp i) (fun s => s.conf = c) (patternSet bus i d a pattern)
      fun _ s => ∃ r, s.conf = linkPattern i c a d r := by
  refine steps_getConf_bind (Steps.failIf_bind fun hpat => ?_)
  have hpat : (c.secy i).patternRecord a d = notInUse := not_not.mp hpat
  cases hrec : c.recordEmptyGet d with
  | none => exact Steps.throw
  | some r =>
    refine Steps.failIf_bind fun _ => ?_
    have hc : Commit i c .other (linkPattern i c a d r) := .linkPattern a d r hi hpat hrec
    refine (steps_commit hc hk).bind fun _ => ?_
    have h₁ := hc.inv h
    have hr : (linkPattern i c a d r).ownedBy d i r := by
      have hne : r ≠ notInUse := by
        rintro rfl
        exact absurd (recordEmptyGet_spec hrec).2 (by decide)
      exact Or.inr ⟨a, by simp [linkPattern_saOwner hi hne]⟩
    have hbits : recordBits (linkPattern i c a d r).glb d r ⊆ allowed sp i (linkPattern i c a d r) :=
      record_allowed (hnew r hrec) fun _ hj ho => hj (h₁.ownedBy_unique ho hr)
    refine (Steps.orFail (steps_hw (steps_saTcamKeyMaskSet selectBits_allowed (tcam_of_record hbits)
      (policy_of_record hbits)) subset_rfl)).bind fun _ => ?_
    refine (Steps.orFail (steps_within (within_saTcamPolicyUnctrlDrop (policy_of_record hbits)) subset_rfl)).bind
      fun _ => ?_
    exact (Steps.orFail (steps_within (within_saEnable (enable_of_record hbits)) subset_rfl)).post
      fun _ s hs => ⟨r, hs⟩

theorem steps_patternDel (h : Inv c) (hf : Fits sp c) (hi : (c.secy i).inUse = true) {d : Direction} {a : MatchAction}
    (hz : (c.secy i).patternRecord a d ≠ notInUse → d ∈ sp.mapZero) (hk : .other ∈ sp.kinds) :
    Steps (trace bus sp i) (fun s => s.conf = c) (patternDel bus i d a)
      fun _ s => Inv s.conf ∧ s.conf = freePattern i c a d ((c.secy i).patternRecord a d) := by
  refine steps_getConf_bind (Steps.failIf_bind fun hpat => ?_)
  have hbits := h.owned_allowed hf (pattern_owned hi hpat)
  refine (Steps.orFail (steps_within (within_saEnable (enable_of_record hbits)) subset_rfl)).bind fun _ => ?_
  refine (Steps.orFail (steps_saInuseZero (hz hpat))).bind fun _ => ?_
  refine (Steps.orFail (steps_within (within_saTcamKeyMaskReset samEntryBits_allowed (tcamWord_of_record hbits))
    subset_rfl)).bind fun _ => ?_
  have hc : Commit i c .other (freePattern i c a d ((c.secy i).patternRecord a d)) := .freePattern a d hi hpat
  exact (steps_commit hc hk).post fun _ s hs => ⟨hs ▸ hc.inv h, hs⟩

theorem freePattern_secy {a : MatchAction} {d : Direction} : ∃ pr pat, (freePattern i c a d r).secy i =
    { c.secy i with patternRecord := pr, pattern := pat } ∧
      ∀ a' d', pr a' d' = if a' = a ∧ d' = d then notInUse else (c.secy i).patternRecord a' d' := by
  cases d <;> exact ⟨_, _, by simp [freePattern, MacsecConf.setPattern, setPatternRecord, setSaInUse]; rfl,
    fun _ _ => rfl⟩

theorem Fits.freePattern {a : MatchAction} {d : Direction} (hf : Fits sp c) : Fits sp (freePattern i c a d r) :=
  hf.of_le
    (fun d' r' hu => by
      cases d <;> cases d' <;> simp only [saInUse, freePattern_txSa, freePattern_rxSa] at hu ⊢
      · split at hu
        · simp at hu
        · exact hu
      · exact hu
      · exact hu
      · split at hu
        · simp at hu
        · exact hu)
    fun p hu => by
      rw [freePattern_rxSc] at hu ⊢
      exact ⟨hu, rfl⟩

/-- What the loop over the patterns has done before round `k`. -/
structure PatternsDeleted (sp : Scope) (i : Nat) (c : MacsecConf) (k : Nat) (c₁ : MacsecConf) : Prop where
  inv : Inv c₁
  fits : Fits sp c₁
  only : ∃ pr pat, c₁.secy i = { c.secy i with patternRecord := pr, pattern := pat }
  left : ∀ a d, (c₁.secy i).patternRecord a d ≠ notInUse → (c.secy i).patternRecord a d ≠ notInUse
  gone : ∀ m < k, (c₁.secy i).patternRecord (patternOrder.getD m (.ingress, .drop)).2
    (patternOrder.getD m (.ingress, .drop)).1 = notInUse

theorem steps_patternsDel (hi : (c.secy i).inUse = true)
    (hz : ∀ a d, (c.secy i).patternRecord a d ≠ notInUse → d ∈ sp.mapZero) (hk : .other ∈ sp.kinds) :
    Steps (trace bus sp i) (fun s => PatternsDeleted sp i c 0 s.conf) (patternsDel bus i)
      fun _ s => PatternsDeleted sp i c patternOrder.length s.conf := by
  refine Steps.forUpTo (I := fun k (s : Dev MacsecConf H) => PatternsDeleted sp i c k s.conf) _ fun k _ => ?_
  intro s hs
  obtain ⟨pr, pat, he⟩ := hs.only
  have hin : (s.conf.secy i).inUse = true := by rw [he]; exact hi
  generalize hda : patternOrder.getD k (.ingress, .drop) = da
  refine steps_getConf_bind (c := s.conf) ?_ s rfl
  refine Steps.when (fun hpat => ?_) fun s' hnone hs' => ?_
  · refine (steps_patternDel hs.inv hs.fits hin (fun hne => hz _ _ (hs.left _ _ hne)) hk).post fun _ s' hs' => ?_
    obtain ⟨h₁, hc⟩ := hs'
    obtain ⟨pr', pat', he', hpr'⟩ := freePattern_secy (c := s.conf) (i := i) (a := da.2) (d := da.1)
      (r := (s.conf.secy i).patternRecord da.2 da.1)
    rw [← hc] at he'
    have hpr : (s'.conf.secy i).patternRecord = pr' := by rw [he']
    refine ⟨h₁, hc ▸ hs.fits.freePattern, ⟨pr', pat', by rw [he', he]⟩, fun a d hne => ?_, fun m hm => ?_⟩
    · rw [hpr, hpr'] at hne
      split at hne
      · exact absurd rfl hne
      · exact hs.left a d hne
    · rw [hpr, hpr']
      split
      · rfl
      · next hne =>
        refine hs.gone m (Nat.lt_of_le_of_ne (by omega) ?_)
        rintro rfl
        rw [hda] at hne
        exact hne ⟨rfl, rfl⟩
  · rw [hs']
    refine ⟨hs.inv, hs.fits, hs.only, hs.left, fun m hm => ?_⟩
    rcases Nat.lt_succ_iff_lt_or_eq.mp hm with hm | rfl
    · exact hs.gone m hm
    · rw [hda]
      exact not_not.mp hnone

/-- After the loop the SecY has no patterns. -/
theorem PatternsDeleted.all (h : PatternsDeleted sp i c patternOrder.length c₁) (a : MatchAction) (d : Direction) :
    (c₁.secy i).patternRecord a d = notInUse := by
  cases d <;> cases a
  · exact h.gone 2 (by decide)
  · exact h.gone 0 (by decide)
  · exact h.gone 1 (by decide)
  · exact h.gone 5 (by decide)
  · exact h.gone 3 (by decide)
  · exact h.gone 4 (by decide)

/-! ## SecYs -/

theorem steps_secyRestDel (h : Inv c) (hf : Fits sp c) (hi : (c.secy i).inUse = true)
    (htx : (c.secy i).txSc.inUse = false)
    (hz : ∀ a d, (c.secy i).patternRecord a d ≠ notInUse → d ∈ sp.mapZero) (hk : .other ∈ sp.kinds)
    (hcl : .closes ∈ sp.kinds) : Steps (trace bus sp i) (fun s => s.conf = c) (secyRestDel bus i)
      fun _ s => (s.conf.secy i).inUse = false := by
  refine ((steps_rxScsDel (c := c) hk).pre fun s hs => ?_).bind fun _ => ?_
  · subst hs
    exact ⟨h, hf, ⟨_, rfl⟩, fun sc hsc => by omega⟩
  · intro s hs
    obtain ⟨f, he⟩ := hs.only
    have hi₁ : (s.conf.secy i).inUse = true := by rw [he]; exact hi
    have hz₁ : ∀ a d, (s.conf.secy i).patternRecord a d ≠ notInUse → d ∈ sp.mapZero := by rw [he]; exact hz
    refine Steps.bind ((steps_patternsDel (c := s.conf) hi₁ hz₁ hk).pre
      fun (s' : Dev MacsecConf H) (hs' : s'.conf = s.conf) => ?_) (fun _ => ?_) s rfl
    · rw [hs']
      exact ⟨hs.inv, hs.fits, ⟨_, _, rfl⟩, fun _ _ => id, fun m hm => by omega⟩
    · intro s₂ hs₂
      obtain ⟨pr, pat, he₂⟩ := hs₂.only
      have hrx : (s₂.conf.secy i).rxSc = (s.conf.secy i).rxSc := by rw [he₂]
      have hc : Commit i s₂.conf .closes (clearSecy i s₂.conf) :=
        .clearSecy (by rw [he₂]; exact hi₁) (by rw [he₂, he]; exact htx) (fun sc => by rw [hrx, hs.all]) hs₂.all
      refine (steps_commit hc hcl).post (fun _ s₃ hs₃ => ?_) s₂ rfl
      rw [hs₃]
      simp [MacsecConf.clearSecy]

/-- Deleting a SecY: its transmit channel, then the rest. -/
theorem steps_secyConfDel {F : Frame (Dev MacsecConf H)} {R : Unit → Dev MacsecConf H → Prop}
    (hF : ∀ s s', (trace bus sp i).rel s s' → F.rel s s') (hdis : DisablesTxSa F bus sp i) (h : Inv c) (hf : Fits sp c)
    (hfree : .txFree false ∈ sp.kinds) (hk : .other ∈ sp.kinds)
    (hrest : ∀ c₁ t, Inv c₁ → Fits sp c₁ → t.inUse = false → c₁.secy i = { c.secy i with txSc := t } →
      Steps F (fun s => s.conf = c₁) (secyRestDel bus i) R) :
    Steps F (fun s => s.conf = c) (secyConfDel bus i) R := by
  refine steps_getConf_bind ?_
  refine Steps.bind (Q := fun _ s => ∃ c₁, s.conf = c₁ ∧ Inv c₁ ∧ Fits sp c₁ ∧ ∃ t, t.inUse = false ∧
    c₁.secy i = { c.secy i with txSc := t }) (Steps.when (fun _ => ?_) fun s hu hs => ?_) fun _ =>
      Steps.ghost fun c₁ => ?_
  · refine (steps_txScDel hF hdis h hf hfree hk).post fun _ s hs => ?_
    exact ⟨_, rfl, hs.1, hs.2.1, {}, rfl, hs.2.2⟩
  · exact ⟨c, hs, h, hf, _, by simpa using hu, rfl⟩
  · rintro s ⟨hs, h₁, hf₁, t, ht, he⟩
    exact hrest c₁ t h₁ hf₁ ht he s hs

theorem steps_secyConfDel_trace (h : Inv c) (hf : Fits sp c) (hi : (c.secy i).inUse = true)
    (hsw : .txSwitch ∈ sp.kinds) (hfree : .txFree false ∈ sp.kinds)
    (hz : ∀ a d, (c.secy i).patternRecord a d ≠ notInUse → d ∈ sp.mapZero) (hk : .other ∈ sp.kinds)
    (hcl : .closes ∈ sp.kinds) : Steps (trace bus sp i) (fun s => s.conf = c) (secyConfDel bus i)
      fun _ s => (s.conf.secy i).inUse = false :=
  steps_secyConfDel (fun _ _ => id) (disablesTxSa_trace hsw) h hf hfree hk fun c₁ t h₁ hf₁ ht he =>
    steps_secyRestDel h₁ hf₁ (by rw [he]; exact hi) (by rw [he]; exact ht) (by rw [he]; exact hz) hk hcl

theorem updateSecyConf_sameLinks (s : Secy) (conf : SecyConf) :
    s.SameLinks { s with conf, sci := { s.sci with macAddr := conf.macAddr } } := ⟨rfl, rfl, rfl, rfl, rfl, rfl⟩

theorem Fits.setSecy {f : Secy → Secy} (hf : Fits sp c) : Fits sp (c.setSecy i f) :=
  hf.of_le (fun d r => by cases d <;> exact id) fun p hu => ⟨hu, rfl⟩

theorem Fits.updateRxScConf {conf : RxScConf} (hf : Fits sp c) : Fits sp (updateRxScConf i c sc conf) := by
  unfold MacsecConf.updateRxScConf setRxScAt
  split
  · exact hf.of_le (fun d r => by cases d <;> exact id) fun q hu =>
      ⟨(setRxSc_part RxSc.inUse rfl q).symm.trans hu, setRxSc_part RxSc.hwScIdx rfl q⟩
  · exact hf

theorem updateRxScConf_secy {conf : RxScConf} : (updateRxScConf i c sc conf).secy = c.secy := by
  unfold updateRxScConf setRxScAt
  split <;> rfl

/-- The part of a SecY update after the transmit SAs keeps the SecY in use. -/
structure Held (sp : Scope) (i : Nat) (c : MacsecConf) : Prop where
  inv : Inv c
  fits : Fits sp c
  inUse : (c.secy i).inUse = true

theorem updateRxScConf_sci (conf : RxScConf) (hp : (c.secy i).rxSc sc = some p) :
    ((updateRxScConf i c sc conf).rxSc p).sci = (c.rxSc p).sci := by
  rw [updateRxScConf, setRxScAt_eq hp]
  exact setRxSc_part RxSc.sci rfl p

/-- One round: the settings of a receive channel are stored, and its SAs deleted. -/
theorem Held.update {conf : RxScConf} (hs : Held sp i c) (hp : (c.secy i).rxSc sc = some p) :
    RxSasDeleted sp i sc p (updateRxScConf i c sc conf) 0 (updateRxScConf i c sc conf) :=
  ⟨Commit.inv (i := i) (k := .other) (.updateRxScConf sc p conf hp) hs.inv, hs.fits.updateRxScConf, rfl, rfl,
    fun an han => by omega⟩

theorem RxSasDeleted.held {conf : RxScConf} {k : Nat} (hs : RxSasDeleted sp i sc p (updateRxScConf i c sc conf) k c₁)
    (h : Held sp i c) : Held sp i c₁ :=
  ⟨hs.inv, hs.fits, by rw [hs.secy, updateRxScConf_secy]; exact h.inUse⟩

theorem steps_secyRxUpdate (h : Held sp i c) (hk : .other ∈ sp.kinds) (conf : SecyConf) :
    Steps (trace bus sp i) (fun s => s.conf = c) (secyRxUpdate bus i conf) fun _ _ => True := by
  refine Steps.bind (Q := fun _ s => True) ?_ fun _ => ?_
  · refine (Steps.forUpTo (I := fun _ (s : Dev MacsecConf H) => Held sp i s.conf) maxRxSc fun k _ => ?_).weaken
      (fun s (hs : s.conf = c) => hs ▸ h) fun _ _ _ => trivial
    intro s hs
    refine steps_getConf_bind (c := s.conf) ?_ s rfl
    refine Steps.when (fun hcond => ?_) fun s' _ hs' => hs' ▸ hs
    obtain ⟨p, hp⟩ := Option.isSome_iff_exists.mp hcond.1
    refine (steps_commit (.updateRxScConf k p _ hp) hk).bind fun _ => ?_
    rw [rxScAt_eq hp, ← updateRxScConf_sci ⟨conf.validateFrames, conf.replayProtect, conf.replayWindow,
      conf.confidentialityOffset⟩ hp]
    refine ((steps_rxSasDel (by rw [updateRxScConf_secy, hp]) hk).pre fun s' hs' => ?_).post fun _ s' hs' => hs'.held hs
    rw [hs']
    exact hs.update hp
  · intro s _
    refine steps_getConf_bind (c := s.conf) ?_ s rfl
    exact Steps.failIf.post fun _ _ _ => trivial

theorem steps_secyConfUpdate {F : Frame (Dev MacsecConf H)} (hF : ∀ s s', (trace bus sp i).rel s s' → F.rel s s')
    (hdis : DisablesTxSa F bus sp i) (h : Inv c) (hf : Fits sp c) (hi : (c.secy i).inUse = true)
    (hfree : .txFree false ∈ sp.kinds) (hk : .other ∈ sp.kinds) (conf : SecyConf) :
    Steps F (fun s => s.conf = c) (secyConfUpdate bus i conf) fun _ _ => True := by
  refine Steps.failIf_bind fun _ => ?_
  have hc : Commit i c .other (updateSecyConf i c conf) := .settings _ (updateSecyConf_sameLinks _ _) hi
  refine (Steps.widen hF (steps_commit hc hk)).bind fun _ => ?_
  have hi₁ : ((updateSecyConf i c conf).secy i).inUse = true := by simpa [updateSecyConf] using hi
  refine ((steps_txSasDel (c := updateSecyConf i c conf) hF hdis hfree).pre fun s hs => ?_).bind fun _ => ?_
  · rw [hs]
    exact ⟨hc.inv h, hf.setSecy, .refl, fun an han => by omega⟩
  · intro s hs
    obtain ⟨t, ht, -⟩ := hs.only
    exact Steps.widen hF (steps_secyRxUpdate (c := s.conf) ⟨hs.inv, hs.fits, by rw [ht]; exact hi₁⟩ hk conf) s rfl

theorem steps_secyControlledSet (h : Inv c) (hf : Fits sp c) (hi : (c.secy i).inUse = true) (hk : .other ∈ sp.kinds)
    (enable : Bool) :
    Steps (trace bus sp i) (fun s => s.conf = c) (secyControlledSet bus i enable) fun _ _ => True := by
  refine steps_getConf_bind (Steps.when (fun _ => ?_) fun _ _ _ => trivial)
  have hc : Commit i c .other (c.setSecy i fun s => { s with controlledPortEnabled := enable }) :=
    .settings _ ⟨rfl, rfl, rfl, rfl, rfl, rfl⟩ hi
  have hrx : ∀ sc an, ((c.rxScAt i sc).sa an).isSome = true →
      enableBits .ingress (c.rxSaAt i sc an).record ⊆ allowed sp i c := fun sc an hsome => by
    cases hp : (c.secy i).rxSc sc with
    | none => simp [rxScAt, hp] at hsome
    | some p =>
      rw [rxScAt_eq hp] at hsome
      obtain ⟨r, hr⟩ := Option.isSome_iff_exists.mp hsome
      rw [h.rxSa_record hp hr]
      exact enable_of_record (h.owned_allowed hf (rxSa_owned hp hr))
  have htx : ∀ an, ((c.secy i).txSc.sa an).isSome = true →
      enableBits .egress (c.txSaAt i an).record ⊆ allowed sp i c := fun an hsome => by
    obtain ⟨r, hr⟩ := Option.isSome_iff_exists.mp hsome
    rw [h.txSa_record hr]
    exact enable_of_record (h.owned_allowed hf (txSa_owned hr))
  refine Steps.bind (Q := fun _ s => s.conf = c) (steps_within (W := allowed sp i c) ?_ subset_rfl) fun _ => ?_
  · exact Within.forUpTo _ fun sc _ => Within.forUpTo _ fun an _ => Within.when fun hcond =>
      Within.orFail (within_saEnable (hrx sc an hcond.1))
  refine Steps.bind (Q := fun _ s => s.conf = c) (steps_within (W := allowed sp i c) ?_ subset_rfl) fun _ => ?_
  · exact Within.forUpTo _ fun an _ => Within.when fun hcond => Within.orFail (within_saEnable (htx an hcond.1))
  · exact (steps_commit hc hk).post fun _ _ _ => trivial

/-! ## Exported calls -/

theorem portFind_spec {port : MacsecPort} (hp : portFind c port = some i) :
    i < maxSecy ∧ (c.secy i).hasPort port = true :=
  ⟨by simpa using List.mem_of_find?_eq_some hp, List.find?_some (p := fun i => (c.secy i).hasPort port) hp⟩

theorem hasPort_inUse {s : Secy} {port : MacsecPort} (hs : s.hasPort port = true) : s.inUse = true := by
  simp only [Secy.hasPort, Bool.and_eq_true] at hs
  exact hs.1.1

/-- The SecY slot a call works on: the port's, or the first vacant one. -/
def Op.slot (c : MacsecConf) (port : MacsecPort) : Op → Option Nat
  | .secyConfAdd _ => (portVacancy c port).toOption
  | _ => portFind c port

/-- The kinds of updates a call makes. -/
def Op.kinds (c : MacsecConf) (i : Nat) : Op → Set Kind
  | .secyConfAdd _ => {.opens}
  | .secyConfUpdate _ | .txScDel => {.txSwitch, .txFree false, .other}
  | .secyConfDel => {.txSwitch, .txFree false, .other, .closes}
  | .txSaActivate _ | .txSaDisable _ => {.txSwitch}
  | .txSaDel an => {k | ∃ r, (c.secy i).txSc.sa an = some r ∧ k = .txFree (c.txSa r).enabled}
  | _ => {.other}

/-- The directions in which a call deletes patterns, and so clears map entry 0. -/
def Op.zeroDirs (c : MacsecConf) (i : Nat) : Op → Set Direction
  | .patternDel d a => {d' | d' = d ∧ a.hasRecord = true ∧ (c.secy i).patternRecord a d ≠ notInUse}
  | .secyConfDel => {d | ∃ a, (c.secy i).patternRecord a d ≠ notInUse}
  | _ => ∅

/-- The direction in which a call takes a record. -/
def Op.allocDir : Op → Option Direction
  | .txSaSet .. => some .egress
  | .rxSaSet .. => some .ingress
  | .patternSet d _ _ => some d
  | _ => none

/-- The scope is large enough for the call. -/
structure Op.InScope (op : Op) (sp : Scope) (i : Nat) (c : MacsecConf) : Prop where
  kinds : op.kinds c i ⊆ sp.kinds
  zero : op.zeroDirs c i ⊆ sp.mapZero
  alloc : ∀ d r, op.allocDir = some d → c.recordEmptyGet d = some r → r < sp.recs d

theorem steps_portCheck {F : Frame (Dev MacsecConf H)} {port : MacsecPort} :
    Steps F (fun s => s.conf = c) (portCheck port : Call H Nat)
      fun i s => s.conf = c ∧ portFind c port = some i := by
  refine steps_getConf_bind (Steps.failIf_bind fun _ => ?_)
  cases hs : portFind c port with
  | none => exact Steps.throw
  | some i => exact Steps.pure fun s h => ⟨h, rfl⟩

theorem ends_portCheck {port : MacsecPort} {P : Dev MacsecConf H → Prop} (hc : ∀ s, P s → s.conf = c) :
    Ends P (portCheck port) (fun i s => P s ∧ portFind c port = some i) P := by
  refine ends_getConf_bind hc (Ends.failIf_bind (fun s hs _ => hs) fun _ => ?_)
  cases hp : portFind c port with
  | some i => exact Ends.pure fun s hs => ⟨hs, rfl⟩
  | none => exact Ends.throw fun _ => id

/-- Looking for the port's SecY changes nothing. -/
theorem steps_attempt_portCheck {F : Frame (Dev MacsecConf H)} {port : MacsecPort} :
    Steps F (fun s => s.conf = c) (attempt (portCheck port : Call H Nat))
      fun o s => s.conf = c ∧ ∀ j, o = some j → portFind c port = some j := by
  rintro s rfl
  have hend : Ends (fun t => t = s) (attempt (portCheck port : Call H Nat))
      (fun o t => t = s ∧ ∀ j, o = some j → portFind s.conf port = some j) fun _ => False := by
    refine (ends_portCheck fun t ht => congrArg Dev.conf ht).attempt.weaken (fun o t ht => ?_) fun _ => id
    rcases ht with ⟨i, rfl, ht, hi⟩ | ⟨rfl, ht⟩
    · exact ⟨ht, fun j hj => Option.some.inj hj ▸ hi⟩
    · exact ⟨ht, fun j hj => by cases hj⟩
  rcases hend s rfl with ⟨o, t, ho, rfl, hj⟩ | ⟨-, -, -, hf⟩
  · refine ⟨by simpa [final, ho] using F.refl t, fun o' t' ho' => ?_⟩
    rw [ho] at ho'
    cases ho'
    exact ⟨rfl, hj⟩
  · exact hf.elim

/-- A call that looks up the SecY of its port. -/
theorem steps_portCheck_bind {F : Frame (Dev MacsecConf H)} {port : MacsecPort} {α : Type} {f : Nat → Call H α}
    {R : α → Dev MacsecConf H → Prop} (hi : ∀ j, portFind c port = some j → j = i)
    (hf : portFind c port = some i → (c.secy i).inUse = true → Steps F (fun s => s.conf = c) (f i) R) :
    Steps F (fun s => s.conf = c) (portCheck port >>= f) R :=
  steps_portCheck.bind fun j => Steps.imp fun hj => by
    obtain rfl := hi j hj
    exact hf hj (hasPort_inUse (portFind_spec hj).2)

theorem steps_secyConfAddPriv {port : MacsecPort} (hi : ∀ j, (portVacancy c port).toOption = some j → j = i)
    (hk : .opens ∈ sp.kinds) (conf : SecyConf) :
    Steps (trace bus sp i) (fun s => s.conf = c) (secyConfAddPriv port conf : Call H Unit) fun _ _ => True := by
  refine Steps.failIf_bind fun _ => ?_
  refine Steps.bind (Q := fun j s => s.conf = c ∧ portVacancy c port = .ok j) ?_ fun j => Steps.imp fun hv => ?_
  · refine steps_getConf_bind (Steps.failIf_bind fun _ => ?_)
    cases hv : portVacancy c port with
    | ok j => exact Steps.pure fun s h => ⟨h, rfl⟩
    | error e => exact Steps.throw
  · obtain rfl := hi j (by rw [hv]; rfl)
    refine steps_getConf_bind (Steps.failIf_bind fun _ => Steps.failIf_bind fun _ => ?_)
    exact (steps_commit (.openSecy port conf hv) hk).bind fun _ => Steps.failIf.post fun _ _ _ => trivial

/-- Every exported call is a sequence of small steps of its SecY's slot. -/
theorem steps_op (h : Inv c) (hf : Fits sp c) {op : Op} {port : MacsecPort} (hi : ∀ j, op.slot c port = some j → j = i)
    (hs : op.InScope sp i c) :
    Steps (trace bus sp i) (fun s => s.conf = c) (op.call bus port) fun _ _ => True := by
  cases op with
  | secyConfAdd conf => exact steps_secyConfAddPriv hi (hs.kinds rfl) conf
  | secyConfUpdate conf =>
    refine Steps.failIf_bind fun _ => steps_portCheck_bind hi fun _ hu => ?_
    exact steps_secyConfUpdate (fun _ _ => id) (disablesTxSa_trace (hs.kinds (by simp [Op.kinds]))) h hf hu
      (hs.kinds (by simp [Op.kinds])) (hs.kinds (by simp [Op.kinds])) conf
  | secyConfDel =>
    refine steps_portCheck_bind hi fun _ hu => ?_
    exact (steps_secyConfDel_trace h hf hu (hs.kinds (by simp [Op.kinds])) (hs.kinds (by simp [Op.kinds]))
      (fun a d hne => hs.zero ⟨a, hne⟩) (hs.kinds (by simp [Op.kinds])) (hs.kinds (by simp [Op.kinds]))).post
      fun _ _ _ => trivial
  | secyControlledSet enable =>
    exact steps_portCheck_bind hi fun _ hu => steps_secyControlledSet h hf hu (hs.kinds rfl) enable
  | bypassTagSet tag =>
    refine steps_getConf_bind (Steps.failIf_bind fun _ => ?_)
    refine steps_attempt_portCheck.bind fun o => ?_
    cases o with
    | none => exact Steps.pure fun _ _ => trivial
    | some j =>
      refine Steps.imp fun hj => ?_
      obtain rfl := hi j (hj j rfl)
      have hu := hasPort_inUse (portFind_spec (hj j rfl)).2
      exact (steps_commit (.settings (fun s => { s with tagBypass := tag }) ⟨rfl, rfl, rfl, rfl, rfl, rfl⟩ hu)
        (hs.kinds rfl)).post fun _ _ _ => trivial
  | txScSet => exact steps_portCheck_bind hi fun _ hu => steps_txScSet hu (hs.kinds rfl)
  | txScUpdate conf =>
    refine Steps.failIf_bind fun _ => steps_portCheck_bind hi fun _ hu => steps_getConf_bind ?_
    exact (steps_commit (.settings _ ⟨rfl, rfl, rfl, rfl, rfl, rfl⟩ hu) (hs.kinds rfl)).bind fun _ =>
      Steps.failIf.post fun _ _ _ => trivial
  | txScDel =>
    refine steps_portCheck_bind hi fun _ _ => ?_
    exact (steps_txScDel (fun _ _ => id) (disablesTxSa_trace (hs.kinds (by simp [Op.kinds]))) h hf
      (hs.kinds (by simp [Op.kinds])) (hs.kinds (by simp [Op.kinds]))).post fun _ _ _ => trivial
  | rxScAdd sci => exact steps_portCheck_bind hi fun _ hu => steps_rxScAdd hu (hs.kinds rfl) sci
  | rxScUpdate sci conf =>
    exact Steps.failIf_bind fun _ => steps_portCheck_bind hi fun _ _ => steps_rxScUpdatePriv (hs.kinds rfl) sci conf
  | rxScDel sci => exact steps_portCheck_bind hi fun _ _ => steps_rxScDel_any h hf (hs.kinds rfl) sci
  | txSaSet an nextPn b sak ssci =>
    exact steps_portCheck_bind hi fun _ _ => steps_txSaSet h (fun r hr => hs.alloc _ r rfl hr) (hs.kinds rfl) _ _ _ _
  | txSaActivate an => exact steps_portCheck_bind hi fun _ _ => steps_txSaActivate h hf (hs.kinds rfl)
  | txSaDisable an =>
    exact steps_portCheck_bind hi fun _ _ => (steps_txSaDisable h hf (hs.kinds rfl)).post fun _ _ _ => trivial
  | txSaDel an =>
    exact steps_portCheck_bind hi fun _ _ => (steps_txSaDel h hf fun r hr => hs.kinds ⟨r, hr, rfl⟩).post
      fun _ _ _ => trivial
  | rxSaSet sci an lowestPn sak ssci =>
    exact steps_portCheck_bind hi fun _ _ => steps_rxSaSet h hf (fun r hr => hs.alloc _ r rfl hr) (hs.kinds rfl) _ _ _
  | rxSaActivate sci an => exact steps_portCheck_bind hi fun _ _ => steps_rxSaActivate h hf (hs.kinds rfl)
  | rxSaDisable sci an =>
    exact steps_portCheck_bind hi fun _ _ => (steps_rxSaDisable h hf (hs.kinds rfl)).post fun _ _ _ => trivial
  | rxSaDel sci an =>
    exact steps_portCheck_bind hi fun _ _ => (steps_rxSaDel h hf (hs.kinds rfl)).post fun _ _ _ => trivial
  | rxSaLowestPnUpdate sci an lowestPn => exact steps_portCheck_bind hi fun _ _ => steps_rxSaLowestPnUpdate lowestPn
  | patternSet d a pattern =>
    refine steps_getConf_bind (Steps.failIf_bind fun _ => Steps.failIf_bind fun _ => ?_)
    refine Steps.bind (Steps.orFail steps_portCheck) fun j => Steps.imp fun hj => ?_
    obtain rfl := hi j hj
    have hu := hasPort_inUse (portFind_spec hj).2
    refine Steps.bind (Q := fun _ s => (s.conf.secy j).inUse = true) (Steps.when (fun _ => ?_) fun s _ hs' => ?_)
      fun _ => ?_
    · refine (Steps.orFail (steps_patternSet h hu (fun r hr => hs.alloc d r rfl hr) (hs.kinds rfl) pattern)).post
        fun _ s hs' => ?_
      obtain ⟨r, hr⟩ := hs'
      rw [hr, linkPattern_part Secy.inUse fun _ _ => rfl]
      exact hu
    · rw [hs']
      exact hu
    · intro s hu'
      exact (steps_commit (.settings _ ⟨rfl, rfl, rfl, rfl, rfl, rfl⟩ hu') (hs.kinds rfl)).post (fun _ _ _ => trivial) s rfl
  | patternDel d a =>
    refine Steps.bind (Steps.orFail steps_portCheck) fun j => Steps.imp fun hj => ?_
    obtain rfl := hi j hj
    have hu := hasPort_inUse (portFind_spec hj).2
    refine Steps.bind (Q := fun _ s => (s.conf.secy j).inUse = true) (Steps.when (fun ha => ?_) fun s _ hs' => ?_)
      fun _ => ?_
    · refine (Steps.orFail (steps_patternDel h hf hu (fun hne => hs.zero ⟨rfl, ha, hne⟩) (hs.kinds rfl))).post
        fun _ s hs' => ?_
      rw [hs'.2, freePattern_part Secy.inUse fun _ _ _ => rfl]
      exact hu
    · rw [hs']
      exact hu
    · intro s hu'
      exact (steps_commit (.settings _ ⟨rfl, rfl, rfl, rfl, rfl, rfl⟩ hu') (hs.kinds rfl)).post (fun _ _ _ => trivial) s rfl

/-- However an exported call ends, it has made small steps only. -/
theorem trace_op {s : Dev MacsecConf H} (h : Inv s.conf) (hf : Fits sp s.conf) {op : Op} {port : MacsecPort}
    (hi : ∀ j, op.slot s.conf port = some j → j = i) (hs : op.InScope sp i s.conf) :
    Relation.ReflTransGen (Micro bus sp i) s (final (op.call bus port) s) :=
  (steps_op h hf hi hs s rfl).1

/-! ## Runs -/

/-- The scope of a call, wherever the tables lie. -/
def Op.scope (op : Op) (i : Nat) (c : MacsecConf) : Scope := ⟨op.kinds c i, op.zeroDirs c i, fun _ => maxSa, maxRxSc⟩

theorem Inv.fits_scope (h : Inv c) (op : Op) : Fits (op.scope i c) c where
  recs {d r} hu := by
    cases d with
    | egress => exact h.tx_lt hu
    | ingress => exact h.rx_lt hu
  hws hu := h.hw_lt hu

theorem Op.inScope_scope (op : Op) : op.InScope (op.scope i c) i c where
  kinds := subset_rfl
  zero := subset_rfl
  alloc _ _ _ hr := (recordEmptyGet_spec hr).2

/-- A call is a sequence of small steps of the SecY it is addressed to; when it is addressed to none, of any. -/
theorem trace_call {s : Dev MacsecConf H} (h : Inv s.conf) {op : Op} {port : MacsecPort}
    (hi : ∀ j, op.slot s.conf port = some j → j = i) :
    Relation.ReflTransGen (Micro bus (op.scope i s.conf) i) s (final (op.call bus port) s) :=
  trace_op h (h.fits_scope op) hi op.inScope_scope

/-- A call addressed to a port keeps the tables linked, whether it succeeds or fails. -/
theorem inv_call {s : Dev MacsecConf H} (h : Inv s.conf) (op : Op) (port : MacsecPort) :
    Inv (final (op.call bus port) s).conf := by
  have hi : ∀ j, op.slot s.conf port = some j → j = (op.slot s.conf port).getD 0 := fun j hj => by rw [hj]; rfl
  exact trace_inv (trace_call h hi) h

theorem Step.inv {s s' : Dev MacsecConf H} (hst : Step bus s s') (h : Inv s.conf) : Inv s'.conf := by
  cases hst with
  | call port op => exact inv_call h op port
  | drift _ _ => exact h

/-- In every reachable state the tables are linked. -/
theorem reachable_inv {s : Dev MacsecConf H} (hs : Reachable bus s) : Inv s.conf := by
  obtain ⟨glb, h₀, hrun⟩ := hs
  induction hrun with
  | refl => exact inv_init glb
  | tail _ hst ih => exact hst.inv ih

/-- The state after a sequence of calls. -/
def calls (bus : PortBus H) (ops : List (MacsecPort × Op)) (s : Dev MacsecConf H) : Dev MacsecConf H :=
  ops.foldl (fun s op => final (op.2.call bus op.1) s) s

theorem steps_calls (ops : List (MacsecPort × Op)) (s : Dev MacsecConf H) :
    Relation.ReflTransGen (Step bus) s (calls bus ops s) := by
  induction ops generalizing s with
  | nil => exact .refl
  | cons op ops ih => exact .head (.call op.1 op.2 s) (ih _)

theorem reachable_calls (ops : List (MacsecPort × Op)) (glb : Glb) (h : H) :
    Reachable bus (calls bus ops ⟨macsecInit glb, h⟩) :=
  ⟨glb, h, steps_calls ops _⟩

/-! ### A port to run calls on -/

/-- A port whose registers are storage and nothing else. -/
abbrev bench : PortRegs (IoReg → BitVec 32) := storage statusReg liveReg

/-- The port after `macsec_init_set`. -/
def benchInit : Dev MacsecConf (IoReg → BitVec 32) := ⟨macsecInit { initEnable := true }, fun _ => 0⟩

def benchPort (portId : Nat) : MacsecPort := ⟨0, 0, portId⟩

def benchSecy : SecyConf := { macAddr := ⟨#[2, 0, 0, 0, 0, 1], rfl⟩ }

theorem reachable_bench (ops : List (MacsecPort × Op)) : Reachable bench.toBus (calls bench.toBus ops benchInit) :=
  reachable_calls ops _ _

end Lan80xx.Macsec
