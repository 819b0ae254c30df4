import Lan80xx.Macsec.Invariant

/-!
# MACsec: the tables stay linked, receive side

The updates of receive channels, receive SAs and match patterns keep `Inv`, and `Commit.inv` puts all updates together.
-/

namespace Lan80xx.Macsec

open Ownership MacsecConf

/-! ## Receive channels -/

section Rx

variable {c : MacsecConf} {i sc an p r hw : Nat} {sci : Sci}

theorem setRxScAt_eq {f : RxSc → RxSc} (hp : (c.secy i).rxSc sc = some p) : c.setRxScAt i sc f = c.setRxSc p f := by
  simp [setRxScAt, hp]

theorem rxScAt_eq (hp : (c.secy i).rxSc sc = some p) : c.rxScAt i sc = c.rxSc p := by
  simp [rxScAt, hp]

/-- An update of a receive channel's settings. -/
theorem Inv.updateRxScConf (h : Inv c) (conf : RxScConf) : Inv (updateRxScConf i c sc conf) := by
  unfold MacsecConf.updateRxScConf setRxScAt
  cases hs : (c.secy i).rxSc sc with
  | none => exact h
  | some p =>
    refine h.of_rx rfl rfl ?_ ?_
    · exact h.toRxInv.congr (setRxSc_part RxSc.sa rfl) (fun q hq => by rw [setRxSc_part RxSc.inUse rfl q]; exact hq)
        (fun _ _ => rfl) (fun _ => rfl) fun _ => rfl
    · exact h.toScInv.congr (fun _ => rfl) (setRxSc_part RxSc.inUse rfl) (setRxSc_part RxSc.sci rfl)
        (setRxSc_part RxSc.hwScIdx rfl) rfl

theorem Inv.flagRxSa (h : Inv c) (b : Bool) : Inv (flagRxSa i c sc an b) := by
  unfold MacsecConf.flagRxSa setRxSaAt
  cases hs : (c.rxScAt i sc).sa an with
  | none => exact h
  | some r =>
    refine h.of_rx rfl rfl ?_ (h.toScInv.congr (fun _ => rfl) (fun _ => rfl) (fun _ => rfl) (fun _ => rfl) rfl)
    exact h.toRxInv.congr (fun _ => rfl) (fun _ => id) (fun _ _ => rfl) (setRxSa_part RxSa.inUse rfl)
      (setRxSa_part RxSa.record rfl)

theorem addRxSc_rxScPtr (j sc' : Nat) :
    ((addRxSc i c sc p hw sci).secy j).rxSc sc' = if j = i ∧ sc' = sc then some p else (c.secy j).rxSc sc' := by
  simp only [addRxSc, setRxSc_secy, setSecy_secy]
  by_cases hj : j = i
  · subst hj
    simp only [if_true, true_and, Function.update_apply]
  · simp [hj]

theorem addRxSc_part {β : Type} (g : Secy → β) (hg : ∀ s rxSc, g { s with rxSc } = g s) (j : Nat) :
    g ((addRxSc i c sc p hw sci).secy j) = g (c.secy j) := by
  rw [addRxSc, setRxSc_secy]
  exact setSecy_part g (hg _ _) j

theorem addRxSc_other {q : Nat} (hq : q ≠ p) : (addRxSc i c sc p hw sci).rxSc q = c.rxSc q := by
  simp [addRxSc, setRxSc_rxSc, hq]

theorem addRxSc_self (i sc p hw : Nat) (sci : Sci) (c : MacsecConf) :
    ((addRxSc i c sc p hw sci).rxSc p).inUse = true ∧ ((addRxSc i c sc p hw sci).rxSc p).sci = sci ∧
      ((addRxSc i c sc p hw sci).rxSc p).hwScIdx = hw ∧
      ((addRxSc i c sc p hw sci).rxSc p).sa = (c.rxSc p).sa := by
  simp [addRxSc, setRxSc_rxSc]

theorem getLsbD_setBit (m : BitVec 64) (k b : Nat) (hk : k < 64) :
    (m ||| (1#64 <<< k)).getLsbD b = (m.getLsbD b || decide (b = k)) := by
  simp only [BitVec.getLsbD_or, BitVec.getLsbD_shiftLeft, BitVec.getLsbD_one]
  congr 1
  by_cases hb : b = k
  · subst hb
    simp [hk]
  · rw [decide_eq_false hb]
    by_cases hlt : b < k
    · simp [hlt]
    · have : b - k ≠ 0 := by omega
      simp [this]

theorem getLsbD_clearBit (m : BitVec 64) (k b : Nat) (hk : k < 64) :
    (m &&& ~~~(1#64 <<< k)).getLsbD b = (m.getLsbD b && decide (b ≠ k)) := by
  simp only [BitVec.getLsbD_and, BitVec.getLsbD_not, BitVec.getLsbD_shiftLeft, BitVec.getLsbD_one]
  by_cases hb64 : b < 64
  · by_cases hb : b = k
    · subst hb
      simp [hk]
    · by_cases hlt : b < k
      · simp [hlt, hb, hb64]
      · have : b - k ≠ 0 := by omega
        simp [this, hb, hb64]
  · simp [BitVec.getLsbD_of_ge m b (by omega)]

/-- An entry of `rx_sc` and a CAM index are taken for a channel. -/
theorem Inv.addRxSc (h : Inv c) (hi : (c.secy i).inUse = true) (hsc : sc < maxRxSc)
    (hfree : (c.secy i).rxSc sc = none) (hp : p < maxRxSc) (hpu : (c.rxSc p).inUse = false) (hhw : hw < maxRxSc)
    (hbit : c.rxScHwIdxInUse.getLsbD hw = false) (hsci : ∀ q < maxRxSc, (c.rxSc q).sci ≠ sci) :
    Inv (addRxSc i c sc p hw sci) := by
  obtain ⟨hsu, hssci, hshw, hssa⟩ := addRxSc_self i sc p hw sci c
  have hin : ∀ j, ((MacsecConf.addRxSc i c sc p hw sci).secy j).inUse = (c.secy j).inUse :=
    addRxSc_part Secy.inUse fun _ _ => rfl
  have htx : ∀ j, ((MacsecConf.addRxSc i c sc p hw sci).secy j).txSc = (c.secy j).txSc :=
    addRxSc_part Secy.txSc fun _ _ => rfl
  have hpr : ∀ j, ((MacsecConf.addRxSc i c sc p hw sci).secy j).patternRecord = (c.secy j).patternRecord :=
    addRxSc_part Secy.patternRecord fun _ _ => rfl
  have hpat : ∀ d j a, (MacsecConf.addRxSc i c sc p hw sci).saOwner d (.pattern j a) = c.saOwner d (.pattern j a) :=
    fun d j a => saOwner_pattern_congr (hin j) (by rw [hpr])
  have hdead : ∀ {j sc'}, (c.secy j).rxSc sc' ≠ some p := fun {j sc'} hj => by
    simp [h.sc.live (s := (j, sc')) hj] at hpu
  have hbits : (MacsecConf.addRxSc i c sc p hw sci).rxScHwIdxInUse = c.rxScHwIdxInUse ||| (1#64 <<< hw) := rfl
  exact
    { toTxInv := h.toTxInv.congr (fun j => by rw [htx]) (fun j an r hj => by rw [htx]; exact (h.tx_place hj).2)
        (fun j => by rw [htx]; exact h.tx_encoding j) (hpat _) (fun _ => rfl) (fun _ => rfl) fun _ => Or.inl
      toRxInv := h.toRxInv.congr
        (fun q => by
          by_cases hq : q = p
          · rw [hq, hssa]
          · rw [addRxSc_other hq])
        (fun q hq => by
          by_cases hqp : q = p
          · rw [hqp, hsu]
          · rwa [addRxSc_other hqp])
        (hpat _) (fun _ => rfl) fun _ => rfl
      sc := by
        refine h.sc.link (u := (i, sc)) (e := p) hfree (by simp [hpu]) ?_ ?_ fun q => ?_
        · simp [scOwner, addRxSc_rxScPtr]
        · rintro ⟨j, sc'⟩ hs
          simp only [scOwner, addRxSc_rxScPtr]
          rw [if_neg]
          rintro ⟨rfl, rfl⟩
          exact hs rfl
        · by_cases hq : q = p
          · simp [hq, hsu]
          · simp [addRxSc_other hq, hq]
      sc_place := fun {j sc' q} hj => by
        rw [addRxSc_rxScPtr] at hj
        split at hj
        · next hjs => rw [hjs.2]; exact hsc
        · exact h.sc_place hj
      sc_lt := fun {q} hq => by
        by_cases hqp : q = p
        · rwa [hqp]
        · rw [addRxSc_other hqp] at hq
          exact h.sc_lt hq
      sci_inj := fun {q q'} hq hq' heq => by
        by_cases hqp : q = p <;> by_cases hqp' : q' = p
        · rw [hqp, hqp']
        · subst hqp
          rw [addRxSc_other hqp'] at hq' heq
          rw [hssci] at heq
          exact absurd heq.symm (hsci q' (h.sc_lt hq'))
        · subst hqp'
          rw [addRxSc_other hqp] at hq heq
          rw [hssci] at heq
          exact absurd heq (hsci q (h.sc_lt hq))
        · rw [addRxSc_other hqp] at hq heq
          rw [addRxSc_other hqp'] at hq' heq
          exact h.sci_inj hq hq' heq
      hw_lt := fun {q} hq => by
        by_cases hqp : q = p
        · rwa [hqp, hshw]
        · rw [addRxSc_other hqp] at hq ⊢
          exact h.hw_lt hq
      hw_used := fun {q} hq => by
        rw [hbits, getLsbD_setBit _ _ _ hhw]
        by_cases hqp : q = p
        · simp [hqp, hshw]
        · rw [addRxSc_other hqp] at hq ⊢
          simp [h.hw_used hq]
      hw_inj := fun {q q'} hq hq' heq => by
        by_cases hqp : q = p <;> by_cases hqp' : q' = p
        · rw [hqp, hqp']
        · subst hqp
          rw [addRxSc_other hqp'] at hq' heq
          rw [hshw] at heq
          simp [heq, h.hw_used hq'] at hbit
        · subst hqp'
          rw [addRxSc_other hqp] at hq heq
          rw [hshw] at heq
          simp [← heq, h.hw_used hq] at hbit
        · rw [addRxSc_other hqp] at hq heq
          rw [addRxSc_other hqp'] at hq' heq
          exact h.hw_inj hq hq' heq
      secy_lt := fun {j} => by
        rw [hin]
        exact h.secy_lt
      txSc_secy := fun {j} => by
        rw [hin, htx]
        exact h.txSc_secy
      sc_secy := fun {j sc' q} hj => by
        rw [hin]
        rw [addRxSc_rxScPtr] at hj
        split at hj
        · next hjs => rw [hjs.1]; exact hi
        · exact h.sc_secy hj }

theorem freeRxSc_rxScPtr (j sc' : Nat) :
    ((freeRxSc i c sc).secy j).rxSc sc' = if j = i ∧ sc' = sc then none else (c.secy j).rxSc sc' := by
  have hsecy : ∀ (c' : MacsecConf) f, (c'.setRxScAt i sc f).secy = c'.secy := fun c' f => by
    unfold setRxScAt
    split <;> rfl
  simp only [freeRxSc, setSecy_secy, hsecy]
  by_cases hj : j = i
  · subst hj
    simp only [if_true, true_and, Function.update_apply]
  · simp [hj]

theorem freeRxSc_eq (hp : (c.secy i).rxSc sc = some p) : freeRxSc i c sc =
    ({ c with rxScHwIdxInUse := c.rxScHwIdxInUse &&& ~~~(1#64 <<< (c.rxSc p).hwScIdx) }.setRxSc p fun _ => {}).setSecy
      i fun s => { s with rxSc := Function.update s.rxSc sc none } := by
  simp [freeRxSc, rxScAt_eq hp, setRxScAt, hp]

/-- A channel without SAs gives up its entry of `rx_sc` and its CAM index. -/
theorem Inv.freeRxSc (h : Inv c) (hp : (c.secy i).rxSc sc = some p) (hsa : ∀ an, (c.rxSc p).sa an = none) :
    Inv (freeRxSc i c sc) := by
  have hin : ∀ j, ((MacsecConf.freeRxSc i c sc).secy j).inUse = (c.secy j).inUse := by
    rw [freeRxSc_eq hp]
    exact setSecy_part Secy.inUse rfl
  have htx : ∀ j, ((MacsecConf.freeRxSc i c sc).secy j).txSc = (c.secy j).txSc := by
    rw [freeRxSc_eq hp]
    exact setSecy_part Secy.txSc rfl
  have hpr : ∀ j, ((MacsecConf.freeRxSc i c sc).secy j).patternRecord = (c.secy j).patternRecord := by
    rw [freeRxSc_eq hp]
    exact setSecy_part Secy.patternRecord rfl
  have hpat : ∀ d j a, (MacsecConf.freeRxSc i c sc).saOwner d (.pattern j a) = c.saOwner d (.pattern j a) :=
    fun d j a => saOwner_pattern_congr (hin j) (by rw [hpr])
  have hrx : ∀ q, (MacsecConf.freeRxSc i c sc).rxSc q = if q = p then {} else c.rxSc q := fun q => by
    rw [freeRxSc_eq hp]
    simp [setRxSc_rxSc]
  have htxSa : (MacsecConf.freeRxSc i c sc).txSa = c.txSa := by rw [freeRxSc_eq hp]; rfl
  have hrxSa : (MacsecConf.freeRxSc i c sc).rxSa = c.rxSa := by rw [freeRxSc_eq hp]; rfl
  have hbits : (MacsecConf.freeRxSc i c sc).rxScHwIdxInUse =
      c.rxScHwIdxInUse &&& ~~~(1#64 <<< (c.rxSc p).hwScIdx) := by rw [freeRxSc_eq hp]; rfl
  have hlive : ∀ {q}, ((MacsecConf.freeRxSc i c sc).rxSc q).inUse = true →
      q ≠ p ∧ (MacsecConf.freeRxSc i c sc).rxSc q = c.rxSc q := fun {q} hq => by
    rw [hrx] at hq ⊢
    split at hq
    · simp at hq
    · next hqp => exact ⟨hqp, by simp [hqp]⟩
  have hpu : (c.rxSc p).inUse = true := h.sc.live (s := (i, sc)) hp
  exact
    { toTxInv := h.toTxInv.congr (fun j => by rw [htx]) (fun j an r hj => by rw [htx]; exact (h.tx_place hj).2)
        (fun j => by rw [htx]; exact h.tx_encoding j) (hpat _) (fun _ => by rw [htxSa]) (fun _ => by rw [htxSa])
        fun _ hr => Or.inl (by rwa [htxSa] at hr)
      rx := h.rx.congr
        (fun s => by
          cases s with
          | sa q an =>
            simp only [saOwner_ingress_sa, hrx]
            split
            · next hq => rw [hq, hsa]
            · rfl
          | pattern j a => exact hpat _ j a)
        fun r => by rw [hrxSa]
      rx_place := fun {q an r} hq => by
        rw [hrx] at hq ⊢
        split at hq
        · simp at hq
        · next hqp =>
          rw [if_neg hqp]
          exact h.rx_place hq
      rx_record := fun {q an r} hq => by
        rw [hrxSa]
        rw [hrx] at hq
        split at hq
        · simp at hq
        · exact h.rx_record hq
      rx_lt := fun {r} => by
        rw [hrxSa]
        exact h.rx_lt
      sc := by
        refine h.sc.unlink (u := (i, sc)) (e := p) hp ?_ ?_ fun q => ?_
        · simp [scOwner, freeRxSc_rxScPtr]
        · rintro ⟨j, sc'⟩ hs
          simp only [scOwner, freeRxSc_rxScPtr]
          rw [if_neg]
          rintro ⟨rfl, rfl⟩
          exact hs rfl
        · by_cases hq : q = p <;> simp [hrx, hq]
      sc_place := fun {j sc' q} hj => by
        rw [freeRxSc_rxScPtr] at hj
        split at hj
        · cases hj
        · exact h.sc_place hj
      sc_lt := fun {q} hq => by
        obtain ⟨-, he⟩ := hlive hq
        exact h.sc_lt (he ▸ hq)
      sci_inj := fun {q q'} hq hq' heq => by
        obtain ⟨-, he⟩ := hlive hq
        obtain ⟨-, he'⟩ := hlive hq'
        rw [he] at hq heq
        rw [he'] at hq' heq
        exact h.sci_inj hq hq' heq
      hw_lt := fun {q} hq => by
        obtain ⟨-, he⟩ := hlive hq
        rw [he] at hq ⊢
        exact h.hw_lt hq
      hw_used := fun {q} hq => by
        obtain ⟨hqp, he⟩ := hlive hq
        rw [he] at hq ⊢
        rw [hbits, getLsbD_clearBit _ _ _ (h.hw_lt hpu)]
        have hne : (c.rxSc q).hwScIdx ≠ (c.rxSc p).hwScIdx := fun hhw => hqp (h.hw_inj hq hpu hhw)
        simp [h.hw_used hq, hne]
      hw_inj := fun {q q'} hq hq' heq => by
        obtain ⟨-, he⟩ := hlive hq
        obtain ⟨-, he'⟩ := hlive hq'
        rw [he] at hq heq
        rw [he'] at hq' heq
        exact h.hw_inj hq hq' heq
      secy_lt := fun {j} => by
        rw [hin]
        exact h.secy_lt
      txSc_secy := fun {j} => by
        rw [hin, htx]
        exact h.txSc_secy
      sc_secy := fun {j sc' q} hj => by
        rw [hin]
        rw [freeRxSc_rxScPtr] at hj
        split at hj
        · cases hj
        · exact h.sc_secy hj }

/-! ## Receive SAs -/

section Link

variable {lowestPn : PktNum} {sak : Sak} {ssci : Option Ssci}

theorem linkRxSa_secy : (linkRxSa i c sc an r lowestPn sak ssci).secy = c.secy := by
  simp only [linkRxSa, setRxSa_secy, setRxScAt]
  split <;> rfl

theorem linkRxSa_sa (hp : (c.secy i).rxSc sc = some p) (q an' : Nat) :
    ((linkRxSa i c sc an r lowestPn sak ssci).rxSc q).sa an' =
      if q = p ∧ an' = an then some r else (c.rxSc q).sa an' := by
  simp only [linkRxSa, setRxSa_rxSc, setRxScAt_eq hp, setRxSc_rxSc]
  by_cases hq : q = p
  · subst hq
    simp only [if_true, true_and, Function.update_apply]
  · simp [hq]

theorem linkRxSa_rxSc_part {β : Type} (hp : (c.secy i).rxSc sc = some p) (g : RxSc → β)
    (hg : ∀ x sa, g { x with sa } = g x) (q : Nat) :
    g ((linkRxSa i c sc an r lowestPn sak ssci).rxSc q) = g (c.rxSc q) := by
  rw [linkRxSa, setRxSa_rxSc, setRxScAt_eq hp]
  exact setRxSc_part g (hg _ _) q

theorem linkRxSa_other {r' : Nat} (hr : r' ≠ r) :
    (linkRxSa i c sc an r lowestPn sak ssci).rxSa r' = c.rxSa r' := by
  simp only [linkRxSa, setRxSa_rxSa, if_neg hr, setRxScAt]
  split <;> rfl

theorem linkRxSa_self : ((linkRxSa i c sc an r lowestPn sak ssci).rxSa r).inUse = true ∧
    ((linkRxSa i c sc an r lowestPn sak ssci).rxSa r).record = r := by
  simp [linkRxSa, setRxSa_rxSa]

/-- An SA record is taken for an association number of a receive channel. -/
theorem Inv.linkRxSa (h : Inv c) (hp : (c.secy i).rxSc sc = some p) (han : an < saPerScMax)
    (hsa : (c.rxSc p).sa an = none) (hr : (c.rxSa r).inUse = false) (hlt : r < maxSa) :
    Inv (linkRxSa i c sc an r lowestPn sak ssci) := by
  have hpat : ∀ d j a, (MacsecConf.linkRxSa i c sc an r lowestPn sak ssci).saOwner d (.pattern j a) =
      c.saOwner d (.pattern j a) := fun d j a => saOwner_pattern_congr (by rw [linkRxSa_secy]) (by rw [linkRxSa_secy])
  have hu : ∀ q, ((MacsecConf.linkRxSa i c sc an r lowestPn sak ssci).rxSc q).inUse = (c.rxSc q).inUse :=
    linkRxSa_rxSc_part hp RxSc.inUse fun _ _ => rfl
  have htx : (MacsecConf.linkRxSa i c sc an r lowestPn sak ssci).txSa = c.txSa := by
    simp only [MacsecConf.linkRxSa, setRxSa_txSa, setRxScAt]
    split <;> rfl
  refine h.of_rx linkRxSa_secy htx ?_ ?_
  · refine h.toRxInv.link (u := .sa p an) hsa hr hlt (fun s => ?_) (fun _ => linkRxSa_other) linkRxSa_self.1
      linkRxSa_self.2 fun {q an' r'} hq => ?_
    · cases s with
      | sa q an' => simp only [saOwner_ingress_sa, linkRxSa_sa hp, SaPlace.sa.injEq]
      | pattern j a => simpa using hpat _ j a
    · rw [hu]
      rw [linkRxSa_sa hp] at hq
      split at hq
      · next hqa => exact hqa.1 ▸ hqa.2 ▸ ⟨han, h.sc.live (s := (i, sc)) hp⟩
      · exact h.rx_place hq
  · exact h.toScInv.congr (fun j => by rw [linkRxSa_secy]) hu (linkRxSa_rxSc_part hp RxSc.sci fun _ _ => rfl)
      (linkRxSa_rxSc_part hp RxSc.hwScIdx fun _ _ => rfl) (by simp only [MacsecConf.linkRxSa, setRxScAt_eq hp]; rfl)

theorem freeRxSa_secy : (freeRxSa i c sc an r).secy = c.secy := by
  simp only [freeRxSa, setRxScAt]
  split <;> rfl

theorem freeRxSa_sa (hp : (c.secy i).rxSc sc = some p) (q an' : Nat) :
    ((freeRxSa i c sc an r).rxSc q).sa an' = if q = p ∧ an' = an then none else (c.rxSc q).sa an' := by
  have hp' : ((c.setRxSa r fun _ => {}).secy i).rxSc sc = some p := hp
  simp only [freeRxSa, setRxScAt_eq hp', setRxSc_rxSc, setRxSa_rxSc]
  by_cases hq : q = p
  · subst hq
    simp only [if_true, true_and, Function.update_apply]
  · simp [hq]

theorem freeRxSa_rxSc_part {β : Type} (hp : (c.secy i).rxSc sc = some p) (g : RxSc → β)
    (hg : ∀ x sa, g { x with sa } = g x) (q : Nat) : g ((freeRxSa i c sc an r).rxSc q) = g (c.rxSc q) := by
  have hp' : ((c.setRxSa r fun _ => {}).secy i).rxSc sc = some p := hp
  rw [freeRxSa, setRxScAt_eq hp']
  exact setRxSc_part g (hg _ _) q

theorem freeRxSa_rxSa (r' : Nat) : (freeRxSa i c sc an r).rxSa r' = if r' = r then {} else c.rxSa r' := by
  simp only [freeRxSa, setRxScAt]
  split <;> simp [setRxSa_rxSa]

/-- An association number of a receive channel gives up its record. -/
theorem Inv.freeRxSa (h : Inv c) (hp : (c.secy i).rxSc sc = some p) (hsa : (c.rxSc p).sa an = some r) :
    Inv (freeRxSa i c sc an r) := by
  have hpat : ∀ d j a, (MacsecConf.freeRxSa i c sc an r).saOwner d (.pattern j a) = c.saOwner d (.pattern j a) :=
    fun d j a => saOwner_pattern_congr (by rw [freeRxSa_secy]) (by rw [freeRxSa_secy])
  have hu : ∀ q, ((MacsecConf.freeRxSa i c sc an r).rxSc q).inUse = (c.rxSc q).inUse :=
    freeRxSa_rxSc_part hp RxSc.inUse fun _ _ => rfl
  have htx : (MacsecConf.freeRxSa i c sc an r).txSa = c.txSa := by
    simp only [MacsecConf.freeRxSa, setRxScAt]
    split <;> rfl
  have hp' : ((c.setRxSa r fun _ => {}).secy i).rxSc sc = some p := hp
  refine h.of_rx freeRxSa_secy htx ?_ ?_
  · refine h.toRxInv.unlink (u := .sa p an) hsa (fun s => ?_) (fun r' hr' => ?_) ?_ fun {q an' r'} hq => ?_
    · cases s with
      | sa q an' => simp only [saOwner_ingress_sa, freeRxSa_sa hp, SaPlace.sa.injEq]
      | pattern j a => simpa using hpat _ j a
    · rw [freeRxSa_rxSa, if_neg hr']
    · rw [freeRxSa_rxSa, if_pos rfl]
    · rw [hu]
      rw [freeRxSa_sa hp] at hq
      split at hq
      · cases hq
      · exact h.rx_place hq
  · exact h.toScInv.congr (fun j => by rw [freeRxSa_secy]) hu (freeRxSa_rxSc_part hp RxSc.sci fun _ _ => rfl)
      (freeRxSa_rxSc_part hp RxSc.hwScIdx fun _ _ => rfl) (by simp only [MacsecConf.freeRxSa, setRxScAt_eq hp']; rfl)

end Link

end Rx

/-! ## Match patterns -/

section Pattern

variable {c : MacsecConf} {i r : Nat} {a : MatchAction} {d : Direction}

/-- What taking or giving up a pattern record keeps of every SecY. -/
theorem linkPattern_part {β : Type} (g : Secy → β) (hg : ∀ s patternRecord, g { s with patternRecord } = g s)
    (j : Nat) : g ((linkPattern i c a d r).secy j) = g (c.secy j) := by
  rw [linkPattern, setPatternRecord, setSecy_part g (hg _ _)]
  cases d <;> rfl

theorem freePattern_part {β : Type} (g : Secy → β)
    (hg : ∀ s patternRecord pattern, g { s with patternRecord, pattern } = g s) (j : Nat) :
    g ((freePattern i c a d r).secy j) = g (c.secy j) := by
  rw [freePattern, MacsecConf.setPattern, setSecy_part g (hg _ _ _), setPatternRecord, setSecy_part g (hg _ _ _)]
  cases d <;> rfl

theorem linkPattern_patternRecord (j : Nat) (a' : MatchAction) (d' : Direction) :
    ((linkPattern i c a d r).secy j).patternRecord a' d' =
      if j = i ∧ a' = a ∧ d' = d then r else (c.secy j).patternRecord a' d' := by
  have hsecy : ((c.setSaRecord d r).setSaInUse d r true).secy = c.secy := by cases d <;> rfl
  simp only [linkPattern, setPatternRecord, setSecy_secy, hsecy]
  by_cases hj : j = i
  · subst hj
    simp
  · simp [hj]

theorem freePattern_patternRecord (j : Nat) (a' : MatchAction) (d' : Direction) :
    ((freePattern i c a d r).secy j).patternRecord a' d' =
      if j = i ∧ a' = a ∧ d' = d then notInUse else (c.secy j).patternRecord a' d' := by
  have hsecy : (c.setSaInUse d r false).secy = c.secy := by cases d <;> rfl
  simp only [freePattern, setPatternRecord, MacsecConf.setPattern, setSecy_secy, hsecy]
  by_cases hj : j = i
  · subst hj
    simp
  · simp [hj]

theorem linkPattern_rxSc : (linkPattern i c a d r).rxSc = c.rxSc := by
  cases d <;> rfl

theorem freePattern_rxSc : (freePattern i c a d r).rxSc = c.rxSc := by
  cases d <;> rfl

theorem linkPattern_saOwner (hi : (c.secy i).inUse = true) (hr : r ≠ notInUse) (d' : Direction) (s : SaPlace) :
    (linkPattern i c a d r).saOwner d' s = if d' = d ∧ s = .pattern i a then some r else c.saOwner d' s := by
  have hin : ∀ j, ((linkPattern i c a d r).secy j).inUse = (c.secy j).inUse :=
    linkPattern_part Secy.inUse fun _ _ => rfl
  have htx : ∀ j, ((linkPattern i c a d r).secy j).txSc = (c.secy j).txSc := linkPattern_part Secy.txSc fun _ _ => rfl
  cases s with
  | sa n an =>
    rw [if_neg (by simp)]
    cases d' with
    | egress => simp only [saOwner_egress_sa, htx]
    | ingress => simp only [saOwner_ingress_sa, linkPattern_rxSc]
  | pattern j a' =>
    rw [saOwner_pattern, saOwner_pattern, hin, linkPattern_patternRecord]
    by_cases hj : j = i ∧ a' = a ∧ d' = d
    · obtain ⟨rfl, rfl, rfl⟩ := hj
      simp [hi, hr]
    · have hs : ¬(d' = d ∧ SaPlace.pattern j a' = .pattern i a) := by
        rintro ⟨rfl, hp⟩
        simp only [SaPlace.pattern.injEq] at hp
        exact hj ⟨hp.1, hp.2, rfl⟩
      simp only [if_neg hj, if_neg hs]

theorem freePattern_saOwner (d' : Direction) (s : SaPlace) :
    (freePattern i c a d r).saOwner d' s = if d' = d ∧ s = .pattern i a then none else c.saOwner d' s := by
  have hin : ∀ j, ((freePattern i c a d r).secy j).inUse = (c.secy j).inUse :=
    freePattern_part Secy.inUse fun _ _ _ => rfl
  have htx : ∀ j, ((freePattern i c a d r).secy j).txSc = (c.secy j).txSc :=
    freePattern_part Secy.txSc fun _ _ _ => rfl
  cases s with
  | sa n an =>
    rw [if_neg (by simp)]
    cases d' with
    | egress => simp only [saOwner_egress_sa, htx]
    | ingress => simp only [saOwner_ingress_sa, freePattern_rxSc]
  | pattern j a' =>
    rw [saOwner_pattern, saOwner_pattern, hin, freePattern_patternRecord]
    by_cases hj : j = i ∧ a' = a ∧ d' = d
    · obtain ⟨rfl, rfl, rfl⟩ := hj
      simp
    · have hs : ¬(d' = d ∧ SaPlace.pattern j a' = .pattern i a) := by
        rintro ⟨rfl, hp⟩
        simp only [SaPlace.pattern.injEq] at hp
        exact hj ⟨hp.1, hp.2, rfl⟩
      simp only [if_neg hj, if_neg hs]

/-- The transmit records after an update of one record's `in_use` and `record`. -/
theorem linkPattern_txSa (r' : Nat) : (linkPattern i c a .egress r).txSa r' =
    if r' = r then { c.txSa r with record := r, inUse := true } else c.txSa r' := by
  simp only [linkPattern, setPatternRecord, setSecy_txSa, setSaInUse, setSaRecord, setTxSa_txSa]
  split <;> simp

theorem linkPattern_rxSa (r' : Nat) : (linkPattern i c a .ingress r).rxSa r' =
    if r' = r then { c.rxSa r with record := r, inUse := true } else c.rxSa r' := by
  simp only [linkPattern, setPatternRecord, setSecy_rxSa, setSaInUse, setSaRecord, setRxSa_rxSa]
  split <;> simp

theorem freePattern_txSa (r' : Nat) : (freePattern i c a .egress r).txSa r' =
    if r' = r then { c.txSa r with inUse := false } else c.txSa r' := by
  simp only [freePattern, MacsecConf.setPattern, setPatternRecord, setSecy_txSa, setSaInUse, setTxSa_txSa]

theorem freePattern_rxSa (r' : Nat) : (freePattern i c a .ingress r).rxSa r' =
    if r' = r then { c.rxSa r with inUse := false } else c.rxSa r' := by
  simp only [freePattern, MacsecConf.setPattern, setPatternRecord, setSecy_rxSa, setSaInUse, setRxSa_rxSa]

/-- The parts of the invariant that a pattern update does not touch. -/
theorem Inv.of_patterns (h : Inv c) {c' : MacsecConf} (htx : TxInv c') (hrx : RxInv c')
    (hp : ∀ j, (c'.secy j).inUse = (c.secy j).inUse ∧ (c'.secy j).txSc = (c.secy j).txSc ∧
      (c'.secy j).rxSc = (c.secy j).rxSc) (hr : c'.rxSc = c.rxSc) (hb : c'.rxScHwIdxInUse = c.rxScHwIdxInUse) :
    Inv c' := by
  have hsc : ScInv c' := h.toScInv.congr (fun j => (hp j).2.2) (fun _ => by rw [hr]) (fun _ => by rw [hr])
    (fun _ => by rw [hr]) hb
  exact h.of_parts htx hrx hsc (fun j => (hp j).1) (fun j => by rw [(hp j).2.1]) fun j => (hp j).2.2

/-- An SA record is taken for a pattern. -/
theorem Inv.linkPattern (h : Inv c) (hi : (c.secy i).inUse = true) (hpat : (c.secy i).patternRecord a d = notInUse)
    (hr : c.saInUse d r = false) (hlt : r < maxSa) : Inv (linkPattern i c a d r) := by
  have hne : r ≠ notInUse := by
    rintro rfl
    exact absurd hlt (by decide)
  have hown := linkPattern_saOwner (c := c) (i := i) (a := a) (d := d) (r := r) hi hne
  have htx : ∀ j, ((MacsecConf.linkPattern i c a d r).secy j).txSc = (c.secy j).txSc :=
    linkPattern_part Secy.txSc fun _ _ => rfl
  have hfresh : c.saOwner d (.pattern i a) = none := saOwner_pattern_of_notInUse hpat
  have hparts : ∀ j, ((MacsecConf.linkPattern i c a d r).secy j).inUse = (c.secy j).inUse ∧
      ((MacsecConf.linkPattern i c a d r).secy j).txSc = (c.secy j).txSc ∧
      ((MacsecConf.linkPattern i c a d r).secy j).rxSc = (c.secy j).rxSc := fun j =>
    ⟨linkPattern_part Secy.inUse (fun _ _ => rfl) j, htx j, linkPattern_part Secy.rxSc (fun _ _ => rfl) j⟩
  cases d with
  | egress =>
    refine h.of_patterns ?_ ?_ hparts rfl rfl
    · refine h.toTxInv.link hfresh hr hlt (fun s => by simp [hown]) (fun r' hr' => ?_) ?_ ?_ (fun hr' => Or.inl ?_)
        (fun {j an r'} => ?_) fun j => by rw [htx]
      · rw [linkPattern_txSa, if_neg hr']
      · rw [linkPattern_txSa, if_pos rfl]
      · rw [linkPattern_txSa, if_pos rfl]
      · rwa [linkPattern_txSa, if_pos rfl] at hr'
      · rw [htx]
        exact h.tx_place
    · exact h.toRxInv.congr (fun _ => rfl) (fun _ => id) (fun j a' => by simp [hown]) (fun _ => rfl) fun _ => rfl
  | ingress =>
    refine h.of_patterns ?_ ?_ hparts rfl rfl
    · exact h.toTxInv.congr (fun j => by rw [htx]) (fun j an r hj => by rw [htx]; exact (h.tx_place hj).2)
        (fun j => by rw [htx]; exact h.tx_encoding j) (fun j a' => by simp [hown]) (fun _ => rfl) (fun _ => rfl)
        fun _ => Or.inl
    · refine h.toRxInv.link hfresh hr hlt (fun s => by simp [hown]) (fun r' hr' => ?_) ?_ ?_ h.rx_place
      · rw [linkPattern_rxSa, if_neg hr']
      · rw [linkPattern_rxSa, if_pos rfl]
      · rw [linkPattern_rxSa, if_pos rfl]

/-- A pattern gives up its record. -/
theorem Inv.freePattern (h : Inv c) (hi : (c.secy i).inUse = true) (hpat : (c.secy i).patternRecord a d ≠ notInUse) :
    Inv (freePattern i c a d ((c.secy i).patternRecord a d)) := by
  obtain ⟨r, hr⟩ : ∃ r, (c.secy i).patternRecord a d = r := ⟨_, rfl⟩
  rw [hr] at hpat ⊢
  have hown := freePattern_saOwner (c := c) (i := i) (a := a) (d := d) (r := r)
  have htx : ∀ j, ((MacsecConf.freePattern i c a d r).secy j).txSc = (c.secy j).txSc :=
    freePattern_part Secy.txSc fun _ _ _ => rfl
  have hheld : c.saOwner d (.pattern i a) = some r := by
    rw [saOwner_pattern, hr]
    simp [hi, hpat]
  have hparts : ∀ j, ((MacsecConf.freePattern i c a d r).secy j).inUse = (c.secy j).inUse ∧
      ((MacsecConf.freePattern i c a d r).secy j).txSc = (c.secy j).txSc ∧
      ((MacsecConf.freePattern i c a d r).secy j).rxSc = (c.secy j).rxSc := fun j =>
    ⟨freePattern_part Secy.inUse (fun _ _ _ => rfl) j, htx j, freePattern_part Secy.rxSc (fun _ _ _ => rfl) j⟩
  cases d with
  | egress =>
    refine h.of_patterns ?_ ?_ hparts rfl rfl
    · refine h.toTxInv.unlink hheld (fun s => by simp [hown]) (fun r' hr' => ?_) ?_ (fun hr' => ⟨?_, by simp⟩)
        (fun {j an r'} => ?_) fun j => by rw [htx]
      · rw [freePattern_txSa, if_neg hr']
      · rw [freePattern_txSa, if_pos rfl]
      · rwa [freePattern_txSa, if_pos rfl] at hr'
      · rw [htx]
        exact h.tx_place
    · exact h.toRxInv.congr (fun _ => rfl) (fun _ => id) (fun j a' => by simp [hown]) (fun _ => rfl) fun _ => rfl
  | ingress =>
    refine h.of_patterns ?_ ?_ hparts rfl rfl
    · exact h.toTxInv.congr (fun j => by rw [htx]) (fun j an r hj => by rw [htx]; exact (h.tx_place hj).2)
        (fun j => by rw [htx]; exact h.tx_encoding j) (fun j a' => by simp [hown]) (fun _ => rfl) (fun _ => rfl)
        fun _ => Or.inl
    · refine h.toRxInv.unlink hheld (fun s => by simp [hown]) (fun r' hr' => ?_) ?_ h.rx_place
      · rw [freePattern_rxSa, if_neg hr']
      · rw [freePattern_rxSa, if_pos rfl]

end Pattern

/-! ## All updates -/

/-- The kinds of updates that some properties of a run have to tell apart. -/
inductive Kind
  | opens
  | closes
  | txSwitch
  | txFree (enabled : Bool)
  | other
  deriving DecidableEq

/-- The updates a call for SecY `i` makes, each with what the call has checked by then. -/
inductive Commit (i : Nat) (c : MacsecConf) : Kind → MacsecConf → Prop
  | openSecy (port : MacsecPort) (conf : SecyConf) (hv : portVacancy c port = .ok i) :
      Commit i c .opens (openSecy i c port conf)
  | settings (f : Secy → Secy) (hf : (c.secy i).SameLinks (f (c.secy i))) (hi : (c.secy i).inUse = true) :
      Commit i c .other (c.setSecy i f)
  | clearSecy (hi : (c.secy i).inUse = true) (htx : (c.secy i).txSc.inUse = false)
      (hrx : ∀ sc, (c.secy i).rxSc sc = none) (hpat : ∀ a d, (c.secy i).patternRecord a d = notInUse) :
      Commit i c .closes (clearSecy i c)
  | openTxSc (hi : (c.secy i).inUse = true) : Commit i c .other (openTxSc i c)
  | clearTxSc (hi : (c.secy i).inUse = true) (hsa : ∀ an, (c.secy i).txSc.sa an = none) :
      Commit i c .other (clearTxSc i c)
  | linkTxSa (an r : Nat) (nextPn : PktNum) (b : Bool) (sak : Sak) (ssci : Option Ssci) (han : an < saPerScMax)
      (hu : (c.secy i).txSc.inUse = true) (hsa : (c.secy i).txSc.sa an = none)
      (hr : c.recordEmptyGet .egress = some r) : Commit i c .other (linkTxSa i c an r nextPn b sak ssci)
  | activateTxSa (an : Nat) (b : Bool) (han : an < saPerScMax) (hsa : (c.secy i).txSc.sa an ≠ none)
      (hb : b = (c.txSaAt i (c.secy i).txSc.encodingSa).enabled) :
      Commit i c .txSwitch (activateTxSa i c an (c.secy i).txSc.encodingSa b)
  | disableTxSa (an : Nat) (han : an < saPerScMax) (hsa : (c.secy i).txSc.sa an ≠ none) :
      Commit i c .txSwitch (disableTxSa i c an)
  | freeTxSa (an r : Nat) (hsa : (c.secy i).txSc.sa an = some r) :
      Commit i c (.txFree (c.txSa r).enabled) (freeTxSa i c an r)
  | addRxSc (sc p hw : Nat) (sci : Sci) (hi : (c.secy i).inUse = true) (hp : rxScPlace c i = some (sc, p, hw))
      (hsci : ∀ q < maxRxSc, (c.rxSc q).sci ≠ sci) : Commit i c .other (addRxSc i c sc p hw sci)
  | updateRxScConf (sc p : Nat) (conf : RxScConf) (hp : (c.secy i).rxSc sc = some p) :
      Commit i c .other (updateRxScConf i c sc conf)
  | freeRxSc (sc p : Nat) (hp : (c.secy i).rxSc sc = some p) (hsa : ∀ an, (c.rxSc p).sa an = none) :
      Commit i c .other (freeRxSc i c sc)
  | linkRxSa (sc p an r : Nat) (lowestPn : PktNum) (sak : Sak) (ssci : Option Ssci)
      (hp : (c.secy i).rxSc sc = some p) (han : an < saPerScMax) (hsa : (c.rxSc p).sa an = none)
      (hr : c.recordEmptyGet .ingress = some r) : Commit i c .other (linkRxSa i c sc an r lowestPn sak ssci)
  | flagRxSa (sc p an : Nat) (b : Bool) (hp : (c.secy i).rxSc sc = some p) :
      Commit i c .other (flagRxSa i c sc an b)
  | freeRxSa (sc p an r : Nat) (hp : (c.secy i).rxSc sc = some p) (hsa : (c.rxSc p).sa an = some r) :
      Commit i c .other (freeRxSa i c sc an r)
  | linkPattern (a : MatchAction) (d : Direction) (r : Nat) (hi : (c.secy i).inUse = true)
      (hpat : (c.secy i).patternRecord a d = notInUse) (hr : c.recordEmptyGet d = some r) :
      Commit i c .other (linkPattern i c a d r)
  | freePattern (a : MatchAction) (d : Direction) (hi : (c.secy i).inUse = true)
      (hpat : (c.secy i).patternRecord a d ≠ notInUse) :
      Commit i c .other (freePattern i c a d ((c.secy i).patternRecord a d))

theorem recordEmptyGet_spec {c : MacsecConf} {d : Direction} {r : Nat} (h : c.recordEmptyGet d = some r) :
    c.saInUse d r = false ∧ r < maxSa := by
  unfold MacsecConf.recordEmptyGet at h
  have h₁ := List.find?_some h
  have h₂ := List.mem_of_find?_eq_some h
  exact ⟨by simpa using h₁, by simpa using h₂⟩

theorem portVacancyFrom_ok {c : MacsecConf} {port : MacsecPort} {i : Nat} : ∀ {is : List Nat},
    portVacancyFrom c port is = .ok i → i ∈ is ∧ (c.secy i).inUse = false
  | [], h => by simp [portVacancyFrom] at h
  | j :: is, h => by
    rw [portVacancyFrom] at h
    split_ifs at h with h₁ h₂
    · obtain ⟨hm, hu⟩ := portVacancyFrom_ok h
      exact ⟨List.mem_cons_of_mem _ hm, hu⟩
    · cases h
      exact ⟨List.mem_cons_self, by simpa using h₂⟩

theorem portVacancy_ok {c : MacsecConf} {port : MacsecPort} {i : Nat} (h : portVacancy c port = .ok i) :
    i < maxSecy ∧ (c.secy i).inUse = false := by
  obtain ⟨hm, hu⟩ := portVacancyFrom_ok h
  exact ⟨by simpa using hm, hu⟩

theorem rxScPlace_spec {c : MacsecConf} {i sc p hw : Nat} (h : rxScPlace c i = some (sc, p, hw)) :
    (sc < maxRxSc ∧ (c.secy i).rxSc sc = none) ∧ (p < maxRxSc ∧ (c.rxSc p).inUse = false) ∧
      hw < maxRxSc ∧ c.rxScHwIdxInUse.getLsbD hw = false := by
  simp only [rxScPlace, Option.bind_eq_bind, Option.bind_eq_some_iff, Option.pure_def, Option.some.injEq,
    Prod.mk.injEq] at h
  obtain ⟨sc', hsc, p', hp, hw', hhw, rfl, rfl, rfl⟩ := h
  refine ⟨⟨?_, ?_⟩, ⟨?_, ?_⟩, ?_, ?_⟩
  · simpa using List.mem_of_find?_eq_some hsc
  · simpa using List.find?_some hsc
  · simpa using List.mem_of_find?_eq_some hp
  · simpa using List.find?_some hp
  · simpa using List.mem_of_find?_eq_some hhw
  · simpa using List.find?_some hhw

/-- Every update keeps the tables linked. -/
theorem Commit.inv {i : Nat} {c c' : MacsecConf} {k : Kind} (hc : Commit i c k c') (h : Inv c) : Inv c' := by
  cases hc with
  | openSecy port conf hv => exact h.openSecy (portVacancy_ok hv).2 (portVacancy_ok hv).1 port conf
  | settings f hf _ => exact h.setSecy hf
  | clearSecy _ htx hrx hpat => exact h.clearSecy htx hrx hpat
  | openTxSc hi => exact h.openTxSc hi
  | clearTxSc _ hsa => exact h.clearTxSc hsa
  | linkTxSa an r nextPn b sak ssci han hu hsa hr =>
    exact h.linkTxSa han hu hsa (recordEmptyGet_spec hr).1 (recordEmptyGet_spec hr).2 nextPn b sak ssci
  | activateTxSa an b han hsa _ =>
    obtain ⟨r, hr⟩ := Option.ne_none_iff_exists'.mp hsa
    exact h.activateTxSa han (h.tx_place hr).2 _ b
  | disableTxSa an _ _ => exact h.disableTxSa
  | freeTxSa an r hsa => exact h.freeTxSa hsa
  | addRxSc sc p hw sci hi hp hsci =>
    obtain ⟨⟨h₁, h₂⟩, ⟨h₃, h₄⟩, h₅, h₆⟩ := rxScPlace_spec hp
    exact h.addRxSc hi h₁ h₂ h₃ h₄ h₅ h₆ hsci
  | updateRxScConf sc p conf _ => exact h.updateRxScConf conf
  | freeRxSc sc p hp hsa => exact h.freeRxSc hp hsa
  | linkRxSa sc p an r lowestPn sak ssci hp han hsa hr =>
    exact h.linkRxSa hp han hsa (recordEmptyGet_spec hr).1 (recordEmptyGet_spec hr).2
  | flagRxSa sc p an b _ => exact h.flagRxSa b
  | freeRxSa sc p an r hp hsa => exact h.freeRxSa hp hsa
  | linkPattern a d r hi hpat hr =>
    exact h.linkPattern hi hpat (recordEmptyGet_spec hr).1 (recordEmptyGet_spec hr).2
  | freePattern a d hi hpat => exact h.freePattern hi hpat

end Lan80xx.Macsec
