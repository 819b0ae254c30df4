import Lan80xx.VtssMacsec.Updates

/-!
# MACsec of the VTSS PHYs: one transmit SA at a time

While an SA of a SecY is active, its match entry is to be the only one of the SecY's that is enabled.

- `Switches`: what is known of the registers, which entries are enabled and which are marked as in use;
- `Exclusive`, `TxInv`: the property, and the invariant that carries it;
- `TxInv.take`, `TxInv.activate`, `TxInv.disable`, `TxInv.free`: what an SA's calls store.
-/

namespace Lan80xx.VtssMacsec

open Fallible RegBus
open Macsec (saPerScMax notInUse)

/-! ## The switches of the transmit side -/

/-- `SAM_ENTRY_ENABLE` and `SA_IN_USE` of the transmit entries. Their own accesses are answered; a sequence that writes
the flow control of a record may leave any mark there. -/
structure Switches {H : Type} (hw : Hw H) where
  entry : H → Nat → Bool
  mark : H → Nat → Bool
  enable : ∀ r b c h, (hw.run (.saEnable r .egress b) c h).1 = true ∧
    entry (hw.run (.saEnable r .egress b) c h).2 = Function.update (entry h) r b ∧
    mark (hw.run (.saEnable r .egress b) c h).2 = mark h
  inuse : ∀ r b c h, (hw.run (.saInuse r .egress b) c h).1 = true ∧
    entry (hw.run (.saInuse r .egress b) c h).2 = entry h ∧
    mark (hw.run (.saInuse r .egress b) c h).2 = Function.update (mark h) r b
  flowSet : ∀ r i an sc a c h, entry (hw.run (.saFlowSet .egress r i an sc a) c h).2 = entry h ∧
    ∃ b, mark (hw.run (.saFlowSet .egress r i an sc a) c h).2 = Function.update (mark h) r b
  flowClear : ∀ r c h, entry (hw.run (.saFlowClear .egress r) c h).2 = entry h ∧
    ∃ b, mark (hw.run (.saFlowClear .egress r) c h).2 = Function.update (mark h) r b
  plain : ∀ op, op.plain = true → ∀ c h, entry (hw.run op c h).2 = entry h ∧ mark (hw.run op c h).2 = mark h
  nextPn : ∀ c i r h, entry (hw.nextPn c i r h).2 = entry h ∧ mark (hw.nextPn c i r h).2 = mark h

variable {H : Type} {hw : Hw H} {phy : Phy} {c c' : Conf} {e u : Nat → Bool} {i j an bn r q : Nat}

/-! ## The invariant -/

variable (c i) in
/-- Some transmit SA of the SecY is active. -/
def Active : Prop := ∃ an r, (c.secy i).txSc.sa an = some r ∧ (c.txSa r).enabled = true

variable (c e u i) in
/-- While an SA of the SecY is active: it is the encoding one, its entry is enabled and marked as in use, and the SecY's
other SAs are disabled in the chip and in software. -/
def Exclusive : Prop := ∀ an r, (c.secy i).txSc.sa an = some r → (c.txSa r).enabled = true →
  an = (c.secy i).txSc.encodingSa ∧ e r = true ∧ u r = true ∧
    ∀ bn q, bn ≠ an → (c.secy i).txSc.sa bn = some q → (c.txSa q).enabled = false ∧ e q = false

variable (phy c) in
/-- What the tables keep in every run. -/
structure Slots : Prop where
  bound : ∀ {i an r}, (c.secy i).txSc.sa an = some r → i < phy.maxSecyCnt ∧ an < saPerScMax
  inj : ∀ {i j an bn r}, (c.secy i).txSc.sa an = some r → (c.secy j).txSc.sa bn = some r → j = i ∧ bn = an
  numbered : ∀ {i an r}, (c.secy i).txSc.sa an = some r → (c.txSa r).record = r
  used : ∀ r, (c.txSa r).enabled = true → (c.txSa r).inUse = true
  unmatched : ∀ i, (c.secy i).inUse = true → ∀ a d, (c.secy i).patternRecord a d = notInUse
  recfg : c.glb.spdChangeMacsecRecfg = false

variable (phy c e u) in
/-- The invariant of the runs. -/
structure TxInv : Prop where
  slots : Slots phy c
  exclusive : ∀ i, Exclusive c e u i

theorem Exclusive.encoding (h : Exclusive c e u i) (ha : Active c i) : ∃ r,
    (c.secy i).txSc.sa (c.secy i).txSc.encodingSa = some r ∧ (c.txSa r).enabled = true := by
  obtain ⟨an, r, hsa, hen⟩ := ha
  obtain ⟨rfl, -⟩ := h an r hsa hen
  exact ⟨r, hsa, hen⟩

namespace TxInv

theorem mark_update (h : TxInv phy c e u) (hr : (c.txSa r).enabled = false) (b : Bool) :
    TxInv phy c e (Function.update u r b) := by
  refine ⟨h.slots, fun i an q hsa hen => ?_⟩
  obtain ⟨henc, he, hu, hrest⟩ := h.exclusive i an q hsa hen
  have hne : q ≠ r := by
    rintro rfl
    rw [hr] at hen
    cases hen
  exact ⟨henc, he, by rwa [Function.update_of_ne hne], hrest⟩

/-- The entry of a SecY without an active SA. -/
theorem entry_update (h : TxInv phy c e u) (hsa : (c.secy i).txSc.sa an = some r) (hno : ¬Active c i) (b : Bool) :
    TxInv phy c (Function.update e r b) u := by
  refine ⟨h.slots, fun j bn q hq hen => ?_⟩
  obtain ⟨henc, he, hu, hrest⟩ := h.exclusive j bn q hq hen
  have hji : j ≠ i := by
    rintro rfl
    exact hno ⟨bn, q, hq, hen⟩
  have hne {k t : Nat} (ht : (c.secy j).txSc.sa k = some t) : t ≠ r := by
    rintro rfl
    exact hji (h.slots.inj hsa ht).1
  refine ⟨henc, by rwa [Function.update_of_ne (hne hq)], hu, fun k t hk ht => ?_⟩
  rw [Function.update_of_ne (hne ht)]
  exact hrest k t hk ht

/-- An update of a SecY that leaves it no new SAs, and the encoding SA if there are any. -/
theorem setSecy (h : TxInv phy c e u) {f : Secy → Secy}
    (hsa : ∀ an r, (f (c.secy i)).txSc.sa an = some r → (c.secy i).txSc.sa an = some r ∧
      (f (c.secy i)).txSc.encodingSa = (c.secy i).txSc.encodingSa)
    (hpat : (f (c.secy i)).inUse = true → ∀ a d, (f (c.secy i)).patternRecord a d = notInUse) :
    TxInv phy (c.setSecy i f) e u := by
  have hold {j an r : Nat} (hr : ((c.setSecy i f).secy j).txSc.sa an = some r) : (c.secy j).txSc.sa an = some r ∧
      ((c.setSecy i f).secy j).txSc.encodingSa = (c.secy j).txSc.encodingSa := by
    rw [Conf.setSecy_secy] at hr ⊢
    split at hr
    · next hj =>
      subst hj
      rw [if_pos rfl]
      exact hsa an r hr
    · next hj =>
      rw [if_neg hj]
      exact ⟨hr, rfl⟩
  refine ⟨⟨fun hr => h.slots.bound (hold hr).1, fun hr hq => h.slots.inj (hold hr).1 (hold hq).1,
    fun hr => h.slots.numbered (hold hr).1, h.slots.used, fun j => ?_, h.slots.recfg⟩, fun j an r hr hen => ?_⟩
  · rw [Conf.setSecy_secy]
    split
    · exact hpat
    · exact h.slots.unmatched j
  · obtain ⟨henc, he, hu, hrest⟩ := h.exclusive j an r (hold hr).1 hen
    exact ⟨henc.trans (hold hr).2.symm, he, hu, fun bn q hne hq => hrest bn q hne (hold hq).1⟩

theorem disabled (h : TxInv phy c e u) (hr : (c.txSa r).inUse = false) : (c.txSa r).enabled = false := by
  by_contra hno
  have hin := h.slots.used r (by simpa using hno)
  rw [hr] at hin
  cases hin

/-- An SA takes an entry that no SA has. -/
theorem take (h : TxInv phy c e u) (hi : i < phy.maxSecyCnt) (han : an < saPerScMax) (hfree : (c.txSa r).inUse = false)
    (hnew : ∀ j bn, (c.secy j).txSc.sa bn ≠ some r) (hoff : Active c i → e r = false) {g : TxSa → TxSa}
    (hrec : (g (c.txSa r)).record = r) (hen : (g (c.txSa r)).enabled = (c.txSa r).enabled) :
    TxInv phy ((c.linkTxSa i an (some r)).setTxSa r g) e u := by
  have hself : ((c.linkTxSa i an (some r)).setTxSa r g).txSa r = g (c.txSa r) := by
    rw [Conf.setTxSa_txSa_self]
    rfl
  have hdis : (((c.linkTxSa i an (some r)).setTxSa r g).txSa r).enabled = false := by
    rw [hself, hen, h.disabled hfree]
  have hother {q : Nat} (hq : q ≠ r) : ((c.linkTxSa i an (some r)).setTxSa r g).txSa q = c.txSa q := by
    rw [Conf.setTxSa_txSa, if_neg hq]
    rfl
  -- a slot is the new one, with the entry, or an old one, with another
  have hslot {j bn q : Nat} (hq : (((c.linkTxSa i an (some r)).setTxSa r g).secy j).txSc.sa bn = some q) :
      (j = i ∧ bn = an ∧ q = r) ∨ ((c.secy j).txSc.sa bn = some q ∧ q ≠ r) := by
    rw [Conf.setTxSa_secy, Conf.linkTxSa_sa] at hq
    split at hq
    · next hnew => exact Or.inl ⟨hnew.1, hnew.2, (Option.some.inj hq).symm⟩
    · exact Or.inr ⟨hq, fun hqr => hnew j bn (hqr ▸ hq)⟩
  refine ⟨⟨fun hq => ?_, fun hq hq' => ?_, fun hq => ?_, fun q hq => ?_, fun j => ?_, h.slots.recfg⟩,
    fun j bn q hq hqen => ?_⟩
  · rcases hslot hq with ⟨rfl, rfl, -⟩ | ⟨hq, -⟩
    · exact ⟨hi, han⟩
    · exact h.slots.bound hq
  · rcases hslot hq with ⟨rfl, rfl, rfl⟩ | ⟨hq, hne⟩
    · rcases hslot hq' with ⟨rfl, rfl, -⟩ | ⟨-, hne⟩
      · exact ⟨rfl, rfl⟩
      · exact absurd rfl hne
    · rcases hslot hq' with ⟨-, -, rfl⟩ | ⟨hq', -⟩
      · exact absurd rfl hne
      · exact h.slots.inj hq hq'
  · rcases hslot hq with ⟨-, -, rfl⟩ | ⟨hq, hne⟩
    · rw [hself, hrec]
    · rw [hother hne]
      exact h.slots.numbered hq
  · by_cases hqr : q = r
    · subst hqr
      rw [hdis] at hq
      cases hq
    · rw [hother hqr] at hq ⊢
      exact h.slots.used q hq
  · rw [Conf.setTxSa_secy, Conf.linkTxSa_inUse, Conf.linkTxSa_patternRecord]
    exact h.slots.unmatched j
  · rcases hslot hq with ⟨-, -, rfl⟩ | ⟨hold, hne⟩
    · rw [hdis] at hqen
      cases hqen
    · rw [hother hne] at hqen
      obtain ⟨henc, he, hu, hrest⟩ := h.exclusive j bn q hold hqen
      rw [Conf.setTxSa_secy, Conf.linkTxSa_encodingSa]
      refine ⟨henc, he, hu, fun k t hk ht => ?_⟩
      rcases hslot ht with ⟨rfl, -, rfl⟩ | ⟨ht, hne'⟩
      · exact ⟨hdis, hoff ⟨bn, q, hold, hqen⟩⟩
      · rw [hother hne']
        exact hrest k t hk ht

/-- The entry of an SA that is not in the tables any more. -/
theorem free (h : TxInv phy c e u) (hsa : (c.secy i).txSc.sa an = some r) : TxInv phy (c.freeTxSa i an r) e u := by
  have hslot {j bn q : Nat} (hq : ((c.freeTxSa i an r).secy j).txSc.sa bn = some q) :
      (c.secy j).txSc.sa bn = some q ∧ q ≠ r := by
    rw [Conf.freeTxSa, Conf.linkTxSa_sa, Conf.setTxSa_secy] at hq
    split at hq
    · cases hq
    · next hne =>
      refine ⟨hq, ?_⟩
      rintro rfl
      exact hne (h.slots.inj hsa hq)
  have hother {q : Nat} (hq : q ≠ r) : (c.freeTxSa i an r).txSa q = c.txSa q := by
    rw [Conf.freeTxSa, Conf.linkTxSa_txSa, Conf.setTxSa_txSa, if_neg hq]
  refine ⟨⟨fun hq => h.slots.bound (hslot hq).1, fun hq hq' => h.slots.inj (hslot hq).1 (hslot hq').1, fun hq => ?_,
    fun q hq => ?_, fun j => ?_, h.slots.recfg⟩, fun j bn q hq hqen => ?_⟩
  · rw [hother (hslot hq).2]
    exact h.slots.numbered (hslot hq).1
  · by_cases hqr : q = r
    · subst hqr
      simp [Conf.freeTxSa] at hq
    · rw [hother hqr] at hq ⊢
      exact h.slots.used q hq
  · rw [Conf.freeTxSa, Conf.linkTxSa_inUse, Conf.linkTxSa_patternRecord]
    exact h.slots.unmatched j
  · obtain ⟨hold, hne⟩ := hslot hq
    rw [hother hne] at hqen
    obtain ⟨henc, he, hu, hrest⟩ := h.exclusive j bn q hold hqen
    rw [Conf.freeTxSa, Conf.linkTxSa_encodingSa, Conf.setTxSa_secy]
    refine ⟨henc, he, hu, fun k t hk ht => ?_⟩
    rw [← Conf.freeTxSa, hother (hslot ht).2]
    exact hrest k t hk (hslot ht).1

/-- What is stored about an SA that is in use, its number and its mark apart. -/
theorem setTxSa_slots (h : Slots phy c) {f : TxSa → TxSa} (hrec : (f (c.txSa r)).record = (c.txSa r).record)
    (huse : (f (c.txSa r)).enabled = true → (f (c.txSa r)).inUse = true) : Slots phy (c.setTxSa r f) where
  bound := h.bound
  inj := h.inj
  numbered {i an q} hq := by
    rw [Conf.setTxSa_txSa]
    split
    · next hqr =>
      subst hqr
      exact hrec.trans (h.numbered hq)
    · exact h.numbered hq
  used q := by
    rw [Conf.setTxSa_txSa]
    split
    · exact huse
    · exact h.used q
  unmatched := h.unmatched
  recfg := h.recfg

/-- An SA is disabled, with its entry. -/
theorem dim (h : TxInv phy c e u) (hsa : (c.secy i).txSc.sa an = some r) {f : TxSa → TxSa}
    (hen : (f (c.txSa r)).enabled = false) (hrec : (f (c.txSa r)).record = (c.txSa r).record) :
    TxInv phy (c.setTxSa r f) (Function.update e r false) u := by
  refine ⟨setTxSa_slots h.slots hrec fun hq => ?_, fun j bn q hq hqen => ?_⟩
  · rw [hen] at hq
    cases hq
  · by_cases hqr : q = r
    · subst hqr
      rw [Conf.setTxSa_txSa_self, hen] at hqen
      cases hqen
    · rw [Conf.setTxSa_txSa, if_neg hqr] at hqen
      obtain ⟨henc, he, hu, hrest⟩ := h.exclusive j bn q hq hqen
      refine ⟨henc, by rwa [Function.update_of_ne hqr], hu, fun k t hk ht => ?_⟩
      rw [Conf.setTxSa_txSa, Function.update_apply]
      split
      · exact ⟨hen, rfl⟩
      · exact hrest k t hk ht

/-- A SecY without an active SA may take any encoding SA. -/
theorem recode (h : TxInv phy c e u) (hno : ¬Active c i) {f : Secy → Secy}
    (hsa : (f (c.secy i)).txSc.sa = (c.secy i).txSc.sa)
    (hin : (f (c.secy i)).inUse = (c.secy i).inUse) (hpat : (f (c.secy i)).patternRecord = (c.secy i).patternRecord) :
    TxInv phy (c.setSecy i f) e u := by
  have hslot (j : Nat) : ((c.setSecy i f).secy j).txSc.sa = (c.secy j).txSc.sa := by
    rw [Conf.setSecy_secy]
    split
    · next hj => rw [hsa, hj]
    · rfl
  refine ⟨⟨fun hq => ?_, fun hq hq' => ?_, fun hq => ?_, h.slots.used, fun j => ?_, h.slots.recfg⟩,
    fun j bn q hq hen => ?_⟩
  · rw [hslot] at hq
    exact h.slots.bound hq
  · rw [hslot] at hq hq'
    exact h.slots.inj hq hq'
  · rw [hslot] at hq
    exact h.slots.numbered hq
  · rw [Conf.setSecy_secy]
    split
    · rw [hin, hpat]
      exact h.slots.unmatched i
    · exact h.slots.unmatched j
  · rw [hslot] at hq
    by_cases hj : j = i
    · subst hj
      exact absurd ⟨bn, q, hq, hen⟩ hno
    · obtain ⟨henc, he, hu, hrest⟩ := h.exclusive j bn q hq hen
      refine ⟨?_, he, hu, fun k t hk ht => ?_⟩
      · rwa [Conf.setSecy_secy, if_neg hj]
      · rw [hslot] at ht
        exact hrest k t hk ht

/-- The encoding SA is enabled, with its entry, when no other SA of the SecY is. -/
theorem light (h : TxInv phy c e u) (hsa : (c.secy i).txSc.sa an = some r) (henc : an = (c.secy i).txSc.encodingSa)
    (hno : ¬Active c i) (hoff : ∀ bn q, bn ≠ an → (c.secy i).txSc.sa bn = some q → e q = false) {f : TxSa → TxSa}
    (huse : (f (c.txSa r)).inUse = true) (hrec : (f (c.txSa r)).record = (c.txSa r).record) :
    TxInv phy (c.setTxSa r f) (Function.update e r true) (Function.update u r true) := by
  refine ⟨setTxSa_slots h.slots hrec fun _ => huse, fun j bn q hq hqen => ?_⟩
  change (c.secy j).txSc.sa bn = some q at hq
  have hne {k t : Nat} (hkt : j ≠ i ∨ k ≠ an) (ht : (c.secy j).txSc.sa k = some t) : t ≠ r := by
    rintro rfl
    obtain ⟨rfl, rfl⟩ := h.slots.inj hsa ht
    exact hkt.elim (fun hj => hj rfl) fun hk => hk rfl
  by_cases hj : j = i
  · subst hj
    by_cases hbn : bn = an
    · subst hbn
      obtain rfl : q = r := Option.some.inj (hq.symm.trans hsa)
      refine ⟨henc, by simp, by simp, fun k t hk ht => ?_⟩
      have htr := hne (Or.inr hk) ht
      rw [Conf.setTxSa_txSa, if_neg htr, Function.update_of_ne htr]
      refine ⟨?_, hoff k t hk ht⟩
      by_contra hten
      exact hno ⟨k, t, ht, by simpa using hten⟩
    · have hqr := hne (Or.inr hbn) hq
      rw [Conf.setTxSa_txSa, if_neg hqr] at hqen
      exact absurd ⟨bn, q, hq, hqen⟩ hno
  · have hqr := hne (Or.inl hj) hq
    rw [Conf.setTxSa_txSa, if_neg hqr] at hqen
    obtain ⟨henc', he, hu, hrest⟩ := h.exclusive j bn q hq hqen
    refine ⟨henc', by rwa [Function.update_of_ne hqr], by rwa [Function.update_of_ne hqr], fun k t hk ht => ?_⟩
    have htr := hne (Or.inl hj) ht
    rw [Conf.setTxSa_txSa, if_neg htr, Function.update_of_ne htr]
    exact hrest k t hk ht

/-- Without its encoding SA a SecY has no active one. -/
theorem not_active_dim (h : TxInv phy c e u) (hsa : (c.secy i).txSc.sa (c.secy i).txSc.encodingSa = some r) {f : TxSa → TxSa}
    (hen : (f (c.txSa r)).enabled = false) : ¬Active (c.setTxSa r f) i := by
  rintro ⟨bn, q, hq, hqen⟩
  by_cases hqr : q = r
  · subst hqr
    rw [Conf.setTxSa_txSa_self, hen] at hqen
    cases hqen
  · rw [Conf.setTxSa_txSa, if_neg hqr] at hqen
    obtain ⟨rfl, -⟩ := h.exclusive i bn q hq hqen
    exact hqr (Option.some.inj (hq.symm.trans hsa))

/-- What `tx_sa_disable` stores. -/
theorem disable (h : TxInv phy c e u) (hsa : (c.secy i).txSc.sa an = some r) :
    TxInv phy (c.disableTxSa i an) (Function.update e r false) (Function.update u r false) := by
  have hdim : TxInv phy (c.setTxSa r fun sa => { sa with enabled := false, statusInUse := false })
      (Function.update e r false) u := h.dim hsa rfl rfl
  have hmark := hdim.mark_update (r := r) (by simp) false
  unfold Conf.disableTxSa
  rw [Conf.setTxSaAt_eq hsa]
  by_cases henc : an = (c.secy i).txSc.encodingSa
  · subst henc
    exact hmark.recode (h.not_active_dim hsa rfl) (by simp) (by simp) (by simp)
  · refine hmark.setSecy (fun k t ht => ?_) fun hin => ?_
    · rw [Conf.setTxSa_secy, if_neg henc] at ht ⊢
      exact ⟨ht, rfl⟩
    · rw [Conf.setTxSa_secy, if_neg henc] at hin ⊢
      exact h.slots.unmatched i hin

/-- What `tx_sa_activate` stores, when no SA of the SecY is active. -/
theorem activate (h : TxInv phy c e u) (hsa : (c.secy i).txSc.sa an = some r) (hin : (c.txSa r).inUse = true)
    (hno : ¬Active c i) (hoff : ∀ bn q, bn ≠ an → (c.secy i).txSc.sa bn = some q → e q = false) :
    TxInv phy (c.activateTxSa i an) (Function.update e r true) (Function.update u r true) := by
  have hcode : TxInv phy (c.setSecy i fun s =>
      { s with txSc := { s.txSc with encodingSa := an, encipheringSa := an } }) e u :=
    h.recode hno rfl rfl rfl
  have hno' : ¬Active (c.setSecy i fun s =>
      { s with txSc := { s.txSc with encodingSa := an, encipheringSa := an } }) i := by
    rintro ⟨bn, q, hq, hen⟩
    rw [Conf.setSecy_secy_self] at hq
    exact hno ⟨bn, q, hq, hen⟩
  have hsa' : ((c.setSecy i fun s =>
      { s with txSc := { s.txSc with encodingSa := an, encipheringSa := an } }).secy i).txSc.sa an = some r := by
    rwa [Conf.setSecy_secy_self]
  have hlight := hcode.light (f := fun sa => { sa with enabled := true, statusInUse := true }) hsa' (by simp) hno'
    (fun bn q hne hq => hoff bn q hne (by rwa [Conf.setSecy_secy_self] at hq)) hin rfl
  unfold Conf.activateTxSa
  rw [Conf.setTxSaAt_eq hsa]
  exact hlight

end TxInv

end Lan80xx.VtssMacsec
