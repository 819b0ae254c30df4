import Lan80xx.VtssMacsec.Updates

/-!
# MACsec of the VTSS PHYs: nonces of the extended suites

Two SAs of a direction under XPN suites must not share key, salt and SSCI. `is_ssci_valid` compares the whole SAK and
the SCI as well.

- `Tables`: what holds of the tables in every run;
- `Shrinks`: an update that leaves fewer SAs under XPN suites, and none of them changed;
- `Carries`: an update that leaves fewer pointers to SAs, and no entry less in use;
- `sheds_update`: the updates that set no SA;
- `handover_retake`, `hauling_speedChange`: the reconfiguration after a change of speed, which sets every SA again.
-/

namespace Lan80xx.VtssMacsec

open Fallible RegBus
open Macsec (Ssci Sci Sak PktNum MatchAction Direction ControlFrameMatchConf saPerScMax notInUse update_none)

variable {H : Type} {hw : Hw H} {phy : Phy} {c c' c₁ : Conf} {d : Direction} {i j an sc p r q : Nat} {sci : Sci}

/-! ## SAs under XPN suites -/

/-- Key, salt and SSCI. -/
structure Nonce where
  key : Vector (BitVec 8) 32
  salt : Vector (BitVec 8) 12
  ssci : Ssci
  deriving DecidableEq

/-- What a SAK and an SSCI contribute to a nonce. -/
def nonceOf (sak : Sak) (ssci : Ssci) : Nonce := { key := sak.buf, salt := sak.salt, ssci }

namespace Conf

def saSak (c : Conf) : Direction → Nat → Sak
  | .egress, r => (c.txSa r).sak
  | .ingress, r => (c.rxSa r).sak

def saSsci (c : Conf) : Direction → Nat → Ssci
  | .egress, r => (c.txSa r).ssci
  | .ingress, r => (c.rxSa r).ssci

def saRecord (c : Conf) : Direction → Nat → Nat
  | .egress, r => (c.txSa r).record
  | .ingress, r => (c.rxSa r).record

def nonce (c : Conf) (d : Direction) (r : Nat) : Nonce := nonceOf (c.saSak d r) (c.saSsci d r)

theorem saInUse_eq (ht : c'.txSa = c.txSa) (hr : c'.rxSa = c.rxSa) (d : Direction) (r : Nat) :
    c'.saInUse d r = c.saInUse d r := by
  cases d with
  | egress => exact congrArg (fun t => (t r).inUse) ht
  | ingress => exact congrArg (fun t => (t r).inUse) hr

theorem saRecord_eq (ht : c'.txSa = c.txSa) (hr : c'.rxSa = c.rxSa) (d : Direction) (r : Nat) :
    c'.saRecord d r = c.saRecord d r := by
  cases d with
  | egress => exact congrArg (fun t => (t r).record) ht
  | ingress => exact congrArg (fun t => (t r).record) hr

theorem nonce_eq (ht : c'.txSa = c.txSa) (hr : c'.rxSa = c.rxSa) (d : Direction) (r : Nat) :
    c'.nonce d r = c.nonce d r := by
  cases d with
  | egress => exact congrArg (fun t => nonceOf (t r).sak (t r).ssci) ht
  | ingress => exact congrArg (fun t => nonceOf (t r).sak (t r).ssci) hr

end Conf

variable (phy c) in
/-- The SecY has the entry for an SA of the channel with this SCI. -/
def SaOf (i : Nat) : Direction → Nat → Sci → Prop
  | .egress, r, sci => sci = (c.secy i).sci ∧ ∃ an < saPerScMax, (c.secy i).txSc.sa an = some r
  | .ingress, r, sci => ∃ sc < phy.maxScCnt, ∃ p, (c.secy i).rxSc sc = some p ∧ (c.rxSc p).inUse = true ∧
    sci = (c.rxSc p).sci ∧ ∃ an < saPerScMax, (c.rxSc p).sa an = some r

variable (phy c) in
/-- A SecY in use, with an XPN suite, points to the entry. -/
def Pointed (d : Direction) (r : Nat) : Prop :=
  ∃ i < phy.maxSecyCnt, (c.secy i).inUse = true ∧ c.xpn i = true ∧ ∃ sci, SaOf phy c i d r sci

variable (phy c) in
/-- The entry holds an SA in use under an XPN suite. -/
def XpnSa (d : Direction) (r : Nat) : Prop := Pointed phy c d r ∧ c.saInUse d r = true

variable (phy c) in
/-- No two SAs of a direction share key, salt and SSCI. -/
def Separate : Prop := ∀ d r q, XpnSa phy c d r → XpnSa phy c d q → c.nonce d r = c.nonce d q → r = q

variable (phy c) in
/-- No SecY with an XPN suite points to an entry that is not in use. -/
def Settled : Prop := ∀ d r, Pointed phy c d r → c.saInUse d r = true

/-! ## What holds of the tables -/

variable (phy c) in
/-- Channels that are free have no SAs, entries in use know their number, and XPN suites are found on a Rev B only. -/
structure Tables : Prop where
  idle : ∀ p, (c.rxSc p).inUse = false → (c.rxSc p).sa = fun _ => none
  numbered : ∀ d r, c.saInUse d r = true → c.saRecord d r = r
  known : ∀ i < phy.maxSecyCnt, (c.secy i).inUse = true → c.xpn i = true → c.glb.macsecRevb = true

namespace Tables

theorem numbered_of_eq (h : Tables phy c) (ht : c'.txSa = c.txSa) (hr : c'.rxSa = c.rxSa) (d : Direction) (r : Nat)
    (hu : c'.saInUse d r = true) : c'.saRecord d r = r := by
  rw [Conf.saInUse_eq ht hr] at hu
  rw [Conf.saRecord_eq ht hr]
  exact h.numbered d r hu

theorem probed : Tables phy {} where
  idle _ _ := rfl
  numbered d _ h := by cases d <;> exact absurd h Bool.false_ne_true
  known _ _ h := absurd h Bool.false_ne_true

/-- Without the mark of a Rev B there are no SAs under XPN suites. -/
theorem not_pointed (h : Tables phy c) (hrev : c.glb.macsecRevb = false) : ¬Pointed phy c d r := by
  rintro ⟨i, hi, hu, hx, -⟩
  have hb := h.known i hi hu hx
  rw [hrev] at hb
  cases hb

theorem setSecy (h : Tables phy c) {f : Secy → Secy} (hf : i < phy.maxSecyCnt → (f (c.secy i)).inUse = true →
    (f (c.secy i)).conf.currentCipherSuite.xpn = true → c.glb.macsecRevb = true) : Tables phy (c.setSecy i f) where
  idle := h.idle
  numbered := h.numbered_of_eq rfl rfl
  known j hj hu hx := by
    unfold Conf.xpn at hx
    rw [Conf.setSecy_secy] at hu hx
    split at hu
    · next hji =>
      rw [if_pos hji] at hx
      exact hf (hji ▸ hj) hu hx
    · next hji =>
      rw [if_neg hji] at hx
      exact h.known j hj hu hx

theorem setTxSa (h : Tables phy c) {f : TxSa → TxSa} (hf : (f (c.txSa r)).inUse = true → (f (c.txSa r)).record = r) :
    Tables phy (c.setTxSa r f) where
  idle := h.idle
  numbered d q hu := by
    cases d with
    | egress =>
      simp only [Conf.saInUse, Conf.saRecord, Conf.setTxSa_txSa] at hu ⊢
      split at hu
      · next hq =>
        subst hq
        rw [if_pos rfl]
        exact hf hu
      · next hq =>
        rw [if_neg hq]
        exact h.numbered .egress q hu
    | ingress => exact h.numbered .ingress q hu
  known := h.known

theorem setRxSa (h : Tables phy c) {f : RxSa → RxSa} (hf : (f (c.rxSa r)).inUse = true → (f (c.rxSa r)).record = r) :
    Tables phy (c.setRxSa r f) where
  idle := h.idle
  numbered d q hu := by
    cases d with
    | egress => exact h.numbered .egress q hu
    | ingress =>
      simp only [Conf.saInUse, Conf.saRecord, Conf.setRxSa_rxSa] at hu ⊢
      split at hu
      · next hq =>
        subst hq
        rw [if_pos rfl]
        exact hf hu
      · next hq =>
        rw [if_neg hq]
        exact h.numbered .ingress q hu
  known := h.known

theorem setRxSc (h : Tables phy c) {f : RxSc → RxSc}
    (hf : (f (c.rxSc p)).inUse = false → (f (c.rxSc p)).sa = fun _ => none) : Tables phy (c.setRxSc p f) where
  idle q hu := by
    rw [Conf.setRxSc_rxSc] at hu ⊢
    split at hu
    · next hq =>
      rw [if_pos hq]
      exact hf hu
    · next hq =>
      rw [if_neg hq]
      exact h.idle q hu
  numbered := h.numbered_of_eq rfl rfl
  known := h.known

theorem setGlb (h : Tables phy c) {f : Glb → Glb} (hf : c.glb.macsecRevb = true → (f c.glb).macsecRevb = true) :
    Tables phy (c.setGlb f) where
  idle := h.idle
  numbered := h.numbered_of_eq rfl rfl
  known j hj hu hx := hf (h.known j hj hu hx)

end Tables

/-! ## What an update keeps -/

variable (phy c c') in
/-- No pointer to an SA is new. -/
structure Fewer : Prop where
  secy : ∀ i < phy.maxSecyCnt, (c'.secy i).inUse = true → c'.xpn i = true → (c.secy i).inUse = true ∧ c.xpn i = true ∧
    (∀ an r, (c'.secy i).txSc.sa an = some r → (c.secy i).txSc.sa an = some r) ∧
    ∀ sc p, (c'.secy i).rxSc sc = some p → (c.secy i).rxSc sc = some p
  rxSc : ∀ p, (c'.rxSc p).inUse = true → (c.rxSc p).inUse = true ∧
    ∀ an r, (c'.rxSc p).sa an = some r → (c.rxSc p).sa an = some r

theorem Fewer.pointed (h : Fewer phy c c') (hp : Pointed phy c' d r) : Pointed phy c d r := by
  obtain ⟨i, hi, hu, hx, sci, hs⟩ := hp
  obtain ⟨hu', hx', htx, hrx⟩ := h.secy i hi hu hx
  cases d with
  | egress =>
    obtain ⟨-, an, han, hsa⟩ := hs
    exact ⟨i, hi, hu', hx', _, rfl, an, han, htx an r hsa⟩
  | ingress =>
    obtain ⟨sc, hsc, p, hp, hpu, -, an, han, hsa⟩ := hs
    obtain ⟨hpu', hptr⟩ := h.rxSc p hpu
    exact ⟨i, hi, hu', hx', _, sc, hsc, p, hrx sc p hp, hpu', rfl, an, han, hptr an r hsa⟩

theorem fewer_of_eq (hs : c'.secy = c.secy) (hr : c'.rxSc = c.rxSc) : Fewer phy c c' where
  secy i _ hu hx := by
    unfold Conf.xpn at hx ⊢
    rw [hs] at hu hx ⊢
    exact ⟨hu, hx, fun _ _ => id, fun _ _ => id⟩
  rxSc p hu := by
    rw [hr] at hu ⊢
    exact ⟨hu, fun _ _ => id⟩

theorem fewer_setSecy {f : Secy → Secy} (hf : (f (c.secy i)).inUse = true →
    (f (c.secy i)).conf.currentCipherSuite.xpn = true → (c.secy i).inUse = true ∧ c.xpn i = true ∧
    (∀ an r, (f (c.secy i)).txSc.sa an = some r → (c.secy i).txSc.sa an = some r) ∧
    ∀ sc p, (f (c.secy i)).rxSc sc = some p → (c.secy i).rxSc sc = some p) : Fewer phy c (c.setSecy i f) where
  secy j _ hu hx := by
    unfold Conf.xpn at hx
    rw [Conf.setSecy_secy] at hu hx ⊢
    split at hu
    · next hj =>
      subst hj
      rw [if_pos rfl] at hx ⊢
      exact hf hu hx
    · next hj =>
      rw [if_neg hj] at hx ⊢
      exact ⟨hu, hx, fun _ _ => id, fun _ _ => id⟩
  rxSc _ hu := ⟨hu, fun _ _ => id⟩

theorem fewer_setRxSc {f : RxSc → RxSc} (hf : (f (c.rxSc p)).inUse = true → (c.rxSc p).inUse = true ∧
    ∀ an r, (f (c.rxSc p)).sa an = some r → (c.rxSc p).sa an = some r) : Fewer phy c (c.setRxSc p f) where
  secy _ _ hu hx := ⟨hu, hx, fun _ _ => id, fun _ _ => id⟩
  rxSc q hu := by
    rw [Conf.setRxSc_rxSc] at hu ⊢
    split at hu
    · next hq =>
      subst hq
      rw [if_pos rfl]
      exact hf hu
    · next hq =>
      rw [if_neg hq]
      exact ⟨hu, fun _ _ => id⟩

variable (phy c c') in
/-- Every SA under an XPN suite was there before, with the same values. -/
def Shrinks : Prop := ∀ d r, XpnSa phy c' d r → XpnSa phy c d r ∧ c'.nonce d r = c.nonce d r

variable (phy c c') in
/-- Every pointer to an SA was there before, the SA has the same values, and is in use if it was. -/
def Carries : Prop := ∀ d r, Pointed phy c' d r →
  Pointed phy c d r ∧ c'.nonce d r = c.nonce d r ∧ (c.saInUse d r = true → c'.saInUse d r = true)

theorem Shrinks.refl (c : Conf) : Shrinks phy c c := fun _ _ h => ⟨h, rfl⟩

theorem Shrinks.trans (h : Shrinks phy c c₁) (h' : Shrinks phy c₁ c') : Shrinks phy c c' := fun d r hr =>
  have h₁ := h' d r hr
  have h₀ := h d r h₁.1
  ⟨h₀.1, h₁.2.trans h₀.2⟩

theorem Separate.shrink (hs : Separate phy c) (h : Shrinks phy c c') : Separate phy c' := by
  intro d r q hr hq hn
  obtain ⟨hr', hnr⟩ := h d r hr
  obtain ⟨hq', hnq⟩ := h d q hq
  exact hs d r q hr' hq' (hnr.symm.trans (hn.trans hnq))

theorem Carries.refl (c : Conf) : Carries phy c c := fun _ _ h => ⟨h, rfl, id⟩

theorem Carries.trans (h : Carries phy c c₁) (h' : Carries phy c₁ c') : Carries phy c c' := fun d r hr =>
  have h₁ := h' d r hr
  have h₀ := h d r h₁.1
  ⟨h₀.1, h₁.2.1.trans h₀.2.1, h₁.2.2 ∘ h₀.2.2⟩

theorem Carries.settled (h : Carries phy c c') (hs : Settled phy c) : Settled phy c' := fun d r hr =>
  have h₀ := h d r hr
  h₀.2.2 (hs d r h₀.1)

theorem Carries.shrinks (h : Carries phy c c') (hs : Settled phy c) : Shrinks phy c c' := fun d r hr =>
  have h₀ := h d r hr.1
  ⟨⟨h₀.1, hs d r h₀.1⟩, h₀.2.1⟩

/-! ## Settings -/

variable (phy c c') in
/-- An update that concerns neither pointers nor keys nor suites. -/
structure Steady : Prop where
  tables : Tables phy c → Tables phy c'
  shrinks : Shrinks phy c c'
  carries : Carries phy c c'
  recfg : c'.glb.spdChangeMacsecRecfg = c.glb.spdChangeMacsecRecfg

theorem Steady.refl (c : Conf) : Steady phy c c := ⟨id, .refl c, .refl c, rfl⟩

theorem Steady.trans (h : Steady phy c c₁) (h' : Steady phy c₁ c') : Steady phy c c' where
  tables := h'.tables ∘ h.tables
  shrinks := h.shrinks.trans h'.shrinks
  carries := h.carries.trans h'.carries
  recfg := h'.recfg.trans h.recfg

theorem steady_of_fewer (hf : Fewer phy c c')
    (he : ∀ d r, c'.saInUse d r = c.saInUse d r ∧ c'.nonce d r = c.nonce d r) (ht : Tables phy c → Tables phy c')
    (hr : c'.glb.spdChangeMacsecRecfg = c.glb.spdChangeMacsecRecfg) : Steady phy c c' where
  tables := ht
  shrinks d r h := ⟨⟨hf.pointed h.1, (he d r).1 ▸ h.2⟩, (he d r).2⟩
  carries d r h := ⟨hf.pointed h, (he d r).2, fun hu => (he d r).1.trans hu⟩
  recfg := hr

theorem steady_setSecy {f : Secy → Secy} (hu : (f (c.secy i)).inUse = (c.secy i).inUse)
    (hx : (f (c.secy i)).conf.currentCipherSuite = (c.secy i).conf.currentCipherSuite)
    (hrx : (f (c.secy i)).rxSc = (c.secy i).rxSc) (htx : (f (c.secy i)).txSc.sa = (c.secy i).txSc.sa) :
    Steady phy c (c.setSecy i f) := by
  refine steady_of_fewer (fewer_setSecy fun h h' => ?_) (fun d r => ⟨Conf.saInUse_eq rfl rfl d r,
    Conf.nonce_eq rfl rfl d r⟩) (fun h => h.setSecy fun hi h' h'' => ?_) rfl
  · rw [hu] at h
    rw [hx] at h'
    exact ⟨h, h', fun an r => by rw [htx]; exact id, fun sc p => by rw [hrx]; exact id⟩
  · rw [hu] at h'
    rw [hx] at h''
    exact h.known i hi h' h''

theorem steady_setTxSa {f : TxSa → TxSa} (hu : (f (c.txSa r)).inUse = (c.txSa r).inUse)
    (hk : (f (c.txSa r)).sak = (c.txSa r).sak) (hs : (f (c.txSa r)).ssci = (c.txSa r).ssci)
    (hr : (f (c.txSa r)).record = (c.txSa r).record) : Steady phy c (c.setTxSa r f) := by
  refine steady_of_fewer (fewer_of_eq rfl rfl) (fun d q => ?_) (fun h => h.setTxSa fun h' => ?_) rfl
  · cases d with
    | egress =>
      simp only [Conf.saInUse, Conf.nonce, Conf.saSak, Conf.saSsci, Conf.setTxSa_txSa]
      split
      · next hq => exact ⟨by rw [hu, hq], by rw [hk, hs, hq]⟩
      · exact ⟨rfl, rfl⟩
    | ingress => exact ⟨rfl, rfl⟩
  · rw [hu] at h'
    rw [hr]
    exact h.numbered .egress r h'

theorem steady_setRxSa {f : RxSa → RxSa} (hu : (f (c.rxSa r)).inUse = (c.rxSa r).inUse)
    (hk : (f (c.rxSa r)).sak = (c.rxSa r).sak) (hs : (f (c.rxSa r)).ssci = (c.rxSa r).ssci)
    (hr : (f (c.rxSa r)).record = (c.rxSa r).record) : Steady phy c (c.setRxSa r f) := by
  refine steady_of_fewer (fewer_of_eq rfl rfl) (fun d q => ?_) (fun h => h.setRxSa fun h' => ?_) rfl
  · cases d with
    | egress => exact ⟨rfl, rfl⟩
    | ingress =>
      simp only [Conf.saInUse, Conf.nonce, Conf.saSak, Conf.saSsci, Conf.setRxSa_rxSa]
      split
      · next hq => exact ⟨by rw [hu, hq], by rw [hk, hs, hq]⟩
      · exact ⟨rfl, rfl⟩
  · rw [hu] at h'
    rw [hr]
    exact h.numbered .ingress r h'

theorem steady_setRxScAt {f : RxSc → RxSc} (hu : ∀ x, (f x).inUse = x.inUse) (hs : ∀ x, (f x).sa = x.sa) :
    Steady phy c (c.setRxScAt i sc f) := by
  unfold Conf.setRxScAt
  split
  · next p _ =>
    refine steady_of_fewer (fewer_setRxSc fun h => ?_) (fun d r => ⟨Conf.saInUse_eq rfl rfl d r,
      Conf.nonce_eq rfl rfl d r⟩) (fun h => h.setRxSc fun h' => ?_) rfl
    · rw [hu] at h
      rw [hs]
      exact ⟨h, fun _ _ => id⟩
    · rw [hu] at h'
      rw [hs]
      exact h.idle p h'
  · exact .refl c

theorem steady_setTxSaAt {f : TxSa → TxSa} (hu : ∀ sa, (f sa).inUse = sa.inUse) (hk : ∀ sa, (f sa).sak = sa.sak)
    (hs : ∀ sa, (f sa).ssci = sa.ssci) (hr : ∀ sa, (f sa).record = sa.record) :
    Steady phy c (c.setTxSaAt i an f) := by
  unfold Conf.setTxSaAt
  split
  · exact steady_setTxSa (hu _) (hk _) (hs _) (hr _)
  · exact .refl c

theorem steady_setRxSaAt {f : RxSa → RxSa} (hu : ∀ sa, (f sa).inUse = sa.inUse) (hk : ∀ sa, (f sa).sak = sa.sak)
    (hs : ∀ sa, (f sa).ssci = sa.ssci) (hr : ∀ sa, (f sa).record = sa.record) :
    Steady phy c (c.setRxSaAt i sc an f) := by
  unfold Conf.setRxSaAt
  split
  · exact steady_setRxSa (hu _) (hk _) (hs _) (hr _)
  · exact .refl c

theorem steady_setGlb {f : Glb → Glb} (hb : c.glb.macsecRevb = true → (f c.glb).macsecRevb = true)
    (hr : (f c.glb).spdChangeMacsecRecfg = c.glb.spdChangeMacsecRecfg) : Steady phy c (c.setGlb f) :=
  steady_of_fewer (fewer_of_eq rfl rfl) (fun d r => ⟨Conf.saInUse_eq rfl rfl d r, Conf.nonce_eq rfl rfl d r⟩)
    (fun h => h.setGlb hb) hr

theorem steady_setControlMatch {rule : Nat} {conf : ControlFrameMatchConf} :
    Steady phy c (c.setControlMatch rule conf) := steady_setGlb id rfl

theorem steady_activateTxSa : Steady phy c (c.activateTxSa i an) := by
  refine Steady.trans ?_ (steady_setSecy rfl rfl rfl rfl)
  exact steady_setTxSaAt (fun _ => rfl) (fun _ => rfl) (fun _ => rfl) fun _ => rfl

theorem steady_disableTxSa : Steady phy c (c.disableTxSa i an) := by
  unfold Conf.disableTxSa
  refine Steady.trans ?_ (steady_setSecy ?_ ?_ ?_ ?_)
  · exact steady_setTxSaAt (fun _ => rfl) (fun _ => rfl) (fun _ => rfl) fun _ => rfl
  all_goals split <;> rfl

theorem steady_flagRxSa {b : Bool} : Steady phy c (c.flagRxSa i sc an b) :=
  steady_setRxSaAt (fun _ => rfl) (fun _ => rfl) (fun _ => rfl) fun _ => rfl

/-! ## Deletions -/

theorem shrinks_setTxSa {f : TxSa → TxSa} (hf : (f (c.txSa r)).inUse = true →
    (c.txSa r).inUse = true ∧ (f (c.txSa r)).sak = (c.txSa r).sak ∧ (f (c.txSa r)).ssci = (c.txSa r).ssci) :
    Shrinks phy c (c.setTxSa r f) := by
  rintro d q ⟨hp, hu⟩
  have hp' : Pointed phy c d q := (fewer_of_eq rfl rfl).pointed hp
  cases d with
  | egress =>
    simp only [XpnSa, Conf.saInUse, Conf.nonce, Conf.saSak, Conf.saSsci, Conf.setTxSa_txSa] at hu ⊢
    split at hu
    · next hq =>
      subst hq
      obtain ⟨hu', hsak, hssci⟩ := hf hu
      exact ⟨⟨hp', hu'⟩, by rw [if_pos rfl, hsak, hssci]⟩
    · next hq => exact ⟨⟨hp', hu⟩, by rw [if_neg hq]⟩
  | ingress => exact ⟨⟨hp', hu⟩, rfl⟩

theorem shrinks_setRxSa {f : RxSa → RxSa} (hf : (f (c.rxSa r)).inUse = true →
    (c.rxSa r).inUse = true ∧ (f (c.rxSa r)).sak = (c.rxSa r).sak ∧ (f (c.rxSa r)).ssci = (c.rxSa r).ssci) :
    Shrinks phy c (c.setRxSa r f) := by
  rintro d q ⟨hp, hu⟩
  have hp' : Pointed phy c d q := (fewer_of_eq rfl rfl).pointed hp
  cases d with
  | egress => exact ⟨⟨hp', hu⟩, rfl⟩
  | ingress =>
    simp only [XpnSa, Conf.saInUse, Conf.nonce, Conf.saSak, Conf.saSsci, Conf.setRxSa_rxSa] at hu ⊢
    split at hu
    · next hq =>
      subst hq
      obtain ⟨hu', hsak, hssci⟩ := hf hu
      exact ⟨⟨hp', hu'⟩, by rw [if_pos rfl, hsak, hssci]⟩
    · next hq => exact ⟨⟨hp', hu⟩, by rw [if_neg hq]⟩

theorem shrinks_of_fewer (hf : Fewer phy c c') (ht : c'.txSa = c.txSa) (hr : c'.rxSa = c.rxSa) : Shrinks phy c c' :=
  fun d r h => ⟨⟨hf.pointed h.1, Conf.saInUse_eq ht hr d r ▸ h.2⟩, Conf.nonce_eq ht hr d r⟩

theorem shrinks_of_not_pointed (h : ∀ d r, ¬Pointed phy c' d r) : Shrinks phy c c' := fun d r hr => absurd hr.1 (h d r)

variable (phy c c') in
/-- An update that leaves at most the SAs there were. -/
def Sheds : Prop := Tables phy c → Tables phy c' ∧ Shrinks phy c c'

theorem Sheds.trans (h : Sheds phy c c₁) (h' : Sheds phy c₁ c') : Sheds phy c c' := fun ht =>
  have h₁ := h ht
  have h₂ := h' h₁.1
  ⟨h₂.1, h₁.2.trans h₂.2⟩

theorem Steady.sheds (h : Steady phy c c') : Sheds phy c c' := fun ht => ⟨h.tables ht, h.shrinks⟩

theorem sheds_setTxSa {f : TxSa → TxSa} (hf : (f (c.txSa r)).inUse = false) : Sheds phy c (c.setTxSa r f) :=
  fun ht => ⟨ht.setTxSa fun hu => absurd (hf.symm.trans hu) Bool.false_ne_true,
    shrinks_setTxSa fun hu => absurd (hf.symm.trans hu) Bool.false_ne_true⟩

theorem sheds_setRxSa {f : RxSa → RxSa} (hf : (f (c.rxSa r)).inUse = false) : Sheds phy c (c.setRxSa r f) :=
  fun ht => ⟨ht.setRxSa fun hu => absurd (hf.symm.trans hu) Bool.false_ne_true,
    shrinks_setRxSa fun hu => absurd (hf.symm.trans hu) Bool.false_ne_true⟩

/-- An update of a SecY that leaves it fewer pointers, and the rest as it was. -/
theorem sheds_setSecy {f : Secy → Secy} (hu : (f (c.secy i)).inUse = (c.secy i).inUse)
    (hx : (f (c.secy i)).conf = (c.secy i).conf)
    (htx : ∀ an r, (f (c.secy i)).txSc.sa an = some r → (c.secy i).txSc.sa an = some r)
    (hrx : ∀ sc p, (f (c.secy i)).rxSc sc = some p → (c.secy i).rxSc sc = some p) : Sheds phy c (c.setSecy i f) := by
  refine fun ht => ⟨ht.setSecy fun hi h h' => ?_, shrinks_of_fewer (fewer_setSecy fun h h' => ?_) rfl rfl⟩
  · rw [hu] at h
    rw [hx] at h'
    exact ht.known i hi h h'
  · rw [hu] at h
    rw [hx] at h'
    exact ⟨h, h', htx, hrx⟩

theorem sheds_setRxSc {f : RxSc → RxSc} (hu : (f (c.rxSc p)).inUse = true → (c.rxSc p).inUse = true)
    (hs : ∀ an r, (f (c.rxSc p)).sa an = some r → (c.rxSc p).sa an = some r)
    (hf : (c.rxSc p).sa = (fun _ => none) ∨ (f (c.rxSc p)).inUse = (c.rxSc p).inUse ∨ (f (c.rxSc p)).sa = fun _ => none) :
    Sheds phy c (c.setRxSc p f) := by
  have hnone (h : (c.rxSc p).sa = fun _ => none) : (f (c.rxSc p)).sa = fun _ => none := by
    funext an
    cases hsa : (f (c.rxSc p)).sa an with
    | none => rfl
    | some r =>
      have hr := hs an r hsa
      rw [h] at hr
      cases hr
  refine fun ht => ⟨ht.setRxSc fun h => ?_, shrinks_of_fewer (fewer_setRxSc fun h => ⟨hu h, hs⟩) rfl rfl⟩
  rcases hf with h' | h' | h'
  · exact hnone h'
  · rw [h'] at h
    exact hnone (ht.idle p h)
  · exact h'

theorem sheds_freeTxSa : Sheds phy c (c.freeTxSa i an r) := by
  unfold Conf.freeTxSa Conf.linkTxSa
  refine Sheds.trans ?_ (sheds_setSecy rfl rfl (fun _ _ => update_none) fun _ _ => id)
  exact sheds_setTxSa rfl

theorem sheds_clearTxSc : Sheds phy c (c.setSecy i fun s => { s with txSc := {} }) :=
  sheds_setSecy rfl rfl (fun _ _ h => by cases h) fun _ _ => id

theorem sheds_freeRxSa : Sheds phy c (c.freeRxSa i sc an r) := by
  have hunlink (c₁ : Conf) : Sheds phy c₁ (c₁.linkRxSa i sc an none) := by
    unfold Conf.linkRxSa Conf.setRxScAt
    split
    · exact sheds_setRxSc id (fun _ _ => update_none) (.inr (.inl rfl))
    · exact (Steady.refl c₁).sheds
  exact (sheds_setRxSa rfl).trans (hunlink _)

theorem sheds_freeRxSc : Sheds phy c (c.freeRxSc i sc) := by
  have hclear : Sheds phy c (c.setRxScAt i sc fun _ => {}) := by
    unfold Conf.setRxScAt
    split
    · exact sheds_setRxSc (fun h => by cases h) (fun _ _ h => by cases h) (.inr (.inr rfl))
    · exact (Steady.refl c).sheds
  exact hclear.trans (sheds_setSecy rfl rfl (fun _ _ => id) fun _ _ => update_none)

/-- A SecY that is not in use has no SAs under an XPN suite. -/
theorem sheds_closeSecy {f : Secy → Secy} (hf : (f (c.secy i)).inUse = false) : Sheds phy c (c.setSecy i f) := by
  refine fun ht => ⟨ht.setSecy fun _ h => ?_, shrinks_of_fewer (fewer_setSecy fun h => ?_) rfl rfl⟩
  · rw [hf] at h
    cases h
  · rw [hf] at h
    cases h

/-- A channel that is free brings no SAs. -/
theorem sheds_openRxSc (hp : (c.rxSc p).inUse = false) : Sheds phy c (c.openRxSc i sc p sci) := by
  intro ht
  have hidle := ht.idle p hp
  refine ⟨(ht.setSecy fun hi => ht.known i hi).setRxSc fun h => absurd h (by simp), fun d r h => ?_⟩
  have hpointed : Pointed phy c d r := by
    obtain ⟨⟨j, hj, hu, hx, sci', hs⟩, -⟩ := h
    unfold Conf.xpn at hx
    simp only [Conf.openRxSc, Conf.setRxSc_secy, Conf.setSecy_secy] at hu hx
    have hsecy : (c.secy j).inUse = true ∧ c.xpn j = true := by
      by_cases hji : j = i
      · subst hji
        rw [if_pos rfl] at hu hx
        exact ⟨hu, hx⟩
      · rw [if_neg hji] at hu hx
        exact ⟨hu, hx⟩
    cases d with
    | egress =>
      obtain ⟨-, an, han, hsa⟩ := hs
      simp only [Conf.openRxSc, Conf.setRxSc_secy, Conf.setSecy_secy] at hsa
      refine ⟨j, hj, hsecy.1, hsecy.2, _, rfl, an, han, ?_⟩
      split at hsa
      · next hji =>
        subst hji
        exact hsa
      · exact hsa
    | ingress =>
      obtain ⟨k, hk, q, hq, hqu, -, an, han, hsa⟩ := hs
      simp only [Conf.openRxSc, Conf.setRxSc_secy, Conf.setSecy_secy, Conf.setRxSc_rxSc, Conf.setSecy_rxSc] at hq hqu hsa
      have hqp : q ≠ p := by
        rintro rfl
        rw [if_pos rfl, hidle] at hsa
        cases hsa
      rw [if_neg hqp] at hqu hsa
      refine ⟨j, hj, hsecy.1, hsecy.2, _, k, hk, q, ?_, hqu, rfl, an, han, hsa⟩
      split at hq
      · next hji =>
        subst hji
        change Function.update (c.secy j).rxSc sc (some p) k = some q at hq
        rw [Function.update_apply] at hq
        split at hq
        · exact absurd (Option.some.inj hq).symm hqp
        · exact hq
      · exact hq
  exact ⟨⟨hpointed, Conf.saInUse_eq rfl rfl d r ▸ h.2⟩, Conf.nonce_eq rfl rfl d r⟩

theorem sheds_setSaInUse : Sheds phy c (c.setSaInUse d r false) := by
  cases d with
  | egress => exact @sheds_setTxSa phy c r (fun sa => { sa with inUse := false }) rfl
  | ingress => exact @sheds_setRxSa phy c r (fun sa => { sa with inUse := false }) rfl

theorem sheds_freeBypass {rule : Nat} : Sheds phy c (c.freeBypass rule r) := by
  unfold Conf.freeBypass Conf.setControlMatch
  refine Sheds.trans (Sheds.trans ?_ (steady_setGlb id rfl).sheds) (steady_setGlb id rfl).sheds
  exact sheds_setSaInUse

theorem sheds_releaseBypass (n : Nat) : Sheds phy c (c.releaseBypass n) := by
  induction n with
  | zero => exact (Steady.refl c).sheds
  | succ n ih =>
    simp only [Conf.releaseBypass]
    split
    · exact ih
    · exact ih.trans ((sheds_setTxSa rfl).trans (steady_setGlb id rfl).sheds)

theorem sheds_disabled : Sheds phy c (c.disabled phy) := by
  refine fun ht => ⟨⟨fun p hp => ?_, fun d r hu => ?_, fun i hi hu => ?_⟩, shrinks_of_not_pointed fun d r => ?_⟩
  · simp only [Conf.disabled, Function.update_apply] at hp ⊢
    split at hp
    · next h => rw [if_pos h]
    · next h =>
      rw [if_neg h]
      exact ht.idle p hp
  · cases d with
    | egress =>
      simp only [Conf.saInUse, Conf.saRecord, Conf.disabled, Function.update_apply] at hu ⊢
      split at hu
      · cases hu
      · next h =>
        rw [if_neg h]
        exact ht.numbered .egress r hu
    | ingress =>
      simp only [Conf.saInUse, Conf.saRecord, Conf.disabled, Function.update_apply] at hu ⊢
      split at hu
      · cases hu
      · next h =>
        rw [if_neg h]
        exact ht.numbered .ingress r hu
  · simp only [Conf.disabled, if_pos hi] at hu
    cases hu
  · rintro ⟨i, hi, hu, -⟩
    simp only [Conf.disabled, if_pos hi] at hu
    cases hu

/-! ## Calls that set no SA -/

/-- Updates of settings. -/
def Kind.steady : Kind → Bool
  | .setting | .rxSetting => true
  | _ => false

/-- Updates that set no SA. -/
def Kind.sheds : Kind → Bool
  | .release | .rxRelease => true
  | k => k.steady

theorem steady_update {k : Kind} (hk : k.steady = true) (hu : Update phy c k c') : Steady phy c c' := by
  cases hu with
  | txSaRetire => exact steady_setTxSaAt (fun _ => rfl) (fun _ => rfl) (fun _ => rfl) fun _ => rfl
  | txSaActivate _ => exact steady_activateTxSa
  | txSaDisable => exact steady_disableTxSa
  | rxSaFlag => exact steady_flagRxSa
  | rxSaLowest => exact steady_setRxSaAt (fun _ => rfl) (fun _ => rfl) (fun _ => rfl) fun _ => rfl
  | rxScConf => exact steady_setRxScAt (fun _ => rfl) fun _ => rfl
  | secySettings hf => exact steady_setSecy (hf.inUse _) (hf.suite _) (hf.rxSc _) (hf.txSa _)
  | patternForget => exact steady_setSecy rfl rfl rfl rfl
  | controlMatch => exact steady_setControlMatch
  | rulesClear => exact steady_setGlb id rfl
  | glb hf => exact steady_setGlb hf.revb hf.recfg
  | _ => cases hk

theorem sheds_update {k : Kind} (hk : k.sheds = true) (hu : Update phy c k c') : Sheds phy c c' := by
  by_cases hs : k.steady = true
  · exact (steady_update hs hu).sheds
  cases hu with
  | txSaFree => exact sheds_freeTxSa
  | rxSaFree => exact sheds_freeRxSa
  | txScClear => exact sheds_clearTxSc
  | rxScOpen _ hp _ _ _ => exact sheds_openRxSc hp
  | rxScFree => exact sheds_freeRxSc
  | secyClear => exact sheds_closeSecy rfl
  | patternFree => exact sheds_setSaInUse
  | bypassFree => exact sheds_freeBypass
  | bypassRelease => exact sheds_releaseBypass cpRules
  | disable => exact sheds_disabled
  | _ => first | exact absurd rfl hs | cases hk

/-- A call that leaves at most the SAs there were. -/
def shedding (phy : Phy) : Frame (Dev Conf H) :=
  onConf { rel := Sheds phy, refl := fun c => (Steady.refl c).sheds, trans := .trans }

theorem admits_shedding : Admits hw phy Kind.sheds (shedding phy) := admits_onConf fun _ _ _ => sheds_update

/-! ## Entries taken while no pointer is left over -/

variable (phy c c') in
/-- An update that, when every pointer leads to an SA in use, brings no pointer and changes no SA. -/
def Handover : Prop := c'.glb.spdChangeMacsecRecfg = c.glb.spdChangeMacsecRecfg ∧
  (Tables phy c → Settled phy c → Tables phy c' ∧ Carries phy c c')

theorem Handover.trans (h : Handover phy c c₁) (h' : Handover phy c₁ c') : Handover phy c c' := by
  refine ⟨h'.1.trans h.1, fun ht hs => ?_⟩
  obtain ⟨ht₁, hc₁⟩ := h.2 ht hs
  obtain ⟨ht₂, hc₂⟩ := h'.2 ht₁ (hc₁.settled hs)
  exact ⟨ht₂, hc₁.trans hc₂⟩

theorem Steady.handover (h : Steady phy c c') : Handover phy c c' := ⟨h.recfg, fun ht _ => ⟨h.tables ht, h.carries⟩⟩

theorem handover_setTxSa {f : TxSa → TxSa} (hr : (f (c.txSa r)).inUse = true → (f (c.txSa r)).record = r)
    (hu : (c.txSa r).inUse = true → (f (c.txSa r)).inUse = true) (hk : (f (c.txSa r)).sak = (c.txSa r).sak)
    (hs : (f (c.txSa r)).ssci = (c.txSa r).ssci) : Handover phy c (c.setTxSa r f) := by
  refine ⟨rfl, fun ht _ => ⟨ht.setTxSa hr, fun d q hq => ⟨(fewer_of_eq rfl rfl).pointed hq, ?_⟩⟩⟩
  cases d with
  | egress =>
    simp only [Conf.saInUse, Conf.nonce, Conf.saSak, Conf.saSsci, Conf.setTxSa_txSa]
    split
    · next h =>
      subst h
      exact ⟨by rw [hk, hs], hu⟩
    · exact ⟨rfl, id⟩
  | ingress => exact ⟨rfl, id⟩

theorem handover_setRxSa {f : RxSa → RxSa} (hr : (f (c.rxSa r)).inUse = true → (f (c.rxSa r)).record = r)
    (hu : (c.rxSa r).inUse = true → (f (c.rxSa r)).inUse = true) (hk : (f (c.rxSa r)).sak = (c.rxSa r).sak)
    (hs : (f (c.rxSa r)).ssci = (c.rxSa r).ssci) : Handover phy c (c.setRxSa r f) := by
  refine ⟨rfl, fun ht _ => ⟨ht.setRxSa hr, fun d q hq => ⟨(fewer_of_eq rfl rfl).pointed hq, ?_⟩⟩⟩
  cases d with
  | egress => exact ⟨rfl, id⟩
  | ingress =>
    simp only [Conf.saInUse, Conf.nonce, Conf.saSak, Conf.saSsci, Conf.setRxSa_rxSa]
    split
    · next h =>
      subst h
      exact ⟨by rw [hk, hs], hu⟩
    · exact ⟨rfl, id⟩

theorem handover_takePattern {secy : Option Nat} {a : MatchAction} {rule : Nat} :
    Handover phy c (c.takePattern secy d a rule r) := by
  have hrecord (c₁ : Conf) (i : Nat) : Handover phy c₁ (c₁.setPatternRecord i a d r) :=
    (steady_setSecy rfl rfl rfl rfl).handover
  have hrule (c₁ : Conf) : Handover phy c₁ (c₁.setGlb fun g =>
      { g with egrBypassRecord := Function.update g.egrBypassRecord rule r }) := (steady_setGlb id rfl).handover
  cases d with
  | egress =>
    have htake : Handover phy c (c.setTxSa r fun sa => { sa with record := r, inUse := true }) :=
      handover_setTxSa (fun _ => rfl) (fun _ => rfl) rfl rfl
    cases secy with
    | none => exact htake.trans (hrule _)
    | some i => exact htake.trans (hrecord _ i)
  | ingress =>
    have htake : Handover phy c (c.setRxSa r fun sa => { sa with record := r, inUse := true }) :=
      handover_setRxSa (fun _ => rfl) (fun _ => rfl) rfl rfl
    cases secy with
    | none => exact htake.trans (hrule _)
    | some i => exact htake.trans (hrecord _ i)

/-- While reconfiguring, the entry of a transmit SA is the one it has. -/
theorem handover_retakeTxSa (hsa : (c.secy i).txSc.sa an = some r) (han : an < saPerScMax) {nextPn : BitVec 32}
    {pnNextPn : PktNum} :
    Handover phy c ((c.pointTxSa i an (c.txSa r).record).startTxSa (c.txSa r).record nextPn pnNextPn) := by
  have hlink : Handover phy c (c.linkTxSa i an (some (c.txSa r).record)) := by
    refine ⟨rfl, fun ht hs => ⟨ht.setSecy fun hi => ht.known i hi, fun d q hq => ?_⟩⟩
    have hfewer : Fewer phy c (c.linkTxSa i an (some (c.txSa r).record)) := by
      refine ⟨fun j hj hu hx => ?_, fun p hu => ⟨hu, fun _ _ => id⟩⟩
      simp only [Conf.xpn, Conf.linkTxSa, Conf.setSecy_secy] at hu hx ⊢
      split at hu
      · next hji =>
        subst hji
        rw [if_pos rfl] at hx ⊢
        have hrec : (c.txSa r).record = r := ht.numbered .egress r (hs .egress r ⟨j, hj, hu, hx, _, rfl, an, han, hsa⟩)
        rw [hrec, ← hsa, Function.update_eq_self]
        exact ⟨hu, hx, fun _ _ => id, fun _ _ => id⟩
      · next hji =>
        rw [if_neg hji] at hx ⊢
        exact ⟨hu, hx, fun _ _ => id, fun _ _ => id⟩
    exact ⟨hfewer.pointed hq, Conf.nonce_eq rfl rfl d q, (Conf.saInUse_eq rfl rfl d q).trans⟩
  unfold Conf.pointTxSa Conf.startTxSa
  refine Handover.trans (hlink.trans ?_) (handover_setTxSa (fun _ => by simp) (fun _ => rfl) rfl rfl)
  exact handover_setTxSa (fun _ => rfl) id rfl rfl

/-- So is that of a receive SA. -/
theorem handover_retakeRxSa (hp : (c.secy i).rxSc sc = some p) (hpu : (c.rxSc p).inUse = true)
    (hsa : (c.rxSc p).sa an = some r) (han : an < saPerScMax) {lowestPn : PktNum} :
    Handover phy c ((c.pointRxSa i sc an (c.rxSa r).record).startRxSa (c.rxSa r).record lowestPn) := by
  have hlink : Handover phy c (c.linkRxSa i sc an (some (c.rxSa r).record)) := by
    simp only [Conf.linkRxSa, Conf.setRxScAt, hp]
    refine ⟨rfl, fun ht hs => ⟨ht.setRxSc fun h => absurd (hpu.symm.trans h) (by simp), fun d q hq => ?_⟩⟩
    refine ⟨?_, Conf.nonce_eq rfl rfl d q, (Conf.saInUse_eq rfl rfl d q).trans⟩
    obtain ⟨j, hj, hu, hx, sci, hs'⟩ := hq
    cases d with
    | egress => exact ⟨j, hj, hu, hx, sci, hs'⟩
    | ingress =>
      obtain ⟨k, hk, p', hp', hpu', -, an', han', hsa'⟩ := hs'
      rw [Conf.setRxSc_rxSc] at hpu' hsa'
      by_cases hpp : p' = p
      · subst hpp
        rw [if_pos rfl] at hsa'
        have hrec : (c.rxSa r).record = r :=
          ht.numbered .ingress r (hs .ingress r ⟨j, hj, hu, hx, _, k, hk, p', hp', hpu, rfl, an, han, hsa⟩)
        rw [hrec, ← hsa, Function.update_eq_self] at hsa'
        exact ⟨j, hj, hu, hx, _, k, hk, p', hp', hpu, rfl, an', han', hsa'⟩
      · rw [if_neg hpp] at hpu' hsa'
        exact ⟨j, hj, hu, hx, _, k, hk, p', hp', hpu', rfl, an', han', hsa'⟩
  unfold Conf.pointRxSa Conf.startRxSa
  refine Handover.trans (hlink.trans ?_) (handover_setRxSa (fun _ => by simp) (fun _ => rfl) rfl rfl)
  exact handover_setRxSa (fun _ => rfl) id rfl rfl

/-! ## Reconfiguration -/

/-- A call that, when every pointer leads to an SA in use, brings no pointer and changes no SA. -/
def carrying (phy : Phy) : Frame (Dev Conf H) :=
  onConf { rel := Handover phy, refl := fun c => (Steady.refl c).handover, trans := .trans }

/-- The port is being reconfigured. -/
def Recfg (s : Dev Conf H) : Prop := s.conf.glb.spdChangeMacsecRecfg = true

/-- Updates that set no SA anew, and give none up. -/
def Kind.carries : Kind → Bool
  | .pattern => true
  | k => k.steady

theorem handover_update {k : Kind} (hk : k.carries = true) (hu : Update phy c k c') : Handover phy c c' := by
  by_cases hs : k.steady = true
  · exact (steady_update hs hu).handover
  cases hu with
  | patternTake _ => exact handover_takePattern
  | _ => first | exact absurd rfl hs | cases hk

theorem admits_carrying : Admits hw phy Kind.carries (carrying phy) := admits_onConf fun _ _ _ => handover_update

/-- A call that does so while the port is being reconfigured. -/
def retaking (phy : Phy) : Frame (Dev Conf H) := onConf {
  rel := fun c c' => c.glb.spdChangeMacsecRecfg = true → Handover phy c c'
  refl := fun c _ => (Steady.refl c).handover
  trans := fun h h' hrec => (h hrec).trans (h' ((h hrec).1.trans hrec)) }

/-- Updates that set an SA anew find the one it has. -/
def Kind.retakes : Kind → Bool
  | .take | .rxTake => true
  | k => k.carries

theorem handover_retake {k : Kind} (hk : k.retakes = true) (hu : Update phy c k c')
    (hrec : c.glb.spdChangeMacsecRecfg = true) : Handover phy c c' := by
  by_cases hs : k.carries = true
  · exact handover_update hs hu
  cases hu with
  | txSaAgain han hsa => exact handover_retakeTxSa hsa han
  | txSaStart _ hr => exact handover_setTxSa (fun _ => hr) (fun _ => rfl) rfl rfl
  | rxSaAgain hp hpu han hsa => exact handover_retakeRxSa hp hpu hsa han
  | txSaTake _ hno _ _ => exact absurd (hno.symm.trans hrec) Bool.false_ne_true
  | rxSaTake _ _ _ hno _ _ => exact absurd (hno.symm.trans hrec) Bool.false_ne_true
  | _ => first | exact absurd rfl hs | cases hk

theorem admits_retaking : Admits hw phy Kind.retakes (retaking phy) := admits_onConf fun _ _ _ => handover_retake

theorem retaking_recfgs : Recfgs Kind.retakes := by constructor <;> rfl

/-! ## Changes of speed -/

/-- What a change of speed needs: every pointer leads to an SA in use, and no rule holds an entry of theirs. -/
structure Undisturbed (phy : Phy) (c : Conf) : Prop where
  settled : Settled phy c
  rules : ∀ k < cpRules, c.glb.egrBypassRecord k ≠ notInUse → ¬Pointed phy c .egress (c.glb.egrBypassRecord k)

theorem handover_clearTxSa (hr : ¬Pointed phy c .egress r) : Handover phy c (c.setTxSa r fun _ => {}) := by
  refine ⟨rfl, fun ht _ => ⟨ht.setTxSa fun h => by simp at h, fun d q hq => ?_⟩⟩
  have hq' : Pointed phy c d q := (fewer_of_eq rfl rfl).pointed hq
  refine ⟨hq', ?_⟩
  cases d with
  | egress =>
    have hne : q ≠ r := fun h => hr (h ▸ hq')
    have hsame : (c.setTxSa r fun _ => {}).txSa q = c.txSa q := by rw [Conf.setTxSa_txSa, if_neg hne]
    simp only [Conf.saInUse, Conf.nonce, Conf.saSak, Conf.saSsci, hsame]
    exact ⟨trivial, id⟩
  | ingress => exact ⟨rfl, id⟩

theorem releaseBypass_egrBypassRecord {n k : Nat} (h : n ≤ k) :
    (c.releaseBypass n).glb.egrBypassRecord k = c.glb.egrBypassRecord k := by
  induction n with
  | zero => rfl
  | succ n ih =>
    simp only [Conf.releaseBypass]
    split
    · exact ih (by omega)
    · have hne : k ≠ n := by omega
      simp only [Conf.setGlb_glb, Conf.setTxSa_glb, Function.update_of_ne hne]
      exact ih (by omega)

theorem handover_releaseBypass {n : Nat}
    (hrules : ∀ k < n, c.glb.egrBypassRecord k ≠ notInUse → ¬Pointed phy c .egress (c.glb.egrBypassRecord k)) :
    Handover phy c (c.releaseBypass n) := by
  induction n with
  | zero => exact (Steady.refl c).handover
  | succ n ih =>
    have hover := ih fun k hk => hrules k (by omega)
    have hrec := @releaseBypass_egrBypassRecord c n n le_rfl
    simp only [Conf.releaseBypass]
    split
    · exact hover
    · next hne =>
      refine ⟨hover.1, fun ht hs => ?_⟩
      obtain ⟨ht', hc'⟩ := hover.2 ht hs
      have hfree : ¬Pointed phy (c.releaseBypass n) .egress ((c.releaseBypass n).glb.egrBypassRecord n) := by
        rw [hrec] at hne ⊢
        exact fun hp => hrules n (by omega) hne (hc' _ _ hp).1
      have hclear : Handover phy (c.releaseBypass n) _ := (handover_clearTxSa hfree).trans
        (steady_setGlb id rfl : Steady phy _ (Conf.setGlb _ fun g => { g with
          egrBypassRecord := Function.update g.egrBypassRecord n notInUse })).handover
      obtain ⟨ht'', hc''⟩ := hclear.2 ht' (hc'.settled hs)
      exact ⟨ht'', hc'.trans hc''⟩

/-- A call that, when every pointer leads to an SA in use, changes no SA. -/
def hauling (phy : Phy) : Frame (Dev Conf H) := onConf {
  rel := fun c c' => Tables phy c → Settled phy c → Tables phy c' ∧ Carries phy c c'
  refl := fun c ht _ => ⟨ht, .refl c⟩
  trans := fun h h' ht hs => by
    obtain ⟨ht₁, hc₁⟩ := h ht hs
    obtain ⟨ht₂, hc₂⟩ := h' ht₁ (hc₁.settled hs)
    exact ⟨ht₂, hc₁.trans hc₂⟩ }

section Hauling

variable {α : Type} {x : Call H α}

theorem hauling_of_retaking (hx : Within (retaking phy) x) : Steps (hauling phy) Recfg x fun _ => Recfg := by
  refine fun s hs => ⟨(hx s hs).2, fun a s' h => ?_⟩
  have hrel := hx s hs
  simp only [final, h] at hrel
  exact hrel.1.trans hs

theorem hauls_setRecfg {b : Bool} {speed : Nat} (ht : Tables phy c) :
    Tables phy (c.setGlb fun g => { g with spdChangeMacsecRecfg := b, recfgSpeed := speed }) ∧
      Carries phy c (c.setGlb fun g => { g with spdChangeMacsecRecfg := b, recfgSpeed := speed }) :=
  ⟨ht.setGlb id, fun d r hr => ⟨(fewer_of_eq rfl rfl).pointed hr, Conf.nonce_eq rfl rfl d r,
    (Conf.saInUse_eq rfl rfl d r).trans⟩⟩

theorem hauling_reconfigure (fuel : Nat) :
    Steps (hauling phy) Recfg (reconfigure hw phy fuel) fun _ _ => True := by
  have hF : Admits hw phy Kind.retakes (retaking phy) := admits_retaking
  have hop (op : HwOp) : Within (retaking phy) (hwOp hw op) := soft_hwOp op
  refine (hauling_of_retaking (hop _).attempt).bind fun o => ?_
  cases o with
  | none => exact Steps.pure fun _ _ => trivial
  | some _ =>
    refine Steps.bind (Q := fun _ => Recfg) (Steps.modify fun s hs => ⟨fun ht _ => hauls_setRecfg ht, rfl⟩) fun _ => ?_
    refine (hauling_of_retaking (moving_ignored (hop _))).bind fun _ => ?_
    refine (hauling_of_retaking (moving_ignored (hop _))).bind fun _ => ?_
    refine (hauling_of_retaking (Within.forUpTo cpRules fun id _ => ?_)).bind fun _ => ?_
    · exact within_getConf.bind fun _ => Within.when fun _ => moving_ignored
        (moving_controlFrameMatchConfSetPriv hF (fun _ => rfl) fun h => absurd h (by decide))
    refine (hauling_of_retaking (moving_ignored (hop _))).bind fun _ => ?_
    refine (hauling_of_retaking (moving_recfgSecys hF retaking_recfgs fuel fuel none)).bind fun _ => ?_
    exact Steps.modify fun s _ => ⟨fun ht _ => hauls_setRecfg ht, trivial⟩

theorem hauling_initSetPriv {init : Init} (hen : init.enable = true) (hrec : c.glb.spdChangeMacsecRecfg = true)
    (hrules : ∀ k < cpRules, c.glb.egrBypassRecord k ≠ notInUse → ¬Pointed phy c .egress (c.glb.egrBypassRecord k)) :
    Steps (hauling phy) (fun s => s.conf = c) (initSetPriv hw phy init) fun _ => Recfg := by
  refine (steps_hwOp _).bind fun _ => (steps_hwOp _).bind fun _ => ?_
  rw [if_pos hen]
  have hover : Handover phy c (c.releaseBypass cpRules) := handover_releaseBypass hrules
  refine (steps_hwOp _).bind fun _ => Steps.bind (Q := fun _ s => s.conf = c.releaseBypass cpRules) ?_ fun _ =>
    (steps_hwOp _).post fun _ s hs => ?_
  · refine steps_getConf_bind ?_
    rw [if_neg (by simp [hrec])]
    exact steps_modifyConf hover.2
  · rw [Recfg, hs, hover.1]
    exact hrec

theorem hauling_speedChange {fuel : Nat} {speed : Option Nat} (h : Undisturbed phy c) :
    Steps (hauling phy) (fun s => s.conf = c) (speedChange hw phy fuel speed) fun _ _ => True := by
  refine steps_getConf_bind ?_
  split
  · next v hen =>
    refine (steps_hwOp _).bind fun _ => (steps_hwOp _).bind fun _ => ?_
    refine (steps_modifyConf fun ht _ => hauls_setRecfg ht).bind fun _ => ?_
    have hpointed (d : Direction) (r : Nat) (hp : Pointed phy
        (c.setGlb fun g => { g with spdChangeMacsecRecfg := true, recfgSpeed := v }) d r) : Pointed phy c d r :=
      (fewer_of_eq rfl rfl).pointed hp
    refine Steps.bind (Steps.attempt_some (hauling_initSetPriv hen ?_ fun k hk hne hp => ?_)) fun o => ?_
    · rfl
    · exact h.rules k hk hne (hpointed _ _ hp)
    · cases o with
      | none => exact Steps.pure fun _ _ => trivial
      | some _ => exact ((hauling_reconfigure fuel).pre fun s hs => hs _ rfl).orFail
  · exact Steps.pure fun _ _ => trivial

end Hauling

end Lan80xx.VtssMacsec
