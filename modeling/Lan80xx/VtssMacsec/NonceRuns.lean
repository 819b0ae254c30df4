import Lan80xx.VtssMacsec.Nonces

/-!
# MACsec of the VTSS PHYs: runs and their nonces

The calls that set an SA, and those that may put the SAs of a SecY under an XPN suite. `Apart` is what a call needs for
the SAs to keep apart: the check of the SSCI compares too much, the SAs of a SecY are not checked when its suite
changes, and a pointer that was left over may come back to life.

- `Good.claimTxSa`, `Good.claimRxSa`: an SA takes an entry;
- `isSsciValid_spec`: what the check of the SSCI says;
- `good_op`: one call;
- `xpn_nonces_separate`: the runs.
-/

namespace Lan80xx.VtssMacsec

open Fallible RegBus
open Macsec (Ssci MacsecPort Sci Sak PktNum SecyConf Direction ControlFrameMatchConf saPerScMax)

variable {H : Type} {hw : Hw H} {phy : Phy} {c c' c₁ : Conf} {d e : Direction} {i j an sc p r q record : Nat} {sci : Sci}

/-! ## One more SA -/

/-- The tables are in order, and the SAs apart. -/
structure Good (phy : Phy) (c : Conf) : Prop where
  tables : Tables phy c
  separate : Separate phy c

theorem Sheds.good (h : Sheds phy c c') (hg : Good phy c) : Good phy c' :=
  have h' := h hg.tables
  ⟨h'.1, hg.separate.shrink h'.2⟩

variable (d record) in
/-- One SA more, which shares its nonces with none of the others. -/
theorem Separate.insert (hs : Separate phy c)
    (hnew : XpnSa phy c' d record → ∀ q, XpnSa phy c d q → c.nonce d q ≠ c'.nonce d record)
    (h : ∀ e q, XpnSa phy c' e q → (e = d ∧ q = record) ∨ (XpnSa phy c e q ∧ c'.nonce e q = c.nonce e q)) :
    Separate phy c' := by
  intro e r q hr hq hn
  rcases h e r hr with ⟨rfl, rfl⟩ | ⟨hr', hnr⟩
  · rcases h e q hq with ⟨-, rfl⟩ | ⟨hq', hnq⟩
    · rfl
    · exact absurd (hnq.symm.trans hn.symm) (hnew hr q hq')
  · rcases h e q hq with ⟨rfl, rfl⟩ | ⟨hq', hnq⟩
    · exact absurd (hnr.symm.trans hn) (hnew hq r hr')
    · exact hs e r q hr' hq' (hnr.symm.trans (hn.trans hnq))

/-- The transmit SA of an entry that no pointer leads to. -/
theorem xpnSa_claimTxSa {g : TxSa → TxSa} (hfree : ¬Pointed phy c .egress record)
    (h : XpnSa phy ((c.linkTxSa i an (some record)).setTxSa record g) e q) :
    (e = .egress ∧ q = record ∧ c.xpn i = true) ∨ (XpnSa phy c e q ∧
      ((c.linkTxSa i an (some record)).setTxSa record g).nonce e q = c.nonce e q) := by
  obtain ⟨⟨j, hj, hu, hx, sci, hs⟩, hin⟩ := h
  simp only [Conf.xpn, Conf.setTxSa_secy, Conf.linkTxSa_inUse, Conf.linkTxSa_conf] at hu hx
  cases e with
  | egress =>
    obtain ⟨-, an', han', hsa⟩ := hs
    rw [Conf.setTxSa_secy, Conf.linkTxSa_sa] at hsa
    split at hsa
    · next hnew => exact Or.inl ⟨rfl, (Option.some.inj hsa).symm, hnew.1 ▸ hx⟩
    · have hp : Pointed phy c .egress q := ⟨j, hj, hu, hx, _, rfl, an', han', hsa⟩
      have hne : q ≠ record := fun hq => hfree (hq ▸ hp)
      have hsame : ((c.linkTxSa i an (some record)).setTxSa record g).txSa q = c.txSa q := by
        rw [Conf.setTxSa_txSa, if_neg hne]
        rfl
      refine Or.inr ⟨⟨hp, ?_⟩, ?_⟩
      · rwa [Conf.saInUse, hsame] at hin
      · rw [Conf.nonce, Conf.saSak, Conf.saSsci, hsame]
        rfl
  | ingress =>
    obtain ⟨k, hk, p, hp, hpu, -, an', han', hsa⟩ := hs
    rw [Conf.setTxSa_secy, Conf.linkTxSa_secy_rxSc] at hp
    exact Or.inr ⟨⟨⟨j, hj, hu, hx, _, k, hk, p, hp, hpu, rfl, an', han', hsa⟩, hin⟩, rfl⟩

theorem Good.claimTxSa (hg : Good phy c) (hfree : ¬Pointed phy c .egress record) {g : TxSa → TxSa}
    (hr : (g (c.txSa record)).record = record)
    (hnew : c.xpn i = true → (g (c.txSa record)).inUse = true → ∀ q, XpnSa phy c .egress q →
      c.nonce .egress q ≠ nonceOf (g (c.txSa record)).sak (g (c.txSa record)).ssci) :
    Good phy ((c.linkTxSa i an (some record)).setTxSa record g) := by
  have hself : ((c.linkTxSa i an (some record)).setTxSa record g).txSa record = g (c.txSa record) := by
    rw [Conf.setTxSa_txSa_self]
    rfl
  refine ⟨(hg.tables.setSecy fun hi => hg.tables.known i hi).setTxSa fun _ => hr, hg.separate.insert .egress record
    (fun hx q hq => ?_) fun e q hq => (xpnSa_claimTxSa hfree hq).imp_left fun h => ⟨h.1, h.2.1⟩⟩
  have hxpn : c.xpn i = true := by
    rcases xpnSa_claimTxSa hfree hx with h | h
    · exact h.2.2
    · exact absurd h.1.1 hfree
  have hin := hx.2
  rw [Conf.saInUse, hself] at hin
  rw [show Conf.nonce _ .egress record = _ from congrArg (fun sa : TxSa => nonceOf sa.sak sa.ssci) hself]
  exact hnew hxpn hin q hq

/-- The receive SA of an entry that no pointer leads to, in a channel in use. -/
theorem xpnSa_claimRxSa {g : RxSa → RxSa} (hfree : ¬Pointed phy c .ingress record) (hp : (c.secy i).rxSc sc = some p)
    (h : XpnSa phy ((c.linkRxSa i sc an (some record)).setRxSa record g) e q) :
    (e = .ingress ∧ q = record ∧ ∃ j < phy.maxSecyCnt, (c.secy j).inUse = true ∧ c.xpn j = true ∧
      ∃ k < phy.maxScCnt, (c.secy j).rxSc k = some p) ∨ (XpnSa phy c e q ∧
      ((c.linkRxSa i sc an (some record)).setRxSa record g).nonce e q = c.nonce e q) := by
  have hsecy : ((c.linkRxSa i sc an (some record)).setRxSa record g).secy = c.secy := by
    rw [Conf.linkRxSa_eq hp]
    rfl
  have htx : ((c.linkRxSa i sc an (some record)).setRxSa record g).txSa = c.txSa := by
    rw [Conf.linkRxSa_eq hp]
    rfl
  obtain ⟨⟨j, hj, hu, hx, sci, hs⟩, hin⟩ := h
  unfold Conf.xpn at hx
  rw [hsecy] at hu hx
  cases e with
  | egress =>
    obtain ⟨-, an', han', hsa⟩ := hs
    rw [hsecy] at hsa
    refine Or.inr ⟨⟨⟨j, hj, hu, hx, _, rfl, an', han', hsa⟩, ?_⟩, ?_⟩
    · rwa [Conf.saInUse, htx] at hin
    · rw [Conf.nonce, Conf.saSak, Conf.saSsci, htx]
      rfl
  | ingress =>
    obtain ⟨k, hk, p', hp', hpu, -, an', han', hsa⟩ := hs
    rw [hsecy] at hp'
    rw [Conf.setRxSa_rxSc, Conf.linkRxSa_inUse hp] at hpu
    rw [Conf.setRxSa_rxSc, Conf.linkRxSa_sa hp] at hsa
    split at hsa
    · next hnew =>
      obtain ⟨rfl, -⟩ := hnew
      exact Or.inl ⟨rfl, (Option.some.inj hsa).symm, j, hj, hu, hx, k, hk, hp'⟩
    · have hptr : Pointed phy c .ingress q := ⟨j, hj, hu, hx, _, k, hk, p', hp', hpu, rfl, an', han', hsa⟩
      have hne : q ≠ record := fun hq => hfree (hq ▸ hptr)
      have hsame : ((c.linkRxSa i sc an (some record)).setRxSa record g).rxSa q = c.rxSa q := by
        rw [Conf.setRxSa_rxSa, if_neg hne, Conf.linkRxSa_eq hp]
        rfl
      refine Or.inr ⟨⟨hptr, ?_⟩, ?_⟩
      · rwa [Conf.saInUse, hsame] at hin
      · rw [Conf.nonce, Conf.saSak, Conf.saSsci, hsame]
        rfl

theorem Good.claimRxSa (hg : Good phy c) (hfree : ¬Pointed phy c .ingress record) (hp : (c.secy i).rxSc sc = some p)
    (hpu : (c.rxSc p).inUse = true) {g : RxSa → RxSa} (hr : (g (c.rxSa record)).record = record)
    (hnew : (∃ j < phy.maxSecyCnt, (c.secy j).inUse = true ∧ c.xpn j = true ∧
      ∃ k < phy.maxScCnt, (c.secy j).rxSc k = some p) → ∀ q, XpnSa phy c .ingress q →
      c.nonce .ingress q ≠ nonceOf (g (c.rxSa record)).sak (g (c.rxSa record)).ssci) :
    Good phy ((c.linkRxSa i sc an (some record)).setRxSa record g) := by
  have hrx : (c.linkRxSa i sc an (some record)).rxSa = c.rxSa := by
    rw [Conf.linkRxSa_eq hp]
    rfl
  have hself : ((c.linkRxSa i sc an (some record)).setRxSa record g).rxSa record = g (c.rxSa record) := by
    rw [Conf.setRxSa_rxSa_self, hrx]
  have htables : Tables phy (c.linkRxSa i sc an (some record)) := by
    rw [Conf.linkRxSa_eq hp]
    exact hg.tables.setRxSc fun h => absurd (hpu.symm.trans h) (by simp)
  refine ⟨htables.setRxSa fun _ => by rwa [hrx], hg.separate.insert .ingress record
    (fun hx q hq => ?_) fun e q hq => (xpnSa_claimRxSa hfree hp hq).imp_left fun h => ⟨h.1, h.2.1⟩⟩
  have hxpn : ∃ j < phy.maxSecyCnt, (c.secy j).inUse = true ∧ c.xpn j = true ∧
      ∃ k < phy.maxScCnt, (c.secy j).rxSc k = some p := by
    rcases xpnSa_claimRxSa hfree hp hx with h | h
    · exact h.2.2
    · exact absurd h.1.1 hfree
  rw [show Conf.nonce _ .ingress record = _ from congrArg (fun sa : RxSa => nonceOf sa.sak sa.ssci) hself]
  exact hnew hxpn q hq

/-! ## The check of the SSCI -/

/-- No SA in use of a channel with the SCI has this SAK and this SSCI. -/
theorem isSsciValid_spec {ssci : Option Ssci} {sak : Sak} (hv : isSsciValid phy c d sci ssci sak = true) :
    ∃ v, ssci = some v ∧ ∀ j < phy.maxSecyCnt, (c.secy j).inUse = true → ∀ r, SaOf phy c j d r sci →
      c.saInUse d r = true → c.saSsci d r = v → c.saSak d r ≠ sak := by
  cases ssci with
  | none => cases hv
  | some v =>
    refine ⟨v, rfl, fun j hj hu r hs hin hssci hsak => ?_⟩
    have hall := List.all_eq_true.mp hv j (List.mem_range.mpr hj)
    rw [hu, Bool.not_true, Bool.false_or] at hall
    cases d with
    | egress =>
      obtain ⟨rfl, an, han, hsa⟩ := hs
      have han' := List.all_eq_true.mp hall an (List.mem_range.mpr han)
      simp only [Conf.saInUse, Conf.saSsci, Conf.saSak] at hin hssci hsak
      simp [hsa, hin, hssci, hsak] at han'
    | ingress =>
      obtain ⟨sc, hsc, p, hp, hpu, rfl, an, han, hsa⟩ := hs
      have hsc' := List.all_eq_true.mp hall sc (List.mem_range.mpr hsc)
      simp only [hp, hpu, Bool.not_true, Bool.false_or] at hsc'
      have han' := List.all_eq_true.mp hsc' an (List.mem_range.mpr han)
      simp only [Conf.saInUse, Conf.saSsci, Conf.saSak] at hin hssci hsak
      simp [hsa, hin, hssci, hsak] at han'

variable (phy c) in
/-- The check tells the SA: every SA in use under an XPN suite with its key, salt and SSCI has its whole SAK and its
SCI. -/
def Told (d : Direction) (sci : Sci) (sak : Sak) (v : Ssci) : Prop := ∀ r, XpnSa phy c d r →
  c.nonce d r = nonceOf sak v → c.saSak d r = sak ∧ ∃ j < phy.maxSecyCnt, (c.secy j).inUse = true ∧ SaOf phy c j d r sci

/-- Then an SA that passes the check shares its nonces with none. -/
theorem Told.ne {v : Ssci} {sak : Sak} (ht : Told phy c d sci sak v)
    (hv : isSsciValid phy c d sci (some v) sak = true) (hr : XpnSa phy c d r) : c.nonce d r ≠ nonceOf sak v := by
  intro hn
  obtain ⟨hsak, j, hj, hu, hs⟩ := ht r hr hn
  obtain ⟨v', hv', hcheck⟩ := isSsciValid_spec hv
  cases hv'
  exact hcheck j hj hu r hs hr.2 (congrArg Nonce.ssci hn) hsak

/-! ## Calls that set an SA -/

/-- A call that keeps the SAs apart. -/
def keeping (phy : Phy) : Frame (Dev Conf H) :=
  onConf { rel := fun c c' => Good phy c → Good phy c', refl := fun _ => id, trans := fun h h' => h' ∘ h }

theorem recordEmptyGet_spec (h : c.recordEmptyGet phy d = some r) : r < phy.maxSaCnt ∧ c.saInUse d r = false := by
  have hprop := List.find?_some h
  exact ⟨List.mem_range.mp (List.mem_of_find?_eq_some h), by simpa using hprop⟩

/-- The entry that a call takes has no pointer left over. -/
theorem Settled.free (hs : Settled phy c) (h : c.recordEmptyGet phy d = some r) : ¬Pointed phy c d r := fun hp =>
  absurd ((recordEmptyGet_spec h).2.symm.trans (hs d r hp)) Bool.false_ne_true

section Sets

variable {ssci : Option Ssci} {sak : Sak}

theorem keeping_txSaSet (hg : Good phy c) (hrec : c.glb.spdChangeMacsecRecfg = false) (hs : Settled phy c)
    (htold : c.xpn i = true → ∀ v, ssci = some v → Told phy c .egress (c.secy i).sci sak v) {nextPn : PktNum}
    {b : Bool} : Steps (keeping phy) (fun s => s.conf = c) (txSaSet hw phy i an nextPn b sak ssci) fun _ _ => True := by
  refine steps_getConf_bind (Steps.failIf_bind fun _ => Steps.failIf_bind fun _ => Steps.failIf_bind fun hv => ?_)
  rw [hrec] at hv ⊢
  cases hsa : (c.secy i).txSc.sa an with
  | some r => exact Steps.throw
  | none =>
    cases hr : c.recordEmptyGet phy .egress with
    | none => exact Steps.throw
    | some record =>
      have hfree := hs.free hr
      have hnew : c.xpn i = true → ∀ q, XpnSa phy c .egress q →
          c.nonce .egress q ≠ nonceOf sak ((if c.xpn i = true then ssci else none).getD (c.txSa record).ssci) := by
        intro hx q hq
        have hvalid : isSsciValid phy c .egress (c.secy i).sci ssci sak = true := by
          by_contra hno
          exact hv ⟨hx, rfl, by simpa using hno⟩
        obtain ⟨v, rfl, -⟩ := isSsciValid_spec hvalid
        rw [if_pos hx]
        exact (htold hx v rfl).ne hvalid hq
      refine (steps_modifyConf fun _ => ?_).bind fun _ => Steps.failIf_bind fun _ => ?_
      · simp only [Conf.pointTxSa, Conf.keyTxSa, Conf.setTxSa_setTxSa]
        exact hg.claimTxSa hfree rfl fun hx _ => hnew hx
      · refine (steps_modifyConf fun _ => ?_).bind fun _ =>
          moving_rest ((moving_txSaProgram (k := .setting) admits_shedding rfl rfl).mono fun _ _ h => h.good)
        simp only [Conf.pointTxSa, Conf.keyTxSa, Conf.startTxSa, Conf.setTxSa_setTxSa]
        exact hg.claimTxSa hfree rfl fun hx _ => hnew hx

theorem keeping_rxSaSet (hg : Good phy c) (hrec : c.glb.spdChangeMacsecRecfg = false) (hs : Settled phy c)
    (htold : c.xpn i = true → ∀ v, ssci = some v → Told phy c .ingress sci sak v)
    (hown : c.xpn i = false → ∀ sc p, c.scFromSciGet phy i sci = some sc → (c.secy i).rxSc sc = some p →
      ∀ j < phy.maxSecyCnt, (c.secy j).inUse = true → c.xpn j = true → ∀ k < phy.maxScCnt, (c.secy j).rxSc k ≠ some p)
    {lowestPn : PktNum} :
    Steps (keeping phy) (fun s => s.conf = c) (rxSaSet hw phy i sci an lowestPn sak ssci) fun _ _ => True := by
  refine steps_scFromSci.bind fun sc => Steps.imp fun hget => steps_getConf_bind ?_
  obtain ⟨-, p, hp, hpu, -⟩ := scFromSciGet_spec hget
  refine Steps.failIf_bind fun _ => Steps.failIf_bind fun hv => Steps.failIf_bind fun _ => ?_
  refine (Steps.when (fun _ => steps_hwOp _) fun _ _ h => h).bind fun _ => ?_
  rw [hrec] at hv ⊢
  rw [Conf.rxScAt_eq hp]
  cases hsa : (c.rxSc p).sa an with
  | some r => exact Steps.throw
  | none =>
    cases hr : c.recordEmptyGet phy .ingress with
    | none => exact Steps.throw
    | some record =>
      refine (steps_modifyConf fun _ => ?_).bind fun _ =>
        moving_rest ((moving_rxSaProgram admits_shedding).mono fun _ _ h => h.good)
      simp only [Conf.pointRxSa, Conf.keyRxSa, Conf.startRxSa, Conf.setRxSa_setRxSa]
      refine hg.claimRxSa (hs.free hr) hp hpu rfl fun hx q hq => ?_
      cases hxi : c.xpn i with
      | false =>
        obtain ⟨j, hj, hu, hx, k, hk, hkp⟩ := hx
        exact absurd hkp (hown hxi sc p hget hp j hj hu hx k hk)
      | true =>
        have hvalid : isSsciValid phy c .ingress sci ssci sak = true := by
          by_contra hno
          exact hv ⟨hxi, rfl, by simpa using hno⟩
        obtain ⟨v, rfl, -⟩ := isSsciValid_spec hvalid
        exact (htold hxi v rfl).ne hvalid hq

end Sets

/-! ## Suites that change -/

variable (phy c) in
/-- The SecY has the entry for one of its SAs, which is in use. -/
def Held (i : Nat) (d : Direction) (r : Nat) : Prop := (∃ sci, SaOf phy c i d r sci) ∧ c.saInUse d r = true

variable (phy c) in
/-- No SA of the SecY shares key, salt and SSCI with another one of its SAs, or with one under an XPN suite. -/
def Unmixed (i : Nat) : Prop :=
  ∀ d r q, Held phy c i d r → Held phy c i d q ∨ XpnSa phy c d q → c.nonce d r = c.nonce d q → r = q

theorem Separate.join (hs : Separate phy c) (hu : Unmixed phy c i)
    (h : ∀ d r, XpnSa phy c' d r → (Held phy c i d r ∨ XpnSa phy c d r) ∧ c'.nonce d r = c.nonce d r) :
    Separate phy c' := by
  intro d r q hr hq hn
  obtain ⟨hr', hnr⟩ := h d r hr
  obtain ⟨hq', hnq⟩ := h d q hq
  have hn' : c.nonce d r = c.nonce d q := hnr.symm.trans (hn.trans hnq)
  rcases hr' with hr' | hr'
  · exact hu d r q hr' hq' hn'
  · rcases hq' with hq' | hq'
    · exact (hu d q r hq' (Or.inr hr') hn'.symm).symm
    · exact hs d r q hr' hq' hn'

/-- An update of a SecY that leaves its SAs alone, and may bring them under an XPN suite. -/
theorem Good.setSecy (hg : Good phy c) {f : Secy → Secy} (htx : (f (c.secy i)).txSc = (c.secy i).txSc)
    (hrx : (f (c.secy i)).rxSc = (c.secy i).rxSc)
    (hknown : (f (c.secy i)).inUse = true → (f (c.secy i)).conf.currentCipherSuite.xpn = true →
      c.glb.macsecRevb = true ∧ Unmixed phy c i) : Good phy (c.setSecy i f) := by
  refine ⟨hg.tables.setSecy fun _ hu hx => (hknown hu hx).1, ?_⟩
  by_cases hx : (f (c.secy i)).inUse = true ∧ (f (c.secy i)).conf.currentCipherSuite.xpn = true
  · refine hg.separate.join (hknown hx.1 hx.2).2 fun d r h => ⟨?_, Conf.nonce_eq rfl rfl d r⟩
    obtain ⟨⟨j, hj, hu, hxj, sci, hs⟩, hin⟩ := h
    have hin' : c.saInUse d r = true := (Conf.saInUse_eq rfl rfl d r).symm.trans hin
    unfold Conf.xpn at hxj
    rw [Conf.setSecy_secy] at hu hxj
    by_cases hji : j = i
    · subst hji
      refine Or.inl ⟨?_, hin'⟩
      cases d with
      | egress =>
        obtain ⟨-, an, han, hsa⟩ := hs
        rw [Conf.setSecy_secy_self, htx] at hsa
        exact ⟨_, rfl, an, han, hsa⟩
      | ingress =>
        obtain ⟨k, hk, p, hp, hpu, -, hsa⟩ := hs
        rw [Conf.setSecy_secy_self, hrx] at hp
        exact ⟨_, k, hk, p, hp, hpu, rfl, hsa⟩
    · rw [if_neg hji] at hu hxj
      refine Or.inr ⟨⟨j, hj, hu, hxj, ?_⟩, hin'⟩
      cases d with
      | egress =>
        obtain ⟨-, an, han, hsa⟩ := hs
        rw [Conf.setSecy_secy, if_neg hji] at hsa
        exact ⟨_, rfl, an, han, hsa⟩
      | ingress =>
        obtain ⟨k, hk, p, hp, hpu, -, hsa⟩ := hs
        rw [Conf.setSecy_secy, if_neg hji] at hp
        exact ⟨_, k, hk, p, hp, hpu, rfl, hsa⟩
  · exact hg.separate.shrink (shrinks_of_fewer (fewer_setSecy fun h h' => absurd ⟨h, h'⟩ hx) rfl rfl)

theorem suiteRejected_spec {b : Bool} {conf : SecyConf} (h : ¬suiteRejected b conf = true)
    (hx : conf.currentCipherSuite.xpn = true) : b = true := by
  cases b with
  | true => rfl
  | false => simp [suiteRejected, hx] at h

theorem keeping_secyConfAdd (hg : Good phy c) {port : MacsecPort} {conf : SecyConf}
    (hu : conf.currentCipherSuite.xpn = true → ∀ i, c.portVacancy phy port = some i → (c.secy i).inUse = false →
      Unmixed phy c i) :
    Steps (keeping phy) (fun s => s.conf = c) (secyConfAdd phy port conf : Call H Unit) fun _ _ => True := by
  refine Steps.failIf_bind fun _ => steps_getConf_bind (Steps.failIf_bind fun _ => ?_)
  cases hv : c.portVacancy phy port with
  | none => exact Steps.throw
  | some i =>
    refine Steps.failIf_bind fun hin => Steps.failIf_bind fun _ => Steps.failIf_bind fun hrev => ?_
    refine (steps_modifyConf fun _ => ?_).bind fun _ => Steps.failIf.post fun _ _ _ => trivial
    simp only [Conf.openSecy, Conf.setSecy_setSecy]
    exact hg.setSecy rfl rfl fun _ hx => ⟨suiteRejected_spec hrev hx, hu hx i hv (by simpa using hin)⟩

/-- The SAs of a SecY that has an XPN suite already are apart. -/
theorem Separate.unmixed (hs : Separate phy c) {port : MacsecPort} (hi : c.portFind phy port = some i)
    (hx : c.xpn i = true) : Unmixed phy c i := by
  obtain ⟨hlt, hu⟩ := portFind_spec hi
  have hxpn {d : Direction} {r : Nat} (h : Held phy c i d r) : XpnSa phy c d r := ⟨⟨i, hlt, hu, hx, h.1⟩, h.2⟩
  exact fun d r q hr hq hn => hs d r q (hxpn hr) (hq.elim hxpn id) hn

theorem keeping_secyConfUpdate (hg : Good phy c) {conf : SecyConf}
    (hu : conf.currentCipherSuite.xpn = true → Unmixed phy c i) :
    Steps (keeping phy) (fun s => s.conf = c) (secyConfUpdate phy i conf : Call H Unit) fun _ _ => True := by
  refine steps_getConf_bind (Steps.failIf_bind fun hrev => (steps_modifyConf fun _ => ?_).bind fun _ => moving_rest ?_)
  · exact hg.setSecy rfl rfl fun _ hx => ⟨suiteRejected_spec hrev hx, hu hx⟩
  · refine (Within.forUpTo _ fun sc _ => within_getConf.bind fun _ => Within.when fun _ => ?_).bind fun _ =>
      within_getConf.bind fun _ => Within.failIf
    have hinherit (c : Conf) : Steady phy c (c.inheritRxSc i sc conf) := steady_setRxScAt (fun _ => rfl) fun _ => rfl
    exact within_modifyConf fun c => (hinherit c).sheds.good

/-! ## The other calls -/

section Others

variable {α : Type} {x : Call H α}

/-- When every pointer leads to an SA in use, a call that carries the SAs over keeps them apart. -/
theorem keeping_of_hauling (hs : Settled phy c) (hx : Steps (hauling phy) (fun s => s.conf = c) x fun _ _ => True) :
    Steps (keeping phy) (fun s => s.conf = c) x fun _ _ => True := by
  refine hx.mono fun s s' hc h hg => ?_
  rw [hc] at hg
  obtain ⟨ht, hcar⟩ := h (by rw [hc]; exact hg.tables) (by rw [hc]; exact hs)
  rw [hc] at hcar
  exact ⟨ht, hg.separate.shrink (hcar.shrinks hs)⟩

theorem keeping_of_carrying (hs : Settled phy c) (hx : Within (carrying phy) x) :
    Steps (keeping phy) (fun s => s.conf = c) x fun _ _ => True :=
  keeping_of_hauling hs (moving_rest (hx.mono fun _ _ h => h.2))

/-- So does one that sets its SAs again while the port is being reconfigured. -/
theorem keeping_of_retaking (hs : Settled phy c) (hrec : c.glb.spdChangeMacsecRecfg = true)
    (hx : Within (retaking phy) x) : Steps (keeping phy) (fun s => s.conf = c) x fun _ _ => True := by
  refine keeping_of_hauling hs (((hauling_of_retaking hx).pre fun s h => ?_).post fun _ _ _ => trivial)
  rw [Recfg, h]
  exact hrec

/-- On a port without the mark of a Rev B nothing is under an XPN suite. -/
theorem Tables.settled (h : Tables phy c) (hrev : c.glb.macsecRevb = false) : Settled phy c :=
  fun _ _ hp => absurd hp (h.not_pointed hrev)

theorem Tables.good (h : Tables phy c) (hrev : c.glb.macsecRevb = false) : Good phy c :=
  ⟨h, fun _ _ _ hr _ _ => absurd hr.1 (h.not_pointed hrev)⟩

theorem keeping_controlFrameMatchConfSet (hg : Good phy c) {conf : ControlFrameMatchConf} {rule : Nat} :
    Steps (keeping phy) (fun s => s.conf = c) (controlFrameMatchConfSet hw phy conf rule) fun _ _ => True := by
  refine Steps.failIf_bind fun _ => Steps.failIf_bind fun _ => ?_
  refine Steps.bind (Q := fun _ s => s.conf = c) (steps_getConf_bind (Steps.failIf.post fun _ _ h => h.1)) fun _ => ?_
  refine Steps.bind (Q := fun _ _ => True) ?_ fun rule => moving_rest ((within_modifyConf fun _ =>
    steady_setControlMatch.sheds.good).bind fun _ => Within.pure _)
  cases hrev : c.glb.macsecRevb with
  | false =>
    exact keeping_of_carrying (hg.tables.settled hrev)
      (moving_controlFrameMatchConfSetPriv admits_carrying (fun _ => rfl) fun h => absurd h (by decide))
  | true =>
    refine steps_getConf_bind ?_
    split
    · exact Steps.throw
    · refine (Steps.when (fun _ => Steps.throw) fun _ _ h => h).bind fun _ => (steps_hwOp _).bind fun _ => ?_
      rw [hrev]
      exact Steps.pure fun _ _ => trivial

theorem Tables.moveRxSa (h : Tables phy c) (hp : (c.secy i).rxSc sc = some p) (hpu : (c.rxSc p).inUse = true) :
    Tables phy (c.moveRxSa i sc an r q) where
  idle := by
    have hlink : Tables phy (c.linkRxSa i sc an (some q)) := by
      rw [Conf.linkRxSa_eq hp]
      exact h.setRxSc fun h => absurd (hpu.symm.trans h) (by simp)
    have hsc : (c.moveRxSa i sc an r q).rxSc = (c.linkRxSa i sc an (some q)).rxSc := by
      rw [Conf.linkRxSa_eq hp, Conf.moveRxSa, Conf.linkRxSa_eq (by exact hp)]
      rfl
    rw [hsc]
    exact hlink.idle
  numbered d t hu := by
    rw [Conf.moveRxSa, Conf.linkRxSa_eq (by exact hp)] at hu ⊢
    cases d with
    | egress => exact h.numbered .egress t hu
    | ingress =>
      simp only [Conf.saInUse, Conf.saRecord, Conf.setRxSa_rxSa, Conf.setRxSc_rxSa] at hu ⊢
      by_cases htq : t = q
      · simp [htq]
      · by_cases htr : t = r
        · simp [htr] at hu
          simp_all
        · simp only [if_neg htq, if_neg htr] at hu ⊢
          exact h.numbered .ingress t hu
  known := by
    rw [Conf.moveRxSa, Conf.linkRxSa_eq (by exact hp)]
    exact h.known

/-- An SA moves on a port without the mark of a Rev B only. -/
theorem admits_keeping : Admits hw phy (fun k => k.sheds || k == .rxMove) (keeping phy) := by
  refine admits_onConf fun k c c' hk hu hg => ?_
  by_cases hs : k.sheds = true
  · exact (sheds_update hs hu).good hg
  cases hu with
  | rxSaMove hp hpu hrev _ _ _ => exact (hg.tables.moveRxSa hp hpu).good (by simpa [Conf.moveRxSa] using hrev)
  | _ => first | exact absurd rfl hs | cases hk

end Others

/-! ## Runs -/

/-- What a call needs for the SAs to keep apart. -/
def Op.Apart (phy : Phy) (c : Conf) : Op → Prop
  | .secyConfAdd port conf => conf.currentCipherSuite.xpn = true → ∀ i, c.portVacancy phy port = some i →
    (c.secy i).inUse = false → Unmixed phy c i
  | .secyConfUpdate port conf => conf.currentCipherSuite.xpn = true → ∀ i, c.portFind phy port = some i →
    c.xpn i = false → Unmixed phy c i
  | .txSaSet port _ _ _ sak ssci => Settled phy c ∧ (c.glb.spdChangeMacsecRecfg = false →
    ∀ i, c.portFind phy port = some i → c.xpn i = true →
      ∀ v, ssci = some v → Told phy c .egress (c.secy i).sci sak v)
  | .rxSaSet port sci _ _ sak ssci => Settled phy c ∧ (c.glb.spdChangeMacsecRecfg = false →
    ∀ i, c.portFind phy port = some i →
      (c.xpn i = true → ∀ v, ssci = some v → Told phy c .ingress sci sak v) ∧
      (c.xpn i = false → ∀ sc p, c.scFromSciGet phy i sci = some sc → (c.secy i).rxSc sc = some p →
        ∀ j < phy.maxSecyCnt, (c.secy j).inUse = true → c.xpn j = true →
          ∀ k < phy.maxScCnt, (c.secy j).rxSc k ≠ some p))
  | .patternSet .. => Settled phy c
  | .speedChange .. => Undisturbed phy c
  | _ => True

section Runs

variable {port : MacsecPort} {f : Nat → Call H Unit}

theorem steps_portCheck {F : Frame (Dev Conf H)} : Steps F (fun s => s.conf = c) (portCheck phy port : Call H Nat)
    fun i s => s.conf = c ∧ c.portFind phy port = some i := by
  refine steps_getConf_bind (Steps.failIf_bind fun _ => ?_)
  cases hi : c.portFind phy port with
  | none => exact Steps.throw
  | some i => exact Steps.pure fun s hs => ⟨hs, rfl⟩

theorem keeping_portCheck_bind (hf : ∀ i, c.portFind phy port = some i →
    Steps (keeping phy) (fun s => s.conf = c) (f i) fun _ _ => True) :
    Steps (keeping phy) (fun s => s.conf = c) (portCheck phy port >>= f) fun _ _ => True :=
  steps_portCheck.bind fun i => Steps.imp (hf i)

theorem keeping_op (hg : Good phy c) {op : Op} (ha : op.Apart phy c) :
    Steps (keeping phy) (fun s => s.conf = c) (op.call hw phy) fun _ _ => True := by
  cases op with
  | speedChange fuel speed => exact keeping_of_hauling ha.settled (hauling_speedChange ha)
  | secyConfAdd port conf => exact keeping_secyConfAdd hg ha
  | secyConfUpdate port conf =>
    refine Steps.failIf_bind fun _ => keeping_portCheck_bind fun i hi => keeping_secyConfUpdate hg fun hx => ?_
    cases hold : c.xpn i with
    | false => exact ha hx i hi hold
    | true => exact hg.separate.unmixed hi hold
  | txSaSet port an nextPn b sak ssci =>
    cases hrec : c.glb.spdChangeMacsecRecfg with
    | true => exact keeping_of_retaking ha.1 hrec (moving_op admits_retaking rfl)
    | false => exact keeping_portCheck_bind fun i hi => keeping_txSaSet hg hrec ha.1 (ha.2 hrec i hi)
  | rxSaSet port sci an lowestPn sak ssci =>
    cases hrec : c.glb.spdChangeMacsecRecfg with
    | true => exact keeping_of_retaking ha.1 hrec (moving_op admits_retaking rfl)
    | false =>
      exact keeping_portCheck_bind fun i hi => keeping_rxSaSet hg hrec ha.1 (ha.2 hrec i hi).1 (ha.2 hrec i hi).2
  | patternSet port d a pattern => exact keeping_of_carrying ha (moving_op admits_carrying ⟨rfl, rfl⟩)
  | controlFrameMatchConfSet conf rule =>
    exact (keeping_controlFrameMatchConfSet hg).bind fun _ => Steps.pure fun _ _ => trivial
  | _ => exact moving_rest (moving_op admits_keeping (by simp [Op.MadeOf, Kind.sheds, Kind.steady]))

theorem separate_probed : Separate phy {} := by
  rintro d r q ⟨⟨i, -, hu, -⟩, -⟩
  cases hu

variable (hw phy) in
/-- **Nonces.** In every run whose calls meet the condition, no two SAs of a direction under XPN suites share key, salt
and SSCI. -/
theorem xpn_nonces_separate (ops : List Op) (h : H)
    (hrun : Meets hw phy (fun s op => op.Apart phy s.conf) ops { conf := {}, hw := h }) :
    Separate phy (calls hw phy ops { conf := {}, hw := h }).conf := by
  have hgood : Good phy (calls hw phy ops { conf := {}, hw := h }).conf :=
    calls_induction (I := fun s => Good phy s.conf) (fun s op hg ha => (keeping_op hg ha s rfl).1 hg) ops _
      ⟨.probed, separate_probed⟩ hrun
  exact hgood.separate

end Runs

/-! ### Two SecYs with one key -/

def benchXpn : SecyConf := { benchSecy with currentCipherSuite := .gcmAesXpn128 }

/-- A SecY with an XPN suite, and a transmit SA. -/
def xpnRun (portId : Nat) : List Op :=
  [.secyConfAdd (benchPort portId) benchXpn, .txScSet (benchPort portId),
    .txSaSet (benchPort portId) 0 1 true {} (some (Vector.replicate 4 7))]

/-- The same key and SSCI on two ports. -/
def sharedRun : List Op := .initSet (.request true false) :: (xpnRun 1 ++ xpnRun 2)

variable (phy c) in
/-- No SecY has an SA or a channel. -/
def Bare : Prop := (∀ i < phy.maxSecyCnt, ∀ an < saPerScMax, (c.secy i).txSc.sa an = none) ∧
  ∀ i < phy.maxSecyCnt, ∀ sc < phy.maxScCnt, (c.secy i).rxSc sc = none

theorem Bare.not_saOf (h : Bare phy c) (hi : i < phy.maxSecyCnt) : ¬SaOf phy c i d r sci := by
  intro hs
  cases d with
  | egress =>
    obtain ⟨-, an, han, hsa⟩ := hs
    rw [h.1 i hi an han] at hsa
    cases hsa
  | ingress =>
    obtain ⟨sc, hsc, p, hp, -⟩ := hs
    rw [h.2 i hi sc hsc] at hp
    cases hp

theorem Bare.not_pointed (h : Bare phy c) : ¬Pointed phy c d r := fun ⟨_, hi, _, _, _, hs⟩ => h.not_saOf hi hs

theorem Bare.unmixed (h : Bare phy c) {port : MacsecPort} (hi : c.portVacancy phy port = some i) :
    Unmixed phy c i := fun _ _ _ hr _ _ =>
  have hlt : i < phy.maxSecyCnt := List.mem_range.mp (List.mem_of_find?_eq_some hi)
  hr.1.elim fun _ hs => absurd hs (h.not_saOf hlt)

/-- What the runs leave. -/
theorem xpn_runs :
    (let c := (calls bench benchPhy (.initSet (.request true false) :: xpnRun 1) benchProbed).conf
     (c.secy 0).inUse = true ∧ c.xpn 0 = true ∧ (c.secy 0).txSc.sa 0 = some 0 ∧ (c.txSa 0).inUse = true) ∧
    (let c := (calls bench benchPhy sharedRun benchProbed).conf
     ((c.secy 0).inUse = true ∧ c.xpn 0 = true ∧ (c.secy 0).txSc.sa 0 = some 0 ∧ (c.txSa 0).inUse = true) ∧
      ((c.secy 1).inUse = true ∧ c.xpn 1 = true ∧ (c.secy 1).txSc.sa 0 = some 1 ∧ (c.txSa 1).inUse = true) ∧
      (c.txSa 0).sak = (c.txSa 1).sak ∧ (c.txSa 0).ssci = (c.txSa 1).ssci) := by
  decide +kernel

/-- The first transmit SA of a port. -/
theorem xpn_nonces_separate_bench :
    let s := calls bench benchPhy (.initSet (.request true false) :: xpnRun 1) benchProbed
    XpnSa benchPhy s.conf .egress 0 ∧ Separate benchPhy s.conf := by
  obtain ⟨hu, hx, hsa, hin⟩ := xpn_runs.1
  have hnew : Bare benchPhy (calls bench benchPhy [.initSet (.request true false)] benchProbed).conf :=
    ⟨by decide +kernel, by decide +kernel⟩
  have hopen : Bare benchPhy (calls bench benchPhy [.initSet (.request true false),
      .secyConfAdd (benchPort 1) benchXpn, .txScSet (benchPort 1)] benchProbed).conf :=
    ⟨by decide +kernel, by decide +kernel⟩
  refine ⟨⟨⟨0, by decide, hu, hx, _, rfl, 0, by decide, hsa⟩, hin⟩, xpn_nonces_separate bench benchPhy _ () ?_⟩
  refine ⟨trivial, fun _ i hi _ => hnew.unmixed hi, trivial, ⟨fun d r hp => absurd hp hopen.not_pointed, ?_⟩, trivial⟩
  exact fun _ i _ _ v _ r hr => absurd hr.1 hopen.not_pointed

/-- Two SecYs may use the same key, salt and SSCI. -/
theorem not_xpn_nonces_separate : ∃ s, Reachable bench benchPhy s ∧ ¬Separate benchPhy s.conf := by
  obtain ⟨⟨hu, hx, hsa, hin⟩, ⟨hu', hx', hsa', hin'⟩, hsak, hssci⟩ := xpn_runs.2
  refine ⟨_, reachable_calls bench benchPhy sharedRun (), fun hs => ?_⟩
  have hnonce := congrArg₂ nonceOf hsak hssci
  have heq := hs .egress 0 1 ⟨⟨0, by decide, hu, hx, _, rfl, 0, by decide, hsa⟩, hin⟩
    ⟨⟨1, by decide, hu', hx', _, rfl, 0, by decide, hsa'⟩, hin'⟩ hnonce
  cases heq

end Lan80xx.VtssMacsec
