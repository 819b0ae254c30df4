import Lan80xx.VtssMacsec.Exclusive
import Lan80xx.VtssMacsec.NonceRuns

/-!
# MACsec of the VTSS PHYs: runs and their active SAs

`tx_sa_set` enables an entry as long as the encoding SA is not active, and `tx_sa_activate` disables the entry of that SA
only; so two SAs that are set before one is activated stay enabled together. `tx_sa_del` leaves an entry enabled, and an SA
that is activated twice has its entry disabled.

- `At`, `ends_saEnable`, `ends_plain`: the register sequences, from known switches;
- `guarding`, `leaving`: the calls that keep the invariant, and those that leave the transmit side alone;
- `ends_txSaSet`, `ends_txSaActivate`, `ends_txSaDisable`, `ends_txSaDel`: the calls on transmit SAs;
- `ends_op`: one call; `tx_exclusive`: the runs.
-/

namespace Lan80xx.VtssMacsec

open Fallible RegBus
open Macsec (Ssci MacsecPort Sak PktNum SecyConf TxScConf MatchAction Direction saPerScMax notInUse)

variable {H : Type} {hw : Hw H} {phy : Phy} {c c' : Conf} {e u : Nat → Bool} {i j an bn r q : Nat}

/-! ## Calls -/

section Calls

variable (sw : Switches hw)

variable (c e u) in
/-- The tables and the switches. -/
def At (s : Dev Conf H) : Prop := s.conf = c ∧ sw.entry s.hw = e ∧ sw.mark s.hw = u

variable (phy) in
def Safe (s : Dev Conf H) : Prop := TxInv phy s.conf (sw.entry s.hw) (sw.mark s.hw)

variable (c c') in
/-- The same SecYs are in use, with the same patterns. -/
def Filed : Prop := ∀ i, (c'.secy i).inUse = (c.secy i).inUse ∧ (c'.secy i).patternRecord = (c.secy i).patternRecord

theorem Filed.refl (c : Conf) : Filed c c := fun _ => ⟨rfl, rfl⟩

theorem Filed.trans {c₁ : Conf} (h : Filed c c₁) (h' : Filed c₁ c') : Filed c c' := fun i =>
  ⟨(h' i).1.trans (h i).1, (h' i).2.trans (h i).2⟩

variable (phy) in
/-- A call that keeps the invariant, and the SecYs in use. -/
def guarding : Frame (Dev Conf H) where
  rel s s' := Safe phy sw s → Safe phy sw s' ∧ Filed s.conf s'.conf
  refl s h := ⟨h, .refl s.conf⟩
  trans h h' hs := ⟨(h' (h hs).1).1, (h hs).2.trans (h' (h hs).1).2⟩

variable (phy c) in
/-- What a guarding call ends in. -/
def Guarded (s : Dev Conf H) : Prop := Safe phy sw s ∧ Filed c s.conf

variable {sw} {α : Type} {x : Call H α} {E : Dev Conf H → Prop}

theorem At.guarded (h : TxInv phy c e u) (hf : Filed c' c) {s : Dev Conf H} (hs : At c e u sw s) : Guarded phy c' sw s := by
  obtain ⟨rfl, rfl, rfl⟩ := hs
  exact ⟨h, hf⟩

theorem ends_safe (hx : ∀ c e u, TxInv phy c e u → Ends (At c e u sw) x (fun _ => Guarded phy c sw) (Guarded phy c sw)) :
    Within (guarding phy sw) x := by
  intro s hs
  unfold final
  rcases hx s.conf _ _ hs s ⟨rfl, rfl, rfl⟩ with ⟨a, t, hxs, h⟩ | ⟨a, t, hxs, h⟩
  · rw [hxs]
    exact h
  · rw [hxs]
    exact h

/-! ### Register sequences -/

theorem ends_saEnable {b : Bool} : Ends (At c e u sw) (hwOp hw (.saEnable r .egress b))
    (fun _ => At c (Function.update e r b) u sw) E := by
  rintro s ⟨rfl, rfl, rfl⟩
  obtain ⟨hok, hentry, hmark⟩ := sw.enable r b s.conf s.hw
  exact Or.inl ⟨(), { s with hw := _ }, if_pos hok, rfl, hentry, hmark⟩

theorem ends_saInuse {b : Bool} : Ends (At c e u sw) (hwOp hw (.saInuse r .egress b))
    (fun _ => At c e (Function.update u r b) sw) E := by
  rintro s ⟨rfl, rfl, rfl⟩
  obtain ⟨hok, hentry, hmark⟩ := sw.inuse r b s.conf s.hw
  exact Or.inl ⟨(), { s with hw := _ }, if_pos hok, rfl, hentry, hmark⟩

theorem ends_plain {op : HwOp} (hop : op.plain = true) :
    Ends (At c e u sw) (hwOp hw op) (fun _ => At c e u sw) (At c e u sw) := by
  refine ends_hwOp_of ?_
  rintro s ⟨rfl, rfl, rfl⟩
  exact ⟨rfl, sw.plain op hop s.conf s.hw⟩

variable (sw c e u r) in
/-- Some mark at one of the entries. -/
def Marked (s : Dev Conf H) : Prop := ∃ b, At c e (Function.update u r b) sw s

theorem ends_flowSet {o : Option Nat} {sc : Nat} {a : MatchAction} :
    Ends (At c e u sw) (hwOp hw (.saFlowSet .egress r o an sc a)) (fun _ => Marked c e u r sw) (Marked c e u r sw) := by
  refine ends_hwOp_of ?_
  rintro s ⟨rfl, rfl, rfl⟩
  obtain ⟨hentry, b, hmark⟩ := sw.flowSet r o an sc a s.conf s.hw
  exact ⟨b, rfl, hentry, hmark⟩

theorem ends_flowClear :
    Ends (At c e u sw) (hwOp hw (.saFlowClear .egress r)) (fun _ => Marked c e u r sw) (Marked c e u r sw) := by
  refine ends_hwOp_of ?_
  rintro s ⟨rfl, rfl, rfl⟩
  obtain ⟨hentry, b, hmark⟩ := sw.flowClear r s.conf s.hw
  exact ⟨b, rfl, hentry, hmark⟩

theorem ends_store {f : Conf → Conf} :
    Ends (At c e u sw) (modifyConf f : Call H PUnit) (fun _ => At (f c) e u sw) E := by
  refine ends_modifyConf_of ?_
  rintro s ⟨rfl, rfl, rfl⟩
  exact ⟨rfl, rfl, rfl⟩

/-! ### Calls that leave the transmit side alone -/

variable (c c') in
/-- Transmit SAs, patterns and the SecYs in use are as before. -/
structure Still : Prop where
  secy : ∀ i, (c'.secy i).txSc.sa = (c.secy i).txSc.sa ∧ (c'.secy i).txSc.encodingSa = (c.secy i).txSc.encodingSa
  filed : Filed c c'
  txSa : c'.txSa = c.txSa
  recfg : c'.glb.spdChangeMacsecRecfg = c.glb.spdChangeMacsecRecfg

namespace Still

theorem refl (c : Conf) : Still c c := ⟨fun _ => ⟨rfl, rfl⟩, .refl c, rfl, rfl⟩

theorem trans {c₁ : Conf} (h : Still c c₁) (h' : Still c₁ c') : Still c c' where
  secy i := ⟨(h'.secy i).1.trans (h.secy i).1, (h'.secy i).2.trans (h.secy i).2⟩
  filed := h.filed.trans h'.filed
  txSa := h'.txSa.trans h.txSa
  recfg := h'.recfg.trans h.recfg

/-- The receive side alone has changed. -/
theorem of_eq (hs : c'.secy = c.secy) (ht : c'.txSa = c.txSa) (hg : c'.glb = c.glb) : Still c c' where
  secy i := by rw [hs]; exact ⟨rfl, rfl⟩
  filed i := by rw [hs]; exact ⟨rfl, rfl⟩
  txSa := ht
  recfg := by rw [hg]

theorem setSecy {f : Secy → Secy} (hsa : (f (c.secy i)).txSc.sa = (c.secy i).txSc.sa)
    (henc : (f (c.secy i)).txSc.encodingSa = (c.secy i).txSc.encodingSa)
    (hin : (f (c.secy i)).inUse = (c.secy i).inUse) (hpat : (f (c.secy i)).patternRecord = (c.secy i).patternRecord) :
    Still c (c.setSecy i f) where
  secy j := by
    rw [Conf.setSecy_secy]
    split
    · next hj =>
      subst hj
      exact ⟨hsa, henc⟩
    · exact ⟨rfl, rfl⟩
  filed j := by
    rw [Conf.setSecy_secy]
    split
    · next hj =>
      subst hj
      exact ⟨hin, hpat⟩
    · exact ⟨rfl, rfl⟩
  txSa := rfl
  recfg := rfl

theorem txInv (h : Still c c') (hi : TxInv phy c e u) : TxInv phy c' e u := by
  have hsa {j an r : Nat} (hr : (c'.secy j).txSc.sa an = some r) : (c.secy j).txSc.sa an = some r := by
    rwa [← (h.secy j).1]
  refine ⟨⟨fun hr => hi.slots.bound (hsa hr), fun hr hq => hi.slots.inj (hsa hr) (hsa hq), fun hr => ?_, fun r hr => ?_,
    fun j hj => ?_, h.recfg.trans hi.slots.recfg⟩, fun j an r hr hen => ?_⟩
  · rw [h.txSa]
    exact hi.slots.numbered (hsa hr)
  · rw [h.txSa] at hr ⊢
    exact hi.slots.used r hr
  · rw [(h.filed j).2]
    rw [(h.filed j).1] at hj
    exact hi.slots.unmatched j hj
  · rw [h.txSa] at hen ⊢
    rw [(h.secy j).2]
    obtain ⟨henc, he, hu, hrest⟩ := hi.exclusive j an r (hsa hr) hen
    exact ⟨henc, he, hu, fun bn q hne hq => hrest bn q hne (hsa hq)⟩

end Still

variable (sw) in
/-- A call that leaves the transmit side alone. -/
def leaving : Frame (Dev Conf H) where
  rel s s' := Still s.conf s'.conf ∧ sw.entry s'.hw = sw.entry s.hw ∧ sw.mark s'.hw = sw.mark s.hw
  refl s := ⟨.refl s.conf, rfl, rfl⟩
  trans h h' := ⟨h.1.trans h'.1, h'.2.1.trans h.2.1, h'.2.2.trans h.2.2⟩

theorem guarding_of_leaving (hx : Within (leaving sw) x) : Within (guarding phy sw) x := by
  refine hx.mono fun s s' h hs => ⟨?_, h.1.filed⟩
  obtain ⟨hstill, hentry, hmark⟩ := h
  unfold Safe
  rw [hentry, hmark]
  exact hstill.txInv hs

theorem leaving_modifyConf {f : Conf → Conf} (hf : ∀ c, Still c (f c)) :
    Within (leaving sw) (modifyConf f : Call H PUnit) := fun s => ⟨hf s.conf, rfl, rfl⟩

theorem still_update {k : Kind} (hk : k.receive = true) (hu : Update phy c k c') : Still c c' := by
  cases hu with
  | rxSaAgain _ _ _ _ => constructor <;> simp [Conf.startRxSa, Conf.pointRxSa, Filed]
  | rxSaTake _ _ _ _ _ _ => constructor <;> simp [Conf.startRxSa, Conf.keyRxSa, Conf.pointRxSa, Filed]
  | rxSaFlag => constructor <;> simp [Conf.flagRxSa, Filed]
  | rxSaLowest => constructor <;> simp [Filed]
  | rxSaMove _ _ _ _ _ _ => constructor <;> simp [Conf.moveRxSa, Filed]
  | rxSaFree => constructor <;> simp [Conf.freeRxSa, Filed]
  | rxScConf => constructor <;> simp [Filed]
  | @rxScOpen i sc p sci _ _ _ _ _ =>
    have hpoint : Still c (c.setSecy i fun s => { s with rxSc := Function.update s.rxSc sc (some p) }) :=
      .setSecy rfl rfl rfl rfl
    exact hpoint.trans (.of_eq rfl rfl rfl)
  | rxScFree => exact Still.trans (.of_eq (by simp) (by simp) (by simp)) (.setSecy rfl rfl rfl rfl)
  | secyUpdate _ => exact .setSecy rfl rfl rfl rfl
  | _ => cases hk

theorem admits_leaving : Admits hw phy Kind.receive (leaving sw) where
  access op hop := by
    rcases hop with hop | ⟨k, hk, hno⟩
    · intro s
      rw [final_hwOp]
      exact ⟨.refl s.conf, sw.plain op hop s.conf s.hw⟩
    · rw [hk] at hno
      cases hno
  nextPn i r s := by
    have hsw := sw.nextPn s.conf i r s.hw
    cases h : (hw.nextPn s.conf i r s.hw).1 <;> simp [final, readNextPn, h, leaving, hsw, Still.refl]
  update hk hu := ⟨still_update hk hu, rfl, rfl⟩

theorem leaving_txScSet : Within (leaving sw) (txScSet i : Call H Unit) :=
  within_getConf.bind fun _ => Within.failIf.bind fun _ => leaving_modifyConf fun _ => .setSecy rfl rfl rfl rfl

theorem leaving_txScUpdate {conf : TxScConf} : Within (leaving sw) (txScUpdate i conf : Call H Unit) :=
  within_getConf.bind fun _ => Within.failIf.bind fun _ => leaving_modifyConf fun _ => .setSecy rfl rfl rfl rfl

/-! ### Transmit SAs -/

theorem ends_ignored {op : HwOp} (hop : op.plain = true) :
    Ends (At c e u sw) (discard (attempt (hwOp hw op)) : Call H Unit) (fun _ => At c e u sw) E :=
  (ends_plain hop).attempt.bind fun _ => Ends.pure fun _ h => h.elim (fun ⟨_, _, hs⟩ => hs) And.right

/-- Without an active SA the encoding one is not in use. -/
theorem TxInv.oneTxAnInUse (h : TxInv phy c e u) (hno : c.oneTxAnInUse i = false) : ¬Active c i := by
  intro ha
  obtain ⟨r, hsa, hen⟩ := (h.exclusive i).encoding ha
  simp [Conf.oneTxAnInUse, Conf.txSaAt_eq hsa, hen, h.slots.used r hen] at hno

/-- The end of `tx_sa_set`, for an entry whose SA is not active. -/
theorem ends_txSaProgram (h : TxInv phy c e u) (hsa : (c.secy i).txSc.sa an = some r) (hr : (c.txSa r).enabled = false)
    (hf : Filed c' c) : Ends (At c e u sw) (txSaProgram hw i an r) (fun _ => Guarded phy c' sw) (Guarded phy c' sw) := by
  have hmarked {s : Dev Conf H} (hs : Marked c e u r sw s) : Guarded phy c' sw s := by
    obtain ⟨b, hs⟩ := hs
    exact hs.guarded (h.mark_update hr b) hf
  refine ends_getConf_bind (fun _ hs => hs.1) ?_
  refine (ends_plain rfl).orFail.weaken (fun _ _ hs => hs) (fun _ hs => hs.guarded h hf) |>.bind fun _ => ?_
  refine ends_flowSet.orFail.weaken (fun _ _ hs => hs) (fun _ hs => hmarked hs) |>.bind fun _ => ?_
  refine Ends.ghost fun b => ?_
  have hb := h.mark_update hr b
  refine (Ends.when (fun _ => ((ends_plain rfl).orFail).weaken (fun _ _ hs => hs) fun _ hs => hs.guarded hb hf)
    fun _ _ hs => hs).bind fun _ => ?_
  refine Ends.when (fun hno => ?_) fun _ s hs => hs.guarded hb hf
  exact ends_saEnable.orFail.weaken (fun _ _ hs => hs.guarded (hb.entry_update hsa (h.oneTxAnInUse hno) true) hf)
    fun _ hs => hs

variable (phy c e i an) in
/-- The entry for the SA: no slot has it, and it is off while an SA of the SecY is active. -/
def Spare : Prop := (c.secy i).txSc.sa an = none → ∀ r, c.recordEmptyGet phy .egress = some r →
  (∀ j < phy.maxSecyCnt, ∀ bn < saPerScMax, (c.secy j).txSc.sa bn ≠ some r) ∧ (Active c i → e r = false)

theorem ends_txSaSet (h : TxInv phy c e u) (hi : i < phy.maxSecyCnt) (hspare : Spare phy c e i an) {nextPn : PktNum}
    {b : Bool} {sak : Sak} {ssci : Option Ssci} :
    Ends (At c e u sw) (txSaSet hw phy i an nextPn b sak ssci) (fun _ => Guarded phy c sw) (Guarded phy c sw) := by
  have hsafe (s : Dev Conf H) (hs : At c e u sw s) : Guarded phy c sw s := hs.guarded h (.refl c)
  refine ends_getConf_bind (fun _ hs => hs.1) ?_
  refine Ends.failIf_bind (fun s hs _ => hsafe s hs) fun han => ?_
  refine Ends.failIf_bind (fun s hs _ => hsafe s hs) fun _ => Ends.failIf_bind (fun s hs _ => hsafe s hs) fun _ => ?_
  rw [h.slots.recfg]
  cases hsa : (c.secy i).txSc.sa an with
  | some r => exact Ends.throw hsafe
  | none =>
    cases hr : c.recordEmptyGet phy .egress with
    | none => exact Ends.throw hsafe
    | some record =>
      obtain ⟨hnew, hoff⟩ := hspare hsa record hr
      have hfree : (c.txSa record).inUse = false := (recordEmptyGet_spec hr).2
      have htake {g : TxSa → TxSa} (hrec : (g (c.txSa record)).record = record)
          (hen : (g (c.txSa record)).enabled = (c.txSa record).enabled) :
          TxInv phy ((c.linkTxSa i an (some record)).setTxSa record g) e u :=
        h.take hi (Nat.lt_of_not_le han) hfree (fun j bn hq => hnew j (h.slots.bound hq).1 bn (h.slots.bound hq).2 hq) hoff
            hrec hen
      have hfiled {g : TxSa → TxSa} : Filed c ((c.linkTxSa i an (some record)).setTxSa record g) := fun j =>
        ⟨Conf.linkTxSa_inUse, Conf.linkTxSa_patternRecord⟩
      refine ends_store.bind fun _ => ?_
      refine Ends.failIf_bind (fun s hs _ => ?_) fun _ => ?_
      · simp only [Conf.pointTxSa, Conf.keyTxSa, Conf.setTxSa_setTxSa] at hs
        exact hs.guarded (htake rfl rfl) hfiled
      · refine ends_store.bind fun _ => ?_
        simp only [Conf.pointTxSa, Conf.keyTxSa, Conf.startTxSa, Conf.setTxSa_setTxSa]
        refine ends_txSaProgram (htake rfl rfl) ?_ ?_ hfiled
        · rw [Conf.setTxSa_secy, Conf.linkTxSa_sa, if_pos ⟨rfl, rfl⟩]
        · rw [Conf.setTxSa_txSa_self]
          exact h.disabled hfree

variable (c e i an) in
/-- The SA is not the active one, and of the others those that are not active are off. -/
def Clear : Prop := ∀ r, (c.secy i).txSc.sa an = some r → (c.txSa r).inUse = true →
  (c.txSa r).enabled = false ∧
    ∀ bn < saPerScMax, ∀ q, bn ≠ an → (c.secy i).txSc.sa bn = some q → (c.txSa q).enabled = false → e q = false

theorem filed_activateTxSa : Filed c (c.activateTxSa i an) := by
  have hcode {c₁ : Conf} (hs : c₁.secy = c.secy) : Filed c (c₁.setSecy i fun s =>
      { s with txSc := { s.txSc with encodingSa := an, encipheringSa := an } }) := fun j => by
    rw [Conf.setSecy_secy, hs]
    split
    · next hj =>
      subst hj
      exact ⟨rfl, rfl⟩
    · exact ⟨rfl, rfl⟩
  unfold Conf.activateTxSa Conf.setTxSaAt
  split
  · exact hcode rfl
  · exact hcode rfl

theorem ends_txSaActivate (h : TxInv phy c e u) (hclear : Clear c e i an) :
    Ends (At c e u sw) (txSaActivate hw i an) (fun _ => Guarded phy c sw) (Guarded phy c sw) := by
  have hsafe (s : Dev Conf H) (hs : At c e u sw s) : Guarded phy c sw s := hs.guarded h (.refl c)
  refine ends_getConf_bind (fun _ hs => hs.1) (Ends.ite (fun _ => Ends.pure hsafe) fun _ => ?_)
  refine Ends.failIf_bind (fun s hs _ => hsafe s hs) fun han => Ends.failIf_bind (fun s hs _ => hsafe s hs) fun hnone => ?_
  obtain ⟨r, hsa⟩ := Option.ne_none_iff_exists'.mp hnone
  rw [Conf.txSaAt_eq hsa, h.slots.numbered hsa]
  refine Ends.failIf_bind (fun s hs _ => hsafe s hs) fun hin => ?_
  have hin' : (c.txSa r).inUse = true := by simpa using hin
  obtain ⟨hr, hoff⟩ := hclear r hsa hin'
  refine ends_saInuse.orFail.bind fun _ => ends_saEnable.orFail.bind fun _ => ?_
  by_cases hact : Active c i
  · obtain ⟨q, hq, hqen⟩ := (h.exclusive i).encoding hact
    have hrq : r ≠ q := by
      rintro rfl
      rw [hr] at hqen
      cases hqen
    obtain ⟨-, -, -, hothers⟩ := h.exclusive i _ q hq hqen
    have hcond : ((c.txSa q).enabled && decide ((c.secy i).txSc.encodingSa < saPerScMax)) = true := by
      simp [hqen, (h.slots.bound hq).2]
    rw [Conf.txSaAt_eq hq, h.slots.numbered hq, when, if_pos hcond]
    refine (ends_saEnable.orFail.bind fun _ => ends_store).bind fun _ => ends_store.weaken (fun _ s hs => ?_) fun _ => id
    rw [Conf.retireTxSa, Conf.setTxSaAt_eq hq, Function.update_comm hrq] at hs
    -- the old SA is retired before the new one is stored
    have hdim : TxInv phy (c.setTxSa q fun sa => { sa with enabled := false, statusInUse := false })
        (Function.update e q false) u := h.dim hq rfl rfl
    refine hs.guarded (hdim.activate hsa ?_ (h.not_active_dim hq rfl) fun bn t hbn ht => ?_) filed_activateTxSa
    · rwa [Conf.setTxSa_txSa, if_neg hrq]
    · rw [Function.update_apply]
      split
      · rfl
      · next htq =>
        refine (hothers bn t ?_ ht).2
        rintro rfl
        exact htq (Option.some.inj (ht.symm.trans hq))
  · have hcond : ¬((c.txSaAt i (c.secy i).txSc.encodingSa).enabled &&
        decide ((c.secy i).txSc.encodingSa < saPerScMax)) = true := by
      intro hen
      simp only [Bool.and_eq_true] at hen
      unfold Conf.txSaAt at hen
      split at hen
      · next q hq => exact hact ⟨_, q, hq, hen.1⟩
      · cases hen.1
    rw [when, if_neg hcond]
    refine Ends.bind (Q := fun _ => At c (Function.update e r true) (Function.update u r true) sw)
      (Ends.pure fun _ hs => hs) fun _ => ends_store.weaken (fun _ s hs => ?_) fun _ => id
    refine hs.guarded (h.activate hsa hin' hact fun bn q hbn hq => ?_) filed_activateTxSa
    refine hoff bn (h.slots.bound hq).2 q hbn hq ?_
    by_contra hen
    exact hact ⟨bn, q, hq, by simpa using hen⟩

theorem filed_disableTxSa : Filed c (c.disableTxSa i an) := by
  have hcode {c₁ : Conf} (hs : c₁.secy = c.secy) : Filed c (c₁.setSecy i fun s =>
      if an = s.txSc.encodingSa then { s with txSc := { s.txSc with encodingSa := 0, encipheringSa := 0 } } else s) :=
    fun j => by
      rw [Conf.setSecy_secy, hs]
      split
      · next hj =>
        subst hj
        split <;> exact ⟨rfl, rfl⟩
      · exact ⟨rfl, rfl⟩
  unfold Conf.disableTxSa Conf.setTxSaAt
  split
  · exact hcode rfl
  · exact hcode rfl

theorem ends_txSaDisable (h : TxInv phy c e u) :
    Ends (At c e u sw) (txSaDisable hw i an) (fun _ => Guarded phy c sw) (Guarded phy c sw) := by
  have hsafe (s : Dev Conf H) (hs : At c e u sw s) : Guarded phy c sw s := hs.guarded h (.refl c)
  refine ends_getConf_bind (fun _ hs => hs.1) ?_
  refine Ends.failIf_bind (fun s hs _ => hsafe s hs) fun _ => Ends.failIf_bind (fun s hs _ => hsafe s hs) fun hnone => ?_
  obtain ⟨r, hsa⟩ := Option.ne_none_iff_exists'.mp hnone
  rw [Conf.txSaAt_eq hsa, h.slots.numbered hsa]
  refine ends_saEnable.orFail.bind fun _ => ends_saInuse.orFail.bind fun _ => ?_
  refine ends_store.weaken (fun _ s hs => ?_) fun _ => id
  exact hs.guarded (h.disable hsa) filed_disableTxSa

theorem ends_txSaDel (h : TxInv phy c e u) :
    Ends (At c e u sw) (txSaDel hw i an) (fun _ => Guarded phy c sw) (Guarded phy c sw) := by
  have hsafe (s : Dev Conf H) (hs : At c e u sw s) : Guarded phy c sw s := hs.guarded h (.refl c)
  refine ends_getConf_bind (fun _ hs => hs.1) ?_
  refine Ends.failIf_bind (fun s hs _ => hsafe s hs) fun _ => Ends.failIf_bind (fun s hs _ => hsafe s hs) fun hnone => ?_
  obtain ⟨r, hsa⟩ := Option.ne_none_iff_exists'.mp hnone
  rw [Conf.txSaAt_eq hsa, h.slots.numbered hsa]
  have hfree := h.free hsa
  have hdark : ((c.freeTxSa i an r).txSa r).enabled = false := by simp [Conf.freeTxSa]
  have hfiled : Filed c (c.freeTxSa i an r) := fun j => ⟨Conf.linkTxSa_inUse, Conf.linkTxSa_patternRecord⟩
  refine (ends_ignored rfl).bind fun _ => (ends_ignored rfl).bind fun _ => ends_store.bind fun _ => ?_
  refine (ends_plain rfl).weaken (fun _ _ hs => hs) (fun _ hs => hs.guarded hfree hfiled) |>.bind fun _ => ?_
  refine ends_flowClear.weaken (fun _ _ hs => hs) (fun _ hs => ?_) |>.bind fun _ => Ends.ghost fun b => ?_
  · obtain ⟨b, hs⟩ := hs
    exact hs.guarded (hfree.mark_update hdark b) hfiled
  · have hafter (s : Dev Conf H) (hs : At (c.freeTxSa i an r) e (Function.update u r b) sw s) : Guarded phy c sw s :=
      hs.guarded (hfree.mark_update hdark b) hfiled
    refine (ends_plain rfl).orFail.weaken (fun _ _ hs => hs) hafter |>.bind fun _ => ?_
    exact (ends_plain rfl).orFail.weaken (fun _ => hafter) hafter

/-! ### Channels and SecYs -/

theorem guarding_txScDel : Within (guarding phy sw) (txScDel hw i) := by
  refine within_getConf.bind fun c => Within.failIf.bind fun _ => ?_
  refine (Within.forUpTo _ fun an _ => within_getConf.bind fun c => Within.when fun _ => ?_).bind fun _ => ?_
  · exact (ends_safe fun c e u h => ends_txSaDisable h).orFail.bind fun _ => (ends_safe fun c e u h => ends_txSaDel h).orFail
  · refine ends_safe fun c e u h => ends_store.weaken (fun _ s hs => ?_) fun _ => id
    refine hs.guarded (h.setSecy (fun _ _ hr => by cases hr) (h.slots.unmatched i)) fun j => ?_
    rw [Conf.setSecy_secy]
    split
    · next hj =>
      subst hj
      exact ⟨rfl, rfl⟩
    · exact ⟨rfl, rfl⟩

/-- Without patterns there is nothing to delete. -/
theorem ends_patternsDel (hpat : ∀ a d, (c.secy i).patternRecord a d = notInUse) (l : List (Direction × MatchAction)) :
    Ends (At c e u sw) (patternsDel hw i l) (fun _ => At c e u sw) E := by
  induction l with
  | nil => exact Ends.pure fun _ hs => hs
  | cons p l ih =>
    refine ends_getConf_bind (fun _ hs => hs.1) ?_
    exact (Ends.when (fun h => absurd (hpat p.2 p.1) h) fun _ _ hs => hs).bind fun _ => ih

theorem ends_secyConfDel (h : TxInv phy c e u) (hin : (c.secy i).inUse = true) :
    Ends (At c e u sw) (secyConfDel hw phy i) (fun _ => Safe phy sw) (Safe phy sw) := by
  refine ends_getConf_bind (fun _ hs => hs.1) ?_
  have hguarded {x : Call H Unit} (hx : Within (guarding phy sw) x) :
      Ends (Guarded phy c sw) x (fun _ => Guarded phy c sw) (Safe phy sw) :=
    (hx.ends (T := Guarded phy c sw) fun s s' hs hrel => ⟨(hrel hs.1).1, hs.2.trans (hrel hs.1).2⟩).weaken
      (fun _ _ hs => hs) fun _ hs => hs.1
  refine (hguarded (Within.when fun _ => guarding_txScDel)).pre (fun s hs => hs.guarded h (.refl c)) |>.bind fun _ => ?_
  refine (hguarded (guarding_of_leaving (Within.forUpTo _ fun sc _ => within_getConf.bind fun _ =>
    Within.when fun _ => moving_rxScDel admits_leaving rfl rfl))).bind fun _ => ?_
  intro s hs
  have hpat := fun a d => hs.1.slots.unmatched i (by rw [(hs.2 i).1, hin]) a d
  refine (ends_patternsDel hpat deletedPatterns |>.bind fun _ => ends_store.weaken (fun _ t ht => ?_) fun _ => id) s
    (⟨rfl, rfl, rfl⟩ : At s.conf _ _ sw s)
  exact (ht.guarded (hs.1.setSecy (fun _ _ hr => by cases hr) fun hno => by cases hno) (.refl _)).1

theorem ends_secyConfAdd (h : TxInv phy c e u) {port : MacsecPort} {conf : SecyConf} :
    Ends (At c e u sw) (secyConfAdd phy port conf : Call H Unit) (fun _ => Safe phy sw) (Safe phy sw) := by
  have hsafe (s : Dev Conf H) (hs : At c e u sw s) : Safe phy sw s := (hs.guarded h (.refl c)).1
  refine Ends.failIf_bind (fun s hs _ => hsafe s hs) fun _ => ends_getConf_bind (fun _ hs => hs.1) ?_
  refine Ends.failIf_bind (fun s hs _ => hsafe s hs) fun _ => ?_
  cases c.portVacancy phy port with
  | none => exact Ends.throw hsafe
  | some i =>
    refine Ends.failIf_bind (fun s hs _ => hsafe s hs) fun _ => Ends.failIf_bind (fun s hs _ => hsafe s hs) fun _ => ?_
    refine Ends.failIf_bind (fun s hs _ => hsafe s hs) fun _ => ends_store.bind fun _ => ?_
    have hopen : TxInv phy ((c.openSecy i port conf).setSecy i fun s => { s with inUse := isSciValid s.sci }) e u := by
      simp only [Conf.openSecy, Conf.setSecy_setSecy]
      exact h.setSecy (fun _ _ hr => ⟨hr, rfl⟩) fun _ _ _ => rfl
    have hdone (s : Dev Conf H) (hs : At _ e u sw s) : Safe phy sw s := (hs.guarded hopen (.refl _)).1
    exact (Ends.failIf fun s hs _ => hdone s hs).weaken (fun _ s hs => hdone s hs.1) fun _ => id

theorem ends_secyControlledSet (h : TxInv phy c e u) {b : Bool} (hb : b = false → ¬Active c i) :
    Ends (At c e u sw) (secyControlledSet hw phy i b) (fun _ => Safe phy sw) (Safe phy sw) := by
  have hsafe (s : Dev Conf H) (hs : At c e u sw s) : Safe phy sw s := (hs.guarded h (.refl c)).1
  refine ends_getConf_bind (fun _ hs => hs.1) (Ends.ite (fun _ => Ends.pure hsafe) fun _ => ?_)
  refine (Ends.forUpTo (I := fun _ => At c e u sw) _ fun sc _ => Ends.forUpTo (I := fun _ => At c e u sw) _ fun an _ =>
    Ends.when (fun _ => (ends_plain rfl).orFail.weaken (fun _ _ hs => hs) hsafe) fun _ _ hs => hs).bind fun _ => ?_
  refine (Ends.forUpTo (I := fun _ => At c e u sw) _ fun an _ => Ends.when (fun hen => ?_) fun _ _ hs => hs).bind fun _ => ?_
  · -- the SA is active, and its entry on already
    obtain ⟨r, hsa⟩ := Option.ne_none_iff_exists'.mp hen.1
    rw [Conf.txSaAt_eq hsa] at hen ⊢
    have hon : e r = b := by
      cases b with
      | true => exact (h.exclusive i an r hsa hen.2).2.1
      | false => exact absurd ⟨an, r, hsa, hen.2⟩ (hb rfl)
    rw [h.slots.numbered hsa]
    refine ends_saEnable.orFail.weaken (fun _ s hs => ?_) fun _ => id
    rwa [← hon, Function.update_eq_self] at hs
  · refine ends_store.weaken (fun _ s hs => ?_) fun _ => id
    exact (hs.guarded (Still.txInv (.setSecy rfl rfl rfl rfl) h) (.refl _)).1

end Calls

/-! ## Runs -/

variable (c) in
/-- No SecY is in use or has an SA. -/
structure Blank : Prop where
  vacant : ∀ i, (c.secy i).inUse = false ∧ (c.secy i).txSc.sa = fun _ => none
  used : ∀ r, (c.txSa r).enabled = true → (c.txSa r).inUse = true
  recfg : c.glb.spdChangeMacsecRecfg = false

namespace Blank

theorem probed : Blank {} := ⟨fun _ => ⟨rfl, rfl⟩, fun _ h => absurd h Bool.false_ne_true, rfl⟩

theorem txInv (h : Blank c) : TxInv phy c e u := by
  have hno {j an r : Nat} (hr : (c.secy j).txSc.sa an = some r) : False := by
    rw [(h.vacant j).2] at hr
    cases hr
  refine ⟨⟨fun hr => (hno hr).elim, fun hr => (hno hr).elim, fun hr => (hno hr).elim, h.used, fun j hj => ?_, h.recfg⟩,
    fun j an r hr => (hno hr).elim⟩
  rw [(h.vacant j).1] at hj
  cases hj

theorem clearTxSa (h : Blank c) : Blank (c.setTxSa r fun _ => {}) := by
  refine ⟨h.vacant, fun q => ?_, h.recfg⟩
  rw [Conf.setTxSa_txSa]
  split
  · exact fun hen => by cases hen
  · exact h.used q

theorem releaseBypass (h : Blank c) (n : Nat) : Blank (c.releaseBypass n) := by
  induction n with
  | zero => exact h
  | succ n ih =>
    simp only [Conf.releaseBypass]
    split
    · exact ih
    · have hclear := ih.clearTxSa (r := (c.releaseBypass n).glb.egrBypassRecord n)
      exact ⟨hclear.vacant, hclear.used, hclear.recfg⟩

theorem disabled (h : Blank c) : Blank (c.disabled phy) := by
  refine ⟨fun i => ?_, fun r => ?_, rfl⟩
  · simp only [Conf.disabled]
    split
    · exact ⟨rfl, rfl⟩
    · exact h.vacant i
  · simp only [Conf.disabled, Function.update_apply]
    split
    · exact fun hen => by cases hen
    · exact h.used r

/-- The block may be enabled and disabled while there are no SecYs. -/
theorem initSet {s : Dev Conf H} (h : Blank s.conf) {init : Init} : Blank (final (initSet hw phy init) s).conf := by
  have hkeep : Within (onConf (.keeps Blank)) (VtssMacsec.initSet hw phy init) := by
    refine within_initSet (F := onConf (.keeps Blank)) (fun op => soft_hwOp op) (fun s f hr => ?_) (fun s => ?_)
      (fun s => ?_) fun s => ?_ <;> simp only [onConf, Frame.keeps] <;> intro h
    · exact ⟨h.vacant, h.used, hr.recfg.trans h.recfg⟩
    · exact ⟨h.vacant, h.used, h.recfg⟩
    · exact h.releaseBypass cpRules
    · exact h.disabled
  exact hkeep s h

end Blank

/-- What a call needs for the active SAs to stay alone. -/
def Op.Alone (phy : Phy) (c : Conf) (e : Nat → Bool) : Op → Prop
  | .initSet _ => Blank c
  | .txSaSet port an .. => ∀ i, c.portFind phy port = some i → Spare phy c e i an
  | .txSaActivate port an => ∀ i, c.portFind phy port = some i → Clear c e i an
  | .secyControlledSet port b => ∀ i, c.portFind phy port = some i → b = false → ¬Active c i
  | .speedChange .. | .patternSet .. | .patternDel .. | .controlFrameMatchConfSet .. | .controlFrameMatchConfDel _ => False
  | _ => True

section Runs

variable {sw : Switches hw} {port : MacsecPort} {f : Nat → Call H Unit}

theorem ends_portCheck_bind (h : TxInv phy c e u) (hf : ∀ i, c.portFind phy port = some i →
    Ends (At c e u sw) (f i) (fun _ => Safe phy sw) (Safe phy sw)) :
    Ends (At c e u sw) (portCheck phy port >>= f) (fun _ => Safe phy sw) (Safe phy sw) := by
  have hsafe (s : Dev Conf H) (hs : At c e u sw s) : Safe phy sw s := (hs.guarded h (.refl c)).1
  refine Ends.bind (Q := fun i s => At c e u sw s ∧ c.portFind phy port = some i) ?_ fun i => Ends.imp (hf i)
  refine ends_getConf_bind (fun _ hs => hs.1) (Ends.failIf_bind (fun s hs _ => hsafe s hs) fun _ => ?_)
  cases hi : c.portFind phy port with
  | none => exact Ends.throw hsafe
  | some i => exact Ends.pure fun s hs => ⟨hs, rfl⟩

theorem ends_of_guarding {x : Call H Unit} (hx : Within (guarding phy sw) x) (h : TxInv phy c e u) :
    Ends (At c e u sw) x (fun _ => Safe phy sw) (Safe phy sw) := by
  refine hx.ends fun s s' hs hrel => (hrel ?_).1
  exact (hs.guarded h (.refl c)).1

theorem ends_of_leaving {x : Call H Unit} (hx : Within (leaving sw) x) (h : TxInv phy c e u) :
    Ends (At c e u sw) x (fun _ => Safe phy sw) (Safe phy sw) := ends_of_guarding (guarding_of_leaving hx) h

theorem ends_of_guarded {x : Call H Unit}
    (hx : Ends (At c e u sw) x (fun _ => Guarded phy c sw) (Guarded phy c sw)) :
    Ends (At c e u sw) x (fun _ => Safe phy sw) (Safe phy sw) := hx.weaken (fun _ _ hs => hs.1) fun _ hs => hs.1

/-- One call. -/
theorem ends_op {op : Op} (h : TxInv phy c e u) (ha : op.Alone phy c e) (hop : ∀ init, op ≠ .initSet init) :
    Ends (At c e u sw) (op.call hw phy) (fun _ => Safe phy sw) (Safe phy sw) := by
  have hguard {x : Call H Unit} (hx : Within (guarding phy sw) x) := ends_of_guarding hx h
  have hleave {x : Call H Unit} (hx : Within (leaving sw) x) := ends_of_leaving hx h
  have hsafe (s : Dev Conf H) (hs : At c e u sw s) : Safe phy sw s := (hs.guarded h (.refl c)).1
  cases op with
  | initSet init => exact absurd rfl (hop init)
  | secyConfAdd port conf => exact ends_secyConfAdd h
  | secyConfDel port => exact ends_portCheck_bind h fun i hi => ends_secyConfDel h (portFind_spec hi).2
  | secyControlledSet port b => exact ends_portCheck_bind h fun i hi => ends_secyControlledSet h (ha i hi)
  | bypassTagSet port tag =>
    exact ends_portCheck_bind h fun _ _ => hleave (leaving_modifyConf fun _ => .setSecy rfl rfl rfl rfl)
  | txScSet port => exact ends_portCheck_bind h fun _ _ => hleave leaving_txScSet
  | txScUpdate port conf =>
    exact Ends.failIf_bind (fun s hs _ => hsafe s hs) fun _ => ends_portCheck_bind h fun _ _ => hleave leaving_txScUpdate
  | txScDel port => exact ends_portCheck_bind h fun _ _ => hguard guarding_txScDel
  | txSaSet port an nextPn b sak ssci =>
    exact ends_portCheck_bind h fun i hi => ends_of_guarded (ends_txSaSet h (portFind_spec hi).1 (ha i hi))
  | txSaActivate port an => exact ends_portCheck_bind h fun i hi => ends_of_guarded (ends_txSaActivate h (ha i hi))
  | txSaDisable port an => exact ends_portCheck_bind h fun _ _ => ends_of_guarded (ends_txSaDisable h)
  | txSaDel port an => exact ends_portCheck_bind h fun _ _ => ends_of_guarded (ends_txSaDel h)
  | speedChange fuel speed => exact ha.elim
  | patternSet port d a pattern => exact ha.elim
  | patternDel port d a => exact ha.elim
  | controlFrameMatchConfSet conf rule => exact ha.elim
  | controlFrameMatchConfDel rule => exact ha.elim
  | _ => exact hleave (moving_op admits_leaving (by simp [Op.MadeOf, Kind.receive]))

theorem safe_op {op : Op} {s : Dev Conf H} (hs : Safe phy sw s) (ha : op.Alone phy s.conf (sw.entry s.hw)) :
    Safe phy sw (final (op.call hw phy) s) := by
  by_cases hop : ∃ init, op = .initSet init
  · obtain ⟨init, rfl⟩ := hop
    exact (Blank.initSet ha).txInv
  · rcases (ends_op hs ha fun init h => hop ⟨init, h⟩).final ⟨rfl, rfl, rfl⟩ with ⟨-, -, h⟩ | ⟨-, h⟩
    · exact h
    · exact h

variable (sw phy) in
/-- **One transmit SA at a time.** In every run whose calls meet the condition, an active SA is the encoding one of its
SecY, its entry is enabled and marked as in use, and the other SAs of the SecY are disabled in the chip and in
software. -/
theorem tx_exclusive (ops : List Op) (h : H)
    (hrun : Meets hw phy (fun s op => op.Alone phy s.conf (sw.entry s.hw)) ops { conf := {}, hw := h }) (i : Nat) :
    Exclusive (calls hw phy ops { conf := {}, hw := h }).conf (sw.entry (calls hw phy ops { conf := {}, hw := h }).hw)
      (sw.mark (calls hw phy ops { conf := {}, hw := h }).hw) i := by
  have hsafe : Safe phy sw (calls hw phy ops { conf := {}, hw := h }) :=
    calls_induction (fun s op hs ha => safe_op hs ha) ops _ Blank.probed.txInv hrun
  exact hsafe.exclusive i

end Runs

/-! ### Two SAs before the first is activated -/

/-- The switches of the transmit entries, and nothing else. -/
def switchBench : Hw ((Nat → Bool) × (Nat → Bool)) where
  run op _ h := (true, match op with
    | .saEnable r .egress b => (Function.update h.1 r b, h.2)
    | .saInuse r .egress b => (h.1, Function.update h.2 r b)
    | .saFlowSet .egress r .. | .saFlowClear .egress r => (h.1, Function.update h.2 r false)
    | _ => h)
  nextPn _ _ _ h := (some 0, h)

def benchSwitches : Switches switchBench where
  entry := Prod.fst
  mark := Prod.snd
  enable _ _ _ _ := ⟨rfl, rfl, rfl⟩
  inuse _ _ _ _ := ⟨rfl, rfl, rfl⟩
  flowSet _ _ _ _ _ _ _ := ⟨rfl, false, rfl⟩
  flowClear _ _ _ := ⟨rfl, false, rfl⟩
  plain op hop c h := by
    cases op with
    | saEnable r d b => cases d <;> simp [HwOp.plain, switchBench] at hop ⊢
    | saInuse r d b => cases d <;> simp [HwOp.plain, switchBench] at hop ⊢
    | saFlowSet d r o an sc a => cases d <;> simp [HwOp.plain, switchBench] at hop ⊢
    | saFlowClear d r => cases d <;> simp [HwOp.plain, switchBench] at hop ⊢
    | _ => exact ⟨rfl, rfl⟩
  nextPn _ _ _ _ := ⟨rfl, rfl⟩

/-- The port after the probe, with every switch off. -/
def switchProbed : Dev Conf ((Nat → Bool) × (Nat → Bool)) := { conf := {}, hw := (fun _ => false, fun _ => false) }

/-- A SecY with its transmit channel. -/
def channelRun : List Op :=
  [.initSet (.request true false), .secyConfAdd (benchPort 1) benchSecy, .txScSet (benchPort 1)]

def setSa (an : Nat) : Op := .txSaSet (benchPort 1) an 1 true {} none

/-- Each SA is activated before the next one is set. -/
def turnRun : List Op :=
  channelRun ++ [setSa 0, .txSaActivate (benchPort 1) 0, setSa 1, .txSaActivate (benchPort 1) 1]

/-- Both are set first. -/
def pairRun : List Op := channelRun ++ [setSa 0, setSa 1, .txSaActivate (benchPort 1) 1]

/-- `Spare` and `Clear`, for tables that can be evaluated. -/
theorem spare_of (hr : c.recordEmptyGet phy .egress = some r)
    (hnew : ∀ j < phy.maxSecyCnt, ∀ bn < saPerScMax, (c.secy j).txSc.sa bn ≠ some r) (hoff : e r = false) :
    Spare phy c e i an := by
  intro _ q hq
  obtain rfl : r = q := Option.some.inj (hr.symm.trans hq)
  exact ⟨hnew, fun _ => hoff⟩

theorem clear_of (han : ((c.secy i).txSc.sa an).all (fun r => !(c.txSa r).enabled) = true)
    (hoff : ∀ bn < saPerScMax, bn ≠ an → ((c.secy i).txSc.sa bn).all (fun q => (c.txSa q).enabled || !e q) = true) :
    Clear c e i an := by
  intro r hr _
  rw [hr] at han
  refine ⟨by simpa using han, fun bn hbn q hne hq hen => ?_⟩
  have hq' := hoff bn hbn hne
  rw [hq] at hq'
  simpa [hen] using hq'

/-- A second SA, activated while the first one is active. -/
theorem tx_exclusive_bench :
    let s := calls switchBench benchPhy turnRun switchProbed
    ((s.conf.secy 0).txSc.sa 1 = some 1 ∧ (s.conf.txSa 1).enabled = true) ∧
      Exclusive s.conf (benchSwitches.entry s.hw) (benchSwitches.mark s.hw) 0 := by
  refine ⟨by decide +kernel, tx_exclusive benchPhy benchSwitches turnRun _ ?_ 0⟩
  have hport {s : Dev Conf ((Nat → Bool) × (Nat → Bool))} (hs : s.conf.portFind benchPhy (benchPort 1) = some 0)
      {P : Nat → Prop} (hP : P 0) (i : Nat) (hi : s.conf.portFind benchPhy (benchPort 1) = some i) : P i := by
    obtain rfl : 0 = i := Option.some.inj (hs.symm.trans hi)
    exact hP
  refine ⟨Blank.probed, trivial, trivial, hport (by decide +kernel) ?_, hport (by decide +kernel) ?_,
    hport (by decide +kernel) ?_, hport (by decide +kernel) ?_, trivial⟩
  · exact spare_of (r := 0) (by decide +kernel) (by decide +kernel) (by decide +kernel)
  · exact clear_of (by decide +kernel) (by decide +kernel)
  · exact spare_of (r := 1) (by decide +kernel) (by decide +kernel) (by decide +kernel)
  · exact clear_of (by decide +kernel) (by decide +kernel)

/-- The entry of the SA that was set first stays enabled. -/
theorem not_tx_exclusive : ∃ s, Reachable switchBench benchPhy s ∧
    ¬Exclusive s.conf (benchSwitches.entry s.hw) (benchSwitches.mark s.hw) 0 := by
  refine ⟨_, reachable_calls switchBench benchPhy pairRun (fun _ => false, fun _ => false), fun h => ?_⟩
  have hoff := (h 1 1 (by decide +kernel) (by decide +kernel)).2.2.2 0 0 (by decide) (by decide +kernel)
  exact absurd hoff.2 (by decide +kernel)

end Lan80xx.VtssMacsec
