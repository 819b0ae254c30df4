import Lan80xx.Macsec.InvariantRx

/-!
# MACsec: what a call can do, one small step at a time

A call for SecY `i` is a sequence of small steps (`Micro`): register accesses that stay within the bits `allowed` to
the SecY, and updates of the tables (`Commit`). A `Scope` says which kinds of updates the call makes, below which record
and CAM index it stays, and whether it clears map entry 0. The lemmas `steps_*` put every function of the driver into the
smallest scope it needs; what the small steps keep, every call keeps, however it ends.
-/

namespace Lan80xx.Macsec

open Fallible RegBus Ownership MacsecConf

variable {H : Type}

/-! ## Scopes -/

namespace MacsecConf

/-- The record belongs to SecY `i`: to one of its SAs, or to one of its patterns. -/
def ownedBy (c : MacsecConf) (d : Direction) (i r : Nat) : Prop :=
  (match d with
    | .egress => ∃ an, (c.secy i).txSc.sa an = some r
    | .ingress => ∃ sc p an, (c.secy i).rxSc sc = some p ∧ (c.rxSc p).sa an = some r) ∨
  ∃ a, c.saOwner d (.pattern i a) = some r

end MacsecConf

section Owned

variable {c : MacsecConf} {d : Direction} {i j r : Nat}

theorem Inv.ownedBy_inUse (h : Inv c) (hr : c.ownedBy d i r) : c.saInUse d r = true := by
  cases d with
  | egress =>
    rcases hr with ⟨an, hr⟩ | ⟨a, hr⟩
    · exact h.tx.live (s := .sa i an) hr
    · exact h.tx.live hr
  | ingress =>
    rcases hr with ⟨sc, p, an, -, hr⟩ | ⟨a, hr⟩
    · exact h.rx.live (s := .sa p an) hr
    · exact h.rx.live hr

theorem Inv.ownedBy_unique (h : Inv c) (hi : c.ownedBy d i r) (hj : c.ownedBy d j r) : i = j := by
  cases d with
  | egress =>
    rcases hi with ⟨an, hi⟩ | ⟨a, hi⟩ <;> rcases hj with ⟨an', hj⟩ | ⟨a', hj⟩
    · have := h.tx.inj (s := .sa i an) (t := .sa j an') hi hj
      simp_all
    · have := h.tx.inj (s := .sa i an) hi hj
      simp at this
    · have := h.tx.inj (t := .sa j an') hi hj
      simp at this
    · have := h.tx.inj hi hj
      simp_all
  | ingress =>
    rcases hi with ⟨sc, p, an, hp, hi⟩ | ⟨a, hi⟩ <;> rcases hj with ⟨sc', p', an', hp', hj⟩ | ⟨a', hj⟩
    · have := h.rx.inj (s := .sa p an) (t := .sa p' an') hi hj
      simp only [SaPlace.sa.injEq] at this
      obtain ⟨rfl, -⟩ := this
      have := h.sc.inj (s := (i, sc)) (t := (j, sc')) hp hp'
      simp_all
    · have := h.rx.inj (s := .sa p an) hi hj
      simp at this
    · have := h.rx.inj (t := .sa p' an') hi hj
      simp at this
    · have := h.rx.inj hi hj
      simp_all

end Owned

/-- What a call may do beyond its own SecY's entries, and how far those reach. -/
structure Scope where
  kinds : Set Kind
  mapZero : Set Direction
  recs : Direction → Nat
  hws : Nat

/-- The register bits a call for SecY `i` may change. -/
def allowed (sp : Scope) (i : Nat) (c : MacsecConf) : Set (IoReg × Nat) :=
  {b | ∃ d r, r < sp.recs d ∧ (∀ j, j ≠ i → ¬c.ownedBy d j r) ∧ b ∈ recordBits c.glb d r} ∪
  {b | ∃ d, b ∈ flowBits d i} ∪
  {b | .txSwitch ∈ sp.kinds ∧ b ∈ mapBits .egress i} ∪
  {b | ∃ sc p, (c.secy i).rxSc sc = some p ∧ (c.rxSc p).hwScIdx < sp.hws ∧
    (b ∈ mapBits .ingress (c.rxSc p).hwScIdx ∨ b ∈ camBits (c.rxSc p).hwScIdx)} ∪
  sharedBits

section Allowed

variable {sp : Scope} {i r : Nat} {c : MacsecConf} {d : Direction}

theorem sharedBits_allowed : sharedBits ⊆ allowed sp i c := fun _ hb => Or.inr hb

theorem modeBits_allowed : modeBits ⊆ allowed sp i c := modeBits_subset.trans sharedBits_allowed

theorem selectBits_allowed : selectBits ⊆ allowed sp i c := selectBits_subset.trans modeBits_allowed

theorem samEntryBits_allowed : wordBits (samEntryEnableCtrlReg d) ⊆ allowed sp i c :=
  (samEntryBits_subset d).trans sharedBits_allowed

theorem channel_allowed {sc p : Nat} (hp : (c.secy i).rxSc sc = some p) (hlt : (c.rxSc p).hwScIdx < sp.hws) :
    mapBits .ingress (c.rxSc p).hwScIdx ∪ camBits (c.rxSc p).hwScIdx ⊆ allowed sp i c :=
  fun _ hb => Or.inl (Or.inr ⟨sc, p, hp, hlt, hb⟩)

theorem map_allowed (hk : .txSwitch ∈ sp.kinds) : mapBits .egress i ⊆ allowed sp i c :=
  fun _ hb => Or.inl (Or.inl (Or.inr ⟨hk, hb⟩))

theorem flow_allowed : flowBits d i ⊆ allowed sp i c := fun _ hb => Or.inl (Or.inl (Or.inl (Or.inr ⟨d, hb⟩)))

theorem record_allowed (hr : r < sp.recs d) (ho : ∀ j, j ≠ i → ¬c.ownedBy d j r) : recordBits c.glb d r ⊆ allowed sp i c :=
  fun _ hb => Or.inl (Or.inl (Or.inl (Or.inl ⟨d, r, hr, ho, hb⟩)))

end Allowed

/-! ## Small steps -/

/-- One small step of a call for SecY `i`. -/
inductive Micro (bus : PortBus H) (sp : Scope) (i : Nat) : Dev MacsecConf H → Dev MacsecConf H → Prop
  | hw {c : MacsecConf} {h h' : H} : HwSteps bus (allowed sp i c) h h' → Micro bus sp i ⟨c, h⟩ ⟨c, h'⟩
  | sw {c c' : MacsecConf} {h : H} {k : Kind} : Commit i c k c' → k ∈ sp.kinds → Micro bus sp i ⟨c, h⟩ ⟨c', h⟩
  | zero {s : Dev MacsecConf H} {d : Direction} (record : Nat) : d ∈ sp.mapZero →
      Micro bus sp i s (final (saInuse bus record 0 0 d false) s)

/-- Any number of small steps. -/
abbrev trace (bus : PortBus H) (sp : Scope) (i : Nat) : Frame (Dev MacsecConf H) := Frame.closure (Micro bus sp i)

theorem Micro.inv {bus : PortBus H} {sp : Scope} {i : Nat} {s s' : Dev MacsecConf H} (hm : Micro bus sp i s s')
    (h : Inv s.conf) : Inv s'.conf := by
  cases hm with
  | hw _ => exact h
  | sw hc _ => exact hc.inv h
  | @zero _ d record _ =>
    rw [final_saInuse_conf]
    exact h

/-- However a call ends, the tables are linked. -/
theorem trace_inv {bus : PortBus H} {sp : Scope} {i : Nat} {s s' : Dev MacsecConf H}
    (ht : Relation.ReflTransGen (Micro bus sp i) s s') (h : Inv s.conf) : Inv s'.conf := by
  induction ht with
  | refl => exact h
  | tail _ hm ih => exact hm.inv ih

section Steps

variable {bus : PortBus H} {sp : Scope} {i : Nat} {c : MacsecConf} {α : Type}

/-- A call that only accesses registers. -/
theorem steps_hw {x : Call H α} {W : Set (IoReg × Nat)}
    (hx : Steps (hwFrame bus W) (fun s => s.conf = c) x fun _ _ => True) (hW : W ⊆ allowed sp i c) :
    Steps (trace bus sp i) (fun s => s.conf = c) x fun _ s => s.conf = c := by
  rintro ⟨c', h⟩ rfl
  obtain ⟨⟨hc, hh⟩, -⟩ := hx ⟨c', h⟩ rfl
  refine ⟨.single ?_, ?_⟩
  · generalize final x ⟨c', h⟩ = s' at hc hh
    obtain ⟨c'', h'⟩ := s'
    cases hc
    exact .hw (hh.mono hW)
  · intro a s' ha
    simpa [final, ha] using hc

theorem steps_within {x : Call H α} {W : Set (IoReg × Nat)} (hx : Within (hwFrame bus W) x)
    (hW : W ⊆ allowed sp i c) : Steps (trace bus sp i) (fun s => s.conf = c) x fun _ s => s.conf = c :=
  steps_hw ((within_iff.mp hx).pre fun _ _ => trivial) hW

theorem steps_saInuseZero {d : Direction} {record : Nat} (hd : d ∈ sp.mapZero) :
    Steps (trace bus sp i) (fun s => s.conf = c) (saInuse bus record 0 0 d false) fun _ s => s.conf = c := by
  intro s hs
  refine ⟨.single (.zero record hd), fun a s' ha => ?_⟩
  have hc : (final (saInuse bus record 0 0 d false) s).conf = s.conf := final_saInuse_conf
  simp only [final, ha] at hc
  exact hc.trans hs

theorem steps_commit {f : MacsecConf → MacsecConf} {k : Kind} (hc : Commit i c k (f c)) (hk : k ∈ sp.kinds) :
    Steps (trace bus sp i) (fun s => s.conf = c) (modifyConf f : Call H PUnit) fun _ s => s.conf = f c := by
  refine Steps.modify ?_
  rintro ⟨c', h⟩ rfl
  exact ⟨.single (.sw hc hk), rfl⟩

end Steps

/-! ## Which bits belong to a record -/

/-- The tables stay within the bounds of a scope. -/
structure Fits (sp : Scope) (c : MacsecConf) : Prop where
  recs : ∀ {d r}, c.saInUse d r = true → r < sp.recs d
  hws : ∀ {p}, (c.rxSc p).inUse = true → (c.rxSc p).hwScIdx < sp.hws

section Record

variable {W : Set (IoReg × Nat)} {g : Glb} {d : Direction} {r : Nat}

theorem enable_of_record (hW : recordBits g d r ⊆ W) : enableBits d r ⊆ W :=
  fun _ hb => hW (Or.inl (Or.inl (Or.inl hb)))

theorem tcam_of_record (hW : recordBits g d r ⊆ W) : tcamBits g d r ⊆ W :=
  fun _ hb => hW (Or.inl (Or.inl (Or.inr hb)))

theorem policy_of_record (hW : recordBits g d r ⊆ W) : policyBits d r ⊆ W := fun _ hb => hW (Or.inl (Or.inr hb))

theorem xform_of_record (hW : recordBits g d r ⊆ W) : xformBits d r ⊆ W := fun _ hb => hW (Or.inr hb)

theorem tcamWord_of_record (hW : recordBits g d r ⊆ W) (w : TcamWord) : wordBits (tcamReg d w r) ⊆ W :=
  fun _ hb => tcam_of_record hW ⟨w, Or.inl hb⟩

end Record

section Bits

variable {sp : Scope} {c : MacsecConf} {d : Direction} {i r : Nat}

theorem Inv.owned_allowed (h : Inv c) (hf : Fits sp c) (hr : c.ownedBy d i r) : recordBits c.glb d r ⊆ allowed sp i c :=
  record_allowed (hf.recs (h.ownedBy_inUse hr)) fun _ hj ho => hj (h.ownedBy_unique ho hr)

theorem Inv.free_allowed (h : Inv c) (hlt : r < sp.recs d) (hr : c.saInUse d r = false) :
    recordBits c.glb d r ⊆ allowed sp i c :=
  record_allowed hlt fun _ _ ho => by simp [h.ownedBy_inUse ho] at hr

end Bits

/-! ## Transmit SAs -/

section Tx

variable {bus : PortBus H} {sp : Scope} {i an : Nat} {c : MacsecConf}

theorem txSaAt_eq {r : Nat} (hr : (c.secy i).txSc.sa an = some r) : c.txSaAt i an = c.txSa r := by
  simp [txSaAt, hr]

theorem Inv.txSa_record (h : Inv c) {r : Nat} (hr : (c.secy i).txSc.sa an = some r) : (c.txSaAt i an).record = r := by
  rw [txSaAt_eq hr, h.tx_record hr]

theorem txSa_owned {r : Nat} (hr : (c.secy i).txSc.sa an = some r) : c.ownedBy .egress i r := Or.inl ⟨an, hr⟩

theorem within_txSaCountersGet {W : Set (IoReg × Nat)} : Within (hwFrame bus W) (txSaCountersGet bus i an) := by
  refine within_getConf.bind fun c => Within.when fun _ => Within.failIf.bind fun _ => Within.when fun _ => ?_
  exact Within.forUpTo _ fun k _ => within_csrRd64.bind fun _ => Within.pure _

theorem steps_txSaSet (h : Inv c) (hnew : ∀ r, c.recordEmptyGet .egress = some r → r < sp.recs .egress)
    (hk : .other ∈ sp.kinds) (nextPn : PktNum) (b : Bool) (sak : Sak) (ssci : Option Ssci) :
    Steps (trace bus sp i) (fun s => s.conf = c) (txSaSet bus i an nextPn b sak ssci) fun _ _ => True := by
  refine steps_getConf_bind ?_
  refine Steps.failIf_bind fun han => Steps.failIf_bind fun hu => Steps.failIf_bind fun _ => ?_
  refine Steps.failIf_bind fun _ => Steps.failIf_bind fun hsa => ?_
  have hsa : (c.secy i).txSc.sa an = none := by simpa using hsa
  cases hrec : c.recordEmptyGet .egress with
  | none => exact Steps.throw
  | some r =>
    have hc : Commit i c .other (linkTxSa i c an r nextPn b sak ssci) :=
      .linkTxSa an r nextPn b sak ssci (by omega) (by simpa using hu) hsa hrec
    refine (steps_commit hc hk).bind fun _ => ?_
    have h₁ := hc.inv h
    generalize hc₁ : linkTxSa i c an r nextPn b sak ssci = c₁ at h₁ ⊢
    have hr : c₁.ownedBy .egress i r := Or.inl ⟨an, by rw [← hc₁]; simp [linkTxSa_sa]⟩
    have hbits : recordBits c₁.glb .egress r ⊆ allowed sp i c₁ :=
      record_allowed (hnew r hrec) fun _ hj ho => hj (h₁.ownedBy_unique ho hr)
    refine (Steps.orFail (steps_within (within_saXformSet (xform_of_record hbits)) subset_rfl)).bind fun _ => ?_
    refine (Steps.orFail (steps_within (within_saFlowSet modeBits_allowed flow_allowed) subset_rfl)).bind fun _ => ?_
    refine (Steps.orFail (steps_hw (steps_saTcamKeyMaskSet selectBits_allowed (tcam_of_record hbits)
      (policy_of_record hbits)) subset_rfl)).post fun _ _ _ => trivial

theorem steps_txSaActivate (h : Inv c) (hf : Fits sp c) (hk : .txSwitch ∈ sp.kinds) :
    Steps (trace bus sp i) (fun s => s.conf = c) (txSaActivate bus i an) fun _ _ => True := by
  refine steps_getConf_bind ?_
  refine Steps.failIf_bind fun han => Steps.failIf_bind fun hsa => Steps.failIf_bind fun _ => ?_
  obtain ⟨r, hr⟩ := Option.ne_none_iff_exists'.mp hsa
  have hbits := h.owned_allowed hf (txSa_owned hr)
  rw [h.txSa_record hr]
  have hold : (((c.txSaAt i (c.secy i).txSc.encodingSa).enabled && decide ((c.secy i).txSc.encodingSa < saPerScMax)) =
      (c.txSaAt i (c.secy i).txSc.encodingSa).enabled) := by
    simp [h.tx_encoding i]
  simp only [hold]
  refine (Steps.orFail (steps_within (within_saInuse (map_allowed hk)) subset_rfl)).bind fun _ => ?_
  refine (Steps.orFail (steps_within within_saSamInFlight subset_rfl)).bind fun _ => ?_
  refine (Steps.orFail (steps_within (within_saEnable (enable_of_record hbits)) subset_rfl)).bind fun _ => ?_
  refine (Steps.when (T := fun s : Dev MacsecConf H => s.conf = c) (fun hen => ?_) fun s _ hs => hs).bind fun _ => ?_
  · cases hro : (c.secy i).txSc.sa (c.secy i).txSc.encodingSa with
    | none => simp [txSaAt, hro] at hen
    | some r' =>
      rw [h.txSa_record hro]
      exact Steps.orFail (steps_within (within_saEnable (enable_of_record (h.owned_allowed hf (txSa_owned hro))))
        subset_rfl)
  · exact (steps_commit (.activateTxSa an _ (by omega) hsa rfl) hk).post fun _ _ _ => trivial

theorem steps_txSaDisable (h : Inv c) (hf : Fits sp c) (hk : .txSwitch ∈ sp.kinds) :
    Steps (trace bus sp i) (fun s => s.conf = c) (txSaDisable bus i an) fun _ s => s.conf = disableTxSa i c an := by
  refine steps_getConf_bind ?_
  refine Steps.failIf_bind fun han => Steps.failIf_bind fun hsa => ?_
  obtain ⟨r, hr⟩ := Option.ne_none_iff_exists'.mp hsa
  have hbits := h.owned_allowed hf (txSa_owned hr)
  rw [h.txSa_record hr]
  refine (Steps.orFail (steps_within (within_saEnable (enable_of_record hbits)) subset_rfl)).bind fun _ => ?_
  refine (Steps.when (T := fun s : Dev MacsecConf H => s.conf = c) (fun _ => ?_) fun s _ hs => hs).bind fun _ => ?_
  · refine (Steps.orFail (steps_within (within_saInuse (map_allowed hk)) subset_rfl)).bind fun _ => ?_
    exact Steps.orFail (steps_within (within_samEntryCtrl samEntryBits_allowed) subset_rfl)
  · exact steps_commit (.disableTxSa an (by omega) hsa) hk

/-- Deleting an SA: at its end, and at most at the end of the table update, the association number is free. -/
theorem steps_txSaDel (h : Inv c) (hf : Fits sp c)
    (hk : ∀ r, (c.secy i).txSc.sa an = some r → .txFree (c.txSa r).enabled ∈ sp.kinds) :
    Steps (trace bus sp i) (fun s => s.conf = c) (txSaDel bus i an)
      fun _ s => s.conf = freeTxSa i c an (c.txSaAt i an).record := by
  refine steps_getConf_bind ?_
  refine Steps.failIf_bind fun _ => Steps.failIf_bind fun hsa => ?_
  obtain ⟨r, hr⟩ := Option.ne_none_iff_exists'.mp hsa
  have hbits := h.owned_allowed hf (txSa_owned hr)
  rw [h.txSa_record hr]
  refine (Steps.orFail (steps_within (within_saEnable (enable_of_record hbits)) subset_rfl)).bind fun _ => ?_
  refine (steps_within (Within.attempt within_saSamInFlight |>.bind fun _ => Within.pure _) subset_rfl).bind fun _ => ?_
  refine (steps_within (Within.attempt within_txSaCountersGet |>.bind fun _ => Within.pure _) subset_rfl).bind fun _ => ?_
  have hc : Commit i c (.txFree (c.txSa r).enabled) (freeTxSa i c an r) := .freeTxSa an r hr
  refine (steps_commit hc (hk r hr)).bind fun _ => ?_
  have h₁ := hc.inv h
  have hfree : (freeTxSa i c an r).saInUse .egress r = false := by simp [saInUse, freeTxSa_txSa]
  have hbits₁ : recordBits (freeTxSa i c an r).glb .egress r ⊆ allowed sp i (freeTxSa i c an r) :=
    h₁.free_allowed (hf.recs (h.ownedBy_inUse (txSa_owned hr))) hfree
  refine (Steps.orFail (steps_within (within_saTcamKeyMaskReset samEntryBits_allowed (tcamWord_of_record hbits₁))
    subset_rfl)).bind fun _ => ?_
  exact Steps.orFail (steps_within (within_saXformReset (xform_of_record hbits₁)) subset_rfl)

end Tx

end Lan80xx.Macsec
