import Lan80xx.Macsec.ActiveSa
import Lan80xx.Macsec.Settings

/-!
# MACsec: calls on a willing device

`Willing` is a device that refuses no access and whose pipelines drain. On it a call fails only at one of its own checks:
`Serves` calls pass theirs, `Refuses` calls do not.
-/

namespace Lan80xx.Macsec

open Fallible RegBus MacsecConf

variable {H : Type}

/-! ## Willing devices -/

/-- From `h` on no access fails, and the pipelines drain. -/
structure Willing (bus : PortBus H) (h : H) : Prop where
  sound : bus.Sound h
  drains : ∀ d h', Accessed bus h h' → Drains bus d h'

/-- The tables are `c`, and the device has been accessed since `h₀`. -/
structure At (bus : PortBus H) (h₀ : H) (c : MacsecConf) (s : Dev MacsecConf H) : Prop where
  conf : s.conf = c
  accessed : Accessed bus h₀ s.hw

/-- The call returns and leaves the tables alone. -/
def Serves (bus : PortBus H) (h₀ : H) (c : MacsecConf) (x : Call H Unit) : Prop :=
  Ends (At bus h₀ c) x (fun _ => At bus h₀ c) fun _ => False

section Serves

variable {bus} {h₀ : H} {c : MacsecConf}

theorem at_self (s : Dev MacsecConf H) : At bus s.hw s.conf s := ⟨rfl, .refl⟩

/-- A call of which the device accepts every access, and which touches registers only. -/
theorem ends_at {α : Type} {x : Call H α} {W : Set (IoReg × Nat)} (hx : Ends (fun s => Accessed bus h₀ s.hw) x
    (fun _ s => Accessed bus h₀ s.hw) fun _ => False) (hw : Within (hwFrame bus W) x) :
    Ends (At bus h₀ c) x (fun _ => At bus h₀ c) fun _ => False := by
  have hf : Ends (fun s => Accessed bus h₀ s.hw ∧ s.conf = c) x (fun _ s => Accessed bus h₀ s.hw ∧ s.conf = c)
      fun s => False ∧ s.conf = c := hx.framed hw fun s s' hc h => h.1.trans hc
  exact (hf.pre fun s hs => ⟨hs.accessed, hs.conf⟩).weaken (fun _ s hs => ⟨hs.2, hs.1⟩) fun s hs => hs.1

theorem ends_modifyConf_at {g : MacsecConf → MacsecConf} {E : Dev MacsecConf H → Prop} :
    Ends (At bus h₀ c) (modifyConf g : Call H PUnit) (fun _ => At bus h₀ (g c)) E :=
  Ends.modify fun _ hs => ⟨congrArg g hs.conf, hs.accessed⟩

theorem serves_csrWr (hs : bus.Sound h₀) (r : IoReg) (v : BitVec 32) : Serves bus h₀ c (csrWr bus r v) :=
  ends_at (W := Set.univ) (ends_write _ hs r v) (within_csrWr (Set.subset_univ _))

theorem serves_csrWrm (hs : bus.Sound h₀) (r : IoReg) (v mask : BitVec 32) : Serves bus h₀ c (csrWrm bus r v mask) :=
  ends_at (W := Set.univ) (ends_writeMasked _ hs r v mask) (within_csrWrm (Set.subset_univ _))

theorem serves_csrRd (hs : bus.Sound h₀) (r : IoReg) :
    Ends (At bus h₀ c) (csrRd bus r) (fun _ => At bus h₀ c) fun _ => False :=
  ends_at (W := Set.univ) (ends_read _ hs r) within_csrRd

theorem Serves.bind {x : Call H Unit} {α : Type} {f : Unit → Call H α} {Q : α → Dev MacsecConf H → Prop}
    {E : Dev MacsecConf H → Prop} (hx : Serves bus h₀ c x) (hf : Ends (At bus h₀ c) (f ()) Q E) :
    Ends (At bus h₀ c) (x >>= f) Q E :=
  (hx.weaken (fun _ _ => id) fun _ => False.elim).bind fun _ => hf

theorem Serves.orFail {x : Call H Unit} {e : Rc} (hx : Serves bus h₀ c x) : Serves bus h₀ c (orFail x e) := Ends.orFail hx

theorem Serves.when {x : Call H Unit} {b : Prop} [Decidable b] (hx : b → Serves bus h₀ c x) : Serves bus h₀ c (when b x) :=
  Ends.when hx fun _ _ => id

theorem Serves.forUpTo {body : Nat → Call H Unit} (n : Nat) (h : ∀ k < n, Serves bus h₀ c (body k)) :
    Serves bus h₀ c (forUpTo n body) :=
  Ends.forUpTo (I := fun _ => At bus h₀ c) n h

theorem serves_pure : Serves bus h₀ c (pure ()) := Ends.pure fun _ => id

/-- The outcome of the call does not matter. -/
theorem ends_attempt_at {α : Type} {x : Call H α} {W : Set (IoReg × Nat)} (hw : Within (hwFrame bus W) x) :
    Ends (At bus h₀ c) (attempt x) (fun _ => At bus h₀ c) fun _ => False := by
  have hat : Ends (At bus h₀ c) x (fun _ => At bus h₀ c) (At bus h₀ c) :=
    hw.ends fun s s' hs h => ⟨h.1.trans hs.conf, hs.accessed.trans h.2.accessed⟩
  refine hat.attempt.weaken (fun o s ho => ?_) fun _ => id
  rcases ho with ⟨a, -, ha⟩ | ⟨-, ha⟩
  · exact ha
  · exact ha

theorem serves_ignore {α : Type} {x : Call H α} {W : Set (IoReg × Nat)} (hw : Within (hwFrame bus W) x) :
    Serves bus h₀ c (discard (attempt x)) :=
  (ends_attempt_at hw).bind fun _ => Ends.pure fun _ => id

/-! ## The entries of a record -/

variable {d : Direction} {record sc an secyId : Nat}

theorem serves_saEnable (hs : bus.Sound h₀) (b : Bool) : Serves bus h₀ c (saEnable bus record d b) := by
  unfold saEnable
  split_ifs
  · exact serves_csrWrm hs _ _ _
  · exact serves_pure
  · exact serves_csrWrm hs _ _ _

theorem serves_saInuse (hs : bus.Sound h₀) (b : Bool) (han : an < saPerScMax) :
    Serves bus h₀ c (saInuse bus record sc an d b) := by
  cases d with
  | egress => exact serves_csrWr hs _ _
  | ingress =>
    unfold saPerScMax at han
    match an, han with
    | 0, _ | 1, _ | 2, _ | 3, _ => exact serves_csrWrm hs _ _ _

theorem serves_samEntryCtrl (hs : bus.Sound h₀) (b : Bool) : Serves bus h₀ c (samEntryCtrl bus record d b) :=
  serves_csrWr hs _ _

theorem serves_saSamInFlight (hw : Willing bus h₀) : Serves bus h₀ c (saSamInFlight bus d) := by
  refine ends_at (W := ∅) (fun s hacc => ?_) within_saSamInFlight
  obtain ⟨n, hn, hz⟩ := hw.drains d _ hacc
  obtain ⟨s', hok, hacc'⟩ := saSamInFlightLoop_ok hw.sound hacc hn hz
  exact Or.inl ⟨(), s', hok, hacc'⟩

theorem serves_updateGlbValidate (hs : bus.Sound h₀) : Serves bus h₀ c (updateGlbValidate bus) :=
  ends_getConf_bind (fun _ h => h.conf) (serves_csrWrm hs _ _ _)

theorem serves_saXformSet (hs : bus.Sound h₀) : Serves bus h₀ c (saXformSet bus d record secyId an sc) :=
  ends_getConf_bind (fun _ h => h.conf) (Serves.forUpTo _ fun _ _ => serves_csrWr hs _ _)

theorem serves_saXformReset (hs : bus.Sound h₀) : Serves bus h₀ c (saXformReset bus d record) :=
  Serves.forUpTo _ fun _ _ => serves_csrWr hs _ _

theorem serves_saTcamKeyMaskReset (hs : bus.Sound h₀) : Serves bus h₀ c (saTcamKeyMaskReset bus d record) :=
  (serves_samEntryCtrl hs _).bind (Serves.forUpTo _ fun _ _ => serves_csrWr hs _ _)

theorem serves_saTcamPolicyUnctrlDrop (hs : bus.Sound h₀) (a : MatchAction) :
    Serves bus h₀ c (saTcamPolicyUnctrlDrop bus record d a) :=
  serves_csrWrm hs _ _ _

theorem serves_rxScCamSet (hs : bus.Sound h₀) : Serves bus h₀ c (rxScCamSet bus secyId sc) := by
  refine ends_getConf_bind (fun _ h => h.conf) ?_
  refine (serves_csrWr hs _ _).bind ((serves_csrWr hs _ _).bind ((serves_csrWr hs _ _).bind ?_))
  exact serves_csrWr hs _ _

/-! ## Flow control -/

/-- The checks of `sa_flow_set`. -/
def ValidateFramesValid (n : Nat) : Prop := n = validateFramesDisabled ∨ n = validateFramesCheck ∨ n = validateFramesStrict

instance (n : Nat) : Decidable (ValidateFramesValid n) := by
  unfold ValidateFramesValid
  infer_instance

theorem serves_saFlowSet_egress (hs : bus.Sound h₀) (a : MatchAction) :
    Serves bus h₀ c (saFlowSet bus .egress secyId an sc a) :=
  ends_getConf_bind (fun _ h => h.conf) ((serves_csrWrm hs _ _ _).bind (serves_csrWrm hs _ _ _))

theorem serves_saFlowSet_ingress (hs : bus.Sound h₀) (a : MatchAction)
    (hv : ValidateFramesValid (c.rxScAt secyId sc).conf.validateFrames) :
    Serves bus h₀ c (saFlowSet bus .ingress secyId an sc a) := by
  refine ends_getConf_bind (fun _ h => h.conf) (Ends.failIf_bind (fun _ _ hn => hn hv) fun _ => ?_)
  exact (serves_updateGlbValidate hs).bind ((serves_csrWrm hs _ _ _).bind (serves_csrWrm hs _ _ _))

/-- The call fails at a check and leaves the tables alone. -/
def Refuses (bus : PortBus H) (h₀ : H) (c : MacsecConf) (x : Call H Unit) : Prop :=
  Ends (At bus h₀ c) x (fun _ _ => False) (At bus h₀ c)

theorem Serves.refuses_bind {x : Call H Unit} {f : Unit → Call H Unit} (hx : Serves bus h₀ c x)
    (hf : Refuses bus h₀ c (f ())) : Refuses bus h₀ c (x >>= f) := hx.bind hf

theorem refuses_check {b : Prop} [Decidable b] {e : Rc} (hb : b) : Refuses bus h₀ c (failIf b e) :=
  (Ends.failIf fun _ hs _ => hs).weaken (fun _ _ hs => hs.2 hb) fun _ => id

theorem serves_check {b : Prop} [Decidable b] {e : Rc} (hb : ¬b) : Serves bus h₀ c (failIf b e) :=
  (Ends.failIf fun _ _ h => hb h).weaken (fun _ _ hs => hs.1) fun _ => id

theorem refuses_failIf {b : Prop} [Decidable b] {e : Rc} {f : Unit → Call H Unit} (hb : b) :
    Refuses bus h₀ c (failIf b e >>= f) :=
  Ends.failIf_bind (fun _ hs _ => hs) fun hn => absurd hb hn

theorem Refuses.orFail {x : Call H Unit} {e : Rc} (hx : Refuses bus h₀ c x) : Refuses bus h₀ c (orFail x e) := Ends.orFail hx

theorem Refuses.bind {x : Call H Unit} {f : Unit → Call H Unit} (hx : Refuses bus h₀ c x) :
    Refuses bus h₀ c (x >>= f) :=
  Ends.bind hx fun _ _ h => h.elim

theorem refuses_saFlowSet_ingress (a : MatchAction) (hv : ¬ValidateFramesValid (c.rxScAt secyId sc).conf.validateFrames) :
    Refuses bus h₀ c (saFlowSet bus .ingress secyId an sc a) :=
  ends_getConf_bind (fun _ h => h.conf) (refuses_failIf hv)

/-! ## The match rule -/

/-- The checks of `sa_tcam_key_mask_set`, which depend on the mode of the port. -/
def MatchAccepted (g : Glb) (d : Direction) (pattern : MatchPattern) : Prop :=
  if g.cleartags then ¬(g.cleartagsConf.packetType = .mpls ∧ mplsSupport d < g.cleartagsConf.numMplsLabel)
  else pattern.match &&& matchSmac = 0 ∧ pattern.priority ≤ 15

theorem serves_cleartagsConfSet (hs : bus.Sound h₀) {pattern : MatchPattern}
    (hm : ¬(c.glb.cleartagsConf.packetType = .mpls ∧ mplsSupport d < c.glb.cleartagsConf.numMplsLabel)) :
    Serves bus h₀ c (cleartagsConfSet bus d record pattern) := by
  refine ends_getConf_bind (fun _ h => h.conf) (Ends.failIf_bind (fun _ _ hn => hm hn) fun _ => ?_)
  refine (serves_csrWr hs _ _).bind ((serves_csrWr hs _ _).bind ((serves_csrWr hs _ _).bind ?_))
  refine (Serves.when fun _ => ?_).bind ((Serves.when fun _ => ?_).bind ?_)
  · refine (serves_csrWr hs _ _).bind ((serves_csrWr hs _ _).bind ?_)
    exact (Serves.when fun _ => serves_csrWrm hs _ _ _).bind (serves_csrWr hs _ _)
  · refine (serves_csrWr hs _ _).bind ((serves_csrWr hs _ _).bind ?_)
    refine (Serves.when fun _ => serves_csrWr hs _ _).bind ((Serves.when fun _ => serves_csrWr hs _ _).bind ?_)
    exact (serves_csrWrm hs _ _ _).bind (serves_csrWrm hs _ _ _)
  · have hivlan : Serves bus h₀ c (do
        csrWrm bus (tcamPage0Reg d .mask4 record) (bitmask 16 16) (bitmask 16 16)
        csrWrm bus (tcamPage0Reg d .mask5 record) (bitmask 0 8) (bitmask 0 8)) :=
      (serves_csrWrm hs _ _ _).bind (serves_csrWrm hs _ _ _)
    refine (Serves.when fun _ => serves_csrWrm hs _ _ _).bind ((Serves.when fun _ => hivlan).bind ?_)
    refine (Serves.when fun _ => serves_csrWrm hs _ _ _).bind ?_
    exact (Serves.when fun _ => serves_csrWrm hs _ _ _).bind (Serves.when fun _ => serves_csrWrm hs _ _ _)

/-- The call returns exactly when the checks pass; otherwise part of the rule may have been written. -/
theorem ends_saTcamKeyMaskSet (hs : bus.Sound h₀) (pattern : MatchPattern) :
    Ends (At bus h₀ c) (saTcamKeyMaskSet bus d record secyId sc pattern)
      (fun _ s => At bus h₀ c s ∧ MatchAccepted c.glb d pattern)
      fun s => At bus h₀ c s ∧ ¬MatchAccepted c.glb d pattern := by
  refine ends_getConf_bind (fun _ h => h.conf) (Ends.ite (fun hct => ?_) fun hct => ?_)
  · have hiff : MatchAccepted c.glb d pattern ↔
        ¬(c.glb.cleartagsConf.packetType = .mpls ∧ mplsSupport d < c.glb.cleartagsConf.numMplsLabel) := by
      rw [MatchAccepted, if_pos hct]
    by_cases hm : c.glb.cleartagsConf.packetType = .mpls ∧ mplsSupport d < c.glb.cleartagsConf.numMplsLabel
    · have href : Refuses bus h₀ c (cleartagsConfSet bus d record pattern) :=
        ends_getConf_bind (fun _ h => h.conf) (refuses_failIf hm)
      exact href.weaken (fun _ _ => False.elim) fun s h => ⟨h, fun ha => hiff.mp ha hm⟩
    · exact (serves_cleartagsConfSet hs hm).weaken (fun _ s h => ⟨h, hiff.mpr hm⟩) fun _ => False.elim
  · have hiff : MatchAccepted c.glb d pattern ↔ pattern.match &&& matchSmac = 0 ∧ pattern.priority ≤ 15 := by
      rw [MatchAccepted, if_neg hct]
    have hdmac : Serves bus h₀ c (do
        csrWr bus (tcamReg d .mask1 record) 0xFFFFFFFF
        csrWr bus (tcamReg d .mask2 record) 0xFFFF) := (serves_csrWr hs _ _).bind (serves_csrWr hs _ _)
    have hdisable : Serves bus h₀ c (do
        csrWr bus (tcamReg d .mask1 record) 0
        csrWr bus (tcamReg d .mask2 record) 0
        csrWr bus (tcamReg d .mask4 record) 0
        csrWr bus (tcamReg d .mask5 record) 0) :=
      (serves_csrWr hs _ _).bind ((serves_csrWr hs _ _).bind ((serves_csrWr hs _ _).bind (serves_csrWr hs _ _)))
    refine (serves_csrWr hs _ _).bind ((serves_csrWr hs _ _).bind ((serves_csrWr hs _ _).bind ?_))
    refine (serves_csrWr hs _ _).bind ((serves_csrWr hs _ _).bind ?_)
    refine Ends.failIf_bind (fun _ h hn => ⟨h, fun ha => hn (hiff.mp ha).1⟩) fun hsmac => ?_
    refine (Serves.when fun _ => hdmac).bind ((Serves.when fun _ => serves_csrWrm hs _ _ _).bind ?_)
    refine (Serves.when fun _ => serves_csrWrm hs _ _ _).bind ((Serves.when fun _ => serves_csrWr hs _ _).bind ?_)
    refine (Serves.when fun _ => hdisable).bind ?_
    refine Ends.failIf_bind (fun _ h hn => ⟨h, fun ha => absurd (hiff.mp ha).2 (Nat.not_le.mpr hn)⟩) fun hprio => ?_
    have hacc : MatchAccepted c.glb d pattern := hiff.mpr ⟨not_not.mp hsmac, Nat.not_lt.mp hprio⟩
    exact (serves_csrWr hs _ _).weaken (fun _ s h => ⟨h, hacc⟩) fun _ => False.elim

theorem serves_saTcamKeyMaskSet (hs : bus.Sound h₀) {pattern : MatchPattern} (hm : MatchAccepted c.glb d pattern) :
    Serves bus h₀ c (saTcamKeyMaskSet bus d record secyId sc pattern) :=
  (ends_saTcamKeyMaskSet hs pattern).weaken (fun _ _ h => h.1) fun _ h => h.2 hm

theorem refuses_saTcamKeyMaskSet (hs : bus.Sound h₀) {pattern : MatchPattern} (hm : ¬MatchAccepted c.glb d pattern) :
    Refuses bus h₀ c (saTcamKeyMaskSet bus d record secyId sc pattern) :=
  (ends_saTcamKeyMaskSet hs pattern).weaken (fun _ _ h => hm h.2) fun _ h => h.1

end Serves

end Lan80xx.Macsec
