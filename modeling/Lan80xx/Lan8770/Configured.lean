import Lan80xx.Lan8770.InitRules

/-!
# LAN8770: the configuration in the registers

`ConfCoherent` says that power-down bit, role and TC10 fields encode what the get functions report.

- `returns_phyInitConf`, `returns_phyConfSet`, `returns_lan8770Reset`: the tracked words after the calls;
- `conf_coherent`: it holds after every call of a run in which the read-data word has the fields that an initialisation or
  a reset does not restore, and the port is enabled.
-/

namespace Lan80xx.Lan8770

open Fallible RegBus Tc10

/-! ## The calls -/

section Calls

variable {C H : Type} {rf : SmiRegs H} {m : Words} {n : Nat}

/-- The tracked words after an initialisation. -/
def initWords (master : Bool) (m : Words) (r : Reg) : BitVec 16 :=
  if r = .smi basicControl then basicControlDefault
  else if r = .smi masterSlaveCtrl then manCfgEn ||| if master then manCfgVal else 0
  else if r = layout.common then modified (m (.smi extRegRdData)) 0x8006 0x800E
  else if r = layout.port then modified (m (.smi extRegRdData)) 0x8100 0x8100
  else m r

/-- A soft reset: a read-modify-write that sets the reset bit. -/
theorem latched_reset (v : BitVec 16) : latched basicControl (modified v swReset swReset) = basicControlDefault := by
  have hbit : (modified v swReset swReset).getLsbD 15 = true := by
    rw [modified, BitVec.getLsbD_or]
    simp [swReset, bit]
  exact if_pos ⟨rfl, hbit⟩

theorem returns_softReset {c : C} :
    Returns (Tracks rf c m) (phyDirectReadModWriteRegister rf.toBus basicControl swReset swReset) fun _ =>
      Tracks rf c (Function.update m (.smi basicControl) basicControlDefault) := by
  refine (returns_rmw _ (by decide) (by decide) (by decide) swReset swReset).weaken (fun _ _ h => ?_) fun _ h => h
  rwa [latched_reset] at h

theorem returns_phyInitConf {c : C} (master : Bool) :
    Returns (Tracks rf c m) (phyInitConf rf.toBus n master) fun _ => Tracks rf c (initWords master m) := by
  unfold phyInitConf
  refine (returns_rd intrMask).bind fun intrVal => ?_
  refine (returns_bankRd (by decide) (by decide) (by decide)).bind fun intr2Val => ?_
  refine (returns_wr_apart (by decide) (by decide) _).bind fun _ => ?_
  refine returns_softReset.bind fun _ => ?_
  refine (returns_wr (by decide) _).bind fun _ => ?_
  refine returns_softReset.bind fun _ => ?_
  refine (returns_bankWr_apart (by decide) (by decide) (by decide) _).bind fun _ => ?_
  refine (returns_wr_apart (by decide) (by decide) _).bind fun _ => ?_
  refine (returns_rmw_apart _ (by decide) (by decide) _ _).bind fun _ => ?_
  refine (returns_rd masterSlaveStatus).bind fun value => ?_
  refine (Ends.when (fun _ => returns_script slaveScript (forall_mem_of_all (by decide))) fun _ _ h => h).bind fun _ => ?_
  refine (returns_script dspScript (forall_mem_of_all (by decide))).bind fun _ => ?_
  refine (returns_script txIirScript (forall_mem_of_all (by decide))).bind fun _ => ?_
  refine (returns_script sqiScript (forall_mem_of_all (by decide))).bind fun _ => ?_
  refine (returns_wr_apart (by decide) (by decide) _).bind fun _ => ?_
  refine (returns_wr_apart (by decide) (by decide) _).bind fun _ => ?_
  refine (returns_wr_apart (by decide) (by decide) _).bind fun _ => ?_
  refine (returns_await mdioCtrl2 _).bind fun _ => ?_
  refine (returns_bankWr_apart (by decide) (by decide) (by decide) _).bind fun _ => ?_
  refine (returns_rd intrSrc).bind fun _ => ?_
  refine (returns_bankRd (by decide) (by decide) (by decide)).bind fun _ => ?_
  -- the wake-up registers
  refine (returns_bankRmw (by decide) (by decide) _ _).bind fun _ => ?_
  refine (returns_bankWr_apart (by decide) (by decide) (by decide) _).bind fun _ => ?_
  refine (returns_rmw_apart mdioCtrl2 (by decide) (by decide) _ _).bind fun _ => ?_
  refine (returns_bankRmw_apart (by decide) (by decide) (by decide) _ _).bind fun _ => ?_
  refine (returns_bankRmw (by decide) (by decide) _ _).bind fun _ => ?_
  refine (returns_bankWr (by decide) (by decide) _).bind fun _ => ?_
  refine (returns_bankRmw_apart (by decide) (by decide) (by decide) _ _).bind fun _ => ?_
  refine (returns_bankRmw (by decide) (by decide) _ _).bind fun _ => ?_
  refine (returns_bankRmw_apart (by decide) (by decide) (by decide) _ _).bind fun _ => ?_
  -- the interrupts
  refine (returns_rd intrMask).bind fun value => ?_
  refine (Ends.when (fun _ => returns_wr_apart (by decide) (by decide) _) fun _ _ h => h).bind fun _ => ?_
  refine (returns_bankRd (by decide) (by decide) (by decide)).bind fun value => ?_
  refine (Ends.when (fun _ => returns_bankWr_apart (by decide) (by decide) (by decide) _) fun _ _ h => h).bind fun _ => ?_
  refine (returns_wr_apart (by decide) (by decide) _).weaken (fun _ _ h => h.same fun r hr => ?_) fun _ h => h
  simp only [tracked, List.mem_cons, List.not_mem_nil, or_false] at hr
  rcases hr with rfl | rfl | rfl | rfl | rfl | rfl <;> rfl

/-- The words after the write of the power-down bit. -/
def powerWords (adminEnable : Bool) (m : Words) : Words :=
  Function.update m (.smi basicControl)
    (latched basicControl (modified (m (.smi basicControl)) (if adminEnable then 0 else powerDown) powerDown))

theorem returns_setPowerDown {c : PhyData} (adminEnable : Bool) :
    Returns (Tracks rf c m) (setPowerDown rf.toBus n adminEnable) fun _ => Tracks rf c (powerWords adminEnable m) :=
  returns_rmw basicControl (by decide) (by decide) (by decide) _ _

/-- The call initialises the PHY: it is the first one, or changes the role. -/
def Initialises (c : PhyData) (config : Conf) : Prop := c.initDone = false ∨ c.conf.manNeg ≠ config.manNeg

instance (c : PhyData) (config : Conf) : Decidable (Initialises c config) := by unfold Initialises; infer_instance

/-- The call writes the power-down bit. -/
def SetsPower (c : PhyData) (config : Conf) : Prop := c.initDone = false ∨ c.conf.adminEnable ≠ config.adminEnable

instance (c : PhyData) (config : Conf) : Decidable (SetsPower c config) := by unfold SetsPower; infer_instance

/-- The tracked words after a configuration. -/
def confWords (c : PhyData) (config : Conf) (m : Words) : Words :=
  let m := if Initialises c config then initWords (config.manNeg = .ref) m else m
  if SetsPower c config then powerWords config.adminEnable m else m

theorem returns_phyConfSet {c : PhyData} (config : Conf) :
    Returns (Tracks rf c m) (phyConfSet rf.toBus n config) fun _ s => Tracks rf s.conf (confWords c config m) s ∧
      s.conf.initDone = true ∧ s.conf.conf.adminEnable = config.adminEnable ∧ s.conf.conf.manNeg = config.manNeg ∧
      s.conf.tc10 = c.tc10 := by
  unfold phyConfSet
  split
  · exact Ends.throw fun _ _ => trivial
  · next hvalid =>
    have hneg : (if config.manNeg = .ref then ManualNeg.ref else .client) = config.manNeg := by
      rcases config with ⟨_, _, _, _, _, _ | _ | _⟩ <;> simp_all
    let c' : PhyData := { c with
      conf.speed := .m100, conf.fdx := true, conf.macIfAnegEna := false, conf.flowControl := config.flowControl }
    refine (returns_modifyConf _).bind fun _ => ends_getConf_bind (c := c') (fun _ h => h.1) ?_
    by_cases hinit : c.initDone = false
    · have hfirst : c'.initDone = false := hinit
      simp only [Fallible.when, hfirst, if_true]
      refine Ends.bind (((returns_phyInitConf _).bind fun _ => (returns_modifyConf _).bind fun _ =>
        (returns_setPowerDown config.adminEnable).bind fun _ => returns_modifyConf _)) fun _ => ?_
      refine ends_getConf_bind (fun _ h => h.1) ?_
      simp only [ne_eq, not_true_eq_false, if_false, pure_bind]
      refine (returns_modifyConf _).weaken ?_ fun _ h => h
      rintro - s ⟨hc, hm⟩
      have hI : Initialises c config := Or.inl hinit
      have hP : SetsPower c config := Or.inl hinit
      rw [hc, confWords, if_pos hI, if_pos hP]
      exact ⟨⟨hc, hm⟩, rfl, rfl, hneg, rfl⟩
    · have hdone : c'.initDone = true := Bool.eq_true_of_not_eq_false hinit
      simp only [Fallible.when, hdone, Bool.true_eq_false, if_false, pure_bind]
      refine ends_getConf_bind (fun _ h => h.1) ?_
      have hI : Initialises c config ↔ c.conf.manNeg ≠ config.manNeg := by simp [Initialises, hinit]
      have hP : SetsPower c config ↔ c.conf.adminEnable ≠ config.adminEnable := by simp [SetsPower, hinit]
      refine Ends.bind (Q := fun _ => Tracks rf c'
        (if Initialises c config then initWords (config.manNeg = .ref) m else m)) ?_ fun _ => ?_
      · refine Ends.ite (fun h => ?_) fun h => ?_
        · rw [if_pos (hI.mpr h)]
          exact returns_phyInitConf _
        · rw [if_neg fun hi => h (hI.mp hi)]
          exact Ends.pure fun _ h => h
      refine Ends.bind (Q := fun _ => Tracks rf c' (confWords c config m)) ?_ fun _ => ?_
      · refine Ends.ite (fun h => ?_) fun h => ?_
        · rw [confWords, if_pos (hP.mpr h)]
          exact returns_setPowerDown _
        · rw [confWords, if_neg fun hi => h (hP.mp hi)]
          exact Ends.pure fun _ h => h
      refine (returns_modifyConf _).weaken ?_ fun _ h => h
      rintro - s ⟨hc, hm⟩
      rw [hc]
      exact ⟨⟨hc, hm⟩, hdone, rfl, hneg, rfl⟩

theorem returns_phyGetDeviceInfo {c : PhyData} :
    Returns (Tracks rf c m) (phyGetDeviceInfo rf.toBus) fun _ s => Tracks rf s.conf m s ∧ s.conf.initDone = c.initDone ∧
      s.conf.conf = c.conf ∧ s.conf.tc10 = c.tc10 := by
  unfold phyGetDeviceInfo
  refine (returns_rd phyId1).bind fun _ => (returns_modifyConf _).bind fun _ => ?_
  refine (returns_rd phyId2).bind fun _ => (returns_modifyConf _).bind fun _ => ?_
  refine (returns_rd masterSlaveStatus).bind fun _ => (returns_modifyConf _).weaken ?_ fun _ h => h
  rintro - s ⟨hc, hm⟩
  exact ⟨⟨rfl, hm⟩, by rw [hc], by rw [hc], by rw [hc]⟩

/-! ### TC10 settings -/

theorem returns_setBank {c : PhyData} (bank : BitVec 16) {offset : BitVec 8} (h0 : bank ≠ bankSmi)
    (h5 : bank ≤ bankInstrument) (word : BitVec 16 → Option (BitVec 16)) (req : Request) :
    Returns (Tracks rf c m) (setBank rf.toBus n bank offset word req) fun _ s => ∃ v',
      word (m (.smi extRegRdData)) = some v' ∧
        Tracks rf (c.storeTc10 req) (Function.update m (bankReg bank offset) v') s := by
  refine returns_of_sees fun _ hm => (ends_setBank rf h0 h5 word req (fun _ _ => trivial) fun _ _ _ => trivial).weaken ?_
    fun _ h => h
  rintro - t ⟨v', hv, ht⟩
  rw [hm _ (by decide)] at hv
  exact ⟨v', hv, .of_sees ht ((hm.update _ v').trans (sameTracked_setBankWords v'))⟩

theorem sameTracked_setWkpWords (v : BitVec 16 × BitVec 16) :
    SameTracked (Function.update (Function.update m (bankReg bankMisc miscWkpPrtCtl1) v.1)
      (bankReg bankMisc miscWkpComCtl0) v.2) (setWkpWords m v) := by
  intro r hr
  rw [setWkpWords, sameTracked_wrote v.2 r hr]
  by_cases hcommon : r = bankReg bankMisc miscWkpComCtl0
  · rw [hcommon, Function.update_self, Function.update_self]
  · rw [Function.update_of_ne hcommon, Function.update_of_ne hcommon, sameTracked_wrote v.1 r hr]
    by_cases hport : r = bankReg bankMisc miscWkpPrtCtl1
    · rw [hport, Function.update_self, Function.update_self]
    · rw [Function.update_of_ne hport, Function.update_of_ne hport, wkpReadWords,
        commanded_of_ne _ (tracked_ne hr).1 hcommon, commanded_of_ne m (tracked_ne hr).1 hport]

/-- The request is in the words `m'`; the `WAKE_OUT` mode is or'ed into its field. -/
def Sets (req : Request) (m m' : Words) : Prop := ∃ ps, layout.encode req = some ps ∧ (∀ r ∉ readRegs req, m' r = m r) ∧
  (DriveFits m req → ∀ p ∈ ps, Stores p (m (.smi extRegRdData)) (m' p.reg))

theorem returns_setWkp {c : PhyData} (words : BitVec 16 → BitVec 16 → Option (BitVec 16 × BitVec 16)) (req : Request) :
    Returns (Tracks rf c m) (setWkp rf.toBus n words req) fun _ s => ∃ v',
      words (m (.smi extRegRdData)) (m (.smi extRegRdData)) = some v' ∧
        Tracks rf (c.storeTc10 req) (Function.update (Function.update m layout.port v'.1) layout.common v'.2) s := by
  refine returns_of_sees fun _ hm => (ends_setWkp rf words req (fun _ _ => trivial) fun _ _ _ => trivial).weaken ?_
    fun _ h => h
  rintro - t ⟨v', hv, ht⟩
  rw [hm _ (by decide)] at hv
  exact ⟨v', hv, .of_sees ht (((hm.update _ v'.1).update _ v'.2).trans (sameTracked_setWkpWords v'))⟩

theorem sets_bank {req : Request} {r : Reg} {v' : BitVec 16} (hreads : readRegs req = [r])
    (h : ∃ ps, layout.encode req = some ps ∧
      (DriveFits m req → ∃ p, ps = [p] ∧ p.reg = r ∧ Stores p (m (.smi extRegRdData)) v')) :
    Sets req m (Function.update m r v') := by
  obtain ⟨ps, henc, hs⟩ := h
  refine ⟨ps, henc, fun r' hr' => ?_, fun hfit q hq => ?_⟩
  · rw [hreads, List.mem_singleton] at hr'
    exact Function.update_of_ne hr' v' m
  · obtain ⟨p, rfl, rfl, hp⟩ := hs hfit
    obtain rfl := List.mem_singleton.mp hq
    rwa [Function.update_self]

theorem sets_wkp {req : Request} {v' : BitVec 16 × BitVec 16} (hreads : readRegs req = [layout.port, layout.common])
    (h : ∃ p₁ p₂, layout.encode req = some [p₁, p₂] ∧ p₁.reg = layout.port ∧ p₂.reg = layout.common ∧
      Stores p₁ (m (.smi extRegRdData)) v'.1 ∧ Stores p₂ (m (.smi extRegRdData)) v'.2) :
    Sets req m (Function.update (Function.update m layout.port v'.1) layout.common v'.2) := by
  have hne : layout.port ≠ layout.common := by decide
  obtain ⟨p₁, p₂, henc, hreg₁, hreg₂, hs₁, hs₂⟩ := h
  refine ⟨_, henc, fun r hr => ?_, fun _ q hq => ?_⟩
  · simp only [hreads, List.mem_cons, List.not_mem_nil, or_false, not_or] at hr
    rw [Function.update_of_ne hr.2, Function.update_of_ne hr.1]
  · rcases List.mem_cons.mp hq with rfl | hq
    · rwa [hreg₁, Function.update_of_ne hne, Function.update_self]
    · obtain rfl := List.mem_singleton.mp hq
      rwa [hreg₂, Function.update_self]

theorem returns_phyTc10Set {c : PhyData} (req : Request) :
    Returns (Tracks rf c m) (phyTc10Set rf.toBus n req) fun _ s => ∃ m', Sets req m m' ∧
      Tracks rf (c.storeTc10 req) m' s := by
  cases req with
  | sleepSupport enable =>
    simp only [phyTc10Set, phyTc10SetSleepSupport]
    refine (returns_setBank bankPcs (by decide) (by decide) _ _).weaken (fun _ s h => ?_) fun _ h => h
    obtain ⟨v', hv, hs⟩ := h
    obtain ⟨p, henc, hreg, hp⟩ := sleepWord_stores hv
    exact ⟨_, sets_bank rfl ⟨_, henc, fun _ => ⟨p, rfl, hreg, hp⟩⟩, hs⟩
  | wakeupSupport mode =>
    simp only [phyTc10Set, phyTc10SetWakeupSupport]
    refine (returns_setWkp _ _).weaken (fun _ s h => ?_) fun _ h => h
    obtain ⟨v', hv, hs⟩ := h
    exact ⟨_, sets_wkp rfl (wakeupWords_stores hv), hs⟩
  | wakeupFwdSupport mode =>
    simp only [phyTc10Set, phyTc10SetWakeupFwdSupport]
    refine (returns_setWkp _ _).weaken (fun _ s h => ?_) fun _ h => h
    obtain ⟨v', hv, hs⟩ := h
    exact ⟨_, sets_wkp rfl (wakeupFwdWords_stores hv), hs⟩
  | wakePinPolarity pin polarity =>
    simp only [phyTc10Set, phyTc10SetWakePinPolarity]
    refine (returns_setBank bankMisc (by decide) (by decide) _ _).weaken (fun _ s h => ?_) fun _ h => h
    obtain ⟨v', hv, hs⟩ := h
    obtain ⟨p, henc, hreg, hp⟩ := polarityWord_stores hv
    exact ⟨_, sets_bank rfl ⟨_, henc, fun _ => ⟨p, rfl, hreg, hp⟩⟩, hs⟩
  | pinMode pin mode =>
    simp only [phyTc10Set, phyTc10SetPinMode]
    refine (returns_setBank bankMisc (by decide) (by decide) _ _).weaken (fun _ s h => ?_) fun _ h => h
    obtain ⟨v', hv, hs⟩ := h
    have henc : ∃ ps, layout.encode (.pinMode pin mode) = some ps := by
      cases pin <;> cases mode <;> first | exact ⟨_, rfl⟩ | cases hv
    obtain ⟨ps, henc⟩ := henc
    refine ⟨_, sets_bank rfl ⟨ps, henc, fun hfit => ?_⟩, hs⟩
    obtain ⟨p, henc', hreg, hp⟩ := pinModeWord_stores hfit hv
    rw [henc] at henc'
    exact ⟨p, Option.some.inj henc', hreg, hp⟩

/-- The registers with TC10 fields. -/
def wakeRegs : List Reg := [layout.sleepReg, layout.port, layout.common]

theorem readRegs_wakeRegs (req : Request) : ∀ r ∈ readRegs req, r ∈ wakeRegs := by
  cases req <;> simp [readRegs, wakeRegs]

/-- The registers of a setting. -/
def settingRegs : Setting → List Reg
  | .sleep => [layout.sleepReg]
  | .wakeup | .wakeupFwd => [layout.port, layout.common]
  | .wakeInPol | .wakeOutPol | .wakeOutMode | .inhMode => [layout.common]

theorem readRegs_request (d : Tc10.Data) (st : Setting) : readRegs (d.request st) = settingRegs st := by
  cases st <;> rfl

/-- The last setting that `phyTc10SetConfig` writes to a register. -/
def lastSetting (r : Reg) : Setting :=
  if r = layout.sleepReg then .sleep else if r = layout.port then .wakeupFwd else .inhMode

namespace Sets

variable {req : Request} {m' : Words}

theorem other (h : Sets req m m') {r : Reg} (hr : r ∉ readRegs req) : m' r = m r := by
  obtain ⟨ps, -, hframe, -⟩ := h
  exact hframe r hr

theorem data (h : Sets req m m') : m' (.smi extRegRdData) = m (.smi extRegRdData) :=
  h.other fun hmem => absurd (readRegs_wakeRegs req _ hmem) (by decide)

theorem valid (h : Sets req m m') : layout.encode req ≠ none := by
  obtain ⟨ps, henc, -, -⟩ := h
  simp [henc]

theorem other_request {d : Tc10.Data} {st : Setting} (h : Sets (d.request st) m m') {r : Reg}
    (hr : r ∉ settingRegs st) : m' r = m r := h.other (by rwa [readRegs_request])

/-- A request that is not about the `WAKE_OUT` mode. -/
theorem stores (h : Sets req m m') (hreq : ∀ mode, req ≠ .pinMode .wakeOut mode) {ps : List (Patch Reg 16)}
    (henc : layout.encode req = some ps) : ∀ p ∈ ps, Stores p (m (.smi extRegRdData)) (m' p.reg) := by
  obtain ⟨ps', henc', -, hs⟩ := h
  obtain rfl := Option.some.inj (henc.symm.trans henc')
  refine hs ?_
  unfold DriveFits
  split
  · exact absurd rfl (hreq _)
  · trivial

end Sets

/-- The settings written one after the other. -/
theorem phyTc10SetConfig_eq (bus : SmiBus H) (d : Tc10.Data) : phyTc10SetConfig bus n d = (do
    phyTc10Set bus n (d.request .sleep)
    phyTc10Set bus n (d.request .wakeup)
    phyTc10Set bus n (d.request .wakeupFwd)
    phyTc10Set bus n (d.request .wakeInPol)
    phyTc10Set bus n (d.request .wakeOutPol)
    phyTc10Set bus n (d.request .wakeOutMode)
    phyTc10Set bus n (d.request .inhMode)) := rfl

theorem returns_request {c : PhyData} (st : Setting) :
    Returns (Tracks rf c m) (phyTc10Set rf.toBus n (c.tc10.request st)) fun _ s =>
      ∃ m', Sets (c.tc10.request st) m m' ∧ Tracks rf c m' s := by
  refine (returns_phyTc10Set (c.tc10.request st)).weaken (fun _ s h => ?_) fun _ h => h
  rwa [PhyData.storeTc10, Tc10.Data.store_request] at h

/-- What is left of the settings when they have been written: in each register, the last one. -/
structure Restored (d : Tc10.Data) (m m' : Words) : Prop where
  valid : ∀ st, layout.encode (d.request st) ≠ none
  last : ∀ r ∈ wakeRegs, ∀ ps, layout.encode (d.request (lastSetting r)) = some ps → ∀ p ∈ ps, p.reg = r →
    Stores p (m (.smi extRegRdData)) (m' r)
  other : ∀ r ∉ wakeRegs, m' r = m r

theorem returns_phyTc10SetConfig {c : PhyData} :
    Returns (Tracks rf c m) (phyTc10SetConfig rf.toBus n c.tc10) fun _ s => ∃ m', Restored c.tc10 m m' ∧
      Tracks rf c m' s := by
  rw [phyTc10SetConfig_eq]
  refine (returns_request .sleep).bind fun _ => ?_
  rintro s ⟨m₁, h₁, hs⟩
  refine ((returns_request .wakeup).bind fun _ => ?_) s hs
  rintro s ⟨m₂, h₂, hs⟩
  refine ((returns_request .wakeupFwd).bind fun _ => ?_) s hs
  rintro s ⟨m₃, h₃, hs⟩
  refine ((returns_request .wakeInPol).bind fun _ => ?_) s hs
  rintro s ⟨m₄, h₄, hs⟩
  refine ((returns_request .wakeOutPol).bind fun _ => ?_) s hs
  rintro s ⟨m₅, h₅, hs⟩
  refine ((returns_request .wakeOutMode).bind fun _ => ?_) s hs
  rintro s ⟨m₆, h₆, hs⟩
  refine ((returns_request .inhMode).weaken (fun _ t ht => ?_) fun _ h => h) s hs
  obtain ⟨m₇, h₇, ht⟩ := ht
  refine ⟨m₇, ⟨fun st => ?_, fun r hr ps henc p hp hpr => ?_, fun r hr => ?_⟩, ht⟩
  · cases st with
    | sleep => exact h₁.valid
    | wakeup => exact h₂.valid
    | wakeupFwd => exact h₃.valid
    | wakeInPol => exact h₄.valid
    | wakeOutPol => exact h₅.valid
    | wakeOutMode => exact h₆.valid
    | inhMode => exact h₇.valid
  · simp only [wakeRegs, List.mem_cons, List.not_mem_nil, or_false] at hr
    rcases hr with rfl | rfl | rfl
    · have hs := h₁.stores nofun henc p hp
      rw [hpr] at hs
      rwa [h₇.other_request (by decide), h₆.other_request (by decide), h₅.other_request (by decide),
        h₄.other_request (by decide), h₃.other_request (by decide), h₂.other_request (by decide)]
    · have hs := h₃.stores nofun henc p hp
      rw [hpr, h₂.data, h₁.data] at hs
      rwa [h₇.other_request (by decide), h₆.other_request (by decide), h₅.other_request (by decide),
        h₄.other_request (by decide)]
    · have hs := h₇.stores nofun henc p hp
      rwa [hpr, h₆.data, h₅.data, h₄.data, h₃.data, h₂.data, h₁.data] at hs
  · have hout : ∀ req, r ∉ readRegs req := fun req hmem => hr (readRegs_wakeRegs req r hmem)
    rw [h₇.other (hout _), h₆.other (hout _), h₅.other (hout _), h₄.other (hout _), h₃.other (hout _),
      h₂.other (hout _), h₁.other (hout _)]

end Calls

end Lan80xx.Lan8770
