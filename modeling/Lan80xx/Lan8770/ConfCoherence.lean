import Lan80xx.Lan8770.Configured

/-!
# LAN8770: the configuration in the registers

`ConfCoherent` says that power-down bit, role and TC10 fields encode what the get functions report.

- `conf_coherent`: it holds after every call of a run in which the calls fit (`ConfCall.Fits`): the data words have the
  fields that an initialisation or a reset does not write, and a port that is re-initialised is enabled.
-/

namespace Lan80xx.Lan8770

open Fallible RegBus Tc10

variable {H : Type} {rf : SmiRegs H} {m m' : Words} {n : Nat}

/-! ## Reset -/

theorem returns_lan8770Reset {c : PhyData} :
    Returns (Tracks rf c m) (lan8770Reset rf.toBus n) fun _ s => s.conf.initDone = true ∧
      s.conf.conf.adminEnable = c.conf.adminEnable ∧ s.conf.conf.manNeg = c.conf.manNeg ∧ s.conf.tc10 = c.tc10 ∧
      ∃ m', Restored c.tc10 (initWords (c.conf.manNeg = .ref) m) m' ∧ Tracks rf s.conf m' s := by
  unfold lan8770Reset
  refine ends_getConf_bind (fun _ h => h.1) ?_
  refine (returns_phyInitConf _).bind fun _ => (returns_modifyConf _).bind fun _ => ?_
  refine returns_phyGetDeviceInfo.bind fun _ => ?_
  rintro s ⟨hs, hdone, hconf, htc10⟩
  have hdone : s.conf.initDone = true := hdone
  refine ends_getConf_bind (P := Tracks rf s.conf _) (fun _ h => h.1) ?_ s hs
  refine (returns_phyConfSet s.conf.conf).bind fun _ => ?_
  rintro t ⟨ht, hdone', hadmin, hneg, htc10'⟩
  have hwords : confWords s.conf s.conf.conf (initWords (c.conf.manNeg = .ref) m) = initWords (c.conf.manNeg = .ref) m := by
    rw [confWords, if_neg (by simp [SetsPower, hdone]), if_neg (by simp [Initialises, hdone])]
  rw [hwords] at ht
  refine ends_getConf_bind (P := Tracks rf t.conf _) (fun _ h => h.1) ?_ t ht
  refine returns_phyTc10SetConfig.weaken ?_ fun _ h => h
  rintro - u ⟨m', hm', hu⟩
  rw [htc10', htc10] at hm'
  rw [hu.1]
  refine ⟨hdone', by rw [hadmin, hconf], by rw [hneg, hconf], by rw [htc10', htc10], m', hm', ?_⟩
  exact hu.1 ▸ hu

/-! ## Fields after the calls -/

/-- Power-down bit, role and TC10 fields are as reported. -/
structure ConfCoherent (d : PhyData) (m : Words) : Prop where
  power : (m (.smi basicControl)).getLsbD 11 = !d.conf.adminEnable
  manual : (m (.smi masterSlaveCtrl)).getLsbD 12 = true
  role : (m (.smi masterSlaveCtrl)).getLsbD 11 = decide (d.conf.manNeg = .ref)
  tc10 : ∀ st, layout.Encodes (d.tc10.request st) m

/-- What an initialisation leaves in the TC10 fields: those of the read-data word, with the remote wake-up enabled; the
sleep field stays. -/
def carried (m : Words) (r : Reg) : BitVec 16 :=
  if r = layout.sleepReg then m r
  else if r = layout.port then m (.smi extRegRdData) ||| bit 8
  else m (.smi extRegRdData)

theorem field_tracked {st : Setting} : ∀ f ∈ layout.field st, f.1 ∈ tracked := by
  cases st <;> simp [Layout.field, tracked]

theorem encodes_same {d : Tc10.Data} {st : Setting} (h : layout.Encodes (d.request st) m) (hm : SameTracked m m') :
    layout.Encodes (d.request st) m' :=
  h.of_keeps (d.request_setting st) fun f hf => by rw [hm f.1 (field_tracked f hf)]

theorem modified_and_apart (x : BitVec 16) {value mask k : BitVec 16} (hv : value &&& k = 0#16) (hm : mask &&& k = 0#16) :
    modified x value mask &&& k = x &&& k := by
  rw [modified_eq, or_eq_merge, merge_and_apart _ _ hv, and_not_eq_merge, merge_and_apart _ _ hm]

theorem modified_set (x v : BitVec 16) : modified x v v = x ||| v := by
  rw [modified_eq]
  ext b hb
  simp only [BitVec.getElem_or, BitVec.getElem_and, BitVec.getElem_not]
  cases v[b] <;> simp

theorem initWords_field (master : Bool) (m : Words) (st : Setting) : layout.KeepsField st (carried m) (initWords master m) := by
  have hcommon : ∀ k, 0x8006#16 &&& k = 0#16 → 0x800E#16 &&& k = 0#16 →
      initWords master m layout.common &&& k = carried m layout.common &&& k := fun k hv hm =>
    modified_and_apart _ hv hm
  have hport : ∀ k, bit 15 &&& k = 0#16 → initWords master m layout.port &&& k = carried m layout.port &&& k := by
    intro k hk
    have hword : initWords master m layout.port = carried m layout.port ||| bit 15 := by
      have hbits : 0x8100#16 = bit 8 ||| bit 15 := by decide
      change modified (m (.smi extRegRdData)) 0x8100 0x8100 = (m (.smi extRegRdData) ||| bit 8) ||| bit 15
      rw [modified_set, BitVec.or_assoc, ← hbits]
      rfl
    rw [hword, or_eq_merge, merge_and_apart _ _ hk]
  have hsleep : initWords master m layout.sleepReg = carried m layout.sleepReg := rfl
  intro f hf
  cases st <;> simp only [Layout.field, List.mem_cons, List.not_mem_nil, or_false] at hf
  · rw [hf, hsleep]
  · rcases hf with rfl | rfl
    · exact hport _ (by decide)
    · exact hcommon _ (by decide) (by decide)
  · rcases hf with rfl | rfl
    · exact hport _ (by decide)
    · exact hcommon _ (by decide) (by decide)
  all_goals
    obtain rfl := hf
    exact hcommon _ (by decide) (by decide)

theorem initWords_basic (master : Bool) (m : Words) : initWords master m (.smi basicControl) = basicControlDefault := rfl

theorem initWords_role (master : Bool) (m : Words) : (initWords master m (.smi masterSlaveCtrl)).getLsbD 12 = true ∧
    (initWords master m (.smi masterSlaveCtrl)).getLsbD 11 = master := by
  have hword : initWords master m (.smi masterSlaveCtrl) = manCfgEn ||| if master then manCfgVal else 0 := rfl
  rw [hword]
  cases master <;> decide

theorem powerWords_basic (adminEnable : Bool) (h : (m (.smi basicControl)).getLsbD 15 = false) :
    (powerWords adminEnable m (.smi basicControl)).getLsbD 11 = !adminEnable ∧
      (powerWords adminEnable m (.smi basicControl)).getLsbD 15 = false := by
  have hreset : (modified (m (.smi basicControl)) (if adminEnable then 0 else powerDown) powerDown).getLsbD 15 = false := by
    have hbit : (m (.smi basicControl))[15] = false := h
    rw [modified_eq]
    cases adminEnable <;> simp [hbit, powerDown, bit]
  have hword : powerWords adminEnable m (.smi basicControl) =
      modified (m (.smi basicControl)) (if adminEnable then 0 else powerDown) powerDown := by
    rw [powerWords, Function.update_self, latched, if_neg fun hc => Bool.noConfusion (hreset.symm.trans hc.2)]
  rw [hword]
  refine ⟨?_, hreset⟩
  rw [modified_eq]
  cases adminEnable <;> simp [powerDown, bit]

/-! ## The conditions -/

/-- An initialisation that the call makes leaves the reported TC10 settings in their fields, and the port is enabled then,
unless the power-down bit is written. -/
structure ConfFits (c : PhyData) (m : Words) (config : Conf) : Prop where
  tc10 : Initialises c config → ∀ st, layout.Encodes (c.tc10.request st) (carried m)
  power : Initialises c config → ¬SetsPower c config → config.adminEnable = true

/-- The port is enabled, and the read-data word has the TC10 settings that a reset does not write last. -/
structure ResetFits (c : PhyData) (m : Words) : Prop where
  power : c.conf.adminEnable = true
  tc10 : ∀ st ps, layout.encode (c.tc10.request st) = some ps → ∀ p ∈ ps, st ≠ lastSetting p.reg →
    p.In fun _ => m (.smi extRegRdData)

/-- The call keeps to its setting, and before the first configuration the registers are as reported otherwise. -/
structure Tc10Fits (c : PhyData) (m : Words) (req : Request) : Prop where
  fits : Fits m req
  power : c.initDone = false → (m (.smi basicControl)).getLsbD 11 = !c.conf.adminEnable
  manual : c.initDone = false → (m (.smi masterSlaveCtrl)).getLsbD 12 = true
  role : c.initDone = false → (m (.smi masterSlaveCtrl)).getLsbD 11 = decide (c.conf.manNeg = .ref)
  tc10 : c.initDone = false → ∀ st, req.setting ≠ some st → layout.Encodes (c.tc10.request st) m

inductive ConfCall
  | confSet (config : Conf)
  | reset
  | tc10Set (req : Request)

def ConfCall.run (bus : SmiBus H) (n : Nat) : ConfCall → Call PhyData H PUnit
  | .confSet config => phyConfSet bus n config
  | .reset => lan8770Reset bus n
  | .tc10Set req => phyTc10Set bus n req

def ConfCall.Fits (c : PhyData) (m : Words) : ConfCall → Prop
  | .confSet config => ConfFits c m config
  | .reset => ResetFits c m
  | .tc10Set req => Tc10Fits c m req

/-! ## Runs -/

/-- Once the PHY is initialised, the registers are as reported, and no soft reset is pending. -/
def Initialised (d : PhyData) (m : Words) : Prop :=
  d.initDone = true → ConfCoherent d m ∧ (m (.smi basicControl)).getLsbD 15 = false

theorem encodes_initWords {d : Tc10.Data} {st : Setting} (master : Bool) (h : layout.Encodes (d.request st) (carried m)) :
    layout.Encodes (d.request st) (initWords master m) :=
  h.of_keeps (d.request_setting st) (initWords_field master m st)

theorem field_wakeRegs {st : Setting} : ∀ f ∈ layout.field st, f.1 ∈ wakeRegs := by
  cases st <;> simp [Layout.field, wakeRegs]

theorem lastSetting_field : ∀ r ∈ wakeRegs, ∃ f ∈ layout.field (lastSetting r), f.1 = r := by decide

theorem Restored.encodes {d : Tc10.Data} (h : Restored d m m') {st : Setting}
    (hfit : ∀ ps, layout.encode (d.request st) = some ps → ∀ p ∈ ps, st ≠ lastSetting p.reg →
      p.In fun _ => m (.smi extRegRdData)) : layout.Encodes (d.request st) m' := by
  obtain ⟨ps, henc⟩ := Option.ne_none_iff_exists'.mp (h.valid st)
  refine ⟨ps, henc, fun p hp => ?_⟩
  have hmem : (p.reg, p.mask) ∈ layout.field st := by
    rw [← Layout.encode_field (d.request_setting st) henc]
    exact List.mem_map_of_mem hp
  have hreg : p.reg ∈ wakeRegs := field_wakeRegs _ hmem
  by_cases hlast : st = lastSetting p.reg
  · exact (h.last p.reg hreg ps (hlast ▸ henc) p hp rfl).own
  · -- the last patch of the register leaves this one as it is in the read-data word
    obtain ⟨ps', henc'⟩ := Option.ne_none_iff_exists'.mp (h.valid (lastSetting p.reg))
    obtain ⟨f, hf, hfr⟩ := lastSetting_field p.reg hreg
    rw [← Layout.encode_field (d.request_setting _) henc'] at hf
    obtain ⟨q, hq, rfl⟩ := List.mem_map.mp hf
    have hqmem : (q.reg, q.mask) ∈ layout.field (lastSetting p.reg) := by
      rw [← Layout.encode_field (d.request_setting _) henc']
      exact hf
    have hq := h.last p.reg hreg ps' henc' q hq hfr
    have hkeep := hq.others p.mask (chip.apart _ st (Ne.symm hlast) _ hqmem _ hmem hfr) (chip.noVbat st _ hmem)
    exact hkeep.trans (hfit ps henc p hp hlast)

theorem confSet_coherent {c : PhyData} {config : Conf} (hinv : Initialised c m) (hfits : ConfFits c m config) {d : PhyData}
    (hadmin : d.conf.adminEnable = config.adminEnable) (hneg : d.conf.manNeg = config.manNeg) (htc10 : d.tc10 = c.tc10) :
    ConfCoherent d (confWords c config m) ∧ (confWords c config m (.smi basicControl)).getLsbD 15 = false := by
  -- the words before the power-down bit is written
  have hinit : ∃ m₁, confWords c config m = (if SetsPower c config then powerWords config.adminEnable m₁ else m₁) ∧
      (m₁ (.smi basicControl)).getLsbD 15 = false ∧
      (¬SetsPower c config → (m₁ (.smi basicControl)).getLsbD 11 = !config.adminEnable) ∧
      (m₁ (.smi masterSlaveCtrl)).getLsbD 12 = true ∧
      (m₁ (.smi masterSlaveCtrl)).getLsbD 11 = decide (config.manNeg = .ref) ∧
      ∀ st, layout.Encodes (c.tc10.request st) m₁ := by
    by_cases hi : Initialises c config
    · refine ⟨initWords (config.manNeg = .ref) m, by rw [confWords, if_pos hi], ?_, fun hp => ?_, ?_, ?_, fun st =>
        encodes_initWords _ (hfits.tc10 hi st)⟩
      · rw [initWords_basic]
        decide
      · rw [hfits.power hi hp, initWords_basic]
        decide
      · exact (initWords_role _ m).1
      · exact (initWords_role _ m).2
    · obtain ⟨hdone, hneg⟩ : c.initDone = true ∧ c.conf.manNeg = config.manNeg := by
        simpa [Initialises] using hi
      obtain ⟨hco, hreset⟩ := hinv hdone
      refine ⟨m, by rw [confWords, if_neg hi], hreset, fun hp => ?_, hco.manual, by rw [← hneg]; exact hco.role, hco.tc10⟩
      have hsame : c.conf.adminEnable = config.adminEnable := by
        by_contra hne
        exact hp (Or.inr hne)
      rw [← hsame]
      exact hco.power
  obtain ⟨m₁, hwords, hreset, hpower, hmanual, hrole, htc⟩ := hinit
  rw [hwords]
  by_cases hp : SetsPower c config
  · have hbasic := powerWords_basic config.adminEnable hreset
    have hother : ∀ r, r ≠ .smi basicControl → powerWords config.adminEnable m₁ r = m₁ r := fun r hr =>
      Function.update_of_ne hr _ _
    rw [if_pos hp]
    refine ⟨⟨by rw [hadmin]; exact hbasic.1, ?_, ?_, fun st => ?_⟩, hbasic.2⟩
    · rw [hother _ (by decide)]
      exact hmanual
    · rw [hother _ (by decide), hneg]
      exact hrole
    · rw [htc10]
      refine (htc st).of_keeps (c.tc10.request_setting st) fun f hf => ?_
      rw [hother _ (field_isBank f hf _)]
  · rw [if_neg hp]
    exact ⟨⟨by rw [hadmin]; exact hpower hp, hmanual, by rw [hneg]; exact hrole, fun st => htc10 ▸ htc st⟩, hreset⟩

theorem reset_coherent {c d : PhyData} (hfits : ResetFits c m)
    (hrest : Restored c.tc10 (initWords (c.conf.manNeg = .ref) m) m')
    (hadmin : d.conf.adminEnable = c.conf.adminEnable) (hneg : d.conf.manNeg = c.conf.manNeg) (htc10 : d.tc10 = c.tc10) :
    ConfCoherent d m' ∧ (m' (.smi basicControl)).getLsbD 15 = false := by
  have hdata : initWords (c.conf.manNeg = .ref) m (.smi extRegRdData) = m (.smi extRegRdData) := rfl
  have hbasic : m' (.smi basicControl) = basicControlDefault := hrest.other _ (by decide)
  have hrole : m' (.smi masterSlaveCtrl) = initWords (c.conf.manNeg = .ref) m (.smi masterSlaveCtrl) :=
    hrest.other _ (by decide)
  refine ⟨⟨?_, ?_, ?_, fun st => ?_⟩, ?_⟩
  · rw [hbasic, hadmin, hfits.power]
    decide
  · rw [hrole]
    exact (initWords_role _ m).1
  · rw [hrole, hneg]
    exact (initWords_role _ m).2
  · rw [htc10]
    exact hrest.encodes fun ps henc p hp hne => by rw [hdata]; exact hfits.tc10 st ps henc p hp hne
  · rw [hbasic]
    decide

/-- A TC10 set call that has stored its request. -/
theorem tc10_coherent {c d : PhyData} {req : Request} {st : Setting} (hinv : Initialised c m) (hfits : Tc10Fits c m req)
    (hst : req.setting = some st) (hd : d = c.storeTc10 req) (hbasic : m' (.smi basicControl) = m (.smi basicControl))
    (hrole : m' (.smi masterSlaveCtrl) = m (.smi masterSlaveCtrl)) (henc : layout.Encodes req m')
    (hkeep : ∀ st', st' ≠ st → layout.KeepsField st' m m') : ConfCoherent d m' ∧ Initialised d m' := by
  have hsettings : ∀ st', st' ≠ st → layout.Encodes (c.tc10.request st') m := by
    intro st' hne
    cases hdone : c.initDone with
    | false => exact hfits.tc10 hdone st' (by rw [hst]; exact fun he => hne (Option.some.inj he).symm)
    | true => exact (hinv hdone).1.tc10 st'
  have hco : ConfCoherent d m' := by
    subst hd
    refine ⟨?_, ?_, ?_, fun st' => ?_⟩
    · rw [hbasic]
      cases hdone : c.initDone with
      | false => exact hfits.power hdone
      | true => exact (hinv hdone).1.power
    · rw [hrole]
      cases hdone : c.initDone with
      | false => exact hfits.manual hdone
      | true => exact (hinv hdone).1.manual
    · rw [hrole]
      cases hdone : c.initDone with
      | false => exact hfits.role hdone
      | true => exact (hinv hdone).1.role
    · rw [PhyData.storeTc10, Tc10.Data.request_store _ hst]
      split
      · exact henc
      · next hne => exact (hsettings st' hne).of_keeps (c.tc10.request_setting st') (hkeep st' hne)
  refine ⟨hco, fun hdone => ⟨hco, ?_⟩⟩
  rw [hbasic]
  subst hd
  exact (hinv hdone).2

variable (rf) in
/-- A call that returns, or an update by the PHY itself. `P` restricts the calls. -/
inductive ConfStep (P : PhyData → Words → ConfCall → Prop) : Dev PhyData H → Dev PhyData H → Prop
  | call {s s' : Dev PhyData H} {k : ConfCall} {n : Nat} {u : PUnit} :
    P s.conf (rf.view s.hw) k → k.run rf.toBus n s = .ok u s' → ConfStep P s s'
  | drift {s : Dev PhyData H} {h : H} : rf.drift s.hw h → ConfStep P s { s with hw := h }

/-- What a call that fits does to the registers. -/
theorem call_coherent {s s' : Dev PhyData H} {k : ConfCall} {u : PUnit} (hinv : Initialised s.conf (rf.view s.hw))
    (hfits : k.Fits s.conf (rf.view s.hw)) (hok : k.run rf.toBus n s = .ok u s') :
    ConfCoherent s'.conf (rf.view s'.hw) ∧ Initialised s'.conf (rf.view s'.hw) := by
  have hstart : Tracks rf s.conf (rf.view s.hw) s := ⟨rfl, fun _ _ => rfl⟩
  have hsettle : ∀ {m' : Words}, SameTracked m' (rf.view s'.hw) →
      ConfCoherent s'.conf m' ∧ (m' (.smi basicControl)).getLsbD 15 = false →
      ConfCoherent s'.conf (rf.view s'.hw) ∧ Initialised s'.conf (rf.view s'.hw) := by
    rintro m' hm ⟨hco, hreset⟩
    have hco' : ConfCoherent s'.conf (rf.view s'.hw) := by
      refine ⟨?_, ?_, ?_, fun st => encodes_same (hco.tc10 st) hm⟩
      · rw [hm _ (by decide)]
        exact hco.power
      · rw [hm _ (by decide)]
        exact hco.manual
      · rw [hm _ (by decide)]
        exact hco.role
    refine ⟨hco', fun _ => ⟨hco', ?_⟩⟩
    rw [hm _ (by decide)]
    exact hreset
  cases k with
  | confSet config =>
    obtain ⟨⟨-, hm⟩, -, hadmin, hneg, htc10⟩ := (returns_phyConfSet config).ok hstart hok
    exact hsettle hm (confSet_coherent hinv hfits hadmin hneg htc10)
  | reset =>
    obtain ⟨-, hadmin, hneg, htc10, m', hrest, -, hm⟩ := returns_lan8770Reset.ok hstart hok
    exact hsettle hm (reset_coherent hfits hrest hadmin hneg htc10)
  | tc10Set req =>
    obtain ⟨m', hsets, hc, hm⟩ := (returns_phyTc10Set req).ok hstart hok
    have hcall := ends_phyTc10Set rf (n := n) (E := fun _ => True) hfits.fits fun _ _ => trivial
    obtain ⟨-, st, hst, henc, hkeep⟩ := hcall.ok (sees_start rf s) hok
    have hout : ∀ {o : BitVec 8}, .smi o ∈ tracked → rf.view s'.hw (.smi o) = rf.view s.hw (.smi o) := fun ho => by
      rw [hm _ ho, hsets.other fun hmem => by simpa [wakeRegs, layout] using readRegs_wakeRegs req _ hmem]
    exact tc10_coherent hinv hfits hst hc (hout (by decide)) (hout (by decide)) henc hkeep

theorem ConfStep.initialised {s s' : Dev PhyData H} (hstep : ConfStep rf (fun c m k => k.Fits c m) s s')
    (hinv : Initialised s.conf (rf.view s.hw)) : Initialised s'.conf (rf.view s'.hw) := by
  cases hstep with
  | call hfits hok => exact (call_coherent hinv hfits hok).2
  | drift hd =>
    rw [rf.view_drift _ _ hd]
    exact hinv

theorem run_initialised {s₀ s : Dev PhyData H} (hstart : s₀.conf = probed)
    (hrun : Relation.ReflTransGen (ConfStep rf fun c m k => k.Fits c m) s₀ s) : Initialised s.conf (rf.view s.hw) := by
  induction hrun with
  | refl =>
    intro hdone
    rw [hstart] at hdone
    cases hdone
  | tail _ hstep ih => exact hstep.initialised ih

theorem conf_coherent (rf : SmiRegs H) {s₀ s t : Dev PhyData H} {k : ConfCall} {u : PUnit} (hstart : s₀.conf = probed)
    (hrun : Relation.ReflTransGen (ConfStep rf fun c m k => k.Fits c m) s₀ s) (hfits : k.Fits s.conf (rf.view s.hw))
    (hok : k.run rf.toBus n s = .ok u t) : ConfCoherent t.conf (rf.view t.hw) :=
  (call_coherent (run_initialised hstart hrun) hfits hok).1

/-! ## Two runs -/

section Bench

/-- A PHY on which every access succeeds and every operation ends at once. -/
def quietPhy : SmiRegs Words where
  rd r h := (.ok (if Volatile r then 0 else h (.smi r)), h)
  wr r v h := (.ok (), h.write r v)
  drift h h' := h' = h
  view h := h
  view_rd _ _ := rfl
  rd_ok r h v hv := by
    cases hv
    exact fun hr => if_neg hr
  view_wr_ok _ _ _ _ := rfl
  view_wr_error _ _ _ _ hw := by cases hw
  view_drift _ _ hd := hd

abbrev quietCall (k : ConfCall) (s : Dev PhyData Words) : Dev PhyData Words := final (k.run quietPhy.toBus 0) s

/-- Registers that hold the settings of a driver that has just been probed, and a read-data word that suits them. -/
def settledStart : Dev PhyData Words where
  conf := probed
  hw r :=
    if r = .smi masterSlaveCtrl then 0x1800
    else if r = layout.common then 0x0081
    else if r = layout.port then 0x1100
    else if r = .smi extRegRdData then 0x1081
    else 0

def wakeInLow : ConfCall := .tc10Set (.wakePinPolarity .wakeIn .activeLow)

def enabledRef : ConfCall := .confSet ⟨.m100, true, false, false, true, .ref⟩

theorem wakeInLow_fits : wakeInLow.Fits settledStart.conf (quietPhy.view settledStart.hw) := by
  refine ⟨⟨trivial, fun _ => by decide, fun hnone => absurd hnone (by decide)⟩, fun _ => by decide, fun _ => by decide, fun _ => by decide,
    fun _ st hst => ?_⟩
  cases st <;> first | exact absurd rfl hst | decide

theorem enabledRef_fits :
    enabledRef.Fits (quietCall wakeInLow settledStart).conf (quietPhy.view (quietCall wakeInLow settledStart).hw) := by
  refine ⟨fun _ st => ?_, fun _ hp => absurd (Or.inl rfl) hp⟩
  cases st <;> decide +kernel

theorem conf_coherent_settled :
    ConfCoherent (quietCall enabledRef (quietCall wakeInLow settledStart)).conf
      (quietPhy.view (quietCall enabledRef (quietCall wakeInLow settledStart)).hw) := by
  have hfirst : wakeInLow.run quietPhy.toBus 0 settledStart = .ok () (quietCall wakeInLow settledStart) :=
    ok_final (by decide +kernel)
  have hsecond : enabledRef.run quietPhy.toBus 0 (quietCall wakeInLow settledStart) =
      .ok () (quietCall enabledRef (quietCall wakeInLow settledStart)) := ok_final (by decide +kernel)
  exact conf_coherent quietPhy rfl (.single (.call (s := settledStart) wakeInLow_fits hfirst)) enabledRef_fits hsecond

/-- All registers are 0. -/
def zeroStart : Dev PhyData Words := ⟨probed, fun _ => 0⟩

/-- A disabled port in either role. -/
def disabledAs (manNeg : ManualNeg) : ConfCall := .confSet ⟨.m100, true, false, false, false, manNeg⟩

/-- A disabled port changes its role: it is no longer powered down. -/
theorem not_conf_coherent : ¬∀ (s₀ s t : Dev PhyData Words) (k : ConfCall) (n : Nat), s₀.conf = probed →
    Relation.ReflTransGen (ConfStep quietPhy fun _ _ _ => True) s₀ s → k.run quietPhy.toBus n s = .ok () t →
      ConfCoherent t.conf (quietPhy.view t.hw) := by
  intro h
  have hfirst : (disabledAs .ref).run quietPhy.toBus 0 zeroStart = .ok () (quietCall (disabledAs .ref) zeroStart) :=
    ok_final (by decide +kernel)
  have hsecond : (disabledAs .client).run quietPhy.toBus 0 (quietCall (disabledAs .ref) zeroStart) =
      .ok () (quietCall (disabledAs .client) (quietCall (disabledAs .ref) zeroStart)) := ok_final (by decide +kernel)
  have hco := h zeroStart _ _ (disabledAs .client) 0 rfl (.single (.call trivial hfirst)) hsecond
  exact absurd hco.power (by decide +kernel)

end Bench

end Lan80xx.Lan8770
