import Lan80xx.Lan8814.GphyConf

/-!
# LAN8814: the reset

A reset goes through a soft reset, which returns some registers to their initial words, the work-arounds after a reset,
and the stored configuration.

- `Setting`: the bits that a configuration is about;
- `bit_reset`: these bits after a reset.
-/

namespace Lan80xx.Lan8814.Gphy

open RegCalls

/-! ## The call -/

/-- The PHY, as far as a reset is concerned: the words after a power-up, where auto MDI-X is on, and the registers that a
soft reset returns to them. -/
structure Chip where
  initial : Words
  resets : Reg → Bool
  mdi_auto : ∀ b, b = 6 ∨ b = 7 → (initial gphyDbgCtl1).getLsbD b = false

/-- What a soft reset makes the PHY do. -/
def Chip.reset (chip : Chip) : Call Unit := fun s =>
  ((), { s with words := fun r => if chip.resets r then chip.initial r else s.words r })

/-- `LAN8814_F_BASIC_CTRL_SOFT_RESET` is written. -/
def softReset (chip : Chip) : Call Unit := do
  writeMasked basicControl (bit 15) (bit 15)
  chip.reset

/-- `lan8814_get_device_info` -/
def getDeviceInfo : Call Unit := do
  let id ← read deviceId2
  modifyData fun d => { d with dev := ⟨(id.extractLsb' 4 6).setWidth 8, (id.extractLsb' 0 4).setWidth 8⟩ }

/-- `lan8814_init_conf` -/
def initConf : Call Unit := do
  getDeviceInfo
  let d ← getData
  when (d.isLan8814 && d.packetIdx % 4 == 0 && !d.qsgmiiPhyAnegDis) do
    writeMasked qsgmiiAutoAneg 0 (bit 0)
    modifyData fun d => { d with qsgmiiPhyAnegDis := true }
  write gphyIntrEna 0
  write ptpTsuIntEn 0
  let _ ← read gphyIntrStatus
  writeMasked intrCtrl (bit 0) (bit 0)

/-- The part of `lan8814_rev_workaround` for the internal PHY of model LAN966x. -/
def revWorkaround966x : Call Unit := do
  write fixLatencyEnable 1
  write clockManagementMode5 0x27e
  let _ ← read linkQualityMonitorSetting
  writeMasked operationModeStrapLow 0x8 0x8

/-- The part of `lan8814_rev_workaround` for model LAN8814. -/
def revWorkaround8814 (rev : BitVec 8) : Call Unit := do
  write analogControl1 0x40
  write analogControl10 0x1
  when (rev < 1) (writeAll [(operationModeStrapLow, 0x2), (operationModeStrapHigh, 0xc001)])

/-- `lan8814_rev_workaround` -/
def revWorkaround : Call Unit := do
  let d ← getData
  when (d.dev.rev < 2) (writeMasked alignSwap (bit 1) 0x3)
  when (d.isLan966x && d.dev.rev ≤ 2) revWorkaround966x
  when (!d.isLan966x) (revWorkaround8814 d.dev.rev)

/-- The registers of extended pages that `lan8814_workaround_after_reset` writes. -/
def afterResetRegs : List (Reg × BitVec 16) :=
  [(afedControl, 0xe214), (analogControl4, 0x81e0), (eeeWakeTxTimer, 0x1f), (alignSwap, 0x02), (analogControl1, 0x40),
    (analogControl10, 0x01), (pdControls, 0x248b), (dfeInit2100, 0x3c30)] ++
  [0x10a, 0xed, 0xd3, 0xbc, 0xa8, 0x96, 0x85, 0x77, 0x6a, 0x5e, 0x54, 0x4b, 0x43, 0x3c, 0x35, 0x2f, 0x2a, 0x26].mapIdx
    (fun i v => (pgaTable1gEntry i, v)) ++
  [0x6677, 0x6677, 0x6677, 0x6677, 0x0077, 0x4377, 0x4377, 0x6677, 0x0777, 0x0777, 0x6677, 0x6677].mapIdx
    (fun i v => (powerMgmtMode (i + 3), v))

/-- `lan8814_workaround_after_reset` -/
def workaroundAfterReset : Call Unit := do
  writeAll afterResetRegs
  write basicControl 0x1340
  write anegAdvertisement 0x05e1

/-- `lan8814_selftest_stop` -/
def selftestStop : Call Unit := do
  let val ← read selftestPgenEn
  when (val.getLsbD 0) (writeAll [(selftestPgenEn, 0), (resvConLoop, 0xfc00)])

/-- The registers have to be written for this EEE configuration. -/
def EeeConf.reconfigures (conf : EeeConf) : Bool :=
  conf.eeeMode = .regUpdate || (conf.eeeEnaPhy && conf.eeeMode = .disable) ||
    (!conf.eeeEnaPhy && conf.eeeMode = .enable)

def PhyData.setEee (conf : EeeConf) (d : PhyData) : PhyData :=
  { d with eeeConf :=
    match conf.eeeMode with
    | .regUpdate => ⟨if conf.eeeEnaPhy then .enable else .disable, conf.eeeEnaPhy⟩
    | .disable => ⟨.disable, if conf.eeeEnaPhy then false else d.eeeConf.eeeEnaPhy⟩
    | .enable => ⟨.enable, if !conf.eeeEnaPhy then true else d.eeeConf.eeeEnaPhy⟩ }

/-- `lan8814_eee_mode_conf_set_` -/
def eeeModeConfSet_ (conf : EeeConf) : Call Unit := do
  modifyData (PhyData.setEee conf)
  when conf.reconfigures do
    let d ← getData
    write eeeAdvertisement (if d.eeeConf.eeeEnaPhy then bit 1 ||| bit 2 else 0)
    writeMasked basicControl restartAneg restartAneg

/-- The initialisation at the first reset. -/
def firstReset : Call Unit := do
  initConf
  revWorkaround
  qsgmiiAneg false
  modifyData fun d => { d with
    initDone := true
    repCnt := if d.repCnt = 0 then 1 else d.repCnt
    crcWorkaround := d.isLan8814 || d.crcWorkaround
    anegAfterLinkUp := !d.isLan8814 && d.anegAfterLinkUp }

/-- The reset of the QSGMII block after that of the port. -/
def qsgmiiReset : Call Unit := do
  write qsgmiiSoftReset 0x1
  writeMasked basicControl restartAneg restartAneg
  modifyData fun d => { d with postMacRst := true }

/-- The reset up to the stored configuration. -/
def resetHead (chip : Chip) : Call Unit := do
  let d ← getData
  when (!d.initDone) firstReset
  selftestStop
  softReset chip
  workaroundAfterReset

/-- The reset from the stored configuration on. -/
def resetTail : Call Unit := do
  let d ← getData
  eeeModeConfSet_ { d.eeeConf with eeeMode := .regUpdate }
  when (d.events ≠ 0) (eventEnableSet_ d.events true)
  when d.isLan8814 qsgmiiReset

/-- `lan8814_reset_` at `MEPA_RESET_POINT_DEFAULT`, before the frame preemption. -/
def resetDefault (chip : Chip) : Call Unit := do
  resetHead chip
  let d ← getData
  confSet_ d.conf
  resetTail

/-- `lan8814_framepreempt_set_` -/
def framepreemptSet_ (enable : Bool) : Call Unit := do
  let d ← getData
  match d.baseDev with
  | .none => pure ()
  | .self => do
    modifyData fun d => { d with framepreemptEn := enable }
    let val ← read ptpTsuGenConf
    write ptpTsuGenConf (if enable then val ||| bit 1 else val &&& ~~~bit 1)
  | .other framepreemptEn => do
    let val ← read ptpTsuGenConf
    write ptpTsuGenConf (if framepreemptEn then val ||| bit 1 else val &&& ~~~bit 1)

/-- `mepa_reset_point_t` -/
inductive ResetPoint
  | default
  | pre
  | post
  | postMac
  deriving DecidableEq, Repr

/-- `lan8814_reset_` -/
def reset_ (chip : Chip) (point : ResetPoint) (framepreemptEn : Bool) : Call Rc := do
  when (point = .default) (resetDefault chip)
  framepreemptSet_ framepreemptEn
  return .ok

/-! ## Settings -/

/-- The bits that a configuration is about: all of the basic control register that do not clear themselves, the
advertisement, the 1G advertisement with the master/slave mode, and the MDI mode. -/
inductive Setting : Reg → Nat → Prop
  | basic {b : Nat} (hb : b < 16) (h : ¬SelfClearing b) : Setting basicControl b
  | advertisement {b : Nat} (hb : b < 16) : Setting anegAdvertisement b
  | master {b : Nat} (h : b = 9 ∨ b = 11 ∨ b = 12) : Setting anegMstrSlvCtrl b
  | mdi {b : Nat} (h : b = 6 ∨ b = 7) : Setting gphyDbgCtl1 b

def settingRegs : List Reg := [basicControl, anegAdvertisement, anegMstrSlvCtrl, gphyDbgCtl1]

theorem Setting.mem {r : Reg} {b : Nat} (h : Setting r b) : r ∈ settingRegs := by
  cases h <;> simp [settingRegs]

theorem keepsBits_write {r : Reg} (h : r ∉ settingRegs) (value : BitVec 16) :
    KeepsBits Setting (write r value : Call Unit) :=
  (Keeps.write (P := (· ∈ settingRegs)) h value).keepsBits fun _ _ hs => hs.mem

theorem keepsBits_writeMasked {r : Reg} (h : r ∉ settingRegs) (value mask : BitVec 16) :
    KeepsBits Setting (writeMasked r value mask : Call Unit) :=
  (Keeps.writeMasked (P := (· ∈ settingRegs)) h value mask).keepsBits fun _ _ hs => hs.mem

theorem keepsBits_writeAll {ps : List (Reg × BitVec 16)} (h : ∀ p ∈ ps, p.1 ∉ settingRegs) :
    KeepsBits Setting (writeAll ps : Call Unit) :=
  (Keeps.writeAll (P := (· ∈ settingRegs)) h).keepsBits fun _ _ hs => hs.mem

/-- A restart of the auto-negotiation is no setting. -/
theorem keepsBits_restart : KeepsBits Setting (writeMasked basicControl restartAneg restartAneg : Call Unit) := by
  refine .writeMasked (fun b hb => ?_) _
  cases hb with
  | basic _ h => simpa using fun h9 : b = 9 => h (Or.inl h9)

theorem keepsBits_qsgmiiAneg (ena : Bool) : KeepsBits Setting (qsgmiiAneg ena) :=
  .bind .getData fun _ => .ite (fun _ => .pure _) fun _ => keepsBits_writeMasked (by decide) _ _

theorem keepsBits_eventEnableSet (event : BitVec 32) (enable : Bool) :
    KeepsBits Setting (eventEnableSet_ event enable) := by
  refine .bind (.modifyData _) fun _ => ?_
  refine .bind (.when fun _ => keepsBits_writeMasked (by decide) _ _) fun _ => ?_
  exact keepsBits_writeMasked (by decide) _ _

theorem keepsBits_initConf : KeepsBits Setting initConf := by
  refine .bind (.bind (.read _) fun _ => .modifyData _) fun _ => ?_
  refine .bind .getData fun _ => ?_
  refine .bind (.when fun _ => .bind (keepsBits_writeMasked (by decide) _ _) fun _ => .modifyData _) fun _ => ?_
  refine .bind (keepsBits_write (by decide) _) fun _ => ?_
  refine .bind (keepsBits_write (by decide) _) fun _ => ?_
  refine .bind (.read _) fun _ => ?_
  exact keepsBits_writeMasked (by decide) _ _

theorem keepsBits_revWorkaround : KeepsBits Setting revWorkaround := by
  have h966x : KeepsBits Setting revWorkaround966x := by
    refine .bind (keepsBits_write (by decide) _) fun _ => ?_
    refine .bind (keepsBits_write (by decide) _) fun _ => ?_
    exact .bind (.read _) fun _ => keepsBits_writeMasked (by decide) _ _
  have h8814 (rev : BitVec 8) : KeepsBits Setting (revWorkaround8814 rev) := by
    refine .bind (keepsBits_write (by decide) _) fun _ => ?_
    refine .bind (keepsBits_write (by decide) _) fun _ => ?_
    exact .when fun _ => keepsBits_writeAll (by decide)
  refine .bind .getData fun _ => ?_
  refine .bind (.when fun _ => keepsBits_writeMasked (by decide) _ _) fun _ => ?_
  exact .bind (.when fun _ => h966x) fun _ => .when fun _ => h8814 _

theorem keepsBits_firstReset : KeepsBits Setting firstReset :=
  .bind keepsBits_initConf fun _ => .bind keepsBits_revWorkaround fun _ =>
    .bind (keepsBits_qsgmiiAneg _) fun _ => .modifyData _

theorem keepsBits_selftestStop : KeepsBits Setting selftestStop :=
  .bind (.read _) fun _ => .when fun _ => keepsBits_writeAll (by decide)

theorem keepsBits_resetTail : KeepsBits Setting resetTail := by
  refine .bind .getData fun _ => ?_
  refine .bind (.bind (.modifyData _) fun _ => .when fun _ => ?_) fun _ => ?_
  · exact .bind .getData fun _ => .bind (keepsBits_write (by decide) _) fun _ => keepsBits_restart
  · refine .bind (.when fun _ => keepsBits_eventEnableSet _ _) fun _ => .when fun _ => ?_
    exact .bind (keepsBits_write (by decide) _) fun _ => .bind keepsBits_restart fun _ => .modifyData _

theorem keepsBits_framepreemptSet (enable : Bool) : KeepsBits Setting (framepreemptSet_ enable) := by
  refine .bind .getData fun d => ?_
  cases d.baseDev with
  | none => exact .pure _
  | self => exact .bind (.modifyData _) fun _ => .bind (.read _) fun _ => keepsBits_write (by decide) _
  | other framepreemptEn => exact .bind (.read _) fun _ => keepsBits_write (by decide) _

/-! ## The stored configuration -/

theorem keepsConf_firstReset : KeepsView PhyData.conf firstReset := by
  refine .bind ?_ fun _ => .bind (KeepsData.view ?_) fun _ =>
    .bind (keepsData_qsgmiiAneg _).view fun _ => .modifyData fun _ => rfl
  · refine .bind (.bind (KeepsData.read _).view fun _ => .modifyData fun _ => rfl) fun _ => ?_
    refine .bind KeepsData.getData.view fun _ => ?_
    refine .bind (.when fun _ => .bind (KeepsData.writeMasked _ _ _).view fun _ => .modifyData fun _ => rfl) fun _ => ?_
    refine .bind (KeepsData.write _ _).view fun _ => ?_
    refine .bind (KeepsData.write _ _).view fun _ => ?_
    exact .bind (KeepsData.read _).view fun _ => (KeepsData.writeMasked _ _ _).view
  · refine .bind .getData fun _ => .bind (.when fun _ => .writeMasked _ _ _) fun _ => ?_
    refine .bind (.when fun _ => ?_) fun _ => .when fun _ => ?_
    · exact .bind (.write _ _) fun _ => .bind (.write _ _) fun _ => .bind (.read _) fun _ => .writeMasked _ _ _
    · exact .bind (.write _ _) fun _ => .bind (.write _ _) fun _ => .when fun _ => .writeAll _

theorem keepsData_softReset (chip : Chip) : KeepsData (softReset chip) := fun _ => rfl

theorem keepsData_workaroundAfterReset : KeepsData workaroundAfterReset :=
  .bind (.writeAll _) fun _ => .bind (.write _ _) fun _ => .write _ _

theorem keepsConf_resetHead (chip : Chip) : KeepsView PhyData.conf (resetHead chip) := by
  refine .bind KeepsData.getData.view fun _ => .bind (.when fun _ => keepsConf_firstReset) fun _ => ?_
  refine .bind (KeepsData.view ?_) fun _ => .bind (keepsData_softReset chip).view fun _ => keepsData_workaroundAfterReset.view
  exact .bind (.read _) fun _ => .when fun _ => .writeAll _

theorem keepsConf_resetTail : KeepsView PhyData.conf resetTail := by
  refine .bind KeepsData.getData.view fun _ => .bind (.bind (.modifyData fun _ => rfl) fun _ => .when fun _ => ?_) fun _ => ?_
  · exact KeepsData.view (.bind .getData fun _ => .bind (.write _ _) fun _ => .writeMasked _ _ _)
  · refine .bind (.when fun _ => fun s => ?_) fun _ => .when fun _ => ?_
    · rw [data_eventEnableSet, PhyData.setEvents]
    · exact .bind (KeepsData.write _ _).view fun _ => .bind (KeepsData.writeMasked _ _ _).view fun _ => .modifyData fun _ => rfl

theorem keepsConf_framepreemptSet (enable : Bool) : KeepsView PhyData.conf (framepreemptSet_ enable) := by
  refine .bind KeepsData.getData.view fun d => ?_
  cases d.baseDev with
  | none => exact fun _ => rfl
  | self => exact .bind (.modifyData fun _ => rfl) fun _ => .bind (KeepsData.read _).view fun _ => (KeepsData.write _ _).view
  | other framepreemptEn => exact .bind (KeepsData.read _).view fun _ => (KeepsData.write _ _).view

/-- A reset stores the configuration again. -/
theorem conf_resetDefault (chip : Chip) (s : Port) : (after (resetDefault chip) s).data.conf =
    { s.data.conf with macIfAnegEna := s.data.conf.qsgmiiAneg } := by
  simp only [resetDefault, after_bind, keepsConf_resetTail _, after_getData, data_confSet]
  rw [result_getData, PhyData.setConf, keepsConf_resetHead chip s]

/-! ## The settings after a configuration -/

/-- The bits of the MDI mode. -/
def MediaMode.mdiBit (mode : MediaMode) (b : Nat) : Bool := if b = 7 then mode = .mdi else mode ≠ .auto

theorem getLsbD_word (mode : MediaMode) (val : BitVec 16) {b : Nat} (hb : b = 6 ∨ b = 7) :
    (mode.word val).getLsbD b = mode.mdiBit b := by
  rcases hb with rfl | rfl <;> cases mode <;> simp [MediaMode.word, MediaMode.mdiBit]

theorem bit_confMdiMode (mode : MediaMode) (s : Port) {b : Nat} (hb : b = 6 ∨ b = 7) :
    (after (confMdiMode mode) s).bit gphyDbgCtl1 b =
      if s.data.conf.mdiMode = mode then s.bit gphyDbgCtl1 b else mode.mdiBit b := by
  simp only [confMdiMode, after_bind, after_ite, State.bit_ite]
  split
  · rw [if_pos ‹_›]
    rfl
  · rw [if_neg ‹_›, bit_modifyData, bit_write, if_pos rfl, getLsbD_word mode _ hb]

/-- Only the MDI mode has to do with the register of the MDI bits. -/
theorem keeps_confRest (config old : Conf) (aneg : Bool) : Keeps (· = gphyDbgCtl1) (do
    when (aneg ≠ old.macIfAnegEna) (qsgmiiAneg aneg)
    writeMasked gphyIntrEna 0 (bit 12)
    if config.speed.Negotiates then confAneg config old
    else when (config.speed ≠ .undefined) (confForced config old) : Call Unit) := by
  have hqsgmii : Keeps (· = gphyDbgCtl1) (qsgmiiAneg aneg) :=
    .bind .getData fun _ => .ite (fun _ => .pure _) fun _ => .writeMasked (by decide) _ _
  refine .bind (.when fun _ => hqsgmii) fun _ => .bind (.writeMasked (by decide) _ _) fun _ => ?_
  refine .ite (fun _ => ?_) fun _ => .when fun _ => ?_
  · refine .bind (.when fun _ => .writeAll (by decide)) fun _ => ?_
    refine .bind (.writeMasked (by decide) _ _) fun _ => ?_
    refine .bind (.read _) fun _ => ?_
    refine .bind (.write (by decide) _) fun _ => ?_
    refine .bind (.writeMasked (by decide) _ _) fun _ => ?_
    exact .when fun _ => .writeMasked (by decide) _ _
  · refine .bind (.when fun _ => .writeAll (by decide)) fun _ => ?_
    refine .bind (.writeMasked (by decide) _ _) fun _ => ?_
    exact .when fun _ => .writeAll (by decide)

/-- The MDI bits after a configuration: those of its mode, but only if the mode is not the stored one. -/
theorem bit_confSet_mdi (config : Conf) (s : Port) {b : Nat} (hb : b = 6 ∨ b = 7) :
    (after (confSet_ config) s).bit gphyDbgCtl1 b =
      if config.adminEnable = true ∧ s.data.conf.mdiMode ≠ config.mdiMode then config.mdiMode.mdiBit b
      else s.bit gphyDbgCtl1 b := by
  have hevents (event : BitVec 32) : Keeps (· = gphyDbgCtl1) (eventEnableSet_ event true) :=
    .bind (.modifyData _) fun _ => .bind (.when fun _ => .writeMasked (by decide) _ _) fun _ => .writeMasked (by decide) _ _
  have hcontrol (c : Bool) : Keeps (· = gphyDbgCtl1) (when c (writeMasked control (bit 14) (bit 14)) : Call Unit) :=
    .when fun _ => .writeMasked (by decide) _ _
  have hadmin : (after (confAdmin config s.data.conf config.qsgmiiAneg) s).bit gphyDbgCtl1 b =
      if config.adminEnable = true ∧ s.data.conf.mdiMode ≠ config.mdiMode then config.mdiMode.mdiBit b
      else s.bit gphyDbgCtl1 b := by
    rw [confAdmin, after_ite, State.bit_ite]
    split
    · rename_i ha
      rw [confEnabled, after_bind, (keeps_confRest config _ _).bit _ rfl, bit_confMdiMode _ s hb]
      by_cases hm : s.data.conf.mdiMode = config.mdiMode <;> simp [ha, hm]
    · rename_i ha
      rw [if_neg fun hc => ha hc.1, bit_writeMasked, if_neg (by simp)]
  simp only [confSet_, after_bind, after_getData, result_getData, after_read]
  rw [(hevents _).bit _ rfl, bit_modifyData, (hcontrol _).bit _ rfl, hadmin]

/-! ## The settings after a reset -/

/-- The bit after the work-arounds after a soft reset. -/
def worked (r : Reg) (b : Nat) (old : Bool) : Bool :=
  if r = basicControl then (0x1340#16).getLsbD b else if r = anegAdvertisement then (0x05e1#16).getLsbD b else old

theorem bit_workaroundAfterReset (s : Port) {r : Reg} {b : Nat} (h : Setting r b) :
    (after workaroundAfterReset s).bit r b = worked r b (s.bit r b) := by
  have hregs : KeepsBits Setting (writeAll afterResetRegs : Call Unit) := keepsBits_writeAll (by decide)
  simp only [workaroundAfterReset, after_bind, bit_write, hregs _ _ _ h, worked]
  by_cases h0 : r = basicControl
  · simp [h0]
  · by_cases h4 : r = anegAdvertisement <;> simp [h0, h4]

/-- The bit after a soft reset. -/
def Chip.kept (chip : Chip) (r : Reg) (b : Nat) (old : Bool) : Bool :=
  if chip.resets r then (chip.initial r).getLsbD b else old

theorem bit_softReset (chip : Chip) (s : Port) {r : Reg} {b : Nat} (h : Setting r b) :
    (after (softReset chip) s).bit r b = chip.kept r b (s.bit r b) := by
  have hstart : KeepsBits Setting (writeMasked basicControl (bit 15) (bit 15) : Call Unit) := by
    refine .writeMasked (fun b hb => ?_) _
    cases hb with
    | basic _ h => simpa using fun h15 : b = 15 => h (Or.inr h15)
  have hreset (s : Port) : (after chip.reset s).bit r b = chip.kept r b (s.bit r b) := by
    change BitVec.getLsbD (if chip.resets r then chip.initial r else s.words r) b = _
    rw [Chip.kept]
    split <;> rfl
  rw [softReset, after_bind, hreset, hstart s r b h]

/-- The settings that the reset leaves to the stored configuration. -/
theorem bit_resetHead (chip : Chip) (s : Port) {r : Reg} {b : Nat} (h : Setting r b) :
    (after (resetHead chip) s).bit r b = worked r b (chip.kept r b (s.bit r b)) := by
  have hfirst (c : Bool) : KeepsBits Setting (when c firstReset) := .when fun _ => keepsBits_firstReset
  simp only [resetHead, after_bind, after_getData, bit_workaroundAfterReset _ h, bit_softReset chip _ h,
    keepsBits_selftestStop _ r b h, hfirst _ _ r b h]

theorem Setting.configured {r : Reg} {b : Nat} (h : Setting r b) (hr : r ≠ gphyDbgCtl1) : Configured r b ∧ b < 16 := by
  cases h with
  | basic hb hs => exact ⟨⟨by decide, fun _ => hs⟩, hb⟩
  | advertisement hb => exact ⟨⟨by decide, by simp⟩, hb⟩
  | master hb => exact ⟨⟨by decide, by simp⟩, by omega⟩
  | mdi => exact absurd rfl hr

/-- The settings after a reset: the configuration does not write the MDI mode that it has stored. -/
theorem bit_resetDefault (chip : Chip) (s : Port) {r : Reg} {b : Nat} (h : Setting r b) :
    (after (resetDefault chip) s).bit r b = s.data.conf.sets r b (worked r b (chip.kept r b (s.bit r b))) := by
  have hconf := keepsConf_resetHead chip s
  simp only [resetDefault, after_bind, after_getData]
  rw [keepsBits_resetTail _ r b h, result_getData, hconf]
  by_cases hr : r = gphyDbgCtl1
  · subst hr
    have hb : b = 6 ∨ b = 7 := by
      cases h
      assumption
    rw [bit_confSet_mdi _ _ hb, hconf, if_neg (by simp), bit_resetHead chip s h]
    simp [Conf.sets, Conf.mask]
  · obtain ⟨hc, hb⟩ := h.configured hr
    rw [bit_confSet _ _ hc hb, bit_resetHead chip s h]

theorem after_reset (chip : Chip) (enable : Bool) (s : Port) : after (reset_ chip .default enable) s =
    after (framepreemptSet_ enable) (after (resetDefault chip) s) := by
  simp only [reset_, after_bind, after_pure, after_when, decide_true, if_true]

/-- The settings after a reset. -/
theorem bit_reset (chip : Chip) (enable : Bool) (s : Port) {r : Reg} {b : Nat} (h : Setting r b) :
    (after (reset_ chip .default enable) s).bit r b =
      s.data.conf.sets r b (worked r b (chip.kept r b (s.bit r b))) := by
  rw [after_reset, keepsBits_framepreemptSet _ _ r b h, bit_resetDefault chip s h]

theorem conf_reset (chip : Chip) (enable : Bool) (s : Port) :
    (after (reset_ chip .default enable) s).data.conf = { s.data.conf with macIfAnegEna := s.data.conf.qsgmiiAneg } := by
  rw [after_reset, keepsConf_framepreemptSet, conf_resetDefault]

end Lan80xx.Lan8814.Gphy
