import Lan80xx.T1.Driver
import Lan80xx.Lan887x.Tc10

/-!
# LAN887x: initialisation and configuration

The driver's own data are the TC10 settings. Of the resets, those that only the cable test makes are left out.

- `ends_intReset`: what a reset does to registers that have nothing to do with LEDs and TC10;
- `lan887x`: the driver.
-/

namespace Lan80xx.T1.Lan887x

open Fallible RegBus RegScript
open Lan8770 (Speed Loopback)

/-! ## Accesses -/

/-- `phy_reg_map` -/
abbrev RegMap := Mmd × BitVec 16 × BitVec 16

/-- `lan887x_phy_en`, set by `phy_cfg_regs` -/
def phyEn : List RegMap := [(.vend1, 0xF003, 0x0008), (.vend1, 0xF005, 0x0010)]

/-- `lan887x_onetime_setup`, written by `phy_cfg_regs` -/
def onetimeSetup : List RegMap :=
  [(.pmapmd, 0x8080, 0x4008), (.pmapmd, 0x8089, 0x0000), (.pmapmd, 0x808D, 0x0040), (.pcs, 0x8213, 0x0008),
    (.pcs, 0x8204, 0x800D), (.vend1, 0x0405, 0x0AB1), (.vend1, 0x0411, 0x5274), (.vend1, 0x0417, 0x0D74),
    (.vend1, 0x041C, 0x0AEA), (.vend1, 0x0425, 0x0360), (.vend1, 0x0454, 0x0C30), (.vend1, 0x0811, 0x2A78),
    (.vend1, 0x0813, 0x1368), (.vend1, 0x0825, 0x1354), (.vend1, 0x0843, 0x3C84), (.vend1, 0x0844, 0x3CA5),
    (.vend1, 0x0845, 0x3CA5), (.vend1, 0x0846, 0x3CA5), (.vend1, 0x08EC, 0x0024), (.vend1, 0x08EE, 0x227F),
    (.pcs, 0x8043, 0x1E00), (.pcs, 0x8048, 0x0FA1)]

/-- `phy_cfg_regs` -/
def phyCfgRegs (regs : List RegMap) (isRmw : Bool) : List Acc :=
  regs.map fun (mmd, offset, val) => if isRmw then phyMmdRegModify mmd offset val val else phyMmdRegWr mmd offset val

/-- `LAN887X_MIS_DLL_EN_` -/
def misDllEn : BitVec 16 := bit 15 ||| bit 0

/-- `IS_LAN887X_B0_PROTOS` -/
def isB0Protos (id : BitVec 32) : Bool := id &&& 0xFFFFF2#32 = 0x7C002#32

/-- The accesses of `lan887x_rgmii_setup` before it reads the delays. -/
def rgmiiAccesses : List Acc :=
  [phyMmdRegClearBits .vend1 0xF01A (bit 0), phyMmdRegModify .vend1 0x0A00 3 0x01, phyMmdRegClearBits .vend1 0xF034 (bit 9),
    phyMmdRegClearBits .vend1 0x0A00 (bit 5)]

/-- The accesses of `lan887x_sgmii_setup`. -/
def sgmiiAccesses (b0Protos macIfAnegEna : Bool) : List Acc :=
  phyMmdRegSetBits .vend1 0xF01A (bit 0) ::
    ((if b0Protos then [phyMmdRegSetBits .vend1 0xF01A (bit 1 ||| bit 2)] else []) ++
    [phyMmdRegModify .vend1 0x0A00 3 0x03, phyMmdRegSetBits .vend1 0x0A00 (bit 5), phyMmdRegSetBits .vend1 0xF034 (bit 9)] ++
    if macIfAnegEna then
      [phyMmdRegSetBits .vend1 0xF035 (bit 3 ||| bit 4), phyMmdRegSetBits .vend1 0xF020 (bit 0)]
    else [phyMmdRegClearBits .vend1 0xF035 (bit 3), phyMmdRegClearBits .vend1 0xF020 (bit 0)])

/-- `lan887x_is_1g` -/
def is1g (conf : Conf) (mediaIntf : MediaInterface) : Bool :=
  if conf.speed = .auto then mediaIntf ≠ .t1_100fx ∧ conf.aneg1gFdx = true
  else mediaIntf ≠ .t1_100fx ∧ conf.speed = .g1

/-- The accesses of `lan887x_100m_scripts`. -/
def scripts100m (conf : Conf) : List Acc :=
  (if conf.speed = .auto ∨ conf.manNeg = .ref then
    [phyMmdRegWr .pmapmd 0x808B 0x00B8, phyMmdRegWr .pmapmd 0x80B0 0x0038, phyMmdRegWr .vend1 0x0422 0x000F]
  else [phyMmdRegWr .pmapmd 0x808B 0x0038, phyMmdRegWr .vend1 0x0422 0x0014]) ++
  [phyMmdRegSetBits .vend1 0x001A (bit 8)]

/-- The accesses of `lan887x_1000m_scripts`. -/
def scripts1000m (conf : Conf) : List Acc :=
  [phyMmdRegWr .pmapmd 0x80B0 0x003F, phyMmdRegWr .pmapmd 0x808B 0x00B8] ++
  if conf.speed = .auto then [phyMmdRegClearBits .pmapmd 0x810E (bit 4), phyMmdRegSetBits .vend1 0x001A (bit 8)]
  else [phyMmdRegSetBits .pmapmd 0x810E (bit 4)]

/-- The accesses of `lan887x_link_setup`. -/
def linkAccesses (conf : Conf) (mediaIntf : MediaInterface) : List Acc :=
  if is1g conf mediaIntf then scripts1000m conf else scripts100m conf

/-- What `lan887x_init_conf` advertises: `MDIO_AN_T1_ADV_M_MST`, and `_B1000` or `_B100`. -/
def advR2 (conf : Conf) (mediaIntf : MediaInterface) : BitVec 16 :=
  (if conf.manNeg ≠ .client then 0x0010 else 0) ||| if is1g conf mediaIntf then 0x0080 else 0x0020

/-- The word of `lan887x_pma_baset1_setup_forced`. -/
def forcedWord (conf : Conf) (mediaIntf : MediaInterface) : BitVec 16 :=
  (if conf.manNeg = .ref then 0x4000 else 0) ||| if is1g conf mediaIntf then 0x1 else 0

/-- The accesses of `lan887x_init_conf` before the link setup. -/
def modeAccesses (conf : Conf) (mediaIntf : MediaInterface) : List Acc :=
  if conf.speed = .auto then
    [phyMmdRegModify .an 0x0203 0x00B0 (advR2 conf mediaIntf), phyMmdRegWr .an 0x0202 0]
  else [phyMmdRegWr .pmapmd 0x0834 (forcedWord conf mediaIntf)]

/-- The accesses of `lan887x_init_conf` after it. -/
def anegAccesses (conf : Conf) : List Acc :=
  if conf.speed = .auto then [phyMmdRegSetBits .an 0x0200 (0x1000 ||| 0x0200)] else []

/-- The accesses of `lan887x_phy_reset`, for a soft reset. -/
def softResetAccesses : List Acc :=
  [phyMmdRegClearBits .pmapmd 0x810E (bit 4), phyMmdRegClearBits .vend1 0x001A (bit 8),
    phyMmdRegClearBits .an 0x0200 0x1000, phyMmdRegWr .vend1 0xF03F (bit 0), phyRegSetBits bmcr 0x8000]

/-- The mask of `lan887x_int_events_set`: its loop clears the bits of the enabled events, from bit `i` on. -/
def intMask (events : BitVec 32) : Nat → Nat → BitVec 16 → BitVec 16
  | 0, _, mask => mask
  | n + 1, i, mask => intMask events n (i + 1) (if events &&& (bit i).setWidth 32 ≠ 0#32 then mask &&& ~~~bit i else mask)

/-- The bits of `MIS_CFG_REG2` that `lan887x_setup_lpbk` changes. -/
def lpbkMask : BitVec 16 := bit 2 ||| bit 1 ||| bit 3

/-- What is kept of a request. -/
def lpbkKept : Option Loopback → Loopback
  | none => ⟨false, false, false⟩
  | some l =>
    if l.farEndEna then ⟨true, false, false⟩
    else if l.nearEndEna then ⟨false, true, false⟩
    else ⟨false, false, l.connectorEna⟩

/-- The accesses of `lan887x_setup_lpbk`. -/
def lpbkAccesses : Option Loopback → List Acc
  | none => [phyMmdRegModify .vend1 0x0A03 lpbkMask 0]
  | some l =>
    if l.farEndEna then [phyMmdRegModify .vend1 0x0A03 lpbkMask (bit 2)]
    else if l.nearEndEna then [phyMmdRegModify .vend1 0x0A03 lpbkMask (bit 1)]
    else [phyMmdRegWr .vend1 0x0C00 (if l.connectorEna then bit 1 else 0), phyMmdRegModify .vend1 0x0A03 lpbkMask 0]

/-- The accesses of `lan887x_phy_tc10_set_config`, but for those of the registers that keep the settings. -/
def tc10Accesses : List Acc :=
  [phyMmdRegModify .vend1 0x0010 (bit 5) (bit 5), phyMmdRegWr .vend1 0x0C25 0x274F,
    phyMmdRegModify .vend1 0x0C29 0 0x04, phyMmdRegModify .vend1 0x0125 (bit 5) (bit 5)]

/-! ## The calls -/

/-- The resets of `lan887x_int_reset`: `LAN887X_RST_SOFT`, `_SOFT_MAC` and `_SOFT_EXT`. -/
inductive ResetTyp
  | soft
  | softMac
  | softExt
  deriving DecidableEq, Repr

section Calls

variable {H : Type} (bus : Bus Reg 16 H) (polls : Nat)

/-- `MISC32` -/
abbrev misc32 : Reg := .mmd .vend1 Lan80xx.Lan887x.misc32

/-- `MISC36` -/
abbrev misc36 : Reg := .mmd .vend1 Lan80xx.Lan887x.misc36

/-- `lan887x_setup_lpbk` -/
def setupLpbk (loopback : Option Loopback) : Call Tc10.Data H Unit := do
  modifyConf (PhyData.setLoopback ⟨false, false, false⟩)
  match loopback with
  | none => script bus [phyMmdRegModify .vend1 0x0A03 lpbkMask 0]
  | some l =>
    if l.farEndEna then do
      modifyConf (PhyData.setLoopback ⟨true, false, false⟩)
      script bus [phyMmdRegModify .vend1 0x0A03 lpbkMask (bit 2)]
    else if l.nearEndEna then do
      modifyConf (PhyData.setLoopback ⟨false, true, false⟩)
      script bus [phyMmdRegModify .vend1 0x0A03 lpbkMask (bit 1)]
    else do
      script bus [phyMmdRegWr .vend1 0x0C00 (if l.connectorEna then bit 1 else 0)]
      modifyConf (PhyData.setLoopback ⟨false, false, l.connectorEna⟩)
      script bus [phyMmdRegModify .vend1 0x0A03 lpbkMask 0]

/-- `lan887x_rgmii_setup`; a delay is enabled or not, and the rest of the words is written as it was read. -/
def rgmiiSetup (rxDelay txDelay : Bool) : Call Tc10.Data H Unit := do
  script bus rgmiiAccesses
  let txc ← read bus Rc.access (.mmd .vend1 0x0A01)
  let rxc ← read bus Rc.access (.mmd .vend1 0x0A02)
  script bus [
    phyMmdRegModify .vend1 0x0A02 misDllEn (if rxDelay then rxc ||| misDllEn else rxc &&& ~~~misDllEn),
    phyMmdRegModify .vend1 0x0A01 misDllEn (if txDelay then txc ||| misDllEn else txc &&& ~~~misDllEn)]

/-- `lan887x_config_mac` -/
def configMac : Call Tc10.Data H Unit := do
  let d ← getConf
  match d.macIf with
  | .rgmii => rgmiiSetup bus false false
  | .rgmiiId => rgmiiSetup bus true true
  | .rgmiiRxid => rgmiiSetup bus true false
  | .rgmiiTxid => rgmiiSetup bus false true
  | .sgmii => script bus (sgmiiAccesses (isB0Protos d.dev.id) d.conf.macIfAnegEna)
  | .other _ => script bus [phyMmdRegClearBits .vend1 0x0A00 3]

/-- `lan887x_int_events_set` -/
def intEventsSet (event : BitVec 32) (enable : Bool) : Call Tc10.Data H Unit := do
  let d ← getConf
  let events := if enable then d.events ||| (event &&& 0xFFFF) else d.events &&& ~~~(event &&& 0xFFFF)
  modifyConf (PhyData.setEvents events)
  script bus [phyMmdRegWr .vend1 0xF001 (intMask events 16 0 0xFFFF)]

/-- A set call of TC10 about `MISC32`; it stores the setting that it was given. -/
def tc10One (word : BitVec 16 → Option (BitVec 16)) : Call Tc10.Data H Unit := do
  let v ← read bus Rc.access misc32
  match word v with
  | none => throw .errParm
  | some v' => write bus Rc.access misc32 v'

/-- A set call of TC10 about `MISC36` and `MISC32`. -/
def tc10Two (words : BitVec 16 → BitVec 16 → Option (BitVec 16 × BitVec 16)) : Call Tc10.Data H Unit := do
  let v₁ ← read bus Rc.access misc36
  let v₂ ← read bus Rc.access misc32
  match words v₁ v₂ with
  | none => throw .errParm
  | some v' => do
    write bus Rc.access misc36 v'.1
    write bus Rc.access misc32 v'.2

/-- `lan887x_phy_tc10_set_config` -/
def tc10SetConfig : Call Tc10.Data H Unit := do
  script bus (tc10Accesses ++ [.change misc32 0x8062 0x8062, .change misc36 0xA210 0xA210])
  let cfg := (← getConf).own
  tc10One bus (Lan80xx.Lan887x.sleepWord cfg.sleepEnable)
  tc10Two bus (Lan80xx.Lan887x.wakeupWords cfg.wakeupMode)
  tc10Two bus (Lan80xx.Lan887x.wakeupFwdWords cfg.wakeupFwdMode)
  tc10One bus (Lan80xx.Lan887x.polarityWord .wakeIn cfg.wakeInPol)
  tc10One bus (Lan80xx.Lan887x.polarityWord .wakeOut cfg.wakeOutPol)
  tc10One bus (Lan80xx.Lan887x.pinModeWord .wakeOut cfg.wakeOutMode)
  tc10One bus (Lan80xx.Lan887x.pinModeWord .inh cfg.inhMode)

/-- `lan887x_phy_cfg_clr` -/
def phyCfgClr : Call Tc10.Data H Unit := do
  script bus [phyMmdRegRd .vend1 0x0C22]
  setupLpbk bus none
  let d ← getConf
  intEventsSet bus d.events true
  isolateModeSet .lan887x bus false

/-- `lan887x_phy_init` -/
def phyInit : Call Tc10.Data H Unit := do
  configMac bus
  phyCfgClr bus

/-- `lan887x_phy_setup` -/
def phySetup : Call Tc10.Data H Unit := do
  phyGetDeviceInfo bus
  let d ← getConf
  when (d.initDone = false) do
    when (isB0Protos d.dev.id = true) (tryAll bus Rc.access (phyCfgRegs phyEn true))
    tryAll bus Rc.access (phyCfgRegs onetimeSetup false)
  modifyConf (PhyData.setInitDone true)
  tc10SetConfig bus
  phyInit bus

/-- `lan887x_init_conf`; failures of the link setup are ignored. -/
def initConf : Call Tc10.Data H Unit := do
  let d ← getConf
  when (d.conf.adminEnable = true) do
    script bus (phyRegClearBits bmcr (bit 11) :: modeAccesses d.conf d.mediaIntf)
    let _ ← attempt (script bus (linkAccesses d.conf d.mediaIntf) : Call Tc10.Data H Unit)
    script bus (anegAccesses d.conf)

/-- The loop of `lan887x_phy_reset`; a read that fails leaves the word 0. -/
def awaitReset : Nat → Call Tc10.Data H Unit
  | 0 => pure ()
  | n + 1 => do
    let tmp ← attempt (read bus Rc.access bmcr)
    when (tmp.getD 0 &&& 0x8000 = 0x8000#16) (awaitReset n)

/-- `lan887x_phy_reset`, for a soft reset; `polls` is what fits into its four seconds. -/
def phyReset : Call Tc10.Data H Unit := do
  script bus softResetAccesses
  awaitReset bus polls

/-- `lan887x_int_reset` -/
def intReset (typ : ResetTyp) : Call Tc10.Data H Unit := do
  phyReset bus polls
  isolateModeSet .lan887x bus false
  when (typ = .softExt) (phySetup bus)
  when (typ = .softMac) (configMac bus)
  initConf bus
  phyGetDeviceInfo bus

end Calls

/-- `lan887x_check_media` -/
def checkMedia (d : PhyData Tc10.Data) (mediaIf : MediaInterface) (speed : Speed) : Option Rc :=
  if mediaIf.IsT1 then
    if mediaIf = .t1_100fx ∧ ((speed = .auto ∧ d.conf.aneg100mFdx = false) ∨ (speed ≠ .auto ∧ speed ≠ .m100)) then
      some .errParm
    else none
  else some .confNotSupported

/-- The LAN887x. -/
def lan887x {H : Type} (bus : Bus Reg 16 H) (polls : Nat) : Driver Tc10.Data H where
  checkMedia := checkMedia
  appliesMacAneg := true
  enable macAneg := intReset bus polls (if macAneg then .softMac else .soft)
  powerDown := script bus [phyRegSetBits bmcr (bit 11)]
  mediaReset := intReset bus polls .soft
  ifReset := intReset bus polls .softMac
  resetMedia d mediaIf := .ok (if mediaIf.IsT1 then d.storeMedia mediaIf else d)
  resetInit := intReset bus polls .softExt
  setupLpbk := setupLpbk bus

/-! ## What a reset does -/

/-- The accesses of `lan887x_rgmii_setup`, with the delays that they make. -/
def rgmiiDelays (rxDelay txDelay : Bool) : List Acc := rgmiiAccesses ++
  [phyMmdRegModify .vend1 0x0A02 misDllEn (if rxDelay then misDllEn else 0),
    phyMmdRegModify .vend1 0x0A01 misDllEn (if txDelay then misDllEn else 0)]

/-- Those of `lan887x_config_mac`. -/
def macAccesses (d : PhyData Tc10.Data) : List Acc :=
  match d.macIf with
  | .rgmii => rgmiiDelays false false
  | .rgmiiId => rgmiiDelays true true
  | .rgmiiRxid => rgmiiDelays true false
  | .rgmiiTxid => rgmiiDelays false true
  | .sgmii => sgmiiAccesses (isB0Protos d.dev.id) d.conf.macIfAnegEna
  | .other _ => [phyMmdRegClearBits .vend1 0x0A00 3]

/-- Those of the first `lan887x_phy_setup`. -/
def tableAccesses (d : PhyData Tc10.Data) : List Acc :=
  if d.initDone then [] else
    (if isB0Protos d.dev.id then phyCfgRegs phyEn true else []) ++ phyCfgRegs onetimeSetup false

/-- Those of `lan887x_phy_cfg_clr`, but for the LEDs. -/
def clrAccesses (d : PhyData Tc10.Data) : List Acc :=
  phyMmdRegRd .vend1 0x0C22 :: lpbkAccesses none ++
  [phyMmdRegWr .vend1 0xF001 (intMask (d.events ||| (d.events &&& 0xFFFF)) 16 0 0xFFFF), isolateAccess false]

/-- Those of `lan887x_phy_setup`, but for the TC10 settings and the LEDs. -/
def setupAccesses (d : PhyData Tc10.Data) : List Acc :=
  tableAccesses d ++ (tc10Accesses ++ (macAccesses d ++ clrAccesses d))

/-- Those of `lan887x_init_conf`. -/
def initAccesses (d : PhyData Tc10.Data) : List Acc :=
  if d.conf.adminEnable then
    phyRegClearBits bmcr (bit 11) :: modeAccesses d.conf d.mediaIntf ++ linkAccesses d.conf d.mediaIntf ++
      anegAccesses d.conf
  else []

/-- Those that depend on the kind of a reset. -/
def extraAccesses (typ : ResetTyp) (d : PhyData Tc10.Data) : List Acc :=
  match typ with
  | .soft => []
  | .softMac => macAccesses d
  | .softExt => setupAccesses d

/-- Those of `lan887x_int_reset`. -/
def resetAccesses (typ : ResetTyp) (d : PhyData Tc10.Data) : List Acc :=
  softResetAccesses ++ (isolateAccess false :: (extraAccesses typ d ++ initAccesses d))

/-- What `lan887x_phy_setup` makes of the data. -/
def setupData (d : PhyData Tc10.Data) : PhyData Tc10.Data :=
  ((d.setInitDone true).setLoopback ⟨false, false, false⟩).setEvents (d.events ||| (d.events &&& 0xFFFF))

/-- The data after `lan887x_int_reset`. -/
def resetData (typ : ResetTyp) (d : PhyData Tc10.Data) : PhyData Tc10.Data := if typ = .softExt then setupData d else d

/-! ### The registers they write -/

/-- `lan887x_config_mac` -/
def macRegs : List Reg :=
  [.mmd .vend1 0xF01A, .mmd .vend1 0x0A00, .mmd .vend1 0xF034, .mmd .vend1 0x0A02, .mmd .vend1 0x0A01, .mmd .vend1 0xF035,
    .mmd .vend1 0xF020]

/-- `lan887x_link_setup`, and the registers of the auto-negotiation and of the forced mode -/
def linkRegs : List Reg :=
  [.mmd .an 0x0203, .mmd .an 0x0202, .mmd .pmapmd 0x0834, .mmd .pmapmd 0x808B, .mmd .pmapmd 0x80B0, .mmd .vend1 0x0422,
    .mmd .vend1 0x001A, .mmd .pmapmd 0x810E, .mmd .an 0x0200]

/-- `lan887x_init_conf` -/
def initRegs : List Reg := bmcr :: linkRegs

/-- `lan887x_phy_setup`, but for the MAC -/
def setupRegs : List Reg :=
  writesOf (phyCfgRegs phyEn true ++ phyCfgRegs onetimeSetup false ++ tc10Accesses) ++
    [.mmd .vend1 0x0A03, .mmd .vend1 0xF001, bmcr]

/-- `lan887x_setup_lpbk` -/
def lpbkRegs : List Reg := [.mmd .vend1 0x0A03, .mmd .vend1 0x0C00]

theorem writesOf_lpbkAccesses (loopback : Option Loopback) : ∀ q ∈ writesOf (lpbkAccesses loopback), q ∈ lpbkRegs := by
  unfold lpbkAccesses
  split
  · decide
  · split_ifs <;> decide

theorem writesOf_macAccesses (d : PhyData Tc10.Data) : ∀ q ∈ writesOf (macAccesses d), q ∈ macRegs := by
  unfold macAccesses
  cases d.macIf with
  | sgmii =>
    have hall : ∀ b0Protos macIfAnegEna, ∀ q ∈ writesOf (sgmiiAccesses b0Protos macIfAnegEna), q ∈ macRegs := by decide
    exact hall _ _
  | rgmii | rgmiiId | rgmiiRxid | rgmiiTxid =>
    exact (by decide : ∀ q ∈ writesOf (rgmiiDelays false false), q ∈ macRegs)
  | other => exact (by decide : ∀ q ∈ writesOf [phyMmdRegClearBits .vend1 0x0A00 3], q ∈ macRegs)

theorem writesOf_initAccesses (d : PhyData Tc10.Data) : ∀ q ∈ writesOf (initAccesses d), q ∈ initRegs := by
  unfold initAccesses modeAccesses linkAccesses scripts1000m scripts100m anegAccesses
  split_ifs <;> simp [writesOf, Access.writes, phyRegClearBits, phyMmdRegModify, phyMmdRegWr, phyMmdRegSetBits,
    phyMmdRegClearBits, initRegs, linkRegs]

theorem writesOf_setupAccesses (d : PhyData Tc10.Data) :
    ∀ q ∈ writesOf (setupAccesses d), q ∈ macRegs ∨ q ∈ setupRegs := by
  have htable : ∀ q ∈ writesOf (tableAccesses d), q ∈ setupRegs := by
    unfold tableAccesses
    split_ifs <;> decide
  have hclr : ∀ q ∈ writesOf (clrAccesses d), q ∈ setupRegs :=
    (by decide : ∀ q ∈ [(.mmd .vend1 0x0A03 : Reg), .mmd .vend1 0xF001, bmcr], q ∈ setupRegs)
  intro q hq
  simp only [setupAccesses, mem_writesOf_append] at hq
  rcases hq with hq | hq | hq | hq
  · exact Or.inr (htable q hq)
  · exact Or.inr ((by decide : ∀ q ∈ writesOf tc10Accesses, q ∈ setupRegs) q hq)
  · exact Or.inl (writesOf_macAccesses d q hq)
  · exact Or.inr (hclr q hq)

/-- The identifier is not among them. -/
theorem physid_of_writesOf {typ : ResetTyp} {d : PhyData Tc10.Data} {q : Reg} (hq : q ∈ writesOf (resetAccesses typ d)) :
    q ≠ physid1 ∧ q ≠ physid2 := by
  have hmac : ∀ q ∈ macRegs, q ≠ physid1 ∧ q ≠ physid2 := by decide
  have hinit : ∀ q ∈ initRegs, q ≠ physid1 ∧ q ≠ physid2 := by decide
  have hsetup : ∀ q ∈ setupRegs, q ≠ physid1 ∧ q ≠ physid2 := by decide
  have hsoft : ∀ q ∈ writesOf (softResetAccesses ++ [isolateAccess false]), q ≠ physid1 ∧ q ≠ physid2 := by decide
  have hextra : ∀ q ∈ writesOf (extraAccesses typ d), q ∈ macRegs ∨ q ∈ setupRegs := by
    cases typ with
    | soft => exact fun q hq => absurd hq List.not_mem_nil
    | softMac => exact fun q hq => Or.inl (writesOf_macAccesses d q hq)
    | softExt => exact writesOf_setupAccesses d
  rw [resetAccesses, List.append_cons] at hq
  rcases mem_writesOf_append.mp hq with hq | hq
  · exact hsoft q hq
  rcases mem_writesOf_append.mp hq with hq | hq
  · exact (hextra q hq).elim (hmac q) (hsetup q)
  · exact hinit q (writesOf_initAccesses d q hq)

/-- The settings that the driver keeps are ones that TC10 has. -/
def Tc10Accepted (cfg : Tc10.Data) : Prop :=
  ∀ v, Lan80xx.Lan887x.polarityWord .wakeIn cfg.wakeInPol v ≠ none ∧
    Lan80xx.Lan887x.polarityWord .wakeOut cfg.wakeOutPol v ≠ none ∧
    Lan80xx.Lan887x.pinModeWord .wakeOut cfg.wakeOutMode v ≠ none ∧ Lan80xx.Lan887x.pinModeWord .inh cfg.inhMode v ≠ none

/-- The identifier is among the registers, those of the LEDs and of the TC10 settings are not. -/
structure Tracks (S : List Reg) : Prop where
  id1 : physid1 ∈ S
  id2 : physid2 ∈ S
  led1Led0 : Chip.lan887x.led1Led0 ∉ S
  led3Led2 : Chip.lan887x.led3Led2 ∉ S
  misc32 : misc32 ∉ S
  misc36 : misc36 ∉ S

section On

variable {H : Type} (rf : PhyBus H) {S : List Reg} {h₀ : H} {c : PhyData Tc10.Data} {m : Bits Reg 16}
  {E : Dev (PhyData Tc10.Data) H → Prop}

variable (hs : rf.Sound h₀)

include hs

theorem ends_setupLpbk (loopback : Option Loopback) :
    Ends (SeesOn rf S h₀ c m) (setupLpbk rf.toBus loopback)
      (fun _ => SeesOn rf S h₀ (c.setLoopback (lpbkKept loopback)) (applyAll live (lpbkAccesses loopback) m)) E := by
  refine (ends_modifyConf_on rf _).bind fun _ => ?_
  cases loopback with
  | none => exact ends_script_on rf hs _
  | some l =>
    by_cases hfar : l.farEndEna = true
    · simp only [lpbkKept, lpbkAccesses, if_pos hfar]
      exact (ends_modifyConf_on rf _).bind fun _ => ends_script_on rf hs _
    · by_cases hnear : l.nearEndEna = true
      · simp only [lpbkKept, lpbkAccesses, if_neg hfar, if_pos hnear]
        exact (ends_modifyConf_on rf _).bind fun _ => ends_script_on rf hs _
      · simp only [lpbkKept, lpbkAccesses, if_neg hfar, if_neg hnear]
        refine (ends_script_on rf hs _).bind fun _ => (ends_modifyConf_on rf _).bind fun _ => ?_
        refine (ends_script_on rf hs _).weaken (fun _ s hsee => ?_) fun _ h => h
        rw [applyAll_cons]
        exact hsee

theorem ends_rgmiiSetup (rxDelay txDelay : Bool) : Ends (SeesOn rf S h₀ c m) (rgmiiSetup rf.toBus rxDelay txDelay)
    (fun _ => SeesOn rf S h₀ c (applyAll live (rgmiiDelays rxDelay txDelay) m)) E := by
  refine Ends.seesOn rf fun m => (ends_runAll_sound rf Rc.access hs _).bind fun _ => ?_
  refine (ends_read_sees rf Rc.access _ fun _ hno _ => absurd hs hno).bind fun txc => ?_
  rintro s ⟨hsee, htx⟩
  refine ((ends_read_sees rf Rc.access _ fun _ hno _ => absurd hs hno).bind fun rxc => ?_) s hsee
  rintro s ⟨hsee, hrx⟩
  have htx' : shows live (.mmd .vend1 0x0A01) txc (applyAll live
      [phyMmdRegModify .vend1 0x0A02 misDllEn (if rxDelay then misDllEn else 0)] (applyAll live rgmiiAccesses m)) := by
    intro b hl
    rw [applyAll_frame (by simp [writesOf, phyMmdRegModify, Access.writes])]
    exact htx b hl
  refine (ends_runAll_sound rf Rc.access hs _).weaken (fun _ t ht => ?_) (fun _ h => h) s hsee
  simp only [phyMmdRegModify] at ht htx' ⊢
  rwa [applyAll_cons, applyAll_enabled rxDelay hrx, applyAll_enabled txDelay htx', ← applyAll_cons,
    ← applyAll_append] at ht

theorem ends_configMac : Ends (SeesOn rf S h₀ c m) (configMac rf.toBus)
    (fun _ => SeesOn rf S h₀ c (applyAll live (macAccesses c) m)) E := by
  refine ends_getConf_on rf ?_
  unfold macAccesses
  cases c.macIf with
  | rgmii | rgmiiId | rgmiiRxid | rgmiiTxid => exact ends_rgmiiSetup rf hs _ _
  | sgmii | other => exact ends_script_on rf hs _

theorem ends_tc10One (hS : misc32 ∉ S) {word : BitVec 16 → Option (BitVec 16)} (hword : ∀ v, word v ≠ none) :
    Ends (SeesOn rf S h₀ c m) (tc10One rf.toBus word) (fun _ => SeesOn rf S h₀ c m) E := by
  refine (ends_read_any rf hs misc32).bind fun v => ?_
  obtain ⟨v', hv'⟩ := Option.ne_none_iff_exists'.mp (hword v)
  rw [hv']
  exact ends_write_off rf hs hS v'

theorem ends_tc10Two (hS : Tracks S) {words : BitVec 16 → BitVec 16 → Option (BitVec 16 × BitVec 16)}
    (hwords : ∀ v₁ v₂, words v₁ v₂ ≠ none) :
    Ends (SeesOn rf S h₀ c m) (tc10Two rf.toBus words) (fun _ => SeesOn rf S h₀ c m) E := by
  refine (ends_read_any rf hs misc36).bind fun v₁ => (ends_read_any rf hs misc32).bind fun v₂ => ?_
  obtain ⟨v', hv'⟩ := Option.ne_none_iff_exists'.mp (hwords v₁ v₂)
  rw [hv']
  exact (ends_write_off rf hs hS.misc36 _).bind fun _ => ends_write_off rf hs hS.misc32 _

/-- The TC10 settings; they leave all else alone. -/
theorem ends_tc10SetConfig (hS : Tracks S) (hcfg : Tc10Accepted c.own) :
    Ends (SeesOn rf S h₀ c m) (tc10SetConfig rf.toBus) (fun _ => SeesOn rf S h₀ c (applyAll live tc10Accesses m)) E := by
  have hmisc : ∀ q ∈ S, q ∉ writesOf [(.change misc32 0x8062 0x8062 : Acc), .change misc36 0xA210 0xA210] := by
    intro q hq hmem
    have hor : q = misc32 ∨ q = misc36 := by simpa [writesOf, Access.writes] using hmem
    rcases hor with rfl | rfl
    · exact hS.misc32 hq
    · exact hS.misc36 hq
  refine (ends_script_append_off rf hs tc10Accesses hmisc).bind fun _ => ends_getConf_on rf ?_
  refine (ends_tc10One rf hs hS.misc32 fun v => Option.some_ne_none _).bind fun _ => ?_
  refine (ends_tc10Two rf hs hS fun _ _ => Option.some_ne_none _).bind fun _ => ?_
  refine (ends_tc10Two rf hs hS fun _ _ => Option.some_ne_none _).bind fun _ => ?_
  refine (ends_tc10One rf hs hS.misc32 fun v => (hcfg v).1).bind fun _ => ?_
  refine (ends_tc10One rf hs hS.misc32 fun v => (hcfg v).2.1).bind fun _ => ?_
  refine (ends_tc10One rf hs hS.misc32 fun v => (hcfg v).2.2.1).bind fun _ => ?_
  exact ends_tc10One rf hs hS.misc32 fun v => (hcfg v).2.2.2

theorem ends_intEventsSet (event : BitVec 32) : Ends (SeesOn rf S h₀ c m) (intEventsSet rf.toBus event true)
    (fun _ => SeesOn rf S h₀ (c.setEvents (c.events ||| (event &&& 0xFFFF)))
      (applyAll live [phyMmdRegWr .vend1 0xF001 (intMask (c.events ||| (event &&& 0xFFFF)) 16 0 0xFFFF)] m)) E :=
  ends_getConf_on rf ((ends_modifyConf_on rf _).bind fun _ => ends_script_on rf hs _)

theorem ends_isolateModeSet (hS : Tracks S) (hleds : LedsAccepted c) (en : Bool) :
    Ends (SeesOn rf S h₀ c m) (isolateModeSet .lan887x rf.toBus en)
      (fun _ => SeesOn rf S h₀ c (applyAll live [isolateAccess en] m)) E :=
  (ends_script_on rf hs _).bind fun _ => ends_configLeds_off rf hs hS.led1Led0 hS.led3Led2 hleds en

theorem ends_phyCfgClr (hS : Tracks S) (hleds : LedsAccepted c) : Ends (SeesOn rf S h₀ c m) (phyCfgClr rf.toBus)
    (fun _ => SeesOn rf S h₀ ((c.setLoopback ⟨false, false, false⟩).setEvents (c.events ||| (c.events &&& 0xFFFF)))
      (applyAll live (clrAccesses c) m)) E := by
  refine (ends_script_on rf hs _).bind fun _ => (ends_setupLpbk rf hs none).bind fun _ => ends_getConf_on rf ?_
  refine (ends_intEventsSet rf hs _).bind fun _ => ?_
  have hleds' : LedsAccepted ((c.setLoopback (lpbkKept none)).setEvents (c.events ||| (c.events &&& 0xFFFF))) := hleds
  refine (ends_isolateModeSet rf hs hS hleds' false).weaken (fun _ s hsee => ?_) fun _ h => h
  rw [← applyAll_append, ← applyAll_append, ← applyAll_append] at hsee
  exact hsee

theorem ends_phySetup (hS : Tracks S) (hleds : LedsAccepted c) (hcfg : Tc10Accepted c.own) (hid : Ids m c.dev) :
    Ends (SeesOn rf S h₀ c m) (phySetup rf.toBus)
      (fun _ => SeesOn rf S h₀ (setupData c) (applyAll live (setupAccesses c) m)) E := by
  refine (ends_phyGetDeviceInfo_on rf hs hS.id1 hS.id2 hid).bind fun _ => ends_getConf_on rf ?_
  have htables : Ends (SeesOn rf S h₀ c m) (when (c.initDone = false) do
        when (isB0Protos c.dev.id = true) (tryAll rf.toBus Rc.access (phyCfgRegs phyEn true))
        tryAll rf.toBus Rc.access (phyCfgRegs onetimeSetup false) : Call Tc10.Data H Unit)
      (fun _ => SeesOn rf S h₀ c (applyAll live (tableAccesses c) m)) E := by
    unfold tableAccesses
    cases c.initDone with
    | true => exact Ends.pure fun s hsee => by simpa using hsee
    | false =>
      rw [if_neg Bool.false_ne_true, applyAll_append]
      refine Ends.when (fun _ => ?_) fun h => absurd rfl h
      refine Ends.bind ?_ fun _ => ends_tryAll_on rf Rc.access hs _
      cases isB0Protos c.dev.id with
      | true => exact Ends.when (fun _ => ends_tryAll_on rf Rc.access hs _) fun h => absurd rfl h
      | false => exact Ends.when (fun h => absurd h Bool.false_ne_true) fun _ s hsee => by simpa using hsee
  refine htables.bind fun _ => (ends_modifyConf_on rf _).bind fun _ => ?_
  have hcfg' : Tc10Accepted (c.setInitDone true).own := hcfg
  have hleds' : LedsAccepted (c.setInitDone true) := hleds
  refine (ends_tc10SetConfig rf hs hS hcfg').bind fun _ => (ends_configMac rf hs).bind fun _ => ?_
  refine (ends_phyCfgClr rf hs hS hleds').weaken (fun _ s hsee => ?_) fun _ h => h
  rw [← applyAll_append, ← applyAll_append, ← applyAll_append] at hsee
  exact hsee

theorem ends_initConf : Ends (SeesOn rf S h₀ c m) (initConf rf.toBus)
    (fun _ => SeesOn rf S h₀ c (applyAll live (initAccesses c) m)) E := by
  refine ends_getConf_on rf ?_
  unfold initAccesses
  refine Ends.ite (fun hadmin => ?_) fun hadmin => ?_
  · rw [if_pos hadmin, applyAll_append, applyAll_append]
    refine (ends_script_on rf hs _).bind fun _ => ?_
    refine (ends_script_on rf (E := fun _ => False) hs _).attempt.bind fun o => ?_
    refine (ends_script_on rf hs _).pre ?_
    rintro s (⟨-, -, hsee⟩ | ⟨-, hf⟩)
    · exact hsee
    · exact hf.elim
  · rw [if_neg hadmin, applyAll_nil]
    exact Ends.pure fun _ h => h

theorem ends_awaitReset (n : Nat) : Ends (SeesOn rf S h₀ c m) (awaitReset rf.toBus n)
    (fun _ => SeesOn rf S h₀ c m) E := by
  induction n with
  | zero => exact Ends.pure fun _ h => h
  | succ n ih =>
    refine (ends_read_any rf (E := fun _ => False) hs bmcr).attempt.bind fun o => ?_
    refine Ends.pre (Ends.when (fun _ => ih) fun _ _ h => h) ?_
    rintro s (⟨-, -, hsee⟩ | ⟨-, hf⟩)
    · exact hsee
    · exact hf.elim

/-- The end of every reset. -/
theorem ends_initConf_info (hS : Tracks S) (hid : Ids m c.dev) :
    Ends (SeesOn rf S h₀ c m) (do
      initConf rf.toBus
      phyGetDeviceInfo rf.toBus)
      (fun _ => SeesOn rf S h₀ c (applyAll live (initAccesses c) m)) E := by
  have hoff : ∀ q, q = physid1 ∨ q = physid2 → q ∉ writesOf (initAccesses c) := by
    rintro q hq hmem
    have := writesOf_initAccesses c q hmem
    rcases hq with rfl | rfl <;> exact absurd this (by decide)
  refine (ends_initConf rf hs).bind fun _ => ends_phyGetDeviceInfo_on rf hs hS.id1 hS.id2 ?_
  exact hid.applyAll (hoff _ (Or.inl rfl)) (hoff _ (Or.inr rfl))

/-- **Resets.** -/
theorem ends_intReset (hS : Tracks S) (hleds : LedsAccepted c) (hcfg : Tc10Accepted c.own) (hid : Ids m c.dev)
    (polls : Nat) (typ : ResetTyp) : Ends (SeesOn rf S h₀ c m) (intReset rf.toBus polls typ)
      (fun _ => SeesOn rf S h₀ (resetData typ c) (applyAll live (resetAccesses typ c) m)) E := by
  refine ((ends_script_on rf hs _).bind fun _ => ends_awaitReset rf hs polls).bind fun _ => ?_
  refine (ends_isolateModeSet rf hs hS hleds false).bind fun _ => ?_
  rw [resetAccesses, List.append_cons, applyAll_append, @applyAll_append _ _ _ live _ softResetAccesses]
  have hid' : Ids (applyAll live [isolateAccess false] (applyAll live softResetAccesses m)) c.dev :=
    (hid.applyAll (by decide) (by decide)).applyAll (by decide) (by decide)
  rw [applyAll_append]
  cases typ with
  | soft =>
    refine (Ends.when (by rintro ⟨⟩) fun _ _ h => h).bind fun _ => (Ends.when (by rintro ⟨⟩) fun _ _ h => h).bind fun _ => ?_
    simpa [extraAccesses, resetData] using ends_initConf_info rf hs hS hid'
  | softMac =>
    refine (Ends.when (by rintro ⟨⟩) fun _ _ h => h).bind fun _ => ?_
    refine (Ends.when (fun _ => ends_configMac rf hs) fun h => absurd rfl h).bind fun _ => ?_
    refine ends_initConf_info rf hs hS (hid'.applyAll ?_ ?_) <;>
      exact fun hmem => absurd (writesOf_macAccesses c _ hmem) (by decide)
  | softExt =>
    refine (Ends.when (fun _ => ends_phySetup rf hs hS hleds hcfg hid') fun h => absurd rfl h).bind fun _ => ?_
    refine (Ends.when (by rintro ⟨⟩) fun _ _ h => h).bind fun _ => ?_
    refine ends_initConf_info rf hs hS (c := setupData c) (hid'.applyAll ?_ ?_) <;>
      exact fun hmem => absurd (writesOf_setupAccesses c _ hmem) (by decide)

end On

end Lan80xx.T1.Lan887x
