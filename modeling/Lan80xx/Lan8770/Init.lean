import Lan80xx.Lan8770.Tc10

/-!
# LAN8770: initialisation, configuration, reset

`phyInitConf` resets the PHY and loads the settings of the manufacturer, in which the wake-up registers get fixed values.
It runs before the first configuration, when the role changes, and at a reset, which writes the TC10 settings afterwards.
-/

namespace Lan80xx.Lan8770

open Fallible RegBus Tc10

/-! ## Registers -/

/-- `LAN8770_PHY_ID1_OFFSET` -/
def phyId1 : BitVec 8 := 0x02
/-- `LAN8770_PHY_ID2_OFFSET` -/
def phyId2 : BitVec 8 := 0x03
/-- `LAN8770_PCS_CTRL_OFFSET` -/
def pcsCtrl : BitVec 8 := 0x17
/-- `LAN8770_POWER_DOWN_CTRL_OFFSET` -/
def powerDownCtrl : BitVec 8 := 0x1A
/-- `LAN8770_MISC_INT2_SRC_OFFSET` -/
def miscInt2Src : BitVec 8 := 0x08
/-- `LAN8770_MISC_INT2_MASK_OFFSET` -/
def miscInt2Mask : BitVec 8 := 0x09
/-- `LAN8770_MISC_WKP_COM_CTL1_OFFSET` -/
def miscWkpComCtl1 : BitVec 8 := 0x21
/-- `LAN8770_MISC_WKP_PRT_CTL2_OFFSET` -/
def miscWkpPrtCtl2 : BitVec 8 := 0x25
/-- `LAN8770_PCS_SLEEP_WAKE_DET_OFFSET` -/
def pcsSleepWakeDet : BitVec 8 := 0x20
/-- `LAN8770_AFE_PORT_CFG1_OFFSET` -/
def afePortCfg1 : BitVec 8 := 0x0B

/-- `LAN8770_BASIC_CTRL_POWER_DOWN` -/
def powerDown : BitVec 16 := bit 11
/-- `LAN8770_BASIC_CTRL_SW_RESET` -/
def swReset : BitVec 16 := bit 15
/-- `LAN8770_MASTER_SLAVE_CTRL_MAN_CFG_VAL` -/
def manCfgVal : BitVec 16 := bit 11
/-- `LAN8770_MASTER_SLAVE_CTRL_MAN_CFG_EN` -/
def manCfgEn : BitVec 16 := bit 12
/-- `LAN8770_MASTER_SLAVE_STATUS_CFG_RESOL` -/
def cfgResol : BitVec 16 := bit 14
/-- `LAN8770_POWER_DOWN_CTRL_HW_INIT_EN` -/
def hwInitEn : BitVec 16 := bit 8
/-- `LAN8770_POWER_DOWN_CTRL_FORCE_TX_EN` -/
def forceTxEn : BitVec 16 := bit 9

/-! ## Scripts -/

/-- A value for a register of a bank. -/
abbrev BankValue := BitVec 16 × BitVec 8 × BitVec 16

/-- Slave DSP config, auto polarity fix -/
def slaveScript : List BankValue :=
  [(bankDsp, 0x69, 0x0002), (bankDsp, 0x6A, 0x0002), (bankDsp, 0x6B, 0x0002), (bankDsp, 0x6C, 0x0002), -- EQ_FD_STG*_FRZ_CFG
    (bankDsp, 0x6D, 0x0002), (bankDsp, 0x6E, 0x0002), -- EQ_WT_FD_LCK_FRZ_CFG, PST_EQ_LCK_STG1_FRZ_CFG
    (bankDsp, 0x22, 0x0014), -- DSP_DFE_TAP1_INIT_COEF
    (bankPcs, 0x00, 0x6FFF)] -- PCS_DESCM_CONTROL0

/-- DSP config -/
def dspScript : List BankValue :=
  [(bankDsp, 0x05, 0x0AB1), (bankDsp, 0x06, 0x0AB3), -- DSP_CDR_CFG_PRE_LOCK, DSP_CDR_CFG_POST_LOCK
    (bankDsp, 0x11, 0x5274), -- DSP_EQU_LOCK_STG1_THR
    (bankDsp, 0x17, 0x0D74), (bankDsp, 0x18, 0x0D53), -- DSP_SLV_HD_MULT_CFG, DSP_SLV_FD_MULT_CFG
    (bankDsp, 0x25, 0x0360), (bankDsp, 0x54, 0x0C30), -- DSP_COEF_PROT_DIS, DSP_KP_LOOP_SAT_CFG
    (bankDsp, 0x1A, 0x0AEA), (bankDsp, 0x1B, 0x0AEB), (bankDsp, 0x1C, 0x0AEB), -- DSP_*_MUFACT_CFG
    (bankDsp, 0x02, 0x1C00)] -- TX_RX_FIFO_CFG

/-- TX IIR: the values for `DSP_TX_LPF_FIR_CFG` -/
def txIirValues : List (BitVec 16) :=
  [0x1000, 0x1821, 0x1021, 0x1842, 0x1042, 0x1863, 0x1063, 0x18a4, 0x10a4, 0x18c5, 0x10c5, 0x18e6, 0x10e6, 0x18c7, 0x10c7,
    0x18c8, 0x10c8, 0x1889, 0x1089, 0x184a, 0x104a, 0x180b, 0x100b, 0x180c, 0x100c, 0x180d, 0x100d, 0x180e, 0x100e, 0x180f,
    0x100f, 0x1810, 0x1010, 0x1811, 0x1011, 0x1000]

def txIirScript : List BankValue := txIirValues.map fun v => (bankDsp, 0x55, v)

/-- `DSP_SQI_CONFIG` -/
def sqiScript : List BankValue := [(bankDsp, 0x2E, 0x9572)]

section Calls

variable {C H : Type} (bus : SmiBus H) (n : Nat)

/-- Bank writes one after the other. -/
def writeScript : List BankValue → Call C H Unit
  | [] => pure ()
  | w :: ws => do
    phyExtBankRegWr bus n w.1 w.2.1 w.2.2
    writeScript ws

/-! ## The calls -/

/-- `phy_init_conf` -/
def phyInitConf (master : Bool) : Call C H Unit := do
  let intrVal ← phyDirectRegRd bus intrMask
  let intr2Val ← phyExtBankRegRd bus n bankMisc miscInt2Mask
  phyDirectRegWr bus powerDownCtrl forceTxEn
  phyDirectReadModWriteRegister bus basicControl swReset swReset
  phyDirectRegWr bus masterSlaveCtrl (manCfgEn ||| if master then manCfgVal else 0)
  phyDirectReadModWriteRegister bus basicControl swReset swReset
  phyExtBankRegWr bus n bankAfe afePortCfg1 0x002B
  phyDirectRegWr bus powerDownCtrl 0x0308
  phyDirectReadModWriteRegister bus pcsCtrl 0x0000 0x0380
  let value ← phyDirectRegRd bus masterSlaveStatus
  when (value &&& cfgResol = 0) do
    writeScript bus n slaveScript
  writeScript bus n dspScript
  writeScript bus n txIirScript
  writeScript bus n sqiScript
  phyDirectRegWr bus mdioCtrl2 0x0014
  phyDirectRegWr bus powerDownCtrl 0x0200
  phyDirectRegWr bus mdioCtrl2 0x0094
  awaitClear bus mdioCtrl2 0x0080 n
  phyExtBankRegWr bus n bankAfe afePortCfg1 0x000A
  let _ ← phyDirectRegRd bus intrSrc
  let _ ← phyExtBankRegRd bus n bankMisc miscInt2Src
  -- TC10
  phyReadModWriteRegister bus n bankMisc miscWkpComCtl0 0x0020 0x0020
  phyExtBankRegWr bus n bankPcs pcsSleepWakeDet 0x3C3C
  phyReadModWriteRegister bus n bankSmi mdioCtrl2 0x0020 0x0020
  phyReadModWriteRegister bus n bankMisc miscWkpComCtl1 0x2700 0xFF00
  phyReadModWriteRegister bus n bankMisc miscWkpComCtl0 0x8006 0x800E
  phyExtBankRegWr bus n bankMisc miscWkpPrtCtl1 0xD010
  phyReadModWriteRegister bus n bankMisc miscWkpPrtCtl2 0x0020 0x0020
  phyReadModWriteRegister bus n bankMisc miscWkpPrtCtl1 0x8100 0x8100
  phyReadModWriteRegister bus n bankMisc miscWkpComCtl1 0x0064 0x0064
  -- the interrupts again
  let value ← phyDirectRegRd bus intrMask
  when (value ≠ intrVal) do
    phyDirectRegWr bus intrMask intrVal
  let value ← phyExtBankRegRd bus n bankMisc miscInt2Mask
  when (value ≠ intr2Val) do
    phyExtBankRegWr bus n bankMisc miscInt2Mask intr2Val
  phyDirectRegWr bus powerDownCtrl (forceTxEn ||| hwInitEn)

/-- `phy_get_device_info` -/
def phyGetDeviceInfo : Call PhyData H Unit := do
  let val ← phyDirectRegRd bus phyId1
  modifyConf fun data => { data with dev.id := (val.setWidth 32 <<< 2) &&& 0x03FFFC }
  let val ← phyDirectRegRd bus phyId2
  modifyConf fun data => { data with
    dev.rev := (val &&& 0xF).setWidth 8
    dev.model := (val >>> 4 &&& 0x3F).setWidth 8
    dev.id := data.dev.id ||| ((val >>> 10 &&& 0x3F).setWidth 32 <<< 18) }
  let val ← phyDirectRegRd bus masterSlaveStatus
  modifyConf fun data => { data with dev.isMaster := val.getLsbD 14, dev.isMasterFault := val.getLsbD 15 }

/-- The write of the power-down bit. -/
def setPowerDown (adminEnable : Bool) : Call PhyData H Unit :=
  phyReadModWriteRegister bus n bankSmi basicControl (if adminEnable then 0 else powerDown) powerDown

/-- `phy_conf_set` -/
def phyConfSet (config : Conf) : Call PhyData H PUnit := do
  if ¬(config.manNeg = .ref ∨ config.manNeg = .client) ∨ config.fdx = false ∨ config.speed ≠ .m100 ∨
      config.macIfAnegEna = true then
    throw .errParm
  else do
    modifyConf fun data => { data with
      conf.speed := .m100, conf.fdx := true, conf.macIfAnegEna := false, conf.flowControl := config.flowControl }
    let data ← getConf
    when (data.initDone = false) do
      phyInitConf bus n (config.manNeg = .ref)
      modifyConf fun data => { data with initDone := true }
      setPowerDown bus n config.adminEnable
      modifyConf fun data => { data with conf.manNeg := config.manNeg, conf.adminEnable := config.adminEnable }
    let data ← getConf
    when (data.conf.manNeg ≠ config.manNeg) do
      phyInitConf bus n (config.manNeg = .ref)
    when (data.conf.adminEnable ≠ config.adminEnable) do
      setPowerDown bus n config.adminEnable
    modifyConf fun data => { data with
      conf.adminEnable := config.adminEnable
      conf.manNeg := if config.manNeg = .ref then .ref else .client }

/-- `phy_tc10_set_config` -/
def phyTc10SetConfig (cfg : Tc10.Data) : Call PhyData H PUnit := do
  phyTc10SetSleepSupport bus n cfg.sleepEnable
  phyTc10SetWakeupSupport bus n cfg.wakeupMode
  phyTc10SetWakeupFwdSupport bus n cfg.wakeupFwdMode
  phyTc10SetWakePinPolarity bus n .wakeIn cfg.wakeInPol
  phyTc10SetWakePinPolarity bus n .wakeOut cfg.wakeOutPol
  phyTc10SetPinMode bus n .wakeOut cfg.wakeOutMode
  phyTc10SetPinMode bus n .inh cfg.inhMode

/-- `lan8770_reset` -/
def lan8770Reset : Call PhyData H PUnit := do
  let data ← getConf
  phyInitConf bus n (data.conf.manNeg = .ref)
  modifyConf fun data => { data with initDone := true }
  phyGetDeviceInfo bus
  let data ← getConf
  phyConfSet bus n data.conf
  let data ← getConf
  phyTc10SetConfig bus n data.tc10

end Calls

end Lan80xx.Lan8770
