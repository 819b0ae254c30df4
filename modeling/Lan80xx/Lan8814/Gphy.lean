import Lan80xx.Lib.RegCalls

/-!
# LAN8814: a port of the gigabit PHY

Registers and data of one port, as far as the port configuration, the reset, the diagnostics, the loopbacks and the poll
use them. These functions do not look at the result of an access, and here every access succeeds.
-/

namespace Lan80xx.Lan8814.Gphy

open RegCalls

/-! ## Registers -/

/-- A register of a port: direct, of an extended page, or of an MMD device. -/
inductive Reg
  | direct (addr : Nat)
  | ext (page addr : Nat)
  | mmd (dev addr : Nat)
  deriving DecidableEq, Repr

/-- `LAN8814_BIT` -/
def bit (x : Nat) : BitVec 16 := 1#16 <<< x

/-- The bit, if the condition holds. -/
def bitIf (c : Bool) (x : Nat) : BitVec 16 := if c then bit x else 0

@[simp]
theorem getLsbD_bit {x : Nat} (hx : x < 16) (i : Nat) : (bit x).getLsbD i = decide (i = x) :=
  RegBus.getLsbD_one_shiftLeft x i hx

@[simp]
theorem getLsbD_bitIf (c : Bool) {x : Nat} (hx : x < 16) (i : Nat) : (bitIf c x).getLsbD i = (c && decide (i = x)) := by
  cases c <;> simp [bitIf, hx]

@[simp]
theorem getElem_bit {x : Nat} (hx : x < 16) (i : Nat) (hi : i < 16) : (bit x)[i] = decide (i = x) := by
  rw [← BitVec.getLsbD_eq_getElem, getLsbD_bit hx]

@[simp]
theorem getElem_bitIf (c : Bool) {x : Nat} (hx : x < 16) (i : Nat) (hi : i < 16) :
    (bitIf c x)[i] = (c && decide (i = x)) := by
  rw [← BitVec.getLsbD_eq_getElem, getLsbD_bitIf c hx]

/-- `LAN8814_BASIC_CONTROL` -/
abbrev basicControl : Reg := .direct 0
/-- `LAN8814_DEVICE_ID_2` -/
abbrev deviceId2 : Reg := .direct 3
/-- `LAN8814_ANEG_ADVERTISEMENT` -/
abbrev anegAdvertisement : Reg := .direct 4
/-- `LAN8814_ANEG_MSTR_SLV_CTRL` -/
abbrev anegMstrSlvCtrl : Reg := .direct 9
/-- `LAN8814_PCS_LOOP_POLARITY_CTRL` -/
abbrev pcsLoopPolarityCtrl : Reg := .direct 17
/-- `LAN8814_CABLE_DIAG` -/
abbrev cableDiag : Reg := .direct 18
/-- `LAN8814_GPHY_INTR_ENA` -/
abbrev gphyIntrEna : Reg := .direct 24
/-- `LAN8814_GPHY_INTR_STATUS` -/
abbrev gphyIntrStatus : Reg := .direct 27
/-- `LAN8814_GPHY_DBG_CTL1` -/
abbrev gphyDbgCtl1 : Reg := .direct 28
/-- `LAN8814_RESV_CON_LOOP` -/
abbrev resvConLoop : Reg := .direct 30
/-- `LAN8814_CONTROL` -/
abbrev control : Reg := .direct 31
/-- `LAN8814_FLF_CONFIG_STATUS` -/
abbrev flfConfigStatus : Reg := .ext 0 15
/-- `LAN8814_DFE_INIT2_100` -/
abbrev dfeInit2100 : Reg := .ext 1 119
/-- `LAN8814_PGA_TABLE_1G_ENTRY_0` and so on -/
abbrev pgaTable1gEntry (i : Nat) : Reg := .ext 1 (121 + i)
/-- `LAN8814_LINK_QUALITY_MONITOR_SETTING` -/
abbrev linkQualityMonitorSetting : Reg := .ext 1 142
/-- `LAN8814_PD_CONTROLS` -/
abbrev pdControls : Reg := .ext 1 157
/-- `LAN8814_OPERATION_MODE_STRAP_LOW` -/
abbrev operationModeStrapLow : Reg := .ext 2 2
/-- `LAN8814_SELFTEST_PKT_CNT_LO` -/
abbrev selftestPktCntLo : Reg := .ext 2 9
/-- `LAN8814_SELFTEST_PKT_CNT_HI` -/
abbrev selftestPktCntHi : Reg := .ext 2 10
/-- `LAN8814_SELFTEST_FRAME_CNT` -/
abbrev selftestFrameCnt : Reg := .ext 2 12
/-- `LAN8814_SELFTEST_PGEN_EN` -/
abbrev selftestPgenEn : Reg := .ext 2 13
/-- `LAN8814_SELFTEST_EN_REG` -/
abbrev selftestEnReg : Reg := .ext 2 14
/-- `LAN8814_1000BT_FIX_LATENCY_ENABLE` -/
abbrev fixLatencyEnable : Reg := .ext 2 15
/-- `LAN8814_ALIGN_SWAP` -/
abbrev alignSwap : Reg := .ext 2 74
/-- `LAN8814_OPERATION_MODE_STRAP_HIGH` -/
abbrev operationModeStrapHigh : Reg := .ext 2 81
/-- `LAN8814_EEE_WAKE_TX_TIMER` -/
abbrev eeeWakeTxTimer : Reg := .ext 3 14
/-- `LAN8814_INTR_CTRL` -/
abbrev intrCtrl : Reg := .ext 4 52
/-- `LAN8814_QSGMII_SOFT_RESET` -/
abbrev qsgmiiSoftReset : Reg := .ext 4 67
/-- `LAN8814_QSGMII_AUTO_ANEG` -/
abbrev qsgmiiAutoAneg : Reg := .ext 4 69
/-- `LAN8814_QSGMII_SERDES_MISC_CTRL` -/
abbrev qsgmiiSerdesMiscCtrl : Reg := .ext 4 137
/-- `LAN8814_QSGMII_PCS1G_ANEG_CONFIG` -/
abbrev qsgmiiPcs1gAnegConfig : Reg := .ext 5 19
/-- `LAN8814_QSGMII_PCS1G_ANEG_TX_ADVERTISE_CAP` -/
abbrev qsgmiiPcs1gAnegTxAdvertiseCap : Reg := .ext 5 20
/-- `LAN8814_QSGMII_PCS1G_DEBUG` -/
abbrev qsgmiiPcs1gDebug : Reg := .ext 5 24
/-- `LAN8814_RX_RA_FIFO_THRESHOLDS_1` to `_3` -/
abbrev rxRaFifoThresholds (i : Nat) : Reg := .ext 5 (31 + i)
/-- `LAN8814_TX_RA_FIFO_THRESHOLDS_1` to `_3` -/
abbrev txRaFifoThresholds (i : Nat) : Reg := .ext 5 (37 + i)
/-- `LAN8814_TX_RA_FIFO_RESET` -/
abbrev txRaFifoReset : Reg := .ext 5 44
/-- `LAN8814_RX_RA_FIFO_RESET` -/
abbrev rxRaFifoReset : Reg := .ext 5 45
/-- `LAN8814_PTP_TSU_INT_EN` -/
abbrev ptpTsuIntEn : Reg := .ext 5 512
/-- `LAN8814_PTP_TSU_GEN_CONF` -/
abbrev ptpTsuGenConf : Reg := .ext 5 704
/-- `LAN8814_ANALOG_CONTROL_4` -/
abbrev analogControl4 : Reg := .ext 28 4
/-- `LAN8814_AFED_CONTROL` -/
abbrev afedControl : Reg := .ext 28 9
/-- `LAN8814_POWER_MGMT_MODE_0` and so on -/
abbrev powerMgmtMode (i : Nat) : Reg := .ext 28 (16 + i)
/-- `LAN8814_ANALOG_CONTROL_1` -/
abbrev analogControl1 : Reg := .ext 29 1
/-- `LAN8814_ANALOG_CONTROL_10` -/
abbrev analogControl10 : Reg := .ext 29 13
/-- `LAN8814_CLOCK_MANAGEMENT_MODE_5` -/
abbrev clockManagementMode5 : Reg := .ext 31 13
/-- `LAN8814_EEE_ADVERTISEMENT` -/
abbrev eeeAdvertisement : Reg := .mmd 7 60

/-- `LAN8814_F_BASIC_CTRL_SPEED_SEL_BIT_1` -/
abbrev speedSelBit1 : BitVec 16 := bit 6
/-- `LAN8814_F_BASIC_CTRL_DUP_MODE` -/
abbrev dupMode : BitVec 16 := bit 8
/-- `LAN8814_F_BASIC_CTRL_RESTART_ANEG` -/
abbrev restartAneg : BitVec 16 := bit 9
/-- `LAN8814_F_BASIC_CTRL_SOFT_POW_DOWN` -/
abbrev softPowDown : BitVec 16 := bit 11
/-- `LAN8814_F_BASIC_CTRL_ANEG_ENA` -/
abbrev anegEna : BitVec 16 := bit 12
/-- `LAN8814_F_BASIC_CTRL_SPEED_SEL_BIT_0` -/
abbrev speedSelBit0 : BitVec 16 := bit 13
/-- `LAN8814_F_BASIC_CTRL_LOOPBACK` -/
abbrev basicCtrlLoopback : BitVec 16 := bit 14
/-- `LAN8814_F_ANEG_MSTR_SLV_CTRL_1000_T_FULL_DUP` -/
abbrev full1000T : BitVec 16 := bit 9
/-- `LAN8814_F_ANEG_MSTR_SLV_CTRL_CFG_VAL` -/
abbrev cfgVal : BitVec 16 := bit 11
/-- `LAN8814_F_ANEG_MSTR_SLV_CTRL_CFG_ENA` -/
abbrev cfgEna : BitVec 16 := bit 12
/-- `LAN8814_F_MDI_SET` -/
abbrev mdiSet : BitVec 16 := bit 7
/-- `LAN8814_F_SWAPOFF` -/
abbrev swapoff : BitVec 16 := bit 6

/-- The bits of the basic control register that clear themselves: `RESTART_ANEG` and `SOFT_RESET`. -/
def SelfClearing (b : Nat) : Prop := b = 9 ∨ b = 15

instance : DecidablePred SelfClearing := fun b => inferInstanceAs (Decidable (b = 9 ∨ b = 15))

/-! ## Data -/

/-- `mepa_port_speed_t` -/
inductive Speed
  | undefined
  | m10
  | m100
  | g1
  | m2500
  | g5
  | g10
  | g12
  | g25
  | auto
  deriving DecidableEq, Repr

/-- Auto-negotiation, with 1G forced through it. -/
def Speed.Negotiates (speed : Speed) : Prop := speed = .auto ∨ speed = .g1

instance (speed : Speed) : Decidable speed.Negotiates := inferInstanceAs (Decidable (speed = .auto ∨ speed = .g1))

/-- `mepa_manual_neg_t` -/
inductive ManualNeg
  | disabled
  | ref
  | client
  deriving DecidableEq, Repr

/-- `mepa_media_mode_t` -/
inductive MediaMode
  | auto
  | mdi
  | mdix
  deriving DecidableEq, Repr

/-- `mepa_aneg_adv_t`, as far as the port configuration looks at it. -/
structure AnegAdv where
  speed10mHdx : Bool
  speed10mFdx : Bool
  speed100mHdx : Bool
  speed100mFdx : Bool
  speed1gFdx : Bool
  txRemoteFault : Bool
  deriving DecidableEq, Repr

/-- `mepa_conf_t`, as far as the port configuration looks at it. -/
structure Conf where
  speed : Speed
  fdx : Bool
  flowControl : Bool
  adminEnable : Bool
  aneg : AnegAdv
  macIfAnegEna : Bool
  manNeg : ManualNeg
  mdiMode : MediaMode
  deriving DecidableEq, Repr

/-- `mepa_loopback_t` -/
structure Loopback where
  farEndEna : Bool
  nearEndEna : Bool
  connectorEna : Bool
  macSerdesInputEna : Bool
  macSerdesFacilityEna : Bool
  macSerdesEquipEna : Bool
  mediaSerdesInputEna : Bool
  mediaSerdesFacilityEna : Bool
  mediaSerdesEquipEna : Bool
  qsgmiiPcsTbiEna : Bool
  qsgmiiPcsGmiiEna : Bool
  qsgmiiSerdesEna : Bool
  deriving DecidableEq, Repr

/-- `phy_dev_info_t` -/
structure DevInfo where
  model : BitVec 8
  rev : BitVec 8
  deriving DecidableEq, Repr

/-- `mepa_eee_mode_t` -/
inductive EeeMode
  | disable
  | enable
  | regUpdate
  deriving DecidableEq, Repr

/-- `mepa_phy_eee_conf_t` -/
structure EeeConf where
  eeeMode : EeeMode
  eeeEnaPhy : Bool
  deriving DecidableEq, Repr

/-- `lan8814_phy_downshift_t` -/
structure Downshift where
  dshEnable : Bool
  dshThrCnt : BitVec 8
  deriving DecidableEq, Repr

/-- `base_dev`: none, the port itself, or another port with its `framepreempt_en`. -/
inductive BaseDev
  | none
  | self
  | other (framepreemptEn : Bool)
  deriving DecidableEq, Repr

/-- `mepa_cable_diag_status_t`, as far as this PHY gives it. -/
inductive CableStatus
  | ok
  | opened
  | short
  | abnorm
  | unknown
  deriving DecidableEq, Repr

/-- `mepa_cable_diag_result_t`, with status and length of the pairs A to D. -/
structure CableDiag where
  link : Bool
  pairs : List (CableStatus × BitVec 8)
  deriving DecidableEq, Repr

/-- `phy_data_t` -/
structure PhyData where
  initDone : Bool
  packetIdx : BitVec 8
  conf : Conf
  events : BitVec 32
  loopback : Loopback
  qsgmiiPhyAnegDis : Bool
  dev : DevInfo
  baseDev : BaseDev
  linkStatus : Bool
  speedStatus : Speed
  fdxStatus : Bool
  framepreemptEn : Bool
  postMacRst : Bool
  anegAfterLinkUp : Bool
  crcWorkaround : Bool
  eeeConf : EeeConf
  dshConf : Downshift
  loopCnt : BitVec 8
  repCnt : BitVec 8
  dshComplete : Bool
  anegFlag : Bool
  cableDiag : CableDiag
  deriving DecidableEq, Repr

/-- `lan8814_is_lan8814` -/
def PhyData.isLan8814 (d : PhyData) : Bool := d.dev.model == 0x26

/-- `lan8814_is_lan966x` -/
def PhyData.isLan966x (d : PhyData) : Bool := d.dev.model == 0x27

def noLoopback : Loopback := ⟨false, false, false, false, false, false, false, false, false, false, false, false⟩

/-- The configuration that a probe leaves: all zero. -/
def initialConf : Conf := ⟨.undefined, false, false, false, ⟨false, false, false, false, false, false⟩, false, .disabled, .auto⟩

/-- The data after `lan8814_probe`. -/
def probed (dev : DevInfo) : PhyData where
  initDone := false
  packetIdx := 0
  conf := initialConf
  events := 0
  loopback := noLoopback
  qsgmiiPhyAnegDis := false
  dev := dev
  baseDev := .none
  linkStatus := false
  speedStatus := .undefined
  fdxStatus := false
  framepreemptEn := false
  postMacRst := false
  anegAfterLinkUp := false
  crcWorkaround := false
  eeeConf := ⟨.disable, false⟩
  dshConf := ⟨false, 0⟩
  loopCnt := 0
  repCnt := 0
  dshComplete := false
  anegFlag := false
  cableDiag := ⟨false, List.replicate 4 (.ok, 0)⟩

/-! ## Calls -/

/-- `mepa_rc` -/
inductive Rc
  | ok
  | error
  | notImplemented
  deriving DecidableEq, Repr

abbrev Words := Reg → BitVec 16

abbrev Port := State Reg 16 PhyData

abbrev Call (α : Type) := RegCalls.Call Reg 16 PhyData α

end Lan80xx.Lan8814.Gphy
