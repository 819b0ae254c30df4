import Lan80xx.Lan8770.Types
import Lan80xx.Lib.RegScript

/-!
# T1 PHYs: registers and driver data

The LAN887x and LAN8x8x drivers share their register library and most of their data. Soft resets are taken to restart
the PHY without touching the words of its registers.

- `live`: the bits that the PHYs change by themselves;
- `ends_phyGetDeviceInfo`, `ends_poll`: reads whose failures are ignored.
-/

namespace Lan80xx.T1

open Fallible RegBus RegScript
open Lan8770 (Speed ManualNeg Loopback)

/-! ## Registers -/

/-- The MDIO manageable devices of a PHY. -/
inductive Mmd
  | pmapmd
  | pcs
  | an
  | vend1
  deriving DecidableEq, Repr

/-- A register of clause 22, or one of an MMD. -/
inductive Reg
  | mii (offset : BitVec 8)
  | mmd (dev : Mmd) (offset : BitVec 16)
  deriving DecidableEq, Repr

/-- `MII_BMCR` -/
def bmcr : Reg := .mii 0x00

/-- `MII_PHYSID1` -/
def physid1 : Reg := .mii 0x02

/-- `MII_PHYSID2` -/
def physid2 : Reg := .mii 0x03

/-- `BIT` -/
def bit (x : Nat) : BitVec 16 := 1#16 <<< x

/-- Bits that the PHYs change by themselves: those of clause 22, identifiers apart, of the reset registers, and the
self-clearing bits of registers that the drivers look at. -/
def live : Reg → Fin 16 → Bool
  | .mii 0x02, _ => false
  | .mii 0x03, _ => false
  | .mii _, _ => true
  | .mmd .pcs 0x0000, b => b.val == 15
  | .mmd .pmapmd 0x8902, b => b.val == 1
  | .mmd .an 0x0200, b => b.val == 9
  | .mmd .vend1 0xF035, b => b.val == 4
  | .mmd .vend1 0xF083, b => b.val == 4
  | .mmd .vend1 0xF03E, _ => true
  | .mmd .vend1 0xF03F, _ => true
  | _, _ => false

/-- The PHY behind the bus. -/
abbrev PhyBus (H : Type) := BitBus Reg 16 live H

/-! ## The register library -/

abbrev Acc := Access Reg 16

/-- `phy_reg_set_bits` -/
def phyRegSetBits (r : Reg) (value : BitVec 16) : Acc := .modify r 0 value

/-- `phy_reg_clear_bits` -/
def phyRegClearBits (r : Reg) (value : BitVec 16) : Acc := .modify r value 0

/-- `phy_mmd_reg_rd`, where the word does not count. -/
def phyMmdRegRd (dev : Mmd) (offset : BitVec 16) : Acc := .rd (.mmd dev offset)

/-- `phy_mmd_reg_wr` -/
def phyMmdRegWr (dev : Mmd) (offset value : BitVec 16) : Acc := .wr (.mmd dev offset) value

/-- `phy_mmd_reg_modify` -/
def phyMmdRegModify (dev : Mmd) (offset mask value : BitVec 16) : Acc := .change (.mmd dev offset) mask value

/-- `phy_mmd_reg_set_bits` -/
def phyMmdRegSetBits (dev : Mmd) (offset value : BitVec 16) : Acc := phyMmdRegModify dev offset 0 value

/-- `phy_mmd_reg_clear_bits` -/
def phyMmdRegClearBits (dev : Mmd) (offset value : BitVec 16) : Acc := phyMmdRegModify dev offset value 0

/-- `phy_mmd_reg_wr32` -/
def phyMmdRegWr32 (dev : Mmd) (offset : BitVec 16) (value : BitVec 32) : List Acc :=
  [phyMmdRegWr dev (offset + 1) ((value >>> 16).setWidth 16), phyMmdRegWr dev offset (value.setWidth 16)]

/-- `phy_mmd_reg_mod32` -/
def phyMmdRegMod32 (dev : Mmd) (offset : BitVec 16) (mask value : BitVec 32) : Acc :=
  .change2 (.mmd dev offset) (.mmd dev (offset + 1)) mask value

/-! ## The driver's data -/

/-- A return code other than OK. -/
inductive Rc
  | error
  | errParm
  | notImplemented
  | confNotSupported
  | access (rc : Int)
  deriving DecidableEq, Repr

/-- `mepa_port_interface_t` -/
inductive PortInterface
  | rgmii
  | rgmiiId
  | rgmiiRxid
  | rgmiiTxid
  | sgmii
  | other (code : Nat)
  deriving DecidableEq, Repr

/-- `mepa_media_interface_t` -/
inductive MediaInterface
  | t1_100fx
  | t1_1000fx
  | other (code : Nat)
  deriving DecidableEq, Repr

/-- `mepa_gpio_mode_t` -/
inductive GpioMode
  | none
  | input
  | output
  | alt
  | ledLinkActivity
  | ledLink1000Activity
  | ledLink100Activity
  | ledLink10Activity
  | ledLink100_1000Activity
  | ledLink10_1000Activity
  | ledLink10_100Activity
  | ledLink100baseFx_1000baseXActivity
  | ledDuplexCollision
  | ledCollision
  | ledActivity
  | ledBase100Fx_1000baseXFiberActivity
  | ledAutonegotiationFault
  | ledLink1000baseXActivity
  | ledLink100baseFxActivity
  | ledBase1000Activity
  | ledBase100FxActivity
  | ledForceLedOff
  | ledForceLedOn
  | ledFastLinkFail
  | ledLinkTx
  | ledLinkRx
  | ledLinkFault
  | ledLinkNoActAnySpeed
  | ledLocalRxerStatus
  | ledRemoteRxerStatus
  | ledNegotiatedSpeed
  | ledMasterSlaveMode
  | ledPcsTxErrStatus
  | ledPcsRxErrStatus
  | ledPcsTxActivity
  | ledPcsRxActivity
  | ledWakeOnLan
  | ledDisableExtended
  | rcvrdClkOut1
  | rcvrdClkOut2
  | ptpRefClk
  | ptpRefAdj
  | pushPull
  | openSource
  | openDrain
  | activeLow
  | activeHigh
  deriving DecidableEq, Repr

/-- `mepa_gpio_conf_t`; the LEDs are 0 to 3. -/
structure GpioConf where
  gpioNo : BitVec 8
  mode : GpioMode
  ledNum : Nat
  deriving DecidableEq, Repr

/-- `mepa_conf_t`, as far as the T1 PHYs look at it. -/
structure Conf where
  speed : Speed
  fdx : Bool
  flowControl : Bool
  adminEnable : Bool
  aneg100mFdx : Bool
  aneg1gFdx : Bool
  macIfAnegEna : Bool
  manNeg : ManualNeg
  deriving DecidableEq, Repr

/-- `phy_dev_info_t` -/
structure DevInfo where
  id : BitVec 32
  model : BitVec 16
  rev : BitVec 16
  isMaster : Bool
  isMasterFault : Bool
  deriving DecidableEq, Repr

/-- `phy_data_t`; `own` is what only one of the drivers has. -/
structure PhyData (X : Type) where
  initDone : Bool
  macIf : PortInterface
  mediaIntf : MediaInterface
  conf : Conf
  events : BitVec 32
  loopback : Loopback
  dev : DevInfo
  ledConf : Fin 4 → GpioConf
  own : X

abbrev Call (X H α : Type) := EStateM Rc (Dev (PhyData X) H) α

namespace PhyData

variable {X : Type}

def setInitDone (initDone : Bool) (d : PhyData X) : PhyData X := { d with initDone := initDone }

def setMacIf (macIf : PortInterface) (d : PhyData X) : PhyData X := { d with macIf := macIf }

def setMediaIntf (mediaIntf : MediaInterface) (d : PhyData X) : PhyData X := { d with mediaIntf := mediaIntf }

def setConf (conf : Conf) (d : PhyData X) : PhyData X := { d with conf := conf }

def setEvents (events : BitVec 32) (d : PhyData X) : PhyData X := { d with events := events }

def setLoopback (loopback : Loopback) (d : PhyData X) : PhyData X := { d with loopback := loopback }

def setDev (dev : DevInfo) (d : PhyData X) : PhyData X := { d with dev := dev }

def setLedConf (n : Fin 4) (conf : GpioConf) (d : PhyData X) : PhyData X :=
  { d with ledConf := Function.update d.ledConf n conf }

end PhyData

section Calls

variable {X H : Type} (bus : Bus Reg 16 H)

/-- Accesses one after the other, left at the first one that fails. -/
def script (as : List Acc) : Call X H Unit := runAll bus Rc.access as

/-- `EXTRACT_BITS` -/
def extractBits (x : BitVec 16) (offset width : Nat) : BitVec 16 := (x >>> offset) &&& ((1#16 <<< width) - 1#16)

/-- The device information in the words of the two identifier registers. -/
def devInfo (id1 id2 : BitVec 16) : DevInfo where
  id := ((id1.setWidth 32 <<< 2) &&& 0x03FFFC#32) ||| ((extractBits id2 10 6).setWidth 32 <<< 18)
  model := extractBits id2 4 6
  rev := extractBits id2 0 4
  isMaster := false
  isMasterFault := false

/-- `phy_get_device_info`; a read that fails leaves the word 0. -/
def phyGetDeviceInfo : Call X H Unit := do
  modifyConf (PhyData.setDev ⟨0, 0, 0, false, false⟩)
  let id1 ← attempt (read bus Rc.access physid1)
  let id2 ← attempt (read bus Rc.access physid2)
  modifyConf (PhyData.setDev (devInfo (id1.getD 0) (id2.getD 0)))

/-- `phy_mmd_reg_poll`: reads until `mask` is clear, `n` times at most. A read that fails leaves the word as it was. -/
def phyRegPoll (r : Reg) (mask val : BitVec 16) : Nat → Call X H Unit
  | 0 => pure ()
  | n + 1 => do
    let read ← attempt (read bus Rc.access r)
    when (read.getD val &&& mask ≠ 0#16) (phyRegPoll r mask (read.getD val) n)

/-- `phy_mmd_reg_rd32` -/
def phyMmdRegRd32 (dev : Mmd) (offset : BitVec 16) : Call X H (BitVec 32) := do
  let l ← read bus Rc.access (.mmd dev offset)
  let h ← read bus Rc.access (.mmd dev (offset + 1))
  return h ++ l

/-- `phy_mmd_reg_poll32`; a read that fails leaves the double word as it was. -/
def phyMmdRegPoll32 (dev : Mmd) (offset : BitVec 16) (mask val : BitVec 32) : Nat → Call X H Unit
  | 0 => pure ()
  | n + 1 => do
    let read ← attempt (phyMmdRegRd32 bus dev offset)
    when (read.getD val &&& mask ≠ 0#32) (phyMmdRegPoll32 dev offset mask (read.getD val) n)

end Calls

/-! ## What they do -/

section Ends

variable {X H : Type} (rf : PhyBus H) {h₀ : H} {c : PhyData X} {m : Bits Reg 16} {E : Dev (PhyData X) H → Prop}

theorem ends_attempt_read (r : Reg) :
    Ends (Sees rf h₀ c m) (attempt (read rf.toBus Rc.access r) : Call X H _) (fun _ => Sees rf h₀ c m) E :=
  (ends_read_sees rf Rc.access r fun _ _ hs => hs).attempt.weaken
    (by rintro o s (⟨v, -, hs, -⟩ | ⟨-, hs⟩) <;> exact hs) fun _ h => h

theorem ends_phyRegPoll (r : Reg) (mask val : BitVec 16) (n : Nat) :
    Ends (Sees rf h₀ c m) (phyRegPoll rf.toBus r mask val n) (fun _ => Sees rf h₀ c m) E := by
  induction n generalizing val with
  | zero => exact Ends.pure fun _ h => h
  | succ n ih => exact (ends_attempt_read rf r).bind fun _ => Ends.when (fun _ => ih _) fun _ _ h => h

theorem ends_phyMmdRegPoll32 (dev : Mmd) (offset : BitVec 16) (mask val : BitVec 32) (n : Nat) :
    Ends (Sees rf h₀ c m) (phyMmdRegPoll32 rf.toBus dev offset mask val n) (fun _ => Sees rf h₀ c m) E := by
  have hread : Ends (Sees rf h₀ c m) (phyMmdRegRd32 rf.toBus dev offset) (fun _ => Sees rf h₀ c m) (Sees rf h₀ c m) := by
    refine (ends_read_sees rf Rc.access _ fun _ _ hs => hs).bind fun l => ?_
    rintro s ⟨hs, -⟩
    refine ((ends_read_sees rf Rc.access _ fun _ _ hs => hs).bind fun h => ?_) s hs
    exact Ends.pure fun _ hs => hs.1
  induction n generalizing val with
  | zero => exact Ends.pure fun _ h => h
  | succ n ih =>
    refine hread.attempt.bind fun o => ?_
    refine Ends.pre (Ends.when (fun _ => ih _) fun _ _ h => h) ?_
    rintro s (⟨v, -, hs⟩ | ⟨-, hs⟩) <;> exact hs

theorem ends_script (as : List Acc) : Ends (Sees rf h₀ c m) (script rf.toBus as)
    (fun _ => Sees rf h₀ c (applyAll live as m)) (Broken rf (writesOf as) h₀ c m) :=
  ends_runAll rf Rc.access as

end Ends

/-! ## A port on a PHY that answers -/

/-- A PHY all of whose accesses succeed. -/
abbrev bench : PhyBus (Reg → BitVec 16) := bitStorage Reg 16 live

/-- Data of a port; LED 2 shows the link. -/
def benchData : PhyData Unit where
  initDone := true
  macIf := .rgmiiRxid
  mediaIntf := .t1_1000fx
  conf := ⟨.auto, true, false, true, true, true, true, .ref⟩
  events := 0
  loopback := ⟨false, false, false⟩
  dev := ⟨0, 0, 0, false, false⟩
  ledConf n := if n.val = 2 then ⟨0, .ledLinkActivity, 2⟩ else ⟨0, .none, 0⟩
  own := ()

/-- All registers are 0. -/
def benchStart : Dev (PhyData Unit) (Reg → BitVec 16) := ⟨benchData, fun _ => 0⟩

end Lan80xx.T1
