import Lan80xx.T1.Driver
import Lan80xx.Lan8x8x.Events

/-!
# LAN8x8x: initialisation and configuration

Every change that counts sets the PHY up from scratch. The driver's own data are the chip's identifier and what its fuses
have switched off.

- `ends_phySetup`: what the set-up does to registers that have nothing to do with LEDs;
- `lan8x8x`: the driver.
-/

namespace Lan80xx.Lan8x8x

open Fallible RegBus RegScript T1
open Lan8770 (Speed Loopback)

/-- `dev->drv->id`, and `t1_cap` as far as the calls look at it. -/
structure Own where
  drvId : BitVec 32
  dis1000 : Bool
  dis100 : Bool
  deriving DecidableEq, Repr

/-- `IS_LAN888X` -/
def isLan888x (id : BitVec 32) : Bool := id &&& 0xFFFFFFF0#32 = 0x002216B0#32

/-! ## Accesses -/

/-- `phy_mmd_reg_wr32` of `VEND1`, for each of these -/
def wr32s (regs : List (BitVec 16 × BitVec 32)) : List Acc := regs.flatMap fun (offset, value) => phyMmdRegWr32 .vend1 offset value

/-- The words that `lan8x8x_sgmii_init` writes when the MAC does not negotiate. -/
def serdesSetup : List (BitVec 16 × BitVec 32) :=
  [(0xF5C8, 0x18), (0xF5C0, 0xB9E0), (0xF514, 0x82422), (0xF5C2, 0x7014014), (0xF5C4, 0x19), (0xF5C6, 0x1000000),
    (0xF5C2, 0x6011002), (0xF5C0, 0x9800), (0xF530, 0xCB3), (0xF516, 0x25555000), (0xF518, 0x7FFF), (0xF516, 0x20155000),
    (0xF5B8, 0x1F804), (0xF514, 0x82422), (0xF52A, 0x0), (0xF514, 0x82422), (0xF532, 0x0), (0xF532, 0x1),
    (0xF5C0, 0x9000), (0xF5C0, 0x8000), (0xF536, 0x8019), (0xF560, 0x4000), (0xF54E, 0x104007), (0xF530, 0xCB3),
    (0xF538, 0x7E), (0xF558, 0xFC), (0xF51A, 0x37), (0xF514, 0x82422), (0xF538, 0x7E), (0xF558, 0x0),
    (0xF54E, 0x104007), (0xF566, 0x0), (0xF514, 0x82422), (0xF51A, 0x7), (0xF5B6, 0x0)]

/-- The accesses of `lan8x8x_sgmii_init`. -/
def sgmiiAccesses (macIfAnegEna : Bool) : List Acc :=
  phyMmdRegWr32 .vend1 0xF070 (0x8 ||| 0x2) ++
  [phyMmdRegSetBits .vend1 0xF0D8 (bit 0), phyMmdRegWr .vend1 0xF082 (bit 6 ||| bit 7 ||| bit 9 ||| bit 11)] ++
  if macIfAnegEna then
    [phyMmdRegWr .vend1 0xF08B (bit 1 ||| bit 2), phyMmdRegWr .vend1 0xF083 (bit 3 ||| bit 5 ||| bit 4)]
  else wr32s serdesSetup ++ [phyMmdRegWr .vend1 0xF08B (bit 1 ||| bit 2), phyMmdRegWr .vend1 0xF083 (bit 5)]

/-- `LAN8X8X_RGMII_DLL_CONF` -/
def rgmiiDllConf : BitVec 16 := bit 15 ||| bit 0

/-- The accesses of `lan8x8x_rgmii_init`. -/
def rgmiiAccesses (rxDelay txDelay : Bool) : List Acc :=
  [phyMmdRegModify .vend1 0xF07A rgmiiDllConf (if rxDelay then rgmiiDllConf else 0),
    phyMmdRegModify .vend1 0xF07B rgmiiDllConf (if txDelay then rgmiiDllConf else 0)]

/-- The accesses of `lan8x8x_config_mac` after those of the interface. -/
def macModeAccesses (macIf : PortInterface) (conf : Conf) : List Acc :=
  [phyMmdRegWr .vend1 0xF0DF (if macIf = .sgmii ∧ ((conf.speed = .auto ∧ conf.aneg1gFdx = true) ∨ conf.speed = .g1) then
      bit 0 else 0),
    phyMmdRegModify .vend1 0xF088 (bit 4) (if macIf = .sgmii then bit 4 else 0)]

/-- The access of `lan8x8x_phy_init` before the MAC. -/
def pcsAccesses (drvId : BitVec 32) : List Acc :=
  if isLan888x drvId then [phyMmdRegMod32 .pcs 0x8300 0x7 0x7] else phyMmdRegWr32 .pcs 0x8300 0

/-- The accesses of `lan8x8x_speed_config`; `none` if the speed is not valid. -/
def speedAccesses : Speed → Option (List Acc)
  | .m100 => some (phyMmdRegWr32 .pmapmd 0x8040 0x600E2804 ++ phyMmdRegWr32 .pmapmd 0x822A 0x14F4040C ++
      phyMmdRegWr32 .pmapmd 0x822C 0x43)
  | .g1 => some (phyMmdRegWr32 .pmapmd 0x8100 0x5FE34C08 ++ phyMmdRegWr32 .pmapmd 0x8834 0x1043)
  | _ => none

/-- The word of `lan8x8x_pma_baset1_setup_forced`. -/
def forcedWord (conf : Conf) (mediaIntf : MediaInterface) : BitVec 16 :=
  (if conf.manNeg = .ref then 0x4000 else 0) |||
    if mediaIntf ≠ .t1_100fx ∧ conf.speed = .g1 then 0x1 else 0

/-- What `lan8x8x_pma_baset1_setup_aneg` advertises. -/
def advR2 (conf : Conf) (mediaIntf : MediaInterface) : BitVec 16 :=
  (if conf.manNeg ≠ .client then 0x0010 else 0) |||
    if mediaIntf ≠ .t1_100fx ∧ conf.aneg1gFdx = true then 0x0020 ||| 0x0080 else 0x0020

/-- The accesses of `lan8x8x_pma_baset1_setup_aneg`. -/
def anegAccesses (conf : Conf) (mediaIntf : MediaInterface) : List Acc :=
  [phyMmdRegModify .an 0x0203 0x00B0 (advR2 conf mediaIntf), phyMmdRegWr .an 0x0202 0,
    phyMmdRegSetBits .an 0x0200 (0x1000 ||| 0x0200)]

/-- The accesses of `lan8x8x_phy_reset` after the LEDs. -/
def resetAccesses : List Acc :=
  phyMmdRegClearBits .an 0x0200 (0x1000 ||| 0x0200) ::
    (phyMmdRegWr32 .pmapmd 0x8902 0 ++ phyMmdRegWr32 .pmapmd 0x8902 0x2)

/-- What is kept of a request. -/
def lpbkKept : Option Loopback → Loopback
  | none => ⟨false, false, false⟩
  | some l => if l.nearEndEna then ⟨false, true, false⟩ else ⟨l.farEndEna, false, false⟩

/-- The access of `lan8x8x_setup_lpbk`; the register of the far-end loopback is chosen by the speed. -/
def lpbkAccess (speed : Speed) : Option Loopback → Acc
  | none => phyMmdRegMod32 .pcs 0x0000 0x4000 0
  | some l =>
    if l.nearEndEna then phyMmdRegMod32 .pcs 0x0000 0x4000 0x4000
    else if l.farEndEna then
      match speed with
      | .m100 => phyMmdRegMod32 .pcs 0x8000 0x1 0x1
      | .g1 => phyMmdRegMod32 .pcs 0x8322 0x4000 0x1
      | _ => phyMmdRegMod32 .pcs 0x0000 0x4000 0
    else phyMmdRegMod32 .pcs 0x0000 0x4000 0

/-! ## The calls -/

section Calls

variable {H : Type} (bus : Bus Reg 16 H) (polls : Nat)

/-- `lan8x8x_setup_lpbk`; whatever is asked for, the return code is that of the access. -/
def setupLpbk (loopback : Option Loopback) : Call Own H Unit := do
  let d ← getConf
  modifyConf (PhyData.setLoopback (lpbkKept loopback))
  script bus [lpbkAccess d.conf.speed loopback]

/-- `lan8x8x_config_mac` -/
def configMac : Call Own H Unit := do
  let d ← getConf
  match d.macIf with
  | .sgmii => script bus (sgmiiAccesses d.conf.macIfAnegEna)
  | .rgmii => script bus (rgmiiAccesses false false)
  | .rgmiiId => script bus (rgmiiAccesses true true)
  | .rgmiiRxid => script bus (rgmiiAccesses true false)
  | .rgmiiTxid => script bus (rgmiiAccesses false true)
  | .other _ => throw .confNotSupported
  script bus (macModeAccesses d.macIf d.conf)

/-- `lan8x8x_phy_init` -/
def phyInit : Call Own H Unit := do
  let d ← getConf
  script bus (pcsAccesses d.own.drvId)
  configMac bus

/-- `lan8x8x_phy_cfg_clr` -/
def phyCfgClr : Call Own H Unit := do
  script bus [phyMmdRegRd .vend1 0x0C22, phyRegClearBits bmcr (bit 10)]
  configLeds .lan8x8x bus false
  setupLpbk bus none
  let d ← getConf
  intEventsSet bus d.events true

/-- `lan8x8x_phy_reset`; `polls` is what fits into its four seconds. -/
def phyReset : Call Own H Unit := do
  script bus [phyRegSetBits bmcr 0x8000]
  phyRegPoll bus bmcr 0x8000 0 polls
  phyCfgClr bus
  configLeds .lan8x8x bus false
  script bus resetAccesses
  phyMmdRegPoll32 bus .pmapmd 0x8902 0x2 0 polls
  modifyConf (PhyData.setInitDone false)

/-- `lan8x8x_config_done`, with `lan8x8x_onetime_post_config_done` -/
def configDone : Call Own H Unit := do
  script bus (phyMmdRegWr32 .pmapmd 0x8902 0x9)
  let d ← getConf
  when (d.initDone = false) do
    script bus [phyMmdRegSetBits .vend1 0xF0D8 (bit 0)]
    modifyConf (PhyData.setInitDone true)

/-- `lan8x8x_phy_config`; failures of the speed's accesses are ignored. -/
def phyConfig (speed : Speed) : Call Own H Unit :=
  match speedAccesses speed with
  | none => pure ()
  | some as => do
    tryAll bus Rc.access as
    configDone bus

/-- `lan8x8x_phy_setup` -/
def phySetup : Call Own H Unit := do
  phyGetDeviceInfo bus
  phyReset bus polls
  phyInit bus
  let d ← getConf
  if d.conf.speed = .auto then do
    script bus (anegAccesses d.conf d.mediaIntf)
    configDone bus
  else do
    script bus [phyMmdRegWr .pmapmd 0x0834 (forcedWord d.conf d.mediaIntf)]
    phyConfig bus d.conf.speed

end Calls

/-- `lan8x8x_check_media` -/
def checkMedia (d : PhyData Own) (mediaIf : MediaInterface) (speed : Speed) : Option Rc :=
  if (mediaIf = .t1_100fx ∧ d.own.dis100 = false) ∨
      (mediaIf = .t1_1000fx ∧ d.own.dis1000 = false ∧ isLan888x d.own.drvId = true) then
    if mediaIf = .t1_100fx ∧ ((speed = .auto ∧ d.conf.aneg100mFdx = false) ∨ (speed ≠ .auto ∧ speed ≠ .m100)) then
      some .errParm
    else none
  else some .confNotSupported

/-- The LAN8x8x. -/
def lan8x8x {H : Type} (bus : Bus Reg 16 H) (polls : Nat) : Driver Own H where
  checkMedia := checkMedia
  appliesMacAneg := false
  enable _ := do
    script bus [phyMmdRegClearBits .pmapmd 0x0000 (bit 11)]
    phySetup bus polls
  powerDown := script bus [phyMmdRegSetBits .pmapmd 0x0000 (bit 11)]
  mediaReset := phySetup bus polls
  ifReset := phySetup bus polls
  resetMedia d mediaIf := match checkMedia d mediaIf d.conf.speed with
    | some rc => .error rc
    | none => .ok (d.storeMedia mediaIf)
  resetInit := phySetup bus polls
  setupLpbk := setupLpbk bus

theorem resetMedia_ok {H : Type} {bus : Bus Reg 16 H} {polls : Nat} {d d' : PhyData Own} {mediaIf : MediaInterface}
    (h : (lan8x8x bus polls).resetMedia d mediaIf = .ok d') : d.storeMedia mediaIf = d' := by
  cases hcheck : checkMedia d mediaIf d.conf.speed with
  | some rc =>
    simp only [lan8x8x, hcheck] at h
    cases h
  | none =>
    simp only [lan8x8x, hcheck] at h
    exact Except.ok.inj h

/-! ## What the set-up does -/

/-- The accesses of `lan8x8x_config_mac`. -/
def macAccesses (d : PhyData Own) : List Acc :=
  (match d.macIf with
    | .sgmii => sgmiiAccesses d.conf.macIfAnegEna
    | .rgmii => rgmiiAccesses false false
    | .rgmiiId => rgmiiAccesses true true
    | .rgmiiRxid => rgmiiAccesses true false
    | .rgmiiTxid => rgmiiAccesses false true
    | .other _ => []) ++ macModeAccesses d.macIf d.conf

/-- Those of `lan8x8x_phy_reset`, but for the LEDs. -/
def restartAccesses (d : PhyData Own) : List Acc :=
  phyRegSetBits bmcr 0x8000 :: phyMmdRegRd .vend1 0x0C22 :: phyRegClearBits bmcr (bit 10) ::
    lpbkAccess d.conf.speed none :: (intAccesses (intMasks (eventsAfter d.events d.events true) d.events) ++ resetAccesses)

/-- Those of `lan8x8x_config_done`. -/
def doneAccesses : List Acc := phyMmdRegWr32 .pmapmd 0x8902 0x9 ++ [phyMmdRegSetBits .vend1 0xF0D8 (bit 0)]

/-- Those of the speed's set-up. -/
def modeAccesses (d : PhyData Own) : List Acc :=
  if d.conf.speed = .auto then anegAccesses d.conf d.mediaIntf
  else phyMmdRegWr .pmapmd 0x0834 (forcedWord d.conf d.mediaIntf) :: (speedAccesses d.conf.speed).getD []

/-- Those of `lan8x8x_phy_setup`. -/
def setupAccesses (d : PhyData Own) : List Acc :=
  restartAccesses d ++ (pcsAccesses d.own.drvId ++ (macAccesses d ++ (modeAccesses d ++ doneAccesses)))

/-- What `lan8x8x_phy_setup` makes of the data. -/
def setupData (d : PhyData Own) : PhyData Own :=
  ((d.setLoopback ⟨false, false, false⟩).setEvents (eventsAfter d.events d.events true)).setInitDone true

/-- The identifier is among the registers, those of the LEDs are not. -/
structure Tracks (S : List Reg) : Prop where
  id1 : physid1 ∈ S
  id2 : physid2 ∈ S
  led1Led0 : Chip.lan8x8x.led1Led0 ∉ S
  led3Led2 : Chip.lan8x8x.led3Led2 ∉ S

/-! ### The registers it writes -/

/-- `lan8x8x_config_mac` -/
def macRegs : List Reg :=
  writesOf (sgmiiAccesses true ++ wr32s serdesSetup ++ rgmiiAccesses true true) ++
    [Reg.mmd .vend1 0xF0DF, Reg.mmd .vend1 0xF088]

/-- The speed's set-up, and `MDIO_AN_T1_CTRL` -/
def modeRegs : List Reg :=
  [Reg.mmd .an 0x0203, Reg.mmd .an 0x0202, Reg.mmd .an 0x0200, Reg.mmd .pmapmd 0x0834] ++
    writesOf ((speedAccesses .m100).getD [] ++ (speedAccesses .g1).getD [])

/-- The rest of `lan8x8x_phy_setup` -/
def restRegs : List Reg :=
  [bmcr, .mmd .pcs 0x0000, .mmd .pcs 0x0001, .mmd .vend1 0xF0E4, .mmd .pmapmd 0x8503, .mmd .pmapmd 0x8502,
    .mmd .vend1 0xF0E5, .mmd .an 0x0200, .mmd .pmapmd 0x8903, .mmd .pmapmd 0x8902, .mmd .pcs 0x8300, .mmd .pcs 0x8301,
    .mmd .vend1 0xF0D8]

/-- `lan8x8x_setup_lpbk` -/
def lpbkRegs : List Reg :=
  [.mmd .pcs 0x0000, .mmd .pcs 0x0001, .mmd .pcs 0x8000, .mmd .pcs 0x8001, .mmd .pcs 0x8322, .mmd .pcs 0x8323]

theorem writes_lpbkAccess (speed : Speed) (loopback : Option Loopback) :
    ∀ q ∈ (lpbkAccess speed loopback).writes, q ∈ lpbkRegs := by
  unfold lpbkAccess
  split
  · decide
  · split_ifs <;> first | decide | (split <;> decide)

theorem writesOf_macAccesses (d : PhyData Own) : ∀ q ∈ writesOf (macAccesses d), q ∈ macRegs := by
  have hsgmii : ∀ b, ∀ q ∈ writesOf (sgmiiAccesses b), q ∈ macRegs := by
    intro b
    cases b <;> decide +kernel
  have hrgmii : ∀ r t, ∀ q ∈ writesOf (rgmiiAccesses r t), q ∈ macRegs := by decide +kernel
  have hmode : ∀ q ∈ writesOf (macModeAccesses d.macIf d.conf), q ∈ macRegs :=
    (by decide +kernel : ∀ q ∈ [(.mmd .vend1 0xF0DF : Reg), .mmd .vend1 0xF088], q ∈ macRegs)
  intro q hq
  refine (mem_writesOf_append.mp hq).elim (fun hq => ?_) (hmode q)
  cases hmac : d.macIf with
  | sgmii => exact hsgmii _ q (by simpa [hmac] using hq)
  | rgmii | rgmiiId | rgmiiRxid | rgmiiTxid => exact hrgmii _ _ q (by simpa [hmac] using hq)
  | other => simp [hmac, writesOf] at hq

theorem writesOf_modeAccesses (d : PhyData Own) : ∀ q ∈ writesOf (modeAccesses d), q ∈ modeRegs := by
  unfold modeAccesses
  split_ifs
  · exact (by decide : ∀ q ∈ [(.mmd .an 0x0203 : Reg), .mmd .an 0x0202, .mmd .an 0x0200], q ∈ modeRegs)
  · have hspeed : ∀ speed, ∀ q ∈ writesOf ((speedAccesses speed).getD []), q ∈ modeRegs := by
      intro speed
      cases speed <;> decide
    intro q hq
    rcases List.mem_cons.mp (show q ∈ .mmd .pmapmd 0x0834 :: writesOf ((speedAccesses d.conf.speed).getD []) from hq) with
      rfl | hq
    · decide
    · exact hspeed _ q hq

theorem writesOf_setupAccesses (d : PhyData Own) :
    ∀ q ∈ writesOf (setupAccesses d), q ∈ macRegs ∨ q ∈ modeRegs ∨ q ∈ restRegs := by
  have hpcs : ∀ q ∈ writesOf (pcsAccesses d.own.drvId), q ∈ restRegs := by
    unfold pcsAccesses
    split_ifs <;> decide
  intro q hq
  rcases mem_writesOf_append.mp hq with hq | hq
  · exact Or.inr (Or.inr ((by decide : ∀ q ∈ [bmcr, bmcr, .mmd .pcs 0x0000, .mmd .pcs 0x0001, .mmd .vend1 0xF0E4,
      .mmd .pmapmd 0x8503, .mmd .pmapmd 0x8502, .mmd .vend1 0xF0E5, .mmd .an 0x0200, .mmd .pmapmd 0x8903,
      .mmd .pmapmd 0x8902, .mmd .pmapmd 0x8903, .mmd .pmapmd 0x8902], q ∈ restRegs) q hq))
  rcases mem_writesOf_append.mp hq with hq | hq
  · exact Or.inr (Or.inr (hpcs q hq))
  rcases mem_writesOf_append.mp hq with hq | hq
  · exact Or.inl (writesOf_macAccesses d q hq)
  rcases mem_writesOf_append.mp hq with hq | hq
  · exact Or.inr (Or.inl (writesOf_modeAccesses d q hq))
  · exact Or.inr (Or.inr ((by decide : ∀ q ∈ writesOf doneAccesses, q ∈ restRegs) q hq))

section On

variable {H : Type} (rf : PhyBus H) {S : List Reg} {h₀ : H} {c : PhyData Own} {m : Bits Reg 16}
  {E : Dev (PhyData Own) H → Prop} (hs : rf.Sound h₀)

include hs

theorem ends_setupLpbk (loopback : Option Loopback) :
    Ends (SeesOn rf S h₀ c m) (setupLpbk rf.toBus loopback)
      (fun _ => SeesOn rf S h₀ (c.setLoopback (lpbkKept loopback)) (applyAll live [lpbkAccess c.conf.speed loopback] m))
      E :=
  ends_getConf_on rf ((ends_modifyConf_on rf _).bind fun _ => ends_script_on rf hs _)

theorem ends_configMac (hmac : c.macIf.isOther = false) : Ends (SeesOn rf S h₀ c m) (configMac rf.toBus)
    (fun _ => SeesOn rf S h₀ c (applyAll live (macAccesses c) m)) E := by
  refine ends_getConf_on rf ?_
  rw [macAccesses, applyAll_append]
  cases h : c.macIf with
  | rgmii | rgmiiId | rgmiiRxid | rgmiiTxid | sgmii =>
    exact (ends_script_on rf hs _).bind fun _ => ends_script_on rf hs _
  | other =>
    rw [h] at hmac
    cases hmac

theorem ends_intEventsSet_on (event : BitVec 32) (enable : Bool) :
    Ends (SeesOn rf S h₀ c m) (intEventsSet rf.toBus event enable)
      (fun _ => SeesOn rf S h₀ (c.setEvents (eventsAfter c.events event enable))
        (applyAll live (intAccesses (intMasks (eventsAfter c.events event enable) event)) m)) E :=
  ends_getConf_on rf ((ends_modifyConf_on rf _).bind fun _ => ends_script_on rf hs _)

theorem ends_phyReset (hS : Tracks S) (hleds : LedsAccepted c) (polls : Nat) :
    Ends (SeesOn rf S h₀ c m) (phyReset rf.toBus polls)
      (fun _ => SeesOn rf S h₀
        (((c.setLoopback ⟨false, false, false⟩).setEvents (eventsAfter c.events c.events true)).setInitDone false)
        (applyAll live (restartAccesses c) m)) E := by
  refine (ends_script_on rf hs _).bind fun _ => (ends_seesOn_of rf fun _ => ends_phyRegPoll rf bmcr 0x8000 0 polls).bind fun _ => ?_
  have hclr : LedsAccepted ((c.setLoopback ⟨false, false, false⟩).setEvents (eventsAfter c.events c.events true)) := hleds
  refine Ends.bind ((ends_script_on rf hs _).bind fun _ =>
    (ends_configLeds_off rf hs hS.led1Led0 hS.led3Led2 hleds false).bind fun _ =>
    (ends_setupLpbk rf hs none).bind fun _ => ends_getConf_on rf (ends_intEventsSet_on rf hs _ true)) fun _ => ?_
  refine (ends_configLeds_off rf hs hS.led1Led0 hS.led3Led2 hclr false).bind fun _ => ?_
  refine (ends_script_on rf hs _).bind fun _ => ?_
  refine (ends_seesOn_of rf fun _ => ends_phyMmdRegPoll32 rf .pmapmd 0x8902 0x2 0 polls).bind fun _ => ?_
  refine (ends_modifyConf_on rf _).weaken (fun _ s hsee => ?_) fun _ h => h
  rw [← applyAll_append, ← applyAll_append, ← applyAll_append, ← applyAll_append] at hsee
  exact hsee

theorem ends_configDone (hinit : c.initDone = false) : Ends (SeesOn rf S h₀ c m) (configDone rf.toBus)
    (fun _ => SeesOn rf S h₀ (c.setInitDone true) (applyAll live doneAccesses m)) E := by
  refine (ends_script_on rf hs _).bind fun _ => ends_getConf_on rf ?_
  rw [hinit, doneAccesses, applyAll_append]
  exact Ends.when (fun _ => (ends_script_on rf hs _).bind fun _ => ends_modifyConf_on rf _) fun h => absurd rfl h

theorem ends_phyConfig (hinit : c.initDone = false) {speed : Speed} {as : List Acc} (has : speedAccesses speed = some as) :
    Ends (SeesOn rf S h₀ c m) (phyConfig rf.toBus speed)
      (fun _ => SeesOn rf S h₀ (c.setInitDone true) (applyAll live doneAccesses (applyAll live as m))) E := by
  rw [phyConfig, has]
  exact (ends_tryAll_on rf Rc.access hs _).bind fun _ => ends_configDone rf hs hinit

/-- **Set-ups.** -/
theorem ends_phySetup (hS : Tracks S) (hleds : LedsAccepted c) (hmac : c.macIf.isOther = false)
    (hspeed : c.conf.speed = .auto ∨ c.conf.speed = .m100 ∨ c.conf.speed = .g1) (hid : Ids m c.dev) (polls : Nat) :
    Ends (SeesOn rf S h₀ c m) (phySetup rf.toBus polls)
      (fun _ => SeesOn rf S h₀ (setupData c) (applyAll live (setupAccesses c) m)) E := by
  refine (ends_phyGetDeviceInfo_on rf hs hS.id1 hS.id2 hid).bind fun _ => ?_
  refine (ends_phyReset rf hs hS hleds polls).bind fun _ => ?_
  refine Ends.bind (ends_getConf_on rf ((ends_script_on rf hs _).bind fun _ => ends_configMac rf hs hmac)) fun _ => ?_
  refine ends_getConf_on rf ?_
  have hjoin : ∀ s, SeesOn rf S h₀ (setupData c) (applyAll live doneAccesses (applyAll live (modeAccesses c)
      (applyAll live (macAccesses c) (applyAll live (pcsAccesses c.own.drvId) (applyAll live (restartAccesses c) m))))) s →
      SeesOn rf S h₀ (setupData c) (applyAll live (setupAccesses c) m) s := by
    intro s hsee
    rwa [← applyAll_append, ← applyAll_append, ← applyAll_append, ← applyAll_append] at hsee
  refine Ends.weaken (Ends.ite (fun hauto => ?_) fun hauto => ?_) (fun _ => hjoin) fun _ h => h
  · have hmode : modeAccesses c = anegAccesses c.conf c.mediaIntf := if_pos hauto
    rw [hmode]
    exact (ends_script_on rf hs _).bind fun _ => ends_configDone rf hs rfl
  · have hforced : ¬c.conf.speed = .auto := hauto
    obtain ⟨as, has⟩ : ∃ as, speedAccesses c.conf.speed = some as := by
      rcases hspeed.resolve_left hforced with h | h <;> exact ⟨_, by rw [h]; rfl⟩
    have hmode : modeAccesses c = phyMmdRegWr .pmapmd 0x0834 (forcedWord c.conf c.mediaIntf) :: as := by
      rw [modeAccesses, if_neg hforced, has]
      rfl
    rw [hmode, applyAll_cons]
    refine (ends_script_on rf hs _).bind fun _ => ?_
    exact ends_phyConfig rf hs rfl has

end On

end Lan80xx.Lan8x8x
