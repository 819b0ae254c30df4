import Lan80xx.Poe.Transaction

/-!
# PoE controller: commands and what it has acknowledged

The commands of the configuration calls, each one transaction. The driver's state carries, besides the caches, a log of
the transactions; `held` reads off from it the values that the controller has last acknowledged or reported.
-/

namespace Lan80xx.Poe

open RegBus Fallible

variable {H : Type}

/-! ## Commands -/

/-- The commands that the configuration calls send. -/
inductive Cmd
  | getIndividualMask (mask : Byte)
  | setIndividualMask (mask val : Byte)
  | getPowerSupplyParameters
  | setPowerBanks (bank : Byte) (powerLimitW maxShutdownVoltageDv minShutdownVoltageDv : BitVec 16) (guardBand : Byte)
  | setEnableDisableChannels (channel cmd portType : Byte)
  | setPortPriority (channel priority : Byte)
  | getBtPortParameters (channel : Byte)
  | setBtPortParameters (channel cfg1 cfg2 operationMode addPower priority : Byte)
  | save
  deriving DecidableEq

def dummyByte : Byte := 0x4E#8

/-- `uint8_t buf[PD_BUFFER_SIZE] = { .. }`, filled up with `DUMMY_BYTE`. -/
def message (bytes : List Byte) : Msg := Vector.ofFn fun i => bytes.getD i.val dummyByte

/-- The high and the low byte of a word. -/
def wordBytes (w : BitVec 16) : List Byte := [(w >>> 8).setWidth 8, w.setWidth 8]

/-- The message of a command: key, sequence number, and the keys and data of the command. -/
def Cmd.msg : Cmd → Msg
  | .getIndividualMask mask => message [requestKey, 0x00#8, 0x07#8, 0x56#8, mask]
  | .setIndividualMask mask val => message [commandKey, 0x00#8, 0x07#8, 0x56#8, mask, val]
  | .getPowerSupplyParameters => message [requestKey, 0x00#8, 0x07#8, 0x0B#8, 0x17#8]
  | .setPowerBanks bank limit max min guardBand =>
    message ([commandKey, 0x00#8, 0x07#8, 0x0B#8, 0x57#8, bank] ++ wordBytes limit ++ wordBytes max ++ wordBytes min ++
      [guardBand])
  | .setEnableDisableChannels channel cmd portType =>
    message [commandKey, 0x00#8, 0x05#8, 0x0C#8, channel, cmd, portType]
  | .setPortPriority channel priority => message [commandKey, 0x00#8, 0x05#8, 0x0A#8, channel, priority]
  | .getBtPortParameters channel => message [requestKey, 0x00#8, 0x05#8, 0xC0#8, channel]
  | .setBtPortParameters channel cfg1 cfg2 operationMode addPower priority =>
    message [commandKey, 0x00#8, 0x05#8, 0xC0#8, channel, cfg1, cfg2, operationMode, addPower, priority]
  | .save => message [programKey, 0x00#8, 0x06#8, 0x0F#8]

/-- The command asks for values instead of setting some. -/
def Cmd.isRequest : Cmd → Bool
  | .getIndividualMask _ | .getPowerSupplyParameters | .getBtPortParameters _ => true
  | _ => false

/-! ## Replies -/

/-- `(buf[i] << 8) + buf[i + 1]` -/
def word (hi lo : Byte) : BitVec 16 := (hi.setWidth 16 <<< 8) + lo.setWidth 16

/-- The outputs of `pd69200_get_power_supply_parameters`. -/
structure PowerSupply where
  powerConsumptionW : BitVec 16
  maxShutdownVoltageDv : BitVec 16
  minShutdownVoltageDv : BitVec 16
  guardBand : Byte
  bank : Byte
  powerLimitW : BitVec 16

def PowerSupply.read (buf : Msg) : PowerSupply where
  powerConsumptionW := word (buf.byte 2) (buf.byte 3)
  maxShutdownVoltageDv := word (buf.byte 4) (buf.byte 5)
  minShutdownVoltageDv := word (buf.byte 6) (buf.byte 7)
  guardBand := buf.byte 8
  bank := buf.byte 9
  powerLimitW := word (buf.byte 10) (buf.byte 11)

/-- Bits 3 to 0, and bits 7 to 4. -/
def lowNibble (b : Byte) : Byte := b &&& 0x0F#8
def highNibble (b : Byte) : Byte := b >>> 4

/-- What a controller for BT reports of a port: the fields of `meba_poe_port_cfg_t` that
`meba_poe_pd69200_bt_get_BT_port_parameters` fills in. -/
structure McuPortCfg where
  enable : Bool := false
  ignoredInrushCheck : Bool := false
  ignorePdAutoClassRequest : Byte := 0#8
  btPortPmMode : Byte := 0#8
  classErrorSelection : Byte := 0#8
  btPortOperationMode : Byte := 0#8
  legacySupport : Bool := false
  addPowerForPortModeDW : Byte := 0#8
  priority : Byte := 0#8
  deriving DecidableEq

def McuPortCfg.read (buf : Msg) : McuPortCfg where
  enable := 0#8 < lowNibble (buf.byte 3)
  ignoredInrushCheck := lowNibble (buf.byte 3) = 2#8
  ignorePdAutoClassRequest := highNibble (buf.byte 3) &&& 1#8
  btPortPmMode := lowNibble (buf.byte 4)
  classErrorSelection := lowNibble (highNibble (buf.byte 4))
  btPortOperationMode := buf.byte 5
  legacySupport := 0x03#8 < buf.byte 5
  addPowerForPortModeDW := buf.byte 6
  priority := buf.byte 7

/-! ## What the controller holds -/

/-- One transaction. -/
structure Exchange where
  cmd : Cmd
  rc : Rc
  rx : Msg

/-- The controller has done what the command asks for. `pd69200_tx_rx` also returns OK for a report that is not ok. -/
def Exchange.Acked (e : Exchange) : Prop := e.rc = .ok ∧ (e.cmd.isRequest ∨ reportKeyOk e.rx)

instance (e : Exchange) : Decidable e.Acked := inferInstanceAs (Decidable (_ ∧ _))

/-- `ePort_EnDis_No_change`, `BT_port_PM_mode_Do_not_change_settings` and `eClass_error_Do_not_change_settings` -/
def noChangeNibble : Byte := 0x0F#8

/-- `BT_Mode_No_change` and `ePORT_PRIORITY_NoChange` -/
def noChange : Byte := 0xFF#8

/-- A value of a command, unless it says that nothing changes. -/
def keepOr (none old new : Byte) : Byte := if new = none then old else new

/-- The parameters of a port after "set BT port parameters". -/
def McuPortCfg.write (p : McuPortCfg) (cfg1 cfg2 operationMode addPower priority : Byte) : McuPortCfg where
  enable := if lowNibble cfg1 = noChangeNibble then p.enable else 0#8 < lowNibble cfg1
  ignoredInrushCheck := if lowNibble cfg1 = noChangeNibble then p.ignoredInrushCheck else lowNibble cfg1 = 2#8
  ignorePdAutoClassRequest :=
    if highNibble cfg1 = noChangeNibble then p.ignorePdAutoClassRequest else highNibble cfg1 &&& 1#8
  btPortPmMode := keepOr noChangeNibble p.btPortPmMode (lowNibble cfg2)
  classErrorSelection := keepOr noChangeNibble p.classErrorSelection (highNibble cfg2)
  btPortOperationMode := keepOr noChange p.btPortOperationMode operationMode
  legacySupport := 0x03#8 < keepOr noChange p.btPortOperationMode operationMode
  addPowerForPortModeDW := addPower
  priority := keepOr noChange p.priority priority

/-- The values of the controller, as far as the configuration calls set them. -/
structure Held where
  powerLimitW : BitVec 16 := 0#16
  supportsLegacyDetection : Byte := 0#8
  port : Byte → McuPortCfg := fun _ => {}
  portType : Byte → Byte := fun _ => 1#8

/-- `INDV_MASK_PREBT_SUPPORTS_LEGACY_DETECTION` -/
def legacyDetectionMask : Byte := 0x01#8

/-- What an acknowledged transaction says of the values. -/
def Held.learn (w : Held) (rx : Msg) : Cmd → Held
  | .getIndividualMask mask => if mask = legacyDetectionMask then { w with supportsLegacyDetection := rx.byte 2 } else w
  | .setIndividualMask mask val => if mask = legacyDetectionMask then { w with supportsLegacyDetection := val } else w
  | .getPowerSupplyParameters => { w with powerLimitW := (PowerSupply.read rx).powerLimitW }
  | .setPowerBanks _ limit _ _ _ => { w with powerLimitW := limit }
  | .setEnableDisableChannels channel cmd portType =>
    { w with
      port := Function.update w.port channel { w.port channel with enable := cmd ≠ 0#8 }
      portType := Function.update w.portType channel portType }
  | .setPortPriority channel priority =>
    { w with port := Function.update w.port channel { w.port channel with priority } }
  | .getBtPortParameters channel => { w with port := Function.update w.port channel (.read rx) }
  | .setBtPortParameters channel cfg1 cfg2 operationMode addPower priority =>
    { w with
      port := Function.update w.port channel ((w.port channel).write cfg1 cfg2 operationMode addPower priority) }
  | .save => w

def Held.exchange (w : Held) (e : Exchange) : Held := if e.Acked then w.learn e.rx e.cmd else w

/-! ## The driver -/

/-- `meba_poe_pd_power_priority_t` -/
inductive Priority
  | unknown
  | critical
  | high
  | low
  deriving DecidableEq, Repr

/-- The number of an enumerator. -/
def Priority.toByte : Priority → Byte
  | .unknown => 0#8
  | .critical => 1#8
  | .high => 2#8
  | .low => 3#8

/-- `meba_poe_port_type_t` -/
inductive PortType
  | type3W15
  | type3W30
  | type3W60
  | type4W90
  deriving DecidableEq, Repr

/-- `meba_poe_global_cfg_t` -/
structure GlobalCfg where
  powerSupplyPoeLimitW : BitVec 32 := 0#32
  legacyDetect : Bool := false
  globalIgnorePdAutoClassRequest : Byte := 0#8
  globalLegacyPdClassMode : Byte := 0#8
  deriving DecidableEq

/-- `meba_poe_port_cfg_t` -/
structure PortCfg where
  enable : Bool := false
  legacySupport : Bool := false
  priority : Priority := .unknown
  btPsePortType : PortType := .type3W15
  cableLength : Nat := 255
  btEn : Bool := false
  ignoredInrushCheck : Bool := false
  ignorePdAutoClassRequest : Byte := 0#8
  btPortPmMode : Byte := 0#8
  classErrorSelection : Byte := 0#8
  btPortOperationMode : Byte := 0#8
  addPowerForPortModeDW : Byte := 0#8
  deriving DecidableEq

/-- `cfg` and `cfg_POEMCU` of `poe_driver_private_t`. The last two fields are not data of the driver: what the controller
has held at the start, and the transactions since then. -/
structure Driver (H : Type) where
  inst : Inst H
  global : GlobalCfg := {}
  port : Nat → PortCfg := fun _ => {}
  mcu : Nat → McuPortCfg := fun _ => {}
  base : Held := {}
  log : List Exchange := []

/-- The values that the controller has last acknowledged or reported. -/
def Driver.held (s : Driver H) : Held := s.log.foldl Held.exchange s.base

/-- A transaction has been made. -/
def Driver.exchanged (s : Driver H) (inst : Inst H) (e : Exchange) : Driver H := { s with inst, log := s.log ++ [e] }

/-- A call of the driver. It fails with a return code, or with `none` for a transaction that has not come to its end. -/
abbrev Call (H α : Type) := EStateM (Option Rc) (Driver H) α

variable (bus : I2c H) (fuel : Nat)

/-- `MESA_RC(pd69200_tx_rx(..))` with the buffer of a command. -/
def transact (c : Cmd) : Call H Msg := fun s =>
  match pd69200TxRx bus fuel c.msg s.inst with
  | none => .error none s
  | some ((rc, rx), inst) =>
    if rc = .ok then .ok rx (s.exchanged inst ⟨c, rc, rx⟩) else .error (some rc) (s.exchanged inst ⟨c, rc, rx⟩)

/-- `meba_poe_pd69200_get_individual_mask` -/
def getIndividualMask (mask : Byte) : Call H Byte := do
  let buf ← transact bus fuel (.getIndividualMask mask)
  pure (buf.byte 2)

/-- `meba_poe_pd69200_set_individual_mask` -/
def setIndividualMask (mask val : Byte) : Call H Unit := do
  let _ ← transact bus fuel (.setIndividualMask mask val)

/-- `pd69200_get_power_supply_parameters` -/
def getPowerSupplyParameters : Call H PowerSupply := do
  let buf ← transact bus fuel .getPowerSupplyParameters
  pure (.read buf)

/-- `meba_poe_pd69200_set_power_banks` -/
def setPowerBanks (bank : Byte) (powerLimitW maxShutdownVoltageDv minShutdownVoltageDv : BitVec 16)
    (guardBand : Byte) : Call H Unit := do
  let _ ← transact bus fuel (.setPowerBanks bank powerLimitW maxShutdownVoltageDv minShutdownVoltageDv guardBand)

/-- `meba_poe_pd69200_prebt_set_enable_disable_channels` -/
def prebtSetEnableDisableChannels (channel cmd portType : Byte) : Call H Unit := do
  let _ ← transact bus fuel (.setEnableDisableChannels channel cmd portType)

/-- `meba_poe_pd69200_prebt_set_port_priority` -/
def prebtSetPortPriority (channel priority : Byte) : Call H Unit := do
  let _ ← transact bus fuel (.setPortPriority channel priority)

/-- `uint8_t channel = handle` -/
def channelOf (handle : Nat) : Byte := BitVec.ofNat 8 handle

/-- `meba_poe_pd69200_bt_get_BT_port_parameters`, into `cfg_POEMCU.ports[handle]`. -/
def btGetBtPortParameters (handle : Nat) : Call H Unit := do
  let buf ← transact bus fuel (.getBtPortParameters (channelOf handle))
  modify fun s => { s with mcu := Function.update s.mcu handle (.read buf) }

/-- `meba_poe_ctrl_pd69200_save_command` -/
def saveCommand : Call H Unit := do
  let _ ← transact bus fuel .save

/-! ## Calls by their transactions -/

/-- More transactions have been made. -/
def Driver.after (s : Driver H) (inst : Inst H) (new : List Exchange) : Driver H := { s with inst, log := s.log ++ new }

/-- The transactions between two states. -/
def exchanges (s t : Driver H) : List Exchange := t.log.drop s.log.length

theorem after_nil (s : Driver H) : s.after s.inst [] = s := by
  simp [Driver.after]

theorem after_exchanged (s : Driver H) (inst inst' : Inst H) (new : List Exchange) (e : Exchange) :
    (s.after inst new).exchanged inst' e = s.after inst' (new ++ [e]) := by
  simp [Driver.after, Driver.exchanged]

/-- A call does not come to its end, or fails in `E`, or returns in `Q`. -/
def Runs {α : Type} (x : Call H α) (s : Driver H) (Q : α → Driver H → Prop) (E : Driver H → Prop) : Prop :=
  (∃ t, x s = .error none t) ∨ (∃ rc t, x s = .error (some rc) t ∧ E t) ∨ ∃ a t, x s = .ok a t ∧ Q a t

section Runs

variable {bus fuel} {α β : Type} {x : Call H α} {f : α → Call H β} {s t : Driver H} {Q : α → Driver H → Prop}
  {R : β → Driver H → Prop} {E : Driver H → Prop}

theorem Runs.pure {a : α} (h : Q a s) : Runs (pure a : Call H α) s Q E := .inr (.inr ⟨a, s, rfl, h⟩)

theorem Runs.bind (hx : Runs x s (fun a t => Runs (f a) t R E) E) : Runs (x >>= f) s R E := by
  rcases hx with ⟨t, hxs⟩ | ⟨rc, t, hxs, hE⟩ | ⟨a, t, hxs, hf⟩
  · exact .inl ⟨t, by simp [Bind.bind, EStateM.bind, hxs]⟩
  · exact .inr (.inl ⟨rc, t, by simp [Bind.bind, EStateM.bind, hxs], hE⟩)
  · rw [Runs, bind_of_ok hxs]
    exact hf

theorem Runs.ok (h : Runs x s Q E) {a : α} (hx : x s = .ok a t) : Q a t := by
  rcases h with ⟨u, hu⟩ | ⟨rc, u, hu, -⟩ | ⟨b, u, hu, hQ⟩
  · rw [hu] at hx
    cases hx
  · rw [hu] at hx
    cases hx
  · rw [hu] at hx
    cases hx
    exact hQ

theorem Runs.error (h : Runs x s Q E) {rc : Rc} (hx : x s = .error (some rc) t) : E t := by
  rcases h with ⟨u, hu⟩ | ⟨rc', u, hu, hE⟩ | ⟨b, u, hu, -⟩
  · rw [hu] at hx
    cases hx
  · rw [hu] at hx
    cases hx
    exact hE
  · rw [hu] at hx
    cases hx

/-- A transaction that ends adds itself to the log, and the call goes on only when its return code is OK. -/
theorem runs_transact {c : Cmd} {inst : Inst H} {new : List Exchange} {T : Msg → Driver H → Prop}
    (hfail : ∀ inst rc rx, rc ≠ .ok → E (s.after inst (new ++ [⟨c, rc, rx⟩])))
    (hok : ∀ inst rx, T rx (s.after inst (new ++ [⟨c, .ok, rx⟩]))) :
    Runs (transact bus fuel c) (s.after inst new) T E := by
  cases htx : pd69200TxRx bus fuel c.msg (s.after inst new).inst with
  | none => exact .inl ⟨s.after inst new, by simp [transact, htx]⟩
  | some r =>
    obtain ⟨⟨rc, rx⟩, inst'⟩ := r
    apply Or.inr
    by_cases hrc : rc = .ok
    · subst hrc
      exact .inr ⟨rx, _, by simp [transact, htx, after_exchanged], hok inst' rx⟩
    · exact .inl ⟨rc, _, by simp [transact, htx, hrc, after_exchanged], hfail inst' rc rx hrc⟩

end Runs

end Lan80xx.Poe
