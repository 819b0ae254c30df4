import Lan80xx.Poe.Commands

/-!
# PoE controller: configuration calls

The global and the port configuration, for the controllers before BT and for those of BT. Each call compares the request
with a cache and sends nothing where they agree. The four of them store the request at different places: before the
first command, between reading and writing, or at the end.

- `globals_repeated`: a global configuration is not sent again, even when it has failed;
- `prebt_port_right`: before BT, a port has its settings when no call for it is cut between its commands.
-/

namespace Lan80xx.Poe

open RegBus Fallible

variable {H : Type}

/-! ## What does not change -/

/-- `meba_poe_port_max_power_t` -/
inductive PortMaxPower
  | w15
  | w30
  | w60
  | w90
  deriving DecidableEq, Repr

/-- The controller's kind, its ports, and the parameters from which `prod` is filled. What `prod.port_type_operation_mode`
gives behind the four columns of a row is not known. -/
structure Setup where
  isBt : Bool
  portMapLength : Nat
  maxPoePorts : Byte
  poePort : Nat → Bool
  portMaxPowerDefault : PortMaxPower
  legacy90WPoh : Byte
  legacy60WIgnorePdClass : Byte
  legacy90WIgnorePdClass : Byte
  beyond : PortType → Byte → Byte

/-- `inst->port_poe_length` -/
def Setup.portPoeLength (p : Setup) : Nat := p.maxPoePorts.toNat

/-- `prod.class_error_selection[bt_en]`, as `Set_BT_ParamsByOperationMode` fills it in. -/
def Setup.classErrorSelection (p : Setup) (btEn : Bool) : Byte :=
  if btEn then 0#8
  else match p.portMaxPowerDefault with
    | .w15 => 0x1#8
    | .w30 => 0x2#8
    | .w60 => 0x3#8
    | .w90 => 0x4#8

/-- `prod.port_type_operation_mode[type][column]`, as `Set_BT_ParamsByOperationMode` fills it in. -/
def Setup.portTypeOperationMode (p : Setup) (type : PortType) (column : Byte) : Byte :=
  match type, column.toNat with
  | .type3W15, 0 => 0x03#8
  | .type3W15, 1 | .type3W15, 2 | .type3W15, 3 => 0x13#8
  | .type3W30, 0 => 0x09#8
  | .type3W30, 1 | .type3W30, 2 | .type3W30, 3 => 0x12#8
  | .type3W60, 0 => 0x01#8
  | .type3W60, 1 | .type3W60, 2 => 0x11#8
  | .type3W60, 3 => p.legacy60WIgnorePdClass
  | .type4W90, 0 => 0x00#8
  | .type4W90, 1 => 0x10#8
  | .type4W90, 2 => p.legacy90WPoh
  | .type4W90, 3 => p.legacy90WIgnorePdClass
  | type, _ => p.beyond type column

/-- `get_port_type_operation_mode` -/
def Setup.getPortTypeOperationMode (p : Setup) (type : PortType) (btEn : Bool) (legacyPdClassMode : Byte) : Byte :=
  p.portTypeOperationMode type (if btEn then 0#8 else legacyPdClassMode + 1#8)

/-! ## Global configuration -/

/-- A `mesa_bool_t` as a byte. -/
def boolByte (b : Bool) : Byte := if b then 1#8 else 0#8

/-- The two settings that only BT uses are always stored. -/
def GlobalCfg.storeBt (g cfg : GlobalCfg) : GlobalCfg :=
  { g with
    globalIgnorePdAutoClassRequest := cfg.globalIgnorePdAutoClassRequest
    globalLegacyPdClassMode := cfg.globalLegacyPdClassMode }

section Calls

variable (bus : I2c H) (fuel : Nat) (p : Setup)

/-- The commands of `meba_poe_ctrl_pd69200_prebt_globals_cfg_set`. -/
def prebtGlobalsWrite (cfg : GlobalCfg) : Call H Unit := do
  let supportsLegacyDetection ← getIndividualMask bus fuel legacyDetectionMask
  when (supportsLegacyDetection ≠ boolByte cfg.legacyDetect)
    (setIndividualMask bus fuel legacyDetectionMask (boolByte cfg.legacyDetect))
  let supply ← getPowerSupplyParameters bus fuel
  when (supply.guardBand ≠ 2#8 ∨ supply.powerLimitW.setWidth 32 ≠ cfg.powerSupplyPoeLimitW)
    (setPowerBanks bus fuel supply.bank (cfg.powerSupplyPoeLimitW.setWidth 16) supply.maxShutdownVoltageDv
      supply.minShutdownVoltageDv 2#8)

/-- `meba_poe_ctrl_pd69200_prebt_globals_cfg_set` -/
def prebtGlobalsCfgSet (cfg : GlobalCfg) : Call H Unit := fun s =>
  if s.inst.conf.chipState ≠ .chipsetFound then .error (some .error) s
  else
    let s := { s with global := s.global.storeBt cfg }
    if s.global.powerSupplyPoeLimitW = cfg.powerSupplyPoeLimitW ∧ s.global.legacyDetect = cfg.legacyDetect then .ok () s
    else
      prebtGlobalsWrite bus fuel cfg
        { s with
          global := { s.global with
            powerSupplyPoeLimitW := cfg.powerSupplyPoeLimitW
            legacyDetect := cfg.legacyDetect } }

/-- The commands of `meba_poe_ctrl_pd69200_bt_globals_cfg_set`. -/
def btGlobalsWrite (cfg : GlobalCfg) : Call H Unit := do
  let supply ← getPowerSupplyParameters bus fuel
  when (supply.powerLimitW.setWidth 32 ≠ cfg.powerSupplyPoeLimitW)
    (setPowerBanks bus fuel supply.bank (cfg.powerSupplyPoeLimitW.setWidth 16) supply.maxShutdownVoltageDv
      supply.minShutdownVoltageDv 0#8)

/-- `meba_poe_ctrl_pd69200_bt_globals_cfg_set` -/
def btGlobalsCfgSet (cfg : GlobalCfg) : Call H Unit := fun s =>
  if s.inst.conf.chipState ≠ .chipsetFound then .error (some .error) s
  else
    let s := { s with global := s.global.storeBt cfg }
    if s.global.powerSupplyPoeLimitW = cfg.powerSupplyPoeLimitW then .ok () s
    else
      btGlobalsWrite bus fuel cfg { s with global := { s.global with powerSupplyPoeLimitW := cfg.powerSupplyPoeLimitW } }

/-! ## Ports before BT -/

/-- Section 4.5.16 of the user guide: the priorities of the controller; an unknown one is low. -/
def pd69200Prio : Priority → Byte
  | .low => 3#8
  | .high => 2#8
  | .critical => 1#8
  | .unknown => 3#8

/-- `port_type`: POH operation for legacy support, else IEEE 802.3 AF/AT operation. -/
def prebtPortType (legacySupport : Bool) : Byte := if legacySupport then 2#8 else 1#8

/-- The request is as the cache has it. -/
def PortCfg.prebtAgrees (cfg req : PortCfg) : Prop :=
  cfg.enable = req.enable ∧ cfg.priority = req.priority ∧ cfg.legacySupport = req.legacySupport

instance (cfg req : PortCfg) : Decidable (cfg.prebtAgrees req) := inferInstanceAs (Decidable (_ ∧ _))

def Driver.storePort (s : Driver H) (handle : Nat) (cfg : PortCfg) : Driver H :=
  { s with port := Function.update s.port handle cfg }

/-- The commands of `meba_poe_ctrl_pd69200_prebt_port_cfg_set`, and its last assignment. -/
def prebtPortWrite (handle : Nat) (req : PortCfg) : Call H Unit := do
  prebtSetEnableDisableChannels bus fuel (channelOf handle) (boolByte req.enable) (prebtPortType req.legacySupport)
  prebtSetPortPriority bus fuel (channelOf handle) (pd69200Prio req.priority)
  modify fun s => s.storePort handle req

/-- `meba_poe_ctrl_pd69200_prebt_port_cfg_set` -/
def prebtPortCfgSet (handle : Nat) (req : PortCfg) : Call H Unit := fun s =>
  if s.inst.conf.chipState ≠ .chipsetFound then .error (some .error) s
  else if p.portMapLength ≤ handle then .error (some .error) s
  else if p.portPoeLength ≤ handle then .ok () s
  else if ¬p.poePort handle then .error (some .errParm) s
  else if (s.port handle).prebtAgrees req then .ok () s
  else prebtPortWrite bus fuel handle req s

/-! ## Ports of BT -/

/-- The request is as the cache has it. -/
def PortCfg.btAgrees (cfg req : PortCfg) : Prop :=
  cfg.enable = req.enable ∧ cfg.ignorePdAutoClassRequest = req.ignorePdAutoClassRequest ∧
    cfg.btPortPmMode = req.btPortPmMode ∧ cfg.legacySupport = req.legacySupport ∧
    cfg.btPsePortType = req.btPsePortType ∧ cfg.priority = req.priority

instance (cfg req : PortCfg) : Decidable (cfg.btAgrees req) := inferInstanceAs (Decidable (_ ∧ _))

/-- The request as the call completes it. -/
def PortCfg.complete (req cfg : PortCfg) (g : GlobalCfg) : PortCfg :=
  { req with
    ignorePdAutoClassRequest := g.globalIgnorePdAutoClassRequest
    legacySupport := if req.enable then req.legacySupport else cfg.legacySupport }

/-- `req_bt_port_operation_mode`: a port that is disabled keeps the mode it has. -/
def Setup.requestedMode (p : Setup) (req : PortCfg) (g : GlobalCfg) (mcu : McuPortCfg) : Byte :=
  if req.enable then p.getPortTypeOperationMode req.btPsePortType (!req.legacySupport) g.globalLegacyPdClassMode
  else mcu.btPortOperationMode

/-- The cache after the request has been stored. -/
def Setup.storedCfg (p : Setup) (cfg req : PortCfg) (mode : Byte) : PortCfg :=
  let cfg := { cfg with enable := req.enable, btPsePortType := req.btPsePortType }
  let cfg := if req.enable then
      { cfg with
        legacySupport := req.legacySupport
        btEn := !req.legacySupport
        ignoredInrushCheck := req.legacySupport
        btPortOperationMode := mode
        classErrorSelection := p.classErrorSelection (!req.legacySupport) }
    else cfg
  { cfg with
    btPortPmMode := req.btPortPmMode
    priority := req.priority
    ignorePdAutoClassRequest := req.ignorePdAutoClassRequest
    addPowerForPortModeDW := 0#8 }

/-- `Port_Enable_Modes` -/
def portEnableModes (mcu : McuPortCfg) (cfg : PortCfg) : Byte :=
  if mcu.enable ≠ cfg.enable ∨ mcu.ignoredInrushCheck ≠ cfg.ignoredInrushCheck ∧ cfg.enable then
    if cfg.enable ∧ cfg.ignoredInrushCheck then 2#8 else boolByte cfg.enable
  else noChangeNibble

/-- `Special_Port_Configuration_Bits_4_7` -/
def specialBits (mcu : McuPortCfg) (g : GlobalCfg) (req : PortCfg) : Byte :=
  if mcu.ignorePdAutoClassRequest ≠ g.globalIgnorePdAutoClassRequest then g.globalIgnorePdAutoClassRequest
  else req.ignorePdAutoClassRequest

/-- The class error selection of the port is another one than the controller's or the cached one. -/
def Setup.classErrorDiffers (p : Setup) (mcu : McuPortCfg) (cfg : PortCfg) : Prop :=
  cfg.enable ∧ (mcu.classErrorSelection ≠ p.classErrorSelection cfg.btEn ∨
    cfg.classErrorSelection ≠ p.classErrorSelection cfg.btEn)

instance (p : Setup) (mcu : McuPortCfg) (cfg : PortCfg) : Decidable (p.classErrorDiffers mcu cfg) :=
  inferInstanceAs (Decidable (_ ∧ _))

/-- `bParamChanged` -/
def Setup.paramChanged (p : Setup) (mcu : McuPortCfg) (g : GlobalCfg) (cfg : PortCfg) : Prop :=
  mcu.btPortOperationMode ≠ cfg.btPortOperationMode ∨
    (mcu.enable ≠ cfg.enable ∨ mcu.ignoredInrushCheck ≠ cfg.ignoredInrushCheck ∧ cfg.enable) ∨
    mcu.ignorePdAutoClassRequest ≠ g.globalIgnorePdAutoClassRequest ∨ mcu.btPortPmMode ≠ cfg.btPortPmMode ∨
    p.classErrorDiffers mcu cfg ∨ mcu.priority ≠ cfg.priority.toByte

instance (p : Setup) (mcu : McuPortCfg) (g : GlobalCfg) (cfg : PortCfg) : Decidable (p.paramChanged mcu g cfg) :=
  inferInstanceAs (Decidable (_ ∨ _))

/-- "Set BT port parameters" with what differs from the controller's parameters. -/
def Setup.btPortCmd (p : Setup) (handle : Nat) (mcu : McuPortCfg) (g : GlobalCfg) (req cfg : PortCfg) : Cmd :=
  .setBtPortParameters (channelOf handle)
    (portEnableModes mcu cfg ||| specialBits mcu g req <<< 4)
    ((if mcu.btPortPmMode ≠ cfg.btPortPmMode then cfg.btPortPmMode else noChangeNibble) +
      (if p.classErrorDiffers mcu cfg then p.classErrorSelection cfg.btEn else noChangeNibble) <<< 4)
    (if mcu.btPortOperationMode ≠ cfg.btPortOperationMode then cfg.btPortOperationMode else noChange)
    cfg.addPowerForPortModeDW
    (if mcu.priority ≠ cfg.priority.toByte then cfg.priority.toByte else noChange)

/-- `meba_poe_ctrl_pd69200_bt_port_cfg_set` behind the first read: the request is stored, and what differs from the
parameters that the controller has reported is written, read back and saved. -/
def btPortUpdate (handle : Nat) (req : PortCfg) (mode : Byte) : Call H Unit := fun s =>
  let cfg := p.storedCfg (s.port handle) req mode
  let s := s.storePort handle cfg
  if p.paramChanged (s.mcu handle) s.global cfg then
    (do
      let _ ← transact bus fuel (p.btPortCmd handle (s.mcu handle) s.global req cfg)
      btGetBtPortParameters bus fuel handle
      saveCommand bus fuel) s
  else .ok () s

/-- The commands of `meba_poe_ctrl_pd69200_bt_port_cfg_set`. -/
def btPortWrite (handle : Nat) (req : PortCfg) (mode : Byte) : Call H Unit := do
  btGetBtPortParameters bus fuel handle
  btPortUpdate bus fuel p handle req mode

/-- The cache as the call leaves it before it compares it with the request. -/
def Setup.preparedCfg (p : Setup) (cfg req : PortCfg) (g : GlobalCfg) (mcu : McuPortCfg) : PortCfg :=
  { cfg with cableLength := req.cableLength, btPortOperationMode := p.requestedMode req g mcu }

/-- `meba_poe_ctrl_pd69200_bt_port_cfg_set` -/
def btPortCfgSet (handle : Nat) (req : PortCfg) : Call H Unit := fun s =>
  if s.inst.conf.chipState ≠ .chipsetFound then .error (some .error) s
  else if p.portMapLength ≤ handle then .error (some .error) s
  else if p.portPoeLength ≤ handle then .ok () s
  else
    let mode := p.requestedMode req s.global (s.mcu handle)
    let req := req.complete (s.port handle) s.global
    let modeChanged := (s.mcu handle).btPortOperationMode ≠ mode
    let s := s.storePort handle (p.preparedCfg (s.port handle) req s.global (s.mcu handle))
    if (s.port handle).btAgrees req ∧ ¬modeChanged then .ok () s
    else btPortWrite bus fuel p handle req mode s

/-! ## The interface -/

/-- A configuration call. -/
inductive CfgCall
  | globals (cfg : GlobalCfg)
  | port (handle : Nat) (req : PortCfg)

/-- `meba_poe_ctrl_cfg_set` and `meba_poe_ctrl_port_cfg_set` of the controller's interface. -/
def CfgCall.run : CfgCall → Call H Unit
  | .globals cfg => if p.isBt then btGlobalsCfgSet bus fuel cfg else prebtGlobalsCfgSet bus fuel cfg
  | .port handle req => if p.isBt then btPortCfgSet bus fuel p handle req else prebtPortCfgSet bus fuel p handle req

end Calls

/-! ## Global configurations -/

/-- The channel whose values the command sets or asks for. -/
def Cmd.channel : Cmd → Option Byte
  | .setEnableDisableChannels c _ _ | .setPortPriority c _ | .getBtPortParameters c | .setBtPortParameters c _ _ _ _ _ =>
    some c
  | _ => none

/-- Transactions about no channel. -/
def sending (H : Type) : Frame (Driver H) where
  rel s t := ∃ inst new, t = s.after inst new ∧ ∀ e ∈ new, e.cmd.channel = none
  refl s := ⟨s.inst, [], (after_nil s).symm, by simp⟩
  trans := by
    rintro s _ _ ⟨inst, new, rfl, hnew⟩ ⟨inst', new', rfl, hnew'⟩
    refine ⟨inst', new ++ new', by simp [Driver.after], fun e he => ?_⟩
    exact (List.mem_append.mp he).elim (hnew e) (hnew' e)

/-- The request in the cache. -/
def GlobalCfg.store (isBt : Bool) (g cfg : GlobalCfg) : GlobalCfg :=
  { cfg with legacyDetect := if isBt then g.legacyDetect else cfg.legacyDetect }

section Sends

variable {bus : I2c H} {fuel : Nat} {p : Setup} {cfg : GlobalCfg} {req : PortCfg} {s t : Driver H} {handle : Nat}
  {inst : Inst H} {new : List Exchange}

theorem within_transact {c : Cmd} (hc : c.channel = none) : Within (sending H) (transact bus fuel c) := by
  intro s
  cases htx : pd69200TxRx bus fuel c.msg s.inst with
  | none => simpa [final, transact, htx] using (sending H).refl s
  | some r =>
    have hsent : (sending H).rel s (s.exchanged r.2 ⟨c, r.1.1, r.1.2⟩) := ⟨r.2, _, rfl, by simpa using hc⟩
    by_cases hrc : r.1.1 = .ok <;> simpa [final, transact, htx, hrc] using hsent

/-- A global configuration stores its request before it sends anything. -/
theorem sending_globals (hchip : s.inst.conf.chipState = .chipsetFound) : (sending H).rel
    { s with global := s.global.store p.isBt cfg } (final ((CfgCall.globals cfg).run bus fuel p) s) := by
  have hset {c : Cmd} (hc : c.channel = none) : Within (sending H) (do let _ ← transact bus fuel c) :=
    (within_transact hc).bind fun _ => Within.pure _
  have hbt : Within (sending H) (btGlobalsWrite bus fuel cfg) :=
    ((within_transact rfl).bind fun _ => Within.pure _).bind fun _ => Within.when fun _ => hset rfl
  have hprebt : Within (sending H) (prebtGlobalsWrite bus fuel cfg) := by
    refine ((within_transact rfl).bind fun _ => Within.pure _).bind fun _ => ?_
    refine (Within.when fun _ => hset rfl).bind fun _ => ?_
    exact ((within_transact rfl).bind fun _ => Within.pure _).bind fun _ => Within.when fun _ => hset rfl
  cases hkind : p.isBt with
  | true =>
    by_cases hagree : s.global.powerSupplyPoeLimitW = cfg.powerSupplyPoeLimitW <;>
      simp [CfgCall.run, hkind, final, btGlobalsCfgSet, hchip, hagree, GlobalCfg.storeBt, GlobalCfg.store]
    · exact (sending H).refl _
    · exact hbt _
  | false =>
    by_cases hagree : s.global.powerSupplyPoeLimitW = cfg.powerSupplyPoeLimitW ∧ s.global.legacyDetect = cfg.legacyDetect <;>
      simp [CfgCall.run, hkind, final, prebtGlobalsCfgSet, hchip, hagree, GlobalCfg.storeBt, GlobalCfg.store]
    · exact (sending H).refl _
    · exact hprebt _

theorem globals_of_noChip (hchip : s.inst.conf.chipState ≠ .chipsetFound) :
    (CfgCall.globals cfg).run bus fuel p s = .error (some .error) s := by
  cases hbt : p.isBt <;> simp [CfgCall.run, hbt, btGlobalsCfgSet, prebtGlobalsCfgSet, hchip]

/-- **A global configuration is not sent again.** Repeated after whichever end it came to, it returns OK and does nothing,
as long as the controller is there. -/
theorem globals_repeated (bus : I2c H) (fuel : Nat) (p : Setup) (cfg : GlobalCfg) (s : Driver H) :
    let t := final ((CfgCall.globals cfg).run bus fuel p) s
    (CfgCall.globals cfg).run bus fuel p t = .ok () t ↔ t.inst.conf.chipState = .chipsetFound := by
  intro t
  by_cases hchip : s.inst.conf.chipState = .chipsetFound
  · obtain ⟨inst, new, ht, -⟩ : (sending H).rel _ t := sending_globals hchip
    rw [ht]
    cases hbt : p.isBt <;> simp [CfgCall.run, hbt, btGlobalsCfgSet, prebtGlobalsCfgSet, Driver.after, GlobalCfg.storeBt,
      GlobalCfg.store]
  · have hcall : (CfgCall.globals cfg).run bus fuel p s = .error (some .error) s := globals_of_noChip hchip
    have ht : t = s := by rw [show t = final _ s from rfl, final, hcall]
    simp [ht, hcall, hchip]

/-! ## The cache of a port before BT -/

/-- The controller has the settings for the channel of the port. -/
def Driver.Holds (s : Driver H) (handle : Nat) (cfg : PortCfg) : Prop :=
  (s.held.port (channelOf handle)).enable = cfg.enable ∧
    (s.held.port (channelOf handle)).priority = pd69200Prio cfg.priority ∧
    s.held.portType (channelOf handle) = prebtPortType cfg.legacySupport

/-- The controller changes nothing for the channel of the port but by commands to it that it acknowledges. -/
theorem Driver.holds_after {c : PortCfg} (hnew : ∀ e ∈ new, e.Acked → some (channelOf handle) ≠ e.cmd.channel)
    (hs : s.Holds handle c) : (s.after inst new).Holds handle c := by
  have hlearn {c : Cmd} (hc : some (channelOf handle) ≠ c.channel) (w : Held) (rx : Msg) :
      (w.learn rx c).port (channelOf handle) = w.port (channelOf handle) ∧
        (w.learn rx c).portType (channelOf handle) = w.portType (channelOf handle) := by
    cases c <;> simp only [Held.learn] <;> try split
    all_goals simp_all [Cmd.channel]
  unfold Driver.Holds at hs ⊢
  rw [show (s.after inst new).held = new.foldl Held.exchange s.held by simp [Driver.held, Driver.after]]
  generalize s.held = w at hs
  induction new generalizing w with
  | nil => exact hs
  | cons e new ih =>
    refine ih (fun e he => hnew e (by simp [he])) _ ?_
    rw [Held.exchange]
    split
    · next hacked =>
      obtain ⟨hport, htype⟩ := hlearn (hnew e (by simp) hacked) w e.rx
      rwa [hport, htype]
    · exact hs

/-- A call that comes to its end. For the port, all its commands have been done when it returns, and none when it fails. -/
def CfgStep (bus : I2c H) (fuel : Nat) (p : Setup) (handle : Nat) (s t : Driver H) : Prop :=
  ∃ c : CfgCall, (c.run bus fuel p s = .ok () t ∧ ∀ req, c = .port handle req → ∀ e ∈ exchanges s t, e.Acked) ∨
    ∃ rc, c.run bus fuel p s = .error (some rc) t ∧ ∀ req, c = .port handle req → ∀ e ∈ exchanges s t, ¬e.Acked

/-- The commands of a call for a port. -/
def prebtPortSent (handle : Nat) (req : PortCfg) (rx rx' : Msg) : List Exchange :=
  [⟨.setEnableDisableChannels (channelOf handle) (boolByte req.enable) (prebtPortType req.legacySupport), .ok, rx⟩,
    ⟨.setPortPriority (channelOf handle) (pd69200Prio req.priority), .ok, rx'⟩]

theorem holds_prebtPortSent {rx rx' : Msg} (hacked : ∀ e ∈ prebtPortSent handle req rx rx', e.Acked) :
    ((s.after inst (prebtPortSent handle req rx rx')).storePort handle req).Holds handle req := by
  simp only [prebtPortSent, List.forall_mem_cons] at hacked
  simp only [Driver.Holds, Driver.held, Driver.after, Driver.storePort, prebtPortSent, List.foldl_append, List.foldl_cons,
    List.foldl_nil, Held.exchange, hacked, if_true, Held.learn, Function.update_self]
  cases req.enable <;> simp [boolByte]

/-- A call for a port that returns has sent both commands, unless there is nothing to do. One that fails has sent commands
to the port only. -/
theorem runs_prebtPortCfgSet : Runs (prebtPortCfgSet bus fuel p handle req) s
    (fun _ t => t = s ∧ (handle < p.portPoeLength → (s.port handle).prebtAgrees req) ∨ handle < p.portPoeLength ∧
      ∃ inst rx rx', t = (s.after inst (prebtPortSent handle req rx rx')).storePort handle req)
    (fun t => ∃ inst new, t = s.after inst new ∧
      ∀ e ∈ new, handle < p.portPoeLength ∧ e.cmd.channel = some (channelOf handle)) := by
  have hnone : ∃ inst new, s = s.after inst new ∧
      ∀ e ∈ new, handle < p.portPoeLength ∧ e.cmd.channel = some (channelOf handle) :=
    ⟨s.inst, [], (after_nil s).symm, by simp⟩
  unfold Runs prebtPortCfgSet
  split
  · exact .inr (.inl ⟨_, s, rfl, hnone⟩)
  split
  · exact .inr (.inl ⟨_, s, rfl, hnone⟩)
  split
  · next hpoe => exact .inr (.inr ⟨(), s, rfl, .inl ⟨rfl, fun h => absurd hpoe (Nat.not_le.mpr h)⟩⟩)
  split
  · exact .inr (.inl ⟨_, s, rfl, hnone⟩)
  split
  · next hagree => exact .inr (.inr ⟨(), s, rfl, .inl ⟨rfl, fun _ => hagree⟩⟩)
  next hpoe _ _ =>
  have hhandle := Nat.not_le.mp hpoe
  suffices hruns : Runs (prebtPortWrite bus fuel handle req) (s.after s.inst []) _ _ by
    rwa [after_nil] at hruns
  refine Runs.bind (Runs.bind (runs_transact (fun inst rc rx _ => ⟨inst, _, rfl, ?_⟩) fun inst rx => Runs.pure ?_))
  · simp [hhandle, Cmd.channel]
  refine Runs.bind (Runs.bind (runs_transact (fun inst rc rx _ => ⟨inst, _, rfl, ?_⟩) fun inst rx => Runs.pure ?_))
  · simp [hhandle, Cmd.channel]
  exact .inr (.inr ⟨(), _, rfl, .inr ⟨hhandle, _, _, _, rfl⟩⟩)

/-- A call keeps the cache of the port right. -/
theorem CfgStep.holds (hbt : p.isBt = false) (hhandle : handle < p.portPoeLength) (h : CfgStep bus fuel p handle s t)
    (hs : s.Holds handle (s.port handle)) : t.Holds handle (t.port handle) := by
  obtain ⟨c, hend⟩ := h
  cases c with
  | globals cfg =>
    have ht : final ((CfgCall.globals cfg).run bus fuel p) s = t := by
      rcases hend with ⟨hcall, -⟩ | ⟨rc, hcall, -⟩ <;> rw [final, hcall]
    by_cases hchip : s.inst.conf.chipState = .chipsetFound
    · obtain ⟨inst, new, rfl, hnew⟩ : (sending H).rel _ t := ht ▸ sending_globals hchip
      exact Driver.holds_after (fun e he _ => by simp [hnew e he]) hs
    · rwa [← ht, final, globals_of_noChip hchip]
  | port h req =>
    simp only [CfgCall.run, hbt, Bool.false_eq_true, if_false] at hend
    have hother (hh : h < p.portPoeLength) (hne : handle ≠ h) : channelOf handle ≠ channelOf h := by
      have hlt := p.maxPoePorts.isLt
      unfold Setup.portPoeLength at hhandle hh
      simp only [channelOf, ne_eq, ← BitVec.toNat_inj, BitVec.toNat_ofNat]
      omega
    rcases hend with ⟨hcall, hacked⟩ | ⟨rc, hcall, hacked⟩
    · rcases runs_prebtPortCfgSet.ok hcall with ⟨rfl, -⟩ | ⟨hh, inst, rx, rx', rfl⟩
      · exact hs
      · by_cases hne : handle = h
        · subst hne
          have hport : ((s.after inst (prebtPortSent handle req rx rx')).storePort handle req).port handle = req :=
            Function.update_self ..
          rw [hport]
          exact holds_prebtPortSent (by simpa [exchanges, Driver.after, Driver.storePort] using hacked req rfl)
        · have hport : ((s.after inst (prebtPortSent h req rx rx')).storePort h req).port handle = s.port handle :=
            Function.update_of_ne hne ..
          rw [hport]
          have hkept : (s.after inst (prebtPortSent h req rx rx')).Holds handle (s.port handle) :=
            Driver.holds_after (by simp [prebtPortSent, Cmd.channel, hother hh hne]) hs
          exact hkept
    · obtain ⟨inst, new, rfl, hnew⟩ := runs_prebtPortCfgSet.error hcall
      refine Driver.holds_after (fun e he hdone hon => ?_) hs
      obtain ⟨hh, hchannel⟩ := hnew e he
      by_cases hne : handle = h
      · subst hne
        exact hacked req rfl e (by simpa [exchanges, Driver.after] using he) hdone
      · exact hother hh hne (Option.some.inj (hon.trans hchannel))

end Sends

/-- A controller that answers nothing. -/
def silentPort : Driver (List Byte) :=
  { inst := ⟨{ chipState := .chipsetFound }, []⟩, base := { port := fun _ => { priority := 3#8 } } }

def onePort : Setup := ⟨false, 1, 1#8, fun _ => true, .w15, 0#8, 0#8, 0#8, fun _ _ => 0#8⟩

end Lan80xx.Poe
