import Lan80xx.Macsec.Sa

/-!
# MACsec: channels, match patterns and SecYs

The functions of one SecY above its SAs, and the exported calls (`Op`, `Op.call`): each looks up the SecY of a port
(`portCheck`) and works on it.
-/

namespace Lan80xx.Macsec

open Fallible RegBus MacsecConf

variable {H : Type} (bus : PortBus H)

/-! ## Channels -/

/-- Disable and delete every transmit SA of a SecY, as `tx_sc_del_` and `secy_conf_update_priv` do. -/
def txSasDel (i : Nat) : Call H Unit :=
  forUpTo saPerScMax fun an => do
    let c ← getConf
    when (((c.secy i).txSc.sa an).isSome = true) do
      orFail (txSaDisable bus i an) (.macsec .couldNotDisableSa)
      orFail (txSaDel bus i an) (.macsec .couldNotDelTxSa)

/-- `lan80xx_macsec_tx_sc_del_`. -/
def txScDel (i : Nat) : Call H Unit := do
  let c ← getConf
  failIf ((c.secy i).txSc.inUse = false) (.macsec .txScNotExist)
  txSasDel bus i
  modifyConf fun c => clearTxSc i c

/-- `lan80xx_macsec_tx_sc_set_`. -/
def txScSet (i : Nat) : Call H Unit := do
  let c ← getConf
  failIf (isSciValid (c.secy i).sci = false) (.macsec .invalidSciMacaddr)
  modifyConf fun c => openTxSc i c

/-- Disable and delete every receive SA of the channel `sc`, as `rx_sc_del_` and `secy_conf_update_priv` do. -/
def rxSasDel (i sc : Nat) (sci : Sci) : Call H Unit :=
  forUpTo saPerScMax fun an => do
    let c ← getConf
    when (((c.rxScAt i sc).sa an).isSome = true) do
      when ((c.rxSaAt i sc an).statusInUse = true) (orFail (rxSaDisable bus i sci an) (.macsec .couldNotDisableSa))
      orFail (rxSaDel bus i sci an) (.macsec .couldNotDelRxSa)

/-- `lan80xx_macsec_rx_sc_del_`. -/
def rxScDel (i : Nat) (sci : Sci) : Call H Unit := do
  let sc ← scFromSci i sci
  rxSasDel bus i sc sci
  let c ← getConf
  csrWr bus rxscEntryEnableCtrlReg (field (word (c.rxScAt i sc).hwScIdx) 0 6)
  modifyConf fun c => freeRxSc i c sc
  updateGlbValidate bus

/-- The places `rx_sc_add_` takes: in the SecY, in `rx_sc`, and in the CAM. -/
def rxScPlace (c : MacsecConf) (i : Nat) : Option (Nat × Nat × Nat) := do
  let sc ← (List.range maxRxSc).find? fun sc => ((c.secy i).rxSc sc).isNone
  let p ← (List.range maxRxSc).find? fun p => !(c.rxSc p).inUse
  let hw ← (List.range maxRxSc).find? fun hw => !c.rxScHwIdxInUse.getLsbD hw
  return (sc, p, hw)

/-- `lan80xx_macsec_rx_sc_add_`. -/
def rxScAdd (i : Nat) (sci : Sci) : Call H Unit := do
  let c ← getConf
  failIf (checkResources c true i = false) (.macsec .hwResourceExhusted)
  failIf (isSciValid sci = false) (.macsec .invalidSciMacaddr)
  failIf (∃ p < maxRxSc, (c.rxSc p).sci = sci) (.macsec .sciAlreadyExists)
  match rxScPlace c i with
  | none => dbgCounterIncr .scResourceNotFound
  | some (sc, p, hw) => modifyConf fun c => addRxSc i c sc p hw sci

/-! ## Match patterns -/

/-- `lan80xx_macsec_pattern_set_`. -/
def patternSet (i : Nat) (d : Direction) (a : MatchAction) (pattern : MatchPattern) : Call H Unit := do
  let c ← getConf
  failIf ((c.secy i).patternRecord a d ≠ notInUse) .error
  match c.recordEmptyGet d with
  | none => dbgCounterIncr .emptyRecord
  | some record => do
    failIf (matchPriorityLowest < pattern.priority) (.macsec .patternPrioNotValid)
    modifyConf fun c => linkPattern i c a d record
    orFail (saTcamKeyMaskSet bus d record i i pattern) (.macsec .couldNotPrgSaMatch)
    orFail (saTcamPolicyUnctrlDrop bus record d a) (.macsec .couldNotPrgSaMatch)
    orFail (saEnable bus record d true) (.macsec .couldNotEnaSa)

/-- `lan80xx_macsec_pattern_del_`: the map entry cleared is always entry 0. -/
def patternDel (i : Nat) (d : Direction) (a : MatchAction) : Call H Unit := do
  let c ← getConf
  let record := (c.secy i).patternRecord a d
  failIf (record = notInUse) (.macsec .patternNotSet)
  orFail (saEnable bus record d false) (.macsec .couldNotDisableSa)
  orFail (saInuse bus record 0 0 d false) (.macsec .couldNotSetSa)
  orFail (saTcamKeyMaskReset bus d record) (.macsec .couldNotPrgSaMatch)
  modifyConf fun c => freePattern i c a d record

/-! ## SecYs -/

/-- The patterns in the order `secy_conf_del_` deletes them. -/
def patternOrder : List (Direction × MatchAction) :=
  [(.ingress, .controlledPort), (.ingress, .uncontrolledPort), (.ingress, .drop),
    (.egress, .controlledPort), (.egress, .uncontrolledPort), (.egress, .drop)]

/-- One of the pattern deletions of `secy_conf_del_`. -/
def patternDelIfSet (i : Nat) (d : Direction) (a : MatchAction) : Call H Unit := do
  let c ← getConf
  when ((c.secy i).patternRecord a d ≠ notInUse) (patternDel bus i d a)

/-- The receive channels of `secy_conf_del_`. -/
def rxScsDel (i : Nat) : Call H Unit :=
  forUpTo maxRxSc fun sc => do
    let c ← getConf
    when (((c.secy i).rxSc sc).isSome = true) (rxScDel bus i (c.rxScAt i sc).sci)

/-- The patterns of `secy_conf_del_`. -/
def patternsDel (i : Nat) : Call H Unit :=
  forUpTo patternOrder.length fun k =>
    patternDelIfSet bus i (patternOrder.getD k (.ingress, .drop)).1 (patternOrder.getD k (.ingress, .drop)).2

/-- The part of `secy_conf_del_` after the transmit channel. -/
def secyRestDel (i : Nat) : Call H Unit := do
  rxScsDel bus i
  patternsDel bus i
  modifyConf fun c => clearSecy i c

/-- `lan80xx_macsec_secy_conf_del_`. -/
def secyConfDel (i : Nat) : Call H Unit := do
  let c ← getConf
  when ((c.secy i).txSc.inUse = true) (txScDel bus i)
  secyRestDel bus i

/-- One receive channel of `secy_conf_update_priv`: skipped when it is not in use, or when the SecY's own SCI is not
valid. -/
def rxScUpdate (i : Nat) (conf : SecyConf) (sc : Nat) : Call H Unit := do
  let c ← getConf
  when (((c.secy i).rxSc sc).isSome = true ∧ (c.rxScAt i sc).inUse = true ∧ isSciValid (c.secy i).sci = true) do
    modifyConf fun c => updateRxScConf i c sc ⟨conf.validateFrames, conf.replayProtect, conf.replayWindow,
      conf.confidentialityOffset⟩
    rxSasDel bus i sc (c.rxScAt i sc).sci

/-- The part of `secy_conf_update_priv` after the transmit SAs. The call returns the outcome of the last check of the
SecY's SCI. -/
def secyRxUpdate (i : Nat) (conf : SecyConf) : Call H Unit := do
  forUpTo maxRxSc (rxScUpdate bus i conf)
  let c ← getConf
  failIf ((∃ sc < maxRxSc, ((c.secy i).rxSc sc).isSome = true ∧ (c.rxScAt i sc).inUse = true) ∧
    isSciValid (c.secy i).sci = false) (.macsec .invalidSciMacaddr)

/-- `secy_conf_update_priv` once the SecY is found. -/
def secyConfUpdate (i : Nat) (conf : SecyConf) : Call H Unit := do
  failIf (conf.currentCipherSuite.xpn = true ∧ replayWindowSize < conf.replayWindow) .error
  modifyConf fun c => updateSecyConf i c conf
  txSasDel bus i
  secyRxUpdate bus i conf

/-- `lan80xx_macsec_secy_controlled_set_`. -/
def secyControlledSet (i : Nat) (enable : Bool) : Call H Unit := do
  let c ← getConf
  when ((c.secy i).controlledPortEnabled ≠ enable) do
    forUpTo maxRxSc fun sc => forUpTo saPerScMax fun an =>
      when (((c.rxScAt i sc).sa an).isSome = true ∧ (c.rxSaAt i sc an).enabled = true)
        (orFail (saEnable bus (c.rxSaAt i sc an).record .ingress enable) (.macsec .couldNotDisableSa))
    forUpTo saPerScMax fun an =>
      when (((c.secy i).txSc.sa an).isSome = true ∧ (c.txSaAt i an).enabled = true)
        (orFail (saEnable bus (c.txSaAt i an).record .egress enable) (.macsec .couldNotDisableSa))
    modifyConf fun c => c.setSecy i fun s => { s with controlledPortEnabled := enable }

/-! ## Ports -/

/-- The SecY is in use for this port. -/
def Secy.hasPort (s : Secy) (port : MacsecPort) : Bool :=
  s.inUse && s.sci.portId = port.portId && s.serviceId = port.serviceId

/-- `lan80xx_macsec_port_check` with `create = 0`. -/
def portFind (c : MacsecConf) (port : MacsecPort) : Option Nat :=
  (List.range maxSecy).find? fun i => (c.secy i).hasPort port

/-- `lan80xx_macsec_port_check` with `create = 0`, as a call. -/
def portCheck (port : MacsecPort) : Call H Nat := do
  let c ← getConf
  failIf (c.glb.initEnable = false) .error
  match portFind c port with
  | some i => pure i
  | none => dbgCounterIncr .noSecyFound

/-- `lan80xx_macsec_port_check` with `create = 1`, from slot `i` on: the scan ends at the first slot that is the port's
or is free. -/
def portVacancyFrom (c : MacsecConf) (port : MacsecPort) : List Nat → Except MacsecRc Nat
  | [] => .error .noSecyVacancy
  | i :: is =>
    if (c.secy i).hasPort port then .error .secyAlreadyInUse
    else if (c.secy i).inUse then portVacancyFrom c port is
    else .ok i

/-- `lan80xx_macsec_port_check` with `create = 1`. -/
def portVacancy (c : MacsecConf) (port : MacsecPort) : Except MacsecRc Nat :=
  portVacancyFrom c port (List.range maxSecy)

/-- `lan80xx_macsec_port_check` with `create = 1`, as a call. -/
def portCheckCreate (port : MacsecPort) : Call H Nat := do
  let c ← getConf
  failIf (c.glb.initEnable = false) .error
  match portVacancy c port with
  | .ok i => pure i
  | .error e => dbgCounterIncr e

/-! ## The exported calls -/

/-- `lan80xx_macsec_secy_conf_add_priv`. -/
def secyConfAddPriv (port : MacsecPort) (conf : SecyConf) : Call H Unit := do
  macsecAssert (127 < conf.confidentialityOffset)
  let i ← portCheckCreate port
  let c ← getConf
  failIf (checkResources c false 0 = false) (.macsec .hwResourceExhusted)
  failIf (conf.currentCipherSuite.xpn = true ∧ replayWindowSize < conf.replayWindow) .error
  modifyConf fun c => openSecy i c port conf
  failIf (isSciValid { macAddr := conf.macAddr, portId := port.portId } = false) (.macsec .invalidSciMacaddr)

/-- `lan80xx_macsec_tx_sc_update_priv`: the settings are stored also when there is no transmit channel. -/
def txScUpdatePriv (i : Nat) (conf : TxScConf) : Call H Unit := do
  let c ← getConf
  modifyConf fun c => updateTxScConf i c conf
  failIf ((c.secy i).txSc.inUse = false) (.macsec .txScNotExist)

/-- `lan80xx_macsec_rx_sc_update_priv`. -/
def rxScUpdatePriv (i : Nat) (sci : Sci) (conf : RxScConf) : Call H Unit := do
  let sc ← scFromSci i sci
  let c ← getConf
  failIf ((c.secy i).conf.currentCipherSuite.xpn = true ∧ replayWindowSize < conf.replayWindow) .error
  modifyConf fun c => updateRxScConf i c sc conf

/-- The stored actions: everything but the controlled port has a record of its own. -/
def MatchAction.hasRecord (a : MatchAction) : Bool := a ≠ .controlledPort

/-- `lan80xx_macsec_pattern_set_priv`. -/
def patternSetPriv (port : MacsecPort) (d : Direction) (a : MatchAction) (pattern : MatchPattern) : Call H Unit := do
  let c ← getConf
  failIf ((c.glb.rev = .a0 ∨ c.glb.rev = .a1) ∧ a = .drop) .error
  failIf (pattern.match &&& matchSmac ≠ 0) .error
  let i ← orFail (portCheck port) (.macsec .noSecyFound)
  when (a.hasRecord = true) (orFail (patternSet bus i d a pattern) (.macsec .couldNotSetPattern))
  modifyConf fun c => setPattern i c a d fun _ => pattern

/-- `lan80xx_macsec_pattern_del_priv`. -/
def patternDelPriv (port : MacsecPort) (d : Direction) (a : MatchAction) : Call H Unit := do
  let i ← orFail (portCheck port) (.macsec .noSecyFound)
  when (a.hasRecord = true) (orFail (patternDel bus i d a) .error)
  modifyConf fun c => setPattern i c a d fun _ => { «match» := matchDisable }

/-- `lan80xx_macsec_bypass_tag_set_priv`: a port without a SecY is no error. -/
def bypassTagSetPriv (port : MacsecPort) (tag : Nat) : Call H Unit := do
  let c ← getConf
  failIf (c.glb.bypassMode ≠ .tag) .error
  match ← attempt (portCheck port) with
  | some i => modifyConf fun c => c.setSecy i fun s => { s with tagBypass := tag }
  | none => pure ()

/-- The exported calls that work on SecYs, their channels, SAs and patterns. -/
inductive Op
  | secyConfAdd (conf : SecyConf)
  | secyConfUpdate (conf : SecyConf)
  | secyConfDel
  | secyControlledSet (enable : Bool)
  | bypassTagSet (tag : Nat)
  | txScSet
  | txScUpdate (conf : TxScConf)
  | txScDel
  | rxScAdd (sci : Sci)
  | rxScUpdate (sci : Sci) (conf : RxScConf)
  | rxScDel (sci : Sci)
  | txSaSet (an : Nat) (nextPn : PktNum) (confidentiality : Bool) (sak : Sak) (ssci : Option Ssci)
  | txSaActivate (an : Nat)
  | txSaDisable (an : Nat)
  | txSaDel (an : Nat)
  | rxSaSet (sci : Sci) (an : Nat) (lowestPn : PktNum) (sak : Sak) (ssci : Option Ssci)
  | rxSaActivate (sci : Sci) (an : Nat)
  | rxSaDisable (sci : Sci) (an : Nat)
  | rxSaDel (sci : Sci) (an : Nat)
  | rxSaLowestPnUpdate (sci : Sci) (an : Nat) (lowestPn : PktNum)
  | patternSet (d : Direction) (a : MatchAction) (pattern : MatchPattern)
  | patternDel (d : Direction) (a : MatchAction)

/-- The call of an operation, addressed to a port. -/
def Op.call (port : MacsecPort) : Op → Call H Unit
  | .secyConfAdd conf => secyConfAddPriv port conf
  | .secyConfUpdate conf => do
    macsecAssert (127 < conf.confidentialityOffset)
    Macsec.secyConfUpdate bus (← portCheck port) conf
  | .secyConfDel => do Macsec.secyConfDel bus (← portCheck port)
  | .secyControlledSet enable => do Macsec.secyControlledSet bus (← portCheck port) enable
  | .bypassTagSet tag => bypassTagSetPriv port tag
  | .txScSet => do Macsec.txScSet (← portCheck port)
  | .txScUpdate conf => do
    macsecAssert (128 < conf.confidentialityOffset)
    txScUpdatePriv (← portCheck port) conf
  | .txScDel => do Macsec.txScDel bus (← portCheck port)
  | .rxScAdd sci => do Macsec.rxScAdd (← portCheck port) sci
  | .rxScUpdate sci conf => do
    macsecAssert (128 < conf.confidentialityOffset)
    rxScUpdatePriv (← portCheck port) sci conf
  | .rxScDel sci => do Macsec.rxScDel bus (← portCheck port) sci
  | .txSaSet an nextPn confidentiality sak ssci => do
    Macsec.txSaSet bus (← portCheck port) an nextPn confidentiality sak ssci
  | .txSaActivate an => do Macsec.txSaActivate bus (← portCheck port) an
  | .txSaDisable an => do Macsec.txSaDisable bus (← portCheck port) an
  | .txSaDel an => do Macsec.txSaDel bus (← portCheck port) an
  | .rxSaSet sci an lowestPn sak ssci => do Macsec.rxSaSet bus (← portCheck port) sci an lowestPn sak ssci
  | .rxSaActivate sci an => do Macsec.rxSaActivate bus (← portCheck port) sci an
  | .rxSaDisable sci an => do Macsec.rxSaDisable bus (← portCheck port) sci an
  | .rxSaDel sci an => do Macsec.rxSaDel bus (← portCheck port) sci an
  | .rxSaLowestPnUpdate sci an lowestPn => do Macsec.rxSaLowestPnUpdate bus (← portCheck port) sci an lowestPn
  | .patternSet d a pattern => patternSetPriv bus port d a pattern
  | .patternDel d a => patternDelPriv bus port d a

/-! ## Runs -/

/-- One step of the port: a call that returns or fails, after which the device may have moved on by itself. -/
inductive Step (bus : PortBus H) : Dev MacsecConf H → Dev MacsecConf H → Prop
  | call (port : MacsecPort) (op : Op) (s : Dev MacsecConf H) : Step bus s (final (op.call bus port) s)
  | drift (s : Dev MacsecConf H) (h : H) : bus.drift s.hw h → Step bus s { s with hw := h }

/-- The states of a port after `macsec_init_set`. -/
def Reachable (bus : PortBus H) (s : Dev MacsecConf H) : Prop :=
  ∃ glb h, Relation.ReflTransGen (Step bus) { conf := macsecInit glb, hw := h } s

end Lan80xx.Macsec
