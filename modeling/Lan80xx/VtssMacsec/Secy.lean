import Lan80xx.VtssMacsec.Sa

/-!
# MACsec of the VTSS PHYs: SecYs, channels, patterns and control frames

- `portCheck`, `checkResources`: the SecY of a port, and whether there is room for another one;
- `secyConfAdd`, `secyConfUpdate`, `secyConfDel`, `secyControlledSet`: SecYs;
- `txScSet`, `txScDel`, `rxScAdd`, `rxScDel` and the updates: channels;
- `patternSetPriv`, `patternDelPriv`: match patterns, each of which holds an entry of an SA table;
- `controlFrameMatchConfSetPriv`: control frame rules, which on a Rev A may hold one as well.
-/

namespace Lan80xx.VtssMacsec

open Fallible RegBus
open Macsec (MacsecPort Sci SecyConf TxScConf RxScConf MatchPattern MatchAction Direction ControlFrameMatchConf
  saPerScMax saPerScMin notInUse matchDisable matchDmac matchEtype matchHasVlan replayWindowSize matchPriorityLowest)

def matchIsControl : BitVec 32 := 0x0040
def matchBpdu : BitVec 32 := 0x0400
def matchCdpUdld : BitVec 32 := 0x0800
def matchSci : BitVec 32 := 0x1000

/-! ## Lookups -/

namespace Conf

variable (c : Conf)

/-- The SecY is in use for the port. -/
def hasPort (port : MacsecPort) (i : Nat) : Bool :=
  (c.secy i).inUse && (c.secy i).sci.portId = port.portId && (c.secy i).serviceId = port.serviceId

/-- `vtss_macsec_port_check` without `create`: the first SecY of the port. -/
def portFind (phy : Phy) (port : MacsecPort) : Option Nat := (List.range phy.maxSecyCnt).find? fun i => c.hasPort port i

/-- `vtss_macsec_port_check` with `create`: the first SecY that is free, or in the way. -/
def portVacancy (phy : Phy) (port : MacsecPort) : Option Nat :=
  (List.range phy.maxSecyCnt).find? fun i => !(c.secy i).inUse || c.hasPort port i

end Conf

theorem portFind_spec {phy : Phy} {c : Conf} {port : MacsecPort} {i : Nat} (h : c.portFind phy port = some i) :
    i < phy.maxSecyCnt ∧ (c.secy i).inUse = true := by
  have hprop := List.find?_some h
  simp only [Conf.hasPort, Bool.and_eq_true] at hprop
  exact ⟨List.mem_range.mp (List.mem_of_find?_eq_some h), hprop.1.1⟩

/-- The slots of the SecYs alone decide which one a port has. -/
theorem portFind_congr {phy : Phy} {c c' : Conf} {port : MacsecPort} (h : ∀ j, c'.hasPort port j = c.hasPort port j) :
    c'.portFind phy port = c.portFind phy port := by
  rw [Conf.portFind, Conf.portFind]
  exact congrArg (fun p => (List.range phy.maxSecyCnt).find? p) (funext h)

/-- `check_resources`: whether the records in use and those reserved fit the table. `found_sa` is not reset between
two channels. -/
def checkResources (phy : Phy) (c : Conf) (isSc : Bool) (secyId : Nat) : Bool :=
  let noSc := (List.range phy.maxSecyCnt).filter fun i =>
    (c.secy i).inUse && (List.range phy.maxScCnt).all (fun sc => ((c.secy i).rxSc sc).isNone) && !(isSc && secyId = i)
  let secyInUse := ((List.range phy.maxSecyCnt).filter fun i => (c.secy i).inUse).length
  let scInUse := (List.range phy.maxScCnt).filter fun p => (c.rxSc p).inUse
  let noSa := scInUse.takeWhile fun p => (List.range saPerScMax).all fun an => ((c.rxSc p).sa an).isNone
  let numOfRxSaInuse := ((List.range phy.maxSaCnt).filter fun r => (c.rxSa r).inUse).length
  if !isSc && secyInUse = phy.maxSecyCnt then false
  else numOfRxSaInuse + saPerScMin * (1 + noSc.length + noSa.length) ≤ phy.maxSaCnt

/-- A suite that the revision does not know, or a window too large for one with extended packet numbers. -/
def suiteRejected (revb : Bool) (conf : SecyConf) : Bool :=
  conf.currentCipherSuite.xpn && (!revb || decide (replayWindowSize < conf.replayWindow))

/-! ## What is stored -/

namespace Conf

variable (c : Conf)

def setPatternRecord (i : Nat) (a : MatchAction) (d : Direction) (record : Nat) : Conf :=
  c.setSecy i fun s =>
    { s with patternRecord := Function.update s.patternRecord a (Function.update (s.patternRecord a) d record) }

def setPattern (i : Nat) (a : MatchAction) (d : Direction) (f : MatchPattern → MatchPattern) : Conf :=
  c.setSecy i fun s =>
    { s with pattern := Function.update s.pattern a (Function.update (s.pattern a) d (f (s.pattern a d))) }

/-- `in_use` of the entry of a pattern. -/
def setSaInUse (d : Direction) (record : Nat) (b : Bool) : Conf :=
  match d with
  | .egress => c.setTxSa record fun sa => { sa with inUse := b }
  | .ingress => c.setRxSa record fun sa => { sa with inUse := b }

/-- What `secy_conf_add` stores: patterns without entries, and the lowest priority for the controlled port. -/
def openSecy (i : Nat) (port : MacsecPort) (conf : SecyConf) : Conf :=
  c.setSecy i fun s => { s with
    conf
    serviceId := port.serviceId
    sci := { macAddr := conf.macAddr, portId := port.portId }
    patternRecord := fun _ _ => notInUse
    pattern := fun a d => { s.pattern a d with
      «match» := matchDisable
      priority := if a = .controlledPort then matchPriorityLowest else (s.pattern a d).priority } }

/-- What `secy_conf_update` stores in the SecY. -/
def updateSecy (i : Nat) (conf : SecyConf) : Conf :=
  c.setSecy i fun s => { s with conf, sci := { s.sci with macAddr := conf.macAddr } }

/-- What `secy_conf_update` stores in each channel. -/
def inheritRxSc (i sc : Nat) (conf : SecyConf) : Conf :=
  c.setRxScAt i sc fun x => { x with conf := {
    validateFrames := conf.validateFrames
    replayProtect := conf.replayProtect
    replayWindow := conf.replayWindow
    confidentialityOffset := conf.confidentialityOffset } }

/-- `memset` over the SecY, whose array of channels stays. -/
def clearSecy (i : Nat) : Conf := c.setSecy i fun s => { rxSc := s.rxSc }

/-- What `rx_sc_add` stores. -/
def openRxSc (i sc p : Nat) (sci : Sci) : Conf :=
  (c.setSecy i fun s => { s with rxSc := Function.update s.rxSc sc (some p) }).setRxSc p fun x => { x with
    inUse := true
    sci
    conf := {
      validateFrames := (c.secy i).conf.validateFrames
      replayProtect := (c.secy i).conf.replayProtect
      replayWindow := (c.secy i).conf.replayWindow
      confidentialityOffset := (c.secy i).conf.confidentialityOffset } }

/-- What `rx_sc_del` stores. -/
def freeRxSc (i sc : Nat) : Conf :=
  (c.setRxScAt i sc fun _ => {}).setSecy i fun s => { s with rxSc := Function.update s.rxSc sc none }

/-- What `pattern_set` stores of its entry, for a SecY or for a control frame rule. -/
def takePattern (secy : Option Nat) (d : Direction) (a : MatchAction) (ruleId record : Nat) : Conf :=
  let c' : Conf := match d with
    | .egress => c.setTxSa record fun sa => { sa with record, inUse := true }
    | .ingress => c.setRxSa record fun sa => { sa with record, inUse := true }
  match secy with
  | some i => c'.setPatternRecord i a d record
  | none => c'.setGlb fun g => { g with egrBypassRecord := Function.update g.egrBypassRecord ruleId record }

def setControlMatch (rule : Nat) (conf : ControlFrameMatchConf) : Conf :=
  c.setGlb fun g => { g with controlMatch := Function.update g.controlMatch rule conf }

/-- What `control_frame_match_conf_del` stores of the entry that a rule holds on a Rev A. -/
def freeBypass (rule record : Nat) : Conf :=
  ((c.setSaInUse .egress record false).setGlb fun g =>
    { g with egrBypassRecord := Function.update g.egrBypassRecord rule notInUse }).setControlMatch rule
      { c.glb.controlMatch rule with «match» := matchDisable }

end Conf

section Calls

variable {H : Type} (hw : Hw H) (phy : Phy)

/-- `vtss_macsec_port_check`, for a SecY that exists. -/
def portCheck (port : MacsecPort) : Call H Nat := do
  let c ← getConf
  failIf (c.glb.init.enable = false) (.macsec .notEnabled)
  match c.portFind phy port with
  | some i => pure i
  | none => throw (.macsec .noSecyFound)

/-! ## Patterns -/

/-- The pattern as `vtss_macsec_pattern_set_priv` programs it: a rule for VLAN tags replaces control frames by tagged
ones. -/
def programmedPattern (c : Conf) (d : Direction) (pattern : MatchPattern) : MatchPattern :=
  if d = .ingress ∧ (List.range cpRules).any (fun k =>
      (c.glb.controlMatch k).etype = 0x8100 && (c.glb.controlMatch k).match = matchEtype) = true
  then { pattern with «match» := (pattern.match ||| matchHasVlan) &&& ~~~matchIsControl }
  else pattern

/-- The entry for a pattern: while reconfiguring, a SecY's pattern keeps the one it has. -/
def patternEntry (c : Conf) (secy : Option Nat) (d : Direction) (a : MatchAction) : Option Nat :=
  match secy, c.glb.spdChangeMacsecRecfg with
  | some i, true => some ((c.secy i).patternRecord a d)
  | _, _ => c.recordEmptyGet phy d

/-- The SecY has a pattern for the action already. -/
def patternInUse (c : Conf) (secy : Option Nat) (d : Direction) (a : MatchAction) : Bool :=
  match secy with
  | some i => (c.secy i).patternRecord a d != notInUse
  | none => false

/-- `vtss_macsec_pattern_set_priv`. -/
def patternSetPriv (secy : Option Nat) (d : Direction) (a : MatchAction) (pattern : MatchPattern) (ruleId : Nat) :
    Call H Unit := do
  if pattern.match = 0 then pure () else do
    let c ← getConf
    failIf (patternInUse c secy d a = true ∧ c.glb.spdChangeMacsecRecfg = false) .error
    match patternEntry phy c secy d a with
    | none => throw (.macsec .emptyRecord)
    | some record => do
      failIf (matchPriorityLowest < pattern.priority) (.macsec .patternPrioNotValid)
      modifyConf fun c => c.takePattern secy d a ruleId record
      orFail (hwOp hw (.saMatchSet d record (programmedPattern c d pattern) secy 0 0)) (.macsec .couldNotPrgSaMatch)
      orFail (hwOp hw (.saFlowSet d record none 0 0 a)) (.macsec .couldNotPrgSaFlow)
      orFail (hwOp hw (.saEnable record d true)) (.macsec .couldNotEnaSa)
      orFail (hwOp hw (.saInuse record d true)) (.macsec .couldNotSetSa)

/-- `vtss_macsec_pattern_del_priv`. -/
def patternDelPriv (i : Nat) (d : Direction) (a : MatchAction) : Call H Unit := do
  let c ← getConf
  let record := (c.secy i).patternRecord a d
  failIf (record = notInUse) (.macsec .patternNotSet)
  orFail (hwOp hw (.saEnable record d false)) (.macsec .couldNotDisableSa)
  orFail (hwOp hw (.saInuse record d false)) (.macsec .couldNotSetSa)
  modifyConf fun c => c.setSaInUse d record false
  hwOp hw (.saFlowClear d record)
  orFail (hwOp hw (.saMatchReset d record)) (.macsec .couldNotPrgSaMatch)
  modifyConf fun c => (c.setPatternRecord i a d notInUse).setPattern i a d fun p => { p with «match» := matchDisable }

/-! ## Channels -/

/-- `vtss_macsec_tx_sc_set_priv`. -/
def txScSet (i : Nat) : Call H Unit := do
  let c ← getConf
  failIf (isSciValid (c.secy i).sci = false) (.macsec .invalidSciMacaddr)
  modifyConf fun c => c.setSecy i fun s => { s with txSc := { s.txSc with inUse := true } }

/-- `vtss_macsec_tx_sc_del_priv`. -/
def txScDel (i : Nat) : Call H Unit := do
  let c ← getConf
  failIf ((c.secy i).txSc.inUse = false) (.macsec .txScNotExist)
  forUpTo saPerScMax fun an => do
    let c ← getConf
    when ((c.secy i).txSc.sa an ≠ none) do
      orFail (txSaDisable hw i an) (.macsec .couldNotDisableSa)
      orFail (txSaDel hw i an) (.macsec .couldNotDelTxSa)
  modifyConf fun c => c.setSecy i fun s => { s with txSc := {} }

/-- `vtss_macsec_rx_sc_add_priv`. -/
def rxScAdd (i : Nat) (sci : Sci) : Call H Unit := do
  let c ← getConf
  failIf (checkResources phy c true i = false) (.macsec .hwResourceExhusted)
  failIf (isSciValid sci = false) (.macsec .invalidSciMacaddr)
  failIf ((List.range phy.maxScCnt).any (fun p => (c.rxSc p).sci = sci) = true) (.macsec .sciAlreadyExists)
  match (List.range phy.maxScCnt).find? (fun sc => ((c.secy i).rxSc sc).isNone),
      (List.range phy.maxScCnt).find? (fun p => !(c.rxSc p).inUse) with
  | some sc, some p => modifyConf fun c => c.openRxSc i sc p sci
  | _, _ => throw (.macsec .scResourceNotFound)

/-- `vtss_macsec_rx_sc_del_priv`. -/
def rxScDel (i : Nat) (sci : Sci) : Call H Unit := do
  let sc ← scFromSci phy i sci
  forUpTo saPerScMax fun an => do
    let c ← getConf
    when ((c.rxScAt i sc).sa an ≠ none) do
      when ((c.rxSaAt i sc an).statusInUse = true) (orFail (rxSaDisable hw phy i sci an) (.macsec .couldNotDisableSa))
      orFail (rxSaDel hw phy i sci an) (.macsec .couldNotDelRxSa)
  modifyConf fun c => c.freeRxSc i sc
  hwOp hw .updateGlbValidate

/-! ## SecYs -/

/-- `vtss_macsec_secy_conf_add`. The values are stored before the SCI is checked; an invalid one leaves the SecY
free. -/
def secyConfAdd (port : MacsecPort) (conf : SecyConf) : Call H Unit := do
  failIf (64 < conf.confidentialityOffset) .error
  let c ← getConf
  failIf (c.glb.init.enable = false) (.macsec .notEnabled)
  match c.portVacancy phy port with
  | none => throw (.macsec .noSecyVacancy)
  | some i => do
    failIf ((c.secy i).inUse = true) (.macsec .secyAlreadyInUse)
    failIf (checkResources phy c false 0 = false) (.macsec .hwResourceExhusted)
    failIf (suiteRejected c.glb.macsecRevb conf = true) .error
    modifyConf fun c => (c.openSecy i port conf).setSecy i fun s => { s with inUse := isSciValid s.sci }
    failIf (isSciValid { macAddr := conf.macAddr, portId := port.portId } = false) (.macsec .invalidSciMacaddr)

/-- `vtss_macsec_secy_conf_update`. The SCI is checked once for each channel in use, and only then. -/
def secyConfUpdate (i : Nat) (conf : SecyConf) : Call H Unit := do
  let c ← getConf
  failIf (suiteRejected c.glb.macsecRevb conf = true) .error
  modifyConf fun c => c.updateSecy i conf
  forUpTo phy.maxScCnt fun sc => do
    let c ← getConf
    when ((c.rxScAt i sc).inUse = true ∧ isSciValid (c.secy i).sci = true) (modifyConf fun c => c.inheritRxSc i sc conf)
  let c ← getConf
  failIf ((List.range phy.maxScCnt).any (fun sc => (c.rxScAt i sc).inUse) = true ∧ isSciValid (c.secy i).sci = false)
    (.macsec .invalidSciMacaddr)

/-- The patterns in the order in which `vtss_macsec_secy_conf_del_priv` deletes them. -/
def deletedPatterns : List (Direction × MatchAction) :=
  [(.ingress, .controlledPort), (.ingress, .uncontrolledPort), (.ingress, .drop),
    (.egress, .controlledPort), (.egress, .uncontrolledPort), (.egress, .drop)]

def patternsDel (i : Nat) : List (Direction × MatchAction) → Call H Unit
  | [] => pure ()
  | (d, a) :: rest => do
    let c ← getConf
    when ((c.secy i).patternRecord a d ≠ notInUse) (patternDelPriv hw i d a)
    patternsDel i rest

/-- `vtss_macsec_secy_conf_del_priv`. -/
def secyConfDel (i : Nat) : Call H Unit := do
  let c ← getConf
  when ((c.secy i).txSc.inUse = true) (txScDel hw i)
  forUpTo phy.maxScCnt fun sc => do
    let c ← getConf
    when ((c.secy i).rxSc sc ≠ none) (rxScDel hw phy i (c.rxScAt i sc).sci)
  patternsDel hw i deletedPatterns
  modifyConf fun c => c.clearSecy i

/-- `vtss_macsec_secy_controlled_set_priv`: the enabled SAs are switched in the chip. -/
def secyControlledSet (i : Nat) (enable : Bool) : Call H Unit := do
  let c ← getConf
  if (c.secy i).controlledPortEnabled = enable then pure () else do
    forUpTo phy.maxScCnt fun sc => forUpTo saPerScMax fun an =>
      when ((c.rxScAt i sc).sa an ≠ none ∧ (c.rxSaAt i sc an).enabled = true)
        (orFail (hwOp hw (.saEnable (c.rxSaAt i sc an).record .ingress enable)) (.macsec .couldNotDisableSa))
    forUpTo saPerScMax fun an =>
      when ((c.secy i).txSc.sa an ≠ none ∧ (c.txSaAt i an).enabled = true)
        (orFail (hwOp hw (.saEnable (c.txSaAt i an).record .egress enable)) (.macsec .couldNotDisableSa))
    modifyConf fun c => c.setSecy i fun s => { s with controlledPortEnabled := enable }

/-- `vtss_macsec_tx_sc_update`. -/
def txScUpdate (i : Nat) (conf : TxScConf) : Call H Unit := do
  let c ← getConf
  failIf ((c.secy i).txSc.inUse = false) (.macsec .txScNotExist)
  modifyConf fun c => c.setSecy i fun s => { s with conf := { s.conf with
    protectFrames := conf.protectFrames
    alwaysIncludeSci := conf.alwaysIncludeSci
    useEs := conf.useEs
    useScb := conf.useScb
    confidentialityOffset := conf.confidentialityOffset } }

/-- `vtss_macsec_rx_sc_update`. -/
def rxScUpdate (i : Nat) (sci : Sci) (conf : RxScConf) : Call H Unit := do
  let sc ← scFromSci phy i sci
  let c ← getConf
  failIf (c.glb.macsecRevb = true ∧ c.xpn i = true ∧ replayWindowSize < conf.replayWindow) .error
  modifyConf fun c => c.setRxScAt i sc fun x => { x with conf }

/-! ## Control frames -/

/-- The rules for a match, in the order `cp_rule_id_get` tries them, with the index of each in the registers. -/
def cpRulesFor (m : BitVec 32) : List (Nat × Nat) :=
  if m &&& matchEtype ≠ 0 ∧ m &&& matchDmac ≠ 0 then [(0, 8), (1, 9)]
  else if m &&& matchEtype ≠ 0 then
    ((List.range (if phy.is1g then 10 else 18)).drop 2).map fun k => (k, if k < 10 then k - 2 else k)
  else if m &&& matchDmac ≠ 0 then (List.range 8).map fun k => (18 + k, k)
  else []

/-- The index of a rule that exists, as `cp_rule_id_get` finds it. -/
def cpRuleIndx (rule : Nat) : Nat :=
  if rule < 2 then 8 + rule else if rule < 10 then rule - 2 else if rule < 18 then rule
  else if rule < 26 then rule - 18 else 0

/-- `cp_rule_id_get`: rule and index. -/
def cpRuleIdGet (c : Conf) (conf : ControlFrameMatchConf) (rule : Nat) (store : Bool) : Except Rc (Nat × Nat) :=
  if store = false then .ok (rule, cpRuleIndx rule)
  else if conf.match &&& (matchEtype ||| matchDmac) ≠ 0 then
    match (cpRulesFor phy conf.match).find? fun k => (c.glb.controlMatch k.1).match = matchDisable with
    | some k => .ok k
    | none => .error (.macsec .allCpRulesInUse)
  else if conf.match &&& matchBpdu ≠ 0 then .ok (26, 19)
  else if conf.match &&& matchCdpUdld ≠ 0 then .ok (27, 20)
  else if conf.match &&& matchDisable ≠ 0 then .error (.macsec .matchDisable)
  else .error (.macsec .unexpectCpMode)

/-- The pattern that lets tagged frames of a control frame rule pass on a Rev A. -/
def bypassPattern (conf : ControlFrameMatchConf) : MatchPattern :=
  if conf.etype = 0x8100 then { «match» := matchHasVlan }
  else { «match» := matchEtype ||| matchHasVlan, etype := conf.etype }

/-- `vtss_macsec_control_frame_match_conf_set_priv`. The result is the rule. -/
def controlFrameMatchConfSetPriv (conf : ControlFrameMatchConf) (rule : Nat) (store : Bool) : Call H Nat := do
  let c ← getConf
  match cpRuleIdGet phy c conf rule (store && !c.glb.spdChangeMacsecRecfg) with
  | .error e => throw e
  | .ok (rule, indx) => do
    when (conf.match &&& (matchEtype ||| matchDmac ||| matchBpdu ||| matchCdpUdld) = 0)
      (throw (if conf.match &&& matchDisable ≠ 0 then .error else .noCtrlFrmMatch))
    hwOp hw (.controlRule conf indx store)
    when (c.glb.macsecRevb = false) do
      when (store = true ∧ conf.match = matchEtype)
        (orFail (patternSetPriv hw phy none .egress .uncontrolledPort (bypassPattern conf) rule)
          (.macsec .couldNotSetPattern))
      when (store = false ∧ c.glb.egrBypassRecord rule ≠ notInUse) do
        let record := c.glb.egrBypassRecord rule
        orFail (hwOp hw (.saEnable record .egress false)) (.macsec .couldNotEnaSa)
        orFail (hwOp hw (.saInuse record .egress false)) (.macsec .couldNotSetSa)
        modifyConf fun c => c.freeBypass rule record
    pure rule

/-- `vtss_inst_macsec_port_no_check`. -/
def enabledCheck : Call H Unit := do
  let c ← getConf
  failIf (c.glb.init.enable = false) (.macsec .notEnabled)

/-- `vtss_macsec_control_frame_match_conf_set`; `rule` is what the caller's variable holds, and the result what it is
given. -/
def controlFrameMatchConfSet (conf : ControlFrameMatchConf) (rule : Nat) : Call H Nat := do
  failIf (conf.match &&& matchBpdu ≠ 0 ∧ conf.match ≠ matchBpdu) .error
  failIf (conf.match &&& matchCdpUdld ≠ 0 ∧ conf.match ≠ matchCdpUdld) .error
  enabledCheck
  let rule ← controlFrameMatchConfSetPriv hw phy conf rule true
  modifyConf fun c => c.setControlMatch rule conf
  return rule

/-- `vtss_macsec_control_frame_match_conf_del`: the rule is forgotten even when its registers are not reset. -/
def controlFrameMatchConfDel (rule : Nat) : Call H Unit := do
  enabledCheck
  failIf (cpRules ≤ rule) (.macsec .ruleOutOfRange)
  let c ← getConf
  failIf ((c.glb.controlMatch rule).match = matchDisable) (.macsec .ruleNotExist)
  afterwards (discard (controlFrameMatchConfSetPriv hw phy (c.glb.controlMatch rule) rule false)) fun s =>
    { s with conf := s.conf.setControlMatch rule { «match» := matchDisable } }

/-- `vtss_macsec_control_frame_match_conf_get`. -/
def controlFrameMatchConfGet (rule : Nat) : Call H ControlFrameMatchConf := do
  enabledCheck
  failIf (cpRules ≤ rule) (.macsec .ruleOutOfRange)
  let c ← getConf
  return c.glb.controlMatch rule

/-! ## Exported calls on patterns -/

/-- `vtss_macsec_pattern_set`. -/
def patternSet (port : MacsecPort) (d : Direction) (a : MatchAction) (pattern : MatchPattern) : Call H Unit := do
  failIf (pattern.match &&& matchSci ≠ 0 ∧ (d ≠ .ingress ∨ a ≠ .controlledPort)) .error
  let i ← portCheck phy port
  when (a ≠ .controlledPort) (patternSetPriv hw phy (some i) d a pattern 0)
  modifyConf fun c => c.setPattern i a d fun _ => pattern

/-- `vtss_macsec_pattern_del`. -/
def patternDel (port : MacsecPort) (d : Direction) (a : MatchAction) : Call H Unit := do
  let i ← portCheck phy port
  when (a ≠ .controlledPort) (patternDelPriv hw i d a)
  modifyConf fun c => c.setPattern i a d fun _ => { «match» := matchDisable }

end Calls

/-! ## The checks at the start of a call -/

section Checks

variable {H : Type} {phy : Phy} {s s' : Dev Conf H} {port : MacsecPort} {i : Nat}

theorem enabledCheck_eq (hen : s.conf.glb.init.enable = true) : (enabledCheck : Call H Unit) s = .ok () s := by
  rw [enabledCheck, bind_of_ok (show getConf s = .ok s.conf s from rfl), failIf, Fallible.when, if_neg (by rw [hen]; decide)]
  rfl

theorem portCheck_eq (hen : s.conf.glb.init.enable = true) (hf : s.conf.portFind phy port = some i) :
    (portCheck phy port : Call H Nat) s = .ok i s := by
  rw [portCheck, bind_of_ok (show getConf s = .ok s.conf s from rfl), failIf_bind_of_not (by rw [hen]; decide), hf]
  rfl

theorem portCheck_ok (h : (portCheck phy port : Call H Nat) s = .ok i s') :
    s.conf.glb.init.enable = true ∧ s.conf.portFind phy port = some i ∧ s' = s := by
  have hfound : Ends (fun t => t = s) (portCheck phy port : Call H Nat) (fun i t => s.conf.glb.init.enable = true ∧
      s.conf.portFind phy port = some i ∧ t = s) fun _ => True := by
    refine ends_getConf_bind (fun t ht => by rw [ht]) (Ends.failIf_bind (fun _ _ _ => trivial) fun hinit => ?_)
    cases hp : s.conf.portFind phy port with
    | none => exact Ends.throw fun _ _ => trivial
    | some i => exact Ends.pure fun t ht => ⟨Bool.eq_true_of_not_eq_false hinit, rfl, ht⟩
  exact hfound.ok rfl h

end Checks

end Lan80xx.VtssMacsec
