import Lan80xx.VtssMacsec.Secy

/-!
# MACsec of the VTSS PHYs: initialisation, speed changes, runs

- `initSetPriv`, `initSet`: the MACsec block is enabled, disabled or bypassed;
- `reconfigure`: after a speed change the stored configuration is programmed again by the ordinary calls;
- `Op`, `Op.call`, `Reachable`: the calls, and the states they lead to from a port that has just been probed.
-/

namespace Lan80xx.VtssMacsec

open Fallible RegBus
open Macsec (Ssci MacsecPort Sci Sak PktNum SecyConf TxScConf RxScConf MatchPattern MatchAction Direction
  ControlFrameMatchConf saPerScMax notInUse matchDisable)

/-! ## What is stored -/

namespace Conf

variable (c : Conf)

/-- The rules without a match, and without an entry. -/
def clearRules : Conf := c.setGlb fun g => { g with
  controlMatch := fun k => if k < cpRules then { g.controlMatch k with «match» := matchDisable } else g.controlMatch k
  egrBypassRecord := fun k => if k < cpRules then notInUse else g.egrBypassRecord k }

/-- Before a reconfiguration the rules give back their entries, one after the other. -/
def releaseBypass : Nat → Conf
  | 0 => c
  | k + 1 =>
    let c' := releaseBypass k
    if c'.glb.egrBypassRecord k = notInUse then c'
    else (c'.setTxSa (c'.glb.egrBypassRecord k) fun _ => {}).setGlb fun g =>
      { g with egrBypassRecord := Function.update g.egrBypassRecord k notInUse }

/-- What is cleared when the block is disabled. `sizeof` of what `rx_sc`, `rx_sa` and `tx_sa` point to is the size of one
entry, and the arrays of channels stay as they are. -/
def disabled (phy : Phy) : Conf where
  secy i := if i < phy.maxSecyCnt then { rxSc := (c.secy i).rxSc } else c.secy i
  rxSc := Function.update c.rxSc 0 {}
  rxSa := Function.update c.rxSa 0 {}
  txSa := Function.update c.txSa 0 {}

end Conf

section Calls

variable {H : Type} (hw : Hw H) (phy : Phy)

/-! ## Initialisation -/

/-- The MTU and the rules, as `vtss_macsec_init_set_priv` sets them up; while reconfiguring, the rules only give back
their entries. -/
def initTables : Call H Unit := do
  let c ← getConf
  if c.glb.spdChangeMacsecRecfg = false then do
    hwOp hw .macCountersClear
    modifyConf fun c => c.setGlb fun g => { g with mtuConf := { mtu := mtuMax, drop := true } }
    hwOp hw .mtuSet
    modifyConf Conf.clearRules
  else modifyConf fun c => c.releaseBypass cpRules

/-- `vtss_macsec_init_set_priv`. -/
def initSetPriv (init : Init) : Call H Unit := do
  hwOp hw (.macsecClkEn init.enable)
  hwOp hw (.tsModeChange init.enable)
  if init.enable = true then do
    hwOp hw .initBlock
    initTables hw
    hwOp hw .enableBlocks
  else do
    hwOp hw .disableBlocks
    modifyConf fun c => c.disabled phy

/-- `vtss_macsec_speed_conf_priv` with `enable`, when no reconfiguration is asked for. -/
def speedConf : Call H Unit := do
  let c ← getConf
  when (c.glb.init.enable = true) (hwOp hw (.speedConf true))

/-- The branch of `vtss_macsec_init_set` that sets the bypass. -/
def bypassSet (bypass : InitBypass) : Call H Unit := do
  modifyConf fun c => c.setGlb fun g => { g with init := { g.init with bypass } }
  hwOp hw (.bypassSet .ingress (bypass = .enable))
  hwOp hw (.bypassSet .egress (bypass = .enable))
  modifyConf fun c => c.setGlb fun g => { g with init := { g.init with enable := bypass = .disable } }

/-- The step from one setting to the other. The old setting is restored when it fails. -/
def transition (init : Init) : Call H Unit := do
  let c ← getConf
  modifyConf fun c => c.setGlb fun g => { g with init }
  onError (initSetPriv hw phy init) fun s => { s with conf := s.conf.setGlb fun g => { g with init := c.glb.init } }

/-- `vtss_macsec_init_set`. The code of the transition is overwritten by that of the speed, and when the block is to be
enabled, that one by the code of the MAC configuration. -/
def initSet (init : Init) : Call H Unit := do
  orFail (hwOp hw .powerGet) .phyPoweredDown
  failIf (phy.macsecCapable = false) .error
  if init.bypass ≠ .none then bypassSet hw init.bypass else do
    when (phy.revb = true) (modifyConf fun c => c.setGlb fun g => { g with macsecRevb := true })
    let c ← getConf
    when (c.glb.init.enable ≠ init.enable) do
      discard (attempt (transition hw phy init))
      modifyConf fun c => c.setGlb fun g => { g with macBlockMtu := 10240 }
    if init.enable = true then do
      discard (attempt (speedConf hw))
      hwOp hw (.macConf true)
    else speedConf hw

/-! ### What the initialisation may touch -/

section Initialisation

/-- The rules and the mark of a reconfiguration stay, and what is known to be a Rev B stays one. -/
structure SameRules (g g' : Glb) : Prop where
  revb : g.macsecRevb = true → g'.macsecRevb = true
  recfg : g'.spdChangeMacsecRecfg = g.spdChangeMacsecRecfg
  controlMatch : g'.controlMatch = g.controlMatch
  egrBypassRecord : g'.egrBypassRecord = g.egrBypassRecord

variable {hw phy} {F : Frame (Dev Conf H)} (hop : ∀ op, Within F (hwOp hw op))
  (hglb : ∀ (s : Dev Conf H) (f : Glb → Glb), SameRules s.conf.glb (f s.conf.glb) →
    F.rel s { s with conf := s.conf.setGlb f })
  (hclear : ∀ s : Dev Conf H, F.rel s { s with conf := s.conf.clearRules })
  (hrelease : ∀ s : Dev Conf H, F.rel s { s with conf := s.conf.releaseBypass cpRules })
  (hdisabled : ∀ s : Dev Conf H, F.rel s { s with conf := s.conf.disabled phy })

theorem within_store {f : Conf → Conf} (h : ∀ s : Dev Conf H, F.rel s { s with conf := f s.conf }) :
    Within F (modifyConf f : Call H PUnit) := h

include hop hglb hclear hrelease in
theorem within_initTables : Within F (initTables hw) := by
  refine within_getConf.bind fun c => Within.ite ?_ hrelease
  refine (hop _).bind fun _ => (within_store fun s => hglb s _ ⟨id, rfl, rfl, rfl⟩).bind fun _ => ?_
  exact (hop _).bind fun _ => hclear

include hop hglb hclear hrelease hdisabled in
theorem within_initSetPriv {init : Init} : Within F (initSetPriv hw phy init) := by
  refine (hop _).bind fun _ => (hop _).bind fun _ => Within.ite ?_ ?_
  · exact (hop _).bind fun _ => (within_initTables hop hglb hclear hrelease).bind fun _ => hop _
  · exact (hop _).bind fun _ => hdisabled

include hop hglb in
theorem within_bypassSet {bypass : InitBypass} : Within F (bypassSet hw bypass) := by
  refine (within_store fun s => hglb s _ ⟨id, rfl, rfl, rfl⟩).bind fun _ => (hop _).bind fun _ => (hop _).bind fun _ => ?_
  exact within_store fun s => hglb s _ ⟨id, rfl, rfl, rfl⟩

include hop hglb hclear hrelease hdisabled in
/-- A frame that admits the updates of the settings, of the rules and of a disable admits `initSet`. -/
theorem within_initSet {init : Init} : Within F (initSet hw phy init) := by
  have hspeed : Within F (speedConf hw) := within_getConf.bind fun _ => Within.when fun _ => hop _
  have htransition : Within F (transition hw phy init) := by
    refine within_getConf.bind fun c => (within_store fun s => hglb s _ ⟨id, rfl, rfl, rfl⟩).bind fun _ => ?_
    exact (within_initSetPriv hop hglb hclear hrelease hdisabled).onError fun s =>
      hglb s (fun g => { g with init := c.glb.init }) ⟨id, rfl, rfl, rfl⟩
  refine (hop _).orFail.bind fun _ => Within.failIf.bind fun _ => Within.ite (within_bypassSet hop hglb) ?_
  refine (Within.when fun _ => within_store fun s => hglb s _ ⟨fun _ => rfl, rfl, rfl, rfl⟩).bind fun _ => ?_
  refine within_getConf.bind fun c => (Within.when fun _ => (htransition.attempt.bind fun _ => Within.pure _).bind
    fun _ => within_store fun s => hglb s _ ⟨id, rfl, rfl, rfl⟩).bind fun _ => ?_
  exact Within.ite ((hspeed.attempt.bind fun _ => Within.pure _).bind fun _ => hop _) hspeed

end Initialisation

/-! ## Reconfiguration -/

namespace Conf

variable (c : Conf)

/-- Service and virtual port of a SecY. -/
def secyKey (i : Nat) : Nat × Nat := ((c.secy i).serviceId, (c.secy i).sci.portId)

/-- `vtss_macsec_port_get_next_priv`: the SecY in use after the first one with the key. -/
def portGetNext (search : Option (Nat × Nat)) : Option Nat :=
  let inUse := (List.range phy.maxSecyCnt).filter fun i => (c.secy i).inUse
  match search with
  | none => inUse.head?
  | some key => (inUse.dropWhile fun i => c.secyKey i ≠ key).tail.head?

end Conf

/-- `sci_larger`: the addresses are compared byte by byte, then the ports. -/
def sciLarger (a b : Sci) : Bool :=
  match (List.range 6).find? fun k => a.macAddr.toList.getD k 0 ≠ b.macAddr.toList.getD k 0 with
  | some k => decide (b.macAddr.toList.getD k 0 < a.macAddr.toList.getD k 0)
  | none => decide (b.portId < a.portId)

/-- The smaller of an SCI and what has been found. -/
def sciLeast (a : Sci) (found : Option Sci) : Option Sci :=
  match found with
  | some b => if sciLarger a b then some b else some a
  | none => some a

/-- `vtss_macsec_rx_sc_get_next_priv`: the least SCI of the SecY's channels that is larger than `search`. -/
def rxScGetNext (c : Conf) (i : Nat) (search : Option Sci) : Option Sci :=
  (((List.range phy.maxScCnt).filter fun sc => (c.rxScAt i sc).inUse).map fun sc => (c.rxScAt i sc).sci).foldr
    (fun a found => if search.all (sciLarger a) then sciLeast a found else found) none

/-- The SAs of one channel, set and activated again. -/
def recfgRxSas (i : Nat) (sci : Sci) : Call H Unit :=
  forUpTo saPerScMax fun an => do
    discard (attempt (rxSaSet hw phy i sci an 0 {} none))
    discard (attempt (rxSaActivate hw phy i sci an))

/-- The loop over the channels of a SecY. -/
def recfgRxScs (i : Nat) : Nat → Option Sci → Call H Unit
  | 0, _ => throw .hang
  | fuel + 1, search => do
    let c ← getConf
    match rxScGetNext phy c i search with
    | none => pure ()
    | some sci => do
      recfgRxSas hw phy i sci
      recfgRxScs i fuel (some sci)

/-- A pattern, programmed again. -/
def recfgPattern (i : Nat) (a : MatchAction) (d : Direction) : Call H Unit := do
  let c ← getConf
  when (((c.secy i).pattern a d).match ≠ matchDisable)
    (discard (attempt (patternSetPriv hw phy (some i) d a ((c.secy i).pattern a d) 0)))

/-- One SecY. The SAs of the transmit channel are set and activated one after the other. -/
def recfgSecy (fuel i : Nat) : Call H Unit := do
  recfgPattern hw phy i .uncontrolledPort .ingress
  recfgPattern hw phy i .uncontrolledPort .egress
  recfgPattern hw phy i .drop .ingress
  recfgPattern hw phy i .drop .egress
  recfgRxScs hw phy i fuel none
  let c ← getConf
  when ((c.secy i).txSc.inUse = true) do
    modifyConf fun c => c.setSecy i fun s => { s with txSc := { s.txSc with encodingSa := 0 } }
    forUpTo saPerScMax fun an => do
      discard (attempt (txSaSet hw phy i an 0 false {} none))
      discard (attempt (txSaActivate hw i an))

/-- The loop over the SecYs. -/
def recfgSecys (scFuel : Nat) : Nat → Option (Nat × Nat) → Call H Unit
  | 0, _ => throw .hang
  | fuel + 1, search => do
    let c ← getConf
    match c.portGetNext phy search with
    | none => pure ()
    | some i => do
      recfgSecy hw phy scFuel i
      recfgSecys scFuel fuel (some (c.secyKey i))

/-- `vtss_macsec_reconfigure`. The results of the calls are ignored; `fuel` bounds its two loops. -/
def reconfigure (fuel : Nat) : Call H Unit := do
  match ← attempt (hwOp hw .verifyPort) with
  | none => pure ()
  | some _ => do
    modifyConf fun c => c.setGlb fun g => { g with spdChangeMacsecRecfg := true }
    discard (attempt (hwOp hw .defaultAction))
    discard (attempt (hwOp hw .bypassMode))
    forUpTo cpRules fun id => do
      let c ← getConf
      when ((c.glb.controlMatch id).match ≠ matchDisable)
        (discard (attempt (controlFrameMatchConfSetPriv hw phy (c.glb.controlMatch id) id true)))
    discard (attempt (hwOp hw .mtuSet))
    recfgSecys hw phy fuel fuel none
    modifyConf fun c => c.setGlb fun g => { g with spdChangeMacsecRecfg := false }

/-- `vtss_macsec_speed_conf_priv` with `enable` and `speed_recfg`: a change of speed. `speed` is the value for the
register, or `none` while the speed is undefined. -/
def speedChange (fuel : Nat) (speed : Option Nat) : Call H Unit := do
  let c ← getConf
  match c.glb.init.enable, speed with
  | true, some speed => do
    hwOp hw (.speedConf true)
    hwOp hw .recfgReset
    modifyConf fun c => c.setGlb fun g => { g with spdChangeMacsecRecfg := true, recfgSpeed := speed }
    match ← attempt (initSetPriv hw phy c.glb.init) with
    | none => pure ()
    | some _ => orFail (reconfigure hw phy fuel) .error
  | _, _ => pure ()

/-! ## The calls of a port -/

/-- A request to enable or disable the block. -/
def Init.request (enable dis : Bool) : Init := { enable, disIngNmMacsecEn := dis }

/-- The exported calls that work on SecYs, their channels, SAs and patterns, and on control frame rules, and the
change of speed. -/
inductive Op
  | initSet (init : Init)
  | speedChange (fuel : Nat) (speed : Option Nat)
  | secyConfAdd (port : MacsecPort) (conf : SecyConf)
  | secyConfUpdate (port : MacsecPort) (conf : SecyConf)
  | secyConfDel (port : MacsecPort)
  | secyControlledSet (port : MacsecPort) (enable : Bool)
  | bypassTagSet (port : MacsecPort) (tag : Nat)
  | txScSet (port : MacsecPort)
  | txScUpdate (port : MacsecPort) (conf : TxScConf)
  | txScDel (port : MacsecPort)
  | rxScAdd (port : MacsecPort) (sci : Sci)
  | rxScUpdate (port : MacsecPort) (sci : Sci) (conf : RxScConf)
  | rxScDel (port : MacsecPort) (sci : Sci)
  | txSaSet (port : MacsecPort) (an : Nat) (nextPn : PktNum) (confidentiality : Bool) (sak : Sak) (ssci : Option Ssci)
  | txSaActivate (port : MacsecPort) (an : Nat)
  | txSaDisable (port : MacsecPort) (an : Nat)
  | txSaDel (port : MacsecPort) (an : Nat)
  | rxSaSet (port : MacsecPort) (sci : Sci) (an : Nat) (lowestPn : PktNum) (sak : Sak) (ssci : Option Ssci)
  | rxSaActivate (port : MacsecPort) (sci : Sci) (an : Nat)
  | rxSaDisable (port : MacsecPort) (sci : Sci) (an : Nat)
  | rxSaDel (port : MacsecPort) (sci : Sci) (an : Nat)
  | rxSaLowestPnUpdate (port : MacsecPort) (sci : Sci) (an : Nat) (lowestPn : PktNum)
  | patternSet (port : MacsecPort) (d : Direction) (a : MatchAction) (pattern : MatchPattern)
  | patternDel (port : MacsecPort) (d : Direction) (a : MatchAction)
  | controlFrameMatchConfSet (conf : ControlFrameMatchConf) (rule : Nat)
  | controlFrameMatchConfDel (rule : Nat)

/-- The call of an operation. `vtss_macsec_tx_sa_set` is `vtss_macsec_tx_seca_set` without an SSCI, and so on the
receive side. -/
def Op.call : Op → Call H Unit
  | .initSet init => VtssMacsec.initSet hw phy init
  | .speedChange fuel speed => VtssMacsec.speedChange hw phy fuel speed
  | .secyConfAdd port conf => VtssMacsec.secyConfAdd phy port conf
  | .secyConfUpdate port conf => do
    failIf (64 < conf.confidentialityOffset) .error
    VtssMacsec.secyConfUpdate phy (← portCheck phy port) conf
  | .secyConfDel port => do VtssMacsec.secyConfDel hw phy (← portCheck phy port)
  | .secyControlledSet port enable => do VtssMacsec.secyControlledSet hw phy (← portCheck phy port) enable
  | .bypassTagSet port tag => do
    let i ← portCheck phy port
    modifyConf fun c => c.setSecy i fun s => { s with tagBypass := tag }
  | .txScSet port => do VtssMacsec.txScSet (← portCheck phy port)
  | .txScUpdate port conf => do
    failIf (64 < conf.confidentialityOffset) .error
    VtssMacsec.txScUpdate (← portCheck phy port) conf
  | .txScDel port => do VtssMacsec.txScDel hw (← portCheck phy port)
  | .rxScAdd port sci => do VtssMacsec.rxScAdd phy (← portCheck phy port) sci
  | .rxScUpdate port sci conf => do
    failIf (64 < conf.confidentialityOffset) .error
    VtssMacsec.rxScUpdate phy (← portCheck phy port) sci conf
  | .rxScDel port sci => do VtssMacsec.rxScDel hw phy (← portCheck phy port) sci
  | .txSaSet port an nextPn confidentiality sak ssci => do
    VtssMacsec.txSaSet hw phy (← portCheck phy port) an nextPn confidentiality sak ssci
  | .txSaActivate port an => do VtssMacsec.txSaActivate hw (← portCheck phy port) an
  | .txSaDisable port an => do VtssMacsec.txSaDisable hw (← portCheck phy port) an
  | .txSaDel port an => do VtssMacsec.txSaDel hw (← portCheck phy port) an
  | .rxSaSet port sci an lowestPn sak ssci => do
    VtssMacsec.rxSaSet hw phy (← portCheck phy port) sci an lowestPn sak ssci
  | .rxSaActivate port sci an => do VtssMacsec.rxSaActivate hw phy (← portCheck phy port) sci an
  | .rxSaDisable port sci an => do VtssMacsec.rxSaDisable hw phy (← portCheck phy port) sci an
  | .rxSaDel port sci an => do VtssMacsec.rxSaDel hw phy (← portCheck phy port) sci an
  | .rxSaLowestPnUpdate port sci an lowestPn => do
    VtssMacsec.rxSaLowestPnUpdate hw phy (← portCheck phy port) sci an lowestPn
  | .patternSet port d a pattern => VtssMacsec.patternSet hw phy port d a pattern
  | .patternDel port d a => VtssMacsec.patternDel hw phy port d a
  | .controlFrameMatchConfSet conf rule => discard (VtssMacsec.controlFrameMatchConfSet hw phy conf rule)
  | .controlFrameMatchConfDel rule => VtssMacsec.controlFrameMatchConfDel hw phy rule

/-- The state after a list of calls, returned or failed. -/
def calls (ops : List Op) (s : Dev Conf H) : Dev Conf H := ops.foldl (fun s op => final (op.call hw phy) s) s

/-- Every call of a list meets a condition in the state in which it is made. -/
def Meets (P : Dev Conf H → Op → Prop) : List Op → Dev Conf H → Prop
  | [], _ => True
  | op :: ops, s => P s op ∧ Meets P ops (final (op.call hw phy) s)

variable {hw phy} in
/-- What each call keeps under a condition, a run keeps whose calls all meet it. -/
theorem calls_induction {I : Dev Conf H → Prop} {P : Dev Conf H → Op → Prop}
    (hstep : ∀ s op, I s → P s op → I (final (op.call hw phy) s)) (ops : List Op) (s : Dev Conf H) (hs : I s)
    (hm : Meets hw phy P ops s) : I (calls hw phy ops s) := by
  induction ops generalizing s with
  | nil => exact hs
  | cons op ops ih => exact ih _ (hstep s op hs hm.1) hm.2

/-- The states of a port since it was probed. -/
def Reachable (s : Dev Conf H) : Prop := ∃ ops h, s = calls hw phy ops { conf := {}, hw := h }

theorem reachable_calls (ops : List Op) (h : H) : Reachable hw phy (calls hw phy ops { conf := {}, hw := h }) :=
  ⟨ops, h, rfl⟩

end Calls

/-! ## A port for examples -/

/-- A Rev B of the 1G PHYs. -/
def benchPhy : Phy :=
  { maxSecyCnt := 8, maxSaCnt := 16, maxScCnt := 8, revb := true, is1g := true, macsecCapable := true }

/-- Hardware that answers every access. -/
def bench : Hw Unit where
  run _ _ h := (true, h)
  nextPn _ _ _ h := (some 0, h)

/-- The port after the probe. -/
def benchProbed : Dev Conf Unit := { conf := {}, hw := () }

def benchPort (portId : Nat) : MacsecPort := { portNo := 0, serviceId := 0, portId }

/-- A SecY with the shorter key. -/
def benchSecy : SecyConf := { macAddr := Vector.replicate 6 1#8 }

/-- The SCI of a peer. -/
def benchSci : Sci := { macAddr := Vector.replicate 6 2#8, portId := 1 }

end Lan80xx.VtssMacsec
