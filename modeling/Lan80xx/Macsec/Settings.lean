import Lan80xx.Macsec.Secy

/-!
# MACsec: port-wide settings

The frame size limit and the default actions of a port, and the calls of the driver that set a configuration (`Setter`).
-/

namespace Lan80xx.Macsec

open Fallible RegBus MacsecConf

variable {H : Type} (bus : PortBus H)

/-! ## The frame size limit -/

/-- `LAN80XX_MACSEC_MTU_MAX` -/
def mtuMax : Nat := 32761

/-- `LAN80XX_MACSEC_EGR_CORE_MCHP_OPPE_MTU(i)` -/
def oppeMtuReg (i : Nat) : IoReg := ioreg .egress (0x3C80 ||| (i * 1))

/-- One of the two passes over the MTU words. -/
def oppeMtuSet (mtuValue : BitVec 32) (drop : Bool) : Call H Unit :=
  forUpTo scRecPage0Num fun i =>
    csrWarmWr bus (oppeMtuReg i) (field mtuValue 0 15 ||| if drop then bit 15 else 0)

/-- `lan80xx_macsec_mtu_set_`: the second pass writes the limit for frames with a VLAN tag to the same words. -/
def mtuSet : Call H Unit := do
  let c ← getConf
  let mtuConf := c.glb.mtuConf
  failIf (mtuMax < mtuConf.mtu.toNat) (.macsec .maxMtu)
  oppeMtuSet bus mtuConf.mtu mtuConf.drop
  oppeMtuSet bus (if mtuConf.vlanUnawareEn then mtuConf.mtu else mtuConf.mtu + 4) mtuConf.drop

/-- `lan80xx_macsec_mtu_set_priv`: the limit is stored before it is checked. -/
def mtuSetPriv (conf : MtuConf) : Call H Unit := do
  modifyConf fun c => { c with glb := { c.glb with mtuConf := conf } }
  mtuSet bus

/-! ## The default actions -/

/-- `SAM_NM_FLOW_NCP` and `SAM_NM_FLOW_CP` -/
def samNmFlowReg (d : Direction) (control : Bool) : IoReg := ioreg d (if control then 0x1E52 else 0x1E51)

/-- One class of frames without a match: `FLOW_TYPE`, `DEST_PORT`, `DROP_ACTION` and `DROP_NON_REDIR` of field `k`. -/
def samNmFlowSet (d : Direction) (control : Bool) (k : Nat) (drop : Bool) (mask : BitVec 32) : Call H Unit :=
  csrWrm bus (samNmFlowReg d control) (if drop then bit (8 * k) else 0) (mask <<< (8 * k))

/-- All four parts of the field. -/
def nmFlowMask : BitVec 32 := bit 0 ||| bitmask 2 2 ||| bitmask 6 2 ||| bit 4

/-- The field without its `DROP_ACTION`. -/
def nmFlowMaskKeepAction : BitVec 32 := bit 0 ||| bitmask 2 2 ||| bit 4

/-- `lan80xx_macsec_default_action_set_`: untagged frames, tagged ones, bad tags and KaY tags, for each port side. -/
def defaultActionSet (policy : DefaultActionPolicy) : Call H Unit := do
  samNmFlowSet bus .ingress false 0 (policy.ingressNonControlAndNonMacsec = .drop) nmFlowMask
  samNmFlowSet bus .ingress false 1 (policy.ingressNonControlAndMacsec = .drop) nmFlowMask
  samNmFlowSet bus .ingress false 2 true nmFlowMask
  samNmFlowSet bus .ingress false 3 false nmFlowMaskKeepAction
  samNmFlowSet bus .ingress true 0 (policy.ingressControlAndNonMacsec = .drop) nmFlowMask
  samNmFlowSet bus .ingress true 1 (policy.ingressControlAndMacsec = .drop) nmFlowMask
  samNmFlowSet bus .ingress true 2 true nmFlowMask
  samNmFlowSet bus .ingress true 3 false nmFlowMaskKeepAction
  samNmFlowSet bus .egress false 0 (policy.egressNonControl = .drop) nmFlowMask
  samNmFlowSet bus .egress false 1 (policy.egressNonControl = .drop) nmFlowMaskKeepAction
  samNmFlowSet bus .egress false 2 true nmFlowMask
  samNmFlowSet bus .egress false 3 true nmFlowMask
  samNmFlowSet bus .egress true 1 (policy.egressControl = .drop) nmFlowMask
  samNmFlowSet bus .egress true 2 true nmFlowMask
  samNmFlowSet bus .egress true 3 false nmFlowMask
  samNmFlowSet bus .egress true 0 (policy.egressControl = .drop) nmFlowMask

/-- `lan80xx_macsec_default_action_set_priv`: the policy is stored also when the registers could not be written. -/
def defaultActionSetPriv (policy : DefaultActionPolicy) : Call H Unit := do
  let c ← getConf
  failIf (c.glb.initEnable = false) (.macsec .notEnabled)
  afterwards (defaultActionSet bus policy) fun s =>
    { s with conf := { s.conf with glb := { s.conf.glb with defaultAction := policy } } }

/-! ## The setting calls -/

/-- The calls that set the configuration of a SecY, its channels, its patterns, or the port. -/
inductive Setter
  | txScUpdate (port : MacsecPort) (conf : TxScConf)
  | secyConfUpdate (port : MacsecPort) (conf : SecyConf)
  | patternSet (port : MacsecPort) (d : Direction) (a : MatchAction) (pattern : MatchPattern)
  | txSaSet (port : MacsecPort) (an : Nat) (nextPn : PktNum) (confidentiality : Bool) (sak : Sak) (ssci : Option Ssci)
  | rxSaSet (port : MacsecPort) (sci : Sci) (an : Nat) (lowestPn : PktNum) (sak : Sak) (ssci : Option Ssci)
  | mtuSet (conf : MtuConf)
  | defaultActionSet (policy : DefaultActionPolicy)

def Setter.call : Setter → Call H Unit
  | .txScUpdate port conf => (Op.txScUpdate conf).call bus port
  | .secyConfUpdate port conf => (Op.secyConfUpdate conf).call bus port
  | .patternSet port d a pattern => (Op.patternSet d a pattern).call bus port
  | .txSaSet port an nextPn confidentiality sak ssci => (Op.txSaSet an nextPn confidentiality sak ssci).call bus port
  | .rxSaSet port sci an lowestPn sak ssci => (Op.rxSaSet sci an lowestPn sak ssci).call bus port
  | .mtuSet conf => mtuSetPriv bus conf
  | .defaultActionSet policy => defaultActionSetPriv bus policy

end Lan80xx.Macsec
