import Mathlib.Algebra.Group.Nat.Defs
import Lan80xx.Lib.RegBus

/-!
# MACsec: the software state of one port

The tables of `phy25g_macsec_conf_t`: SecYs, receive channels, and the two tables of SA records. A C pointer into a
table is the index of the entry (`Option Nat`), so that two pointers to one entry are visible as two equal indexes.
`memset` to zero is the default value of the structure.

Time stamps and packet counters are left out: no function modelled here reads them back.
-/

namespace Lan80xx.Macsec

/-! ## Sizes and fixed values -/

/-- `MEPA_CAP_MACSEC_MAX_SA`: entries of `tx_sa` and of `rx_sa`. -/
def maxSa : Nat := 128

/-- `MEPA_CAP_MACSEC_SECY_CNT`: entries of `secy`. -/
def maxSecy : Nat := 64

/-- `MEPA_CAP_MACSEC_MAX_SC`, `LAN80XX_MACSEC_MAX_RX_SC`: entries of `rx_sc`, and of each SecY's own `rx_sc`. -/
def maxRxSc : Nat := 64

/-- `MEPA_MACSEC_SA_PER_SC_MAX`, `MEPA_MACSEC_SA_PER_SC`: association numbers of a channel. -/
def saPerScMax : Nat := 4

/-- `MEPA_MACSEC_SA_PER_SC_MIN`. -/
def saPerScMin : Nat := 2

/-- `MACSEC_NOT_IN_USE`. -/
def notInUse : Nat := 0xFFFF

/-- `LAN80XX_MACSEC_REPLAY_WINDOW_SIZE`. -/
def replayWindowSize : Nat := 2 ^ 30

/-- `MEPA_MACSEC_MATCH_PRIORITY_LOWEST`. -/
def matchPriorityLowest : Nat := 15

inductive Direction
  | ingress
  | egress
  deriving DecidableEq, Repr

inductive MatchAction
  | drop
  | controlledPort
  | uncontrolledPort
  deriving DecidableEq, Repr

inductive CipherSuite
  | gcmAes128
  | gcmAes256
  | gcmAesXpn128
  | gcmAesXpn256
  deriving DecidableEq, Repr

/-- The suites with 64-bit packet numbers. -/
def CipherSuite.xpn : CipherSuite → Bool
  | .gcmAesXpn128 | .gcmAesXpn256 => true
  | .gcmAes128 | .gcmAes256 => false

inductive BypassMode
  | none
  | tag
  | hdr
  deriving DecidableEq, Repr

inductive ChipRev
  | a0
  | a1
  | b0
  deriving DecidableEq, Repr

/-- `mepa_validate_frames_t`, as the number it is: a caller may pass a value outside the enumeration. -/
def validateFramesDisabled : Nat := 0
def validateFramesCheck : Nat := 1
def validateFramesStrict : Nat := 2

/-! ## Identifiers and keys -/

abbrev MacAddr := Vector (BitVec 8) 6

abbrev Ssci := Vector (BitVec 8) 4

/-- `mepa_macsec_port_t`. -/
structure MacsecPort where
  portNo : Nat
  serviceId : Nat
  portId : Nat
  deriving DecidableEq, Repr

/-- `mepa_macsec_sci_t`. -/
structure Sci where
  macAddr : MacAddr := Vector.replicate 6 0
  portId : Nat := 0
  deriving DecidableEq, Repr

/-- `mepa_macsec_sak_t`. -/
structure Sak where
  buf : Vector (BitVec 8) 32 := Vector.replicate 32 0
  len : Nat := 0
  hBuf : Vector (BitVec 8) 16 := Vector.replicate 16 0
  salt : Vector (BitVec 8) 12 := Vector.replicate 12 0
  deriving DecidableEq, Repr

/-- `mepa_macsec_pkt_num_t`: `xpn` is the whole word, `pn` its low half. -/
abbrev PktNum := BitVec 64

def PktNum.pn (p : PktNum) : BitVec 32 := p.setWidth 32

/-- An assignment to `pn`, which leaves the high half alone. -/
def PktNum.setPn (p : PktNum) (v : BitVec 32) : PktNum := (p >>> 32).setWidth 32 ++ v

/-! ## The tables -/

/-- `phy25g_macsec_internal_tx_sa_t`. -/
structure TxSa where
  record : Nat := 0
  inUse : Bool := false
  enabled : Bool := false
  statusInUse : Bool := false
  confidentiality : Bool := false
  sak : Sak := {}
  ssci : Ssci := Vector.replicate 4 0
  nextPn : BitVec 32 := 0
  pnNextPn : PktNum := 0

/-- `phy25g_macsec_internal_rx_sa_t`. -/
structure RxSa where
  record : Nat := 0
  inUse : Bool := false
  enabled : Bool := false
  statusInUse : Bool := false
  sak : Sak := {}
  ssci : Ssci := Vector.replicate 4 0
  nextPn : BitVec 32 := 0
  lowestPn : BitVec 32 := 0
  pnNextPn : PktNum := 0
  pnLowestPn : PktNum := 0

/-- `mepa_macsec_rx_sc_conf_t`. -/
structure RxScConf where
  validateFrames : Nat := 0
  replayProtect : Bool := false
  replayWindow : Nat := 0
  confidentialityOffset : Nat := 0

/-- `phy25g_macsec_internal_rx_sc_t`; `sa` points into `rx_sa`. -/
structure RxSc where
  inUse : Bool := false
  sci : Sci := {}
  conf : RxScConf := {}
  hwScIdx : Nat := 0
  sa : Nat → Option Nat := fun _ => none

/-- `phy25g_macsec_internal_tx_sc_t`; `sa` points into `tx_sa`. -/
structure TxSc where
  inUse : Bool := false
  encodingSa : Nat := 0
  encipheringSa : Nat := 0
  sa : Nat → Option Nat := fun _ => none

/-- `mepa_macsec_secy_conf_t`. -/
structure SecyConf where
  macAddr : MacAddr := Vector.replicate 6 0
  validateFrames : Nat := 0
  replayProtect : Bool := false
  replayWindow : Nat := 0
  protectFrames : Bool := false
  alwaysIncludeSci : Bool := false
  useEs : Bool := false
  useScb : Bool := false
  currentCipherSuite : CipherSuite := .gcmAes128
  confidentialityOffset : Nat := 0

/-- `mepa_macsec_tx_sc_conf_t`. -/
structure TxScConf where
  protectFrames : Bool := false
  alwaysIncludeSci : Bool := false
  useEs : Bool := false
  useScb : Bool := false
  confidentialityOffset : Nat := 0

/-- `mepa_macsec_match_pattern_t`. -/
structure MatchPattern where
  «match» : BitVec 32 := 0
  destMac : MacAddr := Vector.replicate 6 0
  etype : BitVec 16 := 0
  vid : BitVec 16 := 0
  vidInner : BitVec 16 := 0
  priority : Nat := 0

/-- `MEPA_MACSEC_MATCH_DISABLE`. -/
def matchDisable : BitVec 32 := 0x0001
def matchDmac : BitVec 32 := 0x0002
def matchEtype : BitVec 32 := 0x0004
def matchVlanId : BitVec 32 := 0x0008
def matchVlanIdInner : BitVec 32 := 0x0010
def matchHasVlan : BitVec 32 := 0x0080
def matchHasVlanInner : BitVec 32 := 0x0100
def matchSmac : BitVec 32 := 0x0200

/-- `phy25g_macsec_internal_secy_t`; `rxSc` points into `rx_sc`. -/
structure Secy where
  inUse : Bool := false
  sci : Sci := {}
  serviceId : Nat := 0
  controlledPortEnabled : Bool := false
  conf : SecyConf := {}
  rxSc : Nat → Option Nat := fun _ => none
  txSc : TxSc := {}
  pattern : MatchAction → Direction → MatchPattern := fun _ _ => {}
  patternRecord : MatchAction → Direction → Nat := fun _ _ => 0
  tagBypass : Nat := 0

/-- `phy25g_vlan_t`. -/
structure Vlan where
  vid : BitVec 32 := 0
  pcp : BitVec 32 := 0
  dei : BitVec 32 := 0

inductive PacketType
  | none
  | mpls
  | pbb
  deriving DecidableEq, Repr

/-- `phy25g_pbbmpls_sectag_t`. -/
inductive SectagOff
  | aftCmac
  | aft1Tag
  | aft2Tag
  deriving DecidableEq, Repr

/-- `phy25g_macsec_cleartags_conf_t`. -/
structure CleartagsConf where
  packetType : PacketType := .none
  btag : Vlan := {}
  itag : Vlan := {}
  outCusVid : BitVec 32 := 0
  mpls1Num : BitVec 32 := 0
  mpls2Num : BitVec 32 := 0
  mpls1Label : BitVec 32 := 0
  mpls2Label : BitVec 32 := 0
  mpls1Exp : BitVec 32 := 0
  mpls1S : BitVec 32 := 0
  numTag : Nat := 0
  isEoMpls : Bool := false
  sectagOff : SectagOff := .aftCmac
  numMplsLabel : Nat := 0
  isPwCtrlWord : Bool := false
  «match» : BitVec 32 := 0

/-- `mepa_macsec_mtu_t`. -/
structure MtuConf where
  mtu : BitVec 32 := 0
  drop : Bool := false
  vlanUnawareEn : Bool := false

/-- `mepa_macsec_default_action_t`. -/
inductive DefaultAction
  | drop
  | bypass
  deriving DecidableEq, Repr

/-- `mepa_macsec_default_action_policy_t`. -/
structure DefaultActionPolicy where
  ingressNonControlAndNonMacsec : DefaultAction := .drop
  ingressControlAndNonMacsec : DefaultAction := .drop
  ingressNonControlAndMacsec : DefaultAction := .drop
  ingressControlAndMacsec : DefaultAction := .drop
  egressControl : DefaultAction := .drop
  egressNonControl : DefaultAction := .drop

/-- `mepa_macsec_control_frame_match_conf_t`. -/
structure ControlFrameMatchConf where
  «match» : BitVec 32 := 0
  dmac : MacAddr := Vector.replicate 6 0
  etype : BitVec 16 := 0
  deriving DecidableEq

/-- The port-wide settings the functions below read or write (`glb`, and the chip revision `data->dev.rev`). -/
structure Glb where
  initEnable : Bool := false
  mtuConf : MtuConf := {}
  defaultAction : DefaultActionPolicy := {}
  bypassMode : BypassMode := .none
  cleartagsInitDone : Bool := false
  cleartagsConf : CleartagsConf := {}
  rev : ChipRev := .b0
  controlMatch : Nat → ControlFrameMatchConf := fun _ => {}

/-- `bypass_mode.mode == MEPA_MACSEC_BYPASS_HDR && cleartags_init_done`. -/
def Glb.cleartags (g : Glb) : Bool := g.bypassMode = .hdr && g.cleartagsInitDone

/-- `phy25g_macsec_conf_t`. -/
structure MacsecConf where
  glb : Glb := {}
  secy : Nat → Secy := fun _ => {}
  txSa : Nat → TxSa := fun _ => {}
  rxSc : Nat → RxSc := fun _ => {}
  rxSa : Nat → RxSa := fun _ => {}
  rxScHwIdxInUse : BitVec 64 := 0

/-- The state `lan80xx_macsec_init_set` leaves: `memset` over the tables, and the port-wide settings. -/
def macsecInit (glb : Glb) : MacsecConf := { glb }

/-! ## Return codes -/

/-- The codes `dbg_counter_incr` counts and returns. -/
inductive MacsecRc
  | notEnabled
  | secyAlreadyInUse
  | noSecyFound
  | noSecyVacancy
  | invalidSciMacaddr
  | scNotFound
  | allAvailableSaInUse
  | allCpRulesInUse
  | anNotCreated
  | anNotExist
  | couldNotDelRxSa
  | couldNotDelTxSa
  | couldNotDisableAn
  | couldNotDisableSa
  | couldNotEmptyEgress
  | couldNotEmptyIngress
  | couldNotEnaSa
  | couldNotPrgSaFlow
  | couldNotPrgSaMatch
  | couldNotPrgXform
  | couldNotSetPattern
  | couldNotSetSa
  | emptyRecord
  | hwResourceExhusted
  | invalidValidateFrm
  | matchDisable
  | maxMtu
  | patternNotSet
  | patternPrioNotValid
  | ruleNotExist
  | ruleOutOfRange
  | rxAnAlreadyInUse
  | sciAlreadyExists
  | scResourceNotFound
  | timeoutIssue
  | txAnAlreadyInUse
  | txScNotExist
  | unexpectCpMode
  deriving DecidableEq, Repr

/-- A negative return code: `MEPA_RC_ERROR`, one of the MACsec codes, the code of a failed register access, or `hang`
for a call that does not return at all. -/
inductive Rc
  | error
  | macsec (e : MacsecRc)
  | access (rc : Int)
  | hang
  deriving DecidableEq, Repr

/-! ## Reads of the tables -/

namespace MacsecConf

variable (c : MacsecConf)

/-- `tx_sa[record].in_use` or `rx_sa[record].in_use`. -/
def saInUse : Direction → Nat → Bool
  | .egress, r => (c.txSa r).inUse
  | .ingress, r => (c.rxSa r).inUse

/-- `lan80xx_record_empty_get`: the first record of the table that is not in use. -/
def recordEmptyGet (d : Direction) : Option Nat :=
  (List.range maxSa).find? fun r => !c.saInUse d r

/-- `lan80xx_sc_from_sci_get`: the SecY's first receive channel with this SCI. -/
def scFromSciGet (i : Nat) (sci : Sci) : Option Nat :=
  (List.range maxRxSc).find? fun sc =>
    match (c.secy i).rxSc sc with
    | some p => (c.rxSc p).inUse && decide (sci = (c.rxSc p).sci)
    | none => false

/-- The receive channel behind `secy->rx_sc[sc]`. -/
def rxScAt (i sc : Nat) : RxSc :=
  match (c.secy i).rxSc sc with
  | some p => c.rxSc p
  | none => {}

/-- The SA behind `secy->tx_sc.sa[an]`. -/
def txSaAt (i an : Nat) : TxSa :=
  match (c.secy i).txSc.sa an with
  | some r => c.txSa r
  | none => {}

/-- The SA behind `secy->rx_sc[sc]->sa[an]`. -/
def rxSaAt (i sc an : Nat) : RxSa :=
  match (c.rxScAt i sc).sa an with
  | some r => c.rxSa r
  | none => {}

end MacsecConf

/-- `lan80xx_is_sci_valid`: neither the broadcast nor the zero address. -/
def isSciValid (sci : Sci) : Bool :=
  sci.macAddr ≠ Vector.replicate 6 0xFF && sci.macAddr ≠ Vector.replicate 6 0

/-- `lan80xx_is_ssci_valid`: no in-use SA of the direction has this SSCI, key and SCI. -/
def isSsciValid (c : MacsecConf) (d : Direction) (sci : Sci) (ssci : Option Ssci) (sak : Sak) : Bool :=
  match ssci with
  | none => false
  | some ssci =>
    (List.range maxSecy).all fun i => !(c.secy i).inUse ||
      match d with
      | .egress => (List.range saPerScMax).all fun an =>
        match (c.secy i).txSc.sa an with
        | some r => !((c.txSa r).inUse && ssci = (c.txSa r).ssci && sak = (c.txSa r).sak && sci = (c.secy i).sci)
        | none => true
      | .ingress => (List.range maxRxSc).all fun sc =>
        match (c.secy i).rxSc sc with
        | some p => !(c.rxSc p).inUse || (List.range saPerScMax).all fun an =>
          match (c.rxSc p).sa an with
          | some r => !((c.rxSa r).inUse && ssci = (c.rxSa r).ssci && sci = (c.rxSc p).sci && sak = (c.rxSa r).sak)
          | none => true
        | none => true

/-- `check_resources`: whether the records in use and those reserved fit the table. `foundSa` is not reset between
two channels, as in the source. -/
def checkResources (c : MacsecConf) (isSc : Bool) (secyId : Nat) : Bool :=
  let noSc := (List.range maxSecy).filter fun i =>
    (c.secy i).inUse && (List.range maxRxSc).all (fun sc => ((c.secy i).rxSc sc).isNone) && !(isSc && secyId = i)
  let secyInUse := ((List.range maxSecy).filter fun i => (c.secy i).inUse).length
  let scInUse := (List.range maxRxSc).filter fun p => (c.rxSc p).inUse
  let noSa := scInUse.takeWhile fun p => (List.range saPerScMax).all fun an => ((c.rxSc p).sa an).isNone
  let numOfRxSaInuse := ((List.range maxSa).filter fun r => (c.rxSa r).inUse).length
  if !isSc && secyInUse = maxSecy then false
  else numOfRxSaInuse + saPerScMin * (1 + noSc.length + noSa.length) ≤ maxSa

/-- A pointer that is left when another one is cleared. -/
theorem update_none {ι : Type} [DecidableEq ι] {g : ι → Option Nat} {k l : ι} {v : Nat}
    (h : Function.update g k none l = some v) : g l = some v := by
  rw [Function.update_apply] at h
  split at h
  · cases h
  · exact h

end Lan80xx.Macsec
