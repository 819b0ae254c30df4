import Lan80xx.VtssMacsec.Device

/-!
# MACsec of the VTSS PHYs: counters

The hardware counts frames by SA record, and port-wide those that belong to no SA; a read clears these counters. What was
read is added up in the tables, at the SA, at its channel or at the SecY. The counters of the MACs run on until they are
written.

- `Stats`: the counters in the hardware and in the tables;
- `txSaCountersGet`, `txScCountersGet`, `rxSaCountersGet`, `rxScCountersGet`, `secyCountersGet`: reads;
- `controlledCountersGet`, `commonCountersGet`, `lmacCountersGet`, `hmacCountersGet`: the counters of the ports;
- `countersClear`, `lmacCountersClear`, `hmacCountersClear`, `commonCountersClear`: what clears them.

Software counters have 64 bits and are numbers here: none of them gets full in the life of a port. The reads are answered.
The uncontrolled port is left out, and of the counters of a MAC, the sums.
-/

namespace Lan80xx.VtssMacsec

open Fallible RegBus
open Macsec (Sci SecyConf saPerScMax validateFramesDisabled)

/-! ## Counters in the tables -/

/-- The packet counters of `vtss_macsec_rx_sa_counters_t`. -/
inductive RxPkt
  | ok
  | invalid
  | notValid
  | notUsingSa
  | unusedSa
  | unchecked
  | delayed
  | late
  deriving DecidableEq, Repr

inductive Cast
  | ucast
  | multicast
  | broadcast
  deriving DecidableEq, Repr

abbrev RxSaCounters := RxPkt → Nat

/-- `vtss_macsec_rx_sc_counters_t`. -/
structure RxScCounters where
  pkts : RxSaCounters := fun _ => 0
  inOctetsValidated : Nat := 0
  inOctetsDecrypted : Nat := 0

/-- `vtss_macsec_tx_sa_counters_t`. -/
structure TxSaCounters where
  outPktsEncrypted : Nat := 0
  outPktsProtected : Nat := 0
  deriving DecidableEq

/-- `vtss_macsec_tx_sc_counters_t`. -/
structure TxScCounters where
  outPktsEncrypted : Nat := 0
  outPktsProtected : Nat := 0
  outOctetsEncrypted : Nat := 0
  outOctetsProtected : Nat := 0
  deriving DecidableEq

/-- `vtss_macsec_secy_counters_t`. -/
structure SecyCounters where
  inPktsUntagged : Nat := 0
  inPktsNoTag : Nat := 0
  inPktsBadTag : Nat := 0
  inPktsUnknownSci : Nat := 0
  inPktsNoSci : Nat := 0
  inPktsOverrun : Nat := 0
  inOctetsValidated : Nat := 0
  inOctetsDecrypted : Nat := 0
  outPktsUntagged : Nat := 0
  outPktsTooLong : Nat := 0
  outOctetsProtected : Nat := 0
  outOctetsEncrypted : Nat := 0
  deriving DecidableEq

/-- `vtss_macsec_secy_port_counters_t`. -/
structure SecyPortCounters where
  ifInOctets : Nat := 0
  ifInPkts : Nat := 0
  ifInCastPkts : Cast → Nat := fun _ => 0
  ifInDiscards : Nat := 0
  ifInErrors : Nat := 0
  ifOutOctets : Nat := 0
  ifOutPkts : Nat := 0
  ifOutErrors : Nat := 0
  ifOutCastPkts : Cast → Nat := fun _ => 0

/-- The counters of `vtss_macsec_common_counters_t` that are read from the MAC. -/
inductive PortCnt
  | inOctets
  | inCast (k : Cast)
  | outOctets
  | outCast (k : Cast)
  deriving DecidableEq, Repr

/-- `vtss_macsec_common_counters_t`. -/
structure CommonCounters where
  traffic : PortCnt → Nat := fun _ => 0
  ifInDiscards : Nat := 0
  ifInErrors : Nat := 0
  ifOutErrors : Nat := 0

/-- The counters of `vtss_macsec_internal_tx_sc_t`. -/
structure TxScStats where
  cnt : TxScCounters := {}
  delTxSaCnt : TxSaCounters := {}
  outOctetsUntagged : Nat := 0

/-- The counters of `vtss_macsec_internal_rx_sc_t`. -/
structure RxScStats where
  cnt : RxScCounters := {}
  delRxSaCnt : RxSaCounters := fun _ => 0
  inOctetsValidationDisabled : Nat := 0

/-- The counters of `vtss_macsec_internal_secy_t`. -/
structure SecyStats where
  secyCnt : SecyCounters := {}
  controlledCnt : SecyPortCounters := {}
  txSc : TxScStats := {}

/-- The counters of `vtss_macsec_internal_glb_t`. -/
structure GlbStats where
  commonCnt : CommonCounters := {}
  commonCntClrVal : PortCnt → Nat := fun _ => 0
  rmonCountersClr : Bool := false

/-! ## Counters in the hardware -/

/-- `EGR_SA_STATS` of a record. -/
structure EgrSaStats where
  outPktsEncrypted : Nat := 0
  outOctetsEncrypted : Nat := 0
  outPktsTooLong : Nat := 0
  outCastPkts : Cast → Nat := fun _ => 0

/-- `INGR_SA_STATS` of a record. -/
structure IgrSaStats where
  pkts : RxPkt → Nat := fun _ => 0
  inOctetsDecrypted : Nat := 0
  inCastPkts : Cast → Nat := fun _ => 0

/-- `INGR_GLOBAL_STATS` and `EGR_GLOBAL_STATS`. -/
structure GlobalStats where
  inPktsNoSci : Nat := 0
  inPktsUnknownSci : Nat := 0
  inPktsBadTag : Nat := 0
  inPktsNoTag : Nat := 0
  inPktsUntagged : Nat := 0
  outPktsUntagged : Nat := 0

/-- The registers of `LINE_MAC_STATISTICS` and `HOST_MAC_STATISTICS`, a low word and its `MSB` as one. -/
inductive MacReg
  | rxInBytes
  | rxOkBytes
  | rxBadBytes
  | rxPause
  | rxCast (k : Cast)
  | rxCrcErr
  | rxUndersize
  | rxFragments
  | rxJabbers
  | rxOversize
  | rxSize64
  | rxSize65to127
  | rxSize128to255
  | rxSize256to511
  | rxSize512to1023
  | rxSize1024to1518
  | rxSize1519toMax
  | txOkBytes
  | txPause
  | txCast (k : Cast)
  | txSize64
  | txSize65to127
  | txSize128to255
  | txSize256to511
  | txSize512to1023
  | txSize1024to1518
  | txSize1519toMax
  deriving DecidableEq, Repr

/-- `40BIT` and `32BIT` in the names of the registers. -/
def MacReg.width : MacReg → Nat
  | .rxInBytes | .rxOkBytes | .rxBadBytes | .txOkBytes => 40
  | _ => 32

/-- The register of the line MAC behind a counter of the common port. -/
def PortCnt.reg : PortCnt → MacReg
  | .inOctets => .rxOkBytes
  | .inCast k => .rxCast k
  | .outOctets => .txOkBytes
  | .outCast k => .txCast k

/-- The counters of a port: `tx_sa`, `rx_sa`, `rx_sc`, `secy` and `glb` in the tables, the others in the hardware. -/
structure Stats where
  txSa : Nat → TxSaCounters := fun _ => {}
  rxSa : Nat → RxSaCounters := fun _ _ => 0
  rxSc : Nat → RxScStats := fun _ => {}
  secy : Nat → SecyStats := fun _ => {}
  glb : GlbStats := {}
  egr : Nat → EgrSaStats := fun _ => {}
  igr : Nat → IgrSaStats := fun _ => {}
  global : GlobalStats := {}
  lineMac : MacReg → Nat := fun _ => 0
  hostMac : MacReg → Nat := fun _ => 0

namespace Stats

variable (st : Stats)

def setSecy (i : Nat) (f : SecyStats → SecyStats) : Stats :=
  { st with secy := Function.update st.secy i (f (st.secy i)) }

def setTxSc (i : Nat) (f : TxScStats → TxScStats) : Stats := st.setSecy i fun s => { s with txSc := f s.txSc }

def setSecyCnt (i : Nat) (f : SecyCounters → SecyCounters) : Stats :=
  st.setSecy i fun s => { s with secyCnt := f s.secyCnt }

def setControlled (i : Nat) (f : SecyPortCounters → SecyPortCounters) : Stats :=
  st.setSecy i fun s => { s with controlledCnt := f s.controlledCnt }

def setRxSc (p : Nat) (f : RxScStats → RxScStats) : Stats :=
  { st with rxSc := Function.update st.rxSc p (f (st.rxSc p)) }

end Stats

abbrev Reading (α : Type) := EStateM Rc Stats α

/-! ## What a read of one SA adds up -/

/-- The difference of two counters of 64 bits. -/
def u64Sub (a b : Nat) : Nat := if b ≤ a then a - b else a + 2 ^ 64 - b

/-- The octets behind and before the confidentiality offset. -/
def splitOctets (offset pkts cnt : Nat) : Nat × Nat :=
  if pkts * offset < cnt then (cnt - pkts * offset, pkts * offset) else (0, cnt)

/-- `protect_frames == FALSE && macsec_revb == TRUE`. -/
def Conf.unprotected (c : Conf) (i : Nat) : Bool := !(c.secy i).conf.protectFrames && c.glb.macsecRevb

section Drains

variable (c : Conf)

/-- The octets that a transmit SA has counted. -/
def TxScStats.addOctets (t : TxScStats) (unprotected confidentiality : Bool) (offset pkts cnt : Nat) : TxScStats :=
  if unprotected then { t with outOctetsUntagged := t.outOctetsUntagged + cnt } else
    let o := if confidentiality then splitOctets offset pkts cnt else (0, cnt)
    { t with cnt := { t.cnt with
        outOctetsEncrypted := t.cnt.outOctetsEncrypted + o.1
        outOctetsProtected := t.cnt.outOctetsProtected + o.2 } }

/-- The registers of the record of `tx_sa[r]`, an SA of a SecY. -/
def txSaDrain (i r : Nat) (st : Stats) : Stats :=
  let sa := c.txSa r
  let s := st.egr sa.record
  { st with
    egr := Function.update st.egr sa.record { outCastPkts := if c.glb.macsecRevb then fun _ => 0 else s.outCastPkts }
    txSa := Function.update st.txSa r (if sa.confidentiality
      then { outPktsEncrypted := (st.txSa r).outPktsEncrypted + s.outPktsEncrypted }
      else { outPktsProtected := (st.txSa r).outPktsProtected + s.outPktsEncrypted })
    secy := Function.update st.secy i { st.secy i with
      txSc := (st.secy i).txSc.addOctets (c.unprotected i) sa.confidentiality (c.secy i).conf.confidentialityOffset
        s.outPktsEncrypted s.outOctetsEncrypted
      secyCnt := { (st.secy i).secyCnt with outPktsTooLong := (st.secy i).secyCnt.outPktsTooLong + s.outPktsTooLong }
      controlledCnt := { (st.secy i).controlledCnt with
        ifOutCastPkts := fun k => (st.secy i).controlledCnt.ifOutCastPkts k +
          if c.glb.macsecRevb then s.outCastPkts k else 0 } } }

/-- The octets that a receive SA has counted. -/
def RxScStats.addOctets (x : RxScStats) (conf : SecyConf) (revb evBit : Bool) (pkts cnt : Nat) : RxScStats :=
  if conf.validateFrames = validateFramesDisabled then
    if revb then { x with inOctetsValidationDisabled := x.inOctetsValidationDisabled + cnt } else x
  else
    let o := if evBit then splitOctets conf.confidentialityOffset pkts cnt else (0, cnt)
    { x with cnt := { x.cnt with
        inOctetsDecrypted := x.cnt.inOctetsDecrypted + o.1
        inOctetsValidated := x.cnt.inOctetsValidated + o.2 } }

/-- What `vtss_macsec_secy_counters_get_priv` reads of `rx_sa[r]`, an SA of `rx_sc[p]`: packets that are in order, and
octets. -/
def rxOkDrain (i p r : Nat) (evBit : Bool) (st : Stats) : Stats :=
  let n := (c.rxSa r).record
  let s := st.igr n
  { st with
    igr := Function.update st.igr n { s with pkts := Function.update s.pkts .ok 0, inOctetsDecrypted := 0 }
    rxSa := Function.update st.rxSa r (Function.update (st.rxSa r) .ok (st.rxSa r .ok + s.pkts .ok))
    rxSc := Function.update st.rxSc p
      ((st.rxSc p).addOctets (c.secy i).conf c.glb.macsecRevb evBit (s.pkts .ok) s.inOctetsDecrypted) }

/-- What `vtss_macsec_rx_sa_counters_get_priv` reads of `rx_sa[r]`. -/
def rxSaDrain (i p r : Nat) (evBit : Bool) (st : Stats) : Stats :=
  let n := (c.rxSa r).record
  let s := st.igr n
  { st with
    igr := Function.update st.igr n { inCastPkts := if c.glb.macsecRevb then fun _ => 0 else s.inCastPkts }
    rxSa := Function.update st.rxSa r fun k => st.rxSa r k + s.pkts k
    rxSc := Function.update st.rxSc p
      ((st.rxSc p).addOctets (c.secy i).conf c.glb.macsecRevb evBit (s.pkts .ok) s.inOctetsDecrypted)
    secy := Function.update st.secy i { st.secy i with controlledCnt := { (st.secy i).controlledCnt with
      ifInCastPkts := fun k => (st.secy i).controlledCnt.ifInCastPkts k +
        if c.glb.macsecRevb then s.inCastPkts k else 0 } } }

/-- What is counted port-wide is added for a SecY in use. -/
def SecyCounters.addGlobal (k : SecyCounters) (revb : Bool) (g : GlobalStats) : SecyCounters := { k with
  inPktsNoSci := k.inPktsNoSci + g.inPktsNoSci
  inPktsUnknownSci := k.inPktsUnknownSci + g.inPktsUnknownSci
  inPktsBadTag := k.inPktsBadTag + g.inPktsBadTag
  outPktsUntagged := k.outPktsUntagged + if revb then 0 else g.outPktsUntagged
  inPktsNoTag := k.inPktsNoTag + g.inPktsNoTag
  inPktsUntagged := k.inPktsUntagged + g.inPktsUntagged }

/-- The port-wide registers. -/
def globalDrain (phy : Phy) (st : Stats) : Stats := { st with
  global := {}
  secy := fun j =>
    if j < phy.maxSecyCnt ∧ (c.secy j).inUse = true
    then { st.secy j with secyCnt := (st.secy j).secyCnt.addGlobal c.glb.macsecRevb st.global }
    else st.secy j }

end Drains

/-! ## Reads -/

section Reads

variable (phy : Phy) (c : Conf)

/-- `vtss_macsec_tx_sa_counters_get_priv`. -/
def txSaCountersGet (i an : Nat) : Reading TxSaCounters :=
  if (c.secy i).txSc.inUse = false then pure {} else do
    failIf (saPerScMax ≤ an) .error
    match (c.secy i).txSc.sa an with
    | none => pure {}
    | some r => do
      modify (txSaDrain c i r)
      return (← get).txSa r

/-- `vtss_macsec_tx_sc_counters_get_priv`. -/
def txScCountersGet (i : Nat) : Reading TxScCounters := do
  modify fun st => st.setTxSc i fun t => { t with cnt := { t.cnt with outPktsEncrypted := 0, outPktsProtected := 0 } }
  forUpTo saPerScMax fun an => do
    let k ← txSaCountersGet c i an
    modify fun st => st.setTxSc i fun t => { t with cnt := { t.cnt with
      outPktsEncrypted := t.cnt.outPktsEncrypted + k.outPktsEncrypted
      outPktsProtected := t.cnt.outPktsProtected + k.outPktsProtected } }
  modify fun st => st.setTxSc i fun t => { t with cnt := { t.cnt with
    outPktsEncrypted := t.cnt.outPktsEncrypted + t.delTxSaCnt.outPktsEncrypted
    outPktsProtected := t.cnt.outPktsProtected + t.delTxSaCnt.outPktsProtected } }
  return ((← get).secy i).txSc.cnt

/-- The SAs that `vtss_macsec_secy_counters_get_priv` reads in `rx_sc[p]`. -/
def rxSaInUse (p an : Nat) : Option Nat :=
  match (c.rxSc p).sa an with
  | some r => if (c.rxSa r).inUse = true then some r else none
  | none => none

/-- The channels of a SecY that are in use. -/
def rxScInUse (i sc : Nat) : Option Nat :=
  match (c.secy i).rxSc sc with
  | some p => if (c.rxSc p).inUse = true then some p else none
  | none => none

/-- The transmit SAs of a SecY: the packets they have protected, and whether the last one encrypts. -/
def secyTxRead (i : Nat) : Reading (Nat × Bool) :=
  foldUpTo (0, false) saPerScMax fun acc an =>
    match (c.secy i).txSc.sa an with
    | none => pure acc
    | some r => if (c.secy i).txSc.inUse = false then pure acc else do
      modify (txSaDrain c i r)
      let k := (← get).txSa r
      return (acc.1 + (k.outPktsProtected + k.outPktsEncrypted), (c.txSa r).confidentiality)

/-- What is derived from the transmit SAs. -/
def secyTxStore (i outPktsEncrypt : Nat) (st : Stats) : Stats :=
  st.setSecy i fun s => { s with secyCnt := { s.secyCnt with
    outPktsUntagged := if c.unprotected i then
        u64Sub (s.controlledCnt.ifOutCastPkts .ucast + s.controlledCnt.ifOutCastPkts .multicast +
          s.controlledCnt.ifOutCastPkts .broadcast) (outPktsEncrypt + s.secyCnt.outPktsTooLong)
      else s.secyCnt.outPktsUntagged
    outOctetsEncrypted := s.txSc.cnt.outOctetsEncrypted
    outOctetsProtected := s.txSc.cnt.outOctetsProtected } }

/-- The receive SAs of a SecY. -/
def secyRxRead (i : Nat) (evBit : Bool) : Reading Unit := do
  modify fun st => st.setSecyCnt i fun k => { k with inOctetsValidated := 0, inOctetsDecrypted := 0 }
  forUpTo phy.maxScCnt fun sc =>
    match rxScInUse c i sc with
    | none => pure ()
    | some p => do
      forUpTo saPerScMax fun an =>
        match rxSaInUse c p an with
        | none => pure ()
        | some r => modify (rxOkDrain c i p r evBit)
      modify fun st => st.setSecyCnt i fun k => { k with
        inOctetsValidated := k.inOctetsValidated + (st.rxSc p).cnt.inOctetsValidated
        inOctetsDecrypted := k.inOctetsDecrypted + (st.rxSc p).cnt.inOctetsDecrypted }

/-- `vtss_macsec_secy_counters_get_priv`. An overrun is reported as zero. -/
def secyCountersGet (i : Nat) : Reading SecyCounters := do
  let tx ← secyTxRead c i
  modify (secyTxStore c i tx.1)
  secyRxRead phy c i tx.2
  modify (globalDrain c phy)
  return ((← get).secy i).secyCnt

/-- The confidentiality of the encoding SA. -/
def encodingBit (i : Nat) : Bool :=
  (c.secy i).txSc.inUse && (c.txSaAt i (c.secy i).txSc.encodingSa).confidentiality

/-- `sc_from_sci_get`, for a read. -/
def scOfSci (i : Nat) (sci : Sci) : Reading Nat :=
  match c.scFromSciGet phy i sci with
  | some sc => pure sc
  | none => throw (.macsec .scNotFound)

/-- `vtss_macsec_rx_sa_counters_get_priv`. -/
def rxSaCountersGet (i : Nat) (sci : Sci) (an : Nat) : Reading RxSaCounters := do
  discard (secyCountersGet phy c i)
  let sc ← scOfSci phy c i sci
  match rxScInUse c i sc with
  | none => pure fun _ => 0
  | some p =>
    match rxSaInUse c p an with
    | none => pure fun _ => 0
    | some r => do
      modify (rxSaDrain c i p r (encodingBit c i))
      return (← get).rxSa r

/-- `vtss_macsec_rx_sc_counters_get_priv`. -/
def rxScCountersGet (i : Nat) (sci : Sci) : Reading RxScCounters := do
  let sc ← scOfSci phy c i sci
  match (c.secy i).rxSc sc with
  | none => throw .error
  | some p => do
    modify fun st => st.setRxSc p fun x => { x with cnt := { x.cnt with pkts := fun _ => 0 } }
    forUpTo saPerScMax fun an =>
      match rxSaInUse c p an with
      | none => pure ()
      | some _ => do
        let k ← rxSaCountersGet phy c i sci an
        modify fun st => st.setRxSc p fun x => { x with cnt := { x.cnt with pkts := fun y => x.cnt.pkts y + k y } }
    modify fun st => st.setRxSc p fun x => { x with cnt := { x.cnt with pkts := fun y => x.cnt.pkts y + x.delRxSaCnt y } }
    return ((← get).rxSc p).cnt

end Reads

/-! ## The ports -/

/-- The counters that are read from port-wide registers, the largest of what the SecYs have. -/
structure PortWide where
  inPktsBadTag : Nat := 0
  inPktsNoSci : Nat := 0
  inPktsNoTag : Nat := 0
  inPktsOverrun : Nat := 0

def SecyCounters.portWide (k : SecyCounters) : PortWide where
  inPktsBadTag := k.inPktsBadTag
  inPktsNoSci := k.inPktsNoSci
  inPktsNoTag := k.inPktsNoTag
  inPktsOverrun := k.inPktsOverrun

def PortWide.max (a b : PortWide) : PortWide where
  inPktsBadTag := Max.max a.inPktsBadTag b.inPktsBadTag
  inPktsNoSci := Max.max a.inPktsNoSci b.inPktsNoSci
  inPktsNoTag := Max.max a.inPktsNoTag b.inPktsNoTag
  inPktsOverrun := Max.max a.inPktsOverrun b.inPktsOverrun

section Ports

variable (phy : Phy) (c : Conf)

/-- `octets_add`: the addresses, and the tags or the header in front of the SecTAG, in a byte. -/
def octetsAdd (i : Nat) : Nat :=
  (12 + match c.glb.bypassMode with
    | .tag => if (c.secy i).tagBypass = 1 then 4 else if (c.secy i).tagBypass = 2 then 8 else 0
    | .hdr => c.glb.hdrBypassLen
    | .none => 0) % 256

/-- The receive SAs of a controlled port: packets are added up in the table, and the octets received while validation is
disabled are returned. -/
def controlledRxRead (i : Nat) : Reading Nat :=
  foldUpTo 0 phy.maxScCnt fun acc sc =>
    match rxScInUse c i sc with
    | none => pure acc
    | some p => do
      forUpTo saPerScMax fun an =>
        match rxSaInUse c p an with
        | none => pure ()
        | some _ => do
          let k ← rxSaCountersGet phy c i (c.rxSc p).sci an
          modify fun st => st.setControlled i fun s => { s with ifInPkts := s.ifInPkts + (k .ok + k .invalid +
            k .notUsingSa + k .unusedSa + k .unchecked + k .delayed + k .late) }
      let octets := ((← get).rxSc p).inOctetsValidationDisabled
      return acc + if c.glb.macsecRevb then octets else 0

/-- The transmit SAs of a controlled port. -/
def controlledTxRead (i : Nat) : Reading Unit :=
  forUpTo saPerScMax fun an =>
    when ((c.secy i).txSc.sa an ≠ none ∧ (c.secy i).txSc.inUse = true) do
      let k ← txSaCountersGet c i an
      modify fun st => st.setControlled i fun s =>
        { s with ifOutPkts := s.ifOutPkts + (k.outPktsEncrypted + k.outPktsProtected) }

/-- The octets of a controlled port; those received are reported as zero by a Rev A without validation. -/
def controlledOctets (i ifOutOctets inOctets : Nat) (s : SecyPortCounters) : SecyPortCounters := { s with
  ifOutOctets := s.ifOutOctets + (ifOutOctets + s.ifOutPkts * octetsAdd c i)
  ifInOctets :=
    if (c.secy i).conf.validateFrames ≠ validateFramesDisabled ∨ c.glb.macsecRevb = true
    then inOctets + octetsAdd c i * s.ifInPkts else 0 }

/-- The channels of a controlled port: the packets not valid and those not using an SA, and the late ones of the channel
that was read last. -/
def controlledScRead (i : Nat) : Reading (Nat × Nat × Nat) :=
  foldUpTo (0, 0, 0) phy.maxScCnt fun acc sc =>
    match (c.secy i).rxSc sc with
    | none => pure acc
    | some p => do
      let k ← rxScCountersGet phy c i (c.rxSc p).sci
      return (acc.1 + k.pkts .notValid, acc.2.1 + k.pkts .notUsingSa, k.pkts .late)

/-- The port-wide counters of the SecYs in use, other than `skip`. -/
def portWideRead (skip : Option Nat) (w : PortWide) : Reading PortWide :=
  foldUpTo w phy.maxSecyCnt fun acc j =>
    if (c.secy j).inUse = true ∧ skip ≠ some j then do
      let k ← secyCountersGet phy c j
      return acc.max k.portWide
    else pure acc

/-- `vtss_macsec_controlled_counters_get_priv`. -/
def controlledCountersGet (i : Nat) : Reading SecyPortCounters := do
  modify fun st => st.setControlled i fun s => { s with ifOutOctets := 0 }
  let secy ← secyCountersGet phy c i
  let untagged := ((← get).secy i).txSc.outOctetsUntagged
  modify fun st => st.setControlled i fun s => { s with ifInPkts := 0, ifOutPkts := 0 }
  if (c.secy i).inUse = false then pure {} else do
    let disabled ← controlledRxRead phy c i
    controlledTxRead c i
    modify fun st => st.setControlled i fun s => controlledOctets c i
      (secy.outOctetsProtected + secy.outOctetsEncrypted + if c.glb.macsecRevb then untagged else 0)
      (secy.inOctetsValidated + secy.inOctetsDecrypted + disabled)
      { s with ifOutPkts := s.ifOutPkts + if c.glb.macsecRevb then secy.outPktsUntagged else 0 }
    let sc ← controlledScRead phy c i
    modify fun st => st.setControlled i fun s => { s with ifOutErrors := secy.outPktsTooLong }
    let wide ← portWideRead phy c (some i) secy.portWide
    modify fun st => { st with glb := { st.glb with commonCnt := { st.glb.commonCnt with
      ifInErrors := wide.inPktsBadTag + wide.inPktsNoSci + sc.1 + sc.2.1 } } }
    modify fun st => st.setControlled i fun s =>
      { s with ifInDiscards := wide.inPktsNoTag + sc.2.2 + wide.inPktsOverrun }
    return ((← get).secy i).controlledCnt

/-- A counter of the MAC without what it had counted when it was cleared last. -/
def compensated (g : GlbStats) (value : Nat) (k : PortCnt) : Nat :=
  if g.commonCntClrVal k ≤ value ∧ g.rmonCountersClr = false then value - g.commonCntClrVal k else value

/-- The counters that `vtss_macsec_common_counters_get_priv` takes from the MAC, cleared or not. -/
def commonTraffic (clear : Bool) (st : Stats) : Stats :=
  let value := fun k : PortCnt => st.lineMac k.reg
  let g := if clear then { st.glb with commonCntClrVal := value, rmonCountersClr := false } else st.glb
  { st with glb := { g with commonCnt := { g.commonCnt with traffic := fun k => compensated g (value k) k } } }

/-- The errors and discards of the common port. The packets that are too long are stored before the SecYs are read; those
not valid, not using an SA, or late are not read at all. -/
def commonErrorsGet : Reading CommonCounters := do
  let outPktsTooLong := 0
  modify fun st => { st with glb := { st.glb with commonCnt := { st.glb.commonCnt with ifOutErrors := outPktsTooLong } } }
  let wide ← portWideRead phy c none {}
  modify fun st => { st with glb := { st.glb with commonCnt := { st.glb.commonCnt with
    ifInErrors := wide.inPktsBadTag + wide.inPktsNoSci + 0 + 0
    ifInDiscards := wide.inPktsNoTag + 0 + wide.inPktsOverrun } } }
  return (← get).glb.commonCnt

/-- `vtss_macsec_common_counters_get_priv`. -/
def commonCountersGet (clear : Bool) : Reading CommonCounters := do
  modify (commonTraffic clear)
  commonErrorsGet phy c

/-- `vtss_macsec_lmac_counters_get_priv`. -/
def lmacCountersGet (clear : Bool) : Reading (MacReg → Nat) := do
  let value := (← get).lineMac
  when (clear = true)
    (modify fun st => { st with lineMac := fun _ => 0, glb := { st.glb with rmonCountersClr := true } })
  return value

/-- `vtss_macsec_hmac_counters_get_priv`. -/
def hmacCountersGet (clear : Bool) : Reading (MacReg → Nat) := do
  let value := (← get).hostMac
  when (clear = true) (modify fun st => { st with hostMac := fun _ => 0 })
  return value

/-! ## Clearing -/

/-- `vtss_macsec_lmac_counters_clear_priv`: the pause frames stay. -/
def lmacCountersClear : Reading Unit :=
  modify fun st => { st with lineMac := fun r => if r = .rxPause ∨ r = .txPause then st.lineMac r else 0 }

/-- `vtss_macsec_hmac_counters_clear_priv`: the pause frames that were sent stay. -/
def hmacCountersClear : Reading Unit :=
  modify fun st => { st with hostMac := fun r => if r = .txPause then st.hostMac r else 0 }

/-- `vtss_macsec_common_counters_clear`. -/
def commonCountersClear : Reading Unit := discard (commonCountersGet phy c true)

/-- The tables of one SecY. The counters of a transmit SA are cleared at the SA, and once more in the entry that has the
number of its AN. -/
def clearSecyStats (i : Nat) : Reading Unit := do
  modify fun st => st.setSecy i fun s => { s with
    secyCnt := {}
    txSc := { s.txSc with delTxSaCnt := {}, cnt := {} } }
  forUpTo saPerScMax fun an =>
    match (c.secy i).txSc.sa an with
    | none => pure ()
    | some r => modify fun st => { st with txSa := Function.update (Function.update st.txSa r {}) an {} }
  modify fun st => st.setControlled i fun _ => {}
  forUpTo phy.maxScCnt fun sc =>
    match (c.secy i).rxSc sc with
    | none => pure ()
    | some p => do
      modify fun st => st.setRxSc p fun x => { x with delRxSaCnt := fun _ => 0, cnt := {} }
      forUpTo saPerScMax fun an =>
        match (c.rxSc p).sa an with
        | none => pure ()
        | some r => modify fun st => { st with rxSa := Function.update st.rxSa r fun _ => 0 }

/-- `vtss_macsec_counters_clear_priv`. The loop over the SecYs has the number of channels for its bound. -/
def countersClear : Reading Unit := do
  discard (commonCountersGet phy c true)
  discard (lmacCountersGet true)
  discard (hmacCountersGet true)
  forUpTo phy.maxScCnt (clearSecyStats phy c)
  modify fun st => { st with egr := fun _ => {}, igr := fun _ => {}, global := {} }

end Ports

end Lan80xx.VtssMacsec
