import Lan80xx.Macsec.Match
import Lan80xx.Macsec.Tables

/-!
# MACsec: secure associations

Setting, activating, disabling and deleting the SAs of a SecY's transmit channel and of its receive channels. `i` is the
SecY's index, which the exported functions look up by port.
-/

namespace Lan80xx.Macsec

open Fallible RegBus MacsecConf

variable {H : Type} (bus : PortBus H)

/-- `LAN80XX_MACSEC_ASSERT`: the call fails when the condition holds. -/
def macsecAssert (bad : Prop) [Decidable bad] : Call H Unit := failIf bad .error

/-! ## Transmit SAs -/

/-- The counters of a transmit SA: packets, octets, and packets too long. -/
def txSaCounterOffs : List Nat := [0x2, 0x0, 0x4]

/-- `lan80xx_macsec_tx_sa_counters_get_`, without the sums it keeps. -/
def txSaCountersGet (i an : Nat) : Call H Unit := do
  let c ← getConf
  when ((c.secy i).txSc.inUse = true) do
    failIf (saPerScMax ≤ an) .error
    when (((c.secy i).txSc.sa an).isSome = true)
      (forUpTo txSaCounterOffs.length fun k => do
        discard (csrRd64 bus (saCounterReg .egress (txSaCounterOffs.getD k 0) (c.txSaAt i an).record)))

/-- `lan80xx_macsec_tx_sa_set_`. -/
def txSaSet (i an : Nat) (nextPn : PktNum) (confidentiality : Bool) (sak : Sak) (ssci : Option Ssci) :
    Call H Unit := do
  let c ← getConf
  macsecAssert (saPerScMax ≤ an)
  macsecAssert ((c.secy i).txSc.inUse = false)
  macsecAssert (nextPn.pn < 1)
  failIf ((c.secy i).conf.currentCipherSuite.xpn = true ∧ isSsciValid c .egress (c.secy i).sci ssci sak = false) .error
  failIf (((c.secy i).txSc.sa an).isSome = true) (.macsec .txAnAlreadyInUse)
  match c.recordEmptyGet .egress with
  | none => dbgCounterIncr .emptyRecord
  | some record => do
    modifyConf fun c => linkTxSa i c an record nextPn confidentiality sak ssci
    orFail (saXformSet bus .egress record i an 0) (.macsec .couldNotPrgXform)
    orFail (saFlowSet bus .egress i an 0 .controlledPort) (.macsec .couldNotPrgSaFlow)
    orFail (saTcamKeyMaskSet bus .egress record i i ((c.secy i).pattern .controlledPort .egress))
      (.macsec .couldNotPrgSaMatch)

/-- `lan80xx_macsec_tx_sa_activate_`: the map is switched first, then the old SA is disabled in the chip. -/
def txSaActivate (i an : Nat) : Call H Unit := do
  let c ← getConf
  macsecAssert (saPerScMax ≤ an)
  macsecAssert ((c.secy i).txSc.sa an = none)
  macsecAssert ((c.txSaAt i an).inUse = false)
  let oldAn := (c.secy i).txSc.encodingSa
  let anInUse := (c.txSaAt i oldAn).enabled && decide (oldAn < saPerScMax)
  orFail (saInuse bus (c.txSaAt i an).record i an .egress true) (.macsec .couldNotSetSa)
  orFail (saSamInFlight bus .egress) (.macsec .couldNotEmptyEgress)
  orFail (saEnable bus (c.txSaAt i an).record .egress true) (.macsec .couldNotEnaSa)
  when (anInUse = true) (orFail (saEnable bus (c.txSaAt i oldAn).record .egress false) (.macsec .couldNotEnaSa))
  modifyConf fun c => activateTxSa i c an oldAn anInUse

/-- `lan80xx_macsec_tx_sa_disable_`: the map is only touched for the encoding SA. -/
def txSaDisable (i an : Nat) : Call H Unit := do
  let c ← getConf
  macsecAssert (saPerScMax ≤ an)
  failIf ((c.secy i).txSc.sa an = none) (.macsec .anNotExist)
  orFail (saEnable bus (c.txSaAt i an).record .egress false) (.macsec .couldNotDisableAn)
  when (an = (c.secy i).txSc.encodingSa) do
    orFail (saInuse bus (c.txSaAt i an).record i an .egress false) (.macsec .couldNotSetSa)
    orFail (samEntryCtrl bus (c.txSaAt i an).record .egress false) (.macsec .couldNotEnaSa)
  modifyConf fun c => disableTxSa i c an

/-- `lan80xx_macsec_tx_sa_del_`: the map is not touched, and a pipeline that does not drain is ignored. -/
def txSaDel (i an : Nat) : Call H Unit := do
  let c ← getConf
  macsecAssert (saPerScMax ≤ an)
  macsecAssert ((c.secy i).txSc.sa an = none)
  let record := (c.txSaAt i an).record
  orFail (saEnable bus record .egress false) (.macsec .couldNotDisableSa)
  discard (attempt (saSamInFlight bus .egress))
  discard (attempt (txSaCountersGet bus i an))
  modifyConf fun c => freeTxSa i c an record
  orFail (saTcamKeyMaskReset bus .egress record) (.macsec .couldNotPrgSaMatch)
  orFail (saXformReset bus .egress record) (.macsec .couldNotPrgSaFlow)

/-! ## Receive SAs -/

/-- `lan80xx_sc_from_sci_get`, as a call. -/
def scFromSci (i : Nat) (sci : Sci) : Call H Nat := do
  let c ← getConf
  match c.scFromSciGet i sci with
  | some sc => pure sc
  | none => dbgCounterIncr .scNotFound

/-- The counters of a receive SA, in the order they are read. -/
def rxSaCounterOffs : List Nat := [0xA, 0xC, 0xE, 0x10, 0x12, 0x4, 0x6, 0x8, 0x0]

/-- `lan80xx_macsec_rx_sa_counters_get_`, without the sums it keeps. -/
def rxSaCountersGet (i : Nat) (sci : Sci) (an : Nat) : Call H Unit := do
  let sc ← scFromSci i sci
  let c ← getConf
  macsecAssert ((c.rxScAt i sc).sa an = none)
  forUpTo rxSaCounterOffs.length fun k => do
    discard (csrRd64 bus (saCounterReg .ingress (rxSaCounterOffs.getD k 0) (c.rxSaAt i sc an).record))

/-- `lan80xx_macsec_rx_sa_set_`. -/
def rxSaSet (i : Nat) (sci : Sci) (an : Nat) (lowestPn : PktNum) (sak : Sak) (ssci : Option Ssci) : Call H Unit := do
  let sc ← scFromSci i sci
  let c ← getConf
  failIf (isSciValid sci = false) (.macsec .invalidSciMacaddr)
  failIf ((c.secy i).conf.currentCipherSuite.xpn = true ∧ isSsciValid c .ingress sci ssci sak = false) .error
  macsecAssert (saPerScMax ≤ an)
  failIf (((c.rxScAt i sc).sa an).isSome = true) (.macsec .rxAnAlreadyInUse)
  match c.recordEmptyGet .ingress with
  | none => dbgCounterIncr .emptyRecord
  | some record => do
    modifyConf fun c => linkRxSa i c sc an record lowestPn sak ssci
    orFail (saXformSet bus .ingress record i an sc) (.macsec .couldNotPrgXform)
    orFail (saTcamKeyMaskSet bus .ingress record i i ((c.secy i).pattern .controlledPort .ingress))
      (.macsec .couldNotPrgSaMatch)
    orFail (saFlowSet bus .ingress i an sc .controlledPort) (.macsec .couldNotPrgSaFlow)
    orFail (rxScCamSet bus i sc) (.macsec .couldNotPrgSaMatch)

/-- `lan80xx_macsec_rx_sa_activate_`. -/
def rxSaActivate (i : Nat) (sci : Sci) (an : Nat) : Call H Unit := do
  let sc ← scFromSci i sci
  let c ← getConf
  failIf (isSciValid sci = false) (.macsec .invalidSciMacaddr)
  macsecAssert (saPerScMax ≤ an)
  macsecAssert ((c.rxScAt i sc).sa an = none)
  orFail (saInuse bus (c.rxSaAt i sc an).record (c.rxScAt i sc).hwScIdx an .ingress true) (.macsec .couldNotSetSa)
  orFail (saEnable bus (c.rxSaAt i sc an).record .ingress true) (.macsec .couldNotEnaSa)
  modifyConf fun c => flagRxSa i c sc an true

/-- `lan80xx_macsec_rx_sa_disable_`. -/
def rxSaDisable (i : Nat) (sci : Sci) (an : Nat) : Call H Unit := do
  macsecAssert (saPerScMax ≤ an)
  let sc ← scFromSci i sci
  let c ← getConf
  failIf ((c.rxScAt i sc).sa an = none) (.macsec .anNotExist)
  orFail (saEnable bus (c.rxSaAt i sc an).record .ingress false) (.macsec .couldNotDisableSa)
  orFail (saInuse bus (c.rxSaAt i sc an).record (c.rxScAt i sc).hwScIdx an .ingress false) (.macsec .couldNotSetSa)
  modifyConf fun c => flagRxSa i c sc an false

/-- `lan80xx_macsec_rx_sa_del_`. -/
def rxSaDel (i : Nat) (sci : Sci) (an : Nat) : Call H Unit := do
  macsecAssert (saPerScMax ≤ an)
  let sc ← scFromSci i sci
  let c ← getConf
  macsecAssert ((c.rxScAt i sc).sa an = none)
  let record := (c.rxSaAt i sc an).record
  orFail (saInuse bus record (c.rxScAt i sc).hwScIdx an .ingress false) (.macsec .couldNotSetSa)
  orFail (saSamInFlight bus .ingress) (.macsec .couldNotEmptyIngress)
  orFail (saEnable bus record .ingress false) (.macsec .couldNotEnaSa)
  discard (attempt (rxSaCountersGet bus i sci an))
  modifyConf fun c => freeRxSa i c sc an record
  orFail (saTcamKeyMaskReset bus .ingress record) (.macsec .couldNotPrgSaMatch)
  orFail (saXformReset bus .ingress record) (.macsec .couldNotPrgSaFlow)

/-- `lan80xx_macsec_rx_sa_next_pn_update_`: the low word of an extended packet number is cut to 16 bits. -/
def rxSaNextPnUpdate (i : Nat) (nextPn : PktNum) (record : Nat) : Call H Unit := do
  let c ← getConf
  let xpn := (c.secy i).conf.currentCipherSuite.xpn
  csrWr bus nextPnLoReg (if xpn then (nextPn &&& 0xFFFF).setWidth 32 else nextPn.pn)
  when (xpn = true) (csrWr bus nextPnHiReg ((nextPn >>> 32).setWidth 32))
  csrWr bus nextPnCtrlReg (field (word ((record * 24 + 14 * 4) / 16)) 4 28 ||| if xpn then bit 2 else 0)
  csrWrm bus nextPnCtrlReg (bit 0) (bit 0)

/-- `lan80xx_macsec_rx_sa_lowest_pn_update_`: an unknown SCI is no error, and the wait for the update engine tests the
word it read once, so that it ends at once or never. -/
def rxSaLowestPnUpdate (i : Nat) (sci : Sci) (an : Nat) (lowestPn : PktNum) : Call H Unit := do
  let c ← getConf
  match c.scFromSciGet i sci with
  | none => pure ()
  | some sc => do
    failIf (isSciValid sci = false) (.macsec .invalidSciMacaddr)
    macsecAssert (saPerScMax ≤ an)
    macsecAssert ((c.rxScAt i sc).sa an = none)
    macsecAssert ((c.rxSaAt i sc an).inUse = false)
    let window := (c.secy i).conf.replayWindow
    let pktNum : PktNum := if (c.secy i).conf.currentCipherSuite.xpn then lowestPn + BitVec.ofNat 64 window
      else (lowestPn.pn + BitVec.ofNat 32 window).setWidth 64
    orFail (rxSaNextPnUpdate bus i pktNum (c.rxSaAt i sc an).record) .error
    let nextPn ← csrRd bus nextPnCtrlReg
    failIf (nextPn.getLsbD 0 = true ∧ nextPn.getLsbD 1 = false) .hang

end Lan80xx.Macsec
