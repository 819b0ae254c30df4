import Lan80xx.VtssMacsec.Types

/-!
# MACsec of the VTSS PHYs: secure associations

Setting, activating, disabling and deleting the SAs of a SecY's transmit channel and of its receive channels. `i` is the
SecY's index, which the exported functions look up by port; `spdChangeMacsecRecfg` is set while the configuration is
programmed again after a speed change, and then an SA is set in the entry it has.

- `recordEmptyGet`, `scFromSciGet`, `isSsciValid`: what the calls look up in the tables;
- `pointTxSa`, `keyTxSa`, `startTxSa` and their kin: what they store;
- `txSaSet`, `txSaActivate`, `txSaDisable`, `txSaDel`: the transmit side;
- `rxSaSet`, `rxSaActivate`, `rxSaDisable`, `rxSaDel`, `rxSaLowestPnUpdate`: the receive side.
-/

namespace Lan80xx.VtssMacsec

open Fallible RegBus
open Macsec (Ssci Sci Sak PktNum Direction saPerScMax)

/-! ## Lookups -/

namespace Conf

variable (c : Conf)

/-- `tx_sa[record].in_use` or `rx_sa[record].in_use`. -/
def saInUse : Direction → Nat → Bool
  | .egress, r => (c.txSa r).inUse
  | .ingress, r => (c.rxSa r).inUse

/-- `record_empty_get`: the first entry of the table that is not in use. -/
def recordEmptyGet (phy : Phy) (d : Direction) : Option Nat :=
  (List.range phy.maxSaCnt).find? fun r => !c.saInUse d r

/-- `sc_from_sci_get`: the SecY's first receive channel with this SCI. -/
def scFromSciGet (phy : Phy) (i : Nat) (sci : Sci) : Option Nat :=
  (List.range phy.maxScCnt).find? fun sc =>
    match (c.secy i).rxSc sc with
    | some p => (c.rxSc p).inUse && decide (sci = (c.rxSc p).sci)
    | none => false

/-- The receive channel behind `secy->rx_sc[sc]`. -/
def rxScAt (i sc : Nat) : RxSc :=
  match (c.secy i).rxSc sc with
  | some p => c.rxSc p
  | none => {}

/-- The SA behind `secy->tx_sc.sa[an]`. -/
def txSaAt (i an : Nat) : TxSa :=
  match (c.secy i).txSc.sa an with
  | some r => c.txSa r
  | none => {}

/-- The SA behind `secy->rx_sc[sc]->sa[an]`. -/
def rxSaAt (i sc an : Nat) : RxSa :=
  match (c.rxScAt i sc).sa an with
  | some r => c.rxSa r
  | none => {}

/-- The suite of the SecY has extended packet numbers. -/
def xpn (i : Nat) : Bool := (c.secy i).conf.currentCipherSuite.xpn

/-- `one_tx_an_in_use`, which looks at the encoding SA. -/
def oneTxAnInUse (i : Nat) : Bool :=
  let sa := c.txSaAt i (c.secy i).txSc.encodingSa
  sa.inUse && sa.enabled

/-! ## What is stored -/

/-- An update of the entry that `secy->rx_sc[sc]` points to. -/
def setRxScAt (i sc : Nat) (f : RxSc → RxSc) : Conf :=
  match (c.secy i).rxSc sc with
  | some p => c.setRxSc p f
  | none => c

/-- An update of the entry that `secy->tx_sc.sa[an]` points to. -/
def setTxSaAt (i an : Nat) (f : TxSa → TxSa) : Conf :=
  match (c.secy i).txSc.sa an with
  | some r => c.setTxSa r f
  | none => c

/-- An update of the entry that `secy->rx_sc[sc]->sa[an]` points to. -/
def setRxSaAt (i sc an : Nat) (f : RxSa → RxSa) : Conf :=
  match (c.rxScAt i sc).sa an with
  | some r => c.setRxSa r f
  | none => c

@[simp] theorem setRxScAt_secy {i sc : Nat} {f : RxSc → RxSc} : (c.setRxScAt i sc f).secy = c.secy := by
  rw [setRxScAt]
  split <;> rfl

@[simp] theorem setRxScAt_txSa {i sc : Nat} {f : RxSc → RxSc} : (c.setRxScAt i sc f).txSa = c.txSa := by
  rw [setRxScAt]
  split <;> rfl

@[simp] theorem setRxScAt_glb {i sc : Nat} {f : RxSc → RxSc} : (c.setRxScAt i sc f).glb = c.glb := by
  rw [setRxScAt]
  split <;> rfl

@[simp] theorem setTxSaAt_secy {i an : Nat} {f : TxSa → TxSa} : (c.setTxSaAt i an f).secy = c.secy := by
  rw [setTxSaAt]
  split <;> rfl

@[simp] theorem setTxSaAt_rxSc {i an : Nat} {f : TxSa → TxSa} : (c.setTxSaAt i an f).rxSc = c.rxSc := by
  rw [setTxSaAt]
  split <;> rfl

@[simp] theorem setTxSaAt_rxSa {i an : Nat} {f : TxSa → TxSa} : (c.setTxSaAt i an f).rxSa = c.rxSa := by
  rw [setTxSaAt]
  split <;> rfl

@[simp] theorem setTxSaAt_glb {i an : Nat} {f : TxSa → TxSa} : (c.setTxSaAt i an f).glb = c.glb := by
  rw [setTxSaAt]
  split <;> rfl

@[simp] theorem setRxSaAt_secy {i sc an : Nat} {f : RxSa → RxSa} : (c.setRxSaAt i sc an f).secy = c.secy := by
  rw [setRxSaAt]
  split <;> rfl

@[simp] theorem setRxSaAt_rxSc {i sc an : Nat} {f : RxSa → RxSa} : (c.setRxSaAt i sc an f).rxSc = c.rxSc := by
  rw [setRxSaAt]
  split <;> rfl

@[simp] theorem setRxSaAt_txSa {i sc an : Nat} {f : RxSa → RxSa} : (c.setRxSaAt i sc an f).txSa = c.txSa := by
  rw [setRxSaAt]
  split <;> rfl

@[simp] theorem setRxSaAt_glb {i sc an : Nat} {f : RxSa → RxSa} : (c.setRxSaAt i sc an f).glb = c.glb := by
  rw [setRxSaAt]
  split <;> rfl

/-- `secy->tx_sc.sa[an] = o`. -/
def linkTxSa (i an : Nat) (o : Option Nat) : Conf :=
  c.setSecy i fun s => { s with txSc := { s.txSc with sa := Function.update s.txSc.sa an o } }

/-- `secy->rx_sc[sc]->sa[an] = o`. -/
def linkRxSa (i sc an : Nat) (o : Option Nat) : Conf :=
  c.setRxScAt i sc fun x => { x with sa := Function.update x.sa an o }

theorem setTxSaAt_eq {c : Conf} {i an r : Nat} {f : TxSa → TxSa} (h : (c.secy i).txSc.sa an = some r) :
    c.setTxSaAt i an f = c.setTxSa r f := by
  rw [setTxSaAt, h]

theorem txSaAt_eq {c : Conf} {i an r : Nat} (h : (c.secy i).txSc.sa an = some r) : c.txSaAt i an = c.txSa r := by
  rw [txSaAt, h]

theorem rxScAt_eq {c : Conf} {i sc p : Nat} (h : (c.secy i).rxSc sc = some p) : c.rxScAt i sc = c.rxSc p := by
  rw [rxScAt, h]

theorem rxSaAt_eq {c : Conf} {i sc an p r : Nat} (h : (c.secy i).rxSc sc = some p) (hsa : (c.rxSc p).sa an = some r) :
    c.rxSaAt i sc an = c.rxSa r := by
  rw [rxSaAt, rxScAt_eq h, hsa]

section Links

variable {c} {i j an an' sc p q : Nat} {o : Option Nat}

theorem linkTxSa_sa : ((c.linkTxSa i an o).secy j).txSc.sa an' =
    if j = i ∧ an' = an then o else (c.secy j).txSc.sa an' := by
  rw [linkTxSa, setSecy_secy]
  by_cases hj : j = i
  · subst hj
    simp [Function.update_apply]
  · simp [hj]

@[simp] theorem linkTxSa_inUse : ((c.linkTxSa i an o).secy j).inUse = (c.secy j).inUse := by
  rw [linkTxSa, setSecy_secy]
  split <;> simp_all

@[simp] theorem linkTxSa_sci : ((c.linkTxSa i an o).secy j).sci = (c.secy j).sci := by
  rw [linkTxSa, setSecy_secy]
  split <;> simp_all

@[simp] theorem linkTxSa_conf : ((c.linkTxSa i an o).secy j).conf = (c.secy j).conf := by
  rw [linkTxSa, setSecy_secy]
  split <;> simp_all

@[simp] theorem linkTxSa_secy_rxSc : ((c.linkTxSa i an o).secy j).rxSc = (c.secy j).rxSc := by
  rw [linkTxSa, setSecy_secy]
  split <;> simp_all

@[simp] theorem linkTxSa_encodingSa : ((c.linkTxSa i an o).secy j).txSc.encodingSa = (c.secy j).txSc.encodingSa := by
  rw [linkTxSa, setSecy_secy]
  split <;> simp_all

@[simp] theorem linkTxSa_patternRecord : ((c.linkTxSa i an o).secy j).patternRecord = (c.secy j).patternRecord := by
  rw [linkTxSa, setSecy_secy]
  split <;> simp_all

@[simp] theorem linkTxSa_rxSc : (c.linkTxSa i an o).rxSc = c.rxSc := rfl
@[simp] theorem linkTxSa_rxSa : (c.linkTxSa i an o).rxSa = c.rxSa := rfl
@[simp] theorem linkTxSa_txSa : (c.linkTxSa i an o).txSa = c.txSa := rfl
@[simp] theorem linkTxSa_glb : (c.linkTxSa i an o).glb = c.glb := rfl

@[simp] theorem linkRxSa_secy : (c.linkRxSa i sc an o).secy = c.secy := by simp [linkRxSa]
@[simp] theorem linkRxSa_txSa : (c.linkRxSa i sc an o).txSa = c.txSa := by simp [linkRxSa]
@[simp] theorem linkRxSa_glb : (c.linkRxSa i sc an o).glb = c.glb := by simp [linkRxSa]

theorem linkRxSa_eq (hp : (c.secy i).rxSc sc = some p) :
    c.linkRxSa i sc an o = c.setRxSc p fun x => { x with sa := Function.update x.sa an o } := by
  rw [linkRxSa, setRxScAt, hp]

theorem linkRxSa_sa (hp : (c.secy i).rxSc sc = some p) : ((c.linkRxSa i sc an o).rxSc q).sa an' =
    if q = p ∧ an' = an then o else (c.rxSc q).sa an' := by
  rw [linkRxSa_eq hp, setRxSc_rxSc]
  by_cases hq : q = p
  · subst hq
    simp [Function.update_apply]
  · simp [hq]

theorem linkRxSa_inUse (hp : (c.secy i).rxSc sc = some p) :
    ((c.linkRxSa i sc an o).rxSc q).inUse = (c.rxSc q).inUse := by
  rw [linkRxSa_eq hp, setRxSc_rxSc]
  split <;> simp_all

theorem linkRxSa_sci (hp : (c.secy i).rxSc sc = some p) :
    ((c.linkRxSa i sc an o).rxSc q).sci = (c.rxSc q).sci := by
  rw [linkRxSa_eq hp, setRxSc_rxSc]
  split <;> simp_all

end Links

/-- The SA takes the entry: pointer and `record`. -/
def pointTxSa (i an record : Nat) : Conf := (c.linkTxSa i an (some record)).setTxSa record fun sa => { sa with record }

/-- Key, confidentiality and, for an XPN suite, SSCI. -/
def keyTxSa (record : Nat) (confidentiality : Bool) (sak : Sak) (ssci : Option Ssci) : Conf :=
  c.setTxSa record fun sa => { sa with confidentiality, sak, ssci := ssci.getD sa.ssci }

/-- Packet numbers and `in_use`. -/
def startTxSa (record : Nat) (nextPn : BitVec 32) (pnNextPn : PktNum) : Conf :=
  c.setTxSa record fun sa => { sa with nextPn, pnNextPn, inUse := true }

/-- `secy->rx_sc[sc]->sa[an]` takes the entry. -/
def pointRxSa (i sc an record : Nat) : Conf :=
  (c.linkRxSa i sc an (some record)).setRxSa record fun sa => { sa with record }

def keyRxSa (record : Nat) (sak : Sak) (ssci : Option Ssci) : Conf :=
  c.setRxSa record fun sa => { sa with sak, ssci := ssci.getD sa.ssci }

def startRxSa (record : Nat) (lowestPn : PktNum) : Conf :=
  c.setRxSa record fun sa => { sa with lowestPn := lowestPn.pn, pnLowestPn := lowestPn, inUse := true }

/-- What `tx_sa_activate` stores about the SA that was encoding. -/
def retireTxSa (i oldAn : Nat) : Conf := c.setTxSaAt i oldAn fun sa => { sa with enabled := false, statusInUse := false }

/-- What `tx_sa_activate` stores about the new one. -/
def activateTxSa (i an : Nat) : Conf :=
  (c.setTxSaAt i an fun sa => { sa with enabled := true, statusInUse := true }).setSecy i
    fun s => { s with txSc := { s.txSc with encodingSa := an, encipheringSa := an } }

/-- What `tx_sa_disable` stores. -/
def disableTxSa (i an : Nat) : Conf :=
  (c.setTxSaAt i an fun sa => { sa with enabled := false, statusInUse := false }).setSecy i
    fun s => if an = s.txSc.encodingSa then { s with txSc := { s.txSc with encodingSa := 0, encipheringSa := 0 } } else s

/-- What `tx_sa_del` stores. -/
def freeTxSa (i an record : Nat) : Conf := (c.setTxSa record fun _ => {}).linkTxSa i an none

/-- What `rx_sa_activate` and `rx_sa_disable` store. -/
def flagRxSa (i sc an : Nat) (b : Bool) : Conf := c.setRxSaAt i sc an fun sa => { sa with enabled := b, statusInUse := b }

/-- What `rx_sa_del` stores. -/
def freeRxSa (i sc an record : Nat) : Conf := (c.setRxSa record fun _ => {}).linkRxSa i sc an none

/-- What `rx_sa_lowest_pn_update` stores when the SA moves to a new entry. -/
def moveRxSa (i sc an record newRecord : Nat) : Conf :=
  (((c.setRxSa newRecord fun _ => c.rxSa record).setRxSa record fun _ => {}).linkRxSa i sc an (some newRecord)).setRxSa
    newRecord fun sa => { sa with record := newRecord }

end Conf

variable {c : Conf} {phy : Phy} {i sc : Nat} {sci : Sci} in
theorem scFromSciGet_spec (h : c.scFromSciGet phy i sci = some sc) : sc < phy.maxScCnt ∧
    ∃ p, (c.secy i).rxSc sc = some p ∧ (c.rxSc p).inUse = true ∧ (c.rxSc p).sci = sci := by
  have hmem := List.mem_of_find?_eq_some h
  have hprop := List.find?_some h
  refine ⟨List.mem_range.mp hmem, ?_⟩
  cases hp : (c.secy i).rxSc sc with
  | none => simp [hp] at hprop
  | some p =>
    simp only [hp, Bool.and_eq_true, decide_eq_true_eq] at hprop
    exact ⟨p, rfl, hprop.1, hprop.2.symm⟩

/-- `is_sci_valid`: neither the broadcast nor the zero address. -/
def isSciValid (sci : Sci) : Bool :=
  sci.macAddr ≠ Vector.replicate 6 0xFF && sci.macAddr ≠ Vector.replicate 6 0

/-- `is_ssci_valid`: no SA in use in the direction has this SSCI, key and SCI. -/
def isSsciValid (phy : Phy) (c : Conf) (d : Direction) (sci : Sci) (ssci : Option Ssci) (sak : Sak) : Bool :=
  match ssci with
  | none => false
  | some ssci =>
    (List.range phy.maxSecyCnt).all fun i => !(c.secy i).inUse ||
      match d with
      | .egress => (List.range saPerScMax).all fun an =>
        match (c.secy i).txSc.sa an with
        | some r => !((c.txSa r).inUse && ssci = (c.txSa r).ssci && sak = (c.txSa r).sak && sci = (c.secy i).sci)
        | none => true
      | .ingress => (List.range phy.maxScCnt).all fun sc =>
        match (c.secy i).rxSc sc with
        | some p => !(c.rxSc p).inUse || (List.range saPerScMax).all fun an =>
          match (c.rxSc p).sa an with
          | some r => !((c.rxSa r).inUse && ssci = (c.rxSa r).ssci && sci = (c.rxSc p).sci && sak = (c.rxSa r).sak)
          | none => true
        | none => true

section Calls

variable {H : Type} (hw : Hw H) (phy : Phy)

/-! ## Transmit SAs -/

/-- The end of `vtss_macsec_tx_sa_set_priv`: the SA is programmed, and enabled when the encoding SA is not. -/
def txSaProgram (i an record : Nat) : Call H Unit := do
  let c ← getConf
  orFail (hwOp hw (.saMatchSet .egress record ((c.secy i).pattern .controlledPort .egress) (some i) 0 0))
    (.macsec .couldNotPrgSaMatch)
  orFail (hwOp hw (.saFlowSet .egress record (some i) an 0 .controlledPort)) (.macsec .couldNotPrgSaFlow)
  when (c.glb.spdChangeMacsecRecfg = false)
    (orFail (hwOp hw (.saXformSet .egress record i an 0)) (.macsec .couldNotPrgXform))
  when (c.oneTxAnInUse i = false) (orFail (hwOp hw (.saEnable record .egress true)) (.macsec .couldNotEnaSa))

/-- `vtss_macsec_tx_sa_set_priv`. The packet number is checked when the SA has its entry already. -/
def txSaSet (i an : Nat) (nextPn : PktNum) (confidentiality : Bool) (sak : Sak) (ssci : Option Ssci) : Call H Unit := do
  let c ← getConf
  let recfg := c.glb.spdChangeMacsecRecfg
  failIf (saPerScMax ≤ an) .error
  failIf ((c.secy i).txSc.inUse = false) .error
  failIf (c.xpn i = true ∧ recfg = false ∧ isSsciValid phy c .egress (c.secy i).sci ssci sak = false) .error
  match (c.secy i).txSc.sa an, recfg with
  | some _, false => throw (.macsec .txAnAlreadyInUse)
  | none, true => pure ()
  | some r, true => do
    let record := (c.txSa r).record
    modifyConf fun c => (c.pointTxSa i an record).startTxSa record nextPn.pn nextPn
    txSaProgram hw i an record
  | none, false =>
    match c.recordEmptyGet phy .egress with
    | none => throw (.macsec .emptyRecord)
    | some record => do
      modifyConf fun c' =>
        (c'.pointTxSa i an record).keyTxSa record confidentiality sak (if c.xpn i = true then ssci else none)
      failIf (if c.xpn i = true then nextPn = 0 else nextPn.pn = 0) .error
      modifyConf fun c' =>
        c'.startTxSa record (if c.xpn i = true then (nextPn - 1).setWidth 32 else nextPn.pn - 1) nextPn
      txSaProgram hw i an record

/-- `vtss_macsec_tx_sa_activate_priv`: the new SA is enabled, then the encoding one disabled. -/
def txSaActivate (i an : Nat) : Call H Unit := do
  let c ← getConf
  if (c.secy i).txSc.sa an = none ∧ c.glb.spdChangeMacsecRecfg = true then pure () else do
    failIf (saPerScMax ≤ an) .error
    failIf ((c.secy i).txSc.sa an = none) .error
    failIf ((c.txSaAt i an).inUse = false) .error
    let oldAn := (c.secy i).txSc.encodingSa
    let anInUse := (c.txSaAt i oldAn).enabled && decide (oldAn < saPerScMax)
    orFail (hwOp hw (.saInuse (c.txSaAt i an).record .egress true)) (.macsec .couldNotSetSa)
    orFail (hwOp hw (.saEnable (c.txSaAt i an).record .egress true)) (.macsec .couldNotEnaSa)
    when (anInUse = true) do
      orFail (hwOp hw (.saEnable (c.txSaAt i oldAn).record .egress false)) (.macsec .couldNotEnaSa)
      modifyConf fun c => c.retireTxSa i oldAn
    modifyConf fun c => c.activateTxSa i an

/-- `vtss_macsec_tx_sa_disable_priv`. -/
def txSaDisable (i an : Nat) : Call H Unit := do
  let c ← getConf
  failIf (saPerScMax ≤ an) .error
  failIf ((c.secy i).txSc.sa an = none) (.macsec .anNotExist)
  orFail (hwOp hw (.saEnable (c.txSaAt i an).record .egress false)) (.macsec .couldNotDisableAn)
  orFail (hwOp hw (.saInuse (c.txSaAt i an).record .egress false)) (.macsec .couldNotSetSa)
  modifyConf fun c => c.disableTxSa i an

/-- `vtss_macsec_tx_sa_del_priv`: a pipeline that does not drain and counters that cannot be read are ignored; the
match entry is not disabled. -/
def txSaDel (i an : Nat) : Call H Unit := do
  let c ← getConf
  failIf (saPerScMax ≤ an) .error
  failIf ((c.secy i).txSc.sa an = none) .error
  let record := (c.txSaAt i an).record
  discard (attempt (hwOp hw (.samInFlight .egress)))
  discard (attempt (hwOp hw (.saCountersGet .egress i 0 an)))
  modifyConf fun c => c.freeTxSa i an record
  hwOp hw (.saMaskClear .egress record)
  hwOp hw (.saFlowClear .egress record)
  orFail (hwOp hw (.saMatchReset .egress record)) (.macsec .couldNotPrgSaMatch)
  orFail (hwOp hw (.saXformReset .egress record)) (.macsec .couldNotPrgSaFlow)

/-! ## Receive SAs -/

/-- `sc_from_sci_get`, as a call. -/
def scFromSci (i : Nat) (sci : Sci) : Call H Nat := do
  let c ← getConf
  match c.scFromSciGet phy i sci with
  | some sc => pure sc
  | none => throw (.macsec .scNotFound)

variable {phy} in
theorem steps_scFromSci {F : Frame (Dev Conf H)} {c : Conf} {i : Nat} {sci : Sci} :
    Steps F (fun s => s.conf = c) (scFromSci phy i sci : Call H Nat)
      fun sc s => s.conf = c ∧ c.scFromSciGet phy i sci = some sc := by
  refine steps_getConf_bind ?_
  cases c.scFromSciGet phy i sci with
  | none => exact Steps.throw
  | some sc => exact Steps.pure fun s hs => ⟨hs, rfl⟩

/-- The end of `vtss_macsec_rx_sa_set_priv`. -/
def rxSaProgram (i sc an record : Nat) : Call H Unit := do
  let c ← getConf
  orFail (hwOp hw (.saMatchSet .ingress record ((c.secy i).pattern .controlledPort .ingress) (some i) sc an))
    (.macsec .couldNotPrgSaMatch)
  orFail (hwOp hw (.saFlowSet .ingress record (some i) an sc .controlledPort)) (.macsec .couldNotPrgSaFlow)
  when (c.glb.spdChangeMacsecRecfg = false)
    (orFail (hwOp hw (.saXformSet .ingress record i an sc)) (.macsec .couldNotPrgXform))
  orFail (hwOp hw (.saEnable record .ingress true)) (.macsec .couldNotEnaSa)

/-- `vtss_macsec_rx_sa_set_priv`. -/
def rxSaSet (i : Nat) (sci : Sci) (an : Nat) (lowestPn : PktNum) (sak : Sak) (ssci : Option Ssci) : Call H Unit := do
  let sc ← scFromSci phy i sci
  let c ← getConf
  let recfg := c.glb.spdChangeMacsecRecfg
  failIf (isSciValid sci = false) (.macsec .invalidSciMacaddr)
  failIf (c.xpn i = true ∧ recfg = false ∧ isSsciValid phy c .ingress sci ssci sak = false) .error
  failIf (saPerScMax ≤ an) .error
  when (c.xpn i = true) (hwOp hw .checkPnOff)
  match (c.rxScAt i sc).sa an, recfg with
  | some _, false => throw (.macsec .rxAnAlreadyInUse)
  | none, true => pure ()
  | some r, true => do
    let record := (c.rxSa r).record
    modifyConf fun c => (c.pointRxSa i sc an record).startRxSa record lowestPn
    rxSaProgram hw i sc an record
  | none, false =>
    match c.recordEmptyGet phy .ingress with
    | none => throw (.macsec .emptyRecord)
    | some record => do
      modifyConf fun c' => ((c'.pointRxSa i sc an record).keyRxSa record sak
        (if c.xpn i = true then ssci else none)).startRxSa record lowestPn
      rxSaProgram hw i sc an record

/-- `vtss_macsec_rx_sa_activate_priv`. -/
def rxSaActivate (i : Nat) (sci : Sci) (an : Nat) : Call H Unit := do
  let sc ← scFromSci phy i sci
  let c ← getConf
  if (c.rxScAt i sc).sa an = none ∧ c.glb.spdChangeMacsecRecfg = true then pure () else do
    failIf (isSciValid sci = false) (.macsec .invalidSciMacaddr)
    failIf (saPerScMax ≤ an) .error
    failIf ((c.rxScAt i sc).sa an = none) .error
    orFail (hwOp hw (.saInuse (c.rxSaAt i sc an).record .ingress true)) (.macsec .couldNotSetSa)
    modifyConf fun c => c.flagRxSa i sc an true

/-- `vtss_macsec_rx_sa_disable_priv`. -/
def rxSaDisable (i : Nat) (sci : Sci) (an : Nat) : Call H Unit := do
  failIf (saPerScMax ≤ an) .error
  let sc ← scFromSci phy i sci
  let c ← getConf
  failIf ((c.rxScAt i sc).sa an = none) (.macsec .anNotExist)
  orFail (hwOp hw (.saInuse (c.rxSaAt i sc an).record .ingress false)) (.macsec .couldNotSetSa)
  modifyConf fun c => c.flagRxSa i sc an false

/-- `vtss_macsec_rx_sa_del_priv`. -/
def rxSaDel (i : Nat) (sci : Sci) (an : Nat) : Call H Unit := do
  failIf (saPerScMax ≤ an) .error
  let sc ← scFromSci phy i sci
  let c ← getConf
  failIf ((c.rxScAt i sc).sa an = none) .error
  let record := (c.rxSaAt i sc an).record
  orFail (hwOp hw (.saEnable record .ingress false)) (.macsec .couldNotEnaSa)
  discard (attempt (hwOp hw (.samInFlight .ingress)))
  discard (attempt (hwOp hw (.saCountersGet .ingress i sc an)))
  modifyConf fun c => c.freeRxSa i sc an record
  hwOp hw (.saMaskClear .ingress record)
  hwOp hw (.saFlowClear .ingress record)
  orFail (hwOp hw (.saMatchReset .ingress record)) (.macsec .couldNotPrgSaMatch)
  orFail (hwOp hw (.saXformReset .ingress record)) (.macsec .couldNotPrgSaFlow)

/-- `vtss_macsec_rx_sa_lowest_pn_update_priv`: on a Rev A the SA moves to a new entry when the number jumps ahead of
the window. -/
def rxSaLowestPnUpdate (i : Nat) (sci : Sci) (an : Nat) (lowestPn : PktNum) : Call H Unit := do
  let c ← getConf
  match c.scFromSciGet phy i sci with
  | none => pure ()
  | some sc => do
    failIf (isSciValid sci = false) (.macsec .invalidSciMacaddr)
    failIf (saPerScMax ≤ an) .error
    failIf ((c.rxScAt i sc).sa an = none) .error
    failIf ((c.rxSaAt i sc an).inUse = false) .error
    let record := (c.rxSaAt i sc an).record
    let replayWindow := (c.secy i).conf.replayWindow
    if c.glb.macsecRevb = true then
      orFail (hwOp hw (.nextPnUpdate i record (lowestPn + BitVec.ofNat 64 replayWindow))) .error
    else do
      let nextPn ← readNextPn hw i record
      when (nextPn + BitVec.ofNat 32 replayWindow < lowestPn.pn) do
        modifyConf fun c => c.setRxSaAt i sc an fun sa => { sa with lowestPn := lowestPn.pn }
        match c.recordEmptyGet phy .ingress with
        | none => throw (.macsec .emptyRecord)
        | some newRecord => do
          modifyConf fun c => c.moveRxSa i sc an record newRecord
          orFail (hwOp hw (.saMatchSet .ingress newRecord ((c.secy i).pattern .controlledPort .ingress) (some i) sc an))
            (.macsec .couldNotPrgSaMatch)
          orFail (hwOp hw (.saFlowSet .ingress newRecord (some i) an sc .controlledPort)) (.macsec .couldNotPrgSaFlow)
          when (c.glb.spdChangeMacsecRecfg = false)
            (orFail (hwOp hw (.saXformSet .ingress newRecord i an sc)) (.macsec .couldNotPrgXform))
          orFail (hwOp hw (.saToggle newRecord record .ingress)) .couldNotToggleSa
          orFail (hwOp hw (.saInuse newRecord .ingress true)) (.macsec .couldNotSetSa)

end Calls

end Lan80xx.VtssMacsec
