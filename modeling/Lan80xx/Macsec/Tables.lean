import Lan80xx.Macsec.Types

/-!
# MACsec: updates of the software tables

Each function here is one assignment sequence of the driver between two register accesses, as a function on
`MacsecConf`. An assignment through a NULL pointer, which no caller reaches, changes nothing.
-/

namespace Lan80xx.Macsec

namespace MacsecConf

/-! ## Updates of one entry -/

section Entries

variable (c : MacsecConf)

def setSecy (i : Nat) (f : Secy → Secy) : MacsecConf :=
  { c with secy := Function.update c.secy i (f (c.secy i)) }

def setTxSa (r : Nat) (f : TxSa → TxSa) : MacsecConf :=
  { c with txSa := Function.update c.txSa r (f (c.txSa r)) }

def setRxSc (p : Nat) (f : RxSc → RxSc) : MacsecConf :=
  { c with rxSc := Function.update c.rxSc p (f (c.rxSc p)) }

def setRxSa (r : Nat) (f : RxSa → RxSa) : MacsecConf :=
  { c with rxSa := Function.update c.rxSa r (f (c.rxSa r)) }

/-- An assignment through `secy->tx_sc.sa[an]`. -/
def setTxSaAt (i an : Nat) (f : TxSa → TxSa) : MacsecConf :=
  match (c.secy i).txSc.sa an with
  | some r => c.setTxSa r f
  | none => c

/-- An assignment through `secy->rx_sc[sc]`. -/
def setRxScAt (i sc : Nat) (f : RxSc → RxSc) : MacsecConf :=
  match (c.secy i).rxSc sc with
  | some p => c.setRxSc p f
  | none => c

/-- An assignment through `secy->rx_sc[sc]->sa[an]`. -/
def setRxSaAt (i sc an : Nat) (f : RxSa → RxSa) : MacsecConf :=
  match (c.rxScAt i sc).sa an with
  | some r => c.setRxSa r f
  | none => c

end Entries

section Simp

variable (c : MacsecConf) (i i' r r' p p' : Nat)

theorem setSecy_secy (f : Secy → Secy) :
    (c.setSecy i f).secy i' = if i' = i then f (c.secy i) else c.secy i' := by
  simp only [setSecy, Function.update_apply]

@[simp] theorem setSecy_secy_self (f : Secy → Secy) : (c.setSecy i f).secy i = f (c.secy i) := by
  simp [setSecy_secy]

@[simp] theorem setSecy_glb (f : Secy → Secy) : (c.setSecy i f).glb = c.glb := rfl
@[simp] theorem setSecy_txSa (f : Secy → Secy) : (c.setSecy i f).txSa = c.txSa := rfl
@[simp] theorem setSecy_rxSc (f : Secy → Secy) : (c.setSecy i f).rxSc = c.rxSc := rfl
@[simp] theorem setSecy_rxSa (f : Secy → Secy) : (c.setSecy i f).rxSa = c.rxSa := rfl

theorem setTxSa_txSa (f : TxSa → TxSa) :
    (c.setTxSa r f).txSa r' = if r' = r then f (c.txSa r) else c.txSa r' := by
  simp only [setTxSa, Function.update_apply]

@[simp] theorem setTxSa_glb (f : TxSa → TxSa) : (c.setTxSa r f).glb = c.glb := rfl
@[simp] theorem setTxSa_secy (f : TxSa → TxSa) : (c.setTxSa r f).secy = c.secy := rfl
@[simp] theorem setTxSa_rxSc (f : TxSa → TxSa) : (c.setTxSa r f).rxSc = c.rxSc := rfl
@[simp] theorem setTxSa_rxSa (f : TxSa → TxSa) : (c.setTxSa r f).rxSa = c.rxSa := rfl

theorem setRxSc_rxSc (f : RxSc → RxSc) :
    (c.setRxSc p f).rxSc p' = if p' = p then f (c.rxSc p) else c.rxSc p' := by
  simp only [setRxSc, Function.update_apply]

@[simp] theorem setRxSc_glb (f : RxSc → RxSc) : (c.setRxSc p f).glb = c.glb := rfl
@[simp] theorem setRxSc_secy (f : RxSc → RxSc) : (c.setRxSc p f).secy = c.secy := rfl
@[simp] theorem setRxSc_txSa (f : RxSc → RxSc) : (c.setRxSc p f).txSa = c.txSa := rfl
@[simp] theorem setRxSc_rxSa (f : RxSc → RxSc) : (c.setRxSc p f).rxSa = c.rxSa := rfl

theorem setRxSa_rxSa (f : RxSa → RxSa) :
    (c.setRxSa r f).rxSa r' = if r' = r then f (c.rxSa r) else c.rxSa r' := by
  simp only [setRxSa, Function.update_apply]

/-- A part of the SecYs that the update of one SecY keeps. -/
theorem setSecy_part {β : Type} {c : MacsecConf} {i : Nat} {f : Secy → Secy} (g : Secy → β)
    (h : g (f (c.secy i)) = g (c.secy i)) (j : Nat) : g ((c.setSecy i f).secy j) = g (c.secy j) := by
  rw [setSecy_secy]
  split
  · next hj => rw [h, hj]
  · rfl

theorem setTxSa_part {β : Type} {c : MacsecConf} {r : Nat} {f : TxSa → TxSa} (g : TxSa → β)
    (h : g (f (c.txSa r)) = g (c.txSa r)) (j : Nat) : g ((c.setTxSa r f).txSa j) = g (c.txSa j) := by
  rw [setTxSa_txSa]
  split
  · next hj => rw [h, hj]
  · rfl

theorem setRxSc_part {β : Type} {c : MacsecConf} {p : Nat} {f : RxSc → RxSc} (g : RxSc → β)
    (h : g (f (c.rxSc p)) = g (c.rxSc p)) (j : Nat) : g ((c.setRxSc p f).rxSc j) = g (c.rxSc j) := by
  rw [setRxSc_rxSc]
  split
  · next hj => rw [h, hj]
  · rfl

theorem setRxSa_part {β : Type} {c : MacsecConf} {r : Nat} {f : RxSa → RxSa} (g : RxSa → β)
    (h : g (f (c.rxSa r)) = g (c.rxSa r)) (j : Nat) : g ((c.setRxSa r f).rxSa j) = g (c.rxSa j) := by
  rw [setRxSa_rxSa]
  split
  · next hj => rw [h, hj]
  · rfl

@[simp] theorem setRxSa_glb (f : RxSa → RxSa) : (c.setRxSa r f).glb = c.glb := rfl
@[simp] theorem setRxSa_secy (f : RxSa → RxSa) : (c.setRxSa r f).secy = c.secy := rfl
@[simp] theorem setRxSa_rxSc (f : RxSa → RxSa) : (c.setRxSa r f).rxSc = c.rxSc := rfl
@[simp] theorem setRxSa_txSa (f : RxSa → RxSa) : (c.setRxSa r f).txSa = c.txSa := rfl

end Simp

/-! ## SecYs -/

section Updates

variable (i : Nat) (c : MacsecConf)

/-- The assignments of `secy_conf_add`: the SecY is in use only when its SCI is valid. -/
def openSecy (port : MacsecPort) (conf : SecyConf) : MacsecConf :=
  c.setSecy i fun s => { s with
    conf
    sci := { macAddr := conf.macAddr, portId := port.portId }
    serviceId := port.serviceId
    tagBypass := 0
    patternRecord := fun _ _ => notInUse
    pattern := fun a d => { s.pattern a d with
      «match» := matchDisable
      priority := if a = .controlledPort then matchPriorityLowest else (s.pattern a d).priority }
    inUse := isSciValid { macAddr := conf.macAddr, portId := port.portId } }

/-- `secy->conf = *conf` and the new SCI address. -/
def updateSecyConf (conf : SecyConf) : MacsecConf :=
  c.setSecy i fun s => { s with conf, sci := { s.sci with macAddr := conf.macAddr } }

/-- `memset(secy, 0, sizeof(*secy))`. -/
def clearSecy : MacsecConf := c.setSecy i fun _ => {}

/-! ## The transmit channel -/

/-- The assignments of `tx_sc_set`. -/
def openTxSc : MacsecConf := c.setSecy i fun s => { s with txSc := { s.txSc with inUse := true } }

/-- `memset(&secy->tx_sc, 0, sizeof(secy->tx_sc))`. -/
def clearTxSc : MacsecConf := c.setSecy i fun s => { s with txSc := {} }

/-- The assignments of `tx_sc_update`. -/
def updateTxScConf (conf : TxScConf) : MacsecConf :=
  c.setSecy i fun s => { s with conf := { s.conf with
    protectFrames := conf.protectFrames
    alwaysIncludeSci := conf.alwaysIncludeSci
    useEs := conf.useEs
    useScb := conf.useScb
    confidentialityOffset := conf.confidentialityOffset } }

/-- The assignments of `tx_sa_set`: the record is taken for the association number. -/
def linkTxSa (an r : Nat) (nextPn : PktNum) (confidentiality : Bool) (sak : Sak) (ssci : Option Ssci) :
    MacsecConf :=
  (c.setSecy i fun s => { s with txSc := { s.txSc with sa := Function.update s.txSc.sa an (some r) } }).setTxSa r
    fun sa => { sa with
      record := r
      sak
      confidentiality
      ssci := if (c.secy i).conf.currentCipherSuite.xpn then ssci.getD sa.ssci else sa.ssci
      nextPn := nextPn.pn - 1
      pnNextPn := nextPn
      inUse := true }

/-- `memset(&tx_sa[record], 0, ..)` and `secy->tx_sc.sa[an] = NULL`. -/
def freeTxSa (an r : Nat) : MacsecConf :=
  (c.setTxSa r fun _ => {}).setSecy i fun s =>
    { s with txSc := { s.txSc with sa := Function.update s.txSc.sa an none } }

/-- The assignments of `tx_sa_activate`, after the old SA has been disabled in the chip when `oldInUse`. -/
def activateTxSa (an oldAn : Nat) (oldInUse : Bool) : MacsecConf :=
  let c' := if oldInUse then c.setTxSaAt i oldAn fun sa => { sa with enabled := false, statusInUse := false } else c
  (c'.setTxSaAt i an fun sa => { sa with enabled := true, statusInUse := true }).setSecy i fun s =>
    { s with txSc := { s.txSc with encodingSa := an, encipheringSa := an } }

/-- The assignments of `tx_sa_disable`. -/
def disableTxSa (an : Nat) : MacsecConf :=
  (c.setSecy i fun s => { s with txSc :=
      if an = s.txSc.encodingSa then { s.txSc with encodingSa := 0, encipheringSa := 0 } else s.txSc }).setTxSaAt i an
    fun sa => { sa with statusInUse := false, enabled := false }

/-! ## Receive channels -/

/-- The assignments of `rx_sc_add`: entry `p` of `rx_sc` and CAM index `hw` are taken for the channel `sc`. -/
def addRxSc (sc p hw : Nat) (sci : Sci) : MacsecConf :=
  let conf := (c.secy i).conf
  let c' := { c with rxScHwIdxInUse := c.rxScHwIdxInUse ||| (1#64 <<< hw) }
  (c'.setSecy i fun s => { s with rxSc := Function.update s.rxSc sc (some p) }).setRxSc p fun x => { x with
    sci
    conf := { x.conf with
      validateFrames := conf.validateFrames
      replayProtect := conf.replayProtect
      replayWindow := conf.replayWindow
      confidentialityOffset := conf.confidentialityOffset }
    inUse := true
    hwScIdx := hw }

/-- The assignments of `rx_sc_del`. -/
def freeRxSc (sc : Nat) : MacsecConf :=
  let c' := { c with rxScHwIdxInUse := c.rxScHwIdxInUse &&& ~~~(1#64 <<< (c.rxScAt i sc).hwScIdx) }
  (c'.setRxScAt i sc fun _ => {}).setSecy i fun s => { s with rxSc := Function.update s.rxSc sc none }

/-- `secy->rx_sc[sc]->conf = *conf`. -/
def updateRxScConf (sc : Nat) (conf : RxScConf) : MacsecConf := c.setRxScAt i sc fun x => { x with conf }

/-- The assignments of `rx_sa_set`. -/
def linkRxSa (sc an r : Nat) (lowestPn : PktNum) (sak : Sak) (ssci : Option Ssci) : MacsecConf :=
  (c.setRxScAt i sc fun x => { x with sa := Function.update x.sa an (some r) }).setRxSa r fun sa => { sa with
    record := r
    sak
    ssci := if (c.secy i).conf.currentCipherSuite.xpn then ssci.getD sa.ssci else sa.ssci
    lowestPn := lowestPn.pn
    pnLowestPn := lowestPn
    inUse := true }

/-- `memset(&rx_sa[record], 0, ..)` and `secy->rx_sc[sc]->sa[an] = NULL`. -/
def freeRxSa (sc an r : Nat) : MacsecConf :=
  (c.setRxSa r fun _ => {}).setRxScAt i sc fun x => { x with sa := Function.update x.sa an none }

/-- The assignments of `rx_sa_activate` (`true`) and `rx_sa_disable` (`false`). -/
def flagRxSa (sc an : Nat) (b : Bool) : MacsecConf :=
  c.setRxSaAt i sc an fun sa => { sa with statusInUse := b, enabled := b }

/-! ## Patterns -/

/-- `in_use` of a record, in the table of the direction. -/
def setSaInUse (d : Direction) (r : Nat) (b : Bool) : MacsecConf :=
  match d with
  | .egress => c.setTxSa r fun sa => { sa with inUse := b }
  | .ingress => c.setRxSa r fun sa => { sa with inUse := b }

/-- `record` of a record, in the table of the direction. -/
def setSaRecord (d : Direction) (r : Nat) : MacsecConf :=
  match d with
  | .egress => c.setTxSa r fun sa => { sa with record := r }
  | .ingress => c.setRxSa r fun sa => { sa with record := r }

def setPatternRecord (a : MatchAction) (d : Direction) (r : Nat) : MacsecConf :=
  c.setSecy i fun s => { s with patternRecord := fun a' d' => if a' = a ∧ d' = d then r else s.patternRecord a' d' }

/-- An assignment to `secy->pattern[action][direction]`. -/
def setPattern (a : MatchAction) (d : Direction) (f : MatchPattern → MatchPattern) : MacsecConf :=
  c.setSecy i fun s => { s with pattern := fun a' d' => if a' = a ∧ d' = d then f (s.pattern a' d') else s.pattern a' d' }

/-- The assignments of `pattern_set_`. -/
def linkPattern (a : MatchAction) (d : Direction) (r : Nat) : MacsecConf :=
  ((c.setSaRecord d r).setSaInUse d r true).setPatternRecord i a d r

/-- The assignments of `pattern_del_`. -/
def freePattern (a : MatchAction) (d : Direction) (r : Nat) : MacsecConf :=
  ((c.setSaInUse d r false).setPatternRecord i a d notInUse).setPattern i a d fun p => { p with «match» := matchDisable }

end Updates

end MacsecConf

end Lan80xx.Macsec
