import Lan80xx.Macsec.Types

/-!
# MACsec of the VTSS PHYs: the software state of one port

The tables of `vtss_macsec_internal_conf_t`. A C pointer into a table is the index of the entry. `memset` to zero is the
default value of a structure. The PHYs share the identifiers and settings of the API with the 25G PHYs.

- `Secy`, `RxSc`, `TxSa`, `RxSa`, `Glb`: the entries and the port-wide settings;
- `Hw`: the register sequences, each of which the hardware may refuse at any place;
- `Call`: a computation over both.

Time stamps, counters and the map of the context ids are left out: no function modelled here decides anything by them.
So is the warm start, whose flags `warm_start_cur` and `sync_calling_private` are `FALSE` here.
-/

namespace Lan80xx.VtssMacsec

open Fallible RegBus
open Macsec (Ssci Sci Sak PktNum SecyConf RxScConf MatchPattern MatchAction Direction MtuConf BypassMode
  ControlFrameMatchConf)

/-! ## Sizes -/

/-- What the probe has found: `macsec_capability`, whether `vtss_macsec_init_set` takes the chip for a Rev B, whether it
is a 1G PHY, and `is_macsec_capable`. -/
structure Phy where
  maxSecyCnt : Nat
  maxSaCnt : Nat
  maxScCnt : Nat
  revb : Bool
  is1g : Bool
  macsecCapable : Bool

/-- `VTSS_MACSEC_CP_RULES`. -/
def cpRules : Nat := 28

/-- `VTSS_MACSEC_MTU_MAX`. -/
def mtuMax : BitVec 32 := 32761

/-! ## The tables -/

/-- `vtss_macsec_internal_tx_sa_t`. -/
structure TxSa where
  inUse : Bool := false
  enabled : Bool := false
  record : Nat := 0
  confidentiality : Bool := false
  sak : Sak := {}
  ssci : Ssci := Vector.replicate 4 0
  statusInUse : Bool := false
  nextPn : BitVec 32 := 0
  pnNextPn : PktNum := 0
  deriving DecidableEq

/-- `vtss_macsec_internal_rx_sa_t`. -/
structure RxSa where
  inUse : Bool := false
  enabled : Bool := false
  record : Nat := 0
  sak : Sak := {}
  ssci : Ssci := Vector.replicate 4 0
  statusInUse : Bool := false
  nextPn : BitVec 32 := 0
  lowestPn : BitVec 32 := 0
  pnNextPn : PktNum := 0
  pnLowestPn : PktNum := 0
  deriving DecidableEq

/-- `vtss_macsec_internal_rx_sc_t`; `sa` points into `rx_sa`. -/
structure RxSc where
  inUse : Bool := false
  sci : Sci := {}
  conf : RxScConf := {}
  sa : Nat → Option Nat := fun _ => none

/-- `vtss_macsec_internal_tx_sc_t`; `sa` points into `tx_sa`. -/
structure TxSc where
  inUse : Bool := false
  encodingSa : Nat := 0
  encipheringSa : Nat := 0
  sa : Nat → Option Nat := fun _ => none

/-- `vtss_macsec_internal_secy_t`; `rxSc` points into `rx_sc`. The array behind `rx_sc` is allocated once, and lives as
long as the port. -/
structure Secy where
  inUse : Bool := false
  sci : Sci := {}
  serviceId : Nat := 0
  controlledPortEnabled : Bool := false
  conf : SecyConf := {}
  rxSc : Nat → Option Nat := fun _ => none
  txSc : TxSc := {}
  pattern : MatchAction → Direction → MatchPattern := fun _ _ => {}
  patternRecord : MatchAction → Direction → Nat := fun _ _ => 0
  tagBypass : Nat := 0

/-- `vtss_macsec_init_bypass_t`. -/
inductive InitBypass
  | none
  | enable
  | disable
  deriving DecidableEq, Repr

/-- `vtss_macsec_init_t`. -/
structure Init where
  enable : Bool := false
  disIngNmMacsecEn : Bool := false
  bypass : InitBypass := .none
  deriving DecidableEq, Repr

/-- `vtss_macsec_internal_glb_t`. -/
structure Glb where
  init : Init := {}
  mtuConf : MtuConf := {}
  controlMatch : Nat → ControlFrameMatchConf := fun _ => {}
  egrBypassRecord : Nat → Nat := fun _ => 0
  bypassMode : BypassMode := .none
  hdrBypassLen : Nat := 0
  hdrEtype : BitVec 16 := 0
  macsecRevb : Bool := false
  macBlockMtu : Nat := 0
  spdChangeMacsecRecfg : Bool := false
  recfgSpeed : Nat := 0

/-- `vtss_macsec_internal_conf_t`. -/
structure Conf where
  secy : Nat → Secy := fun _ => {}
  rxSc : Nat → RxSc := fun _ => {}
  rxSa : Nat → RxSa := fun _ => {}
  txSa : Nat → TxSa := fun _ => {}
  glb : Glb := {}

/-! ## Return codes -/

/-- A negative return code: `VTSS_RC_ERROR`, one of the codes that `dbg_counter_incr` counts, the code of a failed
register access, or `hang` for a call that does not return. -/
inductive Rc
  | error
  | macsec (e : Macsec.MacsecRc)
  | couldNotToggleSa
  | noCtrlFrmMatch
  | invalidBypassHdrLen
  | phyPoweredDown
  | access
  | hang
  deriving DecidableEq, Repr

/-! ## Updates of one entry -/

namespace Conf

variable (c : Conf)

def setSecy (i : Nat) (f : Secy → Secy) : Conf := { c with secy := Function.update c.secy i (f (c.secy i)) }

def setRxSc (p : Nat) (f : RxSc → RxSc) : Conf := { c with rxSc := Function.update c.rxSc p (f (c.rxSc p)) }

def setRxSa (r : Nat) (f : RxSa → RxSa) : Conf := { c with rxSa := Function.update c.rxSa r (f (c.rxSa r)) }

def setTxSa (r : Nat) (f : TxSa → TxSa) : Conf := { c with txSa := Function.update c.txSa r (f (c.txSa r)) }

def setGlb (f : Glb → Glb) : Conf := { c with glb := f c.glb }

variable {c} {i j p q r t : Nat} {f : Secy → Secy} {g : RxSc → RxSc} {k : RxSa → RxSa} {l : TxSa → TxSa} {m : Glb → Glb}

theorem setSecy_secy : (c.setSecy i f).secy j = if j = i then f (c.secy i) else c.secy j := by
  simp [setSecy, Function.update_apply]

@[simp] theorem setSecy_secy_self : (c.setSecy i f).secy i = f (c.secy i) := by simp [setSecy]

@[simp] theorem setSecy_rxSc : (c.setSecy i f).rxSc = c.rxSc := rfl
@[simp] theorem setSecy_rxSa : (c.setSecy i f).rxSa = c.rxSa := rfl
@[simp] theorem setSecy_txSa : (c.setSecy i f).txSa = c.txSa := rfl
@[simp] theorem setSecy_glb : (c.setSecy i f).glb = c.glb := rfl

theorem setRxSc_rxSc : (c.setRxSc p g).rxSc q = if q = p then g (c.rxSc p) else c.rxSc q := by
  simp [setRxSc, Function.update_apply]

@[simp] theorem setRxSc_rxSc_self : (c.setRxSc p g).rxSc p = g (c.rxSc p) := by simp [setRxSc]

@[simp] theorem setRxSc_secy : (c.setRxSc p g).secy = c.secy := rfl
@[simp] theorem setRxSc_rxSa : (c.setRxSc p g).rxSa = c.rxSa := rfl
@[simp] theorem setRxSc_txSa : (c.setRxSc p g).txSa = c.txSa := rfl
@[simp] theorem setRxSc_glb : (c.setRxSc p g).glb = c.glb := rfl

theorem setRxSa_rxSa : (c.setRxSa r k).rxSa t = if t = r then k (c.rxSa r) else c.rxSa t := by
  simp [setRxSa, Function.update_apply]

@[simp] theorem setRxSa_rxSa_self : (c.setRxSa r k).rxSa r = k (c.rxSa r) := by simp [setRxSa]

@[simp] theorem setRxSa_secy : (c.setRxSa r k).secy = c.secy := rfl
@[simp] theorem setRxSa_rxSc : (c.setRxSa r k).rxSc = c.rxSc := rfl
@[simp] theorem setRxSa_txSa : (c.setRxSa r k).txSa = c.txSa := rfl
@[simp] theorem setRxSa_glb : (c.setRxSa r k).glb = c.glb := rfl

theorem setTxSa_txSa : (c.setTxSa r l).txSa t = if t = r then l (c.txSa r) else c.txSa t := by
  simp [setTxSa, Function.update_apply]

@[simp] theorem setTxSa_txSa_self : (c.setTxSa r l).txSa r = l (c.txSa r) := by simp [setTxSa]

@[simp] theorem setTxSa_secy : (c.setTxSa r l).secy = c.secy := rfl
@[simp] theorem setTxSa_rxSc : (c.setTxSa r l).rxSc = c.rxSc := rfl
@[simp] theorem setTxSa_rxSa : (c.setTxSa r l).rxSa = c.rxSa := rfl
@[simp] theorem setTxSa_glb : (c.setTxSa r l).glb = c.glb := rfl

theorem setSecy_setSecy {f' : Secy → Secy} : (c.setSecy i f).setSecy i f' = c.setSecy i fun s => f' (f s) := by
  simp [setSecy]

theorem setTxSa_setTxSa {l' : TxSa → TxSa} : (c.setTxSa r l).setTxSa r l' = c.setTxSa r fun sa => l' (l sa) := by
  simp [setTxSa]

theorem setRxSa_setRxSa {k' : RxSa → RxSa} : (c.setRxSa r k).setRxSa r k' = c.setRxSa r fun sa => k' (k sa) := by
  simp [setRxSa]

@[simp] theorem setGlb_secy : (c.setGlb m).secy = c.secy := rfl
@[simp] theorem setGlb_rxSc : (c.setGlb m).rxSc = c.rxSc := rfl
@[simp] theorem setGlb_rxSa : (c.setGlb m).rxSa = c.rxSa := rfl
@[simp] theorem setGlb_txSa : (c.setGlb m).txSa = c.txSa := rfl
@[simp] theorem setGlb_glb : (c.setGlb m).glb = m c.glb := rfl

end Conf

/-! ## The hardware -/

/-- The register sequences of the calls. -/
inductive HwOp
  /-- The power mode, read at the start of `vtss_macsec_init_set`. -/
  | powerGet
  /-- `vtss_macsec_verify_port`. -/
  | verifyPort
  /-- What `vtss_macsec_init_set_priv` does before the timestamp block is told. -/
  | macsecClkEn (enable : Bool)
  /-- `phy_10g_mac_conf(vtss_state, port_no, enable, enable)`. -/
  | macConf (enable : Bool)
  /-- `vtss_phy_ts_macsec_mode_change`. -/
  | tsModeChange (enable : Bool)
  /-- The registers that `vtss_macsec_init_set_priv` writes before it takes up the MTU. -/
  | initBlock
  /-- `vtss_macsec_lmac_counters_get_priv` and `vtss_macsec_hmac_counters_get_priv`, with `clear`. -/
  | macCountersClear
  /-- `vtss_macsec_mtu_set_priv`. -/
  | mtuSet
  /-- The registers that enable the two blocks, at the end of `vtss_macsec_init_set_priv`. -/
  | enableBlocks
  /-- The registers that reset and bypass the two blocks. -/
  | disableBlocks
  /-- `MACSEC_ENA_CFG` of a direction, read and written for the bypass. -/
  | bypassSet (d : Direction) (enable : Bool)
  /-- The registers of `vtss_macsec_speed_conf_priv`. -/
  | speedConf (enable : Bool)
  /-- The reset of the blocks before a reconfiguration. -/
  | recfgReset
  /-- `vtss_macsec_default_action_set_priv` with the stored policy. -/
  | defaultAction
  /-- `vtss_macsec_bypass_mode_set_priv` with the stored mode. -/
  | bypassMode
  /-- `macsec_update_glb_validate`. -/
  | updateGlbValidate
  /-- `SAM_NM_PARAMS`: `CHECK_PN` off. -/
  | checkPnOff
  /-- `macsec_sa_match_set`. -/
  | saMatchSet (d : Direction) (record : Nat) (pattern : MatchPattern) (secy : Option Nat) (sc an : Nat)
  /-- `macsec_sa_match_reset`. -/
  | saMatchReset (d : Direction) (record : Nat)
  /-- `macsec_sa_flow_set`. -/
  | saFlowSet (d : Direction) (record : Nat) (secy : Option Nat) (an sc : Nat) (action : MatchAction)
  /-- `SAM_FLOW_CTRL` of the record, written with zero. -/
  | saFlowClear (d : Direction) (record : Nat)
  /-- `SAM_MASK` of the record, written with zero. -/
  | saMaskClear (d : Direction) (record : Nat)
  /-- The transform record that `macsec_sa_xform_set` writes. -/
  | saXformSet (d : Direction) (record i an sc : Nat)
  /-- `macsec_sa_xform_reset`. -/
  | saXformReset (d : Direction) (record : Nat)
  /-- `macsec_sa_enable`. -/
  | saEnable (record : Nat) (d : Direction) (enable : Bool)
  /-- `macsec_sa_inuse`. -/
  | saInuse (record : Nat) (d : Direction) (enable : Bool)
  /-- `macsec_sa_toggle`. -/
  | saToggle (newRecord oldRecord : Nat) (d : Direction)
  /-- `sa_sam_in_flight`. -/
  | samInFlight (d : Direction)
  /-- `vtss_macsec_tx_sa_counters_get_priv`, `vtss_macsec_rx_sa_counters_get_priv`. -/
  | saCountersGet (d : Direction) (i sc an : Nat)
  /-- `vtss_macsec_rx_sa_next_pn_update_priv`, and the register it leaves to be read. -/
  | nextPnUpdate (i record : Nat) (nextPn : PktNum)
  /-- The classification registers of one control frame rule. -/
  | controlRule (conf : ControlFrameMatchConf) (indx : Nat) (store : Bool)

/-- The hardware: whether a register sequence is answered throughout, and the state it leaves. A sequence that checks
the values it is to write, such as the priority of a pattern, answers `false` when they are not valid. -/
structure Hw (H : Type) where
  run : HwOp → Conf → H → Bool × H
  /-- The packet number in the transform record of an SA of a SecY, which the update of a lowest packet number reads. -/
  nextPn : Conf → Nat → Nat → H → Option (BitVec 32) × H

abbrev Call (H α : Type) := EStateM Rc (Dev Conf H) α

section

variable {H : Type} (hw : Hw H)

/-- One register sequence. -/
def hwOp (op : HwOp) : Call H Unit := fun s =>
  if (hw.run op s.conf s.hw).1 then .ok () { s with hw := (hw.run op s.conf s.hw).2 }
  else .error .access { s with hw := (hw.run op s.conf s.hw).2 }

/-- A read of the packet number in a transform record. -/
def readNextPn (i record : Nat) : Call H (BitVec 32) := fun s =>
  match (hw.nextPn s.conf i record s.hw).1 with
  | some v => .ok v { s with hw := (hw.nextPn s.conf i record s.hw).2 }
  | none => .error .access { s with hw := (hw.nextPn s.conf i record s.hw).2 }

/-- The calls that leave the software state alone. -/
def confFrame : Frame (Dev Conf H) where
  rel s s' := s'.conf = s.conf
  refl _ := rfl
  trans h h' := h'.trans h

variable {hw} in
theorem final_hwOp (op : HwOp) (s : Dev Conf H) :
    final (hwOp hw op) s = { s with hw := (hw.run op s.conf s.hw).2 } := by
  by_cases h : (hw.run op s.conf s.hw).1 = true <;> simp [final, hwOp, h]

theorem within_hwOp (op : HwOp) : Within confFrame (hwOp hw op) := fun s => by
  rw [final_hwOp]
  rfl

variable {hw} in
/-- A register sequence, seen by a frame that looks at the tables alone. -/
theorem soft_hwOp {F : Frame Conf} (op : HwOp) : Within (onConf F) (hwOp hw op) := fun s => by
  rw [final_hwOp]
  exact F.refl s.conf

variable {hw} in
/-- What a register sequence leaves, answered or not. -/
theorem ends_hwOp_of {op : HwOp} {P Q : Dev Conf H → Prop}
    (h : ∀ s, P s → Q { s with hw := (hw.run op s.conf s.hw).2 }) : Ends P (hwOp hw op) (fun _ => Q) Q := by
  intro s hP
  by_cases hok : (hw.run op s.conf s.hw).1 = true
  · exact Or.inl ⟨(), _, if_pos hok, h s hP⟩
  · exact Or.inr ⟨.access, _, if_neg hok, h s hP⟩

variable {hw} in
/-- What an answered register sequence leaves. -/
theorem ends_hwOp_answered {op : HwOp} {P Q : Dev Conf H → Prop}
    (h : ∀ s, P s → (hw.run op s.conf s.hw).1 = true → Q { s with hw := (hw.run op s.conf s.hw).2 }) :
    Ends P (hwOp hw op) (fun _ => Q) fun _ => True := by
  intro s hP
  by_cases hok : (hw.run op s.conf s.hw).1 = true
  · exact Or.inl ⟨(), _, if_pos hok, h s hP hok⟩
  · exact Or.inr ⟨.access, _, if_neg hok, trivial⟩

variable {hw} in
theorem steps_hwOp {F : Frame Conf} {c : Conf} (op : HwOp) :
    Steps (onConf F) (fun s => s.conf = c) (hwOp hw op) fun _ s => s.conf = c :=
  ((within_iff.mp (soft_hwOp op)).alongside (within_hwOp hw op) fun _ _ hs h => h.trans hs).weaken
    (fun _ hs => ⟨trivial, hs⟩) fun _ _ hs => hs.2

theorem soft_confFrame {F : Frame Conf} {α : Type} {x : Call H α} (hx : Within confFrame x) : Within (onConf F) x :=
  hx.mono fun s s' h => by
    have hc : s'.conf = s.conf := h
    change F.rel s.conf s'.conf
    rw [hc]
    exact F.refl _

theorem within_readNextPn (i record : Nat) : Within confFrame (readNextPn hw i record) := fun s => by
  cases h : (hw.nextPn s.conf i record s.hw).1 <;> simp [final, readNextPn, h, confFrame]

end

end Lan80xx.VtssMacsec
