import Lan80xx.VtssTs.Signature

/-!
# Latencies, path delay, asymmetry, clock rate and signature mask

The setters store a value and program the PHY from what is stored. When that fails, the two latencies are restored; the
other values stay, and are what the getters return from then on.

- `program`: what is programmed for a time interval, and for the clock rate;
- `ends_set`: what a call stores, and when it returns;
- `set_keepsStep_iff`: when a call leaves what is stored in step with what has been accepted;
- `settings_follow_ok`: the getters, after any run of calls.
-/

namespace Lan80xx.VtssTs

open Fallible RegBus RegScript

/-! ## What is stored -/

/-- The settings that are a `vtss_timeinterval_t`, or a `vtss_phy_ts_scaled_ppb_t`. -/
inductive Interval
  | ingressLatency
  | egressLatency
  | pathDelay
  | delayAsym
  | rateAdj
  deriving DecidableEq, Repr

/-- What the calls use of `phy_ts_port_conf`. -/
structure PortSettings where
  portTsInitDone : Bool
  interval : Interval → BitVec 64
  sigMask : Mask

namespace PortSettings

def setInterval (c : PortSettings) (i : Interval) (v : BitVec 64) : PortSettings :=
  { c with interval := Function.update c.interval i v }

def setSigMask (c : PortSettings) (mask : Mask) : PortSettings := { c with sigMask := mask }

@[simp]
theorem setInterval_portTsInitDone (c : PortSettings) (i : Interval) (v : BitVec 64) :
    (c.setInterval i v).portTsInitDone = c.portTsInitDone := rfl

@[simp]
theorem setInterval_interval (c : PortSettings) (i : Interval) (v : BitVec 64) :
    (c.setInterval i v).interval = Function.update c.interval i v := rfl

@[simp]
theorem setInterval_sigMask (c : PortSettings) (i : Interval) (v : BitVec 64) : (c.setInterval i v).sigMask = c.sigMask :=
  rfl

@[simp]
theorem setSigMask_interval (c : PortSettings) (mask : Mask) : (c.setSigMask mask).interval = c.interval := rfl

@[simp]
theorem setSigMask_sigMask (c : PortSettings) (mask : Mask) : (c.setSigMask mask).sigMask = mask := rfl

end PortSettings

/-- `vtss_phy_ts_base_port_get_priv`: the first port of the PHY, where the PHY is known. -/
structure Ports (P : Type) where
  base : P → Option P
  base_base : ∀ p b, base p = some b → base b = some b

/-! ## What is programmed -/

/-- Ingress or egress. -/
inductive TsDir
  | ingr
  | egr
  deriving DecidableEq, Repr

/-- The registers of the timestamp processor of a port, and those of its signatures. -/
inductive TsReg
  | localLatency (dir : TsDir)
  | pathDelay (dir : TsDir)
  | delayAsymmetry (dir : TsDir)
  | tspCtrl (dir : TsDir)
  | ltcAutoAdjust
  | ltcCtrl
  | sig (r : SigReg)
  deriving DecidableEq, Repr

/-- What a call finds out about the PHY: the latencies of its mode, speed and clock, where
`vtss_phy_ts_register_access_type_get` succeeds; and the engines. The mask of `engines` does not count. -/
structure PhyView where
  basicLatency : Option (TsDir → BitVec 32)
  engines : SigConf

abbrev TsAcc := Access TsReg 32

/-- `VTSS_PHY_TS_TIME_INTERVAL_ADJUST_32_NS` -/
def adjust32Ns (ti : BitVec 64) : BitVec 32 := (ti >>> 16).setWidth 32

/-- `*_LOAD_DELAYS` -/
def loadDelays (dir : TsDir) : TsAcc := .modify (.tspCtrl dir) 0 1

/-- `VTSS_PHY_TS_ING_LATENCY_SET` and `VTSS_PHY_TS_EGR_LATENCY_SET`; a latency below zero is refused. -/
def latencyProgram (dir : TsDir) (basic : BitVec 32) (ti : BitVec 64) : Option (List TsAcc) :=
  if (-basic).sle (adjust32Ns ti) then
    some [.wr (.localLatency dir) ((adjust32Ns ti + basic) &&& 0x7fffff), loadDelays dir]
  else none

/-- The two words of `VTSS_PHY_TS_PATH_DELAY_SET` and `VTSS_PHY_TS_DELAY_ASYM_SET`. -/
def bothProgram (reg : TsDir → TsReg) (value : BitVec 32) : List TsAcc :=
  [.wr (reg .ingr) value, .wr (reg .egr) value, loadDelays .ingr, loadDelays .egr]

/-- `VTSS_PHY_TS_RATE_ADJ_SET`: the nanoseconds after which one is added (1) or subtracted (2). -/
def rateAdjust (ti : BitVec 64) : BitVec 32 :=
  if ti = 0 then 0
  else
    let val := min (1000000000 * 0x10000 / ti.toInt.natAbs) 1000000000
    (BitVec.ofNat 32 val &&& 0x3fffffff) ||| (if 0 < ti.toInt then 0x40000000 else 0x80000000)

/-- The cases of `vtss_phy_ts_csr_set_priv`. -/
def program (i : Interval) (basic : TsDir → BitVec 32) (ti : BitVec 64) : Option (List TsAcc) :=
  match i with
  | .ingressLatency => latencyProgram .ingr (basic .ingr) ti
  | .egressLatency => latencyProgram .egr (basic .egr) ti
  | .pathDelay => some (bothProgram .pathDelay (adjust32Ns ti))
  | .delayAsym => some (bothProgram .delayAsymmetry (ti.setWidth 32))
  | .rateAdj => some [.wr .ltcAutoAdjust (rateAdjust ti), .modify .ltcCtrl 0 0x10]

/-! ## The calls -/

/-- The check of `vtss_phy_ts_delay_asymmetry_set`. -/
def Interval.InRange (i : Interval) (v : BitVec 64) : Prop :=
  i = .delayAsym → v.toInt ≤ 32767 * 65536 ∧ -32768 * 65536 ≤ v.toInt

instance (i : Interval) (v : BitVec 64) : Decidable (i.InRange v) := inferInstanceAs (Decidable (_ → _))

/-- The setters that restore the value when programming fails. -/
def Interval.restores : Interval → Bool
  | ingressLatency | egressLatency => true
  | _ => false

abbrev SettingCall (P H α : Type) := EStateM Rc (Dev (P → PortSettings) H) α

section Calls

variable {P H : Type} [DecidableEq P] (ports : Ports P) (bus : Bus (P × TsReg) 32 H) (p : P) (phy : PhyView)

/-- `vtss_phy_ts_csr_set_priv`: what is stored goes into the registers. -/
def csrSetPriv (i : Interval) : SettingCall P H Unit := do
  let c ← getConf
  match phy.basicLatency with
  | none => throw .error
  | some basic =>
    match program i basic ((c p).interval i) with
    | none => throw .error
    | some as => runAll (bus.comap (Prod.mk p)) Rc.access as

/-- The record of a port. -/
def modifyPort (f : PortSettings → PortSettings) : SettingCall P H PUnit :=
  modifyConf fun c => Function.update c p (f (c p))

/-- A setter: the value is stored, and then programmed. -/
def intervalSet (i : Interval) (v : BitVec 64) : SettingCall P H Unit := do
  let c ← getConf
  failIf ((c p).portTsInitDone = false) .error
  failIf (¬i.InRange v) .error
  modifyPort p fun r => r.setInterval i v
  if i.restores then
    onError (csrSetPriv bus p phy i) fun s =>
      { s with conf := Function.update s.conf p ((s.conf p).setInterval i ((c p).interval i)) }
  else csrSetPriv bus p phy i

/-- `vtss_phy_ts_ingress_latency_set` -/
def ingressLatencySet (latency : BitVec 64) : SettingCall P H Unit := intervalSet bus p phy .ingressLatency latency

/-- `vtss_phy_ts_egress_latency_set` -/
def egressLatencySet (latency : BitVec 64) : SettingCall P H Unit := intervalSet bus p phy .egressLatency latency

/-- `vtss_phy_ts_path_delay_set` -/
def pathDelaySet (pathDelay : BitVec 64) : SettingCall P H Unit := intervalSet bus p phy .pathDelay pathDelay

/-- `vtss_phy_ts_delay_asymmetry_set` -/
def delayAsymmetrySet (delayAsym : BitVec 64) : SettingCall P H Unit := intervalSet bus p phy .delayAsym delayAsym

/-- `vtss_phy_ts_clock_rateadj_set` -/
def clockRateadjSet (adj : BitVec 64) : SettingCall P H Unit := intervalSet bus p phy .rateAdj adj

/-- `vtss_phy_ts_fifo_sig_set`: the mask is stored with the port and with the first port of its PHY. -/
def fifoSigSet (mask : Mask) : SettingCall P H Unit := do
  failIf (16 < mask.sigLen) .error
  let c ← getConf
  failIf ((c p).portTsInitDone = false) .error
  match ports.base p with
  | none => throw .error
  | some base => do
    modifyPort p fun r => r.setSigMask mask
    modifyPort base fun r => r.setSigMask mask
    signatureSet (bus.comap fun r => (p, .sig r)) { phy.engines with sigMask := mask }

/-- A getter. -/
def intervalGet (i : Interval) : SettingCall P H (BitVec 64) := do
  let c ← getConf
  failIf ((c p).portTsInitDone = false) .error
  pure ((c p).interval i)

/-- `vtss_phy_ts_fifo_sig_get` -/
def fifoSigGet : SettingCall P H Mask := do
  let c ← getConf
  failIf ((c p).portTsInitDone = false) .error
  match ports.base p with
  | none => throw .error
  | some base => pure (c base).sigMask

end Calls

/-! ## One call -/

/-- A setter with its value. -/
inductive SetOp
  | interval (i : Interval) (v : BitVec 64)
  | fifoSig (mask : Mask)
  deriving DecidableEq, Repr

/-- A call of a setter. -/
structure SetCall (P : Type) where
  port : P
  phy : PhyView
  op : SetOp

section Step

variable {P H : Type} [DecidableEq P] (ports : Ports P) (bus : Bus (P × TsReg) 32 H)

def SetCall.run (k : SetCall P) : SettingCall P H Unit :=
  match k.op with
  | .interval .ingressLatency v => ingressLatencySet bus k.port k.phy v
  | .interval .egressLatency v => egressLatencySet bus k.port k.phy v
  | .interval .pathDelay v => pathDelaySet bus k.port k.phy v
  | .interval .delayAsym v => delayAsymmetrySet bus k.port k.phy v
  | .interval .rateAdj v => clockRateadjSet bus k.port k.phy v
  | .fifoSig mask => fifoSigSet ports bus k.port k.phy mask

/-- The call is rejected before it stores anything. -/
def SetCall.Rejected (c : P → PortSettings) (k : SetCall P) : Prop :=
  (c k.port).portTsInitDone = false ∨
    match k.op with
    | .interval i v => ¬i.InRange v
    | .fifoSig mask => 16 < mask.sigLen ∨ ports.base k.port = none

/-- All accesses of the call succeed; and for the time intervals, the PHY is known and takes the value. -/
def SetCall.Programs (h : H) (k : SetCall P) : Prop :=
  match k.op with
  | .interval i v => ∃ basic as, k.phy.basicLatency = some basic ∧ program i basic v = some as ∧
      passesAll (bus.comap (Prod.mk k.port)) as h ≠ none
  | .fifoSig mask =>
    passesAll (bus.comap fun r => (k.port, .sig r)) (sigAccesses { k.phy.engines with sigMask := mask }) h ≠ none

/-- The records with the value of the call. -/
def SetCall.stored (c : P → PortSettings) (k : SetCall P) : P → PortSettings :=
  match k.op with
  | .interval i v => Function.update c k.port ((c k.port).setInterval i v)
  | .fifoSig mask =>
    match ports.base k.port with
    | none => c
    | some base =>
      let c' := Function.update c k.port ((c k.port).setSigMask mask)
      Function.update c' base ((c' base).setSigMask mask)

/-- The records after programming has failed. -/
def SetCall.leftOver (c : P → PortSettings) (k : SetCall P) : P → PortSettings :=
  match k.op with
  | .interval i _ => if i.restores then c else k.stored ports c
  | .fifoSig _ => k.stored ports c

variable {c : P → PortSettings} {h : H} {k : SetCall P} {p : P} (phy : PhyView)

theorem run_interval {i : Interval} {v : BitVec 64} (hop : k.op = .interval i v) :
    k.run ports bus = intervalSet bus k.port k.phy i v := by
  rw [SetCall.run, hop]
  cases i <;> rfl

omit [DecidableEq P] in
/-- What `vtss_phy_ts_csr_set_priv` does with the value that is stored. -/
theorem ends_csrSetPriv (i : Interval) : Ends (RegScript.At c h) (csrSetPriv bus p phy i)
    (fun _ s => s.conf = c ∧ ∃ basic as, phy.basicLatency = some basic ∧ program i basic ((c p).interval i) = some as ∧
      passesAll (bus.comap (Prod.mk p)) as h ≠ none)
    (fun s => s.conf = c ∧ ¬∃ basic as, phy.basicLatency = some basic ∧ program i basic ((c p).interval i) = some as ∧
      passesAll (bus.comap (Prod.mk p)) as h ≠ none) := by
  refine ends_getConf_bind (fun _ hs => hs.1) ?_
  cases hphy : phy.basicLatency with
  | none => exact Ends.throw fun s hs => ⟨hs.1, fun ⟨_, _, h, _⟩ => by cases h⟩
  | some basic =>
    dsimp only
    cases hprog : program i basic ((c p).interval i) with
    | none =>
      refine Ends.throw fun s hs => ⟨hs.1, ?_⟩
      rintro ⟨basic', as, hb, has, -⟩
      obtain rfl := Option.some.inj hb
      cases hprog.symm.trans has
    | some as =>
      refine (ends_runAll_passes _ Rc.access as).weaken (fun _ s hs => ⟨hs.1, basic, as, rfl, hprog, ?_⟩)
        fun s hs => ⟨hs.1, ?_⟩
      · rw [hs.2]
        exact Option.some_ne_none _
      · rintro ⟨basic', as', hb, has, hpass⟩
        obtain rfl := Option.some.inj hb
        obtain rfl := Option.some.inj (hprog.symm.trans has)
        exact hpass hs.2

theorem ends_intervalSet {i : Interval} {v : BitVec 64} (hinit : (c p).portTsInitDone = true) (hrange : i.InRange v) :
    Ends (RegScript.At c h) (intervalSet bus p phy i v)
      (fun _ s => s.conf = Function.update c p ((c p).setInterval i v) ∧
        ∃ basic as, phy.basicLatency = some basic ∧ program i basic v = some as ∧
          passesAll (bus.comap (Prod.mk p)) as h ≠ none)
      (fun s => s.conf = (if i.restores then c else Function.update c p ((c p).setInterval i v)) ∧
        ¬∃ basic as, phy.basicLatency = some basic ∧ program i basic v = some as ∧
          passesAll (bus.comap (Prod.mk p)) as h ≠ none) := by
  refine ends_getConf_bind (fun _ hs => hs.1) (Ends.failIf_bind (fun s _ hno => ?_) fun _ => ?_)
  · exact absurd (hinit.symm.trans hno) (by decide)
  refine Ends.failIf_bind (fun s _ hno => absurd hrange hno) fun _ => ?_
  have hstore : Ends (RegScript.At c h) (modifyPort p fun r => r.setInterval i v : SettingCall P H PUnit)
      (fun _ => RegScript.At (Function.update c p ((c p).setInterval i v)) h) fun _ => False :=
    Ends.modify fun s hs => ⟨by dsimp only; rw [hs.1], hs.2⟩
  refine (hstore.weaken (fun _ _ hs => hs) fun _ hs => hs.elim).bind fun _ => ?_
  have hcsr := ends_csrSetPriv bus (c := Function.update c p ((c p).setInterval i v)) (h := h) (p := p) phy i
  rw [Function.update_self, PortSettings.setInterval_interval, Function.update_self] at hcsr
  by_cases hr : i.restores = true
  · rw [if_pos hr]
    refine Ends.onError hcsr fun s hs => ⟨?_, hs.2⟩
    rw [if_pos hr]
    dsimp only
    rw [hs.1, Function.update_self, Function.update_idem]
    have hback : ((c p).setInterval i v).setInterval i ((c p).interval i) = c p := by
      simp [PortSettings.setInterval]
    rw [hback, Function.update_eq_self]
  · rw [if_neg hr, if_neg hr]
    exact hcsr

theorem ends_fifoSigSet {mask : Mask} {base : P} (hbase : ports.base p = some base)
    (hinit : (c p).portTsInitDone = true) (hfits : mask.sigLen ≤ 16) :
    Ends (RegScript.At c h) (fifoSigSet ports bus p phy mask)
      (fun _ s => s.conf = (SetCall.mk p phy (.fifoSig mask)).stored ports c ∧
        passesAll (bus.comap fun r => (p, .sig r)) (sigAccesses { phy.engines with sigMask := mask }) h ≠ none)
      (fun s => s.conf = (SetCall.mk p phy (.fifoSig mask)).stored ports c ∧
        ¬passesAll (bus.comap fun r => (p, .sig r)) (sigAccesses { phy.engines with sigMask := mask }) h ≠ none) := by
  refine Ends.failIf_bind (fun s _ hno => absurd hno (by omega)) fun _ => ?_
  refine ends_getConf_bind (fun _ hs => hs.1) (Ends.failIf_bind (fun s _ hno => ?_) fun _ => ?_)
  · exact absurd (hinit.symm.trans hno) (by decide)
  have hstored : (SetCall.mk p phy (.fifoSig mask)).stored ports c =
      Function.update (Function.update c p ((c p).setSigMask mask)) base
        (((Function.update c p ((c p).setSigMask mask)) base).setSigMask mask) := by
    simp only [SetCall.stored, hbase]
  rw [hbase, hstored]
  have hstore : ∀ (q : P) (d : P → PortSettings), Ends (RegScript.At d h)
      (modifyPort q fun r => r.setSigMask mask : SettingCall P H PUnit)
      (fun _ => RegScript.At (Function.update d q ((d q).setSigMask mask)) h) fun _ => False := fun q d =>
    Ends.modify fun s hs => ⟨by dsimp only; rw [hs.1], hs.2⟩
  refine ((hstore p c).weaken (fun _ _ hs => hs) fun _ hs => hs.elim).bind fun _ => ?_
  refine ((hstore base _).weaken (fun _ _ hs => hs) fun _ hs => hs.elim).bind fun _ => ?_
  have hset := signatureSet_eq (C := P → PortSettings) (bus.comap fun r => (p, TsReg.sig r))
    (c := { phy.engines with sigMask := mask }) hfits
  rw [hset]
  generalize sigAccesses { phy.engines with sigMask := mask } = as
  refine (ends_runAll_passes _ Rc.access as).weaken (fun _ s hs => ⟨hs.1, ?_⟩) fun s hs => ⟨hs.1, fun hne => hne hs.2⟩
  rw [hs.2]
  exact Option.some_ne_none _

/-- An accepted call returns when its programming goes through. -/
theorem ends_set (hacc : ¬k.Rejected ports c) : Ends (RegScript.At c h) (k.run ports bus)
    (fun _ s => s.conf = k.stored ports c ∧ k.Programs bus h)
    (fun s => s.conf = k.leftOver ports c ∧ ¬k.Programs bus h) := by
  rw [SetCall.Rejected, not_or, Bool.not_eq_false] at hacc
  obtain ⟨hinit, hop⟩ := hacc
  rcases k with ⟨q, phy, op⟩
  cases op with
  | interval i v =>
    rw [run_interval ports bus rfl]
    exact ends_intervalSet bus phy hinit (not_not.mp hop)
  | fifoSig mask =>
    rw [not_or, Nat.not_lt] at hop
    obtain ⟨base, hbase⟩ := Option.ne_none_iff_exists'.mp hop.2
    exact ends_fifoSigSet ports bus phy hbase hinit hop.1

/-- A rejected call stores nothing. -/
theorem ends_set_rejected (hrej : k.Rejected ports c) : Ends (RegScript.At c h) (k.run ports bus) (fun _ _ => False)
    fun s => s.conf = c := by
  rcases k with ⟨q, phy, op⟩
  have hconf : ∀ s : Dev (P → PortSettings) H, RegScript.At c h s → s.conf = c := fun s hs => hs.1
  cases op with
  | interval i v =>
    rw [run_interval ports bus rfl]
    refine ends_getConf_bind hconf (Ends.failIf_bind (fun s hs _ => hs.1) fun hinit => ?_)
    refine Ends.failIf_bind (fun s hs _ => hs.1) fun hrange => ?_
    exact absurd hrej (not_or.mpr ⟨hinit, not_not.mpr (not_not.mp hrange)⟩)
  | fifoSig mask =>
    refine Ends.failIf_bind (fun s hs _ => hs.1) fun hfits => ?_
    refine ends_getConf_bind hconf (Ends.failIf_bind (fun s hs _ => hs.1) fun hinit => ?_)
    cases hbase : ports.base q with
    | none => exact Ends.throw fun s hs => hs.1
    | some base =>
      refine absurd hrej (not_or.mpr ⟨hinit, not_or.mpr ⟨hfits, fun h => ?_⟩⟩)
      cases hbase.symm.trans h

end Step

/-! ## In step -/

/-- The values of the last accepted calls; the mask is kept for the first port of a PHY. -/
structure Ledger (P : Type) where
  interval : P → Interval → BitVec 64
  sigMask : P → Mask

section InStep

variable {P H : Type} [DecidableEq P] (ports : Ports P) (bus : Bus (P × TsReg) 32 H) {c : P → PortSettings}
  {ledger : Ledger P} {k : SetCall P}

/-- What is stored at the start. -/
def ledgerOf (c : P → PortSettings) : Ledger P := ⟨fun p => (c p).interval, fun p => (c p).sigMask⟩

/-- A call that has returned goes into the ledger. -/
def Ledger.note (ledger : Ledger P) (k : SetCall P) : Ledger P :=
  match k.op with
  | .interval i v =>
    { ledger with interval := Function.update ledger.interval k.port (Function.update (ledger.interval k.port) i v) }
  | .fifoSig mask =>
    match ports.base k.port with
    | none => ledger
    | some base => { ledger with sigMask := Function.update ledger.sigMask base mask }

/-- What is stored is what is in the ledger. -/
structure SettingsInStep (c : P → PortSettings) (ledger : Ledger P) : Prop where
  interval : ∀ p i, (c p).interval i = ledger.interval p i
  sigMask : ∀ p base, ports.base p = some base → (c base).sigMask = ledger.sigMask base

/-- The value of the call is stored already. -/
def SetCall.Unchanged (c : P → PortSettings) (k : SetCall P) : Prop :=
  match k.op with
  | .interval i v => (c k.port).interval i = v
  | .fifoSig mask => ∀ base, ports.base k.port = some base → (c base).sigMask = mask

/-- A setter that restores its value. -/
def SetCall.Restores (k : SetCall P) : Prop :=
  match k.op with
  | .interval i _ => i.restores = true
  | .fifoSig _ => False

/-- The record of the first port of a PHY, after the mask has been stored. -/
theorem stored_fifoSig_sigMask {p q base base' : P} {phy : PhyView} {mask : Mask} (hbase : ports.base p = some base)
    (hbase' : ports.base q = some base') : ((SetCall.mk p phy (.fifoSig mask)).stored ports c base').sigMask =
      if base' = base then mask else (c base').sigMask := by
  simp only [SetCall.stored, hbase]
  by_cases hbb : base' = base
  · rw [if_pos hbb, hbb, Function.update_self, PortSettings.setSigMask_sigMask]
  · rw [if_neg hbb, Function.update_of_ne hbb]
    have hne : base' ≠ p := by
      rintro rfl
      exact hbb (Option.some.inj ((ports.base_base q base' hbase').symm.trans hbase))
    rw [Function.update_of_ne hne]

theorem stored_fifoSig_interval {p base : P} {phy : PhyView} {mask : Mask} (hbase : ports.base p = some base) (q : P) :
    ((SetCall.mk p phy (.fifoSig mask)).stored ports c q).interval = (c q).interval := by
  simp only [SetCall.stored, hbase]
  by_cases hq : q = base <;> by_cases hp : q = p <;> by_cases hpb : base = p <;> simp_all

theorem stored_inStep (hacc : ¬k.Rejected ports c) (h : SettingsInStep ports c ledger) :
    SettingsInStep ports (k.stored ports c) (ledger.note ports k) := by
  rcases k with ⟨p, phy, op⟩
  cases op with
  | interval i v =>
    refine ⟨fun q j => ?_, fun q base hq => ?_⟩
    · by_cases hqp : q = p
      · subst hqp
        by_cases hji : j = i
        · subst hji
          simp [SetCall.stored, Ledger.note]
        · simp [SetCall.stored, Ledger.note, hji, h.interval]
      · simp [SetCall.stored, Ledger.note, hqp, h.interval]
    · by_cases hbp : base = p
      · subst hbp
        simpa [SetCall.stored, Ledger.note] using h.sigMask q base hq
      · simpa [SetCall.stored, Ledger.note, hbp] using h.sigMask q base hq
  | fifoSig mask =>
    obtain ⟨base, hbase⟩ : ∃ base, ports.base p = some base :=
      Option.ne_none_iff_exists'.mp fun hnone => hacc (Or.inr (Or.inr hnone))
    refine ⟨fun q j => ?_, fun q base' hq => ?_⟩
    · rw [stored_fifoSig_interval ports hbase, h.interval]
      simp only [Ledger.note, hbase]
    · rw [stored_fifoSig_sigMask ports hbase hq]
      by_cases hbb : base' = base
      · subst hbb
        simp [Ledger.note, hbase]
      · simp [Ledger.note, hbase, hbb, h.sigMask q base' hq]

/-- What is stored although programming has failed. -/
theorem leftOver_inStep_iff (hacc : ¬k.Rejected ports c) (h : SettingsInStep ports c ledger) :
    SettingsInStep ports (k.leftOver ports c) ledger ↔ k.Restores ∨ k.Unchanged ports c := by
  rcases k with ⟨p, phy, op⟩
  cases op with
  | interval i v =>
    by_cases hr : i.restores = true
    · simp only [SetCall.leftOver, if_pos hr]
      exact ⟨fun _ => Or.inl hr, fun _ => h⟩
    · simp only [SetCall.leftOver, if_neg hr]
      refine ⟨fun hstored => Or.inr ?_, fun hun => ?_⟩
      · have hval := hstored.interval p i
        rw [← h.interval] at hval
        exact (show v = (c p).interval i by simpa [SetCall.stored] using hval).symm
      · have hsame : (SetCall.mk p phy (.interval i v)).stored ports c = c := by
          have hv : (c p).interval i = v := hun.resolve_left hr
          have hrec : (c p).setInterval i v = c p := by simp [PortSettings.setInterval, ← hv]
          simp only [SetCall.stored, hrec, Function.update_eq_self]
        rwa [hsame]
  | fifoSig mask =>
    obtain ⟨base, hbase⟩ : ∃ base, ports.base p = some base :=
      Option.ne_none_iff_exists'.mp fun hnone => hacc (Or.inr (Or.inr hnone))
    have hbb := ports.base_base p base hbase
    refine ⟨fun hstored => Or.inr fun base' hbase' => ?_, fun hun => ⟨fun q j => ?_, fun q base' hq => ?_⟩⟩
    · obtain rfl := Option.some.inj (hbase.symm.trans hbase')
      have hval := hstored.sigMask base base hbb
      rw [← h.sigMask base base hbb, SetCall.leftOver, stored_fifoSig_sigMask ports hbase hbb, if_pos rfl] at hval
      exact hval.symm
    · rw [SetCall.leftOver, stored_fifoSig_interval ports hbase, h.interval]
    · have hmask := hun.resolve_left id base hbase
      rw [SetCall.leftOver, stored_fifoSig_sigMask ports hbase hq, ← h.sigMask q base' hq]
      split
      · next heq => rw [heq, hmask]
      · rfl

/-- The call is rejected, its setter restores the value or it is stored already, or all of its programming goes through. -/
def Kept (s : Dev (P → PortSettings) H) (k : SetCall P) : Prop :=
  k.Rejected ports s.conf ∨ k.Restores ∨ k.Unchanged ports s.conf ∨ k.Programs bus s.hw

/-- The ledger after a call. -/
def ledgerAfter (ledger : Ledger P) (k : SetCall P) (s : Dev (P → PortSettings) H) : Ledger P :=
  if errorOf (k.run ports bus) s = none then ledger.note ports k else ledger

/-- **One call.** -/
theorem set_keepsStep_iff {s : Dev (P → PortSettings) H} (h : SettingsInStep ports s.conf ledger) :
    SettingsInStep ports (final (k.run ports bus) s).conf (ledgerAfter ports bus ledger k s) ↔ Kept ports bus s k := by
  by_cases hrej : k.Rejected ports s.conf
  · refine ⟨fun _ => Or.inl hrej, fun _ => ?_⟩
    rcases ends_set_rejected ports bus hrej s ⟨rfl, rfl⟩ with ⟨_, _, _, hno⟩ | ⟨e, t, ht, hconf⟩
    · exact hno.elim
    · have hledger : ledgerAfter ports bus ledger k s = ledger := by simp [ledgerAfter, errorOf, ht]
      have hfinal : final (k.run ports bus) s = t := by simp [final, ht]
      rw [hledger, hfinal, hconf]
      exact h
  · rcases ends_set ports bus hrej s ⟨rfl, rfl⟩ with ⟨u, t, ht, hconf, hprog⟩ | ⟨e, t, ht, hconf, hprog⟩
    · have hledger : ledgerAfter ports bus ledger k s = ledger.note ports k := by simp [ledgerAfter, errorOf, ht]
      have hfinal : final (k.run ports bus) s = t := by simp [final, ht]
      rw [hledger, hfinal, hconf]
      exact ⟨fun _ => Or.inr (Or.inr (Or.inr hprog)), fun _ => stored_inStep ports hrej h⟩
    · have hledger : ledgerAfter ports bus ledger k s = ledger := by simp [ledgerAfter, errorOf, ht]
      have hfinal : final (k.run ports bus) s = t := by simp [final, ht]
      rw [hledger, hfinal, hconf, leftOver_inStep_iff ports hrej h, Kept]
      constructor
      · rintro (hr | hun)
        · exact Or.inr (Or.inl hr)
        · exact Or.inr (Or.inr (Or.inl hun))
      · rintro (hr | hr | hun | hp)
        · exact absurd hr hrej
        · exact Or.inl hr
        · exact Or.inr hun
        · exact absurd hp hprog

/-! ## Runs of calls -/

/-- Calls, one after the other, whether they return or fail. -/
def runCalls : List (SetCall P) → Ledger P → Dev (P → PortSettings) H → Ledger P × Dev (P → PortSettings) H
  | [], ledger, s => (ledger, s)
  | k :: ks, ledger, s => runCalls ks (ledgerAfter ports bus ledger k s) (final (k.run ports bus) s)

def KeptAll : List (SetCall P) → Dev (P → PortSettings) H → Prop
  | [], _ => True
  | k :: ks, s => Kept ports bus s k ∧ KeptAll ks (final (k.run ports bus) s)

/-- The getters return what is in the ledger. -/
structure Reports (s : Dev (P → PortSettings) H) (ledger : Ledger P) : Prop where
  interval : ∀ p, (s.conf p).portTsInitDone = true → ∀ i, intervalGet p i s = .ok (ledger.interval p i) s
  sigMask : ∀ p, (s.conf p).portTsInitDone = true → ∀ base, ports.base p = some base →
    fifoSigGet ports p s = .ok (ledger.sigMask base) s

theorem runCalls_inStep (ks : List (SetCall P)) {s : Dev (P → PortSettings) H} (h : SettingsInStep ports s.conf ledger)
    (hkept : KeptAll ports bus ks s) :
    SettingsInStep ports (runCalls ports bus ks ledger s).2.conf (runCalls ports bus ks ledger s).1 := by
  induction ks generalizing ledger s with
  | nil => exact h
  | cons k ks ih => exact ih ((set_keepsStep_iff ports bus h).mpr hkept.1) hkept.2

omit [DecidableEq P] in
theorem reports_of_inStep {s : Dev (P → PortSettings) H} (h : SettingsInStep ports s.conf ledger) :
    Reports ports s ledger where
  interval p hinit i := by
    have hget : intervalGet p i s = .ok ((s.conf p).interval i) s := by
      have hpass : ¬(s.conf p).portTsInitDone = false := fun hno => absurd (hinit.symm.trans hno) (by decide)
      exact congrFun (failIf_bind_of_not hpass) s
    rw [hget, h.interval]
  sigMask p hinit base hbase := by
    have hpass : ¬(s.conf p).portTsInitDone = false := fun hno => absurd (hinit.symm.trans hno) (by decide)
    have hget : fifoSigGet ports p s = .ok (s.conf base).sigMask s := by
      refine (congrFun (failIf_bind_of_not hpass) s).trans ?_
      rw [hbase]
      rfl
    rw [hget, h.sigMask p base hbase]

/-- **Runs of setters.** The getters return the value of the last call that has returned. -/
theorem settings_follow_ok (ks : List (SetCall P)) (s : Dev (P → PortSettings) H) (hkept : KeptAll ports bus ks s) :
    Reports ports (runCalls ports bus ks (ledgerOf s.conf) s).2 (runCalls ports bus ks (ledgerOf s.conf) s).1 :=
  reports_of_inStep ports (runCalls_inStep ports bus ks ⟨fun _ _ => rfl, fun _ _ _ => rfl⟩ hkept)

end InStep

/-! One port, which sets its path delay to a nanosecond. -/

def onePort : Ports Unit := ⟨fun _ => some (), fun _ _ _ => rfl⟩

def onePortStart : Dev (Unit → PortSettings) (Unit × TsReg → BitVec 32) := ⟨fun _ => ⟨true, fun _ => 0, 0⟩, fun _ => 0⟩

def pathDelayCall : SetCall Unit where
  port := ()
  phy := ⟨some fun _ => 0, ⟨0, true, fun _ => false, fun _ => .v4, fun _ => .v4, fun _ => .none⟩⟩
  op := .interval .pathDelay 0x10000

abbrev tsStorage : Bus (Unit × TsReg) 32 (Unit × TsReg → BitVec 32) := (bitStorage _ 32 fun _ _ => false).toBus

theorem settings_follow_ok_single :
    Reports onePort (runCalls onePort tsStorage [pathDelayCall] (ledgerOf onePortStart.conf) onePortStart).2
      (runCalls onePort tsStorage [pathDelayCall] (ledgerOf onePortStart.conf) onePortStart).1 := by
  refine settings_follow_ok onePort tsStorage [pathDelayCall] onePortStart ⟨Or.inr (Or.inr (Or.inr ?_)), trivial⟩
  exact ⟨fun _ => 0, _, rfl, rfl, Option.some_ne_none _⟩

/-- Every write fails. -/
def deadTs : Bus (Unit × TsReg) 32 (Unit × TsReg → BitVec 32) := { tsStorage with wr := fun _ _ h => (.error 1, h) }

/-- A path delay that could not be programmed is what the getter returns. -/
theorem not_settings_follow_ok :
    errorOf (pathDelayCall.run onePort deadTs) onePortStart = some (.access 1) ∧
      intervalGet () .pathDelay (final (pathDelayCall.run onePort deadTs) onePortStart) =
        .ok 0x10000 (final (pathDelayCall.run onePort deadTs) onePortStart) ∧
      ¬Reports onePort (runCalls onePort deadTs [pathDelayCall] (ledgerOf onePortStart.conf) onePortStart).2
        (runCalls onePort deadTs [pathDelayCall] (ledgerOf onePortStart.conf) onePortStart).1 := by
  refine ⟨rfl, rfl, fun h => ?_⟩
  have hval := h.interval () rfl .pathDelay
  injection hval with hval
  exact absurd hval (by decide)

end Lan80xx.VtssTs
