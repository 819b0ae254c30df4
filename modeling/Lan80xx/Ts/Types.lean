import Lan80xx.Lib.RegView
import Mathlib.Algebra.Group.Nat.Defs

/-!
# Timestamping: registers and data

The 1588 block of a port has an analyzer for each of three engines and each direction, and a processor. All are windows
of one register block; the local time counter is shared by the ports of a device and belongs to its base port.

- `blkAddress_inj`: the windows do not overlap, so that a register is a block and an address in it.
-/

namespace Lan80xx.Ts

open Fallible RegBus

/-- `MEPA_RC_ERROR`. -/
def rcError : Int := -1

/-! ## Engines -/

/-- `phy25g_ts_engine_t`. -/
inductive Engine
  | ptp0
  | ptp1
  | oam2A
  | oam2B
  | invalid
  deriving DecidableEq, Repr

/-- `phy25g_ts_blk_id_t`. -/
inductive BlkId
  | anaIng0
  | anaEgr0
  | anaIng1
  | anaEgr1
  | anaIng2
  | anaEgr2
  | proc0
  deriving DecidableEq, Repr

/-- `lan80xx_phy_ts_ana_blk_id_get`; both halves of engine 2 have the same analyzer. -/
def anaBlkIdGet (engId : Engine) (ingress : Bool) : Option BlkId :=
  match engId with
  | .ptp0 => some (if ingress then .anaIng0 else .anaEgr0)
  | .ptp1 => some (if ingress then .anaIng1 else .anaEgr1)
  | .oam2A | .oam2B => some (if ingress then .anaIng2 else .anaEgr2)
  | .invalid => none

/-! ## Registers -/

/-- The registers of the 1588 block, and those of the local time counter. -/
inductive TsReg
  | csr (blk : BlkId) (addr : Nat)
  | ptpDomCfg
  | clkPerCfg (ri : Nat)
  deriving DecidableEq, Repr

/-- `biu_addr_map_ptr->mdio_address`. -/
def mdioAddress : BlkId → Nat
  | .anaIng0 => 0xA000
  | .anaEgr0 => 0xA800
  | .anaIng1 => 0xB000
  | .anaEgr1 => 0xB800
  | .anaIng2 => 0xC000
  | .anaEgr2 => 0xC800
  | .proc0 => 0x9000

/-- The address that `lan80xx_phy_ts_write_csr` and `lan80xx_phy_ts_read_csr` use. -/
def blkAddress (blk : BlkId) (csr : Nat) : Nat := mdioAddress blk ||| csr

/-- The windows of the blocks do not overlap. -/
theorem blkAddress_inj {blk blk' : BlkId} {csr csr' : Nat} (hc : csr < 0x800) (hc' : csr' < 0x800)
    (h : blkAddress blk csr = blkAddress blk' csr') : blk = blk' ∧ csr = csr' := by
  have hadd : ∀ blk, ∀ csr < 0x800, blkAddress blk csr = mdioAddress blk + csr := fun blk csr hc => by
    have hor := Nat.two_pow_add_eq_or_of_lt (i := 11) hc (mdioAddress blk / 2 ^ 11)
    cases blk <;> exact hor.symm
  rw [hadd _ _ hc, hadd _ _ hc'] at h
  cases blk <;> cases blk' <;> simp [mdioAddress] at h ⊢ <;> omega

/-- A device with one word of storage for each register. -/
abbrev TsBus (H : Type) := WordBus TsReg 32 H

/-! ## Data -/

/-- `phy25g_oper_speed_mode_t`. -/
inductive Speed
  | none
  | s1G
  | s10G
  | s25G
  deriving DecidableEq, Repr

/-- `phy25g_oper_mode_t`. -/
inductive OperMode
  | pcsRetimer
  | macRetimer
  deriving DecidableEq, Repr

/-- What the latencies of a port depend on. -/
structure PortMode where
  speed : Speed
  rsFec25g : Bool
  operMode : OperMode
  deriving DecidableEq, Repr

/-- `phy25g_phy_ts_tc_op_mode_t`. -/
inductive TcOpMode
  | b
  | a
  | c
  deriving DecidableEq, Repr

/-- What is read of the data of the port. `baseDev` says that it has a base port, `rxTsPosInPtp` that `rx_ts_pos` is
`LAN80XX_PHY_TS_RX_TIMESTAMP_POS_IN_PTP`. -/
structure TsConf where
  baseDev : Bool := true
  portTsInitDone : Bool := true
  mode : PortMode := ⟨.none, false, .pcsRetimer⟩
  engUsed : Bool → Engine → Bool := fun _ _ => false
  chkIngModified : Bool := false
  rxTsPosInPtp : Bool := true
  tcOpMode : TcOpMode := .b
  oneStepTxfifo : Bool := false
  ingressLatency : BitVec 64 := 0
  egressLatency : BitVec 64 := 0
  rateAdj : BitVec 64 := 0

/-- A call on the port. Its error is the return code. -/
abbrev Call (H α : Type) := EStateM Int (Dev TsConf H) α

section Calls

variable {H : Type} (bus : Bus TsReg 32 H)

/-- `LAN80XX_PHY_TS_READ_CSR` -/
def readCsr (blk : BlkId) (addr : Nat) : Call H (BitVec 32) := read bus id (.csr blk addr)

/-- `LAN80XX_PHY_TS_WRITE_CSR` -/
def writeCsr (blk : BlkId) (addr : Nat) (value : BitVec 32) : Call H Unit := write bus id (.csr blk addr) value

/-- `lan80xx_ts_base_port_get_priv`: a port without a base port gets no further. -/
def basePortGet : Call H Unit := do
  let conf ← getConf
  failIf (conf.baseDev = false) rcError

end Calls

/-! ## What a call leads to -/

/-- What holds when the call returns `MEPA_RC_OK`. -/
abbrev Leads {H α : Type} (P : Dev TsConf H → Prop) (x : Call H α) (Q : α → Dev TsConf H → Prop) : Prop :=
  Ends P x Q fun _ => True

section Leads

variable {σ H α : Type} {onWrite : TsReg → BitVec 32 → σ → σ} {shows : TsReg → BitVec 32 → σ → Prop}
  (vb : ViewBus TsReg 32 onWrite shows H) {h₀ : H} {c : TsConf} {m : σ} {Q : α → Dev TsConf H → Prop}

/-- What follows a read goes on with a word that the register may show. -/
theorem leads_read_shown {f : BitVec 32 → Call H α} (r : TsReg)
    (hf : ∀ v, shows r v m → Leads (Sees vb h₀ c m) (f v) Q) : Leads (Sees vb h₀ c m) (read vb.toBus id r >>= f) Q :=
  (ends_read_sees vb id r fun _ _ _ => trivial).bind fun v s hs => hf v hs.2 s hs.1

theorem leads_write (r : TsReg) (v : BitVec 32) :
    Leads (Sees vb h₀ c m) (write vb.toBus id r v) fun _ => Sees vb h₀ c (onWrite r v m) :=
  ends_write_sees vb id r v fun _ _ _ => trivial

theorem leads_getConf {f : TsConf → Call H α} (hf : Leads (Sees vb h₀ c m) (f c) Q) :
    Leads (Sees vb h₀ c m) (getConf >>= f) Q :=
  ends_getConf_sees vb hf

theorem leads_modifyConf (f : TsConf → TsConf) :
    Leads (Sees vb h₀ c m) (modifyConf f : Call H PUnit) fun _ => Sees vb h₀ (f c) m :=
  ends_modifyConf_sees vb f

theorem leads_failIf {b : Prop} [Decidable b] {rc : Int} {f : Unit → Call H α}
    (hf : ¬b → Leads (Sees vb h₀ c m) (f ()) Q) : Leads (Sees vb h₀ c m) (failIf b rc >>= f) Q :=
  Ends.failIf_bind (fun _ _ _ => trivial) hf

theorem leads_basePortGet {f : Unit → Call H α} (hf : Leads (Sees vb h₀ c m) (f ()) Q) :
    Leads (Sees vb h₀ c m) (basePortGet >>= f) Q := by
  refine Ends.bind (Q := fun _ => Sees vb h₀ c m) (leads_getConf vb ?_) fun _ => hf
  exact (Ends.failIf fun _ _ _ => trivial).weaken (fun _ _ h => h.1) fun _ h => h

end Leads

section Words

variable {H α : Type} (tb : TsBus H) {h₀ : H} {c : TsConf} {m : TsReg → BitVec 32} {Q : α → Dev TsConf H → Prop}

/-- What follows a read goes on with the word of the register. -/
theorem leads_read {f : BitVec 32 → Call H α} (r : TsReg) (hf : Leads (Sees tb h₀ c m) (f (m r)) Q) :
    Leads (Sees tb h₀ c m) (read tb.toBus id r >>= f) Q := by
  refine leads_read_shown tb r ?_
  rintro v rfl
  exact hf

theorem leads_writeMasked (r : TsReg) (v mask : BitVec 32) : Leads (Sees tb h₀ c m) (writeMasked tb.toBus id r v mask)
    fun _ => Sees tb h₀ c (Function.update m r (merge (m r) v mask)) :=
  ends_writeMasked_sees tb id r v mask (fun _ h => h) fun _ _ _ => trivial

end Words

/-- A device that is plain storage. -/
def bench : TsBus (TsReg → BitVec 32) := wordStorage TsReg 32

end Lan80xx.Ts
