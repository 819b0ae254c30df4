import Lan80xx.Macsec.Types

/-!
# MACsec: registers

The register addresses as the macros of `regs_lan80xx_macsec_egr.h` and `regs_lan80xx_macsec_ingr.h` compute them. The
macros do not parenthesise their argument, so `PAGE1_X(record - 64U)` with `X(ri) = base | (ri*16)` is
`base | (record - 64*16)` in 32-bit arithmetic; the bus takes the low 16 bits of an address.

`statusReg` names the registers that the device changes by itself.
-/

namespace Lan80xx.Macsec

open Fallible RegBus

/-! ## Addresses -/

/-- A register: the MMD it lives in and its 16-bit address. -/
structure IoReg where
  mmd : Nat
  addr : Nat
  deriving DecidableEq, Repr

/-- `MMD_ID_MACSEC_INGR`, `MMD_ID_MACSEC_EGR`. -/
def mmdId : Direction → Nat
  | .ingress => 0x8
  | .egress => 0x1F

/-- `LAN80XX_IOREG`, with the truncation of the access callout. -/
def ioreg (d : Direction) (addr : Nat) : IoReg := ⟨mmdId d, addr % 2 ^ 16⟩

/-- Unsigned 32-bit subtraction. -/
def u32Sub (a b : Nat) : Nat := (a + 2 ^ 32 - b) % 2 ^ 32

/-- `LAN80XX_MACSEC_XFORM_REC_NUM_PAGE0`. -/
def xformRecNumPage0 : Nat := 64

/-- `LAN80XX_MACSEC_SC_REC_PAGE0_NUM`. -/
def scRecPage0Num : Nat := 32

/-- `LAN80XX_MACSEC_XFORM_REC_SIZE`. -/
def xformRecSize : Nat := 24

/-- `LAN80XX_MACSEC_XFORM_REC_ADDR_OFFSET`. -/
def xformRecAddrOffset : Nat := 32

/-- Word `i` of a transform record, as `sa_xform_set` and `sa_xform_reset` address it: the record number is not
reduced for page 1. -/
def xformReg (d : Direction) (record i : Nat) : IoReg :=
  ioreg d (if record < xformRecNumPage0 then (0x0000 + i) ||| (record * xformRecAddrOffset)
    else (0x4000 + i) ||| (record * xformRecAddrOffset))

/-- A TCAM word: `KEY0, 1, 2, 4, 5` at 0, 1, 2, 4, 5 and `MASK0, 1, 2, 4, 5` at 8, 9, 10, 12, 13. -/
inductive TcamWord
  | key0 | key1 | key2 | key4 | key5
  | mask0 | mask1 | mask2 | mask4 | mask5
  deriving DecidableEq, Repr

def TcamWord.off : TcamWord → Nat
  | .key0 => 0x0 | .key1 => 0x1 | .key2 => 0x2 | .key4 => 0x4 | .key5 => 0x5
  | .mask0 => 0x8 | .mask1 => 0x9 | .mask2 => 0xA | .mask4 => 0xC | .mask5 => 0xD

/-- `EIP_TCAM_KEY_MASK_PAGE0_TCAM_*(record)`. -/
def tcamPage0Reg (d : Direction) (w : TcamWord) (record : Nat) : IoReg :=
  ioreg d ((0x800 + w.off) ||| (record * 16))

/-- `EIP_TCAM_KEY_MASK_PAGE1_TCAM_*(record - 64U)`. -/
def tcamPage1Reg (d : Direction) (w : TcamWord) (record : Nat) : IoReg :=
  ioreg d ((0x4800 + w.off) ||| u32Sub record (64 * 16))

/-- The TCAM word of a record. -/
def tcamReg (d : Direction) (w : TcamWord) (record : Nat) : IoReg :=
  if record < xformRecNumPage0 then tcamPage0Reg d w record else tcamPage1Reg d w record

/-- `EIP_TCAM_POLICY_PAGE0_TCAM_POLICY(record)`, or `..PAGE1..(record - 64U)`. -/
def tcamPolicyReg (d : Direction) (record : Nat) : IoReg :=
  ioreg d (if record < xformRecNumPage0 then 0xC00 ||| (record * 1) else 0x4C00 ||| u32Sub record (64 * 1))

/-- `SAM_ENB_CTRL_ENTRY_SET_n` for the record, one bit each. -/
def entrySetReg (d : Direction) (record : Nat) : IoReg := ioreg d (0x1820 + record / 32)

/-- `SAM_ENB_CTRL_ENTRY_CLEAR_n`; the last one for every record from 96 on. -/
def entryClearReg (d : Direction) (record : Nat) : IoReg :=
  ioreg d (if record < 32 then 0x1830 else if record < 64 then 0x1831 else if record < 96 then 0x1832 else 0x1833)

/-- `SAM_ENB_CTRL_SAM_ENTRY_ENABLE_CTRL`. -/
def samEntryEnableCtrlReg (d : Direction) : IoReg := ioreg d 0x1840

/-- `SAM_ENB_CTRL_SAM_IN_FLIGHT`. -/
def samInFlightReg (d : Direction) : IoReg := ioreg d 0x1841

/-- `SC_SA_MAP_PAGE0_SAM_SC_SA_MAPn_X(sc)`, or `..PAGE1..(sc - 32U)`; `n` is 0 for `MAP1` and 1 for `MAP2`. -/
def scSaMapReg (d : Direction) (n sc : Nat) : IoReg :=
  ioreg d (if sc < scRecPage0Num then (0xE00 + n) ||| (sc * 2) else (0x4E00 + n) ||| u32Sub sc (32 * 2))

/-- `EIP_FLOW_CTRL_PAGE0_FLOW_CTRL_n(secy_id)`, or `..PAGE1..(secy_id - 32U)`; the ingress macros of page 1 have the
base of page 0. -/
def flowCtrlReg (d : Direction) (n secyId : Nat) : IoReg :=
  ioreg d (if secyId < scRecPage0Num then (0x1C00 + n) ||| (secyId * 2) else
    match d with
    | .egress => (0x5C00 + n) ||| u32Sub secyId (32 * 2)
    | .ingress => (0x1C00 + n) ||| u32Sub secyId (32 * 2))

/-- `RXSC_CAM_KEY_PAGE0_RXSC_SCI_LO(hw_sc_idx)` (`n = 0`), `.._SCI_HI` (1), `.._CAM_CTRL` (2), or those of page 1. -/
def rxscCamReg (n hwScIdx : Nat) : IoReg :=
  ioreg .ingress (if hwScIdx < scRecPage0Num then (0xD00 + n) ||| (hwScIdx * 4)
    else (0x4D00 + n) ||| u32Sub hwScIdx (32 * 4))

def rxscEntryEnableCtrlReg : IoReg := ioreg .ingress 0xDC0
def miscControlReg (d : Direction) : IoReg := ioreg d 0x1E5F
def pbbEnbSelectReg (d : Direction) : IoReg := ioreg d 0x1E45
def mplsEnbSelectReg : IoReg := ioreg .egress 0x1E4B
def mplsEnbSelect2Reg : IoReg := ioreg .egress 0x1E54
def nextPnLoReg : IoReg := ioreg .ingress 0x3D20
def nextPnHiReg : IoReg := ioreg .ingress 0x3D21
def nextPnCtrlReg : IoReg := ioreg .ingress 0x3D23

/-- Counter word `off` of a record: `STAT_SA_COUNTERS_PAGE0_*_LO(record)`, or `..PAGE1..(record - 64U)`. -/
def saCounterReg (d : Direction) (off record : Nat) : IoReg :=
  ioreg d (if record < xformRecNumPage0 then (0x2000 + off) ||| (record * 32)
    else (0x6000 + off) ||| u32Sub record (64 * 32))

/-- The registers whose content is the device's and not the driver's: pipeline status, counters, and the packet-number
update engine. -/
def statusReg (r : IoReg) : Prop :=
  r.addr = 0x1841 ∨ (0x2000 ≤ r.addr ∧ r.addr < 0x2800) ∨ (0x3D20 ≤ r.addr ∧ r.addr ≤ 0x3D23)

instance : DecidablePred statusReg := fun r => by
  unfold statusReg
  infer_instance

/-- The transform records, whose packet numbers advance with the traffic. -/
def liveReg (r : IoReg) : Prop :=
  r.addr < 0x800 ∨ (0x4000 ≤ r.addr ∧ r.addr < 0x5000)

/-! ## Register fields -/

/-- `LAN80XX_ENCODE_BITFIELD(x, o, w)`. -/
def field (x : BitVec 32) (o w : Nat) : BitVec 32 := (x &&& (BitVec.ofNat 32 (2 ^ w - 1))) <<< o

/-- `LAN80XX_BIT(o)`. -/
def bit (o : Nat) : BitVec 32 := 1#32 <<< o

/-- `LAN80XX_ENCODE_BITMASK(o, w)`. -/
def bitmask (o w : Nat) : BitVec 32 := BitVec.ofNat 32 (2 ^ w - 1) <<< o

/-- `MACSEC_BS`: the two bytes of a 16-bit value exchanged. -/
def macsecBs (x : BitVec 32) : BitVec 32 := ((x >>> 8) &&& 0x00FF) ||| ((x <<< 8) &&& 0xFF00)

/-- Byte `i` of a buffer, as a word. -/
def byteAt {n : Nat} (v : Vector (BitVec 8) n) (i : Nat) : BitVec 32 := (v.toList.getD i 0).setWidth 32

/-- `lan80xx_get_u32(&buf[i])`. -/
def getU32 {n : Nat} (v : Vector (BitVec 8) n) (i : Nat) : BitVec 32 :=
  byteAt v i ||| (byteAt v (i + 1) <<< 8) ||| (byteAt v (i + 2) <<< 16) ||| (byteAt v (i + 3) <<< 24)

/-- A small number as a register word. -/
def word (n : Nat) : BitVec 32 := BitVec.ofNat 32 n

/-! ## Calls of the driver -/

/-- A MACsec call of the driver on a device `H`. -/
abbrev Call (H : Type) (α : Type) := EStateM Rc (Dev MacsecConf H) α

/-- The bus of one port. -/
abbrev PortBus (H : Type) := Bus IoReg 32 H

/-- The register file of one port. -/
abbrev PortRegs (H : Type) := RegFile IoReg 32 H statusReg liveReg

variable {H : Type} (bus : PortBus H)

/-- `LAN80XX_CSR_RD`. -/
def csrRd (r : IoReg) : Call H (BitVec 32) := RegBus.read bus Rc.access r

/-- `LAN80XX_CSR_WR`. -/
def csrWr (r : IoReg) (v : BitVec 32) : Call H Unit := RegBus.write bus Rc.access r v

/-- `LAN80XX_CSR_WRM`. -/
def csrWrm (r : IoReg) (v mask : BitVec 32) : Call H Unit := RegBus.writeMasked bus Rc.access r v mask

/-- `LAN80XX_CSR_WARM_WR`: outside warm start, a masked write of all bits. -/
def csrWarmWr (r : IoReg) (v : BitVec 32) : Call H Unit := csrWrm bus r v 0xFFFFFFFF

/-- `LAN80XX_CSR_WARM_WRM`: outside warm start, a masked write. -/
def csrWarmWrm (r : IoReg) (v mask : BitVec 32) : Call H Unit := csrWrm bus r v mask

/-- `LAN80XX_MACSEC_CNT64_RD`: the two words of a 64-bit register. -/
def csrRd64 (r : IoReg) : Call H (BitVec 64) := do
  let lo ← csrRd bus r
  let hi ← csrRd bus ⟨r.mmd, (r.addr + 1) % 2 ^ 16⟩
  return (hi.setWidth 64 <<< 32) + lo.setWidth 64

/-- `dbg_counter_incr`: the code is counted and returned. -/
def dbgCounterIncr {α : Type} (e : MacsecRc) : Call H α := throw (.macsec e)

/-! ## Sets of register bits -/

/-- All bits of a register. -/
def wordBits (r : IoReg) : Set (IoReg × Nat) := {p | p.1 = r}

/-- The bits of a register under a mask. -/
def maskBits (r : IoReg) (mask : BitVec 32) : Set (IoReg × Nat) := {p | p.1 = r ∧ mask.getLsbD p.2 = true}

section Within

variable {bus} {W : Set (IoReg × Nat)} {r : IoReg}

theorem within_csrRd : Within (hwFrame bus W) (csrRd bus r) := within_read bus Rc.access r

theorem within_csrWr {v : BitVec 32} (hr : wordBits r ⊆ W) : Within (hwFrame bus W) (csrWr bus r v) :=
  within_write bus Rc.access v fun _ _ => hr rfl

theorem within_csrWrm {v mask : BitVec 32} (hr : maskBits r mask ⊆ W) :
    Within (hwFrame bus W) (csrWrm bus r v mask) :=
  within_writeMasked bus Rc.access v fun _ _ hm => hr ⟨rfl, hm⟩

theorem maskBits_subset_wordBits (r : IoReg) (mask : BitVec 32) : maskBits r mask ⊆ wordBits r :=
  fun _ hp => hp.1

theorem within_csrWrm_word {v mask : BitVec 32} (hr : wordBits r ⊆ W) :
    Within (hwFrame bus W) (csrWrm bus r v mask) :=
  within_csrWrm ((maskBits_subset_wordBits r mask).trans hr)

theorem within_csrWarmWr {v : BitVec 32} (hr : wordBits r ⊆ W) : Within (hwFrame bus W) (csrWarmWr bus r v) :=
  within_csrWrm_word hr

theorem within_csrRd64 : Within (hwFrame bus W) (csrRd64 bus r) :=
  within_csrRd.bind fun _ => within_csrRd.bind fun _ => Within.pure _

theorem within_dbgCounterIncr {α : Type} {e : MacsecRc} {F : Frame (Dev MacsecConf H)} :
    Within F (dbgCounterIncr e : Call H α) := Within.throw _

end Within

end Lan80xx.Macsec
