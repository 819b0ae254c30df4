import Lan80xx.Lib.RegView
import Lan80xx.Lib.RegWords
import Lan80xx.Lib.Polling

/-!
# LAN8770: registers

The SMI registers are reached directly. The registers of the other banks stand behind three of them: the control register
takes bank, offset and command, and the data go through the read-data and the write-data register.

- `Words.write`: what a write of an SMI register does to the words of all registers;
- `SmiRegs`: a device that keeps these words, whatever else it does;
- `smiPhy`: such a device with its busy bits and failing accesses spelled out.
-/

namespace Lan80xx.Lan8770

open Fallible RegBus

/-! ## Registers -/

/-- `LAN8770_BIT` -/
def bit (x : Nat) : BitVec 16 := 1#16 <<< x

theorem bit_getLsbD {x : Nat} (hx : x < 16) (i : Nat) : (bit x).getLsbD i = decide (i = x) :=
  getLsbD_one_shiftLeft x i hx

theorem and_bit_eq_zero_iff {x : Nat} (hx : x < 16) (v : BitVec 16) : v &&& bit x = 0#16 ↔ v.getLsbD x = false :=
  and_one_shiftLeft_eq_zero_iff v hx

/-- A register of the PHY: directly, or at an offset in one of the other banks. -/
inductive Reg
  | smi (offset : BitVec 8)
  | bank (bank : BitVec 3) (offset : BitVec 8)
  deriving DecidableEq, Repr

/-- `LAN8770_PHY_BANK_SMI` -/
def bankSmi : BitVec 16 := 0
/-- `LAN8770_PHY_BANK_MISC` -/
def bankMisc : BitVec 16 := 1
/-- `LAN8770_PHY_BANK_PCS` -/
def bankPcs : BitVec 16 := 2
/-- `LAN8770_PHY_BANK_AFE` -/
def bankAfe : BitVec 16 := 3
/-- `LAN8770_PHY_BANK_DSP` -/
def bankDsp : BitVec 16 := 4
/-- `LAN8770_PHY_BANK_INSTRUMENT` -/
def bankInstrument : BitVec 16 := 5

/-- `LAN8770_BASIC_CONTROL_OFFSET` -/
def basicControl : BitVec 8 := 0x00
/-- `LAN8770_MASTER_SLAVE_CTRL_OFFSET` -/
def masterSlaveCtrl : BitVec 8 := 0x09
/-- `LAN8770_MASTER_SLAVE_STATUS_OFFSET` -/
def masterSlaveStatus : BitVec 8 := 0x0A
/-- `LAN8770_MDIO_CTRL2_OFFSET` -/
def mdioCtrl2 : BitVec 8 := 0x10
/-- `LAN8770_LOOPBACK_CTRL_OFFSET` -/
def loopbackCtrl : BitVec 8 := 0x12
/-- `LAN8770_EXT_REG_CTRL_OFFSET` -/
def extRegCtrl : BitVec 8 := 0x14
/-- `LAN8770_EXT_REG_RD_DATA` -/
def extRegRdData : BitVec 8 := 0x15
/-- `LAN8770_EXT_REG_WR_DATA` -/
def extRegWrData : BitVec 8 := 0x16
/-- `LAN8770_INTR_SRC_OFFSET` -/
def intrSrc : BitVec 8 := 0x18
/-- `LAN8770_INTR_MASK_OFFSET` -/
def intrMask : BitVec 8 := 0x19

/-- `LAN8770_EXT_REG_CTRL_WRT_CTRL` -/
def wrtCtrl : BitVec 16 := bit 11
/-- `LAN8770_EXT_REG_CTRL_READ_CTRL` -/
def readCtrl : BitVec 16 := bit 12

/-- `LAN8770_EXT_REG_CTRL_REG_BANK_SET` -/
def regBankSet (bank : BitVec 16) : BitVec 16 := (bank &&& 7#16) <<< 8

/-- `LAN8770_EXT_REG_CTRL_REG_BANK_GET` -/
def regBankGet (v : BitVec 16) : BitVec 3 := v.extractLsb' 8 3

/-- `LAN8770_EXT_REG_CTRL_REG_ADDR` -/
def regAddr (v : BitVec 16) : BitVec 8 := v.extractLsb' 0 8

/-! ## The words of the registers -/

abbrev Words := Reg → BitVec 16

/-- The basic control register after a soft reset: `DUPLEX_MODE | SPEED_SEL_LSB`. -/
def basicControlDefault : BitVec 16 := 0x2100

/-- What an SMI register holds after a write: a soft reset clears its own bit. -/
def latched (offset : BitVec 8) (v : BitVec 16) : BitVec 16 :=
  if offset = basicControl ∧ v.getLsbD 15 = true then basicControlDefault else v

/-- The operation that a control word asks for. -/
def Words.operate (v : BitVec 16) (m : Words) : Words :=
  if v.getLsbD 11 then Function.update m (.bank (regBankGet v) (regAddr v)) (m (.smi extRegWrData))
  else if v.getLsbD 12 then Function.update m (.smi extRegRdData) (m (.bank (regBankGet v) (regAddr v)))
  else m

/-- The words after a write of an SMI register. -/
def Words.write (offset : BitVec 8) (v : BitVec 16) (m : Words) : Words :=
  if offset = extRegCtrl then Words.operate v (Function.update m (.smi extRegCtrl) v)
  else Function.update m (.smi offset) (latched offset v)

theorem latched_of_ne {offset : BitVec 8} (h : offset ≠ basicControl) (v : BitVec 16) : latched offset v = v :=
  if_neg fun hc => h hc.1

theorem Words.write_of_ne {offset : BitVec 8} (h : offset ≠ extRegCtrl) (v : BitVec 16) (m : Words) :
    m.write offset v = Function.update m (.smi offset) (latched offset v) := if_neg h

/-- The registers that the PHY changes by itself: status and counters, and bits that clear themselves. -/
def Volatile (offset : BitVec 8) : Prop :=
  offset ∈ [0x01, masterSlaveStatus, mdioCtrl2, 0x11, extRegCtrl, intrSrc, 0x1C, 0x1D, 0x1E, 0x1F]

instance : DecidablePred Volatile := fun offset => by unfold Volatile; infer_instance

/-- What a read may return. -/
def Words.Shows (offset : BitVec 8) (v : BitVec 16) (m : Words) : Prop := ¬Volatile offset → v = m (.smi offset)

/-- A PHY behind its SMI, of which the words change only by the driver's writes. -/
abbrev SmiRegs (H : Type) := ViewBus (BitVec 8) 16 Words.write Words.Shows H

abbrev SmiBus (H : Type) := Bus (BitVec 8) 16 H

/-! ## A PHY with busy bits -/

/-- The outcome of an access, by the number of accesses before it; one that fails may have been carried out. -/
inductive Answer
  | ok
  | failed (rc : Int) (carriedOut : Bool)
  deriving DecidableEq, Repr

/-- What the outside decides: the outcome of each access, and for how many polls the operation that it starts shows its
busy bit (`none`: for good). -/
structure Link where
  answer : Nat → Answer
  polls : Nat → Option Nat

/-- The access is answered. -/
def Link.Goes (link : Link) (n : Nat) : Prop := link.answer n = .ok

/-- The access is carried out, answered or not. -/
def Link.Reaches (link : Link) (n : Nat) : Prop := link.answer n = .ok ∨ ∃ rc, link.answer n = .failed rc true

/-- A link on which every access is answered, and operations show the busy bit for `polls` polls. -/
def steadyLink (polls : Option Nat) : Link := ⟨fun _ => .ok, fun _ => polls⟩

/-- The PHY: its words, for how many more polls it is busy, and the accesses so far. -/
structure Phy where
  words : Words
  busy : Option Nat
  accesses : Nat

/-- One poll less. -/
def pollsLeft (busy : Option Nat) : Option Nat := busy.map (· - 1)

/-- The word that a read returns. -/
def Phy.shown (h : Phy) (offset : BitVec 8) : BitVec 16 :=
  if offset = extRegCtrl ∧ h.busy = some 0 then h.words (.smi extRegCtrl) &&& ~~~(wrtCtrl ||| readCtrl)
  else h.words (.smi offset)

/-- The PHY after a write that is carried out. -/
def Phy.put (link : Link) (offset : BitVec 8) (v : BitVec 16) (h : Phy) : Phy where
  words := h.words.write offset v
  busy := if offset = extRegCtrl ∧ (v.getLsbD 11 || v.getLsbD 12) then link.polls h.accesses else h.busy
  accesses := h.accesses + 1

def Phy.rd (link : Link) (offset : BitVec 8) (h : Phy) : Except Int (BitVec 16) × Phy :=
  match link.answer h.accesses with
  | .ok =>
    (.ok (h.shown offset),
      { h with accesses := h.accesses + 1, busy := if offset = extRegCtrl then pollsLeft h.busy else h.busy })
  | .failed rc _ => (.error rc, { h with accesses := h.accesses + 1 })

def Phy.wr (link : Link) (offset : BitVec 8) (v : BitVec 16) (h : Phy) : Except Int Unit × Phy :=
  match link.answer h.accesses with
  | .ok => (.ok (), h.put link offset v)
  | .failed rc true => (.error rc, h.put link offset v)
  | .failed rc false => (.error rc, { h with accesses := h.accesses + 1 })

/-- The words of the PHY change only by writes. -/
def smiPhy (link : Link) : SmiRegs Phy where
  rd := Phy.rd link
  wr := Phy.wr link
  drift h h' := h' = h
  view h := h.words
  view_rd r h := by
    simp only [Phy.rd]
    split <;> rfl
  rd_ok r h v hv := by
    intro hr
    have hne : r ≠ extRegCtrl := fun he => hr (by rw [he]; decide)
    simp only [Phy.rd] at hv
    split at hv
    · cases hv
      simp [Phy.shown, hne]
    · cases hv
  view_wr_ok r v h hw := by
    simp only [Phy.wr] at hw ⊢
    split at hw
    · rfl
    · cases hw
    · cases hw
  view_wr_error r v h e hw := by
    simp only [Phy.wr] at hw ⊢
    split at hw
    · cases hw
    · exact Or.inr rfl
    · exact Or.inl rfl
  view_drift h h' hd := by rw [hd]

end Lan80xx.Lan8770
