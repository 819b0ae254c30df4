import Lan80xx.Lan8770.Registers

/-!
# LAN8770: access to the bank registers

A bank register is written through the write-data register and a command in the control register, and is read, in the
same way, through the read-data register. The command that is sent is the write in both cases (`write_ctrlWord`).
-/

namespace Lan80xx.Lan8770

open Fallible RegBus

/-! ## The calls -/

/-- A return code other than OK: `MEPA_RC_ERROR`, `MEPA_RC_ERR_PARM`, that of the MIIM callout (`NOT_IMPLEMENTED` when
there is none), or none yet, in a call that is still running. -/
inductive Rc
  | error
  | errParm
  | access (rc : Int)
  | stuck
  deriving DecidableEq, Repr

/-- A call of the driver; `C` is the driver's data. -/
abbrev Call (C H α : Type) := EStateM Rc (Dev C H) α

variable {C H : Type} (bus : SmiBus H)

/-- `phy_direct_reg_rd` -/
def phyDirectRegRd (offset : BitVec 8) : Call C H (BitVec 16) := read bus Rc.access offset

/-- `phy_direct_reg_wr` -/
def phyDirectRegWr (offset : BitVec 8) (value : BitVec 16) : Call C H Unit := write bus Rc.access offset value

/-- The word that a read-modify-write stores; only the old bits are masked. -/
def modified (val value mask : BitVec 16) : BitVec 16 := (val &&& (mask ^^^ 0xFFFF#16)) ||| value

theorem modified_eq (val value mask : BitVec 16) : modified val value mask = (val &&& ~~~mask) ||| value := by
  have hones : (0xFFFF#16 : BitVec 16) = BitVec.allOnes 16 := rfl
  rw [modified, hones, BitVec.xor_allOnes]

/-- `phy_direct_read_mod_write_register` -/
def phyDirectReadModWriteRegister (offset : BitVec 8) (value mask : BitVec 16) : Call C H Unit := do
  let val ← phyDirectRegRd bus offset
  phyDirectRegWr bus offset (modified val value mask)

/-- Wait until a bit of a register is clear. `timeout` has 16 bits; it is counted down in the loop, and looked at behind
it. -/
def awaitClear (offset : BitVec 8) (busyBit : BitVec 16) (fuel : Nat) : Call C H Unit := do
  let regdata ← phyDirectRegRd bus offset
  let p ← pollWhile Rc.stuck (fun p : BitVec 16 × BitVec 16 => p.1 &&& busyBit ≠ 0#16) (fun p => do
    let regdata ← phyDirectRegRd bus offset
    return (regdata, p.2 - 1)) fuel (regdata, 200)
  failIf (p.2 = 0#16) .error

/-- The command of `phy_ext_bank_reg_rd` and of `phy_ext_bank_reg_wr`, that of a write in both. -/
def ctrlWord (bank : BitVec 16) (offset : BitVec 8) : BitVec 16 := offset.setWidth 16 ||| regBankSet bank ||| wrtCtrl

/-- `phy_ext_bank_reg_rd`; the callers mask `offset` to 8 bits. -/
def phyExtBankRegRd (fuel : Nat) (bank : BitVec 16) (offset : BitVec 8) : Call C H (BitVec 16) :=
  if bank = bankSmi then phyDirectRegRd bus offset
  else if bank ≤ bankInstrument then do
    phyDirectRegWr bus extRegCtrl (ctrlWord bank offset)
    awaitClear bus extRegCtrl readCtrl fuel
    phyDirectRegRd bus extRegRdData
  else throw .errParm

/-- `phy_ext_bank_reg_wr` -/
def phyExtBankRegWr (fuel : Nat) (bank : BitVec 16) (offset : BitVec 8) (value : BitVec 16) : Call C H Unit :=
  if bank = bankSmi then phyDirectRegWr bus offset value
  else if bank ≤ bankInstrument then do
    phyDirectRegWr bus extRegWrData value
    phyDirectRegWr bus extRegCtrl (ctrlWord bank offset)
    awaitClear bus extRegCtrl wrtCtrl fuel
  else throw .errParm

/-- `phy_read_mod_write_register` -/
def phyReadModWriteRegister (fuel : Nat) (bank : BitVec 16) (offset : BitVec 8) (value mask : BitVec 16) : Call C H Unit := do
  let val ← phyExtBankRegRd bus fuel bank offset
  phyExtBankRegWr bus fuel bank offset (modified val value mask)

/-! ## Control words -/

theorem ctrlWord_writes (bank : BitVec 16) (offset : BitVec 8) : (ctrlWord bank offset).getLsbD 11 = true := by
  simp [ctrlWord, wrtCtrl, bit]

theorem ctrlWord_not_reads (bank : BitVec 16) (offset : BitVec 8) : (ctrlWord bank offset).getLsbD 12 = false := by
  simp [ctrlWord, wrtCtrl, bit, regBankSet]

theorem regAddr_ctrlWord (bank : BitVec 16) (offset : BitVec 8) : regAddr (ctrlWord bank offset) = offset := by
  apply BitVec.eq_of_getLsbD_eq
  intro i hi
  have hw : wrtCtrl.getLsbD i = false := by
    rw [wrtCtrl, bit_getLsbD (by decide)]
    exact decide_eq_false (by omega)
  simp only [regAddr, ctrlWord, BitVec.getLsbD_extractLsb', BitVec.getLsbD_or, Nat.zero_add, hw]
  simp [regBankSet, hi, show i < 16 by omega]

theorem regBankGet_ctrlWord (bank : BitVec 16) (offset : BitVec 8) :
    regBankGet (ctrlWord bank offset) = bank.setWidth 3 := by
  apply BitVec.eq_of_getLsbD_eq
  intro i hi
  have hw : wrtCtrl.getLsbD (8 + i) = false := by
    rw [wrtCtrl, bit_getLsbD (by decide)]
    exact decide_eq_false (by omega)
  have ho : offset.getLsbD (8 + i) = false := BitVec.getLsbD_of_ge _ _ (by omega)
  simp only [regBankGet, ctrlWord, BitVec.getLsbD_extractLsb', BitVec.getLsbD_or, BitVec.getLsbD_setWidth, hw, ho]
  have hcases : i = 0 ∨ i = 1 ∨ i = 2 := by omega
  rcases hcases with rfl | rfl | rfl <;> simp [regBankSet]

/-- The operation of both calls: the addressed register takes the write-data word. -/
theorem write_ctrlWord (bank : BitVec 16) (offset : BitVec 8) (m : Words) :
    m.write extRegCtrl (ctrlWord bank offset) = Function.update (Function.update m (.smi extRegCtrl) (ctrlWord bank offset))
      (.bank (bank.setWidth 3) offset) (m (.smi extRegWrData)) := by
  have hne : Reg.smi extRegWrData ≠ .smi extRegCtrl := by decide
  simp only [Words.write, if_true, Words.operate, ctrlWord_writes, regBankGet_ctrlWord, regAddr_ctrlWord,
    Function.update_of_ne hne]

/-! ## Words of a bank access -/

section Words

variable {bank : BitVec 16} {offset : BitVec 8}

/-- The words after the command. -/
abbrev commanded (m : Words) (bank : BitVec 16) (offset : BitVec 8) : Words := m.write extRegCtrl (ctrlWord bank offset)

theorem commanded_ctrl (m : Words) (bank : BitVec 16) (offset : BitVec 8) :
    commanded m bank offset (.smi extRegCtrl) = ctrlWord bank offset := by
  simp [commanded, write_ctrlWord]

theorem commanded_bank (m : Words) (bank : BitVec 16) (offset : BitVec 8) :
    commanded m bank offset (.bank (bank.setWidth 3) offset) = m (.smi extRegWrData) := by
  simp [commanded, write_ctrlWord]

theorem commanded_of_ne (m : Words) {r : Reg} (hw : r ≠ .smi extRegCtrl) (hr : r ≠ .bank (bank.setWidth 3) offset) :
    commanded m bank offset r = m r := by
  simp [commanded, write_ctrlWord, Function.update_of_ne, hw, hr]

/-- The words after the data word of a write. -/
abbrev staged (m : Words) (v : BitVec 16) : Words := m.write extRegWrData v

theorem staged_eq (m : Words) (v : BitVec 16) : staged m v = Function.update m (.smi extRegWrData) v := by
  rw [staged, Words.write_of_ne (by decide), latched_of_ne (by decide)]

theorem staged_of_ne (m : Words) (v : BitVec 16) {r : Reg} (h : r ≠ .smi extRegWrData) : staged m v r = m r := by
  rw [staged_eq, Function.update_of_ne h]

end Words

end Lan80xx.Lan8770
