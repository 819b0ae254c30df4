import Lan80xx.Lib.RegBus
import Mathlib.Algebra.Group.Nat.Defs

/-!
# PoE controller: messages and bus

A message of the PoE controller has 15 bytes: key, sequence number ("echo"), 11 bytes of data and a checksum of two
bytes. It is sent and received over I2C, where an access can transfer fewer bytes than asked for.
-/

namespace Lan80xx.Poe

open RegBus

abbrev Byte := BitVec 8

/-- `uint8_t buf[PD_BUFFER_SIZE]` -/
abbrev Msg := Vector Byte 15

/-- `buf[i]` -/
def Msg.byte (buf : Msg) (i : Nat) : Byte := buf[i]?.getD 0#8

theorem Msg.first_lt : 0 < 15 := by decide

/-- `buf[0] = b` -/
def Msg.setFirst (buf : Msg) (b : Byte) : Msg := buf.set 0 b first_lt

/-- `mesa_rc` -/
inductive Rc
  | ok
  | error
  | errParm
  | errPoeRxBufEmpty
  | errPoeFirmUpdateNeeded
  | errPoeCommProtErr
  deriving DecidableEq, Repr

/-! ## Keys -/

def commandKey : Byte := 0x00#8
def programKey : Byte := 0x01#8
def requestKey : Byte := 0x02#8
def telemetryKey : Byte := 0x03#8
def reportKey : Byte := 0x52#8
def systemStatusEchoKey : Byte := 0xFF#8

/-! ## The driver's data -/

/-- `meba_poe_chip_state_t` -/
inductive ChipState
  | chipsetDetection
  | noChipsetFound
  | firmwareUpgrade
  | chipsetFound
  deriving DecidableEq, Repr

/-- `Telemetry_at_Boot_Up_Error_e`: `eBoot_Unknown_error`, a CRC error of the application, or a firmware for a device of
another type that the boot loader or the application has refused. -/
inductive BootError
  | unknown
  | applicationCrcPd69200
  | applicationCrcPd69210
  | hwFromBootPd69200IntoPd69210
  | hwFromBootPd69210IntoPd69200
  | sysTypeFromAppPd69220IntoPd69210
  | sysTypeFromAppPd69210IntoPd69220
  deriving DecidableEq, Repr

/-- The static sequence number, and the parts of `poe_driver_private_t` that the transactions use. -/
structure Priv where
  seqNum : Byte := 0#8
  i2cTxErrorCounter : Nat := 0
  chipState : ChipState := .chipsetDetection
  isBootError : Bool := false
  bootError : BootError := .unknown
  bufRx : Msg := Vector.replicate 15 0#8

/-- The driver and the controller. -/
abbrev Inst (H : Type) := Dev Priv H

/-! ## The bus -/

/-- `read` and `write` of the I2C adapter: the bytes that were read, never more than asked for, or nothing for a negative
return value; and whether all bytes were written. -/
structure I2c (H : Type) where
  write : List Byte → H → Bool × H
  read : Nat → H → Option (List Byte) × H
  read_length : ∀ n h data, (read n h).1 = some data → data.length ≤ n

variable {H : Type}

/-- `pd69200_rd`: the bytes, when as many have come as were asked for. -/
def I2c.rd (bus : I2c H) (n : Nat) (h : H) : Option (Vector Byte n) × H :=
  match bus.read n h with
  | (some data, h') => (if hlen : data.length = n then some ⟨data.toArray, by simpa using hlen⟩ else none, h')
  | (none, h') => (none, h')

/-- `pd69200_wr` -/
def pd69200Wr (bus : I2c H) (data : List Byte) (s : Inst H) : Bool × Inst H :=
  match bus.write data s.hw with
  | (true, h) => (true, { s with hw := h })
  | (false, h) =>
    (false, { conf := { s.conf with i2cTxErrorCounter := s.conf.i2cTxErrorCounter + 1 }, hw := h })

/-! ## Sequence number and checksum -/

/-- `get_seq_num(false)` -/
def nextSeqNum (seqNum : Byte) : Byte := if 0xFE#8 ≤ seqNum then 0#8 else seqNum + 1#8

/-- The sum of the bytes before the checksum. -/
def byteSum (buf : Msg) : Nat := (buf.take 13).foldl (fun sum b => sum + b.toNat) 0

/-- The two bytes of the checksum. -/
def checkSum (buf : Msg) : Byte × Byte := (BitVec.ofNat 8 (byteSum buf / 2 ^ 8), BitVec.ofNat 8 (byteSum buf))

/-- `pd69200_update_check_sum` -/
def pd69200UpdateCheckSum (buf : Msg) : Msg := (buf.set 13 (checkSum buf).1).set 14 (checkSum buf).2

/-- `pd69200_check_sum_ok`: rejected when both bytes are wrong. -/
def pd69200CheckSumOk (buf : Msg) : Bool := ¬(buf[13] ≠ (checkSum buf).1 ∧ buf[14] ≠ (checkSum buf).2)

theorem nextSeqNum_ne (seqNum : Byte) : nextSeqNum seqNum ≠ systemStatusEchoKey := by
  unfold nextSeqNum systemStatusEchoKey
  split
  · decide
  · next h =>
    intro heq
    have hle : seqNum = 0xFE#8 := by
      rw [show seqNum = seqNum + 1#8 - 1#8 by rw [BitVec.add_sub_cancel], heq]
      decide
    exact h (by rw [hle]; decide)

end Lan80xx.Poe
