import Lan80xx.Lib.RegWords
import Mathlib.Data.Fintype.Sigma
import Mathlib.Data.Fintype.Sum
import Mathlib.Tactic.DeriveFintype

/-!
# LAN8814: registers and data of a port

The timestamping unit of a port is reached through the extended page registers, named here by `EpReg`; no two names have
one address (`EpReg.addr_inj`). The driver does not look at the result of most accesses: a read that fails leaves the
variable as it was, a write that fails leaves the register as it was, and the call goes on.
-/

namespace Lan80xx.Lan8814

open Fallible RegBus

/-! ## Registers -/

/-- `RX` and `TX` in the names of registers and functions. -/
inductive Direction
  | rx
  | tx
  deriving DecidableEq, Repr

def Direction.other : Direction → Direction
  | .rx => .tx
  | .tx => .rx

/-- The three words of a MAC address: `HI`, `MID`, `LO`. -/
inductive MacWord
  | hi
  | mid
  | lo
  deriving DecidableEq, Repr

/-- `MEPA_SPEED_10M`, `100M` and `1G`. -/
inductive Speed
  | m10
  | m100
  | g1
  deriving DecidableEq, Repr

/-- The extended page registers of pages 4 and 5 that the timestamping calls use; `LAN8814_` and `PTP_` are left out,
and `RX` or `TX` is an argument. -/
inductive EpReg
  | chipLvlIntrStatus
  | pllDiveder
  | cmdCtl
  | refClkCfg
  | ltcHardReset
  | operatingMode
  | tsuIntEn
  | tsuIntSts
  | userMac (d : Direction) (w : MacWord)
  | userIpAddr (d : Direction) (i : Fin 8)
  | userIpMask (d : Direction) (i : Fin 8)
  | vlan1TypeId
  | vlan1IdMask
  | vlan1VidRangeUp
  | vlan1VidRangeLo
  | vlan2TypeId
  | vlan2IdMask
  | vlan2VidRangeUp
  | vlan2VidRangeLo
  | latency (d : Direction) (v : Speed)
  | parseConfig (d : Direction)
  | parseVlanConfig (d : Direction)
  | parseL2AddrEn (d : Direction)
  | parseIpAddrEn (d : Direction)
  | parseUdpSrcPort (d : Direction)
  | parseUdpDestPort (d : Direction)
  | version (d : Direction)
  | domainDomainLo (d : Direction)
  | domainMaskDomainUp (d : Direction)
  | timestampEn (d : Direction)
  | timestampConfig (d : Direction)
  | mod (d : Direction)
  | rsvdByteCfg
  | tailTag
  | cfModEn (d : Direction)
  | cfCfg (d : Direction)
  | pdreqNsHi
  | tsuGenConf
  | tsuHardReset
  deriving DecidableEq, Repr

/-- The address of the receive or the transmit register. -/
def Direction.pick (rx tx : Nat) : Direction → Nat
  | .rx => rx
  | .tx => tx

def MacWord.index : MacWord → Nat
  | .hi => 0
  | .mid => 1
  | .lo => 2

def Speed.index : Speed → Nat
  | .m10 => 0
  | .m100 => 1
  | .g1 => 2

/-- Page and address. -/
def EpReg.addr : EpReg → Nat × Nat
  | .chipLvlIntrStatus => (4, 51)
  | .pllDiveder => (4, 323)
  | .cmdCtl => (4, 512)
  | .refClkCfg => (4, 514)
  | .ltcHardReset => (4, 575)
  | .operatingMode => (4, 577)
  | .tsuIntEn => (5, 512)
  | .tsuIntSts => (5, 513)
  | .userMac d w => (5, d.pick 515 555 + w.index)
  | .userIpAddr d i => (5, d.pick 518 558 + i)
  | .userIpMask d i => (5, d.pick 526 566 + i)
  | .vlan1TypeId => (5, 535)
  | .vlan1IdMask => (5, 536)
  | .vlan1VidRangeUp => (5, 537)
  | .vlan1VidRangeLo => (5, 538)
  | .vlan2TypeId => (5, 539)
  | .vlan2IdMask => (5, 540)
  | .vlan2VidRangeUp => (5, 541)
  | .vlan2VidRangeLo => (5, 542)
  | .latency d v => (5, d.pick 544 545 + 2 * v.index)
  | .parseConfig d => (5, d.pick 578 642)
  | .parseVlanConfig d => (5, d.pick 579 643)
  | .parseL2AddrEn d => (5, d.pick 580 644)
  | .parseIpAddrEn d => (5, d.pick 581 645)
  | .parseUdpSrcPort d => (5, d.pick 582 646)
  | .parseUdpDestPort d => (5, d.pick 583 647)
  | .version d => (5, d.pick 584 648)
  | .domainDomainLo d => (5, d.pick 585 649)
  | .domainMaskDomainUp d => (5, d.pick 586 650)
  | .timestampEn d => (5, d.pick 589 653)
  | .timestampConfig d => (5, d.pick 590 654)
  | .mod d => (5, d.pick 591 655)
  | .rsvdByteCfg => (5, 592)
  | .tailTag => (5, 593)
  | .cfModEn d => (5, d.pick 594 658)
  | .cfCfg d => (5, d.pick 595 659)
  | .pdreqNsHi => (5, 605)
  | .tsuGenConf => (5, 704)
  | .tsuHardReset => (5, 705)

instance : Fintype Direction := ⟨{.rx, .tx}, fun d => by cases d <;> decide⟩
instance : Fintype MacWord := ⟨{.hi, .mid, .lo}, fun w => by cases w <;> decide⟩
instance : Fintype Speed := ⟨{.m10, .m100, .g1}, fun v => by cases v <;> decide⟩

deriving instance Fintype for EpReg

/-- Different registers have different addresses. -/
theorem EpReg.addr_inj : ∀ r q : EpReg, r.addr = q.addr → r = q := by decide +kernel

/-- The registers that the device changes by itself: pending interrupts. -/
def EpReg.status : EpReg → Prop
  | .chipLvlIntrStatus | .tsuIntSts => True
  | _ => False

instance : DecidablePred EpReg.status := fun r => by
  cases r <;> (unfold EpReg.status; infer_instance)

/-! ## Register fields -/

/-- `LAN8814_BIT` -/
def bit (o : Nat) : BitVec 16 := 1#16 <<< o

/-- `LAN8814_ENCODE_BITFIELD` -/
def field (x : BitVec 16) (o w : Nat) : BitVec 16 := (x &&& BitVec.ofNat 16 (2 ^ w - 1)) <<< o

/-- `LAN8814_DEF_MASK` -/
def defMask : BitVec 16 := 0xFFFF#16

/-! ## Accesses -/

/-- A negative return code: `MEPA_RC_ERROR`, or that of a register access. -/
inductive Rc
  | error
  | access (rc : Int)
  deriving DecidableEq, Repr

/-- A call of the driver; `C` is the driver's data. -/
abbrev Call (C H α : Type) := EStateM Rc (Dev C H) α

/-- The registers of a port. The code of a failed access is 0 when only the data word could not be transferred, which
the driver reports as success. -/
abbrev PortBus (H : Type) := Bus EpReg 16 H

abbrev PortRegs (H : Type) := RegFile EpReg 16 H EpReg.status fun _ => False

variable {C H : Type} (bus : PortBus H)

/-- `lan8814_ext_reg_rd`: the return code, and the variable afterwards. -/
def extRegRd (r : EpReg) (val : BitVec 16) : Call C H (Int × BitVec 16) := fun s =>
  match bus.rd r s.hw with
  | (.ok v, h) => .ok (0, v) { s with hw := h }
  | (.error rc, h) => .ok (rc, val) { s with hw := h }

/-- `EP_RD` where the code is not looked at. -/
def epRd (r : EpReg) (val : BitVec 16) : Call C H (BitVec 16) := do
  let res ← extRegRd bus r val
  return res.2

/-- `EP_WRM`, `EP_WR`: the code is not looked at. -/
def epWrm (r : EpReg) (val mask : BitVec 16) : Call C H Unit := do
  let _ ← attempt (writeMasked bus Rc.access r val mask)
  return ()

theorem extRegRd_eq_ok {r : EpReg} (val : BitVec 16) {s : Dev C H} {v : BitVec 16} (h : (bus.rd r s.hw).1 = .ok v) :
    extRegRd bus r val s = .ok (0, v) { s with hw := (bus.rd r s.hw).2 } := by
  simp only [extRegRd]
  rcases hrd : bus.rd r s.hw with ⟨_ | _, h'⟩ <;> simp_all

/-! ## Accesses to a device that answers -/

section Sound

variable (rf : PortRegs H) {h₀ : H} {c : C} {m : EpReg → BitVec 16} {E : Dev C H → Prop}

theorem ends_extRegRd (hs : rf.Sound h₀) {r : EpReg} (hr : ¬r.status) (val : BitVec 16) :
    Ends (Holds rf h₀ c m) (extRegRd rf.toBus r val) (fun res s => Holds rf h₀ c m s ∧ res = (0, m r)) E := by
  rintro s ⟨hc, ha, hm⟩
  obtain ⟨v, hv⟩ := (hs _ ha).1 r
  have hkeep : ∀ q, ¬q.status → rf.peek (rf.rd r s.hw).2 q = m q := fun q hq => (rf.peek_rd r q s.hw hq).trans (hm q hq)
  refine Or.inl ⟨_, _, extRegRd_eq_ok rf.toBus val hv, ⟨hc, .rd r _ ha, hkeep⟩, ?_⟩
  rw [rf.rd_ok r s.hw v hr hv, hm r hr]

theorem ends_epRd (hs : rf.Sound h₀) {r : EpReg} (hr : ¬r.status) (val : BitVec 16) :
    Ends (Holds rf h₀ c m) (epRd rf.toBus r val) (fun v s => Holds rf h₀ c m s ∧ v = m r) E := by
  refine (ends_extRegRd rf hs hr val).bind fun res => Ends.pure fun s hs => ?_
  exact ⟨hs.1, by rw [hs.2]⟩

theorem ends_epWrm (hs : rf.Sound h₀) {r : EpReg} (hr : ¬r.status) (val mask : BitVec 16) :
    Ends (Holds rf h₀ c m) (epWrm rf.toBus r val mask) (fun _ => Holds rf h₀ c (Patch.apply m ⟨r, val, mask⟩)) E := by
  refine (Ends.attempt (ends_writeMasked_holds rf Rc.access r val mask hr)).bind fun o => Ends.pure fun s h => ?_
  rcases h with ⟨_, -, h⟩ | ⟨-, h⟩
  · exact h
  · exact absurd hs h

/-- A write of all bits. -/
theorem apply_defMask (m : EpReg → BitVec 16) (r : EpReg) (val : BitVec 16) :
    Patch.apply m ⟨r, val, defMask⟩ = Function.update m r val := by
  have hmask : defMask = BitVec.allOnes 16 := rfl
  simp only [Patch.apply, hmask, merge_allOnes]

end Sound

end Lan80xx.Lan8814
