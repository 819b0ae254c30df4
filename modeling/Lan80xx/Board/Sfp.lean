import Mathlib.Data.BitVec

/-!
# Boards: SFP modules

The type of a transceiver is decided twice from the identification ROM of the module: for the information about the
device, and for the driver that is filled in for it.

- `transceiverTypeGet_transceiver`: the two decisions are the same but for a cable below 10 Gb/s, where the first one
  decides nothing;
- `mebaFillDriver_consistent`: the functions of a driver belong to one type;
- `classification_agrees_iff`.
-/

namespace Lan80xx.Board.Sfp

/-! ## Types -/

/-- `meba_sfp_transreceiver_t` -/
inductive Transreceiver
  | none
  | notSupported
  | tr100Fx
  | tr100BaseLx
  | tr100BaseZx
  | tr100BaseSx
  | tr100BaseBx10
  | tr100BaseT
  | tr1000BaseBx10
  | tr1000BaseT
  | tr1000BaseCx
  | tr1000BaseSx
  | tr1000BaseLx
  | tr1000BaseZx
  | tr1000BaseLr
  | tr1000BaseX
  | tr2g5
  | tr5g
  | tr10g
  | tr10gSr
  | tr10gLr
  | tr10gLrm
  | tr10gEr
  | tr10gDac
  | tr25g
  | tr25gSr
  | tr25gLr
  | tr25gLrm
  | tr25gEr
  | tr25gDac
  deriving DecidableEq, Repr

/-- `meba_sfp_device_info_t`. The strings are the bytes that are copied from the ROM and their end. -/
structure DeviceInfo where
  vendorName : List (BitVec 8)
  vendorPn : List (BitVec 8)
  vendorRev : List (BitVec 8)
  vendorSn : List (BitVec 8)
  dateCode : List (BitVec 8)
  transceiver : Transreceiver
  connector : BitVec 8
  deriving DecidableEq, Repr

/-- The functions that a `tr_func_t` may point to. -/
inductive TrFunc
  | tr1000SxGet
  | tr1000LxGet
  | tr1000ZxGet
  | tr1000CxGet
  | tr1000TGet
  | tr1000XGet
  | tr2g5Get
  | tr5gGet
  | tr10gGet
  | tr10gDacGet
  | tr10gSrGet
  | tr10gLrGet
  | tr10gErGet
  | tr10gLrmGet
  | tr25gGet
  | tr25gCrGet
  | tr25gSrGet
  | tr25gLrGet
  | tr25gErGet
  | tr25gLrmGet
  | tr100FxGet
  | tr100LxGet
  | tr100ZxGet
  | tr100SxGet
  deriving DecidableEq, Repr

/-- What each of them leaves in `*tr`. They return `MESA_RC_OK`. -/
def TrFunc.get : TrFunc → Transreceiver
  | tr1000SxGet => .tr1000BaseSx
  | tr1000LxGet => .tr1000BaseLx
  | tr1000ZxGet => .tr1000BaseZx
  | tr1000CxGet => .tr1000BaseCx
  | tr1000TGet => .tr1000BaseT
  | tr1000XGet => .tr1000BaseX
  | tr2g5Get => .tr2g5
  | tr5gGet => .tr5g
  | tr10gGet => .tr10g
  | tr10gDacGet => .tr10gDac
  | tr10gSrGet => .tr10gSr
  | tr10gLrGet => .tr10gLr
  | tr10gErGet => .tr10gEr
  | tr10gLrmGet => .tr10gLrm
  | tr25gGet => .tr25g
  | tr25gCrGet => .tr25gDac
  | tr25gSrGet => .tr25gSr
  | tr25gLrGet => .tr25gLr
  | tr25gErGet => .tr25gEr
  | tr25gLrmGet => .tr25gLrm
  | tr100FxGet => .tr100Fx
  | tr100LxGet => .tr100BaseLx
  | tr100ZxGet => .tr100BaseZx
  | tr100SxGet => .tr100BaseSx

/-- The functions that an `if_func_t`, an `mt_func_t` and a `conf_func_t` may point to. -/
inductive IfFunc
  | fxIfGet
  | ciscoSgmiiIfGet
  | serdesIfGet
  | tr2g5IfGet
  | sfiIfGet
  deriving DecidableEq, Repr

inductive MtFunc
  | sfiMtNoneGet
  | sfiMtGet
  | sfiMtZrGet
  | sfiMtDacGet
  deriving DecidableEq, Repr

inductive ConfFunc
  | ciscoSgmiiConfSet
  | serdesConfSet
  deriving DecidableEq, Repr

/-- `meba_sfp_driver_t`, without the functions that are the same for every driver -/
structure Driver where
  trGet : TrFunc
  ifGet : IfFunc
  mtGet : MtFunc
  confSet : ConfFunc
  productName : List (BitVec 8)
  deriving DecidableEq, Repr

/-- The bytes of the identification ROM that are read. -/
abbrev Rom := Vector (BitVec 8) 92

/-! ## The decisions -/

def sfpMsa1000baseSx : BitVec 8 := 0x01
def sfpMsa1000baseLx : BitVec 8 := 0x02
def sfpMsa1000baseCx : BitVec 8 := 0x04
def sfpMsa1000baseT : BitVec 8 := 0x08
def sfpMsa100baseLx : BitVec 8 := 0x10
def sfpMsa100baseFx : BitVec 8 := 0x20
def sfpMsaBaseBx10 : BitVec 8 := 0x40
def sfpMsaBasePx : BitVec 8 := 0x80

def sfpMsa10gbaseLr : BitVec 8 := 0x20
def sfpMsa10gbaseLrm : BitVec 8 := 0x40
def sfpMsa10gbaseEr : BitVec 8 := 0x80
def sfmMsa10gEther : BitVec 8 := 0xf0

/-- `SFP_MSA_SFP_PLUS_PASSIVE | SFP_MSA_SFP_PLUS_ACTIVE` -/
def sfpMsaSfpPlusCable : BitVec 8 := 0x0c

def sfpMsa25gbaseSr : BitVec 8 := 0x2
def sfpMsa25gbaseLr : BitVec 8 := 0x3
def sfpMsa25gbaseEr : BitVec 8 := 0x4
def sfpMsa25gbaseCrFc : BitVec 8 := 0xc
def sfpMsa25gbaseCr : BitVec 8 := 0xd

section Decisions

variable (rom : Rom)

/-- SFP+ Ethernet compliance codes; only some of them are relevant. -/
def eth10g : BitVec 8 := rom[3] &&& sfmMsa10gEther

/-- Ethernet compliance codes -/
def eth : BitVec 8 := rom[6]

/-- SFP+ cable technology -/
def tech : BitVec 8 := rom[8]

/-- Nominal speed, in units of 100 MBd -/
def speed : BitVec 8 := rom[12]

/-- Extended compliance codes -/
def eth25g : BitVec 8 := rom[36]

/-- The module of 1000BASE-ZX -/
def isZx : Prop := speed rom = 0xd ∧ rom[14] = 0x50 ∧ rom[15] = 0xff ∨ speed rom = 0xc ∧ rom[14] = 0x58 ∧ rom[15] = 0xff

/-- The modules that are not defined in SFF-8472. -/
def isSpecial : Prop := rom[14] = 0 ∧ rom[15] = 0 ∧ rom[16] = 0xc8 ∧ rom[17] = 0xc8 ∧ rom[18] = 0

instance : Decidable (isZx rom) := inferInstanceAs (Decidable (_ ∨ _))

instance : Decidable (isSpecial rom) := inferInstanceAs (Decidable (_ ∧ _))

/-- `transceiver_type_get` -/
def transceiverTypeGet (info : DeviceInfo) : DeviceInfo :=
  if tech rom &&& sfpMsaSfpPlusCable ≠ 0 then
    if 100 ≤ speed rom ∧ speed rom < 250 then { info with transceiver := .tr10gDac }
    else if 250 ≤ speed rom then { info with transceiver := .tr25gDac }
    else info
  else if 100 ≤ speed rom ∧ speed rom < 250 ∧ eth10g rom ≠ 0 then
    if eth10g rom &&& sfpMsa10gbaseEr ≠ 0 then { info with transceiver := .tr10gEr }
    else if eth10g rom &&& sfpMsa10gbaseLrm ≠ 0 then { info with transceiver := .tr10gLrm }
    else if eth10g rom &&& sfpMsa10gbaseLr ≠ 0 then { info with transceiver := .tr10gLr }
    else { info with transceiver := .tr10gSr }
  else if 250 ≤ speed rom ∧ eth25g rom ≠ 0 then
    if eth25g rom = sfpMsa25gbaseSr then { info with transceiver := .tr25gSr }
    else if eth25g rom = sfpMsa25gbaseLr then { info with transceiver := .tr25gLr }
    else if eth25g rom = sfpMsa25gbaseEr then { info with transceiver := .tr25gEr }
    else if eth25g rom = sfpMsa25gbaseCrFc ∨ eth25g rom = sfpMsa25gbaseCr then { info with transceiver := .tr25gDac }
    else { info with transceiver := .tr25gSr }
  else if 250 ≤ speed rom ∧ eth10g rom ≠ 0 then
    if eth10g rom &&& sfpMsa10gbaseEr ≠ 0 then { info with transceiver := .tr25gEr }
    else if eth10g rom &&& sfpMsa10gbaseLrm ≠ 0 then { info with transceiver := .tr25gLrm }
    else if eth10g rom &&& sfpMsa10gbaseLr ≠ 0 then { info with transceiver := .tr25gLr }
    else { info with transceiver := .tr25gSr }
  else if eth rom &&& sfpMsa1000baseSx ≠ 0 then
    if 0x19 ≤ speed rom then { info with transceiver := .tr2g5 } else { info with transceiver := .tr1000BaseSx }
  else if eth rom &&& sfpMsa1000baseCx ≠ 0 then
    if 0x19 ≤ speed rom then { info with transceiver := .tr2g5 } else { info with transceiver := .tr1000BaseCx }
  else if eth rom &&& sfpMsa1000baseT ≠ 0 then { info with transceiver := .tr1000BaseT }
  else if eth rom &&& sfpMsa1000baseLx ≠ 0 then
    if isZx rom then { info with transceiver := .tr1000BaseZx }
    else if 0x19 ≤ speed rom then { info with transceiver := .tr2g5 }
    else { info with transceiver := .tr1000BaseLx }
  else if eth rom &&& sfpMsa100baseFx ≠ 0 then { info with transceiver := .tr100Fx }
  else if eth rom &&& sfpMsa100baseLx ≠ 0 then { info with transceiver := .tr100BaseLx }
  else if eth rom = 0 ∨ eth rom &&& (sfpMsaBaseBx10 ||| sfpMsaBasePx) ≠ 0 then
    if speed rom = 1 ∧ rom[14] = 0x50 ∧ rom[15] = 0xff then { info with transceiver := .tr100BaseZx }
    else if isSpecial rom then
      if speed rom = 1 then { info with transceiver := .tr100BaseSx }
      else if speed rom = 2 then { info with transceiver := .tr100Fx }
      else { info with transceiver := .tr100BaseLx }
    else if speed rom < 10 then { info with transceiver := .tr100BaseLx }
    else if speed rom < 25 then { info with transceiver := .tr1000BaseX }
    else if speed rom < 50 then { info with transceiver := .tr2g5 }
    else if speed rom < 100 then { info with transceiver := .tr5g }
    else if speed rom < 250 then { info with transceiver := .tr10g }
    else { info with transceiver := .tr25g }
  else { info with transceiver := .tr1000BaseSx }

/-- `tr_func_get`, from the compliance codes on -/
def trFuncGetCodes : TrFunc :=
  if 100 ≤ speed rom ∧ speed rom < 250 ∧ eth10g rom ≠ 0 then
    if eth10g rom &&& sfpMsa10gbaseEr ≠ 0 then .tr10gErGet
    else if eth10g rom &&& sfpMsa10gbaseLrm ≠ 0 then .tr10gLrmGet
    else if eth10g rom &&& sfpMsa10gbaseLr ≠ 0 then .tr10gLrGet
    else .tr10gSrGet
  else if 250 ≤ speed rom ∧ eth25g rom ≠ 0 then
    if eth25g rom = sfpMsa25gbaseSr then .tr25gSrGet
    else if eth25g rom = sfpMsa25gbaseLr then .tr25gLrGet
    else if eth25g rom = sfpMsa25gbaseEr then .tr25gErGet
    else if eth25g rom = sfpMsa25gbaseCrFc ∨ eth25g rom = sfpMsa25gbaseCr then .tr25gCrGet
    else .tr25gSrGet
  else if 250 ≤ speed rom ∧ eth10g rom ≠ 0 then
    if eth10g rom &&& sfpMsa10gbaseEr ≠ 0 then .tr25gErGet
    else if eth10g rom &&& sfpMsa10gbaseLrm ≠ 0 then .tr25gLrmGet
    else if eth10g rom &&& sfpMsa10gbaseLr ≠ 0 then .tr25gLrGet
    else .tr25gSrGet
  else if eth rom &&& sfpMsa1000baseSx ≠ 0 then
    if 0x19 ≤ speed rom then .tr2g5Get else .tr1000SxGet
  else if eth rom &&& sfpMsa1000baseCx ≠ 0 then
    if 0x19 ≤ speed rom then .tr2g5Get else .tr1000CxGet
  else if eth rom &&& sfpMsa1000baseT ≠ 0 then .tr1000TGet
  else if eth rom &&& sfpMsa1000baseLx ≠ 0 then
    if isZx rom then .tr1000ZxGet
    else if 0x19 ≤ speed rom then .tr2g5Get
    else .tr1000LxGet
  else if eth rom &&& sfpMsa100baseFx ≠ 0 then .tr100FxGet
  else if eth rom &&& sfpMsa100baseLx ≠ 0 then .tr100LxGet
  else if eth rom = 0 ∨ eth rom &&& (sfpMsaBaseBx10 ||| sfpMsaBasePx) ≠ 0 then
    if speed rom = 1 ∧ rom[14] = 0x50 ∧ rom[15] = 0xff then .tr100ZxGet
    else if isSpecial rom then
      if speed rom = 1 then .tr100SxGet
      else if speed rom = 2 then .tr100FxGet
      else .tr100LxGet
    else if speed rom < 10 then .tr100LxGet
    else if speed rom < 25 then .tr1000XGet
    else if speed rom < 50 then .tr2g5Get
    else if speed rom < 100 then .tr5gGet
    else if speed rom < 250 then .tr10gGet
    else .tr25gGet
  else .tr1000SxGet

/-- `tr_func_get`. A cable below 10 Gb/s goes on to the compliance codes. -/
def trFuncGet : TrFunc :=
  if tech rom &&& sfpMsaSfpPlusCable ≠ 0 then
    if 100 ≤ speed rom ∧ speed rom < 250 then .tr10gDacGet
    else if 250 ≤ speed rom then .tr25gCrGet
    else trFuncGetCodes rom
  else trFuncGetCodes rom

end Decisions

/-- A cable, below 10 Gb/s -/
def SlowCable (rom : Rom) : Prop := tech rom &&& sfpMsaSfpPlusCable ≠ 0 ∧ speed rom < 100

instance (rom : Rom) : Decidable (SlowCable rom) := inferInstanceAs (Decidable (_ ∧ _))

section Agreement

variable {rom : Rom} {info : DeviceInfo}

theorem transceiverTypeGet_of_slow (h : SlowCable rom) : transceiverTypeGet rom info = info := by
  have hspeed : ¬100 ≤ speed rom := BitVec.not_le.mpr h.2
  have hfast : ¬250 ≤ speed rom := fun hle => hspeed (BitVec.le_trans (by decide) hle)
  rw [transceiverTypeGet, if_pos h.1, if_neg (fun hand => hspeed hand.1), if_neg hfast]

/-- One question of both decisions. -/
theorem transceiver_ite {c : Prop} [Decidable c] {a b : DeviceInfo} {f g : TrFunc} (ha : a.transceiver = f.get)
    (hb : b.transceiver = g.get) : (if c then a else b).transceiver = (if c then f else g).get := by
  split
  · exact ha
  · exact hb

/-- Of a module that is no slow cable, the two decisions name one type. -/
theorem transceiverTypeGet_transceiver (h : ¬SlowCable rom) :
    (transceiverTypeGet rom info).transceiver = (trFuncGet rom).get := by
  by_cases hcable : tech rom &&& sfpMsaSfpPlusCable ≠ 0
  · have hspeed : 100 ≤ speed rom := BitVec.not_lt.mp fun hlt => h ⟨hcable, hlt⟩
    rw [transceiverTypeGet, trFuncGet, if_pos hcable, if_pos hcable]
    by_cases hten : speed rom < 250
    · rw [if_pos ⟨hspeed, hten⟩, if_pos ⟨hspeed, hten⟩]
      rfl
    · have hno : ¬(100 ≤ speed rom ∧ speed rom < 250) := fun hand => hten hand.2
      rw [if_neg hno, if_pos (BitVec.not_lt.mp hten), if_neg hno, if_pos (BitVec.not_lt.mp hten)]
      rfl
  · rw [transceiverTypeGet, trFuncGet, if_neg hcable, if_neg hcable, trFuncGetCodes]
    repeat' apply transceiver_ite
    all_goals rfl

/-- A slow cable leaves the type that the caller had. -/
theorem transceiverTypeGet_agrees_iff :
    (∀ info, (transceiverTypeGet rom info).transceiver = (trFuncGet rom).get) ↔ ¬SlowCable rom := by
  constructor
  · intro h hslow
    have hleft (t : Transreceiver) : t = (trFuncGet rom).get := by
      rw [← h ⟨[], [], [], [], [], t, 0⟩, transceiverTypeGet_of_slow hslow]
    cases (hleft .none).trans (hleft .notSupported).symm
  · intro h info
    exact transceiverTypeGet_transceiver h

end Agreement

/-! ## The drivers -/

section Strings

/-- `isprint` -/
def isprint (c : BitVec 8) : Bool := 0x20 ≤ c ∧ c ≤ 0x7e

/-- One turn of the loop of `sfp_strncpy`: the characters behind, and what an unprintable one is replaced with. -/
def strncpyStep (c : BitVec 8) (r : List (BitVec 8) × BitVec 8) : List (BitVec 8) × BitVec 8 :=
  if isprint c ∧ c ≠ 0x20 then (c :: r.1, 0x20) else (r.2 :: r.1, r.2)

/-- `sfp_strncpy`, from the end of the source on -/
def sfpStrncpy (src : List (BitVec 8)) : List (BitVec 8) := (src.foldr strncpyStep ([], 0)).1 ++ [0]

end Strings

/-- What a board reads from the module of a port: the code of `mepa_i2c_read`, and the buffer. -/
structure Inst where
  i2cRead : Nat → Int × Rom

section Calls

variable (inst : Inst) (portNo : Nat)

/-- `get_sfp_rom`. `MEPA_RC_OK` is 0. -/
def getSfpRom : Option Rom :=
  let r := inst.i2cRead portNo
  if r.1 = 0 ∧ r.2[0] = 0x03 then some r.2 else none

/-- `device_info_get`, with the code, and with the function when the caller asks for it -/
def deviceInfoGet (info : DeviceInfo) (wantsTrFunc : Bool) : Bool × DeviceInfo × Option TrFunc :=
  match getSfpRom inst portNo with
  | none => (false, info, none)
  | some rom =>
    let info := transceiverTypeGet rom { info with
      vendorName := sfpStrncpy (rom.extract 20 36).toList
      vendorPn := sfpStrncpy (rom.extract 40 56).toList
      vendorRev := sfpStrncpy (rom.extract 56 60).toList
      vendorSn := sfpStrncpy (rom.extract 68 84).toList
      dateCode := sfpStrncpy (rom.extract 84 92).toList }
    let info := { info with connector := rom[2] }
    if wantsTrFunc then (true, { info with transceiver := (trFuncGet rom).get }, some (trFuncGet rom))
    else (true, info, none)

/-- `if_func_get` -/
def ifFuncGet : Transreceiver → IfFunc
  | .tr100Fx | .tr100BaseLx | .tr100BaseZx | .tr100BaseSx => .fxIfGet
  | .tr1000BaseT => .ciscoSgmiiIfGet
  | .tr1000BaseBx10 | .tr1000BaseCx | .tr1000BaseSx | .tr1000BaseLx | .tr1000BaseZx | .tr1000BaseLr | .tr1000BaseX =>
    .serdesIfGet
  | .tr2g5 => .tr2g5IfGet
  | .tr5g | .tr10g | .tr10gSr | .tr10gLr | .tr10gLrm | .tr10gEr | .tr10gDac | .tr25g | .tr25gSr | .tr25gLr | .tr25gLrm
  | .tr25gEr | .tr25gDac => .sfiIfGet
  | _ => .serdesIfGet

/-- `mt_func_get` -/
def mtFuncGet : Transreceiver → MtFunc
  | .tr10g | .tr25g => .sfiMtNoneGet
  | .tr1000BaseBx10 | .tr1000BaseCx | .tr1000BaseSx | .tr1000BaseX | .tr10gSr | .tr25gSr | .tr10gLrm | .tr25gLrm =>
    .sfiMtGet
  | .tr1000BaseLx | .tr1000BaseZx | .tr10gEr | .tr25gEr | .tr10gLr | .tr25gLr => .sfiMtZrGet
  | .tr1000BaseT | .tr10gDac | .tr25gDac => .sfiMtDacGet
  | _ => .sfiMtNoneGet

/-- `conf_func_get` -/
def confFuncGet (tr : Transreceiver) : ConfFunc := if tr = .tr1000BaseT then .ciscoSgmiiConfSet else .serdesConfSet

/-- `meba_fill_driver`, with the information as it leaves it, and the driver when it has filled it in. The memory for the
name may not be there. -/
def mebaFillDriver (mallocs : Bool) (info : DeviceInfo) : Option Driver × DeviceInfo :=
  match deviceInfoGet inst portNo info true with
  | (true, info, some trFunc) =>
    if mallocs then
      (some {
        trGet := trFunc
        ifGet := ifFuncGet info.transceiver
        mtGet := mtFuncGet info.transceiver
        confSet := confFuncGet info.transceiver
        productName := info.vendorPn }, info)
    else (none, info)
  | (_, info, _) => (none, info)

/-- `meba_sfp_device_info_get` -/
def mebaSfpDeviceInfoGet (info : DeviceInfo) : Bool × DeviceInfo :=
  ((deviceInfoGet inst portNo info false).1, (deviceInfoGet inst portNo info false).2.1)

variable {inst portNo} {mallocs : Bool} {info : DeviceInfo} {driver : Driver} {rom : Rom}

/-- The functions of a driver belong to the type that the information names. -/
theorem mebaFillDriver_consistent (h : (mebaFillDriver inst portNo mallocs info).1 = some driver) :
    ∃ rom, getSfpRom inst portNo = some rom ∧ driver.trGet = trFuncGet rom ∧
      (mebaFillDriver inst portNo mallocs info).2.transceiver = driver.trGet.get ∧
      driver.ifGet = ifFuncGet driver.trGet.get ∧ driver.mtGet = mtFuncGet driver.trGet.get ∧
      driver.confSet = confFuncGet driver.trGet.get ∧
      driver.productName = (mebaFillDriver inst portNo mallocs info).2.vendorPn := by
  cases hrom : getSfpRom inst portNo with
  | none => simp [mebaFillDriver, deviceInfoGet, hrom] at h
  | some rom =>
    simp only [mebaFillDriver, deviceInfoGet, hrom, if_true] at h ⊢
    cases mallocs with
    | false => cases h
    | true =>
      simp only [if_true, Option.some.injEq] at h ⊢
      subst h
      exact ⟨rom, rfl, rfl, rfl, rfl, rfl, rfl, rfl⟩

/-- What a direct reading names. -/
theorem mebaSfpDeviceInfoGet_transceiver (hrom : getSfpRom inst portNo = some rom) :
    (mebaSfpDeviceInfoGet inst portNo info).2.transceiver =
      if SlowCable rom then info.transceiver else (trFuncGet rom).get := by
  simp only [mebaSfpDeviceInfoGet, deviceInfoGet, hrom, Bool.false_eq_true, if_false]
  split
  · next hslow => rw [transceiverTypeGet_of_slow hslow]
  · next hslow => rw [transceiverTypeGet_transceiver hslow]

end Calls

/-! ## Agreement -/

/-- The information that is read directly from a ROM, and the one of the driver that is filled in for the same module,
name the type that the type getter of the driver returns. -/
structure Agrees (rom : Rom) : Prop where
  type : ∀ info, (transceiverTypeGet rom info).transceiver = (trFuncGet rom).get
  infos : ∀ (inst : Inst) (portNo : Nat) (mallocs : Bool) (info info' : DeviceInfo) (driver : Driver),
    getSfpRom inst portNo = some rom → (mebaFillDriver inst portNo mallocs info).1 = some driver →
    (mebaSfpDeviceInfoGet inst portNo info').2.transceiver = driver.trGet.get ∧
      (mebaFillDriver inst portNo mallocs info).2.transceiver = driver.trGet.get

/-- **The two decisions agree on a ROM exactly when it is not that of a slow cable.** -/
theorem classification_agrees_iff (rom : Rom) : Agrees rom ↔ ¬SlowCable rom := by
  constructor
  · intro h
    exact transceiverTypeGet_agrees_iff.mp h.type
  · intro hslow
    constructor
    · exact transceiverTypeGet_agrees_iff.mpr hslow
    · intro inst portNo mallocs info info' driver hrom hdriver
      obtain ⟨rom', hrom', htr, hinfo, -⟩ := mebaFillDriver_consistent hdriver
      obtain rfl := Option.some.inj (hrom.symm.trans hrom')
      constructor
      · rw [mebaSfpDeviceInfoGet_transceiver hrom, if_neg hslow, htr]
      · exact hinfo

/-- A passive cable of 1 Gb/s. -/
def cableRom : Rom := (((Vector.replicate 92 0).set 0 0x03).set 8 0x04).set 12 13

/-- The driver for the cable is one for 1000BASE-X; the information names what the caller's record named before. -/
theorem not_classification_agrees : ¬∀ rom, Agrees rom := by
  intro h
  have hslow : SlowCable cableRom := by decide
  have htype := (h cableRom).type ⟨[], [], [], [], [], .none, 0⟩
  rw [transceiverTypeGet_of_slow hslow] at htype
  have hget : (trFuncGet cableRom).get = .tr1000BaseX := by decide
  cases htype.trans hget

end Lan80xx.Board.Sfp
