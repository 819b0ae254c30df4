import Lan80xx.Lib.CString
import Lan80xx.Poe.Commands
import Lan80xx.Poe.Firmware

/-!
# PoE controller: is the firmware the same?

Before an update, `is_firmware_version_identical` asks the controller for its version and compares it with the numbers
behind two labels in the head of the firmware file. When they are the same, the update is skipped.

- `identical_of_version`, `checkFirmware_true_iff`: when a run returns true;
- `firmware_identical_iff`: when such a run is right.
-/

namespace Lan80xx.Poe

open RegBus CString

variable {H : Type}

/-! ## Controllers and firmware -/

/-- `meba_poe_controller_type_t` -/
inductive ControllerType
  | autoDetection
  | pd69200
  | pd69210
  | pd69220
  deriving DecidableEq, Repr

/-- `meba_poe_firmware_type_t` -/
inductive FirmwareType
  | preBt
  | bt
  deriving DecidableEq, Repr

/-- The controller that a boot-up error tells of. -/
def BootError.controllerType : BootError → ControllerType
  | .applicationCrcPd69200 | .hwFromBootPd69210IntoPd69200 => .pd69200
  | .applicationCrcPd69210 | .hwFromBootPd69200IntoPd69210 | .sysTypeFromAppPd69220IntoPd69210 => .pd69210
  | .sysTypeFromAppPd69210IntoPd69220 => .pd69220
  | .unknown => .autoDetection

/-- The controller and the firmware that `poe_mcu_type` tells of. The controllers PD69200M are not known by their type. -/
def mcuKind (mcuType : Byte) : ControllerType × Option FirmwareType :=
  if mcuType = 22#8 then (.pd69200, some .preBt)
  else if mcuType = 24#8 then (.pd69200, some .bt)
  else if mcuType = 27#8 then (.pd69210, some .preBt)
  else if mcuType = 26#8 then (.pd69210, some .bt)
  else if mcuType = 28#8 then (.pd69220, some .preBt)
  else if mcuType = 29#8 then (.pd69220, some .bt)
  else if mcuType = 23#8 then (.autoDetection, some .preBt)
  else if mcuType = 25#8 then (.autoDetection, some .bt)
  else (.autoDetection, none)

/-- The firmware for a controller: its file and its product number. -/
structure Builtin where
  path : String
  prodNumber : Byte

/-- The file that is chosen, for BT or not. -/
def builtinFor (isBt : Bool) : ControllerType → Builtin
  | .pd69200 =>
    if isBt then ⟨"/etc/mscc/poe/firmware/pd69200_bt_firmware.s19", 24#8⟩
    else ⟨"/etc/mscc/poe/firmware/pd69200_at_firmware.s19", 22#8⟩
  | .pd69210 =>
    if isBt then ⟨"/etc/mscc/poe/firmware/pd69210_bt_firmware.s19", 26#8⟩
    else ⟨"/etc/mscc/poe/firmware/pd69210_at_firmware.s19", 27#8⟩
  | .pd69220 | .autoDetection =>
    if isBt then ⟨"/etc/mscc/poe/firmware/pd69220_bt_firmware.s19", 29#8⟩
    else ⟨"/etc/mscc/poe/firmware/pd69220_at_firmware.s19", 28#8⟩

/-- What becomes of a file: `open` or `fstat` fails, `mmap` fails, or its bytes can be read, with the zeros behind them up
to the end of the page. -/
inductive FirmwareFile
  | notOpened
  | noSize
  | notMapped
  | mapped (text : Text)

/-! ## The version of the controller -/

/-- The outputs of `meba_poe_pd69200_get_software_version`. -/
structure ChipVersion where
  hwVersion : Byte
  poeMcuType : Byte
  swVersion : BitVec 16
  paramNumber : Byte
  buildNumber : Byte
  internalSwVersion : BitVec 16
  asicPatchNumber : BitVec 16
  deriving DecidableEq

def ChipVersion.read (buf : Msg) : ChipVersion where
  hwVersion := buf.byte 2
  poeMcuType := buf.byte 4
  swVersion := word (buf.byte 5) (buf.byte 6)
  paramNumber := buf.byte 7
  buildNumber := buf.byte 8
  internalSwVersion := word (buf.byte 9) (buf.byte 10)
  asicPatchNumber := word (buf.byte 11) (buf.byte 12)

/-- The version fields of `private_data->status.global`. -/
structure VersionStatus where
  prodNumberDetected : Byte := 0#8
  swVersionDetected : BitVec 16 := 0#16
  paramNumberDetected : Byte := 0#8
  prodNumberFromFile : Byte := 0#8
  swVersionFromFile : BitVec 16 := 0#16
  paramNumberFromFile : Byte := 0#8
  buildNumber : Byte := 0#8
  internalSwVersion : BitVec 16 := 0#16
  asicPatchNumber : BitVec 16 := 0#16
  detectedPoeFirmwareType : FirmwareType := .preBt
  deriving DecidableEq

/-- The version of the controller has been read. -/
def VersionStatus.detected (s : VersionStatus) (v : ChipVersion) : VersionStatus :=
  { s with
    prodNumberDetected := v.poeMcuType
    swVersionDetected := v.swVersion
    paramNumberDetected := v.paramNumber
    buildNumber := v.buildNumber
    internalSwVersion := v.internalSwVersion
    asicPatchNumber := v.asicPatchNumber
    detectedPoeFirmwareType := (mcuKind v.poeMcuType).2.getD s.detectedPoeFirmwareType }

/-- The parts of the driver that the check uses. -/
structure Updater (H : Type) where
  inst : Inst H
  status : VersionStatus := {}
  builtinFirmware : String := ""

/-- What does not change: the parameters of the board, the files, `meba_poe_io_reset` as the controller sees it, and what
the C library makes of a number that is too large. -/
structure UpdateEnv (H : Type) where
  bus : I2c H
  fuel : Nat
  ioReset : H → H
  isBt : Bool
  controllerTypeDefault : ControllerType
  files : String → FirmwareFile
  overflow : Int → BitVec 32

variable (env : UpdateEnv H)

/-- Is there communication with the controller, or has its boot loader told of an error? -/
def checkCommunication (s : Inst H) : Option ((Rc × BootError) × Inst H) :=
  if s.conf.bootError ≠ .unknown ∧ s.conf.isBootError then
    some ((.errPoeFirmUpdateNeeded, s.conf.bootError),
      { s with conf := { s.conf with bufRx := Vector.replicate 15 0#8, bootError := .unknown, isBootError := false } })
  else
    match get15BytesCommProtocolReply env.bus env.fuel (Vector.replicate 15 0#8) systemStatusEchoKey s.hw with
    | none => none
    | some (rc, r) =>
      if rc ≠ .ok ∧ rc ≠ .errPoeRxBufEmpty then
        match get15BytesCommProtocolReply env.bus env.fuel r.rx systemStatusEchoKey (env.ioReset r.hw) with
        | none => none
        | some (rc, r) => some ((rc, r.bootError), { s with hw := r.hw })
      else some ((rc, r.bootError), { s with hw := r.hw })

/-- `meba_poe_pd69200_get_software_version` -/
def pd69200GetSoftwareVersion (s : Inst H) : Option ((Rc × ChipVersion) × Inst H) :=
  (pd69200TxRx env.bus env.fuel getSoftwareVersion s).map fun r => ((r.1.1, .read r.1.2), r.2)

/-! ## The version of the file -/

/-- `MAX_FIRMWARE_HEADER_LEN` -/
def maxFirmwareHeaderLen : Nat := 300

def swNumLabel : Text := ofString "Software Number:"
def paramLabel : Text := ofString "Param Number:"

/-- Where the number stands that a label in the head of the file announces. -/
def headerNumberAt (label text : Text) : Option Text :=
  match strstr label text with
  | some p => if p < maxFirmwareHeaderLen then some (text.drop (p + label.length + 1)) else none
  | none => none

/-- `sw_ver_from_file` and `param_from_file` -/
def versionFromFile (text : Text) : Option (BitVec 16 × Byte) :=
  match headerNumberAt swNumLabel text, headerNumberAt paramLabel text with
  | some sw, some param => some ((atoi env.overflow sw).setWidth 16, (atoi env.overflow param).setWidth 8)
  | _, _ => none

/-- The end of the check, with the text of the firmware. -/
def compareVersions (v : ChipVersion) (text : Text) (s : Updater H) : Bool × Updater H :=
  match versionFromFile env text with
  | none => (false, s)
  | some (sw, param) =>
    (sw = v.swVersion ∧ v.swVersion ≠ 0#16 ∧ param = v.paramNumber,
      { s with status := { s.status with swVersionFromFile := sw, paramNumberFromFile := param } })

/-- `private_data->builtin_firmware` and the product number of the file. -/
def Updater.choose (s : Updater H) (c : ControllerType) : Updater H :=
  { s with
    builtinFirmware := (builtinFor env.isBt c).path
    status := { s.status with prodNumberFromFile := (builtinFor env.isBt c).prodNumber } }

/-- The end of the check, with the firmware that the caller may have given. A file that cannot be opened, or whose size is
not known, is answered with `MESA_RC_ERROR`, which is true. What is not mapped is read anyway: then there is no result. -/
def checkFirmware (firmware : Option Text) (v : ChipVersion) (s : Updater H) : Option (Bool × Updater H) :=
  match firmware with
  | some text => some (compareVersions env v text s)
  | none =>
    match env.files s.builtinFirmware with
    | .notOpened => some (true, s)
    | .noSize => some (true, s)
    | .notMapped => none
    | .mapped text => some (compareVersions env v text s)

/-- `is_firmware_version_identical` -/
def isFirmwareVersionIdentical (firmware : Option Text) (s : Updater H) : Option (Bool × Updater H) :=
  match checkCommunication env s.inst with
  | none => none
  | some ((rc, bootError), inst) =>
    let s : Updater H := ⟨inst, { detectedPoeFirmwareType := s.status.detectedPoeFirmwareType }, s.builtinFirmware⟩
    if rc = .errPoeFirmUpdateNeeded then
      let c := if env.controllerTypeDefault ≠ .autoDetection then env.controllerTypeDefault else bootError.controllerType
      some (false, s.choose env c)
    else
      match pd69200GetSoftwareVersion env s.inst with
      | none => none
      | some ((rc, v), inst) =>
        let s : Updater H := { s with inst }
        if rc ≠ .ok then some (false, s)
        else
          let s : Updater H := { s with status := s.status.detected v }
          if (mcuKind v.poeMcuType).1 = .autoDetection then some (false, s)
          else checkFirmware env firmware v (s.choose env (mcuKind v.poeMcuType).1)

/-! ## When the answer is right -/

/-- What the controller answers to the query for its version, if there is one and it succeeds. -/
def chipVersion? (s : Inst H) : Option ChipVersion :=
  match checkCommunication env s with
  | none => none
  | some ((rc, _), t) =>
    if rc = .errPoeFirmUpdateNeeded then none
    else
      match pd69200GetSoftwareVersion env t with
      | none => none
      | some ((rc, v), _) => if rc = .ok then some v else none

/-- The number behind a label in the head of a file. -/
def fileNumber (label text : Text) : Option Int := (headerNumberAt label text).bind number?

/-- The text of the firmware: that of the caller, or that of the file. -/
def firmwareText (firmware : Option Text) (path : String) : Option Text :=
  match firmware with
  | some text => some text
  | none =>
    match env.files path with
    | .mapped text => some text
    | _ => none

/-- Product number, software version and parameter number are those of the controller. -/
structure SameVersion (v : ChipVersion) (prodNumber : Byte) (text : Text) : Prop where
  prod : prodNumber = v.poeMcuType
  sw : fileNumber swNumLabel text = some (v.swVersion.toNat : Int)
  param : fileNumber paramLabel text = some (v.paramNumber.toNat : Int)

/-- A firmware is only reported as identical when the version of the controller has been read and is that of the file. -/
def IdenticalRight (firmware : Option Text) (s : Updater H) : Prop :=
  ∀ t, isFirmwareVersionIdentical env firmware s = some (true, t) →
    ∃ v text, chipVersion? env s.inst = some v ∧ firmwareText env firmware t.builtinFirmware = some text ∧
      SameVersion v t.status.prodNumberFromFile text

/-- The file can be opened and has a size, when it is used. -/
def Available (firmware : Option Text) (path : String) : Prop :=
  firmware = none → env.files path ≠ .notOpened ∧ env.files path ≠ .noSize

/-- The label is followed by a number that fits into its field. -/
def NumberFits (w : Nat) (label text : Text) : Prop := ∃ n, fileNumber label text = some n ∧ 0 ≤ n ∧ n < 2 ^ w

/-- The low bits of the two numbers behind the labels are the version of the controller, where no number counts as 0. -/
def LooksSame (v : ChipVersion) (text : Text) : Prop :=
  versionFromFile env text = some (v.swVersion, v.paramNumber) ∧ v.swVersion ≠ 0#16

/-- The file that is chosen for a controller can be read, and when it looks the same it is for that product and has numbers
that fit. -/
def VersionSafe (firmware : Option Text) (v : ChipVersion) : Prop :=
  Available env firmware (builtinFor env.isBt (mcuKind v.poeMcuType).1).path ∧
    ∀ text, firmwareText env firmware (builtinFor env.isBt (mcuKind v.poeMcuType).1).path = some text →
      LooksSame env v text →
        (builtinFor env.isBt (mcuKind v.poeMcuType).1).prodNumber = v.poeMcuType ∧ NumberFits 16 swNumLabel text ∧
          NumberFits 8 paramLabel text

section Identical

variable {env} {firmware : Option Text} {v : ChipVersion} {s t : Updater H} {text : Text}

theorem compareVersions_true : compareVersions env v text s = (true, t) → LooksSame env v text ∧
    t.builtinFirmware = s.builtinFirmware ∧ t.status.prodNumberFromFile = s.status.prodNumberFromFile := by
  intro h
  unfold compareVersions at h
  cases hfile : versionFromFile env text with
  | none =>
    rw [hfile] at h
    cases h
  | some r =>
    rw [hfile, Prod.mk.injEq, decide_eq_true_eq] at h
    obtain ⟨⟨hsw, hne, hparam⟩, rfl⟩ := h
    exact ⟨⟨by rw [hfile, ← hsw, ← hparam], hne⟩, rfl, rfl⟩

theorem compareVersions_of_looksSame (h : LooksSame env v text) : (compareVersions env v text s).1 = true := by
  rw [compareVersions, h.1]
  simp [h.2]

/-- The check returns true without the file, or with one that looks the same. -/
theorem checkFirmware_true_iff : (∃ t, checkFirmware env firmware v s = some (true, t)) ↔
    ¬Available env firmware s.builtinFirmware ∨
      ∃ text, firmwareText env firmware s.builtinFirmware = some text ∧ LooksSame env v text := by
  have htext (text : Text) : (∃ t, some (compareVersions env v text s) = some (true, t)) ↔ LooksSame env v text := by
    constructor
    · rintro ⟨t, ht⟩
      exact (compareVersions_true (Option.some.inj ht)).1
    · intro h
      exact ⟨(compareVersions env v text s).2, by rw [← compareVersions_of_looksSame h]⟩
  cases firmware with
  | some text => simpa [checkFirmware, Available, firmwareText] using htext text
  | none =>
    cases hfile : env.files s.builtinFirmware with
    | notOpened => simp [checkFirmware, Available, hfile]
    | noSize => simp [checkFirmware, Available, hfile]
    | notMapped => simp [checkFirmware, Available, firmwareText, hfile]
    | mapped text => simpa [checkFirmware, Available, firmwareText, hfile] using htext text

theorem checkFirmware_keeps {b : Bool} (h : checkFirmware env firmware v s = some (b, t)) :
    t.builtinFirmware = s.builtinFirmware ∧ t.status.prodNumberFromFile = s.status.prodNumberFromFile := by
  have hcompare (text : Text) (h : compareVersions env v text s = (b, t)) :
      t.builtinFirmware = s.builtinFirmware ∧ t.status.prodNumberFromFile = s.status.prodNumberFromFile := by
    unfold compareVersions at h
    cases hfile : versionFromFile env text <;> rw [hfile] at h <;> cases h <;> exact ⟨rfl, rfl⟩
  cases firmware with
  | some text => exact hcompare text (Option.some.inj h)
  | none =>
    unfold checkFirmware at h
    cases hfile : env.files s.builtinFirmware with
    | mapped text =>
      rw [hfile] at h
      exact hcompare text (Option.some.inj h)
    | notMapped =>
      rw [hfile] at h
      cases h
    | notOpened | noSize =>
      rw [hfile] at h
      cases h
      exact ⟨rfl, rfl⟩

/-- With the version of a known controller, the run ends with the check of the file. -/
theorem identical_of_version (hv : chipVersion? env s.inst = some v) (hkind : (mcuKind v.poeMcuType).1 ≠ .autoDetection) :
    ∃ u, isFirmwareVersionIdentical env firmware s =
      checkFirmware env firmware v (Updater.choose env u (mcuKind v.poeMcuType).1) := by
  unfold chipVersion? at hv
  unfold isFirmwareVersionIdentical
  generalize checkCommunication env s.inst = com at hv ⊢
  rcases com with _ | ⟨⟨rc, e⟩, i⟩
  · cases hv
  by_cases hboot : rc = .errPoeFirmUpdateNeeded
  · simp [hboot] at hv
  simp only [hboot, if_false] at hv ⊢
  generalize pd69200GetSoftwareVersion env i = query at hv ⊢
  rcases query with _ | ⟨⟨rc', v'⟩, j⟩
  · cases hv
  by_cases hrc : rc' = .ok
  · obtain rfl : v' = v := by simpa [hrc] using hv
    simp only [hrc, hkind, ne_eq, not_true_eq_false, if_false]
    exact ⟨_, rfl⟩
  · simp [hrc] at hv

theorem version_of_identical (h : isFirmwareVersionIdentical env firmware s = some (true, t)) :
    ∃ v, chipVersion? env s.inst = some v ∧ (mcuKind v.poeMcuType).1 ≠ .autoDetection := by
  unfold isFirmwareVersionIdentical at h
  unfold chipVersion?
  generalize checkCommunication env s.inst = com at h ⊢
  rcases com with _ | ⟨⟨rc, e⟩, i⟩
  · cases h
  by_cases hboot : rc = .errPoeFirmUpdateNeeded
  · simp [hboot] at h
  simp only [hboot, if_false] at h ⊢
  generalize pd69200GetSoftwareVersion env i = query at h ⊢
  rcases query with _ | ⟨⟨rc', v⟩, j⟩
  · cases h
  by_cases hrc : rc' = .ok
  · by_cases hkind : (mcuKind v.poeMcuType).1 = .autoDetection
    · simp [hrc, hkind] at h
    · exact ⟨v, by simp [hrc], hkind⟩
  · simp [hrc] at h

theorem fileNumber_of_bits {label : Text} {w : Nat} {b : BitVec w} {number : Text}
    (hat : headerNumberAt label text = some number)
    (hbits : (atoi env.overflow number).setWidth w = b) (hw : w ≤ 31) (hfits : NumberFits w label text) :
    fileNumber label text = some (b.toNat : Int) := by
  obtain ⟨n, hn, hlo, hhi⟩ := hfits
  rw [hn]
  rw [fileNumber, hat, Option.bind_some] at hn
  rw [eq_of_setWidth_atoi hn hw hlo hhi hbits]

/-- A file that looks the same, with numbers that fit, has the numbers of the controller. -/
theorem numbers_of_looksSame (h : LooksSame env v text) (hsw : NumberFits 16 swNumLabel text)
    (hparam : NumberFits 8 paramLabel text) :
    fileNumber swNumLabel text = some (v.swVersion.toNat : Int) ∧
      fileNumber paramLabel text = some (v.paramNumber.toNat : Int) := by
  obtain ⟨hfile, -⟩ := h
  unfold versionFromFile at hfile
  cases hatSw : headerNumberAt swNumLabel text with
  | none => simp [hatSw] at hfile
  | some sw =>
    cases hatParam : headerNumberAt paramLabel text with
    | none => simp [hatSw, hatParam] at hfile
    | some param =>
      simp only [hatSw, hatParam, Option.some.injEq, Prod.mk.injEq] at hfile
      exact ⟨fileNumber_of_bits hatSw hfile.1 (by decide) hsw, fileNumber_of_bits hatParam hfile.2 (by decide) hparam⟩

/-- For every state, every bus and every file: the answer "identical" is right exactly when for a known controller whose
version is read the chosen file can be read, and is of that version when it looks so. -/
theorem firmware_identical_iff (env : UpdateEnv H) (firmware : Option Text) (s : Updater H) :
    IdenticalRight env firmware s ↔ ∀ v, chipVersion? env s.inst = some v → (mcuKind v.poeMcuType).1 ≠ .autoDetection →
      VersionSafe env firmware v := by
  constructor
  · intro h v hv hkind
    obtain ⟨u, hrun⟩ := @identical_of_version _ env firmware v s hv hkind
    -- a file that cannot be read, or looks the same, is reported as identical
    have hfound (hcheck : ∃ t, checkFirmware env firmware v (u.choose env (mcuKind v.poeMcuType).1) = some (true, t)) :
        ∃ text, firmwareText env firmware (builtinFor env.isBt (mcuKind v.poeMcuType).1).path = some text ∧
          SameVersion v (builtinFor env.isBt (mcuKind v.poeMcuType).1).prodNumber text := by
      obtain ⟨t, ht⟩ := hcheck
      obtain ⟨v', text, hv', htext, hsame⟩ := h t (hrun.trans ht)
      obtain ⟨hpath, hprod⟩ := checkFirmware_keeps ht
      obtain rfl : v' = v := Option.some.inj (hv'.symm.trans hv)
      rw [hpath] at htext
      rw [hprod] at hsame
      exact ⟨text, htext, hsame⟩
    constructor
    · by_contra hnot
      obtain ⟨text, htext, -⟩ := hfound (checkFirmware_true_iff.mpr (Or.inl hnot))
      apply hnot
      rintro rfl
      constructor <;> intro hfile <;> simp [firmwareText, hfile] at htext
    · intro text htext hlooks
      obtain ⟨text', htext', hsame⟩ := hfound (checkFirmware_true_iff.mpr (Or.inr ⟨text, htext, hlooks⟩))
      obtain rfl : text' = text := Option.some.inj (htext'.symm.trans htext)
      exact ⟨hsame.prod, ⟨_, hsame.sw, Int.natCast_nonneg _, by exact_mod_cast v.swVersion.isLt⟩,
        ⟨_, hsame.param, Int.natCast_nonneg _, by exact_mod_cast v.paramNumber.isLt⟩⟩
  · intro h t ht
    obtain ⟨v, hv, hkind⟩ := version_of_identical ht
    obtain ⟨u, hrun⟩ := @identical_of_version _ env firmware v s hv hkind
    obtain ⟨havail, hsafe⟩ := h v hv hkind
    rw [hrun] at ht
    obtain ⟨hpath, hprod⟩ := checkFirmware_keeps ht
    rcases checkFirmware_true_iff.mp ⟨t, ht⟩ with hnot | ⟨text, htext, hlooks⟩
    · exact absurd havail hnot
    · obtain ⟨hmcu, hsw, hparam⟩ := hsafe text htext hlooks
      obtain ⟨hsw', hparam'⟩ := numbers_of_looksSame hlooks hsw hparam
      exact ⟨v, text, hv, by rw [hpath]; exact htext, by rw [hprod]; exact hmcu, hsw', hparam'⟩

end Identical

/-! ### A file that cannot be opened -/

/-- The reply to the query for the version: a PD69200 with firmware for BT. -/
def benchVersion : Msg :=
  pd69200UpdateCheckSum (message [telemetryKey, 0x01#8, 0x00#8, 0x4E#8, 24#8, 0x01#8, 0x63#8, 0x05#8])

/-- An empty receive buffer, and then the reply. -/
def benchUpdater : Updater (List Byte) where
  inst := ⟨{ chipState := .chipsetFound }, List.replicate 30 0x00#8 ++ benchVersion.toList⟩

def benchEnv : UpdateEnv (List Byte) where
  bus := wire
  fuel := 40
  ioReset h := h
  isBt := true
  controllerTypeDefault := .autoDetection
  files _ := .notOpened
  overflow _ := 0#32

/-- A firmware file that cannot be opened is reported as identical. -/
theorem not_firmware_identical : ¬∀ (env : UpdateEnv (List Byte)) (firmware : Option Text) (s : Updater (List Byte)),
    IdenticalRight env firmware s := by
  intro h
  have htrue : (isFirmwareVersionIdentical benchEnv none benchUpdater).map (·.1) = some true := by decide +kernel
  obtain ⟨⟨b, t⟩, hrun, rfl⟩ := Option.map_eq_some_iff.mp htrue
  obtain ⟨v, text, -, htext, -⟩ := h benchEnv none benchUpdater t hrun
  cases htext

end Lan80xx.Poe
