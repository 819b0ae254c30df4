import Lan80xx.T1.Types
import Mathlib.Tactic.FinCases

/-!
# T1 PHYs: LEDs

Two LEDs share a register, a half each, and a call about one of them writes the register whole. `isolate_mode_set` of the
LAN887x goes through all configured LEDs; that of the LAN8x8x leaves them alone.

- `ends_configLed`, `ends_configLeds`: the halves after a call;
- `leds_match`: in every run of calls whose neighbours show 0, each half shows what was asked for.
-/

namespace Lan80xx.T1

open Fallible RegBus RegScript

/-! ## The calls -/

/-- The drivers that share the LED code. -/
inductive Chip
  | lan887x
  | lan8x8x
  deriving DecidableEq, Repr

namespace Chip

/-- `LAN887X_CHIPTOP_COMM_LED1_LED0`, `LAN8X8X_COMM_LED1_LED0` -/
def led1Led0 : Chip → Reg
  | lan887x => .mmd .vend1 0x0C04
  | lan8x8x => .mmd .vend1 0xF011

/-- `LAN887X_CHIPTOP_COMM_LED3_LED2`, `LAN8X8X_COMM_LED3_LED2` -/
def led3Led2 : Chip → Reg
  | lan887x => .mmd .vend1 0x0C05
  | lan8x8x => .mmd .vend1 0xF012

/-- `LAN887X_MX_CHIP_TOP_REG_GPIO_DIR`, `LAN8X8X_GPIO_DIR` -/
def gpioDir : Chip → Reg
  | lan887x => .mmd .vend1 0xF00A
  | lan8x8x => .mmd .vend1 0xF020

/-- `LAN887X_MX_CHIP_TOP_REG_CONTROL1`, `LAN8X8X_REG_CONTROL1` -/
def control1 : Chip → Reg
  | lan887x => .mmd .vend1 0xF002
  | lan8x8x => .mmd .vend1 0xFFFF

end Chip

/-- The modes from `MEPA_GPIO_MODE_LED_LINK_ACTIVITY` to `MEPA_GPIO_MODE_LED_DISABLE_EXTENDED`. -/
def GpioMode.isLed (mode : GpioMode) : Bool :=
  decide (GpioMode.ledLinkActivity.ctorIdx ≤ mode.ctorIdx ∧ mode.ctorIdx ≤ GpioMode.ledDisableExtended.ctorIdx)

/-- The value of a LED mode; `none` if it is not supported. -/
def ledValue : GpioMode → Option (BitVec 16)
  | .ledLinkActivity => some 0x0
  | .ledLink1000Activity => some 0x1
  | .ledLink100Activity => some 0x2
  | .ledLinkNoActAnySpeed => some 0x3
  | .ledLocalRxerStatus => some 0x5
  | .ledRemoteRxerStatus => some 0x6
  | .ledNegotiatedSpeed => some 0x7
  | .ledMasterSlaveMode => some 0x8
  | .ledPcsTxErrStatus => some 0x9
  | .ledPcsRxErrStatus => some 0xA
  | .ledPcsTxActivity => some 0xB
  | .ledPcsRxActivity => some 0xC
  | .ledWakeOnLan => some 0xD
  | .ledForceLedOff => some 0xE
  | .ledForceLedOn => some 0xF
  | _ => none

/-- The register of a LED, if there is such a LED. -/
def Chip.ledReg (chip : Chip) (ledNum : Nat) : Option Reg :=
  if ledNum = 0 ∨ ledNum = 1 then some chip.led1Led0
  else if ledNum = 2 ∨ ledNum = 3 then some chip.led3Led2
  else none

/-- The word that is written for a LED. -/
def ledWord (ledNum : Nat) (value : BitVec 16) : BitVec 16 := if ledNum = 1 ∨ ledNum = 3 then value <<< 8 else value

/-- `updata metadata` -/
def PhyData.storeLed {X : Type} (conf : GpioConf) (d : PhyData X) : PhyData X :=
  if h : conf.ledNum < 4 then d.setLedConf ⟨conf.ledNum, h⟩ conf else d

section Calls

variable {X H : Type} (chip : Chip) (bus : Bus Reg 16 H)

/-- `lan887x_config_led`, `lan8x8x_config_led` -/
def configLed (conf : GpioConf) : Call X H Unit :=
  match ledValue conf.mode, chip.ledReg conf.ledNum with
  | some value, some r => script bus [.wr r (ledWord conf.ledNum value)]
  | _, _ => throw .confNotSupported

/-- What `config_leds` asks for a LED. -/
def isolateConf (isolate : Bool) (conf : GpioConf) : GpioConf :=
  { conf with mode := if isolate then .ledForceLedOff else conf.mode }

/-- The loop of `config_leds`, over these LEDs. -/
def configLedsOf (isolate : Bool) : List (Fin 4) → Call X H Unit
  | [] => pure ()
  | i :: is => do
    let d ← getConf
    when ((d.ledConf i).mode.isLed = true) (configLed chip bus (isolateConf isolate (d.ledConf i)))
    configLedsOf isolate is

/-- `lan887x_config_leds`, `lan8x8x_config_leds` -/
def configLeds (isolate : Bool) : Call X H Unit := configLedsOf chip bus isolate [0, 1, 2, 3]

/-- The direction and function of the pin, in `gpio_mode_set_private`. -/
def gpioPinSet (conf : GpioConf) : Call X H Unit :=
  let gpioEn : Bool := conf.mode = .input ∨ conf.mode = .output
  let clkEn : Bool := conf.mode = .ptpRefClk ∨ conf.mode = .ptpRefAdj
  let gpioNo := if conf.mode = .ptpRefClk then 1 else if conf.mode = .ptpRefAdj then 2 else conf.gpioNo.toNat
  if gpioNo < 3 then do
    let val := if gpioEn then bit (4 + gpioNo) else if clkEn then bit (8 + gpioNo) else 0
    let dir := if conf.mode = .output then bit gpioNo else 0
    when (gpioEn = true) (script bus [.change chip.gpioDir dir dir])
    script bus [.change chip.control1 (if gpioEn || clkEn then val else 0) val]
  else throw .notImplemented

/-- `lan887x_gpio_mode_set_private`, `lan8x8x_gpio_mode_set_private` -/
def gpioModeSet (conf : GpioConf) : Call X H Unit := do
  when (conf.mode.isLed = true) do
    configLed chip bus conf
    modifyConf (PhyData.storeLed conf)
  gpioPinSet chip bus conf

/-- The write of `BMCR_ISOLATE` in `isolate_mode_set`. -/
def isolateAccess (en : Bool) : Acc := if en then phyRegSetBits bmcr (bit 10) else phyRegClearBits bmcr (bit 10)

/-- `lan887x_isolate_mode_set`, `lan8x8x_isolate_mode_set` -/
def isolateModeSet (en : Bool) : Call X H Unit :=
  match chip with
  | .lan887x => do
    script bus [isolateAccess en]
    configLeds .lan887x bus en
  | .lan8x8x => script bus [isolateAccess en]

end Calls

/-! ## The halves of the LED registers -/

/-- What the four LEDs show. -/
abbrev LedState := Fin 4 → BitVec 8

/-- The LED in the other half of the register. -/
def mate : Fin 4 → Fin 4
  | 0 => 1
  | 1 => 0
  | 2 => 3
  | 3 => 2

/-- The halves after a call about LED `n`: the register is written whole. -/
def LedState.set (st : LedState) (n : Fin 4) (value : BitVec 8) : LedState := fun k =>
  if k = n then value else if k = mate n then 0 else st k

/-- The register of LED `n`. -/
def Chip.halfReg (chip : Chip) (n : Fin 4) : Reg := if n < 2 then chip.led1Led0 else chip.led3Led2

/-- A bit of the half of LED `n`. -/
def halfBit (n : Fin 4) (b : Fin 8) : Fin 16 := ⟨b + 8 * (n % 2), by omega⟩

/-- The LED registers show `st`. -/
def Chip.Shows (chip : Chip) (m : Bits Reg 16) (st : LedState) : Prop :=
  ∀ n b, m (chip.halfReg n) (halfBit n b) = (st n).getLsbD b

theorem ledReg_eq (chip : Chip) (n : Fin 4) : chip.ledReg n = some (chip.halfReg n) := by
  fin_cases n <;> rfl

theorem ledReg_none_iff (chip : Chip) (k : Nat) : chip.ledReg k = none ↔ 4 ≤ k := by
  unfold Chip.ledReg
  split
  · next h => simp; omega
  · split
    · next h => simp; omega
    · next h h' => simp; omega

theorem halfReg_not_live (chip : Chip) (n : Fin 4) (b : Fin 16) : live (chip.halfReg n) b = false := by
  cases chip <;> fin_cases n <;> rfl

theorem halfReg_eq_iff (chip : Chip) (n k : Fin 4) : chip.halfReg k = chip.halfReg n ↔ k = n ∨ k = mate n := by
  cases chip <;> revert n k <;> decide

/-- The values fit into a half. -/
theorem ledValue_lt {mode : GpioMode} {value : BitVec 16} (h : ledValue mode = some value) (b : Fin 8) :
    value.getLsbD (b + 8) = false := by
  have hall : ∀ mode : GpioMode, (ledValue mode).all fun value => (List.finRange 8).all fun b => !value.getLsbD (b + 8) := by
    intro mode
    cases mode <;> decide
  have := hall mode
  rw [h] at this
  simpa using List.all_eq_true.mp this b (List.mem_finRange b)

/-- The bits of a LED's own half, and of the other one, in the word that is written. -/
theorem ledWord_getLsbD {n k : Fin 4} {value : BitVec 16} (hlt : ∀ b : Fin 8, value.getLsbD (b + 8) = false)
    (hk : k = n ∨ k = mate n) (b : Fin 8) :
    (ledWord n value).getLsbD (halfBit k b) = (LedState.set 0 n (value.setWidth 8) k).getLsbD b := by
  have hb := hlt b
  have hwidth : (value.setWidth 8).getLsbD b = value.getLsbD b := by
    rw [BitVec.getLsbD_setWidth, decide_eq_true b.isLt, Bool.true_and]
  have hup : (value <<< 8).getLsbD (b + 8) = value.getLsbD b := by
    rw [BitVec.getLsbD_shiftLeft]
    simp [show (b : Nat) + 8 < 16 by omega]
  have hdown : (value <<< 8).getLsbD b = false := by
    rw [BitVec.getLsbD_shiftLeft]
    simp
  fin_cases n <;> rcases hk with rfl | rfl <;>
    simp_all [LedState.set, mate, ledWord, halfBit]

/-! ## What the calls do -/

section Ends

variable {X H : Type} (chip : Chip) (rf : PhyBus H) {h₀ : H} {c : PhyData X} {m : Bits Reg 16} {st : LedState}

/-- The driver's data, and what the LED registers show. -/
def LedsAre (h₀ : H) (c : PhyData X) (st : LedState) (s : Dev (PhyData X) H) : Prop :=
  ∃ m, Sees rf h₀ c m s ∧ chip.Shows m st

/-- A call that only an access can make fail. -/
abbrev LedCall (h₀ : H) (c : PhyData X) (st : LedState) (x : Call X H Unit) (c' : PhyData X) (st' : LedState) : Prop :=
  Ends (LedsAre chip rf h₀ c st) x (fun _ => LedsAre chip rf h₀ c' st') fun _ => ¬rf.Sound h₀

theorem ends_script_apart {as : List Acc} (h : ∀ n, chip.halfReg n ∉ writesOf as) :
    LedCall chip rf h₀ c st (script rf.toBus as) c st := by
  rintro s ⟨m, hs, hm⟩
  refine (((ends_script rf as).weaken ?_ fun _ h => h.1) s hs)
  rintro - t ht
  refine ⟨_, ht, fun n b => ?_⟩
  rw [applyAll_frame (h n)]
  exact hm n b

/-- The halves after the write for LED `n`. -/
theorem shows_write {n : Fin 4} {value : BitVec 16} (hlt : ∀ b : Fin 8, value.getLsbD (b + 8) = false)
    (hm : chip.Shows m st) :
    chip.Shows (applyAll live [.wr (chip.halfReg n) (ledWord n value)] m) (st.set n (value.setWidth 8)) := by
  intro k b
  rw [applyAll_wr, onWrite]
  by_cases hk : k = n ∨ k = mate n
  · rw [if_pos ⟨(halfReg_eq_iff chip n k).mpr hk, halfReg_not_live ..⟩, ledWord_getLsbD hlt hk]
    rcases hk with rfl | rfl
    · simp [LedState.set]
    · by_cases hself : mate n = n <;> simp [LedState.set, hself]
  · rw [if_neg fun h => hk ((halfReg_eq_iff chip n k).mp h.1), hm k b]
    rw [not_or] at hk
    simp [LedState.set, hk.1, hk.2]

/-- A LED that exists, with a mode that is supported. -/
theorem ends_configLed {conf : GpioConf} {n : Fin 4} {value : BitVec 16} (hn : conf.ledNum = n)
    (hv : ledValue conf.mode = some value) :
    LedCall chip rf h₀ c st (configLed chip rf.toBus conf) c (st.set n (value.setWidth 8)) := by
  unfold configLed
  rw [hv, hn, ledReg_eq]
  rintro s ⟨m, hs, hm⟩
  exact ((ends_script rf _).weaken (fun _ t ht => ⟨_, ht, shows_write chip (ledValue_lt hv) hm⟩) fun _ h => h.1) s hs

/-- Any other call about a LED changes nothing. -/
theorem configLed_rejected {H : Type} (bus : Bus Reg 16 H) {conf : GpioConf}
    (h : ledValue conf.mode = none ∨ 4 ≤ conf.ledNum) : (configLed chip bus conf : Call X H Unit) = throw .confNotSupported := by
  unfold configLed
  rcases h with h | h
  · rw [h]
  · rw [(ledReg_none_iff chip conf.ledNum).mpr h]
    cases ledValue conf.mode <;> rfl

end Ends

/-! ## What was asked for -/

/-- The code of a supported mode. -/
def ledCode (mode : GpioMode) : BitVec 8 := ((ledValue mode).getD 0).setWidth 8

/-- The code of a mode, forced off while isolated. -/
def shownCode (isolated : Bool) (mode : GpioMode) : BitVec 8 := ledCode (if isolated then .ledForceLedOff else mode)

/-- The modes that were accepted last, and whether the PHY is isolated. -/
structure LedWant where
  mode : Fin 4 → Option GpioMode
  isolated : Bool

/-- What the LEDs should show; a LED that no call was about shows what it did at the start. -/
def LedWant.expected (want : LedWant) (base : LedState) : LedState := fun n =>
  match want.mode n with
  | none => base n
  | some mode => shownCode want.isolated mode

/-- An accepted LED mode. -/
def LedWant.accept (want : LedWant) (conf : GpioConf) : LedWant :=
  if h : conf.mode.isLed = true ∧ conf.ledNum < 4 then
    { want with mode := Function.update want.mode ⟨conf.ledNum, h.2⟩ (some conf.mode) }
  else want

/-- The driver keeps the modes that were accepted. -/
structure LedsKept {X : Type} (want : LedWant) (d : PhyData X) : Prop where
  unset : ∀ n, want.mode n = none → (d.ledConf n).mode.isLed = false
  mode : ∀ n mode, want.mode n = some mode → (d.ledConf n).mode = mode ∧ mode.isLed = true
  ledNum : ∀ n mode, want.mode n = some mode → (d.ledConf n).ledNum = n
  supported : ∀ n mode, want.mode n = some mode → ledValue mode ≠ none

/-- One round of `config_leds`. -/
def LedState.round (want : LedWant) (isolate : Bool) (st : LedState) (n : Fin 4) : LedState :=
  match want.mode n with
  | none => st
  | some mode => st.set n (shownCode isolate mode)

section ConfigLeds

variable {X H : Type} (chip : Chip) (rf : PhyBus H) {h₀ : H} {c : PhyData X} {st : LedState} {want : LedWant}

theorem isolateConf_value {isolate : Bool} {conf : GpioConf} (h : ledValue conf.mode ≠ none) :
    ∃ value, ledValue (isolateConf isolate conf).mode = some value ∧
      value.setWidth 8 = shownCode isolate conf.mode := by
  obtain ⟨value, hv⟩ := Option.ne_none_iff_exists'.mp h
  cases isolate with
  | true => exact ⟨0xE, rfl, rfl⟩
  | false => exact ⟨value, hv, by simp [shownCode, ledCode, hv]⟩

/-- The loop, with the LEDs that the driver keeps. -/
theorem ends_configLedsOf (hkept : LedsKept want c) (isolate : Bool) (is : List (Fin 4)) :
    LedCall chip rf h₀ c st (configLedsOf chip rf.toBus isolate is) c (is.foldl (LedState.round want isolate) st) := by
  induction is generalizing st with
  | nil => exact Ends.pure fun _ h => h
  | cons i is ih =>
    refine ends_getConf_bind (fun _ h => h.choose_spec.1.1) ?_
    refine Ends.bind ?_ fun _ => ih
    cases hi : want.mode i with
    | none =>
      refine Ends.when (fun hled => ?_) fun _ s hs => ?_
      · rw [hkept.unset i hi] at hled
        cases hled
      · simpa [LedState.round, hi] using hs
    | some mode =>
      obtain ⟨hmode, hled⟩ := hkept.mode i mode hi
      refine Ends.when (fun _ => ?_) fun hnot => ?_
      · obtain ⟨value, hv, hcode⟩ := @isolateConf_value isolate (c.ledConf i)
          (by rw [hmode]; exact hkept.supported i mode hi)
        have hround : LedState.round want isolate st i = st.set i (value.setWidth 8) := by
          rw [hcode, hmode]
          simp [LedState.round, hi]
        rw [hround]
        exact ends_configLed chip rf (hkept.ledNum i mode hi) hv
      · rw [hmode] at hnot
        exact absurd hled hnot

/-- The LED whose half is written last in its register. -/
def LedWant.Last (want : LedWant) (n : Fin 4) : Prop := (want.mode n).isSome ∧ (n % 2 = 1 ∨ want.mode (mate n) = none)

theorem round_apart {isolate : Bool} {n k : Fin 4} (hk : k ≠ n) (hm : k ≠ mate n) :
    LedState.round want isolate st n k = st k := by
  unfold LedState.round
  cases want.mode n with
  | none => rfl
  | some mode => simp [LedState.set, hk, hm]

theorem mate_ne (n : Fin 4) : mate n ≠ n := by revert n; decide

theorem mate_mate (n : Fin 4) : mate (mate n) = n := by revert n; decide

/-- The two rounds about one register. -/
theorem rounds_pair {base : LedState} {isolate : Bool} {n k : Fin 4} (hn : n % 2 = 0) (hk : k = n ∨ k = mate n)
    (hlast : ∀ n, want.Last n → ({ want with isolated := isolate } : LedWant).expected base (mate n) = 0)
    (hst : ∀ k, k = n ∨ k = mate n → st k = want.expected base k) :
    LedState.round want isolate (LedState.round want isolate st n) (mate n) k =
      ({ want with isolated := isolate } : LedWant).expected base k := by
  have hne := mate_ne n
  have hne' := (mate_ne n).symm
  have hback := mate_mate n
  have hodd : mate n % 2 = 1 := by
    clear hst hk
    revert n
    decide
  have hown := hst n (Or.inl rfl)
  have hother := hst (mate n) (Or.inr rfl)
  have hlastOwn := hlast n
  have hlastOther := hlast (mate n)
  rw [LedWant.Last, hback] at hlastOther
  rw [LedWant.Last] at hlastOwn
  rcases hk with hk | hk <;> subst k <;> cases hm : want.mode n <;> cases hm' : want.mode (mate n) <;>
    simp_all [LedState.round, LedState.set, LedWant.expected]

/-- The rounds leave every LED as asked for, if the ones beside those written last are to show 0. -/
theorem rounds_eq {base : LedState} {isolate : Bool}
    (hlast : ∀ n, want.Last n → ({ want with isolated := isolate } : LedWant).expected base (mate n) = 0) :
    [0, 1, 2, 3].foldl (LedState.round want isolate) (want.expected base) =
      ({ want with isolated := isolate } : LedWant).expected base := by
  funext k
  have hlow : ∀ k : Fin 4, k = 0 ∨ k = mate 0 → LedState.round want isolate
      (LedState.round want isolate (want.expected base) 0) 1 k =
        ({ want with isolated := isolate } : LedWant).expected base k := fun k hk =>
    rounds_pair (n := 0) rfl hk hlast fun _ _ => rfl
  have hapart : ∀ k : Fin 4, k = 2 ∨ k = mate 2 → LedState.round want isolate
      (LedState.round want isolate (want.expected base) 0) 1 k = want.expected base k := by
    rintro k (rfl | rfl) <;> rw [round_apart (by decide) (by decide), round_apart (by decide) (by decide)]
  have hside : (k = 0 ∨ k = mate 0) ∨ (k = 2 ∨ k = mate 2) := by revert k; decide
  simp only [List.foldl_cons, List.foldl_nil]
  rcases hside with hk | hk
  · rw [round_apart, round_apart, hlow k hk]
    all_goals rcases hk with rfl | rfl <;> decide
  · exact rounds_pair (n := 2) rfl hk hlast hapart

/-- The LAN887x's way through the LEDs, when the ones beside those written last are to show 0. -/
theorem ends_configLeds (hkept : LedsKept want c) {base : LedState} {isolate : Bool}
    (hlast : ∀ n, want.Last n → ({ want with isolated := isolate } : LedWant).expected base (mate n) = 0) :
    LedCall chip rf h₀ c (want.expected base) (configLeds chip rf.toBus isolate) c
      (({ want with isolated := isolate } : LedWant).expected base) := by
  rw [← rounds_eq hlast]
  exact ends_configLedsOf chip rf hkept isolate [0, 1, 2, 3]

end ConfigLeds

/-! ## Calls -/

inductive LedOp
  | mode (conf : GpioConf)
  | isolate (en : Bool)
  deriving DecidableEq, Repr

/-- The call of the operation. -/
def LedOp.call {X H : Type} (chip : Chip) (bus : Bus Reg 16 H) : LedOp → Call X H Unit
  | mode conf => gpioModeSet chip bus conf
  | isolate en => isolateModeSet chip bus en

/-- What is asked for after an operation was accepted. -/
def LedWant.after (want : LedWant) : LedOp → LedWant
  | .mode conf => want.accept conf
  | .isolate en => { want with isolated := en }

/-- The call about a LED is for a GPIO that exists, the other LED of the register shows 0, and an isolated PHY is not
asked for a mode other than forced off. -/
def ModeFits (base : LedState) (want : LedWant) (conf : GpioConf) : Prop :=
  conf.mode.isLed = true → ledValue conf.mode ≠ none → ∀ n : Fin 4, conf.ledNum = n →
    conf.gpioNo.toNat < 3 ∧ want.expected base (mate n) = 0 ∧ (want.isolated = true → conf.mode = .ledForceLedOff)

/-- On the LAN887x the LEDs beside those written last are to show 0; on the LAN8x8x nothing is to change. -/
def IsolateFits (chip : Chip) (base : LedState) (want : LedWant) (en : Bool) : Prop :=
  match chip with
  | .lan887x => ∀ n, want.Last n → ({ want with isolated := en } : LedWant).expected base (mate n) = 0
  | .lan8x8x => ∀ n mode, want.mode n = some mode → shownCode en mode = shownCode want.isolated mode

/-- No access of the call fails, and it finds the other LEDs as it leaves them. -/
def LedFits {X H : Type} (chip : Chip) (rf : PhyBus H) (base : LedState) (x : Dev (PhyData X) H × LedWant) (op : LedOp) :
    Prop :=
  rf.Sound x.1.hw ∧ match op with
    | .mode conf => ModeFits base x.2 conf
    | .isolate en => IsolateFits chip base x.2 en

section Calls

variable {X H : Type} (chip : Chip) (rf : PhyBus H) {h₀ : H} {c : PhyData X} {st : LedState} {want : LedWant}
  {conf : GpioConf} {base : LedState}

theorem gpio_apart {chip : Chip} {r : Reg} (hr : r = chip.gpioDir ∨ r = chip.control1) {mask value : BitVec 16} (n : Fin 4) :
    chip.halfReg n ∉ writesOf [(.change r mask value : Acc)] := by
  rcases hr with rfl | rfl <;> cases chip <;> fin_cases n <;> simp [writesOf, Access.writes] <;> decide

theorem isolate_apart {chip : Chip} (en : Bool) (n : Fin 4) : chip.halfReg n ∉ writesOf [isolateAccess en] := by
  cases en <;> cases chip <;> fin_cases n <;> decide

/-- The pin is none of the LED registers; a pin that does not exist is refused. -/
theorem ends_gpioPinSet (conf : GpioConf) : Ends (LedsAre chip rf h₀ c st) (gpioPinSet chip rf.toBus conf)
    (fun _ => LedsAre chip rf h₀ c st)
    fun t => ¬rf.Sound h₀ ∨ (LedsAre chip rf h₀ c st t ∧ (conf.mode.isLed = true → ¬conf.gpioNo.toNat < 3)) := by
  unfold gpioPinSet
  refine Ends.ite (fun _ => ?_) fun hno => Ends.throw fun t ht => Or.inr ⟨ht, fun hled => ?_⟩
  · refine Ends.bind (Ends.when (T := LedsAre chip rf h₀ c st) (fun _ => ?_) fun _ _ h => h) fun _ => ?_
    · exact (ends_script_apart chip rf (gpio_apart (Or.inl rfl))).weaken (fun _ _ h => h) fun _ h => Or.inl h
    · exact (ends_script_apart chip rf (gpio_apart (Or.inr rfl))).weaken (fun _ _ h => h) fun _ h => Or.inl h
  · have hclk : conf.mode ≠ .ptpRefClk ∧ conf.mode ≠ .ptpRefAdj := by
      constructor <;> intro h <;> rw [h] at hled <;> cases hled
    rwa [if_neg hclk.1, if_neg hclk.2] at hno

/-- The calls that are not about a LED, and those that are not accepted. -/
theorem ends_gpioModeSet_other (h : conf.mode.isLed = false ∨ ledValue conf.mode = none ∨ 4 ≤ conf.ledNum) :
    Ends (LedsAre chip rf h₀ c st) (gpioModeSet chip rf.toBus conf)
      (fun _ t => LedsAre chip rf h₀ c st t ∧ conf.mode.isLed = false)
      fun t => ¬rf.Sound h₀ ∨ LedsAre chip rf h₀ c st t := by
  unfold gpioModeSet
  cases hled : conf.mode.isLed with
  | true =>
    have hrejected := configLed_rejected (X := X) chip rf.toBus (h.resolve_left (by simp [hled]))
    refine Ends.bind (Q := fun _ _ => False) ?_ fun _ s hs => hs.elim
    rw [hrejected]
    exact Ends.ite (fun _ => Ends.bind (Q := fun _ _ => False) (Ends.throw fun t ht => Or.inr ht) fun _ s hs => hs.elim)
      fun hne => absurd rfl hne
  | false =>
    refine Ends.bind (Q := fun _ => LedsAre chip rf h₀ c st)
      (Ends.when (fun h => Bool.noConfusion h) fun _ _ h => h) fun _ => ?_
    refine (ends_gpioPinSet chip rf conf).weaken (fun _ t ht => ⟨ht, rfl⟩) ?_
    rintro t (hno | ⟨ht, -⟩)
    · exact Or.inl hno
    · exact Or.inr ht

/-- An accepted call about LED `n`. -/
theorem ends_gpioModeSet_led {n : Fin 4} (hled : conf.mode.isLed = true) (hv : ledValue conf.mode ≠ none)
    (hn : conf.ledNum = n) (hno : conf.gpioNo.toNat < 3) :
    LedCall chip rf h₀ c st (gpioModeSet chip rf.toBus conf) (c.storeLed conf) (st.set n (ledCode conf.mode)) := by
  obtain ⟨value, hval⟩ := Option.ne_none_iff_exists'.mp hv
  have hcode : ledCode conf.mode = value.setWidth 8 := by simp [ledCode, hval]
  rw [hcode]
  have hstore : LedCall chip rf h₀ c st (do
      configLed chip rf.toBus conf
      modifyConf (PhyData.storeLed conf)) (c.storeLed conf) (st.set n (value.setWidth 8)) := by
    refine (ends_configLed chip rf hn hval).bind fun _ => ends_modifyConf_of ?_
    rintro s ⟨m, ⟨hc, ha, hm⟩, hs⟩
    exact ⟨m, ⟨by rw [hc], ha, hm⟩, hs⟩
  refine Ends.bind (Ends.when (fun _ => hstore) fun h => absurd hled h) fun _ => ?_
  refine (ends_gpioPinSet chip rf conf).weaken (fun _ _ h => h) ?_
  rintro t (hns | ⟨-, hge⟩)
  · exact hns
  · exact absurd hno (hge hled)

/-- The driver keeps the mode of an accepted call. -/
theorem LedsKept.store {n : Fin 4} (hkept : LedsKept want c) (hled : conf.mode.isLed = true) (hv : ledValue conf.mode ≠ none)
    (hn : conf.ledNum = n) : LedsKept (want.accept conf) (c.storeLed conf) := by
  have hlt : conf.ledNum < 4 := hn ▸ n.isLt
  have hidx : (⟨conf.ledNum, hlt⟩ : Fin 4) = n := Fin.ext hn
  have hwant : (want.accept conf).mode = Function.update want.mode n (some conf.mode) := by
    simp [LedWant.accept, hled, hlt, hidx]
  have hdata : (c.storeLed conf).ledConf = Function.update c.ledConf n conf := by
    simp [PhyData.storeLed, hlt, hidx, PhyData.setLedConf]
  constructor <;> intro k <;> rw [hwant] <;> try rw [hdata]
  · by_cases hk : k = n
    · simp [hk]
    · simpa [hk] using hkept.unset k
  · by_cases hk : k = n
    · subst hk
      simp only [Function.update_self, Option.some.injEq]
      rintro mode rfl
      exact ⟨rfl, hled⟩
    · simpa [hk] using hkept.mode k
  · by_cases hk : k = n
    · subst hk
      simp [hn]
    · simpa [hk] using hkept.ledNum k
  · by_cases hk : k = n
    · subst hk
      simp only [Function.update_self, Option.some.injEq]
      rintro mode rfl
      exact hv
    · simpa [hk] using hkept.supported k

/-- An accepted call asks for what the register shows then. -/
theorem expected_accept {n : Fin 4} (hled : conf.mode.isLed = true) (hn : conf.ledNum = n)
    (hmate : want.expected base (mate n) = 0) (hoff : want.isolated = true → conf.mode = .ledForceLedOff) :
    (want.expected base).set n (ledCode conf.mode) = (want.accept conf).expected base := by
  have hlt : conf.ledNum < 4 := hn ▸ n.isLt
  have hidx : (⟨conf.ledNum, hlt⟩ : Fin 4) = n := Fin.ext hn
  have hwant : want.accept conf = ⟨Function.update want.mode n (some conf.mode), want.isolated⟩ := by
    simp [LedWant.accept, hled, hlt, hidx]
  have hcode : shownCode want.isolated conf.mode = ledCode conf.mode := by
    cases hi : want.isolated with
    | true => rw [hoff hi]; rfl
    | false => rfl
  funext k
  by_cases hk : k = n
  · subst hk
    simp [LedState.set, hwant, LedWant.expected, hcode]
  · by_cases hkm : k = mate n
    · subst hkm
      rw [LedState.set, if_neg (mate_ne n), if_pos rfl, ← hmate]
      simp [hwant, LedWant.expected, mate_ne n]
    · simp [LedState.set, hwant, LedWant.expected, hk, hkm]

theorem ends_isolateModeSet {en : Bool} (hkept : LedsKept want c) (hfits : IsolateFits chip base want en) :
    LedCall chip rf h₀ c (want.expected base) (isolateModeSet chip rf.toBus en) c
      (({ want with isolated := en } : LedWant).expected base) := by
  cases chip with
  | lan887x =>
    exact (ends_script_apart .lan887x rf (isolate_apart en)).bind fun _ => ends_configLeds .lan887x rf hkept hfits
  | lan8x8x =>
    have hsame : ({ want with isolated := en } : LedWant).expected base = want.expected base := by
      funext n
      cases hn : want.mode n with
      | none => simp [LedWant.expected, hn]
      | some mode => simpa [LedWant.expected, hn] using hfits n mode hn
    rw [hsame]
    exact ends_script_apart .lan8x8x rf (isolate_apart en)

end Calls

/-! ## Runs -/

/-- A call, whatever it returns, or an update by the PHY itself, and what is asked for then. `P` restricts the calls. -/
inductive LedStep {X H : Type} (chip : Chip) (rf : PhyBus H) (P : Dev (PhyData X) H × LedWant → LedOp → Prop) :
    Dev (PhyData X) H × LedWant → Dev (PhyData X) H × LedWant → Prop
  | call {s : Dev (PhyData X) H} {want : LedWant} (op : LedOp) : P (s, want) op →
      LedStep chip rf P (s, want) (final (op.call chip rf.toBus) s,
        if errorOf (op.call chip rf.toBus) s = none then want.after op else want)
  | drift {s : Dev (PhyData X) H} {want : LedWant} {h : H} : rf.drift s.hw h →
      LedStep chip rf P (s, want) ({ s with hw := h }, want)

abbrev LedRun {X H : Type} (chip : Chip) (rf : PhyBus H) (P : Dev (PhyData X) H × LedWant → LedOp → Prop) :
    Dev (PhyData X) H × LedWant → Dev (PhyData X) H × LedWant → Prop :=
  Relation.ReflTransGen (LedStep chip rf P)

/-- Each half shows what was asked for, and the driver keeps that. -/
structure LedsMatch {X H : Type} (chip : Chip) (rf : PhyBus H) (base : LedState) (x : Dev (PhyData X) H × LedWant) :
    Prop where
  kept : LedsKept x.2 x.1.conf
  shows : chip.Shows (rf.view x.1.hw) (x.2.expected base)

section Runs

variable {X H : Type} {chip : Chip} {rf : PhyBus H} {base : LedState} {x y : Dev (PhyData X) H × LedWant}

theorem LedsMatch.are (h : LedsMatch chip rf base x) :
    LedsAre chip rf x.1.hw x.1.conf (x.2.expected base) x.1 := ⟨_, sees_start rf x.1, h.shows⟩

/-- What a call that only an access can make fail leaves behind. -/
theorem LedCall.final {h₀ : H} {c c' : PhyData X} {st st' : LedState} {call : Call X H Unit} {s : Dev (PhyData X) H}
    (hcall : LedCall chip rf h₀ c st call c' st') (hs : LedsAre chip rf h₀ c st s) (hsound : rf.Sound h₀) :
    errorOf call s = none ∧ LedsAre chip rf h₀ c' st' (Fallible.final call s) := by
  rcases Ends.final hcall hs with ⟨hok, u, ht⟩ | ⟨-, ht⟩
  · exact ⟨hok, ht⟩
  · exact absurd hsound ht

theorem LedsMatch.of_are {h₀ : H} {s : Dev (PhyData X) H} {want : LedWant} {c : PhyData X} (hkept : LedsKept want c)
    (hs : LedsAre chip rf h₀ c (want.expected base) s) : LedsMatch chip rf base (s, want) := by
  obtain ⟨m, ⟨hc, -, hm⟩, hshows⟩ := hs
  exact ⟨by rw [hc]; exact hkept, by rw [hm]; exact hshows⟩

/-- A call that fits leaves each half as asked for. -/
theorem LedsMatch.call {s : Dev (PhyData X) H} {want : LedWant} {op : LedOp} (h : LedsMatch chip rf base (s, want))
    (hfits : LedFits chip rf base (s, want) op) : LedsMatch chip rf base (final (op.call chip rf.toBus) s,
      if errorOf (op.call chip rf.toBus) s = none then want.after op else want) := by
  obtain ⟨hsound, hfits⟩ := hfits
  cases op with
  | isolate en =>
    obtain ⟨hok, hare⟩ := (ends_isolateModeSet chip rf h.kept hfits).final h.are hsound
    have hkept : LedsKept { want with isolated := en } s.conf := ⟨h.kept.unset, h.kept.mode, h.kept.ledNum, h.kept.supported⟩
    have hok' : errorOf ((LedOp.isolate en).call chip rf.toBus) s = none := hok
    rw [if_pos hok']
    exact .of_are hkept hare
  | mode conf =>
    by_cases hother : conf.mode.isLed = false ∨ ledValue conf.mode = none ∨ 4 ≤ conf.ledNum
    · -- nothing is accepted, and nothing changes
      rcases (ends_gpioModeSet_other chip rf hother).final h.are with ⟨hok, u, hare, hled⟩ | ⟨herr, hare⟩
      · have hsame : want.after (.mode conf) = want := by simp [LedWant.after, LedWant.accept, hled]
        rw [hsame, ite_self]
        exact .of_are h.kept hare
      · have herr' : errorOf ((LedOp.mode conf).call chip rf.toBus) s ≠ none := herr
        rw [if_neg herr']
        exact .of_are h.kept (hare.resolve_left fun hno => hno hsound)
    · obtain ⟨hled, hv, hlt⟩ : conf.mode.isLed = true ∧ ledValue conf.mode ≠ none ∧ conf.ledNum < 4 := by
        simpa [not_or] using hother
      obtain ⟨hno, hmate, hoff⟩ := hfits hled hv ⟨conf.ledNum, hlt⟩ rfl
      have hcall : LedCall chip rf s.hw s.conf (want.expected base) (gpioModeSet chip rf.toBus conf)
          (s.conf.storeLed conf) ((want.accept conf).expected base) := by
        rw [← @expected_accept _ _ _ ⟨conf.ledNum, hlt⟩ hled rfl hmate hoff]
        exact ends_gpioModeSet_led chip rf hled hv rfl hno
      obtain ⟨hok, hare⟩ := hcall.final h.are hsound
      have hok' : errorOf ((LedOp.mode conf).call chip rf.toBus) s = none := hok
      rw [if_pos hok']
      exact .of_are (h.kept.store hled hv (n := ⟨conf.ledNum, hlt⟩) rfl) hare

theorem LedStep.match (hstep : LedStep chip rf (LedFits chip rf base) x y) (h : LedsMatch chip rf base x) :
    LedsMatch chip rf base y := by
  cases hstep with
  | call op hfits => exact h.call hfits
  | drift hd => exact ⟨h.kept, by rw [rf.view_drift _ _ hd]; exact h.shows⟩

/-- **LEDs.** In every run of calls that find the other LEDs as they leave them, each half shows the mode that was
accepted last, forced off while isolated, and a half that no call was about is as it was at the start. -/
theorem leds_match (chip : Chip) (rf : PhyBus H) (base : LedState) {x y : Dev (PhyData X) H × LedWant}
    (hstart : LedsMatch chip rf base x) (hrun : LedRun chip rf (LedFits chip rf base) x y) :
    LedsMatch chip rf base y := by
  induction hrun with
  | refl => exact hstart
  | tail _ hstep ih => exact hstep.match ih

end Runs

/-! ### Two LEDs of one register -/

/-- LED 2 was configured. -/
def benchWant : LedWant := ⟨fun n => if n = 2 then some .ledLinkActivity else none, false⟩

theorem bench_match (chip : Chip) : LedsMatch chip bench (fun _ => 0) (benchStart, benchWant) := by
  refine ⟨⟨?_, ?_, ?_, ?_⟩, ?_⟩
  · intro n hn
    fin_cases n <;> first | rfl | cases hn
  · intro n mode hn
    fin_cases n <;> cases hn
    exact ⟨rfl, rfl⟩
  · intro n mode hn
    fin_cases n <;> cases hn
    rfl
  · intro n mode hn
    fin_cases n <;> cases hn
    decide
  · intro n b
    cases chip <;> fin_cases n <;> fin_cases b <;> rfl

/-- A call about LED `n`. -/
def ledOp (n : Nat) (mode : GpioMode) : LedOp := .mode ⟨0, mode, n⟩

abbrev benchLed (chip : Chip) (op : LedOp) (s : Dev (PhyData Unit) (Reg → BitVec 16)) :
    Dev (PhyData Unit) (Reg → BitVec 16) := final (op.call chip bench.toBus) s

theorem leds_match_first : LedsMatch .lan887x bench (fun _ => 0)
    (benchLed .lan887x (ledOp 0 .ledLink1000Activity) benchStart, benchWant.accept ⟨0, .ledLink1000Activity, 0⟩) := by
  have hfits : LedFits .lan887x bench (fun _ => 0) (benchStart, benchWant) (ledOp 0 .ledLink1000Activity) := by
    refine ⟨bitStorage_sound _, fun _ _ n hn => ⟨by decide, ?_, fun h => by cases h⟩⟩
    obtain rfl : n = 0 := Fin.ext hn.symm
    rfl
  have hok : errorOf ((ledOp 0 .ledLink1000Activity).call .lan887x bench.toBus) benchStart = none := rfl
  have hstep := @LedStep.call _ _ .lan887x bench _ _ _ (ledOp 0 .ledLink1000Activity) hfits
  rw [if_pos hok] at hstep
  exact leds_match .lan887x bench _ (bench_match _) (.single hstep)

/-- The LEDs match after every run whose accesses succeed. -/
def LedsAlwaysMatch (chip : Chip) : Prop := ∀ (base : LedState) (x y : Dev (PhyData Unit) (Reg → BitVec 16) × LedWant),
  LedsMatch chip bench base x → LedRun chip bench (fun _ _ => True) x y → LedsMatch chip bench base y

/-- After a mode for LED 0 and one for LED 1, LED 0 shows 0. -/
theorem not_ledsAlwaysMatch {chip : Chip}
    (hok : errorOf ((ledOp 1 .ledLink100Activity).call chip bench.toBus)
      (benchLed chip (ledOp 0 .ledLink1000Activity) benchStart) = none)
    (hok₀ : errorOf ((ledOp 0 .ledLink1000Activity).call chip bench.toBus) benchStart = none)
    (hbit : bench.view (benchLed chip (ledOp 1 .ledLink100Activity)
      (benchLed chip (ledOp 0 .ledLink1000Activity) benchStart)).hw (chip.halfReg 0) (halfBit 0 0) = false) :
    ¬LedsAlwaysMatch chip := by
  intro h
  have hfirst := @LedStep.call _ _ chip bench (fun _ _ => True) benchStart benchWant
    (ledOp 0 .ledLink1000Activity) trivial
  have hsecond := @LedStep.call _ _ chip bench (fun _ _ => True)
    (benchLed chip (ledOp 0 .ledLink1000Activity) benchStart) (benchWant.after (ledOp 0 .ledLink1000Activity))
    (ledOp 1 .ledLink100Activity) trivial
  rw [if_pos hok₀] at hfirst
  rw [if_pos hok] at hsecond
  have hshows := (h _ _ _ (bench_match chip) ((Relation.ReflTransGen.single hfirst).tail hsecond)).shows 0 0
  have hone : (((benchWant.after (ledOp 0 .ledLink1000Activity)).after (ledOp 1 .ledLink100Activity)).expected
      (fun _ => 0) 0).getLsbD 0 = true := by decide
  rw [hbit] at hshows
  exact Bool.false_ne_true (hshows.trans hone)

/-- In both drivers the second LED of a register switches the first one over. -/
theorem not_leds_match : ¬LedsAlwaysMatch .lan887x ∧ ¬LedsAlwaysMatch .lan8x8x :=
  ⟨not_ledsAlwaysMatch rfl rfl rfl, not_ledsAlwaysMatch rfl rfl rfl⟩

end Lan80xx.T1
