import Mathlib.Data.BitVec

/-!
# TC10: modes and pins

The enumerations of the TC10 calls. A caller may pass any number where a mode or a pin is expected; `other` stands for
those that have no meaning for the call.
-/

namespace Lan80xx.Tc10

/-- `mepa_tc10_wakeup_mode_t` -/
inductive WakeupMode
  | disable
  | wupEnable
  | wakeinEnable
  | wupWakeinEnable
  | other (code : Nat)
  deriving DecidableEq, Repr

/-- `mepa_tc10_wakeup_fwd_mode_t` -/
inductive WakeupFwdMode
  | disable
  | wupEnable
  | wakeoutEnable
  | wupWakeoutEnable
  | other (code : Nat)
  deriving DecidableEq, Repr

/-- `mepa_tc10_pin_t` -/
inductive Pin
  | wakeIn
  | wakeOut
  | inh
  | other (code : Nat)
  deriving DecidableEq, Repr

/-- `mepa_gpio_mode_t` -/
inductive GpioMode
  | pushPull
  | openDrain
  | openSource
  | activeLow
  | activeHigh
  | other (code : Nat)
  deriving DecidableEq, Repr

/-- The settings that the driver keeps: `phy_tc10_data_t`. -/
structure Data where
  sleepEnable : Bool
  wakeupMode : WakeupMode
  wakeupFwdMode : WakeupFwdMode
  wakeInPol : GpioMode
  wakeOutPol : GpioMode
  wakeOutMode : GpioMode
  inhMode : GpioMode
  deriving DecidableEq, Repr

end Lan80xx.Tc10
