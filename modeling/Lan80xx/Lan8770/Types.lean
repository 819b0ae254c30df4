import Lan80xx.Lan8770.BankAccess
import Lan80xx.Tc10.Types

/-!
# LAN8770: the driver's data
-/

namespace Lan80xx.Lan8770

open Fallible RegBus

/-- `mepa_manual_neg_t` -/
inductive ManualNeg
  | disabled
  | ref
  | client
  deriving DecidableEq, Repr

/-- `mesa_port_speed_t` -/
inductive Speed
  | undefined
  | m10
  | m100
  | g1
  | m2500
  | g5
  | g10
  | g12
  | g25
  | auto
  deriving DecidableEq, Repr

/-- `mepa_conf_t`, as far as the LAN8770 looks at it. -/
structure Conf where
  speed : Speed
  fdx : Bool
  flowControl : Bool
  macIfAnegEna : Bool
  adminEnable : Bool
  manNeg : ManualNeg
  deriving DecidableEq, Repr

/-- `mepa_loopback_t`, as far as the LAN8770 looks at it. -/
structure Loopback where
  farEndEna : Bool
  nearEndEna : Bool
  connectorEna : Bool
  deriving DecidableEq, Repr

/-- `phy_dev_info_t` -/
structure DevInfo where
  id : BitVec 32
  model : BitVec 8
  rev : BitVec 8
  isMaster : Bool
  isMasterFault : Bool
  deriving DecidableEq, Repr

/-- `phy_data_t` -/
structure PhyData where
  initDone : Bool
  conf : Conf
  events : BitVec 32
  loopback : Loopback
  dev : DevInfo
  tc10 : Tc10.Data
  deriving DecidableEq, Repr

/-- The data after `lan8770_probe`. -/
def probed : PhyData where
  initDone := false
  conf := ⟨.m100, true, false, false, true, .ref⟩
  events := 0
  loopback := ⟨false, false, false⟩
  dev := ⟨0, 0, 0, false, false⟩
  tc10 := ⟨true, .wupWakeinEnable, .wupWakeoutEnable, .activeHigh, .activeHigh, .pushPull, .openSource⟩

/-! ## Direct accesses to a PHY that keeps its words -/

section Direct

variable {C H : Type} (rf : SmiRegs H) {h₀ : H} {c : C} {m : Words} {E : Dev C H → Prop}

/-- A read of a register that the PHY does not change by itself. -/
theorem ends_directRd {offset : BitVec 8} (ho : ¬Volatile offset) (hE : ∀ s, ¬rf.Sound h₀ → Sees rf h₀ c m s → E s) :
    Ends (Sees rf h₀ c m) (phyDirectRegRd rf.toBus offset)
      (fun v s => Sees rf h₀ c m s ∧ v = m (.smi offset)) E :=
  (ends_read_sees rf Rc.access offset hE).weaken (fun _ _ h => ⟨h.1, h.2 ho⟩) fun _ h => h

theorem ends_directWr (offset : BitVec 8) (v : BitVec 16)
    (hE : ∀ s, ¬rf.WritesGo h₀ → Sees rf h₀ c m s ∨ Sees rf h₀ c (m.write offset v) s → E s) :
    Ends (Sees rf h₀ c m) (phyDirectRegWr rf.toBus offset v) (fun _ => Sees rf h₀ c (m.write offset v)) E :=
  ends_write_sees rf Rc.access offset v hE

end Direct

end Lan80xx.Lan8770
