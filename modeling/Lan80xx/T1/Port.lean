import Lan80xx.Lan887x.Driver
import Lan80xx.Lan8x8x.Driver

/-!
# T1 PHYs: a port and its calls

- `ends_work`: what a call does to the registers, when no access fails;
- `Ready`: data as the calls leave them, on the PHY that they were read from;
- `call_spec`: the data and the registers after a call, and that it leaves the port ready.
-/

namespace Lan80xx.T1

open Fallible RegBus RegScript
open Lan8770 (Speed)

namespace Chip

/-- The data that only one of the drivers has. -/
abbrev Own : Chip → Type
  | lan887x => Tc10.Data
  | lan8x8x => Lan8x8x.Own

def driver {H : Type} (chip : Chip) (bus : Bus Reg 16 H) (polls : Nat) : Driver chip.Own H :=
  match chip with
  | lan887x => Lan887x.lan887x bus polls
  | lan8x8x => Lan8x8x.lan8x8x bus polls

/-- They are what the driver's own calls store. -/
def OwnAccepted : (chip : Chip) → chip.Own → Prop
  | lan887x, cfg => Lan887x.Tc10Accepted cfg
  | lan8x8x, _ => True

/-- The registers have the identifier among them, and none that is left open. -/
def Tracks : Chip → List Reg → Prop
  | lan887x, S => Lan887x.Tracks S
  | lan8x8x, S => Lan8x8x.Tracks S

theorem tracks_ids (chip : Chip) : chip.Tracks [physid1, physid2] := by
  cases chip with
  | lan887x => constructor <;> decide
  | lan8x8x => constructor <;> decide

/-- The accesses of what a call does. -/
def workAccesses : (chip : Chip) → Work → PhyData chip.Own → List Acc
  | _, .nothing, _ => []
  | lan887x, .enable macAneg, d => Lan887x.resetAccesses (if macAneg then .softMac else .soft) d
  | lan887x, .powerDown, _ => [phyRegSetBits bmcr (bit 11)]
  | lan887x, .mediaReset, d => Lan887x.resetAccesses .soft d
  | lan887x, .ifReset, d => Lan887x.resetAccesses .softMac d
  | lan887x, .resetInit, d => Lan887x.resetAccesses .softExt d
  | lan887x, .setupLpbk loopback, _ => Lan887x.lpbkAccesses loopback
  | lan8x8x, .enable _, d => phyMmdRegClearBits .pmapmd 0x0000 (bit 11) :: Lan8x8x.setupAccesses d
  | lan8x8x, .powerDown, _ => [phyMmdRegSetBits .pmapmd 0x0000 (bit 11)]
  | lan8x8x, .mediaReset, d => Lan8x8x.setupAccesses d
  | lan8x8x, .ifReset, d => Lan8x8x.setupAccesses d
  | lan8x8x, .resetInit, d => Lan8x8x.setupAccesses d
  | lan8x8x, .setupLpbk loopback, d => [Lan8x8x.lpbkAccess d.conf.speed loopback]

/-- The data after it. -/
def workData : (chip : Chip) → Work → PhyData chip.Own → PhyData chip.Own
  | _, .nothing, d => d
  | _, .powerDown, d => d
  | lan887x, .resetInit, d => Lan887x.setupData d
  | lan887x, .setupLpbk loopback, d => d.setLoopback (Lan887x.lpbkKept loopback)
  | lan887x, _, d => d
  | lan8x8x, .setupLpbk loopback, d => d.setLoopback (Lan8x8x.lpbkKept loopback)
  | lan8x8x, _, d => Lan8x8x.setupData d

end Chip

/-- The data are such as the calls leave them, and the identifier in them is that of the PHY. -/
structure Ready (chip : Chip) (m : Bits Reg 16) (d : PhyData chip.Own) : Prop where
  leds : LedsAccepted d
  own : chip.OwnAccepted d.own
  macIf : d.macIf.isOther = false
  speed : d.conf.speed = .auto ∨ d.conf.speed = .m100 ∨ d.conf.speed = .g1
  ids : Ids m d.dev

section Work

variable {chip : Chip} {H : Type} (rf : PhyBus H) {S : List Reg} {h₀ : H} {d : PhyData chip.Own} {m : Bits Reg 16}
  {E : Dev (PhyData chip.Own) H → Prop}

theorem ends_work (hs : rf.Sound h₀) (hS : chip.Tracks S) (hready : Ready chip m d) (polls : Nat) (w : Work) :
    Ends (SeesOn rf S h₀ d m) ((chip.driver rf.toBus polls).work w)
      (fun _ => SeesOn rf S h₀ (chip.workData w d) (applyAll live (chip.workAccesses w d) m)) E := by
  cases chip with
  | lan887x =>
    have hreset := Lan887x.ends_intReset rf (E := E) hs hS hready.leds hready.own hready.ids polls
    cases w with
    | nothing => exact Ends.pure fun s hsee => by simpa [Chip.workAccesses, Chip.workData] using hsee
    | powerDown => exact ends_script_on rf hs _
    | enable macAneg => cases macAneg <;> exact hreset _
    | mediaReset | ifReset | resetInit => exact hreset _
    | setupLpbk loopback => exact Lan887x.ends_setupLpbk rf hs loopback
  | lan8x8x =>
    have hsetup := Lan8x8x.ends_phySetup rf (E := E) hs hS hready.leds hready.macIf hready.speed hready.ids polls
    cases w with
    | nothing => exact Ends.pure fun s hsee => by simpa [Chip.workAccesses, Chip.workData] using hsee
    | powerDown => exact ends_script_on rf hs _
    | enable =>
      rw [Chip.workAccesses, applyAll_cons]
      have hids : Ids (applyAll live [phyMmdRegClearBits .pmapmd 0x0000 (bit 11)] m) d.dev :=
        hready.ids.applyAll (by decide) (by decide)
      exact (ends_script_on rf hs _).bind fun _ =>
        Lan8x8x.ends_phySetup rf hs hS hready.leds hready.macIf hready.speed hids polls
    | mediaReset | ifReset | resetInit => exact hsetup
    | setupLpbk loopback => exact Lan8x8x.ends_setupLpbk rf hs loopback

/-- The identifier is not among the registers that a call writes. -/
theorem physid_of_workAccesses {w : Work} {q : Reg} (hq : q ∈ writesOf (chip.workAccesses w d)) :
    q ≠ physid1 ∧ q ≠ physid2 := by
  cases chip with
  | lan887x =>
    cases w with
    | nothing => cases hq
    | powerDown => exact (by decide : ∀ q ∈ [bmcr], q ≠ physid1 ∧ q ≠ physid2) q hq
    | enable | mediaReset | ifReset | resetInit => exact Lan887x.physid_of_writesOf hq
    | setupLpbk loopback =>
      exact (by decide : ∀ q ∈ Lan887x.lpbkRegs, q ≠ physid1 ∧ q ≠ physid2) q (Lan887x.writesOf_lpbkAccesses loopback q hq)
  | lan8x8x =>
    have hsetup : ∀ q ∈ writesOf (Lan8x8x.setupAccesses d), q ≠ physid1 ∧ q ≠ physid2 := fun q hq =>
      (Lan8x8x.writesOf_setupAccesses d q hq).elim
        ((by decide +kernel : ∀ q ∈ Lan8x8x.macRegs, q ≠ physid1 ∧ q ≠ physid2) q) fun hq => hq.elim
        ((by decide : ∀ q ∈ Lan8x8x.modeRegs, q ≠ physid1 ∧ q ≠ physid2) q)
        ((by decide : ∀ q ∈ Lan8x8x.restRegs, q ≠ physid1 ∧ q ≠ physid2) q)
    cases w with
    | nothing => cases hq
    | powerDown => exact (by decide : ∀ q ∈ [(.mmd .pmapmd 0x0000 : Reg)], q ≠ physid1 ∧ q ≠ physid2) q hq
    | enable =>
      rcases List.mem_cons.mp (show q ∈ .mmd .pmapmd 0x0000 :: writesOf (Lan8x8x.setupAccesses d) from hq) with rfl | hq
      · decide
      · exact hsetup q hq
    | mediaReset | ifReset | resetInit => exact hsetup q hq
    | setupLpbk loopback =>
      have hmem : q ∈ (Lan8x8x.lpbkAccess d.conf.speed loopback).writes := by
        simpa [Chip.workAccesses, writesOf] using hq
      exact (by decide : ∀ q ∈ Lan8x8x.lpbkRegs, q ≠ physid1 ∧ q ≠ physid2) q (Lan8x8x.writes_lpbkAccess _ _ q hmem)

end Work

/-! ## Ready ports -/

section Ready

variable {chip : Chip} {H : Type} {d : PhyData chip.Own} {m m' : Bits Reg 16}

theorem Ready.congr (h : Ready chip m d) (hm : m' physid1 = m physid1 ∧ m' physid2 = m physid2) : Ready chip m' d := by
  obtain ⟨v₁, v₂, hv₁, hv₂, hdev⟩ := h.ids
  exact ⟨h.leds, h.own, h.macIf, h.speed, v₁, v₂, by rwa [shows, hm.1], by rwa [shows, hm.2], hdev⟩

/-- The data that a call stores before it does anything. -/
def stored {X : Type} : Except (Rc × PhyData X) (PhyData X × Work) → PhyData X
  | .error e => e.2
  | .ok a => a.1

/-- What a call may store: a configuration, a medium and an interface that are accepted. -/
structure Stores {X : Type} (d d' : PhyData X) : Prop where
  rest : d' = { d with conf := d'.conf, mediaIntf := d'.mediaIntf, macIf := d'.macIf }
  macIf : d'.macIf = d.macIf ∨ d'.macIf.isOther = false
  speed : d'.conf.speed = d.conf.speed ∨ d'.conf.speed = .auto ∨ d'.conf.speed = .m100 ∨ d'.conf.speed = .g1

theorem Stores.refl {X : Type} (d : PhyData X) : Stores d d := ⟨rfl, Or.inl rfl, Or.inl rfl⟩

theorem Stores.loopback {X : Type} {d d' : PhyData X} (h : Stores d d') : d'.loopback = d.loopback := by rw [h.rest]

theorem Stores.storeMedia {X : Type} (d : PhyData X) (mediaIf : MediaInterface) : Stores d (d.storeMedia mediaIf) := by
  refine ⟨rfl, Or.inl rfl, ?_⟩
  unfold PhyData.storeMedia
  split_ifs
  · exact Or.inr (Or.inr (Or.inl rfl))
  · exact Or.inl rfl

/-- A medium that `reset` is asked for. -/
theorem Stores.resetMedia {bus : Bus Reg 16 H} {polls : Nat} {mediaIf : MediaInterface} {d' : PhyData chip.Own}
    (h : (chip.driver bus polls).resetMedia d mediaIf = .ok d') : Stores d d' := by
  cases chip with
  | lan887x =>
    obtain rfl : (if mediaIf.IsT1 then d.storeMedia mediaIf else d) = d' := Except.ok.inj h
    split_ifs
    · exact .storeMedia d mediaIf
    · exact .refl d
  | lan8x8x =>
    obtain rfl : d.storeMedia mediaIf = d' := Lan8x8x.resetMedia_ok h
    exact .storeMedia d mediaIf

/-- What a call stores. -/
theorem stores (bus : Bus Reg 16 H) (polls : Nat) (d : PhyData chip.Own) (op : Op) :
    Stores d (stored ((chip.driver bus polls).plan d op)) := by
  cases hplan : (chip.driver bus polls).plan d op with
  | error e =>
    rcases Driver.plan_error hplan with he | ⟨config, -, -, -, he⟩ <;> rw [T1.stored, he]
    · exact .refl d
    · exact ⟨rfl, Or.inl rfl, Or.inl rfl⟩
  | ok a =>
    cases op with
    | conf config =>
      obtain ⟨hvalid, -, hd, -⟩ := Driver.plan_conf_ok hplan
      rw [T1.stored, hd]
      exact ⟨rfl, Or.inl rfl, Or.inr (by rcases hvalid.2.2 with h | h | h <;> simp [PhyData.setConf, h])⟩
    | media mediaIf =>
      rcases Driver.plan_media_ok hplan with ⟨hd, -⟩ | ⟨hd, -⟩ <;> rw [T1.stored, hd]
      · exact .refl d
      · exact ⟨rfl, Or.inl rfl, Or.inl rfl⟩
    | iface macIf =>
      rcases Driver.plan_iface_ok hplan with ⟨hd, -⟩ | ⟨hother, hd, -⟩ <;> rw [T1.stored, hd]
      · exact .refl d
      · exact ⟨rfl, Or.inr hother, Or.inl rfl⟩
    | reset param =>
      rcases Driver.plan_reset_ok hplan with ⟨hd, -⟩ | ⟨-, hd | ⟨mediaIf, hd⟩⟩
      · rw [T1.stored, hd]
        exact .refl d
      · rw [T1.stored, hd]
        exact .refl d
      · exact .resetMedia hd
    | loopback =>
      cases hplan
      exact .refl d

theorem Ready.stored (h : Ready chip m d) (bus : Bus Reg 16 H) (polls : Nat) (op : Op) :
    Ready chip m (stored ((chip.driver bus polls).plan d op)) := by
  obtain ⟨hrest, hmac, hspeed⟩ := stores bus polls d op
  refine ⟨by rw [hrest]; exact h.leds, by rw [hrest]; exact h.own, ?_, ?_, by rw [hrest]; exact h.ids⟩
  · rcases hmac with hmac | hmac
    · rw [hmac]
      exact h.macIf
    · exact hmac
  · rcases hspeed with hspeed | hspeed
    · rw [hspeed]
      exact h.speed
    · exact hspeed

theorem Ready.workData (h : Ready chip m d) (w : Work) : Ready chip m (chip.workData w d) := by
  cases chip <;> cases w <;> exact ⟨h.leds, h.own, h.macIf, h.speed, h.ids⟩

end Ready

/-! ## Calls -/

section Calls

variable {chip : Chip} {H : Type} {rf : PhyBus H} {polls : Nat} {S : List Reg} {s : Dev (PhyData chip.Own) H}
  {op : Op} {d : PhyData chip.Own}

/-- A call that is refused. -/
theorem call_refused {rc : Rc} (hplan : (chip.driver rf.toBus polls).plan s.conf op = .error (rc, d)) :
    errorOf ((chip.driver rf.toBus polls).call op) s = some rc ∧
      final ((chip.driver rf.toBus polls).call op) s = { s with conf := d } := by
  simp [errorOf, final, Driver.call_run, hplan]

/-- A call that only stores. -/
theorem call_nothing (hplan : (chip.driver rf.toBus polls).plan s.conf op = .ok (d, .nothing)) :
    errorOf ((chip.driver rf.toBus polls).call op) s = none ∧
      final ((chip.driver rf.toBus polls).call op) s = { s with conf := d } := by
  have hcall : (chip.driver rf.toBus polls).call op s = .ok () { s with conf := d } := by
    rw [Driver.call_run, hplan]
    rfl
  simp [errorOf, final, hcall]

/-- **Calls.** What they do, when no access fails; and the port is as ready as before. -/
theorem call_done (hs : rf.Sound s.hw) (hS : chip.Tracks S) (hready : Ready chip (rf.view s.hw) s.conf) {w : Work}
    (hplan : (chip.driver rf.toBus polls).plan s.conf op = .ok (d, w)) :
    errorOf ((chip.driver rf.toBus polls).call op) s = none ∧
      SeesOn rf S s.hw (chip.workData w d) (applyAll live (chip.workAccesses w d) (rf.view s.hw))
        (final ((chip.driver rf.toBus polls).call op) s) := by
  have hd : Ready chip (rf.view s.hw) d := by simpa [stored, hplan] using hready.stored rf.toBus polls op
  have hcall : (chip.driver rf.toBus polls).call op s = (chip.driver rf.toBus polls).work w { s with conf := d } := by
    rw [Driver.call_run, hplan]
  have hends := ends_work rf (E := fun _ => False) hs hS hd polls w { s with conf := d } (seesOn_start rf S { s with conf := d })
  rcases hends with ⟨u, t, ht, hsee⟩ | ⟨e, t, -, hf⟩
  · exact ⟨by simp [errorOf, hcall, ht], by simpa [final, hcall, ht] using hsee⟩
  · exact hf.elim

theorem Ready.call (hready : Ready chip (rf.view s.hw) s.conf) (hs : rf.Sound s.hw) :
    Ready chip (rf.view (final ((chip.driver rf.toBus polls).call op) s).hw)
      (final ((chip.driver rf.toBus polls).call op) s).conf := by
  have hstored := hready.stored rf.toBus polls op
  cases hplan : (chip.driver rf.toBus polls).plan s.conf op with
  | error e =>
    rw [hplan] at hstored
    rw [(call_refused hplan).2]
    exact hstored
  | ok a =>
    rw [hplan] at hstored
    obtain ⟨hconf, hview⟩ := (call_done hs chip.tracks_ids hready hplan).2.view
    rw [hconf]
    refine (hstored.workData a.2).congr ⟨?_, ?_⟩
    · rw [hview _ (by simp), applyAll_frame fun hq => (physid_of_workAccesses hq).1 rfl]
    · rw [hview _ (by simp), applyAll_frame fun hq => (physid_of_workAccesses hq).2 rfl]

end Calls

/-! ## A port on a PHY that answers -/

/-- What a port has of its own. -/
def Chip.benchOwn : (chip : Chip) → chip.Own
  | .lan887x => ⟨true, .wupWakeinEnable, .wupWakeoutEnable, .activeLow, .activeLow, .pushPull, .openSource⟩
  | .lan8x8x => ⟨0x002216B0, false, false⟩

/-- Data of a port, at a speed. -/
def Chip.benchData (chip : Chip) (speed : Speed) : PhyData chip.Own :=
  { T1.benchData with conf := { T1.benchData.conf with speed := speed }, own := chip.benchOwn }

/-- All registers are 0. -/
def Chip.benchStart (chip : Chip) (speed : Speed) : Dev (PhyData chip.Own) (Reg → BitVec 16) :=
  ⟨chip.benchData speed, fun _ => 0⟩

theorem bench_ready {chip : Chip} {speed : Speed} (hspeed : speed = .auto ∨ speed = .m100 ∨ speed = .g1) :
    Ready chip (bench.view (chip.benchStart speed).hw) (chip.benchData speed) := by
  refine ⟨fun i => ?_, ?_, rfl, hspeed, 0, 0, fun b _ => rfl, fun b _ => rfl, rfl⟩
  · exact (by decide : ∀ i, (T1.benchData.ledConf i).mode.isLed = true →
      ledValue (T1.benchData.ledConf i).mode ≠ none ∧ (T1.benchData.ledConf i).ledNum < 4) i
  · cases chip with
    | lan887x => exact fun v => ⟨Option.some_ne_none _, Option.some_ne_none _, Option.some_ne_none _, Option.some_ne_none _⟩
    | lan8x8x => trivial

end Lan80xx.T1
