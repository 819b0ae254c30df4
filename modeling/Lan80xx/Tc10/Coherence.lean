import Lan80xx.Lan887x.Tc10
import Lan80xx.Lan8770.Tc10

/-!
# TC10: the settings of both chips over runs

`settings_kept`: on either chip, in every run of calls that are `Regular` for it, the register fields and the reported
settings are those accepted last.
-/

namespace Lan80xx.Tc10

open Fallible RegBus

theorem settings_kept {H H' : Type} (rf : Lan8770.SmiRegs H) (rf' : Lan887x.Vend1 H') :
    Maintains rf.drift (fun n => Lan8770.phyTc10Set rf.toBus n) Lan8770.chip Lan8770.PhyData.tc10 rf.view
      (Lan8770.Regular rf) ∧
    Maintains rf'.drift (fun _ : Unit => Lan887x.tc10Set rf'.toBus) Lan887x.chip id rf'.view (Lan887x.Regular rf') :=
  ⟨(Lan8770.obeys rf).maintains rf.view_drift, (Lan887x.obeys rf').maintains rf'.view_drift⟩

/-! ## Runs on each chip -/

section Bench

open Lan8770 (SmiRegs Phy PhyData smiPhy steadyLink probed Ready)

/-- A LAN8770 that answers, and is not busy for any poll. -/
abbrev bench : SmiRegs Phy := smiPhy (steadyLink (some 0))

theorem bench_ready {h : Phy} (hb : h.busy = some 0) : Ready bench h := by
  have hbusy : ∀ h', Accessed bench.toBus h h' → h'.busy = some 0 := by
    intro h' ha
    induction ha with
    | refl => exact hb
    | rd r h' _ ih => simp [bench, smiPhy, steadyLink, Phy.rd, ih, Lan8770.pollsLeft]
    | wr r v h' _ ih => simp [bench, smiPhy, steadyLink, Phy.wr, Phy.put, ih]
  refine ⟨fun h' _ => ⟨fun r => ⟨_, rfl⟩, fun r v => rfl⟩, fun h' ha => ⟨0, by decide, ?_⟩⟩
  rintro v ⟨⟩
  rw [Phy.shown, if_pos ⟨rfl, hbusy h' ha⟩, BitVec.and_assoc, BitVec.not_and_self]
  exact BitVec.and_zero

/-- All registers are 0. -/
def benchStart : Dev PhyData Phy := ⟨probed, ⟨fun _ => 0, some 0, 0⟩⟩

abbrev benchSet (req : Request) (s : Dev PhyData Phy) : Dev PhyData Phy :=
  final (Lan8770.phyTc10Set bench.toBus 200 req) s

abbrev vend1 : Lan887x.Vend1 (BitVec 16 → BitVec 16) := wordStorage (BitVec 16) 16

/-- All registers are 0. -/
def vend1Start : Dev Data (BitVec 16 → BitVec 16) := ⟨probed.tc10, fun _ => 0⟩

abbrev vend1Set (req : Request) (s : Dev Data (BitVec 16 → BitVec 16)) : Dev Data (BitVec 16 → BitVec 16) :=
  final (Lan887x.tc10Set vend1.toBus req) s

def wakeInLow : Request := .wakePinPolarity .wakeIn .activeLow
def inhDrain : Request := .pinMode .inh .openDrain
/-- A wake-up mode that is none. -/
def strayMode : Request := .wakeupSupport (.other 7)

theorem benchSet_ok : Lan8770.phyTc10Set bench.toBus 200 wakeInLow benchStart = .ok () (benchSet wakeInLow benchStart) := rfl

theorem settings_kept_first :
    Coherent Lan8770.layout (record (fun _ => none) wakeInLow) (benchSet wakeInLow benchStart).conf.tc10
      (benchSet wakeInLow benchStart).hw.words ∧
    Coherent Lan887x.layout (record (fun _ => none) inhDrain) (vend1Set inhDrain vend1Start).conf
      (vend1Set inhDrain vend1Start).hw := by
  have hfits : Lan8770.Fits (bench.view benchStart.hw) wakeInLow :=
    ⟨trivial, fun _ => by decide, fun _ => by decide⟩
  have hready : Lan8770.Regular bench 200 benchStart wakeInLow := Or.inl ⟨bench_ready rfl, by decide, hfits⟩
  have hregular : Lan887x.Regular vend1 () vend1Start inhDrain := ⟨trivial, fun _ _ _ _ => rfl⟩
  exact ⟨((settings_kept bench vend1).1 benchStart _ (.single (.ok hready benchSet_ok))).1,
    ((settings_kept bench vend1).2 vend1Start (vend1Set inhDrain vend1Start, record (fun _ => none) inhDrain)
      (.single (.ok hregular rfl))).1⟩

/-- On the LAN8770 the mode of the `INH` pin clears the polarity of the `WAKE_IN` pin; on the LAN887x a wake-up mode that
is none is accepted. -/
theorem not_settings_kept :
    (¬Maintains bench.drift (fun n => Lan8770.phyTc10Set bench.toBus n) Lan8770.chip PhyData.tc10 bench.view
      fun _ _ _ => True) ∧
    ¬Maintains vend1.drift (fun _ : Unit => Lan887x.tc10Set vend1.toBus) Lan887x.chip id vend1.view
      fun _ _ _ => True := by
  constructor
  · intro h
    have hsecond : Lan8770.phyTc10Set bench.toBus 200 inhDrain (benchSet wakeInLow benchStart) =
        .ok () (benchSet inhDrain (benchSet wakeInLow benchStart)) := rfl
    have hrun : Run bench.drift (fun n => Lan8770.phyTc10Set bench.toBus n) (fun _ _ _ => True)
        (benchStart, fun _ => none) (benchSet inhDrain (benchSet wakeInLow benchStart), _) :=
      (Relation.ReflTransGen.single (.ok trivial benchSet_ok)).tail (.ok trivial hsecond)
    obtain ⟨ps, hps, hin⟩ := (h benchStart _ hrun).1.fields .wakeInPol wakeInLow rfl
    cases hps
    have hbit := (bitPatch_in _ _ (by decide)).mp (hin _ List.mem_cons_self)
    exact absurd hbit (by decide)
  · intro h
    have hrun : Run vend1.drift (fun _ : Unit => Lan887x.tc10Set vend1.toBus) (fun _ _ _ => True)
        (vend1Start, fun _ => none) (vend1Set strayMode vend1Start, record (fun _ => none) strayMode) :=
      .single (.ok (i := ()) trivial rfl)
    obtain ⟨ps, hps, -⟩ := (h vend1Start _ hrun).1.fields .wakeup strayMode rfl
    cases hps

end Bench

end Lan80xx.Tc10
