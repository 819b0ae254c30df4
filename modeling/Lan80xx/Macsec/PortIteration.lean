import Lan80xx.Macsec.Identity

/-!
# MACsec: iterating over the ports

`lan80xx_macsec_port_get_next_priv` finds the port behind the one it is given by its identifiers. The ports are the keys
of a directory, and the iteration is a walk over it.

- `portGetNext_eq`: one call is one step of the walk;
- `portIteration_iff`: the iteration is right exactly in a state in which no port has two SecYs;
- `port_iteration`: it is right in every state of a careful run.
-/

namespace Lan80xx.Macsec

open Fallible RegBus MacsecConf Directory

variable {H : Type} {bus : PortBus H} {c : MacsecConf} {portNo : Nat}

/-! ## The call -/

/-- The port of a SecY. -/
def Secy.foundPort (s : Secy) (portNo : Nat) : MacsecPort := ⟨portNo, s.serviceId, s.sci.portId⟩

/-- The loop of `lan80xx_macsec_port_get_next_priv` over some slots; `found` is `found_port`. -/
def portGetNextFrom (c : MacsecConf) (portNo : Nat) (search : Option MacsecPort) : Bool → List Nat → Option MacsecPort
  | _, [] => none
  | found, i :: is =>
    if (c.secy i).inUse then
      if search = none ∨ found then some ((c.secy i).foundPort portNo)
      else portGetNextFrom c portNo search
        (search.any fun p => p.serviceId = (c.secy i).serviceId ∧ p.portId = (c.secy i).sci.portId) is
    else portGetNextFrom c portNo search found is

/-- `lan80xx_macsec_port_get_next_priv`; `none` is `MEPA_RC_ERROR`. -/
def portGetNext (c : MacsecConf) (portNo : Nat) (search : Option MacsecPort) : Option MacsecPort :=
  portGetNextFrom c portNo search false (List.range maxSecy)

/-- The ports that come up when the call is given the port that it has returned before. -/
inductive Iterates (c : MacsecConf) (portNo : Nat) : Option MacsecPort → List MacsecPort → Prop
  | done {search} : portGetNext c portNo search = none → Iterates c portNo search []
  | more {search p ps} : portGetNext c portNo search = some p → Iterates c portNo (some p) ps →
      Iterates c portNo search (p :: ps)

/-- The iteration comes to the port of every SecY in use once, and then to its end. -/
def IterationRight (c : MacsecConf) (portNo : Nat) : Prop :=
  ∃ ps, Iterates c portNo none ps ∧ ps.Nodup ∧
    ∀ p, p ∈ ps ↔ p.portNo = portNo ∧ ∃ i < maxSecy, (c.secy i).hasPort p = true

/-! ## The walk -/

section Walk

/-- A port with these identifiers. -/
def portOf (portNo : Nat) (k : Nat × Nat) : MacsecPort := ⟨portNo, k.1, k.2⟩

theorem portOf_injective : Function.Injective (portOf portNo) := by
  rintro ⟨a, b⟩ ⟨a', b'⟩ h
  cases h
  rfl

theorem portGetNextFrom_eq (search : Option MacsecPort) (found : Bool) (is : List Nat) :
    portGetNextFrom c portNo search found is =
      (nextKey c.ports (search.map MacsecPort.key) found is).map (portOf portNo) := by
  induction is generalizing found with
  | nil => rfl
  | cons i is ih =>
    rw [portGetNextFrom]
    cases hu : (c.secy i).inUse with
    | false =>
      rw [nextKey_cons_none (ports_eq_none.mpr hu), if_neg Bool.false_ne_true, ih]
    | true =>
      have hp : c.ports i = some ((c.secy i).serviceId, (c.secy i).sci.portId) := by
        rw [MacsecConf.ports, Secy.heldFor, if_pos hu]
      have hnone : (search.map MacsecPort.key = none ∨ found = true) ↔ (search = none ∨ found = true) := by
        rw [Option.map_eq_none_iff]
      rw [nextKey_cons_some hp, if_pos rfl]
      by_cases hs : search = none ∨ found = true
      · rw [if_pos hs, if_pos (hnone.mpr hs)]
        rfl
      · rw [if_neg hs, if_neg (fun h => hs (hnone.mp h)), ih]
        congr 2
        cases search with
        | none => exact absurd (Or.inl rfl) hs
        | some p => simp [MacsecPort.key, Prod.ext_iff]

theorem portGetNext_eq (search : Option MacsecPort) : portGetNext c portNo search =
    (nextKey c.ports (search.map MacsecPort.key) false (List.range maxSecy)).map (portOf portNo) :=
  portGetNextFrom_eq search false _

/-- The iteration is the walk. -/
theorem iterates_iff {search : Option MacsecPort} {ps : List MacsecPort} : Iterates c portNo search ps ↔
    ∃ ks, ps = ks.map (portOf portNo) ∧ Walk maxSecy c.ports (search.map MacsecPort.key) ks := by
  constructor
  · intro h
    induction h with
    | done hnext =>
      rw [portGetNext_eq, Option.map_eq_none_iff] at hnext
      exact ⟨[], rfl, .done hnext⟩
    | more hnext _ ih =>
      rw [portGetNext_eq, Option.map_eq_some_iff] at hnext
      obtain ⟨k, hk, rfl⟩ := hnext
      obtain ⟨ks, rfl, hw⟩ := ih
      exact ⟨k :: ks, rfl, .more hk hw⟩
  · rintro ⟨ks, rfl, hw⟩
    generalize hs : search.map MacsecPort.key = s at hw
    induction hw generalizing search with
    | done hnext =>
      subst hs
      exact .done (by rw [portGetNext_eq, hnext, Option.map_none])
    | @more _ k _ hnext _ ih =>
      subst hs
      exact .more (by rw [portGetNext_eq, hnext, Option.map_some]) (@ih (some (portOf portNo k)) rfl)

end Walk

/-! ## The iteration -/

/-- The iteration is right exactly where no port has two SecYs. -/
theorem iterationRight_iff (hlt : ∀ i k, c.ports i = some k → i < maxSecy) :
    IterationRight c portNo ↔ Distinct maxSecy c.ports := by
  constructor
  · rintro ⟨ps, hps, -, -⟩
    obtain ⟨ks, -, hw⟩ := iterates_iff.mp hps
    exact (walk_ends_iff hlt).mp ⟨ks, hw⟩
  · intro hd
    refine ⟨((List.range maxSecy).filterMap c.ports).map (portOf portNo), iterates_iff.mpr ⟨_, rfl, hd.walk⟩,
      hd.nodup_keys.map portOf_injective, fun p => ?_⟩
    rw [List.mem_map]
    constructor
    · rintro ⟨k, hk, rfl⟩
      obtain ⟨i, hi⟩ := hd.mem_keys.mp hk
      exact ⟨rfl, i, hd.lt hi, ports_eq_some.mp hi⟩
    · rintro ⟨rfl, i, -, hi⟩
      exact ⟨p.key, hd.mem_keys.mpr ⟨i, ports_eq_some.mpr hi⟩, rfl⟩

/-- In every state of a careful run the iteration comes to the port of every SecY in use once, and then to its end. -/
theorem port_iteration (glb : Glb) (h₀ : H) (s : Dev MacsecConf H)
    (hrun : Relation.ReflTransGen (CarefulStep bus) ⟨macsecInit glb, h₀⟩ s) (portNo : Nat) :
    IterationRight s.conf portNo := by
  obtain ⟨-, hd⟩ := careful_run hrun
  exact (iterationRight_iff fun _ _ h => hd.lt h).mpr hd

theorem port_iteration_first :
    IterationRight (calls bench.toBus [(benchPort 1, .secyConfAdd benchSecy)] benchInit).conf 0 := by
  have hrun : Relation.ReflTransGen (CarefulStep bench.toBus) benchInit
      (calls bench.toBus [(benchPort 1, .secyConfAdd benchSecy)] benchInit) :=
    .single (.call (benchPort 1) (.secyConfAdd benchSecy) benchInit fun _ hi => absurd hi Bool.false_ne_true)
  exact port_iteration { initEnable := true } _ _ hrun 0

/-- A second SecY for port 2, added once the slot below its first one is free again. -/
def portTwice : List (MacsecPort × Op) :=
  [(benchPort 1, .secyConfAdd benchSecy), (benchPort 2, .secyConfAdd benchSecy), (benchPort 1, .secyConfDel),
    (benchPort 2, .secyConfAdd benchSecy)]

theorem portTwice_slots : ∀ i < 2, ((calls bench.toBus portTwice benchInit).conf.secy i).hasPort (benchPort 2) = true := by
  decide

/-- Behind port 2 comes port 2, again and again. -/
theorem not_port_iteration : ¬∀ s, Reachable bench.toBus s → ∀ portNo, IterationRight s.conf portNo := by
  intro h
  obtain ⟨ps, hps, -, -⟩ := h _ (reachable_bench portTwice) 0
  obtain ⟨ks, -, hw⟩ := iterates_iff.mp hps
  have hr : List.range maxSecy = [0] ++ 1 :: List.range' 2 62 := by decide
  have hslot : ∀ i < 2, (calls bench.toBus portTwice benchInit).conf.ports i = some (benchPort 2).key :=
    fun i hi => ports_eq_some.mpr (portTwice_slots i hi)
  exact not_walk_of_twice hr List.mem_cons_self (hslot 0 (by decide)) (hslot 1 (by decide)) hw fun k hk => by cases hk

end Lan80xx.Macsec
