import Lan80xx.Macsec.Isolation

/-!
# MACsec: who owns a record

In every reachable state the SA records in use and the pointers of the SecYs in use correspond one to one. A call that
fails after it has taken a record does not give it back: the record stays in use, and the SecY the call was addressed to
owns it.
-/

namespace Lan80xx.Macsec

open Fallible RegBus Ownership MacsecConf

variable {H : Type} {bus : PortBus H} {i j : Nat} {c : MacsecConf} {d : Direction}

/-! ## Pointers of a SecY -/

/-- The pointers to SA records that a SecY holds. -/
inductive Slot
  | txSa (an : Nat)
  | rxSa (sc an : Nat)
  | pattern (a : MatchAction)
  deriving DecidableEq

namespace MacsecConf

/-- Where the pointer lies: the transmit SAs and the egress patterns point into `tx_sa`, the others into `rx_sa`. -/
def slotPlace (c : MacsecConf) (d : Direction) : Nat × Slot → Option SaPlace
  | (i, .txSa an) => if (c.secy i).inUse = true ∧ d = .egress then some (.sa i an) else none
  | (i, .rxSa sc an) =>
    if (c.secy i).inUse = true ∧ d = .ingress then ((c.secy i).rxSc sc).map fun p => .sa p an else none
  | (i, .pattern a) => if (c.secy i).inUse = true then some (.pattern i a) else none

/-- The record that a SecY in use points to. -/
def owner (c : MacsecConf) (d : Direction) (s : Nat × Slot) : Option Nat := (c.slotPlace d s).bind (c.saOwner d)

end MacsecConf

theorem Inv.slotPlace_inj (h : Inv c) {s t : Nat × Slot} {u : SaPlace} (hs : c.slotPlace d s = some u)
    (ht : c.slotPlace d t = some u) : s = t := by
  obtain ⟨i, s⟩ := s
  obtain ⟨j, t⟩ := t
  cases s <;> cases t <;> simp only [MacsecConf.slotPlace, Option.ite_none_right_eq_some, Option.some.injEq,
    Option.map_eq_some_iff] at hs ht
  case rxSa.rxSa sc an sc' an' =>
    obtain ⟨-, p, hp, rfl⟩ := hs
    obtain ⟨-, q, hq, he⟩ := ht
    obtain ⟨rfl, rfl⟩ := SaPlace.sa.inj he
    have := h.sc.inj (s := (i, sc)) (t := (j, sc')) hp hq
    simp_all
  all_goals grind

theorem Inv.slotPlace_cover (h : Inv c) {u : SaPlace} {r : Nat} (hu : c.saOwner d u = some r) :
    ∃ s, c.slotPlace d s = some u := by
  cases u with
  | sa n an =>
    cases d with
    | egress =>
      have hn : (c.secy n).inUse = true := h.txSc_secy (h.tx_place hu).2
      exact ⟨(n, .txSa an), by simp [MacsecConf.slotPlace, hn]⟩
    | ingress =>
      have hn : (c.rxSc n).inUse = true := (h.rx_place hu).2
      obtain ⟨⟨i, sc⟩, hp⟩ := h.sc.covered hn
      have hp : (c.secy i).rxSc sc = some n := hp
      exact ⟨(i, .rxSa sc an), by simp [MacsecConf.slotPlace, h.sc_secy hp, hp]⟩
  | pattern i a =>
    rw [saOwner_pattern, Option.ite_none_right_eq_some] at hu
    exact ⟨(i, .pattern a), by simp [MacsecConf.slotPlace, hu.1.1]⟩

/-- The records in use and the pointers of the SecYs in use correspond one to one. -/
theorem Inv.owned (h : Inv c) (d : Direction) : Owned (c.owner d) fun r => c.saInUse d r = true := by
  have ho : Owned (c.saOwner d) fun r => c.saInUse d r = true := by
    cases d with
    | egress => exact h.tx
    | ingress => exact h.rx
  exact ho.via (c.slotPlace d) h.slotPlace_inj h.slotPlace_cover

theorem ownedBy_of_owner {s : Slot} {r : Nat} (h : c.owner d (i, s) = some r) : c.ownedBy d i r := by
  obtain ⟨u, hs, hu⟩ := Option.bind_eq_some_iff.mp h
  cases s <;> simp only [MacsecConf.slotPlace, Option.ite_none_right_eq_some, Option.some.injEq,
    Option.map_eq_some_iff] at hs
  case txSa an =>
    obtain ⟨⟨-, rfl⟩, rfl⟩ := hs
    exact Or.inl ⟨an, hu⟩
  case rxSa sc an =>
    obtain ⟨⟨-, rfl⟩, p, hp, rfl⟩ := hs
    exact Or.inl ⟨sc, p, an, hp, hu⟩
  case pattern a =>
    obtain ⟨-, rfl⟩ := hs
    exact Or.inr ⟨a, hu⟩

/-! ## Calls -/

theorem sameSecy_of_trace {sp : Scope} {s s' : Dev MacsecConf H} (ht : Relation.ReflTransGen (Micro bus sp i) s s')
    (h : Inv s.conf) (hj : j ≠ i) : SameSecy s.conf s'.conf j := by
  induction ht with
  | refl => exact .refl
  | tail ht hm ih =>
    cases hm with
    | hw _ => exact ih
    | sw hc _ => exact ih.trans (hc.sameSecy (trace_inv ht h) hj)
    | zero record _ => exact final_saInuse_conf.symm ▸ ih

/-- A call changes no SecY but the one it is addressed to. -/
theorem sameSecy_call {s : Dev MacsecConf H} (h : Inv s.conf) {op : Op} {port : MacsecPort}
    (hj : op.slot s.conf port ≠ some j) : SameSecy s.conf (final (op.call bus port) s).conf j := by
  have hi : ∀ i, op.slot s.conf port = some i → i = (op.slot s.conf port).getD (j + 1) := fun i hi => by rw [hi]; rfl
  refine sameSecy_of_trace (trace_call h hi) h ?_
  cases hs : op.slot s.conf port with
  | none => simp
  | some i =>
    rw [hs] at hj
    simpa using fun he => hj (congrArg some he.symm)

/-- A record that a call has taken, whether the call succeeds or fails, belongs to the SecY it is addressed to. -/
theorem taken_owned {s : Dev MacsecConf H} (h : Inv s.conf) {op : Op} {port : MacsecPort} {r : Nat}
    (hfree : s.conf.saInUse d r = false) (hr : (final (op.call bus port) s).conf.saInUse d r = true) :
    ∃ i slot, op.slot s.conf port = some i ∧ (final (op.call bus port) s).conf.owner d (i, slot) = some r := by
  obtain ⟨⟨j, slot⟩, hown⟩ := ((inv_call h op port).owned d).covered hr
  by_cases hj : op.slot s.conf port = some j
  · exact ⟨j, slot, hj, hown⟩
  · have hused := h.ownedBy_inUse (((sameSecy_call h hj).ownedBy d r).mp (ownedBy_of_owner hown))
    rw [hfree] at hused
    cases hused

/-! ## Reachable states -/

/-- A SecY whose pattern has a priority that the TCAM does not know. -/
def priority16 : List (MacsecPort × Op) :=
  [(benchPort 1, .secyConfAdd benchSecy), (benchPort 1, .txScSet),
    (benchPort 1, .patternSet .egress .controlledPort { priority := 16 })]

/-- A failing call gives back the records it has taken. -/
def FreedOnError (bus : PortBus H) : Prop :=
  ∀ (s : Dev MacsecConf H) (port : MacsecPort) (op : Op), Reachable bus s → errorOf (op.call bus port) s ≠ none →
    ∀ d r, s.conf.saInUse d r = false → (final (op.call bus port) s).conf.saInUse d r = false

end Lan80xx.Macsec
