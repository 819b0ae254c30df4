import Lan80xx.Lib.Fallible

/-!
# Calls with a journal

Part of the state is a journal that only grows. `Adds log x D` says how the entries that a call adds go with its
outcome; the rules compose this along the call.
-/

namespace Journal

open Fallible

variable {ε S E α β : Type}

/-- What a call hands back to its caller. -/
def outcome (x : EStateM ε S α) (s : S) : Except ε α :=
  match x s with
  | .ok a _ => .ok a
  | .error e _ => .error e

/-- Calls that leave the journal alone. -/
def unlogged (log : S → List E) : Frame S where
  rel s s' := log s' = log s
  refl _ := rfl
  trans h₁ h₂ := h₂.trans h₁

/-- The entries added from one state to a later one. -/
def added (log : S → List E) (s s' : S) : List E := (log s').drop (log s).length

/-- The entries that the call adds are related to its outcome by `D`. -/
def Adds (log : S → List E) (x : EStateM ε S α) (D : Except ε α → List E → Prop) : Prop :=
  ∀ s, ∃ new, log (final x s) = log s ++ new ∧ D (outcome x s) new

section Rules

variable {log : S → List E} {x : EStateM ε S α} {f : α → EStateM ε S β} {D D' : Except ε α → List E → Prop}
  {R : Except ε β → List E → Prop}

theorem outcome_ok {a : α} {s s' : S} (h : x s = .ok a s') : outcome x s = .ok a := by
  rw [outcome, h]

theorem outcome_error {e : ε} {s s' : S} (h : x s = .error e s') : outcome x s = .error e := by
  rw [outcome, h]

theorem Adds.pure {a : α} (h : D (.ok a) []) : Adds log (pure a : EStateM ε S α) D :=
  fun _ => ⟨[], (List.append_nil _).symm, h⟩

theorem Adds.throw {e : ε} (h : D (.error e) []) : Adds log (throw e : EStateM ε S α) D :=
  fun _ => ⟨[], (List.append_nil _).symm, h⟩

theorem Adds.silent (h : Within (unlogged log) x) (hD : ∀ s, D (outcome x s) []) : Adds log x D :=
  fun s => ⟨[], (h s).trans (List.append_nil _).symm, hD s⟩

theorem added_eq {s s' : S} {new : List E} (h : log s' = log s ++ new) : Journal.added log s s' = new := by
  rw [Journal.added, h, List.drop_left]

theorem Adds.added (hx : Adds log x D) (s : S) : D (outcome x s) (Journal.added log s (final x s)) := by
  obtain ⟨new, hnew, hD⟩ := hx s
  rw [added_eq hnew]
  exact hD

/-- The entries of a call that returned. -/
theorem Adds.ok (hx : Adds log x D) {s s' : S} {a : α} (h : x s = .ok a s') :
    ∃ new, log s' = log s ++ new ∧ D (.ok a) new := by
  obtain ⟨new, hnew, hD⟩ := hx s
  rw [final, h] at hnew
  exact ⟨new, hnew, outcome_ok h ▸ hD⟩

/-- The entries of a call that failed. -/
theorem Adds.error (hx : Adds log x D) {s s' : S} {e : ε} (h : x s = .error e s') :
    ∃ new, log s' = log s ++ new ∧ D (.error e) new := by
  obtain ⟨new, hnew, hD⟩ := hx s
  rw [final, h] at hnew
  exact ⟨new, hnew, outcome_error h ▸ hD⟩

theorem Adds.weaken (hx : Adds log x D) (h : ∀ r new, D r new → D' r new) : Adds log x D' := by
  intro s
  obtain ⟨new, hnew, hD⟩ := hx s
  exact ⟨new, hnew, h _ _ hD⟩

/-- The entries of the first call come before those of the second; a call that fails ends the whole. -/
theorem Adds.bind {G : α → Except ε β → List E → Prop} (hx : Adds log x D) (hf : ∀ a, Adds log (f a) (G a))
    (hok : ∀ a r new new', D (.ok a) new → G a r new' → R r (new ++ new'))
    (herr : ∀ e new, D (.error e) new → R (.error e) new) : Adds log (x >>= f) R := by
  intro s
  obtain ⟨new, hnew, hD⟩ := hx s
  cases hxs : x s with
  | ok a t =>
    obtain ⟨new', hnew', hD'⟩ := hf a t
    have hbind : (x >>= f) s = f a t := by simp [Bind.bind, EStateM.bind, hxs]
    refine ⟨new ++ new', ?_, ?_⟩
    · rw [final, hbind, ← final, hnew', ← List.append_assoc, ← hnew]
      simp only [final, hxs]
    · rw [outcome, hbind, ← outcome]
      exact hok a _ new new' (outcome_ok hxs ▸ hD) hD'
  | error e t =>
    have hbind : (x >>= f) s = .error e t := by simp [Bind.bind, EStateM.bind, hxs]
    refine ⟨new, ?_, ?_⟩
    · rw [← hnew]
      simp only [final, hbind, hxs]
    · rw [outcome_error hbind]
      exact herr e new (outcome_error hxs ▸ hD)

/-- What is made of the value of a call that returns. -/
theorem Adds.map (hx : Adds log x D) (g : α → β) :
    Adds log (x >>= fun a => Pure.pure (g a)) fun r new => ∃ r', D r' new ∧ r = r'.map g := by
  refine Adds.bind (G := fun a r new => r = .ok (g a) ∧ new = []) hx (fun a => Adds.pure ⟨rfl, rfl⟩)
    (fun a r new new' h h' => ?_) fun e new h => ⟨.error e, h, rfl⟩
  obtain ⟨rfl, rfl⟩ := h'
  rw [List.append_nil]
  exact ⟨.ok a, h, rfl⟩

theorem Adds.ite {b : Prop} [Decidable b] {y : EStateM ε S α} (hx : b → Adds log x D) (hy : ¬b → Adds log y D) :
    Adds log (if b then x else y) D := by
  split
  · next hb => exact hx hb
  · next hb => exact hy hb

/-- A guard adds nothing. -/
theorem Adds.failIf_bind {b : Prop} [Decidable b] {e : ε} {f : Unit → EStateM ε S β} (h : b → R (.error e) [])
    (hf : ¬b → Adds log (f ()) R) : Adds log (Fallible.failIf b e >>= f) R := by
  by_cases hb : b
  · have hguard : (Fallible.failIf b e : EStateM ε S Unit) = MonadExcept.throw e := if_pos hb
    rw [hguard]
    exact Adds.throw (h hb)
  · have hguard : (Fallible.failIf b e : EStateM ε S Unit) = Pure.pure () := if_neg hb
    rw [hguard]
    exact hf hb

end Rules

end Journal
