import Lan80xx.Lib.Fallible

/-!
# Loops that poll

A loop that looks at what its last pass returned, and goes on as long as that asks for it. Nothing bounds the number of
passes, so the loop is given fuel; a call that has used it up is still running, which is the error `stuck`.

- `pollWhile_stuck_iff`: the loop is still running after `n` passes when every one of them asked for another one;
- `ends_pollWhile`: an invariant of the passes holds where the loop ends.
-/

namespace Fallible

variable {ε S α : Type}

/-- `while (again a) a = body a;`, for at most `n` passes. -/
def pollWhile (stuck : ε) (again : α → Bool) (body : α → EStateM ε S α) : Nat → α → EStateM ε S α
  | 0, a => if again a then throw stuck else pure a
  | n + 1, a => if again a then body a >>= pollWhile stuck again body n else pure a

/-- The first `n` passes return, and each of them asks for another one. -/
def Lasts (again : α → Bool) (body : α → EStateM ε S α) : Nat → α → S → Prop
  | 0, a, _ => again a = true
  | n + 1, a, s => again a = true ∧ ∃ b t, body a s = .ok b t ∧ Lasts again body n b t

/-- An error that only the first part of a call can give. -/
theorem errorOf_bind_iff {β : Type} {x : EStateM ε S α} {f : α → EStateM ε S β} {e : ε}
    (hf : ∀ a t, errorOf (f a) t ≠ some e) (s : S) : errorOf (x >>= f) s = some e ↔ errorOf x s = some e := by
  cases hx : x s with
  | ok a t =>
    have hrun : errorOf (x >>= f) s = errorOf (f a) t := by simp only [errorOf, bind_of_ok hx]
    rw [hrun]
    simp [errorOf, hx] at hf ⊢
    exact hf a t
  | error e' t => simp only [errorOf, bind_of_error hx, hx]

variable {stuck : ε} {again : α → Bool} {body : α → EStateM ε S α}

theorem pollWhile_of_not {a : α} (n : Nat) (h : again a = false) : pollWhile stuck again body n a = pure a := by
  cases n <;> simp [pollWhile, h]

theorem pollWhile_stuck_iff (hbody : ∀ a s, errorOf (body a) s ≠ some stuck) (n : Nat) (a : α) (s : S) :
    errorOf (pollWhile stuck again body n a) s = some stuck ↔ Lasts again body n a s := by
  induction n generalizing a s with
  | zero =>
    cases ha : again a with
    | true => simp [pollWhile, Lasts, ha]
    | false => simp [pollWhile, Lasts, ha]
  | succ n ih =>
    cases ha : again a with
    | false => simp [pollWhile, Lasts, ha]
    | true =>
      cases hb : body a s with
      | ok b t =>
        have hrun := bind_of_ok (f := pollWhile stuck again body n) hb
        have hlasts : Lasts again body (n + 1) a s ↔ Lasts again body n b t := by
          constructor
          · rintro ⟨-, b', t', hb', hl⟩
            cases hb.symm.trans hb'
            exact hl
          · exact fun hl => ⟨ha, b, t, hb, hl⟩
        rw [hlasts, ← ih b t]
        simp only [pollWhile, ha, if_true, errorOf, hrun]
      | error e t =>
        have hne := hbody a s
        simp only [errorOf, hb] at hne
        simp [pollWhile, Lasts, ha, errorOf, hb, bind, EStateM.bind, hne]

variable (stuck again) in
/-- A loop whose body does nothing ends at once or never. -/
theorem pollWhile_pure (n : Nat) (a : α) :
    (pollWhile stuck again pure n a : EStateM ε S α) = if again a then throw stuck else pure a := by
  induction n with
  | zero => rfl
  | succ n ih =>
    cases ha : again a with
    | true => simp only [pollWhile, ha, if_true, pure_bind, ih]
    | false => exact pollWhile_of_not _ ha

variable (stuck again body) in
theorem ends_pollWhile {I : α → S → Prop} {E : S → Prop} (hbody : ∀ a, again a = true → Ends (I a) (body a) I E)
    (hstuck : ∀ a s, again a = true → I a s → E s) (n : Nat) (a : α) :
    Ends (I a) (pollWhile stuck again body n a) (fun b s => I b s ∧ again b = false) E := by
  induction n generalizing a with
  | zero =>
    cases ha : again a with
    | true =>
      simp only [pollWhile, ha, if_true]
      exact Ends.throw fun s hs => hstuck a s ha hs
    | false =>
      rw [pollWhile_of_not 0 ha]
      exact Ends.pure fun s hs => ⟨hs, ha⟩
  | succ n ih =>
    cases ha : again a with
    | true =>
      simp only [pollWhile, ha, if_true]
      exact (hbody a ha).bind fun b => ih b
    | false =>
      rw [pollWhile_of_not _ ha]
      exact Ends.pure fun s hs => ⟨hs, ha⟩

end Fallible
