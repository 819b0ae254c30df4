import Mathlib.Data.Set.Basic

/-!
# Fallible calls that keep their state

A driver call reads and updates a state, and returns a value or an error code. Unlike in a transaction, what was
written before the error stays written: `EStateM` without backtracking.

- `final`: the state a call leaves behind, on success and on failure alike;
- `Frame`: a reflexive and transitive relation on states, what a family of calls may do;
- `Steps F P x Q`: from a state with `P`, the call `x` stays within the frame `F` however it ends, and ends in `Q`
  when it returns.

The rules of `Steps` follow the shape of a program (`Steps.bind`, `Steps.ite`, `Steps.forUpTo`); a failing exit owes
nothing but the frame, so an error path needs no postcondition of its own. `Ends P x Q E` is for calls whose errors need
one.
-/

namespace Fallible

variable {ε S α β : Type}

/-! ## Calls -/

/-- The state a call leaves behind, whether it returns or fails. -/
def final (x : EStateM ε S α) (s : S) : S :=
  match x s with
  | .ok _ s' => s'
  | .error _ s' => s'

/-- The error a call ends with, if it fails. -/
def errorOf (x : EStateM ε S α) (s : S) : Option ε :=
  match x s with
  | .ok _ _ => none
  | .error e _ => some e

/-- A call whose error is replaced by the caller's own code. -/
def orFail (x : EStateM ε S α) (e : ε) : EStateM ε S α := fun s =>
  match x s with
  | .ok a s' => .ok a s'
  | .error _ s' => .error e s'

/-- A call whose outcome the caller looks at itself: `none` for any error. -/
def attempt (x : EStateM ε S α) : EStateM ε S (Option α) := fun s =>
  match x s with
  | .ok a s' => .ok (some a) s'
  | .error _ s' => .ok none s'

/-- An update of the state after a call, whichever way that ended. -/
def afterwards (x : EStateM ε S α) (f : S → S) : EStateM ε S α := fun s =>
  match x s with
  | .ok a s' => .ok a (f s')
  | .error e s' => .error e (f s')

/-- An update of the state after a call that fails. -/
def onError (x : EStateM ε S α) (f : S → S) : EStateM ε S α := fun s =>
  match x s with
  | .ok a s' => .ok a s'
  | .error e s' => .error e (f s')

/-- A statement that is executed only when `b` holds. -/
def when (b : Prop) [Decidable b] (x : EStateM ε S Unit) : EStateM ε S Unit :=
  if b then x else pure ()

/-- A guard: the call fails when `b` holds. -/
def failIf (b : Prop) [Decidable b] (e : ε) : EStateM ε S Unit :=
  when b (throw e)

/-- The loop `for i = 0 .. n - 1`, left at the first error. -/
def forUpTo : Nat → (Nat → EStateM ε S Unit) → EStateM ε S Unit
  | 0, _ => pure ()
  | n + 1, f => do
    forUpTo n f
    f n

/-- The loop `for i = 0 .. n - 1` that carries a local variable, left at the first error. -/
def foldUpTo (b : β) : Nat → (β → Nat → EStateM ε S β) → EStateM ε S β
  | 0, _ => pure b
  | n + 1, f => do
    f (← foldUpTo b n f) n

theorem final_pure (a : α) (s : S) : final (pure a : EStateM ε S α) s = s := rfl

theorem final_throw (e : ε) (s : S) : final (throw e : EStateM ε S α) s = s := rfl

theorem bind_ok_iff (x : EStateM ε S α) (f : α → EStateM ε S β) (s s' : S) (b : β) :
    (x >>= f) s = .ok b s' ↔ ∃ a t, x s = .ok a t ∧ f a t = .ok b s' := by
  simp only [bind, EStateM.bind]
  cases x s with
  | ok a t => simp [and_assoc]
  | error e t => simp

theorem ok_final {x : EStateM ε S Unit} {s : S} (h : errorOf x s = none) : x s = .ok () (final x s) := by
  simp only [errorOf] at h
  simp only [final]
  cases hx : x s with
  | ok u s' => rfl
  | error e s' => simp [hx] at h

/-- What follows a call that returns. -/
theorem bind_of_ok {x : EStateM ε S α} {f : α → EStateM ε S β} {s t : S} {a : α} (h : x s = .ok a t) :
    (x >>= f) s = f a t := by
  simp [bind, EStateM.bind, h]

/-- A call that fails is the end of it. -/
theorem bind_of_error {x : EStateM ε S α} {f : α → EStateM ε S β} {s t : S} {e : ε} (h : x s = .error e t) :
    (x >>= f) s = .error e t := by
  simp [bind, EStateM.bind, h]

/-- What follows a guard that passes. -/
theorem failIf_bind_of_not {b : Prop} [Decidable b] {e : ε} {f : Unit → EStateM ε S β} (h : ¬b) :
    failIf b e >>= f = f () := by
  simp [failIf, when, h]

@[simp] theorem errorOf_pure (a : α) (s : S) : errorOf (pure a : EStateM ε S α) s = none := rfl

@[simp] theorem errorOf_throw (e : ε) (s : S) : errorOf (throw e : EStateM ε S α) s = some e := rfl

theorem errorOf_failIf {b : Prop} [Decidable b] {e : ε} (s : S) :
    errorOf (failIf b e : EStateM ε S Unit) s = if b then some e else none := by
  by_cases hb : b
  · simp [failIf, when, hb]
  · simp [failIf, when, hb]

theorem final_bind (x : EStateM ε S α) (f : α → EStateM ε S β) (s : S) :
    final (x >>= f) s = match x s with | .ok a t => final (f a) t | .error _ t => t := by
  simp only [final, bind, EStateM.bind]
  cases x s <;> rfl

theorem final_orFail (x : EStateM ε S α) (e : ε) (s : S) : final (orFail x e) s = final x s := by
  simp only [final, orFail]
  cases x s <;> rfl

theorem final_attempt (x : EStateM ε S α) (s : S) : final (attempt x) s = final x s := by
  simp only [final, attempt]
  cases x s <;> rfl

/-- A call whose outcome is ignored. -/
theorem discard_attempt (x : EStateM ε S α) (s : S) : (discard (attempt x) : EStateM ε S Unit) s = .ok () (final x s) := by
  have h : (discard (attempt x) : EStateM ε S Unit) s = EStateM.map (fun _ => ()) (attempt x) s := rfl
  rw [h, EStateM.map]
  cases hx : x s <;> simp [attempt, final, hx]

theorem orFail_ok_iff (x : EStateM ε S α) (e : ε) (s s' : S) (a : α) :
    orFail x e s = .ok a s' ↔ x s = .ok a s' := by
  simp only [orFail]
  cases x s <;> simp

/-! ## Frames -/

/-- What a family of calls may do to the state, closed under doing nothing and doing one after the other. -/
structure Frame (S : Type) where
  rel : S → S → Prop
  refl : ∀ s, rel s s
  trans : ∀ {a b c}, rel a b → rel b c → rel a c

namespace Frame

/-- The frame generated by single steps. -/
def closure (R : S → S → Prop) : Frame S where
  rel := Relation.ReflTransGen R
  refl _ := .refl
  trans := Relation.ReflTransGen.trans

/-- The frame that says nothing, for calls of which only the result counts. -/
def all : Frame S where
  rel _ _ := True
  refl _ := trivial
  trans _ _ := trivial

/-- The frame that keeps a predicate. -/
def keeps (P : S → Prop) : Frame S where
  rel s s' := P s → P s'
  refl _ h := h
  trans h₁ h₂ h := h₂ (h₁ h)

end Frame

/-! ## Specifications -/

/-- From a state with `P`, the call stays within the frame, and ends in `Q` when it returns. -/
def Steps (F : Frame S) (P : S → Prop) (x : EStateM ε S α) (Q : α → S → Prop) : Prop :=
  ∀ s, P s → F.rel s (final x s) ∧ ∀ a s', x s = .ok a s' → Q a s'

section Rules

variable {F G : Frame S} {P P' : S → Prop} {Q Q' : α → S → Prop} {R : β → S → Prop}
  {x : EStateM ε S α} {f : α → EStateM ε S β}

theorem Steps.pure {a : α} (h : ∀ s, P s → Q a s) : Steps F P (pure a : EStateM ε S α) Q := by
  intro s hP
  refine ⟨F.refl s, ?_⟩
  rintro b s' hb
  cases hb
  exact h s hP

theorem Steps.throw {e : ε} : Steps F P (throw e : EStateM ε S α) Q := by
  intro s _
  refine ⟨F.refl s, ?_⟩
  intro a s' h
  cases h

theorem Steps.bind (hx : Steps F P x Q) (hf : ∀ a, Steps F (Q a) (f a) R) : Steps F P (x >>= f) R := by
  intro s hP
  obtain ⟨hrel, hpost⟩ := hx s hP
  rw [final_bind]
  cases hxs : x s with
  | ok a t =>
    obtain ⟨hrel', hpost'⟩ := hf a t (hpost a t hxs)
    have hst : F.rel s t := by simpa [final, hxs] using hrel
    refine ⟨F.trans hst hrel', ?_⟩
    intro b s' hb
    obtain ⟨a', t', h₁, h₂⟩ := (bind_ok_iff x f s s' b).mp hb
    rw [hxs] at h₁
    cases h₁
    exact hpost' b s' h₂
  | error e t =>
    refine ⟨by simpa [final, hxs] using hrel, ?_⟩
    intro b s' hb
    obtain ⟨a', t', h₁, -⟩ := (bind_ok_iff x f s s' b).mp hb
    rw [hxs] at h₁
    cases h₁

theorem Steps.weaken (hx : Steps F P x Q) (hP : ∀ s, P' s → P s) (hQ : ∀ a s, Q a s → Q' a s) :
    Steps F P' x Q' := by
  intro s h
  obtain ⟨hrel, hpost⟩ := hx s (hP s h)
  exact ⟨hrel, fun a s' ha => hQ a s' (hpost a s' ha)⟩

theorem Steps.pre (hx : Steps F P x Q) (hP : ∀ s, P' s → P s) : Steps F P' x Q :=
  hx.weaken hP fun _ _ h => h

theorem Steps.post (hx : Steps F P x Q) (hQ : ∀ a s, Q a s → Q' a s) : Steps F P x Q' :=
  hx.weaken (fun _ h => h) hQ

/-- What holds when the call has returned. -/
theorem Steps.ok (hx : Steps F P x Q) {s s' : S} {a : α} (hP : P s) (h : x s = .ok a s') : Q a s' :=
  (hx s hP).2 a s' h

/-- A call specified in one frame, seen in a larger one. -/
theorem Steps.mono (hx : Steps F P x Q) (hFG : ∀ s s', P s → F.rel s s' → G.rel s s') : Steps G P x Q := by
  intro s hP
  obtain ⟨hrel, hpost⟩ := hx s hP
  exact ⟨hFG s _ hP hrel, hpost⟩

/-- What the frame and the precondition say together of the final state. -/
theorem Steps.framed (hx : Steps F P x Q) (hR : ∀ s s', P s → F.rel s s' → P' s') :
    Steps F P x (fun a s' => Q a s' ∧ P' s') := by
  intro s hP
  obtain ⟨hrel, hpost⟩ := hx s hP
  refine ⟨hrel, fun a s' ha => ⟨hpost a s' ha, ?_⟩⟩
  exact hR s s' hP (by simpa [final, ha] using hrel)

/-- What the frame of a second specification keeps, besides what the call promises. -/
theorem Steps.alongside {T T' : S → Prop} (hx : Steps F P x Q) (hw : ∀ s, G.rel s (final x s))
    (hT : ∀ s s', T s → G.rel s s' → T' s') : Steps F (fun s => P s ∧ T s) x (fun a s => Q a s ∧ T' s) := by
  rintro s ⟨hP, ht⟩
  obtain ⟨hrel, hpost⟩ := hx s hP
  refine ⟨hrel, fun a s' ha => ⟨hpost a s' ha, hT s s' ht ?_⟩⟩
  simpa [final, ha] using hw s

/-- A fact that does not depend on the state moves out of the precondition. -/
theorem Steps.imp {p : Prop} (hx : p → Steps F P x Q) : Steps F (fun s => P s ∧ p) x Q := by
  rintro s ⟨hP, hp⟩
  exact hx hp s hP

theorem Steps.ghost {ι : Type} {P : ι → S → Prop} (hx : ∀ i, Steps F (P i) x Q) :
    Steps F (fun s => ∃ i, P i s) x Q := by
  rintro s ⟨i, hi⟩
  exact hx i s hi

theorem Steps.ite {b : Prop} [Decidable b] {y : EStateM ε S α} (hx : b → Steps F P x Q)
    (hy : ¬b → Steps F P y Q) : Steps F P (if b then x else y) Q := by
  by_cases hb : b
  · simpa [hb] using hx hb
  · simpa [hb] using hy hb

theorem Steps.orFail {e : ε} (hx : Steps F P x Q) : Steps F P (orFail x e) Q := by
  intro s hP
  obtain ⟨hrel, hpost⟩ := hx s hP
  rw [final_orFail]
  exact ⟨hrel, fun a s' ha => hpost a s' ((orFail_ok_iff x e s s' a).mp ha)⟩

theorem Steps.attempt {T : S → Prop} (hx : Steps F P x Q) (hF : ∀ s s', P s → F.rel s s' → T s') :
    Steps F P (attempt x) (fun _ => T) := by
  intro s hP
  obtain ⟨hrel, -⟩ := hx s hP
  rw [final_attempt]
  refine ⟨hrel, ?_⟩
  intro o s' ho
  refine hF s s' hP ?_
  have : s' = final (Fallible.attempt x) s := by simp [final, ho]
  rw [this, final_attempt]
  exact hrel

/-- What an attempt that came through has established. -/
theorem Steps.attempt_some (hx : Steps F P x Q) : Steps F P (Fallible.attempt x) (fun o s => ∀ a, o = some a → Q a s) := by
  intro s hP
  obtain ⟨hrel, hpost⟩ := hx s hP
  rw [final_attempt]
  refine ⟨hrel, fun o s' ho a ha => ?_⟩
  subst ha
  cases h : x s with
  | ok b t =>
    simp only [Fallible.attempt, h] at ho
    cases ho
    exact hpost _ _ h
  | error e t =>
    simp only [Fallible.attempt, h] at ho
    cases ho

theorem Steps.when {b : Prop} [Decidable b] {x : EStateM ε S Unit} {T : S → Prop}
    (hx : b → Steps F P x fun _ => T) (hT : ∀ s, ¬b → P s → T s) : Steps F P (when b x) fun _ => T :=
  Steps.ite hx fun hb => Steps.pure fun s => hT s hb

theorem Steps.failIf {b : Prop} [Decidable b] {e : ε} :
    Steps F P (failIf b e : EStateM ε S Unit) (fun _ s => P s ∧ ¬b) := by
  unfold Fallible.failIf Fallible.when
  exact Steps.ite (fun _ => Steps.throw) fun hb => Steps.pure fun _ h => ⟨h, hb⟩

/-- What follows a guard may use that it passed. -/
theorem Steps.failIf_bind {b : Prop} [Decidable b] {e : ε} {f : Unit → EStateM ε S β}
    (hf : ¬b → Steps F P (f ()) R) : Steps F P (Fallible.failIf b e >>= f) R :=
  Steps.failIf.bind fun _ => Steps.imp hf

theorem Steps.get : Steps F P (get : EStateM ε S S) (fun a s => P s ∧ a = s) := by
  intro s hP
  refine ⟨F.refl s, ?_⟩
  rintro a s' h
  cases h
  exact ⟨hP, rfl⟩

theorem Steps.modify {g : S → S} {T : S → Prop} (h : ∀ s, P s → F.rel s (g s) ∧ T (g s)) :
    Steps F P (modify g : EStateM ε S PUnit) (fun _ => T) := by
  intro s hP
  refine ⟨(h s hP).1, ?_⟩
  rintro a s' ha
  cases ha
  exact (h s hP).2

/-- The loop rule: an invariant indexed by the number of rounds done. -/
theorem Steps.forUpTo {I : Nat → S → Prop} {body : Nat → EStateM ε S Unit} :
    ∀ n, (∀ k < n, Steps F (I k) (body k) (fun _ => I (k + 1))) →
      Steps F (I 0) (forUpTo n body) (fun _ => I n)
  | 0, _ => Steps.pure fun _ h => h
  | n + 1, h =>
    Steps.bind (Steps.forUpTo n fun k hk => h k (by omega)) fun _ => h n (by omega)

/-- The loop rule for a loop with a local variable. -/
theorem Steps.foldUpTo {b : β} {I : Nat → β → S → Prop} {body : β → Nat → EStateM ε S β} :
    ∀ n, (∀ a, ∀ k < n, Steps F (I k a) (body a k) (I (k + 1))) → Steps F (I 0 b) (foldUpTo b n body) (I n)
  | 0, _ => Steps.pure fun _ h => h
  | n + 1, h => Steps.bind (Steps.foldUpTo n fun a k hk => h a k (by omega)) fun a => h a n (by omega)

end Rules

/-! ## Calls of which only the frame is known -/

/-- The call stays within the frame from every state. -/
def Within (F : Frame S) (x : EStateM ε S α) : Prop :=
  ∀ s, F.rel s (final x s)

section Within

variable {F G : Frame S} {P T : S → Prop} {x : EStateM ε S α} {f : α → EStateM ε S β}

theorem within_iff : Within F x ↔ Steps F (fun _ => True) x fun _ _ => True :=
  ⟨fun h s _ => ⟨h s, fun _ _ _ => trivial⟩, fun h s => (h s trivial).1⟩

theorem Within.pure (a : α) : Within F (pure a : EStateM ε S α) := fun s => F.refl s

theorem Within.throw (e : ε) : Within F (throw e : EStateM ε S α) := fun s => F.refl s

theorem Within.get : Within F (get : EStateM ε S S) := fun s => F.refl s

theorem Within.bind (hx : Within F x) (hf : ∀ a, Within F (f a)) : Within F (x >>= f) :=
  within_iff.mpr <| (within_iff.mp hx).bind fun a => within_iff.mp (hf a)

theorem Within.ite {b : Prop} [Decidable b] {y : EStateM ε S α} (hx : Within F x) (hy : Within F y) :
    Within F (if b then x else y) := by
  split
  · exact hx
  · exact hy

/-- A branch may use its condition. -/
theorem Within.ite' {b : Prop} [Decidable b] {y : EStateM ε S α} (hx : b → Within F x) (hy : ¬b → Within F y) :
    Within F (if b then x else y) := by
  by_cases hb : b
  · simpa [hb] using hx hb
  · simpa [hb] using hy hb

theorem Within.orFail {e : ε} (hx : Within F x) : Within F (orFail x e) := fun s => by
  rw [final_orFail]
  exact hx s

theorem Within.attempt (hx : Within F x) : Within F (attempt x) := fun s => by
  rw [final_attempt]
  exact hx s

theorem Within.onError {g : S → S} (hx : Within F x) (hg : ∀ s, F.rel s (g s)) : Within F (onError x g) := fun s => by
  have hrel := hx s
  unfold final at hrel ⊢
  unfold Fallible.onError
  cases h : x s with
  | ok a t => simpa only [h] using hrel
  | error e t =>
    rw [h] at hrel
    exact F.trans hrel (hg t)

theorem Within.afterwards {g : S → S} (hx : Within F x) (hg : ∀ s, F.rel s (g s)) : Within F (afterwards x g) :=
  fun s => by
    have hrel := hx s
    unfold final at hrel ⊢
    unfold Fallible.afterwards
    cases h : x s with
    | ok a t =>
      rw [h] at hrel
      exact F.trans hrel (hg t)
    | error e t =>
      rw [h] at hrel
      exact F.trans hrel (hg t)

theorem Within.when {b : Prop} [Decidable b] {x : EStateM ε S Unit} (hx : b → Within F x) : Within F (when b x) :=
  Within.ite' hx fun _ => Within.pure _

theorem Within.failIf {b : Prop} [Decidable b] {e : ε} : Within F (failIf b e : EStateM ε S Unit) :=
  Within.when fun _ => Within.throw _

theorem Within.forUpTo {body : Nat → EStateM ε S Unit} :
    ∀ n, (∀ k < n, Within F (body k)) → Within F (forUpTo n body)
  | 0, _ => Within.pure _
  | n + 1, h => (Within.forUpTo n fun k hk => h k (by omega)).bind fun _ => h n (by omega)

theorem Within.foldUpTo {b : β} {body : β → Nat → EStateM ε S β} :
    ∀ n, (∀ a, ∀ k < n, Within F (body a k)) → Within F (foldUpTo b n body)
  | 0, _ => Within.pure b
  | n + 1, h => (Within.foldUpTo n fun a k hk => h a k (by omega)).bind fun a => h a n (by omega)

theorem Within.mono (hx : Within F x) (hFG : ∀ s s', F.rel s s' → G.rel s s') : Within G x :=
  fun s => hFG s _ (hx s)

/-- What the calls after the first may do. -/
theorem Within.later {s : S} (hf : ∀ a, Within F (f a)) : F.rel (final x s) (final (x >>= f) s) := by
  rw [final_bind, final]
  cases x s with
  | ok a t => exact hf a t
  | error e t => exact F.refl t

/-- What the frame says of a call that returned. -/
theorem Within.ok (hx : Within F x) {s s' : S} {a : α} (h : x s = .ok a s') : F.rel s s' := by
  simpa only [final, h] using hx s

/-- What the frame says of a call that failed. -/
theorem Within.error (hx : Within F x) {s s' : S} {e : ε} (h : x s = .error e s') : F.rel s s' := by
  simpa only [final, h] using hx s

/-- A call inside a frame, used where the frame has to preserve the precondition. -/
theorem Within.steps (hx : Within F x) (hFG : ∀ s s', P s → F.rel s s' → G.rel s s' ∧ T s') :
    Steps G P x (fun _ => T) := by
  intro s hP
  refine ⟨(hFG s _ hP (hx s)).1, ?_⟩
  intro a s' ha
  have := (hFG s _ hP (hx s)).2
  simpa [final, ha] using this

end Within

/-! ## Loops round by round -/

section Loops

/-- A loop, with its first round in front. -/
theorem forUpTo_succ_front (f : Nat → EStateM ε S Unit) :
    ∀ n, forUpTo (n + 1) f = f 0 >>= fun _ => forUpTo n fun k => f (k + 1)
  | 0 => (pure_bind () fun _ => f 0).trans (bind_pure (f 0)).symm
  | n + 1 => by
    rw [forUpTo, forUpTo_succ_front f n, bind_assoc]
    rfl

/-- A loop whose first rounds fail ends there. -/
theorem forUpTo_error {f : Nat → EStateM ε S Unit} {s s' : S} {e : ε} {k : Nat}
    (h : forUpTo k f s = .error e s') : ∀ j, forUpTo (k + j) f s = .error e s'
  | 0 => h
  | j + 1 => by
    rw [← Nat.add_assoc, forUpTo]
    exact bind_of_error (forUpTo_error h j)

/-- What the later rounds keep, the loop keeps from then on. -/
theorem forUpTo_later {F : Frame S} {f : Nat → EStateM ε S Unit} {s : S} {k : Nat} :
    ∀ j, (∀ i, k ≤ i → Within F (f i)) → F.rel (final (forUpTo k f) s) (final (forUpTo (k + j) f) s)
  | 0, _ => F.refl _
  | j + 1, h => by
    have hj := forUpTo_later (s := s) j h
    cases hr : forUpTo (k + j) f s with
    | ok u t =>
      have hnext : final (forUpTo (k + (j + 1)) f) s = final (f (k + j)) t := by
        rw [final, final, ← Nat.add_assoc, forUpTo, bind_of_ok hr]
      rw [hnext]
      rw [final, final, hr] at hj
      exact F.trans hj (h (k + j) (Nat.le_add_right _ _) t)
    | error e t =>
      have hnext : forUpTo (k + (j + 1)) f s = .error e t := forUpTo_error hr 1
      rw [final, final, hr] at hj
      rw [final, final, hnext]
      exact hj

end Loops

/-! ## Calls that say what their errors leave behind -/

/-- From a state with `P`, the call returns in `Q` or fails in `E`. -/
def Ends (P : S → Prop) (x : EStateM ε S α) (Q : α → S → Prop) (E : S → Prop) : Prop :=
  ∀ s, P s → (∃ a s', x s = .ok a s' ∧ Q a s') ∨ (∃ e s', x s = .error e s' ∧ E s')

section Ends

variable {P T E : S → Prop} {Q : α → S → Prop} {R : β → S → Prop} {x : EStateM ε S α} {f : α → EStateM ε S β}

theorem Ends.pure {a : α} (h : ∀ s, P s → Q a s) : Ends P (pure a : EStateM ε S α) Q E :=
  fun s hP => Or.inl ⟨a, s, rfl, h s hP⟩

theorem Ends.throw {e : ε} (h : ∀ s, P s → E s) : Ends P (throw e : EStateM ε S α) Q E :=
  fun s hP => Or.inr ⟨e, s, rfl, h s hP⟩

theorem Ends.bind (hx : Ends P x Q E) (hf : ∀ a, Ends (Q a) (f a) R E) : Ends P (x >>= f) R E := by
  intro s hP
  rcases hx s hP with ⟨a, t, hxs, hQ⟩ | ⟨e, t, hxs, hE⟩
  · have hb : (x >>= f) s = f a t := by simp [Bind.bind, EStateM.bind, hxs]
    rw [hb]
    exact hf a t hQ
  · exact Or.inr ⟨e, t, by simp [Bind.bind, EStateM.bind, hxs], hE⟩

theorem Ends.weaken {Q' : α → S → Prop} {E' : S → Prop} (hx : Ends P x Q E) (hQ : ∀ a s, Q a s → Q' a s)
    (hE : ∀ s, E s → E' s) : Ends P x Q' E' := by
  intro s hP
  rcases hx s hP with ⟨a, t, hxs, h⟩ | ⟨e, t, hxs, h⟩
  · exact Or.inl ⟨a, t, hxs, hQ a t h⟩
  · exact Or.inr ⟨e, t, hxs, hE t h⟩

theorem Ends.failIf {b : Prop} [Decidable b] {e : ε} (h : ∀ s, P s → b → E s) :
    Ends P (failIf b e : EStateM ε S Unit) (fun _ s => P s ∧ ¬b) E := by
  unfold Fallible.failIf Fallible.when
  split
  · next hb => exact Ends.throw fun s hP => h s hP hb
  · next hb => exact Ends.pure fun s hP => ⟨hP, hb⟩

theorem Ends.failIf_bind {b : Prop} [Decidable b] {e : ε} {f : Unit → EStateM ε S β} (h : ∀ s, P s → b → E s)
    (hf : ¬b → Ends P (f ()) R E) : Ends P (Fallible.failIf b e >>= f) R E :=
  (Ends.failIf h).bind fun _ s hs => hf hs.2 s hs.1

theorem Ends.modify {g : S → S} (h : ∀ s, P s → T (g s)) :
    Ends P (modify g : EStateM ε S PUnit) (fun _ => T) E := fun s hP => Or.inl ⟨_, _, rfl, h s hP⟩

theorem Ends.orFail {e : ε} (hx : Ends P x Q E) : Ends P (orFail x e) Q E := by
  intro s hP
  rcases hx s hP with ⟨a, t, hxs, h⟩ | ⟨e', t, hxs, h⟩
  · exact Or.inl ⟨a, t, by simp [Fallible.orFail, hxs], h⟩
  · exact Or.inr ⟨e, t, by simp [Fallible.orFail, hxs], h⟩

theorem Ends.afterwards {g : S → S} {Q' : α → S → Prop} {E' : S → Prop} (hx : Ends P x Q E)
    (hQ : ∀ a s, Q a s → Q' a (g s)) (hE : ∀ s, E s → E' (g s)) : Ends P (afterwards x g) Q' E' := by
  intro s hP
  rcases hx s hP with ⟨a, t, hxs, h⟩ | ⟨e, t, hxs, h⟩
  · exact Or.inl ⟨a, g t, by simp [Fallible.afterwards, hxs], hQ a t h⟩
  · exact Or.inr ⟨e, g t, by simp [Fallible.afterwards, hxs], hE t h⟩

theorem Ends.onError {g : S → S} {E' : S → Prop} (hx : Ends P x Q E) (hE : ∀ s, E s → E' (g s)) :
    Ends P (onError x g) Q E' := by
  intro s hP
  rcases hx s hP with ⟨a, t, hxs, h⟩ | ⟨e, t, hxs, h⟩
  · exact Or.inl ⟨a, t, by simp [Fallible.onError, hxs], h⟩
  · exact Or.inr ⟨e, g t, by simp [Fallible.onError, hxs], hE t h⟩

/-- An attempt returns in either way. -/
theorem Ends.attempt {E' : S → Prop} (hx : Ends P x Q E) :
    Ends P (attempt x) (fun o s => (∃ a, o = some a ∧ Q a s) ∨ (o = none ∧ E s)) E' := by
  intro s hP
  rcases hx s hP with ⟨a, t, hxs, h⟩ | ⟨e, t, hxs, h⟩
  · exact Or.inl ⟨some a, t, by simp [Fallible.attempt, hxs], Or.inl ⟨a, rfl, h⟩⟩
  · exact Or.inl ⟨none, t, by simp [Fallible.attempt, hxs], Or.inr ⟨rfl, h⟩⟩

/-- What the frame keeps, besides what the call promises. -/
theorem Ends.framed {F : Frame S} {T' : S → Prop} (hx : Ends P x Q E) (hw : Within F x)
    (hT : ∀ s s', T s → F.rel s s' → T' s') :
    Ends (fun s => P s ∧ T s) x (fun a s => Q a s ∧ T' s) fun s => E s ∧ T' s := by
  rintro s ⟨hP, ht⟩
  have hrel := hw s
  rcases hx s hP with ⟨a, t, hxs, h⟩ | ⟨e, t, hxs, h⟩
  · exact Or.inl ⟨a, t, hxs, h, hT s t ht (by simpa [Fallible.final, hxs] using hrel)⟩
  · exact Or.inr ⟨e, t, hxs, h, hT s t ht (by simpa [Fallible.final, hxs] using hrel)⟩

theorem Ends.pre {P' : S → Prop} (hx : Ends P x Q E) (hP : ∀ s, P' s → P s) : Ends P' x Q E :=
  fun s hs => hx s (hP s hs)

/-- A fact that does not depend on the state moves out of the precondition. -/
theorem Ends.imp {p : Prop} (hx : p → Ends P x Q E) : Ends (fun s => P s ∧ p) x Q E :=
  fun s hs => hx hs.2 s hs.1

theorem Ends.ghost {ι : Type} {P : ι → S → Prop} (hx : ∀ i, Ends (P i) x Q E) : Ends (fun s => ∃ i, P i s) x Q E :=
  fun s hs => hs.elim fun i hi => hx i s hi

/-- A call of which only the frame is known, however it ends. -/
theorem Within.ends {F : Frame S} (hw : Within F x) (hT : ∀ s s', P s → F.rel s s' → T s') :
    Ends P x (fun _ => T) T := by
  intro s hP
  have hrel := hT s _ hP (hw s)
  cases hxs : x s with
  | ok a t => exact Or.inl ⟨a, t, rfl, by simpa [Fallible.final, hxs] using hrel⟩
  | error e t => exact Or.inr ⟨e, t, rfl, by simpa [Fallible.final, hxs] using hrel⟩

theorem Ends.ite {b : Prop} [Decidable b] {y : EStateM ε S α} (hx : b → Ends P x Q E) (hy : ¬b → Ends P y Q E) :
    Ends P (if b then x else y) Q E := by
  split
  · next hb => exact hx hb
  · next hb => exact hy hb

theorem Ends.when {b : Prop} [Decidable b] {x : EStateM ε S Unit} (hx : b → Ends P x (fun _ => T) E)
    (hT : ¬b → ∀ s, P s → T s) : Ends P (when b x) (fun _ => T) E :=
  Ends.ite hx fun hb => Ends.pure (hT hb)

/-- The loop rule, with an invariant indexed by the number of rounds done. -/
theorem Ends.forUpTo {I : Nat → S → Prop} {body : Nat → EStateM ε S Unit} :
    ∀ n, (∀ k < n, Ends (I k) (body k) (fun _ => I (k + 1)) E) → Ends (I 0) (forUpTo n body) (fun _ => I n) E
  | 0, _ => Ends.pure fun _ h => h
  | n + 1, h => (Ends.forUpTo n fun k hk => h k (by omega)).bind fun _ => h n (by omega)

/-- What holds of the state when the call returns. -/
theorem Ends.ok (hx : Ends P x Q E) {s s' : S} {a : α} (hP : P s) (h : x s = .ok a s') : Q a s' := by
  rcases hx s hP with ⟨b, t, hxs, hQ⟩ | ⟨e, t, hxs, -⟩
  · rw [h] at hxs
    cases hxs
    exact hQ
  · rw [h] at hxs
    cases hxs

theorem Ends.error (hx : Ends P x Q E) {s s' : S} {e : ε} (hP : P s) (h : x s = .error e s') : E s' := by
  rcases hx s hP with ⟨b, t, hxs, -⟩ | ⟨e', t, hxs, hE⟩
  · rw [h] at hxs
    cases hxs
  · rw [h] at hxs
    cases hxs
    exact hE

theorem Ends.final (hx : Ends P x Q E) {s : S} (hP : P s) :
    (errorOf x s = none ∧ ∃ a, Q a (final x s)) ∨ (errorOf x s ≠ none ∧ E (final x s)) := by
  rcases hx s hP with ⟨a, t, hxs, h⟩ | ⟨e, t, hxs, h⟩
  · exact Or.inl ⟨by simp [errorOf, hxs], a, by simpa [Fallible.final, hxs] using h⟩
  · exact Or.inr ⟨by simp [errorOf, hxs], by simpa [Fallible.final, hxs] using h⟩

end Ends

/-! ## Calls that always return -/

def Total (x : EStateM ε S α) : Prop := ∀ s, ∃ a s', x s = .ok a s'

section Total

variable {P T E : S → Prop} {x : EStateM ε S α} {f : α → EStateM ε S β}

theorem Total.pure (a : α) : Total (pure a : EStateM ε S α) := fun s => ⟨a, s, rfl⟩

theorem Total.get : Total (get : EStateM ε S S) := fun s => ⟨s, s, rfl⟩

theorem Total.modify (g : S → S) : Total (modify g : EStateM ε S PUnit) := fun s => ⟨⟨⟩, g s, rfl⟩

theorem Total.bind (hx : Total x) (hf : ∀ a, Total (f a)) : Total (x >>= f) := by
  intro s
  obtain ⟨a, t, hxs⟩ := hx s
  rw [bind_of_ok hxs]
  exact hf a t

theorem Total.ite {b : Prop} [Decidable b] {y : EStateM ε S α} (hx : Total x) (hy : Total y) :
    Total (if b then x else y) := by
  split
  · exact hx
  · exact hy

theorem Total.forUpTo {body : Nat → EStateM ε S Unit} (h : ∀ k, Total (body k)) : ∀ n, Total (forUpTo n body)
  | 0 => Total.pure ()
  | n + 1 => (Total.forUpTo h n).bind fun _ => h n

theorem Total.foldUpTo {b : β} {body : β → Nat → EStateM ε S β} (h : ∀ a k, Total (body a k)) :
    ∀ n, Total (foldUpTo b n body)
  | 0 => Total.pure b
  | n + 1 => (Total.foldUpTo h n).bind fun a => h a n

end Total

/-! ## Errors that do not occur -/

/-- The call does not end with this error. -/
def Never (e : ε) (x : EStateM ε S α) : Prop := ∀ s s', x s ≠ .error e s'

section Never

variable {e e' : ε} {x : EStateM ε S α} {f : α → EStateM ε S β}

theorem Never.pure (a : α) : Never e (pure a : EStateM ε S α) := fun _ _ h => by cases h

theorem Never.throw (h : e' ≠ e) : Never e (throw e' : EStateM ε S α) := by
  intro s s' hs
  cases hs
  exact h rfl

theorem Never.modify (g : S → S) : Never e (modify g : EStateM ε S PUnit) := fun _ _ h => by cases h

theorem Never.bind (hx : Never e x) (hf : ∀ a, Never e (f a)) : Never e (x >>= f) := by
  intro s s'
  cases hxs : x s with
  | ok a t =>
    rw [bind_of_ok hxs]
    exact hf a t s'
  | error e' t =>
    rw [bind_of_error hxs]
    intro h
    cases h
    exact hx s _ hxs

theorem Never.ite {b : Prop} [Decidable b] {y : EStateM ε S α} (hx : b → Never e x) (hy : ¬b → Never e y) :
    Never e (if b then x else y) := by
  split
  · next hb => exact hx hb
  · next hb => exact hy hb

theorem Never.forUpTo {body : Nat → EStateM ε S Unit} (h : ∀ k, Never e (body k)) : ∀ n, Never e (forUpTo n body)
  | 0 => Never.pure ()
  | n + 1 => (Never.forUpTo h n).bind fun _ => h n

end Never

end Fallible
