import Mathlib.Logic.Relation

/-!
# Loops

A loop whose body gives the next state or the result of the loop. `loop` runs it with fuel; `Leads` says that it ends
with a result, and `Passes` that one state comes behind another one (`leads_iff`).
-/

namespace Loop

variable {σ β : Type}

/-- The result of the loop, when it ends within `n` passes. -/
def loop (body : σ → σ ⊕ β) : Nat → σ → Option β
  | 0, _ => none
  | n + 1, s =>
    match body s with
    | .inl t => loop body n t
    | .inr b => some b

/-- The loop ends with the result `b`. -/
inductive Leads (body : σ → σ ⊕ β) : σ → β → Prop
  | stop {s b} : body s = .inr b → Leads body s b
  | pass {s t b} : body s = .inl t → Leads body t b → Leads body s b

/-- Some passes of the loop take `s` to `t`. -/
abbrev Passes (body : σ → σ ⊕ β) : σ → σ → Prop := Relation.ReflTransGen fun s t => body s = .inl t

variable {body : σ → σ ⊕ β} {s t : σ} {b b' : β}

theorem Leads.of_loop {n : Nat} (h : loop body n s = some b) : Leads body s b := by
  induction n generalizing s with
  | zero => cases h
  | succ n ih =>
    cases hb : body s with
    | inl t =>
      simp only [loop, hb] at h
      exact .pass hb (ih h)
    | inr a =>
      simp only [loop, hb, Option.some.injEq] at h
      subst h
      exact .stop hb

theorem Leads.exists_loop (h : Leads body s b) : ∃ n, loop body n s = some b := by
  induction h with
  | stop hb => exact ⟨1, by simp [loop, hb]⟩
  | pass hb _ ih =>
    obtain ⟨n, hn⟩ := ih
    exact ⟨n + 1, by simp [loop, hb, hn]⟩

/-- More fuel gives the same result. -/
theorem loop_mono {n m : Nat} (h : loop body n s = some b) (hnm : n ≤ m) : loop body m s = some b := by
  induction n generalizing s m with
  | zero => cases h
  | succ n ih =>
    obtain ⟨m, rfl⟩ : ∃ k, m = k + 1 := ⟨m - 1, by omega⟩
    cases hb : body s with
    | inl t =>
      simp only [loop, hb] at h ⊢
      exact ih h (by omega)
    | inr a => simpa only [loop, hb] using h

/-- A loop ends when every pass makes a measure smaller, within as many passes as it counts. -/
theorem loop_terminates (μ : σ → Nat) (hμ : ∀ s t, body s = .inl t → μ t < μ s) (s : σ) :
    ∃ b, loop body (μ s + 1) s = some b := by
  induction hn : μ s using Nat.strongRecOn generalizing s with
  | _ n ih =>
    cases hb : body s with
    | inl t =>
      have hlt := hμ s t hb
      obtain ⟨b, hloop⟩ := ih (μ t) (hn ▸ hlt) t rfl
      exact ⟨b, by simpa only [loop, hb] using loop_mono hloop (by omega)⟩
    | inr b => exact ⟨b, by simp only [loop, hb]⟩

theorem leads_iff : Leads body s b ↔ ∃ t, Passes body s t ∧ body t = .inr b := by
  constructor
  · intro h
    induction h with
    | stop hb => exact ⟨_, .refl, hb⟩
    | pass hb _ ih =>
      obtain ⟨t, hpass, ht⟩ := ih
      exact ⟨t, .head hb hpass, ht⟩
  · rintro ⟨t, hpass, ht⟩
    induction hpass using Relation.ReflTransGen.head_induction_on with
    | refl => exact .stop ht
    | head hb _ ih => exact .pass hb ih

/-- A loop has one result. -/
theorem Leads.unique (h : Leads body s b) (h' : Leads body s b') : b = b' := by
  induction h with
  | stop hb =>
    cases h' with
    | stop hb' => exact Sum.inr.inj (hb.symm.trans hb')
    | pass hb' _ => cases hb.symm.trans hb'
  | pass hb _ ih =>
    cases h' with
    | stop hb' => cases hb.symm.trans hb'
    | pass hb' h' =>
      cases hb.symm.trans hb'
      exact ih h'

theorem leads_of_pass (h : body s = .inl t) : Leads body s b ↔ Leads body t b := by
  constructor
  · intro hl
    cases hl with
    | stop hb => cases h.symm.trans hb
    | pass hb hl =>
      cases h.symm.trans hb
      exact hl
  · exact .pass h

theorem leads_of_passes (h : Passes body s t) : Leads body s b ↔ Leads body t b := by
  induction h with
  | refl => rfl
  | tail _ hb ih => rw [ih, leads_of_pass hb]

theorem leads_of_stop (h : body s = .inr b') : Leads body s b ↔ b = b' := by
  constructor
  · intro hl
    cases hl with
    | stop hb => exact Sum.inr.inj (hb.symm.trans h)
    | pass hb _ => cases h.symm.trans hb
  · rintro rfl
    exact .stop h

/-- What every pass and the end of the loop keep of a state, in any preorder. -/
theorem Leads.rel {R : σ → σ → Prop} {f : β → σ} (htrans : ∀ s t u, R s t → R t u → R s u)
    (hpass : ∀ s t, body s = .inl t → R s t) (hstop : ∀ s b, body s = .inr b → R s (f b)) (h : Leads body s b) :
    R s (f b) := by
  induction h with
  | stop hb => exact hstop _ _ hb
  | pass hb _ ih => exact htrans _ _ _ (hpass _ _ hb) ih

/-- A relation that simulates the passes of the loop. -/
theorem Passes.map {τ : Type} {R : τ → τ → Prop} (f : σ → τ) (hR : ∀ s t, body s = .inl t → R (f s) (f t))
    (h : Passes body s t) : Relation.ReflTransGen R (f s) (f t) := h.lift f hR

/-- A relation whose steps the loop can follow. -/
theorem passes_of_steps {τ : Type} {R : τ → τ → Prop} (s : σ) (f : σ → τ)
    (hR : ∀ s y, R (f s) y → ∃ t, body s = .inl t ∧ f t = y) {y : τ} (h : Relation.ReflTransGen R (f s) y) :
    ∃ t, Passes body s t ∧ f t = y := by
  induction h with
  | refl => exact ⟨s, .refl, rfl⟩
  | tail _ hstep ih =>
    obtain ⟨t, hpass, rfl⟩ := ih
    obtain ⟨u, hb, hu⟩ := hR t _ hstep
    exact ⟨u, hpass.tail hb, hu⟩

end Loop
