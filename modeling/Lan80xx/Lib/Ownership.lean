import Mathlib.Logic.Function.Basic

/-!
# Tables whose entries have owners

A pool of entries `R`, of which some are `used`, and places `S` that may each point to one entry (`own : S → Option R`).
`Owned own used` says that the pointers are a one-to-one correspondence with the used entries: no pointer dangles,
no entry is pointed to twice, no used entry is lost.

An allocation is `Owned.link`, a release is `Owned.unlink`; `Owned.via` looks at the same pointers from other places.
-/

namespace Ownership

variable {S T R : Type}

/-- The pointers and the used entries correspond one to one. -/
structure Owned (own : S → Option R) (used : R → Prop) : Prop where
  live : ∀ {s r}, own s = some r → used r
  inj : ∀ {s t r}, own s = some r → own t = some r → s = t
  covered : ∀ {r}, used r → ∃ s, own s = some r

variable {own own' : S → Option R} {used used' : R → Prop}

namespace Owned

theorem empty (h : ∀ s, own s = none) (hu : ∀ r, ¬used r) : Owned own used where
  live hs := by simp [h] at hs
  inj hs := by simp [h] at hs
  covered hr := absurd hr (hu _)

theorem congr (h : Owned own used) (ho : ∀ s, own' s = own s) (hu : ∀ r, used' r ↔ used r) : Owned own' used' where
  live hs := (hu _).mpr (h.live ((ho _).symm.trans hs))
  inj hs hs' := h.inj ((ho _).symm.trans hs) ((ho _).symm.trans hs')
  covered hr := by
    obtain ⟨s, hs⟩ := h.covered ((hu _).mp hr)
    exact ⟨s, (ho s).trans hs⟩

/-- A place without a pointer takes an entry that was not used. -/
theorem link (h : Owned own used) {u : S} {e : R} (hu : own u = none) (he : ¬used e)
    (hat : own' u = some e) (ho : ∀ s, s ≠ u → own' s = own s)
    (huse : ∀ r, used' r ↔ used r ∨ r = e) : Owned own' used' where
  live {s r} hs := by
    rw [huse]
    by_cases hss : s = u
    · subst hss
      rw [hat] at hs
      exact Or.inr (Option.some.inj hs).symm
    · rw [ho s hss] at hs
      exact Or.inl (h.live hs)
  inj {s s' r} hs hs' := by
    by_cases hss : s = u <;> by_cases hss' : s' = u
    · rw [hss, hss']
    · subst hss
      rw [ho s' hss'] at hs'
      rw [hat] at hs
      cases hs
      exact absurd (h.live hs') he
    · subst hss'
      rw [ho s hss] at hs
      rw [hat] at hs'
      cases hs'
      exact absurd (h.live hs) he
    · rw [ho s hss] at hs
      rw [ho s' hss'] at hs'
      exact h.inj hs hs'
  covered {r} hr := by
    rcases (huse r).mp hr with hr | rfl
    · obtain ⟨s, hs⟩ := h.covered hr
      refine ⟨s, ?_⟩
      rw [ho s ?_, hs]
      rintro rfl
      simp [hu] at hs
    · exact ⟨u, hat⟩

/-- A place gives up its entry, which is no longer used. -/
theorem unlink (h : Owned own used) {u : S} {e : R} (hu : own u = some e) (hat : own' u = none)
    (ho : ∀ s, s ≠ u → own' s = own s) (huse : ∀ r, used' r ↔ used r ∧ r ≠ e) : Owned own' used' where
  live {s r} hs := by
    have hss : s ≠ u := by
      rintro rfl
      simp [hat] at hs
    rw [ho s hss] at hs
    refine (huse r).mpr ⟨h.live hs, ?_⟩
    rintro rfl
    exact hss (h.inj hs hu)
  inj {s s' r} hs hs' := by
    have hss : s ≠ u := by
      rintro rfl
      simp [hat] at hs
    have hss' : s' ≠ u := by
      rintro rfl
      simp [hat] at hs'
    rw [ho s hss] at hs
    rw [ho s' hss'] at hs'
    exact h.inj hs hs'
  covered {r} hr := by
    obtain ⟨hr, hne⟩ := (huse r).mp hr
    obtain ⟨s, hs⟩ := h.covered hr
    refine ⟨s, ?_⟩
    rw [ho s ?_, hs]
    rintro rfl
    rw [hs] at hu
    exact hne (Option.some.inj hu)

/-- The same pointers seen from other places: each of these stands for at most one of the old places, no two for the
same, and every place with a pointer is stood for. Two levels of ownership compose this way. -/
theorem via (h : Owned own used) (f : T → Option S) (hinj : ∀ {t t' s}, f t = some s → f t' = some s → t = t')
    (hcov : ∀ {s r}, own s = some r → ∃ t, f t = some s) : Owned (fun t => (f t).bind own) used where
  live {t r} ht := by
    obtain ⟨s, -, hs⟩ := Option.bind_eq_some_iff.mp ht
    exact h.live hs
  inj {t t' r} ht ht' := by
    obtain ⟨s, hts, hs⟩ := Option.bind_eq_some_iff.mp ht
    obtain ⟨s', hts', hs'⟩ := Option.bind_eq_some_iff.mp ht'
    cases h.inj hs hs'
    exact hinj hts hts'
  covered {r} hr := by
    obtain ⟨s, hs⟩ := h.covered hr
    obtain ⟨t, ht⟩ := hcov hs
    exact ⟨t, by simpa [ht] using hs⟩

end Owned

end Ownership
