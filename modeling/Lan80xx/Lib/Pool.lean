import Mathlib.Data.List.Basic

/-!
# Pools of numbered entries

A table of `n` entries, some of them busy. `firstFree` is the allocator that takes the first entry that is not; `k`
entries can be taken one after the other exactly when that many are free (`canTake_iff`).
-/

namespace Pool

variable {n k r : Nat} {busy busy' : Nat → Bool}

/-- The first entry that is not busy. -/
def firstFree (n : Nat) (busy : Nat → Bool) : Option Nat := (List.range n).find? fun r => !busy r

/-- The number of busy entries. -/
def used (n : Nat) (busy : Nat → Bool) : Nat := ((List.range n).filter busy).length

/-- `k` allocations in a row succeed. -/
inductive CanTake (n : Nat) : Nat → (Nat → Bool) → Prop
  | none (busy : Nat → Bool) : CanTake n 0 busy
  | take {k r : Nat} {busy : Nat → Bool} : firstFree n busy = some r → CanTake n k (Function.update busy r true) →
      CanTake n (k + 1) busy

theorem used_succ : used (n + 1) busy = used n busy + if busy n then 1 else 0 := by
  simp only [used, List.range_succ, List.filter_append, List.length_append]
  cases hb : busy n <;> simp [hb]

theorem used_congr (h : ∀ r < n, busy' r = busy r) : used n busy' = used n busy := by
  induction n with
  | zero => rfl
  | succ n ih =>
    rw [used_succ, used_succ, ih fun r hr => h r (by omega), h n (by omega)]

theorem used_le : used n busy ≤ n := by
  induction n with
  | zero => exact Nat.le_refl 0
  | succ n ih =>
    rw [used_succ]
    split <;> omega

/-- Taking a free entry. -/
theorem used_update (hr : r < n) (hfree : busy r = false) : used n (Function.update busy r true) = used n busy + 1 := by
  induction n with
  | zero => omega
  | succ n ih =>
    rw [used_succ, used_succ]
    rcases Nat.lt_succ_iff_lt_or_eq.mp hr with hlt | rfl
    · have hn : Function.update busy r true n = busy n := Function.update_of_ne (by omega) _ _
      rw [ih hlt, hn]
      omega
    · have hlow : used r (Function.update busy r true) = used r busy :=
        used_congr fun q hq => Function.update_of_ne (by omega) _ _
      simp [hlow, hfree]

/-- The allocator fails exactly when every entry is busy. -/
theorem firstFree_none_iff : firstFree n busy = none ↔ used n busy = n := by
  simp only [firstFree, List.find?_eq_none, List.mem_range, Bool.not_eq_true', Bool.not_eq_false]
  induction n with
  | zero => simp [used]
  | succ n ih =>
    have hle : used n busy ≤ n := used_le
    rw [used_succ]
    constructor
    · intro h
      have hn : busy n = true := h n (by omega)
      have hlow : used n busy = n := ih.mp fun r hr => h r (by omega)
      simp [hn, hlow]
    · intro h r hr
      have hn : busy n = true := by
        by_contra hb
        simp only [hb, ↓reduceIte] at h
        omega
      have hlow : used n busy = n := by
        simp only [hn, ↓reduceIte] at h
        omega
      rcases Nat.lt_succ_iff_lt_or_eq.mp hr with hlt | rfl
      · exact ih.mpr hlow r hlt
      · exact hn

theorem firstFree_spec (h : firstFree n busy = some r) : r < n ∧ busy r = false := by
  have hr := List.mem_of_find?_eq_some h
  have hb := List.find?_some h
  exact ⟨List.mem_range.mp hr, by simpa using hb⟩

theorem CanTake.used_le (h : CanTake n k busy) : used n busy + k ≤ n := by
  induction h with
  | none busy => exact Pool.used_le
  | take hr _ ih =>
    obtain ⟨hlt, hfree⟩ := firstFree_spec hr
    rw [used_update hlt hfree] at ih
    omega

theorem canTake_of_le : ∀ {k : Nat} {busy : Nat → Bool}, used n busy + k ≤ n → CanTake n k busy
  | 0, busy, _ => .none busy
  | k + 1, busy, h => by
    cases hr : firstFree n busy with
    | none =>
      have hfull := firstFree_none_iff.mp hr
      omega
    | some r =>
      obtain ⟨hlt, hfree⟩ := firstFree_spec hr
      refine .take hr (canTake_of_le ?_)
      rw [used_update hlt hfree]
      omega

/-- A scan that stops at the first entry without `f` has seen all with `f` when these come first. -/
theorem takeWhile_eq_filter {α : Type} {f : α → Bool} : ∀ {l : List α},
    l.Pairwise (fun a b => f b = true → f a = true) → l.takeWhile f = l.filter f
  | [], _ => rfl
  | a :: l, h => by
    obtain ⟨ha, hl⟩ := List.pairwise_cons.mp h
    cases hfa : f a with
    | true => simp [hfa, takeWhile_eq_filter hl]
    | false =>
      have hnone : l.filter f = [] := by
        rw [List.filter_eq_nil_iff]
        intro b hb hfb
        simp [ha b hb hfb] at hfa
      simp [hfa, hnone]

/-- One entry more, at most. -/
theorem used_le_succ (h : ∀ q < n, q ≠ r → busy' q = true → busy q = true) : used n busy' ≤ used n busy + 1 := by
  have hmono {m : Nat} {f g : Nat → Bool} (hfg : ∀ q < m, f q = true → g q = true) : used m f ≤ used m g := by
    induction m with
    | zero => exact Nat.le_refl 0
    | succ m ih =>
      have hlow := ih fun q hq => hfg q (by omega)
      rw [used_succ, used_succ]
      cases hf : f m with
      | false => simp only [Bool.false_eq_true, if_false]; omega
      | true =>
        rw [hfg m (by omega) hf]
        omega
  by_cases hr : r < n ∧ busy r = false
  · rw [← used_update hr.1 hr.2]
    refine hmono fun q hq hb => ?_
    rw [Function.update_apply]
    split
    · rfl
    · next hne => exact h q hq hne hb
  · refine Nat.le_succ_of_le (hmono fun q hq hb => ?_)
    by_cases hqr : q = r
    · subst hqr
      by_contra hno
      exact hr ⟨hq, by simpa using hno⟩
    · exact h q hq hqr hb

/-- As many entries can be taken as are free. -/
theorem canTake_iff : CanTake n k busy ↔ used n busy + k ≤ n := ⟨CanTake.used_le, canTake_of_le⟩

end Pool
