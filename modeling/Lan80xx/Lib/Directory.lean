import Mathlib.Data.List.Nodup
import Mathlib.Data.List.Range

/-!
# Slots looked up by key

A table of `n` slots, each free or held for a key (`t : Nat → Option K`), and the scan for the first slot of a key. As
long as no key has two slots (`Distinct`), the scan is the inverse of the table: taking a slot for a new key and freeing
a slot change it at that key only.

A walk over the table knows no slots, only the key it has come to: it goes on behind the first slot of that key. It
comes to an end exactly when no key has two slots (`walk_ends_iff`), and then it has been at every key (`Distinct.walk`).
-/

namespace Directory

variable {K : Type} {n i : Nat} {k : K} {t : Nat → Option K}

/-! ## Tables -/

/-- No key has two slots. -/
structure Distinct (n : Nat) (t : Nat → Option K) : Prop where
  lt : ∀ {i k}, t i = some k → i < n
  inj : ∀ {i j k}, t i = some k → t j = some k → i = j

namespace Distinct

theorem empty (h : ∀ i, t i = none) : Distinct n t where
  lt hi := by simp [h] at hi
  inj hi := by simp [h] at hi

/-- Fewer slots are held. -/
theorem mono {t' : Nat → Option K} (h : Distinct n t) (hs : ∀ i k, t' i = some k → t i = some k) : Distinct n t' where
  lt hi := h.lt (hs _ _ hi)
  inj hi hj := h.inj (hs _ _ hi) (hs _ _ hj)

theorem insert (h : Distinct n t) (hi : i < n) (hk : ∀ j, t j ≠ some k) :
    Distinct n (Function.update t i (some k)) where
  lt {j k'} hj := by
    rw [Function.update_apply] at hj
    split at hj
    · next he => rwa [he]
    · exact h.lt hj
  inj {j j' k'} hj hj' := by
    rw [Function.update_apply] at hj hj'
    split at hj <;> split at hj'
    · next h₁ h₂ => rw [h₁, h₂]
    · exact absurd (hj'.trans hj.symm) (hk j')
    · exact absurd (hj.trans hj'.symm) (hk j)
    · exact h.inj hj hj'

theorem erase (h : Distinct n t) : Distinct n (Function.update t i none) where
  lt {j k'} hj := by
    rw [Function.update_apply] at hj
    split at hj
    · cases hj
    · exact h.lt hj
  inj {j j' k'} hj hj' := by
    rw [Function.update_apply] at hj hj'
    split at hj
    · cases hj
    · split at hj'
      · cases hj'
      · exact h.inj hj hj'

end Distinct

/-! ## The scan -/

variable [DecidableEq K]

/-- The first slot that is held for the key. -/
def lookup (n : Nat) (t : Nat → Option K) (k : K) : Option Nat := (List.range n).find? fun i => t i = some k

theorem lookup_some (h : lookup n t k = some i) : i < n ∧ t i = some k := by
  have h₁ := List.find?_some h
  have h₂ := List.mem_of_find?_eq_some h
  exact ⟨by simpa using h₂, by simpa using h₁⟩

theorem lookup_none (h : lookup n t k = none) {i : Nat} (hi : i < n) : t i ≠ some k := by
  have h := List.find?_eq_none.mp h i (List.mem_range.mpr hi)
  simpa using h

namespace Distinct

/-- The scan finds exactly the slot of the key. -/
theorem lookup_iff (h : Distinct n t) : lookup n t k = some i ↔ t i = some k := by
  refine ⟨fun hl => (lookup_some hl).2, fun hi => ?_⟩
  cases hl : lookup n t k with
  | none => exact absurd hi (lookup_none hl (h.lt hi))
  | some j => rw [h.inj (lookup_some hl).2 hi]

/-- Two tables with the same entries for a key have the same scan for it. -/
theorem lookup_congr {t' : Nat → Option K} (h : Distinct n t) (h' : Distinct n t')
    (he : ∀ i, t' i = some k ↔ t i = some k) : lookup n t' k = lookup n t k := by
  ext i
  rw [h'.lookup_iff, h.lookup_iff, he]

theorem lookup_insert (h : Distinct n t) (hi : i < n) (hfree : t i = none) (hk : ∀ j, t j ≠ some k) :
    lookup n (Function.update t i (some k)) = Function.update (lookup n t) k (some i) := by
  have h' := h.insert hi hk
  funext k'
  rw [Function.update_apply]
  split
  · next he =>
    subst he
    exact h'.lookup_iff.mpr (Function.update_self _ _ _)
  · next hne =>
    refine h.lookup_congr h' fun j => ?_
    rw [Function.update_apply]
    split
    · next hj => simp [hj, hfree, Ne.symm hne]
    · rfl

theorem lookup_erase (h : Distinct n t) (hi : t i = some k) :
    lookup n (Function.update t i none) = Function.update (lookup n t) k none := by
  have h' := h.erase (i := i)
  funext k'
  rw [Function.update_apply]
  split
  · next he =>
    subst he
    cases hl : lookup n (Function.update t i none) k' with
    | none => rfl
    | some j =>
      have hj := h'.lookup_iff.mp hl
      rw [Function.update_apply] at hj
      split at hj
      · cases hj
      · next hne => exact absurd (h.inj hj hi) hne
  · next hne =>
    refine h.lookup_congr h' fun j => ?_
    rw [Function.update_apply]
    split
    · next hj => simp [hj, hi, Ne.symm hne]
    · rfl

end Distinct

/-! ## The walk -/

/-- The first key behind the slot of `search`, or of all, in a scan over some slots; `found` when that slot has been
passed. -/
def nextKey (t : Nat → Option K) (search : Option K) : Bool → List Nat → Option K
  | _, [] => none
  | found, i :: is =>
    match t i with
    | none => nextKey t search found is
    | some k => if search = none ∨ found then some k else nextKey t search (decide (search = some k)) is

/-- The keys that come up when each one is the search for the next one. -/
inductive Walk (n : Nat) (t : Nat → Option K) : Option K → List K → Prop
  | done {search} : nextKey t search false (List.range n) = none → Walk n t search []
  | more {search k ks} : nextKey t search false (List.range n) = some k → Walk n t (some k) ks → Walk n t search (k :: ks)

section Walk

variable {search : Option K} {found : Bool} {is pre post : List Nat} {ks : List K}

theorem nextKey_cons_none (h : t i = none) : nextKey t search found (i :: is) = nextKey t search found is := by
  rw [nextKey, h]

theorem nextKey_cons_some (h : t i = some k) : nextKey t search found (i :: is) =
    if search = none ∨ found then some k else nextKey t search (decide (search = some k)) is := by
  rw [nextKey, h]

/-- Behind the slot that was searched for, the scan is for any key. -/
theorem nextKey_of_found (h : search = none ∨ found = true) : nextKey t search found is = is.findSome? t := by
  induction is with
  | nil => rfl
  | cons i is ih =>
    rw [List.findSome?_cons]
    cases ht : t i with
    | none => rw [nextKey_cons_none ht, ih]
    | some k => rw [nextKey_cons_some ht, if_pos h]

/-- The scan for what is behind a key, from its first slot on. -/
theorem nextKey_append (hpre : ∀ j ∈ pre, t j ≠ some k) (hi : t i = some k) :
    nextKey t (some k) false (pre ++ i :: post) = post.findSome? t := by
  induction pre with
  | nil =>
    have hnot : ¬(some k = none ∨ false = true) := by simp
    rw [List.nil_append, nextKey_cons_some hi, if_neg hnot, decide_eq_true rfl]
    exact nextKey_of_found (Or.inr rfl)
  | cons j pre ih =>
    have hrest := ih fun j' hj' => hpre j' (List.mem_cons_of_mem _ hj')
    have hne := hpre j List.mem_cons_self
    rw [List.cons_append]
    cases ht : t j with
    | none => rw [nextKey_cons_none ht, hrest]
    | some k' =>
      have hkk : some k ≠ some k' := fun h => hne (ht.trans h.symm)
      rw [nextKey_cons_some ht, if_neg (by simp), decide_eq_false hkk, hrest]

/-- Where no key has two slots, the walk from some slot on comes to the keys of all slots from there on. -/
theorem Distinct.walk_append (h : Distinct n t) (hr : List.range n = pre ++ post)
    (hs : nextKey t search false (List.range n) = post.findSome? t) : Walk n t search (post.filterMap t) := by
  induction post generalizing pre search with
  | nil => exact .done hs
  | cons i post ih =>
    rw [List.findSome?_cons] at hs
    have hr' : List.range n = pre ++ [i] ++ post := by rw [hr, List.append_assoc, List.singleton_append]
    cases ht : t i with
    | none =>
      rw [ht] at hs
      rw [List.filterMap_cons_none ht]
      exact ih hr' hs
    | some k =>
      rw [ht] at hs
      rw [List.filterMap_cons_some ht]
      refine .more hs (ih hr' ?_)
      have hnodup : (pre ++ i :: post).Nodup := hr ▸ List.nodup_range
      have hpre : ∀ j ∈ pre, t j ≠ some k := by
        intro j hj htj
        have hji := h.inj htj ht
        exact (List.nodup_append.mp hnodup).2.2 j hj i List.mem_cons_self hji
      rw [hr]
      exact nextKey_append hpre ht

/-- Where no key has two slots, the walk comes to every key. -/
theorem Distinct.walk (h : Distinct n t) : Walk n t none ((List.range n).filterMap t) :=
  h.walk_append (List.nil_append _).symm (nextKey_of_found (Or.inl rfl))

omit [DecidableEq K] in
theorem Distinct.nodup_keys (h : Distinct n t) : ((List.range n).filterMap t).Nodup :=
  List.Nodup.filterMap (fun _ _ _ hi hj => h.inj hi hj) List.nodup_range

omit [DecidableEq K] in
theorem Distinct.mem_keys (h : Distinct n t) : k ∈ (List.range n).filterMap t ↔ ∃ i, t i = some k := by
  rw [List.mem_filterMap]
  constructor
  · rintro ⟨i, -, hi⟩
    exact ⟨i, hi⟩
  · rintro ⟨i, hi⟩
    exact ⟨i, List.mem_range.mpr (h.lt hi), hi⟩

section Twice

variable {a b : Nat} (hr : List.range n = pre ++ b :: post) (ha : a ∈ pre) (hta : t a = some k) (htb : t b = some k)
include hr ha hta htb

/-- A key with two slots: behind a key that has a slot before the second one comes a key that has one there too. -/
theorem exists_next_of_twice (hs : ∀ k', search = some k' → ∃ i ∈ pre, t i = some k') :
    ∃ k', nextKey t search false (List.range n) = some k' ∧ ∃ i ∈ pre, t i = some k' := by
  have hscan : ∀ is ⊆ pre, ∃ k', (is ++ b :: post).findSome? t = some k' ∧ ∃ i ∈ pre, t i = some k' := by
    intro is his
    rw [List.findSome?_append, List.findSome?_cons, htb]
    cases hf : is.findSome? t with
    | none => exact ⟨k, rfl, a, ha, hta⟩
    | some k' =>
      obtain ⟨i, hi, hti⟩ := List.exists_of_findSome?_eq_some hf
      exact ⟨k', rfl, i, his hi, hti⟩
  rw [hr]
  cases search with
  | none =>
    rw [nextKey_of_found (Or.inl rfl)]
    exact hscan pre (List.Subset.refl _)
  | some k' =>
    -- the first slot of the key is before the second one too
    obtain ⟨i, hi, hti⟩ := hs k' rfl
    have hfirst : (pre.find? fun i => t i = some k').isSome := List.find?_isSome.mpr ⟨i, hi, by simpa using hti⟩
    obtain ⟨j, hj⟩ := Option.isSome_iff_exists.mp hfirst
    obtain ⟨htj, is, is', hsplit, hbefore⟩ := List.find?_eq_some_iff_append.mp hj
    have hnot : ∀ j' ∈ is, t j' ≠ some k' := fun j' hj' => by simpa using hbefore j' hj'
    have hsub : is' ⊆ pre := fun x hx => by
      rw [hsplit]
      exact List.mem_append_right _ (List.mem_cons_of_mem _ hx)
    have hlist : pre ++ b :: post = is ++ j :: (is' ++ b :: post) := by
      rw [hsplit, List.append_assoc, List.cons_append]
    rw [hlist, nextKey_append hnot (by simpa using htj)]
    exact hscan is' hsub

/-- The walk then never ends. -/
theorem not_walk_of_twice (h : Walk n t search ks) (hs : ∀ k', search = some k' → ∃ i ∈ pre, t i = some k') : False := by
  induction h with
  | done hnext =>
    obtain ⟨k', hk', -⟩ := exists_next_of_twice hr ha hta htb hs
    cases hnext.symm.trans hk'
  | more hnext _ ih =>
    obtain ⟨k', hk', hi⟩ := exists_next_of_twice hr ha hta htb hs
    cases hnext.symm.trans hk'
    exact ih fun k'' he => by
      cases he
      exact hi

end Twice

/-- A walk comes to an end only where no key has two slots. -/
theorem walk_ends_iff (hlt : ∀ i k, t i = some k → i < n) : (∃ ks, Walk n t none ks) ↔ Distinct n t := by
  refine ⟨fun ⟨ks, h⟩ => ⟨fun hi => hlt _ _ hi, fun {i j k} hi hj => ?_⟩, fun h => ⟨_, h.walk⟩⟩
  by_contra hij
  have hnone : ∀ {pre : List Nat} (k' : K), (none : Option K) = some k' → ∃ i ∈ pre, t i = some k' :=
    fun _ he => by cases he
  obtain ⟨pre, post, hr⟩ := List.append_of_mem (List.mem_range.mpr (hlt _ _ hj))
  have hmem : i ∈ pre ++ j :: post := hr ▸ List.mem_range.mpr (hlt _ _ hi)
  rcases List.mem_append.mp hmem with hpre | hpost
  · exact not_walk_of_twice hr hpre hi hj h hnone
  · rcases List.mem_cons.mp hpost with heq | hpost
    · exact hij heq
    · obtain ⟨is, is', rfl⟩ := List.append_of_mem hpost
      rw [← List.cons_append, ← List.append_assoc] at hr
      exact not_walk_of_twice hr (List.mem_append_right _ List.mem_cons_self) hj hi h hnone

end Walk

end Directory
