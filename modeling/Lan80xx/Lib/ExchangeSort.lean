import Mathlib.Algebra.BigOperators.Fin
import Mathlib.Algebra.Order.BigOperators.Group.Finset
import Mathlib.Data.Fin.Tuple.Sort

/-!
# Sorting by exchanges

A double loop over all pairs `i`, `j`, in which the entries `i` and `j` change places whenever entry `j` is greater.
The loop looks as if it sorted downwards. Its passes put one entry after another into an ascending prefix.

- `InPass`: the invariant of a pass, kept by each comparison (`InPass.exchange`);
- `exchangeSort_perm`, `monotone_exchangeSort`: the sorted table;
- `sort_keys`: its keys are their multiset sorted;
- `window_mono`: sums over a window of the sorted keys.
-/

namespace ExchangeSort

/-! ## Loops over a finite range -/

section Loop

variable {n : Nat} {σ : Type}

/-- What each pass keeps, counted by the passes that are over. -/
theorem foldl_finRange {P : Nat → σ → Prop} {f : σ → Fin n → σ} {s : σ} (h0 : P 0 s)
    (hf : ∀ (i : Fin n) s, P i s → P (i + 1) (f s i)) : P n ((List.finRange n).foldl f s) := by
  induction n with
  | zero => simpa using h0
  | succ n ih =>
    rw [List.finRange_succ_last, List.foldl_append, List.foldl_map]
    have hn := ih (fun i s hs => hf i.castSucc s hs)
    simpa using hf (Fin.last n) _ hn

/-- What every pass keeps. -/
theorem foldl_finRange_inv {P : σ → Prop} {f : σ → Fin n → σ} {s : σ} (h0 : P s) (hf : ∀ i s, P s → P (f s i)) :
    P ((List.finRange n).foldl f s) :=
  foldl_finRange (P := fun _ => P) h0 fun i s hs => hf i s hs

end Loop

/-! ## The double loop -/

section Passes

variable {n : Nat} {α β : Type} [LinearOrder α] (key : β → α)

/-- The entries `i` and `j` change places when the second one is greater. -/
def exchange (i : Fin n) (t : Fin n → β) (j : Fin n) : Fin n → β :=
  if key (t i) < key (t j) then t ∘ Equiv.swap i j else t

/-- Entry `i` is compared with all the entries, one after another. -/
def pass (t : Fin n → β) (i : Fin n) : Fin n → β := (List.finRange n).foldl (exchange key i) t

def exchangeSort (t : Fin n → β) : Fin n → β := (List.finRange n).foldl (pass key) t

variable {key} {t : Fin n → β} {i : Fin n}

/-! ## Rearrangements -/

variable (key) in
theorem exchange_perm (j : Fin n) : ∃ τ : Equiv.Perm (Fin n), exchange key i t j = t ∘ τ := by
  unfold exchange
  split
  · exact ⟨Equiv.swap i j, rfl⟩
  · exact ⟨1, rfl⟩

variable (key) in
theorem pass_perm (i : Fin n) : ∃ τ : Equiv.Perm (Fin n), pass key t i = t ∘ τ := by
  apply foldl_finRange_inv (P := fun s => ∃ τ : Equiv.Perm (Fin n), s = t ∘ τ)
  · exact ⟨1, rfl⟩
  · rintro j s ⟨τ, rfl⟩
    obtain ⟨ρ, hρ⟩ := exchange_perm key j
    exact ⟨τ * ρ, hρ⟩

variable (key) in
/-- The sorted table is a rearrangement of the table. -/
theorem exchangeSort_perm (t : Fin n → β) : ∃ τ : Equiv.Perm (Fin n), exchangeSort key t = t ∘ τ := by
  apply foldl_finRange_inv (P := fun s => ∃ τ : Equiv.Perm (Fin n), s = t ∘ τ)
  · exact ⟨1, rfl⟩
  · rintro i s ⟨τ, rfl⟩
    obtain ⟨ρ, hρ⟩ := pass_perm key i
    exact ⟨τ * ρ, hρ⟩

/-! ## Order -/

/-- The first `m` entries are in ascending order. -/
def SortedUpTo (key : β → α) (m : Nat) (t : Fin n → β) : Prop :=
  ∀ a b : Fin n, a ≤ b → b.val < m → key (t a) ≤ key (t b)

/-- The table between two passes: the last entry of the ascending prefix is the greatest one of all. -/
def Placed (key : β → α) (m : Nat) (t : Fin n → β) : Prop :=
  SortedUpTo key m t ∧ ∀ a b : Fin n, b.val + 1 = m → key (t a) ≤ key (t b)

/-- The table within pass `i`, after `j` comparisons: entry `i` is as great as all those it was compared with. The
greatest one of all is entry `i`, unless the comparison with the last entry of the prefix is still to come. -/
structure InPass (key : β → α) (i : Fin n) (j : Nat) (t : Fin n → β) : Prop where
  sorted : SortedUpTo key i t
  compared : ∀ k : Fin n, k.val < j → key (t k) ≤ key (t i)
  greatest : (∀ k, key (t k) ≤ key (t i)) ∨ ∀ b : Fin n, b.val + 1 = i → j ≤ b ∧ ∀ k, key (t k) ≤ key (t b)

theorem Placed.inPass (h : Placed key i t) : InPass key i 0 t where
  sorted := h.1
  compared := by simp
  greatest := .inr fun b hb => ⟨Nat.zero_le _, fun k => h.2 k b hb⟩

/-- A comparison that leaves the entries where they are. -/
theorem InPass.stay {j : Fin n} (h : InPass key i j t) (hle : key (t j) ≤ key (t i)) : InPass key i (j + 1) t where
  sorted := h.sorted
  compared := by
    intro k hk
    rcases Nat.lt_succ_iff_lt_or_eq.mp hk with hlt | heq
    · exact h.compared k hlt
    · rw [Fin.ext heq]
      exact hle
  greatest := by
    rcases h.greatest with hi | hlast
    · exact .inl hi
    · by_cases hj : j.val + 1 = i
      · exact .inl fun k => ((hlast j hj).2 k).trans hle
      · refine .inr fun b hb => ⟨?_, (hlast b hb).2⟩
        have := (hlast b hb).1
        omega

/-- Entry `j` of the prefix gives its place to a smaller one, which all the entries before it do not exceed. -/
theorem SortedUpTo.swap {j : Fin n} (h : SortedUpTo key i t) (hcompared : ∀ k, k < j → key (t k) ≤ key (t i))
    (hlt : key (t i) < key (t j)) : SortedUpTo key i (t ∘ Equiv.swap i j) := by
  have hj : (t ∘ Equiv.swap i j) j = t i := by simp
  have hk : ∀ k, k ≠ i → k ≠ j → (t ∘ Equiv.swap i j) k = t k := by
    intro k hki hkj
    simp [Equiv.swap_apply_of_ne_of_ne hki hkj]
  intro a b hab hb
  have hbi : b ≠ i := fun e => by subst e; omega
  have hai : a ≠ i := fun e => by subst e; omega
  by_cases haj : a = j
  · subst haj
    rw [hj]
    by_cases hba : b = a
    · rw [hba, hj]
    · rw [hk b hbi hba]
      exact hlt.le.trans (h a b hab hb)
  · rw [hk a hai haj]
    by_cases hbj : b = j
    · subst hbj
      rw [hj]
      exact hcompared a (lt_of_le_of_ne hab haj)
    · rw [hk b hbi hbj]
      exact h a b hab hb

/-- A comparison that makes the entries change places. The greatest entry is then still in the prefix. -/
theorem InPass.swap {j : Fin n} (h : InPass key i j t) (hlt : key (t i) < key (t j)) :
    InPass key i (j + 1) (t ∘ Equiv.swap i j) := by
  have hlast : ∀ b : Fin n, b.val + 1 = i → j ≤ b ∧ ∀ k, key (t k) ≤ key (t b) := by
    rcases h.greatest with hi | hlast
    · exact absurd (hi j) (not_le.mpr hlt)
    · exact hlast
  have hi : (t ∘ Equiv.swap i j) i = t j := by simp
  refine ⟨h.sorted.swap (fun k hk => h.compared k hk) hlt, ?_, ?_⟩
  · intro k hkj
    rw [hi]
    by_cases hki : k = i
    · rw [hki, hi]
    by_cases hkj' : k = j
    · rw [hkj', Function.comp_apply, Equiv.swap_apply_right]
      exact hlt.le
    · have : k.val ≠ j := fun e => hkj' (Fin.ext e)
      rw [Function.comp_apply, Equiv.swap_apply_of_ne_of_ne hki hkj']
      exact (h.compared k (by omega)).trans hlt.le
  · by_cases hj : j.val + 1 = i
    · refine .inl fun k => ?_
      rw [hi]
      exact (hlast j hj).2 (Equiv.swap i j k)
    · refine .inr fun b hb => ?_
      have hjb := (hlast b hb).1
      have hbj : b ≠ j := fun e => hj (by rw [← e, hb])
      have hbi : b ≠ i := fun e => by subst e; omega
      have hne : b.val ≠ j := fun e => hbj (Fin.ext e)
      refine ⟨by omega, fun k => ?_⟩
      rw [Function.comp_apply, Function.comp_apply, Equiv.swap_apply_of_ne_of_ne hbi hbj]
      exact (hlast b hb).2 (Equiv.swap i j k)

/-- Each comparison keeps the invariant. -/
theorem InPass.exchange {j : Fin n} (h : InPass key i j t) : InPass key i (j + 1) (exchange key i t j) := by
  unfold ExchangeSort.exchange
  split
  case isTrue hlt => exact h.swap hlt
  case isFalse hle => exact h.stay (not_lt.mp hle)

/-- A pass puts one more entry in its place. -/
theorem Placed.pass (h : Placed key i t) : Placed key (i + 1) (pass key t i) := by
  have hpass : InPass key i n (ExchangeSort.pass key t i) :=
    foldl_finRange (P := InPass key i) h.inPass fun _ _ hs => hs.exchange
  have hgreatest : ∀ k, key (ExchangeSort.pass key t i k) ≤ key (ExchangeSort.pass key t i i) :=
    fun k => hpass.compared k k.isLt
  refine ⟨?_, ?_⟩
  · intro a b hab hb
    by_cases hbi : b = i
    · rw [hbi]
      exact hgreatest a
    · have : b.val ≠ i := fun e => hbi (Fin.ext e)
      exact hpass.sorted a b hab (by omega)
  · intro a b hb
    rw [show b = i from Fin.ext (by omega)]
    exact hgreatest a

variable (key) in
/-- The double loop sorts upwards. -/
theorem monotone_exchangeSort (t : Fin n → β) : Monotone fun a => key (exchangeSort key t a) := by
  have hplaced : Placed key n (exchangeSort key t) := by
    apply foldl_finRange (P := Placed key)
    · constructor
      · intro a b _ hb
        omega
      · intro a b hb
        omega
    · intro i s hs
      exact hs.pass
  intro a b hab
  exact hplaced.1 a b hab b.isLt

end Passes

/-! ## Sums over a window -/

section Keys

variable {n : Nat} {α β : Type} [LinearOrder α] {key : β → α}

/-- A rearrangement in ascending order is the sorted multiset. -/
theorem sort_eq_of_monotone {f g : Fin n → α} (hf : Monotone f) (hfg : (List.ofFn f).Perm (List.ofFn g)) :
    Multiset.sort (Multiset.ofList (List.ofFn g)) = List.ofFn f := by
  have hsort : Multiset.ofList (Multiset.sort (Multiset.ofList (List.ofFn g))) = Multiset.ofList (List.ofFn g) :=
    Multiset.sort_eq _ (· ≤ ·)
  apply List.Perm.eq_of_pairwise' (r := (· ≤ ·))
  · exact Multiset.pairwise_sort _ _
  · exact hf.sortedLE_ofFn.pairwise
  · exact (Multiset.coe_eq_coe.mp hsort).trans hfg.symm

/-- The keys of the sorted table, in order, are their multiset sorted. -/
theorem sort_keys (t : Fin n → β) :
    Multiset.sort (Multiset.ofList (List.ofFn fun a => key (t a))) = List.ofFn fun a => key (exchangeSort key t a) := by
  apply sort_eq_of_monotone (monotone_exchangeSort key t)
  obtain ⟨τ, hτ⟩ := exchangeSort_perm key t
  rw [hτ]
  exact τ.ofFn_comp_perm fun a => key (t a)

theorem sort_ofFn (f : Fin n → α) :
    Multiset.sort (Multiset.ofList (List.ofFn f)) = List.ofFn fun i => f (Tuple.sort f i) :=
  sort_eq_of_monotone (Tuple.monotone_sort f) ((Tuple.sort f).ofFn_comp_perm f)

theorem card_sort_le (f : Fin n → α) (a : α) :
    (Finset.univ.filter fun i => f (Tuple.sort f i) ≤ a).card = (Finset.univ.filter fun i => f i ≤ a).card := by
  apply Finset.card_bij (fun i _ => Tuple.sort f i)
  · simp
  · intro i _ k _ hik
    exact (Tuple.sort f).injective hik
  · intro k hk
    exact ⟨(Tuple.sort f).symm k, by simpa using hk, by simp⟩

/-- Greater entries give greater order statistics. -/
theorem sort_mono {f g : Fin n → α} (h : ∀ i, f i ≤ g i) (j : Fin n) : f (Tuple.sort f j) ≤ g (Tuple.sort g j) := by
  rw [← Function.comp_apply (f := f), ← Tuple.lt_card_le_iff_apply_le_of_monotone (Tuple.monotone_sort f)]
  have hj : j < (Finset.univ.filter fun i => g (Tuple.sort g i) ≤ g (Tuple.sort g j)).card :=
    (Tuple.lt_card_le_iff_apply_le_of_monotone (Tuple.monotone_sort g)).mpr le_rfl
  have hsub : (Finset.univ.filter fun i => g i ≤ g (Tuple.sort g j)).card ≤
      (Finset.univ.filter fun i => f i ≤ g (Tuple.sort g j)).card := by
    apply Finset.card_le_card
    intro i hi
    simp only [Finset.mem_filter, Finset.mem_univ, true_and] at hi ⊢
    exact (h i).trans hi
  simp only [Function.comp_apply]
  rw [card_sort_le] at hj ⊢
  omega

end Keys

section Window

variable {n : Nat}

/-- The sum of a window of the sorted multiset: of the entries from `a` up to `c`. -/
def window (a c : Nat) (m : Multiset Nat) : Nat := ((m.sort.take c).drop a).sum

/-- A loop over the table that adds up the entries in a window. -/
theorem sum_window {a c : Nat} (hac : a ≤ c) (f : Fin n → Nat) :
    (((List.ofFn f).take c).drop a).sum = ∑ i, if a ≤ i.val ∧ i.val < c then f i else 0 := by
  have hsplit : ((List.ofFn f).take c).sum = ((List.ofFn f).take a).sum + (((List.ofFn f).take c).drop a).sum := by
    conv_lhs => rw [← List.take_append_drop a ((List.ofFn f).take c)]
    rw [List.sum_append, List.take_take, Nat.min_eq_left hac]
  rw [List.sum_take_ofFn, List.sum_take_ofFn, Finset.sum_filter, Finset.sum_filter] at hsplit
  have hparts : (∑ i : Fin n, if i.val < c then f i else 0) =
      (∑ i : Fin n, if i.val < a then f i else 0) + ∑ i : Fin n, if a ≤ i.val ∧ i.val < c then f i else 0 := by
    rw [← Finset.sum_add_distrib]
    apply Finset.sum_congr rfl
    intro i _
    split_ifs <;> omega
  omega

/-- Greater entries have a greater window. -/
theorem window_mono {a c : Nat} (hac : a ≤ c) {f g : Fin n → Nat} (h : ∀ i, f i ≤ g i) :
    window a c (List.ofFn f) ≤ window a c (List.ofFn g) := by
  unfold window
  rw [sort_ofFn, sort_ofFn, sum_window hac, sum_window hac]
  apply Finset.sum_le_sum
  intro i _
  split
  · exact sort_mono h i
  · exact Nat.le_refl _

end Window
end ExchangeSort
