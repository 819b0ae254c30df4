import Mathlib.Data.List.Basic
import Mathlib.Algebra.Ring.Nat

/-!
# Tilings of an interval

A range `(a, l)` stands for the `l` numbers from `a` on. Ranges that follow one another from `lo` to `hi` tile this
interval: none is empty, and every number of it is in exactly one (`Tiles.existsUnique`).
-/

/-- Ranges that follow one another from `lo` to `hi`. -/
inductive Tiles : Nat → Nat → List (Nat × Nat) → Prop
  | nil (lo : Nat) : Tiles lo lo []
  | cons {lo hi l : Nat} {rs : List (Nat × Nat)} : 0 < l → Tiles (lo + l) hi rs → Tiles lo hi ((lo, l) :: rs)

namespace Tiles

variable {lo hi mid : Nat} {rs rs' : List (Nat × Nat)} {r : Nat × Nat}

theorem le (h : Tiles lo hi rs) : lo ≤ hi := by
  induction h with
  | nil lo => exact Nat.le_refl lo
  | cons hl _ ih => omega

theorem single {l : Nat} (hl : 0 < l) : Tiles lo (lo + l) [(lo, l)] := cons hl (nil _)

/-- The lengths add up. -/
theorem sum (h : Tiles lo hi rs) : lo + (rs.map Prod.snd).sum = hi := by
  induction h with
  | nil lo => rfl
  | cons hl _ ih =>
    rw [List.map_cons, List.sum_cons]
    omega

/-- Every range is in the interval. -/
theorem bounds (h : Tiles lo hi rs) (hr : r ∈ rs) : lo ≤ r.1 ∧ r.1 + r.2 ≤ hi ∧ 0 < r.2 := by
  induction h with
  | nil lo => cases hr
  | cons hl ht ih =>
    rcases List.mem_cons.mp hr with rfl | hr
    · exact ⟨Nat.le_refl _, ht.le, hl⟩
    · obtain ⟨hlo, hhi, hpos⟩ := ih hr
      exact ⟨by omega, hhi, hpos⟩

/-- **A tiling is a partition.** -/
theorem existsUnique (h : Tiles lo hi rs) {x : Nat} (hlo : lo ≤ x) (hhi : x < hi) :
    ∃! r, r ∈ rs ∧ r.1 ≤ x ∧ x < r.1 + r.2 := by
  induction h with
  | nil lo => omega
  | @cons lo hi l rs hl ht ih =>
    by_cases hx : x < lo + l
    · refine ⟨(lo, l), ⟨List.mem_cons_self, hlo, hx⟩, ?_⟩
      rintro r ⟨hr, hle, -⟩
      rcases List.mem_cons.mp hr with rfl | hr
      · rfl
      · have := (ht.bounds hr).1
        omega
    · obtain ⟨r, ⟨hr, hle, hlt⟩, huniq⟩ := ih (by omega) hhi
      refine ⟨r, ⟨List.mem_cons_of_mem _ hr, hle, hlt⟩, ?_⟩
      rintro r' ⟨hr', hle', hlt'⟩
      rcases List.mem_cons.mp hr' with rfl | hr'
      · exact absurd hlt' hx
      · exact huniq r' ⟨hr', hle', hlt'⟩

end Tiles
