import Mathlib.Data.Nat.Find
import Mathlib.Tactic.ByContra

/-!
# Polling into a variable

A loop that reads into a variable, does not look at the code of the read, and stops when the variable satisfies a
condition or a timer has expired. A read that fails may leave anything in the variable.

- `poll_of_first`, `poll_of_none`: what the loop ends with, from the sequence of the reads;
- `safe_iff`: the loop is right when no failed read leaves what it waits for.
-/

namespace VarPoll

variable {α S : Type}

/-- A read into a variable: its code, the variable and the device afterwards. The code of success is 0. -/
structure Outcome (α S : Type) where
  rc : Int
  val : α
  state : S
  deriving DecidableEq, Repr

variable (rd : α → S → Outcome α S) (sat : α → Bool)

/-- The loop; the timer expires `n` passes after the one that is made in any case. The flag says whether the condition
has ended the loop. -/
def poll : Nat → α → S → Bool × α × S
  | 0, v, s => (sat (rd v s).val, (rd v s).val, (rd v s).state)
  | n + 1, v, s =>
    if sat (rd v s).val then (true, (rd v s).val, (rd v s).state) else poll n (rd v s).val (rd v s).state

/-- The reads, one after another, for as long as one likes. -/
def reads (v : α) (s : S) : Nat → Outcome α S
  | 0 => rd v s
  | k + 1 => rd (reads v s k).val (reads v s k).state

/-- The loop makes this read. -/
def Made (n : Nat) (v : α) (s : S) (k : Nat) : Prop := k ≤ n ∧ ∀ j < k, sat (reads rd v s j).val = false

variable {rd sat} {n : Nat} {v : α} {s : S}

@[simp]
theorem reads_zero : reads rd v s 0 = rd v s := rfl

theorem reads_succ (k : Nat) : reads rd v s (k + 1) = reads rd (rd v s).val (rd v s).state k := by
  induction k with
  | zero => rfl
  | succ k ih => rw [reads, ih, reads]

/-- The loop ends with the first read that satisfies the condition. -/
theorem poll_of_first {k : Nat} (hmade : Made rd sat n v s k) (hsat : sat (reads rd v s k).val = true) :
    poll rd sat n v s = (true, (reads rd v s k).val, (reads rd v s k).state) := by
  obtain ⟨hk, hfirst⟩ := hmade
  induction k generalizing n v s with
  | zero =>
    rw [reads_zero] at hsat ⊢
    cases n with
    | zero => rw [poll, hsat]
    | succ n => rw [poll, if_pos hsat]
  | succ k ih =>
    obtain ⟨n, rfl⟩ : ∃ m, n = m + 1 := ⟨n - 1, by omega⟩
    have hno : ¬sat (rd v s).val = true := by simpa using hfirst 0 (by omega)
    rw [poll, if_neg hno]
    rw [reads_succ] at hsat ⊢
    exact ih hsat (by omega) fun j hj => by rw [← reads_succ]; exact hfirst (j + 1) (by omega)

/-- No read satisfies the condition until the timer has expired. -/
theorem poll_of_none (h : ∀ k ≤ n, sat (reads rd v s k).val = false) :
    poll rd sat n v s = (false, (reads rd v s n).val, (reads rd v s n).state) := by
  induction n generalizing v s with
  | zero =>
    have hno := h 0 (Nat.le_refl 0)
    rw [reads_zero] at hno ⊢
    rw [poll, hno]
  | succ n ih =>
    have hno : ¬sat (rd v s).val = true := by simpa using h 0 (by omega)
    rw [poll, if_neg hno, reads_succ]
    exact ih fun k hk => by rw [← reads_succ]; exact h (k + 1) (by omega)

/-- There is a first read that satisfies the condition, or none. -/
theorem exists_first (rd : α → S → Outcome α S) (sat : α → Bool) (n : Nat) (v : α) (s : S) :
    (∃ k, Made rd sat n v s k ∧ sat (reads rd v s k).val = true) ∨ ∀ k ≤ n, sat (reads rd v s k).val = false := by
  by_cases h : ∃ k, k ≤ n ∧ sat (reads rd v s k).val = true
  · left
    obtain ⟨hk, hsat⟩ := Nat.find_spec h
    refine ⟨Nat.find h, ⟨hk, fun j hj => ?_⟩, hsat⟩
    have hno := Nat.find_min h hj
    simpa [show j ≤ n by omega] using hno
  · right
    intro k hk
    simpa using fun hsat => h ⟨k, hk, hsat⟩

variable (rd sat n v s) in
/-- The loop ends with the condition only when a read that it has made succeeded with a value that satisfies the
condition, and with the value of that read; and not when every read fails. -/
structure Safe : Prop where
  found : (poll rd sat n v s).1 = true → ∃ k, Made rd sat n v s k ∧ (reads rd v s k).rc = 0 ∧
    sat (reads rd v s k).val = true ∧ (poll rd sat n v s).2.1 = (reads rd v s k).val
  failed : (∀ k, Made rd sat n v s k → (reads rd v s k).rc ≠ 0) → (poll rd sat n v s).1 = false

variable (rd sat n v s) in
/-- No failed read, until one succeeds with such a value, leaves a value that satisfies the condition. -/
def NoGhost : Prop :=
  ∀ k ≤ n, (∀ j < k, (reads rd v s j).rc = 0 → sat (reads rd v s j).val = false) → (reads rd v s k).rc ≠ 0 →
    sat (reads rd v s k).val = false

theorem safe_iff : Safe rd sat n v s ↔ NoGhost rd sat n v s := by
  constructor
  · intro h k
    -- the first read that satisfies the condition is the one that the loop ends with
    induction k using Nat.strongRecOn with
    | _ k ih =>
      intro hk hbefore hrc
      by_contra hsat
      have hmade : Made rd sat n v s k := by
        refine ⟨hk, fun j hj => ?_⟩
        by_cases hj0 : (reads rd v s j).rc = 0
        · exact hbefore j hj hj0
        · exact ih j hj (by omega) (fun i hi => hbefore i (by omega)) hj0
      have hpoll := poll_of_first hmade (by simpa using hsat)
      obtain ⟨i, ⟨-, hi⟩, hirc, hisat, -⟩ := h.found (by rw [hpoll])
      rcases Nat.lt_trichotomy i k with hlt | rfl | hgt
      · exact absurd (hmade.2 i hlt) (by simp [hisat])
      · exact hrc hirc
      · exact hsat (hi k hgt)
  · intro h
    rcases exists_first rd sat n v s with ⟨k, hmade, hsat⟩ | hnone
    · have hpoll := poll_of_first hmade hsat
      have hrc : (reads rd v s k).rc = 0 := by
        by_contra hne
        have hno := h k hmade.1 (fun j hj _ => hmade.2 j hj) hne
        exact absurd hsat (by simp [hno])
      constructor
      · intro _
        exact ⟨k, hmade, hrc, hsat, by rw [hpoll]⟩
      · intro hall
        exact absurd hrc (hall k hmade)
    · have hpoll := poll_of_none hnone
      constructor
      · intro hfound
        rw [hpoll] at hfound
        cases hfound
      · intro _
        rw [hpoll]

end VarPoll
