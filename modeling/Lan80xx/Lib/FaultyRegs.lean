import Lan80xx.Lib.RegBus

/-!
# A storage whose accesses fail

The accesses of a run are numbered. `Faults` says which of them fail, and which of the writes that fail have reached
their register all the same; nothing is said of when or how often that happens. A call that is left at the first access
that fails has, up to there, made the accesses of a run without faults.

- `Goes`, `Carried`: the accesses before one succeed, and a write is carried out;
- `ends_read_faulty`, `ends_writeEach_faulty`: what a read, or a list of writes, leaves;
- `wordsAfter_of_getElem?`: a register written once.
-/

namespace RegBus

open Fallible

variable {Reg : Type} {w : Nat} {C ε : Type}

/-- The accesses that fail, by number, and the writes that are carried out even so. -/
structure Faults where
  fails : Nat → Bool
  lands : Nat → Bool

/-- The words of the registers, and the number of accesses so far. -/
structure Counted (Reg : Type) (w : Nat) where
  words : Reg → BitVec w
  count : Nat

namespace Faults

variable (f : Faults)

/-- The first `n` accesses succeed. -/
def Goes (n : Nat) : Prop := ∀ k < n, f.fails k = false

/-- Access `n` is come to and, if a write, carried out. -/
def Carried (n : Nat) : Prop := f.Goes n ∧ (f.fails n = false ∨ f.lands n = true)

instance : DecidablePred f.Goes := fun n => inferInstanceAs (Decidable (∀ k < n, f.fails k = false))

instance : DecidablePred f.Carried := fun _ => inferInstanceAs (Decidable (_ ∧ _))

variable {f} {m n : Nat}

theorem Goes.mono (h : f.Goes n) (hmn : m ≤ n) : f.Goes m := fun k hk => h k (by omega)

theorem goes_succ : f.Goes (n + 1) ↔ f.Goes n ∧ f.fails n = false := by
  constructor
  · intro h
    exact ⟨h.mono (Nat.le_succ n), h n (Nat.lt_succ_self n)⟩
  · rintro ⟨h, hn⟩ k hk
    rcases Nat.lt_succ_iff_lt_or_eq.mp hk with hlt | rfl
    · exact h k hlt
    · exact hn

theorem goes_zero : f.Goes 0 := fun _ hk => absurd hk (Nat.not_lt_zero _)

/-- Nothing is carried out behind an access that fails. -/
theorem not_carried_of_not_goes (h : ¬f.Goes m) (hmn : m ≤ n) : ¬f.Carried n := fun hc => h (hc.1.mono hmn)

theorem Goes.carried (h : f.Goes n) (hmn : m < n) : f.Carried m := ⟨h.mono (by omega), Or.inl (h m hmn)⟩

end Faults

/-- The storage with these faults; `code` is the error of an access. -/
def faulty [DecidableEq Reg] (f : Faults) (code : Int) : Bus Reg w (Counted Reg w) where
  rd r h := (if f.fails h.count then .error code else .ok (h.words r), { h with count := h.count + 1 })
  wr r v h := (if f.fails h.count then .error code else .ok (),
    { words := if f.fails h.count = false ∨ f.lands h.count = true then Function.update h.words r v else h.words
      count := h.count + 1 })
  drift h h' := h' = h

/-- Writes one after the other, left at the first one that fails. -/
def writeEach {H : Type} (bus : Bus Reg w H) (err : Int → ε) : List (Reg × BitVec w) → EStateM ε (Dev C H) Unit
  | [] => pure ()
  | p :: ps => do
    write bus err p.1 p.2
    writeEach bus err ps

/-- What the writes from number `n` on leave of the words. -/
def wordsAfter [DecidableEq Reg] (f : Faults) : Nat → List (Reg × BitVec w) → (Reg → BitVec w) → Reg → BitVec w
  | _, [], m => m
  | n, p :: ps, m => wordsAfter f (n + 1) ps (if f.Carried n then Function.update m p.1 p.2 else m)

section Words

variable [DecidableEq Reg] {f : Faults} {n i : Nat} {ps : List (Reg × BitVec w)} {m : Reg → BitVec w} {q : Reg}
  {v : BitVec w}

theorem wordsAfter_of_not_goes (h : ¬f.Goes n) : wordsAfter f n ps m = m := by
  induction ps generalizing n m with
  | nil => rfl
  | cons p ps ih =>
    have hnext : ¬f.Goes (n + 1) := fun hg => h (hg.mono (Nat.le_succ n))
    rw [wordsAfter, if_neg (Faults.not_carried_of_not_goes h le_rfl), ih hnext]

theorem wordsAfter_of_not_mem (h : q ∉ ps.map Prod.fst) : wordsAfter f n ps m q = m q := by
  induction ps generalizing n m with
  | nil => rfl
  | cons p ps ih =>
    rw [List.map_cons, List.mem_cons, not_or] at h
    rw [wordsAfter, ih h.2]
    split
    · exact Function.update_of_ne h.1 _ _
    · rfl

theorem wordsAfter_append {qs : List (Reg × BitVec w)} :
    wordsAfter f n (ps ++ qs) m = wordsAfter f (n + ps.length) qs (wordsAfter f n ps m) := by
  induction ps generalizing n m with
  | nil => rfl
  | cons p ps ih => rw [List.cons_append, wordsAfter, ih, wordsAfter, List.length_cons, Nat.add_right_comm, Nat.add_assoc]

/-- A register written once. -/
theorem wordsAfter_of_getElem? (hd : (ps.map Prod.fst).Nodup) (hi : ps[i]? = some (q, v)) :
    wordsAfter f n ps m q = if f.Carried (n + i) then v else m q := by
  induction ps generalizing n m i with
  | nil => cases hi
  | cons p ps ih =>
    rw [List.map_cons, List.nodup_cons] at hd
    rw [wordsAfter]
    cases i with
    | zero =>
      obtain rfl : p = (q, v) := by simpa using hi
      rw [wordsAfter_of_not_mem hd.1, Nat.add_zero]
      split
      · exact Function.update_self ..
      · rfl
    | succ i =>
      have hmem : q ∈ ps.map Prod.fst := List.mem_map.mpr ⟨_, List.mem_of_getElem? hi, rfl⟩
      have hne : q ≠ p.1 := fun h => hd.1 (h ▸ hmem)
      rw [ih hd.2 hi, Nat.add_right_comm, Nat.add_assoc]
      split
      · rfl
      · split
        · exact Function.update_of_ne hne _ _
        · rfl

end Words

section Runs

variable [DecidableEq Reg] (f : Faults) (code : Int) (err : Int → ε)

/-- The first `n` accesses have succeeded and left these data and words. -/
structure Reached (c : C) (m : Reg → BitVec w) (n : Nat) (s : Dev C (Counted Reg w)) : Prop where
  conf : s.conf = c
  words : s.hw.words = m
  count : s.hw.count = n
  goes : f.Goes n

/-- An access before number `n` has failed and left these data and words. -/
structure Stopped (c : C) (m : Reg → BitVec w) (n : Nat) (s : Dev C (Counted Reg w)) : Prop where
  conf : s.conf = c
  words : s.hw.words = m
  fails : ¬f.Goes n

theorem ends_read_faulty {c : C} {m : Reg → BitVec w} {n : Nat} (r : Reg) :
    Ends (Reached f c m n) (read (faulty f code) err r) (fun v s => v = m r ∧ Reached f c m (n + 1) s)
      (Stopped f c m (n + 1)) := by
  rintro ⟨conf, words, count⟩ ⟨rfl, rfl, rfl, hgoes⟩
  cases hf : f.fails count with
  | false =>
    have hrd : read (faulty f code) err r ⟨conf, words, count⟩ = .ok (words r) ⟨conf, words, count + 1⟩ := by
      simp [read, faulty, hf]
    exact Or.inl ⟨_, _, hrd, rfl, rfl, rfl, rfl, Faults.goes_succ.mpr ⟨hgoes, hf⟩⟩
  | true =>
    have hrd : read (faulty f code) err r ⟨conf, words, count⟩ = .error (err code) ⟨conf, words, count + 1⟩ := by
      simp [read, faulty, hf]
    refine Or.inr ⟨_, _, hrd, rfl, rfl, fun h => ?_⟩
    rw [(Faults.goes_succ.mp h).2] at hf
    cases hf

theorem ends_write_faulty {c : C} {m : Reg → BitVec w} {n : Nat} (r : Reg) (v : BitVec w) :
    Ends (Reached f c m n) (write (faulty f code) err r v)
      (fun _ => Reached f c (if f.Carried n then Function.update m r v else m) (n + 1))
      (Stopped f c (if f.Carried n then Function.update m r v else m) (n + 1)) := by
  rintro ⟨conf, words, count⟩ ⟨rfl, rfl, rfl, hgoes⟩
  have hcarried : f.Carried count ↔ f.fails count = false ∨ f.lands count = true := and_iff_right hgoes
  simp only [hcarried]
  cases hf : f.fails count with
  | false =>
    have hwr : write (faulty f code) err r v ⟨conf, words, count⟩ =
        .ok () ⟨conf, Function.update words r v, count + 1⟩ := by
      simp [write, faulty, hf]
    exact Or.inl ⟨_, _, hwr, rfl, by simp, rfl, Faults.goes_succ.mpr ⟨hgoes, hf⟩⟩
  | true =>
    have hwr : write (faulty f code) err r v ⟨conf, words, count⟩ =
        .error (err code) ⟨conf, if f.lands count = true then Function.update words r v else words, count + 1⟩ := by
      simp [write, faulty, hf]
    refine Or.inr ⟨_, _, hwr, rfl, by simp, fun h => ?_⟩
    rw [(Faults.goes_succ.mp h).2] at hf
    cases hf

theorem ends_writeEach_faulty {c : C} {m : Reg → BitVec w} {n : Nat} (ps : List (Reg × BitVec w)) :
    Ends (Reached f c m n) (writeEach (faulty f code) err ps)
      (fun _ => Reached f c (wordsAfter f n ps m) (n + ps.length))
      (Stopped f c (wordsAfter f n ps m) (n + ps.length)) := by
  induction ps generalizing m n with
  | nil => exact Ends.pure fun s hs => hs
  | cons p ps ih =>
    have hlen : n + (p :: ps).length = n + 1 + ps.length := by rw [List.length_cons]; omega
    rw [hlen]
    refine ((ends_write_faulty f code err p.1 p.2).weaken (fun _ _ h => h) fun s hs => ?_).bind fun _ => ih
    refine ⟨hs.conf, ?_, fun hg => hs.fails (hg.mono (by omega))⟩
    rw [wordsAfter, wordsAfter_of_not_goes hs.fails]
    exact hs.words

end Runs

end RegBus
