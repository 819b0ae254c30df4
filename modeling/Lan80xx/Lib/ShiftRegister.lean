import Mathlib.Logic.Function.Iterate

/-!
# The shift register of a cyclic redundancy check

A register of any width `w` takes in a message bit by bit, at its top, and feeds a polynomial `g` (without its leading
term) back whenever a one leaves it. Only two facts about the register matter here: a shift is linear, and it is
injective when the polynomial has its constant term.

- `run_xor`: the register after a sum of messages is the sum of the registers;
- `run_eq_iterate`: up to `w` bits may as well be put into the register before it is shifted;
- `run_burst`: a message that is zero outside `w` consecutive bits leaves the register zero only if it is zero.
-/

namespace ShiftRegister

variable {w : Nat} {g r s : BitVec w}

/-! ## Shifts -/

/-- One shift. -/
def shift (g r : BitVec w) : BitVec w := if r.msb then r <<< 1 ^^^ g else r <<< 1

/-- A bit at the top of a register. -/
def top (b : Bool) : BitVec w := if b then BitVec.intMin w else 0#w

/-- A message bit is taken in. -/
def feed (g r : BitVec w) (b : Bool) : BitVec w := shift g (r ^^^ top b)

@[simp] theorem feed_false : feed g r false = shift g r := by simp [feed, top]

/-- A message is taken in. -/
def run (g r : BitVec w) (bs : List Bool) : BitVec w := bs.foldl (feed g) r

@[simp] theorem run_nil : run g r [] = r := rfl

@[simp] theorem run_cons {b : Bool} {bs : List Bool} : run g r (b :: bs) = run g (feed g r b) bs := rfl

theorem run_append {bs cs : List Bool} : run g r (bs ++ cs) = run g (run g r bs) cs := List.foldl_append

theorem shift_xor : shift g (r ^^^ s) = shift g r ^^^ shift g s := by
  unfold shift
  rw [BitVec.msb_xor, BitVec.shiftLeft_xor_distrib]
  cases r.msb <;> cases s.msb
  · rfl
  · exact BitVec.xor_assoc _ _ _
  · change r <<< 1 ^^^ s <<< 1 ^^^ g = r <<< 1 ^^^ g ^^^ s <<< 1
    ac_rfl
  · change r <<< 1 ^^^ s <<< 1 = r <<< 1 ^^^ g ^^^ (s <<< 1 ^^^ g)
    rw [show r <<< 1 ^^^ g ^^^ (s <<< 1 ^^^ g) = r <<< 1 ^^^ s <<< 1 ^^^ (g ^^^ g) by ac_rfl, BitVec.xor_self,
      BitVec.xor_zero]

@[simp] theorem shift_zero : shift g 0#w = 0#w := by simp [shift]

theorem top_xor (b c : Bool) : (top (b ^^ c) : BitVec w) = top b ^^^ top c := by
  cases b <;> cases c <;> simp [top]

theorem feed_xor {b c : Bool} : feed g (r ^^^ s) (b ^^ c) = feed g r b ^^^ feed g s c := by
  rw [feed, feed, feed, ← shift_xor, top_xor]
  congr 1
  ac_rfl

/-- **The register is linear in the message and in what it held before.** -/
theorem run_xor : ∀ {bs cs : List Bool} {r s : BitVec w}, bs.length = cs.length →
    run g (r ^^^ s) (List.zipWith (· ^^ ·) bs cs) = run g r bs ^^^ run g s cs
  | [], [], _, _, _ => rfl
  | b :: bs, c :: cs, r, s, h => by
    rw [List.zipWith_cons_cons, run_cons, run_cons, run_cons, feed_xor, run_xor (Nat.succ_inj.mp h)]

/-- A shift loses nothing when the polynomial has its constant term: a one that is fed back shows in the lowest bit. -/
theorem shift_eq_zero (hg : g.getLsbD 0 = true) (h : shift g r = 0#w) : r = 0#w := by
  unfold shift at h
  split at h
  · have hlow := congrArg (fun x => x.getLsbD 0) h
    simp [hg] at hlow
  · next hmsb =>
    refine BitVec.eq_of_getMsbD_eq fun i hi => ?_
    cases i with
    | zero => simpa [BitVec.msb_eq_getMsbD_zero] using hmsb
    | succ i =>
      have hbit := congrArg (fun x => x.getMsbD i) h
      simpa [BitVec.getMsbD_shiftLeft] using hbit

theorem iterate_shift_eq_zero (hg : g.getLsbD 0 = true) : ∀ {n : Nat} {r : BitVec w}, (shift g)^[n] r = 0#w → r = 0#w
  | 0, _, h => h
  | n + 1, r, h => shift_eq_zero hg (iterate_shift_eq_zero hg (by rwa [Function.iterate_succ_apply] at h))

/-! ## A word at a time -/

/-- The message bits in a register, the first one at the top. -/
def place : List Bool → BitVec w
  | [] => 0#w
  | b :: bs => top b ^^^ place bs >>> 1

theorem getMsbD_place : ∀ {bs : List Bool} {i : Nat}, i < w → (place bs : BitVec w).getMsbD i = bs.getD i false
  | [], _, _ => by simp [place]
  | b :: bs, 0, h => by cases b <;> simp [place, top, BitVec.getMsbD_ushiftRight, BitVec.getMsbD_intMin, h]
  | b :: bs, i + 1, h => by
    have htop : (top b : BitVec w).getMsbD (i + 1) = false := by
      cases b <;> simp [top, BitVec.getMsbD_intMin]
    simp only [place, BitVec.getMsbD_xor, htop, BitVec.getMsbD_ushiftRight, h, decide_true, Bool.true_and, Bool.false_xor,
      Nat.add_sub_cancel, getMsbD_place (show i < w by omega), List.getD_cons_succ]
    simp

/-- What is placed with room for one more bit comes to the top by one shift, and nothing is fed back. -/
theorem shift_place {bs : List Bool} (h : bs.length < w) : shift g (place bs >>> 1) = place bs := by
  have hmsb : (place bs >>> 1 : BitVec w).msb = false := by
    simp [BitVec.msb_eq_getMsbD_zero, BitVec.getMsbD_ushiftRight]
  rw [shift, hmsb]
  refine BitVec.eq_of_getMsbD_eq fun i hi => ?_
  simp only [Bool.false_eq_true, if_false, BitVec.getMsbD_shiftLeft, BitVec.getMsbD_ushiftRight]
  by_cases hlast : i + 1 < w
  · simp [hlast]
  · simp [hlast, getMsbD_place hi, List.getD_eq_getElem?_getD, List.getElem?_eq_none (show bs.length ≤ i by omega)]

/-- Up to `w` message bits can be put into the register at once. -/
theorem run_eq_iterate : ∀ {bs : List Bool} {r : BitVec w}, bs.length ≤ w →
    run g r bs = (shift g)^[bs.length] (r ^^^ place bs)
  | [], r, _ => by simp [place]
  | b :: bs, r, h => by
    have hlen : bs.length < w := h
    have hone : shift g (r ^^^ place (b :: bs)) = feed g r b ^^^ place bs := by
      rw [place, ← BitVec.xor_assoc, shift_xor, shift_place hlen, feed]
    rw [run_cons, run_eq_iterate (Nat.le_of_lt hlen), List.length_cons, Function.iterate_succ_apply, hone]

/-! ## Bursts -/

theorem run_zeros : ∀ {bs : List Bool}, (∀ b ∈ bs, b = false) → run g 0#w bs = 0#w
  | [], _ => rfl
  | b :: bs, h => by
    have hb : b = false := h b List.mem_cons_self
    rw [run_cons, hb, feed_false, shift_zero]
    exact run_zeros fun c hc => h c (List.mem_cons_of_mem _ hc)

/-- Zeros after a message do not bring the register back to zero. -/
theorem run_zeros_eq_zero (hg : g.getLsbD 0 = true) : ∀ {bs : List Bool} {r : BitVec w}, (∀ b ∈ bs, b = false) →
    run g r bs = 0#w → r = 0#w
  | [], _, _, h => h
  | b :: bs, r, hbs, h => by
    have hb : b = false := hbs b List.mem_cons_self
    have hr := run_zeros_eq_zero hg (fun c hc => hbs c (List.mem_cons_of_mem _ hc)) (run_cons ▸ h)
    rw [hb, feed_false] at hr
    exact shift_eq_zero hg hr

/-- A message no longer than the register shows in it. -/
theorem run_short (hg : g.getLsbD 0 = true) {bs : List Bool} (hlen : bs.length ≤ w) (h : run g 0#w bs = 0#w) :
    ∀ b ∈ bs, b = false := by
  rw [run_eq_iterate hlen, BitVec.zero_xor] at h
  have hplace := iterate_shift_eq_zero hg h
  intro b hb
  obtain ⟨i, hi, rfl⟩ := List.getElem_of_mem hb
  have hbit : (place bs : BitVec w).getMsbD i = bs[i] := by
    rw [getMsbD_place (by omega), List.getD_eq_getElem?_getD, List.getElem?_eq_getElem hi, Option.getD_some]
  rw [← hbit, hplace, BitVec.getMsbD_zero]

/-- **A burst of at most `w` bits is detected**: a message whose ones lie in `w` consecutive places leaves the register
zero only if it has none. -/
theorem run_burst (hg : g.getLsbD 0 = true) {bs : List Bool} {p : Nat}
    (hbs : ∀ i, bs.getD i false = true → p ≤ i ∧ i < p + w) (h : run g 0#w bs = 0#w) : ∀ b ∈ bs, b = false := by
  have hzero {i : Nat} (hi : i < bs.length) (hout : i < p ∨ p + w ≤ i) : bs[i] = false := by
    by_contra hb
    have := hbs i (by rw [List.getD_eq_getElem?_getD, List.getElem?_eq_getElem hi, Option.getD_some]; simpa using hb)
    omega
  -- before, inside and after the places of the burst
  have hbefore : ∀ b ∈ bs.take p, b = false := by
    intro b hb
    obtain ⟨i, hi, rfl⟩ := List.getElem_of_mem hb
    rw [List.getElem_take]
    rw [List.length_take] at hi
    exact hzero (by omega) (by omega)
  have hafter : ∀ b ∈ (bs.drop p).drop w, b = false := by
    intro b hb
    obtain ⟨i, hi, rfl⟩ := List.getElem_of_mem hb
    rw [List.getElem_drop, List.getElem_drop]
    rw [List.length_drop, List.length_drop] at hi
    exact hzero (by omega) (by omega)
  have hsplit : bs = bs.take p ++ ((bs.drop p).take w ++ (bs.drop p).drop w) := by
    rw [List.take_append_drop, List.take_append_drop]
  rw [hsplit, run_append, run_append, run_zeros hbefore] at h
  have hinside := run_short hg (List.length_take_le _ _) (run_zeros_eq_zero hg hafter h)
  intro b hb
  rw [hsplit, List.mem_append, List.mem_append] at hb
  rcases hb with hb | hb | hb
  · exact hbefore b hb
  · exact hinside b hb
  · exact hafter b hb

end ShiftRegister
