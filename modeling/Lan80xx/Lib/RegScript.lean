import Lan80xx.Lib.RegView

/-!
# Sequences of register accesses

Much of a driver's work is a straight line of accesses, left at the first one that fails. `Access` is one of them and
`runAll` their sequence. The view of the device is its bits, one by one; the `live` bits, which the device changes by
itself, are not looked at.

- `wordOf`: a word from its bits;
- `Access.bit`, `lastBit`: what an access, or a sequence, makes of a bit, whatever it was before;
- `ends_runAll`: a sequence that returns has made each bit what its last access makes of it;
- `passesAll`, `ends_runAll_passes`: the device after a sequence, if all its accesses succeed;
- `SeesOn`, `ends_runAll_on`: what a sequence makes of some of the registers, when no access fails;
- `wordAfter`, `regWord_of_wordAfter`: the word that a sequence leaves in a register;
- `Settled`: registers that a sequence would leave as they are.
-/

namespace RegScript

open Fallible RegBus

variable {Reg : Type} [DecidableEq Reg] {w : Nat} {C H ε : Type}

/-! ## Accesses -/

/-- The bits of the registers. -/
abbrev Bits (Reg : Type) (w : Nat) := Reg → Fin w → Bool

/-- The word that has these bits. -/
def wordOf : {n : Nat} → (Fin n → Bool) → BitVec n
  | 0, _ => 0
  | n + 1, bits => BitVec.cons (bits (Fin.last n)) (wordOf fun b : Fin n => bits b.castSucc)

theorem wordOf_getLsbD {n : Nat} (bits : Fin n → Bool) (b : Fin n) : (wordOf bits).getLsbD b = bits b := by
  induction n with
  | zero => exact b.elim0
  | succ n ih =>
    rw [wordOf, BitVec.getLsbD_cons]
    cases b using Fin.lastCases with
    | last => rw [if_pos (Fin.val_last n)]
    | cast b =>
      rw [Fin.val_castSucc, if_neg (Nat.ne_of_lt b.isLt)]
      exact ih (fun b => bits b.castSucc) b

theorem wordOf_eq {n : Nat} {bits : Fin n → Bool} {v : BitVec n} (h : ∀ b : Fin n, bits b = v.getLsbD b) : wordOf bits = v :=
  BitVec.eq_of_getLsbD_eq fun b hb => (wordOf_getLsbD bits ⟨b, hb⟩).trans (h ⟨b, hb⟩)

/-- One access of a sequence. -/
inductive Access (Reg : Type) (w : Nat)
  /-- A read whose word does not count. -/
  | rd (r : Reg)
  | wr (r : Reg) (v : BitVec w)
  /-- A read-modify-write: `value` is set after `mask` is cleared. -/
  | modify (r : Reg) (mask value : BitVec w)
  /-- The same, where a word that does not change is not written. -/
  | change (r : Reg) (mask value : BitVec w)
  /-- The same, of a double word in two registers; the high one is read last and written first. -/
  | change2 (lo hi : Reg) (mask value : BitVec (w + w))
  deriving DecidableEq, Repr

/-- `value` set after `mask` is cleared. -/
def modified {n : Nat} (old mask value : BitVec n) : BitVec n := (old &&& ~~~mask) ||| value

/-- What `modified` makes of a bit. -/
def modifiedBit {n : Nat} (mask value : BitVec n) (b : Nat) : Option Bool :=
  if value.getLsbD b then some true else if mask.getLsbD b then some false else none

namespace Access

/-- The registers an access may write. -/
def writes : Access Reg w → List Reg
  | rd _ => []
  | wr r _ => [r]
  | modify r _ _ => [r]
  | change r _ _ => [r]
  | change2 lo hi _ _ => [lo, hi]

/-- What an access makes of a bit; `none` if it leaves it alone. -/
def bit : Access Reg w → Reg → Fin w → Option Bool
  | rd _, _, _ => none
  | wr r v, q, b => if q = r then some (v.getLsbD b) else none
  | modify r mask value, q, b => if q = r then modifiedBit mask value b else none
  | change r mask value, q, b => if q = r then modifiedBit mask value b else none
  | change2 lo hi mask value, q, b =>
    if q = lo then modifiedBit mask value b else if q = hi then modifiedBit mask value (b + w) else none

end Access

/-- What a sequence makes of a bit. -/
def lastBit : List (Access Reg w) → Reg → Fin w → Option Bool
  | [], _, _ => none
  | a :: as, q, b => (lastBit as q b).or (a.bit q b)

/-! ## Running them -/

section Run

variable (bus : Bus Reg w H) (err : Int → ε)

def Access.run : Access Reg w → EStateM ε (Dev C H) Unit
  | .rd r => do
    let _ ← read bus err r
  | .wr r v => write bus err r v
  | .modify r mask value => do
    let old ← read bus err r
    write bus err r (modified old mask value)
  | .change r mask value => do
    let old ← read bus err r
    when (old ≠ modified old mask value) (write bus err r (modified old mask value))
  | .change2 lo hi mask value => do
    let l ← read bus err lo
    let h ← read bus err hi
    when (h ++ l ≠ modified (h ++ l) mask value) do
      write bus err hi ((modified (h ++ l) mask value) >>> w |>.setWidth w)
      write bus err lo ((modified (h ++ l) mask value).setWidth w)

/-- The sequence is left at the first access that fails. -/
def runAll : List (Access Reg w) → EStateM ε (Dev C H) Unit
  | [] => pure ()
  | a :: as => do
    a.run bus err
    runAll as

omit [DecidableEq Reg] in
theorem runAll_append (as bs : List (Access Reg w)) : (runAll bus err (as ++ bs) : EStateM ε (Dev C H) Unit) =
    (runAll bus err as >>= fun _ => runAll bus err bs) := by
  induction as with
  | nil => rfl
  | cons a as ih =>
    rw [List.cons_append, runAll, ih, runAll, bind_assoc]

/-- No return code is looked at. -/
def tryAll : List (Access Reg w) → EStateM ε (Dev C H) Unit
  | [] => pure ()
  | a :: as => do
    let _ ← attempt (a.run bus err)
    tryAll as

end Run

/-! ## Sequences that go through -/

section Passes

variable (bus : Bus Reg w H) (err : Int → ε) {c : C} {h : H}

def readPasses (r : Reg) (h : H) : Option (BitVec w × H) :=
  match bus.rd r h with
  | (.ok v, h') => some (v, h')
  | (.error _, _) => none

def writePasses (r : Reg) (v : BitVec w) (h : H) : Option H :=
  match bus.wr r v h with
  | (.ok (), h') => some h'
  | (.error _, _) => none

/-- The device after an access, if that succeeds. -/
def Access.passes : Access Reg w → H → Option H
  | .rd r, h => do
    let (_, h) ← readPasses bus r h
    pure h
  | .wr r v, h => writePasses bus r v h
  | .modify r mask value, h => do
    let (old, h) ← readPasses bus r h
    writePasses bus r (modified old mask value) h
  | .change r mask value, h => do
    let (old, h) ← readPasses bus r h
    if old ≠ modified old mask value then writePasses bus r (modified old mask value) h else pure h
  | .change2 lo hi mask value, h => do
    let (l, h) ← readPasses bus lo h
    let (u, h) ← readPasses bus hi h
    if u ++ l ≠ modified (u ++ l) mask value then do
      let h ← writePasses bus hi ((modified (u ++ l) mask value) >>> w |>.setWidth w) h
      writePasses bus lo ((modified (u ++ l) mask value).setWidth w) h
    else pure h

/-- The device after a sequence, if all its accesses succeed. -/
def passesAll : List (Access Reg w) → H → Option H
  | [], h => some h
  | a :: as, h => do
    let h ← a.passes bus h
    passesAll as h

/-- The driver's data `c` and the device `h`. -/
def At (c : C) (h : H) (s : Dev C H) : Prop := s.conf = c ∧ s.hw = h

/-- A part that goes through, from `h` on. -/
abbrev PassesFrom (c : C) (passes : Option H) (s : Dev C H) : Prop := s.conf = c ∧ passes = some s.hw

abbrev Stops (c : C) (passes : Option H) (s : Dev C H) : Prop := s.conf = c ∧ passes = none

omit [DecidableEq Reg] in
theorem ends_write_passes (r : Reg) (v : BitVec w) : Ends (At c h) (write bus err r v : EStateM ε (Dev C H) _)
    (fun _ => PassesFrom c (writePasses bus r v h)) (Stops c (writePasses bus r v h)) := by
  rintro ⟨c', h'⟩ ⟨hc, hh⟩
  dsimp only at hc hh
  subst hc hh
  simp only [write, writePasses]
  rcases bus.wr r v h' with ⟨_ | u, t⟩
  · exact Or.inr ⟨_, _, rfl, rfl, rfl⟩
  · exact Or.inl ⟨_, _, rfl, rfl, rfl⟩

omit [DecidableEq Reg] in
theorem ends_read_bind_passes (r : Reg) {f : BitVec w → EStateM ε (Dev C H) Unit} {g : BitVec w → H → Option H}
    (hf : ∀ v h, Ends (At c h) (f v) (fun _ => PassesFrom c (g v h)) (Stops c (g v h))) :
    Ends (At c h) (RegBus.read bus err r >>= f) (fun _ => PassesFrom c ((readPasses bus r h).bind fun vh => g vh.1 vh.2))
      (Stops c ((readPasses bus r h).bind fun vh => g vh.1 vh.2)) := by
  rintro ⟨c', h'⟩ ⟨hc, hh⟩
  dsimp only at hc hh
  subst hc hh
  rcases hr : bus.rd r h' with ⟨e | v, t⟩
  · have hread : (RegBus.read bus err r : EStateM ε (Dev C H) _) ⟨c', h'⟩ = .error (err e) ⟨c', t⟩ := by
      simp only [RegBus.read, hr]
    exact Or.inr ⟨_, _, bind_of_error hread, rfl, by simp [readPasses, hr]⟩
  · have hread : (RegBus.read bus err r : EStateM ε (Dev C H) _) ⟨c', h'⟩ = .ok v ⟨c', t⟩ := by
      simp only [RegBus.read, hr]
    have hpasses : readPasses bus r h' = some (v, t) := by simp only [readPasses, hr]
    rw [bind_of_ok hread, hpasses]
    exact hf v t ⟨c', t⟩ ⟨rfl, rfl⟩

omit [DecidableEq Reg] in
theorem ends_bind_passes {x y : EStateM ε (Dev C H) Unit} {p : Option H} {g : H → Option H}
    (hx : Ends (At c h) x (fun _ => PassesFrom c p) (Stops c p))
    (hy : ∀ h, Ends (At c h) y (fun _ => PassesFrom c (g h)) (Stops c (g h))) :
    Ends (At c h) (x >>= fun _ => y) (fun _ => PassesFrom c (p.bind g)) (Stops c (p.bind g)) := by
  refine (hx.weaken (fun _ _ hs => hs) fun s hs => ⟨hs.1, by rw [hs.2]; rfl⟩).bind fun _ => ?_
  rintro s ⟨hc, hp⟩
  have hs := hy s.hw s ⟨hc, rfl⟩
  rwa [hp]

omit [DecidableEq Reg] in
theorem ends_pure_passes : Ends (At c h) (pure () : EStateM ε (Dev C H) Unit) (fun _ => PassesFrom c (some h))
    (Stops c (some h)) :=
  Ends.pure fun _ hs => ⟨hs.1, congrArg some hs.2.symm⟩

omit [DecidableEq Reg] in
theorem ends_run_passes (a : Access Reg w) : Ends (At c h) (a.run bus err : EStateM ε (Dev C H) _)
    (fun _ => PassesFrom c (a.passes bus h)) (Stops c (a.passes bus h)) := by
  cases a with
  | rd r => exact ends_read_bind_passes bus err r fun _ _ => ends_pure_passes
  | wr r v => exact ends_write_passes bus err r v
  | modify r mask value => exact ends_read_bind_passes bus err r fun _ _ => ends_write_passes bus err r _
  | change r mask value =>
    refine ends_read_bind_passes bus err r (g := fun old h => if old ≠ modified old mask value then
      writePasses bus r (modified old mask value) h else some h) fun old h => ?_
    by_cases hsame : old ≠ modified old mask value
    · rw [if_pos hsame, Fallible.when, if_pos hsame]
      exact ends_write_passes bus err r _
    · rw [if_neg hsame, Fallible.when, if_neg hsame]
      exact ends_pure_passes
  | change2 lo hi mask value =>
    refine ends_read_bind_passes bus err lo (g := fun l h => (readPasses bus hi h).bind fun uh =>
      if uh.1 ++ l ≠ modified (uh.1 ++ l) mask value then
        (writePasses bus hi ((modified (uh.1 ++ l) mask value) >>> w |>.setWidth w) uh.2).bind
          (writePasses bus lo ((modified (uh.1 ++ l) mask value).setWidth w))
      else some uh.2) fun l h => ?_
    refine ends_read_bind_passes bus err hi (g := fun u h => if u ++ l ≠ modified (u ++ l) mask value then
      (writePasses bus hi ((modified (u ++ l) mask value) >>> w |>.setWidth w) h).bind
        (writePasses bus lo ((modified (u ++ l) mask value).setWidth w)) else some h) fun u h => ?_
    by_cases hsame : u ++ l ≠ modified (u ++ l) mask value
    · rw [if_pos hsame, Fallible.when, if_pos hsame]
      exact ends_bind_passes (ends_write_passes bus err hi _) fun _ => ends_write_passes bus err lo _
    · rw [if_neg hsame, Fallible.when, if_neg hsame]
      exact ends_pure_passes

omit [DecidableEq Reg] in
/-- A sequence returns when all its accesses succeed, and only then. -/
theorem ends_runAll_passes (as : List (Access Reg w)) : Ends (At c h) (runAll bus err as : EStateM ε (Dev C H) _)
    (fun _ => PassesFrom c (passesAll bus as h)) (Stops c (passesAll bus as h)) := by
  induction as generalizing h with
  | nil => exact ends_pure_passes
  | cons a as ih => exact ends_bind_passes (ends_run_passes bus err a) fun _ => ih

end Passes

/-! ## Devices seen bit by bit -/

/-- The bits after a write. -/
def onWrite (live : Reg → Fin w → Bool) (r : Reg) (v : BitVec w) (m : Bits Reg w) : Bits Reg w :=
  fun q b => if q = r ∧ live r b = false then v.getLsbD b else m q b

/-- The words that a read may return. -/
def shows (live : Reg → Fin w → Bool) (r : Reg) (v : BitVec w) (m : Bits Reg w) : Prop :=
  ∀ b, live r b = false → v.getLsbD b = m r b

/-- A device that stores its bits, but for the `live` ones. -/
abbrev BitBus (Reg : Type) [DecidableEq Reg] (w : Nat) (live : Reg → Fin w → Bool) (H : Type) :=
  ViewBus Reg w (onWrite live) (shows live) H

/-- The words themselves, when every access succeeds and no bit changes by itself. -/
def bitStorage (Reg : Type) [DecidableEq Reg] (w : Nat) (live : Reg → Fin w → Bool) :
    BitBus Reg w live (Reg → BitVec w) where
  rd r h := (.ok (h r), h)
  wr r v h := (.ok (), Function.update h r v)
  drift h h' := h' = h
  view h q b := if live q b then false else (h q).getLsbD b
  view_rd _ _ := rfl
  rd_ok r h v hv b hlive := by cases hv; simp [hlive]
  view_wr_ok r v h _ := by
    funext q b
    by_cases hq : q = r
    · subst hq
      cases hl : live q b <;> simp [onWrite, hl]
    · simp [onWrite, hq]
  view_wr_error _ _ _ _ hw := by cases hw
  view_drift _ _ hd := by rw [hd]

theorem bitStorage_sound {live : Reg → Fin w → Bool} (h : Reg → BitVec w) : (bitStorage Reg w live).Sound h :=
  fun h' _ => ⟨fun r => ⟨h' r, rfl⟩, fun _ _ => rfl⟩

/-- The bits after a sequence. -/
def applyAll (live : Reg → Fin w → Bool) (as : List (Access Reg w)) (m : Bits Reg w) : Bits Reg w :=
  fun q b => if live q b then m q b else (lastBit as q b).getD (m q b)

section Apply

variable {live : Reg → Fin w → Bool} {m : Bits Reg w} {a : Access Reg w} {as bs : List (Access Reg w)} {q : Reg} {b : Fin w}

@[simp]
theorem applyAll_nil : applyAll live [] m = m := by
  funext q b
  simp [applyAll, lastBit]

theorem applyAll_cons : applyAll live (a :: as) m = applyAll live as (applyAll live [a] m) := by
  funext q b
  cases hl : live q b with
  | true => simp [applyAll, hl]
  | false => cases h : lastBit as q b <;> simp [applyAll, lastBit, hl, h]

theorem applyAll_append : applyAll live (as ++ bs) m = applyAll live bs (applyAll live as m) := by
  induction as generalizing m with
  | nil => rw [List.nil_append, applyAll_nil]
  | cons a as ih => rw [List.cons_append, applyAll_cons, ih, ← applyAll_cons]

theorem lastBit_append : lastBit (as ++ bs) q b = (lastBit bs q b).or (lastBit as q b) := by
  induction as with
  | nil => simp [lastBit]
  | cons a as ih => rw [List.cons_append, lastBit, ih, lastBit, Option.or_assoc]

theorem bit_of_not_mem (h : q ∉ a.writes) : a.bit q b = none := by
  cases a with
  | rd => rfl
  | wr | modify | change =>
    have hne : q ≠ _ := fun he => h (he ▸ List.mem_singleton_self _)
    simp [Access.bit, hne]
  | change2 lo hi =>
    have hlo : q ≠ lo := fun he => h (he ▸ List.mem_cons_self)
    have hhi : q ≠ hi := fun he => h (he ▸ List.mem_cons_of_mem _ List.mem_cons_self)
    simp [Access.bit, hlo, hhi]

theorem lastBit_of_not_mem (h : ∀ a ∈ as, q ∉ a.writes) : lastBit as q b = none := by
  induction as with
  | nil => rfl
  | cons a as ih =>
    rw [lastBit, ih fun a' ha => h a' (List.mem_cons_of_mem _ ha), bit_of_not_mem (h a List.mem_cons_self)]
    rfl

/-- A register that the sequence does not write. -/
theorem applyAll_of_not_mem (h : ∀ a ∈ as, q ∉ a.writes) : applyAll live as m q b = m q b := by
  simp [applyAll, lastBit_of_not_mem h]

theorem applyAll_of_lastBit {v : Bool} (hl : live q b = false) (h : lastBit as q b = some v) :
    applyAll live as m q b = v := by
  simp [applyAll, hl, h]

theorem applyAll_of_none (h : lastBit as q b = none) : applyAll live as m q b = m q b := by
  simp [applyAll, h]

end Apply

/-- The word in a register. -/
def regWord (m : Bits Reg w) (q : Reg) : BitVec w := wordOf (m q)

theorem regWord_applyAll (live : Reg → Fin w → Bool) {m : Bits Reg w} {as : List (Access Reg w)} {q : Reg} {v : BitVec w}
    (hl : ∀ b, live q b = false) (h : ∀ b : Fin w, lastBit as q b = some (v.getLsbD b)) :
    regWord (applyAll live as m) q = v :=
  wordOf_eq fun b => applyAll_of_lastBit (hl b) (h b)

/-! ## What a sequence does -/

theorem modified_getLsbD {n : Nat} (old mask value : BitVec n) {b : Nat} (hb : b < n) :
    (modified old mask value).getLsbD b = (modifiedBit mask value b).getD (old.getLsbD b) := by
  rw [modified, modifiedBit, BitVec.getLsbD_or, BitVec.getLsbD_and, BitVec.getLsbD_not]
  cases value.getLsbD b <;> cases mask.getLsbD b <;> simp [hb]

/-! ## Whole words -/

/-- The word that an access leaves in a register, from the one that it finds there; `none` is a word that is not known. -/
def Access.word (q : Reg) : Access Reg w → Option (BitVec w) → Option (BitVec w)
  | rd _, o => o
  | wr r v, o => if q = r then some v else o
  | modify r mask value, o => if q = r then o.map fun old => modified old mask value else o
  | change r mask value, o => if q = r then o.map fun old => modified old mask value else o
  | change2 lo hi _ _, o => if q = lo ∨ q = hi then none else o

/-- The word that a sequence leaves in a register. -/
def wordAfter (q : Reg) (as : List (Access Reg w)) (o : Option (BitVec w)) : Option (BitVec w) :=
  as.foldl (fun o a => a.word q o) o

section Words

variable {live : Reg → Fin w → Bool} {m : Bits Reg w} {as : List (Access Reg w)} {q : Reg} {o : Option (BitVec w)}
  {v : BitVec w}

omit [DecidableEq Reg] in
theorem regWord_getLsbD (m : Bits Reg w) (q : Reg) (b : Fin w) : (regWord m q).getLsbD b = m q b := wordOf_getLsbD _ _

/-- A read-modify-write of the word that is there. -/
theorem regWord_applyAll_modified {a : Access Reg w} (mask value : BitVec w) (hl : ∀ b, live q b = false)
    (hbit : ∀ b, a.bit q b = modifiedBit mask value b) :
    regWord (applyAll live [a] m) q = modified (regWord m q) mask value := by
  refine wordOf_eq fun b => ?_
  rw [modified_getLsbD _ _ _ b.isLt, regWord_getLsbD]
  simp [applyAll, lastBit, hl, hbit]

theorem word_of_not_mem {a : Access Reg w} (h : q ∉ a.writes) : a.word q o = o := by
  cases a with
  | rd => rfl
  | wr | modify | change =>
    have hne : q ≠ _ := fun he => h (he ▸ List.mem_singleton_self _)
    simp [Access.word, hne]
  | change2 lo hi =>
    have hne : ¬(q = lo ∨ q = hi) := fun he => h (by simpa [Access.writes] using he)
    simp [Access.word, hne]

theorem regWord_applyAll_one {a : Access Reg w} (hl : ∀ b, live q b = false) (ho : ∀ u, o = some u → regWord m q = u)
    (hv : a.word q o = some v) : regWord (applyAll live [a] m) q = v := by
  by_cases hq : q ∈ a.writes
  · cases a with
    | rd r => cases hq
    | wr r u =>
      obtain rfl : q = r := List.mem_singleton.mp hq
      rw [Access.word, if_pos rfl] at hv
      cases hv
      exact regWord_applyAll live hl fun b => by simp [lastBit, Access.bit]
    | modify r mask value | change r mask value =>
      obtain rfl : q = r := List.mem_singleton.mp hq
      rw [Access.word, if_pos rfl, Option.map_eq_some_iff] at hv
      obtain ⟨old, hold, rfl⟩ := hv
      rw [regWord_applyAll_modified mask value hl fun b => by simp [Access.bit], ho old hold]
    | change2 lo hi mask value =>
      rw [Access.word, if_pos (by simpa [Access.writes] using hq)] at hv
      cases hv
  · rw [word_of_not_mem hq] at hv
    refine wordOf_eq fun b => ?_
    rw [← ho v hv, regWord_getLsbD]
    exact applyAll_of_not_mem fun a' ha => by rwa [List.mem_singleton.mp ha]

@[simp]
theorem wordAfter_nil : wordAfter q [] o = o := rfl

@[simp]
theorem wordAfter_cons {a : Access Reg w} : wordAfter q (a :: as) o = wordAfter q as (a.word q o) := rfl

theorem wordAfter_append {bs : List (Access Reg w)} : wordAfter q (as ++ bs) o = wordAfter q bs (wordAfter q as o) :=
  List.foldl_append

/-- The word in a register after a sequence that leaves a known one there. -/
theorem regWord_of_wordAfter (hl : ∀ b, live q b = false) (ho : ∀ u, o = some u → regWord m q = u)
    (hv : wordAfter q as o = some v) : regWord (applyAll live as m) q = v := by
  induction as generalizing m o with
  | nil =>
    rw [applyAll_nil]
    exact ho v hv
  | cons a as ih =>
    rw [applyAll_cons]
    exact ih (fun u hu => regWord_applyAll_one hl ho hu) hv

end Words

section Ends

variable {live : Reg → Fin w → Bool} (rf : BitBus Reg w live H) (err : Int → ε) {h₀ : H} {c : C} {m : Bits Reg w}

/-- What a failed access, or sequence, leaves behind: an access has failed, and only registers of `rs` may be touched. -/
def Broken (rs : List Reg) (h₀ : H) (c : C) (m : Bits Reg w) (s : Dev C H) : Prop :=
  ¬rf.Sound h₀ ∧ ∃ m', Sees rf h₀ c m' s ∧ ∀ q ∉ rs, m' q = m q

variable {rf} in
theorem Broken.mono {rs rs' : List Reg} {s : Dev C H} (h : Broken rf rs h₀ c m s) (hrs : rs ⊆ rs') :
    Broken rf rs' h₀ c m s := by
  obtain ⟨hs, m', hm, hq⟩ := h
  exact ⟨hs, m', hm, fun q hn => hq q fun hmem => hn (hrs hmem)⟩

theorem onWrite_of_ne {r q : Reg} (v : BitVec w) (hq : q ≠ r) : onWrite live r v m q = m q := by
  funext b
  simp [onWrite, hq]

/-- A write, of a register that belongs to those that may be touched. -/
theorem ends_write_bits {rs : List Reg} {r : Reg} (hr : r ∈ rs) (v : BitVec w) :
    Ends (Sees rf h₀ c m) (write rf.toBus err r v : EStateM ε (Dev C H) _)
      (fun _ => Sees rf h₀ c (onWrite live r v m)) (Broken rf rs h₀ c m) := by
  refine ends_write_sees rf err r v fun s hno hs => ⟨fun hso => hno hso.writesGo, ?_⟩
  rcases hs with hs | hs
  · exact ⟨m, hs, fun _ _ => rfl⟩
  · exact ⟨_, hs, fun q hq => onWrite_of_ne v fun he => hq (he ▸ hr)⟩

theorem ends_read_bits (rs : List Reg) (r : Reg) :
    Ends (Sees rf h₀ c m) (read rf.toBus err r : EStateM ε (Dev C H) _)
      (fun v s => Sees rf h₀ c m s ∧ shows live r v m) (Broken rf rs h₀ c m) :=
  ends_read_sees rf err r fun _ hno hs => ⟨hno, m, hs, fun _ _ => rfl⟩

/-- The bits after a read-modify-write. -/
theorem onWrite_modified {r : Reg} {old mask value : BitVec w} (hold : shows live r old m) :
    onWrite live r (modified old mask value) m = applyAll live [.change r mask value] m := by
  funext q b
  by_cases hq : q = r
  · subst hq
    cases hl : live q b with
    | true => simp [onWrite, applyAll, hl]
    | false =>
      rw [onWrite, if_pos ⟨rfl, hl⟩, modified_getLsbD _ _ _ b.isLt, hold b hl]
      simp [applyAll, hl, lastBit, Access.bit]
  · simp [onWrite, applyAll, lastBit, Access.bit, hq]

/-- The bits after a read-modify-write that changes nothing. -/
theorem applyAll_unchanged {r : Reg} {old mask value : BitVec w} (hold : shows live r old m)
    (hsame : old = modified old mask value) : applyAll live [.change r mask value] m = m := by
  rw [← onWrite_modified hold, ← hsame]
  funext q b
  by_cases hq : q = r
  · subst hq
    cases hl : live q b with
    | true => simp [onWrite, hl]
    | false => rw [onWrite, if_pos ⟨rfl, hl⟩, hold b hl]
  · simp [onWrite, hq]

/-- Some bits of a word that was read are set or cleared, and the word is the new value under their mask. -/
theorem modified_enabled (v k : BitVec w) (on : Bool) :
    modified v k (if on then v ||| k else v &&& ~~~k) = modified v k (if on then k else 0) := by
  cases on with
  | true =>
    rw [if_pos rfl, if_pos rfl, modified, modified]
    ext i hi
    simp only [BitVec.getElem_or, BitVec.getElem_and, BitVec.getElem_not]
    cases v[i] <;> cases k[i] <;> rfl
  | false =>
    rw [if_neg Bool.false_ne_true, if_neg Bool.false_ne_true, modified, modified]
    ext i hi
    simp

theorem applyAll_enabled {r : Reg} {v k : BitVec w} (on : Bool) (hv : shows live r v m) :
    applyAll live [.change r k (if on then v ||| k else v &&& ~~~k)] m =
      applyAll live [.change r k (if on then k else 0)] m := by
  rw [← onWrite_modified hv, ← onWrite_modified hv, modified_enabled]

theorem append_getLsbD_lo (h l : BitVec w) (b : Fin w) : (h ++ l).getLsbD b = l.getLsbD b := by
  rw [BitVec.getLsbD_append, if_pos b.isLt]

theorem append_getLsbD_hi (h l : BitVec w) (b : Fin w) : (h ++ l).getLsbD (b + w) = h.getLsbD b := by
  rw [BitVec.getLsbD_append, if_neg (by omega), Nat.add_sub_cancel]

theorem lowWord_getLsbD (x : BitVec (w + w)) (b : Fin w) : (x.setWidth w).getLsbD b = x.getLsbD b := by
  rw [BitVec.getLsbD_setWidth, decide_eq_true b.isLt, Bool.true_and]

theorem highWord_getLsbD (x : BitVec (w + w)) (b : Fin w) : ((x >>> w).setWidth w).getLsbD b = x.getLsbD (b + w) := by
  rw [BitVec.getLsbD_setWidth, decide_eq_true b.isLt, Bool.true_and, BitVec.getLsbD_ushiftRight]
  exact congrArg x.getLsbD (Nat.add_comm w b)

/-- A bit of the low word of a double word that was modified. -/
theorem modified_lowWord (h l : BitVec w) (mask value : BitVec (w + w)) (b : Fin w) :
    ((modified (h ++ l) mask value).setWidth w).getLsbD b = (modifiedBit mask value b).getD (l.getLsbD b) := by
  rw [lowWord_getLsbD, modified_getLsbD _ _ _ (by omega), append_getLsbD_lo]

theorem modified_highWord (h l : BitVec w) (mask value : BitVec (w + w)) (b : Fin w) :
    ((modified (h ++ l) mask value >>> w).setWidth w).getLsbD b = (modifiedBit mask value (b + w)).getD (h.getLsbD b) := by
  rw [highWord_getLsbD, modified_getLsbD _ _ _ (by omega), append_getLsbD_hi]

/-- The bits after a double word was modified and written. -/
theorem onWrite_modified2 {lo hi : Reg} {l h : BitVec w} {mask value : BitVec (w + w)} (hl : shows live lo l m)
    (hh : shows live hi h m) :
    onWrite live lo ((modified (h ++ l) mask value).setWidth w)
      (onWrite live hi ((modified (h ++ l) mask value >>> w).setWidth w) m) =
        applyAll live [.change2 lo hi mask value] m := by
  funext q b
  cases hlive : live q b with
  | true =>
    have hoff : ∀ r, ¬(q = r ∧ live r b = false) := by
      rintro r ⟨rfl, hf⟩
      rw [hlive] at hf
      cases hf
    rw [onWrite, if_neg (hoff lo), onWrite, if_neg (hoff hi), applyAll, if_pos hlive]
  | false =>
    rw [applyAll, if_neg (by simp [hlive])]
    by_cases hqlo : q = lo
    · subst hqlo
      rw [onWrite, if_pos ⟨rfl, hlive⟩, modified_lowWord, hl b hlive]
      simp [lastBit, Access.bit]
    · rw [onWrite, if_neg fun h => hqlo h.1]
      by_cases hqhi : q = hi
      · subst hqhi
        rw [onWrite, if_pos ⟨rfl, hlive⟩, modified_highWord, hh b hlive]
        simp [lastBit, Access.bit, hqlo]
      · rw [onWrite, if_neg fun h => hqhi h.1]
        simp [lastBit, Access.bit, hqlo, hqhi]

theorem applyAll_unchanged2 {lo hi : Reg} {l h : BitVec w} {mask value : BitVec (w + w)} (hl : shows live lo l m)
    (hh : shows live hi h m) (hsame : h ++ l = modified (h ++ l) mask value) :
    applyAll live [.change2 lo hi mask value] m = m := by
  funext q b
  cases hlive : live q b with
  | true => simp [applyAll, hlive]
  | false =>
    rw [applyAll, if_neg (by simp [hlive])]
    by_cases hqlo : q = lo
    · subst hqlo
      have hlow := modified_lowWord h l mask value b
      rw [← hsame, lowWord_getLsbD, append_getLsbD_lo, hl b hlive] at hlow
      simp [lastBit, Access.bit, ← hlow]
    · by_cases hqhi : q = hi
      · subst hqhi
        have hhigh := modified_highWord h l mask value b
        rw [← hsame, highWord_getLsbD, append_getLsbD_hi, hh b hlive] at hhigh
        simp [lastBit, Access.bit, hqlo, ← hhigh]
      · simp [lastBit, Access.bit, hqlo, hqhi]

theorem applyAll_rd (r : Reg) : applyAll live [(.rd r : Access Reg w)] m = m := by
  funext q b
  simp [applyAll, lastBit, Access.bit]

theorem applyAll_wr (r : Reg) (v : BitVec w) : applyAll live [.wr r v] m = onWrite live r v m := by
  funext q b
  by_cases hq : q = r
  · subst hq
    cases hl : live q b <;> simp [applyAll, onWrite, lastBit, Access.bit, hl]
  · simp [applyAll, onWrite, lastBit, Access.bit, hq]

/-- One access. -/
theorem ends_run (a : Access Reg w) : Ends (Sees rf h₀ c m) (a.run rf.toBus err)
    (fun _ => Sees rf h₀ c (applyAll live [a] m)) (Broken rf a.writes h₀ c m) := by
  cases a with
  | rd r =>
    refine (ends_read_bits rf err [] r).bind fun v => Ends.pure fun s hs => ?_
    rw [applyAll_rd]
    exact hs.1
  | wr r v =>
    rw [applyAll_wr]
    exact ends_write_bits rf err List.mem_cons_self v
  | modify r mask value =>
    refine (ends_read_bits rf err [r] r).bind fun old => ?_
    rintro s ⟨hs, hold⟩
    have hbits : applyAll live [.modify r mask value] m = onWrite live r (modified old mask value) m :=
      (onWrite_modified hold).symm
    rw [hbits]
    exact ends_write_bits rf err List.mem_cons_self _ s hs
  | change r mask value =>
    refine (ends_read_bits rf err [r] r).bind fun old => ?_
    rintro s ⟨hs, hold⟩
    by_cases hsame : old = modified old mask value
    · refine Ends.when (fun h => absurd hsame h) (fun _ t ht => ?_) s hs
      rwa [applyAll_unchanged hold hsame]
    · refine Ends.when (fun _ => ?_) (fun h => absurd hsame h) s hs
      rw [← onWrite_modified hold]
      exact ends_write_bits rf err List.mem_cons_self _
  | change2 lo hi mask value =>
    refine (ends_read_bits rf err [lo, hi] lo).bind fun l => ?_
    rintro s ⟨hs, hl⟩
    refine ((ends_read_bits rf err [lo, hi] hi).bind fun h => ?_) s hs
    rintro s ⟨hs, hh⟩
    by_cases hsame : h ++ l = modified (h ++ l) mask value
    · refine Ends.when (fun hne => absurd hsame hne) (fun _ t ht => ?_) s hs
      rwa [applyAll_unchanged2 hl hh hsame]
    · refine Ends.when (fun _ => ?_) (fun hne => absurd hsame hne) s hs
      rw [← onWrite_modified2 hl hh]
      refine (ends_write_bits rf err (List.mem_cons_of_mem _ List.mem_cons_self) _).bind fun _ => ?_
      have hlo : lo ∈ [lo, hi] := List.mem_cons_self
      refine (ends_write_bits rf err hlo _).weaken (fun _ _ h => h) ?_
      rintro t ⟨hno, m', hm, hq⟩
      refine ⟨hno, m', hm, fun q hn => (hq q hn).trans (onWrite_of_ne _ fun he => hn ?_)⟩
      simp [he]

/-- The registers that a sequence may write. -/
def writesOf (as : List (Access Reg w)) : List Reg := as.flatMap Access.writes

omit [DecidableEq Reg] in
theorem mem_writesOf_append {as bs : List (Access Reg w)} {q : Reg} :
    q ∈ writesOf (as ++ bs) ↔ q ∈ writesOf as ∨ q ∈ writesOf bs := by
  rw [writesOf, List.flatMap_append, List.mem_append]
  rfl

theorem applyAll_frame {as : List (Access Reg w)} {q : Reg} (h : q ∉ writesOf as) : applyAll live as m q = m q := by
  funext b
  exact applyAll_of_not_mem fun a ha hq => h (List.mem_flatMap.mpr ⟨a, ha, hq⟩)

/-- **Sequences.** -/
theorem ends_runAll (as : List (Access Reg w)) : Ends (Sees rf h₀ c m) (runAll rf.toBus err as)
    (fun _ => Sees rf h₀ c (applyAll live as m)) (Broken rf (writesOf as) h₀ c m) := by
  induction as generalizing m with
  | nil =>
    rw [applyAll_nil]
    exact Ends.pure fun _ h => h
  | cons a as ih =>
    rw [applyAll_cons]
    refine ((ends_run rf err a).weaken (fun _ _ h => h) fun s h => h.mono ?_).bind fun _ => ?_
    · exact fun q hq => List.mem_append_left _ hq
    · refine (ih (m := applyAll live [a] m)).weaken (fun _ _ h => h) ?_
      rintro s ⟨hno, m', hm, hq⟩
      refine ⟨hno, m', hm, fun q hn => ?_⟩
      rw [writesOf, List.flatMap_cons, List.mem_append, not_or] at hn
      rw [hq q hn.2, applyAll_frame (by simpa [writesOf] using hn.1)]

/-- The bits after a sequence that has returned. -/
theorem view_of_ok {as : List (Access Reg w)} {s s' : Dev C H} (hok : runAll rf.toBus err as s = .ok () s') :
    rf.view s'.hw = applyAll live as (rf.view s.hw) :=
  ((ends_runAll rf err as).ok (sees_start rf s) hok).2.2

end Ends

/-! ## Some of the registers -/

section On

variable {live : Reg → Fin w → Bool} (rf : BitBus Reg w live H) (err : Int → ε) {S : List Reg} {h₀ : H} {c : C}
  {m m' : Bits Reg w} {E : Dev C H → Prop}

/-- The driver's data and the bits of the registers `S`, after accesses from `h₀` on. -/
def SeesOn (S : List Reg) (h₀ : H) (c : C) (m : Bits Reg w) (s : Dev C H) : Prop :=
  ∃ m', Sees rf h₀ c m' s ∧ ∀ q ∈ S, m' q = m q

theorem seesOn_start (S : List Reg) (s : Dev C H) : SeesOn rf S s.hw s.conf (rf.view s.hw) s :=
  ⟨_, sees_start rf s, fun _ _ => rfl⟩

variable {rf} in
theorem SeesOn.congr {s : Dev C H} (h : SeesOn rf S h₀ c m s) (hm : ∀ q ∈ S, m q = m' q) : SeesOn rf S h₀ c m' s := by
  obtain ⟨m₁, hs, hq⟩ := h
  exact ⟨m₁, hs, fun q hS => (hq q hS).trans (hm q hS)⟩

variable {rf} in
theorem SeesOn.view {s : Dev C H} (h : SeesOn rf S h₀ c m s) : s.conf = c ∧ ∀ q ∈ S, rf.view s.hw q = m q := by
  obtain ⟨m₁, ⟨hc, -, rfl⟩, hq⟩ := h
  exact ⟨hc, hq⟩

theorem ends_getConf_on {β : Type} {f : C → EStateM ε (Dev C H) β} {R : β → Dev C H → Prop}
    (hf : Ends (SeesOn rf S h₀ c m) (f c) R E) : Ends (SeesOn rf S h₀ c m) (getConf >>= f) R E :=
  ends_getConf_bind (fun _ h => h.choose_spec.1.1) hf

theorem ends_modifyConf_on (f : C → C) :
    Ends (SeesOn rf S h₀ c m) (modifyConf f : EStateM ε (Dev C H) PUnit) (fun _ => SeesOn rf S h₀ (f c) m) E := by
  rintro s ⟨m₁, hs, hq⟩
  exact ((ends_modifyConf_sees rf f).weaken (fun _ t ht => ⟨m₁, ht, hq⟩) fun _ h => h) s hs

/-- What is known of all registers, of some of them. -/
theorem Ends.seesOn {x : EStateM ε (Dev C H) Unit} {c' : C} {as : List (Access Reg w)}
    (hx : ∀ m, Ends (Sees rf h₀ c m) x (fun _ => Sees rf h₀ c' (applyAll live as m)) E) :
    Ends (SeesOn rf S h₀ c m) x (fun _ => SeesOn rf S h₀ c' (applyAll live as m)) E := by
  rintro s ⟨m₁, hs, hq⟩
  refine ((hx m₁).weaken (fun _ t ht => ⟨_, ht, fun q hS => ?_⟩) fun _ h => h) s hs
  funext b
  simp [applyAll, hq q hS]

variable (hs : rf.Sound h₀)

include hs

theorem ends_runAll_sound (as : List (Access Reg w)) :
    Ends (Sees rf h₀ c m) (runAll rf.toBus err as) (fun _ => Sees rf h₀ c (applyAll live as m)) E :=
  (ends_runAll rf err as).weaken (fun _ _ h => h) fun _ h => absurd hs h.1

theorem ends_tryAll_sound (as : List (Access Reg w)) :
    Ends (Sees rf h₀ c m) (tryAll rf.toBus err as) (fun _ => Sees rf h₀ c (applyAll live as m)) E := by
  induction as generalizing m with
  | nil =>
    rw [applyAll_nil]
    exact Ends.pure fun _ h => h
  | cons a as ih =>
    rw [applyAll_cons]
    refine (ends_run rf err a).attempt.bind fun o => ?_
    rintro s (⟨u, -, ht⟩ | ⟨-, hno, -⟩)
    · exact ih s ht
    · exact absurd hs hno

theorem ends_runAll_on (as : List (Access Reg w)) :
    Ends (SeesOn rf S h₀ c m) (runAll rf.toBus err as) (fun _ => SeesOn rf S h₀ c (applyAll live as m)) E :=
  Ends.seesOn rf fun _ => ends_runAll_sound rf err hs as

theorem ends_tryAll_on (as : List (Access Reg w)) :
    Ends (SeesOn rf S h₀ c m) (tryAll rf.toBus err as) (fun _ => SeesOn rf S h₀ c (applyAll live as m)) E :=
  Ends.seesOn rf fun _ => ends_tryAll_sound rf err hs as

/-- A sequence that writes none of the registers. -/
theorem ends_runAll_off {as : List (Access Reg w)} (h : ∀ q ∈ S, q ∉ writesOf as) :
    Ends (SeesOn rf S h₀ c m) (runAll rf.toBus err as) (fun _ => SeesOn rf S h₀ c m) E :=
  (ends_runAll_on rf err hs as).weaken (fun _ _ ht => ht.congr fun q hq => applyAll_frame (h q hq)) fun _ h => h

end On

/-! ## Registers as a sequence leaves them -/

/-- The sequence would change none of these registers. -/
def Settled (live : Reg → Fin w → Bool) (R : List Reg) (as : List (Access Reg w)) (m : Bits Reg w) : Prop :=
  ∀ q ∈ R, applyAll live as m q = m q

section Settled

variable {live : Reg → Fin w → Bool} {R R' : List Reg} {as bs cs : List (Access Reg w)} {m m' : Bits Reg w} {q : Reg}

/-- What a sequence makes of a register depends on this register alone. -/
theorem applyAll_congr (h : m q = m' q) : applyAll live as m q = applyAll live as m' q := by
  funext b
  simp only [applyAll, h]

theorem applyAll_idem : applyAll live as (applyAll live as m) = applyAll live as m := by
  funext q b
  cases hl : live q b with
  | true => simp [applyAll, hl]
  | false => cases hv : lastBit as q b <;> simp [applyAll, hl, hv]

/-- A part of a sequence that does not write the register. -/
theorem applyAll_append_right (h : q ∉ writesOf as) : applyAll live (as ++ bs) m q = applyAll live bs m q := by
  rw [applyAll_append]
  exact applyAll_congr (applyAll_frame h)

theorem applyAll_append_left (h : q ∉ writesOf bs) : applyAll live (as ++ bs) m q = applyAll live as m q := by
  rw [applyAll_append, applyAll_frame h]

theorem applyAll_append_middle (h : q ∉ writesOf bs) :
    applyAll live (as ++ (bs ++ cs)) m q = applyAll live (as ++ cs) m q := by
  rw [applyAll_append, applyAll_append_right h, applyAll_append]

theorem settled_applyAll (live : Reg → Fin w → Bool) (R : List Reg) (as : List (Access Reg w)) (m : Bits Reg w) :
    Settled live R as (applyAll live as m) := fun q _ => by rw [applyAll_idem]

theorem Settled.congr (h : Settled live R as m) (hm : ∀ q ∈ R, m' q = m q) : Settled live R as m' := fun q hq => by
  rw [applyAll_congr (hm q hq), h q hq, hm q hq]

/-- Sequences that make the same of the registers. -/
theorem Settled.of_eq (h : Settled live R as m) (has : ∀ q ∈ R, ∀ m, applyAll live bs m q = applyAll live as m q) :
    Settled live R bs m := fun q hq => by rw [has q hq, h q hq]

theorem settled_append : Settled live (R ++ R') as m ↔ Settled live R as m ∧ Settled live R' as m := by
  simp only [Settled, List.mem_append, or_imp, forall_and]

/-- A bit that the sequence determines. -/
theorem Settled.bit (h : Settled live R as m) (hq : q ∈ R) {b : Fin w} {v : Bool} (hl : live q b = false)
    (hv : lastBit as q b = some v) : m q b = v := by
  rw [← h q hq]
  exact applyAll_of_lastBit hl hv

end Settled

end RegScript
