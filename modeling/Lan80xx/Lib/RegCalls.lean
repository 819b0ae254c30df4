import Lan80xx.Lib.RegWords

/-!
# Calls on registers whose accesses succeed

A driver that does not look at the result of its accesses is a state transformer over its data and the words of the
registers. Words are looked at bit by bit: a masked write sets the bits under its mask and leaves all others
(`bit_writeMasked`), so the bits after a call come out by rewriting.

- `Keeps`, `KeepsBits`, `KeepsData`, `KeepsView`: a call leaves some registers, some bits, the data or a part of them
  alone, with a rule for each way to build a call.
-/

namespace RegCalls

variable {Reg : Type} {w : Nat} {C α β : Type}

/-- The words of the registers and the driver's data. -/
structure State (Reg : Type) (w : Nat) (C : Type) where
  words : Reg → BitVec w
  data : C

abbrev Call (Reg : Type) (w : Nat) (C α : Type) := StateM (State Reg w C) α

/-- The state after a call. -/
def after (x : Call Reg w C α) (s : State Reg w C) : State Reg w C := (x s).2

/-- The result of a call. -/
def result (x : Call Reg w C α) (s : State Reg w C) : α := (x s).1

def State.bit (s : State Reg w C) (r : Reg) (b : Nat) : Bool := (s.words r).getLsbD b

@[ext]
theorem State.ext_of {s t : State Reg w C} (hw : s.words = t.words) (hd : s.data = t.data) : s = t := by
  cases s
  cases t
  simp_all

/-! ## Accesses -/

def read (r : Reg) : Call Reg w C (BitVec w) := fun s => (s.words r, s)

def getData : Call Reg w C C := fun s => (s.data, s)

def modifyData (f : C → C) : Call Reg w C Unit := fun s => ((), { s with data := f s.data })

def when (c : Bool) (x : Call Reg w C Unit) : Call Reg w C Unit := if c then x else pure ()

section Writes

variable [DecidableEq Reg]

def writeMasked (r : Reg) (value mask : BitVec w) : Call Reg w C Unit := fun s =>
  ((), { s with words := Function.update s.words r (RegBus.merge (s.words r) value mask) })

def write (r : Reg) (value : BitVec w) : Call Reg w C Unit := fun s =>
  ((), { s with words := Function.update s.words r value })

/-- Write a list of registers, in this order. -/
def writeAll : List (Reg × BitVec w) → Call Reg w C Unit
  | [] => pure ()
  | p :: ps => do
    write p.1 p.2
    writeAll ps

end Writes

/-! ## The state after a call -/

@[simp]
theorem after_pure (a : α) (s : State Reg w C) : after (pure a) s = s := rfl

@[simp]
theorem after_bind (x : Call Reg w C α) (f : α → Call Reg w C β) (s : State Reg w C) :
    after (x >>= f) s = after (f (result x s)) (after x s) := rfl

@[simp]
theorem result_pure (a : α) (s : State Reg w C) : result (pure a) s = a := rfl

@[simp]
theorem result_bind (x : Call Reg w C α) (f : α → Call Reg w C β) (s : State Reg w C) :
    result (x >>= f) s = result (f (result x s)) (after x s) := rfl

@[simp]
theorem after_map (f : α → β) (x : Call Reg w C α) (s : State Reg w C) : after (f <$> x) s = after x s := rfl

@[simp]
theorem result_map (f : α → β) (x : Call Reg w C α) (s : State Reg w C) : result (f <$> x) s = f (result x s) := rfl

theorem after_ite (c : Prop) [Decidable c] (x y : Call Reg w C α) (s : State Reg w C) :
    after (if c then x else y) s = if c then after x s else after y s := by
  split <;> rfl

theorem result_ite (c : Prop) [Decidable c] (x y : Call Reg w C α) (s : State Reg w C) :
    result (if c then x else y) s = if c then result x s else result y s := by
  split <;> rfl

theorem after_when (c : Bool) (x : Call Reg w C Unit) (s : State Reg w C) :
    after (when c x) s = if c then after x s else s := by
  cases c <;> rfl

@[simp]
theorem after_read (r : Reg) (s : State Reg w C) : after (read r) s = s := rfl

@[simp]
theorem result_read (r : Reg) (s : State Reg w C) : result (read r) s = s.words r := rfl

@[simp]
theorem after_getData (s : State Reg w C) : after getData s = s := rfl

@[simp]
theorem result_getData (s : State Reg w C) : result getData s = s.data := rfl

@[simp]
theorem data_modifyData (f : C → C) (s : State Reg w C) : (after (modifyData f) s).data = f s.data := rfl

@[simp]
theorem words_modifyData (f : C → C) (s : State Reg w C) : (after (modifyData f) s).words = s.words := rfl

@[simp]
theorem bit_modifyData (f : C → C) (s : State Reg w C) (r : Reg) (b : Nat) :
    (after (modifyData f) s).bit r b = s.bit r b := rfl

@[simp]
theorem State.data_ite (c : Prop) [Decidable c] (s t : State Reg w C) :
    (if c then s else t).data = if c then s.data else t.data := by
  split <;> rfl

theorem State.bit_ite (c : Prop) [Decidable c] (s t : State Reg w C) (r : Reg) (b : Nat) :
    (if c then s else t).bit r b = if c then s.bit r b else t.bit r b := by
  split <;> rfl

/-! ## Writes -/

section Writes

variable [DecidableEq Reg]

@[simp]
theorem data_writeMasked (r : Reg) (value mask : BitVec w) (s : State Reg w C) :
    (after (writeMasked r value mask) s).data = s.data := rfl

@[simp]
theorem data_write (r : Reg) (value : BitVec w) (s : State Reg w C) : (after (write r value) s).data = s.data := rfl

@[simp]
theorem words_write_self (r : Reg) (value : BitVec w) (s : State Reg w C) :
    (after (write r value) s).words r = value := Function.update_self ..

theorem getLsbD_merge (old value mask : BitVec w) (b : Nat) :
    (RegBus.merge old value mask).getLsbD b = if mask.getLsbD b then value.getLsbD b else old.getLsbD b := by
  by_cases hb : b < w
  · simp only [RegBus.merge, BitVec.getLsbD_or, BitVec.getLsbD_and, BitVec.getLsbD_not, hb, decide_true, Bool.true_and]
    cases mask.getLsbD b <;> simp
  · simp [BitVec.getLsbD_of_ge _ _ (Nat.le_of_not_lt hb)]

theorem bit_writeMasked (r r' : Reg) (value mask : BitVec w) (b : Nat) (s : State Reg w C) :
    (after (writeMasked r value mask) s).bit r' b =
      if r' = r ∧ mask.getLsbD b = true then value.getLsbD b else s.bit r' b := by
  by_cases hr : r' = r
  · subst hr
    simp [after, writeMasked, State.bit, getLsbD_merge]
  · simp [after, writeMasked, State.bit, hr]

theorem bit_write (r r' : Reg) (value : BitVec w) (b : Nat) (s : State Reg w C) :
    (after (write r value) s).bit r' b = if r' = r then value.getLsbD b else s.bit r' b := by
  by_cases hr : r' = r
  · subst hr
    simp [after, write, State.bit]
  · simp [after, write, State.bit, hr]

end Writes

/-! ## Calls that leave registers or the data alone -/

/-- The call leaves the registers of `P` alone. -/
def Keeps (P : Reg → Prop) (x : Call Reg w C α) : Prop := ∀ s r, P r → (after x s).words r = s.words r

/-- The call leaves the bits of `Q` alone. -/
def KeepsBits (Q : Reg → Nat → Prop) (x : Call Reg w C α) : Prop :=
  ∀ s r b, Q r b → (after x s).bit r b = s.bit r b

/-- The call leaves the data alone. -/
def KeepsData (x : Call Reg w C α) : Prop := ∀ s, (after x s).data = s.data

/-- The call leaves a part of the data alone. -/
def KeepsView {γ : Type} (v : C → γ) (x : Call Reg w C α) : Prop := ∀ s, v (after x s).data = v s.data

section Keeps

variable {P : Reg → Prop} {x y : Call Reg w C α} {f : α → Call Reg w C β} {c : Prop} [Decidable c]

theorem Keeps.bit (hx : Keeps P x) (s : State Reg w C) {r : Reg} (hr : P r) (b : Nat) :
    (after x s).bit r b = s.bit r b := by
  rw [State.bit, hx s r hr, State.bit]

theorem Keeps.mono {Q : Reg → Prop} (hx : Keeps P x) (h : ∀ r, Q r → P r) : Keeps Q x := fun s r hr => hx s r (h r hr)

theorem Keeps.pure (a : α) : Keeps P (Pure.pure a : Call Reg w C α) := fun _ _ _ => rfl

theorem Keeps.bind (hx : Keeps P x) (hf : ∀ a, Keeps P (f a)) : Keeps P (x >>= f) := fun s r hr => by
  rw [after_bind, hf _ _ r hr, hx s r hr]

theorem Keeps.ite (hx : c → Keeps P x) (hy : ¬c → Keeps P y) : Keeps P (if c then x else y) := by
  split
  · exact hx ‹_›
  · exact hy ‹_›

theorem Keeps.when {c : Bool} {x : Call Reg w C Unit} (hx : c = true → Keeps P x) : Keeps P (when c x) :=
  .ite hx fun _ => .pure _

theorem Keeps.read (r : Reg) : Keeps P (read r : Call Reg w C (BitVec w)) := fun _ _ _ => rfl

theorem Keeps.getData : Keeps P (getData : Call Reg w C C) := fun _ _ _ => rfl

theorem Keeps.modifyData (g : C → C) : Keeps P (modifyData g : Call Reg w C Unit) := fun _ _ _ => rfl

section Bits

variable {Q : Reg → Nat → Prop}

theorem Keeps.keepsBits (hx : Keeps P x) (h : ∀ r b, Q r b → P r) : KeepsBits Q x := fun s r b hr => hx.bit s (h r b hr) b

theorem KeepsBits.pure (a : α) : KeepsBits Q (Pure.pure a : Call Reg w C α) := fun _ _ _ _ => rfl

theorem KeepsBits.bind (hx : KeepsBits Q x) (hf : ∀ a, KeepsBits Q (f a)) : KeepsBits Q (x >>= f) := fun s r b hr => by
  rw [after_bind, hf _ _ r b hr, hx s r b hr]

theorem KeepsBits.ite (hx : c → KeepsBits Q x) (hy : ¬c → KeepsBits Q y) : KeepsBits Q (if c then x else y) := by
  split
  · exact hx ‹_›
  · exact hy ‹_›

theorem KeepsBits.when {c : Bool} {x : Call Reg w C Unit} (hx : c = true → KeepsBits Q x) :
    KeepsBits Q (when c x) :=
  .ite hx fun _ => .pure _

theorem KeepsBits.read (r : Reg) : KeepsBits Q (read r : Call Reg w C (BitVec w)) := fun _ _ _ _ => rfl

theorem KeepsBits.getData : KeepsBits Q (getData : Call Reg w C C) := fun _ _ _ _ => rfl

theorem KeepsBits.modifyData (g : C → C) : KeepsBits Q (modifyData g : Call Reg w C Unit) := fun _ _ _ _ => rfl

theorem KeepsBits.writeMasked [DecidableEq Reg] {r : Reg} {mask : BitVec w}
    (h : ∀ b, Q r b → mask.getLsbD b = false) (value : BitVec w) :
    KeepsBits Q (writeMasked r value mask : Call Reg w C Unit) := by
  intro s r' b hb
  refine (bit_writeMasked r r' value mask b s).trans (if_neg ?_)
  rintro ⟨rfl, hm⟩
  rw [h b hb] at hm
  cases hm

end Bits

theorem KeepsData.pure (a : α) : KeepsData (Pure.pure a : Call Reg w C α) := fun _ => rfl

theorem KeepsData.bind (hx : KeepsData x) (hf : ∀ a, KeepsData (f a)) : KeepsData (x >>= f) := fun s => by
  rw [after_bind, hf _ _, hx s]

theorem KeepsData.ite (hx : c → KeepsData x) (hy : ¬c → KeepsData y) : KeepsData (if c then x else y) := by
  split
  · exact hx ‹_›
  · exact hy ‹_›

theorem KeepsData.when {c : Bool} {x : Call Reg w C Unit} (hx : c = true → KeepsData x) : KeepsData (when c x) :=
  .ite hx fun _ => .pure _

theorem KeepsData.read (r : Reg) : KeepsData (read r : Call Reg w C (BitVec w)) := fun _ => rfl

theorem KeepsData.getData : KeepsData (getData : Call Reg w C C) := fun _ => rfl

section View

variable {γ : Type} {v : C → γ}

theorem KeepsData.view (hx : KeepsData x) : KeepsView v x := fun s => by rw [hx s]

theorem KeepsView.bind (hx : KeepsView v x) (hf : ∀ a, KeepsView v (f a)) : KeepsView v (x >>= f) := fun s => by
  rw [after_bind, hf _ _, hx s]

theorem KeepsView.when {c : Bool} {x : Call Reg w C Unit} (hx : c = true → KeepsView v x) : KeepsView v (when c x) := by
  cases c with
  | true => exact hx rfl
  | false => exact fun _ => rfl

theorem KeepsView.modifyData {g : C → C} (h : ∀ d, v (g d) = v d) : KeepsView v (modifyData g : Call Reg w C Unit) :=
  fun s => h s.data

end View

variable [DecidableEq Reg]

theorem Keeps.writeMasked {r : Reg} (hr : ¬P r) (value mask : BitVec w) :
    Keeps P (writeMasked r value mask : Call Reg w C Unit) := by
  refine fun s r' hr' => Function.update_of_ne ?_ _ _
  rintro rfl
  exact hr hr'

theorem Keeps.write {r : Reg} (hr : ¬P r) (value : BitVec w) : Keeps P (write r value : Call Reg w C Unit) := by
  refine fun s r' hr' => Function.update_of_ne ?_ _ _
  rintro rfl
  exact hr hr'

theorem Keeps.writeAll {ps : List (Reg × BitVec w)} (h : ∀ p ∈ ps, ¬P p.1) :
    Keeps P (writeAll ps : Call Reg w C Unit) := by
  induction ps with
  | nil => exact .pure _
  | cons p ps ih => exact .bind (.write (h p (by simp)) _) fun _ => ih fun q hq => h q (by simp [hq])

theorem KeepsData.writeMasked (r : Reg) (value mask : BitVec w) :
    KeepsData (writeMasked r value mask : Call Reg w C Unit) := fun _ => rfl

theorem KeepsData.write (r : Reg) (value : BitVec w) : KeepsData (write r value : Call Reg w C Unit) := fun _ => rfl

theorem KeepsData.writeAll (ps : List (Reg × BitVec w)) : KeepsData (writeAll ps : Call Reg w C Unit) := by
  induction ps with
  | nil => exact .pure _
  | cons p ps ih => exact .bind (.write _ _) fun _ => ih

end Keeps

end RegCalls
