import Lan80xx.Lib.RegWords

/-!
# Rules in register slots

A table of rules is held in registers. Each rule has a slot, and every bit belongs to one slot at most. A write to a slot
may be given up half-way, and the slot is then in doubt until it is written again.

- `Slots`: what is written to set a rule and to clear its slot, and which bits belong to a slot;
- `Slots.Shown`: the slots that are not in doubt show the rules of the table;
- `Shown.set`, `Shown.clear`, `Shown.broken`: what is shown after a slot has been written;
- `Slots.programmed`: the registers after the rules of a table have been set once, one after the other
  (`shown_programmed`).
-/

namespace RegBus

variable {Reg Id Rule : Type} {w : Nat}

/-- Every bit that the patch touches belongs to `id`. -/
def Patch.OwnedBy (owner : Reg → Nat → Option Id) (id : Id) (p : Patch Reg w) : Prop :=
  ∀ b, p.mask.getLsbD b = true → owner p.reg b = some id

/-- Patches that belong to different slots have no bit in common. -/
theorem Patch.OwnedBy.apart {owner : Reg → Nat → Option Id} {id id' : Id} {p q : Patch Reg w} (hp : p.OwnedBy owner id)
    (hq : q.OwnedBy owner id') (hne : id ≠ id') : p.Apart q := by
  intro hr
  apply BitVec.eq_of_getLsbD_eq
  intro b _
  rw [BitVec.getLsbD_and, BitVec.getLsbD_zero]
  by_contra hb
  obtain ⟨hb₁, hb₂⟩ : p.mask.getLsbD b = true ∧ q.mask.getLsbD b = true := by simpa using hb
  have howner := hp b hb₁
  rw [hr, hq b hb₂] at howner
  exact hne (Option.some.inj howner).symm

/-- Slots for rules, each in bits of its own. `fits` says which rules a slot can take. -/
structure Slots (Reg : Type) (w : Nat) (Id Rule : Type) where
  owner : Reg → Nat → Option Id
  fits : Id → Rule → Prop
  sets : Id → Rule → List (Patch Reg w)
  clears : Id → Rule → List (Patch Reg w)
  off : Id → List (Patch Reg w)
  sets_owned : ∀ {id f}, fits id f → ∀ p ∈ sets id f, p.OwnedBy owner id
  clears_owned : ∀ {id f}, fits id f → ∀ p ∈ clears id f, p.OwnedBy owner id
  off_owned : ∀ {id}, ∀ p ∈ off id, p.OwnedBy owner id
  sets_apart : ∀ {id f}, fits id f → (sets id f).Pairwise Patch.Apart
  clears_apart : ∀ {id f}, fits id f → (clears id f).Pairwise Patch.Apart
  clears_off : ∀ {id f}, fits id f → ∀ p ∈ off id, p ∈ clears id f
  off_zero : ∀ {id}, ∀ p ∈ off id, p.value &&& p.mask = 0#w

namespace Slots

variable (S : Slots Reg w Id Rule)

/-- The slots that are not in doubt show the rules of the table, and the slots without a rule are off. -/
structure Shown (R : Id → Option Rule) (D : Set Id) (m : Reg → BitVec w) : Prop where
  fits : ∀ id f, R id = some f → S.fits id f
  rule : ∀ id f, R id = some f → id ∉ D → ∀ p ∈ S.sets id f, p.In m
  off : ∀ id, R id = none → id ∉ D → ∀ p ∈ S.off id, p.In m

variable {S} [DecidableEq Reg] [DecidableEq Id] {R : Id → Option Rule} {D : Set Id} {m : Reg → BitVec w} {id : Id}
  {f : Rule} {ps : List (Patch Reg w)}

omit [DecidableEq Reg] in
theorem fits_update (h : ∀ j g, R j = some g → S.fits j g) {o : Option Rule} (ho : ∀ g, o = some g → S.fits id g) (j : Id)
    (g : Rule) (hg : Function.update R id o j = some g) : S.fits j g := by
  rw [Function.update_apply] at hg
  split at hg
  · next heq => exact heq ▸ ho g hg
  · exact h j g hg

omit [DecidableEq Id] in
/-- What is shown of the other slots after writes to one. -/
theorem Shown.others (h : S.Shown R D m) (hps : ∀ p ∈ ps, p.OwnedBy S.owner id) {j : Id} (hj : j ≠ id) (hD : j ∉ D) :
    (∀ g, R j = some g → ∀ p ∈ S.sets j g, p.In (patch m ps)) ∧ (R j = none → ∀ p ∈ S.off j, p.In (patch m ps)) := by
  constructor
  · intro g hg p hp
    have howned := S.sets_owned (h.fits j g hg) p hp
    exact (patch_keeps fun q hq => (hps q hq).apart howned hj.symm).mpr (h.rule j g hg hD p hp)
  · intro hg p hp
    exact (patch_keeps fun q hq => (hps q hq).apart (S.off_owned p hp) hj.symm).mpr (h.off j hg hD p hp)

/-- A slot that is written is no longer in doubt when it shows what the table has for it. -/
theorem Shown.written (h : S.Shown R D m) (hps : ∀ p ∈ ps, p.OwnedBy S.owner id) {o : Option Rule}
    (ho : ∀ g, o = some g → S.fits id g) (hrule : ∀ g, o = some g → ∀ p ∈ S.sets id g, p.In (patch m ps))
    (hoff : o = none → ∀ p ∈ S.off id, p.In (patch m ps)) :
    S.Shown (Function.update R id o) (D \ {id}) (patch m ps) where
  fits := fits_update h.fits ho
  rule j g hg hj := by
    rw [Function.update_apply] at hg
    split at hg
    · next heq => exact heq ▸ hrule g hg
    · next hne => exact (h.others hps hne fun hD => hj ⟨hD, hne⟩).1 g hg
  off j hg hj := by
    rw [Function.update_apply] at hg
    split at hg
    · next heq => exact heq ▸ hoff hg
    · next hne => exact (h.others hps hne fun hD => hj ⟨hD, hne⟩).2 hg

theorem Shown.set (h : S.Shown R D m) (hf : S.fits id f) :
    S.Shown (Function.update R id (some f)) (D \ {id}) (patch m (S.sets id f)) := by
  refine h.written (S.sets_owned hf) (fun g hg => ?_) (fun g hg => ?_) fun hno => by cases hno
  · cases hg
    exact hf
  · cases hg
    exact patch_in (S.sets_apart hf)

theorem Shown.clear (h : S.Shown R D m) (hf : S.fits id f) :
    S.Shown (Function.update R id none) (D \ {id}) (patch m (S.clears id f)) := by
  refine h.written (S.clears_owned hf) (fun g hg => by cases hg) (fun g hg => by cases hg) fun _ p hp => ?_
  exact patch_in (S.clears_apart hf) p (S.clears_off hf p hp)

/-- Writes to a slot that are given up leave it in doubt. -/
theorem Shown.broken (h : S.Shown R D m) (hps : ∀ p ∈ ps, p.OwnedBy S.owner id) {o : Option Rule}
    (ho : ∀ g, o = some g → S.fits id g) : S.Shown (Function.update R id o) (insert id D) (patch m ps) where
  fits := fits_update h.fits ho
  rule j g hg hj := by
    obtain ⟨hne, hD⟩ := not_or.mp hj
    rw [Function.update_of_ne hne] at hg
    exact (h.others hps hne hD).1 g hg
  off j hg hj := by
    obtain ⟨hne, hD⟩ := not_or.mp hj
    rw [Function.update_of_ne hne] at hg
    exact (h.others hps hne hD).2 hg

/-! ## A single programming -/

variable (S) in
/-- The patches that set the rules of a table. -/
def settings (ids : List Id) (R : Id → Option Rule) : List (Patch Reg w) :=
  ids.flatMap fun id => (R id).elim [] (S.sets id)

variable (S) in
/-- The registers after the rules of the table have been set, from registers that are all zero. -/
def programmed (ids : List Id) (R : Id → Option Rule) : Reg → BitVec w := patch (fun _ => 0#w) (S.settings ids R)

omit [DecidableEq Reg] [DecidableEq Id] in
theorem shown_zero : S.Shown (fun _ => none) ∅ fun _ => 0#w where
  fits id f hf := by cases hf
  rule id f hf := by cases hf
  off id _ _ p hp := by rw [Patch.In, BitVec.zero_and, S.off_zero p hp]

/-- The rules of a list of slots, set on top of those of another table. -/
theorem Shown.settings {R' : Id → Option Rule} {ids : List Id} (h : S.Shown R' ∅ m)
    (hR : ∀ id f, R id = some f → S.fits id f) :
    S.Shown (fun id => if id ∈ ids then (R id).or (R' id) else R' id) ∅ (patch m (S.settings ids R)) := by
  induction ids generalizing R' m with
  | nil => simpa [Slots.settings] using h
  | cons j ids ih =>
    rw [Slots.settings, List.flatMap_cons, patch_append]
    cases hj : R j with
    | none =>
      have hrest := ih h
      have heq : (fun id => if id ∈ j :: ids then (R id).or (R' id) else R' id) =
          fun id => if id ∈ ids then (R id).or (R' id) else R' id := by
        funext id
        by_cases hid : id = j
        · subst hid
          simp [hj]
        · simp [hid]
      rw [heq]
      exact hrest
    | some f =>
      have hset : S.Shown (Function.update R' j (some f)) ∅ (patch m (S.sets j f)) := by
        have hset := h.set (hR j f hj)
        rwa [Set.empty_sdiff] at hset
      have hrest := ih hset
      have heq : (fun id => if id ∈ j :: ids then (R id).or (R' id) else R' id) = fun id =>
          if id ∈ ids then (R id).or (Function.update R' j (some f) id) else Function.update R' j (some f) id := by
        funext id
        by_cases hid : id = j
        · subst hid
          simp [hj]
        · simp [hid]
      rw [heq]
      exact hrest

/-- **A single programming shows the table.** -/
theorem shown_programmed {ids : List Id} (hR : ∀ id f, R id = some f → S.fits id f ∧ id ∈ ids) :
    S.Shown R ∅ (S.programmed ids R) := by
  have h : S.Shown (fun id => if id ∈ ids then (R id).or none else none) ∅ (S.programmed ids R) :=
    shown_zero.settings fun id f hf => (hR id f hf).1
  have heq : (fun id => if id ∈ ids then (R id).or none else none) = R := by
    funext id
    split
    · simp
    · next hid =>
      cases hf : R id with
      | none => rfl
      | some f => exact absurd (hR id f hf).2 hid
  rwa [heq] at h

omit [DecidableEq Reg] [DecidableEq Id] in
/-- Where two register files show the same table, they agree on the bits of its rules. -/
theorem Shown.agree {D' : Set Id} {m' : Reg → BitVec w} (h : S.Shown R D m) (h' : S.Shown R D' m') (hf : R id = some f)
    (hD : id ∉ D) (hD' : id ∉ D') : ∀ p ∈ S.sets id f, m p.reg &&& p.mask = m' p.reg &&& p.mask := fun p hp =>
  (h.rule id f hf hD p hp).trans (h'.rule id f hf hD' p hp).symm

end Slots

end RegBus
