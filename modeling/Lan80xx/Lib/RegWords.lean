import Lan80xx.Lib.RegBus

/-!
# The words of a storage, and masked writes to them

`Holds` says which words the registers of a `RegFile` hold. A write or a read-modify-write changes one of them by a
`Patch`. Two patches are `Apart` when they touch no common bit; a patch keeps what those apart from it have written
(`patch_keeps`), and a list of patches, apart from each other, leaves every one of them in place (`patch_in`).
-/

namespace RegBus

open Fallible

variable {Reg : Type} {w : Nat}

/-- A property of the elements of a list, from an evaluation over the list. -/
theorem forall_mem_of_all {α : Type} {p : α → Prop} [DecidablePred p] {l : List α} (h : l.all (decide <| p ·) = true) :
    ∀ a ∈ l, p a := fun a ha => of_decide_eq_true (List.all_eq_true.mp h a ha)

/-! ## Patches -/

/-- Replace the bits under `mask` of one register. -/
structure Patch (Reg : Type) (w : Nat) where
  reg : Reg
  value : BitVec w
  mask : BitVec w

variable {m : Reg → BitVec w} {p q : Patch Reg w} {ps : List (Patch Reg w)}

/-- The bits of the patch are in the words. -/
def Patch.In (p : Patch Reg w) (m : Reg → BitVec w) : Prop := m p.reg &&& p.mask = p.value &&& p.mask

instance (p : Patch Reg w) (m : Reg → BitVec w) : Decidable (p.In m) :=
  inferInstanceAs (Decidable (m p.reg &&& p.mask = p.value &&& p.mask))

/-- The patches have no bit in common. -/
def Patch.Apart (p q : Patch Reg w) : Prop := p.reg = q.reg → p.mask &&& q.mask = 0#w

theorem Patch.Apart.symm (h : p.Apart q) : q.Apart p := fun hr => by
  rw [BitVec.and_comm]
  exact h hr.symm

theorem Patch.apart_of_ne (h : p.reg ≠ q.reg) : p.Apart q := fun hr => absurd hr h

theorem merge_and_self (old value mask : BitVec w) : merge old value mask &&& mask = value &&& mask := by
  ext b hb
  simp only [merge, BitVec.getElem_and, BitVec.getElem_or, BitVec.getElem_not]
  cases mask[b] <;> simp

theorem merge_and_apart (old value : BitVec w) {mask mask' : BitVec w} (h : mask &&& mask' = 0#w) :
    merge old value mask &&& mask' = old &&& mask' := by
  ext b hb
  have hbit : (mask &&& mask')[b] = false := by rw [h, BitVec.getElem_zero]
  simp only [merge, BitVec.getElem_and, BitVec.getElem_or, BitVec.getElem_not] at hbit ⊢
  cases hm : mask[b] <;> cases hm' : mask'[b] <;> simp_all

/-- The bits inside the mask, as far as `mask'` looks at them. -/
theorem merge_and_within (old value : BitVec w) {mask mask' : BitVec w} (h : mask' &&& mask = mask') :
    merge old value mask &&& mask' = value &&& mask' := by
  rw [← h, BitVec.and_comm mask' mask, ← BitVec.and_assoc, merge_and_self, BitVec.and_assoc]

/-- Setting and clearing bits are masked writes. -/
theorem or_eq_merge (old x : BitVec w) : old ||| x = merge old x x := by
  ext b hb
  simp only [merge, BitVec.getElem_and, BitVec.getElem_or, BitVec.getElem_not]
  cases old[b] <;> cases x[b] <;> rfl

theorem and_not_eq_merge (old x : BitVec w) : old &&& ~~~x = merge old 0#w x := by simp [merge]

theorem merge_merge (old v v' mask mask' : BitVec w) :
    merge (merge old v mask) v' mask' = merge old (merge v v' mask') (mask ||| mask') := by
  ext b hb
  simp only [merge, BitVec.getElem_and, BitVec.getElem_or, BitVec.getElem_not]
  cases old[b] <;> cases mask[b] <;> cases mask'[b] <;> cases v[b] <;> cases v'[b] <;> rfl

/-- A masked write of all bits is a write. -/
theorem merge_allOnes (old value : BitVec w) : merge old value (BitVec.allOnes w) = value := by
  simp [merge]

/-! ## Single bits -/

/-- Set or clear one bit of a register. -/
def bitPatch (r : Reg) (b : Nat) (v : Bool) : Patch Reg w := ⟨r, if v then 1#w <<< b else 0#w, 1#w <<< b⟩

theorem getLsbD_one_shiftLeft (b i : Nat) (hb : b < w) : (1#w <<< b).getLsbD i = decide (i = b) := by
  rw [BitVec.getLsbD_shiftLeft, BitVec.getLsbD_one]
  by_cases hi : i = b
  · subst hi
    simp [hb]
    omega
  · simp only [hi, decide_false]
    by_cases hlt : i < b
    · simp [hlt]
    · have hne : i - b ≠ 0 := by omega
      simp [hne]

theorem and_one_shiftLeft_eq_zero_iff (x : BitVec w) {b : Nat} (hb : b < w) :
    x &&& 1#w <<< b = 0#w ↔ x.getLsbD b = false := by
  constructor
  · intro h
    have hbit := congrArg (fun y => y.getLsbD b) h
    simpa [getLsbD_one_shiftLeft b b hb] using hbit
  · intro h
    apply BitVec.eq_of_getLsbD_eq
    intro i _
    rw [BitVec.getLsbD_and, getLsbD_one_shiftLeft b i hb, BitVec.getLsbD_zero]
    by_cases hi : i = b
    · rw [hi, h, Bool.false_and]
    · simp [hi]

theorem bitPatch_in (r : Reg) {b : Nat} (v : Bool) (hb : b < w) : (bitPatch r b v).In m ↔ (m r).getLsbD b = v := by
  constructor
  · intro h
    have hbit := congrArg (fun x => x.getLsbD b) h
    simp only [bitPatch, BitVec.getLsbD_and, getLsbD_one_shiftLeft b b hb, decide_true, Bool.and_true] at hbit
    rw [hbit]
    cases v <;> simp [getLsbD_one_shiftLeft b b hb]
  · intro h
    change m r &&& 1#w <<< b = (if v then 1#w <<< b else 0#w) &&& 1#w <<< b
    apply BitVec.eq_of_getLsbD_eq
    intro i _
    simp only [BitVec.getLsbD_and, getLsbD_one_shiftLeft b i hb]
    by_cases hi : i = b
    · subst hi
      cases v <;> simp [h, getLsbD_one_shiftLeft i i hb]
    · simp [hi]

/-! ## Words under patches -/

section Words

variable [DecidableEq Reg]

/-- The words after the patch. -/
def Patch.apply (m : Reg → BitVec w) (p : Patch Reg w) : Reg → BitVec w :=
  Function.update m p.reg (merge (m p.reg) p.value p.mask)

/-- The words after the patches, the first one first. -/
def patch (m : Reg → BitVec w) (ps : List (Patch Reg w)) : Reg → BitVec w := ps.foldl Patch.apply m

@[simp] theorem patch_nil (m : Reg → BitVec w) : patch m [] = m := rfl

@[simp] theorem patch_cons (m : Reg → BitVec w) (p : Patch Reg w) (ps : List (Patch Reg w)) :
    patch m (p :: ps) = patch (p.apply m) ps := rfl

theorem patch_append (m : Reg → BitVec w) (ps qs : List (Patch Reg w)) : patch m (ps ++ qs) = patch (patch m ps) qs :=
  List.foldl_append

theorem Patch.apply_in (m : Reg → BitVec w) (p : Patch Reg w) : p.In (p.apply m) := by
  simp [Patch.In, Patch.apply, merge_and_self]

theorem Patch.apply_and (h : p.Apart q) : p.apply m q.reg &&& q.mask = m q.reg &&& q.mask := by
  by_cases hr : q.reg = p.reg
  · have hold : p.apply m q.reg = merge (m q.reg) p.value p.mask := by simp [Patch.apply, hr]
    rw [hold, merge_and_apart _ _ (h hr.symm)]
  · simp [Patch.apply, hr]

/-- The bits of a register that none of the patches touches. -/
theorem patch_and (h : ∀ p ∈ ps, p.Apart q) : patch m ps q.reg &&& q.mask = m q.reg &&& q.mask := by
  induction ps generalizing m with
  | nil => rfl
  | cons p ps ih =>
    rw [patch_cons, ih fun p' hp' => h p' (List.mem_cons_of_mem p hp')]
    exact Patch.apply_and (h p List.mem_cons_self)

/-- Patches keep what is apart from all of them. -/
theorem patch_keeps (h : ∀ p ∈ ps, p.Apart q) : q.In (patch m ps) ↔ q.In m := by
  simp only [Patch.In, patch_and h]

/-- A patch that is in place already changes nothing. -/
theorem Patch.In.apply_eq (h : p.In m) : p.apply m = m := by
  have hword : merge (m p.reg) p.value p.mask = m p.reg := by
    apply BitVec.eq_of_getLsbD_eq
    intro i hi
    have hbit : ((m p.reg).getLsbD i && p.mask.getLsbD i) = (p.value.getLsbD i && p.mask.getLsbD i) := by
      rw [← BitVec.getLsbD_and, ← BitVec.getLsbD_and, h]
    simp only [merge, BitVec.getLsbD_or, BitVec.getLsbD_and, BitVec.getLsbD_not, hi, decide_true, Bool.true_and]
    cases hm : p.mask.getLsbD i <;> simp_all
  rw [Patch.apply, hword, Function.update_eq_self]

/-- A register keeps its word under patches that are in place there already. -/
theorem patch_eq_of_in {r : Reg} (h : ∀ p ∈ ps, p.reg = r → p.In m) : patch m ps r = m r := by
  induction ps generalizing m with
  | nil => rfl
  | cons p ps ih =>
    have hp : p.apply m r = m r := by
      by_cases hr : p.reg = r
      · rw [(h p List.mem_cons_self hr).apply_eq]
      · exact Function.update_of_ne (fun h => hr h.symm) _ _
    have hps : ∀ q ∈ ps, q.reg = r → q.In (p.apply m) := fun q hq hqr => by
      have hin := h q (List.mem_cons_of_mem p hq) hqr
      rw [Patch.In, hqr, hp, ← hqr]
      exact hin
    rw [patch_cons, ih hps, hp]

/-- Patches that are apart from each other are all in place at the end. -/
theorem patch_in (h : ps.Pairwise Patch.Apart) : ∀ p ∈ ps, p.In (patch m ps) := by
  induction ps generalizing m with
  | nil => intro p hp; cases hp
  | cons p ps ih =>
    obtain ⟨hp, hps⟩ := List.pairwise_cons.mp h
    intro q hq
    rcases List.mem_cons.mp hq with rfl | hq
    · exact (patch_keeps fun p' hp' => (hp p' hp').symm).mpr (Patch.apply_in m q)
    · exact ih hps q hq

end Words

/-! ## The words of a register file -/

section Holds

variable {H C ε : Type} {status live : Reg → Prop} (rf : RegFile Reg w H status live) (err : Int → ε) {h₀ : H} {c : C}

/-- The driver's data, and the words of the storage, after accesses from `h₀` on. -/
def Holds (h₀ : H) (c : C) (m : Reg → BitVec w) (s : Dev C H) : Prop :=
  s.conf = c ∧ Accessed rf.toBus h₀ s.hw ∧ ∀ q, ¬status q → rf.peek s.hw q = m q

theorem holds_start (s : Dev C H) : Holds rf s.hw s.conf (rf.peek s.hw) s := ⟨rfl, .refl, fun _ _ => rfl⟩

variable [DecidableEq Reg]

/-- A read-modify-write is a patch. -/
theorem ends_writeMasked_holds (r : Reg) (v mask : BitVec w) (hr : ¬status r) :
    Ends (Holds rf h₀ c m) (writeMasked rf.toBus err r v mask : EStateM ε (Dev C H) _)
      (fun _ => Holds rf h₀ c (Patch.apply m ⟨r, v, mask⟩)) fun _ => ¬rf.Sound h₀ := by
  refine Ends.bind (Q := fun old s => Holds rf h₀ c m s ∧ old = m r) ?_ fun old => ?_
  · refine ends_read_stored err rf (fun s hs => hs.2.1) ?_
    rintro s h' v ⟨hc, -, hm⟩ ha - hv hq
    exact ⟨⟨hc, ha, fun q hst => (hq q hst).trans (hm q hst)⟩, (hv hr).trans (hm r hr)⟩
  · refine ends_write_stored err rf (fun s hs => hs.1.2.1) ?_
    rintro s h' ⟨⟨hc, -, hm⟩, rfl⟩ ha hv hq
    refine ⟨hc, ha, fun q hst => ?_⟩
    by_cases hqr : q = r
    · subst hqr
      simp [Patch.apply, hv hst]
    · simp [Patch.apply, hqr, hq q hst hqr, hm q hst]

/-- A write is a patch of all bits. -/
theorem ends_write_holds (r : Reg) (v : BitVec w) :
    Ends (Holds rf h₀ c m) (write rf.toBus err r v : EStateM ε (Dev C H) _)
      (fun _ => Holds rf h₀ c (Patch.apply m ⟨r, v, BitVec.allOnes w⟩)) fun _ => ¬rf.Sound h₀ := by
  refine ends_write_stored err rf (fun s hs => hs.2.1) ?_
  rintro s h' ⟨hc, -, hm⟩ ha hv hq
  refine ⟨hc, ha, fun q hst => ?_⟩
  by_cases hqr : q = r
  · subst hqr
    simp [Patch.apply, hv hst, merge_allOnes]
  · simp [Patch.apply, hqr, hq q hst hqr, hm q hst]

omit [DecidableEq Reg] in
theorem ends_modifyConf_holds (f : C → C) {E : Dev C H → Prop} :
    Ends (Holds rf h₀ c m) (modifyConf f : EStateM ε (Dev C H) PUnit) (fun _ => Holds rf h₀ (f c) m) E := by
  apply ends_modifyConf_of
  rintro s ⟨hc, hrest⟩
  exact ⟨congrArg f hc, hrest⟩

end Holds

end RegBus
