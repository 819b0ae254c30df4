import Lan80xx.Lib.Fallible
import Mathlib.Data.Set.Lattice

/-!
# Devices behind a register bus

A device is reached only through register reads and writes, each of which may fail. `Bus` is any such device; nothing
is said of what a register holds. `RegFile` adds the laws of plain storage for every register that is not a `status`
register. `Dev` pairs the driver's own data with the device.

A call that only accesses registers is described by the set of register bits it may change (`hwFrame`): the bits
outside that set are the same afterwards (`RegFile.frame_bit`), whichever accesses failed.
-/

namespace RegBus

open Fallible

/-! ## The bus -/

/-- A device with registers `Reg` of `w` bits: what an access answers, and the state it leaves. `drift` is what the
device does on its own between two calls of the driver. -/
structure Bus (Reg : Type) (w : Nat) (H : Type) where
  rd : Reg → H → Except Int (BitVec w) × H
  wr : Reg → BitVec w → H → Except Int Unit × H
  drift : H → H → Prop

variable {Reg : Type} {w : Nat} {H C ε α : Type}

/-- The registers are storage, except for the `status` registers, which the device changes by itself. A write that
fails may or may not have reached its register. Between two calls the device may also update its `live` registers. -/
structure RegFile (Reg : Type) (w : Nat) (H : Type) (status live : Reg → Prop) extends Bus Reg w H where
  peek : H → Reg → BitVec w
  peek_rd : ∀ r q h, ¬status q → peek (rd r h).2 q = peek h q
  rd_ok : ∀ r h v, ¬status r → (rd r h).1 = .ok v → v = peek h r
  peek_wr_ne : ∀ r q v h, ¬status q → q ≠ r → peek (wr r v h).2 q = peek h q
  peek_wr_ok : ∀ r v h, ¬status r → (wr r v h).1 = .ok () → peek (wr r v h).2 r = v
  peek_wr_error : ∀ r v h e, ¬status r → (wr r v h).1 = .error e →
    peek (wr r v h).2 r = peek h r ∨ peek (wr r v h).2 r = v
  peek_drift : ∀ h h' q, ¬status q → ¬live q → drift h h' → peek h' q = peek h q

/-! ## Accesses and the bits they may change -/

/-- A read-modify-write: `value` where `mask` is set, the old bits elsewhere. -/
def merge (old value mask : BitVec w) : BitVec w := (old &&& ~~~mask) ||| (value &&& mask)

theorem merge_getLsbD (old value mask : BitVec w) {b : Nat} (h : mask.getLsbD b = false) :
    (merge old value mask).getLsbD b = old.getLsbD b := by
  by_cases hb : b < w
  · simp only [merge, BitVec.getLsbD_or, BitVec.getLsbD_and, BitVec.getLsbD_not, h]
    simp [hb]
  · simp [BitVec.getLsbD_of_ge _ _ (Nat.le_of_not_lt hb)]

/-- One access that changes no bit outside `W`. -/
inductive HwStep (bus : Bus Reg w H) (W : Set (Reg × Nat)) : H → H → Prop
  | rd (r : Reg) (h : H) : HwStep bus W h (bus.rd r h).2
  | wr (r : Reg) (v : BitVec w) (h : H) : (∀ b < w, (r, b) ∈ W) → HwStep bus W h (bus.wr r v h).2
  | wrm (r : Reg) (old v mask : BitVec w) (h : H) : (bus.rd r h).1 = .ok old →
      (∀ b < w, mask.getLsbD b = true → (r, b) ∈ W) → HwStep bus W h (bus.wr r (merge old v mask) (bus.rd r h).2).2

/-- Any number of such accesses. -/
abbrev HwSteps (bus : Bus Reg w H) (W : Set (Reg × Nat)) : H → H → Prop :=
  Relation.ReflTransGen (HwStep bus W)

theorem HwStep.mono {bus : Bus Reg w H} {W W' : Set (Reg × Nat)} (hW : W ⊆ W') {h h' : H}
    (hs : HwStep bus W h h') : HwStep bus W' h h' := by
  cases hs with
  | rd r => exact .rd r h
  | wr r v _ hr => exact .wr r v h fun b hb => hW (hr b hb)
  | wrm r old v mask _ ho hr => exact .wrm r old v mask h ho fun b hb hm => hW (hr b hb hm)

theorem HwSteps.mono {bus : Bus Reg w H} {W W' : Set (Reg × Nat)} (hW : W ⊆ W') {h h' : H}
    (hs : HwSteps bus W h h') : HwSteps bus W' h h' :=
  Relation.ReflTransGen.mono (fun _ _ => HwStep.mono hW) _ _ hs

/-- A device that is nothing but storage: every access succeeds, and a write to a `status` register does nothing. -/
def storage [DecidableEq Reg] (status live : Reg → Prop) [DecidablePred status] :
    RegFile Reg w (Reg → BitVec w) status live where
  rd r h := (.ok (h r), h)
  wr r v h := (.ok (), fun q => if q = r ∧ ¬status r then v else h q)
  drift h h' := h' = h
  peek h r := h r
  peek_rd _ _ _ _ := rfl
  rd_ok _ _ _ _ h := by cases h; rfl
  peek_wr_ne _ _ _ _ _ hq := if_neg fun h => hq h.1
  peek_wr_ok _ _ _ hr _ := if_pos ⟨rfl, hr⟩
  peek_wr_error _ _ _ _ _ h := by cases h
  peek_drift _ _ _ _ _ h := by rw [h]

/-- The registers of a device of which more than the registers is seen. -/
def RegFile.beside {status live : Reg → Prop} (rf : RegFile Reg w H status live) (E : Type) :
    RegFile Reg w (H × E) status live where
  rd r h := ((rf.rd r h.1).1, (rf.rd r h.1).2, h.2)
  wr r v h := ((rf.wr r v h.1).1, (rf.wr r v h.1).2, h.2)
  drift h h' := rf.drift h.1 h'.1
  peek h := rf.peek h.1
  peek_rd r q h := rf.peek_rd r q h.1
  rd_ok r h := rf.rd_ok r h.1
  peek_wr_ne r q v h := rf.peek_wr_ne r q v h.1
  peek_wr_ok r v h := rf.peek_wr_ok r v h.1
  peek_wr_error r v h := rf.peek_wr_error r v h.1
  peek_drift h h' := rf.peek_drift h.1 h'.1

/-- Some of the registers of a device, under other names. -/
def Bus.comap {Reg' : Type} (bus : Bus Reg w H) (f : Reg' → Reg) : Bus Reg' w H where
  rd r := bus.rd (f r)
  wr r := bus.wr (f r)
  drift := bus.drift

/-- The device after reads of these registers, one after the other. -/
def Bus.afterReads (bus : Bus Reg w H) : List Reg → H → H
  | [], h => h
  | r :: rs, h => Bus.afterReads bus rs (bus.rd r h).2

/-- Reads of these registers, one after the other, all succeed. -/
def Bus.Answers (bus : Bus Reg w H) : List Reg → H → Prop
  | [], _ => True
  | r :: rs, h => (∃ v, (bus.rd r h).1 = .ok v) ∧ Bus.Answers bus rs (bus.rd r h).2

/-- Words written to registers, one after the other, until a write fails: whether none does, and the state left. -/
def Bus.writes (bus : Bus Reg w H) : List (Reg × BitVec w) → H → Bool × H
  | [], h => (true, h)
  | (r, v) :: rest, h =>
    match (bus.wr r v h).1 with
    | .ok _ => Bus.writes bus rest (bus.wr r v h).2
    | .error _ => (false, (bus.wr r v h).2)

theorem Bus.answers_append (bus : Bus Reg w H) (rs ts : List Reg) (h : H) :
    bus.Answers (rs ++ ts) h ↔ bus.Answers rs h ∧ bus.Answers ts (bus.afterReads rs h) := by
  induction rs generalizing h with
  | nil => simp [Bus.Answers, Bus.afterReads]
  | cons r rs ih => simp [Bus.Answers, Bus.afterReads, ih, and_assoc]

section Storage

variable {status live : Reg → Prop} (rf : RegFile Reg w H status live) {W : Set (Reg × Nat)} {h h' : H}

/-- A write, failed or not, leaves every bit that it writes back unchanged. -/
theorem RegFile.peek_wr_bit {r : Reg} {v : BitVec w} {b : Nat} (hr : ¬status r)
    (hv : v.getLsbD b = (rf.peek h r).getLsbD b) :
    (rf.peek (rf.wr r v h).2 r).getLsbD b = (rf.peek h r).getLsbD b := by
  cases hw : (rf.wr r v h).1 with
  | ok u => rw [rf.peek_wr_ok r v h hr hw, hv]
  | error e =>
    rcases rf.peek_wr_error r v h e hr hw with hp | hp
    · rw [hp]
    · rw [hp, hv]

theorem RegFile.step_bit (hs : HwStep rf.toBus W h h') {q : Reg} {b : Nat} (hq : ¬status q) (hb : b < w)
    (hW : (q, b) ∉ W) : (rf.peek h' q).getLsbD b = (rf.peek h q).getLsbD b := by
  cases hs with
  | rd r => rw [rf.peek_rd r q h hq]
  | wr r v _ hr =>
    by_cases hqr : q = r
    · subst hqr
      exact absurd (hr b hb) hW
    · rw [rf.peek_wr_ne r q v h hq hqr]
  | wrm r old v mask _ ho hr =>
    by_cases hqr : q = r
    · subst hqr
      have hm : mask.getLsbD b = false := by
        by_contra hm
        exact hW (hr b hb (by simpa using hm))
      have hold : old = rf.peek h q := rf.rd_ok q h old hq ho
      have hp := rf.peek_rd q q h hq
      rw [rf.peek_wr_bit hq, hp]
      rw [merge_getLsbD old v mask hm, hold, hp]
    · rw [rf.peek_wr_ne r q _ _ hq hqr, rf.peek_rd r q h hq]

/-- Accesses inside `W` leave every other bit of the storage alone. -/
theorem RegFile.frame_bit (hs : HwSteps rf.toBus W h h') {q : Reg} {b : Nat} (hq : ¬status q) (hb : b < w)
    (hW : (q, b) ∉ W) : (rf.peek h' q).getLsbD b = (rf.peek h q).getLsbD b := by
  induction hs with
  | refl => rfl
  | tail _ hst ih => rw [rf.step_bit hst hq hb hW, ih]

/-- Writes leave the rest of the device alone. -/
theorem RegFile.beside_writes {E : Type} (ps : List (Reg × BitVec w)) (h : H × E) :
    ((rf.beside E).writes ps h).2.2 = h.2 := by
  induction ps generalizing h with
  | nil => rfl
  | cons p ps ih =>
    rw [Bus.writes]
    split
    · exact ih _
    · rfl

theorem RegFile.peek_afterReads (rs : List Reg) (h : H) {q : Reg} (hq : ¬status q) :
    rf.peek (rf.afterReads rs h) q = rf.peek h q := by
  induction rs generalizing h with
  | nil => rfl
  | cons r rs ih => rw [Bus.afterReads, ih, rf.peek_rd r q h hq]

/-- The registers that are not written keep their words. -/
theorem RegFile.peek_writes_of_not_mem {ps : List (Reg × BitVec w)} {h : H} {q : Reg} (hq : ¬status q)
    (hn : ∀ p ∈ ps, q ≠ p.1) : rf.peek (rf.writes ps h).2 q = rf.peek h q := by
  induction ps generalizing h with
  | nil => rfl
  | cons p ps ih =>
    have hne : rf.peek (rf.wr p.1 p.2 h).2 q = rf.peek h q := rf.peek_wr_ne p.1 q p.2 h hq (hn p List.mem_cons_self)
    rw [Bus.writes]
    split
    · rw [ih fun p' hp' => hn p' (List.mem_cons_of_mem _ hp'), hne]
    · exact hne

/-- When every write is answered, a register written once holds its word. -/
theorem RegFile.peek_writes_of_mem {ps : List (Reg × BitVec w)} {h : H} {q : Reg} {v : BitVec w} (hq : ¬status q)
    (hd : (ps.map Prod.fst).Nodup) (hv : (q, v) ∈ ps) (hok : (rf.writes ps h).1 = true) :
    rf.peek (rf.writes ps h).2 q = v := by
  induction ps generalizing h with
  | nil => cases hv
  | cons p ps ih =>
    rw [List.map_cons, List.nodup_cons] at hd
    rw [Bus.writes] at hok ⊢
    split at hok
    · next hw =>
      rcases List.mem_cons.mp hv with rfl | hv
      · have hn : ∀ p ∈ ps, q ≠ p.1 := fun p hp heq => hd.1 (List.mem_map.mpr ⟨p, hp, heq.symm⟩)
        rw [rf.peek_writes_of_not_mem hq hn]
        exact rf.peek_wr_ok _ _ _ hq hw
      · exact ih hd.2 hv hok
    · cases hok

/-- A register none of whose bits is in `W` keeps its word. -/
theorem RegFile.frame_word (hs : HwSteps rf.toBus W h h') {q : Reg} (hq : ¬status q)
    (hW : ∀ b < w, (q, b) ∉ W) : rf.peek h' q = rf.peek h q := by
  apply BitVec.eq_of_getLsbD_eq
  intro b hb
  exact rf.frame_bit hs hq hb (hW b hb)

end Storage

/-! ## A bus that answers -/

/-- What any sequence of accesses can make of the device. -/
inductive Accessed (bus : Bus Reg w H) (h : H) : H → Prop
  | refl : Accessed bus h h
  | rd (r : Reg) (h' : H) : Accessed bus h h' → Accessed bus h (bus.rd r h').2
  | wr (r : Reg) (v : BitVec w) (h' : H) : Accessed bus h h' → Accessed bus h (bus.wr r v h').2

/-- From here on, whatever is accessed, no access fails. -/
def Bus.Sound (bus : Bus Reg w H) (h : H) : Prop :=
  ∀ h', Accessed bus h h' → (∀ r, ∃ v, (bus.rd r h').1 = .ok v) ∧ ∀ r v, (bus.wr r v h').1 = .ok ()

/-- The device after `n` reads of one register. -/
def Bus.rdN (bus : Bus Reg w H) (r : Reg) : Nat → H → H
  | 0, h => h
  | n + 1, h => Bus.rdN bus r n (bus.rd r h).2

theorem Accessed.trans {bus : Bus Reg w H} {h₁ h₂ h₃ : H} (h₁₂ : Accessed bus h₁ h₂)
    (h₂₃ : Accessed bus h₂ h₃) : Accessed bus h₁ h₃ := by
  induction h₂₃ with
  | refl => exact h₁₂
  | rd r h' _ ih => exact .rd r h' ih
  | wr r v h' _ ih => exact .wr r v h' ih

theorem Bus.Sound.of_accessed {bus : Bus Reg w H} {h h' : H} (hs : bus.Sound h) (ha : Accessed bus h h') : bus.Sound h' :=
  fun h'' ha' => hs h'' (ha.trans ha')

section Storage

variable {status live : Reg → Prop} [DecidableEq Reg] [DecidablePred status] {h h' : Reg → BitVec w}

theorem storage_sound : (storage (w := w) status live).Sound h := fun h' _ => ⟨fun r => ⟨h' r, rfl⟩, fun _ _ => rfl⟩

theorem storage_answers (rs : List Reg) : (storage (w := w) status live).Answers rs h := by
  induction rs generalizing h with
  | nil => trivial
  | cons r rs ih => exact ⟨⟨h r, rfl⟩, ih⟩

/-- A status register of the storage device never changes. -/
theorem Accessed.storage_status (ha : Accessed (storage (w := w) status live).toBus h h') {r : Reg} (hr : status r) :
    h' r = h r := by
  induction ha with
  | refl => rfl
  | rd q h' _ ih => exact ih
  | wr q v h' _ ih => exact (if_neg fun hq => hq.2 (hq.1 ▸ hr)).trans ih

end Storage

/-! ## The driver's side -/

/-- The driver's own data and the device it drives. -/
structure Dev (C H : Type) where
  conf : C
  hw : H

section Access

variable (bus : Bus Reg w H) (err : Int → ε)

/-- Read a register; an error of the bus ends the call. -/
def read (r : Reg) : EStateM ε (Dev C H) (BitVec w) := fun s =>
  match bus.rd r s.hw with
  | (.ok v, h) => .ok v { s with hw := h }
  | (.error e, h) => .error (err e) { s with hw := h }

/-- Write a register; an error of the bus ends the call. -/
def write (r : Reg) (v : BitVec w) : EStateM ε (Dev C H) Unit := fun s =>
  match bus.wr r v s.hw with
  | (.ok (), h) => .ok () { s with hw := h }
  | (.error e, h) => .error (err e) { s with hw := h }

/-- Read a register and write it back with the bits under `mask` replaced. -/
def writeMasked (r : Reg) (v mask : BitVec w) : EStateM ε (Dev C H) Unit := do
  let old ← read bus err r
  write bus err r (merge old v mask)

/-- The driver's data, read without touching the device. -/
def getConf : EStateM ε (Dev C H) C := do
  return (← get).conf

/-- An update of the driver's data alone. -/
def modifyConf (f : C → C) : EStateM ε (Dev C H) PUnit :=
  modify fun s => { s with conf := f s.conf }

/-- Register accesses that change no bit outside `W`, and leave the driver's data alone. -/
def hwFrame (W : Set (Reg × Nat)) : Frame (Dev C H) where
  rel s s' := s'.conf = s.conf ∧ HwSteps bus W s.hw s'.hw
  refl _ := ⟨rfl, .refl⟩
  trans h₁ h₂ := ⟨h₂.1.trans h₁.1, h₁.2.trans h₂.2⟩

theorem final_read (r : Reg) (s : Dev C H) :
    final (read bus err r : EStateM ε (Dev C H) _) s = { s with hw := (bus.rd r s.hw).2 } := by
  simp only [final, read]
  rcases bus.rd r s.hw with ⟨_ | _, h⟩ <;> rfl

theorem final_write (r : Reg) (v : BitVec w) (s : Dev C H) :
    final (write bus err r v : EStateM ε (Dev C H) _) s = { s with hw := (bus.wr r v s.hw).2 } := by
  simp only [final, write]
  rcases bus.wr r v s.hw with ⟨_ | _, h⟩ <;> rfl

theorem read_ok {r : Reg} {s s' : Dev C H} {v : BitVec w}
    (h : (read bus err r : EStateM ε (Dev C H) _) s = .ok v s') :
    (bus.rd r s.hw).1 = .ok v ∧ s' = { s with hw := (bus.rd r s.hw).2 } := by
  simp only [read] at h
  rcases hr : bus.rd r s.hw with ⟨_ | u, h'⟩
  · simp [hr] at h
  · simp only [hr, EStateM.Result.ok.injEq] at h
    exact ⟨by rw [h.1], h.2.symm⟩

theorem write_ok {r : Reg} {v : BitVec w} {s s' : Dev C H}
    (h : (write bus err r v : EStateM ε (Dev C H) _) s = .ok () s') :
    (bus.wr r v s.hw).1 = .ok () ∧ s' = { s with hw := (bus.wr r v s.hw).2 } := by
  simp only [write] at h
  rcases hw : bus.wr r v s.hw with ⟨_ | u, h'⟩
  · simp [hw] at h
  · simp only [hw, EStateM.Result.ok.injEq, true_and] at h
    exact ⟨rfl, h.symm⟩

theorem read_eq_ok {r : Reg} {s : Dev C H} {v : BitVec w} (h : (bus.rd r s.hw).1 = .ok v) :
    (read bus err r : EStateM ε (Dev C H) _) s = .ok v { s with hw := (bus.rd r s.hw).2 } := by
  simp only [read]
  rcases hr : bus.rd r s.hw with ⟨_ | u, h'⟩ <;> simp_all

theorem read_eq_error {r : Reg} {s : Dev C H} {e : Int} (h : (bus.rd r s.hw).1 = .error e) :
    (read bus err r : EStateM ε (Dev C H) _) s = .error (err e) { s with hw := (bus.rd r s.hw).2 } := by
  simp only [read]
  rcases hr : bus.rd r s.hw with ⟨_ | u, h'⟩ <;> simp_all

theorem write_eq_ok {r : Reg} {v : BitVec w} {s : Dev C H} (h : (bus.wr r v s.hw).1 = .ok ()) :
    (write bus err r v : EStateM ε (Dev C H) _) s = .ok () { s with hw := (bus.wr r v s.hw).2 } := by
  simp only [write]
  rcases hr : bus.wr r v s.hw with ⟨_ | u, h'⟩ <;> simp_all

variable {W W' : Set (Reg × Nat)}

theorem hwFrame_mono (hW : W ⊆ W') (s s' : Dev C H) (h : (hwFrame bus W).rel s s') :
    (hwFrame bus W').rel s s' :=
  ⟨h.1, h.2.mono hW⟩

theorem within_read (r : Reg) : Within (hwFrame bus W) (read bus err r : EStateM ε (Dev C H) _) := by
  intro s
  rw [final_read]
  exact ⟨rfl, .single (.rd r s.hw)⟩

theorem within_write {r : Reg} (v : BitVec w) (hr : ∀ b < w, (r, b) ∈ W) :
    Within (hwFrame bus W) (write bus err r v : EStateM ε (Dev C H) _) := by
  intro s
  rw [final_write]
  exact ⟨rfl, .single (.wr r v s.hw hr)⟩

theorem within_writeMasked {r : Reg} (v : BitVec w) {mask : BitVec w}
    (hr : ∀ b < w, mask.getLsbD b = true → (r, b) ∈ W) :
    Within (hwFrame bus W) (writeMasked bus err r v mask : EStateM ε (Dev C H) _) := by
  intro s
  simp only [writeMasked, final_bind]
  cases hrd : (read bus err r : EStateM ε (Dev C H) _) s with
  | ok old t =>
    obtain ⟨ho, rfl⟩ := read_ok bus err hrd
    simp only [final_write]
    exact ⟨rfl, .single (.wrm r old v mask s.hw ho hr)⟩
  | error e t =>
    have ht : t = { s with hw := (bus.rd r s.hw).2 } := by
      rw [← final_read bus err r s]
      simp [final, hrd]
    subst ht
    exact ⟨rfl, .single (.rd r s.hw)⟩

theorem within_getConf {F : Frame (Dev C H)} : Within F (getConf : EStateM ε (Dev C H) C) :=
  fun s => F.refl s

theorem steps_getConf {F : Frame (Dev C H)} {P : Dev C H → Prop} :
    Steps F P (getConf : EStateM ε (Dev C H) C) (fun c s => P s ∧ c = s.conf) := by
  intro s hP
  refine ⟨F.refl s, ?_⟩
  rintro c s' h
  cases h
  exact ⟨hP, rfl⟩

section Sound

variable {bus} {h₀ : H}

theorem HwSteps.accessed {h h' : H} (hs : HwSteps bus W h h') : Accessed bus h h' := by
  induction hs with
  | refl => exact .refl
  | tail _ hst ih =>
    cases hst with
    | rd r _ => exact .rd r _ ih
    | wr r v _ _ => exact .wr r v _ ih
    | wrm r old v mask _ _ _ => exact .wr _ _ _ (.rd r _ ih)

theorem ends_read (hs : bus.Sound h₀) (r : Reg) : Ends (fun s : Dev C H => Accessed bus h₀ s.hw)
    (read bus err r : EStateM ε (Dev C H) _) (fun _ s => Accessed bus h₀ s.hw) fun _ => False := by
  intro s hacc
  obtain ⟨v, hv⟩ := (hs _ hacc).1 r
  exact Or.inl ⟨v, _, read_eq_ok bus err hv, .rd r _ hacc⟩

theorem ends_write (hs : bus.Sound h₀) (r : Reg) (v : BitVec w) : Ends (fun s : Dev C H => Accessed bus h₀ s.hw)
    (write bus err r v : EStateM ε (Dev C H) _) (fun _ s => Accessed bus h₀ s.hw) fun _ => False :=
  fun _ hacc => Or.inl ⟨(), _, write_eq_ok bus err ((hs _ hacc).2 r v), .wr r v _ hacc⟩

theorem ends_writeMasked (hs : bus.Sound h₀) (r : Reg) (v mask : BitVec w) :
    Ends (fun s : Dev C H => Accessed bus h₀ s.hw) (writeMasked bus err r v mask : EStateM ε (Dev C H) _)
      (fun _ s => Accessed bus h₀ s.hw) fun _ => False :=
  (ends_read err hs r).bind fun _ => ends_write err hs r _

end Sound

section Storage

variable {status live : Reg → Prop} (rf : RegFile Reg w H status live) {P : Dev C H → Prop} {h₀ : H}

/-- A read of the storage: what it returns, and that it changes nothing. It fails only where accesses can fail. -/
theorem ends_read_stored {r : Reg} {Q : BitVec w → Dev C H → Prop} (ha : ∀ s, P s → Accessed rf.toBus h₀ s.hw)
    (h : ∀ s h' v, P s → Accessed rf.toBus h₀ h' → (rf.rd r s.hw).1 = .ok v → (¬status r → v = rf.peek s.hw r) →
      (∀ q, ¬status q → rf.peek h' q = rf.peek s.hw q) → Q v { s with hw := h' }) :
    Ends P (read rf.toBus err r : EStateM ε (Dev C H) _) Q fun _ => ¬rf.Sound h₀ := by
  intro s hP
  cases hr : (read rf.toBus err r : EStateM ε (Dev C H) _) s with
  | ok v t =>
    obtain ⟨hv, rfl⟩ := read_ok rf.toBus err hr
    exact Or.inl ⟨v, _, rfl, h s _ v hP (.rd r _ (ha s hP)) hv (fun hst => rf.rd_ok r s.hw v hst hv)
      fun q hq => rf.peek_rd r q s.hw hq⟩
  | error e t =>
    refine Or.inr ⟨e, t, rfl, fun hs => ?_⟩
    obtain ⟨v, hv⟩ := (hs _ (ha s hP)).1 r
    rw [read_eq_ok rf.toBus err hv] at hr
    cases hr

/-- A write to the storage: the register holds the word, and the others are as before. -/
theorem ends_write_stored {r : Reg} {v : BitVec w} {Q : Dev C H → Prop} (ha : ∀ s, P s → Accessed rf.toBus h₀ s.hw)
    (h : ∀ s h', P s → Accessed rf.toBus h₀ h' → (¬status r → rf.peek h' r = v) →
      (∀ q, ¬status q → q ≠ r → rf.peek h' q = rf.peek s.hw q) → Q { s with hw := h' }) :
    Ends P (write rf.toBus err r v : EStateM ε (Dev C H) _) (fun _ => Q) fun _ => ¬rf.Sound h₀ := by
  intro s hP
  rcases hw : (rf.wr r v s.hw).1 with e | u
  · have hfail : (write rf.toBus err r v : EStateM ε (Dev C H) _) s =
        .error (err e) { s with hw := (rf.wr r v s.hw).2 } := by
      simp only [write]
      rcases hw' : rf.wr r v s.hw with ⟨_ | _, h'⟩ <;> simp_all
    refine Or.inr ⟨_, _, hfail, fun hs => ?_⟩
    rw [(hs _ (ha s hP)).2 r v] at hw
    cases hw
  · refine Or.inl ⟨(), _, write_eq_ok rf.toBus err hw, h s _ hP (.wr r v _ (ha s hP)) (fun hst => ?_) fun q hq hne => ?_⟩
    · exact rf.peek_wr_ok r v s.hw hst hw
    · exact rf.peek_wr_ne r q v s.hw hq hne

end Storage

/-- A frame that looks at the driver's data alone. -/
def onConf (F : Frame C) : Frame (Dev C H) where
  rel s s' := F.rel s.conf s'.conf
  refl s := F.refl s.conf
  trans := F.trans

theorem within_modifyConf {F : Frame C} {f : C → C} (hf : ∀ c, F.rel c (f c)) :
    Within (onConf F) (modifyConf f : EStateM ε (Dev C H) PUnit) := fun s => hf s.conf

/-- An update of data that are known. -/
theorem steps_modifyConf {F : Frame C} {c : C} {f : C → C} (hf : F.rel c (f c)) :
    Steps (onConf F) (fun s => s.conf = c) (modifyConf f : EStateM ε (Dev C H) PUnit) fun _ s => s.conf = f c := by
  refine Steps.modify ?_
  rintro ⟨c', h⟩ rfl
  exact ⟨hf, rfl⟩

theorem ends_modifyConf_of {f : C → C} {P T E : Dev C H → Prop} (h : ∀ s, P s → T { s with conf := f s.conf }) :
    Ends P (modifyConf f : EStateM ε (Dev C H) PUnit) (fun _ => T) E := Ends.modify h

/-- A write to the storage that succeeds: the register holds the word, and the others are as before. -/
theorem steps_write_stored {status live : Reg → Prop} (rf : RegFile Reg w H status live) {r : Reg} {v : BitVec w}
    {P Q : Dev C H → Prop} (hr : ¬status r)
    (h : ∀ s h', P s → rf.peek h' r = v → (∀ q, ¬status q → q ≠ r → rf.peek h' q = rf.peek s.hw q) →
      Q { s with hw := h' }) :
    Steps Frame.all P (write rf.toBus err r v : EStateM ε (Dev C H) _) (fun _ => Q) := by
  intro s hP
  refine ⟨trivial, fun u s' hs => ?_⟩
  obtain ⟨hw, rfl⟩ := write_ok rf.toBus err hs
  exact h s _ hP (rf.peek_wr_ok r v s.hw hr hw) fun q hq hne => rf.peek_wr_ne r q v s.hw hq hne

/-- A call that starts by reading the driver's data. -/
theorem steps_getConf_bind {F : Frame (Dev C H)} {c : C} {β : Type} {f : C → EStateM ε (Dev C H) β}
    {R : β → Dev C H → Prop} (hf : Steps F (fun s => s.conf = c) (f c) R) :
    Steps F (fun s => s.conf = c) (getConf >>= f) R := by
  refine steps_getConf.bind fun c' => ?_
  rintro s ⟨hs, hc⟩
  obtain rfl : c' = c := hc.trans hs
  exact hf s hs

theorem ends_getConf_bind {c : C} {β : Type} {f : C → EStateM ε (Dev C H) β} {R : β → Dev C H → Prop}
    {P E : Dev C H → Prop} (hc : ∀ s, P s → s.conf = c) (hf : Ends P (f c) R E) : Ends P (getConf >>= f) R E := by
  intro s hP
  have hs := hf s hP
  rwa [← hc s hP] at hs

end Access

end RegBus
