import Lan80xx.Lib.RegBus

/-!
# Devices seen through a view

Not every device is a word of storage for each register: an access may reach another register (a window with an address
and a data register), and a write may change more than the register it names (a reset). A `ViewBus` is a device of which
some part, the view, changes only by the driver's writes, as `onWrite` says; `shows` says which words a read of the view
may return.

`Sees` is the driver's data together with the view. `ends_read_sees` and `ends_write_sees` are the two rules; what a
failed write has done is left open. `SeesAs` is about a part of the view only, where the rest does not matter.
-/

namespace RegBus

open Fallible

variable {Reg : Type} {w : Nat} {σ H C ε : Type}

/-- From here on no write fails, whatever is accessed; reads may. -/
def Bus.WritesGo (bus : Bus Reg w H) (h : H) : Prop := ∀ h', Accessed bus h h' → ∀ r v, (bus.wr r v h').1 = .ok ()

theorem Bus.Sound.writesGo {bus : Bus Reg w H} {h : H} (hs : bus.Sound h) : bus.WritesGo h := fun h' ha => (hs h' ha).2

/-- A device of which the view `σ` changes only by writes. Reads may return any word that `shows` allows. A write that
fails may or may not have been carried out. -/
structure ViewBus (Reg : Type) (w : Nat) {σ : Type} (onWrite : Reg → BitVec w → σ → σ)
    (shows : Reg → BitVec w → σ → Prop) (H : Type) extends Bus Reg w H where
  view : H → σ
  view_rd : ∀ r h, view (rd r h).2 = view h
  rd_ok : ∀ r h v, (rd r h).1 = .ok v → shows r v (view h)
  view_wr_ok : ∀ r v h, (wr r v h).1 = .ok () → view (wr r v h).2 = onWrite r v (view h)
  view_wr_error : ∀ r v h e, (wr r v h).1 = .error e →
    view (wr r v h).2 = view h ∨ view (wr r v h).2 = onWrite r v (view h)
  view_drift : ∀ h h', drift h h' → view h' = view h

variable {onWrite : Reg → BitVec w → σ → σ} {shows : Reg → BitVec w → σ → Prop}
  (vb : ViewBus Reg w onWrite shows H) (err : Int → ε) {h₀ : H} {c : C} {m : σ} {E : Dev C H → Prop}

/-- The driver's data and the view, after accesses from `h₀` on. -/
def Sees (h₀ : H) (c : C) (m : σ) (s : Dev C H) : Prop :=
  s.conf = c ∧ Accessed vb.toBus h₀ s.hw ∧ vb.view s.hw = m

theorem sees_start (s : Dev C H) : Sees vb s.hw s.conf (vb.view s.hw) s := ⟨rfl, .refl, rfl⟩

theorem ends_read_sees (r : Reg) (hE : ∀ s, ¬vb.Sound h₀ → Sees vb h₀ c m s → E s) :
    Ends (Sees vb h₀ c m) (read vb.toBus err r : EStateM ε (Dev C H) _)
      (fun v s => Sees vb h₀ c m s ∧ shows r v m) E := by
  rintro s ⟨hc, ha, hm⟩
  have hview : vb.view (vb.rd r s.hw).2 = m := (vb.view_rd r s.hw).trans hm
  cases hr : (read vb.toBus err r : EStateM ε (Dev C H) _) s with
  | ok v t =>
    obtain ⟨hv, rfl⟩ := read_ok vb.toBus err hr
    exact Or.inl ⟨v, _, rfl, ⟨hc, .rd r _ ha, hview⟩, hm ▸ vb.rd_ok r s.hw v hv⟩
  | error e t =>
    have ht : t = { s with hw := (vb.rd r s.hw).2 } := by
      rw [← final_read vb.toBus err r s]
      simp [final, hr]
    refine Or.inr ⟨e, t, rfl, hE t (fun hs => ?_) (by rw [ht]; exact ⟨hc, .rd r _ ha, hview⟩)⟩
    obtain ⟨v, hv⟩ := (hs _ ha).1 r
    rw [read_eq_ok vb.toBus err hv] at hr
    cases hr

theorem ends_write_sees (r : Reg) (v : BitVec w)
    (hE : ∀ s, ¬vb.WritesGo h₀ → Sees vb h₀ c m s ∨ Sees vb h₀ c (onWrite r v m) s → E s) :
    Ends (Sees vb h₀ c m) (write vb.toBus err r v : EStateM ε (Dev C H) _)
      (fun _ => Sees vb h₀ c (onWrite r v m)) E := by
  rintro s ⟨hc, ha, hm⟩
  have hacc : Accessed vb.toBus h₀ (vb.wr r v s.hw).2 := .wr r v _ ha
  rcases hw : (vb.wr r v s.hw).1 with e | u
  · have hfail : (write vb.toBus err r v : EStateM ε (Dev C H) _) s =
        .error (err e) { s with hw := (vb.wr r v s.hw).2 } := by
      simp only [write]
      rcases hw' : vb.wr r v s.hw with ⟨_ | _, h'⟩ <;> simp_all
    refine Or.inr ⟨_, _, hfail, hE _ (fun hs => ?_) ?_⟩
    · rw [hs _ ha r v] at hw
      cases hw
    · rcases vb.view_wr_error r v s.hw e hw with hview | hview
      · exact Or.inl ⟨hc, hacc, hview.trans hm⟩
      · exact Or.inr ⟨hc, hacc, hview.trans (by rw [hm])⟩
  · refine Or.inl ⟨(), _, write_eq_ok vb.toBus err hw, hc, hacc, ?_⟩
    rw [vb.view_wr_ok r v s.hw hw, hm]

/-- A read-modify-write, of a register that shows one word only. -/
theorem ends_writeMasked_sees (r : Reg) (v mask : BitVec w) {old : BitVec w} (hold : ∀ u, shows r u m → u = old)
    (hE : ∀ s, ¬vb.Sound h₀ → Sees vb h₀ c m s ∨ Sees vb h₀ c (onWrite r (merge old v mask) m) s → E s) :
    Ends (Sees vb h₀ c m) (writeMasked vb.toBus err r v mask : EStateM ε (Dev C H) _)
      (fun _ => Sees vb h₀ c (onWrite r (merge old v mask) m)) E := by
  refine (ends_read_sees vb err r fun s hs h => hE s hs (Or.inl h)).bind fun u => ?_
  rintro s ⟨hs, hu⟩
  obtain rfl := hold u hu
  exact ends_write_sees vb err r _ (fun s hw => hE s fun hs => hw hs.writesGo) s hs

/-! ## A word for each register -/

/-- A device with one word of storage for each register. -/
abbrev WordBus (Reg : Type) [DecidableEq Reg] (w : Nat) (H : Type) :=
  ViewBus Reg w (fun r v (m : Reg → BitVec w) => Function.update m r v) (fun r v m => v = m r) H

/-- The words themselves, when every access succeeds. -/
def wordStorage (Reg : Type) [DecidableEq Reg] (w : Nat) : WordBus Reg w (Reg → BitVec w) where
  rd r h := (.ok (h r), h)
  wr r v h := (.ok (), Function.update h r v)
  drift h h' := h' = h
  view h := h
  view_rd _ _ := rfl
  rd_ok _ _ _ hv := by cases hv; rfl
  view_wr_ok _ _ _ _ := rfl
  view_wr_error _ _ _ _ hw := by cases hw
  view_drift _ _ hd := hd

/-! ## The driver's data -/

theorem ends_modifyConf_sees (f : C → C) :
    Ends (Sees vb h₀ c m) (modifyConf f : EStateM ε (Dev C H) PUnit) (fun _ => Sees vb h₀ (f c) m) E := by
  apply ends_modifyConf_of
  rintro s ⟨hc, hrest⟩
  exact ⟨congrArg f hc, hrest⟩

theorem ends_getConf_sees {β : Type} {f : C → EStateM ε (Dev C H) β} {R : β → Dev C H → Prop}
    (hf : Ends (Sees vb h₀ c m) (f c) R E) : Ends (Sees vb h₀ c m) (getConf >>= f) R E :=
  ends_getConf_bind (fun _ h => h.1) hf

/-! ## A part of the view -/

section SeesAs

variable {γ β : Type} {g : σ → γ} {a b : γ}

variable (h₀ c g a) in
/-- What is seen of the view through `g`, after accesses from `h₀` on. -/
def SeesAs (s : Dev C H) : Prop := ∃ m, Sees vb h₀ c m s ∧ g m = a

theorem seesAs_start (s : Dev C H) : SeesAs vb s.hw s.conf g (g (vb.view s.hw)) s := ⟨_, sees_start vb s, rfl⟩

theorem ends_write_as {r : Reg} {v : BitVec w} (hE : ∀ s, E s) (hg : ∀ m, g m = a → g (onWrite r v m) = b) :
    Ends (SeesAs vb h₀ c g a) (write vb.toBus err r v : EStateM ε (Dev C H) _) (fun _ => SeesAs vb h₀ c g b) E := by
  rintro s ⟨m, hs, hm⟩
  refine ((ends_write_sees vb err r v fun t _ _ => hE t).weaken (fun _ _ ht => ?_) fun _ ht => ht) s hs
  exact ⟨_, ht, hg m hm⟩

/-- What follows a read goes on with a word that a view like this may show. -/
theorem ends_read_as {r : Reg} {f : BitVec w → EStateM ε (Dev C H) β} {R : β → Dev C H → Prop} (hE : ∀ s, E s)
    (hf : ∀ m v, g m = a → shows r v m → Ends (SeesAs vb h₀ c g a) (f v) R E) :
    Ends (SeesAs vb h₀ c g a) (read vb.toBus err r >>= f) R E := by
  rintro s ⟨m, hs, hm⟩
  refine ((ends_read_sees vb err r fun t _ _ => hE t).bind fun v => ?_) s hs
  rintro t ⟨ht, hv⟩
  exact hf m v hm hv t ⟨m, ht, hm⟩

theorem ends_getConf_as {f : C → EStateM ε (Dev C H) β} {R : β → Dev C H → Prop}
    (hf : Ends (SeesAs vb h₀ c g a) (f c) R E) : Ends (SeesAs vb h₀ c g a) (getConf >>= f) R E :=
  ends_getConf_bind (by rintro s ⟨m, hs, -⟩; exact hs.1) hf

end SeesAs

end RegBus
