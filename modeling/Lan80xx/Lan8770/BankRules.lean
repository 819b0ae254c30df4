import Lan80xx.Lan8770.Types

/-!
# LAN8770: rules for the bank accesses

What a bank access does to the words of any PHY that keeps them. On a `Ready` PHY, which answers and whose operations
end within the timeout, it does not fail.
-/

namespace Lan80xx.Lan8770

open Fallible RegBus

variable {C H : Type} (rf : SmiRegs H) {h₀ : H} {c : C} {m : Words} {E : Dev C H → Prop} {n : Nat}

/-- From here on no access fails, and whatever is done, fewer than 200 polls later no command bit is set. -/
structure Ready (h₀ : H) : Prop where
  sound : rf.Sound h₀
  settles : ∀ h, Accessed rf.toBus h₀ h → ∃ k < 200, ∀ v,
    (rf.rd extRegCtrl (rf.rdN extRegCtrl k h)).1 = .ok v → v &&& (wrtCtrl ||| readCtrl) = 0#16

variable {rf} in
/-! ## Waiting -/

section Await

variable {busyBit : BitVec 16}

/-- The loop of `awaitClear`. -/
def polling (bus : SmiBus H) (offset : BitVec 8) (busyBit : BitVec 16) (n : Nat) (p : BitVec 16 × BitVec 16) :
    Call C H (BitVec 16 × BitVec 16) :=
  pollWhile Rc.stuck (fun p : BitVec 16 × BitVec 16 => p.1 &&& busyBit ≠ 0#16) (fun p => do
    let regdata ← phyDirectRegRd bus offset
    return (regdata, p.2 - 1)) n p

theorem polling_stop (bus : SmiBus H) (offset : BitVec 8) (n : Nat) {p : BitVec 16 × BitVec 16}
    (hp : p.1 &&& busyBit = 0#16) : (polling bus offset busyBit n p : Call C H _) = pure p :=
  pollWhile_of_not n (by simp [hp])

theorem polling_pass (bus : SmiBus H) {offset : BitVec 8} {n : Nat} {p : BitVec 16 × BitVec 16} {s : Dev C H} {v : BitVec 16}
    (hp : p.1 &&& busyBit ≠ 0#16) (hv : (bus.rd offset s.hw).1 = .ok v) :
    polling bus offset busyBit (n + 1) p s =
      polling bus offset busyBit n (v, p.2 - 1) { s with hw := (bus.rd offset s.hw).2 } := by
  have hrd : phyDirectRegRd bus offset s = .ok v { s with hw := (bus.rd offset s.hw).2 } := read_eq_ok bus Rc.access hv
  simp only [polling, pollWhile, hp, ne_eq, not_false_eq_true, decide_true, if_true]
  rw [bind_assoc, bind_of_ok hrd, pure_bind]

/-- A bit that is clear `k + 1` reads from now ends the loop before the timeout. -/
theorem polling_ends (hs : rf.Sound h₀) {offset : BitVec 8} (k : Nat) :
    ∀ (n : Nat) (p : BitVec 16 × BitVec 16) (s : Dev C H), Sees rf h₀ c m s →
      (∀ v, (rf.rd offset (rf.rdN offset k s.hw)).1 = .ok v → v &&& busyBit = 0#16) → k < n → k + 1 < p.2.toNat →
      ∃ q t, polling rf.toBus offset busyBit n p s = .ok q t ∧ q.2 ≠ 0#16 ∧ Sees rf h₀ c m t := by
  have hpos : ∀ x : BitVec 16, 0 < x.toNat → x ≠ 0#16 := by
    rintro x hx rfl
    simp at hx
  induction k with
  | zero =>
    rintro n p s ⟨hc, ha, hm⟩ hclear hn ht
    by_cases hp : p.1 &&& busyBit = 0#16
    · exact ⟨p, s, by rw [polling_stop rf.toBus offset n hp]; rfl, hpos _ (by omega), hc, ha, hm⟩
    · obtain ⟨n, rfl⟩ : ∃ n', n = n' + 1 := ⟨n - 1, by omega⟩
      obtain ⟨v, hv⟩ := (hs _ ha).1 offset
      refine ⟨(v, p.2 - 1), { s with hw := (rf.rd offset s.hw).2 }, ?_, hpos _ ?_, hc, .rd offset _ ha,
        (rf.view_rd offset s.hw).trans hm⟩
      · rw [polling_pass rf.toBus hp hv, polling_stop rf.toBus offset n (hclear v hv)]
        rfl
      · simp only
        bv_omega
  | succ k ih =>
    rintro n p s ⟨hc, ha, hm⟩ hclear hn ht
    by_cases hp : p.1 &&& busyBit = 0#16
    · exact ⟨p, s, by rw [polling_stop rf.toBus offset n hp]; rfl, hpos _ (by omega), hc, ha, hm⟩
    · obtain ⟨n, rfl⟩ : ∃ n', n = n' + 1 := ⟨n - 1, by omega⟩
      obtain ⟨v, hv⟩ := (hs _ ha).1 offset
      rw [polling_pass rf.toBus hp hv]
      refine ih n (v, p.2 - 1) _ ⟨hc, .rd offset _ ha, (rf.view_rd offset s.hw).trans hm⟩ hclear (by omega) ?_
      simp only
      bv_omega

/-- Waiting for a bit of any register changes no word; whether it ends is left open. -/
theorem ends_awaitClear_any {offset : BitVec 8} (hE : ∀ s, E s) :
    Ends (Sees rf h₀ c m) (awaitClear rf.toBus offset busyBit n) (fun _ => Sees rf h₀ c m) E := by
  refine (ends_read_sees rf Rc.access offset fun s _ _ => hE s).bind fun regdata => ?_
  refine Ends.bind (Q := fun _ => Sees rf h₀ c m) ?_ fun p => ?_
  · have hloop := ends_pollWhile Rc.stuck (fun p : BitVec 16 × BitVec 16 => p.1 &&& busyBit ≠ 0#16)
      (fun p => do
        let regdata ← (phyDirectRegRd rf.toBus offset : Call C H _)
        return (regdata, p.2 - 1))
      (I := fun _ => Sees rf h₀ c m) (E := E) (fun p _ => ?_) (fun _ s _ _ => hE s) n (regdata, 200)
    · exact (hloop.weaken (fun _ _ h => h.1) fun _ h => h).pre fun _ h => h.1
    · refine (ends_read_sees rf Rc.access offset fun s _ _ => hE s).bind fun v => ?_
      exact Ends.pure fun s hs => hs.1
  · exact (Ends.failIf fun s _ _ => hE s).weaken (fun _ _ h => h.1) fun _ h => h

/-- Waiting for a command bit changes no word. -/
theorem ends_awaitClear (hbit : busyBit &&& (wrtCtrl ||| readCtrl) = busyBit) (hE : ∀ s, ¬(Ready rf h₀ ∧ 200 ≤ n) → E s) :
    Ends (Sees rf h₀ c m) (awaitClear rf.toBus extRegCtrl busyBit n) (fun _ => Sees rf h₀ c m) E := by
  by_cases hready : Ready rf h₀ ∧ 200 ≤ n
  · obtain ⟨hr, hn⟩ := hready
    rintro s ⟨hc, ha, hm⟩
    obtain ⟨v, hv⟩ := (hr.sound _ ha).1 extRegCtrl
    have hsees : Sees rf h₀ c m { s with hw := (rf.rd extRegCtrl s.hw).2 } :=
      ⟨hc, .rd extRegCtrl _ ha, (rf.view_rd extRegCtrl s.hw).trans hm⟩
    have hpart : ∀ x : BitVec 16, x &&& (wrtCtrl ||| readCtrl) = 0#16 → x &&& busyBit = 0#16 := fun x hx => by
      rw [← hbit, BitVec.and_comm busyBit, ← BitVec.and_assoc, hx, BitVec.zero_and]
    have hloop : ∃ q t, polling rf.toBus extRegCtrl busyBit n (v, 200) { s with hw := (rf.rd extRegCtrl s.hw).2 } = .ok q t ∧
        q.2 ≠ 0#16 ∧ Sees rf h₀ c m t := by
      obtain ⟨k, hk, hclear⟩ := hr.settles _ ha
      cases k with
      | zero =>
        refine ⟨(v, 200), _, ?_, by simp, hsees⟩
        rw [polling_stop rf.toBus extRegCtrl n (hpart v (hclear v hv))]
        rfl
      | succ k =>
        exact polling_ends rf hr.sound k n (v, 200) _ hsees (fun u hu => hpart u (hclear u hu)) (by omega)
          (by simp; omega)
    obtain ⟨q, t, hq, hne, ht⟩ := hloop
    refine Or.inl ⟨(), t, ?_, ht⟩
    have hrd : phyDirectRegRd rf.toBus extRegCtrl s = .ok v { s with hw := (rf.rd extRegCtrl s.hw).2 } :=
      read_eq_ok rf.toBus Rc.access hv
    rw [awaitClear, bind_of_ok hrd]
    change (polling rf.toBus extRegCtrl busyBit n (v, 200) >>= _) _ = _
    rw [bind_of_ok hq]
    simp [failIf, Fallible.when, hne, pure, EStateM.pure]
  · exact ends_awaitClear_any rf fun s => hE s hready

end Await

/-! ## Reading and writing a bank register -/

section Access

variable {bank : BitVec 16} {offset : BitVec 8}

/-- A read returns the read-data word, and stores the write-data word. -/
theorem ends_bankRd (h0 : bank ≠ bankSmi) (h5 : bank ≤ bankInstrument) (hE : ∀ s, ¬(Ready rf h₀ ∧ 200 ≤ n) → E s) :
    Ends (Sees rf h₀ c m) (phyExtBankRegRd rf.toBus n bank offset)
      (fun v s => Sees rf h₀ c (commanded m bank offset) s ∧ v = m (.smi extRegRdData)) E := by
  have hdata : commanded m bank offset (.smi extRegRdData) = m (.smi extRegRdData) :=
    commanded_of_ne _ (by decide) (by simp)
  rw [phyExtBankRegRd, if_neg h0, if_pos h5]
  refine (ends_directWr rf extRegCtrl _ fun s hno _ => hE s fun h => hno h.1.sound.writesGo).bind fun _ => ?_
  refine (ends_awaitClear rf (by decide) hE).bind fun _ => ?_
  refine (ends_directRd rf (by decide) fun s hno _ => hE s fun h => hno h.1.sound).weaken ?_ fun _ h => h
  rintro v s ⟨hs, rfl⟩
  exact ⟨hs, hdata⟩

variable (offset) in
theorem ends_bankWr (h0 : bank ≠ bankSmi) (h5 : bank ≤ bankInstrument) (v : BitVec 16)
    (hE : ∀ s, ¬(Ready rf h₀ ∧ 200 ≤ n) → E s) :
    Ends (Sees rf h₀ c m) (phyExtBankRegWr rf.toBus n bank offset v)
      (fun _ => Sees rf h₀ c (commanded (staged m v) bank offset)) E := by
  rw [phyExtBankRegWr, if_neg h0, if_pos h5]
  refine (ends_directWr rf extRegWrData v fun s hno _ => hE s fun h => hno h.1.sound.writesGo).bind fun _ => ?_
  refine (ends_directWr rf extRegCtrl _ fun s hno _ => hE s fun h => hno h.1.sound.writesGo).bind fun _ => ?_
  exact ends_awaitClear rf (by decide) hE

/-- No read is answered from here on. -/
def Silent (h₀ : H) : Prop := ∀ h, Accessed rf.toBus h₀ h → ∀ offset, ∃ rc, (rf.rd offset h).1 = .error rc

theorem ends_directRd_silent (hs : Silent rf h₀) :
    Ends (Sees rf h₀ c m) (phyDirectRegRd rf.toBus offset) (fun _ _ => False) (Sees rf h₀ c m) := by
  rintro s ⟨hc, ha, hm⟩
  obtain ⟨rc, hrc⟩ := hs _ ha offset
  have hfail : phyDirectRegRd rf.toBus offset s = .error (.access rc) { s with hw := (rf.rd offset s.hw).2 } := by
    simp only [phyDirectRegRd, RegBus.read]
    rcases hv : rf.rd offset s.hw with ⟨_ | _, h'⟩ <;> simp_all
  exact Or.inr ⟨_, _, hfail, hc, .rd offset _ ha, (rf.view_rd offset s.hw).trans hm⟩

/-- A read that is not answered has sent its command at most. -/
theorem ends_bankRd_silent (hs : Silent rf h₀) (h0 : bank ≠ bankSmi) (h5 : bank ≤ bankInstrument) :
    Ends (Sees rf h₀ c m) (phyExtBankRegRd rf.toBus n bank offset) (fun _ _ => False)
      (fun s => Sees rf h₀ c m s ∨ Sees rf h₀ c (commanded m bank offset) s) := by
  rw [phyExtBankRegRd, if_neg h0, if_pos h5]
  refine (ends_directWr rf extRegCtrl _ fun s _ h => h).bind fun _ => ?_
  rw [awaitClear, bind_assoc]
  exact ((ends_directRd_silent rf hs).weaken (fun _ _ h => h) fun s h => Or.inr h).bind fun _ _ h => h.elim

end Access

end Lan80xx.Lan8770
