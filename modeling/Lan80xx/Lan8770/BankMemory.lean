import Lan80xx.Lan8770.BankAccess

/-!
# LAN8770: the bank registers as a memory

What the bank accesses do on a PHY with busy bits (`smiPhy`), for every busy time and every access that fails.

- `bankRd_goes`, `bankRd_fails`: a read of a bank register stores the write-data word there and returns the read-data word;
- `bankWr_words`, `bankWr_stuck_iff`, `bankWr_ok`: a write stores its word, and goes on polling for as long as the busy
  bit stays set;
- `bank_access`: when a read, a write and a read-modify-write do what they are for.
-/

namespace Lan80xx.Lan8770

open Fallible RegBus

variable {C : Type} {link : Link} {s : Dev C Phy}

/-! ## Single accesses -/

theorem directRd_goes {offset : BitVec 8} (h : link.Goes s.hw.accesses) :
    phyDirectRegRd (smiPhy link).toBus offset s = .ok (s.hw.shown offset) { s with
      hw := { s.hw with
        accesses := s.hw.accesses + 1
        busy := if offset = extRegCtrl then pollsLeft s.hw.busy else s.hw.busy } } := by
  simp only [Link.Goes] at h
  simp [phyDirectRegRd, RegBus.read, smiPhy, Phy.rd, h]

theorem directRd_fails (offset : BitVec 8) (h : ¬link.Goes s.hw.accesses) :
    ∃ rc, phyDirectRegRd (smiPhy link).toBus offset s =
      .error (.access rc) { s with hw := { s.hw with accesses := s.hw.accesses + 1 } } := by
  cases ha : link.answer s.hw.accesses with
  | ok => exact absurd ha h
  | failed rc b => exact ⟨rc, by simp [phyDirectRegRd, RegBus.read, smiPhy, Phy.rd, ha]⟩

theorem directWr_goes {offset : BitVec 8} {v : BitVec 16} (h : link.Goes s.hw.accesses) :
    phyDirectRegWr (smiPhy link).toBus offset v s = .ok () { s with hw := s.hw.put link offset v } := by
  simp only [Link.Goes] at h
  simp [phyDirectRegWr, RegBus.write, smiPhy, Phy.wr, h]

open Classical in
theorem directWr_fails (offset : BitVec 8) (v : BitVec 16) (h : ¬link.Goes s.hw.accesses) :
    ∃ rc t, phyDirectRegWr (smiPhy link).toBus offset v s = .error (.access rc) t ∧
      t.hw.words = if link.Reaches s.hw.accesses then s.hw.words.write offset v else s.hw.words := by
  cases ha : link.answer s.hw.accesses with
  | ok => exact absurd ha h
  | failed rc b =>
    cases b with
    | true =>
      refine ⟨rc, { s with hw := s.hw.put link offset v }, by simp [phyDirectRegWr, RegBus.write, smiPhy, Phy.wr, ha], ?_⟩
      have hyes : link.Reaches s.hw.accesses := Or.inr ⟨rc, ha⟩
      rw [if_pos hyes]
      rfl
    | false =>
      refine ⟨rc, { s with hw := { s.hw with accesses := s.hw.accesses + 1 } },
        by simp [phyDirectRegWr, RegBus.write, smiPhy, Phy.wr, ha], ?_⟩
      have hno : ¬link.Reaches s.hw.accesses := by simp [Link.Reaches, ha]
      rw [if_neg hno]

theorem directRd_words (offset : BitVec 8) :
    (final (phyDirectRegRd (smiPhy link).toBus offset) s).hw.words = s.hw.words := by
  rw [phyDirectRegRd, final_read]
  exact (smiPhy link).view_rd offset s.hw

theorem Link.Goes.reaches {n : Nat} (h : link.Goes n) : link.Reaches n := Or.inl h

variable (link) in
open Classical in
theorem directWr_words (offset : BitVec 8) (v : BitVec 16) :
    (final (phyDirectRegWr (smiPhy link).toBus offset v) s).hw.words =
      if link.Reaches s.hw.accesses then s.hw.words.write offset v else s.hw.words := by
  by_cases hg : link.Goes s.hw.accesses
  · rw [final, directWr_goes hg, if_pos hg.reaches]
    rfl
  · obtain ⟨rc, t, hrc, ht⟩ := directWr_fails offset v hg
    rw [final, hrc]
    exact ht

/-- The control register shows the command bit for as long as the PHY is busy. -/
theorem shown_ctrl_writes {h : Phy} (hw : (h.words (.smi extRegCtrl)).getLsbD 11 = true) :
    h.shown extRegCtrl &&& wrtCtrl = 0#16 ↔ h.busy = some 0 := by
  rw [wrtCtrl, and_bit_eq_zero_iff (by decide), Phy.shown]
  by_cases hb : h.busy = some 0
  · simp [hb, wrtCtrl, bit]
  · simp [hb, hw]

theorem shown_ctrl_not_reads {h : Phy} (hr : (h.words (.smi extRegCtrl)).getLsbD 12 = false) :
    h.shown extRegCtrl &&& readCtrl = 0#16 := by
  rw [readCtrl, and_bit_eq_zero_iff (by decide), Phy.shown]
  split
  · rw [BitVec.getLsbD_and, hr, Bool.false_and]
  · exact hr

/-! ## Polls -/

section Polls

/-- The PHY after a poll. -/
def Phy.polled (h : Phy) : Phy := { h with accesses := h.accesses + 1, busy := pollsLeft h.busy }

theorem ctrlRd_goes (h : link.Goes s.hw.accesses) :
    phyDirectRegRd (smiPhy link).toBus extRegCtrl s = .ok (s.hw.shown extRegCtrl) { s with hw := s.hw.polled } := by
  rw [directRd_goes h, if_pos rfl]
  rfl

/-- A pass of the polling loops. -/
def pollPass (link : Link) (p : BitVec 16 × BitVec 16) : Call C Phy (BitVec 16 × BitVec 16) := do
  let regdata ← phyDirectRegRd (smiPhy link).toBus extRegCtrl
  return (regdata, p.2 - 1)

/-- The loop of a write goes on. -/
abbrev writing (p : BitVec 16 × BitVec 16) : Bool := p.1 &&& wrtCtrl ≠ 0#16

theorem pollPass_goes {p : BitVec 16 × BitVec 16} (h : link.Goes s.hw.accesses) :
    pollPass link p s = .ok (s.hw.shown extRegCtrl, p.2 - 1) { s with hw := s.hw.polled } := by
  rw [pollPass, bind_of_ok (ctrlRd_goes h)]
  rfl

theorem pollPass_fails {p : BitVec 16 × BitVec 16} (h : ¬link.Goes s.hw.accesses) :
    ∃ rc, pollPass link p s = .error (.access rc) { s with hw := { s.hw with accesses := s.hw.accesses + 1 } } := by
  obtain ⟨rc, hrc⟩ := directRd_fails extRegCtrl h
  exact ⟨rc, by simp [pollPass, bind, EStateM.bind, hrc]⟩

theorem pollPass_not_stuck (p : BitVec 16 × BitVec 16) (s : Dev C Phy) : errorOf (pollPass link p) s ≠ some .stuck := by
  by_cases h : link.Goes s.hw.accesses
  · simp [errorOf, pollPass_goes h]
  · obtain ⟨rc, hrc⟩ := pollPass_fails (p := p) h
    simp [errorOf, hrc]

variable (link) in
/-- The loop of a write lasts as long as the accesses are answered and the busy bit stays set. -/
theorem lasts_writing_iff (hw : (s.hw.words (.smi extRegCtrl)).getLsbD 11 = true) (n : Nat) (p : BitVec 16 × BitVec 16) :
    Lasts writing (pollPass link) n p s ↔
      writing p = true ∧ ∀ k < n, link.Goes (s.hw.accesses + k) ∧ s.hw.busy.map (· - k) ≠ some 0 := by
  induction n generalizing p s with
  | zero => simp [Lasts]
  | succ n ih =>
    have hsplit : (∀ k < n + 1, link.Goes (s.hw.accesses + k) ∧ s.hw.busy.map (· - k) ≠ some 0) ↔
        (link.Goes s.hw.accesses ∧ s.hw.busy ≠ some 0) ∧
          ∀ k < n, link.Goes (s.hw.accesses + 1 + k) ∧ (pollsLeft s.hw.busy).map (· - k) ≠ some 0 := by
      have hleft : ∀ k, (pollsLeft s.hw.busy).map (· - k) = s.hw.busy.map (· - (k + 1)) := by
        intro k
        cases s.hw.busy with
        | none => rfl
        | some b => simp [pollsLeft, Nat.sub_sub, Nat.add_comm]
      have hzero : s.hw.busy.map (· - 0) = s.hw.busy := by simp
      simp only [hleft]
      constructor
      · intro h
        refine ⟨by simpa [hzero] using h 0 (by omega), fun k hk => ?_⟩
        have := h (k + 1) (by omega)
        rwa [show s.hw.accesses + (k + 1) = s.hw.accesses + 1 + k by omega] at this
      · rintro ⟨h0, h⟩ k hk
        cases k with
        | zero => simpa [hzero] using h0
        | succ k =>
          rw [show s.hw.accesses + (k + 1) = s.hw.accesses + 1 + k by omega]
          exact h k (by omega)
    rw [hsplit]
    by_cases hg : link.Goes s.hw.accesses
    · have hpass := pollPass_goes (p := p) hg
      have hagain : writing (s.hw.shown extRegCtrl, p.2 - 1) = true ↔ s.hw.busy ≠ some 0 := by
        simp [writing, shown_ctrl_writes hw]
      have hih := ih (s := { s with hw := s.hw.polled }) hw
        (s.hw.shown extRegCtrl, p.2 - 1)
      simp only [Lasts, hpass, EStateM.Result.ok.injEq]
      constructor
      · rintro ⟨hp, b, t, ⟨rfl, rfl⟩, hl⟩
        obtain ⟨hb, hrest⟩ := hih.mp hl
        exact ⟨hp, ⟨hg, hagain.mp hb⟩, hrest⟩
      · rintro ⟨hp, ⟨-, hb⟩, hrest⟩
        exact ⟨hp, _, _, ⟨rfl, rfl⟩, hih.mpr ⟨hagain.mpr hb, hrest⟩⟩
    · obtain ⟨rc, hrc⟩ := pollPass_fails (p := p) hg
      simp [Lasts, hrc, hg]

/-- The polls of a write change no word, and end when the PHY is not busy. -/
theorem ends_poll_writing {m : Words} (hm : (m (.smi extRegCtrl)).getLsbD 11 = true) (n : Nat) (regdata : BitVec 16) :
    Ends (fun t : Dev C Phy => t.hw.words = m ∧ (regdata &&& wrtCtrl = 0#16 → t.hw.busy = some 0))
      (pollWhile .stuck writing (pollPass link) n (regdata, 200)) (fun _ t => t.hw.words = m ∧ t.hw.busy = some 0)
      fun t => t.hw.words = m := by
  have hloop := ends_pollWhile Rc.stuck writing (pollPass (C := C) link)
    (I := fun p t => t.hw.words = m ∧ (p.1 &&& wrtCtrl = 0#16 → t.hw.busy = some 0)) (E := fun t => t.hw.words = m)
    ?_ ?_ n (regdata, 200)
  · refine hloop.weaken ?_ fun t h => h
    rintro p t ⟨⟨hwords, hidle⟩, hagain⟩
    exact ⟨hwords, hidle (by simpa [writing] using hagain)⟩
  · rintro p - t ⟨hwords, -⟩
    by_cases hg : link.Goes t.hw.accesses
    · refine Or.inl ⟨_, _, pollPass_goes hg, hwords, fun hclear => ?_⟩
      have hidle := (shown_ctrl_writes (by rw [hwords]; exact hm)).mp hclear
      simp [Phy.polled, hidle, pollsLeft]
    · obtain ⟨rc, hrc⟩ := pollPass_fails (p := p) hg
      exact Or.inr ⟨_, _, hrc, hwords⟩
  · rintro p t - ⟨hwords, -⟩
    exact hwords

end Polls

/-! ## Accesses of a bank register -/

section Bank

variable {bank : BitVec 16} {offset : BitVec 8} {n : Nat}

/-- Waiting for the command bit of a read, which is not set, is one read. -/
theorem awaitRead_goes (hr : (s.hw.words (.smi extRegCtrl)).getLsbD 12 = false) (hg : link.Goes s.hw.accesses) :
    awaitClear (smiPhy link).toBus extRegCtrl readCtrl n s = .ok () { s with hw := s.hw.polled } := by
  have hclear := shown_ctrl_not_reads hr
  rw [awaitClear, bind_of_ok (ctrlRd_goes hg), pollWhile_of_not n (by simp [hclear]), pure_bind]
  simp [failIf, Fallible.when, pure, EStateM.pure]

variable (n) in
theorem awaitClear_fails (busyBit : BitVec 16) (hg : ¬link.Goes s.hw.accesses) :
    ∃ rc, awaitClear (smiPhy link).toBus extRegCtrl busyBit n s =
      .error (.access rc) { s with hw := { s.hw with accesses := s.hw.accesses + 1 } } := by
  obtain ⟨rc, hrc⟩ := directRd_fails extRegCtrl hg
  exact ⟨rc, bind_of_error hrc⟩

theorem extBankRegRd_bank {H : Type} (bus : SmiBus H) (h0 : bank ≠ bankSmi) (h5 : bank ≤ bankInstrument) :
    (phyExtBankRegRd bus n bank offset : Call C H _) = (do
      phyDirectRegWr bus extRegCtrl (ctrlWord bank offset)
      awaitClear bus extRegCtrl readCtrl n
      phyDirectRegRd bus extRegRdData) := by
  rw [phyExtBankRegRd, if_neg h0, if_pos h5]

theorem extBankRegWr_bank {H : Type} (bus : SmiBus H) {v : BitVec 16} (h0 : bank ≠ bankSmi) (h5 : bank ≤ bankInstrument) :
    (phyExtBankRegWr bus n bank offset v : Call C H _) = (do
      phyDirectRegWr bus extRegWrData v
      phyDirectRegWr bus extRegCtrl (ctrlWord bank offset)
      awaitClear bus extRegCtrl wrtCtrl n) := by
  rw [phyExtBankRegWr, if_neg h0, if_pos h5]

variable (link bank offset) in
/-- The PHY after the command. -/
theorem put_ctrlWord (h : Phy) : h.put link extRegCtrl (ctrlWord bank offset) =
    ⟨commanded h.words bank offset, link.polls h.accesses, h.accesses + 1⟩ := by
  simp [Phy.put, ctrlWord_writes]

theorem put_ctrlWord_ctrl (h : Phy) :
    (h.put link extRegCtrl (ctrlWord bank offset)).words (.smi extRegCtrl) = ctrlWord bank offset := by
  rw [put_ctrlWord]
  exact commanded_ctrl h.words bank offset

/-- A read whose accesses are answered: it does not wait, and returns the read-data word. -/
theorem bankRd_goes (h0 : bank ≠ bankSmi) (h5 : bank ≤ bankInstrument) (hg₀ : link.Goes s.hw.accesses)
    (hg₁ : link.Goes (s.hw.accesses + 1)) (hg₂ : link.Goes (s.hw.accesses + 2)) :
    phyExtBankRegRd (smiPhy link).toBus n bank offset s = .ok (s.hw.words (.smi extRegRdData)) { s with
      hw := ⟨commanded s.hw.words bank offset, pollsLeft (link.polls s.hw.accesses), s.hw.accesses + 3⟩ } := by
  have hbit : ((s.hw.put link extRegCtrl (ctrlWord bank offset)).words (.smi extRegCtrl)).getLsbD 12 = false := by
    rw [put_ctrlWord_ctrl]
    exact ctrlWord_not_reads bank offset
  have hdata : commanded s.hw.words bank offset (.smi extRegRdData) = s.hw.words (.smi extRegRdData) :=
    commanded_of_ne _ (by decide) (by simp)
  rw [extBankRegRd_bank _ h0 h5, bind_of_ok (directWr_goes hg₀), bind_of_ok (awaitRead_goes (s := { s with
      hw := s.hw.put link extRegCtrl (ctrlWord bank offset) }) hbit hg₁),
    directRd_goes hg₂]
  simp [put_ctrlWord, Phy.polled, Phy.shown, hdata, show extRegRdData ≠ extRegCtrl by decide]

variable (offset) (n) in
open Classical in
/-- A read that fails at one of its accesses. -/
theorem bankRd_fails (h0 : bank ≠ bankSmi) (h5 : bank ≤ bankInstrument) (hg : ¬(link.Goes s.hw.accesses ∧
    link.Goes (s.hw.accesses + 1) ∧ link.Goes (s.hw.accesses + 2))) :
    ∃ rc t, phyExtBankRegRd (smiPhy link).toBus n bank offset s = .error (.access rc) t ∧
      t.hw.words = if link.Reaches s.hw.accesses then commanded s.hw.words bank offset else s.hw.words := by
  have hbit : ((s.hw.put link extRegCtrl (ctrlWord bank offset)).words (.smi extRegCtrl)).getLsbD 12 = false := by
    rw [put_ctrlWord_ctrl]
    exact ctrlWord_not_reads bank offset
  rw [extBankRegRd_bank _ h0 h5]
  by_cases hg₀ : link.Goes s.hw.accesses
  · rw [bind_of_ok (directWr_goes hg₀), if_pos hg₀.reaches]
    by_cases hg₁ : link.Goes (s.hw.accesses + 1)
    · have hg₂ : ¬link.Goes (s.hw.accesses + 2) := fun hg₂ => hg ⟨hg₀, hg₁, hg₂⟩
      obtain ⟨rc, hrc⟩ := directRd_fails extRegRdData (s := { s with
        hw := (s.hw.put link extRegCtrl (ctrlWord bank offset)).polled }) hg₂
      rw [bind_of_ok (awaitRead_goes (s := { s with
      hw := s.hw.put link extRegCtrl (ctrlWord bank offset) }) hbit hg₁)]
      exact ⟨rc, _, hrc, rfl⟩
    · obtain ⟨rc, hrc⟩ := awaitClear_fails (s := { s with hw := s.hw.put link extRegCtrl (ctrlWord bank offset) })
        n readCtrl hg₁
      exact ⟨rc, _, bind_of_error hrc, rfl⟩
  · obtain ⟨rc, t, hrc, ht⟩ := directWr_fails extRegCtrl (ctrlWord bank offset) hg₀
    exact ⟨rc, t, bind_of_error hrc, ht⟩

open Classical in
theorem bankRd_words (h0 : bank ≠ bankSmi) (h5 : bank ≤ bankInstrument) :
    (final (phyExtBankRegRd (smiPhy link).toBus n bank offset) s).hw.words =
      if link.Reaches s.hw.accesses then commanded s.hw.words bank offset else s.hw.words := by
  by_cases hg : link.Goes s.hw.accesses ∧ link.Goes (s.hw.accesses + 1) ∧ link.Goes (s.hw.accesses + 2)
  · rw [final, bankRd_goes h0 h5 hg.1 hg.2.1 hg.2.2, if_pos hg.1.reaches]
  · obtain ⟨rc, t, hrc, ht⟩ := bankRd_fails offset n h0 h5 hg
    rw [final, hrc]
    exact ht

variable (link) in
theorem ends_awaitWrite {m : Words} (hm : (m (.smi extRegCtrl)).getLsbD 11 = true) (n : Nat) :
    Ends (fun t : Dev C Phy => t.hw.words = m) (awaitClear (smiPhy link).toBus extRegCtrl wrtCtrl n) (fun _ t => t.hw.words = m ∧ t.hw.busy = some 0)
      fun t => t.hw.words = m := by
  refine Ends.bind
    (Q := fun regdata t => t.hw.words = m ∧ (regdata &&& wrtCtrl = 0#16 → t.hw.busy = some 0)) ?_ fun regdata => ?_
  · rintro t ht
    by_cases hg : link.Goes t.hw.accesses
    · refine Or.inl ⟨_, _, ctrlRd_goes hg, ht, fun hclear => ?_⟩
      have hidle := (shown_ctrl_writes (by rw [ht]; exact hm)).mp hclear
      simp [Phy.polled, hidle, pollsLeft]
    · obtain ⟨rc, hrc⟩ := directRd_fails extRegCtrl hg
      exact Or.inr ⟨_, _, hrc, ht⟩
  · refine (ends_poll_writing hm n regdata).bind fun p => ?_
    exact (Ends.failIf fun t ht _ => ht.1).weaken (fun _ t ht => ht.1) fun t ht => ht

/-- The polls of a write last as long as they are answered and find the busy bit set. -/
theorem awaitWrite_stuck_iff (hw : (s.hw.words (.smi extRegCtrl)).getLsbD 11 = true) (n : Nat) :
    errorOf (awaitClear (smiPhy link).toBus extRegCtrl wrtCtrl n) s = some .stuck ↔
      ∀ k < n + 1, link.Goes (s.hw.accesses + k) ∧ s.hw.busy.map (· - k) ≠ some 0 := by
  have hlasts := lasts_writing_iff link hw (n + 1) (wrtCtrl, 201)
  have hfirst : writing (wrtCtrl, 201) = true := by decide
  rw [← (hlasts.trans (and_iff_right hfirst))]
  by_cases hg : link.Goes s.hw.accesses
  · have hrest : errorOf (awaitClear (smiPhy link).toBus extRegCtrl wrtCtrl n) s = errorOf
        (pollWhile .stuck writing (pollPass link) n (s.hw.shown extRegCtrl, 200) >>= fun p => failIf (p.2 = 0#16) Rc.error)
        { s with hw := s.hw.polled } := by
      simp only [errorOf, awaitClear, bind_of_ok (ctrlRd_goes hg)]
      rfl
    rw [hrest, errorOf_bind_iff (fun p t => by simp [errorOf_failIf]), pollWhile_stuck_iff pollPass_not_stuck]
    have hpass := pollPass_goes (p := (wrtCtrl, 201)) hg
    constructor
    · exact fun hl => ⟨hfirst, _, _, hpass, hl⟩
    · rintro ⟨-, b, t, hb, hl⟩
      cases hpass.symm.trans hb
      exact hl
  · obtain ⟨rc, hrc⟩ := directRd_fails extRegCtrl hg
    obtain ⟨rc', hpass⟩ := pollPass_fails (p := (wrtCtrl, 201)) hg
    have hrun : awaitClear (smiPhy link).toBus extRegCtrl wrtCtrl n s = .error (.access rc) _ := bind_of_error hrc
    simp only [errorOf, hrun, Option.some.injEq, reduceCtorEq, false_iff]
    rintro ⟨-, b, t, hb, -⟩
    cases hpass.symm.trans hb

open Classical in
/-- The words after a write, however it ends: of the accesses, only the data word and the command count. -/
theorem bankWr_words {v : BitVec 16} (h0 : bank ≠ bankSmi) (h5 : bank ≤ bankInstrument) :
    (final (phyExtBankRegWr (smiPhy link).toBus n bank offset v) s).hw.words =
      if link.Goes s.hw.accesses then
        if link.Reaches (s.hw.accesses + 1) then commanded (staged s.hw.words v) bank offset else staged s.hw.words v
      else if link.Reaches s.hw.accesses then staged s.hw.words v else s.hw.words := by
  rw [extBankRegWr_bank _ h0 h5]
  by_cases hg₀ : link.Goes s.hw.accesses
  · rw [if_pos hg₀, final, bind_of_ok (directWr_goes hg₀)]
    by_cases hg₁ : link.Goes (s.hw.accesses + 1)
    · rw [if_pos hg₁.reaches, bind_of_ok (directWr_goes hg₁)]
      have hctrl : ((s.hw.put link extRegWrData v).put link extRegCtrl (ctrlWord bank offset)).words (.smi extRegCtrl) =
          ctrlWord bank offset := put_ctrlWord_ctrl _
      rcases ends_awaitWrite link (by rw [hctrl]; exact ctrlWord_writes bank offset) n
          { s with hw := (s.hw.put link extRegWrData v).put link extRegCtrl (ctrlWord bank offset) } rfl with
        ⟨a, t, hok, ht, -⟩ | ⟨e, t, herr, ht⟩
      · rw [hok]
        exact ht
      · rw [herr]
        exact ht
    · obtain ⟨rc, t, hrc, ht⟩ := directWr_fails (s := { s with hw := s.hw.put link extRegWrData v })
        extRegCtrl (ctrlWord bank offset) hg₁
      rw [bind_of_error hrc]
      exact ht
  · obtain ⟨rc, t, hrc, ht⟩ := directWr_fails extRegWrData v hg₀
    rw [if_neg hg₀, final, bind_of_error hrc]
    exact ht

theorem bankWr_ok {v : BitVec 16} {s' : Dev C Phy} (h0 : bank ≠ bankSmi) (h5 : bank ≤ bankInstrument)
    (hok : phyExtBankRegWr (smiPhy link).toBus n bank offset v s = .ok () s') :
    s'.hw.words = commanded (staged s.hw.words v) bank offset ∧ s'.hw.busy = some 0 := by
  rw [extBankRegWr_bank _ h0 h5] at hok
  by_cases hg₀ : link.Goes s.hw.accesses
  · rw [bind_of_ok (directWr_goes hg₀)] at hok
    by_cases hg₁ : link.Goes (s.hw.accesses + 1)
    · rw [bind_of_ok (directWr_goes hg₁)] at hok
      exact (ends_awaitWrite link (by rw [commanded_ctrl]; exact ctrlWord_writes bank offset) n).ok rfl hok
    · obtain ⟨rc, t, hrc, -⟩ := directWr_fails (s := { s with hw := s.hw.put link extRegWrData v })
        extRegCtrl (ctrlWord bank offset) hg₁
      rw [bind_of_error hrc] at hok
      cases hok
  · obtain ⟨rc, t, hrc, -⟩ := directWr_fails extRegWrData v hg₀
    rw [bind_of_error hrc] at hok
    cases hok

/-- A write is still running after `n` polls when its accesses are answered and the busy bit has not gone. -/
theorem bankWr_stuck_iff {v : BitVec 16} (h0 : bank ≠ bankSmi) (h5 : bank ≤ bankInstrument) :
    errorOf (phyExtBankRegWr (smiPhy link).toBus n bank offset v) s = some .stuck ↔
      link.Goes s.hw.accesses ∧ link.Goes (s.hw.accesses + 1) ∧ ∀ k < n + 1, link.Goes (s.hw.accesses + 2 + k) ∧
        (link.polls (s.hw.accesses + 1)).map (· - k) ≠ some 0 := by
  rw [extBankRegWr_bank _ h0 h5]
  by_cases hg₀ : link.Goes s.hw.accesses
  · by_cases hg₁ : link.Goes (s.hw.accesses + 1)
    · have hput := put_ctrlWord link bank offset (s.hw.put link extRegWrData v)
      have hrun : errorOf (do
          phyDirectRegWr (smiPhy link).toBus extRegWrData v
          phyDirectRegWr (smiPhy link).toBus extRegCtrl (ctrlWord bank offset)
          awaitClear (smiPhy link).toBus extRegCtrl wrtCtrl n) s = errorOf (awaitClear (smiPhy link).toBus extRegCtrl wrtCtrl n)
            { s with hw := (s.hw.put link extRegWrData v).put link extRegCtrl (ctrlWord bank offset) } := by
        simp only [errorOf, bind_of_ok (directWr_goes hg₀), bind_of_ok (directWr_goes (s := { s with
          hw := s.hw.put link extRegWrData v }) hg₁)]
      rw [hrun, awaitWrite_stuck_iff (by rw [put_ctrlWord_ctrl]; exact ctrlWord_writes bank offset), hput]
      simp only [hg₀, hg₁, true_and]
      rfl
    · obtain ⟨rc, t, hrc, -⟩ := directWr_fails (s := { s with hw := s.hw.put link extRegWrData v })
        extRegCtrl (ctrlWord bank offset) hg₁
      simp [errorOf, bind_of_ok (directWr_goes hg₀), bind_of_error hrc, hg₁]
  · obtain ⟨rc, t, hrc, -⟩ := directWr_fails extRegWrData v hg₀
    simp [errorOf, bind_of_error hrc, hg₀]

end Bank

/-! ## The memory -/

/-- A register as the accesses name it; the control register of the window is not part of the memory. -/
structure Address where
  bank : BitVec 16
  offset : BitVec 8
  memory : bank = bankSmi → offset ≠ extRegCtrl

def Address.reg (a : Address) : Reg :=
  if a.bank = bankSmi then .smi a.offset else .bank (a.bank.setWidth 3) a.offset

/-- The registers through which the other banks are reached. -/
def Reg.Window : Reg → Prop
  | .smi offset => offset = extRegCtrl ∨ offset = extRegRdData ∨ offset = extRegWrData
  | .bank _ _ => False

section Memory

variable (link : Link) (a : Address) (s : Dev C Phy)

/-- A read ends within 200 polls, changes no register, and returns the register when the operation is over. -/
structure ReadMeets : Prop where
  ends : errorOf (phyExtBankRegRd (smiPhy link).toBus 200 a.bank a.offset) s ≠ some .stuck
  keeps : ∀ n r, ¬r.Window →
    (final (phyExtBankRegRd (smiPhy link).toBus n a.bank a.offset) s).hw.words r = s.hw.words r
  returns : ∀ n v s', phyExtBankRegRd (smiPhy link).toBus n a.bank a.offset s = .ok v s' →
    v = s.hw.words a.reg ∧ (a.bank ≠ bankSmi → s'.hw.busy = some 0)

/-- A write ends within 200 polls, changes no other register, and returns when the register holds the word and the
operation is over. -/
structure WriteMeets (v : BitVec 16) : Prop where
  ends : errorOf (phyExtBankRegWr (smiPhy link).toBus 200 a.bank a.offset v) s ≠ some .stuck
  keeps : ∀ n r, ¬r.Window → r ≠ a.reg →
    (final (phyExtBankRegWr (smiPhy link).toBus n a.bank a.offset v) s).hw.words r = s.hw.words r
  stores : ∀ n s', phyExtBankRegWr (smiPhy link).toBus n a.bank a.offset v s = .ok () s' →
    s'.hw.words a.reg = v ∧ (a.bank ≠ bankSmi → s'.hw.busy = some 0)

/-- A read-modify-write changes only the masked bits. -/
structure ModifyMeets (value mask : BitVec 16) : Prop where
  keeps : ∀ n r, ¬r.Window → r ≠ a.reg →
    (final (phyReadModWriteRegister (smiPhy link).toBus n a.bank a.offset value mask) s).hw.words r = s.hw.words r
  masked : ∀ n, (final (phyReadModWriteRegister (smiPhy link).toBus n a.bank a.offset value mask) s).hw.words a.reg &&&
    ~~~mask = s.hw.words a.reg &&& ~~~mask

/-- The stale words of the window happen to be the register's own, and the operation is over at the first poll. -/
def ReadCond : Prop := a.bank ≠ bankSmi → a.bank ≤ bankInstrument →
  (link.Reaches s.hw.accesses → s.hw.words (.smi extRegWrData) = s.hw.words a.reg) ∧
  (link.Goes s.hw.accesses → link.Goes (s.hw.accesses + 1) → link.Goes (s.hw.accesses + 2) →
    (∃ N ≤ 1, link.polls s.hw.accesses = some N) ∧ s.hw.words (.smi extRegRdData) = s.hw.words a.reg)

/-- The busy bit goes, or a poll fails, within 200 polls; a direct write is no soft reset. -/
def WriteCond (v : BitVec 16) : Prop :=
  if a.bank = bankSmi then link.Goes s.hw.accesses → latched a.offset v = v
  else a.bank ≤ bankInstrument → link.Goes s.hw.accesses → link.Goes (s.hw.accesses + 1) →
    (∃ N ≤ 200, link.polls (s.hw.accesses + 1) = some N) ∨ ∃ k ≤ 200, ¬link.Goes (s.hw.accesses + 2 + k)

/-- The accesses of a read-modify-write of a bank register are carried out, up to the command of the write. -/
def ModifyGoes (n : Nat) : Prop :=
  link.Goes n ∧ link.Goes (n + 1) ∧ link.Goes (n + 2) ∧ link.Goes (n + 3) ∧ link.Reaches (n + 4)

/-- Outside the mask, the word that is stored is the register's: it is made of `value` and the word that was read, or is
the write-data word when the call fails on the way. -/
def ModifyCond (value mask : BitVec 16) : Prop :=
  if a.bank = bankSmi then link.Goes s.hw.accesses → link.Reaches (s.hw.accesses + 1) →
    latched a.offset (modified (s.hw.words a.reg) value mask) &&& ~~~mask = s.hw.words a.reg &&& ~~~mask
  else a.bank ≤ bankInstrument → link.Reaches s.hw.accesses →
    (ModifyGoes link s.hw.accesses →
      (s.hw.words (.smi extRegRdData) ||| value) &&& ~~~mask = s.hw.words a.reg &&& ~~~mask) ∧
    (¬ModifyGoes link s.hw.accesses → s.hw.words (.smi extRegWrData) &&& ~~~mask = s.hw.words a.reg &&& ~~~mask)

variable {link} {a} {s} {n : Nat}

theorem Address.reg_smi (h0 : a.bank = bankSmi) : a.reg = .smi a.offset := if_pos h0

theorem Address.reg_bank (h0 : a.bank ≠ bankSmi) : a.reg = .bank (a.bank.setWidth 3) a.offset := if_neg h0

theorem directRd_not_stuck (offset : BitVec 8) :
    errorOf (phyDirectRegRd (smiPhy link).toBus offset) s ≠ some .stuck := by
  by_cases hg : link.Goes s.hw.accesses
  · simp [errorOf, directRd_goes hg]
  · obtain ⟨rc, hrc⟩ := directRd_fails offset hg
    simp [errorOf, hrc]

theorem directWr_not_stuck (offset : BitVec 8) (v : BitVec 16) :
    errorOf (phyDirectRegWr (smiPhy link).toBus offset v) s ≠ some .stuck := by
  by_cases hg : link.Goes s.hw.accesses
  · simp [errorOf, directWr_goes hg]
  · obtain ⟨rc, t, hrc, -⟩ := directWr_fails offset v hg
    simp [errorOf, hrc]

theorem window_ne {r : Reg} (hr : ¬r.Window) : r ≠ .smi extRegCtrl ∧ r ≠ .smi extRegWrData := by
  constructor
  · rintro rfl
    exact hr (Or.inl rfl)
  · rintro rfl
    exact hr (Or.inr (Or.inr rfl))

theorem readMeets_smi (h0 : a.bank = bankSmi) : ReadMeets link a s := by
  have hcall : ∀ n, phyExtBankRegRd (C := C) (smiPhy link).toBus n a.bank a.offset =
      phyDirectRegRd (smiPhy link).toBus a.offset := fun n => by rw [phyExtBankRegRd, if_pos h0]
  refine ⟨by rw [hcall]; exact directRd_not_stuck a.offset, fun n r _ => by rw [hcall, directRd_words], ?_⟩
  intro n v s' hok
  rw [hcall] at hok
  refine ⟨?_, fun h => absurd h0 h⟩
  by_cases hg : link.Goes s.hw.accesses
  · rw [directRd_goes hg] at hok
    cases hok
    simp [Phy.shown, a.memory h0, Address.reg_smi h0]
  · obtain ⟨rc, hrc⟩ := directRd_fails a.offset hg
    rw [hrc] at hok
    cases hok

theorem readMeets_bank_iff (h0 : a.bank ≠ bankSmi) (h5 : a.bank ≤ bankInstrument) :
    ReadMeets link a s ↔ ReadCond link a s := by
  have hreg : a.reg = .bank (a.bank.setWidth 3) a.offset := Address.reg_bank h0
  have hnot : ¬a.reg.Window := by rw [hreg]; exact fun h => h
  constructor
  · intro h _ _
    constructor
    · intro hr
      have hkeep := h.keeps 200 a.reg hnot
      rw [hreg]
      rwa [bankRd_words h0 h5, if_pos hr, hreg, commanded_bank] at hkeep
    · intro hg₀ hg₁ hg₂
      obtain ⟨hv, hbusy⟩ := h.returns 200 _ _ (bankRd_goes h0 h5 hg₀ hg₁ hg₂)
      refine ⟨?_, hv⟩
      cases hp : link.polls s.hw.accesses with
      | none => simp [pollsLeft, hp] at hbusy; exact absurd hbusy h0
      | some N =>
        simp [pollsLeft, hp] at hbusy
        exact ⟨N, Nat.sub_eq_zero_iff_le.mp (hbusy h0), rfl⟩
  · intro h
    obtain ⟨hdata, hgoes⟩ := h h0 h5
    refine ⟨?_, fun n r hr => ?_, fun n v s' hok => ?_⟩
    · by_cases hg : link.Goes s.hw.accesses ∧ link.Goes (s.hw.accesses + 1) ∧ link.Goes (s.hw.accesses + 2)
      · simp [errorOf, bankRd_goes h0 h5 hg.1 hg.2.1 hg.2.2]
      · obtain ⟨rc, t, hrc, -⟩ := bankRd_fails a.offset 200 h0 h5 hg
        simp [errorOf, hrc]
    · rw [bankRd_words h0 h5]
      split
      · next hreach =>
        by_cases hra : r = a.reg
        · rw [hra, hreg, commanded_bank, ← hreg]
          exact hdata hreach
        · exact commanded_of_ne _ (window_ne hr).1 (fun he => hra (he.trans hreg.symm))
      · rfl
    · by_cases hg : link.Goes s.hw.accesses ∧ link.Goes (s.hw.accesses + 1) ∧ link.Goes (s.hw.accesses + 2)
      · rw [bankRd_goes h0 h5 hg.1 hg.2.1 hg.2.2] at hok
        cases hok
        obtain ⟨⟨N, hN, hp⟩, hv⟩ := hgoes hg.1 hg.2.1 hg.2.2
        refine ⟨hv, fun _ => ?_⟩
        simp only [hp, pollsLeft, Option.map_some, Option.some.injEq]
        omega
      · obtain ⟨rc, t, hrc, -⟩ := bankRd_fails a.offset n h0 h5 hg
        rw [hrc] at hok
        cases hok

theorem readMeets_iff : ReadMeets link a s ↔ ReadCond link a s := by
  by_cases h0 : a.bank = bankSmi
  · exact ⟨fun _ h => absurd h0 h, fun _ => readMeets_smi h0⟩
  · by_cases h5 : a.bank ≤ bankInstrument
    · exact readMeets_bank_iff h0 h5
    · have hcall : ∀ n, phyExtBankRegRd (C := C) (smiPhy link).toBus n a.bank a.offset = throw .errParm :=
        fun n => by rw [phyExtBankRegRd, if_neg h0, if_neg h5]
      refine ⟨fun _ _ h => absurd h h5, fun _ => ⟨?_, fun n r _ => ?_, fun n v s' hok => ?_⟩⟩
      · rw [hcall]
        simp
      · rw [hcall, final_throw]
      · rw [hcall] at hok
        cases hok

theorem write_smi (h0 : a.bank = bankSmi) (m : Words) (v : BitVec 16) :
    m.write a.offset v = Function.update m a.reg (latched a.offset v) := by
  rw [Words.write, if_neg (a.memory h0), Address.reg_smi h0]

theorem writeMeets_smi_iff {v : BitVec 16} (h0 : a.bank = bankSmi) : WriteMeets link a s v ↔ WriteCond link a s v := by
  have hcall : ∀ n, phyExtBankRegWr (C := C) (smiPhy link).toBus n a.bank a.offset v =
      phyDirectRegWr (smiPhy link).toBus a.offset v := fun n => by rw [phyExtBankRegWr, if_pos h0]
  have hstored : ∀ b k, (⟨s.hw.words.write a.offset v, b, k⟩ : Phy).words a.reg = latched a.offset v := fun b k => by
    simp [write_smi h0]
  rw [WriteCond, if_pos h0]
  constructor
  · intro h hg
    have hv := (h.stores 200 _ (by rw [hcall]; exact directWr_goes hg)).1
    exact (hstored _ _).symm.trans hv
  · intro h
    refine ⟨by rw [hcall]; exact directWr_not_stuck a.offset v, fun n r _ hra => ?_, fun n s' hok => ?_⟩
    · rw [hcall, directWr_words link]
      split
      · rw [write_smi h0, Function.update_of_ne hra]
      · rfl
    · rw [hcall] at hok
      refine ⟨?_, fun hne => absurd h0 hne⟩
      by_cases hg : link.Goes s.hw.accesses
      · rw [directWr_goes hg] at hok
        cases hok
        exact (hstored _ _).trans (h hg)
      · obtain ⟨rc, t, hrc, -⟩ := directWr_fails a.offset v hg
        rw [hrc] at hok
        cases hok

theorem writeMeets_bank_iff {v : BitVec 16} (h0 : a.bank ≠ bankSmi) (h5 : a.bank ≤ bankInstrument) :
    WriteMeets link a s v ↔ WriteCond link a s v := by
  have hreg : a.reg = .bank (a.bank.setWidth 3) a.offset := Address.reg_bank h0
  rw [WriteCond, if_neg h0]
  constructor
  · intro h _ hg₀ hg₁
    by_contra hno
    simp only [not_or, not_exists, not_and, not_not] at hno
    refine h.ends ((bankWr_stuck_iff h0 h5).mpr ⟨hg₀, hg₁, fun k hk => ⟨hno.2 k (by omega), fun hz => ?_⟩⟩)
    obtain ⟨N, hN, hNk⟩ := Option.map_eq_some_iff.mp hz
    exact hno.1 N (by omega) hN
  · intro h
    refine ⟨fun hstuck => ?_, fun n r hr hra => ?_, fun n s' hok => ?_⟩
    · obtain ⟨hg₀, hg₁, hlasts⟩ := (bankWr_stuck_iff h0 h5).mp hstuck
      rcases h h5 hg₀ hg₁ with ⟨N, hN, hp⟩ | ⟨k, hk, hfail⟩
      · exact (hlasts N (by omega)).2 (by simp [hp])
      · exact hfail (hlasts k (by omega)).1
    · have hkeep : ∀ m : Words, commanded m a.bank a.offset r = m r :=
        fun m => commanded_of_ne m (window_ne hr).1 fun he => hra (he.trans hreg.symm)
      have hstage := staged_of_ne s.hw.words v (window_ne hr).2
      rw [bankWr_words h0 h5]
      split
      · split
        · rw [hkeep, hstage]
        · exact hstage
      · split
        · exact hstage
        · rfl
    · obtain ⟨hwords, hbusy⟩ := bankWr_ok h0 h5 hok
      refine ⟨?_, fun _ => hbusy⟩
      rw [hwords, hreg, commanded_bank, staged_eq, Function.update_self]

theorem writeMeets_iff {v : BitVec 16} : WriteMeets link a s v ↔ WriteCond link a s v := by
  by_cases h0 : a.bank = bankSmi
  · exact writeMeets_smi_iff h0
  · by_cases h5 : a.bank ≤ bankInstrument
    · exact writeMeets_bank_iff h0 h5
    · have hcall : ∀ n, phyExtBankRegWr (C := C) (smiPhy link).toBus n a.bank a.offset v = throw .errParm :=
        fun n => by rw [phyExtBankRegWr, if_neg h0, if_neg h5]
      rw [WriteCond, if_neg h0]
      refine ⟨fun _ h => absurd h h5, fun _ => ⟨?_, fun n r _ _ => ?_, fun n s' hok => ?_⟩⟩
      · rw [hcall]
        simp
      · rw [hcall, final_throw]
      · rw [hcall] at hok
        cases hok

open Classical in
/-- The words after a direct read-modify-write. -/
theorem modify_smi_words {value mask : BitVec 16} (h0 : a.bank = bankSmi) :
    (final (phyReadModWriteRegister (smiPhy link).toBus n a.bank a.offset value mask) s).hw.words =
      if link.Goes s.hw.accesses ∧ link.Reaches (s.hw.accesses + 1)
      then Function.update s.hw.words a.reg (latched a.offset (modified (s.hw.words a.reg) value mask))
      else s.hw.words := by
  have hcall : phyReadModWriteRegister (C := C) (smiPhy link).toBus n a.bank a.offset value mask = (do
      let val ← phyDirectRegRd (smiPhy link).toBus a.offset
      phyDirectRegWr (smiPhy link).toBus a.offset (modified val value mask)) := by
    simp only [phyReadModWriteRegister, phyExtBankRegRd, phyExtBankRegWr, if_pos h0]
  rw [hcall]
  by_cases hg : link.Goes s.hw.accesses
  · have hval : s.hw.shown a.offset = s.hw.words a.reg := by simp [Phy.shown, a.memory h0, Address.reg_smi h0]
    have hrest := directWr_words link a.offset (modified (s.hw.words a.reg) value mask)
      (s := { s with hw := { s.hw with accesses := s.hw.accesses + 1, busy := s.hw.busy } })
    rw [final_bind, directRd_goes hg, if_neg (a.memory h0), hval]
    simp only [hg, true_and]
    rw [hrest, write_smi h0]
  · obtain ⟨rc, hrc⟩ := directRd_fails a.offset hg
    rw [final_bind, hrc]
    simp [hg]

open Classical in
/-- The words after a read-modify-write of a bank register, which the read has overwritten already. -/
theorem modify_bank_words {value mask : BitVec 16} (h0 : a.bank ≠ bankSmi) (h5 : a.bank ≤ bankInstrument) {r : Reg}
    (hr : ¬r.Window) : (final (phyReadModWriteRegister (smiPhy link).toBus n a.bank a.offset value mask) s).hw.words r =
      if r = a.reg ∧ link.Reaches s.hw.accesses then
        if ModifyGoes link s.hw.accesses then modified (s.hw.words (.smi extRegRdData)) value mask
        else s.hw.words (.smi extRegWrData)
      else s.hw.words r := by
  have hreg : a.reg = .bank (a.bank.setWidth 3) a.offset := Address.reg_bank h0
  have hcmd : ∀ m : Words, commanded m a.bank a.offset r = if r = a.reg then m (.smi extRegWrData) else m r := by
    intro m
    split
    · next hra => rw [hra, hreg, commanded_bank]
    · next hra => exact commanded_of_ne m (window_ne hr).1 fun he => hra (he.trans hreg.symm)
  by_cases hg : link.Goes s.hw.accesses ∧ link.Goes (s.hw.accesses + 1) ∧ link.Goes (s.hw.accesses + 2)
  · rw [phyReadModWriteRegister, final_bind, bankRd_goes h0 h5 hg.1 hg.2.1 hg.2.2]
    have hword : ∀ m : Words, staged m (modified (s.hw.words (.smi extRegRdData)) value mask) (.smi extRegWrData) =
        modified (s.hw.words (.smi extRegRdData)) value mask := fun m => by rw [staged_eq, Function.update_self]
    simp only [bankWr_words h0 h5, ModifyGoes, hg, true_and, hg.1.reaches, and_true]
    by_cases hg₃ : link.Goes (s.hw.accesses + 3)
    · by_cases hr₄ : link.Reaches (s.hw.accesses + 4)
      · simp only [hg₃, hr₄, hcmd, hword, staged_of_ne _ _ (window_ne hr).2, if_true, and_true]
        by_cases hra : r = a.reg
        · simp [hra]
        · simp [hra]
      · simp [hg₃, hr₄, hcmd, staged_of_ne _ _ (window_ne hr).2]
    · by_cases hr₃ : link.Reaches (s.hw.accesses + 3)
      · simp [hg₃, hr₃, hcmd, staged_of_ne _ _ (window_ne hr).2]
      · simp [hg₃, hr₃, hcmd]
  · have hno : ¬ModifyGoes link s.hw.accesses := fun h => hg ⟨h.1, h.2.1, h.2.2.1⟩
    obtain ⟨rc, t, hrc, ht⟩ := bankRd_fails a.offset n h0 h5 hg
    rw [phyReadModWriteRegister, final_bind, hrc, if_neg hno]
    simp only [ht]
    by_cases hreach : link.Reaches s.hw.accesses
    · simp [hreach, hcmd]
    · simp [hreach]

/-- Outside the mask, `value` is not masked out. -/
theorem modified_and_not (val value mask : BitVec 16) :
    modified val value mask &&& ~~~mask = (val ||| value) &&& ~~~mask := by
  rw [modified_eq]
  ext b hb
  simp only [BitVec.getElem_and, BitVec.getElem_or, BitVec.getElem_not]
  cases mask[b] <;> simp

theorem modifyMeets_iff {value mask : BitVec 16} : ModifyMeets link a s value mask ↔ ModifyCond link a s value mask := by
  by_cases h0 : a.bank = bankSmi
  · rw [ModifyCond, if_pos h0]
    constructor
    · intro h hg hr
      have hmask := h.masked 200
      rwa [modify_smi_words h0, if_pos ⟨hg, hr⟩, Function.update_self] at hmask
    · intro h
      refine ⟨fun n r _ hra => ?_, fun n => ?_⟩
      · rw [modify_smi_words h0]
        split
        · rw [Function.update_of_ne hra]
        · rfl
      · rw [modify_smi_words h0]
        split
        · next hgo => rw [Function.update_self, h hgo.1 hgo.2]
        · rfl
  · by_cases h5 : a.bank ≤ bankInstrument
    · have hnot : ¬a.reg.Window := by rw [Address.reg_bank h0]; exact fun h => h
      rw [ModifyCond, if_neg h0]
      constructor
      · intro h _ hr
        have hmask := h.masked 200
        rw [modify_bank_words h0 h5 hnot, if_pos ⟨rfl, hr⟩] at hmask
        constructor
        · intro hgo
          rwa [if_pos hgo, modified_and_not] at hmask
        · intro hno
          rwa [if_neg hno] at hmask
      · intro h
        refine ⟨fun n r hr hra => ?_, fun n => ?_⟩
        · rw [modify_bank_words h0 h5 hr, if_neg fun hc => hra hc.1]
        · rw [modify_bank_words h0 h5 hnot]
          by_cases hr : link.Reaches s.hw.accesses
          · obtain ⟨hyes, hno⟩ := h h5 hr
            rw [if_pos ⟨rfl, hr⟩]
            split
            · next hgo => rw [modified_and_not, hyes hgo]
            · next hgo => exact hno hgo
          · rw [if_neg fun hc => hr hc.2]
    · have hcall : ∀ n, phyReadModWriteRegister (C := C) (smiPhy link).toBus n a.bank a.offset value mask =
          (throw .errParm >>= fun val => phyExtBankRegWr (smiPhy link).toBus n a.bank a.offset (modified val value mask)) :=
        fun n => by rw [phyReadModWriteRegister, phyExtBankRegRd, if_neg h0, if_neg h5]
      have hfinal : ∀ n, final (phyReadModWriteRegister (C := C) (smiPhy link).toBus n a.bank a.offset value mask) s = s :=
        fun n => by rw [hcall]; rfl
      rw [ModifyCond, if_neg h0]
      exact ⟨fun _ h => absurd h h5, fun _ => ⟨fun n r _ _ => by rw [hfinal], fun n => by rw [hfinal]⟩⟩

end Memory

/-- When the accesses of the bank registers do what they are for. -/
theorem bank_access (link : Link) (a : Address) (s : Dev C Phy) :
    (ReadMeets link a s ↔ ReadCond link a s) ∧ (∀ v, WriteMeets link a s v ↔ WriteCond link a s v) ∧
      ∀ value mask, ModifyMeets link a s value mask ↔ ModifyCond link a s value mask :=
  ⟨readMeets_iff, fun _ => writeMeets_iff, fun _ _ => modifyMeets_iff⟩

/-! ### A register that is read, and a PHY that stays busy -/

/-- `MISC_WKP_PRT_CTL1` -/
def benchAddress : Address := ⟨bankMisc, 0x24, by decide⟩

/-- One bank register holds `0x1234`; everything else is 0. -/
def benchPhy : Dev Unit Phy := ⟨(), ⟨fun r => if r = .bank 1 0x24 then 0x1234 else 0, some 0, 0⟩⟩

/-- The read of a ready PHY clears the register; a write to a PHY that stays busy goes on for ever. -/
theorem not_bank_access : ¬(∀ (link : Link) (a : Address) (s : Dev Unit Phy), ReadMeets link a s) ∧
    ¬(∀ (link : Link) (a : Address) (s : Dev Unit Phy) (v : BitVec 16), WriteMeets link a s v) := by
  constructor
  · intro h
    have hkeep := (h (steadyLink (some 0)) benchAddress benchPhy).keeps 200 (.bank 1 0x24) (fun h => h)
    have hreg : (final (phyExtBankRegRd (smiPhy (steadyLink (some 0))).toBus 200 benchAddress.bank benchAddress.offset)
        benchPhy).hw.words (.bank 1 0x24) = 0 := rfl
    rw [hreg] at hkeep
    cases hkeep
  · intro h
    refine (h (steadyLink none) benchAddress benchPhy 0).ends ?_
    exact (bankWr_stuck_iff (by decide) (by decide)).mpr ⟨rfl, rfl, fun k _ => ⟨rfl, by simp [steadyLink]⟩⟩

end Lan80xx.Lan8770
