import Mathlib.Algebra.BigOperators.Group.List.Basic
import Mathlib.Algebra.Ring.Nat
import Lan80xx.Poe.Bus

/-!
# PoE controller: what the checksum detects

The last two bytes of a message are the sum of the other ones, the high byte first. `pd69200_check_sum_ok` rejects a
message only when both of them are wrong.

- `byteSum_set`: the sum when one byte changes;
- `checkSumOk_set`: a change of one byte before the checksum is found by the high byte of the sum alone;
- `check_sum_detects_iff`: which messages and changes the check is right about.
-/

namespace Lan80xx.Poe

/-! ## The sum -/

theorem foldl_add_toNat (l : List Byte) (n : Nat) :
    l.foldl (fun sum b => sum + b.toNat) n = n + (l.map BitVec.toNat).sum := by
  induction l generalizing n with
  | nil => rfl
  | cons b l ih =>
    rw [List.foldl_cons, ih, List.map_cons, List.sum_cons]
    omega

theorem byteSum_eq (buf : Msg) : byteSum buf = ((buf.toList.take 13).map BitVec.toNat).sum := by
  unfold byteSum
  rw [← Vector.foldl_toList, foldl_add_toNat, Nat.zero_add, Vector.toList_take]

theorem byteSum_lt (buf : Msg) : byteSum buf < 2 ^ 16 := by
  have hle : ((buf.toList.take 13).map BitVec.toNat).sum ≤ (buf.toList.take 13).length * 255 := by
    generalize buf.toList.take 13 = l
    induction l with
    | nil => exact Nat.zero_le _
    | cons b l ih =>
      have hb := b.isLt
      rw [List.map_cons, List.sum_cons, List.length_cons]
      omega
  have hlen : (buf.toList.take 13).length = 13 := by simp
  rw [byteSum_eq]
  omega

/-- The checksum itself is not summed. -/
theorem byteSum_set_of_le (buf : Msg) {i : Nat} (hi : i < 15) (h13 : 13 ≤ i) (b : Byte) :
    byteSum (buf.set i b hi) = byteSum buf := by
  rw [byteSum_eq, byteSum_eq, Vector.toList_set, List.take_set_of_le h13]

theorem sum_set_add (l : List Nat) {i : Nat} (hi : i < l.length) (n : Nat) :
    (l.set i n).sum + l[i] = l.sum + n := by
  have hset := List.sum_set l i n
  have hself := List.sum_set l i l[i]
  rw [List.set_getElem_self] at hself
  rw [hset, hself, if_pos hi, if_pos hi]
  omega

/-- The sum when one byte changes. -/
theorem byteSum_set (buf : Msg) {i : Nat} (hi : i < 13) (b : Byte) :
    byteSum (buf.set i b (by omega)) + buf[i].toNat = byteSum buf + b.toNat := by
  have hlen : i < ((buf.toList.take 13).map BitVec.toNat).length := by simpa using hi
  have hsum := sum_set_add _ hlen b.toNat
  rw [byteSum_eq, byteSum_eq, Vector.toList_set, List.take_set, List.map_set]
  simpa using hsum

theorem get_set_self (buf : Msg) (i : Fin 15) (b : Byte) : (buf.set i b i.isLt).get i = b :=
  Vector.getElem_set_self i.isLt

theorem get_set_ne (buf : Msg) {i : Nat} (hi : i < 15) (b : Byte) {j : Fin 15} (hij : i ≠ j) :
    (buf.set i b hi).get j = buf.get j :=
  Vector.getElem_set_ne hi j.isLt hij

/-! ## The check -/

/-- The last two bytes are the sum of the first thirteen, the high byte first. -/
def SumFits (buf : Msg) : Prop := (buf.get 13).toNat * 2 ^ 8 + (buf.get 14).toNat = byteSum buf

instance : DecidablePred SumFits := fun _ => inferInstanceAs (Decidable (_ = _))

theorem byte_eq_ofNat {b : Byte} {n : Nat} : b = BitVec.ofNat 8 n ↔ b.toNat = n % 2 ^ 8 := by
  rw [← BitVec.toNat_inj, BitVec.toNat_ofNat]

theorem checkSum_fst {buf : Msg} {b : Byte} : b = (checkSum buf).1 ↔ b.toNat = byteSum buf / 2 ^ 8 := by
  have hlt := byteSum_lt buf
  rw [checkSum, byte_eq_ofNat, Nat.mod_eq_of_lt (by omega)]

theorem checkSum_snd {buf : Msg} {b : Byte} : b = (checkSum buf).2 ↔ b.toNat = byteSum buf % 2 ^ 8 := byte_eq_ofNat

theorem sumFits_iff (buf : Msg) : SumFits buf ↔ buf.get 13 = (checkSum buf).1 ∧ buf.get 14 = (checkSum buf).2 := by
  have h₁₄ := (buf.get 14).isLt
  rw [checkSum_fst, checkSum_snd, SumFits]
  omega

theorem checkSumOk_iff (buf : Msg) :
    pd69200CheckSumOk buf ↔ buf.get 13 = (checkSum buf).1 ∨ buf.get 14 = (checkSum buf).2 := by
  simp only [pd69200CheckSumOk, decide_eq_true_eq, not_and_or, not_not]
  rfl

section Completed

variable (buf : Msg)

theorem byteSum_updateCheckSum : byteSum (pd69200UpdateCheckSum buf) = byteSum buf := by
  rw [pd69200UpdateCheckSum, byteSum_set_of_le _ _ (by decide), byteSum_set_of_le _ _ (by decide)]

theorem checkSum_updateCheckSum : checkSum (pd69200UpdateCheckSum buf) = checkSum buf := by
  rw [checkSum, byteSum_updateCheckSum, ← checkSum]

theorem updateCheckSum_fits : SumFits (pd69200UpdateCheckSum buf) := by
  rw [sumFits_iff, checkSum_updateCheckSum]
  exact ⟨(get_set_ne _ (by decide) _ (by decide)).trans (get_set_self _ 13 _), get_set_self _ 14 _⟩

/-- A completed message is accepted. -/
theorem checkSumOk_updateCheckSum : pd69200CheckSumOk (pd69200UpdateCheckSum buf) := by
  rw [checkSumOk_iff]
  exact Or.inl ((sumFits_iff _).mp (updateCheckSum_fits buf)).1

end Completed

/-- A change of one byte of the checksum is not found: the other byte is right. -/
theorem checkSumOk_set_of_le {buf : Msg} (hbuf : SumFits buf) {i : Nat} (hi : i < 15) (h13 : 13 ≤ i) (b : Byte) :
    pd69200CheckSumOk (buf.set i b hi) := by
  obtain ⟨h₁₃, h₁₄⟩ := (sumFits_iff _).mp hbuf
  rw [checkSumOk_iff, checkSum, byteSum_set_of_le _ hi h13, ← checkSum]
  rcases (by omega : i = 13 ∨ i = 14) with rfl | rfl
  · exact Or.inr ((get_set_ne buf hi b (by decide)).trans h₁₄)
  · exact Or.inl ((get_set_ne buf hi b (by decide)).trans h₁₃)

/-- A change of another byte always changes the low byte of the sum, and the message is rejected when it changes the high
byte as well. -/
theorem checkSumOk_set {buf : Msg} (hbuf : SumFits buf) {i : Nat} (hi : i < 13) {b : Byte} (hb : b ≠ buf[i]) :
    pd69200CheckSumOk (buf.set i b (by omega)) ↔
      byteSum (buf.set i b (by omega)) / 2 ^ 8 = byteSum buf / 2 ^ 8 := by
  have hsum := byteSum_set buf hi b
  have hne : b.toNat ≠ buf[i].toNat := fun h => hb (BitVec.eq_of_toNat_eq h)
  have hb' := b.isLt
  have hi' := buf[i].isLt
  have hlast := (buf.get 14).isLt
  unfold SumFits at hbuf
  have h₁₃ : (buf.set i b (by omega)).get 13 = buf.get 13 := get_set_ne buf _ b (Nat.ne_of_lt hi)
  have h₁₄ : (buf.set i b (by omega)).get 14 = buf.get 14 := get_set_ne buf _ b (Nat.ne_of_lt (hi.trans (by decide)))
  rw [checkSumOk_iff, checkSum_fst, checkSum_snd, h₁₃, h₁₄]
  omega

/-! ## What the check is right about -/

/-- The check is right about a message, about its completion, and about the completion with one byte changed. -/
structure Detects (buf : Msg) (i : Fin 15) (b : Byte) : Prop where
  completed : pd69200CheckSumOk (pd69200UpdateCheckSum buf)
  corrupted : b ≠ (pd69200UpdateCheckSum buf).get i → ¬pd69200CheckSumOk ((pd69200UpdateCheckSum buf).set i b i.isLt)
  exact : pd69200CheckSumOk buf ↔ SumFits buf

/-- For any message and any change of a byte, the check is right exactly when the changed byte is one that is summed and
the high byte of the sum changes with it, and when the message has not exactly one wrong byte of the checksum. -/
theorem check_sum_detects_iff (buf : Msg) (i : Fin 15) (b : Byte) : Detects buf i b ↔
    (b ≠ (pd69200UpdateCheckSum buf).get i →
      i.val < 13 ∧ byteSum ((pd69200UpdateCheckSum buf).set i b i.isLt) / 2 ^ 8 ≠ byteSum buf / 2 ^ 8) ∧
    (buf.get 13 = (checkSum buf).1 ↔ buf.get 14 = (checkSum buf).2) := by
  have hfits := updateCheckSum_fits buf
  have hcorrupted (hb : b ≠ (pd69200UpdateCheckSum buf).get i) :
      ¬pd69200CheckSumOk ((pd69200UpdateCheckSum buf).set i b i.isLt) ↔
        i.val < 13 ∧ byteSum ((pd69200UpdateCheckSum buf).set i b i.isLt) / 2 ^ 8 ≠ byteSum buf / 2 ^ 8 := by
    rcases Nat.lt_or_ge i.val 13 with hi | hi
    · rw [checkSumOk_set hfits hi hb, byteSum_updateCheckSum]
      simp only [hi, true_and, ne_eq]
    · have hok := checkSumOk_set_of_le hfits i.isLt hi b
      simp only [hok, not_true_eq_false, false_iff]
      omega
  have hexact : (pd69200CheckSumOk buf ↔ SumFits buf) ↔
      (buf.get 13 = (checkSum buf).1 ↔ buf.get 14 = (checkSum buf).2) := by
    rw [checkSumOk_iff, sumFits_iff]
    refine ⟨fun h => ⟨fun hhigh => (h.mp (Or.inl hhigh)).2, fun hlow => (h.mp (Or.inr hlow)).1⟩, fun h => ?_⟩
    exact ⟨fun ho => ho.elim (fun hhigh => ⟨hhigh, h.mp hhigh⟩) fun hlow => ⟨h.mpr hlow, hlow⟩, fun hb => Or.inl hb.1⟩
  constructor
  · intro h
    exact ⟨fun hb => (hcorrupted hb).mp (h.corrupted hb), hexact.mp h.exact⟩
  · rintro ⟨hchanged, hboth⟩
    exact ⟨checkSumOk_updateCheckSum buf, fun hb => (hcorrupted hb).mpr (hchanged hb), hexact.mpr hboth⟩

/-- A change of the last byte of a message is never found. -/
theorem not_check_sum_detects : ¬∀ (buf : Msg) (i : Fin 15) (b : Byte), Detects buf i b := by
  intro h
  have hnot := (h (Vector.replicate 15 0#8) 14 1#8).corrupted (by decide)
  revert hnot
  decide

end Lan80xx.Poe
