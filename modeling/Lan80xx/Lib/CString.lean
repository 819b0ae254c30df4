import Mathlib.Algebra.Ring.Int.Defs
import Mathlib.Data.List.TakeWhile

/-!
# C strings

A text is the bytes from a pointer on; a string in it ends before the first 0. The functions of the C library on such
texts, for searching, for numbers and for taking a string apart.

- `strstr`: the place of the first occurrence;
- `number?`: the number at the start of a text, and `atoi`, which returns it when it fits;
- `words`: the pieces that `strtok` returns.
-/

namespace CString

abbrev Text := List (BitVec 8)

/-- A string literal. -/
def ofString (s : String) : Text := s.toList.map fun c => BitVec.ofNat 8 c.toNat

/-! ## Searching -/

/-- `strstr`: the place of the first occurrence of a string before the end of another. -/
def strstr (needle : Text) : Text → Option Nat
  | [] => none
  | b :: l =>
    if needle.isPrefixOf (b :: l) then some 0
    else if b = 0#8 then none
    else (strstr needle l).map (· + 1)

theorem strstr_of_prefix {needle text : Text} (hne : needle ≠ []) (h : needle <+: text) : strstr needle text = some 0 := by
  cases text with
  | nil => exact absurd (List.prefix_nil.mp h) hne
  | cons b l => rw [strstr, if_pos (List.isPrefixOf_iff_prefix.mpr h)]

/-- A string with a byte that a text does not have is not found in it. -/
theorem strstr_of_not_mem {needle text : Text} {b : BitVec 8} (hb : b ∈ needle) (h : b ∉ text) :
    strstr needle text = none := by
  induction text with
  | nil => rfl
  | cons c l ih =>
    have hpre : ¬needle.isPrefixOf (c :: l) := fun hp => h ((List.isPrefixOf_iff_prefix.mp hp).subset hb)
    rw [strstr, if_neg hpre, ih fun hl => h (List.mem_cons_of_mem c hl)]
    split <;> rfl

/-! ## Numbers -/

/-- `isspace` -/
def isSpace (b : BitVec 8) : Bool := b = 0x20#8 ∨ 0x09#8 ≤ b ∧ b ≤ 0x0D#8

/-- `isdigit` -/
def isDigit (b : BitVec 8) : Bool := 0x30#8 ≤ b ∧ b ≤ 0x39#8

/-- `isxdigit` -/
def isXdigit (b : BitVec 8) : Bool := isDigit b ∨ 0x41#8 ≤ b ∧ b ≤ 0x46#8 ∨ 0x61#8 ≤ b ∧ b ≤ 0x66#8

/-- The value of a digit. -/
def digitVal (b : BitVec 8) : Nat :=
  if isDigit b then b.toNat - 0x30 else if b ≤ 0x46#8 then b.toNat - 0x41 + 10 else b.toNat - 0x61 + 10

/-- The value of a sequence of digits. -/
def value (base : Nat) (digits : Text) : Nat := digits.foldl (fun n b => base * n + digitVal b) 0

def plus : BitVec 8 := 0x2B#8
def minus : BitVec 8 := 0x2D#8

/-- The decimal number at the start of a text, behind white space and with a sign. -/
def number? (text : Text) : Option Int :=
  let text := text.dropWhile isSpace
  let digits := (if text.head? = some minus ∨ text.head? = some plus then text.tail else text).takeWhile isDigit
  if digits = [] then none
  else some (if text.head? = some minus then -(value 10 digits : Int) else value 10 digits)

/-- The number of a text that is nothing but digits. -/
theorem number_of_digits {text : Text} (hne : text ≠ []) (h : ∀ b ∈ text, isDigit b) :
    number? text = some (value 10 text : Int) := by
  cases text with
  | nil => exact absurd rfl hne
  | cons b l =>
    have hb : 0x30#8 ≤ b ∧ b ≤ 0x39#8 := by simpa [isDigit] using h b List.mem_cons_self
    have hspace : isSpace b = false := by
      rw [isSpace, decide_eq_false_iff_not]
      bv_omega
    have hsign : b ≠ minus ∧ b ≠ plus := by
      unfold minus plus
      bv_omega
    have hall : (b :: l).takeWhile isDigit = b :: l := List.takeWhile_eq_self_iff.mpr h
    simp [number?, hspace, hsign, hall]

/-- The number is one of an `int`. -/
def InInt (n : Int) : Prop := -2 ^ 31 ≤ n ∧ n < 2 ^ 31

instance (n : Int) : Decidable (InInt n) := inferInstanceAs (Decidable (_ ∧ _))

/-- `atoi`: 0 without a number. What it returns for a number that is not one of an `int`, the library leaves open. -/
def atoi (overflow : Int → BitVec 32) (text : Text) : BitVec 32 :=
  match number? text with
  | none => 0#32
  | some n => if InInt n then BitVec.ofInt 32 n else overflow n

theorem atoi_of_number {overflow : Int → BitVec 32} {text : Text} {n : Int} (h : number? text = some n) (hn : InInt n) :
    atoi overflow text = BitVec.ofInt 32 n := by
  rw [atoi, h]
  exact if_pos hn

/-- A number that fits is what is left of it after the conversion to an unsigned integer. -/
theorem eq_of_setWidth_atoi {overflow : Int → BitVec 32} {text : Text} {n : Int} {w : Nat} {v : BitVec w}
    (h : number? text = some n) (hw : w ≤ 31) (hlo : 0 ≤ n) (hhi : n < 2 ^ w)
    (hv : (atoi overflow text).setWidth w = v) : n = v.toNat := by
  have hpow : (2 : Int) ^ w ≤ 2 ^ 31 := by
    exact_mod_cast Nat.pow_le_pow_right (by decide : 0 < 2) hw
  rw [atoi_of_number h ⟨by omega, by omega⟩] at hv
  obtain ⟨k, rfl⟩ := Int.eq_ofNat_of_zero_le hlo
  have hk : k < 2 ^ w := by exact_mod_cast hhi
  have hlt : k < 2 ^ 32 := by omega
  rw [← hv, BitVec.ofInt_natCast, BitVec.toNat_setWidth, BitVec.toNat_ofNat, Nat.mod_eq_of_lt hlt, Nat.mod_eq_of_lt hk]

/-! ## Words -/

/-- The words of a text, after a first part of one. -/
def wordsFrom (d : BitVec 8) (part : Text) : Text → List Text
  | [] => if part = [] then [] else [part]
  | b :: l =>
    if b = d then if part = [] then wordsFrom d [] l else part :: wordsFrom d [] l
    else wordsFrom d (part ++ [b]) l

/-- What `strtok` returns one after the other: the longest pieces without the delimiter. -/
def words (d : BitVec 8) (text : Text) : List Text := wordsFrom d [] text

/-- The number of delimiters with another byte, or the end, behind them. -/
def runEnds (d : BitVec 8) : Text → Nat
  | [] => 0
  | b :: l => (if b = d ∧ l.head? ≠ some d then 1 else 0) + runEnds d l

section Words

variable {d : BitVec 8} {text : Text}

theorem wordsFrom_length (part : Text) (hlast : text.getLast? ≠ some d) (hpart : part = [] → text ≠ []) :
    (wordsFrom d part text).length = (if part = [] ∧ text.head? = some d then 0 else 1) + runEnds d text := by
  induction text generalizing part with
  | nil =>
    have hne : part ≠ [] := fun h => hpart h rfl
    simp [wordsFrom, runEnds, hne]
  | cons b l ih =>
    by_cases hb : b = d
    · subst hb
      have hl : l ≠ [] := by
        rintro rfl
        exact hlast rfl
      have hrest := ih [] (by rwa [List.getLast?_cons_of_ne_nil hl] at hlast) fun _ => hl
      by_cases hp : part = []
      · rw [hp, wordsFrom, if_pos rfl, if_pos rfl, hrest, runEnds]
        by_cases hhead : l.head? = some b <;> simp [hhead]
      · rw [wordsFrom, if_pos rfl, if_neg hp, List.length_cons, hrest, runEnds]
        by_cases hhead : l.head? = some b <;> simp [hhead, hp] <;> omega
    · have hlast' : l.getLast? ≠ some d := by
        cases l with
        | nil => simp
        | cons c l => rwa [List.getLast?_cons_cons] at hlast
      have hrest := ih (part ++ [b]) hlast' (by simp)
      rw [wordsFrom, if_neg hb, hrest, runEnds]
      simp [hb]

/-- Where no run of delimiters ends, there is none. -/
theorem not_mem_of_runEnds (h : runEnds d text = 0) : d ∉ text := by
  induction text with
  | nil => exact List.not_mem_nil
  | cons b l ih =>
    rw [runEnds, Nat.add_eq_zero_iff] at h
    have hrest := ih h.2
    have hb : b ≠ d := by
      rintro rfl
      have hhead : l.head? ≠ some b := fun hhead => hrest (List.mem_of_mem_head? hhead)
      simp [hhead] at h
    exact fun hmem => (List.mem_cons.mp hmem).elim (fun heq => hb heq.symm) hrest

/-- A text with no delimiter at its ends has one word more than runs of delimiters. -/
theorem words_length (hne : text ≠ []) (hfirst : text.head? ≠ some d) (hlast : text.getLast? ≠ some d) :
    (words d text).length = 1 + runEnds d text := by
  rw [words, wordsFrom_length [] hlast fun _ => hne, if_neg fun h => hfirst h.2]

end Words

end CString
