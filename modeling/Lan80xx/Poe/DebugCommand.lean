import Mathlib.Data.List.GetD
import Lan80xx.Lib.CString
import Lan80xx.Poe.CheckSum
import Lan80xx.Poe.Commands

/-!
# PoE controller: messages from the debug command

`meba_poe_ctrl_pd69200_debug` makes a message of a string that the user has typed in: 13 or 15 bytes as one hexadecimal
string, or 5 to 15 numbers. The arguments are counted by the ends of the runs of spaces, and taken apart with `strtok`.

- `parseArgs_of_numbers`: what the loop over the arguments leaves in the buffer;
- `argsCount_eq`: without a space at the ends, the count is the number of arguments;
- `debug_transmits`: what is transmitted then.
-/

namespace Lan80xx.Poe

open CString

/-! ## Characters and arguments -/

def space : Byte := 0x20#8

/-- The prefix of a hexadecimal number, in upper case. -/
def hexPrefix : Text := ofString "0X"

/-- One character of `to_upper`. -/
def toUpper (b : Byte) : Byte := if 0x61#8 ≤ b ∧ b ≤ 0x7A#8 then b - 32#8 else b

/-- `valid_number_e` -/
inductive ValidNumber
  | invalid
  | decimal
  | hex
  deriving DecidableEq, Repr

def isHexLetter (b : Byte) : Bool := 0x61#8 ≤ b ∧ b ≤ 0x66#8 ∨ 0x41#8 ≤ b ∧ b ≤ 0x46#8

/-- The loop of `check_argument`. -/
def checkArgumentFrom : ValidNumber → Text → ValidNumber
  | n, [] => n
  | n, b :: s =>
    if isDigit b then checkArgumentFrom (if n = .invalid then .decimal else n) s
    else if isHexLetter b then checkArgumentFrom .hex s
    else .invalid

/-- `check_argument` -/
def checkArgument (s : Text) : ValidNumber := checkArgumentFrom .invalid s

/-- `is_valid_hex_string` -/
def isValidHexString (s : Text) : Bool := s.all fun b => isXdigit b || b = space

/-- The messages with which the command is refused. An argument is given with its place. -/
inductive DebugError
  | missingArguments
  | noHexPrefix
  | notHexString
  | notDecimal (i : Nat) (arg : Text)
  | notHex (i : Nat) (arg : Text)
  | outOfRange (i : Nat) (arg : Text)
  | invalidCount (strLen argsCount : Nat)
  deriving DecidableEq

/-- What the C library makes of a number that is too large, in `atoi` and in `sscanf`. -/
structure Overflow where
  atoi : Int → BitVec 32
  hex : Nat → BitVec 32

section Parser

variable (o : Overflow)

/-- `sscanf(s, "%X", ..)` behind the prefix. -/
def scanHex (s : Text) : BitVec 32 :=
  if value 16 (s.takeWhile isXdigit) < 2 ^ 32 then BitVec.ofNat 32 (value 16 (s.takeWhile isXdigit))
  else o.hex (value 16 (s.takeWhile isXdigit))

/-- One argument: decimal, or hexadecimal when the prefix stands somewhere in it. -/
def parseArg (i : Nat) (arg : Text) : Except DebugError (BitVec 32) :=
  match strstr hexPrefix arg with
  | none =>
    if checkArgument arg ≠ .decimal then .error (.notDecimal i arg)
    else if 0xFF < (atoi o.atoi arg).toInt then .error (.outOfRange i arg)
    else .ok (atoi o.atoi arg)
  | some p =>
    if checkArgument (arg.drop (p + 2)) = .invalid then .error (.notHex i arg)
    else if 0xFF < (scanHex o (arg.drop (p + 2))).toInt then .error (.outOfRange i (arg.drop p))
    else .ok (scanHex o (arg.drop (p + 2)))

/-- The loop over the arguments, which are put into `args_buf` from `i` on. -/
def parseArgs : List Text → Nat → (Nat → BitVec 32) → Except DebugError (Nat → BitVec 32)
  | [], _, args => .ok args
  | arg :: rest, i, args =>
    match parseArg o i arg with
    | .error e => .error e
    | .ok v => parseArgs rest (i + 1) (Function.update args i v)

/-- `sscanf(s, "%02x", ..)`: nothing at the end of the string. -/
def scanHexByte (s : Text) : Option (BitVec 32) :=
  let digits := ((s.dropWhile isSpace).take 2).takeWhile isXdigit
  if digits = [] then none else some (BitVec.ofNat 32 (value 16 digits))

/-- The loop over `n` bytes of a hexadecimal string. -/
def scanHexBytes (s : Text) (n : Nat) (args : Nat → BitVec 32) : Nat → BitVec 32 := fun i =>
  if i < n then (scanHexByte (s.drop (2 * i))).getD (args i) else args i

/-- `args_count`: 1, and 1 more for each space that is not followed by another one. -/
def argsCount (s : Text) : Nat := 1 + runEnds space s

/-- `str_args`: the string in upper case, up to its end and no more than `str_len` characters. -/
def strArgs (var : Text) (strLen : Nat) : Text := ((var.takeWhile (· ≠ 0#8)).map toUpper).take strLen

/-- The string is a hexadecimal string. -/
def IsHexString (s : Text) (strLen : Nat) : Prop := (strLen = 28 ∨ strLen = 32) ∧ argsCount s = 1

instance (s : Text) (strLen : Nat) : Decidable (IsHexString s strLen) := inferInstanceAs (Decidable (_ ∧ _))

/-- `args_buf` behind the parser, and whether the checksum is to be updated. -/
def debugArgs (args : Nat → BitVec 32) (s : Text) (strLen : Nat) : Except DebugError ((Nat → BitVec 32) × Bool) :=
  if IsHexString s strLen then
    if strstr hexPrefix s ≠ some 0 then .error .noHexPrefix
    else if ¬isValidHexString (s.drop 2) then .error .notHexString
    else .ok (scanHexBytes (s.drop 2) ((strLen - 2) / 2) args, strLen = 28)
  else if 5 ≤ argsCount s ∧ argsCount s ≤ 15 then
    match parseArgs o (words space s) 0 args with
    | .error e => .error e
    | .ok args => .ok (fun i => if argsCount s ≤ i ∧ i < 13 then 0x4E#32 else args i, argsCount s < 15)
  else .error (.invalidCount strLen (argsCount s))

/-- `tx_buf` with the next sequence number in the place of an echo 0xFF. -/
def updateEcho (seqNum : Byte) (tx : Msg) : Msg :=
  Vector.ofFn fun i => if i.val = 1 ∧ tx.byte 1 = 0xFF#8 then nextSeqNum seqNum else tx.byte i.val

/-- `meba_poe_ctrl_pd69200_debug` up to `pd69200_wr`: the message, and the sequence number. `args` is what is on the stack
where `args_buf` is. -/
def debugMessage (args : Nat → BitVec 32) (var : Option Text) (strLen : Nat) (seqNum : Byte) :
    Except DebugError (Msg × Byte) :=
  match var with
  | none => .error .missingArguments
  | some var =>
    if strLen < 8 then .error .missingArguments
    else
      match debugArgs o args (strArgs var strLen) strLen with
      | .error e => .error e
      | .ok (args, updateSum) =>
        let tx : Msg := Vector.ofFn fun i => (args i.val).setWidth 8
        let sent := updateEcho seqNum tx
        .ok (if updateSum then pd69200UpdateCheckSum sent else sent,
          if tx.byte 1 = 0xFF#8 then nextSeqNum seqNum else seqNum)

end Parser

/-! ## What is to be transmitted -/

/-- The number of an argument: decimal digits, or hexadecimal digits behind the prefix. -/
def argNumber (arg : Text) : Option Nat :=
  if arg ≠ [] ∧ arg.all isDigit then some (value 10 arg)
  else if hexPrefix.isPrefixOf arg ∧ arg.drop 2 ≠ [] ∧ (arg.drop 2).all isXdigit then some (value 16 (arg.drop 2))
  else none

/-- The numbers that a string asks for: the pairs of digits of a hexadecimal string, or its arguments. -/
def numbers (s : Text) (strLen : Nat) : List Nat :=
  if IsHexString s strLen then (List.range ((strLen - 2) / 2)).map fun i => value 16 (((s.drop 2).drop (2 * i)).take 2)
  else (words space s).map fun arg => (argNumber arg).getD 0

/-- The numbers, with the filler behind them. -/
def filled (nums : List Nat) (i : Nat) : Byte := BitVec.ofNat 8 (nums.getD i 0x4E)

/-- The message has the numbers and the filler up to the checksum, with the given echo, and fifteen numbers or a valid
checksum. -/
structure Transmits (nums : List Nat) (echo : Byte) (msg : Msg) : Prop where
  length_le : nums.length ≤ 15
  byte : ∀ i < 13, msg.byte i = if i = 1 then echo else filled nums i
  tail : if nums.length = 15 then msg.byte 13 = filled nums 13 ∧ msg.byte 14 = filled nums 14 else SumFits msg

/-- The echo that is sent for a number. -/
def echoFor (seqNum b : Byte) : Byte := if b = 0xFF#8 then nextSeqNum seqNum else b

/-- Arguments that are numbers up to 255, without a space before the first and behind the last. -/
structure PlainArguments (s : Text) : Prop where
  first : s.head? ≠ some space
  last : s.getLast? ≠ some space
  args : ∀ arg ∈ words space s, ∃ n ∈ argNumber arg, n < 256

/-- A hexadecimal string of `str_len` characters, or plain arguments. -/
structure Plain (s : Text) (strLen : Nat) : Prop where
  hexString : IsHexString s strLen → s.length = strLen
  arguments : ¬IsHexString s strLen → PlainArguments s

section Bytes

variable {buf msg : Msg} {i : Nat}

theorem byte_ofFn (f : Fin 15 → Byte) (hi : i < 15) : Msg.byte (Vector.ofFn f) i = f ⟨i, hi⟩ := by
  simp [Msg.byte, hi]

theorem byte_get (buf : Msg) (i : Fin 15) : buf.byte i.val = buf.get i := by
  simp [Msg.byte, Vector.get]

theorem byte_updateCheckSum (hi : i < 13) : (pd69200UpdateCheckSum buf).byte i = buf.byte i := by
  have h₁₄ := get_set_ne (buf.set 13 (checkSum buf).1) (by decide : 14 < 15) (checkSum buf).2 (j := ⟨i, by omega⟩)
    (by simp; omega)
  have h₁₃ := get_set_ne buf (by decide : 13 < 15) (checkSum buf).1 (j := ⟨i, by omega⟩) (by simp; omega)
  rw [byte_get buf ⟨i, by omega⟩, byte_get _ ⟨i, by omega⟩, ← h₁₃]
  exact h₁₄

/-- A message is known by its bytes before the checksum, when it has a valid one. -/
theorem eq_of_bytes (h : ∀ i < 13, buf.byte i = msg.byte i) (h₁₃ : buf.byte 13 = msg.byte 13)
    (h₁₄ : buf.byte 14 = msg.byte 14) : buf = msg := by
  have hall : ∀ i < 15, buf.byte i = msg.byte i := by
    intro i hi
    rcases Nat.lt_or_ge i 13 with hlt | hge
    · exact h i hlt
    · rcases (by omega : i = 13 ∨ i = 14) with rfl | rfl
      · exact h₁₃
      · exact h₁₄
  apply Vector.ext
  intro i hi
  have hbyte := hall i hi
  simpa [Msg.byte, hi] using hbyte

theorem eq_of_sumFits (h : ∀ i < 13, buf.byte i = msg.byte i) (hbuf : SumFits buf) (hmsg : SumFits msg) : buf = msg := by
  have htake : buf.toList.take 13 = msg.toList.take 13 := by
    apply List.ext_getElem (by simp)
    intro i hi hi'
    have hlt : i < 13 := by simpa using hi
    have hbyte := h i hlt
    simpa [Msg.byte, show i < 15 by omega] using hbyte
  have hsum : checkSum buf = checkSum msg := by
    rw [checkSum, checkSum, byteSum_eq, byteSum_eq, htake]
  obtain ⟨h₁₃, h₁₄⟩ := (sumFits_iff buf).mp hbuf
  obtain ⟨h₁₃', h₁₄'⟩ := (sumFits_iff msg).mp hmsg
  apply eq_of_bytes h
  · exact (byte_get buf 13).trans ((h₁₃.trans (by rw [hsum])).trans (h₁₃'.symm.trans (byte_get msg 13).symm))
  · exact (byte_get buf 14).trans ((h₁₄.trans (by rw [hsum])).trans (h₁₄'.symm.trans (byte_get msg 14).symm))

end Bytes

section Arguments

variable {o : Overflow} {arg s : Text} {n i strLen : Nat} {args : Nat → BitVec 32}

theorem checkArgumentFrom_digits (h : ∀ b ∈ arg, isDigit b) : checkArgumentFrom .decimal arg = .decimal := by
  induction arg with
  | nil => rfl
  | cons b s ih =>
    rw [checkArgumentFrom, if_pos (h b List.mem_cons_self)]
    exact ih fun c hc => h c (List.mem_cons_of_mem b hc)

theorem checkArgumentFrom_xdigits {v : ValidNumber} (hv : v ≠ .invalid) (h : ∀ b ∈ arg, isXdigit b) :
    checkArgumentFrom v arg ≠ .invalid := by
  induction arg generalizing v with
  | nil => exact hv
  | cons b s ih =>
    have hs : ∀ c ∈ s, isXdigit c := fun c hc => h c (List.mem_cons_of_mem b hc)
    by_cases hdigit : isDigit b
    · rw [checkArgumentFrom, if_pos hdigit, if_neg hv]
      exact ih hv hs
    · have hletter : isHexLetter b := by
        have hb := h b List.mem_cons_self
        simp only [isXdigit, isHexLetter, decide_eq_true_eq, hdigit, Bool.false_eq_true, false_or] at hb ⊢
        exact hb.symm
      rw [checkArgumentFrom, if_neg hdigit, if_pos hletter]
      exact ih (by decide) hs

theorem checkArgument_xdigits (hne : arg ≠ []) (h : ∀ b ∈ arg, isXdigit b) : checkArgument arg ≠ .invalid := by
  cases arg with
  | nil => exact absurd rfl hne
  | cons b s =>
    have hs : ∀ c ∈ s, isXdigit c := fun c hc => h c (List.mem_cons_of_mem b hc)
    by_cases hdigit : isDigit b
    · rw [checkArgument, checkArgumentFrom, if_pos hdigit, if_pos rfl]
      exact checkArgumentFrom_xdigits (by decide) hs
    · have hvalid := @checkArgumentFrom_xdigits (b :: s) .hex (by decide) h
      rw [checkArgumentFrom, if_neg hdigit] at hvalid
      rw [checkArgument, checkArgumentFrom, if_neg hdigit]
      exact hvalid

theorem checkArgument_digits (hne : arg ≠ []) (h : ∀ b ∈ arg, isDigit b) : checkArgument arg = .decimal := by
  cases arg with
  | nil => exact absurd rfl hne
  | cons b s =>
    rw [checkArgument, checkArgumentFrom, if_pos (h b List.mem_cons_self), if_pos rfl]
    exact checkArgumentFrom_digits fun c hc => h c (List.mem_cons_of_mem b hc)

theorem toInt_ofNat_le (hn : n < 256) : ¬0xFF < (BitVec.ofNat 32 n).toInt := by
  have hval : (BitVec.ofNat 32 n).toNat = n := by
    rw [BitVec.toNat_ofNat]
    omega
  rw [BitVec.toInt_eq_toNat_of_lt (by omega)]
  omega

/-- An argument that is a number up to 255 is read as this number. -/
theorem parseArg_of_number (h : argNumber arg = some n) (hn : n < 256) : parseArg o i arg = .ok (BitVec.ofNat 32 n) := by
  unfold argNumber at h
  by_cases hdec : arg ≠ [] ∧ arg.all isDigit
  · rw [if_pos hdec, Option.some.injEq] at h
    subst h
    obtain ⟨hne, hall⟩ := hdec
    rw [List.all_eq_true] at hall
    have hnone : strstr hexPrefix arg = none :=
      strstr_of_not_mem (b := 0x58#8) (by decide) fun hmem => absurd (hall _ hmem) (by decide)
    have hatoi : atoi o.atoi arg = BitVec.ofNat 32 (value 10 arg) := by
      rw [atoi_of_number (number_of_digits hne hall) ⟨by omega, by omega⟩, BitVec.ofInt_natCast]
    rw [parseArg, hnone, hatoi]
    simp [checkArgument_digits hne hall, toInt_ofNat_le hn]
  · rw [if_neg hdec] at h
    by_cases hhex : hexPrefix.isPrefixOf arg ∧ arg.drop 2 ≠ [] ∧ (arg.drop 2).all isXdigit
    · rw [if_pos hhex, Option.some.injEq] at h
      subst h
      obtain ⟨hpre, hne, hall⟩ := hhex
      rw [List.all_eq_true] at hall
      have hscan : scanHex o (arg.drop 2) = BitVec.ofNat 32 (value 16 (arg.drop 2)) := by
        rw [scanHex, List.takeWhile_eq_self_iff.mpr hall, if_pos (by omega)]
      rw [parseArg, strstr_of_prefix (by decide) (List.isPrefixOf_iff_prefix.mp hpre)]
      simp [hscan, checkArgument_xdigits hne hall, toInt_ofNat_le hn]
    · rw [if_neg hhex] at h
      cases h

theorem parseArgs_of_numbers {ws : List Text} (h : ∀ arg ∈ ws, ∃ n ∈ argNumber arg, n < 256) :
    ∃ out, parseArgs o ws i args = .ok out ∧
      (∀ j < ws.length, out (i + j) = BitVec.ofNat 32 ((ws.map fun arg => (argNumber arg).getD 0).getD j 0x4E)) ∧
      ∀ j, j < i ∨ i + ws.length ≤ j → out j = args j := by
  induction ws generalizing i args with
  | nil => exact ⟨args, rfl, fun j hj => absurd hj (Nat.not_lt_zero j), fun _ _ => rfl⟩
  | cons arg ws ih =>
    obtain ⟨n, harg, hn⟩ := h arg List.mem_cons_self
    rw [Option.mem_def] at harg
    obtain ⟨out, hout, hin, hoff⟩ := @ih (i + 1) (Function.update args i (BitVec.ofNat 32 n))
      fun arg' harg' => h arg' (List.mem_cons_of_mem arg harg')
    refine ⟨out, by rw [parseArgs, parseArg_of_number harg hn]; exact hout, ?_, ?_⟩
    · intro j hj
      cases j with
      | zero =>
        rw [Nat.add_zero, hoff i (Or.inl (Nat.lt_succ_self i)), Function.update_self]
        simp [harg]
      | succ j =>
        have hin' := hin j (by simpa using hj)
        rw [Nat.add_assoc, Nat.add_comm 1 j] at hin'
        simpa using hin'
    · intro j hj
      rw [List.length_cons] at hj
      rw [hoff j (by omega), Function.update_of_ne (by omega)]

/-- Without a space at the ends, the count is the number of arguments. -/
theorem argsCount_eq (h : PlainArguments s) (hne : s ≠ []) : argsCount s = (words space s).length :=
  (words_length hne h.first h.last).symm

theorem xdigit_of_hexString (hvalid : isValidHexString s) (hspace : space ∉ s) : ∀ b ∈ s, isXdigit b := by
  intro b hb
  have h := List.all_eq_true.mp hvalid b hb
  have hne : b ≠ space := fun heq => hspace (heq ▸ hb)
  simpa [hne] using h

/-- Two digits of a hexadecimal string. -/
theorem scanHexByte_pair (h : ∀ b ∈ s, isXdigit b) (hne : s ≠ []) :
    scanHexByte s = some (BitVec.ofNat 32 (value 16 (s.take 2))) := by
  have hspace : s.dropWhile isSpace = s := by
    cases s with
    | nil => rfl
    | cons b s =>
      have hb := h b List.mem_cons_self
      have hnot : isSpace b = false := by
        rw [isSpace, decide_eq_false_iff_not]
        simp only [isXdigit, isDigit, decide_eq_true_eq] at hb
        bv_omega
      rw [List.dropWhile_cons_of_neg (by simp [hnot])]
  have hall : (s.take 2).takeWhile isXdigit = s.take 2 :=
    List.takeWhile_eq_self_iff.mpr fun b hb => h b (List.mem_of_mem_take hb)
  have htake : s.take 2 ≠ [] := by
    cases s with
    | nil => exact absurd rfl hne
    | cons b s => simp
  rw [scanHexByte, hspace, hall, if_neg htake]

/-- What the parser makes of a hexadecimal string. -/
theorem debugArgs_hexString {out : Nat → BitVec 32} {sum : Bool} (hlen : s.length = strLen) (hhex : IsHexString s strLen)
    (hok : debugArgs o args s strLen = .ok (out, sum)) : sum = decide (strLen = 28) ∧
      (∀ i < (strLen - 2) / 2, out i = BitVec.ofNat 32 ((numbers s strLen).getD i 0x4E)) ∧
      ∀ args', ∃ out', debugArgs o args' s strLen = .ok (out', sum) := by
  by_cases hprefix : strstr hexPrefix s = some 0
  swap
  · rw [debugArgs, if_pos hhex, if_pos hprefix] at hok
    cases hok
  by_cases hvalid : isValidHexString (s.drop 2)
  swap
  · rw [debugArgs, if_pos hhex, if_neg (not_not.mpr hprefix), if_pos hvalid] at hok
    cases hok
  have hall : ∀ b ∈ s.drop 2, isXdigit b := by
    have hruns : runEnds space s = 0 := by
      have hcount : 1 + runEnds space s = 1 := hhex.2
      omega
    exact xdigit_of_hexString hvalid fun hmem => not_mem_of_runEnds hruns (List.mem_of_mem_drop hmem)
  have hrun (args' : Nat → BitVec 32) : debugArgs o args' s strLen =
      .ok (scanHexBytes (s.drop 2) ((strLen - 2) / 2) args', strLen = 28) := by
    rw [debugArgs, if_pos hhex, if_neg (not_not.mpr hprefix), if_neg (not_not.mpr hvalid)]
  rw [hrun] at hok
  obtain ⟨rfl, rfl⟩ := Prod.mk.inj (Except.ok.inj hok)
  refine ⟨rfl, ?_, fun args' => ⟨_, hrun args'⟩⟩
  intro i hi
  have hne : (s.drop 2).drop (2 * i) ≠ [] := by
    intro hnil
    have hzero := congrArg List.length hnil
    rw [List.length_drop, List.length_drop, hlen, List.length_nil] at hzero
    omega
  rw [scanHexBytes, if_pos hi, scanHexByte_pair (fun b hb => hall b (List.mem_of_mem_drop hb)) hne, Option.getD_some,
    numbers, if_pos hhex]
  simp [hi]

/-- What the parser makes of arguments. -/
theorem debugArgs_arguments {out : Nat → BitVec 32} {sum : Bool} (h : PlainArguments s)
    (hhex : ¬IsHexString s strLen) (hok : debugArgs o args s strLen = .ok (out, sum)) :
    (numbers s strLen).length ≤ 15 ∧ sum = decide ((numbers s strLen).length < 15) ∧
      (∀ i, i < 13 ∨ i < (numbers s strLen).length → out i = BitVec.ofNat 32 ((numbers s strLen).getD i 0x4E)) ∧
      ∀ args', ∃ out', debugArgs o args' s strLen = .ok (out', sum) := by
  by_cases hcount : 5 ≤ argsCount s ∧ argsCount s ≤ 15
  swap
  · rw [debugArgs, if_neg hhex, if_neg hcount] at hok
    cases hok
  have hne : s ≠ [] := by
    rintro rfl
    exact absurd hcount.1 (by decide)
  have hlen : (numbers s strLen).length = argsCount s := by
    rw [numbers, if_neg hhex, List.length_map, argsCount_eq h hne]
  have hnums : numbers s strLen = (words space s).map fun arg => (argNumber arg).getD 0 := by
    rw [numbers, if_neg hhex]
  have hparse (args' : Nat → BitVec 32) : ∃ parsed, parseArgs o (words space s) 0 args' = .ok parsed ∧
      ∀ j < argsCount s, parsed j = BitVec.ofNat 32 ((numbers s strLen).getD j 0x4E) := by
    obtain ⟨parsed, hparsed, hin, -⟩ := @parseArgs_of_numbers o 0 args' (words space s) h.args
    refine ⟨parsed, hparsed, fun j hj => ?_⟩
    rw [hnums, ← hin j (by rwa [← argsCount_eq h hne]), Nat.zero_add]
  obtain ⟨parsed, hparsed, hin⟩ := hparse args
  rw [debugArgs, if_neg hhex, if_pos hcount, hparsed] at hok
  obtain ⟨rfl, rfl⟩ := Prod.mk.inj (Except.ok.inj hok)
  refine ⟨hlen ▸ hcount.2, by rw [hlen], ?_, ?_⟩
  · intro i hi
    dsimp only
    by_cases hfill : argsCount s ≤ i ∧ i < 13
    · rw [if_pos hfill, List.getD_eq_default _ _ (by omega)]
    · rw [if_neg hfill, hin i (by omega)]
  · intro args'
    obtain ⟨parsed', hparsed', -⟩ := hparse args'
    rw [debugArgs, if_neg hhex, if_pos hcount, hparsed']
    exact ⟨_, rfl⟩

theorem numbers_length_of_hexString (hhex : IsHexString s strLen) :
    (numbers s strLen).length = 13 ∧ strLen = 28 ∨ (numbers s strLen).length = 15 ∧ strLen = 32 := by
  rw [numbers, if_pos hhex, List.length_map, List.length_range]
  rcases hhex.1 with rfl | rfl
  · exact Or.inl ⟨rfl, rfl⟩
  · exact Or.inr ⟨rfl, rfl⟩

/-- What the parser leaves in the buffer for a plain string. -/
theorem debugArgs_plain {out : Nat → BitVec 32} {sum : Bool} (h : Plain s strLen)
    (hok : debugArgs o args s strLen = .ok (out, sum)) :
    (numbers s strLen).length ≤ 15 ∧ sum = decide ((numbers s strLen).length < 15) ∧
      (∀ i, i < 13 ∨ i < (numbers s strLen).length → out i = BitVec.ofNat 32 ((numbers s strLen).getD i 0x4E)) ∧
      ∀ args', ∃ out', debugArgs o args' s strLen = .ok (out', sum) := by
  by_cases hhex : IsHexString s strLen
  · obtain ⟨hsum, hin, hdet⟩ := debugArgs_hexString (h.hexString hhex) hhex hok
    rcases numbers_length_of_hexString hhex with ⟨hlen, hstr⟩ | ⟨hlen, hstr⟩
    · exact ⟨by omega, by rw [hsum, hlen, hstr]; rfl, fun i hi => hin i (by omega), hdet⟩
    · exact ⟨by omega, by rw [hsum, hlen, hstr]; rfl, fun i hi => hin i (by omega), hdet⟩
  · exact debugArgs_arguments (h.arguments hhex) hhex hok

end Arguments

/-! ## The message -/

section Message

variable {o : Overflow} {s : Text} {strLen i : Nat} {seqNum : Byte} {args : Nat → BitVec 32}

/-- `tx_buf` before the checksum. -/
def echoed (out : Nat → BitVec 32) (seqNum : Byte) : Msg :=
  updateEcho seqNum (Vector.ofFn fun i => (out i.val).setWidth 8)

theorem byte_echoed {out : Nat → BitVec 32} {nums : List Nat} (hi : i < 15)
    (hone : out 1 = BitVec.ofNat 32 (nums.getD 1 0x4E)) (hout : out i = BitVec.ofNat 32 (nums.getD i 0x4E)) :
    (echoed out seqNum).byte i = if i = 1 then echoFor seqNum (filled nums 1) else filled nums i := by
  have hbyte (j : Nat) (hj : j < 15) (hjout : out j = BitVec.ofNat 32 (nums.getD j 0x4E)) :
      Msg.byte (Vector.ofFn fun i : Fin 15 => (out i.val).setWidth 8) j = filled nums j := by
    rw [byte_ofFn _ hj, hjout, BitVec.setWidth_ofNat_of_le (by decide)]
    rfl
  rw [echoed, updateEcho, byte_ofFn _ hi, hbyte 1 (by decide) hone]
  by_cases h1 : i = 1
  · subst h1
    simp only [true_and, if_true, hbyte 1 (by decide) hone]
    rfl
  · simp only [h1, false_and, if_false]
    exact hbyte i hi hout

theorem debugMessage_ok_iff {var : Text} {msg : Msg} :
    (∃ seqNum', debugMessage o args (some var) strLen seqNum = .ok (msg, seqNum')) ↔ 8 ≤ strLen ∧
      ∃ out sum, debugArgs o args (strArgs var strLen) strLen = .ok (out, sum) ∧
        msg = if sum then pd69200UpdateCheckSum (echoed out seqNum) else echoed out seqNum := by
  by_cases hlen : strLen < 8
  · simp [debugMessage, hlen]
  · cases hargs : debugArgs o args (strArgs var strLen) strLen with
    | error e => simp [debugMessage, hlen, hargs]
    | ok r =>
      obtain ⟨out, sum⟩ := r
      simp only [debugMessage, hlen, hargs, if_false, Except.ok.injEq, Prod.mk.injEq, true_and, Nat.le_of_not_lt hlen]
      constructor
      · rintro ⟨_, hmsg, -⟩
        exact ⟨out, sum, ⟨rfl, rfl⟩, hmsg.symm⟩
      · rintro ⟨_, _, ⟨rfl, rfl⟩, hmsg⟩
        exact ⟨_, hmsg.symm, rfl⟩

/-- There is one message that transmits the numbers. -/
theorem Transmits.unique {nums : List Nat} {echo : Byte} {msg msg' : Msg} (h : Transmits nums echo msg)
    (h' : Transmits nums echo msg') : msg = msg' := by
  have hbyte : ∀ i < 13, msg.byte i = msg'.byte i := fun i hi => (h.byte i hi).trans (h'.byte i hi).symm
  have htail := h.tail
  have htail' := h'.tail
  by_cases hall : nums.length = 15
  · rw [if_pos hall] at htail htail'
    exact eq_of_bytes hbyte (htail.1.trans htail'.1.symm) (htail.2.trans htail'.2.symm)
  · rw [if_neg hall] at htail htail'
    exact eq_of_sumFits hbyte htail htail'

theorem transmits_plain {out : Nat → BitVec 32} {sum : Bool} (h : Plain s strLen)
    (hok : debugArgs o args s strLen = .ok (out, sum)) :
    Transmits (numbers s strLen) (echoFor seqNum (filled (numbers s strLen) 1))
      (if sum then pd69200UpdateCheckSum (echoed out seqNum) else echoed out seqNum) := by
  obtain ⟨hlen, rfl, hout, -⟩ := debugArgs_plain h hok
  have hbyte (i : Nat) (hi : i < 13 ∨ i < (numbers s strLen).length) : (echoed out seqNum).byte i =
      if i = 1 then echoFor seqNum (filled (numbers s strLen) 1) else filled (numbers s strLen) i :=
    byte_echoed (by omega) (hout 1 (Or.inl (by decide))) (hout i hi)
  refine ⟨hlen, ?_, ?_⟩
  · intro i hi
    rw [← hbyte i (Or.inl hi)]
    by_cases hsum : (numbers s strLen).length < 15
    · rw [if_pos (decide_eq_true hsum), byte_updateCheckSum hi]
    · rw [if_neg (by simpa using hsum)]
  · by_cases hall : (numbers s strLen).length = 15
    · rw [if_pos hall, if_neg (by simp [hall])]
      exact ⟨hbyte 13 (Or.inr (by omega)), hbyte 14 (Or.inr (by omega))⟩
    · rw [if_neg hall, if_pos (by simp; omega)]
      exact updateCheckSum_fits _

/-- For every plain string that is accepted: the message has the numbers in order and the filler behind them, the sequence
number in the place of an echo 0xFF, and a valid checksum unless all fifteen bytes are given. It is the same whatever is on
the stack. -/
theorem debug_transmits (o : Overflow) (args : Nat → BitVec 32) (var : Text) (strLen : Nat) (seqNum : Byte) (msg : Msg)
    (seqNum' : Byte) (hplain : Plain (strArgs var strLen) strLen)
    (hok : debugMessage o args (some var) strLen seqNum = .ok (msg, seqNum')) :
    Transmits (numbers (strArgs var strLen) strLen) (echoFor seqNum (filled (numbers (strArgs var strLen) strLen) 1)) msg ∧
      ∀ args', ∃ seqNum'', debugMessage o args' (some var) strLen seqNum = .ok (msg, seqNum'') := by
  obtain ⟨hlen, out, sum, hout, rfl⟩ := debugMessage_ok_iff.mp ⟨seqNum', hok⟩
  have htransmits := @transmits_plain o _ strLen seqNum args out sum hplain hout
  refine ⟨htransmits, fun args' => ?_⟩
  obtain ⟨out', hout'⟩ := (debugArgs_plain hplain hout).2.2.2 args'
  exact debugMessage_ok_iff.mpr ⟨hlen, out', sum, hout', htransmits.unique (transmits_plain hplain hout')⟩

end Message

/-! ### An echo 0xFF -/

/-- Five numbers, with the echo 0xFF. -/
def benchString : Text := ofString "2 255 7 30 33"

def benchOverflow : Overflow := ⟨fun _ => 0#32, fun _ => 0#32⟩

theorem benchString_plain : Plain (strArgs benchString 13) 13 where
  hexString := by decide
  arguments _ := ⟨by decide, by decide, by decide +kernel⟩

/-- The message that is made of them. -/
def benchMessage : Msg :=
  pd69200UpdateCheckSum (message [0x02#8, 0x01#8, 0x07#8, 0x1E#8, 0x21#8])

theorem benchString_accepted :
    debugMessage benchOverflow (fun _ => 0#32) (some benchString) 13 0#8 = .ok (benchMessage, 1#8) := by
  decide +kernel

theorem debug_transmits_bench : Transmits [2, 255, 7, 30, 33] 0x01#8 benchMessage :=
  (debug_transmits benchOverflow (fun _ => 0#32) benchString 13 0#8 benchMessage 1#8 benchString_plain
    benchString_accepted).1

/-- The echo 0xFF is not transmitted. -/
theorem not_debug_transmits : ¬∀ (o : Overflow) (args : Nat → BitVec 32) (var : Text) (strLen : Nat) (seqNum : Byte)
    (msg : Msg) (seqNum' : Byte), debugMessage o args (some var) strLen seqNum = .ok (msg, seqNum') →
    Transmits (numbers (strArgs var strLen) strLen) (filled (numbers (strArgs var strLen) strLen) 1) msg := by
  intro h
  have hecho := (h _ _ _ _ _ _ _ benchString_accepted).byte 1 (by decide)
  revert hecho
  decide +kernel

end Lan80xx.Poe
