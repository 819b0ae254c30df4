import Lan80xx.Lib.ExchangeSort
import Lan80xx.T1.Types
import Mathlib.Algebra.Order.Floor.Semifield
import Mathlib.Data.Rat.Floor
import Mathlib.Tactic.Positivity
import Mathlib.Algebra.BigOperators.GroupWithZero.Action

/-!
# T1 PHYs: the signal quality index

The LAN887x (at 100 Mb/s) and the LAN8770 take 200 readings of the squared error with the state of the link beside each,
sort them, and average the middle ones.

- `entries_sortTables`: the double loop of the drivers exchanges the two tables' entries together;
- `middle`: the sum that the averages are taken of, from the multiset of the readings alone;
- `getSqi100m_eq`, `phySqiRead_eq`: what the drivers give for the tables that their accesses fill.
-/

namespace Lan80xx.T1.Sqi

open ExchangeSort

/-! ## The tables -/

/-- `rawtable` and `linktable`. -/
@[ext]
structure Tables (n w : Nat) where
  raw : Fin n → BitVec 16
  link : Fin n → BitVec w

namespace Tables

variable {n w : Nat}

/-- `rawtable[i] = raw; linktable[i] = link` -/
def put (t : Tables n w) (i : Fin n) (raw : BitVec 16) (link : BitVec w) : Tables n w :=
  ⟨Function.update t.raw i raw, Function.update t.link i link⟩

/-- The readings, in no order. -/
def readings (t : Tables n w) : Multiset Nat := List.ofFn fun i => (t.raw i).toNat

/-- `linkavg`, before the division. -/
def links (t : Tables n w) : Nat := ∑ i, (t.link i).toNat

theorem links_congr {t t' : Tables n w} (h : t'.link = t.link) : t'.links = t.links := by
  simp only [links, h]

/-- Each reading with its link state. -/
def entries (t : Tables n w) (i : Fin n) : BitVec 16 × BitVec w := (t.raw i, t.link i)

end Tables

section Loops

variable {n w : Nat}

/-- A loop that writes every entry leaves nothing of the tables before it. -/
theorem foldl_put (raw : Fin n → BitVec 16) (link : Fin n → BitVec w) (t : Tables n w) :
    (List.finRange n).foldl (fun t i => t.put i (raw i) (link i)) t = ⟨raw, link⟩ := by
  have hfilled := foldl_finRange
    (P := fun m (t : Tables n w) => ∀ k : Fin n, k.val < m → t.raw k = raw k ∧ t.link k = link k)
    (f := fun t i => t.put i (raw i) (link i)) (s := t) (by simp) ?_
  · apply Tables.ext
    · funext k
      exact (hfilled k k.isLt).1
    · funext k
      exact (hfilled k k.isLt).2
  · intro i t h k hk
    by_cases hki : k = i
    · simp [Tables.put, hki]
    · have : k.val ≠ i := fun e => hki (Fin.ext e)
      simpa [Tables.put, hki] using h k (by omega)

/-- The body of the double loop. -/
def compareSwap (i : Fin n) (t : Tables n w) (j : Fin n) : Tables n w :=
  if t.raw j > t.raw i then (t.put i (t.raw j) (t.link j)).put j (t.raw i) (t.link i) else t

/-- The loops that sort the readings; `i` and `j` both go over the whole table. -/
def sortTables (t : Tables n w) : Tables n w :=
  (List.finRange n).foldl (fun t i => (List.finRange n).foldl (compareSwap i) t) t

/-- What the entries are sorted by. -/
abbrev reading (e : BitVec 16 × BitVec w) : Nat := e.1.toNat

theorem entries_compareSwap (i j : Fin n) (t : Tables n w) :
    (compareSwap i t j).entries = exchange reading i t.entries j := by
  unfold compareSwap exchange
  by_cases h : t.raw j > t.raw i
  · have hkey : reading (t.entries i) < reading (t.entries j) := BitVec.lt_def.mp h
    rw [if_pos h, if_pos hkey]
    funext k
    simp only [Tables.entries, Tables.put, Function.comp_apply, Function.update_apply, Equiv.swap_apply_def]
    split_ifs <;> simp_all
  · have hkey : ¬reading (t.entries i) < reading (t.entries j) := fun hlt => h (BitVec.lt_def.mpr hlt)
    rw [if_neg h, if_neg hkey]

/-- The drivers' loop is the exchange sort of the readings with their link states. -/
theorem entries_sortTables (t : Tables n w) : (sortTables t).entries = exchangeSort reading t.entries := by
  have hpass (i : Fin n) (t : Tables n w) :
      ((List.finRange n).foldl (compareSwap i) t).entries = pass reading t.entries i :=
    (List.foldl_hom Tables.entries fun t j => (entries_compareSwap i j t).symm).symm
  exact (List.foldl_hom Tables.entries fun t i => (hpass i t).symm).symm

theorem raw_eq_entries (t : Tables n w) (i : Fin n) : (t.raw i).toNat = reading (t.entries i) := rfl

theorem sortTables_perm (t : Tables n w) :
    ∃ τ : Equiv.Perm (Fin n), (sortTables t).raw = t.raw ∘ τ ∧ (sortTables t).link = t.link ∘ τ := by
  obtain ⟨τ, hτ⟩ := exchangeSort_perm reading t.entries
  rw [← entries_sortTables] at hτ
  refine ⟨τ, ?_, ?_⟩
  · funext i
    exact congrArg Prod.fst (congrFun hτ i)
  · funext i
    exact congrArg Prod.snd (congrFun hτ i)

theorem sortTables_ascending (t : Tables n w) {i j : Fin n} (hij : i ≤ j) : (sortTables t).raw i ≤ (sortTables t).raw j := by
  have h := monotone_exchangeSort reading t.entries hij
  rw [← entries_sortTables] at h
  exact BitVec.le_def.mpr h

theorem ofFn_sortTables (t : Tables n w) :
    List.ofFn (fun i => ((sortTables t).raw i).toNat) = t.readings.sort := by
  simp only [raw_eq_entries, entries_sortTables]
  exact (sort_keys t.entries).symm

/-- Each link state is still there. -/
theorem links_sortTables (t : Tables n w) : (sortTables t).links = t.links := by
  obtain ⟨τ, -, hlink⟩ := sortTables_perm t
  simp only [Tables.links, hlink, Function.comp_apply]
  exact Equiv.sum_comp τ fun i => (t.link i).toNat

end Loops

/-! ## Sums -/

/-- The sum of the middle 120 of 200 readings. -/
def middle (readings : Multiset Nat) : Nat := window 40 160 readings

section Sums

variable {w : Nat}

/-- The loop that adds up the middle readings, and the link states. Both sums are far from the end of 32 bits, and of
what single precision holds (`middle_lt`). -/
def sums (t : Tables 200 w) : Nat × Nat :=
  (List.finRange 200).foldl
    (fun s i => (s.1 + (if i.val ≥ 40 ∧ i.val < 160 then (t.raw i).toNat else 0), s.2 + (t.link i).toNat)) (0, 0)

/-- A loop over the entries that adds one of their values. -/
theorem foldl_add {M : Type} [AddCommMonoid M] {n : Nat} (x : Fin n → M) (s : M) :
    (List.finRange n).foldl (fun s i => s + x i) s = s + ∑ i, x i := by
  induction n generalizing s with
  | zero => simp
  | succ n ih =>
    rw [List.finRange_succ, List.foldl_cons, List.foldl_map, ih, Fin.sum_univ_succ, add_assoc]

theorem sums_eq (t : Tables 200 w) :
    sums t = (∑ i, if 40 ≤ i.val ∧ i.val < 160 then (t.raw i).toNat else 0, t.links) := by
  have h := foldl_add (fun i : Fin 200 => (if 40 ≤ i.val ∧ i.val < 160 then (t.raw i).toNat else 0, (t.link i).toNat)) (0, 0)
  refine h.trans ?_
  rw [Prod.mk_zero_zero, zero_add]
  exact Prod.ext Prod.fst_sum Prod.snd_sum

/-- What the drivers average: the middle readings, and all the link states. -/
theorem sums_sortTables (t : Tables 200 w) : sums (sortTables t) = (middle t.readings, t.links) := by
  rw [sums_eq, links_sortTables, middle, window, ← ofFn_sortTables, sum_window (by decide)]

theorem middle_mono {t t' : Tables 200 w} (h : ∀ i, t.raw i ≤ t'.raw i) : middle t.readings ≤ middle t'.readings :=
  window_mono (by decide) fun i => BitVec.le_def.mp (h i)

theorem middle_lt (t : Tables 200 w) : middle t.readings < 2 ^ 24 := by
  have hsum : (sums (sortTables t)).1 = middle t.readings := by rw [sums_sortTables]
  have hentry (i : Fin 200) : (if 40 ≤ i.val ∧ i.val < 160 then ((sortTables t).raw i).toNat else 0) ≤ 65535 := by
    have := ((sortTables t).raw i).isLt
    split <;> omega
  have hle := Finset.sum_le_card_nsmul Finset.univ _ 65535 fun i _ => hentry i
  simp only [Finset.card_univ, Fintype.card_fin, smul_eq_mul] at hle
  rw [sums_eq] at hsum
  omega

/-- A steady signal. -/
theorem middle_const (c : BitVec 16) (link : Fin 200 → BitVec w) :
    middle (Tables.mk (fun _ => c) link).readings = 120 * c.toNat := by
  have hsum : (sums (sortTables (Tables.mk (fun _ => c) link))).1 = middle (Tables.mk (fun _ => c) link).readings := by
    rw [sums_sortTables]
  obtain ⟨τ, hraw, -⟩ := sortTables_perm (Tables.mk (fun _ => c) link)
  rw [← hsum, sums_eq, hraw]
  have hcard : (Finset.univ.filter fun i : Fin 200 => 40 ≤ i.val ∧ i.val < 160).card = 120 := by decide +kernel
  simp only [Function.comp_apply, Finset.sum_ite, Finset.sum_const, hcard, smul_eq_mul, mul_zero, add_zero]

end Sums

/-! ## The index -/

namespace Lan887x

/-- The index for an average, in whole numbers. -/
def sqinum (sqiavg : Nat) : Nat :=
  if sqiavg ≥ 299 then 0
  else if sqiavg ≥ 237 then 1
  else if sqiavg ≥ 189 then 2
  else if sqiavg ≥ 150 then 3
  else if sqiavg ≥ 119 then 4
  else if sqiavg ≥ 94 then 5
  else if sqiavg ≥ 75 then 6
  else if sqiavg > 0 then 7
  else 0

/-- `lan887x_get_sqi_100m`, once the tables are full -/
def sqi (t : Tables 200 8) : Nat :=
  let s := sums (sortTables t)
  if s.2 / 200 < 1 then 0 else sqinum (s.1 / 120)

/-- `lan887x_get_sqi_100m`, given what register `0x42E` reads back (nothing when the read fails), what each of the 200
reads leaves in `temp`, and the link status that the driver's data have at that time. -/
def getSqi100m (method : Option (BitVec 16)) (temp : Fin 200 → BitVec 16) (linkStatus : Fin 200 → Bool) : Nat :=
  if method = some 0x9572#16 then
    sqi ((List.finRange 200).foldl (fun t i => t.put i (temp i) (if linkStatus i then 1 else 0)) ⟨fun _ => 0, fun _ => 1⟩)
  else 0

theorem sqinum_cases (a : Nat) :
    299 ≤ a ∧ sqinum a = 0 ∨ (237 ≤ a ∧ a < 299) ∧ sqinum a = 1 ∨ (189 ≤ a ∧ a < 237) ∧ sqinum a = 2 ∨
      (150 ≤ a ∧ a < 189) ∧ sqinum a = 3 ∨ (119 ≤ a ∧ a < 150) ∧ sqinum a = 4 ∨ (94 ≤ a ∧ a < 119) ∧ sqinum a = 5 ∨
      (75 ≤ a ∧ a < 94) ∧ sqinum a = 6 ∨ (0 < a ∧ a < 75) ∧ sqinum a = 7 ∨ a = 0 ∧ sqinum a = 0 := by
  unfold sqinum
  repeat' split
  all_goals omega

/-- A greater average gives no greater index. The index of the average zero is that of the worst signal. -/
theorem sqinum_anti {a b : Nat} (ha : 0 < a) (hab : a ≤ b) : sqinum b ≤ sqinum a := by
  have hcasesa := sqinum_cases a
  have hcasesb := sqinum_cases b
  omega

/-- The driver gives the index of the readings in the order in which it takes them. -/
theorem getSqi100m_eq (temp : Fin 200 → BitVec 16) (linkStatus : Fin 200 → Bool) :
    getSqi100m (some 0x9572#16) temp linkStatus = sqi ⟨temp, fun i => if linkStatus i then 1 else 0⟩ := by
  rw [getSqi100m, if_pos rfl, foldl_put]

theorem sqi_eq (t : Tables 200 8) : sqi t = if t.links / 200 < 1 then 0 else sqinum (middle t.readings / 120) := by
  unfold sqi
  rw [sums_sortTables]

end Lan887x

namespace Lan8770

/-- The index for an average. -/
def sqiNum (sqiAvg : ℚ) : Nat :=
  if sqiAvg ≥ 299 then 0
  else if sqiAvg < 299 ∧ sqiAvg ≥ 237 then 1
  else if sqiAvg < 237 ∧ sqiAvg ≥ 189 then 2
  else if sqiAvg < 189 ∧ sqiAvg ≥ 150 then 3
  else if sqiAvg < 150 ∧ sqiAvg ≥ 119 then 4
  else if sqiAvg < 119 ∧ sqiAvg ≥ 94 then 5
  else if sqiAvg < 94 ∧ sqiAvg ≥ 75 then 6
  else if sqiAvg < 75 ∧ sqiAvg ≥ 0 then 7
  else 8

/-- `phy_sqi_read`, once the tables are full. The averages are exact here; those in single precision are on the same
side of each bound (`le_iff_of_near`). -/
def sqi (t : Tables 200 16) : Nat :=
  let s := sums (sortTables t)
  if (s.2 : ℚ) / 200 < 1 then 0 else sqiNum ((s.1 : ℚ) / 120)

/-- A return code of `phy_sqi_read`; `access` is one of the register accesses. -/
inductive Rc
  | ok
  | invState
  | incomplete
  | access (rc : Int)
  deriving DecidableEq, Repr

/-- What the accesses of `phy_sqi_read` give. -/
structure Accesses where
  /-- `phy_get_link_status_enhanced` -/
  link : Except Rc Bool
  /-- The writes that select the method, and what register `0x2E` reads back. -/
  method : Except Rc (BitVec 16)
  /-- The update of the coefficient register before the readings. -/
  update : Except Rc Unit
  /-- A pass of the loop: the update, the reading and the link state. -/
  sample : Fin 200 → Except Rc (BitVec 16 × BitVec 16)

/-- The tables of `phy_sqi_read`, filled. -/
def fill (a : Accesses) : Except Rc (Tables 200 16) :=
  (List.finRange 200).foldlM (fun t i => return t.put i (← a.sample i).1 (← a.sample i).2)
    ⟨fun _ => 0, fun _ => 0x0101⟩

/-- `phy_sqi_read` between its first access and the end: the value, or the return code of what fails. -/
def sqiValue (a : Accesses) : Except Rc Nat := do
  if ← a.link then
    if (← a.method) = 0x9572#16 then
      a.update
      return sqi (← fill a)
    else throw .incomplete
  else return 0

/-- `phy_sqi_read`: the return code, and what is stored in `*value`. -/
def phySqiRead (initDone : Bool) (a : Accesses) : Rc × Option Nat :=
  if !initDone then (.invState, none)
  else
    match sqiValue a with
    | .ok sqiNum => (.ok, some sqiNum)
    | .error rc => (rc, some 0)

/-- The index looks at the whole part of the average. -/
theorem sqiNum_eq {a : ℚ} (ha : 0 ≤ a) : sqiNum a = if ⌊a⌋₊ = 0 then 7 else Lan887x.sqinum ⌊a⌋₊ := by
  have hle (k : Nat) : (k : ℚ) ≤ a ↔ k ≤ ⌊a⌋₊ := (Nat.le_floor_iff ha).symm
  have h299 := hle 299
  have h237 := hle 237
  have h189 := hle 189
  have h150 := hle 150
  have h119 := hle 119
  have h94 := hle 94
  have h75 := hle 75
  push_cast at h299 h237 h189 h150 h119 h94 h75
  have hcases := Lan887x.sqinum_cases ⌊a⌋₊
  simp only [sqiNum, ge_iff_le, ← not_le, h299, h237, h189, h150, h119, h94, h75, ha, and_true]
  repeat' split
  all_goals omega

/-- When nothing fails, the driver gives the index of the readings in the order in which it takes them. -/
theorem phySqiRead_eq {a : Accesses} {raw link : Fin 200 → BitVec 16} (hlink : a.link = .ok true)
    (hmethod : a.method = .ok 0x9572#16) (hupdate : a.update = .ok ()) (hsample : ∀ i, a.sample i = .ok (raw i, link i)) :
    phySqiRead true a = (.ok, some (sqi ⟨raw, link⟩)) := by
  have hloop (l : List (Fin 200)) (t : Tables 200 16) :
      l.foldlM (fun t i => return t.put i (← a.sample i).1 (← a.sample i).2) t =
        (.ok (l.foldl (fun t i => t.put i (raw i) (link i)) t) : Except Rc _) := by
    induction l generalizing t with
    | nil => rfl
    | cons i l ih =>
      rw [List.foldlM_cons, hsample]
      exact ih _
  have hfill : fill a = .ok ⟨raw, link⟩ := by rw [fill, hloop, foldl_put]
  have hvalue : sqiValue a = .ok (sqi ⟨raw, link⟩) := by
    rw [sqiValue, hlink, hmethod, hupdate, hfill]
    rfl
  rw [phySqiRead, hvalue]
  rfl

theorem sqi_eq (t : Tables 200 16) :
    sqi t = if t.links / 200 < 1 then 0
      else if middle t.readings / 120 = 0 then 7 else Lan887x.sqinum (middle t.readings / 120) := by
  have havg : ⌊(middle t.readings : ℚ) / 120⌋₊ = middle t.readings / 120 := by
    norm_cast
  have hlink : (t.links : ℚ) / 200 < 1 ↔ t.links / 200 < 1 := by
    rw [div_lt_one (by norm_num), Nat.div_lt_one_iff (by norm_num)]
    exact_mod_cast Iff.rfl
  simp only [sqi, sums_sortTables, hlink]
  rw [sqiNum_eq (by positivity), havg]

end Lan8770
/-! ## The index of the readings -/

/-- The double loop sorts the readings upwards and keeps each link state with its reading, the sum is that of the middle
readings, and the index depends on the multiset of the readings and does not rise when readings do. -/
theorem sqi_of_middle :
    (∀ (n w : Nat) (t : Tables n w), (∀ i j : Fin n, i ≤ j → (sortTables t).raw i ≤ (sortTables t).raw j) ∧
      ∃ τ : Equiv.Perm (Fin n), (sortTables t).raw = t.raw ∘ τ ∧ (sortTables t).link = t.link ∘ τ) ∧
    (∀ (w : Nat) (t : Tables 200 w), (sums (sortTables t)).1 = middle t.readings) ∧
    (∀ t t' : Tables 200 8, t'.readings = t.readings → t'.links = t.links → Lan887x.sqi t' = Lan887x.sqi t) ∧
    (∀ t t' : Tables 200 16, t'.readings = t.readings → t'.links = t.links → Lan8770.sqi t' = Lan8770.sqi t) ∧
    (∀ t t' : Tables 200 8, (∀ i, t.raw i ≤ t'.raw i) → t'.link = t.link → 0 < middle t.readings / 120 →
      Lan887x.sqi t' ≤ Lan887x.sqi t) ∧
    (∀ t t' : Tables 200 16, (∀ i, t.raw i ≤ t'.raw i) → t'.link = t.link → Lan8770.sqi t' ≤ Lan8770.sqi t) := by
  refine ⟨?_, ?_, ?_, ?_, ?_, ?_⟩
  · intro n w t
    exact ⟨fun i j hij => sortTables_ascending t hij, sortTables_perm t⟩
  · intro w t
    rw [sums_sortTables]
  · intro t t' hreadings hlinks
    rw [Lan887x.sqi_eq, Lan887x.sqi_eq, hreadings, hlinks]
  · intro t t' hreadings hlinks
    rw [Lan8770.sqi_eq, Lan8770.sqi_eq, hreadings, hlinks]
  · intro t t' hraw hlink havg
    have hle := Nat.div_le_div_right (c := 120) (middle_mono hraw)
    have hanti := Lan887x.sqinum_anti havg hle
    rw [Lan887x.sqi_eq, Lan887x.sqi_eq, Tables.links_congr hlink]
    split <;> omega
  · intro t t' hraw hlink
    have hle := Nat.div_le_div_right (c := 120) (middle_mono hraw)
    rw [Lan8770.sqi_eq, Lan8770.sqi_eq, Tables.links_congr hlink]
    have hbest := Lan887x.sqinum_cases (middle t'.readings / 120)
    by_cases havg : middle t.readings / 120 = 0
    · simp only [havg]
      split
      · omega
      · split <;> simp only [if_true] <;> omega
    · have hanti := Lan887x.sqinum_anti (Nat.pos_of_ne_zero havg) hle
      have hpos : middle t'.readings / 120 ≠ 0 := by omega
      rw [if_neg havg, if_neg hpos]
      split <;> omega

theorem sqi_of_middle_steady :
    Lan887x.sqi ⟨fun _ => 100, fun _ => 1⟩ ≤ Lan887x.sqi ⟨fun _ => 80, fun _ => 1⟩ ∧
      Lan8770.sqi ⟨fun _ => 100, fun _ => 1⟩ ≤ Lan8770.sqi ⟨fun _ => 80, fun _ => 1⟩ := by
  constructor
  · apply sqi_of_middle.2.2.2.2.1 ⟨fun _ => 80, fun _ => 1⟩ ⟨fun _ => 100, fun _ => 1⟩
    · intro _
      exact (by decide : (80 : BitVec 16) ≤ 100)
    · rfl
    · rw [middle_const]
      decide
  · apply sqi_of_middle.2.2.2.2.2 ⟨fun _ => 80, fun _ => 1⟩ ⟨fun _ => 100, fun _ => 1⟩
    · intro _
      exact (by decide : (80 : BitVec 16) ≤ 100)
    · rfl

end Lan80xx.T1.Sqi
