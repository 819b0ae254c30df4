import Lan80xx.Lib.Journal
import Mathlib.Data.BitVec

/-!
# LAN8814: register accesses over MIIM

An access of a direct, extended page or MMD register is a number of MIIM transactions. The calls hand on the error of a
write that sets up an extended page access; the return codes of all other transactions are dropped.

- `access_propagates_iff`: when an access that returns OK has had no failing transaction.
-/

namespace Lan80xx.Lan8814.Miim

open Fallible Journal

/-! ## Transactions -/

inductive Transaction
  | read (addr : BitVec 16)
  | write (addr value : BitVec 16)
  deriving DecidableEq, Repr

/-- A transaction with its return code; `MESA_RC_OK` is 0. -/
structure Entry where
  op : Transaction
  rc : Int
  deriving DecidableEq, Repr

/-- The callouts: the return code of the `n`-th transaction, and the word that a read leaves in the variable. -/
structure Callout where
  rc : Nat → Int
  data : Nat → BitVec 16

/-- A call; an error is a return code other than OK. The state is the transactions so far. -/
abbrev Call (α : Type) := EStateM Int (List Entry) α

variable (c : Callout)

/-- `miim_read` -/
def miimRead (addr : BitVec 16) : Call (Int × BitVec 16) := fun log =>
  .ok (c.rc log.length, c.data log.length) (log ++ [⟨.read addr, c.rc log.length⟩])

/-- `miim_write` -/
def miimWrite (addr value : BitVec 16) : Call Int := fun log =>
  .ok (c.rc log.length) (log ++ [⟨.write addr value, c.rc log.length⟩])

/-! ## Registers -/

/-- `LAN8814_MMD_ACCESS_CTRL` -/
def mmdAccessCtrl : BitVec 16 := 13
/-- `LAN8814_MMD_ACCESS_ADDR_DATA` -/
def mmdAccessAddrData : BitVec 16 := 14
/-- `LAN8814_F_MMD_ACCESS_CTRL_MMD_FUNC` -/
def mmdFunc : BitVec 16 := 0x4000
/-- `LAN8814_EXT_PAGE_ACCESS_CTRL` -/
def extPageAccessCtrl : BitVec 16 := 22
/-- `LAN8814_EXT_PAGE_ACCESS_ADDR_DATA` -/
def extPageAccessAddrData : BitVec 16 := 23
/-- `LAN8814_F_EXT_PAGE_ACCESS_CTRL_EP_FUNC` -/
def epFunc : BitVec 16 := 0x4000
/-- `LAN8814_F_EXT_PAGE_ACCESS_CTRL_INCR_RD_WR` -/
def incrRdWr : BitVec 16 := 0x8000
/-- `LAN8814_DEF_MASK` -/
def defMask : BitVec 16 := 0xFFFF

/-! ## Accesses -/

/-- `lan8814_direct_reg_rd` -/
def directRegRd (addr : BitVec 16) : Call (BitVec 16) := do
  let r ← miimRead c addr
  return r.2

/-- The word that a write stores. -/
def regVal (old value mask : BitVec 16) : BitVec 16 :=
  if mask ≠ defMask then (old &&& ~~~mask) ||| (value &&& mask) else value

/-- `lan8814_direct_reg_wr` -/
def directRegWr (addr value mask : BitVec 16) : Call Unit := do
  let r ← miimRead c addr
  if r.1 = 0 then do
    let _ ← miimWrite c addr (regVal r.2 value mask)
    return ()
  else return ()

/-- `MEPA_RC_ERR` of a write -/
def writeOrErr (addr value : BitVec 16) : Call Unit := do
  let rc ← miimWrite c addr value
  failIf (rc < 0) rc

/-- The set-up of an extended page access. -/
def extSetup (page addr func : BitVec 16) : Call Unit := do
  writeOrErr c extPageAccessCtrl page
  writeOrErr c extPageAccessAddrData addr
  writeOrErr c extPageAccessCtrl (func ||| page)

/-- `lan8814_ext_reg_rd` -/
def extRegRd (page addr : BitVec 16) : Call (BitVec 16) := do
  extSetup c page addr epFunc
  directRegRd c extPageAccessAddrData

/-- `lan8814_ext_reg_wr` -/
def extRegWr (page addr value mask : BitVec 16) : Call Unit := do
  extSetup c page addr epFunc
  directRegWr c extPageAccessAddrData value mask

/-- `lan8814_ext_incr_reg_rd` -/
def extIncrRegRd (page addr : BitVec 16) (startAddr : Bool) : Call (BitVec 16) := do
  when (startAddr = true) do
    extSetup c page addr incrRdWr
  directRegRd c extPageAccessAddrData

/-- The set-up of an MMD access. -/
def mmdSetup (mmd addr : BitVec 16) : Call Unit := do
  directRegWr c mmdAccessCtrl mmd defMask
  directRegWr c mmdAccessAddrData addr defMask
  directRegWr c mmdAccessCtrl (mmdFunc ||| mmd) defMask

/-- `lan8814_mmd_reg_rd` -/
def mmdRegRd (mmd addr : BitVec 16) : Call (BitVec 16) := do
  mmdSetup c mmd addr
  directRegRd c mmdAccessAddrData

/-- `lan8814_mmd_reg_wr` -/
def mmdRegWr (mmd addr value mask : BitVec 16) : Call Unit := do
  mmdSetup c mmd addr
  directRegWr c mmdAccessAddrData value mask

/-! ## Calls that return OK whatever happens -/

/-- The transactions `k` to `k + n - 1` succeed. -/
def Clean (k n : Nat) : Prop := ∀ i < n, c.rc (k + i) = 0

instance (k n : Nat) : Decidable (Clean c k n) := by unfold Clean; infer_instance

/-- The call always returns; of its transactions none fails exactly when the next `n` do not. -/
def Returns {α : Type} (x : Call α) (n : Nat) : Prop := ∀ log, ∃ a new, x log = .ok a (log ++ new) ∧
  ((∀ e ∈ new, e.rc = 0) ↔ Clean c log.length n) ∧ (Clean c log.length n → new.length = n)

section Returns

variable {c} {α β : Type} {x : Call α} {f : α → Call β} {k n n' : Nat}

theorem clean_add : Clean c k (n + n') ↔ Clean c k n ∧ Clean c (k + n) n' := by
  constructor
  · intro h
    refine ⟨fun i hi => h i (by omega), fun i hi => ?_⟩
    rw [Nat.add_assoc]
    exact h (n + i) (by omega)
  · rintro ⟨h, h'⟩ i hi
    by_cases hin : i < n
    · exact h i hin
    · have hlast := h' (i - n) (by omega)
      rwa [show k + n + (i - n) = k + i by omega] at hlast

theorem clean_one : Clean c k 1 ↔ c.rc k = 0 := by
  simp [Clean]

theorem Returns.bind (hx : Returns c x n) (hf : ∀ a, Returns c (f a) n') : Returns c (x >>= f) (n + n') := by
  intro log
  obtain ⟨a, new, hok, hgood, hlen⟩ := hx log
  obtain ⟨b, new', hok', hgood', hlen'⟩ := hf a (log ++ new)
  refine ⟨b, new ++ new', ?_, ?_, ?_⟩
  · rw [bind_of_ok hok, hok', List.append_assoc]
  · rw [List.forall_mem_append, hgood, clean_add]
    refine and_congr_right fun hc => ?_
    rw [hgood', List.length_append, hlen hc]
  · intro hc
    obtain ⟨hfirst, hrest⟩ := clean_add.mp hc
    rw [List.length_append, hlen hfirst, hlen']
    rwa [List.length_append, hlen hfirst]

theorem returns_directRegRd (addr : BitVec 16) : Returns c (directRegRd c addr) 1 := by
  intro log
  exact ⟨_, [_], rfl, by simp [clean_one], fun _ => rfl⟩

theorem returns_directRegWr (addr value mask : BitVec 16) : Returns c (directRegWr c addr value mask) 2 := by
  intro log
  have hread : miimRead c addr log =
      .ok (c.rc log.length, c.data log.length) (log ++ [⟨.read addr, c.rc log.length⟩]) := rfl
  by_cases h : c.rc log.length = 0
  · refine ⟨(), [⟨.read addr, c.rc log.length⟩,
      ⟨.write addr (regVal (c.data log.length) value mask), c.rc (log.length + 1)⟩], ?_, ?_, fun _ => rfl⟩
    · rw [directRegWr, bind_of_ok hread, if_pos h]
      simp [miimWrite, Bind.bind, EStateM.bind, pure, EStateM.pure]
    · rw [show (2 : Nat) = 1 + 1 from rfl, clean_add, clean_one, clean_one]
      simp
  · refine ⟨(), [⟨.read addr, c.rc log.length⟩], ?_, ?_, fun hc => absurd (hc 0 (by decide)) h⟩
    · rw [directRegWr, bind_of_ok hread, if_neg h]
      rfl
    · exact iff_of_false (fun hg => h (hg _ List.mem_cons_self)) fun hc => h (hc 0 (by decide))

theorem returns_mmdSetup (mmd addr : BitVec 16) : Returns c (mmdSetup c mmd addr) 6 :=
  (returns_directRegWr _ _ _).bind fun _ => (returns_directRegWr _ _ _).bind fun _ => returns_directRegWr _ _ _

end Returns

/-! ## Calls that hand on their errors -/

def Transaction.IsRead : Transaction → Prop
  | .read _ => True
  | .write _ _ => False

/-- The call writes `n` times, up to the first error, which it returns. -/
def Heeds (x : Call Unit) (n : Nat) : Prop := ∀ log,
  ((∃ i < n, c.rc (log.length + i) < 0) ∧ ∃ e new, x log = .error e (log ++ new) ∧ ∀ t ∈ new, ¬t.op.IsRead) ∨
  ((∀ i < n, ¬c.rc (log.length + i) < 0) ∧ ∃ new, x log = .ok () (log ++ new) ∧ (∀ t ∈ new, ¬t.op.IsRead) ∧
    new.length = n ∧ ((∀ e ∈ new, e.rc = 0) ↔ Clean c log.length n))

section Heeds

variable {c} {x y : Call Unit} {n n' : Nat}

theorem heeds_writeOrErr (addr value : BitVec 16) : Heeds c (writeOrErr c addr value) 1 := by
  intro log
  have hwrite : miimWrite c addr value log = .ok (c.rc log.length) (log ++ [⟨.write addr value, c.rc log.length⟩]) := rfl
  have hkind : ∀ t ∈ [(⟨.write addr value, c.rc log.length⟩ : Entry)], ¬t.op.IsRead := by simp [Transaction.IsRead]
  rw [writeOrErr, bind_of_ok hwrite]
  by_cases h : c.rc log.length < 0
  · refine Or.inl ⟨⟨0, by decide, h⟩, c.rc log.length, _, ?_, hkind⟩
    rw [failIf, Fallible.when, if_pos h]
    rfl
  · refine Or.inr ⟨fun i hi => ?_, _, ?_, hkind, rfl, by simp [clean_one]⟩
    · obtain rfl : i = 0 := by omega
      exact h
    · rw [failIf, Fallible.when, if_neg h]
      rfl

theorem Heeds.bind (hx : Heeds c x n) (hy : Heeds c y n') : Heeds c (x >>= fun _ => y) (n + n') := by
  intro log
  rcases hx log with ⟨⟨i, hi, hneg⟩, e, new, herr, hkind⟩ | ⟨hpos, new, hok, hkind, hlen, hgood⟩
  · exact Or.inl ⟨⟨i, by omega, hneg⟩, e, new, bind_of_error herr, hkind⟩
  · have hshift : (log ++ new).length = log.length + n := by rw [List.length_append, hlen]
    rw [bind_of_ok hok]
    rcases hy (log ++ new) with ⟨⟨i, hi, hneg⟩, e, new', herr, hkind'⟩ | ⟨hpos', new', hok', hkind', hlen', hgood'⟩
    · refine Or.inl ⟨⟨n + i, by omega, ?_⟩, e, new ++ new', by rw [herr, List.append_assoc], ?_⟩
      · rwa [hshift, Nat.add_assoc] at hneg
      · exact List.forall_mem_append.mpr ⟨hkind, hkind'⟩
    · refine Or.inr ⟨fun i hi => ?_, new ++ new', by rw [hok', List.append_assoc],
        List.forall_mem_append.mpr ⟨hkind, hkind'⟩, by rw [List.length_append, hlen, hlen'], ?_⟩
      · by_cases hin : i < n
        · exact hpos i hin
        · have hlast := hpos' (i - n) (by omega)
          rwa [hshift, show log.length + n + (i - n) = log.length + i by omega] at hlast
      · rw [List.forall_mem_append, hgood, hgood', hshift, clean_add]

theorem heeds_extSetup (page addr func : BitVec 16) : Heeds c (extSetup c page addr func) 3 :=
  (heeds_writeOrErr _ _).bind ((heeds_writeOrErr _ _).bind (heeds_writeOrErr _ _))

end Heeds

/-! ## Propagation -/

/-- An access that returns OK has had no failing transaction, and none writes after a failed read. -/
structure Propagates {α : Type} (x : Call α) (log : List Entry) : Prop where
  complete : ∀ a, outcome x log = .ok a → ∀ e ∈ added id log (final x log), e.rc = 0
  order : ∀ pre e post, added id log (final x log) = pre ++ e :: post → e.op.IsRead → e.rc ≠ 0 → ∀ t ∈ post, t.op.IsRead

/-- When an extended page access that takes `n` transactions after its set-up propagates its errors: one of the set-up
writes returns an error, or nothing fails. -/
def ExtHeeded (k n : Nat) : Prop := (∃ i < 3, c.rc (k + i) < 0) ∨ Clean c k (3 + n)

section Propagates

variable {c} {α : Type} {x : Call α} {y : Call Unit} {n n' : Nat} {log : List Entry}

theorem Returns.propagates_iff (hx : Returns c x n) : Propagates x log ↔ Clean c log.length n := by
  obtain ⟨a, new, hok, hgood, -⟩ := hx log
  have hadded : added id log (final x log) = new := by
    rw [final, hok]
    exact added_eq rfl
  constructor
  · intro h
    rw [← hgood, ← hadded]
    exact h.complete a (outcome_ok hok)
  · intro hc
    have hall := hgood.mpr hc
    refine ⟨fun _ _ => by rw [hadded]; exact hall, fun pre e post hsplit _ hfail => ?_⟩
    rw [hadded] at hsplit
    exact absurd (hall e (by simp [hsplit])) hfail

theorem Heeds.propagates_iff (hy : Heeds c y 3) (hx : Returns c x n) :
    Propagates (y >>= fun _ => x) log ↔ ExtHeeded c log.length n := by
  rcases hy log with ⟨hneg, e, new, herr, hkind⟩ | ⟨hpos, new, hok, -, hlen, hgood⟩
  · have hrun : (y >>= fun _ => x) log = .error e (log ++ new) := bind_of_error herr
    have hadded : added id log (final (y >>= fun _ => x) log) = new := by
      rw [final, hrun]
      exact added_eq rfl
    refine iff_of_true ⟨fun a ha => ?_, fun pre t post hsplit hread => ?_⟩ (Or.inl hneg)
    · rw [outcome_error hrun] at ha
      cases ha
    · rw [hadded] at hsplit
      exact absurd hread (hkind t (by simp [hsplit]))
  · obtain ⟨a, new', hok', hgood', -⟩ := hx (log ++ new)
    have hrun : (y >>= fun _ => x) log = .ok a (log ++ (new ++ new')) := by
      rw [bind_of_ok hok, hok', List.append_assoc]
    have hadded : added id log (final (y >>= fun _ => x) log) = new ++ new' := by
      rw [final, hrun]
      exact added_eq rfl
    have hall : (∀ e ∈ new ++ new', e.rc = 0) ↔ Clean c log.length (3 + n) := by
      rw [List.forall_mem_append, hgood, hgood', List.length_append, hlen, clean_add]
    constructor
    · intro h
      exact Or.inr (hall.mp (hadded ▸ h.complete a (outcome_ok hrun)))
    · rintro (⟨i, hi, hneg⟩ | hc)
      · exact absurd hneg (hpos i hi)
      · refine ⟨fun _ _ => by rw [hadded]; exact hall.mpr hc, fun pre e post hsplit _ hfail => ?_⟩
        rw [hadded] at hsplit
        exact absurd (hall.mpr hc e (by simp [hsplit])) hfail

end Propagates

theorem access_propagates_iff (log : List Entry) :
    (∀ addr, Propagates (directRegRd c addr) log ↔ Clean c log.length 1) ∧
    (∀ addr value mask, Propagates (directRegWr c addr value mask) log ↔ Clean c log.length 2) ∧
    (∀ page addr, Propagates (extRegRd c page addr) log ↔ ExtHeeded c log.length 1) ∧
    (∀ page addr value mask, Propagates (extRegWr c page addr value mask) log ↔ ExtHeeded c log.length 2) ∧
    (∀ page addr, Propagates (extIncrRegRd c page addr true) log ↔ ExtHeeded c log.length 1) ∧
    (∀ page addr, Propagates (extIncrRegRd c page addr false) log ↔ Clean c log.length 1) ∧
    (∀ mmd addr, Propagates (mmdRegRd c mmd addr) log ↔ Clean c log.length 7) ∧
    ∀ mmd addr value mask, Propagates (mmdRegWr c mmd addr value mask) log ↔ Clean c log.length 8 := by
  refine ⟨fun addr => ?_, fun addr value mask => ?_, fun page addr => ?_, fun page addr value mask => ?_,
    fun page addr => ?_, fun page addr => ?_, fun mmd addr => ?_, fun mmd addr value mask => ?_⟩
  · exact (returns_directRegRd addr).propagates_iff
  · exact (returns_directRegWr addr value mask).propagates_iff
  · exact (heeds_extSetup page addr epFunc).propagates_iff (returns_directRegRd _)
  · exact (heeds_extSetup page addr epFunc).propagates_iff (returns_directRegWr _ value mask)
  · exact (heeds_extSetup page addr incrRdWr).propagates_iff (returns_directRegRd _)
  · exact (returns_directRegRd extPageAccessAddrData).propagates_iff
  · exact ((returns_mmdSetup mmd addr).bind fun _ => returns_directRegRd _).propagates_iff
  · exact ((returns_mmdSetup mmd addr).bind fun _ => returns_directRegWr _ value mask).propagates_iff

/-- A direct read whose only transaction fails returns OK. -/
theorem not_access_propagates : ¬∀ (c : Callout) (log : List Entry) (addr : BitVec 16), Propagates (directRegRd c addr) log := by
  intro h
  have hprop := (h ⟨fun _ => -1, fun _ => 0⟩ [] 4).complete 0 rfl ⟨.read 4, -1⟩ (by decide)
  cases hprop

end Lan80xx.Lan8814.Miim
