import Lan80xx.Lib.VarPoll
import Mathlib.Data.BitVec

/-!
# T1 PHYs: register reads and polling

The helpers that read a register of clause 22, or one of an MMD, through the callouts of the application, and those that
read it until its value satisfies a condition.

- `phyMmdRegRd32_failed`: a read of 32 bits that fails leaves the variable as it was;
- `noGhost_rd32_iff`: the failed reads of 32 bits that look like successful ones;
- `polls_safe_iff`: the code of a read is not looked at, so these end the loops with success.
-/

namespace Lan80xx.T1.Poll

open VarPoll

/-! ## The callouts -/

/-- `MEPA_RC_OK`, `MEPA_RC_INCOMPLETE`, `MEPA_RC_NOT_IMPLEMENTED` -/
def rcOk : Int := 0
def rcIncomplete : Int := -3
def rcNotImplemented : Int := -4

/-- The callouts, where the application has passed them, on a device of any kind. A read may leave anything in the
variable when it fails. -/
structure Callout (H : Type) where
  miimRead : Option (BitVec 8 → BitVec 16 → H → Outcome (BitVec 16) H)
  miimWrite : Option (BitVec 8 → BitVec 16 → H → Int × H)

/-- `MII_MMD_CTRL` -/
def miiMmdCtrl : BitVec 8 := 0x0d

/-- `MII_MMD_DATA` -/
def miiMmdData : BitVec 8 := 0x0e

/-- `MMDCTRL_NO_POST_INC` -/
def mmdctrlNoPostInc : BitVec 16 := 0x4000

section Reads

variable {H : Type} (callout : Callout H)

/-- `phy_reg_rd` -/
def phyRegRd (offset : BitVec 32) (_ : BitVec 16) (h : H) : Outcome (BitVec 16) H :=
  match callout.miimRead with
  | none => ⟨rcNotImplemented, 0, h⟩
  | some miimRead => miimRead (offset.setWidth 8) 0 h

/-- `phy_mmd_reg_rd` -/
def phyMmdRegRd (dev offset : BitVec 32) (value : BitVec 16) (h : H) : Outcome (BitVec 16) H :=
  match callout.miimRead, callout.miimWrite with
  | some miimRead, some miimWrite =>
    let w := miimWrite miiMmdCtrl (dev.setWidth 16) h
    if w.1 ≠ rcOk then ⟨w.1, 0, w.2⟩
    else
      let w := miimWrite miiMmdData (offset.setWidth 16) w.2
      if w.1 ≠ rcOk then ⟨w.1, 0, w.2⟩
      else
        let w := miimWrite miiMmdCtrl (mmdctrlNoPostInc ||| dev.setWidth 16) w.2
        if w.1 ≠ rcOk then ⟨w.1, 0, w.2⟩ else miimRead miiMmdData 0 w.2
  | _, _ => ⟨rcNotImplemented, value, h⟩

/-- `phy_mmd_reg_rd32`. The variables of the halves are not initialised; they are used when both reads have succeeded. -/
def phyMmdRegRd32 (devad : BitVec 8) (addr : BitVec 32) (value : BitVec 32) (h : H) : Outcome (BitVec 32) H :=
  let l := phyMmdRegRd callout (devad.setWidth 32) addr 0 h
  if l.rc ≠ rcOk then ⟨l.rc, value, l.state⟩
  else
    let u := phyMmdRegRd callout (devad.setWidth 32) (addr + 1) 0 l.state
    if u.rc ≠ rcOk then ⟨u.rc, value, u.state⟩ else ⟨rcOk, u.val ++ l.val, u.state⟩

/-- The read of `phy_mmd_reg_poll`. -/
def rd16 (devad : BitVec 8) (addr : BitVec 16) (value : BitVec 16) (h : H) : Outcome (BitVec 16) H :=
  if devad = 0 then phyRegRd callout (addr.setWidth 32) value h
  else phyMmdRegRd callout (devad.setWidth 32) (addr.setWidth 32) value h

/-- The read of `phy_mmd_reg_poll32`. -/
def rd32 (devad : BitVec 8) (addr : BitVec 16) (value : BitVec 32) (h : H) : Outcome (BitVec 32) H :=
  phyMmdRegRd32 callout devad (addr.setWidth 32) value h

end Reads

/-- `result == cond` -/
def satisfies {w : Nat} (mtch mask : BitVec w) (cond : BitVec 8) (v : BitVec w) : Bool :=
  (if v &&& mask = mtch then 1#8 else 0#8) = cond

section Polls

variable {H : Type} (callout : Callout H) (devad : BitVec 8) (addr : BitVec 16)

/-- What a loop returns, with the variable and the device. -/
def pollRc {α : Type} (r : Bool × α × H) : Int × α × H := (if r.1 then rcOk else rcIncomplete, r.2)

/-- `phy_mmd_reg_poll`. The timer, set to `to`, is looked at before each read; it expires before read `n`. -/
def phyMmdRegPoll (mtch mask : BitVec 16) (cond : BitVec 8) (n : Nat) (val : BitVec 16) (h : H) :
    Int × BitVec 16 × H :=
  pollRc (poll (rd16 callout devad addr) (satisfies mtch mask cond) n val h)

/-- `phy_mmd_reg_poll32` -/
def phyMmdRegPoll32 (mtch mask : BitVec 32) (cond : BitVec 8) (n : Nat) (val : BitVec 32) (h : H) :
    Int × BitVec 32 × H :=
  pollRc (poll (rd32 callout devad addr) (satisfies mtch mask cond) n val h)

end Polls

/-! ## What failed reads leave -/

section Failed

variable {H : Type} {callout : Callout H} {h : H}

/-- A read of 32 bits that fails leaves the variable as it was, whatever the callouts do. -/
theorem phyMmdRegRd32_failed {devad : BitVec 8} {addr v : BitVec 32} (hrc : (phyMmdRegRd32 callout devad addr v h).rc ≠ 0) :
    (phyMmdRegRd32 callout devad addr v h).val = v := by
  unfold phyMmdRegRd32 at hrc ⊢
  dsimp only at hrc ⊢
  split
  · rfl
  · split
    · rfl
    · simp_all [rcOk]

end Failed

/-! ## The loops -/

section Ghosts

variable {H : Type} {callout : Callout H} {devad : BitVec 8} {addr : BitVec 16} {n : Nat} {h : H}

/-- With 32 bits, the failed reads leave the value of the last read that succeeded, or the caller's when none has. -/
theorem noGhost_rd32_iff {sat : BitVec 32 → Bool} {val : BitVec 32} :
    NoGhost (rd32 callout devad addr) sat n val h ↔
      ((rd32 callout devad addr val h).rc ≠ rcOk → sat val = false) := by
  constructor
  · intro hno hrc
    have hval := hno 0 (Nat.zero_le n) (fun j hj => absurd hj (Nat.not_lt_zero j)) hrc
    rwa [reads_zero, rd32, phyMmdRegRd32_failed hrc] at hval
  · intro hfirst k
    induction k with
    | zero =>
      intro _ _ hrc
      rw [reads_zero] at hrc ⊢
      rw [rd32, phyMmdRegRd32_failed hrc]
      exact hfirst hrc
    | succ k ih =>
      intro hk hbefore hrc
      rw [reads] at hrc ⊢
      rw [rd32, phyMmdRegRd32_failed hrc]
      by_cases hlast : (reads (rd32 callout devad addr) val h k).rc = 0
      · exact hbefore k (Nat.lt_succ_self k) hlast
      · exact ih (by omega) (fun j hj => hbefore j (by omega)) hlast

end Ghosts

section Right

variable {H α : Type} (rd : α → H → Outcome α H) (sat : α → Bool) (n : Nat) (val : α) (h : H)

/-- The helper returns `MEPA_RC_OK` only when a read that it has made succeeded with a value that satisfies the condition,
and hands back that value; it returns an error when every read fails. -/
structure PollSafe (r : Int × α × H) : Prop where
  found : r.1 = rcOk → ∃ k, Made rd sat n val h k ∧ (reads rd val h k).rc = rcOk ∧
    sat (reads rd val h k).val = true ∧ r.2.1 = (reads rd val h k).val
  failed : (∀ k, Made rd sat n val h k → (reads rd val h k).rc ≠ rcOk) → r.1 ≠ rcOk

variable {rd sat n val h}

@[simp]
theorem pollRc_fst_eq_rcOk (r : Bool × α × H) : (pollRc r).1 = rcOk ↔ r.1 = true := by
  cases hr : r.1 <;> simp [pollRc, hr, rcOk, rcIncomplete]

theorem pollSafe_iff :
    PollSafe rd sat n val h (pollRc (poll rd sat n val h)) ↔ NoGhost rd sat n val h := by
  rw [← safe_iff]
  constructor
  · rintro ⟨hfound, hfailed⟩
    constructor
    · intro hok
      exact hfound ((pollRc_fst_eq_rcOk _).mpr hok)
    · intro hall
      simpa using hfailed hall
  · rintro ⟨hfound, hfailed⟩
    constructor
    · intro hok
      exact hfound ((pollRc_fst_eq_rcOk _).mp hok)
    · intro hall
      simpa using hfailed hall

end Right

/-- `phy_mmd_reg_poll` is right if and only if no failed read leaves a value that satisfies the condition, and
`phy_mmd_reg_poll32` if and only if the variable of the caller does not satisfy it or the first read succeeds. -/
theorem polls_safe_iff {H : Type} (callout : Callout H) (devad : BitVec 8) (addr : BitVec 16) (cond : BitVec 8) (n : Nat)
    (h : H) :
    (∀ mtch mask val : BitVec 16,
      PollSafe (rd16 callout devad addr) (satisfies mtch mask cond) n val h
          (phyMmdRegPoll callout devad addr mtch mask cond n val h) ↔
        NoGhost (rd16 callout devad addr) (satisfies mtch mask cond) n val h) ∧
    ∀ mtch mask val : BitVec 32,
      PollSafe (rd32 callout devad addr) (satisfies mtch mask cond) n val h
          (phyMmdRegPoll32 callout devad addr mtch mask cond n val h) ↔
        ((rd32 callout devad addr val h).rc ≠ rcOk → satisfies mtch mask cond val = false) := by
  constructor
  · intro mtch mask val
    exact pollSafe_iff
  · intro mtch mask val
    rw [← noGhost_rd32_iff (n := n)]
    exact pollSafe_iff

/-- A bus on which every access fails and leaves the variables alone. -/
def deadBus : Callout Unit where
  miimRead := some fun _ v h => ⟨-1, v, h⟩
  miimWrite := some fun _ _ h => (-1, h)

/-- Waiting for the end of a reset (`MII_BMCR` until `BMCR_RESET` is clear) ends at once with success on a dead bus. -/
theorem not_polls_safe :
    (phyMmdRegPoll deadBus 0 0 0x8000 0x8000 0 100 0xffff ()).1 = rcOk ∧
    ¬PollSafe (rd16 deadBus 0 0) (satisfies 0x8000 0x8000 0) 100 0xffff ()
      (phyMmdRegPoll deadBus 0 0 0x8000 0x8000 0 100 0xffff ()) := by
  have hok : (phyMmdRegPoll deadBus 0 0 0x8000 0x8000 0 100 0xffff ()).1 = rcOk := by decide
  constructor
  · exact hok
  · intro hsafe
    refine hsafe.failed (fun k _ => ?_) hok
    cases k <;> simp [reads, rd16, phyRegRd, deadBus, rcOk]

end Lan80xx.T1.Poll
