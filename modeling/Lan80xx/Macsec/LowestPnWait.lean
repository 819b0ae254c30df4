import Lan80xx.Lib.Polling
import Lan80xx.Macsec.LowestPn

/-!
# The wait for an update of the packet number

`lan80xx_macsec_rx_sa_lowest_pn_update_` reads the control register of the update engine once, and then tests that word
until it says that the engine is done.

- `errorOf_awaitNextPn`: the wait ends at once or never;
- `rxSaLowestPnUpdate_eq_within`: the model of the call, for any number of passes;
- `lowest_pn_wait_iff`: the wait ends as it should exactly when the first word is one that it does not wait for.
-/

namespace Lan80xx.Macsec

open Fallible RegBus MacsecConf

variable {H : Type} (bus : Bus IoReg 32 H)

/-! ## The call with its loop -/

/-- `ENABLE_UPDATE` is set and `NEXTPN_WRITTEN` is not. -/
def updatePending (nextPn : BitVec 32) : Bool := nextPn.getLsbD 0 && !nextPn.getLsbD 1

/-- `lan80xx_macsec_rx_sa_lowest_pn_update_` up to its wait; `false` when it returns before. -/
def lowestPnStart (i : Nat) (sci : Sci) (an : Nat) (lowestPn : PktNum) : Call H Bool := do
  let c ← getConf
  match c.scFromSciGet i sci with
  | none => pure false
  | some sc => do
    failIf (isSciValid sci = false) (.macsec .invalidSciMacaddr)
    macsecAssert (saPerScMax ≤ an)
    macsecAssert ((c.rxScAt i sc).sa an = none)
    macsecAssert ((c.rxSaAt i sc an).inUse = false)
    let window := (c.secy i).conf.replayWindow
    let pktNum : PktNum := if (c.secy i).conf.currentCipherSuite.xpn then lowestPn + BitVec.ofNat 64 window
      else (lowestPn.pn + BitVec.ofNat 32 window).setWidth 64
    orFail (rxSaNextPnUpdate bus i pktNum (c.rxSaAt i sc an).record) .error
    pure true

/-- The wait, for at most `n` passes: the word is read before the loop and not in it. -/
def awaitNextPn (n : Nat) : Call H Unit := do
  let nextPn ← csrRd bus nextPnCtrlReg
  discard (pollWhile Rc.hang updatePending pure n nextPn)

/-- `lan80xx_macsec_rx_sa_lowest_pn_update_`, whose loop makes at most `n` passes. -/
def rxSaLowestPnUpdateWithin (n i : Nat) (sci : Sci) (an : Nat) (lowestPn : PktNum) : Call H Unit := do
  let waits ← lowestPnStart bus i sci an lowestPn
  when (waits = true) (awaitNextPn bus n)

theorem awaitNextPn_eq (n : Nat) : awaitNextPn bus n = (do
    let nextPn ← csrRd bus nextPnCtrlReg
    failIf (nextPn.getLsbD 0 = true ∧ nextPn.getLsbD 1 = false) .hang) := by
  unfold awaitNextPn
  congr 1
  funext v
  rw [pollWhile_pure]
  unfold updatePending failIf when
  by_cases h : v.getLsbD 0 = true ∧ v.getLsbD 1 = false
  · rw [if_pos h, if_pos (by simpa using h)]
    rfl
  · rw [if_neg h, if_neg (by simpa using h)]
    rfl

/-- However many passes the loop may make, the call is the same. -/
theorem rxSaLowestPnUpdate_eq_within (n i : Nat) (sci : Sci) (an : Nat) (lowestPn : PktNum) :
    rxSaLowestPnUpdate bus i sci an lowestPn = rxSaLowestPnUpdateWithin bus n i sci an lowestPn := by
  unfold rxSaLowestPnUpdate rxSaLowestPnUpdateWithin lowestPnStart
  rw [awaitNextPn_eq, bind_assoc]
  congr 1
  funext c
  cases c.scFromSciGet i sci with
  | none => simp [when]
  | some sc => simp [when, bind_assoc]

/-! ## The end of the wait -/

/-- What the `k`-th read of the status would be answered. -/
def statusAt (k : Nat) (h : H) : Except Int (BitVec 32) := (bus.rd nextPnCtrlReg (bus.rdN nextPnCtrlReg k h)).1

/-- At some time the engine is done. -/
def EventuallyReady (h : H) : Prop := ∃ k v, statusAt bus k h = .ok v ∧ updatePending v = false

/-- The wait of a call ends when the engine is done at some time, and it is given up with an error when the engine never
is. -/
structure WaitEnds (s : Dev MacsecConf H) (i : Nat) (sci : Sci) (an : Nat) (lowestPn : PktNum) : Prop where
  ready : ∀ t, lowestPnStart bus i sci an lowestPn s = .ok true t → EventuallyReady bus t.hw →
    ∃ n, errorOf (rxSaLowestPnUpdateWithin bus n i sci an lowestPn) s ≠ some .hang
  never : ∀ t, lowestPnStart bus i sci an lowestPn s = .ok true t → ¬EventuallyReady bus t.hw →
    ∃ n e, errorOf (rxSaLowestPnUpdateWithin bus n i sci an lowestPn) s = some e ∧ e ≠ .hang

section Wait

variable {bus} {s t : Dev MacsecConf H} {i an : Nat} {sci : Sci} {lowestPn : PktNum}

/-- The call that comes to its wait ends as the wait does. -/
theorem errorOf_within (n : Nat) (ht : lowestPnStart bus i sci an lowestPn s = .ok true t) :
    errorOf (rxSaLowestPnUpdateWithin bus n i sci an lowestPn) s = errorOf (awaitNextPn bus n) t := by
  simp only [errorOf, rxSaLowestPnUpdateWithin, bind_of_ok ht, when, if_true]

/-- A call that does not fail before its wait and never ends is in its wait. -/
theorem waits_of_hang (hstart : errorOf (lowestPnStart bus i sci an lowestPn) s = none)
    (hhang : errorOf (rxSaLowestPnUpdate bus i sci an lowestPn) s = some .hang) :
    ∃ t, lowestPnStart bus i sci an lowestPn s = .ok true t := by
  cases hrun : lowestPnStart bus i sci an lowestPn s with
  | error e t => simp [errorOf, hrun] at hstart
  | ok waits t =>
    cases waits with
    | true => exact ⟨t, rfl⟩
    | false =>
      rw [rxSaLowestPnUpdate_eq_within _ 0] at hhang
      simp only [errorOf, rxSaLowestPnUpdateWithin, bind_of_ok hrun, when, Bool.false_eq_true, if_false] at hhang
      cases hhang

/-- The wait goes on for ever when the first word is one that it waits for, and returns when it is not. -/
theorem errorOf_awaitNextPn (n : Nat) (t : Dev MacsecConf H) :
    (errorOf (awaitNextPn bus n) t = some .hang ↔ ∃ v, statusAt bus 0 t.hw = .ok v ∧ updatePending v = true) ∧
    (errorOf (awaitNextPn bus n) t = none ↔ ∃ v, statusAt bus 0 t.hw = .ok v ∧ updatePending v = false) := by
  have hfirst : statusAt bus 0 t.hw = (bus.rd nextPnCtrlReg t.hw).1 := rfl
  have hread : csrRd bus nextPnCtrlReg t = RegBus.read bus Rc.access nextPnCtrlReg t := rfl
  rw [hfirst]
  unfold RegBus.read at hread
  rcases hrd : bus.rd nextPnCtrlReg t.hw with ⟨e | v, h⟩
  · rw [hrd] at hread
    simp [errorOf, awaitNextPn, bind_of_error hread]
  · rw [hrd] at hread
    have hwait : errorOf (awaitNextPn bus n) t = if updatePending v then some .hang else none := by
      rw [awaitNextPn_eq]
      simp only [errorOf, bind_of_ok hread]
      refine (errorOf_failIf _).trans ?_
      simp [updatePending]
    rw [hwait]
    cases hp : updatePending v <;> simp [hp]

/-- Whatever the engine answers, the wait of a call ends as it should exactly when the first word that is read does not
say that an update is pending. -/
theorem lowest_pn_wait_iff (bus : Bus IoReg 32 H) (s : Dev MacsecConf H) (i : Nat) (sci : Sci) (an : Nat)
    (lowestPn : PktNum) : WaitEnds bus s i sci an lowestPn ↔
      ∀ t v, lowestPnStart bus i sci an lowestPn s = .ok true t → statusAt bus 0 t.hw = .ok v →
        updatePending v = false := by
  constructor
  · intro h t v ht hv
    by_contra hpending
    have hhang : ∀ n, errorOf (rxSaLowestPnUpdateWithin bus n i sci an lowestPn) s = some .hang := by
      intro n
      rw [errorOf_within n ht, (errorOf_awaitNextPn n t).1]
      exact ⟨v, hv, by simpa using hpending⟩
    by_cases hready : EventuallyReady bus t.hw
    · obtain ⟨n, hn⟩ := h.ready t ht hready
      exact hn (hhang n)
    · obtain ⟨n, e, he, hne⟩ := h.never t ht hready
      exact hne (Option.some.inj (he.symm.trans (hhang n)))
  · intro h
    have hnot : ∀ t n, lowestPnStart bus i sci an lowestPn s = .ok true t →
        errorOf (awaitNextPn bus n) t ≠ some .hang := by
      intro t n ht hhang
      obtain ⟨v, hv, hpending⟩ := (errorOf_awaitNextPn n t).1.mp hhang
      rw [h t v ht hv] at hpending
      cases hpending
    constructor
    · intro t ht _
      exact ⟨0, by rw [errorOf_within 0 ht]; exact hnot t 0 ht⟩
    · intro t ht hnever
      rcases herr : errorOf (awaitNextPn bus 0) t with _ | e
      · -- a wait that returns has seen the engine done
        obtain ⟨v, hv, hdone⟩ := (errorOf_awaitNextPn 0 t).2.mp herr
        exact absurd ⟨0, v, hv, hdone⟩ hnever
      · refine ⟨0, e, by rw [errorOf_within 0 ht]; exact herr, fun he => ?_⟩
        exact hnot t 0 ht (by rw [herr, he])

end Wait

/-! ### An engine that needs one more poll -/

/-- The update is pending for two reads of the control register, and done afterwards. -/
def slowEngine : Bus IoReg 32 Nat where
  rd r n := if r = nextPnCtrlReg then (.ok (if n < 2 then 1 else 3), n + 1) else (.ok 0, n)
  wr _ _ n := (.ok (), n)
  drift n n' := n' = n

def slowStart : Dev MacsecConf Nat := ⟨(calls bench.toBus twoSas benchInit).conf, 0⟩

theorem slowStart_call : errorOf (lowestPnStart slowEngine 0 (benchSci 1) 0 7) slowStart = none ∧
    (final (lowestPnStart slowEngine 0 (benchSci 1) 0 7) slowStart).hw = 1 ∧
    errorOf (rxSaLowestPnUpdate slowEngine 0 (benchSci 1) 0 7) slowStart = some .hang := by
  decide +kernel

/-- The engine is done at the next read, but the call never looks again. -/
theorem not_lowest_pn_wait : ¬∀ (bus : Bus IoReg 32 Nat) (s : Dev MacsecConf Nat) (i : Nat) (sci : Sci) (an : Nat)
    (lowestPn : PktNum), WaitEnds bus s i sci an lowestPn := by
  intro h
  obtain ⟨hstart, hreads, hhang⟩ := slowStart_call
  obtain ⟨t, ht⟩ := waits_of_hang hstart hhang
  have hhw : t.hw = 1 := by rw [← hreads, final, ht]
  obtain ⟨n, hn⟩ := (h slowEngine slowStart 0 (benchSci 1) 0 7).ready t ht ⟨1, 3, by rw [hhw]; rfl, by decide⟩
  rw [← rxSaLowestPnUpdate_eq_within] at hn
  exact hn hhang

end Lan80xx.Macsec
