import Lan80xx.Macsec.PnRoundTrip
import Lan80xx.Lib.RegView

/-!
# MACsec: moving the lowest packet number of a receive SA

`rx_sa_set` writes the words of a transform record one by one. `rx_sa_lowest_pn_update` gives the number to an engine of
the chip, with a pointer into the memory of these records: `NEXTPN_CONTEXT_ADDRESS` names 16 bytes of it, the number lies
in the last 8 of them.

- `saXformSet_context`: the record that `sa_xform_set` leaves in this memory;
- `ends_rxSaNextPnUpdate`, `ends_rxSaLowestPnUpdate`: where the update puts which words;
- `placed_inj`: two placings are the same only for the same words at the same place;
- `lowest_pn_update_iff`: the update programs what `rx_sa_set` would exactly for record 0, and for a number that the
  windows and the cut to 16 bits do not spoil.
-/

namespace Lan80xx.Macsec

open Fallible RegBus MacsecConf

/-! ## The engine -/

/-- The three registers of the update, and the transform records as one memory of words. -/
structure PnEngine where
  lo : BitVec 32
  hi : BitVec 32
  ctrl : BitVec 32
  context : Nat → BitVec 32

/-- Word `n` of a transform record. -/
def contextWord (record n : Nat) : Nat := xformRecSize * record + n

/-- The register that `sa_xform_set` reaches this word by, if it is one of an ingress record. -/
def directWord (q : IoReg) : Option Nat :=
  if q.mmd = mmdId .ingress ∧ (q.addr < 0x800 ∨ (0x4800 ≤ q.addr ∧ q.addr < 0x5000)) ∧ q.addr % 32 < xformRecSize then
    some (contextWord (q.addr % 0x4000 / 32) (q.addr % 32))
  else none

/-- A packet number at word `p`: two words if it is extended. -/
def placed (xpn : Bool) (p : Nat) (lo hi : BitVec 32) (context : Nat → BitVec 32) : Nat → BitVec 32 :=
  if xpn then Function.update (Function.update context p lo) (p + 1) hi else Function.update context p lo

/-- `NEXT_PN_CTRL`: with `ENABLE_UPDATE`, the number goes to the 16 bytes at `NEXTPN_CONTEXT_ADDRESS`, and
`SEQUENCE_NUMBER_SIZE` says whether it is extended. -/
def PnEngine.command (e : PnEngine) (v : BitVec 32) : PnEngine :=
  { e with
    ctrl := v
    context := if v.getLsbD 0 then placed (v.getLsbD 2) (4 * (v >>> 4).toNat + 2) e.lo e.hi e.context else e.context }

/-- A word of the records written by itself. -/
def PnEngine.store (e : PnEngine) (k : Nat) (v : BitVec 32) : PnEngine :=
  { e with context := Function.update e.context k v }

@[simp] theorem PnEngine.store_context (e : PnEngine) (k : Nat) (v : BitVec 32) :
    (e.store k v).context = Function.update e.context k v := rfl

/-- What a write does. -/
def engineWrite (r : IoReg) (v : BitVec 32) (e : PnEngine) : PnEngine :=
  if r = nextPnLoReg then { e with lo := v }
  else if r = nextPnHiReg then { e with hi := v }
  else if r = nextPnCtrlReg then e.command v
  else match directWord r with
    | some k => e.store k v
    | none => e

/-- `ENABLE_UPDATE` and `NEXTPN_WRITTEN` are the engine's own; the rest of `NEXT_PN_CTRL` reads as it was written. -/
def engineShows (r : IoReg) (v : BitVec 32) (e : PnEngine) : Prop := r = nextPnCtrlReg → v >>> 2 = e.ctrl >>> 2

/-- A port with such an engine. -/
abbrev EngineBus (H : Type) := ViewBus IoReg 32 engineWrite engineShows H

/-! ## The words of a record -/

section Context

variable {xpn : Bool} {p q r n k : Nat} {lo hi lo' hi' : BitVec 32} {context : Nat → BitVec 32}

theorem directWord_xformReg (hr : r < 128) (hn : n < 24) :
    directWord (xformReg .ingress r n) = some (contextWord r n) := by
  rw [xformReg_eq hr hn, directWord]
  simp only
  have hmod : ((if r < 64 then 0 else 0x4000) + 32 * r + n) % 32 = n := by split <;> omega
  have hdiv : ((if r < 64 then 0 else 0x4000) + 32 * r + n) % 0x4000 / 32 = r := by split <;> omega
  rw [hmod, hdiv, if_pos]
  refine ⟨trivial, ?_, hn⟩
  split <;> omega

theorem contextWord_inj (hn : n < 24) (hk : k < 24) : contextWord r n = contextWord q k ↔ r = q ∧ n = k := by
  simp only [contextWord, xformRecSize]
  omega

theorem placed_self : placed xpn p lo hi context p = lo := by
  cases xpn <;> simp [placed]

theorem placed_next : placed true p lo hi context (p + 1) = hi := by
  simp [placed]

theorem placed_of_ne (hk : k ≠ p) (hk' : k ≠ p + 1) : placed xpn p lo hi context k = context k := by
  cases xpn <;> simp [placed, hk, hk']

theorem ne_not (x : BitVec 32) : x ≠ ~~~x := by
  intro h
  have hbit := congrArg (BitVec.getLsbD · 0) h
  simp at hbit

/-- A placing changes some memory, whatever it places. -/
theorem placed_ne : ∃ context, placed xpn p lo hi context ≠ context := by
  refine ⟨fun _ => ~~~lo, fun h => ?_⟩
  have hp := congrFun h p
  rw [placed_self] at hp
  exact ne_not lo hp

/-- The word at `p` is new, so that `p` is one of the words placed. -/
theorem placed_near (h : ∀ context, placed xpn p lo hi context = placed xpn q lo' hi' context) : p = q ∨ p = q + 1 := by
  by_contra hfar
  have hp := congrFun (h fun _ => ~~~lo) p
  rw [placed_self, placed_of_ne (fun h => hfar (Or.inl h)) fun h => hfar (Or.inr h)] at hp
  exact ne_not lo hp

/-- **Placings.** Two are the same only for the same words at the same place. -/
theorem placed_inj : (∀ context, placed xpn p lo hi context = placed xpn q lo' hi' context) ↔
    p = q ∧ lo = lo' ∧ (xpn = true → hi = hi') := by
  constructor
  · intro h
    have hpq : p = q := by
      have hle := placed_near h
      have hge := placed_near fun context => (h context).symm
      omega
    subst hpq
    refine ⟨rfl, ?_, ?_⟩
    · have := congrFun (h fun _ => 0) p
      rwa [placed_self, placed_self] at this
    · rintro rfl
      have := congrFun (h fun _ => 0) (p + 1)
      rwa [placed_next, placed_next] at this
  · rintro ⟨rfl, rfl, hhi⟩ context
    cases xpn with
    | true => rw [hhi rfl]
    | false => rfl

end Context

/-! ## The words of a command -/

section Command

variable {xpn : Bool} {record : Nat} {u v : BitVec 32} {x y : BitVec 64}

/-- `NEXT_PN_CTRL` as `rx_sa_next_pn_update` writes it first. -/
def ctrlWord (xpn : Bool) (record : Nat) : BitVec 32 :=
  field (word ((record * 24 + 14 * 4) / 16)) 4 28 ||| if xpn then bit 2 else 0

theorem ctrlWord_spec (hr : record < 128) : (ctrlWord xpn record).getLsbD 0 = false ∧
    (ctrlWord xpn record).getLsbD 2 = xpn ∧ (ctrlWord xpn record >>> 4).toNat = (record * 24 + 14 * 4) / 16 := by
  have hall : ∀ xpn, ∀ r < 128, (ctrlWord xpn r).getLsbD 0 = false ∧ (ctrlWord xpn r).getLsbD 2 = xpn ∧
      (ctrlWord xpn r >>> 4).toNat = (r * 24 + 14 * 4) / 16 := by
    decide +kernel
  exact hall xpn record hr

/-- The second write sets `ENABLE_UPDATE` and keeps the rest. -/
theorem merge_enable (h : u >>> 2 = v >>> 2) : (merge u (bit 0) (bit 0)).getLsbD 0 = true ∧
    (merge u (bit 0) (bit 0)).getLsbD 2 = v.getLsbD 2 ∧ merge u (bit 0) (bit 0) >>> 4 = v >>> 4 := by
  have hkeep : ∀ k, (merge u (bit 0) (bit 0)).getLsbD (2 + k) = v.getLsbD (2 + k) := by
    intro k
    have hbit := congrArg (BitVec.getLsbD · k) h
    simp only [BitVec.getLsbD_ushiftRight] at hbit
    rw [merge_getLsbD u (bit 0) (bit 0) (by simp [bit]), hbit]
  refine ⟨by simp [merge, bit], hkeep 0, BitVec.eq_of_getLsbD_eq fun k _ => ?_⟩
  rw [BitVec.getLsbD_ushiftRight, BitVec.getLsbD_ushiftRight, show 4 + k = 2 + (2 + k) by omega, hkeep]

/-- The cut to 16 bits leaves both words as they should be only for a number without bits 16 to 31. -/
theorem cut_words : ((x &&& 0xFFFF).setWidth 32 = y.setWidth 32 ∧ (x >>> 32).setWidth 32 = (y >>> 32).setWidth 32) ↔
    y = x &&& 0xFFFFFFFF0000FFFF#64 := by
  have hlo : (x &&& 0xFFFFFFFF0000FFFF#64).setWidth 32 = (x &&& 0xFFFF).setWidth 32 := by
    rw [BitVec.setWidth_and, BitVec.setWidth_and]
    rfl
  have hhi : ((x &&& 0xFFFFFFFF0000FFFF#64) >>> 32).setWidth 32 = (x >>> 32).setWidth 32 := by
    rw [BitVec.ushiftRight_and_distrib, BitVec.setWidth_and,
      show (0xFFFFFFFF0000FFFF#64 >>> 32).setWidth 32 = BitVec.allOnes 32 by decide, BitVec.and_allOnes]
  constructor
  · rintro ⟨h, h'⟩
    rw [← pnJoin_split y, ← pnJoin_split (x &&& 0xFFFFFFFF0000FFFF#64), hlo, hhi, h, h']
  · rintro rfl
    exact ⟨hlo.symm, hhi.symm⟩

end Command

/-! ## What the calls leave in the records -/

section Calls

variable {H : Type} (eb : EngineBus H) {h₀ : H} {c : MacsecConf} {e : PnEngine} {i an sc record r n : Nat} {sci : Sci}
  {v : BitVec 32} {xpn : Bool} {nextPn lowestPn : PktNum}

theorem engineWrite_lo : engineWrite nextPnLoReg v e = { e with lo := v } := by
  rw [engineWrite, if_pos rfl]

theorem engineWrite_hi : engineWrite nextPnHiReg v e = { e with hi := v } := by
  rw [engineWrite, if_neg (by decide), if_pos rfl]

theorem engineWrite_ctrl : engineWrite nextPnCtrlReg v e = e.command v := by
  rw [engineWrite, if_neg (by decide), if_neg (by decide), if_pos rfl]

theorem engineWrite_xform (hr : r < 128) (hn : n < 24) :
    engineWrite (xformReg .ingress r n) v e = e.store (contextWord r n) v := by
  have hne : ∀ a, 0x3D20 ≤ a → a ≤ 0x3D23 → xformReg .ingress r n ≠ ioreg .ingress a := by
    intro a ha ha' h
    rw [xformReg_eq hr hn, ioreg, IoReg.mk.injEq] at h
    have haddr := h.2
    split at haddr <;> omega
  have hlo : xformReg .ingress r n ≠ nextPnLoReg := hne 0x3D20 (by decide) (by decide)
  have hhi : xformReg .ingress r n ≠ nextPnHiReg := hne 0x3D21 (by decide) (by decide)
  have hctrl : xformReg .ingress r n ≠ nextPnCtrlReg := hne 0x3D23 (by decide) (by decide)
  rw [engineWrite, if_neg hlo, if_neg hhi, if_neg hctrl, directWord_xformReg hr hn]

/-- **The record that `sa_xform_set` leaves.** Its words are those of the record, the other records are as before. -/
theorem saXformSet_context (hr : r < 128) : Ends (Sees eb h₀ c e) (saXformSet eb.toBus .ingress r i an sc)
    (fun _ s => ∃ e', Sees eb h₀ c e' s ∧ (∀ n < 24, e'.context (contextWord r n) = xformWord c .ingress i an sc n) ∧
      ∀ q k, k < 24 → q ≠ r → e'.context (contextWord q k) = e.context (contextWord q k))
    fun _ => True := by
  -- the words below `m` are written
  let I (m : Nat) (s : Dev MacsecConf H) : Prop := ∃ e', Sees eb h₀ c e' s ∧
    (∀ n < m, e'.context (contextWord r n) = xformWord c .ingress i an sc n) ∧
    ∀ q k, k < 24 → q ≠ r → e'.context (contextWord q k) = e.context (contextWord q k)
  have hloop : Ends (I 0) (forUpTo xformRecSize fun n =>
      csrWr eb.toBus (xformReg .ingress r n) (xformWord c .ingress i an sc n)) (fun _ => I 24) fun _ => True := by
    refine Ends.forUpTo (I := I) 24 fun m hm => Ends.ghost fun e' => ?_
    rintro s ⟨hs, hw, ho⟩
    refine ((ends_write_sees eb Rc.access _ _ fun _ _ _ => trivial).weaken ?_ fun _ h => h) s hs
    intro _ t ht
    rw [engineWrite_xform hr hm] at ht
    refine ⟨_, ht, fun n hn => ?_, fun q k hk hq => ?_⟩
    · by_cases hnm : n = m
      · rw [PnEngine.store_context, hnm, Function.update_self]
      · have hlt : n < m := by omega
        rw [PnEngine.store_context, Function.update_of_ne fun h => hnm ((contextWord_inj (by omega) hm).mp h).2]
        exact hw n hlt
    · rw [PnEngine.store_context, Function.update_of_ne fun h => hq ((contextWord_inj hk hm).mp h).1]
      exact ho q k hk hq
  refine ends_getConf_sees eb ?_
  exact hloop.pre fun s hs => ⟨e, hs, by simp, fun _ _ _ _ => rfl⟩

/-- Where `rx_sa_next_pn_update` puts a number. -/
theorem ends_rxSaNextPnUpdate (hr : record < 128) (hx : (c.secy i).conf.currentCipherSuite.xpn = xpn) :
    Ends (Sees eb h₀ c e) (rxSaNextPnUpdate eb.toBus i nextPn record)
      (fun _ s => ∃ e', Sees eb h₀ c e' s ∧ e'.context = placed xpn (4 * ((record * 24 + 14 * 4) / 16) + 2)
        (if xpn then (nextPn &&& 0xFFFF).setWidth 32 else nextPn.pn) ((nextPn >>> 32).setWidth 32) e.context)
      fun _ => ¬eb.Sound h₀ := by
  have hwr : ∀ {e₁ : PnEngine} (q : IoReg) (v : BitVec 32), Ends (Sees eb h₀ c e₁) (csrWr eb.toBus q v)
      (fun _ => Sees eb h₀ c (engineWrite q v e₁)) fun _ => ¬eb.Sound h₀ :=
    fun q v => ends_write_sees eb Rc.access q v fun _ hs _ hsound => hs hsound.writesGo
  refine ends_getConf_sees eb ?_
  rw [hx]
  refine (hwr nextPnLoReg _).bind fun _ => ?_
  rw [engineWrite_lo]
  -- `NEXTPN_HI` is written for an extended number only
  generalize hlo : (if xpn then (nextPn &&& 0xFFFF).setWidth 32 else nextPn.pn : BitVec 32) = lo
  let e₂ : PnEngine := { e with lo, hi := if xpn then (nextPn >>> 32).setWidth 32 else e.hi }
  have hhi : Ends (Sees eb h₀ c { e with lo }) (when (xpn = true) (csrWr eb.toBus nextPnHiReg ((nextPn >>> 32).setWidth 32)))
      (fun _ => Sees eb h₀ c e₂) fun _ => ¬eb.Sound h₀ := by
    refine Ends.when (fun hxpn => ?_) fun hxpn s hs => ?_
    · refine (hwr nextPnHiReg _).weaken (fun _ s hs => ?_) fun _ h => h
      rw [engineWrite_hi] at hs
      simpa only [e₂, hxpn, ↓reduceIte] using hs
    · simpa only [e₂, hxpn, Bool.false_eq_true, ↓reduceIte] using hs
  refine hhi.bind fun _ => (hwr nextPnCtrlReg (ctrlWord xpn record)).bind fun _ => ?_
  rw [engineWrite_ctrl]
  obtain ⟨henable, hsize, haddr⟩ := @ctrlWord_spec xpn record hr
  refine (ends_read_sees eb Rc.access nextPnCtrlReg fun _ hs _ => hs).bind fun u => Ends.imp fun hu => ?_
  obtain ⟨henable', hsize', haddr'⟩ := merge_enable (hu rfl)
  refine (hwr nextPnCtrlReg _).weaken (fun _ s hs => ⟨_, hs, ?_⟩) fun _ h => h
  rw [engineWrite_ctrl]
  simp only [PnEngine.command, henable, henable', hsize', haddr', hsize, haddr, e₂, ↓reduceIte, Bool.false_eq_true]
  cases xpn <;> rfl

/-- The number that `rx_sa_lowest_pn_update` hands on: with the window of the SecY on top. -/
def movedPn (c : MacsecConf) (i : Nat) (lowestPn : PktNum) : PktNum :=
  let window := (c.secy i).conf.replayWindow
  if (c.secy i).conf.currentCipherSuite.xpn then lowestPn + BitVec.ofNat 64 window
  else (lowestPn.pn + BitVec.ofNat 32 window).setWidth 64

/-- A receive SA in use, linked at `an` of the channel with this SCI. -/
structure SaInUse (c : MacsecConf) (i : Nat) (sci : Sci) (an sc : Nat) : Prop where
  find : c.scFromSciGet i sci = some sc
  an_lt : an < saPerScMax
  linked : (c.rxScAt i sc).sa an ≠ none
  inUse : (c.rxSaAt i sc an).inUse = true
  record_lt : (c.rxSaAt i sc an).record < 128

/-- What the update leaves of the records. -/
def updated (c : MacsecConf) (i record : Nat) (lowestPn : PktNum) (context : Nat → BitVec 32) : Nat → BitVec 32 :=
  let xpn := (c.secy i).conf.currentCipherSuite.xpn
  let pn := movedPn c i lowestPn
  placed xpn (4 * ((record * 24 + 14 * 4) / 16) + 2) (if xpn then (pn &&& 0xFFFF).setWidth 32 else pn.pn)
    ((pn >>> 32).setWidth 32) context

/-- **The update.** Unless an access fails, it comes to this; a wait that never ends is an error that comes after. -/
theorem ends_rxSaLowestPnUpdate (hu : SaInUse c i sci an sc) :
    let left (s : Dev MacsecConf H) : Prop := (eb.view s.hw).context =
      if isSciValid sci = true then updated c i (c.rxSaAt i sc an).record lowestPn e.context else e.context
    Ends (Sees eb h₀ c e) (rxSaLowestPnUpdate eb.toBus i sci an lowestPn) (fun _ => left)
      fun s => eb.Sound h₀ → left s := by
  intro left
  refine ends_getConf_sees eb ?_
  rw [hu.find]
  refine Ends.failIf_bind (fun s hs hinv _ => ?_) fun hvalid => ?_
  · simp only [left, hs.2.2, hinv, Bool.false_eq_true, ↓reduceIte]
  refine Ends.failIf_bind (fun _ _ h => absurd hu.an_lt (Nat.not_lt.mpr h)) fun _ => ?_
  refine Ends.failIf_bind (fun _ _ h => absurd h hu.linked) fun _ => ?_
  refine Ends.failIf_bind (fun _ _ h => absurd (hu.inUse.symm.trans h) (by decide)) fun _ => ?_
  have hpn : Ends (Sees eb h₀ c e)
      (orFail (rxSaNextPnUpdate eb.toBus i (movedPn c i lowestPn) (c.rxSaAt i sc an).record) Rc.error)
      (fun _ s => ∃ e', Sees eb h₀ c e' s ∧
        e'.context = updated c i (c.rxSaAt i sc an).record lowestPn e.context)
      fun s => eb.Sound h₀ → left s :=
    ((ends_rxSaNextPnUpdate eb hu.record_lt rfl).weaken (fun _ _ h => h) fun _ hs hsound => absurd hsound hs).orFail
  have hleft : ∀ {e' : PnEngine} {s}, Sees eb h₀ c e' s →
      e'.context = updated c i (c.rxSaAt i sc an).record lowestPn e.context → left s := by
    intro e' s hs hctx
    simp only [left, hs.2.2, hctx, Bool.eq_true_of_not_eq_false hvalid, ↓reduceIte]
  refine hpn.bind fun _ => Ends.ghost fun e' => Ends.imp fun hctx => ?_
  refine (ends_read_sees eb Rc.access nextPnCtrlReg fun _ _ hs _ => hleft hs hctx).bind fun v => ?_
  exact (Ends.failIf fun _ hs _ _ => hleft hs.1 hctx).weaken (fun _ _ hs => hleft hs.1.1 hctx) fun _ h => h

end Calls

/-! ## Against what `rx_sa_set` programs -/

/-- A port that is nothing but the engine, and whose accesses succeed; each command is carried out at once. -/
def engineStorage : EngineBus PnEngine where
  rd r e := (.ok (if r = nextPnCtrlReg then e.ctrl ||| bit 1 else 0), e)
  wr r v e := (.ok (), engineWrite r v e)
  drift e e' := e' = e
  view e := e
  view_rd _ _ := rfl
  rd_ok r e v hv hr := by
    cases hv
    rw [if_pos hr, BitVec.ushiftRight_or_distrib, show bit 1 >>> 2 = 0#32 by decide, BitVec.or_zero]
  view_wr_ok _ _ _ _ := rfl
  view_wr_error _ _ _ _ hw := by cases hw
  view_drift _ _ hd := hd

theorem engineStorage_sound (e : PnEngine) : engineStorage.Sound e :=
  fun _ _ => ⟨fun _ => ⟨_, rfl⟩, fun _ _ => rfl⟩

def emptyEngine : PnEngine := ⟨0, 0, 0, fun _ => 0⟩

theorem saXformSet_context_first : Ends (Sees engineStorage emptyEngine {} emptyEngine)
    (saXformSet engineStorage.toBus .ingress 0 0 0 0)
    (fun _ s => ∃ e, Sees engineStorage emptyEngine {} e s ∧
      (∀ n < 24, e.context (contextWord 0 n) = xformWord {} .ingress 0 0 0 n) ∧
        ∀ q k, k < 24 → q ≠ 0 → e.context (contextWord q k) = emptyEngine.context (contextWord q k)) fun _ => True :=
  saXformSet_context engineStorage (by decide)

/-- Wherever no access fails, the number that `rx_sa_set` would program for this SA gets into its record, and nothing
else changes. -/
def UpdateRight (c : MacsecConf) (i : Nat) (sci : Sci) (an sc : Nat) (lowestPn : PktNum) : Prop :=
  let sa := c.rxSaAt i sc an
  let word := xformWord (linkRxSa i c sc an sa.record lowestPn sa.sak (some sa.ssci)) .ingress i an sc
  ∀ (H : Type) (eb : EngineBus H) (s : Dev MacsecConf H), s.conf = c → eb.Sound s.hw →
    (eb.view (final (rxSaLowestPnUpdate eb.toBus i sci an lowestPn) s).hw).context =
      placed (c.secy i).conf.currentCipherSuite.xpn (contextWord sa.record 14) (word 14) (word 15) (eb.view s.hw).context

/-- The pointer is right for record 0 only. The window is that of the SecY instead of the channel's, it is added to a
32-bit number too, and the low word of a 64-bit number is cut to 16 bits. -/
def UpdateFits (c : MacsecConf) (i : Nat) (sci : Sci) (an sc : Nat) (lowestPn : PktNum) : Prop :=
  let secyWindow := (c.secy i).conf.replayWindow
  let scWindow := (c.rxScAt i sc).conf.replayWindow
  isSciValid sci = true ∧ (c.rxSaAt i sc an).record = 0 ∧
    if (c.secy i).conf.currentCipherSuite.xpn then
      lowestPn + BitVec.ofNat 64 scWindow = (lowestPn + BitVec.ofNat 64 secyWindow) &&& 0xFFFFFFFF0000FFFF#64
    else secyWindow % 2 ^ 32 = 0

section Right

variable {c : MacsecConf} {i an sc : Nat} {sci : Sci} {lowestPn : PktNum}

theorem rxSaLowestPnUpdate_context {H : Type} (eb : EngineBus H) {s : Dev MacsecConf H} (hu : SaInUse s.conf i sci an sc)
    (hs : eb.Sound s.hw) : (eb.view (final (rxSaLowestPnUpdate eb.toBus i sci an lowestPn) s).hw).context =
      if isSciValid sci = true then updated s.conf i (s.conf.rxSaAt i sc an).record lowestPn (eb.view s.hw).context
      else (eb.view s.hw).context := by
  rcases (ends_rxSaLowestPnUpdate eb hu).final (sees_start eb s) with ⟨-, -, h⟩ | ⟨-, h⟩
  · exact h
  · exact h hs

/-- What is programmed depends on the records before the call only. -/
theorem updateRight_iff_context (hu : SaInUse c i sci an sc) : UpdateRight c i sci an sc lowestPn ↔
    let sa := c.rxSaAt i sc an
    let word := xformWord (linkRxSa i c sc an sa.record lowestPn sa.sak (some sa.ssci)) .ingress i an sc
    ∀ context, (if isSciValid sci = true then updated c i sa.record lowestPn context else context) =
      placed (c.secy i).conf.currentCipherSuite.xpn (contextWord sa.record 14) (word 14) (word 15) context := by
  constructor
  · intro h sa word context
    have hset := h PnEngine engineStorage ⟨c, ⟨0, 0, 0, context⟩⟩ rfl (engineStorage_sound _)
    rw [rxSaLowestPnUpdate_context engineStorage hu (engineStorage_sound _)] at hset
    exact hset
  · rintro h H eb s rfl hs
    rw [rxSaLowestPnUpdate_context eb hu hs]
    exact h _

/-- The pointer and the words have to be right. -/
theorem updateRight_iff_words (hu : SaInUse c i sci an sc) (hvalid : isSciValid sci = true) :
    UpdateRight c i sci an sc lowestPn ↔
    let sa := c.rxSaAt i sc an
    let word := xformWord (linkRxSa i c sc an sa.record lowestPn sa.sak (some sa.ssci)) .ingress i an sc
    let pn := movedPn c i lowestPn
    sa.record = 0 ∧
      (if (c.secy i).conf.currentCipherSuite.xpn then (pn &&& 0xFFFF).setWidth 32 else pn.pn) = word 14 ∧
      ((c.secy i).conf.currentCipherSuite.xpn = true → (pn >>> 32).setWidth 32 = word 15) := by
  have hplace : ∀ record, 4 * ((record * 24 + 14 * 4) / 16) + 2 = contextWord record 14 ↔ record = 0 := by
    intro record
    simp only [contextWord, xformRecSize]
    omega
  rw [updateRight_iff_context hu]
  simp only [hvalid, ↓reduceIte, updated]
  rw [placed_inj, hplace]

/-- The window on top of a 32-bit number. -/
theorem short_window {x : BitVec 32} {w : Nat} : x + BitVec.ofNat 32 w = x ↔ w % 2 ^ 32 = 0 := by
  constructor
  · intro h
    have htoNat := congrArg BitVec.toNat h
    rw [BitVec.toNat_add, BitVec.toNat_ofNat] at htoNat
    omega
  · intro h
    apply BitVec.eq_of_toNat_eq
    rw [BitVec.toNat_add, BitVec.toNat_ofNat, h]
    omega

end Right

/-- All updates of receive SAs in use. -/
def LowestPnRight : Prop :=
  ∀ c i sci an sc lowestPn, SaInUse c i sci an sc → UpdateRight c i sci an sc lowestPn

/-- **The lowest packet number.** The update of an SA in use programs what `rx_sa_set` would exactly where it fits. -/
theorem lowest_pn_update_iff {c : MacsecConf} {i an sc : Nat} {sci : Sci} {lowestPn : PktNum} (hu : SaInUse c i sci an sc) :
    UpdateRight c i sci an sc lowestPn ↔ UpdateFits c i sci an sc lowestPn := by
  have hwords := @xformWord_rx c i an sc (c.rxSaAt i sc an).record lowestPn (c.rxSaAt i sc an).sak
    (some (c.rxSaAt i sc an).ssci) sci hu.find
  cases hvalid : isSciValid sci with
  | false =>
    obtain ⟨context, hne⟩ := placed_ne
    refine iff_of_false (fun h => hne (((updateRight_iff_context hu).mp h context).symm.trans ?_)) fun h => ?_
    · rw [if_neg (by simp [hvalid])]
    · exact absurd (h.1.symm.trans hvalid) (by decide)
  | true =>
    rw [updateRight_iff_words hu hvalid, UpdateFits]
    simp only [hvalid, true_and]
    refine and_congr_right fun _ => ?_
    cases hx : (c.secy i).conf.currentCipherSuite.xpn with
    | true =>
      simp only [hx, movedPn, ↓reduceIte, true_imp_iff] at hwords ⊢
      rw [hwords.1, hwords.2, cut_words]
    | false =>
      simp only [hx, movedPn, Bool.false_eq_true, ↓reduceIte, false_imp_iff, and_true] at hwords ⊢
      rw [hwords, PktNum.pn, BitVec.setWidth_setWidth_of_le _ (by decide), BitVec.setWidth_eq, short_window]

/-- Two SAs on one channel, on records 0 and 1. -/
def twoSas : List (MacsecPort × Op) :=
  windowSecy 0 ++ [(benchPort 1, .rxSaSet (benchSci 1) 0 5 {} none), (benchPort 1, .rxSaSet (benchSci 1) 1 5 {} none)]

/-- The numbers are of 32 bits, and there is no window. -/
theorem twoSas_calls : ∀ an < 2, (calls bench.toBus twoSas benchInit).conf.scFromSciGet 0 (benchSci 1) = some 0 ∧
    ((calls bench.toBus twoSas benchInit).conf.rxScAt 0 0).sa an ≠ none ∧
    ((calls bench.toBus twoSas benchInit).conf.rxSaAt 0 0 an).inUse = true ∧
    ((calls bench.toBus twoSas benchInit).conf.rxSaAt 0 0 an).record = an ∧
    ((calls bench.toBus twoSas benchInit).conf.secy 0).conf.currentCipherSuite.xpn = false ∧
    ((calls bench.toBus twoSas benchInit).conf.secy 0).conf.replayWindow = 0 := by
  decide +kernel

theorem twoSas_inUse {an : Nat} (han : an < 2) : SaInUse (calls bench.toBus twoSas benchInit).conf 0 (benchSci 1) an 0 := by
  obtain ⟨hfind, hsa, hu, hrec, -, -⟩ := twoSas_calls an han
  exact ⟨hfind, by rw [saPerScMax]; omega, hsa, hu, by omega⟩

/-- The update of the first SA is right. -/
theorem lowest_pn_update_twoSas : UpdateRight (calls bench.toBus twoSas benchInit).conf 0 (benchSci 1) 0 0 7 := by
  obtain ⟨-, -, -, hrec, hx, hw⟩ := twoSas_calls 0 (by decide)
  refine (lowest_pn_update_iff (twoSas_inUse (by decide))).mpr ⟨by decide, hrec, ?_⟩
  rw [hx, hw]
  decide

/-- That of the second one puts the number into word 22 of the first record. -/
theorem not_lowest_pn_update : ¬LowestPnRight := by
  intro h
  have hu := twoSas_inUse (show 1 < 2 by decide)
  have hrec := ((updateRight_iff_words hu (by decide)).mp (h _ 0 (benchSci 1) 1 0 7 hu)).1
  rw [(twoSas_calls 1 (by decide)).2.2.2.1] at hrec
  cases hrec

end Lan80xx.Macsec
