import Lan80xx.Macsec.Atomic

/-!
# MACsec: the global validation level

One field of a register that all SecYs of the port share holds the level for frames that match no SecY.
`update_glb_validate` programs it with the least strict level of the channels in use, and is called when a receive SA is
set and when a receive channel is deleted. The calls that store a level do not call it.

- `isLeast_glbValidate`: the loop over the SecYs and their channels finds the least level;
- `Quiet`: the updates of the tables that concern no level;
- `LevelFree`: the calls that leave the levels and the register as they are;
- `glb_validate_after_call`: what the register holds after a call that returns.
-/

namespace Lan80xx.Macsec

open Fallible RegBus MacsecConf

/-! ## The least level -/

/-- A loop whose rounds each leave the least of the value so far and of a set leaves the least of all. -/
theorem isLeast_foldl {α ι : Type} [Preorder α] {step : α → ι → α} {S : ι → Set α}
    (hstep : ∀ v x, IsLeast (insert v (S x)) (step v x)) (l : List ι) (v : α) :
    IsLeast (insert v {u | ∃ x ∈ l, u ∈ S x}) (l.foldl step v) := by
  induction l generalizing v with
  | nil => exact ⟨Or.inl rfl, fun u hu => hu.elim (fun h => h.ge) fun ⟨_, hx, _⟩ => by cases hx⟩
  | cons x l ih =>
    obtain ⟨hmem, hlow⟩ := ih (step v x)
    refine ⟨?_, fun u hu => ?_⟩
    · rcases hmem with h | ⟨y, hy, h⟩
      · rw [List.foldl_cons, h]
        exact (hstep v x).1.imp id fun hs => ⟨x, List.mem_cons_self, hs⟩
      · exact Or.inr ⟨y, List.mem_cons_of_mem _ hy, h⟩
    · have hround : List.foldl step (step v x) l ≤ step v x := hlow (Or.inl rfl)
      rcases hu with rfl | ⟨y, hy, hu⟩
      · exact hround.trans ((hstep u x).2 (Or.inl rfl))
      · rcases List.mem_cons.mp hy with rfl | hy
        · exact hround.trans ((hstep v y).2 (Or.inr hu))
        · exact hlow (Or.inr ⟨y, hy, hu⟩)

variable {H : Type} {rf : PortRegs H} {c c' c₁ : MacsecConf} {i an sc p r record : Nat}

/-- The level of channel `sc` of SecY `i`, when both are in use. -/
def ChannelLevel (c : MacsecConf) (i sc v : Nat) : Prop :=
  (c.secy i).inUse = true ∧ ∃ p, (c.secy i).rxSc sc = some p ∧ (c.rxSc p).inUse = true ∧
    (c.rxSc p).conf.validateFrames = v

/-- The strictest level, and those of the channels in use. -/
def levels (c : MacsecConf) : Set Nat :=
  insert validateFramesStrict {v | ∃ i < maxSecy, ∃ sc < maxRxSc, ChannelLevel c i sc v}

/-- A round that finds no level keeps the value. -/
theorem isLeast_insert_none {S : Set Nat} (hS : ∀ u, u ∉ S) (v : Nat) : IsLeast (insert v S) v :=
  ⟨Or.inl rfl, fun u hu => hu.elim (fun h => h.ge) fun h => absurd h (hS u)⟩

theorem isLeast_glbValidate (c : MacsecConf) : IsLeast (levels c) (glbValidate c) := by
  have hlevels : levels c = insert validateFramesStrict {v | ∃ i ∈ List.range maxSecy,
      v ∈ {v | ∃ sc ∈ List.range maxRxSc, v ∈ {v | ChannelLevel c i sc v}}} := by
    simp [levels]
  rw [hlevels, glbValidate]
  refine isLeast_foldl (fun v i => ?_) _ _
  split
  · next hi =>
    refine isLeast_foldl (fun v sc => ?_) _ _
    split
    · next p hp =>
      split
      · next h =>
        simp only [Bool.and_eq_true, decide_eq_true_eq] at h
        refine ⟨Or.inr ⟨hi, p, hp, h.1, rfl⟩, ?_⟩
        rintro u (rfl | ⟨-, q, hq, -, rfl⟩)
        · exact h.2.le
        · cases hp.symm.trans hq
          exact le_rfl
      · next h =>
        simp only [Bool.and_eq_true, decide_eq_true_eq, not_and, not_lt] at h
        refine ⟨Or.inl rfl, ?_⟩
        rintro u (rfl | ⟨-, q, hq, hu, rfl⟩)
        · exact le_rfl
        · cases hp.symm.trans hq
          exact h hu
    · next hnone =>
      refine isLeast_insert_none ?_ v
      rintro u ⟨-, p, hp, -⟩
      rw [hnone] at hp
      cases hp
  · next hi =>
    refine isLeast_insert_none ?_ v
    rintro u ⟨sc, -, hu, -⟩
    exact hi hu

theorem glbValidate_le (c : MacsecConf) : glbValidate c ≤ validateFramesStrict := (isLeast_glbValidate c).2 (Or.inl rfl)

/-- Tables with the same levels have the same least level. -/
theorem glbValidate_congr (h : levels c' = levels c) : glbValidate c' = glbValidate c :=
  (isLeast_glbValidate c').unique (h ▸ isLeast_glbValidate c)

/-! ## The register -/

/-- The field `MACSEC_VALIDATE_FRAMES_0` of the register. -/
def level (rf : PortRegs H) (h : H) : Nat := (field (rf.peek h (miscControlReg .ingress) >>> 10) 0 2).toNat

/-- The field after a masked write. -/
theorem field_merge (old : BitVec 32) {v : Nat} (hv : v ≤ validateFramesStrict) :
    (field (merge old (field (word v) 10 2) (bitmask 10 2) >>> 10) 0 2).toNat = v := by
  have hold : ~~~(bitmask 10 2) >>> 10 &&& BitVec.ofNat 32 (2 ^ 2 - 1) = 0 := by decide
  have hnew : ∀ v ≤ 2, ((field (word v) 10 2 &&& bitmask 10 2) >>> 10 &&& BitVec.ofNat 32 (2 ^ 2 - 1)).toNat = v := by
    decide
  rw [field, merge, BitVec.ushiftRight_or_distrib, BitVec.and_or_distrib_right, BitVec.ushiftRight_and_distrib,
    BitVec.and_assoc, hold, BitVec.shiftLeft_zero]
  simpa using hnew v hv

/-- The bits of the other registers. -/
def offLevel : Set (IoReg × Nat) := {p | p.1 ≠ miscControlReg .ingress}

section OffLevel

variable {g : Glb} {d : Direction} {k : Nat}

theorem mem_offLevel {p : IoReg × Nat} (h : p.1.addr ≠ 0x1E5F) : p ∈ offLevel := fun he => h (by rw [he]; rfl)

theorem recordBits_offLevel (hr : r < maxSa) : recordBits g d r ⊆ offLevel := fun p hp => by
  have hpl := recordPlace_of_mem hr hp
  have hb := hpl.bounded (n := 128) fun _ => hpl.lt
  have hlt := hpl.lt
  refine mem_offLevel ?_
  omega

/-- The tables of page 0 end below the register. -/
theorem TablePlace.offLevel {base size : Nat} {p : IoReg × Nat} (h : TablePlace d base size k p)
    (hb : base + size * 32 ≤ 0x1E5F) : p ∈ offLevel := by
  have hp := h.place
  have hk : k < 32 → size * k + size ≤ size * 32 := fun hk => by
    rw [← Nat.mul_succ]
    exact Nat.mul_le_mul_left size hk
  refine mem_offLevel ?_
  omega

theorem flowBits_offLevel (hk : k < maxSecy) : flowBits d k ⊆ offLevel :=
  fun _ h => (flowPlace_of_mem hk h).offLevel (by decide)

theorem mapBits_offLevel (hk : k < 64) : mapBits d k ⊆ offLevel := fun _ h => (mapPlace_of_mem hk h).offLevel (by decide)

theorem camBits_offLevel (hk : k < maxRxSc) : camBits k ⊆ offLevel :=
  fun _ h => (camPlace_of_mem hk h).offLevel (by decide)

theorem selectBits_offLevel : selectBits ⊆ offLevel := by
  rintro p (⟨d, h⟩ | h | h | h | h | h | h) <;> refine mem_offLevel ?_ <;> rw [h]
  · cases d <;> decide
  all_goals decide

theorem samEntryBits_offLevel : wordBits (samEntryEnableCtrlReg d) ⊆ offLevel := fun p hp => by
  refine mem_offLevel ?_
  rw [show p.1 = samEntryEnableCtrlReg d from hp]
  cases d <;> decide

end OffLevel

/-- `update_glb_validate` leaves the tables as they are, and the register with the least level when it returns. -/
theorem updateGlbValidate_ok {s s' : Dev MacsecConf H} (h : updateGlbValidate rf.toBus s = .ok () s') :
    s'.conf = s.conf ∧ level rf s'.hw = glbValidate s.conf := by
  have hconf : s'.conf = s.conf := ((within_updateGlbValidate subset_rfl).ok h).1
  refine ⟨hconf, ?_⟩
  obtain ⟨c, t, hc, h⟩ := (bind_ok_iff ..).mp h
  cases hc
  obtain ⟨old, u, -, hwr⟩ := (bind_ok_iff ..).mp h
  obtain ⟨hw, rfl⟩ := write_ok rf.toBus _ hwr
  rw [level, rf.peek_wr_ok _ _ _ (by decide) hw]
  exact field_merge old (glbValidate_le _)

/-! ## Tables that name entries of the device -/

/-- The records and CAM indexes in the tables are those of an entry. -/
structure Bounded (c : MacsecConf) : Prop where
  tx : ∀ r, (c.txSa r).record < maxSa
  rx : ∀ r, (c.rxSa r).record < maxSa
  hw : ∀ p, (c.rxSc p).hwScIdx < maxRxSc
  pattern : ∀ i a d, (c.secy i).patternRecord a d = notInUse ∨ (c.secy i).patternRecord a d < maxSa

theorem bounded_init (glb : Glb) : Bounded (macsecInit glb) where
  tx _ := show 0 < 128 by decide
  rx _ := show 0 < 128 by decide
  hw _ := show 0 < 64 by decide
  pattern _ _ _ := Or.inr (show 0 < 128 by decide)

namespace Bounded

variable (h : Bounded c)

include h

theorem txSaAt (i an : Nat) : (c.txSaAt i an).record < maxSa := by
  unfold MacsecConf.txSaAt
  split
  · exact h.tx _
  · exact (bounded_init {}).tx 0

theorem rxSaAt (i sc an : Nat) : (c.rxSaAt i sc an).record < maxSa := by
  unfold MacsecConf.rxSaAt
  split
  · exact h.rx _
  · exact (bounded_init {}).rx 0

theorem rxScAt (i sc : Nat) : (c.rxScAt i sc).hwScIdx < maxRxSc := by
  unfold MacsecConf.rxScAt
  split
  · exact h.hw _
  · exact (bounded_init {}).hw 0

theorem setSecy {f : Secy → Secy} (hf : ∀ a d, (f (c.secy i)).patternRecord a d = notInUse ∨
    (f (c.secy i)).patternRecord a d < maxSa) : Bounded (c.setSecy i f) where
  tx := h.tx
  rx := h.rx
  hw := h.hw
  pattern j a d := by
    rw [setSecy_secy]
    split
    · exact hf a d
    · exact h.pattern j a d

theorem setTxSa {f : TxSa → TxSa} (hf : (f (c.txSa r)).record < maxSa) : Bounded (c.setTxSa r f) where
  tx q := by
    rw [setTxSa_txSa]
    split
    · exact hf
    · exact h.tx q
  rx := h.rx
  hw := h.hw
  pattern := h.pattern

theorem setRxSc {f : RxSc → RxSc} (hf : (f (c.rxSc p)).hwScIdx < maxRxSc) : Bounded (c.setRxSc p f) where
  tx := h.tx
  rx := h.rx
  hw q := by
    rw [setRxSc_rxSc]
    split
    · exact hf
    · exact h.hw q
  pattern := h.pattern

theorem setRxSa {f : RxSa → RxSa} (hf : (f (c.rxSa r)).record < maxSa) : Bounded (c.setRxSa r f) where
  tx := h.tx
  rx q := by
    rw [setRxSa_rxSa]
    split
    · exact hf
    · exact h.rx q
  hw := h.hw
  pattern := h.pattern

theorem setRxScAt {f : RxSc → RxSc} (hf : ∀ x, (f x).hwScIdx = x.hwScIdx ∨ (f x).hwScIdx < maxRxSc) :
    Bounded (c.setRxScAt i sc f) := by
  unfold MacsecConf.setRxScAt
  split
  · next p _ =>
    refine h.setRxSc ((hf (c.rxSc p)).elim (fun he => ?_) id)
    rw [he]
    exact h.hw p
  · exact h

end Bounded

/-! ## Updates that concern no level -/

/-- The channels in use and their levels are the same. -/
structure Quiet (c c' : MacsecConf) : Prop where
  secy : ∀ j, (c'.secy j).inUse = (c.secy j).inUse ∧ (c'.secy j).rxSc = (c.secy j).rxSc
  rxSc : ∀ p, (c'.rxSc p).inUse = (c.rxSc p).inUse ∧ (c'.rxSc p).conf = (c.rxSc p).conf
  bounded : Bounded c → Bounded c'

theorem Quiet.refl (c : MacsecConf) : Quiet c c := ⟨fun _ => ⟨rfl, rfl⟩, fun _ => ⟨rfl, rfl⟩, id⟩

theorem Quiet.trans (h : Quiet c c₁) (h' : Quiet c₁ c') : Quiet c c' where
  secy j := ⟨(h'.secy j).1.trans (h.secy j).1, (h'.secy j).2.trans (h.secy j).2⟩
  rxSc p := ⟨(h'.rxSc p).1.trans (h.rxSc p).1, (h'.rxSc p).2.trans (h.rxSc p).2⟩
  bounded := h'.bounded ∘ h.bounded

theorem Quiet.levels (h : Quiet c c') : levels c' = levels c := by
  simp only [Macsec.levels, ChannelLevel, (h.secy _).1, (h.secy _).2, (h.rxSc _).1, (h.rxSc _).2]

section Updates

variable {d : Direction} {a : MatchAction}

theorem quiet_setSecy {f : Secy → Secy} (hu : (f (c.secy i)).inUse = (c.secy i).inUse)
    (hrx : (f (c.secy i)).rxSc = (c.secy i).rxSc)
    (hp : ∀ a d, (f (c.secy i)).patternRecord a d = (c.secy i).patternRecord a d ∨
      (f (c.secy i)).patternRecord a d = notInUse ∨ (f (c.secy i)).patternRecord a d < maxSa) :
    Quiet c (c.setSecy i f) where
  secy j := ⟨setSecy_part Secy.inUse hu j, setSecy_part Secy.rxSc hrx j⟩
  rxSc _ := ⟨rfl, rfl⟩
  bounded h := h.setSecy fun a d => (hp a d).elim (fun he => by rw [he]; exact h.pattern i a d) id

/-- An update of a SecY that touches neither its receive channels nor its patterns. -/
theorem quiet_settings {f : Secy → Secy} (hu : (f (c.secy i)).inUse = (c.secy i).inUse)
    (hrx : (f (c.secy i)).rxSc = (c.secy i).rxSc)
    (hp : (f (c.secy i)).patternRecord = (c.secy i).patternRecord) : Quiet c (c.setSecy i f) :=
  quiet_setSecy hu hrx fun _ _ => Or.inl (by rw [hp])

theorem quiet_setTxSa {f : TxSa → TxSa} (hf : (f (c.txSa r)).record = (c.txSa r).record ∨ (f (c.txSa r)).record < maxSa) :
    Quiet c (c.setTxSa r f) where
  secy _ := ⟨rfl, rfl⟩
  rxSc _ := ⟨rfl, rfl⟩
  bounded h := h.setTxSa (hf.elim (fun he => by rw [he]; exact h.tx r) id)

theorem quiet_setRxSa {f : RxSa → RxSa} (hf : (f (c.rxSa r)).record = (c.rxSa r).record ∨ (f (c.rxSa r)).record < maxSa) :
    Quiet c (c.setRxSa r f) where
  secy _ := ⟨rfl, rfl⟩
  rxSc _ := ⟨rfl, rfl⟩
  bounded h := h.setRxSa (hf.elim (fun he => by rw [he]; exact h.rx r) id)

theorem quiet_setTxSaAt {f : TxSa → TxSa} (hf : ∀ sa, (f sa).record = sa.record) : Quiet c (c.setTxSaAt i an f) := by
  unfold setTxSaAt
  split
  · exact quiet_setTxSa (Or.inl (hf _))
  · exact .refl c

theorem quiet_setRxSaAt {f : RxSa → RxSa} (hf : ∀ sa, (f sa).record = sa.record) :
    Quiet c (c.setRxSaAt i sc an f) := by
  unfold setRxSaAt
  split
  · exact quiet_setRxSa (Or.inl (hf _))
  · exact .refl c

/-- An update of the SAs of a channel. -/
theorem quiet_setRxScAt {f : RxSc → RxSc}
    (hf : ∀ x, (f x).inUse = x.inUse ∧ (f x).conf = x.conf ∧ (f x).hwScIdx = x.hwScIdx) :
    Quiet c (c.setRxScAt i sc f) where
  secy j := by
    unfold setRxScAt
    split <;> exact ⟨rfl, rfl⟩
  rxSc p := by
    unfold setRxScAt
    split
    · exact ⟨setRxSc_part RxSc.inUse (hf _).1 p, setRxSc_part RxSc.conf (hf _).2.1 p⟩
    · exact ⟨rfl, rfl⟩
  bounded h := h.setRxScAt fun x => Or.inl (hf x).2.2

theorem quiet_linkTxSa {nextPn : PktNum} {b : Bool} {sak : Sak} {ssci : Option Ssci} (hr : r < maxSa) :
    Quiet c (linkTxSa i c an r nextPn b sak ssci) :=
  (quiet_settings (c := c) rfl rfl rfl).trans (quiet_setTxSa (Or.inr hr))

theorem quiet_freeTxSa : Quiet c (freeTxSa i c an r) :=
  (quiet_setTxSa (Or.inr (show 0 < 128 by decide))).trans (quiet_settings rfl rfl rfl)

theorem quiet_activateTxSa {oldAn : Nat} {b : Bool} : Quiet c (activateTxSa i c an oldAn b) := by
  have hflag (c₁ : MacsecConf) : Quiet c₁ (c₁.setTxSaAt i an fun sa => { sa with enabled := true, statusInUse := true }) :=
    quiet_setTxSaAt fun _ => rfl
  unfold MacsecConf.activateTxSa
  refine Quiet.trans ?_ ((hflag _).trans (quiet_settings rfl rfl rfl))
  split
  · exact quiet_setTxSaAt fun _ => rfl
  · exact .refl c

theorem quiet_disableTxSa : Quiet c (disableTxSa i c an) :=
  (quiet_settings rfl rfl rfl).trans (quiet_setTxSaAt fun _ => rfl)

theorem quiet_linkRxSa {lowestPn : PktNum} {sak : Sak} {ssci : Option Ssci} (hr : r < maxSa) :
    Quiet c (linkRxSa i c sc an r lowestPn sak ssci) := by
  have hsa : Quiet c (c.setRxScAt i sc fun x => { x with sa := Function.update x.sa an (some r) }) :=
    quiet_setRxScAt fun _ => ⟨rfl, rfl, rfl⟩
  exact hsa.trans (quiet_setRxSa (Or.inr hr))

theorem quiet_freeRxSa : Quiet c (freeRxSa i c sc an r) :=
  (quiet_setRxSa (Or.inr (show 0 < 128 by decide))).trans (quiet_setRxScAt fun _ => ⟨rfl, rfl, rfl⟩)

theorem quiet_flagRxSa {b : Bool} : Quiet c (flagRxSa i c sc an b) := quiet_setRxSaAt fun _ => rfl

theorem quiet_setPattern {f : MatchPattern → MatchPattern} : Quiet c (setPattern i c a d f) := quiet_settings rfl rfl rfl

theorem quiet_setSaInUse {b : Bool} : Quiet c (c.setSaInUse d r b) := by
  unfold setSaInUse
  cases d with
  | egress => exact quiet_setTxSa (Or.inl rfl)
  | ingress => exact quiet_setRxSa (Or.inl rfl)

theorem quiet_setSaRecord (hr : r < maxSa) : Quiet c (c.setSaRecord d r) := by
  unfold setSaRecord
  cases d with
  | egress => exact quiet_setTxSa (Or.inr hr)
  | ingress => exact quiet_setRxSa (Or.inr hr)

theorem quiet_setPatternRecord (hr : r = notInUse ∨ r < maxSa) : Quiet c (c.setPatternRecord i a d r) := by
  refine quiet_setSecy rfl rfl fun a' d' => ?_
  by_cases had : a' = a ∧ d' = d
  · exact Or.inr (by simpa [had] using hr)
  · exact Or.inl (if_neg had)

theorem quiet_linkPattern (hr : r < maxSa) : Quiet c (linkPattern i c a d r) :=
  ((quiet_setSaRecord hr).trans quiet_setSaInUse).trans (quiet_setPatternRecord (Or.inr hr))

theorem quiet_freePattern : Quiet c (freePattern i c a d r) :=
  (quiet_setSaInUse.trans (quiet_setPatternRecord (Or.inl rfl))).trans quiet_setPattern

end Updates

/-! ## Calls that concern no level -/

/-- The levels and the register are as before. -/
def levelFree (rf : PortRegs H) : Frame (Dev MacsecConf H) where
  rel s s' := Quiet s.conf s'.conf ∧ level rf s'.hw = level rf s.hw
  refl s := ⟨.refl s.conf, rfl⟩
  trans h h' := ⟨h.1.trans h'.1, h'.2.trans h.2⟩

/-- From tables that name entries of the device, the call stays within the frame and leaves such tables. -/
abbrev Keeps (F : Frame (Dev MacsecConf H)) {α : Type} (x : Call H α) : Prop :=
  Steps F (fun s => Bounded s.conf) x fun _ s => Bounded s.conf

/-- From tables that name entries of the device, the call leaves the levels and the register as they are. -/
abbrev LevelFree (rf : PortRegs H) {α : Type} (x : Call H α) : Prop := Keeps (levelFree rf) x

section Rules

variable {α β : Type} {F : Frame (Dev MacsecConf H)} {port : MacsecPort}

theorem Keeps.of_rel {x : Call H α}
    (hx : ∀ s, Bounded s.conf → F.rel s (final x s) ∧ Bounded (final x s).conf) : Keeps F x := fun s hs => by
  refine ⟨(hx s hs).1, fun a s' ha => ?_⟩
  have hb := (hx s hs).2
  rwa [final, ha] at hb

theorem levelFree_hw {x : Call H α} (hx : ∀ c, Bounded c →
    Steps (hwFrame rf.toBus offLevel) (fun s => s.conf = c) x fun _ _ => True) : LevelFree rf x :=
  Keeps.of_rel fun s hs => by
    obtain ⟨hc, hh⟩ := (hx s.conf hs s rfl).1
    have hword : rf.peek (final x s).hw (miscControlReg .ingress) = rf.peek s.hw (miscControlReg .ingress) :=
      rf.frame_word hh (by decide) fun b _ hb => hb rfl
    rw [hc]
    exact ⟨⟨by rw [hc]; exact .refl _, by rw [level, level, hword]⟩, hs⟩

theorem levelFree_within {x : Call H α} (hx : Within (hwFrame rf.toBus offLevel) x) : LevelFree rf x :=
  levelFree_hw fun _ _ => (within_iff.mp hx).pre fun _ _ => trivial

theorem levelFree_modifyConf {f : MacsecConf → MacsecConf} (hf : ∀ c, Quiet c (f c)) :
    LevelFree rf (modifyConf f : Call H PUnit) :=
  Steps.modify fun s hs => ⟨⟨hf s.conf, rfl⟩, (hf s.conf).bounded hs⟩

theorem keeps_getConf_bind {f : MacsecConf → Call H β} {R : β → Dev MacsecConf H → Prop}
    (hf : ∀ c, Bounded c → Steps F (fun s => Bounded s.conf) (f c) R) :
    Steps F (fun s => Bounded s.conf) (getConf >>= f) R := by
  intro s hs
  exact hf s.conf hs s hs

theorem keeps_scFromSci_bind {sci : Sci} {f : Nat → Call H β} {R : β → Dev MacsecConf H → Prop}
    (hf : ∀ sc, Steps F (fun s => Bounded s.conf) (f sc) R) :
    Steps F (fun s => Bounded s.conf) (scFromSci i sci >>= f) R := by
  refine Steps.bind (keeps_getConf_bind fun c _ => ?_) hf
  cases c.scFromSciGet i sci with
  | none => exact Steps.throw
  | some sc => exact Steps.pure fun _ hs => hs

theorem keeps_portCheck :
    Steps F (fun s => Bounded s.conf) (portCheck port : Call H Nat) fun i s => Bounded s.conf ∧ i < maxSecy := by
  refine keeps_getConf_bind fun c _ => Steps.failIf_bind fun _ => ?_
  cases hp : portFind c port with
  | none => exact Steps.throw
  | some i => exact Steps.pure fun _ hs => ⟨hs, (portFind_spec hp).1⟩

theorem keeps_portCheck_bind {f : Nat → Call H β} {R : β → Dev MacsecConf H → Prop}
    (hf : ∀ i < maxSecy, Steps F (fun s => Bounded s.conf) (f i) R) :
    Steps F (fun s => Bounded s.conf) (portCheck port >>= f) R :=
  keeps_portCheck.bind fun i => Steps.imp (hf i)

theorem levelFree_portCheck : LevelFree rf (portCheck port : Call H Nat) := keeps_portCheck.post fun _ _ h => h.1

theorem LevelFree.attempt {x : Call H α} (hx : LevelFree rf x) : LevelFree rf (attempt x) :=
  Steps.attempt hx fun _ _ hs h => h.1.bounded hs

theorem LevelFree.ignored {x : Call H α} (hx : LevelFree rf x) : LevelFree rf (discard (Fallible.attempt x)) :=
  hx.attempt.bind fun _ => Steps.pure fun _ hs => hs

theorem Keeps.when {b : Prop} [Decidable b] {x : Call H Unit} (hx : b → Keeps F x) : Keeps F (when b x) :=
  Steps.when hx fun _ _ hs => hs

theorem Keeps.forUpTo {n : Nat} {body : Nat → Call H Unit} (hbody : ∀ k < n, Keeps F (body k)) :
    Keeps F (forUpTo n body) :=
  Steps.forUpTo (I := fun _ (s : Dev MacsecConf H) => Bounded s.conf) n hbody

end Rules

section Calls

variable {d : Direction} {a : MatchAction} {sci : Sci}

theorem levelFree_saEnable {b : Bool} (hr : record < maxSa) : LevelFree rf (saEnable rf.toBus record d b) :=
  levelFree_within (within_saEnable (enable_of_record (g := {}) (recordBits_offLevel hr)))

theorem levelFree_saInuse {b : Bool} (hk : sc < 64) : LevelFree rf (saInuse rf.toBus record sc an d b) :=
  levelFree_within (within_saInuse (mapBits_offLevel hk))

theorem levelFree_saSamInFlight : LevelFree rf (saSamInFlight rf.toBus d) := levelFree_within within_saSamInFlight

theorem levelFree_saXformSet (hr : record < maxSa) : LevelFree rf (saXformSet rf.toBus d record i an sc) :=
  levelFree_within (within_saXformSet (xform_of_record (g := {}) (recordBits_offLevel hr)))

theorem levelFree_saXformReset (hr : record < maxSa) : LevelFree rf (saXformReset rf.toBus d record) :=
  levelFree_within (within_saXformReset (xform_of_record (g := {}) (recordBits_offLevel hr)))

theorem levelFree_saTcamKeyMaskSet {pattern : MatchPattern} (hr : record < maxSa) :
    LevelFree rf (saTcamKeyMaskSet rf.toBus d record i sc pattern) :=
  levelFree_hw fun c _ => steps_saTcamKeyMaskSet selectBits_offLevel (tcam_of_record (g := c.glb) (recordBits_offLevel hr))
    (policy_of_record (g := c.glb) (recordBits_offLevel hr))

theorem levelFree_saTcamKeyMaskReset (hr : record < maxSa) : LevelFree rf (saTcamKeyMaskReset rf.toBus d record) :=
  levelFree_within (within_saTcamKeyMaskReset samEntryBits_offLevel
    (tcamWord_of_record (g := {}) (recordBits_offLevel hr)))

theorem levelFree_rxScCamSet : LevelFree rf (rxScCamSet rf.toBus i sc) :=
  levelFree_hw fun _ hb => steps_rxScCamSet selectBits_offLevel (camBits_offLevel (hb.rxScAt i sc))

theorem levelFree_flowWord {n : Nat} {v : BitVec 32} (hi : i < maxSecy) (hn : n < 2) :
    LevelFree rf (csrWarmWr rf.toBus (flowCtrlReg d n i) v) :=
  levelFree_within (within_csrWarmWr fun _ hp => flowBits_offLevel hi ⟨n, hn, hp⟩)

/-- The flow words of a transmit SA. -/
theorem levelFree_saFlowSet (hi : i < maxSecy) : LevelFree rf (saFlowSet rf.toBus .egress i an sc a) :=
  keeps_getConf_bind fun _ _ => (levelFree_flowWord hi (by decide)).bind fun _ => levelFree_flowWord hi (by decide)

/-! ### Transmit SAs -/

theorem levelFree_txSaSet {nextPn : PktNum} {b : Bool} {sak : Sak} {ssci : Option Ssci} (hi : i < maxSecy) :
    LevelFree rf (txSaSet rf.toBus i an nextPn b sak ssci) := by
  refine keeps_getConf_bind fun c _ => Steps.failIf_bind fun _ => Steps.failIf_bind fun _ => ?_
  refine Steps.failIf_bind fun _ => Steps.failIf_bind fun _ => Steps.failIf_bind fun _ => ?_
  cases hrec : c.recordEmptyGet .egress with
  | none => exact Steps.throw
  | some record =>
    have hr := (recordEmptyGet_spec hrec).2
    refine (levelFree_modifyConf fun _ => quiet_linkTxSa hr).bind fun _ => ?_
    refine (Steps.orFail (levelFree_saXformSet hr)).bind fun _ => ?_
    exact (Steps.orFail (levelFree_saFlowSet hi)).bind fun _ => Steps.orFail (levelFree_saTcamKeyMaskSet hr)

theorem levelFree_txSaActivate (hi : i < maxSecy) : LevelFree rf (txSaActivate rf.toBus i an) := by
  refine keeps_getConf_bind fun c hb => Steps.failIf_bind fun _ => Steps.failIf_bind fun _ => ?_
  refine Steps.failIf_bind fun _ => (Steps.orFail (levelFree_saInuse hi)).bind fun _ => ?_
  refine (Steps.orFail levelFree_saSamInFlight).bind fun _ => ?_
  refine (Steps.orFail (levelFree_saEnable (hb.txSaAt i an))).bind fun _ => ?_
  refine (Keeps.when fun _ => Steps.orFail (levelFree_saEnable (hb.txSaAt ..))).bind fun _ => ?_
  exact levelFree_modifyConf fun _ => quiet_activateTxSa

theorem levelFree_txSaDisable (hi : i < maxSecy) : LevelFree rf (txSaDisable rf.toBus i an) := by
  refine keeps_getConf_bind fun c hb => Steps.failIf_bind fun _ => Steps.failIf_bind fun _ => ?_
  refine (Steps.orFail (levelFree_saEnable (hb.txSaAt i an))).bind fun _ => (Keeps.when fun _ => ?_).bind fun _ => ?_
  · refine (Steps.orFail (levelFree_saInuse hi)).bind fun _ => ?_
    exact Steps.orFail (levelFree_within (within_samEntryCtrl samEntryBits_offLevel))
  · exact levelFree_modifyConf fun _ => quiet_disableTxSa

theorem levelFree_txSaDel : LevelFree rf (txSaDel rf.toBus i an) := by
  refine keeps_getConf_bind fun c hb => Steps.failIf_bind fun _ => Steps.failIf_bind fun _ => ?_
  have hr := hb.txSaAt i an
  refine (Steps.orFail (levelFree_saEnable hr)).bind fun _ => ?_
  refine levelFree_saSamInFlight.ignored.bind fun _ => (levelFree_within within_txSaCountersGet).ignored.bind fun _ => ?_
  refine (levelFree_modifyConf fun _ => quiet_freeTxSa).bind fun _ => ?_
  exact (Steps.orFail (levelFree_saTcamKeyMaskReset hr)).bind fun _ => Steps.orFail (levelFree_saXformReset hr)

theorem levelFree_txSasDel (hi : i < maxSecy) : LevelFree rf (txSasDel rf.toBus i) := by
  refine Keeps.forUpTo fun an _ => keeps_getConf_bind fun c _ => Keeps.when fun _ => ?_
  exact (Steps.orFail (levelFree_txSaDisable hi)).bind fun _ => Steps.orFail levelFree_txSaDel

theorem levelFree_txScDel (hi : i < maxSecy) : LevelFree rf (txScDel rf.toBus i) := by
  refine keeps_getConf_bind fun c _ => Steps.failIf_bind fun _ => (levelFree_txSasDel hi).bind fun _ => ?_
  exact levelFree_modifyConf fun _ => quiet_settings rfl rfl rfl

/-! ### Receive SAs -/

theorem levelFree_rxSaActivate : LevelFree rf (rxSaActivate rf.toBus i sci an) := by
  refine keeps_scFromSci_bind fun sc => keeps_getConf_bind fun c hb => Steps.failIf_bind fun _ => ?_
  refine Steps.failIf_bind fun _ => Steps.failIf_bind fun _ => ?_
  refine (Steps.orFail (levelFree_saInuse (hb.rxScAt i sc))).bind fun _ => ?_
  refine (Steps.orFail (levelFree_saEnable (hb.rxSaAt i sc an))).bind fun _ => ?_
  exact levelFree_modifyConf fun _ => quiet_flagRxSa

theorem levelFree_rxSaDisable : LevelFree rf (rxSaDisable rf.toBus i sci an) := by
  refine Steps.failIf_bind fun _ => keeps_scFromSci_bind fun sc => keeps_getConf_bind fun c hb => ?_
  refine Steps.failIf_bind fun _ => (Steps.orFail (levelFree_saEnable (hb.rxSaAt i sc an))).bind fun _ => ?_
  refine (Steps.orFail (levelFree_saInuse (hb.rxScAt i sc))).bind fun _ => ?_
  exact levelFree_modifyConf fun _ => quiet_flagRxSa

theorem levelFree_rxSaDel : LevelFree rf (rxSaDel rf.toBus i sci an) := by
  refine Steps.failIf_bind fun _ => keeps_scFromSci_bind fun sc => keeps_getConf_bind fun c hb => ?_
  have hr := hb.rxSaAt i sc an
  refine Steps.failIf_bind fun _ => (Steps.orFail (levelFree_saInuse (hb.rxScAt i sc))).bind fun _ => ?_
  refine (Steps.orFail levelFree_saSamInFlight).bind fun _ => (Steps.orFail (levelFree_saEnable hr)).bind fun _ => ?_
  refine (levelFree_within within_rxSaCountersGet).ignored.bind fun _ => ?_
  refine (levelFree_modifyConf fun _ => quiet_freeRxSa).bind fun _ => ?_
  exact (Steps.orFail (levelFree_saTcamKeyMaskReset hr)).bind fun _ => Steps.orFail (levelFree_saXformReset hr)

theorem levelFree_rxSasDel : LevelFree rf (rxSasDel rf.toBus i sc sci) := by
  refine Keeps.forUpTo fun an _ => keeps_getConf_bind fun c _ => Keeps.when fun _ => ?_
  exact (Keeps.when fun _ => Steps.orFail levelFree_rxSaDisable).bind fun _ => Steps.orFail levelFree_rxSaDel

theorem levelFree_rxSaLowestPnUpdate {lowestPn : PktNum} : LevelFree rf (rxSaLowestPnUpdate rf.toBus i sci an lowestPn) := by
  refine keeps_getConf_bind fun c _ => ?_
  cases c.scFromSciGet i sci with
  | none => exact Steps.pure fun _ hs => hs
  | some sc =>
    refine Steps.failIf_bind fun _ => Steps.failIf_bind fun _ => Steps.failIf_bind fun _ => Steps.failIf_bind fun _ => ?_
    refine (Steps.orFail (levelFree_within (within_rxSaNextPnUpdate selectBits_offLevel))).bind fun _ => ?_
    exact (levelFree_within within_csrRd).bind fun _ => Keeps.when fun _ => Steps.throw

/-! ### Patterns and settings -/

theorem levelFree_patternSet {pattern : MatchPattern} : LevelFree rf (patternSet rf.toBus i d a pattern) := by
  refine keeps_getConf_bind fun c _ => Steps.failIf_bind fun _ => ?_
  cases hrec : c.recordEmptyGet d with
  | none => exact Steps.throw
  | some record =>
    have hr := (recordEmptyGet_spec hrec).2
    refine Steps.failIf_bind fun _ => (levelFree_modifyConf fun _ => quiet_linkPattern hr).bind fun _ => ?_
    refine (Steps.orFail (levelFree_saTcamKeyMaskSet hr)).bind fun _ => ?_
    refine (Steps.orFail (levelFree_within ?_)).bind fun _ => Steps.orFail (levelFree_saEnable hr)
    exact within_saTcamPolicyUnctrlDrop (policy_of_record (g := {}) (recordBits_offLevel hr))

theorem levelFree_patternDel : LevelFree rf (patternDel rf.toBus i d a) := by
  refine keeps_getConf_bind fun c hb => Steps.failIf_bind fun hset => ?_
  have hr := (hb.pattern i a d).resolve_left hset
  refine (Steps.orFail (levelFree_saEnable hr)).bind fun _ => (Steps.orFail (levelFree_saInuse (by decide))).bind fun _ => ?_
  refine (Steps.orFail (levelFree_saTcamKeyMaskReset hr)).bind fun _ => ?_
  exact levelFree_modifyConf fun _ => quiet_freePattern

theorem levelFree_patternsDel : LevelFree rf (patternsDel rf.toBus i) :=
  Keeps.forUpTo fun _ _ => keeps_getConf_bind fun _ _ => Keeps.when fun _ => levelFree_patternDel

theorem levelFree_secyControlledSet {b : Bool} : LevelFree rf (secyControlledSet rf.toBus i b) := by
  refine keeps_getConf_bind fun c hb => Keeps.when fun _ => ?_
  refine Steps.bind (Keeps.forUpTo fun sc _ => Keeps.forUpTo fun an _ => Keeps.when fun _ => ?_) fun _ => ?_
  · exact Steps.orFail (levelFree_saEnable (hb.rxSaAt i sc an))
  · refine Steps.bind (Keeps.forUpTo fun an _ => Keeps.when fun _ => ?_) fun _ => ?_
    · exact Steps.orFail (levelFree_saEnable (hb.txSaAt i an))
    · exact levelFree_modifyConf fun _ => quiet_settings rfl rfl rfl

theorem levelFree_patternSetPriv {port : MacsecPort} {pattern : MatchPattern} :
    LevelFree rf (patternSetPriv rf.toBus port d a pattern) := by
  refine keeps_getConf_bind fun c _ => Steps.failIf_bind fun _ => Steps.failIf_bind fun _ => ?_
  refine (Steps.orFail levelFree_portCheck).bind fun i => ?_
  refine (Keeps.when fun _ => Steps.orFail levelFree_patternSet).bind fun _ => ?_
  exact levelFree_modifyConf fun _ => quiet_setPattern

theorem levelFree_patternDelPriv {port : MacsecPort} : LevelFree rf (patternDelPriv rf.toBus port d a) := by
  refine (Steps.orFail levelFree_portCheck).bind fun i => ?_
  refine (Keeps.when fun _ => Steps.orFail levelFree_patternDel).bind fun _ => ?_
  exact levelFree_modifyConf fun _ => quiet_setPattern

theorem levelFree_bypassTagSetPriv {port : MacsecPort} {tag : Nat} :
    LevelFree rf (bypassTagSetPriv port tag : Call H Unit) := by
  refine keeps_getConf_bind fun c _ => Steps.failIf_bind fun _ => levelFree_portCheck.attempt.bind fun o => ?_
  cases o with
  | some i => exact levelFree_modifyConf fun _ => quiet_settings rfl rfl rfl
  | none => exact Steps.pure fun _ hs => hs

end Calls

/-! ## Calls that store levels -/

/-- The tables still name entries of the device. -/
def bounding : Frame (Dev MacsecConf H) := .keeps fun s => Bounded s.conf

/-- The register is as before. -/
def still (rf : PortRegs H) : Frame (Dev MacsecConf H) where
  rel s s' := (Bounded s.conf → Bounded s'.conf) ∧ level rf s'.hw = level rf s.hw
  refl _ := ⟨id, rfl⟩
  trans h h' := ⟨h'.1 ∘ h.1, h'.2.trans h.2⟩

section Stores

variable {α : Type} {sci : Sci}

theorem LevelFree.still {x : Call H α} (hx : LevelFree rf x) : Keeps (still rf) x :=
  hx.mono fun _ _ _ h => ⟨h.1.bounded, h.2⟩

theorem still_modifyConf {f : MacsecConf → MacsecConf} (hf : ∀ c, Bounded c → Bounded (f c)) :
    Keeps (still rf) (modifyConf f : Call H PUnit) :=
  Steps.modify fun s hs => ⟨⟨hf s.conf, rfl⟩, hf s.conf hs⟩

theorem Bounded.updateRxScConf (h : Bounded c) {conf : RxScConf} : Bounded (updateRxScConf i c sc conf) :=
  h.setRxScAt fun _ => Or.inl rfl

theorem Bounded.addRxSc (h : Bounded c) {hw : Nat} (hhw : hw < maxRxSc) : Bounded (addRxSc i c sc p hw sci) := by
  have hidx : Bounded { c with rxScHwIdxInUse := c.rxScHwIdxInUse ||| (1#64 <<< hw) } := ⟨h.tx, h.rx, h.hw, h.pattern⟩
  have hptr := hidx.setSecy (i := i) (f := fun s => { s with rxSc := Function.update s.rxSc sc (some p) }) (h.pattern i)
  unfold MacsecConf.addRxSc
  exact hptr.setRxSc hhw

theorem still_rxScAdd : Keeps (still rf) (rxScAdd i sci : Call H Unit) := by
  refine keeps_getConf_bind fun c _ => Steps.failIf_bind fun _ => Steps.failIf_bind fun _ => Steps.failIf_bind fun _ => ?_
  cases hpl : rxScPlace c i with
  | none => exact Steps.throw
  | some place =>
    obtain ⟨sc, p, hw⟩ := place
    exact still_modifyConf fun _ hb => hb.addRxSc (rxScPlace_spec hpl).2.2.1

theorem still_rxScUpdatePriv {conf : RxScConf} : Keeps (still rf) (rxScUpdatePriv i sci conf : Call H Unit) := by
  refine keeps_scFromSci_bind fun sc => keeps_getConf_bind fun c _ => Steps.failIf_bind fun _ => ?_
  exact still_modifyConf fun _ hb => hb.updateRxScConf

theorem still_rxScUpdate {conf : SecyConf} : Keeps (still rf) (rxScUpdate rf.toBus i conf sc) := by
  refine keeps_getConf_bind fun c _ => Keeps.when fun _ => ?_
  exact (still_modifyConf fun _ hb => hb.updateRxScConf).bind fun _ => levelFree_rxSasDel.still

theorem still_secyConfUpdate {conf : SecyConf} (hi : i < maxSecy) :
    Keeps (still rf) (secyConfUpdate rf.toBus i conf) := by
  have hconf : LevelFree rf (modifyConf fun c => updateSecyConf i c conf : Call H PUnit) :=
    levelFree_modifyConf fun _ => quiet_settings rfl rfl rfl
  refine Steps.failIf_bind fun _ => hconf.still.bind fun _ => (levelFree_txSasDel hi).still.bind fun _ => ?_
  refine (Keeps.forUpTo fun _ _ => still_rxScUpdate).bind fun _ => keeps_getConf_bind fun c _ => ?_
  exact Keeps.when fun _ => Steps.throw

end Stores

/-! ## Calls that program the register -/

/-- The register holds the least level. -/
def Right (rf : PortRegs H) (s : Dev MacsecConf H) : Prop := level rf s.hw = glbValidate s.conf

section Programs

variable {α : Type} {sci : Sci}

theorem LevelFree.keeps {x : Call H α} (hx : LevelFree rf x) : Keeps bounding x := hx.mono fun _ _ _ h => h.1.bounded

/-- A call that concerns no level leaves a right register right. -/
theorem LevelFree.right {x : Call H α} (hx : LevelFree rf x) :
    Steps bounding (fun s => Bounded s.conf ∧ Right rf s) x fun _ s => Bounded s.conf ∧ Right rf s := by
  rintro s ⟨hb, hr⟩
  obtain ⟨⟨hq, hlevel⟩, hpost⟩ := hx s hb
  refine ⟨hq.bounded, fun a s' ha => ⟨hpost a s' ha, ?_⟩⟩
  rw [final, ha] at hq hlevel
  rw [Right, hlevel, glbValidate_congr hq.levels]
  exact hr

/-- `update_glb_validate` leaves the tables as they are, and a right register. -/
theorem right_updateGlbValidate :
    Steps bounding (fun s => Bounded s.conf) (updateGlbValidate rf.toBus) fun _ s => Bounded s.conf ∧ Right rf s := by
  intro s hs
  have hframe : (hwFrame rf.toBus modeBits).rel s (final (updateGlbValidate rf.toBus) s) :=
    within_updateGlbValidate subset_rfl s
  refine ⟨fun _ => by rwa [← hframe.1] at hs, fun u s' h => ?_⟩
  obtain ⟨hc, hlevel⟩ := updateGlbValidate_ok h
  exact ⟨hc ▸ hs, by rw [Right, hlevel, hc]⟩

theorem right_saFlowSet {a : MatchAction} (hi : i < maxSecy) :
    Steps bounding (fun s => Bounded s.conf) (saFlowSet rf.toBus .ingress i an sc a)
      fun _ s => Bounded s.conf ∧ Right rf s := by
  refine keeps_getConf_bind fun c _ => Steps.failIf_bind fun _ => right_updateGlbValidate.bind fun _ => ?_
  exact (levelFree_flowWord (n := 0) hi (by decide)).right.bind fun _ => (levelFree_flowWord (n := 1) hi (by decide)).right

theorem right_rxSaSet {lowestPn : PktNum} {sak : Sak} {ssci : Option Ssci} (hi : i < maxSecy) :
    Steps bounding (fun s => Bounded s.conf) (rxSaSet rf.toBus i sci an lowestPn sak ssci)
      fun _ s => Bounded s.conf ∧ Right rf s := by
  refine keeps_scFromSci_bind fun sc => keeps_getConf_bind fun c _ => Steps.failIf_bind fun _ => ?_
  refine Steps.failIf_bind fun _ => Steps.failIf_bind fun _ => Steps.failIf_bind fun _ => ?_
  cases hrec : c.recordEmptyGet .ingress with
  | none => exact Steps.throw
  | some record =>
    have hr := (recordEmptyGet_spec hrec).2
    have hlink : LevelFree rf (modifyConf fun c => linkRxSa i c sc an record lowestPn sak ssci : Call H PUnit) :=
      levelFree_modifyConf fun _ => quiet_linkRxSa hr
    refine hlink.keeps.bind fun _ => (Steps.orFail (levelFree_saXformSet hr).keeps).bind fun _ => ?_
    refine (Steps.orFail (levelFree_saTcamKeyMaskSet hr).keeps).bind fun _ => ?_
    exact (Steps.orFail (right_saFlowSet hi)).bind fun _ => Steps.orFail levelFree_rxScCamSet.right

theorem Bounded.freeRxSc (h : Bounded c) : Bounded (freeRxSc i c sc) := by
  have hidx : Bounded { c with rxScHwIdxInUse := c.rxScHwIdxInUse &&& ~~~(1#64 <<< (c.rxScAt i sc).hwScIdx) } :=
    ⟨h.tx, h.rx, h.hw, h.pattern⟩
  have hgone : Bounded (MacsecConf.setRxScAt _ i sc fun _ => {}) := hidx.setRxScAt fun _ => Or.inr (show 0 < 64 by decide)
  unfold MacsecConf.freeRxSc
  exact hgone.setSecy (hgone.pattern i)

theorem right_rxScDel : Steps bounding (fun s => Bounded s.conf) (rxScDel rf.toBus i sci)
    fun _ s => Bounded s.conf ∧ Right rf s := by
  refine keeps_scFromSci_bind fun sc => levelFree_rxSasDel.keeps.bind fun _ => keeps_getConf_bind fun c _ => ?_
  have hcam : LevelFree rf (csrWr rf.toBus rxscEntryEnableCtrlReg (field (word (c.rxScAt i sc).hwScIdx) 0 6)) :=
    levelFree_within (within_csrWr fun _ hp => selectBits_offLevel (Or.inr (Or.inr (Or.inr (Or.inl hp)))))
  refine hcam.keeps.bind fun _ => Steps.bind (Q := fun _ s => Bounded s.conf) ?_ fun _ => right_updateGlbValidate
  exact Steps.modify fun s hs => ⟨fun hb => hb.freeRxSc, hs.freeRxSc⟩

end Programs

/-! ## SecYs -/

/-- A SecY without receive channels has no levels. -/
theorem levels_setSecy_bare {f : Secy → Secy} (h : ∀ sc, (c.secy i).rxSc sc = none)
    (hf : ∀ sc, (f (c.secy i)).rxSc sc = none) : levels (c.setSecy i f) = levels c := by
  have hchannel (j sc v : Nat) : ChannelLevel (c.setSecy i f) j sc v ↔ ChannelLevel c j sc v := by
    by_cases hj : j = i
    · subst hj
      simp [ChannelLevel, setSecy_secy_self, h, hf]
    · simp only [ChannelLevel, setSecy_secy, if_neg hj, setSecy_rxSc]
  simp only [levels, hchannel]

theorem levels_openSecy {port : MacsecPort} {conf : SecyConf} (h : ∀ sc, (c.secy i).rxSc sc = none) :
    levels (openSecy i c port conf) = levels c := by
  unfold openSecy
  exact levels_setSecy_bare h h

theorem levels_clearSecy (h : ∀ sc, (c.secy i).rxSc sc = none) : levels (clearSecy i c) = levels c := by
  unfold clearSecy
  exact levels_setSecy_bare h fun _ => rfl

theorem Bounded.openSecy (h : Bounded c) {port : MacsecPort} {conf : SecyConf} : Bounded (openSecy i c port conf) :=
  h.setSecy fun _ _ => Or.inl rfl

theorem Bounded.clearSecy (h : Bounded c) : Bounded (clearSecy i c) :=
  h.setSecy fun _ _ => Or.inr (show 0 < 128 by decide)

section Secys

variable {α : Type} {s s' : Dev MacsecConf H}

theorem Keeps.ok {F : Frame (Dev MacsecConf H)} {x : Call H α} (hx : Keeps F x) {a : α} (hb : Bounded s.conf)
    (h : x s = .ok a s') : F.rel s s' ∧ Bounded s'.conf := by
  refine ⟨?_, (hx s hb).2 a s' h⟩
  simpa only [final, h] using (hx s hb).1

/-- The levels and the register are as before, though perhaps not the SecYs in use. -/
structure Same (rf : PortRegs H) (s s' : Dev MacsecConf H) : Prop where
  tables : levels s'.conf = levels s.conf
  register : level rf s'.hw = level rf s.hw

theorem Same.right (h : Same rf s s') (hr : Right rf s) : Right rf s' := by
  rw [Right, h.register, glbValidate_congr h.tables]
  exact hr

theorem same_of_levelFree (h : (levelFree rf).rel s s') : Same rf s s' := ⟨h.1.levels, h.2⟩

theorem Same.trans {t : Dev MacsecConf H} (h : Same rf s t) (h' : Same rf t s') : Same rf s s' :=
  ⟨h'.tables.trans h.tables, h'.register.trans h.register⟩

/-- A new SecY has no receive channels. -/
theorem same_secyConfAdd {port : MacsecPort} {conf : SecyConf} (hinv : Inv s.conf) :
    Steps bounding (fun t => t = s) (secyConfAddPriv port conf : Call H Unit) fun _ t => Same rf s t := by
  refine Steps.failIf_bind fun _ => Steps.bind (Q := fun i t => t = s ∧ portVacancy s.conf port = .ok i) ?_ fun i =>
    Steps.imp fun hv => ?_
  · rintro t rfl
    refine Steps.failIf_bind (P := fun t' => t' = t) (b := t.conf.glb.initEnable = false) (fun _ => ?_) t rfl
    cases hv : portVacancy t.conf port with
    | ok i => exact Steps.pure fun _ ht => ⟨ht, rfl⟩
    | error e => exact Steps.throw
  · have hbare := (hinv.not_inUse (portVacancy_ok hv).2).2.2
    rintro t rfl
    refine Steps.failIf_bind (P := fun t' => t' = t) (b := checkResources t.conf false 0 = false) (fun _ => ?_) t rfl
    refine Steps.failIf_bind fun _ => Steps.bind (Q := fun _ t' => Same rf t t') (Steps.modify ?_) fun _ => ?_
    · rintro t' rfl
      exact ⟨fun hb => hb.openSecy, levels_openSecy hbare, rfl⟩
    · exact Steps.failIf.post fun _ _ h => h.1

/-- What the loop over the receive channels has done before round `k`: it has found no channel and changed nothing, or it
has deleted one and left a right register. -/
def Looped (rf : PortRegs H) (i : Nat) (s₀ : Dev MacsecConf H) (k : Nat) (s : Dev MacsecConf H) : Prop :=
  Bounded s.conf ∧ ((s = s₀ ∧ ∀ sc < k, (s₀.conf.secy i).rxSc sc = none) ∨
    (Right rf s ∧ ∃ sc, ((s₀.conf.secy i).rxSc sc).isSome = true))

theorem looped_rxScsDel (hb : Bounded s.conf) :
    Steps bounding (fun t => t = s) (rxScsDel rf.toBus i) fun _ => Looped rf i s maxRxSc := by
  refine (Steps.forUpTo (I := Looped rf i s) maxRxSc fun k _ => ?_).pre ?_
  · rintro t ⟨hbt, ht⟩
    refine Steps.when (P := fun t' => t' = t) (x := rxScDel rf.toBus i (t.conf.rxScAt i k).sci) (fun hsome => ?_)
      (fun t' hnone ht' => ?_) t rfl
    · refine right_rxScDel.weaken (fun t' ht' => ht' ▸ hbt) fun _ t' h => ⟨h.1, Or.inr ⟨h.2, ?_⟩⟩
      rcases ht with ⟨rfl, -⟩ | ⟨-, hex⟩
      · exact ⟨k, hsome⟩
      · exact hex
    · subst ht'
      refine ⟨hbt, ht.imp_left fun h => ⟨h.1, fun sc hsc => ?_⟩⟩
      rcases Nat.lt_succ_iff_lt_or_eq.mp hsc with hsc | rfl
      · exact h.2 sc hsc
      · rw [← h.1]
        simpa using hnone
  · rintro t rfl
    exact ⟨hb, Or.inl ⟨rfl, fun _ hsc => absurd hsc (Nat.not_lt_zero _)⟩⟩

/-- Deleting a SecY: when it has a receive channel, the register is right, and otherwise nothing has changed. -/
theorem secyConfDel_right (hinv : Inv s.conf) (hb : Bounded s.conf) (hi : i < maxSecy)
    (h : secyConfDel rf.toBus i s = .ok () s') :
    ((∃ sc, ((s.conf.secy i).rxSc sc).isSome = true) → Right rf s') ∧
      ((∀ sc, (s.conf.secy i).rxSc sc = none) → Same rf s s') := by
  obtain ⟨_, _, hc, h⟩ := (bind_ok_iff ..).mp h
  cases hc
  obtain ⟨_, s₁, h₁, h⟩ := (bind_ok_iff ..).mp h
  obtain ⟨_, s₂, h₂, h⟩ := (bind_ok_iff ..).mp h
  obtain ⟨_, s₃, h₃, h₄⟩ := (bind_ok_iff ..).mp h
  cases h₄
  have htx : LevelFree rf (when ((s.conf.secy i).txSc.inUse = true) (txScDel rf.toBus i)) :=
    Keeps.when fun _ => levelFree_txScDel hi
  obtain ⟨hrel₁, hb₁⟩ := htx.ok hb h₁
  have hkinds : ∀ k, k ∈ wholeScope.kinds := fun _ => trivial
  have hinv₁ : Inv s₁.conf := by
    have hdel : Steps (trace rf.toBus wholeScope i) (fun t => t.conf = s.conf)
        (when ((s.conf.secy i).txSc.inUse = true) (txScDel rf.toBus i)) fun _ t => Inv t.conf :=
      Steps.when (fun _ => (steps_txScDel (fun _ _ => id) (disablesTxSa_trace (hkinds _)) hinv hinv.fits_wholeScope
        (hkinds _) (hkinds _)).post fun _ _ h => h.1) fun _ _ hs => hs ▸ hinv
    exact hdel.ok rfl h₁
  -- after the loop over the channels none is left
  have hgone : RxScsDeleted wholeScope i s₁.conf maxRxSc s₂.conf := by
    refine (steps_rxScsDel (hkinds _)).ok ?_ h₂
    exact ⟨hinv₁, hinv₁.fits_wholeScope, ⟨_, rfl⟩, fun _ hsc => absurd hsc (Nat.not_lt_zero _)⟩
  obtain ⟨hb₂, hlooped⟩ := (looped_rxScsDel hb₁).ok rfl h₂
  obtain ⟨hrel₃, -⟩ := levelFree_patternsDel.ok hb₂ h₃
  have hend : Same rf s₂ ⟨clearSecy i s₃.conf, s₃.hw⟩ := by
    have hbare : ∀ sc, (s₃.conf.secy i).rxSc sc = none := fun sc => by rw [(hrel₃.1.secy i).2]; exact hgone.all sc
    exact (same_of_levelFree hrel₃).trans ⟨levels_clearSecy hbare, rfl⟩
  have hptr : (s₁.conf.secy i).rxSc = (s.conf.secy i).rxSc := (hrel₁.1.secy i).2
  rw [← hptr]
  constructor
  · rintro ⟨sc, hsc⟩
    refine hend.right (hlooped.resolve_left fun h => ?_).1
    obtain ⟨p, hp⟩ := Option.isSome_iff_exists.mp hsc
    rw [h.2 sc (hinv₁.sc_place hp)] at hp
    cases hp
  · intro hnone
    rcases hlooped with ⟨rfl, -⟩ | ⟨-, sc, hsc⟩
    · exact (same_of_levelFree hrel₁).trans hend
    · rw [hnone] at hsc
      cases hsc

theorem keeps_secyConfDel (hi : i < maxSecy) : Keeps bounding (secyConfDel rf.toBus i) := by
  refine keeps_getConf_bind fun c _ => (Keeps.when fun _ => (levelFree_txScDel hi).keeps).bind fun _ => ?_
  refine Steps.bind (Keeps.forUpTo fun sc _ => keeps_getConf_bind fun c _ => Keeps.when fun _ => ?_) fun _ => ?_
  · exact right_rxScDel.post fun _ _ h => h.1
  · refine levelFree_patternsDel.keeps.bind fun _ => ?_
    exact Steps.modify fun s hs => ⟨fun hb => hb.clearSecy, hs.clearSecy⟩

end Secys

/-! ## Exported calls -/

/-- The call programs the register: it sets a receive SA, or deletes a receive channel. -/
def Op.programsLevel (c : MacsecConf) (port : MacsecPort) : Op → Prop
  | .rxSaSet .. | .rxScDel _ => True
  | .secyConfDel => ∃ i sc, portFind c port = some i ∧ ((c.secy i).rxSc sc).isSome = true
  | _ => False

/-- The call stores levels of receive channels. -/
def Op.storesLevel : Op → Bool
  | .rxScAdd _ | .rxScUpdate .. | .secyConfUpdate _ => true
  | _ => false

/-- The call adds or deletes a SecY or a receive channel, stores levels, or sets a receive SA. -/
def Op.concernsLevel : Op → Bool
  | .secyConfAdd _ | .secyConfUpdate _ | .secyConfDel | .rxScAdd _ | .rxScUpdate .. | .rxScDel _ | .rxSaSet .. => true
  | _ => false

section Call

variable {op : Op} {port : MacsecPort} {s s' : Dev MacsecConf H}

theorem levelFree_call (hop : op.concernsLevel = false) : LevelFree rf (op.call rf.toBus port) := by
  cases op with
  | secyConfAdd | secyConfUpdate | secyConfDel | rxScAdd | rxScUpdate | rxScDel | rxSaSet => cases hop
  | secyControlledSet b => exact keeps_portCheck_bind fun _ _ => levelFree_secyControlledSet
  | bypassTagSet tag => exact levelFree_bypassTagSetPriv
  | txScSet =>
    refine keeps_portCheck_bind fun _ _ => keeps_getConf_bind fun _ _ => Steps.failIf_bind fun _ => ?_
    exact levelFree_modifyConf fun _ => quiet_settings rfl rfl rfl
  | txScUpdate conf =>
    refine Steps.failIf_bind fun _ => keeps_portCheck_bind fun i _ => keeps_getConf_bind fun _ _ => ?_
    have hconf : LevelFree rf (modifyConf fun c => updateTxScConf i c conf : Call H PUnit) :=
      levelFree_modifyConf fun _ => quiet_settings rfl rfl rfl
    exact hconf.bind fun _ => Keeps.when fun _ => Steps.throw
  | txScDel => exact keeps_portCheck_bind fun _ hi => levelFree_txScDel hi
  | txSaSet => exact keeps_portCheck_bind fun _ hi => levelFree_txSaSet hi
  | txSaActivate => exact keeps_portCheck_bind fun _ hi => levelFree_txSaActivate hi
  | txSaDisable => exact keeps_portCheck_bind fun _ hi => levelFree_txSaDisable hi
  | txSaDel => exact keeps_portCheck_bind fun _ _ => levelFree_txSaDel
  | rxSaActivate => exact keeps_portCheck_bind fun _ _ => levelFree_rxSaActivate
  | rxSaDisable => exact keeps_portCheck_bind fun _ _ => levelFree_rxSaDisable
  | rxSaDel => exact keeps_portCheck_bind fun _ _ => levelFree_rxSaDel
  | rxSaLowestPnUpdate => exact keeps_portCheck_bind fun _ _ => levelFree_rxSaLowestPnUpdate
  | patternSet => exact levelFree_patternSetPriv
  | patternDel => exact levelFree_patternDelPriv

theorem still_call (hop : op.storesLevel = true) : Keeps (still rf) (op.call rf.toBus port) := by
  cases op with
  | secyConfUpdate conf =>
    exact Steps.failIf_bind fun _ => keeps_portCheck_bind fun _ hi => still_secyConfUpdate hi
  | rxScAdd sci => exact keeps_portCheck_bind fun _ _ => still_rxScAdd
  | rxScUpdate sci conf => exact Steps.failIf_bind fun _ => keeps_portCheck_bind fun _ _ => still_rxScUpdatePriv
  | _ => cases hop

/-- Whatever becomes of a call, the tables name entries of the device. -/
theorem bounded_call (hinv : Inv s.conf) (hb : Bounded s.conf) : Bounded (final (op.call rf.toBus port) s).conf := by
  cases hop : op.concernsLevel with
  | false =>
    have hfree : LevelFree rf (op.call rf.toBus port) := levelFree_call hop
    exact (hfree s hb).1.1.bounded hb
  | true =>
    cases op with
    | secyConfAdd conf =>
      have hadd : Steps bounding (fun t => t = s) ((Op.secyConfAdd conf).call rf.toBus port) fun _ t => Same rf s t :=
        same_secyConfAdd hinv
      exact (hadd s rfl).1 hb
    | secyConfUpdate | rxScAdd | rxScUpdate => exact (still_call rfl s hb).1.1 hb
    | secyConfDel =>
      have hdel : Keeps bounding ((Op.secyConfDel).call rf.toBus port) := keeps_portCheck_bind fun _ => keeps_secyConfDel
      exact (hdel s hb).1 hb
    | rxScDel sci =>
      have hdel : Steps bounding (fun s => Bounded s.conf) ((Op.rxScDel sci).call rf.toBus port)
          fun _ s => Bounded s.conf ∧ Right rf s := keeps_portCheck_bind fun _ _ => right_rxScDel
      exact (hdel s hb).1 hb
    | rxSaSet sci an lowestPn sak ssci =>
      have hset : Steps bounding (fun s => Bounded s.conf) ((Op.rxSaSet sci an lowestPn sak ssci).call rf.toBus port)
          fun _ s => Bounded s.conf ∧ Right rf s := keeps_portCheck_bind fun _ => right_rxSaSet
      exact (hset s hb).1 hb
    | _ => cases hop

theorem reachable_bounded (hs : Reachable rf.toBus s) : Bounded s.conf := by
  obtain ⟨glb, h₀, hrun⟩ := hs
  induction hrun with
  | refl => exact bounded_init glb
  | tail hrun hst ih =>
    cases hst with
    | call port op => exact bounded_call (reachable_inv ⟨glb, h₀, hrun⟩) ih
    | drift _ _ => exact ih

/-- **The tables of every reachable state.** -/
theorem tables_invariant (hs : Reachable rf.toBus s) : Inv s.conf ∧ Bounded s.conf :=
  ⟨reachable_inv hs, reachable_bounded hs⟩

theorem tables_invariant_bench : Inv (calls bench.toBus [(benchPort 1, .secyConfAdd benchSecy)] benchInit).conf ∧
    Bounded (calls bench.toBus [(benchPort 1, .secyConfAdd benchSecy)] benchInit).conf :=
  tables_invariant (reachable_bench _)

/-- A call that looks up the SecY of its port and returns. -/
theorem portCheck_bind_ok {α : Type} {f : Nat → Call H α} {a : α} (h : (portCheck port >>= f) s = .ok a s') :
    ∃ i, portFind s.conf port = some i ∧ f i s = .ok a s' := by
  obtain ⟨i, t, hi, hf⟩ := (bind_ok_iff ..).mp h
  have hlookup : Ends (fun t => t = s) (portCheck port) (fun i t => t = s ∧ portFind s.conf port = some i)
      fun t => t = s := ends_portCheck fun _ ht => by rw [ht]
  rcases hlookup s rfl with ⟨j, u, hj, rfl, hp⟩ | ⟨e, u, he, -⟩
  · cases hi.symm.trans hj
    exact ⟨i, hp, hf⟩
  · cases hi.symm.trans he

theorem Right.isLeast (h : Right rf s) : IsLeast (levels s.conf) (level rf s.hw) := by
  rw [show level rf s.hw = glbValidate s.conf from h]
  exact isLeast_glbValidate s.conf

/-- **The global validation level.** From every reachable state, after a call that returns: when it has set a receive SA
or deleted a receive channel, the register holds the least strict level of the channels in use. Every other call leaves
the register as it was, and the levels too unless it stores some. -/
theorem glb_validate_after_call (hs : Reachable rf.toBus s) (h : op.call rf.toBus port s = .ok () s') :
    (op.programsLevel s.conf port → IsLeast (levels s'.conf) (level rf s'.hw)) ∧
      (¬op.programsLevel s.conf port →
        level rf s'.hw = level rf s.hw ∧ (op.storesLevel = false → levels s'.conf = levels s.conf)) := by
  have hinv := reachable_inv hs
  have hb := reachable_bounded hs
  cases hop : op.concernsLevel with
  | false =>
    have hsame := same_of_levelFree ((levelFree_call hop).ok hb h).1
    refine ⟨fun hp => ?_, fun _ => ⟨hsame.register, fun _ => hsame.tables⟩⟩
    cases op with
    | secyConfDel | rxScDel | rxSaSet => cases hop
    | _ => exact hp.elim
  | true =>
    cases op with
    | secyConfAdd conf =>
      have hsame : Same rf s s' := (same_secyConfAdd hinv).ok rfl h
      exact ⟨fun hp => hp.elim, fun _ => ⟨hsame.register, fun _ => hsame.tables⟩⟩
    | secyConfUpdate | rxScAdd | rxScUpdate =>
      exact ⟨fun hp => hp.elim, fun _ => ⟨((still_call rfl).ok hb h).1.2, fun hno => by cases hno⟩⟩
    | secyConfDel =>
      obtain ⟨i, hi, hdel⟩ := portCheck_bind_ok h
      obtain ⟨hsome, hnone⟩ := secyConfDel_right hinv hb (portFind_spec hi).1 hdel
      constructor
      · rintro ⟨j, sc, hj, hsc⟩
        cases hi.symm.trans hj
        exact (hsome ⟨sc, hsc⟩).isLeast
      · intro hno
        have hsame := hnone fun sc => by simpa using fun hsc => hno ⟨i, sc, hi, hsc⟩
        exact ⟨hsame.register, fun _ => hsame.tables⟩
    | rxScDel sci =>
      obtain ⟨i, hi, hdel⟩ := portCheck_bind_ok h
      exact ⟨fun _ => (right_rxScDel.ok hb hdel).2.isLeast, fun hno => absurd trivial hno⟩
    | rxSaSet sci an lowestPn sak ssci =>
      obtain ⟨i, hi, hset⟩ := portCheck_bind_ok h
      exact ⟨fun _ => ((right_rxSaSet (portFind_spec hi).1).ok hb hset).2.isLeast, fun hno => absurd trivial hno⟩
    | _ => cases hop

end Call

/-- A channel that is strict, after the register has been programmed, and then is to be checked only. -/
def staleLevel : List (MacsecPort × Op) :=
  [(benchPort 1, .secyConfAdd { benchSecy with validateFrames := validateFramesStrict }),
    (benchPort 1, .rxScAdd (benchSci 1)), (benchPort 1, .rxScAdd (benchSci 2)), (benchPort 1, .rxScDel (benchSci 2)),
    (benchPort 1, .rxScUpdate (benchSci 1) { validateFrames := validateFramesCheck })]

/-- The state after the next SA has been set. -/
def programmedLevel : Dev MacsecConf (IoReg → BitVec 32) :=
  final ((Op.rxSaSet (benchSci 1) 0 1 {} none).call bench.toBus (benchPort 1)) (calls bench.toBus staleLevel benchInit)

theorem glb_validate_after_rxSaSet : IsLeast (levels programmedLevel.conf) (level bench programmedLevel.hw) := by
  have hok : errorOf ((Op.rxSaSet (benchSci 1) 0 1 {} none).call bench.toBus (benchPort 1))
      (calls bench.toBus staleLevel benchInit) = none := by decide +kernel
  exact (glb_validate_after_call (reachable_bench staleLevel) (ok_final hok)).1 trivial

/-- The update of the channel returns, and leaves the register at the stricter level. -/
theorem not_glb_validate_after_call : ¬∀ (s s' : Dev MacsecConf (IoReg → BitVec 32)) (port : MacsecPort) (op : Op),
    Reachable bench.toBus s → op.call bench.toBus port s = .ok () s' →
      IsLeast (levels s'.conf) (level bench s'.hw) := by
  intro h
  have hok : errorOf ((Op.rxScUpdate (benchSci 1) { validateFrames := validateFramesCheck }).call bench.toBus (benchPort 1))
      (calls bench.toBus (staleLevel.take 4) benchInit) = none := by decide +kernel
  have hleast := h _ _ _ _ (reachable_bench (staleLevel.take 4)) (ok_final hok)
  have heq := hleast.unique (isLeast_glbValidate _)
  revert heq
  decide +kernel

end Lan80xx.Macsec
