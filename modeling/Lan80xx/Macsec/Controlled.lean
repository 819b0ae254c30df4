import Lan80xx.Macsec.Switches
import Lan80xx.Macsec.Identity

/-!
# MACsec: the controlled port

The entry of an SA is switched by activating, disabling and deleting it, and by switching the controlled port of its
SecY. `SwAt` follows the switches through a call: `K` collects the entries that have been switched while the tables still
say what they said before.
-/

namespace Lan80xx.Macsec

open Fallible RegBus MacsecConf

variable {H : Type} {bus : PortBus H} {t : MatchTable bus} {h₀ : H} {c c' : MacsecConf} {i j an sc p r q : Nat}
  {d : Direction} {K L M : Set (Direction × Nat)}

/-! ## Accesses and switches -/

/-- What a call does that changes no tables, and no switches but those in `K`. -/
def switchFrame (t : MatchTable bus) (K : Set (Direction × Nat)) : Frame (Dev MacsecConf H) where
  rel s s' := s'.conf = s.conf ∧ Accessed bus s.hw s'.hw ∧ ∀ d q, q < maxSa → (d, q) ∉ K → t.on s'.hw d q = t.on s.hw d q
  refl _ := ⟨rfl, .refl, fun _ _ _ _ => rfl⟩
  trans h₁ h₂ := ⟨h₂.1.trans h₁.1, h₁.2.1.trans h₂.2.1, fun d q hq hK => (h₂.2.2 d q hq hK).trans (h₁.2.2 d q hq hK)⟩

/-- The registers around the command registers switch nothing. -/
theorem switchFrame_quiet (s s' : Dev MacsecConf H) (h : (hwFrame bus quietBits).rel s s') : (switchFrame t K).rel s s' :=
  ⟨h.1, h.2.accessed, fun _ _ hq _ => t.quiet h.2 hq⟩

theorem within_quiet {α : Type} {x : Call H α} (hx : Within (hwFrame bus quietBits) x) : Within (switchFrame t K) x :=
  hx.mono switchFrame_quiet

theorem not_mem_enableBits (hr : r < maxSa) (hq : q < maxSa) {d' : Direction} (hne : (d', q) ≠ (d, r)) :
    (entrySetReg d' q, q % 32) ∉ enableBits d r ∧ (entryClearReg d' q, q % 32) ∉ enableBits d r := by
  have hr : r < 128 := hr
  have hq : q < 128 := hq
  have hsame : d' = d → q % 32 = r % 32 → q / 32 = r / 32 → False := fun hd hm hdiv =>
    hne (by rw [hd, show q = r by omega])
  have hset : ∀ d r, (entrySetReg d r).addr = (0x1820 + r / 32) % 2 ^ 16 := fun _ _ => rfl
  have hclear : ∀ d r, (entryClearReg d r).addr =
      (if r < 32 then 0x1830 else if r < 64 then 0x1831 else if r < 96 then 0x1832 else 0x1833) % 2 ^ 16 := fun _ _ => rfl
  have hdir : ∀ {d₁ d₂ : Direction} {a b : Nat}, ioreg d₁ a = ioreg d₂ b → d₁ = d₂ := fun {d₁ d₂ a b} he => by
    cases d₁ <;> cases d₂ <;> first | rfl | cases congrArg IoReg.mmd he
  constructor
  · rintro (⟨he, hm⟩ | ⟨he, hm⟩)
    · have ha := congrArg IoReg.addr he
      rw [hset, hset] at ha
      exact hsame (hdir he) (entryBit_getLsbD hr hm) (by omega)
    · have ha := congrArg IoReg.addr he
      rw [hset, hclear] at ha
      split_ifs at ha <;> omega
  · rintro (⟨he, hm⟩ | ⟨he, hm⟩)
    · have ha := congrArg IoReg.addr he
      rw [hset, hclear] at ha
      split_ifs at ha <;> omega
    · have ha := congrArg IoReg.addr he
      rw [hclear, hclear] at ha
      refine hsame (hdir he) (entryBit_getLsbD hr hm) ?_
      split_ifs at ha <;> omega

theorem within_saEnable_switch (hr : r < maxSa) {b : Bool} : Within (switchFrame t {(d, r)}) (saEnable bus r d b) := by
  have hw : Within (hwFrame bus (enableBits d r)) (saEnable bus r d b) := within_saEnable subset_rfl
  refine hw.mono fun s s' h => ⟨h.1, h.2.accessed, fun d' q hq hK => ?_⟩
  obtain ⟨hset, hclear⟩ := not_mem_enableBits hr hq hK
  refine t.frame h.2 hq hset hclear fun b _ => ?_
  have ha : (samEntryEnableCtrlReg d').addr = 0x1840 := rfl
  rintro (⟨he, -⟩ | ⟨he, -⟩)
  · have haddr := congrArg IoReg.addr he
    have hr : r < 128 := hr
    simp only [ha, entrySetReg, ioreg] at haddr
    omega
  · have haddr := congrArg IoReg.addr he
    simp only [ha, entryClearReg, ioreg] at haddr
    split_ifs at haddr <;> omega

theorem clearWord : ∀ r < maxSa, (field ((field (word r) 16 7 ||| bit 30) >>> 16) 0 7).toNat = r ∧
    (field (word r) 16 7 ||| bit 30).getLsbD 14 = false := by
  decide

theorem within_samEntryCtrl_switch (hr : r < maxSa) : Within (switchFrame t {(d, r)}) (samEntryCtrl bus r d false) := by
  obtain ⟨hfield, hbit⟩ := clearWord r hr
  intro s
  have hfinal : final (samEntryCtrl bus r d false) s =
      { s with hw := (bus.wr (samEntryEnableCtrlReg d) (field (word r) 16 7 ||| bit 30) s.hw).2 } := final_write _ _ _ _ _
  rw [hfinal]
  refine ⟨rfl, .wr _ _ _ .refl, fun d' q hq hK => t.on_wr_same hq fun b hb => ?_⟩
  have haddr : (samEntryEnableCtrlReg d).addr = 0x1840 := rfl
  have hq : q < 128 := hq
  have hset : samEntryEnableCtrlReg d ≠ entrySetReg d' q := fun he => by
    have ha := congrArg IoReg.addr he
    rw [haddr] at ha
    simp only [entrySetReg, ioreg] at ha
    omega
  have hclear : samEntryEnableCtrlReg d ≠ entryClearReg d' q := fun he => by
    have ha := congrArg IoReg.addr he
    rw [haddr] at ha
    simp only [entryClearReg, ioreg] at ha
    split_ifs at ha <;> omega
  have hdir : samEntryEnableCtrlReg d = samEntryEnableCtrlReg d' → d' = d := fun he => by
    cases d <;> cases d' <;> first | rfl | cases congrArg IoReg.mmd he
  have hrq : samEntryEnableCtrlReg d = samEntryEnableCtrlReg d' → r = q → False := fun he hrq =>
    hK (by rw [hdir he, hrq]; rfl)
  simp only [entryCommand, hset, hclear, false_and, if_false, hfield, hbit, Bool.false_eq_true, and_false] at hb
  split at hb
  · next hcmd => exact (hrq hcmd.1 hcmd.2.2).elim
  · cases hb

theorem within_saTcamKeyMaskReset_switch (hr : r < maxSa) :
    Within (switchFrame t {(d, r)}) (saTcamKeyMaskReset bus d r) := by
  refine (within_samEntryCtrl_switch hr).bind fun _ => Within.forUpTo _ fun k _ => within_quiet (within_csrWr ?_)
  exact fun p hp => tcamBits_quiet (g := {}) hr ⟨_, Or.inl hp⟩

/-- On a device that fails no access, an entry is on after it has been enabled, and off after it has been disabled. -/
theorem ends_saEnable_on (hs : bus.Sound h₀) (hr : r < maxSa) (b : Bool) : Ends (At bus h₀ c) (saEnable bus r d b)
    (fun _ s => At bus h₀ c s ∧ t.on s.hw d r = b) fun _ => False := by
  have hr' : r < 128 := hr
  have hbit : (entryBit r).getLsbD (r % 32) = true := by
    unfold entryBit bit
    split_ifs <;> simp <;> omega
  have hmerge : ∀ old, (merge old (entryBit r) (entryBit r)).getLsbD (r % 32) = true := fun old => by
    simp [merge, hbit]
  have hne : entryClearReg d r ≠ entrySetReg d r := fun he => by
    have ha := congrArg IoReg.addr he
    simp only [entrySetReg, entryClearReg, ioreg] at ha
    split_ifs at ha <;> omega
  have hwrm (r' : IoReg) (hcmd : ∀ old, entryCommand r' (merge old (entryBit r) (entryBit r)) d r = some b) :
      Ends (At bus h₀ c) (csrWrm bus r' (entryBit r) (entryBit r)) (fun _ s => At bus h₀ c s ∧ t.on s.hw d r = b)
        fun _ => False := by
    refine (serves_csrRd hs r').bind fun old s hat => ?_
    have hwr := (hs _ hat.accessed).2 r' (merge old (entryBit r) (entryBit r))
    refine Or.inl ⟨(), _, write_eq_ok bus Rc.access hwr, ⟨hat.conf, .wr _ _ _ hat.accessed⟩, ?_⟩
    rw [t.on_wr_ok _ _ _ d r hwr hr, hcmd old]
    rfl
  cases b with
  | true =>
    rw [saEnable, if_pos rfl, if_pos hr']
    exact hwrm _ fun old => if_pos ⟨rfl, hmerge old⟩
  | false =>
    rw [saEnable, if_neg Bool.false_ne_true]
    refine hwrm _ fun old => ?_
    rw [entryCommand, if_neg fun h => hne h.1, if_pos ⟨rfl, hmerge old⟩]

/-! ## The switches during a call -/

/-- The tables are `c`, the device has been accessed since `h₀`, and the switches outside `K` follow the tables. -/
structure SwAt (t : MatchTable bus) (h₀ : H) (c : MacsecConf) (K : Set (Direction × Nat)) (s : Dev MacsecConf H) : Prop
    extends At bus h₀ c s where
  agree : Agree t c K s.hw

/-- The device has been accessed since `h₀`, and the switches follow the tables. -/
structure Follows (t : MatchTable bus) (h₀ : H) (s : Dev MacsecConf H) : Prop where
  accessed : Accessed bus h₀ s.hw
  agree : Agree t s.conf ∅ s.hw

theorem SwAt.follows {s : Dev MacsecConf H} (h : SwAt t h₀ c ∅ s) : Follows t h₀ s :=
  ⟨h.accessed, h.conf ▸ h.agree⟩

/-- The call ends with the switches as the tables say, however it ends. -/
def Settles (t : MatchTable bus) (h₀ : H) (c : MacsecConf) (K : Set (Direction × Nat)) {α : Type} (x : Call H α) : Prop :=
  Ends (SwAt t h₀ c K) x (fun _ => Follows t h₀) (Follows t h₀)

theorem Agree.of_switchFrame {s s' : Dev MacsecConf H} (ha : Agree t c K s.hw)
    (hf : (switchFrame t L).rel s s') (hM : K ∪ L ⊆ M) : Agree t c M s'.hw := by
  intro j d r hlt hr hm
  rw [hf.2.2 d r hlt fun hL => hm (hM (Or.inr hL))]
  exact ha j d r hlt hr fun hK => hm (hM (Or.inl hK))

theorem Calms.not_armed (hc : Calms c c' {(d, r)} ∅) (j : Nat) : ¬Armed c' j d r := fun ha =>
  (hc j d r ha id).2.1 rfl

/-- An entry that belongs to no enabled SA may be switched as it likes. -/
theorem SwAt.settle {s : Dev MacsecConf H} (h : SwAt t h₀ c {(d, r)} s) (hr : ∀ j, ¬Armed c j d r) : SwAt t h₀ c ∅ s where
  toAt := h.toAt
  agree := h.agree.calms (Calms.settle (fun _ _ _ ha hK => ⟨ha, hK, rfl⟩) hr)

section Rules

variable {α : Type} {x : Call H α} {R : α → Dev MacsecConf H → Prop} {E : Dev MacsecConf H → Prop}

/-- A call that may switch the entries in `L`. -/
theorem ends_switch (hx : Within (switchFrame t L) x) (hM : K ∪ L ⊆ M) :
    Ends (SwAt t h₀ c K) x (fun _ => SwAt t h₀ c M) (SwAt t h₀ c M) :=
  hx.ends fun _ _ hs hf => ⟨⟨hf.1.trans hs.conf, hs.accessed.trans hf.2.1⟩, hs.agree.of_switchFrame hf hM⟩

theorem ends_quiet (hx : Steps (hwFrame bus quietBits) (fun s => s.conf = c) x fun _ _ => True) :
    Ends (SwAt t h₀ c K) x (fun _ => SwAt t h₀ c K) (SwAt t h₀ c K) := by
  have hpost : ∀ s, SwAt t h₀ c K s → SwAt t h₀ c K (final x s) := fun s hs => by
    have hf : (switchFrame t ∅).rel s (final x s) := switchFrame_quiet s _ (hx s hs.conf).1
    exact ⟨⟨hf.1.trans hs.conf, hs.accessed.trans hf.2.1⟩, hs.agree.of_switchFrame hf (Set.union_empty K).subset⟩
  intro s hs
  have hend := hpost s hs
  cases hxs : x s with
  | ok a s' => exact Or.inl ⟨a, s', rfl, by simpa [final, hxs] using hend⟩
  | error e s' => exact Or.inr ⟨e, s', rfl, by simpa [final, hxs] using hend⟩

theorem ends_within {W : Set (IoReg × Nat)} (hx : Within (hwFrame bus W) x) (hW : W ⊆ quietBits) :
    Ends (SwAt t h₀ c K) x (fun _ => SwAt t h₀ c K) (SwAt t h₀ c K) :=
  ends_quiet ((within_iff.mp (hx.mono (hwFrame_mono bus hW))).pre fun _ _ => trivial)

/-- A call that a sound device does not fail. -/
theorem Serves.switch {x : Call H Unit} (hx : Serves bus h₀ c x) (hw : Within (switchFrame t L) x)
    (hM : K ∪ L ⊆ M) : Ends (SwAt t h₀ c K) x (fun _ => SwAt t h₀ c M) fun _ => False := by
  have hf : Ends (fun s => At bus h₀ c s ∧ Agree t c K s.hw) x (fun _ s => At bus h₀ c s ∧ Agree t c M s.hw)
      fun s => False ∧ Agree t c M s.hw := hx.framed hw fun s s' hs hrel => hs.of_switchFrame hrel hM
  exact (hf.pre fun s hs => ⟨hs.toAt, hs.agree⟩).weaken (fun _ s hs => ⟨hs.1, hs.2⟩) fun s hs => hs.1

theorem Serves.quiet {x : Call H Unit} (hx : Serves bus h₀ c x) {W : Set (IoReg × Nat)}
    (hw : Within (hwFrame bus W) x) (hW : W ⊆ quietBits) :
    Ends (SwAt t h₀ c K) x (fun _ => SwAt t h₀ c K) fun _ => False :=
  hx.switch (within_quiet (hw.mono (hwFrame_mono bus hW))) (Set.union_empty K).subset

theorem ends_modifyConf_sw {g : MacsecConf → MacsecConf} (hc : Calms c (g c) K L) :
    Ends (SwAt t h₀ c K) (modifyConf g : Call H PUnit) (fun _ => SwAt t h₀ (g c) L) E :=
  Ends.modify fun _ hs => ⟨⟨congrArg g hs.conf, hs.accessed⟩, hs.agree.calms hc⟩

end Rules

/-! ## Updates that disable SAs -/

theorem calms_disableTxSa (hr : (c.secy i).txSc.sa an = some r) : Calms c (disableTxSa i c an) {(.egress, r)} ∅ := by
  refine Calms.settle (.of_parts (fun j => ?_) (fun j an' r' ho => ((disableTxSa_on hr j an' r').mp ho).1) ?_) ?_
  · rw [disableTxSa_secy]
    split
    · next hj => rw [hj]
    · rfl
  · refine RxOn.of_rxSc (fun j => ?_) disableTxSa_rx.1 fun r' => by rw [disableTxSa_rx.2]; exact id
    rw [disableTxSa_secy]
    split
    · next hj => rw [hj]
    · rfl
  · rintro j ⟨an', ho⟩
    exact ((disableTxSa_on hr j an' r).mp ho).2 rfl

theorem calms_freeTxSa : Calms c (freeTxSa i c an r) {(.egress, r)} ∅ := by
  have hon : ∀ j an' r', TxOn (freeTxSa i c an r) j an' r' → TxOn c j an' r' ∧ r' ≠ r := by
    rintro j an' r' ⟨hs, he⟩
    rw [freeTxSa_sa] at hs
    rw [freeTxSa_txSa] at he
    split at he
    · cases he
    · next hne =>
      split at hs
      · cases hs
      · exact ⟨⟨hs, he⟩, hne⟩
  refine Calms.settle (.of_parts (fun j => setSecy_part Secy.controlledPortEnabled rfl j) (fun j an' r' ho => ?_) ?_) ?_
  · exact (hon j an' r' ho).1
  · exact RxOn.of_rxSc (setSecy_part Secy.rxSc rfl) rfl fun _ => id
  · rintro j ⟨an', ho⟩
    exact (hon j an' r ho).2 rfl

theorem calms_flagRxSa (hp : (c.secy i).rxSc sc = some p) (hr : (c.rxSc p).sa an = some r) :
    Calms c (flagRxSa i c sc an false) {(.ingress, r)} ∅ := by
  have hen : ∀ r', ((flagRxSa i c sc an false).rxSa r').enabled = true → (c.rxSa r').enabled = true ∧ r' ≠ r := by
    intro r' he
    rw [flagRxSa_enabled hp, hr] at he
    split at he
    · cases he
    · next hne => exact ⟨he, fun h => hne (by rw [h])⟩
  refine Calms.settle (.of_parts (fun j => by rw [flagRxSa_secy]) (fun j an' r' ho => ?_) ?_) ?_
  · rw [TxOn, flagRxSa_secy] at ho
    refine ⟨ho.1, ?_⟩
    have htx : (flagRxSa i c sc an false).txSa = c.txSa := by
      unfold flagRxSa setRxSaAt
      split <;> rfl
    rw [← htx]
    exact ho.2
  · exact RxOn.of_rxSc (fun j => by rw [flagRxSa_secy]) flagRxSa_rxSc fun r' he => (hen r' he).1
  · rintro j ⟨sc', p', an', -, -, he⟩
    exact (hen r he).2 rfl

theorem calms_freeRxSa (hp : (c.secy i).rxSc sc = some p) : Calms c (freeRxSa i c sc an r) {(.ingress, r)} ∅ := by
  have hen : ∀ r', ((freeRxSa i c sc an r).rxSa r').enabled = true → (c.rxSa r').enabled = true ∧ r' ≠ r := by
    intro r' he
    rw [freeRxSa_rxSa] at he
    split at he
    · cases he
    · next hne => exact ⟨he, hne⟩
  have htx : (freeRxSa i c sc an r).txSa = c.txSa := by
    unfold freeRxSa setRxScAt
    split <;> rfl
  refine Calms.settle (.of_parts (fun j => by rw [freeRxSa_secy]) (fun j an' r' ho => ?_) ?_) ?_
  · rw [TxOn, freeRxSa_secy, htx] at ho
    exact ho
  · refine RxOn.of_same (fun _ _ _ => by rw [freeRxSa_secy]; exact id) (fun q an' r' hs => ?_) fun r' he => (hen r' he).1
    rw [freeRxSa_sa hp] at hs
    split at hs
    · cases hs
    · exact hs
  · rintro j ⟨sc', p', an', -, -, he⟩
    exact (hen r he).2 rfl

/-! ## Switching one SA off -/

theorem settles_txSaDisable (hs : bus.Sound h₀) (h : Inv c) (hi : i < maxSecy) :
    Settles t h₀ c ∅ (txSaDisable bus i an) := by
  refine ends_getConf_bind (fun _ h => h.conf) (Ends.failIf_bind (fun _ hsw _ => hsw.follows) fun _ => ?_)
  refine Ends.failIf_bind (fun _ hsw _ => hsw.follows) fun hsa => ?_
  obtain ⟨r, hr⟩ := Option.ne_none_iff_exists'.mp hsa
  have hlt : r < maxSa := h.tx_lt (h.ownedBy_inUse (txSa_owned hr))
  rw [h.txSa_record hr]
  -- from here on nothing fails
  refine Ends.weaken (E := fun _ => False) ?_ (fun _ _ => id) fun _ => False.elim
  refine ((serves_saEnable hs false).orFail.switch (within_saEnable_switch hlt).orFail (Set.empty_union _).subset).bind
    fun _ => ?_
  refine Ends.bind (Q := fun _ => SwAt t h₀ c {(.egress, r)}) (Ends.when (fun _ => ?_) fun _ _ => id) fun _ => ?_
  · have hinuse : Serves bus h₀ c (saInuse bus r i an .egress false) := serves_csrWr hs _ _
    have hw : Within (hwFrame bus (mapBits .egress i)) (saInuse bus r i an .egress false) := within_saInuse subset_rfl
    refine (hinuse.orFail.quiet hw.orFail (mapBits_quiet hi)).bind fun _ => ?_
    exact (serves_samEntryCtrl hs false).orFail.switch (within_samEntryCtrl_switch hlt).orFail (Set.union_self _).subset
  · exact (ends_modifyConf_sw (calms_disableTxSa hr)).weaken (fun _ _ hsw => hsw.follows) fun _ => id

/-- The entries of a record without an enabled SA are reset. -/
theorem settles_reset (hlt : r < maxSa) (hr : ∀ j, ¬Armed c j d r) {e e' : Rc} :
    Settles t h₀ c ∅ (do
      orFail (saTcamKeyMaskReset bus d r) e
      orFail (saXformReset bus d r) e') := by
  refine Ends.bind (Q := fun _ => SwAt t h₀ c ∅) ?_ fun _ => ?_
  · refine (ends_switch (within_saTcamKeyMaskReset_switch hlt).orFail (Set.empty_union _).subset).weaken
      (fun _ s hsw => hsw.settle hr) fun s hsw => (hsw.settle hr).follows
  · have hx : Within (hwFrame bus (xformBits d r)) (saXformReset bus d r) := within_saXformReset subset_rfl
    exact (ends_within hx.orFail (xformBits_quiet hlt)).weaken (fun _ _ hsw => hsw.follows) fun _ hsw => hsw.follows

theorem ends_ignore {α : Type} {x : Call H α} (hx : Within (hwFrame bus ∅) x) :
    Ends (SwAt t h₀ c K) (discard (attempt x)) (fun _ => SwAt t h₀ c K) fun _ => False :=
  (serves_ignore hx).quiet (hx.attempt.bind fun _ => Within.pure _) (Set.empty_subset _)

theorem settles_txSaDel (hs : bus.Sound h₀) (h : Inv c) : Settles t h₀ c ∅ (txSaDel bus i an) := by
  refine ends_getConf_bind (fun _ h => h.conf) (Ends.failIf_bind (fun _ hsw _ => hsw.follows) fun _ => ?_)
  refine Ends.failIf_bind (fun _ hsw _ => hsw.follows) fun hsa => ?_
  obtain ⟨r, hr⟩ := Option.ne_none_iff_exists'.mp hsa
  have hlt : r < maxSa := h.tx_lt (h.ownedBy_inUse (txSa_owned hr))
  rw [h.txSa_record hr]
  refine Ends.bind (Q := fun _ => SwAt t h₀ c {(.egress, r)}) ?_ fun _ => ?_
  · exact ((serves_saEnable hs false).orFail.switch (within_saEnable_switch hlt).orFail
      (Set.empty_union _).subset).weaken (fun _ _ => id) fun _ => False.elim
  refine ((ends_ignore within_saSamInFlight).weaken (fun _ _ => id) fun _ => False.elim).bind fun _ => ?_
  refine ((ends_ignore within_txSaCountersGet).weaken (fun _ _ => id) fun _ => False.elim).bind fun _ => ?_
  exact (ends_modifyConf_sw calms_freeTxSa).bind fun _ =>
    settles_reset hlt calms_freeTxSa.not_armed

theorem ends_scFromSci_sw {α : Type} {sci : Sci} {f : Nat → Call H α}
    (hf : ∀ sc p, (c.secy i).rxSc sc = some p → (c.rxSc p).inUse = true → Settles t h₀ c ∅ (f sc)) :
    Settles t h₀ c ∅ (scFromSci i sci >>= f) := by
  have hfound : Ends (SwAt t h₀ c ∅) (scFromSci i sci) (fun sc s => SwAt t h₀ c ∅ s ∧ c.scFromSciGet i sci = some sc)
      (Follows t h₀) := by
    refine ends_getConf_bind (fun _ h => h.conf) ?_
    cases hsc : c.scFromSciGet i sci with
    | none => exact Ends.throw fun _ hs => hs.follows
    | some sc => exact Ends.pure fun _ hs => ⟨hs, rfl⟩
  refine hfound.bind fun sc s hs => ?_
  obtain ⟨p, hp, hu, -⟩ := scFromSciGet_spec hs.2
  exact hf sc p hp hu s hs.1

/-- The map entry of a receive SA, on a device that may fail. -/
theorem ends_rxInuse (h : Inv c) (hp : (c.secy i).rxSc sc = some p) {b : Bool} {e : Rc} :
    Ends (SwAt t h₀ c K) (orFail (saInuse bus r (c.rxScAt i sc).hwScIdx an .ingress b) e) (fun _ => SwAt t h₀ c K)
      (SwAt t h₀ c K) := by
  have hx : Within (hwFrame bus (mapBits .ingress (c.rxScAt i sc).hwScIdx))
      (saInuse bus r (c.rxScAt i sc).hwScIdx an .ingress b) := within_saInuse subset_rfl
  refine ends_within hx.orFail (mapBits_quiet ?_)
  rw [rxScAt_eq hp]
  exact h.hw_lt (h.sc.live (s := (i, sc)) hp)

theorem settles_rxSaDisable (hs : bus.Sound h₀) (h : Inv c) {sci : Sci} :
    Settles t h₀ c ∅ (rxSaDisable bus i sci an) := by
  refine Ends.failIf_bind (fun _ hsw _ => hsw.follows) fun han => ends_scFromSci_sw fun sc p hp _ => ?_
  refine ends_getConf_bind (fun _ h => h.conf) (Ends.failIf_bind (fun _ hsw _ => hsw.follows) fun hsa => ?_)
  obtain ⟨r, hr⟩ := Option.ne_none_iff_exists'.mp hsa
  rw [rxScAt_eq hp] at hr
  have hlt : r < maxSa := h.rx_lt (h.ownedBy_inUse (rxSa_owned hp hr))
  rw [h.rxSa_record hp hr]
  refine Ends.weaken (E := fun _ => False) ?_ (fun _ _ => id) fun _ => False.elim
  refine ((serves_saEnable hs false).orFail.switch (within_saEnable_switch hlt).orFail (Set.empty_union _).subset).bind
    fun _ => ?_
  have hinuse : Serves bus h₀ c (saInuse bus r (c.rxScAt i sc).hwScIdx an .ingress false) :=
    serves_saInuse hs false (Nat.not_le.mp han)
  have hw : Within (hwFrame bus (mapBits .ingress (c.rxScAt i sc).hwScIdx))
      (saInuse bus r (c.rxScAt i sc).hwScIdx an .ingress false) := within_saInuse subset_rfl
  have hhw : (c.rxScAt i sc).hwScIdx < maxRxSc := by
    rw [rxScAt_eq hp]
    exact h.hw_lt (h.sc.live (s := (i, sc)) hp)
  refine (hinuse.orFail.quiet hw.orFail (mapBits_quiet hhw)).bind fun _ => ?_
  exact (ends_modifyConf_sw (calms_flagRxSa hp hr)).weaken (fun _ _ hsw => hsw.follows) fun _ => id

theorem settles_rxSaDel (hs : bus.Sound h₀) (h : Inv c) {sci : Sci} : Settles t h₀ c ∅ (rxSaDel bus i sci an) := by
  refine Ends.failIf_bind (fun _ hsw _ => hsw.follows) fun _ => ends_scFromSci_sw fun sc p hp _ => ?_
  refine ends_getConf_bind (fun _ h => h.conf) (Ends.failIf_bind (fun _ hsw _ => hsw.follows) fun hsa => ?_)
  obtain ⟨r, hr⟩ := Option.ne_none_iff_exists'.mp hsa
  rw [rxScAt_eq hp] at hr
  have hlt : r < maxSa := h.rx_lt (h.ownedBy_inUse (rxSa_owned hp hr))
  rw [h.rxSa_record hp hr]
  refine ((ends_rxInuse h hp).weaken (fun _ _ => id) fun _ hsw => hsw.follows).bind fun _ => ?_
  have hdrain : Within (hwFrame bus ∅) (saSamInFlight bus .ingress) := within_saSamInFlight
  refine ((ends_within hdrain.orFail (Set.empty_subset _)).weaken (fun _ _ => id) fun _ hsw => hsw.follows).bind
    fun _ => ?_
  refine Ends.bind (Q := fun _ => SwAt t h₀ c {(.ingress, r)}) ?_ fun _ => ?_
  · exact ((serves_saEnable hs false).orFail.switch (within_saEnable_switch hlt).orFail
      (Set.empty_union _).subset).weaken (fun _ _ => id) fun _ => False.elim
  refine ((ends_ignore within_rxSaCountersGet).weaken (fun _ _ => id) fun _ => False.elim).bind fun _ => ?_
  exact (ends_modifyConf_sw (calms_freeRxSa hp)).bind fun _ =>
    settles_reset hlt (calms_freeRxSa hp).not_armed

/-! ## Switching one SA on -/

/-- An entry that is switched on a sound device. -/
theorem ends_saEnable_sw (hs : bus.Sound h₀) (hlt : r < maxSa) (b : Bool) (hM : K ∪ {(d, r)} ⊆ M) :
    Ends (SwAt t h₀ c K) (saEnable bus r d b) (fun _ s => SwAt t h₀ c M s ∧ t.on s.hw d r = b) fun _ => False := by
  have hf : Ends (fun s => At bus h₀ c s ∧ Agree t c K s.hw) (saEnable bus r d b)
      (fun _ s => (At bus h₀ c s ∧ t.on s.hw d r = b) ∧ Agree t c M s.hw) fun s => False ∧ Agree t c M s.hw :=
    (ends_saEnable_on hs hlt b).framed (within_saEnable_switch hlt) fun s s' hs hrel => hs.of_switchFrame hrel hM
  exact (hf.pre fun s hs => ⟨hs.toAt, hs.agree⟩).weaken (fun _ s hs => ⟨⟨hs.1.1, hs.2⟩, hs.1.2⟩) fun s hs => hs.1

theorem activateTxSa_enabled {old : Nat} {b : Bool} (hr : (c.secy i).txSc.sa an = some r)
    (he : ((activateTxSa i c an old b).txSa q).enabled = true) :
    q = r ∨ ((c.txSa q).enabled = true ∧ ¬(b = true ∧ (c.secy i).txSc.sa old = some q)) := by
  obtain ⟨c₁, hc₁⟩ : ∃ c₁, (if b = true then
      c.setTxSaAt i old fun sa => { sa with enabled := false, statusInUse := false } else c) = c₁ := ⟨_, rfl⟩
  have hsecy : c₁.secy = c.secy := by
    rw [← hc₁]
    split
    · exact setTxSaAt_secy
    · rfl
  have hr₁ : (c₁.secy i).txSc.sa an = some r := by rw [hsecy, hr]
  rw [activateTxSa, hc₁, setSecy_txSa, setTxSaAt_txSa hr₁] at he
  split at he
  · next hq => exact Or.inl hq
  · refine Or.inr ?_
    rw [← hc₁] at he
    cases b with
    | false => exact ⟨he, fun hb => by cases hb.1⟩
    | true =>
      rw [if_pos rfl] at he
      cases hs : (c.secy i).txSc.sa old with
      | none =>
        rw [setTxSaAt, hs] at he
        exact ⟨he, fun hb => by cases hb.2⟩
      | some r₀ =>
        rw [setTxSaAt_txSa hs] at he
        split at he
        · cases he
        · next hne => exact ⟨he, fun hb => hne (Option.some.inj hb.2).symm⟩

/-- What activating switches: the new SA's entry, and the old one's when it was enabled. -/
def activated (c : MacsecConf) (i r old : Nat) (b : Bool) : Set (Direction × Nat) :=
  {x | x = (.egress, r) ∨ (b = true ∧ x.1 = .egress ∧ (c.secy i).txSc.sa old = some x.2)}

theorem Agree.activateTxSa {h : H} {old : Nat} {b : Bool} (hi : Inv c) (hr : (c.secy i).txSc.sa an = some r)
    (ha : Agree t c (activated c i r old b) h) (hon : t.on h .egress r = true)
    (hctl : (c.secy i).controlledPortEnabled = true) : Agree t (MacsecConf.activateTxSa i c an old b) ∅ h := by
  have hpart : ∀ {β : Type} (g : Secy → β), (∀ s tx, g { s with txSc := tx } = g s) →
      ∀ j, g ((MacsecConf.activateTxSa i c an old b).secy j) = g (c.secy j) := fun g hg j => by
    rw [MacsecConf.activateTxSa, setSecy_part g (hg _ _), setTxSaAt_secy]
    cases b with
    | true => rw [if_pos rfl, setTxSaAt_secy]
    | false => rfl
  have hsa : ∀ j, ((MacsecConf.activateTxSa i c an old b).secy j).txSc.sa = (c.secy j).txSc.sa := fun j => by
    rw [MacsecConf.activateTxSa, setSecy_part (fun s => s.txSc.sa) rfl, setTxSaAt_secy]
    cases b with
    | true => rw [if_pos rfl, setTxSaAt_secy]
    | false => rfl
  have hrx : (MacsecConf.activateTxSa i c an old b).rxSa = c.rxSa := by
    rw [MacsecConf.activateTxSa, setSecy_rxSa, setTxSaAt_rx.2]
    cases b with
    | true => rw [if_pos rfl, setTxSaAt_rx.2]
    | false => rfl
  intro j d q hlt harm _
  rw [hpart Secy.controlledPortEnabled fun _ _ => rfl]
  cases d with
  | ingress =>
    have hrxOn : RxOn c j q := by
      refine RxOn.of_rxSc (fun j => hpart Secy.rxSc (fun _ _ => rfl) j) activateTxSa_rxSc.2 (fun r => ?_) j q harm
      rw [hrx]
      exact id
    refine ha j .ingress q hlt hrxOn ?_
    rintro (hx | ⟨-, hx, -⟩) <;> cases hx
  | egress =>
    obtain ⟨an', hs, he⟩ := harm
    rw [hsa] at hs
    rcases activateTxSa_enabled hr he with rfl | ⟨he, hne⟩
    · obtain rfl := hi.ownedBy_unique (txSa_owned hs) (txSa_owned hr)
      rw [hon, hctl]
    · by_cases hq : q = r
      · subst hq
        obtain rfl := hi.ownedBy_unique (txSa_owned hs) (txSa_owned hr)
        rw [hon, hctl]
      · refine ha j .egress q hlt ⟨an', hs, he⟩ ?_
        rintro (hx | ⟨hb, -, hx⟩)
        · exact hq (congrArg Prod.snd hx)
        · exact hne ⟨hb, hx⟩

theorem settles_txSaActivate (hs : bus.Sound h₀) (h : Inv c) (hi : i < maxSecy)
    (hctl : (c.secy i).controlledPortEnabled = true)
    (hold : ¬((c.secy i).txSc.encodingSa = an ∧ (c.txSaAt i an).enabled = true)) :
    Settles t h₀ c ∅ (txSaActivate bus i an) := by
  refine ends_getConf_bind (fun _ h => h.conf) (Ends.failIf_bind (fun _ hsw _ => hsw.follows) fun _ => ?_)
  refine Ends.failIf_bind (fun _ hsw _ => hsw.follows) fun hsa => ?_
  refine Ends.failIf_bind (fun _ hsw _ => hsw.follows) fun _ => ?_
  obtain ⟨r, hr⟩ := Option.ne_none_iff_exists'.mp hsa
  have hlt : ∀ {an r}, (c.secy i).txSc.sa an = some r → r < maxSa := fun hr => h.tx_lt (h.ownedBy_inUse (txSa_owned hr))
  rw [h.txSa_record hr]
  have hinuse : Within (hwFrame bus (mapBits .egress i)) (saInuse bus r i an .egress true) := within_saInuse subset_rfl
  refine ((ends_within hinuse.orFail (mapBits_quiet hi)).weaken (fun _ _ => id) fun _ hsw => hsw.follows).bind
    fun _ => ?_
  have hdrain : Within (hwFrame bus ∅) (saSamInFlight bus .egress) := within_saSamInFlight
  refine ((ends_within hdrain.orFail (Set.empty_subset _)).weaken (fun _ _ => id) fun _ hsw => hsw.follows).bind
    fun _ => ?_
  -- from here on nothing fails
  refine Ends.weaken (E := fun _ => False) ?_ (fun _ _ => id) fun _ => False.elim
  generalize hb : ((c.txSaAt i (c.secy i).txSc.encodingSa).enabled &&
    decide ((c.secy i).txSc.encodingSa < saPerScMax)) = b
  have hsub : ∅ ∪ {(.egress, r)} ⊆ activated c i r (c.secy i).txSc.encodingSa b := by
    rintro x (hx | hx)
    · exact hx.elim
    · exact Or.inl hx
  refine (ends_saEnable_sw hs (hlt hr) true hsub).orFail.bind fun _ => ?_
  refine Ends.bind (Q := fun _ s => SwAt t h₀ c (activated c i r (c.secy i).txSc.encodingSa b) s ∧
    t.on s.hw .egress r = true) (Ends.when (fun hen => ?_) fun _ _ => id) fun _ => ?_
  · rw [hen, Bool.and_eq_true] at hb
    cases hro : (c.secy i).txSc.sa (c.secy i).txSc.encodingSa with
    | none => simp [txSaAt, hro] at hb
    | some r₀ =>
      rw [h.txSa_record hro]
      have hne : (Direction.egress, r) ≠ (Direction.egress, r₀) := fun he => by
        obtain rfl := congrArg Prod.snd he
        have henc := h.an_inj hr hro
        rw [henc] at hb
        exact hold ⟨henc, hb.1⟩
      have hsub₀ : activated c i r (c.secy i).txSc.encodingSa b ∪ {(.egress, r₀)} ⊆
          activated c i r (c.secy i).txSc.encodingSa b := by
        refine Set.union_subset subset_rfl ?_
        rintro x rfl
        exact Or.inr ⟨hen, rfl, hro⟩
      have hw : Within (switchFrame t {(.egress, r₀)}) (saEnable bus r₀ .egress false) :=
        within_saEnable_switch (hlt hro)
      have hoff : Ends (SwAt t h₀ c (activated c i r (c.secy i).txSc.encodingSa b)) (saEnable bus r₀ .egress false) _ _ :=
        (serves_saEnable hs false).switch hw hsub₀
      exact (hoff.framed hw fun s s' (hon : t.on s.hw .egress r = true) hrel =>
        (hrel.2.2 .egress r (hlt hr) hne).trans hon).orFail.weaken (fun _ _ => id) fun _ hs => hs.1
  · refine Ends.modify fun s hsw => ⟨hsw.1.accessed, ?_⟩
    have hag : Agree t (activateTxSa i c an (c.secy i).txSc.encodingSa b) ∅ s.hw :=
      hsw.1.agree.activateTxSa h hr hsw.2 hctl
    simpa only [hsw.1.conf] using hag

theorem settles_rxSaActivate (hs : bus.Sound h₀) (h : Inv c) (hctl : (c.secy i).controlledPortEnabled = true)
    {sci : Sci} : Settles t h₀ c ∅ (rxSaActivate bus i sci an) := by
  refine ends_scFromSci_sw fun sc p hp _ => ends_getConf_bind (fun _ h => h.conf) ?_
  refine Ends.failIf_bind (fun _ hsw _ => hsw.follows) fun _ => ?_
  refine Ends.failIf_bind (fun _ hsw _ => hsw.follows) fun _ => ?_
  refine Ends.failIf_bind (fun _ hsw _ => hsw.follows) fun hsa => ?_
  obtain ⟨r, hr⟩ := Option.ne_none_iff_exists'.mp hsa
  rw [rxScAt_eq hp] at hr
  have hlt : r < maxSa := h.rx_lt (h.ownedBy_inUse (rxSa_owned hp hr))
  rw [h.rxSa_record hp hr]
  refine ((ends_rxInuse h hp).weaken (fun _ _ => id) fun _ hsw => hsw.follows).bind fun _ => ?_
  refine Ends.weaken (E := fun _ => False) ?_ (fun _ _ => id) fun _ => False.elim
  refine (ends_saEnable_sw hs hlt true (Set.empty_union _).subset).orFail.bind fun _ => ?_
  refine Ends.modify fun s hsw => ⟨hsw.1.accessed, ?_⟩
  simp only [hsw.1.conf]
  intro j d q hqlt harm _
  rw [flagRxSa_secy]
  by_cases hq : (d, q) = (.ingress, r)
  · cases hq
    have hown : c.ownedBy .ingress j r := by
      obtain ⟨sc', p', an', hp', hr', -⟩ := harm
      rw [flagRxSa_secy] at hp'
      rw [flagRxSa_rxSc] at hr'
      exact rxSa_owned hp' hr'
    obtain rfl := h.ownedBy_unique hown (rxSa_owned hp hr)
    rw [hsw.2, hctl]
  · refine hsw.1.agree j d q hqlt ?_ hq
    cases d with
    | egress =>
      have htx : (flagRxSa i c sc an true).txSa = c.txSa := by
        unfold flagRxSa setRxSaAt
        split <;> rfl
      simpa only [Armed, TxOn, flagRxSa_secy, htx] using harm
    | ingress =>
      obtain ⟨sc', p', an', hp', hr', he⟩ := harm
      rw [flagRxSa_secy] at hp'
      rw [flagRxSa_rxSc] at hr'
      rw [flagRxSa_enabled hp, if_neg] at he
      · exact ⟨sc', p', an', hp', hr', he⟩
      · intro hrq
        rw [hr] at hrq
        exact hq (by rw [Option.some.inj hrq])

/-! ## Switching the controlled port -/

/-- While SecY `i` is switched to `b`: the entries in `K` are, and those of the other SecYs follow the tables. -/
structure Turned (t : MatchTable bus) (h₀ : H) (c : MacsecConf) (i : Nat) (b : Bool) (K : Set (Direction × Nat))
    (s : Dev MacsecConf H) : Prop extends At bus h₀ c s where
  others : ∀ j d r, r < maxSa → j ≠ i → Armed c j d r → t.on s.hw d r = (c.secy j).controlledPortEnabled
  turned : ∀ d r, r < maxSa → (d, r) ∈ K → t.on s.hw d r = b

theorem Turned.anti {b : Bool} {s : Dev MacsecConf H} (hs : Turned t h₀ c i b K s) (hL : L ⊆ K) : Turned t h₀ c i b L s :=
  { hs with turned := fun d r hr hm => hs.turned d r hr (hL hm) }

theorem ends_turn (hs : bus.Sound h₀) (h : Inv c) {b : Bool} (hown : c.ownedBy d i r) (hL : L ⊆ insert (d, r) K) :
    Ends (Turned t h₀ c i b K) (saEnable bus r d b) (fun _ => Turned t h₀ c i b L) fun _ => False := by
  have hlt : r < maxSa := by
    have hu := h.ownedBy_inUse hown
    cases d with
    | egress => exact h.tx_lt hu
    | ingress => exact h.rx_lt hu
  intro s hat
  rcases ends_saEnable_on (t := t) (d := d) (c := c) hs hlt b s hat.toAt with ⟨a, s', hok, hat', hon⟩ | ⟨e, s', -, hf⟩
  · have hrel : (switchFrame t {(d, r)}).rel s s' := (within_saEnable_switch hlt).ok hok
    refine Or.inl ⟨a, s', hok, hat', fun j d' q hq hj ha => ?_, fun d' q hq hm => ?_⟩
    · rw [hrel.2.2 d' q hq, hat.others j d' q hq hj ha]
      rintro ⟨⟩
      exact hj (h.ownedBy_unique ha.owned hown)
    · by_cases hx : (d', q) = (d, r)
      · cases hx
        exact hon
      · rw [hrel.2.2 d' q hq hx]
        exact hat.turned d' q hq ((hL hm).resolve_left hx)
  · exact hf.elim

/-- The enabled receive SAs before association number `m` of channel `k`. -/
def rxBefore (c : MacsecConf) (i k m : Nat) : Set (Direction × Nat) :=
  {x | x.1 = .ingress ∧ ∃ sc p an, (sc < k ∨ sc = k ∧ an < m) ∧ (c.secy i).rxSc sc = some p ∧
    (c.rxSc p).sa an = some x.2 ∧ (c.rxSa x.2).enabled = true}

/-- The enabled transmit SAs before association number `m`. -/
def txBefore (c : MacsecConf) (i m : Nat) : Set (Direction × Nat) :=
  {x | x.1 = .egress ∧ ∃ an < m, TxOn c i an x.2}

theorem ends_turnRx (hs : bus.Sound h₀) (h : Inv c) {b : Bool} {e : Rc} :
    Ends (Turned t h₀ c i b ∅) (forUpTo maxRxSc fun sc => forUpTo saPerScMax fun an =>
      when (((c.rxScAt i sc).sa an).isSome = true ∧ (c.rxSaAt i sc an).enabled = true)
        (orFail (saEnable bus (c.rxSaAt i sc an).record .ingress b) e))
      (fun _ => Turned t h₀ c i b (rxBefore c i maxRxSc 0)) fun _ => False := by
  refine (Ends.forUpTo (I := fun k : Nat => Turned t h₀ c i b (rxBefore c i k 0)) maxRxSc fun k _ => ?_).pre
    fun s hat => hat.anti ?_
  · refine (Ends.forUpTo (I := fun m : Nat => Turned t h₀ c i b (rxBefore c i k m)) saPerScMax fun m _ => ?_).weaken
      (fun _ s hat => hat.anti ?_) fun _ => id
    · refine Ends.when (fun hsome => ?_) fun hnone s hat => hat.anti ?_
      · obtain ⟨hsome, hen⟩ := hsome
        obtain ⟨r, hr⟩ := Option.isSome_iff_exists.mp hsome
        cases hp : (c.secy i).rxSc k with
        | none => simp [rxSaAt, rxScAt, hp] at hen hr
        | some p =>
          rw [rxScAt_eq hp] at hr
          rw [h.rxSa_record hp hr]
          refine (ends_turn hs h (rxSa_owned hp hr) ?_).orFail
          rintro ⟨d, q⟩ ⟨hd, sc, p', an, hpl, hp', hq, he⟩
          obtain rfl : d = .ingress := hd
          by_cases hm : sc = k ∧ an = m
          · obtain ⟨rfl, rfl⟩ := hm
            rw [hp] at hp'
            cases hp'
            rw [hr] at hq
            exact Or.inl (by rw [Option.some.inj hq])
          · exact Or.inr ⟨rfl, sc, p', an, by omega, hp', hq, he⟩
      · rintro ⟨d, q⟩ ⟨hd, sc, p', an, hpl, hp', hq, he⟩
        refine ⟨hd, sc, p', an, ?_, hp', hq, he⟩
        by_cases hm : sc = k ∧ an = m
        · obtain ⟨rfl, rfl⟩ := hm
          exact absurd ⟨by simp [rxScAt_eq hp', hq], by rwa [rxSaAt_eq hp' hq]⟩ hnone
        · omega
    · rintro ⟨d, q⟩ ⟨hd, sc, p', an, hpl, hp', hq, he⟩
      have han := (h.rx_place hq).1
      exact ⟨hd, sc, p', an, by omega, hp', hq, he⟩
  · rintro ⟨d, q⟩ ⟨hd, sc, p', an, hpl, -⟩
    omega

theorem ends_turnTx (hs : bus.Sound h₀) (h : Inv c) {b : Bool} {e : Rc} :
    Ends (Turned t h₀ c i b K) (forUpTo saPerScMax fun an =>
      when (((c.secy i).txSc.sa an).isSome = true ∧ (c.txSaAt i an).enabled = true)
        (orFail (saEnable bus (c.txSaAt i an).record .egress b) e))
      (fun _ => Turned t h₀ c i b (K ∪ txBefore c i saPerScMax)) fun _ => False := by
  refine (Ends.forUpTo (I := fun m : Nat => Turned t h₀ c i b (K ∪ txBefore c i m)) saPerScMax fun m _ => ?_).pre
    fun s hat => hat.anti ?_
  · refine Ends.when (fun hsome => ?_) fun hnone s hat => hat.anti ?_
    · obtain ⟨r, hr⟩ := Option.isSome_iff_exists.mp hsome.1
      rw [h.txSa_record hr]
      refine (ends_turn hs h (txSa_owned hr) ?_).orFail
      rintro ⟨d, q⟩ (hK | ⟨hd, an, han, hq, he⟩)
      · exact Or.inr (Or.inl hK)
      · obtain rfl : d = .egress := hd
        rcases Nat.lt_succ_iff_lt_or_eq.mp han with han | rfl
        · exact Or.inr (Or.inr ⟨rfl, an, han, hq, he⟩)
        · rw [hr] at hq
          exact Or.inl (by rw [Option.some.inj hq])
    · rintro ⟨d, q⟩ (hK | ⟨hd, an, han, hq, he⟩)
      · exact Or.inl hK
      · rcases Nat.lt_succ_iff_lt_or_eq.mp han with han | rfl
        · exact Or.inr ⟨hd, an, han, hq, he⟩
        · exact absurd ⟨by simp [show (c.secy i).txSc.sa an = some q from hq], by rwa [txSaAt_eq hq]⟩ hnone
  · rintro x (hK | ⟨-, an, han, -⟩)
    · exact hK
    · omega

theorem settles_secyControlledSet (hs : bus.Sound h₀) (h : Inv c) (b : Bool) :
    Settles t h₀ c ∅ (secyControlledSet bus i b) := by
  refine ends_getConf_bind (fun _ h => h.conf) (Ends.when (fun _ => ?_) fun _ _ hsw => hsw.follows)
  refine Ends.weaken (E := fun _ => False) ?_ (fun _ _ => id) fun _ => False.elim
  have hpre : ∀ s, SwAt t h₀ c ∅ s → Turned t h₀ c i b ∅ s := fun s hsw =>
    ⟨hsw.toAt, fun j d r hlt _ ha => hsw.agree j d r hlt ha id, fun _ _ _ hm => hm.elim⟩
  refine ((ends_turnRx hs h).pre hpre).bind fun _ => (ends_turnTx hs h).bind fun _ => ?_
  refine Ends.modify fun s hat => ⟨hat.accessed, ?_⟩
  simp only [hat.conf]
  generalize hc' : (c.setSecy i fun s => { s with controlledPortEnabled := b }) = c'
  have hctl : ∀ j, (c'.secy j).controlledPortEnabled = if j = i then b else (c.secy j).controlledPortEnabled := fun j => by
    rw [← hc', setSecy_secy]
    split <;> rfl
  have htx : ∀ j, (c'.secy j).txSc = (c.secy j).txSc := hc' ▸ setSecy_part Secy.txSc rfl
  have hrx : ∀ j, (c'.secy j).rxSc = (c.secy j).rxSc := hc' ▸ setSecy_part Secy.rxSc rfl
  have harmed : ∀ j d r, Armed c' j d r → Armed c j d r := by
    intro j d r ha
    cases d with
    | egress =>
      obtain ⟨an, hr, he⟩ := ha
      exact ⟨an, by rw [← htx, hr], by rwa [← hc'] at he⟩
    | ingress =>
      refine RxOn.of_rxSc hrx ?_ (fun r he => ?_) j r ha
      · rw [← hc', setSecy_rxSc]
      · rwa [← hc'] at he
  intro j d r hlt ha' _
  have ha := harmed j d r ha'
  rw [hctl]
  by_cases hj : j = i
  · subst hj
    rw [if_pos rfl]
    refine hat.turned d r hlt ?_
    cases d with
    | egress =>
      obtain ⟨an, hr, he⟩ := ha
      exact Or.inr ⟨rfl, an, (h.tx_place hr).1, hr, he⟩
    | ingress =>
      obtain ⟨sc, p, an, hp, hr, he⟩ := ha
      exact Or.inl ⟨rfl, sc, p, an, Or.inl (h.sc_place hp), hp, hr, he⟩
  · rw [if_neg hj]
    exact hat.others j d r hlt hj ha

/-! ## Match patterns -/

/-- The record of a pattern is none of an SA. -/
theorem Inv.not_armed_pattern (h : Inv c) {a : MatchAction} (hpat : c.saOwner d (.pattern i a) = some r) (j : Nat) :
    ¬Armed c j d r := by
  intro ha
  cases d with
  | egress =>
    obtain ⟨an, hr, -⟩ := ha
    have := h.tx.inj (s := .sa j an) (t := .pattern i a) hr hpat
    simp at this
  | ingress =>
    obtain ⟨sc, p, an, -, hr, -⟩ := ha
    have := h.rx.inj (s := .sa p an) (t := .pattern i a) hr hpat
    simp at this

theorem ends_saEnable_settled (hlt : r < maxSa) (hr : ∀ j, ¬Armed c j d r) {b : Bool} {e : Rc} :
    Ends (SwAt t h₀ c ∅) (orFail (saEnable bus r d b) e) (fun _ => SwAt t h₀ c ∅) (SwAt t h₀ c ∅) :=
  (ends_switch (within_saEnable_switch hlt).orFail (Set.empty_union _).subset).weaken (fun _ _ hsw => hsw.settle hr)
    fun _ hsw => hsw.settle hr

theorem settles_patternSet (h : Inv c) (ho : RxOwned c) (hi : (c.secy i).inUse = true) {a : MatchAction}
    (pattern : MatchPattern) : Settles t h₀ c ∅ (patternSet bus i d a pattern) := by
  refine ends_getConf_bind (fun _ h => h.conf) (Ends.failIf_bind (fun _ hsw _ => hsw.follows) fun hpat => ?_)
  have hpat : (c.secy i).patternRecord a d = notInUse := not_not.mp hpat
  cases hrec : c.recordEmptyGet d with
  | none => exact Ends.throw fun _ hsw => hsw.follows
  | some r =>
    refine Ends.failIf_bind (fun _ hsw _ => hsw.follows) fun _ => ?_
    have hc : Commit i c .other (linkPattern i c a d r) := .linkPattern a d r hi hpat hrec
    have hcalm : Calms c (linkPattern i c a d r) ∅ ∅ := hc.calms h ho (by simp) (by simp)
      (fun j => linkPattern_part Secy.controlledPortEnabled (fun _ _ => rfl) j)
      fun r' he => by rwa [linkPattern_enabled] at he
    have hlt : r < maxSa := (recordEmptyGet_spec hrec).2
    refine (ends_modifyConf_sw hcalm).bind fun _ => ?_
    have hown : (linkPattern i c a d r).saOwner d (.pattern i a) = some r := by
      have hu : ((linkPattern i c a d r).secy i).inUse = true := by
        rw [linkPattern_part Secy.inUse fun _ _ => rfl, hi]
      have hrec' : ((linkPattern i c a d r).secy i).patternRecord a d = r := by
        cases d <;> simp [linkPattern, setPatternRecord, setSaInUse, setSaRecord]
      have hne : r ≠ notInUse := fun hn => absurd (hn ▸ hlt) (by decide)
      rw [saOwner_pattern, hrec', if_pos ⟨hu, hne⟩]
    have hnot := (hc.inv h).not_armed_pattern hown
    generalize linkPattern i c a d r = c₁ at hnot
    have htcam : Steps (hwFrame bus quietBits) (fun s => s.conf = c₁) (saTcamKeyMaskSet bus d r i i pattern)
        fun _ _ => True := steps_saTcamKeyMaskSet selectBits_quiet (tcamBits_quiet hlt) (policyBits_quiet hlt)
    have hpol : Within (hwFrame bus (policyBits d r)) (saTcamPolicyUnctrlDrop bus r d a) :=
      within_saTcamPolicyUnctrlDrop subset_rfl
    refine ((ends_quiet (Steps.orFail htcam)).weaken (fun _ _ => id) fun _ hsw => hsw.follows).bind fun _ => ?_
    refine ((ends_within hpol.orFail (policyBits_quiet hlt)).weaken (fun _ _ => id) fun _ hsw => hsw.follows).bind
      fun _ => ?_
    exact (ends_saEnable_settled hlt hnot).weaken (fun _ _ hsw => hsw.follows) fun _ hsw => hsw.follows

theorem settles_patternDel (h : Inv c) (ho : RxOwned c) (hi : (c.secy i).inUse = true) {a : MatchAction} :
    Settles t h₀ c ∅ (patternDel bus i d a) := by
  refine ends_getConf_bind (fun _ h => h.conf) (Ends.failIf_bind (fun _ hsw _ => hsw.follows) fun hpat => ?_)
  have hown : c.saOwner d (.pattern i a) = some ((c.secy i).patternRecord a d) := by
    rw [saOwner_pattern, if_pos ⟨hi, hpat⟩]
  have hnot := h.not_armed_pattern hown
  have hlt : (c.secy i).patternRecord a d < maxSa := by
    have hu := h.ownedBy_inUse (Or.inr ⟨a, hown⟩)
    cases d with
    | egress => exact h.tx_lt hu
    | ingress => exact h.rx_lt hu
  refine ((ends_saEnable_settled hlt hnot).weaken (fun _ _ => id) fun _ hsw => hsw.follows).bind fun _ => ?_
  have hinuse : Within (hwFrame bus (mapBits d 0)) (saInuse bus ((c.secy i).patternRecord a d) 0 0 d false) :=
    within_saInuse subset_rfl
  refine ((ends_within hinuse.orFail (mapBits_quiet (by decide))).weaken (fun _ _ => id) fun _ hsw => hsw.follows).bind
    fun _ => ?_
  refine ((ends_switch (within_saTcamKeyMaskReset_switch hlt).orFail (Set.empty_union _).subset).weaken
    (fun _ _ hsw => hsw.settle hnot) fun _ hsw => (hsw.settle hnot).follows).bind fun _ => ?_
  have hc : Commit i c .other (freePattern i c a d ((c.secy i).patternRecord a d)) := .freePattern a d hi hpat
  have hcalm : Calms c (freePattern i c a d ((c.secy i).patternRecord a d)) ∅ ∅ := hc.calms h ho (by simp) (by simp)
    (fun j => freePattern_part Secy.controlledPortEnabled (fun _ _ _ => rfl) j)
    fun r' he => by rwa [freePattern_enabled] at he
  exact (ends_modifyConf_sw hcalm).weaken (fun _ _ hsw => hsw.follows) fun _ => id

/-! ## Deletions -/

/-- The kinds of updates inside a deletion. -/
def innerScope : Scope := { wholeScope with kinds := {k | k ≠ .opens ∧ k ≠ .closes} }

theorem Inv.fits_innerScope (h : Inv c) : Fits innerScope c := ⟨h.fits_wholeScope.recs, h.fits_wholeScope.hws⟩

/-- The switches follow the tables, which are linked, and SecY `i` is in use. -/
structure Following (t : MatchTable bus) (h₀ : H) (i : Nat) (s : Dev MacsecConf H) : Prop extends Follows t h₀ s where
  inv : Inv s.conf
  rxOwned : RxOwned s.conf
  inUse : (s.conf.secy i).inUse = true

/-- A call that settles the switches, and that is a sequence of small steps of SecY `i`. -/
theorem keeps_of_settles {α : Type} {x : Call H α}
    (hx : ∀ c, Inv c → RxOwned c → (c.secy i).inUse = true → Settles t h₀ c ∅ x)
    (hst : ∀ c, Inv c → (c.secy i).inUse = true →
      Steps (trace bus innerScope i) (fun s => s.conf = c) x fun _ _ => True) :
    Ends (Following t h₀ i) x (fun _ => Following t h₀ i) (Following t h₀ i) := by
  intro s hs
  have htr : Relation.ReflTransGen (Micro bus innerScope i) s (final x s) := (hst s.conf hs.inv hs.inUse s rfl).1
  have hu : ((final x s).conf.secy i).inUse = true := by
    rcases ports_of_trace htr (fun hk => hk.1 rfl) with he | ⟨hk, -⟩
    · have hi : (final x s).conf.ports i ≠ none := by
        rw [he]
        exact fun hn => absurd (ports_eq_none.mp hn) (by simp [hs.inUse])
      exact Bool.eq_true_of_not_eq_false fun hf => hi (ports_eq_none.mpr hf)
    · exact absurd rfl hk.2
  have hfoll : Follows t h₀ (final x s) → Following t h₀ i (final x s) := fun hf =>
    ⟨hf, trace_inv htr hs.inv, rxOwned_of_trace htr hs.rxOwned, hu⟩
  rcases hx s.conf hs.inv hs.rxOwned hs.inUse s ⟨⟨rfl, hs.accessed⟩, hs.agree⟩ with ⟨a, s', hok, hf⟩ | ⟨e, s', herr, hf⟩
  · have hfinal : final x s = s' := by simp [final, hok]
    exact Or.inl ⟨a, s', hok, hfinal ▸ hfoll (hfinal.symm ▸ hf)⟩
  · have hfinal : final x s = s' := by simp [final, herr]
    exact Or.inr ⟨e, s', herr, hfinal ▸ hfoll (hfinal.symm ▸ hf)⟩

theorem SwAt.following {s : Dev MacsecConf H} (hsw : SwAt t h₀ c ∅ s) (h : Inv c) (ho : RxOwned c)
    (hi : (c.secy i).inUse = true) : Following t h₀ i s := by
  obtain rfl := hsw.conf
  exact ⟨hsw.follows, h, ho, hi⟩

section Deletions

variable {E : Dev MacsecConf H → Prop} {α : Type} {R : α → Dev MacsecConf H → Prop}

theorem following_getConf_bind {f : MacsecConf → Call H α}
    (hf : ∀ c, Ends (fun s => Following t h₀ i s ∧ s.conf = c) (f c) R E) :
    Ends (Following t h₀ i) (getConf >>= f) R E := fun s hs =>
  ends_getConf_bind (c := s.conf) (P := fun t' => t' = s) (fun _ ht => congrArg Dev.conf ht)
    (fun _ ht => hf _ _ ⟨ht ▸ hs, congrArg Dev.conf ht⟩) s rfl

theorem follows_quiet {x : Call H Unit} {W : Set (IoReg × Nat)} (hx : Within (hwFrame bus W) x) (hW : W ⊆ quietBits) :
    Ends (Follows t h₀) x (fun _ => Follows t h₀) (Follows t h₀) := by
  have hw : Within (switchFrame t ∅) x := within_quiet (hx.mono (hwFrame_mono bus hW))
  refine hw.ends fun s s' hs hrel => ⟨hs.accessed.trans hrel.2.1, ?_⟩
  rw [hrel.1]
  exact hs.agree.of_switchFrame hrel (Set.union_empty _).subset

theorem follows_modify {g : MacsecConf → MacsecConf} (hg : ∀ c, Calms c (g c) ∅ ∅) :
    Ends (Follows t h₀) (modifyConf g : Call H PUnit) (fun _ => Follows t h₀) E :=
  Ends.modify fun s hs => ⟨hs.accessed, hs.agree.calms (hg s.conf)⟩

theorem following_txSasDel (hs : bus.Sound h₀) (hi : i < maxSecy) :
    Ends (Following t h₀ i) (txSasDel bus i) (fun _ => Following t h₀ i) (Following t h₀ i) := by
  refine Ends.forUpTo (I := fun _ : Nat => Following t h₀ i) _ fun an _ => following_getConf_bind fun c => ?_
  refine Ends.pre (P := Following t h₀ i) (Ends.when (fun _ => ?_) fun _ _ => id) fun _ hf => hf.1
  refine Ends.bind (Q := fun _ => Following t h₀ i) (Ends.orFail ?_) fun _ => Ends.orFail ?_
  · exact keeps_of_settles (fun c h _ _ => settles_txSaDisable hs h hi) fun c h _ =>
      (steps_txSaDisable h h.fits_innerScope (by simp [innerScope])).post fun _ _ _ => trivial
  · exact keeps_of_settles (fun c h _ _ => settles_txSaDel hs h) fun c h _ =>
      (steps_txSaDel h h.fits_innerScope fun _ _ => by simp [innerScope]).post fun _ _ _ => trivial

theorem following_rxSasDel (hs : bus.Sound h₀) {sci : Sci} :
    Ends (Following t h₀ i) (rxSasDel bus i sc sci) (fun _ => Following t h₀ i) (Following t h₀ i) := by
  refine Ends.forUpTo (I := fun _ : Nat => Following t h₀ i) _ fun an _ => following_getConf_bind fun c => ?_
  refine Ends.pre (P := Following t h₀ i) (Ends.when (fun _ => ?_) fun _ _ => id) fun _ hf => hf.1
  refine Ends.bind (Q := fun _ => Following t h₀ i) (Ends.when (fun _ => Ends.orFail ?_) fun _ _ => id) fun _ =>
    Ends.orFail ?_
  · exact keeps_of_settles (fun c h _ _ => settles_rxSaDisable hs h) fun c h _ =>
      (steps_rxSaDisable h h.fits_innerScope (by simp [innerScope])).post fun _ _ _ => trivial
  · exact keeps_of_settles (fun c h _ _ => settles_rxSaDel hs h) fun c h _ =>
      (steps_rxSaDel h h.fits_innerScope (by simp [innerScope])).post fun _ _ _ => trivial

theorem calms_clearTxSc : Calms c (clearTxSc i c) ∅ ∅ := by
  refine .of_parts (setSecy_part Secy.controlledPortEnabled rfl) (fun j an r ho => ?_)
    (RxOn.of_rxSc (setSecy_part Secy.rxSc rfl) rfl fun _ => id)
  rw [TxOn, clearTxSc, setSecy_secy] at ho
  split at ho
  · cases ho.1
  · exact ho

theorem calms_setPattern {a : MatchAction} {f : MatchPattern → MatchPattern} : Calms c (setPattern i c a d f) ∅ ∅ := by
  have htx : ∀ j, ((setPattern i c a d f).secy j).txSc = (c.secy j).txSc := setSecy_part Secy.txSc rfl
  refine .of_parts (setSecy_part Secy.controlledPortEnabled rfl) (fun j an r ho => ?_)
    (RxOn.of_rxSc (setSecy_part Secy.rxSc rfl) rfl fun _ => id)
  exact ⟨htx j ▸ ho.1, ho.2⟩

theorem calms_clearSecy : Calms c (clearSecy i c) ∅ ∅ := by
  have hsecy : ∀ j, (clearSecy i c).secy j = if j = i then {} else c.secy j := fun j => setSecy_secy ..
  intro j d r ha hK
  have hj : j ≠ i := by
    rintro rfl
    cases d with
    | egress =>
      obtain ⟨an, hr, -⟩ := ha
      rw [hsecy, if_pos rfl] at hr
      cases hr
    | ingress =>
      obtain ⟨sc, p, an, hp, -⟩ := ha
      rw [hsecy, if_pos rfl] at hp
      cases hp
  have hs : (clearSecy i c).secy j = c.secy j := by rw [hsecy, if_neg hj]
  refine ⟨?_, hK, by rw [hs]⟩
  cases d with
  | egress =>
    obtain ⟨an, hr, he⟩ := ha
    exact ⟨an, hs ▸ hr, he⟩
  | ingress =>
    obtain ⟨sc, p, an, hp, hr, he⟩ := ha
    exact ⟨sc, p, an, hs ▸ hp, hr, he⟩

theorem calms_freeRxSc : Calms c (freeRxSc i c sc) ∅ ∅ := by
  have hsecy : ∀ j, ∃ f, (freeRxSc i c sc).secy j = { c.secy j with rxSc := f } := fun j => by
    have hs : ∀ (c₁ : MacsecConf) f, (c₁.setRxScAt i sc f).secy = c₁.secy := fun c₁ f => by
      unfold setRxScAt
      split <;> rfl
    rw [freeRxSc, setSecy_secy, hs]
    split
    · next hj =>
      subst hj
      exact ⟨_, rfl⟩
    · exact ⟨_, rfl⟩
  have htx : (freeRxSc i c sc).txSa = c.txSa := by
    simp only [freeRxSc, setSecy_txSa, setRxScAt]
    split <;> rfl
  have hrx : (freeRxSc i c sc).rxSa = c.rxSa := by
    simp only [freeRxSc, setSecy_rxSa, setRxScAt]
    split <;> rfl
  refine .of_parts (fun j => ?_) (fun j an r ho => ?_) (RxOn.of_same (fun j sc' q hq => ?_) (fun q an r hs => ?_) ?_)
  · obtain ⟨f, hf⟩ := hsecy j
    rw [hf]
  · obtain ⟨f, hf⟩ := hsecy j
    rwa [TxOn, hf, htx] at ho
  · rw [freeRxSc_rxScPtr] at hq
    split at hq
    · cases hq
    · exact hq
  · simp only [freeRxSc, setSecy_rxSc, setRxScAt] at hs
    split at hs
    · rw [setRxSc_rxSc] at hs
      split at hs
      · cases hs
      · exact hs
    · exact hs
  · rw [hrx]
    exact fun _ => id

theorem settles_txScDel (hs : bus.Sound h₀) (h : Inv c) (ho : RxOwned c) (hu : (c.secy i).inUse = true)
    (hi : i < maxSecy) : Settles t h₀ c ∅ (txScDel bus i) := by
  refine ends_getConf_bind (fun _ h => h.conf) (Ends.failIf_bind (fun _ hsw _ => hsw.follows) fun _ => ?_)
  refine (((following_txSasDel hs hi).pre fun s hsw => hsw.following h ho hu).weaken (fun _ _ hf => hf.toFollows)
    fun _ hf => hf.toFollows).bind fun _ => ?_
  exact follows_modify fun c => calms_clearTxSc

theorem settles_rxScDel (hs : bus.Sound h₀) (h : Inv c) (ho : RxOwned c) (hu : (c.secy i).inUse = true) {sci : Sci} :
    Settles t h₀ c ∅ (rxScDel bus i sci) := by
  refine ends_scFromSci_sw fun sc p hp _ => ?_
  refine (((following_rxSasDel hs).pre fun s hsw => hsw.following h ho hu).weaken (fun _ _ => id)
    fun _ hf => hf.toFollows).bind fun _ => following_getConf_bind fun c₁ => ?_
  have hctrl : Within (hwFrame bus modeBits) (csrWr bus rxscEntryEnableCtrlReg (field (word (c₁.rxScAt i sc).hwScIdx) 0 6)) :=
    within_csrWr fun p hp => Or.inr (Or.inr (Or.inr (Or.inl hp)))
  refine ((follows_quiet hctrl modeBits_quiet).pre fun s hf => hf.1.toFollows).bind fun _ => ?_
  refine (follows_modify fun c => calms_freeRxSc).bind fun _ => ?_
  exact follows_quiet (within_updateGlbValidate subset_rfl) modeBits_quiet

theorem following_rxScsDel (hs : bus.Sound h₀) :
    Ends (Following t h₀ i) (rxScsDel bus i) (fun _ => Following t h₀ i) (Following t h₀ i) := by
  refine Ends.forUpTo (I := fun _ : Nat => Following t h₀ i) _ fun sc _ => following_getConf_bind fun c => ?_
  refine Ends.pre (P := Following t h₀ i) (Ends.when (fun _ => ?_) fun _ _ => id) fun _ hf => hf.1
  exact keeps_of_settles (fun c h ho hu => settles_rxScDel hs h ho hu) fun c h _ =>
    steps_rxScDel_any h h.fits_innerScope (by simp [innerScope]) _

theorem following_patternsDel :
    Ends (Following t h₀ i) (patternsDel bus i) (fun _ => Following t h₀ i) (Following t h₀ i) := by
  refine Ends.forUpTo (I := fun _ : Nat => Following t h₀ i) _ fun k _ => following_getConf_bind fun c => ?_
  refine Ends.pre (P := Following t h₀ i) (Ends.when (fun _ => ?_) fun _ _ => id) fun _ hf => hf.1
  refine keeps_of_settles (fun c h ho hu => settles_patternDel h ho hu) fun c h hu => ?_
  exact (steps_patternDel h h.fits_innerScope hu (fun _ => Set.mem_univ _) (by simp [innerScope])).post fun _ _ _ => trivial

theorem settles_secyConfDel (hs : bus.Sound h₀) (h : Inv c) (ho : RxOwned c) (hu : (c.secy i).inUse = true)
    (hi : i < maxSecy) : Settles t h₀ c ∅ (secyConfDel bus i) := by
  refine ends_getConf_bind (fun _ h => h.conf) (Ends.bind (Q := fun _ => Following t h₀ i) ?_ fun _ => ?_)
  · refine (Ends.when (T := Following t h₀ i) (E := Following t h₀ i) (fun _ => ?_) fun _ _ => id).weaken (fun _ _ => id)
      (fun _ hf => hf.toFollows) |>.pre fun s hsw => hsw.following h ho hu
    refine keeps_of_settles (fun c h ho hu => settles_txScDel hs h ho hu hi) fun c h _ => ?_
    exact (steps_txScDel (fun _ _ => id) (disablesTxSa_trace (by simp [innerScope])) h h.fits_innerScope
      (by simp [innerScope]) (by simp [innerScope])).post fun _ _ _ => trivial
  · refine ((following_rxScsDel hs).weaken (fun _ _ => id) fun _ hf => hf.toFollows).bind fun _ => ?_
    refine (following_patternsDel.weaken (fun _ _ hf => hf.toFollows) fun _ hf => hf.toFollows).bind fun _ => ?_
    exact follows_modify fun c => calms_clearSecy

/-- The settings of a SecY or of a channel that have nothing to do with its SAs. -/
theorem calms_settings {k : Kind} (hc : Commit i c k c') (h : Inv c) (ho : RxOwned c) (hk : k = .other)
    (hctl : ∀ j, (c'.secy j).controlledPortEnabled = (c.secy j).controlledPortEnabled) (hrx : c'.rxSa = c.rxSa) :
    Calms c c' ∅ ∅ :=
  hc.calms h ho (by simp [hk]) (by simp [hk]) hctl fun r he => hrx ▸ he

theorem updateRxScConf_rxSa {conf : RxScConf} : (updateRxScConf i c sc conf).rxSa = c.rxSa := by
  unfold updateRxScConf setRxScAt
  split <;> rfl

theorem settles_secyConfUpdate (hs : bus.Sound h₀) (h : Inv c) (ho : RxOwned c) (hu : (c.secy i).inUse = true)
    (hi : i < maxSecy) (conf : SecyConf) : Settles t h₀ c ∅ (secyConfUpdate bus i conf) := by
  refine Ends.failIf_bind (fun _ hsw _ => hsw.follows) fun _ => ?_
  have hc : Commit i c .other (updateSecyConf i c conf) := .settings _ (updateSecyConf_sameLinks _ _) hu
  have hu' : ((updateSecyConf i c conf).secy i).inUse = true := by simpa [updateSecyConf] using hu
  refine (ends_modifyConf_sw (calms_settings hc h ho rfl (setSecy_part Secy.controlledPortEnabled rfl) rfl)).bind
    fun _ => ?_
  refine (((following_txSasDel hs hi).pre fun s hsw => hsw.following (hc.inv h) (hc.rxOwned ho) hu').weaken
    (fun _ _ => id) fun _ hf => hf.toFollows).bind fun _ => ?_
  refine Ends.bind (Q := fun _ => Following t h₀ i) ?_ fun _ => ?_
  · refine (Ends.forUpTo (I := fun _ : Nat => Following t h₀ i) (E := Following t h₀ i) _ fun sc _ =>
      following_getConf_bind fun c₁ => ?_).weaken (fun _ _ => id) fun _ hf => hf.toFollows
    refine Ends.when (fun hcond => ?_) fun _ _ hf => hf.1
    obtain ⟨p, hp⟩ := Option.isSome_iff_exists.mp hcond.1
    refine Ends.bind (Q := fun _ => Following t h₀ i) ?_ fun _ => following_rxSasDel hs
    refine Ends.modify fun s hf => ?_
    obtain ⟨hf, rfl⟩ := hf
    have hc₁ : Commit i s.conf .other (updateRxScConf i s.conf sc
        ⟨conf.validateFrames, conf.replayProtect, conf.replayWindow, conf.confidentialityOffset⟩) :=
      .updateRxScConf sc p _ hp
    have hcalm : Calms s.conf _ ∅ ∅ := calms_settings hc₁ hf.inv hf.rxOwned rfl (fun j => by rw [updateRxScConf_secy])
      updateRxScConf_rxSa
    exact ⟨⟨hf.accessed, hf.agree.calms hcalm⟩, hc₁.inv hf.inv, hc₁.rxOwned hf.rxOwned,
      by simpa only [updateRxScConf_secy] using hf.inUse⟩
  · refine following_getConf_bind fun c₁ => ?_
    exact (Ends.failIf fun s hf _ => hf.1.toFollows).weaken (fun _ s hf => hf.1.1.toFollows) fun _ => id

end Deletions

end Lan80xx.Macsec
