import Lan80xx.Macsec.Atomic

/-!
# MACsec: the switches of the match entries

Whether a match entry takes part in the lookup is not stored in a register: a write to `ENTRY_SET`, `ENTRY_CLEAR` or
`ENTRY_ENABLE_CTRL` switches it on or off. `MatchTable` is a device with these switches, and `Agree` says that the
switches of a port follow its tables: the entry of an enabled SA is on exactly while its SecY's controlled port is
enabled.
-/

namespace Lan80xx.Macsec

open Fallible RegBus MacsecConf

variable {H : Type} {bus : PortBus H}

/-! ## Switches -/

/-- What a word written to a register does to the match entry of record `q`: switch it on, off, or nothing. -/
def entryCommand (r : IoReg) (v : BitVec 32) (d : Direction) (q : Nat) : Option Bool :=
  if r = entrySetReg d q ∧ v.getLsbD (q % 32) = true then some true
  else if r = entryClearReg d q ∧ v.getLsbD (q % 32) = true then some false
  else if r = samEntryEnableCtrlReg d ∧ v.getLsbD 30 = true ∧ (field (v >>> 16) 0 7).toNat = q then some false
  else if r = samEntryEnableCtrlReg d ∧ v.getLsbD 14 = true ∧ (field v 0 7).toNat = q then some true
  else none

/-- A device with a switch for every match entry. What a register reads as can be written back without switching
anything; a write that fails may or may not have reached the switches. -/
structure MatchTable (bus : PortBus H) where
  on : H → Direction → Nat → Bool
  on_rd : ∀ r h, on (bus.rd r h).2 = on h
  rd_command : ∀ r h v d q b, (bus.rd r h).1 = .ok v → q < maxSa → entryCommand r v d q = some b → on h d q = b
  on_wr_ok : ∀ r v h d q, (bus.wr r v h).1 = .ok () → q < maxSa →
    on (bus.wr r v h).2 d q = (entryCommand r v d q).getD (on h d q)
  on_wr_error : ∀ r v h e, (bus.wr r v h).1 = .error e → on (bus.wr r v h).2 = on h ∨
    ∀ d q, q < maxSa → on (bus.wr r v h).2 d q = (entryCommand r v d q).getD (on h d q)
  on_drift : ∀ h h', bus.drift h h' → on h' = on h

theorem entryCommand_congr {r : IoReg} {v v' : BitVec 32} {d : Direction} {q : Nat}
    (hbit : r = entrySetReg d q ∨ r = entryClearReg d q → v.getLsbD (q % 32) = v'.getLsbD (q % 32))
    (hctrl : r = samEntryEnableCtrlReg d → v = v') : entryCommand r v d q = entryCommand r v' d q := by
  unfold entryCommand
  refine if_congr ?_ rfl (if_congr ?_ rfl (if_congr ?_ rfl (if_congr ?_ rfl rfl)))
  · exact and_congr_right fun h => by rw [hbit (Or.inl h)]
  · exact and_congr_right fun h => by rw [hbit (Or.inr h)]
  · exact and_congr_right fun h => by rw [hctrl h]
  · exact and_congr_right fun h => by rw [hctrl h]

theorem entryCommand_none {r : IoReg} {v : BitVec 32} {d : Direction} {q : Nat} (hset : r ≠ entrySetReg d q)
    (hclear : r ≠ entryClearReg d q) (hctrl : r ≠ samEntryEnableCtrlReg d) : entryCommand r v d q = none := by
  simp [entryCommand, hset, hclear, hctrl]

section Frame

variable (t : MatchTable bus) {h h' : H} {d : Direction} {q : Nat} {W : Set (IoReg × Nat)}

/-- A write, failed or not, that orders nothing new leaves the switch alone. -/
theorem MatchTable.on_wr_same {r : IoReg} {v : BitVec 32} (hq : q < maxSa)
    (hsame : ∀ b, entryCommand r v d q = some b → t.on h d q = b) : t.on (bus.wr r v h).2 d q = t.on h d q := by
  have hget : (entryCommand r v d q).getD (t.on h d q) = t.on h d q := by
    cases hc : entryCommand r v d q with
    | none => rfl
    | some b => exact (hsame b hc).symm
  cases hw : (bus.wr r v h).1 with
  | ok u => rw [t.on_wr_ok r v h d q hw hq, hget]
  | error e =>
    rcases t.on_wr_error r v h e hw with ho | ho
    · rw [ho]
    · rw [ho d q hq, hget]

/-- Accesses that do not reach the switch. -/
theorem MatchTable.frame (hs : HwSteps bus W h h') (hq : q < maxSa) (hset : (entrySetReg d q, q % 32) ∉ W)
    (hclear : (entryClearReg d q, q % 32) ∉ W) (hctrl : ∀ b < 32, (samEntryEnableCtrlReg d, b) ∉ W) :
    t.on h' d q = t.on h d q := by
  have hlt : q % 32 < 32 := Nat.mod_lt _ (by decide)
  induction hs with
  | refl => rfl
  | @tail h₁ h₂ _ hst ih =>
    rw [← ih]
    cases hst with
    | rd r => rw [t.on_rd]
    | wr r v _ hr =>
      refine t.on_wr_same hq fun b hb => ?_
      rw [entryCommand_none] at hb
      · cases hb
      · rintro rfl
        exact hset (hr _ hlt)
      · rintro rfl
        exact hclear (hr _ hlt)
      · rintro rfl
        exact hctrl 0 (by decide) (hr 0 (by decide))
    | wrm r old v mask _ ho hr =>
      have hold : entryCommand r (merge old v mask) d q = entryCommand r old d q := by
        refine entryCommand_congr (fun hreg => merge_getLsbD old v mask ?_) fun hreg => ?_
        · refine Bool.eq_false_iff.mpr fun hm => ?_
          rcases hreg with rfl | rfl
          · exact hset (hr _ hlt hm)
          · exact hclear (hr _ hlt hm)
        · subst hreg
          refine BitVec.eq_of_getLsbD_eq fun b hb => merge_getLsbD old v mask ?_
          exact Bool.eq_false_iff.mpr fun hm => hctrl b hb (hr b hb hm)
      rw [t.on_wr_same hq, t.on_rd]
      intro b hb
      rw [t.on_rd]
      exact t.rd_command r h₁ old d q b ho hq (hold ▸ hb)

end Frame

/-! ## Accesses to other registers -/

/-- The registers around the command registers. -/
def quietBits : Set (IoReg × Nat) := {p | p.1.addr < 0x1820 ∨ 0x1840 < p.1.addr}

theorem mem_quietBits {p : IoReg × Nat} : p ∈ quietBits ↔ p.1.addr < 0x1820 ∨ 0x1840 < p.1.addr := Iff.rfl

section Quiet

variable {g : Glb} {d : Direction} {r k : Nat}

theorem MatchTable.quiet (t : MatchTable bus) {h h' : H} {q : Nat} (hs : HwSteps bus quietBits h h') (hq : q < maxSa) :
    t.on h' d q = t.on h d q := by
  have hq : q < 128 := hq
  refine t.frame hs hq ?_ ?_ fun b _ => ?_
  · have ha : (entrySetReg d q).addr = 0x1820 + q / 32 := Nat.mod_eq_of_lt (by omega)
    simp only [mem_quietBits, ha]
    omega
  · have ha : (entryClearReg d q).addr = 0x1830 + q / 32 := by
      simp only [entryClearReg, ioreg]
      split_ifs <;> omega
    simp only [mem_quietBits, ha]
    omega
  · have ha : (samEntryEnableCtrlReg d).addr = 0x1840 := rfl
    simp only [mem_quietBits, ha]
    omega

theorem tcamBits_quiet (hr : r < maxSa) : tcamBits g d r ⊆ quietBits := by
  have hr : r < 128 := hr
  rintro p ⟨w, h | ⟨-, h⟩⟩
  · rcases Nat.lt_or_ge r 64 with hr64 | hr64
    · have hw := w.off_lt
      rw [tcamReg_page0 hr64] at h
      simp only [mem_quietBits, h]
      omega
    · rw [tcamReg, if_neg (show ¬r < xformRecNumPage0 from Nat.not_lt.mpr hr64), tcamPage1Reg, ioreg] at h
      have := tcam_page1 hr w.off
      simp only [mem_quietBits, h]
      omega
  · have hw := w.off_lt
    rw [tcamPage0Reg_eq hr] at h
    simp only [mem_quietBits, h]
    omega

theorem policyBits_quiet (hr : r < maxSa) : policyBits d r ⊆ quietBits := by
  intro p h
  have hr : r < 128 := hr
  replace h : p.1 = tcamPolicyReg d r := h
  rcases Nat.lt_or_ge r 64 with hr64 | hr64
  · rw [tcamPolicyReg_page0 hr64] at h
    simp only [mem_quietBits, h]
    omega
  · rw [tcamPolicyReg, if_neg (show ¬r < xformRecNumPage0 from Nat.not_lt.mpr hr64), ioreg, policy_page1 hr hr64] at h
    simp only [mem_quietBits, h]
    omega

theorem xformBits_quiet (hr : r < maxSa) : xformBits d r ⊆ quietBits := by
  rintro p ⟨i, hi, h⟩
  have hr : r < 128 := hr
  have hi : i < 24 := hi
  rw [xformReg_eq hr hi] at h
  simp only [mem_quietBits, h]
  split_ifs <;> omega

/-- The tables of map entries, flow words and CAM keys lie beside the command registers. -/
theorem TablePlace.quiet {base size : Nat} {p : IoReg × Nat} (h : TablePlace d base size k p)
    (hb : base + size * 32 ≤ 0x1820 ∨ 0x1840 < base) : p ∈ quietBits := by
  have hp := h.place
  have hk : k < 32 → size * k + size ≤ size * 32 := fun hk => by
    rw [← Nat.mul_succ]
    exact Nat.mul_le_mul_left size hk
  simp only [mem_quietBits]
  omega

theorem flowBits_quiet (hk : k < maxSecy) : flowBits d k ⊆ quietBits :=
  fun _ h => (flowPlace_of_mem hk h).quiet (Or.inr (by decide))

theorem mapBits_quiet (hk : k < 64) : mapBits d k ⊆ quietBits :=
  fun _ h => (mapPlace_of_mem hk h).quiet (Or.inl (by decide))

theorem camBits_quiet (hk : k < maxRxSc) : camBits k ⊆ quietBits :=
  fun _ h => (camPlace_of_mem hk h).quiet (Or.inl (by decide))

theorem modeBits_quiet : modeBits ⊆ quietBits := by
  rintro p (⟨d, h | h⟩ | h | h | h | h | h | h) <;> simp only [mem_quietBits, h] <;> first | decide | cases d <;> decide

theorem selectBits_quiet : selectBits ⊆ quietBits := selectBits_subset.trans modeBits_quiet

end Quiet

/-! ## Enabled SAs -/

variable {t : MatchTable bus} {i j an sc p r : Nat} {c c' : MacsecConf} {d : Direction}

/-- SecY `j` has an enabled receive SA with record `r`. -/
def RxOn (c : MacsecConf) (j r : Nat) : Prop :=
  ∃ sc p an, (c.secy j).rxSc sc = some p ∧ (c.rxSc p).sa an = some r ∧ (c.rxSa r).enabled = true

/-- SecY `j` has an enabled SA with record `r`. -/
def Armed (c : MacsecConf) (j : Nat) : Direction → Nat → Prop
  | .egress, r => ∃ an, TxOn c j an r
  | .ingress, r => RxOn c j r

theorem Armed.owned (h : Armed c j d r) : c.ownedBy d j r := by
  cases d with
  | egress =>
    obtain ⟨an, hr, -⟩ := h
    exact Or.inl ⟨an, hr⟩
  | ingress =>
    obtain ⟨sc, p, an, hp, hr, -⟩ := h
    exact Or.inl ⟨sc, p, an, hp, hr⟩

theorem Armed.lt (ha : Armed c j d r) (h : Inv c) : r < maxSa := by
  have hu := h.ownedBy_inUse ha.owned
  cases d with
  | egress => exact h.tx_lt hu
  | ingress => exact h.rx_lt hu

/-- The switches of the records follow the tables, except perhaps those in `K`. -/
def Agree (t : MatchTable bus) (c : MacsecConf) (K : Set (Direction × Nat)) (h : H) : Prop :=
  ∀ j d r, r < maxSa → Armed c j d r → (d, r) ∉ K → t.on h d r = (c.secy j).controlledPortEnabled

/-- From the tables `c` to `c'` no SA is enabled, and no controlled port with enabled SAs is switched; the entries of
`K` that are not in `K'` belong to no enabled SA. -/
def Calms (c c' : MacsecConf) (K K' : Set (Direction × Nat)) : Prop :=
  ∀ j d r, Armed c' j d r → (d, r) ∉ K' →
    Armed c j d r ∧ (d, r) ∉ K ∧ (c'.secy j).controlledPortEnabled = (c.secy j).controlledPortEnabled

theorem Agree.calms {K K' : Set (Direction × Nat)} {h : H} (ha : Agree t c K h) (hc : Calms c c' K K') : Agree t c' K' h := by
  intro j d r hlt hr hK
  obtain ⟨hr, hK, hctl⟩ := hc j d r hr hK
  rw [hctl]
  exact ha j d r hlt hr hK

/-- The updates that concern neither enabled SAs nor controlled ports. -/
theorem Calms.of_parts (hctl : ∀ j, (c'.secy j).controlledPortEnabled = (c.secy j).controlledPortEnabled)
    (htx : ∀ j an r, TxOn c' j an r → TxOn c j an r) (hrx : ∀ j r, RxOn c' j r → RxOn c j r) : Calms c c' ∅ ∅ := by
  intro j d r hr hK
  refine ⟨?_, hK, hctl j⟩
  cases d with
  | egress =>
    obtain ⟨an, ho⟩ := hr
    exact ⟨an, htx j an r ho⟩
  | ingress => exact hrx j r hr

/-- An update after which the one entry in doubt belongs to no enabled SA. -/
theorem Calms.settle (hc : Calms c c' ∅ ∅) (hr : ∀ j, ¬Armed c' j d r) : Calms c c' {(d, r)} ∅ := by
  intro j d' r' ha hK
  obtain ⟨ha', -, hctl⟩ := hc j d' r' ha hK
  refine ⟨ha', ?_, hctl⟩
  rintro ⟨⟩
  exact hr j ha

/-! ## Enabled receive SAs -/

/-- Only records of receive SAs are enabled. -/
def RxOwned (c : MacsecConf) : Prop := ∀ r, (c.rxSa r).enabled = true → ∃ p an, (c.rxSc p).sa an = some r

theorem rxOwned_init (glb : Glb) : RxOwned (macsecInit glb) := fun r he => by
  cases he

theorem RxOwned.of_same (ho : RxOwned c) (hs : ∀ p an, (c'.rxSc p).sa an = (c.rxSc p).sa an)
    (he : ∀ r, (c'.rxSa r).enabled = true → (c.rxSa r).enabled = true) : RxOwned c' := fun r hr => by
  obtain ⟨p, an, hp⟩ := ho r (he r hr)
  exact ⟨p, an, by rw [hs, hp]⟩

/-- A free record is not enabled. -/
theorem RxOwned.fresh (ho : RxOwned c) (h : Inv c) (hr : c.recordEmptyGet .ingress = some r) :
    (c.rxSa r).enabled = false := by
  refine Bool.eq_false_iff.mpr fun he => ?_
  obtain ⟨p, an, hp⟩ := ho r he
  have hu : (c.rxSa r).inUse = true := h.rx.live (s := .sa p an) hp
  have hfree : (c.rxSa r).inUse = false := (recordEmptyGet_spec hr).1
  rw [hu] at hfree
  cases hfree

theorem linkRxSa_enabled {lowestPn : PktNum} {sak : Sak} {ssci : Option Ssci} (r' : Nat) :
    ((linkRxSa i c sc an r lowestPn sak ssci).rxSa r').enabled = (c.rxSa r').enabled := by
  have hrx : (c.setRxScAt i sc fun x => { x with sa := Function.update x.sa an (some r) }).rxSa = c.rxSa := by
    unfold setRxScAt
    split <;> rfl
  rw [linkRxSa, ← hrx]
  exact setRxSa_part RxSa.enabled rfl r'

theorem linkPattern_enabled {a : MatchAction} (r' : Nat) :
    ((linkPattern i c a d r).rxSa r').enabled = (c.rxSa r').enabled := by
  cases d with
  | egress => rfl
  | ingress =>
    rw [linkPattern_rxSa]
    split
    · next hr => rw [hr]
    · rfl

theorem freePattern_enabled {a : MatchAction} (r' : Nat) :
    ((freePattern i c a d r).rxSa r').enabled = (c.rxSa r').enabled := by
  cases d with
  | egress => rfl
  | ingress =>
    rw [freePattern_rxSa]
    split
    · next hr => rw [hr]
    · rfl

theorem flagRxSa_enabled {b : Bool} (hp : (c.secy i).rxSc sc = some p) (r' : Nat) :
    ((flagRxSa i c sc an b).rxSa r').enabled = if (c.rxSc p).sa an = some r' then b else (c.rxSa r').enabled := by
  rw [flagRxSa, setRxSaAt, rxScAt_eq hp]
  cases hr : (c.rxSc p).sa an with
  | none => rfl
  | some r =>
    simp only [setRxSa_rxSa, Option.some.injEq]
    by_cases hrr : r' = r
    · rw [if_pos hrr, if_pos hrr.symm]
    · rw [if_neg hrr, if_neg fun h => hrr h.symm]

/-- Only activating a receive SA enables a record. -/
theorem Commit.rxOwned {k : Kind} (hc : Commit i c k c') (ho : RxOwned c) : RxOwned c' := by
  cases hc with
  | openSecy | settings | clearSecy | openTxSc | clearTxSc | linkTxSa | freeTxSa => exact ho
  | activateTxSa an b =>
    have hrx : (MacsecConf.activateTxSa i c an (c.secy i).txSc.encodingSa b).rxSa = c.rxSa := by
      cases b with
      | true => exact setTxSaAt_rx.2.trans setTxSaAt_rx.2
      | false => exact setTxSaAt_rx.2
    exact ho.of_same (fun _ _ => by rw [activateTxSa_rxSc.2]) fun r => by rw [hrx]; exact id
  | disableTxSa => exact ho.of_same (fun _ _ => by rw [disableTxSa_rx.1]) fun r => by rw [disableTxSa_rx.2]; exact id
  | addRxSc sc p hw sci =>
    refine ho.of_same (fun q an' => ?_) fun r => id
    by_cases hq : q = p
    · rw [hq, (addRxSc_self i sc p hw sci c).2.2.2]
    · rw [addRxSc_other hq]
  | updateRxScConf sc p conf hp =>
    rw [MacsecConf.updateRxScConf, setRxScAt_eq hp]
    exact ho.of_same (fun q an' => setRxSc_part (fun x => x.sa an') rfl q) fun r => id
  | freeRxSc sc p hp hsa =>
    rw [freeRxSc_eq hp]
    intro r hr
    obtain ⟨q, an', hq⟩ := ho r hr
    have hqp : q ≠ p := by
      rintro rfl
      rw [hsa] at hq
      cases hq
    exact ⟨q, an', by simpa [setRxSc_rxSc, hqp] using hq⟩
  | linkRxSa sc p an r lowestPn sak ssci hp han hsa hr =>
    intro r' he
    rw [linkRxSa_enabled] at he
    obtain ⟨q, an', hq⟩ := ho r' he
    refine ⟨q, an', ?_⟩
    rw [linkRxSa_sa hp, if_neg, hq]
    rintro ⟨rfl, rfl⟩
    rw [hsa] at hq
    cases hq
  | flagRxSa sc p an b hp =>
    intro r' he
    rw [flagRxSa_enabled hp] at he
    rw [flagRxSa_rxSc]
    split at he
    · next hr => exact ⟨p, an, hr⟩
    · exact ho r' he
  | freeRxSa sc p an r hp hsa =>
    intro r' he
    rw [freeRxSa_rxSa] at he
    split at he
    · cases he
    · next hne =>
      obtain ⟨q, an', hq⟩ := ho r' he
      refine ⟨q, an', ?_⟩
      rw [freeRxSa_sa hp, if_neg, hq]
      rintro ⟨rfl, rfl⟩
      rw [hsa] at hq
      exact hne (Option.some.inj hq).symm
  | linkPattern a d => exact ho.of_same (fun _ _ => by rw [linkPattern_rxSc]) fun r => by rw [linkPattern_enabled]; exact id
  | freePattern a d => exact ho.of_same (fun _ _ => by rw [freePattern_rxSc]) fun r => by rw [freePattern_enabled]; exact id

theorem rxOwned_of_trace {sp : Scope} {s s' : Dev MacsecConf H} (ht : Relation.ReflTransGen (Micro bus sp i) s s')
    (ho : RxOwned s.conf) : RxOwned s'.conf := by
  induction ht with
  | refl => exact ho
  | tail _ hstep ih =>
    cases hstep with
    | hw _ => exact ih
    | sw hc _ => exact hc.rxOwned ih
    | zero record _ => exact final_saInuse_conf.symm ▸ ih

/-! ## Updates that enable nothing -/

theorem RxOn.of_same (hp : ∀ j sc p, (c'.secy j).rxSc sc = some p → (c.secy j).rxSc sc = some p)
    (hs : ∀ p an r, (c'.rxSc p).sa an = some r → (c.rxSc p).sa an = some r)
    (he : ∀ r, (c'.rxSa r).enabled = true → (c.rxSa r).enabled = true) (j r : Nat) (ho : RxOn c' j r) : RxOn c j r := by
  obtain ⟨sc, p, an, hp', hs', he'⟩ := ho
  exact ⟨sc, p, an, hp j sc p hp', hs p an r hs', he r he'⟩

theorem RxOn.of_rxSc (hp : ∀ j, (c'.secy j).rxSc = (c.secy j).rxSc) (hs : c'.rxSc = c.rxSc)
    (he : ∀ r, (c'.rxSa r).enabled = true → (c.rxSa r).enabled = true) : ∀ j r, RxOn c' j r → RxOn c j r :=
  RxOn.of_same (fun j sc p => by rw [hp]; exact id) (fun p an r => by rw [hs]; exact id) he

/-- The updates of what has nothing to do with enabled SAs. -/
theorem Commit.calms {k : Kind} (hc : Commit i c k c') (h : Inv c) (ho : RxOwned c) (hk : k ≠ .txSwitch)
    (hk' : k ≠ .txFree true) (hctl : ∀ j, (c'.secy j).controlledPortEnabled = (c.secy j).controlledPortEnabled)
    (hen : ∀ r, (c'.rxSa r).enabled = true → (c.rxSa r).enabled = true) : Calms c c' ∅ ∅ := by
  refine .of_parts hctl (fun j an r => ((hc.sameTx h hk hk').on j an r).mp) ?_
  cases hc with
  | openSecy | openTxSc | clearTxSc | freeTxSa => exact RxOn.of_rxSc (setSecy_part Secy.rxSc rfl) rfl hen
  | settings f hf _ => exact RxOn.of_rxSc (setSecy_part Secy.rxSc hf.rxSc) rfl hen
  | clearSecy _ htx hrx hpat =>
    refine RxOn.of_same (fun j sc p hp => ?_) (fun _ _ _ => id) hen
    rw [MacsecConf.clearSecy, setSecy_secy] at hp
    split at hp
    · cases hp
    · exact hp
  | linkTxSa => exact RxOn.of_rxSc (linkTxSa_part Secy.rxSc fun _ _ => rfl) rfl hen
  | activateTxSa an b han hsa _ => exact absurd rfl hk
  | disableTxSa an _ _ => exact absurd rfl hk
  | addRxSc sc p hw sci hi hpl hsci =>
    have hfree : ∀ an, (c.rxSc p).sa an = none := fun an => by
      refine Option.eq_none_iff_forall_ne_some.mpr fun r hr => ?_
      have hu := (h.rx_place hr).2
      rw [(rxScPlace_spec hpl).2.1.2] at hu
      cases hu
    have hsa : ∀ q an, ((MacsecConf.addRxSc i c sc p hw sci).rxSc q).sa an = (c.rxSc q).sa an := fun q an => by
      by_cases hq : q = p
      · rw [hq, (addRxSc_self i sc p hw sci c).2.2.2]
      · rw [addRxSc_other hq]
    rintro j r ⟨sc', q, an, hq, hs, he⟩
    rw [hsa] at hs
    rw [addRxSc_rxScPtr] at hq
    split at hq
    · cases hq
      rw [hfree] at hs
      cases hs
    · exact ⟨sc', q, an, hq, hs, he⟩
  | updateRxScConf sc p conf hp =>
    rw [MacsecConf.updateRxScConf, setRxScAt_eq hp] at hen ⊢
    exact RxOn.of_same (fun _ _ _ => id) (fun q an r => by rw [setRxSc_part RxSc.sa rfl]; exact id) hen
  | freeRxSc sc p hp hsa =>
    refine RxOn.of_same (fun j sc' q hq => ?_) (fun q an r hs => ?_) hen
    · rw [freeRxSc_rxScPtr] at hq
      split at hq
      · cases hq
      · exact hq
    · rw [freeRxSc_eq hp] at hs
      simp only [setSecy_rxSc, setRxSc_rxSc] at hs
      split at hs
      · cases hs
      · exact hs
  | linkRxSa sc p an r lowestPn sak ssci hp han hsa hr =>
    rintro j r' ⟨sc', q, an', hq, hs, he⟩
    rw [linkRxSa_secy] at hq
    rw [linkRxSa_sa hp] at hs
    have he := hen r' he
    split at hs
    · cases hs
      rw [ho.fresh h hr] at he
      cases he
    · exact ⟨sc', q, an', hq, hs, he⟩
  | flagRxSa sc p an b hp =>
    exact RxOn.of_rxSc (fun _ => by rw [flagRxSa_secy]) flagRxSa_rxSc hen
  | freeRxSa sc p an r hp hsa =>
    refine RxOn.of_same (fun _ _ _ => by rw [freeRxSa_secy]; exact id) (fun q an' r' hs => ?_) hen
    rw [freeRxSa_sa hp] at hs
    split at hs
    · cases hs
    · exact hs
  | linkPattern a d r hi hpat hr =>
    exact RxOn.of_rxSc (linkPattern_part Secy.rxSc fun _ _ => rfl) linkPattern_rxSc hen
  | freePattern a d hi hpat =>
    exact RxOn.of_rxSc (freePattern_part Secy.rxSc fun _ _ _ => rfl) freePattern_rxSc hen

end Lan80xx.Macsec
