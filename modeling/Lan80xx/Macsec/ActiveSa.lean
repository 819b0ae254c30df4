import Lan80xx.Macsec.Records

/-!
# MACsec: the active transmit SA

The SC-to-SA map entry of a SecY, its encoding SA and the `enabled` flags of its SAs are updated by different calls.
`Good` says that they agree. The small steps of every call keep it (`good_of_trace`), except where a call switches the
map or frees an enabled SA. Activating and disabling write the map first and the tables last, so they keep it when no
access between the two fails.
-/

namespace Lan80xx.Macsec

open Fallible RegBus MacsecConf

variable {H : Type} {i j an r : Nat} {c c' : MacsecConf}

/-! ## Enabled transmit SAs -/

/-- The SA behind `secy->tx_sc.sa[an]` is record `r`, and it is enabled. -/
def TxOn (c : MacsecConf) (j an r : Nat) : Prop := (c.secy j).txSc.sa an = some r ∧ (c.txSa r).enabled = true

/-- The map word of an SA in use. -/
def inUseWord (r : Nat) : BitVec 32 := field (word r) 0 7 ||| bit 15

/-- The map word of an SA that is no longer in use. -/
def idleWord (r : Nat) : BitVec 32 := field (word r) 0 7 ||| 0

theorem idleWord_bit (r : Nat) : (idleWord r).getLsbD 15 = false := by
  simp [idleWord, field]

theorem saInuse_egress (bus : PortBus H) (record sc an : Nat) (b : Bool) : saInuse bus record sc an .egress b =
    csrWr bus (scSaMapReg .egress 0 sc) (if b = true then inUseWord record else idleWord record) := by
  cases b <;> rfl

/-- The map entry `w` of SecY `j` and its encoding SA agree with its enabled SAs. -/
structure ActiveSa (c : MacsecConf) (w : BitVec 32) (j : Nat) : Prop where
  on : ∀ {an r}, TxOn c j an r → an = (c.secy j).txSc.encodingSa ∧ w = inUseWord r
  off : (∀ an r, ¬TxOn c j an r) → w.getLsbD 15 = false

/-- The same SAs are enabled, and the encoding SA of a SecY with enabled SAs is the same. -/
structure SameTx (c c' : MacsecConf) : Prop where
  on : ∀ j an r, TxOn c' j an r ↔ TxOn c j an r
  encoding : ∀ {j an r}, TxOn c j an r → (c'.secy j).txSc.encodingSa = (c.secy j).txSc.encodingSa

theorem SameTx.activeSa (h : SameTx c c') {w : BitVec 32} (ha : ActiveSa c w j) : ActiveSa c' w j where
  on ho := by
    rw [h.encoding ((h.on _ _ _).mp ho)]
    exact ha.on ((h.on _ _ _).mp ho)
  off hno := ha.off fun an r ho => hno an r ((h.on _ _ _).mpr ho)

theorem SameTx.of_txSc (hs : ∀ j, (c'.secy j).txSc = (c.secy j).txSc)
    (he : ∀ r, (c'.txSa r).enabled = (c.txSa r).enabled) : SameTx c c' where
  on j an r := by simp only [TxOn, hs, he]
  encoding _ := by rw [hs]

/-- SecY `i` has no SAs, before and after. -/
theorem SameTx.of_none (hne : ∀ j, j ≠ i → c'.secy j = c.secy j) (hsa : ∀ an, (c.secy i).txSc.sa an = none)
    (hsa' : ∀ an, (c'.secy i).txSc.sa an = none) (ht : c'.txSa = c.txSa) : SameTx c c' where
  on j an r := by
    by_cases hj : j = i
    · simp [TxOn, hj, hsa, hsa']
    · simp only [TxOn, hne j hj, ht]
  encoding {j an r} ho := by
    rw [hne j]
    rintro rfl
    simp [TxOn, hsa] at ho

theorem Inv.not_txOn (h : Inv c) (hu : (c.secy j).txSc.inUse = false) : ¬TxOn c j an r := fun ho => by
  rw [(h.tx_place ho.1).2] at hu
  cases hu

/-- Only switching the map and freeing an enabled SA change which SAs are enabled. -/
theorem Commit.sameTx {k : Kind} (hc : Commit i c k c') (h : Inv c) (hk : k ≠ .txSwitch) (hk' : k ≠ .txFree true) :
    SameTx c c' := by
  cases hc with
  | openSecy port conf hv => exact .of_txSc (setSecy_part Secy.txSc rfl) fun _ => rfl
  | settings f hf _ => exact .of_txSc (setSecy_part Secy.txSc hf.txSc) fun _ => rfl
  | clearSecy _ htx hrx hpat =>
    refine .of_none (i := i) (fun j hj => ?_) (fun an => ?_) (fun an => ?_) rfl
    · simp [MacsecConf.clearSecy, setSecy_secy, hj]
    · exact Option.eq_none_iff_forall_ne_some.mpr fun r hr => by simp [(h.tx_place hr).2] at htx
    · simp [MacsecConf.clearSecy]
  | openTxSc hi =>
    have hs := fun j => setSecy_part (c := c) (i := i) (f := fun s => { s with txSc := { s.txSc with inUse := true } })
      (fun s => (s.txSc.sa, s.txSc.encodingSa)) rfl j
    simp only [Prod.mk.injEq] at hs
    refine ⟨fun j an r => ?_, fun {j an r} _ => (hs j).2⟩
    simp only [TxOn, MacsecConf.openTxSc, (hs j).1, setSecy_txSa]
  | clearTxSc _ hsa =>
    refine .of_none (i := i) (fun j hj => ?_) hsa (fun an => ?_) rfl
    · simp [MacsecConf.clearTxSc, setSecy_secy, hj]
    · simp [MacsecConf.clearTxSc]
  | linkTxSa an r nextPn b sak ssci han hu hsa hr =>
    have hfree : (c.txSa r).enabled = false := by
      refine Bool.eq_false_iff.mpr fun he => ?_
      obtain ⟨j, an', hj⟩ := h.tx_enabled he
      have hu := h.ownedBy_inUse (txSa_owned hj)
      rw [(recordEmptyGet_spec hr).1] at hu
      cases hu
    have hen : ∀ r', ((MacsecConf.linkTxSa i c an r nextPn b sak ssci).txSa r').enabled = (c.txSa r').enabled := fun r' => by
      simp only [MacsecConf.linkTxSa, setTxSa_txSa]
      split
      · next hrr => rw [hrr]; rfl
      · rfl
    refine ⟨fun j an' r' => ?_, fun {j an' r'} _ => linkTxSa_part (fun s => s.txSc.encodingSa) (fun _ _ => rfl) j⟩
    simp only [TxOn, linkTxSa_sa, hen]
    split
    · next hj =>
      obtain ⟨rfl, rfl⟩ := hj
      refine iff_of_false ?_ (by simp [hsa])
      rintro ⟨hr', he⟩
      cases hr'
      rw [hfree] at he
      cases he
    · rfl
  | activateTxSa an b han hsa _ => exact absurd rfl hk
  | disableTxSa an _ _ => exact absurd rfl hk
  | freeTxSa an r hsa =>
    have hoff : (c.txSa r).enabled = false := by simpa using hk'
    refine ⟨fun j an' r' => ?_, fun {j an' r'} _ => setSecy_part (fun s => s.txSc.encodingSa) rfl j⟩
    simp only [TxOn, freeTxSa_sa, freeTxSa_txSa]
    by_cases hrr : r' = r
    · subst hrr
      simp [hoff]
    · rw [if_neg hrr]
      split
      · next hj =>
        obtain ⟨rfl, rfl⟩ := hj
        refine iff_of_false (by simp) ?_
        rintro ⟨hr', -⟩
        rw [hsa] at hr'
        exact hrr (Option.some.inj hr').symm
      · rfl
  | addRxSc sc p hw sci hi hp hsci => exact .of_txSc (addRxSc_part Secy.txSc fun _ _ => rfl) fun _ => rfl
  | updateRxScConf sc p conf hp =>
    rw [MacsecConf.updateRxScConf, setRxScAt_eq hp]
    exact .of_txSc (fun _ => rfl) fun _ => rfl
  | freeRxSc sc p hp hsa =>
    rw [freeRxSc_eq hp]
    exact .of_txSc (setSecy_part Secy.txSc rfl) fun _ => rfl
  | linkRxSa sc p an r lowestPn sak ssci hp han hsa hr =>
    rw [MacsecConf.linkRxSa, setRxScAt_eq hp]
    exact .of_txSc (fun _ => rfl) fun _ => rfl
  | flagRxSa sc p an b hp =>
    unfold MacsecConf.flagRxSa setRxSaAt
    split
    · exact .of_txSc (fun _ => rfl) fun _ => rfl
    · exact .of_txSc (fun _ => rfl) fun _ => rfl
  | freeRxSa sc p an r hp hsa =>
    have hp' : ((c.setRxSa r fun _ => {}).secy i).rxSc sc = some p := hp
    rw [MacsecConf.freeRxSa, setRxScAt_eq hp']
    exact .of_txSc (fun _ => rfl) fun _ => rfl
  | linkPattern a d r hi hpat hr =>
    refine .of_txSc (linkPattern_part Secy.txSc fun _ _ => rfl) fun r' => ?_
    cases d with
    | egress =>
      rw [linkPattern_txSa]
      split
      · next hrr => rw [hrr]
      · rfl
    | ingress => rfl
  | freePattern a d hi hpat =>
    refine .of_txSc (freePattern_part Secy.txSc fun _ _ _ => rfl) fun r' => ?_
    cases d with
    | egress =>
      rw [freePattern_txSa]
      split
      · next hrr => rw [hrr]
      · rfl
    | ingress => rfl

/-! ## The map -/

/-- The egress map word of slot `j`. -/
def mapWord (rf : PortRegs H) (h : H) (j : Nat) : BitVec 32 := rf.peek h (scSaMapReg .egress 0 j)

/-- The tables are linked and agree with the map words `mw`, the SecYs in use lie on page 0, and while `z` holds, SecY 0
has no enabled SA. -/
structure Good (z : Prop) (c : MacsecConf) (mw : Nat → BitVec 32) : Prop extends Inv c where
  slot : ∀ {j}, (c.secy j).inUse = true → j < scRecPage0Num
  active : ∀ {j}, j < scRecPage0Num → ActiveSa c (mw j) j
  zero : z → ∀ an r, ¬TxOn c 0 an r

section Map

variable {z : Prop} {mw mw' : Nat → BitVec 32} {sp : Scope} {rf : PortRegs H}

theorem Good.congr (h : Good z c mw) (hm : ∀ j, j < scRecPage0Num → mw' j = mw j) : Good z c mw' :=
  { h with
    active := fun {j} hj => hm j hj ▸ h.active hj }

theorem Good.commit {k : Kind} (h : Good z c mw) (hc : Commit i c k c') (hi : i < scRecPage0Num) (hk : k ≠ .txSwitch)
    (hk' : k ≠ .txFree true) : Good z c' mw :=
  { hc.inv h.toInv with
    slot := fun {j} hj => by
      by_cases hji : j = i
      · rwa [hji]
      · rw [(hc.sameSecy h.toInv hji).secy] at hj
        exact h.slot hj
    active := fun {j} hj => (hc.sameTx h.toInv hk hk').activeSa (h.active hj)
    zero := fun hz an r ho => h.zero hz an r (((hc.sameTx h.toInv hk hk').on 0 an r).mp ho) }

theorem mapPlace (j : Nat) (hj : j < 32) (b : Nat) : TablePlace .egress 0xE00 2 j (scSaMapReg .egress 0 j, b) :=
  scSaMapPlace (by omega) (by decide) rfl

theorem map_not_status (hj : j < 32) : ¬statusReg (scSaMapReg .egress 0 j) := by
  have hp := (mapPlace j hj 0).place
  unfold statusReg
  simp only at hp
  omega

/-- A call that does not switch the map has no access to it. -/
theorem map_not_allowed (hrecs : ∀ d, sp.recs d ≤ maxSa) (hg : c.glb.cleartags = true → sp.recs .egress ≤ 96)
    (hws : sp.hws ≤ maxRxSc) (hk : .txSwitch ∉ sp.kinds) (hi : i < 64) (hj : j < 32) {b : Nat} :
    (scSaMapReg .egress 0 j, b) ∉ allowed sp i c := by
  have hpl := mapPlace j hj b
  have hd : ∀ {d}, (scSaMapReg .egress 0 j).mmd = mmdId d → d = .egress := fun hm =>
    mmdId_inj (hm.symm.trans hpl.mmd)
  rintro ((((⟨d, r, hr, -, hm⟩ | ⟨d, hm⟩) | ⟨hsw, -⟩) | ⟨sc, q, -, hlt, hm⟩) | hm)
  · have hrp := recordPlace_of_mem (lt_of_lt_of_le hr (hrecs d)) hm
    obtain rfl := hd hrp.mmd
    exact hrp.not_map (fun hc => lt_of_lt_of_le hr (hg hc)) (Or.inl hj) hpl
  · have hf := (flowPlace_of_mem hi hm).place
    have := hpl.place
    omega
  · exact hk hsw
  · have hlt' : (c.rxSc q).hwScIdx < 64 := lt_of_lt_of_le hlt hws
    rcases hm with hm | hm
    · cases hd (mapPlace_of_mem hlt' hm).mmd
    · cases hd (camPlace_of_mem hlt' hm).mmd
  · have hs := sharedPlace_of_mem hm
    have := hpl.place
    simp only at hs this
    omega

theorem mapWord_of_hwSteps {W : Set (IoReg × Nat)} {h h' : H} (hs : HwSteps rf.toBus W h h') (hj : j < 32)
    (hW : ∀ b < 32, (scSaMapReg .egress 0 j, b) ∉ W) : mapWord rf h' j = mapWord rf h j :=
  rf.frame_word hs (map_not_status hj) hW

/-- A write of one map word leaves the others, and its own at worst as it was. -/
theorem mapWord_write {v : BitVec 32} {h : H} (hi : i < 32) (hj : j < 32) :
    mapWord rf (rf.wr (scSaMapReg .egress 0 i) v h).2 j = mapWord rf h j ∨
      (j = i ∧ mapWord rf (rf.wr (scSaMapReg .egress 0 i) v h).2 j = v) := by
  by_cases hji : j = i
  · subst hji
    cases hw : (rf.wr (scSaMapReg .egress 0 j) v h).1 with
    | ok u => exact Or.inr ⟨rfl, rf.peek_wr_ok _ v h (map_not_status hj) hw⟩
    | error e => exact (rf.peek_wr_error _ v h e (map_not_status hj) hw).imp_right fun hp => ⟨rfl, hp⟩
  · refine Or.inl (rf.peek_wr_ne _ _ v h (map_not_status hj) fun he => hji ?_)
    have hpi := (mapPlace i hi 0)
    rw [← he] at hpi
    exact (hpi.unique (mapPlace j hj 0) hi (by decide)).2

/-- Small steps that neither switch the map nor free an enabled SA keep `Good`. -/
theorem good_of_trace {s s' : Dev MacsecConf H} (ht : Relation.ReflTransGen (Micro rf.toBus sp i) s s')
    (hrecs : ∀ d, sp.recs d ≤ maxSa) (hg : s.conf.glb.cleartags = true → sp.recs .egress ≤ 96)
    (hws : sp.hws ≤ maxRxSc) (hk : .txSwitch ∉ sp.kinds) (hk' : .txFree true ∉ sp.kinds) (hi : i < scRecPage0Num)
    (hz : .egress ∈ sp.mapZero → z) (h : Good z s.conf (mapWord rf s.hw)) :
    s'.conf.glb = s.conf.glb ∧ Good z s'.conf (mapWord rf s'.hw) := by
  have hi32 : i < 32 := hi
  induction ht with
  | refl => exact ⟨rfl, h⟩
  | @tail t t' ht hm ih =>
    obtain ⟨hglb, ih⟩ := ih
    cases hm with
    | @hw c' h₁ h₂ hst =>
      refine ⟨hglb, ih.congr fun j hj => mapWord_of_hwSteps hst hj fun b hb => ?_⟩
      exact map_not_allowed hrecs (fun hc => hg (hglb ▸ hc)) hws hk (by omega) hj
    | sw hc hkind =>
      refine ⟨(hc.touched ih.toInv).glb.trans hglb, ih.commit hc hi ?_ ?_⟩
      · rintro rfl
        exact hk hkind
      · rintro rfl
        exact hk' hkind
    | @zero _ d record hd =>
      rw [final_saInuse_conf]
      refine ⟨hglb, ?_⟩
      cases d with
      | ingress =>
        have hw : Within (hwFrame rf.toBus (mapBits .ingress 0)) (saInuse rf.toBus record 0 0 .ingress false) :=
          within_saInuse subset_rfl
        refine ih.congr fun j hj => mapWord_of_hwSteps (hw t).2 hj fun b hb hm => ?_
        have := mmdId_inj ((mapPlace_of_mem (by decide) hm).mmd.symm.trans (mapPlace j hj b).mmd)
        cases this
      | egress =>
        have hno := ih.zero (hz hd)
        rw [saInuse_egress, csrWr, final_write]
        refine { ih with active := fun {j} hj => ?_ }
        have hw : mapWord rf (rf.wr (scSaMapReg .egress 0 0) (idleWord record) t.hw).2 j = mapWord rf t.hw j ∨
            (j = 0 ∧ mapWord rf (rf.wr (scSaMapReg .egress 0 0) (idleWord record) t.hw).2 j = idleWord record) :=
          mapWord_write (by decide) hj
        change ActiveSa t.conf (mapWord rf (rf.wr (scSaMapReg .egress 0 0) (idleWord record) t.hw).2 j) j
        generalize mapWord rf (rf.wr (scSaMapReg .egress 0 0) (idleWord record) t.hw).2 j = w at hw ⊢
        rcases hw with rfl | ⟨rfl, rfl⟩
        · exact ih.active hj
        · exact ⟨fun ho => (hno _ _ ho).elim, fun _ => idleWord_bit record⟩

end Map

/-! ## Switching the map -/

/-- The tables and the map words, on a device reached from `h₀` by accesses. -/
structure AtMap (rf : PortRegs H) (h₀ : H) (c : MacsecConf) (mw : Nat → BitVec 32) (s : Dev MacsecConf H) : Prop where
  conf : s.conf = c
  accessed : Accessed rf.toBus h₀ s.hw
  words : ∀ j, j < scRecPage0Num → mapWord rf s.hw j = mw j

section Switch

variable {rf : PortRegs H} {h₀ : H} {mw : Nat → BitVec 32} {z : Prop}

/-- Register accesses apart from the map. -/
theorem ends_atMap {x : Call H Unit} {W : Set (IoReg × Nat)}
    (hx : Ends (fun s => Accessed rf.toBus h₀ s.hw) x (fun _ s => Accessed rf.toBus h₀ s.hw) fun _ => False)
    (hw : Within (hwFrame rf.toBus W) x) (hW : ∀ j < 32, ∀ b < 32, (scSaMapReg .egress 0 j, b) ∉ W) :
    Ends (AtMap rf h₀ c mw) x (fun _ => AtMap rf h₀ c mw) fun _ => False := by
  have hframe : ∀ s s' : Dev MacsecConf H, (s.conf = c ∧ ∀ j, j < scRecPage0Num → mapWord rf s.hw j = mw j) →
      (hwFrame rf.toBus W).rel s s' → s'.conf = c ∧ ∀ j, j < scRecPage0Num → mapWord rf s'.hw j = mw j := by
    rintro s s' ⟨hc, hm⟩ ⟨hc', hst⟩
    exact ⟨hc'.trans hc, fun j hj => (mapWord_of_hwSteps hst hj fun b hb => hW j hj b hb).trans (hm j hj)⟩
  refine ((hx.framed hw hframe).pre fun s hs => ⟨hs.accessed, hs.conf, hs.words⟩).weaken ?_ fun _ hs => hs.1
  exact fun _ s hs => ⟨hs.2.1, hs.1, hs.2.2⟩

/-- Writing the map word of slot `i`. -/
theorem ends_saInuse (hs : rf.Sound h₀) (hi : i < scRecPage0Num) (b : Bool) :
    Ends (AtMap rf h₀ c mw) (saInuse rf.toBus r i an .egress b)
      (fun _ => AtMap rf h₀ c (Function.update mw i (if b = true then inUseWord r else idleWord r))) fun _ => False := by
  rw [saInuse_egress]
  generalize (if b = true then inUseWord r else idleWord r) = v
  rintro s ⟨hconf, hacc, hwords⟩
  have hok := (hs _ hacc).2 (scSaMapReg .egress 0 i) v
  refine Or.inl ⟨(), _, write_eq_ok rf.toBus Rc.access hok, hconf, .wr _ _ _ hacc, fun j hj => ?_⟩
  rw [Function.update_apply]
  split
  · next hji =>
    subst hji
    exact rf.peek_wr_ok _ _ _ (map_not_status hj) hok
  · next hji =>
    have hw : mapWord rf (rf.wr (scSaMapReg .egress 0 i) v s.hw).2 j = mapWord rf s.hw j :=
      (mapWord_write hi hj).resolve_right fun he => hji he.1
    exact hw.trans (hwords j hj)

theorem enable_not_map {d : Direction} (hr : r < maxSa) (hj : j < 32) {b : Nat} :
    (scSaMapReg .egress 0 j, b) ∉ enableBits d r := fun hm =>
  (recordPlace_of_mem (g := {}) hr (enable_of_record subset_rfl hm)).not_map (fun hc => by cases hc) (Or.inl hj)
    (mapPlace j hj b)

theorem ends_saEnable (hs : rf.Sound h₀) (hr : r < maxSa) (d : Direction) (b : Bool) :
    Ends (AtMap rf h₀ c mw) (saEnable rf.toBus r d b) (fun _ => AtMap rf h₀ c mw) fun _ => False := by
  refine ends_atMap ?_ (within_saEnable subset_rfl) fun j hj b _ => enable_not_map hr hj
  unfold saEnable
  refine Ends.ite (fun _ => Ends.ite (fun _ => ends_writeMasked Rc.access hs _ _ _) fun _ => ?_) fun _ =>
    ends_writeMasked Rc.access hs _ _ _
  exact Ends.pure fun s hs => hs

theorem ends_samEntryCtrl (hs : rf.Sound h₀) (d : Direction) (b : Bool) :
    Ends (AtMap rf h₀ c mw) (samEntryCtrl rf.toBus r d b) (fun _ => AtMap rf h₀ c mw) fun _ => False := by
  refine ends_atMap (ends_write Rc.access hs _ _) (within_samEntryCtrl subset_rfl) fun j hj b hb hm => ?_
  have hsh := sharedPlace_of_mem (samEntryBits_subset d hm)
  have hpl := (mapPlace j hj b).place
  simp only at hsh hpl
  omega

/-- The pipeline drains within the reads that the driver waits for it. -/
def Drains (bus : PortBus H) (d : Direction) (h : H) : Prop :=
  ∃ n < 99, ∃ v, (bus.rd (samInFlightReg d) (bus.rdN (samInFlightReg d) n h)).1 = .ok v ∧ field v 0 6 = 0

theorem saSamInFlightLoop_ok {bus : PortBus H} {d : Direction} (hs : bus.Sound h₀) : ∀ {m n : Nat} {s : Dev MacsecConf H},
    Accessed bus h₀ s.hw → n < m →
    (∃ v, (bus.rd (samInFlightReg d) (bus.rdN (samInFlightReg d) n s.hw)).1 = .ok v ∧ field v 0 6 = 0) →
    ∃ s', saSamInFlightLoop bus d (m + 1) s = .ok () s' ∧ Accessed bus h₀ s'.hw := by
  intro m
  induction m with
  | zero => intro n s _ hn; omega
  | succ m ih =>
    intro n s hacc hn hz
    obtain ⟨v, hv⟩ := (hs _ hacc).1 (samInFlightReg d)
    have hrd : csrRd bus (samInFlightReg d) s = .ok v { s with hw := (bus.rd (samInFlightReg d) s.hw).2 } :=
      read_eq_ok bus Rc.access hv
    have hacc' : Accessed bus h₀ (bus.rd (samInFlightReg d) s.hw).2 := .rd _ _ hacc
    have hloop : saSamInFlightLoop bus d (m + 1 + 1) s =
        (if field v 0 6 ≠ 0 then saSamInFlightLoop bus d (m + 1) else pure ())
          { s with hw := (bus.rd (samInFlightReg d) s.hw).2 } := by
      rw [saSamInFlightLoop]
      simp only [bind, EStateM.bind, hrd, if_neg (Nat.succ_ne_zero m)]
    rw [hloop]
    by_cases hv0 : field v 0 6 = 0
    · rw [if_neg (not_not.mpr hv0)]
      exact ⟨_, rfl, hacc'⟩
    · rw [if_pos hv0]
      cases n with
      | zero =>
        obtain ⟨v', hv', h0⟩ := hz
        simp only [Bus.rdN] at hv'
        rw [hv] at hv'
        cases hv'
        exact absurd h0 hv0
      | succ n => exact ih hacc' (by omega) hz

theorem ends_saSamInFlight (hs : rf.Sound h₀) {d : Direction}
    (hd : ∀ h, Accessed rf.toBus h₀ h → Drains rf.toBus d h) :
    Ends (AtMap rf h₀ c mw) (saSamInFlight rf.toBus d) (fun _ => AtMap rf h₀ c mw) fun _ => False := by
  refine ends_atMap (W := ∅) (fun s hacc => ?_) within_saSamInFlight fun _ _ _ _ => Set.notMem_empty _
  obtain ⟨n, hn, hz⟩ := hd _ hacc
  obtain ⟨s', hok, hacc'⟩ := saSamInFlightLoop_ok hs (m := 99) hacc hn hz
  exact Or.inl ⟨(), s', hok, hacc'⟩

theorem ends_modifyConf {f : MacsecConf → MacsecConf} :
    Ends (AtMap rf h₀ c mw) (modifyConf f : Call H PUnit) (fun _ => AtMap rf h₀ (f c) mw) fun _ => False :=
  Ends.modify fun _ hs => ⟨congrArg f hs.conf, hs.accessed, hs.words⟩

end Switch

/-! ## The two calls that switch the map -/

theorem SameSecy.activeSa (h : SameSecy c c' j) {w : BitVec 32} (ha : ActiveSa c w j) : ActiveSa c' w j := by
  have hon : ∀ an r, TxOn c' j an r ↔ TxOn c j an r := fun an r => by
    simp only [TxOn, h.secy]
    exact and_congr_right fun hr => by rw [h.txSa (txSa_owned hr)]
  exact
    { on := fun ho => by
        rw [h.secy]
        exact ha.on ((hon _ _).mp ho)
      off := fun hno => ha.off fun an r ho => hno an r ((hon _ _).mpr ho) }

section Calls

variable {rf : PortRegs H} {h₀ : H} {mw : Nat → BitVec 32} {z : Prop}

/-- Two association numbers with one record are one. -/
theorem Inv.an_inj (h : Inv c) {an' : Nat} (hr : (c.secy i).txSc.sa an = some r)
    (hr' : (c.secy i).txSc.sa an' = some r) : an' = an := by
  have := h.tx.inj (s := .sa i an') (t := .sa i an) hr' hr
  simpa using this

theorem disableTxSa_on (hr : (c.secy i).txSc.sa an = some r) (j an' r' : Nat) :
    TxOn (disableTxSa i c an) j an' r' ↔ TxOn c j an' r' ∧ r' ≠ r := by
  have hen : ((disableTxSa i c an).txSa r').enabled = true ↔ (c.txSa r').enabled = true ∧ r' ≠ r := by
    rw [disableTxSa_txSa hr]
    by_cases hrr : r' = r <;> simp [hrr]
  simp only [TxOn, disableTxSa_sa, hen, and_assoc]

/-- Disabling an SA keeps `Good`, with the map word cleared when it was the encoding one. -/
theorem Good.disableTxSa (h : Good z c mw) (hi : i < scRecPage0Num) (hr : (c.secy i).txSc.sa an = some r) :
    Good z (disableTxSa i c an)
      (if an = (c.secy i).txSc.encodingSa then Function.update mw i (idleWord r) else mw) := by
  have hc : Commit i c .txSwitch (MacsecConf.disableTxSa i c an) :=
    .disableTxSa an (h.tx_place hr).1 (by simp [hr])
  refine { hc.inv h.toInv with
    slot := fun {j} hj => ?_
    active := fun {j} hj => ?_
    zero := fun hz an' r' ho => h.zero hz an' r' ((disableTxSa_on hr 0 an' r').mp ho).1 }
  · by_cases hji : j = i
    · rwa [hji]
    · rw [(hc.sameSecy h.toInv hji).secy] at hj
      exact h.slot hj
  · by_cases hji : j = i
    · subst hji
      have ha := h.active hi
      split
      · next han =>
        refine ⟨fun ho => ?_, fun _ => by rw [Function.update_self, idleWord_bit]⟩
        obtain ⟨ho, hne⟩ := (disableTxSa_on hr j _ _).mp ho
        have hsa := ho.1
        rw [(ha.on ho).1, ← han, hr] at hsa
        exact absurd (Option.some.inj hsa).symm hne
      · next han =>
        have hen : ((MacsecConf.disableTxSa j c an).secy j).txSc.encodingSa = (c.secy j).txSc.encodingSa := by
          rw [disableTxSa_secy, if_pos rfl, if_neg han]
        refine ⟨fun ho => hen.symm ▸ ha.on ((disableTxSa_on hr j _ _).mp ho).1, fun hno => ha.off fun an' r' ho => ?_⟩
        refine hno an' r' ((disableTxSa_on hr j _ _).mpr ⟨ho, ?_⟩)
        rintro rfl
        exact han ((h.an_inj ho.1 hr).trans (ha.on ho).1)
    · have hw : (if an = (c.secy i).txSc.encodingSa then Function.update mw i (idleWord r) else mw) j = mw j := by
        split
        · rw [Function.update_of_ne hji]
        · rfl
      rw [hw]
      exact (hc.sameSecy h.toInv hji).activeSa (h.active hj)

theorem activateTxSa_on (h : Inv c) {w : BitVec 32} (ha : ActiveSa c w i) (hr : (c.secy i).txSc.sa an = some r)
    (an' r' : Nat) : TxOn (activateTxSa i c an (c.secy i).txSc.encodingSa
      (c.txSaAt i (c.secy i).txSc.encodingSa).enabled) i an' r' ↔ an' = an ∧ r' = r := by
  -- the old SA is disabled first, also when it is the one to be enabled
  obtain ⟨c₁, hc₁⟩ : ∃ c₁, (if (c.txSaAt i (c.secy i).txSc.encodingSa).enabled = true then
      c.setTxSaAt i (c.secy i).txSc.encodingSa fun sa => { sa with enabled := false, statusInUse := false }
      else c) = c₁ := ⟨_, rfl⟩
  have hsecy : c₁.secy = c.secy := by
    rw [← hc₁]
    split
    · exact setTxSaAt_secy
    · rfl
  have hold : ∀ {an' r'}, TxOn c i an' r' → (c₁.txSa r').enabled = false := fun {an' r'} ho => by
    have hsa := ho.1
    rw [(ha.on ho).1] at hsa
    rw [← hc₁, txSaAt_eq hsa, if_pos ho.2, setTxSaAt_txSa hsa, if_pos rfl]
  have hless : (c₁.txSa r').enabled = true → (c.txSa r').enabled = true := fun he => by
    rw [← hc₁] at he
    split at he
    · next hen =>
      cases hs : (c.secy i).txSc.sa (c.secy i).txSc.encodingSa with
      | none => simp [txSaAt, hs] at hen
      | some r₀ =>
        rw [setTxSaAt_txSa hs] at he
        split at he
        · cases he
        · exact he
    · exact he
  have hr₁ : (c₁.secy i).txSc.sa an = some r := by rw [hsecy, hr]
  have hsa : ((activateTxSa i c an (c.secy i).txSc.encodingSa
      (c.txSaAt i (c.secy i).txSc.encodingSa).enabled).secy i).txSc.sa = (c.secy i).txSc.sa := by
    rw [activateTxSa, hc₁, setSecy_secy_self, setTxSaAt_secy, hsecy]
  simp only [TxOn, hsa]
  rw [activateTxSa, hc₁, setSecy_txSa, setTxSaAt_txSa hr₁]
  constructor
  · rintro ⟨hs, he⟩
    split at he
    · next hrr => exact ⟨h.an_inj hr (hrr ▸ hs), hrr⟩
    · rw [hold ⟨hs, hless he⟩] at he
      cases he
  · rintro ⟨rfl, rfl⟩
    exact ⟨hr, by rw [if_pos rfl]⟩

/-- Activating an SA makes it the only enabled one. -/
theorem Good.activateTxSa (h : Good z c mw) (hi : i < scRecPage0Num) (hr : (c.secy i).txSc.sa an = some r) :
    Good False (activateTxSa i c an (c.secy i).txSc.encodingSa (c.txSaAt i (c.secy i).txSc.encodingSa).enabled)
      (Function.update mw i (inUseWord r)) := by
  have hc : Commit i c .txSwitch (MacsecConf.activateTxSa i c an (c.secy i).txSc.encodingSa
      (c.txSaAt i (c.secy i).txSc.encodingSa).enabled) := .activateTxSa an _ (h.tx_place hr).1 (by simp [hr]) rfl
  refine { hc.inv h.toInv with
    slot := fun {j} hj => ?_
    active := fun {j} hj => ?_
    zero := False.elim }
  · by_cases hji : j = i
    · rwa [hji]
    · rw [(hc.sameSecy h.toInv hji).secy] at hj
      exact h.slot hj
  · by_cases hji : j = i
    · subst hji
      have hon := activateTxSa_on h.toInv (h.active hi) hr
      refine ⟨fun ho => ?_, fun hno => absurd ((hon an r).mpr ⟨rfl, rfl⟩) (hno an r)⟩
      obtain ⟨rfl, rfl⟩ := (hon _ _).mp ho
      rw [Function.update_self]
      refine ⟨?_, rfl⟩
      simp [MacsecConf.activateTxSa]
    · rw [Function.update_of_ne hji]
      exact (hc.sameSecy h.toInv hji).activeSa (h.active hj)

/-- Some tables and map words that agree. -/
def GoodAt (rf : PortRegs H) (z : Prop) (h₀ : H) (s : Dev MacsecConf H) : Prop :=
  ∃ c mw, AtMap rf h₀ c mw s ∧ Good z c mw

theorem ends_txSaDisable (h : Good z c mw) (hs : rf.Sound h₀) (hi : i < scRecPage0Num) :
    Ends (AtMap rf h₀ c mw) (txSaDisable rf.toBus i an) (fun _ => GoodAt rf z h₀) (GoodAt rf z h₀) := by
  have hfail : ∀ s, AtMap rf h₀ c mw s → GoodAt rf z h₀ s := fun s hat => ⟨c, mw, hat, h⟩
  refine ends_getConf_bind (fun _ hat => hat.conf) ?_
  refine Ends.failIf_bind (fun s hat _ => hfail s hat) fun _ => Ends.failIf_bind (fun s hat _ => hfail s hat) fun hsa => ?_
  obtain ⟨r, hr⟩ := Option.ne_none_iff_exists'.mp hsa
  have hlt : r < maxSa := h.tx_lt (h.ownedBy_inUse (txSa_owned hr))
  rw [h.txSa_record hr]
  -- from here on nothing fails
  refine Ends.weaken (E := fun _ => False) ?_ (fun _ _ => id) fun _ => False.elim
  refine (Ends.orFail (ends_saEnable hs hlt _ _)).bind fun _ => ?_
  refine Ends.bind (Q := fun _ => AtMap rf h₀ c
    (if an = (c.secy i).txSc.encodingSa then Function.update mw i (idleWord r) else mw)) ?_ fun _ => ?_
  · refine Ends.when (fun han => ?_) fun han s hat => by rwa [if_neg han]
    rw [if_pos han]
    exact (Ends.orFail (ends_saInuse hs hi false)).bind fun _ => Ends.orFail (ends_samEntryCtrl hs _ _)
  · exact ends_modifyConf.weaken (fun _ s hat => ⟨_, _, hat, h.disableTxSa hi hr⟩) fun _ => id

theorem ends_txSaActivate (h : Good z c mw) (hs : rf.Sound h₀)
    (hd : ∀ h, Accessed rf.toBus h₀ h → Drains rf.toBus .egress h) (hi : i < scRecPage0Num) :
    Ends (AtMap rf h₀ c mw) (txSaActivate rf.toBus i an) (fun _ => GoodAt rf False h₀) (GoodAt rf False h₀) := by
  have hfail : ∀ s, AtMap rf h₀ c mw s → GoodAt rf False h₀ s := fun s hat => ⟨c, mw, hat, { h with zero := False.elim }⟩
  refine ends_getConf_bind (fun _ hat => hat.conf) ?_
  refine Ends.failIf_bind (fun s hat _ => hfail s hat) fun _ => Ends.failIf_bind (fun s hat _ => hfail s hat) fun hsa => ?_
  refine Ends.failIf_bind (fun s hat _ => hfail s hat) fun _ => ?_
  obtain ⟨r, hr⟩ := Option.ne_none_iff_exists'.mp hsa
  have hlt : ∀ {an r}, (c.secy i).txSc.sa an = some r → r < maxSa := fun hr => h.tx_lt (h.ownedBy_inUse (txSa_owned hr))
  rw [h.txSa_record hr]
  have hold : (((c.txSaAt i (c.secy i).txSc.encodingSa).enabled && decide ((c.secy i).txSc.encodingSa < saPerScMax)) =
      (c.txSaAt i (c.secy i).txSc.encodingSa).enabled) := by
    simp [h.tx_encoding i]
  simp only [hold]
  refine Ends.weaken (E := fun _ => False) ?_ (fun _ _ => id) fun _ => False.elim
  refine (Ends.orFail (ends_saInuse hs hi true)).bind fun _ => ?_
  refine (Ends.orFail (ends_saSamInFlight hs hd)).bind fun _ => ?_
  refine (Ends.orFail (ends_saEnable hs (hlt hr) _ _)).bind fun _ => ?_
  refine (Ends.when (fun hen => ?_) fun _ _ => id).bind fun _ => ?_
  · cases hro : (c.secy i).txSc.sa (c.secy i).txSc.encodingSa with
    | none => simp [txSaAt, hro] at hen
    | some r' =>
      rw [h.txSa_record hro]
      exact Ends.orFail (ends_saEnable hs (hlt hro) _ _)
  · exact ends_modifyConf.weaken (fun _ s hat => ⟨_, _, hat, h.activateTxSa hi hr⟩) fun _ => id

end Calls

end Lan80xx.Macsec
