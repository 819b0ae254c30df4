import Lan80xx.Macsec.TraceSecy
import Lan80xx.Macsec.Addresses

/-!
# MACsec: SecYs are isolated

A call for one SecY changes neither the tables (`SameSecy`) nor the register bits (`entryBits`) of another one, as long
as the other one lies on page 0 and the call does not clear its map entry (`Apart`). The first part is read off the
updates (`Commit.sameSecy`), the second from the bits the call may change and from where these lie.
-/

namespace Lan80xx.Macsec

open Fallible RegBus Ownership MacsecConf

variable {H : Type} {i j an : Nat} {c c' c₁ : MacsecConf} {E : Direction → Nat → Prop} {P : Nat → Prop}

/-! ## The tables of the other SecYs -/

/-- Besides SecY `i`, only SA records in `E` and entries of `rx_sc` in `P` have changed. -/
structure Touched (i : Nat) (E : Direction → Nat → Prop) (P : Nat → Prop) (c c' : MacsecConf) : Prop where
  glb : c'.glb = c.glb
  secy : ∀ j, j ≠ i → c'.secy j = c.secy j
  rxSc : ∀ p, ¬P p → c'.rxSc p = c.rxSc p
  txSa : ∀ r, ¬E .egress r → c'.txSa r = c.txSa r
  rxSa : ∀ r, ¬E .ingress r → c'.rxSa r = c.rxSa r

namespace Touched

theorem refl : Touched i E P c c := ⟨rfl, fun _ _ => rfl, fun _ _ => rfl, fun _ _ => rfl, fun _ _ => rfl⟩

theorem setSecy (h : Touched i E P c c₁) {f : Secy → Secy} : Touched i E P c (c₁.setSecy i f) :=
  { h with
    secy := fun j hj => by rw [setSecy_secy, if_neg hj, h.secy j hj] }

theorem setTxSa (h : Touched i E P c c₁) {r : Nat} {f : TxSa → TxSa} (hr : E .egress r) :
    Touched i E P c (c₁.setTxSa r f) :=
  { h with
    txSa := fun r' hr' => by
      rw [setTxSa_txSa, if_neg (by rintro rfl; exact hr' hr), h.txSa r' hr'] }

theorem setRxSa (h : Touched i E P c c₁) {r : Nat} {f : RxSa → RxSa} (hr : E .ingress r) :
    Touched i E P c (c₁.setRxSa r f) :=
  { h with
    rxSa := fun r' hr' => by
      rw [setRxSa_rxSa, if_neg (by rintro rfl; exact hr' hr), h.rxSa r' hr'] }

theorem setRxSc (h : Touched i E P c c₁) {p : Nat} {f : RxSc → RxSc} (hp : P p) :
    Touched i E P c (c₁.setRxSc p f) :=
  { h with
    rxSc := fun q hq => by
      rw [setRxSc_rxSc, if_neg (by rintro rfl; exact hq hp), h.rxSc q hq] }

theorem setTxSaAt (h : Touched i E P c c₁) {f : TxSa → TxSa}
    (hr : ∀ r, (c₁.secy i).txSc.sa an = some r → E .egress r) : Touched i E P c (c₁.setTxSaAt i an f) := by
  unfold MacsecConf.setTxSaAt
  split
  · next r hs => exact h.setTxSa (hr r hs)
  · exact h

theorem setSaInUse (h : Touched i E P c c₁) {d : Direction} {r : Nat} {b : Bool} (hr : E d r) :
    Touched i E P c (c₁.setSaInUse d r b) := by
  unfold MacsecConf.setSaInUse
  cases d
  · exact h.setRxSa hr
  · exact h.setTxSa hr

theorem setSaRecord (h : Touched i E P c c₁) {d : Direction} {r : Nat} (hr : E d r) :
    Touched i E P c (c₁.setSaRecord d r) := by
  unfold MacsecConf.setSaRecord
  cases d
  · exact h.setRxSa hr
  · exact h.setTxSa hr

theorem hwIdx {b : BitVec 64} : Touched i E P c { c with rxScHwIdxInUse := b } :=
  ⟨rfl, fun _ _ => rfl, fun _ _ => rfl, fun _ _ => rfl, fun _ _ => rfl⟩

end Touched

/-- A record that no other SecY owns. -/
def notOthers (c : MacsecConf) (i : Nat) (d : Direction) (r : Nat) : Prop := ∀ j, j ≠ i → ¬c.ownedBy d j r

/-- An entry of `rx_sc` that no other SecY points to. -/
def notOthersSc (c : MacsecConf) (i p : Nat) : Prop := ∀ j, j ≠ i → ∀ sc, (c.secy j).rxSc sc ≠ some p

section Others

variable {d : Direction} {r sc p : Nat}

theorem Inv.notOthers_of_owned (h : Inv c) (hr : c.ownedBy d i r) : notOthers c i d r :=
  fun _ hj ho => hj (h.ownedBy_unique ho hr)

theorem Inv.notOthers_of_free (h : Inv c) (hr : c.recordEmptyGet d = some r) : notOthers c i d r := fun _ _ ho => by
  have hu := h.ownedBy_inUse ho
  rw [(recordEmptyGet_spec hr).1] at hu
  cases hu

theorem Inv.notOthersSc_of_ptr (h : Inv c) (hp : (c.secy i).rxSc sc = some p) : notOthersSc c i p := fun j hj sc' hp' => by
  have := h.sc.inj (s := (j, sc')) (t := (i, sc)) hp' hp
  simp_all

theorem Inv.notOthersSc_of_free (h : Inv c) (hp : (c.rxSc p).inUse = false) : notOthersSc c i p := fun j _ sc' hp' => by
  have hu := h.sc.live (s := (j, sc')) hp'
  rw [hp] at hu
  cases hu

/-- An update for SecY `i` touches what is its own, and what was nobody's. -/
theorem Commit.touched {k : Kind} (hc : Commit i c k c') (h : Inv c) : Touched i (notOthers c i) (notOthersSc c i) c c' := by
  cases hc with
  | openSecy port conf hv => exact Touched.refl.setSecy
  | settings f hf _ => exact Touched.refl.setSecy
  | clearSecy _ htx hrx hpat => exact Touched.refl.setSecy
  | openTxSc hi => exact Touched.refl.setSecy
  | clearTxSc _ hsa => exact Touched.refl.setSecy
  | linkTxSa an r nextPn b sak ssci han hu hsa hr => exact Touched.refl.setSecy.setTxSa (h.notOthers_of_free hr)
  | activateTxSa an b han hsa _ =>
    have hown : ∀ an r, (c.secy i).txSc.sa an = some r → notOthers c i .egress r := fun an r hr =>
      h.notOthers_of_owned (txSa_owned hr)
    unfold MacsecConf.activateTxSa
    refine Touched.setSecy (Touched.setTxSaAt ?_ fun r hr => hown an r ?_)
    · split
      · exact Touched.refl.setTxSaAt (hown _)
      · exact .refl
    · split at hr
      · rwa [setTxSaAt_secy] at hr
      · exact hr
  | disableTxSa an _ _ =>
    refine Touched.setTxSaAt Touched.refl.setSecy fun r hr => h.notOthers_of_owned (Or.inl ⟨an, ?_⟩)
    rw [setSecy_secy_self] at hr
    simp only at hr
    split at hr <;> exact hr
  | freeTxSa an r hsa => exact (Touched.refl.setTxSa (h.notOthers_of_owned (txSa_owned hsa))).setSecy
  | addRxSc sc p hw sci hi hp hsci =>
    have hp := (rxScPlace_spec hp).2.1.2
    unfold MacsecConf.addRxSc
    refine Touched.setRxSc (Touched.setSecy ?_) (h.notOthersSc_of_free hp)
    exact .hwIdx
  | updateRxScConf sc p conf hp =>
    rw [MacsecConf.updateRxScConf, setRxScAt_eq hp]
    exact Touched.refl.setRxSc (h.notOthersSc_of_ptr hp)
  | freeRxSc sc p hp hsa =>
    rw [freeRxSc_eq hp]
    refine Touched.setSecy (Touched.setRxSc ?_ (h.notOthersSc_of_ptr hp))
    exact .hwIdx
  | linkRxSa sc p an r lowestPn sak ssci hp han hsa hr =>
    rw [MacsecConf.linkRxSa, setRxScAt_eq hp]
    exact (Touched.refl.setRxSc (h.notOthersSc_of_ptr hp)).setRxSa (h.notOthers_of_free hr)
  | flagRxSa sc p an b hp =>
    unfold MacsecConf.flagRxSa setRxSaAt
    split
    · next r hr =>
      rw [rxScAt_eq hp] at hr
      exact Touched.refl.setRxSa (h.notOthers_of_owned (rxSa_owned hp hr))
    · exact .refl
  | freeRxSa sc p an r hp hsa =>
    have hp' : ((c.setRxSa r fun _ => {}).secy i).rxSc sc = some p := hp
    rw [MacsecConf.freeRxSa, setRxScAt_eq hp']
    exact (Touched.refl.setRxSa (h.notOthers_of_owned (rxSa_owned hp hsa))).setRxSc (h.notOthersSc_of_ptr hp)
  | linkPattern a d r hi hpat hr =>
    have hr := h.notOthers_of_free (i := i) hr
    unfold MacsecConf.linkPattern MacsecConf.setPatternRecord
    exact Touched.setSecy (Touched.setSaInUse (Touched.setSaRecord .refl hr) hr)
  | freePattern a d hi hpat =>
    unfold MacsecConf.freePattern MacsecConf.setPattern MacsecConf.setPatternRecord
    exact Touched.setSecy (Touched.setSecy (Touched.setSaInUse .refl (h.notOthers_of_owned (pattern_owned hi hpat))))

end Others

/-- SecY `j` and everything it points to is the same in both tables. -/
structure SameSecy (c c' : MacsecConf) (j : Nat) : Prop where
  glb : c'.glb = c.glb
  secy : c'.secy j = c.secy j
  rxSc : ∀ {sc p}, (c.secy j).rxSc sc = some p → c'.rxSc p = c.rxSc p
  txSa : ∀ {r}, c.ownedBy .egress j r → c'.txSa r = c.txSa r
  rxSa : ∀ {r}, c.ownedBy .ingress j r → c'.rxSa r = c.rxSa r

namespace SameSecy

theorem refl : SameSecy c c j := ⟨rfl, rfl, fun _ => rfl, fun _ => rfl, fun _ => rfl⟩

/-- The SecY owns the same records in both. -/
theorem ownedBy (h : SameSecy c c' j) (d : Direction) (r : Nat) : c'.ownedBy d j r ↔ c.ownedBy d j r := by
  have hpat : ∀ a, c'.saOwner d (.pattern j a) = c.saOwner d (.pattern j a) := fun a =>
    saOwner_pattern_congr (by rw [h.secy]) (by rw [h.secy])
  unfold MacsecConf.ownedBy
  refine or_congr ?_ (exists_congr fun a => by rw [hpat])
  cases d with
  | egress => simp only [h.secy]
  | ingress =>
    simp only [h.secy]
    refine exists_congr fun sc => exists_congr fun p => exists_congr fun an => and_congr_right fun hp => ?_
    rw [h.rxSc hp]

theorem trans (h : SameSecy c c₁ j) (h' : SameSecy c₁ c' j) : SameSecy c c' j where
  glb := h'.glb.trans h.glb
  secy := h'.secy.trans h.secy
  rxSc hp := (h'.rxSc (by rwa [h.secy])).trans (h.rxSc hp)
  txSa hr := (h'.txSa ((h.ownedBy _ _).mpr hr)).trans (h.txSa hr)
  rxSa hr := (h'.rxSa ((h.ownedBy _ _).mpr hr)).trans (h.rxSa hr)

end SameSecy

theorem Commit.sameSecy {k : Kind} (hc : Commit i c k c') (h : Inv c) (hj : j ≠ i) : SameSecy c c' j := by
  have ht := hc.touched h
  exact
    { glb := ht.glb
      secy := ht.secy j hj
      rxSc := fun hp => ht.rxSc _ fun hn => hn j hj _ hp
      txSa := fun hr => ht.txSa _ fun hn => hn j hj hr
      rxSa := fun hr => ht.rxSa _ fun hn => hn j hj hr }

/-! ## The entries of the other SecYs -/

/-- The register bits that belong to SecY `j`: the entries of its records, its flow control words and its egress map
entry, and the ingress map entry and CAM key of each of its receive channels. -/
def entryBits (c : MacsecConf) (j : Nat) : Set (IoReg × Nat) :=
  {b | ∃ d r, c.ownedBy d j r ∧ b ∈ recordBits c.glb d r} ∪ {b | ∃ d, b ∈ flowBits d j} ∪ mapBits .egress j ∪
    {b | ∃ sc p, (c.secy j).rxSc sc = some p ∧
      (b ∈ mapBits .ingress (c.rxSc p).hwScIdx ∨ b ∈ camBits (c.rxSc p).hwScIdx)}

theorem SameSecy.entryBits (h : SameSecy c c' j) : entryBits c' j = entryBits c j := by
  have hown : ∀ d r, c'.ownedBy d j r = c.ownedBy d j r := fun d r => propext (h.ownedBy d r)
  unfold Macsec.entryBits
  simp only [hown, h.glb, h.secy]
  congr 1
  ext b
  refine exists_congr fun sc => exists_congr fun p => and_congr_right fun hp => ?_
  rw [h.rxSc hp]

/-- SecY `j` lies on page 0. -/
structure OnPage0 (c : MacsecConf) (j : Nat) : Prop where
  slot : j < scRecPage0Num
  record : ∀ {d r}, c.ownedBy d j r → r < xformRecNumPage0
  channel : ∀ {sc p}, (c.secy j).rxSc sc = some p → (c.rxSc p).hwScIdx < scRecPage0Num

/-- The map entry of number 0 belongs to SecY `j`. -/
def hasMapZero (c : MacsecConf) (j : Nat) : Direction → Prop
  | .egress => j = 0
  | .ingress => ∃ sc p, (c.secy j).rxSc sc = some p ∧ (c.rxSc p).hwScIdx = 0

theorem SameSecy.onPage0 (h : SameSecy c c' j) (hp : OnPage0 c j) : OnPage0 c' j where
  slot := hp.slot
  record hr := hp.record ((h.ownedBy _ _).mp hr)
  channel hq := by
    rw [h.secy] at hq
    rw [h.rxSc hq]
    exact hp.channel hq

theorem SameSecy.hasMapZero (h : SameSecy c c' j) {d : Direction} (hz : hasMapZero c' j d) : hasMapZero c j d := by
  cases d with
  | egress => exact hz
  | ingress =>
    obtain ⟨sc, p, hp, h0⟩ := hz
    rw [h.secy] at hp
    rw [h.rxSc hp] at h0
    exact ⟨sc, p, hp, h0⟩

/-- Where the entries of a SecY on page 0 lie. -/
inductive EntryPlace (c : MacsecConf) (j : Nat) (p : IoReg × Nat) : Prop
  | record {d r} (hr : c.ownedBy d j r) (hlt : r < 64) (h : RecordPlace c.glb d r p)
  | flow {d} (h : TablePlace d 0x1C00 2 j p)
  | map (h : TablePlace .egress 0xE00 2 j p)
  | channelMap {sc q} (hq : (c.secy j).rxSc sc = some q) (hlt : (c.rxSc q).hwScIdx < 32)
      (h : TablePlace .ingress 0xE00 2 (c.rxSc q).hwScIdx p)
  | cam {sc q} (hq : (c.secy j).rxSc sc = some q) (hlt : (c.rxSc q).hwScIdx < 32)
      (h : TablePlace .ingress 0xD00 4 (c.rxSc q).hwScIdx p)

theorem entryPlace_of_mem {p : IoReg × Nat} (hp : OnPage0 c j) (h : p ∈ entryBits c j) :
    EntryPlace c j p := by
  have hj : j < 32 := hp.slot
  rcases h with ((⟨d, r, hr, h⟩ | ⟨d, h⟩) | h) | ⟨sc, q, hq, h⟩
  · have hlt : r < 64 := hp.record hr
    exact .record hr hlt (recordPlace_of_mem (by omega) h)
  · exact .flow (flowPlace_of_mem (by omega) h)
  · exact .map (mapPlace_of_mem (by omega) h)
  · have hlt : (c.rxSc q).hwScIdx < 32 := hp.channel hq
    rcases h with h | h
    · exact .channelMap hq hlt (mapPlace_of_mem (by omega) h)
    · exact .cam hq hlt (camPlace_of_mem (by omega) h)

/-- The entries of a SecY on page 0 lie in the tables. -/
theorem EntryPlace.addr {p : IoReg × Nat} (hj : j < 32) (h : EntryPlace c j p) :
    p.1.addr < 0xC40 ∨ (0xD00 ≤ p.1.addr ∧ p.1.addr < 0xD80) ∨ (0xE00 ≤ p.1.addr ∧ p.1.addr < 0xE40) ∨
      (0x1820 ≤ p.1.addr ∧ p.1.addr < 0x1840) ∨ (0x1C00 ≤ p.1.addr ∧ p.1.addr < 0x1C40) := by
  rcases h with ⟨-, hlt, h⟩ | h | h | ⟨-, hlt, h⟩ | ⟨-, hlt, h⟩
  · have hpl := h.bounded (n := 64) fun _ => hlt
    omega
  all_goals
    have hpl := h.place
    omega

/-- None of these registers is one that the device changes. -/
theorem EntryPlace.not_status {p : IoReg × Nat} (hj : j < 32) (h : EntryPlace c j p) : ¬statusReg p.1 := by
  intro hs
  have ha := h.addr hj
  unfold statusReg at hs
  omega

section Disjoint

variable {sp : Scope} {p : IoReg × Nat}

theorem EntryPlace.not_shared (hj : j < 32) (h : EntryPlace c j p) : p ∉ sharedBits := by
  intro hs
  have ha := h.addr hj
  have hs := sharedPlace_of_mem hs
  omega

theorem EntryPlace.not_record (hj : j < 32) (h : EntryPlace c j p) {d : Direction} {r : Nat}
    (ho : ¬c.ownedBy d j r) (hg : c.glb.cleartags = true → r < 64) : ¬RecordPlace c.glb d r p := by
  intro hr
  have hp := hr.bounded hg
  have hlt' := hr.lt
  rcases h with ⟨hown, hlt, h⟩ | h | h | ⟨-, hlt, h⟩ | ⟨-, hlt, h⟩
  · obtain ⟨rfl, rfl⟩ := h.unique hr hlt hg
    exact ho hown
  all_goals
    have hpl := h.place
    omega

theorem EntryPlace.not_flow (hj : j < 32) (h : EntryPlace c j p) {d : Direction} {k : Nat} (hk : k ≠ j) :
    ¬TablePlace d 0x1C00 2 k p := by
  intro hf
  have hp := hf.place
  rcases h with ⟨-, hlt, h⟩ | h | h | ⟨-, hlt, h⟩ | ⟨-, hlt, h⟩
  · have hpl := h.bounded (n := 64) fun _ => hlt
    omega
  all_goals
    have hpl := h.place
    omega

theorem EntryPlace.not_map (hj : j < 32) (h : EntryPlace c j p) {d : Direction} {k : Nat} (he : d = .egress → k ≠ j)
    (hi : d = .ingress → ∀ sc q, (c.secy j).rxSc sc = some q → (c.rxSc q).hwScIdx ≠ k) :
    ¬TablePlace d 0xE00 2 k p := by
  intro hf
  have hp := hf.place
  rcases h with ⟨-, hlt, h⟩ | h | h | ⟨hq, hlt, h⟩ | ⟨-, hlt, h⟩
  · exact h.not_map (fun _ => by omega) (Or.inr hlt) hf
  · have hpl := h.place
    omega
  · obtain ⟨hd, hk⟩ := h.unique hf hj (by decide)
    exact he hd hk
  · obtain ⟨hd, hk⟩ := h.unique hf hlt (by decide)
    exact hi hd _ _ hq hk.symm
  · have hpl := h.place
    omega

theorem EntryPlace.not_cam (hj : j < 32) (h : EntryPlace c j p) {k : Nat}
    (hi : ∀ sc q, (c.secy j).rxSc sc = some q → (c.rxSc q).hwScIdx ≠ k) : ¬TablePlace .ingress 0xD00 4 k p := by
  intro hf
  have hp := hf.place
  rcases h with ⟨-, hlt, h⟩ | h | h | ⟨-, hlt, h⟩ | ⟨hq, hlt, h⟩
  · have hpl := h.bounded (n := 64) fun _ => hlt
    omega
  any_goals
    have hpl := h.place
    omega
  exact hi _ _ hq (h.unique hf hlt (by decide)).2.symm

/-- What a call for SecY `i` may change is disjoint from the entries of a SecY `j` on page 0. -/
theorem not_allowed (h : Inv c) (hj : j ≠ i) (hi : i < maxSecy) (hp : OnPage0 c j) (hrecs : ∀ d, sp.recs d ≤ maxSa)
    (hg : c.glb.cleartags = true → ∀ d, sp.recs d ≤ xformRecNumPage0) (hws : sp.hws ≤ maxRxSc)
    (hm : p ∈ entryBits c j) : p ∉ allowed sp i c := by
  have hpl := entryPlace_of_mem hp hm
  have hj32 : j < 32 := hp.slot
  have hi64 : i < 64 := hi
  rintro ((((⟨d, r, hr, ho, hm⟩ | ⟨d, hm⟩) | ⟨-, hm⟩) | ⟨sc, q, hq, hlt, hm⟩) | hm)
  · have hr' : r < 128 := lt_of_lt_of_le hr (hrecs d)
    exact hpl.not_record hj32 (ho j hj) (fun hc => lt_of_lt_of_le hr (hg hc d)) (recordPlace_of_mem hr' hm)
  · exact hpl.not_flow hj32 hj.symm (flowPlace_of_mem hi64 hm)
  · exact hpl.not_map hj32 (fun _ => hj.symm) (fun he => by cases he) (mapPlace_of_mem hi64 hm)
  · have hlt' : (c.rxSc q).hwScIdx < 64 := lt_of_lt_of_le hlt hws
    have hne : ∀ sc' q', (c.secy j).rxSc sc' = some q' → (c.rxSc q').hwScIdx ≠ (c.rxSc q).hwScIdx := by
      intro sc' q' hq' he
      have hqq := h.hw_inj (h.sc.live (s := (j, sc')) hq') (h.sc.live (s := (i, sc)) hq) he
      subst hqq
      have := h.sc.inj (s := (j, sc')) (t := (i, sc)) hq' hq
      simp_all
    rcases hm with hm | hm
    · exact hpl.not_map hj32 (fun he => by cases he) (fun _ => hne) (mapPlace_of_mem hlt' hm)
    · exact hpl.not_cam hj32 hne (camPlace_of_mem hlt' hm)
  · exact hpl.not_shared hj32 hm

/-- Map entry 0 is disjoint from the entries of a SecY that it does not belong to. -/
theorem not_mapZero (hp : OnPage0 c j) {d : Direction} (hz : ¬hasMapZero c j d)
    (hm : p ∈ entryBits c j) : p ∉ mapBits d 0 := by
  intro hm'
  refine (entryPlace_of_mem hp hm).not_map hp.slot (d := d) (k := 0) (fun he h0 => hz ?_)
    (fun he sc q hq h0 => hz ?_) (mapPlace_of_mem (by decide) hm')
  · rw [he]
    exact h0.symm
  · rw [he]
    exact ⟨sc, q, hq, h0⟩

end Disjoint

/-! ## Calls -/

/-- SecY `j` and the contents of its entries are the same in both states. -/
structure Kept (rf : PortRegs H) (j : Nat) (s s' : Dev MacsecConf H) : Prop where
  tables : SameSecy s.conf s'.conf j
  entries : ∀ {q b}, b < 32 → (q, b) ∈ entryBits s.conf j →
    (rf.peek s'.hw q).getLsbD b = (rf.peek s.hw q).getLsbD b

/-- SecY `j` lies on page 0, the call does not clear its map entry, and in the header-bypass mode all records lie on
page 0. -/
structure Apart (op : Op) (i : Nat) (c : MacsecConf) (j : Nat) : Prop where
  page0 : OnPage0 c j
  mapZero : ∀ d ∈ op.zeroDirs c i, ¬hasMapZero c j d
  bypass : c.glb.cleartags = true → (∀ d r, c.saInUse d r = true → r < xformRecNumPage0) ∧
    ∀ d r, op.allocDir = some d → c.recordEmptyGet d = some r → r < xformRecNumPage0

/-- The scope of a call: in the header-bypass mode it is confined to page 0. -/
def Op.pageScope (op : Op) (i : Nat) (c : MacsecConf) : Scope :=
  { op.scope i c with recs := fun _ => if c.glb.cleartags then xformRecNumPage0 else maxSa }

theorem Op.pageScope_recs_le (op : Op) (d : Direction) : (op.pageScope i c).recs d ≤ maxSa := by
  simp only [Op.pageScope]
  split <;> decide

theorem Inv.fits_pageScope (h : Inv c) {op : Op} (ha : Apart op i c j) : Fits (op.pageScope i c) c where
  recs {d r} hu := by
    simp only [Op.pageScope]
    split
    · next hc => exact (ha.bypass hc).1 d r hu
    · exact (h.fits_scope (i := i) op).recs hu
  hws hu := h.hw_lt hu

theorem Apart.inScope {op : Op} (ha : Apart op i c j) : op.InScope (op.pageScope i c) i c where
  kinds := subset_rfl
  zero := subset_rfl
  alloc d r hd hr := by
    simp only [Op.pageScope]
    split
    · next hc => exact (ha.bypass hc).2 d r hd hr
    · exact (recordEmptyGet_spec hr).2

theorem Op.slot_lt {op : Op} {port : MacsecPort} (h : op.slot c port = some i) : i < maxSecy := by
  cases op <;> first
    | exact (portFind_spec h).1
    | skip
  cases hv : portVacancy c port with
  | ok j =>
    simp only [Op.slot, hv, Except.toOption, Option.some.injEq] at h
    exact h ▸ (portVacancy_ok hv).1
  | error e => simp [Op.slot, hv, Except.toOption] at h

/-- Small steps for SecY `i` keep SecY `j`. -/
theorem kept_of_trace {rf : PortRegs H} {sp : Scope} {s s' : Dev MacsecConf H}
    (ht : Relation.ReflTransGen (Micro rf.toBus sp i) s s') (h : Inv s.conf) (hj : j ≠ i) (hi : i < maxSecy)
    (hp : OnPage0 s.conf j) (hrecs : ∀ d, sp.recs d ≤ maxSa)
    (hg : s.conf.glb.cleartags = true → ∀ d, sp.recs d ≤ xformRecNumPage0)
    (hws : sp.hws ≤ maxRxSc) (hz : ∀ d ∈ sp.mapZero, ¬hasMapZero s.conf j d) : Kept rf j s s' := by
  induction ht with
  | refl => exact ⟨.refl, fun _ _ => rfl⟩
  | @tail t t' ht hm ih =>
    have hin := trace_inv ht h
    cases hm with
    | @hw c' h₁ h₂ hst =>
      refine ⟨ih.tables, fun {q b} hb hmem => (Eq.trans ?_ (ih.entries hb hmem) : _)⟩
      have hmem' : (q, b) ∈ entryBits c' j := by rwa [ih.tables.entryBits]
      have hp' := ih.tables.onPage0 hp
      refine rf.frame_bit hst ((entryPlace_of_mem hp' hmem').not_status hp'.slot) hb ?_
      exact not_allowed hin hj hi hp' hrecs (fun hc => hg (ih.tables.glb ▸ hc)) hws hmem'
    | sw hc _ => exact ⟨ih.tables.trans (hc.sameSecy hin hj), ih.entries⟩
    | @zero _ d record hd =>
      have hw : Within (hwFrame rf.toBus (mapBits d 0)) (saInuse rf.toBus record 0 0 d false) :=
        within_saInuse subset_rfl
      obtain ⟨hconf, hst⟩ := hw t
      refine ⟨hconf.symm ▸ ih.tables, fun {q b} hb hmem => (Eq.trans ?_ (ih.entries hb hmem) : _)⟩
      have hmem' : (q, b) ∈ entryBits t.conf j := by rwa [ih.tables.entryBits]
      have hp' := ih.tables.onPage0 hp
      refine rf.frame_bit hst ((entryPlace_of_mem hp' hmem').not_status hp'.slot) hb ?_
      exact not_mapZero hp' (fun hz' => hz d hd (ih.tables.hasMapZero hz')) hmem'

/-- A call for one SecY keeps every other SecY that it is apart from. -/
theorem kept_call {rf : PortRegs H} {s : Dev MacsecConf H} (h : Inv s.conf) {op : Op} {port : MacsecPort}
    (hi : op.slot s.conf port = some i) (hj : j ≠ i) (ha : Apart op i s.conf j) :
    Kept rf j s (final (op.call rf.toBus port) s) := by
  have hslot : ∀ k, op.slot s.conf port = some k → k = i := fun k hk => by
    rw [hi] at hk
    exact (Option.some.inj hk).symm
  have ht : Relation.ReflTransGen (Micro rf.toBus (op.pageScope i s.conf) i) s (final (op.call rf.toBus port) s) :=
    trace_op h (h.fits_pageScope ha) hslot ha.inScope
  refine kept_of_trace ht h hj (Op.slot_lt hi) ha.page0 op.pageScope_recs_le (fun hc d => ?_) le_rfl ha.mapZero
  simp only [Op.pageScope, if_pos hc]
  exact le_rfl

/-! ## Reachable states -/

/-- Every other SecY in use is kept by the call. -/
def Isolated (rf : PortRegs H) (port : MacsecPort) (op : Op) (s : Dev MacsecConf H) : Prop :=
  ∀ i j, op.slot s.conf port = some i → j ≠ i → (s.conf.secy j).inUse = true →
    Kept rf j s (final (op.call rf.toBus port) s)

/-- The words of the transform records lie apart from each other and from every other entry that the calls write. -/
def XformApart : Prop :=
  ∀ d d' r r' n, r < maxSa → r' < maxSa → n < xformRecSize →
    (∀ n' < xformRecSize, xformReg d r n = xformReg d' r' n' → d = d' ∧ r = r' ∧ n = n') ∧
    (∀ w, xformReg d r n ≠ tcamReg d' w r' ∧ xformReg d r n ≠ tcamPage0Reg d' w r') ∧
    xformReg d r n ≠ tcamPolicyReg d' r' ∧
    ∀ k < maxSecy, ∀ m < 2, xformReg d r n ≠ flowCtrlReg d' m k ∧ xformReg d r n ≠ scSaMapReg d' m k

/-- The words of the transform records lie apart, except that those of the records 96 and 97 are policies of page 1. -/
def XformApartButPolicies : Prop :=
  ∀ d d' r r' n, r < maxSa → r' < maxSa → n < xformRecSize →
    (∀ n' < xformRecSize, xformReg d r n = xformReg d' r' n' → d = d' ∧ r = r' ∧ n = n') ∧
    (∀ w, xformReg d r n ≠ tcamReg d' w r' ∧ xformReg d r n ≠ tcamPage0Reg d' w r') ∧
    (xformReg d r n = tcamPolicyReg d' r' ↔ d = d' ∧ 64 ≤ r' ∧ 96 ≤ r ∧ 32 * (r - 96) + n = r' - 64) ∧
    ∀ k < maxSecy, ∀ m < 2, xformReg d r n ≠ flowCtrlReg d' m k ∧ xformReg d r n ≠ scSaMapReg d' m k

theorem xformApartButPolicies : XformApartButPolicies := fun _ _ _ _ _ hr hr' hn =>
  ⟨fun _ hn' => xformReg_inj hr hn hr' hn', xformReg_ne_tcam hr hn hr', xformReg_eq_policy hr hn hr', fun _ hk _ hm =>
    ⟨xformReg_ne_flow hr hn hk hm, xformReg_ne_map hr hn hk hm⟩⟩

/-- From a reachable state, a call for one SecY keeps every other SecY that it is apart from, and the words of the transform
records lie apart except for the policies of page 1. -/
theorem isolated_of_apart (rf : PortRegs H) (s : Dev MacsecConf H) (port : MacsecPort) (op : Op)
    (hs : Reachable rf.toBus s)
    (ha : ∀ i j, op.slot s.conf port = some i → j ≠ i → (s.conf.secy j).inUse = true → Apart op i s.conf j) :
    Isolated rf port op s ∧ XformApartButPolicies := by
  refine ⟨fun i j hi hj hu => ?_, xformApartButPolicies⟩
  exact kept_call (reachable_inv hs) hi hj (ha i j hi hj hu)

/-- Two SecYs; the first one transmits, the second one has an egress pattern. -/
def twoSecys : Dev MacsecConf (IoReg → BitVec 32) :=
  calls bench.toBus [(benchPort 1, .secyConfAdd benchSecy), (benchPort 1, .txScSet),
    (benchPort 1, .txSaSet 0 1 true {} none), (benchPort 1, .txSaActivate 0), (benchPort 2, .secyConfAdd benchSecy),
    (benchPort 2, .patternSet .egress .uncontrolledPort {})] benchInit

theorem isolated_of_apart_twoSecys : Isolated bench (benchPort 2) (.patternSet .egress .drop {}) twoSecys := by
  refine (isolated_of_apart bench twoSecys _ _ (reachable_bench _) fun i j _ _ hu => ?_).1
  have h : Inv twoSecys.conf := reachable_inv (reachable_bench _)
  have hsecys : ∀ j < maxSecy, (twoSecys.conf.secy j).inUse = true → j < 32 := by decide +kernel
  have htx : ∀ r < maxSa, (twoSecys.conf.txSa r).inUse = true → r < 64 := by decide +kernel
  have hrx : ∀ r < maxSa, (twoSecys.conf.rxSa r).inUse = false := by decide +kernel
  have hsc : ∀ p < maxRxSc, (twoSecys.conf.rxSc p).inUse = false := by decide +kernel
  refine ⟨⟨hsecys j (h.secy_lt hu) hu, fun {d r} hr => ?_, fun {sc p} hp => ?_⟩, fun d hd => hd.elim, fun hc => ?_⟩
  · have hr := h.ownedBy_inUse hr
    cases d with
    | egress => exact htx r (h.tx_lt hr) hr
    | ingress => exact absurd hr (by rw [saInUse, hrx r (h.rx_lt hr)]; decide)
  · have hp := h.sc.live (s := (j, sc)) hp
    rw [hsc p (h.sc_lt hp)] at hp
    cases hp
  · have hg : twoSecys.conf.glb.cleartags = false := by decide
    rw [hg] at hc
    cases hc

/-- Deleting the pattern of the second SecY switches off the map entry of the first one. -/
theorem not_isolated_patternDel : ¬XformApart ∧ ∃ s port op, Reachable bench.toBus s ∧ ¬Isolated bench port op s := by
  constructor
  · intro h
    exact (h .egress .egress 96 64 0 (by decide) (by decide) (by decide)).2.2.1 (by decide)
  · refine ⟨twoSecys, benchPort 2, .patternDel .egress .uncontrolledPort, reachable_bench _, fun h => ?_⟩
    have hk := h 1 0 (by decide) (by decide) (by decide +kernel)
    have hbit := hk.entries (q := scSaMapReg .egress 0 0) (b := 15) (by decide) (Or.inl (Or.inr (Or.inl rfl)))
    revert hbit
    decide

end Lan80xx.Macsec
