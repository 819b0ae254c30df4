import Lan80xx.VtssTs.Signature

/-!
# The bytes of a signature come back

The analyzer of an engine has one address selection, and the fields of the network layer and the destination MAC address
take their bytes from it.

- `lastBit_mapAccesses`, `selects_sigAccesses`: the selector map and the address selection that a call leaves behind;
- `decode_signature`: what the decoder makes of the sixteen bytes;
- `signature_roundtrip_iff`: when the fields of every frame come back.
-/

namespace Lan80xx.VtssTs

open Fallible RegBus RegScript

/-! ## The selector map in the registers -/

/-- `value = (value << 6) | sel`, from the last selector to the first. -/
theorem foldr_shift_getLsbD (sel : Nat → BitVec 6) (count : Nat) : ∀ k b, k < count → b < 6 → 6 * k + b < 32 →
    ((List.range count).foldr (fun k (value : BitVec 32) => (value <<< 6) ||| (sel k).setWidth 32) 0).getLsbD (6 * k + b) =
      (sel k).getLsbD b := by
  induction count generalizing sel with
  | zero => exact fun k _ hk => absurd hk (Nat.not_lt_zero k)
  | succ n ih =>
    intro k b hk hb hlt
    rw [List.range_succ_eq_map, List.foldr_cons, List.foldr_map, BitVec.getLsbD_or, BitVec.getLsbD_shiftLeft,
      BitVec.getLsbD_setWidth]
    cases k with
    | zero => simp [hb, show b < 32 by omega]
    | succ k =>
      have hhigh : (sel 0).getLsbD (6 * (k + 1) + b) = false := BitVec.getLsbD_of_ge _ _ (by omega)
      have hsub : 6 * (k + 1) + b - 6 = 6 * k + b := by omega
      rw [hhigh, hsub, Bool.and_false, Bool.or_false, ih (fun k => sel (k + 1)) k b (by omega) hb (by omega)]
      simp [show ¬6 * (k + 1) + b < 6 by omega, hlt]

theorem mapWord_getLsbD (sel : List (BitVec 6)) (pos : Nat) {count k b : Nat} (hk : k < count) (hb : b < 6)
    (hlt : 6 * k + b < 32) : (mapWord sel pos count).getLsbD (6 * k + b) = (sel.getD (pos + k) 0).getLsbD b :=
  foldr_shift_getLsbD (fun k => sel.getD (pos + k) 0) count k b hk hb hlt

theorem mapBit_lt (i : Nat) (b : Fin 6) : 6 * (i % 5) + b < 32 := by
  have hslot := Nat.mod_lt i (show 5 > 0 by decide)
  omega

theorem ipBit_lt (b : Fin 6) : (b : Nat) < 32 := b.isLt.trans (by decide)

theorem macBit_lt (b : Fin 5) : 16 + (b : Nat) < 32 := by
  have hb := b.isLt
  omega

/-- The map registers of the engine hold the selectors. -/
def Mapped (m : Bits SigReg 32) (blk : AnaBlk) (sel : List (BitVec 6)) : Prop :=
  ∀ i < 16, ∀ b : Fin 6, m (.fsbMap blk (i / 5)) ⟨6 * (i % 5) + b, mapBit_lt i b⟩ = (sel.getD i 0).getLsbD b

theorem Mapped.field {m : Bits SigReg 32} {e : EngId} {sel : List (BitVec 6)} (h : Mapped m e.blk sel) {i : Nat}
    (hi : i < 16) : fsbMapField m e i = sel.getD i 0 := wordOf_eq (h i hi)

section LastBit

variable {c : SigConf} {e e' : EngId} {es : List EngId} {f : EngId → List SigAcc} {q : SigReg} {b : Fin 32} {v : Bool}

theorem lastBit_flatMap_or (hall : ∀ e ∈ es, lastBit (f e) q b = none ∨ lastBit (f e) q b = some v) :
    lastBit (es.flatMap f) q b = none ∨ lastBit (es.flatMap f) q b = some v := by
  induction es with
  | nil => exact Or.inl rfl
  | cons e es ih =>
    rw [List.flatMap_cons, lastBit_append]
    rcases ih fun e' he => hall e' (List.mem_cons_of_mem _ he) with h | h
    · rw [h]
      exact hall e List.mem_cons_self
    · rw [h]
      exact Or.inr rfl

/-- One engine makes `v` of the bit, and no other makes anything else of it. -/
theorem lastBit_flatMap_some (hall : ∀ e ∈ es, lastBit (f e) q b = none ∨ lastBit (f e) q b = some v) (he : e ∈ es)
    (hv : lastBit (f e) q b = some v) : lastBit (es.flatMap f) q b = some v := by
  induction es with
  | nil => exact absurd he List.not_mem_nil
  | cons e₁ es ih =>
    rw [List.flatMap_cons, lastBit_append]
    have hall' : ∀ e ∈ es, lastBit (f e) q b = none ∨ lastBit (f e) q b = some v := fun e he =>
      hall e (List.mem_cons_of_mem _ he)
    rcases List.mem_cons.mp he with rfl | he
    · rcases lastBit_flatMap_or hall' with h | h
      · rw [h, hv]
        rfl
      · rw [h]
        rfl
    · rw [ih hall' he]
      rfl

/-- The engines whose selector map is programmed. -/
def MapProgrammed (c : SigConf) (e : EngId) : Prop :=
  if e.blk = .egr2 then c.engUsed e = true ∧ (c.encapType e).isOam = false
  else ¬(c.engUsed e = true ∧ (c.encapType e).isOam = true)

/-- What an engine makes of a bit of the selector map, if it is programmed. -/
theorem lastBit_mapEngine (c : SigConf) (e : EngId) {i : Nat} (hi : i < 16) (b : Fin 6) (hlt : 6 * (i % 5) + b < 32) :
    lastBit (mapEngine c e) (.fsbMap e.blk (i / 5)) ⟨6 * (i % 5) + b, hlt⟩ =
        some (((sigSel c.sigMask).getD i 0).getLsbD b) ∨
      (¬MapProgrammed c e ∧ mapEngine c e = []) := by
  have hword : ∀ pos count, pos + i % 5 = i → i % 5 < count →
      (mapWord (sigSel c.sigMask) pos count).getLsbD (6 * (i % 5) + b) = ((sigSel c.sigMask).getD i 0).getLsbD b := by
    intro pos count hpos hcount
    rw [mapWord_getLsbD _ _ hcount b.isLt hlt, hpos]
  have hcases : i / 5 = 0 ∨ i / 5 = 1 ∨ i / 5 = 2 ∨ (i / 5 = 3 ∧ i = 15) := by omega
  by_cases hprog : MapProgrammed c e
  · left
    unfold MapProgrammed at hprog
    unfold mapEngine
    by_cases hblk : e.blk = .egr2
    · rw [if_pos hblk] at hprog
      rw [if_neg (not_not.mpr hblk), if_pos hprog]
      rcases hcases with h | h | h | ⟨h, hi⟩
      · simp [lastBit, Access.bit, h, hword 0 5 (by omega) (by omega)]
      · simp [lastBit, Access.bit, h, hword 5 5 (by omega) (by omega)]
      · simp [lastBit, Access.bit, h, hword 10 5 (by omega) (by omega)]
      · simp [lastBit, Access.bit, h, hword 15 5 (by omega) (by omega)]
    · rw [if_neg hblk] at hprog
      rw [if_pos hblk, if_neg hprog]
      rcases hcases with h | h | h | ⟨h, hi⟩
      · simp [lastBit, Access.bit, h, hword 0 5 (by omega) (by omega)]
      · simp [lastBit, Access.bit, h, hword 5 5 (by omega) (by omega)]
      · simp [lastBit, Access.bit, h, hword 10 5 (by omega) (by omega)]
      · simp [lastBit, Access.bit, h, hword 15 1 (by omega) (by omega)]
  · refine Or.inr ⟨hprog, ?_⟩
    unfold MapProgrammed at hprog
    unfold mapEngine
    by_cases hblk : e.blk = .egr2
    · rw [if_pos hblk] at hprog
      rw [if_neg (not_not.mpr hblk), if_neg hprog]
    · rw [if_neg hblk] at hprog
      rw [if_pos hblk, if_pos (not_not.mp hprog)]

theorem mem_mapEngines {e : EngId} (hgen2 : e.blk = .egr2 → c.isGen2 = true) :
    e ∈ if c.isGen2 then [EngId.ptp0, .ptp1, .oam2a, .oam2b] else [.ptp0, .ptp1] := by
  cases e <;> cases hg : c.isGen2 <;> simp_all [EngId.blk]

/-! The registers that the engines write. -/

section Writes

variable {a : SigAcc}

theorem writes_ipEngine (ha : a ∈ ipEngine c e) (hq : q ∈ a.writes) :
    q = .ip1FrameSigCfg e.blk ∨ q = .ip2FrameSigCfg e.blk ∨ q = .fsbCfg e.blk := by
  unfold ipEngine ip1SigMaskSet ip2SigMaskSet adrSelSet at ha
  grind [Access.writes]

theorem writes_macEngine (ha : a ∈ macEngine c e) (hq : q ∈ a.writes) :
    q = .eth1NxtProtocol e ∨ q = .eth2NxtProtocol e.blk ∨ q = .fsbCfg e.blk := by
  unfold macEngine eth1SigMaskSet eth2SigMaskSet adrSelSet at ha
  grind [Access.writes]

theorem writes_mapEngine (ha : a ∈ mapEngine c e) (hq : q ∈ a.writes) : ∃ n, q = .fsbMap e.blk n := by
  unfold mapEngine at ha
  grind [Access.writes]

theorem writes_macAccesses (ha : a ∈ macAccesses c) (hq : q ∈ a.writes) :
    ∃ e, q = .eth1NxtProtocol e ∨ q = .eth2NxtProtocol e.blk ∨ q = .fsbCfg e.blk := by
  unfold macAccesses at ha
  split at ha
  · obtain ⟨e, -, ha⟩ := List.mem_flatMap.mp ha
    exact ⟨e, writes_macEngine ha hq⟩
  · exact absurd ha List.not_mem_nil

theorem writes_mapAccesses (ha : a ∈ mapAccesses c) (hq : q ∈ a.writes) : ∃ (e : EngId) (n : Nat), q = .fsbMap e.blk n := by
  obtain ⟨e, -, ha⟩ := List.mem_flatMap.mp ha
  exact ⟨e, writes_mapEngine ha hq⟩

end Writes

/-- The registers of another analyzer. -/
theorem lastBit_mapEngine_ne {blk : AnaBlk} (c : SigConf) (hblk : e'.blk ≠ blk) (n : Nat) :
    lastBit (mapEngine c e') (.fsbMap blk n) b = none := by
  refine lastBit_of_not_mem fun a ha hw => ?_
  obtain ⟨k, hk⟩ := writes_mapEngine ha hw
  exact hblk (SigReg.fsbMap.inj hk).1.symm

theorem lastBit_mapAccesses (hprog : MapProgrammed c e) (hgen2 : e.blk = .egr2 → c.isGen2 = true) {i : Nat} (hi : i < 16)
    (b : Fin 6) (hlt : 6 * (i % 5) + b < 32) : lastBit (mapAccesses c) (.fsbMap e.blk (i / 5)) ⟨6 * (i % 5) + b, hlt⟩ =
      some (((sigSel c.sigMask).getD i 0).getLsbD b) := by
  refine lastBit_flatMap_some (fun e' _ => ?_) (mem_mapEngines hgen2)
    ((lastBit_mapEngine c e hi b hlt).resolve_right fun h => h.1 hprog)
  by_cases hblk : e'.blk = e.blk
  · rw [← hblk]
    rcases lastBit_mapEngine c e' hi b hlt with h | ⟨-, h⟩
    · exact Or.inr h
    · exact Or.inl (by rw [h]; rfl)
  · exact Or.inl (lastBit_mapEngine_ne c hblk _)

/-! ### The address selection -/

/-- The value of `FSB_ADR_SEL`. -/
def Comparator.code : Comparator → BitVec 32
  | eth1 => 0
  | eth2 => 1
  | ip1 => 2
  | ip2 => 3

theorem fsbAdrSel_eq {m : Bits SigReg 32} {e : EngId} {comp : Comparator} (h₀ : m (.fsbCfg e.blk) 0 = comp.code.getLsbD 0)
    (h₁ : m (.fsbCfg e.blk) 1 = comp.code.getLsbD 1) : fsbAdrSel m e = comp := by
  rw [fsbAdrSel, h₀, h₁]
  cases comp <;> rfl

/-- The accesses leave this address selection, in the analyzer. -/
def Selects (as : List SigAcc) (blk : AnaBlk) (comp : Comparator) : Prop :=
  ∀ b : Fin 32, b.val < 2 → lastBit as (.fsbCfg blk) b = some (comp.code.getLsbD b)

/-- The accesses leave the address selection of the analyzer alone. -/
def KeepsSelection (as : List SigAcc) (blk : AnaBlk) : Prop := ∀ b, lastBit as (.fsbCfg blk) b = none

theorem selects_adrSelSet (a : SigAcc) (blk : AnaBlk) (comp : Comparator) :
    Selects [a, adrSelSet blk comp.code] blk comp := by
  intro b hb
  have hbit : modifiedBit 3 comp.code b = some (comp.code.getLsbD b) := by
    rcases Nat.lt_succ_iff_lt_or_eq.mp hb with h | h
    · rw [Nat.lt_one_iff.mp h]
      cases comp <;> rfl
    · rw [h]
      cases comp <;> rfl
  have hsel : (adrSelSet blk comp.code).bit (.fsbCfg blk) b = some (comp.code.getLsbD b) := by
    rw [adrSelSet, Access.bit, if_pos rfl, hbit]
  rw [lastBit, lastBit, lastBit, hsel]
  rfl

theorem Selects.append_right {as bs : List SigAcc} {blk : AnaBlk} {comp : Comparator} (h : Selects bs blk comp) :
    Selects (as ++ bs) blk comp := fun b hb => by
  rw [lastBit_append, h b hb]
  rfl

theorem Selects.append_left {as bs : List SigAcc} {blk : AnaBlk} {comp : Comparator} (h : Selects as blk comp)
    (hkeep : KeepsSelection bs blk) : Selects (as ++ bs) blk comp := fun b hb => by
  rw [lastBit_append, hkeep b, h b hb]
  rfl

/-- One engine selects, and the others leave the selection alone. -/
theorem selects_flatMap {blk : AnaBlk} {comp : Comparator} (he : e ∈ es) (h : Selects (f e) blk comp)
    (hkeep : ∀ e' ∈ es, e' ≠ e → KeepsSelection (f e') blk) : Selects (es.flatMap f) blk comp := fun b hb => by
  refine lastBit_flatMap_some (fun e' he' => ?_) he (h b hb)
  by_cases hee : e' = e
  · exact Or.inr (hee ▸ h b hb)
  · exact Or.inl (hkeep e' he' hee b)

theorem keepsSelection_of_blk {blk : AnaBlk} {as : List SigAcc} (h : ∀ a ∈ as, SigReg.fsbCfg blk ∉ a.writes) :
    KeepsSelection as blk := fun _ => lastBit_of_not_mem h

theorem keepsSelection_ipEngine {blk : AnaBlk} (c : SigConf) (hblk : e.blk ≠ blk) : KeepsSelection (ipEngine c e) blk := by
  refine keepsSelection_of_blk fun a ha hw => ?_
  rcases writes_ipEngine ha hw with h | h | h <;> cases h
  exact hblk rfl

theorem keepsSelection_macEngine {blk : AnaBlk} (c : SigConf) (hblk : e.blk ≠ blk) : KeepsSelection (macEngine c e) blk := by
  refine keepsSelection_of_blk fun a ha hw => ?_
  rcases writes_macEngine ha hw with h | h | h <;> cases h
  exact hblk rfl

theorem keepsSelection_mapAccesses (c : SigConf) (blk : AnaBlk) : KeepsSelection (mapAccesses c) blk := by
  refine keepsSelection_of_blk fun a ha hw => ?_
  obtain ⟨e, n, h⟩ := writes_mapAccesses ha hw
  cases h

theorem Encap.ipComparator_cases {encap : Encap} {comp : Comparator} (h : encap.ipComparator = some comp) :
    comp = .ip1 ∨ comp = .ip2 := by
  cases encap <;> simp [Encap.ipComparator] at h <;> simp [← h]

theorem Encap.macComparator_cases {encap : Encap} {comp : Comparator} (h : encap.macComparator = some comp) :
    comp = .eth1 ∨ comp = .eth2 := by
  cases encap <;> simp [Encap.macComparator] at h <;> simp [← h]

theorem selects_ipEngine {comp : Comparator} (hused : c.engUsed e = true) (h : (c.encapType e).ipComparator = some comp) :
    Selects (ipEngine c e) e.blk comp := by
  rw [ipEngine, if_pos hused, h]
  rcases Encap.ipComparator_cases h with rfl | rfl
  · exact selects_adrSelSet _ e.blk .ip1
  · exact selects_adrSelSet _ e.blk .ip2

theorem selects_macEngine {comp : Comparator} (hused : c.engUsed e = true) (h : (c.encapType e).macComparator = some comp)
    (heth2 : comp = .eth2 → e ≠ .oam2b) (hgen2 : e.blk = .egr2 → c.isGen2 = true) : Selects (macEngine c e) e.blk comp := by
  rw [macEngine, if_pos hused, h]
  rcases Encap.macComparator_cases h with rfl | rfl
  · have hset : e.blk ≠ .egr2 ∨ c.isGen2 = true := by
      by_cases hblk : e.blk = .egr2
      · exact Or.inr (hgen2 hblk)
      · exact Or.inl hblk
    simp only [eth1SigMaskSet, if_pos hset]
    exact selects_adrSelSet _ e.blk .eth1
  · simp only [if_pos (heth2 rfl)]
    exact selects_adrSelSet _ e.blk .eth2

/-- The Ethernet comparator that the analyzer of an engine is left with: engine 2B comes last. -/
def macSource (c : SigConf) (e : EngId) : Option Comparator :=
  if e.blk = .egr2 ∧ c.engUsed .oam2b = true ∧ (c.encapType .oam2b).macComparator = some .eth1 then some .eth1
  else (c.encapType e).macComparator

/-- The engine is used, for timestamps, and its encapsulation has the fields that the mask asks for; the addresses of the
network layer are of IPv4. -/
structure Supplies (c : SigConf) (e : EngId) : Prop where
  used : c.engUsed e = true
  noOam : (c.encapType e).isOam = false
  gen2 : e.blk = .egr2 → c.isGen2 = true
  ip : c.sigMask.has .destIp || c.sigMask.has .srcIp → e.blk ≠ .egr2 ∧
    (((c.encapType e).ipComparator = some .ip1 ∧ c.ip1Mode e = .v4) ∨
      ((c.encapType e).ipComparator = some .ip2 ∧ c.ip2Mode e = .v4))
  mac : c.sigMask.has .destMac → (c.encapType e).macComparator = some .eth1 ∨
    ((c.encapType e).macComparator = some .eth2 ∧ e ≠ .oam2b)

theorem Supplies.mapProgrammed (h : Supplies c e) : MapProgrammed c e := by
  unfold MapProgrammed
  split
  · exact ⟨h.used, h.noOam⟩
  · exact fun hoam => absurd (hoam.2.symm.trans h.noOam) (by decide)

theorem blk_inj (hblk : e.blk ≠ .egr2) (h : e'.blk = e.blk) : e' = e := by
  cases e <;> cases e' <;> simp_all [EngId.blk]

theorem selects_macAccesses (hmac : c.sigMask.has .destMac = true) (hs : Supplies c e) {comp : Comparator}
    (hsrc : macSource c e = some comp) : Selects (macAccesses c) e.blk comp := by
  rw [macAccesses, if_pos hmac]
  have hown : (c.encapType e).macComparator = some comp → Selects (macEngine c e) e.blk comp := fun h =>
    selects_macEngine hs.used h (fun heth2 => by
      rcases hs.mac hmac with h₁ | h₁
      · rw [h, heth2] at h₁
        cases h₁
      · exact h₁.2) hs.gen2
  by_cases hblk : e.blk = .egr2
  · rw [if_pos (hs.gen2 hblk)]
    have hsplit : [EngId.ptp0, .ptp1, .oam2a, .oam2b].flatMap (macEngine c) =
        ([EngId.ptp0, .ptp1].flatMap (macEngine c) ++ macEngine c .oam2a) ++ macEngine c .oam2b := by
      simp
    rw [hsplit]
    by_cases h2b : c.engUsed .oam2b = true ∧ (c.encapType .oam2b).macComparator = some .eth1
    · rw [macSource, if_pos ⟨hblk, h2b⟩] at hsrc
      obtain rfl := Option.some.inj hsrc
      rw [hblk]
      exact (selects_macEngine (e := .oam2b) h2b.1 h2b.2 (fun h => by cases h)
        fun _ => hs.gen2 hblk).append_right
    · rw [macSource, if_neg fun h => h2b h.2] at hsrc
      have hne : e ≠ .oam2b := by
        rintro rfl
        rcases hs.mac hmac with h₁ | h₁
        · exact h2b ⟨hs.used, h₁⟩
        · exact h₁.2 rfl
      have heq : e = .oam2a := by
        cases e <;> simp_all [EngId.blk]
      have hnone : macEngine c .oam2b = [] := by
        unfold macEngine
        grind
      subst heq
      rw [hnone, List.append_nil]
      exact (hown hsrc).append_right
  · rw [macSource, if_neg fun h => hblk h.1] at hsrc
    refine selects_flatMap (mem_mapEngines fun h => absurd h hblk) (hown hsrc) fun e' _ hne => ?_
    exact keepsSelection_macEngine c fun h => hne (blk_inj hblk h)

theorem selects_ipAccesses (hip : c.sigMask.has .destIp || c.sigMask.has .srcIp) (hs : Supplies c e) {comp : Comparator}
    (hsrc : (c.encapType e).ipComparator = some comp) : Selects (ipAccesses c) e.blk comp := by
  rw [ipAccesses, if_pos hip]
  have hblk := (hs.ip hip).1
  refine selects_flatMap ?_ (selects_ipEngine hs.used hsrc) fun e' _ hne =>
    keepsSelection_ipEngine c fun h => hne (blk_inj hblk h)
  cases e <;> simp_all [EngId.blk]

/-- The comparator that the analyzer of an engine is left with. -/
def source (c : SigConf) (e : EngId) : Option Comparator :=
  if c.sigMask.has .destMac then macSource c e else (c.encapType e).ipComparator

theorem selects_sigAccesses (hs : Supplies c e) {comp : Comparator} (hsrc : source c e = some comp)
    (haddr : c.sigMask.has .destMac = true ∨ (c.sigMask.has .destIp || c.sigMask.has .srcIp) = true) :
    Selects (sigAccesses c) e.blk comp := by
  unfold source at hsrc
  by_cases hmac : c.sigMask.has .destMac = true
  · rw [if_pos hmac] at hsrc
    exact ((selects_macAccesses hmac hs hsrc).append_left (keepsSelection_mapAccesses c e.blk)).append_right
  · rw [if_neg hmac] at hsrc
    have hnil : macAccesses c = [] := if_neg hmac
    rw [sigAccesses, hnil, List.nil_append]
    exact (selects_ipAccesses (haddr.resolve_left hmac) hs hsrc).append_left (keepsSelection_mapAccesses c e.blk)

/-! ### The offset of the address bytes -/

/-- The register with the offset. -/
def Comparator.offsetReg (e : EngId) : Comparator → SigReg
  | eth1 => .eth1NxtProtocol e
  | eth2 => .eth2NxtProtocol e.blk
  | ip1 => .ip1FrameSigCfg e.blk
  | ip2 => .ip2FrameSigCfg e.blk

theorem lastBit_ipOffset (hip : c.sigMask.has .destIp || c.sigMask.has .srcIp) (hs : Supplies c e) {comp : Comparator}
    (hsrc : (c.encapType e).ipComparator = some comp) (b : Fin 6) :
    lastBit (sigAccesses c) (comp.offsetReg e) ⟨b, ipBit_lt b⟩ = some ((12#6).getLsbD b) := by
  obtain ⟨hblk, hmode⟩ := hs.ip hip
  have hbit : ∀ b : Fin 6, modifiedBit (0x3f : BitVec 32) 12 b = some ((12#6).getLsbD b) := by decide
  have hreg := Encap.ipComparator_cases hsrc
  have hrest : lastBit (macAccesses c ++ mapAccesses c) (comp.offsetReg e) ⟨b, ipBit_lt b⟩ = none := by
    refine lastBit_of_not_mem fun a ha hw => ?_
    rcases List.mem_append.mp ha with ha | ha
    · obtain ⟨e', h⟩ := writes_macAccesses ha hw
      rcases hreg with rfl | rfl <;> rcases h with h | h | h <;> cases h
    · obtain ⟨e', n, h⟩ := writes_mapAccesses ha hw
      rcases hreg with rfl | rfl <;> cases h
  have hown : lastBit (ipEngine c e) (comp.offsetReg e) ⟨b, ipBit_lt b⟩ = some ((12#6).getLsbD b) := by
    rcases hmode with ⟨hc, hv4⟩ | ⟨hc, hv4⟩
    · obtain rfl : comp = .ip1 := Option.some.inj (hsrc.symm.trans hc)
      simp only [ipEngine, hs.used, hc, ip1SigMaskSet, adrSelSet, ipSigOffset, hv4, lastBit, Access.bit,
        Comparator.offsetReg, if_true, reduceCtorEq, if_false, Option.none_or, hbit b]
    · obtain rfl : comp = .ip2 := Option.some.inj (hsrc.symm.trans hc)
      simp only [ipEngine, hs.used, hc, ip2SigMaskSet, adrSelSet, ipSigOffset, hv4, lastBit, Access.bit,
        Comparator.offsetReg, if_true, reduceCtorEq, if_false, Option.none_or, hbit b]
  rw [sigAccesses, lastBit_append, hrest, Option.none_or, ipAccesses, if_pos hip]
  refine lastBit_flatMap_some (fun e' _ => ?_) (by cases e <;> simp_all [EngId.blk]) hown
  by_cases hne : e' = e
  · exact Or.inr (hne ▸ hown)
  · refine Or.inl (lastBit_of_not_mem fun a ha hw => hne (blk_inj hblk ?_))
    have hw := writes_ipEngine ha hw
    rcases hreg with rfl | rfl <;> rcases hw with h | h | h <;> simp_all [Comparator.offsetReg]

/-- No engine makes a bit of an Ethernet offset 1. -/
theorem lastBit_macEngine_offset (c : SigConf) (e' : EngId) {comp : Comparator} (hreg : comp = .eth1 ∨ comp = .eth2)
    (b : Fin 5) : lastBit (macEngine c e') (comp.offsetReg e) ⟨16 + b, macBit_lt b⟩ = none ∨
      lastBit (macEngine c e') (comp.offsetReg e) ⟨16 + b, macBit_lt b⟩ = some false := by
  have hbit : ∀ b : Fin 5, modifiedBit (0x1f0000 : BitVec 32) 0 (16 + b) = some false := by decide
  have hmodify : ∀ r q : SigReg, (∃ blk, q = .fsbCfg blk) → ∀ v : BitVec 32,
      lastBit [.modify r 0x1f0000 0, .modify q 3 v] (comp.offsetReg e) ⟨16 + b, macBit_lt b⟩ = none ∨
        lastBit [.modify r 0x1f0000 0, .modify q 3 v] (comp.offsetReg e) ⟨16 + b, macBit_lt b⟩ = some false := by
    rintro r q ⟨blk, rfl⟩ v
    have hne : comp.offsetReg e ≠ .fsbCfg blk := by
      rcases hreg with rfl | rfl <;> exact fun h => by cases h
    by_cases hr : comp.offsetReg e = r
    · exact Or.inr (by simp only [lastBit, Access.bit, if_neg hne, if_pos hr, Option.none_or, hbit b])
    · exact Or.inl (by simp only [lastBit, Access.bit, if_neg hne, if_neg hr, Option.none_or])
  unfold macEngine eth1SigMaskSet eth2SigMaskSet adrSelSet
  split
  · split
    · split
      · exact hmodify _ _ ⟨_, rfl⟩ 0
      · exact Or.inl rfl
    · split
      · exact hmodify _ _ ⟨_, rfl⟩ 1
      · exact Or.inl rfl
    · exact Or.inl rfl
  · exact Or.inl rfl

theorem lastBit_macOffset (hmac : c.sigMask.has .destMac = true) (hs : Supplies c e) {comp : Comparator}
    (hsrc : (c.encapType e).macComparator = some comp) (b : Fin 5) :
    lastBit (sigAccesses c) (comp.offsetReg e) ⟨16 + b, macBit_lt b⟩ = some ((0#5).getLsbD b) := by
  have hbit : ∀ b : Fin 5, modifiedBit (0x1f0000 : BitVec 32) 0 (16 + b) = some ((0#5).getLsbD b) := by decide
  have hreg := Encap.macComparator_cases hsrc
  have hmap : lastBit (mapAccesses c) (comp.offsetReg e) ⟨16 + b, macBit_lt b⟩ = none := by
    refine lastBit_of_not_mem fun a ha hw => ?_
    obtain ⟨e', n, h⟩ := writes_mapAccesses ha hw
    rcases hreg with rfl | rfl <;> cases h
  have hown : lastBit (macEngine c e) (comp.offsetReg e) ⟨16 + b, macBit_lt b⟩ = some ((0#5).getLsbD b) := by
    rcases hs.mac hmac with hc | ⟨hc, h2b⟩
    · obtain rfl : comp = .eth1 := Option.some.inj (hsrc.symm.trans hc)
      have hset : e.blk ≠ .egr2 ∨ c.isGen2 = true := by
        by_cases hblk : e.blk = .egr2
        · exact Or.inr (hs.gen2 hblk)
        · exact Or.inl hblk
      simp only [macEngine, hs.used, hc, eth1SigMaskSet, if_pos hset, adrSelSet, lastBit, Access.bit, Comparator.offsetReg,
        if_true, reduceCtorEq, if_false, Option.none_or, hbit b]
    · obtain rfl : comp = .eth2 := Option.some.inj (hsrc.symm.trans hc)
      simp only [macEngine, hs.used, hc, eth2SigMaskSet, if_pos h2b, adrSelSet, lastBit, Access.bit, Comparator.offsetReg,
        if_true, reduceCtorEq, if_false, Option.none_or, hbit b]
  have hzero : ((0#5).getLsbD b) = false := by simp
  rw [hzero] at hown ⊢
  rw [sigAccesses, lastBit_append, lastBit_append, hmap, Option.none_or, macAccesses, if_pos hmac,
    lastBit_flatMap_some (fun e' _ => lastBit_macEngine_offset c e' hreg b) (mem_mapEngines hs.gen2) hown]
  rfl

end LastBit

/-! ## The round trip -/

/-- The fields of a frame, where the encapsulation of the engine has them. -/
structure FieldsMatch (c : SigConf) (e : EngId) (frame : Frame) (sig : FifoSig) : Prop where
  seqId : c.sigMask.has .seqId → sig.sequenceId = frame.ptp 30 ++ frame.ptp 31
  sourcePortId : c.sigMask.has .sourcePortId → sig.srcPortIdentity = (List.range 10).map fun i => frame.ptp (20 + i)
  domainNum : c.sigMask.has .domainNum → sig.domainNum = frame.ptp 4
  msgType : c.sigMask.has .msgType → sig.msgType = frame.ptp 0 &&& 0x0F
  destIp : c.sigMask.has .destIp → ∀ ip, (c.encapType e).ipComparator = some ip →
    sig.destIp = (frame.hdr ip 16 ++ frame.hdr ip 17) ++ (frame.hdr ip 18 ++ frame.hdr ip 19)
  srcIp : c.sigMask.has .srcIp → ∀ ip, (c.encapType e).ipComparator = some ip →
    sig.srcIp = (frame.hdr ip 12 ++ frame.hdr ip 13) ++ (frame.hdr ip 14 ++ frame.hdr ip 15)
  destMac : c.sigMask.has .destMac → ∀ mac, (c.encapType e).macComparator = some mac →
    sig.destMac = (List.range 6).map (frame.hdr mac)

/-- The headers of the network layer are of IPv4. -/
def Frame.IsIpv4 (frame : Frame) : Prop := frame.hdr .ip1 0 >>> 4 = 4 ∧ frame.hdr .ip2 0 >>> 4 = 4

/-- Every entry for a frame that this engine matches has its timestamp and its fields. -/
def RoundTrips (m : Bits SigReg 32) (c : SigConf) (e : EngId) : Prop :=
  ∀ (frame : Frame) (ts : Timestamp), frame.IsIpv4 → ∃ entry,
    decode c.sigMask (ts.bytes ++ signature m e frame) = some entry ∧ entry.ts = ts ∧ FieldsMatch c e frame entry.sig

/-- The mask does not ask for addresses of both layers; and where the addresses of engine 2A are behind another comparator
than those of engine 2B, it asks for none. -/
def SameSource (c : SigConf) (e : EngId) : Prop :=
  c.sigMask.has .destMac = true → (c.sigMask.has .destIp || c.sigMask.has .srcIp) = false ∧
    ¬(e = .oam2a ∧ (c.encapType .oam2a).macComparator = some .eth2 ∧ c.engUsed .oam2b = true ∧
      (c.encapType .oam2b).macComparator = some .eth1)

instance (c : SigConf) (e : EngId) : Decidable (SameSource c e) := inferInstanceAs (Decidable (_ → _))

section RoundTrip

variable {C H : Type} (rf : SigBus H) {c : SigConf} {e : EngId} {m : Bits SigReg 32}

theorem timestampOf_bytes (ts : Timestamp) (sig : List Byte) : timestampOf (ts.bytes ++ sig) = ts := by
  have hhalf : ∀ x : BitVec 16, x.extractLsb' 8 8 ++ x.extractLsb' 0 8 = x := fun x =>
    (BitVec.extractLsb'_append_extractLsb'_eq_extractLsb' rfl).trans BitVec.extractLsb'_eq_self
  have hword : ∀ x : BitVec 32,
      (x.extractLsb' 24 8 ++ x.extractLsb' 16 8) ++ (x.extractLsb' 8 8 ++ x.extractLsb' 0 8) = x := fun x => by
    have hhigh : x.extractLsb' 24 8 ++ x.extractLsb' 16 8 = x.extractLsb' 16 16 :=
      BitVec.extractLsb'_append_extractLsb'_eq_extractLsb' rfl
    have hlow : x.extractLsb' 8 8 ++ x.extractLsb' 0 8 = x.extractLsb' 0 16 :=
      BitVec.extractLsb'_append_extractLsb'_eq_extractLsb' rfl
    rw [hhigh, hlow]
    exact (BitVec.extractLsb'_append_extractLsb'_eq_extractLsb' rfl).trans BitVec.extractLsb'_eq_self
  rcases ts with ⟨high, low, nano⟩
  exact congr (congr (congrArg Timestamp.mk (hhalf high)) (hword low)) (hword nano)

theorem byteAt_bytes (ts : Timestamp) (sig : List Byte) (k : Nat) : byteAt (ts.bytes ++ sig) (10 + k) = byteAt sig k := by
  have hlen : ts.bytes.length = 10 := by simp [Timestamp.bytes]
  rw [byteAt, List.getD_append_right _ _ _ _ (by omega), hlen, Nat.add_sub_cancel_left]
  rfl

/-- The entry that the decoder makes of what the hardware has put there. -/
theorem decode_signature (mask : SigMask) (hmask : c.sigMask = mask.mask) (hm : Mapped m e.blk (sigSel c.sigMask))
    (frame : Frame) (ts : Timestamp) : ∃ bytes,
      decode c.sigMask (ts.bytes ++ signature m e frame) = some ⟨sigOf c.sigMask bytes, ts⟩ ∧
        ∀ f, c.sigMask.has f = true →
          bytes f = f.selectors.map (selected frame (fsbAdrSel m e) (frameSigOffset m e (fsbAdrSel m e))) := by
  have hlens : c.sigMask.lens sigOrder ≤ 16 := by
    rw [← sigLen_eq, hmask]
    exact mask.fits
  have hbyte : ∀ k < (c.sigMask.selectors sigOrder).length, byteAt (ts.bytes ++ signature m e frame) (10 + k) =
      selected frame (fsbAdrSel m e) (frameSigOffset m e (fsbAdrSel m e)) ((c.sigMask.selectors sigOrder).getD k 0) := by
    intro k hk
    rw [Mask.selectors_length] at hk
    have hlt : k < (signature m e frame).length := by
      rw [signature, List.length_map, List.length_range]
      omega
    rw [byteAt_bytes, byteAt, List.getD_eq_getElem _ _ hlt]
    simp only [signature, List.getElem_map, List.getElem_range]
    rw [hm.field (by omega)]
    rfl
  obtain ⟨bytes, htake, hfields⟩ := takeFields_selectors sigOrder 10 (by omega) hbyte
  refine ⟨bytes, ?_, fun f hf => hfields f ?_ hf⟩
  · rw [decode, htake]
    exact congrArg (fun t => some (FifoEntry.mk (sigOf c.sigMask bytes) t)) (timestampOf_bytes ts _)
  · cases f <;> decide

/-- The device after the selector map has been programmed. -/
structure Programmed (m : Bits SigReg 32) (c : SigConf) (e : EngId) : Prop where
  mapped : Mapped m e.blk (sigSel c.sigMask)
  adrSel : ∀ comp, source c e = some comp →
    (c.sigMask.has .destMac = true ∨ (c.sigMask.has .destIp || c.sigMask.has .srcIp) = true) → fsbAdrSel m e = comp
  ipOffset : (c.sigMask.has .destIp || c.sigMask.has .srcIp) = true → ∀ ip, (c.encapType e).ipComparator = some ip →
    frameSigOffset m e ip = 12
  macOffset : c.sigMask.has .destMac = true → ∀ mac, (c.encapType e).macComparator = some mac → frameSigOffset m e mac = 0

theorem programmed_applyAll (hs : Supplies c e) (m : Bits SigReg 32) :
    Programmed (applyAll (fun _ _ => false) (sigAccesses c) m) c e where
  mapped i hi b := by
    refine applyAll_of_lastBit rfl ?_
    rw [sigAccesses, lastBit_append, lastBit_append, lastBit_mapAccesses hs.mapProgrammed hs.gen2 hi b]
    rfl
  adrSel comp hsrc haddr := by
    have hsel := selects_sigAccesses hs hsrc haddr
    exact fsbAdrSel_eq (applyAll_of_lastBit rfl (hsel 0 (by decide))) (applyAll_of_lastBit rfl (hsel 1 (by decide)))
  ipOffset hip ip hcomp := by
    have hword : ∀ b : Fin 6, applyAll (fun _ _ => false) (sigAccesses c) m (ip.offsetReg e) ⟨b, ipBit_lt b⟩ =
        (12#6).getLsbD b := fun b => applyAll_of_lastBit rfl (lastBit_ipOffset hip hs hcomp b)
    have hval := congrArg BitVec.toNat (wordOf_eq hword)
    rcases Encap.ipComparator_cases hcomp with rfl | rfl <;> exact hval
  macOffset hmac mac hcomp := by
    have hword : ∀ b : Fin 5, applyAll (fun _ _ => false) (sigAccesses c) m (mac.offsetReg e) ⟨16 + b, macBit_lt b⟩ =
        (0#5).getLsbD b := fun b => applyAll_of_lastBit rfl (lastBit_macOffset hmac hs hcomp b)
    have hval := congrArg BitVec.toNat (wordOf_eq hword)
    rcases Encap.macComparator_cases hcomp with rfl | rfl <;> exact hval

/-- A call that returns has programmed the selector map. -/
theorem ends_signatureSet {h₀ : H} {d : C} :
    Ends (Sees rf h₀ d m) (signatureSet rf.toBus c : EStateM Rc (Dev C H) Unit)
      (fun _ => Sees rf h₀ d (applyAll (fun _ _ => false) (sigAccesses c) m)) fun _ => True := by
  rw [sigAccesses, applyAll_append, applyAll_append]
  refine ((ends_runAll rf Rc.access _).weaken (fun _ _ h => h) fun _ _ => trivial).bind fun _ => ?_
  refine Ends.failIf_bind (fun _ _ _ => trivial) fun _ => ?_
  refine ((ends_runAll rf Rc.access _).weaken (fun _ _ h => h) fun _ _ => trivial).bind fun _ => ?_
  refine Ends.failIf_bind (fun _ _ _ => trivial) fun _ => ?_
  exact (ends_runAll rf Rc.access _).weaken (fun _ _ h => h) fun _ _ => trivial

theorem programmed_of_ok (hs : Supplies c e) {s s' : Dev C H} (hok : signatureSet rf.toBus c s = .ok () s') :
    Programmed (rf.view s'.hw) c e := by
  rcases ends_signatureSet rf s (sees_start rf s) with ⟨u, t, ht, hsees⟩ | ⟨er, t, ht, -⟩
  · obtain rfl : t = s' := (EStateM.Result.ok.inj (ht.symm.trans hok)).2
    rw [hsees.2.2]
    exact programmed_applyAll hs _
  · rw [hok] at ht
    cases ht

theorem Supplies.ipComparator (hs : Supplies c e) (hip : (c.sigMask.has .destIp || c.sigMask.has .srcIp) = true) :
    ∃ ip, (c.encapType e).ipComparator = some ip := by
  rcases (hs.ip hip).2 with h | h
  · exact ⟨_, h.1⟩
  · exact ⟨_, h.1⟩

theorem Supplies.macComparator (hs : Supplies c e) (hmac : c.sigMask.has .destMac = true) :
    ∃ mac, (c.encapType e).macComparator = some mac := by
  rcases hs.mac hmac with h | h
  · exact ⟨_, h⟩
  · exact ⟨_, h.1⟩

/-- The addresses come from where the fields are. -/
theorem macSource_of_sameSource (hs : Supplies c e) (hmac : c.sigMask.has .destMac = true) :
    SameSource c e ↔ (c.sigMask.has .destIp || c.sigMask.has .srcIp) = false ∧
      macSource c e = (c.encapType e).macComparator := by
  have hsrc : macSource c e = (c.encapType e).macComparator ↔
      ¬(e = .oam2a ∧ (c.encapType .oam2a).macComparator = some .eth2 ∧ c.engUsed .oam2b = true ∧
        (c.encapType .oam2b).macComparator = some .eth1) := by
    have hmac' := hs.mac hmac
    unfold macSource
    cases e <;> simp only [EngId.blk] <;> grind
  rw [hsrc, SameSource]
  exact ⟨fun h => h hmac, fun h _ => h⟩

/-- The fields come back where the addresses have one source. -/
theorem roundTrips_of_sameSource (mask : SigMask) (hmask : c.sigMask = mask.mask) (hs : Supplies c e) (hp : Programmed m c e)
    (hsame : SameSource c e) : RoundTrips m c e := by
  intro frame ts _
  obtain ⟨bytes, hdec, hbytes⟩ := decode_signature mask hmask hp.mapped frame ts
  refine ⟨_, hdec, rfl, ?_⟩
  have hip : (c.sigMask.has .destIp || c.sigMask.has .srcIp) = true → ∀ ip, (c.encapType e).ipComparator = some ip →
      fsbAdrSel m e = ip ∧ frameSigOffset m e ip = 12 := fun hip ip hcomp => by
    have hmac : ¬c.sigMask.has .destMac = true := fun hmac => absurd ((hsame hmac).1.symm.trans hip) (by decide)
    exact ⟨hp.adrSel ip (by rw [source, if_neg hmac, hcomp]) (Or.inr hip), hp.ipOffset hip ip hcomp⟩
  have hmac : c.sigMask.has .destMac = true → ∀ mac, (c.encapType e).macComparator = some mac →
      fsbAdrSel m e = mac ∧ frameSigOffset m e mac = 0 := fun hmac mac hcomp => by
    have hsrc := ((macSource_of_sameSource hs hmac).mp hsame).2
    exact ⟨hp.adrSel mac (by rw [source, if_pos hmac, hsrc, hcomp]) (Or.inl hmac), hp.macOffset hmac mac hcomp⟩
  constructor
  · intro hf
    rw [sigOf, hbytes _ hf]
    rfl
  · intro hf
    rw [sigOf, hbytes _ hf]
    rfl
  · intro hf
    rw [sigOf, hbytes _ hf]
    rfl
  · intro hf
    rw [sigOf, hbytes _ hf]
    rfl
  · intro hf ip hcomp
    obtain ⟨hsel, hoff⟩ := hip (by rw [hf]; rfl) ip hcomp
    rw [sigOf, hbytes _ hf, hsel, hoff]
    rfl
  · intro hf ip hcomp
    obtain ⟨hsel, hoff⟩ := hip (by rw [hf, Bool.or_true]) ip hcomp
    rw [sigOf, hbytes _ hf, hsel, hoff]
    rfl
  · intro hf mac hcomp
    obtain ⟨hsel, hoff⟩ := hmac hf mac hcomp
    rw [sigOf, hbytes _ hf, hsel, hoff]
    simp only [SigField.selectors, List.map_cons, List.map_nil]
    rfl

/-- A frame whose header before this comparator has nothing but ones. -/
def onesBefore (src : Comparator) : Frame where
  ptp _ := 0
  hdr comp i := if comp = src then 0xFF else if i = 0 then 0x45 else 0

theorem onesBefore_isIpv4 {src : Comparator} (h : src = .eth1 ∨ src = .eth2) : (onesBefore src).IsIpv4 := by
  rcases h with rfl | rfl <;> exact ⟨by decide, by decide⟩

theorem selected_onesBefore (src : Comparator) (offset : Nat) {sel : BitVec 6} (h₁ : 28 ≤ sel.toNat) (h₂ : sel.toNat ≤ 35) :
    selected (onesBefore src) src offset sel = 0xFF := by
  rw [selected, if_neg (by omega), if_neg (by omega), if_neg (by omega), if_neg (by omega), if_pos ⟨h₁, h₂⟩]
  exact if_pos rfl

/-- Where the addresses have another source than a field, that field does not come back for every frame. -/
theorem not_roundTrips (mask : SigMask) (hmask : c.sigMask = mask.mask) (hs : Supplies c e) (hp : Programmed m c e)
    (hsame : ¬SameSource c e) : ¬RoundTrips m c e := by
  intro hall
  have hmac : c.sigMask.has .destMac = true := by
    by_contra hmac
    exact hsame fun h => absurd h hmac
  obtain ⟨mac, hcomp⟩ := hs.macComparator hmac
  have hsrc : source c e = some (fsbAdrSel m e) := by
    have hsome : ∃ comp, source c e = some comp := by
      rw [source, if_pos hmac, macSource]
      split
      · exact ⟨_, rfl⟩
      · exact ⟨mac, hcomp⟩
    obtain ⟨comp, hcomp⟩ := hsome
    rw [hcomp, hp.adrSel comp hcomp (Or.inl hmac)]
  have hmacSource : macSource c e = some (fsbAdrSel m e) := by
    rwa [source, if_pos hmac] at hsrc
  generalize hsrcEq : fsbAdrSel m e = src at hmacSource hsrc
  have heth : src = .eth1 ∨ src = .eth2 := by
    unfold macSource at hmacSource
    split at hmacSource
    · exact Or.inl (Option.some.inj hmacSource).symm
    · exact Encap.macComparator_cases hmacSource
  obtain ⟨bytes, hdec, hbytes⟩ := decode_signature mask hmask hp.mapped (onesBefore src) ⟨0, 0, 0⟩
  obtain ⟨entry, hentry, -, hfields⟩ := hall (onesBefore src) ⟨0, 0, 0⟩ (onesBefore_isIpv4 heth)
  obtain rfl := Option.some.inj (hdec.symm.trans hentry)
  rw [hsrcEq] at hbytes
  have hones : ∀ f, c.sigMask.has f = true → (∀ sel ∈ f.selectors, 28 ≤ sel.toNat ∧ sel.toNat ≤ 35) →
      bytes f = f.selectors.map fun _ => 0xFF := fun f hf hsel => by
    rw [hbytes f hf]
    exact List.map_congr_left fun sel hmem => selected_onesBefore src _ (hsel sel hmem).1 (hsel sel hmem).2
  by_cases hip : (c.sigMask.has .destIp || c.sigMask.has .srcIp) = true
  · -- the header of the network layer has other bytes there
    obtain ⟨ip, hipComp⟩ := hs.ipComparator hip
    have hne : ip ≠ src := by
      rcases Encap.ipComparator_cases hipComp with rfl | rfl <;> rcases heth with rfl | rfl <;> decide
    rcases Bool.or_eq_true_iff.mp hip with hf | hf
    · have hval := hfields.destIp hf ip hipComp
      rw [sigOf, hones .destIp hf (by decide)] at hval
      simp only [onesBefore, if_neg hne] at hval
      exact absurd hval (by decide)
    · have hval := hfields.srcIp hf ip hipComp
      rw [sigOf, hones .srcIp hf (by decide)] at hval
      simp only [onesBefore, if_neg hne] at hval
      exact absurd hval (by decide)
  · have hne : mac ≠ src := fun heq => hsame ((macSource_of_sameSource hs hmac).mpr
      ⟨Bool.eq_false_iff.mpr hip, hmacSource.trans (heq ▸ hcomp.symm)⟩)
    have hval := hfields.destMac hmac mac hcomp
    rw [sigOf, hones .destMac hmac (by decide)] at hval
    simp only [onesBefore, if_neg hne] at hval
    exact absurd hval (by decide)

/-- **Signatures.** The timestamp and the fields of every frame come back when all of the addresses have one source, and
only then. -/
theorem signature_roundtrip_iff (mask : SigMask) (hmask : c.sigMask = mask.mask) (hs : Supplies c e) (s s' : Dev C H)
    (hok : signatureSet rf.toBus c s = .ok () s') : RoundTrips (rf.view s'.hw) c e ↔ SameSource c e := by
  have hp := programmed_of_ok rf hs hok
  constructor
  · intro hall
    by_contra hsame
    exact not_roundTrips mask hmask hs hp hsame hall
  · exact roundTrips_of_sameSource mask hmask hs hp

end RoundTrip

/-! Engine 0 with `ETH_IP_PTP`, and a mask that asks for the message type and the source address. -/

def ipConf (mask : Mask) : SigConf where
  sigMask := mask
  isGen2 := true
  engUsed e := e == .ptp0
  ip1Mode _ := .v4
  ip2Mode _ := .v4
  encapType _ := .ethIpPtp

abbrev sigStorage := bitStorage SigReg 32 fun _ _ => false

def sigStart : Dev Unit (SigReg → BitVec 32) := ⟨(), fun _ => 0⟩

theorem ipConf_supplies (mask : Mask) : Supplies (ipConf mask) .ptp0 where
  used := rfl
  noOam := rfl
  gen2 _ := rfl
  ip _ := ⟨by decide, Or.inl ⟨rfl, rfl⟩⟩
  mac _ := Or.inl rfl

theorem signature_roundtrip_srcIp :
    RoundTrips (sigStorage.view (final (signatureSet sigStorage.toBus (ipConf 5)) sigStart).hw) (ipConf 5) .ptp0 :=
  (signature_roundtrip_iff sigStorage ⟨5, by decide⟩ rfl (ipConf_supplies 5) sigStart _ (ok_final rfl)).mpr (by decide)

/-- An accepted mask with the destination MAC address and the source IP address: the source address that comes back is
part of the Ethernet header. -/
theorem not_signature_roundtrip :
    signatureSet sigStorage.toBus (ipConf 0x41) sigStart =
        .ok () (final (signatureSet sigStorage.toBus (ipConf 0x41)) sigStart) ∧
      Mask.sigLen 0x41 ≤ 16 ∧ Supplies (ipConf 0x41) .ptp0 ∧
      ¬RoundTrips (sigStorage.view (final (signatureSet sigStorage.toBus (ipConf 0x41)) sigStart).hw) (ipConf 0x41)
        .ptp0 := by
  have hok := ok_final (x := signatureSet sigStorage.toBus (ipConf 0x41)) (s := sigStart) rfl
  refine ⟨hok, by decide, ipConf_supplies 0x41, ?_⟩
  exact not_roundTrips ⟨0x41, by decide⟩ rfl (ipConf_supplies 0x41) (programmed_of_ok sigStorage (ipConf_supplies 0x41) hok)
    (by decide)

end Lan80xx.VtssTs
