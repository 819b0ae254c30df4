import Lan80xx.T1.Port

/-!
# T1 PHYs: loopbacks

Each loopback of a PHY is switched by a bit of its own; on the LAN8x8x the far-end loopback has one for each speed.

- `applyAll_workAccesses`: all that a call does to these registers is what `setup_lpbk` does;
- `LoopsMatch.request`: a `setup_lpbk` that fits;
- `loops_match`: in runs of fitting calls the loopback that is on is the one that is reported.
-/

namespace Lan80xx.T1

open Fallible RegBus RegScript
open Lan8770 (Speed Loopback)

/-! ## The controls -/

/-- The loopbacks of a PHY. -/
inductive Loop
  | farEnd
  | nearEnd
  | connector
  | io
  deriving DecidableEq, Repr

/-- What `loopback_get` says of it; the I/O loopback is not reported. -/
def Loop.reported : Loop → Loopback → Bool
  | farEnd, lb => lb.farEndEna
  | nearEnd, lb => lb.nearEndEna
  | connector, lb => lb.connectorEna
  | io, _ => false

/-- A bit of a register. -/
abbrev Control := Reg × Fin 16

/-- `LAN887X_MIS_CFG_REG2` -/
def misCfgReg2 : Reg := .mmd .vend1 0x0A03

/-- `LAN887X_CHIPTOP_COMM_REG_1` -/
def chiptopCommReg1 : Reg := .mmd .vend1 0x0C00

/-- `MDIO_CTRL1` of the PCS -/
def pcsCtrl1 : Reg := .mmd .pcs 0x0000

/-- `T1_1G_E100T1_PCS_REMOTE_LPBK` -/
def e100t1RemoteLpbk : Reg := .mmd .pcs 0x8000

/-- `T1_1G_E1000T1_PCS_REMOTE_LPBK` -/
def e1000t1RemoteLpbk : Reg := .mmd .pcs 0x8322

namespace Chip

/-- The bits that switch a loopback on. -/
def controls : Chip → Loop → List Control
  | lan887x, .farEnd => [(misCfgReg2, 2)]
  | lan887x, .nearEnd => [(misCfgReg2, 1)]
  | lan887x, .connector => [(chiptopCommReg1, 1)]
  | lan887x, .io => [(misCfgReg2, 3)]
  | lan8x8x, .farEnd => [(e100t1RemoteLpbk, 0), (e1000t1RemoteLpbk, 0)]
  | lan8x8x, .nearEnd => [(pcsCtrl1, 14)]
  | lan8x8x, _ => []

/-- The registers that they are in. -/
def loopRegs : Chip → List Reg
  | lan887x => [misCfgReg2, chiptopCommReg1]
  | lan8x8x => [pcsCtrl1, .mmd .pcs 0x0001, e100t1RemoteLpbk, .mmd .pcs 0x8001, e1000t1RemoteLpbk, .mmd .pcs 0x8323]

/-- A bit that switches some loopback. -/
def IsControl (chip : Chip) (p : Control) : Prop :=
  p ∈ chip.controls .farEnd ++ chip.controls .nearEnd ++ chip.controls .connector ++ chip.controls .io

instance (chip : Chip) (p : Control) : Decidable (chip.IsControl p) := inferInstanceAs (Decidable (_ ∈ _))

theorem isControl_iff {chip : Chip} {p : Control} : chip.IsControl p ↔ ∃ k, p ∈ chip.controls k := by
  simp only [IsControl, List.mem_append]
  constructor
  · rintro (((h | h) | h) | h) <;> exact ⟨_, h⟩
  · rintro ⟨k, h⟩
    cases k <;> simp [h]

/-- The `setup_lpbk` that is part of what a call does. -/
def request : Chip → Work → Option (Option Loopback)
  | _, .setupLpbk loopback => some loopback
  | _, .resetInit => some none
  | lan8x8x, .enable _ => some none
  | lan8x8x, .mediaReset => some none
  | lan8x8x, .ifReset => some none
  | _, _ => none

/-- What `setup_lpbk` keeps of a request. -/
def kept : Chip → Option Loopback → Loopback
  | lan887x => Lan887x.lpbkKept
  | lan8x8x => Lan8x8x.lpbkKept

/-- The accesses of `setup_lpbk`. -/
def loopAccesses : Chip → Speed → Option Loopback → List Acc
  | lan887x, _, loopback => Lan887x.lpbkAccesses loopback
  | lan8x8x, speed, loopback => [Lan8x8x.lpbkAccess speed loopback]

end Chip

/-- **Loopbacks.** A loopback is reported if and only if a bit that switches it is on, at most one of all these bits is on,
and the others of their registers are those of `base`. -/
structure LoopsMatch (chip : Chip) (base m : Bits Reg 16) (lb : Loopback) : Prop where
  reported : ∀ k, Loop.reported k lb = true ↔ ∃ p ∈ chip.controls k, m p.1 p.2 = true
  one : ∀ p q, chip.IsControl p → chip.IsControl q → m p.1 p.2 = true → m q.1 q.2 = true → p = q
  rest : ∀ q ∈ chip.loopRegs, ∀ b, live q b = false → ¬chip.IsControl (q, b) → m q b = base q b

/-! ## What the calls do to them -/

section Work

variable {chip : Chip} {m : Bits Reg 16}

theorem lan887x_macRegs_off : ∀ q ∈ Lan887x.macRegs, q ∉ Chip.lan887x.loopRegs := by decide

theorem lan887x_initRegs_off : ∀ q ∈ Lan887x.initRegs, q ∉ Chip.lan887x.loopRegs := by decide

/-- The resets of the LAN887x, but for the set-up. -/
theorem lan887x_applyAll_reset {typ : Lan887x.ResetTyp} {d : PhyData Tc10.Data} {q : Reg}
    (hq : q ∈ Chip.lan887x.loopRegs) :
    applyAll live (Lan887x.resetAccesses typ d) m q = applyAll live (Lan887x.extraAccesses typ d) m q := by
  have hsoft : ∀ q ∈ writesOf (Lan887x.softResetAccesses ++ [isolateAccess false]), q ∉ Chip.lan887x.loopRegs := by decide
  have hinit : q ∉ writesOf (Lan887x.initAccesses d) := fun h =>
    lan887x_initRegs_off q (Lan887x.writesOf_initAccesses d q h) hq
  rw [Lan887x.resetAccesses, List.append_cons, applyAll_append_right fun h => hsoft q h hq, applyAll_append_left hinit]

theorem lan887x_applyAll_setup {d : PhyData Tc10.Data} {q : Reg} (hq : q ∈ Chip.lan887x.loopRegs) :
    applyAll live (Lan887x.setupAccesses d) m q = applyAll live (Lan887x.lpbkAccesses none) m q := by
  have htable : ∀ q ∈ writesOf (Lan887x.tableAccesses d), q ∉ Chip.lan887x.loopRegs := by
    unfold Lan887x.tableAccesses
    split_ifs <;> decide
  have htc10 : ∀ q ∈ writesOf Lan887x.tc10Accesses, q ∉ Chip.lan887x.loopRegs := by decide
  have hclr : ∀ q ∈ [(.mmd .vend1 0xF001 : Reg), bmcr], q ∉ Chip.lan887x.loopRegs := by decide
  rw [Lan887x.setupAccesses, applyAll_append_right fun h => htable q h hq, applyAll_append_right fun h => htc10 q h hq,
    applyAll_append_right fun h => lan887x_macRegs_off q (Lan887x.writesOf_macAccesses d q h) hq]
  rw [Lan887x.clrAccesses, applyAll_append_left fun h => hclr q h hq, applyAll_cons, phyMmdRegRd, applyAll_rd]

/-- The set-up of the LAN8x8x. -/
theorem lan8x8x_applyAll_setup {d : PhyData Lan8x8x.Own} {q : Reg} (hq : q ∈ Chip.lan8x8x.loopRegs) :
    applyAll live (Lan8x8x.setupAccesses d) m q = applyAll live [Lan8x8x.lpbkAccess d.conf.speed none] m q := by
  have hpcs : ∀ q ∈ writesOf (Lan8x8x.pcsAccesses d.own.drvId), q ∉ Chip.lan8x8x.loopRegs := by
    unfold Lan8x8x.pcsAccesses
    split_ifs <;> decide
  have hmac : ∀ q ∈ Lan8x8x.macRegs, q ∉ Chip.lan8x8x.loopRegs := by decide +kernel
  have hmode : ∀ q ∈ Lan8x8x.modeRegs, q ∉ Chip.lan8x8x.loopRegs := by decide
  have hdone : ∀ q ∈ writesOf Lan8x8x.doneAccesses, q ∉ Chip.lan8x8x.loopRegs := by decide
  have hlast : q ∉ writesOf (Lan8x8x.pcsAccesses d.own.drvId ++
      (Lan8x8x.macAccesses d ++ (Lan8x8x.modeAccesses d ++ Lan8x8x.doneAccesses))) := by
    simp only [mem_writesOf_append, not_or]
    exact ⟨fun h => hpcs q h hq, fun h => hmac q (Lan8x8x.writesOf_macAccesses d q h) hq,
      fun h => hmode q (Lan8x8x.writesOf_modeAccesses d q h) hq, fun h => hdone q h hq⟩
  have hfirst : ∀ q ∈ [bmcr, bmcr], q ∉ Chip.lan8x8x.loopRegs := by decide
  have hrest : ∀ q ∈ writesOf (Lan8x8x.intAccesses (Lan8x8x.intMasks (Lan8x8x.eventsAfter d.events d.events true) d.events) ++
      Lan8x8x.resetAccesses), q ∉ Chip.lan8x8x.loopRegs :=
    (by decide : ∀ q ∈ [(.mmd .vend1 0xF0E4 : Reg), .mmd .pmapmd 0x8503, .mmd .pmapmd 0x8502, .mmd .vend1 0xF0E5,
      .mmd .an 0x0200, .mmd .pmapmd 0x8903, .mmd .pmapmd 0x8902, .mmd .pmapmd 0x8903, .mmd .pmapmd 0x8902],
      q ∉ Chip.lan8x8x.loopRegs)
  rw [Lan8x8x.setupAccesses, applyAll_append_left hlast, Lan8x8x.restartAccesses]
  have hsplit : ∀ (a b c e : Acc) (as : List Acc), a :: b :: c :: e :: as = [a, b, c] ++ ([e] ++ as) := fun _ _ _ _ _ => rfl
  rw [hsplit, applyAll_append_right fun h => hfirst q h hq, applyAll_append_left fun h => hrest q h hq]

/-- All that a call does to these registers is what `setup_lpbk` does. -/
theorem applyAll_workAccesses {w : Work} {d : PhyData chip.Own} {q : Reg} (hq : q ∈ chip.loopRegs) :
    applyAll live (chip.workAccesses w d) m q =
      match chip.request w with
      | none => m q
      | some loopback => applyAll live (chip.loopAccesses d.conf.speed loopback) m q := by
  cases chip with
  | lan887x =>
    cases w with
    | nothing => exact congrFun applyAll_nil q
    | powerDown =>
      have hoff : ∀ q ∈ [bmcr], q ∉ Chip.lan887x.loopRegs := by decide
      exact applyAll_frame fun h => hoff q h hq
    | enable macAneg =>
      refine (lan887x_applyAll_reset hq).trans ?_
      cases macAneg with
      | true => exact applyAll_frame fun h => lan887x_macRegs_off q (Lan887x.writesOf_macAccesses d q h) hq
      | false => exact congrFun applyAll_nil q
    | mediaReset => exact (lan887x_applyAll_reset hq).trans (congrFun applyAll_nil q)
    | ifReset =>
      refine (lan887x_applyAll_reset hq).trans ?_
      exact applyAll_frame fun h => lan887x_macRegs_off q (Lan887x.writesOf_macAccesses d q h) hq
    | resetInit => exact (lan887x_applyAll_reset hq).trans (lan887x_applyAll_setup hq)
    | setupLpbk loopback => rfl
  | lan8x8x =>
    have hpd : ∀ q ∈ [(.mmd .pmapmd 0x0000 : Reg)], q ∉ Chip.lan8x8x.loopRegs := by decide
    cases w with
    | nothing => exact congrFun applyAll_nil q
    | powerDown => exact applyAll_frame fun h => hpd q h hq
    | enable =>
      refine Eq.trans ?_ (lan8x8x_applyAll_setup hq)
      exact @applyAll_append_right _ _ _ live [phyMmdRegClearBits .pmapmd 0x0000 (bit 11)] _ m q fun h => hpd q h hq
    | mediaReset | ifReset | resetInit => exact lan8x8x_applyAll_setup hq
    | setupLpbk loopback => rfl

theorem workData_loopback {w : Work} {d : PhyData chip.Own} : (chip.workData w d).loopback =
    match chip.request w with
    | none => d.loopback
    | some loopback => chip.kept loopback := by
  cases chip <;> cases w <;> rfl

end Work

/-! ## Requests that fit -/

/-- A request finds off what it does not switch off itself, and clear what it clears beside the loopbacks. On the LAN887x
the connector's register is written, whole, only if neither far-end nor near-end loopback is asked for. On the LAN8x8x the
far-end loopback is never switched off, and at 1 Gbit/s bit 14 of its register is cleared. -/
def RequestFits : (chip : Chip) → (base m : Bits Reg 16) → PhyData chip.Own → Option Loopback → Prop
  | .lan887x, _, _, d, none => d.loopback.connectorEna = false
  | .lan887x, base, _, d, some l =>
    if l.farEndEna ∨ l.nearEndEna then d.loopback.connectorEna = false
    else ∀ b, b ≠ 1 → base chiptopCommReg1 b = false
  | .lan8x8x, base, m, d, loopback =>
    if (Lan8x8x.lpbkKept loopback).farEndEna then
      match d.conf.speed with
      | .m100 => d.loopback.nearEndEna = false ∧ m e1000t1RemoteLpbk 0 = false
      | .g1 => d.loopback.nearEndEna = false ∧ m e100t1RemoteLpbk 0 = false ∧ base e1000t1RemoteLpbk 14 = false
      | _ => d.loopback.farEndEna = true
    else d.loopback.farEndEna = false

section Match

variable {chip : Chip} {base m m' : Bits Reg 16} {lb : Loopback}

theorem mem_loopRegs_of_isControl {p : Control} (h : chip.IsControl p) : p.1 ∈ chip.loopRegs := by
  have hall : ∀ chip : Chip, ∀ p ∈ chip.controls .farEnd ++ chip.controls .nearEnd ++ chip.controls .connector ++
      chip.controls .io, p.1 ∈ chip.loopRegs := by
    intro chip
    cases chip <;> decide
  exact hall chip p h

theorem LoopsMatch.congr (h : LoopsMatch chip base m lb) (hm : ∀ q ∈ chip.loopRegs, m' q = m q) :
    LoopsMatch chip base m' lb := by
  have hbit : ∀ p, chip.IsControl p → m' p.1 p.2 = m p.1 p.2 := fun p hp =>
    congrFun (hm p.1 (mem_loopRegs_of_isControl hp)) p.2
  refine ⟨fun k => (h.reported k).trans ⟨?_, ?_⟩, fun p q hp hq => ?_, fun q hq b => ?_⟩
  · rintro ⟨p, hp, hon⟩
    exact ⟨p, hp, by rwa [hbit p (Chip.isControl_iff.mpr ⟨k, hp⟩)]⟩
  · rintro ⟨p, hp, hon⟩
    exact ⟨p, hp, by rwa [hbit p (Chip.isControl_iff.mpr ⟨k, hp⟩)] at hon⟩
  · rw [hbit p hp, hbit q hq]
    exact h.one p q hp hq
  · rw [hm q hq]
    exact h.rest q hq b

/-- The other bits, when a sequence leaves them alone or makes of them what they are. -/
theorem LoopsMatch.rest_applyAll {as : List Acc} (h : LoopsMatch chip base m lb)
    (has : ∀ q ∈ chip.loopRegs, ∀ b, ¬chip.IsControl (q, b) → ∀ v, lastBit as q b = some v → base q b = v) :
    ∀ q ∈ chip.loopRegs, ∀ b, live q b = false → ¬chip.IsControl (q, b) → applyAll live as m q b = base q b := by
  intro q hq b hl hno
  cases hv : lastBit as q b with
  | none => exact (applyAll_of_none hv).trans (h.rest q hq b hl hno)
  | some v => exact (applyAll_of_lastBit hl hv).trans (has q hq b hno v hv).symm

/-- The bits of the LAN887x, one by one. -/
theorem lan887x_reported (h : LoopsMatch .lan887x base m lb) :
    m misCfgReg2 2 = lb.farEndEna ∧ m misCfgReg2 1 = lb.nearEndEna ∧
      m chiptopCommReg1 1 = lb.connectorEna ∧ m misCfgReg2 3 = false := by
  have hf := h.reported .farEnd
  have hn := h.reported .nearEnd
  have hc := h.reported .connector
  have hi := h.reported .io
  simp only [Loop.reported, Chip.controls, List.mem_singleton, exists_eq_left, Bool.false_eq_true, false_iff] at hf hn hc hi
  exact ⟨Bool.eq_iff_iff.mpr hf.symm, Bool.eq_iff_iff.mpr hn.symm, Bool.eq_iff_iff.mpr hc.symm, by simpa using hi⟩

theorem lan887x_match (hf : m misCfgReg2 2 = lb.farEndEna) (hn : m misCfgReg2 1 = lb.nearEndEna)
    (hc : m chiptopCommReg1 1 = lb.connectorEna) (hi : m misCfgReg2 3 = false)
    (hone : (lb.farEndEna = false ∨ lb.nearEndEna = false) ∧ (lb.farEndEna = false ∨ lb.connectorEna = false) ∧
      (lb.nearEndEna = false ∨ lb.connectorEna = false))
    (hrest : ∀ q ∈ Chip.lan887x.loopRegs, ∀ b, live q b = false → ¬Chip.lan887x.IsControl (q, b) → m q b = base q b) :
    LoopsMatch .lan887x base m lb := by
  refine ⟨fun k => ?_, fun p q hp hq => ?_, hrest⟩
  · cases k <;> simp [Loop.reported, Chip.controls, hf, hn, hc, hi]
  · simp only [Chip.IsControl, Chip.controls, List.mem_append, List.mem_singleton] at hp hq
    rcases hp with ((rfl | rfl) | rfl) | rfl <;> rcases hq with ((rfl | rfl) | rfl) | rfl <;> grind

/-- The bits of the LAN8x8x, one by one. -/
theorem lan8x8x_reported (h : LoopsMatch .lan8x8x base m lb) :
    lb.farEndEna = (m e100t1RemoteLpbk 0 || m e1000t1RemoteLpbk 0) ∧ lb.nearEndEna = m pcsCtrl1 14 ∧
      lb.connectorEna = false := by
  have hf := h.reported .farEnd
  have hn := h.reported .nearEnd
  have hc := h.reported .connector
  simp [Loop.reported, Chip.controls] at hf hn hc
  exact ⟨Bool.eq_iff_iff.mpr (by simpa using hf), hn, hc⟩

theorem lan8x8x_match (hf : lb.farEndEna = (m e100t1RemoteLpbk 0 || m e1000t1RemoteLpbk 0))
    (hn : lb.nearEndEna = m pcsCtrl1 14) (hc : lb.connectorEna = false)
    (hone : (m e100t1RemoteLpbk 0 = false ∨ m e1000t1RemoteLpbk 0 = false) ∧
      (lb.farEndEna = false ∨ lb.nearEndEna = false))
    (hrest : ∀ q ∈ Chip.lan8x8x.loopRegs, ∀ b, live q b = false → ¬Chip.lan8x8x.IsControl (q, b) → m q b = base q b) :
    LoopsMatch .lan8x8x base m lb := by
  refine ⟨fun k => ?_, fun p q hp hq => ?_, hrest⟩
  · cases k <;> simp [Loop.reported, Chip.controls, hf, hn, hc]
  · rw [hf, hn] at hone
    simp only [Chip.IsControl, Chip.controls, List.mem_append, List.mem_cons, List.not_mem_nil, or_false] at hp hq
    rcases hp with (rfl | rfl) | rfl <;> rcases hq with (rfl | rfl) | rfl <;> grind

/-- A request that fits, on the LAN887x. -/
theorem lan887x_request {d : PhyData Tc10.Data} {loopback : Option Loopback}
    (h : LoopsMatch .lan887x base m d.loopback) (hfits : RequestFits .lan887x base m d loopback) :
    LoopsMatch .lan887x base (applyAll live (Lan887x.lpbkAccesses loopback) m) (Lan887x.lpbkKept loopback) := by
  obtain ⟨-, -, hc, -⟩ := lan887x_reported h
  -- all but the requests for the connector leave its register alone
  have hmodify : ∀ value : BitVec 16, (∀ q ∈ Chip.lan887x.loopRegs, ∀ b, ¬Chip.lan887x.IsControl (q, b) →
      lastBit [phyMmdRegModify .vend1 0x0A03 Lan887x.lpbkMask value] q b = none) → d.loopback.connectorEna = false →
      ∀ far near : Bool, modifiedBit Lan887x.lpbkMask value 2 = some far → modifiedBit Lan887x.lpbkMask value 1 = some near →
      modifiedBit Lan887x.lpbkMask value 3 = some false → (far = false ∨ near = false) →
      LoopsMatch .lan887x base (applyAll live [phyMmdRegModify .vend1 0x0A03 Lan887x.lpbkMask value] m)
        ⟨far, near, false⟩ := by
    intro value hoff hconn far near hfar hnear hio hone
    refine lan887x_match (applyAll_of_lastBit rfl hfar) (applyAll_of_lastBit rfl hnear) ?_ (applyAll_of_lastBit rfl hio)
      ⟨hone, Or.inr rfl, Or.inr rfl⟩ (h.rest_applyAll fun q hq b hno v hv => ?_)
    · exact (applyAll_of_none rfl).trans (hc.trans hconn)
    · rw [hoff q hq b hno] at hv
      cases hv
  cases loopback with
  | none => exact hmodify 0 (by decide) hfits false false rfl rfl rfl (Or.inl rfl)
  | some l =>
    obtain ⟨far, near, connector⟩ := l
    cases far with
    | true => exact hmodify (bit 2) (by decide) (by simpa [RequestFits] using hfits) true false rfl rfl rfl (Or.inr rfl)
    | false =>
      cases near with
      | true => exact hmodify (bit 1) (by decide) (by simpa [RequestFits] using hfits) false true rfl rfl rfl (Or.inl rfl)
      | false =>
        have hclear : ∀ b, b ≠ 1 → base chiptopCommReg1 b = false := by simpa [RequestFits] using hfits
        have hmis : ∀ connector b, ¬Chip.lan887x.IsControl (misCfgReg2, b) →
            lastBit (Lan887x.lpbkAccesses (some ⟨false, false, connector⟩)) misCfgReg2 b = none := by decide
        have hcomm : ∀ connector b, b ≠ 1 →
            lastBit (Lan887x.lpbkAccesses (some ⟨false, false, connector⟩)) chiptopCommReg1 b = some false := by decide
        refine lan887x_match rfl rfl ?_ rfl ⟨Or.inl rfl, Or.inl rfl, Or.inl rfl⟩ (h.rest_applyAll ?_)
        · cases connector <;> rfl
        · intro q hq b hno v hv
          have hor : q = misCfgReg2 ∨ q = chiptopCommReg1 := by simpa [Chip.loopRegs] using hq
          rcases hor with rfl | rfl
          · exact absurd (hv.symm.trans (hmis connector b hno)) (Option.some_ne_none v)
          · have hb : b ≠ 1 := by
              rintro rfl
              exact hno (by decide)
            rw [hcomm connector b hb] at hv
            exact (hclear b hb).trans (Option.some.inj hv)

/-- The near-end loopback of the LAN8x8x is switched; the far-end one was off, or stays on alone. -/
theorem lan8x8x_ctrl1 (h : LoopsMatch .lan8x8x base m lb) {near : Bool} {value : BitVec 32}
    (hoff : ∀ q ∈ Chip.lan8x8x.loopRegs, ∀ b, ¬Chip.lan8x8x.IsControl (q, b) →
      lastBit [phyMmdRegMod32 .pcs 0x0000 0x4000 value] q b = none)
    (hbit : lastBit [phyMmdRegMod32 .pcs 0x0000 0x4000 value] pcsCtrl1 14 = some near)
    (hone : lb.farEndEna = false ∨ near = false) :
    LoopsMatch .lan8x8x base (applyAll live [phyMmdRegMod32 .pcs 0x0000 0x4000 value] m) ⟨lb.farEndEna, near, false⟩ := by
  obtain ⟨hfar, -, -⟩ := lan8x8x_reported h
  have h100 : applyAll live [phyMmdRegMod32 .pcs 0x0000 0x4000 value] m e100t1RemoteLpbk 0 = m e100t1RemoteLpbk 0 :=
    applyAll_of_none rfl
  have h1000 : applyAll live [phyMmdRegMod32 .pcs 0x0000 0x4000 value] m e1000t1RemoteLpbk 0 = m e1000t1RemoteLpbk 0 :=
    applyAll_of_none rfl
  refine lan8x8x_match ?_ (applyAll_of_lastBit rfl hbit).symm rfl ⟨?_, hone⟩ (h.rest_applyAll fun q hq b hno v hv => ?_)
  · rw [h100, h1000, ← hfar]
  · rw [h100, h1000]
    by_contra hboth
    rw [not_or, Bool.not_eq_false, Bool.not_eq_false] at hboth
    have heq := h.one (e100t1RemoteLpbk, 0) (e1000t1RemoteLpbk, 0) (by decide) (by decide) hboth.1 hboth.2
    exact absurd heq (by decide)
  · rw [hoff q hq b hno] at hv
    cases hv

/-- The far-end loopback of the LAN8x8x is switched on. -/
theorem lan8x8x_farEnd (h : LoopsMatch .lan8x8x base m lb) (hnear : lb.nearEndEna = false) (as : List Acc)
    (hctrl1 : lastBit as pcsCtrl1 14 = none)
    (hone : applyAll live as m e100t1RemoteLpbk 0 = !applyAll live as m e1000t1RemoteLpbk 0)
    (hrest : ∀ q ∈ Chip.lan8x8x.loopRegs, ∀ b, ¬Chip.lan8x8x.IsControl (q, b) → ∀ v, lastBit as q b = some v → base q b = v) :
    LoopsMatch .lan8x8x base (applyAll live as m) ⟨true, false, false⟩ := by
  obtain ⟨-, hn, -⟩ := lan8x8x_reported h
  refine lan8x8x_match ?_ (hnear.symm.trans (hn.trans (applyAll_of_none hctrl1).symm)) rfl ⟨?_, Or.inr rfl⟩
    (h.rest_applyAll hrest)
  · rw [hone, Bool.not_or_self]
  · rw [hone]
    cases applyAll live as m e1000t1RemoteLpbk 0 <;> simp

/-- A request that fits, on the LAN8x8x. -/
theorem lan8x8x_request {d : PhyData Lan8x8x.Own} {loopback : Option Loopback}
    (h : LoopsMatch .lan8x8x base m d.loopback) (hfits : RequestFits .lan8x8x base m d loopback) :
    LoopsMatch .lan8x8x base (applyAll live [Lan8x8x.lpbkAccess d.conf.speed loopback] m) (Lan8x8x.lpbkKept loopback) := by
  have hoff : RequestFits .lan8x8x base m d none → LoopsMatch .lan8x8x base
      (applyAll live [phyMmdRegMod32 .pcs 0x0000 0x4000 0] m) ⟨false, false, false⟩ := by
    intro hd
    have hd : d.loopback.farEndEna = false := by simpa [RequestFits, Lan8x8x.lpbkKept] using hd
    have hres : LoopsMatch .lan8x8x base (applyAll live [phyMmdRegMod32 .pcs 0x0000 0x4000 0] m)
        ⟨d.loopback.farEndEna, false, false⟩ := lan8x8x_ctrl1 h (by decide) rfl (Or.inr rfl)
    rwa [hd] at hres
  cases loopback with
  | none => exact hoff hfits
  | some l =>
    obtain ⟨far, near, connector⟩ := l
    cases near with
    | true =>
      have hd : d.loopback.farEndEna = false := by simpa [RequestFits, Lan8x8x.lpbkKept] using hfits
      have hres : LoopsMatch .lan8x8x base (applyAll live [phyMmdRegMod32 .pcs 0x0000 0x4000 0x4000] m)
          ⟨d.loopback.farEndEna, true, false⟩ := lan8x8x_ctrl1 h (by decide) rfl (Or.inl hd)
      rwa [hd] at hres
    | false =>
      cases far with
      | false => exact hoff hfits
      | true =>
        simp only [RequestFits, Lan8x8x.lpbkKept, Bool.false_eq_true, if_false, if_true] at hfits
        cases hspeed : d.conf.speed with
        | m100 =>
          rw [hspeed] at hfits
          obtain ⟨hn, h1000⟩ := hfits
          have hrest : ∀ q ∈ Chip.lan8x8x.loopRegs, ∀ b, ¬Chip.lan8x8x.IsControl (q, b) →
            lastBit [phyMmdRegMod32 .pcs 0x8000 0x1 0x1] q b = none := by decide
          have hkeep : applyAll live [phyMmdRegMod32 .pcs 0x8000 0x1 0x1] m e1000t1RemoteLpbk 0 = false :=
            (applyAll_of_none rfl).trans h1000
          refine lan8x8x_farEnd h hn [phyMmdRegMod32 .pcs 0x8000 0x1 0x1] rfl ?_ fun q hq b hno v hv => ?_
          · rw [hkeep]
            rfl
          · rw [hrest q hq b hno] at hv
            cases hv
        | g1 =>
          rw [hspeed] at hfits
          obtain ⟨hn, h100, h14⟩ := hfits
          have hrest : ∀ q ∈ Chip.lan8x8x.loopRegs, ∀ b, ¬Chip.lan8x8x.IsControl (q, b) →
            lastBit [phyMmdRegMod32 .pcs 0x8322 0x4000 0x1] q b = none ∨ q = e1000t1RemoteLpbk ∧ b = 14 := by decide
          have hkeep : applyAll live [phyMmdRegMod32 .pcs 0x8322 0x4000 0x1] m e100t1RemoteLpbk 0 = false :=
            (applyAll_of_none rfl).trans h100
          refine lan8x8x_farEnd h hn [phyMmdRegMod32 .pcs 0x8322 0x4000 0x1] rfl ?_ fun q hq b hno v hv => ?_
          · rw [hkeep]
            rfl
          · rcases hrest q hq b hno with hnone | ⟨rfl, rfl⟩
            · rw [hnone] at hv
              cases hv
            · exact h14.trans (Option.some.inj hv)
        | undefined | m10 | m2500 | g5 | g10 | g12 | g25 | auto =>
          rw [hspeed] at hfits
          have hd : d.loopback.farEndEna = true := hfits
          have hres : LoopsMatch .lan8x8x base (applyAll live [phyMmdRegMod32 .pcs 0x0000 0x4000 0] m)
              ⟨d.loopback.farEndEna, false, false⟩ := lan8x8x_ctrl1 h (by decide) rfl (Or.inr rfl)
          rwa [hd] at hres

end Match

/-! ## Runs -/

/-- A call of a port, whatever it returns, or an update by the PHY itself. `P` restricts the calls. -/
inductive PortStep {H : Type} (chip : Chip) (rf : PhyBus H) (polls : Nat) (P : Dev (PhyData chip.Own) H → Op → Prop) :
    Dev (PhyData chip.Own) H → Dev (PhyData chip.Own) H → Prop
  | call {s : Dev (PhyData chip.Own) H} (op : Op) : P s op →
      PortStep chip rf polls P s (final ((chip.driver rf.toBus polls).call op) s)
  | drift {s : Dev (PhyData chip.Own) H} {h : H} : rf.drift s.hw h → PortStep chip rf polls P s { s with hw := h }

abbrev PortRun {H : Type} (chip : Chip) (rf : PhyBus H) (polls : Nat) (P : Dev (PhyData chip.Own) H → Op → Prop) :
    Dev (PhyData chip.Own) H → Dev (PhyData chip.Own) H → Prop :=
  Relation.ReflTransGen (PortStep chip rf polls P)

/-- No access of the call fails, and the `setup_lpbk` in it, if there is one, fits. -/
def LoopFits {H : Type} (chip : Chip) (rf : PhyBus H) (polls : Nat) (base : Bits Reg 16) (s : Dev (PhyData chip.Own) H)
    (op : Op) : Prop :=
  rf.Sound s.hw ∧ ∀ d w, (chip.driver rf.toBus polls).plan s.conf op = .ok (d, w) →
    ∀ loopback, chip.request w = some loopback → RequestFits chip base (rf.view s.hw) d loopback

section Runs

variable {chip : Chip} {H : Type} {rf : PhyBus H} {polls : Nat} {base : Bits Reg 16} {s t : Dev (PhyData chip.Own) H}

/-- The data of a port are such as its calls leave them, and its loopbacks match. -/
def LoopInv (chip : Chip) (rf : PhyBus H) (base : Bits Reg 16) (s : Dev (PhyData chip.Own) H) : Prop :=
  Ready chip (rf.view s.hw) s.conf ∧ LoopsMatch chip base (rf.view s.hw) s.conf.loopback

theorem tracks_loopRegs (chip : Chip) : chip.Tracks (chip.loopRegs ++ [physid1, physid2]) := by
  cases chip with
  | lan887x => constructor <;> decide
  | lan8x8x => constructor <;> decide

theorem LoopsMatch.request {m : Bits Reg 16} {d : PhyData chip.Own} {loopback : Option Loopback}
    (h : LoopsMatch chip base m d.loopback) (hfits : RequestFits chip base m d loopback) :
    LoopsMatch chip base (applyAll live (chip.loopAccesses d.conf.speed loopback) m) (chip.kept loopback) := by
  cases chip with
  | lan887x => exact lan887x_request h hfits
  | lan8x8x => exact lan8x8x_request h hfits

/-- A call that fits. -/
theorem LoopInv.call {op : Op} (h : LoopInv chip rf base s) (hfits : LoopFits chip rf polls base s op) :
    LoopInv chip rf base (final ((chip.driver rf.toBus polls).call op) s) := by
  obtain ⟨hready, hmatch⟩ := h
  obtain ⟨hs, hfits⟩ := hfits
  refine ⟨hready.call hs, ?_⟩
  have hstores := stores rf.toBus polls s.conf op
  cases hplan : (chip.driver rf.toBus polls).plan s.conf op with
  | error e =>
    rw [hplan] at hstores
    have hkeep : e.2.loopback = s.conf.loopback := hstores.loopback
    rw [(call_refused hplan).2, hkeep]
    exact hmatch
  | ok a =>
    obtain ⟨d, w⟩ := a
    rw [hplan] at hstores
    have hkeep : d.loopback = s.conf.loopback := hstores.loopback
    obtain ⟨hconf, hview⟩ := (call_done hs (tracks_loopRegs chip) hready hplan).2.view
    have hbits : ∀ q ∈ chip.loopRegs, rf.view (final ((chip.driver rf.toBus polls).call op) s).hw q =
        match chip.request w with
        | none => rf.view s.hw q
        | some loopback => applyAll live (chip.loopAccesses d.conf.speed loopback) (rf.view s.hw) q := fun q hq =>
      (hview q (List.mem_append_left _ hq)).trans (applyAll_workAccesses hq)
    rw [hconf, workData_loopback]
    rw [← hkeep] at hmatch
    cases hreq : chip.request w with
    | none =>
      rw [hreq] at hbits
      exact hmatch.congr hbits
    | some loopback =>
      rw [hreq] at hbits
      exact (hmatch.request (hfits d w hplan loopback hreq)).congr hbits

theorem PortStep.loopInv (hstep : PortStep chip rf polls (LoopFits chip rf polls base) s t) (h : LoopInv chip rf base s) :
    LoopInv chip rf base t := by
  cases hstep with
  | call op hfits => exact h.call hfits
  | drift hd =>
    unfold LoopInv
    rw [rf.view_drift _ _ hd]
    exact h

/-- **Loopbacks.** In every run of calls that fit, the loopback that is on is the one that is reported, at most one bit
that switches a loopback is on, and the other bits of their registers are as they were at the start. -/
theorem loops_match (chip : Chip) (rf : PhyBus H) (polls : Nat) (base : Bits Reg 16) {s t : Dev (PhyData chip.Own) H}
    (hready : Ready chip (rf.view s.hw) s.conf) (hstart : LoopsMatch chip base (rf.view s.hw) s.conf.loopback)
    (hrun : PortRun chip rf polls (LoopFits chip rf polls base) s t) :
    LoopsMatch chip base (rf.view t.hw) t.conf.loopback := by
  suffices h : LoopInv chip rf base t from h.2
  induction hrun with
  | refl => exact ⟨hready, hstart⟩
  | tail _ hstep ih => exact hstep.loopInv ih

end Runs

/-! ### A loopback that stays on -/

abbrev benchLoop (chip : Chip) (loopback : Loopback) (s : Dev (PhyData chip.Own) (Reg → BitVec 16)) :
    Dev (PhyData chip.Own) (Reg → BitVec 16) := final ((chip.driver bench.toBus 1).call (.loopback (some loopback))) s

theorem bench_loops (chip : Chip) (speed : Speed) :
    LoopsMatch chip (fun _ _ => false) (bench.view (chip.benchStart speed).hw) (chip.benchData speed).loopback := by
  have hoff : ∀ q b, bench.view (chip.benchStart speed).hw q b = false := by
    intro q b
    have hzero : bench.view (chip.benchStart speed).hw q b = if live q b then false else (0 : BitVec 16).getLsbD b := rfl
    rw [hzero]
    simp
  refine ⟨fun k => ?_, fun p q _ _ hp => ?_, fun q _ b _ _ => hoff q b⟩
  · simp only [hoff, Bool.false_eq_true, and_false, exists_false, iff_false]
    cases k <;> exact Bool.false_ne_true
  · rw [hoff] at hp
    cases hp

theorem loops_match_nearEnd : LoopsMatch .lan887x (fun _ _ => false)
    (bench.view (benchLoop .lan887x ⟨false, true, false⟩ (Chip.lan887x.benchStart .auto)).hw)
    (benchLoop .lan887x ⟨false, true, false⟩ (Chip.lan887x.benchStart .auto)).conf.loopback := by
  have hfits : LoopFits .lan887x bench 1 (fun _ _ => false) (Chip.lan887x.benchStart .auto)
      (.loopback (some ⟨false, true, false⟩)) := by
    refine ⟨bitStorage_sound _, ?_⟩
    rintro d w ⟨⟩ loopback ⟨⟩
    rfl
  exact loops_match .lan887x bench 1 _ (bench_ready (Or.inl rfl)) (bench_loops _ _)
    (.single (.call (.loopback (some ⟨false, true, false⟩)) hfits))

/-- The loopbacks match after every run whose accesses succeed. -/
def LoopsAlwaysMatch (chip : Chip) : Prop := ∀ (base : Bits Reg 16) (s t : Dev (PhyData chip.Own) (Reg → BitVec 16)),
  Ready chip (bench.view s.hw) s.conf → LoopsMatch chip base (bench.view s.hw) s.conf.loopback →
    PortRun chip bench 1 (fun _ _ => True) s t → LoopsMatch chip base (bench.view t.hw) t.conf.loopback

/-- One loopback is asked for, and then another one, or none. -/
theorem not_loopsAlwaysMatch {chip : Chip} {speed : Speed} (hspeed : speed = .auto ∨ speed = .m100 ∨ speed = .g1)
    {first second : Loopback} {k : Loop} {p : Control} (hp : p ∈ chip.controls k)
    (hon : bench.view (benchLoop chip second (benchLoop chip first (chip.benchStart speed))).hw p.1 p.2 = true)
    (hno : Loop.reported k (benchLoop chip second (benchLoop chip first (chip.benchStart speed))).conf.loopback = false) :
    ¬LoopsAlwaysMatch chip := by
  intro h
  have hfirst : PortStep chip bench 1 (fun _ _ => True) (chip.benchStart speed) (benchLoop chip first (chip.benchStart speed)) :=
    .call (.loopback (some first)) trivial
  have hrun := (Relation.ReflTransGen.single hfirst).tail (.call (.loopback (some second)) trivial)
  have hrep := ((h _ _ _ (bench_ready hspeed) (bench_loops chip speed) hrun).reported k).mpr ⟨p, hp, hon⟩
  exact Bool.false_ne_true (hno.symm.trans hrep)

/-- On the LAN887x the connector's loopback stays on beside the near-end one, on the LAN8x8x the far-end one is never
switched off. -/
theorem not_loops_match : ¬LoopsAlwaysMatch .lan887x ∧ ¬LoopsAlwaysMatch .lan8x8x :=
  ⟨@not_loopsAlwaysMatch .lan887x .auto (Or.inl rfl) ⟨false, false, true⟩ ⟨false, true, false⟩ .connector
      (chiptopCommReg1, 1) (by decide) rfl rfl,
    @not_loopsAlwaysMatch .lan8x8x .m100 (Or.inr (Or.inl rfl)) ⟨true, false, false⟩ ⟨false, false, false⟩ .farEnd
      (e100t1RemoteLpbk, 0) (by decide) rfl rfl⟩

end Lan80xx.T1
