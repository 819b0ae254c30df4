import Lan80xx.Lan8814.Diagnostics

/-!
# LAN8814: the settings over resets and diagnostics

- `Restored`: the settings are those of a freshly reset port with the stored configuration;
- `restored_iff`: when a reset gets there, for any settings before it;
- `Held`, `settings_restored`: the invariant of calls after which every reset does.
-/

namespace Lan80xx.Lan8814.Gphy

open RegCalls

/-! ## A freshly reset port -/

/-- A port after a power-up and the work-arounds of a reset, configured by a driver that has just probed it. -/
def freshlyConfigured (chip : Chip) (dev : DevInfo) (config : Conf) : Port :=
  after (confSet_ config) (after workaroundAfterReset ⟨chip.initial, probed dev⟩)

/-- The settings are those of a freshly reset port with the stored configuration. -/
def Restored (chip : Chip) (s : Port) : Prop :=
  ∀ r b, Setting r b → s.bit r b = (freshlyConfigured chip s.data.dev s.data.conf).bit r b

/-- The port is enabled, and negotiates. -/
def Conf.Negotiating (c : Conf) : Prop := c.adminEnable = true ∧ c.speed.Negotiates

instance (c : Conf) : Decidable c.Negotiating := inferInstanceAs (Decidable (_ ∧ _))

/-- The MDI bits of a freshly reset port. -/
def Conf.mdiBit (c : Conf) (b : Nat) : Bool := c.adminEnable && c.mdiMode.mdiBit b

theorem bit_fresh (chip : Chip) (dev : DevInfo) (c : Conf) {r : Reg} {b : Nat} (h : Setting r b)
    (hr : r ≠ gphyDbgCtl1) :
    (freshlyConfigured chip dev c).bit r b = c.sets r b (worked r b ((chip.initial r).getLsbD b)) := by
  obtain ⟨hc, hb⟩ := h.configured hr
  rw [freshlyConfigured, bit_confSet _ _ hc hb, bit_workaroundAfterReset _ h]
  rfl

theorem bit_fresh_mdi (chip : Chip) (dev : DevInfo) (c : Conf) {b : Nat} (hb : b = 6 ∨ b = 7) :
    (freshlyConfigured chip dev c).bit gphyDbgCtl1 b = c.mdiBit b := by
  have hinit : (after workaroundAfterReset ⟨chip.initial, probed dev⟩ : Port).bit gphyDbgCtl1 b = false := by
    rw [bit_workaroundAfterReset _ (.mdi hb)]
    exact chip.mdi_auto b hb
  have hmode : (after workaroundAfterReset ⟨chip.initial, probed dev⟩ : Port).data.conf.mdiMode = .auto := by
    rw [keepsData_workaroundAfterReset]
    rfl
  rw [freshlyConfigured, bit_confSet_mdi _ _ hb, hinit, hmode, Conf.mdiBit]
  cases c.adminEnable <;> cases c.mdiMode <;> simp [MediaMode.mdiBit]

/-! ## A reset, after any settings -/

theorem sets_macIfAnegEna (c : Conf) (aneg : Bool) (r : Reg) (b : Nat) (old : Bool) :
    ({ c with macIfAnegEna := aneg } : Conf).sets r b old = c.sets r b old := rfl

theorem sets_mstrSlv (c : Conf) {b : Nat} (hb : b = 9 ∨ b = 11 ∨ b = 12) (old : Bool) :
    c.sets anegMstrSlvCtrl b old = if c.Negotiating then c.mstrSlv.getLsbD b else old := by
  by_cases hn : c.Negotiating
  · have hmask : c.mask anegMstrSlvCtrl = full1000T ||| cfgVal ||| cfgEna := if_pos hn
    rw [if_pos hn, Conf.sets, hmask]
    obtain rfl | rfl | rfl := hb <;> rfl
  · have hmask : c.mask anegMstrSlvCtrl = 0 := if_neg hn
    rw [if_neg hn, Conf.sets, hmask]
    simp

/-- The settings `pre` have gone through a reset, for the configuration `c`. -/
structure Settled (chip : Chip) (c : Conf) (pre : Reg → Nat → Bool) (t : Port) : Prop where
  conf : ∃ aneg, t.data.conf = { c with macIfAnegEna := aneg }
  bit : ∀ r b, Setting r b → t.bit r b = c.sets r b (worked r b (chip.kept r b (pre r b)))

variable {chip : Chip} {c : Conf} {pre : Reg → Nat → Bool} {s t : Port}

/-- A reset restores the settings exactly if it leaves the MDI bits right, which no configuration writes, and the
master/slave register, which only a configuration with auto-negotiation writes. -/
theorem Settled.restored_iff (h : Settled chip c pre t) : Restored chip t ↔
    (∀ b, b = 6 ∨ b = 7 → chip.kept gphyDbgCtl1 b (pre gphyDbgCtl1 b) = c.mdiBit b) ∧
      (¬c.Negotiating → ∀ b, b = 9 ∨ b = 11 ∨ b = 12 →
        chip.kept anegMstrSlvCtrl b (pre anegMstrSlvCtrl b) = (chip.initial anegMstrSlvCtrl).getLsbD b) := by
  obtain ⟨aneg, hconf⟩ := h.conf
  have hmdi (b : Nat) (hb : b = 6 ∨ b = 7) :
      (t.bit gphyDbgCtl1 b = (freshlyConfigured chip t.data.dev t.data.conf).bit gphyDbgCtl1 b) ↔
        chip.kept gphyDbgCtl1 b (pre gphyDbgCtl1 b) = c.mdiBit b := by
    rw [h.bit _ _ (.mdi hb), bit_fresh_mdi _ _ _ hb, hconf]
    simp [Conf.sets, Conf.mask, worked, Conf.mdiBit]
  have hmaster (b : Nat) (hb : b = 9 ∨ b = 11 ∨ b = 12) :
      (t.bit anegMstrSlvCtrl b = (freshlyConfigured chip t.data.dev t.data.conf).bit anegMstrSlvCtrl b) ↔
        (¬c.Negotiating →
          chip.kept anegMstrSlvCtrl b (pre anegMstrSlvCtrl b) = (chip.initial anegMstrSlvCtrl).getLsbD b) := by
    rw [h.bit _ _ (.master hb), bit_fresh _ _ _ (.master hb) (by decide), hconf, sets_macIfAnegEna c aneg, sets_mstrSlv c hb,
      sets_mstrSlv c hb]
    by_cases hn : c.Negotiating <;> simp [hn, worked]
  constructor
  · intro hres
    exact ⟨fun b hb => (hmdi b hb).mp (hres _ _ (.mdi hb)), fun hn b hb => (hmaster b hb).mp (hres _ _ (.master hb)) hn⟩
  · rintro ⟨h28, h9⟩ r b hset
    cases hset with
    | basic hb hs =>
      rw [h.bit _ _ (.basic hb hs), bit_fresh _ _ _ (.basic hb hs) (by decide), hconf, sets_macIfAnegEna c aneg]
      rfl
    | advertisement hb =>
      rw [h.bit _ _ (.advertisement hb), bit_fresh _ _ _ (.advertisement hb) (by decide), hconf, sets_macIfAnegEna c aneg]
      rfl
    | master hb => exact (hmaster b hb).mpr fun hn => h9 hn b hb
    | mdi hb => exact (hmdi b hb).mpr (h28 b hb)

theorem settled_reset (chip : Chip) (enable : Bool) (s : Port) :
    Settled chip s.data.conf s.bit (after (reset_ chip .default enable) s) :=
  ⟨⟨_, conf_reset chip enable s⟩, fun _ _ h => bit_reset chip enable s h⟩

theorem settled_cabDiagRun (chip : Chip) (reads : Nat → Nat → BitVec 16) (s : Port) :
    Settled chip s.data.conf (fun r b => cabDiagBit r b (s.bit r b)) (after (cabDiagRun chip reads) s) :=
  ⟨⟨_, conf_cabDiagRun chip reads s⟩, fun _ _ h => bit_cabDiagRun chip reads s h⟩

theorem settled_selftestRun (chip : Chip) (inf : SelftestInfo) {status : Nat → BitVec 16}
    (hl : selftestLink status = false) (s : Port) :
    Settled chip s.data.conf (fun r b => inf.setBit r b (s.bit r b)) (after (selftestRun chip inf status) s) :=
  ⟨conf_selftestRun chip inf status s, fun _ _ h => bit_selftestRun_noLink chip inf hl s h⟩

/-! ## Calls -/

/-- The self-test that starts, if the checks of `lan8814_selftest_start_` are passed. -/
def selftestStarts (inf : Option SelftestInfo) (s : Port) : Option SelftestInfo :=
  match inf with
  | none => none
  | some inf =>
    if inf.speed ≠ .g1 ∧ inf.mdi = .auto then none else if s.bit selftestPgenEn 0 then none else some inf

/-- A self-test has come to its end, as `lan8814_selftest_read` finds. -/
def selftestEnds (inf : Option SelftestInfo) (good err : BitVec 32) (s : Port) : Bool :=
  inf.isSome && s.bit selftestPgenEn 0 &&
    (selftestShown (s.words gphyDbgCtl1) (s.words basicControl) (s.words selftestPktCntLo) (s.words selftestPktCntHi) good
      err).done

/-- What may be called on a port. -/
inductive Op
  | confSet (config : Conf)
  | reset (point : ResetPoint) (framepreemptEn : Bool)
  | cabDiag (mode : Int) (status : BitVec 16) (reads : Nat → Nat → BitVec 16)
  | selftestStart (inf : Option SelftestInfo) (status : Nat → BitVec 16)
  | selftestRead (inf : Option SelftestInfo) (good err : BitVec 32)

def Op.run (op : Op) (chip : Chip) : Port → Port :=
  match op with
  | .confSet config => after (confSet_ config)
  | .reset point framepreemptEn => after (reset_ chip point framepreemptEn)
  | .cabDiag mode status reads => after (cabDiagStart_ chip mode status reads)
  | .selftestStart inf status => after (selftestStart_ chip inf status)
  | .selftestRead inf good err => after (Gphy.selftestRead inf good err)

/-- The cable diagnostics run. -/
def cabDiagRuns (mode : Int) (status : BitVec 16) : Bool := decide (mode ≠ 2) && !status.getLsbD 2

/-- The call is a reset, or it completes a diagnostic. -/
def Op.Completes (op : Op) (s : Port) : Prop :=
  match op with
  | .confSet _ => False
  | .reset point _ => point = .default
  | .cabDiag mode status _ => cabDiagRuns mode status = true
  | .selftestStart inf status => (selftestStarts inf s).isSome = true ∧ selftestLink status = false
  | .selftestRead inf good err => selftestEnds inf good err s = true

/-- The ports that calls reach after a power-up, each of which meets a condition. -/
inductive OpReached (P : Op → Port → Prop) (chip : Chip) : Port → Prop
  | powerUp {s : Port} (hw : s.words = chip.initial) (hc : s.data.conf = initialConf) : OpReached P chip s
  | step {s : Port} (op : Op) (h : OpReached P chip s) (hop : P op s) : OpReached P chip (op.run chip s)

/-! ## The condition -/

/-- A reset restores the MDI mode: the configuration does not write the mode that is stored. -/
def Chip.RestoresMdi (chip : Chip) (c : Conf) : Prop :=
  if chip.resets gphyDbgCtl1 then c.adminEnable = true → c.mdiMode = .auto else c.adminEnable = false → c.mdiMode = .auto

/-- The call keeps to what a reset restores. Where the soft reset leaves the MDI bits alone, a mode is only stored when it
is also written, and the diagnostics set no other mode than the stored one; where it leaves the master/slave register
alone, nothing is written there that no later configuration takes back. No self-test goes to its end. -/
def Op.Safe (chip : Chip) (op : Op) (s : Port) : Prop :=
  match op with
  | .confSet config =>
    (chip.resets gphyDbgCtl1 = false → config.adminEnable = false → config.mdiMode = s.data.conf.mdiMode) ∧
    (chip.resets anegMstrSlvCtrl = false → ¬config.Negotiating → ¬s.data.conf.Negotiating)
  | .reset point _ => point = .default → chip.RestoresMdi s.data.conf
  | .cabDiag mode status _ => cabDiagRuns mode status = true →
    chip.RestoresMdi s.data.conf ∧
    (chip.resets gphyDbgCtl1 = false → s.data.conf.mdiMode ≠ .auto) ∧
    (chip.resets anegMstrSlvCtrl = false → s.data.conf.Negotiating)
  | .selftestStart inf status => ∀ inf' ∈ selftestStarts inf s,
    (selftestLink status = false → chip.RestoresMdi s.data.conf) ∧
    (chip.resets gphyDbgCtl1 = false → inf'.speed ≠ .g1 → inf'.media = s.data.conf.mdiMode) ∧
    (chip.resets anegMstrSlvCtrl = false → inf'.speed = .g1 → s.data.conf.Negotiating)
  | .selftestRead inf good err => selftestEnds inf good err s = false

/-! ## The invariant -/

/-- What the soft reset leaves alone is as stored, or as after a power-up. -/
structure Held (chip : Chip) (c : Conf) (pre : Reg → Nat → Bool) : Prop where
  mdi : chip.resets gphyDbgCtl1 = false → ∀ b, b = 6 ∨ b = 7 → pre gphyDbgCtl1 b = c.mdiMode.mdiBit b
  master : chip.resets anegMstrSlvCtrl = false → ¬c.Negotiating → ∀ b, b = 9 ∨ b = 11 ∨ b = 12 →
    pre anegMstrSlvCtrl b = (chip.initial anegMstrSlvCtrl).getLsbD b

/-- A reset restores settings that are held. -/
theorem Settled.restored (h : Settled chip c pre t) (hheld : Held chip c pre) (hmdi : chip.RestoresMdi c) :
    Restored chip t := by
  refine h.restored_iff.mpr ⟨fun b hb => ?_, fun hn b hb => ?_⟩
  · rw [Chip.RestoresMdi] at hmdi
    rw [Chip.kept, Conf.mdiBit]
    cases hr : chip.resets gphyDbgCtl1 with
    | true =>
      rw [hr, if_pos rfl] at hmdi
      rw [if_pos rfl, chip.mdi_auto b hb]
      cases ha : c.adminEnable with
      | true => simp [MediaMode.mdiBit, hmdi ha]
      | false => rfl
    | false =>
      rw [hr, if_neg (by decide)] at hmdi
      rw [if_neg (by decide), hheld.mdi hr b hb]
      cases ha : c.adminEnable with
      | true => rfl
      | false => simp [MediaMode.mdiBit, hmdi ha]
  · rw [Chip.kept]
    cases hr : chip.resets anegMstrSlvCtrl with
    | true => rfl
    | false => exact hheld.master hr hn b hb

/-- A reset keeps settings that are held. -/
theorem Settled.held (h : Settled chip c pre t) (hheld : Held chip c pre) : Held chip t.data.conf t.bit := by
  obtain ⟨aneg, hconf⟩ := h.conf
  rw [hconf]
  refine ⟨fun hr b hb => ?_, fun hr (hn : ¬c.Negotiating) b hb => ?_⟩
  · rw [h.bit _ _ (.mdi hb), ← hheld.mdi hr b hb]
    simp [Conf.sets, Conf.mask, worked, Chip.kept, hr]
  · rw [h.bit _ _ (.master hb), sets_mstrSlv c hb, if_neg hn, ← hheld.master hr hn b hb]
    simp [worked, Chip.kept, hr]

/-! ## Steps -/

variable {enable : Bool}

theorem held_of_bits (h : Held chip s.data.conf s.bit) (hconf : t.data.conf = s.data.conf)
    (hbit : ∀ r b, Setting r b → t.bit r b = s.bit r b) : Held chip t.data.conf t.bit := by
  rw [hconf]
  refine ⟨fun hr b hb => ?_, fun hr hn b hb => ?_⟩
  · rw [hbit _ _ (.mdi hb), h.mdi hr b hb]
  · rw [hbit _ _ (.master hb), h.master hr hn b hb]

theorem held_powerUp (hw : s.words = chip.initial) (hc : s.data.conf = initialConf) : Held chip s.data.conf s.bit := by
  rw [hc]
  refine ⟨fun _ b hb => ?_, fun _ _ b _ => by rw [State.bit, hw]⟩
  rw [State.bit, hw, chip.mdi_auto b hb]
  simp [MediaMode.mdiBit, initialConf]

theorem held_confSet (h : Held chip s.data.conf s.bit) {config : Conf} (hsafe : (Op.confSet config).Safe chip s) :
    Held chip (after (confSet_ config) s).data.conf (after (confSet_ config) s).bit := by
  rw [data_confSet]
  refine ⟨fun hr b hb => ?_, fun hr (hn : ¬config.Negotiating) b hb => ?_⟩
  · rw [bit_confSet_mdi config s hb, h.mdi hr b hb]
    change _ = config.mdiMode.mdiBit b
    by_cases hmode : s.data.conf.mdiMode = config.mdiMode
    · rw [if_neg (fun hc => hc.2 hmode), hmode]
    · have hena : config.adminEnable = true := by
        by_contra hdis
        exact hmode (hsafe.1 hr (by simpa using hdis)).symm
      rw [if_pos ⟨hena, hmode⟩]
  · obtain ⟨hc, hlt⟩ := (Setting.master hb).configured (by decide)
    rw [bit_confSet config s hc hlt, sets_mstrSlv config hb, if_neg hn]
    exact h.master hr (hsafe.2 hr hn) b hb

theorem after_selftestStart (inf : Option SelftestInfo) (status : Nat → BitVec 16) (s : Port) :
    after (selftestStart_ chip inf status) s =
      match selftestStarts inf s with
      | none => s
      | some inf => after (selftestRun chip inf status) s := by
  cases inf with
  | none => rfl
  | some inf =>
    rw [selftestStart_, selftestStarts]
    by_cases hcheck : inf.speed ≠ .g1 ∧ inf.mdi = .auto
    · simp only [if_pos hcheck]
      rfl
    · simp only [if_neg hcheck]
      change after (if s.bit selftestPgenEn 0 then pure Rc.error else selftestRun chip inf status) s = _
      rw [after_ite]
      split <;> rfl

theorem after_selftestRead (inf : Option SelftestInfo) (good err : BitVec 32) (s : Port) :
    after (selftestRead inf good err) s = if selftestEnds inf good err s then after selftestStop s else s := by
  cases inf with
  | none => rfl
  | some inf =>
    cases hgen : s.bit selftestPgenEn 0 with
    | false =>
      simp only [selftestEnds, hgen]
      change after (if !s.bit selftestPgenEn 0 then _ else _) s = _
      rw [hgen]
      rfl
    | true =>
      simp only [selftestEnds, hgen]
      change after (if !s.bit selftestPgenEn 0 then _ else _) s = _
      rw [hgen]
      exact after_when _ _ _

theorem after_cabDiagStart (chip : Chip) (mode : Int) (status : BitVec 16) (reads : Nat → Nat → BitVec 16) (s : Port) :
    ∃ d, d.conf = s.data.conf ∧ after (cabDiagStart_ chip mode status reads) s =
      if cabDiagRuns mode status then after (cabDiagRun chip reads) { s with data := d } else { s with data := d } := by
  simp only [cabDiagStart_, after_bind, after_ite, after_pure, after_when]
  by_cases hmode : mode = 2
  · refine ⟨{ s.data with cableDiag := ⟨false, List.replicate 4 (.unknown, 0)⟩ }, rfl, ?_⟩
    rw [if_pos hmode, cabDiagRuns, if_neg (by simp [hmode])]
    rfl
  · refine ⟨{ s.data with cableDiag := ⟨status.getLsbD 2, List.replicate 4 (.unknown, 0)⟩ }, rfl, ?_⟩
    cases hlink : status.getLsbD 2 with
    | true =>
      rw [if_neg hmode, cabDiagRuns, hlink, if_neg (by simp), if_neg (by simp)]
      rfl
    | false =>
      rw [if_neg hmode, cabDiagRuns, hlink, if_pos (by simp), if_pos (by simp [hmode])]
      rfl

theorem after_reset_skipped (chip : Chip) {point : ResetPoint} (hpoint : point ≠ .default) (enable : Bool) (s : Port) :
    after (reset_ chip point enable) s = after (framepreemptSet_ enable) s := by
  simp only [reset_, after_bind, after_pure, after_when, hpoint, decide_false, Bool.false_eq_true, if_false]

theorem held_data {d : PhyData} (h : Held chip s.data.conf s.bit) (hd : d.conf = s.data.conf) :
    Held chip ({ s with data := d } : Port).data.conf ({ s with data := d } : Port).bit :=
  held_of_bits h hd fun _ _ _ => rfl

/-- The diagnostics leave the settings ready for the reset that follows. -/
theorem held_cabDiagBit (h : Held chip s.data.conf s.bit) (hmdi : chip.resets gphyDbgCtl1 = false → s.data.conf.mdiMode ≠ .auto)
    (hmaster : chip.resets anegMstrSlvCtrl = false → s.data.conf.Negotiating) :
    Held chip s.data.conf fun r b => cabDiagBit r b (s.bit r b) := by
  refine ⟨fun hr b hb => ?_, fun hr hn => absurd (hmaster hr) hn⟩
  have hne := hmdi hr
  obtain rfl | rfl := hb
  · simp [cabDiagBit, MediaMode.mdiBit, hne]
  · rw [← h.mdi hr 7 (Or.inr rfl)]
    rfl

/-- So do the settings of a self-test. -/
theorem held_setBit {inf : SelftestInfo} (h : Held chip s.data.conf s.bit)
    (hmdi : chip.resets gphyDbgCtl1 = false → inf.speed ≠ .g1 → inf.media = s.data.conf.mdiMode)
    (hmaster : chip.resets anegMstrSlvCtrl = false → inf.speed = .g1 → s.data.conf.Negotiating) :
    Held chip s.data.conf fun r b => inf.setBit r b (s.bit r b) := by
  refine ⟨fun hr b hb => ?_, fun hr hn b hb => ?_⟩
  · by_cases hg : inf.speed = .g1
    · rw [SelftestInfo.setBit, if_pos hg, if_neg (by decide), h.mdi hr b hb]
    · rw [SelftestInfo.setBit, if_neg hg, if_pos rfl, hmdi hr hg]
  · have hg : inf.speed ≠ .g1 := fun hg => hn (hmaster hr hg)
    rw [SelftestInfo.setBit, if_neg hg, if_neg (by decide), h.master hr hn b hb]

theorem held_selftestRun {inf : SelftestInfo} {status : Nat → BitVec 16} (h : Held chip s.data.conf s.bit)
    (hmdi : chip.resets gphyDbgCtl1 = false → inf.speed ≠ .g1 → inf.media = s.data.conf.mdiMode)
    (hmaster : chip.resets anegMstrSlvCtrl = false → inf.speed = .g1 → s.data.conf.Negotiating) :
    Held chip (after (selftestRun chip inf status) s).data.conf (after (selftestRun chip inf status) s).bit := by
  have hset := held_setBit h hmdi hmaster
  cases hl : selftestLink status with
  | false => exact (settled_selftestRun chip inf hl s).held hset
  | true =>
    obtain ⟨aneg, hconf⟩ := conf_selftestRun chip inf status s
    have hbit {r : Reg} {b : Nat} (hs : Setting r b) (h0 : r ≠ basicControl) (hr : chip.resets r = false) :
        (after (selftestRun chip inf status) s).bit r b = inf.setBit r b (s.bit r b) := by
      rw [bit_selftestRun_link chip inf hl s hs h0, Chip.kept, if_neg (by simp [hr])]
    rw [hconf]
    refine ⟨fun hr b hb => ?_, fun hr hn b hb => ?_⟩
    · rw [hbit (.mdi hb) (by decide) hr]
      exact hset.mdi hr b hb
    · rw [hbit (.master hb) (by decide) hr]
      exact hset.master hr hn b hb

/-- Every safe call keeps the settings ready for a reset. -/
theorem held_run {op : Op} (h : Held chip s.data.conf s.bit) (hop : op.Safe chip s) :
    Held chip (op.run chip s).data.conf (op.run chip s).bit := by
  cases op with
  | confSet config => exact held_confSet h hop
  | reset point enable =>
    change Held chip (after (reset_ chip point enable) s).data.conf (after (reset_ chip point enable) s).bit
    by_cases hpoint : point = .default
    · subst hpoint
      exact (settled_reset chip enable s).held h
    · rw [after_reset_skipped chip hpoint]
      exact held_of_bits h (keepsConf_framepreemptSet enable s) (keepsBits_framepreemptSet enable s)
  | cabDiag mode status reads =>
    obtain ⟨d, hd, hrun⟩ := after_cabDiagStart chip mode status reads s
    change Held chip (after (cabDiagStart_ chip mode status reads) s).data.conf
      (after (cabDiagStart_ chip mode status reads) s).bit
    rw [hrun]
    split
    · next hruns =>
      obtain ⟨-, hmdi, hmaster⟩ := hop hruns
      refine (settled_cabDiagRun chip reads { s with data := d }).held (held_cabDiagBit (held_data h hd) ?_ ?_)
      · rwa [hd]
      · rwa [hd]
    · exact held_data h hd
  | selftestStart inf status =>
    change Held chip (after (selftestStart_ chip inf status) s).data.conf (after (selftestStart_ chip inf status) s).bit
    rw [after_selftestStart]
    cases hstart : selftestStarts inf s with
    | none => exact h
    | some inf' =>
      obtain ⟨-, hmdi, hmaster⟩ := hop inf' hstart
      exact held_selftestRun h hmdi hmaster
  | selftestRead inf good err =>
    have hend : selftestEnds inf good err s = false := hop
    change Held chip (after (selftestRead inf good err) s).data.conf (after (selftestRead inf good err) s).bit
    rw [after_selftestRead, hend]
    exact h

theorem OpReached.held (h : OpReached (Op.Safe chip) chip s) : Held chip s.data.conf s.bit := by
  induction h with
  | powerUp hw hc => exact held_powerUp hw hc
  | step op _ hop ih => exact held_run ih hop

/-- In every run of safe calls, a reset and a completed diagnostic leave the settings of a freshly reset port with the
stored configuration. -/
theorem settings_restored {op : Op} (h : OpReached (Op.Safe chip) chip s) (hop : op.Safe chip s) (hc : op.Completes s) :
    Restored chip (op.run chip s) := by
  have hheld := h.held
  cases op with
  | confSet config => exact hc.elim
  | reset point enable =>
    obtain rfl : point = .default := hc
    change Restored chip (after (reset_ chip .default enable) s)
    exact (settled_reset chip enable s).restored hheld (hop rfl)
  | cabDiag mode status reads =>
    have hruns : cabDiagRuns mode status = true := hc
    obtain ⟨hmdi, hne, hmaster⟩ := hop hruns
    obtain ⟨d, hd, hrun⟩ := after_cabDiagStart chip mode status reads s
    change Restored chip (after (cabDiagStart_ chip mode status reads) s)
    rw [hrun, if_pos hruns]
    refine (settled_cabDiagRun chip reads { s with data := d }).restored (held_cabDiagBit (held_data hheld hd) ?_ ?_) ?_
    · rwa [hd]
    · rwa [hd]
    · rwa [hd]
  | selftestStart inf status =>
    obtain ⟨hstart, hl⟩ := hc
    obtain ⟨inf', hinf⟩ := Option.isSome_iff_exists.mp hstart
    obtain ⟨hmdi, hmode, hmaster⟩ := hop inf' hinf
    change Restored chip (after (selftestStart_ chip inf status) s)
    rw [after_selftestStart, hinf]
    exact (settled_selftestRun chip inf' hl s).restored (held_setBit hheld hmode hmaster) (hmdi hl)
  | selftestRead inf good err =>
    have hend : selftestEnds inf good err s = false := hop
    have hends : selftestEnds inf good err s = true := hc
    rw [hend] at hends
    cases hends

/-! ### A reset of a port with a fixed MDI mode -/

/-- A PHY of which the soft reset returns all registers to 0. -/
def plainChip : Chip := ⟨fun _ => 0, fun _ => true, fun _ _ => BitVec.getLsbD_zero⟩

/-- A port after a power-up. -/
def poweredPort : Port := ⟨fun _ => 0, probed ⟨0x26, 0⟩⟩

def resetOp : Op := .reset .default false

/-- Auto-negotiation, with auto MDI-X. -/
def anegConf : Conf := ⟨.auto, true, false, true, ⟨false, true, false, true, true, false⟩, false, .disabled, .auto⟩

/-- Auto-negotiation, with a fixed MDI mode. -/
def mdiConf : Conf := { anegConf with mdiMode := .mdi }

theorem settings_restored_auto : Restored plainChip (resetOp.run plainChip ((Op.confSet anegConf).run plainChip poweredPort)) := by
  have hreached : OpReached (Op.Safe plainChip) plainChip ((Op.confSet anegConf).run plainChip poweredPort) :=
    .step _ (.powerUp rfl rfl) ⟨by decide, by decide⟩
  have hconf : ((Op.confSet anegConf).run plainChip poweredPort).data.conf.mdiMode = .auto := rfl
  have hsafe : resetOp.Safe plainChip ((Op.confSet anegConf).run plainChip poweredPort) := fun _ _ => hconf
  exact settings_restored hreached hsafe rfl

/-- The soft reset takes the MDI mode back, and the configuration finds it stored already. -/
theorem not_settings_restored : ¬∀ (s : Port) (op : Op), OpReached (fun _ _ => True) plainChip s → op.Completes s →
    Restored plainChip (op.run plainChip s) := by
  intro h
  have hreached : OpReached (fun _ _ => True) plainChip ((Op.confSet mdiConf).run plainChip poweredPort) :=
    .step _ (.powerUp rfl rfl) trivial
  have hbit := h _ resetOp hreached rfl gphyDbgCtl1 7 (.mdi (Or.inr rfl))
  revert hbit
  decide +kernel

end Lan80xx.Lan8814.Gphy
