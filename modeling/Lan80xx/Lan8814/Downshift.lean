import Lan80xx.Lan8814.PollRules
import Mathlib.Data.BitVec

/-!
# LAN8814: the downshift over runs

- `Tracked`, `tracked_poll`: the invariant of polls and configurations that mix well;
- `exists_shiftsDown_iff`: the counter gets over the limit exactly if the limit is below 255;
- `downshift_sound`: who withdraws the 1G advertisement, how long that lasts, and what is advertised afterwards.
-/

namespace Lan80xx.Lan8814.Gphy

open RegCalls

/-! ## Calls -/

/-- A call that has to do with the downshift. -/
inductive Act
  | poll (w : StatusWords) (status : Status)
  | confSet (config : Conf)
  | downshiftConfSet (dsh : Downshift)
  | repCountSet (repCnt : BitVec 8)

def Act.run : Act → Port → Port
  | .poll w status => after (Gphy.poll w status)
  | .confSet config => after (confSet_ config)
  | .downshiftConfSet dsh => after (Gphy.downshiftConfSet dsh)
  | .repCountSet repCnt => after (Gphy.repCountSet repCnt)

/-- A poll that counts for the downshift. -/
def Qualifies (s : Port) (w : StatusWords) : Bool := s.data.conf.adminEnable && s.data.qualifies w

/-- A poll that shifts down. -/
def ShiftsDown (s : Port) (w : StatusWords) : Bool := Qualifies s w && s.data.overLimit

/-- The polls that have counted since the auto-negotiation was restarted. -/
def Act.counted (act : Act) (s : Port) (n : Nat) : Nat :=
  match act with
  | .poll w _ => if Qualifies s w then n + 1 else if s.data.anegFlag then n else 0
  | _ => n

/-- A port that is powered down, with nothing counted. -/
def Fresh (s : Port) : Prop :=
  s.data.conf.adminEnable = false ∧ s.data.dshComplete = false ∧ s.data.anegFlag = false

/-- The ports that calls reach of which each meets a condition, with the polls counted. -/
inductive Reached (P : Act → Port → Prop) : Port → Nat → Prop
  | fresh {s : Port} (h : Fresh s) : Reached P s 0
  | step {s : Port} {n : Nat} (act : Act) (hs : Reached P s n) (h : P act s) : Reached P (act.run s) (act.counted s n)

/-! ## What the downshift is for -/

/-- The configuration advertises 1G, the register does not. -/
def Withdrawn (s : Port) : Prop :=
  s.data.conf.adminEnable = true ∧ s.data.conf.speed.Negotiates ∧ s.data.conf.aneg.speed1gFdx = true ∧
    s.bit anegMstrSlvCtrl 9 = false

instance (s : Port) : Decidable (Withdrawn s) := inferInstanceAs (Decidable (_ ∧ _ ∧ _ ∧ _))

/-- The 1G advertisement and the master/slave mode are as configured. -/
def AsConfigured (s : Port) : Prop := s.data.conf.adminEnable = true → s.data.conf.speed.Negotiates →
  ∀ b, b = 9 ∨ b = 11 ∨ b = 12 → s.bit anegMstrSlvCtrl b = s.data.conf.mstrSlv.getLsbD b

/-- The link is lost at this poll, of a port that is, or gets, shifted down. -/
def PhyData.losesLink (d : PhyData) (w : StatusWords) : Bool := d.linkStatus && !d.sees w

/-- The calls of the downshift do not get in each other's way: only a port that advertises 1G shifts down, only the model
with a re-advertisement loses its link afterwards, as the master, no forced speed counts polls in between, and nothing is
configured until 1G is advertised again. -/
def Act.Mixes (act : Act) (s : Port) : Prop :=
  match act with
  | .poll w _ =>
    (ShiftsDown s w = true → s.data.conf.aneg.speed1gFdx = true) ∧
    (s.data.dshComplete = true ∨ ShiftsDown s w = true → s.data.losesLink w = true →
      s.data.isLan8814 = true ∧ s.data.conf.manNeg = .ref) ∧
    (s.data.conf.adminEnable = true → s.data.anegFlag = true → ¬s.data.conf.speed.Negotiates → forcedCounts w s = false)
  | .confSet _ => s.data.dshComplete = false
  | _ => True

instance : (act : Act) → (s : Port) → Decidable (act.Mixes s)
  | .poll _ _, _ => inferInstanceAs (Decidable (_ ∧ _ ∧ _))
  | .confSet _, _ => inferInstanceAs (Decidable (_ = _))
  | .downshiftConfSet _, _ => inferInstanceAs (Decidable True)
  | .repCountSet _, _ => inferInstanceAs (Decidable True)

/-! ## The invariant -/

/-- The invariant of calls that mix well; `n` polls have counted. -/
structure Tracked (s : Port) (n : Nat) : Prop where
  manual : s.data.conf.adminEnable = true → s.data.conf.speed.Negotiates →
    s.bit anegMstrSlvCtrl 12 = s.data.conf.mstrSlv.getLsbD 12
  advertises : s.data.dshComplete = false → AsConfigured s
  shifted : s.data.dshComplete = true → Withdrawn s
  counts : s.data.anegFlag = true → s.data.loopCnt.toNat ≤ n

variable {s : Port} {n : Nat} {w : StatusWords} {status : Status}

theorem tracked_of_fresh (h : Fresh s) (n : Nat) : Tracked s n := by
  obtain ⟨ha, hd, hf⟩ := h
  refine ⟨fun h => ?_, fun _ h => ?_, fun h => ?_, fun h => ?_⟩
  · simp [ha] at h
  · simp [ha] at h
  · simp [hd] at h
  · simp [hf] at h

theorem Tracked.dshComplete_iff (h : Tracked s n) : s.data.dshComplete = true ↔ Withdrawn s := by
  refine ⟨h.shifted, fun ⟨ha, hn, h1g, h9⟩ => ?_⟩
  by_contra hd
  have hbit := h.advertises (by simpa using hd) ha hn 9 (Or.inl rfl)
  simp [h9, Conf.mstrSlv, h1g] at hbit

/-- A configuration keeps the invariant while 1G is advertised. -/
theorem tracked_confSet (h : Tracked s n) (hd : s.data.dshComplete = false) (config : Conf) :
    Tracked (after (confSet_ config) s) n := by
  have hbits : AsConfigured (after (confSet_ config) s) := by
    intro ha hn b hb
    rw [data_confSet] at ha hn ⊢
    have hmask : (config.mask anegMstrSlvCtrl).getLsbD b = true := by
      have hword : config.mask anegMstrSlvCtrl = full1000T ||| cfgVal ||| cfgEna := if_pos ⟨ha, hn⟩
      rw [hword]
      rcases hb with rfl | rfl | rfl <;> decide
    rw [bit_confSet config s ⟨by decide, by simp⟩ (BitVec.lt_of_getLsbD hmask), Conf.sets, if_pos hmask]
    rfl
  refine ⟨fun ha hn => hbits ha hn 12 (by simp), fun _ => hbits, fun hc => ?_, fun hf => ?_⟩
  · rw [data_confSet, show (s.data.setConf config config.qsgmiiAneg).dshComplete = s.data.dshComplete from rfl, hd] at hc
    cases hc
  · rw [data_confSet] at hf ⊢
    exact h.counts hf

/-- The invariant looks at no more than these. -/
theorem Tracked.of_eq (h : Tracked s n) {t : Port} (hbit : ∀ b, t.bit anegMstrSlvCtrl b = s.bit anegMstrSlvCtrl b)
    (hconf : t.data.conf = s.data.conf) (hdsh : t.data.dshComplete = s.data.dshComplete)
    (hflag : t.data.anegFlag = s.data.anegFlag) (hcnt : t.data.loopCnt = s.data.loopCnt) : Tracked t n := by
  refine ⟨?_, ?_, ?_, ?_⟩
  · rw [hconf, hbit]
    exact h.manual
  · intro hd ha hn b hb
    rw [hconf] at ha hn ⊢
    rw [hbit]
    exact h.advertises (hdsh ▸ hd) ha hn b hb
  · intro hd
    obtain ⟨ha, hn, h1g, h9⟩ := h.shifted (hdsh ▸ hd)
    exact ⟨hconf ▸ ha, hconf ▸ hn, hconf ▸ h1g, (hbit 9).trans h9⟩
  · rw [hflag, hcnt]
    exact h.counts

theorem data_downshiftConfSet (dsh : Downshift) (s : Port) :
    (after (downshiftConfSet dsh) s).data = { s.data with dshConf := dsh } := by
  simp only [downshiftConfSet, after_bind, after_when, data_modifyData, State.data_ite, data_writeMasked, after_getData,
    ite_self]

theorem keeps_downshiftConfSet (dsh : Downshift) : Keeps (· = anegMstrSlvCtrl) (downshiftConfSet dsh) :=
  .bind .getData fun _ => .bind (.when fun _ => .writeMasked (by decide) _ _) fun _ => .modifyData _

theorem tracked_downshiftConfSet (h : Tracked s n) (dsh : Downshift) : Tracked (after (downshiftConfSet dsh) s) n := by
  have hdata := data_downshiftConfSet dsh s
  refine h.of_eq (fun b => (keeps_downshiftConfSet dsh).bit s rfl b) ?_ ?_ ?_ ?_ <;> rw [hdata]

/-! ## A poll -/

theorem shiftsDown_iff : ShiftsDown s w = true ↔ s.data.conf.adminEnable = true ∧ s.data.downshifts w = true := by
  simp [ShiftsDown, Qualifies, PhyData.downshifts, and_assoc]

theorem ended_conf (d : PhyData) (status : Status) : (d.ended status).conf = d.conf := by
  unfold PhyData.ended
  split_ifs <;> rfl

theorem ended_dshComplete (d : PhyData) (status : Status) :
    (d.ended status).dshComplete = (d.dshComplete && !(d.linkChanges status.link && !status.link)) := by
  unfold PhyData.ended
  cases hc : d.linkChanges status.link <;> cases hl : status.link <;> cases hd : d.dshComplete <;>
    simp [PhyData.setStatus, hd]

/-- The counter after the end of a poll, as long as the restart of the auto-negotiation is remembered. -/
theorem ended_counts (d : PhyData) (status : Status) (h : (d.ended status).anegFlag = true) :
    d.anegFlag = true ∧ (d.ended status).loopCnt = d.loopCnt := by
  unfold PhyData.ended at h ⊢
  split_ifs at h ⊢
  · cases h
  · cases h
  · exact ⟨h, rfl⟩

/-- What counts a poll also keeps the counter below the polls counted. -/
theorem Tracked.counts_poll (h : Tracked s n) {d' : PhyData}
    (hpolled : Polled s.data d' (s.data.qualifies w) (s.data.downshifts w)) (ha : s.data.conf.adminEnable = true)
    (hflag : d'.anegFlag = true) : d'.loopCnt.toNat ≤ (Act.poll w status).counted s n := by
  rcases hpolled.flag hflag with hzero | ⟨hf, hle⟩
  · rw [hzero]
    exact Nat.zero_le _
  · have hcount := h.counts hf
    have hq : Qualifies s w = s.data.qualifies w := by simp [Qualifies, ha]
    rw [Act.counted, hq, if_pos hf]
    cases hqual : s.data.qualifies w <;> simp [hqual] at hle ⊢ <;> omega

/-- A port that is, or gets, shifted down at a poll. -/
theorem Tracked.down (h : Tracked s n) (ha : s.data.conf.adminEnable = true)
    (hshift : ShiftsDown s w = true → s.data.conf.aneg.speed1gFdx = true)
    (hd : (s.data.dshComplete || s.data.downshifts w) = true) :
    s.data.conf.speed.Negotiates ∧ s.data.conf.aneg.speed1gFdx = true ∧
      advertised (s.data.downshifts w) false 9 (s.bit anegMstrSlvCtrl 9) = false := by
  cases hdown : s.data.downshifts w with
  | true =>
    have hqual : s.data.conf.speed.Negotiates := by
      simp [PhyData.downshifts, PhyData.qualifies] at hdown
      exact hdown.1.1.2
    exact ⟨hqual, hshift (shiftsDown_iff.mpr ⟨ha, hdown⟩), by simp [advertised]⟩
  | false =>
    obtain ⟨-, hn, h1g, h9⟩ := h.shifted (by simpa [hdown] using hd)
    exact ⟨hn, h1g, by simpa [advertised] using h9⟩

/-- Where 1G is advertised again, the link has been lost. -/
theorem losesLink_of_readvertises {link : Bool} (hr : s.data.readvertises w link = true) (hlink : link = s.data.sees w) :
    s.data.losesLink w = true := by
  simp only [PhyData.readvertises, PhyData.linkChanges, Bool.and_eq_true, Bool.not_eq_true', bne_iff_ne] at hr
  obtain ⟨⟨⟨-, hne⟩, hdown⟩, -⟩ := hr
  subst hlink
  rw [hdown] at hne
  simpa [PhyData.losesLink, hdown] using hne

variable (status) in
theorem dshComplete_poll (ha : s.data.conf.adminEnable = true)
    (hclean : s.data.anegFlag = true → ¬s.data.conf.speed.Negotiates → forcedCounts w s = false) :
    (after (poll w status) s).data.dshComplete =
      ((s.data.dshComplete || s.data.downshifts w) && !s.data.readvertises w (result (poll w status) s).link) := by
  obtain ⟨d', hpolled, hdata⟩ := data_poll status ha hclean
  have hchange (link : Bool) : d'.linkChanges link = s.data.linkChanges link := by
    simp only [PhyData.linkChanges, PhyData.isLan8814, hpolled.dev, hpolled.linkStatus]
  rw [hdata, ended_dshComplete, hpolled.complete, hchange, PhyData.readvertises]
  cases s.data.dshComplete || s.data.downshifts w <;> simp

/-- A poll keeps the invariant. -/
theorem tracked_poll (h : Tracked s n) (hmix : (Act.poll w status).Mixes s) :
    Tracked (after (poll w status) s) ((Act.poll w status).counted s n) := by
  obtain ⟨hshift, hlose, hforced⟩ := hmix
  cases ha : s.data.conf.adminEnable with
  | false =>
    refine tracked_of_fresh ?_ _
    rw [data_poll_disabled w status ha]
    exact ⟨ha, rfl, rfl⟩
  | true =>
    obtain ⟨d', hpolled, hdata⟩ := data_poll status ha (hforced ha)
    have hbit := bit_poll status ha (hforced ha)
    have hlink := link_poll (w := w) (s := s) status ha
    have hcomplete := dshComplete_poll status ha (hforced ha)
    generalize (result (poll w status) s) = r at hdata hbit hlink hcomplete
    have hconf : (after (poll w status) s).data.conf = s.data.conf := by rw [hdata, ended_conf, hpolled.conf]
    have hmanual : s.data.conf.speed.Negotiates →
        (after (poll w status) s).bit anegMstrSlvCtrl 12 = s.data.conf.mstrSlv.getLsbD 12 := by
      intro hn
      rw [hbit 12, ← h.manual ha hn]
      simp [advertised]
    refine ⟨fun _ hn => ?_, fun hd _ hn b hb => ?_, fun hd => ?_, fun hf => ?_⟩
    · rw [hconf] at hn ⊢
      exact hmanual hn
    · rw [hconf] at hn ⊢
      rw [hcomplete] at hd
      cases hdown : s.data.dshComplete || s.data.downshifts w with
      | false =>
        obtain ⟨hdsh, hno⟩ := Bool.or_eq_false_iff.mp hdown
        rw [hbit b, PhyData.readvertises, hdown, hno, ← h.advertises hdsh ha hn b hb]
        simp [advertised]
      | true =>
        have hread : s.data.readvertises w r.link = true := by simpa [hdown] using hd
        have h1g := (h.down ha hshift hdown).2.1
        have hloses := losesLink_of_readvertises hread (hlink hn hdown)
        have hmaster := (hlose (by simpa [shiftsDown_iff, ha] using hdown) hloses).2
        rcases hb with rfl | rfl | rfl
        · rw [hbit 9, hread]
          simp [advertised, Conf.mstrSlv, h1g]
        · rw [hbit 11, hread]
          simp [advertised, Conf.mstrSlv, hmaster]
        · exact hmanual hn
    · rw [hcomplete, Bool.and_eq_true, Bool.not_eq_true'] at hd
      obtain ⟨hn, h1g, h9⟩ := h.down ha hshift hd.1
      refine ⟨hconf ▸ ha, hconf ▸ hn, hconf ▸ h1g, ?_⟩
      rw [hbit 9, h9, hd.2]
      rfl
    · rw [hdata] at hf ⊢
      obtain ⟨hf', hcnt⟩ := ended_counts d' r hf
      rw [hcnt]
      exact h.counts_poll hpolled ha hf'

/-- Every port that well mixed calls reach has the invariant. -/
theorem Reached.tracked (h : Reached Act.Mixes s n) : Tracked s n := by
  induction h with
  | fresh h => exact tracked_of_fresh h 0
  | @step s n act _ hmix ih =>
    cases act with
    | poll w status => exact tracked_poll ih hmix
    | confSet config => exact tracked_confSet ih hmix config
    | downshiftConfSet dsh => exact tracked_downshiftConfSet ih dsh
    | repCountSet repCnt => exact ih.of_eq (fun _ => rfl) rfl rfl rfl rfl

/-! ## Withdrawn by a downshift, until the link is lost -/

/-- Once the link has been lost, 1G is not withdrawn. -/
theorem dshComplete_of_lost (h : Tracked s n) (hmix : (Act.poll w status).Mixes s) (hup : s.data.linkStatus = true)
    (hlost : (result (poll w status) s).link = false) : (after (poll w status) s).data.dshComplete = false := by
  obtain ⟨hshift, hlose, hforced⟩ := hmix
  cases ha : s.data.conf.adminEnable with
  | false =>
    rw [data_poll_disabled w status ha]
  | true =>
    rw [dshComplete_poll _ ha (hforced ha)]
    cases hdown : s.data.dshComplete || s.data.downshifts w with
    | false => rfl
    | true =>
      have hn := (h.down ha hshift hdown).1
      have hsees := link_poll w status ha hn hdown
      rw [hlost] at hsees
      have hloses : s.data.losesLink w = true := by simp [PhyData.losesLink, hup, ← hsees]
      have hmodel := (hlose (by simpa [shiftsDown_iff, ha] using hdown) hloses).1
      simp [PhyData.readvertises, PhyData.linkChanges, hlost, hup, hmodel, hdown]

theorem anegFlag_of_qualifies (h : Qualifies s w = true) : s.data.anegFlag = true := by
  simp [Qualifies, PhyData.qualifies, PhyData.counts] at h
  exact h.2.2.1.2

/-- A poll that shifts down is one more than the limit, at least. -/
theorem Tracked.limit_lt (h : Tracked s n) (hs : ShiftsDown s w = true) :
    s.data.limit < (Act.poll w status).counted s n := by
  obtain ⟨hqual, hover⟩ := Bool.and_eq_true_iff.mp hs
  have hcount := h.counts (anegFlag_of_qualifies hqual)
  calc s.data.limit < (s.data.loopCnt + 1).toNat := of_decide_eq_true hover
    _ ≤ s.data.loopCnt.toNat + 1 := toNat_succ_le _
    _ ≤ n + 1 := Nat.succ_le_succ hcount
    _ = (Act.poll w status).counted s n := by rw [Act.counted, if_pos hqual]

/-- The 1G advertisement is withdrawn by a downshift only, and that after more polls than the limit. -/
theorem shiftsDown_of_withdrawn {act : Act} (h : Tracked s n) (hmix : act.Mixes s) (hnot : ¬Withdrawn s)
    (hw : Withdrawn (act.run s)) : ∃ w status, act = .poll w status ∧ ShiftsDown s w = true ∧
      s.data.limit < act.counted s n := by
  have hdsh : s.data.dshComplete = false := by
    rw [← Bool.not_eq_true, h.dshComplete_iff]
    exact hnot
  cases act with
  | confSet config =>
    have hdown := (tracked_confSet h hmix config).dshComplete_iff.mpr hw
    rw [data_confSet] at hdown
    exact absurd hdown (by simp [PhyData.setConf, hdsh])
  | downshiftConfSet dsh =>
    have hdown := (tracked_downshiftConfSet h dsh).dshComplete_iff.mpr hw
    rw [data_downshiftConfSet] at hdown
    exact absurd hdown (by simp [hdsh])
  | repCountSet repCnt => exact absurd hw hnot
  | poll w status =>
    have hdown : (after (poll w status) s).data.dshComplete = true := (tracked_poll h hmix).dshComplete_iff.mpr hw
    cases ha : s.data.conf.adminEnable with
    | false =>
      rw [data_poll_disabled w status ha] at hdown
      cases hdown
    | true =>
      rw [dshComplete_poll _ ha (hmix.2.2 ha), hdsh, Bool.false_or, Bool.and_eq_true] at hdown
      have hshift := shiftsDown_iff.mpr ⟨ha, hdown.1⟩
      exact ⟨w, status, rfl, hshift, h.limit_lt hshift⟩

/-! ## The limit is reached -/

/-- The port negotiates, without a loopback, and sees no link. -/
structure NoLink (s : Port) (w : StatusWords) : Prop where
  enabled : s.data.conf.adminEnable = true
  negotiates : s.data.conf.speed.Negotiates
  nearEnd : s.data.loopback.nearEndEna = false
  connector : s.data.loopback.connectorEna = false
  noLink : anegLink w false = false

theorem after_pollAneg_noLink (nearEnd : Bool) (status : Status) (hl : anegLink w nearEnd = false) (s : Port) :
    (after (pollAneg w nearEnd status) s).data = (s.data.afterDownshift w false).afterRestart w false ∧
      (result (pollAneg w nearEnd status) s).1.link = false := by
  simp only [pollAneg, after_bind, result_bind, hl]
  exact ⟨by rw [← data_pollDownshift, ← data_pollRestart]; rfl, rfl⟩

/-- A poll without a link only counts, shifts down or restarts the auto-negotiation. -/
theorem data_poll_noLink (h : NoLink s w) (status : Status) :
    ∃ r : Status, r.link = false ∧
      (after (poll w status) s).data = ((s.data.afterDownshift w false).afterRestart w false).ended r := by
  have hconn : ¬(!s.data.loopback.nearEndEna && s.data.loopback.connectorEna) = true := by simp [h.connector]
  have hresult : result (poll w status) s = (result (pollStatus w status s.data) s).1 := by
    simp only [poll, result_bind, result_getData, after_getData, h.enabled, Bool.not_true, Bool.false_eq_true, if_false]
    rfl
  have hstatus : pollStatus w status s.data =
      pollAneg w false { status with link := w.basicStatus.getLsbD 2 || s.data.loopback.nearEndEna } := by
    rw [pollStatus, if_neg hconn, if_pos h.negotiates, h.nearEnd]
  refine ⟨result (poll w status) s, ?_, ?_⟩
  · rw [hresult, hstatus]
    exact (after_pollAneg_noLink _ _ h.noLink s).2
  · rw [after_poll w status h.enabled, data_pollEnd, hstatus, (after_pollAneg_noLink _ _ h.noLink s).1]

/-- Polls without a link leave the settings alone. -/
theorem settings_noLink (h : NoLink s w) (status : Status) :
    (after (poll w status) s).data.conf = s.data.conf ∧ (after (poll w status) s).data.loopback = s.data.loopback ∧
      (after (poll w status) s).data.dshConf = s.data.dshConf ∧ (after (poll w status) s).data.repCnt = s.data.repCnt ∧
      (after (poll w status) s).data.linkStatus = false := by
  obtain ⟨r, hr, hdata⟩ := data_poll_noLink h status
  have hpolled := (polled_afterDownshift s.data w false).afterRestart w false
  rw [hdata, ← hpolled.conf, ← hpolled.loopback, ← hpolled.dshConf, ← hpolled.repCnt, PhyData.ended]
  split_ifs <;> exact ⟨rfl, rfl, rfl, rfl, hr⟩

/-- The ports after `0`, `1`, `2` polls and so on. -/
def polls (ws : Nat → StatusWords × Status) (s : Port) : Nat → Port
  | 0 => s
  | n + 1 => after (poll (ws n).1 (ws n).2) (polls ws s n)

/-- A counter that is incremented from some point on gets to 254. -/
theorem exists_eq_254 {c : Nat → BitVec 8} {m : Nat} (h : ∀ n, m ≤ n → c (n + 1) = c n + 1) : ∃ n, m ≤ n ∧ c n = 254 := by
  have hadd (k : Nat) : c (m + k) = c m + BitVec.ofNat 8 k := by
    induction k with
    | zero => simp
    | succ k ih =>
      rw [← Nat.add_assoc, h _ (Nat.le_add_right m k), ih, BitVec.add_assoc, BitVec.ofNat_add]
      rfl
  refine ⟨m + (254 - c m).toNat, Nat.le_add_right _ _, ?_⟩
  rw [hadd, BitVec.ofNat_toNat, BitVec.setWidth_eq]
  exact add_sub_cancel _ _

/-- The polls count for the downshift as long as none has shifted down. -/
def Persists (ws : Nat → StatusWords × Status) (s : Port) : Prop :=
  ∀ n, (∀ m, m < n → ShiftsDown (polls ws s m) (ws m).1 = false) → Qualifies (polls ws s n) (ws n).1 = true

theorem noLink_of_qualifies (h : Qualifies s w = true) : NoLink s w := by
  simp [Qualifies, PhyData.qualifies, PhyData.counts] at h
  exact ⟨h.1, h.2.1.2, h.2.1.1.1, h.2.1.1.2, h.2.2.1.1.1.1.2⟩

/-- A poll that counts, but does not shift down. -/
theorem counted_of_qualifies (hq : Qualifies s w = true) (hs : ShiftsDown s w = false) :
    (s.data.afterDownshift w false).afterRestart w false = s.data.countPoll := by
  have hcount : s.data.counts w false = true := by
    have hl := (noLink_of_qualifies hq).noLink
    simp only [Qualifies, PhyData.qualifies, hl, Bool.and_eq_true] at hq
    exact hq.2.2
  have hover : s.data.overLimit = false := by simpa [ShiftsDown, hq] using hs
  have hstuck : s.data.countPoll.stuck w false = false := by
    have hflag := anegFlag_of_qualifies hq
    simp [PhyData.stuck, PhyData.countPoll, hflag]
  rw [PhyData.afterDownshift, if_pos hcount, hover, if_neg (by decide), PhyData.afterRestart, hstuck, if_neg (by decide)]

theorem loopCnt_poll (hq : Qualifies s w = true) (hs : ShiftsDown s w = false)
    (hf : (after (poll w status) s).data.anegFlag = true) :
    (after (poll w status) s).data.loopCnt = s.data.loopCnt + 1 := by
  obtain ⟨r, -, hdata⟩ := data_poll_noLink (noLink_of_qualifies hq) status
  rw [hdata, counted_of_qualifies hq hs] at hf ⊢
  exact (ended_counts _ _ hf).2

theorem limit_polls {ws : Nat → StatusWords × Status} (h : Persists ws s) (n : Nat)
    (hno : ∀ m, m < n → ShiftsDown (polls ws s m) (ws m).1 = false) : (polls ws s n).data.limit = s.data.limit := by
  induction n with
  | zero => rfl
  | succ n ih =>
    have hbefore : ∀ m, m < n → ShiftsDown (polls ws s m) (ws m).1 = false := fun m hm => hno m (Nat.lt_succ_of_lt hm)
    obtain ⟨-, -, hdsh, hrep, -⟩ := settings_noLink (noLink_of_qualifies (h n hbefore)) (ws n).2
    rw [← ih hbefore, PhyData.limit, PhyData.limit, polls, hdsh, hrep]

/-- Polls that count shift down in the end, exactly if the limit is below 255. -/
theorem exists_shiftsDown_iff {ws : Nat → StatusWords × Status} (h : Persists ws s) :
    (∃ n, ShiftsDown (polls ws s n) (ws n).1 = true) ↔ s.data.limit < 255 := by
  constructor
  · intro hex
    have hlimit := limit_polls h (Nat.find hex) fun m hm => by simpa using Nat.find_min hex hm
    have hover := of_decide_eq_true (Bool.and_eq_true_iff.mp (Nat.find_spec hex)).2
    rw [hlimit] at hover
    have hlt := ((polls ws s (Nat.find hex)).data.loopCnt + 1).isLt
    omega
  · intro hlim
    by_contra hnone
    have hno (n : Nat) : ShiftsDown (polls ws s n) (ws n).1 = false := by simpa using not_exists.mp hnone n
    have hq (n : Nat) := h n fun m _ => hno m
    obtain ⟨n, -, hn⟩ := exists_eq_254 (c := fun n => (polls ws s n).data.loopCnt) (m := 0) fun n _ =>
      loopCnt_poll (hq n) (hno n) (anegFlag_of_qualifies (hq (n + 1)))
    have hover : (polls ws s n).data.overLimit = true := by
      rw [PhyData.overLimit, limit_polls h n fun m _ => hno m, hn]
      exact decide_eq_true hlim
    have hshift := hno n
    rw [ShiftsDown, hq n, hover] at hshift
    cases hshift

/-- The line shows a partner with which the auto-negotiation does not end. -/
structure StatusWords.Stalls (w : StatusWords) : Prop where
  noAneg : w.basicStatus.getLsbD 5 = false
  signal : w.digitalAxAnStatus.getLsbD 13 = true
  link : w.digitalAxAnStatus.getLsbD 14 = true
  speed : w.control.getLsbD 6 = true

/-- A port that may shift down, and has not done so. -/
structure MayShift (s : Port) : Prop where
  enabled : s.data.conf.adminEnable = true
  negotiates : s.data.conf.speed.Negotiates
  nearEnd : s.data.loopback.nearEndEna = false
  connector : s.data.loopback.connectorEna = false
  dshEnable : s.data.dshConf.dshEnable = true
  advertises : s.data.dshComplete = false

theorem MayShift.noLink (h : MayShift s) (hw : w.Stalls) : NoLink s w :=
  ⟨h.enabled, h.negotiates, h.nearEnd, h.connector, by rw [anegLink, hw.noAneg]; simp⟩

theorem MayShift.qualifies (h : MayShift s) (hw : w.Stalls) : Qualifies s w = s.data.anegFlag := by
  have hlink := (h.noLink hw).noLink
  simp only [Qualifies, PhyData.qualifies, PhyData.counts, hlink, h.enabled, h.nearEnd, h.connector, h.dshEnable,
    h.advertises, hw.link, hw.speed]
  simp [h.negotiates]

/-- The next poll on a stalled line, if it does not shift down. -/
theorem MayShift.poll (h : MayShift s) (hw : w.Stalls) (hno : ShiftsDown s w = false) (status : Status) :
    MayShift (after (Gphy.poll w status) s) := by
  obtain ⟨hconf, hloop, hdsh, -, -⟩ := settings_noLink (h.noLink hw) status
  refine ⟨hconf ▸ h.enabled, hconf ▸ h.negotiates, hloop ▸ h.nearEnd, hloop ▸ h.connector, hdsh ▸ h.dshEnable, ?_⟩
  have hdown : s.data.downshifts w = false := by
    simpa [ShiftsDown, Qualifies, PhyData.downshifts, h.enabled] using hno
  rw [dshComplete_poll _ h.enabled fun _ hn => absurd h.negotiates hn, h.advertises, hdown]
  rfl

/-- A poll on a stalled line once the link is down: the counter goes up, or the auto-negotiation is restarted. -/
theorem MayShift.counted (h : MayShift s) (hw : w.Stalls) (hno : ShiftsDown s w = false)
    (hdown : s.data.linkStatus = false) (status : Status) :
    if s.data.anegFlag = false ∧ 2 * s.data.repCnt.toNat < (s.data.loopCnt + 1).toNat then
      (after (Gphy.poll w status) s).data.anegFlag = true
    else (after (Gphy.poll w status) s).data.anegFlag = s.data.anegFlag ∧
      (after (Gphy.poll w status) s).data.loopCnt = s.data.loopCnt + 1 := by
  obtain ⟨r, hr, hdata⟩ := data_poll_noLink (h.noLink hw) status
  have hended (d : PhyData) (hd : d.linkStatus = false) : d.ended r = d.setStatus r := by
    rw [PhyData.ended, PhyData.linkChanges, hr, hd]
    simp
  cases hf : s.data.anegFlag with
  | true =>
    rw [counted_of_qualifies ((h.qualifies hw).trans hf) hno, hended] at hdata
    · rw [if_neg (by simp), hdata]
      exact ⟨hf, rfl⟩
    · exact hdown
  | false =>
    have hcount : s.data.counts w false = false := by simp [PhyData.counts, hf]
    have hstuck : s.data.stuck w false = true := by
      rw [PhyData.stuck, hw.noAneg, hw.signal, hf]
      rfl
    rw [PhyData.afterDownshift, if_neg (by simp [hcount]), PhyData.afterRestart, if_pos hstuck] at hdata
    by_cases hlim : 2 * s.data.repCnt.toNat < (s.data.loopCnt + 1).toNat
    · rw [if_pos hlim, hended] at hdata
      · rw [if_pos ⟨rfl, hlim⟩, hdata]
        rfl
      · exact hdown
    · rw [if_neg hlim, hended] at hdata
      · rw [if_neg fun hc => hlim hc.2, hdata]
        exact ⟨hf, rfl⟩
      · exact hdown

theorem polls_add (ws : Nat → StatusWords × Status) (s : Port) (m n : Nat) :
    polls (fun k => ws (m + k)) (polls ws s m) n = polls ws s (m + n) := by
  induction n with
  | zero => rfl
  | succ n ih => rw [← Nat.add_assoc, polls, polls, ih]

/-- On a stalled line a port shifts down in the end, if neither the polls up to the restart of the auto-negotiation nor
those up to the downshift are more than the counter can hold. -/
theorem exists_shiftsDown_of_stalls {ws : Nat → StatusWords × Status} (h : MayShift s) (hws : ∀ n, (ws n).1.Stalls)
    (hrep : 2 * s.data.repCnt.toNat < 255) (hlim : s.data.limit < 255) :
    ∃ n, ShiftsDown (polls ws s n) (ws n).1 = true := by
  by_contra hnone
  have hno (n : Nat) : ShiftsDown (polls ws s n) (ws n).1 = false := by simpa using not_exists.mp hnone n
  have hmay (n : Nat) : MayShift (polls ws s n) ∧ (polls ws s n).data.repCnt = s.data.repCnt ∧
      (polls ws s n).data.limit = s.data.limit := by
    induction n with
    | zero => exact ⟨h, rfl, rfl⟩
    | succ n ih =>
      obtain ⟨-, -, hdsh, hrep', -⟩ := settings_noLink (ih.1.noLink (hws n)) (ws n).2
      refine ⟨ih.1.poll (hws n) (hno n) _, hrep'.trans ih.2.1, ?_⟩
      rw [← ih.2.2, PhyData.limit, PhyData.limit, polls, hdsh, hrep']
  have hstep (n : Nat) := (hmay (n + 1)).1.counted (hws (n + 1)) (hno (n + 1))
    (settings_noLink ((hmay n).1.noLink (hws n)) (ws n).2).2.2.2.2 (ws (n + 1)).2
  have hflag (m : Nat) (hm : (polls ws s (m + 1)).data.anegFlag = true) : False := by
    -- from here on all polls count
    have hkept (n : Nat) : (polls ws s (m + 1 + n)).data.anegFlag = true := by
      induction n with
      | zero => exact hm
      | succ n ih =>
        have hn := hstep (m + n)
        rw [show m + n + 1 = m + 1 + n by omega, if_neg (by simp [ih])] at hn
        exact hn.1.trans ih
    have hpersists : Persists (fun k => ws (m + 1 + k)) (polls ws s (m + 1)) := fun n _ => by
      rw [polls_add, (hmay _).1.qualifies (hws _)]
      exact hkept n
    obtain ⟨n, hn⟩ := (exists_shiftsDown_iff hpersists).mpr ((hmay (m + 1)).2.2 ▸ hlim)
    rw [polls_add, hno] at hn
    cases hn
  have hcount (n : Nat) (hn : 1 ≤ n) : (polls ws s (n + 1)).data.loopCnt = (polls ws s n).data.loopCnt + 1 := by
    obtain ⟨m, rfl⟩ := Nat.exists_eq_add_of_le' hn
    have hm := hstep m
    split at hm
    · exact absurd hm (hflag (m + 1))
    · exact hm.2
  obtain ⟨n, hn, h254⟩ := exists_eq_254 (c := fun n => (polls ws s n).data.loopCnt) hcount
  obtain ⟨m, rfl⟩ := Nat.exists_eq_add_of_le' hn
  have hm := hstep m
  rw [if_pos ⟨by simpa using hflag m, by rw [h254, (hmay (m + 1)).2.1]; exact hrep⟩] at hm
  exact hflag (m + 1) hm

/-! ## Runs -/

/-- In every run of calls that mix well: `dsh_complete` is set exactly while the 1G advertisement is withdrawn; a call that
withdraws it is a poll that shifts down, after more counted polls than the limit; polls that go on counting get there
exactly if the limit is below 255, and those on a stalled line if the limit and the wait for the restart are; and once the
link is lost, the port advertises as configured. -/
theorem downshift_sound (h : Reached Act.Mixes s n) :
    (s.data.dshComplete = true ↔ Withdrawn s) ∧
      (∀ act : Act, act.Mixes s → ¬Withdrawn s → Withdrawn (act.run s) →
        ∃ w status, act = .poll w status ∧ ShiftsDown s w = true ∧ s.data.limit < act.counted s n) ∧
      (∀ ws, Persists ws s → ((∃ n, ShiftsDown (polls ws s n) (ws n).1 = true) ↔ s.data.limit < 255)) ∧
      (∀ ws, MayShift s → (∀ n, (ws n).1.Stalls) → 2 * s.data.repCnt.toNat < 255 → s.data.limit < 255 →
        ∃ n, ShiftsDown (polls ws s n) (ws n).1 = true) ∧
      (∀ w status, (Act.poll w status).Mixes s → s.data.linkStatus = true → (result (poll w status) s).link = false →
        AsConfigured (after (poll w status) s)) := by
  have htracked := h.tracked
  refine ⟨htracked.dshComplete_iff, ?_, ?_, ?_, ?_⟩
  · intro act hmix hnot hw
    exact shiftsDown_of_withdrawn htracked hmix hnot hw
  · intro ws hws
    exact exists_shiftsDown_iff hws
  · intro ws hmay hws hrep hlim
    exact exists_shiftsDown_of_stalls hmay hws hrep hlim
  · intro w status hmix hup hlost
    exact (tracked_poll htracked hmix).advertises (dshComplete_of_lost htracked hmix hup hlost)

/-! ### A port with a stuck auto-negotiation -/

/-- Auto-negotiation with a manual mode. -/
def negConf (manNeg : ManualNeg) : Conf :=
  ⟨.auto, true, false, true, ⟨false, true, false, true, true, false⟩, false, manNeg, .auto⟩

/-- A partner that is there, without a link. -/
def stalledLine : StatusWords := ⟨0, 0, 0, bit 13 ||| bit 14, bit 6, 0⟩

/-- A link at 100M. -/
def linkedLine : StatusWords := ⟨bit 2 ||| bit 5, bit 8, 0, 0, 0, 0⟩

def deadLine : StatusWords := ⟨0, 0, 0, 0, 0, 0⟩

/-- A probed port. -/
def freshPort : Port := ⟨fun _ => 0, probed ⟨0x26, 0⟩⟩

/-- Configure a port, let it shift down, and get a link at 100M. -/
def shiftingRun (manNeg : ManualNeg) : List Act :=
  [Act.confSet (negConf manNeg), Act.repCountSet 1, Act.downshiftConfSet ⟨true, 1⟩] ++
    List.replicate 5 (Act.poll stalledLine downStatus) ++ [Act.poll linkedLine downStatus]

def runActs (acts : List Act) (s : Port) : Port := acts.foldl (fun s act => act.run s) s

theorem reached_runActs {P : Act → Port → Prop} (acts : List Act) (h : Reached P s n)
    (hacts : ∀ i, (hi : i < acts.length) → P acts[i] (runActs (acts.take i) s)) : ∃ n, Reached P (runActs acts s) n := by
  induction acts generalizing s n with
  | nil => exact ⟨n, h⟩
  | cons act acts ih =>
    refine ih (h.step act (hacts 0 (by simp))) fun i hi => ?_
    exact hacts (i + 1) (by simpa using hi)

theorem fresh_freshPort : Fresh freshPort := ⟨rfl, rfl, rfl⟩

theorem downshift_sound_master : Withdrawn (runActs (shiftingRun .ref) freshPort) ∧
    AsConfigured (after (poll deadLine downStatus) (runActs (shiftingRun .ref) freshPort)) := by
  obtain ⟨n, hn⟩ := reached_runActs (shiftingRun .ref) (.fresh fresh_freshPort) (P := Act.Mixes) (by decide +kernel)
  have hsound := downshift_sound hn
  exact ⟨hsound.1.mp (by decide +kernel),
    hsound.2.2.2.2 deadLine downStatus (by decide +kernel) (by decide +kernel) (by decide +kernel)⟩

/-- As the slave, the port advertises to be the master after its link is lost. -/
theorem not_downshift_sound : ¬∀ (s : Port) (n : Nat), Reached (fun _ _ => True) s n → ∀ w status,
    s.data.linkStatus = true → (result (poll w status) s).link = false → AsConfigured (after (poll w status) s) := by
  intro h
  obtain ⟨n, hn⟩ := reached_runActs (shiftingRun .client) (.fresh fresh_freshPort) (P := fun _ _ => True) fun _ _ => trivial
  have hbit := h _ n hn deadLine downStatus (by decide +kernel) (by decide +kernel) (by decide +kernel)
    (by decide +kernel) 11 (by simp)
  revert hbit
  decide +kernel

end Lan80xx.Lan8814.Gphy
