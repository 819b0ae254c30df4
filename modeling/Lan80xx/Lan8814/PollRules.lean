import Lan80xx.Lan8814.Poll

/-!
# LAN8814: what a poll does

- `polled_pollStatus`: the data and the master/slave bits after a poll of an enabled port, before the link is compared
  with the one of the last poll;
- `data_poll`, `bit_poll`: and after the whole poll.
-/

namespace Lan80xx.Lan8814.Gphy

open RegCalls

variable {w : StatusWords} {s : Port}

/-! ## The downshift -/

/-- A bit of the master/slave register after the 1G advertisement and the master value have been set, or cleared. -/
def advertised (c v : Bool) (b : Nat) (old : Bool) : Bool := if c ∧ (b = 9 ∨ b = 11) then v else old

def PhyData.shiftedDown (d : PhyData) : PhyData := { d with dshComplete := true, loopCnt := 0, anegFlag := false }

theorem data_downshift (s : Port) : (after downshift s).data = s.data.shiftedDown := rfl

theorem bit_downshift (s : Port) (b : Nat) :
    (after downshift s).bit anegMstrSlvCtrl b = advertised true false b (s.bit anegMstrSlvCtrl b) := by
  have hold : State.bit s anegMstrSlvCtrl b = (s.words anegMstrSlvCtrl).getLsbD b := rfl
  simp only [downshift, after_bind, bit_modifyData, bit_writeMasked, result_read, after_read, hold, advertised]
  by_cases hcase : b = 9 ∨ b = 11
  · obtain rfl | rfl := hcase <;> simp
  · have hmask : (full1000T ||| cfgVal).getLsbD b = false := by
      simpa using not_or.mp hcase
    simp [hmask, hcase]

def PhyData.afterDownshift (d : PhyData) (w : StatusWords) (link : Bool) : PhyData :=
  if d.counts w link then if d.overLimit then d.shiftedDown else d.countPoll else d

theorem data_pollDownshift (w : StatusWords) (link : Bool) (s : Port) :
    (after (pollDownshift w link) s).data = s.data.afterDownshift w link := by
  simp only [pollDownshift, after_bind, after_when, State.data_ite, data_downshift,
    data_modifyData]
  rfl

theorem bit_pollDownshift (w : StatusWords) (link : Bool) (s : Port) (b : Nat) :
    (after (pollDownshift w link) s).bit anegMstrSlvCtrl b =
      advertised (s.data.counts w link && s.data.overLimit) false b (s.bit anegMstrSlvCtrl b) := by
  simp only [pollDownshift, after_bind, after_when, State.bit_ite, bit_downshift, bit_modifyData, result_getData,
    after_getData]
  cases s.data.counts w link <;> cases s.data.overLimit <;> simp [advertised]

/-! ## The restart of the auto-negotiation -/

def PhyData.afterRestart (d : PhyData) (w : StatusWords) (link : Bool) : PhyData :=
  if d.stuck w link then
    if 2 * d.repCnt.toNat < (d.loopCnt + 1).toNat then { d with loopCnt := 0, anegFlag := true } else d.countPoll
  else d

theorem data_pollRestart (w : StatusWords) (link : Bool) (s : Port) :
    (after (pollRestart w link) s).data = s.data.afterRestart w link := by
  simp only [pollRestart, after_bind, after_when, State.data_ite, data_writeMasked,
    data_modifyData, decide_eq_true_eq]
  rfl

theorem keeps_pollRestart (w : StatusWords) (link : Bool) : Keeps (· = anegMstrSlvCtrl) (pollRestart w link) := by
  refine .bind .getData fun _ => .when fun _ => .bind (.modifyData _) fun _ => .when fun _ => ?_
  exact .bind (.writeMasked (by decide) _ _) fun _ => .modifyData _

/-! ## The speed -/

/-- The data after a poll with a link: only the counter, if it is cleared, and the CRC work-around have changed. -/
def SpeedPolled (d d' : PhyData) : Prop :=
  ∃ n c a, (n = d.loopCnt ∨ n = 0) ∧ d' = { d with loopCnt := n, crcWorkaround := c, anegAfterLinkUp := a }

theorem SpeedPolled.refl (d : PhyData) : SpeedPolled d d := ⟨_, _, _, Or.inl rfl, rfl⟩

theorem speedPolled_pollCrc (w : StatusWords) (status : Status) (s : Port) :
    SpeedPolled s.data (after (pollCrc w status) s).data := by
  simp only [pollCrc, after_bind, after_ite]
  split
  · exact .refl _
  · split
    · exact ⟨_, _, _, Or.inr rfl, rfl⟩
    · exact ⟨_, _, _, Or.inl rfl, rfl⟩

theorem speedPolled_pollSpeed (w : StatusWords) (status : Status) (s : Port) :
    SpeedPolled s.data (after (pollSpeed w status) s).data := by
  simp only [pollSpeed, after_bind, after_ite, after_pure, ite_self]
  split
  · split
    · exact speedPolled_pollCrc w status s
    · exact .refl _
  · exact .refl _

theorem keeps_pollSpeed (w : StatusWords) (status : Status) : Keeps (· = anegMstrSlvCtrl) (pollSpeed w status) := by
  have hcrc : Keeps (· = anegMstrSlvCtrl) (pollCrc w status) := by
    refine .bind .getData fun _ => .ite (fun _ => .pure _) fun _ => .ite (fun _ => ?_) fun _ => ?_
    · exact .bind (.writeMasked (by decide) _ _) fun _ => .bind (.modifyData _) fun _ => .pure _
    · exact .bind (.modifyData _) fun _ => .pure _
  refine .bind .getData fun _ => .ite (fun _ => .ite (fun _ => hcrc) fun _ => .pure _) fun _ => ?_
  exact .ite (fun _ => .pure _) fun _ => .ite (fun _ => .pure _) fun _ => .ite (fun _ => .pure _) fun _ =>
    .ite (fun _ => .pure _) fun _ => .pure _

theorem speedPolled_pollPartner (w : StatusWords) (noPartner : Bool) (status : Status) (s : Port) :
    SpeedPolled s.data (after (pollPartner w noPartner status) s).data := by
  cases noPartner with
  | true => exact .refl _
  | false => exact speedPolled_pollSpeed w status s

theorem keeps_pollPartner (w : StatusWords) (noPartner : Bool) (status : Status) :
    Keeps (· = anegMstrSlvCtrl) (pollPartner w noPartner status) :=
  .ite (fun _ => .pure _) fun _ => .bind (keeps_pollSpeed w status) fun _ => .bind .getData fun _ => .pure _

/-! ## The poll before its end -/

/-- The data after the part of the poll before its end; `shift` for a downshift, `count` for a poll that it counts. -/
structure Polled (d d' : PhyData) (count shift : Bool) : Prop where
  conf : d'.conf = d.conf
  dshConf : d'.dshConf = d.dshConf
  repCnt : d'.repCnt = d.repCnt
  loopback : d'.loopback = d.loopback
  dev : d'.dev = d.dev
  linkStatus : d'.linkStatus = d.linkStatus
  complete : d'.dshComplete = (d.dshComplete || shift)
  flag : d'.anegFlag = true →
    d'.loopCnt = 0 ∨ (d.anegFlag = true ∧ d'.loopCnt.toNat ≤ d.loopCnt.toNat + count.toNat)

section Polled

variable {d d' d'' : PhyData} {count shift link : Bool}

theorem Polled.refl (d : PhyData) : Polled d d false false :=
  ⟨rfl, rfl, rfl, rfl, rfl, rfl, by simp, fun h => Or.inr ⟨h, by simp⟩⟩

theorem toNat_succ_le (c : BitVec 8) : (c + 1).toNat ≤ c.toNat + 1 := by
  rw [BitVec.toNat_add]
  exact Nat.mod_le _ _

theorem polled_afterDownshift (d : PhyData) (w : StatusWords) (link : Bool) :
    Polled d (d.afterDownshift w link) (d.counts w link) (d.counts w link && d.overLimit) := by
  unfold PhyData.afterDownshift
  cases hc : d.counts w link with
  | false => exact .refl d
  | true =>
    have hflag : d.anegFlag = true ∧ d.dshComplete = false := by
      simp [PhyData.counts] at hc
      exact ⟨hc.1.2, hc.2⟩
    cases ho : d.overLimit with
    | true => exact ⟨rfl, rfl, rfl, rfl, rfl, rfl, by simp [PhyData.shiftedDown], fun h => by cases h⟩
    | false =>
      refine ⟨rfl, rfl, rfl, rfl, rfl, rfl, by simp [PhyData.countPoll], fun _ => Or.inr ⟨hflag.1, ?_⟩⟩
      exact toNat_succ_le d.loopCnt

theorem Polled.afterRestart (h : Polled d d' count shift) (w : StatusWords) (link : Bool) :
    Polled d (d'.afterRestart w link) count shift := by
  unfold PhyData.afterRestart
  cases hs : d'.stuck w link with
  | false => exact h
  | true =>
    have hflag : d'.anegFlag = false := by
      simp [PhyData.stuck] at hs
      exact hs.2
    by_cases hlim : 2 * d'.repCnt.toNat < (d'.loopCnt + 1).toNat
    · rw [if_pos rfl, if_pos hlim]
      exact ⟨h.conf, h.dshConf, h.repCnt, h.loopback, h.dev, h.linkStatus, h.complete, fun _ => Or.inl rfl⟩
    · rw [if_pos rfl, if_neg hlim]
      refine ⟨h.conf, h.dshConf, h.repCnt, h.loopback, h.dev, h.linkStatus, h.complete, fun hf => ?_⟩
      rw [show d'.countPoll.anegFlag = d'.anegFlag from rfl, hflag] at hf
      cases hf

theorem Polled.speed (h : Polled d d' count shift) (hs : SpeedPolled d' d'') : Polled d d'' count shift := by
  obtain ⟨n, c, a, hn, rfl⟩ := hs
  refine ⟨h.conf, h.dshConf, h.repCnt, h.loopback, h.dev, h.linkStatus, h.complete, fun hf => ?_⟩
  rcases hn with rfl | rfl
  · exact h.flag hf
  · exact Or.inl rfl

theorem polled_pollAneg (w : StatusWords) (nearEnd : Bool) (status : Status) (s : Port) :
    Polled s.data (after (pollAneg w nearEnd status) s).data (s.data.counts w (anegLink w nearEnd))
      (s.data.counts w (anegLink w nearEnd) && s.data.overLimit) := by
  have hcount := (polled_afterDownshift s.data w (anegLink w nearEnd)).afterRestart w (anegLink w nearEnd)
  rw [← data_pollDownshift, ← data_pollRestart] at hcount
  exact hcount.speed (speedPolled_pollPartner w _ _ _)

theorem bit_pollAneg (w : StatusWords) (nearEnd : Bool) (status : Status) (s : Port) (b : Nat) :
    (after (pollAneg w nearEnd status) s).bit anegMstrSlvCtrl b =
      advertised (s.data.counts w (anegLink w nearEnd) && s.data.overLimit) false b (s.bit anegMstrSlvCtrl b) := by
  simp only [pollAneg, after_bind]
  rw [(keeps_pollPartner _ _ _).bit _ rfl, (keeps_pollRestart _ _).bit _ rfl, bit_pollDownshift]

/-- A poll at a forced speed of 100M counts itself. -/
def forcedCounts (w : StatusWords) (s : Port) : Bool :=
  decide (controlSpeed (s.words basicControl) = .m100) && w.digitalAxAnStatus.getLsbD 14 &&
    !(w.basicStatus.getLsbD 2 || s.data.loopback.nearEndEna)

theorem polled_pollForced {status : Status} (hlink : status.link = (w.basicStatus.getLsbD 2 || s.data.loopback.nearEndEna))
    (hclean : s.data.anegFlag = true → forcedCounts w s = false) :
    Polled s.data (after (pollForced w status) s).data false false := by
  simp only [pollForced, after_bind, after_ite, State.data_ite, hlink]
  split
  · rename_i hcase
    have hflag : s.data.anegFlag = false := by
      cases hf : s.data.anegFlag with
      | false => rfl
      | true =>
        have hno := hclean hf
        simp [forcedCounts] at hno
        simp_all
    have hcount : Polled s.data s.data.countPoll false false :=
      ⟨rfl, rfl, rfl, rfl, rfl, rfl, by simp [PhyData.countPoll], fun h => by
        rw [show s.data.countPoll.anegFlag = s.data.anegFlag from rfl, hflag] at h
        cases h⟩
    split
    · exact ⟨rfl, rfl, rfl, rfl, rfl, rfl, hcount.complete, fun _ => Or.inl rfl⟩
    · exact hcount
  · exact .refl _

theorem keeps_pollForced (w : StatusWords) (status : Status) : Keeps (· = anegMstrSlvCtrl) (pollForced w status) := by
  refine .bind (.read _) fun _ => .bind .getData fun _ => .ite (fun _ => ?_) fun _ => .pure _
  refine .bind (.modifyData _) fun _ => .ite (fun _ => ?_) fun _ => .pure _
  exact .bind (.writeMasked (by decide) _ _) fun _ => .bind (.modifyData _) fun _ => .pure _

/-- The poll counts for the downshift. -/
def PhyData.qualifies (d : PhyData) (w : StatusWords) : Bool :=
  !d.loopback.nearEndEna && !d.loopback.connectorEna && decide d.conf.speed.Negotiates && d.counts w (anegLink w false)

/-- The poll shifts down. -/
def PhyData.downshifts (d : PhyData) (w : StatusWords) : Bool := d.qualifies w && d.overLimit

theorem counts_link (d : PhyData) (w : StatusWords) : d.counts w true = false := by simp [PhyData.counts]

theorem qualifies_of_negotiates (hn : d.conf.speed.Negotiates)
    (hc : (!d.loopback.nearEndEna && d.loopback.connectorEna) = false) :
    d.qualifies w = d.counts w (anegLink w d.loopback.nearEndEna) := by
  cases hnear : d.loopback.nearEndEna with
  | true => simp [PhyData.qualifies, hnear, anegLink, counts_link]
  | false => simp_all [PhyData.qualifies]

theorem qualifies_of_not (h : ¬d.conf.speed.Negotiates ∨ (!d.loopback.nearEndEna && d.loopback.connectorEna) = true) :
    d.qualifies w = false := by
  rcases h with h | h
  · simp [PhyData.qualifies, h]
  · simp at h
    simp [PhyData.qualifies, h.2]

/-- A poll of an enabled port before its end. -/
theorem polled_pollStatus (w : StatusWords) (status : Status)
    (hclean : s.data.anegFlag = true → ¬s.data.conf.speed.Negotiates → forcedCounts w s = false) :
    Polled s.data (after (pollStatus w status s.data) s).data (s.data.qualifies w) (s.data.downshifts w) ∧
      ∀ b, (after (pollStatus w status s.data) s).bit anegMstrSlvCtrl b =
        advertised (s.data.downshifts w) false b (s.bit anegMstrSlvCtrl b) := by
  have hnone (hq : s.data.qualifies w = false) (b : Nat) :
      advertised (s.data.downshifts w) false b (s.bit anegMstrSlvCtrl b) = s.bit anegMstrSlvCtrl b := by
    simp [PhyData.downshifts, hq, advertised]
  by_cases hconn : (!s.data.loopback.nearEndEna && s.data.loopback.connectorEna) = true
  · have hq := qualifies_of_not (w := w) (Or.inr hconn)
    refine ⟨?_, fun b => ?_⟩
    · rw [pollStatus, if_pos hconn, PhyData.downshifts, hq]
      exact .refl _
    · rw [pollStatus, if_pos hconn, hnone hq]
      rfl
  · by_cases hn : s.data.conf.speed.Negotiates
    · have hq := qualifies_of_negotiates (w := w) hn (by simpa using hconn)
      refine ⟨?_, fun b => ?_⟩
      · rw [pollStatus, if_neg hconn, if_pos hn, PhyData.downshifts, hq]
        exact polled_pollAneg w _ _ s
      · rw [pollStatus, if_neg hconn, if_pos hn, bit_pollAneg, PhyData.downshifts, hq]
    · have hq := qualifies_of_not (d := s.data) (w := w) (Or.inl hn)
      refine ⟨?_, fun b => ?_⟩
      · rw [pollStatus, if_neg hconn, if_neg hn, PhyData.downshifts, hq]
        exact polled_pollForced rfl fun hf => hclean hf hn
      · rw [pollStatus, if_neg hconn, if_neg hn, (keeps_pollForced w _).bit _ rfl, hnone hq]

end Polled

/-! ## The end of the poll -/

theorem keeps_pollLinkUp (w : StatusWords) (status : Status) : Keeps (· = anegMstrSlvCtrl) (pollLinkUp w status) := by
  refine .bind .getData fun _ => .bind (.when fun _ => ?_) fun _ => .when fun _ => .writeAll (by decide)
  exact .bind (.write (by decide) _) fun _ => .writeMasked (by decide) _ _

theorem keepsData_pollLinkUp (w : StatusWords) (status : Status) : KeepsData (pollLinkUp w status) := by
  refine .bind .getData fun _ => .bind (.when fun _ => ?_) fun _ => .when fun _ => .writeAll _
  exact .bind (.write _ _) fun _ => .writeMasked _ _ _

/-- The data after the end of a poll. -/
def PhyData.ended (d : PhyData) (status : Status) : PhyData :=
  if d.linkChanges status.link then
    PhyData.setStatus status
      { (if !status.link && d.dshComplete then { d with dshComplete := false, anegAfterLinkUp := false } else d) with
        loopCnt := 0
        anegFlag := false }
  else d.setStatus status

theorem data_pollLinkDown (val : BitVec 16) (s : Port) : (after (pollLinkDown val) s).data =
    if s.data.dshComplete then { s.data with loopCnt := 0, dshComplete := false, anegAfterLinkUp := false }
    else s.data := by
  have hfifo : (after workaroundFifoReset s).data = s.data := KeepsData.writeAll _ s
  simp only [pollLinkDown, after_bind, after_when, State.data_ite, data_modifyData, data_writeMasked, after_getData,
    hfifo]
  rw [result_getData, hfifo]

theorem data_pollLink (w : StatusWords) (status : Status) (val : BitVec 16) (s : Port) :
    (after (pollLink w status val) s).data = if !status.link && s.data.dshComplete then
        { s.data with loopCnt := 0, dshComplete := false, anegAfterLinkUp := false }
      else s.data := by
  rw [pollLink, after_ite]
  cases status.link with
  | true => exact keepsData_pollLinkUp w status s
  | false => exact data_pollLinkDown val s

theorem data_pollEnd (w : StatusWords) (status : Status) (val : BitVec 16) (s : Port) :
    (after (pollEnd w status val) s).data = s.data.ended status := by
  simp only [pollEnd, after_bind, after_when, data_modifyData, State.data_ite, data_pollLink, PhyData.ended,
    after_getData, result_getData]
  split_ifs <;> rfl

theorem bit_pollLinkDown (val : BitVec 16) (s : Port) (b : Nat) : (after (pollLinkDown val) s).bit anegMstrSlvCtrl b =
    advertised s.data.dshComplete true b (s.bit anegMstrSlvCtrl b) := by
  have hfifo : (after workaroundFifoReset s).data = s.data := KeepsData.writeAll _ s
  have hword := keeps_fifoReset.bit s (by decide : ConfLeaves anegMstrSlvCtrl) b
  simp only [pollLinkDown, after_bind, after_when, State.bit_ite, bit_modifyData, bit_writeMasked, after_getData, hword,
    result_getData, hfifo, advertised]
  by_cases hcase : b = 9 ∨ b = 11
  · obtain rfl | rfl := hcase <;> simp
  · have hmask : (full1000T ||| cfgVal).getLsbD b = false := by
      simpa using not_or.mp hcase
    simp [hmask, hcase]

theorem bit_pollEnd (w : StatusWords) (status : Status) (val : BitVec 16) (s : Port) (b : Nat) :
    (after (pollEnd w status val) s).bit anegMstrSlvCtrl b =
      advertised (s.data.linkChanges status.link && !status.link && s.data.dshComplete) true b
        (s.bit anegMstrSlvCtrl b) := by
  have hlink : (after (pollLink w status val) s).bit anegMstrSlvCtrl b =
      advertised (!status.link && s.data.dshComplete) true b (s.bit anegMstrSlvCtrl b) := by
    rw [pollLink, after_ite]
    cases status.link with
    | true => exact ((keeps_pollLinkUp w status).bit s rfl b).trans (by simp [advertised])
    | false => exact bit_pollLinkDown val s b
  simp only [pollEnd, after_bind, after_when, bit_modifyData, State.bit_ite, hlink, after_getData, result_getData]
  cases s.data.linkChanges status.link <;> simp [advertised]

/-! ## The link of a port that is shifted down -/

/-- The link that a port sees that negotiates and is, or gets, shifted down. -/
def PhyData.sees (d : PhyData) (w : StatusWords) : Bool :=
  d.loopback.nearEndEna || (w.basicStatus.getLsbD 2 && (d.loopback.connectorEna || w.basicStatus.getLsbD 5))

theorem link_pollSpeed (status : Status) (hd : s.data.dshComplete = true) :
    (result (pollSpeed w status) s).link = status.link := by
  simp only [pollSpeed, result_bind, result_ite, result_pure]
  split
  · rename_i hcase
    simp [hd] at hcase
  · split_ifs <;> rfl

theorem link_pollPartner (noPartner : Bool) (status : Status) (hd : s.data.dshComplete = true) :
    (result (pollPartner w noPartner status) s).1.link = status.link := by
  cases noPartner with
  | true => rfl
  | false => exact link_pollSpeed status hd

theorem link_pollAneg (nearEnd : Bool) (status : Status)
    (hd : (s.data.dshComplete || s.data.counts w (anegLink w nearEnd) && s.data.overLimit) = true) :
    (result (pollAneg w nearEnd status) s).1.link = anegLink w nearEnd := by
  simp only [pollAneg, result_bind]
  refine link_pollPartner _ _ ?_
  have hpolled := (polled_afterDownshift s.data w (anegLink w nearEnd)).afterRestart w (anegLink w nearEnd)
  rw [data_pollRestart, data_pollDownshift, hpolled.complete]
  exact hd

theorem link_pollStatus (status : Status) (hn : s.data.conf.speed.Negotiates)
    (hd : (s.data.dshComplete || s.data.downshifts w) = true) :
    (result (pollStatus w status s.data) s).1.link = s.data.sees w := by
  by_cases hconn : (!s.data.loopback.nearEndEna && s.data.loopback.connectorEna) = true
  · have hloop : s.data.loopback.nearEndEna = false ∧ s.data.loopback.connectorEna = true := by simpa using hconn
    rw [pollStatus, if_pos hconn]
    simp [PhyData.sees, hloop]
  · rw [pollStatus, if_neg hconn, if_pos hn, link_pollAneg]
    · cases hnear : s.data.loopback.nearEndEna <;> simp_all [PhyData.sees, anegLink]
    · rw [← qualifies_of_negotiates hn (by simpa using hconn)]
      exact hd

/-! ## The whole poll -/

/-- The poll advertises 1G again, given the link that it sees. -/
def PhyData.readvertises (d : PhyData) (w : StatusWords) (link : Bool) : Bool :=
  d.linkChanges link && !link && (d.dshComplete || d.downshifts w)

theorem data_poll_disabled (w : StatusWords) (status : Status) (ha : s.data.conf.adminEnable = false) :
    after (poll w status) s = { s with
      data := { s.data.setStatus downStatus with loopCnt := 0, anegFlag := false, dshComplete := false } } := by
  simp only [poll, after_bind, result_getData, after_getData, ha, Bool.not_false, if_true]
  rfl

theorem after_poll (w : StatusWords) (status : Status) (ha : s.data.conf.adminEnable = true) :
    after (poll w status) s =
      after (pollEnd w (result (poll w status) s) (result (pollStatus w status s.data) s).2)
        (after (pollStatus w status s.data) s) := by
  simp only [poll, after_bind, result_bind, result_getData, after_getData, ha, Bool.not_true, Bool.false_eq_true, if_false]
  rfl

theorem link_poll (w : StatusWords) (status : Status) (ha : s.data.conf.adminEnable = true)
    (hn : s.data.conf.speed.Negotiates) (hd : (s.data.dshComplete || s.data.downshifts w) = true) :
    (result (poll w status) s).link = s.data.sees w := by
  rw [← link_pollStatus status hn hd]
  simp only [poll, result_bind, result_getData, after_getData, ha, Bool.not_true, Bool.false_eq_true, if_false]
  rfl

section Enabled

variable (status : Status) (ha : s.data.conf.adminEnable = true)
  (hclean : s.data.anegFlag = true → ¬s.data.conf.speed.Negotiates → forcedCounts w s = false)

include ha hclean

/-- The data after a poll of an enabled port. -/
theorem data_poll : ∃ d', Polled s.data d' (s.data.qualifies w) (s.data.downshifts w) ∧
    (after (poll w status) s).data = d'.ended (result (poll w status) s) :=
  ⟨_, (polled_pollStatus w status hclean).1, by rw [after_poll w status ha, data_pollEnd]⟩

/-- The bits of the master/slave register after a poll of an enabled port. -/
theorem bit_poll (b : Nat) : (after (poll w status) s).bit anegMstrSlvCtrl b =
    advertised (s.data.readvertises w (result (poll w status) s).link) true b
      (advertised (s.data.downshifts w) false b (s.bit anegMstrSlvCtrl b)) := by
  obtain ⟨hpolled, hbit⟩ := polled_pollStatus w status hclean
  have hchange (link : Bool) : (after (pollStatus w status s.data) s).data.linkChanges link = s.data.linkChanges link := by
    simp only [PhyData.linkChanges, PhyData.isLan8814, hpolled.dev, hpolled.linkStatus]
  rw [after_poll w status ha, bit_pollEnd, hbit, hpolled.complete, hchange]
  rfl

end Enabled

end Lan80xx.Lan8814.Gphy
