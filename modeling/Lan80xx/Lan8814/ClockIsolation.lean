import Lan80xx.Lan8814.ClockConf

/-!
# LAN8814: the two directions of a PTP clock

The clock of a port is configured for each direction by a call of its own, and both calls use the helper for the PTP
header fields with the flag of the receive direction. So a receive call also writes `TX_VERSION`, and a transmit call
writes `RX_VERSION` and the receive domain, but not the transmit domain.

- `isolated_iff`: what one call must find in the registers to program its own direction only;
- `clock_isolation`: in a run of such calls, each direction has the words of its last configuration.
-/

namespace Lan80xx.Lan8814

open Fallible RegBus

variable {H : Type}

/-! ## The registers of a direction -/

/-- The direction whose packets the register is about, when it is about one of them. -/
def EpReg.direction : EpReg → Option Direction
  | .userMac d _ | .userIpAddr d _ | .userIpMask d _ | .latency d _ | .parseConfig d | .parseVlanConfig d
  | .parseL2AddrEn d | .parseIpAddrEn d | .parseUdpSrcPort d | .parseUdpDestPort d | .version d | .domainDomainLo d
  | .domainMaskDomainUp d | .timestampEn d | .timestampConfig d | .mod d | .cfModEn d | .cfCfg d => some d
  | .rsvdByteCfg | .tailTag | .pdreqNsHi => some .rx
  | _ => none

theorem EpReg.not_status_of_direction {r : EpReg} {d : Direction} (h : r.direction = some d) : ¬r.status := by
  intro hst
  cases r <;> simp_all [EpReg.direction, EpReg.status]

/-- Version, domain and timestamp-enable words of a direction. -/
structure ClockWords where
  version : BitVec 16
  domainLo : BitVec 16
  domainUp : BitVec 16
  timestampEn : BitVec 16
  deriving DecidableEq

/-- The event messages that the direction timestamps. -/
def timestampEnWord (ts : TsState) (d : Direction) (conf : PtpClockConf) : BitVec 16 :=
  if conf.enable = false then 0#16
  else
    match d with
    | .rx => rxTsInsert conf
    | .tx => txTsInsert ts conf

/-- The words that a configuration asks for. -/
def clockWords (ts : TsState) (d : Direction) (conf : PtpClockConf) : ClockWords :=
  ⟨versionWord conf.ptpClassConf, domainLoWord conf.ptpClassConf, domainUpWord conf.ptpClassConf,
    timestampEnWord ts d conf⟩

/-- The words that the registers hold. -/
def peekClock (rf : PortRegs H) (d : Direction) (h : H) : ClockWords :=
  ⟨rf.peek h (.version d), rf.peek h (.domainDomainLo d), rf.peek h (.domainMaskDomainUp d), rf.peek h (.timestampEn d)⟩

/-! ## One call -/

/-- What the call writes to the other direction stands there already; and the transmit domain, which no call writes, is
the one asked for. -/
def Separate (rf : PortRegs H) (h : H) : Direction → PtpClockConf → Prop
  | .rx, conf => rf.peek h (.version .tx) = versionWord conf.ptpClassConf
  | .tx, conf => rf.peek h (.version .rx) = versionWord conf.ptpClassConf ∧
      ∀ d, rf.peek h (.domainDomainLo d) = domainLoWord conf.ptpClassConf ∧
        rf.peek h (.domainMaskDomainUp d) = domainUpWord conf.ptpClassConf

/-- The call programs its own direction, and changes no register of the other one. -/
def Isolated (rf : PortRegs H) (d : Direction) (conf : PtpClockConf) (s s' : Dev PhyData H) : Prop :=
  peekClock rf d s'.hw = clockWords s.conf.ts d conf ∧
    ∀ r, r.direction = some d.other → rf.peek s'.hw r = rf.peek s.hw r

section Step

variable {rf : PortRegs H} {s s' : Dev PhyData H} {d : Direction} {conf : PtpClockConf}

theorem patch_apply_at (m : EpReg → BitVec 16) (r q : EpReg) (v mask : BitVec 16) :
    Patch.apply m ⟨r, v, mask⟩ q = if q = r then merge (m r) v mask else m q := by
  simp [Patch.apply, Function.update_apply]

theorem merge_defMask (old v : BitVec 16) : merge old v defMask = v := merge_allOnes old v

/-- The data and the registers after a call. -/
theorem tsPtpClockConfSet_holds (hs : rf.Sound s.hw) (hok : tsPtpClockConfSet rf.toBus d conf s = .ok () s') :
    s'.conf = s.conf.clockSet d conf ∧
      ∀ r, ¬r.status → rf.peek s'.hw r = patch (rf.peek s.hw) (clockPatches s.conf d conf) r := by
  obtain ⟨hc, -, hm⟩ := (ends_tsPtpClockConfSet (E := fun _ => False) hs d conf).ok (holds_start rf s) hok
  exact ⟨hc, hm⟩

theorem latencyPatches_direction {p : PhyData} {twoStep : Bool} :
    ∀ q ∈ latencyPatches p twoStep, q.reg.direction = some .tx := by
  intro q hq
  simp only [latencyPatches, List.mem_cons, List.not_mem_nil, or_false] at hq
  rcases hq with rfl | rfl | rfl <;> rfl

theorem modePatches_direction {ts : TsState} : ∀ q ∈ modePatches ts d conf, q.reg.direction = some d := by
  intro q hq
  unfold modePatches at hq
  split at hq
  · simp only [List.mem_cons, List.not_mem_nil, or_false] at hq
    subst hq
    rfl
  · cases d <;> simp only [List.mem_cons, List.not_mem_nil, or_false] at hq
    · rcases hq with rfl | rfl | rfl | rfl | rfl | rfl | rfl <;> rfl
    · rcases hq with rfl | rfl | rfl | rfl | rfl <;> rfl

/-- The writes of a call to the other direction are among those of the PTP header fields. -/
theorem clockPatches_other {c : PhyData} {q : Patch EpReg 16} (hq : q ∈ clockPatches c d conf)
    (hr : q.reg.direction = some d.other) : q ∈ headerPatches conf.ptpClassConf := by
  cases d with
  | rx =>
    rcases List.mem_append.mp hq with h | h
    · exact h
    · rw [modePatches_direction q h] at hr
      cases hr
  | tx =>
    rcases List.mem_append.mp hq with h | h
    · rw [latencyPatches_direction q h] at hr
      cases hr
    rcases List.mem_append.mp h with h | h
    · exact h
    · rw [modePatches_direction q h] at hr
      cases hr

/-- The words that a call leaves in the registers of its direction and in those of the PTP header fields. -/
theorem patch_clockPatches (m : EpReg → BitVec 16) (c : PhyData) (d : Direction) (conf : PtpClockConf) :
    (∀ d', patch m (clockPatches c d conf) (.version d') = versionWord conf.ptpClassConf) ∧
    patch m (clockPatches c d conf) (.domainDomainLo .rx) = domainLoWord conf.ptpClassConf ∧
    patch m (clockPatches c d conf) (.domainMaskDomainUp .rx) = domainUpWord conf.ptpClassConf ∧
    patch m (clockPatches c d conf) (.domainDomainLo .tx) = m (.domainDomainLo .tx) ∧
    patch m (clockPatches c d conf) (.domainMaskDomainUp .tx) = m (.domainMaskDomainUp .tx) ∧
    patch m (clockPatches c d conf) (.timestampEn d) = timestampEnWord c.ts d conf := by
  unfold clockPatches modePatches headerPatches latencyPatches timestampEnWord
  refine ⟨fun d' => ?_, ?_⟩
  · cases d <;> cases d' <;> by_cases hen : conf.enable = false <;> simp [hen, patch_apply_at, merge_defMask]
  · cases d <;> by_cases hen : conf.enable = false <;> simp [hen, patch_apply_at, merge_defMask]

/-- One call programs its direction and leaves the other one alone exactly when `Separate` holds before it. -/
theorem isolated_iff (hs : rf.Sound s.hw) (hok : tsPtpClockConfSet rf.toBus d conf s = .ok () s') :
    Isolated rf d conf s s' ↔ Separate rf s.hw d conf := by
  obtain ⟨-, hm⟩ := tsPtpClockConfSet_holds hs hok
  obtain ⟨hver, hlo, hup, hlo', hup', hen⟩ := patch_clockPatches (rf.peek s.hw) s.conf d conf
  have hword : ∀ r d', r.direction = some d' → rf.peek s'.hw r = patch (rf.peek s.hw) (clockPatches s.conf d conf) r :=
    fun r d' hr => hm r (EpReg.not_status_of_direction hr)
  constructor
  · rintro ⟨hown, hother⟩
    cases d with
    | rx =>
      have hv := hother (.version .tx) rfl
      rw [hword _ _ rfl, hver] at hv
      exact hv.symm
    | tx =>
      have hv := hother (.version .rx) rfl
      have hl := hother (.domainDomainLo .rx) rfl
      have hu := hother (.domainMaskDomainUp .rx) rfl
      rw [hword _ _ rfl] at hv hl hu
      rw [hver] at hv
      rw [hlo] at hl
      rw [hup] at hu
      have hl' := congrArg ClockWords.domainLo hown
      have hu' := congrArg ClockWords.domainUp hown
      simp only [peekClock, clockWords] at hl' hu'
      rw [hword _ _ rfl, hlo'] at hl'
      rw [hword _ _ rfl, hup'] at hu'
      refine ⟨hv.symm, fun d' => ?_⟩
      cases d' with
      | rx => exact ⟨hl.symm, hu.symm⟩
      | tx => exact ⟨hl', hu'⟩
  · intro hsep
    constructor
    · have hv := hword (.version d) d rfl
      have hl := hword (.domainDomainLo d) d rfl
      have hu := hword (.domainMaskDomainUp d) d rfl
      have he := hword (.timestampEn d) d rfl
      unfold peekClock clockWords
      rw [hv, hl, hu, he, hver, hen]
      cases d with
      | rx => rw [hlo, hup]
      | tx => rw [hlo', hup', (hsep.2 .tx).1, (hsep.2 .tx).2]
    · intro r hr
      rw [hword r _ hr]
      refine patch_eq_of_in fun q hq hqr => ?_
      subst hqr
      -- only the PTP header fields are written, and they stand there already
      have hmem := clockPatches_other hq hr
      simp only [headerPatches, List.mem_cons, List.not_mem_nil, or_false] at hmem
      cases d with
      | rx =>
        rcases hmem with rfl | rfl | rfl | rfl
        · cases hr
        · exact congrArg (· &&& defMask) hsep
        · cases hr
        · cases hr
      | tx =>
        rcases hmem with rfl | rfl | rfl | rfl
        · exact congrArg (· &&& defMask) hsep.1
        · cases hr
        · exact congrArg (· &&& defMask) (hsep.2 .rx).1
        · exact congrArg (· &&& defMask) (hsep.2 .rx).2

end Step

/-! ## Runs -/

/-- A call for a direction on a device that answers, or an update by the device itself; the second part is the last
configuration of each direction. `P` restricts the calls. -/
inductive ClockStep (rf : PortRegs H) (P : H → Direction → PtpClockConf → Prop) :
    Dev PhyData H × (Direction → Option PtpClockConf) → Dev PhyData H × (Direction → Option PtpClockConf) → Prop
  | set {s s' last d conf} : P s.hw d conf → rf.Sound s.hw → tsPtpClockConfSet rf.toBus d conf s = .ok () s' →
      ClockStep rf P (s, last) (s', Function.update last d (some conf))
  | drift {s : Dev PhyData H} {last h'} : rf.drift s.hw h' → ClockStep rf P (s, last) ({ s with hw := h' }, last)

abbrev ClockRun (rf : PortRegs H) (P : H → Direction → PtpClockConf → Prop) :
    Dev PhyData H × (Direction → Option PtpClockConf) → Dev PhyData H × (Direction → Option PtpClockConf) → Prop :=
  Relation.ReflTransGen (ClockStep rf P)

/-- Each direction has the words of its last configuration. -/
structure ClocksMatch (rf : PortRegs H) (s₀ : Dev PhyData H) (last : Direction → Option PtpClockConf)
    (s : Dev PhyData H) : Prop where
  followup : s.conf.ts.txAutoFollowupTs = s₀.conf.ts.txAutoFollowupTs
  words : ∀ d, peekClock rf d s.hw = (last d).elim (peekClock rf d s₀.hw) (clockWords s₀.conf.ts d)

section Runs

variable {rf : PortRegs H} {s₀ s s' : Dev PhyData H} {last : Direction → Option PtpClockConf} {d : Direction}
  {conf : PtpClockConf}

theorem clockWords_congr {ts ts' : TsState} (h : ts.txAutoFollowupTs = ts'.txAutoFollowupTs) :
    clockWords ts d conf = clockWords ts' d conf := by
  simp only [clockWords, timestampEnWord, txTsInsert, h]

theorem Direction.eq_or_other (d d' : Direction) : d' = d ∨ d' = d.other := by
  cases d <;> cases d' <;> simp [Direction.other]

theorem peekClock_congr {h h' : H} (heq : ∀ r, r.direction = some d → rf.peek h' r = rf.peek h r) :
    peekClock rf d h' = peekClock rf d h := by
  unfold peekClock
  rw [heq _ rfl, heq _ rfl, heq _ rfl, heq _ rfl]

theorem ClocksMatch.set (h : ClocksMatch rf s₀ last s) (hsep : Separate rf s.hw d conf) (hs : rf.Sound s.hw)
    (hok : tsPtpClockConfSet rf.toBus d conf s = .ok () s') :
    ClocksMatch rf s₀ (Function.update last d (some conf)) s' := by
  obtain ⟨hown, hother⟩ := (isolated_iff hs hok).mpr hsep
  constructor
  · rw [(tsPtpClockConfSet_holds hs hok).1]
    exact h.followup
  · intro d'
    rcases Direction.eq_or_other d d' with rfl | rfl
    · rw [hown, Function.update_self]
      exact clockWords_congr h.followup
    · have hne : d.other ≠ d := by cases d <;> simp [Direction.other]
      rw [peekClock_congr hother, Function.update_of_ne hne]
      exact h.words d.other

theorem ClockStep.matches {x y : Dev PhyData H × (Direction → Option PtpClockConf)}
    (hstep : ClockStep rf (Separate rf) x y) (h : ClocksMatch rf s₀ x.2 x.1) : ClocksMatch rf s₀ y.2 y.1 := by
  cases hstep with
  | set hsep hs hok => exact h.set hsep hs hok
  | drift hd =>
    constructor
    · exact h.followup
    · intro d
      refine Eq.trans ?_ (h.words d)
      exact peekClock_congr fun r hr => rf.peek_drift _ _ r (EpReg.not_status_of_direction hr) (fun h => h) hd

/-- In every run on a device that answers, in which what each call writes to the other direction stands there already and
each transmit call finds its domain in the registers, both directions have the words of their last configurations, and
no call changes a register of the other direction. -/
theorem clock_isolation (rf : PortRegs H) {s₀ s : Dev PhyData H} {last : Direction → Option PtpClockConf}
    (hrun : ClockRun rf (Separate rf) (s₀, fun _ => none) (s, last)) :
    (∀ d, peekClock rf d s.hw = (last d).elim (peekClock rf d s₀.hw) (clockWords s₀.conf.ts d)) ∧
    ∀ d conf s', Separate rf s.hw d conf → rf.Sound s.hw → tsPtpClockConfSet rf.toBus d conf s = .ok () s' →
      ∀ r, r.direction = some d.other → rf.peek s'.hw r = rf.peek s.hw r := by
  have hinv : ∀ y, ClockRun rf (Separate rf) (s₀, fun _ => none) y → ClocksMatch rf s₀ y.2 y.1 := by
    intro y hy
    induction hy with
    | refl => exact ⟨rfl, fun _ => rfl⟩
    | tail _ hstep ih => exact hstep.matches ih
  constructor
  · exact (hinv _ hrun).words
  · intro d conf s' hsep hs hok
    exact ((isolated_iff hs hok).mpr hsep).2

end Runs

/-! ### A receive clock, and a transmit clock of another domain -/

/-- A boundary clock of domain 5, for version 0. -/
def benchClock : PtpClockConf :=
  { enable := true, clkMode := .bc1step, ptpClassConf := { domain := { mode := .value, fst := 5#8, snd := 0xF#8 } } }

abbrev benchClockSet (d : Direction) (s : Dev PhyData (EpReg → BitVec 16)) : Dev PhyData (EpReg → BitVec 16) :=
  final (tsPtpClockConfSet bench.toBus d benchClock) s

theorem benchClockSet_ok (d : Direction) :
    tsPtpClockConfSet bench.toBus d benchClock benchInit = .ok () (benchClockSet d benchInit) := by
  cases d <;> rfl

theorem clock_isolation_receive :
    peekClock bench .rx (benchClockSet .rx benchInit).hw = ⟨0#16, 5#16, 0xF#16, 0xF#16⟩ := by
  have hsep : Separate bench benchInit.hw .rx benchClock := rfl
  have hrun : ClockRun bench (Separate bench) (benchInit, fun _ => none)
      (benchClockSet .rx benchInit, Function.update (fun _ => none) .rx (some benchClock)) :=
    .single (.set hsep storage_sound (benchClockSet_ok .rx))
  have hwords : clockWords benchInit.conf.ts .rx benchClock = ⟨0#16, 5#16, 0xF#16, 0xF#16⟩ := by decide
  exact ((clock_isolation bench hrun).1 .rx).trans hwords

/-- After a transmit call alone, the domain stands in the receive registers. -/
theorem not_clock_isolation : ¬∀ (s₀ s : Dev PhyData (EpReg → BitVec 16)) (last : Direction → Option PtpClockConf),
    ClockRun bench (fun _ _ _ => True) (s₀, fun _ => none) (s, last) →
    ∀ d, peekClock bench d s.hw = (last d).elim (peekClock bench d s₀.hw) (clockWords s₀.conf.ts d) := by
  intro h
  have hrun : ClockRun bench (fun _ _ _ => True) (benchInit, fun _ => none)
      (benchClockSet .tx benchInit, Function.update (fun _ => none) .tx (some benchClock)) :=
    .single (.set trivial storage_sound (benchClockSet_ok .tx))
  have hrx := congrArg ClockWords.domainLo (h _ _ _ hrun .rx)
  have hleft : (peekClock bench .rx (benchClockSet .tx benchInit).hw).domainLo = 5#16 := rfl
  rw [hleft] at hrx
  revert hrx
  decide

end Lan80xx.Lan8814
