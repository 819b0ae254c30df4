import Lan80xx.Lan8814.ClockConf
import Lan80xx.Lan8814.Gphy
import Lan80xx.Lib.FixedPoint

/-!
# LAN8814: latencies

A latency is an addition to the default latency of the port's speed, in units of 2 ^ -16 nanoseconds; a register has the
whole nanoseconds of the sum, in 16 bits.

- `ends_latencySet`, `latencySet_refused`: the calls of both directions; a value that is not taken is no error;
- `egressWord_eq`, `ingressWord_toNat`: the words that are programmed;
- `latency_right_iff`: the sums that do not have 16 bits, and the ingress latencies whose fractions count.
-/

namespace Lan80xx.Lan8814

open FixedPoint Fallible RegBus

/-! ## The words -/

/-- The latency that a `conf.speed` stands for. -/
def latencySpeed : Gphy.Speed → Option Speed
  | .m10 => some .m10
  | .m100 => some .m100
  | .g1 | .auto => some .g1
  | _ => none

/-- `lan8814_twostep_egr_lat_adj`, as a time interval; 0 for a clock of one step -/
def twoStepAdj (p : PhyData) (twoStep : Bool) (v : Speed) : Int :=
  if twoStep then (twostepEgrLatAdj p.baseTs.clkFreq v : Int) * 2 ^ 16 else 0

/-- `latency` of the egress call -/
def egressSum (p : PhyData) (twoStep : Bool) (v : Speed) (latency : BitVec 64) : BitVec 64 :=
  BitVec.ofInt 64 (p.baseTs.defaultLatencies .tx v) - BitVec.ofInt 64 (twoStepAdj p twoStep v) + latency

/-- `val` of the egress call; nothing where the sum is below zero -/
def egressWord (p : PhyData) (twoStep : Bool) (latency : BitVec 64) (v : Speed) : Option (BitVec 16) :=
  if 0 ≤ (egressSum p twoStep v latency).toInt then some (((egressSum p twoStep v latency).sshiftRight 16).setWidth 16)
  else none

/-- `(MEPA_LABS(*latency) >> 16) & 0xFFFF` -/
def absNs (latency : BitVec 64) : BitVec 16 := ((labs latency).sshiftRight 16).setWidth 16

/-- `val` of the ingress call; nothing where the default latency is not above the absolute value -/
def ingressWord (p : PhyData) (latency : BitVec 64) (v : Speed) : Option (BitVec 16) :=
  let default := p.baseTs.defaultLatencies .rx v / 2 ^ 16
  if 0 ≤ latency.toInt then some (BitVec.ofInt 16 default + absNs latency)
  else if default ≤ (absNs latency).toNat then none
  else some (BitVec.ofInt 16 default - absNs latency)

/-! ## The calls -/

/-- `ts_port_conf.port_latencies`, with one of them set -/
def PhyData.setPortLatency (p : PhyData) (d : Direction) (v : Speed) (latency : Int) : PhyData :=
  { p with ts := { p.ts with
      portLatencies := Function.update p.ts.portLatencies d (Function.update (p.ts.portLatencies d) v latency) } }

section Calls

variable {H : Type} (bus : PortBus H)

/-- What the calls of both directions have in common. -/
def latencySet (d : Direction) (speed : Gphy.Speed) (word : PhyData → Speed → Option (BitVec 16)) (latency : BitVec 64) :
    Call PhyData H Unit := do
  let p ← getConf
  match latencySpeed speed with
  | none => return ()
  | some v =>
    match word p v with
    | none => return ()
    | some val =>
      epWrm bus (.latency d v) val defMask
      modifyConf fun p => p.setPortLatency d v latency.toInt

/-- `lan8814_ts_clock_egress_latency_set_priv` -/
def tsClockEgressLatencySetPriv (speed : Gphy.Speed) (latency : BitVec 64) (twoStep : Bool) : Call PhyData H Unit :=
  latencySet bus .tx speed (fun p => egressWord p twoStep latency) latency

/-- `lan8814_ts_clock_egress_latency_set` -/
def tsClockEgressLatencySet (speed : Gphy.Speed) (latency : BitVec 64) : Call PhyData H Unit := do
  let p ← getConf
  tsClockEgressLatencySetPriv bus speed latency (p.ts.clockConf .tx).twoStep

/-- `lan8814_ts_clock_ingress_latency_set` -/
def tsClockIngressLatencySet (speed : Gphy.Speed) (latency : BitVec 64) : Call PhyData H Unit :=
  latencySet bus .rx speed (fun p => ingressWord p latency) latency

end Calls

section Ends

variable {H : Type} (rf : PortRegs H) {h₀ : H} {c : PhyData} {m : EpReg → BitVec 16} {E : Dev PhyData H → Prop}
  {d : Direction} {speed : Gphy.Speed} {word : PhyData → Speed → Option (BitVec 16)} {latency : BitVec 64} {v : Speed}
  {val : BitVec 16}

/-- A value that is taken, on a device that carries out its accesses. -/
theorem ends_latencySet (hs : rf.Sound h₀) (hv : latencySpeed speed = some v) (hword : word c v = some val) :
    Ends (Holds rf h₀ c m) (latencySet rf.toBus d speed word latency)
      (fun _ => Holds rf h₀ (c.setPortLatency d v latency.toInt) (Function.update m (.latency d v) val)) E := by
  apply ends_getConf_bind (c := c) fun _ h => h.1
  rw [hv]
  dsimp only
  rw [hword]
  dsimp only
  rw [← apply_defMask]
  apply (ends_epWrm rf hs (by simp [EpReg.status]) _ _).bind fun _ => ?_
  exact ends_modifyConf_holds rf _

/-- A value that is not taken, and a speed without latencies. -/
theorem latencySet_refused {s : Dev PhyData H} (h : ∀ v, latencySpeed speed = some v → word s.conf v = none) :
    latencySet rf.toBus d speed word latency s = .ok () s := by
  show (match latencySpeed speed with
    | none => return ()
    | some v =>
      match word s.conf v with
      | none => return ()
      | some val => do
        epWrm rf.toBus (.latency d v) val defMask
        modifyConf fun p => p.setPortLatency d v latency.toInt : Call PhyData H Unit) s = _
  cases hv : latencySpeed speed with
  | none => rfl
  | some v =>
    dsimp only
    rw [h v hv]
    rfl

end Ends

/-! ## The words as numbers -/

/-- What the register has to hold, with the fraction. -/
def wantedLatency (p : PhyData) (d : Direction) (twoStep : Bool) (latency : BitVec 64) (v : Speed) : Int :=
  match d with
  | .tx => p.baseTs.defaultLatencies .tx v - twoStepAdj p twoStep v + latency.toInt
  | .rx => p.baseTs.defaultLatencies .rx v + latency.toInt

section Words

variable {p : PhyData} {twoStep : Bool} {latency : BitVec 64} {v : Speed}

/-- Bits 16 to 31 of a time interval; the sign does not matter. -/
theorem shift_toNat (x : BitVec 64) : ((x.sshiftRight 16).setWidth 16).toNat = x.toNat / 2 ^ 16 % 2 ^ 16 := by
  have hcond := BitVec.toInt_eq_toNat_cond x
  have hshift : x.toInt >>> (16 : Nat) = x.toInt / ((2 ^ 16 : Nat) : Int) := Int.shiftRight_eq_div_pow ..
  rw [BitVec.toNat_setWidth, BitVec.sshiftRight_eq, BitVec.toNat_ofInt, hshift]
  split at hcond <;> omega

theorem egressSum_eq : egressSum p twoStep v latency = BitVec.ofInt 64 (wantedLatency p .tx twoStep latency v) := by
  have hlatency : latency = BitVec.ofInt 64 latency.toInt := BitVec.ofInt_toInt.symm
  unfold egressSum
  conv_lhs => rw [hlatency]
  rw [BitVec.sub_eq_add_neg, ← BitVec.ofInt_neg, ← BitVec.ofInt_add, ← BitVec.ofInt_add]
  rfl

/-- The egress register has the whole nanoseconds of a sum that has 16 bits of them. -/
theorem egressWord_eq (h0 : 0 ≤ wantedLatency p .tx twoStep latency v)
    (h32 : wantedLatency p .tx twoStep latency v < 2 ^ 32) : ∃ val, egressWord p twoStep latency v = some val ∧
      (val.toNat : Int) = wantedLatency p .tx twoStep latency v / 2 ^ 16 := by
  have htoInt : (egressSum p twoStep v latency).toInt = wantedLatency p .tx twoStep latency v := by
    rw [egressSum_eq]
    exact BitVec.toInt_ofInt_eq_self (by decide) (by omega) (by omega)
  have hcond := BitVec.toInt_eq_toNat_cond (egressSum p twoStep v latency)
  rw [htoInt] at hcond
  refine ⟨((egressSum p twoStep v latency).sshiftRight 16).setWidth 16, ?_, ?_⟩
  · rw [egressWord, htoInt, if_pos h0]
  · rw [shift_toNat]
    split at hcond <;> omega

theorem absNs_toNat (latency : BitVec 64) : (absNs latency).toNat = latency.toInt.natAbs / 2 ^ 16 % 2 ^ 16 := by
  rw [absNs, shift_toNat, labs_toNat]

/-- The ingress register has the sum, or the difference, of whole nanoseconds. -/
theorem ingressWord_toNat {val : BitVec 16} (h : ingressWord p latency v = some val) :
    (val.toNat : Int) = (p.baseTs.defaultLatencies .rx v / 2 ^ 16 +
      if 0 ≤ latency.toInt then (latency.toInt.natAbs / 2 ^ 16 : Int) else -(latency.toInt.natAbs / 2 ^ 16 : Int)) %
        2 ^ 16 := by
  have habs := absNs_toNat latency
  rw [ingressWord] at h
  split at h
  next hpos =>
    obtain rfl := Option.some.inj h
    rw [if_pos hpos, BitVec.toNat_add, BitVec.toNat_ofInt, habs]
    omega
  next hneg =>
    split at h
    · cases h
    · obtain rfl := Option.some.inj h
      rw [if_neg hneg, BitVec.toNat_sub, BitVec.toNat_ofInt, habs]
      omega

end Words

/-! ## Reloading -/

section Reload

variable {p : PhyData} {v : Speed} {latency : BitVec 64} {twoStep : Bool}

theorem baseTs_setPortLatency (d : Direction) (x : Int) :
    (p.setPortLatency d v x).baseTs.defaultLatencies = p.baseTs.defaultLatencies ∧
      (p.setPortLatency d v x).baseTs.clkFreq = p.baseTs.clkFreq := by
  unfold PhyData.baseTs PhyData.setPortLatency
  cases p.base <;> exact ⟨rfl, rfl⟩

/-- What a reload writes for the latency that is stored. -/
theorem egressLatencyWord_setPortLatency (h0 : 0 ≤ wantedLatency p .tx twoStep latency v)
    (h32 : wantedLatency p .tx twoStep latency v < 2 ^ 32) :
    ((egressLatencyWord (p.setPortLatency .tx v latency.toInt) twoStep v).toNat : Int) =
      wantedLatency p .tx twoStep latency v / 2 ^ 16 := by
  obtain ⟨hdefault, hfreq⟩ := baseTs_setPortLatency (p := p) (v := v) .tx latency.toInt
  have hstored : (p.setPortLatency .tx v latency.toInt).ts.portLatencies .tx v = latency.toInt := by
    simp [PhyData.setPortLatency]
  have hword : egressLatencyWord (p.setPortLatency .tx v latency.toInt) twoStep v =
      BitVec.ofInt 16 (if 0 < wantedLatency p .tx twoStep latency v then wantedLatency p .tx twoStep latency v / 2 ^ 16
        else 0) := by
    rw [egressLatencyWord, hdefault, hfreq, hstored]
    rfl
  rw [hword, BitVec.toNat_ofInt]
  split <;> omega

theorem patch_latencyPatches (m : EpReg → BitVec 16) :
    patch m (latencyPatches p twoStep) (.latency .tx v) = egressLatencyWord p twoStep v := by
  simp only [latencyPatches, patch_cons, patch_nil, apply_defMask]
  cases v <;> simp

end Reload

/-! ## What a latency has to do -/

section Right

/-- The call for a direction; two steps only count for egress. -/
def tsLatencySet {H : Type} (bus : PortBus H) (d : Direction) (speed : Gphy.Speed) (latency : BitVec 64)
    (twoStep : Bool) : Call PhyData H Unit :=
  match d with
  | .tx => tsClockEgressLatencySetPriv bus speed latency twoStep
  | .rx => tsClockIngressLatencySet bus speed latency

/-- The word that the call for a direction programs. -/
def latencyWord (p : PhyData) (d : Direction) (twoStep : Bool) (latency : BitVec 64) (v : Speed) : Option (BitVec 16) :=
  match d with
  | .tx => egressWord p twoStep latency v
  | .rx => ingressWord p latency v

/-- The register gets the whole nanoseconds of the sum, which has 16 bits of them, and the latency is stored; or an error
is reported, and nothing has changed. Reloading the egress latencies then writes what the call has written. The device
carries out its accesses. -/
structure LatencyRight (c : PhyData) (d : Direction) (speed : Gphy.Speed) (twoStep : Bool) (latency : BitVec 64) :
    Prop where
  programs : ∀ {H : Type} (rf : PortRegs H) (s : Dev PhyData H), rf.Sound s.hw → s.conf = c →
    (∃ v s', latencySpeed speed = some v ∧ tsLatencySet rf.toBus d speed latency twoStep s = .ok () s' ∧
      0 ≤ wantedLatency c d twoStep latency v / 2 ^ 16 ∧ wantedLatency c d twoStep latency v / 2 ^ 16 ≤ 65535 ∧
      ((rf.peek s'.hw (.latency d v)).toNat : Int) = wantedLatency c d twoStep latency v / 2 ^ 16 ∧
      s'.conf = c.setPortLatency d v latency.toInt) ∨
    ∃ e s', tsLatencySet rf.toBus d speed latency twoStep s = .error e s' ∧ s'.conf = c ∧
      ∀ v, rf.peek s'.hw (.latency d v) = rf.peek s.hw (.latency d v)
  reloads : ∀ {H : Type} (rf : PortRegs H) (s s' s'' : Dev PhyData H) (v : Speed), rf.Sound s.hw → s.conf = c →
    d = .tx → latencySpeed speed = some v → tsLatencySet rf.toBus d speed latency twoStep s = .ok () s' →
    tsReloadEgressLatency rf.toBus twoStep s' = .ok () s'' →
      rf.peek s''.hw (.latency .tx v) = rf.peek s'.hw (.latency .tx v)

/-- The fractions of the default latency and of the ingress latency do not count, and a latency below zero leaves more
than its own nanoseconds. -/
structure WholeIngress (default : Int) (latency : BitVec 64) : Prop where
  carry : 0 ≤ latency.toInt → default % 2 ^ 16 + latency.toInt % 2 ^ 16 < 2 ^ 16
  borrow : latency.toInt < 0 → latency.toInt.natAbs % 2 ^ 16 ≤ default % 2 ^ 16 ∧
    (latency.toInt.natAbs / 2 ^ 16 % 2 ^ 16 : Int) < default / 2 ^ 16

/-- The speed has a latency, the sum has 16 bits of whole nanoseconds, and fractions do not count. -/
def LatencyFits (c : PhyData) (d : Direction) (speed : Gphy.Speed) (twoStep : Bool) (latency : BitVec 64) : Prop :=
  ∃ v, latencySpeed speed = some v ∧ 0 ≤ wantedLatency c d twoStep latency v ∧
    wantedLatency c d twoStep latency v < 2 ^ 32 ∧
    (d = .rx → WholeIngress (c.baseTs.defaultLatencies .rx v) latency)

variable {c : PhyData} {d : Direction} {speed : Gphy.Speed} {twoStep : Bool} {latency : BitVec 64} {v : Speed}

theorem tsLatencySet_eq {H : Type} (bus : PortBus H) :
    tsLatencySet bus d speed latency twoStep =
      latencySet bus d speed (fun p => latencyWord p d twoStep latency) latency := by
  cases d <;> rfl

/-- What a fitting latency programs. -/
theorem latencyWord_of_fits (h0 : 0 ≤ wantedLatency c d twoStep latency v)
    (h32 : wantedLatency c d twoStep latency v < 2 ^ 32)
    (hin : d = .rx → WholeIngress (c.baseTs.defaultLatencies .rx v) latency) :
    ∃ val, latencyWord c d twoStep latency v = some val ∧
      (val.toNat : Int) = wantedLatency c d twoStep latency v / 2 ^ 16 := by
  cases d with
  | tx => exact egressWord_eq h0 h32
  | rx =>
    obtain ⟨hcarry, hborrow⟩ := hin rfl
    have habs := absNs_toNat latency
    simp only [wantedLatency] at h0 h32 ⊢
    have hsome : ∃ val, ingressWord c latency v = some val := by
      unfold ingressWord
      dsimp only
      split
      · exact ⟨_, rfl⟩
      · rw [if_neg (by omega)]
        exact ⟨_, rfl⟩
    obtain ⟨val, hval⟩ := hsome
    refine ⟨val, hval, ?_⟩
    have hword := ingressWord_toNat hval
    split at hword <;> omega

/-- An ingress latency that is programmed rightly fits. -/
theorem wholeIngress_of_word {val : BitVec 16} (hword : ingressWord c latency v = some val)
    (hval : (val.toNat : Int) = wantedLatency c .rx twoStep latency v / 2 ^ 16) :
    WholeIngress (c.baseTs.defaultLatencies .rx v) latency := by
  have habs := absNs_toNat latency
  have hnat := ingressWord_toNat hword
  simp only [wantedLatency] at hval
  constructor
  · intro hpos
    rw [if_pos hpos] at hnat
    omega
  · intro hneg
    rw [if_neg (by omega)] at hnat
    have hdefault : ¬c.baseTs.defaultLatencies .rx v / 2 ^ 16 ≤ (absNs latency).toNat := by
      intro hle
      rw [ingressWord, if_neg (by omega), if_pos hle] at hword
      cases hword
    constructor <;> omega

theorem LatencyRight.fits (h : LatencyRight c d speed twoStep latency) : LatencyFits c d speed twoStep latency := by
  cases hv : latencySpeed speed with
  | none =>
    have hrefused : tsLatencySet bench.toBus d speed latency twoStep ⟨c, fun _ => 0#16⟩ = .ok () ⟨c, fun _ => 0#16⟩ := by
      rw [tsLatencySet_eq]
      exact latencySet_refused bench (by simp [hv])
    rcases h.programs bench ⟨c, fun _ => 0#16⟩ storage_sound rfl with ⟨v, -, hsome, -⟩ | ⟨e, s', herr, -⟩
    · cases hv.symm.trans hsome
    · cases hrefused.symm.trans herr
  | some v =>
    -- a register that does not hold the word before the call
    let start : Dev PhyData (EpReg → BitVec 16) :=
      ⟨c, fun _ => BitVec.ofInt 16 (wantedLatency c d twoStep latency v / 2 ^ 16 + 1)⟩
    cases hword : latencyWord c d twoStep latency v with
    | none =>
      have hrefused : tsLatencySet bench.toBus d speed latency twoStep start = .ok () start := by
        rw [tsLatencySet_eq]
        refine latencySet_refused bench fun v' hv' => ?_
        obtain rfl := Option.some.inj (hv.symm.trans hv')
        exact hword
      rcases h.programs bench start storage_sound rfl with ⟨v', s', hv', hok, -, -, hreg, -⟩ | ⟨e, s', herr, -⟩
      · obtain rfl := Option.some.inj (hv.symm.trans hv')
        cases hrefused.symm.trans hok
        have hbefore : (bench.peek start.hw (.latency d v)).toNat =
            ((wantedLatency c d twoStep latency v / 2 ^ 16 + 1) % (2 ^ 16 : Nat)).toNat := BitVec.toNat_ofInt _
        omega
      · cases hrefused.symm.trans herr
    | some val =>
      have hrun : Ends (Holds bench start.hw c (bench.peek start.hw)) (tsLatencySet bench.toBus d speed latency twoStep)
          (fun _ => Holds bench start.hw (c.setPortLatency d v latency.toInt)
            (Function.update (bench.peek start.hw) (.latency d v) val)) fun _ => False := by
        rw [tsLatencySet_eq]
        exact ends_latencySet bench storage_sound hv hword
      rcases h.programs bench start storage_sound rfl with ⟨v', s', hv', hok, h0, h16, hreg, -⟩ | ⟨e, s', herr, -⟩
      · obtain rfl := Option.some.inj (hv.symm.trans hv')
        have hholds := hrun.ok (holds_start bench start) hok
        rw [hholds.2.2 _ (by simp [EpReg.status]), Function.update_self] at hreg
        refine ⟨v, hv, by omega, by omega, ?_⟩
        rintro rfl
        exact wholeIngress_of_word hword hreg
      · exact (hrun.error (holds_start bench start) herr).elim

theorem LatencyFits.right (h : LatencyFits c d speed twoStep latency) : LatencyRight c d speed twoStep latency := by
  obtain ⟨v, hv, h0, h32, hin⟩ := h
  obtain ⟨val, hword, hval⟩ := latencyWord_of_fits h0 h32 hin
  have hrun {H : Type} (rf : PortRegs H) (s : Dev PhyData H) (hs : rf.Sound s.hw) (hc : s.conf = c) :
      Ends (Holds rf s.hw c (rf.peek s.hw)) (tsLatencySet rf.toBus d speed latency twoStep)
        (fun _ => Holds rf s.hw (c.setPortLatency d v latency.toInt)
          (Function.update (rf.peek s.hw) (.latency d v) val)) fun _ => False := by
    rw [tsLatencySet_eq]
    exact ends_latencySet rf hs hv hword
  refine ⟨?_, ?_⟩
  · intro H rf s hs hc
    rcases hrun rf s hs hc s (hc ▸ holds_start rf s) with ⟨_, s', hok, hconf, -, hpeek⟩ | ⟨_, _, -, hno⟩
    · refine .inl ⟨v, s', hv, hok, by omega, by omega, ?_, hconf⟩
      rw [hpeek _ (by simp [EpReg.status]), Function.update_self, hval]
    · exact hno.elim
  · rintro H rf s s' s'' v' hs hc rfl hv' hok hreload
    obtain rfl := Option.some.inj (hv.symm.trans hv')
    have hset := (hrun rf s hs hc).ok (hc ▸ holds_start rf s) hok
    have hload := (ends_tsReloadEgressLatency (E := fun _ => False) hs twoStep).ok hset hreload
    have hstatus : ¬(EpReg.latency .tx v).status := by simp [EpReg.status]
    rw [hload.2.2 _ hstatus, hset.2.2 _ hstatus, patch_latencyPatches, Function.update_self]
    apply BitVec.eq_of_toNat_eq
    have hagain := egressLatencyWord_setPortLatency h0 h32
    omega

/-- **A latency is programmed rightly exactly when it fits.** -/
theorem latency_right_iff (c : PhyData) (d : Direction) (speed : Gphy.Speed) (twoStep : Bool) (latency : BitVec 64) :
    LatencyRight c d speed twoStep latency ↔ LatencyFits c d speed twoStep latency :=
  ⟨LatencyRight.fits, LatencyFits.right⟩

end Right

/-- A port at 250 MHz, with the default latencies of 1 Gb/s. -/
def latencyPort : PhyData where
  ts := { clkFreq := .m250, defaultLatencies := fun d v => if d = .tx ∧ v = .g1 then 186 * 2 ^ 16 else 0 }

/-- A latency of 65536 ns is stored, and programmed as one of 0. -/
theorem not_latency_right : ¬∀ (c : PhyData) (d : Direction) (speed : Gphy.Speed) (twoStep : Bool) (latency : BitVec 64),
    LatencyRight c d speed twoStep latency := by
  intro h
  obtain ⟨v, hv, -, h32, -⟩ := (h latencyPort .tx .g1 false 0x100000000).fits
  cases hv
  exact absurd h32 (by decide)

end Lan80xx.Lan8814
