import Lan80xx.Ts.Types

/-!
# Timestamping: clearing an engine

An engine is cleared in one direction: its enable bit goes off in the mode register that all engines share, and so do
the flows of its comparators. The analyzer that is written is the egress one in either direction.

- `modeCleared_getLsbD`: the mode register loses the enable bit of the engine, and no other;
- `words_of_engineClear`: what a call that returns has made of the registers;
- `engine_clear_right_iff`: the effect is the wanted one exactly where the words that are written astray were there
  already.
-/

namespace Lan80xx.Ts

open Fallible RegBus

/-! ## Addresses -/

/-- `LAN80XX_PTP_IP_1588_TOP_CFG_STAT_ANALYZER_MODE`. -/
def analyzerMode : Nat := 0x1

/-- `LAN80XX_ANA_ETH1_NXT_PROTOCOL_ETH1_NXT_PROTOCOL`. -/
def eth1NxtProtocol : Nat := 0x0

/-- `LAN80XX_ANA_IP1_NXT_PROTOCOL_IP1_NXT_COMPARATOR`. -/
def ip1NxtComparator : Nat := 0x1b0

/-- `LAN80XX_ANA_IP1_NXT_PROTOCOL_IP1_UDP_CHKSUM_CFG`. -/
def ip1UdpChksumCfg : Nat := 0x1b8

/-- `LAN80XX_ANA_ETH1_FLOW_CFG_ETH1_FLOW_ENABLE`. -/
def eth1FlowEnable (i : Nat) : Nat := 0x10 + 16 * i

/-- `LAN80XX_ANA_IP1_FLOW_CFG_IP1_FLOW_ENA`. -/
def ip1FlowEna (i : Nat) : Nat := 0x1c0 + 16 * i

/-- `LAN80XX_ANA_OAM_ETH1_FLOW_CFG_ETH1_FLOW_ENABLE`. -/
def oamEth1FlowEnable (i : Nat) : Nat := 0x20 + 16 * i

/-- `eng_id <= LAN80XX_PHY_TS_PTP_ENGINE_ID_1`. -/
def Engine.isPtp : Engine → Bool
  | .ptp0 | .ptp1 => true
  | .oam2A | .oam2B | .invalid => false

/-- The place of an engine in the enable fields; the halves of engine 2 share one. -/
def Engine.place : Engine → Nat
  | .ptp0 => 0
  | .ptp1 => 1
  | .oam2A | .oam2B | .invalid => 2

/-- The place of an enable field: `INGR_ENCAP_ENGINE_ENA`, `EGR_ENCAP_ENGINE_ENA`. -/
def enaShift (ingress : Bool) : Nat := if ingress then 0 else 4

/-- The enable bit of an engine in a direction. -/
def enableBit (ingress : Bool) (engId : Engine) : Nat := enaShift ingress + engId.place

/-! ## The words that are written -/

/-- The word of the mode register with the engine off. -/
def modeCleared (ingress : Bool) (engId : Engine) (value : BitVec 32) : BitVec 32 :=
  let temp := (value >>> enaShift ingress) &&& 7
  let temp := temp &&& ~~~((1 : BitVec 32) <<< engId.place)
  (value &&& ~~~((7 : BitVec 32) <<< enaShift ingress)) ||| ((temp &&& 7) <<< enaShift ingress)

/-- The word of the next protocol register without a comparator. -/
def noComparator (value : BitVec 32) : BitVec 32 := value &&& ~~~7

theorem getLsbD_seven (i : Nat) : (7 : BitVec 32).getLsbD i = decide (i < 3) := by
  by_cases h : i < 3
  · obtain rfl | rfl | rfl : i = 0 ∨ i = 1 ∨ i = 2 := by omega
    all_goals rfl
  · have hhigh : (7 : BitVec 32).toNat < 2 ^ i := calc
      (7 : BitVec 32).toNat < 2 ^ 3 := by decide
      _ ≤ 2 ^ i := Nat.pow_le_pow_right (by decide) (by omega)
    rw [BitVec.getLsbD, Nat.testBit_lt_two_pow hhigh, decide_eq_false h]

/-- The mode register loses the enable bit of the engine, and no other. -/
theorem modeCleared_getLsbD (ingress : Bool) (engId : Engine) (value : BitVec 32) (b : Nat) :
    (modeCleared ingress engId value).getLsbD b = (value.getLsbD b && !decide (b = enableBit ingress engId)) := by
  have hplace : engId.place < 3 := by cases engId <;> decide
  have hshift : enaShift ingress ≤ 4 := by cases ingress <;> decide
  have hone (i : Nat) : ((1 : BitVec 32) <<< engId.place).getLsbD i = decide (i = engId.place) := by
    have htwo : (1 : BitVec 32) <<< engId.place = BitVec.twoPow 32 engId.place := (BitVec.twoPow_eq 32 engId.place).symm
    rw [htwo, BitVec.getLsbD_twoPow]
    by_cases h : i = engId.place
    · subst h
      simp [show engId.place < 32 by omega]
    · simp [h, Ne.symm h]
  unfold modeCleared enableBit
  by_cases hb : b < 32
  · simp only [BitVec.getLsbD_or, BitVec.getLsbD_and, BitVec.getLsbD_not, BitVec.getLsbD_shiftLeft,
      BitVec.getLsbD_ushiftRight, getLsbD_seven, hone, hb]
    by_cases hs : b < enaShift ingress
    · simp [hs, show b ≠ enaShift ingress + engId.place by omega]
    · by_cases hf : b - enaShift ingress < 3
      · have hsum : enaShift ingress + (b - enaShift ingress) = b := by omega
        have hlow : b - enaShift ingress < 32 := by omega
        have hiff : (b - enaShift ingress = engId.place) ↔ b = enaShift ingress + engId.place := by omega
        simp [hs, hf, hsum, hlow, hiff]
      · simp [hs, hf, show b ≠ enaShift ingress + engId.place by omega]
  · rw [BitVec.getLsbD_of_ge _ _ (by omega), BitVec.getLsbD_of_ge _ _ (by omega)]
    rfl

/-! ## The call -/

section Calls

variable {H : Type} (bus : Bus TsReg 32 H)

/-- The part that only a PTP engine has; it leaves the value that is written next. -/
def nxtProtocolClear (engId : Engine) (blk : BlkId) (value : BitVec 32) : Call H (BitVec 32) := do
  if engId.isPtp = true then do
    let value ← readCsr bus blk eth1NxtProtocol
    writeCsr bus blk eth1NxtProtocol (noComparator value)
    pure (noComparator value)
  else
    pure value

/-- One round of the loop over the flows. -/
def flowClear (engId : Engine) (blk : BlkId) (i : Nat) : Call H Unit := do
  if engId.isPtp = true then do
    writeCsr bus blk (eth1FlowEnable i) 0
    writeCsr bus blk (ip1FlowEna i) 0
  else
    pure ()

/-- `lan80xx_phy_ts_engine_clear_priv`, from the analyzer block on. -/
def engineClearIn (blk : BlkId) (ingress : Bool) (engId : Engine) : Call H Unit := do
  let value ← readCsr bus .proc0 analyzerMode
  writeCsr bus .proc0 analyzerMode (modeCleared ingress engId value)
  let value ← nxtProtocolClear bus engId blk (modeCleared ingress engId value)
  writeCsr bus blk ip1NxtComparator value
  writeCsr bus blk ip1UdpChksumCfg value
  -- `i <= 8`: one round more than there are flows.
  forUpTo 9 (flowClear bus engId blk)

/-- `lan80xx_phy_ts_engine_clear_priv`; the analyzer block is that of `FALSE`, not of `ingress`. -/
def engineClear (ingress : Bool) (engId : Engine) : Call H Unit := do
  let conf ← getConf
  failIf (conf.engUsed ingress engId = false) rcError
  match anaBlkIdGet engId false with
  | none => throw rcError
  | some blk => engineClearIn bus blk ingress engId

end Calls

/-! ## What is written -/

/-- The flows up to the `n`th are off. -/
def clearFlows (blk : BlkId) : Nat → (TsReg → BitVec 32) → TsReg → BitVec 32
  | 0, m => m
  | n + 1, m =>
    Function.update (Function.update (clearFlows blk n m) (.csr blk (eth1FlowEnable n)) 0) (.csr blk (ip1FlowEna n)) 0

/-- The next protocol register of a PTP engine. -/
def clearNxt (engId : Engine) (blk : BlkId) (m : TsReg → BitVec 32) : TsReg → BitVec 32 :=
  if engId.isPtp = true then Function.update m (.csr blk eth1NxtProtocol) (noComparator (m (.csr blk eth1NxtProtocol)))
  else m

/-- The value that goes on from there. -/
def nxtValue (engId : Engine) (blk : BlkId) (value : BitVec 32) (m : TsReg → BitVec 32) : BitVec 32 :=
  if engId.isPtp = true then noComparator (m (.csr blk eth1NxtProtocol)) else value

/-- The registers after the call. -/
def clearedWords (blk : BlkId) (ingress : Bool) (engId : Engine) (m : TsReg → BitVec 32) : TsReg → BitVec 32 :=
  let value := modeCleared ingress engId (m (.csr .proc0 analyzerMode))
  let m := Function.update m (.csr .proc0 analyzerMode) value
  let value := nxtValue engId blk value m
  let m := Function.update (Function.update (clearNxt engId blk m) (.csr blk ip1NxtComparator) value)
    (.csr blk ip1UdpChksumCfg) value
  if engId.isPtp = true then clearFlows blk 9 m else m

section Written

variable {H : Type} (tb : TsBus H) {h₀ : H} {c : TsConf} {m : TsReg → BitVec 32} {s s' : Dev TsConf H} {u : Unit}
  {engId : Engine} {blk : BlkId} {ingress : Bool}

theorem leads_nxtProtocolClear (value : BitVec 32) : Leads (Sees tb h₀ c m) (nxtProtocolClear tb.toBus engId blk value)
    fun v s => Sees tb h₀ c (clearNxt engId blk m) s ∧ v = nxtValue engId blk value m := by
  unfold nxtProtocolClear clearNxt nxtValue
  split
  · refine leads_read tb _ ((leads_write tb _ _).bind fun _ => Ends.pure ?_)
    exact fun _ h => ⟨h, rfl⟩
  · exact Ends.pure fun _ h => ⟨h, rfl⟩

theorem leads_flows : Leads (Sees tb h₀ c m) (forUpTo 9 (flowClear tb.toBus engId blk))
    fun _ => Sees tb h₀ c (if engId.isPtp = true then clearFlows blk 9 m else m) := by
  by_cases hp : engId.isPtp = true
  · rw [if_pos hp]
    refine Ends.forUpTo (I := fun k => Sees tb h₀ c (clearFlows blk k m)) 9 fun k _ => ?_
    rw [flowClear, if_pos hp]
    exact (leads_write tb _ _).bind fun _ => leads_write tb _ _
  · rw [if_neg hp]
    refine Ends.forUpTo (I := fun _ => Sees tb h₀ c m) 9 fun k _ => ?_
    rw [flowClear, if_neg hp]
    exact Ends.pure fun _ h => h

/-- What a call that returns has made of the registers. -/
theorem words_of_engineClear (hb : anaBlkIdGet engId false = some blk)
    (h : engineClear tb.toBus ingress engId s = .ok u s') :
    tb.view s'.hw = clearedWords blk ingress engId (tb.view s.hw) := by
  have hrun : Leads (Sees tb s.hw s.conf (tb.view s.hw)) (engineClear tb.toBus ingress engId)
      fun _ => Sees tb s.hw s.conf (clearedWords blk ingress engId (tb.view s.hw)) := by
    refine leads_getConf tb (leads_failIf tb fun _ => ?_)
    rw [hb]
    refine leads_read tb _ ((leads_write tb _ _).bind fun _ => (leads_nxtProtocolClear tb _).bind fun v => ?_)
    rintro t ⟨ht, rfl⟩
    exact ((leads_write tb _ _).bind fun _ => (leads_write tb _ _).bind fun _ => leads_flows tb) t ht
  exact (hrun.ok (sees_start tb s) h).2.2

/-- An engine without an analyzer block is refused. -/
theorem engineClear_invalid (hb : anaBlkIdGet engId false = none) :
    engineClear tb.toBus ingress engId s ≠ .ok u s' := by
  intro h
  have hrun : Leads (Sees tb s.hw s.conf (tb.view s.hw)) (engineClear tb.toBus ingress engId) fun _ _ => False := by
    refine leads_getConf tb (leads_failIf tb fun _ => ?_)
    rw [hb]
    exact Ends.throw fun _ _ => trivial
  exact hrun.ok (sees_start tb s) h

end Written

section Storage

variable {m : TsReg → BitVec 32} {engId : Engine} {blk : BlkId} {ingress : Bool}

/-- A port whose registers hold given words, with all engines in use. -/
def inUse (m : TsReg → BitVec 32) : Dev TsConf (TsReg → BitVec 32) := ⟨{ engUsed := fun _ _ => true }, m⟩

theorem engineClear_inUse (hb : anaBlkIdGet engId false = some blk) :
    ∃ s', engineClear bench.toBus ingress engId (inUse m) = .ok () s' := by
  cases engId <;> cases ingress <;> first | exact ⟨_, rfl⟩ | cases hb

theorem clearFlows_other {r : TsReg} :
    ∀ n, (∀ i < n, r ≠ .csr blk (eth1FlowEnable i) ∧ r ≠ .csr blk (ip1FlowEna i)) → clearFlows blk n m r = m r
  | 0, _ => rfl
  | n + 1, h => by
    obtain ⟨heth, hip⟩ := h n (by omega)
    rw [clearFlows, Function.update_of_ne hip, Function.update_of_ne heth]
    exact clearFlows_other n fun i hi => h i (by omega)

theorem clearFlows_eth {i : Nat} : ∀ n, i < n → n ≤ 9 → clearFlows blk n m (.csr blk (eth1FlowEnable i)) = 0
  | n + 1, h, hn => by
    have hne : TsReg.csr blk (eth1FlowEnable i) ≠ .csr blk (ip1FlowEna n) := by
      simp only [ne_eq, TsReg.csr.injEq, eth1FlowEnable, ip1FlowEna]
      omega
    rw [clearFlows, Function.update_of_ne hne]
    by_cases hi : i = n
    · subst hi
      exact Function.update_self _ _ _
    · have hne' : TsReg.csr blk (eth1FlowEnable i) ≠ .csr blk (eth1FlowEnable n) := by
        simp only [ne_eq, TsReg.csr.injEq, eth1FlowEnable]
        omega
      rw [Function.update_of_ne hne']
      exact clearFlows_eth n (by omega) (by omega)

theorem clearFlows_ip {i : Nat} : ∀ n, i < n → n ≤ 9 → clearFlows blk n m (.csr blk (ip1FlowEna i)) = 0
  | n + 1, h, hn => by
    rw [clearFlows]
    by_cases hi : i = n
    · subst hi
      exact Function.update_self _ _ _
    · have hne : TsReg.csr blk (ip1FlowEna i) ≠ .csr blk (ip1FlowEna n) := by
        simp only [ne_eq, TsReg.csr.injEq, ip1FlowEna]
        omega
      have hne' : TsReg.csr blk (ip1FlowEna i) ≠ .csr blk (eth1FlowEnable n) := by
        simp only [ne_eq, TsReg.csr.injEq, eth1FlowEnable, ip1FlowEna]
        omega
      rw [Function.update_of_ne hne, Function.update_of_ne hne']
      exact clearFlows_ip n (by omega) (by omega)

/-- The value that goes into the two IP1 registers. -/
def ip1Word (blk : BlkId) (ingress : Bool) (engId : Engine) (m : TsReg → BitVec 32) : BitVec 32 :=
  nxtValue engId blk (modeCleared ingress engId (m (.csr .proc0 analyzerMode))) m

/-- A register that the call writes. -/
def Written (blk : BlkId) (engId : Engine) (r : TsReg) : Prop :=
  r = .csr .proc0 analyzerMode ∨ r = .csr blk ip1NxtComparator ∨ r = .csr blk ip1UdpChksumCfg ∨
    engId.isPtp = true ∧ (r = .csr blk eth1NxtProtocol ∨
      ∃ i < 9, r = .csr blk (eth1FlowEnable i) ∨ r = .csr blk (ip1FlowEna i))

theorem anaBlkIdGet_ne_proc0 (hb : anaBlkIdGet engId ingress = some blk) : blk ≠ .proc0 := by
  rintro rfl
  cases engId <;> cases ingress <;> cases hb

/-- Where the loop over the flows writes nothing. -/
theorem clearFlows_beside {a : Nat} (h : ∀ i < 9, a ≠ eth1FlowEnable i ∧ a ≠ ip1FlowEna i) :
    clearFlows blk 9 m (.csr blk a) = m (.csr blk a) :=
  clearFlows_other 9 fun i hi =>
    ⟨fun heq => (h i hi).1 (TsReg.csr.inj heq).2, fun heq => (h i hi).2 (TsReg.csr.inj heq).2⟩

/-- What is not written stays. -/
theorem clearedWords_other {r : TsReg} (h : ¬Written blk engId r) : clearedWords blk ingress engId m r = m r := by
  unfold Written at h
  push Not at h
  obtain ⟨hmode, hip, hudp, hptp⟩ := h
  unfold clearedWords clearNxt
  by_cases hp : engId.isPtp = true
  · obtain ⟨hnxt, hflows⟩ := hptp hp
    rw [if_pos hp, clearFlows_other 9 hflows, Function.update_of_ne hudp, Function.update_of_ne hip, if_pos hp,
      Function.update_of_ne hnxt, Function.update_of_ne hmode]
  · rw [if_neg hp, Function.update_of_ne hudp, Function.update_of_ne hip, if_neg hp, Function.update_of_ne hmode]

theorem clearedWords_mode (hb : blk ≠ .proc0) : clearedWords blk ingress engId m (.csr .proc0 analyzerMode) =
    modeCleared ingress engId (m (.csr .proc0 analyzerMode)) := by
  have hne (a : Nat) : TsReg.csr .proc0 analyzerMode ≠ .csr blk a := fun heq => hb (TsReg.csr.inj heq).1.symm
  have hstart : clearedWords blk ingress engId m (.csr .proc0 analyzerMode) = Function.update m (.csr .proc0 analyzerMode)
      (modeCleared ingress engId (m (.csr .proc0 analyzerMode))) (.csr .proc0 analyzerMode) := by
    unfold clearedWords clearNxt
    by_cases hp : engId.isPtp = true
    · rw [if_pos hp, clearFlows_other 9 fun i _ => ⟨hne _, hne _⟩, Function.update_of_ne (hne _),
        Function.update_of_ne (hne _), if_pos hp, Function.update_of_ne (hne _)]
    · rw [if_neg hp, Function.update_of_ne (hne _), Function.update_of_ne (hne _), if_neg hp]
  rw [hstart, Function.update_self]

theorem nxtValue_update (hb : blk ≠ .proc0) (value v : BitVec 32) :
    nxtValue engId blk value (Function.update m (.csr .proc0 analyzerMode) v) = nxtValue engId blk value m := by
  unfold nxtValue
  rw [Function.update_of_ne fun heq => hb (TsReg.csr.inj heq).1]

/-- Both IP1 registers get the value that was written last. -/
theorem clearedWords_ip1 (hb : blk ≠ .proc0) {a : Nat} (ha : a = ip1NxtComparator ∨ a = ip1UdpChksumCfg) :
    clearedWords blk ingress engId m (.csr blk a) = ip1Word blk ingress engId m := by
  have hflows (m : TsReg → BitVec 32) :
      (if engId.isPtp = true then clearFlows blk 9 m else m) (.csr blk a) = m (.csr blk a) := by
    split
    · refine clearFlows_beside fun i _ => ?_
      unfold eth1FlowEnable ip1FlowEna
      unfold ip1NxtComparator ip1UdpChksumCfg at ha
      omega
    · rfl
  rw [clearedWords, hflows, nxtValue_update hb, ip1Word]
  rcases ha with rfl | rfl
  · rw [Function.update_of_ne (fun heq => absurd (TsReg.csr.inj heq).2 (by decide)), Function.update_self]
  · rw [Function.update_self]

theorem clearedWords_nxt (hb : blk ≠ .proc0) (hp : engId.isPtp = true) :
    clearedWords blk ingress engId m (.csr blk eth1NxtProtocol) = noComparator (m (.csr blk eth1NxtProtocol)) := by
  have hne {a : Nat} (ha : eth1NxtProtocol ≠ a) : TsReg.csr blk eth1NxtProtocol ≠ .csr blk a :=
    fun heq => ha (TsReg.csr.inj heq).2
  have hmode : TsReg.csr blk eth1NxtProtocol ≠ .csr .proc0 analyzerMode := fun heq => hb (TsReg.csr.inj heq).1
  have hflows (m : TsReg → BitVec 32) :
      clearFlows blk 9 m (.csr blk eth1NxtProtocol) = m (.csr blk eth1NxtProtocol) := by
    refine clearFlows_beside fun i _ => ?_
    unfold eth1NxtProtocol eth1FlowEnable ip1FlowEna
    omega
  rw [clearedWords, if_pos hp, hflows, Function.update_of_ne (hne (by decide)), Function.update_of_ne (hne (by decide)),
    clearNxt, if_pos hp, Function.update_self, Function.update_of_ne hmode]

theorem clearedWords_flow (hp : engId.isPtp = true) {i : Nat} (hi : i < 9) :
    clearedWords blk ingress engId m (.csr blk (eth1FlowEnable i)) = 0 ∧
      clearedWords blk ingress engId m (.csr blk (ip1FlowEna i)) = 0 := by
  rw [clearedWords, if_pos hp]
  exact ⟨clearFlows_eth 9 hi le_rfl, clearFlows_ip 9 hi le_rfl⟩

end Storage

/-! ## What clearing has to do -/

/-- The flow enables of an engine, of ETH1 and, in a PTP engine, of IP1. -/
def flowEnables (engId : Engine) (i : Nat) : List Nat :=
  if engId.isPtp = true then [eth1FlowEnable i, ip1FlowEna i] else [oamEth1FlowEnable i]

/-- A register of the engine: the shared mode register, and in the analyzer of the direction those of the protocols and
of the eight flows. -/
def Owned (ingress : Bool) (engId : Engine) : TsReg → Prop
  | .csr blk a => blk = .proc0 ∧ a = analyzerMode ∨ anaBlkIdGet engId ingress = some blk ∧
    if engId.isPtp = true then a = eth1NxtProtocol ∨ a = ip1NxtComparator ∨ a = ip1UdpChksumCfg ∨
      (eth1FlowEnable 0 ≤ a ∧ a < eth1FlowEnable 8) ∨ (ip1FlowEna 0 ≤ a ∧ a < ip1FlowEna 8)
    else oamEth1FlowEnable 0 ≤ a ∧ a < oamEth1FlowEnable 8
  | _ => False

/-- The eight flows of an engine are off. -/
def FlowsOff (ingress : Bool) (engId : Engine) (m : TsReg → BitVec 32) : Prop :=
  ∀ blk, anaBlkIdGet engId ingress = some blk → ∀ i < 8, ∀ a ∈ flowEnables engId i, (m (.csr blk a)).getLsbD 0 = false

/-- An engine is cleared in a direction. -/
structure EngineCleared (ingress : Bool) (engId : Engine) (m m' : TsReg → BitVec 32) : Prop where
  flows : FlowsOff ingress engId m'
  enable : (m' (.csr .proc0 analyzerMode)).getLsbD (enableBit ingress engId) = false
  opposite : ∀ blk, anaBlkIdGet engId (!ingress) = some blk → ∀ a, m' (.csr blk a) = m (.csr blk a)
  engines : ∀ b, b ≠ enableBit ingress engId →
    (m' (.csr .proc0 analyzerMode)).getLsbD b = (m (.csr .proc0 analyzerMode)).getLsbD b
  beyond : ∀ r, ¬Owned ingress engId r → m' r = m r

/-- Calls that return clear the engine, from the words `m` on. -/
def ClearRight (ingress : Bool) (engId : Engine) (m : TsReg → BitVec 32) : Prop :=
  ∀ {H : Type} (tb : TsBus H) (s s' : Dev TsConf H) (u : Unit), tb.view s.hw = m →
    engineClear tb.toBus ingress engId s = .ok u s' → EngineCleared ingress engId m (tb.view s'.hw)

/-- A PTP analyzer that holds what clearing writes. -/
structure Idle (blk : BlkId) (m : TsReg → BitVec 32) : Prop where
  nxt : noComparator (m (.csr blk eth1NxtProtocol)) = m (.csr blk eth1NxtProtocol)
  ip1 : m (.csr blk ip1NxtComparator) = m (.csr blk eth1NxtProtocol)
  udp : m (.csr blk ip1UdpChksumCfg) = m (.csr blk eth1NxtProtocol)
  flows : ∀ i < 9, m (.csr blk (eth1FlowEnable i)) = 0 ∧ m (.csr blk (ip1FlowEna i)) = 0

/-- What is written astray was there already, and what is not written was off. -/
def Harmless (ingress : Bool) (engId : Engine) (m : TsReg → BitVec 32) : Prop :=
  ∀ blk, anaBlkIdGet engId false = some blk →
    if engId.isPtp = true then
      if ingress = true then FlowsOff true engId m ∧ Idle blk m
      else m (.csr blk (eth1FlowEnable 8)) = 0 ∧ m (.csr blk (ip1FlowEna 8)) = 0
    else FlowsOff ingress engId m ∧
      m (.csr blk ip1NxtComparator) = modeCleared ingress engId (m (.csr .proc0 analyzerMode)) ∧
        m (.csr blk ip1UdpChksumCfg) = modeCleared ingress engId (m (.csr .proc0 analyzerMode))

section Right

variable {m : TsReg → BitVec 32} {engId : Engine} {blk : BlkId} {ingress : Bool}

theorem anaBlkIdGet_ne_opposite {blk' : BlkId} (hb : anaBlkIdGet engId ingress = some blk)
    (hb' : anaBlkIdGet engId (!ingress) = some blk') : blk' ≠ blk := by
  rintro rfl
  cases engId <;> cases ingress <;> cases hb <;> cases hb'

theorem not_owned_opposite (hb : anaBlkIdGet engId (!ingress) = some blk) (a : Nat) :
    ¬Owned ingress engId (.csr blk a) := by
  rintro (⟨hproc, -⟩ | ⟨hown, -⟩)
  · exact anaBlkIdGet_ne_proc0 hb hproc
  · exact anaBlkIdGet_ne_opposite hown hb rfl

/-- The enable bit goes off in any case; what is left are the flows and the words astray. -/
theorem engineCleared_iff (hb : anaBlkIdGet engId false = some blk) :
    EngineCleared ingress engId m (clearedWords blk ingress engId m) ↔
      FlowsOff ingress engId (clearedWords blk ingress engId m) ∧
        ∀ r, Written blk engId r → ¬Owned ingress engId r → clearedWords blk ingress engId m r = m r := by
  have hmode (b : Nat) : (clearedWords blk ingress engId m (.csr .proc0 analyzerMode)).getLsbD b =
      ((m (.csr .proc0 analyzerMode)).getLsbD b && !decide (b = enableBit ingress engId)) := by
    rw [clearedWords_mode (anaBlkIdGet_ne_proc0 hb), modeCleared_getLsbD]
  constructor
  · intro h
    exact ⟨h.flows, fun r _ hr => h.beyond r hr⟩
  · rintro ⟨hflows, hastray⟩
    have hbeyond (r : TsReg) (hr : ¬Owned ingress engId r) : clearedWords blk ingress engId m r = m r := by
      by_cases hw : Written blk engId r
      · exact hastray r hw hr
      · exact clearedWords_other hw
    refine ⟨hflows, ?_, fun blk' hb' a => hbeyond _ (not_owned_opposite hb' a), fun b hne => ?_, hbeyond⟩
    · rw [hmode]
      simp
    · rw [hmode, decide_eq_false hne]
      simp

theorem owned_mode : Owned ingress engId (.csr .proc0 analyzerMode) := Or.inl ⟨rfl, rfl⟩

/-- The flow enables that are not written are as off as they were. -/
theorem flowsOff_cleared_iff (h : ∀ blk', anaBlkIdGet engId ingress = some blk' → ∀ i < 8, ∀ a ∈ flowEnables engId i,
    ¬Written blk engId (.csr blk' a)) :
    FlowsOff ingress engId (clearedWords blk ingress engId m) ↔ FlowsOff ingress engId m := by
  refine forall_congr' fun blk' => forall_congr' fun hb' => forall_congr' fun i => forall_congr' fun hi =>
    forall_congr' fun a => forall_congr' fun ha => ?_
  rw [clearedWords_other (h blk' hb' i hi a ha)]

/-- What is written in the egress analyzer is astray when the direction is the other one. -/
theorem not_written_ingress (hb : anaBlkIdGet engId false = some blk) {blk' : BlkId}
    (hb' : anaBlkIdGet engId true = some blk') (a : Nat) : ¬Written blk engId (.csr blk' a) := by
  have hne : blk' ≠ blk := anaBlkIdGet_ne_opposite hb hb'
  have hproc : blk' ≠ .proc0 := anaBlkIdGet_ne_proc0 hb'
  rintro (heq | heq | heq | ⟨-, heq | ⟨i, -, heq | heq⟩⟩)
  · exact hproc (TsReg.csr.inj heq).1
  all_goals exact hne (TsReg.csr.inj heq).1

/-- A PTP engine in egress: the ninth round of the loop is astray. -/
theorem cleared_ptp_egress (hb : anaBlkIdGet engId false = some blk) (hp : engId.isPtp = true) :
    EngineCleared false engId m (clearedWords blk false engId m) ↔
      m (.csr blk (eth1FlowEnable 8)) = 0 ∧ m (.csr blk (ip1FlowEna 8)) = 0 := by
  have hmode : blk ≠ .proc0 := anaBlkIdGet_ne_proc0 hb
  have hown {a : Nat} : Owned false engId (.csr blk a) ↔ a = eth1NxtProtocol ∨ a = ip1NxtComparator ∨
      a = ip1UdpChksumCfg ∨ (eth1FlowEnable 0 ≤ a ∧ a < eth1FlowEnable 8) ∨ (ip1FlowEna 0 ≤ a ∧ a < ip1FlowEna 8) := by
    simp [Owned, hb, hp, hmode]
  have hlast := @clearedWords_flow m engId blk false hp 8 (by decide)
  rw [engineCleared_iff hb]
  constructor
  · rintro ⟨-, hastray⟩
    refine ⟨?_, ?_⟩
    · rw [← hastray (.csr blk (eth1FlowEnable 8)), hlast.1]
      · exact Or.inr (Or.inr (Or.inr ⟨hp, Or.inr ⟨8, by decide, Or.inl rfl⟩⟩))
      · rw [hown]
        decide
    · rw [← hastray (.csr blk (ip1FlowEna 8)), hlast.2]
      · exact Or.inr (Or.inr (Or.inr ⟨hp, Or.inr ⟨8, by decide, Or.inr rfl⟩⟩))
      · rw [hown]
        decide
  · rintro ⟨heth, hip⟩
    refine ⟨?_, ?_⟩
    · intro blk' hb' i hi a ha
      obtain rfl : blk = blk' := Option.some.inj (hb.symm.trans hb')
      have hflow := @clearedWords_flow m engId blk false hp i (by omega)
      rw [flowEnables, if_pos hp, List.mem_cons, List.mem_singleton] at ha
      rcases ha with rfl | rfl
      · rw [hflow.1]
        rfl
      · rw [hflow.2]
        rfl
    · rintro r (rfl | rfl | rfl | ⟨-, rfl | ⟨i, hi, rfl | rfl⟩⟩) hr
      · exact absurd owned_mode hr
      · exact absurd (hown.mpr (Or.inr (Or.inl rfl))) hr
      · exact absurd (hown.mpr (Or.inr (Or.inr (Or.inl rfl)))) hr
      · exact absurd (hown.mpr (Or.inl rfl)) hr
      · obtain rfl : i = 8 := by
          by_contra hne
          refine hr (hown.mpr (Or.inr (Or.inr (Or.inr (Or.inl ?_)))))
          unfold eth1FlowEnable
          omega
        rw [hlast.1, heth]
      · obtain rfl : i = 8 := by
          by_contra hne
          refine hr (hown.mpr (Or.inr (Or.inr (Or.inr (Or.inr ?_)))))
          unfold ip1FlowEna
          omega
        rw [hlast.2, hip]

/-- A PTP engine in ingress: all that is written to an analyzer is astray. -/
theorem cleared_ptp_ingress (hb : anaBlkIdGet engId false = some blk) (hp : engId.isPtp = true) :
    EngineCleared true engId m (clearedWords blk true engId m) ↔ FlowsOff true engId m ∧ Idle blk m := by
  have hmode : blk ≠ .proc0 := anaBlkIdGet_ne_proc0 hb
  have hip1 : ip1Word blk true engId m = noComparator (m (.csr blk eth1NxtProtocol)) := if_pos hp
  rw [engineCleared_iff hb, flowsOff_cleared_iff fun blk' hb' _ _ a _ => not_written_ingress hb hb' a]
  refine and_congr_right fun _ => ⟨fun hastray => ?_, fun hidle => ?_⟩
  · have hkept {a : Nat} (hw : Written blk engId (.csr blk a)) :
        clearedWords blk true engId m (.csr blk a) = m (.csr blk a) := hastray _ hw (not_owned_opposite hb a)
    have hnxt := hkept (Or.inr (Or.inr (Or.inr ⟨hp, Or.inl rfl⟩)))
    rw [clearedWords_nxt hmode hp] at hnxt
    refine ⟨hnxt, ?_, ?_, fun i hi => ⟨?_, ?_⟩⟩
    · rw [← hkept (Or.inr (Or.inl rfl)), clearedWords_ip1 hmode (Or.inl rfl), hip1, hnxt]
    · rw [← hkept (Or.inr (Or.inr (Or.inl rfl))), clearedWords_ip1 hmode (Or.inr rfl), hip1, hnxt]
    · rw [← hkept (Or.inr (Or.inr (Or.inr ⟨hp, Or.inr ⟨i, hi, Or.inl rfl⟩⟩)))]
      exact (clearedWords_flow hp hi).1
    · rw [← hkept (Or.inr (Or.inr (Or.inr ⟨hp, Or.inr ⟨i, hi, Or.inr rfl⟩⟩)))]
      exact (clearedWords_flow hp hi).2
  · rintro r (rfl | rfl | rfl | ⟨-, rfl | ⟨i, hi, rfl | rfl⟩⟩) hr
    · exact absurd owned_mode hr
    · rw [clearedWords_ip1 hmode (Or.inl rfl), hip1, hidle.nxt, hidle.ip1]
    · rw [clearedWords_ip1 hmode (Or.inr rfl), hip1, hidle.nxt, hidle.udp]
    · rw [clearedWords_nxt hmode hp, hidle.nxt]
    · rw [(clearedWords_flow hp hi).1, (hidle.flows i hi).1]
    · rw [(clearedWords_flow hp hi).2, (hidle.flows i hi).2]

/-- An OAM engine: no flow is written, and the value of the mode register goes into registers that are none of IP1. -/
theorem cleared_oam (hb : anaBlkIdGet engId false = some blk) (hp : engId.isPtp = false) :
    EngineCleared ingress engId m (clearedWords blk ingress engId m) ↔ FlowsOff ingress engId m ∧
      m (.csr blk ip1NxtComparator) = modeCleared ingress engId (m (.csr .proc0 analyzerMode)) ∧
        m (.csr blk ip1UdpChksumCfg) = modeCleared ingress engId (m (.csr .proc0 analyzerMode)) := by
  have hmode : blk ≠ .proc0 := anaBlkIdGet_ne_proc0 hb
  have hoam : ¬engId.isPtp = true := by simp [hp]
  have hip1 : ip1Word blk ingress engId m = modeCleared ingress engId (m (.csr .proc0 analyzerMode)) := if_neg hoam
  have hnot {a : Nat} (ha : a = ip1NxtComparator ∨ a = ip1UdpChksumCfg) : ¬Owned ingress engId (.csr blk a) := by
    rintro (⟨hproc, -⟩ | ⟨-, hown⟩)
    · exact hmode hproc
    · rw [if_neg hoam] at hown
      rcases ha with rfl | rfl <;> exact absurd hown (by decide)
  have hflows : FlowsOff ingress engId (clearedWords blk ingress engId m) ↔ FlowsOff ingress engId m := by
    refine flowsOff_cleared_iff fun blk' hb' i hi a ha => ?_
    rw [flowEnables, if_neg hoam, List.mem_singleton] at ha
    subst ha
    rintro (heq | heq | heq | ⟨hptp, -⟩)
    · exact anaBlkIdGet_ne_proc0 hb' (TsReg.csr.inj heq).1
    · have haddr : oamEth1FlowEnable i = ip1NxtComparator := (TsReg.csr.inj heq).2
      unfold oamEth1FlowEnable ip1NxtComparator at haddr
      omega
    · have haddr : oamEth1FlowEnable i = ip1UdpChksumCfg := (TsReg.csr.inj heq).2
      unfold oamEth1FlowEnable ip1UdpChksumCfg at haddr
      omega
    · exact hoam hptp
  rw [engineCleared_iff hb, hflows]
  refine and_congr_right fun _ => ⟨fun hastray => ⟨?_, ?_⟩, ?_⟩
  · rw [← hastray _ (Or.inr (Or.inl rfl)) (hnot (Or.inl rfl)), clearedWords_ip1 hmode (Or.inl rfl), hip1]
  · rw [← hastray _ (Or.inr (Or.inr (Or.inl rfl))) (hnot (Or.inr rfl)), clearedWords_ip1 hmode (Or.inr rfl), hip1]
  · rintro ⟨hnxt, hudp⟩ r (rfl | rfl | rfl | ⟨hptp, -⟩) hr
    · exact absurd owned_mode hr
    · rw [clearedWords_ip1 hmode (Or.inl rfl), hip1, hnxt]
    · rw [clearedWords_ip1 hmode (Or.inr rfl), hip1, hudp]
    · exact absurd hptp hoam

/-- What every call does is what one does. -/
theorem clearRight_iff (hb : anaBlkIdGet engId false = some blk) :
    ClearRight ingress engId m ↔ EngineCleared ingress engId m (clearedWords blk ingress engId m) := by
  constructor
  · intro h
    obtain ⟨s', hrun⟩ := @engineClear_inUse m engId blk ingress hb
    have hright := h bench _ _ _ rfl hrun
    rwa [words_of_engineClear bench hb hrun] at hright
  · rintro h H tb s s' u rfl hrun
    rwa [words_of_engineClear tb hb hrun]

/-- **An engine is cleared where the words that are written astray were there already.** -/
theorem engine_clear_right_iff (ingress : Bool) (engId : Engine) (m : TsReg → BitVec 32) :
    ClearRight ingress engId m ↔ Harmless ingress engId m := by
  have hcases (blk : BlkId) (hb : anaBlkIdGet engId false = some blk) :
      EngineCleared ingress engId m (clearedWords blk ingress engId m) ↔
        if engId.isPtp = true then
          if ingress = true then FlowsOff true engId m ∧ Idle blk m
          else m (.csr blk (eth1FlowEnable 8)) = 0 ∧ m (.csr blk (ip1FlowEna 8)) = 0
        else FlowsOff ingress engId m ∧
          m (.csr blk ip1NxtComparator) = modeCleared ingress engId (m (.csr .proc0 analyzerMode)) ∧
            m (.csr blk ip1UdpChksumCfg) = modeCleared ingress engId (m (.csr .proc0 analyzerMode)) := by
    by_cases hp : engId.isPtp = true
    · rw [if_pos hp]
      cases ingress with
      | true => exact cleared_ptp_ingress hb hp
      | false => exact cleared_ptp_egress hb hp
    · rw [if_neg hp]
      exact cleared_oam hb (Bool.eq_false_iff.mpr hp)
  cases hb : anaBlkIdGet engId false with
  | some blk =>
    rw [clearRight_iff hb, hcases blk hb]
    constructor
    · intro h blk' hb'
      obtain rfl : blk = blk' := Option.some.inj (hb.symm.trans hb')
      exact h
    · exact fun h => h blk hb
  | none =>
    refine ⟨fun _ blk hb' => ?_, fun _ H tb s s' u _ hrun => ?_⟩
    · rw [hb] at hb'
      cases hb'
    · exact absurd hrun (engineClear_invalid tb hb)

/-- Engine 0 is cleared in ingress, with a flow on. -/
theorem not_engine_clear_right : ¬∀ (ingress : Bool) (engId : Engine) (m : TsReg → BitVec 32),
    ClearRight ingress engId m := by
  intro h
  have hright : ClearRight true .ptp0 (Function.update (fun _ => 0) (.csr .anaIng0 (eth1FlowEnable 0)) 1) := h _ _ _
  rw [clearRight_iff rfl, cleared_ptp_ingress rfl rfl] at hright
  have hflow := hright.1 .anaIng0 rfl 0 (by decide) (eth1FlowEnable 0) List.mem_cons_self
  rw [Function.update_self] at hflow
  exact absurd hflow (by decide)

end Right

end Lan80xx.Ts
