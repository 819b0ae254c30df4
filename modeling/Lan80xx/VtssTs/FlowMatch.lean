import Lan80xx.Lib.MaskedMatch
import Lan80xx.VtssTs.Correction

/-!
# What a flow matches

A flow compares the first eight bytes of a header with two match words under two masks, and tests the range of one byte.
A flow of PTP is for a message type and for domains, a flow of Y.1731 for an opcode and for MEG levels.

- `y1731ActionFlowAdd`: the registers of a flow of Y.1731;
- `FlowAccepts`: the headers that the registers accept;
- `programmed_of_add`: adding a flow programs the pattern of its action;
- `accepts_ptp`, `accepts_y1731`: which headers these patterns accept;
- `flow_match_right_iff`: when they are the wanted ones, and when the engines of both kinds accept the same.
-/

namespace Lan80xx.VtssTs

open Fallible RegBus RegScript MaskedMatch

/-! ## Flows of Y.1731 -/

/-- `vtss_phy_ts_y1731_oam_msg_type_t` -/
inductive Y1731Msg
  | oneDm
  | dmr
  | dmm
  deriving DecidableEq, Repr

def Y1731Msg.code : Y1731Msg → Byte
  | oneDm => 45
  | dmr => 46
  | dmm => 47

/-- The MEG levels of an action; with a mask of 0 the level does not count. -/
inductive MegLevel
  | range (upper lower : Byte)
  | value (mask val : Byte)
  deriving DecidableEq, Repr

/-- `vtss_phy_ts_oam_engine_action_t` of an action with `y1731_en`. -/
structure OamActionConf where
  channelMap : Byte
  version : Byte
  megLevel : MegLevel
  deriving DecidableEq, Repr

/-- Engines 2A and 2B. -/
def EngId.isOam : EngId → Bool
  | ptp0 | ptp1 => false
  | oam2a | oam2b => true

section Y1731

variable (ingress : Bool) (e : EngId) (msg : Y1731Msg) (index : Nat) (conf : OamActionConf)

/-- The mask of the message type when MEG levels are a range: for engines 2A and 2B it is the message type. -/
def rangeMask : BitVec 32 := if e.isOam then msg.code.setWidth 32 <<< 16 else 0xff#32 <<< 16

/-- The frames that the flow matches. -/
def levelAccesses : List FlowAcc :=
  match conf.megLevel with
  | .range upper lower =>
    [.wr ⟨e.analyzer, index, .domainRange⟩ (1 ||| 0#32 <<< 24 |||
        (((upper.setWidth 32 <<< 5 &&& 0xff#32) <<< 16) ||| conf.version.setWidth 32) |||
          (((lower.setWidth 32 <<< 5 &&& 0xff#32) <<< 8) ||| conf.version.setWidth 32)),
      .wr ⟨e.analyzer, index, .maskUpper⟩ (rangeMask e msg),
      .wr ⟨e.analyzer, index, .matchUpper⟩ (msg.code.setWidth 32 <<< 16), .wr ⟨e.analyzer, index, .maskLower⟩ 0,
      .wr ⟨e.analyzer, index, .matchLower⟩ 0]
  | .value mask val =>
    [.modify ⟨e.analyzer, index, .domainRange⟩ 1 0,
      .wr ⟨e.analyzer, index, .maskUpper⟩
        (0xff#32 <<< 16 ||| if mask ≠ 0 then (mask ||| 0x1f).setWidth 32 <<< 24 else 0),
      .wr ⟨e.analyzer, index, .matchUpper⟩
        ((conf.version.setWidth 32 ||| if mask ≠ 0 then val.setWidth 32 <<< 5 else 0) <<< 24 |||
          msg.code.setWidth 32 <<< 16),
      .wr ⟨e.analyzer, index, .maskLower⟩ 0, .wr ⟨e.analyzer, index, .matchLower⟩ 0]

/-- The timestamp that a message leaves or arrives with. -/
def y1731TsPos : BitVec 32 :=
  match msg with
  | .oneDm | .dmm => if ingress then 12 else 4
  | .dmr => if ingress then 28 else 20

/-- The switch over `msg_type`: the timestamp is written. -/
def y1731ActionAccesses : List FlowAcc :=
  [.wr ⟨e.analyzer, index, .action⟩ (PtpCmd.write1588.code ||| 4#32 <<< 5),
    .wr ⟨e.analyzer, index, .action2⟩ (y1731TsPos ingress msg <<< 8 ||| 8)]

/-- All but the first accesses of `vtss_phy_ts_engine_y1731_oam_action_flow_add_priv`. -/
def y1731Accesses : List FlowAcc := levelAccesses e msg index conf ++ y1731ActionAccesses ingress e msg index

variable {C H : Type} (bus : Bus FlowReg 32 H)

/-- `PTP_FLOW_ENA`, which engines 2A and 2B share. -/
def y1731FlowEna : EStateM Rc (Dev C H) Unit :=
  match e with
  | .ptp0 | .ptp1 =>
    write bus Rc.access ⟨e.analyzer, index, .flowEna⟩ (1 ||| (conf.channelMap.setWidth 32 &&& 3) <<< 4)
  | .oam2a | .oam2b => do
    let value ← read bus Rc.access ⟨e.analyzer, index, .flowEna⟩
    let value := value ||| if e = .oam2a then 1 else 2
    write bus Rc.access ⟨e.analyzer, index, .flowEna⟩
      ((value &&& 3) <<< 16 ||| 1 ||| (conf.channelMap.setWidth 32 &&& 3) <<< 4)

/-- `vtss_phy_ts_engine_y1731_oam_action_flow_add_priv`. Its two halves, for engines 0 and 1 and for 2A and 2B, differ in
the names of the registers, in `PTP_FLOW_ENA` and in `rangeMask`. -/
def y1731ActionFlowAdd : EStateM Rc (Dev C H) Unit := do
  y1731FlowEna e index conf bus
  runAll bus Rc.access (y1731Accesses ingress e msg index conf)

end Y1731

/-! ## Action flows -/

/-- What a flow is added for. -/
inductive FlowUse
  | ptp (msg : PtpMsg) (conf : PtpActionConf)
  | y1731 (msg : Y1731Msg) (conf : OamActionConf)
  deriving DecidableEq, Repr

/-- Version 0 is the only one of Y.1731. -/
def FlowUse.Supported : FlowUse → Prop
  | ptp _ _ => True
  | y1731 _ conf => conf.version = 0

/-- The flow is added. -/
def FlowUse.add {C H : Type} (bus : Bus FlowReg 32 H) (c : FlowPort) (ingress : Bool) (e : EngId) (index : Nat) :
    FlowUse → EStateM Rc (Dev C H) Unit
  | ptp msg conf => actionFlowAdd bus c ingress e msg index conf
  | y1731 msg conf => y1731ActionFlowAdd ingress e msg index conf bus

/-! ## What a flow accepts -/

/-- The bytes of the header of a frame. -/
abbrev FlowHeader := Nat → Byte

/-- The words of a flow. -/
def flowWords (m : Bits FlowReg 32) (e : EngId) (index : Nat) (f : FlowField) : BitVec 32 := regWord m ⟨e.analyzer, index, f⟩

/-- `PTP_DOMAIN_RANGE`: a byte is between the bounds, when the test is on. -/
def RangeTest (w : BitVec 32) (h : FlowHeader) : Prop :=
  w.getLsbD 0 = true →
    w.extractLsb' 8 8 ≤ h (w.extractLsb' 24 5).toNat ∧ h (w.extractLsb' 24 5).toNat ≤ w.extractLsb' 16 8

/-- The registers of a flow accept a header. -/
def FlowAccepts (w : FlowField → BitVec 32) (h : FlowHeader) : Prop :=
  Matches (w .maskUpper) (w .matchUpper) (wordAt h 0) ∧ Matches (w .maskLower) (w .matchLower) (wordAt h 4) ∧
    RangeTest (w .domainRange) h

namespace FlowHeader

/-- The message type of PTP. -/
def messageType (h : FlowHeader) : BitVec 4 := (h 0).setWidth 4

/-- The domain of PTP. -/
def domainNumber (h : FlowHeader) : Byte := h 4

/-- The high bits of the byte that a port with `chk_ing_modified` marks, in ingress. -/
def mark (h : FlowHeader) : BitVec 4 := (h 6).extractLsb' 4 4

/-- The MEG level of Y.1731, before the version. -/
def megLevel (h : FlowHeader) : BitVec 3 := (h 0).extractLsb' 5 3

def version (h : FlowHeader) : BitVec 5 := (h 0).setWidth 5

def opcode (h : FlowHeader) : Byte := h 1

end FlowHeader

def PtpDomain.Holds : PtpDomain → Byte → Prop
  | range upper lower, d => lower ≤ d ∧ d ≤ upper
  | value mask val, d => Matches mask val d

def MegLevel.Holds : MegLevel → Byte → Prop
  | range upper lower, l => lower ≤ l ∧ l ≤ upper
  | value mask val, l => Matches mask val l

namespace FlowUse

/-- The headers that a flow is for. -/
def Wanted (h : FlowHeader) : FlowUse → Prop
  | ptp msg conf => h.messageType = msg.code.setWidth 4 ∧ conf.domain.Holds h.domainNumber
  | y1731 msg conf => h.opcode = msg.code ∧ conf.megLevel.Holds (h.megLevel.setWidth 8)

/-- Headers of Y.1731 have the version of the action. -/
def SameVersion (h : FlowHeader) : FlowUse → Prop
  | ptp _ _ => True
  | y1731 _ conf => h.version = conf.version.setWidth 5

end FlowUse

/-! ## The patterns of the actions -/

/-- The bytes that a flow may compare; they are the first two, the domain, and the marked one. -/
def flowBytes (first second domain marked : Byte) (i : Nat) : Byte := [first, second, 0, 0, domain, 0, marked, 0].getD i 0

/-- An egress flow of PTP, of a port that marks frames in ingress. -/
def FlowPort.checksMark (c : FlowPort) (ingress : Bool) : Prop := c.chkIngModified = true ∧ ingress = false

instance (c : FlowPort) (ingress : Bool) : Decidable (c.checksMark ingress) := inferInstanceAs (Decidable (_ ∧ _))

def PtpDomain.mask : PtpDomain → Byte
  | range _ _ => 0
  | value mask _ => mask

def PtpDomain.val : PtpDomain → Byte
  | range _ _ => 0
  | value _ val => val

def PtpDomain.byteRange : PtpDomain → Option ByteRange
  | range upper lower => some ⟨4, lower, upper⟩
  | value _ _ => none

/-- The pattern of a flow of PTP. -/
def ptpPattern (c : FlowPort) (ingress : Bool) (msg : PtpMsg) (conf : PtpActionConf) : Pattern where
  mask := flowBytes 0x0f 0 conf.domain.mask (if c.checksMark ingress then 0xf0 else 0)
  value := flowBytes (msg.code.setWidth 8) 0 conf.domain.val (if c.checksMark ingress then 0x80 else 0)
  range := conf.domain.byteRange

def MegLevel.mask : MegLevel → Byte
  | range _ _ => 0
  | value mask _ => if mask ≠ 0 then mask ||| 0x1f else 0

def MegLevel.val (version : Byte) : MegLevel → Byte
  | range _ _ => 0
  | value mask val => version ||| if mask ≠ 0 then val <<< 5 else 0

def MegLevel.byteRange : MegLevel → Option ByteRange
  | range upper lower => some ⟨0, lower <<< 5, upper <<< 5⟩
  | value _ _ => none

/-- The mask of the opcode. -/
def MegLevel.opcodeMask (e : EngId) (msg : Y1731Msg) : MegLevel → Byte
  | range _ _ => if e.isOam then msg.code else 0xff
  | value _ _ => 0xff

/-- The pattern of a flow of Y.1731. -/
def y1731Pattern (e : EngId) (msg : Y1731Msg) (conf : OamActionConf) : Pattern where
  mask := flowBytes conf.megLevel.mask (conf.megLevel.opcodeMask e msg) 0 0
  value := flowBytes (conf.megLevel.val conf.version) msg.code 0 0
  range := conf.megLevel.byteRange

namespace FlowUse

/-- The pattern of an action. -/
def pattern (c : FlowPort) (ingress : Bool) (e : EngId) : FlowUse → Pattern
  | ptp msg conf => ptpPattern c ingress msg conf
  | y1731 msg conf => y1731Pattern e msg conf

/-- The accesses that program it. -/
def accesses (c : FlowPort) (ingress : Bool) (e : EngId) (index : Nat) : FlowUse → List FlowAcc
  | ptp msg conf => flowAccesses c ingress e msg index conf
  | y1731 msg conf => y1731Accesses ingress e msg index conf

end FlowUse

/-- The registers of a flow are programmed with a pattern. -/
structure FlowProgrammed (p : Pattern) (w : FlowField → BitVec 32) : Prop where
  maskUpper : w .maskUpper = wordAt p.mask 0
  matchUpper : w .matchUpper = wordAt p.value 0
  maskLower : w .maskLower = wordAt p.mask 4
  matchLower : w .matchLower = wordAt p.value 4
  range : ∀ h, RangeTest (w .domainRange) h ↔ ∀ r, p.range = some r → r.Holds h

/-- Registers accept what their pattern does. -/
theorem FlowProgrammed.accepts_iff {p : Pattern} {w : FlowField → BitVec 32} (hw : FlowProgrammed p w) (h : FlowHeader) :
    FlowAccepts w h ↔ p.Accepts h := by
  rw [FlowAccepts, hw.maskUpper, hw.matchUpper, hw.maskLower, hw.matchLower, hw.range, Pattern.accepts_iff]

section Words

variable {w : BitVec 32} {h : FlowHeader}

theorem wordAt_flowBytes_upper (a b d m : Byte) : wordAt (flowBytes a b d m) 0 = ofBytes a b 0 0 := rfl

theorem wordAt_flowBytes_lower (a b d m : Byte) : wordAt (flowBytes a b d m) 4 = ofBytes d 0 m 0 := rfl

/-- The test is off. -/
theorem rangeTest_off (hena : w.getLsbD 0 = false) : RangeTest w h := by
  intro hon
  rw [hena] at hon
  cases hon

/-- The test is on. -/
theorem rangeTest_ofBytes {offset upper lower ena : Byte} (hena : ena.getLsbD 0 = true) :
    RangeTest (ofBytes offset upper lower ena) h ↔ (⟨(offset.setWidth 5).toNat, lower, upper⟩ : ByteRange).Holds h := by
  unfold RangeTest ByteRange.Holds
  rw [ofBytes_bit _ _ _ _ (by decide), ofBytes_first _ _ _ _ (by decide), ofBytes_second, ofBytes_third, hena]
  exact ⟨fun hrange => hrange rfl, fun hrange _ => hrange⟩

/-- `PTP_DOMAIN_RANGE` for domains. -/
theorem domainWord_eq (upper lower : Byte) :
    1 ||| 4#32 <<< 24 ||| upper.setWidth 32 <<< 16 ||| lower.setWidth 32 <<< 8 = ofBytes 4 upper lower 1 := by
  have hconst : 1 ||| 4#32 <<< 24 = ofBytes 4 0 0 1 := by decide
  rw [hconst, second_shift, third_shift, ofBytes_or, ofBytes_or]
  simp

/-- A byte that was shifted within a word. -/
theorem shift_and_byte : ∀ x : Byte, x.setWidth 32 <<< 5 &&& 0xff#32 = (x <<< 5).setWidth 32 := by decide

/-- `PTP_DOMAIN_RANGE` for MEG levels: the version is beside them. -/
theorem levelWord_eq (upper lower version : Byte) :
    1 ||| 0#32 <<< 24 ||| (((upper.setWidth 32 <<< 5 &&& 0xff#32) <<< 16) ||| version.setWidth 32) |||
        (((lower.setWidth 32 <<< 5 &&& 0xff#32) <<< 8) ||| version.setWidth 32) =
      ofBytes 0 (upper <<< 5) (lower <<< 5) (1 ||| version) := by
  have hconst : 1 ||| 0#32 <<< 24 = ofBytes 0 0 0 1 := by decide
  rw [hconst, shift_and_byte, shift_and_byte, second_shift, third_shift, fourth_shift, ofBytes_or, ofBytes_or, ofBytes_or,
    ofBytes_or]
  simp [BitVec.or_assoc]

end Words

/-! ## What adding a flow programs -/

section Programs

variable {c : FlowPort} {ingress : Bool} {e : EngId} {index : Nat} {m : Bits FlowReg 32}

/-- The bits after a sequence. -/
abbrev afterFlow (as : List FlowAcc) (m : Bits FlowReg 32) : Bits FlowReg 32 := applyAll (fun _ _ => false) as m

theorem flowWords_after {as : List FlowAcc} {f : FlowField} {v : BitVec 32}
    (h : wordAfter ⟨e.analyzer, index, f⟩ as none = some v) : flowWords (afterFlow as m) e index f = v :=
  regWord_of_wordAfter (fun _ => rfl) (fun _ hu => by cases hu) h

/-- What is compared is not touched by the action. -/
theorem wordAfter_actionFlowConf {eng : Analyzer} {cmd : PtpCmd} {asym : PtpAsym} {f : FlowField} {o : Option (BitVec 32)}
    (hf : f ≠ .action ∧ f ≠ .action2 ∧ f ≠ .zeroFieldCtl) :
    wordAfter ⟨eng, index, f⟩ (actionFlowConf c eng index cmd asym) o = o := by
  obtain ⟨h1, h2, h3⟩ := hf
  cases cmd <;> simp [actionFlowConf, Access.word, h1, h2, h3]

theorem wordAfter_flowAccesses {msg : PtpMsg} {conf : PtpActionConf} {f : FlowField}
    (hf : f ≠ .action ∧ f ≠ .action2 ∧ f ≠ .zeroFieldCtl) :
    wordAfter ⟨e.analyzer, index, f⟩ (flowAccesses c ingress e msg index conf) none =
      wordAfter ⟨e.analyzer, index, f⟩ (matchAccesses c ingress e msg index conf) none := by
  rw [flowAccesses, wordAfter_append, wordAfter_actionFlowConf hf]

/-- The words that a flow of PTP compares with. -/
theorem wordAfter_matchAccesses (c : FlowPort) (ingress : Bool) (msg : PtpMsg) (conf : PtpActionConf) :
    let after f := wordAfter ⟨e.analyzer, index, f⟩ (matchAccesses c ingress e msg index conf) none
    after .maskUpper = some (modified 0 0 0x0F000000) ∧
      after .matchUpper = some (modified 0 0x0F000000 (msg.code <<< 24)) ∧
        after .maskLower = some (if c.checksMark ingress then modified (conf.domain.mask.setWidth 32 <<< 24) 0 0xf000
          else conf.domain.mask.setWidth 32 <<< 24) ∧
          after .matchLower = some (if c.checksMark ingress then modified (conf.domain.val.setWidth 32 <<< 24) 0 0x8000
            else conf.domain.val.setWidth 32 <<< 24) := by
  cases hd : conf.domain <;> by_cases hm : c.chkIngModified = true ∧ ingress = false <;>
    simp [matchAccesses, domainAccesses, hd, hm, FlowPort.checksMark, Access.word, PtpDomain.mask, PtpDomain.val]

/-- Bits that are set in a byte of a word. -/
theorem modified_lower (x y : Byte) (value : BitVec 32) (hy : value = ofBytes 0 0 y 0) :
    modified (x.setWidth 32 <<< 24) 0 value = ofBytes x 0 y 0 := by
  change (x.setWidth 32 <<< 24 &&& ~~~0#32) ||| value = _
  rw [BitVec.not_zero, BitVec.and_allOnes, hy, first_shift, ofBytes_or]
  simp

/-- The test of the domain. -/
theorem rangeTest_ptp (msg : PtpMsg) (conf : PtpActionConf) (h : FlowHeader) :
    RangeTest (flowWords (afterFlow (flowAccesses c ingress e msg index conf) m) e index .domainRange) h ↔
      ∀ r, conf.domain.byteRange = some r → r.Holds h := by
  cases hd : conf.domain with
  | range upper lower =>
    have hword : flowWords (afterFlow (flowAccesses c ingress e msg index conf) m) e index .domainRange =
        ofBytes 4 upper lower 1 := by
      refine flowWords_after ((wordAfter_flowAccesses (by decide)).trans ?_)
      rw [← domainWord_eq]
      by_cases hm : c.chkIngModified = true ∧ ingress = false <;>
        simp [matchAccesses, domainAccesses, hd, hm, Access.word]
    rw [hword, rangeTest_ofBytes (by decide)]
    constructor
    · rintro hr r ⟨⟩
      exact hr
    · intro hr
      exact hr _ rfl
  | value mask val =>
    refine iff_of_true (rangeTest_off ?_) fun r hr => by cases hr
    refine (regWord_getLsbD _ _ 0).trans (applyAll_of_lastBit rfl ?_)
    rw [flowAccesses, lastBit_append]
    have haction : lastBit (actionFlowConf c e.analyzer index (flowCommand c conf ingress msg).1
        (flowCommand c conf ingress msg).2) ⟨e.analyzer, index, .domainRange⟩ 0 = none := by
      cases (flowCommand c conf ingress msg).1 <;> simp [actionFlowConf, lastBit, Access.bit]
    rw [haction]
    by_cases hm : c.chkIngModified = true ∧ ingress = false <;>
      simp [matchAccesses, domainAccesses, hd, hm, lastBit, Access.bit, modifiedBit]

theorem programmed_ptp (msg : PtpMsg) (conf : PtpActionConf) : FlowProgrammed (ptpPattern c ingress msg conf)
    (flowWords (afterFlow (flowAccesses c ingress e msg index conf) m) e index) := by
  obtain ⟨hmaskUpper, hmatchUpper, hmaskLower, hmatchLower⟩ :=
    @wordAfter_matchAccesses e index c ingress msg conf
  constructor
  · rw [flowWords_after ((wordAfter_flowAccesses (by decide)).trans hmaskUpper)]
    change _ = ofBytes 0x0f 0 0 0
    decide
  · rw [flowWords_after ((wordAfter_flowAccesses (by decide)).trans hmatchUpper)]
    change _ = ofBytes (msg.code.setWidth 8) 0 0 0
    cases msg <;> decide
  · rw [flowWords_after ((wordAfter_flowAccesses (by decide)).trans hmaskLower)]
    change _ = ofBytes conf.domain.mask 0 (if c.checksMark ingress then 0xf0 else 0) 0
    split
    · exact modified_lower _ 0xf0 _ (by decide)
    · exact first_shift _
  · rw [flowWords_after ((wordAfter_flowAccesses (by decide)).trans hmatchLower)]
    change _ = ofBytes conf.domain.val 0 (if c.checksMark ingress then 0x80 else 0) 0
    split
    · exact modified_lower _ 0x80 _ (by decide)
    · exact first_shift _
  · exact rangeTest_ptp msg conf

/-- What is shifted out of a byte is shifted out of the word. -/
theorem shift_out : ∀ x : Byte, (x.setWidth 32 <<< 5) <<< 24 = (x <<< 5).setWidth 32 <<< 24 := by decide

/-- The words that a flow of Y.1731 compares with. -/
theorem wordAfter_y1731Accesses (msg : Y1731Msg) (conf : OamActionConf) :
    let after f := wordAfter ⟨e.analyzer, index, f⟩ (y1731Accesses ingress e msg index conf) none
    after .maskUpper = some (ofBytes conf.megLevel.mask (conf.megLevel.opcodeMask e msg) 0 0) ∧
      after .matchUpper = some (ofBytes (conf.megLevel.val conf.version) msg.code 0 0) ∧
        after .maskLower = some 0 ∧ after .matchLower = some 0 := by
  cases hl : conf.megLevel with
  | range upper lower =>
    have hmask : rangeMask e msg = ofBytes 0 (if e.isOam then msg.code else 0xff) 0 0 := by
      cases e <;> cases msg <;> decide
    have hmatch : msg.code.setWidth 32 <<< 16 = ofBytes 0 msg.code 0 0 := second_shift _
    simp [y1731Accesses, levelAccesses, y1731ActionAccesses, hl, Access.word, hmask, hmatch, MegLevel.mask, MegLevel.val,
      MegLevel.opcodeMask]
  | value mask val =>
    have hmask : (0xff#32 <<< 16 ||| if mask ≠ 0 then (mask ||| 0x1f).setWidth 32 <<< 24 else 0) =
        ofBytes (if mask ≠ 0 then mask ||| 0x1f else 0) 0xff 0 0 := by
      have hbyte : 0xff#32 <<< 16 = ofBytes 0 0xff 0 0 := by decide
      rw [hbyte]
      split
      · rw [first_shift, ofBytes_or]
        simp
      · exact BitVec.or_zero
    have hmatch : (conf.version.setWidth 32 ||| if mask ≠ 0 then val.setWidth 32 <<< 5 else 0) <<< 24 |||
        msg.code.setWidth 32 <<< 16 = ofBytes (conf.version ||| if mask ≠ 0 then val <<< 5 else 0) msg.code 0 0 := by
      have hlevel : (if mask ≠ 0 then val.setWidth 32 <<< 5 else 0) <<< 24 =
          (if mask ≠ 0 then val <<< 5 else 0).setWidth 32 <<< 24 := by
        split
        · exact shift_out val
        · rfl
      rw [BitVec.shiftLeft_or_distrib, hlevel, first_shift, first_shift, second_shift, ofBytes_or, ofBytes_or]
      simp
    have haccesses : levelAccesses e msg index conf = [.modify ⟨e.analyzer, index, .domainRange⟩ 1 0,
        .wr ⟨e.analyzer, index, .maskUpper⟩ (ofBytes (MegLevel.value mask val).mask 0xff 0 0),
        .wr ⟨e.analyzer, index, .matchUpper⟩ (ofBytes ((MegLevel.value mask val).val conf.version) msg.code 0 0),
        .wr ⟨e.analyzer, index, .maskLower⟩ 0, .wr ⟨e.analyzer, index, .matchLower⟩ 0] := by
      rw [levelAccesses, hl]
      simp only [hmask, hmatch, MegLevel.mask, MegLevel.val]
    simp [y1731Accesses, haccesses, y1731ActionAccesses, Access.word, MegLevel.opcodeMask]

/-- The test of the MEG level. -/
theorem rangeTest_y1731 (msg : Y1731Msg) (conf : OamActionConf) (h : FlowHeader) :
    RangeTest (flowWords (afterFlow (y1731Accesses ingress e msg index conf) m) e index .domainRange) h ↔
      ∀ r, conf.megLevel.byteRange = some r → r.Holds h := by
  cases hl : conf.megLevel with
  | range upper lower =>
    have hword : flowWords (afterFlow (y1731Accesses ingress e msg index conf) m) e index .domainRange =
        ofBytes 0 (upper <<< 5) (lower <<< 5) (1 ||| conf.version) := by
      refine flowWords_after ?_
      rw [← levelWord_eq]
      simp [y1731Accesses, levelAccesses, y1731ActionAccesses, hl, Access.word]
    rw [hword, rangeTest_ofBytes (by simp)]
    constructor
    · rintro hr r ⟨⟩
      exact hr
    · intro hr
      exact hr _ rfl
  | value mask val =>
    refine iff_of_true (rangeTest_off ?_) fun r hr => by cases hr
    refine (regWord_getLsbD _ _ 0).trans (applyAll_of_lastBit rfl ?_)
    simp [y1731Accesses, levelAccesses, y1731ActionAccesses, hl, lastBit, Access.bit, modifiedBit]

theorem programmed_y1731 (msg : Y1731Msg) (conf : OamActionConf) : FlowProgrammed (y1731Pattern e msg conf)
    (flowWords (afterFlow (y1731Accesses ingress e msg index conf) m) e index) := by
  obtain ⟨hmaskUpper, hmatchUpper, hmaskLower, hmatchLower⟩ := @wordAfter_y1731Accesses ingress e index msg conf
  constructor
  · exact flowWords_after hmaskUpper
  · exact flowWords_after hmatchUpper
  · exact (flowWords_after hmaskLower).trans ofBytes_zero.symm
  · exact (flowWords_after hmatchLower).trans ofBytes_zero.symm
  · exact rangeTest_y1731 msg conf

end Programs

section Runs

variable {C H : Type} (rf : FlowBus H) {c : FlowPort} {ingress : Bool} {e : EngId} {index : Nat}

/-- The first accesses of a flow of Y.1731. -/
theorem ends_y1731FlowEna {conf : OamActionConf} {h₀ : H} {d : C} {m : Bits FlowReg 32} :
    Ends (Sees rf h₀ d m) (y1731FlowEna e index conf rf.toBus) (fun _ s => ∃ m', Sees rf h₀ d m' s)
      (fun _ => ¬rf.Sound h₀) := by
  have hwrite (v : BitVec 32) : Ends (Sees rf h₀ d m) (write rf.toBus Rc.access ⟨e.analyzer, index, .flowEna⟩ v)
      (fun _ s => ∃ m', Sees rf h₀ d m' s) (fun _ => ¬rf.Sound h₀) :=
    (ends_write_bits rf Rc.access (List.mem_singleton_self _) v).weaken (fun _ _ hs => ⟨_, hs⟩) fun _ hs => hs.1
  have hread : Ends (Sees rf h₀ d m) (read rf.toBus Rc.access ⟨e.analyzer, index, .flowEna⟩) (fun _ => Sees rf h₀ d m)
      (fun _ => ¬rf.Sound h₀) :=
    (ends_read_bits rf Rc.access [] _).weaken (fun _ _ hs => hs.1) fun _ hs => hs.1
  cases e with
  | ptp0 | ptp1 => exact hwrite _
  | oam2a | oam2b => exact hread.bind fun _ => hwrite _

/-- Adding a flow runs its accesses from some bits on. -/
theorem ends_flowAdd (a : FlowUse) (s : Dev C H) : Ends (fun t => t = s) (a.add rf.toBus c ingress e index)
    (fun _ t => ∃ m, rf.view t.hw = afterFlow (a.accesses c ingress e index) m) (fun _ => ¬rf.Sound s.hw) := by
  have hrun (as : List FlowAcc) (m : Bits FlowReg 32) : Ends (Sees rf s.hw s.conf m) (runAll rf.toBus Rc.access as)
      (fun _ t => ∃ m, rf.view t.hw = afterFlow as m) (fun _ => ¬rf.Sound s.hw) :=
    (ends_runAll rf Rc.access as).weaken (fun _ _ ht => ⟨m, ht.2.2⟩) fun _ ht => ht.1
  rintro t rfl
  cases a with
  | ptp msg conf => exact hrun _ _ t (sees_start rf t)
  | y1731 msg conf =>
    refine ((ends_y1731FlowEna rf).bind fun _ => ?_) t (sees_start rf t)
    rintro u ⟨m, hu⟩
    exact hrun _ m u hu

/-- A flow that was added is programmed with the pattern of its action. -/
theorem programmed_of_add {a : FlowUse} {s s' : Dev C H} (hok : a.add rf.toBus c ingress e index s = .ok () s') :
    FlowProgrammed (a.pattern c ingress e) (flowWords (rf.view s'.hw) e index) := by
  obtain ⟨m, hview⟩ := (ends_flowAdd rf a s).ok rfl hok
  rw [hview]
  cases a with
  | ptp msg conf => exact programmed_ptp msg conf
  | y1731 msg conf => exact programmed_y1731 msg conf

/-- On a device whose accesses succeed, every flow can be added. -/
theorem exists_flowAdd (a : FlowUse) (c : FlowPort) (ingress : Bool) (e : EngId) (index : Nat) :
    ∃ s', a.add flowStorage.toBus c ingress e index flowStart = .ok () s' := by
  rcases ends_flowAdd flowStorage a flowStart flowStart rfl with ⟨u, t, ht, -⟩ | ⟨er, t, -, hno⟩
  · exact ⟨t, ht⟩
  · exact absurd (bitStorage_sound _) hno

end Runs

/-! ## What the patterns accept -/

section Accept

variable {c : FlowPort} {ingress : Bool} {e e' : EngId} {h : FlowHeader}

theorem accepts_flowBytes {a b d m a' b' d' m' : Byte} {range : Option ByteRange} :
    (⟨flowBytes a b d m, flowBytes a' b' d' m', range⟩ : Pattern).Accepts h ↔
      Matches a a' (h 0) ∧ Matches b b' (h 1) ∧ Matches d d' (h 4) ∧ Matches m m' (h 6) ∧
        ∀ r, range = some r → r.Holds h := by
  rw [Pattern.accepts_iff, wordAt_flowBytes_upper, wordAt_flowBytes_lower, wordAt_flowBytes_upper, wordAt_flowBytes_lower,
    wordAt, wordAt, matches_ofBytes, matches_ofBytes]
  simp [and_assoc]

/-! ### PTP -/

theorem matches_messageType (msg : PtpMsg) :
    ∀ b : Byte, Matches 0x0f (msg.code.setWidth 8) b ↔ b.setWidth 4 = msg.code.setWidth 4 := by
  cases msg <;> decide

theorem matches_mark : ∀ b : Byte, Matches 0xf0 0x80 b ↔ b.extractLsb' 4 4 = 8#4 := by decide

theorem PtpDomain.holds_iff (d : PtpDomain) : (Matches d.mask d.val (h 4) ∧ ∀ r, d.byteRange = some r → r.Holds h) ↔
    d.Holds (h 4) := by
  cases d with
  | range upper lower =>
    constructor
    · rintro ⟨-, hr⟩
      exact hr _ rfl
    · intro hr
      exact ⟨matches_zero, by rintro r ⟨⟩; exact hr⟩
  | value mask val => exact and_iff_left fun r hr => by cases hr

/-- A flow of PTP accepts the wanted headers, where it checks for the mark those of them that are marked. -/
theorem accepts_ptp (msg : PtpMsg) (conf : PtpActionConf) : (ptpPattern c ingress msg conf).Accepts h ↔
    (FlowUse.ptp msg conf).Wanted h ∧ (c.checksMark ingress → h.mark = 8) := by
  have hmark : Matches (if c.checksMark ingress then 0xf0 else 0) (if c.checksMark ingress then 0x80 else 0) (h 6) ↔
      (c.checksMark ingress → h.mark = 8) := by
    by_cases hm : c.checksMark ingress
    · rw [if_pos hm, if_pos hm]
      exact (matches_mark (h 6)).trans ⟨fun hmark _ => hmark, fun hmark => hmark hm⟩
    · rw [if_neg hm, if_neg hm]
      exact iff_of_true matches_zero fun hchecks => absurd hchecks hm
  rw [ptpPattern, accepts_flowBytes, matches_messageType, hmark, FlowUse.Wanted, FlowHeader.messageType,
    FlowHeader.domainNumber, ← conf.domain.holds_iff]
  constructor
  · rintro ⟨htype, -, hdomain, hmark, hrange⟩
    exact ⟨⟨htype, hdomain, hrange⟩, hmark⟩
  · rintro ⟨⟨htype, hdomain, hrange⟩, hmark⟩
    exact ⟨htype, matches_zero, hdomain, hmark, hrange⟩

/-! ### Y.1731 -/

/-- The levels that the registers accept, of headers of version 0. -/
def MegLevel.Coded : MegLevel → BitVec 3 → Prop
  | range upper lower, l => lower.setWidth 3 ≤ l ∧ l ≤ upper.setWidth 3
  | value mask val, l => Matches (mask.extractLsb' 5 3) (val.setWidth 3) l

theorem shift_level : ∀ x : Byte, x <<< 5 = (x.setWidth 3 ++ 0#5 : Byte) := by decide

theorem level_mask : ∀ mask : Byte, mask ||| 0x1f = (mask.extractLsb' 5 3 ++ BitVec.allOnes 5 : Byte) := by
  decide

theorem level_split : ∀ b : Byte, b = (b.extractLsb' 5 3 ++ b.setWidth 5 : Byte) := by decide

theorem level_le : ∀ l l' : BitVec 3, (l ++ 0#5 : Byte) ≤ (l' ++ 0#5 : Byte) ↔ l ≤ l' := by decide

theorem MegLevel.coded_iff (level : MegLevel) (hversion : h.version = 0) :
    (Matches level.mask (level.val 0) (h 0) ∧ ∀ r, level.byteRange = some r → r.Holds h) ↔ level.Coded h.megLevel := by
  have hfirst : h 0 = (h.megLevel ++ 0#5 : Byte) := by
    rw [level_split (h 0)]
    exact congrArg _ hversion
  cases level with
  | range upper lower =>
    have hholds : (⟨0, lower <<< 5, upper <<< 5⟩ : ByteRange).Holds h ↔
        lower.setWidth 3 ≤ h.megLevel ∧ h.megLevel ≤ upper.setWidth 3 := by
      rw [ByteRange.Holds, hfirst, shift_level, shift_level, level_le, level_le]
    constructor
    · rintro ⟨-, hr⟩
      exact hholds.mp (hr _ rfl)
    · intro hr
      exact ⟨matches_zero, by rintro r ⟨⟩; exact hholds.mpr hr⟩
  | value mask val =>
    have hcoded : Matches (if mask ≠ 0 then mask ||| 0x1f else 0) (0#8 ||| if mask ≠ 0 then val <<< 5 else 0) (h 0) ↔
        Matches (mask.extractLsb' 5 3) (val.setWidth 3) h.megLevel := by
      by_cases hz : mask = 0
      · subst hz
        exact iff_of_true matches_zero matches_zero
      · rw [if_pos hz, if_pos hz, BitVec.zero_or, level_mask, shift_level, hfirst, matches_append]
        exact and_iff_left (matches_allOnes.mpr rfl)
    exact (and_iff_left fun r hr => by cases hr).trans hcoded

theorem accepts_y1731 (msg : Y1731Msg) {conf : OamActionConf} (hconf : conf.version = 0) (hversion : h.version = 0) :
    (y1731Pattern e msg conf).Accepts h ↔
      Matches (conf.megLevel.opcodeMask e msg) msg.code h.opcode ∧ conf.megLevel.Coded h.megLevel := by
  rw [y1731Pattern, accepts_flowBytes, hconf, ← conf.megLevel.coded_iff hversion]
  constructor
  · rintro ⟨hlevel, hopcode, -, -, hrange⟩
    exact ⟨hopcode, hlevel, hrange⟩
  · rintro ⟨hopcode, hlevel, hrange⟩
    exact ⟨hlevel, hopcode, matches_zero, matches_zero, hrange⟩

end Accept

/-! ## Wanted levels -/

/-- The condition on the MEG levels. A value is compared under a mask that is shifted by 5 for the version but not for the
level; a range keeps three bits of its bounds, and for engines 2A and 2B also lets other opcodes pass. -/
def MegLevel.Fits (e : EngId) : MegLevel → Prop
  | range upper lower =>
    if e.isOam then upper.setWidth 3 < lower.setWidth 3 ∧ (upper < lower ∨ 8 ≤ lower)
    else lower < 8 ∧ (upper < 8 ∨ upper.setWidth 3 = 7#3) ∨ 8 ≤ lower ∧ upper.setWidth 3 < lower.setWidth 3
  | value mask val => mask.extractLsb' 5 3 = mask.setWidth 3 ∧ (val &&& mask).extractLsb' 3 5 = 0

section Levels

/-- The levels are the numbers below 8. -/
theorem forall_level {P : Nat → Prop} : (∀ l : BitVec 3, P l.toNat) ↔ ∀ n < 8, P n := by
  constructor
  · intro h n hn
    have hl := h (BitVec.ofNat 3 n)
    rwa [BitVec.toNat_ofNat, Nat.mod_eq_of_lt hn] at hl
  · intro h l
    exact h l.toNat l.isLt

theorem range_coded_iff (upper lower : Byte) (l : BitVec 3) : (MegLevel.range upper lower).Coded l ↔
    lower.toNat % 8 ≤ l.toNat ∧ l.toNat ≤ upper.toNat % 8 := by
  simp [MegLevel.Coded, BitVec.le_def]

theorem range_holds_iff (upper lower : Byte) (l : BitVec 3) : (MegLevel.range upper lower).Holds (l.setWidth 8) ↔
    lower.toNat ≤ l.toNat ∧ l.toNat ≤ upper.toNat := by
  have hl : (l.setWidth 8).toNat = l.toNat := BitVec.toNat_setWidth_of_le (by decide)
  rw [MegLevel.Holds, BitVec.le_def, BitVec.le_def, hl]

theorem bounds_agree_iff (lower upper : Nat) :
    (∀ n < 8, (lower % 8 ≤ n ∧ n ≤ upper % 8 ↔ lower ≤ n ∧ n ≤ upper)) ↔
      lower < 8 ∧ (upper < 8 ∨ upper % 8 = 7) ∨ 8 ≤ lower ∧ upper % 8 < lower % 8 := by
  constructor
  · intro h
    have hlower := h (lower % 8) (by omega)
    have htop := h 7 (by omega)
    omega
  · intro h n hn
    omega

theorem empty_coded_iff (lower upper : Nat) : (∀ n < 8, ¬(lower % 8 ≤ n ∧ n ≤ upper % 8)) ↔ upper % 8 < lower % 8 := by
  constructor
  · intro h
    have hlower := h (lower % 8) (by omega)
    omega
  · intro h n hn
    omega

theorem empty_holds_iff (lower upper : Nat) : (∀ n < 8, ¬(lower ≤ n ∧ n ≤ upper)) ↔ upper < lower ∨ 8 ≤ lower := by
  constructor
  · intro h
    by_contra hnot
    exact h lower (by omega) (by omega)
  · intro h n hn
    omega

theorem range_agrees_iff (upper lower : Byte) :
    (∀ l : BitVec 3, (MegLevel.range upper lower).Coded l ↔ (MegLevel.range upper lower).Holds (l.setWidth 8)) ↔
      lower < 8 ∧ (upper < 8 ∨ upper.setWidth 3 = 7#3) ∨ 8 ≤ lower ∧ upper.setWidth 3 < lower.setWidth 3 := by
  have hagree := (forall_level (P := fun n => lower.toNat % 8 ≤ n ∧ n ≤ upper.toNat % 8 ↔
    lower.toNat ≤ n ∧ n ≤ upper.toNat)).trans (bounds_agree_iff lower.toNat upper.toNat)
  simp only [range_coded_iff, range_holds_iff, hagree]
  simp [BitVec.lt_def, BitVec.le_def, ← BitVec.toNat_inj]

theorem range_empty_iff (upper lower : Byte) :
    (∀ l, ¬(MegLevel.range upper lower).Coded l) ↔ upper.setWidth 3 < lower.setWidth 3 := by
  have hempty := (forall_level (P := fun n => ¬(lower.toNat % 8 ≤ n ∧ n ≤ upper.toNat % 8))).trans
    (empty_coded_iff lower.toNat upper.toNat)
  simp only [range_coded_iff, hempty]
  simp [BitVec.lt_def]

theorem range_unwanted_iff (upper lower : Byte) :
    (∀ l : BitVec 3, ¬(MegLevel.range upper lower).Holds (l.setWidth 8)) ↔ upper < lower ∨ 8 ≤ lower := by
  have hempty := (forall_level (P := fun n => ¬(lower.toNat ≤ n ∧ n ≤ upper.toNat))).trans
    (empty_holds_iff lower.toNat upper.toNat)
  simp only [range_holds_iff, hempty]
  simp [BitVec.lt_def, BitVec.le_def]

theorem byte_split : ∀ b : Byte, b = (b.extractLsb' 3 5 ++ b.setWidth 3 : Byte) := by decide

theorem level_byte : ∀ l : BitVec 3, l.setWidth 8 = (0#5 ++ l : Byte) := by decide

/-- The level is compared in its own units. -/
theorem value_holds_iff (mask val : Byte) (l : BitVec 3) : (MegLevel.value mask val).Holds (l.setWidth 8) ↔
    (val &&& mask).extractLsb' 3 5 = 0 ∧ Matches (mask.setWidth 3) (val.setWidth 3) l := by
  have hparts : Matches mask val (l.setWidth 8) ↔
      Matches (mask.extractLsb' 3 5) (val.extractLsb' 3 5) 0#5 ∧ Matches (mask.setWidth 3) (val.setWidth 3) l := by
    conv_lhs => rw [byte_split mask, byte_split val, level_byte]
    exact matches_append
  rw [MegLevel.Holds, hparts, BitVec.extractLsb'_and]
  refine and_congr_left fun _ => ?_
  rw [Matches, BitVec.zero_and]
  exact eq_comm

theorem value_agrees_iff (mask val : Byte) :
    (∀ l : BitVec 3, (MegLevel.value mask val).Coded l ↔ (MegLevel.value mask val).Holds (l.setWidth 8)) ↔
      mask.extractLsb' 5 3 = mask.setWidth 3 ∧ (val &&& mask).extractLsb' 3 5 = 0 := by
  simp only [value_holds_iff]
  constructor
  · intro h
    -- the level of the value itself is accepted
    have hhigh := ((h (val.setWidth 3)).mp rfl).1
    exact ⟨matches_mask_inj.mp fun l => (h l).trans (and_iff_right hhigh), hhigh⟩
  · rintro ⟨hmask, hhigh⟩ l
    rw [MegLevel.Coded, hmask]
    exact (and_iff_right hhigh).symm

end Levels

/-! ## What adding a flow has to do -/

/-- However the flow is added, it accepts the wanted headers. -/
def FlowRight (c : FlowPort) (ingress : Bool) (e : EngId) (index : Nat) (a : FlowUse) : Prop :=
  ∀ (C H : Type) (rf : FlowBus H) (s s' : Dev C H), a.add rf.toBus c ingress e index s = .ok () s' →
    ∀ h, a.SameVersion h → (FlowAccepts (flowWords (rf.view s'.hw) e index) h ↔ a.Wanted h)

/-- However the flow is added to two engines, they accept the same headers. -/
def SameHeaders (c : FlowPort) (ingress : Bool) (e e' : EngId) (index index' : Nat) (a : FlowUse) : Prop :=
  ∀ (C H C' H' : Type) (rf : FlowBus H) (rf' : FlowBus H') (s s' : Dev C H) (t t' : Dev C' H'),
    a.add rf.toBus c ingress e index s = .ok () s' → a.add rf'.toBus c ingress e' index' t = .ok () t' →
      ∀ h, FlowAccepts (flowWords (rf.view s'.hw) e index) h ↔ FlowAccepts (flowWords (rf'.view t'.hw) e' index') h

/-- No domain is asked for. -/
def PtpDomain.Empty : PtpDomain → Prop
  | range upper lower => upper < lower
  | value _ _ => False

/-- The levels that engines of both kinds accept alike: a range only if it is empty. -/
def MegLevel.Shared (e e' : EngId) : MegLevel → Prop
  | range upper lower => e.isOam = e'.isOam ∨ upper.setWidth 3 < lower.setWidth 3
  | value _ _ => True

namespace FlowUse

/-- A flow of PTP does not ask for the mark, or for no domain; a flow of Y.1731 is for levels that fit. -/
def Fits (c : FlowPort) (ingress : Bool) (e : EngId) : FlowUse → Prop
  | ptp _ conf => ¬c.checksMark ingress ∨ conf.domain.Empty
  | y1731 _ conf => conf.megLevel.Fits e

def Shared (e e' : EngId) : FlowUse → Prop
  | ptp _ _ => True
  | y1731 _ conf => conf.megLevel.Shared e e'

end FlowUse

section Right

variable {c : FlowPort} {ingress : Bool} {e e' : EngId} {index index' : Nat} {a : FlowUse}

theorem flowRight_iff_pattern : FlowRight c ingress e index a ↔
    ∀ h, a.SameVersion h → ((a.pattern c ingress e).Accepts h ↔ a.Wanted h) := by
  constructor
  · intro hright h hversion
    obtain ⟨s', hadd⟩ := exists_flowAdd a c ingress e index
    rw [← (programmed_of_add flowStorage hadd).accepts_iff]
    exact hright _ _ flowStorage _ _ hadd h hversion
  · intro hpattern C H rf s s' hadd h hversion
    rw [(programmed_of_add rf hadd).accepts_iff]
    exact hpattern h hversion

theorem sameHeaders_iff_pattern : SameHeaders c ingress e e' index index' a ↔
    ∀ h, (a.pattern c ingress e).Accepts h ↔ (a.pattern c ingress e').Accepts h := by
  constructor
  · intro hsame h
    obtain ⟨s', hadd⟩ := exists_flowAdd a c ingress e index
    obtain ⟨t', hadd'⟩ := exists_flowAdd a c ingress e' index'
    rw [← (programmed_of_add flowStorage hadd).accepts_iff, ← (programmed_of_add flowStorage hadd').accepts_iff]
    exact hsame _ _ _ _ flowStorage flowStorage _ _ _ _ hadd hadd' h
  · intro hpattern C H C' H' rf rf' s s' t t' hadd hadd' h
    rw [(programmed_of_add rf hadd).accepts_iff, (programmed_of_add rf' hadd').accepts_iff]
    exact hpattern h

/-! ### PTP -/

theorem PtpDomain.empty_iff (d : PtpDomain) : d.Empty ↔ ∀ b, ¬d.Holds b := by
  cases d with
  | range upper lower =>
    constructor
    · rintro hlt b ⟨hlower, hupper⟩
      exact absurd (BitVec.le_trans hlower hupper) (BitVec.not_le.mpr hlt)
    · intro h
      exact BitVec.not_le.mp fun hle => h lower ⟨BitVec.le_refl _, hle⟩
  | value mask val => exact ⟨fun h => h.elim, fun h => h val rfl⟩

theorem ptp_right_iff (msg : PtpMsg) (conf : PtpActionConf) :
    (∀ h, (ptpPattern c ingress msg conf).Accepts h ↔ (FlowUse.ptp msg conf).Wanted h) ↔
      ¬c.checksMark ingress ∨ conf.domain.Empty := by
  simp only [accepts_ptp, conf.domain.empty_iff, and_iff_left_iff_imp]
  constructor
  · intro h
    by_cases hm : c.checksMark ingress
    · -- a header without the mark
      refine Or.inr fun b hb => ?_
      have htype : FlowHeader.messageType (flowBytes (msg.code.setWidth 8) 0 b 0) = msg.code.setWidth 4 := by
        cases msg <;> rfl
      have hmark : (0 : Byte).extractLsb' 4 4 = 8#4 := h (flowBytes (msg.code.setWidth 8) 0 b 0) ⟨htype, hb⟩ hm
      exact absurd hmark (by decide)
    · exact Or.inl hm
  · rintro (hm | hempty) h ⟨-, hdomain⟩ hchecks
    · exact absurd hchecks hm
    · exact absurd hdomain (hempty _)

/-! ### Y.1731 -/

/-- A header of Y.1731, of version 0. -/
def levelHeader (l : BitVec 3) (opcode : Byte) : FlowHeader := flowBytes (l ++ 0#5) opcode 0 0

theorem levelHeader_fields : ∀ l : BitVec 3, (l ++ 0#5 : Byte).extractLsb' 5 3 = l ∧ (l ++ 0#5 : Byte).setWidth 5 = 0 := by
  decide

theorem version_levelHeader (l : BitVec 3) (opcode : Byte) : FlowHeader.version (levelHeader l opcode) = 0 :=
  (levelHeader_fields l).2

theorem megLevel_levelHeader (l : BitVec 3) (opcode : Byte) : FlowHeader.megLevel (levelHeader l opcode) = l :=
  (levelHeader_fields l).1

/-- What a flow accepts of an opcode and a level, and what it is for. -/
theorem y1731_pattern_right_iff (msg : Y1731Msg) {conf : OamActionConf} (hconf : conf.version = 0) :
    (∀ h, (FlowUse.y1731 msg conf).SameVersion h →
      ((y1731Pattern e msg conf).Accepts h ↔ (FlowUse.y1731 msg conf).Wanted h)) ↔
        ∀ l opcode, Matches (conf.megLevel.opcodeMask e msg) msg.code opcode ∧ conf.megLevel.Coded l ↔
          opcode = msg.code ∧ conf.megLevel.Holds (l.setWidth 8) := by
  have hzero : conf.version.setWidth 5 = 0 := by rw [hconf]; rfl
  constructor
  · intro h l opcode
    have hheader := h (levelHeader l opcode) ((version_levelHeader l opcode).trans hzero.symm)
    rwa [accepts_y1731 msg hconf (version_levelHeader l opcode), FlowUse.Wanted, megLevel_levelHeader] at hheader
  · intro h hd hversion
    rw [accepts_y1731 msg hconf (hversion.trans hzero)]
    exact h _ _

theorem opcodeMask_right_iff {msg : Y1731Msg} {coded holds : BitVec 3 → Prop} :
    (∀ l opcode, Matches 0xff msg.code opcode ∧ coded l ↔ opcode = msg.code ∧ holds l) ↔ ∀ l, coded l ↔ holds l := by
  have hmask (opcode : Byte) : Matches 0xff msg.code opcode ↔ opcode = msg.code := matches_allOnes
  simp only [hmask]
  constructor
  · intro h l
    have hl := h l msg.code
    rwa [and_iff_right rfl, and_iff_right rfl] at hl
  · intro h l opcode
    rw [h l]

/-- Under a mask that is the opcode itself, other opcodes pass: nothing may be accepted, and nothing wanted. -/
theorem opcodeMask_self_right_iff {msg : Y1731Msg} {coded holds : BitVec 3 → Prop} :
    (∀ l opcode, Matches msg.code msg.code opcode ∧ coded l ↔ opcode = msg.code ∧ holds l) ↔
      (∀ l, ¬coded l) ∧ ∀ l, ¬holds l := by
  have hother : BitVec.allOnes 8 ≠ msg.code := by cases msg <;> decide
  constructor
  · intro h
    have hcoded (l : BitVec 3) : ¬coded l := fun hl => hother ((h l _).mp ⟨matches_self_allOnes, hl⟩).1
    exact ⟨hcoded, fun l hl => hcoded l ((h l _).mpr ⟨rfl, hl⟩).2⟩
  · rintro ⟨hcoded, hholds⟩ l opcode
    exact iff_of_false (fun h => hcoded l h.2) fun h => hholds l h.2

theorem y1731_right_iff (msg : Y1731Msg) {conf : OamActionConf} (hconf : conf.version = 0) :
    (∀ h, (FlowUse.y1731 msg conf).SameVersion h →
      ((y1731Pattern e msg conf).Accepts h ↔ (FlowUse.y1731 msg conf).Wanted h)) ↔ conf.megLevel.Fits e := by
  rw [y1731_pattern_right_iff msg hconf]
  cases conf.megLevel with
  | range upper lower =>
    rw [MegLevel.Fits, MegLevel.opcodeMask]
    split
    · rw [opcodeMask_self_right_iff, range_empty_iff, range_unwanted_iff]
    · rw [opcodeMask_right_iff, range_agrees_iff]
  | value mask val => exact opcodeMask_right_iff.trans (value_agrees_iff mask val)

/-- An empty range accepts nothing. -/
theorem not_accepts_of_empty {msg : Y1731Msg} {channelMap version upper lower : Byte}
    (hempty : upper.setWidth 3 < lower.setWidth 3) (h : FlowHeader) :
    ¬(y1731Pattern e msg ⟨channelMap, version, .range upper lower⟩).Accepts h := by
  intro haccepts
  obtain ⟨hlower, hupper⟩ := haccepts.2 ⟨0, lower <<< 5, upper <<< 5⟩ rfl
  have hle := BitVec.le_trans hlower hupper
  dsimp only at hle
  rw [shift_level, shift_level, level_le] at hle
  exact absurd hle (BitVec.not_le.mpr hempty)

theorem y1731_same_iff (msg : Y1731Msg) {conf : OamActionConf} (hconf : conf.version = 0) :
    (∀ h, (y1731Pattern e msg conf).Accepts h ↔ (y1731Pattern e' msg conf).Accepts h) ↔ conf.megLevel.Shared e e' := by
  obtain ⟨channelMap, version, level⟩ := conf
  cases level with
  | value mask val => exact iff_of_true (fun h => Iff.rfl) trivial
  | range upper lower =>
    constructor
    · intro hsame
      by_contra hnot
      obtain ⟨hkinds, hempty⟩ := not_or.mp hnot
      refine hempty ((range_empty_iff upper lower).mp fun l hl => hkinds ?_)
      -- a header of an opcode that has all the bits of the wanted one
      have hheader := hsame (levelHeader l (BitVec.allOnes 8))
      rw [accepts_y1731 msg hconf (version_levelHeader _ _), accepts_y1731 msg hconf (version_levelHeader _ _),
        megLevel_levelHeader, and_iff_left hl, and_iff_left hl] at hheader
      have hmask (e : EngId) : Matches ((MegLevel.range upper lower).opcodeMask e msg) msg.code (BitVec.allOnes 8) ↔
          e.isOam = true := by
        rw [MegLevel.opcodeMask]
        cases e.isOam <;> cases msg <;> decide
      exact Bool.eq_iff_iff.mpr (((hmask e).symm.trans hheader).trans (hmask e'))
    · rintro (hkinds | hempty) h
      · have hpattern : y1731Pattern e msg ⟨channelMap, version, .range upper lower⟩ =
            y1731Pattern e' msg ⟨channelMap, version, .range upper lower⟩ := by
          simp only [y1731Pattern, MegLevel.opcodeMask, hkinds]
        rw [hpattern]
      · exact iff_of_false (not_accepts_of_empty hempty h) (not_accepts_of_empty hempty h)

/-- **Action flows.** A flow accepts the wanted headers when its action fits, and engines of both kinds accept the same
when it is shared, and only then. -/
theorem flow_match_right_iff (ha : a.Supported) (c : FlowPort) (ingress : Bool) (e e' : EngId) (index index' : Nat) :
    (FlowRight c ingress e index a ↔ a.Fits c ingress e) ∧
      (SameHeaders c ingress e e' index index' a ↔ a.Shared e e') := by
  rw [flowRight_iff_pattern, sameHeaders_iff_pattern]
  cases a with
  | ptp msg conf =>
    refine ⟨?_, iff_of_true (fun h => Iff.rfl) trivial⟩
    rw [FlowUse.Fits, ← ptp_right_iff msg conf]
    exact forall_congr' fun h => forall_prop_of_true trivial
  | y1731 msg conf => exact ⟨y1731_right_iff msg ha, y1731_same_iff msg ha⟩

end Right

/-! A 1DM of any MEG level. -/

def anyLevel : FlowUse := .y1731 .oneDm ⟨3, 0, .range 7 0⟩

theorem flow_match_right_anyLevel :
    (FlowRight (tcPort .a) true .ptp0 0 anyLevel ↔ anyLevel.Fits (tcPort .a) true .ptp0) ∧
      (SameHeaders (tcPort .a) true .ptp0 .oam2a 0 0 anyLevel ↔ anyLevel.Shared .ptp0 .oam2a) :=
  flow_match_right_iff (a := anyLevel) rfl (tcPort .a) true .ptp0 .oam2a 0 0

/-- Engine 2A takes a DMM for a 1DM. -/
theorem not_flow_match_right : ¬∀ (a : FlowUse), a.Supported → ∀ (c : FlowPort) (ingress : Bool) (e e' : EngId)
    (index index' : Nat), FlowRight c ingress e index a ∧ SameHeaders c ingress e e' index index' a := by
  intro h
  have hright := (h anyLevel rfl (tcPort .a) true .oam2a .ptp0 0 0).1
  have hdmm := flowRight_iff_pattern.mp hright (levelHeader 0 Y1731Msg.dmm.code) (version_levelHeader _ _)
  have haccepts : (y1731Pattern .oam2a .oneDm ⟨3, 0, .range 7 0⟩).Accepts (levelHeader 0 Y1731Msg.dmm.code) :=
    (accepts_y1731 .oneDm rfl (version_levelHeader _ _)).mpr ⟨by decide, by decide, by decide⟩
  exact absurd (hdmm.mp haccepts).1 (by decide)

end Lan80xx.VtssTs
