import Lan80xx.Ts.Types

/-!
# Timestamping: the PTP flows of an engine

A flow compares the first eight bytes of a PTP header with two match words under two masks, and tests the range of one
byte. Adding an action flow programs it for one message type and for the domain of the action.

- `leads_ptpActionFlowAdd`, `leads_ptpActionFlowAdd_oam2B`: what the registers of the flow hold afterwards;
- `accepts_of_programmed`: which headers they accept;
- `ptp_flow_right_iff`: these are the wanted ones but for a domain that is cleared again, and for engine 2B, whose flow
  is not programmed at all.
-/

namespace Lan80xx.Ts

open Fallible RegBus

/-! ## Data -/

/-- `phy25g_ts_ptp_msg_type_t`. -/
inductive PtpMsgType
  | sync
  | delayReq
  | pdelayReq
  | pdelayResp
  deriving DecidableEq, Repr

/-- The value of a message type. -/
def PtpMsgType.code : PtpMsgType → BitVec 4
  | .sync => 0
  | .delayReq => 1
  | .pdelayReq => 2
  | .pdelayResp => 3

/-- `mepa_ts_ptp_clock_mode_t`. -/
inductive ClockMode
  | none
  | bc1Step
  | bc2Step
  | tc1Step
  | tc2Step
  deriving DecidableEq, Repr

/-- `mepa_ts_ptp_delaym_type_t`. -/
inductive Delaym
  | p2p
  | e2e
  deriving DecidableEq, Repr

/-- `phy25g_ts_ptp_conf_t`. -/
structure PtpConf where
  rangeEn : Bool
  upper : BitVec 8
  lower : BitVec 8
  val : BitVec 8
  mask : BitVec 8
  deriving DecidableEq, Repr

/-- `phy25g_ts_ptp_engine_action_t`. -/
structure EngineAction where
  ptpConf : PtpConf
  clkMode : ClockMode
  delaymType : Delaym
  cfUpdate : Bool
  delayReqRecieveTimestamp : Bool
  deriving DecidableEq, Repr

/-- `phy25g_ts_ptp_action_cmd_t`. -/
inductive ActionCmd
  | nop
  | sub
  | add
  | subAdd
  | write1588
  | writeNs
  | writeNsP2p
  | add2
  | sub2
  | saveInTsFifo
  deriving DecidableEq, Repr

/-- The 1588 command of an action; `PTP_ACTION_CMD_SAVE_IN_TS_FIFO` is none. -/
def ActionCmd.code : ActionCmd → BitVec 32
  | .nop => 0
  | .sub => 1
  | .add => 3
  | .subAdd => 4
  | .write1588 => 5
  | .writeNs => 7
  | .writeNsP2p => 8
  | .add2 => 9
  | .sub2 => 10
  | .saveInTsFifo => 11

/-- `phy25g_ts_ptp_action_asym_t`. -/
inductive ActionAsym
  | none
  | add
  | sub
  deriving DecidableEq, Repr

/-! ## Registers of a flow -/

/-- The registers `LAN80XX_ANA_PTP_FLOW_...` of a flow. -/
inductive FlowReg
  | ena
  | matchUpper
  | matchLower
  | maskUpper
  | maskLower
  | domainRange
  | action
  | action2
  | zeroFieldCtl
  deriving DecidableEq, Repr

/-- The place of a register in its flow. -/
def FlowReg.index : FlowReg → Nat
  | .ena => 0
  | .matchUpper => 1
  | .matchLower => 2
  | .maskUpper => 3
  | .maskLower => 4
  | .domainRange => 5
  | .action => 6
  | .action2 => 7
  | .zeroFieldCtl => 8

/-- `ptp_engine2_csr_add_offset`, for an engine. -/
def engineOffset (engId : Engine) : Nat := if engId = .oam2A ∨ engId = .oam2B then 0xF0 else 0

/-- `ptp_engine2_csr_add_offset`, for an analyzer. -/
def blockOffset (blk : BlkId) : Nat := if blk = .anaIng2 ∨ blk = .anaEgr2 then 0xF0 else 0

/-- A register of a flow. -/
def ptpFlow (offset flow : Nat) (r : FlowReg) : Nat := 0x2d0 + 16 * flow + r.index - offset

/-! ## The action of a flow -/

/-- The command for the transparent clock's mode of operation. -/
def tcCmd (mode : TcOpMode) (a b c : ActionCmd) : ActionCmd :=
  match mode with
  | .a => a
  | .b => b
  | .c => c

/-- The command for a `PTP_MSG_TYPE_SYNC`. -/
def syncCmd (conf : TsConf) (act : EngineAction) : Bool → ActionCmd × ActionAsym
  | true =>
    match act.clkMode, act.delaymType with
    | .bc1Step, .e2e => (.writeNs, .add)
    | .bc1Step, .p2p => (.writeNsP2p, .add)
    | .bc2Step, _ => (.writeNs, .add)
    | .tc1Step, .e2e => (tcCmd conf.tcOpMode .sub .writeNs .sub2, .add)
    | .tc1Step, .p2p => (tcCmd conf.tcOpMode .sub .writeNsP2p .sub2, .add)
    | .tc2Step, _ => (.writeNs, .none)
    | .none, _ => (.nop, .none)
  | false =>
    match act.clkMode with
    | .bc1Step => (if act.cfUpdate then .add else .write1588, .none)
    | .bc2Step => (.saveInTsFifo, .none)
    | .tc1Step => (tcCmd conf.tcOpMode .add .subAdd .add2, .none)
    | .tc2Step => (.saveInTsFifo, .none)
    | .none => (.nop, .none)

/-- The command for a `PTP_MSG_TYPE_DELAY_REQ`. -/
def delayReqCmd (conf : TsConf) (act : EngineAction) : Bool → ActionCmd × ActionAsym
  | true =>
    if act.delayReqRecieveTimestamp = true ∧ (act.clkMode = .bc1Step ∨ act.clkMode = .bc2Step) then (.write1588, .none)
    else
      match act.clkMode, act.delaymType with
      | .bc1Step, .e2e => (.writeNs, .none)
      | .bc2Step, .e2e => (.writeNs, .none)
      | .tc1Step, .e2e => (tcCmd conf.tcOpMode .sub .writeNs .sub2, .none)
      | .tc2Step, .e2e => (.writeNs, .none)
      | _, _ => (.nop, .none)
  | false =>
    match act.clkMode, act.delaymType with
    | .bc1Step, .e2e => (if conf.oneStepTxfifo then .saveInTsFifo else .subAdd, .sub)
    | .bc2Step, .e2e => (.saveInTsFifo, .none)
    | .tc1Step, .e2e => (tcCmd conf.tcOpMode .add .subAdd .add2, .sub)
    | .tc2Step, .e2e => (.saveInTsFifo, .none)
    | _, _ => (.nop, .none)

/-- The command for a `PTP_MSG_TYPE_PDELAY_REQ`. -/
def pdelayReqCmd (conf : TsConf) (act : EngineAction) : Bool → ActionCmd × ActionAsym
  | true =>
    match act.clkMode, act.delaymType with
    | .bc1Step, .p2p => (.writeNs, .none)
    | .bc2Step, .p2p => (.writeNs, .none)
    | .tc1Step, _ => (tcCmd conf.tcOpMode .sub .writeNs .sub2, .none)
    | .tc2Step, _ => (.writeNs, .none)
    | _, _ => (.nop, .none)
  | false =>
    match act.clkMode, act.delaymType with
    | .bc1Step, .p2p => (if conf.oneStepTxfifo then .saveInTsFifo else .subAdd, .sub)
    | .bc2Step, .p2p => (.saveInTsFifo, .none)
    | .tc1Step, .e2e => (tcCmd conf.tcOpMode .add .subAdd .add2, .sub)
    | .tc1Step, .p2p => (if conf.oneStepTxfifo then .saveInTsFifo else .subAdd, .sub)
    | .tc2Step, _ => (.saveInTsFifo, .none)
    | _, _ => (.nop, .none)

/-- The command for a `PTP_MSG_TYPE_PDELAY_RESP`. -/
def pdelayRespCmd (conf : TsConf) (act : EngineAction) : Bool → ActionCmd × ActionAsym
  | true =>
    match act.clkMode, act.delaymType with
    | .bc1Step, .p2p => (.writeNs, .add)
    | .bc2Step, .p2p => (.writeNs, .add)
    | .tc1Step, .e2e => (tcCmd conf.tcOpMode .sub .writeNs .sub2, .add)
    | .tc1Step, .p2p => (.writeNs, .add)
    | .tc2Step, .e2e => (.writeNs, .none)
    | .tc2Step, .p2p => (.writeNs, .add)
    | _, _ => (.nop, .none)
  | false =>
    match act.clkMode, act.delaymType with
    | .bc1Step, .p2p => (.subAdd, .none)
    | .bc2Step, .p2p => (.saveInTsFifo, .none)
    | .tc1Step, _ => (tcCmd conf.tcOpMode .add .subAdd .add2, .none)
    | .tc2Step, _ => (.saveInTsFifo, .none)
    | _, _ => (.nop, .none)

/-- The switch over `msg_type`. -/
def actionCmd (conf : TsConf) (act : EngineAction) (ingress : Bool) : PtpMsgType → ActionCmd × ActionAsym
  | .sync => syncCmd conf act ingress
  | .delayReq => delayReqCmd conf act ingress
  | .pdelayReq => pdelayReqCmd conf act ingress
  | .pdelayResp => pdelayRespCmd conf act ingress

/-- `LAN80XX_BIT` -/
def tsBit (n : Nat) : BitVec 32 := (1 : BitVec 32) <<< n

/-- `LAN80XX_ENCODE_BITFIELD` -/
def bitfield (value : BitVec 32) (offset width : Nat) : BitVec 32 := (value &&& (tsBit width - 1)) <<< offset

/-- The place of `messageType` in the upper match word. -/
def msgTypeMask : BitVec 32 := 0x0F000000

/-- `PTP_ADD_DELAY_ASYM_ENA`, `PTP_SUB_DELAY_ASYM_ENA`. -/
def asymBits : ActionAsym → BitVec 32
  | .none => 0
  | .add => tsBit 20
  | .sub => tsBit 21

/-- `PTP_MOD_FRAME_STAT_UPDATE` with its byte offset. -/
def modFrameBits (conf : TsConf) : BitVec 32 := if conf.chkIngModified then tsBit 28 ||| bitfield 6 24 3 else 0

/-- `rx_ts_pos`. -/
def rxTsPos (conf : TsConf) : BitVec 32 := if conf.rxTsPosInPtp then 16 else 0

/-- The word of `PTP_ACTION`. -/
def actionWord (conf : TsConf) (cmd : ActionCmd) (asym : ActionAsym) : BitVec 32 :=
  match cmd with
  | .nop => bitfield 8 10 6 ||| bitfield cmd.code 0 4
  | .sub | .add | .writeNs | .writeNsP2p | .sub2 | .add2 =>
    bitfield 8 10 6 ||| bitfield cmd.code 0 4 ||| asymBits asym ||| bitfield 8 5 5 ||| modFrameBits conf
  | .subAdd =>
    bitfield (rxTsPos conf) 10 6 ||| bitfield cmd.code 0 4 ||| bitfield 8 5 5 ||| asymBits asym ||| modFrameBits conf
  | .write1588 => bitfield 8 10 6 ||| bitfield cmd.code 0 4 ||| bitfield 8 5 5 ||| asymBits asym
  | .saveInTsFifo =>
    bitfield 8 10 6 ||| tsBit 4 ||| bitfield 8 5 5 ||| asymBits asym |||
      bitfield (if asym = .none then ActionCmd.nop.code else ActionCmd.write1588.code) 0 4

/-- The word of `PTP_ACTION_2`. -/
def action2Word (conf : TsConf) : ActionCmd → BitVec 32
  | .nop | .saveInTsFifo => 0
  | .sub | .add | .subAdd | .sub2 | .add2 => bitfield 8 8 8 ||| bitfield 8 0 4
  | .write1588 => bitfield 34 8 8 ||| bitfield 10 0 4
  | .writeNs | .writeNsP2p => 
    if conf.rxTsPosInPtp then bitfield (rxTsPos conf) 8 8 ||| bitfield 4 0 4 else bitfield 0 8 8 ||| bitfield 0xE 0 4

/-- What an action has cleared of the frame, where it has something else than the default. -/
def zeroFieldWord (conf : TsConf) : ActionCmd → Option (BitVec 32)
  | .add | .add2 => some 0
  | .subAdd => some (bitfield (rxTsPos conf) 8 6 ||| bitfield 4 0 4)
  | _ => none

/-! ## The call -/

section Calls

variable {H : Type} (bus : Bus TsReg 32 H)

/-- `lan80xx_phy_ts_engine_ptp_action_flow_conf_priv` -/
def ptpActionFlowConf (blk : BlkId) (flow : Nat) (cmd : ActionCmd) (asym : ActionAsym) : Call H Unit := do
  let conf ← getConf
  writeCsr bus blk (ptpFlow (blockOffset blk) flow .zeroFieldCtl) (tsBit 14)
  writeCsr bus blk (ptpFlow (blockOffset blk) flow .action) (actionWord conf cmd asym)
  writeCsr bus blk (ptpFlow (blockOffset blk) flow .action2) (action2Word conf cmd)
  match zeroFieldWord conf cmd with
  | none => pure ()
  | some value => writeCsr bus blk (ptpFlow (blockOffset blk) flow .zeroFieldCtl) value

/-- The domain configuration, which both branches of `lan80xx_ts_engine_ptp_action_flow_add_priv` have. -/
def domainConfig (blk : BlkId) (offset flow : Nat) (ptp : PtpConf) : Call H Unit := do
  if ptp.rangeEn = true then do
    writeCsr bus blk (ptpFlow offset flow .domainRange)
      (tsBit 0 ||| bitfield 4 24 5 ||| bitfield (ptp.upper.setWidth 32) 16 8 ||| bitfield (ptp.lower.setWidth 32) 8 8)
    writeCsr bus blk (ptpFlow offset flow .maskLower) 0
    writeCsr bus blk (ptpFlow offset flow .maskUpper) 0
    writeCsr bus blk (ptpFlow offset flow .matchLower) 0
    writeCsr bus blk (ptpFlow offset flow .matchUpper) 0
  else do
    let value ← readCsr bus blk (ptpFlow offset flow .domainRange)
    writeCsr bus blk (ptpFlow offset flow .domainRange) (value &&& ~~~tsBit 0)
    writeCsr bus blk (ptpFlow offset flow .maskLower) (ptp.mask.setWidth 32 <<< 24)
    writeCsr bus blk (ptpFlow offset flow .matchLower) (ptp.val.setWidth 32 <<< 24)
    writeCsr bus blk (ptpFlow offset flow .maskUpper) 0
    writeCsr bus blk (ptpFlow offset flow .matchUpper) 0

/-- The part of the first branch for frames that were modified in ingress. -/
def modifiedClear (conf : TsConf) (ingress : Bool) (blk : BlkId) (offset flow : Nat) : Call H Unit := do
  if conf.chkIngModified = true ∧ ingress = false then do
    let _ ← readCsr bus blk (ptpFlow offset flow .matchLower)
    -- `value |= 0x8000` is commented out.
    writeCsr bus blk (ptpFlow offset flow .matchLower) 0
  else
    pure ()

/-- That part of the other branch. -/
def modifiedSet (conf : TsConf) (ingress : Bool) (blk : BlkId) (offset flow : Nat) : Call H Unit := do
  if conf.chkIngModified = true ∧ ingress = false then do
    let value ← readCsr bus blk (ptpFlow offset flow .matchLower)
    writeCsr bus blk (ptpFlow offset flow .matchLower) (value ||| 0x8000)
    let value ← readCsr bus blk (ptpFlow offset flow .maskLower)
    writeCsr bus blk (ptpFlow offset flow .maskLower) (value ||| 0xf000)
  else
    pure ()

/-- The first branch of `lan80xx_ts_engine_ptp_action_flow_add_priv`, from the analyzer block on. -/
def matchConfig (conf : TsConf) (ingress : Bool) (blk : BlkId) (engId : Engine) (msg : PtpMsgType) (flow : Nat)
    (ptp : PtpConf) : Call H Unit := do
  writeCsr bus blk (ptpFlow (engineOffset engId) flow .ena)
    (tsBit 0 ||| bitfield 3 4 2 ||| if engineOffset engId ≠ 0 then tsBit 16 else 0)
  domainConfig bus blk (engineOffset engId) flow ptp
  modifiedClear bus conf ingress blk (engineOffset engId) flow
  let _ ← readCsr bus blk (ptpFlow (engineOffset engId) flow .matchUpper)
  writeCsr bus blk (ptpFlow (engineOffset engId) flow .matchUpper) (~~~msgTypeMask ||| msg.code.setWidth 32 <<< 24)
  let value ← readCsr bus blk (ptpFlow (engineOffset engId) flow .maskUpper)
  writeCsr bus blk (ptpFlow (engineOffset engId) flow .maskUpper) (value ||| msgTypeMask)

/-- The other branch: neither the block nor the offset is set. -/
def matchConfigElse (conf : TsConf) (ingress : Bool) (msg : PtpMsgType) (flow : Nat) (ptp : PtpConf) : Call H Unit := do
  writeCsr bus .anaIng0 (ptpFlow 0 flow .ena) (tsBit 0 ||| bitfield 3 4 2)
  domainConfig bus .anaIng0 0 flow ptp
  modifiedSet bus conf ingress .anaIng0 0 flow
  let value ← readCsr bus .anaIng0 (ptpFlow 0 flow .matchUpper)
  writeCsr bus .anaIng0 (ptpFlow 0 flow .matchUpper) (value &&& ~~~msgTypeMask ||| msg.code.setWidth 32 <<< 24)
  let _ ← readCsr bus .anaIng0 (ptpFlow 0 flow .maskUpper)
  writeCsr bus .anaIng0 (ptpFlow 0 flow .maskUpper) msgTypeMask

/-- `lan80xx_ts_engine_ptp_action_flow_add_priv` -/
def ptpActionFlowAdd (ingress : Bool) (engId : Engine) (msg : PtpMsgType) (flow : Nat) (act : EngineAction) :
    Call H Unit := do
  let conf ← getConf
  if engId = .ptp0 ∨ engId = .ptp1 ∨ engId = .oam2A then
    match anaBlkIdGet engId ingress with
    | none => throw rcError
    | some blk => do
      matchConfig bus conf ingress blk engId msg flow act.ptpConf
      ptpActionFlowConf bus blk flow (actionCmd conf act ingress msg).1 (actionCmd conf act ingress msg).2
  else do
    matchConfigElse bus conf ingress msg flow act.ptpConf
    ptpActionFlowConf bus .anaIng0 flow (actionCmd conf act ingress msg).1 (actionCmd conf act ingress msg).2

end Calls

/-! ## What a flow accepts -/

/-- The bytes of a PTP header. -/
abbrev Header := Nat → BitVec 8

/-- `messageType` -/
def Header.messageType (h : Header) : BitVec 4 := (h 0).setWidth 4

/-- `domainNumber` -/
def Header.domainNumber (h : Header) : BitVec 8 := h 4

/-- The first four bytes. -/
def Header.upper (h : Header) : BitVec 32 := h 0 ++ (h 1 ++ h 2 ++ h 3 : BitVec 24)

/-- The next four bytes. -/
def Header.lower (h : Header) : BitVec 32 := h 4 ++ (h 5 ++ h 6 ++ h 7 : BitVec 24)

/-- The range test: the byte at `PTP_DOMAIN_RANGE_OFFSET` is between the bounds, when the test is on. -/
def InRange (w : BitVec 32) (h : Header) : Prop :=
  w.getLsbD 0 = true →
    w.extractLsb' 8 8 ≤ h (w.extractLsb' 24 5).toNat ∧ h (w.extractLsb' 24 5).toNat ≤ w.extractLsb' 16 8

/-- The registers of a flow accept a header. -/
def Accepts (w : FlowReg → BitVec 32) (h : Header) : Prop :=
  h.upper &&& w .maskUpper = w .matchUpper &&& w .maskUpper ∧
    h.lower &&& w .maskLower = w .matchLower &&& w .maskLower ∧ InRange (w .domainRange) h

/-- The domain of a header is the configured one. -/
def PtpConf.Domain (ptp : PtpConf) (d : BitVec 8) : Prop :=
  if ptp.rangeEn = true then ptp.lower ≤ d ∧ d ≤ ptp.upper else d &&& ptp.mask = ptp.val &&& ptp.mask

/-- The headers that an action flow is for. -/
def Wanted (msg : PtpMsgType) (ptp : PtpConf) (h : Header) : Prop :=
  h.messageType = msg.code ∧ ptp.Domain h.domainNumber

/-- The registers of a flow as the first branch programs them. -/
structure Programmed (cleared : Bool) (msg : PtpMsgType) (ptp : PtpConf) (w : FlowReg → BitVec 32) : Prop where
  matchUpper : w .matchUpper = ~~~msgTypeMask ||| msg.code.setWidth 32 <<< 24
  maskUpper : w .maskUpper = msgTypeMask
  maskLower : w .maskLower = if ptp.rangeEn = true then 0#32 else ptp.mask.setWidth 32 <<< 24
  matchLower : w .matchLower = if cleared = true ∨ ptp.rangeEn = true then 0#32 else ptp.val.setWidth 32 <<< 24
  range : ptp.rangeEn = true → w .domainRange =
    tsBit 0 ||| bitfield 4 24 5 ||| bitfield (ptp.upper.setWidth 32) 16 8 ||| bitfield (ptp.lower.setWidth 32) 8 8
  rangeOff : ptp.rangeEn = false → (w .domainRange).getLsbD 0 = false

section Accept

variable {w : FlowReg → BitVec 32} {h : Header} {msg : PtpMsgType} {ptp : PtpConf} {cleared : Bool}

/-- A word with one byte at the top. -/
theorem top_byte : ∀ b : BitVec 8, (b.setWidth 32 <<< 24 : BitVec 32) = b ++ 0#24 := by decide +kernel

/-- The comparison of a byte at the top. -/
theorem top_compare (b v mask : BitVec 8) (rest : BitVec 24) :
    ((b ++ rest : BitVec 32) &&& mask.setWidth 32 <<< 24 = v.setWidth 32 <<< 24 &&& mask.setWidth 32 <<< 24) ↔
      b &&& mask = v &&& mask := by
  rw [top_byte, top_byte, BitVec.and_append, BitVec.and_append, BitVec.and_zero, BitVec.and_zero]
  constructor
  · intro heq
    have hbyte (x : BitVec 8) : (x ++ 0#24 : BitVec 32).extractLsb' 24 8 = x :=
      BitVec.extractLsb'_append_eq_left
    rw [← hbyte (b &&& mask), heq, hbyte]
  · intro heq
    rw [heq]

/-- The comparison of the message type. -/
theorem type_compare (msg : PtpMsgType) (h : Header) :
    h.upper &&& msgTypeMask = (~~~msgTypeMask ||| msg.code.setWidth 32 <<< 24) &&& msgTypeMask ↔
      h.messageType = msg.code := by
  have hmask : msgTypeMask = (0x0F : BitVec 8).setWidth 32 <<< 24 := by decide
  have hmatch : (~~~msgTypeMask ||| msg.code.setWidth 32 <<< 24) &&& msgTypeMask =
      (msg.code.setWidth 8).setWidth 32 <<< 24 &&& (0x0F : BitVec 8).setWidth 32 <<< 24 := by
    cases msg <;> decide
  have hnibble : ∀ b : BitVec 8, b &&& 0x0F = msg.code.setWidth 8 &&& 0x0F ↔ b.setWidth 4 = msg.code := by
    cases msg <;> decide +kernel
  rw [hmatch, hmask, Header.upper, top_compare, hnibble, Header.messageType]

/-- The fields of the range register. -/
theorem range_fields (upper lower : BitVec 8) :
    let w : BitVec 32 :=
      tsBit 0 ||| bitfield 4 24 5 ||| bitfield (upper.setWidth 32) 16 8 ||| bitfield (lower.setWidth 32) 8 8
    w.getLsbD 0 = true ∧ w.extractLsb' 24 5 = 4 ∧ w.extractLsb' 16 8 = upper ∧ w.extractLsb' 8 8 = lower := by
  have hconst : (tsBit 0 ||| bitfield 4 24 5 : BitVec 32) = 0x04000001 := by decide
  have hupper : ∀ x : BitVec 8, (bitfield (x.setWidth 32) 16 8).getLsbD 0 = false ∧
      (bitfield (x.setWidth 32) 16 8).extractLsb' 24 5 = 0 ∧ (bitfield (x.setWidth 32) 16 8).extractLsb' 16 8 = x ∧
        (bitfield (x.setWidth 32) 16 8).extractLsb' 8 8 = 0 := by decide +kernel
  have hlower : ∀ x : BitVec 8, (bitfield (x.setWidth 32) 8 8).getLsbD 0 = false ∧
      (bitfield (x.setWidth 32) 8 8).extractLsb' 24 5 = 0 ∧ (bitfield (x.setWidth 32) 8 8).extractLsb' 16 8 = 0 ∧
        (bitfield (x.setWidth 32) 8 8).extractLsb' 8 8 = x := by decide +kernel
  obtain ⟨hu0, hu1, hu2, hu3⟩ := hupper upper
  obtain ⟨hl0, hl1, hl2, hl3⟩ := hlower lower
  simp only [hconst, BitVec.getLsbD_or, BitVec.extractLsb'_or, hu0, hu1, hu2, hu3, hl0, hl1, hl2, hl3]
  simp

/-- Which headers the registers accept: the domain is compared with zero where its match word was cleared. -/
theorem accepts_of_programmed (hw : Programmed cleared msg ptp w) : Accepts w h ↔ h.messageType = msg.code ∧
    if ptp.rangeEn = true then ptp.lower ≤ h.domainNumber ∧ h.domainNumber ≤ ptp.upper
    else h.domainNumber &&& ptp.mask = (if cleared = true then 0 else ptp.val) &&& ptp.mask := by
  rw [Accepts, hw.maskUpper, hw.matchUpper, type_compare, hw.maskLower, hw.matchLower]
  refine and_congr_right fun _ => ?_
  by_cases hr : ptp.rangeEn = true
  · have hfields := range_fields ptp.upper ptp.lower
    rw [← hw.range hr] at hfields
    obtain ⟨hena, hoff, hupper, hlower⟩ := hfields
    simp [hr, InRange, hena, hoff, hupper, hlower, Header.domainNumber]
  · have hoff : InRange (w .domainRange) h := fun hena => by
      rw [hw.rangeOff (Bool.eq_false_iff.mpr hr)] at hena
      cases hena
    have hcleared : (if cleared = true ∨ ptp.rangeEn = true then 0#32 else ptp.val.setWidth 32 <<< 24) =
        (if cleared = true then 0 else ptp.val).setWidth 32 <<< 24 := by
      cases cleared <;> simp [hr]
    rw [if_neg hr, if_neg hr, hcleared, Header.lower, top_compare, Header.domainNumber]
    exact and_iff_left hoff

end Accept

/-! ## What the call leaves behind -/

/-- The words of a flow. -/
def flowWords (blk : BlkId) (offset flow : Nat) (m : TsReg → BitVec 32) (r : FlowReg) : BitVec 32 :=
  m (.csr blk (ptpFlow offset flow r))

section Runs

variable {H : Type} (tb : TsBus H) {h₀ : H} {c : TsConf} {w : FlowReg → BitVec 32} {blk : BlkId} {offset flow : Nat}

theorem ptpFlow_inj (ho : offset ≤ 0xF0) {r r' : FlowReg} (h : ptpFlow offset flow r = ptpFlow offset flow r') :
    r = r' := by
  have hidx : r.index = r'.index := by
    unfold ptpFlow at h
    omega
  cases r <;> cases r' <;> first | rfl | cases hidx

theorem flowWords_update (ho : offset ≤ 0xF0) (m : TsReg → BitVec 32) (r : FlowReg) (v : BitVec 32) :
    flowWords blk offset flow (Function.update m (.csr blk (ptpFlow offset flow r)) v) =
      Function.update (flowWords blk offset flow m) r v := by
  funext q
  by_cases hq : q = r
  · subst hq
    rw [flowWords, Function.update_self, Function.update_self]
  · rw [flowWords, Function.update_of_ne fun heq => hq (ptpFlow_inj ho (TsReg.csr.inj heq).2),
      Function.update_of_ne hq, flowWords]

/-- A flow is written. -/
theorem leads_write_flow (ho : offset ≤ 0xF0) (r : FlowReg) (v : BitVec 32) :
    Leads (SeesAs tb h₀ c (flowWords blk offset flow) w) (writeCsr tb.toBus blk (ptpFlow offset flow r) v)
      fun _ => SeesAs tb h₀ c (flowWords blk offset flow) (Function.update w r v) :=
  ends_write_as tb id (fun _ => trivial) fun m hm => by rw [flowWords_update ho, hm]

/-- A register of the flow is read. -/
theorem leads_read_flow {α : Type} {f : BitVec 32 → Call H α} {Q : α → Dev TsConf H → Prop} (r : FlowReg)
    (hf : Leads (SeesAs tb h₀ c (flowWords blk offset flow) w) (f (w r)) Q) :
    Leads (SeesAs tb h₀ c (flowWords blk offset flow) w) (readCsr tb.toBus blk (ptpFlow offset flow r) >>= f) Q := by
  refine ends_read_as tb id (fun _ => trivial) ?_
  rintro m v rfl rfl
  exact hf

/-- The domain is configured. -/
def domainWords (ptp : PtpConf) (w : FlowReg → BitVec 32) : FlowReg → BitVec 32
  | .domainRange =>
    if ptp.rangeEn = true then
      tsBit 0 ||| bitfield 4 24 5 ||| bitfield (ptp.upper.setWidth 32) 16 8 ||| bitfield (ptp.lower.setWidth 32) 8 8
    else w .domainRange &&& ~~~tsBit 0
  | .maskLower => if ptp.rangeEn = true then 0#32 else ptp.mask.setWidth 32 <<< 24
  | .matchLower => if ptp.rangeEn = true then 0#32 else ptp.val.setWidth 32 <<< 24
  | .maskUpper => 0
  | .matchUpper => 0
  | r => w r

theorem leads_domainConfig (ho : offset ≤ 0xF0) (ptp : PtpConf) :
    Leads (SeesAs tb h₀ c (flowWords blk offset flow) w) (domainConfig tb.toBus blk offset flow ptp)
      fun _ => SeesAs tb h₀ c (flowWords blk offset flow) (domainWords ptp w) := by
  unfold domainConfig
  by_cases hr : ptp.rangeEn = true
  · rw [if_pos hr]
    refine (leads_write_flow tb ho _ _).bind fun _ => (leads_write_flow tb ho _ _).bind fun _ =>
      (leads_write_flow tb ho _ _).bind fun _ => (leads_write_flow tb ho _ _).bind fun _ =>
        (leads_write_flow tb ho _ _).weaken ?_ fun _ h => h
    rintro - s ⟨m, hs, hm⟩
    refine ⟨m, hs, hm.trans (funext fun r => ?_)⟩
    cases r <;> simp [domainWords, hr]
  · rw [if_neg hr]
    refine leads_read_flow tb _ ((leads_write_flow tb ho _ _).bind fun _ => (leads_write_flow tb ho _ _).bind fun _ =>
      (leads_write_flow tb ho _ _).bind fun _ => (leads_write_flow tb ho _ _).bind fun _ =>
        (leads_write_flow tb ho _ _).weaken ?_ fun _ h => h)
    rintro - s ⟨m, hs, hm⟩
    refine ⟨m, hs, hm.trans (funext fun r => ?_)⟩
    cases r <;> simp [domainWords, hr]

theorem leads_modifiedClear (ho : offset ≤ 0xF0) {ingress : Bool} :
    Leads (SeesAs tb h₀ c (flowWords blk offset flow) w) (modifiedClear tb.toBus c ingress blk offset flow)
      fun _ => SeesAs tb h₀ c (flowWords blk offset flow)
        (if c.chkIngModified = true ∧ ingress = false then Function.update w .matchLower 0 else w) := by
  unfold modifiedClear
  split
  · exact leads_read_flow tb _ (leads_write_flow tb ho _ _)
  · exact Ends.pure fun _ h => h

/-- The flow is programmed. -/
theorem leads_matchConfig {ingress : Bool} {engId : Engine} {msg : PtpMsgType} {ptp : PtpConf} :
    Leads (SeesAs tb h₀ c (flowWords blk (engineOffset engId) flow) w)
      (matchConfig tb.toBus c ingress blk engId msg flow ptp) fun _ s => ∃ w',
        SeesAs tb h₀ c (flowWords blk (engineOffset engId) flow) w' s ∧
          Programmed (c.chkIngModified && !ingress) msg ptp w' := by
  have ho : engineOffset engId ≤ 0xF0 := by cases engId <;> decide
  unfold matchConfig
  refine (leads_write_flow tb ho _ _).bind fun _ => (leads_domainConfig tb ho ptp).bind fun _ =>
    (leads_modifiedClear tb ho).bind fun _ => leads_read_flow tb _ ((leads_write_flow tb ho _ _).bind fun _ =>
      leads_read_flow tb _ ((leads_write_flow tb ho _ _).weaken ?_ fun _ h => h))
  intro _ s hs
  refine ⟨_, hs, ?_⟩
  have hcleared : (c.chkIngModified && !ingress) = true ↔ c.chkIngModified = true ∧ ingress = false := by
    cases ingress <;> simp
  by_cases hc : c.chkIngModified = true ∧ ingress = false
  · constructor <;> simp +contextual [hc, domainWords, tsBit]
  · have hcl := mt hcleared.mp hc
    constructor <;> simp +contextual [hc, hcl, domainWords, tsBit]

/-- A register that the action is written to. -/
def FlowReg.OfAction (r : FlowReg) : Prop := r = .action ∨ r = .action2 ∨ r = .zeroFieldCtl

theorem Programmed.update {cleared : Bool} {msg : PtpMsgType} {ptp : PtpConf} (hw : Programmed cleared msg ptp w)
    {r : FlowReg} (hr : r.OfAction) (v : BitVec 32) : Programmed cleared msg ptp (Function.update w r v) := by
  have hother {q : FlowReg} (hq : ¬q.OfAction) : Function.update w r v q = w q := by
    refine Function.update_of_ne ?_ _ _
    rintro rfl
    exact hq hr
  constructor
  · rw [hother (by simp [FlowReg.OfAction]), hw.matchUpper]
  · rw [hother (by simp [FlowReg.OfAction]), hw.maskUpper]
  · rw [hother (by simp [FlowReg.OfAction]), hw.maskLower]
  · rw [hother (by simp [FlowReg.OfAction]), hw.matchLower]
  · rw [hother (by simp [FlowReg.OfAction])]
    exact hw.range
  · rw [hother (by simp [FlowReg.OfAction])]
    exact hw.rangeOff

/-- The action is written beside what `P` says. -/
theorem leads_ptpActionFlowConf {P : Dev TsConf H → Prop} {cmd : ActionCmd} {asym : ActionAsym}
    (hP : ∀ r : FlowReg, r.OfAction → ∀ v,
      Leads P (writeCsr tb.toBus blk (ptpFlow (blockOffset blk) flow r) v) fun _ => P) :
    Leads P (ptpActionFlowConf tb.toBus blk flow cmd asym) fun _ => P := by
  have hget : Leads P (getConf : Call H TsConf) fun _ => P := fun s hs => Or.inl ⟨s.conf, s, rfl, hs⟩
  refine hget.bind fun conf => (hP _ (Or.inr (Or.inr rfl)) _).bind fun _ => (hP _ (Or.inl rfl) _).bind fun _ =>
    (hP _ (Or.inr (Or.inl rfl)) _).bind fun _ => ?_
  cases zeroFieldWord conf cmd with
  | none => exact Ends.pure fun _ h => h
  | some value => exact hP _ (Or.inr (Or.inr rfl)) value

theorem blockOffset_eq {engId : Engine} {ingress : Bool} (hb : anaBlkIdGet engId ingress = some blk) :
    blockOffset blk = engineOffset engId := by
  cases engId <;> cases ingress <;> cases hb <;> rfl

/-- Engines 0, 1 and 2A have their flow programmed. -/
theorem programmed_ptpActionFlowAdd {ingress : Bool} {engId : Engine} {msg : PtpMsgType} {act : EngineAction}
    {s s' : Dev TsConf H} {u : Unit} (he : engId = .ptp0 ∨ engId = .ptp1 ∨ engId = .oam2A)
    (hb : anaBlkIdGet engId ingress = some blk) (h : ptpActionFlowAdd tb.toBus ingress engId msg flow act s = .ok u s') :
    Programmed (s.conf.chkIngModified && !ingress) msg act.ptpConf
      (flowWords blk (engineOffset engId) flow (tb.view s'.hw)) := by
  have ho : engineOffset engId ≤ 0xF0 := by cases engId <;> decide
  have hrun : Leads (SeesAs tb s.hw s.conf (flowWords blk (engineOffset engId) flow)
      (flowWords blk (engineOffset engId) flow (tb.view s.hw))) (ptpActionFlowAdd tb.toBus ingress engId msg flow act)
      fun _ t => ∃ w', SeesAs tb s.hw s.conf (flowWords blk (engineOffset engId) flow) w' t ∧
        Programmed (s.conf.chkIngModified && !ingress) msg act.ptpConf w' := by
    refine ends_getConf_as tb ?_
    rw [if_pos he, hb]
    refine (leads_matchConfig tb).bind fun _ => leads_ptpActionFlowConf tb fun r hr v => Ends.ghost fun w' => ?_
    rintro t ⟨ht, hw⟩
    rw [blockOffset_eq hb]
    exact ((leads_write_flow tb ho r v).weaken (fun _ _ hs => ⟨_, hs, hw.update hr v⟩) fun _ hs => hs) t ht
  obtain ⟨w', ⟨m, hs, rfl⟩, hw⟩ := hrun.ok (seesAs_start tb s) h
  rw [hs.2.2]
  exact hw

/-- What is written elsewhere leaves a flow alone. -/
theorem leads_write_beside {blk' : BlkId} (hne : blk' ≠ blk) (a : Nat) (v : BitVec 32) :
    Leads (SeesAs tb h₀ c (flowWords blk offset flow) w) (writeCsr tb.toBus blk' a v)
      fun _ => SeesAs tb h₀ c (flowWords blk offset flow) w := by
  refine ends_write_as tb id (fun _ => trivial) fun m hm => ?_
  rw [← hm]
  funext r
  exact Function.update_of_ne (fun heq => hne (TsReg.csr.inj heq).1.symm) _ _

/-- What follows a read of some register. -/
theorem leads_read_any {α : Type} {r : TsReg} {f : BitVec 32 → Call H α} {Q : α → Dev TsConf H → Prop}
    (hf : ∀ v, Leads (SeesAs tb h₀ c (flowWords blk offset flow) w) (f v) Q) :
    Leads (SeesAs tb h₀ c (flowWords blk offset flow) w) (read tb.toBus id r >>= f) Q :=
  ends_read_as tb id (fun _ => trivial) fun _ v _ _ => hf v

theorem leads_domainConfig_beside {blk' : BlkId} (hne : blk' ≠ blk) (offset' flow' : Nat) (ptp : PtpConf) :
    Leads (SeesAs tb h₀ c (flowWords blk offset flow) w) (domainConfig tb.toBus blk' offset' flow' ptp)
      fun _ => SeesAs tb h₀ c (flowWords blk offset flow) w := by
  have hwrite (r : FlowReg) (v : BitVec 32) := @leads_write_beside H tb h₀ c w blk offset flow blk' hne
    (ptpFlow offset' flow' r) v
  unfold domainConfig
  split
  · exact (hwrite _ _).bind fun _ => (hwrite _ _).bind fun _ => (hwrite _ _).bind fun _ => (hwrite _ _).bind fun _ =>
      hwrite _ _
  · exact leads_read_any tb fun _ => (hwrite _ _).bind fun _ => (hwrite _ _).bind fun _ => (hwrite _ _).bind fun _ =>
      (hwrite _ _).bind fun _ => hwrite _ _

/-- The other branch leaves a flow of any other analyzer alone. -/
theorem flowWords_ptpActionFlowAdd_else {ingress : Bool} {engId : Engine} {msg : PtpMsgType} {act : EngineAction}
    {s s' : Dev TsConf H} {u : Unit} (he : ¬(engId = .ptp0 ∨ engId = .ptp1 ∨ engId = .oam2A))
    (hne : .anaIng0 ≠ blk) (h : ptpActionFlowAdd tb.toBus ingress engId msg flow act s = .ok u s') :
    flowWords blk offset flow (tb.view s'.hw) = flowWords blk offset flow (tb.view s.hw) := by
  have hwrite (a : Nat) (v : BitVec 32) := @leads_write_beside H tb s.hw s.conf
    (flowWords blk offset flow (tb.view s.hw)) blk offset flow .anaIng0 hne a v
  have hset : Leads (SeesAs tb s.hw s.conf (flowWords blk offset flow) (flowWords blk offset flow (tb.view s.hw)))
      (modifiedSet tb.toBus s.conf ingress .anaIng0 0 flow)
      fun _ => SeesAs tb s.hw s.conf (flowWords blk offset flow) (flowWords blk offset flow (tb.view s.hw)) := by
    unfold modifiedSet
    split
    · exact leads_read_any tb fun _ => (hwrite _ _).bind fun _ => leads_read_any tb fun _ => hwrite _ _
    · exact Ends.pure fun _ h => h
  have hrun : Leads (SeesAs tb s.hw s.conf (flowWords blk offset flow) (flowWords blk offset flow (tb.view s.hw)))
      (ptpActionFlowAdd tb.toBus ingress engId msg flow act)
      fun _ => SeesAs tb s.hw s.conf (flowWords blk offset flow) (flowWords blk offset flow (tb.view s.hw)) := by
    refine ends_getConf_as tb ?_
    rw [if_neg he]
    refine Ends.bind ?_ fun _ => leads_ptpActionFlowConf tb fun r _ v => hwrite _ v
    exact (hwrite _ _).bind fun _ => (leads_domainConfig_beside tb hne 0 flow act.ptpConf).bind fun _ => hset.bind fun _ =>
      leads_read_any tb fun _ => (hwrite _ _).bind fun _ => leads_read_any tb fun _ => hwrite _ _
  obtain ⟨m, hs, hm⟩ := hrun.ok (seesAs_start tb s) h
  rw [hs.2.2]
  exact hm

end Runs

/-! ## A device in which every access succeeds -/

theorem total_readCsr (blk : BlkId) (a : Nat) : Total (readCsr bench.toBus blk a) := fun s => ⟨_, s, rfl⟩

theorem total_writeCsr (blk : BlkId) (a : Nat) (v : BitVec 32) : Total (writeCsr bench.toBus blk a v) :=
  fun _ => ⟨(), _, rfl⟩

theorem total_domainConfig (blk : BlkId) (offset flow : Nat) (ptp : PtpConf) :
    Total (domainConfig bench.toBus blk offset flow ptp) := by
  have hwrite (r : FlowReg) (v : BitVec 32) := total_writeCsr blk (ptpFlow offset flow r) v
  refine Total.ite ?_ ((total_readCsr _ _).bind fun value => ?_)
  · exact (hwrite _ _).bind fun _ => (hwrite _ _).bind fun _ => (hwrite _ _).bind fun _ => (hwrite _ _).bind fun _ =>
      hwrite _ _
  · exact (hwrite _ _).bind fun _ => (hwrite _ _).bind fun _ => (hwrite _ _).bind fun _ => (hwrite _ _).bind fun _ =>
      hwrite _ _

/-- The call returns. -/
theorem total_ptpActionFlowAdd (ingress : Bool) (engId : Engine) (msg : PtpMsgType) (flow : Nat) (act : EngineAction) :
    Total (ptpActionFlowAdd bench.toBus ingress engId msg flow act) := by
  have hwrite (blk : BlkId) (a : Nat) (v : BitVec 32) := total_writeCsr blk a v
  have haction (blk : BlkId) (cmd : ActionCmd) (asym : ActionAsym) :
      Total (ptpActionFlowConf bench.toBus blk flow cmd asym) := by
    refine Total.get.bind fun s => (hwrite _ _ _).bind fun _ => (hwrite _ _ _).bind fun _ => (hwrite _ _ _).bind fun _ => ?_
    cases zeroFieldWord s.conf cmd with
    | none => exact Total.pure _
    | some value => exact hwrite _ _ _
  refine Total.get.bind fun s => ?_
  by_cases he : engId = .ptp0 ∨ engId = .ptp1 ∨ engId = .oam2A
  · obtain ⟨blk, hb⟩ : ∃ blk, anaBlkIdGet engId ingress = some blk := by
      rcases he with rfl | rfl | rfl <;> exact ⟨_, rfl⟩
    rw [if_pos he, hb]
    refine Total.bind ?_ fun _ => haction _ _ _
    exact (hwrite _ _ _).bind fun _ => (total_domainConfig _ _ _ _).bind fun _ => Total.bind (Total.ite
      ((total_readCsr _ _).bind fun _ => hwrite _ _ _) (Total.pure _)) fun _ => (total_readCsr _ _).bind fun _ =>
        (hwrite _ _ _).bind fun _ => (total_readCsr _ _).bind fun _ => hwrite _ _ _
  · rw [if_neg he]
    refine Total.bind ?_ fun _ => haction _ _ _
    exact (hwrite _ _ _).bind fun _ => (total_domainConfig _ _ _ _).bind fun _ => Total.bind (Total.ite
      ((total_readCsr _ _).bind fun _ => (hwrite _ _ _).bind fun _ => (total_readCsr _ _).bind fun _ => hwrite _ _ _)
      (Total.pure _)) fun _ => (total_readCsr _ _).bind fun _ => (hwrite _ _ _).bind fun _ =>
        (total_readCsr _ _).bind fun _ => hwrite _ _ _

/-! ## What adding a flow has to do -/

/-- After every call that returns, the flow accepts the wanted headers. -/
def FlowRight (ingress : Bool) (engId : Engine) (msg : PtpMsgType) (flow : Nat) (act : EngineAction) (c : TsConf)
    (m : TsReg → BitVec 32) : Prop :=
  ∀ {H : Type} (tb : TsBus H) (s s' : Dev TsConf H) (u : Unit), s.conf = c → tb.view s.hw = m →
    ptpActionFlowAdd tb.toBus ingress engId msg flow act s = .ok u s' → ∀ blk, anaBlkIdGet engId ingress = some blk →
      ∀ h, Accepts (flowWords blk (engineOffset engId) flow (tb.view s'.hw)) h ↔ Wanted msg act.ptpConf h

/-- The domain that is asked for is the one that is compared: it is tested as a range, its match word is not cleared
again, or it is zero under its mask. The flow of engine 2B accepts what it accepted before. -/
def DomainKept (ingress : Bool) (engId : Engine) (msg : PtpMsgType) (flow : Nat) (act : EngineAction) (c : TsConf)
    (m : TsReg → BitVec 32) : Prop :=
  if engId = .oam2B then ∀ blk, anaBlkIdGet engId ingress = some blk →
    ∀ h, Accepts (flowWords blk (engineOffset engId) flow m) h ↔ Wanted msg act.ptpConf h
  else engId = .invalid ∨ act.ptpConf.rangeEn = true ∨ ¬(c.chkIngModified = true ∧ ingress = false) ∨
    act.ptpConf.val &&& act.ptpConf.mask = 0

section Right

variable {ingress : Bool} {engId : Engine} {msg : PtpMsgType} {flow : Nat} {act : EngineAction} {c : TsConf}
  {m : TsReg → BitVec 32}

/-- What was programmed accepts the wanted headers, but for a domain that was cleared. -/
theorem programmed_right_iff {cleared : Bool} {ptp : PtpConf} {w : FlowReg → BitVec 32}
    (hw : Programmed cleared msg ptp w) :
    (∀ h, Accepts w h ↔ Wanted msg ptp h) ↔ ptp.rangeEn = true ∨ cleared = false ∨ ptp.val &&& ptp.mask = 0 := by
  constructor
  · intro h
    by_contra hnot
    push Not at hnot
    obtain ⟨hr, hc, hval⟩ := hnot
    let hdr : Header := fun i => if i = 4 then ptp.val else msg.code.setWidth 8
    have htype : hdr.messageType = msg.code := by cases msg <;> rfl
    have hwanted : Wanted msg ptp hdr := ⟨htype, by rw [PtpConf.Domain, if_neg hr]; rfl⟩
    have haccepts := (accepts_of_programmed hw).mp ((h hdr).mpr hwanted)
    rw [if_neg hr, if_pos (Bool.eq_true_of_not_eq_false hc)] at haccepts
    exact hval (haccepts.2.trans BitVec.zero_and)
  · intro h hdr
    rw [accepts_of_programmed hw, Wanted, PtpConf.Domain]
    refine and_congr_right fun _ => ?_
    by_cases hr : ptp.rangeEn = true
    · rw [if_pos hr, if_pos hr]
    · rw [if_neg hr, if_neg hr]
      rcases h with h | rfl | h
      · exact absurd h hr
      · rfl
      · cases cleared with
        | true =>
          have hzero : 0 &&& ptp.mask = ptp.val &&& ptp.mask := BitVec.zero_and.trans h.symm
          rw [if_pos rfl, hzero]
        | false => rfl

/-- What a call does for an engine that has an analyzer, on some device and on any. -/
theorem flowRight_iff {blk : BlkId} {p : Prop} (hb : anaBlkIdGet engId ingress = some blk)
    (hp : ∀ {H : Type} (tb : TsBus H) (s s' : Dev TsConf H) (u : Unit), s.conf = c → tb.view s.hw = m →
      ptpActionFlowAdd tb.toBus ingress engId msg flow act s = .ok u s' →
        ((∀ h, Accepts (flowWords blk (engineOffset engId) flow (tb.view s'.hw)) h ↔ Wanted msg act.ptpConf h) ↔ p)) :
    FlowRight ingress engId msg flow act c m ↔ p := by
  constructor
  · intro h
    obtain ⟨u, s', hrun⟩ := total_ptpActionFlowAdd ingress engId msg flow act ⟨c, m⟩
    exact (hp bench _ _ _ rfl rfl hrun).mp (h bench _ _ _ rfl rfl hrun blk hb)
  · intro h H tb s s' u hc hm hrun blk' hb'
    obtain rfl : blk = blk' := Option.some.inj (hb.symm.trans hb')
    exact (hp tb s s' u hc hm hrun).mpr h

/-- **A flow accepts the wanted headers where their domain is kept.** -/
theorem ptp_flow_right_iff (ingress : Bool) (engId : Engine) (msg : PtpMsgType) (flow : Nat) (act : EngineAction)
    (c : TsConf) (m : TsReg → BitVec 32) :
    FlowRight ingress engId msg flow act c m ↔ DomainKept ingress engId msg flow act c m := by
  have hprogrammed (he : engId = .ptp0 ∨ engId = .ptp1 ∨ engId = .oam2A) :
      FlowRight ingress engId msg flow act c m ↔ act.ptpConf.rangeEn = true ∨
        ¬(c.chkIngModified = true ∧ ingress = false) ∨ act.ptpConf.val &&& act.ptpConf.mask = 0 := by
    obtain ⟨blk, hb⟩ : ∃ blk, anaBlkIdGet engId ingress = some blk := by
      rcases he with rfl | rfl | rfl <;> exact ⟨_, rfl⟩
    refine flowRight_iff hb fun tb s s' u hc _ hrun => ?_
    rw [programmed_right_iff (programmed_ptpActionFlowAdd tb he hb hrun), hc]
    cases ingress <;> simp
  unfold DomainKept
  cases engId with
  | ptp0 => simpa using hprogrammed (Or.inl rfl)
  | ptp1 => simpa using hprogrammed (Or.inr (Or.inl rfl))
  | oam2A => simpa using hprogrammed (Or.inr (Or.inr rfl))
  | oam2B =>
    rw [if_pos rfl]
    obtain ⟨blk, hb⟩ : ∃ blk, anaBlkIdGet .oam2B ingress = some blk := ⟨_, rfl⟩
    have hne : .anaIng0 ≠ blk := by cases ingress <;> cases hb <;> decide
    refine flowRight_iff hb fun tb s s' u _ hm hrun => ?_
    rw [flowWords_ptpActionFlowAdd_else tb (by decide) hne hrun, hm]
    constructor
    · intro h blk' hb'
      obtain rfl : blk = blk' := Option.some.inj (hb.symm.trans hb')
      exact h
    · exact fun h => h blk hb
  | invalid =>
    rw [if_neg (by decide)]
    refine iff_of_true (fun tb s s' u _ _ _ blk hb => ?_) (Or.inl rfl)
    cases hb

/-- A Sync in domain 5, in egress, where frames are checked for having been modified. -/
theorem not_ptp_flow_right : ¬∀ (ingress : Bool) (engId : Engine) (msg : PtpMsgType) (flow : Nat) (act : EngineAction)
    (c : TsConf) (m : TsReg → BitVec 32), FlowRight ingress engId msg flow act c m := by
  intro h
  let act : EngineAction := ⟨⟨false, 0, 0, 5, 0xFF⟩, .bc1Step, .e2e, false, false⟩
  obtain ⟨u, s', hrun⟩ := total_ptpActionFlowAdd false .ptp0 .sync 0 act ⟨{ chkIngModified := true }, fun _ => 0⟩
  have hright := h false .ptp0 .sync 0 act _ _ bench _ _ _ rfl rfl hrun .anaEgr0 rfl
  have hw := @programmed_ptpActionFlowAdd _ bench .anaEgr0 0 false .ptp0 .sync act _ _ _ (Or.inl rfl) rfl hrun
  exact absurd ((programmed_right_iff hw).mp hright) (by decide)

end Right

end Lan80xx.Ts
