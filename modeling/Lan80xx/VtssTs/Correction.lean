import Lan80xx.Lib.RegScript
import Lan80xx.VtssTs.Types
import Mathlib.Tactic.Ring

/-!
# Transparent clocks: commands and the correction field

Each message type of a PTP action is a flow of the analyzer, with one command for ingress and one for egress. A one-step
transparent clock corrects a frame by the two of them together, in one of three modes.

- `flowCommand`: the command of a flow;
- `actionFlowConf`, `actionFlowAdd`: the registers of a flow;
- `FlowAction.exec`: what the hardware does with a frame;
- `ofWords_actionWord`: the command comes back from the registers;
- `tc_correction_iff`: when all frames of a message type leave with the right correction field.
-/

namespace Lan80xx.VtssTs

open Fallible RegBus RegScript

/-! ## Configuration -/

/-- `vtss_phy_ts_ptp_msg_type_t` -/
inductive PtpMsg
  | sync
  | delayReq
  | pdelayReq
  | pdelayResp
  deriving DecidableEq, Repr

/-- `vtss_phy_ts_ptp_clock_mode_t`; `other` stands for its last two values. -/
inductive ClockMode
  | bc1step
  | bc2step
  | tc1step
  | tc2step
  | other
  deriving DecidableEq, Repr

/-- `vtss_phy_ts_ptp_delaym_type_t` -/
inductive PtpDelaym
  | p2p
  | e2e
  deriving DecidableEq, Repr

/-- `vtss_phy_ts_tc_op_mode_t` -/
inductive TcOpMode
  | a
  | b
  | c
  deriving DecidableEq, Repr

/-- The PTP domains of an action. -/
inductive PtpDomain
  | range (upper lower : Byte)
  | value (mask val : Byte)
  deriving DecidableEq, Repr

/-- `vtss_phy_ts_ptp_engine_action_t` of an action that is enabled. -/
structure PtpActionConf where
  channelMap : BitVec 32
  domain : PtpDomain
  clkMode : ClockMode
  delaymType : PtpDelaym
  cfUpdate : Bool
  delayReqRecieveTimestamp : Bool
  deriving DecidableEq, Repr

/-- What the flows use of `phy_ts_port_conf`. `posInPtp` is `VTSS_PHY_TS_RX_TIMESTAMP_POS_IN_PTP`. -/
structure FlowPort where
  tcOpMode : TcOpMode
  posInPtp : Bool
  chkIngModified : Bool
  oneStepTxfifo : Bool
  deriving DecidableEq, Repr

/-! ## The command of a flow -/

/-- `vtss_phy_ts_ptp_action_cmd_t` -/
inductive PtpCmd
  | nop
  | sub
  | add
  | subAdd
  | write1588
  | writeNs
  | writeNsP2p
  | add2
  | sub2
  | saveInTsFifo
  deriving DecidableEq, Repr

/-- `vtss_phy_ts_ptp_action_asym_t` -/
inductive PtpAsym
  | none
  | add
  | sub
  deriving DecidableEq, Repr

section Commands

variable (c : FlowPort) (conf : PtpActionConf)

/-- The three branches on `tc_op_mode`. -/
def TcOpMode.choose {α : Type} (mode : TcOpMode) (inA inB inC : α) : α :=
  match mode with
  | .a => inA
  | .b => inB
  | .c => inC

def syncIngress : PtpCmd × PtpAsym :=
  match conf.clkMode, conf.delaymType with
  | .bc1step, .e2e => (.writeNs, .add)
  | .bc1step, .p2p => (.writeNsP2p, .add)
  | .bc2step, .e2e => (.writeNs, .add)
  | .bc2step, .p2p => (.writeNs, .add)
  | .tc1step, .e2e => c.tcOpMode.choose (.sub, .add) (.writeNs, .add) (.sub2, .add)
  | .tc1step, .p2p => c.tcOpMode.choose (.sub, .add) (.writeNsP2p, .add) (.sub2, .add)
  | .tc2step, .e2e => (.writeNs, .none)
  | .tc2step, .p2p => (.writeNs, .none)
  | .other, _ => (.nop, .none)

def syncEgress : PtpCmd × PtpAsym :=
  match conf.clkMode, conf.delaymType with
  | .bc1step, .e2e => if conf.cfUpdate = false then (.write1588, .none) else (.add, .none)
  | .bc1step, .p2p => if conf.cfUpdate = false then (.write1588, .none) else (.add, .none)
  | .bc2step, .e2e => (.saveInTsFifo, .none)
  | .bc2step, .p2p => (.saveInTsFifo, .none)
  | .tc1step, .e2e => c.tcOpMode.choose (.add, .none) (.subAdd, .none) (.add2, .none)
  | .tc1step, .p2p => c.tcOpMode.choose (.add, .none) (.subAdd, .none) (.add2, .none)
  | .tc2step, .e2e => (.saveInTsFifo, .none)
  | .tc2step, .p2p => (.saveInTsFifo, .none)
  | .other, _ => (.nop, .none)

def delayReqIngress : PtpCmd × PtpAsym :=
  if conf.delayReqRecieveTimestamp = true ∧ (conf.clkMode = .bc1step ∨ conf.clkMode = .bc2step) then (.write1588, .none)
  else
    match conf.clkMode, conf.delaymType with
    | .bc1step, .e2e => (.writeNs, .none)
    | .bc2step, .e2e => (.writeNs, .none)
    | .tc1step, .e2e => c.tcOpMode.choose (.sub, .none) (.writeNs, .none) (.sub2, .none)
    | .tc2step, .e2e => (.writeNs, .none)
    | _, _ => (.nop, .none)

def delayReqEgress : PtpCmd × PtpAsym :=
  match conf.clkMode, conf.delaymType with
  | .bc1step, .e2e => if c.oneStepTxfifo then (.saveInTsFifo, .sub) else (.subAdd, .sub)
  | .bc2step, .e2e => (.saveInTsFifo, .none)
  | .tc1step, .e2e => c.tcOpMode.choose (.add, .sub) (.subAdd, .sub) (.add2, .sub)
  | .tc2step, .e2e => (.saveInTsFifo, .none)
  | _, _ => (.nop, .none)

def pdelayReqIngress : PtpCmd × PtpAsym :=
  match conf.clkMode, conf.delaymType with
  | .bc1step, .p2p => (.writeNs, .none)
  | .bc2step, .p2p => (.writeNs, .none)
  | .tc1step, .e2e => c.tcOpMode.choose (.sub, .none) (.writeNs, .none) (.sub2, .none)
  | .tc1step, .p2p => c.tcOpMode.choose (.sub, .none) (.writeNs, .none) (.sub2, .none)
  | .tc2step, .e2e => (.writeNs, .none)
  | .tc2step, .p2p => (.writeNs, .none)
  | _, _ => (.nop, .none)

def pdelayReqEgress : PtpCmd × PtpAsym :=
  match conf.clkMode, conf.delaymType with
  | .bc1step, .p2p => if c.oneStepTxfifo then (.saveInTsFifo, .sub) else (.subAdd, .sub)
  | .bc2step, .p2p => (.saveInTsFifo, .none)
  | .tc1step, .e2e => c.tcOpMode.choose (.add, .sub) (.subAdd, .sub) (.add2, .sub)
  | .tc1step, .p2p => if c.oneStepTxfifo then (.saveInTsFifo, .sub) else (.subAdd, .sub)
  | .tc2step, .e2e => (.saveInTsFifo, .none)
  | .tc2step, .p2p => (.saveInTsFifo, .none)
  | _, _ => (.nop, .none)

def pdelayRespIngress : PtpCmd × PtpAsym :=
  match conf.clkMode, conf.delaymType with
  | .bc1step, .p2p => (.writeNs, .add)
  | .bc2step, .p2p => (.writeNs, .add)
  | .tc1step, .e2e => c.tcOpMode.choose (.sub, .add) (.writeNs, .add) (.sub2, .add)
  | .tc1step, .p2p => (.writeNs, .add)
  | .tc2step, .e2e => (.writeNs, .none)
  | .tc2step, .p2p => (.writeNs, .add)
  | _, _ => (.nop, .none)

def pdelayRespEgress : PtpCmd × PtpAsym :=
  match conf.clkMode, conf.delaymType with
  | .bc1step, .p2p => (.subAdd, .none)
  | .bc2step, .p2p => (.saveInTsFifo, .none)
  | .tc1step, .e2e => c.tcOpMode.choose (.add, .none) (.subAdd, .none) (.add2, .none)
  | .tc1step, .p2p => c.tcOpMode.choose (.add, .none) (.subAdd, .none) (.add2, .none)
  | .tc2step, .e2e => (.saveInTsFifo, .none)
  | .tc2step, .p2p => (.saveInTsFifo, .none)
  | _, _ => (.nop, .none)

/-- The branches of `vtss_phy_ts_engine_ptp_action_flow_add_priv`. -/
def flowCommand (ingress : Bool) (msg : PtpMsg) : PtpCmd × PtpAsym :=
  match msg with
  | .sync => if ingress then syncIngress c conf else syncEgress c conf
  | .delayReq => if ingress then delayReqIngress c conf else delayReqEgress c conf
  | .pdelayReq => if ingress then pdelayReqIngress c conf else pdelayReqEgress c conf
  | .pdelayResp => if ingress then pdelayRespIngress c conf else pdelayRespEgress c conf

end Commands

/-! ## The registers of a flow -/

/-- The registers of a flow of a PTP comparator. -/
inductive FlowField
  | flowEna
  | domainRange
  | maskLower
  | maskUpper
  | matchLower
  | matchUpper
  | action
  | action2
  | zeroFieldCtl
  deriving DecidableEq, Repr

/-- The analyzers of one direction of a port; engines 2A and 2B share the third. -/
inductive Analyzer
  | eng0
  | eng1
  | eng2
  deriving DecidableEq, Repr

def EngId.analyzer : EngId → Analyzer
  | ptp0 => .eng0
  | ptp1 => .eng1
  | oam2a => .eng2
  | oam2b => .eng2

/-- `PTP_FLOW[index]` of an analyzer. -/
structure FlowReg where
  analyzer : Analyzer
  index : Nat
  field : FlowField
  deriving DecidableEq, Repr

abbrev FlowBus (H : Type) := BitBus FlowReg 32 (fun _ _ => false) H

abbrev FlowAcc := Access FlowReg 32

/-- `PTP_COMMAND` -/
def PtpCmd.code : PtpCmd → BitVec 32
  | nop => 0
  | sub => 1
  | add => 3
  | subAdd => 4
  | write1588 => 5
  | writeNs => 7
  | writeNsP2p => 8
  | add2 => 9
  | sub2 => 10
  | saveInTsFifo => 0

/-- `PTP_ADD_DELAY_ASYM_ENA`, `PTP_SUB_DELAY_ASYM_ENA` -/
def PtpAsym.bits : PtpAsym → BitVec 32
  | none => 0
  | add => 1#32 <<< 20
  | sub => 1#32 <<< 21

/-- `rx_ts_pos` -/
def FlowPort.rxTsPos (c : FlowPort) : BitVec 32 := if c.posInPtp then 16 else 0

/-- `PTP_MOD_FRAME_STAT_UPDATE`, `PTP_MOD_FRAME_BYTE_OFFSET` -/
def FlowPort.modFrame (c : FlowPort) : BitVec 32 := if c.chkIngModified then 1#32 <<< 28 ||| 6#32 <<< 24 else 0

/-- `PTP_ACTION` -/
def actionWord (c : FlowPort) (cmd : PtpCmd) (asym : PtpAsym) : BitVec 32 :=
  match cmd with
  | .nop => 8#32 <<< 10 ||| cmd.code
  | .subAdd => c.rxTsPos <<< 10 ||| cmd.code ||| 8#32 <<< 5 ||| asym.bits ||| c.modFrame
  | .write1588 => 8#32 <<< 10 ||| cmd.code ||| 8#32 <<< 5 ||| asym.bits
  -- the correction field is not written by a NOP
  | .saveInTsFifo =>
    8#32 <<< 10 ||| 1#32 <<< 4 ||| 8#32 <<< 5 ||| asym.bits ||| (if asym = .none then 0 else PtpCmd.write1588.code)
  | _ => 8#32 <<< 10 ||| cmd.code ||| 8#32 <<< 5 ||| asym.bits ||| c.modFrame

/-- `PTP_ACTION_2` -/
def action2Word (c : FlowPort) (cmd : PtpCmd) : BitVec 32 :=
  match cmd with
  | .nop | .saveInTsFifo => 0
  | .write1588 => 34#32 <<< 8 ||| 10
  | .writeNs | .writeNsP2p => if c.posInPtp then c.rxTsPos <<< 8 ||| 4 else 0xE
  | _ => 8#32 <<< 8 ||| 8

/-- `vtss_phy_ts_engine_ptp_action_flow_conf_priv`. Its two halves, for engines 0 and 1 and for 2A and 2B, differ in the
names of the registers only. -/
def actionFlowConf (c : FlowPort) (eng : Analyzer) (index : Nat) (cmd : PtpCmd) (asym : PtpAsym) : List FlowAcc :=
  [.wr ⟨eng, index, .zeroFieldCtl⟩ 0xC000, .wr ⟨eng, index, .action⟩ (actionWord c cmd asym),
    .wr ⟨eng, index, .action2⟩ (action2Word c cmd)] ++
    match cmd with
    | .add | .add2 => [.wr ⟨eng, index, .zeroFieldCtl⟩ 0]
    | .subAdd => [.wr ⟨eng, index, .zeroFieldCtl⟩ (c.rxTsPos <<< 8 ||| 4)]
    | _ => []

/-- `PTP_FLOW_ENA` -/
def flowEnaWord (e : EngId) (conf : PtpActionConf) : BitVec 32 :=
  1 ||| (conf.channelMap &&& 3) <<< 4 |||
    match e with
    | .ptp0 | .ptp1 => 0
    | .oam2a => 1#32 <<< 16
    | .oam2b => 2#32 <<< 16

/-- The domains that a flow matches. -/
def domainAccesses (eng : Analyzer) (index : Nat) : PtpDomain → List FlowAcc
  | .range upper lower =>
    [.wr ⟨eng, index, .domainRange⟩ (1 ||| 4#32 <<< 24 ||| upper.setWidth 32 <<< 16 ||| lower.setWidth 32 <<< 8),
      .wr ⟨eng, index, .maskLower⟩ 0, .wr ⟨eng, index, .maskUpper⟩ 0, .wr ⟨eng, index, .matchLower⟩ 0,
      .wr ⟨eng, index, .matchUpper⟩ 0]
  | .value mask val =>
    [.modify ⟨eng, index, .domainRange⟩ 1 0, .wr ⟨eng, index, .maskLower⟩ (mask.setWidth 32 <<< 24),
      .wr ⟨eng, index, .matchLower⟩ (val.setWidth 32 <<< 24), .wr ⟨eng, index, .maskUpper⟩ 0,
      .wr ⟨eng, index, .matchUpper⟩ 0]

/-- The type of the message in its first byte. -/
def PtpMsg.code : PtpMsg → BitVec 32
  | sync => 0
  | delayReq => 1
  | pdelayReq => 2
  | pdelayResp => 3

/-- The part of `vtss_phy_ts_engine_ptp_action_flow_add_priv` before its branches: the frames that the flow matches. -/
def matchAccesses (c : FlowPort) (ingress : Bool) (e : EngId) (msg : PtpMsg) (index : Nat) (conf : PtpActionConf) :
    List FlowAcc :=
  .wr ⟨e.analyzer, index, .flowEna⟩ (flowEnaWord e conf) :: domainAccesses e.analyzer index conf.domain ++
    (if c.chkIngModified = true ∧ ingress = false then
      [.modify ⟨e.analyzer, index, .matchLower⟩ 0 0x8000, .modify ⟨e.analyzer, index, .maskLower⟩ 0 0xf000]
    else []) ++
      [.modify ⟨e.analyzer, index, .matchUpper⟩ 0x0F000000 (msg.code <<< 24),
        .modify ⟨e.analyzer, index, .maskUpper⟩ 0 0x0F000000]

def flowAccesses (c : FlowPort) (ingress : Bool) (e : EngId) (msg : PtpMsg) (index : Nat) (conf : PtpActionConf) :
    List FlowAcc :=
  matchAccesses c ingress e msg index conf ++ actionFlowConf c e.analyzer index (flowCommand c conf ingress msg).1
    (flowCommand c conf ingress msg).2

/-- `vtss_phy_ts_engine_ptp_action_flow_add_priv` -/
def actionFlowAdd {C H : Type} (bus : Bus FlowReg 32 H) (c : FlowPort) (ingress : Bool) (e : EngId) (msg : PtpMsg)
    (index : Nat) (conf : PtpActionConf) : EStateM Rc (Dev C H) Unit :=
  runAll bus Rc.access (flowAccesses c ingress e msg index conf)

/-! ## What the hardware does with a frame -/

/-- Where a frame carries a timestamp: at an offset of the PTP header, or behind the frame. -/
inductive TsPlace
  | offset (n : BitVec 8)
  | atEnd
  deriving DecidableEq, Repr

/-- A PTP frame: its correction field, and what it carries at these places. -/
structure PtpFrame where
  correction : Int
  carried : TsPlace → Int

/-- The delays that are programmed in the timestamp block of a port. -/
structure PortDelays where
  pathDelay : Int
  asymmetry : Int

/-- The fields of `PTP_ACTION` and `PTP_ACTION_2` that the timestamp block and the rewriter look at. -/
structure FlowAction where
  command : BitVec 4
  addAsym : Bool
  subAsym : Bool
  timeStrgFieldOffset : BitVec 6
  rewriteOffset : BitVec 8
  rewriteBytes : BitVec 4
  deriving DecidableEq, Repr

namespace FlowAction

def ofWords (action action2 : BitVec 32) : FlowAction where
  command := action.extractLsb' 0 4
  addAsym := action.getLsbD 20
  subAsym := action.getLsbD 21
  timeStrgFieldOffset := action.extractLsb' 10 6
  rewriteOffset := action2.extractLsb' 8 8
  rewriteBytes := action2.extractLsb' 0 4

/-- Where `WRITE_NS` stores the time; `0xE` appends it. -/
def writeTo (a : FlowAction) : TsPlace := if a.rewriteBytes = 0xE then .atEnd else .offset a.rewriteOffset

/-- Where `SUB_ADD` finds the stored time. -/
def readFrom (a : FlowAction) : TsPlace :=
  if a.timeStrgFieldOffset = 0 then .atEnd else .offset (a.timeStrgFieldOffset.setWidth 8)

/-- The command: `SUB`, `ADD`, `SUB_ADD`, `WRITE_NS`, `WRITE_NS_P2P`, `ADD_2` and `SUB_2`. The others leave the correction
field and the stored time alone. -/
def runCommand (a : FlowAction) (d : PortDelays) (now : Int) (f : PtpFrame) : PtpFrame :=
  if a.command = 1 ∨ a.command = 10 then { f with correction := f.correction - now }
  else if a.command = 3 ∨ a.command = 9 then { f with correction := f.correction + now }
  else if a.command = 4 then { f with correction := f.correction + (now - f.carried a.readFrom) }
  else if a.command = 7 then { f with carried := Function.update f.carried a.writeTo now }
  else if a.command = 8 then
    { correction := f.correction + d.pathDelay, carried := Function.update f.carried a.writeTo now }
  else f

/-- The command and the asymmetry. -/
def exec (a : FlowAction) (d : PortDelays) (now : Int) (f : PtpFrame) : PtpFrame :=
  let f' := a.runCommand d now f
  { f' with correction := f'.correction + (if a.addAsym then d.asymmetry else 0) -
      (if a.subAsym then d.asymmetry else 0) }

end FlowAction

/-- The action of a flow. -/
def flowAction (m : Bits FlowReg 32) (e : EngId) (index : Nat) : FlowAction :=
  .ofWords (regWord m ⟨e.analyzer, index, .action⟩) (regWord m ⟨e.analyzer, index, .action2⟩)

/-! ## The command comes back -/

/-- The action that a command asks for. -/
def FlowAction.ofCommand (c : FlowPort) (cmd : PtpCmd) (asym : PtpAsym) : FlowAction :=
  .ofWords (actionWord c cmd asym) (action2Word c cmd)

section Registers

variable {C H : Type} (rf : FlowBus H) {c : FlowPort} {ingress : Bool} {e : EngId} {msg : PtpMsg} {index : Nat}
  {conf : PtpActionConf}

theorem actionFlowConf_bits (c : FlowPort) (e : EngId) (index : Nat) (cmd : PtpCmd) (asym : PtpAsym) (as : List FlowAcc)
    (b : Fin 32) : lastBit (as ++ actionFlowConf c e.analyzer index cmd asym) ⟨e.analyzer, index, .action⟩ b =
        some ((actionWord c cmd asym).getLsbD b) ∧
      lastBit (as ++ actionFlowConf c e.analyzer index cmd asym) ⟨e.analyzer, index, .action2⟩ b =
        some ((action2Word c cmd).getLsbD b) := by
  rw [lastBit_append, lastBit_append]
  cases cmd <;> simp [actionFlowConf, lastBit, Access.bit]

/-- The registers of a flow, after it has been added. -/
theorem flowAction_of_ok {s s' : Dev C H} (hok : actionFlowAdd rf.toBus c ingress e msg index conf s = .ok () s') :
    flowAction (rf.view s'.hw) e index =
      .ofCommand c (flowCommand c conf ingress msg).1 (flowCommand c conf ingress msg).2 := by
  have hbits := actionFlowConf_bits c e index (flowCommand c conf ingress msg).1 (flowCommand c conf ingress msg).2
    (matchAccesses c ingress e msg index conf)
  have haction := regWord_applyAll (fun _ _ => false) (m := rf.view s.hw) (fun _ => rfl) fun b => (hbits b).1
  have haction2 := regWord_applyAll (fun _ _ => false) (m := rf.view s.hw) (fun _ => rfl) fun b => (hbits b).2
  rw [flowAction, view_of_ok rf Rc.access hok, flowAccesses, haction, haction2]
  rfl

end Registers

/-- What a command does to the correction field, and what it stores. -/
def PtpCmd.effect (cmd : PtpCmd) (d : PortDelays) (now stored : Int) : Int :=
  match cmd with
  | .sub | .sub2 => -now
  | .add | .add2 => now
  | .subAdd => now - stored
  | .writeNsP2p => d.pathDelay
  | _ => 0

def PtpAsym.effect (asym : PtpAsym) (d : PortDelays) : Int :=
  match asym with
  | .none => 0
  | .add => d.asymmetry
  | .sub => -d.asymmetry

/-- Where the received timestamp is carried. -/
def FlowPort.place (c : FlowPort) : TsPlace := if c.posInPtp then .offset 16 else .atEnd

/-- The commands of one-step transparent clocks. -/
def PtpCmd.IsTc (cmd : PtpCmd) : Prop := cmd ∈ [sub, add, subAdd, writeNs, writeNsP2p, add2, sub2]

instance (cmd : PtpCmd) : Decidable cmd.IsTc := inferInstanceAs (Decidable (_ ∈ _))

section Exec

variable {c : FlowPort} {cmd : PtpCmd} {asym : PtpAsym} {d : PortDelays} {now : Int} {f : PtpFrame}

/-- The words depend on two fields of the configuration. -/
theorem ofCommand_eq :
    FlowAction.ofCommand c cmd asym = .ofCommand ⟨.a, c.posInPtp, c.chkIngModified, false⟩ cmd asym := rfl

theorem ofCommand_command (htc : cmd.IsTc) : (FlowAction.ofCommand c cmd asym).command = cmd.code.setWidth 4 := by
  rw [ofCommand_eq]
  generalize c.posInPtp = pos, c.chkIngModified = chk
  revert pos chk
  cases cmd <;> first
    | exact absurd htc (by decide)
    | cases asym <;> decide

theorem ofCommand_addAsym (htc : cmd.IsTc) : (FlowAction.ofCommand c cmd asym).addAsym = decide (asym = .add) := by
  rw [ofCommand_eq]
  generalize c.posInPtp = pos, c.chkIngModified = chk
  revert pos chk
  cases cmd <;> first
    | exact absurd htc (by decide)
    | cases asym <;> decide

theorem ofCommand_subAsym (htc : cmd.IsTc) : (FlowAction.ofCommand c cmd asym).subAsym = decide (asym = .sub) := by
  rw [ofCommand_eq]
  generalize c.posInPtp = pos, c.chkIngModified = chk
  revert pos chk
  cases cmd <;> first
    | exact absurd htc (by decide)
    | cases asym <;> decide

theorem ofCommand_readFrom : (FlowAction.ofCommand c .subAdd asym).readFrom = c.place := by
  rw [ofCommand_eq, FlowPort.place]
  generalize c.posInPtp = pos, c.chkIngModified = chk
  revert pos chk
  cases asym <;> decide

theorem ofCommand_writeTo (htc : cmd = .writeNs ∨ cmd = .writeNsP2p) :
    (FlowAction.ofCommand c cmd asym).writeTo = c.place := by
  rw [ofCommand_eq, FlowPort.place]
  generalize c.posInPtp = pos, c.chkIngModified = chk
  revert pos chk
  rcases htc with rfl | rfl <;> cases asym <;> decide

theorem exec_correction (htc : cmd.IsTc) : ((FlowAction.ofCommand c cmd asym).exec d now f).correction =
    f.correction + cmd.effect d now (f.carried c.place) + asym.effect d := by
  have hrun : ((FlowAction.ofCommand c cmd asym).runCommand d now f).correction =
      f.correction + cmd.effect d now (f.carried c.place) := by
    rw [FlowAction.runCommand, ofCommand_command htc]
    cases cmd <;> first
      | (exact absurd htc (by decide))
      | simp [PtpCmd.code, PtpCmd.effect, ofCommand_readFrom, Int.sub_eq_add_neg]
  rw [FlowAction.exec, hrun, ofCommand_addAsym htc, ofCommand_subAsym htc]
  cases asym <;> simp [PtpAsym.effect, Int.sub_eq_add_neg]

/-- `WRITE_NS` and `WRITE_NS_P2P` store the time where `SUB_ADD` reads it. -/
theorem exec_carried (htc : cmd = .writeNs ∨ cmd = .writeNsP2p) :
    ((FlowAction.ofCommand c cmd asym).exec d now f).carried = Function.update f.carried c.place now := by
  have hcommand : (FlowAction.ofCommand c cmd asym).command = cmd.code.setWidth 4 :=
    ofCommand_command (by rcases htc with rfl | rfl <;> decide)
  rw [FlowAction.exec, FlowAction.runCommand, hcommand, ofCommand_writeTo htc]
  rcases htc with rfl | rfl <;> rfl

end Exec

/-! ## One-step transparent clocks -/

/-- The messages that a one-step transparent clock forwards: all of them end to end, and `Sync` peer to peer. -/
def TcForwards (msg : PtpMsg) (delaym : PtpDelaym) : Prop := msg = .sync ∨ delaym = .e2e

/-- What is added besides the time in the clock: the path delay and the asymmetry of the link that the frame comes from, or
else the asymmetry of the link that it goes to is taken off. -/
def linkCorrection (msg : PtpMsg) (delaym : PtpDelaym) (din deg : PortDelays) : Int :=
  match msg with
  | .sync => (if delaym = .p2p then din.pathDelay else 0) + din.asymmetry
  | .pdelayResp => din.asymmetry
  | .delayReq | .pdelayReq => -deg.asymmetry

/-- Every frame leaves with the time that it has spent in the clock, and the correction for the links. -/
def Corrects (ingr egr : FlowAction) (din deg : PortDelays) (msg : PtpMsg) (delaym : PtpDelaym) : Prop :=
  ∀ (f : PtpFrame) (arrival departure : Int), (egr.exec deg departure (ingr.exec din arrival f)).correction =
    f.correction + (departure - arrival) + linkCorrection msg delaym din deg

/-- The path delay is added in mode B only; and there both ports carry the received timestamp in the same place. -/
def TcAgrees (cin ceg : FlowPort) (msg : PtpMsg) (delaym : PtpDelaym) (din : PortDelays) : Prop :=
  (msg = .sync ∧ delaym = .p2p → cin.tcOpMode = .b ∨ din.pathDelay = 0) ∧
    (cin.tcOpMode = .b → cin.posInPtp = ceg.posInPtp)

section Tc

variable {c cin ceg : FlowPort} {conf : PtpActionConf} {msg : PtpMsg} {delaym : PtpDelaym} {din deg : PortDelays}

/-- The command for ingress. -/
def tcIngress (mode : TcOpMode) (msg : PtpMsg) (delaym : PtpDelaym) : PtpCmd × PtpAsym :=
  (mode.choose .sub (if msg = .sync ∧ delaym = .p2p then .writeNsP2p else .writeNs) .sub2,
    if msg = .sync ∨ msg = .pdelayResp then .add else .none)

/-- The command for egress. -/
def tcEgress (mode : TcOpMode) (msg : PtpMsg) : PtpCmd × PtpAsym :=
  (mode.choose .add .subAdd .add2, if msg = .sync ∨ msg = .pdelayResp then .none else .sub)

theorem flowCommand_tcIngress (hclk : conf.clkMode = .tc1step) (hmsg : TcForwards msg conf.delaymType) :
    flowCommand c conf true msg = tcIngress c.tcOpMode msg conf.delaymType := by
  rcases c with ⟨mode, pos, chk, fifo⟩
  cases hd : conf.delaymType <;> cases msg <;> cases mode <;>
    simp_all [TcForwards, flowCommand, tcIngress, syncIngress, delayReqIngress, pdelayReqIngress, pdelayRespIngress,
      TcOpMode.choose]

theorem flowCommand_tcEgress (hclk : conf.clkMode = .tc1step) (hmsg : TcForwards msg conf.delaymType) :
    flowCommand c conf false msg = tcEgress c.tcOpMode msg := by
  rcases c with ⟨mode, pos, chk, fifo⟩
  cases hd : conf.delaymType <;> cases msg <;> cases mode <;>
    simp_all [TcForwards, flowCommand, tcEgress, syncEgress, delayReqEgress, pdelayReqEgress, pdelayRespEgress,
      TcOpMode.choose]

theorem tcIngress_isTc (mode : TcOpMode) : (tcIngress mode msg delaym).1.IsTc := by
  cases mode <;> cases msg <;> cases delaym <;> decide

theorem tcEgress_isTc (mode : TcOpMode) : (tcEgress mode msg).1.IsTc := by
  cases mode <;> cases msg <;> decide

/-- The asymmetries of the two commands. -/
theorem tcAsym_effect (msg : PtpMsg) (delaym : PtpDelaym) (din deg : PortDelays) (mode : TcOpMode) :
    (tcIngress mode msg delaym).2.effect din + (tcEgress mode msg).2.effect deg =
      linkCorrection msg delaym din deg - (if msg = .sync ∧ delaym = .p2p then din.pathDelay else 0) := by
  cases msg <;> cases delaym <;> simp [tcIngress, tcEgress, PtpAsym.effect, linkCorrection]

/-- The correction field of a frame, after both commands. -/
theorem tc_correction (f : PtpFrame) (arrival departure : Int) :
    ((FlowAction.ofCommand ceg (tcEgress ceg.tcOpMode msg).1 (tcEgress ceg.tcOpMode msg).2).exec deg departure
      ((FlowAction.ofCommand cin (tcIngress cin.tcOpMode msg delaym).1 (tcIngress cin.tcOpMode msg delaym).2).exec din
        arrival f)).correction =
      f.correction + (tcIngress cin.tcOpMode msg delaym).1.effect din arrival (f.carried cin.place) +
        (tcEgress ceg.tcOpMode msg).1.effect deg departure
          (((FlowAction.ofCommand cin (tcIngress cin.tcOpMode msg delaym).1 (tcIngress cin.tcOpMode msg delaym).2).exec din
            arrival f).carried ceg.place) +
          (linkCorrection msg delaym din deg - (if msg = .sync ∧ delaym = .p2p then din.pathDelay else 0)) := by
  rw [exec_correction (tcEgress_isTc _), exec_correction (tcIngress_isTc _),
    ← tcAsym_effect msg delaym din deg cin.tcOpMode]
  have hsame : (tcEgress ceg.tcOpMode msg).2 = (tcEgress cin.tcOpMode msg).2 := rfl
  rw [hsame]
  ring

theorem place_inj : cin.place = ceg.place ↔ cin.posInPtp = ceg.posInPtp := by
  unfold FlowPort.place
  cases cin.posInPtp <;> cases ceg.posInPtp <;> simp

/-- The path delay that is to be added. -/
def wantedDelay (msg : PtpMsg) (delaym : PtpDelaym) (din : PortDelays) : Int :=
  if msg = .sync ∧ delaym = .p2p then din.pathDelay else 0

theorem wantedDelay_eq_zero : wantedDelay msg delaym din = 0 ↔ (msg = .sync ∧ delaym = .p2p → din.pathDelay = 0) := by
  unfold wantedDelay
  split
  · next h => exact ⟨fun hz _ => hz, fun hz => hz h⟩
  · next h => exact ⟨fun _ hs => absurd hs h, fun _ => rfl⟩

/-- What the frame carries where the egress port reads, after the ingress command of mode B. -/
theorem tc_carried (msg : PtpMsg) (delaym : PtpDelaym) (din : PortDelays) (hmode : cin.tcOpMode = .b)
    (f : PtpFrame) (arrival : Int) :
    ((FlowAction.ofCommand cin (tcIngress cin.tcOpMode msg delaym).1 (tcIngress cin.tcOpMode msg delaym).2).exec din
      arrival f).carried = Function.update f.carried cin.place arrival := by
  refine exec_carried ?_
  rw [hmode, tcIngress, TcOpMode.choose]
  by_cases h : msg = .sync ∧ delaym = .p2p
  · exact Or.inr (if_pos h)
  · exact Or.inl (if_neg h)

theorem corrects_iff (hmode : cin.tcOpMode = ceg.tcOpMode) :
    Corrects (.ofCommand cin (tcIngress cin.tcOpMode msg delaym).1 (tcIngress cin.tcOpMode msg delaym).2)
      (.ofCommand ceg (tcEgress ceg.tcOpMode msg).1 (tcEgress ceg.tcOpMode msg).2) din deg msg delaym ↔
        TcAgrees cin ceg msg delaym din := by
  have hwanted : (if msg = .sync ∧ delaym = .p2p then din.pathDelay else 0) = wantedDelay msg delaym din := rfl
  unfold Corrects TcAgrees
  simp only [tc_correction, hwanted]
  cases hm : cin.tcOpMode with
  | b =>
    -- the path delay is added, and the time that is read back is to be the time that was stored
    simp only [← hmode, hm]
    have hin : ∀ now stored, (tcIngress .b msg delaym).1.effect din now stored = wantedDelay msg delaym din := by
      intro now stored
      cases msg <;> cases delaym <;> rfl
    have heg : ∀ now stored, (tcEgress .b msg).1.effect deg now stored = now - stored := fun _ _ => rfl
    have hcarried := tc_carried msg delaym din hm
    simp only [hm] at hcarried
    simp only [hin, heg, hcarried]
    constructor
    · intro h
      refine ⟨fun _ => Or.inl trivial, fun _ => place_inj.mp ?_⟩
      by_contra hplace
      have hval := h ⟨0, fun _ => 1⟩ 0 0
      simp only [Function.update_of_ne (Ne.symm hplace)] at hval
      omega
    · rintro ⟨-, hplace⟩ f arrival departure
      rw [← place_inj.mpr (hplace trivial), Function.update_self]
      ring
  | a =>
    simp only [← hmode, hm]
    have hin : ∀ now stored, (tcIngress .a msg delaym).1.effect din now stored = -now := fun _ _ => rfl
    have heg : ∀ now stored, (tcEgress .a msg).1.effect deg now stored = now := fun _ _ => rfl
    simp only [hin, heg, reduceCtorEq, false_or, false_imp_iff, and_true, ← wantedDelay_eq_zero]
    constructor
    · intro h
      have hval := h ⟨0, fun _ => 0⟩ 0 0
      omega
    · intro h f arrival departure
      omega
  | c =>
    simp only [← hmode, hm]
    have hin : ∀ now stored, (tcIngress .c msg delaym).1.effect din now stored = -now := fun _ _ => rfl
    have heg : ∀ now stored, (tcEgress .c msg).1.effect deg now stored = now := fun _ _ => rfl
    simp only [hin, heg, reduceCtorEq, false_or, false_imp_iff, and_true, ← wantedDelay_eq_zero]
    constructor
    · intro h
      have hval := h ⟨0, fun _ => 0⟩ 0 0
      omega
    · intro h f arrival departure
      omega

/-- **One-step transparent clocks.** All frames of a message type leave with the right correction field when `TcAgrees`
holds of the two ports, and only then. -/
theorem tc_correction_iff {C H C' H' : Type} (rfin : FlowBus H) (rfeg : FlowBus H') {e e' : EngId} {i j : Nat}
    {conf conf' : PtpActionConf} (hclk : conf.clkMode = .tc1step) (hclk' : conf'.clkMode = .tc1step)
    (hdelay : conf.delaymType = conf'.delaymType) (hmode : cin.tcOpMode = ceg.tcOpMode)
    (hmsg : TcForwards msg conf.delaymType) {s s' : Dev C H} {t t' : Dev C' H'}
    (hin : actionFlowAdd rfin.toBus cin true e msg i conf s = .ok () s')
    (heg : actionFlowAdd rfeg.toBus ceg false e' msg j conf' t = .ok () t') :
    Corrects (flowAction (rfin.view s'.hw) e i) (flowAction (rfeg.view t'.hw) e' j) din deg msg conf.delaymType ↔
      TcAgrees cin ceg msg conf.delaymType din := by
  rw [flowAction_of_ok rfin hin, flowAction_of_ok rfeg heg, flowCommand_tcIngress hclk hmsg,
    flowCommand_tcEgress hclk' (hdelay ▸ hmsg)]
  exact corrects_iff hmode

end Tc

/-! `Sync`, peer to peer, from engine 0 of one port to engine 0 of another, with a path delay of 1. -/

abbrev flowStorage := bitStorage FlowReg 32 fun _ _ => false

def flowStart : Dev Unit (FlowReg → BitVec 32) := ⟨(), fun _ => 0⟩

def tcPort (mode : TcOpMode) : FlowPort := ⟨mode, true, false, false⟩

def syncP2p : PtpActionConf := ⟨3, .value 0 0, .tc1step, .p2p, false, false⟩

/-- The device after the flow of `Sync` has been added. -/
def withSync (mode : TcOpMode) (ingress : Bool) : Dev Unit (FlowReg → BitVec 32) :=
  final (actionFlowAdd flowStorage.toBus (tcPort mode) ingress .ptp0 .sync 0 syncP2p) flowStart

theorem tc_correction_modeB :
    Corrects (flowAction (flowStorage.view (withSync .b true).hw) .ptp0 0)
      (flowAction (flowStorage.view (withSync .b false).hw) .ptp0 0) ⟨1, 0⟩ ⟨0, 0⟩ .sync .p2p := by
  have hin : actionFlowAdd flowStorage.toBus (tcPort .b) true .ptp0 .sync 0 syncP2p flowStart = .ok () (withSync .b true) :=
    ok_final rfl
  have heg : actionFlowAdd flowStorage.toBus (tcPort .b) false .ptp0 .sync 0 syncP2p flowStart =
      .ok () (withSync .b false) := ok_final rfl
  exact (tc_correction_iff flowStorage flowStorage rfl rfl rfl rfl (Or.inl rfl) hin heg).mpr
    ⟨fun _ => Or.inl rfl, fun _ => rfl⟩

/-- In mode A, the path delay is missing. -/
theorem not_tc_correction_modeA :
    ¬Corrects (flowAction (flowStorage.view (withSync .a true).hw) .ptp0 0)
      (flowAction (flowStorage.view (withSync .a false).hw) .ptp0 0) ⟨1, 0⟩ ⟨0, 0⟩ .sync .p2p := by
  intro h
  exact absurd (h ⟨0, fun _ => 0⟩ 0 0) (by decide)

end Lan80xx.VtssTs
