import Lan80xx.Macsec.Entries

/-!
# MACsec: match rules and flow control

The TCAM match rule of a record (`saTcamKeyMaskSet`, with the header-bypass variant `cleartagsConfSet`), the flow
control words of a SecY (`saFlowSet`) and the receive-channel CAM entry (`rxScCamSet`).
-/

namespace Lan80xx.Macsec

open Fallible RegBus

variable {H : Type} (bus : PortBus H)

/-! ## Header-bypass mode -/

/-- `LAN80XX_MACSEC_MATCH_*` of `lan80xx_macsec.h`. -/
def cleartagsMatchBvlanTag : BitVec 32 := 0x0001
def cleartagsMatchIvlanTag : BitVec 32 := 0x0002
def cleartagsMatchCvlan : BitVec 32 := 0x0004
def cleartagsMatchMpls1 : BitVec 32 := 0x0008
def cleartagsMatchMpls2 : BitVec 32 := 0x0010

def PacketType.toWord : PacketType → BitVec 32
  | .none => 0
  | .mpls => 1
  | .pbb => 2

/-- The number of MPLS labels each direction can parse. -/
def mplsSupport : Direction → Nat
  | .egress => 9
  | .ingress => 5

/-- The tag count fields of `KEY0`: `no_tags` and `tags_ext`. -/
def cleartagsTags (t : CleartagsConf) : BitVec 32 × BitVec 32 :=
  match t.packetType with
  | .mpls => (if t.numMplsLabel ≤ 6 then bit t.numMplsLabel else 0,
      if 9 < t.numMplsLabel then bit 3 else if 6 < t.numMplsLabel then word (t.numMplsLabel - 6) else 0)
  | .pbb => (bit t.numTag, 0)
  | .none => (0, 0)

/-- The PBB part of `cleartags_conf_set_`. -/
def cleartagsPbbSet (d : Direction) (record : Nat) (t : CleartagsConf) : Call H Unit := do
  csrWr bus (tcamPage0Reg d .key4 record)
    (field ((t.btag.vid >>> 8) &&& 0xFF) 0 4 ||| field t.btag.dei 4 1 ||| field t.btag.pcp 5 3 |||
      field (t.btag.vid &&& 0xFF) 8 8 ||| field ((t.itag.vid >>> 16) &&& 0xFF) 16 8 |||
      field ((t.itag.vid >>> 8) &&& 0xFF) 24 8)
  csrWr bus (tcamPage0Reg d .key5 record)
    (field (t.itag.vid &&& 0xFF) 0 8 ||| field t.itag.dei 8 1 ||| field t.itag.pcp 9 3)
  when (t.numTag ≠ 0) do
    csrWrm bus (tcamPage0Reg d .key5 record)
      (field ((t.outCusVid >>> 8) &&& 0xF) 12 4 ||| field (t.outCusVid &&& 0xFF) 16 8)
      (bitmask 12 4 ||| bitmask 16 8)
  csrWr bus (pbbEnbSelectReg d) (bit 24)

/-- `lab_select`: which two labels of the stack are compared. -/
def mplsLabSelect (t : CleartagsConf) : BitVec 32 := ((t.mpls2Num - 1) <<< 3) ||| (t.mpls1Num - 1)

/-- The MPLS part of `cleartags_conf_set_`. `lab_select` is still 0 when `KEY5` is written. -/
def cleartagsMplsSet (d : Direction) (record : Nat) (t : CleartagsConf) : Call H Unit := do
  csrWr bus (tcamPage0Reg d .key4 record)
    (field ((t.mpls1Label >>> 12) &&& 0xFF) 0 8 ||| field ((t.mpls1Label >>> 4) &&& 0xFF) 8 8 |||
      field t.mpls1S 16 1 ||| field t.mpls1Exp 17 3 ||| field (t.mpls1Label &&& 0xF) 20 4)
  csrWr bus (tcamPage0Reg d .key5 record)
    (field ((t.mpls2Label >>> 12) &&& 0xFF) 0 8 ||| field ((t.mpls2Label >>> 4) &&& 0xFF) 8 8)
  when (t.numMplsLabel = 5) do
    csrWr bus mplsEnbSelectReg (mplsLabSelect t <<< 8)
  when (6 ≤ t.numMplsLabel ∧ t.numMplsLabel ≤ 9) do
    csrWr bus mplsEnbSelect2Reg (mplsLabSelect t <<< ((t.numMplsLabel - 6) * 6))
  csrWrm bus mplsEnbSelectReg (bitmask 24 4) (bitmask 24 4)
  csrWrm bus mplsEnbSelectReg (bit 15) (bit 15)

/-- The TCAM masks of `cleartags_conf_set_`. The branch for `LAN80XX_MACSEC_MATCH_DISABLE`, which is 0, is never
taken. -/
def cleartagsMaskSet (d : Direction) (record : Nat) (t : CleartagsConf) : Call H Unit := do
  when (t.match &&& cleartagsMatchBvlanTag ≠ 0) do
    csrWrm bus (tcamPage0Reg d .mask4 record) (bitmask 0 16) (bitmask 0 16)
  when (t.match &&& cleartagsMatchIvlanTag ≠ 0) do
    csrWrm bus (tcamPage0Reg d .mask4 record) (bitmask 16 16) (bitmask 16 16)
    csrWrm bus (tcamPage0Reg d .mask5 record) (bitmask 0 8) (bitmask 0 8)
  when (t.match &&& cleartagsMatchCvlan ≠ 0) do
    csrWrm bus (tcamPage0Reg d .mask5 record) (bitmask 12 12) (bitmask 12 12)
  when (t.match &&& cleartagsMatchMpls1 ≠ 0) do
    csrWrm bus (tcamPage0Reg d .mask4 record) (bitmask 0 24) (bitmask 0 24)
  when (t.match &&& cleartagsMatchMpls2 ≠ 0) do
    csrWrm bus (tcamPage0Reg d .mask5 record) (bitmask 0 24) (bitmask 0 24)

/-- `lan80xx_macsec_cleartags_conf_set_`. -/
def cleartagsConfSet (d : Direction) (record : Nat) (pattern : MatchPattern) : Call H Unit := do
  let t := (← getConf).glb.cleartagsConf
  failIf (t.packetType = .mpls ∧ mplsSupport d < t.numMplsLabel) .error
  csrWr bus (tcamPage0Reg d .key0 record)
    (field t.packetType.toWord 8 2 ||| field (cleartagsTags t).1 0 6 ||| bit 13 ||| field (cleartagsTags t).2 24 4)
  csrWr bus (tcamPage0Reg d .key1 record) (getU32 pattern.destMac 0)
  csrWr bus (tcamPage0Reg d .key2 record) (byteAt pattern.destMac 4 ||| (byteAt pattern.destMac 5 <<< 8))
  when (t.packetType = .pbb) (cleartagsPbbSet bus d record t)
  when (t.packetType = .mpls) (cleartagsMplsSet bus d record t)
  cleartagsMaskSet bus d record t

section Within

variable {bus} {W : Set (IoReg × Nat)} {d : Direction} {record : Nat}

variable {t : CleartagsConf} (hs : selectBits ⊆ W) (hW : ∀ w, wordBits (tcamPage0Reg d w record) ⊆ W)

include hs hW

theorem within_cleartagsPbbSet : Within (hwFrame bus W) (cleartagsPbbSet bus d record t) := by
  refine (within_csrWr (hW _)).bind fun _ => (within_csrWr (hW _)).bind fun _ => ?_
  refine (Within.when fun _ => within_csrWrm_word (hW _)).bind fun _ => ?_
  exact within_csrWr fun _ hp => hs (Or.inl ⟨d, hp⟩)

theorem within_cleartagsMplsSet : Within (hwFrame bus W) (cleartagsMplsSet bus d record t) := by
  have hm : wordBits mplsEnbSelectReg ⊆ W := fun _ hp => hs (Or.inr (Or.inl hp))
  have hm2 : wordBits mplsEnbSelect2Reg ⊆ W := fun _ hp => hs (Or.inr (Or.inr (Or.inl hp)))
  refine (within_csrWr (hW _)).bind fun _ => (within_csrWr (hW _)).bind fun _ => ?_
  refine (Within.when fun _ => within_csrWr hm).bind fun _ => (Within.when fun _ => within_csrWr hm2).bind fun _ => ?_
  exact (within_csrWrm_word hm).bind fun _ => within_csrWrm_word hm

omit hs in
theorem within_cleartagsMaskSet : Within (hwFrame bus W) (cleartagsMaskSet bus d record t) := by
  have hmask : ∀ w v m, Within (hwFrame bus W) (csrWrm bus (tcamPage0Reg d w record) v m) :=
    fun w v m => within_csrWrm_word (hW w)
  refine (Within.when fun _ => hmask _ _ _).bind fun _ => ?_
  refine (Within.when fun _ => (hmask _ _ _).bind fun _ => hmask _ _ _).bind fun _ => ?_
  refine (Within.when fun _ => hmask _ _ _).bind fun _ => (Within.when fun _ => hmask _ _ _).bind fun _ => ?_
  exact Within.when fun _ => hmask _ _ _

theorem within_cleartagsConfSet {pattern : MatchPattern} :
    Within (hwFrame bus W) (cleartagsConfSet bus d record pattern) := by
  refine within_getConf.bind fun c => Within.failIf.bind fun _ => ?_
  refine (within_csrWr (hW _)).bind fun _ => (within_csrWr (hW _)).bind fun _ => (within_csrWr (hW _)).bind fun _ => ?_
  refine (Within.when fun _ => within_cleartagsPbbSet hs hW).bind fun _ => ?_
  exact (Within.when fun _ => within_cleartagsMplsSet hs hW).bind fun _ => within_cleartagsMaskSet hW

end Within

/-! ## The match rule of a record -/

/-- `lan80xx_macsec_sa_tcam_key_mask_set`; `sc` is the SecY index written to the policy. -/
def saTcamKeyMaskSet (d : Direction) (record secyId sc : Nat) (pattern : MatchPattern) : Call H Unit := do
  let c ← getConf
  if c.glb.cleartags then cleartagsConfSet bus d record pattern
  else
    csrWr bus (tcamReg d .key0 record) (field (bit (c.secy secyId).tagBypass) 0 6 ||| bit 13)
    csrWr bus (tcamReg d .key1 record) (getU32 pattern.destMac 0)
    csrWr bus (tcamReg d .key2 record) (byteAt pattern.destMac 4 ||| (byteAt pattern.destMac 5 <<< 8))
    csrWr bus (tcamReg d .key4 record)
      (macsecBs (pattern.etype.setWidth 32) ||| (macsecBs (pattern.vid.setWidth 32) <<< 16))
    csrWr bus (tcamReg d .key5 record) (macsecBs (pattern.vidInner.setWidth 32) <<< 8)
    failIf (pattern.match &&& matchSmac ≠ 0) .error
    when (pattern.match &&& matchDmac ≠ 0) do
      csrWr bus (tcamReg d .mask1 record) 0xFFFFFFFF
      csrWr bus (tcamReg d .mask2 record) 0xFFFF
    when (pattern.match &&& matchEtype ≠ 0) do
      csrWrm bus (tcamReg d .mask4 record) (field 0xFFFF 0 16) (field 0xFFFF 0 16)
    when (pattern.match &&& matchVlanId ≠ 0 ∧ pattern.match &&& matchHasVlan ≠ 0) do
      csrWrm bus (tcamReg d .mask4 record) (field 0xFF0F 16 16) (field 0xFF0F 16 16)
    when (pattern.match &&& matchVlanIdInner ≠ 0 ∧ pattern.match &&& matchHasVlanInner ≠ 0) do
      csrWr bus (tcamReg d .mask5 record) (field 0xFF0F 8 16)
    when (pattern.match &&& matchDisable ≠ 0) do
      csrWr bus (tcamReg d .mask1 record) 0
      csrWr bus (tcamReg d .mask2 record) 0
      csrWr bus (tcamReg d .mask4 record) 0
      csrWr bus (tcamReg d .mask5 record) 0
    failIf (15 < pattern.priority) .error
    csrWr bus (tcamPolicyReg d record) (field (word sc) 0 6 ||| field (word (15 - pattern.priority)) 27 3)

/-- The words `sa_tcam_key_mask_reset` clears, in its order. -/
def tcamResetWords : List TcamWord :=
  [.key0, .key1, .key2, .key4, .key5, .mask0, .mask1, .mask2, .mask4, .mask5]

/-- `lan80xx_macsec_sa_tcam_key_mask_reset`. -/
def saTcamKeyMaskReset (d : Direction) (record : Nat) : Call H Unit := do
  samEntryCtrl bus record d false
  forUpTo tcamResetWords.length fun k => csrWr bus (tcamReg d (tcamResetWords.getD k .key0) record) 0

/-- `lan80xx_macsec_sa_tcam_policy_unctrl_drop`. -/
def saTcamPolicyUnctrlDrop (record : Nat) (d : Direction) (action : MatchAction) : Call H Unit :=
  csrWrm bus (tcamPolicyReg d record)
    ((if action = .uncontrolledPort then bit 31 else 0) ||| (if action = .drop then bit 30 else 0))
    (bit 31 ||| bit 30)

section Within

variable {bus} {W : Set (IoReg × Nat)} {d : Direction} {record secyId sc : Nat}

/-- The rule is written to the TCAM words of the mode the port is in. -/
theorem steps_saTcamKeyMaskSet {pattern : MatchPattern} {c : MacsecConf} (hs : selectBits ⊆ W)
    (hW : tcamBits c.glb d record ⊆ W) (hpol : policyBits d record ⊆ W) :
    Steps (hwFrame bus W) (fun s => s.conf = c) (saTcamKeyMaskSet bus d record secyId sc pattern)
      fun _ _ => True := by
  have hwr : ∀ w v, Within (hwFrame bus W) (csrWr bus (tcamReg d w record) v) :=
    fun w v => within_csrWr fun _ hp => hW ⟨w, Or.inl hp⟩
  have hwm : ∀ w v m, Within (hwFrame bus W) (csrWrm bus (tcamReg d w record) v m) :=
    fun w v m => within_csrWrm_word fun _ hp => hW ⟨w, Or.inl hp⟩
  refine steps_getConf.bind fun c' => ?_
  refine Steps.pre (P := fun _ => c' = c) ?_ fun s hP => hP.2.trans hP.1
  rintro s rfl
  refine ⟨?_, fun _ _ _ => trivial⟩
  revert s
  refine Within.ite' (fun hct => ?_) fun _ => ?_
  · exact within_cleartagsConfSet hs fun w _ hp => hW ⟨w, Or.inr ⟨hct, hp⟩⟩
  · refine (hwr _ _).bind fun _ => (hwr _ _).bind fun _ => (hwr _ _).bind fun _ => ?_
    refine (hwr _ _).bind fun _ => (hwr _ _).bind fun _ => Within.failIf.bind fun _ => ?_
    refine (Within.when fun _ => (hwr _ _).bind fun _ => hwr _ _).bind fun _ => ?_
    refine (Within.when fun _ => hwm _ _ _).bind fun _ => (Within.when fun _ => hwm _ _ _).bind fun _ => ?_
    refine (Within.when fun _ => hwr _ _).bind fun _ => ?_
    refine (Within.when fun _ => ?_).bind fun _ => Within.failIf.bind fun _ => within_csrWr hpol
    exact (hwr _ _).bind fun _ => (hwr _ _).bind fun _ => (hwr _ _).bind fun _ => hwr _ _

theorem within_saTcamKeyMaskReset (hs : wordBits (samEntryEnableCtrlReg d) ⊆ W)
    (hW : ∀ w, wordBits (tcamReg d w record) ⊆ W) :
    Within (hwFrame bus W) (saTcamKeyMaskReset bus d record) :=
  (within_samEntryCtrl hs).bind fun _ => Within.forUpTo _ fun _ _ => within_csrWr (hW _)

theorem within_saTcamPolicyUnctrlDrop {action : MatchAction} (hW : policyBits d record ⊆ W) :
    Within (hwFrame bus W) (saTcamPolicyUnctrlDrop bus record d action) :=
  within_csrWrm_word hW

end Within

/-! ## Flow control -/

/-- `sectag_offset` and `auth_len` of `sa_flow_set`. -/
def sectagOffset (g : Glb) (tagBypass : Nat) : Nat × Nat :=
  let t := g.cleartagsConf
  let base : Nat × Nat :=
    if g.cleartags then
      match t.packetType with
      | .pbb => (match t.sectagOff with | .aftCmac => 34 | .aft1Tag => 38 | .aft2Tag => 42, 12)
      | .mpls =>
        let authStart := 12 + 2 + t.numMplsLabel * 4 + if t.isPwCtrlWord then 4 else 0
        if t.isEoMpls then
          (match t.sectagOff with
            | .aftCmac => authStart + 12 | .aft1Tag => authStart + 16 | .aft2Tag => authStart + 20, 12)
        else (authStart, 0)
      | .none => (12, 12)
    else (12, 12)
  if g.bypassMode = .tag then (12 + 4 * tagBypass, base.2) else base

/-- `flow_type` and `dest_port` of `sa_flow_set`. -/
def flowType (d : Direction) : MatchAction → BitVec 32 × BitVec 32
  | .drop => (1, 0)
  | .controlledPort => (match d with | .egress => 3 | .ingress => 2, 0)
  | .uncontrolledPort => (0, 3)

/-- A one-bit field. -/
def flag (b : Bool) (o : Nat) : BitVec 32 := if b then bit o else 0

/-- `lan80xx_macsec_sa_flow_set`. -/
def saFlowSet (d : Direction) (secyId an sc : Nat) (action : MatchAction) : Call H Unit := do
  let c ← getConf
  let secy := c.secy secyId
  let (flowType, destPort) := flowType d action
  let (sectag, authLen) := sectagOffset c.glb secy.tagBypass
  let t := c.glb.cleartagsConf
  match d with
  | .egress =>
    csrWarmWr bus (flowCtrlReg .egress 0 secyId)
      (field flowType 0 2 ||| field destPort 2 2 ||| field 2 6 2 ||| flag secy.conf.protectFrames 16 |||
        flag (c.txSaAt secyId an).confidentiality 17 ||| flag secy.conf.alwaysIncludeSci 18 |||
        flag secy.conf.useEs 19 ||| flag secy.conf.useScb 20 ||| bit 21 ||| flag t.isEoMpls 23 |||
        flag t.isPwCtrlWord 22 ||| bit 31)
    csrWarmWr bus (flowCtrlReg .egress 1 secyId)
      (field (word authLen) 8 6 ||| field (word sectag) 16 7 ||| field (word secy.conf.confidentialityOffset) 24 8)
  | .ingress =>
    let conf := (c.rxScAt secyId sc).conf
    failIf (¬(conf.validateFrames = validateFramesDisabled ∨ conf.validateFrames = validateFramesCheck ∨
      conf.validateFrames = validateFramesStrict)) (.macsec .invalidValidateFrm)
    updateGlbValidate bus
    csrWarmWr bus (flowCtrlReg .ingress 0 secyId)
      (field flowType 0 2 ||| field destPort 2 2 ||| field 2 6 2 ||| flag conf.replayProtect 16 ||| bit 17 |||
        bit 18 ||| field (word conf.validateFrames) 19 2 ||| flag t.isEoMpls 23 ||| flag t.isPwCtrlWord 22)
    csrWarmWr bus (flowCtrlReg .ingress 1 secyId)
      (field (word authLen) 8 6 ||| field (word conf.confidentialityOffset) 24 8)

/-- The SCI written to the CAM: the channel's own, or the implicit one of a SecTAG without SCI. -/
def camSci (conf : SecyConf) (sci : Sci) : Sci :=
  if conf.alwaysIncludeSci then sci
  else if conf.useEs ∧ conf.useScb then { sci with portId := 0 }
  else if conf.useEs then { sci with portId := 1 }
  else { macAddr := Vector.replicate 6 0xFF, portId := 0xFFFF }

/-- `lan80xx_macsec_rx_sc_cam_set`. -/
def rxScCamSet (secyId sc : Nat) : Call H Unit := do
  let c ← getConf
  let hwScIdx := (c.rxScAt secyId sc).hwScIdx
  let sci := camSci (c.secy secyId).conf (c.rxScAt secyId sc).sci
  csrWr bus (rxscCamReg 0 hwScIdx) (getU32 sci.macAddr 0)
  csrWr bus (rxscCamReg 1 hwScIdx) (sciHiWord sci)
  csrWr bus (rxscCamReg 2 hwScIdx) (field (word secyId) 0 6)
  csrWr bus rxscEntryEnableCtrlReg (field (word hwScIdx) 0 6 ||| bit 14)

section Within

variable {bus} {W : Set (IoReg × Nat)} {d : Direction} {secyId an sc : Nat}

theorem within_saFlowSet {action : MatchAction} (hs : modeBits ⊆ W) (hW : flowBits d secyId ⊆ W) :
    Within (hwFrame bus W) (saFlowSet bus d secyId an sc action) := by
  have h0 : ∀ v, Within (hwFrame bus W) (csrWarmWr bus (flowCtrlReg d 0 secyId) v) :=
    fun v => within_csrWarmWr fun _ hp => hW ⟨0, by decide, hp⟩
  have h1 : ∀ v, Within (hwFrame bus W) (csrWarmWr bus (flowCtrlReg d 1 secyId) v) :=
    fun v => within_csrWarmWr fun _ hp => hW ⟨1, by decide, hp⟩
  refine within_getConf.bind fun c => ?_
  cases d with
  | egress => exact (h0 _).bind fun _ => h1 _
  | ingress =>
    refine Within.failIf.bind fun _ => ?_
    exact (within_updateGlbValidate hs).bind fun _ => (h0 _).bind fun _ => h1 _

theorem steps_rxScCamSet {c : MacsecConf} (hs : selectBits ⊆ W) (hW : camBits (c.rxScAt secyId sc).hwScIdx ⊆ W) :
    Steps (hwFrame bus W) (fun s => s.conf = c) (rxScCamSet bus secyId sc) fun _ _ => True := by
  refine steps_getConf.bind fun c' => ?_
  refine Steps.pre (P := fun _ => c' = c) ?_ fun s hP => hP.2.trans hP.1
  rintro s rfl
  refine ⟨?_, fun _ _ _ => trivial⟩
  revert s
  have hw : ∀ n < 3, ∀ v, Within (hwFrame bus W) (csrWr bus (rxscCamReg n (c'.rxScAt secyId sc).hwScIdx) v) :=
    fun n hn v => within_csrWr fun _ hp => hW ⟨n, hn, hp⟩
  refine (hw 0 (by decide) _).bind fun _ => (hw 1 (by decide) _).bind fun _ => (hw 2 (by decide) _).bind fun _ => ?_
  exact within_csrWr fun _ hp => hs (Or.inr (Or.inr (Or.inr (Or.inl hp))))

end Within

end Lan80xx.Macsec
