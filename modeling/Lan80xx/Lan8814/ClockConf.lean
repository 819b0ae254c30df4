import Lan80xx.Lan8814.Types

/-!
# LAN8814: PTP clock configuration

`lan8814_ts_rx_ptp_clock_conf_set` and `lan8814_ts_tx_ptp_clock_conf_set`, with the helper for the PTP header fields and
the egress latencies. Each call is a list of patches (`ends_tsRxPtpClockConfSet`, `ends_tsTxPtpClockConfSet`).
-/

namespace Lan80xx.Lan8814

open Fallible RegBus

variable {H : Type}

/-! ## Register words -/

def syncPacket : BitVec 16 := 0x0001#16
def delayReqPacket : BitVec 16 := 0x0002#16
def pdelayReqPacket : BitVec 16 := 0x0004#16
def pdelayRespPacket : BitVec 16 := 0x0008#16

/-- `version` and `minor_version`, upper and lower bound. -/
def versionWord (conf : ClassifierPtp) : BitVec 16 :=
  let upper := ((0xF#16 &&& conf.version.upper.setWidth 16) <<< 4) ||| (0xF#16 &&& conf.minorVersion.upper.setWidth 16)
  let lower := ((0xF#16 &&& conf.version.lower.setWidth 16) <<< 4) ||| (0xF#16 &&& conf.minorVersion.lower.setWidth 16)
  (upper <<< 8) ||| (0xFF#16 &&& lower)

/-- `DOMAIN_LO_RANGE_EN` and the lower bound, or the value. -/
def domainLoWord (conf : ClassifierPtp) : BitVec 16 :=
  match conf.domain.mode with
  | .range => bit 15 ||| field (conf.domain.snd.setWidth 16) 0 8
  | .value => conf.domain.fst.setWidth 16

/-- The upper bound, or the mask. -/
def domainUpWord (conf : ClassifierPtp) : BitVec 16 :=
  match conf.domain.mode with
  | .range => conf.domain.fst.setWidth 16
  | .value => conf.domain.snd.setWidth 16

/-- `ts_insert` of the receive direction. -/
def rxTsInsert (conf : PtpClockConf) : BitVec 16 :=
  match conf.clkMode, conf.delaymType with
  | .bc1step, .p2p | .bc2step, .p2p => syncPacket ||| delayReqPacket ||| pdelayReqPacket ||| pdelayRespPacket
  | .bc1step, .e2e | .bc2step, .e2e => syncPacket ||| delayReqPacket
  | .tc1step, .p2p => pdelayReqPacket ||| pdelayRespPacket
  | .tc1step, .e2e => 0#16
  | .tc2step, _ => syncPacket ||| delayReqPacket ||| pdelayReqPacket ||| pdelayRespPacket
  | .none, _ => 0#16

/-- `cf_update` of the receive direction. -/
def rxCfUpdate (conf : PtpClockConf) : BitVec 16 :=
  match conf.clkMode, conf.delaymType with
  | .tc1step, .p2p => syncPacket ||| delayReqPacket
  | .tc1step, .e2e => syncPacket ||| delayReqPacket ||| pdelayReqPacket ||| pdelayRespPacket
  | _, _ => 0#16

/-- `LAN8814_F_PTP_RX_PDREQ_AUTO_UPDATE` -/
def pdreqAutoUpdate : BitVec 16 := bit 15

/-- `rx_pdelay_upd` -/
def rxPdelayUpd (conf : PtpClockConf) : BitVec 16 :=
  match conf.clkMode, conf.delaymType with
  | .bc1step, .p2p | .tc1step, .p2p => pdreqAutoUpdate
  | _, _ => 0#16

/-- `cf_config`: `CF_METHOD` for mode C, and `MAX_CF_DIS`. -/
def cfConfig (ts : TsState) : BitVec 16 := (if ts.tcOpMode = .c then bit 0 else 0#16) ||| bit 1

/-- `rx_mod`: `INSERT_TS_EN`, and `INSERT_TS_32BIT`. -/
def rxMod (ts : TsState) : BitVec 16 := bit 0 ||| if ts.rxTsLen = .bit32 then bit 1 else 0#16

/-- `ts_insert` of the transmit direction. -/
def txTsInsert (ts : TsState) (conf : PtpClockConf) : BitVec 16 :=
  match conf.clkMode, conf.delaymType with
  | .bc2step, .p2p => pdelayReqPacket ||| if ts.txAutoFollowupTs then 0#16 else syncPacket ||| pdelayRespPacket
  | .bc2step, .e2e => delayReqPacket ||| if ts.txAutoFollowupTs then 0#16 else syncPacket
  | .tc2step, _ => syncPacket ||| delayReqPacket ||| pdelayReqPacket ||| pdelayRespPacket
  | _, _ => 0#16

/-- `cf_update` of the transmit direction. -/
def txCfUpdate (conf : PtpClockConf) : BitVec 16 :=
  match conf.clkMode, conf.delaymType with
  | .bc1step, .p2p => pdelayReqPacket
  | .bc1step, .e2e => delayReqPacket
  | .tc1step, .p2p => syncPacket ||| delayReqPacket ||| pdelayReqPacket
  | .tc1step, .e2e => syncPacket ||| delayReqPacket ||| pdelayReqPacket ||| pdelayRespPacket
  | _, _ => 0#16

/-- `tx_mod`: `PDRESP_TA_INSERT`, `SYNC_TS_INSERT`, `FOLLOWUP_TS_INSERT`, `PDRESPFOLLOWUP_TS_INSERT`. -/
def txMod (ts : TsState) (conf : PtpClockConf) : BitVec 16 :=
  match conf.clkMode, conf.delaymType with
  | .bc1step, .p2p => bit 13 ||| bit 12
  | .bc1step, .e2e => bit 12
  | .bc2step, .p2p => if ts.txAutoFollowupTs then bit 11 ||| bit 9 else 0#16
  | .bc2step, .e2e => if ts.txAutoFollowupTs then bit 11 else 0#16
  | .tc1step, .p2p => bit 13
  | _, _ => 0#16

/-- `lan8814_twostep_egr_lat_adj`; the table has no rows behind that of 500 MHz. -/
def twostepEgrLatAdj (f : ClockFreq) (v : Speed) : Nat :=
  match f, v with
  | .m25, .m10 => 11198
  | .m25, .m100 => 112
  | .m25, .g1 => 125
  | .m200, .m10 => 11197
  | .m200, .m100 => 1125
  | .m200, .g1 => 120
  | .m250, .m10 => 11198
  | .m250, .m100 => 1120
  | .m250, .g1 => 115
  | _, _ => 0

/-- The latency word of one speed: `latency > 0 ? latency >> 16 : 0`, of 16 bits. -/
def egressLatencyWord (p : PhyData) (twoStep : Bool) (v : Speed) : BitVec 16 :=
  let latency := p.baseTs.defaultLatencies .tx v -
    (if twoStep then (twostepEgrLatAdj p.baseTs.clkFreq v : Int) * 2 ^ 16 else 0) + p.ts.portLatencies .tx v
  BitVec.ofInt 16 (if 0 < latency then latency / 2 ^ 16 else 0)

/-! ## The calls -/

section Calls

variable (bus : PortBus H)

/-- `lan8814_ts_classifier_ptp_conf_priv`: for the receive direction, the version is also written to the transmit
register. -/
def tsClassifierPtpConf (ing : Bool) (conf : ClassifierPtp) : Call PhyData H Unit := do
  if ing then
    epWrm bus (.version .rx) (versionWord conf) defMask
    epWrm bus (.version .tx) (versionWord conf) defMask
    epWrm bus (.domainDomainLo .rx) (domainLoWord conf) defMask
    epWrm bus (.domainMaskDomainUp .rx) (domainUpWord conf) defMask
  else
    epWrm bus (.version .tx) (versionWord conf) defMask
    epWrm bus (.domainDomainLo .tx) (domainLoWord conf) defMask
    epWrm bus (.domainMaskDomainUp .tx) (domainUpWord conf) defMask

/-- `lan8814_ts_reload_egress_latency` -/
def tsReloadEgressLatency (twoStep : Bool) : Call PhyData H Unit := do
  let p ← getConf
  epWrm bus (.latency .tx .m10) (egressLatencyWord p twoStep .m10) defMask
  epWrm bus (.latency .tx .m100) (egressLatencyWord p twoStep .m100) defMask
  epWrm bus (.latency .tx .g1) (egressLatencyWord p twoStep .g1) defMask

def PhyData.setClockConf (d : Direction) (f : PtpClockConf → PtpClockConf) (p : PhyData) : PhyData :=
  { p with ts := { p.ts with clockConf := Function.update p.ts.clockConf d (f (p.ts.clockConf d)) } }

/-- The fields that the call stores at its end; `cf_update` is not among them. -/
def PtpClockConf.store (conf : PtpClockConf) (old : PtpClockConf) : PtpClockConf :=
  { old with enable := conf.enable, clkMode := conf.clkMode, delaymType := conf.delaymType }

/-- `lan8814_ts_rx_ptp_clock_conf_set` -/
def tsRxPtpClockConfSet (conf : PtpClockConf) : Call PhyData H Unit := do
  tsClassifierPtpConf bus true conf.ptpClassConf
  modifyConf (PhyData.setClockConf .rx fun old => { old with ptpClassConf := conf.ptpClassConf })
  if conf.enable = false then
    epWrm bus (.timestampEn .rx) 0#16 defMask
  else
    let p ← getConf
    epWrm bus .pdreqNsHi (rxPdelayUpd conf) pdreqAutoUpdate
    epWrm bus (.timestampEn .rx) (rxTsInsert conf) defMask
    epWrm bus (.cfModEn .rx) (rxCfUpdate conf) defMask
    epWrm bus (.cfCfg .rx) (cfConfig p.ts) defMask
    -- the word built for this register stays unused
    epWrm bus (.timestampConfig .rx) 0#16 defMask
    epWrm bus .rsvdByteCfg 0x0405#16 defMask
    epWrm bus (.mod .rx) (rxMod p.ts) (rxMod p.ts)
  modifyConf (PhyData.setClockConf .rx conf.store)

/-- A clock that sends its timestamps in a second message. -/
def PtpClockConf.twoStep (conf : PtpClockConf) : Bool :=
  conf.enable && (conf.clkMode = .bc2step || conf.clkMode = .tc2step)

/-- `lan8814_ts_tx_ptp_clock_conf_set`: the helper is called with the flag of the receive direction. -/
def tsTxPtpClockConfSet (conf : PtpClockConf) : Call PhyData H Unit := do
  tsReloadEgressLatency bus conf.twoStep
  tsClassifierPtpConf bus true conf.ptpClassConf
  modifyConf (PhyData.setClockConf .tx fun old => { old with ptpClassConf := conf.ptpClassConf })
  if conf.enable = false then
    epWrm bus (.timestampEn .tx) 0#16 defMask
  else
    let p ← getConf
    epWrm bus (.timestampEn .tx) (txTsInsert p.ts conf) defMask
    epWrm bus (.cfModEn .tx) (txCfUpdate conf) defMask
    epWrm bus (.cfCfg .tx) (cfConfig p.ts) defMask
    epWrm bus (.timestampConfig .tx) (bit 2 ||| bit 1) defMask
    epWrm bus (.mod .tx) (txMod p.ts conf) defMask
  modifyConf (PhyData.setClockConf .tx conf.store)

/-- The call for a direction. -/
def tsPtpClockConfSet : Direction → PtpClockConf → Call PhyData H Unit
  | .rx => tsRxPtpClockConfSet bus
  | .tx => tsTxPtpClockConfSet bus

end Calls

/-! ## What the calls write -/

/-- The patches of `lan8814_ts_classifier_ptp_conf_priv` under the flag of the receive direction. -/
def headerPatches (conf : ClassifierPtp) : List (Patch EpReg 16) :=
  [⟨.version .rx, versionWord conf, defMask⟩, ⟨.version .tx, versionWord conf, defMask⟩,
    ⟨.domainDomainLo .rx, domainLoWord conf, defMask⟩, ⟨.domainMaskDomainUp .rx, domainUpWord conf, defMask⟩]

def latencyPatches (p : PhyData) (twoStep : Bool) : List (Patch EpReg 16) :=
  [⟨.latency .tx .m10, egressLatencyWord p twoStep .m10, defMask⟩,
    ⟨.latency .tx .m100, egressLatencyWord p twoStep .m100, defMask⟩,
    ⟨.latency .tx .g1, egressLatencyWord p twoStep .g1, defMask⟩]

/-- What the call for a direction writes behind the PTP header fields. -/
def modePatches (ts : TsState) (d : Direction) (conf : PtpClockConf) : List (Patch EpReg 16) :=
  if conf.enable = false then [⟨.timestampEn d, 0#16, defMask⟩]
  else
    match d with
    | .rx =>
      [⟨.pdreqNsHi, rxPdelayUpd conf, pdreqAutoUpdate⟩, ⟨.timestampEn .rx, rxTsInsert conf, defMask⟩,
        ⟨.cfModEn .rx, rxCfUpdate conf, defMask⟩, ⟨.cfCfg .rx, cfConfig ts, defMask⟩,
        ⟨.timestampConfig .rx, 0#16, defMask⟩, ⟨.rsvdByteCfg, 0x0405#16, defMask⟩, ⟨.mod .rx, rxMod ts, rxMod ts⟩]
    | .tx =>
      [⟨.timestampEn .tx, txTsInsert ts conf, defMask⟩, ⟨.cfModEn .tx, txCfUpdate conf, defMask⟩,
        ⟨.cfCfg .tx, cfConfig ts, defMask⟩, ⟨.timestampConfig .tx, bit 2 ||| bit 1, defMask⟩,
        ⟨.mod .tx, txMod ts conf, defMask⟩]

def clockPatches (p : PhyData) : Direction → PtpClockConf → List (Patch EpReg 16)
  | .rx, conf => headerPatches conf.ptpClassConf ++ modePatches p.ts .rx conf
  | .tx, conf => latencyPatches p conf.twoStep ++ (headerPatches conf.ptpClassConf ++ modePatches p.ts .tx conf)

/-- The data after the call. -/
def PhyData.clockSet (d : Direction) (conf : PtpClockConf) (p : PhyData) : PhyData :=
  p.setClockConf d fun old => conf.store { old with ptpClassConf := conf.ptpClassConf }

theorem PhyData.setClockConf_setClockConf (d : Direction) (f g : PtpClockConf → PtpClockConf) (p : PhyData) :
    (p.setClockConf d f).setClockConf d g = p.setClockConf d fun old => g (f old) := by
  simp [PhyData.setClockConf]

section Sound

variable {rf : PortRegs H} {h₀ : H} {c : PhyData} {m : EpReg → BitVec 16} {E : Dev PhyData H → Prop}

theorem ends_tsClassifierPtpConf (hs : rf.Sound h₀) (conf : ClassifierPtp) :
    Ends (Holds rf h₀ c m) (tsClassifierPtpConf rf.toBus true conf)
      (fun _ => Holds rf h₀ c (patch m (headerPatches conf))) E := by
  unfold tsClassifierPtpConf
  rw [if_pos rfl]
  apply (ends_epWrm rf hs (by simp [EpReg.status]) _ _).bind fun _ => ?_
  apply (ends_epWrm rf hs (by simp [EpReg.status]) _ _).bind fun _ => ?_
  apply (ends_epWrm rf hs (by simp [EpReg.status]) _ _).bind fun _ => ?_
  exact ends_epWrm rf hs (by simp [EpReg.status]) _ _

theorem ends_tsReloadEgressLatency (hs : rf.Sound h₀) (twoStep : Bool) :
    Ends (Holds rf h₀ c m) (tsReloadEgressLatency rf.toBus twoStep)
      (fun _ => Holds rf h₀ c (patch m (latencyPatches c twoStep))) E := by
  apply ends_getConf_bind (c := c) fun _ h => h.1
  apply (ends_epWrm rf hs (by simp [EpReg.status]) _ _).bind fun _ => ?_
  apply (ends_epWrm rf hs (by simp [EpReg.status]) _ _).bind fun _ => ?_
  exact ends_epWrm rf hs (by simp [EpReg.status]) _ _

theorem ends_storeClockConf (d : Direction) (conf : PtpClockConf) :
    Ends (Holds rf h₀ (c.setClockConf d fun old => { old with ptpClassConf := conf.ptpClassConf }) m)
      (modifyConf (PhyData.setClockConf d conf.store) : Call PhyData H PUnit)
      (fun _ => Holds rf h₀ (c.clockSet d conf) m) E := by
  have hc : c.clockSet d conf =
      (c.setClockConf d fun old => { old with ptpClassConf := conf.ptpClassConf }).setClockConf d conf.store :=
    (PhyData.setClockConf_setClockConf _ _ _ _).symm
  rw [hc]
  exact ends_modifyConf_holds rf _

theorem ends_tsRxPtpClockConfSet (hs : rf.Sound h₀) (conf : PtpClockConf) :
    Ends (Holds rf h₀ c m) (tsRxPtpClockConfSet rf.toBus conf)
      (fun _ => Holds rf h₀ (c.clockSet .rx conf) (patch m (clockPatches c .rx conf))) E := by
  unfold tsRxPtpClockConfSet clockPatches modePatches
  rw [patch_append]
  apply (ends_tsClassifierPtpConf hs _).bind fun _ => ?_
  apply (ends_modifyConf_holds rf _).bind fun _ => ?_
  refine Ends.ite (fun hen => ?_) fun hen => ?_
  · rw [if_pos hen]
    apply (ends_epWrm rf hs (by simp [EpReg.status]) _ _).bind fun _ => ?_
    exact ends_storeClockConf .rx conf
  · rw [if_neg hen]
    apply ends_getConf_bind fun _ h => h.1
    apply (ends_epWrm rf hs (by simp [EpReg.status]) _ _).bind fun _ => ?_
    apply (ends_epWrm rf hs (by simp [EpReg.status]) _ _).bind fun _ => ?_
    apply (ends_epWrm rf hs (by simp [EpReg.status]) _ _).bind fun _ => ?_
    apply (ends_epWrm rf hs (by simp [EpReg.status]) _ _).bind fun _ => ?_
    apply (ends_epWrm rf hs (by simp [EpReg.status]) _ _).bind fun _ => ?_
    apply (ends_epWrm rf hs (by simp [EpReg.status]) _ _).bind fun _ => ?_
    apply (ends_epWrm rf hs (by simp [EpReg.status]) _ _).bind fun _ => ?_
    exact ends_storeClockConf .rx conf

theorem ends_tsTxPtpClockConfSet (hs : rf.Sound h₀) (conf : PtpClockConf) :
    Ends (Holds rf h₀ c m) (tsTxPtpClockConfSet rf.toBus conf)
      (fun _ => Holds rf h₀ (c.clockSet .tx conf) (patch m (clockPatches c .tx conf))) E := by
  unfold tsTxPtpClockConfSet clockPatches modePatches
  rw [patch_append, patch_append]
  apply (ends_tsReloadEgressLatency hs _).bind fun _ => ?_
  apply (ends_tsClassifierPtpConf hs _).bind fun _ => ?_
  apply (ends_modifyConf_holds rf _).bind fun _ => ?_
  refine Ends.ite (fun hen => ?_) fun hen => ?_
  · rw [if_pos hen]
    apply (ends_epWrm rf hs (by simp [EpReg.status]) _ _).bind fun _ => ?_
    exact ends_storeClockConf .tx conf
  · rw [if_neg hen]
    apply ends_getConf_bind fun _ h => h.1
    apply (ends_epWrm rf hs (by simp [EpReg.status]) _ _).bind fun _ => ?_
    apply (ends_epWrm rf hs (by simp [EpReg.status]) _ _).bind fun _ => ?_
    apply (ends_epWrm rf hs (by simp [EpReg.status]) _ _).bind fun _ => ?_
    apply (ends_epWrm rf hs (by simp [EpReg.status]) _ _).bind fun _ => ?_
    apply (ends_epWrm rf hs (by simp [EpReg.status]) _ _).bind fun _ => ?_
    exact ends_storeClockConf .tx conf

/-- A call on a device that answers. -/
theorem ends_tsPtpClockConfSet (hs : rf.Sound h₀) (d : Direction) (conf : PtpClockConf) :
    Ends (Holds rf h₀ c m) (tsPtpClockConfSet rf.toBus d conf)
      (fun _ => Holds rf h₀ (c.clockSet d conf) (patch m (clockPatches c d conf))) E := by
  cases d with
  | rx => exact ends_tsRxPtpClockConfSet hs conf
  | tx => exact ends_tsTxPtpClockConfSet hs conf

end Sound

end Lan80xx.Lan8814
