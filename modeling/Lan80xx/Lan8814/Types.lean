import Lan80xx.Lan8814.Device

/-!
# LAN8814: timestamping data

The configurations of the timestamping calls and what `phy_data_t` keeps of them. A C union is the structure of its
words, read under either name.
-/

namespace Lan80xx.Lan8814

/-! ## Enumerations -/

/-- `mepa_ts_clock_freq_t`, with the two values that are no frequency. -/
inductive ClockFreq
  | m25
  | m125
  | m15625
  | m200
  | m250
  | m500
  | max
  | none
  deriving DecidableEq, Repr

/-- `mepa_ts_clock_src_t` -/
inductive ClockSrc
  | external
  | clientRx
  | clientTx
  | internal
  | sysPll
  | qsgmiiRecClock
  | ext1588RefClock
  | reserved
  | fromRxPort0
  | fromRxPort1
  | fromRxPort2
  | fromRxPort3
  | none
  deriving DecidableEq, Repr

/-- `mepa_ts_rx_timestamp_pos_t` -/
inductive RxTimestampPos
  | inPtp
  | atEnd
  deriving DecidableEq, Repr

/-- `mepa_ts_rx_timestamp_len_t` -/
inductive RxTimestampLen
  | bit30
  | bit32
  deriving DecidableEq, Repr

/-- `mepa_ts_fifo_mode_t` -/
inductive FifoMode
  | normal
  | spi
  deriving DecidableEq, Repr

/-- `mepa_ts_fifo_timestamp_len_t` -/
inductive FifoTimestampLen
  | byte4
  | byte10
  deriving DecidableEq, Repr

/-- `mepa_ts_tc_op_mode_t` -/
inductive TcOpMode
  | a
  | b
  | c
  deriving DecidableEq, Repr

/-- `ing_egr_ts_len_t` -/
inductive IngEgrTsLen
  | ns32
  | ns28sns4
  | ns24sns8
  | ns16sns16
  deriving DecidableEq, Repr

/-- `mepa_ts_ptp_clock_mode_t` -/
inductive PtpClockMode
  | none
  | bc1step
  | bc2step
  | tc1step
  | tc2step
  deriving DecidableEq, Repr

/-- `mepa_ts_ptp_delaym_type_t` -/
inductive DelaymType
  | p2p
  | e2e
  deriving DecidableEq, Repr

/-- `mepa_ts_match_mode_t` -/
inductive MatchMode
  | range
  | value
  deriving DecidableEq, Repr

/-- `mepa_ts_pkt_encap_t` -/
inductive PktEncap
  | none
  | ethPtp
  | ethIpPtp
  | ethHsrPtp
  | ethIpIpPtp
  | ethEthPtp
  | ethEthIpPtp
  | ethMplsIpPtp
  | ethMplsEthPtp
  | ethMplsEthIpPtp
  deriving DecidableEq, Repr

/-- `mepa_ts_mac_match_mode_t` -/
inductive MacMatchMode
  | any
  | bit48
  | anyUnicast
  | anyMulticast
  deriving DecidableEq, Repr

/-- `mepa_ts_mac_match_select_t`, `mepa_ts_ip_match_select_t` -/
inductive MatchSelect
  | none
  | dest
  | src
  | srcOrDest
  deriving DecidableEq, Repr

/-- `mepa_ts_ip_ver_t` -/
inductive IpVer
  | v4
  | v6
  deriving DecidableEq, Repr

/-- `mepa_ts_mpls_parse_t` -/
inductive MplsParse
  | topToBottom
  | bottomToTop
  deriving DecidableEq, Repr

/-! ## Configurations -/

/-- `mepa_range_unit8_t` -/
structure RangeU8 where
  upper : BitVec 8 := 0
  lower : BitVec 8 := 0
  deriving DecidableEq, Repr

/-- `mepa_ts_match_uint8_t`: the bytes are `upper` and `lower`, or `val` and `mask`. -/
structure MatchU8 where
  mode : MatchMode := .range
  fst : BitVec 8 := 0
  snd : BitVec 8 := 0
  deriving DecidableEq, Repr

/-- `mepa_ts_match_uint16_t` -/
structure MatchU16 where
  mode : MatchMode := .range
  fst : BitVec 16 := 0
  snd : BitVec 16 := 0
  deriving DecidableEq, Repr

/-- `mepa_ts_classifier_ptp_t` -/
structure ClassifierPtp where
  version : RangeU8 := {}
  minorVersion : RangeU8 := {}
  domain : MatchU8 := {}
  sdoid : MatchU8 := {}
  deriving DecidableEq, Repr

/-- `mepa_ts_ptp_clock_conf_t` -/
structure PtpClockConf where
  enable : Bool := false
  ptpClassConf : ClassifierPtp := {}
  clkMode : PtpClockMode := .none
  delaymType : DelaymType := .p2p
  cfUpdate : Bool := false
  deriving DecidableEq, Repr

/-- `mepa_ts_vlan_conf_t` -/
structure VlanConf where
  pbbEn : Bool := false
  tpid : BitVec 16 := 0
  etype : BitVec 16 := 0
  numTag : BitVec 8 := 0
  outerTag : MatchU16 := {}
  innerTag : MatchU16 := {}
  deriving DecidableEq, Repr

/-- `mepa_ts_classifier_eth_t` -/
structure ClassifierEth where
  macMatchMode : MacMatchMode := .any
  macMatchSelect : MatchSelect := .none
  macAddr : Vector (BitVec 8) 6 := Vector.replicate 6 0
  vlanCheck : Bool := false
  vlanConf : VlanConf := {}
  deriving DecidableEq, Repr

/-- `mepa_ts_classifier_ip_t`: the words of `ip_addr` are `ipv4.addr` and `ipv4.mask`, or `ipv6.addr[0..3]` and
`ipv6.mask[0..3]`. -/
structure ClassifierIp where
  ipVer : IpVer := .v4
  ipMatchMode : MatchSelect := .none
  ipAddr : Vector (BitVec 32) 8 := Vector.replicate 8 0
  udpSportEn : Bool := false
  udpDportEn : Bool := false
  udpSport : BitVec 16 := 0
  udpDport : BitVec 16 := 0
  deriving DecidableEq, Repr

/-- `mepa_ts_mpls_lvl_rng_t` -/
structure MplsLvlRng where
  lower : BitVec 32 := 0
  upper : BitVec 32 := 0
  matchMode : BitVec 8 := 0
  deriving DecidableEq, Repr

/-- `mepa_ts_classifier_mpls_t` -/
structure ClassifierMpls where
  cwEn : Bool := false
  flowEn : Bool := false
  stackDepth : BitVec 8 := 0
  stackRefPoint : MplsParse := .topToBottom
  stackLevel : Vector MplsLvlRng 4 := Vector.replicate 4 {}
  deriving DecidableEq, Repr

/-- `mepa_ts_classifier_t` -/
structure Classifier where
  enable : Bool := false
  pktEncapType : PktEncap := .none
  clockId : BitVec 16 := 0
  ethClassConf : ClassifierEth := {}
  ipClassConf : ClassifierIp := {}
  eth2ClassConf : ClassifierEth := {}
  ip2ClassConf : ClassifierIp := {}
  mplsClassConf : ClassifierMpls := {}
  deriving DecidableEq, Repr

/-- `mepa_mch_pch_t` -/
structure MchPch where
  pchEn : Bool := false
  saveTsWithCrcErr : Bool := false
  mchEn : Bool := false
  tsLenIng : IngEgrTsLen := .ns32
  tsLenEgr : IngEgrTsLen := .ns32
  deriving DecidableEq, Repr

/-- `mepa_ts_init_conf_t` -/
structure InitConf where
  clkFreq : ClockFreq := .m25
  clkSrc : ClockSrc := .external
  rxTsPos : RxTimestampPos := .inPtp
  rxTsLen : RxTimestampLen := .bit30
  txFifoMode : FifoMode := .normal
  txTsLen : FifoTimestampLen := .byte4
  txFifoSpiConf : Bool := false
  autoClearLs : Bool := false
  tcOpMode : TcOpMode := .a
  dlyReqRecv10byteTs : Bool := false
  txAutoFollowupTs : Bool := false
  mchPchConf : MchPch := {}
  deriving DecidableEq, Repr

/-! ## The data of a port -/

/-- The parts of `lan8814_ts_data_t` that the timestamping calls use, with `ts_port_conf`; the latencies are in units of
2 ^ -16 ns. -/
structure TsState where
  clkFreq : ClockFreq := .m25
  clkSrc : ClockSrc := .external
  rxTsPos : RxTimestampPos := .inPtp
  rxTsLen : RxTimestampLen := .bit30
  txFifoTsLen : FifoTimestampLen := .byte4
  txFifoMode : FifoMode := .normal
  txSpiEn : Bool := false
  defaultLatencies : Direction → Speed → Int := fun _ _ => 0
  txAutoFollowupTs : Bool := false
  tsInitDone : Bool := false
  tcOpMode : TcOpMode := .a
  mchPch : MchPch := {}
  eventMask : BitVec 32 := 0
  pktConf : Direction → Classifier := fun _ => {}
  clockConf : Direction → PtpClockConf := fun _ => {}
  portLatencies : Direction → Speed → Int := fun _ _ => 0

/-- `phy_data_t`. `base` is the timestamping data of `base_dev`, unless the port is the base port itself. -/
structure PhyData where
  packetIdx : BitVec 8 := 0
  rev : BitVec 8 := 0
  base : Option TsState := none
  ts : TsState := {}

/-- `base_data->ts_state` -/
def PhyData.baseTs (p : PhyData) : TsState := p.base.getD p.ts

/-! ## A port on a bench -/

open RegBus

/-- A device that is nothing but storage. -/
abbrev bench : PortRegs (EpReg → BitVec 16) := storage EpReg.status fun _ => False

/-- A port after its reset. -/
def benchInit : Dev PhyData (EpReg → BitVec 16) := ⟨{}, fun _ => 0#16⟩

end Lan80xx.Lan8814
