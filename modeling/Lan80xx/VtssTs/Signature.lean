import Lan80xx.Lib.RegScript
import Lan80xx.VtssTs.Types
import Mathlib.Data.List.GetD

/-!
# Signatures: the selector map and what the hardware makes of it

`vtss_phy_ts_signature_set_priv` programs, for each egress engine, which bytes of a frame go into its signature. Selectors
below 27 are bytes of the PTP header; 28 to 35 are address bytes, of the header that the address selection of the analyzer
names.

- `sigSel`, `ipAccesses`, `macAccesses`, `mapAccesses`: what is programmed;
- `signature`: what the hardware makes of it;
- `takeFields_selectors`: the decoder finds each field where the selector map has put it.
-/

namespace Lan80xx.VtssTs

open Fallible RegBus RegScript

/-! ## Registers -/

/-- The egress analyzers; the last one is shared by engines 2A and 2B. -/
inductive AnaBlk
  | egr0
  | egr1
  | egr2
  deriving DecidableEq, Repr

/-- `vtss_phy_ts_ana_blk_id_get` -/
def EngId.blk : EngId → AnaBlk
  | ptp0 => .egr0
  | ptp1 => .egr1
  | oam2a => .egr2
  | oam2b => .egr2

/-- The comparators that hand over address bytes. -/
inductive Comparator
  | eth1
  | eth2
  | ip1
  | ip2
  deriving DecidableEq, Repr

/-- `FSB_CFG`, `FSB_MAP_REG_0..3`, `IP1_FRAME_SIG_CFG`, `IP2_FRAME_SIG_CFG`, `ETH1_NXT_PROTOCOL` (2A and 2B have their own)
and `ETH2_NXT_PROTOCOL`. -/
inductive SigReg
  | fsbCfg (blk : AnaBlk)
  | fsbMap (blk : AnaBlk) (n : Nat)
  | ip1FrameSigCfg (blk : AnaBlk)
  | ip2FrameSigCfg (blk : AnaBlk)
  | eth1NxtProtocol (e : EngId)
  | eth2NxtProtocol (blk : AnaBlk)
  deriving DecidableEq, Repr

abbrev SigBus (H : Type) := BitBus SigReg 32 (fun _ _ => false) H

/-! ## What is programmed -/

/-- `ip_mode` -/
inductive IpMode
  | v4
  | v6
  | other
  deriving DecidableEq, Repr

/-- What `vtss_phy_ts_signature_set_priv` reads: the records of the port, and the encapsulations of its base port. -/
structure SigConf where
  sigMask : Mask
  isGen2 : Bool
  engUsed : EngId → Bool
  ip1Mode : EngId → IpMode
  ip2Mode : EngId → IpMode
  encapType : EngId → Encap

namespace Encap

/-- The four encapsulations of OAM engines. -/
def isOam : Encap → Bool
  | ethOam | ethEthOam | ethMplsEthOam | ethMplsAchOam => true
  | _ => false

/-- The IP comparator that the signature takes addresses from. -/
def ipComparator : Encap → Option Comparator
  | ethIpPtp | ethEthIpPtp | ethMplsIpPtp | ethMplsEthIpPtp => some .ip1
  | ethIpIpPtp => some .ip2
  | _ => Option.none

/-- The Ethernet comparator that the signature takes the destination address from. -/
def macComparator : Encap → Option Comparator
  | ethPtp | ethIpPtp | ethIpIpPtp | ethMplsIpPtp | ethMplsAchPtp => some .eth1
  | ethEthPtp | ethEthIpPtp | ethMplsEthPtp | ethMplsEthIpPtp => some .eth2
  | _ => Option.none

end Encap

/-- The selectors of a field, in the order of its bytes in the signature. -/
def SigField.selectors : SigField → List (BitVec 6)
  | seqId => [0, 1]
  | sourcePortId => [2, 3, 4, 5, 6, 7, 8, 9, 10, 11]
  | domainNum => [25]
  | msgType => [26]
  | destIp => [28, 29, 30, 31]
  | srcIp => [32, 33, 34, 35]
  | destMac => [35, 34, 33, 32, 31, 30]

/-- The selectors of the fields that the mask asks for. -/
def Mask.selectors (mask : Mask) (fields : List SigField) : List (BitVec 6) :=
  fields.flatMap fun field => if mask.has field then field.selectors else []

/-- `sig_sel` as far as it is filled. -/
def sigSel (mask : Mask) : List (BitVec 6) := mask.selectors sigOrder

/-- `sig_sel[pos]` to `sig_sel[pos + count - 1]` in one word; what has not been filled is 0. -/
def mapWord (sel : List (BitVec 6)) (pos count : Nat) : BitVec 32 :=
  (List.range count).foldr (fun k value => (value <<< 6) ||| (sel.getD (pos + k) 0).setWidth 32) 0

abbrev SigAcc := Access SigReg 32

/-- The offset of `ip1_sig_mask_set` and `ip2_sig_mask_set`. -/
def ipSigOffset (c : SigConf) (mode : IpMode) : BitVec 32 :=
  match mode with
  | .v4 => 12
  | .v6 =>
    if c.isGen2 = false then 20
    else if c.sigMask.has .destIp then 32
    else if c.sigMask.has .srcIp then 20
    else 0
  | .other => 0

/-- `FSB_ADR_SEL` -/
def adrSelSet (blk : AnaBlk) (value : BitVec 32) : SigAcc := .modify (.fsbCfg blk) 3 value

/-- `vtss_phy_ts_ip1_sig_mask_set_priv` -/
def ip1SigMaskSet (c : SigConf) (e : EngId) : List SigAcc :=
  [.modify (.ip1FrameSigCfg e.blk) 0x3f (ipSigOffset c (c.ip1Mode e)), adrSelSet e.blk 2]

/-- `vtss_phy_ts_ip2_sig_mask_set_priv` -/
def ip2SigMaskSet (c : SigConf) (e : EngId) : List SigAcc :=
  [.modify (.ip2FrameSigCfg e.blk) 0x3f (ipSigOffset c (c.ip2Mode e)), adrSelSet e.blk 3]

/-- `vtss_phy_ts_eth1_sig_mask_set_priv` -/
def eth1SigMaskSet (c : SigConf) (e : EngId) : List SigAcc :=
  if e.blk ≠ .egr2 ∨ c.isGen2 = true then [.modify (.eth1NxtProtocol e) 0x1f0000 0, adrSelSet e.blk 0] else []

/-- `vtss_phy_ts_eth2_sig_mask_set_priv` -/
def eth2SigMaskSet (e : EngId) : List SigAcc := [.modify (.eth2NxtProtocol e.blk) 0x1f0000 0, adrSelSet e.blk 1]

/-- The IP comparator of one engine. -/
def ipEngine (c : SigConf) (e : EngId) : List SigAcc :=
  if c.engUsed e then
    match (c.encapType e).ipComparator with
    | some .ip1 => ip1SigMaskSet c e
    | some .ip2 => ip2SigMaskSet c e
    | _ => []
  else []

/-- The Ethernet comparator of one engine. -/
def macEngine (c : SigConf) (e : EngId) : List SigAcc :=
  if c.engUsed e then
    match (c.encapType e).macComparator with
    | some .eth1 => eth1SigMaskSet c e
    | some .eth2 => if e ≠ .oam2b then eth2SigMaskSet e else []
    | _ => []
  else []

/-- The selector map of one engine; engines 2A and 2B have it only where they are used. -/
def mapEngine (c : SigConf) (e : EngId) : List SigAcc :=
  let sel := sigSel c.sigMask
  if e.blk ≠ .egr2 then
    if c.engUsed e = true ∧ (c.encapType e).isOam = true then []
    else [.wr (.fsbMap e.blk 0) (mapWord sel 0 5), .wr (.fsbMap e.blk 1) (mapWord sel 5 5),
      .wr (.fsbMap e.blk 2) (mapWord sel 10 5), .wr (.fsbMap e.blk 3) (mapWord sel 15 1)]
  else if c.engUsed e = true ∧ (c.encapType e).isOam = false then
    [.wr (.fsbMap e.blk 0) (mapWord sel 0 5), .wr (.fsbMap e.blk 1) (mapWord sel 5 5),
      .wr (.fsbMap e.blk 2) (mapWord sel 10 5), .wr (.fsbMap e.blk 3) (mapWord sel 15 5)]
  else []

def ipAccesses (c : SigConf) : List SigAcc :=
  if c.sigMask.has .destIp || c.sigMask.has .srcIp then [EngId.ptp0, .ptp1].flatMap (ipEngine c) else []

def macAccesses (c : SigConf) : List SigAcc :=
  if c.sigMask.has .destMac then
    (if c.isGen2 then [EngId.ptp0, .ptp1, .oam2a, .oam2b] else [.ptp0, .ptp1]).flatMap (macEngine c)
  else []

def mapAccesses (c : SigConf) : List SigAcc :=
  (if c.isGen2 then [EngId.ptp0, .ptp1, .oam2a, .oam2b] else [.ptp0, .ptp1]).flatMap (mapEngine c)

/-- The fields before the destination address. -/
def fieldsToIp : List SigField := [.seqId, .sourcePortId, .domainNum, .msgType, .destIp, .srcIp]

/-- `vtss_phy_ts_signature_set_priv`. `VTSS_PHY_TS_ASSERT` fails where an address byte would lie behind the sixteenth. -/
def signatureSet {C H : Type} (bus : Bus SigReg 32 H) (c : SigConf) : EStateM Rc (Dev C H) Unit := do
  runAll bus Rc.access (ipAccesses c)
  failIf ((c.sigMask.has .destIp || c.sigMask.has .srcIp) = true ∧ 16 < (c.sigMask.selectors fieldsToIp).length) .error
  runAll bus Rc.access (macAccesses c)
  failIf (c.sigMask.has .destMac = true ∧ 16 < (sigSel c.sigMask).length) .error
  runAll bus Rc.access (mapAccesses c)

/-- The accesses of a call whose mask has been accepted. -/
def sigAccesses (c : SigConf) : List SigAcc := ipAccesses c ++ (macAccesses c ++ mapAccesses c)

/-! ## What the hardware makes of it -/

/-- A frame: the bytes of its PTP header, and of the header before each comparator. -/
structure Frame where
  ptp : Nat → Byte
  hdr : Comparator → Nat → Byte

section Hardware

variable (m : Bits SigReg 32) (e : EngId) (frame : Frame)

/-- `FSB_MAP_i` -/
def fsbMapField (i : Nat) : BitVec 6 :=
  wordOf fun b : Fin 6 => m (.fsbMap e.blk (i / 5)) ⟨6 * (i % 5) + b, by omega⟩

/-- `FSB_ADR_SEL` -/
def fsbAdrSel : Comparator :=
  if m (.fsbCfg e.blk) 1 then (if m (.fsbCfg e.blk) 0 then .ip2 else .ip1)
  else if m (.fsbCfg e.blk) 0 then .eth2 else .eth1

/-- The first of the eight address bytes in the header. -/
def frameSigOffset : Comparator → Nat
  | .eth1 => (wordOf fun b : Fin 5 => m (.eth1NxtProtocol e) ⟨16 + b, by omega⟩).toNat
  | .eth2 => (wordOf fun b : Fin 5 => m (.eth2NxtProtocol e.blk) ⟨16 + b, by omega⟩).toNat
  | .ip1 => (wordOf fun b : Fin 6 => m (.ip1FrameSigCfg e.blk) ⟨b, by omega⟩).toNat
  | .ip2 => (wordOf fun b : Fin 6 => m (.ip2FrameSigCfg e.blk) ⟨b, by omega⟩).toNat

/-- The byte of a selector, from the description of `FSB_MAP_REG_0`. Address byte 0 is the last of the eight. -/
def selected (src : Comparator) (offset : Nat) (sel : BitVec 6) : Byte :=
  if sel.toNat ≤ 23 then frame.ptp (31 - sel.toNat)
  else if sel.toNat = 24 then frame.ptp 6
  else if sel.toNat = 25 then frame.ptp 4
  else if sel.toNat = 26 then frame.ptp 0
  else if 28 ≤ sel.toNat ∧ sel.toNat ≤ 35 then frame.hdr src (offset + (35 - sel.toNat))
  else 0

/-- The sixteen bytes of the signature. -/
def signature : List Byte :=
  (List.range 16).map fun i => selected frame (fsbAdrSel m e) (frameSigOffset m e (fsbAdrSel m e)) (fsbMapField m e i)

end Hardware

/-! ## The decoder finds what the map has put there -/

/-- The ten bytes of a timestamp, the lowest first. -/
def Timestamp.bytes (ts : Timestamp) : List Byte :=
  (List.range 4).map (fun k => ts.nanoseconds.extractLsb' (8 * k) 8) ++
    (List.range 4).map (fun k => ts.secondsLow.extractLsb' (8 * k) 8) ++
      (List.range 2).map fun k => ts.secondsHigh.extractLsb' (8 * k) 8

theorem SigField.selectors_length (field : SigField) : field.selectors.length = field.len := by
  cases field <;> rfl

theorem Mask.selectors_length (mask : Mask) (fields : List SigField) :
    (mask.selectors fields).length = mask.lens fields := by
  induction fields with
  | nil => rfl
  | cons field fields ih =>
    rw [Mask.selectors, List.flatMap_cons, List.length_append, Mask.lens, List.map_cons, List.sum_cons, Mask.len]
    rw [Mask.selectors, Mask.lens] at ih
    rw [ih]
    by_cases hm : mask.has field = true
    · rw [if_pos hm, if_pos hm, field.selectors_length]
    · rw [if_neg hm, if_neg hm, List.length_nil]

/-- The assertions hold for a mask that has been accepted. -/
theorem signatureSet_eq {C H : Type} (bus : Bus SigReg 32 H) {c : SigConf} (hfits : c.sigMask.sigLen ≤ 16) :
    (signatureSet bus c : EStateM Rc (Dev C H) Unit) = runAll bus Rc.access (sigAccesses c) := by
  rw [sigLen_eq] at hfits
  have hip : (c.sigMask.selectors fieldsToIp).length ≤ 16 := by
    have hsplit : c.sigMask.lens sigOrder = c.sigMask.lens fieldsToIp + c.sigMask.len .destMac := by
      simp only [Mask.lens, sigOrder, fieldsToIp, List.map_cons, List.map_nil, List.sum_cons, List.sum_nil]
      omega
    rw [Mask.selectors_length]
    omega
  have hall : (sigSel c.sigMask).length ≤ 16 := by
    rw [sigSel, Mask.selectors_length]
    exact hfits
  rw [signatureSet, sigAccesses, runAll_append, runAll_append]
  rw [failIf_bind_of_not fun h => absurd h.2 (by omega), failIf_bind_of_not fun h => absurd h.2 (by omega)]

/-- Where the bytes from `pos` on are those of the selectors, the decoder finds the bytes of each field. -/
theorem takeFields_selectors {mask : Mask} {sig : List Byte} {src : BitVec 6 → Byte} (fields : List SigField) (pos : Nat)
    (hfits : pos + mask.lens fields ≤ 26)
    (hsig : ∀ k < (mask.selectors fields).length, byteAt sig (pos + k) = src ((mask.selectors fields).getD k 0)) :
    ∃ bytes, takeFields mask sig fields pos = some bytes ∧
      ∀ f ∈ fields, mask.has f = true → bytes f = f.selectors.map src := by
  induction fields generalizing pos with
  | nil => exact ⟨_, rfl, fun f hf => absurd hf List.not_mem_nil⟩
  | cons field fields ih =>
    have hsel : mask.selectors (field :: fields) =
        (if mask.has field then field.selectors else []) ++ mask.selectors fields := List.flatMap_cons
    have hlens : mask.lens (field :: fields) = mask.len field + mask.lens fields := rfl
    rw [hlens] at hfits
    obtain ⟨bytes, hbytes⟩ := takeField_of_fits sig (show pos + mask.len field ≤ 26 by omega)
    have hrest : ∀ k < (mask.selectors fields).length,
        byteAt sig (pos + mask.len field + k) = src ((mask.selectors fields).getD k 0) := by
      intro k hk
      have hlen : (if mask.has field then field.selectors else []).length = mask.len field := by
        rw [Mask.len]
        split
        · exact field.selectors_length
        · rfl
      have hbyte := hsig (mask.len field + k) (by rw [hsel, List.length_append, hlen]; omega)
      rw [hsel, List.getD_append_right _ _ _ _ (by omega), hlen, Nat.add_sub_cancel_left, ← Nat.add_assoc] at hbyte
      exact hbyte
    obtain ⟨rest, htake, hrest⟩ := ih (pos + mask.len field) (by omega) hrest
    refine ⟨fun f => if f = field then bytes else rest f, by simp [takeFields, hbytes, htake], fun f hf hm => ?_⟩
    by_cases hff : f = field
    · subst hff
      refine (if_pos rfl).trans ?_
      have hval : bytes = (List.range f.len).map fun i => byteAt sig (pos + i) := by
        rw [takeField, if_pos hm] at hbytes
        split at hbytes
        · cases hbytes
        · exact (Prod.mk.inj (Option.some.inj hbytes)).1.symm
      rw [hsel, if_pos hm] at hsig
      rw [hval]
      refine List.ext_getElem (by simp [f.selectors_length]) fun i hi _ => ?_
      rw [List.length_map, List.length_range] at hi
      have hbyte := hsig i (by rw [List.length_append, f.selectors_length]; omega)
      rw [List.getD_append _ _ _ _ (by rw [f.selectors_length]; exact hi)] at hbyte
      simp only [List.getElem_map, List.getElem_range, hbyte]
      rw [List.getD_eq_getElem]
    · refine (if_neg hff).trans ?_
      exact hrest f ((List.mem_cons.mp hf).resolve_left hff) hm

end Lan80xx.VtssTs
