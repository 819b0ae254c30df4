import Lan80xx.Macsec.Regs

/-!
# MACsec: programming the entries of one record

The functions that write one SA record's hardware entries: the TCAM enable bit, the SC-to-SA map entry, the transform
record, the flow control words, and the TCAM key, mask and policy words. None of them touches the software tables; each
comes with the set of register bits it may change (`within_*`).
-/

namespace Lan80xx.Macsec

open Fallible RegBus

variable {H : Type} (bus : PortBus H)

/-! ## The bits of each entry -/

/-- The bit of a record in its `ENTRY_SET` and `ENTRY_CLEAR` word. -/
def entryBit (record : Nat) : BitVec 32 :=
  bit (if record < 32 then record else if record < 64 then record - 32 else if record < 96 then record - 64
    else record - 96)

def enableBits (d : Direction) (record : Nat) : Set (IoReg × Nat) :=
  maskBits (entrySetReg d record) (entryBit record) ∪ maskBits (entryClearReg d record) (entryBit record)

/-- In the header-bypass mode the match rule is written with the page 0 macros whatever the record. -/
def tcamBits (g : Glb) (d : Direction) (record : Nat) : Set (IoReg × Nat) :=
  {p | ∃ w, p.1 = tcamReg d w record ∨ (g.cleartags = true ∧ p.1 = tcamPage0Reg d w record)}

def policyBits (d : Direction) (record : Nat) : Set (IoReg × Nat) := wordBits (tcamPolicyReg d record)

def xformBits (d : Direction) (record : Nat) : Set (IoReg × Nat) :=
  {p | ∃ i < xformRecSize, p.1 = xformReg d record i}

/-- Everything of one record. -/
def recordBits (g : Glb) (d : Direction) (record : Nat) : Set (IoReg × Nat) :=
  enableBits d record ∪ tcamBits g d record ∪ policyBits d record ∪ xformBits d record

def flowBits (d : Direction) (secyId : Nat) : Set (IoReg × Nat) :=
  {p | ∃ n < 2, p.1 = flowCtrlReg d n secyId}

def mapBits (d : Direction) (sc : Nat) : Set (IoReg × Nat) :=
  {p | p.1 = scSaMapReg d 0 sc ∨ (d = .ingress ∧ p.1 = scSaMapReg d 1 sc)}

def camBits (hwScIdx : Nat) : Set (IoReg × Nat) := {p | ∃ n < 3, p.1 = rxscCamReg n hwScIdx}

/-- Command and mode registers that all SecYs of the port share. -/
def sharedBits : Set (IoReg × Nat) :=
  {p | (∃ d, p.1 = samEntryEnableCtrlReg d ∨ p.1 = miscControlReg d ∨ p.1 = pbbEnbSelectReg d) ∨
    p.1 = mplsEnbSelectReg ∨ p.1 = mplsEnbSelect2Reg ∨ p.1 = rxscEntryEnableCtrlReg ∨
    p.1 = nextPnLoReg ∨ p.1 = nextPnHiReg ∨ p.1 = nextPnCtrlReg}

/-- The mode registers among them, which do not act on an entry. -/
def modeBits : Set (IoReg × Nat) :=
  {p | (∃ d, p.1 = miscControlReg d ∨ p.1 = pbbEnbSelectReg d) ∨
    p.1 = mplsEnbSelectReg ∨ p.1 = mplsEnbSelect2Reg ∨ p.1 = rxscEntryEnableCtrlReg ∨
    p.1 = nextPnLoReg ∨ p.1 = nextPnHiReg ∨ p.1 = nextPnCtrlReg}

theorem modeBits_subset : modeBits ⊆ sharedBits := fun _ hp => hp.imp_left fun ⟨d, hd⟩ => ⟨d, Or.inr hd⟩

/-- The mode registers without the global validation level. -/
def selectBits : Set (IoReg × Nat) :=
  {p | (∃ d, p.1 = pbbEnbSelectReg d) ∨ p.1 = mplsEnbSelectReg ∨ p.1 = mplsEnbSelect2Reg ∨ p.1 = rxscEntryEnableCtrlReg ∨
    p.1 = nextPnLoReg ∨ p.1 = nextPnHiReg ∨ p.1 = nextPnCtrlReg}

theorem selectBits_subset : selectBits ⊆ modeBits := fun _ hp => hp.imp_left fun ⟨d, hd⟩ => ⟨d, Or.inr hd⟩

theorem samEntryBits_subset (d : Direction) : wordBits (samEntryEnableCtrlReg d) ⊆ sharedBits :=
  fun _ hp => Or.inl ⟨d, Or.inl hp⟩

/-! ## Enabling an entry -/

/-- `lan80xx_macsec_sa_enable`. -/
def saEnable (record : Nat) (d : Direction) (enable : Bool) : Call H Unit :=
  if enable then
    if record < 128 then csrWrm bus (entrySetReg d record) (entryBit record) (entryBit record)
    else pure ()
  else csrWrm bus (entryClearReg d record) (entryBit record) (entryBit record)

/-- Where `lan80xx_macsec_sa_inuse` puts an association number: the map word, and the lowest bit of its field. -/
def inuseField : Nat → Option (Nat × Nat)
  | 0 => some (0, 0)
  | 1 => some (0, 16)
  | 2 => some (1, 0)
  | 3 => some (1, 16)
  | _ => none

/-- `lan80xx_macsec_sa_inuse`: the egress map has one SA per entry, the ingress map one field per AN. -/
def saInuse (record sc an : Nat) (d : Direction) (enable : Bool) : Call H Unit :=
  match d with
  | .egress => csrWr bus (scSaMapReg .egress 0 sc) (field (word record) 0 7 ||| if enable then bit 15 else 0)
  | .ingress =>
    match inuseField an with
    | none => throw .error
    | some (n, o) => csrWrm bus (scSaMapReg .ingress n sc)
        (field (word record) o 7 ||| if enable then bit (o + 15) else 0) (bitmask o 7 ||| bit (o + 15))

/-- `lan80xx_macsec_sam_entry_ctrl`. -/
def samEntryCtrl (record : Nat) (d : Direction) (enable : Bool) : Call H Unit :=
  csrWr bus (samEntryEnableCtrlReg d)
    (if enable then field (word record) 0 7 ||| bit 14 else field (word record) 16 7 ||| bit 30)

/-- `lan80xx_sa_sam_in_flight` with `n` reads left: the last allowed read is a timeout whatever it returns. -/
def saSamInFlightLoop (d : Direction) : Nat → Call H Unit
  | 0 => dbgCounterIncr .timeoutIssue
  | n + 1 => do
    let val ← csrRd bus (samInFlightReg d)
    if n = 0 then dbgCounterIncr .timeoutIssue
    else if field val 0 6 ≠ 0 then saSamInFlightLoop d n
    else pure ()

/-- `lan80xx_sa_sam_in_flight`. -/
def saSamInFlight (d : Direction) : Call H Unit := saSamInFlightLoop bus d 100

section Within

variable {bus} {W : Set (IoReg × Nat)} {d : Direction} {record sc an : Nat}

theorem within_saEnable {enable : Bool} (hW : enableBits d record ⊆ W) :
    Within (hwFrame bus W) (saEnable bus record d enable) := by
  unfold saEnable
  split_ifs
  · exact within_csrWrm (Set.subset_union_left.trans hW)
  · exact Within.pure _
  · exact within_csrWrm (Set.subset_union_right.trans hW)

theorem within_saInuse {enable : Bool} (hW : mapBits d sc ⊆ W) :
    Within (hwFrame bus W) (saInuse bus record sc an d enable) := by
  cases d with
  | egress => exact within_csrWr fun p hp => hW (Or.inl hp)
  | ingress =>
    have hn : ∀ n o, inuseField an = some (n, o) → n = 0 ∨ n = 1 := by
      intro n o h
      match an, h with
      | 0, h | 1, h | 2, h | 3, h => cases h; simp
    simp only [saInuse]
    cases hi : inuseField an with
    | none => exact Within.throw _
    | some no =>
      obtain ⟨n, o⟩ := no
      refine within_csrWrm_word fun p hp => hW ?_
      rcases hn n o hi with rfl | rfl
      · exact Or.inl hp
      · exact Or.inr ⟨rfl, hp⟩

theorem final_saInuse_conf {enable : Bool} {s : Dev MacsecConf H} :
    (final (saInuse bus record sc an d enable) s).conf = s.conf :=
  (within_saInuse (W := Set.univ) (Set.subset_univ _) s).1

theorem within_samEntryCtrl {enable : Bool} (hW : wordBits (samEntryEnableCtrlReg d) ⊆ W) :
    Within (hwFrame bus W) (samEntryCtrl bus record d enable) :=
  within_csrWr hW

theorem within_saSamInFlightLoop : ∀ n, Within (hwFrame bus W) (saSamInFlightLoop bus d n)
  | 0 => within_dbgCounterIncr
  | n + 1 => within_csrRd.bind fun _ =>
      Within.ite within_dbgCounterIncr (Within.ite (within_saSamInFlightLoop n) (Within.pure _))

theorem within_saSamInFlight : Within (hwFrame bus W) (saSamInFlight bus d) := within_saSamInFlightLoop 100

end Within

/-! ## The global validation level -/

/-- The least `validate_frames` of the in-use receive channels of the in-use SecYs, at most `STRICT`. -/
def glbValidate (c : MacsecConf) : Nat :=
  (List.range maxSecy).foldl (fun val i =>
    if (c.secy i).inUse then
      (List.range maxRxSc).foldl (fun val sc =>
        match (c.secy i).rxSc sc with
        | some p => if (c.rxSc p).inUse && (c.rxSc p).conf.validateFrames < val then (c.rxSc p).conf.validateFrames
            else val
        | none => val) val
    else val) validateFramesStrict

/-- `lan80xx_macsec_update_glb_validate`. -/
def updateGlbValidate : Call H Unit := do
  let c ← getConf
  csrWarmWrm bus (miscControlReg .ingress) (field (word (glbValidate c)) 10 2) (bitmask 10 2)

theorem within_updateGlbValidate {bus : PortBus H} {W : Set (IoReg × Nat)} (hW : modeBits ⊆ W) :
    Within (hwFrame bus W) (updateGlbValidate bus) :=
  within_getConf.bind fun _ => within_csrWrm_word fun _ hp => hW (Or.inl ⟨.ingress, Or.inl hp⟩)

/-! ## Transform records -/

/-- `secy->sci.mac_addr.addr[4] | addr[5] << 8 | MACSEC_BS(secy->sci.port_id) << 16`. -/
def sciHiWord (sci : Sci) : BitVec 32 :=
  byteAt sci.macAddr 4 ||| (byteAt sci.macAddr 5 <<< 8) ||| (macsecBs (word sci.portId) <<< 16)

/-- The key words of a transform record: the key from word 2, the hash key from word 10. -/
def xformKeyWord (sak : Sak) (i : Nat) (aes128 : Bool) : BitVec 32 :=
  if i ≤ (if aes128 then 5 else 9) then getU32 sak.buf ((i - 2) * 4)
  else if 10 ≤ i ∧ i ≤ 13 then getU32 sak.hBuf ((i - 10) * 4)
  else 0

/-- `lan80xx_get_xform_value`: word `i` of the record of an SA with 32-bit packet numbers. -/
def getXformValue (c : MacsecConf) (secyId : Nat) (d : Direction) (aes128 : Bool) (an sc i : Nat) : BitVec 32 :=
  let secy := c.secy secyId
  let sak := match d with | .egress => (c.txSaAt secyId an).sak | .ingress => (c.rxSaAt secyId sc an).sak
  match i, d with
  | 0, .egress => (if aes128 then 0x120AA006 else 0x120EA006) ||| (word an <<< 26)
  | 0, .ingress => if aes128 then 0x520AA00F else 0x520EA00F
  | 14, .egress => (c.txSaAt secyId an).nextPn
  | 14, .ingress => (c.rxSaAt secyId sc an).lowestPn
  | 1, _ => 0
  | 20, .egress => getU32 secy.sci.macAddr 0
  | 20, .ingress => word an <<< 29
  | 21, .egress => sciHiWord secy.sci
  | 21, .ingress => 0
  | 16, .egress => getU32 secy.sci.macAddr 0
  | 16, .ingress => word (c.rxScAt secyId sc).conf.replayWindow
  | 17, .egress => 0
  | 17, .ingress => getU32 secy.sci.macAddr 0
  | 18, .egress => 0
  | 18, .ingress => sciHiWord secy.sci
  | i, _ => xformKeyWord sak i aes128

/-- `lan80xx_get_xform_value_64`: word `i` of the record of an SA with 64-bit packet numbers. -/
def getXformValue64 (c : MacsecConf) (secyId : Nat) (d : Direction) (aes128 : Bool) (an sc i : Nat) : BitVec 32 :=
  let secy := c.secy secyId
  let sak := match d with | .egress => (c.txSaAt secyId an).sak | .ingress => (c.rxSaAt secyId sc an).sak
  let ssci := match d with | .egress => (c.txSaAt secyId an).ssci | .ingress => (c.rxSaAt secyId sc an).ssci
  let replayWindow := (c.rxScAt secyId sc).conf.replayWindow
  let replwin : BitVec 64 := (c.rxSaAt secyId sc an).pnLowestPn + BitVec.ofNat 64 replayWindow
  match i, d with
  | 0, .egress => (if aes128 then 0x220AA006 else 0x220EA006) ||| (word an <<< 26)
  | 0, .ingress => if aes128 then 0x620AA00F else 0x620EA00F
  | 14, .egress => (c.txSaAt secyId an).pnNextPn.setWidth 32 - 1
  | 14, .ingress => replwin.setWidth 32
  | 15, .egress => (((c.txSaAt secyId an).pnNextPn - 1) >>> 32).setWidth 32
  | 15, .ingress => (replwin >>> 32).setWidth 32
  | 1, _ => 0
  | 16, .egress => 0
  | 16, .ingress => if replayWindow ≤ replayWindowSize then word replayWindow else 0
  | 20, .egress => getU32 secy.sci.macAddr 0
  | 20, .ingress => word an <<< 29
  | 21, .egress => sciHiWord secy.sci
  | 21, .ingress => 0
  | 17, _ => getU32 sak.salt 0 ^^^ getU32 ssci 0
  | 18, _ => getU32 sak.salt 4
  | 19, _ => getU32 sak.salt 8
  | i, _ => xformKeyWord sak i aes128

/-- `lan80xx_macsec_sa_xform_set`. -/
def saXformSet (d : Direction) (record secyId an sc : Nat) : Call H Unit := do
  let c ← getConf
  let suite := (c.secy secyId).conf.currentCipherSuite
  forUpTo xformRecSize fun i =>
    csrWr bus (xformReg d record i)
      (if suite.xpn then getXformValue64 c secyId d (suite = .gcmAesXpn128) an sc i
      else getXformValue c secyId d (suite = .gcmAes128) an sc i)

/-- `lan80xx_macsec_sa_xform_reset`. -/
def saXformReset (d : Direction) (record : Nat) : Call H Unit :=
  forUpTo xformRecSize fun i => csrWr bus (xformReg d record i) 0

section Within

variable {bus} {W : Set (IoReg × Nat)} {d : Direction} {record secyId an sc : Nat}

theorem within_saXformSet (hW : xformBits d record ⊆ W) :
    Within (hwFrame bus W) (saXformSet bus d record secyId an sc) :=
  within_getConf.bind fun _ => Within.forUpTo _ fun i hi => within_csrWr fun _ hp => hW ⟨i, hi, hp⟩

theorem within_saXformReset (hW : xformBits d record ⊆ W) : Within (hwFrame bus W) (saXformReset bus d record) :=
  Within.forUpTo _ fun i hi => within_csrWr fun _ hp => hW ⟨i, hi, hp⟩

end Within

end Lan80xx.Macsec
