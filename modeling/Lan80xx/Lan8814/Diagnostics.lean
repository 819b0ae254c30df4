import Lan80xx.Lan8814.Reset

/-!
# LAN8814: cable diagnostics and self-test

Both reset the PHY, write the settings that they need straight into the registers, and restore the stored configuration
by another reset: the cable diagnostics when they are through, the self-test when there is no link to start on.

- `bit_cabDiagRun`, `bit_selftestSetup`: the settings after the diagnostics, and during a self-test.
-/

namespace Lan80xx.Lan8814.Gphy

open RegCalls

/-! ## Cable diagnostics -/

/-- `lan8814_wait_for_cable_diagnostics`, over the words that are read: the number of reads, if the test ends in time. -/
def waitForCableDiagnostics (reads : Nat → BitVec 16) : Nat → Nat → Option Nat
  | 0, _ => none
  | cnt + 1, i => if (reads i).getLsbD 15 then waitForCableDiagnostics reads cnt (i + 1) else some (i + 1)

/-- `0.8 * MEPA_ABS(data - 22)`, rounded down. -/
def cableLength (value : BitVec 16) : BitVec 8 :=
  BitVec.ofNat 8 (4 * Int.natAbs ((value.extractLsb' 0 8).toNat - 22) / 5)

/-- The result of a pair. -/
def cableResult (value : BitVec 16) : CableStatus × BitVec 8 :=
  match (value.extractLsb' 8 2).toNat with
  | 1 => (.opened, cableLength value)
  | 2 => (.short, cableLength value)
  | 3 => (.abnorm, 0)
  | _ => (.unknown, 0)

/-- The diagnostics of one pair. -/
def cableDiagPair (reads : Nat → BitVec 16) (pair : Nat) : Call (CableStatus × BitVec 8) := do
  writeMasked cableDiag 0 (bit 15)
  writeMasked cableDiag (bit 15 ||| (BitVec.ofNat 16 pair <<< 12)) (bit 15 ||| 0x3000)
  match waitForCableDiagnostics reads 100 0 with
  | none => return (.unknown, 0)
  | some n => return cableResult (reads n)

/-- The diagnostics of the pairs, one after the other. -/
def cableDiagPairs (reads : Nat → Nat → BitVec 16) : List Nat → Call (List (CableStatus × BitVec 8))
  | [] => return []
  | pair :: pairs => do
    let result ← cableDiagPair (reads pair) pair
    let results ← cableDiagPairs reads pairs
    return result :: results

/-- `lan8814_cab_diag_enter_config` -/
def cabDiagEnterConfig (chip : Chip) : Call Unit := do
  softReset chip
  write basicControl (speedSelBit1 ||| dupMode)
  writeMasked anegMstrSlvCtrl cfgEna cfgEna
  writeMasked gphyDbgCtl1 swapoff swapoff

/-- `lan8814_restore_config_` -/
def restoreConfig_ (chip : Chip) : Call Unit := do
  let _ ← reset_ chip .default false

/-- The diagnostics of a port without a link. -/
def cabDiagRun (chip : Chip) (reads : Nat → Nat → BitVec 16) : Call Unit := do
  cabDiagEnterConfig chip
  let results ← cableDiagPairs reads [0, 1, 2, 3]
  modifyData fun d => { d with cableDiag := { d.cableDiag with pairs := results } }
  restoreConfig_ chip

/-- `lan8814_cab_diag_start_`; `status` is the word of `LAN8814_BASIC_STATUS`, and `reads` those of `LAN8814_CABLE_DIAG`,
for each pair. Mode 2 is power down. -/
def cabDiagStart_ (chip : Chip) (mode : Int) (status : BitVec 16) (reads : Nat → Nat → BitVec 16) : Call Rc := do
  modifyData fun d => { d with cableDiag := ⟨false, List.replicate 4 (.unknown, 0)⟩ }
  if mode = 2 then return .error
  else do
    modifyData fun d => { d with cableDiag := { d.cableDiag with link := status.getLsbD 2 } }
    when (!status.getLsbD 2) (cabDiagRun chip reads)
    return .ok

/-! ## Self-test -/

/-- `mepa_selftest_info_t` -/
structure SelftestInfo where
  speed : Speed
  mdi : MediaMode
  frames : BitVec 32
  goodCnt : BitVec 32
  errCnt : BitVec 32
  deriving DecidableEq, Repr

/-- The mode that a self-test sets. -/
def SelftestInfo.media (inf : SelftestInfo) : MediaMode := if inf.mdi = .mdi then .mdi else .mdix

/-- The part of the self-test about master and slave, or about the MDI mode. -/
def selftestMedia (inf : SelftestInfo) : Call Unit :=
  if inf.speed = .g1 then do
    write resvConLoop 0xfc08
    write anegMstrSlvCtrl (full1000T ||| cfgVal ||| cfgEna)
  else do
    let val ← read gphyDbgCtl1
    write gphyDbgCtl1 (inf.media.word val)

/-- The settings of a self-test. -/
def selftestSetup (chip : Chip) (inf : SelftestInfo) : Call Unit := do
  softReset chip
  write basicControl (speedSelBit1 ||| dupMode ||| restartAneg ||| anegEna)
  selftestMedia inf
  write basicControl (dupMode ||| if inf.speed = .g1 then speedSelBit1 else bitIf (inf.speed = .m100) 13)

/-- The wait for a link, over the words read from `LAN8814_BASIC_STATUS`. -/
def selftestLink (status : Nat → BitVec 16) : Bool := (List.range 100).any fun i => (status i).getLsbD 2

/-- The packet generator and the checker are started. -/
def selftestGenerate (frames : BitVec 32) : Call Unit :=
  writeAll [(selftestFrameCnt, 0), (selftestPktCntLo, frames.extractLsb' 0 16), (selftestPktCntHi, frames.extractLsb' 16 16),
    (selftestFrameCnt, bit 0), (selftestEnReg, 0), (selftestEnReg, bit 8 ||| bit 4 ||| bit 0), (selftestPgenEn, bit 0)]

/-- The self-test after its checks. -/
def selftestRun (chip : Chip) (inf : SelftestInfo) (status : Nat → BitVec 16) : Call Rc := do
  selftestSetup chip inf
  if selftestLink status then do
    selftestGenerate inf.frames
    return .ok
  else do
    restoreConfig_ chip
    return .error

/-- `lan8814_selftest_start_` -/
def selftestStart_ (chip : Chip) (inf : Option SelftestInfo) (status : Nat → BitVec 16) : Call Rc :=
  match inf with
  | none => return .error
  | some inf =>
    if inf.speed ≠ .g1 ∧ inf.mdi = .auto then return .error
    else do
      let val ← read selftestPgenEn
      if val.getLsbD 0 then return .error else selftestRun chip inf status

/-- What `lan8814_selftest_read` reads from the registers and the counters. -/
def selftestShown (mdi control lo hi : BitVec 16) (good err : BitVec 32) : SelftestInfo where
  speed := if control.getLsbD 13 then .m100 else if control.getLsbD 6 then .g1 else .m10
  mdi := if mdi.getLsbD 7 then .mdi else if mdi.getLsbD 6 then .mdix else .auto
  frames := hi ++ lo
  goodCnt := good
  errCnt := err

/-- All frames have been counted. -/
def SelftestInfo.done (inf : SelftestInfo) : Bool := inf.frames ≠ 0 && inf.frames == inf.goodCnt + inf.errCnt

/-- `lan8814_selftest_read`; `good` and `err` are the counters of the checker. -/
def selftestRead (inf : Option SelftestInfo) (good err : BitVec 32) : Call (Rc × Option SelftestInfo) :=
  match inf with
  | none => return (.error, none)
  | some inf => do
    let val ← read selftestPgenEn
    if !val.getLsbD 0 then return (.error, some { inf with frames := 0, goodCnt := 0, errCnt := 0 })
    else do
      let mdi ← read gphyDbgCtl1
      let control ← read basicControl
      let hi ← read selftestPktCntHi
      let lo ← read selftestPktCntLo
      let shown := selftestShown mdi control lo hi good err
      when shown.done selftestStop
      return (.ok, some shown)

/-! ## The settings after the diagnostics -/

/-- What the cable diagnostics set, other than in the basic control register. -/
def cabDiagBit (r : Reg) (b : Nat) (old : Bool) : Bool :=
  if r = anegMstrSlvCtrl ∧ b = 12 ∨ r = gphyDbgCtl1 ∧ b = 6 then true else old

theorem bit_cabDiagEnterConfig (chip : Chip) (s : Port) {r : Reg} {b : Nat} (h : Setting r b) (h0 : r ≠ basicControl) :
    (after (cabDiagEnterConfig chip) s).bit r b = cabDiagBit r b (chip.kept r b (s.bit r b)) := by
  simp only [cabDiagEnterConfig, after_bind, bit_writeMasked, bit_write, if_neg h0, bit_softReset chip s h, cabDiagBit]
  cases h with
  | basic => exact absurd rfl h0
  | advertisement => simp
  | master => simp
  | mdi => simp

theorem keeps_cableDiagPairs (reads : Nat → Nat → BitVec 16) (pairs : List Nat) :
    Keeps (· ∈ settingRegs) (cableDiagPairs reads pairs) := by
  have hpair (reads : Nat → BitVec 16) (pair : Nat) : Keeps (· ∈ settingRegs) (cableDiagPair reads pair) := by
    refine .bind (.writeMasked (by decide) _ _) fun _ => .bind (.writeMasked (by decide) _ _) fun _ => ?_
    split <;> exact .pure _
  induction pairs with
  | nil => exact .pure _
  | cons pair pairs ih => exact .bind (hpair _ _) fun _ => .bind ih fun _ => .pure _

theorem keepsData_cableDiagPairs (reads : Nat → Nat → BitVec 16) (pairs : List Nat) :
    KeepsData (cableDiagPairs reads pairs) := by
  have hpair (reads : Nat → BitVec 16) (pair : Nat) : KeepsData (cableDiagPair reads pair) := by
    refine .bind (.writeMasked _ _ _) fun _ => .bind (.writeMasked _ _ _) fun _ => ?_
    split <;> exact .pure _
  induction pairs with
  | nil => exact .pure _
  | cons pair pairs ih => exact .bind (hpair _ _) fun _ => .bind ih fun _ => .pure _

/-- Where the soft reset has been before, it makes no difference again. -/
theorem Chip.kept_kept (chip : Chip) (r : Reg) (b : Nat) (f : Bool → Bool) (old : Bool) :
    chip.kept r b (f (chip.kept r b old)) = chip.kept r b (f old) := by
  unfold Chip.kept
  split <;> rfl

theorem worked_congr {r : Reg} (b : Nat) {x y : Bool} (h : r ≠ basicControl → x = y) : worked r b x = worked r b y := by
  by_cases h0 : r = basicControl
  · simp [worked, h0]
  · rw [h h0]

/-- The settings after the cable diagnostics. -/
theorem bit_cabDiagRun (chip : Chip) (reads : Nat → Nat → BitVec 16) (s : Port) {r : Reg} {b : Nat} (h : Setting r b) :
    (after (cabDiagRun chip reads) s).bit r b =
      s.data.conf.sets r b (worked r b (chip.kept r b (cabDiagBit r b (s.bit r b)))) := by
  have hpairs := (keeps_cableDiagPairs reads [0, 1, 2, 3]).keepsBits fun r b (hs : Setting r b) => hs.mem
  have hdata : (after (cabDiagEnterConfig chip) s).data = s.data := rfl
  simp only [cabDiagRun, restoreConfig_, after_bind, after_pure, bit_reset chip _ _ h, data_modifyData, bit_modifyData,
    keepsData_cableDiagPairs reads _ _, hpairs _ r b h, hdata]
  congr 1
  refine worked_congr b fun h0 => ?_
  rw [bit_cabDiagEnterConfig chip s h h0, chip.kept_kept]

theorem conf_cabDiagRun (chip : Chip) (reads : Nat → Nat → BitVec 16) (s : Port) :
    (after (cabDiagRun chip reads) s).data.conf = { s.data.conf with macIfAnegEna := s.data.conf.qsgmiiAneg } := by
  have hdata : (after (cabDiagEnterConfig chip) s).data = s.data := rfl
  simp only [cabDiagRun, restoreConfig_, after_bind, after_pure, conf_reset, data_modifyData,
    keepsData_cableDiagPairs reads _ _, hdata]

/-! ## The settings of a self-test -/

/-- What a self-test sets, other than in the basic control register. -/
def SelftestInfo.setBit (inf : SelftestInfo) (r : Reg) (b : Nat) (old : Bool) : Bool :=
  if inf.speed = .g1 then if r = anegMstrSlvCtrl then true else old
  else if r = gphyDbgCtl1 then inf.media.mdiBit b else old

theorem bit_selftestMedia (inf : SelftestInfo) (s : Port) {r : Reg} {b : Nat} (h : Setting r b) :
    (after (selftestMedia inf) s).bit r b = inf.setBit r b (s.bit r b) := by
  have hloop : KeepsBits Setting (write resvConLoop 0xfc08 : Call Unit) := keepsBits_write (by decide) _
  simp only [selftestMedia, after_ite, State.bit_ite, SelftestInfo.setBit]
  split
  · simp only [after_bind, bit_write, hloop _ r b h]
    cases h with
    | basic => simp
    | advertisement => simp
    | master hb => obtain rfl | rfl | rfl := hb <;> simp
    | mdi => simp
  · simp only [after_bind, after_read, bit_write]
    cases h with
    | basic => simp
    | advertisement => simp
    | master => simp
    | mdi hb => rw [if_pos rfl, if_pos rfl, getLsbD_word _ _ hb]

theorem bit_selftestSetup (chip : Chip) (inf : SelftestInfo) (s : Port) {r : Reg} {b : Nat} (h : Setting r b)
    (h0 : r ≠ basicControl) :
    (after (selftestSetup chip inf) s).bit r b = inf.setBit r b (chip.kept r b (s.bit r b)) := by
  simp only [selftestSetup, after_bind, bit_write, if_neg h0, bit_selftestMedia inf _ h, bit_softReset chip s h]

theorem keepsData_selftestSetup (chip : Chip) (inf : SelftestInfo) : KeepsData (selftestSetup chip inf) := by
  refine .bind (keepsData_softReset chip) fun _ => .bind (.write _ _) fun _ => .bind ?_ fun _ => .write _ _
  exact .ite (fun _ => .bind (.write _ _) fun _ => .write _ _) fun _ => .bind (.read _) fun _ => .write _ _

/-- A self-test that starts leaves its own settings. -/
theorem bit_selftestRun_link (chip : Chip) (inf : SelftestInfo) {status : Nat → BitVec 16}
    (hl : selftestLink status = true) (s : Port) {r : Reg} {b : Nat} (h : Setting r b) (h0 : r ≠ basicControl) :
    (after (selftestRun chip inf status) s).bit r b = inf.setBit r b (chip.kept r b (s.bit r b)) := by
  have hgen : KeepsBits Setting (selftestGenerate inf.frames) := keepsBits_writeAll (by simp [settingRegs])
  simp only [selftestRun, hl, if_true, after_bind, after_pure, hgen _ r b h, bit_selftestSetup chip inf s h h0]

/-- A self-test without a link restores the configuration. -/
theorem bit_selftestRun_noLink (chip : Chip) (inf : SelftestInfo) {status : Nat → BitVec 16}
    (hl : selftestLink status = false) (s : Port) {r : Reg} {b : Nat} (h : Setting r b) :
    (after (selftestRun chip inf status) s).bit r b =
      s.data.conf.sets r b (worked r b (chip.kept r b (inf.setBit r b (s.bit r b)))) := by
  simp only [selftestRun, hl, Bool.false_eq_true, if_false, restoreConfig_, after_bind, after_pure, bit_reset chip _ _ h,
    keepsData_selftestSetup chip inf s]
  congr 1
  refine worked_congr b fun h0 => ?_
  rw [bit_selftestSetup chip inf s h h0, chip.kept_kept]

theorem conf_selftestRun (chip : Chip) (inf : SelftestInfo) (status : Nat → BitVec 16) (s : Port) :
    ∃ aneg, (after (selftestRun chip inf status) s).data.conf = { s.data.conf with macIfAnegEna := aneg } := by
  simp only [selftestRun, after_bind, after_ite]
  split
  · have hgen : KeepsData (selftestGenerate inf.frames) := .writeAll _
    refine ⟨s.data.conf.macIfAnegEna, ?_⟩
    rw [after_pure, hgen, keepsData_selftestSetup]
  · refine ⟨s.data.conf.qsgmiiAneg, ?_⟩
    simp only [restoreConfig_, after_bind, after_pure, conf_reset, keepsData_selftestSetup chip inf s]

end Lan80xx.Lan8814.Gphy
