import Lan80xx.Lib.ByteMem
import Lan80xx.Lib.FaultyRegs

/-!
# MACsec of the VTSS PHYs: the capture FIFO

`vtss_macsec_frame_capture_set_priv` enables the triggers of the capture. `vtss_macsec_frame_get_priv` disables them,
reads a frame out of the memory of the capture word by word, and enables them again. The bytes of the frame go to the
caller's buffer from its start on, so that they are a list.

- `copyWords_eq`: the loop with its index of 8 bits ends;
- `ends_frameGetPriv`: what the call leaves, for any memory and any accesses that fail;
- `ends_frameCaptureSetPriv`: the words that enable the triggers;
- `frame_get_right_iff`, `frameGetFits_noFaults`: a frame that is refused as too long leaves the capture disabled.
-/

namespace Lan80xx.VtssMacsec.Capture

open Fallible RegBus ByteMem

/-! ## Registers -/

/-- `CAPT_DEBUG_DATA(i)` -/
def captDataReg (i : BitVec 8) : BitVec 16 := 0x8900 ||| i.setWidth 16

def captCtrlReg : BitVec 16 := 0x8980
def captStatusReg : BitVec 16 := 0x8981
def captTriggerSa1Reg : BitVec 16 := 0x8982
def captTriggerSa2Reg : BitVec 16 := 0x8983
def captTriggerReg : BitVec 16 := 0x8984

/-- `CAPT_DEBUG_TRIGGER_ENABLE` -/
def triggerEnable : BitVec 32 := 1

/-- `VTSS_MACSEC_FRAME_CAPTURE_SIZE_MAX` -/
def frameCaptureSizeMax : Nat := 504

/-- `WR_PTR` of the status -/
def captWrPtr (value : BitVec 32) : Nat := (value.extractLsb' 1 6).toNat

/-- `PKT_COUNT` of the status -/
def captPktCount (value : BitVec 32) : Nat := (value.extractLsb' 8 5).toNat

/-- The 9 bits of the packet size. -/
def captPktSize (admHdr0 : BitVec 32) : Nat := (admHdr0 &&& 0x1ff).toNat

def captTruncated (admHdr0 : BitVec 32) : Bool := admHdr0 &&& 0x200 ≠ 0

/-- `header_size`, in registers -/
def headerSize : Nat := 2

/-! ## The calls -/

/-- A failed access, the error of `phy_type_get`, `.._BUFFER_TOO_SMALL`, `.._FRAME_TOO_LONG` and `.._FRAME_TRUNCATED`;
`endless` for a loop that does not end. -/
inductive CaptureRc
  | access (rc : Int)
  | phyType
  | bufferTooSmall
  | frameTooLong
  | frameTruncated
  | endless
  deriving DecidableEq, Repr

/-- `*frm_length`, the bytes written to `frame`, and `rc_dbg_counters`. -/
structure CaptureOut where
  frmLength : Nat
  frame : List (BitVec 8)
  dbgCounters : CaptureRc → Nat

abbrev CaptureCall (H : Type) (α : Type) := EStateM CaptureRc (Dev CaptureOut H) α

/-- `vtss_macsec_frame_capture_t` -/
inductive FrameCapture
  | disable
  | ingress
  | egress
  deriving DecidableEq, Repr

section Calls

variable {H : Type} (bus : Bus (BitVec 16) 32 H)

/-- The triggers are disabled in this order before a frame is read. -/
def captDisable (phy10g : Bool) : List (BitVec 16 × BitVec 32) :=
  (if phy10g then [(captTriggerReg, 0)] else []) ++ [(captTriggerSa2Reg, 0), (captTriggerSa1Reg, 0)]

/-- They are enabled again in this order. On 1G devices the enabling bit is where the others have `.._SA2`. -/
def captEnable (phy10g : Bool) : List (BitVec 16 × BitVec 32) :=
  if phy10g then [(captTriggerReg, triggerEnable), (captTriggerSa2Reg, 0xffffffff), (captTriggerSa1Reg, 0xffffffff)]
  else [(captTriggerSa2Reg, triggerEnable), (captTriggerSa1Reg, 0xffff)]

/-- `CAPT_DEBUG_CTRL` -/
def captCtrl (capture : FrameCapture) : BitVec 32 :=
  (if capture = .ingress then 1 else 0) ||| BitVec.ofNat 32 (frameCaptureSizeMax / 8) <<< 1

/-- `vtss_macsec_frame_capture_set_priv` enables the triggers in this order. -/
def captSetEnable (phy10g : Bool) : List (BitVec 16 × BitVec 32) :=
  if phy10g then [(captTriggerSa1Reg, 0xffffffff), (captTriggerSa2Reg, 0xffffffff), (captTriggerReg, triggerEnable)]
  else [(captTriggerSa1Reg, 0xffff), (captTriggerSa2Reg, triggerEnable)]

/-- Its writes. -/
def captSet (phy10g : Bool) (capture : FrameCapture) : List (BitVec 16 × BitVec 32) :=
  ([(captTriggerSa1Reg, 0), (captTriggerSa2Reg, 0)] ++ if phy10g then [(captTriggerReg, 0)] else []) ++
    if capture = .disable then [] else (captCtrlReg, captCtrl capture) :: captSetEnable phy10g

/-- `vtss_macsec_frame_capture_set_priv`. There may be no PHY at the port. -/
def frameCaptureSetPriv (phy10g : Option Bool) (capture : FrameCapture) : CaptureCall H Unit :=
  match phy10g with
  | none => throw .phyType
  | some phy10g => writeEach bus .access (captSet phy10g capture)

def setFrmLength (n : Nat) : CaptureCall H Unit := modify fun s => { s with conf := { s.conf with frmLength := n } }

/-- `dbg_counter_incr`, whose result is returned. -/
def dbgCounterIncr (rc : CaptureRc) : CaptureCall H Unit := do
  modify fun s => { s with conf := { s.conf with
    dbgCounters := Function.update s.conf.dbgCounters rc (s.conf.dbgCounters rc + 1) } }
  throw rc

def captRd (r : BitVec 16) : CaptureCall H (BitVec 32) := RegBus.read bus .access r

/-- One word of the frame. -/
def copyWord (i : BitVec 8) : CaptureCall H Unit := do
  let value ← captRd bus (captDataReg i)
  modify fun s => { s with conf := { s.conf with frame := s.conf.frame ++ bytesOf value } }

/-- The loop over the words up to `last`. Its index has 8 bits. -/
def copyWords (last : Nat) : Nat → BitVec 8 → CaptureCall H Unit
  | 0, _ => throw .endless
  | fuel + 1, i =>
    if i.toNat ≤ last then do
      copyWord bus i
      copyWords last fuel (i + 1)
    else pure ()

/-- `vtss_macsec_frame_get_priv`. After 256 passes the index would be where it has been before. -/
def frameGetPriv (phy10g : Option Bool) (bufLength : Nat) : CaptureCall H Unit := do
  setFrmLength 0
  match phy10g with
  | none => throw .phyType
  | some phy10g => do
    let value ← captRd bus captStatusReg
    if captPktCount value = 0 then pure ()
    else if bufLength < frameCaptureSizeMax then dbgCounterIncr .bufferTooSmall
    else do
      writeEach bus .access (captDisable phy10g)
      let admHdr0 ← captRd bus (captDataReg 0)
      let _ ← captRd bus (captDataReg 1)
      setFrmLength (captPktSize admHdr0)
      if captWrPtr value * 8 ≤ captPktSize admHdr0 + headerSize then do
        setFrmLength (captWrPtr value)
        dbgCounterIncr .frameTooLong
      else do
        copyWords bus (captPktSize admHdr0 / 4 + headerSize) 256 (BitVec.ofNat 8 headerSize)
        writeEach bus .access (captEnable phy10g)
        if captTruncated admHdr0 then dbgCounterIncr .frameTruncated else pure ()

end Calls

/-! ## The loop -/

section Loop

variable {H : Type} (bus : Bus (BitVec 16) 32 H) {last : Nat}

/-- As long as the last word is not the last value of the index, the loop is one over the words. -/
theorem copyWords_eq (hlast : last < 255) {n first fuel : Nat} (hn : first + n = last + 1) (hfuel : n < fuel) :
    copyWords bus last fuel (BitVec.ofNat 8 first) = forUpTo n fun k => copyWord bus (BitVec.ofNat 8 (first + k)) := by
  induction n generalizing first fuel with
  | zero =>
    obtain ⟨fuel, rfl⟩ : ∃ k, fuel = k + 1 := ⟨fuel - 1, by omega⟩
    have hpast : ¬(BitVec.ofNat 8 first).toNat ≤ last := by
      rw [BitVec.toNat_ofNat, Nat.mod_eq_of_lt (by omega)]
      omega
    rw [copyWords, if_neg hpast]
    rfl
  | succ n ih =>
    obtain ⟨fuel, rfl⟩ : ∃ k, fuel = k + 1 := ⟨fuel - 1, by omega⟩
    have hin : (BitVec.ofNat 8 first).toNat ≤ last := by
      rw [BitVec.toNat_ofNat, Nat.mod_eq_of_lt (by omega)]
      omega
    have hnext : BitVec.ofNat 8 first + 1 = BitVec.ofNat 8 (first + 1) := (BitVec.ofNat_add first 1).symm
    rw [copyWords, if_pos hin, hnext, ih (by omega) (by omega), forUpTo_succ_front]
    simp only [Nat.add_zero, Nat.add_assoc, Nat.add_comm 1]

end Loop

/-! ## What is in the capture memory -/

section Memory

variable (m : BitVec 16 → BitVec 32)

/-- Word `k` of the captured frame. -/
def capturedWord (k : Nat) : BitVec 32 := m (captDataReg (BitVec.ofNat 8 (headerSize + k)))

/-- Byte `i` of the captured frame. -/
def capturedByte (i : Nat) : BitVec 8 := byteOf (capturedWord m (i / 4)) (i % 4)

/-- The length of the captured frame; 0 when there is none. -/
def capturedLength : Nat := if captPktCount (m captStatusReg) = 0 then 0 else captPktSize (m (captDataReg 0))

/-- The frame is refused as longer than what has been captured. -/
def CaptureTooLong : Prop := captWrPtr (m captStatusReg) * 8 ≤ captPktSize (m (captDataReg 0)) + headerSize

instance : Decidable (CaptureTooLong m) := inferInstanceAs (Decidable (_ ≤ _))

/-- A frame is read for this buffer. -/
def CaptureServed (bufLength : Nat) : Prop := captPktCount (m captStatusReg) ≠ 0 ∧ frameCaptureSizeMax ≤ bufLength

instance (bufLength : Nat) : Decidable (CaptureServed m bufLength) := inferInstanceAs (Decidable (_ ∧ _))

end Memory

section Bounds

variable {m : BitVec 16 → BitVec 32} {phy10g : Bool} {i : Nat}

theorem captWrPtr_lt (value : BitVec 32) : captWrPtr value < 64 := (value.extractLsb' 1 6).isLt

/-- A frame that is not refused has at most 126 words. -/
theorem words_le_of_not_tooLong (h : ¬CaptureTooLong m) : captPktSize (m (captDataReg 0)) / 4 + 1 ≤ 126 := by
  have hwr := captWrPtr_lt (m captStatusReg)
  unfold CaptureTooLong headerSize at h
  omega

theorem captDataReg_not_mem_all : ∀ i : BitVec 8, i < 128 → ∀ phy10g, captDataReg i ∉ (captDisable phy10g).map Prod.fst := by
  decide +kernel

/-- Disabling the triggers leaves the memory alone. -/
theorem captDataReg_not_mem (hi : i < 128) : captDataReg (BitVec.ofNat 8 i) ∉ (captDisable phy10g).map Prod.fst := by
  apply captDataReg_not_mem_all
  rw [BitVec.lt_def, BitVec.toNat_ofNat, Nat.mod_eq_of_lt (by omega)]
  exact hi

end Bounds

/-! ## What the call leaves -/

section Left

variable (f : Faults) (phy10g : Bool) (bufLength : Nat) (m : BitVec 16 → BitVec 32)

/-- The number of the access that enables the first trigger again. -/
def captEnableAt : Nat := 4 + (captDisable phy10g).length + captPktSize (m (captDataReg 0)) / 4

/-- The words while the triggers are disabled. -/
def disabledWords : BitVec 16 → BitVec 32 := wordsAfter f 1 (captDisable phy10g) m

/-- The words after the call. -/
def captureWords : BitVec 16 → BitVec 32 :=
  if ¬CaptureServed m bufLength then m
  else if CaptureTooLong m then disabledWords f phy10g m
  else wordsAfter f (captEnableAt phy10g m) (captEnable phy10g) (disabledWords f phy10g m)

/-- What the call leaves, however it ends. -/
structure CaptureLeft (s : Dev CaptureOut (Counted (BitVec 16) 32)) : Prop where
  words : s.hw.words = captureWords f phy10g bufLength m
  inside : s.conf.frame.length ≤ bufLength

/-- The frame and its length. -/
structure CaptureDone (s : Dev CaptureOut (Counted (BitVec 16) 32)) : Prop where
  left : CaptureLeft f phy10g bufLength m s
  length : s.conf.frmLength = capturedLength m
  bytes : ∀ i < capturedLength m, s.conf.frame[i]? = some (capturedByte m i)

end Left

section Ends

variable {f : Faults} {phy10g : Bool} {bufLength : Nat} {m : BitVec 16 → BitVec 32} {code : Int} {c : CaptureOut}
  {n k len : Nat} {ctr : CaptureRc → Nat} {s : Dev CaptureOut (Counted (BitVec 16) 32)}
  {E : Dev CaptureOut (Counted (BitVec 16) 32) → Prop} {Q : Unit → Dev CaptureOut (Counted (BitVec 16) 32) → Prop}

theorem ends_setFrmLength (len : Nat) : Ends (Reached f c m n) (setFrmLength len)
    (fun _ => Reached f { c with frmLength := len } m n) E :=
  Ends.modify fun _ hs => ⟨by rw [hs.conf], hs.words, hs.count, hs.goes⟩

theorem ends_dbgCounterIncr {rc : CaptureRc}
    (h : ∀ s : Dev CaptureOut (Counted (BitVec 16) 32), s.conf.frame = c.frame → s.hw.words = m → E s) :
    Ends (Reached f c m n) (dbgCounterIncr rc) Q E := by
  apply Ends.bind (Q := fun _ s => s.conf.frame = c.frame ∧ s.hw.words = m)
  · exact Ends.modify fun s hs => ⟨show s.conf.frame = c.frame by rw [hs.conf], hs.words⟩
  · intro _
    exact Ends.throw fun s hs => h s hs.1 hs.2

/-- Before the triggers are enabled again. -/
theorem captureWords_of_not_goes (hserved : CaptureServed m bufLength) (h : ¬f.Goes (captEnableAt phy10g m)) :
    captureWords f phy10g bufLength m = disabledWords f phy10g m := by
  rw [captureWords, if_neg (not_not.mpr hserved), wordsAfter_of_not_goes h, ite_self]

/-- The words that are copied have room. -/
theorem inside_of_words (hserved : CaptureServed m bufLength) (hlong : ¬CaptureTooLong m)
    (hk : k ≤ captPktSize (m (captDataReg 0)) / 4 + 1) : (bytesOfWords (capturedWord m) k).length ≤ bufLength := by
  have hwords := words_le_of_not_tooLong hlong
  have hmax : 504 ≤ bufLength := hserved.2
  rw [length_bytesOfWords]
  omega

/-- A call that is stopped before it has read a word of the frame. -/
theorem left_of_stopped (hserved : CaptureServed m bufLength) (hn : n ≤ 3 + (captDisable phy10g).length) (hc : c.frame = [])
    (hs : Stopped f c (disabledWords f phy10g m) n s) : CaptureLeft f phy10g bufLength m s := by
  have hnot : ¬f.Goes (captEnableAt phy10g m) := fun hg => hs.fails (hg.mono (by unfold captEnableAt; omega))
  constructor
  · rw [hs.words, captureWords_of_not_goes hserved hnot]
  · rw [hs.conf, hc]
    exact Nat.zero_le _

/-- A call whose first access fails. -/
theorem left_of_stopped_first (hc : c.frame = []) (hs : Stopped f c m 1 s) : CaptureLeft f phy10g bufLength m s := by
  have hnot : ¬f.Goes (captEnableAt phy10g m) := fun hg => hs.fails (hg.mono (by unfold captEnableAt; omega))
  constructor
  · rw [hs.words, captureWords, disabledWords, wordsAfter_of_not_goes hnot, wordsAfter_of_not_goes hs.fails, ite_self,
      ite_self]
  · rw [hs.conf, hc]
    exact Nat.zero_le _

/-- One word of the frame. -/
theorem ends_copyWord (code : Int) {words : BitVec 16 → BitVec 32} {frame : List (BitVec 8)} (i : BitVec 8) :
    Ends (Reached f ⟨len, frame, ctr⟩ words n) (copyWord (faulty f code) i)
      (fun _ => Reached f ⟨len, frame ++ bytesOf (words (captDataReg i)), ctr⟩ words (n + 1))
      (Stopped f ⟨len, frame, ctr⟩ words (n + 1)) := by
  refine (ends_read_faulty f code CaptureRc.access (captDataReg i)).bind fun v => ?_
  refine Ends.modify fun s hs => ?_
  obtain ⟨rfl, hs⟩ := hs
  exact ⟨by rw [hs.conf], hs.words, hs.count, hs.goes⟩

/-- The words of the frame. -/
theorem ends_copyWords (hserved : CaptureServed m bufLength) (hlong : ¬CaptureTooLong m) :
    Ends (Reached f ⟨len, [], ctr⟩ (disabledWords f phy10g m) (3 + (captDisable phy10g).length))
      (copyWords (faulty f code) (captPktSize (m (captDataReg 0)) / 4 + headerSize) 256 (BitVec.ofNat 8 headerSize))
      (fun _ => Reached f ⟨len, bytesOfWords (capturedWord m) (captPktSize (m (captDataReg 0)) / 4 + 1), ctr⟩
        (disabledWords f phy10g m) (captEnableAt phy10g m))
      (CaptureLeft f phy10g bufLength m) := by
  have hwords := words_le_of_not_tooLong hlong
  have hat : captEnableAt phy10g m =
      3 + (captDisable phy10g).length + (captPktSize (m (captDataReg 0)) / 4 + 1) := by unfold captEnableAt; omega
  have hbody : ∀ k < captPktSize (m (captDataReg 0)) / 4 + 1,
      Ends (Reached f ⟨len, bytesOfWords (capturedWord m) k, ctr⟩ (disabledWords f phy10g m)
          (3 + (captDisable phy10g).length + k))
        (copyWord (faulty f code) (BitVec.ofNat 8 (headerSize + k)))
        (fun _ => Reached f ⟨len, bytesOfWords (capturedWord m) (k + 1), ctr⟩ (disabledWords f phy10g m)
          (3 + (captDisable phy10g).length + (k + 1)))
        (CaptureLeft f phy10g bufLength m) := by
    intro k hk
    have hdata : disabledWords f phy10g m (captDataReg (BitVec.ofNat 8 (headerSize + k))) = capturedWord m k :=
      wordsAfter_of_not_mem (captDataReg_not_mem (by unfold headerSize; omega))
    rw [bytesOfWords_succ, ← hdata]
    refine (ends_copyWord code _).weaken (fun _ _ h => h) fun s hs => ?_
    have hnot : ¬f.Goes (captEnableAt phy10g m) := fun hg => hs.fails (hg.mono (by omega))
    constructor
    · rw [hs.words, captureWords_of_not_goes hserved hnot]
    · rw [hs.conf]
      exact inside_of_words hserved hlong (by omega)
  have hlast : captPktSize (m (captDataReg 0)) / 4 + headerSize < 255 := by unfold headerSize; omega
  rw [copyWords_eq _ hlast (n := captPktSize (m (captDataReg 0)) / 4 + 1) (by unfold headerSize; omega) (by omega), hat]
  exact Ends.forUpTo _ hbody

/-- The triggers are enabled again, and a truncated frame is refused. -/
theorem ends_captEnable (hserved : CaptureServed m bufLength) (hlong : ¬CaptureTooLong m) {truncated : Prop}
    [Decidable truncated] :
    Ends (Reached f ⟨captPktSize (m (captDataReg 0)),
          bytesOfWords (capturedWord m) (captPktSize (m (captDataReg 0)) / 4 + 1), ctr⟩
        (disabledWords f phy10g m) (captEnableAt phy10g m))
      (writeEach (faulty f code) CaptureRc.access (captEnable phy10g) >>= fun _ =>
        if truncated then dbgCounterIncr .frameTruncated else pure ())
      (fun _ => CaptureDone f phy10g bufLength m) (CaptureLeft f phy10g bufLength m) := by
  have hleft : ∀ t : Dev CaptureOut (Counted (BitVec 16) 32),
      t.conf.frame = bytesOfWords (capturedWord m) (captPktSize (m (captDataReg 0)) / 4 + 1) →
      t.hw.words = wordsAfter f (captEnableAt phy10g m) (captEnable phy10g) (disabledWords f phy10g m) →
        CaptureLeft f phy10g bufLength m t := by
    intro t hc hw
    constructor
    · rw [hw, captureWords, if_neg (not_not.mpr hserved), if_neg hlong]
    · rw [hc]
      exact inside_of_words hserved hlong (Nat.le_refl _)
  refine ((ends_writeEach_faulty f code CaptureRc.access _).weaken (fun _ _ h => h)
    fun t ht => hleft t (congrArg CaptureOut.frame ht.conf) ht.words).bind fun _ => ?_
  refine Ends.ite (fun _ => ends_dbgCounterIncr hleft) fun _ => Ends.pure fun t ht => ?_
  have hlen : capturedLength m = captPktSize (m (captDataReg 0)) := if_neg hserved.1
  refine ⟨hleft t (congrArg CaptureOut.frame ht.conf) ht.words, by rw [ht.conf, hlen], fun i hi => ?_⟩
  rw [hlen] at hi
  rw [ht.conf]
  exact bytesOfWords_getElem? (by omega)

/-- **The call.** -/
theorem ends_frameGetPriv (code : Int) (hc : c.frame = []) :
    Ends (Reached f c m 0) (frameGetPriv (faulty f code) (some phy10g) bufLength) (fun _ => CaptureDone f phy10g bufLength m)
      (CaptureLeft f phy10g bufLength m) := by
  obtain ⟨len₀, _, ctr⟩ := c
  subst hc
  have hrd : ∀ {c : CaptureOut} {words : BitVec 16 → BitVec 32} {n : Nat} (r : BitVec 16), Ends (Reached f c words n)
      (captRd (faulty f code) r) (fun v s => v = words r ∧ Reached f c words (n + 1) s)
      (Stopped f c words (n + 1)) := ends_read_faulty f code CaptureRc.access
  have hnone : ∀ {t : Dev CaptureOut (Counted (BitVec 16) 32)}, ¬CaptureServed m bufLength → t.conf.frame = [] →
      t.hw.words = m → CaptureLeft f phy10g bufLength m t := by
    intro t hno hf hw
    exact ⟨by rw [hw, captureWords, if_pos hno], by rw [hf]; exact Nat.zero_le _⟩
  refine (ends_setFrmLength 0).bind fun _ => ?_
  refine ((hrd captStatusReg).weaken (fun _ _ h => h) fun _ hs => left_of_stopped_first rfl hs).bind fun v => ?_
  intro s hs
  obtain ⟨rfl, hs⟩ := hs
  revert s
  refine Ends.ite (fun hpkt => Ends.pure fun s hs => ?_) fun hpkt => Ends.ite (fun hbuf => ?_) fun hbuf => ?_
  · -- no frame has been captured
    have hlen : capturedLength m = 0 := if_pos hpkt
    have hleft : CaptureLeft f phy10g bufLength m s :=
      hnone (fun hserved => hserved.1 hpkt) (congrArg CaptureOut.frame hs.conf) hs.words
    exact ⟨hleft, by rw [hs.conf, hlen], fun i hi => by omega⟩
  · exact ends_dbgCounterIncr fun s hf hw => hnone (fun hserved => Nat.not_lt.mpr hserved.2 hbuf) hf hw
  · have hserved : CaptureServed m bufLength := ⟨hpkt, Nat.not_lt.mp hbuf⟩
    have hheader : disabledWords f phy10g m (captDataReg 0) = m (captDataReg 0) :=
      wordsAfter_of_not_mem (captDataReg_not_mem_all 0 (by decide) phy10g)
    refine ((ends_writeEach_faulty f code CaptureRc.access (captDisable phy10g)).weaken (fun _ _ h => h)
      fun _ hs => left_of_stopped hserved (by omega) rfl hs).bind fun _ => ?_
    refine ((hrd _).weaken (fun _ _ h => h) fun _ hs => left_of_stopped hserved (by omega) rfl hs).bind fun admHdr0 => ?_
    intro s hs
    obtain ⟨rfl, hs⟩ := hs
    rw [hheader]
    revert s
    refine ((hrd _).weaken (fun _ _ h => h) fun _ hs => left_of_stopped hserved (by omega) rfl hs).bind fun _ => ?_
    refine Ends.pre ?_ fun _ hs => hs.2
    refine (ends_setFrmLength _).bind fun _ => Ends.ite (fun hlong => ?_) fun hlong => ?_
    · refine (ends_setFrmLength _).bind fun _ => ends_dbgCounterIncr fun s hf hw => ?_
      have hlong : CaptureTooLong m := hlong
      constructor
      · rw [hw, captureWords, if_neg (not_not.mpr hserved), if_pos hlong]
      · rw [hf]
        exact Nat.zero_le _
    · have hcount : 1 + (captDisable phy10g).length + 1 + 1 = 3 + (captDisable phy10g).length := by omega
      rw [hcount]
      exact (ends_copyWords hserved hlong).bind fun _ => ends_captEnable hserved hlong

end Ends

/-! ## Loops and triggers -/

section Never

variable {f : Faults} {code : Int} {m : BitVec 16 → BitVec 32} {bufLength : Nat}

theorem never_read (r : BitVec 16) :
    Never .endless (RegBus.read (C := CaptureOut) (faulty (w := 32) f code) CaptureRc.access r) := by
  intro s s' h
  simp only [RegBus.read] at h
  split at h <;> cases h

theorem never_writeEach (ps : List (BitVec 16 × BitVec 32)) :
    Never .endless (writeEach (C := CaptureOut) (faulty f code) CaptureRc.access ps) := by
  induction ps with
  | nil => exact Never.pure ()
  | cons p ps ih =>
    refine Never.bind (fun s s' h => ?_) fun _ => ih
    simp only [RegBus.write] at h
    split at h <;> cases h

theorem never_dbgCounterIncr {H : Type} {rc : CaptureRc} (h : rc ≠ .endless) :
    Never .endless (dbgCounterIncr rc : CaptureCall H Unit) :=
  (Never.modify _).bind fun _ => Never.throw h

/-- The loop of the call ends. -/
theorem never_frameGetPriv (phy10g : Option Bool) :
    Never .endless (frameGetPriv (faulty f code) phy10g bufLength) := by
  refine (Never.modify _).bind fun _ => ?_
  cases phy10g with
  | none => exact Never.throw (by decide)
  | some phy10g =>
    refine (never_read captStatusReg).bind fun value => ?_
    refine Never.ite (fun _ => Never.pure ()) fun _ => ?_
    refine Never.ite (fun _ => never_dbgCounterIncr (by decide)) fun _ => ?_
    refine (never_writeEach _).bind fun _ => (never_read _).bind fun admHdr0 => (never_read _).bind fun _ => ?_
    refine (Never.modify _).bind fun _ => Never.ite (fun _ => ?_) fun hlong => ?_
    · exact (Never.modify _).bind fun _ => never_dbgCounterIncr (by decide)
    · have hwr := captWrPtr_lt value
      have hlast : captPktSize admHdr0 / 4 + headerSize < 255 := by unfold headerSize at hlong ⊢; omega
      rw [copyWords_eq _ hlast (n := captPktSize admHdr0 / 4 + 1) (by unfold headerSize; omega) (by omega)]
      refine (Never.forUpTo (fun k => ?_) _).bind fun _ => (never_writeEach _).bind fun _ => ?_
      · exact (never_read _).bind fun _ => Never.modify _
      · exact Never.ite (fun _ => never_dbgCounterIncr (by decide)) fun _ => Never.pure ()

end Never

/-- `CAPT_DEBUG_TRIGGER`, `.._SA1` and `.._SA2`, where they are. -/
def captTriggers (phy10g : Bool) : List (BitVec 16) := (captEnable phy10g).map Prod.fst

/-- No access fails. -/
def noFaults : Faults := ⟨fun _ => false, fun _ => false⟩

section Triggers

variable {f : Faults} {phy10g : Bool} {m : BitVec 16 → BitVec 32} {code : Int} {c : CaptureOut} {r : BitVec 16}
  {v : BitVec 32} {i bufLength : Nat}

theorem noFaults_carried (n : Nat) : noFaults.Carried n := ⟨fun _ _ => rfl, Or.inl rfl⟩

theorem captSetEnable_nodup : (((captCtrlReg, v) :: captSetEnable phy10g).map Prod.fst).Nodup := by
  have h : (captCtrlReg :: (captSetEnable phy10g).map Prod.fst).Nodup := by cases phy10g <;> decide
  exact h

/-- The call that sets the capture leaves a trigger with the word that enables it. -/
theorem ends_frameCaptureSetPriv (code : Int) {capture : FrameCapture} (hcapture : capture ≠ .disable)
    (hv : (r, v) ∈ captEnable phy10g) : Ends (Reached noFaults c m 0)
      (frameCaptureSetPriv (faulty noFaults code) (some phy10g) capture) (fun _ s => s.hw.words r = v) fun _ => False := by
  refine (ends_writeEach_faulty noFaults code CaptureRc.access _).weaken (fun _ s hs => ?_) fun s hs => ?_
  · have hall : ∀ p ∈ captEnable phy10g, p ∈ captSetEnable phy10g := by
      cases phy10g <;> simp [captEnable, captSetEnable]
    obtain ⟨i, hi⟩ := List.getElem?_of_mem (hall _ hv)
    have hplace : ((captCtrlReg, captCtrl capture) :: captSetEnable phy10g)[i + 1]? = some (r, v) := hi
    rw [hs.words, captSet, if_neg hcapture, wordsAfter_append, wordsAfter_of_getElem? captSetEnable_nodup hplace,
      if_pos (noFaults_carried _)]
  · exact absurd (fun _ _ => rfl) hs.fails

theorem captureSet_words (code : Int) {capture : FrameCapture} (hcapture : capture ≠ .disable)
    (hv : (r, v) ∈ captEnable phy10g) :
    (final (frameCaptureSetPriv (faulty noFaults code) (some phy10g) capture) ⟨c, ⟨m, 0⟩⟩).hw.words r = v := by
  have hstart : Reached noFaults c m 0 ⟨c, ⟨m, 0⟩⟩ := ⟨rfl, rfl, rfl, Faults.goes_zero⟩
  rcases (ends_frameCaptureSetPriv code hcapture hv).final hstart with ⟨-, -, h⟩ | ⟨-, h⟩
  · exact h
  · exact h.elim

/-- What becomes of a trigger after the triggers have been disabled. -/
theorem captureWords_trigger (hserved : CaptureServed m bufLength) (hgoes : f.Goes (1 + (captDisable phy10g).length))
    (hi : (captEnable phy10g)[i]? = some (r, v)) : captureWords f phy10g bufLength m r =
      if ¬CaptureTooLong m ∧ f.Carried (captEnableAt phy10g m + i) then v else 0 := by
  have hall : ∀ p ∈ captEnable phy10g, (p.1, 0#32) ∈ captDisable phy10g := by
    cases phy10g <;> simp [captEnable, captDisable]
  have hdisable : ((captDisable phy10g).map Prod.fst).Nodup := by cases phy10g <;> decide
  have henable : ((captEnable phy10g).map Prod.fst).Nodup := by cases phy10g <;> decide
  obtain ⟨j, hj⟩ := List.getElem?_of_mem (hall _ (List.mem_of_getElem? hi))
  have hjlt : j < (captDisable phy10g).length := List.getElem?_eq_some_iff.mp hj |>.1
  have hzero : disabledWords f phy10g m r = 0 := by
    rw [disabledWords, wordsAfter_of_getElem? hdisable hj, if_pos (hgoes.carried (by omega))]
    rfl
  rw [captureWords, if_neg (not_not.mpr hserved)]
  by_cases hlong : CaptureTooLong m
  · rw [if_pos hlong, if_neg fun h => h.1 hlong, hzero]
  · rw [if_neg hlong, wordsAfter_of_getElem? henable hi, hzero]
    simp only [hlong, not_false_eq_true, true_and]

end Triggers

/-! ## The buffer and the triggers -/

/-- The state before a call: a length, the counters, and nothing written to the buffer. -/
def captureStart (len : Nat) (ctr : CaptureRc → Nat) (m : BitVec 16 → BitVec 32) : Dev CaptureOut (Counted (BitVec 16) 32) :=
  ⟨⟨len, [], ctr⟩, ⟨m, 0⟩⟩

/-- The call stays within the buffer, hands over the captured frame when it returns, and ends; when it has disabled the
triggers, it leaves them as the call that sets the capture does. -/
structure FrameGetRight (f : Faults) (code : Int) (phy10g : Option Bool) (m : BitVec 16 → BitVec 32) (len : Nat)
    (ctr : CaptureRc → Nat) (bufLength : Nat) : Prop where
  inside : (final (frameGetPriv (faulty f code) phy10g bufLength) (captureStart len ctr m)).conf.frame.length ≤ bufLength
  captured : ∀ s, frameGetPriv (faulty f code) phy10g bufLength (captureStart len ctr m) = .ok () s →
    s.conf.frmLength = capturedLength m ∧ ∀ i < capturedLength m, s.conf.frame[i]? = some (capturedByte m i)
  ends : ∀ s, frameGetPriv (faulty f code) phy10g bufLength (captureStart len ctr m) ≠ .error .endless s
  triggers : ∀ p, phy10g = some p → CaptureServed m bufLength → f.Goes (1 + (captDisable p).length) →
    ∀ capture ≠ .disable, ∀ (c₀ : CaptureOut) (m₀ : BitVec 16 → BitVec 32), ∀ r ∈ captTriggers p,
      (final (frameGetPriv (faulty f code) phy10g bufLength) (captureStart len ctr m)).hw.words r =
        (final (frameCaptureSetPriv (faulty noFaults code) phy10g capture) ⟨c₀, ⟨m₀, 0⟩⟩).hw.words r

/-- When the triggers have been disabled: the frame is not too long, and the triggers are enabled again. -/
def FrameGetFits (f : Faults) (phy10g : Option Bool) (m : BitVec 16 → BitVec 32) (bufLength : Nat) : Prop :=
  ∀ p, phy10g = some p → CaptureServed m bufLength → f.Goes (1 + (captDisable p).length) →
    ¬CaptureTooLong m ∧ ∀ i < (captEnable p).length, f.Carried (captEnableAt p m + i)

section Right

variable {f : Faults} {phy10g : Option Bool} {m : BitVec 16 → BitVec 32} {len bufLength : Nat} {ctr : CaptureRc → Nat}

theorem captureLeft_final (code : Int) (p : Bool) :
    CaptureLeft f p bufLength m (final (frameGetPriv (faulty f code) (some p) bufLength) (captureStart len ctr m)) := by
  have hstart : Reached f (⟨len, [], ctr⟩ : CaptureOut) m 0 (captureStart len ctr m) := ⟨rfl, rfl, rfl, Faults.goes_zero⟩
  have hends : Ends (Reached f (⟨len, [], ctr⟩ : CaptureOut) m 0) (frameGetPriv (faulty f code) (some p) bufLength) _ _ :=
    ends_frameGetPriv code rfl
  rcases hends.final hstart with ⟨-, -, h⟩ | ⟨-, h⟩
  · exact h.left
  · exact h

theorem FrameGetRight.fits {code : Int} (h : FrameGetRight f code phy10g m len ctr bufLength) :
    FrameGetFits f phy10g m bufLength := by
  rintro p rfl hserved hgoes
  have hone : ∀ (i : Nat) (r : BitVec 16) (v : BitVec 32), (captEnable p)[i]? = some (r, v) →
      ¬CaptureTooLong m ∧ f.Carried (captEnableAt p m + i) := by
    intro i r v hi
    have hmem : (r, v) ∈ captEnable p := List.mem_of_getElem? hi
    have hne : ∀ q ∈ captEnable p, q.2 ≠ 0 := by cases p <;> simp [captEnable, triggerEnable]
    have hword := h.triggers p rfl hserved hgoes .ingress (by decide) ⟨0, [], fun _ => 0⟩ (fun _ => 0) r
      (List.mem_map.mpr ⟨(r, v), hmem, rfl⟩)
    rw [(captureLeft_final code p).words, captureWords_trigger hserved hgoes hi, captureSet_words code (by decide) hmem]
      at hword
    by_contra hno
    rw [if_neg hno] at hword
    exact hne _ hmem hword.symm
  constructor
  · have hfirst : 0 < (captEnable p).length := by cases p <;> decide
    exact (hone 0 _ _ (List.getElem?_eq_getElem hfirst)).1
  · intro i hi
    exact (hone i _ _ (List.getElem?_eq_getElem hi)).2

theorem FrameGetFits.right (h : FrameGetFits f phy10g m bufLength) (code : Int) (len : Nat) (ctr : CaptureRc → Nat) :
    FrameGetRight f code phy10g m len ctr bufLength := by
  cases phy10g with
  | none =>
    constructor
    · exact Nat.zero_le _
    · intro s hs
      cases hs
    · intro s
      exact never_frameGetPriv none _ s
    · intro p hp
      cases hp
  | some p =>
    constructor
    · exact (captureLeft_final code p).inside
    · intro s hs
      have hends : Ends (Reached f (⟨len, [], ctr⟩ : CaptureOut) m 0) (frameGetPriv (faulty f code) (some p) bufLength) _ _ :=
        ends_frameGetPriv code rfl
      have hdone := hends.ok ⟨rfl, rfl, rfl, Faults.goes_zero⟩ hs
      exact ⟨hdone.length, hdone.bytes⟩
    · intro s
      exact never_frameGetPriv (some p) _ s
    · rintro p' ⟨rfl⟩ hserved hgoes capture hcapture c₀ m₀ r hr
      obtain ⟨hlong, hcarried⟩ := h p rfl hserved hgoes
      obtain ⟨⟨r, v⟩, hmem, rfl⟩ := List.mem_map.mp hr
      obtain ⟨i, hi⟩ := List.getElem?_of_mem hmem
      have hlt : i < (captEnable p).length := (List.getElem?_eq_some_iff.mp hi).1
      rw [(captureLeft_final code p).words, captureWords_trigger hserved hgoes hi, if_pos ⟨hlong, hcarried i hlt⟩,
        captureSet_words code hcapture hmem]

end Right

/-- For any memory of the capture, any length of the buffer and any accesses that fail: the call is right exactly when,
after it has disabled the triggers, the frame is not too long and no access fails until they are enabled. -/
theorem frame_get_right_iff (f : Faults) (code : Int) (phy10g : Option Bool) (m : BitVec 16 → BitVec 32) (len : Nat)
    (ctr : CaptureRc → Nat) (bufLength : Nat) :
    FrameGetRight f code phy10g m len ctr bufLength ↔ FrameGetFits f phy10g m bufLength :=
  ⟨FrameGetRight.fits, fun h => h.right code len ctr⟩

/-- Without faults, what counts is the length of the frame. -/
theorem frameGetFits_noFaults {phy10g : Bool} {m : BitVec 16 → BitVec 32} {bufLength : Nat} :
    FrameGetFits noFaults (some phy10g) m bufLength ↔ (CaptureServed m bufLength → ¬CaptureTooLong m) := by
  constructor
  · intro h hserved
    exact (h phy10g rfl hserved fun _ _ => rfl).1
  · intro h p _ hserved _
    exact ⟨h hserved, fun i _ => noFaults_carried _⟩

/-- A frame of 100 bytes is recorded where only 8 bytes have been captured. -/
def longFrame : BitVec 16 → BitVec 32 := fun r =>
  if r = captStatusReg then 0x102 else if r = captDataReg 0 then 100 else 0

/-- After the error the capture stays disabled. -/
theorem not_frame_get_right : ¬∀ (f : Faults) (code : Int) (phy10g : Option Bool) (m : BitVec 16 → BitVec 32) (len : Nat)
    (ctr : CaptureRc → Nat) (bufLength : Nat), FrameGetRight f code phy10g m len ctr bufLength := by
  intro h
  have hfits := (h noFaults (-1) (some true) longFrame 0 (fun _ => 0) 504).fits
  have hserved : CaptureServed longFrame 504 := by decide
  exact frameGetFits_noFaults.mp hfits hserved (by decide)

end Lan80xx.VtssMacsec.Capture
