import Lan80xx.Lib.ByteMem
import Lan80xx.Lib.FaultyRegs
import Lan80xx.Macsec.Regs

/-!
# The capture FIFO

`lan80xx_macsec_frame_get_priv` disables the triggers of the capture, reads a frame out of its memory word by word, and
enables all triggers. The frame goes to the caller's buffer from its start on, so that the bytes written are a list.

- `ends_frameGetPriv`: what the call leaves, for any frame and any accesses that fail;
- `frame_get_iff`: when it stays in the buffer and leaves the triggers as they were.
-/

namespace Lan80xx.Macsec

open Fallible RegBus

/-! ## Registers -/

/-- `CAPT_DEBUG_DATA(i)` -/
def captDataReg (i : Nat) : IoReg := ioreg .egress (0xC50 + i)

def captStatusReg : IoReg := ioreg .egress 0xCD1

/-- `CAPT_DEBUG_TRIGGER_SA1` to `.._SA4` -/
def captTriggerSaReg (n : Nat) : IoReg := ioreg .egress (0xCD1 + n)

def captTriggerReg : IoReg := ioreg .egress 0xCD6

/-- `LAN80XX_MACSEC_SA_TRIGGER_MASK` -/
def saTriggerMask : BitVec 32 := 0xFFFFFFFF#32

/-- The triggers are disabled in this order. -/
def captDisable : List (IoReg × BitVec 32) :=
  [(captTriggerReg, 0), (captTriggerSaReg 2, 0), (captTriggerSaReg 1, 0), (captTriggerSaReg 3, 0),
    (captTriggerSaReg 4, 0)]

/-- All triggers are enabled in this order. -/
def captEnable : List (IoReg × BitVec 32) :=
  [(captTriggerSaReg 1, saTriggerMask), (captTriggerSaReg 2, saTriggerMask), (captTriggerSaReg 3, saTriggerMask),
    (captTriggerSaReg 4, saTriggerMask), (captTriggerReg, bit 0)]

/-! ## The call -/

/-- A failed access, `MEPA_RC_ERR_MACSEC_FRAME_TOO_LONG` and `.._FRAME_TRUNCATED`. -/
inductive CaptureRc
  | access (rc : Int)
  | frameTooLong
  | frameTruncated
  deriving DecidableEq, Repr

/-- `*frm_length`, and the bytes written to `frame`. -/
structure CaptureOut where
  frmLength : Nat
  frame : List (BitVec 8)
  deriving DecidableEq, Repr

abbrev CaptureCall (H : Type) (α : Type) := EStateM CaptureRc (Dev CaptureOut H) α

variable {H : Type} (bus : Bus IoReg 32 H)

/-- `WR_PTR` of the status -/
def captWrPtr (value : BitVec 32) : Nat := ((value >>> 1) &&& 0x3F).toNat

/-- `PKT_COUNT` of the status -/
def captPktCount (value : BitVec 32) : Nat := ((value >>> 8) &&& 0x1F).toNat

/-- `LAN80XX_MACSEC_FIFO_PKT_SIZE_MASK` -/
def captPktSize (admHdr0 : BitVec 32) : Nat := (admHdr0 &&& 0x1FF).toNat

/-- `LAN80XX_MACSEC_FIFO_TRUNCATED_MASK` -/
def captTruncated (admHdr0 : BitVec 32) : Bool := admHdr0 &&& 0x200 ≠ 0

/-- `header_size`, in registers -/
def captHeaderSize : Nat := 2

/-- The four bytes of a word, the low one first. -/
def wordBytes (value : BitVec 32) : List (BitVec 8) := (List.range 4).map (ByteMem.byteOf value)

def setFrmLength (n : Nat) : CaptureCall H Unit := modify fun s => { s with conf := { s.conf with frmLength := n } }

def captRd (r : IoReg) : CaptureCall H (BitVec 32) := RegBus.read bus CaptureRc.access r

/-- One word of the frame. -/
def captFrameWord (i : Nat) : CaptureCall H Unit := do
  let value ← captRd bus (captDataReg i)
  modify fun s => { s with conf := { s.conf with frame := s.conf.frame ++ wordBytes value } }

/-- `lan80xx_macsec_frame_get_priv`: the length of the buffer is not looked at. -/
def frameGetPriv (_bufLength : Nat) : CaptureCall H Unit := do
  setFrmLength 0
  let value ← captRd bus captStatusReg
  if captPktCount value = 0 then pure () else do
    writeEach bus CaptureRc.access captDisable
    let admHdr0 ← captRd bus (captDataReg 0)
    let _ ← captRd bus (captDataReg 1)
    let frmLength := captPktSize admHdr0
    setFrmLength frmLength
    if captWrPtr value * 8 ≤ frmLength + captHeaderSize then do
      setFrmLength (captWrPtr value)
      throw .frameTooLong
    else do
      forUpTo (frmLength / 4 + 1) fun i => captFrameWord bus (captHeaderSize + i)
      writeEach bus CaptureRc.access captEnable
      failIf (captTruncated admHdr0 = true) .frameTruncated

/-! ## What is in the capture memory -/

section Memory

variable (m : IoReg → BitVec 32)

/-- Byte `i` of the captured frame. -/
def capturedByte (i : Nat) : BitVec 8 := ByteMem.byteOf (m (captDataReg (captHeaderSize + i / 4))) (i % 4)

/-- The length of the captured frame; 0 when there is none. -/
def capturedLength : Nat := if captPktCount (m captStatusReg) = 0 then 0 else captPktSize (m (captDataReg 0))

/-- The frame is refused as longer than what has been captured. -/
def CaptureTooLong : Prop := captWrPtr (m captStatusReg) * 8 ≤ captPktSize (m (captDataReg 0)) + captHeaderSize

instance : Decidable (CaptureTooLong m) := inferInstanceAs (Decidable (_ ≤ _))

/-- The first words of the frame. -/
def capturedWords (n : Nat) : List (BitVec 8) :=
  (List.range n).flatMap fun i => wordBytes (m (captDataReg (captHeaderSize + i)))

end Memory

section Words

variable {m : IoReg → BitVec 32} {n i : Nat}

theorem capturedWords_succ (n : Nat) :
    capturedWords m (n + 1) = capturedWords m n ++ wordBytes (m (captDataReg (captHeaderSize + n))) :=
  ByteMem.bytesOfWords_succ n

@[simp] theorem length_capturedWords (n : Nat) : (capturedWords m n).length = 4 * n := ByteMem.length_bytesOfWords n

/-- The words of the frame are its bytes. -/
theorem capturedWords_getElem? (hi : i < 4 * n) : (capturedWords m n)[i]? = some (capturedByte m i) :=
  ByteMem.bytesOfWords_getElem? hi

theorem captWrPtr_lt (value : BitVec 32) : captWrPtr value < 64 := by
  rw [captWrPtr, BitVec.toNat_and]
  exact Nat.lt_succ_of_le Nat.and_le_right

/-- Disabling the triggers leaves the memory alone. -/
theorem captDataReg_not_mem (hi : i < 128) : captDataReg i ∉ captDisable.map Prod.fst := by
  have haddr : (captDataReg i).addr < 0xCD0 := by
    simp only [captDataReg, ioreg]
    omega
  have hall : ∀ r ∈ captDisable.map Prod.fst, 0xCD0 ≤ r.addr := by decide
  intro hmem
  have := hall _ hmem
  omega

end Words

/-! ## What the call leaves -/

section Left

variable (f : Faults) (m : IoReg → BitVec 32)

/-- The number of the access that enables the first trigger again. -/
def captEnableAt : Nat := 9 + captPktSize (m (captDataReg 0)) / 4

/-- The words after a call for a captured frame. -/
def captureWords : IoReg → BitVec 32 :=
  if captPktCount (m captStatusReg) = 0 then m
  else if CaptureTooLong m then wordsAfter f 1 captDisable m
  else wordsAfter f (captEnableAt m) captEnable (wordsAfter f 1 captDisable m)

/-- Word `k` of the frame is read. -/
def CaptureReads (k : Nat) : Prop :=
  captPktCount (m captStatusReg) ≠ 0 ∧ ¬CaptureTooLong m ∧ k ≤ captPktSize (m (captDataReg 0)) / 4 ∧ f.Goes (9 + k)

/-- What the call leaves, however it ends. -/
structure CaptureLeft (s : Dev CaptureOut (Counted IoReg 32)) : Prop where
  words : s.hw.words = captureWords f m
  frame : ∃ n, s.conf.frame = capturedWords m n ∧ ∀ k, k < n ↔ CaptureReads f m k

/-- The frame and its length. -/
structure CaptureDone (s : Dev CaptureOut (Counted IoReg 32)) : Prop where
  left : CaptureLeft f m s
  length : s.conf.frmLength = capturedLength m
  bytes : ∀ i < capturedLength m, s.conf.frame[i]? = some (capturedByte m i)

end Left

section Ends

variable {f : Faults} {m : IoReg → BitVec 32} {code : Int} {c : CaptureOut} {n k len : Nat}
  {s : Dev CaptureOut (Counted IoReg 32)} {E : Dev CaptureOut (Counted IoReg 32) → Prop}

theorem ends_setFrmLength (len : Nat) : Ends (Reached f c m n) (setFrmLength len)
    (fun _ => Reached f { c with frmLength := len } m n) E :=
  Ends.modify fun _ hs => ⟨by rw [hs.conf], hs.words, hs.count, hs.goes⟩

/-- No trigger is enabled again before all words have been read. -/
theorem captureWords_of_not_goes (hpkt : captPktCount (m captStatusReg) ≠ 0) (h : ¬f.Goes (captEnableAt m)) :
    captureWords f m = wordsAfter f 1 captDisable m := by
  rw [captureWords, if_neg hpkt, wordsAfter_of_not_goes h, ite_self]

/-- A call that is stopped before it has read a word of the frame. -/
theorem left_of_stopped (hpkt : captPktCount (m captStatusReg) ≠ 0) (hn : n ≤ 9) (hc : c.frame = [])
    (hs : Stopped f c (wordsAfter f 1 captDisable m) n s) : CaptureLeft f m s := by
  have hnot : ∀ k, ¬f.Goes (9 + k) := fun k hg => hs.fails (hg.mono (by omega))
  refine ⟨?_, 0, by rw [hs.conf, hc]; rfl, fun k => ?_⟩
  · rw [hs.words, captureWords_of_not_goes hpkt (hnot _)]
  · simp [CaptureReads, hnot]

/-- A call that fails before it disables the triggers. -/
theorem left_of_stopped_first (hc : c.frame = []) (hs : Stopped f c m 1 s) : CaptureLeft f m s := by
  have hnot : ∀ k, ¬f.Goes (9 + k) := fun k hg => hs.fails (hg.mono (by omega))
  refine ⟨?_, 0, by rw [hs.conf, hc]; rfl, fun k => ?_⟩
  · have hend : ¬f.Goes (captEnableAt m) := hnot _
    rw [hs.words, captureWords, wordsAfter_of_not_goes hend, wordsAfter_of_not_goes hs.fails, ite_self, ite_self]
  · simp [CaptureReads, hnot]

/-- One word of the frame. -/
theorem ends_captFrameWord (code : Int) {words : IoReg → BitVec 32} {frame : List (BitVec 8)} (i : Nat) :
    Ends (Reached f ⟨len, frame⟩ words n) (captFrameWord (faulty f code) i)
      (fun _ => Reached f ⟨len, frame ++ wordBytes (words (captDataReg i))⟩ words (n + 1))
      (Stopped f ⟨len, frame⟩ words (n + 1)) := by
  refine (ends_read_faulty f code CaptureRc.access (captDataReg i)).bind fun v => ?_
  refine Ends.modify fun s hs => ?_
  obtain ⟨rfl, hs⟩ := hs
  exact ⟨by rw [hs.conf], hs.words, hs.count, hs.goes⟩

/-- A call that is stopped at a word of the frame. -/
theorem left_of_stopped_word (hpkt : captPktCount (m captStatusReg) ≠ 0) (hlong : ¬CaptureTooLong m)
    (hk : k ≤ captPktSize (m (captDataReg 0)) / 4) (hgoes : f.Goes (8 + k))
    (hs : Stopped f ⟨len, capturedWords m k⟩ (wordsAfter f 1 captDisable m) (8 + k + 1) s) : CaptureLeft f m s := by
  have hfails : ¬f.Goes (captEnableAt m) := fun hg => hs.fails (hg.mono (by unfold captEnableAt; omega))
  refine ⟨by rw [hs.words, captureWords_of_not_goes hpkt hfails], k, by rw [hs.conf], fun j => ?_⟩
  constructor
  · intro hj
    exact ⟨hpkt, hlong, by omega, hgoes.mono (by omega)⟩
  · rintro ⟨-, -, -, hread⟩
    by_contra hj
    exact hs.fails (hread.mono (by omega))

/-- The words of the frame. -/
theorem ends_captFrameWords (hpkt : captPktCount (m captStatusReg) ≠ 0) (hlong : ¬CaptureTooLong m) :
    Ends (Reached f ⟨len, []⟩ (wordsAfter f 1 captDisable m) 8)
      (forUpTo (captPktSize (m (captDataReg 0)) / 4 + 1) fun i => captFrameWord (faulty f code) (captHeaderSize + i))
      (fun _ => Reached f ⟨len, capturedWords m (captPktSize (m (captDataReg 0)) / 4 + 1)⟩
        (wordsAfter f 1 captDisable m) (captEnableAt m))
      (CaptureLeft f m) := by
  have hat : captEnableAt m = 8 + (captPktSize (m (captDataReg 0)) / 4 + 1) := by unfold captEnableAt; omega
  have hbody : ∀ k < captPktSize (m (captDataReg 0)) / 4 + 1,
      Ends (Reached f ⟨len, capturedWords m k⟩ (wordsAfter f 1 captDisable m) (8 + k))
        (captFrameWord (faulty f code) (captHeaderSize + k))
        (fun _ => Reached f ⟨len, capturedWords m (k + 1)⟩ (wordsAfter f 1 captDisable m) (8 + (k + 1)))
        (CaptureLeft f m) := by
    intro k hk s hs
    have hdata : wordsAfter f 1 captDisable m (captDataReg (captHeaderSize + k)) =
        m (captDataReg (captHeaderSize + k)) := by
      refine wordsAfter_of_not_mem (captDataReg_not_mem ?_)
      have hwr := captWrPtr_lt (m captStatusReg)
      unfold CaptureTooLong at hlong
      simp only [captHeaderSize] at hlong ⊢
      omega
    have hword := (ends_captFrameWord code (captHeaderSize + k)).weaken (fun _ _ h => h)
      (fun t ht => left_of_stopped_word hpkt hlong (by omega) hs.goes ht) s hs
    rwa [hdata, ← capturedWords_succ] at hword
  rw [hat]
  exact Ends.forUpTo _ hbody

/-- The triggers are enabled again, and a truncated frame is refused. -/
theorem ends_captEnable (hpkt : captPktCount (m captStatusReg) ≠ 0) (hlong : ¬CaptureTooLong m) {truncated : Prop}
    [Decidable truncated] :
    Ends (Reached f ⟨captPktSize (m (captDataReg 0)), capturedWords m (captPktSize (m (captDataReg 0)) / 4 + 1)⟩
        (wordsAfter f 1 captDisable m) (captEnableAt m))
      (writeEach (faulty f code) CaptureRc.access captEnable >>= fun _ => failIf truncated .frameTruncated)
      (fun _ => CaptureDone f m) (CaptureLeft f m) := by
  intro s hs
  have hgoes := hs.goes
  have hleft : ∀ t : Dev CaptureOut (Counted IoReg 32),
      t.conf = ⟨captPktSize (m (captDataReg 0)), capturedWords m (captPktSize (m (captDataReg 0)) / 4 + 1)⟩ →
      t.hw.words = wordsAfter f (captEnableAt m) captEnable (wordsAfter f 1 captDisable m) → CaptureLeft f m t := by
    intro t hc hw
    refine ⟨by rw [hw, captureWords, if_neg hpkt, if_neg hlong], _, by rw [hc], fun k => ?_⟩
    constructor
    · intro hk
      exact ⟨hpkt, hlong, by omega, hgoes.mono (by unfold captEnableAt; omega)⟩
    · rintro ⟨-, -, hk, -⟩
      omega
  refine ((ends_writeEach_faulty f code CaptureRc.access captEnable).weaken (fun _ _ h => h)
    fun t ht => hleft t ht.conf ht.words).bind (fun _ => ?_) s hs
  refine (Ends.failIf fun t ht _ => hleft t ht.conf ht.words).weaken (fun _ t ht => ?_) fun _ ht => ht
  obtain ⟨ht, -⟩ := ht
  have hlen : capturedLength m = captPktSize (m (captDataReg 0)) := if_neg hpkt
  refine ⟨hleft t ht.conf ht.words, by rw [ht.conf, hlen], fun i hi => ?_⟩
  rw [hlen] at hi
  rw [ht.conf]
  exact capturedWords_getElem? (by omega)

/-- **The call.** -/
theorem ends_frameGetPriv (code : Int) (bufLength : Nat) (hc : c.frame = []) :
    Ends (Reached f c m 0) (frameGetPriv (faulty f code) bufLength) (fun _ => CaptureDone f m) (CaptureLeft f m) := by
  obtain ⟨len₀, _⟩ := c
  subst hc
  have hrd : ∀ {c : CaptureOut} {words : IoReg → BitVec 32} {n : Nat} (r : IoReg), Ends (Reached f c words n)
      (captRd (faulty f code) r) (fun v s => v = words r ∧ Reached f c words (n + 1) s)
      (Stopped f c words (n + 1)) := ends_read_faulty f code CaptureRc.access
  have hheader : ∀ i < 2, wordsAfter f 1 captDisable m (captDataReg i) = m (captDataReg i) :=
    fun i hi => wordsAfter_of_not_mem (captDataReg_not_mem (by omega))
  refine (ends_setFrmLength 0).bind fun _ => ?_
  refine ((hrd captStatusReg).weaken (fun _ _ h => h) fun _ hs => left_of_stopped_first rfl hs).bind fun v => ?_
  intro s hs
  obtain ⟨rfl, hs⟩ := hs
  revert s
  refine Ends.ite (fun hpkt => Ends.pure fun s hs => ?_) fun hpkt => ?_
  · -- no frame has been captured
    have hlen : capturedLength m = 0 := if_pos hpkt
    have hleft : CaptureLeft f m s :=
      ⟨by rw [hs.words, captureWords, if_pos hpkt], 0, by rw [hs.conf]; rfl, fun k => by simp [CaptureReads, hpkt]⟩
    exact ⟨hleft, by rw [hs.conf, hlen], fun i hi => by omega⟩
  refine ((ends_writeEach_faulty f code CaptureRc.access captDisable).weaken (fun _ _ h => h)
    fun _ hs => left_of_stopped hpkt (by decide) rfl hs).bind fun _ => ?_
  refine ((hrd _).weaken (fun _ _ h => h) fun _ hs => left_of_stopped hpkt (by decide) rfl hs).bind fun admHdr0 => ?_
  intro s hs
  obtain ⟨rfl, hs⟩ := hs
  rw [hheader 0 (by decide)]
  revert s
  refine ((hrd _).weaken (fun _ _ h => h) fun _ hs => left_of_stopped hpkt (by decide) rfl hs).bind fun _ => ?_
  refine Ends.pre ?_ fun _ hs => hs.2
  refine (ends_setFrmLength _).bind fun _ => Ends.ite (fun hlong => ?_) fun hlong => ?_
  · refine (ends_setFrmLength _).bind fun _ => Ends.throw fun s hs => ?_
    have hlong : CaptureTooLong m := hlong
    exact ⟨by rw [hs.words, captureWords, if_neg hpkt, if_pos hlong], 0, by rw [hs.conf]; rfl,
      fun k => by simp [CaptureReads, hlong]⟩
  · exact (ends_captFrameWords hpkt hlong).bind fun _ => ends_captEnable hpkt hlong

end Ends

/-! ## The buffer and the triggers -/

/-- `CAPT_DEBUG_TRIGGER`, `.._SA1` to `.._SA4` -/
def captTriggers : List IoReg := captEnable.map Prod.fst

/-- The call stays within the buffer, hands over the captured frame when it returns, and leaves the triggers as they
were. -/
structure FrameGetRight (f : Faults) (code : Int) (m : IoReg → BitVec 32) (len bufLength : Nat) : Prop where
  inside : (final (frameGetPriv (faulty f code) bufLength) ⟨⟨len, []⟩, ⟨m, 0⟩⟩).conf.frame.length ≤ bufLength
  captured : ∀ s, frameGetPriv (faulty f code) bufLength ⟨⟨len, []⟩, ⟨m, 0⟩⟩ = .ok () s →
    s.conf.frmLength = capturedLength m ∧ ∀ i < capturedLength m, s.conf.frame[i]? = some (capturedByte m i)
  triggers : ∀ r ∈ captTriggers,
    (final (frameGetPriv (faulty f code) bufLength) ⟨⟨len, []⟩, ⟨m, 0⟩⟩).hw.words r = m r

/-- When a frame has been captured: the words of the frame that are read have room in the buffer, and a trigger that is
enabled again was enabled before, one that is only disabled was disabled. -/
def FrameGetFits (f : Faults) (m : IoReg → BitVec 32) (bufLength : Nat) : Prop :=
  captPktCount (m captStatusReg) ≠ 0 →
    (∀ k, CaptureReads f m k → 4 * (k + 1) ≤ bufLength) ∧
    ∀ (i j : Nat) (r : IoReg) (v : BitVec 32), captEnable[i]? = some (r, v) → captDisable[j]? = some (r, 0) →
      if ¬CaptureTooLong m ∧ f.Carried (captEnableAt m + i) then m r = v else f.Carried (1 + j) → m r = 0

section Right

variable {f : Faults} {m : IoReg → BitVec 32} {bufLength n : Nat}

theorem captDisable_nodup : (captDisable.map Prod.fst).Nodup := by decide

theorem captEnable_nodup : (captEnable.map Prod.fst).Nodup := by decide

/-- Every trigger is enabled again and has been disabled. -/
theorem captTriggers_places {r : IoReg} (hr : r ∈ captTriggers) :
    ∃ (i j : Nat) (v : BitVec 32), captEnable[i]? = some (r, v) ∧ captDisable[j]? = some (r, 0) := by
  obtain ⟨⟨r, v⟩, hmem, rfl⟩ := List.mem_map.mp hr
  have hall : ∀ p ∈ captEnable, (p.1, 0#32) ∈ captDisable := by decide
  obtain ⟨i, hi⟩ := List.getElem?_of_mem hmem
  obtain ⟨j, hj⟩ := List.getElem?_of_mem (hall _ hmem)
  exact ⟨i, j, v, hi, hj⟩

/-- What becomes of a trigger. -/
theorem captureWords_trigger (hpkt : captPktCount (m captStatusReg) ≠ 0) {i j : Nat} {r : IoReg} {v : BitVec 32}
    (hi : captEnable[i]? = some (r, v)) (hj : captDisable[j]? = some (r, 0)) : captureWords f m r =
      if ¬CaptureTooLong m ∧ f.Carried (captEnableAt m + i) then v else if f.Carried (1 + j) then 0 else m r := by
  rw [captureWords, if_neg hpkt]
  by_cases hlong : CaptureTooLong m
  · rw [if_pos hlong, if_neg (fun h => h.1 hlong)]
    exact wordsAfter_of_getElem? captDisable_nodup hj
  · rw [if_neg hlong, wordsAfter_of_getElem? captEnable_nodup hi, wordsAfter_of_getElem? captDisable_nodup hj]
    simp only [hlong, not_false_eq_true, true_and]

theorem captEnable_trigger {i : Nat} {r : IoReg} {v : BitVec 32} (hi : captEnable[i]? = some (r, v)) : r ∈ captTriggers :=
  List.mem_map.mpr ⟨_, List.mem_of_getElem? hi, rfl⟩

/-- The triggers are as before when each of them held the word that it is left with. -/
theorem captureWords_kept_iff (hpkt : captPktCount (m captStatusReg) ≠ 0) :
    (∀ r ∈ captTriggers, captureWords f m r = m r) ↔
      ∀ (i j : Nat) (r : IoReg) (v : BitVec 32), captEnable[i]? = some (r, v) → captDisable[j]? = some (r, 0) →
        if ¬CaptureTooLong m ∧ f.Carried (captEnableAt m + i) then m r = v else f.Carried (1 + j) → m r = 0 := by
  have hone : ∀ {i j : Nat} {r : IoReg} {v : BitVec 32}, captEnable[i]? = some (r, v) →
      captDisable[j]? = some (r, 0) → (captureWords f m r = m r ↔
        if ¬CaptureTooLong m ∧ f.Carried (captEnableAt m + i) then m r = v else f.Carried (1 + j) → m r = 0) := by
    intro i j r v hi hj
    rw [captureWords_trigger hpkt hi hj]
    by_cases hagain : ¬CaptureTooLong m ∧ f.Carried (captEnableAt m + i)
    · rw [if_pos hagain, if_pos hagain, eq_comm]
    · rw [if_neg hagain, if_neg hagain]
      by_cases hdis : f.Carried (1 + j)
      · rw [if_pos hdis, eq_comm]
        exact ⟨fun h _ => h, fun h => h hdis⟩
      · rw [if_neg hdis]
        exact ⟨fun _ h => absurd h hdis, fun _ => rfl⟩
  constructor
  · intro h i j r v hi hj
    exact (hone hi hj).mp (h r (captEnable_trigger hi))
  · intro h r hr
    obtain ⟨i, j, v, hi, hj⟩ := captTriggers_places hr
    exact (hone hi hj).mpr (h i j r v hi hj)

/-- The words that are read have room in the buffer. -/
theorem frame_inside_iff {s : Dev CaptureOut (Counted IoReg 32)} (hs : CaptureLeft f m s) :
    s.conf.frame.length ≤ bufLength ↔ ∀ k, CaptureReads f m k → 4 * (k + 1) ≤ bufLength := by
  obtain ⟨n, hframe, hn⟩ := hs.frame
  rw [hframe, length_capturedWords]
  constructor
  · intro h k hk
    have := (hn k).mpr hk
    omega
  · intro h
    rcases n with _ | n
    · exact Nat.zero_le _
    · exact h n ((hn n).mp (Nat.lt_succ_self n))

end Right

/-- For any registers, any length of the buffer and any accesses that fail: the call stays in the buffer, hands over the
frame and leaves the triggers alone exactly when no frame has been captured, or the words that it reads have room and
the triggers happen to be as it leaves them. -/
theorem frame_get_iff (f : Faults) (code : Int) (m : IoReg → BitVec 32) (len bufLength : Nat) :
    FrameGetRight f code m len bufLength ↔ FrameGetFits f m bufLength := by
  have hends : Ends (Reached f ⟨len, []⟩ m 0) (frameGetPriv (faulty f code) bufLength) (fun _ => CaptureDone f m)
      (CaptureLeft f m) := ends_frameGetPriv code bufLength rfl
  have hstart : Reached f (⟨len, []⟩ : CaptureOut) m 0 ⟨⟨len, []⟩, ⟨m, 0⟩⟩ := ⟨rfl, rfl, rfl, Faults.goes_zero⟩
  have hleft : CaptureLeft f m (final (frameGetPriv (faulty f code) bufLength) ⟨⟨len, []⟩, ⟨m, 0⟩⟩) := by
    rcases hends.final hstart with ⟨-, -, h⟩ | ⟨-, h⟩
    · exact h.left
    · exact h
  have hcaptured : ∀ s, frameGetPriv (faulty f code) bufLength ⟨⟨len, []⟩, ⟨m, 0⟩⟩ = .ok () s →
      s.conf.frmLength = capturedLength m ∧ ∀ i < capturedLength m, s.conf.frame[i]? = some (capturedByte m i) := by
    intro s hs
    have hdone := hends.ok hstart hs
    exact ⟨hdone.length, hdone.bytes⟩
  by_cases hpkt : captPktCount (m captStatusReg) = 0
  · have hnone : ∀ k, ¬CaptureReads f m k := fun k hk => hk.1 hpkt
    refine ⟨fun _ h => absurd hpkt h, fun _ => ⟨?_, hcaptured, fun r _ => ?_⟩⟩
    · exact (frame_inside_iff hleft).mpr fun k hk => absurd hk (hnone k)
    · rw [hleft.words, captureWords, if_pos hpkt]
  · constructor
    · rintro ⟨hinside, -, htriggers⟩ -
      rw [hleft.words] at htriggers
      exact ⟨(frame_inside_iff hleft).mp hinside, (captureWords_kept_iff hpkt).mp htriggers⟩
    · intro h
      obtain ⟨hroom, hkept⟩ := h hpkt
      refine ⟨(frame_inside_iff hleft).mpr hroom, hcaptured, ?_⟩
      rw [hleft.words]
      exact (captureWords_kept_iff hpkt).mpr hkept

/-! ### A frame that is too long -/

/-- A frame of 100 bytes is recorded where only 8 bytes have been captured; all triggers are enabled. -/
def benchCapture : IoReg → BitVec 32 := fun r =>
  if r = captStatusReg then 0x102 else if r = captDataReg 0 then 100
  else ((captEnable.find? fun p => p.1 = r).map Prod.snd).getD 0

/-- After the error the capture stays disabled. -/
theorem not_frame_get : ¬∀ (f : Faults) (code : Int) (m : IoReg → BitVec 32) (len bufLength : Nat),
    FrameGetRight f code m len bufLength := by
  intro h
  have hkept := (h ⟨fun _ => false, fun _ => false⟩ (-1) benchCapture 0 512).triggers captTriggerReg (by decide)
  revert hkept
  decide +kernel

end Lan80xx.Macsec
