import Lan80xx.Lib.RegBus
import Lan80xx.VtssTs.Types

/-!
# Egress timestamp FIFO

The FIFO is a queue behind eight registers: TSFIFO_0 shows whether it is empty and the flags of its first entry, and the
read of TSFIFO_6 takes that entry away. `vtss_phy_ts_fifo_empty` hands the entries to a callback,
`vtss_phy_ts_fifo_get` stores them in a list.

- `served`: the number of entries that a call takes from a queue;
- `ends_drain`, `ends_call`: a call takes so many, hands over the complete ones in their order, and loses none when it
  fails.
-/

namespace Lan80xx.VtssTs

open Fallible RegBus

/-! ## The FIFO -/

/-- `VTSS_PTP_EGR_IP_1588_TSFIFO_EGR_TSFIFO_*` -/
inductive FifoReg
  | tsfifo0
  | tsfifo1
  | tsfifo2
  | tsfifo3
  | tsfifo4
  | tsfifo5
  | tsfifo6
  | tsfifoCsr
  deriving DecidableEq, Repr

/-- The flags of an entry and its bits 207..0. -/
structure Entry where
  flags : BitVec 3
  data : BitVec 208
  deriving DecidableEq

namespace Entry

/-- All parts of the timestamp have been captured. -/
def complete (e : Entry) : Bool := e.flags == 7

/-- The word that TSFIFO_1 to TSFIFO_6 show, `k` counted from 0. -/
def word (e : Entry) (k : Nat) : BitVec 32 := e.data.extractLsb' (16 + 32 * k) 32

/-- The 26 bytes. -/
def bytes (e : Entry) : List Byte := (List.range 26).map fun i => e.data.extractLsb' (8 * i) 8

end Entry

/-- The FIFO behind the registers. A failed access leaves the queue alone, but for TSFIFO_6, of which nobody knows. The
level may be the number of entries (`latched = false`) or that number at the last read of TSFIFO_0, as the description
of the register has it. -/
structure FifoBus (H : Type) extends Bus FifoReg 32 H where
  queue : H → List Entry
  fits : ∀ h, (queue h).length < 16
  latched : Bool
  seen : H → Nat
  rd_queue : ∀ r h, r ≠ .tsfifo6 → queue (rd r h).2 = queue h
  rd_seen : ∀ r h, r ≠ .tsfifo0 → seen (rd r h).2 = seen h
  tsfifo0_ok : ∀ h v, (rd .tsfifo0 h).1 = .ok v → v.getLsbD 31 = (queue h).isEmpty ∧
    seen (rd .tsfifo0 h).2 = (queue h).length ∧
    ∀ e q, queue h = e :: q → v.extractLsb' 28 3 = e.flags ∧ v.extractLsb' 0 16 = e.data.extractLsb' 0 16
  tsfifo1_ok : ∀ h v e q, (rd .tsfifo1 h).1 = .ok v → queue h = e :: q → v = e.word 0
  tsfifo2_ok : ∀ h v e q, (rd .tsfifo2 h).1 = .ok v → queue h = e :: q → v = e.word 1
  tsfifo3_ok : ∀ h v e q, (rd .tsfifo3 h).1 = .ok v → queue h = e :: q → v = e.word 2
  tsfifo4_ok : ∀ h v e q, (rd .tsfifo4 h).1 = .ok v → queue h = e :: q → v = e.word 3
  tsfifo5_ok : ∀ h v e q, (rd .tsfifo5 h).1 = .ok v → queue h = e :: q → v = e.word 4
  tsfifo6_ok : ∀ h v, (rd .tsfifo6 h).1 = .ok v → queue (rd .tsfifo6 h).2 = (queue h).tail ∧
    ∀ e q, queue h = e :: q → v = e.word 5
  csr_ok : ∀ h v, (rd .tsfifoCsr h).1 = .ok v →
    (v.extractLsb' 12 4).toNat = if latched then seen h else (queue h).length
  drift_queue : ∀ h h', drift h h' → ∃ new, queue h' = queue h ++ new

/-! ## The calls -/

/-- `vtss_phy_ts_fifo_mode_t` -/
inductive FifoMode
  | normal
  | spi
  deriving DecidableEq, Repr

/-- What the calls use of `phy_ts_port_conf`, and whether a callback is installed. `out` is what the caller of the current
call has: the entries that the callback received, or `ts_list` up to `*num`. -/
structure TsPort where
  portTsInitDone : Bool
  txFifoMode : FifoMode
  sigMask : SigMask
  tsFifoCb : Bool
  out : List FifoEntry

abbrev FifoCall (H α : Type) := EStateM Rc (Dev TsPort H) α

/-- `VTSS_PHY_TS_FIFO_MAX_ENTRIES` -/
def maxEntries : Nat := 8

/-- `VTSS_PHY_TS_EXTRACT_BYTE` -/
def extractByte (value : BitVec 32) (off : Nat) : Byte := value.extractLsb' off 8

/-- `sig[26]`, from the words of TSFIFO_0 and of the others. -/
def sigBytes (value0 : BitVec 32) (values : List (BitVec 32)) : List Byte :=
  [extractByte value0 0, extractByte value0 8] ++
    values.flatMap fun value => [extractByte value 0, extractByte value 8, extractByte value 16, extractByte value 24]

section Calls

variable {H : Type} (bus : Bus FifoReg 32 H)

/-- `VTSS_PHY_TS_READ_CSR` -/
def readCsr (r : FifoReg) : FifoCall H (BitVec 32) := read bus .access r

/-- Step 1: up to `loop_cnt` times two reads of TSFIFO_0. -/
def probe : Nat → FifoCall H Bool
  | 0 => pure false
  | n + 1 => do
    let val1st ← readCsr bus .tsfifo0
    let val2nd ← readCsr bus .tsfifo0
    if val1st.getLsbD 31 = false ∧ val2nd.getLsbD 31 = false then pure true else probe n

/-- TSFIFO_1 to TSFIFO_6, the last one last. -/
def readEntry : FifoCall H (List (BitVec 32)) := do
  let v1 ← readCsr bus .tsfifo1
  let v2 ← readCsr bus .tsfifo2
  let v3 ← readCsr bus .tsfifo3
  let v4 ← readCsr bus .tsfifo4
  let v5 ← readCsr bus .tsfifo5
  let v6 ← readCsr bus .tsfifo6
  pure [v1, v2, v3, v4, v5, v6]

/-- Hand an entry over; whether there is room for another one. -/
def deliver (callback : Bool) (entry : FifoEntry) : FifoCall H Bool := do
  let c ← getConf
  modifyConf fun c => { c with out := c.out ++ [entry] }
  pure (callback || decide (c.out.length + 1 < maxEntries))

/-- One pass of the loop: whether there is another one. -/
def pass (callback : Bool) (mask : Mask) : FifoCall H Bool := do
  let value ← readCsr bus .tsfifo0
  if value.getLsbD 31 = true then pure false
  else if value.extractLsb' 28 3 ≠ 7 then do
    -- a partial timestamp: the entry goes, and the loop ends
    let _ ← readEntry bus
    pure false
  else do
    let values ← readEntry bus
    let level ← readCsr bus .tsfifoCsr
    match decode mask (sigBytes value values) with
    | none => throw .error
    | some entry => do
      let room ← deliver callback entry
      pure (room && decide (1 < (level.extractLsb' 12 4).toNat))

/-- Steps 2 to 4, for at most `n` passes. -/
def drain (callback : Bool) (mask : Mask) : Nat → FifoCall H Unit
  | 0 => throw .hang
  | n + 1 => do
    let again ← pass bus callback mask
    if again then drain callback mask n else pure ()

/-- `vtss_phy_ts_fifo_empty_priv`. A level of four bits leaves no more than 15 passes. -/
def fifoEmptyPriv (callback : Bool) : FifoCall H Unit := do
  let c ← getConf
  failIf (callback = true ∧ c.tsFifoCb = false) .error
  when (callback = false) (modifyConf fun c => { c with out := [] })
  let found ← probe bus 5
  when (found = true) (drain bus callback c.sigMask.mask 16)

/-- `vtss_phy_ts_fifo_empty` -/
def fifoEmpty : FifoCall H Unit := do
  let c ← getConf
  failIf (c.portTsInitDone = false) .error
  failIf (c.txFifoMode ≠ .normal) .error
  fifoEmptyPriv bus true

/-- `vtss_phy_ts_fifo_get` -/
def fifoGet (size : Nat) : FifoCall H Unit := do
  failIf (size < maxEntries) .error
  let c ← getConf
  failIf (c.portTsInitDone = false) .error
  failIf (c.txFifoMode ≠ .normal) .error
  fifoEmptyPriv bus false

end Calls


/-! ## What a register shows -/

theorem extractByte_word (e : Entry) (k : Nat) {off : Nat} (h : off + 8 ≤ 32) :
    extractByte (e.word k) off = e.data.extractLsb' (16 + 32 * k + off) 8 := by
  apply BitVec.eq_of_getLsbD_eq
  intro i hi
  simp only [extractByte, Entry.word, BitVec.getLsbD_extractLsb', hi, decide_true, Bool.true_and, ← Nat.add_assoc]
  simp [show off + i < 32 by omega]

theorem extractByte_low {v : BitVec 32} {e : Entry} (h : v.extractLsb' 0 16 = e.data.extractLsb' 0 16) {off : Nat}
    (hoff : off + 8 ≤ 16) : extractByte v off = e.data.extractLsb' off 8 := by
  apply BitVec.eq_of_getLsbD_eq
  intro i hi
  have hbit := congrArg (fun w => w.getLsbD (off + i)) h
  simp only [BitVec.getLsbD_extractLsb', show off + i < 16 by omega, decide_true, Bool.true_and, Nat.zero_add] at hbit
  simp only [extractByte, BitVec.getLsbD_extractLsb', hi, decide_true, Bool.true_and, hbit]

/-- The bytes that the driver puts together are those of the entry. -/
theorem sigBytes_entry {v : BitVec 32} {e : Entry} (h : v.extractLsb' 0 16 = e.data.extractLsb' 0 16) :
    sigBytes v [e.word 0, e.word 1, e.word 2, e.word 3, e.word 4, e.word 5] = e.bytes := by
  have hbyte (k off : Nat) (hoff : off + 8 ≤ 32) := extractByte_word e k hoff
  simp only [sigBytes, List.flatMap_cons, List.flatMap_nil, extractByte_low h (show 0 + 8 ≤ 16 by omega),
    extractByte_low h (show 8 + 8 ≤ 16 by omega), hbyte _ 0 (by omega), hbyte _ 8 (by omega), hbyte _ 16 (by omega),
    hbyte _ 24 (by omega)]
  rfl

/-- By how much the level is ahead of the queue, once an entry has gone. -/
def FifoBus.lag {H : Type} (bus : FifoBus H) : Nat := if bus.latched then 1 else 0

section Drain

variable {H : Type} (bus : FifoBus H) {h₀ : H}

/-- The driver's data, the queue, and that only accesses have led here. -/
structure At (h₀ : H) (c : TsPort) (q : List Entry) (s : Dev TsPort H) : Prop where
  conf : s.conf = c
  queue : bus.queue s.hw = q
  accessed : Accessed bus.toBus h₀ s.hw

/-- The register is read without an error, whatever has been accessed before. -/
def Answered (h₀ : H) (r : FifoReg) : Prop := ∀ h, Accessed bus.toBus h₀ h → ∃ v, (bus.rd r h).1 = .ok v

variable {bus} {c : TsPort} {q : List Entry} {e : Entry}

theorem ends_readCsr {P E : Dev TsPort H → Prop} {Q : BitVec 32 → Dev TsPort H → Prop} {r : FifoReg}
    (hok : ∀ s v, P s → (bus.rd r s.hw).1 = .ok v → Q v { s with hw := (bus.rd r s.hw).2 })
    (herr : ∀ s rc, P s → (bus.rd r s.hw).1 = .error rc → E { s with hw := (bus.rd r s.hw).2 }) :
    Ends P (readCsr bus.toBus r) Q E := by
  intro s hP
  cases hr : (bus.rd r s.hw).1 with
  | ok v => exact Or.inl ⟨v, _, read_eq_ok bus.toBus _ hr, hok s v hP hr⟩
  | error rc =>
    refine Or.inr ⟨.access rc, { s with hw := (bus.rd r s.hw).2 }, ?_, herr s rc hP hr⟩
    simp only [readCsr, RegBus.read]
    rcases hrd : bus.rd r s.hw with ⟨_ | _, h'⟩ <;> simp_all

theorem At.read {s : Dev TsPort H} {r : FifoReg} (h : At bus h₀ c q s) (hr : r ≠ .tsfifo6) :
    At bus h₀ c q { s with hw := (bus.rd r s.hw).2 } :=
  ⟨h.conf, (bus.rd_queue r s.hw hr).trans h.queue, .rd r _ h.accessed⟩

/-- TSFIFO_0 shows the start of the queue, and the level is the number of entries. -/
theorem ends_tsfifo0 : Ends (At bus h₀ c q) (readCsr bus.toBus .tsfifo0)
    (fun v s => (At bus h₀ c q s ∧ bus.seen s.hw = q.length) ∧ v.getLsbD 31 = q.isEmpty ∧
      ∀ e rest, q = e :: rest → v.extractLsb' 28 3 = e.flags ∧ v.extractLsb' 0 16 = e.data.extractLsb' 0 16)
    (At bus h₀ c q) := by
  refine ends_readCsr (fun s v hs hv => ?_) fun s _ hs _ => hs.read (by decide)
  obtain ⟨hempty, hseen, hhead⟩ := bus.tsfifo0_ok s.hw v hv
  rw [hs.queue] at hempty hseen hhead
  exact ⟨⟨hs.read (by decide), hseen⟩, hempty, hhead⟩

/-- The words between show the first entry. -/
theorem ends_tsfifoN {r : FifoReg} {k : Nat} (h0 : r ≠ .tsfifo0) (h6 : r ≠ .tsfifo6)
    (hword : ∀ h v e q, (bus.rd r h).1 = .ok v → bus.queue h = e :: q → v = e.word k) :
    Ends (fun s => At bus h₀ c (e :: q) s ∧ bus.seen s.hw = q.length + 1) (readCsr bus.toBus r)
      (fun v s => (At bus h₀ c (e :: q) s ∧ bus.seen s.hw = q.length + 1) ∧ v = e.word k) (At bus h₀ c (e :: q)) := by
  refine ends_readCsr (fun s v hs hv => ⟨⟨hs.1.read h6, ?_⟩, hword s.hw v e q hv hs.1.queue⟩) fun s _ hs _ => hs.1.read h6
  rw [bus.rd_seen r s.hw h0]
  exact hs.2

variable (hpop : Answered bus h₀ .tsfifo6) (hlevel : Answered bus h₀ .tsfifoCsr)

include hpop in
/-- The last word, with which the entry goes. -/
theorem ends_tsfifo6 : Ends (fun s => At bus h₀ c (e :: q) s ∧ bus.seen s.hw = q.length + 1)
    (readCsr bus.toBus .tsfifo6)
    (fun v s => (At bus h₀ c q s ∧ bus.seen s.hw = q.length + 1) ∧ v = e.word 5) (At bus h₀ c (e :: q)) := by
  refine ends_readCsr (fun s v hs hv => ?_) fun s rc hs hrc => ?_
  · obtain ⟨hqueue, hword⟩ := bus.tsfifo6_ok s.hw v hv
    rw [hs.1.queue] at hqueue
    refine ⟨⟨⟨hs.1.conf, hqueue, .rd _ _ hs.1.accessed⟩, ?_⟩, hword e q hs.1.queue⟩
    rw [bus.rd_seen _ s.hw (by decide)]
    exact hs.2
  · obtain ⟨v, hv⟩ := hpop _ hs.1.accessed
    rw [hv] at hrc
    cases hrc

include hpop in
theorem ends_readEntry : Ends (fun s => At bus h₀ c (e :: q) s ∧ bus.seen s.hw = q.length + 1) (readEntry bus.toBus)
    (fun vs s => (At bus h₀ c q s ∧ bus.seen s.hw = q.length + 1) ∧
      vs = [e.word 0, e.word 1, e.word 2, e.word 3, e.word 4, e.word 5]) (At bus h₀ c (e :: q)) := by
  refine (ends_tsfifoN (by decide) (by decide) bus.tsfifo1_ok).bind fun v1 => Ends.imp fun h1 => ?_
  refine (ends_tsfifoN (by decide) (by decide) bus.tsfifo2_ok).bind fun v2 => Ends.imp fun h2 => ?_
  refine (ends_tsfifoN (by decide) (by decide) bus.tsfifo3_ok).bind fun v3 => Ends.imp fun h3 => ?_
  refine (ends_tsfifoN (by decide) (by decide) bus.tsfifo4_ok).bind fun v4 => Ends.imp fun h4 => ?_
  refine (ends_tsfifoN (by decide) (by decide) bus.tsfifo5_ok).bind fun v5 => Ends.imp fun h5 => ?_
  refine (ends_tsfifo6 hpop).bind fun v6 => Ends.imp fun h6 => ?_
  subst h1 h2 h3 h4 h5 h6
  exact Ends.pure fun s hs => ⟨hs, rfl⟩

include hlevel in
/-- The level, after the entry has gone. -/
theorem ends_tsfifoCsr : Ends (fun s => At bus h₀ c q s ∧ bus.seen s.hw = q.length + 1)
    (readCsr bus.toBus .tsfifoCsr)
    (fun v s => At bus h₀ c q s ∧ (v.extractLsb' 12 4).toNat = q.length + bus.lag) (At bus h₀ c (e :: q)) := by
  refine ends_readCsr (fun s v hs hv => ⟨hs.1.read (by decide), ?_⟩) fun s rc hs hrc => ?_
  · rw [bus.csr_ok s.hw v hv, hs.2, hs.1.queue, FifoBus.lag]
    cases bus.latched <;> rfl
  · obtain ⟨v, hv⟩ := hlevel _ hs.1.accessed
    rw [hv] at hrc
    cases hrc

/-! ## The loop -/

/-- There is another pass after an entry that leaves `rest` behind: `n` entries have been handed over before it. -/
def goesOn (lag : Nat) (callback : Bool) (n : Nat) (rest : List Entry) : Bool :=
  (callback || decide (n + 1 < maxEntries)) && decide (1 < rest.length + lag)

/-- The number of entries that the loop takes from a queue. -/
def served (lag : Nat) (callback : Bool) : Nat → List Entry → Nat
  | _, [] => 0
  | n, e :: rest => if e.complete && goesOn lag callback n rest then served lag callback (n + 1) rest + 1 else 1

/-- What the caller has after `n` entries of the queue have gone. -/
def Took (mask : Mask) (q : List Entry) (n : Nat) (c c' : TsPort) : Prop :=
  ∃ got, c' = { c with out := c.out ++ got } ∧
    ((q.take n).filter Entry.complete).map (fun e => decode mask e.bytes) = got.map some

theorem Took.zero (mask : Mask) (q : List Entry) (c : TsPort) : Took mask q 0 c c :=
  ⟨[], by rw [List.append_nil], rfl⟩

theorem Took.partial_cons {mask : Mask} {n : Nat} {c' : TsPort} (he : e.complete = false) (h : Took mask q n c c') :
    Took mask (e :: q) (n + 1) c c' := by
  obtain ⟨got, hc', hgot⟩ := h
  refine ⟨got, hc', ?_⟩
  rwa [List.take_succ_cons, List.filter_cons_of_neg (by simp [he])]

theorem Took.cons {mask : Mask} {n : Nat} {c' : TsPort} {entry : FifoEntry} (he : e.complete = true)
    (hentry : decode mask e.bytes = some entry) (h : Took mask q n { c with out := c.out ++ [entry] } c') :
    Took mask (e :: q) (n + 1) c c' := by
  obtain ⟨got, hc', hgot⟩ := h
  refine ⟨entry :: got, ?_, ?_⟩
  · rw [hc']
    simp only [List.append_assoc, List.singleton_append]
  · rw [List.take_succ_cons, List.filter_cons_of_pos he, List.map_cons, List.map_cons, hgot, hentry]

theorem ends_deliver {P E : Dev TsPort H → Prop} {Q : Bool → Dev TsPort H → Prop} {callback : Bool} {entry : FifoEntry}
    (h : ∀ s, P s → Q (callback || decide (s.conf.out.length + 1 < maxEntries))
      { s with conf := { s.conf with out := s.conf.out ++ [entry] } }) : Ends P (deliver callback entry) Q E :=
  fun s hs => Or.inl ⟨_, _, rfl, h s hs⟩

theorem ends_pass_empty {callback : Bool} {mask : Mask} :
    Ends (At bus h₀ c []) (pass bus.toBus callback mask) (fun again s => At bus h₀ c [] s ∧ again = false)
      (At bus h₀ c []) := by
  refine ends_tsfifo0.bind fun v => Ends.imp fun hv => ?_
  have hempty : v.getLsbD 31 = true := hv.1
  rw [if_pos hempty]
  exact Ends.pure fun s hs => ⟨hs.1, rfl⟩

include hpop in
/-- A partial entry goes, and the loop ends. -/
theorem ends_pass_incomplete {callback : Bool} {mask : Mask} (he : e.complete = false) :
    Ends (At bus h₀ c (e :: q)) (pass bus.toBus callback mask) (fun again s => At bus h₀ c q s ∧ again = false)
      (At bus h₀ c (e :: q)) := by
  refine ends_tsfifo0.bind fun v => Ends.imp fun hv => ?_
  obtain ⟨hflags, -⟩ := hv.2 e q rfl
  have hne : e.flags ≠ 7 := by simpa [Entry.complete] using he
  rw [if_neg (by rw [hv.1]; simp), if_pos (by rw [hflags]; exact hne)]
  refine (ends_readEntry hpop).bind fun _ => Ends.pure fun s hs => ⟨hs.1.1, rfl⟩

include hpop hlevel in
/-- A complete entry is handed over. -/
theorem ends_pass_complete {callback : Bool} {mask : Mask} {entry : FifoEntry} (he : e.complete = true)
    (hentry : decode mask e.bytes = some entry) :
    Ends (At bus h₀ c (e :: q)) (pass bus.toBus callback mask)
      (fun again s => At bus h₀ { c with out := c.out ++ [entry] } q s ∧
        again = goesOn bus.lag callback c.out.length q) (At bus h₀ c (e :: q)) := by
  refine ends_tsfifo0.bind fun v => Ends.imp fun hv => ?_
  obtain ⟨hflags, hlow⟩ := hv.2 e q rfl
  have heq : e.flags = 7 := by simpa [Entry.complete] using he
  rw [if_neg (by rw [hv.1]; simp), if_neg (by rw [hflags, heq]; decide)]
  refine (ends_readEntry hpop).bind fun vs => Ends.imp fun hvs => ?_
  refine (ends_tsfifoCsr hlevel).bind fun level => Ends.imp fun hl => ?_
  rw [hvs, sigBytes_entry hlow, hentry, hl]
  have hdeliver : Ends (At bus h₀ c q) (deliver callback entry)
      (fun room s => At bus h₀ { c with out := c.out ++ [entry] } q s ∧
        room = (callback || decide (c.out.length + 1 < maxEntries))) (At bus h₀ c (e :: q)) :=
    ends_deliver fun s hs => ⟨⟨by rw [hs.conf], hs.queue, hs.accessed⟩, by rw [hs.conf]⟩
  exact hdeliver.bind fun room => Ends.imp fun hroom => Ends.pure fun s hs => ⟨hs, by rw [hroom, goesOn]⟩

include hpop hlevel in
/-- **The loop.** The entries that it takes when it returns, and that none is lost however it ends. -/
theorem ends_drain (callback : Bool) (mask : SigMask) (k : Nat) (q : List Entry) (hk : q.length < k) (c : TsPort) :
    Ends (At bus h₀ c q) (drain bus.toBus callback mask.mask k)
      (fun _ s => ∃ c', Took mask.mask q (served bus.lag callback c.out.length q) c c' ∧
        At bus h₀ c' (q.drop (served bus.lag callback c.out.length q)) s)
      (fun s => ∃ n ≤ served bus.lag callback c.out.length q,
        ∃ c', Took mask.mask q n c c' ∧ At bus h₀ c' (q.drop n) s) := by
  induction k generalizing q c with
  | zero => exact absurd hk (Nat.not_lt_zero _)
  | succ k ih =>
    have hstart (s : Dev TsPort H) (hs : At bus h₀ c q s) : ∃ n ≤ served bus.lag callback c.out.length q,
        ∃ c', Took mask.mask q n c c' ∧ At bus h₀ c' (q.drop n) s := ⟨0, Nat.zero_le _, c, .zero mask.mask q c, hs⟩
    cases q with
    | nil =>
      refine (ends_pass_empty.weaken (fun _ _ h => h) hstart).bind fun again => Ends.imp fun hagain => ?_
      rw [hagain]
      exact Ends.pure fun s hs => ⟨c, .zero mask.mask [] c, hs⟩
    | cons e q =>
      cases he : e.complete with
      | false =>
        refine ((ends_pass_incomplete hpop he).weaken (fun _ _ h => h) hstart).bind fun again => Ends.imp fun hagain => ?_
        rw [hagain]
        have hserved : served bus.lag callback c.out.length (e :: q) = 1 := by simp [served, he]
        rw [hserved]
        exact Ends.pure fun s hs => ⟨c, .partial_cons he (.zero mask.mask q c), hs⟩
      | true =>
        obtain ⟨entry, hentry⟩ := decode_isSome mask e.bytes
        refine ((ends_pass_complete hpop hlevel he hentry).weaken (fun _ _ h => h) hstart).bind fun again =>
          Ends.imp fun hagain => ?_
        rw [hagain]
        cases hgoes : goesOn bus.lag callback c.out.length q with
        | false =>
          have hserved : served bus.lag callback c.out.length (e :: q) = 1 := by simp [served, hgoes]
          rw [hserved]
          exact Ends.pure fun s hs => ⟨_, .cons he hentry (.zero mask.mask q _), hs⟩
        | true =>
          have hserved : served bus.lag callback c.out.length (e :: q) =
              served bus.lag callback (c.out ++ [entry]).length q + 1 := by simp [served, he, hgoes]
          rw [hserved]
          refine (ih q (by simpa using hk) { c with out := c.out ++ [entry] }).weaken ?_ ?_
          · rintro - s ⟨c', htook, hat⟩
            exact ⟨c', htook.cons he hentry, hat⟩
          · rintro s ⟨n, hn, c', htook, hat⟩
            exact ⟨n + 1, Nat.succ_le_succ hn, c', htook.cons he hentry, hat⟩

/-- Step 1 finds entries when there are some. -/
theorem ends_probe (n : Nat) : Ends (At bus h₀ c q) (probe bus.toBus (n + 1))
    (fun found s => At bus h₀ c q s ∧ found = !q.isEmpty) (At bus h₀ c q) := by
  induction n with
  | zero =>
    refine ends_tsfifo0.bind fun v => Ends.imp fun hv => ?_
    refine (ends_tsfifo0.pre fun s hs => hs.1).bind fun v' => Ends.imp fun hv' => ?_
    rw [hv.1, hv'.1]
    refine Ends.ite (fun h => Ends.pure fun s hs => ⟨hs.1, ?_⟩) fun h => Ends.pure fun s hs => ⟨hs.1, ?_⟩
    · simp [h.1]
    · simpa using h
  | succ n ih =>
    refine ends_tsfifo0.bind fun v => Ends.imp fun hv => ?_
    refine (ends_tsfifo0.pre fun s hs => hs.1).bind fun v' => Ends.imp fun hv' => ?_
    rw [hv.1, hv'.1]
    exact Ends.ite (fun h => Ends.pure fun s hs => ⟨hs.1, by simp [h.1]⟩) fun _ => ih.pre fun s hs => hs.1

/-! ## The calls -/

/-- The calls about the FIFO. -/
inductive Op
  | empty
  | get (size : Nat)
  deriving DecidableEq, Repr

/-- A call hands the entries to the callback. -/
def Op.callback : Op → Bool
  | .empty => true
  | .get _ => false

/-- A call, as the driver executes it. -/
def Op.run (bus : Bus FifoReg 32 H) : Op → FifoCall H Unit
  | .empty => fifoEmpty bus
  | .get size => fifoGet bus size

/-- A call that gets as far as the FIFO. -/
def TsPort.Serves (c : TsPort) (op : Op) : Prop :=
  c.portTsInitDone = true ∧ c.txFifoMode = .normal ∧
    match op with
    | .empty => c.tsFifoCb = true
    | .get size => maxEntries ≤ size

include hpop hlevel in
theorem ends_fifoEmptyPriv {callback : Bool} (hout : c.out = []) :
    Ends (At bus h₀ c q) (fifoEmptyPriv bus.toBus callback)
      (fun _ s => ∃ c', Took c.sigMask.mask q (served bus.lag callback 0 q) c c' ∧
        At bus h₀ c' (q.drop (served bus.lag callback 0 q)) s)
      (fun s => ∃ n ≤ served bus.lag callback 0 q, ∃ c', Took c.sigMask.mask q n c c' ∧ At bus h₀ c' (q.drop n) s) := by
  have hstart (s : Dev TsPort H) (hs : At bus h₀ c q s) : ∃ n ≤ served bus.lag callback 0 q,
      ∃ c', Took c.sigMask.mask q n c c' ∧ At bus h₀ c' (q.drop n) s := ⟨0, Nat.zero_le _, c, .zero _ q c, hs⟩
  have hreset (E : Dev TsPort H → Prop) : Ends (At bus h₀ c q)
      (when (callback = false) (modifyConf fun c => { c with out := [] }) : FifoCall H Unit) (fun _ => At bus h₀ c q) E := by
    refine Ends.when (fun _ => ends_modifyConf_of fun s hs => ⟨?_, hs.queue, hs.accessed⟩) fun _ s hs => hs
    simp only [hs.conf]
    rw [← hout]
  refine ends_getConf_bind (fun s hs => hs.conf) ?_
  refine Ends.failIf_bind (fun s hs _ => hstart s hs) fun _ => ?_
  refine (hreset _).bind fun _ => ?_
  refine ((ends_probe 4).weaken (fun _ _ h => h) hstart).bind fun found => Ends.imp fun hfound => ?_
  cases q with
  | nil =>
    rw [hfound]
    exact Ends.pure fun s hs => ⟨c, .zero _ [] c, hs⟩
  | cons e q =>
    rw [hfound]
    intro s hs
    have hfits := bus.fits s.hw
    rw [hs.queue] at hfits
    have hdrain := ends_drain hpop hlevel callback c.sigMask 16 (e :: q) hfits c s hs
    rwa [hout] at hdrain

theorem ends_refused {op : Op} (h : ¬c.Serves op) :
    Ends (At bus h₀ c q) (op.run bus.toBus) (fun _ _ => False) (At bus h₀ c q) := by
  cases op with
  | empty =>
    refine ends_getConf_bind (fun s hs => hs.conf) ?_
    refine Ends.failIf_bind (fun s hs _ => hs) fun hinit => ?_
    refine Ends.failIf_bind (fun s hs _ => hs) fun hmode => ?_
    refine ends_getConf_bind (fun s hs => hs.conf) ?_
    refine Ends.failIf_bind (fun s hs _ => hs) fun hcb => absurd ⟨?_, ?_, ?_⟩ h
    · simpa using hinit
    · simpa using hmode
    · simpa using hcb
  | get size =>
    refine Ends.failIf_bind (fun s hs _ => hs) fun hsize => ?_
    refine ends_getConf_bind (fun s hs => hs.conf) ?_
    refine Ends.failIf_bind (fun s hs _ => hs) fun hinit => ?_
    refine Ends.failIf_bind (fun s hs _ => hs) fun hmode => absurd ⟨?_, ?_, ?_⟩ h
    · simpa using hinit
    · simpa using hmode
    · simpa using hsize

include hpop hlevel in
/-- **A call.** The entries it takes when it returns, and that none is lost however it ends. -/
theorem ends_call {op : Op} (h : c.Serves op) (hout : c.out = []) : Ends (At bus h₀ c q) (op.run bus.toBus)
    (fun _ s => ∃ c', Took c.sigMask.mask q (served bus.lag op.callback 0 q) c c' ∧
      At bus h₀ c' (q.drop (served bus.lag op.callback 0 q)) s)
    (fun s => ∃ n ≤ served bus.lag op.callback 0 q, ∃ c', Took c.sigMask.mask q n c c' ∧ At bus h₀ c' (q.drop n) s) := by
  obtain ⟨hinit, hmode, hop⟩ := h
  cases op with
  | empty =>
    refine ends_getConf_bind (fun s hs => hs.conf) ?_
    refine Ends.failIf_bind (fun s hs hfail => absurd (hinit.symm.trans hfail) (by decide)) fun _ => ?_
    refine Ends.failIf_bind (fun s hs hfail => absurd hmode hfail) fun _ => ?_
    exact ends_fifoEmptyPriv hpop hlevel hout
  | get size =>
    refine Ends.failIf_bind (fun s hs hfail => absurd hop (by omega)) fun _ => ?_
    refine ends_getConf_bind (fun s hs => hs.conf) ?_
    refine Ends.failIf_bind (fun s hs hfail => absurd (hinit.symm.trans hfail) (by decide)) fun _ => ?_
    refine Ends.failIf_bind (fun s hs hfail => absurd hmode hfail) fun _ => ?_
    exact ends_fifoEmptyPriv hpop hlevel hout

end Drain

end Lan80xx.VtssTs
