import Lan80xx.VtssTs.Fifo

/-!
# Egress timestamp FIFO: runs

Calls about the FIFO, in any order, with entries arriving in between. A complete entry has to be delivered once, in its
turn; a partial one may be dropped, but the service goes on behind it.

- `good_iff`: the queues that a returning call serves as it should;
- `fifo_conserved`: runs of calls about such queues.
-/

namespace Lan80xx.VtssTs

open Fallible RegBus

/-! ## Queues -/

section Queues

variable {lag m : Nat} {callback : Bool} {q : List Entry}

theorem served_le_length : served lag callback m q ≤ q.length := by
  induction q generalizing m with
  | nil => exact Nat.le_refl 0
  | cons e q ih =>
    simp only [served]
    split
    · exact Nat.succ_le_succ ih
    · exact Nat.succ_le_succ (Nat.zero_le _)

/-- A list has no room for more than `maxEntries`. -/
theorem served_get_le (hm : m < maxEntries) : served lag false m q + m ≤ maxEntries := by
  induction q generalizing m with
  | nil => simpa only [served, Nat.zero_add] using Nat.le_of_lt hm
  | cons e q ih =>
    simp only [served]
    split
    · next h =>
      simp only [goesOn, Bool.and_eq_true, Bool.false_or, decide_eq_true_eq] at h
      have := ih h.2.1
      omega
    · omega

/-- The service goes on up to the first partial entry. -/
theorem served_mid {a b : List Entry} {p : Entry} (ha : ∀ e ∈ a, e.complete = true) (hp : p.complete = false)
    (hb : b ≠ []) (hroom : callback = true ∨ a.length + m < maxEntries) :
    served lag callback m (a ++ p :: b) = a.length + 1 := by
  induction a generalizing m with
  | nil => simp [served, hp]
  | cons e a ih =>
    have hgoes : goesOn lag callback m (a ++ p :: b) = true := by
      have hpos := List.length_pos_iff.mpr hb
      simp only [goesOn, Bool.and_eq_true, Bool.or_eq_true, decide_eq_true_eq, List.length_append, List.length_cons]
      simp only [List.length_cons] at hroom
      exact ⟨hroom.imp_right fun h => by omega, by omega⟩
    have hrest := ih (fun e' he' => ha e' (List.mem_cons_of_mem e he')) (m := m + 1)
      (hroom.imp_right fun h => by simp only [List.length_cons] at h; omega)
    simp [served, ha e List.mem_cons_self, hgoes, hrest]

/-- With a level that counts the entry just taken, the callback gets all of them when no partial entry is in the way. -/
theorem served_latched_iff : served 1 true m q = q.length ↔ ∀ e ∈ q.dropLast, e.complete = true := by
  induction q generalizing m with
  | nil => simp [served]
  | cons e q ih =>
    cases q with
    | nil => simp [served, goesOn]
    | cons e' q =>
      have hgoes : goesOn 1 true m (e' :: q) = true := by simp [goesOn]
      rw [List.dropLast_cons_cons, List.forall_mem_cons, ← ih (m := m + 1)]
      cases he : e.complete with
      | true => simp [served, he, hgoes]
      | false => simp [served, he]

/-- With one that does not, it stops one entry early. -/
theorem served_current_iff : served 0 true m q = q.length ↔ q.length ≤ 1 := by
  induction q generalizing m with
  | nil => simp [served]
  | cons e q ih =>
    simp only [served]
    split
    · next h =>
      simp only [goesOn, Bool.true_or, Bool.true_and, Bool.and_eq_true, decide_eq_true_eq, Nat.add_zero] at h
      have := @ih (m + 1)
      simp only [List.length_cons]
      omega
    · simp only [List.length_cons]
      omega

end Queues

/-! ## What a call should do -/

/-- A call, the queue before and after it, and what the caller got. -/
structure Record where
  op : Op
  rc : Option Rc
  before : List Entry
  after : List Entry
  out : List FifoEntry

/-- What is asked of a call. When it drops a partial entry and there are complete ones behind it, one of these is served
as well; `vtss_phy_ts_fifo_empty` empties the FIFO; a list holds what is stored in it. -/
structure Record.Good (r : Record) : Prop where
  goes_on : r.rc = none → ∀ a p b, r.before = a ++ p :: b → p.complete = false → r.after.length ≤ b.length →
    (∃ e ∈ b, e.complete = true) → (a.filter Entry.complete).length < r.out.length
  emptied : r.op = .empty → r.rc = none → r.after = []
  bounded : ∀ size, r.op = .get size → r.out.length ≤ maxEntries ∧ r.out.length ≤ size

/-- A call that has returned: it took as many entries as it serves. -/
structure Record.Returned (r : Record) (lag : Nat) : Prop where
  rc : r.rc = none
  after : r.after = r.before.drop (served lag r.op.callback 0 r.before)
  out : r.out.length = ((r.before.take (served lag r.op.callback 0 r.before)).filter Entry.complete).length
  size : ∀ size, r.op = .get size → maxEntries ≤ size

/-- The queues that a call serves as it should. For the callback these are, when the level counts the entry just taken,
the queues with no partial entry but the last one, and otherwise those with one entry at most; for a list, those that
have eight complete entries first, or no complete one behind the first partial one. -/
def Clean (latched : Bool) : Op → List Entry → Prop
  | .empty, q => if latched then ∀ e ∈ q.dropLast, e.complete = true else q.length ≤ 1
  | .get _, q => maxEntries ≤ (q.takeWhile Entry.complete).length ∨ ∀ e ∈ q.dropWhile Entry.complete, e.complete = false

theorem served_empty_iff {latched : Bool} {q : List Entry} :
    served (if latched then 1 else 0) true 0 q = q.length ↔ Clean latched .empty q := by
  cases latched with
  | true => exact served_latched_iff
  | false => exact served_current_iff

/-- No entry is behind a partial one in a queue that the callback gets whole. -/
theorem clean_empty_last {latched : Bool} {a b : List Entry} {p : Entry} (h : Clean latched .empty (a ++ p :: b))
    (hp : p.complete = false) : b = [] := by
  by_contra hb
  cases latched with
  | true =>
    have hmem : p ∈ (a ++ p :: b).dropLast := by
      rw [List.dropLast_append_of_ne_nil (by simp), List.dropLast_cons_of_ne_nil hb]
      simp
    rw [h p hmem] at hp
    cases hp
  | false =>
    have hlen : (a ++ p :: b).length ≤ 1 := h
    have hpos := List.length_pos_iff.mpr hb
    simp only [List.length_append, List.length_cons] at hlen
    omega

theorem takeWhile_length_le {a b : List Entry} {p : Entry} (hp : p.complete = false) :
    ((a ++ p :: b).takeWhile Entry.complete).length ≤ a.length := by
  induction a with
  | nil => simp [hp]
  | cons e a ih =>
    cases he : e.complete with
    | true => simpa [he] using ih
    | false => simp [he]

/-- What lies behind a partial entry lies behind the first one. -/
theorem mem_dropWhile {a b : List Entry} {p e : Entry} (hp : p.complete = false) (he : e ∈ b) :
    e ∈ (a ++ p :: b).dropWhile Entry.complete := by
  induction a with
  | nil => simp [hp, he]
  | cons e' a ih =>
    cases he' : e'.complete with
    | true => simpa [he'] using ih
    | false => simp [he', he]

/-- A queue that a list does not get rid of: complete entries, fewer than there is room for, a partial one, and a
complete one behind it. -/
theorem exists_of_not_clean {latched : Bool} {size : Nat} {q : List Entry} (h : ¬Clean latched (.get size) q) :
    ∃ a p b, q = a ++ p :: b ∧ (∀ e ∈ a, e.complete = true) ∧ p.complete = false ∧ (∃ e ∈ b, e.complete = true) ∧
      a.length < maxEntries := by
  obtain ⟨hlt, hex⟩ := not_or.mp h
  simp only [not_forall, Bool.not_eq_false] at hex
  obtain ⟨e, hmem, he⟩ := hex
  cases hdrop : q.dropWhile Entry.complete with
  | nil => simp [hdrop] at hmem
  | cons p b =>
    have hp : p.complete = false := by
      have hhead := @List.head_dropWhile_not _ Entry.complete q (by simp [hdrop])
      simpa [hdrop] using hhead
    refine ⟨q.takeWhile Entry.complete, p, b, ?_, List.all_eq_true.mp List.all_takeWhile, hp, ⟨e, ?_, he⟩, by omega⟩
    · rw [← hdrop, List.takeWhile_append_dropWhile]
    · rw [hdrop] at hmem
      rcases List.mem_cons.mp hmem with rfl | hb
      · rw [he] at hp
        cases hp
      · exact hb

/-- Of a clean queue, a list gets no entry from behind a partial one, because there is none or no room. -/
theorem clean_get_last {latched : Bool} {lag size : Nat} {a b : List Entry} {p e : Entry}
    (h : Clean latched (.get size) (a ++ p :: b)) (hp : p.complete = false) (he : e ∈ b)
    (hlen : a.length < served lag false 0 (a ++ p :: b)) : e.complete = false := by
  rcases h with htake | hdrop
  · have hle := @takeWhile_length_le a b p hp
    have hserved := @served_get_le lag 0 (a ++ p :: b) (by decide)
    omega
  · exact hdrop e (mem_dropWhile hp he)

/-- **The queues that are served.** A call that returns does what is asked of it for exactly these queues. -/
theorem good_iff {latched : Bool} {r : Record} (h : r.Returned (if latched then 1 else 0)) :
    r.Good ↔ Clean latched r.op r.before := by
  have hafter := h.after
  have hout := h.out
  constructor
  · intro hgood
    cases hop : r.op with
    | empty =>
      rw [hop] at hafter
      rw [← served_empty_iff]
      exact Nat.le_antisymm served_le_length (List.drop_eq_nil_iff.mp (hafter.symm.trans (hgood.emptied hop h.rc)))
    | get size =>
      by_contra hclean
      obtain ⟨a, p, b, hq, ha, hp, ⟨e, heb, he⟩, hroom⟩ := exists_of_not_clean hclean
      have hserved : served (if latched then 1 else 0) false 0 r.before = a.length + 1 := by
        rw [hq]
        exact served_mid ha hp (List.ne_nil_of_mem heb) (Or.inr hroom)
      rw [hop, Op.callback, hserved, hq] at hafter hout
      have hlt := hgood.goes_on h.rc a p b hq hp (by rw [hafter]; simp) ⟨e, heb, he⟩
      have htake : (a ++ p :: b).take (a.length + 1) = a ++ [p] := by
        rw [List.take_append, List.take_of_length_le (by omega), Nat.add_sub_cancel_left, List.take_one, List.head?_cons]
        rfl
      rw [hout, htake, List.filter_append, List.filter_cons_of_neg (by simp [hp])] at hlt
      simp at hlt
  · intro hclean
    refine ⟨fun _ a p b hq hp hlen hex => ?_, fun hop _ => ?_, fun size hop => ?_⟩
    · obtain ⟨e, heb, he⟩ := hex
      rw [hq] at hafter hclean
      cases hop : r.op with
      | empty =>
        rw [hop] at hclean
        rw [clean_empty_last hclean hp] at heb
        cases heb
      | get size =>
        rw [hop] at hclean hafter
        rw [hafter, List.length_drop, List.length_append, List.length_cons] at hlen
        have hle := @served_le_length (if latched then 1 else 0) 0 false (a ++ p :: b)
        have hlt : a.length < served (if latched then 1 else 0) false 0 (a ++ p :: b) := by
          simp only [Op.callback] at hlen
          omega
        rw [clean_get_last hclean hp heb hlt] at he
        cases he
    · rw [hop] at hclean hafter
      rw [hafter, Op.callback, served_empty_iff.mpr hclean, List.drop_length]
    · rw [hop, Op.callback] at hout
      have hserved := @served_get_le (if latched then 1 else 0) 0 r.before (by decide)
      have hsize := h.size size hop
      have hfilter := List.length_filter_le Entry.complete
        (r.before.take (served (if latched then 1 else 0) false 0 r.before))
      rw [List.length_take] at hfilter
      omega

/-! ## Runs -/

section Runs

variable {H : Type}

/-- The port and its FIFO, the entries that have ever been in it, and the calls so far. -/
structure History (H : Type) where
  dev : Dev TsPort H
  arrived : List Entry
  records : List Record

/-- What the callback and the lists have got. -/
def History.delivered (x : History H) : List FifoEntry := x.records.flatMap Record.out

variable (bus : FifoBus H)

/-- No call yet. -/
def History.start (s : Dev TsPort H) : History H := ⟨s, bus.queue s.hw, []⟩

/-- The caller has nothing yet. -/
def fresh (s : Dev TsPort H) : Dev TsPort H := { s with conf := { s.conf with out := [] } }

/-- The call and what it leaves. -/
def recordOf (s : Dev TsPort H) (op : Op) : Record :=
  ⟨op, errorOf (op.run bus.toBus) (fresh s), bus.queue s.hw, bus.queue (final (op.run bus.toBus) (fresh s)).hw,
    (final (op.run bus.toBus) (fresh s)).conf.out⟩

/-- Entries arrive, or a call that meets the condition `P` is made. -/
inductive Step (P : Dev TsPort H → Op → Prop) : History H → History H → Prop
  | arrive (x : History H) (h : H) : bus.drift x.dev.hw h → Step P x
      ⟨{ x.dev with hw := h }, x.arrived ++ (bus.queue h).drop (bus.queue x.dev.hw).length, x.records⟩
  | call (x : History H) (op : Op) : P x.dev op → Step P x
      ⟨final (op.run bus.toBus) (fresh x.dev), x.arrived, x.records ++ [recordOf bus x.dev op]⟩

/-- Each complete entry that has left the FIFO has been delivered once, in its turn, and all calls did what is asked of
them. -/
structure Conserved (mask : Mask) (x : History H) : Prop where
  once : ∃ gone, x.arrived = gone ++ bus.queue x.dev.hw ∧
    (gone.filter Entry.complete).map (fun e => decode mask e.bytes) = x.delivered.map some
  good : ∀ r ∈ x.records, r.Good

/-- The calls that are fine: where one gets as far as the FIFO, neither the read of TSFIFO_6 nor that of the level fails,
and the queue is one that it serves. -/
def Fair (s : Dev TsPort H) (op : Op) : Prop :=
  s.conf.Serves op → Answered bus s.hw .tsfifo6 ∧ Answered bus s.hw .tsfifoCsr ∧
    Clean bus.latched op (bus.queue s.hw)

variable {bus} {s : Dev TsPort H} {op : Op}

theorem Took.length {mask : Mask} {q : List Entry} {n : Nat} {c c' : TsPort} (hc : c.out = [])
    (h : Took mask q n c c') : c'.out.length = ((q.take n).filter Entry.complete).length := by
  obtain ⟨got, rfl, hgot⟩ := h
  have hlen := congrArg List.length hgot
  simp only [List.length_map] at hlen
  rw [hlen, hc, List.nil_append]

theorem at_fresh (s : Dev TsPort H) : At bus s.hw (fresh s).conf (bus.queue s.hw) (fresh s) := ⟨rfl, rfl, .refl⟩

theorem recordOf_refused (h : ¬(fresh s).conf.Serves op) : (recordOf bus s op).Good ∧
    ∃ n, Took s.conf.sigMask.mask (bus.queue s.hw) n (fresh s).conf (final (op.run bus.toBus) (fresh s)).conf ∧
      (recordOf bus s op).after = (bus.queue s.hw).drop n := by
  obtain ⟨-, -, hfalse⟩ | ⟨hrc, hat⟩ := (ends_refused h).final (@at_fresh _ bus s)
  · exact hfalse.elim
  · have hout : (recordOf bus s op).out = [] := by rw [recordOf, hat.conf]; rfl
    refine ⟨⟨fun hnone => absurd hnone hrc, fun _ hnone => absurd hnone hrc, fun size _ => ?_⟩, 0, ?_, hat.queue⟩
    · rw [hout]
      exact ⟨Nat.zero_le _, Nat.zero_le _⟩
    · rw [hat.conf]
      exact .zero _ _ _

/-- A call that gets as far as the FIFO: what it took, and that it did what is asked of it. -/
theorem recordOf_served (hserves : (fresh s).conf.Serves op) (hfair : Fair bus s op) : (recordOf bus s op).Good ∧
    ∃ n, Took s.conf.sigMask.mask (bus.queue s.hw) n (fresh s).conf (final (op.run bus.toBus) (fresh s)).conf ∧
      (recordOf bus s op).after = (bus.queue s.hw).drop n := by
  obtain ⟨hpop, hlevel, hclean⟩ := hfair hserves
  have hsize (size : Nat) (hop : op = .get size) : maxEntries ≤ size := by
    subst hop
    exact hserves.2.2
  obtain ⟨hrc, -, c', htook, hat⟩ | ⟨hrc, n, hn, c', htook, hat⟩ :=
    (ends_call hpop hlevel hserves rfl).final (at_fresh s)
  · rw [← hat.conf] at htook
    refine ⟨(good_iff ⟨hrc, hat.queue, htook.length rfl, hsize⟩).mpr hclean, _, htook, hat.queue⟩
  · rw [← hat.conf] at htook
    refine ⟨⟨fun hnone => absurd hnone hrc, fun _ hnone => absurd hnone hrc, fun size hop => ?_⟩, n, htook, hat.queue⟩
    have hlen := htook.length rfl
    have hop' : op = .get size := hop
    rw [hop', Op.callback] at hn
    have hserved := @served_get_le bus.lag 0 (bus.queue s.hw) (by decide)
    have hfilter := List.length_filter_le Entry.complete ((bus.queue s.hw).take n)
    rw [List.length_take] at hfilter
    have := hsize size hop'
    simp only [recordOf]
    omega

/-- A call: what it took, and that it did what is asked of it. -/
theorem recordOf_good (hfair : Fair bus s op) : (recordOf bus s op).Good ∧
    ∃ n, Took s.conf.sigMask.mask (bus.queue s.hw) n (fresh s).conf (final (op.run bus.toBus) (fresh s)).conf ∧
      (recordOf bus s op).after = (bus.queue s.hw).drop n := by
  by_cases h : (fresh s).conf.Serves op
  · exact recordOf_served h hfair
  · exact recordOf_refused h

/-- What a run keeps: the driver's data stay the same, but for what the caller has. -/
structure HistoryInv (bus : FifoBus H) (c : TsPort) (x : History H) : Prop extends Conserved bus c.sigMask.mask x where
  conf : (fresh x.dev).conf = { c with out := [] }

theorem HistoryInv.arrive {c : TsPort} {x : History H} {h : H} (hx : HistoryInv bus c x) (hd : bus.drift x.dev.hw h) :
    HistoryInv bus c
      ⟨{ x.dev with hw := h }, x.arrived ++ (bus.queue h).drop (bus.queue x.dev.hw).length, x.records⟩ := by
  obtain ⟨gone, harrived, hgone⟩ := hx.once
  obtain ⟨new, hnew⟩ := bus.drift_queue _ _ hd
  refine ⟨⟨⟨gone, ?_, hgone⟩, hx.good⟩, hx.conf⟩
  simp only [harrived, hnew, List.drop_left, List.append_assoc]

theorem HistoryInv.call {c : TsPort} {x : History H} (hx : HistoryInv bus c x) (hfair : Fair bus x.dev op) :
    HistoryInv bus c ⟨final (op.run bus.toBus) (fresh x.dev), x.arrived, x.records ++ [recordOf bus x.dev op]⟩ := by
  obtain ⟨gone, harrived, hgone⟩ := hx.once
  obtain ⟨hgood, n, ⟨got, hconf, hgot⟩, hafter⟩ := recordOf_good hfair
  have hmask : x.dev.conf.sigMask = c.sigMask := by
    have h := congrArg TsPort.sigMask hx.conf
    exact h
  have hout : (recordOf bus x.dev op).out = got := by
    rw [recordOf, hconf]
    rfl
  refine ⟨⟨⟨gone ++ (bus.queue x.dev.hw).take n, ?_, ?_⟩, ?_⟩, ?_⟩
  · rw [harrived, List.append_assoc]
    exact congrArg (gone ++ ·) ((List.take_append_drop n _).symm.trans (by rw [← hafter]; rfl))
  · rw [hmask] at hgot
    rw [List.filter_append, List.map_append, hgone, hgot, ← List.map_append]
    simp only [History.delivered, List.flatMap_append, List.flatMap_cons, List.flatMap_nil, List.append_nil, hout]
  · intro r hr
    rcases List.mem_append.mp hr with hr | hr
    · exact hx.good r hr
    · rw [List.mem_singleton.mp hr]
      exact hgood
  · rw [← hx.conf, fresh, hconf]
    rfl

/-- **The FIFO conserves its entries.** In every run whose calls are fair, complete entries are delivered once and in
order, no partial one ends the service, an empty FIFO is left behind by `vtss_phy_ts_fifo_empty`, and no list gets more
than it holds. -/
theorem fifo_conserved (bus : FifoBus H) (s : Dev TsPort H) {x : History H}
    (hrun : Relation.ReflTransGen (Step bus (Fair bus)) (.start bus s) x) : Conserved bus s.conf.sigMask.mask x := by
  have hinv : HistoryInv bus s.conf x := by
    induction hrun with
    | refl => exact ⟨⟨⟨[], rfl, rfl⟩, by rintro r ⟨⟩⟩, rfl⟩
    | tail _ hstep ih =>
      cases hstep with
      | arrive _ hd => exact ih.arrive hd
      | call _ hfair => exact ih.call hfair
  exact hinv.toConserved

end Runs

/-! ## A FIFO that always answers -/

/-- TSFIFO_0 of a queue. -/
def benchWord0 : List Entry → BitVec 32
  | [] => 0x80000000
  | e :: _ => 0#1 ++ e.flags ++ 0#12 ++ e.data.extractLsb' 0 16

/-- TSFIFO_CSR with a level. -/
def benchLevel (n : Nat) : BitVec 32 := 0#16 ++ BitVec.ofNat 4 n ++ 0#12

/-- The words between. -/
def benchWord (k : Nat) (q : List Entry) : BitVec 32 := (q.head?.map fun e => e.word k).getD 0

theorem benchWord0_cons (e : Entry) (q : List Entry) : (benchWord0 (e :: q)).getLsbD 31 = false ∧
    (benchWord0 (e :: q)).extractLsb' 28 3 = e.flags ∧
    (benchWord0 (e :: q)).extractLsb' 0 16 = e.data.extractLsb' 0 16 := by
  refine ⟨?_, ?_, ?_⟩
  · simp only [benchWord0, BitVec.getLsbD_append]
    simp
  · apply BitVec.eq_of_getLsbD_eq
    intro i hi
    simp only [benchWord0, BitVec.getLsbD_extractLsb', BitVec.getLsbD_append, hi, decide_true, Bool.true_and]
    simp [show ¬28 + i < 16 by omega, show ¬28 + i - 16 < 12 by omega, show 28 + i - 16 - 12 = i by omega, hi]
  · apply BitVec.eq_of_getLsbD_eq
    intro i hi
    simp only [benchWord0, BitVec.getLsbD_extractLsb', BitVec.getLsbD_append, hi, decide_true, Bool.true_and]
    simp [hi]

theorem benchWord0_empty (q : List Entry) : (benchWord0 q).getLsbD 31 = q.isEmpty := by
  cases q with
  | nil => rfl
  | cons e q => exact (benchWord0_cons e q).1

theorem benchLevel_field {n : Nat} (h : n < 16) : ((benchLevel n).extractLsb' 12 4).toNat = n := by
  have hbits : (benchLevel n).extractLsb' 12 4 = BitVec.ofNat 4 n := by
    apply BitVec.eq_of_getLsbD_eq
    intro i hi
    simp only [benchLevel, BitVec.getLsbD_extractLsb', BitVec.getLsbD_append, hi, decide_true, Bool.true_and]
    simp [show ¬12 + i < 12 by omega, hi]
  rw [hbits, BitVec.toNat_ofNat]
  exact Nat.mod_eq_of_lt h

/-- A queue, and its length at the last read of TSFIFO_0. -/
structure BenchFifo where
  queue : List Entry
  seen : Nat
  fits : queue.length < 16

/-- No access fails, the level is the number of entries, and nothing arrives. -/
def benchFifo : FifoBus BenchFifo where
  rd r h := match r with
    | .tsfifo0 => (.ok (benchWord0 h.queue), { h with seen := h.queue.length })
    | .tsfifo1 => (.ok (benchWord 0 h.queue), h)
    | .tsfifo2 => (.ok (benchWord 1 h.queue), h)
    | .tsfifo3 => (.ok (benchWord 2 h.queue), h)
    | .tsfifo4 => (.ok (benchWord 3 h.queue), h)
    | .tsfifo5 => (.ok (benchWord 4 h.queue), h)
    | .tsfifo6 => (.ok (benchWord 5 h.queue),
      { h with queue := h.queue.tail, fits := Nat.lt_of_le_of_lt (by simp) h.fits })
    | .tsfifoCsr => (.ok (benchLevel h.queue.length), h)
  wr _ _ h := (.ok (), h)
  drift h h' := h' = h
  queue := BenchFifo.queue
  fits := BenchFifo.fits
  latched := false
  seen := BenchFifo.seen
  rd_queue r h hr := by cases r <;> first | rfl | exact absurd rfl hr
  rd_seen r h hr := by cases r <;> first | rfl | exact absurd rfl hr
  tsfifo0_ok h v hv := by
    cases hv
    exact ⟨benchWord0_empty h.queue, rfl, fun e q hq => hq ▸ (benchWord0_cons e q).2⟩
  tsfifo1_ok h v e q hv hq := by cases hv; simp only [hq]; rfl
  tsfifo2_ok h v e q hv hq := by cases hv; simp only [hq]; rfl
  tsfifo3_ok h v e q hv hq := by cases hv; simp only [hq]; rfl
  tsfifo4_ok h v e q hv hq := by cases hv; simp only [hq]; rfl
  tsfifo5_ok h v e q hv hq := by cases hv; simp only [hq]; rfl
  tsfifo6_ok h v hv := ⟨rfl, fun e q hq => by cases hv; simp only [hq]; rfl⟩
  csr_ok h v hv := by cases hv; exact benchLevel_field h.fits
  drift_queue h h' hd := ⟨[], by rw [hd, List.append_nil]⟩

theorem benchFifo_answered (h : BenchFifo) (r : FifoReg) : Answered benchFifo h r := by
  intro h' _
  cases r <;> exact ⟨_, rfl⟩

/-- A port with a callback. -/
def benchPort : TsPort := ⟨true, .normal, ⟨0x24, by decide⟩, true, []⟩

/-- A complete entry: its bytes count from 0. -/
def benchEntry : Entry := ⟨7, 0x191817161514131211100F0E0D0C0B0A09080706050403020100⟩

/-- One entry in the FIFO, fetched by the callback. -/
theorem fifo_conserved_single : Conserved benchFifo benchPort.sigMask.mask
    ⟨final (fifoEmpty benchFifo.toBus) (fresh ⟨benchPort, ⟨[benchEntry], 0, by decide⟩⟩), [benchEntry],
      [recordOf benchFifo ⟨benchPort, ⟨[benchEntry], 0, by decide⟩⟩ .empty]⟩ :=
  fifo_conserved benchFifo ⟨benchPort, ⟨[benchEntry], 0, by decide⟩⟩
    (.single (.call _ .empty fun _ => ⟨benchFifo_answered _ _, benchFifo_answered _ _, Nat.le_refl 1⟩))

/-- A partial entry, and a complete one that stays behind it in the FIFO. -/
theorem not_fifo_conserved : ¬∀ (H : Type) (bus : FifoBus H) (s : Dev TsPort H) (x : History H),
    Relation.ReflTransGen (Step bus fun _ _ => True) (.start bus s) x → Conserved bus s.conf.sigMask.mask x := by
  intro h
  have hrun := h _ benchFifo ⟨benchPort, ⟨[{ benchEntry with flags := 3 }, benchEntry], 0, by decide⟩⟩ _
    (.single (.call _ .empty trivial))
  have hgood := hrun.good _ List.mem_cons_self
  have hempty := hgood.emptied rfl (by decide)
  revert hempty
  decide

end Lan80xx.VtssTs
