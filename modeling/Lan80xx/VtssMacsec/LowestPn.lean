import Lan80xx.VtssMacsec.Places
import Lan80xx.VtssMacsec.PnRoundTrip

/-!
# MACsec of the VTSS PHYs: a new lowest packet number

On a Rev B the number in the record of the SA is replaced. On a Rev A an SA that the number jumps ahead of moves to a
new entry, and the match entries of the two records are toggled.

- `EntryChip`: hardware of which the match entries are seen too;
- `flips_saToggle`: the toggle, whose register depends on the record;
- `ends_rxSaLowestPnUpdate`: what an update leaves;
- `RejectsBelow`, `TakesOver`: what it is for, and when it does so (`lowest_pn_taken_over`).
-/

namespace Lan80xx.VtssMacsec

open Fallible RegBus
open Macsec (MacsecPort Sci PktNum CipherSuite Direction word)

/-! ## The match entries -/

/-- The writes of `macsec_sa_toggle` to `SAM_ENTRY_TOGGLE1` (0) and `SAM_ENTRY_TOGGLE2` (1). -/
def saToggleWrites (newRecord oldRecord : Nat) : List (Nat × BitVec 32) :=
  if oldRecord < 32 ∧ newRecord < 32 ∨ 32 ≤ oldRecord ∧ 32 ≤ newRecord then
    if oldRecord < 32 then [(0, 1#32 <<< oldRecord ||| 1#32 <<< newRecord)]
    else [(1, 1#32 <<< (oldRecord - 32) ||| 1#32 <<< (newRecord - 32)), (0, 0)]
  else if oldRecord < 32 then [(1, 1#32 <<< (newRecord - 32)), (0, 1#32 <<< oldRecord)]
  else [(1, 1#32 <<< (oldRecord - 32)), (0, 1#32 <<< newRecord)]

/-- What writes to the toggle registers do to an entry: a bit that is set flips the entry it stands for. -/
def flips (ws : List (Nat × BitVec 32)) (record : Nat) : Bool :=
  ws.foldl (fun b w => b ^^ (decide (record / 32 = w.1) && w.2.getLsbD (record % 32))) false

/-- The two entries are flipped, and no others. -/
theorem flips_saToggle {q r t : Nat} (hq : q < 64) (hr : r < 64) (hne : q ≠ r) :
    flips (saToggleWrites q r) t = (decide (t = q) || decide (t = r)) := by
  have hbit : ∀ n m, (1#32 <<< n).getLsbD m = (decide (m < 32) && decide (m = n)) := by
    intro n m
    simp only [BitVec.getLsbD_shiftLeft, BitVec.getLsbD_one]
    grind
  unfold flips saToggleWrites
  split
  · split
    · simp only [List.foldl_cons, List.foldl_nil, BitVec.getLsbD_or, hbit]
      grind
    · simp only [List.foldl_cons, List.foldl_nil, BitVec.getLsbD_or, hbit]
      grind
  · split
    · simp only [List.foldl_cons, List.foldl_nil, hbit]
      grind
    · simp only [List.foldl_cons, List.foldl_nil, hbit]
      grind

/-- The register sequences that do not write the registers of the match entries. -/
def HwOp.sparesEntries : HwOp → Bool
  | .saMatchSet .. | .saMatchReset .. | .saFlowSet .. | .saFlowClear .. | .saMaskClear .. | .saXformSet ..
  | .saXformReset .. | .saInuse .. | .samInFlight _ | .saCountersGet .. | .nextPnUpdate .. | .checkPnOff | .powerGet => true
  | _ => false

/-- The word that the update of a lowest packet number reads on a Rev A, where there are no XPN suites. -/
def revaPnWord (suite : CipherSuite) : Nat := if suite = .gcmAes128 then 10 else 14

/-- Hardware of which the match entries are seen as well, and that takes the next packet number of a record. -/
structure EntryChip (H : Type) extends Chip H where
  enabled : H → Direction → Nat → Bool
  enable : ∀ record d b c h, (run (.saEnable record d b) c h).1 = true → ∀ d' r,
    enabled (run (.saEnable record d b) c h).2 d' r = if d' = d ∧ r = record then b else enabled h d' r
  toggle : ∀ newRecord oldRecord d c h, (run (.saToggle newRecord oldRecord d) c h).1 = true → ∀ d' r,
    enabled (run (.saToggle newRecord oldRecord d) c h).2 d' r =
      (enabled h d' r ^^ (decide (d' = d) && flips (saToggleWrites newRecord oldRecord) r))
  sparesEntries : ∀ op, op.sparesEntries = true → ∀ c h d r, enabled (run op c h).2 d r = enabled h d r
  nextPnWrites : ∀ i record v c h, (run (.nextPnUpdate i record v) c h).1 = true →
    toChip.pn (run (.nextPnUpdate i record v) c h).2 .ingress record (c.secy i).conf.currentCipherSuite = v.num (c.xpn i)
  nextPnReads : ∀ c i record h v, (nextPn c i record h).1 = some v →
    v = regs.peek h (xformAddr .ingress record (revaPnWord (c.secy i).conf.currentCipherSuite))
  nextPnPeeks : ∀ c i record h, (∀ q, regs.peek (nextPn c i record h).2 q = regs.peek h q) ∧
    ∀ d r, enabled (nextPn c i record h).2 d r = enabled h d r

section Update

variable {H : Type} {chip : EntryChip H} {phy : Phy} {c : Conf} {i an sc p q r : Nat} {port : MacsecPort} {sci : Sci}
  {s s' : Dev Conf H} {lowestPn : PktNum}

/-! ## What an update leaves -/

variable (chip c i r) in
/-- The tables are `c`, the record holds the packet number `v`, and of the ingress entries those in `e` are enabled. -/
def Seen (v : PktNum) (e : Nat → Bool) (s : Dev Conf H) : Prop :=
  PnIs chip.toChip c .ingress i r v s ∧ chip.enabled s.hw .ingress = e

theorem ends_seen {op : HwOp} (hop : op.sparesXform = true) (hop' : op.sparesEntries = true) {v : PktNum}
    {e : Nat → Bool} :
    Ends (Seen chip c i r v e) (hwOp chip.toHw op) (fun _ => Seen chip c i r v e) fun _ => True := by
  refine ends_hwOp_answered ?_
  rintro s ⟨⟨rfl, hv⟩, he⟩ -
  refine ⟨⟨rfl, (pn_congr (chip.spares op hop s.conf s.hw)).trans hv⟩, ?_⟩
  funext t
  rw [← he]
  exact chip.sparesEntries op hop' s.conf s.hw .ingress t

theorem ends_seen_xform {v : PktNum} {e : Nat → Bool} {b : Bool} {rc : Rc} :
    Ends (Seen chip c i r v e) (when (b = false) (orFail (hwOp chip.toHw (.saXformSet .ingress r i an sc)) rc))
      (fun _ => Seen chip c i r (if b = true then v else pnWritten c i .ingress an sc) e) fun _ => True := by
  cases b with
  | false =>
    rw [if_neg Bool.false_ne_true]
    refine Ends.when (fun _ => (ends_hwOp_answered ?_).orFail) fun h => absurd rfl h
    rintro s ⟨⟨rfl, -⟩, he⟩ hok
    refine ⟨⟨rfl, pn_xformSet hok⟩, ?_⟩
    funext t
    rw [← he]
    exact chip.sparesEntries _ rfl s.conf s.hw .ingress t
  | true =>
    rw [if_pos rfl]
    exact Ends.when (fun h => absurd h.symm Bool.false_ne_true) fun _ _ hs => hs

theorem ends_seen_toggle {v : PktNum} {e : Nat → Bool} (hq : q < 64) (hr : r < 64) (hne : q ≠ r) {rc : Rc} :
    Ends (Seen chip c i q v e) (orFail (hwOp chip.toHw (.saToggle q r .ingress)) rc)
      (fun _ => Seen chip c i q v fun t => e t ^^ (decide (t = q) || decide (t = r))) fun _ => True := by
  refine (ends_hwOp_answered ?_).orFail
  rintro s ⟨⟨rfl, hv⟩, he⟩ hok
  refine ⟨⟨rfl, (pn_congr (chip.spares _ rfl s.conf s.hw)).trans hv⟩, ?_⟩
  funext t
  rw [chip.toggle _ _ _ _ _ hok, ← he, flips_saToggle hq hr hne, decide_eq_true rfl, Bool.true_and]

variable (i sc an r q lowestPn c) in
/-- The tables after the SA has moved. -/
def Conf.moved : Conf :=
  (c.setRxSaAt i sc an fun sa => { sa with lowestPn := lowestPn.pn }).moveRxSa i sc an r q

theorem moved_spec (lowestPn : PktNum) (hp : (c.secy i).rxSc sc = some p) (hsa : (c.rxSc p).sa an = some r) (hne : q ≠ r) :
    (c.moved i an sc q r lowestPn).secy = c.secy ∧ (c.moved i an sc q r lowestPn).glb = c.glb ∧
    ((c.moved i an sc q r lowestPn).rxSc p).sa an = some q ∧
    ((c.moved i an sc q r lowestPn).rxSc p).conf = (c.rxSc p).conf ∧
    ((c.moved i an sc q r lowestPn).rxSa q).lowestPn = lowestPn.pn ∧
    ((c.moved i an sc q r lowestPn).rxSa r).inUse = false := by
  have hset : c.setRxSaAt i sc an (fun sa => { sa with lowestPn := lowestPn.pn }) =
      c.setRxSa r fun sa => { sa with lowestPn := lowestPn.pn } := by
    rw [Conf.setRxSaAt, Conf.rxScAt_eq hp, hsa]
  have hmoved : c.moved i an sc q r lowestPn = Conf.setRxSa (Conf.setRxSc (((c.setRxSa r fun sa =>
      { sa with lowestPn := lowestPn.pn }).setRxSa q fun _ => { c.rxSa r with lowestPn := lowestPn.pn }).setRxSa r
        fun _ => {}) p fun x => { x with sa := Function.update x.sa an (some q) }) q fun sa => { sa with record := q } := by
    rw [Conf.moved, hset, Conf.moveRxSa, Conf.linkRxSa_eq (by exact hp), Conf.setRxSa_rxSa_self]
  rw [hmoved]
  refine ⟨rfl, rfl, by simp, by simp, ?_, ?_⟩
  · simp [Conf.setRxSa_rxSa, hne]
  · simp [Conf.setRxSa_rxSa, hne.symm]

theorem ends_readNextPn : Ends (fun t => t = s) (readNextPn chip.toHw i r)
    (fun v t => v = chip.regs.peek s.hw (xformAddr .ingress r (revaPnWord (s.conf.secy i).conf.currentCipherSuite)) ∧
      t.conf = s.conf ∧ (∀ q, chip.regs.peek t.hw q = chip.regs.peek s.hw q) ∧
      chip.enabled t.hw .ingress = chip.enabled s.hw .ingress) fun _ => True := by
  rintro t rfl
  obtain ⟨hpeek, hen⟩ := chip.nextPnPeeks t.conf i r t.hw
  cases hv : (chip.nextPn t.conf i r t.hw).1 with
  | some v =>
    exact Or.inl ⟨v, { t with hw := (chip.nextPn t.conf i r t.hw).2 }, by simp only [readNextPn, hv],
      chip.nextPnReads _ _ _ _ _ hv, rfl, hpeek, funext (hen .ingress)⟩
  | none =>
    exact Or.inr ⟨.access, { t with hw := (chip.nextPn t.conf i r t.hw).2 }, by simp only [readNextPn, hv], trivial⟩

variable (chip s i p r lowestPn) in
/-- On a Rev A the SA moves: the number is above the one in the record and the window of the SecY, in 32 bits. -/
def Jumps : Prop :=
  (chip.pn s.hw .ingress r (s.conf.secy i).conf.currentCipherSuite).pn +
    BitVec.ofNat 32 (s.conf.secy i).conf.replayWindow < lowestPn.pn

instance : Decidable (Jumps chip i r s lowestPn) := inferInstanceAs (Decidable (_ < _))

/-- The word that is read on a Rev A is the packet number. -/
theorem pn_revaPnWord {h : H} {suite : CipherSuite} (hx : suite.xpn = false) :
    (chip.pn h .ingress r suite).pn = chip.regs.peek h (xformAddr .ingress r (revaPnWord suite)) := by
  have hword : pnWord suite = revaPnWord suite := by
    cases suite with
    | gcmAes128 => rfl
    | gcmAes256 => rfl
    | gcmAesXpn128 => cases hx
    | gcmAesXpn256 => cases hx
  rw [Chip.pn, hx, hword, Macsec.pnJoin, if_neg Bool.false_ne_true]
  exact BitVec.setWidth_setWidth_of_le _ (by decide)

variable (chip s i p an r) in
/-- The SA is in the entry `q`, of which the record holds the number `v`, and these entries are enabled. -/
structure Leaves (q : Nat) (v : PktNum) (e : Nat → Bool) (s' : Dev Conf H) : Prop where
  sa : (s'.conf.rxSc p).sa an = some q
  pn : chip.pn s'.hw .ingress q (s.conf.secy i).conf.currentCipherSuite = v
  enabled : chip.enabled s'.hw .ingress = e
  free : q ≠ r → (s'.conf.rxSa r).inUse = false

/-- What a move leaves. -/
theorem ends_move (hp : (s.conf.secy i).rxSc sc = some p) (hsa : (s.conf.rxSc p).sa an = some r)
    (hx : s.conf.xpn i = false) (hq : q < 64) (hr : r < 64) (hne : q ≠ r) {t : Dev Conf H} (ht : t.conf = s.conf)
    (hpeek : ∀ n, chip.regs.peek t.hw n = chip.regs.peek s.hw n)
    (hen : chip.enabled t.hw .ingress = chip.enabled s.hw .ingress) :
    Ends (fun u => u = { t with conf := t.conf.setRxSaAt i sc an fun sa => { sa with lowestPn := lowestPn.pn } }) (do
      modifyConf fun c => c.moveRxSa i sc an r q
      orFail (hwOp chip.toHw (.saMatchSet .ingress q ((s.conf.secy i).pattern .controlledPort .ingress) (some i) sc an))
        (.macsec .couldNotPrgSaMatch)
      orFail (hwOp chip.toHw (.saFlowSet .ingress q (some i) an sc .controlledPort)) (.macsec .couldNotPrgSaFlow)
      when (s.conf.glb.spdChangeMacsecRecfg = false)
        (orFail (hwOp chip.toHw (.saXformSet .ingress q i an sc)) (.macsec .couldNotPrgXform))
      orFail (hwOp chip.toHw (.saToggle q r .ingress)) .couldNotToggleSa
      orFail (hwOp chip.toHw (.saInuse q .ingress true)) (.macsec .couldNotSetSa))
    (fun _ => Leaves chip i an p r s q
      (if s.conf.glb.spdChangeMacsecRecfg = true then
        chip.pn s.hw .ingress q (s.conf.secy i).conf.currentCipherSuite
      else (lowestPn.pn + word (s.conf.rxSc p).conf.replayWindow).setWidth 64)
      fun n => chip.enabled s.hw .ingress n ^^ (decide (n = q) || decide (n = r))) fun _ => True := by
  obtain ⟨hs, hg, hsa', hconf, hlow, hfree⟩ := moved_spec lowestPn hp hsa hne
  have hp' : ((s.conf.moved i an sc q r lowestPn).secy i).rxSc sc = some p := by rwa [hs]
  have hwritten : pnWritten (s.conf.moved i an sc q r lowestPn) i .ingress an sc =
      (lowestPn.pn + word (s.conf.rxSc p).conf.replayWindow).setWidth 64 := by
    rw [pnWritten, Conf.xpn, hs, ← Conf.xpn, hx, if_neg Bool.false_ne_true, Conf.rxSaAt_eq hp' hsa', hlow,
      Conf.rxScAt_eq hp', hconf]
  refine Ends.bind (Q := fun _ => Seen chip (s.conf.moved i an sc q r lowestPn) i q
    (chip.pn s.hw .ingress q (s.conf.secy i).conf.currentCipherSuite) (chip.enabled s.hw .ingress))
    (ends_modifyConf_of ?_) fun _ => ?_
  · rintro u rfl
    refine ⟨⟨by rw [ht]; rfl, ?_⟩, hen⟩
    rw [hs]
    exact pn_congr hpeek
  refine (ends_seen rfl rfl).orFail.bind fun _ => (ends_seen rfl rfl).orFail.bind fun _ => ends_seen_xform.bind fun _ => ?_
  refine (ends_seen_toggle hq hr hne).bind fun _ => ((ends_seen rfl rfl).orFail).weaken (fun _ u hu => ?_) fun _ h => h
  obtain ⟨⟨hc, hpn⟩, he⟩ := hu
  rw [hs, hwritten] at hpn
  exact ⟨by rw [hc, hsa'], hpn, he, fun _ => by rw [hc, hfree]⟩

variable (chip s i p an r lowestPn) in
/-- What an update leaves: a new number in the record on a Rev B; on a Rev A the SA where it was, or in a new entry. -/
def Outcome (phy : Phy) (s' : Dev Conf H) : Prop :=
  let suite := (s.conf.secy i).conf.currentCipherSuite
  if s.conf.glb.macsecRevb = true then
    Leaves chip i an p r s r ((lowestPn + BitVec.ofNat 64 (s.conf.secy i).conf.replayWindow).num suite.xpn)
      (chip.enabled s.hw .ingress) s'
  else if Jumps chip i r s lowestPn then
    ∃ q, s.conf.recordEmptyGet phy .ingress = some q ∧ Leaves chip i an p r s q
      (if s.conf.glb.spdChangeMacsecRecfg = true then chip.pn s.hw .ingress q suite
      else (lowestPn.pn + word (s.conf.rxSc p).conf.replayWindow).setWidth 64)
      (fun n => chip.enabled s.hw .ingress n ^^ (decide (n = q) || decide (n = r))) s'
  else Leaves chip i an p r s r (chip.pn s.hw .ingress r suite) (chip.enabled s.hw .ingress) s'

theorem ends_rxSaLowestPnUpdate (hmax : phy.maxSaCnt ≤ 64) (hsc : s.conf.scFromSciGet phy i sci = some sc)
    (hp : (s.conf.secy i).rxSc sc = some p) (hsa : (s.conf.rxSc p).sa an = some r) (hrec : (s.conf.rxSa r).record = r)
    (hu : (s.conf.rxSa r).inUse = true) (hr : r < phy.maxSaCnt)
    (hshort : s.conf.glb.macsecRevb = false → s.conf.xpn i = false) :
    Ends (fun t => t = s) (rxSaLowestPnUpdate chip.toHw phy i sci an lowestPn)
      (fun _ => Outcome chip i an p r s lowestPn phy) fun _ => True := by
  refine ends_getConf_bind (fun t ht => by rw [ht]) ?_
  rw [hsc]
  refine Ends.failIf_bind (fun _ _ _ => trivial) fun _ => Ends.failIf_bind (fun _ _ _ => trivial) fun _ => ?_
  refine Ends.failIf_bind (fun _ _ _ => trivial) fun _ => Ends.failIf_bind (fun _ _ _ => trivial) fun _ => ?_
  rw [Conf.rxSaAt_eq hp hsa, hrec]
  refine Ends.ite (fun hrev => ?_) fun hrev => ?_
  · refine (ends_hwOp_answered ?_).orFail
    rintro t rfl hok
    rw [Outcome, if_pos hrev]
    exact ⟨hsa, chip.nextPnWrites _ _ _ _ _ hok, funext fun n => chip.sparesEntries _ rfl _ _ _ n, fun h => absurd rfl h⟩
  · have hx := hshort (by simpa using hrev)
    refine Ends.bind ends_readNextPn fun v t ht => ?_
    obtain ⟨rfl, ht, hpeek, hen⟩ := ht
    have hjumps : Jumps chip i r s lowestPn ↔ chip.regs.peek s.hw (xformAddr .ingress r
        (revaPnWord (s.conf.secy i).conf.currentCipherSuite)) + BitVec.ofNat 32 (s.conf.secy i).conf.replayWindow <
          lowestPn.pn := by
      rw [Jumps, pn_revaPnWord hx]
    refine (Ends.when (P := fun u => u = t) (fun hjump => ?_) fun hstay u hut => ?_ :
      Ends _ _ (fun _ => Outcome chip i an p r s lowestPn phy) fun _ => True) t rfl
    · refine Ends.bind (Q := fun _ u => u = { t with conf := t.conf.setRxSaAt i sc an fun sa =>
        { sa with lowestPn := lowestPn.pn } }) (ends_modifyConf_of ?_) fun _ => ?_
      · rintro u rfl
        rfl
      cases hq : s.conf.recordEmptyGet phy .ingress with
      | none => exact Ends.throw fun _ _ => trivial
      | some q =>
        obtain ⟨hlt, hfree⟩ := recordEmptyGet_spec hq
        have hne : q ≠ r := by
          rintro rfl
          exact absurd (hu.symm.trans hfree) (by decide)
        refine (ends_move hp hsa hx (by omega) (by omega) hne ht hpeek hen).weaken (fun _ u hl => ?_) fun _ h => h
        rw [Outcome, if_neg hrev, if_pos (hjumps.mpr hjump)]
        exact ⟨q, hq, hl⟩
    · subst hut
      rw [Outcome, if_neg hrev, if_neg fun h => hstay (hjumps.mp h)]
      exact ⟨by rw [ht, hsa], pn_congr hpeek, hen, fun h => absurd rfl h⟩

/-! ## When the number is taken over -/

/-- The SA that an update is asked for: channel `sc` of SecY `i` is in the place `p`, and its SA in the entry `r`. -/
structure RxSaOf (c : Conf) (phy : Phy) (port : MacsecPort) (sci : Sci) (an i sc p r : Nat) : Prop where
  found : c.portFind phy port = some i
  channel : c.scFromSciGet phy i sci = some sc
  place : (c.secy i).rxSc sc = some p
  sa : (c.rxSc p).sa an = some r
  inUse : (c.rxSa r).inUse = true

variable (chip i an p r s s' lowestPn) in
/-- After the update the frames below the number are rejected: the number in the record of the SA is at least that
number and the window of its channel. The match entry of the SA is enabled if it was so before, the entry that the SA
has left is disabled and free, and the other entries stay as they were. -/
def RejectsBelow : Prop :=
  let suite := (s.conf.secy i).conf.currentCipherSuite
  ∃ q, (s'.conf.rxSc p).sa an = some q ∧
    (lowestPn.num suite.xpn).toNat + (s.conf.rxSc p).conf.replayWindow ≤ (chip.pn s'.hw .ingress q suite).toNat ∧
    chip.enabled s'.hw .ingress q = chip.enabled s.hw .ingress r ∧
    (q ≠ r → chip.enabled s'.hw .ingress r = false ∧ (s'.conf.rxSa r).inUse = false) ∧
    ∀ n, n ≠ q → n ≠ r → chip.enabled s'.hw .ingress n = chip.enabled s.hw .ingress n

/-- The bits of a packet number. -/
def pnBits (xpn : Bool) : Nat := if xpn then 64 else 32

variable (chip phy i p r s lowestPn) in
/-- On a Rev B, the window of the SecY is not below that of the channel, and the number and the window of the SecY do
not wrap. On a Rev A, the SA moves, the number and the window of the channel do not wrap, the SA was enabled and its
new entry not; or the SA stays, and its record already holds as much. -/
def TakesOver : Prop :=
  let suite := (s.conf.secy i).conf.currentCipherSuite
  let lowest := (lowestPn.num suite.xpn).toNat
  let window := (s.conf.rxSc p).conf.replayWindow
  if s.conf.glb.macsecRevb = true then
    let secyWindow := (s.conf.secy i).conf.replayWindow % 2 ^ pnBits suite.xpn
    window ≤ secyWindow ∧ lowest + secyWindow < 2 ^ pnBits suite.xpn
  else if Jumps chip i r s lowestPn then
    chip.enabled s.hw .ingress r = true ∧ ∀ q, s.conf.recordEmptyGet phy .ingress = some q →
      chip.enabled s.hw .ingress q = false ∧
        if s.conf.glb.spdChangeMacsecRecfg = true then
          lowest + window ≤ (chip.pn s.hw .ingress q suite).toNat
        else lowest + window < 2 ^ 32
  else lowest + window ≤ (chip.pn s.hw .ingress r suite).toNat

theorem num_toNat {xpn : Bool} {x : PktNum} : (x.num xpn).toNat = x.toNat % 2 ^ pnBits xpn := by
  cases xpn with
  | true => simp only [PktNum.num, pnBits, ↓reduceIte, Nat.mod_eq_of_lt x.isLt]
  | false =>
    simp only [PktNum.num, PktNum.pn, pnBits, Bool.false_eq_true, ↓reduceIte, BitVec.toNat_setWidth]
    omega

/-- A sum is at least its first part and `v` when it does not wrap, and its second part is at least `v`. -/
theorem add_le_wrapped {m l w v : Nat} (hl : l < m) (hw : w < m) :
    l + v ≤ (l + w) % m ↔ v ≤ w ∧ l + w < m := by
  rcases Nat.lt_or_ge (l + w) m with hlt | hge
  · rw [Nat.mod_eq_of_lt hlt]
    omega
  · rw [Nat.mod_eq_sub_mod hge, Nat.mod_eq_of_lt (by omega)]
    omega

theorem num_add_window {xpn : Bool} {x : PktNum} {w v : Nat} :
    (x.num xpn).toNat + v ≤ ((x + BitVec.ofNat 64 w).num xpn).toNat ↔
      v ≤ w % 2 ^ pnBits xpn ∧ (x.num xpn).toNat + w % 2 ^ pnBits xpn < 2 ^ pnBits xpn := by
  have hpos : 0 < 2 ^ pnBits xpn := Nat.two_pow_pos _
  have hdvd : 2 ^ pnBits xpn ∣ 2 ^ 64 := Nat.pow_dvd_pow 2 (by cases xpn <;> decide)
  have hsum : ((x + BitVec.ofNat 64 w).num xpn).toNat =
      ((x.num xpn).toNat + w % 2 ^ pnBits xpn) % 2 ^ pnBits xpn := by
    rw [num_toNat, num_toNat, BitVec.toNat_add, BitVec.toNat_ofNat, Nat.mod_mod_of_dvd _ hdvd, ← Nat.add_mod,
      Nat.add_mod, Nat.mod_mod_of_dvd _ hdvd, ← Nat.add_mod]
  rw [hsum]
  exact add_le_wrapped (by rw [num_toNat]; exact Nat.mod_lt _ hpos) (Nat.mod_lt _ hpos)

theorem short_add_window {x : PktNum} {w : Nat} :
    (x.num false).toNat + w ≤ ((x.pn + word w).setWidth 64 : PktNum).toNat ↔ (x.num false).toNat + w < 2 ^ 32 := by
  have hx : (x.num false).toNat = x.pn.toNat := by
    simp only [PktNum.num, Bool.false_eq_true, ↓reduceIte, BitVec.toNat_setWidth]
    omega
  have hsum : ((x.pn + word w).setWidth 64 : PktNum).toNat = (x.pn.toNat + w % 2 ^ 32) % 2 ^ 32 := by
    simp only [word, BitVec.toNat_setWidth, BitVec.toNat_add, BitVec.toNat_ofNat]
    omega
  rw [hx, hsum, add_le_wrapped x.pn.isLt (Nat.mod_lt _ (Nat.two_pow_pos _))]
  have hlt := x.pn.isLt
  omega

theorem rejectsBelow_stays {v : PktNum} (h : Leaves chip i an p r s r v (chip.enabled s.hw .ingress) s') :
    RejectsBelow chip i an p r s s' lowestPn ↔
      (lowestPn.num (s.conf.secy i).conf.currentCipherSuite.xpn).toNat + (s.conf.rxSc p).conf.replayWindow ≤ v.toNat := by
  constructor
  · rintro ⟨q, hq, hle, -⟩
    cases h.sa.symm.trans hq
    rwa [h.pn] at hle
  · intro hle
    exact ⟨r, h.sa, by rwa [h.pn], by rw [h.enabled], fun hne => absurd rfl hne, fun n _ _ => by rw [h.enabled]⟩

theorem rejectsBelow_moved {q : Nat} {v : PktNum} (hne : q ≠ r) (h : Leaves chip i an p r s q v
      (fun n => chip.enabled s.hw .ingress n ^^ (decide (n = q) || decide (n = r))) s') :
    RejectsBelow chip i an p r s s' lowestPn ↔ chip.enabled s.hw .ingress r = true ∧
      chip.enabled s.hw .ingress q = false ∧
      (lowestPn.num (s.conf.secy i).conf.currentCipherSuite.xpn).toNat + (s.conf.rxSc p).conf.replayWindow ≤ v.toNat := by
  have hq : chip.enabled s'.hw .ingress q = !chip.enabled s.hw .ingress q := by simp [h.enabled]
  have hr : chip.enabled s'.hw .ingress r = !chip.enabled s.hw .ingress r := by simp [h.enabled]
  constructor
  · rintro ⟨t, ht, hle, hen, hleft, -⟩
    cases h.sa.symm.trans ht
    have hon : chip.enabled s.hw .ingress r = true := by
      have hoff := (hleft hne).1
      rwa [hr, Bool.not_eq_false'] at hoff
    rw [hq, hon] at hen
    rw [h.pn] at hle
    exact ⟨hon, by simpa using hen, hle⟩
  · rintro ⟨hon, hoff, hle⟩
    refine ⟨q, h.sa, by rwa [h.pn], by rw [hq, hoff, hon]; rfl, fun _ => ⟨by rw [hr, hon]; rfl, h.free hne⟩, ?_⟩
    intro n hnq hnr
    simp [h.enabled, hnq, hnr]

/-- **After an update of a lowest packet number, the frames below it are rejected exactly when it is taken over.** A PHY
has at most 64 entries. -/
theorem lowest_pn_taken_over (hmax : phy.maxSaCnt ≤ 64) (hs : Reachable chip.toHw phy s)
    (h : RxSaOf s.conf phy port sci an i sc p r)
    (hok : (Op.rxSaLowestPnUpdate port sci an lowestPn).call chip.toHw phy s = .ok () s') :
    RejectsBelow chip i an p r s s' lowestPn ↔ TakesOver chip phy i p r s lowestPn := by
  have htables := tables_reachable hs
  have hshort : s.conf.glb.macsecRevb = false → s.conf.xpn i = false := by
    intro hrev
    obtain ⟨hi, hu⟩ := portFind_spec h.found
    by_contra hx
    have hrev' := htables.known i hi hu (by simpa using hx)
    exact absurd (hrev.symm.trans hrev') (by decide)
  obtain ⟨j, t, hp, hcall⟩ := (bind_ok_iff _ _ _ _ _).mp hok
  obtain ⟨-, hj, rfl⟩ := portCheck_ok hp
  cases h.found.symm.trans hj
  have hrecord : (t.conf.rxSa r).record = r := htables.numbered .ingress r h.inUse
  have hout := (ends_rxSaLowestPnUpdate hmax h.channel h.place h.sa hrecord h.inUse
    ((places_reachable hs).pointed h.sa) hshort).ok rfl hcall
  unfold Outcome at hout
  unfold TakesOver
  split at hout
  · next hrev =>
    rw [if_pos hrev, rejectsBelow_stays hout]
    exact num_add_window
  · next hrev =>
    rw [if_neg hrev]
    split at hout
    · next hjump =>
      obtain ⟨q, hq, hleaves⟩ := hout
      have hne : q ≠ r := by
        rintro rfl
        exact absurd (h.inUse.symm.trans (recordEmptyGet_spec hq).2) (by decide)
      rw [if_pos hjump, rejectsBelow_moved hne hleaves]
      have hx : (t.conf.secy i).conf.currentCipherSuite.xpn = false := hshort (by simpa using hrev)
      rw [hx, hq]
      refine and_congr Iff.rfl ?_
      simp only [Option.some.injEq, forall_eq']
      refine and_congr Iff.rfl ?_
      split
      · rfl
      · exact short_add_window
    · next hstay =>
      rw [if_neg hstay, rejectsBelow_stays hout]

end Update

/-! ## A channel with a window of its own -/

/-- In every reachable state, the frames below a number that an update has set are rejected. -/
def LowestPnTakenOver {H : Type} (chip : EntryChip H) (phy : Phy) : Prop :=
  ∀ (s s' : Dev Conf H) (port : MacsecPort) (sci : Sci) (an i sc p r : Nat) (lowestPn : PktNum),
    Reachable chip.toHw phy s → RxSaOf s.conf phy port sci an i sc p r →
    (Op.rxSaLowestPnUpdate port sci an lowestPn).call chip.toHw phy s = .ok () s' →
    RejectsBelow chip i an p r s s' lowestPn

/-- Transform records that are nothing but storage, and the entries that are enabled. -/
abbrev BenchEntries : Type := (Nat → BitVec 32) × (Direction → Nat → Bool)

def benchEntryRegs : RegFile Nat 32 BenchEntries (fun _ => False) fun _ => True := benchRegs.beside _

/-- The words of a packet number that is replaced. -/
def nextPnWrites (suite : CipherSuite) (record : Nat) (v : PktNum) : List (Nat × BitVec 32) :=
  let lo := (xformAddr .ingress record (pnWord suite), v.pn)
  if suite.xpn then [lo, (xformAddr .ingress record (pnWord suite + 1), (v >>> 32).setWidth 32)] else [lo]

/-- What the record holds after the number has been replaced. -/
theorem benchEntryRegs_pn {suite : CipherSuite} {r : Nat} {v : PktNum} {h : BenchEntries}
    (hok : (benchEntryRegs.writes (nextPnWrites suite r v) h).1 = true) :
    let h' := (benchEntryRegs.writes (nextPnWrites suite r v) h).2
    Macsec.pnJoin suite.xpn (benchEntryRegs.peek h' (xformAddr .ingress r (pnWord suite)))
      (benchEntryRegs.peek h' (xformAddr .ingress r (pnWord suite + 1))) = v.num suite.xpn := by
  have hlt := @pnWord_lt suite
  have hne : xformAddr .ingress r (pnWord suite) ≠ xformAddr .ingress r (pnWord suite + 1) := fun he =>
    absurd (xformAddr_inj (by omega) (by omega) he) (by omega)
  intro h'
  cases hx : suite.xpn with
  | true =>
    have hws : nextPnWrites suite r v = [(xformAddr .ingress r (pnWord suite), v.pn),
        (xformAddr .ingress r (pnWord suite + 1), (v >>> 32).setWidth 32)] := by rw [nextPnWrites, if_pos hx]
    have hnodup : ((nextPnWrites suite r v).map Prod.fst).Nodup := by simp [hws, hne]
    rw [benchEntryRegs.peek_writes_of_mem (v := v.pn) not_false hnodup (by simp [hws]) hok,
      benchEntryRegs.peek_writes_of_mem (v := (v >>> 32).setWidth 32) not_false hnodup (by simp [hws]) hok]
    exact Macsec.pnJoin_split v
  | false =>
    have hws : nextPnWrites suite r v = [(xformAddr .ingress r (pnWord suite), v.pn)] := by
      rw [nextPnWrites, if_neg (by rw [hx]; decide)]
    rw [benchEntryRegs.peek_writes_of_mem (v := v.pn) not_false (by simp [hws]) (by simp [hws]) hok]
    rfl

/-- A chip that answers every access. -/
def benchEntryChip : EntryChip BenchEntries where
  run op c h :=
    match op with
    | .saXformSet d record i an sc => benchEntryRegs.writes (xformWrites c d record i an sc (word record)) h
    | .nextPnUpdate i record v => benchEntryRegs.writes (nextPnWrites (c.secy i).conf.currentCipherSuite record v) h
    | .saEnable record d b => (true, h.1, fun d' r => if d' = d ∧ r = record then b else h.2 d' r)
    | .saToggle new old d => (true, h.1, fun d' r => h.2 d' r ^^ (decide (d' = d) && flips (saToggleWrites new old) r))
    | _ => (true, h)
  nextPn c i record h :=
    (some (h.1 (xformAddr .ingress record (revaPnWord (c.secy i).conf.currentCipherSuite))), h)
  regs := benchEntryRegs
  xformSet _ record _ _ _ _ _ := ⟨word record, rfl⟩
  spares op hop c h q := by
    cases op with
    | saXformSet => cases hop
    | nextPnUpdate => cases hop
    | _ => rfl
  enabled h := h.2
  enable _ _ _ _ _ _ _ _ := rfl
  toggle _ _ _ _ _ _ _ _ := rfl
  sparesEntries op hop c h d r := by
    cases op with
    | saEnable => cases hop
    | saToggle => cases hop
    | saXformSet => exact congrFun (congrFun (benchRegs.beside_writes _ h) d) r
    | nextPnUpdate => exact congrFun (congrFun (benchRegs.beside_writes _ h) d) r
    | _ => rfl
  nextPnWrites _ _ _ _ _ hok := benchEntryRegs_pn hok
  nextPnReads _ _ _ _ _ h := (Option.some.inj h).symm
  nextPnPeeks _ _ _ _ := ⟨fun _ => rfl, fun _ _ => rfl⟩

/-- An SA in use, of a channel that has been given this window; the window of the SecY is 0. -/
def lowestRun (window : Nat) : List Op :=
  [.initSet (.request true false), .secyConfAdd (benchPort 1) benchSecy, .rxScAdd (benchPort 1) benchSci,
    .rxScUpdate (benchPort 1) benchSci { replayWindow := window }, setRxSa 5, .rxSaActivate (benchPort 1) benchSci 0]

def lowestState (window : Nat) : Dev Conf BenchEntries :=
  calls benchEntryChip.toHw benchPhy (lowestRun window) { conf := {}, hw := (fun _ => 0, fun _ _ => false) }

theorem reachable_lowestState (window : Nat) : Reachable benchEntryChip.toHw benchPhy (lowestState window) :=
  reachable_calls _ _ _ _

def updateRxSa : Op := .rxSaLowestPnUpdate (benchPort 1) benchSci 0 40

theorem lowestState_zero : RxSaOf (lowestState 0).conf benchPhy (benchPort 1) benchSci 0 0 0 0 0 ∧
    (lowestState 0).conf.glb.macsecRevb = true ∧ ((lowestState 0).conf.rxSc 0).conf.replayWindow = 0 ∧
    ((lowestState 0).conf.secy 0).conf.replayWindow = 0 := by
  refine ⟨⟨?_, ?_, ?_, ?_, ?_⟩, ?_, ?_, ?_⟩ <;> decide +kernel

/-- Without a window of the channel, the number 40 is taken over. -/
theorem lowest_pn_taken_over_bench : RejectsBelow benchEntryChip 0 0 0 0 (lowestState 0)
    (final (updateRxSa.call benchEntryChip.toHw benchPhy) (lowestState 0)) 40 := by
  obtain ⟨hof, hrev, hwindow, hsecy⟩ := lowestState_zero
  have hok := ok_final (x := updateRxSa.call benchEntryChip.toHw benchPhy) (s := lowestState 0) (by decide +kernel)
  refine (lowest_pn_taken_over (by decide) (reachable_lowestState 0) hof hok).mpr ?_
  unfold TakesOver
  rw [if_pos hrev, hwindow, hsecy]
  exact ⟨Nat.zero_le _, by decide +kernel⟩

theorem lowestState_wide : RxSaOf (lowestState 16).conf benchPhy (benchPort 1) benchSci 0 0 0 0 0 ∧
    (lowestState 16).conf.glb.macsecRevb = true ∧ ((lowestState 16).conf.rxSc 0).conf.replayWindow = 16 ∧
    ((lowestState 16).conf.secy 0).conf.replayWindow = 0 := by
  refine ⟨⟨?_, ?_, ?_, ?_, ?_⟩, ?_, ?_, ?_⟩ <;> decide +kernel

/-- With a window of 16, the record is given the window of the SecY instead, and accepts frames from 24 on. -/
theorem not_lowest_pn_taken_over : ¬LowestPnTakenOver benchEntryChip benchPhy := by
  intro h
  obtain ⟨hof, hrev, hwindow, hsecy⟩ := lowestState_wide
  have hok := ok_final (x := updateRxSa.call benchEntryChip.toHw benchPhy) (s := lowestState 16) (by decide +kernel)
  have hreach := reachable_lowestState 16
  have htakes := (lowest_pn_taken_over (by decide) hreach hof hok).mp (h _ _ _ _ _ _ _ _ _ _ hreach hof hok)
  unfold TakesOver at htakes
  rw [if_pos hrev, hwindow, hsecy] at htakes
  exact absurd htakes.1 (by decide)

end Lan80xx.VtssMacsec
