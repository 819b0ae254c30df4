import Lan80xx.VtssMacsec.PnRoundTrip

/-!
# MACsec of the VTSS PHYs: the status of the ports

The controlled port works while it is enabled, frames are received and sent on it, and the SA that sends them has
packet numbers left. `vtss_macsec_secy_port_status_get` looks at the last SA in use instead, and of its packet number at
the 32 bits that the status of an XPN suite does not bring up to date.

- `txSaStatusGetPriv_lookedAt`: the number that the report looks at;
- `macOperational_iff`: what is reported;
- `Operational`, `ReportsRightly`: when the report is right (`controlled_port_status`).
-/

namespace Lan80xx.VtssMacsec

open Fallible RegBus
open Macsec (MacsecPort PktNum CipherSuite Direction saPerScMax validateFramesStrict)

/-! ## The call -/

/-- `vtss_macsec_port_status_t`. -/
structure PortStatus where
  macEnabled : Bool
  macOperational : Bool
  operPointToPointMac : Bool

/-- `vtss_macsec_secy_port_status_t`. -/
structure SecyPortStatus where
  controlled : PortStatus
  uncontrolled : PortStatus
  common : PortStatus

namespace Conf

variable (c : Conf) (phy : Phy) (i : Nat)

/-- `sc_in_use`: how many receive channels have an SA in use. -/
def scInUse : Nat :=
  ((List.range phy.maxScCnt).filter fun sc => (List.range saPerScMax).any fun an => (c.rxSaAt i sc an).inUse).length

/-- `tx_an`: the last transmit SA in use. -/
def lastTxAn : Option Nat := ((List.range saPerScMax).filter fun an => (c.txSaAt i an).inUse).getLast?

end Conf

/-- A number of 32 bits that is used up, or has wrapped. -/
def usedUp (nextPn : BitVec 32) : Bool := nextPn = 0xFFFFFFFF || nextPn = 0

section Calls

variable {H : Type} (chip : Chip H) (phy : Phy)

/-- `vtss_macsec_secy_port_status_get_priv`. Whether the status of the SA is read is not looked at. -/
def secyPortStatusGetPriv (i : Nat) (fdx : Bool) : Call H SecyPortStatus := do
  let c ← getConf
  let strict := decide ((c.secy i).conf.validateFrames = validateFramesStrict)
  let scInUse := c.scInUse phy i
  let txAn := c.lastTxAn i
  when (txAn ≠ none) (discard (attempt (txSaStatusGetPriv chip i (txAn.getD 0))))
  let c ← getConf
  let common : PortStatus := ⟨true, true, fdx⟩
  let macEnabled := (c.secy i).controlledPortEnabled && common.macEnabled && txAn.isSome && decide (0 < scInUse)
  let macOperational :=
    if txAn.any fun an => usedUp (c.txSaAt i an).nextPn then false else macEnabled && common.macOperational
  let operPointToPointMac := strict && decide (scInUse < 2) || !strict && common.operPointToPointMac
  return ⟨⟨macEnabled, macOperational, operPointToPointMac⟩, common, common⟩

/-- `vtss_macsec_secy_port_status_get`. `fdx` is what `vtss_phy_status_get` makes of the duplex mode of a 1G PHY. -/
def secyPortStatusGet (fdx : Except Rc Bool) (port : MacsecPort) : Call H SecyPortStatus := do
  match if phy.is1g then fdx else .ok true with
  | .error e => throw e
  | .ok fdx => secyPortStatusGetPriv chip phy (← portCheck phy port) fdx

end Calls

/-! ## What is reported -/

section Report

variable {H : Type} {chip : Chip H} {phy : Phy} {c : Conf} {d : Direction} {i an r : Nat} {port : MacsecPort}
  {suite : CipherSuite} {s s' : Dev Conf H}

theorem lastTxAn_spec (h : c.lastTxAn i = some an) :
    an < saPerScMax ∧ ∃ r, (c.secy i).txSc.sa an = some r ∧ (c.txSa r).inUse = true := by
  obtain ⟨hmem, huse⟩ := List.mem_filter.mp (List.mem_of_getLast? h)
  refine ⟨List.mem_range.mp hmem, ?_⟩
  cases hsa : (c.secy i).txSc.sa an with
  | none => simp [Conf.txSaAt, hsa] at huse
  | some r => exact ⟨r, rfl, by rwa [Conf.txSaAt_eq hsa] at huse⟩

/-- A read of a packet number, answered or not. -/
theorem ends_readPn : Ends (fun t => t = s) (readPn chip d r suite)
    (fun v t => chip.regs.Answers (pnRegs d r suite) s.hw ∧ v = chip.pn s.hw d r suite ∧ t.conf = s.conf)
    fun t => ¬chip.regs.Answers (pnRegs d r suite) s.hw ∧ t.conf = s.conf := by
  have hread : ∀ q, Within confFrame (read chip.regs.toBus (fun _ => Rc.access) q : Call H _) := fun q t => by
    rw [final_read]
    rfl
  have hconf : Within confFrame (readPn chip d r suite) :=
    (hread _).bind fun lo => Within.ite ((hread _).bind fun hi => Within.pure _) (Within.pure _)
  rintro t rfl
  cases hpn : readPn chip d r suite t with
  | ok v t' =>
    obtain ⟨ha, hv, ht⟩ := readPn_ok_iff.mp hpn
    exact Or.inl ⟨v, t', rfl, ha, hv, by rw [ht]⟩
  | error e t' =>
    refine Or.inr ⟨e, t', rfl, fun ha => ?_, hconf.error hpn⟩
    rw [readPn_ok_iff.mpr ⟨ha, rfl, rfl⟩] at hpn
    cases hpn

variable (chip i an s) in
/-- The number of 32 bits that the report looks at is used up. It is the one in the record of the SA, when the suite has
short numbers and the record is read, and else the one that was stored last. -/
def LooksUsedUp : Prop :=
  let sa := s.conf.txSaAt i an
  let suite := (s.conf.secy i).conf.currentCipherSuite
  let fresh := suite.xpn = false ∧ chip.regs.Answers (pnRegs .egress sa.record suite) s.hw
  fresh ∧ usedUp ((chip.pn s.hw .egress sa.record suite).pn + 1) = true ∨ ¬fresh ∧ usedUp sa.nextPn = true

variable (chip i an s) in
/-- The status of the SA is brought up to date, as far as it is. -/
def LookedAt (t : Dev Conf H) : Prop :=
  t.conf.secy = s.conf.secy ∧ (usedUp (t.conf.txSaAt i an).nextPn = true ↔ LooksUsedUp chip i an s)

theorem ends_txSaStatusGetPriv (han : an < saPerScMax) (hsa : (s.conf.secy i).txSc.sa an = some r) :
    Ends (fun t => t = s) (txSaStatusGetPriv chip i an) (fun _ => LookedAt chip i an s) (LookedAt chip i an s) := by
  have hstored : ∀ t : Dev Conf H, t.conf = s.conf → ∀ f : TxSa → TxSa,
      (usedUp (f (s.conf.txSaAt i an)).nextPn = true ↔ LooksUsedUp chip i an s) →
      LookedAt chip i an s { t with conf := t.conf.setTxSaAt i an f } := by
    intro t ht f hf
    rw [LookedAt, ht, setTxSaAt_txSaAt hsa, ← Conf.txSaAt_eq hsa]
    exact ⟨by rw [Conf.setTxSaAt_eq hsa, Conf.setTxSa_secy], hf⟩
  refine ends_getConf_bind (fun t ht => by rw [ht]) ?_
  refine Ends.failIf_bind (fun _ _ h => absurd han (Nat.not_lt.mpr h)) fun _ => ?_
  refine Ends.failIf_bind (fun _ _ h => absurd (h.symm.trans hsa) (by simp)) fun _ => ?_
  refine Ends.bind (ends_readPn.weaken (fun _ _ h => h) ?_) fun v => ?_
  · rintro t ⟨hno, ht⟩
    exact ⟨by rw [ht], by simp [LooksUsedUp, ht, hno]⟩
  · refine Ends.ite (fun hx => ends_modifyConf_of ?_) fun hx => ends_modifyConf_of ?_
    · rintro t ⟨ha, rfl, ht⟩
      exact hstored t ht _ (by simp [LooksUsedUp, hx])
    · rintro t ⟨ha, rfl, ht⟩
      exact hstored t ht _ (by simp [LooksUsedUp, hx, ha])

/-! ## When the report is right -/

variable (phy c i) in
/-- A receive channel has an SA in use. -/
def Receiving : Prop :=
  ∃ sc < phy.maxScCnt, ∃ p, (c.secy i).rxSc sc = some p ∧
    ∃ an < saPerScMax, ∃ t, (c.rxSc p).sa an = some t ∧ (c.rxSa t).inUse = true

/-- Of the numbers of the suite's width none is left, a number of zero being one that has wrapped. -/
def Exhausted (xpn : Bool) (nextPn : PktNum) : Prop := nextPn = (if xpn then 0xFFFFFFFFFFFFFFFF else 0xFFFFFFFF) ∨ nextPn = 0

variable (chip i s) in
/-- The encoding SA transmits, and has packet numbers left. -/
def Transmitting : Prop :=
  let suite := (s.conf.secy i).conf.currentCipherSuite
  let an := (s.conf.secy i).txSc.encodingSa
  an < saPerScMax ∧ ∃ r, (s.conf.secy i).txSc.sa an = some r ∧ (s.conf.txSa r).inUse = true ∧
    (s.conf.txSa r).enabled = true ∧
    ¬Exhausted suite.xpn (txStatusPn suite.xpn (chip.pn s.hw .egress (s.conf.txSa r).record suite))

variable (chip phy i s) in
/-- The controlled port can be used. -/
def Operational : Prop :=
  (s.conf.secy i).controlledPortEnabled = true ∧ Receiving phy s.conf i ∧ Transmitting chip i s

variable (chip phy i s) in
/-- The report is right: the port is closed, or nothing can be received on it, or no transmit SA is in use; or else the
number that the report looks at is used up exactly when the encoding SA does not transmit. -/
def ReportsRightly : Prop :=
  (s.conf.secy i).controlledPortEnabled = true → Receiving phy s.conf i → ∀ an, s.conf.lastTxAn i = some an →
    (LooksUsedUp chip i an s ↔ ¬Transmitting chip i s)

theorem Transmitting.inUse (h : Transmitting chip i s) : ∃ an, s.conf.lastTxAn i = some an := by
  obtain ⟨hlt, r, hsa, huse, -⟩ := h
  have hmem : (s.conf.secy i).txSc.encodingSa ∈ (List.range saPerScMax).filter fun an => (s.conf.txSaAt i an).inUse :=
    List.mem_filter.mpr ⟨List.mem_range.mpr hlt, by rwa [Conf.txSaAt_eq hsa]⟩
  exact Option.isSome_iff_exists.mp (List.getLast?_isSome.mpr (List.ne_nil_of_mem hmem))

theorem scInUse_pos : 0 < c.scInUse phy i ↔ Receiving phy c i := by
  rw [Conf.scInUse, List.length_pos_iff_exists_mem, Receiving]
  constructor
  · rintro ⟨sc, hmem⟩
    obtain ⟨hsc, hany⟩ := List.mem_filter.mp hmem
    obtain ⟨an, han, huse⟩ := List.any_eq_true.mp hany
    cases hp : (c.secy i).rxSc sc with
    | none => simp [Conf.rxSaAt, Conf.rxScAt, hp] at huse
    | some p =>
      cases hsa : (c.rxSc p).sa an with
      | none => simp [Conf.rxSaAt, Conf.rxScAt, hp, hsa] at huse
      | some t =>
        rw [Conf.rxSaAt_eq hp hsa] at huse
        exact ⟨sc, List.mem_range.mp hsc, p, hp, an, List.mem_range.mp han, t, hsa, huse⟩
  · rintro ⟨sc, hsc, p, hp, an, han, t, hsa, huse⟩
    refine ⟨sc, List.mem_filter.mpr ⟨List.mem_range.mpr hsc, List.any_eq_true.mpr ⟨an, List.mem_range.mpr han, ?_⟩⟩⟩
    rwa [Conf.rxSaAt_eq hp hsa]

/-- The call returns, and what it reports of the controlled port. -/
theorem ends_secyPortStatusGetPriv {fdx : Bool} : Ends (fun t => t = s) (secyPortStatusGetPriv chip phy i fdx)
    (fun st _ => st.controlled.macOperational = true ↔ (s.conf.secy i).controlledPortEnabled = true ∧
      Receiving phy s.conf i ∧ ∃ an, s.conf.lastTxAn i = some an ∧ ¬LooksUsedUp chip i an s) fun _ => False := by
  refine ends_getConf_bind (fun t ht => by rw [ht]) ?_
  cases han : s.conf.lastTxAn i with
  | none =>
    refine Ends.bind (Q := fun _ t => t.conf.secy = s.conf.secy) (Ends.when (fun h => absurd rfl h) ?_) fun _ => ?_
    · rintro - t rfl
      rfl
    · refine fun t ht => Or.inl ⟨_, t, rfl, ?_⟩
      simp
  | some an =>
    obtain ⟨hlt, r, hsa, -⟩ := lastTxAn_spec han
    refine Ends.bind (Q := fun _ => LookedAt chip i an s) (Ends.when (fun _ => ?_) fun h => absurd (by simp) h) fun _ => ?_
    · refine (ends_txSaStatusGetPriv hlt hsa).attempt.bind fun o => Ends.pure ?_
      rintro t (⟨_, -, ht⟩ | ⟨-, ht⟩)
      · exact ht
      · exact ht
    · rintro t ⟨hsecy, hused⟩
      refine Or.inl ⟨_, t, rfl, ?_⟩
      have hno : usedUp (t.conf.txSaAt i an).nextPn = false ↔ ¬LooksUsedUp chip i an s := by
        rw [← hused, Bool.not_eq_true]
      simp [hsecy, hno, scInUse_pos, and_comm, and_assoc]

/-- A SecY that is there has a status, when the duplex mode is known. -/
theorem secyPortStatusGet_returns (chip : Chip H) (fdx : Except Rc Bool) {b : Bool} (hen : s.conf.glb.init.enable = true)
    (hi : s.conf.portFind phy port = some i) (hfdx : (if phy.is1g then fdx else .ok true) = .ok b) :
    ∃ st s', secyPortStatusGet chip phy fdx port s = .ok st s' := by
  rw [secyPortStatusGet, hfdx]
  simp only [bind_of_ok (portCheck_eq hen hi)]
  rcases ends_secyPortStatusGetPriv s rfl with ⟨st, s', hst, -⟩ | ⟨_, _, -, hno⟩
  · exact ⟨st, s', hst⟩
  · exact hno.elim

/-- The report is right in exactly these states. -/
theorem reported_iff {fdx : Except Rc Bool} {st : SecyPortStatus} (hi : s.conf.portFind phy port = some i)
    (hok : secyPortStatusGet chip phy fdx port s = .ok st s') :
    (st.controlled.macOperational = true ↔ Operational chip phy i s) ↔ ReportsRightly chip phy i s := by
  have hreport : st.controlled.macOperational = true ↔ (s.conf.secy i).controlledPortEnabled = true ∧
      Receiving phy s.conf i ∧ ∃ an, s.conf.lastTxAn i = some an ∧ ¬LooksUsedUp chip i an s := by
    rw [secyPortStatusGet] at hok
    cases hfdx : (if phy.is1g then fdx else Except.ok true) with
    | error e =>
      rw [hfdx] at hok
      cases hok
    | ok b =>
      rw [hfdx] at hok
      obtain ⟨j, t, hp, hst⟩ := (bind_ok_iff _ _ _ _ _).mp hok
      obtain ⟨-, hj, rfl⟩ := portCheck_ok hp
      cases hi.symm.trans hj
      exact ends_secyPortStatusGetPriv.ok rfl hst
  rw [hreport, Operational, ReportsRightly]
  constructor
  · intro hreport hen hrx an han
    have hno : ¬LooksUsedUp chip i an s ↔ Transmitting chip i s := by simpa [hen, hrx, han] using hreport
    exact (not_iff_comm.mp hno).symm
  · intro hright
    constructor
    · rintro ⟨hen, hrx, an, han, hno⟩
      refine ⟨hen, hrx, ?_⟩
      by_contra hidle
      exact hno ((hright hen hrx an han).mpr hidle)
    · rintro ⟨hen, hrx, htx⟩
      obtain ⟨an, han⟩ := htx.inUse
      exact ⟨hen, hrx, an, han, fun hused => (hright hen hrx an han).mp hused htx⟩

theorem exhausted_short {n : BitVec 32} : Exhausted false (n.setWidth 64) ↔ usedUp n = true := by
  simp only [Exhausted, usedUp, Bool.false_eq_true, ↓reduceIte, Bool.or_eq_true, decide_eq_true_eq]
  constructor <;> rintro (h | h) <;> first | (left; bv_omega) | (right; bv_omega)

/-- With short packet numbers, an encoding SA that is the last one in use is reported rightly, when its record is
read. -/
theorem reportsRightly_of_last (hx : s.conf.xpn i = false) (hactive : s.conf.oneTxAnInUse i = true)
    (hlast : s.conf.lastTxAn i = some (s.conf.secy i).txSc.encodingSa)
    (ha : chip.regs.Answers (pnRegs .egress (s.conf.txSaAt i (s.conf.secy i).txSc.encodingSa).record
      (s.conf.secy i).conf.currentCipherSuite) s.hw) : ReportsRightly chip phy i s := by
  intro _ _ an han
  cases hlast.symm.trans han
  obtain ⟨hlt, r, hsa, huse⟩ := lastTxAn_spec hlast
  rw [Conf.xpn] at hx
  rw [Conf.oneTxAnInUse, Conf.txSaAt_eq hsa, Bool.and_eq_true] at hactive
  rw [Conf.txSaAt_eq hsa] at ha
  have hlooks : LooksUsedUp chip i (s.conf.secy i).txSc.encodingSa s ↔ Exhausted false (txStatusPn false
      (chip.pn s.hw .egress (s.conf.txSa r).record (s.conf.secy i).conf.currentCipherSuite)) := by
    rw [txStatusPn, if_neg Bool.false_ne_true, exhausted_short]
    simp [LooksUsedUp, Conf.txSaAt_eq hsa, hx, ha]
  rw [hlooks, Transmitting, hx]
  constructor
  · rintro hex ⟨-, r', hsa', -, -, hno⟩
    cases hsa.symm.trans hsa'
    exact hno hex
  · intro hno
    by_contra hex
    exact hno ⟨hlt, r, hsa, huse, hactive.2, hex⟩

/-- **The status of the controlled port says whether the port is operational in exactly these states.** -/
theorem controlled_port_status (chip : Chip H) (phy : Phy) (port : MacsecPort) (fdx : Except Rc Bool) (i : Nat)
    (s s' : Dev Conf H) (st : SecyPortStatus) (hi : s.conf.portFind phy port = some i)
    (hok : secyPortStatusGet chip phy fdx port s = .ok st s') :
    (st.controlled.macOperational = true ↔ Operational chip phy i s) ↔ ReportsRightly chip phy i s :=
  reported_iff hi hok

end Report

/-! ## Two SecYs -/

/-- In every reachable state, the status says whether the controlled port is operational. -/
def PortStatusRight {H : Type} (chip : Chip H) (phy : Phy) : Prop :=
  ∀ (s s' : Dev Conf H) (port : MacsecPort) (fdx : Except Rc Bool) (i : Nat) (st : SecyPortStatus),
    Reachable chip.toHw phy s → s.conf.portFind phy port = some i →
    secyPortStatusGet chip phy fdx port s = .ok st s' →
    (st.controlled.macOperational = true ↔ Operational chip phy i s)

/-- A SecY with one SA in each direction, and its controlled port open. -/
def openRun (suite : CipherSuite) (nextPn : PktNum) : List Op :=
  [.initSet (.request true false), .secyConfAdd (benchPort 1) { benchSecy with currentCipherSuite := suite },
    .txScSet (benchPort 1), .txSaSet (benchPort 1) 0 nextPn true {} (some (Vector.replicate 4 1)),
    .txSaActivate (benchPort 1) 0, .rxScAdd (benchPort 1) benchSci,
    .rxSaSet (benchPort 1) benchSci 0 1 {} (some (Vector.replicate 4 2)), .secyControlledSet (benchPort 1) true]

def openState (suite : CipherSuite) (nextPn : PktNum) : Dev Conf (Nat → BitVec 32) :=
  calls benchChip.toHw benchPhy (openRun suite nextPn) benchChipProbed

/-- With 32-bit numbers the SA that encodes is looked at. -/
theorem openState_short : (openState .gcmAes128 5).conf.glb.init.enable = true ∧
    (openState .gcmAes128 5).conf.portFind benchPhy (benchPort 1) = some 0 ∧
    (openState .gcmAes128 5).conf.xpn 0 = false ∧ (openState .gcmAes128 5).conf.oneTxAnInUse 0 = true ∧
    (openState .gcmAes128 5).conf.lastTxAn 0 = some ((openState .gcmAes128 5).conf.secy 0).txSc.encodingSa := by
  decide +kernel

theorem controlled_port_status_bench : ∃ st s', secyPortStatusGet benchChip benchPhy (.ok true) (benchPort 1)
    (openState .gcmAes128 5) = .ok st s' ∧
    (st.controlled.macOperational = true ↔ Operational benchChip benchPhy 0 (openState .gcmAes128 5)) := by
  obtain ⟨hen, hi, hx, hactive, hlast⟩ := openState_short
  obtain ⟨st, s', hok⟩ := secyPortStatusGet_returns benchChip (.ok true) hen hi rfl
  exact ⟨st, s', hok, (controlled_port_status benchChip benchPhy _ _ 0 _ _ _ hi hok).mpr
    (reportsRightly_of_last hx hactive hlast (benchRegs_answers _ _))⟩

/-- With 64-bit numbers, of which the first is 1, the number that was stored is looked at, which is 0. -/
theorem openState_xpn : let s := openState .gcmAesXpn128 1
    s.conf.glb.init.enable = true ∧ s.conf.portFind benchPhy (benchPort 1) = some 0 ∧ s.conf.xpn 0 = true ∧
    (s.conf.secy 0).controlledPortEnabled = true ∧ s.conf.scInUse benchPhy 0 = 1 ∧ s.conf.lastTxAn 0 = some 0 ∧
    (s.conf.secy 0).txSc.encodingSa = 0 ∧ (s.conf.secy 0).txSc.sa 0 = some 0 ∧ (s.conf.txSa 0).inUse = true ∧
    (s.conf.txSa 0).enabled = true ∧ (s.conf.txSa 0).nextPn = 0 ∧
    benchChip.pn s.hw .egress (s.conf.txSa 0).record (s.conf.secy 0).conf.currentCipherSuite = 0 := by
  decide +kernel

/-- A SecY with 64-bit numbers that has sent nothing yet is reported not operational. -/
theorem not_controlled_port_status : ¬PortStatusRight benchChip benchPhy := by
  intro h
  obtain ⟨hen, hi, hx, hopen, hrx, hlast, hsa, hentry, huse, hactive, hnext, hpn⟩ := openState_xpn
  obtain ⟨st, s', hok⟩ := secyPortStatusGet_returns benchChip (.ok true) hen hi rfl
  have hreport := h _ _ _ _ _ _ (reachable_calls benchChip.toHw benchPhy (openRun .gcmAesXpn128 1) _) hi hok
  have hused := (reported_iff hi hok).mp hreport hopen (scInUse_pos.mp (hrx ▸ Nat.one_pos)) 0 hlast
  rw [Conf.xpn] at hx
  refine hused.mp ?_ ⟨by rw [hsa]; decide, 0, by rwa [hsa], huse, hactive, ?_⟩
  · refine Or.inr ⟨fun hfresh => Bool.noConfusion (hx.symm.trans hfresh.1), ?_⟩
    rw [Conf.txSaAt_eq hentry, hnext]
    decide
  · rw [hpn, hx]
    rintro (hmax | hzero)
    · exact absurd hmax (by decide)
    · exact absurd hzero (by decide)

end Lan80xx.VtssMacsec
