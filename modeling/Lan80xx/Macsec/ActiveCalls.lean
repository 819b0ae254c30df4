import Lan80xx.Macsec.ActiveSa

/-!
# MACsec: runs that keep the active transmit SA

`TxCareful` names the calls that break the agreement of the tables with the map, and excludes them: an enabled SA that is
deleted, map entry 0 cleared under an enabled SA of SecY 0, a register access that fails between map and tables, and the
SecYs and records that lie outside page 0. Every other call keeps it (`good_call`), and so does every run of such calls.
-/

namespace Lan80xx.Macsec

open Fallible RegBus MacsecConf

variable {H : Type} {rf : PortRegs H} {i j an r : Nat} {c : MacsecConf} {z z' : Prop}

/-! ## Calls -/

theorem Good.of_zero {mw : Nat → BitVec 32} (h : Good z c mw) (h0 : z' → ∀ an r, ¬TxOn c 0 an r) : Good z' c mw :=
  { h with zero := h0 }

theorem trace_accessed {sp : Scope} {s s' : Dev MacsecConf H} (ht : Relation.ReflTransGen (Micro rf.toBus sp i) s s') :
    Accessed rf.toBus s.hw s'.hw := by
  induction ht with
  | refl => exact .refl
  | @tail t t' _ hm ih =>
    cases hm with
    | hw hst => exact ih.trans hst.accessed
    | sw _ _ => exact ih
    | @zero _ d record _ =>
      have hw : Within (hwFrame rf.toBus (mapBits d 0)) (saInuse rf.toBus record 0 0 d false) :=
        within_saInuse subset_rfl
      exact ih.trans (hw t).2.accessed

/-- `Good` on a device whose accesses succeed. -/
def Steady (rf : PortRegs H) (z : Prop) (g : Glb) (s : Dev MacsecConf H) : Prop :=
  s.conf.glb = g ∧ Good z s.conf (mapWord rf s.hw) ∧ rf.Sound s.hw

/-- In the header-bypass mode the TCAM keys of the egress records from 96 on lie over the map. -/
def egressRecs (c : MacsecConf) : Nat := if c.glb.cleartags then 96 else maxSa

/-- The scope of a call that does not switch the map. -/
def quietScope (c : MacsecConf) (kinds : Set Kind) (zero : Set Direction) : Scope :=
  ⟨kinds, zero, fun d => match d with | .egress => egressRecs c | .ingress => maxSa, maxRxSc⟩

theorem quietScope_recs {kinds : Set Kind} {zero : Set Direction} (d : Direction) :
    (quietScope c kinds zero).recs d ≤ maxSa := by
  cases d with
  | egress =>
    simp only [quietScope, egressRecs]
    split <;> decide
  | ingress => exact le_rfl

theorem Inv.fits_quietScope {kinds : Set Kind} {zero : Set Direction} (h : Inv c)
    (hr : c.glb.cleartags = true → ∀ r, (c.txSa r).inUse = true → r < 96) : Fits (quietScope c kinds zero) c where
  recs {d r} hu := by
    cases d with
    | egress =>
      simp only [quietScope, egressRecs]
      split
      · next hc => exact hr hc r hu
      · exact h.tx_lt hu
    | ingress => exact h.rx_lt hu
  hws hu := h.hw_lt hu

section Quiet

variable {kinds : Set Kind} {zero : Set Direction} {s s' : Dev MacsecConf H}

/-- Small steps of a quiet scope keep `Good`. -/
theorem good_of_quiet (ht : Relation.ReflTransGen (Micro rf.toBus (quietScope c kinds zero) i) s s')
    (hc : s.conf.glb = c.glb) (hk : .txSwitch ∉ kinds) (hk' : .txFree true ∉ kinds) (hi : i < scRecPage0Num)
    (hz : .egress ∈ zero → z) (h : Good z s.conf (mapWord rf s.hw)) :
    s'.conf.glb = s.conf.glb ∧ Good z s'.conf (mapWord rf s'.hw) := by
  refine good_of_trace ht quietScope_recs (fun hg => ?_) le_rfl hk hk' hi hz h
  rw [hc] at hg
  simp only [quietScope, egressRecs, hg, if_true]
  exact le_rfl

theorem steady_of_quiet (hk : .txSwitch ∉ kinds) (hk' : .txFree true ∉ kinds) (hi : i < scRecPage0Num)
    (hz : .egress ∈ zero → z) (ht : (trace rf.toBus (quietScope c kinds zero) i).rel s s') :
    (Frame.keeps (Steady rf z c.glb)).rel s s' := by
  rintro ⟨hg, hgood, hs⟩
  obtain ⟨hg', hgood'⟩ := good_of_quiet ht hg hk hk' hi hz hgood
  exact ⟨hg'.trans hg, hgood', hs.of_accessed (trace_accessed ht)⟩

/-- Disabling a transmit SA, as part of a longer call. -/
theorem disablesTxSa_steady {sp : Scope} {g : Glb} (hi : i < scRecPage0Num) :
    DisablesTxSa (Frame.keeps (Steady rf z g)) rf.toBus sp i := by
  rintro c an h hf s rfl
  have hf' : Fits { sp with kinds := {.txSwitch} } s.conf := ⟨hf.recs, hf.hws⟩
  have hst : (trace rf.toBus { sp with kinds := {.txSwitch} } i).rel s (final (txSaDisable rf.toBus i an) s) ∧
      ∀ a s', txSaDisable rf.toBus i an s = .ok a s' → s'.conf = disableTxSa i s.conf an :=
    steps_txSaDisable h hf' rfl s rfl
  refine ⟨?_, hst.2⟩
  rintro ⟨hg, hgood, hs⟩
  have hglb := (sameSecy_of_trace hst.1 h (Nat.succ_ne_self i)).glb
  have hend : GoodAt rf z s.hw (final (txSaDisable rf.toBus i an) s) := by
    have hend : Ends _ (txSaDisable rf.toBus i an) _ _ := ends_txSaDisable hgood hs hi
    rcases hend.final (s := s) ⟨rfl, .refl, fun _ _ => rfl⟩ with ⟨-, -, he⟩ | ⟨-, he⟩ <;> exact he
  obtain ⟨c', mw, hat, hgood'⟩ := hend
  refine ⟨hglb.trans hg, ?_, hs.of_accessed hat.accessed⟩
  rw [hat.conf]
  exact hgood'.congr hat.words

end Quiet

/-! ## Careful calls -/

/-- The call disables or activates transmit SAs, itself or on the way to a deletion. -/
def Op.switchesTx : Op → Bool
  | .secyConfUpdate _ | .secyConfDel | .txScDel | .txSaActivate _ | .txSaDisable _ => true
  | _ => false

/-- What a call must not do for the map to follow the tables. -/
structure TxCareful (rf : PortRegs H) (op : Op) (port : MacsecPort) (s : Dev MacsecConf H) : Prop where
  slot : ∀ {i}, op.slot s.conf port = some i → i < scRecPage0Num
  enabled : ∀ {i an}, op = .txSaDel an → op.slot s.conf port = some i → ∀ r, ¬TxOn s.conf i an r
  zero : ∀ {i}, op.slot s.conf port = some i → .egress ∈ op.zeroDirs s.conf i →
    (op = .secyConfDel ∧ i = 0) ∨ ∀ an r, ¬TxOn s.conf 0 an r
  sound : op.switchesTx = true → rf.Sound s.hw
  drains : ∀ {an}, op = .txSaActivate an → ∀ h, Accessed rf.toBus s.hw h → Drains rf.toBus .egress h
  bypass : s.conf.glb.cleartags = true → (∀ r, (s.conf.txSa r).inUse = true → r < 96) ∧
    ∀ r, op.allocDir = some .egress → s.conf.recordEmptyGet .egress = some r → r < 96

section Call

variable {op : Op} {port : MacsecPort} {s : Dev MacsecConf H}

/-- A call that finds no SecY for its port fails at once. -/
theorem ends_portCheck_bind {P E : Dev MacsecConf H → Prop} {α : Type} {f : Nat → Call H α}
    {R : α → Dev MacsecConf H → Prop} (hc : ∀ s, P s → s.conf = c) (hE : ∀ s, P s → E s)
    (hf : ∀ i, portFind c port = some i → Ends P (f i) R E) : Ends P (portCheck port >>= f) R E :=
  ((ends_portCheck hc).weaken (fun _ _ => id) hE).bind fun i s hs => hf i hs.2 s hs.1

/-- A call for a port without a SecY, and an addition without a vacancy, change nothing. -/
theorem final_call_none {bus : PortBus H} (hn : op.slot s.conf port = none) : final (op.call bus port) s = s := by
  have hconf : ∀ t : Dev MacsecConf H, t = s → t.conf = s.conf := fun t ht => congrArg Dev.conf ht
  have hnone : portFind s.conf port = none → Ends (fun t : Dev MacsecConf H => t = s) (portCheck port : Call H Nat)
      (fun _ _ => False) fun t => t = s := fun hp =>
    (ends_portCheck hconf).weaken (fun i t ht => by rw [hp] at ht; cases ht.2) fun _ => id
  have hport : portFind s.conf port = none → ∀ {α : Type} {f : Nat → Call H α},
      Ends (fun t => t = s) (portCheck port >>= f) (fun _ t => t = s) fun t => t = s := fun hp _ _ =>
    (hnone hp).bind fun _ _ => False.elim
  suffices hend : Ends (fun t => t = s) (op.call bus port) (fun _ t => t = s) (fun t => t = s) by
    rcases hend.final rfl with ⟨-, -, he⟩ | ⟨-, he⟩ <;> exact he
  cases op with
  | secyConfAdd conf =>
    refine Ends.failIf_bind (fun _ ht _ => ht) fun _ => Ends.bind (Q := fun _ _ => False) ?_ fun _ _ => False.elim
    refine ends_getConf_bind hconf (Ends.failIf_bind (fun _ ht _ => ht) fun _ => ?_)
    cases hv : portVacancy s.conf port with
    | ok i => simp [Op.slot, hv, Except.toOption] at hn
    | error e => exact Ends.throw fun _ ht => ht
  | secyConfUpdate _ | txScUpdate _ | rxScUpdate _ _ => exact Ends.failIf_bind (fun _ ht _ => ht) fun _ => hport hn
  | bypassTagSet tag =>
    refine ends_getConf_bind hconf (Ends.failIf_bind (fun _ ht _ => ht) fun _ => ?_)
    refine (hnone hn).attempt.bind fun o t ht => ?_
    obtain ⟨rfl, hts⟩ : o = none ∧ t = s := by simpa using ht
    exact Ends.pure (fun _ => id) t hts
  | patternSet d a pattern =>
    refine ends_getConf_bind hconf (Ends.failIf_bind (fun _ ht _ => ht) fun _ => ?_)
    exact Ends.failIf_bind (fun _ ht _ => ht) fun _ => (Ends.orFail (hnone hn)).bind fun _ _ => False.elim
  | patternDel d a => exact (Ends.orFail (hnone hn)).bind fun _ _ => False.elim
  | _ => exact hport hn

theorem good_of_goodAt {h₀ : H} {s' : Dev MacsecConf H} (h : GoodAt rf z h₀ s') : Good z s'.conf (mapWord rf s'.hw) := by
  obtain ⟨c', mw, hat, hgood⟩ := h
  rw [hat.conf]
  exact hgood.congr hat.words

theorem atMap_self : AtMap rf s.hw s.conf (mapWord rf s.hw) s := ⟨rfl, .refl, fun _ _ => rfl⟩

/-- A call that is a sequence of quiet small steps. -/
theorem good_quiet_call (h : Good False s.conf (mapWord rf s.hw)) (hc : TxCareful rf op port s)
    (hi : op.slot s.conf port = some i) (hk : .txSwitch ∉ op.kinds s.conf i) (hk' : .txFree true ∉ op.kinds s.conf i)
    (hz : op ≠ .secyConfDel) :
    Good False (final (op.call rf.toBus port) s).conf (mapWord rf (final (op.call rf.toBus port) s).hw) := by
  have hslot : ∀ j, op.slot s.conf port = some j → j = i := fun j hj => by
    rw [hi] at hj
    exact (Option.some.inj hj).symm
  have hin : op.InScope (quietScope s.conf (op.kinds s.conf i) (op.zeroDirs s.conf i)) i s.conf :=
    { kinds := subset_rfl
      zero := subset_rfl
      alloc := fun d r hd hr => by
        cases d with
        | egress =>
          simp only [quietScope, egressRecs]
          split
          · next hg => exact (hc.bypass hg).2 r hd hr
          · exact (recordEmptyGet_spec hr).2
        | ingress => exact (recordEmptyGet_spec hr).2 }
  have ht : Relation.ReflTransGen (Micro rf.toBus _ i) s (final (op.call rf.toBus port) s) :=
    trace_op h.toInv (h.fits_quietScope fun hg => (hc.bypass hg).1) hslot hin
  have hzero : .egress ∈ op.zeroDirs s.conf i → ∀ an r, ¬TxOn s.conf 0 an r := fun hd =>
    (hc.zero hi hd).resolve_left fun hdel => hz hdel.1
  exact (good_of_quiet ht rfl hk hk' (hc.slot hi) id (h.of_zero hzero)).2.of_zero False.elim

/-- A longer call whose steps keep `Steady`. -/
theorem good_steady_call {α : Type} {x : Call H α} (hs : rf.Sound s.hw)
    (hx : Steps (Frame.keeps (Steady rf z s.conf.glb)) (fun t => t.conf = s.conf) x fun _ _ => True)
    (h : Good z s.conf (mapWord rf s.hw)) : Good False (final x s).conf (mapWord rf (final x s).hw) :=
  (((hx s rfl).1 ⟨rfl, h, hs⟩).2.1).of_zero False.elim

/-- A careful call keeps `Good`, whether it succeeds or fails. -/
theorem good_call (h : Good False s.conf (mapWord rf s.hw)) (hc : TxCareful rf op port s) :
    Good False (final (op.call rf.toBus port) s).conf (mapWord rf (final (op.call rf.toBus port) s).hw) := by
  cases hs : op.slot s.conf port with
  | none => rwa [final_call_none hs]
  | some i =>
    have hi := hc.slot hs
    have hslot : ∀ j, op.slot s.conf port = some j → j = i := fun j hj => by
      rw [hs] at hj
      exact (Option.some.inj hj).symm
    -- the calls that switch the map go step by step, the other ones are quiet
    cases op with
    | txSaActivate an =>
      have hend : Ends (AtMap rf s.hw s.conf (mapWord rf s.hw)) ((Op.txSaActivate an).call rf.toBus port)
          (fun _ => GoodAt rf False s.hw) (GoodAt rf False s.hw) :=
        ends_portCheck_bind (fun _ ht => ht.conf) (fun t ht => ⟨_, _, ht, h⟩) fun j hj =>
          ends_txSaActivate h (hc.sound rfl) (hc.drains rfl) (hc.slot hj)
      rcases hend.final atMap_self with ⟨-, -, he⟩ | ⟨-, he⟩ <;> exact good_of_goodAt he
    | txSaDisable an =>
      have hend : Ends (AtMap rf s.hw s.conf (mapWord rf s.hw)) ((Op.txSaDisable an).call rf.toBus port)
          (fun _ => GoodAt rf False s.hw) (GoodAt rf False s.hw) :=
        ends_portCheck_bind (fun _ ht => ht.conf) (fun t ht => ⟨_, _, ht, h⟩) fun j hj =>
          ends_txSaDisable h (hc.sound rfl) (hc.slot hj)
      rcases hend.final atMap_self with ⟨-, -, he⟩ | ⟨-, he⟩ <;> exact good_of_goodAt he
    | txScDel =>
      have hf : Fits (quietScope s.conf {.txFree false, .other} ∅) s.conf :=
        h.fits_quietScope fun hg => (hc.bypass hg).1
      refine good_steady_call (hc.sound rfl) (steps_portCheck_bind hslot fun _ _ => ?_) h
      exact (steps_txScDel (fun _ _ => steady_of_quiet (by simp) (by simp) hi fun hd => hd.elim)
        (disablesTxSa_steady hi) h.toInv hf (by simp [quietScope]) (by simp [quietScope])).post fun _ _ _ => trivial
    | secyConfUpdate conf =>
      have hf : Fits (quietScope s.conf {.txFree false, .other} ∅) s.conf :=
        h.fits_quietScope fun hg => (hc.bypass hg).1
      refine good_steady_call (hc.sound rfl) (Steps.failIf_bind fun _ => steps_portCheck_bind hslot fun _ hu => ?_) h
      exact steps_secyConfUpdate (fun _ _ => steady_of_quiet (by simp) (by simp) hi fun hd => hd.elim)
        (disablesTxSa_steady hi) h.toInv hf hu (by simp [quietScope]) (by simp [quietScope]) conf
    | secyConfDel =>
      have hf : Fits (quietScope s.conf {.txFree false, .other} ∅) s.conf :=
        h.fits_quietScope fun hg => (hc.bypass hg).1
      have hz : (i ≠ 0 ∧ .egress ∈ Op.secyConfDel.zeroDirs s.conf i) → ∀ an r, ¬TxOn s.conf 0 an r := fun hd =>
        (hc.zero hs hd.2).resolve_left fun h0 => hd.1 h0.2
      refine good_steady_call (hc.sound rfl) (steps_portCheck_bind hslot fun _ hu => ?_) (h.of_zero hz)
      refine steps_secyConfDel (fun _ _ => steady_of_quiet (by simp) (by simp) hi fun hd => hd.elim)
        (disablesTxSa_steady hi) h.toInv hf (by simp [quietScope]) (by simp [quietScope]) fun c₁ t h₁ hf₁ ht he => ?_
      have hf₂ : Fits (quietScope s.conf {.other, .closes} (Op.secyConfDel.zeroDirs s.conf i)) c₁ :=
        ⟨hf₁.recs, hf₁.hws⟩
      have hrest : Steps (trace rf.toBus _ i) (fun s => s.conf = c₁) (secyRestDel rf.toBus i) _ :=
        steps_secyRestDel h₁ hf₂ (by rw [he]; exact hu) (by rw [he]; exact ht)
          (by rw [he]; exact fun a d hne => ⟨a, hne⟩) (by simp [quietScope]) (by simp [quietScope])
      refine (hrest.mono fun t t' ht₁ hrel => ?_).post fun _ _ _ => trivial
      rintro ⟨hg, hgood, hsound⟩
      -- map entry 0 may be SecY 0's own, whose transmit channel is gone by now
      have hzero : .egress ∈ Op.secyConfDel.zeroDirs s.conf i → ∀ an r, ¬TxOn t.conf 0 an r := fun hd => by
        by_cases h0 : i = 0
        · subst h0
          rw [ht₁]
          exact fun an r => h₁.not_txOn (by rw [he]; exact ht)
        · exact hgood.zero ⟨h0, hd⟩
      obtain ⟨hg', hgood'⟩ := good_of_quiet hrel hg (by simp) (by simp) hi id (hgood.of_zero hzero)
      exact ⟨hg'.trans hg, hgood'.of_zero fun hd => hgood'.zero hd.2, hsound.of_accessed (trace_accessed hrel)⟩
    | txSaDel an =>
      refine good_quiet_call h hc hs ?_ ?_ (by simp)
      · rintro ⟨r, -, hk⟩
        cases hk
      · rintro ⟨r, hr, hk⟩
        exact hc.enabled rfl hs r ⟨hr, (Kind.txFree.inj hk).symm⟩
    | _ => exact good_quiet_call h hc hs (by simp [Op.kinds]) (by simp [Op.kinds]) (by simp)

end Call

/-! ## Careful runs -/

/-- A careful call, or a change of the device. -/
inductive TxStep (rf : PortRegs H) : Dev MacsecConf H → Dev MacsecConf H → Prop
  | call (port : MacsecPort) (op : Op) (s : Dev MacsecConf H) (hc : TxCareful rf op port s) :
      TxStep rf s (final (op.call rf.toBus port) s)
  | drift (s : Dev MacsecConf H) (h : H) : rf.drift s.hw h → TxStep rf s { s with hw := h }

theorem map_not_live (hj : j < 32) : ¬liveReg (scSaMapReg .egress 0 j) := by
  have hp := (mapPlace j hj 0).place
  unfold liveReg
  simp only at hp
  omega

/-- Out of reset nothing is set up, and no map entry is in use. -/
theorem good_init {glb : Glb} {h₀ : H} (hreset : ∀ j < scRecPage0Num, (mapWord rf h₀ j).getLsbD 15 = false) :
    Good False (macsecInit glb) (mapWord rf h₀) :=
  { inv_init glb with
    slot := fun hu => by cases hu
    active := fun {j} hj =>
      { on := fun ho => by cases ho.1
        off := fun _ => hreset j hj }
    zero := False.elim }

theorem good_run {glb : Glb} {h₀ : H} {s : Dev MacsecConf H}
    (hreset : ∀ j < scRecPage0Num, (mapWord rf h₀ j).getLsbD 15 = false)
    (hrun : Relation.ReflTransGen (TxStep rf) ⟨macsecInit glb, h₀⟩ s) : Good False s.conf (mapWord rf s.hw) := by
  induction hrun with
  | refl => exact good_init hreset
  | tail _ hst ih =>
    cases hst with
    | call port op s hc => exact good_call ih hc
    | drift s h hd => exact ih.congr fun j hj => rf.peek_drift _ _ _ (map_not_status hj) (map_not_live hj) hd

/-- The record that a map word points to. -/
def mapRecord (w : BitVec 32) : Nat := (field w 0 7).toNat

theorem inUseWord_bit (r : Nat) : (inUseWord r).getLsbD 15 = true := by
  simp [inUseWord, bit]

theorem mapRecord_inUseWord : ∀ r < maxSa, mapRecord (inUseWord r) = r := by
  decide

/-- SecY `j` has at most one enabled SA. Its encoding SA is that one, and its map word `w` is in use and points to a record
in use, that SA's; without an enabled SA the map word is not in use. -/
structure TxActive (c : MacsecConf) (w : BitVec 32) (j : Nat) : Prop where
  unique : ∀ {an r an' r'}, TxOn c j an r → TxOn c j an' r' → an = an'
  encoding : ∀ {an r}, TxOn c j an r → (c.secy j).txSc.encodingSa = an
  map : ∀ {an r}, TxOn c j an r → w.getLsbD 15 = true ∧ mapRecord w = r ∧ (c.txSa r).inUse = true
  idle : (∀ an r, ¬TxOn c j an r) → w.getLsbD 15 = false

theorem ActiveSa.txActive {w : BitVec 32} (h : Inv c) (ha : ActiveSa c w j) : TxActive c w j where
  unique ho ho' := (ha.on ho).1.trans (ha.on ho').1.symm
  encoding ho := (ha.on ho).1.symm
  map {an r} ho := by
    have hu : (c.txSa r).inUse = true := h.ownedBy_inUse (txSa_owned ho.1)
    rw [(ha.on ho).2]
    exact ⟨inUseWord_bit r, mapRecord_inUseWord r (h.tx_lt hu), hu⟩
  idle := ha.off

/-- In every careful run out of reset, each SecY in use has at most one enabled transmit SA, and the encoding SA and the map
entry follow it. -/
theorem tx_active (glb : Glb) (h₀ : H) (s : Dev MacsecConf H)
    (hreset : ∀ j < scRecPage0Num, (mapWord rf h₀ j).getLsbD 15 = false)
    (hrun : Relation.ReflTransGen (TxStep rf) ⟨macsecInit glb, h₀⟩ s) (j : Nat) (hu : (s.conf.secy j).inUse = true) :
    TxActive s.conf (mapWord rf s.hw j) j := by
  have h := good_run hreset hrun
  exact (h.active (h.slot hu)).txActive h.toInv

/-- The first SecY, with one transmit SA. -/
def oneTxSa : List (MacsecPort × Op) :=
  [(benchPort 1, .secyConfAdd benchSecy), (benchPort 1, .txScSet), (benchPort 1, .txSaSet 0 1 true {} none)]

theorem bench_drains {h h' : IoReg → BitVec 32} (h0 : h (samInFlightReg .egress) = 0)
    (ha : Accessed bench.toBus h h') : Drains bench.toBus .egress h' :=
  ⟨0, by decide, h' (samInFlightReg .egress), rfl, by rw [ha.storage_status (by decide), h0]; rfl⟩

/-- On the bench a call for SecY 0 is careful if it neither deletes a transmit SA nor clears map entry 0. -/
theorem txCareful_bench {op : Op} {port : MacsecPort} {s : Dev MacsecConf (IoReg → BitVec 32)}
    (hs : op.slot s.conf port = some 0) (hdel : ∀ an, op ≠ .txSaDel an) (hzero : op.zeroDirs s.conf 0 = ∅)
    (h0 : s.hw (samInFlightReg .egress) = 0) (hg : s.conf.glb.cleartags = false) : TxCareful bench op port s where
  slot hi := by
    cases hs.symm.trans hi
    decide
  enabled he _ := absurd he (hdel _)
  zero hi hd := by
    cases hs.symm.trans hi
    rw [hzero] at hd
    exact hd.elim
  sound _ := storage_sound
  drains _ _ ha := bench_drains h0 ha
  bypass hc := by
    rw [hg] at hc
    cases hc

theorem tx_active_oneTxSa : TxActive (calls bench.toBus (oneTxSa ++ [(benchPort 1, .txSaActivate 0)]) benchInit).conf
    (mapWord bench (calls bench.toBus (oneTxSa ++ [(benchPort 1, .txSaActivate 0)]) benchInit).hw 0) 0 := by
  have h1 := TxStep.call (benchPort 1) (.secyConfAdd benchSecy) benchInit
    (txCareful_bench (by decide +kernel) (by simp) rfl rfl rfl)
  have h2 := TxStep.call (benchPort 1) .txScSet (calls bench.toBus (oneTxSa.take 1) benchInit)
    (txCareful_bench (by decide +kernel) (by simp) rfl (by decide +kernel) (by decide +kernel))
  have h3 := TxStep.call (benchPort 1) (.txSaSet 0 1 true {} none) (calls bench.toBus (oneTxSa.take 2) benchInit)
    (txCareful_bench (by decide +kernel) (by simp) rfl (by decide +kernel) (by decide +kernel))
  have h4 := TxStep.call (benchPort 1) (.txSaActivate 0) (calls bench.toBus oneTxSa benchInit)
    (txCareful_bench (by decide +kernel) (by simp) rfl (by decide +kernel) (by decide +kernel))
  exact tx_active { initEnable := true } (fun _ => 0) _ (by decide) ((((Relation.ReflTransGen.single h1).tail h2).tail
    h3).tail h4) 0 (by decide +kernel)

/-- Deleting the enabled SA leaves the map entry in use, pointing to the record that has been freed. -/
theorem not_tx_active : ¬∀ s, Reachable bench.toBus s → ∀ j, (s.conf.secy j).inUse = true →
    TxActive s.conf (mapWord bench s.hw j) j := by
  intro h
  have hs := reachable_bench (oneTxSa ++ [(benchPort 1, .txSaActivate 0), (benchPort 1, .txSaDel 0)])
  have hno : ∀ an < saPerScMax, ((calls bench.toBus (oneTxSa ++ [(benchPort 1, .txSaActivate 0),
      (benchPort 1, .txSaDel 0)]) benchInit).conf.secy 0).txSc.sa an = none := by
    decide +kernel
  have hidle := (h _ hs 0 (by decide +kernel)).idle fun an r ho => by
    rw [TxOn, hno an ((reachable_inv hs).tx_place ho.1).1] at ho
    cases ho.1
  revert hidle
  decide +kernel

end Lan80xx.Macsec
