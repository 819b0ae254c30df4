import Lan80xx.VtssMacsec.NonceRuns

/-!
# MACsec of the VTSS PHYs: where the SAs are

What holds of the SA tables in every reachable state, whatever the calls and however they end.

- `tables_update`, `tables_reachable`: the entries in use know their number (`Tables`);
- `Places`, `places_reachable`: the channels point into the table;
- `Channels`, `channels_reachable`: the SecYs point to channels that differ in their SCI.
-/

namespace Lan80xx.VtssMacsec

open Fallible RegBus
open Macsec (Sci Direction notInUse saPerScMax)

variable {H : Type} {hw : Hw H} {phy : Phy} {c c' : Conf} {d : Direction} {i an sc p r : Nat}

/-! ## Entries in use -/

/-- An SA that takes an entry, or its own one again. -/
theorem Tables.pointTxSa (h : Tables phy c) : Tables phy (c.pointTxSa i an r) :=
  (h.setSecy fun hi => h.known i hi).setTxSa fun _ => rfl

theorem Tables.setRxScAt (h : Tables phy c) {f : RxSc → RxSc} (hp : (c.secy i).rxSc sc = some p)
    (hpu : (f (c.rxSc p)).inUse = true) : Tables phy (c.setRxScAt i sc f) := by
  rw [Conf.setRxScAt, hp]
  exact h.setRxSc fun hno => absurd (hpu.symm.trans hno) (by decide)

theorem Tables.pointRxSa (h : Tables phy c) (hp : (c.secy i).rxSc sc = some p) (hpu : (c.rxSc p).inUse = true) :
    Tables phy (c.pointRxSa i sc an r) :=
  (h.setRxScAt hp hpu).setRxSa fun _ => rfl

theorem pointRxSa_record : ((c.pointRxSa i sc an r).rxSa r).record = r := by simp [Conf.pointRxSa]

/-- **What an update keeps of the tables.** -/
theorem tables_update {k : Kind} (hu : Update phy c k c') (h : Tables phy c) : Tables phy c' := by
  by_cases hk : k.sheds = true
  · exact (sheds_update hk hu h).1
  cases hu with
  | txSaAgain _ _ => exact h.pointTxSa.setTxSa fun _ => by simp [Conf.pointTxSa]
  | txSaTake _ _ _ _ => exact h.pointTxSa.setTxSa fun _ => by simp [Conf.pointTxSa]
  | txSaStart _ hr => exact h.setTxSa fun _ => hr
  | rxSaAgain hp hpu _ _ => exact (h.pointRxSa hp hpu).setRxSa fun _ => pointRxSa_record
  | rxSaTake hp hpu _ _ _ _ =>
    refine Tables.setRxSa ((h.pointRxSa hp hpu).setRxSa fun _ => pointRxSa_record) fun _ => ?_
    simp [Conf.pointRxSa]
  | rxSaMove hp hpu _ _ _ _ => exact h.moveRxSa hp hpu
  | @secyOpen i port conf _ _ hsuite =>
    rw [Conf.openSecy, Conf.setSecy_setSecy]
    exact h.setSecy fun _ _ hx => suiteRejected_spec (by rw [hsuite]; decide) hx
  | secyUpdate hsuite => exact h.setSecy fun _ _ hx => suiteRejected_spec (by rw [hsuite]; decide) hx
  | @patternTake secy d a rule r hr =>
    unfold Conf.takePattern
    cases d with
    | egress =>
      have htake : Tables phy (c.setTxSa r fun sa => { sa with record := r, inUse := true }) := h.setTxSa fun _ => rfl
      cases secy with
      | none => exact htake.setGlb id
      | some i => exact htake.setSecy fun hi => h.known i hi
    | ingress =>
      have htake : Tables phy (c.setRxSa r fun sa => { sa with record := r, inUse := true }) := h.setRxSa fun _ => rfl
      cases secy with
      | none => exact htake.setGlb id
      | some i => exact htake.setSecy fun hi => h.known i hi
  | recfg => exact h.setGlb id
  | recfgDone => exact h.setGlb id
  | _ => exact absurd rfl hk

/-- **In every reachable state, the entries in use know their number.** -/
theorem tables_reachable {s : Dev Conf H} (hs : Reachable hw phy s) : Tables phy s.conf :=
  reachable_induction .probed (fun _ _ _ => tables_update) hs

/-! ## Pointers into the table -/

variable (phy c) in
/-- The channels point into the table of the receive SAs, of which each entry has its own number, or none. -/
structure Places : Prop where
  pointed : ∀ {p an r}, (c.rxSc p).sa an = some r → r < phy.maxSaCnt
  recorded : ∀ r, (c.rxSa r).record = r ∨ (c.rxSa r).record = 0

namespace Places

theorem of_eq (h : Places phy c) (hsc : c'.rxSc = c.rxSc) (hsa : c'.rxSa = c.rxSa) : Places phy c' where
  pointed hr := by
    rw [hsc] at hr
    exact h.pointed hr
  recorded r := by
    rw [hsa]
    exact h.recorded r

theorem setRxSa (h : Places phy c) {f : RxSa → RxSa}
    (hf : (f (c.rxSa r)).record = (c.rxSa r).record ∨ (f (c.rxSa r)).record = r ∨ (f (c.rxSa r)).record = 0) :
    Places phy (c.setRxSa r f) where
  pointed := h.pointed
  recorded q := by
    rw [Conf.setRxSa_rxSa]
    split
    · next hq =>
      subst hq
      rcases hf with hf | hf
      · rw [hf]
        exact h.recorded q
      · exact hf
    · exact h.recorded q

theorem setRxSaAt (h : Places phy c) {f : RxSa → RxSa} (hf : ∀ sa, (f sa).record = sa.record) :
    Places phy (c.setRxSaAt i sc an f) := by
  unfold Conf.setRxSaAt
  split
  · exact h.setRxSa (.inl (hf _))
  · exact h

theorem setRxSc (h : Places phy c) {f : RxSc → RxSc}
    (hf : ∀ an q, (f (c.rxSc p)).sa an = some q → q < phy.maxSaCnt) : Places phy (c.setRxSc p f) where
  pointed {q an r} hr := by
    rw [Conf.setRxSc_rxSc] at hr
    split at hr
    · exact hf an r hr
    · exact h.pointed hr
  recorded := h.recorded

theorem setRxScAt (h : Places phy c) {f : RxSc → RxSc}
    (hf : ∀ p an q, (f (c.rxSc p)).sa an = some q → q < phy.maxSaCnt) : Places phy (c.setRxScAt i sc f) := by
  unfold Conf.setRxScAt
  split
  · exact h.setRxSc (hf _)
  · exact h

theorem linkRxSa (h : Places phy c) {o : Option Nat} (ho : ∀ q, o = some q → q < phy.maxSaCnt) :
    Places phy (c.linkRxSa i sc an o) :=
  h.setRxScAt fun p bn q hq => by
    dsimp only at hq
    rw [Function.update_apply] at hq
    split at hq
    · exact ho q hq
    · exact h.pointed hq

theorem pointRxSa (h : Places phy c) (hr : r < phy.maxSaCnt) : Places phy (c.pointRxSa i sc an r) :=
  (h.linkRxSa fun q hq => by rwa [← Option.some.inj hq]).setRxSa (.inr (.inl rfl))

/-- An entry that is set again: its own, or the first one. -/
theorem record_lt (h : Places phy c) (hsa : (c.rxSc p).sa an = some r) : (c.rxSa r).record < phy.maxSaCnt := by
  have hr := h.pointed hsa
  rcases h.recorded r with hrec | hrec
  · rwa [hrec]
  · rw [hrec]
    omega

/-- The SA moves to a new entry. -/
theorem moveRxSa (h : Places phy c) {q : Nat} (hp : (c.secy i).rxSc sc = some p) (hq : q < phy.maxSaCnt) :
    Places phy (c.moveRxSa i sc an r q) where
  pointed {p' bn t} ht := by
    have hlink : Places phy (c.linkRxSa i sc an (some q)) := h.linkRxSa fun t ht => by rwa [← Option.some.inj ht]
    refine @Places.pointed _ _ hlink p' bn t ?_
    rw [Conf.linkRxSa_eq hp]
    rwa [Conf.moveRxSa, Conf.linkRxSa_eq (by exact hp)] at ht
  recorded t := by
    rw [Conf.moveRxSa, Conf.linkRxSa_eq (by exact hp)]
    simp only [Conf.setRxSa_rxSa, Conf.setRxSc_rxSa]
    by_cases htq : t = q
    · simp [htq]
    · rw [if_neg htq, if_neg htq]
      split
      · exact .inr rfl
      · exact h.recorded t

theorem releaseBypass (h : Places phy c) (n : Nat) : Places phy (c.releaseBypass n) := by
  induction n with
  | zero => exact h
  | succ n ih =>
    simp only [Conf.releaseBypass]
    split
    · exact ih
    · exact ih.of_eq rfl rfl

end Places

/-- What an update keeps of the places. -/
theorem places_update {k : Kind} (hu : Update phy c k c') (h : Places phy c) : Places phy c' := by
  cases hu with
  | txSaRetire => exact h.of_eq (by simp [Conf.retireTxSa]) (by simp [Conf.retireTxSa])
  | txSaActivate _ => exact h.of_eq (by simp [Conf.activateTxSa]) (by simp [Conf.activateTxSa])
  | txSaDisable => exact h.of_eq (by simp [Conf.disableTxSa]) (by simp [Conf.disableTxSa])
  | rxSaAgain _ _ _ hsa => exact (h.pointRxSa (h.record_lt hsa)).setRxSa (.inl rfl)
  | rxSaTake _ _ _ _ _ hr =>
    exact ((h.pointRxSa (recordEmptyGet_spec hr).1).setRxSa (.inl rfl)).setRxSa (.inl rfl)
  | rxSaFlag => exact h.setRxSaAt fun _ => rfl
  | rxSaLowest => exact h.setRxSaAt fun _ => rfl
  | rxSaMove hp _ _ _ _ hq => exact h.moveRxSa hp (recordEmptyGet_spec hq).1
  | rxSaFree =>
    unfold Conf.freeRxSa
    exact (h.setRxSa (.inr (.inr rfl))).linkRxSa fun q hq => by cases hq
  | rxScOpen _ _ _ _ _ => exact Places.setRxSc (c := c.setSecy _ _) (h.of_eq rfl rfl) fun _ _ hq => h.pointed hq
  | rxScConf => exact h.setRxScAt fun _ _ _ => h.pointed
  | rxScFree => exact Places.of_eq (h.setRxScAt (f := fun _ => {}) fun _ _ _ hq => by cases hq) rfl rfl
  | @patternTake secy d a rule r hr =>
    unfold Conf.takePattern
    cases d with
    | egress => cases secy <;> exact h.of_eq rfl rfl
    | ingress =>
      have htake : Places phy (c.setRxSa r fun sa => { sa with record := r, inUse := true }) :=
        h.setRxSa (.inr (.inl rfl))
      cases secy <;> exact htake.of_eq rfl rfl
  | @patternFree i d a =>
    cases d with
    | egress => exact h.of_eq rfl rfl
    | ingress =>
      unfold Conf.setSaInUse
      exact h.setRxSa (.inl rfl)
  | bypassRelease => exact h.releaseBypass cpRules
  | disable =>
    refine ⟨fun {p an r} hr => ?_, fun r => ?_⟩
    · simp only [Conf.disabled, Function.update_apply] at hr
      split at hr
      · cases hr
      · exact h.pointed hr
    · simp only [Conf.disabled, Function.update_apply]
      split
      · exact .inr rfl
      · exact h.recorded r
  | _ => exact h.of_eq rfl rfl

/-- **In every reachable state, the channels point into the table.** -/
theorem places_reachable {s : Dev Conf H} (hs : Reachable hw phy s) : Places phy s.conf := by
  refine reachable_induction (I := Places phy) ⟨fun hr => ?_, fun _ => .inr rfl⟩ (fun _ _ _ => places_update) hs
  cases hr

/-! ## Channels -/

variable (phy c) in
/-- The SecYs point into the table of the channels, and no other entry has the SCI of a channel in use. -/
structure Channels : Prop where
  pointed : ∀ {i sc p}, (c.secy i).rxSc sc = some p → p < phy.maxScCnt
  valid : ∀ {p}, (c.rxSc p).inUse = true → isSciValid (c.rxSc p).sci = true
  distinct : ∀ {p q}, p < phy.maxScCnt → q < phy.maxScCnt → (c.rxSc p).inUse = true →
    (c.rxSc p).sci = (c.rxSc q).sci → p = q

variable (c c') in
/-- The entries of the channels keep their SCIs, and the SecYs their pointers to them. -/
structure SameChannels : Prop where
  inUse : ∀ p, (c'.rxSc p).inUse = (c.rxSc p).inUse
  sci : ∀ p, (c'.rxSc p).sci = (c.rxSc p).sci
  rxSc : ∀ i, (c'.secy i).rxSc = (c.secy i).rxSc

theorem SameChannels.of_eq (hsc : c'.rxSc = c.rxSc) (hsecy : ∀ i, (c'.secy i).rxSc = (c.secy i).rxSc) :
    SameChannels c c' := ⟨fun p => by rw [hsc], fun p => by rw [hsc], hsecy⟩

theorem sameChannels_setSecy {f : Secy → Secy} (hf : (f (c.secy i)).rxSc = (c.secy i).rxSc) :
    SameChannels c (c.setSecy i f) := by
  refine .of_eq rfl fun j => ?_
  rw [Conf.setSecy_secy]
  split
  · next hj => rw [hj, hf]
  · rfl

theorem sameChannels_setRxScAt {f : RxSc → RxSc} (hf : ∀ x, (f x).inUse = x.inUse ∧ (f x).sci = x.sci) :
    SameChannels c (c.setRxScAt i sc f) := by
  unfold Conf.setRxScAt
  split
  · next p hp =>
    refine ⟨fun q => ?_, fun q => ?_, fun _ => rfl⟩ <;> rw [Conf.setRxSc_rxSc] <;> split <;> simp_all
  · exact .of_eq rfl fun _ => rfl

namespace Channels

theorem of_same (h : Channels phy c) (hs : SameChannels c c') : Channels phy c' where
  pointed hp := h.pointed ((congrFun (hs.rxSc _) _).symm.trans hp)
  valid hu := by
    rw [hs.sci]
    exact h.valid (by rwa [← hs.inUse])
  distinct hp hq hu heq := by
    rw [hs.sci, hs.sci] at heq
    exact h.distinct hp hq (by rwa [← hs.inUse]) heq

theorem of_secy (h : Channels phy c) (hsc : c'.rxSc = c.rxSc) (hsecy : c'.secy = c.secy) : Channels phy c' :=
  h.of_same (.of_eq hsc fun _ => by rw [hsecy])

theorem linkRxSa (h : Channels phy c) {o : Option Nat} : Channels phy (c.linkRxSa i sc an o) :=
  h.of_same (sameChannels_setRxScAt fun _ => ⟨rfl, rfl⟩)

theorem releaseBypass (h : Channels phy c) (n : Nat) : Channels phy (c.releaseBypass n) := by
  induction n with
  | zero => exact h
  | succ n ih =>
    simp only [Conf.releaseBypass]
    split
    · exact ih
    · exact ih.of_secy rfl rfl

/-- An entry is cleared. -/
theorem clear (h : Channels phy c) : Channels phy (c.setRxSc p fun _ => {}) where
  pointed := h.pointed
  valid {q} hu := by
    rw [Conf.setRxSc_rxSc] at hu ⊢
    split at hu
    · cases hu
    · next hq =>
      rw [if_neg hq]
      exact h.valid hu
  distinct {q t} hq ht hu heq := by
    simp only [Conf.setRxSc_rxSc] at hu heq
    split at hu
    · cases hu
    · next hqp =>
      rw [if_neg hqp] at heq
      split at heq
      · have hv := h.valid hu
        rw [heq] at hv
        exact absurd hv (by decide)
      · exact h.distinct hq ht hu heq

/-- A channel that no entry has the SCI of. -/
theorem openRxSc (h : Channels phy c) {sci : Sci} (hlt : p < phy.maxScCnt) (hsci : isSciValid sci = true)
    (hnew : ∀ q < phy.maxScCnt, (c.rxSc q).sci ≠ sci) : Channels phy (c.openRxSc i sc p sci) where
  pointed {j bn q} hq := by
    simp only [Conf.openRxSc, Conf.setRxSc_secy, Conf.setSecy_secy] at hq
    split at hq
    · next hj =>
      dsimp only at hq
      rw [Function.update_apply] at hq
      split at hq
      · rwa [← Option.some.inj hq]
      · exact h.pointed hq
    · exact h.pointed hq
  valid {q} hu := by
    simp only [Conf.openRxSc, Conf.setRxSc_rxSc] at hu ⊢
    split at hu
    · next hq => rwa [if_pos hq]
    · next hq =>
      rw [if_neg hq]
      exact h.valid hu
  distinct {q t} hq ht hu heq := by
    simp only [Conf.openRxSc, Conf.setRxSc_rxSc] at hu heq
    by_cases hqp : q = p <;> by_cases htp : t = p <;> simp only [hqp, htp, if_true, if_false] at hu heq ⊢
    · exact absurd heq.symm (hnew t ht)
    · exact absurd heq (hnew q hq)
    · exact h.distinct hq ht hu heq

/-- A channel is cleared, and its SecY loses the pointer. -/
theorem freeRxSc (h : Channels phy c) : Channels phy (c.freeRxSc i sc) := by
  have hclear : Channels phy (c.setRxScAt i sc fun _ => {}) := by
    unfold Conf.setRxScAt
    split
    · exact h.clear
    · exact h
  refine ⟨fun {j bn q} hq => @hclear.pointed j bn q ?_, hclear.valid, hclear.distinct⟩
  simp only [Conf.freeRxSc, Conf.setSecy_secy] at hq
  split at hq
  · next hj =>
    dsimp only at hq
    rw [Function.update_apply] at hq
    split at hq
    · cases hq
    · rwa [hj]
  · exact hq

end Channels

/-- What an update keeps of the channels. -/
theorem channels_update {k : Kind} (hu : Update phy c k c') (h : Channels phy c) : Channels phy c' := by
  cases hu with
  | txSaAgain _ _ => exact h.of_same (.of_eq rfl fun i => Conf.linkTxSa_secy_rxSc)
  | txSaTake _ _ _ _ => exact h.of_same (.of_eq rfl fun i => Conf.linkTxSa_secy_rxSc)
  | txSaRetire => exact h.of_secy (by simp [Conf.retireTxSa]) (by simp [Conf.retireTxSa])
  | txSaActivate _ => exact (h.of_secy (Conf.setTxSaAt_rxSc _) (Conf.setTxSaAt_secy _)).of_same (sameChannels_setSecy rfl)
  | txSaDisable =>
    refine (h.of_secy (Conf.setTxSaAt_rxSc _) (Conf.setTxSaAt_secy _)).of_same (sameChannels_setSecy ?_)
    split <;> rfl
  | txSaFree => exact h.of_same (.of_eq rfl fun i => Conf.linkTxSa_secy_rxSc)
  | rxSaAgain _ _ _ _ => exact h.linkRxSa.of_secy rfl rfl
  | rxSaTake _ _ _ _ _ _ => exact h.linkRxSa.of_secy rfl rfl
  | rxSaFlag => exact h.of_secy (Conf.setRxSaAt_rxSc _) (Conf.setRxSaAt_secy _)
  | rxSaLowest => exact h.of_secy (Conf.setRxSaAt_rxSc _) (Conf.setRxSaAt_secy _)
  | @rxSaMove i sc an p r q =>
    have hset : Channels phy ((c.setRxSa q fun _ => c.rxSa (c.rxSa r).record).setRxSa (c.rxSa r).record fun _ => {}) :=
      h.of_secy rfl rfl
    exact hset.linkRxSa.of_secy rfl rfl
  | @rxSaFree i sc an =>
    have hset : Channels phy (c.setRxSa (c.rxSaAt i sc an).record fun _ => {}) := h.of_secy rfl rfl
    exact hset.linkRxSa
  | rxScOpen _ _ hlt hsci hnew => exact h.openRxSc hlt hsci hnew
  | rxScConf => exact h.of_same (sameChannels_setRxScAt fun _ => ⟨rfl, rfl⟩)
  | rxScFree => exact h.freeRxSc
  | secyOpen _ _ _ => exact (h.of_same (sameChannels_setSecy rfl)).of_same (sameChannels_setSecy rfl)
  | secySettings hf => exact h.of_same (sameChannels_setSecy (hf.rxSc _))
  | @patternTake secy d a rule r =>
    have htake : SameChannels c (c.takePattern secy d a rule r) := by
      unfold Conf.takePattern
      cases d <;> cases secy
      · exact .of_eq rfl fun _ => rfl
      · exact .of_eq rfl (sameChannels_setSecy rfl).rxSc
      · exact .of_eq rfl fun _ => rfl
      · exact .of_eq rfl (sameChannels_setSecy rfl).rxSc
    exact h.of_same htake
  | @patternFree i d a => cases d <;> exact h.of_secy rfl rfl
  | txScClear => exact h.of_same (sameChannels_setSecy rfl)
  | secyUpdate _ => exact h.of_same (sameChannels_setSecy rfl)
  | secyClear => exact h.of_same (sameChannels_setSecy rfl)
  | patternForget => exact h.of_same (sameChannels_setSecy rfl)
  | bypassRelease => exact h.releaseBypass cpRules
  | disable =>
    have hclear : Channels phy (c.setRxSc 0 fun _ => {}) := h.clear
    refine hclear.of_same (.of_eq rfl fun i => ?_)
    simp only [Conf.disabled]
    split <;> rfl
  | _ => exact h.of_secy rfl rfl

/-- **In every reachable state, no two channels have one SCI.** -/
theorem channels_reachable {s : Dev Conf H} (hs : Reachable hw phy s) : Channels phy s.conf := by
  refine reachable_induction (I := Channels phy) ⟨fun h => ?_, fun h => ?_, fun _ _ h _ => ?_⟩
    (fun _ _ _ => channels_update) hs
  all_goals cases h

/-! ## Runs -/

section Runs

variable {H : Type} {hw : Hw H} {phy : Phy} {s : Dev Conf H}

/-- **A change of speed.** When every pointer leads to an SA in use and no rule holds an entry of theirs, a change of speed,
returned or failed, brings no pointer to an SA, and leaves each SA that is still pointed to in use, with its key, salt and
SSCI. -/
theorem speedChange_carries (hs : Reachable hw phy s) (hund : Undisturbed phy s.conf) (fuel : Nat) (speed : Option Nat) :
    Carries phy s.conf (final (speedChange hw phy fuel speed) s).conf :=
  ((hauling_speedChange hund s rfl).1 (tables_reachable hs) hund.settled).2

/-- A SecY with one transmit SA. -/
theorem speedChange_carries_bench :
    let s := calls bench benchPhy (.initSet (.request true false) :: xpnRun 1) benchProbed
    Carries benchPhy s.conf (final (speedChange bench benchPhy 1 (some 1)) s).conf := by
  intro s
  have hrules : ∀ k < cpRules, s.conf.glb.egrBypassRecord k = notInUse := by decide +kernel
  have htx : ∀ i < benchPhy.maxSecyCnt, ∀ an < saPerScMax,
      ((s.conf.secy i).txSc.sa an).all (fun r => (s.conf.txSa r).inUse) = true := by decide +kernel
  have hrx : ∀ i < benchPhy.maxSecyCnt, ∀ sc < benchPhy.maxScCnt, (s.conf.secy i).rxSc sc = none := by decide +kernel
  refine speedChange_carries (reachable_calls bench benchPhy _ ()) ⟨?_, fun k hk hne => absurd (hrules k hk) hne⟩ 1 (some 1)
  rintro d r ⟨i, hi, -, -, sci, hsa⟩
  cases d with
  | egress =>
    obtain ⟨-, an, han, hr⟩ := hsa
    exact (Option.all_eq_true _ _).mp (htx i hi an han) r hr
  | ingress =>
    obtain ⟨sc, hsc, p, hp, -⟩ := hsa
    cases (hrx i hi sc hsc).symm.trans hp

end Runs

end Lan80xx.VtssMacsec
