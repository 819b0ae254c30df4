import Lan80xx.Lib.Pool
import Lan80xx.VtssMacsec.Device

/-!
# MACsec of the VTSS PHYs: the reservation of receive records

`check_resources` is to let a SecY or a receive channel be added only while two receive records stay free for every SecY
without a channel and for every channel without an SA. `found_sa` is set by the first channel with an SA and not reset for
the next one, so the empty channels behind that one are not counted.

- `Reserves`: the records reserved can be taken one after the other;
- `EmptyFirst.count`, `checkResources_spec`: what is counted when the channels without an SA come first;
- `reserves_openSecy`, `reserves_openRxSc`: the two calls;
- `reserved_after_adds`: the runs.
-/

namespace Lan80xx.VtssMacsec

open Fallible RegBus Pool
open Macsec (MacsecPort Sci SecyConf saPerScMax saPerScMin)

variable {H : Type} {hw : Hw H} {phy : Phy} {c c' : Conf} {i sc p : Nat} {sci : Sci}

/-! ## What is counted -/

variable (phy c) in
/-- The SecY is in use and has no receive channel. -/
def noChannel (i : Nat) : Bool :=
  (c.secy i).inUse && (List.range phy.maxScCnt).all fun sc => ((c.secy i).rxSc sc).isNone

variable (c) in
/-- The receive channel has an SA. -/
def hasSa (p : Nat) : Bool := !(List.range saPerScMax).all fun an => ((c.rxSc p).sa an).isNone

variable (c) in
/-- The receive channel is in use and has no SA. -/
def noSa (p : Nat) : Bool := (c.rxSc p).inUse && !hasSa c p

variable (phy c) in
/-- Two records for each SecY without a channel and for each channel without an SA. -/
def reserved : Nat := saPerScMin * (used phy.maxSecyCnt (noChannel phy c) + used phy.maxScCnt (noSa c))

variable (phy c) in
/-- Two receive SAs can be set for every SecY without a channel and for every channel without an SA. -/
def Reserves : Prop := CanTake phy.maxSaCnt (reserved phy c) (c.saInUse .ingress)

variable (phy c) in
/-- In the table of channels, those without an SA come before those with one. -/
def EmptyFirst : Prop :=
  ∀ q < phy.maxScCnt, ∀ p < q, (c.rxSc p).inUse = true → (c.rxSc q).inUse = true → hasSa c p = true → hasSa c q = true

instance : Decidable (EmptyFirst phy c) := by
  unfold EmptyFirst
  infer_instance

/-- The loop over the channels counts all without an SA when these come first. -/
theorem EmptyFirst.count (h : EmptyFirst phy c) :
    (((List.range phy.maxScCnt).filter fun p => (c.rxSc p).inUse).takeWhile fun p => !hasSa c p).length =
      used phy.maxScCnt (noSa c) := by
  rw [takeWhile_eq_filter]
  · have hfun : noSa c = fun p => !hasSa c p && (c.rxSc p).inUse := funext fun p => Bool.and_comm _ _
    rw [List.filter_filter, used, hfun]
  · rw [List.pairwise_filter]
    refine List.pairwise_lt_range.imp_of_mem ?_
    intro p q _ hq hlt hp hqu hsa
    cases hpsa : hasSa c p with
    | false => rfl
    | true => simp [h q (List.mem_range.mp hq) p hlt hp hqu hpsa] at hsa

/-- A request that is let through leaves two records for it, and for everything counted. -/
theorem checkResources_spec {isSc : Bool} (hord : EmptyFirst phy c) (hc : checkResources phy c isSc i = true) :
    used phy.maxSaCnt (c.saInUse .ingress) + saPerScMin *
      (1 + used phy.maxSecyCnt (fun j => noChannel phy c j && !(isSc && decide (i = j))) + used phy.maxScCnt (noSa c)) ≤
        phy.maxSaCnt := by
  have hcount := hord.count
  simp only [hasSa, Bool.not_not] at hcount
  simp only [checkResources] at hc
  split at hc
  · cases hc
  · rw [hcount] at hc
    exact of_decide_eq_true hc

/-! ## The two calls -/

/-- A SecY more, which may have no channel. -/
theorem reserves_openSecy (hord : EmptyFirst phy c) (hres : checkResources phy c false 0 = true) {f : Secy → Secy} :
    Reserves phy (c.setSecy i f) := by
  have hfit := checkResources_spec hord hres
  have hsame : used phy.maxSecyCnt (fun j => noChannel phy c j && !(false && decide (0 = j))) =
      used phy.maxSecyCnt (noChannel phy c) := used_congr fun j _ => by simp
  rw [hsame] at hfit
  have hsecy : used phy.maxSecyCnt (noChannel phy (c.setSecy i f)) ≤ used phy.maxSecyCnt (noChannel phy c) + 1 := by
    refine used_le_succ (r := i) fun j _ hj hno => ?_
    rwa [noChannel, Conf.setSecy_secy, if_neg hj] at hno
  apply canTake_iff.mpr
  change used phy.maxSaCnt (c.saInUse .ingress) + saPerScMin * (_ + used phy.maxScCnt (noSa c)) ≤ phy.maxSaCnt
  simp only [saPerScMin] at hfit ⊢
  omega

/-- The SecY has a channel now, which may have no SA. -/
theorem reserves_openRxSc (hord : EmptyFirst phy c) (hres : checkResources phy c true i = true) (hsc : sc < phy.maxScCnt) :
    Reserves phy (c.openRxSc i sc p sci) := by
  have hfit := checkResources_spec hord hres
  have hsecy : used phy.maxSecyCnt (noChannel phy (c.openRxSc i sc p sci)) =
      used phy.maxSecyCnt (fun j => noChannel phy c j && !(true && decide (i = j))) := by
    refine used_congr fun j _ => ?_
    by_cases hj : j = i
    · subst hj
      have hsome : (List.range phy.maxScCnt).all (fun k => (((c.openRxSc j sc p sci).secy j).rxSc k).isNone) = false := by
        rw [List.all_eq_false]
        exact ⟨sc, by simpa using hsc, by simp [Conf.openRxSc]⟩
      simp [noChannel, hsome]
    · have hij : i ≠ j := fun h => hj h.symm
      simp [noChannel, Conf.openRxSc, Conf.setSecy_secy, hj, hij]
  have hchannels : used phy.maxScCnt (noSa (c.openRxSc i sc p sci)) ≤ used phy.maxScCnt (noSa c) + 1 := by
    refine used_le_succ (r := p) fun q _ hq hno => ?_
    simpa [noSa, hasSa, Conf.openRxSc, Conf.setRxSc_rxSc, hq] using hno
  apply canTake_iff.mpr
  change used phy.maxSaCnt (c.saInUse .ingress) + saPerScMin * (_ + _) ≤ phy.maxSaCnt
  rw [hsecy]
  simp only [saPerScMin] at hfit ⊢
  omega

/-- A successful `secy_conf_add` has passed the check. -/
theorem steps_secyConfAdd_reserves {port : MacsecPort} {conf : SecyConf} (hord : EmptyFirst phy c) :
    Steps Frame.all (fun s => s.conf = c) (secyConfAdd phy port conf : Call H Unit) fun _ s => Reserves phy s.conf := by
  refine Steps.failIf_bind fun _ => steps_getConf_bind (Steps.failIf_bind fun _ => ?_)
  cases c.portVacancy phy port with
  | none => exact Steps.throw
  | some i =>
    refine Steps.failIf_bind fun _ => Steps.failIf_bind fun hres => Steps.failIf_bind fun _ => ?_
    refine Steps.bind (Q := fun _ s => Reserves phy s.conf) (Steps.modify fun s hs => ⟨trivial, ?_⟩) fun _ =>
      Steps.failIf.post fun _ _ h => h.1
    simp only [hs, Conf.openSecy, Conf.setSecy_setSecy]
    exact reserves_openSecy hord (by simpa using hres)

/-- So has a successful `rx_sc_add`. -/
theorem steps_rxScAdd_reserves (hord : EmptyFirst phy c) :
    Steps Frame.all (fun s => s.conf = c) (rxScAdd phy i sci : Call H Unit) fun _ s => Reserves phy s.conf := by
  refine steps_getConf_bind (Steps.failIf_bind fun hres => Steps.failIf_bind fun _ => Steps.failIf_bind fun _ => ?_)
  split
  · next sc p hsc _ =>
    refine Steps.modify fun s hs => ⟨trivial, ?_⟩
    simp only [hs]
    exact reserves_openRxSc hord (by simpa using hres) (List.mem_range.mp (List.mem_of_find?_eq_some hsc))
  · exact Steps.throw

/-! ## Runs -/

/-- The calls that ask for the reservation. -/
def Op.adds : Op → Bool
  | .secyConfAdd .. | .rxScAdd .. => true
  | _ => false

theorem reserves_op {s : Dev Conf H} {op : Op} (hadd : op.adds = true) (hord : EmptyFirst phy s.conf)
    (hok : errorOf (op.call hw phy) s = none) : Reserves phy (final (op.call hw phy) s).conf := by
  cases op with
  | secyConfAdd port conf => exact (steps_secyConfAdd_reserves hord).ok rfl (ok_final hok)
  | rxScAdd port sci =>
    have hport : Steps Frame.all (fun t => t.conf = s.conf) (portCheck phy port : Call H Nat)
        fun _ t => t.conf = s.conf := by
      refine steps_getConf_bind (Steps.failIf_bind fun _ => ?_)
      cases s.conf.portFind phy port with
      | none => exact Steps.throw
      | some i => exact Steps.pure fun _ h => h
    exact (hport.bind fun i => steps_rxScAdd_reserves hord).ok rfl (ok_final hok)
  | _ => cases hadd

variable (hw phy) in
/-- **Reservation.** After every run that ends in a successful add, made while no channel without an SA stood behind one
with an SA, two receive SAs can be set for each SecY without a channel and for each channel without an SA. -/
theorem reserved_after_adds (ops : List Op) (op : Op) (h : H) (hadd : op.adds = true)
    (hord : EmptyFirst phy (calls hw phy ops { conf := {}, hw := h }).conf)
    (hok : errorOf (op.call hw phy) (calls hw phy ops { conf := {}, hw := h }) = none) :
    Reserves phy (calls hw phy (ops ++ [op]) { conf := {}, hw := h }).conf := by
  rw [calls, List.foldl_append]
  exact reserves_op hadd hord hok

/-! ### A port with 16 records -/

def benchPeer (k : Nat) : Sci := { macAddr := Vector.replicate 6 2#8, portId := k }

/-- A SecY whose first channel has `n` SAs, and `k` channels without one. -/
def peersRun (n k : Nat) : List Op :=
  [Op.initSet (.request true false), Op.secyConfAdd (benchPort 1) benchSecy, Op.rxScAdd (benchPort 1) (benchPeer 0)] ++
    (List.range n).map (fun an => Op.rxSaSet (benchPort 1) (benchPeer 0) an 1 {} none) ++
    (List.range k).map fun j => Op.rxScAdd (benchPort 1) (benchPeer (j + 1))

/-- The next channel. -/
def peerAdd (k : Nat) : Op := .rxScAdd (benchPort 1) (benchPeer (k + 1))

/-- A second channel fits; with four SAs in the first one, the eighth is let through too. -/
theorem peer_adds :
    (EmptyFirst benchPhy (calls bench benchPhy (peersRun 1 0) benchProbed).conf ∧
      errorOf ((peerAdd 0).call bench benchPhy) (calls bench benchPhy (peersRun 1 0) benchProbed) = none) ∧
    errorOf ((peerAdd 6).call bench benchPhy) (calls bench benchPhy (peersRun 4 6) benchProbed) = none ∧
      benchPhy.maxSaCnt <
        used benchPhy.maxSaCnt ((calls bench benchPhy (peersRun 4 6 ++ [peerAdd 6]) benchProbed).conf.saInUse .ingress) +
          reserved benchPhy (calls bench benchPhy (peersRun 4 6 ++ [peerAdd 6]) benchProbed).conf := by
  decide +kernel

theorem reserved_after_adds_second :
    Reserves benchPhy (calls bench benchPhy (peersRun 1 0 ++ [peerAdd 0]) benchProbed).conf :=
  reserved_after_adds bench benchPhy (peersRun 1 0) (peerAdd 0) () rfl peer_adds.1.1 peer_adds.1.2

/-- Seven channels without an SA behind one with four: eighteen records are needed, and there are sixteen. -/
theorem not_reserved_after_adds : ∃ ops op, Op.adds op = true ∧
    errorOf (op.call bench benchPhy) (calls bench benchPhy ops benchProbed) = none ∧
    ¬Reserves benchPhy (calls bench benchPhy (ops ++ [op]) benchProbed).conf := by
  refine ⟨peersRun 4 6, peerAdd 6, rfl, peer_adds.2.1, fun h => ?_⟩
  have hfit := canTake_iff.mp h
  exact absurd peer_adds.2.2 (Nat.not_lt.mpr hfit)

end Lan80xx.VtssMacsec
