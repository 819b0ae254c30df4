import Lan80xx.Lib.Pool
import Lan80xx.Macsec.Records

/-!
# MACsec: the reservation of receive records

`check_resources` lets a SecY or a receive channel be added only while two receive records stay free for every SecY
without a channel and for every channel without an SA. Its loop over the channels forgets the empty ones behind the
first channel with an SA (`checkResources_spec` needs `EmptyFirst`).
-/

namespace Lan80xx.Macsec

open Fallible RegBus MacsecConf Pool

variable {H : Type} {bus : PortBus H} {c c' : MacsecConf} {i sc p hw : Nat} {sci : Sci}

/-! ## What is counted -/

/-- The SecY is in use and has no receive channel. -/
def noChannel (c : MacsecConf) (i : Nat) : Bool :=
  (c.secy i).inUse && (List.range maxRxSc).all fun sc => ((c.secy i).rxSc sc).isNone

/-- The receive channel has an SA. -/
def hasSa (c : MacsecConf) (p : Nat) : Bool := !(List.range saPerScMax).all fun an => ((c.rxSc p).sa an).isNone

/-- The receive channel is in use and has no SA. -/
def noSa (c : MacsecConf) (p : Nat) : Bool := (c.rxSc p).inUse && !hasSa c p

/-- The records that two SAs for each SecY without a channel and for each channel without an SA take. -/
def reserved (c : MacsecConf) : Nat := saPerScMin * (used maxSecy (noChannel c) + used maxRxSc (noSa c))

/-- In the table of channels, those without an SA come before those with one. -/
def EmptyFirst (c : MacsecConf) : Prop :=
  ∀ q < maxRxSc, ∀ p < q, (c.rxSc p).inUse = true → (c.rxSc q).inUse = true → hasSa c p = true → hasSa c q = true

instance : Decidable (EmptyFirst c) := by
  unfold EmptyFirst
  infer_instance

/-- The loop over the channels counts all without an SA when these come first. -/
theorem EmptyFirst.count (h : EmptyFirst c) :
    (((List.range maxRxSc).filter fun p => (c.rxSc p).inUse).takeWhile fun p => !hasSa c p).length =
      used maxRxSc (noSa c) := by
  rw [takeWhile_eq_filter]
  · have hfun : noSa c = fun p => !hasSa c p && (c.rxSc p).inUse := funext fun p => Bool.and_comm _ _
    rw [List.filter_filter, used, hfun]
  · rw [List.pairwise_filter]
    refine (List.pairwise_lt_range).imp_of_mem ?_
    intro p q _ hq hlt hp hqu hsa
    cases hpsa : hasSa c p with
    | false => rfl
    | true => simp [h q (List.mem_range.mp hq) p hlt hp hqu hpsa] at hsa

/-- A request that is let through leaves two records for it, and for everything counted. -/
theorem checkResources_spec {isSc : Bool} (hord : EmptyFirst c) (hc : checkResources c isSc i = true) :
    used maxSa (c.saInUse .ingress) +
      saPerScMin * (1 + used maxSecy (fun j => noChannel c j && !(isSc && decide (i = j))) + used maxRxSc (noSa c)) ≤
        maxSa := by
  have hcount := hord.count
  simp only [hasSa, Bool.not_not] at hcount
  simp only [checkResources] at hc
  split at hc
  · cases hc
  · rw [hcount] at hc
    exact of_decide_eq_true hc

/-! ## The two calls -/

theorem noChannel_of_inUse_false (hi : (c.secy i).inUse = false) : noChannel c i = false := by
  simp [noChannel, hi]

theorem Inv.noChannel_openSecy (h : Inv c) {port : MacsecPort} {conf : SecyConf} (hi : (c.secy i).inUse = false)
    (hvalid : isSciValid { macAddr := conf.macAddr, portId := port.portId } = true) (j : Nat) :
    noChannel (MacsecConf.openSecy i c port conf) j = Function.update (noChannel c) i true j := by
  obtain ⟨-, -, hrx⟩ := h.not_inUse hi
  rw [Function.update_apply]
  by_cases hj : j = i
  · subst hj
    simp [noChannel, MacsecConf.openSecy, hvalid, hrx]
  · simp [noChannel, MacsecConf.openSecy, setSecy_secy, hj]

/-- The entry of `rx_sc` taken for a channel had no SAs, and the SecY has a channel now. -/
theorem noChannel_addRxSc (hsc : sc < maxRxSc) (j : Nat) :
    noChannel (addRxSc i c sc p hw sci) j = (noChannel c j && !decide (i = j)) := by
  have hin : ((addRxSc i c sc p hw sci).secy j).inUse = (c.secy j).inUse := addRxSc_part Secy.inUse (fun _ _ => rfl) j
  by_cases hj : j = i
  · subst hj
    have hsome :
        (List.range maxRxSc).all (fun sc' => (((addRxSc j c sc p hw sci).secy j).rxSc sc').isNone) = false := by
      rw [List.all_eq_false]
      exact ⟨sc, by simpa using hsc, by simp [addRxSc_rxScPtr]⟩
    simp [noChannel, hsome]
  · have hrx : ∀ sc', ((addRxSc i c sc p hw sci).secy j).rxSc sc' = (c.secy j).rxSc sc' := fun sc' => by
      rw [addRxSc_rxScPtr, if_neg fun h => hj h.1]
    have hij : i ≠ j := fun h => hj h.symm
    simp [noChannel, hin, hrx, hij]

theorem Inv.noSa_addRxSc (h : Inv c) (hp : (c.rxSc p).inUse = false) (q : Nat) :
    noSa (MacsecConf.addRxSc i c sc p hw sci) q = Function.update (noSa c) p true q := by
  have hsa : ∀ an, (c.rxSc p).sa an = none := fun an => by
    cases hs : (c.rxSc p).sa an with
    | none => rfl
    | some r => simp [(h.rx_place hs).2] at hp
  obtain ⟨hu, -, -, hself⟩ := addRxSc_self i sc p hw sci c
  rw [Function.update_apply]
  by_cases hq : q = p
  · subst hq
    simp [noSa, hasSa, hu, hself, hsa]
  · simp [noSa, hasSa, addRxSc_other hq, hq]

/-- A successful `secy_conf_add` has passed the check, and stores the SecY. -/
theorem steps_secyConfAdd_ok {port : MacsecPort} {conf : SecyConf} :
    Steps Frame.all (fun s => s.conf = c) ((Op.secyConfAdd conf).call bus port) fun _ s =>
      ∃ i, portVacancy c port = .ok i ∧ checkResources c false 0 = true ∧
        isSciValid { macAddr := conf.macAddr, portId := port.portId } = true ∧ s.conf = openSecy i c port conf := by
  refine Steps.failIf_bind fun _ => ?_
  refine Steps.bind (Q := fun j s => s.conf = c ∧ portVacancy c port = .ok j) ?_ fun j => Steps.imp fun hv => ?_
  · refine steps_getConf_bind (Steps.failIf_bind fun _ => ?_)
    cases hv : portVacancy c port with
    | ok j => exact Steps.pure fun s h => ⟨h, rfl⟩
    | error e => exact Steps.throw
  · refine steps_getConf_bind (Steps.failIf_bind fun hres => Steps.failIf_bind fun _ => ?_)
    refine Steps.bind (Q := fun _ s => s.conf = openSecy j c port conf) ?_ fun _ => ?_
    · exact Steps.modify fun s hs => ⟨trivial, by rw [← hs]⟩
    · refine Steps.failIf.post fun _ s hs => ?_
      exact ⟨j, hv, by simpa using hres, by simpa using hs.2, hs.1⟩

/-- A successful `rx_sc_add` has passed the check, and stores the channel. -/
theorem steps_rxScAdd_ok {port : MacsecPort} :
    Steps Frame.all (fun s => s.conf = c) ((Op.rxScAdd sci).call bus port) fun _ s =>
      ∃ i sc p hw, checkResources c true i = true ∧ rxScPlace c i = some (sc, p, hw) ∧
        s.conf = addRxSc i c sc p hw sci := by
  refine steps_portCheck.bind fun i => Steps.imp fun _ => ?_
  refine steps_getConf_bind (Steps.failIf_bind fun hres => Steps.failIf_bind fun _ => Steps.failIf_bind fun _ => ?_)
  cases hpl : rxScPlace c i with
  | none => exact Steps.throw
  | some t =>
    obtain ⟨sc, p, hw⟩ := t
    refine Steps.modify fun s hs => ⟨trivial, i, sc, p, hw, by simpa using hres, hpl, ?_⟩
    rw [← hs]

/-- The calls that ask for the reservation. -/
def Op.adds : Op → Bool
  | .secyConfAdd _ | .rxScAdd _ => true
  | _ => false

/-- Two receive SAs can be set for every SecY without a channel and for every channel without an SA. -/
def Reserves (c : MacsecConf) : Prop := CanTake maxSa (reserved c) (c.saInUse .ingress)

theorem Inv.reserves_openSecy (h : Inv c) (hord : EmptyFirst c) {port : MacsecPort} {conf : SecyConf}
    (hv : portVacancy c port = .ok i) (hres : checkResources c false 0 = true)
    (hvalid : isSciValid { macAddr := conf.macAddr, portId := port.portId } = true) :
    Reserves (MacsecConf.openSecy i c port conf) := by
  obtain ⟨hlt, hi⟩ := portVacancy_ok hv
  have hfit := checkResources_spec hord hres
  have hsecy : used maxSecy (noChannel (MacsecConf.openSecy i c port conf)) = used maxSecy (noChannel c) + 1 := by
    rw [used_congr fun j _ => h.noChannel_openSecy hi hvalid j]
    exact used_update hlt (noChannel_of_inUse_false hi)
  have hsame : used maxSecy (fun j => noChannel c j && !(false && decide (0 = j))) = used maxSecy (noChannel c) :=
    used_congr fun j _ => by simp
  rw [hsame] at hfit
  apply canTake_iff.mpr
  change used maxSa (c.saInUse .ingress) + saPerScMin * (_ + used maxRxSc (noSa c)) ≤ maxSa
  rw [hsecy, Nat.add_comm (used maxSecy _) 1]
  exact hfit

theorem Inv.reserves_addRxSc (h : Inv c) (hord : EmptyFirst c) (hres : checkResources c true i = true)
    (hpl : rxScPlace c i = some (sc, p, hw)) : Reserves (MacsecConf.addRxSc i c sc p hw sci) := by
  obtain ⟨⟨hsc, -⟩, ⟨hp, hfree⟩, -⟩ := rxScPlace_spec hpl
  have hfit := checkResources_spec hord hres
  have hsecy : used maxSecy (noChannel (MacsecConf.addRxSc i c sc p hw sci)) =
      used maxSecy (fun j => noChannel c j && !(true && decide (i = j))) :=
    used_congr fun j _ => by simp [noChannel_addRxSc hsc]
  have hsc : used maxRxSc (noSa (MacsecConf.addRxSc i c sc p hw sci)) = used maxRxSc (noSa c) + 1 := by
    rw [used_congr fun q _ => h.noSa_addRxSc hfree q]
    exact used_update hp (by simp [noSa, hfree])
  apply canTake_iff.mpr
  change used maxSa (c.saInUse .ingress) + saPerScMin * (_ + _) ≤ maxSa
  rw [hsecy, hsc]
  simp only [saPerScMin, maxSa] at hfit ⊢
  omega

/-- After every successful add in a table with its empty channels first, two receive SAs can be set for each SecY
without a channel and for each channel without an SA. -/
theorem add_reserves (s : Dev MacsecConf H) (hs : Reachable bus s) (port : MacsecPort) (op : Op) (hadd : op.adds = true)
    (hord : EmptyFirst s.conf) (hok : errorOf (op.call bus port) s = none) :
    Reserves (final (op.call bus port) s).conf := by
  have h := reachable_inv hs
  cases op with
  | secyConfAdd conf =>
    obtain ⟨i, hv, hres, hvalid, hc⟩ := steps_secyConfAdd_ok.ok rfl (ok_final hok)
    rw [hc]
    exact h.reserves_openSecy hord hv hres hvalid
  | rxScAdd sci =>
    obtain ⟨i, sc, p, hw, hres, hpl, hc⟩ := steps_rxScAdd_ok.ok rfl (ok_final hok)
    rw [hc]
    exact h.reserves_addRxSc hord hres hpl
  | _ => cases hadd

/-! ### A port with 64 receive channels -/

/-- The SAs of a channel. -/
def saCount (sa : Nat → Option Nat) : Nat := used saPerScMax fun an => (sa an).isSome

/-- The receive SAs missing to the guaranteed two of every receive channel in use. -/
def rxMissing (c : MacsecConf) : Nat :=
  (List.range maxRxSc).foldl (fun n p => n + if (c.rxSc p).inUse then saPerScMin - saCount (c.rxSc p).sa else 0) 0

/-- The transmit SAs missing to the guaranteed two of every SecY in use. -/
def txMissing (c : MacsecConf) : Nat :=
  (List.range maxSecy).foldl (fun n i => n + if (c.secy i).inUse then saPerScMin - saCount (c.secy i).txSc.sa else 0) 0

/-- Every SecY and every receive channel in use can be given two SAs. -/
def Guaranteed (c : MacsecConf) : Prop :=
  CanTake maxSa (rxMissing c) (c.saInUse .ingress) ∧ CanTake maxSa (txMissing c) (c.saInUse .egress)

def benchPeer (k : Nat) : Sci := { macAddr := ⟨#[2, 0, 0, 0, 0, 9], rfl⟩, portId := k }

def benchRxSa (k an : Nat) : MacsecPort × Op := (benchPort 1, .rxSaSet (benchPeer k) an 1 {} none)

/-- A SecY with one receive channel that has `n` SAs. -/
def firstChannel (n : Nat) : List (MacsecPort × Op) :=
  [(benchPort 1, .secyConfAdd benchSecy), (benchPort 1, .rxScAdd (benchPeer 0))] ++ (List.range n).map (benchRxSa 0)

/-- One channel with four SAs, and 62 channels with one. -/
def singleSas : List (MacsecPort × Op) :=
  firstChannel 4 ++ (List.range 62).flatMap fun k =>
    [(benchPort 1, .rxScAdd (benchPeer (k + 1))), benchRxSa (k + 1) 0]

/-- Another channel. -/
abbrev benchAdd (k : Nat) : Call (IoReg → BitVec 32) Unit := (Op.rxScAdd (benchPeer k)).call bench.toBus (benchPort 1)

abbrev benchRun (ops : List (MacsecPort × Op)) : Dev MacsecConf (IoReg → BitVec 32) := calls bench.toBus ops benchInit

/-- A second channel fits; after the 64th, 66 records are in use and 64 missing. -/
theorem bench_adds :
    (EmptyFirst (benchRun (firstChannel 1)).conf ∧ errorOf (benchAdd 1) (benchRun (firstChannel 1)) = none) ∧
    EmptyFirst (benchRun singleSas).conf ∧ errorOf (benchAdd 63) (benchRun singleSas) = none ∧
      maxSa < used maxSa ((final (benchAdd 63) (benchRun singleSas)).conf.saInUse .ingress) +
        rxMissing (final (benchAdd 63) (benchRun singleSas)).conf := by
  decide +kernel

theorem add_reserves_second : Reserves (final (benchAdd 1) (benchRun (firstChannel 1))).conf := by
  obtain ⟨⟨hord, hok⟩, -⟩ := bench_adds
  exact add_reserves _ (reachable_bench (firstChannel 1)) (benchPort 1) (.rxScAdd (benchPeer 1)) rfl hord hok

/-- With 64 channels, of which one has four SAs and 62 have one, the records do not suffice for two SAs each, although
no channel without an SA stood behind one with. -/
theorem not_guaranteed : EmptyFirst (benchRun singleSas).conf ∧
    ¬∀ s, Reachable bench.toBus s → ∀ (port : MacsecPort) (op : Op), op.adds = true →
      errorOf (op.call bench.toBus port) s = none → Guaranteed (final (op.call bench.toBus port) s).conf := by
  obtain ⟨-, hord, hok, hfull⟩ := bench_adds
  refine ⟨hord, fun h => ?_⟩
  have hall : Guaranteed (final (benchAdd 63) (benchRun singleSas)).conf :=
    h (benchRun singleSas) (reachable_bench singleSas) (benchPort 1) (.rxScAdd (benchPeer 63)) rfl hok
  have hfit := canTake_iff.mp hall.1
  omega

end Lan80xx.Macsec
