import Lan80xx.Macsec.Records
import Lan80xx.Lib.Directory

/-!
# MACsec: the SecY of a port

`port_check` looks for a port's SecY and for a vacant slot in one scan, and stops at whichever comes first. So it finds
the SecY that a new one would duplicate only when no slot below it is free (`Careful`). In a run whose additions are
all careful, no port has two SecYs, and the lookup is a directory that an addition and a deletion change at their own
port only.
-/

namespace Lan80xx.Macsec

open Fallible RegBus MacsecConf Directory

variable {H : Type} {bus : PortBus H} {i j : Nat} {c c' : MacsecConf} {port : MacsecPort}

/-! ## Ports -/

/-- What identifies the SecY of a port. -/
def MacsecPort.key (port : MacsecPort) : Nat × Nat := (port.serviceId, port.portId)

/-- The port that a SecY is held for. -/
def Secy.heldFor (s : Secy) : Option (Nat × Nat) := if s.inUse = true then some (s.serviceId, s.sci.portId) else none

/-- The slots of the SecYs as a directory. -/
def MacsecConf.ports (c : MacsecConf) (i : Nat) : Option (Nat × Nat) := (c.secy i).heldFor

theorem ports_eq_some : c.ports i = some port.key ↔ (c.secy i).hasPort port = true := by
  simp only [MacsecConf.ports, Secy.heldFor, MacsecPort.key, Secy.hasPort, Option.ite_none_right_eq_some, Option.some.injEq,
    Prod.mk.injEq, Bool.and_eq_true, decide_eq_true_eq]
  tauto

theorem ports_eq_none : c.ports i = none ↔ (c.secy i).inUse = false := by
  simp [MacsecConf.ports, Secy.heldFor]

/-- The lookup is the scan of the directory. -/
theorem portFind_eq (c : MacsecConf) (port : MacsecPort) : portFind c port = lookup maxSecy c.ports port.key := by
  unfold portFind lookup
  congr 1
  funext i
  rw [Bool.eq_iff_iff, ← ports_eq_some, decide_eq_true_eq]

/-- The scan for a vacancy ends at the first slot that is the port's or is free. -/
theorem portVacancyFrom_eq (c : MacsecConf) (port : MacsecPort) : ∀ is, portVacancyFrom c port is =
    match is.find? fun i => (c.secy i).hasPort port || !(c.secy i).inUse with
    | none => .error .noSecyVacancy
    | some i => if (c.secy i).hasPort port = true then .error .secyAlreadyInUse else .ok i
  | [] => rfl
  | i :: is => by
    rw [portVacancyFrom, portVacancyFrom_eq c port is, List.find?_cons]
    cases hp : (c.secy i).hasPort port <;> cases hu : (c.secy i).inUse <;> simp [hp]

/-- The vacancy found is free, and the slots below it belong to other ports. -/
theorem portVacancy_spec (h : portVacancy c port = .ok i) :
    i < maxSecy ∧ c.ports i = none ∧ ∀ j < i, (c.secy j).inUse = true ∧ c.ports j ≠ some port.key := by
  obtain ⟨hlt, hu⟩ := portVacancy_ok h
  refine ⟨hlt, ports_eq_none.mpr hu, fun j hj => ?_⟩
  unfold portVacancy at h
  rw [portVacancyFrom_eq] at h
  split at h
  · cases h
  · next k hk =>
    split at h
    · cases h
    · cases h
      have hbelow := (List.find?_range_eq_some.mp hk).2.2 j hj
      simp only [Bool.not_or, Bool.not_not, Bool.and_eq_true, Bool.not_eq_true'] at hbelow
      refine ⟨hbelow.2, fun hp => ?_⟩
      rw [ports_eq_some, hbelow.1] at hp
      cases hp

/-! ## Updates -/

/-- A SecY keeps its port, except when it is opened or closed. -/
theorem Commit.ports {k : Kind} (hc : Commit i c k c') (ho : k ≠ .opens) :
    c'.ports = c.ports ∨ (k = .closes ∧ c'.ports = Function.update c.ports i none) := by
  suffices h : (∀ j, (c'.secy j).heldFor = (c.secy j).heldFor) ∨
      (k = .closes ∧ c'.ports = Function.update c.ports i none) from h.imp_left funext
  cases hc with
  | openSecy port conf hv => exact absurd rfl ho
  | settings f hf _ =>
    refine Or.inl (setSecy_part Secy.heldFor ?_)
    simp only [Secy.heldFor, hf.inUse, hf.serviceId, hf.portId]
  | clearSecy _ htx hrx hpat =>
    refine Or.inr ⟨rfl, ?_⟩
    funext j
    rw [Function.update_apply]
    simp only [MacsecConf.ports, MacsecConf.clearSecy, setSecy_secy]
    split <;> rfl
  | openTxSc hi => exact Or.inl (setSecy_part Secy.heldFor rfl)
  | clearTxSc _ hsa => exact Or.inl (setSecy_part Secy.heldFor rfl)
  | linkTxSa an r nextPn b sak ssci han hu hsa hr => exact Or.inl (linkTxSa_part Secy.heldFor fun _ _ => rfl)
  | activateTxSa an b han hsa _ =>
    refine Or.inl fun j => ?_
    rw [MacsecConf.activateTxSa, setSecy_part Secy.heldFor rfl, setTxSaAt_secy]
    split
    · rw [setTxSaAt_secy]
    · rfl
  | disableTxSa an _ _ =>
    refine Or.inl fun j => ?_
    rw [MacsecConf.disableTxSa, setTxSaAt_secy]
    exact setSecy_part Secy.heldFor rfl j
  | freeTxSa an r hsa => exact Or.inl (setSecy_part Secy.heldFor rfl)
  | addRxSc sc p hw sci hi hp hsci => exact Or.inl (addRxSc_part Secy.heldFor fun _ _ => rfl)
  | updateRxScConf sc p conf hp => exact Or.inl fun j => by rw [updateRxScConf_secy]
  | freeRxSc sc p hp hsa =>
    rw [freeRxSc_eq hp]
    exact Or.inl (setSecy_part Secy.heldFor rfl)
  | linkRxSa sc p an r lowestPn sak ssci hp han hsa hr => exact Or.inl fun j => by rw [linkRxSa_secy]
  | flagRxSa sc p an b hp => exact Or.inl fun j => by rw [flagRxSa_secy]
  | freeRxSa sc p an r hp hsa => exact Or.inl fun j => by rw [freeRxSa_secy]
  | linkPattern a d r hi hpat hr => exact Or.inl (linkPattern_part Secy.heldFor fun _ _ => rfl)
  | freePattern a d hi hpat => exact Or.inl (freePattern_part Secy.heldFor fun _ _ _ => rfl)

theorem ports_of_trace {sp : Scope} {s s' : Dev MacsecConf H} (ht : Relation.ReflTransGen (Micro bus sp i) s s')
    (ho : .opens ∉ sp.kinds) : s'.conf.ports = s.conf.ports ∨
      (.closes ∈ sp.kinds ∧ s'.conf.ports = Function.update s.conf.ports i none) := by
  induction ht with
  | refl => exact Or.inl rfl
  | tail ht hm ih =>
    cases hm with
    | hw _ => exact ih
    | zero record _ => exact final_saInuse_conf.symm ▸ ih
    | @sw c c' h k hc hk =>
      rcases hc.ports (by rintro rfl; exact ho hk) with he | ⟨rfl, he⟩
      · rw [he]
        exact ih
      · refine Or.inr ⟨hk, ?_⟩
        rcases ih with ih | ⟨-, ih⟩
        · rw [he, ih]
        · rw [he, ih, Function.update_idem]

/-! ## Calls -/

/-- Adding a SecY opens the vacancy found, which stays free when the SCI is not valid. -/
theorem ends_secyConfAddPriv (conf : SecyConf) :
    Ends (fun s => s.conf = c) (secyConfAddPriv port conf : Call H Unit)
      (fun _ s => ∃ i, portVacancy c port = .ok i ∧ s.conf = openSecy i c port conf ∧
        isSciValid { macAddr := conf.macAddr, portId := port.portId } = true)
      fun s => s.conf = c ∨ ∃ i, portVacancy c port = .ok i ∧ s.conf = openSecy i c port conf ∧
        isSciValid { macAddr := conf.macAddr, portId := port.portId } = false := by
  refine Ends.failIf_bind (fun s hs _ => Or.inl hs) fun _ => ?_
  refine Ends.bind (Q := fun i s => s.conf = c ∧ portVacancy c port = .ok i) ?_ fun i => ?_
  · refine ends_getConf_bind (fun _ => id) (Ends.failIf_bind (fun s hs _ => Or.inl hs) fun _ => ?_)
    cases hv : portVacancy c port with
    | ok i => exact Ends.pure fun s hs => ⟨hs, rfl⟩
    | error e => exact Ends.throw fun s hs => Or.inl hs
  · rintro s ⟨hs, hv⟩
    refine ends_getConf_bind (c := c) (fun _ => id) ?_ s hs
    refine Ends.failIf_bind (fun s hs _ => Or.inl hs) fun _ => Ends.failIf_bind (fun s hs _ => Or.inl hs) fun _ => ?_
    refine Ends.bind (Q := fun _ s => s.conf = openSecy i c port conf) (Ends.modify fun s hs => by rw [hs]) fun _ => ?_
    refine (Ends.failIf fun s hs hsci => Or.inr ⟨i, hv, hs, hsci⟩).weaken (fun _ s hs => ?_) fun _ => id
    exact ⟨i, hv, hs.1, Bool.not_eq_false _ ▸ hs.2⟩

/-- What a call does to the directory: an addition and a deletion change it at their own port, unless they fail first. -/
def Op.Directs (op : Op) (port : MacsecPort) (c : MacsecConf) (ok : Prop) (c' : MacsecConf) : Prop :=
  let dir := lookup maxSecy c.ports
  let dir' := lookup maxSecy c'.ports
  match op with
  | .secyConfAdd _ => (¬ok ∧ dir' = dir) ∨
    (dir port.key = none ∧ ∃ i, op.slot c port = some i ∧ dir' = Function.update dir port.key (some i))
  | .secyConfDel => (¬ok ∧ dir' = dir) ∨ (dir port.key ≠ none ∧ dir' = Function.update dir port.key none)
  | _ => dir' = dir

/-- A SecY is not added for a port that has one, except where the scan sees it: every slot below it is in use. -/
def Careful (op : Op) (port : MacsecPort) (c : MacsecConf) : Prop :=
  match op with
  | .secyConfAdd _ => ∀ i, (c.secy i).hasPort port = true → ∀ j < i, (c.secy j).inUse = true
  | _ => True

theorem ports_openSecy {conf : SecyConf} : (openSecy i c port conf).ports =
    Function.update c.ports i
      (if isSciValid { macAddr := conf.macAddr, portId := port.portId } = true then some port.key else none) := by
  funext j
  rw [Function.update_apply]
  simp only [MacsecConf.ports, MacsecConf.openSecy, setSecy_secy]
  split <;> rfl

theorem SameSecy.ports (h : SameSecy c c' j) : c'.ports j = c.ports j := by
  rw [MacsecConf.ports, h.secy, MacsecConf.ports]

theorem Op.not_opens {op : Op} (h : ∀ conf, op ≠ .secyConfAdd conf) : .opens ∉ op.kinds c i := by
  cases op with
  | secyConfAdd conf => exact absurd rfl (h conf)
  | _ => simp [Op.kinds]

theorem Op.closes {op : Op} (h : .closes ∈ op.kinds c i) : op = .secyConfDel := by
  cases op with
  | secyConfDel => rfl
  | _ => simp [Op.kinds] at h

/-- A call other than an addition changes no port, except that a deletion frees the slot it is addressed to. -/
theorem ports_call {s : Dev MacsecConf H} (h : Inv s.conf) {op : Op} (ho : ∀ conf, op ≠ .secyConfAdd conf) :
    (final (op.call bus port) s).conf.ports = s.conf.ports ∨
    (op = .secyConfDel ∧ ∃ i, portFind s.conf port = some i ∧
      (final (op.call bus port) s).conf.ports = Function.update s.conf.ports i none) := by
  cases hs : op.slot s.conf port with
  | none =>
    refine Or.inl (funext fun j => (sameSecy_call h ?_).ports)
    rw [hs]
    exact Option.some_ne_none _ |>.symm
  | some i =>
    have hi : ∀ j, op.slot s.conf port = some j → j = i := fun j hj => by
      rw [hs] at hj
      exact (Option.some.inj hj).symm
    refine (ports_of_trace (trace_call h hi) (Op.not_opens ho)).imp_right fun ⟨hcl, he⟩ => ?_
    obtain rfl := Op.closes hcl
    exact ⟨rfl, i, hs, he⟩

/-- A deletion that succeeds leaves its slot free. -/
theorem secyConfDel_ok {s : Dev MacsecConf H} (h : Inv s.conf) (hi : portFind s.conf port = some i)
    (hok : errorOf (Op.secyConfDel.call bus port) s = none) :
    ((final (Op.secyConfDel.call bus port) s).conf.secy i).inUse = false := by
  have hst : Steps (trace bus (Op.secyConfDel.scope i s.conf) i) (fun t => t.conf = s.conf)
      (Op.secyConfDel.call bus port) fun _ t => (t.conf.secy i).inUse = false := by
    refine steps_portCheck_bind (fun j hj => by rw [hi] at hj; exact (Option.some.inj hj).symm) fun _ hu => ?_
    refine steps_secyConfDel_trace h (h.fits_scope _) hu ?_ ?_ (fun a d hne => ⟨a, hne⟩) ?_ ?_ <;>
      simp [Op.scope, Op.kinds]
  cases hr : Op.secyConfDel.call bus port s with
  | ok a t => simpa [final, hr] using (hst s rfl).2 a t hr
  | error e t => simp [errorOf, hr] at hok

theorem portFind_of_ok {s : Dev MacsecConf H} (hok : errorOf (Op.secyConfDel.call bus port) s = none) :
    ∃ i, portFind s.conf port = some i := by
  cases hi : portFind s.conf port with
  | some i => exact ⟨i, rfl⟩
  | none =>
    have hend : Ends (fun t : Dev MacsecConf H => t.conf = s.conf) (Op.secyConfDel.call bus port) (fun _ _ => False)
        fun _ => True := by
      refine Ends.bind (Q := fun _ _ => False) ?_ fun _ _ => False.elim
      refine ends_getConf_bind (fun _ => id) (Ends.failIf_bind (fun _ _ _ => trivial) fun _ => ?_)
      rw [hi]
      exact Ends.throw fun _ _ => trivial
    rcases hend.final rfl with ⟨-, -, hf⟩ | ⟨herr, -⟩
    · exact hf.elim
    · exact absurd hok herr

/-- A careful call keeps the ports apart, and changes the directory at its own port only. -/
theorem directs_call {s : Dev MacsecConf H} (h : Inv s.conf) (hd : Distinct maxSecy s.conf.ports) {op : Op}
    (hc : Careful op port s.conf) :
    Distinct maxSecy (final (op.call bus port) s).conf.ports ∧
      op.Directs port s.conf (errorOf (op.call bus port) s = none) (final (op.call bus port) s).conf := by
  by_cases hadd : ∃ conf, op = .secyConfAdd conf
  · obtain ⟨conf, rfl⟩ := hadd
    have hend : Ends (fun t => t.conf = s.conf) (secyConfAddPriv port conf : Call H Unit) _ _ := ends_secyConfAddPriv conf
    rcases hend.final (s := s) rfl with
      ⟨-, -, i, hv, hconf, hsci⟩ | ⟨hok, hconf | ⟨i, hv, hconf, hsci⟩⟩
    · obtain ⟨hlt, hfree, hbelow⟩ := portVacancy_spec hv
      have hnew : ∀ j, s.conf.ports j ≠ some port.key := fun j hj => by
        rcases Nat.lt_trichotomy j i with hji | rfl | hij
        · exact (hbelow j hji).2 hj
        · rw [hfree] at hj
          cases hj
        · have hu := hc j (ports_eq_some.mp hj) i hij
          rw [ports_eq_none.mp hfree] at hu
          cases hu
      simp only [Op.call, Op.Directs, hconf, ports_openSecy, if_pos hsci]
      refine ⟨hd.insert hlt hnew, Or.inr ⟨?_, i, by simp [Op.slot, hv, Except.toOption],
        hd.lookup_insert hlt hfree hnew⟩⟩
      exact Option.eq_none_iff_forall_ne_some.mpr fun j hj => hnew j (hd.lookup_iff.mp hj)
    · simp only [Op.call, Op.Directs, hconf]
      exact ⟨hd, Or.inl ⟨hok, trivial⟩⟩
    · have hsame : Function.update s.conf.ports i none = s.conf.ports := by
        rw [Function.update_eq_self_iff]
        exact (portVacancy_spec hv).2.1.symm
      simp only [Op.call, Op.Directs, hconf, ports_openSecy, hsci, Bool.false_eq_true, if_false, hsame]
      exact ⟨hd, Or.inl ⟨hok, trivial⟩⟩
  · replace hadd : ∀ conf, op ≠ .secyConfAdd conf := fun conf he => hadd ⟨conf, he⟩
    have hports : (final (op.call bus port) s).conf.ports = s.conf.ports ∨ _ := ports_call h hadd
    rcases hports with he | ⟨rfl, i, hi, he⟩
    · refine ⟨he ▸ hd, ?_⟩
      cases op with
      | secyConfAdd conf => exact absurd rfl (hadd conf)
      | secyConfDel =>
        refine Or.inl ⟨fun hok => ?_, congrArg (lookup maxSecy) he⟩
        obtain ⟨i, hi⟩ := portFind_of_ok hok
        have hfree := ports_eq_none.mpr (secyConfDel_ok h hi hok)
        rw [he, ports_eq_some.mpr (portFind_spec hi).2] at hfree
        cases hfree
      | _ => exact congrArg (lookup maxSecy) he
    · have hp : s.conf.ports i = some port.key := ports_eq_some.mpr (portFind_spec hi).2
      refine ⟨he ▸ hd.erase, Or.inr ⟨?_, ?_⟩⟩
      · rw [hd.lookup_iff.mpr hp]
        exact Option.some_ne_none i
      · rw [he]
        exact hd.lookup_erase hp

/-! ## Careful runs -/

/-- A call, careful if it is an addition, or a change of the device. -/
inductive CarefulStep (bus : PortBus H) : Dev MacsecConf H → Dev MacsecConf H → Prop
  | call (port : MacsecPort) (op : Op) (s : Dev MacsecConf H) (hc : Careful op port s.conf) :
      CarefulStep bus s (final (op.call bus port) s)
  | drift (s : Dev MacsecConf H) (h : H) : bus.drift s.hw h → CarefulStep bus s { s with hw := h }

theorem careful_run {glb : Glb} {h₀ : H} {s : Dev MacsecConf H}
    (hrun : Relation.ReflTransGen (CarefulStep bus) ⟨macsecInit glb, h₀⟩ s) :
    Inv s.conf ∧ Distinct maxSecy s.conf.ports := by
  induction hrun with
  | refl => exact ⟨inv_init glb, .empty fun _ => rfl⟩
  | tail _ hst ih =>
    cases hst with
    | call port op s hc => exact ⟨inv_call ih.1 op port, (directs_call ih.1 ih.2 hc).1⟩
    | drift s h _ => exact ih

/-- In every state of a careful run no two SecYs in use are a port's, the lookup of a port returns exactly its SecY, and
the next careful call changes the lookup at its own port only. -/
theorem secy_identity (glb : Glb) (h₀ : H) (s : Dev MacsecConf H)
    (hrun : Relation.ReflTransGen (CarefulStep bus) ⟨macsecInit glb, h₀⟩ s) :
    (∀ port i j, (s.conf.secy i).hasPort port = true → (s.conf.secy j).hasPort port = true → i = j) ∧
    (∀ port i, portFind s.conf port = some i ↔ (s.conf.secy i).hasPort port = true) ∧
    ∀ port op, Careful op port s.conf →
      op.Directs port s.conf (errorOf (op.call bus port) s = none) (final (op.call bus port) s).conf := by
  obtain ⟨h, hd⟩ := careful_run hrun
  refine ⟨fun port i j hi hj => hd.inj (ports_eq_some.mpr hi) (ports_eq_some.mpr hj), fun port i => ?_,
    fun port op hc => (directs_call h hd hc).2⟩
  rw [portFind_eq, hd.lookup_iff, ports_eq_some]

theorem secy_identity_first :
    portFind (calls bench.toBus [(benchPort 1, .secyConfAdd benchSecy)] benchInit).conf (benchPort 1) = some 0 := by
  have hrun : Relation.ReflTransGen (CarefulStep bench.toBus) benchInit
      (calls bench.toBus [(benchPort 1, .secyConfAdd benchSecy)] benchInit) :=
    .single (.call (benchPort 1) (.secyConfAdd benchSecy) benchInit fun _ hi => absurd hi Bool.false_ne_true)
  exact ((secy_identity { initEnable := true } _ _ hrun).2.1 _ _).mpr (by decide)

/-- A second SecY for port 2, added once the slot below its first one is free again. -/
theorem not_secy_identity : ¬∀ s, Reachable bench.toBus s → ∀ port i j, (s.conf.secy i).hasPort port = true →
    (s.conf.secy j).hasPort port = true → i = j := by
  intro h
  have h01 := h _ (reachable_bench [(benchPort 1, .secyConfAdd benchSecy), (benchPort 2, .secyConfAdd benchSecy),
    (benchPort 1, .secyConfDel), (benchPort 2, .secyConfAdd benchSecy)]) (benchPort 2) 0 1 (by decide)
    (by decide)
  cases h01

end Lan80xx.Macsec
