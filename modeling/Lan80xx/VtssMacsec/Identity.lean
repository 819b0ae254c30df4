import Lan80xx.Lib.Directory
import Lan80xx.VtssMacsec.NonceRuns

/-!
# MACsec of the VTSS PHYs: the SecY of a port

`vtss_macsec_port_check` with `create` looks for the port's SecY and for a vacancy in one scan, and stops at whichever
comes first. So it finds the SecY that a new one would duplicate only when no slot below it is free (`Careful`).

- `Conf.ports`: the slots as a directory, which `portFind` looks up (`portFind_eq`);
- `holds_update`, `holding_op`: no update but that of `secy_conf_add` gives a SecY another port;
- `distinct_secyConfAdd`: a careful addition;
- `secy_ports_distinct`: the runs.
-/

namespace Lan80xx.VtssMacsec

open Fallible RegBus Directory
open Macsec (MacsecPort Sci SecyConf MatchAction Direction)

variable {H : Type} {hw : Hw H} {phy : Phy} {c c' : Conf} {d : Direction} {i j an sc r : Nat} {sci : Sci}
  {port : MacsecPort}

/-! ## Ports -/

/-- What identifies the SecY of a port. -/
def portKey (port : MacsecPort) : Nat × Nat := (port.serviceId, port.portId)

/-- The port that a slot is held for. -/
def Conf.ports (c : Conf) (i : Nat) : Option (Nat × Nat) := if (c.secy i).inUse = true then some (c.secyKey i) else none

theorem ports_eq_some : c.ports i = some (portKey port) ↔ c.hasPort port i = true := by
  simp only [Conf.ports, Conf.secyKey, portKey, Conf.hasPort, Option.ite_none_right_eq_some, Option.some.injEq,
    Prod.mk.injEq, Bool.and_eq_true, decide_eq_true_eq]
  tauto

theorem ports_eq_none : c.ports i = none ↔ (c.secy i).inUse = false := by
  simp [Conf.ports]

/-- The lookup is the scan of the directory. -/
theorem portFind_eq : c.portFind phy port = lookup phy.maxSecyCnt c.ports (portKey port) := by
  unfold Conf.portFind lookup
  congr 1
  funext i
  rw [Bool.eq_iff_iff, ← ports_eq_some, decide_eq_true_eq]

/-- The slots below the vacancy belong to other ports. -/
theorem portVacancy_spec (h : c.portVacancy phy port = some i) :
    i < phy.maxSecyCnt ∧ ∀ j < i, c.ports j ≠ some (portKey port) := by
  obtain ⟨-, hlt, hbelow⟩ := List.find?_range_eq_some.mp h
  refine ⟨List.mem_range.mp hlt, fun j hj hp => ?_⟩
  have hother := hbelow j hj
  rw [ports_eq_some.mp hp] at hother
  simp at hother

/-! ## Calls that give no SecY another port -/

variable (c c') in
/-- Every slot held was held for the same port before. -/
def Holds : Prop := ∀ i k, c'.ports i = some k → c.ports i = some k

theorem Holds.of_secy (h : c'.secy = c.secy) : Holds c c' := fun i k hk => by
  simpa only [Conf.ports, Conf.secyKey, h] using hk

theorem holds_setSecy {f : Secy → Secy} (h : (f (c.secy i)).inUse = true → (c.secy i).inUse = true ∧
    (f (c.secy i)).serviceId = (c.secy i).serviceId ∧ (f (c.secy i)).sci.portId = (c.secy i).sci.portId) :
    Holds c (c.setSecy i f) := by
  intro j k hk
  simp only [Conf.ports, Conf.secyKey, Conf.setSecy_secy] at hk ⊢
  split at hk
  · next hj =>
    subst hj
    simp only [Option.ite_none_right_eq_some] at hk
    obtain ⟨hu, hk⟩ := hk
    obtain ⟨hin, hservice, hport⟩ := h hu
    rw [if_pos hin, ← hk, hservice, hport]
  · exact hk

/-- An update of a SecY that leaves its port alone. -/
theorem holds_settings {f : Secy → Secy} (hu : (f (c.secy i)).inUse = (c.secy i).inUse)
    (hs : (f (c.secy i)).serviceId = (c.secy i).serviceId) (hp : (f (c.secy i)).sci.portId = (c.secy i).sci.portId) :
    Holds c (c.setSecy i f) := holds_setSecy fun h => ⟨hu.symm.trans h, hs, hp⟩

/-- The frame of these calls. -/
def holds : Frame Conf := ⟨Holds, fun _ _ _ => id, fun h h' i k => h i k ∘ h' i k⟩

theorem Holds.trans {c₁ : Conf} (h : Holds c c₁) (h' : Holds c₁ c') : Holds c c' := holds.trans h h'

abbrev holding : Frame (Dev Conf H) := onConf holds

theorem holds_linkTxSa {o : Option Nat} : Holds c (c.linkTxSa i an o) := holds_settings rfl rfl rfl

theorem holds_pointTxSa : Holds c (c.pointTxSa i an r) := holds_linkTxSa.trans (.of_secy rfl)

theorem holds_setPatternRecord {a : MatchAction} : Holds c (c.setPatternRecord i a d r) := holds_settings rfl rfl rfl

theorem holds_takePattern {secy : Option Nat} {a : MatchAction} {rule : Nat} :
    Holds c (c.takePattern secy d a rule r) := by
  cases secy with
  | none => cases d <;> exact .of_secy rfl
  | some i =>
    cases d with
    | egress =>
      have hset : Holds c (c.setTxSa r fun sa => { sa with record := r, inUse := true }) := .of_secy rfl
      exact hset.trans holds_setPatternRecord
    | ingress =>
      have hset : Holds c (c.setRxSa r fun sa => { sa with record := r, inUse := true }) := .of_secy rfl
      exact hset.trans holds_setPatternRecord

theorem releaseBypass_secy (n : Nat) : (c.releaseBypass n).secy = c.secy := by
  induction n with
  | zero => rfl
  | succ n ih =>
    simp only [Conf.releaseBypass]
    split
    · exact ih
    · exact ih

theorem holds_disabled : Holds c (c.disabled phy) := by
  intro i k hk
  simp only [Conf.ports, Conf.secyKey, Conf.disabled] at hk ⊢
  split at hk
  · cases hk
  · exact hk

theorem holds_update {k : Kind} (hk : (k != .opens) = true) (hu : Update phy c k c') : Holds c c' := by
  cases hu with
  | secyOpen _ _ _ => cases hk
  | txSaAgain _ _ => exact holds_pointTxSa.trans (.of_secy (by rfl))
  | txSaTake _ _ _ _ => exact holds_pointTxSa.trans (.of_secy (by rfl))
  | txSaActivate _ => exact (Holds.of_secy (Conf.setTxSaAt_secy _)).trans (holds_settings rfl rfl rfl)
  | txSaDisable =>
    refine (Holds.of_secy (Conf.setTxSaAt_secy _)).trans (holds_settings ?_ ?_ ?_)
    all_goals split <;> rfl
  | txSaFree => exact Holds.trans (.of_secy rfl) holds_linkTxSa
  | txSaRetire => exact .of_secy (Conf.setTxSaAt_secy _)
  | rxSaAgain _ _ _ _ => exact .of_secy (by simp [Conf.startRxSa, Conf.pointRxSa])
  | rxSaTake _ _ _ _ _ _ => exact .of_secy (by simp [Conf.startRxSa, Conf.keyRxSa, Conf.pointRxSa])
  | rxSaFlag => exact .of_secy (by simp [Conf.flagRxSa])
  | rxSaLowest => exact .of_secy (by simp)
  | rxSaMove _ _ _ _ _ _ => exact .of_secy (by simp [Conf.moveRxSa])
  | rxSaFree => exact .of_secy (by simp [Conf.freeRxSa])
  | txScClear => exact holds_settings rfl rfl rfl
  | @rxScOpen i sc p sci _ _ _ _ _ =>
    have hpoint : Holds c (c.setSecy i fun s => { s with rxSc := Function.update s.rxSc sc (some p) }) :=
      holds_settings rfl rfl rfl
    exact hpoint.trans (.of_secy rfl)
  | rxScConf => exact .of_secy (by simp)
  | rxScFree => exact Holds.trans (.of_secy (by simp)) (holds_settings rfl rfl rfl)
  | secyUpdate _ => exact holds_settings rfl rfl rfl
  | secySettings hf => exact holds_settings (hf.inUse _) (hf.serviceId _) (congrArg Sci.portId (hf.sci _))
  | secyClear => exact holds_setSecy fun h => by cases h
  | patternTake _ => exact holds_takePattern
  | @patternFree i d a => cases d <;> exact .of_secy rfl
  | patternForget => exact holds_setPatternRecord
  | bypassRelease => exact .of_secy (releaseBypass_secy cpRules)
  | disable => exact holds_disabled
  | _ => exact .of_secy (by rfl)

/-- Every call but an addition. -/
theorem holding_op {op : Op} (hop : ∀ port conf, op ≠ .secyConfAdd port conf) : Within holding (op.call hw phy) := by
  have hF : Admits hw phy (fun k => k != .opens) holding := admits_onConf fun _ _ _ => holds_update
  refine moving_op hF ?_
  cases op with
  | secyConfAdd port conf => exact absurd rfl (hop port conf)
  | speedChange fuel speed => exact ⟨rfl, rfl, by constructor <;> rfl⟩
  | _ => simp [Op.MadeOf]

/-! ## Additions -/

/-- A SecY is not added for a port that has one, except where the scan sees it: every slot below it is in use. -/
def Op.Careful (c : Conf) : Op → Prop
  | .secyConfAdd port _ => ∀ i, c.hasPort port i = true → ∀ j < i, (c.secy j).inUse = true
  | _ => True

theorem ports_openSecy {conf : SecyConf} :
    ((c.openSecy i port conf).setSecy i fun s => { s with inUse := isSciValid s.sci }).ports =
      Function.update c.ports i (if isSciValid { macAddr := conf.macAddr, portId := port.portId } = true then
        some (portKey port) else none) := by
  funext j
  rw [Function.update_apply]
  simp only [Conf.ports, Conf.secyKey, Conf.openSecy, Conf.setSecy_setSecy, Conf.setSecy_secy]
  split <;> rfl

/-- A careful addition keeps the ports apart. -/
theorem distinct_secyConfAdd {conf : SecyConf} (hd : Distinct phy.maxSecyCnt c.ports)
    (hc : (Op.secyConfAdd port conf).Careful c) :
    Ends (fun s => s.conf = c) (secyConfAdd phy port conf : Call H Unit)
      (fun _ s => Distinct phy.maxSecyCnt s.conf.ports) fun s => Distinct phy.maxSecyCnt s.conf.ports := by
  have hkept (s : Dev Conf H) (hs : s.conf = c) : Distinct phy.maxSecyCnt s.conf.ports := hs ▸ hd
  refine Ends.failIf_bind (fun s hs _ => hkept s hs) fun _ => ends_getConf_bind (fun _ hs => hs) ?_
  refine Ends.failIf_bind (fun s hs _ => hkept s hs) fun _ => ?_
  cases hv : c.portVacancy phy port with
  | none => exact Ends.throw hkept
  | some i =>
    obtain ⟨hlt, hbelow⟩ := portVacancy_spec hv
    refine Ends.failIf_bind (fun s hs _ => hkept s hs) fun hin => Ends.failIf_bind (fun s hs _ => hkept s hs) fun _ => ?_
    have hfree : (c.secy i).inUse = false := by simpa using hin
    have hnew (j : Nat) : c.ports j ≠ some (portKey port) := by
      intro hj
      rcases Nat.lt_trichotomy j i with hji | rfl | hij
      · exact hbelow j hji hj
      · rw [ports_eq_none.mpr hfree] at hj
        cases hj
      · have hu := hc j (ports_eq_some.mp hj) i hij
        rw [hfree] at hu
        cases hu
    have hopen : Distinct phy.maxSecyCnt
        ((c.openSecy i port conf).setSecy i fun s => { s with inUse := isSciValid s.sci }).ports := by
      rw [ports_openSecy]
      split
      · exact hd.insert hlt hnew
      · exact hd.erase
    refine Ends.failIf_bind (fun s hs _ => hkept s hs) fun _ => ?_
    refine (ends_modifyConf_of (T := fun s => Distinct phy.maxSecyCnt s.conf.ports) fun s hs => ?_).bind fun _ => ?_
    · rw [hs]
      exact hopen
    · exact (Ends.failIf fun _ hs _ => hs).weaken (fun _ _ hs => hs.1) fun _ => id

/-! ## Runs -/

theorem distinct_op {s : Dev Conf H} {op : Op} (hd : Distinct phy.maxSecyCnt s.conf.ports) (hc : op.Careful s.conf) :
    Distinct phy.maxSecyCnt (final (op.call hw phy) s).conf.ports := by
  by_cases hop : ∃ port conf, op = .secyConfAdd port conf
  · obtain ⟨port, conf, rfl⟩ := hop
    have hadd : Ends (fun t => t.conf = s.conf) (secyConfAdd phy port conf : Call H Unit) _ _ :=
      distinct_secyConfAdd hd hc
    rcases hadd.final (s := s) rfl with ⟨-, -, h⟩ | ⟨-, h⟩
    · exact h
    · exact h
  · exact hd.mono (holding_op (fun port conf h => hop ⟨port, conf, h⟩) s)

variable (hw phy) in
/-- **Identity of SecYs.** In every run whose additions are careful no two SecYs in use are a port's, and the lookup of a
port returns exactly its SecY. -/
theorem secy_ports_distinct (ops : List Op) (h : H)
    (hrun : Meets hw phy (fun s op => op.Careful s.conf) ops { conf := {}, hw := h }) :
    let c := (calls hw phy ops { conf := {}, hw := h }).conf
    (∀ port i j, c.hasPort port i = true → c.hasPort port j = true → i = j) ∧
      ∀ port i, c.portFind phy port = some i ↔ c.hasPort port i = true := by
  have hd : Distinct phy.maxSecyCnt (calls hw phy ops { conf := {}, hw := h }).conf.ports :=
    calls_induction (I := fun s => Distinct phy.maxSecyCnt s.conf.ports) (fun s op hd hc => distinct_op hd hc) ops _
      (.empty fun _ => rfl) hrun
  refine ⟨fun port i j hi hj => hd.inj (ports_eq_some.mpr hi) (ports_eq_some.mpr hj), fun port i => ?_⟩
  rw [portFind_eq, hd.lookup_iff, ports_eq_some]

/-! ### A second SecY for one port -/

def addSecy (portId : Nat) : Op := .secyConfAdd (benchPort portId) benchSecy

/-- The SecY of a port that is added once. -/
theorem secy_ports_distinct_bench :
    (calls bench benchPhy [.initSet (.request true false), addSecy 1] benchProbed).conf.portFind benchPhy (benchPort 1) =
      some 0 := by
  have hrun : Meets bench benchPhy (fun s op => op.Careful s.conf) [.initSet (.request true false), addSecy 1]
      benchProbed := by
    refine ⟨trivial, fun i hi => ?_, trivial⟩
    have hkeep : Holds benchProbed.conf (final ((Op.initSet (.request true false)).call bench benchPhy) benchProbed).conf :=
      holding_op (fun _ _ h => by cases h) benchProbed
    cases hkeep i _ (ports_eq_some.mpr hi)
  exact ((secy_ports_distinct bench benchPhy _ () hrun).2 (benchPort 1) 0).mpr (by decide +kernel)

/-- Port 2 is added again when the slot below its SecY is free. -/
theorem not_secy_ports_distinct : ∃ s, Reachable bench benchPhy s ∧
    ¬∀ port i j, s.conf.hasPort port i = true → s.conf.hasPort port j = true → i = j := by
  refine ⟨_, reachable_calls bench benchPhy [.initSet (.request true false), addSecy 1, addSecy 2,
    .secyConfDel (benchPort 1), addSecy 2] (), fun h => ?_⟩
  have h01 := h (benchPort 2) 0 1 (by decide +kernel) (by decide +kernel)
  cases h01

end Lan80xx.VtssMacsec
