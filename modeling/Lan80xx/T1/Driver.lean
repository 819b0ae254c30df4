import Lan80xx.T1.Leds

/-!
# T1 PHYs: configuration calls

`conf_set`, `media_set` and `if_set` are the same in both drivers, but for the media they accept, and for how they start
the PHY again. A `Driver` is what they differ in.

- `Driver.call_run`: a call stores its arguments, and then does one thing;
- `ends_phyGetDeviceInfo_on`, `ends_configLeds_off`: steps of every initialisation.
-/

namespace Lan80xx.T1

open Fallible RegBus RegScript
open Lan8770 (Speed Loopback)

/-- `mepa_reset_point_t` -/
inductive ResetPoint
  | default
  | pre
  | post
  | postMac
  deriving DecidableEq, Repr

/-- `mepa_reset_param_t` -/
structure ResetParam where
  mediaIntf : MediaInterface
  resetPoint : ResetPoint
  deriving DecidableEq, Repr

/-- What is particular to a driver. -/
structure Driver (X H : Type) where
  /-- `check_media`; `none` is OK. -/
  checkMedia : PhyData X → MediaInterface → Speed → Option Rc
  /-- `config_set` applies a new setting of the MAC's auto-negotiation. -/
  appliesMacAneg : Bool
  /-- The port is enabled, with a new configuration; is the setting of the MAC's auto-negotiation new, too? -/
  enable : Bool → Call X H Unit
  powerDown : Call X H Unit
  /-- What `media_set` and `if_set` do after a change. -/
  mediaReset : Call X H Unit
  ifReset : Call X H Unit
  /-- The medium that `reset` is asked for. -/
  resetMedia : PhyData X → MediaInterface → Except Rc (PhyData X)
  resetInit : Call X H Unit
  /-- `setup_lpbk` -/
  setupLpbk : Option Loopback → Call X H Unit

/-! ## The calls -/

/-- The fields that `config_set` stores before it has checked the speed. -/
def Conf.early (old config : Conf) : Conf :=
  { old with
    fdx := true
    flowControl := config.flowControl
    aneg100mFdx := config.aneg100mFdx
    aneg1gFdx := config.aneg1gFdx
    macIfAnegEna := config.macIfAnegEna }

/-- What `config_set` takes at all. -/
def Conf.Valid (config : Conf) : Prop :=
  config.manNeg ≠ .disabled ∧ config.fdx = true ∧ (config.speed = .m100 ∨ config.speed = .g1 ∨ config.speed = .auto)

instance (config : Conf) : Decidable config.Valid := inferInstanceAs (Decidable (_ ∧ _ ∧ _))

/-- `re_config` -/
def reConfig (appliesMacAneg : Bool) (old config : Conf) : Bool :=
  (appliesMacAneg && old.macIfAnegEna != config.macIfAnegEna) || old.speed != config.speed || old.manNeg != config.manNeg ||
    old.adminEnable != config.adminEnable

/-- A return code that is not OK ends the call. -/
def orReturn {X H : Type} : Option Rc → Call X H Unit
  | none => pure ()
  | some rc => throw rc

/-- The media of a T1 PHY. -/
def MediaInterface.IsT1 (mediaIf : MediaInterface) : Prop := mediaIf = .t1_100fx ∨ mediaIf = .t1_1000fx

instance (mediaIf : MediaInterface) : Decidable mediaIf.IsT1 := inferInstanceAs (Decidable (_ ∨ _))

/-- The interfaces that `if_set` takes. -/
def PortInterface.isOther : PortInterface → Bool
  | other _ => true
  | _ => false

/-- A medium stored by `reset`; on 100 Mbit/s media the speed follows. -/
def PhyData.storeMedia {X : Type} (mediaIf : MediaInterface) (d : PhyData X) : PhyData X :=
  { d with
    mediaIntf := mediaIf
    conf := if mediaIf = .t1_100fx ∧ d.conf.speed ≠ .auto then { d.conf with speed := .m100 } else d.conf }

namespace Driver

variable {X H : Type} (D : Driver X H)

/-- `config_set`. An assignment of the value that is there already changes nothing, so none is left out. -/
def configSet (config : Conf) : Call X H Unit :=
  if config.Valid then do
    let old := (← getConf).conf
    modifyConf (PhyData.setConf (old.early config))
    let d ← getConf
    when (old.speed ≠ config.speed) (orReturn (D.checkMedia d d.mediaIntf config.speed))
    modifyConf (PhyData.setConf
      { d.conf with speed := config.speed, manNeg := config.manNeg, adminEnable := config.adminEnable })
    when (reConfig D.appliesMacAneg old config = true) (
      if config.adminEnable then D.enable (old.macIfAnegEna != config.macIfAnegEna) else D.powerDown)
  else throw .errParm

/-- `media_set` -/
def mediaSet (mediaIf : MediaInterface) : Call X H Unit :=
  if mediaIf.IsT1 then do
    let d ← getConf
    when (d.mediaIntf ≠ mediaIf) do
      orReturn (D.checkMedia d mediaIf d.conf.speed)
      modifyConf (PhyData.setMediaIntf mediaIf)
      when (d.conf.speed ≠ .m100 ∨ d.conf.speed = .auto) D.mediaReset
  else throw .confNotSupported

/-- `if_set` -/
def ifSet (macIf : PortInterface) : Call X H Unit :=
  if macIf.isOther then throw .confNotSupported
  else do
    let d ← getConf
    when (d.macIf ≠ macIf) do
      modifyConf (PhyData.setMacIf macIf)
      D.ifReset

/-- `reset`; the other reset points are accepted and ignored. -/
def reset : Option ResetParam → Call X H Unit
  | none => D.resetInit
  | some param =>
    if param.resetPoint = .default ∨ param.resetPoint = .pre then do
      match D.resetMedia (← getConf) param.mediaIntf with
      | .error rc => throw rc
      | .ok d => modifyConf fun _ => d
      D.resetInit
    else pure ()

end Driver

/-- The calls of a port. -/
inductive Op
  | conf (config : Conf)
  | media (mediaIf : MediaInterface)
  | iface (macIf : PortInterface)
  | reset (param : Option ResetParam)
  | loopback (loopback : Option Loopback)
  deriving DecidableEq, Repr

def Driver.call {X H : Type} (D : Driver X H) : Op → Call X H Unit
  | .conf config => D.configSet config
  | .media mediaIf => D.mediaSet mediaIf
  | .iface macIf => D.ifSet macIf
  | .reset param => D.reset param
  | .loopback loopback => D.setupLpbk loopback

/-! ## Storing and working -/

/-- What a call does after it has stored its arguments. -/
inductive Work
  | nothing
  | enable (macAneg : Bool)
  | powerDown
  | mediaReset
  | ifReset
  | resetInit
  | setupLpbk (loopback : Option Loopback)
  deriving DecidableEq, Repr

namespace Driver

variable {X H : Type} (D : Driver X H)

def work : Work → Call X H Unit
  | .nothing => pure ()
  | .enable macAneg => D.enable macAneg
  | .powerDown => D.powerDown
  | .mediaReset => D.mediaReset
  | .ifReset => D.ifReset
  | .resetInit => D.resetInit
  | .setupLpbk loopback => D.setupLpbk loopback

/-- The speed of a configuration is new, and the medium does not take it. -/
def refuses (d : PhyData X) (config : Conf) : Option Rc :=
  if d.conf.speed ≠ config.speed then
    D.checkMedia (d.setConf (d.conf.early config)) d.mediaIntf config.speed
  else none

/-- What a call stores, and what it does then; or its return code, and what it has stored nevertheless. -/
def plan (d : PhyData X) : Op → Except (Rc × PhyData X) (PhyData X × Work)
  | .conf config =>
    if config.Valid then
      match D.refuses d config with
      | some rc => .error (rc, d.setConf (d.conf.early config))
      | none => .ok (d.setConf config,
          if reConfig D.appliesMacAneg d.conf config then
            if config.adminEnable then .enable (d.conf.macIfAnegEna != config.macIfAnegEna) else .powerDown
          else .nothing)
    else .error (.errParm, d)
  | .media mediaIf =>
    if mediaIf.IsT1 then
      if d.mediaIntf = mediaIf then .ok (d, .nothing)
      else match D.checkMedia d mediaIf d.conf.speed with
        | some rc => .error (rc, d)
        | none => .ok (d.setMediaIntf mediaIf, if d.conf.speed = .m100 then .nothing else .mediaReset)
    else .error (.confNotSupported, d)
  | .iface macIf =>
    if macIf.isOther then .error (.confNotSupported, d)
    else if d.macIf = macIf then .ok (d, .nothing)
    else .ok (d.setMacIf macIf, .ifReset)
  | .reset none => .ok (d, .resetInit)
  | .reset (some param) =>
    if param.resetPoint = .default ∨ param.resetPoint = .pre then
      match D.resetMedia d param.mediaIntf with
      | .error rc => .error (rc, d)
      | .ok d => .ok (d, .resetInit)
    else .ok (d, .nothing)
  | .loopback loopback => .ok (d, .setupLpbk loopback)

theorem bind_run {α β : Type} (x : Call X H α) (f : α → Call X H β) (s : Dev (PhyData X) H) :
    (x >>= f) s = match x s with
      | .ok a s' => f a s'
      | .error e s' => .error e s' := by
  cases h : x s <;> simp [bind, EStateM.bind, h]

theorem modifyConf_run (f : PhyData X → PhyData X) (s : Dev (PhyData X) H) :
    (modifyConf f : Call X H PUnit) s = .ok () { s with conf := f s.conf } := rfl

theorem getConf_run (s : Dev (PhyData X) H) : (getConf : Call X H (PhyData X)) s = .ok s.conf s := rfl

theorem pure_run {α : Type} (a : α) (s : Dev (PhyData X) H) : (pure a : Call X H α) s = .ok a s := rfl

theorem throw_run {α : Type} (rc : Rc) (s : Dev (PhyData X) H) : (throw rc : Call X H α) s = .error rc s := rfl

theorem configSet_run (config : Conf) (s : Dev (PhyData X) H) :
    D.configSet config s = match D.plan s.conf (.conf config) with
      | .error (rc, d) => .error rc { s with conf := d }
      | .ok (d, work) => D.work work { s with conf := d } := by
  unfold configSet
  by_cases hvalid : config.Valid
  · have hconf : ({ s.conf.conf.early config with
        speed := config.speed, manNeg := config.manNeg, adminEnable := config.adminEnable } : Conf) = config := by
      have hfdx : config.fdx = true := hvalid.2.1
      cases config
      simp_all [Conf.early]
    have hwork : ∀ t : Dev (PhyData X) H, when (reConfig D.appliesMacAneg s.conf.conf config = true) (
        if config.adminEnable then D.enable (s.conf.conf.macIfAnegEna != config.macIfAnegEna) else D.powerDown) t =
        D.work (if reConfig D.appliesMacAneg s.conf.conf config then
          if config.adminEnable then .enable (s.conf.conf.macIfAnegEna != config.macIfAnegEna) else .powerDown
        else .nothing) t := by
      intro t
      unfold when
      split_ifs <;> rfl
    have hcheck : ∀ t : Dev (PhyData X) H, when (s.conf.conf.speed ≠ config.speed)
        (orReturn (D.checkMedia (s.conf.setConf (s.conf.conf.early config)) s.conf.mediaIntf config.speed)) t =
        match D.refuses s.conf config with
          | some rc => .error rc t
          | none => .ok () t := by
      intro t
      unfold when refuses
      split_ifs
      · cases D.checkMedia (s.conf.setConf (s.conf.conf.early config)) s.conf.mediaIntf config.speed <;> rfl
      · rfl
    have hmedia : (s.conf.setConf (s.conf.conf.early config)).mediaIntf = s.conf.mediaIntf := rfl
    rw [if_pos hvalid]
    simp only [plan, if_pos hvalid, bind_run, getConf_run, modifyConf_run, hmedia, hcheck]
    cases D.refuses s.conf config with
    | some rc => rfl
    | none =>
      simp only [PhyData.setConf] at hwork ⊢
      rw [hwork, hconf]
  · rw [if_neg hvalid]
    simp only [plan, if_neg hvalid, throw_run]

theorem mediaSet_run (mediaIf : MediaInterface) (s : Dev (PhyData X) H) :
    D.mediaSet mediaIf s = match D.plan s.conf (.media mediaIf) with
      | .error (rc, d) => .error rc { s with conf := d }
      | .ok (d, work) => D.work work { s with conf := d } := by
  unfold mediaSet
  by_cases ht1 : mediaIf.IsT1
  · rw [if_pos ht1]
    simp only [plan, if_pos ht1, bind_run, getConf_run]
    by_cases hsame : s.conf.mediaIntf = mediaIf
    · rw [if_pos hsame, when, if_neg (not_not.mpr hsame)]
      rfl
    · rw [if_neg hsame, when, if_pos hsame, bind_run]
      cases D.checkMedia s.conf mediaIf s.conf.conf.speed with
      | some rc => rfl
      | none =>
        have hspeed : (s.conf.conf.speed ≠ .m100 ∨ s.conf.conf.speed = .auto) ↔ ¬s.conf.conf.speed = .m100 := by
          cases s.conf.conf.speed <;> simp
        simp only [orReturn, pure_run, bind_run, modifyConf_run, when, hspeed]
        split_ifs <;> rfl
  · rw [if_neg ht1]
    simp only [plan, if_neg ht1, throw_run]

/-- **Calls.** What a call does is what its plan says. -/
theorem call_run (op : Op) (s : Dev (PhyData X) H) :
    D.call op s = match D.plan s.conf op with
      | .error (rc, d) => .error rc { s with conf := d }
      | .ok (d, work) => D.work work { s with conf := d } := by
  cases op with
  | conf config => exact D.configSet_run config s
  | media mediaIf => exact D.mediaSet_run mediaIf s
  | iface macIf =>
    simp only [call, ifSet, plan]
    split_ifs with hother hsame
    · rfl
    · simp only [bind_run, getConf_run, when, if_neg (not_not.mpr hsame)]
      rfl
    · simp only [bind_run, getConf_run, when, if_pos hsame, modifyConf_run]
      rfl
  | reset param =>
    cases param with
    | none => rfl
    | some param =>
      simp only [call, reset, plan]
      split_ifs
      · simp only [bind_run, getConf_run]
        cases D.resetMedia s.conf param.mediaIntf <;> rfl
      · rfl
  | loopback => rfl

/-! ### What a plan may be -/

section Plan

variable {D} {d d' : PhyData X} {w : Work}

theorem plan_conf_ok {config : Conf} (h : D.plan d (.conf config) = .ok (d', w)) :
    config.Valid ∧ D.refuses d config = none ∧ d' = d.setConf config ∧
      w = if reConfig D.appliesMacAneg d.conf config then
        if config.adminEnable then .enable (d.conf.macIfAnegEna != config.macIfAnegEna) else .powerDown
      else .nothing := by
  simp only [plan] at h
  by_cases hvalid : config.Valid
  · rw [if_pos hvalid] at h
    cases href : D.refuses d config with
    | some rc => simp [href] at h
    | none =>
      simp only [href, Except.ok.injEq, Prod.mk.injEq] at h
      exact ⟨hvalid, rfl, h.1.symm, h.2.symm⟩
  · simp [if_neg hvalid] at h

theorem plan_media_ok {mediaIf : MediaInterface} (h : D.plan d (.media mediaIf) = .ok (d', w)) :
    (d' = d ∧ w = .nothing) ∨
      (d' = d.setMediaIntf mediaIf ∧ w = if d.conf.speed = .m100 then .nothing else .mediaReset) := by
  simp only [plan] at h
  by_cases ht1 : mediaIf.IsT1
  · rw [if_pos ht1] at h
    by_cases hsame : d.mediaIntf = mediaIf
    · simp only [if_pos hsame, Except.ok.injEq, Prod.mk.injEq] at h
      exact Or.inl ⟨h.1.symm, h.2.symm⟩
    · rw [if_neg hsame] at h
      cases hcheck : D.checkMedia d mediaIf d.conf.speed with
      | some rc => simp [hcheck] at h
      | none =>
        simp only [hcheck, Except.ok.injEq, Prod.mk.injEq] at h
        exact Or.inr ⟨h.1.symm, h.2.symm⟩
  · simp [if_neg ht1] at h

theorem plan_iface_ok {macIf : PortInterface} (h : D.plan d (.iface macIf) = .ok (d', w)) :
    (d' = d ∧ w = .nothing) ∨ (macIf.isOther = false ∧ d' = d.setMacIf macIf ∧ w = .ifReset) := by
  simp only [plan] at h
  split_ifs at h with hother <;> cases h
  · exact Or.inl ⟨rfl, rfl⟩
  · exact Or.inr ⟨by simpa using hother, rfl, rfl⟩

theorem plan_reset_ok {param : Option ResetParam} (h : D.plan d (.reset param) = .ok (d', w)) :
    (d' = d ∧ w = .nothing) ∨ (w = .resetInit ∧ (d' = d ∨ ∃ mediaIf, D.resetMedia d mediaIf = .ok d')) := by
  cases param with
  | none =>
    cases h
    exact Or.inr ⟨rfl, Or.inl rfl⟩
  | some param =>
    simp only [plan] at h
    by_cases hpoint : param.resetPoint = .default ∨ param.resetPoint = .pre
    · rw [if_pos hpoint] at h
      cases hmedia : D.resetMedia d param.mediaIntf with
      | error rc => simp [hmedia] at h
      | ok d₁ =>
        simp only [hmedia, Except.ok.injEq, Prod.mk.injEq] at h
        exact Or.inr ⟨h.2.symm, Or.inr ⟨param.mediaIntf, by rw [hmedia, h.1]⟩⟩
    · simp only [if_neg hpoint, Except.ok.injEq, Prod.mk.injEq] at h
      exact Or.inl ⟨h.1.symm, h.2.symm⟩

/-- Only a configuration whose speed is refused leaves something behind. -/
theorem plan_error {op : Op} {rc : Rc} (h : D.plan d op = .error (rc, d')) :
    d' = d ∨ ∃ config, op = .conf config ∧ config.Valid ∧ D.refuses d config ≠ none ∧
      d' = d.setConf (d.conf.early config) := by
  cases op with
  | conf config =>
    simp only [plan] at h
    by_cases hvalid : config.Valid
    · rw [if_pos hvalid] at h
      cases href : D.refuses d config with
      | some rc =>
        simp only [href, Except.error.injEq, Prod.mk.injEq] at h
        exact Or.inr ⟨config, rfl, hvalid, by simp [href], h.2.symm⟩
      | none => simp [href] at h
    · simp only [if_neg hvalid, Except.error.injEq, Prod.mk.injEq] at h
      exact Or.inl h.2.symm
  | media mediaIf =>
    simp only [plan] at h
    by_cases ht1 : mediaIf.IsT1
    · rw [if_pos ht1] at h
      by_cases hsame : d.mediaIntf = mediaIf
      · simp [if_pos hsame] at h
      · rw [if_neg hsame] at h
        cases hcheck : D.checkMedia d mediaIf d.conf.speed with
        | some rc =>
          simp only [hcheck, Except.error.injEq, Prod.mk.injEq] at h
          exact Or.inl h.2.symm
        | none => simp [hcheck] at h
    · simp only [if_neg ht1, Except.error.injEq, Prod.mk.injEq] at h
      exact Or.inl h.2.symm
  | iface macIf =>
    simp only [plan] at h
    split_ifs at h
    cases h
    exact Or.inl rfl
  | reset param =>
    cases param with
    | none => cases h
    | some param =>
      simp only [plan] at h
      by_cases hpoint : param.resetPoint = .default ∨ param.resetPoint = .pre
      · rw [if_pos hpoint] at h
        cases hmedia : D.resetMedia d param.mediaIntf with
        | error rc =>
          simp only [hmedia, Except.error.injEq, Prod.mk.injEq] at h
          exact Or.inl h.2.symm
        | ok d₁ => simp [hmedia] at h
      · simp [if_neg hpoint] at h
  | loopback => cases h

end Plan

end Driver

/-! ## What every initialisation has in it -/

/-- The identifier in the registers of a PHY. -/
def Ids (m : Bits Reg 16) (dev : DevInfo) : Prop :=
  ∃ v₁ v₂, shows live physid1 v₁ m ∧ shows live physid2 v₂ m ∧ dev = devInfo v₁ v₂

theorem shows_unique {r : Reg} {v v' : BitVec 16} {m : Bits Reg 16} (hl : ∀ b, live r b = false)
    (h : shows live r v m) (h' : shows live r v' m) : v = v' :=
  BitVec.eq_of_getLsbD_eq fun b hb => (h ⟨b, hb⟩ (hl _)).trans (h' ⟨b, hb⟩ (hl _)).symm

theorem Ids.unique {m : Bits Reg 16} {dev dev' : DevInfo} (h : Ids m dev) (h' : Ids m dev') : dev = dev' := by
  obtain ⟨v₁, v₂, h₁, h₂, rfl⟩ := h
  obtain ⟨u₁, u₂, h₁', h₂', rfl⟩ := h'
  rw [shows_unique (fun _ => rfl) h₁ h₁', shows_unique (fun _ => rfl) h₂ h₂']

/-- Accesses leave the identifier alone. -/
theorem Ids.applyAll {m : Bits Reg 16} {as : List Acc} {dev : DevInfo} (h : Ids m dev) (h₁ : physid1 ∉ writesOf as)
    (h₂ : physid2 ∉ writesOf as) : Ids (applyAll live as m) dev := by
  obtain ⟨v₁, v₂, hv₁, hv₂, rfl⟩ := h
  exact ⟨v₁, v₂, by rwa [shows, applyAll_frame h₁], by rwa [shows, applyAll_frame h₂], rfl⟩

/-- The modes that the driver keeps are ones that LEDs have. -/
def LedsAccepted {X : Type} (d : PhyData X) : Prop :=
  ∀ i, (d.ledConf i).mode.isLed = true → ledValue (d.ledConf i).mode ≠ none ∧ (d.ledConf i).ledNum < 4

section On

variable {X H : Type} (rf : PhyBus H) {S : List Reg} {h₀ : H} {c : PhyData X} {m : Bits Reg 16}
  {E : Dev (PhyData X) H → Prop} (hs : rf.Sound h₀)

include hs

theorem ends_read_on (r : Reg) (hr : r ∈ S) :
    Ends (SeesOn rf S h₀ c m) (read rf.toBus Rc.access r : Call X H _)
      (fun v s => SeesOn rf S h₀ c m s ∧ shows live r v m) E := by
  rintro s ⟨m₁, hm, hq⟩
  refine ((ends_read_sees rf Rc.access r fun _ hno _ => absurd hs hno).weaken ?_ fun _ h => h) s hm
  rintro v t ⟨ht, hv⟩
  exact ⟨⟨m₁, ht, hq⟩, fun b hl => (hv b hl).trans (by rw [hq r hr])⟩

/-- A read of a register that need not be among them. -/
theorem ends_read_any (r : Reg) :
    Ends (SeesOn rf S h₀ c m) (read rf.toBus Rc.access r : Call X H _) (fun _ => SeesOn rf S h₀ c m) E := by
  rintro s ⟨m₁, hm, hq⟩
  refine ((ends_read_sees rf Rc.access r fun _ hno _ => absurd hs hno).weaken ?_ fun _ h => h) s hm
  exact fun _ t ht => ⟨m₁, ht.1, hq⟩

theorem ends_write_off {r : Reg} (hr : r ∉ S) (v : BitVec 16) :
    Ends (SeesOn rf S h₀ c m) (write rf.toBus Rc.access r v : Call X H _) (fun _ => SeesOn rf S h₀ c m) E := by
  rintro s ⟨m₁, hm, hq⟩
  refine ((ends_write_sees rf Rc.access r v fun _ hno _ => absurd hs.writesGo hno).weaken ?_ fun _ h => h) s hm
  refine fun _ t ht => ⟨_, ht, fun q hS => (onWrite_of_ne v ?_).trans (hq q hS)⟩
  rintro rfl
  exact hr hS

/-- The device information, when it is known already. -/
theorem ends_phyGetDeviceInfo_on (h₁ : physid1 ∈ S) (h₂ : physid2 ∈ S) (hid : Ids m c.dev) :
    Ends (SeesOn rf S h₀ c m) (phyGetDeviceInfo rf.toBus) (fun _ => SeesOn rf S h₀ c m) E := by
  have hread : ∀ {r} {d : PhyData X}, r ∈ S → Ends (SeesOn rf S h₀ d m) (attempt (read rf.toBus Rc.access r) : Call X H _)
      (fun o s => SeesOn rf S h₀ d m s ∧ ∃ v, o = some v ∧ shows live r v m) E := by
    intro r d hr
    refine ((ends_read_on rf (E := fun _ => False) hs r hr).attempt).weaken ?_ fun _ h => h
    rintro o s (⟨v, rfl, hsee, hv⟩ | ⟨-, hf⟩)
    · exact ⟨hsee, v, rfl, hv⟩
    · exact hf.elim
  refine (ends_modifyConf_on rf _).bind fun _ => (hread h₁).bind fun o₁ => ?_
  rintro s ⟨hsee, v₁, rfl, hv₁⟩
  refine ((hread h₂).bind fun o₂ => ?_) s hsee
  rintro s ⟨hsee, v₂, rfl, hv₂⟩
  have hdev : c.dev = devInfo v₁ v₂ := hid.unique ⟨v₁, v₂, hv₁, hv₂, rfl⟩
  refine ((ends_modifyConf_on rf _).weaken (fun _ t ht => ?_) fun _ h => h) s hsee
  simpa [PhyData.setDev, ← hdev] using ht

omit hs in
/-- What changes nothing, of some of the registers. -/
theorem ends_seesOn_of {x : Call X H Unit} (hx : ∀ m, Ends (Sees rf h₀ c m) x (fun _ => Sees rf h₀ c m) E) :
    Ends (SeesOn rf S h₀ c m) x (fun _ => SeesOn rf S h₀ c m) E := by
  rintro s ⟨m₁, hm, hq⟩
  exact ((hx m₁).weaken (fun _ t ht => ⟨m₁, ht, hq⟩) fun _ h => h) s hm

theorem ends_script_on (as : List Acc) : Ends (SeesOn rf S h₀ c m) (script rf.toBus as)
    (fun _ => SeesOn rf S h₀ c (applyAll live as m)) E := ends_runAll_on rf Rc.access hs as

theorem ends_script_off {as : List Acc} (h : ∀ q ∈ S, q ∉ writesOf as) :
    Ends (SeesOn rf S h₀ c m) (script rf.toBus as) (fun _ => SeesOn rf S h₀ c m) E :=
  ends_runAll_off rf Rc.access hs h

theorem ends_script_append_off (as : List Acc) {bs : List Acc} (h : ∀ q ∈ S, q ∉ writesOf bs) :
    Ends (SeesOn rf S h₀ c m) (script rf.toBus (as ++ bs)) (fun _ => SeesOn rf S h₀ c (applyAll live as m)) E := by
  refine (ends_script_on rf hs _).weaken (fun _ s hsee => hsee.congr fun q hq => ?_) fun _ h => h
  rw [applyAll_append, applyAll_frame (h q hq)]

theorem ends_configLed_off {chip : Chip} (h₁ : chip.led1Led0 ∉ S) (h₂ : chip.led3Led2 ∉ S) {conf : GpioConf}
    (hv : ledValue conf.mode ≠ none) (hn : conf.ledNum < 4) :
    Ends (SeesOn rf S h₀ c m) (configLed chip rf.toBus conf) (fun _ => SeesOn rf S h₀ c m) E := by
  obtain ⟨value, hval⟩ := Option.ne_none_iff_exists'.mp hv
  have hwrite : ∀ r, r ∉ S → Ends (SeesOn rf S h₀ c m) (script rf.toBus [.wr r (ledWord conf.ledNum value)] : Call X H _)
      (fun _ => SeesOn rf S h₀ c m) E := by
    intro r hr
    refine ends_script_off rf hs fun q hq hmem => hr ?_
    obtain rfl : q = r := by simpa [writesOf, Access.writes] using hmem
    exact hq
  rw [configLed, hval]
  unfold Chip.ledReg
  split_ifs with h01 h23
  · exact hwrite _ h₁
  · exact hwrite _ h₂
  · omega

theorem ends_configLeds_off {chip : Chip} (h₁ : chip.led1Led0 ∉ S) (h₂ : chip.led3Led2 ∉ S) (hleds : LedsAccepted c)
    (isolate : Bool) :
    Ends (SeesOn rf S h₀ c m) (configLeds chip rf.toBus isolate) (fun _ => SeesOn rf S h₀ c m) E := by
  have hof : ∀ is, Ends (SeesOn rf S h₀ c m) (configLedsOf chip rf.toBus isolate is) (fun _ => SeesOn rf S h₀ c m) E := by
    intro is
    induction is with
    | nil => exact Ends.pure fun _ h => h
    | cons i is ih =>
      refine ends_getConf_on rf ((Ends.when (fun hled => ?_) fun _ _ h => h).bind fun _ => ih)
      obtain ⟨hv, hn⟩ := hleds i hled
      refine ends_configLed_off rf hs h₁ h₂ ?_ hn
      cases isolate with
      | true => exact Option.some_ne_none _
      | false => exact hv
  exact hof _

end On

end Lan80xx.T1
