import Lan80xx.VtssMacsec.Device

/-!
# MACsec of the VTSS PHYs: enabling and disabling the block

`vtss_macsec_init_set` takes up to three steps: the transition, the speed, and for an enable the MAC configuration. It
returns the code of the last one. Disabling the block clears the first entry of each table only.

- `errorOf_initSet`: when a request returns OK;
- `truthful_iff`: when an OK means that every step was answered, and that the stored flag is the requested one;
- `sameTables_iff`: when a disable and an enable lead back to the tables of the first enable;
- `init_transitions_iff`: both, for every state.
-/

namespace Lan80xx.VtssMacsec

open Fallible RegBus
variable {H : Type} (hw : Hw H) (phy : Phy)

/-! ## The steps of a request -/

section Steps

variable (init : Init) (s : Dev Conf H)

/-- The state in which the transition is decided. -/
def ready : Dev Conf H where
  conf := if phy.revb = true then s.conf.setGlb fun g => { g with macsecRevb := true } else s.conf
  hw := (hw.run .powerGet s.conf s.hw).2

/-- The request changes the setting. -/
abbrev Changes : Prop := (ready hw phy s).conf.glb.init.enable ≠ init.enable

/-- The state after the transition. -/
def moved : Dev Conf H :=
  if Changes hw phy init s then
    let t := final (transition hw phy init) (ready hw phy s)
    { t with conf := t.conf.setGlb fun g => { g with macBlockMtu := 10240 } }
  else ready hw phy s

/-- The state after the speed. -/
def sped : Dev Conf H := final (speedConf hw) (moved hw phy init s)

/-- The power mode is answered, and the port can do MACsec. -/
def Accepted : Prop := (hw.run .powerGet s.conf s.hw).1 = true ∧ phy.macsecCapable = true

/-- The registers of the transition are answered. -/
def TransitionAnswered : Prop := Changes hw phy init s → errorOf (transition hw phy init) (ready hw phy s) = none

def SpeedAnswered : Prop := errorOf (speedConf hw) (moved hw phy init s) = none

def MacAnswered : Prop := errorOf (hwOp hw (.macConf true) : Call H Unit) (sped hw phy init s) = none

/-- Every step of the request is answered. -/
def Programmed : Prop :=
  TransitionAnswered hw phy init s ∧ SpeedAnswered hw phy init s ∧ (init.enable = true → MacAnswered hw phy init s)

/-- The last step of the request is answered. -/
def LastAnswered : Prop := if init.enable = true then MacAnswered hw phy init s else SpeedAnswered hw phy init s

/-- The steps before the last one are. -/
def EarlierAnswered : Prop :=
  TransitionAnswered hw phy init s ∧ (init.enable = true → SpeedAnswered hw phy init s)

theorem programmed_iff : Programmed hw phy init s ↔ EarlierAnswered hw phy init s ∧ LastAnswered hw phy init s := by
  unfold Programmed EarlierAnswered LastAnswered
  cases init.enable <;> simp [and_assoc]

end Steps

/-! ## What a request returns -/

section Outcome

variable {hw phy} {init : Init} {s : Dev Conf H}

/-- A request on a port that takes it. -/
theorem initSet_accepted (hb : init.bypass = .none) (ha : Accepted hw phy s) : initSet hw phy init s =
    if init.enable = true then hwOp hw (.macConf true) (sped hw phy init s)
    else speedConf hw (moved hw phy init s) := by
  obtain ⟨hpow, hcap⟩ := ha
  have hpower : orFail (hwOp hw .powerGet : Call H Unit) .phyPoweredDown s =
      .ok () { s with hw := (hw.run .powerGet s.conf s.hw).2 } := by
    simp [orFail, hwOp, hpow]
  have hrev : (when (phy.revb = true) (modifyConf fun c => c.setGlb fun g => { g with macsecRevb := true }) : Call H Unit)
      { s with hw := (hw.run .powerGet s.conf s.hw).2 } = .ok () (ready hw phy s) := by
    unfold ready
    cases phy.revb <;> rfl
  have hmove : (when ((ready hw phy s).conf.glb.init.enable ≠ init.enable) do
      discard (attempt (transition hw phy init))
      modifyConf fun c => c.setGlb fun g => { g with macBlockMtu := 10240 } : Call H Unit) (ready hw phy s) =
      .ok () (moved hw phy init s) := by
    unfold moved
    by_cases h : Changes hw phy init s
    · rw [when, if_pos h, if_pos h]
      exact bind_of_ok (discard_attempt _ _)
    · rw [when, if_neg h, if_neg h]
      rfl
  have hconf : (getConf : Call H Conf) (ready hw phy s) = .ok (ready hw phy s).conf (ready hw phy s) := rfl
  unfold initSet
  rw [bind_of_ok hpower, failIf_bind_of_not (by simp [hcap]), if_neg (by simp [hb]), bind_of_ok hrev, bind_of_ok hconf,
    bind_of_ok hmove]
  split
  · rw [bind_of_ok (discard_attempt _ _)]
    rfl
  · rfl

theorem errorOf_rejected (ha : ¬Accepted hw phy s) : errorOf (initSet hw phy init) s ≠ none := by
  unfold initSet
  by_cases hpow : (hw.run .powerGet s.conf s.hw).1 = true
  · have hpower : orFail (hwOp hw .powerGet : Call H Unit) .phyPoweredDown s =
        .ok () { s with hw := (hw.run .powerGet s.conf s.hw).2 } := by
      simp [orFail, hwOp, hpow]
    have hcap : phy.macsecCapable = false := by
      simpa [Accepted, hpow] using ha
    simp only [errorOf, bind_of_ok hpower, failIf, when, if_pos hcap]
    exact Option.some_ne_none _
  · have hpower : orFail (hwOp hw .powerGet : Call H Unit) .phyPoweredDown s =
        .error .phyPoweredDown { s with hw := (hw.run .powerGet s.conf s.hw).2 } := by
      simp [orFail, hwOp, hpow]
    simp only [errorOf, bind_of_error hpower]
    exact Option.some_ne_none _

/-- A request returns OK when it is taken and its last step is answered. -/
theorem errorOf_initSet (hb : init.bypass = .none) :
    errorOf (initSet hw phy init) s = none ↔ Accepted hw phy s ∧ LastAnswered hw phy init s := by
  by_cases ha : Accepted hw phy s
  · unfold LastAnswered MacAnswered SpeedAnswered errorOf
    rw [initSet_accepted hb ha]
    cases init.enable <;> simp [ha]
  · simp [ha, errorOf_rejected ha]

/-- Its software state is the one after the transition. -/
theorem final_initSet (hb : init.bypass = .none) (ha : Accepted hw phy s) :
    (final (initSet hw phy init) s).conf = (moved hw phy init s).conf := by
  have hspeed : (sped hw phy init s).conf = (moved hw phy init s).conf :=
    (within_getConf.bind fun _ => Within.when fun _ => within_hwOp hw _ : Within confFrame (speedConf hw)) _
  unfold final
  rw [initSet_accepted hb ha]
  cases init.enable with
  | true => exact (within_hwOp hw (.macConf true) (sped hw phy init s)).trans hspeed
  | false => exact hspeed

end Outcome

/-! ## What a transition stores -/

namespace Conf

/-- What `vtss_macsec_init_set_priv` stores when the block is enabled. -/
def enabled (c : Conf) : Conf :=
  if c.glb.spdChangeMacsecRecfg = false then
    (c.setGlb fun g => { g with mtuConf := { mtu := mtuMax, drop := true } }).clearRules
  else c.releaseBypass cpRules

theorem releaseBypass_init (c : Conf) (n : Nat) : (c.releaseBypass n).glb.init = c.glb.init := by
  induction n with
  | zero => rfl
  | succ n ih =>
    simp only [releaseBypass]
    split
    · exact ih
    · exact ih

theorem enabled_init (c : Conf) : c.enabled.glb.init = c.glb.init := by
  unfold enabled
  split
  · rfl
  · exact releaseBypass_init c cpRules

end Conf

section Store

variable {hw phy} {c : Conf} {init : Init}

theorem ends_hwOp (op : HwOp) : Ends (fun s => s.conf = c) (hwOp hw op) (fun _ s => s.conf = c) fun s => s.conf = c :=
  (within_hwOp hw op).ends fun _ _ hs h => h.trans hs

theorem ends_step (op : HwOp) : Ends (fun s => s.conf = c) (hwOp hw op) (fun _ s => s.conf = c) fun _ => True :=
  (ends_hwOp op).weaken (fun _ _ h => h) fun _ _ => trivial

theorem ends_initTables : Ends (fun s => s.conf = c) (initTables hw) (fun _ s => s.conf = c.enabled) fun _ => True := by
  refine ends_getConf_bind (fun _ h => h) (Ends.ite (fun hrec => ?_) fun hrec => ?_)
  · refine (ends_step _).bind fun _ => ?_
    refine (ends_modifyConf_of (T := fun s =>
      s.conf = c.setGlb fun g => { g with mtuConf := { mtu := mtuMax, drop := true } }) fun s hs => by rw [hs]).bind
      fun _ => (ends_step _).bind fun _ => ends_modifyConf_of fun s hs => ?_
    rw [hs, Conf.enabled, if_pos hrec]
  · exact ends_modifyConf_of fun s hs => by rw [hs, Conf.enabled, if_neg hrec]

/-- Programming the transition changes the tables when everything is answered. -/
theorem ends_initSetPriv : Ends (fun s => s.conf = c) (initSetPriv hw phy init)
    (fun _ s => s.conf = if init.enable = true then c.enabled else c.disabled phy) fun _ => True := by
  unfold initSetPriv
  refine (ends_step _).bind fun _ => (ends_step _).bind fun _ => Ends.ite (fun hen => ?_) fun hdis => ?_
  · rw [if_pos hen]
    exact (ends_step _).bind fun _ => ends_initTables.bind fun _ => ends_step _
  · rw [if_neg hdis]
    exact (ends_step _).bind fun _ => ends_modifyConf_of fun s hs => by rw [hs]

/-- A transition stores the request and what goes with it, or leaves the setting as it was. -/
theorem ends_transition : Ends (fun s => s.conf = c) (transition hw phy init)
    (fun _ s => s.conf = if init.enable = true then (c.setGlb fun g => { g with init }).enabled
      else (c.setGlb fun g => { g with init }).disabled phy) fun s => s.conf.glb.init = c.glb.init := by
  refine ends_getConf_bind (fun _ h => h) ?_
  refine (ends_modifyConf_of (T := fun s => s.conf = c.setGlb fun g => { g with init })
    fun s hs => by rw [hs]).bind fun _ => ends_initSetPriv.onError fun s _ => rfl

end Store

/-! ## The setting -/

section Setting

variable {hw phy} {init : Init} {s s' s₁ s₂ t₀ t : Dev Conf H}

/-- The software state after a transition that is answered. -/
theorem moved_conf (hc : Changes hw phy init s) (ha : errorOf (transition hw phy init) (ready hw phy s) = none) :
    (moved hw phy init s).conf = (if init.enable = true then
      ((ready hw phy s).conf.setGlb fun g => { g with init }).enabled
      else ((ready hw phy s).conf.setGlb fun g => { g with init }).disabled phy).setGlb
        fun g => { g with macBlockMtu := 10240 } := by
  rw [moved, if_pos hc]
  rcases (@ends_transition H hw phy _ init).final (s := ready hw phy s) rfl with
    ⟨-, -, hQ⟩ | ⟨hne, -⟩
  · simp only [hQ]
  · exact absurd ha hne

/-- The setting is the requested one when the transition is answered. -/
theorem moved_enable (ha : TransitionAnswered hw phy init s) :
    (moved hw phy init s).conf.glb.init.enable = init.enable := by
  by_cases hc : Changes hw phy init s
  · rw [moved_conf hc (ha hc)]
    cases hen : init.enable with
    | true => simp [Conf.enabled_init, hen]
    | false => simp [Conf.disabled]
  · rw [moved, if_neg hc]
    exact not_not.mp hc

variable (hw phy init s) in
/-- An OK says that every step was answered, and that the setting is the requested one. -/
def Truthful : Prop := errorOf (initSet hw phy init) s = none →
  Programmed hw phy init s ∧ (final (initSet hw phy init) s).conf.glb.init.enable = init.enable

theorem truthful_iff (hb : init.bypass = .none) : Truthful hw phy init s ↔
    (Accepted hw phy s → LastAnswered hw phy init s → EarlierAnswered hw phy init s) := by
  constructor
  · intro h ha hl
    have hok := h ((errorOf_initSet hb).mpr ⟨ha, hl⟩)
    exact ((programmed_iff hw phy init s).mp hok.1).1
  · intro h hok
    obtain ⟨ha, hl⟩ := (errorOf_initSet hb).mp hok
    have he := h ha hl
    refine ⟨(programmed_iff hw phy init s).mpr ⟨he, hl⟩, ?_⟩
    rw [final_initSet hb ha]
    exact moved_enable he.1

/-! ## The tables -/

variable (phy) in
/-- SecYs, channels, SAs, patterns and control frame rules are the same. -/
structure SameTables (c c' : Conf) : Prop where
  secy : ∀ i < phy.maxSecyCnt, c.secy i = c'.secy i
  rxSc : ∀ p < phy.maxScCnt, c.rxSc p = c'.rxSc p
  rxSa : ∀ r < phy.maxSaCnt, c.rxSa r = c'.rxSa r
  txSa : ∀ r < phy.maxSaCnt, c.txSa r = c'.txSa r
  controlMatch : ∀ k < cpRules, c.glb.controlMatch k = c'.glb.controlMatch k
  egrBypassRecord : ∀ k < cpRules, c.glb.egrBypassRecord k = c'.glb.egrBypassRecord k

variable (phy) in
/-- No SecY points to a channel, and nothing is left in the tables, the first entries apart. -/
structure Vacated (c : Conf) : Prop where
  secy : ∀ i < phy.maxSecyCnt, (c.secy i).rxSc = fun _ => none
  rxSc : ∀ p < phy.maxScCnt, p ≠ 0 → c.rxSc p = {}
  rxSa : ∀ r < phy.maxSaCnt, r ≠ 0 → c.rxSa r = {}
  txSa : ∀ r < phy.maxSaCnt, r ≠ 0 → c.txSa r = {}

variable (hw phy init s s') in
/-- A request that is taken, and whose transition is answered. -/
structure Moves : Prop where
  final : s' = final (initSet hw phy init) s
  accepted : Accepted hw phy s
  changes : Changes hw phy init s
  answered : errorOf (transition hw phy init) (ready hw phy s) = none

theorem Moves.conf (h : Moves hw phy init s s') (hb : init.bypass = .none) :
    s'.conf = (moved hw phy init s).conf := by
  rw [h.final, final_initSet hb h.accepted]

variable (hw phy s) in
theorem ready_conf : ∃ b, (ready hw phy s).conf = s.conf.setGlb fun g => { g with macsecRevb := b } := by
  unfold ready
  cases phy.revb
  · exact ⟨s.conf.glb.macsecRevb, rfl⟩
  · exact ⟨true, rfl⟩

/-- What a port holds after the block is enabled, when the settings were those of the probe. -/
theorem enabled_tables {d : Bool} (h : Moves hw phy (.request true d) s s')
    (hrec : s.conf.glb.spdChangeMacsecRecfg = false) :
    s'.conf.secy = s.conf.secy ∧ s'.conf.rxSc = s.conf.rxSc ∧ s'.conf.rxSa = s.conf.rxSa ∧ s'.conf.txSa = s.conf.txSa ∧
      s'.conf.glb.controlMatch = s.conf.clearRules.glb.controlMatch ∧
      s'.conf.glb.egrBypassRecord = s.conf.clearRules.glb.egrBypassRecord := by
  obtain ⟨b, hb⟩ := ready_conf hw phy s
  rw [h.conf rfl, moved_conf h.changes h.answered, hb,
    if_pos (show (Init.request true d).enable = true from rfl), Conf.enabled, if_pos (by simp [hrec])]
  exact ⟨rfl, rfl, rfl, rfl, rfl, rfl⟩

/-- What a port holds after the block is disabled. -/
theorem disabled_tables {d : Bool} (h : Moves hw phy (.request false d) s s') :
    s'.conf.secy = (s.conf.disabled phy).secy ∧ s'.conf.rxSc = (s.conf.disabled phy).rxSc ∧
      s'.conf.rxSa = (s.conf.disabled phy).rxSa ∧ s'.conf.txSa = (s.conf.disabled phy).txSa ∧
      s'.conf.glb = { macBlockMtu := 10240 } := by
  obtain ⟨b, hb⟩ := ready_conf hw phy s
  rw [h.conf rfl, moved_conf h.changes h.answered, hb,
    if_neg (show ¬(Init.request false d).enable = true from Bool.false_ne_true)]
  exact ⟨rfl, rfl, rfl, rfl, rfl⟩

/-- A disable and an enable lead back to the tables of the first enable when the port was vacated before. -/
theorem sameTables_iff {d d₁ d₂ : Bool} (hoff : Moves hw phy (.request false d) s s₁)
    (hon : Moves hw phy (.request true d₁) s₁ s₂) (hprobed : t₀.conf = {})
    (hfirst : Moves hw phy (.request true d₂) t₀ t) : SameTables phy s₂.conf t.conf ↔ Vacated phy s.conf := by
  obtain ⟨hse, hsc, hra, hta, hglb⟩ := disabled_tables hoff
  obtain ⟨hse₂, hsc₂, hra₂, hta₂, hcm₂, heb₂⟩ := enabled_tables hon (by rw [hglb])
  obtain ⟨hse₀, hsc₀, hra₀, hta₀, hcm₀, heb₀⟩ := enabled_tables hfirst (by rw [hprobed])
  constructor
  · intro h
    refine ⟨fun i hi => ?_, fun p hp hne => ?_, fun r hr hne => ?_, fun r hr hne => ?_⟩
    · have hi' := h.secy i hi
      rw [hse₂, hse, hse₀, hprobed] at hi'
      simp only [Conf.disabled, if_pos hi] at hi'
      exact congrArg Secy.rxSc hi'
    · have hp' := h.rxSc p hp
      rw [hsc₂, hsc, hsc₀, hprobed] at hp'
      simpa [Conf.disabled, hne] using hp'
    · have hr' := h.rxSa r hr
      rw [hra₂, hra, hra₀, hprobed] at hr'
      simpa [Conf.disabled, hne] using hr'
    · have hr' := h.txSa r hr
      rw [hta₂, hta, hta₀, hprobed] at hr'
      simpa [Conf.disabled, hne] using hr'
  · intro h
    have hrule : s₁.conf.glb.controlMatch = t₀.conf.glb.controlMatch := by rw [hglb, hprobed]
    have hrec : s₁.conf.glb.egrBypassRecord = t₀.conf.glb.egrBypassRecord := by rw [hglb, hprobed]
    refine ⟨fun i hi => ?_, fun p hp => ?_, fun r hr => ?_, fun r hr => ?_, fun k _ => ?_, fun k _ => ?_⟩
    · rw [hse₂, hse, hse₀, hprobed]
      simp only [Conf.disabled, if_pos hi, h.secy i hi]
    · rw [hsc₂, hsc, hsc₀, hprobed]
      by_cases hne : p = 0
      · simp [Conf.disabled, hne]
      · simpa [Conf.disabled, hne] using h.rxSc p hp hne
    · rw [hra₂, hra, hra₀, hprobed]
      by_cases hne : r = 0
      · simp [Conf.disabled, hne]
      · simpa [Conf.disabled, hne] using h.rxSa r hr hne
    · rw [hta₂, hta, hta₀, hprobed]
      by_cases hne : r = 0
      · simp [Conf.disabled, hne]
      · simpa [Conf.disabled, hne] using h.txSa r hr hne
    · rw [hcm₂, hcm₀]
      simp only [Conf.clearRules, Conf.setGlb_glb, hrule]
    · rw [heb₂, heb₀]
      simp only [Conf.clearRules, Conf.setGlb_glb, hrec]

variable (hw phy s) in
/-- **Requests.** From every state an OK is truthful when the steps before the last one are answered whenever the last
one is, and a disable and an enable restore the tables when they were vacated before. -/
theorem init_transitions_iff :
    (∀ init : Init, init.bypass = .none → (Truthful hw phy init s ↔
      (Accepted hw phy s → LastAnswered hw phy init s → EarlierAnswered hw phy init s))) ∧
    ∀ (d d₁ d₂ : Bool) (s₁ s₂ t₀ t : Dev Conf H), Moves hw phy (.request false d) s s₁ →
      Moves hw phy (.request true d₁) s₁ s₂ → t₀.conf = {} → Moves hw phy (.request true d₂) t₀ t →
      (SameTables phy s₂.conf t.conf ↔ Vacated phy s.conf) :=
  ⟨fun _ hb => truthful_iff hb, fun _ _ _ _ _ _ _ => sameTables_iff⟩

end Setting

/-! ## A disable with two SAs left -/

/-- A SecY with a channel and two SAs, none of them deleted before the disable. -/
def crowded : List Op :=
  [.initSet (.request true false), .secyConfAdd (benchPort 1) benchSecy, .rxScAdd (benchPort 1) benchSci,
    .rxSaSet (benchPort 1) benchSci 0 1 {} none, .rxSaSet (benchPort 1) benchSci 1 1 {} none]

/-- Hardware that answers every access but those of the set-up of the block. -/
def deaf : Hw Unit where
  run op _ h := (match op with | .initBlock => false | _ => true, h)
  nextPn _ _ _ h := (some 0, h)

/-- The port of `crowded`, disabled and enabled again. -/
def recreated : Dev Conf Unit :=
  calls bench benchPhy (crowded ++ [.initSet (.request false false), .initSet (.request true false)]) benchProbed

theorem init_transitions_bench :
    (Truthful bench benchPhy (.request true false) benchProbed ↔ (Accepted bench benchPhy benchProbed →
      LastAnswered bench benchPhy (.request true false) benchProbed →
      EarlierAnswered bench benchPhy (.request true false) benchProbed)) ∧
    (SameTables benchPhy recreated.conf (final (initSet bench benchPhy (.request true false)) benchProbed).conf ↔
      Vacated benchPhy (calls bench benchPhy crowded benchProbed).conf) := by
  have hoff : Moves bench benchPhy (.request false false) (calls bench benchPhy crowded benchProbed)
      (calls bench benchPhy (crowded ++ [.initSet (.request false false)]) benchProbed) :=
    ⟨rfl, ⟨rfl, rfl⟩, by decide, by decide⟩
  have hon : Moves bench benchPhy (.request true false)
      (calls bench benchPhy (crowded ++ [.initSet (.request false false)]) benchProbed) recreated :=
    ⟨rfl, ⟨rfl, rfl⟩, by decide, by decide⟩
  have hfirst : Moves bench benchPhy (.request true false) benchProbed
      (final (initSet bench benchPhy (.request true false)) benchProbed) := ⟨rfl, ⟨rfl, rfl⟩, by decide, by decide⟩
  exact ⟨(init_transitions_iff bench benchPhy benchProbed).1 _ rfl,
    (init_transitions_iff bench benchPhy (calls bench benchPhy crowded benchProbed)).2 _ _ _ _ _ _ _ hoff hon rfl hfirst⟩

theorem init_transitions_fail :
    (Reachable deaf benchPhy benchProbed ∧
      errorOf (initSet deaf benchPhy (.request true false)) benchProbed = none ∧
      (final (initSet deaf benchPhy (.request true false)) benchProbed).conf.glb.init.enable = false) ∧
    (Reachable bench benchPhy recreated ∧ ((recreated.conf.rxSa 1).inUse = true ∧ (recreated.conf.secy 0).rxSc 0 = some 0) ∧
      ¬SameTables benchPhy recreated.conf (final (initSet bench benchPhy (.request true false)) benchProbed).conf) := by
  refine ⟨⟨⟨[], (), rfl⟩, by decide, by decide⟩, reachable_calls _ _ _ (), ⟨by decide, by decide⟩, fun h => ?_⟩
  have hsa := congrArg RxSa.inUse (h.rxSa 1 (by decide))
  revert hsa
  decide

end Lan80xx.VtssMacsec
