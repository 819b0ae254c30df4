import Lan80xx.Lib.RegWords
import Lan80xx.Macsec.TraceSecy
import Mathlib.Data.List.Nodup
import Mathlib.Tactic.IntervalCases

/-!
# MACsec: control-frame rules

A port matches control frames by destination address, by Ethertype, or by both. A rule has an id, which is its slot in
the classifier: two slots for rules on both, eight for Ethertypes, eight for addresses. `control_match` is the software
table of the rules, and both directions' classifiers hold them.

- `CpRun`: calls of `_conf_set` and `_conf_del`, with the rules accepted and not yet deleted;
- `cp_run`: table and classifiers hold exactly these rules, as long as no rule combines one of the two kinds with
  another flag, and no access fails.
-/

namespace Lan80xx.Macsec

open Fallible RegBus MacsecConf

variable {H : Type}

/-! ## Ids and registers -/

/-- `LAN80XX_MACSEC_DMAC_AND_ETHTYPE_RULE_ID_END` -/
def dmacAndEthtypeRuleIdEnd : Nat := 2

/-- `LAN80XX_MACSEC_MAX_ETHTYPE_RULE_ID_END` -/
def maxEthtypeRuleIdEnd : Nat := 10

/-- `LAN80XX_MACSEC_MAX_DMAC_RULE_ID_END` -/
def maxDmacRuleIdEnd : Nat := 18

/-- `LAN80XX_MACSEC_CP_RULES` -/
def cpRules : Nat := 8 + 8 + 2

/-- The registers `CLASSIFIER_CONTROL_PACKET_CP_*`. -/
inductive CpReg
  | matchMode
  | matchEnable
  | macDaMatch (ri : Nat)
  | macDaEtMatch (ri : Nat)
  | macDaStartLo (ri : Nat)
  | macDaStartHi (ri : Nat)
  | macDaEndLo (ri : Nat)
  | macDaEndHi (ri : Nat)
  deriving DecidableEq, Repr

def CpReg.addr : CpReg → Nat
  | .matchMode => 0x1E3E
  | .matchEnable => 0x1E3F
  | .macDaMatch ri => 0x1E00 ||| (ri * 2)
  | .macDaEtMatch ri => 0x1E01 ||| (ri * 2)
  | .macDaStartLo ri => 0x1E18 ||| (ri * 4)
  | .macDaStartHi ri => 0x1E19 ||| (ri * 4)
  | .macDaEndLo ri => 0x1E1A ||| (ri * 4)
  | .macDaEndHi ri => 0x1E1B ||| (ri * 4)

def cpReg (d : Direction) (k : CpReg) : IoReg := ioreg d k.addr

/-! ## The calls -/

section Calls

variable (bus : PortBus H)

/-- `conf->match & flag` -/
abbrev ControlFrameMatchConf.asks (conf : ControlFrameMatchConf) (flag : BitVec 32) : Prop := conf.match &&& flag ≠ 0#32

/-- The loop over the ids of one kind: the first one that is not used, and its index within the kind. -/
def cpRuleFree (lo hi : Nat) : Call H (Nat × Nat) := do
  let c ← getConf
  match ((List.range (hi - lo)).map (lo + ·)).find? fun i => (c.glb.controlMatch i).match = matchDisable with
  | some i => return (i - lo, i)
  | none => dbgCounterIncr .allCpRulesInUse

/-- `lan80xx_cp_rule_id_get`: the index within the kind, and the id. -/
def cpRuleIdGet (conf : ControlFrameMatchConf) (rule : Nat) (store : Bool) : Call H (Nat × Nat) :=
  if store = false then
    if rule < dmacAndEthtypeRuleIdEnd then return (rule, rule)
    else if rule < maxEthtypeRuleIdEnd then return (rule - dmacAndEthtypeRuleIdEnd, rule)
    else return (rule - maxEthtypeRuleIdEnd, rule)
  else if conf.asks matchEtype ∧ conf.asks matchDmac then cpRuleFree 0 dmacAndEthtypeRuleIdEnd
  else if conf.asks matchEtype then cpRuleFree dmacAndEthtypeRuleIdEnd maxEthtypeRuleIdEnd
  else if conf.asks matchDmac then cpRuleFree maxEthtypeRuleIdEnd maxDmacRuleIdEnd
  else if conf.asks matchDisable then dbgCounterIncr .matchDisable
  else dbgCounterIncr .unexpectCpMode

/-- `MACSEC_BS(conf->etype)` in the Ethertype field. -/
def etherTypeMatch (conf : ControlFrameMatchConf) : BitVec 32 := field (macsecBs (conf.etype.setWidth 32)) 16 16

/-- The last two bytes of the address, in their fields. -/
def macDaMatchHi (conf : ControlFrameMatchConf) : BitVec 32 :=
  field (byteAt conf.dmac 4) 0 8 ||| field (byteAt conf.dmac 5) 8 8

/-- `conf->match == MEPA_MACSEC_MATCH_ETYPE` -/
def cpEtypeSet (conf : ControlFrameMatchConf) (indx : Nat) (parsedEtype : BitVec 32) (store : Bool) : Call H Unit := do
  csrWarmWrm bus (cpReg .ingress .matchMode) ((parsedEtype <<< 8) <<< indx) ((parsedEtype <<< 8) <<< indx)
  csrWarmWrm bus (cpReg .egress .matchMode) ((parsedEtype <<< 8) <<< indx) ((parsedEtype <<< 8) <<< indx)
  csrWrm bus (cpReg .ingress (.macDaEtMatch indx)) (etherTypeMatch conf) (bitmask 16 16)
  csrWrm bus (cpReg .egress (.macDaEtMatch indx)) (etherTypeMatch conf) (bitmask 16 16)
  csrWrm bus (cpReg .ingress .matchEnable) (if store then bit indx <<< 8 else 0) (bit indx <<< 8)
  csrWrm bus (cpReg .egress .matchEnable) (if store then bit indx <<< 8 else 0) (bit indx <<< 8)

/-- `conf->match == MEPA_MACSEC_MATCH_DMAC` -/
def cpDmacSet (conf : ControlFrameMatchConf) (indx : Nat) (store : Bool) : Call H Unit := do
  csrWr bus (cpReg .ingress (.macDaMatch indx)) (getU32 conf.dmac 0)
  csrWrm bus (cpReg .ingress (.macDaEtMatch indx)) (macDaMatchHi conf) (bitmask 0 8 ||| bitmask 8 8)
  csrWr bus (cpReg .egress (.macDaMatch indx)) (getU32 conf.dmac 0)
  csrWrm bus (cpReg .egress (.macDaEtMatch indx)) (macDaMatchHi conf) (bitmask 0 8 ||| bitmask 8 8)
  csrWrm bus (cpReg .ingress .matchEnable) (if store then bit indx else 0) (bit indx)
  csrWrm bus (cpReg .egress .matchEnable) (if store then bit indx else 0) (bit indx)

/-- `conf->match & MEPA_MACSEC_MATCH_DMAC && conf->match & MEPA_MACSEC_MATCH_ETYPE` -/
def cpDmacEtypeSet (conf : ControlFrameMatchConf) (indx : Nat) (parsedEtype : BitVec 32) (store : Bool) :
    Call H Unit := do
  csrWr bus (cpReg .ingress (.macDaStartLo indx)) (getU32 conf.dmac 0)
  csrWr bus (cpReg .ingress (.macDaEndLo indx)) (getU32 conf.dmac 0)
  csrWr bus (cpReg .ingress (.macDaStartHi indx)) (macDaMatchHi conf ||| etherTypeMatch conf)
  csrWr bus (cpReg .ingress (.macDaEndHi indx)) (macDaMatchHi conf ||| etherTypeMatch conf)
  csrWr bus (cpReg .egress (.macDaStartLo indx)) (getU32 conf.dmac 0)
  csrWr bus (cpReg .egress (.macDaEndLo indx)) (getU32 conf.dmac 0)
  csrWr bus (cpReg .egress (.macDaStartHi indx)) (macDaMatchHi conf ||| etherTypeMatch conf)
  csrWr bus (cpReg .egress (.macDaEndHi indx)) (macDaMatchHi conf ||| etherTypeMatch conf)
  csrWarmWrm bus (cpReg .ingress .matchMode) ((parsedEtype <<< 16) <<< indx) ((parsedEtype <<< 16) <<< indx)
  csrWrm bus (cpReg .ingress .matchEnable) (if store then bit indx <<< 16 else 0) (bit indx <<< 16)
  csrWarmWrm bus (cpReg .egress .matchMode) ((parsedEtype <<< 16) <<< indx) ((parsedEtype <<< 16) <<< indx)
  csrWrm bus (cpReg .egress .matchEnable) (if store then bit indx <<< 16 else 0) (bit indx <<< 16)

/-- `parsed_etype`: 0 when the header is bypassed. -/
def parsedEtype (c : MacsecConf) : BitVec 32 := if c.glb.bypassMode = .hdr then 0#32 else 1#32

/-- `lan80xx_macsec_control_frame_match_conf_set_`: the slot is chosen by single flags, while the registers of one kind
are written only when `match` is that flag alone. -/
def controlFrameMatchConfSet_ (conf : ControlFrameMatchConf) (ruleId : Nat) (store : Bool) : Call H Nat := do
  let slot ← cpRuleIdGet conf ruleId store
  let c ← getConf
  when (conf.match = matchEtype) (cpEtypeSet bus conf slot.1 (parsedEtype c) store)
  when (conf.match = matchDmac) (cpDmacSet bus conf slot.1 store)
  when (conf.asks matchDmac ∧ conf.asks matchEtype) (cpDmacEtypeSet bus conf slot.1 (parsedEtype c) store)
  return slot.2

/-- The table with another entry for a rule. -/
def setControlMatch (id : Nat) (conf : ControlFrameMatchConf) (c : MacsecConf) : MacsecConf :=
  { c with glb := { c.glb with controlMatch := Function.update c.glb.controlMatch id conf } }

/-- `lan80xx_macsec_control_frame_match_conf_set_priv`; the id is what it returns through `rule_id`. -/
def controlFrameMatchConfSet (conf : ControlFrameMatchConf) : Call H Nat := do
  let c ← getConf
  failIf (c.glb.initEnable = false) .error
  let id ← controlFrameMatchConfSet_ bus conf 0 true
  modifyConf (setControlMatch id conf)
  return id

/-- `lan80xx_macsec_control_frame_match_conf_del_priv`: the table entry goes, whether the registers could be written or
not. -/
def controlFrameMatchConfDel (ruleId : Nat) : Call H Unit := do
  let c ← getConf
  failIf (cpRules ≤ ruleId) (.macsec .ruleOutOfRange)
  failIf ((c.glb.controlMatch ruleId).match = matchDisable) (.macsec .ruleNotExist)
  let _ ← afterwards (controlFrameMatchConfSet_ bus (c.glb.controlMatch ruleId) ruleId false) fun s =>
    { s with conf := setControlMatch ruleId { «match» := matchDisable } s.conf }

/-- `lan80xx_macsec_control_frame_match_conf_get_priv` -/
def controlFrameMatchConfGet (ruleId : Nat) : Call H ControlFrameMatchConf := do
  failIf (cpRules ≤ ruleId) (.macsec .ruleOutOfRange)
  let c ← getConf
  return c.glb.controlMatch ruleId

end Calls

/-! ## The bits of a rule -/

/-- The kinds of registers have this many of them. -/
def CpReg.Valid : CpReg → Prop
  | .matchMode | .matchEnable => True
  | .macDaMatch ri | .macDaEtMatch ri => ri < 8
  | .macDaStartLo ri | .macDaStartHi ri | .macDaEndLo ri | .macDaEndHi ri => ri < 2

theorem CpReg.valid_matchMode : CpReg.matchMode.Valid := trivial

theorem CpReg.valid_matchEnable : CpReg.matchEnable.Valid := trivial

/-- The rule that a bit belongs to. -/
def CpReg.owner : CpReg → Nat → Option Nat
  | .matchMode, b | .matchEnable, b =>
    if b < 8 then some (maxEthtypeRuleIdEnd + b) else if b < 16 then some (dmacAndEthtypeRuleIdEnd + (b - 8))
    else if b < 18 then some (b - 16) else none
  | .macDaMatch ri, _ => some (maxEthtypeRuleIdEnd + ri)
  | .macDaEtMatch ri, b => some (if b < 16 then maxEthtypeRuleIdEnd + ri else dmacAndEthtypeRuleIdEnd + ri)
  | .macDaStartLo ri, _ | .macDaStartHi ri, _ | .macDaEndLo ri, _ | .macDaEndHi ri, _ => some ri

/-- All registers of a direction. -/
def CpReg.all : List CpReg :=
  [CpReg.matchMode, CpReg.matchEnable] ++ (List.range 8).flatMap (fun ri => [CpReg.macDaMatch ri, CpReg.macDaEtMatch ri]) ++
    (List.range 2).flatMap fun ri =>
      [CpReg.macDaStartLo ri, CpReg.macDaStartHi ri, CpReg.macDaEndLo ri, CpReg.macDaEndHi ri]

theorem CpReg.mem_all {k : CpReg} (hk : k.Valid) : k ∈ CpReg.all := by
  cases k <;> simp_all [CpReg.all, CpReg.Valid]

theorem CpReg.addr_inj {k k' : CpReg} (hk : k.Valid) (hk' : k'.Valid) (h : k.addr % 2 ^ 16 = k'.addr % 2 ^ 16) :
    k = k' := by
  have hall : ∀ k ∈ CpReg.all, ∀ k' ∈ CpReg.all, k.addr % 2 ^ 16 = k'.addr % 2 ^ 16 → k = k' := by decide
  exact hall k (CpReg.mem_all hk) k' (CpReg.mem_all hk') h

theorem cpReg_inj {d d' : Direction} {k k' : CpReg} (hk : k.Valid) (hk' : k'.Valid) (h : cpReg d k = cpReg d' k') :
    d = d' ∧ k = k' := by
  obtain ⟨hmmd, haddr⟩ := IoReg.mk.inj h
  refine ⟨?_, CpReg.addr_inj hk hk' haddr⟩
  cases d <;> cases d' <;> first | rfl | cases hmmd

theorem cpReg_not_status {d : Direction} {k : CpReg} (hk : k.Valid) : ¬statusReg (cpReg d k) := by
  have hall : ∀ k ∈ CpReg.all, ¬statusReg (cpReg .ingress k) ∧ ¬statusReg (cpReg .egress k) := by decide
  cases d
  · exact (hall k (CpReg.mem_all hk)).1
  · exact (hall k (CpReg.mem_all hk)).2

theorem cpReg_not_live {d : Direction} {k : CpReg} (hk : k.Valid) : ¬liveReg (cpReg d k) := by
  have hall : ∀ k ∈ CpReg.all, ¬liveReg (cpReg .ingress k) ∧ ¬liveReg (cpReg .egress k) := by
    unfold liveReg
    decide
  cases d
  · exact (hall k (CpReg.mem_all hk)).1
  · exact (hall k (CpReg.mem_all hk)).2

/-- The patch touches only bits of `o`. -/
def CpOwned (o : Option Nat) (p : Patch IoReg 32) : Prop :=
  ∃ d k, k.Valid ∧ p.reg = cpReg d k ∧ ∀ b, p.mask.getLsbD b = true → k.owner b = o

theorem CpOwned.apart {o o' : Option Nat} {p q : Patch IoReg 32} (hp : CpOwned o p) (hq : CpOwned o' q) (hne : o ≠ o') :
    p.Apart q := by
  obtain ⟨d, k, hk, hreg, hbits⟩ := hp
  obtain ⟨d', k', hk', hreg', hbits'⟩ := hq
  intro hr
  rw [hreg, hreg'] at hr
  obtain ⟨rfl, rfl⟩ := cpReg_inj hk hk' hr
  apply BitVec.eq_of_getLsbD_eq
  intro b _
  rw [BitVec.getLsbD_and, BitVec.getLsbD_zero]
  by_contra hb
  obtain ⟨hb₁, hb₂⟩ : p.mask.getLsbD b = true ∧ q.mask.getLsbD b = true := by simpa using hb
  exact hne ((hbits b hb₁).symm.trans (hbits' b hb₂))

theorem getLsbD_bitmask {o n b : Nat} (h : (bitmask o n).getLsbD b = true) : o ≤ b ∧ b < o + n := by
  simp only [bitmask, BitVec.getLsbD_shiftLeft, BitVec.getLsbD_ofNat, Nat.testBit_two_pow_sub_one] at h
  simp at h
  omega

theorem bit_shiftLeft (i n : Nat) : bit i <<< n = 1#32 <<< (i + n) := by
  rw [bit, BitVec.shiftLeft_add]

/-! ## What a call writes -/

/-- The bit of the rule in `CP_MATCH_ENABLE`: addresses, Ethertypes, both. -/
def cpEnableBit (id : Nat) : Nat :=
  if id < dmacAndEthtypeRuleIdEnd then 16 + id
  else if id < maxEthtypeRuleIdEnd then 8 + (id - dmacAndEthtypeRuleIdEnd) else id - maxEthtypeRuleIdEnd

def cpEnable (d : Direction) (id : Nat) (v : Bool) : Patch IoReg 32 := bitPatch (cpReg d .matchEnable) (cpEnableBit id) v

/-- The match values of a rule, in one direction: every field it asks to match. -/
def cpValues (d : Direction) (id : Nat) (conf : ControlFrameMatchConf) : List (Patch IoReg 32) :=
  if id < dmacAndEthtypeRuleIdEnd then
    [⟨cpReg d (.macDaStartLo id), getU32 conf.dmac 0, BitVec.allOnes 32⟩,
     ⟨cpReg d (.macDaEndLo id), getU32 conf.dmac 0, BitVec.allOnes 32⟩,
     ⟨cpReg d (.macDaStartHi id), macDaMatchHi conf ||| etherTypeMatch conf, BitVec.allOnes 32⟩,
     ⟨cpReg d (.macDaEndHi id), macDaMatchHi conf ||| etherTypeMatch conf, BitVec.allOnes 32⟩]
  else if id < maxEthtypeRuleIdEnd then
    [⟨cpReg d (.macDaEtMatch (id - dmacAndEthtypeRuleIdEnd)), etherTypeMatch conf, bitmask 16 16⟩]
  else
    [⟨cpReg d (.macDaMatch (id - maxEthtypeRuleIdEnd)), getU32 conf.dmac 0, BitVec.allOnes 32⟩,
     ⟨cpReg d (.macDaEtMatch (id - maxEthtypeRuleIdEnd)), macDaMatchHi conf, bitmask 0 8 ||| bitmask 8 8⟩]

/-- The match mode of a rule that matches an Ethertype. -/
def cpMode (d : Direction) (id : Nat) (parsedEtype : BitVec 32) : Patch IoReg 32 :=
  ⟨cpReg d .matchMode, (parsedEtype <<< cpEnableBit id), (parsedEtype <<< cpEnableBit id)⟩

/-- All writes of the call, in its order. -/
def cpWrites (id : Nat) (conf : ControlFrameMatchConf) (parsedEtype : BitVec 32) (v : Bool) : List (Patch IoReg 32) :=
  if id < dmacAndEthtypeRuleIdEnd then
    cpValues .ingress id conf ++ cpValues .egress id conf ++
      [cpMode .ingress id parsedEtype, cpEnable .ingress id v, cpMode .egress id parsedEtype, cpEnable .egress id v]
  else if id < maxEthtypeRuleIdEnd then
    [cpMode .ingress id parsedEtype, cpMode .egress id parsedEtype] ++ cpValues .ingress id conf ++
      cpValues .egress id conf ++ [cpEnable .ingress id v, cpEnable .egress id v]
  else cpValues .ingress id conf ++ cpValues .egress id conf ++ [cpEnable .ingress id v, cpEnable .egress id v]

section Writes

variable {id : Nat} {conf : ControlFrameMatchConf} {e : BitVec 32} {v : Bool} {d : Direction}

theorem cpEnable_mem : cpEnable d id v ∈ cpWrites id conf e v := by
  unfold cpWrites
  cases d <;> split
  · simp
  · split <;> simp
  · simp
  · split <;> simp

theorem cpValues_subset {p : Patch IoReg 32} (hp : p ∈ cpValues d id conf) : p ∈ cpWrites id conf e v := by
  unfold cpWrites
  cases d <;> split
  · simp [hp]
  · split <;> simp [hp]
  · simp [hp]
  · split <;> simp [hp]

theorem cpEnableBit_lt (hid : id < cpRules) : cpEnableBit id < 18 := by
  simp only [cpRules] at hid
  interval_cases id <;> decide

theorem owner_enable (hid : id < cpRules) : CpReg.matchEnable.owner (cpEnableBit id) = some id := by
  simp only [cpRules] at hid
  interval_cases id <;> rfl

theorem cpEnable_owned (hid : id < cpRules) : CpOwned (some id) (cpEnable d id v) := by
  refine ⟨d, .matchEnable, trivial, rfl, ?_⟩
  intro b hb
  have hlt := cpEnableBit_lt hid
  simp only [cpEnable, bitPatch, getLsbD_one_shiftLeft (w := 32) (cpEnableBit id) b (by omega)] at hb
  rw [of_decide_eq_true hb, owner_enable hid]

theorem cpValues_owned (hid : id < cpRules) : ∀ p ∈ cpValues d id conf, CpOwned (some id) p := by
  simp only [cpRules] at hid
  intro p hp
  unfold cpValues at hp
  split at hp
  · next h2 =>
    simp only [List.mem_cons, List.not_mem_nil, or_false] at hp
    rcases hp with rfl | rfl | rfl | rfl
    · exact ⟨d, .macDaStartLo id, h2, rfl, fun _ _ => rfl⟩
    · exact ⟨d, .macDaEndLo id, h2, rfl, fun _ _ => rfl⟩
    · exact ⟨d, .macDaStartHi id, h2, rfl, fun _ _ => rfl⟩
    · exact ⟨d, .macDaEndHi id, h2, rfl, fun _ _ => rfl⟩
  · split at hp
    · next h2 h10 =>
      simp only [dmacAndEthtypeRuleIdEnd, maxEthtypeRuleIdEnd] at h2 h10
      rw [List.mem_singleton] at hp
      subst hp
      refine ⟨d, .macDaEtMatch (id - 2), by simp only [CpReg.Valid]; omega, rfl, fun b hb => ?_⟩
      have hbit := getLsbD_bitmask hb
      have hge : ¬b < 16 := by omega
      simp only [CpReg.owner, hge, if_false, dmacAndEthtypeRuleIdEnd, Option.some.injEq]
      omega
    · next h2 h10 =>
      simp only [dmacAndEthtypeRuleIdEnd, maxEthtypeRuleIdEnd] at h2 h10
      simp only [List.mem_cons, List.not_mem_nil, or_false] at hp
      rcases hp with rfl | rfl
      · refine ⟨d, .macDaMatch (id - 10), by simp only [CpReg.Valid]; omega, rfl, fun b hb => ?_⟩
        simp only [CpReg.owner, maxEthtypeRuleIdEnd, Option.some.injEq]
        omega
      · refine ⟨d, .macDaEtMatch (id - 10), by simp only [CpReg.Valid]; omega, rfl, fun b hb => ?_⟩
        have hlt : b < 16 := by
          rw [BitVec.getLsbD_or, Bool.or_eq_true] at hb
          rcases hb with hb | hb
          · have := getLsbD_bitmask hb
            omega
          · have := getLsbD_bitmask hb
            omega
        simp only [CpReg.owner, hlt, if_true, maxEthtypeRuleIdEnd, Option.some.injEq]
        omega

theorem cpMode_owned (hid : id < cpRules) (he : e = 0#32 ∨ e = 1#32) : CpOwned (some id) (cpMode d id e) := by
  refine ⟨d, .matchMode, trivial, rfl, ?_⟩
  intro b hb
  have hlt := cpEnableBit_lt hid
  rcases he with rfl | rfl
  · simp [cpMode] at hb
  · simp only [cpMode, getLsbD_one_shiftLeft (w := 32) (cpEnableBit id) b (by omega)] at hb
    rw [of_decide_eq_true hb]
    exact owner_enable hid

/-- Every bit the call writes belongs to the rule. -/
theorem cpWrites_owned (hid : id < cpRules) (he : e = 0#32 ∨ e = 1#32) :
    ∀ p ∈ cpWrites id conf e v, CpOwned (some id) p := by
  intro p hp
  have hval : ∀ d, p ∈ cpValues d id conf → CpOwned (some id) p := fun d h => cpValues_owned hid p h
  unfold cpWrites at hp
  split at hp
  · simp only [List.mem_append, List.mem_cons, List.not_mem_nil, or_false] at hp
    rcases hp with (hp | hp) | rfl | rfl | rfl | rfl
    · exact hval _ hp
    · exact hval _ hp
    · exact cpMode_owned hid he
    · exact cpEnable_owned hid
    · exact cpMode_owned hid he
    · exact cpEnable_owned hid
  · split at hp
    · simp only [List.mem_append, List.mem_cons, List.not_mem_nil, or_false] at hp
      rcases hp with (((rfl | rfl) | hp) | hp) | rfl | rfl
      · exact cpMode_owned hid he
      · exact cpMode_owned hid he
      · exact hval _ hp
      · exact hval _ hp
      · exact cpEnable_owned hid
      · exact cpEnable_owned hid
    · simp only [List.mem_append, List.mem_cons, List.not_mem_nil, or_false] at hp
      rcases hp with (hp | hp) | rfl | rfl
      · exact hval _ hp
      · exact hval _ hp
      · exact cpEnable_owned hid
      · exact cpEnable_owned hid

/-- The registers of a rule, in the order of the writes. -/
def cpKeys (id : Nat) : List (Direction × CpReg) :=
  if id < dmacAndEthtypeRuleIdEnd then
    [(.ingress, .macDaStartLo id), (.ingress, .macDaEndLo id), (.ingress, .macDaStartHi id), (.ingress, .macDaEndHi id),
     (.egress, .macDaStartLo id), (.egress, .macDaEndLo id), (.egress, .macDaStartHi id), (.egress, .macDaEndHi id),
     (.ingress, .matchMode), (.ingress, .matchEnable), (.egress, .matchMode), (.egress, .matchEnable)]
  else if id < maxEthtypeRuleIdEnd then
    [(.ingress, .matchMode), (.egress, .matchMode), (.ingress, .macDaEtMatch (id - dmacAndEthtypeRuleIdEnd)),
     (.egress, .macDaEtMatch (id - dmacAndEthtypeRuleIdEnd)), (.ingress, .matchEnable), (.egress, .matchEnable)]
  else
    [(.ingress, .macDaMatch (id - maxEthtypeRuleIdEnd)), (.ingress, .macDaEtMatch (id - maxEthtypeRuleIdEnd)),
     (.egress, .macDaMatch (id - maxEthtypeRuleIdEnd)), (.egress, .macDaEtMatch (id - maxEthtypeRuleIdEnd)),
     (.ingress, .matchEnable), (.egress, .matchEnable)]

theorem cpWrites_regs : (cpWrites id conf e v).map Patch.reg = (cpKeys id).map fun x => cpReg x.1 x.2 := by
  simp only [cpWrites, cpValues, cpKeys]
  split
  · rfl
  · split <;> rfl

theorem cpKeys_nodup : (cpKeys id).Nodup := by
  unfold cpKeys
  split
  · simp
  · split <;> simp

theorem cpKeys_valid (hid : id < cpRules) : ∀ x ∈ cpKeys id, x.2.Valid := by
  simp only [cpRules] at hid
  intro x hx
  unfold cpKeys at hx
  split at hx
  · next h2 =>
    simp only [dmacAndEthtypeRuleIdEnd] at h2
    simp only [List.mem_cons, List.not_mem_nil, or_false] at hx
    rcases hx with rfl | rfl | rfl | rfl | rfl | rfl | rfl | rfl | rfl | rfl | rfl | rfl <;> simp [CpReg.Valid, h2]
  · split at hx
    · next h2 h10 =>
      simp only [dmacAndEthtypeRuleIdEnd, maxEthtypeRuleIdEnd] at h2 h10
      simp only [List.mem_cons, List.not_mem_nil, or_false] at hx
      rcases hx with rfl | rfl | rfl | rfl | rfl | rfl <;> simp [CpReg.Valid, dmacAndEthtypeRuleIdEnd] <;> omega
    · next h2 h10 =>
      simp only [dmacAndEthtypeRuleIdEnd, maxEthtypeRuleIdEnd] at h2 h10
      simp only [List.mem_cons, List.not_mem_nil, or_false] at hx
      rcases hx with rfl | rfl | rfl | rfl | rfl | rfl <;> simp [CpReg.Valid, maxEthtypeRuleIdEnd] <;> omega

/-- The call writes every register once. -/
theorem cpWrites_pairwise (hid : id < cpRules) : (cpWrites id conf e v).Pairwise Patch.Apart := by
  have hnodup : ((cpWrites id conf e v).map Patch.reg).Nodup := by
    rw [cpWrites_regs]
    refine List.Nodup.map_on ?_ cpKeys_nodup
    intro x hx y hy hxy
    obtain ⟨hd, hk⟩ := cpReg_inj (cpKeys_valid hid x hx) (cpKeys_valid hid y hy) hxy
    exact Prod.ext hd hk
  exact (List.pairwise_map.mp hnodup).imp Patch.apart_of_ne

end Writes

/-! ## The calls as patches -/

/-- A rule that matches one of address and Ethertype sets no other flag. -/
def ControlFrameMatchConf.Tidy (conf : ControlFrameMatchConf) : Prop :=
  (conf.asks matchEtype → ¬conf.asks matchDmac → conf.match = matchEtype) ∧
    (conf.asks matchDmac → ¬conf.asks matchEtype → conf.match = matchDmac)

/-- The ids for rules that match what this one does. -/
def ControlFrameMatchConf.InKind (conf : ControlFrameMatchConf) (id : Nat) : Prop :=
  if conf.asks matchEtype ∧ conf.asks matchDmac then id < dmacAndEthtypeRuleIdEnd
  else if conf.asks matchEtype then dmacAndEthtypeRuleIdEnd ≤ id ∧ id < maxEthtypeRuleIdEnd
  else conf.asks matchDmac ∧ maxEthtypeRuleIdEnd ≤ id ∧ id < maxDmacRuleIdEnd

/-- The index of a rule among those of its kind. -/
def cpIndex (id : Nat) : Nat :=
  if id < dmacAndEthtypeRuleIdEnd then id
  else if id < maxEthtypeRuleIdEnd then id - dmacAndEthtypeRuleIdEnd else id - maxEthtypeRuleIdEnd

theorem parsedEtype_cases (c : MacsecConf) : parsedEtype c = 0#32 ∨ parsedEtype c = 1#32 := by
  unfold parsedEtype
  split
  · exact Or.inl rfl
  · exact Or.inr rfl

section Patches

variable (rf : PortRegs H) {h₀ : H} {c : MacsecConf} {m : IoReg → BitVec 32} {conf : ControlFrameMatchConf} {id : Nat}
  {e : BitVec 32} {v : Bool}

theorem ends_csrWr_cp {d : Direction} {k : CpReg} {x : BitVec 32} :
    Ends (Holds rf h₀ c m) (csrWr rf.toBus (cpReg d k) x)
      (fun _ => Holds rf h₀ c (Patch.apply m ⟨cpReg d k, x, BitVec.allOnes 32⟩)) fun _ => ¬rf.Sound h₀ :=
  ends_write_holds rf Rc.access (cpReg d k) x

theorem ends_csrWrm_cp {d : Direction} {k : CpReg} {x mask : BitVec 32} (hk : k.Valid) :
    Ends (Holds rf h₀ c m) (csrWrm rf.toBus (cpReg d k) x mask)
      (fun _ => Holds rf h₀ c (Patch.apply m ⟨cpReg d k, x, mask⟩)) fun _ => ¬rf.Sound h₀ :=
  ends_writeMasked_holds rf Rc.access (cpReg d k) x mask (cpReg_not_status hk)

theorem ends_cpEtypeSet (h2 : dmacAndEthtypeRuleIdEnd ≤ id) (h10 : id < maxEthtypeRuleIdEnd) :
    Ends (Holds rf h₀ c m) (cpEtypeSet rf.toBus conf (cpIndex id) e v)
      (fun _ => Holds rf h₀ c (patch m (cpWrites id conf e v))) fun _ => ¬rf.Sound h₀ := by
  have hne : ¬id < dmacAndEthtypeRuleIdEnd := Nat.not_lt.mpr h2
  have hmode : (e <<< 8) <<< (id - dmacAndEthtypeRuleIdEnd) = e <<< cpEnableBit id := by
    rw [← BitVec.shiftLeft_add, cpEnableBit, if_neg hne, if_pos h10]
  have hbit : bit (id - dmacAndEthtypeRuleIdEnd) <<< 8 = 1#32 <<< cpEnableBit id := by
    rw [bit_shiftLeft, cpEnableBit, if_neg hne, if_pos h10, Nat.add_comm]
  have hri : CpReg.Valid (.macDaEtMatch (id - dmacAndEthtypeRuleIdEnd)) := by
    simp only [dmacAndEthtypeRuleIdEnd, maxEthtypeRuleIdEnd] at h2 h10
    simp only [CpReg.Valid, dmacAndEthtypeRuleIdEnd]
    omega
  simp only [cpWrites, cpValues, cpIndex, cpEtypeSet, if_neg hne, if_pos h10, hmode, hbit]
  refine (ends_csrWrm_cp rf CpReg.valid_matchMode).bind fun _ => ?_
  refine (ends_csrWrm_cp rf CpReg.valid_matchMode).bind fun _ => ?_
  refine (ends_csrWrm_cp rf hri).bind fun _ => ?_
  refine (ends_csrWrm_cp rf hri).bind fun _ => ?_
  refine (ends_csrWrm_cp rf CpReg.valid_matchEnable).bind fun _ => ?_
  exact ends_csrWrm_cp rf CpReg.valid_matchEnable

theorem ends_cpDmacSet (h10 : maxEthtypeRuleIdEnd ≤ id) (h18 : id < maxDmacRuleIdEnd) :
    Ends (Holds rf h₀ c m) (cpDmacSet rf.toBus conf (cpIndex id) v)
      (fun _ => Holds rf h₀ c (patch m (cpWrites id conf e v))) fun _ => ¬rf.Sound h₀ := by
  have hne : ¬id < maxEthtypeRuleIdEnd := Nat.not_lt.mpr h10
  have hne' : ¬id < dmacAndEthtypeRuleIdEnd := by
    simp only [dmacAndEthtypeRuleIdEnd, maxEthtypeRuleIdEnd] at h10 ⊢
    omega
  have hbit : bit (id - maxEthtypeRuleIdEnd) = 1#32 <<< cpEnableBit id := by
    rw [bit, cpEnableBit, if_neg hne', if_neg hne]
  have hri : CpReg.Valid (.macDaEtMatch (id - maxEthtypeRuleIdEnd)) := by
    simp only [maxDmacRuleIdEnd, maxEthtypeRuleIdEnd] at h18 h10
    simp only [CpReg.Valid, maxEthtypeRuleIdEnd]
    omega
  simp only [cpWrites, cpValues, cpIndex, cpDmacSet, if_neg hne, if_neg hne', hbit]
  refine (ends_csrWr_cp rf).bind fun _ => ?_
  refine (ends_csrWrm_cp rf hri).bind fun _ => ?_
  refine (ends_csrWr_cp rf).bind fun _ => ?_
  refine (ends_csrWrm_cp rf hri).bind fun _ => ?_
  refine (ends_csrWrm_cp rf CpReg.valid_matchEnable).bind fun _ => ?_
  exact ends_csrWrm_cp rf CpReg.valid_matchEnable

theorem ends_cpDmacEtypeSet (h2 : id < dmacAndEthtypeRuleIdEnd) :
    Ends (Holds rf h₀ c m) (cpDmacEtypeSet rf.toBus conf (cpIndex id) e v)
      (fun _ => Holds rf h₀ c (patch m (cpWrites id conf e v))) fun _ => ¬rf.Sound h₀ := by
  have hmode : (e <<< 16) <<< id = e <<< cpEnableBit id := by
    rw [← BitVec.shiftLeft_add, cpEnableBit, if_pos h2]
  have hbit : bit id <<< 16 = 1#32 <<< cpEnableBit id := by
    rw [bit_shiftLeft, cpEnableBit, if_pos h2, Nat.add_comm]
  simp only [cpWrites, cpValues, cpIndex, cpDmacEtypeSet, if_pos h2, hmode, hbit]
  refine (ends_csrWr_cp rf).bind fun _ => ?_
  refine (ends_csrWr_cp rf).bind fun _ => ?_
  refine (ends_csrWr_cp rf).bind fun _ => ?_
  refine (ends_csrWr_cp rf).bind fun _ => ?_
  refine (ends_csrWr_cp rf).bind fun _ => ?_
  refine (ends_csrWr_cp rf).bind fun _ => ?_
  refine (ends_csrWr_cp rf).bind fun _ => ?_
  refine (ends_csrWr_cp rf).bind fun _ => ?_
  refine (ends_csrWrm_cp rf CpReg.valid_matchMode).bind fun _ => ?_
  refine (ends_csrWrm_cp rf CpReg.valid_matchEnable).bind fun _ => ?_
  refine (ends_csrWrm_cp rf CpReg.valid_matchMode).bind fun _ => ?_
  exact ends_csrWrm_cp rf CpReg.valid_matchEnable

/-- The registers of an accepted rule are written, as long as the rule is tidy. -/
theorem ends_cpSet (hkind : conf.InKind id) (htidy : conf.Tidy) :
    Ends (Holds rf h₀ c m)
      (do
        let c ← getConf
        when (conf.match = matchEtype) (cpEtypeSet rf.toBus conf (cpIndex id) (parsedEtype c) v)
        when (conf.match = matchDmac) (cpDmacSet rf.toBus conf (cpIndex id) v)
        when (conf.asks matchDmac ∧ conf.asks matchEtype)
          (cpDmacEtypeSet rf.toBus conf (cpIndex id) (parsedEtype c) v)
        return id)
      (fun r s => r = id ∧ Holds rf h₀ c (patch m (cpWrites id conf (parsedEtype c) v)) s) fun _ => ¬rf.Sound h₀ := by
  refine ends_getConf_bind (fun _ hs => hs.1) ?_
  have hE : conf.match = matchEtype → conf.asks matchEtype ∧ ¬conf.asks matchDmac := fun h => by
    simp [ControlFrameMatchConf.asks, h, matchEtype, matchDmac]
  have hD : conf.match = matchDmac → conf.asks matchDmac ∧ ¬conf.asks matchEtype := fun h => by
    simp [ControlFrameMatchConf.asks, h, matchEtype, matchDmac]
  unfold ControlFrameMatchConf.InKind at hkind
  split at hkind
  · next hboth =>
    have hne : ¬conf.match = matchEtype := fun h => (hE h).2 hboth.2
    have hnd : ¬conf.match = matchDmac := fun h => (hD h).2 hboth.1
    simp only [Fallible.when, if_neg hne, if_neg hnd, if_pos hboth.symm, pure_bind]
    exact (ends_cpDmacEtypeSet rf hkind).bind fun _ => Ends.pure fun _ hs => ⟨rfl, hs⟩
  · next hnb =>
    have hnb' : ¬(conf.asks matchDmac ∧ conf.asks matchEtype) := fun h => hnb h.symm
    split at hkind
    · next he =>
      have hmatch : conf.match = matchEtype := htidy.1 he fun hd => hnb ⟨he, hd⟩
      have hnd : ¬conf.match = matchDmac := fun h => (hD h).2 he
      simp only [Fallible.when, if_pos hmatch, if_neg hnd, if_neg hnb', pure_bind]
      exact (ends_cpEtypeSet rf hkind.1 hkind.2).bind fun _ => Ends.pure fun _ hs => ⟨rfl, hs⟩
    · next he =>
      obtain ⟨hd, h10, h18⟩ := hkind
      have hmatch : conf.match = matchDmac := htidy.2 hd he
      have hne : ¬conf.match = matchEtype := fun h => (hE h).2 hd
      simp only [Fallible.when, if_neg hne, if_pos hmatch, if_neg hnb', pure_bind]
      exact (ends_cpDmacSet rf h10 h18).bind fun _ => Ends.pure fun _ hs => ⟨rfl, hs⟩

theorem cpRuleIdGet_delete (conf : ControlFrameMatchConf) (id : Nat) :
    (cpRuleIdGet conf id false : Call H _) = pure (cpIndex id, id) := by
  unfold cpRuleIdGet cpIndex
  rw [if_pos rfl]
  split
  · rfl
  · split <;> rfl

theorem ends_cpRuleFree {lo hi : Nat} : Ends (Holds rf h₀ c m) (cpRuleFree lo hi : Call H _)
    (fun slot s => Holds rf h₀ c m s ∧ slot.1 = slot.2 - lo ∧ lo ≤ slot.2 ∧ slot.2 < hi ∧
      (c.glb.controlMatch slot.2).match = matchDisable) (Holds rf h₀ c m) := by
  refine ends_getConf_bind (fun _ hs => hs.1) ?_
  cases hf : ((List.range (hi - lo)).map (lo + ·)).find? fun i => (c.glb.controlMatch i).match = matchDisable with
  | none => exact Ends.throw fun _ hs => hs
  | some i =>
    refine Ends.pure fun s hs => ⟨hs, rfl, ?_⟩
    have hfree : (c.glb.controlMatch i).match = matchDisable := by simpa using List.find?_some hf
    obtain ⟨j, hj, rfl⟩ := List.mem_map.mp (List.mem_of_find?_eq_some hf)
    have hlt : j < hi - lo := List.mem_range.mp hj
    exact ⟨by omega, by omega, hfree⟩

/-- A new rule gets a free id of its kind. -/
theorem ends_cpRuleIdGet (conf : ControlFrameMatchConf) : Ends (Holds rf h₀ c m) (cpRuleIdGet conf 0 true : Call H _)
    (fun slot s => Holds rf h₀ c m s ∧ slot.1 = cpIndex slot.2 ∧ conf.InKind slot.2 ∧
      (c.glb.controlMatch slot.2).match = matchDisable) (Holds rf h₀ c m) := by
  unfold cpRuleIdGet ControlFrameMatchConf.InKind
  rw [if_neg (by simp)]
  refine Ends.ite (fun hboth => ?_) fun hnb => ?_
  · refine (ends_cpRuleFree rf).weaken ?_ fun _ hs => hs
    rintro ⟨indx, i⟩ s ⟨hs, hindx, -, hlt, hfree⟩
    exact ⟨hs, by simpa [cpIndex, hlt] using hindx, by simpa [hboth] using hlt, hfree⟩
  refine Ends.ite (fun he => ?_) fun hne => ?_
  · refine (ends_cpRuleFree rf).weaken ?_ fun _ hs => hs
    rintro ⟨indx, i⟩ s ⟨hs, hindx, hle, hlt, hfree⟩
    refine ⟨hs, ?_, ?_, hfree⟩
    · simpa [cpIndex, Nat.not_lt.mpr hle, hlt] using hindx
    · rw [if_neg hnb, if_pos he]
      exact ⟨hle, hlt⟩
  refine Ends.ite (fun hd => ?_) fun hnd => ?_
  · refine (ends_cpRuleFree rf).weaken ?_ fun _ hs => hs
    rintro ⟨indx, i⟩ s ⟨hs, hindx, hle, hlt, hfree⟩
    refine ⟨hs, ?_, ?_, hfree⟩
    · have hle' : ¬i < dmacAndEthtypeRuleIdEnd := by
        simp only [maxEthtypeRuleIdEnd] at hle
        simp only [dmacAndEthtypeRuleIdEnd]
        omega
      simpa [cpIndex, Nat.not_lt.mpr hle, hle'] using hindx
    · rw [if_neg hnb, if_neg hne]
      exact ⟨hd, hle, hlt⟩
  refine Ends.ite (fun _ => ?_) fun _ => ?_
  · exact Ends.throw fun _ hs => hs
  · exact Ends.throw fun _ hs => hs

/-- A rule that is set: refused without any change, or stored and written under a free id of its kind. -/
theorem ends_controlFrameMatchConfSet (htidy : conf.Tidy) :
    Ends (Holds rf h₀ c m) (controlFrameMatchConfSet rf.toBus conf)
      (fun id s => conf.InKind id ∧ (c.glb.controlMatch id).match = matchDisable ∧
        Holds rf h₀ (setControlMatch id conf c) (patch m (cpWrites id conf (parsedEtype c) true)) s)
      fun s => ¬rf.Sound h₀ ∨ Holds rf h₀ c m s := by
  refine ends_getConf_bind (fun _ hs => hs.1) ?_
  refine Ends.failIf_bind (fun _ hs _ => Or.inr hs) fun _ => ?_
  refine Ends.bind (Q := fun id s => conf.InKind id ∧ (c.glb.controlMatch id).match = matchDisable ∧
    Holds rf h₀ c (patch m (cpWrites id conf (parsedEtype c) true)) s) ?_ fun id => ?_
  · refine ((ends_cpRuleIdGet rf conf).weaken (fun _ _ hs => hs) fun _ => Or.inr).bind ?_
    rintro ⟨indx, i⟩ s ⟨hs, hindx, hkind, hfree⟩
    obtain rfl : indx = cpIndex i := hindx
    refine (((ends_cpSet rf hkind htidy).weaken ?_ fun _ => Or.inl) s hs)
    rintro _ t ⟨rfl, ht⟩
    exact ⟨hkind, hfree, ht⟩
  · refine (ends_modifyConf_of (T := fun s => conf.InKind id ∧ (c.glb.controlMatch id).match = matchDisable ∧
      Holds rf h₀ (setControlMatch id conf c) (patch m (cpWrites id conf (parsedEtype c) true)) s) ?_).bind fun _ => ?_
    · rintro s ⟨hkind, hfree, rfl, hacc, hm⟩
      exact ⟨hkind, hfree, rfl, hacc, hm⟩
    · exact Ends.pure fun _ hs => hs

/-- A rule that is deleted: refused without any change, or taken out of the table and disabled. -/
theorem ends_controlFrameMatchConfDel (hkind : (c.glb.controlMatch id).match ≠ matchDisable →
      (c.glb.controlMatch id).InKind id ∧ (c.glb.controlMatch id).Tidy) :
    Ends (Holds rf h₀ c m) (controlFrameMatchConfDel rf.toBus id)
      (fun _ s => id < cpRules ∧ (c.glb.controlMatch id).match ≠ matchDisable ∧
        Holds rf h₀ (setControlMatch id { «match» := matchDisable } c)
          (patch m (cpWrites id (c.glb.controlMatch id) (parsedEtype c) false)) s)
      fun s => ¬rf.Sound h₀ ∨ Holds rf h₀ c m s := by
  refine ends_getConf_bind (fun _ hs => hs.1) ?_
  refine Ends.failIf_bind (fun _ hs _ => Or.inr hs) fun hlt => ?_
  refine Ends.failIf_bind (fun _ hs _ => Or.inr hs) fun hused => ?_
  obtain ⟨hk, ht⟩ := hkind hused
  refine Ends.bind (Q := fun _ s => id < cpRules ∧ (c.glb.controlMatch id).match ≠ matchDisable ∧
    Holds rf h₀ (setControlMatch id { «match» := matchDisable } c)
      (patch m (cpWrites id (c.glb.controlMatch id) (parsedEtype c) false)) s) ?_
    fun _ => Ends.pure fun _ hs => hs
  have hset : Ends (Holds rf h₀ c m) (controlFrameMatchConfSet_ rf.toBus (c.glb.controlMatch id) id false)
      (fun r s => r = id ∧ Holds rf h₀ c (patch m (cpWrites id (c.glb.controlMatch id) (parsedEtype c) false)) s)
      fun _ => ¬rf.Sound h₀ := by
    unfold controlFrameMatchConfSet_
    rw [cpRuleIdGet_delete, pure_bind]
    exact ends_cpSet rf hk ht
  refine hset.afterwards ?_ fun _ hs => Or.inl hs
  rintro r s ⟨-, rfl, hacc, hm⟩
  exact ⟨Nat.not_le.mp hlt, hused, rfl, hacc, hm⟩

end Patches

/-! ## Runs -/

/-- The rules that were accepted and not yet deleted, by their ids. -/
abbrev CpAccepted := Nat → Option ControlFrameMatchConf

/-- A call of `_conf_set` or `_conf_del` on a device that answers, or an update by the device itself. The rules set are
among `P`. -/
inductive CpStep (rf : PortRegs H) (P : ControlFrameMatchConf → Prop) :
    Dev MacsecConf H × CpAccepted → Dev MacsecConf H × CpAccepted → Prop
  | accepted {conf s s' R id} : P conf → rf.Sound s.hw → controlFrameMatchConfSet rf.toBus conf s = .ok id s' →
      CpStep rf P (s, R) (s', Function.update R id (some conf))
  | rejected {conf s s' R e} : P conf → rf.Sound s.hw → controlFrameMatchConfSet rf.toBus conf s = .error e s' →
      CpStep rf P (s, R) (s', R)
  | deleted {s s' R id} : rf.Sound s.hw → controlFrameMatchConfDel rf.toBus id s = .ok () s' →
      CpStep rf P (s, R) (s', Function.update R id none)
  | notDeleted {s s' R id e} : rf.Sound s.hw → controlFrameMatchConfDel rf.toBus id s = .error e s' →
      CpStep rf P (s, R) (s', R)
  | drift {s : Dev MacsecConf H} {R h'} : rf.drift s.hw h' → CpStep rf P (s, R) ({ s with hw := h' }, R)

abbrev CpRun (rf : PortRegs H) (P : ControlFrameMatchConf → Prop) :
    Dev MacsecConf H × CpAccepted → Dev MacsecConf H × CpAccepted → Prop := Relation.ReflTransGen (CpStep rf P)

/-- A port without rules. -/
structure CpStart (rf : PortRegs H) (s : Dev MacsecConf H) : Prop where
  table : ∀ id < cpRules, (s.conf.glb.controlMatch id).match = matchDisable
  enable : ∀ d, ∀ id < cpRules, (rf.peek s.hw (cpReg d .matchEnable)).getLsbD (cpEnableBit id) = false

/-- The table and both classifiers hold exactly these rules. -/
structure CpMatches (rf : PortRegs H) (s₀ : Dev MacsecConf H) (R : CpAccepted) (s : Dev MacsecConf H) : Prop where
  table : ∀ id f, R id = some f → s.conf.glb.controlMatch id = f
  free : ∀ id < cpRules, R id = none → (s.conf.glb.controlMatch id).match = matchDisable
  kind : ∀ id f, R id = some f → f.InKind id
  enable : ∀ d, ∀ id < cpRules, (rf.peek s.hw (cpReg d .matchEnable)).getLsbD (cpEnableBit id) = (R id).isSome
  others : ∀ d b, cpRules ≤ b → b < 32 →
    (rf.peek s.hw (cpReg d .matchEnable)).getLsbD b = (rf.peek s₀.hw (cpReg d .matchEnable)).getLsbD b
  values : ∀ id f, R id = some f → ∀ d, ∀ p ∈ cpValues d id f, p.In (rf.peek s.hw)

theorem ControlFrameMatchConf.InKind.lt {conf : ControlFrameMatchConf} {id : Nat} (h : conf.InKind id) :
    id < cpRules := by
  unfold InKind at h
  simp only [dmacAndEthtypeRuleIdEnd, maxEthtypeRuleIdEnd, maxDmacRuleIdEnd] at h
  simp only [cpRules]
  split at h
  · omega
  · split at h <;> omega

/-- A rule that has an id is not the entry of a free one. -/
theorem ControlFrameMatchConf.InKind.used {conf : ControlFrameMatchConf} {id : Nat} (h : conf.InKind id) :
    conf.match ≠ matchDisable := by
  intro hm
  have he : ¬conf.asks matchEtype := by simp [asks, hm, matchDisable, matchEtype]
  have hd : ¬conf.asks matchDmac := by simp [asks, hm, matchDisable, matchDmac]
  simp [InKind, he, hd] at h

section Runs

variable {rf : PortRegs H} {s₀ s s' : Dev MacsecConf H} {R R' : CpAccepted} {id : Nat} {conf : ControlFrameMatchConf}
  {c : MacsecConf} {m : IoReg → BitVec 32} {v : Bool}

/-- What the writes for one rule leave of the others, and of itself. -/
theorem cpWrites_enable (hid : id < cpRules) {id' : Nat} (hid' : id' < cpRules) (d : Direction) :
    (patch m (cpWrites id conf (parsedEtype c) v) (cpReg d .matchEnable)).getLsbD (cpEnableBit id') =
      if id' = id then v else (m (cpReg d .matchEnable)).getLsbD (cpEnableBit id') := by
  have hlt := cpEnableBit_lt hid'
  split
  · next heq =>
    subst heq
    exact (bitPatch_in _ v (by omega)).mp (patch_in (cpWrites_pairwise hid) _ cpEnable_mem)
  · next hne =>
    have hkeep : ∀ p ∈ cpWrites id conf (parsedEtype c) v,
        p.Apart (cpEnable d id' ((m (cpReg d .matchEnable)).getLsbD (cpEnableBit id'))) := fun p hp =>
      (cpWrites_owned hid (parsedEtype_cases c) p hp).apart (cpEnable_owned hid') fun h => hne (Option.some.inj h).symm
    exact (bitPatch_in _ _ (by omega)).mp ((patch_keeps hkeep).mpr ((bitPatch_in _ _ (by omega)).mpr rfl))

theorem cpWrites_others (hid : id < cpRules) (d : Direction) {b : Nat} (hb : cpRules ≤ b) (hb' : b < 32) :
    (patch m (cpWrites id conf (parsedEtype c) v) (cpReg d .matchEnable)).getLsbD b =
      (m (cpReg d .matchEnable)).getLsbD b := by
  have howned : ∀ x, CpOwned none (bitPatch (cpReg d .matchEnable) b x) := by
    intro x
    refine ⟨d, .matchEnable, trivial, rfl, fun i hi => ?_⟩
    simp only [bitPatch, getLsbD_one_shiftLeft (w := 32) b i hb'] at hi
    rw [of_decide_eq_true hi]
    simp only [cpRules] at hb
    have h8 : ¬b < 8 := by omega
    have h16 : ¬b < 16 := by omega
    have h18 : ¬b < 18 := by omega
    simp [CpReg.owner, h8, h16, h18]
  have hkeep : ∀ p ∈ cpWrites id conf (parsedEtype c) v,
      p.Apart (bitPatch (cpReg d .matchEnable) b ((m (cpReg d .matchEnable)).getLsbD b)) := fun p hp =>
    (cpWrites_owned hid (parsedEtype_cases c) p hp).apart (howned _) fun h => by cases h
  exact (bitPatch_in _ _ hb').mp ((patch_keeps hkeep).mpr ((bitPatch_in _ _ hb').mpr rfl))

theorem cpWrites_values (hid : id < cpRules) {d : Direction} {id' : Nat} {f : ControlFrameMatchConf}
    (hid' : id' < cpRules) (hne : id' ≠ id) {p : Patch IoReg 32} (hp : p ∈ cpValues d id' f) :
    p.In (patch m (cpWrites id conf (parsedEtype c) v)) ↔ p.In m :=
  patch_keeps fun q hq => (cpWrites_owned hid (parsedEtype_cases c) q hq).apart (cpValues_owned hid' p hp) fun h =>
    hne (Option.some.inj h).symm

/-- The words of the classifiers are those of the storage. -/
theorem peek_of_holds (hm : ∀ q, ¬statusReg q → rf.peek s'.hw q = m q) {d : Direction} {k : CpReg} (hk : k.Valid) :
    rf.peek s'.hw (cpReg d k) = m (cpReg d k) := hm _ (cpReg_not_status hk)

theorem in_of_holds (hm : ∀ q, ¬statusReg q → rf.peek s'.hw q = m q) {d : Direction} {f : ControlFrameMatchConf}
    (hid : id < cpRules) {p : Patch IoReg 32} (hp : p ∈ cpValues d id f) : p.In (rf.peek s'.hw) ↔ p.In m := by
  obtain ⟨d', k, hk, hreg, -⟩ := cpValues_owned hid p hp
  simp only [Patch.In, hreg, peek_of_holds hm hk]

/-- What the words say is all that counts. -/
theorem CpMatches.of_words (h : CpMatches rf s₀ R s) (hc : s'.conf = s.conf)
    (hm : ∀ q, ¬statusReg q → ¬liveReg q → rf.peek s'.hw q = rf.peek s.hw q) : CpMatches rf s₀ R s' := by
  have hreg : ∀ d k, k.Valid → rf.peek s'.hw (cpReg d k) = rf.peek s.hw (cpReg d k) := fun d k hk =>
    hm _ (cpReg_not_status hk) (cpReg_not_live hk)
  constructor
  · rw [hc]
    exact h.table
  · rw [hc]
    exact h.free
  · exact h.kind
  · intro d id hid
    rw [hreg d _ CpReg.valid_matchEnable]
    exact h.enable d id hid
  · intro d b hb hb'
    rw [hreg d _ CpReg.valid_matchEnable]
    exact h.others d b hb hb'
  · intro id f hf d p hp
    obtain ⟨d', k, hk, hpr, -⟩ := cpValues_owned (h.kind id f hf).lt p hp
    have hin := h.values id f hf d p hp
    rwa [Patch.In, hpr, ← hreg d' k hk, ← hpr] at hin

/-- One rule is set or deleted; `o` is what has the id afterwards. -/
theorem CpMatches.change (h : CpMatches rf s₀ R s) (hid : id < cpRules) {o : Option ControlFrameMatchConf}
    (ho : ∀ f, o = some f → f = conf ∧ f.InKind id)
    (hs : Holds rf s.hw (setControlMatch id (o.getD { «match» := matchDisable }) s.conf)
      (patch (rf.peek s.hw) (cpWrites id conf (parsedEtype s.conf) o.isSome)) s') :
    CpMatches rf s₀ (Function.update R id o) s' := by
  obtain ⟨hc, -, hm⟩ := hs
  have htab : ∀ id', s'.conf.glb.controlMatch id' =
      if id' = id then o.getD { «match» := matchDisable } else s.conf.glb.controlMatch id' := by
    intro id'
    rw [hc]
    exact Function.update_apply _ id _ id'
  constructor
  · intro id' f hf
    rw [Function.update_apply] at hf
    rw [htab id']
    split at hf
    · next heq => rw [if_pos heq, hf, Option.getD_some]
    · next hne => rw [if_neg hne, h.table id' f hf]
  · intro id' hid' hf
    rw [Function.update_apply] at hf
    rw [htab id']
    split at hf
    · next heq => rw [if_pos heq, hf, Option.getD_none]
    · next hne => rw [if_neg hne, h.free id' hid' hf]
  · intro id' f hf
    rw [Function.update_apply] at hf
    split at hf
    · next heq =>
      rw [heq]
      exact (ho f hf).2
    · exact h.kind id' f hf
  · intro d id' hid'
    rw [peek_of_holds hm CpReg.valid_matchEnable, cpWrites_enable hid hid', Function.update_apply]
    split
    · rfl
    · exact h.enable d id' hid'
  · intro d b hb hb'
    rw [peek_of_holds hm CpReg.valid_matchEnable, cpWrites_others hid d hb hb']
    exact h.others d b hb hb'
  · intro id' f hf d p hp
    rw [Function.update_apply] at hf
    split at hf
    · next heq =>
      subst heq
      obtain ⟨rfl, -⟩ := ho f hf
      exact (in_of_holds hm hid hp).mpr (patch_in (cpWrites_pairwise hid) p (cpValues_subset hp))
    · next hne =>
      have hid' := (h.kind id' f hf).lt
      exact (in_of_holds hm hid' hp).mpr ((cpWrites_values hid hid' hne hp).mpr (h.values id' f hf d p hp))

/-- The invariant of the runs: the rules match, and are tidy. -/
structure CpInv (rf : PortRegs H) (s₀ : Dev MacsecConf H) (R : CpAccepted) (s : Dev MacsecConf H) : Prop
    extends CpMatches rf s₀ R s where
  tidy : ∀ id f, R id = some f → f.Tidy

theorem CpStart.inv (h : CpStart rf s) : CpInv rf s (fun _ => none) s := by
  refine ⟨⟨?_, ?_, ?_, ?_, ?_, ?_⟩, ?_⟩
  · intro id f hf
    cases hf
  · intro id hid _
    exact h.table id hid
  · intro id f hf
    cases hf
  · intro d id hid
    exact h.enable d id hid
  · intro d b _ _
    rfl
  · intro id f hf
    cases hf
  · intro id f hf
    cases hf

/-- An id that is free in the table belongs to no accepted rule. -/
theorem CpMatches.not_accepted (h : CpMatches rf s₀ R s) (hm : (s.conf.glb.controlMatch id).match = matchDisable) :
    R id = none := by
  cases hR : R id with
  | none => rfl
  | some f =>
    rw [h.table id f hR] at hm
    exact absurd hm (h.kind id f hR).used

/-- The rule behind an entry of the table that is used. -/
theorem CpMatches.accepted (h : CpMatches rf s₀ R s) (hid : id < cpRules)
    (hm : (s.conf.glb.controlMatch id).match ≠ matchDisable) : R id = some (s.conf.glb.controlMatch id) := by
  cases hR : R id with
  | none => exact absurd (h.free id hid hR) hm
  | some f => rw [h.table id f hR]

/-- A call that was refused has changed nothing. -/
theorem CpInv.of_holds (h : CpInv rf s₀ R s) (hs : Holds rf s.hw s.conf (rf.peek s.hw) s') : CpInv rf s₀ R s' :=
  ⟨h.toCpMatches.of_words hs.1 fun q hq _ => hs.2.2 q hq, h.tidy⟩

theorem CpInv.set_ok (h : CpInv rf s₀ R s) (htidy : conf.Tidy)
    (hok : controlFrameMatchConfSet rf.toBus conf s = .ok id s') :
    id < cpRules ∧ R id = none ∧ CpInv rf s₀ (Function.update R id (some conf)) s' := by
  obtain ⟨hkind, hfree, hs⟩ := (ends_controlFrameMatchConfSet rf htidy).ok (holds_start rf s) hok
  refine ⟨hkind.lt, h.not_accepted hfree, h.change hkind.lt (fun f hf => ?_) hs, ?_⟩
  · cases hf
    exact ⟨rfl, hkind⟩
  · intro id' f hf
    rw [Function.update_apply] at hf
    split at hf
    · rw [← Option.some.inj hf]
      exact htidy
    · exact h.tidy id' f hf

theorem CpInv.set_error {e : Rc} (h : CpInv rf s₀ R s) (htidy : conf.Tidy) (hsound : rf.Sound s.hw)
    (herr : controlFrameMatchConfSet rf.toBus conf s = .error e s') : CpInv rf s₀ R s' := by
  rcases ends_controlFrameMatchConfSet rf htidy s (holds_start rf s) with ⟨id, t, hok, -⟩ | ⟨e', t, herr', hE⟩
  · rw [herr] at hok
    cases hok
  · rw [herr] at herr'
    cases herr'
    exact h.of_holds (hE.resolve_left fun hns => hns hsound)

theorem CpInv.del (h : CpInv rf s₀ R s) (id : Nat) : Ends (fun t => t = s) (controlFrameMatchConfDel rf.toBus id)
    (fun _ => CpInv rf s₀ (Function.update R id none)) fun s' => ¬rf.Sound s.hw ∨ CpInv rf s₀ R s' := by
  by_cases hid : id < cpRules
  · have hrule : (s.conf.glb.controlMatch id).match ≠ matchDisable →
        (s.conf.glb.controlMatch id).InKind id ∧ (s.conf.glb.controlMatch id).Tidy := fun hm =>
      ⟨h.kind id _ (h.accepted hid hm), h.tidy id _ (h.accepted hid hm)⟩
    have hdel := @ends_controlFrameMatchConfDel H rf s.hw s.conf (rf.peek s.hw) id hrule
    refine (hdel.weaken ?_ ?_).pre ?_
    · rintro - s' ⟨-, -, hs⟩
      refine ⟨h.change hid (fun f hf => by cases hf) hs, fun id' f hf => ?_⟩
      rw [Function.update_apply] at hf
      split at hf
      · cases hf
      · exact h.tidy id' f hf
    · exact fun s' hs => hs.imp_right h.of_holds
    · rintro _ rfl
      exact holds_start rf _
  · refine ends_getConf_bind (c := s.conf) (fun t ht => by rw [ht]) ?_
    refine Ends.failIf_bind (fun t ht _ => Or.inr (ht ▸ h)) fun hlt => ?_
    exact absurd (Nat.not_le.mp hlt) hid

/-- One step of a run with tidy rules. -/
theorem CpStep.inv {x y : Dev MacsecConf H × CpAccepted} (hstep : CpStep rf ControlFrameMatchConf.Tidy x y)
    (h : CpInv rf s₀ x.2 x.1) : CpInv rf s₀ y.2 y.1 := by
  cases hstep with
  | accepted htidy _ hok => exact (h.set_ok htidy hok).2.2
  | rejected htidy hsound herr => exact h.set_error htidy hsound herr
  | deleted _ hok => exact (h.del _).ok rfl hok
  | @notDeleted s s' R id e hsound herr =>
    rcases h.del id s rfl with ⟨u, t, hok, -⟩ | ⟨e', t, herr', hE⟩
    · rw [herr] at hok
      cases hok
    · rw [herr] at herr'
      cases herr'
      exact hE.resolve_left fun hns => hns hsound
  | drift hd =>
    refine ⟨h.toCpMatches.of_words rfl ?_, h.tidy⟩
    intro q hq hl
    exact rf.peek_drift _ _ q hq hl hd

theorem CpRun.inv (h : CpStart rf s₀) (hrun : CpRun rf ControlFrameMatchConf.Tidy (s₀, fun _ => none) (s, R)) :
    CpInv rf s₀ R s := by
  have hinv : ∀ y, CpRun rf ControlFrameMatchConf.Tidy (s₀, fun _ => none) y → CpInv rf s₀ y.2 y.1 := by
    intro y hy
    induction hy with
    | refl => exact h.inv
    | tail _ hstep ih => exact hstep.inv ih
  exact hinv _ hrun

/-- Two rules have no bit of the classifiers in common. -/
theorem cp_slots_apart {id' : Nat} (hid : id < cpRules) (hid' : id' < cpRules) (hne : id ≠ id') (d : Direction) :
    cpEnableBit id ≠ cpEnableBit id' ∧
      ∀ f f', ∀ p ∈ cpValues d id f, ∀ q ∈ cpValues d id' f', p.Apart q := by
  constructor
  · intro heq
    have howner := (owner_enable hid).symm.trans ((congrArg _ heq).trans (owner_enable hid'))
    exact hne (Option.some.inj howner)
  · intro f f' p hp q hq
    exact (cpValues_owned hid p hp).apart (cpValues_owned hid' q hq) fun h => hne (Option.some.inj h)

theorem controlFrameMatchConfGet_eq (hid : id < cpRules) :
    (controlFrameMatchConfGet id : Call H _) s = .ok (s.conf.glb.controlMatch id) s := by
  have hle : ¬cpRules ≤ id := Nat.not_le.mpr hid
  simp only [controlFrameMatchConfGet, Fallible.failIf, Fallible.when, if_neg hle, pure_bind]
  rfl

/-- In every run in which no rule combines one of address and Ethertype with another flag, and no access fails, the
table and the classifiers hold exactly the accepted rules, each under an id of its own. -/
theorem control_rules (rf : PortRegs H) {s₀ s : Dev MacsecConf H} {R : CpAccepted} (hstart : CpStart rf s₀)
    (hrun : CpRun rf ControlFrameMatchConf.Tidy (s₀, fun _ => none) (s, R)) :
    CpMatches rf s₀ R s ∧
      (∀ conf id s', conf.Tidy → controlFrameMatchConfSet rf.toBus conf s = .ok id s' → id < cpRules ∧ R id = none) ∧
      (∀ id f, R id = some f → controlFrameMatchConfGet id s = .ok f s) ∧
      ∀ id id', id < cpRules → id' < cpRules → id ≠ id' → ∀ d, cpEnableBit id ≠ cpEnableBit id' ∧
        ∀ f f', ∀ p ∈ cpValues d id f, ∀ q ∈ cpValues d id' f', p.Apart q := by
  have h := CpRun.inv hstart hrun
  refine ⟨h.toCpMatches, ?_, ?_, fun id id' => cp_slots_apart⟩
  · intro conf id s' htidy hok
    obtain ⟨hid, hnone, -⟩ := h.set_ok htidy hok
    exact ⟨hid, hnone⟩
  · intro id f hf
    rw [controlFrameMatchConfGet_eq (h.kind id f hf).lt, h.table id f hf]

end Runs

/-! ### A rule with another flag -/

def cpBench : Dev MacsecConf (IoReg → BitVec 32) :=
  ⟨macsecInit { initEnable := true, controlMatch := fun _ => { «match» := matchDisable } }, fun _ => 0#32⟩

theorem cpBench_start : CpStart bench cpBench :=
  ⟨fun _ _ => rfl, fun _ _ _ => BitVec.getLsbD_zero⟩

def eapolRule : ControlFrameMatchConf := { «match» := matchEtype, etype := 0x888E }

def taggedRule : ControlFrameMatchConf := { «match» := matchEtype ||| matchHasVlan, etype := 0x888E }

/-- The state after a rule is set. -/
abbrev cpBenchSet (conf : ControlFrameMatchConf) : Dev MacsecConf (IoReg → BitVec 32) :=
  final (controlFrameMatchConfSet bench.toBus conf) cpBench

theorem control_rules_eapol :
    CpMatches bench cpBench (Function.update (fun _ => none) 2 (some eapolRule)) (cpBenchSet eapolRule) := by
  have htidy : eapolRule.Tidy := by
    unfold ControlFrameMatchConf.Tidy
    decide
  have hok : controlFrameMatchConfSet bench.toBus eapolRule cpBench = .ok 2 (cpBenchSet eapolRule) := rfl
  exact (control_rules bench cpBench_start (.single (.accepted htidy storage_sound hok))).1

/-- A rule for an Ethertype and the presence of a VLAN tag is accepted, and no register is written. -/
theorem not_control_rules : ¬∀ (s₀ s : Dev MacsecConf (IoReg → BitVec 32)) (R : CpAccepted), CpStart bench s₀ →
    CpRun bench (fun _ => True) (s₀, fun _ => none) (s, R) → CpMatches bench s₀ R s := by
  intro h
  have hok : controlFrameMatchConfSet bench.toBus taggedRule cpBench = .ok 2 (cpBenchSet taggedRule) := rfl
  have hm := h cpBench _ _ cpBench_start (.single (.accepted trivial storage_sound hok))
  have hbit := hm.enable .ingress 2 (by decide)
  have hclear : (bench.peek (cpBenchSet taggedRule).hw (cpReg .ingress .matchEnable)).getLsbD (cpEnableBit 2) = false :=
    rfl
  rw [hclear, Function.update_self] at hbit
  cases hbit

end Lan80xx.Macsec
