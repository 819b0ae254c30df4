import Lan80xx.Lib.RegSlots
import Lan80xx.Macsec.Regs
import Lan80xx.VtssMacsec.Device
import Mathlib.Data.List.Nodup
import Mathlib.Tactic.IntervalCases

/-!
# MACsec of the VTSS PHYs: control frame rules

Both directions classify control frames. A rule has an id, and its id a slot in the registers: two for address and
Ethertype, sixteen for Ethertypes, eight for addresses, and one each for BPDUs and for CDP and UDLD.

- `cpWrites`: what is written for a rule that is set or deleted;
- `cpSlots`: the slots, each with bits of its own;
- `ends_controlFrameMatchConfSetPriv`: what a set or a deletion leaves;
- `RuleRun`: sets, deletions and other calls, and the rules that were accepted;
- `control_rules_held`: what the registers and the table hold in every run.
-/

namespace Lan80xx.VtssMacsec

open Fallible RegBus
open Macsec (ControlFrameMatchConf MatchPattern Direction matchDisable matchDmac matchEtype field bitmask macsecBs byteAt
  getU32)

/-! ## Registers -/

/-- The first of the registers `CTL_PACKET_CLASS_PARAMS`. -/
def cpBase : Direction → Nat
  | .ingress => 0x1e00
  | .egress => 0x9e00

def cpMacDaMatch (d : Direction) (ri : Nat) : Nat := cpBase d ||| (ri * 2)

def cpMacDaEtMatch (d : Direction) (ri : Nat) : Nat := (cpBase d + 1) ||| (ri * 2)

/-- `VTSS_IOREG(0x1f, 1, (i ? 0x9e14 : 0x1e14) + (indx - 10))`. -/
def cpMacEtMatch (d : Direction) (indx : Nat) : Nat := cpBase d + 0x14 + (indx - 10)

def cpMatchMode (d : Direction) : Nat := cpBase d + 0x3e

def cpMatchEnable (d : Direction) : Nat := cpBase d + 0x3f

/-- The id of the rule that a bit belongs to, by the place of its register. -/
def cpOwnerAt (k b : Nat) : Option Nat :=
  if k < 0x14 then
    if k / 2 < 8 then if k % 2 = 0 ∨ b < 16 then some (18 + k / 2) else some (2 + k / 2)
    else some (k / 2 - 8)
  else if k < 0x1c then some (10 + (k - 0x14))
  else if b < 8 then some (18 + b) else if b < 16 then some (2 + (b - 8)) else if b < 18 then some (b - 16)
  else if b = 19 then some 26 else if b = 20 then some 27 else some (10 + (b - 21))

def cpOwner (q b : Nat) : Option Nat := cpOwnerAt (q % 0x8000 - 0x1e00) b

/-! ## What is written -/

/-- `parsed_etype`. -/
def parsedEtype (c : Conf) (conf : ControlFrameMatchConf) : Bool :=
  !(c.glb.bypassMode = .hdr || (conf.match &&& matchEtype ≠ 0 && conf.etype = 0x8100))

/-- The bit of an index in `ETYPE_SEL_9_TO_0` or `ETYPE_SEL_17_TO_10`. -/
def cpSelBit (indx : Nat) : Nat := if indx < 10 then 8 + indx else 21 + (indx - 10)

/-- `CP_MATCH_MODE`, with the selection as value and as mask. -/
def cpSel (d : Direction) (indx : Nat) (parsed : Bool) : Patch Nat 32 :=
  ⟨cpMatchMode d, if parsed then 1#32 <<< cpSelBit indx else 0, if parsed then 1#32 <<< cpSelBit indx else 0⟩

/-- `ETHER_TYPE_MATCH(MACSEC_BS(conf->etype))`. -/
def etherTypeMatch (conf : ControlFrameMatchConf) : BitVec 32 := field (macsecBs (conf.etype.setWidth 32)) 16 16

/-- `MAC_DA_MATCH_15_TO_0(conf->dmac.addr[5] << 8 | conf->dmac.addr[4])`. -/
def macDaMatch (conf : ControlFrameMatchConf) : BitVec 32 := field (byteAt conf.dmac 5 <<< 8 ||| byteAt conf.dmac 4) 0 16

/-- The match values of a rule, and the bit that enables it. -/
def cpClass (conf : ControlFrameMatchConf) (indx : Nat) (store : Bool) (d : Direction) : List (Patch Nat 32) :=
  if conf.match &&& matchEtype ≠ 0 ∧ conf.match &&& matchDmac ≠ 0 then
    [⟨cpMacDaMatch d indx, getU32 conf.dmac 0, BitVec.allOnes 32⟩,
     ⟨cpMacDaEtMatch d indx, macDaMatch conf ||| etherTypeMatch conf, BitVec.allOnes 32⟩,
     bitPatch (cpMatchEnable d) (if indx = 8 then 16 else 17) store]
  else if conf.match &&& matchEtype ≠ 0 then
    if indx < 8 then
      [⟨cpMacDaEtMatch d indx, etherTypeMatch conf, bitmask 16 16⟩, bitPatch (cpMatchEnable d) (8 + indx) store]
    else
      [⟨cpMacEtMatch d indx, etherTypeMatch conf, BitVec.allOnes 32⟩,
       bitPatch (cpMatchEnable d) (21 + (indx - 10)) store]
  else if conf.match &&& matchDmac ≠ 0 then
    [⟨cpMacDaMatch d indx, getU32 conf.dmac 0, BitVec.allOnes 32⟩,
     ⟨cpMacDaEtMatch d indx, macDaMatch conf, bitmask 0 16⟩,
     bitPatch (cpMatchEnable d) indx store]
  else if conf.match &&& matchBpdu ≠ 0 then [bitPatch (cpMatchEnable d) 19 store]
  else if conf.match &&& matchCdpUdld ≠ 0 then [bitPatch (cpMatchEnable d) 20 store]
  else []

/-- The writes for one direction. -/
def cpDirWrites (conf : ControlFrameMatchConf) (indx : Nat) (parsed store : Bool) (d : Direction) : List (Patch Nat 32) :=
  (if conf.match &&& matchEtype ≠ 0 then [cpSel d indx parsed] else []) ++ cpClass conf indx store d

/-- All writes of the call, in its order. -/
def cpWrites (conf : ControlFrameMatchConf) (indx : Nat) (parsed store : Bool) : List (Patch Nat 32) :=
  cpDirWrites conf indx parsed store .ingress ++ cpDirWrites conf indx parsed store .egress

/-- The register sequences that do not write the classification registers. -/
def HwOp.sparesRules : HwOp → Bool
  | .saMatchSet .. | .saMatchReset .. | .saFlowSet .. | .saFlowClear .. | .saMaskClear .. | .saEnable .. | .saInuse ..
  | .saToggle .. => true
  | _ => false

/-- Hardware of which the classification registers are seen. A sequence that fails has made some of its writes. -/
structure RuleChip (H : Type) extends Hw H where
  cp : H → Nat → BitVec 32
  controlRule : ∀ conf indx store c h, ∃ ps, ps <+: cpWrites conf indx (parsedEtype c conf) store ∧
    cp (run (.controlRule conf indx store) c h).2 = patch (cp h) ps ∧
    ((run (.controlRule conf indx store) c h).1 = true → ps = cpWrites conf indx (parsedEtype c conf) store)
  sparesRules : ∀ op, op.sparesRules = true → ∀ c h, cp (run op c h).2 = cp h

/-! ## The slots -/

/-- The ids for rules that match what this one does. -/
def cpFits (id : Nat) (conf : ControlFrameMatchConf) : Prop :=
  if conf.match &&& matchEtype ≠ 0 ∧ conf.match &&& matchDmac ≠ 0 then id < 2
  else if conf.match &&& matchEtype ≠ 0 then 2 ≤ id ∧ id < 18
  else if conf.match &&& matchDmac ≠ 0 then 18 ≤ id ∧ id < 26
  else if conf.match &&& matchBpdu ≠ 0 then id = 26
  else conf.match &&& matchCdpUdld ≠ 0 ∧ id = 27

/-- The bit that enables a rule. -/
def cpEnableBit (id : Nat) : Nat :=
  if id < 2 then 16 + id else if id < 10 then 8 + (id - 2) else if id < 18 then 21 + (id - 10)
  else if id < 26 then id - 18 else if id = 26 then 19 else 20

def cpEnable (id : Nat) (v : Bool) (d : Direction) : Patch Nat 32 := bitPatch (cpMatchEnable d) (cpEnableBit id) v

/-- The match values of a rule. -/
def cpValues (id : Nat) (conf : ControlFrameMatchConf) (d : Direction) : List (Patch Nat 32) :=
  if id < 2 then
    [⟨cpMacDaMatch d (8 + id), getU32 conf.dmac 0, BitVec.allOnes 32⟩,
     ⟨cpMacDaEtMatch d (8 + id), macDaMatch conf ||| etherTypeMatch conf, BitVec.allOnes 32⟩]
  else if id < 10 then [⟨cpMacDaEtMatch d (id - 2), etherTypeMatch conf, bitmask 16 16⟩]
  else if id < 18 then [⟨cpMacEtMatch d id, etherTypeMatch conf, BitVec.allOnes 32⟩]
  else if id < 26 then
    [⟨cpMacDaMatch d (id - 18), getU32 conf.dmac 0, BitVec.allOnes 32⟩,
     ⟨cpMacDaEtMatch d (id - 18), macDaMatch conf, bitmask 0 16⟩]
  else []

section Slots

variable {id indx k b : Nat} {conf : ControlFrameMatchConf} {parsed store v : Bool} {d : Direction} {c : Conf}

/-- What is written to the slot of a rule, by its id. -/
theorem cpClass_eq (h : cpFits id conf) :
    cpClass conf (cpRuleIndx id) store d = cpValues id conf d ++ [cpEnable id store d] := by
  unfold cpFits at h
  unfold cpClass
  split at h
  · next hboth =>
    rw [if_pos hboth]
    have hid : id = 0 ∨ id = 1 := by omega
    rcases hid with rfl | rfl <;> rfl
  · next hboth =>
    rw [if_neg hboth]
    split at h
    · next hetype =>
      rw [if_pos hetype]
      obtain ⟨h2, h18⟩ := h
      interval_cases id <;> rfl
    · next hetype =>
      rw [if_neg hetype]
      split at h
      · next hdmac =>
        rw [if_pos hdmac]
        obtain ⟨h18, h26⟩ := h
        interval_cases id <;> rfl
      · next hdmac =>
        rw [if_neg hdmac]
        split at h
        · next hbpdu =>
          rw [if_pos hbpdu, h]
          rfl
        · next hbpdu =>
          rw [if_neg hbpdu, if_pos h.1, h.2]
          rfl

theorem cpFits_lt (h : cpFits id conf) : id < cpRules := by
  unfold cpFits at h
  rw [cpRules]
  split at h
  · omega
  · split at h
    · omega
    · split at h
      · omega
      · split at h <;> omega

/-- A rule on an Ethertype is in one of the slots for these. -/
theorem cpFits_etype (h : cpFits id conf) : conf.match &&& matchEtype ≠ 0 ↔ id < 18 := by
  unfold cpFits at h
  split at h
  · next hboth => exact ⟨fun _ => by omega, fun _ => hboth.1⟩
  · split at h
    · next hetype => exact ⟨fun _ => h.2, fun _ => hetype⟩
    · next hetype =>
      refine ⟨fun he => absurd he hetype, fun hid => ?_⟩
      split at h
      · omega
      · split at h <;> omega

/-! ### Whose bits they are -/

theorem cpOwner_add (hk : k < 0x40) : cpOwner (cpBase d + k) b = cpOwnerAt k b := by
  have hplace : (cpBase d + k) % 0x8000 - 0x1e00 = k := by
    cases d <;> simp only [cpBase] <;> omega
  rw [cpOwner, hplace]

theorem cpMacDaMatch_eq (h : k < 10) : cpMacDaMatch d k = cpBase d + k * 2 := by
  cases d <;> interval_cases k <;> rfl

theorem cpMacDaEtMatch_eq (h : k < 10) : cpMacDaEtMatch d k = cpBase d + (k * 2 + 1) := by
  cases d <;> interval_cases k <;> rfl

theorem cpMacEtMatch_eq : cpMacEtMatch d k = cpBase d + (0x14 + (k - 10)) := Nat.add_assoc _ _ _

theorem mem_bitmask {o n : Nat} (h : (bitmask o n).getLsbD b = true) : o ≤ b ∧ b < o + n := by
  simp only [bitmask, BitVec.getLsbD_shiftLeft, BitVec.getLsbD_ofNat, Nat.testBit_two_pow_sub_one] at h
  simp at h
  omega

theorem cpEnableBit_lt (hid : id < cpRules) : cpEnableBit id < 32 := by
  rw [cpRules] at hid
  interval_cases id <;> decide

/-- The bit of the rule in the two registers that have one for each rule. -/
theorem cpOwnerAt_enable (hid : id < cpRules) (hk : 0x1c ≤ k) : cpOwnerAt k (cpEnableBit id) = some id := by
  have h14 : ¬k < 0x14 := by omega
  have h1c : ¬k < 0x1c := by omega
  rw [cpRules] at hid
  interval_cases id <;> simp [cpOwnerAt, cpEnableBit, h14, h1c]

theorem cpEnable_owned (hid : id < cpRules) : (cpEnable id v d).OwnedBy cpOwner id := by
  intro b hb
  simp only [cpEnable, bitPatch, getLsbD_one_shiftLeft (w := 32) _ b (cpEnableBit_lt hid)] at hb
  rw [of_decide_eq_true hb, cpEnable, bitPatch, cpMatchEnable, cpOwner_add (by decide), cpOwnerAt_enable hid (by decide)]

theorem cpSel_owned (hid : id < 18) : (cpSel d (cpRuleIndx id) parsed).OwnedBy cpOwner id := by
  have hsel : cpSelBit (cpRuleIndx id) = cpEnableBit id := by
    interval_cases id <;> rfl
  intro b hb
  rw [cpSel, hsel] at hb
  cases parsed with
  | false => simp at hb
  | true =>
    have hrule : id < cpRules := Nat.lt_trans hid (by decide)
    have hlt := cpEnableBit_lt hrule
    simp only [↓reduceIte, getLsbD_one_shiftLeft (w := 32) _ b hlt] at hb
    rw [of_decide_eq_true hb, cpSel, cpMatchMode, cpOwner_add (by decide),
      cpOwnerAt_enable hrule (by decide)]

theorem cpValues_owned : ∀ p ∈ cpValues id conf d, p.OwnedBy cpOwner id := by
  intro p hp b hb
  unfold cpValues at hp
  split at hp
  · next h2 =>
    simp only [List.mem_cons, List.not_mem_nil, or_false] at hp
    rcases hp with rfl | rfl
    · rw [cpMacDaMatch_eq (by omega), cpOwner_add (by omega)]
      grind [cpOwnerAt]
    · rw [cpMacDaEtMatch_eq (by omega), cpOwner_add (by omega)]
      grind [cpOwnerAt]
  · split at hp
    · next h2 h10 =>
      rw [List.mem_singleton] at hp
      subst hp
      have hbit := mem_bitmask hb
      rw [cpMacDaEtMatch_eq (by omega), cpOwner_add (by omega)]
      grind [cpOwnerAt]
    · split at hp
      · next h2 h10 h18 =>
        rw [List.mem_singleton] at hp
        subst hp
        rw [cpMacEtMatch_eq, cpOwner_add (by omega)]
        grind [cpOwnerAt]
      · split at hp
        · next h2 h10 h18 h26 =>
          simp only [List.mem_cons, List.not_mem_nil, or_false] at hp
          rcases hp with rfl | rfl
          · rw [cpMacDaMatch_eq (by omega), cpOwner_add (by omega)]
            grind [cpOwnerAt]
          · have hbit := mem_bitmask hb
            rw [cpMacDaEtMatch_eq (by omega), cpOwner_add (by omega)]
            grind [cpOwnerAt]
        · cases hp

theorem cpDirWrites_owned (h : cpFits id conf) :
    ∀ p ∈ cpDirWrites conf (cpRuleIndx id) parsed store d, p.OwnedBy cpOwner id := by
  intro p hp
  rw [cpDirWrites, cpClass_eq h, List.mem_append, List.mem_append, List.mem_singleton] at hp
  rcases hp with hp | hp | rfl
  · split at hp
    · next hetype =>
      rw [List.mem_singleton] at hp
      subst hp
      exact cpSel_owned ((cpFits_etype h).mp hetype)
    · cases hp
  · exact cpValues_owned p hp
  · exact cpEnable_owned (cpFits_lt h)

/-- Every bit that is written belongs to the rule. -/
theorem cpWrites_owned (h : cpFits id conf) : ∀ p ∈ cpWrites conf (cpRuleIndx id) parsed store, p.OwnedBy cpOwner id := by
  intro p hp
  rcases List.mem_append.mp hp with hp | hp
  · exact cpDirWrites_owned h p hp
  · exact cpDirWrites_owned h p hp

/-! ### Every register is written once -/

/-- The places of the registers of a rule, in the order of the writes. -/
def cpPlaces (id : Nat) : List Nat :=
  (if id < 18 then [0x3e] else []) ++
    (if id < 2 then [(8 + id) * 2, (8 + id) * 2 + 1] else if id < 10 then [(id - 2) * 2 + 1]
    else if id < 18 then [0x14 + (id - 10)] else if id < 26 then [(id - 18) * 2, (id - 18) * 2 + 1] else []) ++ [0x3f]

theorem cpPlaces_nodup (hid : id < cpRules) : (cpPlaces id).Nodup ∧ ∀ k ∈ cpPlaces id, k < 0x40 := by
  rw [cpRules] at hid
  interval_cases id <;> decide

theorem cpDirWrites_regs (h : cpFits id conf) :
    (cpDirWrites conf (cpRuleIndx id) parsed store d).map Patch.reg = (cpPlaces id).map (cpBase d + ·) := by
  have hsel : (if conf.match &&& matchEtype ≠ 0 then [cpSel d (cpRuleIndx id) parsed] else []).map Patch.reg =
      (if id < 18 then [0x3e] else []).map (cpBase d + ·) := by
    by_cases hetype : conf.match &&& matchEtype ≠ 0
    · rw [if_pos hetype, if_pos ((cpFits_etype h).mp hetype)]
      rfl
    · rw [if_neg hetype, if_neg fun hid => hetype ((cpFits_etype h).mpr hid)]
      rfl
  rw [cpDirWrites, cpClass_eq h, List.map_append, hsel, List.map_append, cpPlaces, List.map_append, List.map_append,
    List.append_assoc]
  congr 2
  unfold cpValues
  split
  · simp only [List.map_cons, List.map_nil, cpMacDaMatch_eq (show 8 + id < 10 by omega),
      cpMacDaEtMatch_eq (show 8 + id < 10 by omega)]
  · split
    · simp only [List.map_cons, List.map_nil, cpMacDaEtMatch_eq (show id - 2 < 10 by omega)]
    · split
      · simp only [List.map_cons, List.map_nil, cpMacEtMatch_eq]
      · split
        · simp only [List.map_cons, List.map_nil, cpMacDaMatch_eq (show id - 18 < 10 by omega),
            cpMacDaEtMatch_eq (show id - 18 < 10 by omega)]
        · rfl

theorem cpWrites_apart (h : cpFits id conf) : (cpWrites conf (cpRuleIndx id) parsed store).Pairwise Patch.Apart := by
  obtain ⟨hnodup, hlt⟩ := cpPlaces_nodup (cpFits_lt h)
  have hbase : ∀ d, ((cpPlaces id).map (cpBase d + ·)).Nodup := fun d =>
    List.Nodup.map_on (fun a _ b _ hab => Nat.add_left_cancel hab) hnodup
  have hregs : ((cpWrites conf (cpRuleIndx id) parsed store).map Patch.reg).Nodup := by
    rw [cpWrites, List.map_append, cpDirWrites_regs h, cpDirWrites_regs h]
    refine List.Nodup.append (hbase .ingress) (hbase .egress) ?_
    rintro q hq hq'
    obtain ⟨k, hk, rfl⟩ := List.mem_map.mp hq
    obtain ⟨k', hk', he⟩ := List.mem_map.mp hq'
    have := hlt k hk
    simp only [cpBase] at he
    omega
  exact (List.pairwise_map.mp hregs).imp Patch.apart_of_ne

theorem cpEnable_mem (h : cpFits id conf) : cpEnable id store d ∈ cpWrites conf (cpRuleIndx id) parsed store := by
  have hdir : cpEnable id store d ∈ cpDirWrites conf (cpRuleIndx id) parsed store d := by
    rw [cpDirWrites, cpClass_eq h]
    simp
  cases d with
  | ingress => exact List.mem_append_left _ hdir
  | egress => exact List.mem_append_right _ hdir

/-- A rule with the selection of its Ethertype. -/
abbrev CpRule : Type := ControlFrameMatchConf × Bool

/-- The slots of the rules. -/
def cpSlots : Slots Nat 32 Nat CpRule where
  owner := cpOwner
  fits id f := cpFits id f.1
  sets id f := cpWrites f.1 (cpRuleIndx id) f.2 true
  clears id f := cpWrites f.1 (cpRuleIndx id) f.2 false
  off id := if id < cpRules then [cpEnable id false .ingress, cpEnable id false .egress] else []
  sets_owned := cpWrites_owned
  clears_owned := cpWrites_owned
  off_owned {id} p hp := by
    split at hp
    · next hid =>
      simp only [List.mem_cons, List.not_mem_nil, or_false] at hp
      rcases hp with rfl | rfl
      · exact cpEnable_owned hid
      · exact cpEnable_owned hid
    · cases hp
  sets_apart := cpWrites_apart
  clears_apart := cpWrites_apart
  clears_off {id f} h p hp := by
    rw [if_pos (cpFits_lt h)] at hp
    simp only [List.mem_cons, List.not_mem_nil, or_false] at hp
    rcases hp with rfl | rfl
    · exact cpEnable_mem h
    · exact cpEnable_mem h
  off_zero {id} p hp := by
    split at hp
    · simp only [List.mem_cons, List.not_mem_nil, or_false] at hp
      rcases hp with rfl | rfl <;> exact BitVec.zero_and
    · cases hp

theorem cpSlots_owner : cpSlots.owner = cpOwner := by
  rw [cpSlots]

theorem cpWrites_prefix_owned (h : cpFits id conf) {ps : List (Patch Nat 32)}
    (hps : ps <+: cpWrites conf (cpRuleIndx id) parsed store) : ∀ p ∈ ps, p.OwnedBy cpSlots.owner id := by
  intro p hp
  rw [cpSlots_owner]
  exact cpWrites_owned h p (hps.subset hp)

end Slots

/-! ## The calls -/

section Calls

variable {H : Type} {chip : RuleChip H} {phy : Phy} {T : Nat → ControlFrameMatchConf} {m : Nat → BitVec 32}
  {conf : ControlFrameMatchConf} {id indx : Nat} {c : Conf} {s s' : Dev Conf H}

variable (chip T m) in
/-- The table of the rules, and the words of the classification registers. -/
structure Rules (s : Dev Conf H) : Prop where
  table : s.conf.glb.controlMatch = T
  recfg : s.conf.glb.spdChangeMacsecRecfg = false
  cp : chip.cp s.hw = m

variable (chip) in
/-- Calls that leave the rules and their registers alone. -/
def aside : Frame (Dev Conf H) where
  rel s s' := s'.conf.glb.controlMatch = s.conf.glb.controlMatch ∧
    s'.conf.glb.spdChangeMacsecRecfg = s.conf.glb.spdChangeMacsecRecfg ∧ chip.cp s'.hw = chip.cp s.hw
  refl _ := ⟨rfl, rfl, rfl⟩
  trans h₁ h₂ := ⟨h₂.1.trans h₁.1, h₂.2.1.trans h₁.2.1, h₂.2.2.trans h₁.2.2⟩

theorem Rules.aside (h : Rules chip T m s) (hs : (aside chip).rel s s') : Rules chip T m s' :=
  ⟨hs.1.trans h.table, hs.2.1.trans h.recfg, hs.2.2.trans h.cp⟩

theorem aside_hwOp {op : HwOp} (hop : op.sparesRules = true) : Within (aside chip) (hwOp chip.toHw op) := fun s => by
  rw [final_hwOp]
  exact ⟨rfl, rfl, chip.sparesRules op hop s.conf s.hw⟩

theorem aside_patternSetPriv {pattern : MatchPattern} {rule : Nat} :
    Within (aside chip) (patternSetPriv chip.toHw phy none .egress .uncontrolledPort pattern rule) := by
  refine Within.ite (Within.pure _) (Within.bind (within_getConf) fun c => Within.failIf.bind fun _ => ?_)
  split
  · exact Within.throw _
  · refine Within.failIf.bind fun _ => Within.bind (fun s => ⟨rfl, rfl, rfl⟩) fun _ => ?_
    refine (aside_hwOp rfl).orFail.bind fun _ => (aside_hwOp rfl).orFail.bind fun _ => ?_
    exact (aside_hwOp rfl).orFail.bind fun _ => (aside_hwOp rfl).orFail

/-- Some of the writes for a rule have been made; when the call returns, all of them. -/
theorem ends_controlRule {store : Bool} (h : Rules chip T m s) :
    Ends (fun t => t = s) (hwOp chip.toHw (.controlRule conf indx store))
      (fun _ t => t.conf = s.conf ∧ Rules chip T (patch m (cpWrites conf indx (parsedEtype s.conf conf) store)) t)
      fun t => t.conf = s.conf ∧ ∃ ps, ps <+: cpWrites conf indx (parsedEtype s.conf conf) store ∧
        Rules chip T (patch m ps) t := by
  rintro t rfl
  obtain ⟨ps, hps, hcp, hall⟩ := chip.controlRule conf indx store t.conf t.hw
  by_cases hok : (chip.run (.controlRule conf indx store) t.conf t.hw).1 = true
  · refine Or.inl ⟨(), _, if_pos hok, rfl, h.table, h.recfg, ?_⟩
    rw [hcp, h.cp, hall hok]
  · refine Or.inr ⟨.access, _, if_neg hok, rfl, ps, hps, h.table, h.recfg, ?_⟩
    rw [hcp, h.cp]

/-- The rules that `cp_rule_id_get` tries are for matches of this kind. -/
theorem cpRulesFor_spec (h : conf.match &&& matchEtype ≠ 0 ∨ conf.match &&& matchDmac ≠ 0)
    (hmem : (id, indx) ∈ cpRulesFor phy conf.match) : cpFits id conf ∧ indx = cpRuleIndx id := by
  unfold cpRulesFor at hmem
  unfold cpFits
  split at hmem
  · next hboth =>
    rw [if_pos hboth]
    simp only [List.mem_cons, Prod.mk.injEq, List.not_mem_nil, or_false] at hmem
    rcases hmem with ⟨rfl, rfl⟩ | ⟨rfl, rfl⟩
    · exact ⟨by decide, rfl⟩
    · exact ⟨by decide, rfl⟩
  · next hboth =>
    rw [if_neg hboth]
    split at hmem
    · next hetype =>
      rw [if_pos hetype]
      have hall : ∀ n, n ≤ 18 → ∀ k ∈ (List.range n).drop 2, 2 ≤ k ∧ k < 18 := by decide
      obtain ⟨k, hk, he⟩ := List.mem_map.mp hmem
      obtain ⟨h2, h18⟩ := hall _ (by split <;> decide) k hk
      cases he
      refine ⟨⟨h2, h18⟩, ?_⟩
      have hno : ¬id < 2 := Nat.not_lt.mpr h2
      simp only [cpRuleIndx, if_neg hno, if_pos h18]
    · next hetype =>
      have hdmac := h.resolve_left hetype
      rw [if_neg hetype, if_pos hdmac]
      rw [if_pos hdmac] at hmem
      obtain ⟨k, hk, he⟩ := List.mem_map.mp hmem
      have hlt := List.mem_range.mp hk
      cases he
      refine ⟨by omega, ?_⟩
      have hno : ¬18 + indx < 2 ∧ ¬18 + indx < 10 ∧ ¬18 + indx < 18 := by omega
      rw [cpRuleIndx, if_neg hno.1, if_neg hno.2.1, if_neg hno.2.2, if_pos (by omega)]
      omega

/-- What `cp_rule_id_get` finds: an id for the rule, which is free, or of a kind of its own. -/
theorem cpRuleIdGet_spec {rule : Nat} (h : cpRuleIdGet phy c conf rule true = .ok (id, indx)) : cpFits id conf ∧
    (∀ parsed store, cpWrites conf indx parsed store = cpWrites conf (cpRuleIndx id) parsed store) ∧
    ((c.glb.controlMatch id).match = matchDisable ∨ id = 26 ∨ id = 27) := by
  have hkinds : conf.match &&& (matchEtype ||| matchDmac) ≠ 0 ↔
      conf.match &&& matchEtype ≠ 0 ∨ conf.match &&& matchDmac ≠ 0 := by
    rw [BitVec.and_or_distrib_left]
    exact BitVec.or_eq_zero_iff.not.trans not_and_or
  rw [cpRuleIdGet, if_neg (by decide)] at h
  split at h
  · next hkind =>
    split at h
    · next k hk =>
      cases h
      have hfree : (c.glb.controlMatch id).match = matchDisable := by simpa using List.find?_some hk
      obtain ⟨hfits, hindx⟩ : cpFits id conf ∧ indx = cpRuleIndx id :=
        cpRulesFor_spec (hkinds.mp hkind) (List.mem_of_find?_eq_some hk)
      exact ⟨hfits, fun _ _ => by rw [hindx], Or.inl hfree⟩
    · cases h
  · next hkind =>
    rw [hkinds, not_or] at hkind
    split at h
    · next hbpdu =>
      cases h
      refine ⟨?_, fun _ _ => ?_, Or.inr (Or.inl rfl)⟩
      · rw [cpFits, if_neg fun hb => hkind.1 hb.1, if_neg hkind.1, if_neg hkind.2, if_pos hbpdu]
      · simp only [cpWrites, cpDirWrites, cpClass, if_neg hkind.2, hkind.1, false_and, ↓reduceIte]
    · next hbpdu =>
      split at h
      · next hcdp =>
        cases h
        refine ⟨?_, fun _ _ => ?_, Or.inr (Or.inr rfl)⟩
        · rw [cpFits, if_neg fun hb => hkind.1 hb.1, if_neg hkind.1, if_neg hkind.2, if_neg hbpdu]
          exact ⟨hcdp, rfl⟩
        · simp only [cpWrites, cpDirWrites, cpClass, if_neg hkind.2, hkind.1, false_and, ↓reduceIte]
      · split at h <;> cases h

/-- The slot of which a set writes the registers. -/
def cpReached (phy : Phy) (c : Conf) (conf : ControlFrameMatchConf) : Option Nat :=
  if (conf.match &&& matchBpdu ≠ 0 ∧ conf.match ≠ matchBpdu) ∨ (conf.match &&& matchCdpUdld ≠ 0 ∧
      conf.match ≠ matchCdpUdld) ∨ c.glb.init.enable = false then none
  else match cpRuleIdGet phy c conf 0 true with
    | .ok k => some k.1
    | .error _ => none

variable (chip T m s conf) in
/-- What a call leaves that has written all or some of what a set writes to the slot. -/
def SetIn (id : Nat) (T' : Nat → ControlFrameMatchConf) (ps : List (Patch Nat 32)) (t : Dev Conf H) : Prop :=
  cpFits id conf ∧ ((T id).match = matchDisable ∨ id = 26 ∨ id = 27) ∧
    ps <+: cpWrites conf (cpRuleIndx id) (parsedEtype s.conf conf) true ∧ Rules chip T' (patch m ps) t

theorem ends_controlFrameMatchConfSetPriv (h : Rules chip T m s) {rule : Nat} :
    Ends (fun t => t = s) (controlFrameMatchConfSetPriv chip.toHw phy conf rule true)
      (fun id t => (∃ indx, cpRuleIdGet phy s.conf conf 0 true = .ok (id, indx)) ∧
        SetIn chip T m conf s id T (cpWrites conf (cpRuleIndx id) (parsedEtype s.conf conf) true) t)
      fun t => ((∃ e, cpRuleIdGet phy s.conf conf 0 true = .error e) ∧ t = s) ∨
        ∃ id indx ps, cpRuleIdGet phy s.conf conf 0 true = .ok (id, indx) ∧ SetIn chip T m conf s id T ps t := by
  refine ends_getConf_bind (c := s.conf) (fun t ht => by rw [ht]) ?_
  have hget : cpRuleIdGet phy s.conf conf rule (true && !s.conf.glb.spdChangeMacsecRecfg) =
      cpRuleIdGet phy s.conf conf 0 true := by
    rw [h.recfg]
    rfl
  rw [hget]
  cases hid : cpRuleIdGet phy s.conf conf 0 true with
  | error e => exact Ends.throw fun t ht => Or.inl ⟨⟨e, rfl⟩, ht⟩
  | ok k =>
    obtain ⟨id, indx⟩ := k
    obtain ⟨hfits, hindx, hfree⟩ := cpRuleIdGet_spec hid
    rw [h.table] at hfree
    have hbroken : ∀ ps t, ps <+: cpWrites conf indx (parsedEtype s.conf conf) true → Rules chip T (patch m ps) t →
        ((∃ e, (Except.ok (id, indx) : Except Rc (Nat × Nat)) = .error e) ∧ t = s) ∨ ∃ id' indx' ps',
          (Except.ok (id, indx) : Except Rc (Nat × Nat)) = .ok (id', indx') ∧ SetIn chip T m conf s id' T ps' t :=
      fun ps t hps ht => Or.inr ⟨id, indx, ps, rfl, hfits, hfree, by rwa [← hindx], ht⟩
    refine Ends.bind (Q := fun _ t => t = s) (Ends.when (fun _ => Ends.throw fun t ht => ?_) fun _ _ ht => ht) fun _ => ?_
    · exact hbroken [] t List.nil_prefix (ht ▸ h)
    refine Ends.bind ((ends_controlRule h).weaken (fun _ _ ht => ht) fun t ht => ?_) fun _ => ?_
    · obtain ⟨-, ps, hps, hrules⟩ := ht
      exact hbroken ps t hps hrules
    let P : Dev Conf H → Prop := Rules chip T (patch m (cpWrites conf indx (parsedEtype s.conf conf) true))
    refine Ends.bind (Q := fun _ => P) ?_ fun _ => Ends.pure fun t ht => ?_
    · refine Ends.pre (Ends.when (P := P) (fun _ => ?_) fun _ _ ht => ht) fun t ht => ht.2
      refine Ends.bind (Q := fun _ => P) (Ends.when (fun _ => ?_) fun _ _ ht => ht) fun _ => ?_
      · exact (aside_patternSetPriv.orFail.ends fun _ _ ht hs => Rules.aside ht hs).weaken (fun _ _ ht => ht)
          fun t ht => hbroken _ t List.prefix_rfl ht
      · exact Ends.when (fun hb => absurd hb.1 (by decide)) fun _ _ ht => ht
    · have hrules : P t := ht
      refine ⟨⟨indx, rfl⟩, hfits, hfree, List.prefix_rfl, ?_⟩
      rwa [← hindx]

theorem ends_enabledCheck_bind {β : Type} {f : Unit → Call H β} {Q : β → Dev Conf H → Prop} {E : Dev Conf H → Prop}
    (hno : s.conf.glb.init.enable = false → E s)
    (hf : s.conf.glb.init.enable = true → Ends (fun t => t = s) (f ()) Q E) :
    Ends (fun t => t = s) (enabledCheck >>= f) Q E := by
  rw [enabledCheck, bind_assoc]
  refine ends_getConf_bind (c := s.conf) (fun t ht => by rw [ht]) (Ends.failIf_bind (fun t ht hb => ?_) fun hen => ?_)
  · rw [ht]
    exact hno hb
  · exact hf (by simpa using hen)

/-- A set that returns has written a slot that was free, or that of the only rule of its kind; one that fails leaves the
table. -/
theorem ends_controlFrameMatchConfSet (h : Rules chip T m s) {rule : Nat} :
    Ends (fun t => t = s) (controlFrameMatchConfSet chip.toHw phy conf rule)
      (fun id t => cpReached phy s.conf conf = some id ∧ SetIn chip T m conf s id (Function.update T id conf)
        (cpWrites conf (cpRuleIndx id) (parsedEtype s.conf conf) true) t)
      fun t => (cpReached phy s.conf conf = none ∧ t = s) ∨
        ∃ id ps, cpReached phy s.conf conf = some id ∧ SetIn chip T m conf s id T ps t := by
  unfold cpReached
  refine Ends.failIf_bind (fun t ht hb => Or.inl ⟨if_pos (Or.inl hb), ht⟩) fun hbpdu => ?_
  refine Ends.failIf_bind (fun t ht hb => Or.inl ⟨if_pos (Or.inr (Or.inl hb)), ht⟩) fun hcdp => ?_
  refine ends_enabledCheck_bind (fun hb => Or.inl ⟨if_pos (Or.inr (Or.inr hb)), rfl⟩) fun hen => ?_
  rw [if_neg (not_or.mpr ⟨hbpdu, not_or.mpr ⟨hcdp, by rw [hen]; decide⟩⟩)]
  refine Ends.bind ((ends_controlFrameMatchConfSetPriv h).weaken (fun _ _ ht => ht) fun t ht => ?_) fun id => ?_
  · rcases ht with ⟨⟨e, he⟩, ht⟩ | ⟨id, indx, ps, he, ht⟩
    · exact Or.inl ⟨by rw [he], ht⟩
    · exact Or.inr ⟨id, ps, by rw [he], ht⟩
  · refine Ends.bind (ends_modifyConf_of (T := fun t => _) ?_) fun _ => Ends.pure fun t ht => ht
    rintro t ⟨⟨indx, he⟩, hfits, hfree, hps, hrules⟩
    refine ⟨by rw [he], hfits, hfree, hps, ?_, hrules.recfg, hrules.cp⟩
    rw [← hrules.table]
    rfl

/-- On the way the match of the rule may be taken out of the table already. -/
theorem ends_controlRule_deleted {rule : Nat} (h : Rules chip T m s) :
    Ends (fun t => t = s) (controlFrameMatchConfSetPriv chip.toHw phy conf rule false)
      (fun _ t => ∃ x, Rules chip (Function.update T rule x)
        (patch m (cpWrites conf (cpRuleIndx rule) (parsedEtype s.conf conf) false)) t)
      fun t => ∃ x ps, ps <+: cpWrites conf (cpRuleIndx rule) (parsedEtype s.conf conf) false ∧
        Rules chip (Function.update T rule x) (patch m ps) t := by
  have hsame : Function.update T rule (T rule) = T := Function.update_eq_self _ _
  have hstart : ∀ ps t, ps <+: cpWrites conf (cpRuleIndx rule) (parsedEtype s.conf conf) false →
      Rules chip T (patch m ps) t → ∃ x ps', ps' <+: cpWrites conf (cpRuleIndx rule) (parsedEtype s.conf conf) false ∧
        Rules chip (Function.update T rule x) (patch m ps') t := fun ps t hps ht => ⟨T rule, ps, hps, by rwa [hsame]⟩
  refine ends_getConf_bind (c := s.conf) (fun t ht => by rw [ht]) ?_
  refine Ends.bind (Q := fun _ t => t = s) (Ends.when (fun _ => Ends.throw fun t ht => ?_) fun _ _ ht => ht) fun _ => ?_
  · exact hstart [] t List.nil_prefix (ht ▸ h)
  refine Ends.bind ((ends_controlRule h).weaken (fun _ _ ht => ht) fun t ht => ?_) fun _ => ?_
  · obtain ⟨-, ps, hps, hrules⟩ := ht
    exact hstart ps t hps hrules
  let P : Dev Conf H → Prop := Rules chip T (patch m (cpWrites conf (cpRuleIndx rule) (parsedEtype s.conf conf) false))
  let Q : Dev Conf H → Prop := fun t => ∃ x, Rules chip (Function.update T rule x)
    (patch m (cpWrites conf (cpRuleIndx rule) (parsedEtype s.conf conf) false)) t
  have hPQ : ∀ t, P t → Q t := fun t ht => ⟨T rule, by rwa [hsame]⟩
  refine Ends.bind (Q := fun _ => Q) ?_ fun _ => Ends.pure fun t ht => ht
  refine Ends.pre (Ends.when (P := P) (fun _ => ?_) fun _ t ht => hPQ t ht) fun t ht => ht.2
  refine Ends.bind (Q := fun _ => P) (Ends.when (fun hb => absurd hb.1 (by decide)) fun _ _ ht => ht) fun _ => ?_
  refine Ends.when (fun _ => ?_) fun _ t ht => hPQ t ht
  have haside : ∀ {op : HwOp} {e : Rc}, op.sparesRules = true → Ends P (orFail (hwOp chip.toHw op) e) (fun _ => P)
      fun t => ∃ x ps, ps <+: cpWrites conf (cpRuleIndx rule) (parsedEtype s.conf conf) false ∧
        Rules chip (Function.update T rule x) (patch m ps) t := fun hop =>
    ((aside_hwOp hop).orFail.ends fun _ _ ht hs => Rules.aside ht hs).weaken (fun _ _ ht => ht)
      fun t ht => hstart _ t List.prefix_rfl ht
  refine (haside rfl).bind fun _ => (haside rfl).bind fun _ => ends_modifyConf_of ?_
  intro t ht
  refine ⟨{ T rule with «match» := matchDisable }, ?_, ht.recfg, ht.cp⟩
  have htable : t.conf.glb.controlMatch = T := ht.table
  simp only [Conf.freeBypass, Conf.setControlMatch, Conf.setGlb_glb, Conf.setSaInUse, Conf.setTxSa_glb, htable]

/-- A deletion is refused, or forgets the rule, whether its registers could be written or not. -/
theorem ends_controlFrameMatchConfDel (h : Rules chip T m s) {rule : Nat} :
    let T' := Function.update T rule { «match» := matchDisable }
    let ps := cpWrites (T rule) (cpRuleIndx rule) (parsedEtype s.conf (T rule)) false
    let There := s.conf.glb.init.enable = true ∧ rule < cpRules ∧ (T rule).match ≠ matchDisable
    Ends (fun t => t = s) (controlFrameMatchConfDel chip.toHw phy rule)
      (fun _ t => There ∧ Rules chip T' (patch m ps) t)
      fun t => (¬There ∧ t = s) ∨ There ∧ ∃ ps', ps' <+: ps ∧ Rules chip T' (patch m ps') t := by
  intro T' ps There
  refine ends_enabledCheck_bind (fun hno => Or.inl ⟨fun hb => ?_, rfl⟩) fun hen => ?_
  · exact absurd (hno.symm.trans hb.1) (by decide)
  refine Ends.failIf_bind (fun t ht hle => Or.inl ⟨fun hb => absurd hb.2.1 (Nat.not_lt.mpr hle), ht⟩) fun hlt => ?_
  refine ends_getConf_bind (c := s.conf) (fun t ht => by rw [ht]) ?_
  rw [h.table]
  refine Ends.failIf_bind (fun t ht hfree => Or.inl ⟨fun hb => hb.2.2 hfree, ht⟩) fun hused => ?_
  have hthere : There := ⟨hen, Nat.not_le.mp hlt, hused⟩
  have hstored : ∀ {x : ControlFrameMatchConf} {m' : Nat → BitVec 32} {t : Dev Conf H},
      Rules chip (Function.update T rule x) m' t →
        Rules chip T' m' { t with conf := t.conf.setControlMatch rule { «match» := matchDisable } } := by
    intro x m' t ht
    refine ⟨?_, ht.recfg, ht.cp⟩
    rw [Conf.setControlMatch, Conf.setGlb_glb, ht.table]
    exact Function.update_idem _ _ _
  have hdel : Ends (fun t => t = s) (discard (controlFrameMatchConfSetPriv chip.toHw phy (T rule) rule false))
      (fun _ t => ∃ x, Rules chip (Function.update T rule x) (patch m ps) t)
      fun t => ∃ x ps', ps' <+: ps ∧ Rules chip (Function.update T rule x) (patch m ps') t :=
    (ends_controlRule_deleted h).bind fun _ => Ends.pure fun _ ht => ht
  refine hdel.afterwards ?_ ?_
  · rintro - t ⟨x, ht⟩
    exact ⟨hthere, hstored ht⟩
  · rintro t ⟨x, ps', hps, ht⟩
    exact Or.inr ⟨hthere, ps', hps, hstored ht⟩

end Calls

/-! ## Runs -/

/-- The rules that were accepted and not deleted since, by their ids, and the slots for which the last call has begun
to write and has failed. -/
structure RuleBook where
  rules : Nat → Option CpRule
  doubt : Set Nat

namespace RuleBook

variable (B : RuleBook)

/-- A slot has been written. -/
def written (id : Nat) (o : Option CpRule) : RuleBook := ⟨Function.update B.rules id o, B.doubt \ {id}⟩

/-- A slot has been written in part. -/
def broken (id : Nat) (o : Option CpRule) : RuleBook := ⟨Function.update B.rules id o, insert id B.doubt⟩

/-- A set has failed. -/
def notSet : Option Nat → RuleBook
  | some id => B.broken id (B.rules id)
  | none => B

open Classical in
/-- A deletion has failed: it was refused, or has forgotten the rule. -/
noncomputable def notDeleted (c : Conf) (id : Nat) : RuleBook :=
  if c.glb.init.enable = true ∧ B.rules id ≠ none then B.broken id none else B

end RuleBook

section Runs

variable {H : Type} (chip : RuleChip H) (phy : Phy)

/-- Before the first rule: no rule is in the table, and the registers are clear. -/
structure RuleStart (s : Dev Conf H) : Prop where
  free : ∀ id < cpRules, (s.conf.glb.controlMatch id).match = matchDisable
  recfg : s.conf.glb.spdChangeMacsecRecfg = false
  clear : chip.cp s.hw = fun _ => 0

/-- One call: a rule is set or deleted, or another call leaves the rules alone, such as one that changes the bypass
mode. -/
inductive RuleStep : Dev Conf H × RuleBook → Dev Conf H × RuleBook → Prop
  | set {s s' : Dev Conf H} {B : RuleBook} {conf : ControlFrameMatchConf} {rule id : Nat}
    (hok : controlFrameMatchConfSet chip.toHw phy conf rule s = .ok id s') :
    RuleStep (s, B) (s', B.written id (some (conf, parsedEtype s.conf conf)))
  | notSet {s s' : Dev Conf H} {B : RuleBook} {conf : ControlFrameMatchConf} {rule : Nat} {e : Rc}
    (herr : controlFrameMatchConfSet chip.toHw phy conf rule s = .error e s') :
    RuleStep (s, B) (s', B.notSet (cpReached phy s.conf conf))
  | del {s s' : Dev Conf H} {B : RuleBook} {id : Nat} (hok : controlFrameMatchConfDel chip.toHw phy id s = .ok () s') :
    RuleStep (s, B) (s', B.written id none)
  | notDeleted {s s' : Dev Conf H} {B : RuleBook} {id : Nat} {e : Rc}
    (herr : controlFrameMatchConfDel chip.toHw phy id s = .error e s') :
    RuleStep (s, B) (s', B.notDeleted s.conf id)
  | other {s s' : Dev Conf H} {B : RuleBook} (h : (aside chip).rel s s') : RuleStep (s, B) (s', B)

/-- Any number of calls. -/
abbrev RuleRun : Dev Conf H × RuleBook → Dev Conf H × RuleBook → Prop := Relation.ReflTransGen (RuleStep chip phy)

variable {chip phy} {s s' s₀ : Dev Conf H} {B B' : RuleBook} {conf : ControlFrameMatchConf} {id : Nat}

variable (chip) in
/-- The invariant of the runs: the table and the slots hold the rules. -/
structure RulesKept (B : RuleBook) (s : Dev Conf H) : Prop where
  shown : cpSlots.Shown B.rules B.doubt (chip.cp s.hw)
  table : ∀ id f, B.rules id = some f → s.conf.glb.controlMatch id = f.1
  free : ∀ id < cpRules, B.rules id = none → (s.conf.glb.controlMatch id).match = matchDisable
  recfg : s.conf.glb.spdChangeMacsecRecfg = false

theorem RuleStart.kept (h : RuleStart chip s) : RulesKept chip ⟨fun _ => none, ∅⟩ s where
  shown := by
    rw [h.clear]
    exact Slots.shown_zero
  table _ _ hf := by cases hf
  free id hid _ := h.free id hid
  recfg := h.recfg

theorem cpFits_used (h : cpFits id conf) : conf.match ≠ matchDisable := by
  intro hm
  unfold cpFits at h
  rw [hm] at h
  revert h
  simp [matchDisable, matchEtype, matchDmac, matchBpdu, matchCdpUdld]

namespace RulesKept

theorem rules (h : RulesKept chip B s) : Rules chip s.conf.glb.controlMatch (chip.cp s.hw) s := ⟨rfl, h.recfg, rfl⟩

theorem used_iff (h : RulesKept chip B s) (hid : id < cpRules) :
    (s.conf.glb.controlMatch id).match ≠ matchDisable ↔ B.rules id ≠ none := by
  constructor
  · intro hused hno
    exact hused (h.free id hid hno)
  · intro hsome
    obtain ⟨f, hf⟩ := Option.ne_none_iff_exists'.mp hsome
    rw [h.table id f hf]
    exact cpFits_used (h.shown.fits id f hf)

/-- The table after one entry is replaced. -/
theorem tables (h : RulesKept chip B s) {x : ControlFrameMatchConf} {m : Nat → BitVec 32} {o : Option CpRule}
    (ht : Rules chip (Function.update s.conf.glb.controlMatch id x) m s') (hx : ∀ f, o = some f → x = f.1)
    (hno : o = none → x.match = matchDisable) :
    (∀ j f, Function.update B.rules id o j = some f → s'.conf.glb.controlMatch j = f.1) ∧
    ∀ j < cpRules, Function.update B.rules id o j = none → (s'.conf.glb.controlMatch j).match = matchDisable := by
  rw [ht.table]
  constructor
  · intro j f hf
    rw [Function.update_apply] at hf ⊢
    split at hf
    · next heq => rw [if_pos heq, hx f hf]
    · next hne => rw [if_neg hne, h.table j f hf]
  · intro j hj hf
    rw [Function.update_apply] at hf ⊢
    split at hf
    · next heq => rw [if_pos heq, hno hf]
    · next hne => rw [if_neg hne, h.free j hj hf]

theorem of_rules (h : RulesKept chip B s) (ht : Rules chip s.conf.glb.controlMatch (chip.cp s.hw) s') :
    RulesKept chip B s' where
  shown := by
    rw [ht.cp]
    exact h.shown
  table := by
    rw [ht.table]
    exact h.table
  free := by
    rw [ht.table]
    exact h.free
  recfg := ht.recfg

theorem set (h : RulesKept chip B s) {rule : Nat} (hok : controlFrameMatchConfSet chip.toHw phy conf rule s = .ok id s') :
    RulesKept chip (B.written id (some (conf, parsedEtype s.conf conf))) s' := by
  obtain ⟨-, hfits, -, -, ht⟩ := (ends_controlFrameMatchConfSet h.rules).ok rfl hok
  obtain ⟨htable, hfree⟩ := h.tables (o := some (conf, parsedEtype s.conf conf)) ht (fun f hf => by cases hf; rfl)
    fun hno => by cases hno
  refine ⟨?_, htable, hfree, ht.recfg⟩
  rw [ht.cp]
  exact h.shown.set (f := (conf, parsedEtype s.conf conf)) hfits

theorem notSet (h : RulesKept chip B s) {rule : Nat} {e : Rc}
    (herr : controlFrameMatchConfSet chip.toHw phy conf rule s = .error e s') :
    RulesKept chip (B.notSet (cpReached phy s.conf conf)) s' := by
  rcases (ends_controlFrameMatchConfSet h.rules).error rfl herr with ⟨hno, rfl⟩ | ⟨id, ps, hid, hfits, -, hps, ht⟩
  · rw [hno]
    exact h
  · have hkept : RulesKept chip B { s' with hw := s.hw } :=
      h.of_rules ⟨ht.table, ht.recfg, rfl⟩
    have howned : ∀ p ∈ ps, p.OwnedBy cpSlots.owner id := cpWrites_prefix_owned hfits hps
    rw [hid]
    refine ⟨?_, ?_, ?_, ht.recfg⟩
    · rw [ht.cp]
      exact h.shown.broken howned fun g hg => h.shown.fits id g hg
    · simp only [RuleBook.notSet, RuleBook.broken, Function.update_eq_self]
      exact hkept.table
    · simp only [RuleBook.notSet, RuleBook.broken, Function.update_eq_self]
      exact hkept.free

theorem del (h : RulesKept chip B s) (hok : controlFrameMatchConfDel chip.toHw phy id s = .ok () s') :
    RulesKept chip (B.written id none) s' := by
  obtain ⟨⟨-, hid, hused⟩, ht⟩ := (ends_controlFrameMatchConfDel h.rules).ok rfl hok
  obtain ⟨f, hf⟩ := Option.ne_none_iff_exists'.mp ((h.used_iff hid).mp hused)
  obtain ⟨htable, hfree⟩ := h.tables (o := none) ht (fun f hf => by cases hf) fun _ => rfl
  refine ⟨?_, htable, hfree, ht.recfg⟩
  have hfits := h.shown.fits id f hf
  rw [ht.cp, h.table id f hf]
  exact h.shown.clear (f := (f.1, parsedEtype s.conf f.1)) hfits

theorem notDeleted (h : RulesKept chip B s) {e : Rc} (herr : controlFrameMatchConfDel chip.toHw phy id s = .error e s') :
    RulesKept chip (B.notDeleted s.conf id) s' := by
  rcases (ends_controlFrameMatchConfDel h.rules).error rfl herr with ⟨hno, rfl⟩ | ⟨⟨hen, hid, hused⟩, ps, hps, ht⟩
  · have hrefused : ¬(s'.conf.glb.init.enable = true ∧ B.rules id ≠ none) := by
      rintro ⟨hen, hsome⟩
      obtain ⟨f, hf⟩ := Option.ne_none_iff_exists'.mp hsome
      have hid := cpFits_lt (h.shown.fits id f hf)
      exact hno ⟨hen, hid, (h.used_iff hid).mpr hsome⟩
    rw [RuleBook.notDeleted, if_neg hrefused]
    exact h
  · have hsome := (h.used_iff hid).mp hused
    obtain ⟨f, hf⟩ := Option.ne_none_iff_exists'.mp hsome
    obtain ⟨htable, hfree⟩ := h.tables (o := none) ht (fun f hf => by cases hf) fun _ => rfl
    rw [RuleBook.notDeleted, if_pos ⟨hen, hsome⟩]
    refine ⟨?_, htable, hfree, ht.recfg⟩
    have hfits : cpFits id f.1 := h.shown.fits id f hf
    rw [h.table id f hf] at hps
    have howned : ∀ p ∈ ps, p.OwnedBy cpSlots.owner id := cpWrites_prefix_owned hfits hps
    rw [ht.cp]
    exact h.shown.broken howned fun g hg => by cases hg

/-- **Every call keeps the invariant.** -/
theorem step {x y : Dev Conf H × RuleBook} (hstep : RuleStep chip phy x y) (h : RulesKept chip x.2 x.1) :
    RulesKept chip y.2 y.1 := by
  cases hstep with
  | set hok => exact h.set hok
  | notSet herr => exact h.notSet herr
  | del hok => exact h.del hok
  | notDeleted herr => exact h.notDeleted herr
  | other hs => exact h.of_rules (h.rules.aside hs)

theorem run (hstart : RuleStart chip s₀) (hrun : RuleRun chip phy (s₀, ⟨fun _ => none, ∅⟩) (s, B)) :
    RulesKept chip B s := by
  have hinv : ∀ y, RuleRun chip phy (s₀, ⟨fun _ => none, ∅⟩) y → RulesKept chip y.2 y.1 := by
    intro y hy
    induction hy with
    | refl => exact hstart.kept
    | tail _ hstep ih => exact step hstep ih
  exact hinv _ hrun

end RulesKept

/-! ## What holds in every run -/

/-- The registers after the rules have been set once, in the order of their ids, from registers that are clear. -/
def RuleBook.programmed (B : RuleBook) : Nat → BitVec 32 := cpSlots.programmed (List.range cpRules) B.rules

/-- The enable bit of a rule. -/
def cpEnabled (m : Nat → BitVec 32) (id : Nat) (d : Direction) : Bool := (m (cpMatchEnable d)).getLsbD (cpEnableBit id)

variable (chip phy B s) in
/-- The registers and the table hold the rules: in the slots that are not in doubt as a single programming would leave
them, each under an id and in bits of its own. A call that fails writes to one slot only. -/
structure RulesHeld : Prop where
  programmed : ∀ id f, B.rules id = some f → id ∉ B.doubt → ∀ p ∈ cpSlots.sets id f,
    chip.cp s.hw p.reg &&& p.mask = B.programmed p.reg &&& p.mask
  enabled : ∀ id < cpRules, id ∉ B.doubt → ∀ d, cpEnabled (chip.cp s.hw) id d = cpEnabled B.programmed id d
  got : ∀ id f, B.rules id = some f → s.conf.glb.init.enable = true →
    (controlFrameMatchConfGet id : Call H _) s = .ok f.1 s
  free : ∀ id < cpRules, B.rules id = none → (s.conf.glb.controlMatch id).match = matchDisable
  fresh : ∀ conf rule id s', controlFrameMatchConfSet chip.toHw phy conf rule s = .ok id s' →
    id < cpRules ∧ (B.rules id = none ∨ id = 26 ∨ id = 27)
  apart : ∀ id id' f f', B.rules id = some f → B.rules id' = some f' → id ≠ id' →
    ∀ p ∈ cpSlots.sets id f, ∀ q ∈ cpSlots.sets id' f', p.Apart q
  notSet : ∀ conf rule e s', controlFrameMatchConfSet chip.toHw phy conf rule s = .error e s' →
    s'.conf.glb.controlMatch = s.conf.glb.controlMatch ∧
    ∀ id < cpRules, cpReached phy s.conf conf ≠ some id → ∀ d,
      cpEnabled (chip.cp s'.hw) id d = cpEnabled (chip.cp s.hw) id d
  notDeleted : ∀ id e s', controlFrameMatchConfDel chip.toHw phy id s = .error e s' →
    (∀ j ≠ id, s'.conf.glb.controlMatch j = s.conf.glb.controlMatch j) ∧
    ∀ j < cpRules, j ≠ id → ∀ d, cpEnabled (chip.cp s'.hw) j d = cpEnabled (chip.cp s.hw) j d

theorem cpEnabled_shown {R : Nat → Option CpRule} {D : Set Nat} {m : Nat → BitVec 32} (h : cpSlots.Shown R D m)
    (hid : id < cpRules) (hD : id ∉ D) (d : Direction) : cpEnabled m id d = (R id).isSome := by
  have hbit : ∀ v, (cpEnable id v d).In m → cpEnabled m id d = v := fun v hin =>
    (bitPatch_in _ v (cpEnableBit_lt hid)).mp hin
  cases hf : R id with
  | some f => exact hbit true (h.rule id f hf hD _ (cpEnable_mem (h.fits id f hf)))
  | none =>
    refine hbit false (h.off id hf hD _ ?_)
    simp only [cpSlots, if_pos hid]
    cases d with
    | ingress => exact List.mem_cons_self
    | egress => exact List.mem_cons_of_mem _ List.mem_cons_self

/-- Writes to another slot. -/
theorem cpEnabled_patch {m : Nat → BitVec 32} {ps : List (Patch Nat 32)} {j : Nat}
    (hps : ∀ p ∈ ps, p.OwnedBy cpSlots.owner id) (hj : j < cpRules) (hne : j ≠ id) (d : Direction) :
    cpEnabled (patch m ps) j d = cpEnabled m j d := by
  have howned : (cpEnable j (cpEnabled m j d) d).OwnedBy cpSlots.owner j := by
    rw [cpSlots_owner]
    exact cpEnable_owned hj
  refine (bitPatch_in _ _ (cpEnableBit_lt hj)).mp ((patch_keeps fun p hp => (hps p hp).apart howned hne.symm).mpr ?_)
  exact (bitPatch_in _ _ (cpEnableBit_lt hj)).mpr rfl

theorem RulesKept.held (h : RulesKept chip B s) : RulesHeld chip phy s B where
  programmed id f hf hD := h.shown.agree (Slots.shown_programmed fun id f hf =>
    ⟨h.shown.fits id f hf, List.mem_range.mpr (cpFits_lt (h.shown.fits id f hf))⟩) hf hD (Set.notMem_empty _)
  enabled id hid hD d := by
    have hprog : cpSlots.Shown B.rules ∅ B.programmed := Slots.shown_programmed fun id f hf =>
      ⟨h.shown.fits id f hf, List.mem_range.mpr (cpFits_lt (h.shown.fits id f hf))⟩
    rw [cpEnabled_shown h.shown hid hD, cpEnabled_shown hprog hid (Set.notMem_empty _)]
  got id f hf hen := by
    have hid := cpFits_lt (h.shown.fits id f hf)
    rw [← h.table id f hf]
    rw [controlFrameMatchConfGet, enabledCheck, bind_assoc, bind_of_ok (show getConf s = .ok s.conf s from rfl),
      failIf_bind_of_not (by rw [hen]; decide), failIf_bind_of_not (Nat.not_le.mpr hid)]
    rfl
  free := h.free
  fresh conf rule id s' hok := by
    obtain ⟨-, hfits, hfree, -, -⟩ := (ends_controlFrameMatchConfSet h.rules).ok rfl hok
    refine ⟨cpFits_lt hfits, hfree.imp_left fun hm => ?_⟩
    by_contra hsome
    exact (h.used_iff (cpFits_lt hfits)).mpr hsome hm
  apart id id' f f' hf hf' hne p hp q hq :=
    (cpSlots.sets_owned (h.shown.fits id f hf) p hp).apart (cpSlots.sets_owned (h.shown.fits id' f' hf') q hq) hne
  notSet conf rule e s' herr := by
    rcases (ends_controlFrameMatchConfSet h.rules).error rfl herr with ⟨-, rfl⟩ | ⟨id, ps, hid, hfits, -, hps, ht⟩
    · exact ⟨rfl, fun _ _ _ _ => rfl⟩
    · refine ⟨ht.table, fun j hj hne d => ?_⟩
      rw [ht.cp]
      exact cpEnabled_patch (cpWrites_prefix_owned hfits hps) hj (fun heq => hne (heq ▸ hid)) d
  notDeleted id e s' herr := by
    rcases (ends_controlFrameMatchConfDel h.rules).error rfl herr with ⟨-, rfl⟩ | ⟨⟨-, hid, hused⟩, ps, hps, ht⟩
    · exact ⟨fun _ _ => rfl, fun _ _ _ _ => rfl⟩
    · obtain ⟨f, hf⟩ := Option.ne_none_iff_exists'.mp ((h.used_iff hid).mp hused)
      have hfits : cpFits id f.1 := h.shown.fits id f hf
      rw [h.table id f hf] at hps
      refine ⟨fun j hne => ?_, fun j hj hne d => ?_⟩
      · rw [ht.table, Function.update_of_ne hne]
      · rw [ht.cp]
        exact cpEnabled_patch (cpWrites_prefix_owned hfits hps) hj hne d

/-- **In every run, the registers and the table hold the rules that were accepted.** -/
theorem control_rules_held (hstart : RuleStart chip s₀) (hrun : RuleRun chip phy (s₀, ⟨fun _ => none, ∅⟩) (s, B)) :
    RulesHeld chip phy s B := (RulesKept.run hstart hrun).held

end Runs

/-! ## A slot that was used -/

/-- In every run the registers are those that a single programming of the rules would leave, a rule is read back, and a
call that fails changes neither the table nor the rules that are enabled. -/
def RulesExact {H : Type} (chip : RuleChip H) (phy : Phy) : Prop :=
  ∀ (s₀ s : Dev Conf H) (B : RuleBook), RuleStart chip s₀ → RuleRun chip phy (s₀, ⟨fun _ => none, ∅⟩) (s, B) →
    (∀ q, chip.cp s.hw q = B.programmed q) ∧
    (∀ id f, B.rules id = some f → s.conf.glb.init.enable = true →
      (controlFrameMatchConfGet id : Call H _) s = .ok f.1 s) ∧
    ∀ e s', (∃ conf rule, controlFrameMatchConfSet chip.toHw phy conf rule s = .error e s') ∨
        (∃ rule, controlFrameMatchConfDel chip.toHw phy rule s = .error e s') →
      s'.conf.glb.controlMatch = s.conf.glb.controlMatch ∧
        ∀ id < cpRules, ∀ d, cpEnabled (chip.cp s'.hw) id d = cpEnabled (chip.cp s.hw) id d

/-- Hardware that answers every access. -/
def benchRuleChip : RuleChip (Nat → BitVec 32) where
  run op c h :=
    match op with
    | .controlRule conf indx store => (true, patch h (cpWrites conf indx (parsedEtype c conf) store))
    | _ => (true, h)
  nextPn _ _ _ h := (some 0, h)
  cp h := h
  controlRule _ _ _ _ _ := ⟨_, List.prefix_rfl, rfl, fun _ => rfl⟩
  sparesRules op hop c h := by
    cases op with
    | controlRule => cases hop
    | _ => rfl

/-- A port that has been enabled. -/
def ruleState : Dev Conf (Nat → BitVec 32) :=
  calls benchRuleChip.toHw benchPhy [.initSet (.request true false)] { conf := {}, hw := fun _ => 0 }

theorem ruleState_start : RuleStart benchRuleChip ruleState where
  free := by decide +kernel
  recfg := rfl
  clear := rfl

def lldpRule : ControlFrameMatchConf := { «match» := matchEtype, etype := 0x88CC }

/-- The rule is set. -/
def lldpSet : Dev Conf (Nat → BitVec 32) :=
  final (controlFrameMatchConfSet benchRuleChip.toHw benchPhy lldpRule 0) ruleState

theorem lldpSet_ok : controlFrameMatchConfSet benchRuleChip.toHw benchPhy lldpRule 0 ruleState = .ok 2 lldpSet := rfl

def lldpBook : RuleBook := (⟨fun _ => none, ∅⟩ : RuleBook).written 2 (some (lldpRule, parsedEtype ruleState.conf lldpRule))

theorem lldpBook_run : RuleRun benchRuleChip benchPhy (ruleState, ⟨fun _ => none, ∅⟩) (lldpSet, lldpBook) :=
  .single (.set lldpSet_ok)

theorem control_rules_held_lldp : RulesHeld benchRuleChip benchPhy lldpSet lldpBook :=
  control_rules_held ruleState_start lldpBook_run

/-- The rule is deleted again. -/
def lldpDeleted : Dev Conf (Nat → BitVec 32) :=
  final (controlFrameMatchConfDel benchRuleChip.toHw benchPhy 2) lldpSet

theorem lldpDeleted_ok : controlFrameMatchConfDel benchRuleChip.toHw benchPhy 2 lldpSet = .ok () lldpDeleted := rfl

/-- The slot is off, and still holds the Ethertype. -/
theorem lldpDeleted_word : lldpDeleted.hw (cpMacDaEtMatch .ingress 0) = 0xCC880000 ∧
    (lldpBook.written 2 none).programmed (cpMacDaEtMatch .ingress 0) = 0 := by
  decide +kernel

/-- A rule is deleted by the bit that enables it alone. -/
theorem not_rulesExact : ¬RulesExact benchRuleChip benchPhy := by
  intro h
  have hrun : RuleRun benchRuleChip benchPhy (ruleState, ⟨fun _ => none, ∅⟩) (lldpDeleted, lldpBook.written 2 none) :=
    lldpBook_run.tail (.del lldpDeleted_ok)
  have hword := (h _ _ _ ruleState_start hrun).1 (cpMacDaEtMatch .ingress 0)
  obtain ⟨hleft, hclear⟩ := lldpDeleted_word
  rw [hclear] at hword
  exact absurd (hleft.symm.trans hword) (by decide)

/-- The next rule in the slot is matched raw, and its Ethertype is still selected as parsed. -/
example : (final (controlFrameMatchConfSet benchRuleChip.toHw benchPhy { lldpRule with etype := 0x8100 } 0)
    lldpDeleted).hw (cpMatchMode .ingress) = 1#32 <<< cpSelBit 0 := by
  decide +kernel

end Lan80xx.VtssMacsec
