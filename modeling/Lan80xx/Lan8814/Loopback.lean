import Lan80xx.Lan8814.GphyConf
import Mathlib.Data.List.Induction

/-!
# LAN8814: loopbacks

The near-end and the connector loopback run at 1G when the port negotiates. They share the basic control and the
master/slave register with the port configuration; taking one of them off clears the manual master/slave mode.

- `bit_nearEnd`, `bit_connector`: the bits of the shared registers after a part of the call;
- `loopbackSet_shown`: the control bits after a call;
- `loopbacks_restored_iff`: after any calls the control bits are as last requested, and with the two loopbacks off the
  shared registers are as configured exactly when no manual master/slave mode has been lost.
-/

namespace Lan80xx.Lan8814.Gphy

open RegCalls

/-! ## The call -/

/-- The loopbacks that the port does not have. -/
def Loopback.serdes (l : Loopback) : Bool :=
  l.macSerdesInputEna || l.macSerdesFacilityEna || l.macSerdesEquipEna || l.mediaSerdesInputEna ||
    l.mediaSerdesFacilityEna || l.mediaSerdesEquipEna

/-- The part about a loopback with a bit of its own. -/
def switchLoopback (r : Reg) (flag : BitVec 16) (ena was : Bool) : Call Unit :=
  if ena then writeMasked r flag flag else when was (writeMasked r 0 flag)

/-- Set 1G, without auto-negotiation. -/
def force1G : Call Unit := do
  writeMasked basicControl 0 anegEna
  writeMasked basicControl speedSelBit1 (speedSelBit1 ||| speedSelBit0)

/-- Remove the settings of a 1G loopback. -/
def restoreAneg : Call Unit := do
  writeMasked anegMstrSlvCtrl 0 (cfgEna ||| cfgVal)
  writeMasked basicControl (anegEna ||| restartAneg) (anegEna ||| restartAneg)

/-- The power management after a near-end loopback. -/
def nearEndPower : Call Unit :=
  writeAll [(powerMgmtMode 5, 0x6677), (powerMgmtMode 6, 0x6677), (powerMgmtMode 8, 0x4377), (powerMgmtMode 11, 0x4377)]

/-- The part about the near-end loopback. -/
def nearEnd (ena was : Bool) (speed : Speed) : Call Unit :=
  if ena then do
    writeMasked basicControl basicCtrlLoopback basicCtrlLoopback
    when speed.Negotiates force1G
  else when was do
    writeMasked basicControl 0 basicCtrlLoopback
    when speed.Negotiates restoreAneg
    nearEndPower

/-- The speed of the connector loopback. -/
def connectorSpeed (speed : Speed) : Call Unit :=
  if speed.Negotiates then do
    force1G
    writeMasked anegMstrSlvCtrl (cfgVal ||| cfgEna) (cfgVal ||| cfgEna)
  else if speed = .m100 then writeMasked basicControl speedSelBit0 (speedSelBit1 ||| speedSelBit0)
  else when (speed = .m10) (writeMasked basicControl 0 (speedSelBit1 ||| speedSelBit0))

/-- The part about the connector loopback. -/
def connector (ena was : Bool) (speed : Speed) : Call Unit :=
  if ena then do
    connectorSpeed speed
    write resvConLoop 0xfc08
  else when was do
    when speed.Negotiates restoreAneg
    write resvConLoop 0xfc00

def PhyData.setLoopback (l : Loopback) (d : PhyData) : PhyData := { d with loopback := l }

/-- `lan8814_loopback_set` after its check. -/
def loopbackApply (l was : Loopback) (speed : Speed) : Call Unit := do
  switchLoopback pcsLoopPolarityCtrl (bit 8) l.farEndEna was.farEndEna
  nearEnd l.nearEndEna was.nearEndEna speed
  connector l.connectorEna was.connectorEna speed
  switchLoopback qsgmiiPcs1gDebug (bit 1) l.qsgmiiPcsTbiEna was.qsgmiiPcsTbiEna
  switchLoopback qsgmiiPcs1gDebug (bit 0) l.qsgmiiPcsGmiiEna was.qsgmiiPcsGmiiEna
  switchLoopback qsgmiiSerdesMiscCtrl (bit 4) l.qsgmiiSerdesEna was.qsgmiiSerdesEna
  modifyData (PhyData.setLoopback l)

/-- `lan8814_loopback_set` -/
def loopbackSet (l : Loopback) : Call Rc :=
  if l.serdes then pure .notImplemented
  else do
    let d ← getData
    loopbackApply l d.loopback d.conf.speed
    return .ok

/-! ## The bits after each part -/

theorem bit_switchLoopback (r r' : Reg) {f : Nat} (hf : f < 16) (ena was : Bool) (s : Port) (b : Nat) :
    (after (switchLoopback r (bit f) ena was) s).bit r' b =
      if r' = r ∧ b = f ∧ (ena || was) then ena else s.bit r' b := by
  cases ena <;> cases was <;> simp [switchLoopback, after_when, bit_writeMasked, hf] <;> grind

theorem bit_force1G (s : Port) (r : Reg) (b : Nat) :
    (after force1G s).bit r b =
      if r = basicControl then if b = 12 then false else if b = 6 then true else if b = 13 then false else s.bit r b
      else s.bit r b := by
  simp only [force1G, after_bind, bit_writeMasked, BitVec.getLsbD_or, getLsbD_bit (x := 12) (by decide),
    getLsbD_bit (x := 6) (by decide), getLsbD_bit (x := 13) (by decide)]
  by_cases hr : r = basicControl
  · simp only [hr, true_and, if_true]
    split_ifs <;> simp_all
  · simp [hr]

theorem bit_restoreAneg (s : Port) {r : Reg} {b : Nat} (h : Configured r b) :
    (after restoreAneg s).bit r b =
      if r = basicControl then if b = 12 then true else s.bit r b
      else if r = anegMstrSlvCtrl ∧ (b = 11 ∨ b = 12) then false else s.bit r b := by
  have hb : r = basicControl → b ≠ 9 := fun hr h9 => h.2 hr (Or.inl h9)
  simp only [restoreAneg, after_bind, bit_writeMasked, BitVec.getLsbD_or, getLsbD_bit (x := 12) (by decide),
    getLsbD_bit (x := 11) (by decide), getLsbD_bit (x := 9) (by decide)]
  by_cases hr : r = basicControl
  · have h9 := hb hr
    simp [hr, h9]
  · by_cases h9 : r = anegMstrSlvCtrl
    · simp [h9, or_comm]
    · simp [hr, h9]

/-- A bit of the basic control register after the part about the near-end loopback. -/
def nearEndBit (ena was : Bool) (speed : Speed) (b : Nat) (old : Bool) : Bool :=
  if b = 14 then if ena || was then ena else old
  else if speed.Negotiates then
    if b = 12 then if ena then false else if was then true else old
    else if ena ∧ b = 6 then true
    else if ena ∧ b = 13 then false
    else old
  else old

/-- A bit of the basic control register after the part about the connector loopback. -/
def connectorBit (ena was : Bool) (speed : Speed) (b : Nat) (old : Bool) : Bool :=
  if speed.Negotiates then
    if b = 12 then if ena then false else if was then true else old
    else if ena ∧ b = 6 then true
    else if ena ∧ b = 13 then false
    else old
  else if ena ∧ speed = .m100 ∧ (b = 6 ∨ b = 13) then b = 13
  else if ena ∧ speed = .m10 ∧ (b = 6 ∨ b = 13) then false
  else old

/-- A bit of the master/slave register after a 1G loopback has been taken off. -/
def clearedBit (off : Bool) (speed : Speed) (b : Nat) (old : Bool) : Bool :=
  if off ∧ speed.Negotiates ∧ (b = 11 ∨ b = 12) then false else old

/-- A bit of the master/slave register after the part about the connector loopback. -/
def masterBit (ena was : Bool) (speed : Speed) (b : Nat) (old : Bool) : Bool :=
  if ena ∧ speed.Negotiates ∧ (b = 11 ∨ b = 12) then true else clearedBit (!ena && was) speed b old

/-- The registers that the near-end loopback writes when it is taken off, with the shared ones. -/
def nearEndRegs : List Reg :=
  [basicControl, anegMstrSlvCtrl, powerMgmtMode 5, powerMgmtMode 6, powerMgmtMode 8, powerMgmtMode 11]

theorem configured_basic {b : Nat} (hb : ¬SelfClearing b) : Configured basicControl b := ⟨by decide, fun _ => hb⟩

theorem configured_mstrSlv (b : Nat) : Configured anegMstrSlvCtrl b := ⟨by decide, fun h => by cases h⟩

theorem keeps_force1G : Keeps (· ∉ nearEndRegs) force1G :=
  .bind (.writeMasked (by decide) _ _) fun _ => .writeMasked (by decide) _ _

theorem keeps_restoreAneg : Keeps (· ∉ nearEndRegs) restoreAneg :=
  .bind (.writeMasked (by decide) _ _) fun _ => .writeMasked (by decide) _ _

theorem keeps_nearEnd (ena was : Bool) (speed : Speed) : Keeps (· ∉ nearEndRegs) (nearEnd ena was speed) := by
  refine .ite (fun _ => ?_) fun _ => .when fun _ => ?_
  · exact .bind (.writeMasked (by decide) _ _) fun _ => .when fun _ => keeps_force1G
  · refine .bind (.writeMasked (by decide) _ _) fun _ => ?_
    exact .bind (.when fun _ => keeps_restoreAneg) fun _ => .writeAll (by decide)

theorem keeps_nearEndPower : Keeps (fun r => ∃ a, r = .direct a) nearEndPower := .writeAll (by simp)

theorem bit_nearEnd_basic (ena was : Bool) (speed : Speed) (s : Port) {b : Nat} (hb : ¬SelfClearing b) :
    (after (nearEnd ena was speed) s).bit basicControl b = nearEndBit ena was speed b (s.bit basicControl b) := by
  have hpower := fun t : Port => keeps_nearEndPower.bit t ⟨0, rfl⟩ b
  cases ena <;> cases was <;>
    simp only [nearEnd, nearEndBit, after_bind, after_when, State.bit_ite, hpower, bit_force1G,
      bit_restoreAneg _ (configured_basic hb), bit_writeMasked, getLsbD_bit (x := 14) (by decide), decide_eq_true_eq,
      Bool.or_true, Bool.or_false, if_true, true_and, Bool.false_eq_true, if_false, false_and] <;>
    split_ifs <;> simp_all

theorem bit_nearEnd_mstrSlv (ena was : Bool) (speed : Speed) (s : Port) (b : Nat) :
    (after (nearEnd ena was speed) s).bit anegMstrSlvCtrl b =
      clearedBit (!ena && was) speed b (s.bit anegMstrSlvCtrl b) := by
  have hpower := fun t : Port => keeps_nearEndPower.bit t ⟨9, rfl⟩ b
  cases ena <;> cases was <;>
    simp [nearEnd, clearedBit, after_when, State.bit_ite, hpower, bit_force1G,
      bit_restoreAneg _ (configured_mstrSlv b), bit_writeMasked]
  split_ifs <;> simp_all

theorem keeps_connector (ena was : Bool) (speed : Speed) :
    Keeps (fun r => r ∉ nearEndRegs ∧ r ≠ resvConLoop) (connector ena was speed) := by
  refine .ite (fun _ => ?_) fun _ => .when fun _ => ?_
  · refine .bind ?_ fun _ => .write (by decide) _
    refine .ite (fun _ => ?_) fun _ => .ite (fun _ => .writeMasked (by decide) _ _) fun _ => ?_
    · exact .bind (keeps_force1G.mono fun _ h => h.1) fun _ => .writeMasked (by decide) _ _
    · exact .when fun _ => .writeMasked (by decide) _ _
  · exact .bind (.when fun _ => keeps_restoreAneg.mono fun _ h => h.1) fun _ => .write (by decide) _

theorem bit_connector_basic (ena was : Bool) (speed : Speed) (s : Port) {b : Nat} (hb : ¬SelfClearing b) :
    (after (connector ena was speed) s).bit basicControl b = connectorBit ena was speed b (s.bit basicControl b) := by
  cases ena <;> cases was <;>
    simp [connector, connectorSpeed, connectorBit, after_when, after_ite, State.bit_ite, bit_force1G, bit_write,
      bit_restoreAneg _ (configured_basic hb), bit_writeMasked] <;>
    split_ifs <;> simp_all

theorem bit_connector_mstrSlv (ena was : Bool) (speed : Speed) (s : Port) (b : Nat) :
    (after (connector ena was speed) s).bit anegMstrSlvCtrl b =
      masterBit ena was speed b (s.bit anegMstrSlvCtrl b) := by
  cases ena <;> cases was <;>
    simp [connector, connectorSpeed, masterBit, clearedBit, after_when, after_ite, State.bit_ite, bit_force1G, bit_write,
      bit_restoreAneg _ (configured_mstrSlv b), bit_writeMasked] <;>
    split_ifs <;> simp_all

theorem words_connector (ena was : Bool) (speed : Speed) (s : Port) :
    (after (connector ena was speed) s).words resvConLoop =
      if ena then 0xfc08 else if was then 0xfc00 else s.words resvConLoop := by
  cases ena <;> cases was <;> simp [connector, after_when]

/-! ## The port after a call -/

section Call

variable {l : Loopback} {s : Port} {b : Nat}

theorem loopbackSet_of_serdes (hl : l.serdes = true) (s : Port) : after (loopbackSet l) s = s := by
  simp [loopbackSet, hl]

theorem after_loopbackSet (hl : l.serdes = false) (s : Port) :
    after (loopbackSet l) s = after (loopbackApply l s.data.loopback s.data.conf.speed) s := by
  simp [loopbackSet, hl]

theorem bit_loopbackApply_basic (l was : Loopback) (speed : Speed) (s : Port) (hb : ¬SelfClearing b) :
    (after (loopbackApply l was speed) s).bit basicControl b =
      connectorBit l.connectorEna was.connectorEna speed b
        (nearEndBit l.nearEndEna was.nearEndEna speed b (s.bit basicControl b)) := by
  simp [loopbackApply, bit_switchLoopback, bit_connector_basic _ _ _ _ hb, bit_nearEnd_basic _ _ _ _ hb]

theorem bit_loopbackApply_mstrSlv (l was : Loopback) (speed : Speed) (s : Port) (b : Nat) :
    (after (loopbackApply l was speed) s).bit anegMstrSlvCtrl b =
      masterBit l.connectorEna was.connectorEna speed b
        (clearedBit (!l.nearEndEna && was.nearEndEna) speed b (s.bit anegMstrSlvCtrl b)) := by
  simp [loopbackApply, bit_switchLoopback, bit_connector_mstrSlv, bit_nearEnd_mstrSlv]

theorem keepsData_force1G : KeepsData force1G := .bind (.writeMasked _ _ _) fun _ => .writeMasked _ _ _

theorem keepsData_restoreAneg : KeepsData restoreAneg := .bind (.writeMasked _ _ _) fun _ => .writeMasked _ _ _

theorem keepsData_switchLoopback (r : Reg) (flag : BitVec 16) (ena was : Bool) :
    KeepsData (switchLoopback r flag ena was) :=
  .ite (fun _ => .writeMasked _ _ _) fun _ => .when fun _ => .writeMasked _ _ _

theorem keepsData_nearEnd (ena was : Bool) (speed : Speed) : KeepsData (nearEnd ena was speed) := by
  refine .ite (fun _ => ?_) fun _ => .when fun _ => ?_
  · exact .bind (.writeMasked _ _ _) fun _ => .when fun _ => keepsData_force1G
  · refine .bind (.writeMasked _ _ _) fun _ => ?_
    exact .bind (.when fun _ => keepsData_restoreAneg) fun _ => .writeAll _

theorem keepsData_connector (ena was : Bool) (speed : Speed) : KeepsData (connector ena was speed) := by
  refine .ite (fun _ => ?_) fun _ => .when fun _ => ?_
  · refine .bind ?_ fun _ => .write _ _
    refine .ite (fun _ => ?_) fun _ => .ite (fun _ => .writeMasked _ _ _) fun _ => .when fun _ => .writeMasked _ _ _
    exact .bind keepsData_force1G fun _ => .writeMasked _ _ _
  · exact .bind (.when fun _ => keepsData_restoreAneg) fun _ => .write _ _

theorem data_loopbackApply (l was : Loopback) (speed : Speed) (s : Port) :
    (after (loopbackApply l was speed) s).data = s.data.setLoopback l := by
  simp only [loopbackApply, after_bind, data_modifyData, keepsData_switchLoopback _ _ _ _ _, keepsData_connector _ _ _ _,
    keepsData_nearEnd _ _ _ _]

/-- The control bits of the loopbacks. -/
structure Loopback.Shown (l : Loopback) (s : Port) : Prop where
  farEnd : s.bit pcsLoopPolarityCtrl 8 = l.farEndEna
  nearEnd : s.bit basicControl 14 = l.nearEndEna
  connector : s.words resvConLoop = if l.connectorEna then 0xfc08 else 0xfc00
  tbi : s.bit qsgmiiPcs1gDebug 1 = l.qsgmiiPcsTbiEna
  gmii : s.bit qsgmiiPcs1gDebug 0 = l.qsgmiiPcsGmiiEna
  serdes : s.bit qsgmiiSerdesMiscCtrl 4 = l.qsgmiiSerdesEna

theorem switched_bit {ena was old : Bool} (h : old = was) : (if ena || was then ena else old) = ena := by
  subst h
  cases ena <;> cases old <;> rfl

/-- The bits of the registers that only one loopback writes. -/
theorem bit_loopbackApply_own (l was : Loopback) (speed : Speed) (s : Port) {r : Reg}
    (hr : r ∉ nearEndRegs ∧ r ≠ resvConLoop) (b : Nat) :
    (after (loopbackApply l was speed) s).bit r b =
      if r = qsgmiiSerdesMiscCtrl ∧ b = 4 ∧ (l.qsgmiiSerdesEna || was.qsgmiiSerdesEna) then l.qsgmiiSerdesEna
      else if r = qsgmiiPcs1gDebug ∧ b = 0 ∧ (l.qsgmiiPcsGmiiEna || was.qsgmiiPcsGmiiEna) then l.qsgmiiPcsGmiiEna
      else if r = qsgmiiPcs1gDebug ∧ b = 1 ∧ (l.qsgmiiPcsTbiEna || was.qsgmiiPcsTbiEna) then l.qsgmiiPcsTbiEna
      else if r = pcsLoopPolarityCtrl ∧ b = 8 ∧ (l.farEndEna || was.farEndEna) then l.farEndEna
      else s.bit r b := by
  simp only [loopbackApply, after_bind, bit_modifyData, bit_switchLoopback _ _ (by decide : (4 : Nat) < 16),
    bit_switchLoopback _ _ (by decide : (0 : Nat) < 16), bit_switchLoopback _ _ (by decide : (1 : Nat) < 16),
    (keeps_connector _ _ _).bit _ hr, (keeps_nearEnd _ _ _).bit _ hr.1,
    bit_switchLoopback _ _ (by decide : (8 : Nat) < 16)]

theorem keeps_switchLoopback {r : Reg} (flag : BitVec 16) (ena was : Bool) :
    Keeps (· ≠ r) (switchLoopback r flag ena was) :=
  .ite (fun _ => .writeMasked (by simp) _ _) fun _ => .when fun _ => .writeMasked (by simp) _ _

theorem words_loopbackApply_resv (l was : Loopback) (speed : Speed) (s : Port) :
    (after (loopbackApply l was speed) s).words resvConLoop =
      if l.connectorEna then 0xfc08 else if was.connectorEna then 0xfc00 else s.words resvConLoop := by
  simp only [loopbackApply, after_bind, words_modifyData]
  rw [keeps_switchLoopback _ _ _ _ resvConLoop (by decide), keeps_switchLoopback _ _ _ _ resvConLoop (by decide),
    keeps_switchLoopback _ _ _ _ resvConLoop (by decide), words_connector,
    keeps_nearEnd _ _ _ _ resvConLoop (by decide), keeps_switchLoopback _ _ _ _ resvConLoop (by decide)]

/-- The control bits after a call, if they showed the loopbacks stored before. -/
theorem loopbackApply_shown (l : Loopback) {was : Loopback} (speed : Speed) (h : was.Shown s) :
    l.Shown (after (loopbackApply l was speed) s) where
  farEnd := by
    rw [bit_loopbackApply_own l was speed s (by decide)]
    simpa using switched_bit h.farEnd
  nearEnd := by
    rw [bit_loopbackApply_basic l was speed s (by decide), connectorBit, nearEndBit]
    simpa using switched_bit h.nearEnd
  connector := by
    rw [words_loopbackApply_resv, h.connector]
    cases l.connectorEna <;> cases was.connectorEna <;> rfl
  tbi := by
    rw [bit_loopbackApply_own l was speed s (by decide)]
    simpa using switched_bit h.tbi
  gmii := by
    rw [bit_loopbackApply_own l was speed s (by decide)]
    simpa using switched_bit h.gmii
  serdes := by
    rw [bit_loopbackApply_own l was speed s (by decide)]
    simpa using switched_bit h.serdes

end Call

/-! ## The bits that the port configuration programs -/

/-- Configuring the port again with the stored configuration changes none of the three registers. -/
def Programmed (s : Port) : Prop :=
  ∀ r ∈ [basicControl, anegMstrSlvCtrl, resvConLoop], ∀ b < 16, (r = basicControl → ¬SelfClearing b) →
    (after (confSet_ s.data.conf) s).bit r b = s.bit r b

theorem programmed_iff {s : Port} : Programmed s ↔
    ∀ r ∈ [basicControl, anegMstrSlvCtrl], ∀ b < 16, (r = basicControl → ¬SelfClearing b) →
      (s.data.conf.mask r).getLsbD b = true → s.bit r b = (s.data.conf.value r).getLsbD b := by
  have hleaves : ∀ r ∈ [basicControl, anegMstrSlvCtrl, resvConLoop], ConfLeaves r := by decide
  constructor
  · intro h r hr b hlt hb hmask
    have hr' : r ∈ [basicControl, anegMstrSlvCtrl, resvConLoop] := by
      simp only [List.mem_cons] at hr ⊢
      tauto
    have hbit := h r hr' b hlt hb
    rw [bit_confSet _ _ ⟨hleaves r hr', hb⟩ hlt, Conf.sets, if_pos hmask] at hbit
    exact hbit.symm
  · intro h r hr b hlt hb
    rw [bit_confSet _ _ ⟨hleaves r hr, hb⟩ hlt, Conf.sets]
    split
    · rename_i hmask
      simp only [List.mem_cons, List.not_mem_nil, or_false] at hr
      obtain rfl | rfl | rfl := hr
      · exact (h _ (by simp) b hlt hb hmask).symm
      · exact (h _ (by simp) b hlt hb hmask).symm
      · simp [Conf.mask] at hmask
    · rfl

/-- Neither of the loopbacks that run at 1G. -/
def Loopback.Off1G (l : Loopback) : Prop := l.nearEndEna = false ∧ l.connectorEna = false

/-- The bits of the basic control register that the configuration programs, but for the auto-negotiation under a 1G
loopback, stay as programmed. -/
theorem basic_configured (c : Conf) (l was : Loopback) {b : Nat} {old : Bool}
    (hmask : (c.mask basicControl).getLsbD b = true) (hoff : b = 12 → c.speed.Negotiates → l.Off1G)
    (hold : (b = 12 → c.speed.Negotiates → was.Off1G) → old = (c.value basicControl).getLsbD b) :
    connectorBit l.connectorEna was.connectorEna c.speed b
      (nearEndBit l.nearEndEna was.nearEndEna c.speed b old) = (c.value basicControl).getLsbD b := by
  by_cases ha : c.adminEnable = true
  · by_cases hn : c.speed.Negotiates
    · simp only [Conf.mask, Conf.value, ha, hn, Bool.not_true, Bool.false_eq_true, if_false, if_true, BitVec.getLsbD_or,
        getLsbD_bit (x := 12) (by decide), getLsbD_bit (x := 11) (by decide), Bool.or_eq_true, decide_eq_true_eq]
        at hmask hold ⊢
      rcases hmask with rfl | rfl
      · obtain ⟨hnear, hconn⟩ := hoff rfl hn
        simp only [connectorBit, nearEndBit, hn, hnear, hconn]
        cases hwn : was.nearEndEna <;> cases hwc : was.connectorEna <;> simp_all [Loopback.Off1G]
      · simp_all [connectorBit, nearEndBit]
    · have hold' := hold fun _ hneg => absurd hneg hn
      rw [hold', Conf.value]
      simp only [ha, hn, Bool.not_true, Bool.false_eq_true, if_false]
      simp only [Conf.mask, ha, hn, Bool.not_true, Bool.false_eq_true, if_false] at hmask
      split at hmask
      · simp at hmask
      · have hg1 : c.speed ≠ .g1 := fun h => hn (Or.inr h)
        simp only [forcedMask, BitVec.getLsbD_or, Bool.or_eq_true, getLsbD_bit (x := 13) (by decide),
          getLsbD_bit (x := 12) (by decide), getLsbD_bit (x := 8) (by decide), getLsbD_bit (x := 6) (by decide),
          getLsbD_bit (x := 11) (by decide), decide_eq_true_eq] at hmask
        have hb : b ≠ 14 := by omega
        simp only [connectorBit, nearEndBit, hn, hb, if_false]
        split_ifs with hfull hten
        · obtain ⟨-, hm, rfl | rfl⟩ := hfull <;> simp [Conf.forced, hm]
        · obtain ⟨-, hm, rfl | rfl⟩ := hten <;> simp [Conf.forced, hm]
        · rfl
  · simp only [Conf.mask, Conf.value, ha, Bool.not_false, if_true, getLsbD_bit (x := 11) (by decide),
      decide_eq_true_eq] at hmask hold ⊢
    subst hmask
    have hmode : (fun b => connectorBit l.connectorEna was.connectorEna c.speed b old) 11 = old := by
      simp [connectorBit]
    simp_all [connectorBit, nearEndBit]

/-! ## Runs -/

/-- The port after the calls, in this order. -/
def loopbackSets (ls : List Loopback) (s : Port) : Port := ls.foldl (fun s l => after (loopbackSet l) s) s

/-- The loopbacks that the last accepted call has requested. -/
def lastRequested (ls : List Loopback) : Loopback := ls.foldl (fun last l => if l.serdes then last else l) noLoopback

/-- An accepted call has requested one of the loopbacks that run at 1G. -/
def Requests1G (ls : List Loopback) : Prop := ∃ l ∈ ls, l.serdes = false ∧ ¬l.Off1G

instance (l : Loopback) : Decidable l.Off1G := inferInstanceAs (Decidable (l.nearEndEna = false ∧ l.connectorEna = false))

instance (ls : List Loopback) : Decidable (Requests1G ls) := by unfold Requests1G; infer_instance

/-- A port with the configuration `c` between the calls; `lost` when the master/slave bits are no longer those of the
configuration. -/
structure Looped (c : Conf) (lost : Bool) (s : Port) : Prop where
  conf : s.data.conf = c
  shown : s.data.loopback.Shown s
  basic : ∀ b, ¬SelfClearing b → (c.mask basicControl).getLsbD b = true →
    (b = 12 → c.speed.Negotiates → s.data.loopback.Off1G) → s.bit basicControl b = (c.value basicControl).getLsbD b
  kept : ∀ b, (c.mask anegMstrSlvCtrl).getLsbD b = true → (lost = true → b = 9) →
    s.bit anegMstrSlvCtrl b = (c.value anegMstrSlvCtrl).getLsbD b
  master : c.speed.Negotiates → lost = true → ∀ b, b = 11 ∨ b = 12 →
    s.bit anegMstrSlvCtrl b = s.data.loopback.connectorEna
  connector : lost = false → s.data.loopback.connectorEna = false

section Runs

variable {c : Conf} {lost : Bool} {l : Loopback} {s : Port}

/-- The bits of the master/slave register that a configuration programs. -/
theorem mask_mstrSlv {b : Nat} : (c.mask anegMstrSlvCtrl).getLsbD b = true ↔
    c.adminEnable = true ∧ c.speed.Negotiates ∧ (b = 9 ∨ b = 11 ∨ b = 12) := by
  simp only [Conf.mask]
  split
  · simp_all [or_assoc]
  · simp_all

theorem Looped.call (h : Looped c lost s) (hl : l.serdes = false) :
    Looped c (lost || l.connectorEna || (!l.nearEndEna && s.data.loopback.nearEndEna)) (after (loopbackSet l) s) where
  conf := by
    rw [after_loopbackSet hl, data_loopbackApply]
    exact h.conf
  shown := by
    rw [after_loopbackSet hl, data_loopbackApply]
    exact loopbackApply_shown l _ h.shown
  basic b hb hmask hoff := by
    rw [after_loopbackSet hl, data_loopbackApply] at hoff
    rw [after_loopbackSet hl, bit_loopbackApply_basic _ _ _ _ hb, h.conf]
    exact basic_configured c l _ hmask hoff (h.basic b hb hmask)
  kept b hmask hlost := by
    obtain ⟨-, hn, hcase⟩ := mask_mstrSlv.mp hmask
    have hold := h.kept b hmask
    rw [after_loopbackSet hl, bit_loopbackApply_mstrSlv, h.conf, masterBit, clearedBit, clearedBit]
    by_cases h9 : b = 9
    · subst h9
      simpa using hold fun _ => rfl
    · cases hnew : lost || l.connectorEna || (!l.nearEndEna && s.data.loopback.nearEndEna) with
      | true => exact absurd (hlost hnew) h9
      | false =>
        simp only [Bool.or_eq_false_iff] at hnew
        obtain ⟨⟨hl', hconn⟩, hnear⟩ := hnew
        have hwas := h.connector hl'
        simpa [hconn, hnear, hwas] using hold (by simp [hl'])
  master hn hlost b hb := by
    have hold := h.master hn
    rw [after_loopbackSet hl, data_loopbackApply, bit_loopbackApply_mstrSlv, h.conf, masterBit, clearedBit, clearedBit]
    change _ = l.connectorEna
    cases hconn : l.connectorEna with
    | true => simp [hn, hb]
    | false =>
      cases hwas : s.data.loopback.connectorEna with
      | true => simp [hn, hb]
      | false =>
        cases hnear : (!l.nearEndEna && s.data.loopback.nearEndEna) with
        | true => simp [hn, hb]
        | false =>
          have hl' : lost = true := by simpa [hconn, hnear] using hlost
          simp [hold hl' b hb, hwas]
  connector hlost := by
    rw [after_loopbackSet hl, data_loopbackApply]
    simp only [Bool.or_eq_false_iff] at hlost
    exact hlost.1.2

/-- Every run keeps the bits; they are lost once a 1G loopback has been requested and is not a near-end loopback still on. -/
theorem loopbackSets_looped (h : Looped c false s) (hoff : s.data.loopback = noLoopback) (ls : List Loopback) :
    ∃ lost, Looped c lost (loopbackSets ls s) ∧ (loopbackSets ls s).data.loopback = lastRequested ls ∧
      ((lost = true ∨ (lastRequested ls).nearEndEna = true) ↔ Requests1G ls) := by
  induction ls using List.reverseRecOn with
  | nil => exact ⟨false, h, hoff, by simp [lastRequested, noLoopback, Requests1G]⟩
  | append_singleton ls l ih =>
    obtain ⟨lost, hlooped, hlast, hiff⟩ := ih
    have hreq : Requests1G (ls ++ [l]) ↔ Requests1G ls ∨ (l.serdes = false ∧ ¬l.Off1G) := by
      simp [Requests1G, or_and_right, exists_or]
    have hset : loopbackSets (ls ++ [l]) s = after (loopbackSet l) (loopbackSets ls s) := by
      simp [loopbackSets, List.foldl_append]
    have hreqs : lastRequested (ls ++ [l]) = if l.serdes then lastRequested ls else l := by
      simp [lastRequested, List.foldl_append]
    cases hl : l.serdes with
    | true =>
      rw [hset, loopbackSet_of_serdes hl, hreqs, hreq, if_pos hl]
      exact ⟨lost, hlooped, hlast, by simpa [hl] using hiff⟩
    | false =>
      refine ⟨_, hset ▸ hlooped.call hl, ?_, ?_⟩
      · rw [hset, after_loopbackSet hl, data_loopbackApply, hreqs, if_neg (by simp [hl])]
        rfl
      · rw [hreqs, if_neg (by simp [hl]), hreq, ← hiff, hlast]
        simp only [Loopback.Off1G, hl]
        cases lost <;> cases l.connectorEna <;> cases l.nearEndEna <;> cases (lastRequested ls).nearEndEna <;> simp

/-- Auto-negotiation or 1G on an enabled port, with a manual master/slave mode. -/
def Conf.Manual (c : Conf) : Prop := c.adminEnable = true ∧ c.speed.Negotiates ∧ c.manNeg ≠ .disabled

/-- With the 1G loopbacks off, the registers are as configured exactly when no manual master/slave mode has been lost. -/
theorem Looped.programmed_iff (h : Looped c lost s) (hoff : s.data.loopback.Off1G) :
    Programmed s ↔ ¬c.Manual ∨ lost = false := by
  rw [Gphy.programmed_iff, h.conf]
  constructor
  · intro hprog
    by_contra hc
    rw [not_or, not_not, Bool.not_eq_false] at hc
    obtain ⟨⟨ha, hn, hman⟩, hlost⟩ := hc
    have hbit := hprog anegMstrSlvCtrl (by simp) 12 (by decide) (by simp) (mask_mstrSlv.mpr ⟨ha, hn, by simp⟩)
    rw [h.master hn hlost 12 (Or.inr rfl), hoff.2] at hbit
    simp [Conf.value, Conf.mstrSlv, hman] at hbit
  · intro hkept r hr b _ hb hmask
    simp only [List.mem_cons, List.not_mem_nil, or_false] at hr
    obtain rfl | rfl := hr
    · exact h.basic b (hb rfl) hmask fun _ _ => hoff
    · by_cases hlost : lost = true
      · obtain ⟨ha, hn, rfl | hcfg⟩ := mask_mstrSlv.mp hmask
        · exact h.kept 9 hmask fun _ => rfl
        · have hman : c.manNeg = .disabled := by
            rcases hkept with hman | hl
            · exact not_not.mp fun hne => hman ⟨ha, hn, hne⟩
            · rw [hlost] at hl
              cases hl
          rw [h.master hn hlost b hcfg, hoff.2]
          obtain rfl | rfl := hcfg <;> simp [Conf.value, Conf.mstrSlv, hman]
      · exact h.kept b hmask fun hl => absurd hl hlost

/-- A register that configurations leave alone. -/
theorem words_confSet (config : Conf) (s : Port) {r : Reg} (hr : ConfLeaves r) (h0 : r ≠ basicControl)
    (hmask : config.mask r = 0) : (after (confSet_ config) s).words r = s.words r := by
  apply BitVec.eq_of_getLsbD_eq
  intro b hb
  have hbit := bit_confSet config s ⟨hr, fun h => absurd h h0⟩ hb
  have hzero : (config.mask r).getLsbD b = false := by
    rw [hmask]
    exact BitVec.getLsbD_zero
  rw [Conf.sets, hzero] at hbit
  exact hbit

/-- The port after a configuration, without loopbacks. -/
theorem looped_confSet {s₀ : Port} (hoff : noLoopback.Shown s₀) (hdata : s₀.data.loopback = noLoopback) (config : Conf) :
    Looped { config with macIfAnegEna := config.qsgmiiAneg } false (after (confSet_ config) s₀) := by
  have hloop : (after (confSet_ config) s₀).data.loopback = noLoopback := by
    rw [data_confSet]
    exact hdata
  have hbit (r : Reg) (hr : ConfLeaves r) (h0 : r ≠ basicControl) (hmask : config.mask r = 0) (b : Nat) :
      (after (confSet_ config) s₀).bit r b = s₀.bit r b := by
    rw [State.bit, words_confSet config s₀ hr h0 hmask, State.bit]
  have hbasic (b : Nat) (hb : ¬SelfClearing b) (hlt : b < 16) :=
    bit_confSet config s₀ (configured_basic hb) hlt
  refine ⟨by rw [data_confSet]; rfl, ?_, ?_, ?_, fun _ h => absurd h (by simp), fun _ => by rw [hloop]; rfl⟩
  · rw [hloop]
    refine ⟨?_, ?_, ?_, ?_, ?_, ?_⟩
    · exact (hbit _ (by decide) (by decide) rfl 8).trans hoff.farEnd
    · have h14 : (config.mask basicControl).getLsbD 14 = false := by
        simp only [Conf.mask]
        split_ifs <;> simp [forcedMask]
      rw [hbasic 14 (by decide) (by decide), Conf.sets, h14]
      exact hoff.nearEnd
    · exact (words_confSet config s₀ (by decide) (by decide) rfl).trans hoff.connector
    · exact (hbit _ (by decide) (by decide) rfl 1).trans hoff.tbi
    · exact (hbit _ (by decide) (by decide) rfl 0).trans hoff.gmii
    · exact (hbit _ (by decide) (by decide) rfl 4).trans hoff.serdes
  · intro b hb hmask _
    exact (hbasic b hb (BitVec.lt_of_getLsbD hmask)).trans (if_pos hmask)
  · intro b hmask _
    exact (bit_confSet config s₀ (configured_mstrSlv b) (BitVec.lt_of_getLsbD hmask)).trans (if_pos hmask)

/-- A port is configured, from a state without loopbacks, and then called with any loopbacks. The control bits are as last
requested, and with the 1G loopbacks off the registers are as configured exactly when the configuration has no manual
master/slave mode or no 1G loopback has been requested. -/
theorem loopbacks_restored_iff (s₀ : Port) (hoff : noLoopback.Shown s₀) (hdata : s₀.data.loopback = noLoopback)
    (config : Conf) (ls : List Loopback) :
    (lastRequested ls).Shown (loopbackSets ls (after (confSet_ config) s₀)) ∧
      ((lastRequested ls).Off1G →
        (Programmed (loopbackSets ls (after (confSet_ config) s₀)) ↔ ¬config.Manual ∨ ¬Requests1G ls)) := by
  have hstart := looped_confSet hoff hdata config
  have hdata' : (after (confSet_ config) s₀).data.loopback = noLoopback := by
    rw [data_confSet]
    exact hdata
  obtain ⟨lost, hlooped, hlast, hiff⟩ := loopbackSets_looped hstart hdata' ls
  rw [← hlast]
  refine ⟨hlooped.shown, fun h1g => ?_⟩
  have hlost : lost = true ↔ Requests1G ls := by
    rw [← hiff, ← hlast]
    simp [h1g.1]
  rw [hlooped.programmed_iff h1g, ← hlost, Bool.not_eq_true]
  rfl

end Runs

/-! ### A near-end loopback on a port with a manual master/slave mode -/

/-- A port without loopbacks. -/
def idlePort : Port := ⟨fun r => if r = resvConLoop then 0xfc00 else 0, probed ⟨0x26, 0⟩⟩

/-- Auto-negotiation as the slave. -/
def slaveConf : Conf :=
  ⟨.auto, true, false, true, ⟨false, true, false, true, true, false⟩, false, .client, .auto⟩

def nearEndOnly : Loopback := { noLoopback with nearEndEna := true }

theorem idlePort_shown : noLoopback.Shown idlePort := ⟨rfl, rfl, rfl, rfl, rfl, rfl⟩

theorem loopbacks_restored_slave :
    (lastRequested [nearEndOnly, noLoopback]).Shown
        (loopbackSets [nearEndOnly, noLoopback] (after (confSet_ slaveConf) idlePort)) ∧
      ((lastRequested [nearEndOnly, noLoopback]).Off1G →
        (Programmed (loopbackSets [nearEndOnly, noLoopback] (after (confSet_ slaveConf) idlePort)) ↔
          ¬slaveConf.Manual ∨ ¬Requests1G [nearEndOnly, noLoopback])) :=
  loopbacks_restored_iff idlePort idlePort_shown rfl slaveConf [nearEndOnly, noLoopback]

/-- The near-end loopback is switched on and off: the slave mode is gone. -/
theorem not_loopbacks_restored : ¬∀ (s₀ : Port) (config : Conf) (ls : List Loopback), noLoopback.Shown s₀ →
    s₀.data.loopback = noLoopback → lastRequested ls = noLoopback →
      Programmed (loopbackSets ls (after (confSet_ config) s₀)) := by
  intro h
  have hbit := h idlePort slaveConf [nearEndOnly, noLoopback] idlePort_shown rfl rfl anegMstrSlvCtrl (by simp) 12
    (by decide) (by simp)
  revert hbit
  decide +kernel

end Lan80xx.Lan8814.Gphy
