import Lan80xx.VtssMacsec.Device
import Lan80xx.Lib.RegScript
import Lan80xx.Macsec.Regs

/-!
# MACsec of the VTSS PHYs: settings that are stored when they are rejected

`vtss_macsec_bypass_mode_set` and `vtss_macsec_mtu_set` store a setting whether or not it is valid and the registers take
it, and `vtss_macsec_secy_conf_update` stores one before it looks at the SCI. `HDR_EXT_CTRL` is never written for
`BYPASS_NONE`.

- `ends_warmWrs`: what a sequence of writes leaves in the registers, failed or not;
- `ends_bypassModeSet`, `ends_mtuSet`, `ends_secyUpdate`: when a call fails, and what it leaves behind;
- `setStepRight_iff`: one step is right exactly where a condition on the state before it holds;
- `settings_atomic_iff`: all steps of a run are right exactly where the condition holds at each.
-/

namespace Lan80xx.VtssMacsec

open Fallible RegBus RegScript
open Macsec (MacsecPort Sci SecyConf MtuConf BypassMode Direction field bit macsecBs)

/-! ## Registers -/

/-- The registers that the settings are written to. -/
inductive SetReg
  | hdrExtCtrl (d : Direction)
  | nonVlanMtuCheck (d : Direction)
  | vlanMtuCheck (d : Direction) (i : Nat)
  deriving DecidableEq, Repr

/-- `vtss_macsec_bypass_mode_t`. -/
structure Bypass where
  mode : BypassMode := .none
  hdrBypassLen : Nat := 0
  hdrEtype : BitVec 16 := 0
  deriving DecidableEq, Repr

/-- The header lengths that `vtss_macsec_bypass_mode_set_priv` rejects. -/
def Bypass.Rejected (b : Bypass) : Prop :=
  b.mode = .hdr ∧ (16 < b.hdrBypassLen ∨ b.hdrBypassLen = 0 ∨ b.hdrBypassLen % 2 ≠ 0)

instance : DecidablePred Bypass.Rejected := fun b => inferInstanceAs (Decidable (b.mode = .hdr ∧ _))

/-- The word of `HDR_EXT_CTRL` for a mode: `HB_ETYPE_MATCH`, `HDR_BYPASS_LEN` and `HB_E_TYPE_MATCH_EN`, or
`SECTAG_AFTER_VLAN`. There is none for `BYPASS_NONE`. -/
def Bypass.hdrExtCtrl (b : Bypass) : Option (BitVec 32) :=
  match b.mode with
  | .hdr => some (field (macsecBs (b.hdrEtype.setWidth 32)) 0 16 |||
      field (BitVec.ofNat 32 (b.hdrBypassLen / 2 + 7)) 17 4 ||| bit 22)
  | .tag => some (bit 21)
  | .none => none

/-- What is written for a mode. -/
def bypassWords (b : Bypass) : List (SetReg × BitVec 32) :=
  match b.hdrExtCtrl with
  | some v => [(.hdrExtCtrl .egress, v), (.hdrExtCtrl .ingress, v)]
  | none => []

/-- `NV_MTU_COMPARE` and `NV_MTU_COMP_DROP`, or `MTU_COMPARE` and `MTU_COMP_DROP`. -/
def mtuWord (mtuValue : BitVec 32) (drop : Bool) : BitVec 32 := field mtuValue 0 15 ||| if drop then bit 15 else 0

/-- What is written for a frame size limit. -/
def mtuWords (conf : MtuConf) : List (SetReg × BitVec 32) :=
  let vlanMtu := if conf.vlanUnawareEn then conf.mtu else conf.mtu + 4
  (SetReg.nonVlanMtuCheck .ingress, mtuWord conf.mtu conf.drop) ::
    (SetReg.nonVlanMtuCheck .egress, mtuWord conf.mtu conf.drop) :: (List.range 8).flatMap fun i =>
      [(.vlanMtuCheck .ingress i, mtuWord vlanMtu conf.drop), (.vlanMtuCheck .egress i, mtuWord vlanMtu conf.drop)]

/-! ## The calls -/

/-- `glb.bypass_mode`. -/
def Glb.bypass (g : Glb) : Bypass := ⟨g.bypassMode, g.hdrBypassLen, g.hdrEtype⟩

def Conf.setBypass (c : Conf) (b : Bypass) : Conf :=
  c.setGlb fun g => { g with bypassMode := b.mode, hdrBypassLen := b.hdrBypassLen, hdrEtype := b.hdrEtype }

def Conf.setMtu (c : Conf) (conf : MtuConf) : Conf := c.setGlb fun g => { g with mtuConf := conf }

/-- `CSR_WARM_WR` reads the register and then writes all of it. -/
def warmWr (p : SetReg × BitVec 32) : Access SetReg 32 := .modify p.1 (BitVec.allOnes 32) p.2

section Calls

variable {H : Type} (bus : Bus SetReg 32 H) (phy : Phy)

def warmWrs (ps : List (SetReg × BitVec 32)) : Call H Unit := runAll bus (fun _ => Rc.access) (ps.map warmWr)

/-- `vtss_macsec_bypass_mode_set_priv` -/
def bypassModeSetPriv (b : Bypass) : Call H Unit := do
  failIf b.Rejected .invalidBypassHdrLen
  warmWrs bus (bypassWords b)

/-- `vtss_macsec_bypass_mode_set` -/
def bypassModeSet (b : Bypass) : Call H Unit := do
  enabledCheck
  afterwards (bypassModeSetPriv bus b) fun s => { s with conf := s.conf.setBypass b }

/-- `vtss_macsec_bypass_mode_get` -/
def bypassModeGet : Call H Bypass := do
  enabledCheck
  let c ← getConf
  return c.glb.bypass

/-- `vtss_macsec_mtu_set_priv` -/
def mtuSetPriv : Call H Unit := do
  let c ← getConf
  failIf (mtuMax < c.glb.mtuConf.mtu) (.macsec .maxMtu)
  warmWrs bus (mtuWords c.glb.mtuConf)

/-- `vtss_macsec_mtu_set` -/
def mtuSet (conf : MtuConf) : Call H Unit := do
  enabledCheck
  modifyConf fun c => c.setMtu conf
  mtuSetPriv bus

/-- `vtss_macsec_mtu_get` -/
def mtuGet : Call H MtuConf := do
  enabledCheck
  let c ← getConf
  return c.glb.mtuConf

/-- `vtss_macsec_secy_conf_update` of a port. -/
def secyUpdate (port : MacsecPort) (conf : SecyConf) : Call H Unit := do
  failIf (64 < conf.confidentialityOffset) .error
  let i ← portCheck phy port
  secyConfUpdate phy i conf

/-- `vtss_macsec_secy_conf_get` -/
def secyConfGet (port : MacsecPort) : Call H SecyConf := do
  let i ← portCheck phy port
  let c ← getConf
  return (c.secy i).conf

end Calls

/-! ## Sequences of writes -/

/-- The words that `HDR_EXT_CTRL` has in a mode; in `BYPASS_NONE` neither bypass is on. -/
def Bypass.Encoded (b : Bypass) (w : BitVec 32) : Prop :=
  match b.hdrExtCtrl with
  | some v => w = v
  | none => w.getLsbD 21 = false ∧ w.getLsbD 22 = false

section Writes

variable {H : Type} (sb : WordBus SetReg 32 H) {ps : List (SetReg × BitVec 32)} {h h₀ : H} {c : Conf}
  {m : SetReg → BitVec 32}

/-- An access of the sequence fails. -/
def Refused (bus : Bus SetReg 32 H) (ps : List (SetReg × BitVec 32)) (h : H) : Prop :=
  passesAll bus (ps.map warmWr) h = none

instance (bus : Bus SetReg 32 H) : Decidable (Refused bus ps h) := inferInstanceAs (Decidable (_ = none))

theorem modified_allOnes (old v : BitVec 32) : modified old (BitVec.allOnes 32) v = v := by simp [modified]

/-- The registers from `m` on hold words of the sequence, or what they held before. -/
def Written (ps : List (SetReg × BitVec 32)) (m m' : SetReg → BitVec 32) : Prop := ∀ r, (r, m' r) ∈ ps ∨ m' r = m r

theorem Written.cons {m' : SetReg → BitVec 32} {q : SetReg} {v : BitVec 32} (hw : Written ps (Function.update m q v) m') :
    Written ((q, v) :: ps) m m' := by
  intro r
  rcases hw r with hmem | heq
  · exact Or.inl (List.mem_cons_of_mem _ hmem)
  · by_cases hr : r = q
    · subst hr
      rw [heq, Function.update_self]
      exact Or.inl List.mem_cons_self
    · exact Or.inr (heq.trans (Function.update_of_ne hr v m))

/-- Each register that the sequence writes holds one of the words for it. -/
def Complete (ps : List (SetReg × BitVec 32)) (m' : SetReg → BitVec 32) : Prop := ∀ p ∈ ps, (p.1, m' p.1) ∈ ps

theorem Complete.cons {m' : SetReg → BitVec 32} {q : SetReg} {v : BitVec 32} (hc : Complete ps m')
    (hw : Written ps (Function.update m q v) m') : Complete ((q, v) :: ps) m' := by
  intro p hp
  rcases List.mem_cons.mp hp with rfl | hp
  · rcases hw q with hmem | heq
    · exact List.mem_cons_of_mem _ hmem
    · rw [heq, Function.update_self]
      exact List.mem_cons_self
  · exact List.mem_cons_of_mem _ (hc p hp)

/-- What a sequence leaves in the registers, whether or not it goes through. -/
theorem ends_warmWrs_sees (ps : List (SetReg × BitVec 32)) (m : SetReg → BitVec 32) :
    Ends (Sees sb h₀ c m) (warmWrs sb.toBus ps)
      (fun _ s => ∃ m', Sees sb h₀ c m' s ∧ Written ps m m' ∧ Complete ps m')
      (fun s => ∃ m', Sees sb h₀ c m' s ∧ Written ps m m') := by
  induction ps generalizing m with
  | nil =>
    refine Ends.pure fun s hs => ⟨m, hs, fun _ => Or.inr rfl, fun p hp => ?_⟩
    cases hp
  | cons p ps ih =>
    obtain ⟨q, v⟩ := p
    have hread : Ends (Sees sb h₀ c m) (read sb.toBus (fun _ => Rc.access) q) (fun _ => Sees sb h₀ c m)
        (fun s => ∃ m', Sees sb h₀ c m' s ∧ Written ((q, v) :: ps) m m') :=
      (ends_read_sees sb _ q fun s _ hs => ⟨m, hs, fun _ => Or.inr rfl⟩).weaken (fun _ _ hs => hs.1) fun _ hs => hs
    have hwrite : Ends (Sees sb h₀ c m) (write sb.toBus (fun _ => Rc.access) q v)
        (fun _ => Sees sb h₀ c (Function.update m q v))
        (fun s => ∃ m', Sees sb h₀ c m' s ∧ Written ((q, v) :: ps) m m') := by
      refine ends_write_sees sb _ q v fun s _ hs => ?_
      rcases hs with hs | hs
      · exact ⟨m, hs, fun _ => Or.inr rfl⟩
      · exact ⟨_, hs, Written.cons fun _ => Or.inr rfl⟩
    refine (hread.bind fun old => ?_).bind fun _ => (ih (Function.update m q v)).weaken ?_ ?_
    · rw [modified_allOnes]
      exact hwrite
    · rintro _ s ⟨m', hs, hw, hc⟩
      exact ⟨m', hs, hw.cons, hc.cons hw⟩
    · rintro s ⟨m', hs, hw⟩
      exact ⟨m', hs, hw.cons⟩

/-- A sequence fails exactly where one of its accesses does. -/
theorem ends_warmWrs (ps : List (SetReg × BitVec 32)) : Ends (RegScript.At c h) (warmWrs sb.toBus ps)
    (fun _ s => s.conf = c ∧ ¬Refused sb.toBus ps h ∧ Written ps (sb.view h) (sb.view s.hw) ∧ Complete ps (sb.view s.hw))
    (fun s => s.conf = c ∧ Refused sb.toBus ps h ∧ Written ps (sb.view h) (sb.view s.hw)) := by
  rintro s ⟨hconf, hhw⟩
  have hsees : Sees sb h c (sb.view h) s := ⟨hconf, hhw ▸ .refl, by rw [hhw]⟩
  have hpass := ends_runAll_passes sb.toBus (fun _ => Rc.access) (c := c) (h := h) (ps.map warmWr)
  rcases ends_warmWrs_sees sb ps (sb.view h) s hsees with ⟨u, s', hrun, m', hs', hw, hcomplete⟩ | ⟨e, s', hrun, m', hs', hw⟩
  · obtain ⟨-, hsome⟩ := hpass.ok ⟨hconf, hhw⟩ hrun
    refine Or.inl ⟨u, s', hrun, hs'.1, fun hr => ?_, ?_⟩
    · rw [Refused, hsome] at hr
      cases hr
    · rw [hs'.2.2]
      exact ⟨hw, hcomplete⟩
  · obtain ⟨-, hnone⟩ := hpass.error ⟨hconf, hhw⟩ hrun
    refine Or.inr ⟨e, s', hrun, hs'.1, hnone, ?_⟩
    rw [hs'.2.2]
    exact hw

end Writes

/-! ## What the calls leave behind -/

section Ends

variable {H : Type} (sb : WordBus SetReg 32 H) {phy : Phy} {h : H} {c : Conf}

theorem ends_enabledCheck : Ends (RegScript.At c h) (enabledCheck : Call H Unit)
    (fun _ s => RegScript.At c h s ∧ c.glb.init.enable = true) fun s => RegScript.At c h s ∧ c.glb.init.enable = false := by
  refine ends_getConf_bind (fun _ hs => hs.1) ?_
  exact (Ends.failIf fun _ hs hb => ⟨hs, hb⟩).weaken (fun _ _ hs => ⟨hs.1, by simpa using hs.2⟩) fun _ hs => hs

theorem ends_portCheck (port : MacsecPort) : Ends (RegScript.At c h) (portCheck phy port : Call H Nat)
    (fun i s => RegScript.At c h s ∧ c.glb.init.enable = true ∧ c.portFind phy port = some i)
    fun s => RegScript.At c h s ∧ (c.glb.init.enable = false ∨ c.portFind phy port = none) := by
  refine ends_getConf_bind (fun _ hs => hs.1) (Ends.failIf_bind (fun _ hs hb => ⟨hs, Or.inl hb⟩) fun hen => ?_)
  cases hfind : c.portFind phy port with
  | none => exact Ends.throw fun s hs => ⟨hs, Or.inr rfl⟩
  | some i => exact Ends.pure fun s hs => ⟨hs, by simpa using hen, rfl⟩

/-- The mode is stored in any case. -/
theorem ends_bypassModeSet (b : Bypass) : Ends (RegScript.At c h) (bypassModeSet sb.toBus b)
    (fun _ s => (c.glb.init.enable = true ∧ ¬b.Rejected ∧ ¬Refused sb.toBus (bypassWords b) h) ∧ s.conf = c.setBypass b ∧
      Written (bypassWords b) (sb.view h) (sb.view s.hw) ∧ Complete (bypassWords b) (sb.view s.hw))
    (fun s => (c.glb.init.enable = false ∧ RegScript.At c h s) ∨
      (c.glb.init.enable = true ∧ (b.Rejected ∨ Refused sb.toBus (bypassWords b) h) ∧ s.conf = c.setBypass b ∧
        Written (bypassWords b) (sb.view h) (sb.view s.hw))) := by
  refine (ends_enabledCheck.weaken (fun _ _ hs => hs) fun s hs => Or.inl ⟨hs.2, hs.1⟩).bind fun _ => Ends.imp fun hen => ?_
  have hpriv : Ends (RegScript.At c h) (bypassModeSetPriv sb.toBus b)
      (fun _ s => (¬b.Rejected ∧ ¬Refused sb.toBus (bypassWords b) h) ∧ s.conf = c ∧
        Written (bypassWords b) (sb.view h) (sb.view s.hw) ∧ Complete (bypassWords b) (sb.view s.hw))
      (fun s => (b.Rejected ∨ Refused sb.toBus (bypassWords b) h) ∧ s.conf = c ∧
        Written (bypassWords b) (sb.view h) (sb.view s.hw)) := by
    refine Ends.failIf_bind (fun s hs hb => ⟨Or.inl hb, hs.1, fun r => Or.inr (by rw [hs.2])⟩) fun hb => ?_
    refine (ends_warmWrs sb (bypassWords b)).weaken ?_ ?_
    · rintro _ s ⟨hc, hno, hw, hall⟩
      exact ⟨⟨hb, hno⟩, hc, hw, hall⟩
    · rintro s ⟨hc, href, hw⟩
      exact ⟨Or.inr href, hc, hw⟩
  refine hpriv.afterwards ?_ ?_
  · rintro _ s ⟨hno, rfl, hw, hall⟩
    exact ⟨⟨hen, hno⟩, rfl, hw, hall⟩
  · rintro s ⟨hbad, rfl, hw⟩
    exact Or.inr ⟨hen, hbad, rfl, hw⟩

/-- The frame size limit is stored in any case. -/
theorem ends_mtuSet (conf : MtuConf) : Ends (RegScript.At c h) (mtuSet sb.toBus conf)
    (fun _ s => (c.glb.init.enable = true ∧ conf.mtu ≤ mtuMax ∧ ¬Refused sb.toBus (mtuWords conf) h) ∧
      s.conf = c.setMtu conf ∧ Written (mtuWords conf) (sb.view h) (sb.view s.hw))
    (fun s => (c.glb.init.enable = false ∧ RegScript.At c h s) ∨
      (c.glb.init.enable = true ∧ (mtuMax < conf.mtu ∨ Refused sb.toBus (mtuWords conf) h) ∧ s.conf = c.setMtu conf ∧
        Written (mtuWords conf) (sb.view h) (sb.view s.hw))) := by
  refine (ends_enabledCheck.weaken (fun _ _ hs => hs) fun s hs => Or.inl ⟨hs.2, hs.1⟩).bind fun _ => Ends.imp fun hen => ?_
  have hstore : Ends (RegScript.At c h) (modifyConf fun c => c.setMtu conf : Call H PUnit)
      (fun _ => RegScript.At (c.setMtu conf) h)
      (fun s => (c.glb.init.enable = false ∧ RegScript.At c h s) ∨
        (c.glb.init.enable = true ∧ (mtuMax < conf.mtu ∨ Refused sb.toBus (mtuWords conf) h) ∧ s.conf = c.setMtu conf ∧
          Written (mtuWords conf) (sb.view h) (sb.view s.hw))) :=
    ends_modifyConf_of fun s hs => ⟨congrArg (fun c => c.setMtu conf) hs.1, hs.2⟩
  refine hstore.bind fun _ => ends_getConf_bind (fun _ hs => hs.1) (Ends.failIf_bind ?_ fun hmtu => ?_)
  · intro s hs hbad
    exact Or.inr ⟨hen, Or.inl hbad, hs.1, fun r => Or.inr (by rw [hs.2])⟩
  · refine (ends_warmWrs sb (mtuWords conf)).weaken ?_ ?_
    · rintro _ s ⟨hc, hno, hw, -⟩
      exact ⟨⟨hen, BitVec.not_lt.mp hmtu, hno⟩, hc, hw⟩
    · rintro s ⟨hc, href, hw⟩
      exact Or.inr ⟨hen, Or.inr href, hc, hw⟩

/-- The SCI that an update leaves is not valid, and the SecY has a channel, for which it is checked. -/
def SciRejected (phy : Phy) (c : Conf) (i : Nat) (conf : SecyConf) : Prop :=
  (List.range phy.maxScCnt).any (fun sc => (c.rxScAt i sc).inUse) = true ∧
    isSciValid { (c.secy i).sci with macAddr := conf.macAddr } = false

/-- An update gets to the SecY of the port, and stores its values. -/
structure SecyReached (phy : Phy) (c : Conf) (i : Nat) (port : MacsecPort) (conf : SecyConf) : Prop where
  offset : conf.confidentialityOffset ≤ 64
  enable : c.glb.init.enable = true
  find : c.portFind phy port = some i
  suite : suiteRejected c.glb.macsecRevb conf = false

theorem rxScAt_inUse_congr {c c' : Conf} {i sc : Nat} (hp : (c'.secy i).rxSc = (c.secy i).rxSc)
    (hu : ∀ p, (c'.rxSc p).inUse = (c.rxSc p).inUse) : (c'.rxScAt i sc).inUse = (c.rxScAt i sc).inUse := by
  rw [Conf.rxScAt, Conf.rxScAt, hp]
  split
  · exact hu _
  · rfl

theorem inheritRxSc_inUse {i sc p : Nat} {conf : SecyConf} :
    ((c.inheritRxSc i sc conf).rxSc p).inUse = (c.rxSc p).inUse := by
  rw [Conf.inheritRxSc, Conf.setRxScAt]
  split
  · rw [Conf.setRxSc_rxSc]
    split
    · next hp => rw [hp]
    · rfl
  · rfl

/-- The SecY has the new values, and the channels in use are the same. -/
structure SecyUpdated (h : H) (c : Conf) (i : Nat) (conf : SecyConf) (s : Dev Conf H) : Prop where
  hw : s.hw = h
  glb : s.conf.glb = c.glb
  secy : s.conf.secy = (c.updateSecy i conf).secy
  inUse : ∀ p, (s.conf.rxSc p).inUse = (c.rxSc p).inUse

/-- A part of the call that begins with the tables as they are now. -/
theorem ends_getConf_updated {α : Type} {i : Nat} {conf : SecyConf} {f : Conf → Call H α} {Q : α → Dev Conf H → Prop}
    {E : Dev Conf H → Prop}
    (hf : ∀ c', Ends (fun s => SecyUpdated h c i conf s ∧ s.conf = c') (f c') Q E) :
    Ends (SecyUpdated h c i conf) (getConf >>= f) Q E :=
  (Ends.ghost fun c' => ends_getConf_bind (fun _ hs => hs.2) (hf c')).pre fun s hs => ⟨s.conf, hs, rfl⟩

theorem SecyUpdated.inherit {i sc : Nat} {conf : SecyConf} {s : Dev Conf H} (hs : SecyUpdated h c i conf s) :
    SecyUpdated h c i conf { s with conf := s.conf.inheritRxSc i sc conf } where
  hw := hs.hw
  glb := (Conf.setRxScAt_glb _).trans hs.glb
  secy := (Conf.setRxScAt_secy _).trans hs.secy
  inUse p := inheritRxSc_inUse.trans (hs.inUse p)

/-- The check of the SCI, at the end of the call. -/
theorem SecyUpdated.sciRejected_iff {i : Nat} {conf : SecyConf} {s : Dev Conf H} (hs : SecyUpdated h c i conf s) :
    ((List.range phy.maxScCnt).any (fun sc => (s.conf.rxScAt i sc).inUse) = true ∧ isSciValid (s.conf.secy i).sci = false) ↔
      SciRejected phy c i conf := by
  have hsecy : s.conf.secy i = { c.secy i with conf, sci := { (c.secy i).sci with macAddr := conf.macAddr } } := by
    rw [hs.secy, Conf.updateSecy, Conf.setSecy_secy_self]
  have hinUse : (fun sc => (s.conf.rxScAt i sc).inUse) = fun sc => (c.rxScAt i sc).inUse :=
    funext fun sc => rxScAt_inUse_congr (by rw [hsecy]) hs.inUse
  rw [hinUse, hsecy, SciRejected]

/-- The values are stored before the SCI is looked at. -/
theorem ends_secyConfUpdate (i : Nat) (conf : SecyConf) : Ends (RegScript.At c h) (secyConfUpdate phy i conf : Call H Unit)
    (fun _ s => s.hw = h ∧ s.conf.glb = c.glb ∧ suiteRejected c.glb.macsecRevb conf = false ∧ ¬SciRejected phy c i conf)
    (fun s => s.hw = h ∧ s.conf.glb = c.glb ∧ ((suiteRejected c.glb.macsecRevb conf = true ∧ s.conf = c) ∨
      (suiteRejected c.glb.macsecRevb conf = false ∧ SciRejected phy c i conf ∧
        s.conf.secy = (c.updateSecy i conf).secy))) := by
  refine ends_getConf_bind (fun _ hs => hs.1) (Ends.failIf_bind ?_ fun hsuite => ?_)
  · rintro s ⟨rfl, hhw⟩ hbad
    exact ⟨hhw, rfl, Or.inl ⟨hbad, rfl⟩⟩
  have hsuite' : suiteRejected c.glb.macsecRevb conf = false := Bool.eq_false_iff.mpr hsuite
  have hstore : Ends (RegScript.At c h) (modifyConf fun c => c.updateSecy i conf : Call H PUnit)
      (fun _ => SecyUpdated h c i conf) fun s => s.hw = h ∧ s.conf.glb = c.glb ∧
        ((suiteRejected c.glb.macsecRevb conf = true ∧ s.conf = c) ∨ (suiteRejected c.glb.macsecRevb conf = false ∧
          SciRejected phy c i conf ∧ s.conf.secy = (c.updateSecy i conf).secy)) := by
    refine ends_modifyConf_of ?_
    rintro s ⟨rfl, hhw⟩
    exact ⟨hhw, rfl, rfl, fun _ => rfl⟩
  refine hstore.bind fun _ => (Ends.forUpTo (I := fun _ => SecyUpdated h c i conf) _ fun sc _ => ?_).bind fun _ => ?_
  · refine ends_getConf_updated fun c' => Ends.when (fun _ => ?_) fun _ s hs => hs.1
    exact ends_modifyConf_of fun s hs => hs.1.inherit
  · refine ends_getConf_updated fun c' => (Ends.failIf ?_).weaken ?_ fun _ hs => hs
    · rintro s ⟨hs, rfl⟩ hbad
      exact ⟨hs.hw, hs.glb, Or.inr ⟨hsuite', hs.sciRejected_iff.mp hbad, hs.secy⟩⟩
    · rintro _ s ⟨⟨hs, rfl⟩, hok⟩
      exact ⟨hs.hw, hs.glb, hsuite', fun hbad => hok (hs.sciRejected_iff.mpr hbad)⟩

/-- What an update of a port's SecY does. A call that is rejected before the SCI leaves everything as it is. -/
theorem ends_secyUpdate (port : MacsecPort) (conf : SecyConf) :
    Ends (RegScript.At c h) (secyUpdate phy port conf : Call H Unit)
    (fun _ s => s.hw = h ∧ s.conf.glb = c.glb ∧ ∀ i, c.portFind phy port = some i → ¬SciRejected phy c i conf)
    (fun s => s.hw = h ∧ s.conf.glb = c.glb ∧ ((s.conf = c ∧ ∀ i, ¬SecyReached phy c i port conf) ∨
      ∃ i, SecyReached phy c i port conf ∧ SciRejected phy c i conf ∧ s.conf.secy = (c.updateSecy i conf).secy)) := by
  refine Ends.failIf_bind ?_ fun hlen => ?_
  · rintro s ⟨rfl, hhw⟩ hlen
    exact ⟨hhw, rfl, Or.inl ⟨rfl, fun i hr => absurd hlen (Nat.not_lt.mpr hr.offset)⟩⟩
  refine ((ends_portCheck port).weaken (fun _ _ hs => hs) ?_).bind fun i => Ends.imp ?_
  · rintro s ⟨⟨rfl, hhw⟩, hno⟩
    refine ⟨hhw, rfl, Or.inl ⟨rfl, fun i hr => ?_⟩⟩
    rcases hno with hno | hno
    · exact Bool.noConfusion (hr.enable.symm.trans hno)
    · cases hr.find.symm.trans hno
  · rintro ⟨hen, hfind⟩
    refine (ends_secyConfUpdate i conf).weaken ?_ ?_
    · rintro _ s ⟨hhw, hglb, -, hsci⟩
      refine ⟨hhw, hglb, fun j hj => ?_⟩
      cases hfind.symm.trans hj
      exact hsci
    · rintro s ⟨hhw, hglb, ⟨hsuite, hc⟩ | ⟨hsuite, hsci, hsecy⟩⟩
      · refine ⟨hhw, hglb, Or.inl ⟨hc, fun j hr => ?_⟩⟩
        exact Bool.noConfusion (hsuite.symm.trans hr.suite)
      · exact ⟨hhw, hglb, Or.inr ⟨i, ⟨Nat.not_lt.mp hlen, hen, hfind, hsuite⟩, hsci, hsecy⟩⟩

end Ends

/-! ## Runs -/

/-- The mode of the last call of `vtss_macsec_bypass_mode_set` that was accepted, and the device. -/
structure SetMoment (H : Type) where
  accepted : Bypass
  dev : Dev Conf H

/-- The calls. -/
inductive SetAct
  | bypassModeSet (b : Bypass)
  | mtuSet (conf : MtuConf)
  | secyConfUpdate (port : MacsecPort) (conf : SecyConf)

/-- A step of a run: a call that returns `VTSS_RC_OK` or an error. -/
structure SetStep (H : Type) where
  before : SetMoment H
  act : SetAct
  ok : Bool
  after : SetMoment H

/-- What a call that only reads reports. -/
def Reports {H α : Type} (x : Call H α) (s : Dev Conf H) (v : α) : Prop := ∃ s', x s = .ok v s'

section Runs

variable {H : Type} (sb : WordBus SetReg 32 H) (phy : Phy)

def SetAct.call : SetAct → Call H Unit
  | .bypassModeSet b => VtssMacsec.bypassModeSet sb.toBus b
  | .mtuSet conf => VtssMacsec.mtuSet sb.toBus conf
  | .secyConfUpdate port conf => secyUpdate phy port conf

/-- The mode that was accepted last, after a call. -/
def SetAct.acceptedAfter (accepted : Bypass) (ok : Bool) : SetAct → Bypass
  | .bypassModeSet b => if ok = true then b else accepted
  | _ => accepted

/-- The call goes from one state to the other, and succeeds or not. -/
def SetAct.Happens (p q : SetMoment H) (ok : Bool) (a : SetAct) : Prop :=
  if ok = true then a.call sb phy p.dev = .ok () q.dev else ∃ e, a.call sb phy p.dev = .error e q.dev

/-- Both directions bypass headers as the last accepted mode says. -/
def SetMoment.Encodes (p : SetMoment H) : Prop := ∀ d, p.accepted.Encoded (sb.view p.dev.hw (.hdrExtCtrl d))

/-- A run: its steps, the last one first, and where it has got to. It starts where the stored mode is that of the
registers. -/
inductive SetRun : List (SetStep H) → SetMoment H → Prop
  | start (p : SetMoment H) (hstored : p.accepted = p.dev.conf.glb.bypass) (hregs : p.Encodes sb) : SetRun [] p
  | step {ts : List (SetStep H)} {p q : SetMoment H} {a : SetAct} {ok : Bool} (h : SetRun ts p)
      (haccepted : q.accepted = a.acceptedAfter p.accepted ok) (hn : a.Happens sb phy p q ok) :
      SetRun (⟨p, a, ok, q⟩ :: ts) q

/-- What the call's get reports, and the SCIs of the SecYs for an update of one, are as before. -/
def SetAct.Kept (s s' : Dev Conf H) : SetAct → Prop
  | .bypassModeSet _ => ∀ b, Reports bypassModeGet s b → Reports bypassModeGet s' b
  | .mtuSet _ => ∀ conf, Reports mtuGet s conf → Reports mtuGet s' conf
  | .secyConfUpdate port _ => (∀ conf, Reports (secyConfGet phy port) s conf → Reports (secyConfGet phy port) s' conf) ∧
    ∀ i, (s'.conf.secy i).sci = (s.conf.secy i).sci

/-- A step that leaves the registers right, and keeps the setting when it fails. -/
structure SetStep.Right (t : SetStep H) : Prop where
  encodes : t.after.Encodes sb
  kept : t.ok = false → t.act.Kept phy t.before.dev t.after.dev

/-- A setting that the call is to reject is the one that is stored; and `BYPASS_NONE` comes after no other mode. -/
def SetStep.Keeps (t : SetStep H) : Prop :=
  match t.act with
  | .bypassModeSet b => t.before.dev.conf.glb.init.enable = true →
    if b.Rejected ∨ Refused sb.toBus (bypassWords b) t.before.dev.hw then b = t.before.dev.conf.glb.bypass
    else b.mode = .none → t.before.accepted.mode = .none
  | .mtuSet conf => t.before.dev.conf.glb.init.enable = true →
    mtuMax < conf.mtu ∨ Refused sb.toBus (mtuWords conf) t.before.dev.hw → conf = t.before.dev.conf.glb.mtuConf
  | .secyConfUpdate port conf => ∀ i, SecyReached phy t.before.dev.conf i port conf →
    SciRejected phy t.before.dev.conf i conf →
    conf = (t.before.dev.conf.secy i).conf ∧ conf.macAddr = (t.before.dev.conf.secy i).sci.macAddr

end Runs

/-! ## What is reported -/

section Reports

variable {H : Type} {phy : Phy} {s s' : Dev Conf H}

theorem reports_iff {α : Type} {x : Call H α} {u v : α} {t : Dev Conf H} (h : x s = .ok u t) : Reports x s v ↔ v = u := by
  constructor
  · rintro ⟨t', ht⟩
    cases h.symm.trans ht
    rfl
  · rintro rfl
    exact ⟨t, h⟩

theorem reports_bypassModeGet (hen : s.conf.glb.init.enable = true) {b : Bypass} :
    Reports bypassModeGet s b ↔ b = s.conf.glb.bypass :=
  reports_iff ((bind_of_ok (enabledCheck_eq hen)).trans rfl)

theorem reports_mtuGet (hen : s.conf.glb.init.enable = true) {conf : MtuConf} :
    Reports mtuGet s conf ↔ conf = s.conf.glb.mtuConf :=
  reports_iff ((bind_of_ok (enabledCheck_eq hen)).trans rfl)

theorem reports_secyConfGet {port : MacsecPort} {i : Nat} (hen : s.conf.glb.init.enable = true)
    (hi : s.conf.portFind phy port = some i) {conf : SecyConf} :
    Reports (secyConfGet phy port) s conf ↔ conf = (s.conf.secy i).conf :=
  reports_iff ((bind_of_ok (portCheck_eq hen hi)).trans rfl)

end Reports

/-! ## The registers of a mode -/

section Encoded

variable {b b' : Bypass} {m m' : SetReg → BitVec 32} {d : Direction} {v : BitVec 32}

theorem hdrExtCtrl_none_iff : b.hdrExtCtrl = none ↔ b.mode = .none := by
  rw [Bypass.hdrExtCtrl]
  cases b.mode <;> simp

/-- A word that is written turns one of the bypasses on. -/
theorem hdrExtCtrl_on (h : b.hdrExtCtrl = some v) : ¬(v.getLsbD 21 = false ∧ v.getLsbD 22 = false) := by
  rw [Bypass.hdrExtCtrl] at h
  split at h
  · cases h
    have hbit : (bit 22).getLsbD 22 = true := by decide
    rintro ⟨-, hno⟩
    rw [BitVec.getLsbD_or, hbit, Bool.or_true] at hno
    cases hno
  · cases h
    decide
  · cases h

theorem mem_bypassWords (h : (SetReg.hdrExtCtrl d, v) ∈ bypassWords b) : b.hdrExtCtrl = some v := by
  rw [bypassWords] at h
  split at h
  · next u hu =>
    rw [hu]
    simp only [List.mem_cons, Prod.mk.injEq, List.not_mem_nil, or_false] at h
    rcases h with ⟨-, rfl⟩ | ⟨-, rfl⟩ <;> rfl
  · cases h

theorem encoded_of_mem (h : (SetReg.hdrExtCtrl d, v) ∈ bypassWords b) : b.Encoded v := by
  rw [Bypass.Encoded, mem_bypassWords h]

/-- Registers that have a mode already keep it when some of its words are written. -/
theorem encoded_of_written (hw : Written (bypassWords b) m m') (h : b.Encoded (m (.hdrExtCtrl d))) :
    b.Encoded (m' (.hdrExtCtrl d)) := by
  rcases hw (.hdrExtCtrl d) with hmem | heq
  · exact encoded_of_mem hmem
  · rwa [heq]

/-- The registers after a mode is accepted: there are no words for `BYPASS_NONE`. -/
theorem encoded_iff_of_complete (hw : Written (bypassWords b') m m') (hc : Complete (bypassWords b') m')
    (h : ∀ d, b.Encoded (m (.hdrExtCtrl d))) :
    (∀ d, b'.Encoded (m' (.hdrExtCtrl d))) ↔ (b'.mode = .none → b.mode = .none) := by
  cases hb' : b'.hdrExtCtrl with
  | some v =>
    have hmode : b'.mode ≠ .none := fun hno => by rw [hdrExtCtrl_none_iff.mpr hno] at hb'; cases hb'
    have hwords : bypassWords b' = [(.hdrExtCtrl .egress, v), (.hdrExtCtrl .ingress, v)] := by rw [bypassWords, hb']
    refine iff_of_true (fun d => encoded_of_mem (hc (.hdrExtCtrl d, v) ?_)) fun hno => absurd hno hmode
    rw [hwords]
    cases d <;> simp
  | none =>
    have hmode : b'.mode = .none := hdrExtCtrl_none_iff.mp hb'
    have hsame : m' = m := funext fun r => (hw r).resolve_left (by rw [bypassWords, hb']; exact List.not_mem_nil)
    have hoff (w : BitVec 32) : b'.Encoded w ↔ w.getLsbD 21 = false ∧ w.getLsbD 22 = false := by
      rw [Bypass.Encoded, hb']
    simp only [hsame, hoff, hmode, true_imp_iff]
    cases hb : b.hdrExtCtrl with
    | some v =>
      have hword : m (.hdrExtCtrl .egress) = v := by
        have henc := h .egress
        rwa [Bypass.Encoded, hb] at henc
      refine iff_of_false (fun hall => hdrExtCtrl_on hb ?_) fun hno => ?_
      · rw [← hword]
        exact hall .egress
      · rw [hdrExtCtrl_none_iff.mpr hno] at hb
        cases hb
    | none =>
      refine iff_of_true (fun d => ?_) (hdrExtCtrl_none_iff.mp hb)
      have henc := h d
      rwa [Bypass.Encoded, hb] at henc

/-- The limit is written to other registers. -/
theorem hdrExtCtrl_of_mtu {conf : MtuConf} (hw : Written (mtuWords conf) m m') : m' (.hdrExtCtrl d) = m (.hdrExtCtrl d) := by
  refine (hw (.hdrExtCtrl d)).resolve_left ?_
  simp [mtuWords]

end Encoded

/-! ## One step -/

section Steps

variable {H : Type} {sb : WordBus SetReg 32 H} {phy : Phy} {p q : SetMoment H} {a : SetAct} {ok : Bool}
  {ts : List (SetStep H)} {s s' : Dev Conf H}

theorem SetAct.Kept.refl (a : SetAct) : a.Kept phy s s := by
  cases a with
  | bypassModeSet b => exact fun _ h => h
  | mtuSet conf => exact fun _ h => h
  | secyConfUpdate port conf => exact ⟨fun _ h => h, fun _ => rfl⟩

theorem kept_bypass_iff {b : Bypass} (hen : s.conf.glb.init.enable = true) (hs : s'.conf = s.conf.setBypass b) :
    (SetAct.bypassModeSet b).Kept phy s s' ↔ b = s.conf.glb.bypass := by
  have hen' : s'.conf.glb.init.enable = true := by rw [hs]; exact hen
  have hstored : s'.conf.glb.bypass = b := by rw [hs]; rfl
  simp only [SetAct.Kept, reports_bypassModeGet hen, reports_bypassModeGet hen', forall_eq, hstored]
  exact eq_comm

theorem kept_mtu_iff {conf : MtuConf} (hen : s.conf.glb.init.enable = true) (hs : s'.conf = s.conf.setMtu conf) :
    (SetAct.mtuSet conf).Kept phy s s' ↔ conf = s.conf.glb.mtuConf := by
  have hen' : s'.conf.glb.init.enable = true := by rw [hs]; exact hen
  have hstored : s'.conf.glb.mtuConf = conf := by rw [hs]; rfl
  simp only [SetAct.Kept, reports_mtuGet hen, reports_mtuGet hen', forall_eq, hstored]
  exact eq_comm

theorem kept_secy_iff {port : MacsecPort} {conf : SecyConf} {i : Nat} (hr : SecyReached phy s.conf i port conf)
    (hglb : s'.conf.glb = s.conf.glb) (hsecy : s'.conf.secy = (s.conf.updateSecy i conf).secy) :
    (SetAct.secyConfUpdate port conf).Kept phy s s' ↔
      conf = (s.conf.secy i).conf ∧ conf.macAddr = (s.conf.secy i).sci.macAddr := by
  have hsame (j : Nat) (hj : j ≠ i) : s'.conf.secy j = s.conf.secy j := by
    rw [hsecy, Conf.updateSecy, Conf.setSecy_secy, if_neg hj]
  have hself : s'.conf.secy i =
      { s.conf.secy i with conf, sci := { (s.conf.secy i).sci with macAddr := conf.macAddr } } := by
    rw [hsecy, Conf.updateSecy, Conf.setSecy_secy_self]
  have hport (j : Nat) : s'.conf.hasPort port j = s.conf.hasPort port j := by
    by_cases hj : j = i
    · rw [Conf.hasPort, Conf.hasPort, hj, hself]
    · rw [Conf.hasPort, Conf.hasPort, hsame j hj]
  have hfind : s'.conf.portFind phy port = some i := (portFind_congr hport).trans hr.find
  have hen' : s'.conf.glb.init.enable = true := by rw [hglb]; exact hr.enable
  have hconf : (s'.conf.secy i).conf = conf := by rw [hself]
  have hsci : (∀ j, (s'.conf.secy j).sci = (s.conf.secy j).sci) ↔ conf.macAddr = (s.conf.secy i).sci.macAddr := by
    constructor
    · intro h
      have hi := h i
      rw [hself] at hi
      exact congrArg Sci.macAddr hi
    · intro h j
      by_cases hj : j = i
      · rw [hj, hself, h]
      · rw [hsame j hj]
  simp only [SetAct.Kept, reports_secyConfGet hr.enable hr.find, reports_secyConfGet hen' hfind, forall_eq, hconf, hsci]
  rw [eq_comm]

/-- The bypass registers and what they are to hold are left alone. -/
theorem encodes_of_same (h : p.Encodes sb) (haccepted : q.accepted = p.accepted)
    (hregs : ∀ d, sb.view q.dev.hw (.hdrExtCtrl d) = sb.view p.dev.hw (.hdrExtCtrl d)) : q.Encodes sb := by
  intro d
  rw [haccepted, hregs]
  exact h d

/-- A call that fails and changes nothing. -/
theorem right_of_same (h : p.Encodes sb) (haccepted : q.accepted = p.accepted) (hdev : q.dev = p.dev) :
    SetStep.Right sb phy ⟨p, a, ok, q⟩ where
  encodes := encodes_of_same h haccepted fun d => by rw [hdev]
  kept _ := by
    dsimp only
    rw [hdev]
    exact SetAct.Kept.refl a

theorem bypassStep_iff {b : Bypass} (henc : p.Encodes sb) (hstored : p.accepted = p.dev.conf.glb.bypass)
    (haccepted : q.accepted = if ok = true then b else p.accepted)
    (hn : (SetAct.bypassModeSet b).Happens sb phy p q ok) :
    SetStep.Right sb phy ⟨p, .bypassModeSet b, ok, q⟩ ↔ SetStep.Keeps sb phy ⟨p, .bypassModeSet b, ok, q⟩ := by
  have hat : RegScript.At p.dev.conf p.dev.hw p.dev := ⟨rfl, rfl⟩
  cases ok with
  | true =>
    obtain ⟨⟨hen, hrej, href⟩, -, hw, hc⟩ := (ends_bypassModeSet sb b).ok hat hn
    have hkeeps : SetStep.Keeps sb phy ⟨p, .bypassModeSet b, true, q⟩ ↔ (b.mode = .none → p.accepted.mode = .none) := by
      simp only [SetStep.Keeps, hen, true_imp_iff]
      rw [if_neg (not_or.mpr ⟨hrej, href⟩)]
    rw [hkeeps, ← encoded_iff_of_complete hw hc henc]
    have haccepted' : q.accepted = b := haccepted
    rw [← haccepted']
    exact ⟨fun h => h.encodes, fun h => ⟨h, fun hno => Bool.noConfusion hno⟩⟩
  | false =>
    obtain ⟨e, he⟩ := hn
    have haccepted' : q.accepted = p.accepted := haccepted
    rcases (ends_bypassModeSet sb b).error hat he with ⟨hen, hconf, hhw⟩ | ⟨hen, hbad, hq, hw⟩
    · refine iff_of_true (right_of_same henc haccepted' (congrArg₂ Dev.mk hconf hhw)) fun hen' => ?_
      exact Bool.noConfusion (hen.symm.trans hen')
    · have hkeeps : SetStep.Keeps sb phy ⟨p, .bypassModeSet b, false, q⟩ ↔ b = p.dev.conf.glb.bypass := by
        simp only [SetStep.Keeps, hen, true_imp_iff]
        rw [if_pos hbad]
      rw [hkeeps, ← kept_bypass_iff hen hq]
      refine ⟨fun h => h.kept rfl, fun hkept => ⟨fun d => ?_, fun _ => hkept⟩⟩
      have hb : q.accepted = b := haccepted'.trans (hstored.trans ((kept_bypass_iff hen hq).mp hkept).symm)
      rw [hb]
      refine encoded_of_written hw ?_
      rw [← hb, haccepted']
      exact henc d

theorem mtuStep_iff {conf : MtuConf} (henc : p.Encodes sb) (haccepted : q.accepted = p.accepted)
    (hn : (SetAct.mtuSet conf).Happens sb phy p q ok) :
    SetStep.Right sb phy ⟨p, .mtuSet conf, ok, q⟩ ↔ SetStep.Keeps sb phy ⟨p, .mtuSet conf, ok, q⟩ := by
  have hat : RegScript.At p.dev.conf p.dev.hw p.dev := ⟨rfl, rfl⟩
  cases ok with
  | true =>
    obtain ⟨⟨hen, hmtu, href⟩, -, hw⟩ := (ends_mtuSet sb conf).ok hat hn
    refine iff_of_true ⟨encodes_of_same henc haccepted fun d => hdrExtCtrl_of_mtu hw, fun hno => Bool.noConfusion hno⟩ ?_
    rintro - (hbad | hbad)
    · exact absurd hbad (BitVec.not_lt.mpr hmtu)
    · exact absurd hbad href
  | false =>
    obtain ⟨e, he⟩ := hn
    rcases (ends_mtuSet sb conf).error hat he with ⟨hen, hconf, hhw⟩ | ⟨hen, hbad, hq, hw⟩
    · refine iff_of_true (right_of_same henc haccepted (congrArg₂ Dev.mk hconf hhw)) fun hen' => ?_
      exact Bool.noConfusion (hen.symm.trans hen')
    · have hkeeps : SetStep.Keeps sb phy ⟨p, .mtuSet conf, false, q⟩ ↔ conf = p.dev.conf.glb.mtuConf :=
        ⟨fun h => h hen hbad, fun h _ _ => h⟩
      rw [hkeeps, ← kept_mtu_iff hen hq]
      exact ⟨fun h => h.kept rfl, fun hkept =>
        ⟨encodes_of_same henc haccepted fun d => hdrExtCtrl_of_mtu hw, fun _ => hkept⟩⟩

theorem secyStep_iff {port : MacsecPort} {conf : SecyConf} (henc : p.Encodes sb) (haccepted : q.accepted = p.accepted)
    (hn : (SetAct.secyConfUpdate port conf).Happens sb phy p q ok) :
    SetStep.Right sb phy ⟨p, .secyConfUpdate port conf, ok, q⟩ ↔
      SetStep.Keeps sb phy ⟨p, .secyConfUpdate port conf, ok, q⟩ := by
  have hat : RegScript.At p.dev.conf p.dev.hw p.dev := ⟨rfl, rfl⟩
  cases ok with
  | true =>
    obtain ⟨hhw, -, hno⟩ := (ends_secyUpdate port conf).ok hat hn
    refine iff_of_true ⟨encodes_of_same henc haccepted fun d => by rw [hhw], fun hno => Bool.noConfusion hno⟩ ?_
    intro i hr hsci
    exact absurd hsci (hno i hr.find)
  | false =>
    obtain ⟨e, he⟩ := hn
    obtain ⟨hhw, hglb, ⟨hconf, hno⟩ | ⟨i, hr, hsci, hsecy⟩⟩ := (ends_secyUpdate port conf).error hat he
    · exact iff_of_true (right_of_same henc haccepted (congrArg₂ Dev.mk hconf hhw)) fun i hr => absurd hr (hno i)
    · have hkeeps : SetStep.Keeps sb phy ⟨p, .secyConfUpdate port conf, false, q⟩ ↔
          conf = (p.dev.conf.secy i).conf ∧ conf.macAddr = (p.dev.conf.secy i).sci.macAddr := by
        refine ⟨fun h => h i hr hsci, fun h j hj _ => ?_⟩
        cases hr.find.symm.trans hj.find
        exact h
      rw [hkeeps, ← kept_secy_iff hr hglb hsecy]
      exact ⟨fun h => h.kept rfl, fun hkept => ⟨encodes_of_same henc haccepted fun d => by rw [hhw], fun _ => hkept⟩⟩

/-- A step is right exactly where its condition holds. -/
theorem setStepRight_iff (henc : p.Encodes sb) (hstored : p.accepted = p.dev.conf.glb.bypass)
    (haccepted : q.accepted = a.acceptedAfter p.accepted ok) (hn : a.Happens sb phy p q ok) :
    SetStep.Right sb phy ⟨p, a, ok, q⟩ ↔ SetStep.Keeps sb phy ⟨p, a, ok, q⟩ := by
  cases a with
  | bypassModeSet b => exact bypassStep_iff henc hstored haccepted hn
  | mtuSet conf => exact mtuStep_iff henc haccepted hn
  | secyConfUpdate port conf => exact secyStep_iff henc haccepted hn

/-- After a step that is right, the stored mode is the one accepted last. -/
theorem stored_step (hstored : p.accepted = p.dev.conf.glb.bypass)
    (haccepted : q.accepted = a.acceptedAfter p.accepted ok) (hn : a.Happens sb phy p q ok)
    (hright : SetStep.Right sb phy ⟨p, a, ok, q⟩) : q.accepted = q.dev.conf.glb.bypass := by
  have hat : RegScript.At p.dev.conf p.dev.hw p.dev := ⟨rfl, rfl⟩
  cases a with
  | bypassModeSet b =>
    cases ok with
    | true =>
      obtain ⟨-, hq, -⟩ := (ends_bypassModeSet sb b).ok hat hn
      rw [haccepted, hq]
      rfl
    | false =>
      obtain ⟨e, he⟩ := hn
      have haccepted' : q.accepted = p.accepted := haccepted
      rcases (ends_bypassModeSet sb b).error hat he with ⟨-, hconf, -⟩ | ⟨hen, -, hq, -⟩
      · rw [haccepted', hconf, hstored]
      · rw [haccepted', hstored, ← (kept_bypass_iff hen hq).mp (hright.kept rfl), hq]
        rfl
  | mtuSet conf =>
    have haccepted' : q.accepted = p.accepted := haccepted
    have hglb : q.dev.conf.glb.bypass = p.dev.conf.glb.bypass := by
      cases ok with
      | true =>
        obtain ⟨-, hq, -⟩ := (ends_mtuSet sb conf).ok hat hn
        rw [hq]
        rfl
      | false =>
        obtain ⟨e, he⟩ := hn
        rcases (ends_mtuSet sb conf).error hat he with ⟨-, hq, -⟩ | ⟨-, -, hq, -⟩
        · rw [hq]
        · rw [hq]
          rfl
    rw [haccepted', hglb, hstored]
  | secyConfUpdate port conf =>
    have haccepted' : q.accepted = p.accepted := haccepted
    have hglb : q.dev.conf.glb = p.dev.conf.glb := by
      cases ok with
      | true => exact ((ends_secyUpdate port conf).ok hat hn).2.1
      | false =>
        obtain ⟨e, he⟩ := hn
        exact ((ends_secyUpdate port conf).error hat he).2.1
    rw [haccepted', hglb, hstored]

/-! ## All steps -/

/-- While the steps are right, the registers and the stored mode are those of the mode accepted last. -/
theorem setRun_encodes (h : SetRun sb phy ts p) (hright : ∀ t ∈ ts, SetStep.Right sb phy t) :
    p.Encodes sb ∧ p.accepted = p.dev.conf.glb.bypass := by
  induction h with
  | start p hstored hregs => exact ⟨hregs, hstored⟩
  | step h haccepted hn ih =>
    rw [List.forall_mem_cons] at hright
    exact ⟨hright.1.encodes, stored_step (ih hright.2).2 haccepted hn hright.1⟩

/-- **The settings of a run are kept and take effect where its steps meet the condition.** -/
theorem settings_atomic_iff (sb : WordBus SetReg 32 H) (phy : Phy) (ts : List (SetStep H)) (p : SetMoment H)
    (h : SetRun sb phy ts p) : (∀ t ∈ ts, SetStep.Right sb phy t) ↔ ∀ t ∈ ts, SetStep.Keeps sb phy t := by
  induction h with
  | start => simp
  | @step ts p q a ok h haccepted hn ih =>
    have hiff (hts : ∀ t ∈ ts, SetStep.Right sb phy t) :
        SetStep.Right sb phy ⟨p, a, ok, q⟩ ↔ SetStep.Keeps sb phy ⟨p, a, ok, q⟩ :=
      setStepRight_iff (setRun_encodes h hts).1 (setRun_encodes h hts).2 haccepted hn
    simp only [List.forall_mem_cons]
    constructor
    · rintro ⟨hright, hts⟩
      exact ⟨(hiff hts).mp hright, ih.mp hts⟩
    · rintro ⟨hkeeps, hts⟩
      have hts' := ih.mpr hts
      exact ⟨(hiff hts').mpr hkeeps, hts'⟩

end Steps

section Bench

/-- An enabled port without any setting, whose registers can all be accessed. -/
def setIdle : SetMoment (SetReg → BitVec 32) := ⟨{}, { glb := { init := { enable := true } } }, fun _ => 0⟩

theorem setRun_idle (phy : Phy) : SetRun (wordStorage SetReg 32) phy [] setIdle := by
  have hoff : (0#32).getLsbD 21 = false ∧ (0#32).getLsbD 22 = false := by decide
  exact .start setIdle rfl fun _ => hoff

theorem not_refused_storage (ps : List (SetReg × BitVec 32)) (h : SetReg → BitVec 32) :
    ¬Refused (wordStorage SetReg 32).toBus ps h := by
  induction ps generalizing h with
  | nil =>
    intro hr
    cases hr
  | cons p ps ih => exact ih _

/-- A mode without a header is accepted on the bench. -/
theorem setRun_bypass {phy : Phy} {ts : List (SetStep (SetReg → BitVec 32))} {p : SetMoment (SetReg → BitVec 32)}
    (h : SetRun (wordStorage SetReg 32) phy ts p) (hen : p.dev.conf.glb.init.enable = true) (b : Bypass)
    (hb : b.mode ≠ .hdr) : ∃ q, SetRun (wordStorage SetReg 32) phy (⟨p, .bypassModeSet b, true, q⟩ :: ts) q ∧
      q.accepted = b ∧ q.dev.conf.glb.init.enable = true := by
  rcases ends_bypassModeSet (wordStorage SetReg 32) b p.dev ⟨rfl, rfl⟩ with
    ⟨u, s, hrun, -, hs, -⟩ | ⟨e, s, -, ⟨hno, -⟩ | ⟨-, hrej | href, -⟩⟩
  · refine ⟨⟨b, s⟩, .step h rfl hrun, rfl, ?_⟩
    rw [hs]
    exact hen
  · exact Bool.noConfusion (hen.symm.trans hno)
  · exact absurd hrej.1 hb
  · exact absurd href (not_refused_storage _ _)

/-- Tags are bypassed. -/
theorem settings_atomic_bench : ∃ t q, SetRun (wordStorage SetReg 32) benchPhy [t] q ∧
    t.act = .bypassModeSet { mode := .tag } ∧ ((∀ t' ∈ [t], SetStep.Right (wordStorage SetReg 32) benchPhy t') ↔
      ∀ t' ∈ [t], SetStep.Keeps (wordStorage SetReg 32) benchPhy t') := by
  obtain ⟨q, hrun, -⟩ := setRun_bypass (setRun_idle benchPhy) rfl { mode := .tag } (by decide)
  exact ⟨_, q, hrun, rfl, settings_atomic_iff (wordStorage SetReg 32) benchPhy _ q hrun⟩

/-- Tags are bypassed and then nothing is to be: the registers go on bypassing tags. -/
theorem not_settings_atomic : ¬∀ (sb : WordBus SetReg 32 (SetReg → BitVec 32)) (phy : Phy)
    (ts : List (SetStep (SetReg → BitVec 32))) (p : SetMoment (SetReg → BitVec 32)),
    SetRun sb phy ts p → ∀ t ∈ ts, SetStep.Right sb phy t := by
  intro h
  obtain ⟨q, hrun, hq, hen⟩ := setRun_bypass (setRun_idle benchPhy) rfl { mode := .tag } (by decide)
  obtain ⟨r, hrun', hr, -⟩ := setRun_bypass hrun hen { mode := .none } (by decide)
  have hbefore := setRun_encodes hrun (h _ benchPhy _ q hrun)
  cases hrun' with
  | step _ haccepted hn =>
    have hright := h _ benchPhy _ r (.step hrun haccepted hn) _ List.mem_cons_self
    have hkeeps := (setStepRight_iff hbefore.1 hbefore.2 haccepted hn).mp hright hen
    rw [if_neg (not_or.mpr ⟨by decide, not_refused_storage _ _⟩), hq] at hkeeps
    exact absurd (hkeeps rfl) (by decide)

end Bench

end Lan80xx.VtssMacsec
