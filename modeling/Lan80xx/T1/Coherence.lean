import Lan80xx.T1.Port

/-!
# T1 PHYs: registers and the reported configuration

An initialisation programs speed, advertisement, master or slave, the MAC interface and the MAC's auto-negotiation from
the data of the port. The data and these registers are coherent if a further one would change nothing.

- `coherent_work`: all that starts the PHY again makes them coherent;
- `ConfInv.call`: a call that fits keeps them so while the port is enabled;
- `coherent_calls`: calls of runs of fitting calls.
-/

namespace Lan80xx.T1

open Fallible RegBus RegScript
/-! ## The LAN887x -/

namespace Lan887x

variable {d d' : PhyData Tc10.Data} {m : Bits Reg 16} {q : Reg} {typ : ResetTyp}

/-- The part of a reset that programs the link. -/
def linkPart (d : PhyData Tc10.Data) : List Acc := softResetAccesses ++ initAccesses d

theorem applyAll_mac (hq : q ∈ macRegs) :
    applyAll live (resetAccesses typ d) m q = if typ = .soft then m q else applyAll live (macAccesses d) m q := by
  have hsoft : ∀ q ∈ writesOf (softResetAccesses ++ [isolateAccess false]), q ∉ macRegs := by decide
  have hinit : ∀ q ∈ initRegs, q ∉ macRegs := by decide
  have htable : ∀ q ∈ writesOf (tableAccesses d), q ∉ macRegs := by
    unfold tableAccesses
    split_ifs <;> decide
  have htc10 : ∀ q ∈ writesOf tc10Accesses, q ∉ macRegs := by decide
  have hclr : ∀ q ∈ [(.mmd .vend1 0x0A03 : Reg), .mmd .vend1 0xF001, bmcr], q ∉ macRegs := by decide
  rw [resetAccesses, List.append_cons, applyAll_append_right fun h => hsoft q h hq,
    applyAll_append_left fun h => hinit q (writesOf_initAccesses d q h) hq]
  cases typ with
  | soft => exact congrFun applyAll_nil q
  | softMac => rfl
  | softExt =>
    refine (applyAll_append_right fun h => htable q h hq).trans ((applyAll_append_right fun h => htc10 q h hq).trans ?_)
    exact applyAll_append_left fun h => hclr q h hq

theorem applyAll_link (hq : q ∈ linkRegs) : applyAll live (resetAccesses typ d) m q = applyAll live (linkPart d) m q := by
  have hmac : ∀ q ∈ macRegs, q ∉ linkRegs := by decide
  have hsetup : ∀ q ∈ setupRegs, q ∉ linkRegs := by decide
  have hbmcr : bmcr ∉ linkRegs := by decide
  have hextra : q ∉ writesOf (isolateAccess false :: extraAccesses typ d) := by
    intro h
    rcases List.mem_cons.mp (show q ∈ bmcr :: writesOf (extraAccesses typ d) from h) with rfl | h
    · exact hbmcr hq
    · cases typ with
      | soft => cases h
      | softMac => exact hmac q (writesOf_macAccesses d q h) hq
      | softExt => exact (writesOf_setupAccesses d q h).elim (fun h => hmac q h hq) fun h => hsetup q h hq
  exact applyAll_append_middle hextra

/-- The data that the MAC's registers are programmed from. -/
theorem macAccesses_congr (hmac : d'.macIf = d.macIf) (hdev : d'.dev = d.dev)
    (haneg : d.macIf = .sgmii → d'.conf.macIfAnegEna = d.conf.macIfAnegEna) : macAccesses d' = macAccesses d := by
  unfold macAccesses
  rw [hmac, hdev]
  cases h : d.macIf with
  | sgmii => rw [haneg h]
  | _ => rfl

/-- Those that the link's registers are programmed from. -/
theorem linkPart_congr (hadmin : d'.conf.adminEnable = d.conf.adminEnable) (hspeed : d'.conf.speed = d.conf.speed)
    (hneg : d'.conf.manNeg = d.conf.manNeg) (his1g : is1g d'.conf d'.mediaIntf = is1g d.conf d.mediaIntf) :
    linkPart d' = linkPart d := by
  unfold linkPart initAccesses modeAccesses linkAccesses scripts1000m scripts100m anegAccesses advR2 forcedWord
  rw [hadmin, hspeed, hneg, his1g]

end Lan887x

/-! ## The LAN8x8x -/

section Lan8x8x

variable {d d' : PhyData Lan8x8x.Own} {m : Bits Reg 16} {q : Reg}

open Lan8x8x in
/-- The part of the set-up that programs MAC and link. -/
def lan8x8xPart (d : PhyData Lan8x8x.Own) : List Acc :=
  resetAccesses ++ (macAccesses d ++ (modeAccesses d ++ doneAccesses))

open Lan8x8x in
theorem lan8x8x_applyAll_part (hq : q ∈ macRegs ++ modeRegs) :
    applyAll live (setupAccesses d) m q = applyAll live (lan8x8xPart d) m q := by
  have hpcs : ∀ q ∈ writesOf (pcsAccesses d.own.drvId), q ∉ macRegs ++ modeRegs := by
    have hboth : ∀ q ∈ [(.mmd .pcs 0x8300 : Reg), .mmd .pcs 0x8301], q ∉ macRegs ++ modeRegs := by decide +kernel
    unfold pcsAccesses
    split_ifs
    · exact hboth
    · exact fun q hq => hboth q (by simpa [writesOf, phyMmdRegWr32, phyMmdRegWr, Access.writes, or_comm] using hq)
  have hfirst : ∀ q ∈ [bmcr, bmcr, .mmd .pcs 0x0000, .mmd .pcs 0x0001, .mmd .vend1 0xF0E4, .mmd .pmapmd 0x8503,
      .mmd .pmapmd 0x8502, .mmd .vend1 0xF0E5], q ∉ macRegs ++ modeRegs := by decide +kernel
  have hsplit : restartAccesses d = (phyRegSetBits bmcr 0x8000 :: phyMmdRegRd .vend1 0x0C22 :: phyRegClearBits bmcr (bit 10) ::
      lpbkAccess d.conf.speed none :: intAccesses (intMasks (eventsAfter d.events d.events true) d.events)) ++
      resetAccesses := rfl
  rw [setupAccesses, hsplit, List.append_assoc, applyAll_append_right fun h => hfirst q h hq,
    applyAll_append_middle fun h => hpcs q h hq]
  rfl

open Lan8x8x in
/-- The data that MAC and link are programmed from. -/
theorem lan8x8xPart_congr (hmac : d'.macIf = d.macIf) (hspeed : d'.conf.speed = d.conf.speed)
    (hneg : d'.conf.manNeg = d.conf.manNeg) (haneg : d.macIf = .sgmii → d'.conf.macIfAnegEna = d.conf.macIfAnegEna)
    (h1g : d.conf.speed = .auto → d.macIf = .sgmii → d'.conf.aneg1gFdx = d.conf.aneg1gFdx)
    (hadv : d.conf.speed = .auto → ((d'.mediaIntf ≠ .t1_100fx ∧ d'.conf.aneg1gFdx = true) ↔
      (d.mediaIntf ≠ .t1_100fx ∧ d.conf.aneg1gFdx = true)))
    (hforced : d.conf.speed = .g1 → (d'.mediaIntf ≠ .t1_100fx ↔ d.mediaIntf ≠ .t1_100fx)) :
    lan8x8xPart d' = lan8x8xPart d := by
  have hmode : macModeAccesses d'.macIf d'.conf = macModeAccesses d.macIf d.conf := by
    unfold macModeAccesses
    rw [hmac, hspeed]
    by_cases h : d.macIf = .sgmii ∧ d.conf.speed = .auto
    · rw [h1g h.2 h.1]
    · have hiff : ∀ x : Bool, (d.macIf = .sgmii ∧ ((d.conf.speed = .auto ∧ x = true) ∨ d.conf.speed = .g1)) ↔
          (d.macIf = .sgmii ∧ d.conf.speed = .g1) := by
        intro x
        constructor
        · rintro ⟨hs, ⟨ha, -⟩ | hg⟩
          · exact absurd ⟨hs, ha⟩ h
          · exact ⟨hs, hg⟩
        · exact fun hg => ⟨hg.1, Or.inr hg.2⟩
      simp only [hiff]
  have hmacs : macAccesses d' = macAccesses d := by
    unfold macAccesses
    rw [hmode, hmac]
    cases h : d.macIf with
    | sgmii => rw [haneg h]
    | _ => rfl
  have hlink : modeAccesses d' = modeAccesses d := by
    unfold modeAccesses
    rw [hspeed]
    by_cases hauto : d.conf.speed = .auto
    · rw [if_pos hauto, if_pos hauto, anegAccesses, anegAccesses, advR2, advR2, hneg]
      simp only [hadv hauto]
    · have hword : forcedWord d'.conf d'.mediaIntf = forcedWord d.conf d.mediaIntf := by
        unfold forcedWord
        rw [hneg, hspeed]
        by_cases hg : d.conf.speed = .g1
        · simp only [hforced hg]
        · simp only [hg, and_false]
      rw [if_neg hauto, if_neg hauto, hword]
  rw [lan8x8xPart, lan8x8xPart, hmacs, hlink]

end Lan8x8x

/-! ## Coherence -/

/-- The registers of speed, advertisement, master or slave, MAC interface and the MAC's auto-negotiation. -/
def Chip.confRegs : Chip → List Reg
  | lan887x => Lan887x.macRegs ++ Lan887x.linkRegs
  | lan8x8x => Lan8x8x.macRegs ++ Lan8x8x.modeRegs

/-- **Coherence.** An initialisation with the data of the port would change none of these registers. -/
def Coherent (chip : Chip) (d : PhyData chip.Own) (m : Bits Reg 16) : Prop :=
  Settled live chip.confRegs (chip.workAccesses .resetInit d) m

/-- Some resets of the LAN887x do not program the MAC; they rely on what was programmed before. -/
def MacKept : (chip : Chip) → PhyData chip.Own → Bits Reg 16 → Prop
  | .lan887x, d, m => Settled live Lan887x.macRegs (Lan887x.macAccesses d) m
  | .lan8x8x, _, _ => True

/-- What starts the PHY again. -/
def Work.starts : Work → Bool
  | enable _ => true
  | mediaReset => true
  | ifReset => true
  | resetInit => true
  | _ => false

/-- What programs the MAC. -/
def Work.programsMac : Work → Bool
  | enable macAneg => macAneg
  | ifReset => true
  | resetInit => true
  | _ => false

section Coherent

variable {chip : Chip} {m m' : Bits Reg 16} {w : Work}

theorem lan887x_coherent {d : PhyData Tc10.Data} : Coherent .lan887x d m ↔
    Settled live Lan887x.macRegs (Lan887x.macAccesses d) m ∧ Settled live Lan887x.linkRegs (Lan887x.linkPart d) m := by
  refine settled_append.trans (and_congr ⟨fun h => ?_, fun h => ?_⟩ ⟨fun h => ?_, fun h => ?_⟩)
  · exact h.of_eq fun q hq m => (@Lan887x.applyAll_mac d m q .softExt hq).symm
  · exact h.of_eq fun q hq m => @Lan887x.applyAll_mac d m q .softExt hq
  · exact h.of_eq fun q hq m => (@Lan887x.applyAll_link d m q .softExt hq).symm
  · exact h.of_eq fun q hq m => @Lan887x.applyAll_link d m q .softExt hq

theorem lan8x8x_coherent {d : PhyData Lan8x8x.Own} :
    Coherent .lan8x8x d m ↔ Settled live (Lan8x8x.macRegs ++ Lan8x8x.modeRegs) (lan8x8xPart d) m :=
  ⟨fun h => h.of_eq fun _ hq _ => (lan8x8x_applyAll_part hq).symm, fun h => h.of_eq fun _ hq _ => lan8x8x_applyAll_part hq⟩

theorem Coherent.congr {d : PhyData chip.Own} (h : Coherent chip d m) (hm : ∀ q ∈ chip.confRegs, m' q = m q) :
    Coherent chip d m' := Settled.congr h hm

/-- What a call makes of the data besides storing its arguments does not count. -/
theorem coherent_workData {d : PhyData chip.Own} : Coherent chip (chip.workData w d) m ↔ Coherent chip d m := by
  cases chip with
  | lan887x =>
    rw [lan887x_coherent, lan887x_coherent]
    cases w <;> exact Iff.rfl
  | lan8x8x =>
    rw [lan8x8x_coherent, lan8x8x_coherent]
    cases w <;> exact Iff.rfl

/-- All that starts the PHY again makes data and registers coherent. -/
theorem coherent_work {d : PhyData chip.Own} (hw : w.starts = true) (hmac : w.programsMac = true ∨ MacKept chip d m) :
    Coherent chip (chip.workData w d) (applyAll live (chip.workAccesses w d) m) := by
  rw [coherent_workData]
  cases chip with
  | lan887x =>
    have hreset : ∀ typ, (typ ≠ .soft ∨ MacKept .lan887x d m) →
        Coherent .lan887x d (applyAll live (Lan887x.resetAccesses typ d) m) := by
      intro typ htyp
      refine lan887x_coherent.mpr ⟨?_, ?_⟩
      · by_cases hsoft : typ = .soft
        · refine (htyp.resolve_left fun h => h hsoft : MacKept .lan887x d m).congr fun q hq => ?_
          rw [Lan887x.applyAll_mac hq, if_pos hsoft]
        · refine (settled_applyAll live _ _ m).congr fun q hq => ?_
          rw [Lan887x.applyAll_mac hq, if_neg hsoft]
      · exact (settled_applyAll live _ _ m).congr fun q hq => Lan887x.applyAll_link hq
    cases w with
    | nothing | powerDown | setupLpbk => cases hw
    | enable macAneg =>
      cases macAneg with
      | true => exact hreset .softMac (Or.inl nofun)
      | false => exact hreset .soft (Or.inr (hmac.resolve_left nofun))
    | mediaReset => exact hreset .soft (Or.inr (hmac.resolve_left nofun))
    | ifReset => exact hreset .softMac (Or.inl nofun)
    | resetInit => exact hreset .softExt (Or.inl nofun)
  | lan8x8x =>
    cases w with
    | nothing | powerDown | setupLpbk => cases hw
    | enable =>
      rw [Chip.workAccesses, applyAll_cons]
      exact settled_applyAll live _ _ _
    | mediaReset | ifReset | resetInit => exact settled_applyAll live _ _ _

/-- What leaves the PHY as it is. -/
theorem coherent_quiet {d : PhyData chip.Own} (h : Coherent chip d m) (hw : w.starts = false) (hoff : w ≠ .powerDown) :
    Coherent chip (chip.workData w d) (applyAll live (chip.workAccesses w d) m) := by
  rw [coherent_workData]
  refine h.congr fun q hq => applyAll_frame fun hmem => ?_
  cases w with
  | nothing => cases hmem
  | powerDown => exact hoff rfl
  | enable | mediaReset | ifReset | resetInit => cases hw
  | setupLpbk loopback =>
    cases chip with
    | lan887x =>
      exact (by decide : ∀ q ∈ Lan887x.lpbkRegs, q ∉ Chip.lan887x.confRegs) q (Lan887x.writesOf_lpbkAccesses loopback q hmem) hq
    | lan8x8x =>
      have hmem : q ∈ (Lan8x8x.lpbkAccess d.conf.speed loopback).writes := by
        simpa [Chip.workAccesses, writesOf] using hmem
      exact (by decide +kernel : ∀ q ∈ Lan8x8x.lpbkRegs, q ∉ Chip.lan8x8x.confRegs) q
        (Lan8x8x.writes_lpbkAccess _ loopback q hmem) hq

theorem macKept_work {d : PhyData chip.Own} (hmac : w.programsMac = true ∨ MacKept chip d m) :
    MacKept chip (chip.workData w d) (applyAll live (chip.workAccesses w d) m) := by
  cases chip with
  | lan8x8x => trivial
  | lan887x =>
    have hdata : MacKept .lan887x (Chip.lan887x.workData w d) (applyAll live (Chip.lan887x.workAccesses w d) m) ↔
        MacKept .lan887x d (applyAll live (Chip.lan887x.workAccesses w d) m) := by cases w <;> exact Iff.rfl
    rw [hdata]
    by_cases hw : w.starts = true
    · have hcoh := coherent_work hw hmac
      rw [coherent_workData] at hcoh
      exact (lan887x_coherent.mp hcoh).1
    · have hkept : MacKept .lan887x d m := hmac.resolve_left (by cases w <;> simp_all [Work.starts, Work.programsMac])
      refine hkept.congr fun q hq => applyAll_frame fun hmem => ?_
      cases w with
      | nothing => cases hmem
      | powerDown => exact (by decide : ∀ q ∈ [bmcr], q ∉ Lan887x.macRegs) q hmem hq
      | enable | mediaReset | ifReset | resetInit => exact hw rfl
      | setupLpbk loopback =>
        exact (by decide : ∀ q ∈ Lan887x.lpbkRegs, q ∉ Lan887x.macRegs) q (Lan887x.writesOf_lpbkAccesses loopback q hmem) hq

end Coherent

/-! ## Calls that fit -/

/-- The advertised speed, and on the LAN8x8x the MAC's auto-negotiation, are as before, as far as they count. -/
def AnegKept : (chip : Chip) → PhyData chip.Own → Conf → Prop
  | .lan887x, d, config => config.speed = .auto → d.mediaIntf ≠ .t1_100fx → config.aneg1gFdx = d.conf.aneg1gFdx
  | .lan8x8x, d, config =>
    (config.speed = .auto → d.mediaIntf ≠ .t1_100fx ∨ d.macIf = .sgmii → config.aneg1gFdx = d.conf.aneg1gFdx) ∧
      (d.macIf = .sgmii → config.macIfAnegEna = d.conf.macIfAnegEna)

/-- A configuration whose speed is refused holds the settings that are stored before the check already; one that does not
start the enabled PHY again changes no setting that it had to; and the LAN887x, disabled, is not asked for another
setting of the MAC's auto-negotiation. -/
structure ConfigFits {H : Type} (chip : Chip) (D : Driver chip.Own H) (d : PhyData chip.Own) (config : Conf) : Prop where
  refused : config.Valid → D.refuses d config ≠ none → d.conf.early config = d.conf
  unapplied : config.adminEnable = true → reConfig D.appliesMacAneg d.conf config = false → AnegKept chip d config
  disabled : chip = .lan887x → config.adminEnable = false → d.macIf = .sgmii →
    config.macIfAnegEna = d.conf.macIfAnegEna

theorem reConfig_false {appliesMacAneg : Bool} {old config : Conf} (h : reConfig appliesMacAneg old config = false) :
    (appliesMacAneg = true → config.macIfAnegEna = old.macIfAnegEna) ∧ config.speed = old.speed ∧
      config.manNeg = old.manNeg ∧ config.adminEnable = old.adminEnable := by
  simp only [reConfig, Bool.or_eq_false_iff, Bool.and_eq_false_iff, bne_eq_false_iff_eq] at h
  obtain ⟨⟨⟨haneg, hspeed⟩, hneg⟩, hadmin⟩ := h
  exact ⟨fun ha => (haneg.resolve_left (by simp [ha])).symm, hspeed.symm, hneg.symm, hadmin.symm⟩

section Plan

variable {chip : Chip} {H : Type} {bus : Bus Reg 16 H} {polls : Nat} {d₀ d : PhyData chip.Own} {m : Bits Reg 16}
  {op : Op} {w : Work} {config : Conf}

theorem MacKept.setConf (h : MacKept chip d₀ m)
    (haneg : chip = .lan887x → d₀.macIf = .sgmii → config.macIfAnegEna = d₀.conf.macIfAnegEna) :
    MacKept chip (d₀.setConf config) m := by
  cases chip with
  | lan8x8x => trivial
  | lan887x =>
    have hacc : Lan887x.macAccesses (d₀.setConf config) = Lan887x.macAccesses d₀ :=
      Lan887x.macAccesses_congr rfl rfl (haneg rfl)
    have hsettled : Settled live Lan887x.macRegs (Lan887x.macAccesses d₀) m := h
    rw [← hacc] at hsettled
    exact hsettled

/-- A call that does not program the MAC leaves the data that it is programmed from alone. -/
theorem mac_plan (h : MacKept chip d₀ m) (hfits : ∀ config, op = .conf config → ConfigFits chip (chip.driver bus polls) d₀ config)
    (hplan : (chip.driver bus polls).plan d₀ op = .ok (d, w)) : w.programsMac = true ∨ MacKept chip d m := by
  cases op with
  | conf config =>
    obtain ⟨-, -, rfl, rfl⟩ := Driver.plan_conf_ok hplan
    by_cases hadmin : config.adminEnable = true
    · by_cases haneg : d₀.conf.macIfAnegEna = config.macIfAnegEna
      · exact Or.inr (h.setConf fun _ _ => haneg.symm)
      · cases chip with
        | lan8x8x => exact Or.inr trivial
        | lan887x =>
          have hre : reConfig (Chip.lan887x.driver bus polls).appliesMacAneg d₀.conf config = true := by
            by_contra hno
            exact haneg ((reConfig_false (Bool.eq_false_iff.mpr hno)).1 rfl).symm
          rw [if_pos hre, if_pos hadmin]
          exact Or.inl (by simpa [Work.programsMac] using haneg)
    · exact Or.inr (h.setConf fun hchip => (hfits config rfl).disabled hchip (by simpa using hadmin))
  | media mediaIf =>
    rcases Driver.plan_media_ok hplan with ⟨rfl, -⟩ | ⟨rfl, -⟩
    · exact Or.inr h
    · cases chip <;> exact Or.inr h
  | iface macIf =>
    rcases Driver.plan_iface_ok hplan with ⟨rfl, -⟩ | ⟨-, -, rfl⟩
    · exact Or.inr h
    · exact Or.inl rfl
  | reset param =>
    rcases Driver.plan_reset_ok hplan with ⟨rfl, -⟩ | ⟨rfl, -⟩
    · exact Or.inr h
    · exact Or.inl rfl
  | loopback =>
    cases hplan
    exact Or.inr h

theorem Coherent.setConf (h : Coherent chip d₀ m) (hkept : AnegKept chip d₀ config)
    (hre : reConfig (chip.driver bus polls).appliesMacAneg d₀.conf config = false) : Coherent chip (d₀.setConf config) m := by
  obtain ⟨haneg, hspeed, hneg, hen⟩ := reConfig_false hre
  cases chip with
  | lan887x =>
    obtain ⟨hmac, hlink⟩ := lan887x_coherent.mp h
    have hacc : Lan887x.macAccesses (d₀.setConf config) = Lan887x.macAccesses d₀ :=
      Lan887x.macAccesses_congr rfl rfl fun _ => haneg rfl
    have his1g : Lan887x.is1g config d₀.mediaIntf = Lan887x.is1g d₀.conf d₀.mediaIntf := by
      unfold Lan887x.is1g
      rw [hspeed]
      by_cases hauto : d₀.conf.speed = .auto
      · rw [if_pos hauto, if_pos hauto]
        by_cases hmedia : d₀.mediaIntf = .t1_100fx
        · simp [hmedia]
        · rw [hkept (hspeed.trans hauto) hmedia]
      · rw [if_neg hauto, if_neg hauto]
    have hpart : Lan887x.linkPart (d₀.setConf config) = Lan887x.linkPart d₀ :=
      Lan887x.linkPart_congr hen hspeed hneg his1g
    rw [lan887x_coherent, hacc, hpart]
    exact ⟨hmac, hlink⟩
  | lan8x8x =>
    have hpart : lan8x8xPart (d₀.setConf config) = lan8x8xPart d₀ := by
      refine lan8x8xPart_congr rfl hspeed hneg hkept.2 (fun hauto hs => hkept.1 (hspeed.trans hauto) (Or.inr hs)) ?_
        fun _ => Iff.rfl
      intro hauto
      refine and_congr_right fun hmedia => ?_
      have h1g : config.aneg1gFdx = d₀.conf.aneg1gFdx := hkept.1 (hspeed.trans hauto) (Or.inl hmedia)
      rw [← h1g]
      rfl
    rw [lan8x8x_coherent] at h ⊢
    rwa [hpart]

/-- At 100 Mbit/s the medium does not count. -/
theorem Coherent.setMediaIntf (h : Coherent chip d₀ m) (mediaIf : MediaInterface) (hspeed : d₀.conf.speed = .m100) :
    Coherent chip (d₀.setMediaIntf mediaIf) m := by
  have hauto : d₀.conf.speed ≠ .auto := by simp [hspeed]
  have hg1 : d₀.conf.speed ≠ .g1 := by simp [hspeed]
  cases chip with
  | lan887x =>
    have his1g : ∀ mediaIf, Lan887x.is1g d₀.conf mediaIf = false := fun mediaIf => by simp [Lan887x.is1g, hspeed]
    have hpart : Lan887x.linkPart (d₀.setMediaIntf mediaIf) = Lan887x.linkPart d₀ :=
      Lan887x.linkPart_congr rfl rfl rfl ((his1g _).trans (his1g _).symm)
    have hacc : Lan887x.macAccesses (d₀.setMediaIntf mediaIf) = Lan887x.macAccesses d₀ := rfl
    rw [lan887x_coherent] at h ⊢
    rwa [hpart, hacc]
  | lan8x8x =>
    have hpart : lan8x8xPart (d₀.setMediaIntf mediaIf) = lan8x8xPart d₀ :=
      lan8x8xPart_congr rfl rfl rfl (fun _ => rfl) (fun _ _ => rfl) (fun ha => absurd ha hauto) fun hg => absurd hg hg1
    rw [lan8x8x_coherent] at h ⊢
    rwa [hpart]

/-- A call that does not start the enabled PHY again stores nothing that counts. -/
theorem coherent_plan (hfits : ∀ config, op = .conf config → ConfigFits chip (chip.driver bus polls) d₀ config)
    (hplan : (chip.driver bus polls).plan d₀ op = .ok (d, w)) (hw : w.starts = false) (hadmin : d.conf.adminEnable = true) :
    d₀.conf.adminEnable = true ∧ w ≠ .powerDown ∧ (Coherent chip d₀ m → Coherent chip d m) := by
  cases op with
  | conf config =>
    obtain ⟨-, -, rfl, rfl⟩ := Driver.plan_conf_ok hplan
    have hen : config.adminEnable = true := hadmin
    cases hre : reConfig (chip.driver bus polls).appliesMacAneg d₀.conf config with
    | true =>
      rw [hre, if_pos rfl, if_pos hen] at hw
      cases hw
    | false =>
      exact ⟨(reConfig_false hre).2.2.2.symm.trans hen, by simp,
        fun h => h.setConf ((hfits config rfl).unapplied hen hre) hre⟩
  | media mediaIf =>
    rcases Driver.plan_media_ok hplan with ⟨rfl, rfl⟩ | ⟨rfl, rfl⟩
    · exact ⟨hadmin, nofun, id⟩
    · by_cases hspeed : d₀.conf.speed = .m100
      · exact ⟨hadmin, by simp [hspeed], fun h => h.setMediaIntf mediaIf hspeed⟩
      · rw [if_neg hspeed] at hw
        cases hw
  | iface macIf =>
    rcases Driver.plan_iface_ok hplan with ⟨rfl, rfl⟩ | ⟨-, -, rfl⟩
    · exact ⟨hadmin, nofun, id⟩
    · cases hw
  | reset param =>
    rcases Driver.plan_reset_ok hplan with ⟨rfl, rfl⟩ | ⟨rfl, -⟩
    · exact ⟨hadmin, nofun, id⟩
    · cases hw
  | loopback =>
    cases hplan
    exact ⟨hadmin, nofun, id⟩

end Plan

/-! ## Runs -/

/-- A call of `s`: if it returns OK on an enabled port, data and registers are coherent; if it does not return OK, both are
as before. -/
def CallGood {H : Type} (chip : Chip) (rf : PhyBus H) (polls : Nat) (s : Dev (PhyData chip.Own) H) (op : Op) : Prop :=
  (errorOf ((chip.driver rf.toBus polls).call op) s = none →
    (final ((chip.driver rf.toBus polls).call op) s).conf.conf.adminEnable = true →
      Coherent chip (final ((chip.driver rf.toBus polls).call op) s).conf
        (rf.view (final ((chip.driver rf.toBus polls).call op) s).hw)) ∧
  (errorOf ((chip.driver rf.toBus polls).call op) s ≠ none →
    (final ((chip.driver rf.toBus polls).call op) s).conf = s.conf ∧
      rf.view (final ((chip.driver rf.toBus polls).call op) s).hw = rf.view s.hw)

/-- The call starts the PHY again. -/
def Driver.starts {X H : Type} (D : Driver X H) (d : PhyData X) (op : Op) : Bool :=
  match D.plan d op with
  | .ok (_, w) => w.starts
  | .error _ => false

/-- A call, whatever it returns, or an update by the PHY itself; and has the link been started? `P` restricts the calls. -/
inductive ConfStep {H : Type} (chip : Chip) (rf : PhyBus H) (polls : Nat)
    (P : Dev (PhyData chip.Own) H × Bool → Op → Prop) : Dev (PhyData chip.Own) H × Bool → Dev (PhyData chip.Own) H × Bool → Prop
  | call {s : Dev (PhyData chip.Own) H} {started : Bool} (op : Op) : P (s, started) op →
      ConfStep chip rf polls P (s, started)
        (final ((chip.driver rf.toBus polls).call op) s, started || (chip.driver rf.toBus polls).starts s.conf op)
  | drift {s : Dev (PhyData chip.Own) H} {started : Bool} {h : H} : rf.drift s.hw h →
      ConfStep chip rf polls P (s, started) ({ s with hw := h }, started)

abbrev ConfRun {H : Type} (chip : Chip) (rf : PhyBus H) (polls : Nat) (P : Dev (PhyData chip.Own) H × Bool → Op → Prop) :
    Dev (PhyData chip.Own) H × Bool → Dev (PhyData chip.Own) H × Bool → Prop :=
  Relation.ReflTransGen (ConfStep chip rf polls P)

/-- No access of the call fails, its configuration fits, and if it does not start the enabled PHY itself, then an earlier
one has done so. -/
def ConfFits {H : Type} (chip : Chip) (rf : PhyBus H) (polls : Nat) (x : Dev (PhyData chip.Own) H × Bool) (op : Op) : Prop :=
  rf.Sound x.1.hw ∧ (∀ config, op = .conf config → ConfigFits chip (chip.driver rf.toBus polls) x.1.conf config) ∧
    (∀ d w, (chip.driver rf.toBus polls).plan x.1.conf op = .ok (d, w) → w.starts = false → d.conf.adminEnable = true →
      x.2 = true)

/-- The data of a port are such as its calls leave them, what the LAN887x relies on is programmed, and once the link of an
enabled port has been started, data and registers are coherent. -/
structure ConfInv {H : Type} (chip : Chip) (rf : PhyBus H) (x : Dev (PhyData chip.Own) H × Bool) : Prop where
  ready : Ready chip (rf.view x.1.hw) x.1.conf
  mac : MacKept chip x.1.conf (rf.view x.1.hw)
  coherent : x.2 = true → x.1.conf.conf.adminEnable = true → Coherent chip x.1.conf (rf.view x.1.hw)

section Runs

variable {chip : Chip} {H : Type} {rf : PhyBus H} {polls : Nat} {x y : Dev (PhyData chip.Own) H × Bool} {op : Op}
  {s : Dev (PhyData chip.Own) H} {started : Bool}

theorem tracks_confRegs (chip : Chip) : chip.Tracks (chip.confRegs ++ [physid1, physid2]) := by
  cases chip with
  | lan887x => constructor <;> decide
  | lan8x8x => constructor <;> decide +kernel

theorem MacKept.congr {d : PhyData chip.Own} {m m' : Bits Reg 16} (h : MacKept chip d m)
    (hm : ∀ q ∈ chip.confRegs, m' q = m q) : MacKept chip d m' := by
  cases chip with
  | lan8x8x => trivial
  | lan887x => exact Settled.congr h fun q hq => hm q (List.mem_append_left _ hq)

theorem workData_conf {d : PhyData chip.Own} {w : Work} : (chip.workData w d).conf = d.conf := by
  cases chip <;> cases w <;> rfl

/-- A call that fits is good, and leaves the port as it found it. -/
theorem ConfInv.call (h : ConfInv chip rf (s, started)) (hfits : ConfFits chip rf polls (s, started) op) :
    CallGood chip rf polls s op ∧ ConfInv chip rf
      (final ((chip.driver rf.toBus polls).call op) s, started || (chip.driver rf.toBus polls).starts s.conf op) := by
  obtain ⟨hready, hmac, hcoh⟩ := h
  obtain ⟨hs, hconf, hstarted⟩ := hfits
  have hnext := @Ready.call _ _ _ polls s op hready hs
  cases hplan : (chip.driver rf.toBus polls).plan s.conf op with
  | error e =>
    obtain ⟨rc, d⟩ := e
    obtain ⟨herr, hfinal⟩ := call_refused hplan
    have hd : d = s.conf := by
      rcases Driver.plan_error hplan with hd | ⟨config, rfl, hvalid, href, hd⟩
      · exact hd
      · rw [hd, (hconf config rfl).refused hvalid href]
        rfl
    subst hd
    have hsame : (chip.driver rf.toBus polls).starts s.conf op = false := by rw [Driver.starts, hplan]
    rw [hsame, Bool.or_false]
    unfold CallGood
    rw [herr, hfinal]
    exact ⟨⟨nofun, fun _ => ⟨rfl, rfl⟩⟩, hready, hmac, hcoh⟩
  | ok a =>
    obtain ⟨d, w⟩ := a
    obtain ⟨hok, hsee⟩ := call_done hs (tracks_confRegs chip) hready hplan
    obtain ⟨hdata, hview⟩ := hsee.view
    have hstart : (chip.driver rf.toBus polls).starts s.conf op = w.starts := by rw [Driver.starts, hplan]
    have hregs : ∀ q ∈ chip.confRegs, rf.view (final ((chip.driver rf.toBus polls).call op) s).hw q =
        applyAll live (chip.workAccesses w d) (rf.view s.hw) q := fun q hq => hview q (List.mem_append_left _ hq)
    have hmac' := mac_plan hmac hconf hplan
    -- the PHY is started, or it was and nothing that counts is stored
    have hgood : started = true ∨ w.starts = true → d.conf.adminEnable = true →
        Coherent chip (chip.workData w d) (rf.view (final ((chip.driver rf.toBus polls).call op) s).hw) := by
      intro hor hadmin
      refine Coherent.congr ?_ hregs
      cases hw : w.starts with
      | true => exact coherent_work hw hmac'
      | false =>
        obtain ⟨hadmin₀, hoff, hkeep⟩ := coherent_plan (m := rf.view s.hw) hconf hplan hw hadmin
        exact coherent_quiet (hkeep (hcoh (hor.resolve_right (by simp [hw])) hadmin₀)) hw hoff
    refine ⟨⟨fun _ hadmin => ?_, fun hne => absurd hok hne⟩, hnext, ?_, fun hor hadmin => ?_⟩
    · rw [hdata, workData_conf] at hadmin
      rw [hdata]
      refine hgood ?_ hadmin
      cases hw : w.starts with
      | true => exact Or.inr rfl
      | false => exact Or.inl (hstarted d w hplan hw hadmin)
    · rw [hdata]
      exact (macKept_work hmac').congr hregs
    · rw [hdata, workData_conf] at hadmin
      rw [hdata]
      rw [hstart, Bool.or_eq_true] at hor
      exact hgood hor hadmin

theorem ConfStep.inv (hstep : ConfStep chip rf polls (ConfFits chip rf polls) x y) (h : ConfInv chip rf x) :
    ConfInv chip rf y := by
  cases hstep with
  | call op hfits => exact (h.call hfits).2
  | drift hd =>
    have hview := rf.view_drift _ _ hd
    exact ⟨by rw [hview]; exact h.ready, by rw [hview]; exact h.mac, by rw [hview]; exact h.coherent⟩

/-- **Coherence.** In every run of calls that fit, a call that fits and returns OK on an enabled port leaves its registers
as an initialisation with the reported configuration would; one that is refused changes nothing. -/
theorem coherent_calls (chip : Chip) (rf : PhyBus H) (polls : Nat) {x y : Dev (PhyData chip.Own) H × Bool} {op : Op}
    (hstart : ConfInv chip rf x) (hrun : ConfRun chip rf polls (ConfFits chip rf polls) x y)
    (hfits : ConfFits chip rf polls y op) : CallGood chip rf polls y.1 op := by
  suffices h : ConfInv chip rf y from (h.call hfits).1
  clear hfits
  induction hrun with
  | refl => exact hstart
  | tail _ hstep ih => exact hstep.inv ih

end Runs

/-! ### An advertised speed that changes alone -/

abbrev benchCall (chip : Chip) (op : Op) (s : Dev (PhyData chip.Own) (Reg → BitVec 16)) :
    Dev (PhyData chip.Own) (Reg → BitVec 16) := final ((chip.driver bench.toBus 1).call op) s

theorem coherent_calls_reset : CallGood .lan8x8x bench 1 (Chip.lan8x8x.benchStart .auto) (.reset none) := by
  have hinv : ConfInv .lan8x8x bench (Chip.lan8x8x.benchStart .auto, false) := ⟨bench_ready (Or.inl rfl), trivial, nofun⟩
  have hfits : ConfFits .lan8x8x bench 1 (Chip.lan8x8x.benchStart .auto, false) (.reset none) := by
    refine ⟨bitStorage_sound _, nofun, ?_⟩
    rintro d w ⟨⟩ ⟨⟩
  exact @coherent_calls _ .lan8x8x bench 1 _ (Chip.lan8x8x.benchStart .auto, false) _ hinv .refl hfits

/-- A port that was reset is as the calls leave it. -/
theorem bench_reset (chip : Chip) : ConfInv chip bench (benchCall chip (.reset none) (chip.benchStart .auto), true) ∧
    (benchCall chip (.reset none) (chip.benchStart .auto)).conf = chip.workData .resetInit (chip.benchData .auto) := by
  have hs : bench.Sound (chip.benchStart .auto).hw := bitStorage_sound _
  have hready : Ready chip (bench.view (chip.benchStart .auto).hw) (chip.benchStart .auto).conf := bench_ready (Or.inl rfl)
  have hplan : (chip.driver bench.toBus 1).plan (chip.benchStart .auto).conf (.reset none) =
      .ok (chip.benchData .auto, .resetInit) := rfl
  obtain ⟨hdata, hview⟩ := (call_done hs (tracks_confRegs chip) hready hplan).2.view
  have hregs := fun q hq => hview q (List.mem_append_left _ hq)
  refine ⟨⟨hready.call hs, ?_, fun _ _ => ?_⟩, hdata⟩
  · rw [hdata]
    exact (macKept_work (Or.inl rfl)).congr hregs
  · rw [hdata]
    exact (coherent_work rfl (Or.inl rfl)).congr hregs

/-- The calls are good after every run whose accesses succeed. -/
def CallsAlwaysGood (chip : Chip) : Prop := ∀ (x y : Dev (PhyData chip.Own) (Reg → BitVec 16) × Bool) (op : Op),
  ConfInv chip bench x → ConfRun chip bench 1 (fun _ _ => True) x y → CallGood chip bench 1 y.1 op

/-- Only 100 Mbit/s is advertised, instead of 1 Gbit/s. -/
def benchConf : Conf := { benchData.conf with aneg1gFdx := false }

/-- Bit 7 of `MDIO_AN_T1_ADV_M` is that of 1 Gbit/s. -/
theorem not_callsAlwaysGood {chip : Chip} (hq : (.mmd .an 0x0203 : Reg) ∈ chip.confRegs)
    (hplan : (chip.driver bench.toBus 1).plan (chip.workData .resetInit (chip.benchData .auto)) (.conf benchConf) =
      .ok ((chip.workData .resetInit (chip.benchData .auto)).setConf benchConf, .nothing))
    (hold : lastBit (chip.workAccesses .resetInit (chip.benchData .auto)) (.mmd .an 0x0203) 7 = some true)
    (hnew : lastBit (chip.workAccesses .resetInit ((chip.workData .resetInit (chip.benchData .auto)).setConf benchConf))
      (.mmd .an 0x0203) 7 = some false) : ¬CallsAlwaysGood chip := by
  intro h
  obtain ⟨hinv, hdata⟩ := bench_reset chip
  have hplan' : (chip.driver bench.toBus 1).plan (benchCall chip (.reset none) (chip.benchStart .auto)).conf
      (.conf benchConf) = .ok ((chip.workData .resetInit (chip.benchData .auto)).setConf benchConf, .nothing) := by
    rw [hdata]
    exact hplan
  obtain ⟨hok, hfinal⟩ := call_nothing hplan'
  have hgood := (h _ _ (.conf benchConf) hinv .refl).1 hok
  rw [hfinal] at hgood
  have hbefore := hinv.coherent rfl (by rw [hdata, workData_conf]; rfl)
  rw [hdata, coherent_workData] at hbefore
  have hon := Settled.bit hbefore hq rfl hold
  have hoff := Settled.bit (hgood rfl) hq rfl hnew
  exact Bool.false_ne_true (hoff.symm.trans hon)

/-- In both drivers a configuration that changes the advertised speed alone is only stored. -/
theorem not_coherent_calls : ¬CallsAlwaysGood .lan887x ∧ ¬CallsAlwaysGood .lan8x8x :=
  ⟨not_callsAlwaysGood (by decide) rfl rfl rfl, not_callsAlwaysGood (by decide +kernel) rfl rfl rfl⟩

end Lan80xx.T1
