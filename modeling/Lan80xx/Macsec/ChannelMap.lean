import Lan80xx.Macsec.Records
import Mathlib.Data.Finset.Card

/-!
# MACsec: the CAM indexes of the receive channels

`rx_sc_hw_idx_in_use` is kept apart from the channels. `HwMap` adds to the tables' invariant that the bitmap holds no
index but those of channels in use, so that an index is free exactly when no channel holds it, and `rx_sc_add` takes the
lowest free one.
-/

namespace Lan80xx.Macsec

open Fallible RegBus Ownership MacsecConf

variable {H : Type} {bus : PortBus H} {i j sc p hw b : Nat} {c c' : MacsecConf}

/-! ## The bitmap -/

/-- A channel in use holds the CAM index `b`. -/
def HwHeld (c : MacsecConf) (b : Nat) : Prop := ∃ p, (c.rxSc p).inUse = true ∧ (c.rxSc p).hwScIdx = b

/-- The bitmap holds only the indexes of channels in use. -/
def HwMap (c : MacsecConf) : Prop := ∀ b, c.rxScHwIdxInUse.getLsbD b = true → HwHeld c b

theorem hwMap_init (glb : Glb) : HwMap (macsecInit glb) := fun b hb => by
  simp [macsecInit] at hb

theorem HwMap.congr (hm : HwMap c) (hb : c'.rxScHwIdxInUse = c.rxScHwIdxInUse)
    (hu : ∀ p, (c'.rxSc p).inUse = (c.rxSc p).inUse) (hhw : ∀ p, (c'.rxSc p).hwScIdx = (c.rxSc p).hwScIdx) :
    HwMap c' := fun b hset => by
  rw [hb] at hset
  obtain ⟨p, hp, he⟩ := hm b hset
  exact ⟨p, by rw [hu, hp], by rw [hhw, he]⟩

theorem HwMap.addRxSc (hm : HwMap c) (hp : (c.rxSc p).inUse = false) (hhw : hw < 64) (sci : Sci) :
    HwMap (addRxSc i c sc p hw sci) := fun b hset => by
  obtain ⟨hsu, -, hshw, -⟩ := addRxSc_self i sc p hw sci c
  have hbits : (MacsecConf.addRxSc i c sc p hw sci).rxScHwIdxInUse = c.rxScHwIdxInUse ||| (1#64 <<< hw) := rfl
  rw [hbits, getLsbD_setBit _ _ _ hhw, Bool.or_eq_true, decide_eq_true_iff] at hset
  rcases hset with hset | rfl
  · obtain ⟨q, hq, he⟩ := hm b hset
    have hqp : q ≠ p := by
      rintro rfl
      rw [hp] at hq
      cases hq
    exact ⟨q, by rw [addRxSc_other hqp, hq], by rw [addRxSc_other hqp, he]⟩
  · exact ⟨p, hsu, hshw⟩

theorem HwMap.freeRxSc (hm : HwMap c) (h : Inv c) (hp : (c.secy i).rxSc sc = some p) :
    HwMap (freeRxSc i c sc) := fun b hset => by
  have hpu : (c.rxSc p).inUse = true := h.sc.live (s := (i, sc)) hp
  rw [freeRxSc_eq hp] at hset ⊢
  have hbits : (c.rxScHwIdxInUse &&& ~~~(1#64 <<< (c.rxSc p).hwScIdx)).getLsbD b = true := hset
  rw [getLsbD_clearBit _ _ _ (h.hw_lt hpu), Bool.and_eq_true, decide_eq_true_iff] at hbits
  obtain ⟨q, hq, he⟩ := hm b hbits.1
  have hqp : q ≠ p := by
    rintro rfl
    exact hbits.2 he.symm
  refine ⟨q, ?_, ?_⟩ <;> simp [setRxSc_rxSc, hqp, hq, he]

/-- What the bitmap and the channels look like to `HwMap`, kept. -/
theorem HwMap.of_rxSc (hm : HwMap c) (hb : c'.rxScHwIdxInUse = c.rxScHwIdxInUse) (hr : c'.rxSc = c.rxSc) : HwMap c' :=
  hm.congr hb (fun p => by rw [hr]) fun p => by rw [hr]

theorem setTxSaAt_hw {an : Nat} {f : TxSa → TxSa} : (c.setTxSaAt i an f).rxScHwIdxInUse = c.rxScHwIdxInUse := by
  unfold MacsecConf.setTxSaAt
  split <;> rfl

theorem setRxScAt_hw {f : RxSc → RxSc} : (c.setRxScAt i sc f).rxScHwIdxInUse = c.rxScHwIdxInUse := by
  unfold MacsecConf.setRxScAt
  split <;> rfl

theorem activateTxSa_rxSc {an oldAn : Nat} {b : Bool} :
    (activateTxSa i c an oldAn b).rxScHwIdxInUse = c.rxScHwIdxInUse ∧ (activateTxSa i c an oldAn b).rxSc = c.rxSc := by
  cases b with
  | true => exact ⟨setTxSaAt_hw.trans setTxSaAt_hw, setTxSaAt_rx.1.trans setTxSaAt_rx.1⟩
  | false => exact ⟨setTxSaAt_hw, setTxSaAt_rx.1⟩

theorem flagRxSa_rxScs {an : Nat} {b : Bool} :
    (flagRxSa i c sc an b).rxScHwIdxInUse = c.rxScHwIdxInUse ∧ (flagRxSa i c sc an b).rxSc = c.rxSc := by
  unfold MacsecConf.flagRxSa MacsecConf.setRxSaAt
  split <;> exact ⟨rfl, rfl⟩

/-- Only adding and deleting a channel touch the bitmap. -/
theorem Commit.hwMap {k : Kind} (hc : Commit i c k c') (h : Inv c) (hm : HwMap c) : HwMap c' := by
  cases hc with
  | addRxSc sc p hw sci _ hp _ =>
    obtain ⟨-, ⟨-, hu⟩, hlt, -⟩ := rxScPlace_spec hp
    exact hm.addRxSc hu hlt sci
  | freeRxSc sc p hp _ => exact hm.freeRxSc h hp
  | openSecy | settings | clearSecy | openTxSc | clearTxSc | linkTxSa | freeTxSa => exact hm.of_rxSc rfl rfl
  | activateTxSa => exact hm.of_rxSc activateTxSa_rxSc.1 activateTxSa_rxSc.2
  | disableTxSa => exact hm.of_rxSc setTxSaAt_hw setTxSaAt_rx.1
  | updateRxScConf sc p conf hp =>
    refine hm.congr setRxScAt_hw ?_ ?_ <;> rw [MacsecConf.updateRxScConf, setRxScAt_eq hp]
    · exact setRxSc_part RxSc.inUse rfl
    · exact setRxSc_part RxSc.hwScIdx rfl
  | linkRxSa sc p an r lowestPn sak ssci hp =>
    exact hm.congr setRxScAt_hw (linkRxSa_rxSc_part hp RxSc.inUse fun _ _ => rfl)
      (linkRxSa_rxSc_part hp RxSc.hwScIdx fun _ _ => rfl)
  | flagRxSa => exact hm.of_rxSc flagRxSa_rxScs.1 flagRxSa_rxScs.2
  | freeRxSa sc p an r hp =>
    exact hm.congr setRxScAt_hw (freeRxSa_rxSc_part hp RxSc.inUse fun _ _ => rfl)
      (freeRxSa_rxSc_part hp RxSc.hwScIdx fun _ _ => rfl)
  | linkPattern a d => cases d <;> exact hm.of_rxSc rfl rfl
  | freePattern a d => cases d <;> exact hm.of_rxSc rfl rfl

theorem hwMap_of_trace {sp : Scope} {s s' : Dev MacsecConf H} (ht : Relation.ReflTransGen (Micro bus sp i) s s')
    (h : Inv s.conf) (hm : HwMap s.conf) : HwMap s'.conf := by
  induction ht with
  | refl => exact hm
  | tail ht hstep ih =>
    cases hstep with
    | hw _ => exact ih
    | sw hc _ => exact hc.hwMap (trace_inv ht h) ih
    | zero record _ => exact final_saInuse_conf.symm ▸ ih

/-! ## Runs with initialisations -/

/-- A step of the port, or an `init_set`: disabling clears the tables, the other settings leave them alone. The
registers and the port-wide settings may come out of it in any way. -/
inductive PortStep (bus : PortBus H) : Dev MacsecConf H → Dev MacsecConf H → Prop
  | step {s s' : Dev MacsecConf H} : Step bus s s' → PortStep bus s s'
  | clear (s : Dev MacsecConf H) (glb : Glb) (h : H) : PortStep bus s ⟨macsecInit glb, h⟩
  | settings (s : Dev MacsecConf H) (glb : Glb) (h : H) : PortStep bus s ⟨{ s.conf with glb }, h⟩

/-- The states of a port, however often it is initialised. -/
def PortReachable (bus : PortBus H) (s : Dev MacsecConf H) : Prop :=
  ∃ glb h, Relation.ReflTransGen (PortStep bus) ⟨macsecInit glb, h⟩ s

theorem Reachable.portReachable {s : Dev MacsecConf H} (hs : Reachable bus s) : PortReachable bus s := by
  obtain ⟨glb, h, hrun⟩ := hs
  exact ⟨glb, h, hrun.lift id fun _ _ => .step⟩

/-- The links do not depend on the port-wide settings. -/
theorem Inv.setGlb (h : Inv c) (glb : Glb) : Inv { c with glb } where
  tx := h.tx.congr (fun s => by cases s <;> rfl) fun _ => Iff.rfl
  rx := h.rx.congr (fun s => by cases s <;> rfl) fun _ => Iff.rfl
  sc := h.sc
  tx_place := h.tx_place
  tx_record := h.tx_record
  tx_enabled := h.tx_enabled
  tx_encoding := h.tx_encoding
  tx_lt := h.tx_lt
  rx_place := h.rx_place
  rx_record := h.rx_record
  rx_lt := h.rx_lt
  sc_place := h.sc_place
  sc_lt := h.sc_lt
  sci_inj := h.sci_inj
  hw_lt := h.hw_lt
  hw_used := h.hw_used
  hw_inj := h.hw_inj
  secy_lt := h.secy_lt
  txSc_secy := h.txSc_secy
  sc_secy := h.sc_secy

theorem PortStep.hwMap {s s' : Dev MacsecConf H} (hst : PortStep bus s s') (h : Inv s.conf ∧ HwMap s.conf) :
    Inv s'.conf ∧ HwMap s'.conf := by
  obtain ⟨h, hm⟩ := h
  cases hst with
  | step hst =>
    refine ⟨hst.inv h, ?_⟩
    cases hst with
    | call port op =>
      have hi : ∀ j, op.slot s.conf port = some j → j = (op.slot s.conf port).getD 0 := fun j hj => by rw [hj]; rfl
      exact hwMap_of_trace (trace_call h hi) h hm
    | drift _ _ => exact hm
  | clear glb _ => exact ⟨inv_init glb, hwMap_init glb⟩
  | settings glb _ => exact ⟨h.setGlb glb, hm⟩

theorem portReachable_hwMap {s : Dev MacsecConf H} (hs : PortReachable bus s) : Inv s.conf ∧ HwMap s.conf := by
  obtain ⟨glb, h₀, hrun⟩ := hs
  induction hrun with
  | refl => exact ⟨inv_init glb, hwMap_init glb⟩
  | tail _ hst ih => exact hst.hwMap ih

/-! ## Taking an index -/

/-- The channel `sc` of SecY `i` holds the CAM index `b`. -/
def ChannelHolds (c : MacsecConf) (i sc b : Nat) : Prop :=
  (c.secy i).inUse = true ∧ ∃ p, (c.secy i).rxSc sc = some p ∧ (c.rxSc p).inUse = true ∧ (c.rxSc p).hwScIdx = b

theorem hwBit_iff (h : Inv c) (hm : HwMap c) : c.rxScHwIdxInUse.getLsbD b = true ↔ ∃ i sc, ChannelHolds c i sc b := by
  constructor
  · intro hb
    obtain ⟨p, hp, he⟩ := hm b hb
    obtain ⟨⟨i, sc⟩, ho⟩ := h.sc.covered hp
    exact ⟨i, sc, h.sc_secy ho, p, ho, hp, he⟩
  · rintro ⟨i, sc, -, p, -, hp, rfl⟩
    exact h.hw_used hp

/-- The 64 channels of a table cannot all hold an index when index `b` is free. -/
theorem exists_not_hw (h : Inv c) (hfree : c.rxScHwIdxInUse.getLsbD b = false) (hb : b < maxRxSc) {g : Nat → Nat}
    (hg : ∀ k l, k < maxRxSc → l < maxRxSc → (c.rxSc (g k)).inUse = true → (c.rxSc (g l)).inUse = true →
      g k = g l → k = l) : ∃ k < maxRxSc, (c.rxSc (g k)).inUse = false := by
  by_contra hall
  have hu : ∀ k, k < maxRxSc → (c.rxSc (g k)).inUse = true := fun k hk => by
    by_contra hk'
    exact hall ⟨k, hk, by simpa using hk'⟩
  have hcard : ((Finset.range maxRxSc).erase b).card < (Finset.range maxRxSc).card :=
    Finset.card_erase_lt_of_mem (Finset.mem_range.mpr hb)
  obtain ⟨k, hk, l, hl, hne, he⟩ := Finset.exists_ne_map_eq_of_card_lt_of_maps_to hcard
    (f := fun k => (c.rxSc (g k)).hwScIdx) fun k hk => by
      have huk := hu k (Finset.mem_range.mp hk)
      refine Finset.mem_coe.mpr (Finset.mem_erase.mpr ⟨fun he => ?_, Finset.mem_range.mpr (h.hw_lt huk)⟩)
      have hset := h.hw_used huk
      rw [show (c.rxSc (g k)).hwScIdx = b from he, hfree] at hset
      cases hset
  rw [Finset.mem_range] at hk hl
  exact hne (hg k l hk hl (hu k hk) (hu l hl) (h.hw_inj (hu k hk) (hu l hl) he))

/-- A channel finds a place as long as an index is free, and takes the lowest free one. -/
theorem rxScPlace_lowest (h : Inv c) (hfree : c.rxScHwIdxInUse.getLsbD b = false) (hb : b < maxRxSc)
    (hlow : ∀ k < b, c.rxScHwIdxInUse.getLsbD k = true) : ∃ sc p, rxScPlace c i = some (sc, p, b) := by
  have hplace : ∃ sc, (List.range maxRxSc).find? (fun sc => ((c.secy i).rxSc sc).isNone) = some sc := by
    by_contra hnone
    have hsome : ∀ sc < maxRxSc, ((c.secy i).rxSc sc).isSome = true := fun sc hsc => by
      have hn := List.find?_eq_none.mp (Option.eq_none_iff_forall_ne_some.mpr fun sc he => hnone ⟨sc, he⟩) sc
        (List.mem_range.mpr hsc)
      cases hs : (c.secy i).rxSc sc with
      | none => simp [hs] at hn
      | some p => rfl
    have hlive : ∀ sc < maxRxSc, (c.secy i).rxSc sc = some (((c.secy i).rxSc sc).getD 0) := fun sc hsc => by
      obtain ⟨p, hp⟩ := Option.isSome_iff_exists.mp (hsome sc hsc)
      rw [hp]
      rfl
    obtain ⟨sc, hsc, hu⟩ := exists_not_hw h hfree hb (g := fun sc => ((c.secy i).rxSc sc).getD 0)
      fun k l hk hl _ _ he => by
        have := h.sc.inj (s := (i, k)) (t := (i, l)) (hlive k hk) (he ▸ hlive l hl)
        simpa using this
    have hlive' := h.sc.live (s := (i, sc)) (hlive sc hsc)
    rw [hu] at hlive'
    cases hlive'
  have hentry : ∃ p, (List.range maxRxSc).find? (fun p => !(c.rxSc p).inUse) = some p := by
    obtain ⟨p, hp, hu⟩ := exists_not_hw h hfree hb (g := id) fun _ _ _ _ _ _ => id
    by_contra hnone
    have := List.find?_eq_none.mp (Option.eq_none_iff_forall_ne_some.mpr fun p he => hnone ⟨p, he⟩) p
      (List.mem_range.mpr hp)
    simp [show (c.rxSc p).inUse = false from hu] at this
  have hhw : (List.range maxRxSc).find? (fun hw => !c.rxScHwIdxInUse.getLsbD hw) = some b :=
    List.find?_range_eq_some.mpr ⟨by simp [hfree], List.mem_range.mpr hb, fun k hk => by simp [hlow k hk]⟩
  obtain ⟨sc, hsc⟩ := hplace
  obtain ⟨p, hp⟩ := hentry
  exact ⟨sc, p, by simp [rxScPlace, hsc, hp, hhw]⟩

/-! ## Adding a channel -/

/-- The checks that `rx_sc_add` makes before it looks for a place. -/
structure AddChecks (c : MacsecConf) (port : MacsecPort) (i : Nat) (sci : Sci) : Prop where
  enabled : c.glb.initEnable = true
  port : portFind c port = some i
  resources : checkResources c true i = true
  valid : isSciValid sci = true
  unused : ∀ p < maxRxSc, (c.rxSc p).sci ≠ sci

/-- An addition takes the places found, and fails only at a check or for want of a place. -/
theorem ends_rxScAdd {port : MacsecPort} {sci : Sci} :
    Ends (fun s => s.conf = c) ((Op.rxScAdd sci).call bus port)
      (fun _ s => ∃ i sc p hw, portFind c port = some i ∧ rxScPlace c i = some (sc, p, hw) ∧
        s.conf = addRxSc i c sc p hw sci)
      fun s => s.conf = c ∧ ∀ i, AddChecks c port i sci → rxScPlace c i = none := by
  refine Ends.bind (Q := fun i s => s.conf = c ∧ portFind c port = some i) ?_ fun i => ?_
  · refine ends_getConf_bind (fun _ => id) (Ends.failIf_bind (fun s hs hg => ⟨hs, fun i hi => ?_⟩) fun _ => ?_)
    · rw [hi.enabled] at hg
      cases hg
    · cases hp : portFind c port with
      | some i => exact Ends.pure fun s hs => ⟨hs, rfl⟩
      | none => exact Ends.throw fun s hs => ⟨hs, fun i hi => by rw [hi.port] at hp; cases hp⟩
  rintro s ⟨hs, hport⟩
  have hi : ∀ j, AddChecks c port j sci → j = i := fun j hj => Option.some.inj (hj.port.symm.trans hport)
  refine ends_getConf_bind (c := c) (fun _ => id) ?_ s hs
  refine Ends.failIf_bind (fun t ht hr => ⟨ht, fun j hj => ?_⟩) fun _ => ?_
  · rw [← hi j hj, hj.resources] at hr
    cases hr
  refine Ends.failIf_bind (fun t ht hv => ⟨ht, fun j hj => ?_⟩) fun _ => ?_
  · rw [hj.valid] at hv
    cases hv
  refine Ends.failIf_bind (fun t ht hv => ⟨ht, fun j hj => ?_⟩) fun _ => ?_
  · obtain ⟨p, hp, he⟩ := hv
    exact absurd he (hj.unused p hp)
  cases hpl : rxScPlace c i with
  | none => exact Ends.throw fun t ht => ⟨ht, fun j hj => hi j hj ▸ hpl⟩
  | some place =>
    obtain ⟨sc, p, hw⟩ := place
    exact Ends.modify fun t ht => ⟨i, sc, p, hw, hport, hpl, by rw [ht]⟩

theorem rxScPlace_hw (hp : rxScPlace c i = some (sc, p, hw)) : ∀ k < hw, c.rxScHwIdxInUse.getLsbD k = true := by
  simp only [rxScPlace, Option.bind_eq_bind, Option.bind_eq_some_iff, Option.pure_def, Option.some.injEq,
    Prod.mk.injEq] at hp
  obtain ⟨_, -, _, -, _, hhw, rfl, rfl, rfl⟩ := hp
  intro k hk
  simpa using (List.find?_range_eq_some.mp hhw).2.2 k hk

/-- Any number of additions that succeed. -/
inductive AddRun (bus : PortBus H) : Nat → Dev MacsecConf H → Dev MacsecConf H → Prop
  | nil (s : Dev MacsecConf H) : AddRun bus 0 s s
  | cons {n : Nat} {s s' : Dev MacsecConf H} (port : MacsecPort) (sci : Sci) :
      errorOf ((Op.rxScAdd sci).call bus port) s = none → AddRun bus n (final ((Op.rxScAdd sci).call bus port) s) s' →
      AddRun bus (n + 1) s s'

/-- The free indexes up to `b`. -/
def freeUpTo (c : MacsecConf) (b : Nat) : Finset Nat :=
  (Finset.range (b + 1)).filter fun k => c.rxScHwIdxInUse.getLsbD k = false

/-- An addition that succeeds sets the bit of the lowest free index. -/
theorem hwBits_rxScAdd {s : Dev MacsecConf H} {port : MacsecPort} {sci : Sci}
    (hok : errorOf ((Op.rxScAdd sci).call bus port) s = none) :
    ∃ hw < maxRxSc, s.conf.rxScHwIdxInUse.getLsbD hw = false ∧
      (∀ k < hw, s.conf.rxScHwIdxInUse.getLsbD k = true) ∧
      ∀ k, (final ((Op.rxScAdd sci).call bus port) s).conf.rxScHwIdxInUse.getLsbD k =
        (s.conf.rxScHwIdxInUse.getLsbD k || decide (k = hw)) := by
  have hend : Ends (fun t => t.conf = s.conf) ((Op.rxScAdd sci).call bus port) _ _ := ends_rxScAdd
  rcases hend.final rfl with ⟨-, -, i, sc, p, hw, -, hp, he⟩ | ⟨hne, -⟩
  · obtain ⟨-, -, hlt, hfree⟩ := rxScPlace_spec hp
    refine ⟨hw, hlt, hfree, rxScPlace_hw hp, fun k => ?_⟩
    rw [he]
    exact getLsbD_setBit _ _ _ hlt
  · exact absurd hok hne

/-- As many additions as there are free indexes up to `b` take `b`. -/
theorem AddRun.takes {n : Nat} {s s' : Dev MacsecConf H} (hrun : AddRun bus n s s')
    (hn : (freeUpTo s.conf b).card ≤ n) : s'.conf.rxScHwIdxInUse.getLsbD b = true := by
  induction hrun with
  | nil s =>
    have hempty : freeUpTo s.conf b = ∅ := Finset.card_eq_zero.mp (Nat.le_zero.mp hn)
    by_contra hb
    have hmem : b ∈ freeUpTo s.conf b := by simpa [freeUpTo] using hb
    simp [hempty] at hmem
  | cons port sci hok _ ih =>
    obtain ⟨hw, hlt, hfree, hlow, hbits⟩ := hwBits_rxScAdd hok
    refine ih ?_
    rename_i t t' _
    have herase : freeUpTo (final ((Op.rxScAdd sci).call bus port) t).conf b = (freeUpTo t.conf b).erase hw := by
      ext k
      simp only [freeUpTo, Finset.mem_filter, Finset.mem_erase, hbits, Bool.or_eq_false_iff, decide_eq_false_iff_not]
      tauto
    rw [herase]
    by_cases hmem : hw ∈ freeUpTo t.conf b
    · rw [Finset.card_erase_of_mem hmem]
      omega
    · -- the lowest free index lies above `b`
      have hbw : b < hw := by
        by_contra hle
        exact hmem (by simp [freeUpTo, hfree, show hw < b + 1 by omega])
      have hempty : freeUpTo t.conf b = ∅ := by
        refine Finset.eq_empty_of_forall_notMem fun k hk => ?_
        simp only [freeUpTo, Finset.mem_filter, Finset.mem_range] at hk
        rw [hlow k (by omega)] at hk
        cases hk.2
      simp [hempty]

/-! ## The index map -/

/-- The bitmap holds the indexes of the channels of all SecYs. -/
structure HwMapped (c : MacsecConf) : Prop where
  exact : ∀ b, c.rxScHwIdxInUse.getLsbD b = true ↔ ∃ i sc, ChannelHolds c i sc b
  distinct : ∀ {i sc j sc' b}, ChannelHolds c i sc b → ChannelHolds c j sc' b → i = j ∧ sc = sc'
  lt : ∀ {i sc b}, ChannelHolds c i sc b → b < maxRxSc
  sci : ∀ {i sc sc' p q}, (c.secy i).rxSc sc = some p → (c.secy i).rxSc sc' = some q → (c.rxSc p).inUse = true →
    (c.rxSc q).inUse = true → (c.rxSc p).sci = (c.rxSc q).sci → sc = sc'

theorem Inv.hwMapped (h : Inv c) (hm : HwMap c) : HwMapped c where
  exact b := hwBit_iff h hm
  distinct := by
    rintro i sc j sc' b ⟨-, p, hp, hpu, rfl⟩ ⟨-, q, hq, hqu, he⟩
    obtain rfl := h.hw_inj hqu hpu he
    have := h.sc.inj (s := (i, sc)) (t := (j, sc')) hp hq
    simpa using this
  lt := by
    rintro i sc b ⟨-, p, -, hp, rfl⟩
    exact h.hw_lt hp
  sci {i sc sc' p q} hp hq hpu hqu he := by
    obtain rfl := h.sci_inj hpu hqu he
    have := h.sc.inj (s := (i, sc)) (t := (i, sc')) hp hq
    simpa using this

/-- An addition that passes its checks succeeds as long as an index is free, and takes the lowest free one. -/
theorem rxScAdd_takes {s : Dev MacsecConf H} (h : Inv s.conf) {port : MacsecPort} {sci : Sci}
    (hc : AddChecks s.conf port i sci) (hb : b < maxRxSc) (hfree : s.conf.rxScHwIdxInUse.getLsbD b = false)
    (hlow : ∀ k < b, s.conf.rxScHwIdxInUse.getLsbD k = true) :
    errorOf ((Op.rxScAdd sci).call bus port) s = none ∧
      ∃ sc, ChannelHolds (final ((Op.rxScAdd sci).call bus port) s).conf i sc b := by
  obtain ⟨sc, p, hpl⟩ := rxScPlace_lowest (i := i) h hfree hb hlow
  have hend : Ends (fun t => t.conf = s.conf) ((Op.rxScAdd sci).call bus port) _ _ := ends_rxScAdd
  rcases hend.final rfl with ⟨hok, -, j, sc', q, hw, hj, hp, he⟩ | ⟨-, -, hno⟩
  · obtain rfl : j = i := Option.some.inj (hj.symm.trans hc.port)
    rw [hpl] at hp
    cases hp
    obtain ⟨hu, -, hhw, -⟩ := addRxSc_self j sc p b sci s.conf
    refine ⟨hok, sc, ?_, p, ?_, ?_, ?_⟩ <;> rw [he]
    · rw [addRxSc_part Secy.inUse fun _ _ => rfl]
      exact hasPort_inUse (portFind_spec hj).2
    · simp [addRxSc_rxScPtr]
    · exact hu
    · exact hhw
  · rw [hno i hc] at hpl
    cases hpl

/-- In every state the bitmap holds the indexes of the channels in use, these are distinct and below 64, and no two
channels of a SecY have one SCI. A free index is never lost: an addition that passes its checks takes the lowest one,
and as many additions as there are free indexes up to `b` take `b`. -/
theorem rx_sc_map (s : Dev MacsecConf H) (hs : PortReachable bus s) :
    HwMapped s.conf ∧
    (∀ port i sci b, AddChecks s.conf port i sci → b < maxRxSc → s.conf.rxScHwIdxInUse.getLsbD b = false →
      (∀ k < b, s.conf.rxScHwIdxInUse.getLsbD k = true) →
      errorOf ((Op.rxScAdd sci).call bus port) s = none ∧
        ∃ sc, ChannelHolds (final ((Op.rxScAdd sci).call bus port) s).conf i sc b) ∧
    ∀ n s' b, AddRun bus n s s' → (freeUpTo s.conf b).card ≤ n → ∃ i sc, ChannelHolds s'.conf i sc b := by
  obtain ⟨h, hm⟩ := portReachable_hwMap hs
  refine ⟨h.hwMapped hm, fun port i sci b => rxScAdd_takes h, fun n s' b hrun hn => ?_⟩
  have hreach : ∀ {n s s'}, AddRun bus n s s' → PortReachable bus s → PortReachable bus s' := by
    intro n s s' hrun
    induction hrun with
    | nil => exact id
    | cons port sci _ _ ih =>
      rintro ⟨glb, h₀, hs⟩
      exact ih ⟨glb, h₀, hs.tail (.step (.call port (.rxScAdd sci) _))⟩
  obtain ⟨h', hm'⟩ := portReachable_hwMap (hreach hrun hs)
  exact (hwBit_iff h' hm').mp (hrun.takes hn)

/-- The station behind a receive channel. -/
def benchSci (portId : Nat) : Sci := ⟨⟨#[2, 0, 0, 0, 0, 2], rfl⟩, portId⟩

/-- Two channels, of which the first is deleted. -/
def freedChannel : List (MacsecPort × Op) :=
  [(benchPort 1, .secyConfAdd benchSecy), (benchPort 1, .rxScAdd (benchSci 1)), (benchPort 1, .rxScAdd (benchSci 2)),
    (benchPort 1, .rxScDel (benchSci 1))]

/-- The index of the deleted channel is taken again. -/
theorem rx_sc_map_freedChannel : ∃ sc, ChannelHolds (final ((Op.rxScAdd (benchSci 1)).call bench.toBus (benchPort 1))
    (calls bench.toBus freedChannel benchInit)).conf 0 sc 0 := by
  have h : ((calls bench.toBus freedChannel benchInit).conf.glb.initEnable = true ∧
      portFind (calls bench.toBus freedChannel benchInit).conf (benchPort 1) = some 0 ∧
      checkResources (calls bench.toBus freedChannel benchInit).conf true 0 = true ∧
      ∀ p < maxRxSc, ((calls bench.toBus freedChannel benchInit).conf.rxSc p).sci ≠ benchSci 1) ∧
      (calls bench.toBus freedChannel benchInit).conf.rxScHwIdxInUse.getLsbD 0 = false := by
    decide +kernel
  exact ((rx_sc_map _ (reachable_bench freedChannel).portReachable).2.1 (benchPort 1) 0 (benchSci 1) 0
    ⟨h.1.1, h.1.2.1, h.1.2.2.1, by decide, h.1.2.2.2⟩ (by decide) h.2 fun _ hk => absurd hk (Nat.not_lt_zero _)).2

end Lan80xx.Macsec
