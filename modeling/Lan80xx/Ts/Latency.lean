import Lan80xx.Ts.Types
import Lan80xx.Lib.RegWords

/-!
# Timestamping: local latencies

A latency is programmed as a correction of the default of the port's mode, with a sign, 8 bits of nanoseconds and 8 bits
of fraction, in a pair of registers. The timestamp processor goes on with the old pair until the new one is loaded.

- `latencyWords_eq`: the pair that is programmed holds the distance from the default, whatever its direction;
- `latencies_right_iff`: egress latencies from the default on are right; those below it program the pair of a latency
  above it, and ingress latencies are never loaded.
-/

namespace Lan80xx.Ts

open Fallible RegBus

/-! ## The pair of registers -/

/-- `phy25g_ts_local_latency`: `pslocal_latency_ns` and `pslocal_latency_sns` of its entries. -/
def tsLocalLatency : List (BitVec 32 × BitVec 8) :=
  [(0x6104, 0x9d), (0x6104, 0x9d), (0x6104, 0x9d), (0x6104, 0x9d),
    (0x1104, 0x9d), (0x1104, 0x9d), (0x1104, 0x9d), (0x1104, 0x9d),
    (0x104, 0xdb), (0x104, 0xdb), (0x104, 0xdb), (0x104, 0xdb),
    (0x6104, 0xbf), (0x6104, 0xbf), (0x6104, 0xbf), (0x6104, 0xbf)]

/-- `latency_table_physpeed_index`. -/
def physpeedIndex (p : PortMode) : Nat :=
  match p.speed with
  | .s1G => 8
  | .s10G => 4
  | .s25G => if p.rsFec25g then 12 else 0
  | .none => 0

/-- `latency_table_matchindex`. -/
def matchIndex (ingress : Bool) (p : PortMode) : Nat :=
  physpeedIndex p + (match p.operMode with | .pcsRetimer => 0 | .macRetimer => 1) * 2 + if ingress then 0 else 1

/-- The entry of a direction and a mode. -/
def latencyEntry (ingress : Bool) (p : PortMode) : BitVec 32 × BitVec 8 :=
  tsLocalLatency.getD (matchIndex ingress p) (0, 0)

/-- `ingress_default`, `egress_default`. -/
def defaultLatency (e : BitVec 32 × BitVec 8) : BitVec 32 := (e.1 &&& 0xff) <<< 8 ||| e.2.setWidth 32

/-- `svalue` after the adjustment by the default. -/
def adjusted (e : BitVec 32 × BitVec 8) (ti : BitVec 64) : BitVec 32 :=
  let svalue : BitVec 32 := (ti &&& 0xFFFFFFFF).setWidth 32
  if (defaultLatency e).slt svalue then svalue - defaultLatency e else defaultLatency e - svalue

/-- The two words that `lan80xx_ts_csr_set_priv` writes for a latency. -/
def latencyWords (e : BitVec 32 × BitVec 8) (ti : BitVec 64) : BitVec 32 × BitVec 32 :=
  let svalue := adjusted e ti
  let sns : BitVec 8 := (svalue &&& 0xff).setWidth 8
  let svalue := if (0#32).slt svalue then svalue.sshiftRight 8 ||| 0x100 else svalue.sshiftRight 8
  let ns := (e.1 &&& 0x7FFF00) ||| (svalue &&& 0x1FF)
  (ns &&& 0x7FFFFF, sns.setWidth 32 &&& 0xff)

/-- The correction that a pair stands for, in units of 1/256 ns: bit 8 is set for one above the default. -/
def correction (w : BitVec 32 × BitVec 32) : Int :=
  if w.1.getLsbD 8 then (w.1.toNat % 256 * 256 + w.2.toNat : Nat) else -(w.1.toNat % 256 * 256 + w.2.toNat : Nat)

/-- The distance from the default fits the field. -/
def Fits (e : BitVec 32 × BitVec 8) (ti : BitVec 64) : Prop := (ti.toInt - (defaultLatency e).toNat).natAbs < 65536

instance (e : BitVec 32 × BitVec 8) (ti : BitVec 64) : Decidable (Fits e ti) := inferInstanceAs (Decidable (_ < _))

section Words

variable {e : BitVec 32 × BitVec 8} {ti ti' : BitVec 64}

theorem latencyEntry_mem (ingress : Bool) (p : PortMode) : latencyEntry ingress p ∈ tsLocalLatency := by
  obtain ⟨speed, fec, mode⟩ := p
  cases ingress <;> cases speed <;> cases fec <;> cases mode <;> decide

theorem defaultLatency_lt : ∀ e ∈ tsLocalLatency, (defaultLatency e).toNat < 65536 := forall_mem_of_all (by decide)

/-- The value that is programmed is the distance from the default. -/
theorem adjusted_toNat (hd : (defaultLatency e).toNat < 65536) (h : Fits e ti) :
    (adjusted e ti).toNat = (ti.toInt - (defaultLatency e).toNat).natAbs := by
  unfold Fits at h
  unfold adjusted
  generalize defaultLatency e = d at h hd ⊢
  have hlt := ti.isLt
  have hcond := BitVec.toInt_eq_toNat_cond ti
  have hsv : ((ti &&& 0xFFFFFFFF).setWidth 32 : BitVec 32).toNat = ti.toNat % 2 ^ 32 := by
    have hand : (ti &&& 0xFFFFFFFF : BitVec 64).toNat = ti.toNat % 2 ^ 32 := Nat.and_two_pow_sub_one_eq_mod _ 32
    rw [BitVec.toNat_setWidth, hand, Nat.mod_mod]
  have hint : ((ti &&& 0xFFFFFFFF).setWidth 32 : BitVec 32).toInt = ti.toInt := by
    rw [BitVec.toInt_eq_toNat_cond, hsv]
    split at hcond <;> split <;> omega
  have hdint : d.toInt = d.toNat := by
    rw [BitVec.toInt_eq_toNat_cond]
    split <;> omega
  have hslt : d.slt ((ti &&& 0xFFFFFFFF).setWidth 32) = decide ((d.toNat : Int) < ti.toInt) := by
    rw [BitVec.slt, hint, hdint]
  simp only [hslt, decide_eq_true_eq]
  split
  · rw [BitVec.toNat_sub, hsv]
    split at hcond <;> omega
  · rw [BitVec.toNat_sub, hsv]
    split at hcond <;> omega

theorem forall_byte {P : BitVec 8 → Prop} (h : ∀ n < 256, P (BitVec.ofNat 8 n)) (q : BitVec 8) : P q := by
  have hq := h q.toNat q.isLt
  rwa [BitVec.ofNat_toNat, BitVec.setWidth_eq] at hq

/-- The words for a distance, from its upper and its lower byte. -/
theorem words_of_bytes : ∀ e ∈ tsLocalLatency, ∀ q : BitVec 8,
    ((e.1 &&& 0x7FFF00) ||| ((q.setWidth 32 ||| 0x100) &&& 0x1FF)) &&& 0x7FFFFF =
      ((e.1 &&& 0x7FFF00) ||| q.setWidth 32 : BitVec 32) := by
  have hall : ∀ e ∈ tsLocalLatency, ∀ n < 256,
      ((e.1 &&& 0x7FFF00) ||| (((BitVec.ofNat 8 n).setWidth 32 ||| 0x100) &&& 0x1FF)) &&& 0x7FFFFF =
        ((e.1 &&& 0x7FFF00) ||| (BitVec.ofNat 8 n).setWidth 32 : BitVec 32) :=
    forall_mem_of_all (by decide +kernel)
  exact fun e he => forall_byte (hall e he)

theorem words_of_zero : ∀ e ∈ tsLocalLatency, ((e.1 &&& 0x7FFF00) ||| ((0 : BitVec 8).setWidth 32 &&& 0x1FF)) &&& 0x7FFFFF =
    ((e.1 &&& 0x7FFF00) ||| (0 : BitVec 8).setWidth 32 : BitVec 32) := forall_mem_of_all (by decide +kernel)

/-- **The pair that is programmed**: bit 8 is always set, since it is in every default. -/
theorem latencyWords_eq (he : e ∈ tsLocalLatency) (h : Fits e ti) :
    latencyWords e ti = ((e.1 &&& 0x7FFF00) |||
        (BitVec.ofNat 8 ((ti.toInt - (defaultLatency e).toNat).natAbs / 256)).setWidth 32,
      (BitVec.ofNat 8 (ti.toInt - (defaultLatency e).toNat).natAbs).setWidth 32) := by
  have hx := adjusted_toNat (defaultLatency_lt e he) h
  unfold Fits at h
  unfold latencyWords
  generalize (ti.toInt - (defaultLatency e).toNat).natAbs = m at h hx ⊢
  generalize adjusted e ti = x at hx ⊢
  have hshift : x.sshiftRight 8 = (BitVec.ofNat 8 (m / 256)).setWidth 32 := by
    have hmsb : x.msb = false := by
      rw [BitVec.msb_eq_decide]
      exact decide_eq_false (by omega)
    apply BitVec.eq_of_toNat_eq
    rw [BitVec.sshiftRight_eq_of_msb_false hmsb, BitVec.toNat_ushiftRight, hx, Nat.shiftRight_eq_div_pow,
      BitVec.toNat_setWidth, BitVec.toNat_ofNat]
    omega
  have hsns : ((x &&& 0xff).setWidth 8).setWidth 32 &&& 0xff = ((BitVec.ofNat 8 m).setWidth 32 : BitVec 32) := by
    have hand (y : BitVec 32) : (y &&& 0xff).toNat = y.toNat % 2 ^ 8 := Nat.and_two_pow_sub_one_eq_mod _ 8
    apply BitVec.eq_of_toNat_eq
    rw [hand, BitVec.toNat_setWidth, BitVec.toNat_setWidth, hand, hx, BitVec.toNat_setWidth, BitVec.toNat_ofNat]
    omega
  have hpos : (0#32).slt x = decide (0 < m) := by
    have hxint : x.toInt = m := by
      rw [BitVec.toInt_eq_toNat_cond, hx]
      split <;> omega
    rw [BitVec.slt, hxint, BitVec.toInt_zero]
    exact decide_eq_decide.mpr Int.natCast_pos
  simp only [hshift, hsns, hpos, decide_eq_true_eq]
  refine Prod.ext ?_ rfl
  split
  · exact words_of_bytes e he _
  · next h0 =>
    have hm : m = 0 := by omega
    subst hm
    exact words_of_zero e he

/-- What is in the upper word: the sign, the nanoseconds, and the bits of the default above them. -/
theorem upper_word : ∀ e ∈ tsLocalLatency, ∀ q : BitVec 8,
    ((e.1 &&& 0x7FFF00) ||| q.setWidth 32 : BitVec 32).getLsbD 8 = true ∧
      ((e.1 &&& 0x7FFF00) ||| q.setWidth 32 : BitVec 32).toNat % 256 = q.toNat ∧
        ((e.1 &&& 0x7FFF00) ||| q.setWidth 32 : BitVec 32) &&& 0x7FFF00 = e.1 &&& 0x7FFF00 := by
  have hall : ∀ e ∈ tsLocalLatency, ∀ n < 256,
      ((e.1 &&& 0x7FFF00) ||| (BitVec.ofNat 8 n).setWidth 32 : BitVec 32).getLsbD 8 = true ∧
        ((e.1 &&& 0x7FFF00) ||| (BitVec.ofNat 8 n).setWidth 32 : BitVec 32).toNat % 256 = (BitVec.ofNat 8 n).toNat ∧
          ((e.1 &&& 0x7FFF00) ||| (BitVec.ofNat 8 n).setWidth 32 : BitVec 32) &&& 0x7FFF00 = e.1 &&& 0x7FFF00 :=
    forall_mem_of_all (by decide +kernel)
  exact fun e he => forall_byte (hall e he)

/-- The correction has the right magnitude, and always the sign of a latency above the default. -/
theorem correction_latencyWords (he : e ∈ tsLocalLatency) (h : Fits e ti) :
    correction (latencyWords e ti) = (ti.toInt - (defaultLatency e).toNat).natAbs := by
  rw [latencyWords_eq he h]
  unfold Fits at h
  generalize (ti.toInt - (defaultLatency e).toNat).natAbs = m at h ⊢
  obtain ⟨hsign, hns, -⟩ := upper_word e he (BitVec.ofNat 8 (m / 256))
  rw [correction, if_pos hsign, hns, BitVec.toNat_setWidth, BitVec.toNat_ofNat, BitVec.toNat_ofNat]
  omega

theorem upper_latencyWords (he : e ∈ tsLocalLatency) (h : Fits e ti) :
    (latencyWords e ti).1 &&& 0x7FFF00 = e.1 &&& 0x7FFF00 := by
  rw [latencyWords_eq he h]
  exact (upper_word e he _).2.2

/-- Latencies have the same words exactly when they are equally far from the default. -/
theorem latencyWords_eq_iff (he : e ∈ tsLocalLatency) (h : Fits e ti) (h' : Fits e ti') :
    latencyWords e ti = latencyWords e ti' ↔
      (ti.toInt - (defaultLatency e).toNat).natAbs = (ti'.toInt - (defaultLatency e).toNat).natAbs := by
  constructor
  · intro heq
    have hc := correction_latencyWords he h
    rw [heq, correction_latencyWords he h'] at hc
    omega
  · intro heq
    rw [latencyWords_eq he h, latencyWords_eq he h', heq]

end Words

/-! ## The calls -/

/-- `LAN80XX_PTP_PROC_INGR_PCS_SERDES_LOCAL_LATENCY`, `LAN80XX_PTP_PROC_EGR_PCS_SERDES_LOCAL_LATENCY`. -/
def localLatency (ingress : Bool) : Nat := if ingress then 0x2c else 0x63

/-- `LAN80XX_PTP_PROC_INGR_PCS_SERDES_LOCAL_LATENCY_SNS`, `LAN80XX_PTP_PROC_EGR_PCS_SERDES_LOCAL_LATENCY_SNS`. -/
def localLatencySns (ingress : Bool) : Nat := if ingress then 0x2d else 0x64

/-- `LAN80XX_PTP_PROC_INGR_TSP_CTRL`, `LAN80XX_PTP_PROC_EGR_TSP_CTRL`. -/
def tspCtrl (ingress : Bool) : Nat := if ingress then 0x28 else 0x5f

section Calls

variable {H : Type} (bus : Bus TsReg 32 H)

/-- The steps that `LAN80XX_PHY_TS_ING_LATENCY_SET` and `LAN80XX_PHY_TS_EGR_LATENCY_SET` share. -/
def writeLatency (ingress : Bool) (ti : BitVec 64) : Call H Unit := do
  let conf ← getConf
  let words := latencyWords (latencyEntry ingress conf.mode) ti
  writeCsr bus .proc0 (localLatency ingress) words.1
  writeCsr bus .proc0 (localLatencySns ingress) words.2

/-- `lan80xx_ts_csr_set_priv`, for `LAN80XX_PHY_TS_ING_LATENCY_SET`. -/
def ingLatencyCsrSet : Call H Unit := do
  basePortGet
  let conf ← getConf
  writeLatency bus true conf.ingressLatency

/-- `lan80xx_ts_csr_set_priv`, for `LAN80XX_PHY_TS_EGR_LATENCY_SET`, which also loads the values. -/
def egrLatencyCsrSet : Call H Unit := do
  basePortGet
  let conf ← getConf
  writeLatency bus false conf.egressLatency
  let value ← readCsr bus .proc0 (tspCtrl false)
  writeCsr bus .proc0 (tspCtrl false) (value ||| 1)

/-- `lan80xx_phy_ts_ingress_latency_set` -/
def ingressLatencySet (latency : BitVec 64) : Call H Unit := do
  let conf ← getConf
  failIf (conf.portTsInitDone = false) rcError
  modifyConf fun c => { c with ingressLatency := latency }
  onError (ingLatencyCsrSet bus) fun s => { s with conf := { s.conf with ingressLatency := conf.ingressLatency } }

/-- `lan80xx_phy_ts_egress_latency_set` -/
def egressLatencySet (latency : BitVec 64) : Call H Unit := do
  let conf ← getConf
  failIf (conf.portTsInitDone = false) rcError
  modifyConf fun c => { c with egressLatency := latency }
  onError (egrLatencyCsrSet bus) fun s => { s with conf := { s.conf with egressLatency := conf.egressLatency } }

/-- The latency of a direction is set. -/
def latencySet (ingress : Bool) (latency : BitVec 64) : Call H Unit :=
  if ingress then ingressLatencySet bus latency else egressLatencySet bus latency

end Calls

/-! ## The timestamp processor -/

/-- The words of the registers, and the pair that the processor goes on with in each direction. -/
structure ProcView where
  words : TsReg → BitVec 32
  active : Bool → BitVec 32 × BitVec 32

/-- The pair in the registers. -/
def ProcView.pair (m : ProcView) (ingress : Bool) : BitVec 32 × BitVec 32 :=
  (m.words (.csr .proc0 (localLatency ingress)), m.words (.csr .proc0 (localLatencySns ingress)))

/-- A write. With `INGR_LOAD_DELAYS` or `EGR_LOAD_DELAYS` the processor loads the pair. -/
def procWrite (r : TsReg) (v : BitVec 32) (m : ProcView) : ProcView where
  words := Function.update m.words r v
  active d := if r = .csr .proc0 (tspCtrl d) ∧ v.getLsbD 0 = true then m.pair d else m.active d

/-- What a read may show: the load bits are one-shot. -/
def procShows (r : TsReg) (v : BitVec 32) (m : ProcView) : Prop :=
  ∀ b, (∃ d, r = .csr .proc0 (tspCtrl d)) ∧ b = 0 ∨ v.getLsbD b = (m.words r).getLsbD b

/-- A 1588 block with its timestamp processor. -/
abbrev ProcBus (H : Type) := ViewBus TsReg 32 procWrite procShows H

/-- One in which every access succeeds. -/
def procBench : ProcBus ProcView where
  rd r h := (.ok (h.words r), h)
  wr r v h := (.ok (), procWrite r v h)
  drift h h' := h' = h
  view h := h
  view_rd _ _ := rfl
  rd_ok _ _ _ hv _ := by cases hv; exact Or.inr rfl
  view_wr_ok _ _ _ _ := rfl
  view_wr_error _ _ _ _ hw := by cases hw
  view_drift _ _ hd := hd

/-! ## What is programmed and what is loaded -/

section Runs

variable {H : Type} (pb : ProcBus H) {h₀ : H} {c : TsConf} {m : ProcView} {s s' : Dev TsConf H} {u : Unit}
  {ingress : Bool} {ti : BitVec 64}

/-- A pair is written. -/
def writePair (ingress : Bool) (w : BitVec 32 × BitVec 32) (m : ProcView) : ProcView :=
  procWrite (.csr .proc0 (localLatencySns ingress)) w.2 (procWrite (.csr .proc0 (localLatency ingress)) w.1 m)

theorem writePair_pair (w : BitVec 32 × BitVec 32) : (writePair ingress w m).pair ingress = w := by
  cases ingress <;> rfl

theorem writePair_active (w : BitVec 32 × BitVec 32) : (writePair ingress w m).active ingress = m.active ingress := by
  cases ingress <;> rfl

theorem leads_writeLatency : Leads (Sees pb h₀ c m) (writeLatency pb.toBus ingress ti)
    fun _ => Sees pb h₀ c (writePair ingress (latencyWords (latencyEntry ingress c.mode) ti) m) :=
  leads_getConf pb ((leads_write pb _ _).bind fun _ => leads_write pb _ _)

/-- The ingress pair is written, and the processor goes on with the old one. -/
theorem ingress_run (h : ingressLatencySet pb.toBus ti s = .ok u s') :
    (pb.view s'.hw).pair true = latencyWords (latencyEntry true s.conf.mode) ti ∧
      (pb.view s'.hw).active true = (pb.view s.hw).active true := by
  have hrun : Leads (Sees pb s.hw s.conf (pb.view s.hw)) (ingressLatencySet pb.toBus ti) fun _ =>
      Sees pb s.hw { s.conf with ingressLatency := ti }
        (writePair true (latencyWords (latencyEntry true s.conf.mode) ti) (pb.view s.hw)) := by
    refine leads_getConf pb (leads_failIf pb fun _ => (leads_modifyConf pb _).bind fun _ => Ends.onError ?_ fun _ h => h)
    exact leads_basePortGet pb (leads_getConf pb (leads_writeLatency pb))
  obtain ⟨-, -, hm⟩ := hrun.ok (sees_start pb s) h
  rw [hm]
  exact ⟨writePair_pair _, writePair_active _⟩

/-- The egress pair is written and loaded. -/
theorem egress_run (h : egressLatencySet pb.toBus ti s = .ok u s') :
    (pb.view s'.hw).pair false = latencyWords (latencyEntry false s.conf.mode) ti ∧
      (pb.view s'.hw).active false = (pb.view s'.hw).pair false := by
  have hrun : Leads (Sees pb s.hw s.conf (pb.view s.hw)) (egressLatencySet pb.toBus ti) fun _ s' =>
      ∃ v, Sees pb s.hw { s.conf with egressLatency := ti } (procWrite (.csr .proc0 (tspCtrl false)) (v ||| 1)
        (writePair false (latencyWords (latencyEntry false s.conf.mode) ti) (pb.view s.hw))) s' := by
    refine leads_getConf pb (leads_failIf pb fun _ => (leads_modifyConf pb _).bind fun _ => Ends.onError ?_ fun _ h => h)
    refine leads_basePortGet pb (leads_getConf pb ((leads_writeLatency pb).bind fun _ => ?_))
    refine leads_read_shown pb _ fun v _ => (leads_write pb _ _).weaken (fun _ _ hs => ⟨v, hs⟩) fun _ h => h
  obtain ⟨v, -, -, hm⟩ := hrun.ok (sees_start pb s) h
  have hload : (v ||| 1).getLsbD 0 = true := by
    rw [BitVec.getLsbD_or]
    exact Bool.or_true _
  rw [hm]
  exact ⟨rfl, if_pos ⟨rfl, hload⟩⟩

theorem pair_latencySet {p : PortMode} (hp : s.conf.mode = p) (h : latencySet pb.toBus ingress ti s = .ok u s') :
    (pb.view s'.hw).pair ingress = latencyWords (latencyEntry ingress p) ti := by
  subst hp
  cases ingress with
  | true => exact (ingress_run pb h).1
  | false => exact (egress_run pb h).1

end Runs

/-- A latency that is set: the correction is the distance from the default with its sign, the other bits of the default
stay, and the processor goes on with the new pair. -/
structure LatencyRight (ingress : Bool) (p : PortMode) (ti : BitVec 64) : Prop where
  correction : ∀ {H : Type} (pb : ProcBus H) (s s' : Dev TsConf H) (u : Unit), s.conf.mode = p →
    latencySet pb.toBus ingress ti s = .ok u s' →
      correction ((pb.view s'.hw).pair ingress) = ti.toInt - (defaultLatency (latencyEntry ingress p)).toNat
  upper : ∀ {H : Type} (pb : ProcBus H) (s s' : Dev TsConf H) (u : Unit), s.conf.mode = p →
    latencySet pb.toBus ingress ti s = .ok u s' →
      ((pb.view s'.hw).pair ingress).1 &&& 0x7FFF00 = (latencyEntry ingress p).1 &&& 0x7FFF00
  loaded : ∀ {H : Type} (pb : ProcBus H) (s s' : Dev TsConf H) (u : Unit), s.conf.mode = p →
    latencySet pb.toBus ingress ti s = .ok u s' → (pb.view s'.hw).active ingress = (pb.view s'.hw).pair ingress

/-- Two latencies that are set: each is right, and they are told apart. -/
structure LatenciesRight (ingress : Bool) (p : PortMode) (t₁ t₂ : BitVec 64) : Prop where
  first : LatencyRight ingress p t₁
  second : LatencyRight ingress p t₂
  distinct : t₁ ≠ t₂ → ∀ {H : Type} (pb : ProcBus H) (s s' t t' : Dev TsConf H) (u v : Unit), s.conf.mode = p →
    t.conf.mode = p → latencySet pb.toBus ingress t₁ s = .ok u s' → latencySet pb.toBus ingress t₂ t = .ok v t' →
      (pb.view s'.hw).pair ingress ≠ (pb.view t'.hw).pair ingress

/-- A port in a mode, whose processor goes on with the pair `w`. -/
def procStart (p : PortMode) (w : BitVec 32 × BitVec 32) : Dev TsConf ProcView := ⟨{ mode := p }, fun _ => 0, fun _ => w⟩

section Right

variable {p : PortMode} {ingress : Bool} {ti t₁ t₂ : BitVec 64}

theorem latencySet_procStart (w : BitVec 32 × BitVec 32) :
    ∃ s', latencySet procBench.toBus ingress ti (procStart p w) = .ok () s' := by
  cases ingress with
  | true => exact ⟨_, rfl⟩
  | false => exact ⟨_, rfl⟩

/-- The ingress pair is not loaded. -/
theorem not_latencyRight_ingress : ¬LatencyRight true p ti := by
  intro h
  obtain ⟨s, hset⟩ := @latencySet_procStart p true ti (0, 0)
  obtain ⟨s', hset'⟩ := @latencySet_procStart p true ti (1, 0)
  have hload := h.loaded procBench _ _ _ rfl hset
  have hload' := h.loaded procBench _ _ _ rfl hset'
  have hrun : _ ∧ _ := ingress_run procBench hset
  have hrun' : _ ∧ _ := ingress_run procBench hset'
  rw [hrun.1, hrun.2] at hload
  rw [hrun'.1, hrun'.2] at hload'
  have hpair : ((0, 0) : BitVec 32 × BitVec 32) = (1, 0) := hload.trans hload'.symm
  exact absurd hpair (by decide)

/-- A latency below the default gets the sign of one above it. -/
theorem LatencyRight.default_le (h : LatencyRight ingress p ti) (hf : Fits (latencyEntry ingress p) ti) :
    ((defaultLatency (latencyEntry ingress p)).toNat : Int) ≤ ti.toInt := by
  obtain ⟨s, hset⟩ := @latencySet_procStart p ingress ti (0, 0)
  have hp : (procStart p (0, 0)).conf.mode = p := rfl
  have hc := h.correction procBench _ _ _ hp hset
  rw [pair_latencySet procBench hp hset, correction_latencyWords (latencyEntry_mem ingress p) hf] at hc
  omega

/-- An egress latency from the default on is right. -/
theorem latencyRight_egress (hf : Fits (latencyEntry false p) ti)
    (hle : ((defaultLatency (latencyEntry false p)).toNat : Int) ≤ ti.toInt) : LatencyRight false p ti where
  correction pb s s' u hp hset := by
    rw [pair_latencySet pb hp hset, correction_latencyWords (latencyEntry_mem false p) hf]
    omega
  upper pb s s' u hp hset := by
    rw [pair_latencySet pb hp hset]
    exact upper_latencyWords (latencyEntry_mem false p) hf
  loaded pb s s' u hp hset := (egress_run pb hset).2

/-- **Latencies are right in egress, from the default on.** -/
theorem latencies_right_iff (ingress : Bool) (p : PortMode) (t₁ t₂ : BitVec 64)
    (hf₁ : Fits (latencyEntry ingress p) t₁) (hf₂ : Fits (latencyEntry ingress p) t₂) :
    LatenciesRight ingress p t₁ t₂ ↔
      ingress = false ∧ ((defaultLatency (latencyEntry ingress p)).toNat : Int) ≤ t₁.toInt ∧
        ((defaultLatency (latencyEntry ingress p)).toNat : Int) ≤ t₂.toInt := by
  constructor
  · intro h
    refine ⟨?_, h.first.default_le hf₁, h.second.default_le hf₂⟩
    cases ingress with
    | true => exact absurd h.first not_latencyRight_ingress
    | false => rfl
  · rintro ⟨rfl, hle₁, hle₂⟩
    refine ⟨latencyRight_egress hf₁ hle₁, latencyRight_egress hf₂ hle₂, ?_⟩
    intro hne H pb s s' t t' u v hs ht hset hset' heq
    rw [pair_latencySet pb hs hset, pair_latencySet pb ht hset',
      latencyWords_eq_iff (latencyEntry_mem false p) hf₁ hf₂] at heq
    exact hne (BitVec.eq_of_toInt_eq (by omega))

/-- A 10G port, whose default is 1181 in units of 1/256 ns. -/
theorem latencies_right_iff_10g :
    (latencyEntry false ⟨.s10G, false, .pcsRetimer⟩ = (0x1104, 0x9d) ∧
      Fits (latencyEntry false ⟨.s10G, false, .pcsRetimer⟩) 1200 ∧
        Fits (latencyEntry false ⟨.s10G, false, .pcsRetimer⟩) 1300) ∧
      (LatenciesRight false ⟨.s10G, false, .pcsRetimer⟩ 1200 1300 ↔ false = false ∧
        ((defaultLatency (latencyEntry false ⟨.s10G, false, .pcsRetimer⟩)).toNat : Int) ≤ (1200 : BitVec 64).toInt ∧
          ((defaultLatency (latencyEntry false ⟨.s10G, false, .pcsRetimer⟩)).toNat : Int) ≤ (1300 : BitVec 64).toInt) :=
  ⟨⟨by decide, by decide +kernel, by decide +kernel⟩,
    latencies_right_iff false _ 1200 1300 (by decide +kernel) (by decide +kernel)⟩

/-- Latencies on both sides of the default, and equally far from it. -/
theorem not_latencies_right : ¬∀ (ingress : Bool) (p : PortMode) (t₁ t₂ : BitVec 64),
    Fits (latencyEntry ingress p) t₁ → Fits (latencyEntry ingress p) t₂ → LatenciesRight ingress p t₁ t₂ := by
  intro h
  have hright := h false ⟨.s10G, false, .pcsRetimer⟩ 1180 1182 (by decide +kernel) (by decide +kernel)
  exact absurd (hright.first.default_le (by decide +kernel)) (by decide +kernel)

end Right

end Lan80xx.Ts
