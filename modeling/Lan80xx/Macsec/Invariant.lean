import Lan80xx.Macsec.Secy
import Lan80xx.Lib.Ownership

/-!
# MACsec: the tables stay linked

`Inv` is what every reachable state of the software tables satisfies: SA records and receive-channel entries are owned
one to one (`Ownership.Owned`), pointers occur only where they may, and the CAM indexes of the channels are distinct.
The updates of SecYs and of the transmit side keep it.
-/

namespace Lan80xx.Macsec

open Ownership MacsecConf

/-! ## Owners -/

/-- A place that points to an SA record: an association number of a channel (numbered by SecY for transmit, by entry of
`rx_sc` for receive), or a match pattern of a SecY. -/
inductive SaPlace
  | sa (n an : Nat)
  | pattern (i : Nat) (a : MatchAction)
  deriving DecidableEq

namespace MacsecConf

variable (c : MacsecConf)

/-- The record a place points to. -/
def saOwner : Direction → SaPlace → Option Nat
  | .egress, .sa i an => (c.secy i).txSc.sa an
  | .ingress, .sa p an => (c.rxSc p).sa an
  | d, .pattern i a =>
    if (c.secy i).inUse = true ∧ (c.secy i).patternRecord a d ≠ notInUse then some ((c.secy i).patternRecord a d)
    else none

/-- The entry of `rx_sc` that a SecY's channel points to. -/
def scOwner (isc : Nat × Nat) : Option Nat := (c.secy isc.1).rxSc isc.2

@[simp] theorem saOwner_egress_sa (i an : Nat) : c.saOwner .egress (.sa i an) = (c.secy i).txSc.sa an := rfl

@[simp] theorem saOwner_ingress_sa (p an : Nat) : c.saOwner .ingress (.sa p an) = (c.rxSc p).sa an := rfl

theorem saOwner_pattern (d : Direction) (i : Nat) (a : MatchAction) :
    c.saOwner d (.pattern i a) =
      if (c.secy i).inUse = true ∧ (c.secy i).patternRecord a d ≠ notInUse then
        some ((c.secy i).patternRecord a d) else none := by
  cases d <;> rfl

end MacsecConf

/-! ## The invariant -/

/-- The transmit SAs and the egress patterns. -/
structure TxInv (c : MacsecConf) : Prop where
  tx : Owned (c.saOwner .egress) fun r => (c.txSa r).inUse = true
  tx_place : ∀ {i an r}, (c.secy i).txSc.sa an = some r → an < saPerScMax ∧ (c.secy i).txSc.inUse = true
  tx_record : ∀ {i an r}, (c.secy i).txSc.sa an = some r → (c.txSa r).record = r
  tx_enabled : ∀ {r}, (c.txSa r).enabled = true → ∃ i an, (c.secy i).txSc.sa an = some r
  tx_encoding : ∀ i, (c.secy i).txSc.encodingSa < saPerScMax
  tx_lt : ∀ {r}, (c.txSa r).inUse = true → r < maxSa

/-- The receive SAs and the ingress patterns. -/
structure RxInv (c : MacsecConf) : Prop where
  rx : Owned (c.saOwner .ingress) fun r => (c.rxSa r).inUse = true
  rx_place : ∀ {p an r}, (c.rxSc p).sa an = some r → an < saPerScMax ∧ (c.rxSc p).inUse = true
  rx_record : ∀ {p an r}, (c.rxSc p).sa an = some r → (c.rxSa r).record = r
  rx_lt : ∀ {r}, (c.rxSa r).inUse = true → r < maxSa

/-- The receive channels. -/
structure ScInv (c : MacsecConf) : Prop where
  sc : Owned c.scOwner fun p => (c.rxSc p).inUse = true
  sc_place : ∀ {i sc p}, (c.secy i).rxSc sc = some p → sc < maxRxSc
  sc_lt : ∀ {p}, (c.rxSc p).inUse = true → p < maxRxSc
  sci_inj : ∀ {p q}, (c.rxSc p).inUse = true → (c.rxSc q).inUse = true → (c.rxSc p).sci = (c.rxSc q).sci → p = q
  hw_lt : ∀ {p}, (c.rxSc p).inUse = true → (c.rxSc p).hwScIdx < maxRxSc
  hw_used : ∀ {p}, (c.rxSc p).inUse = true → c.rxScHwIdxInUse.getLsbD (c.rxSc p).hwScIdx = true
  hw_inj : ∀ {p q}, (c.rxSc p).inUse = true → (c.rxSc q).inUse = true →
    (c.rxSc p).hwScIdx = (c.rxSc q).hwScIdx → p = q

/-- The tables are linked. -/
structure Inv (c : MacsecConf) : Prop extends TxInv c, RxInv c, ScInv c where
  secy_lt : ∀ {i}, (c.secy i).inUse = true → i < maxSecy
  txSc_secy : ∀ {i}, (c.secy i).txSc.inUse = true → (c.secy i).inUse = true
  sc_secy : ∀ {i sc p}, (c.secy i).rxSc sc = some p → (c.secy i).inUse = true

theorem inv_init (glb : Glb) : Inv (macsecInit glb) where
  tx := Owned.empty (fun s => by cases s <;> simp [macsecInit, saOwner_pattern]) fun r => by simp [macsecInit]
  rx := Owned.empty (fun s => by cases s <;> simp [macsecInit, saOwner_pattern]) fun r => by simp [macsecInit]
  sc := Owned.empty (fun s => by simp [macsecInit, scOwner]) fun r => by simp [macsecInit]
  tx_place h := by simp [macsecInit] at h
  tx_record h := by simp [macsecInit] at h
  tx_enabled h := by simp [macsecInit] at h
  tx_encoding i := by simp [macsecInit, saPerScMax]
  rx_place h := by simp [macsecInit] at h
  rx_record h := by simp [macsecInit] at h
  sc_place h := by simp [macsecInit] at h
  sc_lt h := by simp [macsecInit] at h
  sci_inj h := by simp [macsecInit] at h
  hw_lt h := by simp [macsecInit] at h
  hw_used h := by simp [macsecInit] at h
  hw_inj h := by simp [macsecInit] at h
  tx_lt h := by simp [macsecInit] at h
  rx_lt h := by simp [macsecInit] at h
  secy_lt h := by simp [macsecInit] at h
  txSc_secy h := by simp [macsecInit] at h
  sc_secy h := by simp [macsecInit] at h

/-! ### Updates elsewhere -/

section Congr

variable {c c' : MacsecConf}

theorem saOwner_pattern_congr {d : Direction} {i : Nat} {a : MatchAction} (hu : (c'.secy i).inUse = (c.secy i).inUse)
    (hp : (c'.secy i).patternRecord a d = (c.secy i).patternRecord a d) :
    c'.saOwner d (.pattern i a) = c.saOwner d (.pattern i a) := by
  rw [saOwner_pattern, saOwner_pattern, hu, hp]

theorem TxInv.congr (h : TxInv c) (hs : ∀ i, (c'.secy i).txSc.sa = (c.secy i).txSc.sa)
    (hsu : ∀ i an r, (c.secy i).txSc.sa an = some r → (c'.secy i).txSc.inUse = true)
    (he : ∀ i, (c'.secy i).txSc.encodingSa < saPerScMax)
    (hp : ∀ i a, c'.saOwner .egress (.pattern i a) = c.saOwner .egress (.pattern i a))
    (hu : ∀ r, (c'.txSa r).inUse = (c.txSa r).inUse) (hr : ∀ r, (c'.txSa r).record = (c.txSa r).record)
    (hen : ∀ r, (c'.txSa r).enabled = true → (c.txSa r).enabled = true ∨ ∃ i an, (c.secy i).txSc.sa an = some r) :
    TxInv c' where
  tx := h.tx.congr (fun s => by
    cases s with
    | sa i an => simp [hs]
    | pattern i a => exact hp i a) fun r => by rw [hu]
  tx_place {i an r} hir := by
    rw [hs] at hir
    exact ⟨(h.tx_place hir).1, hsu i an r hir⟩
  tx_record {i an r} := by
    rw [hs, hr]
    exact h.tx_record
  tx_enabled {r} hr := by
    simp only [hs]
    exact (hen r hr).elim h.tx_enabled id
  tx_encoding := he
  tx_lt {r} := by
    rw [hu]
    exact h.tx_lt

/-- The transmit side does not look at the receive tables. -/
theorem TxInv.of_eq (h : TxInv c) (hs : c'.secy = c.secy) (ht : c'.txSa = c.txSa) : TxInv c' :=
  h.congr (fun j => by rw [hs]) (fun j an r hj => by rw [hs]; exact (h.tx_place hj).2)
    (fun j => by rw [hs]; exact h.tx_encoding j) (fun j a => saOwner_pattern_congr (by rw [hs]) (by rw [hs]))
    (fun r => by rw [ht]) (fun r => by rw [ht]) fun r hr => Or.inl (by rwa [ht] at hr)

theorem RxInv.congr (h : RxInv c) (hs : ∀ p, (c'.rxSc p).sa = (c.rxSc p).sa)
    (hu : ∀ p, (c.rxSc p).inUse = true → (c'.rxSc p).inUse = true)
    (hp : ∀ i a, c'.saOwner .ingress (.pattern i a) = c.saOwner .ingress (.pattern i a))
    (hi : ∀ r, (c'.rxSa r).inUse = (c.rxSa r).inUse) (hr : ∀ r, (c'.rxSa r).record = (c.rxSa r).record) :
    RxInv c' where
  rx := h.rx.congr (fun s => by
    cases s with
    | sa p an => simp [hs]
    | pattern i a => exact hp i a) fun r => by rw [hi]
  rx_place {p an r} hpr := by
    rw [hs] at hpr
    exact ⟨(h.rx_place hpr).1, hu p (h.rx_place hpr).2⟩
  rx_record {p an r} := by
    rw [hs, hr]
    exact h.rx_record
  rx_lt {r} := by
    rw [hi]
    exact h.rx_lt

theorem ScInv.congr (h : ScInv c) (hs : ∀ i, (c'.secy i).rxSc = (c.secy i).rxSc)
    (hu : ∀ p, (c'.rxSc p).inUse = (c.rxSc p).inUse) (hsci : ∀ p, (c'.rxSc p).sci = (c.rxSc p).sci)
    (hhw : ∀ p, (c'.rxSc p).hwScIdx = (c.rxSc p).hwScIdx) (hb : c'.rxScHwIdxInUse = c.rxScHwIdxInUse) :
    ScInv c' where
  sc := h.sc.congr (fun s => by simp [scOwner, hs]) fun p => by rw [hu]
  sc_place {i sc p} := by
    rw [hs]
    exact h.sc_place
  sc_lt {p} := by
    rw [hu]
    exact h.sc_lt
  sci_inj {p q} := by
    rw [hu, hu, hsci, hsci]
    exact h.sci_inj
  hw_lt {p} := by
    rw [hu, hhw]
    exact h.hw_lt
  hw_used {p} := by
    rw [hu, hhw, hb]
    exact h.hw_used
  hw_inj {p q} := by
    rw [hu, hu, hhw, hhw]
    exact h.hw_inj

/-- The SecYs in use, and their channels, are as before. -/
theorem Inv.of_parts (h : Inv c) (htx : TxInv c') (hrx : RxInv c') (hsc : ScInv c')
    (hin : ∀ j, (c'.secy j).inUse = (c.secy j).inUse) (htu : ∀ j, (c'.secy j).txSc.inUse = (c.secy j).txSc.inUse)
    (hptr : ∀ j, (c'.secy j).rxSc = (c.secy j).rxSc) : Inv c' where
  toTxInv := htx
  toRxInv := hrx
  toScInv := hsc
  secy_lt {j} := by
    rw [hin]
    exact h.secy_lt
  txSc_secy {j} := by
    rw [hin, htu]
    exact h.txSc_secy
  sc_secy {j sc p} := by
    rw [hin, hptr]
    exact h.sc_secy

/-- Transmit SAs have changed. -/
theorem Inv.of_tx (h : Inv c) (htx : TxInv c') (hin : ∀ j, (c'.secy j).inUse = (c.secy j).inUse)
    (htu : ∀ j, (c'.secy j).txSc.inUse = (c.secy j).txSc.inUse) (hptr : ∀ j, (c'.secy j).rxSc = (c.secy j).rxSc)
    (hp : ∀ j a, c'.saOwner .ingress (.pattern j a) = c.saOwner .ingress (.pattern j a)) (hsc : c'.rxSc = c.rxSc)
    (hsa : c'.rxSa = c.rxSa) (hb : c'.rxScHwIdxInUse = c.rxScHwIdxInUse) : Inv c' :=
  h.of_parts htx
    (h.toRxInv.congr (fun _ => by rw [hsc]) (fun _ => by rw [hsc]; exact id) hp (fun _ => by rw [hsa]) fun _ => by rw [hsa])
    (h.toScInv.congr hptr (fun _ => by rw [hsc]) (fun _ => by rw [hsc]) (fun _ => by rw [hsc]) hb) hin htu hptr

/-- Receive channels or their SAs have changed. -/
theorem Inv.of_rx (h : Inv c) (hs : c'.secy = c.secy) (ht : c'.txSa = c.txSa) (hrx : RxInv c') (hsc : ScInv c') : Inv c' :=
  h.of_parts (h.toTxInv.of_eq hs ht) hrx hsc (fun _ => by rw [hs]) (fun _ => by rw [hs]) fun _ => by rw [hs]

end Congr

/-! ### Records taken and given up -/

section Record

variable {c c' : MacsecConf} {u : SaPlace} {e : Nat}

/-- A place takes a record that was free. -/
theorem TxInv.link (h : TxInv c) (hu : c.saOwner .egress u = none) (he : (c.txSa e).inUse = false) (hlt : e < maxSa)
    (hown : ∀ s, c'.saOwner .egress s = if s = u then some e else c.saOwner .egress s)
    (hother : ∀ r ≠ e, c'.txSa r = c.txSa r) (hused : (c'.txSa e).inUse = true) (hrec : (c'.txSa e).record = e)
    (hen : (c'.txSa e).enabled = true → (c.txSa e).enabled = true ∨ ∃ i an, u = .sa i an)
    (hplace : ∀ {i an r}, (c'.secy i).txSc.sa an = some r → an < saPerScMax ∧ (c'.secy i).txSc.inUse = true)
    (henc : ∀ i, (c'.secy i).txSc.encodingSa = (c.secy i).txSc.encodingSa) : TxInv c' where
  tx := by
    refine h.tx.link (e := e) hu (by simp [he]) (by simp [hown]) (fun s hs => by simp [hown, hs]) fun r => ?_
    by_cases hr : r = e
    · simp [hr, hused]
    · simp [hother r hr, hr]
  tx_place := hplace
  tx_record {i an r} hr := by
    have hs := hown (.sa i an)
    rw [saOwner_egress_sa, hr] at hs
    split at hs
    · cases hs
      exact hrec
    · have hne : r ≠ e := by
        rintro rfl
        simp [h.tx.live (s := .sa i an) hs.symm] at he
      rw [hother r hne]
      exact h.tx_record hs.symm
  tx_enabled {r} hr := by
    have hold (hr : (c.txSa r).enabled = true) : ∃ i an, (c'.secy i).txSc.sa an = some r := by
      obtain ⟨i, an, hi⟩ := h.tx_enabled hr
      refine ⟨i, an, ?_⟩
      rw [← saOwner_egress_sa, hown, if_neg, saOwner_egress_sa, hi]
      rintro rfl
      rw [saOwner_egress_sa, hi] at hu
      cases hu
    by_cases hre : r = e
    · subst hre
      rcases hen hr with hr | ⟨i, an, rfl⟩
      · exact hold hr
      · exact ⟨i, an, by rw [← saOwner_egress_sa, hown, if_pos rfl]⟩
    · rw [hother r hre] at hr
      exact hold hr
  tx_encoding i := by
    rw [henc]
    exact h.tx_encoding i
  tx_lt {r} hr := by
    by_cases hre : r = e
    · rwa [hre]
    · rw [hother r hre] at hr
      exact h.tx_lt hr

/-- A place gives up its record. -/
theorem TxInv.unlink (h : TxInv c) (hu : c.saOwner .egress u = some e)
    (hown : ∀ s, c'.saOwner .egress s = if s = u then none else c.saOwner .egress s)
    (hother : ∀ r ≠ e, c'.txSa r = c.txSa r) (hused : (c'.txSa e).inUse = false)
    (hen : (c'.txSa e).enabled = true → (c.txSa e).enabled = true ∧ ∀ i an, u ≠ .sa i an)
    (hplace : ∀ {i an r}, (c'.secy i).txSc.sa an = some r → an < saPerScMax ∧ (c'.secy i).txSc.inUse = true)
    (henc : ∀ i, (c'.secy i).txSc.encodingSa = (c.secy i).txSc.encodingSa) : TxInv c' where
  tx := by
    refine h.tx.unlink hu (by simp [hown]) (fun s hs => by simp [hown, hs]) fun r => ?_
    by_cases hr : r = e
    · simp [hr, hused]
    · simp [hother r hr, hr]
  tx_place := hplace
  tx_record {i an r} hr := by
    have hs := hown (.sa i an)
    rw [saOwner_egress_sa, hr] at hs
    split at hs
    · cases hs
    · next hne =>
      have hre : r ≠ e := by
        rintro rfl
        exact hne (h.tx.inj hs.symm hu)
      rw [hother r hre]
      exact h.tx_record hs.symm
  tx_enabled {r} hr := by
    have hold (hr : (c.txSa r).enabled = true) (hne : ∀ i an, (c.secy i).txSc.sa an = some r → u ≠ .sa i an) :
        ∃ i an, (c'.secy i).txSc.sa an = some r := by
      obtain ⟨i, an, hi⟩ := h.tx_enabled hr
      exact ⟨i, an, by rw [← saOwner_egress_sa, hown, if_neg (hne i an hi).symm, saOwner_egress_sa, hi]⟩
    by_cases hre : r = e
    · subst hre
      exact hold (hen hr).1 fun i an _ => (hen hr).2 i an
    · rw [hother r hre] at hr
      refine hold hr fun i an hi hui => hre ?_
      rw [hui, saOwner_egress_sa, hi] at hu
      exact Option.some.inj hu
  tx_encoding i := by
    rw [henc]
    exact h.tx_encoding i
  tx_lt {r} hr := by
    by_cases hre : r = e
    · rw [hre, hused] at hr
      cases hr
    · rw [hother r hre] at hr
      exact h.tx_lt hr

theorem RxInv.link (h : RxInv c) (hu : c.saOwner .ingress u = none) (he : (c.rxSa e).inUse = false) (hlt : e < maxSa)
    (hown : ∀ s, c'.saOwner .ingress s = if s = u then some e else c.saOwner .ingress s)
    (hother : ∀ r ≠ e, c'.rxSa r = c.rxSa r) (hused : (c'.rxSa e).inUse = true) (hrec : (c'.rxSa e).record = e)
    (hplace : ∀ {p an r}, (c'.rxSc p).sa an = some r → an < saPerScMax ∧ (c'.rxSc p).inUse = true) : RxInv c' where
  rx := by
    refine h.rx.link (e := e) hu (by simp [he]) (by simp [hown]) (fun s hs => by simp [hown, hs]) fun r => ?_
    by_cases hr : r = e
    · simp [hr, hused]
    · simp [hother r hr, hr]
  rx_place := hplace
  rx_record {p an r} hr := by
    have hs := hown (.sa p an)
    rw [saOwner_ingress_sa, hr] at hs
    split at hs
    · cases hs
      exact hrec
    · have hne : r ≠ e := by
        rintro rfl
        simp [h.rx.live (s := .sa p an) hs.symm] at he
      rw [hother r hne]
      exact h.rx_record hs.symm
  rx_lt {r} hr := by
    by_cases hre : r = e
    · rwa [hre]
    · rw [hother r hre] at hr
      exact h.rx_lt hr

theorem RxInv.unlink (h : RxInv c) (hu : c.saOwner .ingress u = some e)
    (hown : ∀ s, c'.saOwner .ingress s = if s = u then none else c.saOwner .ingress s)
    (hother : ∀ r ≠ e, c'.rxSa r = c.rxSa r) (hused : (c'.rxSa e).inUse = false)
    (hplace : ∀ {p an r}, (c'.rxSc p).sa an = some r → an < saPerScMax ∧ (c'.rxSc p).inUse = true) : RxInv c' where
  rx := by
    refine h.rx.unlink hu (by simp [hown]) (fun s hs => by simp [hown, hs]) fun r => ?_
    by_cases hr : r = e
    · simp [hr, hused]
    · simp [hother r hr, hr]
  rx_place := hplace
  rx_record {p an r} hr := by
    have hs := hown (.sa p an)
    rw [saOwner_ingress_sa, hr] at hs
    split at hs
    · cases hs
    · next hne =>
      have hre : r ≠ e := by
        rintro rfl
        exact hne (h.rx.inj hs.symm hu)
      rw [hother r hre]
      exact h.rx_record hs.symm
  rx_lt {r} hr := by
    by_cases hre : r = e
    · rw [hre, hused] at hr
      cases hr
    · rw [hother r hre] at hr
      exact h.rx_lt hr

end Record

/-! ### SecYs -/

section Secy

variable {c : MacsecConf} {i : Nat}

/-- The two SecYs differ in settings only. -/
structure Secy.SameLinks (s s' : Secy) : Prop where
  inUse : s'.inUse = s.inUse
  portId : s'.sci.portId = s.sci.portId
  serviceId : s'.serviceId = s.serviceId
  rxSc : s'.rxSc = s.rxSc
  txSc : s'.txSc = s.txSc
  patternRecord : s'.patternRecord = s.patternRecord

theorem Inv.setSecy (h : Inv c) {f : Secy → Secy} (hf : (c.secy i).SameLinks (f (c.secy i))) :
    Inv (c.setSecy i f) := by
  have htx := setSecy_part (f := f) Secy.txSc hf.txSc
  have hrx := setSecy_part (f := f) Secy.rxSc hf.rxSc
  have hu := setSecy_part (f := f) Secy.inUse hf.inUse
  have hp := setSecy_part (f := f) Secy.patternRecord hf.patternRecord
  exact
    { toTxInv := h.toTxInv.congr (fun j => by rw [htx]) (fun j an r hj => by rw [htx]; exact (h.tx_place hj).2)
        (fun j => by rw [htx]; exact h.tx_encoding j) (fun j a => saOwner_pattern_congr (hu j) (by rw [hp]))
        (fun _ => rfl) (fun _ => rfl) fun _ => Or.inl
      toRxInv := h.toRxInv.congr (fun _ => rfl) (fun _ => id) (fun j a => saOwner_pattern_congr (hu j) (by rw [hp]))
        (fun _ => rfl) fun _ => rfl
      toScInv := h.toScInv.congr (fun j => hrx j) (fun _ => rfl) (fun _ => rfl) (fun _ => rfl) rfl
      secy_lt := fun {j} => by rw [hu]; exact h.secy_lt
      txSc_secy := fun {j} => by rw [hu, htx]; exact h.txSc_secy
      sc_secy := fun {j sc p} => by rw [hu, hrx]; exact h.sc_secy }

/-- A SecY that is not in use has no channels. -/
theorem Inv.not_inUse (h : Inv c) (hi : (c.secy i).inUse = false) :
    (c.secy i).txSc.inUse = false ∧ (∀ an, (c.secy i).txSc.sa an = none) ∧ ∀ sc, (c.secy i).rxSc sc = none := by
  have htx : (c.secy i).txSc.inUse = false := by
    cases hu : (c.secy i).txSc.inUse with
    | false => rfl
    | true => simp [h.txSc_secy hu] at hi
  refine ⟨htx, fun an => ?_, fun sc => ?_⟩
  · cases hs : (c.secy i).txSc.sa an with
    | none => rfl
    | some r => simp [(h.tx_place hs).2] at htx
  · cases hs : (c.secy i).rxSc sc with
    | none => rfl
    | some p => simp [h.sc_secy hs] at hi

theorem saOwner_pattern_of_not_inUse {d : Direction} {a : MatchAction} (hi : (c.secy i).inUse = false) :
    c.saOwner d (.pattern i a) = none := by
  simp [saOwner_pattern, hi]

theorem saOwner_pattern_of_notInUse {d : Direction} {a : MatchAction}
    (hi : (c.secy i).patternRecord a d = notInUse) : c.saOwner d (.pattern i a) = none := by
  simp [saOwner_pattern, hi]

theorem Inv.openSecy (h : Inv c) (hi : (c.secy i).inUse = false) (hlt : i < maxSecy) (port : MacsecPort)
    (conf : SecyConf) : Inv (openSecy i c port conf) := by
  obtain ⟨hnt, -, hnr⟩ := h.not_inUse hi
  have htx : ∀ j, ((MacsecConf.openSecy i c port conf).secy j).txSc = (c.secy j).txSc := setSecy_part Secy.txSc rfl
  have hrx : ∀ j, ((MacsecConf.openSecy i c port conf).secy j).rxSc = (c.secy j).rxSc := setSecy_part Secy.rxSc rfl
  have hne : ∀ j, j ≠ i → (MacsecConf.openSecy i c port conf).secy j = c.secy j := fun j hj => by
    simp [MacsecConf.openSecy, setSecy_secy, hj]
  have hp : ∀ d j a, (MacsecConf.openSecy i c port conf).saOwner d (.pattern j a) = c.saOwner d (.pattern j a) := by
    intro d j a
    by_cases hj : j = i
    · subst hj
      rw [saOwner_pattern_of_not_inUse hi, saOwner_pattern_of_notInUse]
      simp [MacsecConf.openSecy]
    · exact saOwner_pattern_congr (by rw [hne j hj]) (by rw [hne j hj])
  exact
    { toTxInv := h.toTxInv.congr (fun j => by rw [htx]) (fun j an r hj => by rw [htx]; exact (h.tx_place hj).2)
        (fun j => by rw [htx]; exact h.tx_encoding j) (hp _) (fun _ => rfl) (fun _ => rfl) fun _ => Or.inl
      toRxInv := h.toRxInv.congr (fun _ => rfl) (fun _ => id) (hp _) (fun _ => rfl) fun _ => rfl
      toScInv := h.toScInv.congr hrx (fun _ => rfl) (fun _ => rfl) (fun _ => rfl) rfl
      secy_lt := fun {j} hj => by
        by_cases hji : j = i
        · rwa [hji]
        · rw [hne j hji] at hj
          exact h.secy_lt hj
      txSc_secy := fun {j} hj => by
        rw [htx] at hj
        have hji : j ≠ i := by
          rintro rfl
          simp [hnt] at hj
        rw [hne j hji]
        exact h.txSc_secy hj
      sc_secy := fun {j sc p} hj => by
        rw [hrx] at hj
        have hji : j ≠ i := by
          rintro rfl
          simp [hnr] at hj
        rw [hne j hji]
        exact h.sc_secy hj }

theorem Inv.clearSecy (h : Inv c) (htx : (c.secy i).txSc.inUse = false) (hrx : ∀ sc, (c.secy i).rxSc sc = none)
    (hpat : ∀ a d, (c.secy i).patternRecord a d = notInUse) : Inv (clearSecy i c) := by
  have hsa : ∀ an, (c.secy i).txSc.sa an = none := fun an => by
    cases hs : (c.secy i).txSc.sa an with
    | none => rfl
    | some r => simp [(h.tx_place hs).2] at htx
  have hne : ∀ j, j ≠ i → (MacsecConf.clearSecy i c).secy j = c.secy j := fun j hj => by
    simp [MacsecConf.clearSecy, setSecy_secy, hj]
  have hself : (MacsecConf.clearSecy i c).secy i = {} := by simp [MacsecConf.clearSecy]
  have hp : ∀ d j a, (MacsecConf.clearSecy i c).saOwner d (.pattern j a) = c.saOwner d (.pattern j a) := by
    intro d j a
    by_cases hj : j = i
    · subst hj
      rw [saOwner_pattern_of_notInUse (hpat a d), saOwner_pattern_of_not_inUse]
      rw [hself]
    · exact saOwner_pattern_congr (by rw [hne j hj]) (by rw [hne j hj])
  have hs : ∀ j, ((MacsecConf.clearSecy i c).secy j).txSc.sa = (c.secy j).txSc.sa := fun j => by
    by_cases hj : j = i
    · subst hj
      funext an
      rw [hself, hsa an]
    · rw [hne j hj]
  have hr : ∀ j, ((MacsecConf.clearSecy i c).secy j).rxSc = (c.secy j).rxSc := fun j => by
    by_cases hj : j = i
    · subst hj
      funext sc
      rw [hself, hrx sc]
    · rw [hne j hj]
  exact
    { toTxInv := h.toTxInv.congr hs
        (fun j an r hjr => by
          have hj : j ≠ i := by
            rintro rfl
            simp [hsa] at hjr
          rw [hne j hj]
          exact (h.tx_place hjr).2)
        (fun j => by
          by_cases hj : j = i
          · rw [hj, hself]
            decide
          · rw [hne j hj]
            exact h.tx_encoding j)
        (hp _) (fun _ => rfl) (fun _ => rfl) fun _ => Or.inl
      toRxInv := h.toRxInv.congr (fun _ => rfl) (fun _ => id) (hp _) (fun _ => rfl) fun _ => rfl
      toScInv := h.toScInv.congr hr (fun _ => rfl) (fun _ => rfl) (fun _ => rfl) rfl
      secy_lt := fun {j} hj => by
        by_cases hji : j = i
        · subst hji
          simp [hself] at hj
        · rw [hne j hji] at hj
          exact h.secy_lt hj
      txSc_secy := fun {j} hj => by
        by_cases hji : j = i
        · subst hji
          simp [hself] at hj
        · rw [hne j hji] at hj ⊢
          exact h.txSc_secy hj
      sc_secy := fun {j sc p} hj => by
        by_cases hji : j = i
        · subst hji
          simp [hself] at hj
        · rw [hne j hji] at hj ⊢
          exact h.sc_secy hj }

end Secy

/-! ### The transmit channel -/

section Tx

variable {c : MacsecConf} {i an r : Nat}

/-- An update of the transmit channel that keeps its SAs. -/
theorem Inv.setTxSc (h : Inv c) {g : TxSc → TxSc} (hsa : (g (c.secy i).txSc).sa = (c.secy i).txSc.sa)
    (hu : ∀ an r, (c.secy i).txSc.sa an = some r → (g (c.secy i).txSc).inUse = true)
    (he : (g (c.secy i).txSc).encodingSa < saPerScMax)
    (hsec : (g (c.secy i).txSc).inUse = true → (c.secy i).inUse = true) :
    Inv (c.setSecy i fun s => { s with txSc := g s.txSc }) := by
  have hs : ∀ j, ((c.setSecy i fun s => { s with txSc := g s.txSc }).secy j).txSc.sa = (c.secy j).txSc.sa :=
    setSecy_part (fun s => s.txSc.sa) hsa
  have hrx : ∀ j, ((c.setSecy i fun s => { s with txSc := g s.txSc }).secy j).rxSc = (c.secy j).rxSc :=
    setSecy_part Secy.rxSc rfl
  have hin : ∀ j, ((c.setSecy i fun s => { s with txSc := g s.txSc }).secy j).inUse = (c.secy j).inUse :=
    setSecy_part Secy.inUse rfl
  have hpr : ∀ j, ((c.setSecy i fun s => { s with txSc := g s.txSc }).secy j).patternRecord = (c.secy j).patternRecord :=
    setSecy_part Secy.patternRecord rfl
  have hp : ∀ d j a, (c.setSecy i fun s => { s with txSc := g s.txSc }).saOwner d (.pattern j a) =
      c.saOwner d (.pattern j a) := fun d j a => saOwner_pattern_congr (hin j) (by rw [hpr])
  exact
    { toTxInv := h.toTxInv.congr hs
        (fun j an r hj => by
          rw [setSecy_secy]
          split
          · next hji => exact hu an r (hji ▸ hj)
          · exact (h.tx_place hj).2)
        (fun j => by
          rw [setSecy_secy]
          split
          · exact he
          · exact h.tx_encoding j)
        (hp _) (fun _ => rfl) (fun _ => rfl) fun _ => Or.inl
      toRxInv := h.toRxInv.congr (fun _ => rfl) (fun _ => id) (hp _) (fun _ => rfl) fun _ => rfl
      toScInv := h.toScInv.congr hrx (fun _ => rfl) (fun _ => rfl) (fun _ => rfl) rfl
      secy_lt := fun {j} => by
        rw [hin]
        exact h.secy_lt
      txSc_secy := fun {j} hj => by
        rw [hin]
        rw [setSecy_secy] at hj
        split at hj
        · next hji => exact hji ▸ hsec hj
        · exact h.txSc_secy hj
      sc_secy := fun {j sc p} => by
        rw [hin, hrx]
        exact h.sc_secy }

theorem Inv.openTxSc (h : Inv c) (hi : (c.secy i).inUse = true) : Inv (openTxSc i c) :=
  h.setTxSc (g := fun t => { t with inUse := true }) rfl (fun _ _ _ => rfl) (h.tx_encoding i) fun _ => hi

theorem Inv.clearTxSc (h : Inv c) (hsa : ∀ an, (c.secy i).txSc.sa an = none) : Inv (clearTxSc i c) :=
  h.setTxSc (g := fun _ => {}) (funext fun an => (hsa an).symm) (fun an r har => by simp [hsa] at har) (by decide)
    fun hu => by simp at hu

/-- Flags of a record in use: only an SA that a channel points to is enabled. -/
theorem Inv.setTxSa (h : Inv c) {f : TxSa → TxSa} (hu : (f (c.txSa r)).inUse = (c.txSa r).inUse)
    (hr : (f (c.txSa r)).record = (c.txSa r).record)
    (hen : (f (c.txSa r)).enabled = true → (c.txSa r).enabled = true ∨ ∃ i an, (c.secy i).txSc.sa an = some r) :
    Inv (c.setTxSa r f) := by
  have htx : TxInv (c.setTxSa r f) := by
    refine h.toTxInv.congr (fun _ => rfl) (fun _ _ _ hj => (h.tx_place hj).2) h.tx_encoding (fun _ _ => rfl)
      (setTxSa_part TxSa.inUse hu) (setTxSa_part TxSa.record hr) fun r' hr' => ?_
    rw [setTxSa_txSa] at hr'
    split at hr'
    · next hrr => exact hrr ▸ hen hr'
    · exact Or.inl hr'
  exact h.of_tx htx (fun _ => rfl) (fun _ => rfl) (fun _ => rfl) (fun _ _ => rfl) rfl rfl rfl

theorem Inv.setTxSaAt (h : Inv c) {f : TxSa → TxSa} (hu : ∀ sa, (f sa).inUse = sa.inUse)
    (hr : ∀ sa, (f sa).record = sa.record) : Inv (c.setTxSaAt i an f) := by
  unfold MacsecConf.setTxSaAt
  cases hs : (c.secy i).txSc.sa an with
  | none => exact h
  | some r => exact h.setTxSa (hu _) (hr _) fun _ => Or.inr ⟨i, an, hs⟩

theorem Inv.activateTxSa (h : Inv c) (han : an < saPerScMax) (hu : (c.secy i).txSc.inUse = true) (oldAn : Nat)
    (b : Bool) : Inv (activateTxSa i c an oldAn b) := by
  have hsecy : ∀ c' : MacsecConf, ∀ an f, (c'.setTxSaAt i an f).secy = c'.secy := fun c' an f => by
    unfold MacsecConf.setTxSaAt
    split <;> rfl
  have h₁ : Inv (if b then c.setTxSaAt i oldAn fun sa => { sa with enabled := false, statusInUse := false } else c) ∧
      (if b then c.setTxSaAt i oldAn fun sa => { sa with enabled := false, statusInUse := false } else c).secy =
        c.secy := by
    cases b with
    | false => exact ⟨h, rfl⟩
    | true => exact ⟨h.setTxSaAt (fun _ => rfl) fun _ => rfl, hsecy _ _ _⟩
  obtain ⟨h₁, hs₁⟩ := h₁
  have h₂ : Inv (MacsecConf.setTxSaAt _ i an fun sa => { sa with enabled := true, statusInUse := true }) :=
    h₁.setTxSaAt (fun _ => rfl) fun _ => rfl
  refine h₂.setTxSc (g := fun t => { t with encodingSa := an, encipheringSa := an }) rfl ?_ han ?_
  · intro _ _ _
    simpa only [hsecy, hs₁] using hu
  · intro _
    simpa only [hsecy, hs₁] using h.txSc_secy hu

theorem Inv.disableTxSa (h : Inv c) : Inv (disableTxSa i c an) := by
  refine Inv.setTxSaAt ?_ (fun _ => rfl) fun _ => rfl
  refine h.setTxSc (g := fun t => if an = t.encodingSa then { t with encodingSa := 0, encipheringSa := 0 } else t)
    ?_ (fun an' r hr => ?_) ?_ fun hu => ?_
  · split <;> rfl
  · have := (h.tx_place hr).2
    split <;> exact this
  · split
    · exact Nat.zero_lt_succ 3
    · exact h.tx_encoding i
  · refine h.txSc_secy ?_
    split at hu <;> exact hu

theorem linkTxSa_sa {nextPn : PktNum} {b : Bool} {sak : Sak} {ssci : Option Ssci} (j an' : Nat) :
    ((linkTxSa i c an r nextPn b sak ssci).secy j).txSc.sa an' =
      if j = i ∧ an' = an then some r else (c.secy j).txSc.sa an' := by
  simp only [linkTxSa, setTxSa_secy, setSecy_secy]
  by_cases hj : j = i
  · subst hj
    simp only [if_true, true_and, Function.update_apply]
  · simp [hj]

theorem linkTxSa_part {β : Type} {nextPn : PktNum} {b : Bool} {sak : Sak} {ssci : Option Ssci} (g : Secy → β)
    (hg : ∀ s sa, g { s with txSc := { s.txSc with sa := sa } } = g s) (j : Nat) :
    g ((linkTxSa i c an r nextPn b sak ssci).secy j) = g (c.secy j) := by
  rw [linkTxSa, setTxSa_secy]
  exact setSecy_part g (hg _ _) j

theorem linkTxSa_other {nextPn : PktNum} {b : Bool} {sak : Sak} {ssci : Option Ssci} {r' : Nat} (hr : r' ≠ r) :
    (linkTxSa i c an r nextPn b sak ssci).txSa r' = c.txSa r' := by
  simp [linkTxSa, setTxSa_txSa, hr]

/-- An SA record is taken for an association number of the transmit channel. -/
theorem Inv.linkTxSa (h : Inv c) (han : an < saPerScMax) (hu : (c.secy i).txSc.inUse = true)
    (hsa : (c.secy i).txSc.sa an = none) (hr : (c.txSa r).inUse = false) (hlt : r < maxSa) (nextPn : PktNum) (b : Bool)
    (sak : Sak) (ssci : Option Ssci) : Inv (linkTxSa i c an r nextPn b sak ssci) := by
  have hin : ∀ j, ((MacsecConf.linkTxSa i c an r nextPn b sak ssci).secy j).inUse = (c.secy j).inUse :=
    linkTxSa_part Secy.inUse fun _ _ => rfl
  have hpr : ∀ j, ((MacsecConf.linkTxSa i c an r nextPn b sak ssci).secy j).patternRecord = (c.secy j).patternRecord :=
    linkTxSa_part Secy.patternRecord fun _ _ => rfl
  have htu : ∀ j, ((MacsecConf.linkTxSa i c an r nextPn b sak ssci).secy j).txSc.inUse = (c.secy j).txSc.inUse :=
    linkTxSa_part (fun s => s.txSc.inUse) fun _ _ => rfl
  have hp : ∀ d j a, (MacsecConf.linkTxSa i c an r nextPn b sak ssci).saOwner d (.pattern j a) =
      c.saOwner d (.pattern j a) := fun d j a => saOwner_pattern_congr (hin j) (by rw [hpr])
  refine h.of_tx ?_ hin htu (linkTxSa_part Secy.rxSc fun _ _ => rfl) (hp _) rfl rfl rfl
  refine h.toTxInv.link (u := .sa i an) hsa hr hlt (fun s => ?_) (fun _ => linkTxSa_other) ?_ ?_
    (fun _ => Or.inr ⟨i, an, rfl⟩) (fun {j an' r'} hj => ?_) (linkTxSa_part (fun s => s.txSc.encodingSa) fun _ _ => rfl)
  · cases s with
    | sa j an' => simp only [saOwner_egress_sa, linkTxSa_sa, SaPlace.sa.injEq]
    | pattern j a => simpa using hp _ j a
  · simp [MacsecConf.linkTxSa, setTxSa_txSa]
  · simp [MacsecConf.linkTxSa, setTxSa_txSa]
  · rw [htu]
    rw [linkTxSa_sa] at hj
    split at hj
    · next hja => exact hja.1 ▸ hja.2 ▸ ⟨han, hu⟩
    · exact h.tx_place hj

theorem freeTxSa_sa (j an' : Nat) :
    ((freeTxSa i c an r).secy j).txSc.sa an' = if j = i ∧ an' = an then none else (c.secy j).txSc.sa an' := by
  simp only [freeTxSa, setSecy_secy, setTxSa_secy]
  by_cases hj : j = i
  · subst hj
    simp only [if_true, true_and, Function.update_apply]
  · simp [hj]

theorem freeTxSa_txSa (r' : Nat) : (freeTxSa i c an r).txSa r' = if r' = r then {} else c.txSa r' := by
  simp [freeTxSa, setTxSa_txSa]

/-- An association number of the transmit channel gives up its record. -/
theorem Inv.freeTxSa (h : Inv c) (hsa : (c.secy i).txSc.sa an = some r) : Inv (freeTxSa i c an r) := by
  have hin : ∀ j, ((MacsecConf.freeTxSa i c an r).secy j).inUse = (c.secy j).inUse := setSecy_part Secy.inUse rfl
  have hpr : ∀ j, ((MacsecConf.freeTxSa i c an r).secy j).patternRecord = (c.secy j).patternRecord :=
    setSecy_part Secy.patternRecord rfl
  have htu : ∀ j, ((MacsecConf.freeTxSa i c an r).secy j).txSc.inUse = (c.secy j).txSc.inUse :=
    setSecy_part (fun s => s.txSc.inUse) rfl
  have hp : ∀ d j a, (MacsecConf.freeTxSa i c an r).saOwner d (.pattern j a) = c.saOwner d (.pattern j a) :=
    fun d j a => saOwner_pattern_congr (hin j) (by rw [hpr])
  refine h.of_tx ?_ hin htu (setSecy_part Secy.rxSc rfl) (hp _) rfl rfl rfl
  refine h.toTxInv.unlink (u := .sa i an) hsa (fun s => ?_) (fun r' hr' => ?_) ?_ (fun hr' => ?_)
    (fun {j an' r'} hj => ?_) (setSecy_part (fun s => s.txSc.encodingSa) rfl)
  · cases s with
    | sa j an' => simp only [saOwner_egress_sa, freeTxSa_sa, SaPlace.sa.injEq]
    | pattern j a => simpa using hp _ j a
  · rw [freeTxSa_txSa, if_neg hr']
  · rw [freeTxSa_txSa, if_pos rfl]
  · rw [freeTxSa_txSa, if_pos rfl] at hr'
    cases hr'
  · rw [htu]
    rw [freeTxSa_sa] at hj
    split at hj
    · cases hj
    · exact h.tx_place hj

end Tx

end Lan80xx.Macsec
