import Lan80xx.Macsec.PacketNumbers

/-!
# MACsec: packet numbers set and read back

`TxRoundTrip` and `RxRoundTrip` say that the two calls that return a packet number return the one that was set.
`TxReadsBack` and `RxReadsBack` say when that is so.
-/

namespace Lan80xx.Macsec

open Fallible RegBus MacsecConf

variable {H : Type}

/-! ## Packet numbers of a suite -/

/-- The packet number that a union holds under a suite. -/
def PktNum.num (xpn : Bool) (p : PktNum) : PktNum := if xpn then p else p.pn.setWidth 64

/-- The packet number that a transmit status gives. -/
def TxSaStatus.num (xpn : Bool) (st : TxSaStatus) : PktNum := if xpn then st.pnNextPn else st.nextPn.setWidth 64

/-- The lowest packet number that a receive status gives. -/
def RxSaStatus.num (xpn : Bool) (st : RxSaStatus) : PktNum := if xpn then st.pnLowestPn else st.lowestPn.setWidth 64

/-- The suite of the port's SecY has 64-bit packet numbers. -/
def MacsecConf.xpnOf (c : MacsecConf) (port : MacsecPort) : Bool :=
  match portFind c port with
  | some i => (c.secy i).conf.currentCipherSuite.xpn
  | none => false

/-- The calls with 32-bit packet numbers, and those with the union. -/
inductive PnApi
  | sa
  | seca
  deriving DecidableEq, Repr

section Calls

variable (bus : PortBus H) (port : MacsecPort)

/-- The packet number of `tx_sa_get` or `tx_seca_get`. -/
def txPnGet (api : PnApi) (an : Nat) : Call H PktNum :=
  match api with
  | .sa => do return (← txSaGet port an).nextPn.setWidth 64
  | .seca => do return (← txSecaGet port an).nextPn

/-- The packet number of `rx_sa_get` or `rx_seca_get`; `lowestPn` is what the caller's union holds before. -/
def rxPnGet (api : PnApi) (sci : Sci) (an : Nat) (lowestPn : PktNum) : Call H PktNum :=
  match api with
  | .sa => do return (← rxSaGet bus port sci an).lowestPn.setWidth 64
  | .seca => do return (← rxSecaGet bus port sci an lowestPn).lowestPn

/-- From here, `tx_sa_get` and then `tx_sa_status_get` return this packet number. -/
def TxRoundTrip (api : PnApi) (an : Nat) (nextPn : PktNum) (s : Dev MacsecConf H) : Prop :=
  let xpn := s.conf.xpnOf port
  ∃ p t st t', txPnGet port api an s = .ok p t ∧ txSaStatusGet bus port an t = .ok st t' ∧
    p.num xpn = nextPn.num xpn ∧ st.num xpn = nextPn.num xpn

/-- From here, `rx_sa_get` and then `rx_sa_status_get` return this packet number. -/
def RxRoundTrip (api : PnApi) (sci : Sci) (an : Nat) (lowestPn : PktNum) (s : Dev MacsecConf H) : Prop :=
  let xpn := s.conf.xpnOf port
  ∀ buf, ∃ p t st t', rxPnGet bus port api sci an buf s = .ok p t ∧ rxSaStatusGet bus port sci an t = .ok (some st) t' ∧
    p.num xpn = lowestPn.num xpn ∧ st.num xpn = lowestPn.num xpn

end Calls

/-! ## What the calls return -/

section Returns

variable {rf : PortRegs H} {port : MacsecPort} {i an sc p r : Nat} {sci : Sci} {s s' : Dev MacsecConf H} {x : PktNum}

theorem portCheck_eq (hf : Found s.conf port i) : (portCheck port : Call H Nat) s = .ok i s := by
  rw [portCheck, bind_of_ok (show getConf s = .ok s.conf s from rfl), failIf_bind_of_not (by rw [hf.1]; decide), hf.2]
  rfl

theorem xpnOf_eq {c : MacsecConf} (hf : portFind c port = some i) :
    c.xpnOf port = (c.secy i).conf.currentCipherSuite.xpn := by
  rw [MacsecConf.xpnOf, hf]

theorem txSaFind_eq (hf : Found s.conf port i) (han : an < saPerScMax) (hsa : (s.conf.secy i).txSc.sa an = some r) :
    (txSaFind port an : Call H TxSa) s = .ok (s.conf.txSa r) s := by
  rw [txSaFind, macsecAssert, failIf_bind_of_not (Nat.not_le.mpr han), bind_of_ok (portCheck_eq hf),
    bind_of_ok (show getConf s = .ok s.conf s from rfl), failIf_bind_of_not (by simp [hsa]), txSaAt_eq hsa]
  rfl

/-- `tx_sa_get` returns the number that was counted down for the chip, `tx_seca_get` the one that was set. -/
theorem txPnGet_eq (hf : Found s.conf port i) (han : an < saPerScMax) (hsa : (s.conf.secy i).txSc.sa an = some r)
    (api : PnApi) : (txPnGet port api an : Call H PktNum) s =
      .ok (match api with | .sa => (s.conf.txSa r).nextPn.setWidth 64 | .seca => (s.conf.txSa r).pnNextPn) s := by
  cases api with
  | sa =>
    rw [txPnGet, txSaGet, bind_of_ok (a := ⟨_, _, _, _, _⟩) (t := s) (by rw [bind_of_ok (txSaFind_eq hf han hsa)]; rfl)]
    rfl
  | seca =>
    rw [txPnGet, txSecaGet, bind_of_ok (a := ⟨_, _, _, _, _⟩) (t := s) (by rw [bind_of_ok (txSaFind_eq hf han hsa)]; rfl)]
    rfl

/-- A call that reads the packet number of a record and then returns, whatever was read. -/
theorem csrRdPn_bind_iff {d : Direction} {xpn : Bool} {β : Type} {f : PktNum → Call H β}
    {G : β → Dev MacsecConf H → Prop} {Y : PktNum → Dev MacsecConf H → Prop} (hr : r < 128)
    (hf : ∀ v t, t.conf = s.conf → ∃ b t', f v t = .ok b t' ∧ (G b t' ↔ Y v t)) :
    (∃ b s', (csrRdPn rf.toBus d r xpn >>= f) s = .ok b s' ∧ G b s') ↔
      rf.Answers (pnRegs d r xpn) s.hw ∧
        Y (pnValue rf s.hw d r xpn) { s with hw := rf.afterReads (pnRegs d r xpn) s.hw } := by
  obtain ⟨b', t', hb', hg'⟩ := hf (pnValue rf s.hw d r xpn) { s with hw := rf.afterReads (pnRegs d r xpn) s.hw } rfl
  constructor
  · rintro ⟨b, s', hb, hg⟩
    obtain ⟨v, t, hv, hb⟩ := (bind_ok_iff _ _ _ _ _).mp hb
    obtain ⟨ha, rfl, rfl⟩ := (csrRdPn_ok_iff hr).mp hv
    rw [hb'] at hb
    cases hb
    exact ⟨ha, hg'.mp hg⟩
  · rintro ⟨ha, hy⟩
    exact ⟨b', t', (bind_ok_iff _ _ _ _ _).mpr ⟨_, _, (csrRdPn_ok_iff hr).mpr ⟨ha, rfl, rfl⟩, hb'⟩, hg'.mpr hy⟩

/-- The packet number that `tx_sa_status_get` makes of the number read. -/
def txStatusPn (xpn : Bool) (v : PktNum) : PktNum := if xpn then v else (v.pn + 1).setWidth 64

theorem setTxSaAt_txSaAt {c : MacsecConf} {f : TxSa → TxSa} (hsa : (c.secy i).txSc.sa an = some r) :
    (c.setTxSaAt i an f).txSaAt i an = f (c.txSa r) := by
  have hset : c.setTxSaAt i an f = c.setTxSa r f := by rw [setTxSaAt, hsa]
  rw [hset, txSaAt_eq (r := r) (by simpa using hsa), setTxSa_txSa, if_pos rfl]

theorem txSaStatusGet_iff (hf : Found s.conf port i) (han : an < saPerScMax) (hsa : (s.conf.secy i).txSc.sa an = some r)
    (hr : r < 128) (hrec : (s.conf.txSa r).record = r) :
    (∃ st s', txSaStatusGet rf.toBus port an s = .ok st s' ∧ st.num (s.conf.xpnOf port) = x) ↔
      rf.Answers (pnRegs .egress r (s.conf.xpnOf port)) s.hw ∧
        txStatusPn (s.conf.xpnOf port) (pnValue rf s.hw .egress r (s.conf.xpnOf port)) = x := by
  rw [xpnOf_eq hf.2]
  rw [txSaStatusGet, bind_of_ok (portCheck_eq hf), txSaStatusGet_, bind_assoc,
    bind_of_ok (show getConf s = .ok s.conf s from rfl), bind_assoc, failIf_bind_of_not (by simp [hsa, Nat.not_le.mpr han]),
    bind_assoc, txSaAt_eq hsa, hrec]
  refine csrRdPn_bind_iff (Y := fun v _ => txStatusPn _ v = x) hr fun v t ht => ?_
  cases (s.conf.secy i).conf.currentCipherSuite.xpn with
  | true =>
    refine ⟨_, _, rfl, ?_⟩
    simp only [TxSaStatus.num, txStatusPn, ↓reduceIte, ht, setTxSaAt_txSaAt hsa]
  | false =>
    refine ⟨_, _, rfl, ?_⟩
    simp only [TxSaStatus.num, txStatusPn, Bool.false_eq_true, ↓reduceIte, ht, setTxSaAt_txSaAt hsa]

/-- The lowest packet number that `rx_sa_get` makes of the number read. -/
def rxGetPn (xpn : Bool) (window : Nat) (v : PktNum) : PktNum :=
  if xpn then if window < v.toNat then v - BitVec.ofNat 64 window else 0
  else (if window < v.pn.toNat then v.pn - BitVec.ofNat 32 window else 0).setWidth 64

/-- The lowest packet number that `rx_sa_status_get` makes of the number read. -/
def rxStatusPn (xpn : Bool) (window : Nat) (v : PktNum) : PktNum :=
  if xpn then if v.toNat ≤ window then 1 else v - BitVec.ofNat 64 window
  else (if v.pn.toNat ≤ window then 1 else v.pn - BitVec.ofNat 32 window).setWidth 64

/-- What a getter hands out of a packet number. -/
def PnApi.cut (api : PnApi) (p : PktNum) : PktNum :=
  match api with
  | .sa => p.pn.setWidth 64
  | .seca => p

/-- The SA of a receive channel that the calls below are asked for. -/
structure RxSaThere (c : MacsecConf) (port : MacsecPort) (sci : Sci) (an i sc p r : Nat) : Prop where
  found : Found c port i
  channel : c.scFromSciGet i sci = some sc
  place : (c.secy i).rxSc sc = some p
  an_lt : an < saPerScMax
  sa : (c.rxSc p).sa an = some r
  record : (c.rxSa r).record = r
  inUse : (c.rxSa r).inUse = true
  lt : r < 128

theorem setPn_pn (q : PktNum) (v : BitVec 32) : (q.setPn v).pn = v := by
  have happ : BitVec.setWidth 32 ((q >>> 32).setWidth 32 ++ v) = v := by rw [BitVec.setWidth_append, dif_pos (by decide), BitVec.setWidth_eq]
  exact happ

theorem pn_setWidth (v : BitVec 32) : PktNum.pn (v.setWidth 64) = v := by
  rw [PktNum.pn]
  bv_omega

theorem rxPnGet_iff {Q : Dev MacsecConf H → Prop} {buf : PktNum} {api : PnApi}
    (h : RxSaThere s.conf port sci an i sc p r) :
    (∃ q t, rxPnGet rf.toBus port api sci an buf s = .ok q t ∧ q.num (s.conf.xpnOf port) = x ∧ Q t) ↔
      rf.Answers (pnRegs .ingress r (s.conf.xpnOf port)) s.hw ∧
        api.cut (rxGetPn (s.conf.xpnOf port) (s.conf.rxSc p).conf.replayWindow
          (pnValue rf s.hw .ingress r (s.conf.xpnOf port))) = x ∧
        Q { s with hw := rf.afterReads (pnRegs .ingress r (s.conf.xpnOf port)) s.hw } := by
  rw [xpnOf_eq h.found.2]
  have hscf : (scFromSci i sci : Call H Nat) s = .ok sc s := by
    rw [scFromSci, bind_of_ok (show getConf s = .ok s.conf s from rfl), h.channel]
    rfl
  cases api with
  | sa =>
    rw [rxPnGet, rxSaGet, bind_assoc, bind_of_ok (portCheck_eq h.found), bind_assoc, rxSaGet_, bind_assoc,
      bind_of_ok hscf, bind_assoc, bind_of_ok (show getConf s = .ok s.conf s from rfl), bind_assoc, macsecAssert,
      failIf_bind_of_not (Nat.not_le.mpr h.an_lt), bind_assoc, rxScAt_eq h.place, failIf_bind_of_not (by simp [h.sa]),
      bind_assoc, rxSaAt_eq h.place h.sa, h.record]
    refine csrRdPn_bind_iff (Y := fun v t => PnApi.cut .sa (rxGetPn _ _ v) = x ∧ Q t) h.lt fun v t ht => ?_
    refine ⟨_, _, rfl, ?_⟩
    cases (s.conf.secy i).conf.currentCipherSuite.xpn <;>
      simp [PnApi.cut, rxGetPn, PktNum.num, setPn_pn, pn_setWidth]
  | seca =>
    rw [rxPnGet, rxSecaGet, bind_assoc, bind_of_ok (portCheck_eq h.found), rxSaGet_, bind_assoc,
      bind_of_ok hscf, bind_assoc, bind_of_ok (show getConf s = .ok s.conf s from rfl), bind_assoc, macsecAssert,
      failIf_bind_of_not (Nat.not_le.mpr h.an_lt), bind_assoc, rxScAt_eq h.place, failIf_bind_of_not (by simp [h.sa]),
      rxSaAt_eq h.place h.sa]
    simp only [h.record, bind_assoc]
    refine csrRdPn_bind_iff (Y := fun v t => PnApi.cut .seca (rxGetPn _ _ v) = x ∧ Q t) h.lt fun v t ht => ?_
    refine ⟨_, _, rfl, ?_⟩
    cases (s.conf.secy i).conf.currentCipherSuite.xpn <;>
      simp [PnApi.cut, rxGetPn, PktNum.num, setPn_pn]

theorem setRxSaAt_rxSaAt {c : MacsecConf} {f : RxSa → RxSa} (hp : (c.secy i).rxSc sc = some p)
    (hsa : (c.rxSc p).sa an = some r) : (c.setRxSaAt i sc an f).rxSaAt i sc an = f (c.rxSa r) := by
  have hset : c.setRxSaAt i sc an f = c.setRxSa r f := by rw [setRxSaAt, rxScAt_eq hp, hsa]
  rw [hset, rxSaAt_eq (p := p) (r := r) (by simpa using hp) (by simpa using hsa), setRxSa_rxSa, if_pos rfl]

theorem rxSaStatusGet_iff (h : RxSaThere s.conf port sci an i sc p r) :
    (∃ st t, rxSaStatusGet rf.toBus port sci an s = .ok (some st) t ∧ st.num (s.conf.xpnOf port) = x) ↔
      rf.Answers (pnRegs .ingress r (s.conf.xpnOf port)) s.hw ∧
        rxStatusPn (s.conf.xpnOf port) (s.conf.rxSc p).conf.replayWindow
          (pnValue rf s.hw .ingress r (s.conf.xpnOf port)) = x := by
  have hsome : (∃ st t, rxSaStatusGet rf.toBus port sci an s = .ok (some st) t ∧ st.num (s.conf.xpnOf port) = x) ↔
      ∃ o t, rxSaStatusGet rf.toBus port sci an s = .ok o t ∧ ∃ st, o = some st ∧ st.num (s.conf.xpnOf port) = x := by
    constructor
    · rintro ⟨st, t, hst, hx⟩
      exact ⟨_, t, hst, st, rfl, hx⟩
    · rintro ⟨_, t, hst, st, rfl, hx⟩
      exact ⟨st, t, hst, hx⟩
  rw [hsome, xpnOf_eq h.found.2, rxSaStatusGet, bind_of_ok (portCheck_eq h.found), rxSaStatusGet_,
    bind_of_ok (show getConf s = .ok s.conf s from rfl)]
  simp only [h.channel]
  rw [macsecAssert, failIf_bind_of_not (Nat.not_le.mpr h.an_lt), macsecAssert, rxScAt_eq h.place,
    failIf_bind_of_not (by simp [h.sa]), macsecAssert, rxSaAt_eq h.place h.sa, failIf_bind_of_not (by simp [h.inUse])]
  simp only [h.record]
  refine csrRdPn_bind_iff (Y := fun v _ => rxStatusPn _ _ v = x) h.lt fun v t ht => ?_
  cases (s.conf.secy i).conf.currentCipherSuite.xpn with
  | true =>
    refine ⟨_, _, rfl, ?_⟩
    simp only [RxSaStatus.num, rxStatusPn, ↓reduceIte, ht, setRxSaAt_rxSaAt h.place h.sa, Option.some.injEq,
      exists_eq_left']
  | false =>
    refine ⟨_, _, rfl, ?_⟩
    simp only [RxSaStatus.num, rxStatusPn, Bool.false_eq_true, ↓reduceIte, ht, setRxSaAt_rxSaAt h.place h.sa,
      Option.some.injEq, exists_eq_left']

end Returns

/-! ## The number that comes back -/

section Arithmetic

variable {xpn : Bool} {w : Nat} {v x : PktNum}

/-- Above the window both readers take it off. -/
theorem rx_above (hv : xpn = false → v.toNat < 2 ^ 32) (hw : w < v.toNat) :
    rxGetPn xpn w v = v - BitVec.ofNat 64 w ∧ rxStatusPn xpn w v = v - BitVec.ofNat 64 w := by
  cases xpn with
  | true => simp only [rxGetPn, rxStatusPn, ↓reduceIte, if_pos hw, if_neg (Nat.not_le.mpr hw), and_self]
  | false =>
    have hlt := hv rfl
    have hpn : v.pn.toNat = v.toNat := by
      rw [PktNum.pn, BitVec.toNat_setWidth, Nat.mod_eq_of_lt hlt]
    have hsub : (v.pn - BitVec.ofNat 32 w).setWidth 64 = v - BitVec.ofNat 64 w := by
      apply BitVec.eq_of_toNat_eq
      rw [BitVec.toNat_setWidth, BitVec.toNat_sub, BitVec.toNat_sub, BitVec.toNat_ofNat, BitVec.toNat_ofNat, hpn]
      omega
    simp only [rxGetPn, rxStatusPn, Bool.false_eq_true, ↓reduceIte, hpn, if_pos hw, if_neg (Nat.not_le.mpr hw), hsub,
      and_self]

/-- At the window or below it one of them says 0 and the other one 1. -/
theorem rx_below (hv : xpn = false → v.toNat < 2 ^ 32) (hw : ¬w < v.toNat) : rxGetPn xpn w v = 0 ∧ rxStatusPn xpn w v = 1 := by
  cases xpn with
  | true => simp only [rxGetPn, rxStatusPn, ↓reduceIte, if_neg hw, if_pos (Nat.not_lt.mp hw), and_self]
  | false =>
    have hpn : v.pn.toNat = v.toNat := by
      rw [PktNum.pn, BitVec.toNat_setWidth, Nat.mod_eq_of_lt (hv rfl)]
    simp only [rxGetPn, rxStatusPn, Bool.false_eq_true, ↓reduceIte, hpn, if_neg hw, if_pos (Nat.not_lt.mp hw)]
    exact ⟨rfl, rfl⟩

/-- The number below is another number. -/
theorem num_pred_ne : PktNum.num xpn ((x.pn - 1).setWidth 64) ≠ x.num xpn := by
  cases xpn <;> simp only [PktNum.num, PktNum.pn, Bool.false_eq_true, ↓reduceIte] <;> bv_omega

/-- Only a short number is counted up again. -/
theorem txStatusPn_pred : txStatusPn xpn (if xpn = true then x - 1 else (x.pn - 1).setWidth 64) = x.num xpn ↔
    xpn = false := by
  cases xpn <;> simp only [txStatusPn, PktNum.num, PktNum.pn, Bool.false_eq_true, ↓reduceIte]
  · simp only [iff_true]
    bv_omega
  · refine iff_of_false ?_ (by decide)
    bv_omega

/-- On page 0 an extended number comes back if it is positive and the sum with the window does not wrap. -/
theorem written_xpn : (w < (x + BitVec.ofNat 64 w).toNat ∧ x + BitVec.ofNat 64 w - BitVec.ofNat 64 w = x) ↔
    1 ≤ x.toNat ∧ x.toNat + w < 2 ^ 64 := by
  have hx := x.isLt
  have hsub : x + BitVec.ofNat 64 w - BitVec.ofNat 64 w = x := BitVec.add_sub_cancel x _
  rw [and_iff_left hsub, BitVec.toNat_add, BitVec.toNat_ofNat]
  omega

/-- On page 0 a short number comes back only without a window. -/
theorem written_short (hx : x.toNat < 2 ^ 32) : (w < x.toNat ∧ x - BitVec.ofNat 64 w = x) ↔ 1 ≤ x.toNat ∧ w = 0 := by
  constructor
  · rintro ⟨hw, h⟩
    have htoNat := congrArg BitVec.toNat h
    rw [BitVec.toNat_sub, BitVec.toNat_ofNat] at htoNat
    omega
  · rintro ⟨hx, rfl⟩
    exact ⟨hx, by simp⟩

theorem cut_iff {api : PnApi} {p : PktNum} (hp : p = x) : api.cut p = x ↔ (api = .sa → x.toNat < 2 ^ 32) := by
  subst hp
  cases api with
  | seca => simp [PnApi.cut]
  | sa =>
    simp only [PnApi.cut, PktNum.pn, forall_const]
    constructor
    · intro h
      rw [← h, BitVec.toNat_setWidth, BitVec.toNat_setWidth]
      omega
    · intro h
      apply BitVec.eq_of_toNat_eq
      rw [BitVec.toNat_setWidth, BitVec.toNat_setWidth]
      omega

/-- The two readers agree on a number exactly when what is read lies above the window and the number fits the getter. -/
theorem rx_agree {api : PnApi} (hv : xpn = false → v.toNat < 2 ^ 32) :
    (api.cut (rxGetPn xpn w v) = x ∧ rxStatusPn xpn w v = x) ↔
      (api = .sa → x.toNat < 2 ^ 32) ∧ w < v.toNat ∧ v - BitVec.ofNat 64 w = x := by
  by_cases hw : w < v.toNat
  · obtain ⟨hget, hstatus⟩ := rx_above hv hw
    rw [hget, hstatus]
    constructor
    · rintro ⟨hcut, hx⟩
      exact ⟨(cut_iff hx).mp hcut, hw, hx⟩
    · rintro ⟨hfit, -, hx⟩
      exact ⟨(cut_iff hx).mpr hfit, hx⟩
  · obtain ⟨hget, hstatus⟩ := rx_below hv hw
    rw [hget, hstatus]
    refine iff_of_false ?_ fun h => hw h.2.1
    rintro ⟨hcut, rfl⟩
    cases api <;> exact absurd hcut (by decide)

end Arithmetic

/-! ## After a set -/

section Written

variable {rf : PortRegs H} {c : MacsecConf} {i an sc p r : Nat} {s s' : Dev MacsecConf H} {port : MacsecPort} {h : H}
  {nextPn lowestPn : PktNum} {b : Bool} {sak : Sak} {ssci : Option Ssci} {sci : Sci}

theorem linkTxSa_conf (j : Nat) : ((linkTxSa i c an r nextPn b sak ssci).secy j).conf = (c.secy j).conf :=
  linkTxSa_part Secy.conf (fun _ _ => rfl) j

/-- The chip is given the number below the next one. -/
theorem pnAfter_tx : pnAfter rf h (linkTxSa i c an r nextPn b sak ssci) .egress r i an 0 =
    let xpn := (c.secy i).conf.currentCipherSuite.xpn
    if r < 64 then if xpn then nextPn - 1 else (nextPn.pn - 1).setWidth 64 else pnValue rf h .egress r xpn := by
  have hat : (linkTxSa i c an r nextPn b sak ssci).txSaAt i an = (linkTxSa i c an r nextPn b sak ssci).txSa r :=
    txSaAt_eq (by rw [linkTxSa_sa, if_pos ⟨rfl, rfl⟩])
  have hpn : ((linkTxSa i c an r nextPn b sak ssci).txSa r).nextPn = nextPn.pn - 1 ∧
      ((linkTxSa i c an r nextPn b sak ssci).txSa r).pnNextPn = nextPn := by
    simp [linkTxSa, setTxSa_txSa]
  have hlo : nextPn.setWidth 32 - 1 = (nextPn - 1).setWidth 32 := by bv_omega
  simp only [pnAfter, xformWord, linkTxSa_conf]
  cases (c.secy i).conf.currentCipherSuite.xpn with
  | true => simp only [↓reduceIte, getXformValue64, hat, hpn.2, hlo, pnJoin_split]
  | false => simp only [Bool.false_eq_true, ↓reduceIte, getXformValue, hat, hpn.1, pnJoin]

/-- The two words of the lowest number in the record; the window is on top only when the numbers are extended. -/
theorem xformWord_rx (hsc : c.scFromSciGet i sci = some sc) :
    let word := xformWord (linkRxSa i c sc an r lowestPn sak ssci) .ingress i an sc
    let start := lowestPn + BitVec.ofNat 64 (c.rxScAt i sc).conf.replayWindow
    if (c.secy i).conf.currentCipherSuite.xpn then word 14 = start.setWidth 32 ∧ word 15 = (start >>> 32).setWidth 32
    else word 14 = lowestPn.pn := by
  obtain ⟨p, hp, -, -⟩ := scFromSciGet_spec hsc
  have hp' : ((linkRxSa i c sc an r lowestPn sak ssci).secy i).rxSc sc = some p := by rw [linkRxSa_secy, hp]
  have hat : (linkRxSa i c sc an r lowestPn sak ssci).rxSaAt i sc an = (linkRxSa i c sc an r lowestPn sak ssci).rxSa r :=
    rxSaAt_eq hp' (by rw [linkRxSa_sa hp, if_pos ⟨rfl, rfl⟩])
  have hpn : ((linkRxSa i c sc an r lowestPn sak ssci).rxSa r).lowestPn = lowestPn.pn ∧
      ((linkRxSa i c sc an r lowestPn sak ssci).rxSa r).pnLowestPn = lowestPn := by
    simp [linkRxSa, setRxSa_rxSa]
  simp only [xformWord, linkRxSa_secy]
  cases (c.secy i).conf.currentCipherSuite.xpn with
  | true => simp only [↓reduceIte, getXformValue64, hat, hpn.2, linkRxSa_rxScAt_conf hsc, and_self]
  | false => simp only [Bool.false_eq_true, ↓reduceIte, getXformValue, hat, hpn.1]

/-- The chip is given the lowest number, and the window on top only when the numbers are extended. -/
theorem pnAfter_rx (hsc : c.scFromSciGet i sci = some sc) :
    pnAfter rf h (linkRxSa i c sc an r lowestPn sak ssci) .ingress r i an sc =
    let xpn := (c.secy i).conf.currentCipherSuite.xpn
    if r < 64 then
      if xpn then lowestPn + BitVec.ofNat 64 (c.rxScAt i sc).conf.replayWindow else lowestPn.pn.setWidth 64
    else pnValue rf h .ingress r xpn := by
  have hwords := @xformWord_rx c i an sc r lowestPn sak ssci sci hsc
  simp only [pnAfter, linkRxSa_secy]
  cases hx : (c.secy i).conf.currentCipherSuite.xpn with
  | true =>
    simp only [hx, ↓reduceIte] at hwords ⊢
    rw [hwords.1, hwords.2, pnJoin_split]
  | false =>
    simp only [hx, Bool.false_eq_true, ↓reduceIte] at hwords ⊢
    simp only [hwords, pnJoin, Bool.false_eq_true, ↓reduceIte]

theorem pnValue_short {d : Direction} : (pnValue rf h d r false).toNat < 2 ^ 32 := by
  simp only [pnValue, pnJoin, Bool.false_eq_true, ↓reduceIte, BitVec.toNat_setWidth]
  omega

theorem portCheck_ok (h : (portCheck port : Call H Nat) s = .ok i s') : Found s.conf port i ∧ s' = s := by
  have hfound : Ends (fun t => t = s) (portCheck port : Call H Nat) (fun i t => Found s.conf port i ∧ t = s)
      fun _ => True := by
    refine ends_getConf_bind (fun t ht => by rw [ht]) (Ends.failIf_bind (fun _ _ _ => trivial) fun hinit => ?_)
    cases hp : portFind s.conf port with
    | none => exact Ends.throw fun _ _ => trivial
    | some i => exact Ends.pure fun t ht => ⟨⟨Bool.eq_true_of_not_eq_false hinit, hp⟩, ht⟩
  exact hfound.ok rfl h

theorem txRoundTrip_iff {api : PnApi} (hf : Found s.conf port i) (hi : i < 64) {t : Dev MacsecConf H}
    (ht : txSaSet rf.toBus i an nextPn b sak ssci s = .ok () t) :
    TxRoundTrip rf.toBus port api an nextPn t ↔ api = .seca ∧ ∃ r, s.conf.recordEmptyGet .egress = some r ∧
      rf.Answers (pnRegs .egress r (s.conf.xpnOf port)) t.hw ∧
      if r < 64 then s.conf.xpnOf port = false
      else txStatusPn (s.conf.xpnOf port) (pnValue rf s.hw .egress r (s.conf.xpnOf port)) =
        nextPn.num (s.conf.xpnOf port) := by
  obtain ⟨⟨han, hpn⟩, r, hrec, hconf, hval⟩ := (steps_txSaSet_pn hi).ok ⟨rfl, rfl⟩ ht
  have hr : r < 128 := (recordEmptyGet_spec hrec).2
  have hpart : ∀ j, ((t.conf.secy j).hasPort port) = (s.conf.secy j).hasPort port := by
    intro j
    rw [hconf]
    exact linkTxSa_part (fun s => s.hasPort port) (fun _ _ => rfl) j
  have hft : Found t.conf port i := by
    refine ⟨by rw [hconf]; exact hf.1, ?_⟩
    rw [← hf.2, portFind, portFind]
    simp only [hpart]
  have hsa : (t.conf.secy i).txSc.sa an = some r := by rw [hconf, linkTxSa_sa, if_pos ⟨rfl, rfl⟩]
  have hsar : (t.conf.txSa r).record = r ∧ (t.conf.txSa r).nextPn = nextPn.pn - 1 ∧
      (t.conf.txSa r).pnNextPn = nextPn := by
    rw [hconf]
    simp [linkTxSa, setTxSa_txSa]
  have hx : t.conf.xpnOf port = s.conf.xpnOf port := by
    rw [xpnOf_eq hft.2, xpnOf_eq hf.2, hconf, linkTxSa_conf]
  rw [linkTxSa_conf, pnAfter_tx, ← xpnOf_eq hf.2] at hval
  have hrt : TxRoundTrip rf.toBus port api an nextPn t ↔
      PktNum.num (s.conf.xpnOf port) (match api with | .sa => (nextPn.pn - 1).setWidth 64 | .seca => nextPn) =
        nextPn.num (s.conf.xpnOf port) ∧ rf.Answers (pnRegs .egress r (s.conf.xpnOf port)) t.hw ∧
        txStatusPn (s.conf.xpnOf port) (pnValue rf t.hw .egress r (s.conf.xpnOf port)) =
          nextPn.num (s.conf.xpnOf port) := by
    rw [← hx, ← txSaStatusGet_iff hft han hsa hr hsar.1]
    unfold TxRoundTrip
    simp only [txPnGet_eq hft han hsa api, EStateM.Result.ok.injEq, hsar.2.1, hsar.2.2]
    cases api <;> grind
  rw [hrt, hval]
  cases api with
  | sa => exact iff_of_false (fun h => num_pred_ne h.1) (by simp)
  | seca =>
    simp only [true_and, hrec, Option.some.injEq, exists_eq_left']
    refine and_congr_right fun _ => ?_
    split
    · exact txStatusPn_pred
    · rfl

theorem linkRxSa_there (lowestPn : PktNum) (sak : Sak) (ssci : Option Ssci) (hinv : Inv s.conf) (hf : Found s.conf port i) (han : an < saPerScMax)
    (hsc : s.conf.scFromSciGet i sci = some sc) (hsa : (s.conf.rxScAt i sc).sa an = none)
    (hrec : s.conf.recordEmptyGet .ingress = some r) :
    ∃ p, (s.conf.secy i).rxSc sc = some p ∧
      RxSaThere (linkRxSa i s.conf sc an r lowestPn sak ssci) port sci an i sc p r := by
  obtain ⟨p, hp, hu, hsci⟩ := scFromSciGet_spec hsc
  rw [rxScAt_eq hp] at hsa
  obtain ⟨hfree, hlt⟩ := recordEmptyGet_spec hrec
  have hp' : ((linkRxSa i s.conf sc an r lowestPn sak ssci).secy i).rxSc sc = some p := by rw [linkRxSa_secy, hp]
  have hinv' : Inv (linkRxSa i s.conf sc an r lowestPn sak ssci) := hinv.linkRxSa hp han hsa hfree hlt
  refine ⟨p, hp, ?_⟩
  exact {
    found := ⟨by rw [linkRxSa_glb]; exact hf.1, by rw [← hf.2, portFind, portFind, linkRxSa_secy]⟩
    channel := hinv'.scFromSciGet_eq hp' ((linkRxSa_rxSc_part hp RxSc.sci (fun _ _ => rfl) p).trans hsci)
    place := hp'
    an_lt := han
    sa := by rw [linkRxSa_sa hp, if_pos ⟨rfl, rfl⟩]
    record := linkRxSa_self.2
    inUse := linkRxSa_self.1
    lt := hlt }

theorem rxRoundTrip_iff {api : PnApi} (h : RxSaThere s.conf port sci an i sc p r) {xpn : Bool}
    (hx : s.conf.xpnOf port = xpn) : RxRoundTrip rf.toBus port api sci an lowestPn s ↔
      rf.Answers (pnRegs .ingress r xpn ++ pnRegs .ingress r xpn) s.hw ∧
        api.cut (rxGetPn xpn (s.conf.rxSc p).conf.replayWindow (pnValue rf s.hw .ingress r xpn)) = lowestPn.num xpn ∧
        rxStatusPn xpn (s.conf.rxSc p).conf.replayWindow (pnValue rf s.hw .ingress r xpn) = lowestPn.num xpn := by
  subst hx
  have hafter : ∀ q ∈ pnRegs .ingress r (s.conf.xpnOf port),
      rf.peek (rf.afterReads (pnRegs .ingress r (s.conf.xpnOf port)) s.hw) q = rf.peek s.hw q :=
    fun q hq => rf.peek_afterReads _ _ (pnRegs_not_status h.lt hq)
  have hget : ∀ buf, (∃ q t st t', rxPnGet rf.toBus port api sci an buf s = .ok q t ∧
      rxSaStatusGet rf.toBus port sci an t = .ok (some st) t' ∧
      q.num (s.conf.xpnOf port) = lowestPn.num (s.conf.xpnOf port) ∧
      st.num (s.conf.xpnOf port) = lowestPn.num (s.conf.xpnOf port)) ↔
      ∃ q t, rxPnGet rf.toBus port api sci an buf s = .ok q t ∧
        q.num (s.conf.xpnOf port) = lowestPn.num (s.conf.xpnOf port) ∧
        ∃ st t', rxSaStatusGet rf.toBus port sci an t = .ok (some st) t' ∧
          st.num (s.conf.xpnOf port) = lowestPn.num (s.conf.xpnOf port) := by
    intro buf
    constructor
    · rintro ⟨q, t, st, t', hq, hst, hqn, hstn⟩
      exact ⟨q, t, hq, hqn, st, t', hst, hstn⟩
    · rintro ⟨q, t, hq, hqn, st, t', hst, hstn⟩
      exact ⟨q, t, st, t', hq, hst, hqn, hstn⟩
  have hstatus : (∃ st t, rxSaStatusGet rf.toBus port sci an
      { s with hw := rf.afterReads (pnRegs .ingress r (s.conf.xpnOf port)) s.hw } = .ok (some st) t ∧
        st.num (s.conf.xpnOf port) = lowestPn.num (s.conf.xpnOf port)) ↔
      rf.Answers (pnRegs .ingress r (s.conf.xpnOf port)) (rf.afterReads (pnRegs .ingress r (s.conf.xpnOf port)) s.hw) ∧
        rxStatusPn (s.conf.xpnOf port) (s.conf.rxSc p).conf.replayWindow
          (pnValue rf s.hw .ingress r (s.conf.xpnOf port)) = lowestPn.num (s.conf.xpnOf port) := by
    rw [← pnValue_congr hafter]
    exact rxSaStatusGet_iff h
  unfold RxRoundTrip
  simp only [hget, rxPnGet_iff h, hstatus, Bus.answers_append, forall_const]
  tauto

end Written

/-! ## When the number comes back -/

section Main

variable (rf : PortRegs H) (port : MacsecPort) (s s' : Dev MacsecConf H)

/-- When `tx_sa_get` and `tx_sa_status_get` return the packet number that the call from `s` to `s'` has set: the getter of
the union, short numbers, and a record on page 0. On page 1 other registers are read, which would have to hold it. -/
def TxReadsBack (api : PnApi) (nextPn : PktNum) : Prop :=
  let xpn := s.conf.xpnOf port
  api = .seca ∧ ∃ r, s.conf.recordEmptyGet .egress = some r ∧ rf.Answers (pnRegs .egress r xpn) s'.hw ∧
    if r < 64 then xpn = false else txStatusPn xpn (pnValue rf s.hw .egress r xpn) = nextPn.num xpn

/-- When `rx_sa_get` and `rx_sa_status_get` return the lowest packet number that the call from `s` to `s'` has set: it is
positive, fits the getter, and either the replay window is empty or the numbers are extended and do not wrap, on page 0. -/
def RxReadsBack (api : PnApi) (sci : Sci) (lowestPn : PktNum) : Prop :=
  let xpn := s.conf.xpnOf port
  let lowest := (lowestPn.num xpn).toNat
  ∃ i sc r, portFind s.conf port = some i ∧ s.conf.scFromSciGet i sci = some sc ∧
    s.conf.recordEmptyGet .ingress = some r ∧ rf.Answers (pnRegs .ingress r xpn ++ pnRegs .ingress r xpn) s'.hw ∧
    (api = .sa → lowest < 2 ^ 32) ∧
    let window := (s.conf.rxScAt i sc).conf.replayWindow
    if r < 64 then 1 ≤ lowest ∧ if xpn then lowest + window < 2 ^ 64 else window = 0
    else window < (pnValue rf s.hw .ingress r xpn).toNat ∧
      pnValue rf s.hw .ingress r xpn - BitVec.ofNat 64 window = lowestPn.num xpn

variable {rf port s s'}

theorem txReadsBack_iff {api : PnApi} {an : Nat} {nextPn : PktNum} {b : Bool} {sak : Sak} {ssci : Option Ssci}
    (hset : (Op.txSaSet an nextPn b sak ssci).call rf.toBus port s = .ok () s') :
    TxRoundTrip rf.toBus port api an nextPn s' ↔ TxReadsBack rf port s s' api nextPn := by
  obtain ⟨i, t, hp, ht⟩ := (bind_ok_iff _ _ _ _ _).mp hset
  obtain ⟨hf, rfl⟩ := portCheck_ok hp
  exact txRoundTrip_iff hf (portFind_spec hf.2).1 ht

theorem rxReadsBack_iff (hs : Reachable rf.toBus s) {api : PnApi} {sci : Sci} {an : Nat} {lowestPn : PktNum} {sak : Sak}
    {ssci : Option Ssci} (hset : (Op.rxSaSet sci an lowestPn sak ssci).call rf.toBus port s = .ok () s') :
    RxRoundTrip rf.toBus port api sci an lowestPn s' ↔ RxReadsBack rf port s s' api sci lowestPn := by
  obtain ⟨i, t, hp, ht⟩ := (bind_ok_iff _ _ _ _ _).mp hset
  obtain ⟨hf, rfl⟩ := portCheck_ok hp
  have hi : i < 64 := (portFind_spec hf.2).1
  obtain ⟨han, sc, r, hsc, hsa, hrec, hconf, hval⟩ := (steps_rxSaSet_pn (reachable_inv hs) hi).ok ⟨rfl, rfl⟩ ht
  obtain ⟨p, hplace, hthere⟩ := linkRxSa_there lowestPn sak ssci (reachable_inv hs) hf han hsc hsa hrec
  have hwindow : ((linkRxSa i t.conf sc an r lowestPn sak ssci).rxSc p).conf = (t.conf.rxScAt i sc).conf := by
    rw [rxScAt_eq hplace]
    exact linkRxSa_rxSc_part hplace RxSc.conf (fun _ _ => rfl) p
  have hx : s'.conf.xpnOf port = t.conf.xpnOf port := by
    rw [hconf, xpnOf_eq hthere.found.2, xpnOf_eq hf.2, linkRxSa_secy]
  rw [← hconf] at hthere hwindow
  rw [linkRxSa_secy, pnAfter_rx hsc, ← xpnOf_eq hf.2] at hval
  have hshort : t.conf.xpnOf port = false → (pnValue rf s'.hw .ingress r (t.conf.xpnOf port)).toNat < 2 ^ 32 := by
    intro hx
    rw [hx]
    exact pnValue_short
  rw [rxRoundTrip_iff hthere hx, hwindow, rx_agree hshort, hval]
  have hword : ∀ w, (w < (if r < 64 then if t.conf.xpnOf port = true then lowestPn + BitVec.ofNat 64 w
        else lowestPn.pn.setWidth 64 else pnValue rf t.hw .ingress r (t.conf.xpnOf port)).toNat ∧
      (if r < 64 then if t.conf.xpnOf port = true then lowestPn + BitVec.ofNat 64 w else lowestPn.pn.setWidth 64
        else pnValue rf t.hw .ingress r (t.conf.xpnOf port)) - BitVec.ofNat 64 w = lowestPn.num (t.conf.xpnOf port)) ↔
      if r < 64 then 1 ≤ (lowestPn.num (t.conf.xpnOf port)).toNat ∧
        if t.conf.xpnOf port = true then (lowestPn.num (t.conf.xpnOf port)).toNat + w < 2 ^ 64 else w = 0
      else w < (pnValue rf t.hw .ingress r (t.conf.xpnOf port)).toNat ∧
        pnValue rf t.hw .ingress r (t.conf.xpnOf port) - BitVec.ofNat 64 w = lowestPn.num (t.conf.xpnOf port) := by
    intro w
    split
    · cases t.conf.xpnOf port with
      | true => simp only [↓reduceIte, PktNum.num, written_xpn]
      | false =>
        have hlt : (lowestPn.pn.setWidth 64).toNat < 2 ^ 32 := by
          rw [BitVec.toNat_setWidth]
          omega
        simp only [Bool.false_eq_true, ↓reduceIte, PktNum.num, written_short hlt]
    · exact Iff.rfl
  rw [hword]
  constructor
  · rintro ⟨ha, hfit, hrest⟩
    exact ⟨i, sc, r, hf.2, hsc, hrec, ha, hfit, hrest⟩
  · rintro ⟨i', sc', r', hf', hsc', hrec', ha, hfit, hrest⟩
    cases hf.2.symm.trans hf'
    cases hsc.symm.trans hsc'
    cases hrec.symm.trans hrec'
    exact ⟨ha, hfit, hrest⟩

/-- After a successful set, the getter and the status return the packet number that was set exactly when it reads back. -/
theorem pn_round_trip_iff (rf : PortRegs H) (port : MacsecPort) (s s' : Dev MacsecConf H) (hs : Reachable rf.toBus s)
    (api : PnApi) (an : Nat) (sak : Sak) (ssci : Option Ssci) :
    (∀ nextPn b, (Op.txSaSet an nextPn b sak ssci).call rf.toBus port s = .ok () s' →
      (TxRoundTrip rf.toBus port api an nextPn s' ↔ TxReadsBack rf port s s' api nextPn)) ∧
    ∀ sci lowestPn, (Op.rxSaSet sci an lowestPn sak ssci).call rf.toBus port s = .ok () s' →
      (RxRoundTrip rf.toBus port api sci an lowestPn s' ↔ RxReadsBack rf port s s' api sci lowestPn) :=
  ⟨fun _ _ => txReadsBack_iff, fun _ _ => rxReadsBack_iff hs⟩

end Main

/-! ## A port to run calls on -/

/-- After every successful set, the getter and the status return the packet number that was set. -/
def PnRoundTrip (bus : PortBus H) (api : PnApi) : Prop :=
  ∀ (s s' : Dev MacsecConf H) (port : MacsecPort) (an : Nat) (sak : Sak) (ssci : Option Ssci), Reachable bus s →
    (∀ nextPn b, 1 ≤ (nextPn.num (s.conf.xpnOf port)).toNat →
      (Op.txSaSet an nextPn b sak ssci).call bus port s = .ok () s' → TxRoundTrip bus port api an nextPn s') ∧
    ∀ sci lowestPn, (Op.rxSaSet sci an lowestPn sak ssci).call bus port s = .ok () s' →
      RxRoundTrip bus port api sci an lowestPn s'

/-- A SecY with a transmit and a receive channel and this replay window. -/
def windowSecy (window : Nat) : List (MacsecPort × Op) :=
  [(benchPort 1, .secyConfAdd { benchSecy with replayWindow := window }), (benchPort 1, .txScSet),
    (benchPort 1, .rxScAdd (benchSci 1))]

/-- The calls below succeed, and use SecY 0, channel 0 and record 0. -/
theorem windowSecy_calls :
    errorOf ((Op.txSaSet 0 1 true {} none).call bench.toBus (benchPort 1))
      (calls bench.toBus (windowSecy 0) benchInit) = none ∧
    ∀ w ∈ [0, 16], errorOf ((Op.rxSaSet (benchSci 1) 0 5 {} none).call bench.toBus (benchPort 1))
        (calls bench.toBus (windowSecy w) benchInit) = none ∧
      portFind (calls bench.toBus (windowSecy w) benchInit).conf (benchPort 1) = some 0 ∧
      (calls bench.toBus (windowSecy w) benchInit).conf.xpnOf (benchPort 1) = false ∧
      (calls bench.toBus (windowSecy w) benchInit).conf.scFromSciGet 0 (benchSci 1) = some 0 ∧
      (calls bench.toBus (windowSecy w) benchInit).conf.recordEmptyGet .ingress = some 0 ∧
      ((calls bench.toBus (windowSecy w) benchInit).conf.rxScAt 0 0).conf.replayWindow = w := by
  decide +kernel

/-- Without a window, the lowest packet number 5 comes back. -/
theorem pn_round_trip_iff_window0 : RxRoundTrip bench.toBus (benchPort 1) .seca (benchSci 1) 0 5
    (final ((Op.rxSaSet (benchSci 1) 0 5 {} none).call bench.toBus (benchPort 1))
      (calls bench.toBus (windowSecy 0) benchInit)) := by
  obtain ⟨hok, hp, hx, hsc, hrec, hw⟩ := windowSecy_calls.2 0 (by decide)
  refine ((pn_round_trip_iff bench _ _ _ (reachable_bench _) .seca 0 {} none).2 _ _ (ok_final hok)).mpr ?_
  unfold RxReadsBack
  simp only [hx]
  refine ⟨0, 0, 0, hp, hsc, hrec, ?_, fun h => absurd h (by decide), ?_⟩
  · exact storage_answers _
  · rw [hw]
    decide

/-- `tx_sa_get` returns 0 after `tx_sa_set` of 1, and with a window of 16 the lowest packet number 5 comes back as 0. -/
theorem not_pn_round_trip : ¬PnRoundTrip bench.toBus .sa ∧ ¬PnRoundTrip bench.toBus .seca := by
  constructor
  · intro h
    have hset := ok_final windowSecy_calls.1
    have hone : ∀ xpn, 1 ≤ (PktNum.num xpn 1).toNat := by decide
    have hback := (h _ _ _ _ _ _ (reachable_bench _)).1 1 true (hone _) hset
    exact absurd ((txReadsBack_iff hset).mp hback).1 (by decide)
  · intro h
    obtain ⟨hok, hp, hx, hsc, hrec, hw⟩ := windowSecy_calls.2 16 (by decide)
    have hback := (h _ _ _ _ _ _ (reachable_bench _)).2 _ _ (ok_final hok)
    obtain ⟨i, sc, r, hp', hsc', hrec', -, -, hread⟩ := (rxReadsBack_iff (reachable_bench _) (ok_final hok)).mp hback
    cases hp.symm.trans hp'
    cases hsc.symm.trans hsc'
    cases hrec.symm.trans hrec'
    simp only [hx, hw] at hread
    revert hread
    decide

end Lan80xx.Macsec
