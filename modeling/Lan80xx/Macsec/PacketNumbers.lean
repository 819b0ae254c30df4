import Lan80xx.Macsec.Atomic

/-!
# MACsec: reading packet numbers back

The calls that return the packet numbers of an SA. The transform record is written with `sa_xform_set`'s addresses and
read with the `XFORM_REC_X_W14` macros, which agree on page 0 only (`w14Reg_page0`, `pnReg_page1`).
-/

namespace Lan80xx.Macsec

open Fallible RegBus MacsecConf

/-! ## The registers read -/

/-- `TRANSFORM_RECORDS_PAGE0_XFORM_REC_X_W14(record)`, or `..PAGE1..(record - 64U)`. -/
def w14Reg (d : Direction) (record : Nat) : IoReg :=
  ioreg d (if record < xformRecNumPage0 then 0x000E ||| (record * 32) else 0x400E ||| u32Sub record (64 * 32))

/-- The registers of a packet number: two for an extended one. -/
def pnRegs (d : Direction) (record : Nat) (xpn : Bool) : List IoReg :=
  let r := w14Reg d record
  if xpn then [r, ⟨r.mmd, (r.addr + 1) % 2 ^ 16⟩] else [r]

variable {H : Type} (bus : PortBus H)

/-- `LAN80XX_MACSEC_CNT64_RD` or `LAN80XX_CSR_RD` of the packet number. -/
def csrRdPn (d : Direction) (record : Nat) (xpn : Bool) : Call H PktNum := do
  if xpn then csrRd64 bus (w14Reg d record)
  else
    let val ← csrRd bus (w14Reg d record)
    return val.setWidth 64

/-! ## Transmit SAs -/

/-- What `tx_sa_get` (`N` is `u32`) and `tx_seca_get` (the union) return; only the latter returns the SSCI. -/
structure TxSaConf (N : Type) where
  nextPn : N
  confidentiality : Bool
  sak : Sak
  active : Bool
  ssci : Option Ssci

/-- The SA that `tx_sa_get` and `tx_seca_get` look up. -/
def txSaFind (port : MacsecPort) (an : Nat) : Call H TxSa := do
  macsecAssert (saPerScMax ≤ an)
  let i ← portCheck port
  let c ← getConf
  failIf ((c.secy i).txSc.sa an = none) (.macsec .anNotExist)
  return c.txSaAt i an

/-- `lan80xx_macsec_tx_sa_get_priv`. -/
def txSaGet (port : MacsecPort) (an : Nat) : Call H (TxSaConf (BitVec 32)) := do
  let sa ← txSaFind port an
  return ⟨sa.nextPn, sa.confidentiality, sa.sak, sa.enabled, none⟩

/-- `lan80xx_macsec_tx_seca_get_priv`. -/
def txSecaGet (port : MacsecPort) (an : Nat) : Call H (TxSaConf PktNum) := do
  let sa ← txSaFind port an
  return ⟨sa.pnNextPn, sa.confidentiality, sa.sak, sa.enabled, some sa.ssci⟩

/-- `mepa_macsec_tx_sa_status_t`, without the times. -/
structure TxSaStatus where
  inUse : Bool
  nextPn : BitVec 32
  pnNextPn : PktNum

/-- `lan80xx_macsec_tx_sa_status_get_`: a NULL pointer and an AN out of bounds are not checked, and only a packet number
of 32 bits is counted up. -/
def txSaStatusGet_ (i an : Nat) : Call H Unit := do
  let c ← getConf
  failIf (saPerScMax ≤ an ∨ (c.secy i).txSc.sa an = none) .hang
  let xpn := (c.secy i).conf.currentCipherSuite.xpn
  let value ← csrRdPn bus .egress (c.txSaAt i an).record xpn
  if xpn then modifyConf fun c => c.setTxSaAt i an fun sa => { sa with pnNextPn := value }
  else modifyConf fun c => c.setTxSaAt i an fun sa => { sa with
    nextPn := value.pn + 1
    pnNextPn := sa.pnNextPn.setPn (value.pn + 1) }

/-- `lan80xx_macsec_tx_sa_status_get_priv`. -/
def txSaStatusGet (port : MacsecPort) (an : Nat) : Call H TxSaStatus := do
  let i ← portCheck port
  txSaStatusGet_ bus i an
  let c ← getConf
  let sa := c.txSaAt i an
  return ⟨sa.statusInUse, sa.nextPn, sa.pnNextPn⟩

/-! ## Receive SAs -/

/-- What `rx_sa_get` (`N` is `u32`) and `rx_seca_get` (the union) return. -/
structure RxSaConf (N : Type) where
  lowestPn : N
  sak : Sak
  active : Bool
  ssci : Option Ssci

/-- `lan80xx_macsec_rx_sa_get_`; `lowestPn` is what the caller's union holds before. -/
def rxSaGet_ (i : Nat) (sci : Sci) (an : Nat) (lowestPn : PktNum) : Call H (RxSaConf PktNum) := do
  let sc ← scFromSci i sci
  let c ← getConf
  macsecAssert (saPerScMax ≤ an)
  failIf ((c.rxScAt i sc).sa an = none) (.macsec .anNotExist)
  let xpn := (c.secy i).conf.currentCipherSuite.xpn
  let sa := c.rxSaAt i sc an
  let window := (c.rxScAt i sc).conf.replayWindow
  let value ← csrRdPn bus .ingress sa.record xpn
  let lowest : PktNum :=
    if xpn then if window < value.toNat then value - BitVec.ofNat 64 window else 0
    else lowestPn.setPn (if window < value.pn.toNat then value.pn - BitVec.ofNat 32 window else 0)
  return ⟨lowest, sa.sak, sa.statusInUse, some sa.ssci⟩

/-- `lan80xx_macsec_rx_sa_get_priv`, which hands out the low word of a union of its own. -/
def rxSaGet (port : MacsecPort) (sci : Sci) (an : Nat) : Call H (RxSaConf (BitVec 32)) := do
  let i ← portCheck port
  let conf ← rxSaGet_ bus i sci an 0
  return ⟨conf.lowestPn.pn, conf.sak, conf.active, none⟩

/-- `lan80xx_macsec_rx_seca_get_priv`. -/
def rxSecaGet (port : MacsecPort) (sci : Sci) (an : Nat) (lowestPn : PktNum) : Call H (RxSaConf PktNum) := do
  let i ← portCheck port
  rxSaGet_ bus i sci an lowestPn

/-- `mepa_macsec_rx_sa_status_t`, without the times. -/
structure RxSaStatus where
  inUse : Bool
  nextPn : BitVec 32
  lowestPn : BitVec 32
  pnNextPn : PktNum
  pnLowestPn : PktNum

/-- `lan80xx_macsec_rx_sa_status_get_`: an unknown SCI is no error, and then the caller's status is not written. -/
def rxSaStatusGet_ (i : Nat) (sci : Sci) (an : Nat) : Call H (Option RxSaStatus) := do
  let c ← getConf
  match c.scFromSciGet i sci with
  | none => return none
  | some sc =>
    macsecAssert (saPerScMax ≤ an)
    macsecAssert ((c.rxScAt i sc).sa an = none)
    macsecAssert ((c.rxSaAt i sc an).inUse = false)
    let xpn := (c.secy i).conf.currentCipherSuite.xpn
    let window := (c.rxScAt i sc).conf.replayWindow
    let value ← csrRdPn bus .ingress (c.rxSaAt i sc an).record xpn
    if xpn then modifyConf fun c => c.setRxSaAt i sc an fun sa => { sa with
      pnNextPn := value
      pnLowestPn := if value.toNat ≤ window then 1 else value - BitVec.ofNat 64 window }
    else modifyConf fun c => c.setRxSaAt i sc an fun sa => { sa with
      nextPn := value.pn
      lowestPn := if value.pn.toNat ≤ window then 1 else value.pn - BitVec.ofNat 32 window }
    let c ← getConf
    let sa := c.rxSaAt i sc an
    return some ⟨sa.statusInUse, sa.nextPn, sa.lowestPn, sa.pnNextPn, sa.pnLowestPn⟩

/-- `lan80xx_macsec_rx_sa_status_get_priv`. -/
def rxSaStatusGet (port : MacsecPort) (sci : Sci) (an : Nat) : Call H (Option RxSaStatus) := do
  let i ← portCheck port
  rxSaStatusGet_ bus i sci an

/-! ## Where the packet numbers lie -/

section Places

variable {d d' : Direction} {r r' k : Nat} {xpn : Bool} {q : IoReg}

/-- Away from the registers that packet numbers are read from. -/
def pnFree : Set (IoReg × Nat) := {p | (0x800 ≤ p.1.addr ∧ p.1.addr < 0xF840) ∨ 0xF880 < p.1.addr}

/-- On page 0 the register read is the register written. -/
theorem w14Reg_page0 (hr : r < 64) : w14Reg d r = xformReg d r 14 := by
  rw [w14Reg, xformReg, if_pos (show r < xformRecNumPage0 from hr), if_pos (show r < xformRecNumPage0 from hr)]
  rfl

/-- On page 1 it is not: the words written lie below `0x5000`. -/
theorem w14Reg_page1 (hr : r < 128) (hr64 : 64 ≤ r) : 0xF840 ≤ (w14Reg d r).addr ∧ (w14Reg d r).addr < 0xF880 := by
  have hor : ∀ k < 64, 0xF840 ≤ 0x400E ||| (0xF840 + k) ∧ 0x400E ||| (0xF840 + k) < 0xF880 := by decide
  rw [w14Reg, if_neg (show ¬r < xformRecNumPage0 from Nat.not_lt.mpr hr64), ioreg]
  simp only
  rw [Nat.or_mod_two_pow, u32Sub_mod (by omega) (by decide)]
  have hk : r + 2 ^ 16 - 64 * 32 = 0xF840 + (r - 64) := by omega
  rw [hk]
  exact hor (r - 64) (by omega)

theorem mem_pnRegs (h : q ∈ pnRegs d r xpn) : q.mmd = mmdId d ∧ ∃ k < 2, q.addr = ((w14Reg d r).addr + k) % 2 ^ 16 := by
  have hlt : (w14Reg d r).addr < 2 ^ 16 := Nat.mod_lt _ (by decide)
  cases xpn <;> simp only [pnRegs, Bool.false_eq_true, ↓reduceIte, List.mem_cons, List.not_mem_nil, or_false] at h
  · subst h
    exact ⟨rfl, 0, by decide, (Nat.mod_eq_of_lt hlt).symm⟩
  · rcases h with rfl | rfl
    · exact ⟨rfl, 0, by decide, (Nat.mod_eq_of_lt hlt).symm⟩
    · exact ⟨rfl, 1, by decide, rfl⟩

theorem pnRegs_addr (hr : r < 128) (h : q ∈ pnRegs d r xpn) :
    (r < 64 ∧ q.addr < 0x800) ∨ (64 ≤ r ∧ 0xF840 ≤ q.addr ∧ q.addr ≤ 0xF880) := by
  obtain ⟨-, k, hk, ha⟩ := mem_pnRegs h
  rcases Nat.lt_or_ge r 64 with hr64 | hr64
  · rw [w14Reg_page0 hr64, xformReg_page0 hr64 (by decide)] at ha
    simp only at ha
    omega
  · have := w14Reg_page1 (d := d) hr hr64
    omega

theorem pnRegs_not_status (hr : r < 128) (h : q ∈ pnRegs d r xpn) : ¬statusReg q := by
  have := pnRegs_addr hr h
  unfold statusReg
  omega

theorem pnRegs_not_pnFree (hr : r < 128) (h : q ∈ pnRegs d r xpn) (b : Nat) : (q, b) ∉ pnFree := by
  have := pnRegs_addr hr h
  simp only [pnFree, Set.mem_ofPred_eq]
  omega

theorem modeBits_pnFree : modeBits ⊆ pnFree := by
  intro p hp
  have := sharedPlace_of_mem (modeBits_subset hp)
  exact Or.inl (by omega)

theorem selectBits_pnFree : selectBits ⊆ pnFree := selectBits_subset.trans modeBits_pnFree

theorem flowBits_pnFree (hk : k < 64) : flowBits d k ⊆ pnFree := by
  rintro p ⟨n, hn, h⟩
  rcases Nat.lt_or_ge k 32 with hk32 | hk32
  · rw [flowCtrlReg_page0 hk32 hn] at h
    exact Or.inl (by rw [h]; simp only; omega)
  · rw [flowCtrlReg.eq_def, if_neg (show ¬k < scRecPage0Num from Nat.not_lt.mpr hk32), ioreg] at h
    have := flow_page1 hk hk32 n
    refine Or.inr ?_
    rw [h]
    cases d <;> simp only <;> omega

theorem tcamBits_pnFree {g : Glb} (hr : r < 128) : tcamBits g d r ⊆ pnFree := by
  have hpage0 : ∀ w, ∀ p : IoReg × Nat, p.1 = tcamPage0Reg d w r → p ∈ pnFree := by
    intro w p h
    have hw := w.off_lt
    rw [tcamPage0Reg_eq hr] at h
    exact Or.inl (by rw [h]; simp only; omega)
  rintro p ⟨w, h | ⟨-, h⟩⟩
  · unfold tcamReg at h
    split at h
    · exact hpage0 w p h
    · have := tcam_page1 hr w.off
      exact Or.inr (by rw [h, tcamPage1Reg, ioreg]; simp only; omega)
  · exact hpage0 w p h

theorem policyBits_pnFree (hr : r < 128) : policyBits d r ⊆ pnFree := by
  intro p h
  replace h : p.1 = tcamPolicyReg d r := h
  rcases Nat.lt_or_ge r 64 with hr64 | hr64
  · rw [tcamPolicyReg_page0 hr64] at h
    exact Or.inl (by rw [h]; simp only; omega)
  · rw [tcamPolicyReg, if_neg (show ¬r < xformRecNumPage0 from Nat.not_lt.mpr hr64), ioreg, policy_page1 hr hr64] at h
    exact Or.inl (by rw [h]; simp only; omega)

theorem camBits_pnFree (hk : k < 64) : camBits k ⊆ pnFree := by
  rintro p ⟨n, hn, h⟩
  rcases Nat.lt_or_ge k 32 with hk32 | hk32
  · rw [rxscCamReg_page0 hk32 hn] at h
    exact Or.inl (by rw [h]; simp only; omega)
  · rw [rxscCamReg, if_neg (show ¬k < scRecPage0Num from Nat.not_lt.mpr hk32), ioreg] at h
    have := cam_page1 hk hk32 n
    exact Or.inr (by rw [h]; simp only; omega)

theorem xformReg_pnRegs (hr : r < 128) (hr64 : 64 ≤ r) {n : Nat} (hn : n < 24) (h : q ∈ pnRegs d r xpn) :
    q ≠ xformReg d r n := by
  rintro rfl
  have := pnRegs_addr hr h
  rw [xformReg_page1 hr hr64 hn] at this
  simp only at this
  omega

end Places

/-! ## Reading a packet number -/

section Read

variable {rf : PortRegs H} {d : Direction} {r i an sc : Nat} {xpn : Bool} {s s' : Dev MacsecConf H} {v : PktNum} {h h' : H}

/-- The two words of an extended packet number, or the one of a short one. -/
def pnJoin (xpn : Bool) (lo hi : BitVec 32) : PktNum :=
  if xpn then (hi.setWidth 64 <<< 32) + lo.setWidth 64 else lo.setWidth 64

/-- What the registers read for a packet number hold. -/
def pnValue (rf : PortRegs H) (h : H) (d : Direction) (record : Nat) (xpn : Bool) : PktNum :=
  let r := w14Reg d record
  pnJoin xpn (rf.peek h r) (rf.peek h ⟨r.mmd, (r.addr + 1) % 2 ^ 16⟩)

theorem pnJoin_split (p : PktNum) : pnJoin true (p.setWidth 32) ((p >>> 32).setWidth 32) = p := by
  simp only [pnJoin, ↓reduceIte]
  bv_omega

theorem pnValue_congr (hq : ∀ q ∈ pnRegs d r xpn, rf.peek h' q = rf.peek h q) :
    pnValue rf h' d r xpn = pnValue rf h d r xpn := by
  cases xpn <;> simp_all [pnRegs, pnValue, pnJoin]

theorem csrRd_ok_iff {q : IoReg} {u : BitVec 32} (hq : ¬statusReg q) : csrRd rf.toBus q s = .ok u s' ↔
    (∃ v, (rf.rd q s.hw).1 = .ok v) ∧ u = rf.peek s.hw q ∧ s' = { s with hw := (rf.rd q s.hw).2 } := by
  constructor
  · intro hs
    obtain ⟨hv, hs'⟩ := read_ok rf.toBus Rc.access hs
    exact ⟨⟨u, hv⟩, rf.rd_ok q s.hw u hq hv, hs'⟩
  · rintro ⟨⟨v, hv⟩, rfl, rfl⟩
    rw [← rf.rd_ok q s.hw v hq hv]
    exact read_eq_ok rf.toBus Rc.access hv

/-- Reading a packet number: when it succeeds, and what it gives. -/
theorem csrRdPn_ok_iff (hr : r < 128) : csrRdPn rf.toBus d r xpn s = .ok v s' ↔
    rf.Answers (pnRegs d r xpn) s.hw ∧ v = pnValue rf s.hw d r xpn ∧
      s' = { s with hw := rf.afterReads (pnRegs d r xpn) s.hw } := by
  have hmem : w14Reg d r ∈ pnRegs d r false := by simp [pnRegs]
  have hlo : ¬statusReg (w14Reg d r) := pnRegs_not_status hr hmem
  cases xpn with
  | false =>
    simp only [csrRdPn, Bool.false_eq_true, ↓reduceIte, bind_ok_iff, csrRd_ok_iff hlo, pnRegs, Bus.Answers,
      Bus.afterReads, and_true, pnValue, pnJoin]
    constructor
    · rintro ⟨u, t, ⟨ha, rfl, rfl⟩, hv⟩
      cases hv
      exact ⟨ha, rfl, rfl⟩
    · rintro ⟨ha, rfl, rfl⟩
      exact ⟨_, _, ⟨ha, rfl, rfl⟩, rfl⟩
  | true =>
    have hmem' : (⟨(w14Reg d r).mmd, ((w14Reg d r).addr + 1) % 2 ^ 16⟩ : IoReg) ∈ pnRegs d r true := by simp [pnRegs]
    have hhi : ¬statusReg ⟨(w14Reg d r).mmd, ((w14Reg d r).addr + 1) % 2 ^ 16⟩ := pnRegs_not_status hr hmem'
    simp only [csrRdPn, ↓reduceIte, csrRd64, bind_ok_iff, csrRd_ok_iff hlo, csrRd_ok_iff hhi, pnRegs, Bus.Answers,
      Bus.afterReads, and_true, pnValue, pnJoin]
    constructor
    · rintro ⟨u, t, ⟨ha, rfl, rfl⟩, u', t', ⟨ha', rfl, rfl⟩, hv⟩
      cases hv
      exact ⟨⟨ha, ha'⟩, by rw [rf.peek_rd _ _ _ hhi], rfl⟩
    · rintro ⟨⟨ha, ha'⟩, rfl, rfl⟩
      refine ⟨_, _, ⟨ha, rfl, rfl⟩, _, _, ⟨ha', rfl, rfl⟩, ?_⟩
      rw [rf.peek_rd _ _ _ hhi]
      rfl

end Read

/-! ## Setting an SA -/

section Set

variable {rf : PortRegs H} {d : Direction} {r i an sc : Nat} {s s' : Dev MacsecConf H} {h₀ : H} {c c₁ : MacsecConf}

/-- Word `n` of the record that `sa_xform_set` writes. -/
def xformWord (c : MacsecConf) (d : Direction) (i an sc n : Nat) : BitVec 32 :=
  let suite := (c.secy i).conf.currentCipherSuite
  if suite.xpn then getXformValue64 c i d (suite = .gcmAesXpn128) an sc n
  else getXformValue c i d (suite = .gcmAes128) an sc n

/-- The packet number that a read after `sa_xform_set` finds: what was written on page 0, the old content of other
registers on page 1. -/
def pnAfter (rf : PortRegs H) (h : H) (c : MacsecConf) (d : Direction) (r i an sc : Nat) : PktNum :=
  let xpn := (c.secy i).conf.currentCipherSuite.xpn
  if r < 64 then pnJoin xpn (xformWord c d i an sc 14) (xformWord c d i an sc 15) else pnValue rf h d r xpn

/-- The tables are `c` and the packet number of the record reads as `v`. -/
def PnIs (rf : PortRegs H) (c : MacsecConf) (d : Direction) (r i : Nat) (v : PktNum) (s : Dev MacsecConf H) : Prop :=
  s.conf = c ∧ pnValue rf s.hw d r (c.secy i).conf.currentCipherSuite.xpn = v

theorem steps_saXformSet_words (hr : r < 128) : Steps Frame.all (fun s => s.conf = c ∧ s.hw = h₀)
    (saXformSet rf.toBus d r i an sc) fun _ s => s.conf = c ∧
      (∀ n < 24, rf.peek s.hw (xformReg d r n) = xformWord c d i an sc n) ∧
      ∀ q, ¬statusReg q → (∀ n < 24, q ≠ xformReg d r n) → rf.peek s.hw q = rf.peek h₀ q := by
  have hstatus : ∀ n < 24, ¬statusReg (xformReg d r n) := by
    intro n hn
    rw [xformReg_eq hr hn]
    unfold statusReg
    simp only
    split_ifs <;> omega
  refine steps_getConf.bind fun c' => ?_
  -- words below `k` are written, the registers outside the record are as before
  let I (k : Nat) (s : Dev MacsecConf H) : Prop := s.conf = c ∧
    (∀ n < k, rf.peek s.hw (xformReg d r n) = xformWord c d i an sc n) ∧
    ∀ q, ¬statusReg q → (∀ n < 24, q ≠ xformReg d r n) → rf.peek s.hw q = rf.peek h₀ q
  have hloop : c' = c → Steps Frame.all (I 0) (forUpTo xformRecSize fun n => csrWr rf.toBus (xformReg d r n)
      (xformWord c' d i an sc n)) fun _ => I 24 := by
    rintro rfl
    refine Steps.forUpTo (I := I) 24 fun k hk => steps_write_stored Rc.access rf (hstatus k hk) ?_
    rintro s h' ⟨hc, hw, ho⟩ hk' hne
    refine ⟨hc, fun n hn => ?_, fun q hq hqn => (hne q hq (hqn k hk)).trans (ho q hq hqn)⟩
    rcases Nat.lt_succ_iff_lt_or_eq.mp hn with hlt | rfl
    · refine (hne _ (hstatus n (by omega)) fun he => ?_).trans (hw n hlt)
      have := (xformReg_inj hr (by omega) hr hk he).2.2
      omega
    · exact hk'
  refine (Steps.imp hloop).pre fun s hs => ?_
  obtain ⟨⟨hc, hh⟩, hcc⟩ := hs
  exact ⟨⟨hc, by simp, fun q _ _ => by rw [hh]⟩, hcc.trans hc⟩

theorem steps_saXformSet_pn (hr : r < 128) : Steps Frame.all (fun s => s.conf = c ∧ s.hw = h₀)
    (saXformSet rf.toBus d r i an sc) fun _ => PnIs rf c d r i (pnAfter rf h₀ c d r i an sc) := by
  refine (steps_saXformSet_words hr).post fun _ s hs => ?_
  obtain ⟨hc, hw, ho⟩ := hs
  refine ⟨hc, ?_⟩
  unfold pnAfter
  split
  · next hr64 =>
    have hhi : (⟨(w14Reg d r).mmd, ((w14Reg d r).addr + 1) % 2 ^ 16⟩ : IoReg) = xformReg d r 15 := by
      rw [w14Reg_page0 hr64, xformReg_page0 hr64 (by decide), xformReg_page0 hr64 (by decide), IoReg.mk.injEq]
      exact ⟨rfl, by simp only; omega⟩
    rw [pnValue, w14Reg_page0 hr64, ← hw 14 (by decide), ← hw 15 (by decide), ← hhi, w14Reg_page0 hr64]
  · next hr64 =>
    refine pnValue_congr fun q hq => ho q (pnRegs_not_status hr hq) fun n hn => ?_
    exact xformReg_pnRegs hr (Nat.not_lt.mp hr64) hn hq

/-- Accesses away from the packet numbers. -/
theorem steps_pnIs {x : Call H Unit} {v : PktNum} (hr : r < 128)
    (hx : Steps (hwFrame rf.toBus pnFree) (fun s => s.conf = c) x fun _ _ => True) :
    Steps Frame.all (PnIs rf c d r i v) x fun _ => PnIs rf c d r i v := by
  rintro s ⟨hc, hv⟩
  refine ⟨trivial, fun u s' hs => ?_⟩
  obtain ⟨hc', hst⟩ : (hwFrame rf.toBus pnFree).rel s s' := by
    have := (hx s hc).1
    rwa [final, hs] at this
  refine ⟨hc'.trans hc, ?_⟩
  rw [← hv]
  exact pnValue_congr fun q hq => rf.frame_word hst (pnRegs_not_status hr hq) fun b _ => pnRegs_not_pnFree hr hq b

theorem steps_pnIs_within {x : Call H Unit} {v : PktNum} (hr : r < 128) (hx : Within (hwFrame rf.toBus pnFree) x) :
    Steps Frame.all (PnIs rf c d r i v) x fun _ => PnIs rf c d r i v :=
  steps_pnIs hr ((within_iff.mp hx).pre fun _ _ => trivial)

/-- What `tx_sa_set_` leaves behind. -/
theorem steps_txSaSet_pn (hi : i < 64) {nextPn : PktNum} {b : Bool} {sak : Sak} {ssci : Option Ssci} :
    Steps Frame.all (fun s => s.conf = c ∧ s.hw = h₀) (txSaSet rf.toBus i an nextPn b sak ssci) fun _ s =>
      (an < saPerScMax ∧ ¬nextPn.pn < 1) ∧ ∃ r, c.recordEmptyGet .egress = some r ∧
        PnIs rf (linkTxSa i c an r nextPn b sak ssci) .egress r i
          (pnAfter rf h₀ (linkTxSa i c an r nextPn b sak ssci) .egress r i an 0) s := by
  refine steps_getConf.bind fun c' => ?_
  refine (Steps.imp (p := c' = c) ?_).pre fun s hs => ⟨hs.1, hs.2.trans hs.1.1⟩
  rintro rfl
  refine Steps.failIf_bind fun han => Steps.failIf_bind fun _ => Steps.failIf_bind fun hpn => ?_
  refine Steps.failIf_bind fun _ => Steps.failIf_bind fun _ => ?_
  cases hrec : c'.recordEmptyGet .egress with
  | none => exact Steps.throw
  | some r =>
    have hr : r < 128 := (recordEmptyGet_spec hrec).2
    refine (Steps.modify (T := fun s => s.conf = linkTxSa i c' an r nextPn b sak ssci ∧ s.hw = h₀) ?_).bind fun _ => ?_
    · rintro s ⟨rfl, hh⟩
      exact ⟨trivial, rfl, hh⟩
    refine (Steps.orFail (steps_saXformSet_pn hr)).bind fun _ => ?_
    refine (Steps.orFail (steps_pnIs_within hr (within_saFlowSet modeBits_pnFree (flowBits_pnFree hi)))).bind fun _ => ?_
    refine (Steps.orFail (steps_pnIs hr (steps_saTcamKeyMaskSet selectBits_pnFree (tcamBits_pnFree hr)
      (policyBits_pnFree hr)))).post fun _ s hs => ?_
    exact ⟨⟨Nat.not_le.mp han, hpn⟩, r, rfl, hs⟩

/-- What `rx_sa_set_` leaves behind. -/
theorem steps_rxSaSet_pn (h : Inv c) (hi : i < 64) {sci : Sci} {lowestPn : PktNum} {sak : Sak} {ssci : Option Ssci} :
    Steps Frame.all (fun s => s.conf = c ∧ s.hw = h₀) (rxSaSet rf.toBus i sci an lowestPn sak ssci) fun _ s =>
      an < saPerScMax ∧ ∃ sc r, c.scFromSciGet i sci = some sc ∧ (c.rxScAt i sc).sa an = none ∧
        c.recordEmptyGet .ingress = some r ∧
        PnIs rf (linkRxSa i c sc an r lowestPn sak ssci) .ingress r i
          (pnAfter rf h₀ (linkRxSa i c sc an r lowestPn sak ssci) .ingress r i an sc) s := by
  refine Steps.bind (Q := fun sc s => (s.conf = c ∧ s.hw = h₀) ∧ c.scFromSciGet i sci = some sc) ?_ fun sc => ?_
  · refine steps_getConf.bind fun c' => ?_
    refine (Steps.imp (p := c' = c) ?_).pre fun s hs => ⟨hs.1, hs.2.trans hs.1.1⟩
    rintro rfl
    cases hsc : c'.scFromSciGet i sci with
    | none => exact Steps.throw
    | some sc => exact Steps.pure fun s hs => ⟨hs, rfl⟩
  refine Steps.imp fun hsc => steps_getConf.bind fun c' => ?_
  refine (Steps.imp (p := c' = c) ?_).pre fun s hs => ⟨hs.1, hs.2.trans hs.1.1⟩
  rintro rfl
  refine Steps.failIf_bind fun _ => Steps.failIf_bind fun _ => Steps.failIf_bind fun han => ?_
  refine Steps.failIf_bind fun hsa => ?_
  cases hrec : c'.recordEmptyGet .ingress with
  | none => exact Steps.throw
  | some r =>
    have hr : r < 128 := (recordEmptyGet_spec hrec).2
    obtain ⟨p, hp, -, -⟩ := scFromSciGet_spec hsc
    have hnone : (c'.rxScAt i sc).sa an = none := by simpa using hsa
    have hc : Commit i c' .other (linkRxSa i c' sc an r lowestPn sak ssci) :=
      .linkRxSa sc p an r lowestPn sak ssci hp (Nat.not_le.mp han) (by rwa [rxScAt_eq hp] at hnone) hrec
    have hhw : ((linkRxSa i c' sc an r lowestPn sak ssci).rxScAt i sc).hwScIdx < 64 := by
      have hp' : ((linkRxSa i c' sc an r lowestPn sak ssci).secy i).rxSc sc = some p := by rw [linkRxSa_secy, hp]
      rw [rxScAt_eq hp']
      exact (hc.inv h).hw_lt ((hc.inv h).sc.live (s := (i, sc)) hp')
    refine (Steps.modify (T := fun s => s.conf = linkRxSa i c' sc an r lowestPn sak ssci ∧ s.hw = h₀) ?_).bind fun _ => ?_
    · rintro s ⟨rfl, hh⟩
      exact ⟨trivial, rfl, hh⟩
    refine (Steps.orFail (steps_saXformSet_pn hr)).bind fun _ => ?_
    refine (Steps.orFail (steps_pnIs hr (steps_saTcamKeyMaskSet selectBits_pnFree (tcamBits_pnFree hr)
      (policyBits_pnFree hr)))).bind fun _ => ?_
    refine (Steps.orFail (steps_pnIs_within hr (within_saFlowSet modeBits_pnFree (flowBits_pnFree hi)))).bind fun _ => ?_
    refine (Steps.orFail (steps_pnIs hr (steps_rxScCamSet selectBits_pnFree (camBits_pnFree hhw)))).post fun _ s hs => ?_
    exact ⟨Nat.not_le.mp han, sc, r, hsc, hnone, rfl, hs⟩

end Set

end Lan80xx.Macsec
