import Lan80xx.VtssMacsec.Device
import Lan80xx.Macsec.PnRoundTrip

/-!
# MACsec of the VTSS PHYs: transform records

The record of an SA holds its key and its packet number. Word 10 of a record is the number when the key has 128 bits,
word 14 otherwise, and an extended number takes the next word as well.

- `getXformValue`, `getXformValue64`: the words that `macsec_sa_xform_set` writes;
- `Chip`: hardware whose transform records can be looked at;
- `txSaStatusGet`, `rxSaGet`, `rxSaStatusGet`: the calls that read a packet number back.
-/

namespace Lan80xx.VtssMacsec

open Fallible RegBus
open Macsec (Ssci MacsecPort Sci Sak PktNum CipherSuite Direction saPerScMax replayWindowSize getU32 word sciHiWord
  pnJoin TxSaStatus RxSaStatus RxSaConf)

/-! ## The words of a record -/

/-- `aes_128`. -/
def aes128 : CipherSuite → Bool
  | .gcmAes128 | .gcmAesXpn128 => true
  | .gcmAes256 | .gcmAesXpn256 => false

/-- The word of the packet number, behind the keys. -/
def pnWord (suite : CipherSuite) : Nat := if aes128 suite then 10 else 14

/-- The address of a word of a transform record. -/
def xformAddr : Direction → Nat → Nat → Nat
  | .egress, record, n => (0x8000 + n) ||| (record * 32)
  | .ingress, record, n => n ||| (record * 32)

/-- The words from 2 on: the key, and the four words of the hash key. -/
def xformKeyWord (sak : Sak) (aes128 : Bool) (n : Nat) : BitVec 32 :=
  if n ≤ (if aes128 then 5 else 9) then getU32 sak.buf ((n - 2) * 4)
  else getU32 sak.hBuf ((n - if aes128 then 6 else 10) * 4)

namespace Conf

variable (c : Conf) (i : Nat) (d : Direction) (an sc : Nat)

def sakAt : Sak :=
  match d with
  | .egress => (c.txSaAt i an).sak
  | .ingress => (c.rxSaAt i sc an).sak

def ssciAt : Ssci :=
  match d with
  | .egress => (c.txSaAt i an).ssci
  | .ingress => (c.rxSaAt i sc an).ssci

end Conf

/-- `get_xform_value`: word `n` of the record of an SA with 32-bit packet numbers. `ctxt` is what
`get_new_context_id` returns. -/
def getXformValue (c : Conf) (i : Nat) (d : Direction) (an sc : Nat) (ctxt : BitVec 32) (n : Nat) : BitVec 32 :=
  let aes128 := aes128 (c.secy i).conf.currentCipherSuite
  let crypto : BitVec 32 := (if aes128 then 0xB else 0xF) <<< 16
  let replayWindow := word (c.rxScAt i sc).conf.replayWindow
  let pn := pnWord (c.secy i).conf.currentCipherSuite
  if n = 0 then
    match d with
    | .egress => 0x9241E066 ||| crypto ||| (word an <<< 26)
    | .ingress => 0xD241E06F ||| crypto
  else if n = 1 then ctxt
  else if n < pn then xformKeyWord (c.sakAt i d an sc) aes128 n
  else
    match n - pn, d with
    | 0, .egress => (c.txSaAt i an).nextPn
    | 0, .ingress => (c.rxSaAt i sc an).lowestPn + replayWindow
    | 1, .egress => getU32 (c.secy i).sci.macAddr 0
    | 1, .ingress => replayWindow
    | 2, .egress => sciHiWord (c.secy i).sci
    | 2, .ingress => getU32 (c.rxScAt i sc).sci.macAddr 0
    | 3, .ingress => sciHiWord (c.rxScAt i sc).sci
    | _, _ => 0

/-- `get_xform_value_64`: word `n` of the record of an SA with 64-bit packet numbers. -/
def getXformValue64 (c : Conf) (i : Nat) (d : Direction) (an sc : Nat) (ctxt : BitVec 32) (n : Nat) : BitVec 32 :=
  let aes128 := aes128 (c.secy i).conf.currentCipherSuite
  let crypto : BitVec 32 := (if aes128 then 0xB else 0xF) <<< 16
  let replayWindow := (c.rxScAt i sc).conf.replayWindow
  let temp2 : BitVec 64 := (c.rxSaAt i sc an).pnLowestPn + BitVec.ofNat 64 replayWindow
  let salt := (c.sakAt i d an sc).salt
  let pn := pnWord (c.secy i).conf.currentCipherSuite
  if n = 0 then
    match d with
    | .egress => 0xA241E066 ||| crypto ||| (word an <<< 26)
    | .ingress => 0xE241A0EF ||| crypto
  else if n = 1 then ctxt
  else if n < pn then xformKeyWord (c.sakAt i d an sc) aes128 n
  else
    match n - pn, d with
    | 0, .egress => (c.txSaAt i an).pnNextPn.setWidth 32 - 1
    | 0, .ingress => temp2.setWidth 32
    | 1, .egress => (((c.txSaAt i an).pnNextPn - 1) >>> 32).setWidth 32
    | 1, .ingress => (temp2 >>> 32).setWidth 32
    | 2, .egress => 0
    | 2, .ingress => if replayWindow ≤ replayWindowSize then word replayWindow else 0
    | 3, _ => getU32 salt 0 ^^^ getU32 (c.ssciAt i d an sc) 0
    | 4, _ => getU32 salt 4
    | 5, _ => getU32 salt 8
    | 6, .egress => getU32 (c.secy i).sci.macAddr 0
    | 7, .egress => sciHiWord (c.secy i).sci
    | _, _ => 0

/-- `xform_rec_size`, or 24 for the egress record of an XPN suite. -/
def xformRecSize (c : Conf) (i : Nat) : Direction → Nat
  | .egress => if c.xpn i || c.glb.macsecRevb then 24 else 20
  | .ingress => 20

/-- Word `n` that `macsec_sa_xform_set` writes. -/
def xformWord (c : Conf) (i : Nat) (d : Direction) (an sc : Nat) (ctxt : BitVec 32) (n : Nat) : BitVec 32 :=
  if c.xpn i then getXformValue64 c i d an sc ctxt n else getXformValue c i d an sc ctxt n

/-- The writes of `macsec_sa_xform_set`. -/
def xformWrites (c : Conf) (d : Direction) (record i an sc : Nat) (ctxt : BitVec 32) : List (Nat × BitVec 32) :=
  (List.range (xformRecSize c i d)).map fun n => (xformAddr d record n, xformWord c i d an sc ctxt n)

/-! ## The hardware -/

/-- The register sequences that do not write transform records. -/
def HwOp.sparesXform : HwOp → Bool
  | .powerGet | .checkPnOff | .saMatchSet .. | .saMatchReset .. | .saFlowSet .. | .saFlowClear .. | .saMaskClear ..
  | .saEnable .. | .saInuse .. | .saToggle .. | .samInFlight _ | .saCountersGet .. | .controlRule .. => true
  | _ => false

/-- Hardware of which the transform records are seen. Their words are storage; the packet numbers are counted up by
traffic. -/
structure Chip (H : Type) extends Hw H where
  regs : RegFile Nat 32 H (fun _ => False) fun _ => True
  xformSet : ∀ d record i an sc c h, ∃ ctxt,
    run (.saXformSet d record i an sc) c h = regs.writes (xformWrites c d record i an sc ctxt) h
  spares : ∀ op, op.sparesXform = true → ∀ c h q, regs.peek (run op c h).2 q = regs.peek h q

/-- The registers of a packet number. -/
def pnRegs (d : Direction) (record : Nat) (suite : CipherSuite) : List Nat :=
  let r := xformAddr d record (pnWord suite)
  if suite.xpn then [r, xformAddr d record (pnWord suite + 1)] else [r]

section Calls

variable {H : Type} (chip : Chip H) (phy : Phy)

/-- The packet number in a record. -/
def Chip.pn (h : H) (d : Direction) (record : Nat) (suite : CipherSuite) : PktNum :=
  pnJoin suite.xpn (chip.regs.peek h (xformAddr d record (pnWord suite)))
    (chip.regs.peek h (xformAddr d record (pnWord suite + 1)))

/-- `MACSEC_CNT64_RD` or `CSR_RD` of the packet number in a record. -/
def readPn (d : Direction) (record : Nat) (suite : CipherSuite) : Call H PktNum := do
  let lo ← read chip.regs.toBus (fun _ => Rc.access) (xformAddr d record (pnWord suite))
  if suite.xpn then
    let hi ← read chip.regs.toBus (fun _ => Rc.access) (xformAddr d record (pnWord suite + 1))
    return pnJoin true lo hi
  else return pnJoin false lo 0

/-! ## Transmit SAs -/

/-- `vtss_macsec_tx_sa_status_get_priv`: under an XPN suite `next_pn` stays what it was. -/
def txSaStatusGetPriv (i an : Nat) : Call H Unit := do
  let c ← getConf
  failIf (saPerScMax ≤ an) .error
  failIf ((c.secy i).txSc.sa an = none) .error
  let suite := (c.secy i).conf.currentCipherSuite
  let value ← readPn chip .egress (c.txSaAt i an).record suite
  if suite.xpn then modifyConf fun c => c.setTxSaAt i an fun sa => { sa with pnNextPn := value + 1 }
  else modifyConf fun c => c.setTxSaAt i an fun sa => { sa with
    nextPn := value.pn + 1
    pnNextPn := sa.pnNextPn.setPn (value.pn + 1) }

/-- `vtss_macsec_tx_sa_status_get`. -/
def txSaStatusGet (port : MacsecPort) (an : Nat) : Call H TxSaStatus := do
  let i ← portCheck phy port
  txSaStatusGetPriv chip i an
  let c ← getConf
  let sa := c.txSaAt i an
  return ⟨sa.statusInUse, sa.nextPn, sa.pnNextPn⟩

/-! ## Receive SAs -/

/-- `vtss_macsec_rx_sa_get_priv`; `lowestPn` is what the caller's union holds before. -/
def rxSaGetPriv (i : Nat) (sci : Sci) (an : Nat) (lowestPn : PktNum) : Call H (RxSaConf PktNum) := do
  orFail (hwOp chip.toHw .powerGet) .phyPoweredDown
  let sc ← scFromSci phy i sci
  let c ← getConf
  failIf (saPerScMax ≤ an) .error
  failIf ((c.rxScAt i sc).sa an = none) (.macsec .anNotExist)
  let suite := (c.secy i).conf.currentCipherSuite
  let sa := c.rxSaAt i sc an
  let window := (c.rxScAt i sc).conf.replayWindow
  let value ← readPn chip .ingress sa.record suite
  let lowest : PktNum :=
    if suite.xpn then if window < value.toNat then value - BitVec.ofNat 64 window else 0
    else lowestPn.setPn (if window < value.pn.toNat then value.pn - BitVec.ofNat 32 window else 0)
  return ⟨lowest, sa.sak, sa.statusInUse, some sa.ssci⟩

/-- `vtss_macsec_rx_sa_get`, which hands out the low word of a union of its own. -/
def rxSaGet (port : MacsecPort) (sci : Sci) (an : Nat) : Call H (RxSaConf (BitVec 32)) := do
  let conf ← rxSaGetPriv chip phy (← portCheck phy port) sci an 0
  return ⟨conf.lowestPn.pn, conf.sak, conf.active, none⟩

/-- `vtss_macsec_rx_seca_get`. -/
def rxSecaGet (port : MacsecPort) (sci : Sci) (an : Nat) (lowestPn : PktNum) : Call H (RxSaConf PktNum) := do
  rxSaGetPriv chip phy (← portCheck phy port) sci an lowestPn

/-- `vtss_macsec_rx_sa_status_get_priv`: an unknown SCI is no error, and then the caller's status is not written. -/
def rxSaStatusGetPriv (i : Nat) (sci : Sci) (an : Nat) : Call H (Option RxSaStatus) := do
  let c ← getConf
  match c.scFromSciGet phy i sci with
  | none => return none
  | some sc => do
    failIf (saPerScMax ≤ an) .error
    failIf ((c.rxScAt i sc).sa an = none) .error
    failIf ((c.rxSaAt i sc an).inUse = false) .error
    let suite := (c.secy i).conf.currentCipherSuite
    let window := (c.rxScAt i sc).conf.replayWindow
    let value ← readPn chip .ingress (c.rxSaAt i sc an).record suite
    if suite.xpn then modifyConf fun c => c.setRxSaAt i sc an fun sa => { sa with
      pnNextPn := value
      pnLowestPn := if value.toNat ≤ window then 1 else value - BitVec.ofNat 64 window }
    else modifyConf fun c => c.setRxSaAt i sc an fun sa => { sa with
      nextPn := value.pn
      lowestPn := if value.pn.toNat ≤ window then 1 else value.pn - BitVec.ofNat 32 window }
    let c ← getConf
    let sa := c.rxSaAt i sc an
    return some ⟨sa.statusInUse, sa.nextPn, sa.lowestPn, sa.pnNextPn, sa.pnLowestPn⟩

/-- `vtss_macsec_rx_sa_status_get`. -/
def rxSaStatusGet (port : MacsecPort) (sci : Sci) (an : Nat) : Call H (Option RxSaStatus) := do
  rxSaStatusGetPriv chip phy (← portCheck phy port) sci an

end Calls

/-! ## What is written is read -/

section Words

variable {H : Type} {chip : Chip H} {d : Direction} {r i an sc n m : Nat} {suite : CipherSuite} {c : Conf} {h h' : H}
  {ctxt : BitVec 32} {v : PktNum} {s s' : Dev Conf H}

theorem xformAddr_mod (hn : n < 32) : xformAddr d r n % 32 = n := by
  have hor : ∀ a, (a ||| r * 32) % 2 ^ 5 = a % 2 ^ 5 := fun a => by
    rw [Nat.or_mod_two_pow, Nat.mul_mod_left, Nat.or_zero]
  cases d with
  | egress => exact (hor _).trans (by omega)
  | ingress => exact (hor _).trans (by omega)

theorem xformAddr_inj (hn : n < 32) (hm : m < 32) (he : xformAddr d r n = xformAddr d r m) : n = m := by
  rw [← xformAddr_mod (d := d) (r := r) hn, he, xformAddr_mod hm]

theorem xformRecSize_bounds : 20 ≤ xformRecSize c i d ∧ xformRecSize c i d ≤ 24 := by
  cases d with
  | egress =>
    rw [xformRecSize]
    split <;> decide
  | ingress => exact ⟨le_refl 20, (by decide : 20 ≤ 24)⟩

theorem pnWord_lt : pnWord suite + 1 < 20 := by cases suite <;> decide

/-- A word of the record, after all of them have been written. -/
theorem peek_xformSet (hn : n < 20) (hok : (chip.regs.writes (xformWrites c d r i an sc ctxt) h).1 = true) :
    chip.regs.peek (chip.regs.writes (xformWrites c d r i an sc ctxt) h).2 (xformAddr d r n) =
      xformWord c i d an sc ctxt n := by
  have hsize := xformRecSize_bounds (c := c) (i := i) (d := d)
  refine chip.regs.peek_writes_of_mem not_false ?_ ?_ hok
  · rw [xformWrites, List.map_map]
    refine List.Nodup.map_on (fun x hx y hy he => ?_) List.nodup_range
    rw [List.mem_range] at hx hy
    exact xformAddr_inj (by omega) (by omega) he
  · exact List.mem_map_of_mem (List.mem_range.mpr (by omega))

/-- The packet number that the record is given. -/
def pnWritten (c : Conf) (i : Nat) (d : Direction) (an sc : Nat) : PktNum :=
  match d with
  | .egress => if c.xpn i then (c.txSaAt i an).pnNextPn - 1 else (c.txSaAt i an).nextPn.setWidth 64
  | .ingress =>
    if c.xpn i then (c.rxSaAt i sc an).pnLowestPn + BitVec.ofNat 64 (c.rxScAt i sc).conf.replayWindow
    else ((c.rxSaAt i sc an).lowestPn + word (c.rxScAt i sc).conf.replayWindow).setWidth 64

theorem pnJoin_words : pnJoin (c.xpn i) (xformWord c i d an sc ctxt (pnWord (c.secy i).conf.currentCipherSuite))
    (xformWord c i d an sc ctxt (pnWord (c.secy i).conf.currentCipherSuite + 1)) = pnWritten c i d an sc := by
  have hne : pnWord (c.secy i).conf.currentCipherSuite ≠ 0 ∧ pnWord (c.secy i).conf.currentCipherSuite ≠ 1 := by
    cases (c.secy i).conf.currentCipherSuite <;> decide
  have hlo : ∀ x : PktNum, x.setWidth 32 - 1 = (x - 1).setWidth 32 := fun x => by bv_omega
  cases hx : c.xpn i with
  | true =>
    simp only [xformWord, hx, ↓reduceIte, getXformValue64, hne.1, hne.2, Nat.add_eq_zero_iff, false_and,
      Nat.add_eq_right, lt_irrefl, Nat.sub_self, Nat.not_lt.mpr (Nat.le_add_right _ 1),
      Nat.add_sub_cancel_left]
    cases d with
    | egress => simp only [hlo, Macsec.pnJoin_split, pnWritten, hx, ↓reduceIte]
    | ingress => simp only [Macsec.pnJoin_split, pnWritten, hx, ↓reduceIte]
  | false =>
    simp only [pnJoin, xformWord, hx, Bool.false_eq_true, ↓reduceIte, getXformValue, hne.1, hne.2, lt_irrefl,
      Nat.sub_self]
    cases d with
    | egress => simp only [pnWritten, hx, Bool.false_eq_true, ↓reduceIte]
    | ingress => simp only [pnWritten, hx, Bool.false_eq_true, ↓reduceIte]

/-- **After a record is written, its packet number reads as what was written.** -/
theorem pn_xformSet (hok : (chip.run (.saXformSet d r i an sc) c h).1 = true) :
    chip.pn (chip.run (.saXformSet d r i an sc) c h).2 d r (c.secy i).conf.currentCipherSuite = pnWritten c i d an sc := by
  obtain ⟨ctxt, hrun⟩ := chip.xformSet d r i an sc c h
  rw [hrun] at hok ⊢
  have hlt := @pnWord_lt (c.secy i).conf.currentCipherSuite
  rw [Chip.pn, peek_xformSet (by omega) hok, peek_xformSet (by omega) hok]
  exact pnJoin_words

theorem pn_congr (hq : ∀ q, chip.regs.peek h' q = chip.regs.peek h q) : chip.pn h' d r suite = chip.pn h d r suite := by
  simp only [Chip.pn, hq]

/-- A number of 32 bits. -/
theorem pn_short (hx : suite.xpn = false) : (chip.pn h d r suite).toNat < 2 ^ 32 := by
  simp only [Chip.pn, hx, pnJoin, Bool.false_eq_true, ↓reduceIte, BitVec.toNat_setWidth]
  omega

theorem read_ok_iff {q : Nat} {u : BitVec 32} : (read chip.regs.toBus (fun _ => Rc.access) q : Call H _) s = .ok u s' ↔
    (∃ v, (chip.regs.rd q s.hw).1 = .ok v) ∧ u = chip.regs.peek s.hw q ∧ s' = { s with hw := (chip.regs.rd q s.hw).2 } := by
  constructor
  · intro hs
    obtain ⟨hv, hs'⟩ := read_ok chip.regs.toBus _ hs
    exact ⟨⟨u, hv⟩, chip.regs.rd_ok q s.hw u not_false hv, hs'⟩
  · rintro ⟨⟨v, hv⟩, rfl, rfl⟩
    rw [← chip.regs.rd_ok q s.hw v not_false hv]
    exact read_eq_ok chip.regs.toBus _ hv

/-- Reading a packet number: when it succeeds, and what it gives. -/
theorem readPn_ok_iff : readPn chip d r suite s = .ok v s' ↔ chip.regs.Answers (pnRegs d r suite) s.hw ∧
    v = chip.pn s.hw d r suite ∧ s' = { s with hw := chip.regs.afterReads (pnRegs d r suite) s.hw } := by
  cases hx : suite.xpn with
  | false =>
    simp only [readPn, hx, Bool.false_eq_true, ↓reduceIte, bind_ok_iff, read_ok_iff, pnRegs, Bus.Answers,
      Bus.afterReads, and_true, Chip.pn, pnJoin]
    constructor
    · rintro ⟨u, t, ⟨ha, rfl, rfl⟩, hv⟩
      cases hv
      exact ⟨ha, rfl, rfl⟩
    · rintro ⟨ha, rfl, rfl⟩
      exact ⟨_, _, ⟨ha, rfl, rfl⟩, rfl⟩
  | true =>
    simp only [readPn, hx, ↓reduceIte, bind_ok_iff, read_ok_iff, pnRegs, Bus.Answers, Bus.afterReads, and_true, Chip.pn]
    constructor
    · rintro ⟨u, t, ⟨ha, rfl, rfl⟩, u', t', ⟨ha', rfl, rfl⟩, hv⟩
      cases hv
      exact ⟨⟨ha, ha'⟩, by rw [chip.regs.peek_rd _ _ _ not_false], rfl⟩
    · rintro ⟨⟨ha, ha'⟩, rfl, rfl⟩
      refine ⟨_, _, ⟨ha, rfl, rfl⟩, _, _, ⟨ha', rfl, rfl⟩, ?_⟩
      rw [chip.regs.peek_rd _ _ _ not_false]
      rfl

end Words

/-! ## A chip for examples -/

/-- Transform records that are nothing but storage. -/
def benchRegs : RegFile Nat 32 (Nat → BitVec 32) (fun _ => False) fun _ => True := storage _ _

/-- A chip that answers every access. -/
def benchChip : Chip (Nat → BitVec 32) where
  run op c h :=
    match op with
    | .saXformSet d record i an sc => benchRegs.writes (xformWrites c d record i an sc (word record)) h
    | _ => (true, h)
  nextPn c i record h := (some (h (xformAddr .ingress record (pnWord (c.secy i).conf.currentCipherSuite))), h)
  regs := benchRegs
  xformSet _ record _ _ _ _ _ := ⟨word record, rfl⟩
  spares op hop c h q := by
    cases op with
    | saXformSet => cases hop
    | _ => rfl

def benchChipProbed : Dev Conf (Nat → BitVec 32) := { conf := {}, hw := fun _ => 0 }

theorem benchRegs_answers (qs : List Nat) (h : Nat → BitVec 32) : benchRegs.Answers qs h := storage_answers qs

end Lan80xx.VtssMacsec
