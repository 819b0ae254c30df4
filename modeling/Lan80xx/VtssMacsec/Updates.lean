import Lan80xx.VtssMacsec.Device

/-!
# MACsec of the VTSS PHYs: the updates of the tables

Every call changes the tables by a few kinds of updates, each under what the call has looked up before.

- `Update`: the updates, by kinds;
- `Admits`: a frame that admits the updates of some kinds, and the register sequences that go with them;
- `moving_op`: a call stays within the frames that admit its kinds (`Op.kinds`), returned or failed;
- `reachable_induction`: what each update keeps holds of every reachable state.
-/

namespace Lan80xx.VtssMacsec

open Fallible RegBus
open Macsec (Ssci MacsecPort Sci Sak PktNum SecyConf RxScConf MatchPattern MatchAction Direction ControlFrameMatchConf
  saPerScMax notInUse)

/-! ## The updates -/

/-- An update of the settings of a SecY, which leaves its port, its suite and what it points to. -/
structure Settings (f : Secy → Secy) : Prop where
  inUse : ∀ s, (f s).inUse = s.inUse
  serviceId : ∀ s, (f s).serviceId = s.serviceId
  sci : ∀ s, (f s).sci = s.sci
  suite : ∀ s, (f s).conf.currentCipherSuite = s.conf.currentCipherSuite
  rxSc : ∀ s, (f s).rxSc = s.rxSc
  txSa : ∀ s, (f s).txSc.sa = s.txSc.sa
  patternRecord : ∀ s, (f s).patternRecord = s.patternRecord

/-- What an update does: it changes settings, gives an entry up, takes one for an SA or for a pattern. Those of receive
channels are kinds of their own. -/
inductive Kind
  | setting
  | release
  | take
  | pattern
  | suite
  | opens
  | recfg
  | rxSetting
  | rxRelease
  | rxTake
  | rxMove
  deriving DecidableEq

/-- The updates that the calls make, with what they have found in the tables. -/
inductive Update (phy : Phy) (c : Conf) : Kind → Conf → Prop
  | txSaAgain {i an r : Nat} {nextPn : PktNum} (han : an < saPerScMax) (hsa : (c.secy i).txSc.sa an = some r) :
    Update phy c .take ((c.pointTxSa i an (c.txSa r).record).startTxSa (c.txSa r).record nextPn.pn nextPn)
  | txSaTake {i an r : Nat} {b : Bool} {sak : Sak} {ssci : Option Ssci} (han : an < saPerScMax)
    (hrec : c.glb.spdChangeMacsecRecfg = false) (hsa : (c.secy i).txSc.sa an = none)
    (hr : c.recordEmptyGet phy .egress = some r) : Update phy c .take ((c.pointTxSa i an r).keyTxSa r b sak ssci)
  | txSaStart {i an r : Nat} {nextPn : BitVec 32} {pnNextPn : PktNum} (hsa : (c.secy i).txSc.sa an = some r)
    (hr : (c.txSa r).record = r) : Update phy c .take (c.startTxSa r nextPn pnNextPn)
  | txSaRetire {i an : Nat} : Update phy c .setting (c.retireTxSa i an)
  | txSaActivate {i an : Nat} (han : an < saPerScMax) : Update phy c .setting (c.activateTxSa i an)
  | txSaDisable {i an : Nat} : Update phy c .setting (c.disableTxSa i an)
  | txSaFree {i an : Nat} : Update phy c .release (c.freeTxSa i an (c.txSaAt i an).record)
  | rxSaAgain {i sc an p r : Nat} {lowestPn : PktNum} (hp : (c.secy i).rxSc sc = some p)
    (hpu : (c.rxSc p).inUse = true) (han : an < saPerScMax) (hsa : (c.rxSc p).sa an = some r) :
    Update phy c .rxTake ((c.pointRxSa i sc an (c.rxSa r).record).startRxSa (c.rxSa r).record lowestPn)
  | rxSaTake {i sc an p r : Nat} {lowestPn : PktNum} {sak : Sak} {ssci : Option Ssci}
    (hp : (c.secy i).rxSc sc = some p) (hpu : (c.rxSc p).inUse = true) (han : an < saPerScMax)
    (hrec : c.glb.spdChangeMacsecRecfg = false) (hsa : (c.rxSc p).sa an = none)
    (hr : c.recordEmptyGet phy .ingress = some r) :
    Update phy c .rxTake (((c.pointRxSa i sc an r).keyRxSa r sak ssci).startRxSa r lowestPn)
  | rxSaFlag {i sc an : Nat} {b : Bool} : Update phy c .rxSetting (c.flagRxSa i sc an b)
  | rxSaLowest {i sc an : Nat} {lowestPn : BitVec 32} :
    Update phy c .rxSetting (c.setRxSaAt i sc an fun sa => { sa with lowestPn })
  | rxSaMove {i sc an p r q : Nat} (hp : (c.secy i).rxSc sc = some p) (hpu : (c.rxSc p).inUse = true)
    (hrev : c.glb.macsecRevb = false) (hsa : (c.rxSc p).sa an = some r) (hu : (c.rxSa r).inUse = true)
    (hq : c.recordEmptyGet phy .ingress = some q) : Update phy c .rxMove (c.moveRxSa i sc an (c.rxSa r).record q)
  | rxSaFree {i sc an : Nat} : Update phy c .rxRelease (c.freeRxSa i sc an (c.rxSaAt i sc an).record)
  | txScClear {i : Nat} : Update phy c .release (c.setSecy i fun s => { s with txSc := {} })
  | rxScOpen {i sc p : Nat} {sci : Sci} (hsc : (c.secy i).rxSc sc = none) (hp : (c.rxSc p).inUse = false)
    (hlt : p < phy.maxScCnt) (hsci : isSciValid sci = true) (hnew : ∀ q < phy.maxScCnt, (c.rxSc q).sci ≠ sci) :
    Update phy c .rxRelease (c.openRxSc i sc p sci)
  | rxScConf {i sc : Nat} {f : RxSc → RxScConf} :
    Update phy c .rxSetting (c.setRxScAt i sc fun x => { x with conf := f x })
  | rxScFree {i sc : Nat} : Update phy c .rxRelease (c.freeRxSc i sc)
  | secyOpen {i : Nat} {port : MacsecPort} {conf : SecyConf} (hi : i < phy.maxSecyCnt)
    (hu : (c.secy i).inUse = false) (hsuite : suiteRejected c.glb.macsecRevb conf = false) :
    Update phy c .opens ((c.openSecy i port conf).setSecy i fun s => { s with inUse := isSciValid s.sci })
  | secyUpdate {i : Nat} {conf : SecyConf} (hsuite : suiteRejected c.glb.macsecRevb conf = false) :
    Update phy c .suite (c.updateSecy i conf)
  | secySettings {i : Nat} {f : Secy → Secy} (hf : Settings f) : Update phy c .setting (c.setSecy i f)
  | secyClear {i : Nat} : Update phy c .release (c.clearSecy i)
  | patternTake {secy : Option Nat} {d : Direction} {a : MatchAction} {rule r : Nat}
    (hr : patternEntry phy c secy d a = some r) : Update phy c .pattern (c.takePattern secy d a rule r)
  | patternFree {i : Nat} {d : Direction} {a : MatchAction} :
    Update phy c .release (c.setSaInUse d ((c.secy i).patternRecord a d) false)
  | patternForget {i : Nat} {d : Direction} {a : MatchAction} :
    Update phy c .setting (c.setPatternRecord i a d notInUse)
  | bypassFree {rule : Nat} : Update phy c .release (c.freeBypass rule (c.glb.egrBypassRecord rule))
  | controlMatch {rule : Nat} {conf : ControlFrameMatchConf} : Update phy c .setting (c.setControlMatch rule conf)
  | rulesClear : Update phy c .setting c.clearRules
  | bypassRelease : Update phy c .release (c.releaseBypass cpRules)
  | disable : Update phy c .release (c.disabled phy)
  | glb {f : Glb → Glb} (hf : SameRules c.glb (f c.glb)) : Update phy c .setting (c.setGlb f)
  | recfg {b : Bool} {speed : Nat} :
    Update phy c .recfg (c.setGlb fun g => { g with spdChangeMacsecRecfg := b, recfgSpeed := speed })
  | recfgDone : Update phy c .recfg (c.setGlb fun g => { g with spdChangeMacsecRecfg := false })

/-- The kinds of updates of receive channels and of suites. -/
def Kind.receive : Kind → Bool
  | .rxSetting | .rxRelease | .rxTake | .rxMove | .suite => true
  | _ => false

/-- The register sequences that leave the switches of the transmit entries alone. -/
def HwOp.plain : HwOp → Bool
  | .saEnable _ .egress _ | .saInuse _ .egress _ | .saToggle _ _ .egress => false
  | .saFlowSet .egress .. | .saFlowClear .egress _ => false
  | .initBlock | .enableBlocks | .disableBlocks | .recfgReset => false
  | _ => true

/-- A frame that admits the updates of the kinds `K`. Those of receive channels and of suites go with register sequences
that leave the transmit entries alone. -/
structure Admits {H : Type} (hw : Hw H) (phy : Phy) (K : Kind → Bool) (F : Frame (Dev Conf H)) : Prop where
  access : ∀ op : HwOp, (op.plain = true ∨ ∃ k, K k = true ∧ k.receive = false) → Within F (hwOp hw op)
  nextPn : ∀ i r, Within F (readNextPn hw i r)
  update : ∀ {k s c'}, K k = true → Update phy s.conf k c' → F.rel s { s with conf := c' }

section Rules

variable {H α β : Type} {hw : Hw H} {phy : Phy} {K : Kind → Bool} {k : Kind} {F : Frame (Dev Conf H)} {c : Conf}
  {P : Dev Conf H → Prop} {x : Call H α}

/-- A frame that looks at the tables alone. -/
theorem admits_onConf {F : Frame Conf} (h : ∀ k c c', K k = true → Update phy c k c' → F.rel c c') :
    Admits hw phy K (onConf F) where
  access op _ := soft_hwOp op
  nextPn i r := soft_confFrame (within_readNextPn hw i r)
  update hk hu := h _ _ _ hk hu

theorem moving_getConf_bind {f : Conf → Call H β} (h : ∀ c, Steps F (fun s => s.conf = c) (f c) fun _ _ => True) :
    Within F (getConf >>= f) := fun s => (steps_getConf_bind (h s.conf) s rfl).1

/-- The rest of a call of which the tables no longer matter. -/
theorem moving_rest (hx : Within F x) : Steps F P x fun _ _ => True := (within_iff.mp hx).pre fun _ _ => trivial

theorem moving_ignored (hx : Within F x) : Within F (discard (attempt x) : Call H Unit) :=
  hx.attempt.bind fun _ => Within.pure _

/-- What leaves the tables alone. -/
theorem steps_soft (hx : Within F x) (hc : Within confFrame x) :
    Steps F (fun s => s.conf = c) x fun _ s => s.conf = c :=
  ((within_iff.mp hx).alongside hc fun _ _ hs h => h.trans hs).weaken (fun _ hs => ⟨trivial, hs⟩) fun _ _ hs => hs.2

/-- What follows the lookup of a channel. -/
theorem moving_scFromSci_bind {i : Nat} {sci : Sci} {f : Nat → Call H Unit} (hf : ∀ c sc,
    c.scFromSciGet phy i sci = some sc → Steps F (fun s => s.conf = c) (f sc) fun _ _ => True) :
    Within F (scFromSci phy i sci >>= f) := fun s => (steps_scFromSci.bind (fun sc => Steps.imp (hf s.conf sc)) s rfl).1

theorem moving_portCheck {port : MacsecPort} : Within F (portCheck phy port : Call H Nat) := by
  refine within_getConf.bind fun c => Within.failIf.bind fun _ => ?_
  cases c.portFind phy port with
  | none => exact Within.throw _
  | some i => exact Within.pure i

theorem moving_enabledCheck : Within F (enabledCheck : Call H Unit) := within_getConf.bind fun _ => Within.failIf

/-- A register sequence of which the outcome is ignored. -/
theorem steps_ignored {op : HwOp} (hop : Within F (hwOp hw op)) : Steps F (fun s => s.conf = c)
    (discard (attempt (hwOp hw op)) : Call H Unit) fun _ s => s.conf = c :=
  steps_soft (moving_ignored hop) ((within_hwOp hw op).attempt.bind fun _ => Within.pure _)

variable (hF : Admits hw phy K F)

include hF

theorem Admits.hwOp (hK : K k = true) (hk : k.receive = false) {op : HwOp} : Within F (VtssMacsec.hwOp hw op) :=
  hF.access op (.inr ⟨k, hK, hk⟩)

theorem Admits.plain {op : HwOp} (hop : op.plain = true) : Within F (VtssMacsec.hwOp hw op) := hF.access op (.inl hop)

theorem moving_store (hK : K k = true) {f : Conf → Conf} (h : ∀ c, Update phy c k (f c)) :
    Within F (modifyConf f : Call H PUnit) := fun s => hF.update hK (h s.conf)

/-- An update of tables that are known. -/
theorem moving_update (hK : K k = true) {f : Conf → Conf} (h : Update phy c k (f c)) :
    Steps F (fun s => s.conf = c) (modifyConf f : Call H PUnit) fun _ s => s.conf = f c := by
  refine Steps.modify ?_
  rintro s rfl
  exact ⟨hF.update hK h, rfl⟩

end Rules

/-! ## SAs -/

section Calls

variable {H : Type} {hw : Hw H} {phy : Phy} {K : Kind → Bool} {F : Frame (Dev Conf H)} {c : Conf} {d : Direction}
  {i an sc r : Nat} {sci : Sci} {port : MacsecPort} (hF : Admits hw phy K F)

include hF

theorem moving_txSaProgram {k : Kind} (hK : K k = true) (hk : k.receive = false) : Within F (txSaProgram hw i an r) := by
  have hop {op : HwOp} : Within F (hwOp hw op) := hF.hwOp hK hk
  refine within_getConf.bind fun c => hop.orFail.bind fun _ => hop.orFail.bind fun _ => ?_
  exact (Within.when fun _ => hop.orFail).bind fun _ => Within.when fun _ => hop.orFail

theorem moving_rxSaProgram : Within F (rxSaProgram hw i sc an r) := by
  refine within_getConf.bind fun c => (hF.plain rfl).orFail.bind fun _ => (hF.plain rfl).orFail.bind fun _ => ?_
  exact (Within.when fun _ => (hF.plain rfl).orFail).bind fun _ => (hF.plain rfl).orFail

theorem moving_txSaSet (ht : K .take = true) {nextPn : PktNum} {b : Bool} {sak : Sak} {ssci : Option Ssci} :
    Within F (txSaSet hw phy i an nextPn b sak ssci) := by
  refine moving_getConf_bind fun c => Steps.failIf_bind fun han => Steps.failIf_bind fun _ => Steps.failIf_bind fun _ => ?_
  have hlt : an < saPerScMax := Nat.lt_of_not_le han
  split
  · exact Steps.throw
  · exact Steps.pure fun _ _ => trivial
  · next r hsa _ =>
    exact (moving_update hF ht (.txSaAgain hlt hsa)).bind fun _ => moving_rest (moving_txSaProgram hF ht rfl)
  · next hsa hrec =>
    split
    · exact Steps.throw
    · next r hr =>
      refine (moving_update hF ht (.txSaTake hlt hrec hsa hr)).bind fun _ => Steps.failIf_bind fun _ => ?_
      refine (moving_update hF ht (@Update.txSaStart _ _ i an r _ nextPn ?_ ?_)).bind fun _ =>
        moving_rest (moving_txSaProgram hF ht rfl)
      · simp [Conf.keyTxSa, Conf.pointTxSa, Conf.linkTxSa]
      · simp [Conf.keyTxSa, Conf.pointTxSa]

theorem moving_txSaActivate (hs : K .setting = true) : Within F (txSaActivate hw i an) := by
  have hop {op : HwOp} : Within F (hwOp hw op) := hF.hwOp hs rfl
  refine within_getConf.bind fun c => Within.ite (Within.pure _) ?_
  refine within_iff.mpr (Steps.failIf_bind fun han => moving_rest ?_)
  refine Within.failIf.bind fun _ => Within.failIf.bind fun _ => hop.orFail.bind fun _ => hop.orFail.bind fun _ => ?_
  refine (Within.when fun _ => hop.orFail.bind fun _ => moving_store hF hs fun _ => .txSaRetire).bind fun _ => ?_
  exact moving_store hF hs fun _ => .txSaActivate (Nat.lt_of_not_le han)

theorem moving_txSaDisable (hs : K .setting = true) : Within F (txSaDisable hw i an) := by
  have hop {op : HwOp} : Within F (hwOp hw op) := hF.hwOp hs rfl
  refine within_getConf.bind fun c => Within.failIf.bind fun _ => Within.failIf.bind fun _ => ?_
  exact hop.orFail.bind fun _ => hop.orFail.bind fun _ => moving_store hF hs fun _ => .txSaDisable

theorem moving_txSaDel (hr : K .release = true) : Within F (txSaDel hw i an) := by
  have hop {op : HwOp} : Within F (hwOp hw op) := hF.hwOp hr rfl
  refine moving_getConf_bind fun c => Steps.failIf_bind fun _ => Steps.failIf_bind fun _ => ?_
  refine (steps_ignored hop).bind fun _ => (steps_ignored hop).bind fun _ => ?_
  refine (moving_update hF hr .txSaFree).bind fun _ => moving_rest ?_
  exact hop.bind fun _ => hop.bind fun _ => hop.orFail.bind fun _ => hop.orFail

theorem moving_rxSaSet (ht : K .rxTake = true) {lowestPn : PktNum} {sak : Sak} {ssci : Option Ssci} :
    Within F (rxSaSet hw phy i sci an lowestPn sak ssci) := by
  refine moving_scFromSci_bind fun c sc hsc => steps_getConf_bind ?_
  obtain ⟨-, p, hp, hpu, -⟩ := scFromSciGet_spec hsc
  refine Steps.failIf_bind fun _ => Steps.failIf_bind fun _ => Steps.failIf_bind fun han => ?_
  have hlt : an < saPerScMax := Nat.lt_of_not_le han
  refine Steps.bind (Steps.when (T := fun s => s.conf = c) (fun _ => steps_soft (hF.plain rfl) (within_hwOp hw _))
    fun _ _ hs => hs) fun _ => ?_
  rw [Conf.rxScAt_eq hp]
  split
  · exact Steps.throw
  · exact Steps.pure fun _ _ => trivial
  · next r hsa _ =>
    exact (moving_update hF ht (.rxSaAgain hp hpu hlt hsa)).bind fun _ => moving_rest (moving_rxSaProgram hF)
  · next hsa hrec =>
    split
    · exact Steps.throw
    · next r hr =>
      exact (moving_update hF ht (.rxSaTake hp hpu hlt hrec hsa hr)).bind fun _ => moving_rest (moving_rxSaProgram hF)

theorem moving_rxSaActivate (hs : K .rxSetting = true) : Within F (rxSaActivate hw phy i sci an) := by
  refine moving_scFromSci_bind fun _ sc _ => moving_rest ?_
  refine within_getConf.bind fun c => Within.ite (Within.pure _) ?_
  refine Within.failIf.bind fun _ => Within.failIf.bind fun _ => Within.failIf.bind fun _ => ?_
  exact (hF.plain rfl).orFail.bind fun _ => moving_store hF hs fun _ => .rxSaFlag

theorem moving_rxSaDisable (hs : K .rxSetting = true) : Within F (rxSaDisable hw phy i sci an) := by
  refine Within.failIf.bind fun _ => moving_scFromSci_bind fun _ sc _ => moving_rest ?_
  refine within_getConf.bind fun c => Within.failIf.bind fun _ => ?_
  exact (hF.plain rfl).orFail.bind fun _ => moving_store hF hs fun _ => .rxSaFlag

theorem moving_rxSaDel (hr : K .rxRelease = true) : Within F (rxSaDel hw phy i sci an) := by
  refine Within.failIf.bind fun _ => moving_scFromSci_bind fun _ sc _ => moving_rest ?_
  refine moving_getConf_bind fun c => Steps.failIf_bind fun _ => ?_
  refine (steps_soft (hF.plain rfl) (within_hwOp hw _)).orFail.bind fun _ => ?_
  refine (steps_ignored (hF.plain rfl)).bind fun _ => (steps_ignored (hF.plain rfl)).bind fun _ => ?_
  refine (moving_update hF hr .rxSaFree).bind fun _ => moving_rest ((hF.plain rfl).bind fun _ => ?_)
  exact (hF.plain rfl).bind fun _ => (hF.plain rfl).orFail.bind fun _ => (hF.plain rfl).orFail

omit hF in
/-- The record of the SA, and the free entries, after its lowest packet number is stored. -/
theorem lowest_eq {p : Nat} (phy : Phy) (lowestPn : BitVec 32) (hp : (c.secy i).rxSc sc = some p)
    (hsa : (c.rxSc p).sa an = some r) :
    let c' := c.setRxSaAt i sc an fun sa => { sa with lowestPn }
    c'.secy = c.secy ∧ c'.rxSc = c.rxSc ∧ (c'.rxSa r).record = (c.rxSa r).record ∧
      (c'.rxSa r).inUse = (c.rxSa r).inUse ∧ c'.recordEmptyGet phy .ingress = c.recordEmptyGet phy .ingress := by
  have hset : c.setRxSaAt i sc an (fun sa => { sa with lowestPn }) = c.setRxSa r fun sa => { sa with lowestPn } := by
    rw [Conf.setRxSaAt, Conf.rxScAt_eq hp, hsa]
  have huse : ∀ t, ((c.setRxSa r fun sa => { sa with lowestPn }).rxSa t).inUse = (c.rxSa t).inUse := by
    intro t
    rw [Conf.setRxSa_rxSa]
    split <;> simp_all
  simp only [hset]
  refine ⟨rfl, rfl, by simp, huse r, ?_⟩
  simp only [Conf.recordEmptyGet, Conf.saInUse, huse]

theorem moving_rxSaLowestPnUpdate (hs : K .rxSetting = true) (hm : K .rxMove = true) {lowestPn : PktNum} :
    Within F (rxSaLowestPnUpdate hw phy i sci an lowestPn) := by
  have hop {op : HwOp} (h : op.plain = true) : Within F (hwOp hw op) := hF.plain h
  refine moving_getConf_bind fun c => ?_
  split
  · exact Steps.pure fun _ _ => trivial
  · next sc hsc =>
    obtain ⟨-, p, hp, hpu, -⟩ := scFromSciGet_spec hsc
    refine Steps.failIf_bind fun _ => Steps.failIf_bind fun _ => Steps.failIf_bind fun hsa => ?_
    rw [Conf.rxScAt_eq hp] at hsa
    obtain ⟨r, hsa⟩ := Option.ne_none_iff_exists'.mp hsa
    rw [Conf.rxSaAt_eq hp hsa]
    refine Steps.failIf_bind fun hu => Steps.ite (fun _ => moving_rest (hop rfl).orFail) fun hrev => ?_
    refine (steps_soft (hF.nextPn _ _) (within_readNextPn hw _ _)).bind fun _ => Steps.when (fun _ => ?_) fun _ _ _ => trivial
    refine (moving_update hF hs .rxSaLowest).bind fun _ => ?_
    split
    · exact Steps.throw
    · next q hq =>
      obtain ⟨hsecy, hr, hrecord, huse, hempty⟩ := lowest_eq phy lowestPn.pn hp hsa
      rw [← hrecord]
      refine (moving_update hF hm (.rxSaMove (p := p) ?_ ?_ ?_ ?_ ?_ ?_)).bind fun _ => moving_rest ?_
      · rwa [hsecy]
      · rwa [hr]
      · simpa using hrev
      · rwa [hr]
      · rw [huse]
        exact Bool.eq_true_of_not_eq_false hu
      · rwa [hempty]
      · refine (hop rfl).orFail.bind fun _ => (hop rfl).orFail.bind fun _ => ?_
        refine (Within.when fun _ => (hop rfl).orFail).bind fun _ => ?_
        exact (hop rfl).orFail.bind fun _ => (hop rfl).orFail

/-! ## Patterns and control frame rules -/

omit hF in
theorem settings_setPattern {a : MatchAction} {f : MatchPattern → MatchPattern} :
    Update phy c .setting (c.setPattern i a d f) := .secySettings (by constructor <;> exact fun _ => rfl)

theorem moving_patternSetPriv (hp : K .pattern = true) {secy : Option Nat} {a : MatchAction} {pattern : MatchPattern}
    {rule : Nat} : Within F (patternSetPriv hw phy secy d a pattern rule) := by
  have hop {op : HwOp} : Within F (hwOp hw op) := hF.hwOp hp rfl
  refine Within.ite (Within.pure _) (moving_getConf_bind fun c => Steps.failIf_bind fun _ => ?_)
  split
  · exact Steps.throw
  · next r hr =>
    refine Steps.failIf_bind fun _ => (moving_update hF hp (.patternTake hr)).bind fun _ => moving_rest ?_
    exact hop.orFail.bind fun _ => hop.orFail.bind fun _ => hop.orFail.bind fun _ => hop.orFail

theorem moving_patternDelPriv (hs : K .setting = true) (hr : K .release = true) {a : MatchAction} :
    Within F (patternDelPriv hw i d a) := by
  have hop {op : HwOp} : Within F (hwOp hw op) := hF.hwOp hr rfl
  have hsoft {op : HwOp} {c : Conf} : Steps F (fun s => s.conf = c) (hwOp hw op) fun _ s => s.conf = c :=
    steps_soft hop (within_hwOp hw op)
  refine moving_getConf_bind fun c => Steps.failIf_bind fun _ => hsoft.orFail.bind fun _ => hsoft.orFail.bind fun _ => ?_
  refine (moving_update hF hr .patternFree).bind fun _ => moving_rest (hop.bind fun _ => hop.orFail.bind fun _ => ?_)
  exact fun s => F.trans (hF.update hs .patternForget) (hF.update hs settings_setPattern)

theorem moving_patternsDel (hs : K .setting = true) (hr : K .release = true) (l : List (Direction × MatchAction)) :
    Within F (patternsDel hw i l) := by
  induction l with
  | nil => exact Within.pure _
  | cons p l ih => exact within_getConf.bind fun c => (Within.when fun _ => moving_patternDelPriv hF hs hr).bind fun _ => ih

/-- `store` asks for a rule, and takes an entry; otherwise a rule gives up its own. -/
theorem moving_controlFrameMatchConfSetPriv {conf : ControlFrameMatchConf} {rule : Nat} {store : Bool}
    (hp : store = true → K .pattern = true) (hr : store = false → K .release = true) :
    Within F (controlFrameMatchConfSetPriv hw phy conf rule store) := by
  have hop {op : HwOp} : Within F (hwOp hw op) := by
    cases store with
    | true => exact hF.hwOp (hp rfl) rfl
    | false => exact hF.hwOp (hr rfl) rfl
  have hsoft {op : HwOp} {c : Conf} : Steps F (fun s => s.conf = c) (hwOp hw op) fun _ s => s.conf = c :=
    steps_soft hop (within_hwOp hw op)
  refine moving_getConf_bind fun c => ?_
  split
  · exact Steps.throw
  · next rule indx _ =>
    refine Steps.bind (Q := fun _ s => s.conf = c) (Steps.when (fun _ => Steps.throw) fun _ _ hs => hs) fun _ => ?_
    refine hsoft.bind fun _ => Steps.bind (Q := fun _ _ => True) ?_ fun _ => Steps.pure fun _ _ => trivial
    refine Steps.when (fun _ => ?_) fun _ _ _ => trivial
    cases store with
    | true =>
      refine moving_rest ((Within.when fun _ => (moving_patternSetPriv hF (hp rfl)).orFail).bind fun _ =>
        Within.when fun h => ?_)
      exact absurd h.1 (by decide)
    | false =>
      refine Steps.bind (Q := fun _ s => s.conf = c) (Steps.when (fun h => ?_) fun _ _ hs => hs) fun _ => ?_
      · exact absurd h.1 (by decide)
      · refine Steps.when (fun _ => ?_) fun _ _ _ => trivial
        refine hsoft.orFail.bind fun _ => hsoft.orFail.bind fun _ => ?_
        exact (moving_update hF (hr rfl) .bypassFree).post fun _ _ _ => trivial

/-! ## Channels and SecYs -/

theorem moving_txScDel (hs : K .setting = true) (hr : K .release = true) : Within F (txScDel hw i) := by
  refine within_getConf.bind fun c => Within.failIf.bind fun _ => ?_
  refine (Within.forUpTo _ fun an _ => within_getConf.bind fun c => Within.when fun _ => ?_).bind fun _ => ?_
  · exact (moving_txSaDisable hF hs).orFail.bind fun _ => (moving_txSaDel hF hr).orFail
  · exact moving_store hF hr fun _ => .txScClear

theorem moving_rxScAdd (hr : K .rxRelease = true) : Within F (rxScAdd phy i sci : Call H Unit) := by
  refine moving_getConf_bind fun c => Steps.failIf_bind fun _ => Steps.failIf_bind fun hv => Steps.failIf_bind fun hn => ?_
  split
  · next sc p hsc hp =>
    refine (moving_update hF hr (.rxScOpen ?_ ?_ ?_ ?_ ?_)).post fun _ _ _ => trivial
    · simpa using List.find?_some hsc
    · simpa using List.find?_some hp
    · exact List.mem_range.mp (List.mem_of_find?_eq_some hp)
    · simpa using hv
    · simpa using hn
  · exact Steps.throw

theorem moving_rxScDel (hs : K .rxSetting = true) (hr : K .rxRelease = true) : Within F (rxScDel hw phy i sci) := by
  refine moving_scFromSci_bind fun _ sc _ => moving_rest ?_
  refine (Within.forUpTo _ fun an _ => within_getConf.bind fun c => Within.when fun _ => ?_).bind fun _ => ?_
  · exact (Within.when fun _ => (moving_rxSaDisable hF hs).orFail).bind fun _ => (moving_rxSaDel hF hr).orFail
  · exact (moving_store hF hr fun _ => .rxScFree).bind fun _ => hF.plain rfl

theorem moving_rxScUpdate (hs : K .rxSetting = true) {conf : RxScConf} :
    Within F (rxScUpdate phy i sci conf : Call H Unit) := by
  refine moving_scFromSci_bind fun _ sc _ => moving_rest (within_getConf.bind fun c => Within.failIf.bind fun _ => ?_)
  exact moving_store hF hs fun _ => .rxScConf

theorem moving_secyConfAdd (ho : K .opens = true) {conf : SecyConf} :
    Within F (secyConfAdd phy port conf : Call H Unit) := by
  refine Within.failIf.bind fun _ => moving_getConf_bind fun c => Steps.failIf_bind fun _ => ?_
  split
  · exact Steps.throw
  · next i hi =>
    have hlt : i < phy.maxSecyCnt := List.mem_range.mp (List.mem_of_find?_eq_some hi)
    refine Steps.failIf_bind fun hu => Steps.failIf_bind fun _ => Steps.failIf_bind fun hsuite => ?_
    refine (moving_update hF ho (.secyOpen hlt ?_ ?_)).bind fun _ => moving_rest Within.failIf
    · simpa using hu
    · simpa using hsuite

theorem moving_secyConfUpdate (hs : K .suite = true) (hr : K .rxSetting = true) {conf : SecyConf} :
    Within F (secyConfUpdate phy i conf : Call H Unit) := by
  refine moving_getConf_bind fun c => Steps.failIf_bind fun hsuite => ?_
  refine (moving_update hF hs (.secyUpdate (by simpa using hsuite))).bind fun _ => moving_rest ?_
  refine (Within.forUpTo _ fun sc _ => within_getConf.bind fun c => Within.when fun _ => ?_).bind fun _ =>
    within_getConf.bind fun _ => Within.failIf
  exact moving_store hF hr fun _ => .rxScConf

theorem moving_secyConfDel (hs : K .setting = true) (hr : K .release = true) (hrs : K .rxSetting = true)
    (hrr : K .rxRelease = true) : Within F (secyConfDel hw phy i) := by
  refine within_getConf.bind fun c => (Within.when fun _ => moving_txScDel hF hs hr).bind fun _ => ?_
  refine (Within.forUpTo _ fun sc _ => within_getConf.bind fun c => Within.when fun _ => moving_rxScDel hF hrs hrr).bind
    fun _ => ?_
  exact (moving_patternsDel hF hs hr _).bind fun _ => moving_store hF hr fun _ => .secyClear

theorem moving_settings (hs : K .setting = true) {f : Secy → Secy} (hf : Settings f) :
    Within F (modifyConf fun c => c.setSecy i f : Call H PUnit) := moving_store hF hs fun _ => .secySettings hf

theorem moving_secyControlledSet (hs : K .setting = true) {b : Bool} : Within F (secyControlledSet hw phy i b) := by
  have hop {op : HwOp} : Within F (hwOp hw op) := hF.hwOp hs rfl
  refine within_getConf.bind fun c => Within.ite (Within.pure _) ?_
  refine (Within.forUpTo _ fun sc _ => Within.forUpTo _ fun an _ => Within.when fun _ => hop.orFail).bind
    fun _ => (Within.forUpTo _ fun an _ => Within.when fun _ => hop.orFail).bind fun _ => ?_
  exact moving_settings hF hs (by constructor <;> exact fun _ => rfl)

/-! ## Initialisation and changes of speed -/

theorem moving_recfgRxScs (hs : K .rxSetting = true) (ht : K .rxTake = true) (fuel : Nat) (search : Option Sci) :
    Within F (recfgRxScs hw phy i fuel search) := by
  induction fuel generalizing search with
  | zero => exact Within.throw _
  | succ fuel ih =>
    refine within_getConf.bind fun c => ?_
    split
    · exact Within.pure _
    · refine (Within.forUpTo _ fun an _ => ?_).bind fun _ => ih _
      exact (moving_ignored (moving_rxSaSet hF ht)).bind fun _ => moving_ignored (moving_rxSaActivate hF hs)

/-- A frame that admits what a reconfiguration does between setting its mark and clearing it. -/
structure Recfgs (K : Kind → Bool) : Prop where
  setting : K .setting = true
  take : K .take = true
  pattern : K .pattern = true
  rxSetting : K .rxSetting = true
  rxTake : K .rxTake = true

theorem moving_recfgSecy (hK : Recfgs K) (fuel : Nat) : Within F (recfgSecy hw phy fuel i) := by
  have hpattern {a : MatchAction} {d : Direction} : Within F (recfgPattern hw phy i a d) :=
    within_getConf.bind fun _ => Within.when fun _ => moving_ignored (moving_patternSetPriv hF hK.pattern)
  refine hpattern.bind fun _ => hpattern.bind fun _ => hpattern.bind fun _ => hpattern.bind fun _ => ?_
  refine (moving_recfgRxScs hF hK.rxSetting hK.rxTake fuel none).bind fun _ => within_getConf.bind fun c =>
    Within.when fun _ => ?_
  refine Within.bind (moving_settings hF hK.setting (by constructor <;> exact fun _ => rfl)) fun _ =>
    Within.forUpTo _ fun an _ => ?_
  exact (moving_ignored (moving_txSaSet hF hK.take)).bind fun _ => moving_ignored (moving_txSaActivate hF hK.setting)

theorem moving_recfgSecys (hK : Recfgs K) (scFuel fuel : Nat) (search : Option (Nat × Nat)) :
    Within F (recfgSecys hw phy scFuel fuel search) := by
  induction fuel generalizing search with
  | zero => exact Within.throw _
  | succ fuel ih =>
    refine within_getConf.bind fun c => ?_
    split
    · exact Within.pure _
    · exact (moving_recfgSecy hF hK scFuel).bind fun _ => ih _

theorem moving_reconfigure (hr : K .recfg = true) (hK : Recfgs K) (fuel : Nat) : Within F (reconfigure hw phy fuel) := by
  have hop {op : HwOp} : Within F (hwOp hw op) := hF.hwOp hr rfl
  refine hop.attempt.bind fun o => ?_
  cases o with
  | none => exact Within.pure _
  | some _ =>
    refine (moving_store hF hr fun c => @Update.recfg _ c true c.glb.recfgSpeed).bind fun _ => ?_
    refine (moving_ignored hop).bind fun _ => (moving_ignored hop).bind fun _ => ?_
    refine (Within.forUpTo _ fun id _ => within_getConf.bind fun c => Within.when fun _ => moving_ignored ?_).bind fun _ =>
      (moving_ignored hop).bind fun _ => (moving_recfgSecys hF hK fuel fuel none).bind fun _ =>
        moving_store hF hr fun _ => .recfgDone
    exact moving_controlFrameMatchConfSetPriv hF (fun _ => hK.pattern) fun h => absurd h (by decide)

theorem moving_initSetPriv (hs : K .setting = true) (hr : K .release = true) {init : Init} :
    Within F (initSetPriv hw phy init) :=
  within_initSetPriv (fun _ => hF.hwOp hs rfl) (fun _ _ h => hF.update hs (.glb h)) (fun _ => hF.update hs .rulesClear)
    (fun _ => hF.update hr .bypassRelease) fun _ => hF.update hr .disable

theorem moving_initSet (hs : K .setting = true) (hr : K .release = true) {init : Init} :
    Within F (initSet hw phy init) :=
  within_initSet (fun _ => hF.hwOp hs rfl) (fun _ _ h => hF.update hs (.glb h)) (fun _ => hF.update hs .rulesClear)
    (fun _ => hF.update hr .bypassRelease) fun _ => hF.update hr .disable

theorem moving_speedChange (hc : K .recfg = true) (hr : K .release = true) (hK : Recfgs K) {fuel : Nat}
    {speed : Option Nat} : Within F (speedChange hw phy fuel speed) := by
  have hop {op : HwOp} : Within F (hwOp hw op) := hF.hwOp hc rfl
  refine within_getConf.bind fun c => ?_
  split
  · refine hop.bind fun _ => hop.bind fun _ => (moving_store hF hc fun _ => .recfg).bind fun _ => ?_
    refine (moving_initSetPriv hF hK.setting hr).attempt.bind fun o => ?_
    cases o with
    | none => exact Within.pure _
    | some _ => exact (moving_reconfigure hF hc hK fuel).orFail
  · exact Within.pure _

/-! ## The calls -/

omit hF in
/-- The updates that a call makes are of kinds in `K`. -/
def Op.MadeOf (K : Kind → Bool) : Op → Prop
  | .secyConfAdd .. => K .opens = true
  | .speedChange .. => K .recfg = true ∧ K .release = true ∧ Recfgs K
  | .secyConfUpdate .. => K .suite = true ∧ K .rxSetting = true
  | .initSet _ | .txScDel _ | .patternDel .. | .controlFrameMatchConfDel _ => K .setting = true ∧ K .release = true
  | .secyConfDel _ => (K .setting = true ∧ K .release = true) ∧ K .rxSetting = true ∧ K .rxRelease = true
  | .secyControlledSet .. | .bypassTagSet .. | .txScSet _ | .txScUpdate .. => K .setting = true
  | .txSaActivate .. | .txSaDisable .. => K .setting = true
  | .txSaDel .. => K .release = true
  | .txSaSet .. => K .take = true
  | .patternSet .. | .controlFrameMatchConfSet .. => K .pattern = true ∧ K .setting = true
  | .rxScAdd .. | .rxSaDel .. => K .rxRelease = true
  | .rxScUpdate .. | .rxSaActivate .. | .rxSaDisable .. => K .rxSetting = true
  | .rxScDel .. => K .rxSetting = true ∧ K .rxRelease = true
  | .rxSaSet .. => K .rxTake = true
  | .rxSaLowestPnUpdate .. => K .rxSetting = true ∧ K .rxMove = true

/-- **Every call is a sequence of updates of its kinds, returned or failed.** -/
theorem moving_op {op : Op} (hK : op.MadeOf K) : Within F (op.call hw phy) := by
  cases op with
  | initSet init => exact moving_initSet hF hK.1 hK.2
  | speedChange fuel speed => exact moving_speedChange hF hK.1 hK.2.1 hK.2.2
  | secyConfAdd port conf => exact moving_secyConfAdd hF hK
  | secyConfUpdate port conf =>
    exact Within.failIf.bind fun _ => moving_portCheck.bind fun _ => moving_secyConfUpdate hF hK.1 hK.2
  | secyConfDel port => exact moving_portCheck.bind fun _ => moving_secyConfDel hF hK.1.1 hK.1.2 hK.2.1 hK.2.2
  | secyControlledSet port enable => exact moving_portCheck.bind fun _ => moving_secyControlledSet hF hK
  | bypassTagSet port tag =>
    exact moving_portCheck.bind fun _ => moving_settings hF hK (by constructor <;> exact fun _ => rfl)
  | txScSet port =>
    exact moving_portCheck.bind fun _ => within_getConf.bind fun _ => Within.failIf.bind fun _ =>
      moving_settings hF hK (by constructor <;> exact fun _ => rfl)
  | txScUpdate port conf =>
    exact Within.failIf.bind fun _ => moving_portCheck.bind fun _ => within_getConf.bind fun _ => Within.failIf.bind
      fun _ => moving_settings hF hK (by constructor <;> exact fun _ => rfl)
  | txScDel port => exact moving_portCheck.bind fun _ => moving_txScDel hF hK.1 hK.2
  | rxScAdd port sci => exact moving_portCheck.bind fun _ => moving_rxScAdd hF hK
  | rxScUpdate port sci conf => exact Within.failIf.bind fun _ => moving_portCheck.bind fun _ => moving_rxScUpdate hF hK
  | rxScDel port sci => exact moving_portCheck.bind fun _ => moving_rxScDel hF hK.1 hK.2
  | txSaSet port an nextPn b sak ssci => exact moving_portCheck.bind fun _ => moving_txSaSet hF hK
  | txSaActivate port an => exact moving_portCheck.bind fun _ => moving_txSaActivate hF hK
  | txSaDisable port an => exact moving_portCheck.bind fun _ => moving_txSaDisable hF hK
  | txSaDel port an => exact moving_portCheck.bind fun _ => moving_txSaDel hF hK
  | rxSaSet port sci an lowestPn sak ssci => exact moving_portCheck.bind fun _ => moving_rxSaSet hF hK
  | rxSaActivate port sci an => exact moving_portCheck.bind fun _ => moving_rxSaActivate hF hK
  | rxSaDisable port sci an => exact moving_portCheck.bind fun _ => moving_rxSaDisable hF hK
  | rxSaDel port sci an => exact moving_portCheck.bind fun _ => moving_rxSaDel hF hK
  | rxSaLowestPnUpdate port sci an lowestPn =>
    exact moving_portCheck.bind fun _ => moving_rxSaLowestPnUpdate hF hK.1 hK.2
  | patternSet port d a pattern =>
    exact Within.failIf.bind fun _ => moving_portCheck.bind fun _ => (Within.when fun _ =>
      moving_patternSetPriv hF hK.1).bind fun _ => moving_store hF hK.2 fun _ => settings_setPattern
  | patternDel port d a =>
    exact moving_portCheck.bind fun _ => (Within.when fun _ => moving_patternDelPriv hF hK.1 hK.2).bind fun _ =>
      moving_store hF hK.1 fun _ => settings_setPattern
  | controlFrameMatchConfSet conf rule =>
    refine Within.bind (Within.failIf.bind fun _ => Within.failIf.bind fun _ => moving_enabledCheck.bind fun _ => ?_)
      fun _ => Within.pure _
    refine (moving_controlFrameMatchConfSetPriv hF (fun _ => hK.1) fun h => absurd h (by decide)).bind fun _ => ?_
    exact (moving_store hF hK.2 fun _ => .controlMatch).bind fun _ => Within.pure _
  | controlFrameMatchConfDel rule =>
    refine moving_enabledCheck.bind fun _ => Within.failIf.bind fun _ => within_getConf.bind fun c => ?_
    refine Within.failIf.bind fun _ => Within.afterwards ?_ fun s => hF.update hK.1 .controlMatch
    exact (moving_controlFrameMatchConfSetPriv hF (fun h => absurd h (by decide)) fun _ => hK.2).bind fun _ => Within.pure _

/-- A list of calls, returned or failed. -/
theorem moving_calls {ops : List Op} (hops : ∀ op ∈ ops, op.MadeOf K) (s : Dev Conf H) : F.rel s (calls hw phy ops s) := by
  induction ops generalizing s with
  | nil => exact F.refl s
  | cons op ops ih =>
    have hcall := moving_op hF (hops op List.mem_cons_self) s
    exact F.trans hcall (ih (fun op hmem => hops op (List.mem_cons_of_mem _ hmem)) _)

omit hF in
/-- **What holds of the port after the probe, and what each update keeps, holds of every reachable state.** -/
theorem reachable_induction {I : Conf → Prop} (hprobed : I {}) (hstep : ∀ k c c', Update phy c k c' → I c → I c')
    {s : Dev Conf H} (hs : Reachable hw phy s) : I s.conf := by
  have hF : Admits hw phy (fun _ => true) (onConf (.keeps I)) := admits_onConf fun k c c' _ hu => hstep k c c' hu
  obtain ⟨ops, h, rfl⟩ := hs
  refine moving_calls hF (fun op _ => ?_) _ hprobed
  cases op <;> simp [Op.MadeOf]
  constructor <;> rfl

end Calls

end Lan80xx.VtssMacsec
