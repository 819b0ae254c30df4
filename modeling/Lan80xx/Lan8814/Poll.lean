import Lan80xx.Lan8814.GphyConf

/-!
# LAN8814: the poll and the downshift

A poll of a port that negotiates counts, in one 8-bit counter, the polls without a link: first up to a restart of the
auto-negotiation, then, if downshift is enabled, up to a downshift, which withdraws the 1G advertisement until the link
goes down again.
-/

namespace Lan80xx.Lan8814.Gphy

open RegCalls

/-! ## The call -/

/-- What the status registers show at a poll. -/
structure StatusWords where
  basicStatus : BitVec 16
  anegLpBase : BitVec 16
  anegMstrSlvStatus : BitVec 16
  digitalAxAnStatus : BitVec 16
  control : BitVec 16
  linkPartnerEeeAbility : BitVec 16
  deriving DecidableEq, Repr

/-- `mepa_status_t`, as far as the poll writes it. -/
structure Status where
  link : Bool
  speed : Speed
  fdx : Bool
  obeyPause : Bool
  generatePause : Bool
  deriving DecidableEq, Repr

/-- `lan8814_qsgmii_tx_abilities` -/
def qsgmiiTxAbilities (w : StatusWords) (speed : Speed) (duplex : Bool) : Call Unit := do
  let eee :=
    (speed = .g1 && w.linkPartnerEeeAbility.getLsbD 2) || (speed = .m100 && w.linkPartnerEeeAbility.getLsbD 1)
  let value := 0x1 ||| (if eee then 0x180 else 0) ||| bitIf duplex 12 |||
    (if speed = .g1 then bit 10 else bitIf (speed = .m100) 9) ||| bit 14
  write qsgmiiPcs1gAnegTxAdvertiseCap value
  writeMasked qsgmiiPcs1gAnegConfig (bit 4) (bit 4)

def PhyData.countPoll (d : PhyData) : PhyData := { d with loopCnt := d.loopCnt + 1 }

/-- `lan8814_downshift`, with the resets of the poll that calls it. -/
def downshift : Call Unit := do
  let val ← read anegMstrSlvCtrl
  writeMasked anegMstrSlvCtrl (val &&& ~~~(cfgVal ||| full1000T)) (full1000T ||| cfgVal)
  writeMasked basicControl anegEna (anegEna ||| softPowDown)
  writeMasked basicControl restartAneg restartAneg
  modifyData fun d => { d with dshComplete := true, loopCnt := 0, anegFlag := false }

/-- The downshift counts this poll, given the link. -/
def PhyData.counts (d : PhyData) (w : StatusWords) (link : Bool) : Bool :=
  d.dshConf.dshEnable && !link && w.control.getLsbD 6 && w.digitalAxAnStatus.getLsbD 14 && d.anegFlag && !d.dshComplete

/-- The polls that a port must count before it shifts down. -/
def PhyData.limit (d : PhyData) : Nat := d.dshConf.dshThrCnt.toNat * d.repCnt.toNat

/-- One more poll is over the limit. -/
def PhyData.overLimit (d : PhyData) : Bool := d.limit < (d.loopCnt + 1).toNat

/-- The part of the poll about the downshift. -/
def pollDownshift (w : StatusWords) (link : Bool) : Call Unit := do
  let d ← getData
  when (d.counts w link) do
    modifyData PhyData.countPoll
    when d.overLimit downshift

/-- The auto-negotiation does not end, and has not been restarted for it. -/
def PhyData.stuck (d : PhyData) (w : StatusWords) (link : Bool) : Bool :=
  !link && !w.basicStatus.getLsbD 5 && w.digitalAxAnStatus.getLsbD 13 && !d.anegFlag

/-- The part of the poll about an auto-negotiation that does not end. -/
def pollRestart (w : StatusWords) (link : Bool) : Call Unit := do
  let d ← getData
  when (d.stuck w link) do
    modifyData PhyData.countPoll
    when (2 * d.repCnt.toNat < (d.loopCnt + 1).toNat) do
      writeMasked basicControl restartAneg restartAneg
      modifyData fun d => { d with loopCnt := 0, anegFlag := true }

/-- Speed and duplex from the bits of the basic control register. -/
def controlSpeed (v : BitVec 16) : Speed :=
  match v.getLsbD 6, v.getLsbD 13 with
  | false, false => .m10
  | false, true => .m100
  | true, false => .g1
  | true, true => .undefined

/-- The work-around for CRC errors at 1G: the link is reported after one more restart of the auto-negotiation. -/
def pollCrc (w : StatusWords) (status : Status) : Call Status := do
  let d ← getData
  if !(w.anegMstrSlvStatus.getLsbD 13 && w.anegMstrSlvStatus.getLsbD 12) || !d.postMacRst then
    return { status with link := false }
  else if !d.anegAfterLinkUp then do
    writeMasked basicControl restartAneg restartAneg
    modifyData fun d => { d with anegAfterLinkUp := true, loopCnt := 0 }
    return { status with link := false }
  else do
    modifyData fun d => { d with crcWorkaround := false, anegAfterLinkUp := false }
    return { status with speed := .g1, fdx := true }

/-- The speed that the port and its link partner have in common. -/
def pollSpeed (w : StatusWords) (status : Status) : Call Status := do
  let d ← getData
  let lp := w.anegLpBase
  if w.anegMstrSlvStatus.getLsbD 11 && d.conf.aneg.speed1gFdx && !d.dshComplete then
    if d.crcWorkaround then pollCrc w status
    else return { status with speed := .g1, fdx := true }
  else if lp.getLsbD 8 && d.conf.aneg.speed100mFdx then return { status with speed := .m100, fdx := true }
  else if lp.getLsbD 7 && d.conf.aneg.speed100mHdx then return { status with speed := .m100, fdx := false }
  else if lp.getLsbD 6 && d.conf.aneg.speed10mFdx then return { status with speed := .m10, fdx := true }
  else if lp.getLsbD 5 && d.conf.aneg.speed10mHdx then return { status with speed := .m10, fdx := false }
  else return status

/-- The link of a port that negotiates. -/
def anegLink (w : StatusWords) (nearEnd : Bool) : Bool := nearEnd || (w.basicStatus.getLsbD 2 && w.basicStatus.getLsbD 5)

/-- Speed, duplex and flow control of a link; with the status, the word that stays in `val`. -/
def pollPartner (w : StatusWords) (noPartner : Bool) (status : Status) : Call (Status × BitVec 16) :=
  if noPartner then return (status, w.basicStatus)
  else do
    let status ← pollSpeed w status
    let d ← getData
    let sym := w.anegLpBase.getLsbD 10
    let asym := w.anegLpBase.getLsbD 11
    return ({ status with
      obeyPause := d.conf.flowControl && (sym || asym)
      generatePause := d.conf.flowControl && sym }, w.anegLpBase)

/-- The part of the poll for a port that negotiates. -/
def pollAneg (w : StatusWords) (nearEnd : Bool) (status : Status) : Call (Status × BitVec 16) := do
  let link := anegLink w nearEnd
  pollDownshift w link
  pollRestart w link
  pollPartner w (!link || nearEnd)
    { status with link := link, speed := if nearEnd then .g1 else .undefined, fdx := true }

/-- The part of the poll for a forced speed. -/
def pollForced (w : StatusWords) (status : Status) : Call (Status × BitVec 16) := do
  let val2 ← read basicControl
  let status := { status with speed := controlSpeed val2, fdx := val2.getLsbD 8 }
  let d ← getData
  if status.speed = .m100 ∧ w.digitalAxAnStatus.getLsbD 14 ∧ !status.link then do
    modifyData PhyData.countPoll
    if 2 * d.repCnt.toNat < d.loopCnt.toNat then do
      writeMasked control (w.control ||| bit 1) (bit 1)
      modifyData fun d => { d with loopCnt := 0 }
      return (status, w.control ||| bit 1)
    else return (status, w.control)
  else return (status, w.control)

/-- The poll of an enabled port up to its end; `d` are the data of the port. -/
def pollStatus (w : StatusWords) (status : Status) (d : PhyData) : Call (Status × BitVec 16) :=
  let nearEnd := d.loopback.nearEndEna
  let status := { status with link := w.basicStatus.getLsbD 2 || nearEnd }
  if !nearEnd && d.loopback.connectorEna then do
    let val2 ← read basicControl
    return ({ status with speed := controlSpeed val2, fdx := val2.getLsbD 8 }, w.basicStatus)
  else if d.conf.speed.Negotiates then pollAneg w nearEnd status
  else pollForced w status

/-- The link has come up. -/
def pollLinkUp (w : StatusWords) (status : Status) : Call Unit := do
  let d ← getData
  when (d.conf.speed.Negotiates && d.conf.macIfAnegEna) (qsgmiiTxAbilities w status.speed status.fdx)
  when ((status.speed = .m10 || status.speed = .m100) && !status.fdx) workaroundHalfDuplex

/-- The link has gone down: advertise 1G again. -/
def pollLinkDown (val : BitVec 16) : Call Unit := do
  workaroundFifoReset
  let d ← getData
  when d.dshComplete do
    writeMasked anegMstrSlvCtrl (val ||| cfgVal ||| full1000T) (full1000T ||| cfgVal)
    modifyData fun d => { d with loopCnt := 0, dshComplete := false, anegAfterLinkUp := false }

def PhyData.setStatus (status : Status) (d : PhyData) : PhyData :=
  { d with linkStatus := status.link, speedStatus := status.speed, fdxStatus := status.fdx }

/-- The poll compares its link with the one of the last poll. -/
def PhyData.linkChanges (d : PhyData) (link : Bool) : Bool := d.isLan8814 && link != d.linkStatus

/-- The link has changed. -/
def pollLink (w : StatusWords) (status : Status) (val : BitVec 16) : Call Unit :=
  if status.link then pollLinkUp w status else pollLinkDown val

/-- The end of the poll. -/
def pollEnd (w : StatusWords) (status : Status) (val : BitVec 16) : Call Unit := do
  let d ← getData
  when (d.linkChanges status.link) do
    pollLink w status val
    modifyData fun d => { d with loopCnt := 0, anegFlag := false }
  modifyData (PhyData.setStatus status)

/-- The status of a port that is powered down. -/
def downStatus : Status := ⟨false, .undefined, false, false, false⟩

/-- `lan8814_poll` -/
def poll (w : StatusWords) (status : Status) : Call Status := do
  let d ← getData
  if !d.conf.adminEnable then do
    modifyData fun d =>
      { d.setStatus downStatus with loopCnt := 0, anegFlag := false, dshComplete := false }
    return downStatus
  else do
    let r ← pollStatus w status d
    pollEnd w r.1 r.2
    return r.1

/-- `lan8814_rep_count_set` -/
def repCountSet (repCnt : BitVec 8) : Call Unit := modifyData fun d => { d with repCnt := repCnt }

/-- `lan8814_downshift_conf_set` -/
def downshiftConfSet (dsh : Downshift) : Call Unit := do
  let d ← getData
  when (!dsh.dshEnable && d.dshConf.dshEnable) (writeMasked basicControl restartAneg restartAneg)
  modifyData fun d => { d with dshConf := dsh }

end Lan80xx.Lan8814.Gphy
