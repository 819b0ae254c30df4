import Lan80xx.Mailbox.Packet
import Lan80xx.Lib.RegBus

/-!
# Mailbox: sending and receiving

A request is written word by word into the mailbox, and a response read word by word from it, once the MCU has raised
the host interrupt. The MCU is a device behind a register bus of which nothing is known: its answer is whatever the
registers hold.
-/

namespace Lan80xx.Mailbox

open ByteMem Fallible RegBus

/-! ## The device -/

/-- The registers of the MCU interface. -/
inductive McuReg
  | mailbox (addr : BitVec 16)
  | softReset2
  | bootStatus
  | intrSrcEn1
  deriving DecidableEq

/-- `MAILBOX_CMD_ADDR + k`. -/
def cmdReg (k : Nat) : McuReg := .mailbox (0xD800 + BitVec.ofNat 16 k)

/-- `MAILBOX_RESP_ADDR + k`. -/
def respReg (k : Nat) : McuReg := .mailbox (0xD900 + BitVec.ofNat 16 k)

/-- `MAILBOX_FLAG_REGISTER`. -/
def flagReg : McuReg := .mailbox 0xDA00

/-- `MAILBOX_MCU_INTR_MASK_REGISTER`. -/
def mcuIntrMaskReg : McuReg := .mailbox 0xDA01

/-- `MAILBOX_HOST_INTR_MASK_REGISTER`. -/
def hostIntrMaskReg : McuReg := .mailbox 0xDA02

/-- The only register that the MCU changes while the host uses the mailbox. -/
def statusReg (r : McuReg) : Prop := r = flagReg

instance : DecidablePred statusReg := fun _ => inferInstanceAs (Decidable (_ = _))

/-- What the driver reaches of the board: the bus, the interrupt pin (`ft_gpio_read`), and the time that passes in
`MEPA_MSLEEP`. `patience` is the number of reads after which a wait without a timeout counts as one that never ends. -/
structure Host (H : Type) where
  bus : Bus McuReg 32 H
  baseDev : Bool := true
  gpioRead : Option (H → Byte)
  msleep : H → H
  patience : Nat

/-! ## The driver's data -/

/-- A request and what came of it: the response buffer, or the code with which sending or reading failed. -/
structure Exchange where
  packetId : Byte
  reserved : Byte
  cmdData : List Byte
  response : Except McuRc Mem

/-- The response buffer `gau8RespBuffer` with the memory behind it, and the ports that KR logging is enabled on.
`exchanges` is the history of the mailbox and `strapWrites` that of the DFU strap; no function reads them. -/
structure McuConf where
  resp : Mem := fun _ => 0
  krlogEnPorts : Byte := 0
  exchanges : List Exchange := []
  strapWrites : List Bool := []

abbrev Call (H α : Type) := EStateM McuRc (Dev McuConf H) α

variable {H : Type}

/-! ## Accesses -/

section Access

variable (host : Host H)

/-- `LAN80XX_CSR_RD` -/
def csrRd (r : McuReg) : Call H (BitVec 32) := read host.bus .access r

/-- `LAN80XX_CSR_WR` -/
def csrWr (r : McuReg) (v : BitVec 32) : Call H Unit := write host.bus .access r v

/-- `base_data->ft_gpio_read(dev)`: a call through a null pointer does not return. -/
def gpioRead : Call H Byte := fun s =>
  match host.gpioRead with
  | some gpio => .ok (gpio s.hw) s
  | none => .error .hang s

/-- `MEPA_MSLEEP(1)` -/
def msleep : Call H PUnit := modify fun s => { s with hw := host.msleep s.hw }

/-- `lan80xx_MB_ClearFlag`, `lan80xx_MB_SetFlag`. -/
def writeFlag (mask : BitVec 32) : Call H Unit := csrWr host flagReg mask

/-! ## Sending -/

/-- The length rounded up to a multiple of 4. -/
def roundUp (len : BitVec 16) : BitVec 16 := if len % 4 ≠ 0 then len + (4 - len % 4) else len

/-- The wait for the MCU to take the older command: no timeout. -/
def waitMcuReady : Nat → Call H Unit
  | 0 => throw .hang
  | n + 1 => do
    let val ← csrRd host flagReg
    if val.getLsbD 0 = true then waitMcuReady n else pure ()

/-- `lan80xx_MB_SendRequest` -/
def sendRequest (cmdPkt : Mem) (dataLen : BitVec 16) : Call H Unit := do
  failIf (host.baseDev = false) .error
  forUpTo ((roundUp dataLen).toNat / 4) fun k => csrWr host (cmdReg k) (loadWord cmdPkt (4 * k))
  failIf (host.gpioRead.isNone = true) .parm
  let mcuInterrupt ← gpioRead host
  when (mcuInterrupt = 1) (waitMcuReady host host.patience)
  let val ← csrRd host mcuIntrMaskReg
  csrWr host mcuIntrMaskReg (val ||| 1)
  writeFlag host 0x00010000

/-! ## Receiving -/

/-- The mailbox flags, read only when the pin is set. -/
def flagIf (mcuInterrupt : Byte) : Call H (BitVec 32) := if mcuInterrupt ≠ 0 then csrRd host flagReg else pure 0

/-- The wait for the host interrupt, with `n` polls left. -/
def waitHostIntr : Nat → Call H Bool
  | 0 => pure false
  | n + 1 => do
    let mcuInterrupt ← gpioRead host
    let val ← flagIf host mcuInterrupt
    if val.getLsbD 1 = true then pure true
    else do
      msleep host
      waitHostIntr n

/-- The words of the response after the first. -/
def readRest (n : Nat) : Call H Unit :=
  forUpTo n fun k => do
    let val ← csrRd host (respReg (k + 1))
    modifyConf fun c => { c with resp := storeWord c.resp (4 * (k + 1)) val }

/-- The response is there: its length is that of its header, and it is taken word by word. -/
def fetchResponse : Call H (BitVec 16) := do
  let val ← csrRd host (respReg 0)
  let pktLen := half (byteOf val 2) (byteOf val 3)
  if pktLen = 0 then do
    let _ ← attempt (writeFlag host 0x02000000)
    throw .invalidPktLen
  else do
    modifyConf fun c => { c with resp := storeWord c.resp 0 val }
    readRest host ((roundUp pktLen).toNat / 4 - 1)
    writeFlag host 0x02000000
    return pktLen

/-- `lan80xx_MB_ReadResponse`: the length of the packet, whose words are in the response buffer. -/
def readResponse (timeout : Nat) : Call H (BitVec 16) := do
  failIf (host.baseDev = false) .error
  let ready ← waitHostIntr host (timeout + 1)
  if ready = false then do
    let _ ← csrRd host flagReg
    let _ ← csrRd host hostIntrMaskReg
    let _ ← csrRd host mcuIntrMaskReg
    let _ ← attempt (writeFlag host 0x01000000)
    throw .respTimeout
  else fetchResponse host

end Access

/-! ## What is sent is what is received -/

theorem ends_gpioRead {host : Host H} {P : Dev McuConf H → Prop} :
    Ends P (gpioRead host) (fun v s => P s ∧ ∃ gpio, host.gpioRead = some gpio ∧ v = gpio s.hw)
      fun _ => host.gpioRead = none := by
  intro s hP
  unfold gpioRead
  split
  · next gpio hg => exact Or.inl ⟨_, _, rfl, hP, gpio, hg, rfl⟩
  · next hg => exact Or.inr ⟨_, _, rfl, hg⟩

/-- From `h₀` on no access fails, and the MCU takes every request at once. -/
structure Ready (host : Host H) (h₀ : H) : Prop where
  baseDev : host.baseDev = true
  gpio : host.gpioRead ≠ none
  sound : host.bus.Sound h₀
  idle : ∀ h, Accessed host.bus h₀ h → ∀ gpio, host.gpioRead = some gpio → gpio h = 1 →
    0 < host.patience ∧ ∀ v, (host.bus.rd flagReg h).1 = .ok v → v.getLsbD 0 = false

section Storage

variable {live : McuReg → Prop} {rf : RegFile McuReg 32 H statusReg live} {host : Host H} {cmdPkt m : Mem}
  {dataLen : BitVec 16} {k l n : Nat} {h₀ : H}

theorem cmdAddr_toNat (hk : k < 256) : (0xD800 + BitVec.ofNat 16 k : BitVec 16).toNat = 0xD800 + k := by
  rw [BitVec.toNat_add, BitVec.toNat_ofNat, show (0xD800 : BitVec 16).toNat = 0xD800 from rfl]
  omega

theorem respAddr_toNat (hk : k < 256) : (0xD900 + BitVec.ofNat 16 k : BitVec 16).toNat = 0xD900 + k := by
  rw [BitVec.toNat_add, BitVec.toNat_ofNat, show (0xD900 : BitVec 16).toNat = 0xD900 from rfl]
  omega

theorem cmdReg_ne (hk : k < 256) (hl : l < 256) (h : k ≠ l) : cmdReg k ≠ cmdReg l := by
  intro he
  have := congrArg BitVec.toNat (McuReg.mailbox.inj he)
  rw [cmdAddr_toNat hk, cmdAddr_toNat hl] at this
  omega

theorem cmdReg_ne_mailbox (hk : k < 256) {a : BitVec 16} (ha : 0xDA00 ≤ a.toNat) : cmdReg k ≠ .mailbox a := by
  intro he
  have := congrArg BitVec.toNat (McuReg.mailbox.inj he)
  rw [cmdAddr_toNat hk] at this
  omega

theorem respReg_ne_mailbox (hk : k < 256) {a : BitVec 16} (ha : 0xDA00 ≤ a.toNat) : respReg k ≠ .mailbox a := by
  intro he
  have := congrArg BitVec.toNat (McuReg.mailbox.inj he)
  rw [respAddr_toNat hk] at this
  omega

theorem cmdReg_not_status (hk : k < 256) : ¬statusReg (cmdReg k) := cmdReg_ne_mailbox hk (by decide)

theorem respReg_not_status (hk : k < 256) : ¬statusReg (respReg k) := respReg_ne_mailbox hk (by decide)

/-- The first `n` words of the request are in the request area. -/
structure Sent (rf : RegFile McuReg 32 H statusReg live) (h₀ : H) (cmdPkt : Mem) (n : Nat) (s : Dev McuConf H) : Prop where
  accessed : Accessed rf.toBus h₀ s.hw
  words : ∀ k < n, rf.peek s.hw (cmdReg k) = loadWord cmdPkt (4 * k)

theorem not_ready (hb : host.bus = rf.toBus) (h : ¬rf.Sound h₀) : ¬Ready host h₀ := fun hr => h (hb ▸ hr.sound)

/-- Reads and writes outside the request area leave it alone. -/
theorem ends_csrRd_sent (hb : host.bus = rf.toBus) (hn : n ≤ 256) (r : McuReg) :
    Ends (Sent rf h₀ cmdPkt n) (csrRd host r)
      (fun v s => Sent rf h₀ cmdPkt n s ∧ ∃ h, Accessed rf.toBus h₀ h ∧ (rf.rd r h).1 = .ok v) fun _ => ¬Ready host h₀ := by
  rw [csrRd, hb]
  refine (ends_read_stored _ rf (fun s hs => hs.accessed) fun s h' v hs ha hv _ hold =>
    (⟨⟨ha, fun k hk => ?_⟩, s.hw, hs.accessed, hv⟩ : _ ∧ _)).weaken (fun _ _ => id) fun _ => not_ready hb
  rw [hold _ (cmdReg_not_status (by omega)), hs.words k hk]

theorem ends_csrWr_sent (hb : host.bus = rf.toBus) (hn : n ≤ 256) {a : BitVec 16} (v : BitVec 32)
    (ha : 0xDA00 ≤ a.toNat) :
    Ends (Sent rf h₀ cmdPkt n) (csrWr host (.mailbox a) v) (fun _ => Sent rf h₀ cmdPkt n) fun _ => ¬Ready host h₀ := by
  rw [csrWr, hb]
  refine (ends_write_stored _ rf (fun s hs => hs.accessed) fun s h' hs ha' _ hold =>
    (⟨ha', fun k hk => ?_⟩ : Sent _ _ _ _ _)).weaken (fun _ _ => id) fun _ => not_ready hb
  rw [hold _ (cmdReg_not_status (by omega)) (cmdReg_ne_mailbox (by omega) ha), hs.words k hk]

/-- The loop over the words of the request. -/
theorem ends_sendWords (hb : host.bus = rf.toBus) (hn : n ≤ 256) :
    Ends (Sent rf h₀ cmdPkt 0) (forUpTo n fun k => csrWr host (cmdReg k) (loadWord cmdPkt (4 * k)))
      (fun _ => Sent rf h₀ cmdPkt n) fun _ => ¬Ready host h₀ := by
  refine Ends.forUpTo (I := fun k => Sent rf h₀ cmdPkt k) n fun k hk => ?_
  rw [csrWr, hb]
  refine (ends_write_stored _ rf (fun s hs => hs.accessed) fun s h' hs ha hnew hold =>
    (⟨ha, fun l hl => ?_⟩ : Sent _ _ _ _ _)).weaken (fun _ _ => id) fun _ => not_ready hb
  rcases Nat.lt_succ_iff_lt_or_eq.mp hl with hlk | rfl
  · rw [hold _ (cmdReg_not_status (by omega)) (cmdReg_ne (by omega) (by omega) (by omega)), hs.words l hlk]
  · exact hnew (cmdReg_not_status (by omega))

/-- The wait for the MCU leaves the request area alone, however long it takes. -/
theorem ends_waitMcuReady_any (hb : host.bus = rf.toBus) (hn : n ≤ 256) : ∀ p,
    Ends (Sent rf h₀ cmdPkt n) (waitMcuReady host p) (fun _ => Sent rf h₀ cmdPkt n) fun _ => True
  | 0 => Ends.throw fun _ _ => trivial
  | p + 1 => by
    refine Ends.bind ((ends_csrRd_sent hb hn flagReg).weaken (fun _ _ hs => hs.1) fun _ _ => trivial) fun val => ?_
    exact Ends.ite (fun _ => ends_waitMcuReady_any hb hn p) fun _ => Ends.pure fun _ => id

/-- A ready MCU does not let the host wait. -/
theorem ends_waitMcuReady (hb : host.bus = rf.toBus) (hn : n ≤ 256) :
    Ends (fun s => Sent rf h₀ cmdPkt n s ∧ ∃ gpio, host.gpioRead = some gpio ∧ 1 = gpio s.hw)
      (waitMcuReady host host.patience) (fun _ => Sent rf h₀ cmdPkt n) fun _ => ¬Ready host h₀ := by
  rintro s ⟨hs, gpio, hg, hpin⟩
  have hidle : Ready host h₀ → 0 < host.patience ∧ ∀ v, (host.bus.rd flagReg s.hw).1 = .ok v → v.getLsbD 0 = false :=
    fun hr => hr.idle s.hw (hb ▸ hs.accessed) gpio hg hpin.symm
  cases hp : host.patience with
  | zero => exact Or.inr ⟨_, s, rfl, fun hr => absurd (hidle hr).1 (by omega)⟩
  | succ p =>
    cases hrd : csrRd host flagReg s with
    | error e t =>
      refine Or.inr ⟨e, t, by simp [waitMcuReady, hrd, bind, EStateM.bind], fun hr => ?_⟩
      obtain ⟨v, hv⟩ := (hr.sound s.hw (hb ▸ hs.accessed)).1 flagReg
      rw [csrRd, read_eq_ok _ _ hv] at hrd
      cases hrd
    | ok v t =>
      have ht : Sent rf h₀ cmdPkt n t := ((ends_csrRd_sent hb hn flagReg).ok hs hrd).1
      have hstep : waitMcuReady host (p + 1) s =
          (if v.getLsbD 0 = true then waitMcuReady host p else pure ()) t := by
        simp [waitMcuReady, hrd, bind, EStateM.bind]
      rw [hstep]
      by_cases hv : v.getLsbD 0 = true
      · rw [if_pos hv]
        refine ((ends_waitMcuReady_any hb hn p).weaken (fun _ _ => id) fun _ _ hr => ?_) t ht
        rw [(hidle hr).2 v (read_ok _ _ hrd).1] at hv
        cases hv
      · rw [if_neg hv]
        exact Or.inl ⟨(), t, rfl, ht⟩

/-- The words of the packet are in the request area when `sendRequest` returns; a ready MCU lets it return. -/
theorem ends_sendRequest (cmdPkt : Mem) (h₀ : H) (hb : host.bus = rf.toBus) (hn : (roundUp dataLen).toNat / 4 ≤ 256) :
    Ends (fun s => Accessed rf.toBus h₀ s.hw) (sendRequest host cmdPkt dataLen)
      (fun _ => Sent rf h₀ cmdPkt ((roundUp dataLen).toNat / 4)) fun _ => ¬Ready host h₀ := by
  refine Ends.failIf_bind (fun _ _ hd hr => by rw [hr.baseDev] at hd; cases hd) fun _ => ?_
  refine Ends.pre ?_ fun s hs => (⟨hs, fun k hk => absurd hk (Nat.not_lt_zero k)⟩ : Sent rf h₀ cmdPkt 0 s)
  refine (ends_sendWords hb hn).bind fun _ => ?_
  refine Ends.failIf_bind (fun _ _ hg hr => hr.gpio (Option.isNone_iff_eq_none.mp hg)) fun _ => ?_
  refine (ends_gpioRead.weaken (fun _ _ => id) fun _ hg hr => hr.gpio hg).bind fun mcuInterrupt => ?_
  refine Ends.bind (Q := fun _ => Sent rf h₀ cmdPkt ((roundUp dataLen).toNat / 4)) ?_ fun _ => ?_
  · refine Ends.when (fun hpin => ?_) fun _ s hs => hs.1
    subst hpin
    exact ends_waitMcuReady hb hn
  · have hread : Ends (Sent rf h₀ cmdPkt ((roundUp dataLen).toNat / 4)) (csrRd host mcuIntrMaskReg)
        (fun _ => Sent rf h₀ cmdPkt ((roundUp dataLen).toNat / 4)) fun _ => ¬Ready host h₀ :=
      (ends_csrRd_sent hb hn _).weaken (fun _ _ hs => hs.1) fun _ => id
    exact hread.bind fun val => (ends_csrWr_sent hb hn _ (by decide)).bind fun _ => ends_csrWr_sent hb hn _ (by decide)

/-! ### The response -/

/-- The MCU has raised the host interrupt. -/
def Pending (host : Host H) (h : H) : Prop :=
  ∃ gpio, host.gpioRead = some gpio ∧ gpio h ≠ 0 ∧ ∀ v, (host.bus.rd flagReg h).1 = .ok v → v.getLsbD 1 = true

/-- From `h₀` on no access fails. -/
structure Responsive (host : Host H) (h₀ : H) : Prop where
  baseDev : host.baseDev = true
  sound : host.bus.Sound h₀

/-- The first `n` words of the response area are those of the memory `m`. -/
structure Answered (rf : RegFile McuReg 32 H statusReg live) (h₀ : H) (m : Mem) (n : Nat) (s : Dev McuConf H) : Prop where
  accessed : Accessed rf.toBus h₀ s.hw
  words : ∀ k < n, rf.peek s.hw (respReg k) = loadWord m (4 * k)

/-- A read of the mailbox leaves the response area and the buffer alone. -/
theorem ends_csrRd_answered (hb : host.bus = rf.toBus) (hn : n ≤ 256) (r : McuReg) (T : McuConf → Prop) :
    Ends (fun s => Answered rf h₀ m n s ∧ T s.conf) (csrRd host r)
      (fun v s => (Answered rf h₀ m n s ∧ T s.conf) ∧ ∀ k < n, r = respReg k → v = loadWord m (4 * k))
      fun _ => ¬Responsive host h₀ := by
  rw [csrRd, hb]
  refine (ends_read_stored _ rf (fun s hs => hs.1.accessed) fun s h' v hs ha _ hv hold =>
    (⟨⟨⟨ha, fun k hk => ?_⟩, hs.2⟩, ?_⟩ : _ ∧ _)).weaken (fun _ _ => id) fun _ hsound hr => hsound (hb ▸ hr.sound)
  · rintro k hk rfl
    rw [hv (respReg_not_status (by omega)), hs.1.words k hk]
  · rw [hold _ (respReg_not_status (by omega)), hs.1.words k hk]

/-- The first poll finds the interrupt. -/
theorem ends_waitHostIntr (m : Mem) (h₀ : H) (n : Nat) (hb : host.bus = rf.toBus) (hn : n ≤ 256) (p : Nat) :
    Ends (fun s => Pending host s.hw ∧ Answered rf h₀ m n s) (waitHostIntr host (p + 1))
      (fun ready s => ready = true ∧ Answered rf h₀ m n s) fun _ => ¬Responsive host h₀ := by
  rintro s ⟨⟨gpio, hg, hne, hflag⟩, hs⟩
  have hpin : gpioRead host s = .ok (gpio s.hw) s := by simp [gpioRead, hg]
  have hpoll : waitHostIntr host (p + 1) s = (csrRd host flagReg >>= fun val =>
      if val.getLsbD 1 = true then pure true else msleep host >>= fun _ => waitHostIntr host p) s := by
    have hflagIf : flagIf host (gpio s.hw) = csrRd host flagReg := if_pos hne
    simp only [waitHostIntr, bind, EStateM.bind, hpin, hflagIf]
  rw [hpoll]
  cases hr : csrRd host flagReg s with
  | error e t =>
    refine Or.inr ⟨e, t, by simp [bind, EStateM.bind, hr], fun hresp => ?_⟩
    obtain ⟨v, hv⟩ := (hresp.sound s.hw (hb ▸ hs.accessed)).1 flagReg
    rw [csrRd, read_eq_ok _ _ hv] at hr
    cases hr
  | ok v t =>
    have ht := (ends_csrRd_answered hb hn flagReg fun _ => True).ok ⟨hs, trivial⟩ hr
    exact Or.inl ⟨true, t, by simp [bind, EStateM.bind, hr, hflag v (read_ok _ _ hr).1, pure, EStateM.pure], rfl, ht.1.1⟩

theorem ends_readRest (hb : host.bus = rf.toBus) (hn : n + 1 ≤ 256) :
    Ends (fun s => Answered rf h₀ m (n + 1) s ∧ ∀ i < 4, s.conf.resp i = m i) (readRest host n)
      (fun _ s => Answered rf h₀ m (n + 1) s ∧ ∀ i < 4 * (n + 1), s.conf.resp i = m i)
      fun _ => ¬Responsive host h₀ := by
  refine Ends.forUpTo (I := fun k (s : Dev McuConf H) => Answered rf h₀ m (n + 1) s ∧
    ∀ i < 4 * (k + 1), s.conf.resp i = m i) n fun k hk => ?_
  refine (ends_csrRd_answered hb hn _ fun c => ∀ i < 4 * (k + 1), c.resp i = m i).bind fun val => ?_
  refine ends_modifyConf_of fun s hs => ⟨⟨hs.1.1.accessed, hs.1.1.words⟩, ?_⟩
  rw [hs.2 (k + 1) (by omega) rfl]
  exact storeWord_loadWord hs.1.2

/-- `fetchResponse` puts the words of the response into the buffer. -/
theorem ends_fetchResponse (m : Mem) (h₀ : H) (hb : host.bus = rf.toBus) (h0 : pktLenOf m ≠ 0)
    (hW : (roundUp (pktLenOf m)).toNat / 4 = n + 1) (hn : n + 1 ≤ 256) :
    Ends (Answered rf h₀ m (n + 1)) (fetchResponse host)
      (fun len s => len = pktLenOf m ∧ ∀ i < 4 * (n + 1), s.conf.resp i = m i) fun _ => ¬Responsive host h₀ := by
  have hlen : half (byteOf (loadWord m 0) 2) (byteOf (loadWord m 0) 3) = pktLenOf m := by
    rw [byteOf_loadWord (by decide), byteOf_loadWord (by decide)]
    rfl
  have hfirst : Ends (Answered rf h₀ m (n + 1))
      (modifyConf fun c => { c with resp := storeWord c.resp 0 (loadWord m 0) } : Call H PUnit)
      (fun _ s => Answered rf h₀ m (n + 1) s ∧ ∀ i < 4, s.conf.resp i = m i) fun _ => ¬Responsive host h₀ :=
    ends_modifyConf_of fun s hs => ⟨⟨hs.accessed, hs.words⟩, storeWord_loadWord fun i hi => absurd hi (Nat.not_lt_zero i)⟩
  have hlast : Ends (fun s => Answered rf h₀ m (n + 1) s ∧ ∀ i < 4 * (n + 1), s.conf.resp i = m i)
      (writeFlag host 0x02000000) (fun _ s => ∀ i < 4 * (n + 1), s.conf.resp i = m i) fun _ => ¬Responsive host h₀ := by
    rw [writeFlag, csrWr, hb]
    exact (ends_write_stored _ rf (fun s hs => hs.1.accessed) fun s h' hs _ _ _ => hs.2).weaken (fun _ _ => id)
      fun _ hsound hr => hsound (hb ▸ hr.sound)
  intro s hs
  unfold fetchResponse
  refine Ends.bind (P := fun s => Answered rf h₀ m (n + 1) s ∧ True)
    (ends_csrRd_answered hb hn (respReg 0) fun _ => True) (fun val => ?_) s ⟨hs, trivial⟩
  rintro s ⟨⟨hs, -⟩, hval⟩
  obtain rfl := hval 0 (by omega) rfl
  simp only [Nat.mul_zero, hlen, if_neg h0, hW, Nat.add_sub_cancel]
  exact (hfirst.bind fun _ => (ends_readRest hb hn).bind fun _ => hlast.bind fun _ =>
    Ends.pure fun s hs => ⟨rfl, hs⟩) s hs

/-! ### There and back -/

/-- Once the host interrupt is seen, the words of the response area are those of the request area of `s`. -/
def Echoed (rf : RegFile McuReg 32 H statusReg live) (host : Host H) (timeout : Nat) (s t : Dev McuConf H) : Prop :=
  ∀ t₁, waitHostIntr host (timeout + 1) t = .ok true t₁ →
    ∀ k < 256, rf.peek t₁.hw (respReg k) = rf.peek s.hw (cmdReg k)

theorem roundUp_div (len : BitVec 16) (h6 : 6 ≤ len.toNat) (h : len.toNat ≤ 1024) :
    ∃ n, (roundUp len).toNat / 4 = n + 1 ∧ n + 1 ≤ 256 ∧ len.toNat ≤ 4 * (n + 1) := by
  refine ⟨(len.toNat + 3) / 4 - 1, ?_, by omega, by omega⟩
  have hmod : (len % 4).toNat = len.toNat % 4 := BitVec.toNat_umod
  unfold roundUp
  split
  · next hne =>
    have hne' : len.toNat % 4 ≠ 0 := fun h0 => hne (BitVec.eq_of_toNat_eq (by simpa [hmod] using h0))
    have h4 : (4 - len % 4 : BitVec 16).toNat = (2 ^ 16 - len.toNat % 4 + 4) % 2 ^ 16 := by
      rw [BitVec.toNat_sub, hmod]
      rfl
    rw [BitVec.toNat_add, h4]
    omega
  · next he =>
    have he' : len.toNat % 4 = 0 := by
      rw [← hmod, Decidable.not_not.mp he]
      rfl
    omega

/-- A readResponse that returns has seen the interrupt, and then fetched the response. -/
theorem readResponse_ok {timeout : Nat} {t t' : Dev McuConf H} {len : BitVec 16}
    (h : readResponse host timeout t = .ok len t') :
    ∃ t₁, waitHostIntr host (timeout + 1) t = .ok true t₁ ∧ fetchResponse host t₁ = .ok len t' := by
  unfold readResponse at h
  obtain ⟨_, t₀, h₀, hrest⟩ := (bind_ok_iff _ _ _ _ _).mp h
  have ht : t₀ = t := by
    unfold failIf Fallible.when at h₀
    split at h₀
    · cases h₀
    · cases h₀
      rfl
  subst ht
  obtain ⟨ready, t₁, hw, hready⟩ := (bind_ok_iff _ _ _ _ _).mp hrest
  cases ready with
  | true => exact ⟨t₁, hw, hready⟩
  | false =>
    obtain ⟨_, _, -, h₁⟩ := (bind_ok_iff _ _ _ _ _).mp hready
    obtain ⟨_, _, -, h₂⟩ := (bind_ok_iff _ _ _ _ _).mp h₁
    obtain ⟨_, _, -, h₃⟩ := (bind_ok_iff _ _ _ _ _).mp h₂
    obtain ⟨_, _, -, h₄⟩ := (bind_ok_iff _ _ _ _ _).mp h₃
    cases h₄

end Storage

end Lan80xx.Mailbox
