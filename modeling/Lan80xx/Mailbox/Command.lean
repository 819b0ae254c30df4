import Lan80xx.Mailbox.Transfer

/-!
# Mailbox: commands

Every command is one request and one response: the packet is made and sent, the response read, checked and interpreted.
What differs is the packet id, the parameters, the timeout and what the payload of the answer has to be.
-/

namespace Lan80xx.Mailbox

open ByteMem Fallible RegBus

variable {H α : Type}

/-! ## One command -/

/-- `MAILBOX_INTR_TIMEOUT` -/
def intrTimeout : Nat := 500

/-- `MAILBOX_INTR_SIGN_TIMEOUT` -/
def intrSignTimeout : Nat := 2000

/-- `RESERVED_ID` -/
def reservedId : Byte := 0xFF

/-- The parameter length of a received packet: the subtraction is made on 16 bits. -/
def dataLenOf (pktLen : BitVec 16) : Nat := (pktLen - BitVec.ofNat 16 maxPktHeaderLen - BitVec.ofNat 16 maxCrcLen).toNat

/-- The first `n` parameter bytes of a received packet. -/
def payload (m : Mem) (n : Nat) : List Byte := (List.range n).map fun i => m (maxPktHeaderLen + i)

/-- `lan80xx_CreatePacket`, `lan80xx_MB_SendRequest` and `lan80xx_MB_ReadResponse`. -/
def exchange (host : Host H) (packetId reserved : Byte) (cmdData : List Byte) (timeout : Nat) :
    Call H (BitVec 16) := fun s =>
  let pkt := createPacket packetId cmdData reserved fun _ => 0
  let note (s : Dev McuConf H) (response : Except McuRc Mem) : Dev McuConf H :=
    { s with conf := { s.conf with exchanges := s.conf.exchanges ++ [⟨packetId, reserved, cmdData, response⟩] } }
  match (sendRequest host pkt.1 pkt.2 >>= fun _ => readResponse host timeout) s with
  | .ok len s' => .ok len (note s' (.ok s'.conf.resp))
  | .error e s' => .error e (note s' (.error e))

/-- What a command makes of the response buffer: `none` when it returns without an answer. -/
def interpret (packetId : Byte) (decode : BitVec 16 → Mem → Except McuRc α) (len : BitVec 16) (resp : Mem) :
    Except McuRc (Option α) :=
  match validatePacket fun i => some (resp i) with
  | some (.ok ()) =>
    if resp 0 = packetId + 0x80 then (decode len resp).map some
    else packetDump (pktLenOf resp) >>= fun _ =>
      .error (if resp 0 = packetId + 0x81 then .failResponse else .cmdProtoNoSync)
  | some (.error .hang) => .error .hang
  -- `return rc`, which is still the code of the successful `lan80xx_MB_ReadResponse`
  | _ => .ok none

/-- The steps that all command functions share. -/
def command (host : Host H) (packetId reserved : Byte) (cmdData : List Byte) (timeout : Nat)
    (decode : BitVec 16 → Mem → Except McuRc α) : Call H (Option α) := do
  let len ← exchange host packetId reserved cmdData timeout
  let conf ← getConf
  ofExcept (interpret packetId decode len conf.resp)

/-- A call whose return code nobody looks at. -/
def unchecked (x : Call H α) : Call H Unit := fun s =>
  match x s with
  | .error .hang s' => .error .hang s'
  | .ok _ s' => .ok () s'
  | .error _ s' => .ok () s'

/-- A call whose return code the caller looks at itself. -/
def checked (x : Call H α) : Call H (Except McuRc α) := fun s =>
  match x s with
  | .error .hang s' => .error .hang s'
  | .ok a s' => .ok (.ok a) s'
  | .error rc s' => .ok (.error rc) s'

/-- The answer is the whole payload. -/
def decodeAll (_ : BitVec 16) (resp : Mem) : Except McuRc (List Byte) := .ok (payload resp (dataLenOf (pktLenOf resp)))

/-- The answer is a payload of the length asked for. -/
def decodeLen (n : Nat) (_ : BitVec 16) (resp : Mem) : Except McuRc (List Byte) :=
  if dataLenOf (pktLenOf resp) = 0 ∨ dataLenOf (pktLenOf resp) ≠ n then .error .invalidPktLen else .ok (payload resp n)

/-- The answer is one byte. -/
def decodeByte (_ : BitVec 16) (resp : Mem) : Except McuRc Byte :=
  if dataLenOf (pktLenOf resp) ≠ 1 then .error .invalidPktLen else .ok (resp maxPktHeaderLen)

section Commands

variable (host : Host H)

/-! ## Device information and memory -/

/-- `DEVICE_INFO` -/
structure DeviceInfo where
  partId : BitVec 16
  targetId : Byte
  imageType : Byte
  firmwareVersion : BitVec 16

/-- `lan80xx_get_fw_info_priv` -/
def getFwInfo : Call H (Option DeviceInfo) :=
  command host 0x00 reservedId [] intrTimeout fun _ m =>
    .ok ⟨half (m 4) (m 5), m 6, m 7, half (m 9) (m 8)⟩

/-- A 32-bit address and a 16-bit length, the low bytes first. -/
def addrLen (addr : BitVec 32) (len : BitVec 16) : List Byte :=
  [byteOf addr 0, byteOf addr 1, byteOf addr 2, byteOf addr 3, byteOf len 0, byteOf len 1]

/-- `lan80xx_memory_read_priv` -/
def memoryRead (addr : BitVec 32) (len : BitVec 16) : Call H (Option (List Byte)) := do
  failIf (maxPayloadLen < len.toNat) .invalidPktLen
  command host 0x06 reservedId (addrLen addr len) intrTimeout decodeAll

/-- `lan80xx_memory_write_priv` -/
def memoryWrite (addr : BitVec 32) (data : List Byte) : Call H (Option Unit) := do
  failIf (maxPayloadLen - 6 < data.length) .invalidPktLen
  command host 0x07 reservedId (addrLen addr (BitVec.ofNat 16 data.length) ++ data) intrTimeout fun _ _ => .ok ()

/-! ## OTP -/

/-- `MAX_OTP_CFG_RECORDS` -/
def maxOtpCfgRecords : Nat := 64

/-- `MAX_OTP_SIZE` -/
def maxOtpSize : Nat := 0x4000

/-- `eOTPWRITE_AUTH` -/
def otpWriteAuth : Byte := 0xFD

/-- `eOTPWRITE_BUFF` -/
def otpWriteBuff : Byte := 0xFE

/-- `MB_MAX_PAYLOAD_LEN - 4`: what one OTP packet carries besides address and length. -/
def otpChunkLen : Nat := maxPayloadLen - 4

/-- `lan80xx_otp_cfg_read_priv` -/
def otpCfgRead (recIdx : Byte) : Call H (Option (List Byte)) := do
  failIf (maxOtpCfgRecords < recIdx.toNat) .parm
  command host 0x08 reservedId [recIdx] intrTimeout fun _ m =>
    if dataLenOf (pktLenOf m) = 0 then .error .invalidPktLen else .ok (payload m (dataLenOf (pktLenOf m)))

/-- A 16-bit address and a 16-bit length, the low bytes first. -/
def otpAddrLen (addr len : Nat) : List Byte :=
  [byteOf (BitVec.ofNat 16 addr) 0, byteOf (BitVec.ofNat 16 addr) 1, byteOf (BitVec.ofNat 16 len) 0,
    byteOf (BitVec.ofNat 16 len) 1]

/-- The read loop, with `rest` bytes left: what is in the data buffer after it, and whether it came to its end. Every
round reads at least one byte, so that `rest` rounds are enough. -/
def otpReadFrom : Nat → Nat → Nat → Call H (List Byte × Bool)
  | 0, _, _ => pure ([], true)
  | n + 1, addr, rest =>
    if rest = 0 then pure ([], true)
    else do
      let chunk ← command host 0x0A reservedId (otpAddrLen addr (min rest otpChunkLen)) intrTimeout
        (decodeLen (min rest otpChunkLen))
      match chunk with
      | none => pure ([], false)
      | some data => do
        let (more, complete) ← otpReadFrom n (addr + min rest otpChunkLen) (rest - min rest otpChunkLen)
        pure (data ++ more, complete)

/-- `lan80xx_otp_read_priv` -/
def otpRead (offset len : BitVec 16) : Call H (List Byte × Bool) := do
  failIf (len.toNat = 0 ∨ maxOtpSize < len.toNat ∨ maxOtpSize < offset.toNat + len.toNat) .parm
  otpReadFrom host len.toNat offset.toNat len.toNat

/-- The write loop, with `data` left: whether it came to its end. Every round writes at least one byte. -/
def otpWriteFrom (mode : Byte) : Nat → Nat → List Byte → Call H Bool
  | 0, _, _ => pure true
  | n + 1, addr, data =>
    if data = [] then pure true
    else do
      let chunk ← command host 0x09 mode (otpAddrLen addr (data.take otpChunkLen).length ++ data.take otpChunkLen)
        (if mode = otpWriteAuth then intrSignTimeout else intrTimeout) decodeByte
      match chunk with
      | none => pure false
      | some _ => otpWriteFrom mode n (addr + (data.take otpChunkLen).length) (data.drop otpChunkLen)

/-- `lan80xx_otp_write_priv` -/
def otpWrite (data : List Byte) (offset : BitVec 16) (mode : Byte) : Call H Bool := do
  failIf (data.length = 0 ∨ maxOtpSize < data.length ∨ maxOtpSize < offset.toNat + data.length) .parm
  otpWriteFrom host mode data.length offset.toNat data

/-- `lan80xx_otp_getKey_Status_priv`: the active key. -/
def otpGetKeyStatus : Call H (Option Byte) := command host 0x11 reservedId [] intrTimeout decodeByte

/-- A command on the keys of the device, answered after a signature has been verified. -/
def keyCommand (packetId : Byte) (cmdData : List Byte) : Call H (Option Byte) :=
  command host packetId reservedId cmdData intrSignTimeout decodeByte

/-- `OTPProgReplacementKey_priv`, for a key with its signature. -/
def otpProgReplacementKey (keyNo : Byte) (keyData : Vector Byte 128) : Call H (Option Byte) :=
  keyCommand host keyNo keyData.toList

/-- `RevokeAllOtpKeys_priv` -/
def revokeAllOtpKeys : Call H (Option Byte) := keyCommand host 0x0F []

/-- `RevokeRotKey_priv` -/
def revokeRotKey : Call H (Option Byte) := keyCommand host 0x10 []

/-! ## Serdes configuration -/

/-- The parts of `__SERDES_CONFIG_T`, in its order. -/
inductive SerdesPart
  | txEq | cdr | speedChange | rxEq | dfe | polSq | txSwing | misc
  deriving DecidableEq

namespace SerdesPart

/-- Its `eSERDES_CFG_T`. -/
def code : SerdesPart → Byte
  | txEq => 0
  | cdr => 1
  | speedChange => 2
  | rxEq => 3
  | dfe => 4
  | polSq => 5
  | txSwing => 6
  | misc => 7

/-- The number of its members, all of one byte. -/
def size : SerdesPart → Nat
  | txEq => 6
  | cdr => 2
  | speedChange => 4
  | rxEq => 4
  | dfe => 8
  | polSq => 4
  | txSwing => 1
  | misc => 63

/-- Where its members start in the configuration. -/
def offset : SerdesPart → Nat
  | txEq => 0
  | cdr => 6
  | speedChange => 8
  | rxEq => 12
  | dfe => 16
  | polSq => 24
  | txSwing => 28
  | misc => 29

end SerdesPart

/-- The size of the whole configuration. -/
def serdesSize : Nat := 92

/-- `eSERDES_CFG_T`: one part, the whole, or a type the driver does not know. -/
inductive SerdesType
  | part (p : SerdesPart)
  | whole
  | unknown (code : Byte)
  deriving DecidableEq

def SerdesType.code : SerdesType → Byte
  | part p => p.code
  | whole => 0xFF
  | unknown c => c

/-- `lan80xx_get_serdes_config_priv`: the offset in the configuration, and the bytes that are put there. -/
def getSerdesConfig (speed : Byte) (cfgType : SerdesType) : Call H (Option (Nat × List Byte)) :=
  command host 0x1C reservedId [speed, cfgType.code] intrTimeout fun len m =>
    match cfgType with
    | .part p => if dataLenOf len = p.size then .ok (p.offset, payload m p.size) else .error .error
    | .whole => if dataLenOf len = serdesSize then .ok (0, payload m serdesSize) else .error .error
    | .unknown _ => .error .error

/-- `lan80xx_set_serdes_config_priv` -/
def setSerdesConfig (speed : Byte) (cfgType : SerdesType) (data : Vector Byte serdesSize) : Call H (Option Unit) :=
  let send (cfg : List Byte) : Call H (Option Unit) :=
    command host 0x1B reservedId (speed :: cfgType.code :: cfg) intrTimeout fun _ _ => .ok ()
  match cfgType with
  | .part p => send ((data.toList.drop p.offset).take p.size)
  | .whole => send data.toList
  | .unknown _ => throw .error

/-! ## KR logging -/

/-- The ports selected: bit `channelId` for the line side, bit `channelId + 4` for the host side. -/
def krPorts (channelId : Nat) (enable linePort hostPort : Bool) (enabled : Byte) : Byte :=
  let sel (port : Bool) (bit : Nat) (v : Byte) : Byte :=
    if port then if enable then v ||| (1 : Byte) <<< bit else v &&& ~~~((1 : Byte) <<< bit) else v
  sel hostPort (channelId + 4) (sel linePort channelId enabled)

/-- The loop that clears the lowest bit until none is left, with `n` rounds at most. -/
def krCount : Nat → Byte → Nat
  | 0, _ => 0
  | n + 1, ports => if ports ≠ 0 then krCount n (ports &&& (ports - 1)) + 1 else 0

/-- `lan80xx_KRLog_Enable_priv` -/
def krLogEnable (channelId : Nat) (enable linePort hostPort : Bool) : Call H (Option Unit) := do
  let conf ← getConf
  let ports := krPorts channelId enable linePort hostPort conf.krlogEnPorts
  if enable = false then do
    modifyConf fun c => { c with krlogEnPorts := ports }
    return some ()
  else do
    failIf (4 < krCount 8 ports) .parm
    failIf (krCount 8 ports = 0) .parm
    let answer ← command host 0x16 reservedId [ports] intrTimeout fun _ _ => .ok ()
    when (answer = some ()) (modifyConf fun c => { c with krlogEnPorts := ports })
    return answer

/-- `lan80xx_KRLog_Reset_priv` -/
def krLogReset (offset : BitVec 32) (len : BitVec 16) : Call H (Option Unit) :=
  command host 0x17 reservedId (addrLen offset len) intrTimeout fun _ _ => .ok ()

end Commands

end Lan80xx.Mailbox
