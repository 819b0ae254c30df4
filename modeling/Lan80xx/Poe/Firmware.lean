import Lan80xx.Poe.Transaction

/-!
# PoE controller: firmware download

`meba_poe_pd69200_firmware_upgrade` brings the controller into its boot loader, sends the S3 and S7 lines of the image
one by one, each after the reply to the one before, and resets the controller.

The image is a list of bytes, and the pointer into it is the part from there on; to read behind the end of the image, or
to write behind the end of the line buffer, is a `fault`. The `log` is not in the source: it keeps what has been written
and what has been received.
-/

namespace Lan80xx.Poe

open RegBus Loop

variable {H : Type}

/-! ## Characters -/

def ascii (c : Char) : Byte := BitVec.ofNat 8 c.toNat

/-- `'\n'` -/
def lf : Byte := 10#8

/-- The value of a `char`, which is signed on some machines. -/
def charVal (signed : Bool) (b : Byte) : Int := if signed then b.toInt else b.toNat

/-- `*microsemi_firmware != '\n' && *microsemi_firmware < 127` -/
def inLine (signed : Bool) (b : Byte) : Bool := b ≠ lf ∧ charVal signed b < 127

/-! ## The image -/

/-- The bytes up to the end of the line, and those from there on; nothing when the line has no end in the image. -/
def scanLine (signed : Bool) : List Byte → Option (List Byte × List Byte)
  | [] => none
  | b :: rest =>
    if inLine signed b then (scanLine signed rest).map fun r => (b :: r.1, r.2)
    else some ([], b :: rest)

/-- What the loop makes of the next line of the image. -/
inductive Record
  | fault
  | malformed
  | header (rest : List Byte)
  | line (text rest : List Byte)
  deriving DecidableEq

/-- "Skipping LF (Line Feed)" -/
def skipLf : List Byte → List Byte
  | [] => []
  | b :: rest => if b = lf then rest else b :: rest

/-- `LINE_SIZE_MAX` -/
def lineSizeMax : Nat := 100

/-- An S3 or S7 line: line feed and terminating 0 are put behind it in the line buffer, and the byte that ends it is
skipped. -/
def dataRecord (signed : Bool) (bytes : List Byte) : Record :=
  match scanLine signed bytes with
  | none => .fault
  | some (text, rest) => if lineSizeMax ≤ text.length + 1 then .fault else .line text (rest.drop 1)

/-- An S0 line; the byte that ends it stays. -/
def headerRecord (signed : Bool) (bytes : List Byte) : Record :=
  match scanLine signed bytes with
  | none => .fault
  | some (_, rest) => .header rest

/-- The next line of the image. -/
def nextRecord (signed : Bool) (image : List Byte) : Record :=
  match skipLf image with
  | [] => .fault
  | b :: bytes =>
    if b ≠ ascii 'S' then .malformed
    else
      match bytes with
      | [] => .fault
      | c :: _ =>
        if c = ascii '0' then headerRecord signed (b :: bytes)
        else if c = ascii '3' ∨ c = ascii '7' then dataRecord signed (b :: bytes)
        else .malformed

/-- `byte_cnt < firmware_size && *microsemi_firmware <= 127` -/
def inImage (signed : Bool) : List Byte → Bool
  | [] => false
  | b :: _ => charVal signed b ≤ 127

/-! ## Replies of the boot loader -/

/-- Bytes put into a buffer. -/
def put (buf : Msg) (k : Nat) (data : List Byte) : Msg :=
  Vector.ofFn fun i => if k ≤ i.val then (data[i.val - k]?).getD buf[i] else buf[i]

/-- The loop of `pd69200_firm_update_rd` for the first byte: whether no read has failed, the buffer, and what came last. -/
def firmUpdateFirst (bus : I2c H) : Nat → Msg → H → (Bool × Msg × List Byte) × H
  | 0, buf, h => ((true, buf, []), h)
  | n + 1, buf, h =>
    match bus.read 1 h with
    | (none, h) => ((false, buf, []), h)
    | (some data, h) =>
      if (put buf 0 data).byte 0 = 0#8 then firmUpdateFirst bus n (put buf 0 data) h
      else ((true, put buf 0 data, data), h)

/-- `pd69200_firm_update_rd`: the buffer, and what has been received. No caller looks at the return code. -/
def firmUpdateRd (bus : I2c H) (size : Nat) (buf : Msg) (h : H) : (Msg × List Byte) × H :=
  match firmUpdateFirst bus 40 buf h with
  | ((false, buf, _), h) => ((buf, []), h)
  | ((true, buf, first), h) =>
    if buf.byte 0 = 0#8 then ((buf, []), h)
    else
      match bus.read (size - 1) h with
      | (none, h) => ((buf, first), h)
      | (some data, h) => ((put buf 1 data, if first = [] then [] else first ++ data), h)

/-- The buffer begins with the characters. -/
def startsWith (buf : Msg) (cs : List Char) : Bool := buf.toList.take cs.length = cs.map ascii

/-! ## The download -/

/-- The state of the loop over the lines. -/
structure LoadState (H : Type) where
  rest : List Byte
  buf : Msg
  inst : Inst H
  log : List (List Byte × List Byte) := []

/-- How the loop is left: at a fault, to the reset, or to the error return. -/
inductive LoadEnd
  | fault
  | stopped
  | noAck
  deriving DecidableEq

/-- Write a line, and read the reply to it. -/
def sendLine (bus : I2c H) (text rest : List Byte) (s : LoadState H) : LoadState H :=
  let inst := (pd69200Wr bus (text ++ [lf]) s.inst).2
  let reply := firmUpdateRd bus 4 s.buf inst.hw
  { rest, buf := reply.1.1, inst := { inst with hw := reply.2 }, log := s.log ++ [(text ++ [lf], reply.1.2)] }

/-- One pass of the loop. -/
def loadPass (bus : I2c H) (signed : Bool) (s : LoadState H) : LoadState H ⊕ LoadEnd × LoadState H :=
  if inImage signed s.rest then
    match nextRecord signed s.rest with
    | .fault => .inr (.fault, s)
    | .malformed => .inr (.stopped, s)
    | .header rest => .inl { s with rest }
    | .line text rest =>
      let s := sendLine bus text rest s
      if startsWith s.buf ['T', '*'] then .inl s
      else if startsWith s.buf ['T', 'P'] then .inr (.stopped, s)
      else .inr (.noAck, s)
  else .inr (.stopped, s)

/-- `pd69200_wr`, whatever its return code. -/
def wrAll (bus : I2c H) (data : List (List Byte)) (s : Inst H) : Inst H :=
  data.foldl (fun s d => (pd69200Wr bus d s).2) s

/-- `pd69200_rd(inst, buf, PD_BUFFER_SIZE)`, whatever its return code. -/
def clearRx (bus : I2c H) (s : Inst H) : Msg × Inst H :=
  let r := bus.read 15 s.hw
  (put (Vector.replicate 15 0#8) 0 (r.1.getD []), { s with hw := r.2 })

def getSoftwareVersion : Msg :=
  #v[requestKey, 0x00#8, 0x07#8, 0x1E#8, 0x21#8, 0x4E#8, 0x4E#8, 0x4E#8, 0x4E#8, 0x4E#8, 0x4E#8, 0x4E#8, 0x4E#8, 0x4E#8,
    0x4E#8]

def downloadCommand : Msg :=
  #v[0x01#8, 0x01#8, 0xFF#8, 0x99#8, 0x15#8, 0x16#8, 0x16#8, 0x99#8, 0x4E#8, 0x4E#8, 0x4E#8, 0x4E#8, 0x4E#8, 0x03#8,
    0xFA#8]

/-- The boot loader is entered by a command, or, when there is no valid firmware, by "ENTR". -/
def enterBoot (bus : I2c H) (fuel : Nat) (buf : Msg) (s : Inst H) : Option (Option Msg × Inst H) :=
  match pd69200TxRx bus fuel getSoftwareVersion s with
  | none => none
  | some ((.ok, _), s) =>
    match pd69200TxRx bus fuel downloadCommand s with
    | none => none
    | some ((rc, _), s) => some (if rc = .ok then some buf else none, s)
  | some (_, s) =>
    let s := (clearRx bus s).2
    let (buf, s) := clearRx bus s
    some (some buf, wrAll bus [[ascii 'E'], [ascii 'N'], [ascii 'T'], [ascii 'R']] s)

/-- A reply of the boot loader. -/
def bootReply (bus : I2c H) (size : Nat) (buf : Msg) (s : Inst H) : Msg × Inst H :=
  let reply := firmUpdateRd bus size buf s.hw
  (reply.1.1, { s with hw := reply.2 })

/-- `buf[0] = c`, and write it. -/
def bootCommand (bus : I2c H) (c : Char) (buf : Msg) (s : Inst H) : Msg × Inst H :=
  (buf.setFirst (ascii c), (pd69200Wr bus [ascii c] s).2)

/-- From TPE to TOP: the memory is erased, and programming begins. The result is the buffer, unless a reply is another
one. -/
def bootDialogue (bus : I2c H) (buf : Msg) (s : Inst H) : Option Msg × Inst H :=
  let (buf, s) := bootReply bus 5 buf s
  if ¬startsWith buf ['T', 'P', 'E'] then (none, s)
  else
    let (buf, s) := bootCommand bus 'E' buf s
    let (buf, s) := bootReply bus 5 buf s
    if ¬startsWith buf ['T', 'O', 'E'] then (none, s)
    else
      let (buf, s) := bootReply bus 4 buf s
      if ¬startsWith buf ['T', 'E'] then (none, s)
      else
        let (buf, s) := bootReply bus 5 buf s
        if ¬startsWith buf ['T', 'P', 'E'] then (none, s)
        else
          let (buf, s) := bootCommand bus 'P' buf s
          let (buf, s) := bootReply bus 5 buf s
          (if startsWith buf ['T', 'O', 'P'] then some buf else none, s)

/-- What comes before the loop over the lines. -/
def prepareLoad (bus : I2c H) (fuel : Nat) (buf : Msg) (s : Inst H) : Option (Option Msg × Inst H) :=
  match enterBoot bus fuel buf s with
  | none => none
  | some (none, s) => some (none, s)
  | some (some buf, s) => some (bootDialogue bus buf s)

/-- `meba_poe_pd69200_set_chipset` -/
def setChipset (state : ChipState) (s : Inst H) : Inst H := { s with conf := { s.conf with chipState := state } }

/-- A boot-up error that the status after the reset names. -/
def storeBootError (r : RxState H) (s : Inst H) : Inst H :=
  if r.isSystemStatus ∧ r.bootError ≠ .unknown then
    { s with conf := { s.conf with isBootError := true, bootError := r.bootError, bufRx := r.rx } }
  else s

/-- What comes behind the loop: "RST", and the status that follows. -/
def resetBoot (bus : I2c H) (fuel : Nat) (s : Inst H) : Option (Rc × Inst H) :=
  match pd69200Wr bus [ascii 'R', ascii 'S', ascii 'T'] s with
  | (false, s) => some (.error, s)
  | (true, s) =>
    match get15BytesCommProtocolReply bus fuel (Vector.replicate 15 0#8) 0xFF#8 s.hw with
    | none => none
    | some (rc, r) =>
      let s := storeBootError r { s with hw := r.hw }
      some (if rc = .error then (.error, s) else (rc, setChipset .chipsetFound s))

/-- How the download ends. -/
inductive Ended
  | fault
  | rc (rc : Rc)
  deriving DecidableEq

/-- The end of a download, with what it has sent and received. -/
structure Download (H : Type) where
  ended : Ended
  inst : Inst H
  log : List (List Byte × List Byte)

/-- What comes behind the loop. -/
def finishLoad (bus : I2c H) (fuel : Nat) : LoadEnd × LoadState H → Option (Download H)
  | (.fault, t) => some ⟨.fault, t.inst, t.log⟩
  | (.noAck, t) => some ⟨.rc .error, t.inst, t.log⟩
  | (.stopped, t) => (resetBoot bus fuel t.inst).map fun r => ⟨.rc r.1, r.2, t.log⟩

/-- `meba_poe_pd69200_firmware_upgrade`. `buf` is what the buffer happens to hold at first; the image is that of the
caller, or else the built-in one, when it can be mapped. -/
def firmwareUpgrade (bus : I2c H) (signed : Bool) (fuel : Nat) (buf : Msg) (image builtin : Option (List Byte))
    (s : Inst H) : Option (Download H) :=
  if s.conf.chipState ≠ .firmwareUpgrade then some ⟨.rc .ok, s, []⟩
  else
    match prepareLoad bus fuel buf s with
    | none => none
    | some (none, s) => some ⟨.rc .error, s, []⟩
    | some (some buf, s) =>
      match image.or builtin with
      | none => some ⟨.rc .error, s, []⟩
      | some image =>
        (loop (loadPass bus signed) (image.length + 1) { rest := image, buf, inst := s }).bind (finishLoad bus fuel)

end Lan80xx.Poe
