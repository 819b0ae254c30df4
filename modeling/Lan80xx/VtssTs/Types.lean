import Mathlib.Data.BitVec

/-!
# Egress timestamps: engines, entries and their signatures

An entry of the timestamp FIFO has 26 bytes: a timestamp of 10 and a signature of up to 16, which the mask of the port
divides into fields.

- `SigMask`: the masks that `vtss_phy_ts_fifo_sig_set` accepts;
- `decode_isSome`: with these, no field lies behind the last byte.
-/

namespace Lan80xx.VtssTs

abbrev Byte := BitVec 8

/-- What a call fails with: an access that fails, or the driver itself. `hang` stands for a call that does not return. -/
inductive Rc
  | access (rc : Int)
  | error
  | hang
  deriving DecidableEq, Repr

/-! ## Engines -/

/-- `vtss_phy_ts_engine_t` -/
inductive EngId
  | ptp0
  | ptp1
  | oam2a
  | oam2b
  deriving DecidableEq, Repr

/-- `vtss_phy_ts_encap_t`; `none` is also any other value. -/
inductive Encap
  | ethPtp
  | ethIpPtp
  | ethIpIpPtp
  | ethEthPtp
  | ethEthIpPtp
  | ethMplsIpPtp
  | ethMplsEthPtp
  | ethMplsEthIpPtp
  | ethMplsAchPtp
  | ethOam
  | ethEthOam
  | ethMplsEthOam
  | ethMplsAchOam
  | any
  | ethGen
  | ethHsrPtp
  | none
  deriving DecidableEq, Repr

/-! ## Signatures -/

/-- `VTSS_PHY_TS_FIFO_SIG_*` -/
inductive SigField
  | srcIp
  | destIp
  | msgType
  | domainNum
  | sourcePortId
  | seqId
  | destMac
  deriving DecidableEq, Repr

namespace SigField

/-- The bit of the mask. -/
def bit : SigField → Nat
  | srcIp => 0
  | destIp => 1
  | msgType => 2
  | domainNum => 3
  | sourcePortId => 4
  | seqId => 5
  | destMac => 6

/-- `VTSS_PHY_TS_SIG_*_LEN`; one byte for the others. -/
def len : SigField → Nat
  | srcIp => 4
  | destIp => 4
  | msgType => 1
  | domainNum => 1
  | sourcePortId => 10
  | seqId => 2
  | destMac => 6

end SigField

/-- `vtss_phy_ts_fifo_sig_mask_t` -/
abbrev Mask := BitVec 32

/-- `sig_mask & VTSS_PHY_TS_FIFO_SIG_*` -/
def Mask.has (mask : Mask) (field : SigField) : Bool := mask.getLsbD field.bit

/-- The bytes that a field takes in the signature. -/
def Mask.len (mask : Mask) (field : SigField) : Nat := if mask.has field then field.len else 0

/-- The check of `vtss_phy_ts_fifo_sig_set`: `len` in its order. -/
def Mask.sigLen (mask : Mask) : Nat :=
  mask.len .msgType + mask.len .domainNum + mask.len .sourcePortId + mask.len .seqId + mask.len .destIp +
    mask.len .srcIp + mask.len .destMac

/-- A mask that `vtss_phy_ts_fifo_sig_set` accepts. -/
structure SigMask where
  mask : Mask
  fits : mask.sigLen ≤ 16

/-- `vtss_phy_timestamp_t` -/
structure Timestamp where
  secondsHigh : BitVec 16
  secondsLow : BitVec 32
  nanoseconds : BitVec 32
  deriving DecidableEq, Repr

/-- `vtss_phy_ts_fifo_sig_t` -/
structure FifoSig where
  sigMask : Mask
  msgType : Byte
  domainNum : Byte
  srcPortIdentity : List Byte
  sequenceId : BitVec 16
  destIp : BitVec 32
  srcIp : BitVec 32
  destMac : List Byte
  deriving DecidableEq, Repr

/-- `vtss_phy_ts_fifo_entry_t` -/
structure FifoEntry where
  sig : FifoSig
  ts : Timestamp
  deriving DecidableEq, Repr

/-! ## From the bytes to the fields -/

/-- `sig[i]` -/
def byteAt (sig : List Byte) (i : Nat) : Byte := sig.getD i 0

/-- `(sig[pos + 1] << 8) | sig[pos]` -/
def half (sig : List Byte) (pos : Nat) : BitVec 16 := byteAt sig (pos + 1) ++ byteAt sig pos

/-- `(sig[pos + 3] << 24) | (sig[pos + 2] << 16) | (sig[pos + 1] << 8) | sig[pos]` -/
def word (sig : List Byte) (pos : Nat) : BitVec 32 := half sig (pos + 2) ++ half sig pos

/-- The timestamp in the first ten bytes. -/
def timestampOf (sig : List Byte) : Timestamp := ⟨half sig 8, word sig 4, word sig 0⟩

/-- A field that the mask asks for is taken from `pos` on, after `VTSS_PHY_TS_ASSERT`; the others stay 0. -/
def takeField (mask : Mask) (sig : List Byte) (field : SigField) (pos : Nat) : Option (List Byte × Nat) :=
  if mask.has field then
    if pos + field.len > 26 then none
    else some ((List.range field.len).map fun i => byteAt sig (pos + i), pos + field.len)
  else some (List.replicate field.len 0, pos)

/-- The fields in the order in which they lie in the entry. -/
def sigOrder : List SigField := [.seqId, .sourcePortId, .domainNum, .msgType, .destIp, .srcIp, .destMac]

/-- The bytes of the fields, one after the other from `pos` on. -/
def takeFields (mask : Mask) (sig : List Byte) : List SigField → Nat → Option (SigField → List Byte)
  | [], _ => some fun _ => []
  | field :: fields, pos => do
    let (bytes, pos) ← takeField mask sig field pos
    let rest ← takeFields mask sig fields pos
    pure fun f => if f = field then bytes else rest f

/-- The fields of `vtss_phy_ts_fifo_sig_t` from their bytes: the port identity is turned round, and of the message type
only the lower nibble counts. -/
def sigOf (mask : Mask) (bytes : SigField → List Byte) : FifoSig where
  sigMask := mask
  msgType := byteAt (bytes .msgType) 0 &&& 0x0F
  domainNum := byteAt (bytes .domainNum) 0
  srcPortIdentity := (bytes .sourcePortId).reverse
  sequenceId := half (bytes .seqId) 0
  destIp := word (bytes .destIp) 0
  srcIp := word (bytes .srcIp) 0
  destMac := bytes .destMac

/-- What `vtss_phy_ts_fifo_empty_priv` makes of the 26 bytes of an entry. -/
def decode (mask : Mask) (sig : List Byte) : Option FifoEntry := do
  let bytes ← takeFields mask sig sigOrder 10
  pure ⟨sigOf mask bytes, timestampOf sig⟩

/-- The bytes that these fields take. -/
def Mask.lens (mask : Mask) (fields : List SigField) : Nat := (fields.map mask.len).sum

theorem takeField_of_fits {mask : Mask} {field : SigField} {pos : Nat} (sig : List Byte)
    (h : pos + mask.len field ≤ 26) : ∃ bytes, takeField mask sig field pos = some (bytes, pos + mask.len field) := by
  unfold takeField Mask.len at *
  by_cases hm : mask.has field
  · simp only [hm, if_true] at h ⊢
    rw [if_neg (by omega)]
    exact ⟨_, rfl⟩
  · simp only [hm, Bool.false_eq_true, if_false, Nat.add_zero]
    exact ⟨_, rfl⟩

theorem takeFields_of_fits {mask : Mask} (sig : List Byte) (fields : List SigField) (pos : Nat)
    (h : pos + mask.lens fields ≤ 26) : ∃ bytes, takeFields mask sig fields pos = some bytes := by
  induction fields generalizing pos with
  | nil => exact ⟨_, rfl⟩
  | cons field fields ih =>
    simp only [Mask.lens, List.map_cons, List.sum_cons] at h
    obtain ⟨bytes, hbytes⟩ := takeField_of_fits sig (show pos + mask.len field ≤ 26 by omega)
    obtain ⟨rest, hrest⟩ := ih (pos + mask.len field) (by simp only [Mask.lens]; omega)
    exact ⟨fun f => if f = field then bytes else rest f, by simp [takeFields, hbytes, hrest]⟩

theorem sigLen_eq (mask : Mask) : mask.sigLen = mask.lens sigOrder := by
  simp only [Mask.sigLen, Mask.lens, sigOrder, List.map_cons, List.map_nil, List.sum_cons, List.sum_nil]
  omega

/-- No check of `vtss_phy_ts_fifo_empty_priv` fails for a mask that has been accepted. -/
theorem decode_isSome (mask : SigMask) (sig : List Byte) : ∃ entry, decode mask.mask sig = some entry := by
  have hlen := mask.fits
  rw [sigLen_eq] at hlen
  obtain ⟨bytes, hbytes⟩ := takeFields_of_fits sig sigOrder 10 (show 10 + mask.mask.lens sigOrder ≤ 26 by omega)
  exact ⟨⟨sigOf mask.mask bytes, timestampOf sig⟩, by simp [decode, hbytes]⟩

end Lan80xx.VtssTs
