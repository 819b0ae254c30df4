import Lan80xx.Mailbox.Transfer

/-!
# Mailbox: the packet format

- a packet that is made, sent and received is the packet that was made, and it is accepted (`roundTrip_createPacket`);
- what is accepted is well formed and lies in the buffer, except for lengths below 6 (`packetFormat_iff`).
-/

namespace Lan80xx.Mailbox

open ByteMem Fallible RegBus

variable {H : Type} {live : McuReg → Prop}

/-- The packet of an id, a reserved byte and parameters, through the mailbox and back. -/
structure RoundTrip (rf : RegFile McuReg 32 H statusReg live) (host : Host H) (packetId : Byte) (cmdData : List Byte)
    (reserved : Byte) (buf : Mem) : Prop where
  sends : ∀ s : Dev McuConf H, Ready host s.hw → ∃ s',
    sendRequest host (createPacket packetId cmdData reserved buf).1 (createPacket packetId cmdData reserved buf).2 s =
      .ok () s'
  receives : ∀ (s s' t : Dev McuConf H) (timeout : Nat),
    sendRequest host (createPacket packetId cmdData reserved buf).1 (createPacket packetId cmdData reserved buf).2 s =
      .ok () s' → Echoed rf host timeout s' t → Pending host t.hw → Responsive host t.hw →
    ∃ len t', readResponse host timeout t = .ok len t'
  back : ∀ (s s' t t' : Dev McuConf H) (timeout : Nat) (len : BitVec 16),
    sendRequest host (createPacket packetId cmdData reserved buf).1 (createPacket packetId cmdData reserved buf).2 s =
      .ok () s' → Echoed rf host timeout s' t → readResponse host timeout t = .ok len t' →
    len.toNat = cmdData.length + 6 ∧ IsPacket t'.conf.resp packetId cmdData reserved ∧
      validatePacket (inBuffer t'.conf.resp) = some (.ok ())

theorem IsPacket.accepted {m : Mem} {packetId reserved : Byte} {cmdData : List Byte} (hn : cmdData.length ≤ maxPayloadLen)
    (hp : IsPacket m packetId cmdData reserved) : validatePacket (inBuffer m) = some (.ok ()) := by
  have hlen := hp.len
  have hmax : (pktLenOf m).toNat ≤ maxPktLen := by
    unfold maxPayloadLen at hn
    rw [hlen, maxPktLen_eq]
    omega
  refine (accepted_iff (m := m) (by omega) fun i hi => inBuffer_lt ?_).mpr ⟨hmax, hlen ▸ hp.crc⟩
  rw [maxPktLen_eq] at hi
  omega

section RoundTrip

variable {rf : RegFile McuReg 32 H statusReg live} {host : Host H} {packetId reserved : Byte} {cmdData : List Byte}
  {buf : Mem}

/-- Every packet that is made comes back. -/
theorem roundTrip_createPacket (hb : host.bus = rf.toBus) (hn : cmdData.length ≤ maxPayloadLen) :
    RoundTrip rf host packetId cmdData reserved buf := by
  obtain ⟨hpkt, hlen⟩ := isPacket_createPacket packetId reserved buf hn
  generalize hp : createPacket packetId cmdData reserved buf = pkt at hpkt hlen
  have hmax : cmdData.length ≤ 1018 := hn
  obtain ⟨n, hW, h256, hcover⟩ := roundUp_div pkt.2 (by omega) (by omega)
  have hheader : pktLenOf pkt.1 = pkt.2 := BitVec.eq_of_toNat_eq (by rw [hpkt.len, hlen])
  have h0 : pktLenOf pkt.1 ≠ 0 := fun h0 => by
    have hz : (pktLenOf pkt.1).toNat = 0 := by
      rw [h0]
      rfl
    have := hpkt.len
    omega
  have hsend : ∀ h₀, Ends (fun s => Accessed rf.toBus h₀ s.hw) (sendRequest host pkt.1 pkt.2)
      (fun _ => Sent rf h₀ pkt.1 (n + 1)) fun _ => ¬Ready host h₀ := fun h₀ => by
    have := ends_sendRequest pkt.1 h₀ hb (show (roundUp pkt.2).toNat / 4 ≤ 256 by omega)
    rwa [hW] at this
  -- what the wait for the interrupt finds in the response area
  have hanswer : ∀ {s s' t t₁ : Dev McuConf H} {timeout : Nat}, sendRequest host pkt.1 pkt.2 s = .ok () s' →
      Echoed rf host timeout s' t → waitHostIntr host (timeout + 1) t = .ok true t₁ →
      Answered rf t₁.hw pkt.1 (n + 1) t₁ := by
    intro s s' t t₁ timeout hs he hw
    refine ⟨.refl, fun k hk => ?_⟩
    rw [he t₁ hw k (by omega), ((hsend s.hw).ok .refl hs).words k hk]
  have hfetch := fun h₀ => ends_fetchResponse pkt.1 h₀ hb h0 (by rw [hheader, hW]) h256
  constructor
  · intro s hr
    rw [hp]
    rcases hsend s.hw s .refl with ⟨_, s', hs, -⟩ | ⟨_, _, -, hn⟩
    · exact ⟨s', hs⟩
    · exact absurd hr hn
  · intro s s' t timeout hs he hpend hresp
    rw [hp] at hs
    rcases ends_waitHostIntr pkt.1 t.hw 0 hb (by omega) timeout t
      ⟨hpend, .refl, fun k hk => absurd hk (Nat.not_lt_zero k)⟩ with ⟨_, t₁, hw, rfl, ht₁⟩ | ⟨_, _, -, hne⟩
    · have hresp₁ : Responsive host t₁.hw := ⟨hresp.baseDev, by rw [hb]; exact (hb ▸ hresp.sound).of_accessed ht₁.accessed⟩
      rcases hfetch t₁.hw t₁ (hanswer hs he hw) with ⟨len, t', hf, -⟩ | ⟨_, _, -, hne⟩
      · refine ⟨len, t', ?_⟩
        simp [readResponse, failIf, Fallible.when, hresp.baseDev, bind, EStateM.bind, pure, EStateM.pure, hw, hf]
      · exact absurd hresp₁ hne
    · exact absurd hresp hne
  · intro s s' t t' timeout len hs he hr
    rw [hp] at hs
    obtain ⟨t₁, hw, hf⟩ := readResponse_ok hr
    obtain ⟨rfl, hmem⟩ := (hfetch t₁.hw).ok (hanswer hs he hw) hf
    have hback := hpkt.congr fun i hi => hmem i (by omega)
    exact ⟨hpkt.len, hback, hback.accepted hn⟩

end RoundTrip

/-- Packets go through the mailbox, and a received buffer is accepted only when it holds one. -/
structure PacketFormat (rf : RegFile McuReg 32 H statusReg live) (host : Host H) (m : Mem) : Prop where
  made : ∀ packetId cmdData reserved buf, cmdData.length ≤ maxPayloadLen →
    RoundTrip rf host packetId cmdData reserved buf
  sound : SoundCheck m

/-- The format is kept for every packet made, and for every buffer received but those with a length below 2, or with
one from 2 to 5 that hold their own CRC in the header. -/
theorem packetFormat_iff (rf : RegFile McuReg 32 H statusReg live) (host : Host H) (hb : host.bus = rf.toBus) (m : Mem) :
    PacketFormat rf host m ↔
      2 ≤ (pktLenOf m).toNat ∧ ((pktLenOf m).toNat < 6 → ¬CrcAt m (pktLenOf m).toNat) := by
  rw [← soundCheck_iff]
  constructor
  · intro h
    exact h.sound
  · intro h
    exact ⟨fun _ _ _ _ hn => roundTrip_createPacket hb hn, h⟩

/-- A board whose registers are storage, and whose MCU never answers. -/
def silentBoard : Host (McuReg → BitVec 32) where
  bus := (storage statusReg fun _ => False).toBus
  gpioRead := some fun _ => 0
  msleep := id
  patience := 1

theorem packetFormat_six :
    PacketFormat (storage statusReg fun _ => False) silentBoard (fun i => if i = 2 then 6 else 0) := by
  refine (packetFormat_iff _ _ rfl _).mpr ⟨by decide, fun h => ?_⟩
  exact absurd h (by decide)

/-- A header of length 2 holds the CRC of no bytes, and a header of length 0 makes the check run past the buffer. -/
theorem not_packetFormat_short :
    ¬PacketFormat (storage statusReg fun _ => False) silentBoard (fun i => if i = 2 then 2 else if i = 3 then 0 else 0xFF) ∧
      ¬PacketFormat (storage statusReg fun _ => False) silentBoard fun _ => 0 := by
  constructor
  · intro h
    exact ((soundCheck_iff _).mp h.sound).2 (by decide) (by decide)
  · intro h
    exact absurd ((soundCheck_iff _).mp h.sound).1 (by decide)

end Lan80xx.Mailbox
