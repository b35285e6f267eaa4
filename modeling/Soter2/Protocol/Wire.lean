import Soter2.Protocol.Packet

/-! # The wire codec (`protocol/src/proto.c`, `providers/src/sender.c`)

Three encoders build a datagram: the sender thread (`pvdSenderWorker`), the direct send
(`pvdSenderLowSend`) and `retranslate_udp` followed by `protopack_send`.  One decoder,
`protopack_recv`, reads it.  The host is little-endian, so `htonl` and `ntohl` are
`Words.swap32`.

* `datagram_round_trip` — the three datagrams are equal, and the decoder reads them back.
* `protopackRecv_wellFormed_iff` — which accepted datagrams are well formed.
-/

namespace Soter2.Protocol

open Words (bytes32 word32 swap32)
open Protopack

abbrev htonl : UInt32 → UInt32 := swap32

/-- The bytes of the packed struct in memory. -/
def Protopack.image (pk : Protopack) : List UInt8 :=
  bytes32 pk.seq ++ bytes32 pk.chsum ++ bytes32 pk.dSize ++ bytes32 pk.hFrom ++ bytes32 pk.hTo ++
    [pk.packtype] ++ pk.data

/-- The struct that overlies a buffer, `(protopack *)raw`. -/
def Protopack.ofImage (raw : List UInt8) : Protopack where
  seq := word32 (raw.take 4)
  chsum := word32 ((raw.drop 4).take 4)
  dSize := word32 ((raw.drop 8).take 4)
  hFrom := word32 ((raw.drop 12).take 4)
  hTo := word32 ((raw.drop 16).take 4)
  packtype := raw.getD 20 0
  data := raw.drop sizeofProtopack

/-- `((protopack *)buf)->chsum = c`. -/
def setChsum (buf : List UInt8) (c : UInt32) : List UInt8 := buf.take 4 ++ bytes32 c ++ buf.drop 8

/-! ## The encoders -/

/-- What `pvd_sender_worker` hands to `ln_usock_send` for a queued packet when no proxy
    is set, and `none` for a packet that it drops as too large. -/
def pvdSenderWorker (pkt : Protopack) : Option (List UInt8) :=
  let totalSize := sizeofProtopack + pkt.dSize.toNat
  if totalSize > 2048 then none
  else
    let pkt := { pkt with
      seq := htonl pkt.seq
      dSize := htonl pkt.dSize
      hFrom := htonl pkt.hFrom
      hTo := htonl pkt.hTo
      chsum := 0 }
    let buf := pkt.image.take totalSize
    some (setChsum buf (htonl (crc32 buf)))

/-- What `_pvd_sender_low_send` hands to `ln_usock_send`, and `none` where it returns -1. -/
def pvdSenderLowSend (packet : Protopack) (noConversion : Bool) : Option (List UInt8) :=
  let copy := udpCopyPack packet
  let totalSize := sizeofProtopack + packet.dSize.toNat
  -- the caller has the header in network order already, the size included
  if noConversion then some (packet.image.take (sizeofProtopack + (htonl packet.dSize).toNat))
  else if totalSize > 2048 then none
  else
    let copy := { copy with
      seq := htonl packet.seq
      dSize := htonl packet.dSize
      hFrom := htonl packet.hFrom
      hTo := htonl packet.hTo
      chsum := 0 }
    let buf := copy.image.take totalSize
    some (setChsum buf (htonl (crc32 buf)))

def retranslateUdp (pk : Protopack) : Protopack :=
  let out := { udpCopyPack pk with
    chsum := 0
    seq := htonl pk.seq
    dSize := htonl pk.dSize
    hFrom := htonl pk.hFrom
    hTo := htonl pk.hTo
    packtype := pk.packtype }
  { out with chsum := htonl (crc32 (out.image.take (pk.dSize.toNat + sizeofProtopack))) }

/-- The bytes `protopack_send` writes for a packet in network order. -/
def protopackSend (pack : Protopack) : List UInt8 :=
  pack.image.take (sizeofProtopack + (htonl pack.dSize).toNat)

/-- `proto_msg_relay`: the datagram of a packet as the payload of a `PACK_NULL` packet. -/
def protoMsgRelay (ogPacket : Protopack) (fromRelayTo relayUid : UInt32) : Option Protopack :=
  let buf := protopackSend (retranslateUdp ogPacket)
  udpMakePack 0 relayUid fromRelayTo .null (some buf) buf.length

/-! ## The decoder -/

/-- What `protopack_recv` leaves in the buffer of its caller once the size is accepted: it
    clears the checksum field in place. -/
def clearedBuffer (rawData : List UInt8) : List UInt8 := setChsum rawData 0

/-- `protopack_recv`, where `raw_size` is the length of the buffer. -/
def protopackRecv (rawData : List UInt8) : Option Protopack :=
  if rawData.length ≥ 2048 then none
  else if rawData.length < sizeofProtopack then none
  else
    let receivedChsum := htonl (ofImage rawData).chsum
    -- the checksum covers its own field, which counts as 0
    let rawData := clearedBuffer rawData
    if receivedChsum ≠ crc32 rawData then none
    else
      let finalPkt := ofImage rawData
      some { finalPkt with
        chsum := htonl receivedChsum
        seq := htonl finalPkt.seq
        dSize := htonl finalPkt.dSize
        hFrom := htonl finalPkt.hFrom
        hTo := htonl finalPkt.hTo }

/-! ## Images -/

theorem length_image (pk : Protopack) : pk.image.length = sizeofProtopack + pk.data.length := by
  simp [image, sizeofProtopack]
  omega

@[simp] theorem ofImage_image (pk : Protopack) : ofImage pk.image = pk := by
  cases pk
  simp [ofImage, image, sizeofProtopack]
  rfl

/-- Every buffer of at least the header size is the image of the struct over it. -/
theorem image_ofImage {raw : List UInt8} (h : sizeofProtopack ≤ raw.length) :
    (ofImage raw).image = raw := by
  unfold sizeofProtopack at h
  have last : raw.getD 20 0 :: raw.drop 21 = raw.drop 20 := by
    have inside : 20 < raw.length := by omega
    rw [List.drop_eq_getElem_cons inside]
    simp [List.getElem?_eq_getElem inside]
  simp only [image, ofImage, sizeofProtopack, List.append_assoc, List.singleton_append, last]
  rw [Words.bytes32_at (k := 16) (by omega), Words.bytes32_at (k := 12) (by omega),
    Words.bytes32_at (k := 8) (by omega), Words.bytes32_at (k := 4) (by omega)]
  exact Words.bytes32_at (k := 0) (by omega)

theorem setChsum_image (pk : Protopack) (c : UInt32) :
    setChsum pk.image c = ({ pk with chsum := c } : Protopack).image := by
  simp [setChsum, image]

/-! ## The three encoders build one datagram -/

/-- The header in network order, with the checksum cleared. -/
def networkOrder (p : Protopack) : Protopack :=
  { p with
    seq := htonl p.seq
    dSize := htonl p.dSize
    hFrom := htonl p.hFrom
    hTo := htonl p.hTo
    chsum := 0 }

/-- The datagram of a packet: its image in network order with the checksum filled in. -/
def datagram (p : Protopack) : List UInt8 :=
  ({ networkOrder p with chsum := htonl (crc32 (networkOrder p).image) } : Protopack).image

@[simp] theorem networkOrder_data (p : Protopack) : (networkOrder p).data = p.data := by
  cases p
  rfl

theorem length_datagram (p : Protopack) :
    (datagram p).length = sizeofProtopack + p.data.length := by
  simp only [datagram, length_image, networkOrder_data]

theorem take_image_networkOrder {p : Protopack} (sized : p.Sized) :
    (networkOrder p).image.take (sizeofProtopack + p.dSize.toNat) = (networkOrder p).image := by
  exact List.take_of_length_le (Nat.le_of_eq (by rw [length_image, networkOrder_data, sized]))

/-- What the sender thread and the direct send do once the header is in network order. -/
theorem checksummed_networkOrder {p : Protopack} (sized : p.Sized) :
    setChsum ((networkOrder p).image.take (sizeofProtopack + p.dSize.toNat))
      (htonl (crc32 ((networkOrder p).image.take (sizeofProtopack + p.dSize.toNat))))
        = datagram p := by
  rw [take_image_networkOrder sized]
  exact setChsum_image _ _

theorem not_oversized {p : Protopack} (fits : sizeofProtopack + p.dSize.toNat ≤ udpMtu) :
    ¬ sizeofProtopack + p.dSize.toNat > 2048 := by
  unfold udpMtu at fits
  omega

theorem pvdSenderWorker_eq {p : Protopack} (sized : p.Sized)
    (fits : sizeofProtopack + p.dSize.toNat ≤ udpMtu) : pvdSenderWorker p = some (datagram p) := by
  unfold pvdSenderWorker
  rw [if_neg (not_oversized fits)]
  exact congrArg some (checksummed_networkOrder sized)

theorem pvdSenderLowSend_eq {p : Protopack} (sized : p.Sized)
    (fits : sizeofProtopack + p.dSize.toNat ≤ udpMtu) :
    pvdSenderLowSend p false = some (datagram p) := by
  unfold pvdSenderLowSend
  rw [if_neg Bool.false_ne_true, if_neg (not_oversized fits), udpCopyPack_of_sized sized]
  exact congrArg some (checksummed_networkOrder sized)

theorem retranslateUdp_image {p : Protopack} (sized : p.Sized) :
    (retranslateUdp p).image = datagram p := by
  unfold retranslateUdp
  rw [udpCopyPack_of_sized sized, Nat.add_comm p.dSize.toNat]
  change ({ networkOrder p with
    chsum := htonl (crc32 ((networkOrder p).image.take _)) } : Protopack).image = _
  rw [take_image_networkOrder sized]
  rfl

theorem protopackSend_retranslateUdp {p : Protopack} (sized : p.Sized) :
    protopackSend (retranslateUdp p) = datagram p := by
  have size : htonl (retranslateUdp p).dSize = p.dSize := Words.swap32_swap32 p.dSize
  rw [protopackSend, size, retranslateUdp_image sized]
  exact List.take_of_length_le (Nat.le_of_eq (by rw [length_datagram, sized]))

/-! ## The decoder inverts them -/

/-- `p` and `q` are the same packet but for the checksum field, which only means
    something on the wire. -/
def SamePacket (p q : Protopack) : Prop :=
  q.seq = p.seq ∧ q.dSize = p.dSize ∧ q.hFrom = p.hFrom ∧ q.hTo = p.hTo ∧
    q.packtype = p.packtype ∧ q.data = p.data

instance (p q : Protopack) : Decidable (SamePacket p q) := inferInstanceAs (Decidable (_ ∧ _))

theorem SamePacket.refl (p : Protopack) : SamePacket p p := ⟨rfl, rfl, rfl, rfl, rfl, rfl⟩

theorem SamePacket.payload_eq {p q : Protopack} (h : SamePacket p q) : q.payload = p.payload := by
  obtain ⟨-, dSize, -, -, -, data⟩ := h
  rw [Protopack.payload, Protopack.payload, dSize, data]

theorem clearedBuffer_datagram (p : Protopack) :
    clearedBuffer (datagram p) = (networkOrder p).image := by
  rw [clearedBuffer, datagram, setChsum_image, networkOrder]

theorem chsum_datagram (p : Protopack) :
    htonl (ofImage (datagram p)).chsum = crc32 (networkOrder p).image := by
  rw [datagram, ofImage_image]
  exact Words.swap32_swap32 _

theorem protopackRecv_datagram (p : Protopack) (small : sizeofProtopack + p.data.length < 2048) :
    ∃ q, protopackRecv (datagram p) = some q ∧ SamePacket p q := by
  refine ⟨{ p with chsum := htonl (crc32 (networkOrder p).image) }, ?_, rfl, rfl, rfl, rfl, rfl,
    rfl⟩
  unfold protopackRecv
  rw [length_datagram, if_neg (by omega), if_neg (by omega)]
  simp only [clearedBuffer_datagram, chsum_datagram, ofImage_image]
  rw [if_neg (by simp), networkOrder]
  simp only [htonl, Words.swap32_swap32]

theorem protoMsgRelay_payload {p m : Protopack} {fromRelayTo relayUid : UInt32} (sized : p.Sized)
    (h : protoMsgRelay p fromRelayTo relayUid = some m) : m.payload = datagram p := by
  simp only [protoMsgRelay, protopackSend_retranslateUdp sized] at h
  exact udpMakePack_payload h

/-- The three encoders build the same datagram, the decoder reads it back, and a relay
    carries it unchanged. -/
theorem datagram_round_trip (p : Protopack) (sized : p.Sized)
    (fits : sizeofProtopack + p.dSize.toNat ≤ udpMtu) :
    ∃ dg, pvdSenderWorker p = some dg ∧ pvdSenderLowSend p false = some dg ∧
      protopackSend (retranslateUdp p) = dg ∧
      (∃ q, protopackRecv dg = some q ∧ SamePacket p q) ∧
      ∀ fromRelayTo relayUid m, protoMsgRelay p fromRelayTo relayUid = some m →
        ∃ q, protopackRecv m.payload = some q ∧ SamePacket p q := by
  have small : sizeofProtopack + p.data.length < 2048 := by
    rw [sized]
    unfold udpMtu at fits
    omega
  refine ⟨datagram p, pvdSenderWorker_eq sized fits, pvdSenderLowSend_eq sized fits,
    protopackSend_retranslateUdp sized, protopackRecv_datagram p small, ?_⟩
  intro fromRelayTo relayUid m relayed
  rw [protoMsgRelay_payload sized relayed]
  exact protopackRecv_datagram p small

def samplePack : Protopack :=
  { seq := 7, chsum := 0, dSize := 2, hFrom := 1, hTo := 2, packtype := 0, data := [104, 105] }

theorem datagram_round_trip_sample :
    samplePack.Sized ∧ sizeofProtopack + samplePack.dSize.toNat ≤ udpMtu ∧
    ∃ dg, pvdSenderWorker samplePack = some dg ∧ pvdSenderLowSend samplePack false = some dg ∧
      protopackSend (retranslateUdp samplePack) = dg ∧
      (∃ q, protopackRecv dg = some q ∧ SamePacket samplePack q) ∧
      ∀ fromRelayTo relayUid m, protoMsgRelay samplePack fromRelayTo relayUid = some m →
        ∃ q, protopackRecv m.payload = some q ∧ SamePacket samplePack q :=
  ⟨rfl, by decide, datagram_round_trip samplePack rfl (by decide)⟩

/-! ## What the decoder accepts -/

theorem ofImage_clearedBuffer {raw : List UInt8} (h : sizeofProtopack ≤ raw.length) :
    ofImage (clearedBuffer raw) = { ofImage raw with chsum := 0 } := by
  conv_lhs => rw [← image_ofImage h]
  rw [clearedBuffer, setChsum_image, ofImage_image]

theorem clearedBuffer_eq_image {raw : List UInt8} (h : sizeofProtopack ≤ raw.length) :
    clearedBuffer raw = ({ ofImage raw with chsum := 0 } : Protopack).image := by
  conv_lhs => rw [← image_ofImage h]
  rw [clearedBuffer, setChsum_image]

/-- What `protopack_recv` returns: the struct over the buffer in host order, where the
    only fields that were checked are the size of the datagram and its checksum. -/
theorem protopackRecv_some {raw : List UInt8} {q : Protopack} (h : protopackRecv raw = some q) :
    sizeofProtopack ≤ raw.length ∧ raw.length < 2048 ∧
      htonl (ofImage raw).chsum = crc32 (clearedBuffer raw) ∧
      q = { ofImage raw with
        seq := htonl (ofImage raw).seq
        dSize := htonl (ofImage raw).dSize
        hFrom := htonl (ofImage raw).hFrom
        hTo := htonl (ofImage raw).hTo } := by
  unfold protopackRecv at h
  split at h
  · cases h
  next long =>
    split at h
    · cases h
    next short =>
      simp only at h
      split at h
      · cases h
      next checked =>
        -- a datagram passes if it is as long as the header at least, and below 2048 bytes
        have size : sizeofProtopack ≤ raw.length := by omega
        refine ⟨size, by omega, not_not.mp checked, ?_⟩
        rw [ofImage_clearedBuffer size] at h
        simp only [htonl, Words.swap32_swap32, Option.some.injEq] at h
        exact h.symm

/-- Encoding an accepted packet in network order gives back the datagram it came in. -/
theorem datagram_of_accepted {raw : List UInt8} {q : Protopack} (h : protopackRecv raw = some q) :
    datagram q = raw := by
  obtain ⟨size, -, checked, rfl⟩ := protopackRecv_some h
  rw [datagram, networkOrder]
  simp only [htonl, Words.swap32_swap32]
  rw [← clearedBuffer_eq_image size, ← checked]
  simp only [htonl, Words.swap32_swap32]
  exact image_ofImage size

/-- What the code behind the decoder relies on for a packet from the network: its size
    field and its type are right, encoding it gives back the datagram, and neither the copy
    of its payload nor the look-up of its type name leaves what is there. -/
structure WellFormed (raw : List UInt8) (q : Protopack) : Prop where
  size : q.dSize.toNat = raw.length - sizeofProtopack
  type : q.packtype.toNat < packetTypeMax
  reencodes : protopackSend (retranslateUdp q) = raw
  copyInBounds : q.CopyInBounds
  named : (protopackTypesChar[q.packtype.toNat]?).isSome

/-- The payload size that the header of a datagram announces: bytes 8 to 11, big-endian. -/
def announcedSize (raw : List UInt8) : Nat := (htonl (ofImage raw).dSize).toNat

/-- An accepted datagram is well formed exactly when it announces its real size and a
    type of the table: the decoder checks neither. -/
theorem protopackRecv_wellFormed_iff (raw : List UInt8) (q : Protopack)
    (accepted : protopackRecv raw = some q) :
    WellFormed raw q ↔ announcedSize raw = raw.length - sizeofProtopack ∧
      (raw.getD 20 0).toNat < packetTypeMax := by
  have reencodes := datagram_of_accepted accepted
  obtain ⟨size, -, -, fields⟩ := protopackRecv_some accepted
  have dSize : q.dSize.toNat = announcedSize raw := by rw [fields]; rfl
  have packtype : q.packtype = raw.getD 20 0 := by rw [fields]; rfl
  have data : q.data.length = raw.length - sizeofProtopack := by rw [fields]; simp [ofImage]
  rw [← dSize, ← packtype]
  constructor
  · intro wf
    exact ⟨wf.size, wf.type⟩
  · rintro ⟨sizeRight, typeRight⟩
    have sized : q.Sized := data.trans sizeRight.symm
    refine ⟨sizeRight, typeRight, ?_, Nat.le_of_eq sized.symm, ?_⟩
    · rw [protopackSend_retranslateUdp sized, reencodes]
    · simpa [length_protopackTypesChar] using typeRight

def sampleDatagram : List UInt8 :=
  [0, 0, 0, 7, 128, 54, 236, 14, 0, 0, 0, 2, 0, 0, 0, 1, 0, 0, 0, 2, 0, 104, 105]

theorem protopackRecv_wellFormed_sample :
    protopackRecv sampleDatagram = some { samplePack with chsum := 250361472 } ∧
      (WellFormed sampleDatagram { samplePack with chsum := 250361472 } ↔
        announcedSize sampleDatagram = sampleDatagram.length - sizeofProtopack ∧
          (sampleDatagram.getD 20 0).toNat < packetTypeMax) :=
  ⟨by decide +kernel, protopackRecv_wellFormed_iff _ _ (by decide +kernel)⟩

/-- A bare header that announces five bytes of payload and the type 200, with the right
    checksum. -/
def lyingDatagram : List UInt8 :=
  [0, 0, 0, 0, 203, 248, 245, 106, 0, 0, 0, 5, 0, 0, 0, 1, 0, 0, 0, 2, 200]

theorem protopackRecv_accepts_lyingDatagram :
    ∃ q, protopackRecv lyingDatagram = some q ∧
      q.dSize.toNat ≠ lyingDatagram.length - sizeofProtopack ∧
      ¬ q.packtype.toNat < packetTypeMax ∧ ¬ q.CopyInBounds ∧
      protopackTypesChar[q.packtype.toNat]? = none :=
  ⟨{ seq := 0, chsum := 1794504907, dSize := 5, hFrom := 1, hTo := 2, packtype := 200, data := [] },
    by decide +kernel, by decide, by decide, by decide, by decide⟩

end Soter2.Protocol
