import Mathlib.Data.List.Basic
import Mathlib.Tactic.Common
import Soter2.Library.Words

/-! # Packets (`protocol/src/proto.c`, `protocol/src/protomsgs.c`)

`Protopack` is the packed struct of `proto.h` as it lies in memory: the header fields
as 32-bit values and the flexible array `data` as the bytes that are really there.
`dSize` is a header field of its own.  The decoder takes it from the wire, so it need
not agree with the length of `data`; `Protopack.Sized` says that it does.
-/

namespace Soter2.Protocol

/-! ## Packet types -/

inductive ProtopackType where
  | data
  | ack
  | ping
  | pong
  | punch
  | gossip
  | state
  | rack
  | fin
  | rawUdp
  | null
  | turn
  | hello
  | hello2
deriving DecidableEq, Repr

/-- The value of the enumeration constant, as the `uint8_t` field stores it. -/
def ProtopackType.code : ProtopackType → UInt8
  | .data => 0
  | .ack => 1
  | .ping => 2
  | .pong => 3
  | .punch => 4
  | .gossip => 5
  | .state => 6
  | .rack => 7
  | .fin => 8
  | .rawUdp => 9
  | .null => 10
  | .turn => 11
  | .hello => 12
  | .hello2 => 13

/-- `PACKET_TYPE_MAX`, the value of `__PROTOPACK_END`. -/
def packetTypeMax : Nat := 14

def protopackTypesChar : List String :=
  ["PACK_DATA", "PACK_ACK", "PACK_PING", "PACK_PONG", "PACK_PUNCH", "PACK_GOSSIP", "PACK_STATE",
    "PACK_RACK", "PACK_FIN", "PACK_RAW_UDP", "PACK_NULL", "PACK_TURN", "PACK_HELLO", "PACK_HELLO2"]

theorem ProtopackType.code_lt (type : ProtopackType) : type.code.toNat < packetTypeMax := by
  cases type <;> decide

theorem length_protopackTypesChar : protopackTypesChar.length = packetTypeMax := rfl

/-! ## The packet -/

structure Protopack where
  seq : UInt32
  chsum : UInt32
  dSize : UInt32
  hFrom : UInt32
  hTo : UInt32
  packtype : UInt8
  data : List UInt8
deriving DecidableEq, Repr

/-- `sizeof(protopack)`, also `PROTOCOL_OVERHEAD`. -/
def sizeofProtopack : Nat := 21

def udpMtu : Nat := 1432

namespace Protopack

/-- `d_size` is the real payload length. -/
def Sized (pk : Protopack) : Prop := pk.data.length = pk.dSize.toNat

def payload (pk : Protopack) : List UInt8 := pk.data.take pk.dSize.toNat

/-- Reading `d_size` bytes behind the header stays within the packet. -/
def CopyInBounds (pk : Protopack) : Prop := pk.dSize.toNat ≤ pk.data.length

instance (pk : Protopack) : Decidable pk.CopyInBounds := inferInstanceAs (Decidable (_ ≤ _))

theorem Sized.payload {pk : Protopack} (h : pk.Sized) : pk.payload = pk.data :=
  List.take_of_length_le (Nat.le_of_eq h)

end Protopack

open Protopack

/-- `udp_make_pack`: `NULL` beyond the MTU.  Without a payload the data is the zeroed
    block. -/
def udpMakePack (sequenceN hashFrom hashTo : UInt32) (type : ProtopackType)
    (payload : Option (List UInt8)) (payloadSize : Nat) : Option Protopack :=
  if sizeofProtopack + payloadSize > udpMtu then none
  else some {
    seq := sequenceN
    chsum := 0
    dSize := UInt32.ofNat payloadSize
    hFrom := hashFrom
    hTo := hashTo
    packtype := type.code
    data := (payload.getD (List.replicate payloadSize 0)).take payloadSize }

/-- `udp_copy_pack`.  The copy has the `d_size` bytes that the header announces; for a
    packet that is not `CopyInBounds` the C code reads past its block instead. -/
def udpCopyPack (pk : Protopack) : Protopack := { pk with data := pk.payload }

def protoMsgQuick (hashFrom hashTo seq : UInt32) (type : ProtopackType) : Option Protopack :=
  udpMakePack seq hashFrom hashTo type none 0

def udpIsRudpReq (type : UInt8) : Bool :=
  type == ProtopackType.data.code || type == ProtopackType.fin.code ||
    type == ProtopackType.rack.code

@[simp] theorem udpCopyPack_seq (pk : Protopack) : (udpCopyPack pk).seq = pk.seq := rfl
@[simp] theorem udpCopyPack_packtype (pk : Protopack) : (udpCopyPack pk).packtype = pk.packtype :=
  rfl
@[simp] theorem udpCopyPack_dSize (pk : Protopack) : (udpCopyPack pk).dSize = pk.dSize := rfl

theorem udpCopyPack_payload (pk : Protopack) : (udpCopyPack pk).payload = pk.payload := by
  simp [udpCopyPack, payload, List.take_take]

theorem udpCopyPack_of_sized {pk : Protopack} (h : pk.Sized) : udpCopyPack pk = pk := by
  cases pk
  simp [udpCopyPack, h.payload]

/-- A message without payload always fits. -/
theorem protoMsgQuick_eq (hashFrom hashTo seq : UInt32) (type : ProtopackType) :
    protoMsgQuick hashFrom hashTo seq type = some {
      seq := seq, chsum := 0, dSize := 0, hFrom := hashFrom, hTo := hashTo,
      packtype := type.code, data := [] } := rfl

theorem udpMakePack_eq_some {sequenceN hashFrom hashTo : UInt32} {type : ProtopackType}
    {bytes : List UInt8} {pk : Protopack} :
    udpMakePack sequenceN hashFrom hashTo type (some bytes) bytes.length = some pk ↔
      sizeofProtopack + bytes.length ≤ udpMtu ∧ pk = {
        seq := sequenceN, chsum := 0, dSize := UInt32.ofNat bytes.length, hFrom := hashFrom,
        hTo := hashTo, packtype := type.code, data := bytes } := by
  simp only [udpMakePack, Option.ite_none_left_eq_some, Option.getD_some, List.take_length,
    Option.some.injEq, Nat.not_lt]
  exact and_congr_right fun _ => eq_comm

theorem toNat_ofNat_fits {n : Nat} (fits : sizeofProtopack + n ≤ udpMtu) :
    (UInt32.ofNat n).toNat = n := by
  unfold sizeofProtopack udpMtu at fits
  rw [UInt32.toNat_ofNat', Nat.mod_eq_of_lt (by omega)]

theorem udpMakePack_payload {sequenceN hashFrom hashTo : UInt32} {type : ProtopackType}
    {bytes : List UInt8} {pk : Protopack}
    (h : udpMakePack sequenceN hashFrom hashTo type (some bytes) bytes.length = some pk) :
    pk.payload = bytes := by
  obtain ⟨fits, rfl⟩ := udpMakePack_eq_some.mp h
  rw [payload, toNat_ofNat_fits fits, List.take_length]

/-! ## The checksum -/

/-- One turn of the inner loop of `crc32`: `(crc >> 1) ^ (0xEDB88320 & (-(crc & 1)))`. -/
def crc32Bit (crc : UInt32) : UInt32 := (crc >>> 1) ^^^ (0xEDB88320 &&& (0 - (crc &&& 1)))

def crc32Byte (crc : UInt32) (byte : UInt8) : UInt32 :=
  (List.range 8).foldl (fun crc _ => crc32Bit crc) (crc ^^^ byte.toUInt32)

/-- `crc32`.  Nothing but its evaluation on a concrete datagram ever unfolds it. -/
@[irreducible] def crc32 (bytes : List UInt8) : UInt32 := ~~~ (bytes.foldl crc32Byte 0xFFFFFFFF)

-- the check value of this CRC: the nine digits "123456789"
example : crc32 [49, 50, 51, 52, 53, 54, 55, 56, 57] = 0xCBF43926 := by decide +kernel

end Soter2.Protocol
