import Mathlib.Data.List.Basic
import Mathlib.Tactic.Common
import Soter2.Lownet.Addr
import Soter2.Protocol.Wire

/-! # TURN requests (`turn/src/packets.c`)

`turn_req_make` builds the struct that is sent as it lies in memory; `turn_req_recv` reads
the fields of a buffer one behind the other, the address first.  The struct begins with the
type.

* `first_turnReqRecv` — what the decoder takes for the address starts with the type.
-/

namespace Soter2.Turn

open Soter2.Lownet Soter2.Protocol
open Words (swap32)

inductive TurnRtype where
  | openHole
  | closeHole
  | systemMsg
  | dataMsg
deriving DecidableEq, Repr

def TurnRtype.code : TurnRtype → UInt32
  | .openHole => 0
  | .closeHole => 1
  | .systemMsg => 2
  | .dataMsg => 3

/-- `turn_request`.  Like a packet it may announce another `d_size` than it has data. -/
structure TurnRequest where
  type : UInt32
  toUid : UInt32
  truid : UInt32
  toWhom : Naddr
  dSize : UInt32
  data : List UInt8
deriving DecidableEq

namespace TurnRequest

abbrev Head := UInt32 × UInt32 × UInt32 × Naddr × UInt32

/-- The fields in front of the data, in memory. -/
def headLayout : Layout Head := Layout.u32.pair <| Layout.u32.pair <| Layout.u32.pair <|
    Naddr.layout.pair Layout.u32

theorem headLayout_size : headLayout.size = 68 := rfl

def head (req : TurnRequest) : Head := (req.type, req.toUid, req.truid, req.toWhom, req.dSize)

def image (req : TurnRequest) : List UInt8 := headLayout.image req.head ++ req.data

/-- The fields in the order in which `turn_req_recv` reads them. -/
def readLayout : Layout (Naddr × UInt32 × UInt32 × UInt32 × UInt32) :=
  Naddr.layout.pair <| Layout.u32.pair <| Layout.u32.pair <| Layout.u32.pair Layout.u32

end TurnRequest

open TurnRequest

/-- `sizeof(turn_request)`. -/
def sizeofTurnRequest : Nat := 68

/-- `turn_req_make`, which has no result where the conversion of the address runs over its
    array. -/
def turnReqMake (type : TurnRtype) (toWhom : Naddr) (toUid truid : UInt32) (data : List UInt8)
    (dSize : UInt32) : Option TurnRequest :=
  (lnHton toWhom).map fun toWhom =>
    { type := type.code
      toWhom := toWhom
      dSize := htonl dSize
      toUid := htonl toUid
      truid := htonl truid
      data := data.take dSize.toNat }

theorem turnReqMake_isSome {toWhom : Naddr} (terminated : toWhom.Terminated) (type : TurnRtype)
    (toUid truid : UInt32) (data : List UInt8) (dSize : UInt32) :
    (turnReqMake type toWhom toUid truid data dSize).isSome := by
  rw [turnReqMake, Option.isSome_map]
  exact lnConvert_isSome htons terminated

theorem turnReqMake_some {type : TurnRtype} {toWhom : Naddr} {toUid truid : UInt32}
    {data : List UInt8} {dSize : UInt32} {req : TurnRequest}
    (h : turnReqMake type toWhom toUid truid data dSize = some req) :
    req.type = type.code ∧ req.data = data.take dSize.toNat ∧ req.dSize = htonl dSize := by
  obtain ⟨addr, -, rfl⟩ := Option.map_eq_some_iff.mp h
  exact ⟨rfl, rfl, rfl⟩

def turnReqRecv (data : List UInt8) (dSize : UInt32) : Option TurnRequest :=
  if dSize.toNat < sizeofTurnRequest then none
  else
    let (toWhom, type, size, toUid, truid) := readLayout.ofImage data
    let size := htonl size
    if size.toNat ≠ dSize.toNat - sizeofTurnRequest then none
    else
      some {
        type := type
        toUid := htonl toUid
        truid := htonl truid
        toWhom := toWhom
        dSize := size
        data := (data.drop sizeofTurnRequest).take size.toNat }

/-! ## What the decoder makes of an encoded request -/

theorem toWhom_of_recv {data : List UInt8} {dSize : UInt32} {r : TurnRequest}
    (h : turnReqRecv data dSize = some r) : r.toWhom = Naddr.layout.ofImage data := by
  simp only [turnReqRecv, Option.ite_none_left_eq_some, Option.some.injEq] at h
  obtain ⟨-, -, rfl⟩ := h
  rfl

/-- The decoder takes the first byte of the type for the first character of the address. -/
theorem first_turnReqRecv {req r : TurnRequest} {n : Nat} {dSize : UInt32} (nonempty : 0 < n)
    (h : turnReqRecv (req.image.take n) dSize = some r) :
    r.toWhom.first = (Words.bytes32 req.type).headD 0 := by
  obtain ⟨k, rfl⟩ : ∃ k, n = k + 1 := ⟨n - 1, by omega⟩
  rw [toWhom_of_recv h]
  exact headD_ofImage_bytes (by decide) _

theorem TurnRtype.headD_code (type : TurnRtype) : (Words.bytes32 type.code).headD 0 ≤ 3 := by
  cases type <;> decide

/-- No address with a text comes back from the bytes of a request. -/
theorem toWhom_lost (type : TurnRtype) (addr : Address) {req r : TurnRequest} {n : Nat}
    {dSize : UInt32} (made : req.type = type.code) (nonempty : 0 < n)
    (h : turnReqRecv (req.image.take n) dSize = some r) : lnNtoh r.toWhom ≠ some addr.naddr := by
  intro same
  -- the type is at most 3, and a text starts with a printable character
  have first := first_turnReqRecv nonempty h
  have small := type.headD_code
  rw [← made, ← first] at small
  have printable := addr.first_printable
  cases first_lnConvert same with
  | inl kept =>
    rw [kept] at printable
    exact absurd (UInt8.lt_of_lt_of_le printable small) (by decide)
  | inr cleared =>
    rw [cleared] at printable
    exact absurd printable (by decide)

/-! ## The codec -/

/-- What a request says, in host order. -/
structure TurnFields where
  type : TurnRtype
  toWhom : Address
  toUid : UInt32
  truid : UInt32
  data : List UInt8

def TurnFields.make (f : TurnFields) : Option TurnRequest :=
  turnReqMake f.type f.toWhom.naddr f.toUid f.truid f.data (UInt32.ofNat f.data.length)

/-- The decoder returned what was encoded. -/
structure Returned (f : TurnFields) (r : TurnRequest) : Prop where
  type : r.type = f.type.code
  toUid : r.toUid = f.toUid
  truid : r.truid = f.truid
  dSize : r.dSize.toNat = f.data.length
  data : r.data = f.data
  toWhom : lnNtoh r.toWhom = some f.toWhom.naddr

/-- The decoder inverts `turn_req_make` on the bytes of the struct. -/
def Decodes (f : TurnFields) : Prop :=
  ∃ req r, f.make = some req ∧
    turnReqRecv req.image (UInt32.ofNat (sizeofTurnRequest + f.data.length)) = some r ∧ Returned f r

/-- A packet carries the whole request. -/
def Carries (f : TurnFields) (packet : Option Protopack) : Prop :=
  ∃ pk r, packet = some pk ∧ turnReqRecv pk.data pk.dSize = some r ∧ Returned f r

theorem not_decodes (f : TurnFields) : ¬ Decodes f := by
  rintro ⟨req, r, made, received, returned⟩
  have whole : req.image = req.image.take req.image.length := List.take_length.symm
  have nonempty : 0 < req.image.length := by
    rw [image, List.length_append, Layout.length_image, headLayout_size]
    omega
  rw [whole] at received
  exact toWhom_lost f.type f.toWhom (turnReqMake_some made).1 nonempty received returned.toWhom

/-- A packet whose data is the head of a request carries nothing. -/
theorem not_carries {f : TurnFields} {req : TurnRequest} {seq hashFrom hashTo : UInt32}
    {packtype : ProtopackType} {n : Nat} (made : req.type = f.type.code) (nonempty : 0 < n) :
    ¬ Carries f (udpMakePack seq hashFrom hashTo packtype (some req.image) n) := by
  rintro ⟨pk, r, packet, received, returned⟩
  simp only [udpMakePack, Option.ite_none_left_eq_some, Option.getD_some,
    Option.some.injEq] at packet
  obtain ⟨-, rfl⟩ := packet
  exact toWhom_lost f.type f.toWhom made nonempty received returned.toWhom

end Soter2.Turn
