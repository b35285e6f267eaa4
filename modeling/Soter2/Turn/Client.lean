import Mathlib.Data.List.Basic
import Mathlib.Tactic.Common
import Soter2.Library.AssocTable
import Soter2.Peers.Handlers
import Soter2.Turn.Packets

/-! # The TURN client and relay state (`turn/src/statem.c`)

The same state serves the client and the relay: the table of bound peers under a key, and
the status of the requests that were sent.

* `turn_codec_never` — no request comes back from the bytes the decoder is given.
* `turn_never_transparent` — no packet gets through the tunnel.
-/

namespace Soter2.Turn

open Soter2.Lownet Soter2.Protocol Soter2.Peers
open Words (word32)

structure TurnBindPeer where
  linfoOrigin : LightPeerInfo
  linfoConnected : LightPeerInfo
deriving DecidableEq

inductive TurnSysStatus where
  | ok
  | fail
  | sent
  | unknown
deriving DecidableEq, Repr

def TurnSysStatus.code : TurnSysStatus → UInt32
  | .ok => 0
  | .fail => 1
  | .sent => 2
  | .unknown => 3

structure TurnClient where
  truid : UInt32
  turnSUid : UInt32
  bindedClients : AssocTable UInt32 TurnBindPeer
  sysRequests : AssocTable UInt32 UInt32
deriving DecidableEq

/-! ## The key of a pair -/

def rotl (w r : UInt32) : UInt32 := (w <<< r) ||| (w >>> (32 - r))

/-- What a word of the key adds to the hash, before it is mixed in. -/
def murmurScramble (k : UInt32) : UInt32 := rotl (k * 0xcc9e2d51) 15 * 0x1b873593

def murmurBlock (h k : UInt32) : UInt32 := rotl (h ^^^ murmurScramble k) 13 * 5 + 0xe6546b64

/-- The bytes behind the last whole word. -/
def murmurTail (key : List UInt8) : UInt32 :=
  let tail := key.drop (key.length / 4 * 4)
  (tail.getD 2 0).toUInt32 <<< 16 ^^^ (tail.getD 1 0).toUInt32 <<< 8 ^^^ (tail.getD 0 0).toUInt32

def murmurFinish (h len : UInt32) : UInt32 :=
  let h := h ^^^ len
  let h := (h ^^^ h >>> 16) * 0x85ebca6b
  let h := (h ^^^ h >>> 13) * 0xc2b2ae35
  h ^^^ h >>> 16

def murmurhash3_32 (key : List UInt8) (seed : UInt32) : UInt32 :=
  let blocks := (List.range (key.length / 4)).map fun i => word32 ((key.drop (4 * i)).take 4)
  let h := blocks.foldl murmurBlock seed
  let h := if key.length % 4 = 0 then h else h ^^^ murmurScramble (murmurTail key)
  murmurFinish h (UInt32.ofNat key.length)

/-- `turn_pair_hash`.  Nothing but its evaluation on two UIDs ever unfolds it. -/
@[irreducible] def turnPairHash (uidFrom uidTo : UInt32) : UInt32 :=
  murmurhash3_32 (Words.bytes32 uidFrom ++ Words.bytes32 uidTo) 0xEAFE

def turnCheckPair (cli : TurnClient) (uidFrom uidTo : UInt32) : Bool :=
  (cli.bindedClients.get (turnPairHash uidFrom uidTo)).isSome

/-! ## Bindings -/

def turnClientBind (cli : TurnClient) (hsh : UInt32) (peer : TurnBindPeer) : TurnClient :=
  { cli with bindedClients := cli.bindedClients.set hsh peer }

/-- `turn_client_unbind`: its code does not say whether there was a binding. -/
def turnClientUnbind (cli : TurnClient) (hsh : UInt32) : Int × TurnClient :=
  (0, { cli with bindedClients := cli.bindedClients.remove hsh })

/-! ## Requests -/

/-- The packet of `turn_client_qsend`: the size of the struct, whatever data follows it. -/
def turnClientQsend (cli : TurnClient) (req : TurnRequest) : Option Protopack :=
  udpMakePack 0 cli.turnSUid 0 .turn (some req.image) sizeofTurnRequest

/-- `turn_client_req_sys`, without a commentary. -/
def turnClientReqSys (toWhom : Naddr) (toUid truid : UInt32) (status : TurnSysStatus) :
    Option TurnRequest :=
  turnReqMake .systemMsg toWhom toUid truid
    (Words.bytes32 (htonl truid) ++ Words.bytes32 status.code) 8

/-- The body of `turn_client_req_bind` and `turn_client_req_unbind`: the packet, the client
    after it, and the number of the request. -/
def turnClientReq (cli : TurnClient) (type : TurnRtype) (connected : LightPeerInfo)
    (data : List UInt8) : Option (Option Protopack × TurnClient × UInt32) :=
  (turnReqMake type connected.addr connected.uid cli.truid data (UInt32.ofNat data.length)).map
    fun req =>
    (udpMakePack 0 cli.turnSUid 0 .turn (some req.image) sizeofTurnRequest,
      { cli with
        truid := cli.truid + 1
        sysRequests := cli.sysRequests.set cli.truid TurnSysStatus.sent.code },
      cli.truid)

def turnClientReqBind (cli : TurnClient) (bindTo : TurnBindPeer) :
    Option (Option Protopack × TurnClient × UInt32) :=
  turnClientReq cli .openHole bindTo.linfoConnected
    (LightPeerInfo.layout.image bindTo.linfoConnected)

def turnClientReqUnbind (cli : TurnClient) (closeWith : TurnBindPeer) :
    Option (Option Protopack × TurnClient × UInt32) :=
  turnClientReq cli .closeHole closeWith.linfoConnected []

/-! ## The tunnel -/

/-- What `turn_client_wrap` returns, the packet it made, and how many bytes it wrote to its
    buffer of 2048. -/
structure Wrapped where
  code : Int
  outgoing : Option Protopack
  written : Nat
deriving DecidableEq

def turnClientWrap (cli : TurnClient) (pack : Protopack) : Option Wrapped :=
  match cli.bindedClients.get (turnPairHash cli.turnSUid pack.hTo) with
  | none => some ⟨-1, none, 0⟩
  | some bpeer =>
    let totsize := sizeofProtopack + (htonl pack.dSize).toNat
    let made := turnReqMake .dataMsg bpeer.linfoConnected.addr pack.hTo 0 (protopackSend pack)
      (UInt32.ofNat totsize)
    made.map fun req =>
      -- the size in the request is in network order by now
      { code := 0
        outgoing := udpMakePack 0 cli.turnSUid pack.hTo .turn (some req.image)
          (sizeofTurnRequest + req.dSize.toNat)
        written := totsize }

def turnClientUnwrap (cli : TurnClient) (pack : Protopack) : Int × Option Protopack :=
  match cli.bindedClients.get (turnPairHash cli.turnSUid pack.hTo) with
  | none => (-1, none)
  | some _ =>
    match turnReqRecv pack.data pack.dSize with
    | none => (-1, none)
    | some req =>
      match protopackRecv (req.data.take req.dSize.toNat) with
      | none => (-1, none)
      | some outgoing => (0, some outgoing)

/-- A packet gets through the tunnel: it is wrapped within the buffer, and whoever holds the
    binding unwraps it. -/
def Transparent (cli : TurnClient) (p : Protopack) : Prop :=
  ∃ wrapped out, turnClientWrap cli p = some wrapped ∧ wrapped.code = 0 ∧
    wrapped.outgoing = some out ∧
    wrapped.written ≤ 2048 ∧
    ∀ receiver : TurnClient,
      (receiver.bindedClients.get (turnPairHash receiver.turnSUid out.hTo)).isSome →
      ∃ q, turnClientUnwrap receiver out = (0, some q) ∧ SamePacket p q

/-- A size that fits the buffer is announced, in network order, as one beyond the MTU. -/
theorem htonl_exceeds_mtu {totsize : Nat} (positive : 0 < totsize) (written : totsize ≤ 2048) :
    udpMtu < (htonl (UInt32.ofNat totsize)).toNat := by
  have value : (UInt32.ofNat totsize).toNat = totsize := by
    rw [UInt32.toNat_ofNat', Nat.mod_eq_of_lt (by omega)]
  have large := Words.le_swap32 (w := UInt32.ofNat totsize) (by omega) (by omega)
  exact Nat.lt_of_lt_of_le (by decide) large

/-- No packet gets through: where the buffer is large enough for it, the request is not. -/
theorem turn_never_transparent (cli : TurnClient) (p : Protopack) : ¬ Transparent cli p := by
  rintro ⟨wrapped, out, wraps, code, packet, written, -⟩
  rw [turnClientWrap] at wraps
  split at wraps
  · cases wraps
    exact absurd code (by decide)
  next bpeer bound =>
    obtain ⟨req, made, rfl⟩ := Option.map_eq_some_iff.mp wraps
    simp only [udpMakePack, Option.ite_none_left_eq_some] at packet written
    have exceeds := htonl_exceeds_mtu (Nat.add_pos_left (by decide) _) written
    refine packet.1 (Nat.lt_of_lt_of_le exceeds ?_)
    rw [← (turnReqMake_some made).2.2]
    exact (Nat.le_add_left _ _).trans (Nat.le_add_left _ _)

/-- A client with UID 1 that is bound to peer 9. -/
def boundClient : TurnClient where
  truid := 0
  turnSUid := 1
  bindedClients := AssocTable.empty.set (turnPairHash 1 9) ⟨sampleLinfo 1 5, sampleLinfo 9 3⟩
  sysRequests := AssocTable.empty

/-- A packet without payload for peer 9, as `protopack_recv` returns it. -/
def emptyPack : Protopack where
  seq := 0
  chsum := 0
  dSize := 0
  hFrom := 7
  hTo := 9
  packtype := ProtopackType.data.code
  data := []

/-- It is bound and far below the MTU, and there is no packet that would carry it. -/
theorem emptyPack_not_wrapped :
    turnCheckPair boundClient boundClient.turnSUid emptyPack.hTo = true ∧
      sizeofProtopack + (sizeofTurnRequest + (sizeofProtopack + emptyPack.dSize.toNat)) ≤ udpMtu ∧
      (turnClientWrap boundClient emptyPack).map (fun wrapped => (wrapped.code, wrapped.outgoing))
        = some (0, none) := by
  decide +kernel

/-! ## Requests over the network -/

/-- What `turn_client_req_bind` asks for. -/
def bindFields (cli : TurnClient) (peer : TurnBindPeer) (addr : Address) : TurnFields where
  type := .openHole
  toWhom := addr
  toUid := peer.linfoConnected.uid
  truid := cli.truid
  data := LightPeerInfo.layout.image peer.linfoConnected

/-- What `turn_client_req_unbind` asks for. -/
def unbindFields (cli : TurnClient) (peer : TurnBindPeer) (addr : Address) : TurnFields where
  type := .closeHole
  toWhom := addr
  toUid := peer.linfoConnected.uid
  truid := cli.truid
  data := []

/-- No request comes back, neither from the bytes of its struct nor from the packets of the
    three builders. -/
theorem turn_codec_never (cli : TurnClient) (f : TurnFields) (peer : TurnBindPeer)
    (addr : Address) :
    ¬ Decodes f ∧ (¬ ∃ req, f.make = some req ∧ Carries f (turnClientQsend cli req)) ∧
      (¬ ∃ sent, turnClientReqBind cli peer = some sent ∧
        Carries (bindFields cli peer addr) sent.1) ∧
      ¬ ∃ sent, turnClientReqUnbind cli peer = some sent ∧
        Carries (unbindFields cli peer addr) sent.1 := by
  have head : 0 < sizeofTurnRequest := by decide
  refine ⟨not_decodes f, ?_, ?_, ?_⟩
  · rintro ⟨req, made, carries⟩
    exact not_carries (turnReqMake_some made).1 head carries
  · rintro ⟨sent, built, carries⟩
    obtain ⟨req, made, rfl⟩ := Option.map_eq_some_iff.mp built
    exact not_carries (f := bindFields cli peer addr) (turnReqMake_some made).1 head carries
  · rintro ⟨sent, built, carries⟩
    obtain ⟨req, made, rfl⟩ := Option.map_eq_some_iff.mp built
    exact not_carries (f := unbindFields cli peer addr) (turnReqMake_some made).1 head carries

/-- The request to close the hole to peer 7 is read as one to open a hole to peer 0. -/
theorem close_request_misread :
    ((turnReqMake .closeHole (Address.ipv4 sampleText 80).naddr 7 9 [] 0).bind fun req =>
      turnReqRecv req.image 68).map
      (fun r => (r.type, r.toUid)) = some (TurnRtype.openHole.code, 0) := by decide +kernel

end Soter2.Turn
