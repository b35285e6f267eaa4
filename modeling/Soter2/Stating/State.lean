import Mathlib.Data.List.Basic
import Mathlib.Tactic.Common
import Soter2.E2ee.Connection
import Soter2.Lownet.Addr
import Soter2.Protocol.Wire

/-! # Signed state requests (`stating/src/state.c`)

A peer signs the request in network order, a state server receives it in host order, keeps
it, and sends it on in network order.  The random nonce and the time of a new request are
inputs.  A step that copies an address whose text has no final zero has no result.

* `stateRreceive_survives_relay` — the receiver reads what was signed, after any number of
  servers.
-/

namespace Soter2.Stating

open Soter2.Lownet
open Soter2.Protocol (htonl)
open Soter2.E2ee (Bytes keyBytes signBytes Sign Sodium cryptoPubkeyToUid
  cryptoPubkeyAndUidCheck signData signVerify toySodium toySign firstByte)
open Words (swap64)

abbrev htonll : UInt64 → UInt64 := swap64

inductive StateRtype where
  | requestPeers
deriving DecidableEq, Repr

/-- The value of the enumeration constant after the cast to `uint8_t` in `state_rcreate`. -/
def StateRtype.code : StateRtype → UInt8
  | .requestPeers => 0

structure StateRequest where
  addr : Naddr
  uid : UInt32
  pubkey : Bytes keyBytes
  signature : Bytes signBytes
  type : UInt32
  nonce : UInt32
  timestamp : Int64
deriving DecidableEq

namespace StateRequest

def layout : Layout StateRequest :=
  (Naddr.layout.pair <| Layout.u32.pair <| (Layout.bytes keyBytes).pair <|
    (Layout.bytes signBytes).pair <| Layout.u32.pair <| Layout.u32.pair Layout.u64).congr
    (fun (addr, uid, pubkey, signature, type, nonce, timestamp) =>
      ⟨addr, uid, pubkey, signature, type, nonce, timestamp.toInt64⟩)
    (fun req => (req.addr, req.uid, req.pubkey, req.signature, req.type, req.nonce,
      req.timestamp.toUInt64))
    (fun _ => rfl) (fun _ => rfl)

theorem layout_size : layout.size = 168 := rfl

/-- The buffer that is signed. -/
def signBuff (req : StateRequest) : List UInt8 :=
  Layout.u32.image req.nonce ++ Naddr.layout.image req.addr ++ Layout.u32.image req.uid ++
    Layout.u32.image req.type ++ Layout.u64.image req.timestamp.toUInt64 ++ req.pubkey.toList

/-- The byte orders of the fields, all but the type, the key and the signature, between
    host and network. -/
def convert (addr : Naddr → Option Naddr) (req : StateRequest) : Option StateRequest :=
  (addr req.addr).map fun addr => { req with
    addr := addr
    uid := htonl req.uid
    nonce := htonl req.nonce
    timestamp := (htonll req.timestamp.toUInt64).toInt64 }

end StateRequest

open StateRequest

variable (sodium : Sodium)

/-- A request with all fields in network order, signed. -/
def signedRequest (random : UInt32) (now : Int64) (addr : Naddr) (uid : UInt32) (type : StateRtype)
    (s : Sign) : StateRequest :=
  let req : StateRequest := {
    addr := addr
    uid := htonl uid
    nonce := htonl random
    type := type.code.toUInt32
    timestamp := (htonll now.toUInt64).toInt64
    pubkey := s.idPub
    signature := Vector.replicate signBytes 0 }
  { req with signature := signData sodium s req.signBuff }

def stateRcreate (random : UInt32) (now : Int64) (addr : Naddr) (uid : UInt32) (type : StateRtype)
    (s : Sign) : Option StateRequest :=
  (lnHton addr).map fun addr => signedRequest sodium random now addr uid type s

/-- What `state_rreceive` comes to. -/
inductive Reception where
  /-- The result 0, with what it wrote to `out`. -/
  | received (req : StateRequest)
  /-- The result -1. -/
  | refused
  /-- `ln_ntoh` ran over its array. -/
  | undefined
deriving DecidableEq

def stateRreceive (data : List UInt8) : Reception :=
  let req := layout.ofImage data
  if signVerify sodium req.signBuff req.signature req.pubkey then
    match req.convert lnNtoh with
    | none => .undefined
    | some req =>
      if cryptoPubkeyAndUidCheck sodium req.pubkey req.uid then .received req else .refused
  else .refused

def stateRetranslate (req : StateRequest) : Option StateRequest := req.convert lnHton

/-- What is left of a request after it was sent on by servers, one after the other. -/
def relayed : Nat → StateRequest → Option StateRequest
  | 0, req => some req
  | hops + 1, req =>
    (stateRetranslate req).bind fun sent =>
      match stateRreceive sodium (layout.image sent) with
      | .received req => relayed hops req
      | .refused | .undefined => none

/-! ## Receiving -/

variable {sodium}

theorem stateRreceive_image {req r : StateRequest}
    (signed : signVerify sodium req.signBuff req.signature req.pubkey = true)
    (converted : req.convert lnNtoh = some r)
    (owned : cryptoPubkeyAndUidCheck sodium r.pubkey r.uid = true) :
    stateRreceive sodium (layout.image req) = .received r := by
  simp only [stateRreceive, Layout.ofImage_image, signed, converted, if_true]
  exact if_pos owned

/-- What is received was signed, and belongs to its key. -/
theorem stateRreceive_received {data : List UInt8} {r : StateRequest}
    (h : stateRreceive sodium data = .received r) :
    cryptoPubkeyAndUidCheck sodium r.pubkey r.uid = true ∧
      (layout.ofImage data).convert lnNtoh = some r := by
  simp only [stateRreceive] at h
  split at h
  swap
  · cases h
  split at h
  · cases h
  next converted =>
    split at h
    next owned =>
      cases h
      exact ⟨owned, converted⟩
    · cases h

/-- The signature is checked before the address is copied. -/
theorem stateRreceive_undefined_iff {data : List UInt8} :
    stateRreceive sodium data = .undefined ↔
      signVerify sodium (layout.ofImage data).signBuff (layout.ofImage data).signature
        (layout.ofImage data).pubkey = true ∧ ¬ (layout.ofImage data).addr.Terminated := by
  have converts : (layout.ofImage data).convert lnNtoh = none ↔
      ¬ (layout.ofImage data).addr.Terminated := by
    rw [StateRequest.convert, Option.map_eq_none_iff, lnNtoh, lnConvert_eq_none]
  rw [← converts]
  simp only [stateRreceive]
  by_cases signed : signVerify sodium (layout.ofImage data).signBuff (layout.ofImage data).signature
      (layout.ofImage data).pubkey = true
  · rw [if_pos signed]
    cases (layout.ofImage data).convert lnNtoh with
    | none => simp [signed]
    | some r => by_cases owned : cryptoPubkeyAndUidCheck sodium r.pubkey r.uid <;> simp [owned]
  · simp [signed]

theorem uid_of_convert {addr : Naddr → Option Naddr} {req r : StateRequest}
    (h : req.convert addr = some r) : r.uid = htonl req.uid := by
  obtain ⟨_, -, rfl⟩ := Option.map_eq_some_iff.mp h
  rfl

/-! ## Requests that can be sent on -/

/-- A request in host order, and what its key signed in network order: the conversion between
    them loses nothing. -/
structure SentAs (sodium : Sodium) (r sent : StateRequest) : Prop where
  translated : stateRetranslate r = some sent
  signed : signVerify sodium sent.signBuff sent.signature sent.pubkey = true
  owned : cryptoPubkeyAndUidCheck sodium r.pubkey r.uid = true
  addr : lnNtoh sent.addr = some r.addr

def Relayable (sodium : Sodium) (r : StateRequest) : Prop := ∃ sent, SentAs sodium r sent

theorem SentAs.convert {r sent : StateRequest} (h : SentAs sodium r sent) :
    sent.convert lnNtoh = some r := by
  have addr := h.addr
  obtain ⟨netAddr, -, rfl⟩ := Option.map_eq_some_iff.mp h.translated
  cases r
  simp_all [StateRequest.convert]

theorem SentAs.received {r sent : StateRequest} (h : SentAs sodium r sent) :
    stateRreceive sodium (layout.image sent) = .received r :=
  stateRreceive_image h.signed h.convert h.owned

theorem Relayable.relayed {r : StateRequest} (h : Relayable sodium r) (hops : Nat) :
    relayed sodium hops r = some r := by
  obtain ⟨sent, sentAs⟩ := h
  induction hops with
  | zero => rfl
  | succ hops ih =>
    simp only [Stating.relayed, sentAs.translated, Option.bind_some, sentAs.received, ih]

/-! ## Own requests -/

section Own

variable {s : Sign} (addr : Address) (type : StateRtype) (random : UInt32) (now : Int64)

/-- What the owner of a key sends, in network order. -/
def ownSent (sodium : Sodium) (s : Sign) : StateRequest :=
  signedRequest sodium random now (addr.mapPort htons).naddr
    (cryptoPubkeyToUid sodium s.idPub) type s

/-- What the owner of a key asks for, in host order. -/
def ownRequest (sodium : Sodium) (s : Sign) : StateRequest where
  addr := addr.naddr
  uid := cryptoPubkeyToUid sodium s.idPub
  pubkey := s.idPub
  signature := (ownSent addr type random now sodium s).signature
  type := type.code.toUInt32
  nonce := random
  timestamp := now

theorem stateRcreate_naddr :
    stateRcreate sodium random now addr.naddr (cryptoPubkeyToUid sodium s.idPub) type s
      = some (ownSent addr type random now sodium s) := by
  rw [stateRcreate, lnHton_naddr]
  rfl

theorem ownRequest_sentAs
    (verifies : ∀ msg, signVerify sodium msg (signData sodium s msg) s.idPub = true) :
    SentAs sodium (ownRequest addr type random now sodium s)
      (ownSent addr type random now sodium s) where
  translated := congrArg (Option.map _) (lnHton_naddr addr)
  signed := verifies _
  owned := decide_eq_true rfl
  addr := (lnNtoh_naddr _).trans (congrArg (some ·.naddr) addr.mapPort_htons_htons)

/-- The owner of a key can sign an address that no receiver has room for. -/
theorem stateRreceive_unterminated {addr : Naddr} (broken : ¬ addr.Terminated) (uid : UInt32)
    (verifies : ∀ msg, signVerify sodium msg (signData sodium s msg) s.idPub = true) :
    stateRreceive sodium (layout.image (signedRequest sodium random now addr uid type s))
      = .undefined := by
  rw [stateRreceive_undefined_iff, Layout.ofImage_image]
  exact ⟨verifies _, broken⟩

theorem stateRreceive_survives_relay
    (verifies : ∀ msg, signVerify sodium msg (signData sodium s msg) s.idPub = true) :
    ∃ sent r, stateRcreate sodium random now addr.naddr (cryptoPubkeyToUid sodium s.idPub) type s
      = some sent ∧
      stateRreceive sodium (layout.image sent) = .received r ∧
      r.addr = addr.naddr ∧ r.uid = cryptoPubkeyToUid sodium s.idPub ∧ r.type = type.code.toUInt32 ∧
      r.pubkey = s.idPub ∧ r.nonce = random ∧ r.timestamp = now ∧
      (∃ again, stateRetranslate r = some again ∧
        stateRreceive sodium (layout.image again) = .received r) ∧
      ∀ hops, relayed sodium hops r = some r := by
  have own := ownRequest_sentAs addr type random now verifies
  exact ⟨_, ownRequest addr type random now sodium s, stateRcreate_naddr addr type random now,
    own.received,
    rfl, rfl, rfl, rfl, rfl, rfl, ⟨_, own.translated, own.received⟩, Relayable.relayed ⟨_, own⟩⟩

end Own

theorem toySign_verifies (b : UInt8) (msg : List UInt8) :
    signVerify toySodium msg (signData toySodium (toySign b) msg) (toySign b).idPub = true := by
  simp only [signVerify, signData, toySodium, beq_iff_eq]
  rfl

theorem stateRreceive_survives_relay_sample :
    ∃ sent r, stateRcreate toySodium 5 (-1) (Address.ipv4 sampleText 80).naddr
          (cryptoPubkeyToUid toySodium (toySign 1).idPub) .requestPeers (toySign 1) = some sent ∧
      stateRreceive toySodium (layout.image sent) = .received r ∧
      r.addr = (Address.ipv4 sampleText 80).naddr ∧
        r.uid = cryptoPubkeyToUid toySodium (toySign 1).idPub ∧
      r.type = StateRtype.requestPeers.code.toUInt32 ∧ r.pubkey = (toySign 1).idPub ∧ r.nonce = 5 ∧
      r.timestamp = -1 ∧
      (∃ again, stateRetranslate r = some again ∧
        stateRreceive toySodium (layout.image again) = .received r) ∧
      ∀ hops, relayed toySodium hops r = some r :=
  stateRreceive_survives_relay (.ipv4 sampleText 80) .requestPeers 5 (-1) (toySign_verifies 1)

end Soter2.Stating
