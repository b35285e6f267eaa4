import Mathlib.Data.List.Basic
import Mathlib.Logic.Function.Basic
import Mathlib.Tactic.Common
import Soter2.E2ee.Connection
import Soter2.Library.Transition
import Soter2.Peers.System

/-! # The keys of the stored peers

`keyOf` is the abstract database: which key is stored for which UID.  An event adds one pair
of UID and key (`added`), or none; no handler compares the two.

* `bound_iff_binds` — in which runs every stored UID is the one derived from its key.
-/

namespace Soter2.Peers

open Soter2.Lownet Soter2.Protocol
open Soter2.E2ee

/-- The stored keys. -/
def keyOf (db : PeersDb) (uid : UInt32) : Option (Bytes keyBytes) :=
  (peersDbGet db uid).map (·.pubkey)

theorem keyOf_modify (db : PeersDb) (uid : UInt32) (f : PeerInfo → PeerInfo)
    (same : ∀ info, (f info).uid = info.uid) (pub : ∀ info, (f info).pubkey = info.pubkey) :
    keyOf (db.modify uid f same) = keyOf db := by
  funext w
  by_cases there : w = uid
  · subst there
    cases h : peersDbGet db w <;> simp [keyOf, h, pub]
  · rw [keyOf, get_modify_ne f same there, keyOf]

@[simp] theorem keyOf_peersDbSchange (db : PeersDb) (uid : UInt32) (newState : PeerState) :
    keyOf (peersDbSchange db uid newState) = keyOf db :=
  keyOf_modify db uid _ _ (by intro info; rfl)

@[simp] theorem keyOf_peersDbUnfd (db : PeersDb) (uid : UInt32) (nfd : NnetFd) :
    keyOf (peersDbUnfd db uid nfd) = keyOf db :=
  keyOf_modify db uid _ _ (by intro info; rfl)

@[simp] theorem keyOf_peersDbUtime (db : PeersDb) (uid now : UInt32) :
    keyOf (peersDbUtime db uid now) = keyOf db :=
  keyOf_modify db uid _ _ (by intro info; rfl)

theorem keyOf_peersDbAdd (db : PeersDb) (info : PeerInfo) :
    keyOf (peersDbAdd db info) = Function.update (keyOf db) info.uid (some info.pubkey) := by
  funext w
  by_cases there : w = info.uid
  · subst there
    simp [keyOf]
  · rw [keyOf, get_peersDbAdd_ne db info there, Function.update_of_ne there, keyOf]

theorem keyOf_peersDbRemove (db : PeersDb) (uid : UInt32) :
    keyOf (peersDbRemove db uid) = Function.update (keyOf db) uid none := by
  funext w
  by_cases there : w = uid
  · subst there
    simp [keyOf]
  · rw [keyOf, get_peersDbRemove_ne db there, Function.update_of_ne there, keyOf]

/-! ## Runs -/

/-- What happens to the database of a peer, with the value of the clock. -/
inductive DbEvent where
  | packet (type : PeerPacket) (pck : Protopack) (nfd : NnetFd) (now : UInt32)
  /-- A request to connect to the peer that an encoded pair of key and UID names. -/
  | connect (b64Str : List UInt8) (addr servAddr : Naddr) (now : UInt32)
  | remove (uid : UInt32)

section Runs

variable (sodium : Sodium) (base642bin : List UInt8 → Option (List UInt8)) (selfUid : UInt32)
    (inet : Inet)

def dbStep (db : PeersDb) : DbEvent → Option PeersDb
  | .packet type pck nfd now => some (type.handler ⟨selfUid, inet, now⟩ db pck nfd).db
  | .connect b64Str addr servAddr now =>
    match cryptoDecodePubkeyUid base642bin b64Str with
    | some (pubkey, uid) => some (s2SysNewPeer ⟨selfUid, inet, now⟩ db addr servAddr uid pubkey)
    | none => some db
  | .remove uid => some (peersDbRemove db uid)

/-- The pair of key and UID that an event stores. -/
def added (db : PeersDb) : DbEvent → Option (Bytes keyBytes × UInt32)
  | .packet .punch pck _ now =>
    let linfo := LightPeerInfo.layout.ofImage pck.data
    if Introduces ⟨selfUid, inet, now⟩ db pck then some (linfo.pubkey, linfo.uid) else none
  | .packet .hello pck _ _ =>
    let linfo := LightPeerInfo.layout.ofImage pck.data
    if pck.dSize.toNat = LightPeerInfo.layout.size then some (linfo.pubkey, linfo.uid) else none
  | .connect b64Str _ _ _ => cryptoDecodePubkeyUid base642bin b64Str
  | _ => none

/-- Every stored UID is the one derived from its key. -/
def Bound (db : PeersDb) : Prop :=
  ∀ uid info, peersDbGet db uid = some info →
    cryptoPubkeyAndUidCheck sodium info.pubkey info.uid = true

/-- The pair that an event stores would pass the check of `state_rreceive`. -/
def Binds (db : PeersDb) (e : DbEvent) : Prop :=
  ∀ pubkey uid, added base642bin selfUid inet db e = some (pubkey, uid) →
    cryptoPubkeyAndUidCheck sodium pubkey uid = true

end Runs

variable {sodium : Sodium} {base642bin : List UInt8 → Option (List UInt8)} {selfUid : UInt32}
    {inet : Inet}
  {db db' : PeersDb} {e : DbEvent}

theorem bound_iff_keyOf :
    Bound sodium db ↔ ∀ uid pubkey, keyOf db uid = some pubkey →
      cryptoPubkeyAndUidCheck sodium pubkey uid = true := by
  constructor
  · intro bound uid pubkey stored
    obtain ⟨info, found, rfl⟩ := Option.map_eq_some_iff.mp stored
    simpa only [uid_of_get found] using bound uid info found
  · intro keys uid info found
    rw [uid_of_get found]
    exact keys uid info.pubkey (by rw [keyOf, found]; rfl)

@[simp] theorem keyOf_punchKnown (ctx : AppContext) (info : PeerInfo) (nfd : NnetFd) :
    keyOf (punchKnown ctx db info nfd).db = keyOf db := by
  rw [punchKnown]
  split
  · simp
  · dsimp only
    split <;> simp

theorem keyOf_ack (ctx : AppContext) (pck : Protopack) (nfd : NnetFd) :
    keyOf (soter2HndAck ctx db pck nfd).db = keyOf db := by
  rw [soter2HndAck]
  split <;> simp

theorem keyOf_hello2 (ctx : AppContext) (pck : Protopack) (nfd : NnetFd) :
    keyOf (soter2HndHello2 ctx db pck nfd).db = keyOf db := by
  rw [soter2HndHello2]
  split <;> simp

/-- An event stores its pair and keeps the others. -/
theorem keyOf_dbStep_added {pubkey : Bytes keyBytes} {uid : UInt32}
    (h : added base642bin selfUid inet db e = some (pubkey, uid))
    (next : dbStep base642bin selfUid inet db e = some db') :
    keyOf db' = Function.update (keyOf db) uid (some pubkey) := by
  cases e with
  | packet type pck nfd now =>
    cases next
    cases type with
    | punch =>
      simp only [added, Option.ite_none_right_eq_some, Option.some.injEq, Prod.mk.injEq] at h
      -- a PUNCH stores the pair of its payload if it introduces its sender
      obtain ⟨introduces, rfl, rfl⟩ := h
      rw [PeerPacket.handler, soter2HndPunch_introduces introduces, keyOf_punchKnown,
        keyOf_peersDbAdd]
      rfl
    | hello =>
      simp only [added, Option.ite_none_right_eq_some, Option.some.injEq, Prod.mk.injEq] at h
      obtain ⟨size, rfl, rfl⟩ := h
      simp only [PeerPacket.handler, soter2HndHello, size, ne_eq, not_true, if_false,
        keyOf_peersDbAdd]
      rfl
    | ack | ping | pong | hello2 => simp [added] at h
  | connect b64Str addr servAddr now =>
    simp only [added] at h
    simp only [dbStep, h, Option.some.injEq] at next
    rw [← next, s2SysNewPeer, keyOf_peersDbAdd]
  | remove uid => simp [added] at h

/-- An event that stores no pair keeps those there are, or drops one. -/
theorem keyOf_dbStep_none (h : added base642bin selfUid inet db e = none)
    (next : dbStep base642bin selfUid inet db e = some db') {uid : UInt32} {pubkey : Bytes keyBytes}
    (stored : keyOf db' uid = some pubkey) : keyOf db uid = some pubkey := by
  cases e with
  | packet type pck nfd now =>
    cases next
    cases type with
    | punch =>
      obtain introduces | ⟨known, ⟨info, found, handled⟩ | dropped⟩ :=
        soter2HndPunch_cases ⟨selfUid, inet, now⟩ db pck nfd
      · simp [added, introduces] at h
      · rwa [PeerPacket.handler, handled, keyOf_punchKnown] at stored
      · rwa [PeerPacket.handler, dropped] at stored
    | hello =>
      -- a HELLO that stores no pair has a wrong size, and is dropped
      have size : pck.dSize.toNat ≠ LightPeerInfo.layout.size :=
        fun size => by simp [added, size] at h
      rwa [PeerPacket.handler, soter2HndHello, if_pos size] at stored
    | ack => rwa [PeerPacket.handler, keyOf_ack] at stored
    | hello2 => rwa [PeerPacket.handler, keyOf_hello2] at stored
    | ping => rwa [PeerPacket.handler, soter2HndPing, keyOf_peersDbUtime] at stored
    | pong => rwa [PeerPacket.handler, soter2HndPong, keyOf_peersDbUtime] at stored
  | connect b64Str addr servAddr now =>
    simp only [added] at h
    simp only [dbStep, h, Option.some.injEq] at next
    rwa [next]
  | remove gone =>
    cases next
    rw [keyOf_peersDbRemove] at stored
    by_cases there : uid = gone
    · rw [there, Function.update_self] at stored
      cases stored
    · rwa [Function.update_of_ne there] at stored

theorem dbStep_possible (db : PeersDb) (e : DbEvent) :
    ∃ db', dbStep base642bin selfUid inet db e = some db' := by
  cases e with
  | connect b64Str addr servAddr now =>
    cases h : cryptoDecodePubkeyUid base642bin b64Str <;> simp [dbStep, h]
  | packet type pck nfd now => exact ⟨_, rfl⟩
  | remove uid => exact ⟨_, rfl⟩

theorem bound_step_iff (bound : Bound sodium db)
    (next : dbStep base642bin selfUid inet db e = some db') :
    Bound sodium db' ↔ Binds sodium base642bin selfUid inet db e := by
  rw [bound_iff_keyOf] at bound ⊢
  cases h : added base642bin selfUid inet db e with
  | none =>
    -- without a new pair nothing can go wrong
    refine iff_of_true (fun uid pubkey stored => bound uid pubkey (keyOf_dbStep_none h next stored))
      ?_
    intro pubkey uid pair
    rw [h] at pair
    cases pair
  | some pair =>
    obtain ⟨pubkey, uid⟩ := pair
    rw [keyOf_dbStep_added h next]
    constructor
    · intro keys pubkey' uid' same
      cases h.symm.trans same
      exact keys uid pubkey (Function.update_self ..)
    · intro binds w pubkey' stored
      by_cases there : w = uid
      · rw [there, Function.update_self] at stored
        cases stored
        exact there ▸ binds pubkey uid h
      · rw [Function.update_of_ne there] at stored
        exact bound w pubkey' stored

/-- From an empty database, every stored UID is the one derived from its key all along a run
    exactly when no event of the run stores a pair that fails the check. -/
theorem bound_iff_binds (sodium : Sodium) (base642bin : List UInt8 → Option (List UInt8))
    (selfUid : UInt32) (inet : Inet) (events : List DbEvent) :
    (∀ initial, initial <+: events →
        ∀ db, Transition.run (dbStep base642bin selfUid inet) PeersDb.empty initial = some db →
          Bound sodium db) ↔
      Transition.Meets (dbStep base642bin selfUid inet) (Binds sodium base642bin selfUid inet)
        PeersDb.empty events :=
  Transition.always_iff_meets dbStep_possible (fun _ _ _ bound next => bound_step_iff bound next)
    (fun _ _ found => nomatch found)

/-- A HELLO whose payload puts the key of one byte `5` under UID 9. -/
def foreignHello : Protopack where
  seq := 0
  chsum := 0
  dSize := 140
  hFrom := 9
  hTo := 1
  packtype := ProtopackType.hello.code
  data := LightPeerInfo.layout.image (sampleLinfo 9 5)

theorem hello_binds_foreign_key :
    ∃ db info, Transition.run (dbStep (fun _ => none) 1 sampleInet) PeersDb.empty
        [.packet .hello foreignHello ⟨3, .unspec, 0⟩ 0] = some db ∧
      peersDbGet db 9 = some info ∧ cryptoPubkeyAndUidCheck toySodium info.pubkey info.uid
        = false :=
  ⟨_, { peersDbReconstruct sampleInet 0 (sampleLinfo 9 5) with state := .active }, rfl,
    by decide +kernel, by decide +kernel⟩

end Soter2.Peers
