import Mathlib.Data.List.Basic
import Mathlib.Tactic.Common
import Soter2.Library.AssocTable
import Soter2.Lownet.Netfd

/-! # The peer database (`peersyst/src/peerdb.c`)

A record is stored under its own UID: `PeersDb` carries that as a field.  The clock that
stamps a record is an input, as the `uint32_t` that the field keeps of it.
-/

namespace Soter2.Peers

open Soter2.Lownet
open Soter2.E2ee (Bytes keyBytes)

inductive PeerState where
  | inited
  | natpunching
  | active
  | helloSent
  | cryptoHandshaking
  | «protected»
deriving DecidableEq, Repr

structure PeerInfo where
  server : Naddr
  state : PeerState
  uid : UInt32
  lastSeen : UInt32
  pubkey : Bytes keyBytes
  nfd : NnetFd
deriving DecidableEq

structure LightPeerInfo where
  uid : UInt32
  server : Naddr
  addr : Naddr
  pubkey : Bytes keyBytes
deriving DecidableEq

def LightPeerInfo.layout : Layout LightPeerInfo :=
  (Layout.u32.pair <| Naddr.layout.pair <| Naddr.layout.pair (Layout.bytes keyBytes)).congr
    (fun (uid, server, addr, pubkey) => ⟨uid, server, addr, pubkey⟩)
    (fun linfo => (linfo.uid, linfo.server, linfo.addr, linfo.pubkey)) (fun _ => rfl) (fun _ => rfl)

theorem LightPeerInfo.layout_size : LightPeerInfo.layout.size = 140 := rfl

structure PeersDb where
  data : AssocTable UInt32 PeerInfo
  keyed : ∀ e ∈ data.entries, e.2.uid = e.1
deriving DecidableEq

namespace PeersDb

def empty : PeersDb := ⟨AssocTable.empty, by simp [AssocTable.empty]⟩

/-- Write to the record of a peer, where the UID is not written. -/
def modify (db : PeersDb) (uid : UInt32) (f : PeerInfo → PeerInfo)
    (same : ∀ info, (f info).uid = info.uid) : PeersDb where
  data := db.data.modify uid f
  keyed := by
    rintro ⟨k, v⟩ member
    cases AssocTable.mem_modify member with
    | inl old => exact db.keyed _ old
    | inr written =>
      obtain ⟨info, old, rfl⟩ := written
      exact (same info).trans (db.keyed _ old)

end PeersDb

def peersDbAdd (db : PeersDb) (info : PeerInfo) : PeersDb where
  data := db.data.set info.uid info
  keyed := by
    rintro ⟨k, v⟩ member
    cases AssocTable.mem_set member with
    | inl old => exact db.keyed _ old
    | inr new => rw [new.1, new.2]

def peersDbRemove (db : PeersDb) (uid : UInt32) : PeersDb where
  data := db.data.remove uid
  keyed := fun _ member => db.keyed _ (AssocTable.mem_remove.mp member).2

def peersDbGet (db : PeersDb) (uid : UInt32) : Option PeerInfo := db.data.get uid

def peersDbSchange (db : PeersDb) (uid : UInt32) (newState : PeerState) : PeersDb :=
  db.modify uid (fun info => { info with state := newState }) fun _ => rfl

def peersDbUnfd (db : PeersDb) (uid : UInt32) (nfd : NnetFd) : PeersDb :=
  db.modify uid (fun info => { info with nfd := nfd }) fun _ => rfl

def peersDbUtime (db : PeersDb) (uid now : UInt32) : PeersDb :=
  db.modify uid (fun info => { info with lastSeen := now }) fun _ => rfl

def peersDbLinfo (inet : Inet) (input : PeerInfo) : LightPeerInfo where
  uid := input.uid
  server := input.server
  addr := lnNfd2addr inet input.nfd
  pubkey := input.pubkey

def peersDbReconstruct (inet : Inet) (now : UInt32) (input : LightPeerInfo) : PeerInfo where
  uid := input.uid
  nfd := lnNetfdq inet input.addr
  lastSeen := now
  state := .inited
  server := input.server
  pubkey := input.pubkey

/-! ## Look-ups after a write -/

section Lookups

variable {db : PeersDb} {uid w : UInt32} {info : PeerInfo}

theorem uid_of_get (h : peersDbGet db uid = some info) : info.uid = uid :=
  db.keyed _ (AssocTable.get_eq_some.mp h)

@[simp] theorem get_modify_self (f : PeerInfo → PeerInfo) (same : ∀ info, (f info).uid = info.uid) :
    peersDbGet (db.modify uid f same) uid = (peersDbGet db uid).map f :=
  AssocTable.get_modify_self db.data uid f

theorem get_modify_ne (f : PeerInfo → PeerInfo) (same : ∀ info, (f info).uid = info.uid)
    (other : w ≠ uid) : peersDbGet (db.modify uid f same) w = peersDbGet db w :=
  AssocTable.get_modify_ne db.data f other

@[simp] theorem get_peersDbAdd_self (db : PeersDb) (info : PeerInfo) :
    peersDbGet (peersDbAdd db info) info.uid = some info :=
  AssocTable.get_set_self db.data info.uid info

theorem get_peersDbAdd_ne (db : PeersDb) (info : PeerInfo) (other : w ≠ info.uid) :
    peersDbGet (peersDbAdd db info) w = peersDbGet db w :=
  AssocTable.get_set_ne db.data info other

@[simp] theorem get_peersDbRemove_self (db : PeersDb) (uid : UInt32) :
    peersDbGet (peersDbRemove db uid) uid = none :=
  AssocTable.get_remove_self

theorem get_peersDbRemove_ne (db : PeersDb) (other : w ≠ uid) :
    peersDbGet (peersDbRemove db uid) w = peersDbGet db w :=
  AssocTable.get_remove_ne other

end Lookups

end Soter2.Peers
