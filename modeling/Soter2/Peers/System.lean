import Mathlib.Data.List.Basic
import Mathlib.Tactic.Common
import Soter2.Peers.Handlers

/-! # Connecting to a peer (`interface/src/system.c`) -/

namespace Soter2.Peers

open Soter2.Lownet Soter2.Protocol
open Soter2.E2ee (Bytes keyBytes)

def s2SysNewPeer (ctx : AppContext) (db : PeersDb) (addr servAddr : Naddr) (uid : UInt32)
    (pubkey : Bytes keyBytes) : PeersDb :=
  peersDbAdd db {
    state := .inited
    uid := uid
    lastSeen := ctx.now
    nfd := lnNetfdq ctx.inet addr
    server := servAddr
    pubkey := pubkey }

/-- `proto_punch_msg`. -/
def protoPunchMsg (hashFrom hashTo : UInt32) (info : List UInt8) : Option Protopack :=
  udpMakePack 0 hashFrom hashTo .punch (some info) 140

/-- `s2_sys_nat_punch`: its code and what it gives to `pvd_sender_send`.  `sockAddr` is the
    address of the own socket, `idPub` the own key. -/
def s2SysNatPunch (ctx : AppContext) (sockAddr : Naddr) (idPub : Bytes keyBytes) (db : PeersDb)
    (uid : UInt32) : Int × List (Option Protopack × NnetFd) :=
  match peersDbGet db uid with
  | none => (-1, [])
  | some info =>
    let linfo : LightPeerInfo := {
      uid := ctx.selfUid
      server := info.server
      addr := sockAddr
      pubkey := idPub }
    (0, [(protoPunchMsg ctx.selfUid uid (LightPeerInfo.layout.image linfo), info.nfd)])

theorem protoPunchMsg_image (hashFrom hashTo : UInt32) (linfo : LightPeerInfo) :
    protoPunchMsg hashFrom hashTo (LightPeerInfo.layout.image linfo) = some {
      seq := 0, chsum := 0, dSize := 140, hFrom := hashFrom, hTo := hashTo,
      packtype := ProtopackType.punch.code, data := LightPeerInfo.layout.image linfo } := by
  have length : (LightPeerInfo.layout.image linfo).length = 140 :=
    LightPeerInfo.layout.length_image linfo
  rw [protoPunchMsg, ← length, udpMakePack_eq_some, length]
  exact ⟨by decide, rfl⟩

theorem get_s2SysNewPeer (ctx : AppContext) (db : PeersDb) (addr servAddr : Naddr) (uid : UInt32)
    (pubkey : Bytes keyBytes) :
    peersDbGet (s2SysNewPeer ctx db addr servAddr uid pubkey) uid
      = some ⟨servAddr, .inited, uid, ctx.now, pubkey, lnNetfdq ctx.inet addr⟩ :=
  get_peersDbAdd_self db _

end Soter2.Peers
