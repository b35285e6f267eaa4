import Mathlib.Data.List.Basic
import Mathlib.Tactic.Common
import Soter2.Interface.Connections
import Soter2.Peers.Handlers

/-! # The detection of dead peers (`interface/src/daemons.c`, `peersyst/src/peerdb.c`)

A record keeps the time of the last sign of life in a `uint32_t`; `ping_iter` subtracts it
from a 64-bit clock.

* `lastSeen_of_history` — the field of a record, after any writes to the database.
* `ping_exact_iff` — when the silence of a peer is measured right.
-/

namespace Soter2.Interface

open Lownet Peers Protocol Rudp

/-- What the field `last_seen` keeps of a clock value. -/
def lastSeenOf (nowMs : Int) : UInt32 := UInt32.ofNat nowMs.toNat

/-! ## The writes to the database -/

/-- A time is the clock value that the call reads. -/
inductive DbWrite where
  /-- `peers_db_reconstruct`, the state that the caller sets, and `peers_db_add`. -/
  | add (linfo : LightPeerInfo) (state : PeerState) (nowMs : Int)
  | utime (uid : UInt32) (nowMs : Int)
  | schange (uid : UInt32) (newState : PeerState)
  | unfd (uid : UInt32) (nfd : NnetFd)
  | remove (uid : UInt32)

def DbWrite.apply (inet : Inet) (db : PeersDb) : DbWrite → PeersDb
  | .add linfo state nowMs =>
    peersDbAdd db { peersDbReconstruct inet (lastSeenOf nowMs) linfo with state := state }
  | .utime uid nowMs => peersDbUtime db uid (lastSeenOf nowMs)
  | .schange uid newState => peersDbSchange db uid newState
  | .unfd uid nfd => peersDbUnfd db uid nfd
  | .remove uid => peersDbRemove db uid

/-- The database that was empty before the writes. -/
def written (inet : Inet) (writes : List DbWrite) : PeersDb :=
  writes.foldl (DbWrite.apply inet) PeersDb.empty

/-- The time when `last_seen` of the record of a peer was last set, if there is a record. -/
def DbWrite.stamp (uid : UInt32) (last : Option Int) : DbWrite → Option Int
  | .add linfo _ nowMs => if linfo.uid = uid then some nowMs else last
  | .utime w nowMs => if w = uid then last.map fun _ => nowMs else last
  | .schange _ _ | .unfd _ _ => last
  | .remove w => if w = uid then none else last

def lastStamp (uid : UInt32) (writes : List DbWrite) : Option Int :=
  writes.foldl (DbWrite.stamp uid) none

/-! ## The daemon's look at a peer -/

structure Pinged where
  code : Int
  disp : RudpDispatcher
  /-- What closing the connection sends. -/
  closing : List Protopack
  /-- What is given to `pvd_sender_send`. -/
  sent : List (Option Protopack × NnetFd)

/-- `ping_iter`. -/
def pingIterCall (nowMs : Int) (disp : RudpDispatcher) (info : PeerInfo) : Pinged :=
  if nowMs - info.lastSeen.toNat ≥ 10 * 1000 then
    let (_, disp, closing) := rudpCloseConncetion disp info.uid
    ⟨1, disp, closing, []⟩
  else if nowMs - info.lastSeen.toNat ≥ 3 * 1000 then
    ⟨0, disp, [], [(protoMsgQuick disp.selfUid info.uid 0 .ping, info.nfd)]⟩
  else ⟨0, disp, [], []⟩

/-- The daemon removes the peers for which `ping_iter` returns 1. -/
theorem pingIter_eq (nowMs : Int) (s : S2Connections) (info : PeerInfo) :
    pingIter nowMs s info =
      let r := pingIterCall nowMs s.disp info
      { s with
        disp := r.disp
        peers := if r.code = 1 then peersDbRemove s.peers info.uid else s.peers } := by
  by_cases silent : nowMs - info.lastSeen.toNat ≥ 10 * 1000
  · have dead_ : dead nowMs info = true := decide_eq_true silent
    rw [pingIter, if_pos dead_, pingIterCall, if_pos silent]
    rfl
  · have alive : ¬ dead nowMs info = true := by simpa [dead] using silent
    rw [pingIter, if_neg alive, pingIterCall, if_neg silent]
    split <;> rfl

/-- A peer that was last seen at `t` is dead after ten seconds, and gets a PING after three. -/
structure PingsExactly (t nowMs : Int) (disp : RudpDispatcher) (info : PeerInfo) : Prop where
  dead : (pingIterCall nowMs disp info).code = 1 ↔ 10000 ≤ nowMs - t
  ping : (pingIterCall nowMs disp info).sent =
    if 3000 ≤ nowMs - t ∧ nowMs - t < 10000 then
      [(protoMsgQuick disp.selfUid info.uid 0 .ping, info.nfd)] else []

/-! ## What a record keeps -/

variable {inet : Inet} {db : PeersDb} {uid : UInt32} {last : Option Int}

theorem lastSeen_apply (kept : (peersDbGet db uid).map (·.lastSeen) = last.map lastSeenOf)
    (w : DbWrite) :
    (peersDbGet (w.apply inet db) uid).map (·.lastSeen) = (w.stamp uid last).map lastSeenOf := by
  -- a write to the record of another peer leaves the look-up alone
  have frame : ∀ {u : UInt32} {db' : PeersDb}, Frame u db db' → u ≠ uid →
      (peersDbGet db' uid).map (·.lastSeen) = last.map lastSeenOf := by
    intro u db' other apart
    rw [other uid apart.symm, kept]
  cases w with
  | add linfo state nowMs =>
    by_cases here : linfo.uid = uid
    · subst here
      have found := get_peersDbAdd_self db
        { peersDbReconstruct inet (lastSeenOf nowMs) linfo with state := state }
      rw [DbWrite.stamp, if_pos rfl, DbWrite.apply]
      exact congrArg (Option.map (·.lastSeen)) found
    · rw [DbWrite.stamp, if_neg here]
      exact frame (add_frame db _) here
  | utime w nowMs =>
    by_cases here : w = uid
    · subst here
      rw [DbWrite.stamp, if_pos rfl, DbWrite.apply, peersDbUtime, get_modify_self, Option.map_map]
      cases found : peersDbGet db w with
      | none =>
        rw [found] at kept
        cases last with
        | none => rfl
        | some t => cases kept
      | some info =>
        rw [found] at kept
        cases last with
        | none => cases kept
        | some t => rfl
    · rw [DbWrite.stamp, if_neg here]
      exact frame (utime_frame db w _) here
  | schange w newState =>
    by_cases here : w = uid
    · subst here
      rw [DbWrite.apply, peersDbSchange, get_modify_self, Option.map_map]
      exact kept
    · exact frame (schange_frame db w newState) here
  | unfd w nfd =>
    by_cases here : w = uid
    · subst here
      rw [DbWrite.apply, peersDbUnfd, get_modify_self, Option.map_map]
      exact kept
    · exact frame (unfd_frame db w nfd) here
  | remove w =>
    by_cases here : w = uid
    · subst here
      rw [DbWrite.stamp, if_pos rfl, DbWrite.apply, get_peersDbRemove_self]
      rfl
    · rw [DbWrite.stamp, if_neg here, DbWrite.apply, get_peersDbRemove_ne db (Ne.symm here)]
      exact kept

/-- Whatever is written to the database, a record holds what the field keeps of the time when it
    was last set. -/
theorem lastSeen_of_history (inet : Inet) (writes : List DbWrite) (uid : UInt32) :
    (peersDbGet (written inet writes) uid).map (·.lastSeen)
      = (lastStamp uid writes).map lastSeenOf := by
  have run : ∀ db last, (peersDbGet db uid).map (·.lastSeen) = last.map lastSeenOf →
      (peersDbGet (writes.foldl (DbWrite.apply inet) db) uid).map (·.lastSeen)
        = (writes.foldl (DbWrite.stamp uid) last).map lastSeenOf := by
    induction writes with
    | nil => exact fun _ _ kept => kept
    | cons w writes ih => exact fun db last kept => ih _ _ (lastSeen_apply kept w)
  exact run PeersDb.empty none rfl

/-! ## When the silence is measured right -/

/-- The field counts modulo 2^32, so that a later time reads as an earlier one. -/
theorem lastSeenOf_toNat {t : Int} (natural : 0 ≤ t) :
    ((lastSeenOf t).toNat : Int) = t % 2 ^ 32 := by
  rw [lastSeenOf, UInt32.toNat_ofNat']
  omega

theorem pingsExactly_iff {t nowMs : Int} (natural : 0 ≤ t) (later : t ≤ nowMs) {info : PeerInfo}
    (seen : info.lastSeen = lastSeenOf t) (disp : RudpDispatcher) :
    PingsExactly t nowMs disp info ↔ t < 2 ^ 32 ∨ 10000 ≤ nowMs - t := by
  have field : (info.lastSeen.toNat : Int) = t % 2 ^ 32 := by rw [seen, lastSeenOf_toNat natural]
  have code : (pingIterCall nowMs disp info).code = 1 ↔ 10000 ≤ nowMs - t % 2 ^ 32 := by
    rw [pingIterCall, field]
    split
    next silent => exact iff_of_true rfl silent
    next => split <;> simp_all
  constructor
  · intro exactly
    -- the two measures differ by a multiple of 2^32, and a live peer tells them apart
    have dead_ := code.symm.trans exactly.dead
    omega
  · intro measured
    -- a peer that is dead by the exact measure is dead by the longer one as well
    have same : 10000 ≤ nowMs - t % 2 ^ 32 ↔ 10000 ≤ nowMs - t := by omega
    refine ⟨code.trans same, ?_⟩
    rw [pingIterCall, field]
    split
    next silent => rw [if_neg (by omega)]
    next heard =>
      have small : t % 2 ^ 32 = t := by omega
      rw [small]
      split
      next quiet => rw [if_pos (by omega)]
      next => rw [if_neg (by omega)]

/-- `ping_iter` measures the silence of a peer right as long as the clock fits in 32 bits when
    the peer is last seen; after that it is right only about peers that are dead. -/
theorem ping_exact_iff (inet : Inet) (writes : List DbWrite) (uid : UInt32) (info : PeerInfo)
    (found : peersDbGet (written inet writes) uid = some info) (t : Int)
    (set_ : lastStamp uid writes = some t) (nowMs : Int) (natural : 0 ≤ t) (later : t ≤ nowMs)
    (disp : RudpDispatcher) :
    PingsExactly t nowMs disp info ↔ t < 2 ^ 32 ∨ 10000 ≤ nowMs - t := by
  have seen := lastSeen_of_history inet writes uid
  rw [found, set_] at seen
  exact pingsExactly_iff natural later (Option.some.inj seen) disp

/-! ## A peer that is seen late -/

def samplePeer : LightPeerInfo :=
  ⟨7, Naddr.zero, (Address.ipv4 sampleText 80).naddr, Vector.replicate E2ee.keyBytes 0⟩

/-- A peer that is known, and then seen at `t`. -/
def seenAt (t : Int) : List DbWrite := [.add samplePeer .inited 0, .utime 7 t]

def sampleInfo (t : Int) : PeerInfo :=
  { peersDbReconstruct sampleInet 0 samplePeer with lastSeen := lastSeenOf t }

theorem ping_exact_iff_seenAt : PingsExactly 5000 9000 (rudpDispatcherNew 1) (sampleInfo 5000) :=
  (ping_exact_iff sampleInet (seenAt 5000) 7 (sampleInfo 5000) (by decide) 5000 (by decide) 9000
    (by decide) (by decide)
    (rudpDispatcherNew 1)).mpr (.inl (by decide))

/-- After 49 days and 17 hours a peer is dead the moment it is seen. -/
theorem seen_now_is_dead :
    peersDbGet (written sampleInet (seenAt (2 ^ 32))) 7 = some (sampleInfo (2 ^ 32)) ∧
      lastStamp 7 (seenAt (2 ^ 32)) = some (2 ^ 32) ∧
      ¬ PingsExactly (2 ^ 32) (2 ^ 32) (rudpDispatcherNew 1) (sampleInfo (2 ^ 32)) := by
  refine ⟨by decide, by decide, fun exactly => ?_⟩
  exact absurd (exactly.dead.mp (by decide)) (by decide)

end Soter2.Interface
