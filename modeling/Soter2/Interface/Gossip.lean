import Mathlib.Data.List.Basic
import Mathlib.Tactic.Common
import Soter2.Gossip.Cleanup
import Soter2.Gossip.Packet
import Soter2.Gossip.Selection
import Soter2.Library.Transition
import Soter2.Peers.Db

/-! # Gossiping with the peers (`interface/src/daemons.c`)

For a peer that it talks to, `gossip_iter` makes a new entry, registers it, and sends up to
five entries that it draws from the store.

* `carries_iff_one_known` — when the packet carries what was drawn.
* `refreshed_iff_forgotten` — in which runs the entries of the peers are up to date.
-/

namespace Soter2.Interface

open Gossip Lownet Peers Protocol
open Words (bytes32)

/-- There is no entry where the conversion runs over its array. -/
def gossipCreateEntry (seconds : Int64) (uid : UInt32) (addr : Naddr) (md : GossipMetadata)
    (convertHton : Bool) : Option GossipEntry :=
  (if convertHton then lnHton addr else some addr).map fun addr =>
    { uid := uid
      addr := addr
      version := 0
      timestamp := seconds.toUInt64
      md := md }

theorem gossipCreateEntry_isSome (inet : Inet) (seconds : Int64) (uid : UInt32) (nfd : NnetFd)
    (md : GossipMetadata) :
    (gossipCreateEntry seconds uid (lnNfd2addr inet nfd) md true).isSome := by
  rw [gossipCreateEntry, if_pos rfl, Option.isSome_map]
  exact lnConvert_isSome htons (lnNfd2addr_terminated inet nfd)

/-- The entry that `gossip_iter` makes of a peer. -/
def peerEntry (inet : Inet) (seconds : Int64) (info : PeerInfo) : GossipEntry :=
  (gossipCreateEntry seconds info.uid (lnNfd2addr inet info.nfd) ⟨info.pubkey, info.server⟩
    true).get
    (gossipCreateEntry_isSome inet seconds info.uid info.nfd _)

section PeerEntry

variable (inet : Inet) (seconds : Int64) (info : PeerInfo)

theorem peerEntry_eq : ∃ addr, lnHton (lnNfd2addr inet info.nfd) = some addr ∧
    peerEntry inet seconds info = ⟨info.uid, addr, 0, seconds.toUInt64,
      ⟨info.pubkey, info.server⟩⟩ := by
  have made :=
    Option.some_get (gossipCreateEntry_isSome inet seconds info.uid info.nfd
      ⟨info.pubkey, info.server⟩)
  obtain ⟨addr, converted, entry⟩ := Option.map_eq_some_iff.mp made.symm
  exact ⟨addr, converted, entry.symm⟩

@[simp] theorem peerEntry_uid : (peerEntry inet seconds info).uid = info.uid := by
  obtain ⟨addr, -, eq⟩ := peerEntry_eq inet seconds info
  rw [eq]

/-- Every entry that a node makes has version 0. -/
@[simp] theorem peerEntry_version : (peerEntry inet seconds info).version = 0 := by
  obtain ⟨addr, -, eq⟩ := peerEntry_eq inet seconds info
  rw [eq]

end PeerEntry

inductive Sending where
  | nothing
  /-- What is copied to the packet is not what was drawn; what the copies do is undefined. -/
  | undefined
  | packet (pack : Option Protopack) (nfd : NnetFd)
deriving DecidableEq

structure GossipIter where
  system : GossipSystem
  drawn : List GossipEntry
  sending : Sending
deriving DecidableEq

/-- The part of `gossip_iter` behind the registration. -/
def gossipSend (rand : Nat → Nat) (ctxUid : UInt32) (g : GossipSystem) (info : PeerInfo) :
    GossipIter :=
  match gossipRandomEntries rand g 5 with
  | none => ⟨g, [], .undefined⟩
  | some r =>
    if r.code = 1 then ⟨g, [], .nothing⟩
    else
      { system := g
        drawn := r.entries
        sending :=
          -- the address of the variable that points to the entries, an array of one pointer
          match gossipToData [r.entries] r.entries.length with
          | .failed => .packet (udpMakePack 0 ctxUid info.uid .gossip none 0) info.nfd
          | .strayPointer => .undefined
          | .done packetData =>
            .packet (udpMakePack 0 ctxUid info.uid .gossip (some packetData) packetData.length)
              info.nfd }

/-- `gossip_iter`: `rand` are the values of `rand()`, the first of which decides whether anything
    is done, `ctxUid` is `rudp->self_uid`, and `seconds` is the clock. -/
def gossipIter (inet : Inet) (seconds : Int64) (rand : Nat → Nat) (ctxUid : UInt32)
    (g : GossipSystem) (info : PeerInfo) : GossipIter :=
  if rand 0 % 2 = 0 then ⟨g, [], .nothing⟩
  else gossipSend (fun m => rand (m + 1)) ctxUid (gossipNewEntry g (peerEntry inet seconds info))
    info

variable {inet : Inet} {seconds : Int64} {rand : Nat → Nat} {ctxUid : UInt32} {g : GossipSystem}
    {info : PeerInfo}

theorem gossipSend_empty (empty : g.gossips = []) :
    gossipSend rand ctxUid g info = ⟨g, [], .nothing⟩ := by
  have none_ : gossipRandomEntries rand g 5 = some ⟨1, g, [], []⟩ := by
    simp [gossipRandomEntries, empty]
  rw [gossipSend, none_]
  rfl

theorem gossipSend_drawn (filled : g.gossips ≠ []) :
    ∃ is, Positions g 5 is ∧ (entriesUnder g is).length = min 5 g.gossips.length ∧
      gossipSend rand ctxUid g info = {
        system := g
        drawn := entriesUnder g is
        sending :=
          match gossipToData [entriesUnder g is] (entriesUnder g is).length with
          | .failed => .packet (udpMakePack 0 ctxUid info.uid .gossip none 0) info.nfd
          | .strayPointer => .undefined
          | .done packetData =>
            .packet (udpMakePack 0 ctxUid info.uid .gossip (some packetData) packetData.length)
              info.nfd } := by
  obtain ⟨is, positions, length, drawn⟩ := randomEntries_drawn g filled 5 (by decide) rand
  refine ⟨is, positions, length, ?_⟩
  rw [gossipSend, drawn]
  rfl

/-- The store that is left is the one with the new entry registered. -/
theorem gossipSend_system : (gossipSend rand ctxUid g info).system = g := by
  by_cases empty : g.gossips = []
  · rw [gossipSend_empty empty]
  · obtain ⟨is, -, -, eq⟩ := @gossipSend_drawn rand ctxUid g info empty
    rw [eq]

/-! ## What the packet carries -/

/-- Only what was drawn is copied, and another node, whose store is empty and whose UID is none of
    the drawn ones, gets exactly the drawn entries. -/
structure CarriesDrawn (r : GossipIter) : Prop where
  defined : r.sending ≠ .undefined
  received : ∀ pack nfd, r.sending = .packet pack nfd → ∃ pk, pack = some pk ∧
    ∀ behind selfUid, (∀ e ∈ r.drawn, e.uid ≠ selfUid) →
      (gossipFromPacket behind (gossipSystemInit selfUid) pk).system.gossips = r.drawn

/-- The store knows of no peer but this one; where this one is the node itself, it knows of one
    peer. -/
def OneKnown (g : GossipSystem) (uid : UInt32) : Prop :=
  if uid = g.selfUid then g.gossips.length = 1 else ∀ e ∈ g.gossips, e.uid = uid

theorem gossipSend_one {entry : GossipEntry} (one : g.gossips = [entry]) :
    CarriesDrawn (gossipSend rand ctxUid g info) := by
  obtain ⟨is, positions, length, sends⟩ := @gossipSend_drawn rand ctxUid g info (by simp [one])
  obtain ⟨drawn, only⟩ := List.length_eq_one_iff.mp (length.trans (by rw [one]; rfl))
  rw [sends, only]
  refine ⟨by simp [gossipToData_one], ?_⟩
  rintro pack nfd ⟨⟩
  -- one entry is far below the size of a packet
  have fits : sizeofProtopack + (bytes32 (htonl 1) ++ GossipEntry.layout.image drawn).length
      ≤ udpMtu := by
    rw [List.length_append, Layout.length_image]
    decide
  obtain ⟨pk, built⟩ : ∃ pk, udpMakePack 0 ctxUid info.uid .gossip
    (some (bytes32 (htonl 1) ++ GossipEntry.layout.image drawn))
      (bytes32 (htonl 1) ++ GossipEntry.layout.image drawn).length = some pk :=
        ⟨_, udpMakePack_eq_some.mpr ⟨fits, rfl⟩⟩
  have sized : pk.Sized := by
    obtain ⟨-, rfl⟩ := udpMakePack_eq_some.mp built
    exact (toNat_ofNat_fits fits).symm
  refine ⟨pk, built, fun behind selfUid other => ?_⟩
  have foreign : ¬ drawn.uid = (gossipSystemInit selfUid).selfUid := other drawn List.mem_cons_self
  rw [gossipFromPacket_one behind _ sized (udpMakePack_payload built), gossipNewEntry,
    if_neg foreign]
  rfl

theorem gossipSend_several (several : 2 ≤ g.gossips.length) :
    ¬ CarriesDrawn (gossipSend rand ctxUid g info) := by
  obtain ⟨is, positions, length, sends⟩ :=
    @gossipSend_drawn rand ctxUid g info (List.ne_nil_of_length_pos (by omega))
  intro carries
  -- two entries are drawn, and the array of pointers has one element
  have two : 2 ≤ (entriesUnder g is).length := by omega
  refine carries.defined ?_
  rw [sends, gossipToData_stray _ two]

theorem gossipSend_carries_iff (filled : g.gossips ≠ []) :
    CarriesDrawn (gossipSend rand ctxUid g info) ↔ g.gossips.length = 1 := by
  have some_ := List.length_pos_iff.mpr filled
  by_cases one : g.gossips.length = 1
  · obtain ⟨entry, eq⟩ := List.length_eq_one_iff.mp one
    exact iff_of_true (gossipSend_one eq) one
  · exact iff_of_false (gossipSend_several (by omega)) one

/-- The registration leaves one entry exactly if there was none of another peer. -/
theorem registered_one_iff (inv : g.Inv) (entry : GossipEntry) :
    (gossipNewEntry g entry).gossips.length = 1 ↔ OneKnown g entry.uid := by
  rw [OneKnown]
  obtain ⟨same, own | ⟨existing, found, -⟩⟩ | ⟨taken, own, -⟩ := gossipNewEntry_cases inv entry
  · rw [same, if_pos own]
  · -- the entry that is there stays, and is the only one with its UID
    obtain ⟨member, uid⟩ := mem_of_stored found
    rw [same, if_neg (uid ▸ inv.foreign existing member)]
    constructor
    · intro one e others
      obtain ⟨only, eq⟩ := List.length_eq_one_iff.mp one
      rw [eq, List.mem_singleton] at member others
      rw [others, ← member, uid]
    · intro all
      have constant : g.gossips.map (·.uid) = List.replicate g.gossips.length entry.uid :=
        List.eq_replicate_of_mem (by simpa using all) |>.trans (by simp)
      have unique := inv.unique
      rw [constant, List.nodup_replicate] at unique
      have := List.length_pos_of_mem member
      omega
  · rw [taken, if_neg own]
    simp

/-- A packet carries what was drawn exactly if nothing is known of any peer but the one that it is
    sent to. -/
theorem carries_iff_one_known (inet : Inet) (seconds : Int64) (rand : Nat → Nat) (ctxUid : UInt32)
    (g : GossipSystem) (inv : g.Inv) (info : PeerInfo)
    (builds : (gossipIter inet seconds rand ctxUid g info).sending ≠ .nothing) :
    CarriesDrawn (gossipIter inet seconds rand ctxUid g info) ↔ OneKnown g info.uid := by
  by_cases coin : rand 0 % 2 = 0
  · rw [gossipIter, if_pos coin] at builds
    exact absurd rfl builds
  · rw [gossipIter, if_neg coin] at builds ⊢
    by_cases empty : (gossipNewEntry g (peerEntry inet seconds info)).gossips = []
    · rw [gossipSend_empty empty] at builds
      exact absurd rfl builds
    · rw [gossipSend_carries_iff empty]
      rw [← peerEntry_uid inet seconds info]
      exact registered_one_iff inv (peerEntry inet seconds info)

def knownPeer : PeerInfo where
  server := Naddr.zero
  state := .active
  uid := 7
  lastSeen := 0
  pubkey := Vector.replicate E2ee.keyBytes 0
  nfd := ⟨0, .inet (htons 80) sampleIp, 16⟩

theorem carries_iff_one_known_knownPeer :
    CarriesDrawn (gossipIter sampleInet 1000 (fun _ => 1) 1 (gossipSystemInit 1) knownPeer) :=
  (carries_iff_one_known sampleInet 1000 (fun _ => 1) 1 (gossipSystemInit 1)
    (gossipSystemInit_inv 1) knownPeer
    (by decide +kernel)).mpr (by simp [OneKnown, gossipSystemInit, knownPeer])

/-- With a second peer in the store, the second copy is made from where no entry is. -/
theorem second_entry_is_stray :
    (⟨[sampleEntry 3 0], 0, 1⟩ : GossipSystem).Inv ∧
      (gossipIter sampleInet 1000 (fun _ => 1) 1 ⟨[sampleEntry 3 0], 0, 1⟩ knownPeer).sending
        = .undefined ∧
      ¬ CarriesDrawn (gossipIter sampleInet 1000 (fun _ => 1) 1 ⟨[sampleEntry 3 0], 0, 1⟩
        knownPeer) := by
  have stray : (gossipIter sampleInet 1000 (fun _ => 1) 1 ⟨[sampleEntry 3 0], 0, 1⟩
      knownPeer).sending = .undefined := by
    decide +kernel
  exact ⟨⟨by decide, by decide⟩, stray, fun carries => carries.defined stray⟩

/-! ## Runs -/

structure GossipState where
  peers : PeersDb
  system : GossipSystem
deriving DecidableEq

inductive GossipAction where
  /-- `gossip_iter` for the record of a peer. -/
  | iter (uid : UInt32) (seconds : Int64) (rand : Nat → Nat)
  | cleanup (seconds : Int64)
  | unfd (uid : UInt32) (nfd : NnetFd)

namespace GossipState

variable (inet ctxUid)

def step (s : GossipState) : GossipAction → Option GossipState
  | .iter uid seconds rand =>
    (peersDbGet s.peers uid).map fun info =>
      { s with system := (gossipIter inet seconds rand ctxUid s.system info).system }
  | .cleanup seconds => some { s with system := gossipCleanup seconds s.system }
  | .unfd uid nfd => some { s with peers := peersDbUnfd s.peers uid nfd }

/-- A node that has heard of nothing yet. -/
def start (peers : PeersDb) (selfUid : UInt32) : GossipState := ⟨peers, gossipSystemInit selfUid⟩

/-- The entry is as new as the one that `gossip_iter` makes. -/
def UpToDate (seconds : Int64) (info : PeerInfo) (e : GossipEntry) : Prop :=
  lnHton (lnNfd2addr inet info.nfd) = some e.addr ∧ e.timestamp = seconds.toUInt64

/-- The step is a call of `gossip_iter` that registers an entry of this peer, not the node
    itself. -/
def Registers (s : GossipState) (info : PeerInfo) (seconds : Int64) : GossipAction → Prop
  | .iter uid now rand =>
    peersDbGet s.peers uid = some info ∧ now = seconds ∧ rand 0 % 2 ≠ 0 ∧ uid ≠ s.system.selfUid
  | .cleanup _ | .unfd _ _ => False

/-- After an entry is registered, the store has an up-to-date entry of the peer. -/
def Refreshes (s : GossipState) (a : GossipAction) : Prop :=
  ∀ info seconds, s.Registers info seconds a → ∀ s', step inet ctxUid s a = some s' →
    ∃ e, stored s'.system info.uid = some e ∧ UpToDate inet seconds info e

/-- Before an entry is registered, the store has none of the peer, unless it is of the same second
    and address. -/
def Forgotten (s : GossipState) (a : GossipAction) : Prop :=
  ∀ info seconds, s.Registers info seconds a → ∀ e, stored s.system info.uid = some e →
    UpToDate inet seconds info e

variable {inet ctxUid} {s s' : GossipState} {a : GossipAction}

theorem gossipIter_system :
    (gossipIter inet seconds rand ctxUid g info).system
      = if rand 0 % 2 = 0 then g else gossipNewEntry g (peerEntry inet seconds info) := by
  rw [gossipIter]
  split
  · rfl
  · exact gossipSend_system

theorem step_inv (inv : s.system.Inv) (h : step inet ctxUid s a = some s') : s'.system.Inv := by
  cases a with
  | iter uid seconds rand =>
    obtain ⟨info, -, rfl⟩ := Option.map_eq_some_iff.mp h
    rw [gossipIter_system]
    split
    · exact inv
    · exact gossipNewEntry_inv inv _
  | cleanup seconds =>
    cases h
    exact gossipCleanup_inv inv seconds
  | unfd uid nfd =>
    cases h
    exact inv

/-- A new entry has version 0, so it is dropped wherever there is one of the peer. -/
theorem refreshes_iff (inv : s.system.Inv) : Refreshes inet ctxUid s a ↔ Forgotten inet s a := by
  refine forall_congr' fun info => forall_congr' fun seconds => forall_congr' fun registers => ?_
  cases a with
  | cleanup seconds => exact registers.elim
  | unfd uid nfd => exact registers.elim
  | iter uid now rand =>
    obtain ⟨found, rfl, coin, other⟩ := registers
    have uid_ : info.uid = uid := uid_of_get found
    have next : step inet ctxUid s (.iter uid now rand)
        = some { s with system := gossipNewEntry s.system (peerEntry inet now info) } := by
      simp only [step, found, Option.map_some, gossipIter_system, if_neg coin]
    simp only [next, Option.some.injEq, forall_eq']
    have named := peerEntry_uid inet now info
    obtain ⟨same, own | ⟨existing, there, -⟩⟩ | ⟨taken, -, newer⟩ :=
      gossipNewEntry_cases inv (peerEntry inet now info)
    · exact absurd (uid_.symm.trans (named.symm.trans own)) other
    · -- the entry that is there stays
      rw [same]
      rw [named] at there
      simp only [there, Option.some.injEq, exists_eq_left', forall_eq']
    · -- version 0 is newer than nothing
      have none_ : stored s.system info.uid = none := by
        cases there : stored s.system info.uid with
        | none => rfl
        | some existing =>
          have old := newer existing (named ▸ there)
          rw [peerEntry_version] at old
          exact absurd UInt32.zero_le old
      have new : stored (gossipNewEntry s.system (peerEntry inet now info)) info.uid
          = some (peerEntry inet now info) := by
        rw [taken, stored, stored_replaced, named]
        exact if_pos rfl
      obtain ⟨addr, converted, made⟩ := peerEntry_eq inet now info
      have fresh : UpToDate inet now info (peerEntry inet now info) := by
        rw [made]
        exact ⟨converted, rfl⟩
      rw [none_, new]
      exact iff_of_true ⟨_, rfl, fresh⟩ (by simp)

end GossipState

/-- In a run of `gossip_iter`, cleanups and changes of address, the entry of a peer is up to date
    after each registration exactly if each finds no older entry of the peer. -/
theorem refreshed_iff_forgotten (inet : Inet) (ctxUid selfUid : UInt32) (peers : PeersDb)
    (as : List GossipAction) :
    (∀ bs a s, bs ++ [a] <+: as →
        Transition.run (GossipState.step inet ctxUid) (GossipState.start peers selfUid) bs
          = some s →
        GossipState.Refreshes inet ctxUid s a) ↔
      Transition.Meets (GossipState.step inet ctxUid) (GossipState.Forgotten inet)
        (GossipState.start peers selfUid) as :=
  Transition.steps_iff_meets (I := fun s => s.system.Inv) (fun _ _ _ => GossipState.step_inv)
    (fun _ _ => GossipState.refreshes_iff) (gossipSystemInit_inv selfUid)

/-! ## A peer that moves -/

/-- The peer gets a new port between two calls, five seconds apart. -/
def peerMoves : List GossipAction :=
  [.iter 7 1000 fun _ => 1, .unfd 7 ⟨0, .inet (htons 81) sampleIp, 16⟩, .iter 7 1005 fun _ => 1]

def movedPeer : PeerInfo := { knownPeer with nfd := ⟨0, .inet (htons 81) sampleIp, 16⟩ }

/-- The node at the second call, which knows the address of the first. -/
def atSecondCall : GossipState :=
  ⟨peersDbAdd PeersDb.empty movedPeer,
    gossipNewEntry (gossipSystemInit 1) (peerEntry sampleInet 1000 knownPeer)⟩

theorem moved_peer_is_stale :
    Transition.run (GossipState.step sampleInet 1)
      (GossipState.start (peersDbAdd PeersDb.empty knownPeer) 1)
        (peerMoves.take 2) = some atSecondCall ∧
      ¬ ∀ bs a s, bs ++ [a] <+: peerMoves →
        Transition.run (GossipState.step sampleInet 1)
          (GossipState.start (peersDbAdd PeersDb.empty knownPeer) 1) bs
          = some s → GossipState.Refreshes sampleInet 1 s a := by
  have reached : Transition.run (GossipState.step sampleInet 1)
      (GossipState.start (peersDbAdd PeersDb.empty knownPeer) 1)
      (peerMoves.take 2) = some atSecondCall := by decide +kernel
  refine ⟨reached, fun refreshes => ?_⟩
  have found : peersDbGet atSecondCall.peers 7 = some movedPeer := by decide +kernel
  obtain ⟨s, next, system⟩ : ∃ s, GossipState.step sampleInet 1 atSecondCall
    (.iter 7 1005 fun _ => 1) = some s ∧
      s.system
        = (gossipIter sampleInet 1005 (fun _ => 1) 1 atSecondCall.system movedPeer).system := by
    rw [GossipState.step, found]
    exact ⟨_, rfl, by dsimp only⟩
  obtain ⟨e, there, -, stamp⟩ := refreshes (peerMoves.take 2) (.iter 7 1005 fun _ => 1) atSecondCall
    (List.prefix_refl peerMoves) reached movedPeer 1005 ⟨found, rfl, by decide, by decide⟩ s next
  -- the store keeps the entry of the first call, as both have version 0
  have old : (stored (gossipIter sampleInet 1005 (fun _ => 1) 1 atSecondCall.system
      movedPeer).system movedPeer.uid).map
      (·.timestamp) = some 1000 := by decide +kernel
  rw [← system, there, Option.map_some, stamp] at old
  exact absurd (Option.some.inj old) (by decide)

end Soter2.Interface
