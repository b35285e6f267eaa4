import Mathlib.Data.List.Basic
import Mathlib.Logic.Function.Basic
import Mathlib.Tactic.Common
import Soter2.Library.Potential
import Soter2.Peers.System

/-! # Hosts fall silent (`interface/src/handlers.c`)

The handlers answer packets with packets.  A PUNCH, a PING and a HELLO is worth two
deliveries, any other packet one, and so is a record in its first state, which answers an ACK.

* `Handled.pays` — what a handler sends and stores is worth less than what it was given.
* `deliveries_bounded` — so the packets between any number of hosts come to an end.
-/

namespace Soter2.Peers

open Soter2.Lownet Soter2.Protocol
open Soter2.E2ee (Bytes keyBytes)

/-! ## Records in their first state -/

/-- How many records are in their first state. -/
def initedCount (db : PeersDb) : Nat := db.data.entries.countP fun e => e.2.state = .inited

/-- 1 for a record in its first state. -/
def fresh (info : PeerInfo) : Nat := if info.state = .inited then 1 else 0

variable {ctx : AppContext} {db : PeersDb} {pck : Protopack} {nfd : NnetFd} {info : PeerInfo}
    {uid : UInt32}

theorem initedCount_remove (known : peersDbGet db uid = some info) :
    initedCount db = initedCount (peersDbRemove db uid) + fresh info := by
  rw [initedCount, (AssocTable.entries_perm known).countP_eq, List.countP_cons]
  simp [fresh, initedCount, peersDbRemove]

theorem peersDbRemove_unknown (unknown : peersDbGet db uid = none) :
    (peersDbRemove db uid).data = db.data :=
  AssocTable.remove_of_get_none unknown

theorem initedCount_remove_le (db : PeersDb) (uid : UInt32) :
    initedCount (peersDbRemove db uid) ≤ initedCount db := by
  cases known : peersDbGet db uid with
  | none => rw [initedCount, initedCount, peersDbRemove_unknown known]
  | some info =>
    rw [initedCount_remove known]
    exact Nat.le_add_right _ _

theorem initedCount_add (db : PeersDb) (info : PeerInfo) :
    initedCount (peersDbAdd db info) = initedCount (peersDbRemove db info.uid) + fresh info := by
  rw [initedCount, show (peersDbAdd db info).data = db.data.set info.uid info from rfl,
    (AssocTable.entries_set_perm db.data info.uid info).countP_eq, List.countP_cons]
  simp [fresh, initedCount, peersDbRemove]

theorem initedCount_add_le (db : PeersDb) (info : PeerInfo) :
    initedCount (peersDbAdd db info) ≤ initedCount db + fresh info := by
  have removed := initedCount_remove_le db info.uid
  rw [initedCount_add]
  omega

/-- A write to a record counts as the record before it and after it. -/
theorem initedCount_modify (f : PeerInfo → PeerInfo) (same : ∀ info, (f info).uid = info.uid)
    (known : peersDbGet db uid = some info) :
    initedCount (db.modify uid f same) + fresh info = initedCount db + fresh (f info) := by
  have removed := initedCount_remove known
  have written : initedCount (db.modify uid f same) = initedCount (peersDbRemove db uid) +
      fresh (f info) := by
    rw [initedCount, show (db.modify uid f same).data = db.data.modify uid f from rfl,
      (AssocTable.entries_modify_perm known f).countP_eq, List.countP_cons]
    simp [fresh, initedCount, peersDbRemove]
  omega

/-- A write that puts no record in its first state. -/
theorem initedCount_modify_le {f : PeerInfo → PeerInfo} {same : ∀ info, (f info).uid = info.uid}
    (less : ∀ info, fresh (f info) ≤ fresh info) :
    initedCount (db.modify uid f same) ≤ initedCount db := by
  cases known : peersDbGet db uid with
  | none =>
    have unchanged : (db.modify uid f same).data = db.data := AssocTable.modify_absent known f
    rw [initedCount, initedCount, unchanged]
  | some info =>
    have written := initedCount_modify f same known
    have := less info
    omega

/-! ## What a packet is worth -/

/-- The type that the handler is registered for. -/
def PeerPacket.packtype : PeerPacket → ProtopackType
  | .ack => .ack
  | .punch => .punch
  | .ping => .ping
  | .pong => .pong
  | .hello => .hello
  | .hello2 => .hello2

/-- The handler that the watcher gives a packet to, if it is one of these. -/
def peerPacketOf (pck : Protopack) : Option PeerPacket :=
  [PeerPacket.ack, .punch, .ping, .pong, .hello, .hello2].find? fun type =>
    type.packtype.code = pck.packtype

def PeerPacket.worth : PeerPacket → Nat
  | .punch | .ping | .hello => 2
  | .ack | .pong | .hello2 => 1

def worth (pck : Protopack) : Nat :=
  match peerPacketOf pck with
  | some type => type.worth
  | none => 0

/-- The packets that were really built, each with the address that it is sent to. -/
def underWay (sent : List (Option Protopack × NnetFd)) : List (NnetFd × Protopack) :=
  sent.filterMap fun m => m.1.map (m.2, ·)

def load (net : List (NnetFd × Protopack)) : Nat := (net.map fun m => worth m.2).sum

theorem worth_of_type {type : PeerPacket} (h : peerPacketOf pck = some type) :
    worth pck = type.worth := by
  rw [worth, h]

theorem load_append (net net' : List (NnetFd × Protopack)) :
    load (net ++ net') = load net + load net' := by
  rw [load, List.map_append, List.sum_append]
  rfl

theorem load_quick (hashFrom hashTo seq : UInt32) (type : PeerPacket) (dest : NnetFd) :
    load (underWay [(protoMsgQuick hashFrom hashTo seq type.packtype, dest)]) = type.worth := by
  cases type <;> rfl

/-! ## What the handlers do with it -/

/-- What the handler sends and stores is worth less than the packet and what was stored. -/
def Handled.Pays (db : PeersDb) (type : PeerPacket) (handled : Handled) : Prop :=
  load (underWay handled.sent) + initedCount handled.db + 1 ≤ type.worth + initedCount db

theorem Handled.Pays.of_silent {type : PeerPacket} {handled : Handled} (silent : handled.sent = [])
    (stored : initedCount handled.db ≤ initedCount db) : handled.Pays db type := by
  have one : 1 ≤ type.worth := by cases type <;> decide
  rw [Handled.Pays, silent]
  simp only [underWay, List.filterMap_nil, load, List.map_nil, List.sum_nil]
  omega

theorem initedCount_schange_le (db : PeersDb) (uid : UInt32) {newState : PeerState}
    (other : newState ≠ .inited) : initedCount (peersDbSchange db uid newState) ≤ initedCount db :=
  initedCount_modify_le fun info => by simp [fresh, other]

theorem initedCount_unfd_le (db : PeersDb) (uid : UInt32) (nfd : NnetFd) :
    initedCount (peersDbUnfd db uid nfd) ≤ initedCount db := initedCount_modify_le fun _ =>
      Nat.le_refl _

theorem initedCount_utime_le (db : PeersDb) (uid now : UInt32) :
    initedCount (peersDbUtime db uid now) ≤ initedCount db :=
  initedCount_modify_le fun _ => Nat.le_refl _

/-- A record that leaves its first state. -/
theorem initedCount_schange (newState : PeerState) (known : peersDbGet db uid = some info)
    (inited : info.state = .inited)
    (other : newState ≠ .inited) : initedCount (peersDbSchange db uid newState) +
    1 = initedCount db := by
  have written := initedCount_modify (fun info => { info with state := newState }) (fun _ => rfl)
    known
  simpa [fresh, inited, other, peersDbSchange] using written

theorem ack_pays (ctx : AppContext) (db : PeersDb) (pck : Protopack) (nfd : NnetFd) :
    (soter2HndAck ctx db pck nfd).Pays db .ack := by
  rw [soter2HndAck]
  split
  · exact .of_silent rfl (Nat.le_refl _)
  next info known =>
    have uid := uid_of_get known
    by_cases inited : info.state = .inited
    · have paid := initedCount_schange .active known inited (by decide)
      have answer := load_quick ctx.selfUid info.uid 0 .ack info.nfd
      simp only [Handled.Pays, if_pos inited, uid] at answer ⊢
      rw [show ProtopackType.ack = PeerPacket.ack.packtype from rfl, answer]
      simp only [PeerPacket.worth]
      omega
    · exact .of_silent (if_neg inited) (initedCount_schange_le _ _ (by decide))

/-- A PUNCH is answered by an ACK, and a record in its first state leaves it. -/
theorem punchKnown_pays (ctx : AppContext) (nfd : NnetFd)
    (stored : peersDbGet db info.uid = some info) :
    load (underWay (punchKnown ctx db info nfd).sent) +
      initedCount (punchKnown ctx db info nfd).db + fresh info
      ≤ 1 + initedCount db := by
  have answer := load_quick ctx.selfUid info.uid 0 .ack nfd
  have readdressed := initedCount_unfd_le db info.uid nfd
  -- the address is written first, and leaves the state
  have kept : peersDbGet (peersDbUnfd db info.uid nfd) info.uid
      = some { info with nfd := nfd } := by
    rw [peersDbUnfd, get_modify_self, stored]
    rfl
  by_cases inited : info.state = .inited
  · -- the record leaves its first state, and pays for the ACK
    have paid := initedCount_schange .natpunching kept inited (by decide)
    rw [punchKnown_inited inited]
    simp only [fresh, inited, if_true]
    rw [show ProtopackType.ack = PeerPacket.ack.packtype from rfl, answer]
    simp only [PeerPacket.worth]
    omega
  · rw [fresh, if_neg inited, punchKnown]
    split
    · simp only [underWay, List.filterMap_nil, load, List.map_nil, List.sum_nil]
      omega
    next accepted =>
      have punching : info.state = .natpunching := by tauto
      simp only [if_pos punching]
      rw [show ProtopackType.ack = PeerPacket.ack.packtype from rfl, answer]
      simp only [PeerPacket.worth]
      omega

theorem punch_pays (ctx : AppContext) (db : PeersDb) (pck : Protopack) (nfd : NnetFd) :
    (soter2HndPunch ctx db pck nfd).Pays db .punch := by
  obtain introduces | ⟨-, ⟨info, known, handled⟩ | dropped⟩ := soter2HndPunch_cases ctx db pck nfd
  · -- the record that is added is in its first state, but not for long
    have paid := punchKnown_pays ctx nfd (get_peersDbAdd_self db (embeddedInfo ctx pck))
    have added := initedCount_add_le db (embeddedInfo ctx pck)
    rw [soter2HndPunch_introduces introduces, Handled.Pays, PeerPacket.worth]
    omega
  · have paid := punchKnown_pays ctx nfd (uid_of_get known ▸ known)
    rw [handled, Handled.Pays, PeerPacket.worth]
    omega
  · rw [dropped]
    exact .of_silent rfl (Nat.le_refl _)

theorem ping_pays (ctx : AppContext) (db : PeersDb) (pck : Protopack) (nfd : NnetFd) :
    (soter2HndPing ctx db pck nfd).Pays db .ping := by
  have answer := load_quick ctx.selfUid pck.hFrom pck.seq .pong nfd
  have stored := initedCount_utime_le db pck.hFrom ctx.now
  rw [soter2HndPing, Handled.Pays, show ProtopackType.pong = PeerPacket.pong.packtype from rfl,
    answer]
  simp only [PeerPacket.worth]
  omega

theorem hello_pays (ctx : AppContext) (db : PeersDb) (pck : Protopack) (nfd : NnetFd) :
    (soter2HndHello ctx db pck nfd).Pays db .hello := by
  rw [soter2HndHello]
  split
  · exact .of_silent rfl (Nat.le_refl _)
  · have answer := load_quick ctx.selfUid pck.hFrom 0 .hello2 nfd
    have added : initedCount (peersDbAdd db { embeddedInfo ctx pck with state := .active })
      ≤ initedCount db :=
      initedCount_add_le db { embeddedInfo ctx pck with state := .active }
    rw [Handled.Pays, show ProtopackType.hello2 = PeerPacket.hello2.packtype from rfl, answer]
    exact Nat.succ_le_succ (Nat.add_le_add_left added 1) |>.trans
      (Nat.le_of_eq (by rw [PeerPacket.worth]; omega))

theorem hello2_pays (ctx : AppContext) (db : PeersDb) (pck : Protopack) (nfd : NnetFd) :
    (soter2HndHello2 ctx db pck nfd).Pays db .hello2 := by
  rw [soter2HndHello2]
  split
  · exact .of_silent rfl (Nat.le_refl _)
  · exact .of_silent rfl (initedCount_schange_le _ _ (by decide))

theorem handler_pays (type : PeerPacket) (ctx : AppContext) (db : PeersDb) (pck : Protopack)
    (nfd : NnetFd) : (type.handler ctx db pck nfd).Pays db type := by
  cases type with
  | ack => exact ack_pays ctx db pck nfd
  | punch => exact punch_pays ctx db pck nfd
  | ping => exact ping_pays ctx db pck nfd
  | pong => exact .of_silent rfl (initedCount_utime_le _ _ _)
  | hello => exact hello_pays ctx db pck nfd
  | hello2 => exact hello2_pays ctx db pck nfd

/-! ## Any number of hosts -/

/-- What the handlers of a host know of it. -/
structure SwarmHost where
  selfUid : UInt32
  inet : Inet
  sockAddr : Naddr
  idPub : Bytes keyBytes

/-- The databases of all hosts, and the packets on their way. -/
structure Swarm (ι : Type*) where
  db : ι → PeersDb
  net : List (NnetFd × Protopack)

inductive SwarmAction (ι : Type*) where
  /-- The program of a host asks for a peer and punches it. -/
  | connect (p : ι) (addr servAddr : Naddr) (uid : UInt32) (pubkey : Bytes keyBytes) (now : UInt32)
  /-- The daemon of a host pings a peer. -/
  | ping (p : ι) (uid : UInt32)
  /-- A host forgets a peer. -/
  | forget (p : ι) (uid : UInt32)
  /-- Anyone sends any packet. -/
  | inject (dest : NnetFd) (pck : Protopack)
  /-- A packet arrives at a host, from an address. -/
  | deliver (i : Nat) (p : ι) (nfd : NnetFd) (now : UInt32)
  | lose (i : Nat)

namespace Swarm

variable {ι : Type*} [DecidableEq ι] (hosts : ι → SwarmHost)

def context (p : ι) (now : UInt32) : AppContext := ⟨(hosts p).selfUid, (hosts p).inet, now⟩

def step (w : Swarm ι) : SwarmAction ι → Option (Swarm ι)
  | .connect p addr servAddr uid pubkey now =>
    let ctx := context hosts p now
    let db := s2SysNewPeer ctx (w.db p) addr servAddr uid pubkey
    let (_, sent) := s2SysNatPunch ctx (hosts p).sockAddr (hosts p).idPub db uid
    some ⟨Function.update w.db p db, w.net ++ underWay sent⟩
  | .ping p uid =>
    (peersDbGet (w.db p) uid).map fun info =>
      { w with
        net := w.net ++ underWay [(protoMsgQuick (hosts p).selfUid info.uid 0 .ping, info.nfd)] }
  | .forget p uid => some { w with db := Function.update w.db p (peersDbRemove (w.db p) uid) }
  | .inject dest pck => some { w with net := w.net ++ [(dest, pck)] }
  | .deliver i p nfd now =>
    w.net[i]?.bind fun m => (peerPacketOf m.2).map fun type =>
      let handled := type.handler (context hosts p now) (w.db p) m.2 nfd
      ⟨Function.update w.db p handled.db, w.net.eraseIdx i ++ underWay handled.sent⟩
  | .lose i => w.net[i]?.map fun _ => { w with net := w.net.eraseIdx i }

/-- How many packets the step delivers. -/
def delivered : SwarmAction ι → Nat
  | .deliver .. => 1
  | _ => 0

/-- How many deliveries the step can lead to. -/
def cost : SwarmAction ι → Nat
  | .connect .. => 3
  | .ping .. => 2
  | .inject _ pck => worth pck
  | _ => 0

variable [Fintype ι]

/-- How many deliveries are still to come at most. -/
def burden (w : Swarm ι) : Nat := load w.net + Potential.total initedCount w.db

variable {hosts}

theorem load_eraseIdx {net : List (NnetFd × Protopack)} {i : Nat} {m : NnetFd × Protopack}
    (found : net[i]? = some m) : load net = worth m.2 + load (net.eraseIdx i) := by
  obtain ⟨inside, rfl⟩ := List.getElem?_eq_some_iff.mp found
  rw [load, ((List.getElem_cons_eraseIdx_perm inside).symm.map _).sum_eq, List.map_cons,
    List.sum_cons]
  rfl

/-- A connect step stores a record in its first state, and sends a PUNCH. -/
theorem connect_burden {w w' : Swarm ι} {p : ι} {addr servAddr : Naddr} {uid : UInt32}
    {pubkey : Bytes keyBytes} {now : UInt32}
    (h : step hosts w (.connect p addr servAddr uid pubkey now) = some w') :
    w'.burden ≤ w.burden + 3 := by
  have punch := get_s2SysNewPeer (context hosts p now) (w.db p) addr servAddr uid pubkey
  have added := initedCount_add_le (w.db p)
    ⟨servAddr, .inited, uid, now, pubkey, lnNetfdq (hosts p).inet addr⟩
  have total := Potential.total_update initedCount w.db p
    (s2SysNewPeer (context hosts p now) (w.db p) addr servAddr uid pubkey)
  simp only [step, s2SysNatPunch, punch, protoPunchMsg_image, Option.some.injEq] at h
  subst h
  -- the PUNCH is worth two deliveries, and the record one
  have packet : ∀ data,
      load (underWay [(some ⟨0, 0, 140, (hosts p).selfUid, uid, ProtopackType.punch.code, data⟩,
      lnNetfdq (hosts p).inet addr)]) = 2 := fun _ => rfl
  simp only [burden, load_append]
  rw [show (context hosts p now).selfUid = (hosts p).selfUid from rfl,
    show (context hosts p now).inet = (hosts p).inet from rfl, packet]
  have one : fresh ⟨servAddr, .inited, uid, now, pubkey, lnNetfdq (hosts p).inet addr⟩ = 1 := rfl
  have stored : initedCount (s2SysNewPeer (context hosts p now) (w.db p) addr servAddr uid pubkey)
      ≤ initedCount (w.db p) + 1 :=
    added.trans (Nat.le_of_eq (by rw [one]))
  omega

theorem step_pays (w : Swarm ι) (a : SwarmAction ι) (w' : Swarm ι) (h : step hosts w a = some w') :
    delivered a + w'.burden ≤ w.burden + cost a := by
  cases a with
  | connect p addr servAddr uid pubkey now =>
    have := connect_burden h
    simp only [delivered, cost]
    omega
  | ping p uid =>
    obtain ⟨info, -, rfl⟩ := Option.map_eq_some_iff.mp h
    -- a PING is worth its own delivery and that of the answer
    have ping := load_quick (hosts p).selfUid info.uid 0 .ping info.nfd
    simp only [delivered, cost, burden, load_append]
    rw [show ProtopackType.ping = PeerPacket.ping.packtype from rfl, ping]
    simp only [PeerPacket.worth]
    omega
  | forget p uid =>
    cases h
    have total := Potential.total_update initedCount w.db p (peersDbRemove (w.db p) uid)
    have removed := initedCount_remove_le (w.db p) uid
    simp only [delivered, cost, burden]
    omega
  | inject dest pck =>
    cases h
    have one : load [(dest, pck)] = worth pck := by simp [load]
    simp only [delivered, cost, burden, load_append, one]
    omega
  | deliver i p nfd now =>
    obtain ⟨m, found, h⟩ := Option.bind_eq_some_iff.mp h
    obtain ⟨type, ofType, rfl⟩ := Option.map_eq_some_iff.mp h
    -- the packet taken from the net pays for what its handler sends and for the record it may open
    have paid := handler_pays type (context hosts p now) (w.db p) m.2 nfd
    have total := Potential.total_update initedCount w.db p
      (type.handler (context hosts p now) (w.db p) m.2 nfd).db
    have taken := load_eraseIdx found
    rw [worth_of_type ofType] at taken
    simp only [Handled.Pays] at paid
    simp only [delivered, cost, burden, load_append]
    omega
  | lose i =>
    obtain ⟨m, found, rfl⟩ := Option.map_eq_some_iff.mp h
    have taken := load_eraseIdx found
    simp only [delivered, cost, burden]
    omega

/-- In every run the packets delivered are no more than those on their way at the start, what they
    lead to, and three for each peer that was asked for, two for each PING, and one or two for each
    packet from elsewhere. -/
theorem deliveries_bounded (hosts : ι → SwarmHost) (w w' : Swarm ι) (as : List (SwarmAction ι))
    (h : Transition.run (step hosts) w as = some w') :
    (as.map delivered).sum + w'.burden ≤ w.burden + (as.map cost).sum :=
  Potential.run_budget step_pays h

/-- Hosts 1 and 2. -/
def sampleSwarm (p : Bool) : SwarmHost where
  selfUid := if p then 2 else 1
  inet := sampleInet
  sockAddr := (Address.ipv4 sampleText 80).naddr
  idPub := Vector.replicate 32 0

/-- Host 1 asks for host 2, and the PUNCH and both ACKs arrive. -/
def sampleExchange : List (SwarmAction Bool) :=
  [.connect false (Address.ipv4 sampleText 80).naddr Naddr.zero 2 (Vector.replicate 32 0) 0,
    .deliver 0 true ⟨3, .unspec, 0⟩ 0,
    .deliver 0 false ⟨3, .unspec, 0⟩ 0, .deliver 0 true ⟨3, .unspec, 0⟩ 0]

/-- The bound is met: three packets are delivered, and nothing more can come of it. -/
theorem deliveries_bounded_met :
    ∃ w', Transition.run (step sampleSwarm) ⟨fun _ => PeersDb.empty, []⟩ sampleExchange = some w' ∧
      (sampleExchange.map delivered).sum = 3 ∧ w'.burden = 0 := by
  obtain ⟨w', reached⟩ := Option.isSome_iff_exists.mp
    (show (Transition.run (step sampleSwarm) ⟨fun _ => PeersDb.empty, []⟩ sampleExchange).isSome by
      decide +kernel)
  have bound := deliveries_bounded sampleSwarm _ w' sampleExchange reached
  have start : burden (⟨fun _ => PeersDb.empty, []⟩ : Swarm Bool) = 0 := by decide
  have three : (sampleExchange.map delivered).sum = 3 := by decide
  have paid : (sampleExchange.map cost).sum = 3 := by decide
  exact ⟨w', reached, three, by omega⟩

end Swarm

end Soter2.Peers
