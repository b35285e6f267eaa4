import Mathlib.Algebra.Group.Int.Defs
import Mathlib.Data.List.Basic
import Mathlib.Tactic.Common
import Soter2.Interface.Daemons
import Soter2.Interface.Gossip
import Soter2.Interface.LastSeen
import Soter2.Stating.State

/-! # A call of the I/O daemon (`interface/src/daemons.c`)

`_daemon_io` reads the clock, waits for packets, and unless they come too fast asks the state
servers, looks after the peers and gossips; then it passes the packets on.  The other threads
go on between any two of its steps.

* `paced` — how often the daemon asks the servers and gossips.
-/

namespace Soter2.Interface

open Base E2ee Gossip Lownet Peers Protocol Rudp Stating Turn
open Watching (ListenerPacket)

structure S2StateIntr where
  addr : Naddr
  reqDt : Int

/-- `s2_analysis`.  Of the packet rate only the comparison with 1 is ever read. -/
structure S2Analysis where
  stateLastCalled : Int
  packetsTimestamp : Int
  packetsTranslated : UInt32
  rateAboveOne : Bool

/-- What the daemon reads and no thread writes. -/
structure IoConfig where
  inet : Inet
  sodium : Sodium
  selfSign : Sign
  sockAddr : Naddr
  /-- Whether this many packets in so many milliseconds are more than one in a second, in
      `float`. -/
  aboveOne : UInt32 → Int → Bool

/-- Where a call stands. -/
inductive Stage where
  /-- In front of the next call. -/
  | idle
  | waiting
  /-- The loop of `ping_iter` over the snapshot, with the peers that are left of it. -/
  | pinging (snapshot rest : List PeerInfo)
  | gossiping (rest : List PeerInfo)
  /-- The loop over the packets of the listener. -/
  | passing
  | ended
deriving DecidableEq

structure IoDaemon where
  /-- How often `_daemon_io` was called. -/
  calls : Nat
  io : DaemonIo
  gossipSys : GossipSystem
  analysis : S2Analysis
  servers : List S2StateIntr
  /-- `ctx.now_ms`. -/
  nowMs : Int
  /-- Whether the wait of this call was ended by a packet. -/
  woken : Bool
  stage : Stage
  sent : List (Option Protopack × NnetFd)
  closing : List Protopack

def IoDaemon.create (uid truid : UInt32) (servers : List S2StateIntr) (nowMs : Int) : IoDaemon where
  calls := 0
  io := ⟨s2ConnectionsCreate uid, ⟨truid, uid, AssocTable.empty, AssocTable.empty⟩, [], [], []⟩
  gossipSys := gossipSystemInit uid
  analysis := ⟨0, 0, 0, false⟩
  servers := servers
  nowMs := nowMs
  woken := false
  stage := .idle
  sent := []
  closing := []

/-- `state_iter`: what is given to `pvd_sender_send`. -/
def stateIter (cfg : IoConfig) (selfUid nonce : UInt32) (timestamp : Int64)
    (servers : List S2StateIntr) : Option (List (Option Protopack × NnetFd)) :=
  (stateRcreate cfg.sodium nonce timestamp cfg.sockAddr selfUid .requestPeers
    cfg.selfSign).map fun r =>
    let pack := udpMakePack 0 selfUid 0 .state (some (StateRequest.layout.image r))
      StateRequest.layout.size
    (servers.filter fun st => st.reqDt ≠ 0).map fun st => (pack, lnNetfdq cfg.inet st.addr)

/-- The packet rate of the last second or more. -/
def measureRate (cfg : IoConfig) (nowMs : Int) (analysis : S2Analysis) : S2Analysis :=
  if nowMs - analysis.packetsTimestamp ≥ 1000 then
    { analysis with
      rateAboveOne := cfg.aboveOne analysis.packetsTranslated (nowMs - analysis.packetsTimestamp)
      packetsTimestamp := nowMs
      packetsTranslated := 0 }
  else analysis

namespace IoDaemon

def peers (d : IoDaemon) : PeersDb := d.io.conns.peers

def selfUid (d : IoDaemon) : UInt32 := d.io.conns.disp.selfUid

/-- The label `skip_addt`. -/
def skipAddt (d : IoDaemon) : IoDaemon := { d with stage := if d.woken then .passing else .idle }

/-- The requests to the state servers, when they are due. -/
def askServers (cfg : IoConfig) (nonce : UInt32) (timestamp : Int64) (d : IoDaemon) :
    Option IoDaemon :=
  if d.nowMs - d.analysis.stateLastCalled ≥ 3 * 1000 then
    (stateIter cfg d.selfUid nonce timestamp d.servers).map fun asks =>
      { d with
        sent := d.sent ++ asks
        analysis := { d.analysis with stateLastCalled := d.nowMs } }
  else some d

/-- From the end of the wait, which returned `r`, to the snapshot. -/
def wake (cfg : IoConfig) (r : Int) (nonce : UInt32) (timestamp : Int64) (d : IoDaemon) :
    Option IoDaemon :=
  if r < 0 then some { d with stage := .ended }
  else
    let d := { d with woken := r ≠ 0, analysis := measureRate cfg d.nowMs d.analysis }
    if d.analysis.rateAboveOne then some d.skipAddt
    else
      (d.askServers cfg nonce timestamp).map fun d =>
        { d with stage := .pinging (peersDbSnapshot d.peers) (peersDbSnapshot d.peers) }

/-- `ping_iter` for a peer of the snapshot, and the removal of a dead peer. -/
def pingPeer (info : PeerInfo) (d : IoDaemon) : IoDaemon :=
  let r := pingIterCall d.nowMs d.io.conns.disp info
  { d with
    io := { d.io with conns := { d.io.conns with
      disp := r.disp
      peers := if r.code = 1 then peersDbRemove d.peers info.uid else d.peers } }
    sent := d.sent ++ r.sent
    closing := d.closing ++ r.closing }

/-- `gossip_iter` for a peer of the snapshot. -/
def gossipPeer (cfg : IoConfig) (seconds : Int64) (rand : Nat → Nat) (info : PeerInfo)
    (d : IoDaemon) : Option IoDaemon :=
  let r := gossipIter cfg.inet seconds rand d.selfUid d.gossipSys info
  match r.sending with
  | .nothing => some { d with gossipSys := r.system }
  | .packet pack nfd => some { d with gossipSys := r.system, sent := d.sent ++ [(pack, nfd)] }
  | .undefined => none

end IoDaemon

/-- A step of the daemon or of another thread, with what it reads. -/
inductive IoAction where
  | call (nowMs : Int)
  /-- The wait returns `r`; the nonce and the time are those of a state request. -/
  | wake (r : Int) (nonce : UInt32) (timestamp : Int64)
  | ping
  /-- The pings are done, and `gossip_cleanup` reads the clock. -/
  | endPings (seconds : Int64)
  | gossip (seconds : Int64) (rand : Nat → Nat)
  | endGossip
  /-- A packet of the listener, and the clock that `peers_db_utime` reads. -/
  | pass (pkt : ListenerPacket) (nowMs : Int)
  /-- The listener has no more packets. -/
  | endPass
  /-- Another thread writes to the peers. -/
  | peers (write : DbWrite)
  /-- Other threads write to the rest of what they share with the daemon. -/
  | others (disp : RudpDispatcher) (made : List UInt32) (active : AssocTable UInt32 ConnPtr)
      (gossips : List GossipEntry) (turnCli : TurnClient) (servers : List S2StateIntr)

namespace IoDaemon

def step (cfg : IoConfig) (d : IoDaemon) : IoAction → Option IoDaemon
  | .call nowMs =>
    match d.stage with
    | .idle => some { d with calls := d.calls + 1, nowMs := nowMs, stage := .waiting }
    | _ => none
  | .wake r nonce timestamp =>
    match d.stage with
    | .waiting => d.wake cfg r nonce timestamp
    | _ => none
  | .ping =>
    match d.stage with
    | .pinging snapshot (info :: rest) =>
      some { d.pingPeer info with stage := .pinging snapshot rest }
    | _ => none
  | .endPings seconds =>
    match d.stage with
    | .pinging snapshot [] =>
      if d.nowMs - d.gossipSys.lastGossiped.toNat ≥ 5 * 1000 then
        some { d with gossipSys := gossipCleanup seconds d.gossipSys, stage := .gossiping snapshot }
      else some d.skipAddt
    | _ => none
  | .gossip seconds rand =>
    match d.stage with
    | .gossiping (info :: rest) =>
      (d.gossipPeer cfg seconds rand info).map fun d => { d with stage := .gossiping rest }
    | _ => none
  | .endGossip =>
    match d.stage with
    | .gossiping [] =>
      some { d with gossipSys := { d.gossipSys with lastGossiped := lastSeenOf d.nowMs } }.skipAddt
    | _ => none
  | .pass pkt nowMs =>
    match d.stage with
    | .passing =>
      (d.io.handle pkt nowMs).map fun io => { d with
        io := io
        analysis := { d.analysis with packetsTranslated := d.analysis.packetsTranslated + 1 } }
    | _ => none
  | .endPass =>
    match d.stage with
    | .passing => some { d with stage := .idle }
    | _ => none
  | .peers write =>
    some { d with
      io := { d.io with conns := { d.io.conns with peers := write.apply cfg.inet d.peers } } }
  | .others disp made active gossips turnCli servers =>
    some { d with
      io := { d.io with
        conns := { d.io.conns with disp := disp, made := made, active := active }
        turnCli := turnCli }
      gossipSys := { d.gossipSys with gossips := gossips }
      servers := servers }

/-! ## The loop over the peers -/

theorem pingPeer_conns (d : IoDaemon) (info : PeerInfo) :
    (d.pingPeer info).io.conns = pingIter d.nowMs d.io.conns info :=
  (pingIter_eq d.nowMs d.io.conns info).symm

theorem run_pings (cfg : IoConfig) (d : IoDaemon) {snapshot rest : List PeerInfo}
    (pinging : d.stage = .pinging snapshot rest) :
    ∃ d', Transition.run (step cfg) d (List.replicate rest.length .ping) = some d' ∧
      d'.stage = .pinging snapshot [] ∧
      d'.io.conns = rest.foldl (pingIter d.nowMs) d.io.conns := by
  induction rest generalizing d with
  | nil => exact ⟨d, rfl, pinging, rfl⟩
  | cons info rest ih =>
    obtain ⟨d', reached, done, conns⟩ :=
      ih { d.pingPeer info with stage := .pinging snapshot rest } rfl
    refine ⟨d', Transition.run_cons.mpr ⟨_, by rw [step, pinging], reached⟩, done, ?_⟩
    rw [conns, List.foldl_cons, ← pingPeer_conns]
    rfl

/-- Where no other thread comes between the turns, the loop over the snapshot is `pingPeers`, which
    takes it as one step. -/
theorem run_pings_snapshot (cfg : IoConfig) (d : IoDaemon)
    (pinging : d.stage = .pinging (peersDbSnapshot d.peers) (peersDbSnapshot d.peers)) :
    ∃ d', Transition.run (step cfg) d (List.replicate (peersDbSnapshot d.peers).length .ping)
      = some d' ∧
      d'.io.conns = pingPeers d.nowMs d.io.conns := by
  obtain ⟨d', reached, -, conns⟩ := run_pings cfg d pinging
  exact ⟨d', reached, conns⟩

/-! ## What is sent -/

variable {cfg : IoConfig} {d d' : IoDaemon} {a : IoAction} {m : Option Protopack × NnetFd}
    {type : ProtopackType}

/-- A call of `_daemon_io`, with its number and the time that it read. -/
structure Stamp where
  call : Nat
  time : Int
deriving DecidableEq

def stamp (d : IoDaemon) : Stamp := ⟨d.calls, d.nowMs⟩

abbrev Output := List (Stamp × Option Protopack × NnetFd)

/-- What a step gives to `pvd_sender_send`, with the call that it is of. -/
def emit (cfg : IoConfig) (d : IoDaemon) (a : IoAction) : Output :=
  ((step cfg d a).elim [] fun d' => d'.sent.drop d.sent.length).map (d.stamp, ·)

/-- A packet of this type was built. -/
def ofType (type : ProtopackType) (m : Option Protopack × NnetFd) : Bool :=
  m.1.any (·.packtype = type.code)

theorem emit_of_step (h : step cfg d a = some d') (new : List (Option Protopack × NnetFd))
    (sent : d'.sent = d.sent ++ new) : emit cfg d a = new.map (d.stamp, ·) := by
  rw [emit, h, Option.elim_some, sent, List.drop_left]

theorem ofType_udpMakePack {sequenceN hashFrom hashTo : UInt32} {type' : ProtopackType}
    {payload : Option (List UInt8)} {payloadSize : Nat} {nfd : NnetFd}
    (h : ofType type (udpMakePack sequenceN hashFrom hashTo type' payload payloadSize, nfd)
      = true) :
    type'.code = type.code := by
  obtain ⟨pk, built, code⟩ := (Option.any_eq_true _ _).mp h
  simp only [udpMakePack, Option.ite_none_left_eq_some, Option.some.injEq] at built
  rw [← built.2] at code
  exact of_decide_eq_true code

theorem ofType_stateIter {selfUid nonce : UInt32} {timestamp : Int64} {servers : List S2StateIntr}
    {asks : List (Option Protopack × NnetFd)}
    (made : stateIter cfg selfUid nonce timestamp servers = some asks) (member : m ∈ asks)
    (h : ofType type m = true) : ProtopackType.state.code = type.code := by
  obtain ⟨r, -, rfl⟩ := Option.map_eq_some_iff.mp made
  obtain ⟨st, -, rfl⟩ := List.mem_map.mp member
  exact ofType_udpMakePack h

theorem ofType_pingIterCall {nowMs : Int} {disp : RudpDispatcher} {info : PeerInfo}
    (member : m ∈ (pingIterCall nowMs disp info).sent) (h : ofType type m = true) :
    ProtopackType.ping.code = type.code := by
  rw [pingIterCall] at member
  split at member
  · cases member
  split at member
  · obtain rfl := List.mem_singleton.mp member
    exact ofType_udpMakePack h
  · cases member

theorem ofType_gossipIter {seconds : Int64} {rand : Nat → Nat} {ctxUid : UInt32} {g : GossipSystem}
    {info : PeerInfo} {pack : Option Protopack} {nfd : NnetFd}
    (sends : (gossipIter cfg.inet seconds rand ctxUid g info).sending = .packet pack nfd)
    (h : ofType type (pack, nfd) = true) : ProtopackType.gossip.code = type.code := by
  rw [gossipIter] at sends
  split at sends
  · cases sends
  · rw [gossipSend] at sends
    split at sends
    · cases sends
    split at sends
    · cases sends
    dsimp only at sends
    split at sends
    · cases sends
      exact ofType_udpMakePack h
    · cases sends
    · cases sends
      exact ofType_udpMakePack h

theorem gossipIter_lastGossiped {inet : Inet} {seconds : Int64} {rand : Nat → Nat} {ctxUid : UInt32}
    {g : GossipSystem}
    {info : PeerInfo} : (gossipIter inet seconds rand ctxUid g info).system.lastGossiped
    = g.lastGossiped := by
  rw [gossipIter]
  split
  · rfl
  · rw [gossipSend_system, gossipNewEntry]
    split
    · rfl
    split
    · split <;> rfl
    · rfl

/-! ## How often it is sent -/

/-- Any two of them are of one call, or so far apart. -/
def Spaced (gap : Int) (stamps : List Stamp) : Prop :=
  stamps.Pairwise fun s t => s.call = t.call ∨ s.time + gap ≤ t.time

theorem Spaced.append {gap : Int} {now : Stamp} {stamps new : List Stamp}
    (spaced : Spaced gap stamps) (before : ∀ s ∈ stamps, s = now ∨ s.time + gap ≤ now.time)
    (here : ∀ t ∈ new, t = now) :
    Spaced gap (stamps ++ new) := by
  refine List.pairwise_append.mpr ⟨spaced, ?_, fun s old t fresh => ?_⟩
  · refine List.pairwise_of_forall_mem_list fun s first t second => ?_
    rw [here s first, here t second]
    exact .inl rfl
  · rw [here t fresh]
    exact (before s old).imp_left (congrArg Stamp.call)

/-- When packets of a type were sent. -/
def stampsOf (type : ProtopackType) (out : Output) : List Stamp :=
  (out.filter fun x => ofType type x.2).map Prod.fst

theorem stampsOf_append (out new : Output) :
    stampsOf type (out ++ new) = stampsOf type out ++ stampsOf type new := by
  rw [stampsOf, List.filter_append, List.map_append]
  rfl

theorem stampsOf_here {now : Stamp} {new : List (Option Protopack × NnetFd)} :
    ∀ t ∈ stampsOf type (new.map (now, ·)), t = now := by
  intro t member
  simp only [stampsOf, List.filter_map, List.map_map, List.mem_map] at member
  obtain ⟨m, -, rfl⟩ := member
  rfl

/-- Packets of other types do not count. -/
theorem stampsOf_other {type' : ProtopackType} {new : List (Option Protopack × NnetFd)}
    (out : Output) (now : Stamp) (only : ∀ m ∈ new, ofType type m = true → type'.code = type.code)
    (other : type'.code ≠ type.code) :
    stampsOf type (out ++ new.map (now, ·)) = stampsOf type out := by
  have none_ : stampsOf type (new.map (now, ·)) = [] := by
    simp only [stampsOf, List.map_eq_nil_iff, List.filter_eq_nil_iff, List.mem_map]
    rintro x ⟨m, member, rfl⟩ h
    exact other (only m member h)
  rw [stampsOf_append, none_, List.append_nil]

/-- What decides when the daemon asks the servers and gossips. -/
structure Pace where
  lastAsked : Int
  lastGossiped : Int
  now : Stamp
  gossiping : Bool

def pace (d : IoDaemon) : Pace where
  lastAsked := d.analysis.stateLastCalled
  lastGossiped := d.gossipSys.lastGossiped.toNat
  now := d.stamp
  gossiping :=
    match d.stage with
    | .gossiping _ => true
    | _ => false

structure Paced (out : Output) (p : Pace) : Prop where
  clock : 0 ≤ p.now.time ∧ p.now.time < 2 ^ 32
  asked : ∀ s ∈ stampsOf .state out, s.time ≤ p.lastAsked
  asksApart : Spaced 3000 (stampsOf .state out)
  gossiped : ∀ s ∈ stampsOf .gossip out, s.time ≤ p.lastGossiped ∨ s = p.now ∧ p.gossiping = true
  gossipApart : Spaced 5000 (stampsOf .gossip out)
  due : p.gossiping = true → p.lastGossiped + 5000 ≤ p.now.time

variable {out : Output} {p : Pace} {new : List (Option Protopack × NnetFd)}

theorem Paced.call (paced : Paced out p) (quiet : p.gossiping = false) {now : Stamp}
    (clock : 0 ≤ now.time ∧ now.time < 2 ^ 32) : Paced out { p with now := now } where
  clock := clock
  asked := paced.asked
  asksApart := paced.asksApart
  gossiped s member := by simpa [quiet] using paced.gossiped s member
  gossipApart := paced.gossipApart
  due gossiping := by simp [quiet] at gossiping

theorem Paced.ping (paced : Paced out p)
    (pings : ∀ m ∈ new, ∀ type, ofType type m = true → ProtopackType.ping.code = type.code) :
    Paced (out ++ new.map (p.now, ·)) p := by
  have states := stampsOf_other out p.now (fun m member => pings m member .state) (by decide)
  have gossips := stampsOf_other out p.now (fun m member => pings m member .gossip) (by decide)
  obtain ⟨clock, asked, asksApart, gossiped, gossipApart, due⟩ := paced
  rw [← states] at asked asksApart
  rw [← gossips] at gossiped gossipApart
  exact ⟨clock, asked, asksApart, gossiped, gossipApart, due⟩

theorem Paced.ask (paced : Paced out p) (due : p.now.time - p.lastAsked ≥ 3 * 1000)
    (states : ∀ m ∈ new, ∀ type, ofType type m = true → ProtopackType.state.code = type.code) :
    Paced (out ++ new.map (p.now, ·)) { p with lastAsked := p.now.time } := by
  have gossips := stampsOf_other out p.now (fun m member => states m member .gossip) (by decide)
  obtain ⟨clock, asked, asksApart, gossiped, gossipApart, gossipDue⟩ := paced
  rw [← gossips] at gossiped gossipApart
  refine ⟨clock, ?_, ?_, gossiped, gossipApart, gossipDue⟩ <;> rw [stampsOf_append]
  · intro s member
    obtain old | fresh := List.mem_append.mp member
    · have := asked s old
      dsimp only
      omega
    · rw [stampsOf_here s fresh]
  -- all earlier requests are no later than the last one, which was three seconds ago
  · refine asksApart.append (fun s old => .inr ?_) stampsOf_here
    have := asked s old
    omega

theorem Paced.startGossip (paced : Paced out p) (quiet : p.gossiping = false)
    (due : p.now.time - p.lastGossiped ≥ 5 * 1000) : Paced out { p with gossiping := true } where
  clock := paced.clock
  asked := paced.asked
  asksApart := paced.asksApart
  gossiped s member := by
    left
    simpa [quiet] using paced.gossiped s member
  gossipApart := paced.gossipApart
  due _ := by
    dsimp only
    omega

theorem Paced.gossip (paced : Paced out p) (gossiping : p.gossiping = true)
    (gossips : ∀ m ∈ new, ∀ type, ofType type m = true → ProtopackType.gossip.code = type.code) :
    Paced (out ++ new.map (p.now, ·)) p := by
  have states := stampsOf_other out p.now (fun m member => gossips m member .state) (by decide)
  obtain ⟨clock, asked, asksApart, gossiped, gossipApart, due⟩ := paced
  rw [← states] at asked asksApart
  refine ⟨clock, asked, asksApart, ?_, ?_, due⟩ <;> rw [stampsOf_append]
  · intro s member
    obtain old | fresh := List.mem_append.mp member
    · exact gossiped s old
    · exact .inr ⟨stampsOf_here s fresh, gossiping⟩
  -- an earlier packet is of this call, or of one before the last time the daemon gossiped
  · refine gossipApart.append (fun s old => (gossiped s old).symm.imp And.left fun earlier => ?_)
      stampsOf_here
    have := due gossiping
    omega

theorem Paced.endGossip (paced : Paced out p) (gossiping : p.gossiping = true) :
    Paced out { p with lastGossiped := p.now.time, gossiping := false } where
  clock := paced.clock
  asked := paced.asked
  asksApart := paced.asksApart
  gossiped s member := by
    have due := paced.due gossiping
    obtain earlier | ⟨rfl, -⟩ := paced.gossiped s member
    · dsimp only
      omega
    · exact .inl (Int.le_refl _)
  gossipApart := paced.gossipApart
  due gossiping := nomatch gossiping

/-- A step that sends nothing and leaves the pace alone. -/
theorem Paced.silent (paced : Paced out d.pace) (h : step cfg d a = some d')
    (same : d'.sent = d.sent) (kept : d'.pace = d.pace) : Paced (out ++ emit cfg d a) d'.pace := by
  rw [emit_of_step h [] (by rw [same, List.append_nil]), List.map_nil, List.append_nil, kept]
  exact paced

theorem pace_skipAddt (d : IoDaemon) : d.skipAddt.pace = { d.pace with gossiping := false } := by
  rw [skipAddt, pace]
  cases d.woken <;> rfl

/-- The daemon asks the servers or does nothing. -/
theorem askServers_cases {nonce : UInt32} {timestamp : Int64}
    (h : d.askServers cfg nonce timestamp = some d') :
    d' = d ∨ d.nowMs - d.analysis.stateLastCalled ≥ 3 * 1000 ∧ ∃ asks,
      stateIter cfg d.selfUid nonce timestamp d.servers = some asks ∧
        d' = { d with
          sent := d.sent ++ asks
          analysis := { d.analysis with stateLastCalled := d.nowMs } } := by
  rw [askServers] at h
  split at h
  next due =>
    obtain ⟨asks, made, rfl⟩ := Option.map_eq_some_iff.mp h
    exact .inr ⟨due, asks, made, rfl⟩
  next => exact .inl (Option.some.inj h).symm

theorem askServers_paced (paced : Paced out d.pace) {nonce : UInt32} {timestamp : Int64}
    (h : d.askServers cfg nonce timestamp = some d') :
    d'.stage = d.stage ∧ ∃ new, d'.sent = d.sent ++ new ∧
      Paced (out ++ new.map (d.stamp, ·)) d'.pace := by
  obtain rfl | ⟨due, asks, made, rfl⟩ := askServers_cases h
  · exact ⟨rfl, [], (List.append_nil _).symm, by simpa using paced⟩
  · exact ⟨rfl, asks, rfl, paced.ask due fun m member type => ofType_stateIter made member⟩

theorem step_wake_paced (paced : Paced out d.pace) (r : Int) (nonce : UInt32) (timestamp : Int64)
    (h : step cfg d (.wake r nonce timestamp) = some d') :
    Paced (out ++ emit cfg d (.wake r nonce timestamp)) d'.pace := by
  have kept : (measureRate cfg d.nowMs d.analysis).stateLastCalled
      = d.analysis.stateLastCalled := by
    rw [measureRate]
    split <;> rfl
  have woke := h
  simp only [step] at woke
  split at woke
  swap
  · cases woke
  next waiting =>
    have quiet : d.pace.gossiping = false := by rw [pace, waiting]
    simp only [wake] at woke
    split at woke
    -- the wait failed, and the daemon ends
    · cases woke
      exact paced.silent h rfl (by simp only [pace, stamp, waiting])
    have measured : ({ d with
        woken := r ≠ 0
        analysis := measureRate cfg d.nowMs d.analysis } : IoDaemon).pace = d.pace := by
      simp only [pace, stamp, kept]
    split at woke
    -- packets come too fast, and the call goes on behind the peers
    · cases woke
      exact paced.silent h rfl (by rw [pace_skipAddt, measured, ← quiet])
    · obtain ⟨asked, asks, rfl⟩ := Option.map_eq_some_iff.mp woke
      obtain ⟨stage, new, sent, still⟩ := askServers_paced (measured ▸ paced) asks
      rw [emit_of_step h new sent]
      simpa only [pace, stamp, stage, waiting] using still

theorem gossipPeer_paced {seconds : Int64} {rand : Nat → Nat} {info : PeerInfo}
    (paced : Paced out d.pace) (gossiping : d.pace.gossiping = true)
    (h : d.gossipPeer cfg seconds rand info = some d') :
    d'.stage = d.stage ∧ ∃ new, d'.sent = d.sent ++ new ∧
      Paced (out ++ new.map (d.stamp, ·)) d'.pace := by
  have kept := @gossipIter_lastGossiped cfg.inet seconds rand d.selfUid d.gossipSys info
  rw [gossipPeer] at h
  split at h
  · cases h
    exact ⟨rfl, [], (List.append_nil _).symm, by simpa [pace, stamp, kept] using paced⟩
  next pack nfd sends =>
    cases h
    refine ⟨rfl, [(pack, nfd)], rfl, ?_⟩
    have gossips : ∀ m ∈ [(pack, nfd)], ∀ type, ofType type m = true →
        ProtopackType.gossip.code = type.code := by
      intro m member type typed
      obtain rfl := List.mem_singleton.mp member
      exact ofType_gossipIter sends typed
    simpa only [pace, stamp, kept] using paced.gossip gossiping gossips
  · cases h

theorem step_paced (paced : Paced out d.pace)
    (clock : ∀ nowMs, a = .call nowMs → 0 ≤ nowMs ∧ nowMs < 2 ^ 32)
    (h : step cfg d a = some d') : Paced (out ++ emit cfg d a) d'.pace := by
  have here := h
  cases a with
  | call nowMs =>
    simp only [step] at here
    split at here <;> cases here
    next idle =>
      rw [emit_of_step h [] (List.append_nil _).symm, List.map_nil, List.append_nil]
      have called : Paced out { d.pace with now := ⟨d.calls + 1, nowMs⟩ } :=
        paced.call (by rw [pace, idle]) (clock nowMs rfl)
      simpa only [pace, stamp, idle] using called
  | wake r nonce timestamp => exact step_wake_paced paced r nonce timestamp h
  | ping =>
    simp only [step] at here
    split at here <;> cases here
    next snapshot info rest pinging =>
      rw [emit_of_step h _ rfl]
      simpa only [pace, stamp, pinging, pingPeer] using paced.ping fun m member type =>
        ofType_pingIterCall member
  | endPings seconds =>
    simp only [step] at here
    split at here
    swap
    · cases here
    next snapshot pinging =>
      have quiet : d.pace.gossiping = false := by rw [pace, pinging]
      split at here <;> cases here
      next due =>
        rw [emit_of_step h [] (List.append_nil _).symm, List.map_nil, List.append_nil]
        exact paced.startGossip quiet due
      next => exact paced.silent h rfl (by rw [pace_skipAddt, ← quiet])
  | gossip seconds rand =>
    simp only [step] at here
    split at here
    swap
    · cases here
    next info rest gossiping =>
      obtain ⟨d'', sends, rfl⟩ := Option.map_eq_some_iff.mp here
      obtain ⟨stage, new, sent, still⟩ := gossipPeer_paced paced (by rw [pace, gossiping]) sends
      rw [emit_of_step h new sent]
      simpa only [pace, stamp, stage, gossiping] using still
  | endGossip =>
    simp only [step] at here
    split at here <;> cases here
    next gossiping =>
      have ended := paced.endGossip (by rw [pace, gossiping])
      rw [emit_of_step h [] (List.append_nil _).symm, List.map_nil, List.append_nil, pace_skipAddt]
      -- `last_gossiped` has 32 bits, which hold the whole time here
      have whole : ((lastSeenOf d.nowMs).toNat : Int) = d.nowMs :=
        (lastSeenOf_toNat paced.clock.1).trans (Int.emod_eq_of_lt paced.clock.1 paced.clock.2)
      simpa only [pace, stamp, whole] using ended
  | pass pkt nowMs =>
    simp only [step] at here
    split at here
    swap
    · cases here
    next passing =>
      obtain ⟨io, -, rfl⟩ := Option.map_eq_some_iff.mp here
      exact paced.silent h rfl (by rfl)
  | endPass =>
    simp only [step] at here
    split at here <;> cases here
    next passing => exact paced.silent h rfl (by simp only [pace, stamp, passing])
  | peers write =>
    cases here
    exact paced.silent h rfl rfl
  | others =>
    cases here
    exact paced.silent h rfl rfl

/-- In every run before the clock needs more than 32 bits, whatever packets arrive and other threads
    do, two requests to the state servers are of one call or three seconds apart, and two gossip
    packets are of one call or five seconds apart. -/
theorem paced (cfg : IoConfig) (uid truid : UInt32) (servers : List S2StateIntr) (start : Int)
    (as : List IoAction) (d : IoDaemon)
    (h : Transition.run (step cfg) (create uid truid servers start) as = some d)
    (natural : 0 ≤ start ∧ start < 2 ^ 32)
    (clock : ∀ a ∈ as, ∀ nowMs, a = .call nowMs → 0 ≤ nowMs ∧ nowMs < 2 ^ 32) :
    Spaced 3000
      (stampsOf .state (Transition.emitted (step cfg) (emit cfg) (create uid truid servers start)
        as)) ∧
      Spaced 5000
        (stampsOf .gossip (Transition.emitted (step cfg) (emit cfg) (create uid truid servers start)
          as)) := by
  have fresh : Paced [] (create uid truid servers start).pace :=
    ⟨natural, by simp [stampsOf], List.Pairwise.nil, by simp [stampsOf],
      List.Pairwise.nil, by simp [pace, create]⟩
  -- what was sent and the pace of the daemon go together through the run
  have final := Transition.emitted_invariant_where (I := fun out d => Paced out d.pace)
    (fun out d a d' paced clock next => step_paced paced clock next) fresh
      (Transition.meets_of_mem clock _) h
  rw [List.nil_append] at final
  exact ⟨final.asksApart, final.gossipApart⟩

/-- After 49 days and 17 hours, the daemon gossips whenever it looks after the peers. -/
theorem gossips_every_call {snapshot : List PeerInfo} (pinged : d.stage = .pinging snapshot [])
    (late : 2 ^ 32 + 5000 ≤ d.nowMs)
    (seconds : Int64) : ∃ d', step cfg d (.endPings seconds) = some d' ∧
    d'.stage = .gossiping snapshot := by
  have stamp := d.gossipSys.lastGossiped.toNat_lt
  rw [step, pinged]
  exact ⟨_, if_pos (by omega), rfl⟩

def sampleConfig : IoConfig where
  inet := sampleInet
  sodium := toySodium
  selfSign := toySign 1
  sockAddr := (Address.ipv4 sampleText 80).naddr
  aboveOne packets deltaMs := packets.toNat * 1000 > deltaMs

def gossipedPeer : LightPeerInfo :=
  ⟨7, Naddr.zero, (Address.ipv4 sampleText 81).naddr, Vector.replicate keyBytes 7⟩

def askedServer : S2StateIntr := ⟨(Address.ipv4 sampleText 82).naddr, 1⟩

/-- A call that looks after a peer, gossips with it, and is not woken. -/
def sampleCall (nowMs : Int) (seconds : Int64) : List IoAction :=
  [.call nowMs, .wake 0 5 seconds, .ping, .endPings seconds, .gossip seconds fun _ => 1, .endGossip]

/-- Three calls, the second one too early for anything but a look at the peer. -/
def sampleCalls : List IoAction :=
  [.peers (.add gossipedPeer .active 4500)] ++ sampleCall 5000 5 ++
    [.call 6000, .wake 0 6 6, .ping, .endPings 6] ++
    sampleCall 10000 10

def sampleOutput : Output :=
  Transition.emitted (step sampleConfig) (emit sampleConfig) (create 1 1 [askedServer] 0)
    sampleCalls

theorem paced_sampleCalls :
    (stampsOf .state sampleOutput = [⟨1, 5000⟩, ⟨3, 10000⟩] ∧
      Spaced 3000 (stampsOf .state sampleOutput)) ∧
      stampsOf .gossip sampleOutput = [⟨1, 5000⟩, ⟨3, 10000⟩] ∧
        Spaced 5000 (stampsOf .gossip sampleOutput) := by
  obtain ⟨d, reached⟩ := Option.isSome_iff_exists.mp
    (show (Transition.run (step sampleConfig) (create 1 1 [askedServer] 0) sampleCalls).isSome by
      decide +kernel)
  obtain ⟨asks, gossips⟩ := paced sampleConfig 1 1 [askedServer] 0 sampleCalls d reached (by decide)
    (by simp [sampleCalls, sampleCall])
  exact ⟨⟨by decide +kernel, asks⟩, by decide +kernel, gossips⟩

end IoDaemon

end Soter2.Interface
