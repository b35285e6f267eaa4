import Mathlib.Algebra.Group.Int.Defs
import Mathlib.Data.List.Basic
import Mathlib.Tactic.Common
import Soter2.Interface.IoLoop

/-! # The daemon as a failure detector (`interface/src/daemons.c`)

A call that is not skipped for its packet rate pings the peers that have been silent for three
seconds, and forgets those that have been silent for ten.

* `answering_peer_stays` — a peer that answers in time is not forgotten.
* `silent_peer_leaves` — a peer that stays silent is.
-/

namespace Soter2.Interface

open Lownet Peers Protocol Rudp

/-- The daemon, with what no step reads: the clock, the last call that looked after the peers,
    and since which call a PING to one of them is not answered. -/
structure Watched where
  daemon : IoDaemon
  clock : Int
  lookedAfter : Int
  asked : Option Int

namespace Watched

/-- The clock value that a step reads, if it keeps one. -/
def reads : IoAction → Option Int
  | .call nowMs | .pass _ nowMs | .peers (.add _ _ nowMs) | .peers (.utime _ nowMs) => some nowMs
  | _ => none

/-- The clock does not go back, and its value fits in 32 bits. -/
def OnTime (w : Watched) (a : IoAction) : Prop := ∀ now ∈ reads a, w.clock ≤ now ∧ now < 2 ^ 32

/-- The peer is seen, or what is known of it is lost. -/
def settles (uid : UInt32) : IoAction → Bool
  | .pass pkt _ => pkt.pack.hFrom = uid
  | .peers (.add linfo _ _) => linfo.uid = uid
  | .peers (.utime w _) => w = uid
  | .peers (.remove w) => w = uid
  | _ => false

/-- A step pings the peer. -/
def pings (uid : UInt32) (d : IoDaemon) : IoAction → Bool
  | .ping =>
    match d.stage with
    | .pinging _ (info :: _) =>
      info.uid = uid ∧ (pingIterCall d.nowMs d.io.conns.disp info).sent ≠ []
    | _ => false
  | _ => false

/-- A call that waited looks after the peers. -/
def looks : Stage → Stage → Bool
  | .waiting, .pinging _ _ => true
  | _, _ => false

def step (cfg : IoConfig) (uid : UInt32) (w : Watched) (a : IoAction) : Option Watched :=
  (w.daemon.step cfg a).map fun d => {
    daemon := d
    clock := (reads a).getD w.clock
    lookedAfter := if looks w.daemon.stage d.stage then d.nowMs else w.lookedAfter
    asked :=
      if settles uid a then none
      else if pings uid w.daemon a then some (w.asked.getD d.nowMs)
      else w.asked }

/-- A call comes no later than this after the last one that looked after the peers. -/
def Prompt (within : Nat) (w : Watched) : IoAction → Prop
  | .call nowMs => nowMs ≤ w.lookedAfter + within
  | _ => True

/-- No call finds a PING unanswered after this time. -/
def Answers (within : Nat) (w : Watched) : IoAction → Prop
  | .call nowMs => ∀ since ∈ w.asked, nowMs ≤ since + within
  | _ => True

instance (within : Nat) (w : Watched) : ∀ a, Decidable (Prompt within w a)
  | .call nowMs => inferInstanceAs (Decidable (nowMs ≤ w.lookedAfter + within))
  | .wake .. | .ping | .endPings _ | .gossip .. | .endGossip | .pass .. | .endPass
  | .peers _ | .others .. => .isTrue trivial

instance (within : Nat) (w : Watched) : ∀ a, Decidable (Answers within w a)
  | .call nowMs => inferInstanceAs (Decidable (∀ since ∈ w.asked, nowMs ≤ since + within))
  | .wake .. | .ping | .endPings _ | .gossip .. | .endGossip | .pass .. | .endPass
  | .peers _ | .others .. => .isTrue trivial

instance (w : Watched) (a : IoAction) : Decidable (OnTime w a) :=
  inferInstanceAs (Decidable (∀ now ∈ reads a, w.clock ≤ now ∧ now < 2 ^ 32))

/-- When the record says that the peer was last seen, if there is a record. -/
def seen (w : Watched) (uid : UInt32) : Option Int :=
  (peersDbGet w.daemon.peers uid).map fun info => info.lastSeen.toNat

/-! ## What a step does to one peer -/

variable {cfg : IoConfig} {uid : UInt32} {w w' : Watched} {a : IoAction} {prompt within : Nat}

/-- The daemon stands at no loop over the peers and does not wait. -/
def Aside (d : IoDaemon) : Prop := d.stage ≠ .waiting ∧
    ∀ snapshot rest, d.stage ≠ .pinging snapshot rest

/-- All that a step does to what is known of a peer. -/
inductive Effect (uid : UInt32) (w : Watched) (a : IoAction) (w' : Watched) : Prop where
  | call (begins : a = .call w'.clock) (idle : w.daemon.stage = .idle) (later : w.clock ≤ w'.clock)
      (called : w'.daemon.nowMs = w'.clock) (lookedAfter : w'.lookedAfter = w.lookedAfter)
      (asked : w'.asked = w.asked)
      (seen : w'.seen uid = w.seen uid) (stage : w'.daemon.stage = .waiting)
  | look (waiting : w.daemon.stage = .waiting) (clock : w'.clock = w.clock)
      (called : w'.daemon.nowMs = w.daemon.nowMs)
      (lookedAfter : w'.lookedAfter = w.daemon.nowMs) (asked : w'.asked = w.asked)
      (seen : w'.seen uid = w.seen uid)
      (stage : w'.daemon.stage = .pinging (peersDbSnapshot w.daemon.peers)
        (peersDbSnapshot w.daemon.peers))
  | ping (snapshot rest : List PeerInfo) (info : PeerInfo)
      (pinging : w.daemon.stage = .pinging snapshot (info :: rest))
      (clock : w'.clock = w.clock) (called : w'.daemon.nowMs = w.daemon.nowMs)
      (lookedAfter : w'.lookedAfter = w.lookedAfter)
      (asked : w'.asked = if pings uid w.daemon .ping then some (w.asked.getD w.daemon.nowMs)
        else w.asked)
      (seen : w'.seen uid = if info.uid = uid ∧ dead w.daemon.nowMs info then none else w.seen uid)
      (stage : w'.daemon.stage = .pinging snapshot rest)
  /-- The daemon goes on to another stage. -/
  | move (clock : w'.clock = w.clock) (called : w'.daemon.nowMs = w.daemon.nowMs)
      (lookedAfter : w'.lookedAfter = w.lookedAfter)
      (asked : w'.asked = w.asked) (seen : w'.seen uid = w.seen uid)
      (done : ∀ snapshot rest, w.daemon.stage = .pinging snapshot rest → rest = [])
      (aside : Aside w'.daemon)
  /-- The peer is seen, or forgotten by another thread. -/
  | settle (later : w.clock ≤ w'.clock) (called : w'.daemon.nowMs = w.daemon.nowMs)
      (lookedAfter : w'.lookedAfter = w.lookedAfter)
      (asked : w'.asked = none) (seen : ∀ last ∈ w'.seen uid, w.clock ≤ last)
      (kept : a ≠ .peers (.remove uid) → w.seen uid ≠ none → w'.seen uid ≠ none)
      (stage : w'.daemon.stage = w.daemon.stage)
  | stay (later : w.clock ≤ w'.clock) (called : w'.daemon.nowMs = w.daemon.nowMs)
      (lookedAfter : w'.lookedAfter = w.lookedAfter)
      (asked : w'.asked = w.asked) (seen : w'.seen uid = w.seen uid)
      (stage : w'.daemon.stage = w.daemon.stage)

theorem looks_quiet {before after : Stage}
    (quiet : ∀ snapshot rest, after ≠ .pinging snapshot rest) : looks before after = false := by
  cases before <;> cases after <;> simp_all [looks]

theorem looks_same (stage : Stage) : looks stage stage = false := by cases stage <;> rfl

theorem skipAddt_aside (d : IoDaemon) : Aside d.skipAddt := by
  rw [Aside, IoDaemon.skipAddt]
  cases d.woken <;> simp

/-- A step to another stage that does nothing to the peers. -/
theorem Effect.of_aside (h : step cfg uid w a = some w') {d : IoDaemon}
    (next : w.daemon.step cfg a = some d)
    (called : d.nowMs = w.daemon.nowMs) (peers : d.peers = w.daemon.peers)
    (untouched : reads a = none ∧ settles uid a = false ∧ pings uid w.daemon a = false)
    (done : ∀ snapshot rest, w.daemon.stage = .pinging snapshot rest → rest = [])
    (aside : Aside d) : Effect uid w a w' := by
  obtain ⟨unread, unsettled, unpinged⟩ := untouched
  rw [step, next, Option.map_some, Option.some.injEq, unread, unsettled, unpinged,
    looks_quiet aside.2] at h
  subst h
  exact .move rfl called rfl rfl (congrArg (fun db => (peersDbGet db uid).map _) peers) done aside

theorem effect_wake {r : Int} {nonce : UInt32} {timestamp : Int64}
    (h : step cfg uid w (.wake r nonce timestamp) = some w') :
    Effect uid w (.wake r nonce timestamp) w' := by
  obtain ⟨d, next, made⟩ := Option.map_eq_some_iff.mp h
  have woke := next
  simp only [IoDaemon.step] at woke
  -- a failed `poll` ends the daemon, and where packets come too fast nobody is pinged
  split at woke
  swap
  · cases woke
  next waiting =>
    have done : ∀ snapshot rest, w.daemon.stage = .pinging snapshot rest → rest = [] := by
      simp [waiting]
    simp only [IoDaemon.wake] at woke
    split at woke
    · cases woke
      exact .of_aside h next rfl rfl ⟨rfl, rfl, rfl⟩ done (by simp [Aside])
    split at woke
    · cases woke
      exact .of_aside h next rfl rfl ⟨rfl, rfl, rfl⟩ done (skipAddt_aside _)
    · obtain ⟨asked, asks, same⟩ := Option.map_eq_some_iff.mp woke
      have called : d.nowMs = w.daemon.nowMs := by
        obtain rfl | ⟨-, _, -, rfl⟩ := IoDaemon.askServers_cases asks <;> rw [← same]
      have peers : d.peers = w.daemon.peers := by
        obtain rfl | ⟨-, _, -, rfl⟩ := IoDaemon.askServers_cases asks <;> rw [← same] <;> rfl
      -- the peers that will be pinged are those stored now
      have snapshot : d.stage = .pinging (peersDbSnapshot w.daemon.peers)
          (peersDbSnapshot w.daemon.peers) := by
        rw [← peers, ← same]
        rfl
      subst made
      refine .look waiting rfl called ?_ rfl (congrArg (fun db => (peersDbGet db uid).map _) peers)
        snapshot
      rw [waiting, snapshot, ← called]
      rfl

/-- A peer is forgotten by the daemon exactly where `ping_iter` finds it dead. -/
theorem get_pingPeer (d : IoDaemon) (info : PeerInfo) (uid : UInt32) :
    peersDbGet (d.pingPeer info).peers uid = if info.uid = uid ∧ dead d.nowMs info then none
      else peersDbGet d.peers uid := by
  have code : (pingIterCall d.nowMs d.io.conns.disp info).code = 1 ↔ dead d.nowMs info = true := by
    rw [pingIterCall, dead, decide_eq_true_eq]
    split
    next silent => exact iff_of_true rfl silent
    next heard => exact iff_of_false (by split <;> simp) heard
  simp only [IoDaemon.pingPeer, IoDaemon.peers, code]
  by_cases silent : dead d.nowMs info = true
  · by_cases own : info.uid = uid
    · subst own
      simp [silent]
    · rw [if_pos silent, if_neg (fun both => own both.1), get_peersDbRemove_ne _ (Ne.symm own)]
  · simp [silent]

theorem effect_ping (h : step cfg uid w .ping = some w') : Effect uid w .ping w' := by
  obtain ⟨d, next, made⟩ := Option.map_eq_some_iff.mp h
  simp only [IoDaemon.step] at next
  split at next <;> cases next
  next snapshot info rest pinging =>
    subst made
    refine .ping snapshot rest info pinging rfl rfl (by rw [pinging]; rfl) rfl ?_ rfl
    have stored := get_pingPeer w.daemon info uid
    rw [seen, IoDaemon.peers]
    refine (congrArg (Option.map _) stored).trans ?_
    split <;> rfl

theorem lastSeenOf_small {nowMs : Int} (natural : 0 ≤ nowMs) (small : nowMs < 2 ^ 32) :
    ((lastSeenOf nowMs).toNat : Int) = nowMs :=
  (lastSeenOf_toNat natural).trans (Int.emod_eq_of_lt natural small)

theorem route_conns {d d' : DaemonIo} {pkt : Watching.ListenerPacket} (h : d.route pkt = some d') :
    d'.conns = d.conns := by
  rw [DaemonIo.route] at h
  split at h
  · split at h
    · cases h
      rfl
    · obtain ⟨wrapped, -, rfl⟩ := Option.map_eq_some_iff.mp h
      rfl
  · split at h <;> cases h <;> rfl

theorem seen_utime {db : PeersDb} {now : UInt32} {last : Int}
    (known : last ∈ (peersDbGet (peersDbUtime db uid now) uid).map fun info =>
      (info.lastSeen.toNat : Int)) : last = now.toNat := by
  rw [peersDbUtime, get_modify_self, Option.map_map] at known
  obtain ⟨info, -, rfl⟩ := Option.map_eq_some_iff.mp known
  rfl

theorem utime_kept {db : PeersDb} {now : UInt32}
    (known : (peersDbGet db uid).map (fun info => (info.lastSeen.toNat : Int)) ≠ none) :
    (peersDbGet (peersDbUtime db uid now) uid).map (fun info => (info.lastSeen.toNat : Int))
      ≠ none := by
  rw [peersDbUtime, get_modify_self]
  simpa using known

theorem effect_pass (natural : 0 ≤ w.clock) {pkt : Watching.ListenerPacket} {nowMs : Int}
    (onTime : OnTime w (.pass pkt nowMs))
    (h : step cfg uid w (.pass pkt nowMs) = some w') : Effect uid w (.pass pkt nowMs) w' := by
  obtain ⟨later, small⟩ := onTime nowMs rfl
  obtain ⟨d, next, rfl⟩ := Option.map_eq_some_iff.mp h
  simp only [IoDaemon.step] at next
  split at next
  swap
  · cases next
  next passing =>
    obtain ⟨io, handled, rfl⟩ := Option.map_eq_some_iff.mp next
    have peers : io.conns.peers = peersDbUtime w.daemon.peers pkt.pack.hFrom
        (lastSeenOf nowMs) := by
      obtain ⟨routed, route, rfl⟩ := Option.map_eq_some_iff.mp handled
      rw [route_conns route]
      rfl
    -- a packet of the peer settles what was asked of it, one of another peer does not
    by_cases own : pkt.pack.hFrom = uid
    · refine .settle later rfl (by rw [looks_same]; rfl) (by simp [settles, own]) ?_ ?_ rfl
      · intro last known
        rw [seen, IoDaemon.peers, peers, own] at known
        rw [seen_utime known, lastSeenOf_small (Int.le_trans natural later) small]
        exact later
      · intro _ known
        rw [seen, IoDaemon.peers, peers, own]
        exact utime_kept known
    · refine .stay later rfl (by rw [looks_same]; rfl) (by simp [settles, own, pings]) ?_ rfl
      rw [seen, IoDaemon.peers, peers, utime_frame _ _ _ uid (Ne.symm own)]
      rfl

theorem get_write_add (inet : Inet) (db : PeersDb) (linfo : LightPeerInfo) (state : PeerState)
    (nowMs : Int) :
    peersDbGet ((DbWrite.add linfo state nowMs).apply inet db) linfo.uid
      = some { peersDbReconstruct inet (lastSeenOf nowMs) linfo with state := state } :=
  get_peersDbAdd_self db { peersDbReconstruct inet (lastSeenOf nowMs) linfo with state := state }

/-- A write of another thread to the peers, where it is not about the peer. -/
theorem seen_write_ne (inet : Inet) (db : PeersDb) {write : DbWrite}
    (other : settles uid (.peers write) = false) :
    (peersDbGet (write.apply inet db) uid).map (fun info => (info.lastSeen.toNat : Int))
      = (peersDbGet db uid).map fun info => (info.lastSeen.toNat : Int) := by
  cases write with
  | add linfo state nowMs =>
    have apart : linfo.uid ≠ uid := of_decide_eq_false other
    rw [DbWrite.apply,
      add_frame db { peersDbReconstruct inet (lastSeenOf nowMs) linfo with state := state } uid
      apart.symm]
  | utime v nowMs =>
    have apart : v ≠ uid := of_decide_eq_false other
    rw [DbWrite.apply, utime_frame db v _ uid apart.symm]
  | schange v newState =>
    -- a change of the state leaves the time, also where it is about the peer
    by_cases own : v = uid
    · rw [own, DbWrite.apply, peersDbSchange, get_modify_self, Option.map_map]
      rfl
    · rw [DbWrite.apply, schange_frame db v newState uid (Ne.symm own)]
  | unfd v nfd =>
    by_cases own : v = uid
    · rw [own, DbWrite.apply, peersDbUnfd, get_modify_self, Option.map_map]
      rfl
    · rw [DbWrite.apply, unfd_frame db v nfd uid (Ne.symm own)]
  | remove v =>
    have apart : v ≠ uid := of_decide_eq_false other
    rw [DbWrite.apply, get_peersDbRemove_ne db apart.symm]

/-- A write that is about the peer makes it seen, or removes it. -/
theorem seen_write_self (inet : Inet) (db : PeersDb) {write : DbWrite} (natural : 0 ≤ w.clock)
    (onTime : OnTime w (.peers write)) (own : settles uid (.peers write) = true) {last : Int}
    (known : last ∈ (peersDbGet (write.apply inet db) uid).map fun info =>
      (info.lastSeen.toNat : Int)) : w.clock ≤ last := by
  cases write with
  | add linfo state nowMs =>
    obtain ⟨later, small⟩ := onTime nowMs rfl
    obtain rfl : linfo.uid = uid := of_decide_eq_true own
    rw [get_write_add] at known
    rw [← Option.some.inj known]
    exact later.trans (lastSeenOf_small (Int.le_trans natural later) small).ge
  | utime v nowMs =>
    obtain ⟨later, small⟩ := onTime nowMs rfl
    obtain rfl : v = uid := of_decide_eq_true own
    rw [seen_utime known, lastSeenOf_small (Int.le_trans natural later) small]
    exact later
  | schange v newState => cases own
  | unfd v nfd => cases own
  | remove v =>
    obtain rfl : v = uid := of_decide_eq_true own
    rw [DbWrite.apply, get_peersDbRemove_self] at known
    cases known

theorem write_kept (inet : Inet) (db : PeersDb) {write : DbWrite}
    (own : settles uid (.peers write) = true)
    (notRemoved : IoAction.peers write ≠ .peers (.remove uid))
    (known : (peersDbGet db uid).map (fun info => (info.lastSeen.toNat : Int)) ≠ none) :
    (peersDbGet (write.apply inet db) uid).map (fun info => (info.lastSeen.toNat : Int))
      ≠ none := by
  cases write with
  | add linfo state nowMs =>
    obtain rfl : linfo.uid = uid := of_decide_eq_true own
    rw [get_write_add]
    exact Option.some_ne_none _
  | utime v nowMs =>
    obtain rfl : v = uid := of_decide_eq_true own
    exact utime_kept known
  | schange v newState => cases own
  | unfd v nfd => cases own
  | remove v =>
    obtain rfl : v = uid := of_decide_eq_true own
    exact absurd rfl notRemoved

theorem clock_le (onTime : OnTime w a) : w.clock ≤ (reads a).getD w.clock := by
  cases read : reads a with
  | none => exact Int.le_refl _
  | some now => exact (onTime now read).1

theorem effect_write (natural : 0 ≤ w.clock) {write : DbWrite} (onTime : OnTime w (.peers write))
    (h : step cfg uid w (.peers write) = some w') : Effect uid w (.peers write) w' := by
  obtain ⟨d, next, rfl⟩ := Option.map_eq_some_iff.mp h
  cases next
  cases own : settles uid (.peers write) with
  | true =>
    refine .settle (clock_le onTime) rfl (by rw [looks_same]; rfl) rfl ?_ ?_ rfl
    · exact fun last known => seen_write_self cfg.inet w.daemon.peers natural onTime own known
    · exact fun notRemoved known => write_kept cfg.inet w.daemon.peers own notRemoved known
  | false =>
    refine .stay (clock_le onTime) rfl (by rw [looks_same]; rfl) rfl ?_ rfl
    exact seen_write_ne cfg.inet w.daemon.peers own

theorem step_effect (natural : 0 ≤ w.clock) (onTime : OnTime w a) (h : step cfg uid w a = some w') :
    Effect uid w a w' := by
  cases a with
  | call nowMs =>
    obtain ⟨d, next, rfl⟩ := Option.map_eq_some_iff.mp h
    simp only [IoDaemon.step] at next
    split at next <;> cases next
    next idle => exact .call rfl idle (onTime nowMs rfl).1 rfl (by rw [idle]; rfl) rfl rfl rfl
  | wake r nonce timestamp => exact effect_wake h
  | ping => exact effect_ping h
  | endPings seconds =>
    obtain ⟨d, next, -⟩ := Option.map_eq_some_iff.mp h
    have ended := next
    simp only [IoDaemon.step] at ended
    split at ended
    swap
    · cases ended
    next snapshot pinging =>
      -- the snapshot is used up, so nobody is left to be looked at
      have done : ∀ snapshot rest, w.daemon.stage = .pinging snapshot rest → rest = [] := by
        simp [pinging]
      split at ended <;> cases ended
      · exact .of_aside h next rfl rfl ⟨rfl, rfl, rfl⟩ done (by simp [Aside])
      · exact .of_aside h next rfl rfl ⟨rfl, rfl, rfl⟩ done (skipAddt_aside _)
  | gossip seconds rand =>
    obtain ⟨d, next, -⟩ := Option.map_eq_some_iff.mp h
    have gossips := next
    simp only [IoDaemon.step] at gossips
    split at gossips
    swap
    · cases gossips
    next info rest gossiping =>
      obtain ⟨d', sends, rfl⟩ := Option.map_eq_some_iff.mp gossips
      -- gossip reads the peers and changes the gossip store only
      have kept : d'.nowMs = w.daemon.nowMs ∧ d'.peers = w.daemon.peers := by
        simp only [IoDaemon.gossipPeer] at sends
        split at sends <;> cases sends <;> exact ⟨rfl, rfl⟩
      exact .of_aside h next kept.1 kept.2 ⟨rfl, rfl, rfl⟩ (by simp [gossiping]) (by simp [Aside])
  | endGossip =>
    obtain ⟨d, next, -⟩ := Option.map_eq_some_iff.mp h
    have ended := next
    simp only [IoDaemon.step] at ended
    split at ended <;> cases ended
    next gossiping =>
      exact .of_aside h next rfl rfl ⟨rfl, rfl, rfl⟩ (by simp [gossiping]) (skipAddt_aside _)
  | pass pkt nowMs => exact effect_pass natural onTime h
  | endPass =>
    obtain ⟨d, next, -⟩ := Option.map_eq_some_iff.mp h
    have ended := next
    simp only [IoDaemon.step] at ended
    split at ended <;> cases ended
    next passing =>
      exact .of_aside h next rfl rfl ⟨rfl, rfl, rfl⟩ (by simp [passing]) (by simp [Aside])
  | peers write => exact effect_write natural onTime h
  | others =>
    obtain ⟨d, next, rfl⟩ := Option.map_eq_some_iff.mp h
    cases next
    exact .stay (Int.le_refl _) rfl (by rw [looks_same]; rfl) rfl rfl rfl

/-! ## The times of the calls -/

structure Timed (prompt : Nat) (w : Watched) : Prop where
  natural : 0 ≤ w.clock
  called : w.daemon.nowMs ≤ w.clock
  lookedAfter : w.lookedAfter ≤ w.clock
  waiting : w.daemon.stage = .waiting → w.daemon.nowMs ≤ w.lookedAfter + prompt
  pinging : ∀ snapshot rest, w.daemon.stage = .pinging snapshot rest →
    w.lookedAfter = w.daemon.nowMs

theorem Timed.step (timed : Timed prompt w) (prompt_ : Prompt prompt w a)
    (effect : Effect uid w a w') : Timed prompt w' := by
  obtain ⟨natural, called, looked, waiting, pinging⟩ := timed
  cases effect with
  | call begins idle later called' lookedAfter asked seen stage =>
    -- the call begins with its own time, and looks at the peers no earlier
    subst begins
    refine ⟨by omega, by omega, by omega, fun _ => ?_,
      fun snapshot rest still => by simp [stage] at still⟩
    rw [called', lookedAfter]
    exact prompt_
  | look waits clock called' lookedAfter asked seen stage =>
    exact ⟨by omega, by omega, by omega, fun still => by simp [stage] at still,
      fun _ _ _ => by omega⟩
  | ping snapshot rest info pings clock called' lookedAfter asked seen stage =>
    have := pinging _ _ pings
    exact ⟨by omega, by omega, by omega, fun still => by simp [stage] at still,
      fun _ _ _ => by omega⟩
  | move clock called' lookedAfter asked seen done aside =>
    exact ⟨by omega, by omega, by omega, fun still => absurd still aside.1,
      fun _ _ still => absurd still (aside.2 _ _)⟩
  | settle later called' lookedAfter asked seen kept stage =>
    rw [← stage] at waiting pinging
    rw [← called', ← lookedAfter] at waiting pinging
    exact ⟨by omega, by omega, by omega, waiting, pinging⟩
  | stay later called' lookedAfter asked seen stage =>
    rw [← stage] at waiting pinging
    rw [← called', ← lookedAfter] at waiting pinging
    exact ⟨by omega, by omega, by omega, waiting, pinging⟩

/-- In the snapshot, the peer is still to come and was last seen this long ago. -/
def ToCome (uid : UInt32) (gap : Int) (d : IoDaemon) : Prop :=
  ∃ snapshot rest, d.stage = .pinging snapshot rest ∧ ∃ info ∈ rest, info.uid = uid ∧
    info.lastSeen.toNat + gap ≤ d.nowMs

theorem get_of_snapshot {db : PeersDb} {info : PeerInfo} (member : info ∈ peersDbSnapshot db) :
    peersDbGet db info.uid = some info := by
  obtain ⟨⟨k, v⟩, stored, rfl⟩ := List.mem_map.mp member
  have key := db.keyed _ stored
  exact AssocTable.get_eq_some.mpr (by rwa [key])

theorem mem_snapshot {db : PeersDb} {info : PeerInfo} (known : peersDbGet db uid = some info) :
    info ∈ peersDbSnapshot db :=
  List.mem_map.mpr ⟨_, AssocTable.get_eq_some.mp known, rfl⟩

theorem not_toCome_of_done {gap : Int} {d : IoDaemon}
    (done : ∀ snapshot rest, d.stage = .pinging snapshot rest → rest = []) :
    ¬ ToCome uid gap d := by
  rintro ⟨snapshot, rest, pinging, info, member, -⟩
  rw [done snapshot rest pinging] at member
  cases member

/-- A peer that was seen too long ago is in the snapshot that is taken. -/
theorem toCome_of_look {gap last : Int} (known : last ∈ w.seen uid)
    (silent : last + gap ≤ w.daemon.nowMs) (called : w'.daemon.nowMs = w.daemon.nowMs)
    (stage : w'.daemon.stage = .pinging (peersDbSnapshot w.daemon.peers)
      (peersDbSnapshot w.daemon.peers)) :
    ToCome uid gap w'.daemon := by
  obtain ⟨info, stored, rfl⟩ := Option.map_eq_some_iff.mp known
  exact ⟨_, _, stage, info, mem_snapshot stored, uid_of_get stored, by rw [called]; exact silent⟩

/-- After a turn of the loop the peer is still to come, or this was its turn. -/
theorem toCome_of_ping {gap : Int} {snapshot rest : List PeerInfo} {info : PeerInfo}
    (pinging : w.daemon.stage = .pinging snapshot (info :: rest))
    (called : w'.daemon.nowMs = w.daemon.nowMs) (stage : w'.daemon.stage = .pinging snapshot rest)
    (before : ToCome uid gap w.daemon) :
    ToCome uid gap w'.daemon ∨ info.uid = uid ∧ info.lastSeen.toNat + gap ≤ w.daemon.nowMs := by
  obtain ⟨snapshot', rest', pinging', e, member, own, silent⟩ := before
  rw [pinging] at pinging'
  cases pinging'
  obtain rfl | later := List.mem_cons.mp member
  · exact .inr ⟨own, silent⟩
  · exact .inl ⟨snapshot, rest, stage, e, later, own, called ▸ silent⟩

theorem ToCome.congr {gap : Int} {d d' : IoDaemon} (stage : d'.stage = d.stage)
    (called : d'.nowMs = d.nowMs) : ToCome uid gap d' ↔ ToCome uid gap d := by
  rw [ToCome, stage, called, ToCome]

/-! ## A silent peer -/

/-- The last look was not ten seconds after the peer was seen, or it is not over. -/
def Forgets (uid : UInt32) (w : Watched) : Prop :=
  ∀ last ∈ w.seen uid, w.lookedAfter < last + 10000 ∨ ToCome uid 10000 w.daemon

theorem Forgets.step (timed : Timed prompt w) (forgets : Forgets uid w)
    (effect : Effect uid w a w') : Forgets uid w' := by
  intro last known
  cases effect with
  | call begins idle later called lookedAfter asked seen stage =>
    -- the loop of the last look is over
    rw [lookedAfter]
    exact .inl ((forgets last (seen ▸ known)).resolve_right (not_toCome_of_done (by simp [idle])))
  | look waiting clock called lookedAfter asked seen stage =>
    rw [lookedAfter]
    obtain recent | silent := Int.lt_or_le w.daemon.nowMs (last + 10000)
    · exact .inl recent
    · exact .inr (toCome_of_look (seen ▸ known) silent called stage)
  | ping snapshot rest info pinging clock called lookedAfter asked seen stage =>
    rw [seen] at known
    split at known
    · cases known
    next kept =>
      rw [lookedAfter]
      refine (forgets last known).imp_right fun toCome => ?_
      -- a peer that was due and had its turn is not known any more
      refine (toCome_of_ping pinging called stage toCome).resolve_right fun ⟨own, silent⟩ =>
        kept ⟨own, ?_⟩
      exact decide_eq_true (by omega)
  | move clock called lookedAfter asked seen done aside =>
    rw [lookedAfter]
    exact .inl ((forgets last (seen ▸ known)).resolve_right (not_toCome_of_done done))
  | settle later called lookedAfter asked seen kept stage =>
    have := seen last known
    have := timed.lookedAfter
    exact .inl (by omega)
  | stay later called lookedAfter asked seen stage =>
    rw [lookedAfter, ToCome.congr stage called]
    exact forgets last (seen ▸ known)

/-! ## A peer that answers -/

structure Detects (prompt within : Nat) (uid : UInt32) (w : Watched) : Prop where
  answered : w.daemon.stage = .waiting → ∀ since ∈ w.asked, w.daemon.nowMs ≤ since + within
  alive : ∀ snapshot rest, w.daemon.stage = .pinging snapshot rest →
    ∀ info ∈ rest, info.uid = uid → w.daemon.nowMs < info.lastSeen.toNat + 10000
  /-- A peer that is not asked was seen shortly before the last look, or will be asked. -/
  asks : ∀ last ∈ w.seen uid, w.asked = none → w.lookedAfter < last + 3000 ∨
    ToCome uid 3000 w.daemon
  soon : ∀ last ∈ w.seen uid, w.asked = none →
    ∀ snapshot rest, w.daemon.stage = .pinging snapshot rest →
    w.daemon.nowMs < last + 3000 + prompt
  /-- A PING follows at most a look and the next one after the peer was seen. -/
  asked : ∀ last ∈ w.seen uid, ∀ since ∈ w.asked, since < last + 3000 + prompt

/-- How long ago a peer can have been seen when a call begins. -/
theorem Detects.recent (detects : Detects prompt within uid w) (timed : Timed prompt w)
    (small : prompt + within ≤ 7000) (waiting : w.daemon.stage = .waiting) {last : Int}
    (known : last ∈ w.seen uid) :
    w.daemon.nowMs < last + 10000 ∧ (w.asked = none → w.daemon.nowMs < last + 3000 + prompt) := by
  have inTime := timed.waiting waiting
  cases asked : w.asked with
  | none =>
    -- the last look did not ask it, and was not long ago
    have := (detects.asks last known asked).resolve_right (not_toCome_of_done (by simp [waiting]))
    exact ⟨by omega, fun _ => by omega⟩
  | some since =>
    -- it was asked in time, and is given this time to answer
    have := detects.asked last known since asked
    have := detects.answered waiting since asked
    exact ⟨by omega, nofun⟩

/-- A peer that is not dead is pinged where it was last seen three seconds ago. -/
theorem pings_iff {d : IoDaemon} {snapshot rest : List PeerInfo} {info : PeerInfo}
    (pinging : d.stage = .pinging snapshot (info :: rest))
    (alive : info.uid = uid → d.nowMs < info.lastSeen.toNat + 10000) :
    pings uid d .ping = true ↔ info.uid = uid ∧ info.lastSeen.toNat + 3000 ≤ d.nowMs := by
  simp only [pings, pinging, decide_eq_true_eq]
  refine and_congr_right fun own => ?_
  have young : ¬ d.nowMs - info.lastSeen.toNat ≥ 10 * 1000 := by
    have := alive own
    omega
  rw [pingIterCall, if_neg young]
  split
  next due => exact iff_of_true (by simp) (by omega)
  next => exact iff_of_false (by simp) (by omega)

theorem Detects.ping (detects : Detects prompt within uid w) {snapshot rest : List PeerInfo}
    {info : PeerInfo} (pinging : w.daemon.stage = .pinging snapshot (info :: rest))
    (called : w'.daemon.nowMs = w.daemon.nowMs) (lookedAfter : w'.lookedAfter = w.lookedAfter)
    (asked : w'.asked = if pings uid w.daemon .ping then some (w.asked.getD w.daemon.nowMs)
      else w.asked)
    (seen : w'.seen uid = if info.uid = uid ∧ dead w.daemon.nowMs info then none else w.seen uid)
    (stage : w'.daemon.stage = .pinging snapshot rest) : Detects prompt within uid w' := by
  have young := detects.alive _ _ pinging
  have pingsIff := pings_iff pinging (young info (List.mem_cons_self ..))
  have kept : ∀ last ∈ w'.seen uid, last ∈ w.seen uid := by
    intro last known
    rw [seen] at known
    split at known
    · cases known
    · exact known
  refine ⟨fun waits => by simp [stage] at waits, fun snapshot' rest' still => ?_, ?_, ?_, ?_⟩
  · rw [stage] at still
    cases still
    rw [called]
    exact fun e member => young e (List.mem_cons_of_mem _ member)
  · intro last known unasked
    rw [asked] at unasked
    split at unasked
    · cases unasked
    -- the peer was not pinged, so the look that was to come was not this one
    next silent =>
      rw [lookedAfter]
      refine (detects.asks last (kept last known) unasked).imp_right fun toCome => ?_
      exact (toCome_of_ping pinging called stage toCome).resolve_right fun due =>
        silent (pingsIff.mpr due)
  · intro last known unasked snapshot' rest' still
    rw [asked] at unasked
    split at unasked
    · cases unasked
    · rw [called]
      exact detects.soon last (kept last known) unasked _ _ pinging
  · intro last known since waits
    rw [asked] at waits
    split at waits
    · cases waits
      cases before : w.asked with
      | none => exact detects.soon last (kept last known) before _ _ pinging
      | some since => exact detects.asked last (kept last known) since before
    · exact detects.asked last (kept last known) since waits

theorem Detects.step (small : prompt + within ≤ 7000) (timed : Timed prompt w)
    (detects : Detects prompt within uid w) (answers : Answers within w a)
    (effect : Effect uid w a w') : Detects prompt within uid w' := by
  cases effect with
  | call begins idle later called lookedAfter asked seen stage =>
    refine ⟨fun _ => ?_, fun _ _ still => by simp [stage] at still, ?_,
      fun _ _ _ _ _ still => by simp [stage] at still, ?_⟩
    · rw [begins] at answers
      rw [called, asked]
      exact answers
    · intro last known unasked
      rw [lookedAfter]
      exact .inl ((detects.asks last (seen ▸ known) (asked ▸ unasked)).resolve_right
        (not_toCome_of_done (by simp [idle])))
    · rw [seen, asked]
      exact detects.asked
  | look waiting clock called lookedAfter asked seen stage =>
    have recent {last : Int} (known : last ∈ w.seen uid) := detects.recent timed small waiting known
    refine ⟨fun still => by simp [stage] at still, fun snapshot rest still => ?_, ?_, ?_, ?_⟩
    · rw [stage] at still
      cases still
      rw [called]
      -- what the snapshot holds of the peer is what is known of it now
      refine fun info member own => (recent ?_).1
      rw [Watched.seen, ← own, get_of_snapshot member]
      rfl
    · intro last known unasked
      rw [lookedAfter]
      obtain late | due := Int.lt_or_le w.daemon.nowMs (last + 3000)
      · exact .inl late
      · exact .inr (toCome_of_look (seen ▸ known) due called stage)
    · intro last known unasked snapshot rest still
      rw [called]
      exact (recent (seen ▸ known)).2 (asked ▸ unasked)
    · rw [seen, asked]
      exact detects.asked
  | ping snapshot rest info pinging clock called lookedAfter asked seen stage =>
    exact detects.ping pinging called lookedAfter asked seen stage
  | move clock called lookedAfter asked seen done aside =>
    refine ⟨fun still => absurd still aside.1, fun _ _ still => absurd still (aside.2 _ _), ?_,
      fun _ _ _ _ _ still => absurd still (aside.2 _ _), ?_⟩
    · intro last known unasked
      rw [lookedAfter]
      exact .inl ((detects.asks last (seen ▸ known) (asked ▸ unasked)).resolve_right
        (not_toCome_of_done done))
    · rw [seen, asked]
      exact detects.asked
  | settle later called lookedAfter asked seen kept stage =>
    -- the peer was seen no earlier than the call began
    have := timed.called
    have := timed.lookedAfter
    refine ⟨fun still since waits => by simp [asked] at waits, ?_, ?_, ?_,
      fun last known since waits => by simp [asked] at waits⟩
    · rw [stage, called]
      exact detects.alive
    · intro last known unasked
      have := seen last known
      exact .inl (by omega)
    · intro last known unasked snapshot rest still
      have := seen last known
      omega
  | stay later called lookedAfter asked seen stage =>
    obtain ⟨answered, alive, asks, soon, asked'⟩ := detects
    rw [← stage, ← called, ← asked] at answered
    rw [← stage, ← called] at alive
    rw [← seen, ← asked, ← lookedAfter, ← ToCome.congr stage called] at asks
    rw [← seen, ← asked, ← stage, ← called] at soon
    rw [← seen, ← asked] at asked'
    exact ⟨answered, alive, asks, soon, asked'⟩

theorem Detects.kept (detects : Detects prompt within uid w) (effect : Effect uid w a w')
    (notRemoved : a ≠ .peers (.remove uid)) (known : w.seen uid ≠ none) : w'.seen uid ≠ none := by
  cases effect with
  | settle later called lookedAfter asked seen kept stage => exact kept notRemoved known
  | ping snapshot rest info pinging clock called lookedAfter asked seen stage =>
    have young := detects.alive _ _ pinging info (List.mem_cons_self ..)
    rw [seen, if_neg]
    · exact known
    · rintro ⟨own, silent⟩
      have := young own
      have := of_decide_eq_true silent
      omega
  | call begins idle later called lookedAfter asked seen stage => exact seen ▸ known
  | look waiting clock called lookedAfter asked seen stage => exact seen ▸ known
  | move clock called lookedAfter asked seen done aside => exact seen ▸ known
  | stay later called lookedAfter asked seen stage => exact seen ▸ known

/-! ## Runs -/

/-- The daemon when it is created. -/
def create (self truid : UInt32) (servers : List S2StateIntr) (start : Int) : Watched :=
  ⟨IoDaemon.create self truid servers start, start, start, none⟩

variable {self truid : UInt32} {servers : List S2StateIntr} {start : Int} {as bs : List IoAction}

theorem create_timed (natural : 0 ≤ start) : Timed prompt (create self truid servers start) :=
  ⟨natural, Int.le_refl _, Int.le_refl _, nofun, nofun⟩

theorem create_detects : Detects prompt within uid (create self truid servers start) :=
  ⟨nofun, nofun, nofun, nofun, nofun⟩

/-- What holds of a peer in a run in which it answers. -/
theorem step_detects (small : prompt + within ≤ 7000)
    (inv : Timed prompt w ∧ Detects prompt within uid w)
    (onTime : OnTime w a ∧ Prompt prompt w a ∧ Answers within w a)
    (h : step cfg uid w a = some w') : Timed prompt w' ∧ Detects prompt within uid w' := by
  have effect := step_effect inv.1.natural onTime.1 h
  exact ⟨inv.1.step onTime.2.1 effect, inv.2.step small inv.1 onTime.2.2 effect⟩

theorem step_forgets (inv : Timed prompt w ∧ Forgets uid w)
    (onTime : OnTime w a ∧ Prompt prompt w a)
    (h : step cfg uid w a = some w') : Timed prompt w' ∧ Forgets uid w' := by
  have effect := step_effect inv.1.natural onTime.1 h
  exact ⟨inv.1.step onTime.2 effect, inv.2.step inv.1 effect⟩

/-- A peer that answers every PING in time is never forgotten by the daemon, if it looks after the
    peers often enough and no other thread removes the peer. -/
theorem answering_peer_stays (cfg : IoConfig) (uid self truid : UInt32) (servers : List S2StateIntr)
    (start : Int) (natural : 0 ≤ start) (prompt within : Nat) (small : prompt + within ≤ 7000)
    (as bs : List IoAction) (w w' : Watched)
    (meets : Transition.Meets (Watched.step cfg uid)
      (fun w a => OnTime w a ∧ Prompt prompt w a ∧ Answers within w a)
      (create self truid servers start) (as ++ bs))
    (reached : Transition.run (Watched.step cfg uid) (create self truid servers start) as = some w)
    (later : Transition.run (Watched.step cfg uid) w bs = some w')
    (notRemoved : ∀ a ∈ bs, a ≠ .peers (.remove uid))
    (known : w.seen uid ≠ none) : w'.seen uid ≠ none := by
  obtain ⟨first, second⟩ := meets.append reached
  have inv := Transition.run_invariant_where (fun w a w' => step_detects small)
    ⟨create_timed natural, create_detects⟩ first reached
  -- only a look at a peer that was asked too long ago removes it, and there is none
  have kept := Transition.run_invariant_where
    (I := fun w => (Timed prompt w ∧ Detects prompt within uid w) ∧ w.seen uid ≠ none)
    (fun w a w' inv ok next => ⟨step_detects small inv.1 ok.1 next,
      inv.1.2.kept (step_effect inv.1.1.natural ok.1.1 next) ok.2 inv.2⟩)
    ⟨inv, known⟩ (second.and (Transition.meets_of_mem notRemoved w)) later
  exact kept.2

/-- A look at the only peer, at which nothing has arrived. -/
def sampleLook (nowMs : Int) : List IoAction := [.call nowMs, .wake 0 0 0, .ping, .endPings 0]

/-- A peer is added, and pinged after three seconds. -/
def sampleAsked : List IoAction := .peers (.add samplePeer .active 0) :: sampleLook 3000

/-- Its answer arrives with the next look, which also gossips. -/
def sampleAnswered : List IoAction :=
  [.call 6000, .wake 1 0 0, .ping, .endPings 0, .gossip 0 fun _ => 0, .endGossip,
    .pass ⟨{ Watching.samplePacket.pack with hFrom := 7 }, ⟨3, .unspec, 0⟩⟩ 6500, .endPass]

theorem answering_peer_stays_answered :
    ∃ w, Transition.run (Watched.step IoDaemon.sampleConfig 7) (create 1 1 [] 0)
      (sampleAsked ++ sampleAnswered) = some w ∧
      w.seen 7 ≠ none := by
  obtain ⟨w, reached⟩ := Option.isSome_iff_exists.mp
    (show (Transition.run (Watched.step IoDaemon.sampleConfig 7) (create 1 1 [] 0)
      sampleAsked).isSome by decide +kernel)
  obtain ⟨w', both⟩ := Option.isSome_iff_exists.mp
    (show (Transition.run (Watched.step IoDaemon.sampleConfig 7)
    (create 1 1 [] 0) (sampleAsked ++ sampleAnswered)).isSome by decide +kernel)
  obtain ⟨u, first, later⟩ := Transition.run_append.mp both
  cases reached.symm.trans first
  refine ⟨w', both, ?_⟩
  refine answering_peer_stays IoDaemon.sampleConfig 7 1 1 [] 0 (by decide) 3000 4000 (by decide)
    sampleAsked sampleAnswered w w'
    (by decide +kernel) reached later (by simp [sampleAnswered]) ?_
  have known : (Transition.run (Watched.step IoDaemon.sampleConfig 7) (create 1 1 [] 0)
      sampleAsked).any
      (fun w => w.seen 7 ≠ none) = true := by decide +kernel
  simpa [reached] using known

/-- Where two looks are seven seconds apart, which packets of others can bring about, a peer is
    forgotten that was not asked at all. -/
theorem late_look_forgets :
    Transition.Meets (Watched.step IoDaemon.sampleConfig 7)
      (fun w a => OnTime w a ∧ Prompt 7001 w a ∧ Answers 0 w a)
        (create 1 1 [] 0) (.peers (.add samplePeer .active 0) :: sampleLook 2999 ++
          sampleLook 10000) ∧
      ∃ w, Transition.run (Watched.step IoDaemon.sampleConfig 7) (create 1 1 [] 0)
        (.peers (.add samplePeer .active 0) :: sampleLook 2999 ++ sampleLook 10000) = some w ∧
          w.seen 7 = none := by
  refine ⟨by decide +kernel, ?_⟩
  have forgotten : (Transition.run (Watched.step IoDaemon.sampleConfig 7) (create 1 1 [] 0)
      (.peers (.add samplePeer .active 0) :: sampleLook 2999 ++ sampleLook 10000)).any
        (fun w => w.seen 7 = none) = true := by
    decide +kernel
  simpa [Option.any_eq_true] using forgotten

/-- A peer that is silent is forgotten at the first look after ten seconds: no call finds a record
    of a peer that was silent for longer than that and the time between two looks. -/
theorem silent_peer_leaves (cfg : IoConfig) (uid self truid : UInt32) (servers : List S2StateIntr)
    (start : Int) (natural : 0 ≤ start) (prompt : Nat) (as : List IoAction) (w : Watched)
    (meets : Transition.Meets (Watched.step cfg uid) (fun w a => OnTime w a ∧ Prompt prompt w a)
      (create self truid servers start) as)
    (reached : Transition.run (Watched.step cfg uid) (create self truid servers start) as = some w)
    (calls : w.daemon.stage = .waiting) :
    ∀ last ∈ w.seen uid, w.daemon.nowMs < last + 10000 + prompt := by
  have inv := Transition.run_invariant_where (fun w a w' => step_forgets)
    ⟨create_timed natural, nofun⟩ meets reached
  intro last known
  have inTime := inv.1.waiting calls
  have := (inv.2 last known).resolve_right (not_toCome_of_done (by simp [calls]))
  omega

/-- At a call after six seconds, the record is not too old. -/
theorem silent_peer_leaves_asked :
    ∃ w, Transition.run (Watched.step IoDaemon.sampleConfig 7) (create 1 1 [] 0)
      (sampleAsked ++ [.call 6000]) = some w ∧
      w.daemon.stage = .waiting ∧ ∀ last ∈ w.seen 7, w.daemon.nowMs < last + 10000 +
        (3000 : Nat) := by
  have called : (Transition.run (Watched.step IoDaemon.sampleConfig 7) (create 1 1 [] 0)
      (sampleAsked ++ [.call 6000])).any
      (fun w => w.daemon.stage = .waiting) = true := by decide +kernel
  obtain ⟨w, reached, waiting⟩ := (Option.any_eq_true _ _).mp called
  have calls := of_decide_eq_true waiting
  exact ⟨w, reached, calls, silent_peer_leaves IoDaemon.sampleConfig 7 1 1 [] 0 (by decide) 3000 _ w
    (by decide +kernel) reached calls⟩

end Watched

end Soter2.Interface
