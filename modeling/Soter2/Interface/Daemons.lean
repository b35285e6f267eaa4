import Mathlib.Data.List.Basic
import Mathlib.Tactic.Common
import Soter2.Interface.Connections
import Soter2.Turn.Client
import Soter2.Watcher.System

/-! # The I/O daemon (`interface/src/daemons.c`)

`daemon_run` calls `_daemon_io` again and again.  A call waits for the listener, looks after
the peers, and passes the packets on: those of a TURN pair to the peer behind the relay,
those of RUDP to the dispatcher and all others to the watcher.

* `wakeups_lost_by_drain_only` — when the dispatcher and the daemon leave packets behind.
-/

namespace Soter2.Interface

open Base Lownet Peers Protocol Rudp Turn
open Watching (ListenerPacket)

/-- What a call of `_daemon_io` works on beside the queue of the listener, with the packets
    that it has passed on. -/
structure DaemonIo where
  conns : S2Connections
  turnCli : TurnClient
  outgoing : List (Option Protopack × Naddr)
  toDispatcher : List Protopack
  toWatcher : List ListenerPacket

/-- The body of the packet loop, up to `skip`. -/
def DaemonIo.route (d : DaemonIo) (pkt : ListenerPacket) : Option DaemonIo :=
  -- the pair in reversed order
  if turnCheckPair d.turnCli pkt.pack.hTo pkt.pack.hFrom then
    match d.turnCli.bindedClients.get (turnPairHash pkt.pack.hTo pkt.pack.hFrom) with
    | none => some d
    | some bpeer =>
      (turnClientWrap d.turnCli pkt.pack).map fun wrapped =>
        { d with outgoing := d.outgoing ++ [(wrapped.outgoing, bpeer.linfoOrigin.addr)] }
  else if udpIsRudpReq pkt.pack.packtype then
    some { d with toDispatcher := d.toDispatcher ++ [pkt.pack] }
  else some { d with toWatcher := d.toWatcher ++ [pkt] }

def DaemonIo.handle (d : DaemonIo) (pkt : ListenerPacket) (nowMs : Int) : Option DaemonIo :=
  (d.route pkt).map fun d =>
    { d with conns := { d.conns with
        peers := peersDbUtime d.conns.peers pkt.pack.hFrom (UInt32.ofNat nowMs.toNat) } }

/-- The calls of `_daemon_io`.  A step reads whether the packet rate is above 1, which skips
    the look after the peers, and the clock. -/
def daemonIo : LoopCode ListenerPacket DaemonIo (Bool × Int) where
  drainsAgain := false
  checksRunning := false
  tick := fun input d => if input.1 then d else { d with conns := pingPeers input.2 d.conns }
  handle := fun input pkt d => d.handle pkt input.2

/-- The dispatcher and the daemon block with packets in their queues after a drain that
    follows a wait whose time was up, and after nothing else. -/
theorem wakeups_lost_by_drain_only (zero : Protopack) (locals : WorkerLocals)
    (as : List (LoopAction Protopack WorkerLocals (Nat × Int))) (blank : ListenerPacket)
    (daemon : DaemonIo) (bs : List (LoopAction ListenerPacket DaemonIo (Bool × Int))) :
    LosesByDrainOnly rudpDispatcherLoop zero locals as ∧
      LosesByDrainOnly daemonIo blank daemon bs :=
  ⟨losesByDrainOnly rudpDispatcherLoop zero locals as, losesByDrainOnly daemonIo blank daemon bs⟩

def idleLocals : WorkerLocals := ⟨rudpDispatcherNew 1, 0, []⟩

def idleDaemon : DaemonIo :=
  ⟨s2ConnectionsCreate 1, ⟨0, 1, AssocTable.empty, AssocTable.empty⟩, [], [], []⟩

/-- A packet that is passed between the end of the time and the drain stays in the queue. -/
theorem packet_passed_late_stays :
    (∃ s, Transition.run rudpDispatcherLoop.step (LoopState.init finOfPeer idleLocals)
        (passedLate finOfPeer (0, 0)) = some s ∧ s.AboutToBlock ∧
          s.box.queue.contents = [finOfPeer]) ∧
    ∃ s, Transition.run daemonIo.step (LoopState.init Watching.samplePacket idleDaemon)
        (passedLate Watching.samplePacket (false, 0)) = some s ∧ s.AboutToBlock ∧
      s.box.queue.contents = [Watching.samplePacket] :=
  ⟨passedLate_stuck rudpDispatcherLoop idleLocals finOfPeer (0, 0),
    passedLate_stuck daemonIo idleDaemon Watching.samplePacket (false, 0)⟩

end Soter2.Interface
