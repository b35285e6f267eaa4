import Mathlib.Data.List.Basic
import Mathlib.Tactic.Common
import Soter2.Base.Worker
import Soter2.Rudp.Dispatcher

/-! # The loop of the dispatcher (`rudp/src/dispatcher.c`)

`_rudp_dispatcher_worker` step by step, with its queue and event socket: between the drain
and the packets it looks after the timeouts of all connections.  A connection that the
timeouts close stays in the table.
-/

namespace Soter2.Rudp

open Base Protocol

/-- The worker with a packet in its hand. -/
def rudpDispatcherHandle (disp : RudpDispatcher) (pkt : Protopack) (rand : Nat) (nowMs : Int) :
    Worked :=
  match rudpGetConnection disp pkt.hFrom rand with
  | .divisionByZero => .divisionByZero
  | .missing => .done disp []
  | .found slot =>
    let handled := rudpDispatcherNetHandler disp slot (udpCopyPack pkt) nowMs
    .done handled.1 handled.2

theorem rudpDispatcherWorker_cons {disp : RudpDispatcher} {pkt : Protopack} {rest : List Protopack}
    (queue : disp.passedPkts = pkt :: rest) (rand : Nat) (nowMs : Int) :
    rudpDispatcherWorker disp rand nowMs
      = rudpDispatcherHandle { disp with passedPkts := rest } pkt rand nowMs := by
  rw [rudpDispatcherWorker, queue]
  rfl

/-- The locals of the worker beside its loop, and what it has handed to `pvd_sender_send`. -/
structure WorkerLocals where
  disp : RudpDispatcher
  lastTimeoutCheck : Int
  out : List Protopack

/-- The timeouts of all connections, every 10 milliseconds at most. -/
def WorkerLocals.timeouts (w : WorkerLocals) (nowMs : Int) : WorkerLocals :=
  if nowMs - w.lastTimeoutCheck ≥ 10 then
    { disp := { w.disp with connections := w.disp.connections.mapValues fun conn =>
      (rudpConnTimeouts conn nowMs).2.1 }
      lastTimeoutCheck := nowMs
      out := w.out ++ w.disp.connections.entries.flatMap fun e => (rudpConnTimeouts e.2 nowMs).2.2 }
  else w

def WorkerLocals.handle (w : WorkerLocals) (pkt : Protopack) (rand : Nat) (nowMs : Int) :
    Option WorkerLocals :=
  match rudpDispatcherHandle w.disp pkt rand nowMs with
  | .done disp out => some { w with disp := disp, out := w.out ++ out }
  | .idle | .divisionByZero => none

/-- `_rudp_dispatcher_worker`.  A step reads a random number and the clock. -/
def rudpDispatcherLoop : LoopCode Protopack WorkerLocals (Nat × Int) where
  drainsAgain := true
  checksRunning := true
  tick := fun input w => w.timeouts input.2
  handle := fun input pkt w => w.handle pkt input.1 input.2

end Soter2.Rudp
