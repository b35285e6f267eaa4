import Mathlib.Data.List.Basic
import Mathlib.Tactic.Common
import Soter2.Base.Events
import Soter2.Library.Transition
import Soter2.Lownet.Netfd
import Soter2.Protocol.Packet

/-! # The watcher (`watcher/src/system.c`)

Any thread hands a packet over with `watcher_pass`: a push and a notification.  The worker
takes one packet each time it wakes up, and one wake-up may stand for several notifications.

* `emptied_iff_onePerWake` — in which runs the worker leaves no packet behind when it blocks.
-/

namespace Soter2.Watching

open Soter2.Base Soter2.Lownet Soter2.Protocol

structure ListenerPacket where
  pack : Protopack
  fromWho : NnetFd
deriving DecidableEq

/-- What the worker does with a packet. -/
inductive Disposal where
  | rudp
  | unknownType
  | handled
  | noHandler
deriving DecidableEq, Repr

/-- The branches at the end of `watcher_worker`, with the types that have a handler. -/
def dispose (registered : UInt8 → Bool) (pkt : Protopack) : Disposal :=
  if udpIsRudpReq pkt.packtype then .rudp
  else if pkt.packtype.toNat ≥ packetTypeMax then .unknownType
  else if registered pkt.packtype then .handled
  else .noHandler

inductive WorkerPc where
  /-- In front of the `poll` of `mt_evsock_wait`. -/
  | waiting
  /-- In front of the `read` of `mt_evsock_wait`. -/
  | reading
  | draining
  | popping
  | handling (wpkt : ListenerPacket)
  | exited
deriving DecidableEq

structure Watcher where
  passed : Mailbox ListenerPacket
  isRunning : Bool
  pc : WorkerPc
  log : List (ListenerPacket × Disposal)

def watcherInit (zero : ListenerPacket) : Watcher := ⟨Mailbox.create zero, true, .waiting, []⟩

/-- The next step of `watcher_worker`. -/
def watcherWorker (registered : UInt8 → Bool) (w : Watcher) : Option Watcher :=
  match w.pc with
  | .waiting =>
    if w.isRunning = false then some { w with pc := .exited }
    else if w.passed.readable then some { w with pc := .reading }
    -- the time is up, and the loop starts again
    else some w
  | .reading => some { w with passed := w.passed.drain, pc := .draining }
  | .draining => some { w with passed := w.passed.drain, pc := .popping }
  | .popping =>
    match w.passed.pop with
    | some (wpkt, passed) => some { w with passed := passed, pc := .handling wpkt }
    | none => some { w with pc := .waiting }
  | .handling wpkt =>
    some { w with log := w.log ++ [(wpkt, dispose registered wpkt.pack)], pc := .waiting }
  | .exited => none

inductive WatcherAction where
  /-- `watcher_pass` up to the notification. -/
  | push (wpkt : ListenerPacket) (malloc : Nat → ListenerPacket)
  | notify
  | work
  /-- The `atomic_store` of `watcher_end`. -/
  | stop

def step (registered : UInt8 → Bool) (w : Watcher) : WatcherAction → Option Watcher
  | .push wpkt malloc => some { w with passed := w.passed.push malloc wpkt }
  | .notify => w.passed.notify.map fun passed => { w with passed := passed }
  | .work => watcherWorker registered w
  | .stop => some { w with isRunning := false }

namespace Watcher

/-- The worker is in front of a `poll` that blocks, and no caller of `watcher_pass` is
    between its push and its notification. -/
def AboutToBlock (w : Watcher) : Prop := w.pc = .waiting ∧ w.isRunning = true ∧ w.passed.view.Quiet

/-- The packets that the worker takes before it waits again. -/
def due (w : Watcher) : Nat :=
  match w.pc with
  | .draining | .popping => 1
  | .waiting | .reading | .handling _ | .exited => 0

/-- No more packets than wake-ups. -/
def Balanced (w : Watcher) : Prop := w.passed.view.Balanced w.due

def Woken (w : Watcher) : Prop := w.pc = .reading → 0 < w.passed.event

end Watcher

open Watcher

/-- Where the worker reads the counter, one packet at most is queued besides those whose
    notification is still to come. -/
def OnePerWake (w : Watcher) : WatcherAction → Prop
  | .work =>
    w.pc = .reading ∨ w.pc = .draining → w.passed.queue.contents.length ≤ w.passed.between + 1
  | .push .. | .notify | .stop => True

variable {registered : UInt8 → Bool} {w w' : Watcher} {a : WatcherAction}

theorem step_woken (woken : w.Woken) (h : step registered w a = some w') : w'.Woken := by
  intro reading
  cases a with
  | push wpkt malloc => cases h; exact woken reading
  | notify =>
    obtain ⟨passed, notified, rfl⟩ := Option.map_eq_some_iff.mp h
    obtain ⟨-, rfl⟩ := Mailbox.notify_eq_some.mp notified
    exact Nat.succ_pos _
  | stop => cases h; exact woken reading
  | work =>
    simp only [step, watcherWorker] at h
    cases pc : w.pc with
    | waiting =>
      simp only [pc] at h
      split at h
      · cases h; cases reading
      · split at h
        next readable => cases h; exact of_decide_eq_true readable
        next => cases h; simp [pc] at reading
    | reading | draining | handling => simp only [pc] at h; cases h; cases reading
    | popping =>
      simp only [pc] at h
      split at h <;> (cases h; cases reading)
    | exited => simp [pc] at h

/-- A step of the worker or of a caller keeps the balance, except for a read of the counter
    that stands for more than one packet; and no step restores it. -/
theorem step_balanced (woken : w.Woken) (h : step registered w a = some w') :
    w'.Balanced ↔ w.Balanced ∧ OnePerWake w a := by
  cases a with
  | push wpkt malloc =>
    cases h
    rw [OnePerWake, and_true, Watcher.Balanced, Mailbox.view_push]
    exact EventQueue.State.balanced_push _ _ _
  | notify =>
    obtain ⟨passed, notified, rfl⟩ := Option.map_eq_some_iff.mp h
    obtain ⟨pending, view⟩ := Mailbox.view_notify notified
    rw [OnePerWake, and_true, Watcher.Balanced, view]
    exact EventQueue.State.balanced_notify pending _
  | stop =>
    cases h
    exact (and_iff_left trivial).symm
  | work =>
    simp only [step, watcherWorker] at h
    cases pc : w.pc with
    | waiting =>
      -- a poll changes neither the queue nor the counter
      have same : w'.passed = w.passed ∧ w'.due = w.due := by
        simp only [pc] at h
        split at h
        · cases h; exact ⟨rfl, by simp [due, pc]⟩
        · split at h
          · cases h; exact ⟨rfl, by simp [due, pc]⟩
          · cases h; exact ⟨rfl, rfl⟩
      simp [Watcher.Balanced, OnePerWake, same, pc]
    | reading =>
      simp only [pc, Option.some.injEq] at h
      subst h
      -- the read takes the counter back to zero, and one item at most is going to be popped
      have event : 0 < w.passed.view.counter := woken pc
      simp only [Watcher.Balanced, due, pc, OnePerWake, Mailbox.view_drain,
        EventQueue.State.balanced_reset]
      simp only [EventQueue.State.Balanced, Mailbox.view] at event ⊢
      simp only [true_or, true_implies]
      omega
    | draining =>
      simp only [pc, Option.some.injEq] at h
      subst h
      simp only [Watcher.Balanced, due, pc, OnePerWake, Mailbox.view_drain,
        EventQueue.State.balanced_reset]
      simp only [EventQueue.State.Balanced, Mailbox.view, or_true, true_implies]
      omega
    | popping =>
      simp only [pc] at h
      split at h
      next wpkt passed popped =>
        cases h
        obtain ⟨items, view⟩ := Mailbox.view_of_pop popped
        simp only [Watcher.Balanced, due, pc, OnePerWake, view, reduceCtorEq, or_self,
          false_implies, and_true]
        exact EventQueue.State.balanced_rest (by simp [items])
      next popped =>
        cases h
        -- a wake-up with nothing in the queue
        have empty := Mailbox.pop_eq_none.mp popped
        simp [Watcher.Balanced, EventQueue.State.Balanced, OnePerWake, pc, empty]
    | handling wpkt =>
      simp only [pc, Option.some.injEq] at h
      subst h
      simp [Watcher.Balanced, due, OnePerWake, pc]
    | exited => simp [pc] at h

/-- Where the worker is about to block, the queue is empty exactly if in the run so far each
    read of the counter stood for one packet at most. -/
theorem emptied_iff_onePerWake (registered : UInt8 → Bool) (zero : ListenerPacket)
    (as : List WatcherAction) (w : Watcher)
    (reached : Transition.run (step registered) (watcherInit zero) as = some w)
    (blocks : w.AboutToBlock) :
    w.passed.queue.contents = [] ↔ Transition.Meets (step registered) OnePerWake (watcherInit zero)
      as := by
  obtain ⟨waiting, -, quiet⟩ := blocks
  have noneDue : w.due = 0 := by simp [due, waiting]
  have balanced : w.Balanced ↔ w.passed.queue.contents = [] := by
    rw [Watcher.Balanced, noneDue]
    exact EventQueue.State.balanced_quiet quiet
  rw [← balanced]
  exact Transition.holds_iff_meets (fun _ _ _ => step_woken) (fun _ _ _ => step_balanced)
    (by simp [Woken, watcherInit]) (Nat.le_refl 0) reached

def sampleNfd : NnetFd := ⟨0, .unspec, 0⟩

def samplePing : Protopack :=
  { seq := 0, chsum := 0, dSize := 0, hFrom := 7, hTo := 1, packtype := ProtopackType.ping.code,
    data := [] }

def samplePacket : ListenerPacket := ⟨samplePing, sampleNfd⟩

/-- Two packets are passed one after the other, and the worker has a turn after each. -/
def oneByOne : List WatcherAction :=
  [.push samplePacket fun _ => samplePacket, .notify, .work, .work, .work, .work, .work,
    .push samplePacket fun _ => samplePacket, .notify, .work, .work, .work, .work, .work]

/-- Two packets are passed before the worker wakes up. -/
def atOnce : List WatcherAction :=
  [.push samplePacket fun _ => samplePacket, .notify, .push samplePacket fun _ => samplePacket,
    .notify, .work, .work, .work, .work, .work]

/-- Where the worker stands after a run, and what is left in the queue. -/
def outcome (as : List WatcherAction) :
    Option ((WorkerPc × Bool × Nat × Nat) × List ListenerPacket) :=
  (Transition.run (step fun _ => true) (watcherInit samplePacket) as).map fun w =>
    ((w.pc, w.isRunning, w.passed.event, w.passed.between), w.passed.queue.contents)

theorem blocks_of_outcome (as : List WatcherAction) (left : List ListenerPacket)
    (h : outcome as = some ((.waiting, true, 0, 0), left)) :
    ∃ w, Transition.run (step fun _ => true) (watcherInit samplePacket) as = some w ∧
      w.AboutToBlock ∧
      w.passed.queue.contents = left := by
  obtain ⟨w, reached, eq⟩ := Option.map_eq_some_iff.mp h
  simp only [Prod.mk.injEq] at eq
  obtain ⟨⟨pc, running, event, between⟩, contents⟩ := eq
  exact ⟨w, reached, ⟨pc, running, event, between⟩, contents⟩

theorem emptied_iff_onePerWake_oneByOne :
    ∃ w, Transition.run (step fun _ => true) (watcherInit samplePacket) oneByOne = some w ∧
      w.AboutToBlock ∧
      (w.passed.queue.contents = [] ↔
        Transition.Meets (step fun _ => true) OnePerWake (watcherInit samplePacket) oneByOne) := by
  obtain ⟨w, reached, blocks, -⟩ := blocks_of_outcome oneByOne [] (by decide +kernel)
  exact ⟨w, reached, blocks, emptied_iff_onePerWake (fun _ => true) samplePacket oneByOne w reached
    blocks⟩

/-- One of the two packets is taken, and the worker blocks on the other. -/
theorem packet_left_behind :
    ∃ w, Transition.run (step fun _ => true) (watcherInit samplePacket) atOnce = some w ∧
      w.AboutToBlock ∧
      w.passed.queue.contents = [samplePacket] :=
  blocks_of_outcome atOnce [samplePacket] (by decide +kernel)

end Soter2.Watching
