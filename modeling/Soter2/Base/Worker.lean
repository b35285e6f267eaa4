import Mathlib.Data.List.Basic
import Mathlib.Tactic.Common
import Soter2.Base.Events
import Soter2.Library.Transition

/-! # Loops that empty a queue at each wake-up

`_rudp_dispatcher_worker` and the repeated calls of `_daemon_io` are loops of one shape: wait
for the event socket with a time limit, drain it, do what is due by the clock, go back to the
start if the time was up, and otherwise take packets until there are none.  The drain also
happens when the time was up.

* `blocks_empty` — in which runs such a loop never blocks with packets in its queue.
* `stuck_after_lost_event` — what follows on a drain that loses an event.
-/

namespace Soter2.Base

/-- What distinguishes the two loops.  `σ` is the rest of the node, and `ι` what a step reads
    from outside: the clock and random numbers. -/
structure LoopCode (α σ ι : Type*) where
  /-- There is a second `mt_evsock_drain` before the packets are taken. -/
  drainsAgain : Bool
  /-- A packet that is taken while `is_running` is false ends the loop. -/
  checksRunning : Bool
  tick : ι → σ → σ
  /-- `none` where the process ends. -/
  handle : ι → α → σ → Option σ

inductive LoopPc (α : Type*) where
  /-- In front of the `poll` of `mt_evsock_wait`. -/
  | waiting
  /-- In front of the `read` of `mt_evsock_wait`. -/
  | reading
  | draining (woken : Bool)
  | ticking (woken : Bool)
  | drainingAgain
  | popping
  | handling (elem : α)
  | exited
deriving DecidableEq

structure LoopState (α σ : Type*) where
  box : Mailbox α
  isRunning : Bool
  pc : LoopPc α
  rest : σ

variable {α σ ι : Type*}

def LoopState.init (zero : α) (rest : σ) : LoopState α σ :=
  ⟨Mailbox.create zero, true, .waiting, rest⟩

/-- The next step of the loop. -/
def LoopCode.work (code : LoopCode α σ ι) (input : ι) (s : LoopState α σ) :
    Option (LoopState α σ) :=
  match s.pc with
  | .waiting =>
    if s.isRunning = false then some { s with pc := .exited }
    else if s.box.readable then some { s with pc := .reading }
    else some { s with pc := .draining false }
  | .reading => some { s with box := s.box.drain, pc := .draining true }
  | .draining woken => some { s with box := s.box.drain, pc := .ticking woken }
  | .ticking woken =>
    some { s with
      rest := code.tick input s.rest
      pc := if woken then (if code.drainsAgain then .drainingAgain else .popping) else .waiting }
  | .drainingAgain => some { s with box := s.box.drain, pc := .popping }
  | .popping =>
    match s.box.pop with
    | some (elem, box) =>
      if code.checksRunning && !s.isRunning then some { s with box := box, pc := .exited }
      else some { s with box := box, pc := .handling elem }
    | none => some { s with pc := .waiting }
  | .handling elem =>
    (code.handle input elem s.rest).map fun rest => { s with rest := rest, pc := .popping }
  | .exited => none

inductive LoopAction (α σ ι : Type*) where
  | push (elem : α) (malloc : Nat → α)
  | notify
  | work (input : ι)
  | stop
  /-- Another thread changes the rest of the node. -/
  | others (rest : σ)

def LoopCode.step (code : LoopCode α σ ι) (s : LoopState α σ) :
    LoopAction α σ ι → Option (LoopState α σ)
  | .push elem malloc => some { s with box := s.box.push malloc elem }
  | .notify => s.box.notify.map fun box => { s with box := box }
  | .work input => code.work input s
  | .stop => some { s with isRunning := false }
  | .others rest => some { s with rest := rest }

namespace LoopState

/-- The loop is in front of a `poll` that blocks, and no caller is between its push and its
    notification. -/
def AboutToBlock (s : LoopState α σ) : Prop :=
  s.pc = .waiting ∧ s.isRunning = true ∧ s.box.view.Quiet

/-- The loop empties the queue before it waits again. -/
def Emptying (s : LoopState α σ) : Prop :=
  match s.pc with
  | .waiting | .draining false | .ticking false => False
  | .reading | .draining true | .ticking true | .drainingAgain | .popping | .handling _ | .exited =>
    True

def Inv (s : LoopState α σ) : Prop := s.Emptying ∨ s.box.view.Covered

end LoopState

open LoopState

/-- A drain after a wait whose time was up finds the queue empty, or a caller between its push
    and its notification. -/
def DrainsNothing (s : LoopState α σ) : LoopAction α σ ι → Prop
  | .work _ => s.pc = .draining false → s.box.queue.contents = [] ∨ 0 < s.box.between
  | .push .. | .notify | .stop | .others _ => True

variable {code : LoopCode α σ ι} {s s' : LoopState α σ} {a : LoopAction α σ ι}

theorem step_inv (inv : s.Inv) (drains : DrainsNothing s a) (h : code.step s a = some s') :
    s'.Inv := by
  cases a with
  | push elem malloc =>
    cases h
    exact .inr (by rw [Mailbox.view_push]; exact EventQueue.State.covered_push _ _)
  | notify =>
    obtain ⟨box, notified, rfl⟩ := Option.map_eq_some_iff.mp h
    exact .inr (by rw [(Mailbox.view_notify notified).2]; exact EventQueue.State.covered_notify _)
  | stop | others rest => cases h; exact inv
  | work input =>
    simp only [LoopCode.step, LoopCode.work] at h
    cases pc : s.pc with
    | waiting =>
      -- in front of the poll nothing is in the queue without a notification
      have covered : s.box.view.Covered := inv.resolve_left (by simp [Emptying, pc])
      simp only [pc] at h
      split at h
      · cases h; exact .inl trivial
      · split at h
        · cases h; exact .inl trivial
        · cases h; exact .inr covered
    | reading => simp only [pc] at h; cases h; exact .inl trivial
    | draining woken =>
      simp only [pc] at h
      cases h
      cases woken with
      | true => exact .inl trivial
      | false =>
        right
        rw [Mailbox.view_drain, EventQueue.State.covered_reset]
        -- a drain behind a timeout must find nothing
        exact drains pc
    | ticking woken =>
      simp only [pc] at h
      cases h
      cases woken with
      | true => left; cases code.drainsAgain <;> trivial
      | false => exact .inr (inv.resolve_left (by simp [Emptying, pc]))
    | drainingAgain => simp only [pc] at h; cases h; exact .inl trivial
    | popping =>
      simp only [pc] at h
      split at h
      next elem box popped => split at h <;> (cases h; exact .inl trivial)
      next popped =>
        cases h
        -- the loop ends on an empty queue, so it may wait again
        exact .inr (EventQueue.State.covered_of_empty (Mailbox.pop_eq_none.mp popped))
    | handling elem =>
      simp only [pc, Option.map_eq_some_iff] at h
      obtain ⟨rest, -, rfl⟩ := h
      exact .inl trivial
    | exited => simp [pc] at h

theorem Inv.emptied (inv : s.Inv) (blocks : s.AboutToBlock) : s.box.queue.contents = [] := by
  obtain ⟨waiting, -, quiet⟩ := blocks
  exact (inv.resolve_left (by simp [Emptying, waiting])).empty quiet

/-- After a drain that loses an event the loop blocks with packets in its queue, when nobody
    else makes a step. -/
theorem stuck_after_lost_event (input : ι) (running : s.isRunning = true)
    (bad : ¬ DrainsNothing s a) (h : code.step s a = some s') :
    ∃ t, code.step s' (.work input) = some t ∧ t.AboutToBlock ∧ t.box.queue.contents ≠ [] := by
  cases a with
  | push | notify | stop | others => exact absurd trivial bad
  | work first =>
    simp only [DrainsNothing, Classical.not_imp, not_or, Nat.pos_iff_ne_zero, ne_eq, not_not] at bad
    obtain ⟨pc, filled, between⟩ := bad
    simp only [LoopCode.step, LoopCode.work, pc] at h
    cases h
    exact ⟨_, rfl, ⟨rfl, running, rfl, between⟩, filled⟩

/-- In a run in which no drain loses an event, the loop blocks with an empty queue only. -/
theorem blocks_empty {zero : α} {rest : σ} {as : List (LoopAction α σ ι)}
    (reached : Transition.run code.step (LoopState.init zero rest) as = some s)
    (drains : Transition.Meets code.step DrainsNothing (LoopState.init zero rest) as)
    (blocks : s.AboutToBlock) : s.box.queue.contents = [] := by
  have start : (LoopState.init zero rest).Inv := .inr (EventQueue.State.covered_of_empty rfl)
  have inv : s.Inv := Transition.run_invariant_where (fun _ _ _ => step_inv) start drains reached
  exact Inv.emptied inv blocks

/-- What loses the packets of a loop in a run: nothing but a drain after a wait whose time was
    up, and such a drain at its end always does. -/
structure LosesByDrainOnly (code : LoopCode α σ ι) (zero : α) (rest : σ)
    (as : List (LoopAction α σ ι)) : Prop where
  blocksEmpty : ∀ s, Transition.run code.step (LoopState.init zero rest) as = some s →
    Transition.Meets code.step DrainsNothing (LoopState.init zero rest) as → s.AboutToBlock →
    s.box.queue.contents = []
  stuck : ∀ s a s', Transition.run code.step (LoopState.init zero rest) as = some s →
    s.isRunning = true →
    ¬ DrainsNothing s a → code.step s a = some s' →
    ∀ input, ∃ t, code.step s' (.work input) = some t ∧ t.AboutToBlock ∧ t.box.queue.contents ≠ []

theorem losesByDrainOnly (code : LoopCode α σ ι) (zero : α) (rest : σ)
    (as : List (LoopAction α σ ι)) : LosesByDrainOnly code zero rest as where
  blocksEmpty := fun _ reached drains blocks => blocks_empty reached drains blocks
  stuck := fun _ _ _ _ running bad next input => stuck_after_lost_event input running bad next

/-! ## The run in which an element gets lost -/

/-- The time of a wait is up, an element is passed, and then comes the drain. -/
def passedLate (elem : α) (input : ι) : List (LoopAction α σ ι) :=
  [.work input, .push elem fun _ => elem, .notify, .work input, .work input]

theorem passedLate_stuck (code : LoopCode α σ ι) (rest : σ) (elem : α) (input : ι) :
    ∃ s, Transition.run code.step (LoopState.init elem rest) (passedLate elem input) = some s ∧
      s.AboutToBlock ∧ s.box.queue.contents = [elem] :=
  ⟨_, rfl, ⟨rfl, rfl, rfl, rfl⟩, contents_protQueuePush _ _ _⟩

end Soter2.Base
