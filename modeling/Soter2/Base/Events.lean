import Mathlib.Data.List.Basic
import Mathlib.Tactic.Common
import Soter2.Base.ProtQueue
import Soter2.Library.EventQueue

/-! # Queues with an event socket (`base/src/multithr/events.c`)

Four threads of the node are fed in the same way: a caller pushes an element to a
`prot_queue` and then notifies the `mt_eventsock` that belongs to it.  `Mailbox` is such a
pair, with the callers that stand between the two steps.  The event socket is the counter of
an `eventfd`: `mt_evsock_notify` adds one, and the read in `mt_evsock_wait` and
`mt_evsock_drain` sets it back to zero.
-/

namespace Soter2.Base

structure Mailbox (α : Type*) where
  queue : ProtQueue α
  event : Nat
  between : Nat

namespace Mailbox

variable {α : Type*}

def create (zero : α) : Mailbox α := ⟨protQueueCreate zero, 0, 0⟩

/-- The first step of a caller, `prot_queue_push`. -/
def push (malloc : Nat → α) (m : Mailbox α) (element : α) : Mailbox α :=
  { m with queue := protQueuePush malloc m.queue element, between := m.between + 1 }

/-- The second step of a caller, `mt_evsock_notify`. -/
def notify (m : Mailbox α) : Option (Mailbox α) :=
  if m.between = 0 then none else some { m with between := m.between - 1, event := m.event + 1 }

/-- What `poll` says of the event socket, and so the result of `mt_evsock_wait`. -/
def readable (m : Mailbox α) : Bool := 0 < m.event

/-- The `read` in `mt_evsock_wait`, and `mt_evsock_drain`. -/
def drain (m : Mailbox α) : Mailbox α := { m with event := 0 }

def pop (m : Mailbox α) : Option (α × Mailbox α) :=
  (protQueuePop m.queue).map fun (elem, queue) => (elem, { m with queue := queue })

/-! ## The abstract queue -/

def view (m : Mailbox α) : EventQueue.State α := ⟨m.queue.contents, m.event, m.between⟩

variable {m m' : Mailbox α} {elem : α}

@[simp] theorem view_create (zero : α) : (create zero).view = ⟨[], 0, 0⟩ := rfl

@[simp] theorem view_push (malloc : Nat → α) (m : Mailbox α) (element : α) :
    (m.push malloc element).view = m.view.push element := by
  simp [view, push, EventQueue.State.push, contents_protQueuePush]

theorem notify_eq_some : m.notify = some m' ↔
    0 < m.between ∧ m' = { m with between := m.between - 1, event := m.event + 1 } := by
  simp only [notify, Option.ite_none_left_eq_some, Option.some.injEq, Nat.pos_iff_ne_zero, ne_eq]
  exact and_congr_right fun _ => eq_comm

theorem view_notify (h : m.notify = some m') : 0 < m.view.between ∧ m'.view = m.view.notify := by
  obtain ⟨pending, rfl⟩ := notify_eq_some.mp h
  exact ⟨pending, rfl⟩

@[simp] theorem view_drain (m : Mailbox α) : m.drain.view = m.view.reset := rfl

theorem pop_eq_none : m.pop = none ↔ m.view.items = [] := by
  simp [pop, view, protQueuePop_eq_none]

theorem view_of_pop (h : m.pop = some (elem, m')) :
    m.view.items = elem :: m'.view.items ∧ m'.view = m.view.rest := by
  obtain ⟨⟨e, queue⟩, popped, eq⟩ := Option.map_eq_some_iff.mp h
  obtain ⟨rfl, rfl⟩ := Prod.mk.inj eq
  have contents := contents_of_protQueuePop popped
  exact ⟨contents, by simp [view, EventQueue.State.rest, contents]⟩

end Mailbox

end Soter2.Base
