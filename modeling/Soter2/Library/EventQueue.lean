import Mathlib.Data.List.Basic
import Mathlib.Tactic.Common

/-! # A queue with an event counter

A producer appends an item and then, in a second step, adds one to a counter.  A consumer
waits until the counter is not zero, sets it back to zero, and takes items.  An item that is
left when the counter is zero and no producer is between its two steps waits for an
unrelated event.

* `Covered` — for a consumer that empties the queue: something still announces the items.
* `Balanced` — for a consumer that takes one item for each wake-up: there are no more items
  than announcements.
-/

namespace EventQueue

structure State (α : Type*) where
  items : List α
  counter : Nat
  /-- The producers that have appended an item and not yet counted it. -/
  between : Nat

variable {α : Type*}

namespace State

def push (s : State α) (x : α) : State α :=
  { s with items := s.items ++ [x], between := s.between + 1 }

def notify (s : State α) : State α := { s with between := s.between - 1, counter := s.counter + 1 }

def reset (s : State α) : State α := { s with counter := 0 }

def rest (s : State α) : State α := { s with items := s.items.tail }

/-- No event is counted and none is on its way. -/
def Quiet (s : State α) : Prop := s.counter = 0 ∧ s.between = 0

def Covered (s : State α) : Prop := s.items = [] ∨ 0 < s.counter ∨ 0 < s.between

/-- A consumer that is to take `due` items leaves none without an announcement. -/
def Balanced (s : State α) (due : Nat) : Prop := s.items.length ≤ s.counter + s.between + due

variable {s : State α}

theorem Covered.empty (covered : s.Covered) (quiet : s.Quiet) : s.items = [] := by
  obtain ⟨counter, between⟩ := quiet
  simpa [Covered, counter, between] using covered

theorem covered_of_empty (empty : s.items = []) : s.Covered := .inl empty

theorem covered_push (s : State α) (x : α) : (s.push x).Covered := .inr (.inr (Nat.succ_pos _))

theorem covered_notify (s : State α) : s.notify.Covered := .inr (.inl (Nat.succ_pos _))

theorem covered_reset : s.reset.Covered ↔ s.items = [] ∨ 0 < s.between := by simp [Covered, reset]

theorem balanced_quiet (quiet : s.Quiet) : s.Balanced 0 ↔ s.items = [] := by
  obtain ⟨counter, between⟩ := quiet
  simp [Balanced, counter, between]

theorem balanced_push (s : State α) (x : α) (due : Nat) :
    (s.push x).Balanced due ↔ s.Balanced due := by
  simp only [Balanced, push, List.length_append, List.length_singleton]
  omega

theorem balanced_notify (pending : 0 < s.between) (due : Nat) :
    s.notify.Balanced due ↔ s.Balanced due := by
  simp only [Balanced, notify]
  omega

/-- What the counter said does not count any more. -/
theorem balanced_reset {due : Nat} : s.reset.Balanced due ↔ s.items.length ≤ s.between + due := by
  simp [Balanced, reset]

theorem balanced_rest {due : Nat} (filled : s.items ≠ []) :
    s.rest.Balanced due ↔ s.Balanced (due + 1) := by
  have := List.length_pos_of_ne_nil filled
  simp only [Balanced, rest, List.length_tail]
  omega

end State

end EventQueue
