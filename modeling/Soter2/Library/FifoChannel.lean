import Mathlib.Data.List.Basic
import Mathlib.Data.List.Infix
import Mathlib.Tactic.Common
import Soter2.Library.Transition

/-! # The reliable first-in-first-out channel

What an ordered, exactly-once transport is for, with no packets in it: a sender
appends, and a receiver is handed the next item it has not had.  A transport refines
this channel when each of its steps is a (possibly empty) run of channel steps; what
it delivers is then a prefix of what was sent (`received_prefix`).
-/

namespace FifoChannel

open Transition (run run_append run_cons)

variable {α : Type*}

structure State (α : Type*) where
  sent : List α
  received : List α

inductive Action (α : Type*) where
  | send (x : α)
  | receive

def empty : State α := ⟨[], []⟩

def step (s : State α) : Action α → Option (State α)
  | .send x => some { s with sent := s.sent ++ [x] }
  | .receive =>
    match s.sent[s.received.length]? with
    | some x => some { s with received := s.received ++ [x] }
    | none => none

theorem prefix_next {sent received : List α} {x : α} (inv : received <+: sent)
    (next : sent[received.length]? = some x) : received ++ [x] <+: sent := by
  obtain ⟨rest, split⟩ := inv
  rw [← split, List.getElem?_append_right (Nat.le_refl _), Nat.sub_self] at next
  cases rest with
  | nil => simp at next
  | cons y tail =>
    simp only [List.getElem?_cons_zero, Option.some.injEq] at next
    exact ⟨tail, by simp [← split, next]⟩

theorem step_prefix {s s' : State α} {a : Action α} (inv : s.received <+: s.sent)
    (h : step s a = some s') : s'.received <+: s'.sent := by
  cases a with
  | send x =>
    cases h
    exact inv.trans (List.prefix_append _ _)
  | receive =>
    simp only [step] at h
    split at h
    next x next => cases h; exact prefix_next inv next
    next => cases h

/-- Over every run from the empty channel, what was received is a prefix of what was
    sent: nothing is lost, repeated or reordered. -/
theorem received_prefix {s : State α} {as : List (Action α)} (h : run step empty as = some s) :
    s.received <+: s.sent :=
  Transition.run_invariant (fun _ _ _ => step_prefix) (List.nil_prefix) h

theorem receive_batch (sent : List α) {m n : Nat} (le : m ≤ n) (bound : n ≤ sent.length) :
    ∃ as, run step ⟨sent, sent.take m⟩ as = some ⟨sent, sent.take n⟩ := by
  induction n, le using Nat.le_induction with
  | base => exact ⟨[], rfl⟩
  | succ n le ih =>
    obtain ⟨as, has⟩ := ih (by omega)
    refine ⟨as ++ [.receive], run_append.mpr ⟨_, has, ?_⟩⟩
    have length : (sent.take n).length = n := by simp; omega
    have slot : sent[n]? = some (sent.get ⟨n, by omega⟩) := List.getElem?_eq_getElem (by omega)
    rw [run_cons]
    refine ⟨_, ?_, rfl⟩
    simp only [step, length, slot, List.take_add_one, Option.toList_some]

theorem send_step (s : State α) (x : α) :
    run step s [.send x] = some ⟨s.sent ++ [x], s.received⟩ := rfl

end FifoChannel
