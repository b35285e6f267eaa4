import Mathlib.Data.List.Basic
import Mathlib.Data.List.Forall2
import Mathlib.Tactic.Common

/-! # Questions that wait, and answers that wait

Questions are taken one after the other by a server, and its answers are given out one after
the other by a clerk.  Between the two steps an answer waits as the question did before.

* `InOrder` — the answers made so far are answers to the first questions, one for each.
* `InOrder.outstanding` — the questions whose answers have not been given out.
-/

namespace ServiceLine

structure State (ρ α : Type*) where
  asked : List ρ
  waiting : List ρ
  ready : List α
  given : List α

variable {ρ α : Type*}

namespace State

def ask (s : State ρ α) (r : ρ) : State ρ α :=
  { s with asked := s.asked ++ [r], waiting := s.waiting ++ [r] }

/-- The first question that waits is answered. -/
def answer (s : State ρ α) (a : α) : State ρ α :=
  { s with waiting := s.waiting.tail, ready := s.ready ++ [a] }

/-- The first answer that waits is given out. -/
def give (s : State ρ α) : State ρ α :=
  { s with ready := s.ready.tail, given := s.given ++ s.ready.head?.toList }

/-- The questions whose answers have not been given out. -/
def outstanding (s : State ρ α) : List ρ := s.asked.drop s.given.length

end State

open State

/-- All questions but those that wait are answered, in order. -/
def InOrder (answers : ρ → α → Prop) (s : State ρ α) : Prop :=
  ∃ served, s.asked = served ++ s.waiting ∧ List.Forall₂ answers served (s.given ++ s.ready)

variable {answers : ρ → α → Prop} {s : State ρ α} {r : ρ} {a : α} {rest : List ρ} {later : List α}

theorem inOrder_ask (inOrder : InOrder answers s) (r : ρ) : InOrder answers (s.ask r) := by
  obtain ⟨served, split, matched⟩ := inOrder
  refine ⟨served, ?_, matched⟩
  simp only [ask, split, List.append_assoc]

theorem inOrder_answer (inOrder : InOrder answers s) (first : s.waiting = r :: rest)
    (answered : answers r a) : InOrder answers (s.answer a) := by
  obtain ⟨served, split, matched⟩ := inOrder
  refine ⟨served ++ [r], ?_, ?_⟩
  · simp only [answer, split, first, List.tail_cons, List.append_assoc, List.singleton_append]
  · rw [answer, ← List.append_assoc]
    exact List.rel_append matched (.cons answered .nil)

theorem inOrder_give (inOrder : InOrder answers s) (first : s.ready = a :: later) :
    InOrder answers s.give := by
  obtain ⟨served, split, matched⟩ := inOrder
  refine ⟨served, split, ?_⟩
  rw [first] at matched
  simpa only [give, first, List.head?_cons, Option.toList_some, List.tail_cons, List.append_assoc,
    List.singleton_append] using matched

/-- The questions that are not given an answer yet are those whose answers wait, and those that
    wait. -/
theorem InOrder.outstanding (inOrder : InOrder answers s) :
    ∃ pending, s.outstanding = pending ++ s.waiting ∧ List.Forall₂ answers pending s.ready := by
  obtain ⟨served, split, matched⟩ := inOrder
  have length := matched.length_eq
  have short : s.given.length ≤ served.length := by
    rw [length, List.length_append]
    exact Nat.le_add_right _ _
  refine ⟨served.drop s.given.length, ?_, List.forall₂_drop_append served s.given s.ready matched⟩
  rw [State.outstanding, split, List.drop_append_of_le_length short]

theorem InOrder.given (inOrder : InOrder answers s) :
    List.Forall₂ answers (s.asked.take s.given.length) s.given := by
  obtain ⟨served, split, matched⟩ := inOrder
  have length := matched.length_eq
  have short : s.given.length ≤ served.length := by
    rw [length, List.length_append]
    exact Nat.le_add_right _ _
  rw [split, List.take_append_of_le_length short]
  exact List.forall₂_take_append served s.given s.ready matched

theorem InOrder.settled_iff (inOrder : InOrder answers s) :
    s.given.length = s.asked.length ↔ s.waiting = [] ∧ s.ready = [] := by
  obtain ⟨served, split, matched⟩ := inOrder
  have length := matched.length_eq
  rw [List.length_append] at length
  rw [split, List.length_append, ← List.length_eq_zero_iff, ← List.length_eq_zero_iff]
  omega

end ServiceLine
