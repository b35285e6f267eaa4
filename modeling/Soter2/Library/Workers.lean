import Mathlib.Algebra.Ring.Nat
import Mathlib.Data.List.Basic
import Mathlib.Data.List.Perm.Basic
import Mathlib.Tactic.Common
import Soter2.Library.Transition

/-! # Workers that fill one list

Each worker takes turns, in any order, and what it puts out goes to the end of a list that all of
them share.

* `perm_run` — in which order the workers take their turns only changes the order of the list.
* `length_run_le` — they come to an end.
* `out_perm_of_joined` — what is in the list when they have.
-/

namespace Workers

variable {ω β : Type*}

structure State (ω β : Type*) where
  workers : List ω
  out : List β

/-- The next turn of the worker `k`. -/
def step (turn : ω → Option (ω × List β)) (s : State ω β) (k : Nat) : Option (State ω β) :=
  match s.workers[k]? with
  | none => none
  | some w =>
    match turn w with
    | none => none
    | some (w', put) => some ⟨s.workers.set k w', s.out ++ put⟩

/-- All workers have come to their end. -/
def Joined (turn : ω → Option (ω × List β)) (s : State ω β) : Prop := ∀ w ∈ s.workers, turn w = none

variable {turn : ω → Option (ω × List β)} {s t : State ω β} {k : Nat} {ks : List Nat}

theorem step_cases (h : step turn s k = some t) : ∃ w w' put, s.workers[k]? = some w ∧
    turn w = some (w', put) ∧ t = ⟨s.workers.set k w', s.out ++ put⟩ := by
  unfold step at h
  split at h
  · cases h
  next w here =>
    split at h
    · cases h
    next w' put turned =>
      cases h
      exact ⟨w, w', put, here, turned, rfl⟩

/-- One worker among the others. -/
theorem split_at {ws : List ω} {w : ω} (here : ws[k]? = some w) :
    ∃ before behind, ws = before ++ w :: behind ∧ ∀ w', ws.set k w' = before ++ w' :: behind := by
  obtain ⟨inside, value⟩ := List.getElem?_eq_some_iff.mp here
  refine ⟨ws.take k, ws.drop (k + 1), ?_,
    fun w' => List.set_eq_take_append_cons_drop.trans (if_pos inside)⟩
  rw [← value, List.getElem_cons_drop, List.take_append_drop]

/-! ## What is put out -/

/-- A turn puts out the next of what is left to its worker. -/
theorem perm_step {left : ω → List β}
    (keeps : ∀ w w' put, turn w = some (w', put) → put ++ left w' = left w)
    (h : step turn s k = some t) : (t.out ++ t.workers.flatMap left).Perm
    (s.out ++ s.workers.flatMap left) := by
  obtain ⟨w, w', put, here, turned, rfl⟩ := step_cases h
  obtain ⟨before, behind, split, set⟩ := split_at here
  -- what is put out comes from the middle of what was left
  simp only [set]
  rw [split, List.flatMap_append, List.flatMap_cons, List.flatMap_append, List.flatMap_cons,
    ← keeps w w' put turned, List.append_assoc, List.append_assoc]
  exact (List.perm_append_comm_assoc put _ _).append_left s.out

theorem perm_run {left : ω → List β}
    (keeps : ∀ w w' put, turn w = some (w', put) → put ++ left w' = left w)
    (h : Transition.run (step turn) s ks = some t) :
    (t.out ++ t.workers.flatMap left).Perm (s.out ++ s.workers.flatMap left) :=
  Transition.run_invariant (I := fun u =>
    (u.out ++ u.workers.flatMap left).Perm (s.out ++ s.workers.flatMap left))
    (fun _ _ _ before turned => (perm_step keeps turned).trans before) (List.Perm.refl _) h

/-- When all workers are at their end, the list has what was left to them at the start. -/
theorem out_perm_of_joined {left : ω → List β}
    (keeps : ∀ w w' put, turn w = some (w', put) → put ++ left w' = left w)
    (nothing : ∀ w, turn w = none → left w = []) (h : Transition.run (step turn) s ks = some t)
    (joined : Joined turn t) : t.out.Perm (s.out ++ s.workers.flatMap left) := by
  have empty : t.workers.flatMap left = [] := List.flatMap_eq_nil_iff.mpr fun w member =>
    nothing w (joined w member)
  have main := perm_run keeps h
  rwa [empty, List.append_nil] at main

/-! ## The end -/

def total (measure : ω → Nat) (ws : List ω) : Nat := (ws.map measure).sum

theorem total_step {measure : ω → Nat}
    (decreases : ∀ w w' put, turn w = some (w', put) → measure w' < measure w)
    (h : step turn s k = some t) : total measure t.workers < total measure s.workers := by
  obtain ⟨w, w', put, here, turned, rfl⟩ := step_cases h
  obtain ⟨before, behind, split, set⟩ := split_at here
  have less := decreases w w' put turned
  simp only [set, total]
  rw [split]
  simp only [List.map_append, List.map_cons, List.sum_append, List.sum_cons]
  omega

theorem length_run_le {measure : ω → Nat}
    (decreases : ∀ w w' put, turn w = some (w', put) → measure w' < measure w)
    (h : Transition.run (step turn) s ks = some t) : ks.length ≤ total measure s.workers := by
  induction ks generalizing s with
  | nil => exact Nat.zero_le _
  | cons k ks ih =>
    obtain ⟨u, first, rest⟩ := Transition.run_cons.mp h
    have less := total_step decreases first
    have more := ih rest
    rw [List.length_cons]
    omega

end Workers
