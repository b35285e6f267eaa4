import Mathlib.Data.List.Basic
import Mathlib.Tactic.Common

/-! # Machines that answer

A data structure with operations that always return is a machine: each input gives an
answer and the next state.  What a caller can see of it are the answers to a list of
inputs.

* `run` — the answers to a list of inputs, and the state they lead to.
* `run_refines` — if each step commutes with an abstraction, all answers are those of the
  abstract machine.
* `runOption` — the same for operations that may be undefined in a state.
* `runOption_refines` — where the steps of a run meet a condition under which each defined step
  of the abstract machine is matched, all answers are those of the abstract machine.
* `runOption_agrees` — the rule for machines that are undefined in the same places.
-/

namespace Machine

variable {σ τ ι ο : Type*}

def run (step : σ → ι → ο × σ) : σ → List ι → List ο × σ
  | s, [] => ([], s)
  | s, i :: is =>
    let (o, s') := step s i
    let (os, t) := run step s' is
    (o :: os, t)

variable {step : σ → ι → ο × σ} {abstractStep : τ → ι → ο × τ}

theorem run_cons (s : σ) (i : ι) (is : List ι) :
    run step s (i :: is) = ((step s i).1 :: (run step (step s i).2 is).1,
      (run step (step s i).2 is).2) := rfl

theorem run_refines (abstraction : σ → τ)
    (commutes : ∀ s i, abstractStep (abstraction s) i = ((step s i).1, abstraction (step s i).2))
    (s : σ) (is : List ι) :
    run abstractStep (abstraction s) is = ((run step s is).1, abstraction (run step s is).2) := by
  induction is generalizing s with
  | nil => rfl
  | cons i is ih => rw [run_cons, run_cons, commutes, ih]

/-! ## Operations that may be undefined -/

def runOption (step : σ → ι → Option (ο × σ)) : σ → List ι → Option (List ο × σ)
  | s, [] => some ([], s)
  | s, i :: is =>
    (step s i).bind fun done => (runOption step done.2 is).map fun rest =>
      (done.1 :: rest.1, rest.2)

/-- Every operation of the run meets the condition, which reads the state before it. -/
def Meets (step : σ → ι → Option (ο × σ)) (ok : σ → ι → Prop) : σ → List ι → Prop
  | _, [] => True
  | s, i :: is => ok s i ∧ ∀ done, step s i = some done → Meets step ok done.2 is

instance Meets.decide (step : σ → ι → Option (ο × σ)) (ok : σ → ι → Prop)
    [∀ s i, Decidable (ok s i)] :
    ∀ s is, Decidable (Meets step ok s is)
  | _, [] => .isTrue trivial
  | s, i :: is =>
    match h : step s i with
    | none => decidable_of_iff (ok s i) (by simp [Meets, h])
    | some done =>
      have := Meets.decide step ok done.2 is
      decidable_of_iff (ok s i ∧ Meets step ok done.2 is) (by simp [Meets, h])

theorem runOption_cons {partialStep : σ → ι → Option (ο × σ)} {s t : σ} {i : ι} {is : List ι}
    {os : List ο} :
    runOption partialStep s (i :: is) = some (os, t) ↔
      ∃ o s' rest, partialStep s i = some (o, s') ∧ runOption partialStep s' is = some (rest, t) ∧
        os = o :: rest := by
  simp only [runOption, Option.bind_eq_some_iff, Option.map_eq_some_iff, Prod.mk.injEq, Prod.exists]
  constructor
  · rintro ⟨o, s', stepped, rest, t', ran, rfl, rfl⟩
    exact ⟨o, s', rest, stepped, ran, rfl⟩
  · rintro ⟨o, s', rest, stepped, ran, rfl⟩
    exact ⟨o, s', stepped, rest, t, ran, rfl, rfl⟩

theorem runOption_refines {concrete : σ → ι → Option (ο × σ)} {abstract : τ → ι → Option (ο × τ)}
    {R : σ → τ → Prop} {ok : σ → ι → Prop}
    (simulates : ∀ s t i o t', R s t → ok s i → abstract t i = some (o, t') →
      ∃ s', concrete s i = some (o, s') ∧ R s' t')
    {s : σ} {t t' : τ} {is : List ι} {os : List ο} (start : R s t) (meets : Meets concrete ok s is)
    (ran : runOption abstract t is = some (os, t')) :
    ∃ s', runOption concrete s is = some (os, s') ∧ R s' t' := by
  induction is generalizing s t os with
  | nil =>
    cases ran
    exact ⟨s, rfl, start⟩
  | cons i is ih =>
    obtain ⟨o, t₁, rest, stepped, later, rfl⟩ := runOption_cons.mp ran
    obtain ⟨s₁, matched, related⟩ := simulates s t i o t₁ start meets.1 stepped
    obtain ⟨s', finished, ends⟩ := ih related (meets.2 _ matched) later
    exact ⟨s', runOption_cons.mpr ⟨o, s₁, rest, matched, finished, rfl⟩, ends⟩

/-- Where each operation is defined in both machines or in none, so is the run. -/
theorem runOption_agrees {concrete : σ → ι → Option (ο × σ)} {abstract : τ → ι → Option (ο × τ)}
    {R : σ → τ → Prop} {ok : σ → ι → Prop}
    (agrees : ∀ s t i, R s t → ok s i →
      (∃ o s' t', concrete s i = some (o, s') ∧ abstract t i = some (o, t') ∧ R s' t') ∨
      (concrete s i = none ∧ abstract t i = none))
    {s : σ} {t : τ} {is : List ι} (start : R s t) (meets : Meets concrete ok s is) :
    (runOption concrete s is).map Prod.fst = (runOption abstract t is).map Prod.fst := by
  induction is generalizing s t with
  | nil => rfl
  | cons i is ih =>
    rcases agrees s t i start meets.1 with ⟨o, s', t', stepped, matched, related⟩ | ⟨stuck, stopped⟩
    · have rest := ih related (meets.2 _ stepped)
      have longer := congrArg (Option.map (o :: ·)) rest
      rw [Option.map_map, Option.map_map] at longer
      rw [runOption, runOption, stepped, matched, Option.bind_some, Option.bind_some,
        Option.map_map, Option.map_map]
      exact longer
    · rw [runOption, runOption, stuck, stopped]
      rfl

end Machine
