import Mathlib.Data.List.Basic
import Mathlib.Tactic.Common

/-! # Bounded `while` loops

A loop is given by its body `body : σ → Option σ`, which is `none` where the loop
is left.  `run` iterates the body with fuel, so that it evaluates; `run_exit` says
that a fuel no smaller than a measure the body decreases is enough, and
`run_invariant` is the rule of the loop invariant.  `moments` lists every state the
loop passes through, for what has to hold during the loop and not only after it.
-/

namespace Loop

variable {σ : Type*} (body : σ → Option σ)

/-- Iterate the body until it leaves the loop, at most `fuel` times. -/
def run : Nat → σ → σ
  | 0, s => s
  | fuel + 1, s =>
    match body s with
    | some s' => run fuel s'
    | none => s

/-- The states the loop passes through, the first and the last included. -/
def moments : Nat → σ → List σ
  | 0, s => [s]
  | fuel + 1, s =>
    match body s with
    | some s' => s :: moments fuel s'
    | none => [s]

variable {body}

theorem run_of_some {s s' : σ} (h : body s = some s') (fuel : Nat) :
    run body (fuel + 1) s = run body fuel s' := by
  simp only [run, h]

theorem run_of_none {s : σ} (h : body s = none) (fuel : Nat) : run body fuel s = s := by
  cases fuel with
  | zero => rfl
  | succ fuel => simp only [run, h]

theorem run_mem_moments (fuel : Nat) (s : σ) : run body fuel s ∈ moments body fuel s := by
  induction fuel generalizing s with
  | zero => simp [run, moments]
  | succ fuel ih =>
    cases h : body s with
    | none => simp [run, moments, h]
    | some s' =>
      simp only [run, moments, h]
      exact List.mem_cons_of_mem _ (ih s')

theorem moments_invariant {I : σ → Prop} (preserved : ∀ s s', I s → body s = some s' → I s')
    (fuel : Nat) {s : σ} (start : I s) : ∀ t ∈ moments body fuel s, I t := by
  induction fuel generalizing s with
  | zero => simpa [moments] using start
  | succ fuel ih =>
    cases h : body s with
    | none => simpa [moments, h] using start
    | some s' =>
      simp only [moments, h, List.forall_mem_cons]
      exact ⟨start, ih (preserved s s' start h)⟩

theorem run_invariant {I : σ → Prop} (preserved : ∀ s s', I s → body s = some s' → I s')
    (fuel : Nat) {s : σ} (start : I s) : I (run body fuel s) :=
  moments_invariant preserved fuel start _ (run_mem_moments fuel s)

/-- With fuel for the measure the loop runs to its end: the body is left. -/
theorem run_exit (measure : σ → Nat)
    (decreases : ∀ s s', body s = some s' → measure s' < measure s) :
    ∀ (fuel : Nat) (s : σ), measure s ≤ fuel → body (run body fuel s) = none := by
  intro fuel
  induction fuel with
  | zero =>
    intro s enough
    cases h : body s with
    | none => simpa [run] using h
    | some s' => have := decreases s s' h; omega
  | succ fuel ih =>
    intro s enough
    cases h : body s with
    | none => simp [run, h]
    | some s' =>
      have := decreases s s' h
      simpa [run, h] using ih s' (by omega)

end Loop
