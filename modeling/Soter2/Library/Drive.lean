import Mathlib.Data.List.Basic
import Mathlib.Tactic.Common

/-! # Loops driven by a sequence of inputs

A loop whose turns each take the next input of an endless sequence, such as the results that the
operating system gives to the calls of the loop.  A turn leads to a state, or ends the loop with a
result.

* `reached` — the state at the start of a turn, if the loop has not ended before.
* `reached_invariant` — the rule of the loop invariant.
* `ends_of_not_reached`, `not_ends` — the loop ends, and goes on for ever.
* `Ends.unique` — it ends with one result.
* `finish` — the result, where the loop ends within a number of turns.
-/

namespace Drive

variable {σ ι ρ : Type*}

def reached (body : σ → ι → σ ⊕ ρ) (inputs : Nat → ι) (s : σ) : Nat → Option σ
  | 0 => some s
  | i + 1 => (reached body inputs s i).bind fun t => (body t (inputs i)).getLeft?

/-- The loop ends with the result. -/
def Ends (body : σ → ι → σ ⊕ ρ) (inputs : Nat → ι) (s : σ) (r : ρ) : Prop :=
  ∃ i t, reached body inputs s i = some t ∧ body t (inputs i) = .inr r

/-- The result and the number of the next input, where the loop ends in time. -/
def finish (body : σ → ι → σ ⊕ ρ) (inputs : Nat → ι) : Nat → Nat → σ → Option (ρ × Nat)
  | 0, _, _ => none
  | turns + 1, i, s =>
    match body s (inputs i) with
    | .inl s' => finish body inputs turns (i + 1) s'
    | .inr r => some (r, i + 1)

variable {body : σ → ι → σ ⊕ ρ} {inputs : Nat → ι} {s t : σ} {i : Nat}

theorem reached_succ : reached body inputs s (i + 1) = some t ↔
    ∃ u, reached body inputs s i = some u ∧ body u (inputs i) = .inl t := by
  simp [reached, Option.bind_eq_some_iff, Sum.getLeft?_eq_some_iff]

theorem reached_invariant {I : σ → Prop}
    (preserved : ∀ i t u, reached body inputs s i = some t → I t → body t (inputs i) = .inl u → I u)
    (start : I s) (h : reached body inputs s i = some t) : I t := by
  induction i generalizing t with
  | zero =>
    cases h
    exact start
  | succ i ih =>
    obtain ⟨u, before, turn⟩ := reached_succ.mp h
    exact preserved i u t before (ih before) turn

theorem reached_of_le (h : reached body inputs s i = some t) {j : Nat} (earlier : j ≤ i) :
    ∃ u, reached body inputs s j = some u := by
  induction i generalizing t with
  | zero =>
    obtain rfl : j = 0 := Nat.le_zero.mp earlier
    exact ⟨t, h⟩
  | succ i ih =>
    obtain rfl | before := Nat.eq_or_lt_of_le earlier
    · exact ⟨t, h⟩
    · obtain ⟨u, reached_, -⟩ := reached_succ.mp h
      exact ih reached_ (Nat.le_of_lt_succ before)

theorem ends_of_not_reached (h : reached body inputs s i = none) : ∃ r, Ends body inputs s r := by
  induction i with
  | zero => cases h
  | succ i ih =>
    cases before : reached body inputs s i with
    | none => exact ih before
    | some t =>
      cases turn : body t (inputs i) with
      | inl u => simp [reached, before, turn] at h
      | inr r => exact ⟨r, i, t, before, turn⟩

theorem not_reached_of_ended {r : ρ} (h : reached body inputs s i = some t)
    (ended : body t (inputs i) = .inr r) {j : Nat}
    (later : i < j) : reached body inputs s j = none := by
  cases still : reached body inputs s j with
  | none => rfl
  | some u =>
    obtain ⟨v, next⟩ := reached_of_le still (Nat.succ_le_of_lt later)
    simp [reached, h, ended] at next

theorem Ends.unique {r r' : ρ} (h : Ends body inputs s r) (h' : Ends body inputs s r') :
    r = r' := by
  obtain ⟨i, t, atI, ended⟩ := h
  obtain ⟨j, u, atJ, ended'⟩ := h'
  rcases Nat.lt_trichotomy i j with before | rfl | after
  · rw [not_reached_of_ended atI ended before] at atJ
    cases atJ
  · cases atI.symm.trans atJ
    cases ended.symm.trans ended'
    rfl
  · rw [not_reached_of_ended atJ ended' after] at atI
    cases atI

/-- From a state on, no turn ends the loop. -/
theorem not_ends {I : σ → Prop} (start : I t) (h : reached body inputs s i = some t)
    (goes : ∀ j u, i ≤ j → I u → ∃ v, body u (inputs j) = .inl v ∧ I v) (r : ρ) :
    ¬ Ends body inputs s r := by
  have later : ∀ k, ∃ u, reached body inputs s (i + k) = some u ∧ I u := by
    intro k
    induction k with
    | zero => exact ⟨t, h, start⟩
    | succ k ih =>
      obtain ⟨u, here, inv⟩ := ih
      obtain ⟨v, turn, inv'⟩ := goes (i + k) u (Nat.le_add_right i k) inv
      exact ⟨v, reached_succ.mpr ⟨u, here, turn⟩, inv'⟩
  rintro ⟨j, u, last, turn⟩
  obtain ⟨v, on, -⟩ := later (j + 1)
  rw [not_reached_of_ended last turn (by omega)] at on
  cases on

end Drive
