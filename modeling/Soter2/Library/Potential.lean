import Mathlib.Algebra.BigOperators.Group.Finset.Basic
import Mathlib.Algebra.Ring.Nat
import Mathlib.Data.Fintype.Basic
import Mathlib.Tactic.Common
import Soter2.Library.Transition

/-! # Potentials

A potential pays for what steps spend: each step spends no more than it costs and the
potential loses.

* `run_budget` — then so does a run.
* `total_update` — the potential of many parts, of which one changes.
-/

namespace Potential

section

variable {σ ι : Type*} {step : σ → ι → Option σ} {potential : σ → Nat} {spent cost : ι → Nat}

theorem run_budget (pays : ∀ s a s', step s a = some s' →
    spent a + potential s' ≤ potential s + cost a) {s t : σ}
    {as : List ι} (h : Transition.run step s as = some t) :
    (as.map spent).sum + potential t ≤ potential s + (as.map cost).sum := by
  induction as generalizing s with
  | nil => cases h; simp
  | cons a as ih =>
    obtain ⟨s', first, more⟩ := Transition.run_cons.mp h
    have here := pays s a s' first
    have later := ih more
    simp only [List.map_cons, List.sum_cons]
    omega

end

section

variable {π α : Type*} [Fintype π] [DecidableEq π]

/-- The potential of all parts. -/
def total (weight : α → Nat) (part : π → α) : Nat := ∑ p, weight (part p)

theorem total_update (weight : α → Nat) (part : π → α) (p : π) (a : α) :
    total weight (Function.update part p a) + weight (part p) = total weight part + weight a := by
  have others : ∑ q ∈ Finset.univ.erase p, weight (Function.update part p a q)
      = ∑ q ∈ Finset.univ.erase p, weight (part q) := by
    refine Finset.sum_congr rfl fun q member => ?_
    rw [Function.update_of_ne (Finset.ne_of_mem_erase member)]
  have before := Finset.add_sum_erase Finset.univ (fun q => weight (part q)) (Finset.mem_univ p)
  have after := Finset.add_sum_erase Finset.univ (fun q => weight (Function.update part p a q))
    (Finset.mem_univ p)
  simp only [Function.update_self, others] at after
  rw [total, total, ← before, ← after]
  omega

end

end Potential
