import Mathlib.Data.List.Basic
import Mathlib.Logic.Function.Basic
import Mathlib.Order.Lattice
import Mathlib.Tactic.Common

/-! # Registers that keep the greatest value offered

One register for each key.  An offer joins a value to the register of its key, so neither
the order nor the repetition of offers shows in the registers:

* `offers_perm` — any order of the offers gives the same registers.
* `offers_attained` — in a linear order what a register holds was there or was offered.
-/

namespace MaxRegister

variable {κ ν : Type*} [DecidableEq κ]

section Join

variable [SemilatticeSup ν] {m : κ → ν} {k : κ} {o : κ × ν} {os os' : List (κ × ν)}

def offer (m : κ → ν) (o : κ × ν) : κ → ν := Function.update m o.1 (m o.1 ⊔ o.2)

def offers (m : κ → ν) (os : List (κ × ν)) : κ → ν := os.foldl offer m

@[simp] theorem offers_nil (m : κ → ν) : offers m [] = m := rfl

@[simp] theorem offers_cons (m : κ → ν) (o : κ × ν) (os : List (κ × ν)) :
    offers m (o :: os) = offers (offer m o) os := rfl

@[simp] theorem offer_self (m : κ → ν) (o : κ × ν) : offer m o o.1 = m o.1 ⊔ o.2 := by simp [offer]

theorem offer_ne (m : κ → ν) (other : k ≠ o.1) : offer m o k = m k := by simp [offer, other]

theorem le_offer (m : κ → ν) (o : κ × ν) (k : κ) : m k ≤ offer m o k := by
  by_cases here : k = o.1
  · subst here
    simp
  · rw [offer_ne m here]

theorem offer_right_comm (m : κ → ν) (o p : κ × ν) : offer (offer m o) p = offer (offer m p) o := by
  by_cases same : o.1 = p.1
  · simp [offer, same, sup_right_comm]
  · simp only [offer, Function.update_of_ne same, Function.update_of_ne (Ne.symm same)]
    exact (Function.update_comm same _ _ _)

theorem offers_perm (m : κ → ν) (perm : os.Perm os') : offers m os = offers m os' :=
  perm.foldl_eq' (fun o _ p _ m => offer_right_comm m o p) m

theorem offer_absorbed (covered : o.2 ≤ m o.1) : offer m o = m := by
  rw [offer, sup_eq_left.mpr covered, Function.update_eq_self]

theorem le_offers_start (m : κ → ν) (os : List (κ × ν)) (k : κ) : m k ≤ offers m os k := by
  induction os generalizing m with
  | nil => exact le_refl _
  | cons o os ih => exact (le_offer m o k).trans (ih (offer m o))

theorem le_offers (m : κ → ν) (member : o ∈ os) : o.2 ≤ offers m os o.1 := by
  induction os generalizing m with
  | nil => cases member
  | cons p os ih =>
    rw [offers_cons]
    cases List.mem_cons.mp member with
    | inl here =>
      subst here
      exact le_trans (by simp) (le_offers_start (offer m o) os o.1)
    | inr behind => exact ih (offer m p) behind

end Join

section Linear

variable [LinearOrder ν]

theorem offers_attained (m : κ → ν) (os : List (κ × ν)) (k : κ) :
    offers m os k = m k ∨ (k, offers m os k) ∈ os := by
  induction os generalizing m with
  | nil => exact .inl rfl
  | cons o os ih =>
    rw [offers_cons]
    cases ih (offer m o) with
    | inr behind => exact .inr (List.mem_cons_of_mem o behind)
    | inl start =>
      rw [start]
      by_cases here : k = o.1
      · subst here
        rw [offer_self]
        cases le_total o.2 (m o.1) with
        | inl old => exact .inl (sup_eq_left.mpr old)
        | inr new => exact .inr (by rw [sup_eq_right.mpr new]; exact List.mem_cons_self)
      · rw [offer_ne m here]
        exact .inl rfl

end Linear

end MaxRegister
