import Mathlib.Data.List.Basic
import Mathlib.Logic.Function.Basic
import Mathlib.Tactic.Common

/-! # A heap of blocks

`alloc` gives a block at an address that was never given before, `free` takes it back, and `write`
changes what is in it.  An access to an address without a block has no result.
-/

structure Heap (β : Type*) where
  next : Nat
  cells : Nat → Option β
  fresh : ∀ a, next ≤ a → cells a = none

namespace Heap

variable {β : Type*}

def empty : Heap β := ⟨0, fun _ => none, fun _ _ => rfl⟩

/-- The block at the next address. -/
def alloc (h : Heap β) (b : β) : Heap β where
  next := h.next + 1
  cells := Function.update h.cells h.next (some b)
  fresh a above := by
    rw [Function.update_of_ne (by omega)]
    exact h.fresh a (by omega)

def free (h : Heap β) (a : Nat) : Option (Heap β) :=
  if (h.cells a).isSome then
    some ⟨h.next, Function.update h.cells a none, fun b above => by
      by_cases here : b = a
      · rw [here, Function.update_self]
      · rw [Function.update_of_ne here]
        exact h.fresh b above⟩
  else none

def write (h : Heap β) (a : Nat) (f : β → β) : Option (Heap β) :=
  if live : (h.cells a).isSome then
    some ⟨h.next, Function.update h.cells a ((h.cells a).map f), fun b above => by
      have other : b ≠ a := by
        rintro rfl
        rw [h.fresh b above] at live
        cases live
      rw [Function.update_of_ne other]
      exact h.fresh b above⟩
  else none

variable {h : Heap β} {a a' : Nat} {b : β}

/-- An address with a block is below the next one. -/
theorem lt_next (live : h.cells a = some b) : a < h.next := by
  by_contra above
  rw [h.fresh a (Nat.le_of_not_lt above)] at live
  cases live

@[simp] theorem cells_alloc_self (h : Heap β) (b : β) : (h.alloc b).cells h.next = some b :=
  Function.update_self _ _ _

theorem cells_alloc {c : β} (live : h.cells a = some b) : (h.alloc c).cells a = some b := by
  have other : a ≠ h.next := Nat.ne_of_lt (lt_next live)
  rw [← live]
  exact Function.update_of_ne other _ _

theorem free_live (live : h.cells a = some b) :
    ∃ h', h.free a = some h' ∧ h'.cells a = none ∧ h'.next = h.next ∧ ∀ other, other ≠ a →
      h'.cells other = h.cells other := by
  refine ⟨_, if_pos (by rw [live]; rfl), Function.update_self _ _ _, rfl, ?_⟩
  exact fun other apart => Function.update_of_ne apart _ _

theorem write_live (live : h.cells a = some b) (f : β → β) :
    ∃ h', h.write a f = some h' ∧ h'.cells a = some (f b) ∧ h'.next = h.next ∧
      ∀ other, other ≠ a → h'.cells other = h.cells other := by
  refine ⟨_, dif_pos (by rw [live]; rfl), ?_, rfl, ?_⟩
  · simp [live]
  · exact fun other apart => Function.update_of_ne apart _ _

end Heap
