import Mathlib.Data.List.Basic
import Mathlib.Tactic.Common

/-! # The growing array (`base/src/base/dyn_array.c`)

`head` is the number of elements that the block has room for, of which the last is never
used.  Whether `realloc` returns a block is an input.
-/

namespace Soter2.Base

structure DynArray (α : Type*) where
  elements : List α
  head : Nat
  room : elements.length < head

variable {α : Type*}

def dynArrayCreate : DynArray α := ⟨[], 1, Nat.zero_lt_one⟩

/-- The block is full, so that the next push asks for a larger one. -/
def DynArray.Full (array : DynArray α) : Prop := array.elements.length ≥ array.head - 1

instance (array : DynArray α) : Decidable array.Full := inferInstanceAs (Decidable (_ ≥ _))

theorem length_concat_lt {l : List α} {head : Nat} (element : α) (h : l.length + 1 < head) :
    (l ++ [element]).length < head := by
  simpa using h

/-- `dyn_array_push`: `none` where it returns -1. -/
def dynArrayPush (realloc : Bool) (array : DynArray α) (element : α) : Option (DynArray α) :=
  if full : array.Full then
    if realloc then
      some ⟨array.elements ++ [element], array.head * 2,
        length_concat_lt element (by have := array.room; omega)⟩
    else none
  else
    some ⟨array.elements ++ [element], array.head,
      length_concat_lt element (by have := array.room; unfold DynArray.Full at full; omega)⟩

theorem dynArrayPush_eq_none {realloc : Bool} {array : DynArray α} {element : α} :
    dynArrayPush realloc array element = none ↔ array.Full ∧ realloc = false := by
  rw [dynArrayPush]
  by_cases full : array.Full
  · cases realloc <;> simp [full]
  · simp [full]

theorem elements_dynArrayPush {realloc : Bool} {array array' : DynArray α} {element : α}
    (pushed : dynArrayPush realloc array element = some array') :
    array'.elements = array.elements ++ [element] := by
  rw [dynArrayPush] at pushed
  split at pushed
  · split at pushed
    · cases pushed; rfl
    · cases pushed
  · cases pushed; rfl

end Soter2.Base
