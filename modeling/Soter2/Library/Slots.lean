import Mathlib.Data.List.Basic
import Mathlib.Data.List.InsertIdx
import Mathlib.Data.List.ReduceOption
import Mathlib.Tactic.Common

/-! # A block of slots

A block of memory that is divided into slots of one size.  A slot nothing was written to is `none`,
and an access beyond the block has no result.

* `Holds` — the first slots of the block hold a list.
* `resize_holds`, `store_end` — `realloc`, and an element written behind the others.
* `close_gap`, `open_gap` — the two uses of `memmove`, which remove and insert an element.
-/

namespace Slots

variable {α : Type*}

/-! ## Operations -/

def load (block : List (Option α)) (i : Nat) : Option α := block[i]?.join

def store (block : List (Option α)) (i : Nat) (a : α) : Option (List (Option α)) :=
  if i < block.length then some (block.set i (some a)) else none

/-- `memmove` of `n` slots. -/
def move (block : List (Option α)) (target source n : Nat) : Option (List (Option α)) :=
  if target + n ≤ block.length ∧ source + n ≤ block.length then
    some (block.take target ++ (block.drop source).take n ++ block.drop (target + n))
  else none

/-- `memcpy` of a list to the start of the block. -/
def fill (block : List (Option α)) (l : List α) : Option (List (Option α)) :=
  if l.length ≤ block.length then some (l.map some ++ block.drop l.length) else none

/-- `realloc` to a block of `n` slots. -/
def resize (block : List (Option α)) (n : Nat) : List (Option α) :=
  block.take n ++ List.replicate (n - block.length) none

def Holds (block : List (Option α)) (l : List α) : Prop := l.map some <+: block

/-- What the first `n` slots hold, where something was written to them. -/
def contents (block : List (Option α)) (n : Nat) : List α := (block.take n).reduceOption

variable {block block' : List (Option α)} {l : List α} {a : α} {i n : Nat}

@[simp] theorem length_resize (block : List (Option α)) (n : Nat) :
    (resize block n).length = n := by
  simp only [resize, List.length_append, List.length_take, List.length_replicate]
  omega

theorem fill_eq_none : fill block l = none ↔ block.length < l.length := by simp [fill]

theorem length_fill (h : fill block l = some block') : block'.length = block.length := by
  obtain ⟨inside, rfl⟩ : l.length ≤ block.length ∧ l.map some ++ block.drop l.length = block' := by
    simpa [fill] using h
  simp only [List.length_append, List.length_map, List.length_drop]
  omega

theorem length_store (h : store block i a = some block') : block'.length = block.length := by
  obtain ⟨-, rfl⟩ : i < block.length ∧ block.set i (some a) = block' := by simpa [store] using h
  exact List.length_set

theorem length_move {target source : Nat} (h : move block target source n = some block') :
    block'.length = block.length := by
  rw [move] at h
  split at h
  next inside =>
    cases h
    simp only [List.length_append, List.length_take, List.length_drop]
    omega
  next => cases h

/-! ## The list in a block -/

theorem Holds.length_le (h : Holds block l) : l.length ≤ block.length := by
  simpa using List.IsPrefix.length_le h

theorem Holds.load (h : Holds block l) (inside : i < l.length) : load block i = some l[i] := by
  obtain ⟨rest, rfl⟩ := h
  simp [Slots.load, List.getElem?_append_left, inside]

theorem Holds.contents (h : Holds block l) : contents block l.length = l := by
  obtain ⟨rest, rfl⟩ := h
  have first : (l.map some ++ rest).take l.length = l.map some := by simp
  rw [Slots.contents, first, List.reduceOption]
  simp

theorem Holds.nil (block : List (Option α)) : Holds block [] := List.nil_prefix

theorem Holds.shorter {l' : List α} (h : Holds block l) (initial : l' <+: l) : Holds block l' :=
  (initial.map some).trans h

theorem fill_holds (h : fill block l = some block') : Holds block' l := by
  obtain ⟨-, rfl⟩ : l.length ≤ block.length ∧ l.map some ++ block.drop l.length = block' := by
    simpa [fill] using h
  exact List.prefix_append _ _

/-- What the block holds still fits into its new size. -/
theorem Holds.resize (h : Holds block l) (fits : l.length ≤ n) : Holds (resize block n) l := by
  obtain ⟨rest, rfl⟩ := h
  have kept : (l.map some ++ rest).take n = l.map some ++ rest.take (n - l.length) := by
    rw [List.take_append, List.length_map, List.take_of_length_le (by simpa using fits)]
  rw [Slots.resize, kept, List.append_assoc]
  exact List.prefix_append _ _

theorem Holds.store_end (h : Holds block l) (room : l.length < block.length) (a : α) :
    ∃ block', store block l.length a = some block' ∧ Holds block' (l ++ [a]) := by
  obtain ⟨rest, rfl⟩ := h
  refine ⟨_, if_pos room, ?_⟩
  cases rest with
  | nil => simp at room
  | cons slot rest =>
    exact ⟨rest, by simp⟩

/-- The slots behind an element move down by one. -/
theorem Holds.close_gap (h : Holds block l) (inside : i < l.length) :
    ∃ block', move block i (i + 1) (l.length - i - 1) = some block' ∧
      Holds block' (l.eraseIdx i) := by
  have bound := h.length_le
  refine ⟨_, if_pos ⟨by omega, by omega⟩, ?_⟩
  obtain ⟨rest, rfl⟩ := h
  -- the list up to the element, and the list behind it
  have front : (l.map some ++ rest).take i = (l.take i).map some := by
    rw [List.take_append_of_le_length (by simp; omega), List.map_take]
  have back : ((l.map some ++ rest).drop (i + 1)).take (l.length - i - 1)
      = (l.drop (i + 1)).map some := by
    rw [List.drop_append_of_le_length (by simp; omega),
      List.take_append_of_le_length (by simp; omega), ← List.map_drop,
      List.take_of_length_le (by simp; omega)]
  rw [front, back, ← List.map_append, ← List.eraseIdx_eq_take_drop_succ]
  exact List.prefix_append _ _

theorem insertIdx_length_append (front back : List α) (a : α) :
    (front ++ back).insertIdx front.length a = front ++ a :: back := by
  induction front with
  | nil => rfl
  | cons b front ih => simpa using ih

/-- The slots from an index on move up by one, and an element is written into the gap. -/
theorem Holds.open_gap (h : Holds block l) (room : l.length < block.length) (inside : i ≤ l.length)
    (a : α) :
    ∃ moved block', move block (i + 1) i (l.length - i) = some moved ∧
      store moved i a = some block' ∧
      Holds block' (l.insertIdx i a) := by
  obtain ⟨rest, rfl⟩ := h
  -- the list in two parts, and the slot behind it that the second part moves into
  obtain ⟨front, back, rfl, rfl⟩ : ∃ front back, l = front ++ back ∧ i = front.length :=
    ⟨l.take i, l.drop i, by simp, by simp [inside]⟩
  cases rest with
  | nil => simp at room
  | cons slot rest =>
    obtain ⟨first, others, split⟩ : ∃ first others, back.map some ++ slot :: rest = first ::
      others := by
      cases back <;> simp
    have moved : move ((front ++ back).map some ++ slot :: rest) (front.length + 1) front.length
        back.length
        = some (front.map some ++ first :: (back.map some ++ rest)) := by
      have head : ((front ++ back).map some ++ slot :: rest).take (front.length + 1)
          = front.map some ++ [first] := by
        rw [List.map_append, List.append_assoc, split, List.take_append,
          List.take_of_length_le (by simp)]
        simp
      have middle : (((front ++ back).map some ++ slot :: rest).drop front.length).take back.length
          = back.map some := by
        rw [List.map_append, List.append_assoc, List.drop_left' (by simp),
          List.take_left' (by simp)]
      have behind : ((front ++ back).map some ++ slot :: rest).drop (front.length + 1 + back.length)
          = rest := by
        rw [← List.singleton_append, ← List.append_assoc, List.drop_left' (by simp; omega)]
      rw [move, if_pos (by simp; omega), head, middle, behind, List.append_assoc, List.append_assoc,
        List.singleton_append]
    refine ⟨_, _, by simpa using moved, if_pos (by simp), ?_⟩
    rw [insertIdx_length_append, List.set_append_right _ _ (by simp)]
    refine ⟨rest, ?_⟩
    simp

end Slots
