import Mathlib.Algebra.Ring.Nat
import Mathlib.Data.List.Dedup
import Mathlib.Tactic.Common
import Soter2.Base.DynArray
import Soter2.Library.Slots
import Soter2.Library.Transition

/-! # The block of the growing array (`base/src/base/dyn_array.c`)

The array with the block that `realloc` gives it: `head` is the capacity the code reckons with, and
`elements` the slots that are allocated, none where the pointer is null.  An element is compared
with `memcmp`, which is equality of `α`.  A call has no result where it accesses a slot beyond the
block, or one nothing was written to, and where an `int` counter overflows.
-/

namespace Soter2.Base

/-- `SIZE_MAX`. -/
abbrev sizeMax : Nat := 2 ^ 64 - 1

/-- `PTRDIFF_MAX`: `realloc` gives no block with more bytes. -/
abbrev ptrdiffMax : Nat := 2 ^ 63 - 1

structure ArrayBlock (α : Type*) where
  elements : List (Option α)
  len : Nat
  head : Nat
  elementSize : Nat
  deriving DecidableEq

namespace ArrayBlock

variable {α : Type*}

def intMax : Nat := 2 ^ 31 - 1

/-- The array as a list: the elements in its first `len` slots. -/
def contents (array : ArrayBlock α) : List α := Slots.contents array.elements array.len

/-! ## Growing -/

def dynArrayCreate (elementSize : Nat) : ArrayBlock α := ⟨[], 0, 1, elementSize⟩

/-- `head - 1`, as a `size_t`. -/
def spare (array : ArrayBlock α) : Nat := if array.head = 0 then sizeMax else array.head - 1

/-- `head * 2`, as a `size_t`. -/
def doubled (array : ArrayBlock α) : Nat := array.head * 2 % 2 ^ 64

/-- The bytes that are asked for `capacity` elements, as a `size_t`. -/
def request (array : ArrayBlock α) (capacity : Nat) : Nat := capacity * array.elementSize % 2 ^ 64

/-- `realloc` for `capacity` elements; it may refuse any request. -/
def reallocate (granted : Bool) (array : ArrayBlock α) (capacity : Nat) : Option (ArrayBlock α) :=
  if granted ∧ array.request capacity ≤ ptrdiffMax then
    some { array with
      elements := Slots.resize array.elements (array.request capacity / array.elementSize)
      head := capacity }
  else none

/-- `dyn_array_resize`: the return value and the array afterwards. -/
def dynArrayResize (granted : Bool) (array : ArrayBlock α) (s : Nat) : Int × ArrayBlock α :=
  if s = sizeMax then (-1, array)
  else if s ≥ array.spare then
    match reallocate granted array array.doubled with
    | none => (-1, array)
    | some array => (0, array)
  else (0, array)

/-- What `dyn_array_push` and `dyn_array_insert` do before they write. -/
def makeRoom (granted : Bool) (array : ArrayBlock α) (capacity : Nat) : Option (ArrayBlock α) :=
  if array.len ≥ array.spare then reallocate granted array capacity else some array

def dynArrayPush (granted : Bool) (array : ArrayBlock α) (element : α) :
    Option (Int × ArrayBlock α) :=
  match makeRoom granted array array.doubled with
  | none => some (-1, array)
  | some array => (Slots.store array.elements array.len element).map fun elements =>
    (0, { array with elements, len := array.len + 1 })

/-- `dyn_array_insert`, where the element may be a null pointer. -/
def dynArrayInsert (granted : Bool) (array : ArrayBlock α) (index : Nat) (element : Option α) :
    Option (Int × ArrayBlock α) :=
  match element with
  | none => some (-1, array)
  | some element =>
    if index > array.len then some (-1, array)
    else
      match makeRoom granted array (if array.head = 0 then 2 else array.doubled) with
      | none => some (-1, array)
      | some array =>
        let shifted := if index < array.len then Slots.move array.elements (index + 1) index
          (array.len - index)
          else some array.elements
        (shifted.bind (Slots.store · index element)).map fun elements =>
          (0, { array with elements, len := array.len + 1 })

/-- `dyn_array_from_c`: `some none` where it returns -1. -/
def dynArrayFromC (granted : Bool) (elementSize : Nat) (source : List α) :
    Option (Option (ArrayBlock α)) :=
  let resized := dynArrayResize granted (dynArrayCreate elementSize) source.length
  if 0 > resized.1 then some none
  else
    (Slots.fill resized.2.elements source).map fun elements =>
      some { resized.2 with elements, len := source.length }

/-! ## Removing and reading -/

def dynArrayRemove (array : ArrayBlock α) (index : Nat) : Option (Int × ArrayBlock α) :=
  if array.len ≤ index then some (-1, array)
  else
    let closed := if index < array.len - 1 then Slots.move array.elements index (index + 1)
      (array.len - index - 1)
      else some array.elements
    closed.map fun elements => (0, { array with elements, len := array.len - 1 })

/-- `dyn_array_at`: the slot that the pointer leads to. -/
def dynArrayAt (array : ArrayBlock α) (index : Nat) : Option Nat :=
  if array.len ≤ index then none else some index

/-- `dyn_array_sort`, with `qsort` as a sort that leaves equal elements in their order. -/
def dynArraySort (array : ArrayBlock α) (cmp : α → α → Bool) : Option (ArrayBlock α) :=
  if array.len ≤ 1 then some array
  else (Slots.fill array.elements (array.contents.mergeSort cmp)).map fun elements =>
    { array with elements }

section Search

variable [DecidableEq α]

/-- The loop of `dyn_array_index`, with the elements from `i` on still to compare. -/
def indexLoop (array : ArrayBlock α) (element : α) : Nat → Nat → Option Nat
  | 0, _ => some sizeMax
  | rest + 1, i => (Slots.load array.elements i).bind fun other =>
    if element = other then some i else indexLoop array element rest (i + 1)

def dynArrayIndex (array : ArrayBlock α) (element : α) : Option Nat :=
  indexLoop array element array.len 0

/-- The loop of `dyn_array_count`, whose counter is an `int`. -/
def countLoop (array : ArrayBlock α) (element : α) : Nat → Nat → Nat → Option Nat
  | 0, _, count => some count
  | rest + 1, i, count => (Slots.load array.elements i).bind fun other =>
    if element = other then
      if count < intMax then countLoop array element rest (i + 1) (count + 1) else none
    else countLoop array element rest (i + 1) count

def dynArrayCount (array : ArrayBlock α) (element : α) : Option Nat :=
  countLoop array element array.len 0 0

/-- The loop of `dyn_array_setself`; each turn brings `i` and `len` closer together. -/
def setselfLoop : Nat → Nat → ArrayBlock α → Option (ArrayBlock α)
  | 0, _, array => some array
  | turns + 1, i, array =>
    if i < array.len then
      (dynArrayAt array i).bind fun slot =>
        (Slots.load array.elements slot).bind fun element =>
          (dynArrayCount array element).bind fun count =>
            if count > 1 then
              (dynArrayRemove array i).bind fun removed => setselfLoop turns i removed.2
            else setselfLoop turns (i + 1) array
    else some array

def dynArraySetself (array : ArrayBlock α) : Option (ArrayBlock α) := setselfLoop array.len 0 array

/-! ## Calls -/

inductive Call (α : Type*) where
  | push (element : α) (granted : Bool)
  | insert (index : Nat) (element : Option α) (granted : Bool)
  | remove (index : Nat)
  | index (element : α)
  | count (element : α)
  | get (index : Nat)
  | setself
  | resize (s : Nat) (granted : Bool)
  | sort (cmp : α → α → Bool)

inductive Reply (α : Type*) where
  | code (result : Int)
  | number (n : Nat)
  | pointer (element : Option α)
  | done
  deriving DecidableEq

/-- A call with its result; a pointer is read. -/
def perform (array : ArrayBlock α) : Call α → Option (Reply α × ArrayBlock α)
  | .push element granted => (dynArrayPush granted array element).map fun r => (.code r.1, r.2)
  | .insert index element granted =>
    (dynArrayInsert granted array index element).map fun r => (.code r.1, r.2)
  | .remove index => (dynArrayRemove array index).map fun r => (.code r.1, r.2)
  | .index element => (dynArrayIndex array element).map fun n => (.number n, array)
  | .count element => (dynArrayCount array element).map fun n => (.number n, array)
  | .get index =>
    match dynArrayAt array index with
    | none => some (.pointer none, array)
    | some slot =>
      (Slots.load array.elements slot).map fun element => (.pointer (some element), array)
  | .setself => (dynArraySetself array).map fun array => (.done, array)
  | .resize s granted =>
    let resized := dynArrayResize granted array s
    some (.code resized.1, resized.2)
  | .sort cmp => (dynArraySort array cmp).map fun array => (.done, array)

def step (array : ArrayBlock α) (call : Call α) : Option (ArrayBlock α) :=
  (perform array call).map Prod.snd

end Search

/-! ## The array as a list -/

/-- For `s` elements the array would have to grow, and cannot. -/
def Stuck (granted : Bool) (array : ArrayBlock α) (s : Nat) : Prop :=
  s ≥ array.spare ∧ ¬ (granted ∧ array.request array.doubled ≤ ptrdiffMax)

instance (granted : Bool) (array : ArrayBlock α) (s : Nat) : Decidable (Stuck granted array s) :=
  inferInstanceAs (Decidable (_ ∧ _))

def Refuses (array : ArrayBlock α) : Call α → Prop
  | .push _ granted | .insert _ _ granted => Stuck granted array array.len
  | .resize s granted => Stuck granted array s
  | _ => False

instance (array : ArrayBlock α) : (call : Call α) → Decidable (array.Refuses call)
  | .push _ granted | .insert _ _ granted =>
    inferInstanceAs (Decidable (Stuck granted array array.len))
  | .resize s granted => inferInstanceAs (Decidable (Stuck granted array s))
  | .remove _ | .index _ | .count _ | .get _ | .setself | .sort _ =>
    inferInstanceAs (Decidable False)

/-- The call on a list. -/
def listCall [DecidableEq α] (refused : Prop) [Decidable refused] (l : List α) :
    Call α → Reply α × List α
  | .push element _ => if refused then (.code (-1), l) else (.code 0, l ++ [element])
  | .insert _ none _ => (.code (-1), l)
  | .insert index (some element) _ =>
    if index > l.length ∨ refused then (.code (-1), l) else (.code 0, l.insertIdx index element)
  | .remove index => if index < l.length then (.code 0, l.eraseIdx index) else (.code (-1), l)
  | .index element => (.number ((l.idxOf? element).getD sizeMax), l)
  | .count element => (.number (l.count element), l)
  | .get index => (.pointer l[index]?, l)
  | .setself => (.done, l.dedup)
  | .resize s _ => (.code (if s = sizeMax ∨ refused then -1 else 0), l)
  | .sort cmp => (.done, l.mergeSort cmp)

/-- The array holds the list, and has the block that its capacity stands for. -/
structure Sound (array : ArrayBlock α) (l : List α) : Prop where
  stores : array.len = l.length
  holds : Slots.Holds array.elements l
  positive : 0 < array.elementSize
  size : array.head * array.elementSize ≤ ptrdiffMax
  block : array.head = 1 ∧ array.elements = [] ∨ 2 ≤ array.head ∧ array.elements.length = array.head

variable {array array' : ArrayBlock α} {l : List α} {granted : Bool}

theorem Sound.contents (h : Sound array l) : array.contents = l := by
  rw [ArrayBlock.contents, h.stores, h.holds.contents]

theorem sound_create {elementSize : Nat} (positive : 0 < elementSize)
    (object : elementSize ≤ ptrdiffMax) : Sound (dynArrayCreate elementSize : ArrayBlock α) [] where
  stores := rfl
  holds := Slots.Holds.nil _
  positive := positive
  size := by simpa [dynArrayCreate] using object
  block := .inl ⟨rfl, rfl⟩

/-! ## Growing -/

theorem Sound.head_bounds (h : Sound array l) : 1 ≤ array.head ∧ array.head < 2 ^ 63 := by
  have size : array.head ≤ ptrdiffMax := Nat.le_trans (Nat.le_mul_of_pos_right _ h.positive) h.size
  refine ⟨?_, Nat.lt_of_le_pred (by decide) size⟩
  obtain ⟨one, -⟩ | ⟨two, -⟩ := h.block <;> omega

theorem Sound.object (h : Sound array l) : array.elementSize ≤ ptrdiffMax :=
  Nat.le_trans (Nat.le_mul_of_pos_left _ h.head_bounds.1) h.size

theorem Sound.spare (h : Sound array l) : array.spare = array.head - 1 := by
  obtain ⟨low, high⟩ := h.head_bounds
  rw [ArrayBlock.spare, if_neg (by omega)]

theorem Sound.doubled (h : Sound array l) : array.doubled = array.head * 2 := by
  obtain ⟨low, high⟩ := h.head_bounds
  rw [ArrayBlock.doubled]
  omega

theorem Sound.len_lt (h : Sound array l) : array.len < sizeMax := by
  have bound := h.holds.length_le
  have stores := h.stores
  obtain ⟨-, high⟩ := h.head_bounds
  have limit : sizeMax = 2 ^ 64 - 1 := rfl
  obtain ⟨-, empty⟩ | ⟨-, all⟩ := h.block
  · rw [empty, List.length_nil] at bound
    omega
  · omega

/-- The bytes of the larger block are no more than a `size_t` counts. -/
theorem Sound.request (h : Sound array l) :
    array.request array.doubled = array.head * 2 * array.elementSize := by
  have size := h.size
  have limit : ptrdiffMax = 2 ^ 63 - 1 := rfl
  have twice : array.head * 2 * array.elementSize = 2 * (array.head * array.elementSize) := by
    rw [Nat.mul_comm array.head 2, Nat.mul_assoc]
  rw [ArrayBlock.request, h.doubled]
  omega

theorem Sound.reallocate (h : Sound array l)
    (grown : reallocate granted array array.doubled = some array') :
    Sound array' l ∧ array'.elements.length = array.head * 2 ∧
      array'.elementSize = array.elementSize ∧
      array'.head = array.head * 2 := by
  obtain ⟨low, -⟩ := h.head_bounds
  have bound := h.holds.length_le
  rw [ArrayBlock.reallocate] at grown
  split at grown
  next possible =>
    cases grown
    have slots : array.request array.doubled / array.elementSize = array.head * 2 := by
      rw [h.request, Nat.mul_div_cancel _ h.positive]
    have small : array.head * 2 * array.elementSize ≤ ptrdiffMax := h.request ▸ possible.2
    -- an array of one slot is empty, and any other is as long as its capacity
    have fits : l.length ≤ array.head * 2 := by
      obtain ⟨-, empty⟩ | ⟨-, full⟩ := h.block
      · rw [empty, List.length_nil] at bound
        omega
      · omega
    refine ⟨⟨h.stores, ?_, h.positive, ?_, .inr ⟨?_, ?_⟩⟩, ?_, rfl, h.doubled⟩
    · simpa only [slots] using h.holds.resize fits
    · simpa only [h.doubled] using small
    · simp only [h.doubled]
      omega
    · simp only [slots, Slots.length_resize]
      exact h.doubled.symm
    · simp only [slots, Slots.length_resize]
  next => cases grown

theorem reallocate_eq_none {capacity : Nat} :
    reallocate granted array capacity = none ↔
      ¬ (granted ∧ array.request capacity ≤ ptrdiffMax) := by
  simp [reallocate]

/-- Where the array need not grow, or can, there is a slot more than elements. -/
theorem Sound.makeRoom (h : Sound array l)
    (room : ¬ Stuck granted array array.len) :
    ∃ array', makeRoom granted array array.doubled = some array' ∧ Sound array' l ∧
      l.length < array'.elements.length ∧
      array'.elementSize = array.elementSize ∧
      array'.head = if array.len ≥ array.spare then array.head * 2 else array.head := by
  have stores := h.stores
  have bound := h.holds.length_le
  obtain ⟨low, -⟩ := h.head_bounds
  rw [ArrayBlock.makeRoom]
  split
  next full =>
    obtain ⟨array', grown⟩ : ∃ array', ArrayBlock.reallocate granted array array.doubled
      = some array' := by
      rw [← Option.ne_none_iff_exists', Ne, reallocate_eq_none]
      exact fun refused => room ⟨full, refused⟩
    obtain ⟨sound, slots, size, head⟩ := h.reallocate grown
    refine ⟨array', grown, sound, ?_, size, head⟩
    -- doubled from one slot, or from as many as the capacity says
    obtain ⟨-, empty⟩ | ⟨-, all⟩ := h.block
    · rw [empty, List.length_nil] at bound
      omega
    · omega
  next free =>
    refine ⟨array, rfl, h, ?_, rfl, rfl⟩
    rw [h.spare] at free
    obtain ⟨one, -⟩ | ⟨-, all⟩ := h.block <;> omega

theorem makeRoom_stuck (refused : Stuck granted array array.len) :
    makeRoom granted array array.doubled = none := by
  rw [makeRoom, if_pos refused.1, reallocate_eq_none]
  exact refused.2

theorem Sound.update (h : Sound array l) {l' : List α} {elements : List (Option α)}
    (holds : Slots.Holds elements l') (length : elements.length = array.elements.length) :
    Sound { array with elements, len := l'.length } l' where
  stores := rfl
  holds := holds
  positive := h.positive
  size := h.size
  block := by
    refine h.block.imp ?_ ?_
    · rintro ⟨one, empty⟩
      exact ⟨one, List.eq_nil_of_length_eq_zero (by rw [length, empty, List.length_nil])⟩
    · rintro ⟨two, all⟩
      exact ⟨two, length.trans all⟩

/-! ## The calls -/

theorem Sound.push (h : Sound array l) (element : α)
    (room : ¬ Stuck granted array array.len) :
    ∃ array', dynArrayPush granted array element = some (0, array') ∧
      Sound array' (l ++ [element]) ∧
      array'.elementSize = array.elementSize ∧
      array'.head = if array.len ≥ array.spare then array.head * 2 else array.head := by
  obtain ⟨larger, grown, sound, free, size, head⟩ := h.makeRoom room
  obtain ⟨elements, stored, holds⟩ := sound.holds.store_end free element
  have stores := sound.stores
  refine ⟨_, ?_, sound.update holds (Slots.length_store stored), size, head⟩
  simp [dynArrayPush, grown, stores, stored]

theorem push_stuck (refused : Stuck granted array array.len) (element : α) :
    dynArrayPush granted array element = some (-1, array) := by
  rw [dynArrayPush, makeRoom_stuck refused]

theorem Sound.insert (h : Sound array l) {index : Nat} (inside : index ≤ l.length) (element : α)
    (room : ¬ Stuck granted array array.len) :
    ∃ array', dynArrayInsert granted array index (some element) = some (0, array') ∧
      Sound array' (l.insertIdx index element) := by
  obtain ⟨larger, grown, sound, free, -⟩ := h.makeRoom room
  have stores := h.stores
  have stores' := sound.stores
  have capacity : (if array.head = 0 then 2 else array.doubled) = array.doubled :=
    if_neg (Nat.ne_of_gt h.head_bounds.1)
  have length : (l.insertIdx index element).length = l.length + 1 :=
    List.length_insertIdx_of_le_length inside element
  -- at the end no element has to move
  by_cases last : index = l.length
  · subst last
    obtain ⟨elements, stored, holds⟩ := sound.holds.store_end free element
    rw [List.insertIdx_length_self]
    refine ⟨_, ?_, sound.update holds (Slots.length_store stored)⟩
    simp [dynArrayInsert, capacity, grown, stores, stores', stored]
  · obtain ⟨shifted, elements, moved, stored, holds⟩ := sound.holds.open_gap free inside element
    refine ⟨_, ?_, sound.update holds ((Slots.length_store stored).trans (Slots.length_move moved))⟩
    have before : index < l.length := by omega
    simp [dynArrayInsert, capacity, grown, stores, stores', stored, moved, before,
      Nat.not_lt.mpr inside, length]

theorem makeRoom_insert (bounded : array.len < sizeMax) :
    makeRoom granted array (if array.head = 0 then 2 else array.doubled)
      = makeRoom granted array array.doubled := by
  by_cases zero : array.head = 0
  · have free : ¬ array.len ≥ array.spare := by
      rw [spare, if_pos zero]
      omega
    rw [makeRoom, makeRoom, if_neg free, if_neg free]
  · rw [if_neg zero]

theorem insert_refused (bounded : array.len < sizeMax) {index : Nat} (element : α)
    (refused : index > array.len ∨ Stuck granted array array.len) :
    dynArrayInsert granted array index (some element) = some (-1, array) := by
  rw [dynArrayInsert]
  split
  next => rfl
  next inside => simp only [makeRoom_insert bounded, makeRoom_stuck (refused.resolve_left inside)]

theorem Sound.remove (h : Sound array l) {index : Nat} (inside : index < l.length) :
    ∃ array', dynArrayRemove array index = some (0, array') ∧ Sound array' (l.eraseIdx index) := by
  have stores := h.stores
  have length : (l.eraseIdx index).length = l.length - 1 := List.length_eraseIdx_of_lt inside
  by_cases last : index = l.length - 1
  · have shorter : l.eraseIdx index <+: l := by
      rw [last, List.eraseIdx_length_sub_one]
      exact List.dropLast_prefix l
    refine ⟨_, ?_, h.update (h.holds.shorter shorter) rfl⟩
    simp [dynArrayRemove, stores, last]
    omega
  · obtain ⟨elements, moved, holds⟩ := h.holds.close_gap inside
    refine ⟨_, ?_, h.update holds (Slots.length_move moved)⟩
    have before : index < l.length - 1 := by omega
    simp [dynArrayRemove, stores, moved, before, length, Nat.not_le.mpr inside]

theorem Sound.sort (h : Sound array l) (cmp : α → α → Bool) :
    ∃ array', dynArraySort array cmp = some array' ∧ Sound array' (l.mergeSort cmp) := by
  have stores := h.stores
  rw [dynArraySort]
  split
  next short =>
    refine ⟨array, rfl, ?_⟩
    have same : l.mergeSort cmp = l := by
      match l, stores ▸ short with
      | [], _ => exact List.mergeSort_nil
      | [a], _ => exact List.mergeSort_singleton a
    rwa [same]
  next =>
    have length : (l.mergeSort cmp).length = l.length := List.length_mergeSort l
    obtain ⟨elements, filled⟩ : ∃ elements, Slots.fill array.elements (l.mergeSort cmp)
      = some elements := by
      rw [← Option.ne_none_iff_exists', Ne, Slots.fill_eq_none, length, Nat.not_lt]
      exact h.holds.length_le
    have sound := h.update (Slots.fill_holds filled) (Slots.length_fill filled)
    rw [length, ← stores] at sound
    exact ⟨_, by rw [h.contents, filled]; rfl, sound⟩

theorem resize_cases (granted : Bool) (array : ArrayBlock α) (s : Nat) :
    (s = sizeMax ∨ Stuck granted array s) ∧ dynArrayResize granted array s = (-1, array) ∨
      ¬ (s = sizeMax ∨ Stuck granted array s) ∧
        (s < array.spare ∧ dynArrayResize granted array s = (0, array) ∨
          ∃ array', dynArrayResize granted array s = (0, array') ∧
            reallocate granted array array.doubled = some array') := by
  rw [dynArrayResize]
  by_cases largest : s = sizeMax
  · exact .inl ⟨.inl largest, if_pos largest⟩
  by_cases full : s ≥ array.spare
  · rw [if_neg largest, if_pos full]
    split
    next refused => exact .inl ⟨.inr ⟨full, reallocate_eq_none.mp refused⟩, rfl⟩
    next larger grown =>
      have possible : ¬ Stuck granted array s := fun stuck => by
        rw [reallocate_eq_none.mpr stuck.2] at grown
        cases grown
      exact .inr ⟨not_or.mpr ⟨largest, possible⟩, .inr ⟨larger, rfl, grown⟩⟩
  · have free : ¬ Stuck granted array s := fun stuck => full stuck.1
    rw [if_neg largest, if_neg full]
    exact .inr ⟨not_or.mpr ⟨largest, free⟩, .inl ⟨Nat.lt_of_not_le full, rfl⟩⟩

/-! ## The loops -/

theorem load_next {done : List α} {a : α} {behind : List α}
    (h : Slots.Holds array.elements (done ++ a :: behind)) :
    Slots.load array.elements done.length = some a := by
  rw [h.load (by simp)]
  simp

section Search

variable [DecidableEq α]

theorem indexLoop_eq (element : α) {done behind : List α}
    (h : Slots.Holds array.elements (done ++ behind)) :
    indexLoop array element behind.length done.length
      = some (((behind.idxOf? element).map (done.length + ·)).getD sizeMax) := by
  induction behind generalizing done with
  | nil => rfl
  | cons a behind ih =>
    rw [List.length_cons, indexLoop, load_next h, Option.bind_some, List.idxOf?_cons]
    by_cases same : element = a
    · simp [same]
    · rw [if_neg same]
      have passed : Slots.Holds array.elements (done ++ [a] ++ behind) := by simpa using h
      have next := ih passed
      rw [List.length_append, List.length_singleton] at next
      rw [next]
      cases behind.idxOf? element <;> simp [Ne.symm same, Nat.add_assoc, Nat.add_comm 1]

theorem Sound.index (h : Sound array l) (element : α) :
    dynArrayIndex array element = some ((l.idxOf? element).getD sizeMax) := by
  rw [dynArrayIndex, h.stores]
  have loop := indexLoop_eq element (show Slots.Holds array.elements ([] ++ l) from h.holds)
  simpa using loop

/-- The counter is right as long as an `int` can hold it. -/
theorem countLoop_eq (element : α) {done behind : List α}
    (h : Slots.Holds array.elements (done ++ behind)) {count : Nat} (small : count ≤ intMax) :
    countLoop array element behind.length done.length count
      = if count + behind.count element ≤ intMax then some (count + behind.count element)
        else none := by
  induction behind generalizing done count with
  | nil => simp [countLoop, small]
  | cons a behind ih =>
    have holds : Slots.Holds array.elements ((done ++ [a]) ++ behind) := by simpa using h
    have next := @ih (done ++ [a]) holds
    rw [List.length_append, List.length_singleton] at next
    rw [List.length_cons, countLoop, load_next h, Option.bind_some]
    by_cases same : element = a
    · subst same
      rw [if_pos rfl, List.count_cons_self]
      split
      next below => rw [next (show count + 1 ≤ intMax from below), Nat.add_assoc, Nat.add_comm 1]
      next => rw [if_neg (by omega)]
    · rw [if_neg same, next small, List.count_cons_of_ne (Ne.symm same)]

theorem Sound.count (h : Sound array l) (element : α) :
    dynArrayCount array element = if l.count element ≤ intMax then some (l.count element)
      else none := by
  rw [dynArrayCount, h.stores]
  have loop := countLoop_eq element (show Slots.Holds array.elements ([] ++ l) from h.holds)
    (Nat.zero_le intMax)
  simpa using loop

/-- A turn of the loop of `dyn_array_setself` at an element whose copies an `int` can count. -/
theorem Sound.setself_turn {done behind : List α} {a : α} (h : Sound array (done ++ a :: behind))
    (new : a ∉ done) (small : (done ++ a :: behind).count a ≤ intMax) (turns : Nat) :
    ∃ array', setselfLoop (turns + 1) done.length array
        = setselfLoop turns (if a ∈ behind then done else done ++ [a]).length array' ∧
      Sound array' ((if a ∈ behind then done else done ++ [a]) ++ behind) := by
  have count : (done ++ a :: behind).count a = behind.count a + 1 := by
    rw [List.count_append, List.count_eq_zero_of_not_mem new, List.count_cons_self, Nat.zero_add]
  have inside : done.length < array.len := by rw [h.stores]; simp
  rw [setselfLoop, if_pos inside, dynArrayAt, if_neg (Nat.not_le.mpr inside), Option.bind_some,
    load_next h.holds, Option.bind_some, h.count, if_pos small, Option.bind_some, count]
  -- the first copy goes as long as another one is behind it
  by_cases again : a ∈ behind
  · obtain ⟨array', removed, sound⟩ :=
      h.remove (show done.length < (done ++ a :: behind).length by simp)
    have more : behind.count a + 1 > 1 := Nat.succ_lt_succ (List.count_pos_iff.mpr again)
    rw [if_pos more, removed, if_pos again, Option.bind_some]
    refine ⟨array', rfl, ?_⟩
    simpa [List.eraseIdx_append_of_length_le] using sound
  · have once : ¬ behind.count a + 1 > 1 := by rw [List.count_eq_zero_of_not_mem again]; omega
    rw [if_neg once, if_neg again]
    refine ⟨array, by simp, ?_⟩
    simpa using h

theorem apart_next {done behind : List α} {a : α} (apart : ∀ b ∈ done, b ∉ a :: behind) :
    ∀ b ∈ if a ∈ behind then done else done ++ [a], b ∉ behind := by
  intro b old member
  by_cases again : a ∈ behind
  · rw [if_pos again] at old
    exact apart b old (List.mem_cons_of_mem a member)
  · rw [if_neg again] at old
    obtain old | here := List.mem_append.mp old
    · exact apart b old (List.mem_cons_of_mem a member)
    · exact again (List.mem_singleton.mp here ▸ member)

theorem Sound.setselfLoop {done behind : List α} (h : Sound array (done ++ behind))
    (apart : ∀ a ∈ done, a ∉ behind) (small : ∀ a ∈ behind, behind.count a ≤ intMax) {turns : Nat}
    (enough : behind.length ≤ turns) :
    ∃ array', ArrayBlock.setselfLoop turns done.length array = some array' ∧
      Sound array' (done ++ behind.dedup) := by
  induction behind generalizing done array turns with
  | nil =>
    refine ⟨array, ?_, by simpa using h⟩
    have stop : ¬ done.length < array.len := by simp [h.stores]
    cases turns with
    | zero => rfl
    | succ turns => rw [ArrayBlock.setselfLoop, if_neg stop]
  | cons a behind ih =>
    cases turns with
    | zero => simp at enough
    | succ turns =>
      -- `done` is free of what is still behind, so all copies of `a` are behind
      have new : a ∉ done := fun old => apart a old (List.mem_cons_self)
      have counted : (done ++ a :: behind).count a ≤ intMax := by
        rw [List.count_append, List.count_eq_zero_of_not_mem new, Nat.zero_add]
        exact small a List.mem_cons_self
      obtain ⟨array', turn, sound⟩ := h.setself_turn new counted turns
      have small' : ∀ b ∈ behind, behind.count b ≤ intMax := fun b member =>
        Nat.le_trans List.count_le_count_cons (small b (List.mem_cons_of_mem a member))
      have next := ih sound (apart_next apart) small' (Nat.le_of_succ_le_succ enough)
      rw [turn]
      by_cases again : a ∈ behind
      · rw [List.dedup_cons_of_mem again]
        simpa [again] using next
      · rw [List.dedup_cons_of_notMem again]
        simpa [again] using next

/-- The first element with more copies than an `int` counts stops the loop. -/
theorem Sound.setselfLoop_overflow {done behind : List α} (h : Sound array (done ++ behind))
    (apart : ∀ a ∈ done, a ∉ behind) {many : α} (large : intMax < behind.count many) {turns : Nat}
    (enough : behind.length ≤ turns) : ArrayBlock.setselfLoop turns done.length array = none := by
  induction behind generalizing done array turns with
  | nil => simp at large
  | cons a behind ih =>
    cases turns with
    | zero => simp at enough
    | succ turns =>
      have new : a ∉ done := fun old => apart a old (List.mem_cons_self)
      by_cases counted : (done ++ a :: behind).count a ≤ intMax
      · obtain ⟨array', turn, sound⟩ := h.setself_turn new counted turns
        -- the element with too many copies is still to come, as `a` could be counted
        have other : many ≠ a := by
          rintro rfl
          rw [List.count_append, List.count_eq_zero_of_not_mem new] at counted
          omega
        have large' : intMax < behind.count many := by
          rwa [List.count_cons_of_ne other.symm] at large
        rw [turn]
        exact ih sound (apart_next apart) large' (Nat.le_of_succ_le_succ enough)
      · have inside : done.length < array.len := by rw [h.stores]; simp
        rw [ArrayBlock.setselfLoop, if_pos inside, dynArrayAt, if_neg (Nat.not_le.mpr inside),
          Option.bind_some,
          load_next h.holds, Option.bind_some, h.count, if_neg counted, Option.bind_none]

theorem Sound.setself (h : Sound array l) (small : ∀ a ∈ l, l.count a ≤ intMax) :
    ∃ array', dynArraySetself array = some array' ∧ Sound array' l.dedup := by
  rw [dynArraySetself, h.stores]
  exact Sound.setselfLoop (show Sound array ([] ++ l) from h) (by simp) small (Nat.le_refl _)

theorem Sound.setself_overflow (h : Sound array l) {a : α} (large : intMax < l.count a) :
    dynArraySetself array = none := by
  rw [dynArraySetself, h.stores]
  exact Sound.setselfLoop_overflow (show Sound array ([] ++ l) from h) (by simp) large
    (Nat.le_refl _)

end Search

end ArrayBlock

end Soter2.Base
