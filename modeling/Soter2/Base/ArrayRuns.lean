import Mathlib.Algebra.Ring.Nat
import Mathlib.Tactic.Common
import Soter2.Base.ArrayBlock

/-! # Runs of calls on the growing array

Whether a call on the array does what it does on a list depends on the `int` counter of
`dyn_array_count` alone; the capacity that `dyn_array_resize` reserves is one doubling.
-/

namespace Soter2.Base.ArrayBlock

variable {α : Type*} {array array' : ArrayBlock α} {l : List α} {granted : Bool} {s : Nat}

/-! ## Elements larger than an object -/

/-- No block has room for a single element. -/
structure Oversized (array : ArrayBlock α) : Prop where
  large : ptrdiffMax < array.elementSize
  empty : array.elements = []
  none : array.len = 0

theorem Oversized.contents (h : Oversized array) : array.contents = [] := by
  rw [ArrayBlock.contents, h.none]
  rfl

theorem Oversized.reallocate (h : Oversized array) {capacity : Nat}
    (grown : reallocate granted array capacity = some array') : Oversized array' := by
  rw [ArrayBlock.reallocate] at grown
  split at grown
  next possible =>
    cases grown
    refine ⟨h.large, ?_, h.none⟩
    have small : array.request capacity / array.elementSize = 0 :=
      Nat.div_eq_of_lt (Nat.lt_of_le_of_lt possible.2 h.large)
    simp [small, Slots.resize]
  next => cases grown

theorem Oversized.makeRoom (h : Oversized array) {capacity : Nat}
    (room : makeRoom granted array capacity = some array') : Oversized array' := by
  rw [ArrayBlock.makeRoom] at room
  split at room
  next => exact h.reallocate room
  next =>
    cases room
    exact h

theorem Oversized.fill (h : Oversized array) {elements : List (Option α)}
    (written : Slots.fill array.elements l = some elements) :
    Oversized { array with elements, len := l.length } := by
  have length := Slots.length_fill written
  rw [h.empty, List.length_nil] at length
  have nothing := (Slots.fill_holds written).length_le
  rw [length] at nothing
  exact ⟨h.large, List.eq_nil_of_length_eq_zero length, Nat.le_zero.mp nothing⟩

/-- An element is written only behind the end of the block. -/
theorem Oversized.push (h : Oversized array) (element : α)
    (room : ¬ Stuck granted array array.len) :
    dynArrayPush granted array element = Option.none := by
  rw [dynArrayPush]
  split
  next refused =>
    rw [ArrayBlock.makeRoom] at refused
    split at refused
    next full => exact absurd ⟨full, reallocate_eq_none.mp refused⟩ room
    next => cases refused
  next array' grown =>
    have h' := h.makeRoom grown
    simp [Slots.store, h'.empty]

theorem Oversized.insert (h : Oversized array) {index : Nat} (element : α)
    (room : ¬ (index > array.len ∨ Stuck granted array array.len)) :
    dynArrayInsert granted array index (some element) = Option.none := by
  obtain ⟨inside, free⟩ := not_or.mp room
  have start : index = 0 := by
    have := h.none
    omega
  have bounded : array.len < sizeMax := by rw [h.none]; decide
  rw [dynArrayInsert, if_neg inside]
  simp only [makeRoom_insert bounded]
  split
  next refused =>
    rw [ArrayBlock.makeRoom] at refused
    split at refused
    next full => exact absurd ⟨full, reallocate_eq_none.mp refused⟩ free
    next => cases refused
  next array' grown =>
    have h' := h.makeRoom grown
    simp [Slots.store, h'.empty, h'.none, start]

section Calls

variable [DecidableEq α]

/-! ## What the calls do to the list -/

/-- The call has a result, which is that of the call on the list, and leaves the elements inside
    the block. -/
def Refines (array : ArrayBlock α) (call : Call α) : Prop :=
  ∃ reply array', perform array call = some (reply, array') ∧
    array'.contents.length = array'.len ∧ array'.len ≤ array'.elements.length ∧
    (reply, array'.contents) = listCall (array.Refuses call) array.contents call

/-- No counter overflows, and what is added is no larger than an object can be. -/
def Countable (array : ArrayBlock α) : Call α → Prop
  | .push element granted => array.elementSize ≤ ptrdiffMax ∨ array.Refuses (.push element granted)
  | .insert index element granted =>
    array.elementSize ≤ ptrdiffMax ∨ element = none ∨ index > array.len ∨
      array.Refuses (.insert index element granted)
  | .count element => array.contents.count element ≤ intMax
  | .setself => ∀ element ∈ array.contents, array.contents.count element ≤ intMax
  | _ => True

theorem listCall_resize (s : Nat) (l : List α) :
    listCall (array.Refuses (.resize s granted)) l (.resize s granted)
      = (.code (if s = sizeMax ∨ Stuck granted array s then -1 else 0), l) := rfl

theorem Sound.perform (h : Sound array l) {call : Call α} (countable : array.Countable call) :
    ∃ reply array' l', perform array call = some (reply, array') ∧ Sound array' l' ∧
      (reply, l') = listCall (array.Refuses call) l call := by
  have stores := h.stores
  cases call with
  | push element granted =>
    -- each call is refused in its own way, and does nothing then
    by_cases refused : Stuck granted array array.len
    · exact ⟨_, array, l, by rw [ArrayBlock.perform, push_stuck refused]; rfl, h,
        (if_pos refused).symm⟩
    · obtain ⟨array', pushed, sound, -⟩ := h.push element refused
      exact ⟨_, array', _, by rw [ArrayBlock.perform, pushed]; rfl, sound, (if_neg refused).symm⟩
  | insert index element granted =>
    cases element with
    | none => exact ⟨_, array, l, rfl, h, rfl⟩
    | some element =>
      by_cases refused : index > l.length ∨ Stuck granted array array.len
      · have same : dynArrayInsert granted array index (some element) = some (-1, array) :=
          insert_refused h.len_lt element (refused.imp_left fun behind => by omega)
        exact ⟨_, array, l, by rw [ArrayBlock.perform, same]; rfl, h, (if_pos refused).symm⟩
      · obtain ⟨inside, room⟩ := not_or.mp refused
        obtain ⟨array', inserted, sound⟩ := h.insert (Nat.le_of_not_lt inside) element room
        exact ⟨_, array', _, by rw [ArrayBlock.perform, inserted]; rfl, sound,
          (if_neg refused).symm⟩
  | remove index =>
    by_cases inside : index < l.length
    · obtain ⟨array', removed, sound⟩ := h.remove inside
      exact ⟨_, array', _, by rw [ArrayBlock.perform, removed]; rfl, sound, (if_pos inside).symm⟩
    · have outside : array.len ≤ index := by omega
      exact ⟨_, array, l, by rw [ArrayBlock.perform, dynArrayRemove, if_pos outside]; rfl, h,
        (if_neg inside).symm⟩
  | index element => exact ⟨_, array, l, by rw [ArrayBlock.perform, h.index]; rfl, h, rfl⟩
  | count element =>
    have small : l.count element ≤ intMax := h.contents ▸ countable
    exact ⟨_, array, l, by rw [ArrayBlock.perform, h.count, if_pos small]; rfl, h, rfl⟩
  | get index =>
    rw [ArrayBlock.perform, dynArrayAt]
    by_cases inside : index < l.length
    · rw [if_neg (by omega)]
      simp only [h.holds.load inside]
      exact ⟨_, array, l, rfl, h, by rw [listCall, List.getElem?_eq_getElem inside]⟩
    · rw [if_pos (by omega)]
      exact ⟨_, array, l, rfl, h, by rw [listCall, List.getElem?_eq_none (by omega)]⟩
  | setself =>
    have small : ∀ a ∈ l, l.count a ≤ intMax := h.contents ▸ countable
    obtain ⟨array', unique, sound⟩ := h.setself small
    exact ⟨_, array', _, by rw [ArrayBlock.perform, unique]; rfl, sound, rfl⟩
  | resize s granted =>
    obtain ⟨refused, same⟩ | ⟨possible, ⟨-, same⟩ | ⟨array', resized, grown⟩⟩ :=
      resize_cases granted array s
    · exact ⟨_, array, l, by rw [ArrayBlock.perform, same],
        h, by rw [listCall_resize, if_pos refused]⟩
    · exact ⟨_, array, l, by rw [ArrayBlock.perform, same],
        h, by rw [listCall_resize, if_neg possible]⟩
    · exact ⟨_, array', l, by rw [ArrayBlock.perform, resized],
        (h.reallocate grown).1, by rw [listCall_resize, if_neg possible]⟩
  | sort cmp =>
    obtain ⟨array', sorted, sound⟩ := h.sort cmp
    exact ⟨_, array', _, by rw [ArrayBlock.perform, sorted]; rfl, sound, rfl⟩

theorem Sound.perform_overflow (h : Sound array l) {call : Call α}
    (large : ¬ array.Countable call) : ArrayBlock.perform array call = none := by
  cases call with
  | push => exact absurd (.inl h.object) large
  | insert => exact absurd (.inl h.object) large
  | count element =>
    rw [Countable, h.contents] at large
    rw [ArrayBlock.perform, h.count, if_neg large, Option.map_none]
  | setself =>
    simp only [Countable, h.contents, not_forall] at large
    obtain ⟨a, -, many⟩ := large
    rw [ArrayBlock.perform, h.setself_overflow (Nat.lt_of_not_le many), Option.map_none]
  | _ => exact absurd trivial large

theorem Oversized.perform (h : Oversized array) {call : Call α} (countable : array.Countable call) :
    ∃ reply array', perform array call = some (reply, array') ∧ Oversized array' ∧
      (reply, []) = listCall (array.Refuses call) [] call := by
  -- elements too large for any array: nothing can be stored, so each call is one on an empty list
  have empty := h.none
  cases call with
  | push element granted =>
    have refused : Stuck granted array array.len := countable.resolve_left (Nat.not_le.mpr h.large)
    exact ⟨_, array, by rw [ArrayBlock.perform, push_stuck refused]; rfl, h, (if_pos refused).symm⟩
  | insert index element granted =>
    cases element with
    | none => exact ⟨_, array, rfl, h, rfl⟩
    | some element =>
      have refused : index > array.len ∨ Stuck granted array array.len :=
        (countable.resolve_left (Nat.not_le.mpr h.large)).resolve_left (by simp)
      have same : dynArrayInsert granted array index (some element) = some (-1, array) :=
        insert_refused (by rw [empty]; decide) element refused
      have refused' : index > ([] : List α).length ∨ Stuck granted array array.len :=
        refused.imp_left fun behind => by rwa [empty] at behind
      exact ⟨_, array, by rw [ArrayBlock.perform, same]; rfl, h, (if_pos refused').symm⟩
  | remove index => exact ⟨_, array, by simp [ArrayBlock.perform, dynArrayRemove, empty], h, rfl⟩
  | index element =>
    exact ⟨_, array, by simp [ArrayBlock.perform, dynArrayIndex, indexLoop, empty], h, rfl⟩
  | count element =>
    exact ⟨_, array, by simp [ArrayBlock.perform, dynArrayCount, countLoop, empty], h, rfl⟩
  | get index => exact ⟨_, array, by simp [ArrayBlock.perform, dynArrayAt, empty], h, rfl⟩
  | setself =>
    exact ⟨_, array, by simp [ArrayBlock.perform, dynArraySetself, setselfLoop, empty], h, rfl⟩
  | resize s granted =>
    obtain ⟨refused, same⟩ | ⟨possible, ⟨-, same⟩ | ⟨array', resized, grown⟩⟩ :=
      resize_cases granted array s
    · exact ⟨_, array, by rw [ArrayBlock.perform, same], h, by rw [listCall_resize, if_pos refused]⟩
    · exact ⟨_, array, by rw [ArrayBlock.perform, same],
        h, by rw [listCall_resize, if_neg possible]⟩
    · exact ⟨_, array', by rw [ArrayBlock.perform, resized],
        h.reallocate grown, by rw [listCall_resize, if_neg possible]⟩
  | sort cmp =>
    exact ⟨.done, array, by simp [ArrayBlock.perform, dynArraySort, empty],
      h, by rw [listCall, List.mergeSort_nil]⟩

theorem Oversized.perform_overflow (h : Oversized array) {call : Call α}
    (large : ¬ array.Countable call) : ArrayBlock.perform array call = Option.none := by
  cases call with
  | push element granted =>
    rw [ArrayBlock.perform, h.push element (not_or.mp large).2, Option.map_none]
  | insert index element granted =>
    obtain ⟨-, given, free⟩ := not_or.mp large |>.imp_right not_or.mp
    obtain ⟨element, rfl⟩ := Option.ne_none_iff_exists'.mp given
    rw [ArrayBlock.perform, h.insert element free, Option.map_none]
  | count element => simp [Countable, h.contents] at large
  | setself => simp [Countable, h.contents] at large
  | _ => exact absurd trivial large

/-! ## Runs -/

/-- The states of a run: the array holds a list, or is empty and has no room. -/
def Valid (array : ArrayBlock α) : Prop := (∃ l, Sound array l) ∨ Oversized array

omit [DecidableEq α] in
theorem valid_create {elementSize : Nat} (positive : 0 < elementSize) :
    Valid (dynArrayCreate elementSize : ArrayBlock α) := by
  by_cases object : elementSize ≤ ptrdiffMax
  · exact .inl ⟨[], sound_create positive object⟩
  · exact .inr ⟨Nat.lt_of_not_le object, rfl, rfl⟩

theorem Valid.perform_overflow (h : Valid array) {call : Call α} (large : ¬ array.Countable call) :
    ArrayBlock.perform array call = none := by
  obtain ⟨l, sound⟩ | oversized := h
  · exact sound.perform_overflow large
  · exact oversized.perform_overflow large

theorem Valid.refines_iff (h : Valid array) (call : Call α) :
    Refines array call ↔ array.Countable call := by
  by_cases countable : array.Countable call
  · refine iff_of_true ?_ countable
    obtain ⟨l, sound⟩ | large := h
    · obtain ⟨reply, array', l', done, sound', same⟩ := sound.perform countable
      refine ⟨reply, array', done, ?_, ?_, ?_⟩
      · rw [sound'.contents, sound'.stores]
      · rw [sound'.stores]
        exact sound'.holds.length_le
      · rw [sound.contents, sound'.contents, same]
    · obtain ⟨reply, array', done, large', same⟩ := large.perform countable
      refine ⟨reply, array', done, ?_, ?_, ?_⟩
      · rw [large'.contents, large'.none, List.length_nil]
      · rw [large'.none]
        exact Nat.zero_le _
      · rw [large.contents, large'.contents, same]
  · refine iff_of_false ?_ countable
    rintro ⟨reply, array', done, -⟩
    -- a count beyond `INT_MAX` has no result at all
    rw [h.perform_overflow countable] at done
    cases done

theorem Valid.step (h : Valid array) {call : Call α} (next : step array call = some array') :
    Valid array' := by
  obtain ⟨⟨reply, other⟩, done, rfl⟩ := Option.map_eq_some_iff.mp next
  by_cases countable : array.Countable call
  · obtain ⟨l, sound⟩ | large := h
    · obtain ⟨_, array', l', done', sound', -⟩ := sound.perform countable
      cases done.symm.trans done'
      exact .inl ⟨l', sound'⟩
    · obtain ⟨_, array', done', large', -⟩ := large.perform countable
      cases done.symm.trans done'
      exact .inr large'
  · rw [h.perform_overflow countable] at done
    cases done

/-- In every run of calls on a new array, the calls do to the array what they do to a list, exactly
    where each call meets the condition. -/
theorem dyn_array_refines_list_iff {elementSize : Nat} (positive : 0 < elementSize)
    (calls : List (Call α)) :
    (∀ before call array, before ++ [call] <+: calls →
        Transition.run step (dynArrayCreate elementSize) before = some array → Refines array call) ↔
      Transition.Meets step Countable (dynArrayCreate elementSize) calls :=
  Transition.steps_iff_meets (I := Valid) (fun _ _ _ h => h.step)
    (fun _ call h => h.refines_iff call)
    (valid_create positive)

theorem dyn_array_refines_list_iff_setself :
    (∀ before call array, before ++ [call] <+: [.push (7 : UInt8) true, .push 7 true, .setself] →
        Transition.run step (dynArrayCreate 1) before = some array → Refines array call) ↔
      Transition.Meets step Countable (dynArrayCreate 1)
        [.push (7 : UInt8) true, .push 7 true, .setself] :=
  dyn_array_refines_list_iff (by decide) _

/-- Copies of one element, as many as the block that `realloc` gives has room for. -/
theorem run_pushes (a : α) {n : Nat} (bound : n ≤ 2 ^ 32) :
    ∃ array, Transition.run step (dynArrayCreate 1) (List.replicate n (.push a true)) = some array ∧
      Sound array (List.replicate n a) ∧ array.elementSize = 1 ∧ array.head ≤ 2 * n + 1 := by
  induction n with
  | zero =>
    exact ⟨dynArrayCreate 1, rfl, sound_create (by decide) (by decide),
      rfl, by simp [dynArrayCreate]⟩
  | succ n ih =>
    obtain ⟨array, run, sound, one, head⟩ := ih (by omega)
    have limit : ptrdiffMax = 2 ^ 63 - 1 := rfl
    -- the array at most doubles, and stays far below what `realloc` refuses
    have room : ¬ Stuck true array array.len := by
      rintro ⟨-, refused⟩
      rw [sound.request, one] at refused
      exact refused ⟨rfl, by omega⟩
    have stores := sound.stores
    rw [List.length_replicate] at stores
    obtain ⟨array', pushed, sound', size, head'⟩ := sound.push a room
    refine ⟨array', ?_, by rwa [List.replicate_succ'], size.trans one, ?_⟩
    · rw [List.replicate_succ', Transition.run_append]
      exact ⟨array, run, Transition.run_cons.mpr
        ⟨array', by rw [step, ArrayBlock.perform, pushed]; rfl, rfl⟩⟩
    · rw [sound.spare, stores] at head'
      split at head' <;> omega

theorem count_overflow : ∃ array : ArrayBlock UInt8,
    Transition.run step (dynArrayCreate 1) (List.replicate (2 ^ 31) (.push 7 true)) = some array ∧
      perform array (.count 7) = none ∧ perform array .setself = none ∧
      ¬ Refines array (.count 7) ∧ ¬ Refines array .setself := by
  obtain ⟨array, run, sound, -⟩ := run_pushes (7 : UInt8) (n := 2 ^ 31) (by decide)
  have many : intMax < (List.replicate (2 ^ 31) (7 : UInt8)).count 7 := by
    rw [List.count_replicate_self]
    decide
  have counted : perform array (.count 7) = none := by
    rw [ArrayBlock.perform, sound.count, if_neg (Nat.not_le.mpr many), Option.map_none]
  have unique : perform array .setself = none := by
    rw [ArrayBlock.perform, sound.setself_overflow many, Option.map_none]
  refine ⟨array, run, counted, unique, ?_, ?_⟩
  · rintro ⟨reply, array', done, -⟩
    rw [counted] at done
    cases done
  · rintro ⟨reply, array', done, -⟩
    rw [unique] at done
    cases done

end Calls

/-! ## The reserved capacity -/

/-- Where it returns 0, `dyn_array_resize` has the slots and leaves the elements. -/
def Reserves (granted : Bool) (array : ArrayBlock α) (s : Nat) : Prop :=
  ∀ array', dynArrayResize granted array s = (0, array') → s ≤ array'.elements.length ∧
    array'.contents = array.contents

/-- The request is refused, or for no more than twice the capacity, with elements as large as an
    object can be. -/
def OneDoubling (granted : Bool) (array : ArrayBlock α) (s : Nat) : Prop :=
  s = sizeMax ∨ Stuck granted array s ∨ s = 0 ∨ array.elementSize ≤ ptrdiffMax ∧ s ≤ 2 * array.head

theorem oneDoubling_iff (granting : ¬ (s = sizeMax ∨ Stuck granted array s)) :
    OneDoubling granted array s ↔ s = 0 ∨ array.elementSize ≤ ptrdiffMax ∧ s ≤ 2 * array.head := by
  obtain ⟨large, free⟩ := not_or.mp granting
  rw [OneDoubling, or_iff_right large, or_iff_right free]

theorem reserves_of_refused (refused : s = sizeMax ∨ Stuck granted array s)
    (same : dynArrayResize granted array s = (-1, array)) :
    Reserves granted array s ↔ OneDoubling granted array s := by
  refine iff_of_true ?_ (refused.imp_right .inl)
  intro array' done
  rw [same] at done
  cases done

theorem reserves_iff_of_eq (resized : dynArrayResize granted array s = (0, array')) :
    Reserves granted array s ↔ s ≤ array'.elements.length ∧ array'.contents = array.contents := by
  constructor
  · exact fun reserves => reserves array' resized
  · intro h other done
    rw [resized] at done
    cases done
    exact h

theorem Sound.reserves_iff (h : Sound array l) (s : Nat) :
    Reserves granted array s ↔ OneDoubling granted array s := by
  obtain ⟨refused, same⟩ | ⟨possible, ⟨spare, same⟩ | ⟨block, resized, grown⟩⟩ :=
    resize_cases granted array s
  · exact reserves_of_refused refused same
  · rw [h.spare] at spare
    rw [reserves_iff_of_eq same, oneDoubling_iff possible]
    refine iff_of_true ⟨?_, rfl⟩ (.inr ⟨h.object, by omega⟩)
    obtain ⟨one, -⟩ | ⟨-, all⟩ := h.block <;> omega
  · obtain ⟨sound, slots, -⟩ := h.reallocate grown
    have object := h.object
    rw [reserves_iff_of_eq resized, oneDoubling_iff possible, sound.contents, h.contents,
      eq_self_iff_true, and_true]
    omega

theorem Oversized.reserves_iff (h : Oversized array) (s : Nat) :
    Reserves granted array s ↔ OneDoubling granted array s := by
  have object : ¬ array.elementSize ≤ ptrdiffMax := Nat.not_le.mpr h.large
  obtain ⟨refused, same⟩ | ⟨possible, ⟨-, same⟩ | ⟨block, resized, grown⟩⟩ :=
    resize_cases granted array s
  · exact reserves_of_refused refused same
  · rw [reserves_iff_of_eq same, oneDoubling_iff possible, h.empty, List.length_nil,
      eq_self_iff_true, and_true]
    omega
  · have h' := h.reallocate grown
    rw [reserves_iff_of_eq resized, oneDoubling_iff possible, h'.empty, h'.contents, h.contents,
      List.length_nil, eq_self_iff_true, and_true]
    omega

theorem Valid.reserves_iff (h : Valid array) (s : Nat) :
    Reserves granted array s ↔ OneDoubling granted array s :=
  h.elim (fun ⟨_, sound⟩ => sound.reserves_iff s) fun oversized => oversized.reserves_iff s

/-! ### A new array -/

theorem fromC_refused {elementSize : Nat} {source : List α}
    (refused : source.length = sizeMax ∨
      Stuck granted (dynArrayCreate elementSize : ArrayBlock α) source.length) :
    dynArrayFromC granted elementSize source = some none := by
  obtain ⟨-, same⟩ | ⟨possible, -⟩ :=
    resize_cases granted (dynArrayCreate elementSize : ArrayBlock α) source.length
  · simp [dynArrayFromC, same]
  · exact absurd refused possible

/-- The capacity is doubled once, whatever the length. -/
theorem fromC_granted {elementSize : Nat} {source : List α}
    (granting : ¬ (source.length = sizeMax ∨
      Stuck granted (dynArrayCreate elementSize : ArrayBlock α) source.length)) :
    ∃ block : ArrayBlock α, reallocate granted (dynArrayCreate elementSize) 2 = some block ∧
      dynArrayFromC granted elementSize source
        = (Slots.fill block.elements source).map fun elements =>
          some { block with elements, len := source.length } := by
  obtain ⟨refused, -⟩ | ⟨-, ⟨spare, -⟩ | ⟨block, resized, grown⟩⟩ :=
    resize_cases granted (dynArrayCreate elementSize : ArrayBlock α) source.length
  · exact absurd refused granting
  · exact absurd spare (Nat.not_lt_zero _)
  · exact ⟨block, grown, by simp [dynArrayFromC, resized]⟩

theorem oversized_create {elementSize : Nat} (large : ptrdiffMax < elementSize) :
    Oversized (dynArrayCreate elementSize : ArrayBlock α) := ⟨large, rfl, rfl⟩

theorem valid_fromC {elementSize : Nat} (positive : 0 < elementSize) {source : List α}
    (filled : dynArrayFromC granted elementSize source = some (some array)) : Valid array := by
  by_cases refused : source.length = sizeMax ∨
    Stuck granted (dynArrayCreate elementSize : ArrayBlock α) source.length
  · rw [fromC_refused refused] at filled
    cases filled
  obtain ⟨block, grown, eq⟩ := fromC_granted refused
  rw [eq] at filled
  obtain ⟨elements, written, eq⟩ := Option.map_eq_some_iff.mp filled
  cases eq
  by_cases object : elementSize ≤ ptrdiffMax
  · obtain ⟨sound, -⟩ := (sound_create positive object).reallocate grown
    exact .inl ⟨source, sound.update (Slots.fill_holds written) (Slots.length_fill written)⟩
  · exact .inr (((oversized_create (Nat.lt_of_not_le object)).reallocate grown).fill written)

section Calls

variable [DecidableEq α]

/-- The states of an array in use: created, or filled from a C array, and then gone through
    calls. -/
def Reachable (array : ArrayBlock α) : Prop :=
  ∃ elementSize start calls, 0 < elementSize ∧
    (start = dynArrayCreate elementSize ∨
      ∃ granted source, dynArrayFromC granted elementSize source = some (some start)) ∧
    Transition.run step start calls = some array

theorem Valid.run {start : ArrayBlock α} (h : Valid start) {calls : List (Call α)}
    (run : Transition.run ArrayBlock.step start calls = some array) : Valid array :=
  Transition.run_invariant (fun _ _ _ valid next => Valid.step valid next) h run

theorem Reachable.valid (h : Reachable array) : Valid array := by
  obtain ⟨elementSize, start, calls, positive, rfl | ⟨granted, source, filled⟩, run⟩ := h
  · exact (valid_create positive).run run
  · exact (valid_fromC positive filled).run run

/-! ### Adding to the copy of a C array -/

/-- The call adds an element. -/
def Call.Adds : Call α → Prop
  | .push _ _ | .insert _ _ _ => True
  | _ => False

/-- The copy is made inside its block, holds the elements of the source, and elements are added to
    it inside the block. -/
def Copies (granted : Bool) (elementSize : Nat) (source : List α) : Prop :=
  ∃ result, dynArrayFromC granted elementSize source = some result ∧
    ∀ array, result = some array → array.contents = source ∧ array.len = source.length ∧
      ∀ calls, (∀ call ∈ calls, call.Adds) → (Transition.run step array calls).isSome

theorem Sound.run_adds (h : Sound array l) {calls : List (Call α)}
    (adds : ∀ call ∈ calls, call.Adds) : (Transition.run step array calls).isSome := by
  induction calls generalizing array l with
  | nil => rfl
  | cons call calls ih =>
    obtain ⟨here, later⟩ := List.forall_mem_cons.mp adds
    have countable : array.Countable call := by
      cases call with
      | push => exact .inl h.object
      | insert => exact .inl h.object
      | _ => exact here.elim
    obtain ⟨reply, array', l', done, sound, -⟩ := h.perform countable
    have next : ArrayBlock.step array call = some array' := by rw [ArrayBlock.step, done]; rfl
    rw [Transition.run, next]
    exact ih sound later

theorem Copies.of_block {elementSize : Nat} {source : List α} {block : ArrayBlock α}
    (eq : dynArrayFromC granted elementSize source
      = (Slots.fill block.elements source).map fun elements =>
        some { block with elements, len := source.length })
    (copies : Copies granted elementSize source) :
    ∃ elements, Slots.fill block.elements source = some elements ∧
      ∀ call : Call α, call.Adds →
        (perform { block with elements, len := source.length } call).isSome := by
  obtain ⟨result, filled, good⟩ := copies
  rw [eq] at filled
  obtain ⟨elements, written, rfl⟩ := Option.map_eq_some_iff.mp filled
  refine ⟨elements, written, fun call adds => ?_⟩
  have run := (good _ rfl).2.2 [call] (by simpa using adds)
  rw [Transition.run] at run
  split at run
  next array' next =>
    obtain ⟨other, done, -⟩ := Option.map_eq_some_iff.mp next
    rw [done]
    rfl
  next => cases run

/-- Elements larger than an object leave no room for the first of them. -/
theorem Oversized.no_room (h : Oversized array) (two : array.head = 2) (element : α) :
    ArrayBlock.perform array (.push element true) = Option.none := by
  have free : ¬ Stuck true array array.len := by
    rintro ⟨full, -⟩
    rw [spare, two, h.none] at full
    exact absurd full (by decide)
  rw [ArrayBlock.perform, h.push element free, Option.map_none]

theorem copies_iff [Inhabited α] {elementSize : Nat} (positive : 0 < elementSize)
    (source : List α) :
    Copies granted elementSize source ↔
      (source.length = sizeMax ∨ Stuck granted (dynArrayCreate elementSize : ArrayBlock α)
        source.length) ∨
        elementSize ≤ ptrdiffMax ∧ source.length ≤ 2 := by
  by_cases refused : source.length = sizeMax ∨
    Stuck granted (dynArrayCreate elementSize : ArrayBlock α) source.length
  · exact iff_of_true ⟨none, fromC_refused refused, fun array bad => by cases bad⟩ (.inl refused)
  rw [or_iff_right refused]
  obtain ⟨block, grown, eq⟩ := fromC_granted refused
  by_cases object : elementSize ≤ ptrdiffMax
  · obtain ⟨sound, slots, -⟩ := (sound_create positive object).reallocate grown
    -- the created array has two slots, whatever the length of the source
    have two : block.elements.length = 2 := slots
    constructor
    · intro copies
      obtain ⟨elements, written, -⟩ := copies.of_block eq
      have bound := (Slots.fill_holds written).length_le
      rw [Slots.length_fill written, two] at bound
      exact ⟨object, bound⟩
    · rintro ⟨-, short⟩
      obtain ⟨elements, written⟩ : ∃ elements, Slots.fill block.elements source
        = some elements := by
        rw [← Option.ne_none_iff_exists', Ne, Slots.fill_eq_none]
        omega
      have copy := sound.update (Slots.fill_holds written) (Slots.length_fill written)
      refine ⟨_, by rw [eq, written]; rfl, ?_⟩
      intro array same
      cases same
      exact ⟨copy.contents, rfl, fun calls adds => copy.run_adds adds⟩
  · refine iff_of_false (fun copies => ?_) fun h => object h.1
    have oversized := (oversized_create (Nat.lt_of_not_le object)).reallocate grown
    -- a copy that is right could grow further, but this one cannot
    obtain ⟨elements, written, adds⟩ := copies.of_block eq
    have copy := oversized.fill written
    have head : block.head = 2 := by
      rw [ArrayBlock.reallocate] at grown
      split at grown
      next => cases grown; rfl
      next => cases grown
    have pushed := adds (.push default true) trivial
    rw [copy.no_room head] at pushed
    cases pushed

/-- `dyn_array_resize` reserves enough exactly where one doubling is enough, or the request is
    refused; so `dyn_array_from_c` copies at most two elements. -/
theorem reserved_capacity_sufficient_iff [Inhabited α] (granted : Bool) {array : ArrayBlock α}
    (reachable : Reachable array) (s : Nat) {elementSize : Nat} (positive : 0 < elementSize)
    (source : List α) :
    (Reserves granted array s ↔ OneDoubling granted array s) ∧
      (Copies granted elementSize source ↔
        (source.length = sizeMax ∨ Stuck granted (dynArrayCreate elementSize : ArrayBlock α)
          source.length) ∨
          elementSize ≤ ptrdiffMax ∧ source.length ≤ 2) :=
  ⟨reachable.valid.reserves_iff s, copies_iff positive source⟩

theorem reserved_capacity_sufficient_iff_new :
    (Reserves true (dynArrayCreate 1 : ArrayBlock UInt8) 2 ↔
      OneDoubling true (dynArrayCreate 1 : ArrayBlock UInt8) 2) ∧
      (Copies true 1 [(7 : UInt8), 8] ↔
        (2 = sizeMax ∨ Stuck true (dynArrayCreate 1 : ArrayBlock UInt8) 2) ∨ 1 ≤ ptrdiffMax ∧
          2 ≤ 2) :=
  reserved_capacity_sufficient_iff true ⟨1, _, [], by decide, .inl rfl, rfl⟩ 2 (by decide) [7, 8]

theorem resize_reserves_too_little :
    Reachable (dynArrayCreate 1 : ArrayBlock UInt8) ∧
      dynArrayResize true (dynArrayCreate 1 : ArrayBlock UInt8) 3 = (0, ⟨[none, none], 0, 2, 1⟩) ∧
      ¬ Reserves true (dynArrayCreate 1 : ArrayBlock UInt8) 3 ∧
      dynArrayFromC true 1 [(7 : UInt8), 8, 9] = none ∧ ¬ Copies true 1 [(7 : UInt8), 8, 9] := by
  have resized : dynArrayResize true (dynArrayCreate 1 : ArrayBlock UInt8) 3
      = (0, ⟨[none, none], 0, 2, 1⟩) := by decide
  have copied : dynArrayFromC true 1 [(7 : UInt8), 8, 9] = none := by decide
  refine ⟨⟨1, _, [], by decide, .inl rfl, rfl⟩, resized, ?_, copied, ?_⟩
  · intro reserves
    exact absurd (reserves _ resized).1 (by decide)
  · rintro ⟨result, done, -⟩
    rw [copied] at done
    cases done

end Calls

end Soter2.Base.ArrayBlock
