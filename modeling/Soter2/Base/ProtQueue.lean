import Mathlib.Data.List.Rotate
import Mathlib.Tactic.Common
import Soter2.Library.Machine

/-! # The ring queue (`base/src/base/prot_queue.c`)

`cells` are the elements of the underlying array, as many as its `len`, the unused ones
included: a fresh queue has 1024 cells of zero bytes, and a queue that grows takes its new
cells from `malloc` as they are, so the content of the new block is an input.

* `contents_protQueuePush`, `contents_of_protQueuePop` — first in, first out.
* `contents_protQueueUpush` — a push that keeps the elements distinct.
* `contents_append_spare` — the cells are the contents and the unused cells.
* `protQueue_refines_list` — every operation answers as a list does, in every order of calls.
-/

namespace Soter2.Base

structure ProtQueue (α : Type*) where
  cells : List α
  head : Nat
  tail : Nat
  count : Nat
  bounded : count ≤ cells.length
  head_lt : head < cells.length
  tail_eq : tail = (head + count) % cells.length

variable {α : Type*}

namespace ProtQueue

theorem room (q : ProtQueue α) : 0 < q.cells.length := Nat.lt_of_le_of_lt (Nat.zero_le _) q.head_lt

/-- The cell `(head + i) % len`. -/
def slot (q : ProtQueue α) (i : Nat) : α :=
  q.cells.get ⟨(q.head + i) % q.cells.length, Nat.mod_lt _ q.room⟩

/-- What the queue holds, oldest first. -/
def contents (q : ProtQueue α) : List α := (List.range q.count).map q.slot

/-- The cells that are not in use, from the tail on. -/
def spare (q : ProtQueue α) : List α :=
  (List.range (q.cells.length - q.count)).map fun i => q.slot (q.count + i)

theorem length_contents (q : ProtQueue α) : q.contents.length = q.count := by simp [contents]

theorem contents_append_spare (q : ProtQueue α) :
    q.contents ++ q.spare = q.cells.rotate q.head := by
  have whole : q.cells.length = q.count + (q.cells.length - q.count) := by
    have := q.bounded
    omega
  have slots : (List.range q.cells.length).map q.slot = q.cells.rotate q.head := by
    apply List.ext_getElem
    · simp
    · intro i h h'
      simp [slot, List.getElem_rotate, Nat.add_comm]
  rw [← slots, whole, List.range_add, List.map_append, List.map_map]
  rfl

end ProtQueue

open ProtQueue

def initialLen : Nat := 1024

def protQueueCreate (zero : α) : ProtQueue α where
  cells := List.replicate initialLen zero
  head := 0
  tail := 0
  count := 0
  bounded := Nat.zero_le _
  head_lt := by rw [List.length_replicate]; decide
  tail_eq := (Nat.zero_mod _).symm

/-- `_prot_queue_grow_unsafe`: a block of twice the size, with the elements in front of
    whatever else `malloc` left in it. -/
def protQueueGrow (malloc : Nat → α) (q : ProtQueue α) : ProtQueue α :=
  have length : (q.contents ++ (List.range (2 * q.cells.length - q.count)).map malloc).length
      = 2 * q.cells.length := by
    have := q.bounded
    simp [length_contents]
    omega
  { cells := q.contents ++ (List.range (2 * q.cells.length - q.count)).map malloc
    head := 0
    tail := q.count
    count := q.count
    bounded := by have := q.bounded; omega
    head_lt := by have := q.room; omega
    tail_eq := by
      have := q.bounded
      have := q.room
      rw [Nat.zero_add, length, Nat.mod_eq_of_lt (by omega)] }

/-- The queue with at least one unused cell. -/
def makeRoom (malloc : Nat → α) (q : ProtQueue α) : ProtQueue α :=
  if q.count = q.cells.length then protQueueGrow malloc q else q

theorem makeRoom_lt (malloc : Nat → α) (q : ProtQueue α) :
    (makeRoom malloc q).count < (makeRoom malloc q).cells.length := by
  have := q.bounded
  have := q.room
  rw [makeRoom]
  split
  · simp [protQueueGrow, length_contents]
    omega
  · omega

/-- `_prot_queue_push_unsafe`. -/
def protQueuePushUnsafe (malloc : Nat → α) (q : ProtQueue α) (elem : α) : ProtQueue α :=
  let r := makeRoom malloc q
  { cells := r.cells.set r.tail elem
    head := r.head
    tail := (r.tail + 1) % r.cells.length
    count := r.count + 1
    bounded := by rw [List.length_set]; exact makeRoom_lt malloc q
    head_lt := by rw [List.length_set]; exact r.head_lt
    tail_eq := by rw [List.length_set, r.tail_eq, Nat.mod_add_mod, Nat.add_assoc] }

/-- `prot_queue_push`, which takes the same steps under the lock of the array. -/
def protQueuePush (malloc : Nat → α) (q : ProtQueue α) (element : α) : ProtQueue α :=
  protQueuePushUnsafe malloc q element

/-- `prot_queue_pop`: `none` where it returns -1. -/
def protQueuePop (q : ProtQueue α) : Option (α × ProtQueue α) :=
  if empty : q.count = 0 then none
  else some (q.slot 0, {
    cells := q.cells
    head := (q.head + 1) % q.cells.length
    tail := q.tail
    count := q.count - 1
    bounded := (Nat.sub_le _ _).trans q.bounded
    head_lt := Nat.mod_lt _ q.room
    tail_eq := by rw [q.tail_eq, Nat.mod_add_mod]; congr 1; omega })

/-- `prot_queue_upush`: nothing is done for an element that equals a stored one. -/
def protQueueUpush [DecidableEq α] (malloc : Nat → α) (q : ProtQueue α) (element : α) :
    ProtQueue α :=
  if (List.range q.count).any fun i => element = q.slot i then q
  else protQueuePushUnsafe malloc q element

/-- `_prot_queue_pop_unsafe`, the same steps without the lock. -/
def protQueuePopUnsafe (q : ProtQueue α) : Option (α × ProtQueue α) := protQueuePop q

/-- `prot_queue_peek`: `none` where it returns -1. -/
def protQueuePeek (q : ProtQueue α) : Option α := if q.count = 0 then none else some (q.slot 0)

def protQueueLen (q : ProtQueue α) : Nat := q.count

/-! ## The contents -/

@[simp] theorem contents_protQueueCreate (zero : α) : (protQueueCreate zero).contents = [] := rfl

theorem contents_protQueueGrow (malloc : Nat → α) (q : ProtQueue α) :
    (protQueueGrow malloc q).contents = q.contents := by
  have cells := contents_append_spare (protQueueGrow malloc q)
  rw [show (protQueueGrow malloc q).head = 0 from rfl, List.rotate_zero] at cells
  refine (List.append_inj cells ?_).1
  rw [length_contents, length_contents]
  rfl

theorem contents_makeRoom (malloc : Nat → α) (q : ProtQueue α) :
    (makeRoom malloc q).contents = q.contents := by
  rw [makeRoom]
  split
  · exact contents_protQueueGrow malloc q
  · rfl

/-- Two offsets less than a turn apart are different cells. -/
theorem offset_ne (head : Nat) {i j len : Nat} (before : i < j) (turn : j < len) :
    (head + i) % len ≠ (head + j) % len := by
  intro same
  have divides := Nat.dvd_of_mod_eq_zero (Nat.sub_mod_eq_zero_of_mod_eq same.symm)
  have := Nat.le_of_dvd (by omega) divides
  omega

theorem contents_protQueuePushUnsafe (malloc : Nat → α) (q : ProtQueue α) (elem : α) :
    (protQueuePushUnsafe malloc q elem).contents = q.contents ++ [elem] := by
  have free := makeRoom_lt malloc q
  have length : (protQueuePushUnsafe malloc q elem).cells.length
      = (makeRoom malloc q).cells.length :=
    List.length_set
  have written : (protQueuePushUnsafe malloc q elem).slot (makeRoom malloc q).count = elem := by
    simp [slot, protQueuePushUnsafe, (makeRoom malloc q).tail_eq]
  have kept : ∀ i < (makeRoom malloc q).count,
      (protQueuePushUnsafe malloc q elem).slot i = (makeRoom malloc q).slot i := by
    intro i inside
    have apart := offset_ne (makeRoom malloc q).head inside free
    simp [slot, protQueuePushUnsafe, (makeRoom malloc q).tail_eq, apart.symm]
  rw [← contents_makeRoom malloc q, contents,
    show (protQueuePushUnsafe malloc q elem).count = (makeRoom malloc q).count + 1 from rfl,
    List.range_succ, List.map_append, List.map_singleton, written]
  congr 1
  exact List.map_congr_left fun i member => kept i (List.mem_range.mp member)

theorem contents_protQueuePush (malloc : Nat → α) (q : ProtQueue α) (element : α) :
    (protQueuePush malloc q element).contents = q.contents ++ [element] :=
  contents_protQueuePushUnsafe malloc q element

theorem protQueuePop_eq_none {q : ProtQueue α} : protQueuePop q = none ↔ q.contents = [] := by
  rw [← List.length_eq_zero_iff, length_contents]
  simp [protQueuePop]

theorem contents_of_protQueuePop {q q' : ProtQueue α} {elem : α}
    (h : protQueuePop q = some (elem, q')) : q.contents = elem :: q'.contents := by
  simp only [protQueuePop, Option.dite_none_left_eq_some, Option.some.injEq, Prod.mk.injEq] at h
  obtain ⟨filled, rfl, rfl⟩ := h
  obtain ⟨n, count⟩ := Nat.exists_eq_succ_of_ne_zero filled
  simp only [contents, count, Nat.succ_eq_add_one, Nat.add_sub_cancel, List.range_succ_eq_map,
    List.map_cons, List.map_map, List.cons.injEq, true_and]
  refine List.map_congr_left fun i _ => ?_
  have same : q.head + (i + 1) = q.head + 1 + i := by omega
  simp only [Function.comp, slot, Nat.mod_add_mod, Nat.succ_eq_add_one, same]

theorem contents_protQueueUpush [DecidableEq α] (malloc : Nat → α) (q : ProtQueue α) (element : α) :
    (protQueueUpush malloc q element).contents
      = if element ∈ q.contents then q.contents else q.contents ++ [element] := by
  have stored : ((List.range q.count).any fun i => element = q.slot i) = true ↔
      element ∈ q.contents := by
    simp only [contents, List.any_eq_true, decide_eq_true_eq, List.mem_map, @eq_comm α element]
  rw [protQueueUpush]
  by_cases h : element ∈ q.contents
  · rw [if_pos (stored.mpr h), if_pos h]
  · rw [if_neg (mt stored.mp h), if_neg h, contents_protQueuePushUnsafe]

theorem mem_protQueueUpush [DecidableEq α] {malloc : Nat → α} {q : ProtQueue α} {element e : α} :
    e ∈ (protQueueUpush malloc q element).contents ↔ e ∈ q.contents ∨ e = element := by
  rw [contents_protQueueUpush]
  split
  next stored =>
    constructor
    · exact Or.inl
    · rintro (old | rfl)
      · exact old
      · exact stored
  next => simp

theorem slot_mem (q : ProtQueue α) (i : Nat) : q.slot i ∈ q.cells := List.get_mem _ _

/-- A cell that a push leaves was there before, or is the element, or came with a growth. -/
theorem mem_cells_protQueuePushUnsafe {malloc : Nat → α} {q : ProtQueue α} {elem e : α}
    (member : e ∈ (protQueuePushUnsafe malloc q elem).cells) :
    e ∈ q.cells ∨ e = elem ∨ ∃ i, e = malloc i := by
  obtain old | rfl := List.mem_or_eq_of_mem_set member
  swap
  · exact .inr (.inl rfl)
  rw [makeRoom] at old
  split at old
  swap
  · exact .inl old
  obtain kept | fresh := List.mem_append.mp old
  · obtain ⟨i, -, rfl⟩ := List.mem_map.mp kept
    exact .inl (slot_mem q i)
  · obtain ⟨i, -, rfl⟩ := List.mem_map.mp fresh
    exact .inr (.inr ⟨i, rfl⟩)

theorem mem_cells_protQueueUpush [DecidableEq α] {malloc : Nat → α} {q : ProtQueue α}
    {element e : α} (member : e ∈ (protQueueUpush malloc q element).cells) :
    e ∈ q.cells ∨ e = element ∨ ∃ i, e = malloc i := by
  rw [protQueueUpush] at member
  split at member
  · exact .inl member
  · exact mem_cells_protQueuePushUnsafe member

theorem spare_protQueuePushUnsafe (malloc : Nat → α) {q : ProtQueue α} (elem : α)
    (free : q.count < q.cells.length) :
    (protQueuePushUnsafe malloc q elem).spare = q.spare.tail := by
  have same : makeRoom malloc q = q := if_neg (by omega)
  have length : (protQueuePushUnsafe malloc q elem).cells.length = q.cells.length := by
    simp [protQueuePushUnsafe, same]
  have count : (protQueuePushUnsafe malloc q elem).count = q.count + 1 := by
    simp [protQueuePushUnsafe, same]
  have kept : ∀ i < q.cells.length - (q.count + 1),
      (protQueuePushUnsafe malloc q elem).slot (q.count + 1 + i) = q.slot (q.count + (i + 1)) := by
    intro i inside
    rw [Nat.add_assoc, Nat.add_comm 1 i]
    have before : q.count < q.count + (i + 1) := by omega
    have turn : q.count + (i + 1) < q.cells.length := by omega
    simp [slot, protQueuePushUnsafe, same, q.tail_eq, offset_ne q.head before turn]
  have cells : q.cells.length - q.count = q.cells.length - (q.count + 1) + 1 := by omega
  rw [spare, spare, length, count, cells, List.range_succ_eq_map, List.map_cons, List.tail_cons,
    List.map_map]
  exact List.map_congr_left fun i member => kept i (List.mem_range.mp member)

/-- A push without growth takes at most one of the unused cells. -/
theorem protQueueUpush_of_free [DecidableEq α] (malloc : Nat → α) {q : ProtQueue α} (element : α)
    (free : q.count < q.cells.length) :
    (protQueueUpush malloc q element).cells.length = q.cells.length ∧
      (protQueueUpush malloc q element).count ≤ q.count + 1 ∧
        (protQueueUpush malloc q element).spare ⊆ q.spare := by
  have same : makeRoom malloc q = q := if_neg (by omega)
  rw [protQueueUpush]
  split
  · exact ⟨rfl, Nat.le_succ _, List.Subset.refl _⟩
  · refine ⟨by simp [protQueuePushUnsafe, same], by simp [protQueuePushUnsafe, same], ?_⟩
    rw [spare_protQueuePushUnsafe malloc element free]
    exact List.tail_subset _

theorem protQueuePeek_eq (q : ProtQueue α) : protQueuePeek q = q.contents.head? := by
  rw [protQueuePeek]
  split
  next empty => simp [contents, empty]
  next filled =>
    obtain ⟨n, count⟩ := Nat.exists_eq_succ_of_ne_zero filled
    simp [contents, count, List.range_succ_eq_map]

/-! ## The queue as a list

The calls on a queue, each with the content of the block that `malloc` would return if the
queue had to grow.  An element is its bytes: `α` has the equality that `memcmp` decides. -/

inductive QueueCall (α : Type*) where
  | push (malloc : Nat → α) (element : α)
  | pushUnsafe (malloc : Nat → α) (elem : α)
  | upush (malloc : Nat → α) (element : α)
  /-- With an address for the element, or with `NULL`. -/
  | pop (wanted : Bool)
  | popUnsafe (wanted : Bool)
  | peek
  | len

/-- What a call returns, and what it writes for its caller. -/
inductive QueueAnswer (α : Type*) where
  | code (r : Int)
  | element (r : Int) (elem : Option α)
  | size (n : Nat)
deriving DecidableEq

/-- The answer of a pop, and the state behind it. -/
def popAnswer {σ : Type*} (wanted : Bool) (s : σ) : Option (α × σ) → QueueAnswer α × σ
  | none => (.element (-1) none, s)
  | some (elem, s') => (.element 0 (if wanted then some elem else none), s')

def peekAnswer : Option α → QueueAnswer α
  | none => .element (-1) none
  | some elem => .element 0 (some elem)

def queueStep [DecidableEq α] (q : ProtQueue α) : QueueCall α → QueueAnswer α × ProtQueue α
  | .push malloc element => (.code 0, protQueuePush malloc q element)
  | .pushUnsafe malloc elem => (.code 0, protQueuePushUnsafe malloc q elem)
  | .upush malloc element => (.code 0, protQueueUpush malloc q element)
  | .pop wanted => popAnswer wanted q (protQueuePop q)
  | .popUnsafe wanted => popAnswer wanted q (protQueuePopUnsafe q)
  | .peek => (peekAnswer (protQueuePeek q), q)
  | .len => (.size (protQueueLen q), q)

/-- The oldest element and the others. -/
def uncons : List α → Option (α × List α)
  | [] => none
  | elem :: rest => some (elem, rest)

/-- The same calls on a list: what is pushed goes to its end, what is popped comes from its
    front, and `upush` adds only what is not there. -/
def listStep [DecidableEq α] (l : List α) : QueueCall α → QueueAnswer α × List α
  | .push _ element => (.code 0, l ++ [element])
  | .pushUnsafe _ elem => (.code 0, l ++ [elem])
  | .upush _ element => (.code 0, if element ∈ l then l else l ++ [element])
  | .pop wanted => popAnswer wanted l (uncons l)
  | .popUnsafe wanted => popAnswer wanted l (uncons l)
  | .peek => (peekAnswer l.head?, l)
  | .len => (.size l.length, l)

theorem uncons_contents (q : ProtQueue α) :
    uncons q.contents = (protQueuePop q).map fun popped => (popped.1, popped.2.contents) := by
  cases popped : protQueuePop q with
  | none => rw [protQueuePop_eq_none.mp popped]; rfl
  | some r => rw [contents_of_protQueuePop popped]; rfl

theorem popAnswer_contents (wanted : Bool) (q : ProtQueue α) :
    popAnswer wanted q.contents (uncons q.contents) =
      ((popAnswer wanted q (protQueuePop q)).1,
        (popAnswer wanted q (protQueuePop q)).2.contents) := by
  rw [uncons_contents]
  cases protQueuePop q with
  | none => rfl
  | some r => rfl

/-- One call on the queue is the same call on its contents. -/
theorem queueStep_commutes [DecidableEq α] (q : ProtQueue α) (call : QueueCall α) :
    listStep q.contents call = ((queueStep q call).1, (queueStep q call).2.contents) := by
  cases call with
  | push malloc element => simp only [listStep, queueStep, contents_protQueuePush]
  | pushUnsafe malloc elem => simp only [listStep, queueStep, contents_protQueuePushUnsafe]
  | upush malloc element => simp only [listStep, queueStep, contents_protQueueUpush]
  | pop wanted => exact popAnswer_contents wanted q
  | popUnsafe wanted => exact popAnswer_contents wanted q
  | peek => simp only [listStep, queueStep, protQueuePeek_eq]
  | len => simp only [listStep, queueStep, protQueueLen, length_contents]

/-- Whatever calls are made on a new queue, they are answered as by a list, and the indices
    stay within the cells. -/
theorem protQueue_refines_list [DecidableEq α] (zero : α) (calls : List (QueueCall α)) :
    let answers := (Machine.run queueStep (protQueueCreate zero) calls).1
    let q := (Machine.run queueStep (protQueueCreate zero) calls).2
    Machine.run listStep [] calls = (answers, q.contents) ∧ q.head < q.cells.length ∧
      q.count ≤ q.cells.length ∧
      q.tail = (q.head + q.count) % q.cells.length := by
  intro answers q
  refine ⟨?_, q.head_lt, q.bounded, q.tail_eq⟩
  exact Machine.run_refines contents queueStep_commutes (protQueueCreate zero) calls

end Soter2.Base
