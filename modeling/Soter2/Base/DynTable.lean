import Mathlib.Algebra.Ring.Nat
import Mathlib.Data.List.Nodup
import Mathlib.Tactic.Common
import Soter2.Base.ArrayBlock
import Soter2.Library.AssocTable
import Soter2.Library.Heap

/-! # The table (`base/src/base/dyn_table.c`)

A table with `DYN_OWN_BOTH`: an array of pairs of pointers, to a block with the key and a block
with the value, which the table takes from the heap and gives back.  A call has no result where it
accesses a slot or a block that is not there.

* `Linked` — each pair of the array with the key and the value that its blocks hold.
* `dyn_table_refines_map` — the table after a run of calls is a finite map.
-/

namespace Soter2.Base

/-- What a `void *` of the caller points to. -/
@[ext] structure Object (size : Nat) where
  bytes : List UInt8
  sized : bytes.length = size
  deriving DecidableEq

structure DynPair where
  first : Nat
  second : Nat
  deriving DecidableEq

structure DynTable (keySize valSize : Nat) where
  array : ArrayBlock DynPair
  heap : Heap (List UInt8)

namespace DynTable

open ArrayBlock (dynArrayAt dynArrayRemove)

variable {keySize valSize : Nat}

/-- `sizeof(dyn_pair)`. -/
def pairSize : Nat := 16

def dynTableCreate (keySize valSize : Nat) : DynTable keySize valSize :=
  ⟨ArrayBlock.dynArrayCreate pairSize, Heap.empty⟩

/-- The pair in a slot, if there is one. -/
def pairAt (table : DynTable keySize valSize) (i : Nat) : Option DynPair :=
  (dynArrayAt table.array i).bind (Slots.load table.array.elements)

/-- The loop of `_dyn_table_find_idx`, with the pairs from `i` on still to compare. -/
def findLoop (table : DynTable keySize valSize) (key : Object keySize) : Nat → Nat → Option Nat
  | 0, _ => some sizeMax
  | rest + 1, i =>
    (table.pairAt i).bind fun pair =>
      (table.heap.cells pair.first).bind fun block =>
        if block.take keySize = key.bytes then some i else findLoop table key rest (i + 1)

def dynTableFindIdx (table : DynTable keySize valSize) (key : Object keySize) : Option Nat :=
  findLoop table key table.array.len 0

/-- `malloc`, and the copy of an object into the block; it may be refused. -/
def mallocCopy (granted : Bool) (heap : Heap (List UInt8)) (bytes : List UInt8) :
    Option Nat × Heap (List UInt8) :=
  if granted then (some heap.next, heap.alloc bytes) else (none, heap)

/-- Which of the three requests of `dyn_table_set` are granted. -/
structure Grants where
  key : Bool
  value : Bool
  array : Bool

def dynTableSet (grants : Grants) (table : DynTable keySize valSize) (key : Object keySize)
    (val : Object valSize) : Option (Int × DynTable keySize valSize) :=
  (dynTableFindIdx table key).bind fun idx =>
    if idx ≠ sizeMax then
      (table.pairAt idx).bind fun pair =>
        (table.heap.write pair.second fun block => val.bytes ++ block.drop valSize).map fun heap =>
          (0, { table with heap })
    else
      let first := mallocCopy grants.key table.heap key.bytes
      let second := mallocCopy grants.value first.2 val.bytes
      match first.1, second.1 with
      | some a, some b =>
        (ArrayBlock.dynArrayPush grants.array table.array ⟨a, b⟩).map fun pushed =>
          (pushed.1, ⟨pushed.2, second.2⟩)
      | some a, none => (second.2.free a).map fun heap => (-1, { table with heap })
      | none, some b => (second.2.free b).map fun heap => (-1, { table with heap })
      | none, none => some (-1, table)

def dynTableRemove (table : DynTable keySize valSize) (key : Object keySize) :
    Option (Int × DynTable keySize valSize) :=
  (dynTableFindIdx table key).bind fun idx =>
    if idx = sizeMax then some (-1, table)
    else
      (table.pairAt idx).bind fun pair =>
        (table.heap.free pair.first).bind fun heap =>
          (heap.free pair.second).bind fun heap =>
            (dynArrayRemove table.array idx).map fun removed => (removed.1, ⟨removed.2, heap⟩)

/-- `dyn_table_get`: the inner `none` is a null pointer. -/
def dynTableGet (table : DynTable keySize valSize) (key : Object keySize) : Option (Option Nat) :=
  (dynTableFindIdx table key).bind fun idx =>
    if idx = sizeMax then some none else (table.pairAt idx).map fun pair => some pair.second

/-- `dyn_table_iterate`: the slot of the pair and the next index, or a null pointer. -/
def dynTableIterate (table : DynTable keySize valSize) (inx : Nat) : Option (Nat × Nat) :=
  if inx ≥ table.array.len then none
  else (dynArrayAt table.array inx).map fun slot => (slot, inx + 1)

/-! ## Reading through the pointers -/

/-- What a caller reads through the pointer that `dyn_table_get` returns. -/
def value (table : DynTable keySize valSize) (key : Object keySize) :
    Option (Option (List UInt8)) :=
  (dynTableGet table key).bind fun pointer =>
    match pointer with
    | none => some none
    | some a => (table.heap.cells a).map some

/-- The keys that a caller of `dyn_table_iterate` sees, from an index on until it gets a null
    pointer. -/
def walk (table : DynTable keySize valSize) : Nat → Nat → Option (List (List UInt8))
  | 0, _ => some []
  | turns + 1, inx =>
    match dynTableIterate table inx with
    | none => some []
    | some (slot, next) =>
      (Slots.load table.array.elements slot).bind fun pair =>
        (table.heap.cells pair.first).bind fun key => (walk table turns next).map (key :: ·)

/-! ## Calls -/

inductive Call (keySize valSize : Nat) where
  | set (key : Object keySize) (val : Object valSize)
  | get (key : Object keySize)
  | remove (key : Object keySize)
  | iterate (inx : Nat)

/-- A call whose allocations succeed. -/
def step (table : DynTable keySize valSize) :
    Call keySize valSize → Option (DynTable keySize valSize)
  | .set key val =>
    (dynTableSet ⟨true, true, true⟩ table key val).bind fun done => if done.1 = 0 then some done.2
      else none
  | .get key => (table.value key).map fun _ => table
  | .remove key => (dynTableRemove table key).map Prod.snd
  | .iterate _ => some table

/-! ## The pairs and what they point to -/

/-- A pair of the array, with the key and the value in its blocks. -/
abbrev Link (keySize valSize : Nat) := DynPair × Object keySize × Object valSize

def Link.addresses (link : Link keySize valSize) : List Nat := [link.1.first, link.1.second]

def Link.Live (heap : Heap (List UInt8)) (link : Link keySize valSize) : Prop :=
  heap.cells link.1.first = some link.2.1.bytes ∧ heap.cells link.1.second = some link.2.2.bytes

structure Linked (table : DynTable keySize valSize) (links : List (Link keySize valSize)) :
    Prop where
  array : ArrayBlock.Sound table.array (links.map Prod.fst)
  live : ∀ link ∈ links, link.Live table.heap
  apart : (links.flatMap Link.addresses).Nodup
  unique : ((links.map Prod.snd).map Prod.fst).Nodup

variable {table table' : DynTable keySize valSize}
    {links before after : List (Link keySize valSize)}
  {link : Link keySize valSize} {key : Object keySize} {val : Object valSize}

/-- The finite map that the table is. -/
def Linked.map (h : Linked table links) : AssocTable (Object keySize) (Object valSize) :=
  ⟨links.map Prod.snd, h.unique⟩

theorem linked_create : Linked (dynTableCreate keySize valSize) [] where
  array := ArrayBlock.sound_create (by decide) (by decide)
  live := by simp
  apart := List.nodup_nil
  unique := List.nodup_nil

theorem Linked.pairAt (h : Linked table (before ++ link :: after)) :
    table.pairAt before.length = some link.1 := by
  have inside : before.length < table.array.len := by simp [h.array.stores]
  have holds := h.array.holds
  rw [List.map_append, List.map_cons] at holds
  have load := ArrayBlock.load_next holds
  rw [List.length_map] at load
  rw [DynTable.pairAt, dynArrayAt, if_neg (Nat.not_le.mpr inside), Option.bind_some, load]

theorem take_block (key : Object keySize) : key.bytes.take keySize = key.bytes :=
  List.take_of_length_le (Nat.le_of_eq key.sized)

/-- The search goes over the links that are left. -/
theorem Linked.findLoop (key : Object keySize) (h : Linked table (before ++ after)) :
    DynTable.findLoop table key after.length before.length
      = some ((((after.map Prod.snd).findIdx? fun e => e.1 = key).map (before.length + ·)).getD
        sizeMax) := by
  induction after generalizing before with
  | nil => rfl
  | cons link after ih =>
    have block := (h.live link (by simp)).1
    rw [List.length_cons, DynTable.findLoop, h.pairAt, Option.bind_some, block, Option.bind_some,
      take_block, List.map_cons, List.findIdx?_cons]
    by_cases same : link.2.1 = key
    · simp [same]
    · have other : ¬ link.2.1.bytes = key.bytes := fun equal => same (Object.ext equal)
      have passed : Linked table (before ++ [link] ++ after) := by simpa using h
      have next := ih passed
      rw [List.length_append, List.length_singleton] at next
      rw [if_neg other, next]
      cases List.findIdx? (fun e => decide (e.1 = key)) (after.map Prod.snd) <;>
        simp [same, Nat.add_assoc, Nat.add_comm 1]

theorem Linked.findIdx (h : Linked table links) (key : Object keySize) :
    dynTableFindIdx table key = some ((h.map.find key).getD sizeMax) := by
  have loop := Linked.findLoop key (show Linked table ([] ++ links) from h)
  rw [dynTableFindIdx, h.array.stores, List.length_map]
  simpa [AssocTable.find, Linked.map] using loop

/-- The two results of the search: the key is in a link, or in none. -/
theorem Linked.find_cases (h : Linked table links) (key : Object keySize) :
    (dynTableFindIdx table key = some sizeMax ∧ h.map.find key = none) ∨
      ∃ before link after, links = before ++ link :: after ∧ link.2.1 = key ∧
        dynTableFindIdx table key = some before.length ∧ before.length ≠ sizeMax ∧
        h.map.find key = some before.length := by
  have search := h.findIdx key
  cases found : h.map.find key with
  | none => exact .inl ⟨by rw [search, found]; rfl, rfl⟩
  | some i =>
    obtain ⟨value, slot⟩ := AssocTable.find_slot found
    obtain ⟨link, at_, same⟩ : ∃ link, links[i]? = some link ∧ link.2 = (key, value) := by
      simpa [Linked.map] using slot
    obtain ⟨inside, here⟩ := List.getElem?_eq_some_iff.mp at_
    -- no index is `SIZE_MAX`, which the search returns for a key that is not there
    have bound := h.array.len_lt
    rw [h.array.stores, List.length_map] at bound
    refine .inr ⟨links.take i, link, links.drop (i + 1), ?_, by rw [same], ?_, ?_, ?_⟩
    · rw [← here, ← List.drop_eq_getElem_cons inside, List.take_append_drop]
    all_goals rw [List.length_take_of_le (Nat.le_of_lt inside)]
    · rw [search, found]
      rfl
    · omega

theorem flatMap_addresses (links : List (Link keySize valSize)) :
    links.flatMap Link.addresses = (links.map Prod.fst).flatMap fun pair =>
      [pair.first, pair.second] := by
  rw [List.flatMap_map]
  rfl

/-- The blocks of a link are two, and no other link has one of them. -/
theorem Linked.elsewhere (h : Linked table (before ++ link :: after)) :
    link.1.first ≠ link.1.second ∧
      ∀ other ∈ before ++ after, ∀ a ∈ other.addresses, a ≠ link.1.first ∧ a ≠ link.1.second := by
  have first : ((link :: (before ++ after)).flatMap Link.addresses).Nodup :=
    (List.perm_middle.flatMap_right Link.addresses).nodup_iff.mp h.apart
  rw [List.flatMap_cons, List.nodup_append] at first
  obtain ⟨two, -, apart⟩ := first
  refine ⟨by simpa [Link.addresses] using two, fun other member a address => ?_⟩
  have there : a ∈ (before ++ after).flatMap Link.addresses :=
    List.mem_flatMap.mpr ⟨other, member, address⟩
  exact ⟨(apart _ (by simp [Link.addresses]) a there).symm,
    (apart _ (by simp [Link.addresses]) a there).symm⟩

theorem Link.Live.lt_next {heap : Heap (List UInt8)} (h : link.Live heap) :
    ∀ a ∈ link.addresses, a < heap.next := by
  intro a address
  obtain rfl | rfl : a = link.1.first ∨ a = link.1.second := by simpa [Link.addresses] using address
  · exact Heap.lt_next h.1
  · exact Heap.lt_next h.2

theorem Link.Live.alloc {heap : Heap (List UInt8)} (h : link.Live heap) (block : List UInt8) :
    link.Live (heap.alloc block) := ⟨Heap.cells_alloc h.1, Heap.cells_alloc h.2⟩

theorem Link.Live.frame {heap heap' : Heap (List UInt8)} (h : link.Live heap)
    (same : ∀ a ∈ link.addresses, heap'.cells a = heap.cells a) : link.Live heap' :=
  ⟨(same _ (by simp [Link.addresses])).trans h.1, (same _ (by simp [Link.addresses])).trans h.2⟩

/-! ## Setting -/

theorem Linked.set_found (h : Linked table (before ++ link :: after)) (val : Object valSize)
    (found : dynTableFindIdx table link.2.1 = some before.length) (inside : before.length ≠ sizeMax)
    (grants : Grants) :
    ∃ table', dynTableSet grants table link.2.1 val = some (0, table') ∧
      Linked table' (before ++ (link.1, link.2.1, val) :: after) := by
  obtain ⟨named, value⟩ := h.live link (by simp)
  obtain ⟨two, others⟩ := h.elsewhere
  obtain ⟨heap, written, here, -, frame⟩ := Heap.write_live value fun block =>
    val.bytes ++ block.drop valSize
  -- the new value is as long as the old one, so nothing of that is left
  have whole : val.bytes ++ link.2.2.bytes.drop valSize = val.bytes := by
    rw [List.drop_of_length_le (Nat.le_of_eq link.2.2.sized), List.append_nil]
  refine ⟨{ table with heap }, ?_, ?_, ?_, ?_, ?_⟩
  · rw [dynTableSet, found, Option.bind_some, if_pos inside, h.pairAt, Option.bind_some, written,
      Option.map_some]
  · simpa using h.array
  · intro other member
    obtain rfl | member : other = (link.1, link.2.1, val) ∨ other ∈ before ++ after := by
      simpa [or_left_comm] using member
    · exact ⟨(frame _ two).trans named, by rw [here, whole]⟩
    · have kept : other ∈ before ++ link :: after := by
        rw [List.mem_append, List.mem_cons] at *
        exact member.imp_right .inr
      exact (h.live other kept).frame fun a address => frame a (others other member a address).2
  · have apart := h.apart
    rw [flatMap_addresses] at apart ⊢
    simpa using apart
  · simpa using h.unique

theorem Linked.set_absent (h : Linked table links) (key : Object keySize) (val : Object valSize)
    (absent : dynTableFindIdx table key = some sizeMax)
    (new : key ∉ (links.map Prod.snd).map Prod.fst) {granted : Bool}
    (room : ¬ ArrayBlock.Stuck granted table.array table.array.len) :
    ∃ table', dynTableSet ⟨true, true, granted⟩ table key val = some (0, table') ∧
      Linked table' (links ++ [(⟨table.heap.next, table.heap.next + 1⟩, key, val)]) := by
  obtain ⟨array, pushed, sound, -⟩ := h.array.push ⟨table.heap.next, table.heap.next + 1⟩ room
  refine ⟨⟨array, (table.heap.alloc key.bytes).alloc val.bytes⟩, ?_, ?_, ?_, ?_, ?_⟩
  · have second : (table.heap.alloc key.bytes).next = table.heap.next + 1 := rfl
    simp [dynTableSet, absent, mallocCopy, second, pushed]
  · simpa using sound
  · intro other member
    obtain old | rfl := List.mem_append.mp member |>.imp_right List.mem_singleton.mp
    · exact ((h.live other old).alloc key.bytes).alloc val.bytes
    · exact ⟨Heap.cells_alloc (Heap.cells_alloc_self _ _), Heap.cells_alloc_self _ _⟩
  · rw [List.flatMap_append, List.nodup_append]
    refine ⟨h.apart, by simp [Link.addresses], ?_⟩
    intro a old b new_ same
    obtain ⟨other, member, address⟩ := List.mem_flatMap.mp old
    -- the blocks of the new pair lie above all those in use
    have below := (h.live other member).lt_next a address
    have above : b = table.heap.next ∨ b = table.heap.next + 1 := by
      simpa [Link.addresses] using new_
    omega
  · rw [List.map_append, List.map_append, List.nodup_append]
    refine ⟨h.unique, by simp, ?_⟩
    intro a old b new_ same
    obtain rfl : b = key := by simpa using new_
    exact new (same ▸ old)

theorem set_stuck (key : Object keySize) (val : Object valSize)
    (absent : dynTableFindIdx table key = some sizeMax) {granted : Bool}
    (stuck : ArrayBlock.Stuck granted table.array table.array.len) :
    dynTableSet ⟨true, true, granted⟩ table key val
      = some (-1, { table with heap := (table.heap.alloc key.bytes).alloc val.bytes }) := by
  have pushed := ArrayBlock.push_stuck stuck
    (⟨table.heap.next, (table.heap.alloc key.bytes).next⟩ : DynPair)
  simp [dynTableSet, absent, mallocCopy, pushed]

theorem modify_middle {α : Type*} (before after : List α) (a : α) (f : α → α) :
    (before ++ a :: after).modify before.length f = before ++ f a :: after := by
  induction before with
  | nil => rfl
  | cons b before ih => simpa using ih

/-! ## Removing -/

theorem Linked.remove_found (h : Linked table (before ++ link :: after))
    (found : dynTableFindIdx table link.2.1 = some before.length)
    (inside : before.length ≠ sizeMax) :
    ∃ table', dynTableRemove table link.2.1 = some (0, table') ∧
      Linked table' (before ++ after) := by
  obtain ⟨named, value⟩ := h.live link (by simp)
  -- the blocks of a pair are two, and no other pair has either of them
  obtain ⟨two, others⟩ := h.elsewhere
  obtain ⟨heap, freed, -, -, frame⟩ := Heap.free_live named
  have value' : heap.cells link.1.second = some link.2.2.bytes := (frame _ two.symm).trans value
  obtain ⟨heap', freed', -, -, frame'⟩ := Heap.free_live value'
  obtain ⟨array, removed, sound⟩ := h.array.remove
    (show before.length < ((before ++ link :: after).map Prod.fst).length by simp)
  refine ⟨⟨array, heap'⟩, ?_, ?_, ?_, ?_, ?_⟩
  · rw [dynTableRemove, found, Option.bind_some, if_neg inside, h.pairAt, Option.bind_some, freed,
      Option.bind_some, freed', Option.bind_some, removed, Option.map_some]
  · simpa [List.eraseIdx_append_of_length_le] using sound
  · intro other member
    have kept : other ∈ before ++ link :: after := by
      rw [List.mem_append, List.mem_cons] at *
      exact member.imp_right .inr
    refine (h.live other kept).frame fun a address => ?_
    obtain ⟨notFirst, notSecond⟩ := others other member a address
    exact (frame' a notSecond).trans (frame a notFirst)
  · have first := (List.perm_middle.flatMap_right Link.addresses).nodup_iff.mp h.apart
    rw [List.flatMap_cons] at first
    exact first.of_append_right
  · have first := h.unique
    rw [List.map_append, List.map_append, List.map_cons, List.map_cons] at first
    rw [List.map_append, List.map_append]
    exact (List.nodup_middle.mp first).of_cons

/-! ## The table as a finite map -/

/-- A call on the finite map. -/
def mapCall (map : AssocTable (Object keySize) (Object valSize)) :
    Call keySize valSize → AssocTable (Object keySize) (Object valSize)
  | .set key val => map.set key val
  | .remove key => map.remove key
  | _ => map

theorem Linked.absent_iff (h : Linked table links) (key : Object keySize) :
    h.map.find key = none ↔ key ∉ (links.map Prod.snd).map Prod.fst := AssocTable.find_none

theorem Linked.step (h : Linked table links) {call : Call keySize valSize}
    (next : step table call = some table') :
    ∃ links', ∃ h' : Linked table' links', h'.map = mapCall h.map call := by
  cases call with
  | get key =>
    obtain ⟨_, -, rfl⟩ := Option.map_eq_some_iff.mp next
    exact ⟨links, h, rfl⟩
  | iterate inx =>
    cases next
    exact ⟨links, h, rfl⟩
  | set key val =>
    obtain ⟨⟨code, done⟩, called, success⟩ := Option.bind_eq_some_iff.mp next
    obtain ⟨search, absent⟩ | ⟨before, link, after, rfl, rfl, search, inside, found⟩ :=
      h.find_cases key
    · have new := (h.absent_iff key).mp absent
      -- a new key at the end of the array, if a larger one can be had
      by_cases room : ArrayBlock.Stuck true table.array table.array.len
      · cases called.symm.trans (set_stuck key val search room)
        cases success
      · obtain ⟨table'', called', h'⟩ := h.set_absent key val search new room
        cases called.symm.trans called'
        cases success
        refine ⟨_, h', AssocTable.ext_entries ?_⟩
        rw [mapCall, AssocTable.entries_set_absent absent]
        simp [Linked.map]
    · obtain ⟨table'', called', h'⟩ := h.set_found val search inside ⟨true, true, true⟩
      cases called.symm.trans called'
      cases success
      refine ⟨_, h', AssocTable.ext_entries ?_⟩
      rw [mapCall, AssocTable.entries_set_found found]
      simpa [Linked.map] using
        (modify_middle (before.map Prod.snd) (after.map Prod.snd) link.2 fun e => (e.1, val)).symm
  | remove key =>
    obtain ⟨⟨code, done⟩, called, rfl⟩ := Option.map_eq_some_iff.mp next
    obtain ⟨search, absent⟩ | ⟨before, link, after, rfl, rfl, search, inside, found⟩ :=
      h.find_cases key
    · rw [dynTableRemove, search, Option.bind_some, if_pos rfl] at called
      cases called
      exact ⟨links, h, (AssocTable.remove_absent absent).symm⟩
    · obtain ⟨table'', called', h'⟩ := h.remove_found search inside
      cases called.symm.trans called'
      refine ⟨_, h', AssocTable.ext_entries ?_⟩
      rw [mapCall, AssocTable.entries_remove_found found]
      simp [Linked.map, List.eraseIdx_append_of_length_le]

theorem Linked.value_eq (h : Linked table links) (key : Object keySize) :
    table.value key = some ((h.map.get key).map Object.bytes) := by
  obtain ⟨search, absent⟩ | ⟨before, link, after, rfl, rfl, search, inside, found⟩ :=
    h.find_cases key
  · rw [DynTable.value, dynTableGet, search, Option.bind_some, if_pos rfl, Option.bind_some,
      AssocTable.get_none_of_find absent]
    rfl
  · have slot : h.map.entries[before.length]? = some (link.2.1, link.2.2) := by simp [Linked.map]
    rw [DynTable.value, dynTableGet, search, Option.bind_some, if_neg inside, h.pairAt,
      AssocTable.get_of_slot slot]
    simp [(h.live link (by simp)).2]

theorem Linked.remove_absent_iff (h : Linked table links) (key : Object keySize) :
    (∃ table', dynTableRemove table key = some (-1, table')) ↔ table.value key = some none := by
  rw [h.value_eq key]
  obtain ⟨search, absent⟩ | ⟨before, link, after, rfl, rfl, search, inside, found⟩ :=
    h.find_cases key
  · refine iff_of_true ⟨table, ?_⟩ (by rw [AssocTable.get_none_of_find absent]; rfl)
    rw [dynTableRemove, search, Option.bind_some, if_pos rfl]
  · have slot : h.map.entries[before.length]? = some (link.2.1, link.2.2) := by simp [Linked.map]
    obtain ⟨table', removed, -⟩ := h.remove_found search inside
    refine iff_of_false ?_ (by rw [AssocTable.get_of_slot slot]; simp)
    rintro ⟨other, missing⟩
    cases removed.symm.trans missing

/-- The loop over `dyn_table_iterate` sees the links that are left, in order. -/
theorem Linked.walk (h : Linked table (before ++ after)) {turns : Nat}
    (enough : after.length < turns) :
    DynTable.walk table turns before.length = some (after.map fun link => link.2.1.bytes) := by
  have stores := h.array.stores
  induction after generalizing before turns with
  | nil =>
    cases turns with
    | zero => simp at enough
    | succ turns =>
      have last : before.length ≥ table.array.len := by simp [stores]
      rw [DynTable.walk, dynTableIterate, if_pos last]
      rfl
  | cons link after ih =>
    cases turns with
    | zero => simp at enough
    | succ turns =>
      have inside : ¬ before.length ≥ table.array.len := by simp [stores]
      -- the link that was seen joins those in front
      have passed : Linked table (before ++ [link] ++ after) := by simpa using h
      have next := ih passed (Nat.lt_of_succ_lt_succ enough) (by simpa using stores)
      have slot := h.pairAt
      rw [DynTable.pairAt, dynArrayAt, if_neg inside, Option.bind_some] at slot
      rw [List.length_append, List.length_singleton] at next
      simp only [DynTable.walk, dynTableIterate, dynArrayAt, if_neg inside, Option.map_some, slot,
        Option.bind_some, (h.live link (by simp)).1, next, List.map_cons]

/-- A call whose allocations succeed has a result; only the array may be too large to grow. -/
theorem Linked.step_eq_none (h : Linked table links) {call : Call keySize valSize}
    (none_ : DynTable.step table call = none) :
    ∃ key val, call = .set key val ∧ table.value key = some none ∧
      ArrayBlock.Stuck true table.array table.array.len := by
  cases call with
  | get key =>
    rw [DynTable.step, h.value_eq key] at none_
    cases none_
  | iterate inx => cases none_
  | remove key =>
    rw [DynTable.step, Option.map_eq_none_iff] at none_
    obtain ⟨search, -⟩ | ⟨before, link, after, rfl, rfl, search, inside, -⟩ := h.find_cases key
    · rw [dynTableRemove, search, Option.bind_some, if_pos rfl] at none_
      cases none_
    · obtain ⟨table', removed, -⟩ := h.remove_found search inside
      cases removed.symm.trans none_
  | set key val =>
    -- only a key that is new needs room in the array
    refine ⟨key, val, rfl, ?_⟩
    rw [DynTable.step] at none_
    obtain ⟨search, absent⟩ | ⟨before, link, after, rfl, rfl, search, inside, -⟩ := h.find_cases key
    · refine ⟨by rw [h.value_eq key, AssocTable.get_none_of_find absent]; rfl, ?_⟩
      by_contra room
      obtain ⟨table', done, -⟩ := h.set_absent key val search ((h.absent_iff key).mp absent) room
      rw [done] at none_
      cases none_
    · obtain ⟨table', done, -⟩ := h.set_found val search inside ⟨true, true, true⟩
      rw [done] at none_
      cases none_

/-! ## Runs -/

/-- What a call makes of the last value that was set for a key. -/
def update (key : Object keySize) (last : Option (Object valSize)) :
    Call keySize valSize → Option (Object valSize)
  | .set k v => if k = key then some v else last
  | .remove k => if k = key then none else last
  | _ => last

/-- The value of the last set of the key that no remove follows. -/
def lastSet (calls : List (Call keySize valSize)) (key : Object keySize) :
    Option (Object valSize) :=
  calls.foldl (update key) none

theorem get_mapCall (map : AssocTable (Object keySize) (Object valSize))
    (call : Call keySize valSize) (key : Object keySize) :
    (mapCall map call).get key = update key (map.get key) call := by
  cases call with
  | set k v =>
    by_cases same : k = key
    · subst same
      rw [mapCall, update, if_pos rfl, AssocTable.get_set_self]
    · rw [mapCall, update, if_neg same, AssocTable.get_set_ne _ _ (Ne.symm same)]
  | remove k =>
    by_cases same : k = key
    · subst same
      rw [mapCall, update, if_pos rfl, AssocTable.get_remove_self]
    · rw [mapCall, update, if_neg same, AssocTable.get_remove_ne (Ne.symm same)]
  | _ => rfl

theorem Linked.run (h : Linked table links) {calls : List (Call keySize valSize)}
    (run : Transition.run DynTable.step table calls = some table') :
    ∃ links', ∃ h' : Linked table' links', ∀ key, h'.map.get key
      = calls.foldl (update key) (h.map.get key) := by
  induction calls generalizing table links with
  | nil =>
    cases run
    exact ⟨links, h, fun key => rfl⟩
  | cons call calls ih =>
    obtain ⟨middle, next, rest⟩ := Transition.run_cons.mp run
    obtain ⟨links₁, h₁, same⟩ := h.step next
    obtain ⟨links₂, h₂, recalled⟩ := ih h₁ rest
    refine ⟨links₂, h₂, fun key => ?_⟩
    rw [recalled key, same, get_mapCall, List.foldl_cons]

/-- What makes the table a finite map, after the calls that led to it. -/
structure RefinesMap (calls : List (Call keySize valSize)) (table : DynTable keySize valSize) :
    Prop where
  /-- `dyn_table_get` returns the value of the last set that no remove follows. -/
  get : ∀ key, table.value key = some ((lastSet calls key).map Object.bytes)
  /-- The loop over `dyn_table_iterate` sees each key that is present once, and there is a slot for
      each. -/
  iterate : ∃ keys : List (Object keySize),
    table.walk (table.array.len + 1) 0 = some (keys.map Object.bytes) ∧ keys.Nodup ∧
      keys.length = table.array.len ∧
      ∀ key, key ∈ keys ↔ (lastSet calls key).isSome
  set_other : ∀ key val table', table.step (.set key val) = some table' →
    ∀ other, other ≠ key → table'.value other = table.value other
  remove_other : ∀ key table', table.step (.remove key) = some table' →
    ∀ other, other ≠ key → table'.value other = table.value other
  remove_absent : ∀ key, (∃ table', dynTableRemove table key = some (-1, table')) ↔
    table.value key = some none
  /-- Only a new key has no slot, where the array cannot grow any more. -/
  result : ∀ call, table.step call = none →
    ∃ key val, call = .set key val ∧ table.value key = some none ∧
      ArrayBlock.Stuck true table.array table.array.len

theorem dyn_table_refines_map {calls : List (Call keySize valSize)}
    {table : DynTable keySize valSize}
    (run : Transition.run DynTable.step (dynTableCreate keySize valSize) calls = some table) :
    RefinesMap calls table := by
  obtain ⟨links, h, recalled⟩ := linked_create.run run
  -- the map recalls the last call that set the key, if none removed it since
  have get : ∀ key, h.map.get key = lastSet calls key := recalled
  constructor
  · intro key
    rw [h.value_eq key, get]
  · refine ⟨h.map.entries.map Prod.fst, ?_, h.unique, ?_, fun key => ?_⟩
    · have enough : links.length < table.array.len + 1 := by simp [h.array.stores]
      have walked := Linked.walk (show Linked table ([] ++ links) from h) enough
      simpa [Linked.map, Function.comp_def] using walked
    · simp [Linked.map, h.array.stores]
    · rw [← get, Option.isSome_iff_ne_none, Ne, AssocTable.get_eq_none, not_not]
  · intro key val table' next other apart
    obtain ⟨links', h', same⟩ := h.step next
    rw [h'.value_eq, h.value_eq, same, mapCall, AssocTable.get_set_ne _ _ apart]
  · intro key table' next other apart
    obtain ⟨links', h', same⟩ := h.step next
    rw [h'.value_eq, h.value_eq, same, mapCall, AssocTable.get_remove_ne apart]
  · exact h.remove_absent_iff
  · intro call none_
    exact h.step_eq_none none_

/-- One key is set twice, and another one is removed. -/
def sampleCalls : List (Call 1 2) :=
  [.set ⟨[1], rfl⟩ ⟨[7, 7], rfl⟩, .set ⟨[2], rfl⟩ ⟨[8, 8], rfl⟩, .set ⟨[3], rfl⟩ ⟨[5, 5], rfl⟩,
    .set ⟨[1], rfl⟩ ⟨[9, 9], rfl⟩, .remove ⟨[2], rfl⟩]

theorem dyn_table_refines_map_sampleCalls :
    ∃ table, Transition.run DynTable.step (dynTableCreate 1 2) sampleCalls = some table ∧
      RefinesMap sampleCalls table ∧
      table.value ⟨[1], rfl⟩ = some (some [9, 9]) ∧ table.value ⟨[2], rfl⟩ = some none ∧
      table.value ⟨[3], rfl⟩ = some (some [5, 5]) := by
  have outcome : (Transition.run DynTable.step (dynTableCreate 1 2) sampleCalls).map (fun table =>
      (table.value ⟨[1], rfl⟩, table.value ⟨[2], rfl⟩, table.value ⟨[3], rfl⟩)) =
      some (some (some [9, 9]), some none, some (some [5, 5])) := by
    decide +kernel
  obtain ⟨table, reached, values⟩ := Option.map_eq_some_iff.mp outcome
  simp only [Prod.mk.injEq] at values
  exact ⟨table, reached, dyn_table_refines_map reached, values⟩

end DynTable

end Soter2.Base
