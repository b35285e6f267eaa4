import Mathlib.Algebra.Ring.Nat
import Mathlib.Data.List.Nodup
import Mathlib.Tactic.Common
import Soter2.Library.AssocTable
import Soter2.Library.Chains

/-! # The hash table (`base/src/base/dyn_htable.c`)

An array of chains of nodes, the newest node first, and no array where `nodes` is null.  The keys
are compared with `memcmp`, which is equality of `κ`; `hash` is the function in the table.  A call
has no result where an assertion fails, where it follows a null pointer, or where it accesses a
slot behind the array, whose size in bytes is reckoned as a `size_t`.

* `Holds` — a table whose nodes are the pairs of a finite map.
* `Holds.insert`, `Holds.erase`, … — what each call makes of the map.
-/

namespace Soter2.Base

abbrev htMinimumCapacity : Nat := 8
abbrev htLoadFactor : Nat := 5
abbrev htGrowthFactor : Nat := 2

/-- `1 / 4`, in integers. -/
def htShrinkThreshold : Nat := 1 / 4

abbrev htError : Int := -1
abbrev htSuccess : Int := 0
abbrev htUpdated : Int := 1
abbrev htInserted : Int := 0
abbrev htNotFound : Int := 0
abbrev htFound : Int := 1

structure DynHtable (κ ν : Type*) where
  size : Nat
  threshold : Nat
  capacity : Nat
  nodes : Option (List (List (κ × ν)))

/-- `_ht_default_hash`: a `char` of the key is signed. -/
def htDefaultHash (key : List UInt8) : UInt64 :=
  key.foldl (fun hash byte => ((hash <<< 5) + hash) ^^^ byte.toInt8.toInt64.toUInt64) 5381

namespace DynHtable

variable {κ ν : Type*} (hash : κ → Nat)

/-! ## The array -/

/-- `HT_INITIALIZER`. -/
def htInitializer : DynHtable κ ν := ⟨0, 0, 0, none⟩

/-- The slots of the array that is asked for: its size in bytes wraps. -/
def slots (capacity : Nat) : Nat := capacity * 8 % 2 ^ 64 / 8

def htAllocate (granted : Bool) (table : DynHtable κ ν) (capacity : Nat) : Int × DynHtable κ ν :=
  if granted then
    (htSuccess, { table with
      nodes := some (List.replicate (slots capacity) [])
      capacity := capacity
      threshold := capacity * htLoadFactor % 2 ^ 64 })
  else (htError, { table with nodes := none })

/-- `_ht_hash`. -/
def htHash (table : DynHtable κ ν) (key : κ) : Nat := hash key % table.capacity

/-- The chain that a call walks for a key. -/
def chainOf (table : DynHtable κ ν) (key : κ) : Option (List (κ × ν)) :=
  table.nodes.bind fun nodes => nodes[htHash hash table key]?

/-- `_ht_rehash`: the nodes of the old array go to the front of their new chains. -/
def htRehash (table : DynHtable κ ν) (old : List (List (κ × ν))) (oldCapacity : Nat) :
    Option (DynHtable κ ν) :=
  table.nodes.bind fun nodes =>
    (Chains.each (fun nodes _ chain =>
      Chains.pushAll (fun node => htHash hash table node.1) nodes chain) old oldCapacity
      nodes).map fun nodes => { table with nodes := some nodes }

def htResize (granted : Bool) (table : DynHtable κ ν) (newCapacity : Nat) :
    Option (Int × DynHtable κ ν) :=
  if newCapacity < htMinimumCapacity ∧ table.capacity ≤ htMinimumCapacity then
    some (htSuccess, table)
  else
    let capacity := if newCapacity < htMinimumCapacity then htMinimumCapacity else newCapacity
    let allocated := htAllocate granted table capacity
    if allocated.1 = htError then some (htError, allocated.2)
    else
      table.nodes.bind fun old =>
        (htRehash hash allocated.2 old table.capacity).map fun table => (htSuccess, table)

def htAdjustCapacity (granted : Bool) (table : DynHtable κ ν) : Option (Int × DynHtable κ ν) :=
  htResize hash granted table (table.size * htGrowthFactor % 2 ^ 64)

/-- `_ht_should_grow`, behind its assertion. -/
def htShouldGrow (table : DynHtable κ ν) : Option Bool :=
  if table.size ≤ table.capacity then some (table.size = table.capacity) else none

/-- `_ht_should_shrink`, behind its assertion. -/
def htShouldShrink (table : DynHtable κ ν) : Option Bool :=
  if table.size ≤ table.capacity then some (table.size = table.capacity * htShrinkThreshold)
  else none

/-! ## The calls -/

section Calls

variable [DecidableEq κ]

/-- The node of the key in a chain: the first for which `_ht_equal` holds. -/
def findNode (chain : List (κ × ν)) (key : κ) : Option Nat :=
  chain.findIdx? fun node => key = node.1

def htSetup (granted : Bool) (table : DynHtable κ ν) (capacity : Nat) : Int × DynHtable κ ν :=
  let allocated := htAllocate granted table
    (if capacity < htMinimumCapacity then htMinimumCapacity else capacity)
  if allocated.1 = htError then (htError, allocated.2)
  else (htSuccess, { allocated.2 with size := 0 })

/-- `ht_is_initialized`, as the assertions of the calls have it. -/
def initialized (table : DynHtable κ ν) : Option (List (List (κ × ν))) := table.nodes

/-- `_ht_push_front`: where no node can be created, the chain is cut off. -/
def htPushFront (granted : Bool) (nodes : List (List (κ × ν))) (index : Nat) (node : κ × ν) :
    Option (Int × List (List (κ × ν))) :=
  if granted then (Chains.pushFront nodes index node).map fun nodes => (htSuccess, nodes)
  else nodes[index]?.map fun _ => (htError, nodes.set index [])

/-- Which of the two requests of `ht_insert` are granted: the larger array, and the node. -/
structure Grants where
  array : Bool
  node : Bool

/-- `ht_insert`, behind the growth of the array. -/
def insertNode (granted : Bool) (table : DynHtable κ ν) (key : κ) (value : ν) :
    Option (Int × DynHtable κ ν) :=
  table.nodes.bind fun nodes =>
    nodes[htHash hash table key]?.bind fun chain =>
      match findNode chain key with
      | some i =>
        let written := chain.modify i fun node => (node.1, value)
        some (htUpdated, { table with nodes := some (nodes.set (htHash hash table key) written) })
      | none =>
        (htPushFront granted nodes (htHash hash table key) (key, value)).map fun pushed =>
          if pushed.1 = htError then (htError, { table with nodes := some pushed.2 })
          else (htInserted, { table with nodes := some pushed.2, size := table.size + 1 })

def htInsert (grants : Grants) (table : DynHtable κ ν) (key : κ) (value : ν) :
    Option (Int × DynHtable κ ν) :=
  table.initialized.bind fun _ =>
    (htShouldGrow table).bind fun grow =>
      if grow then
        (htAdjustCapacity hash grants.array table).bind fun grown =>
          insertNode hash grants.node grown.2 key value
      else insertNode hash grants.node table key value

def htContains (table : DynHtable κ ν) (key : κ) : Option Int :=
  (chainOf hash table key).map fun chain => if (findNode chain key).isSome then htFound
    else htNotFound

/-- `ht_lookup`, with what the caller reads through the pointer; the inner `none` is a null
    pointer. -/
def htLookup (table : DynHtable κ ν) (key : κ) : Option (Option ν) :=
  (chainOf hash table key).map fun chain => (findNode chain key).bind fun i =>
    chain[i]?.map Prod.snd

def htErase (granted : Bool) (table : DynHtable κ ν) (key : κ) : Option (Int × DynHtable κ ν) :=
  table.nodes.bind fun nodes =>
    nodes[htHash hash table key]?.bind fun chain =>
      match findNode chain key with
      | none => some (htNotFound, table)
      | some i =>
        let rest := chain.eraseIdx i
        let erased := { table with
          nodes := some (nodes.set (htHash hash table key) rest)
          size := table.size - 1 }
        (htShouldShrink erased).bind fun shrink =>
          if shrink then
            (htAdjustCapacity hash granted erased).map fun shrunk =>
              if shrunk.1 = htError then (htError, shrunk.2) else (htSuccess, shrunk.2)
          else some (htSuccess, erased)

/-- `ht_destroy`, which walks every chain. -/
def htDestroy (table : DynHtable κ ν) : Option Int :=
  table.initialized.bind fun nodes =>
    (Chains.each (fun _ _ _ => some ()) nodes table.capacity ()).map fun _ => htSuccess

/-- `ht_clear`, which does not read what `_ht_allocate` returns. -/
def htClear (granted : Bool) (table : DynHtable κ ν) : Option (Int × DynHtable κ ν) :=
  (htDestroy table).map fun _ =>
    (htSuccess, { (htAllocate granted table htMinimumCapacity).2 with size := 0 })

def htReserve (granted : Bool) (table : DynHtable κ ν) (minimumCapacity : Nat) :
    Option (Int × DynHtable κ ν) :=
  table.initialized.bind fun _ =>
    if minimumCapacity > table.threshold then
      htResize hash granted table (minimumCapacity / htLoadFactor)
    else some (htSuccess, table)

/-- `ht_is_empty`. -/
def htIsEmpty (table : DynHtable κ ν) : Bool := table.size = 0

/-- `ht_copy`, where each node can be created. -/
def htCopy (granted : Bool) (first second : DynHtable κ ν) : Option (Int × DynHtable κ ν) :=
  second.initialized.bind fun nodes =>
    let allocated := htAllocate granted first second.capacity
    if allocated.1 = htError then some (htError, allocated.2)
    else
      allocated.2.nodes.bind fun fresh =>
        (Chains.each (fun copied i chain => Chains.pushAll (fun _ => i) copied chain) nodes
          second.capacity fresh).map
          fun copied => (htSuccess, { allocated.2 with nodes := some copied, size := second.size })

/-- `ht_move`. -/
def htMove (second : DynHtable κ ν) : Option (DynHtable κ ν × DynHtable κ ν) :=
  second.initialized.map fun _ => (second, { second with nodes := none })

/-- `ht_swap`, which leaves each table its capacity and its threshold. -/
def htSwap (first second : DynHtable κ ν) : Option (DynHtable κ ν × DynHtable κ ν) :=
  first.initialized.bind fun _ =>
    second.initialized.map fun _ =>
      ({ first with size := second.size, nodes := second.nodes },
        { second with size := first.size, nodes := first.nodes })

end Calls

/-! ## Tables that hold a map -/

/-- Where the nodes of a table belong in an array of the capacity. -/
def placeIn (hash : κ → Nat) (capacity : Nat) (node : κ × ν) : Nat := hash node.1 % capacity

/-- The nodes are the pairs of the map, each in the chain of its key.  `lost` counts the pairs that
    went with a chain that was cut off: the size still counts them. -/
structure Holds (table : DynHtable κ ν) (chains : List (List (κ × ν))) (map : AssocTable κ ν)
    (lost : Nat) : Prop where
  nodes : table.nodes = some chains
  length : chains.length = table.capacity
  least : htMinimumCapacity ≤ table.capacity
  /-- The size of the array in bytes does not wrap. -/
  fits : table.capacity < 2 ^ 61
  threshold : table.threshold = table.capacity * htLoadFactor
  placed : Chains.Placed (placeIn hash table.capacity) chains
  elements : chains.flatten.Perm map.entries
  size : table.size = map.entries.length + lost
  within : table.size ≤ table.capacity

variable {hash} {table : DynHtable κ ν} {chains : List (List (κ × ν))} {map : AssocTable κ ν}
    {lost : Nat}

theorem htHash_lt (table : DynHtable κ ν) (least : htMinimumCapacity ≤ table.capacity) (key : κ) :
    htHash hash table key < table.capacity :=
  Nat.mod_lt _ (by have : (8 : Nat) ≤ table.capacity := least; omega)

/-! ## Arrays of another size -/

theorem slots_eq {capacity : Nat} (fits : capacity < 2 ^ 61) : slots capacity = capacity := by
  rw [slots, Nat.mod_eq_of_lt (by omega)]
  omega

/-- A new array of the capacity, without nodes. -/
def cleared (table : DynHtable κ ν) (capacity : Nat) : DynHtable κ ν :=
  { table with
    nodes := some (List.replicate capacity [])
    capacity := capacity
    threshold := capacity * htLoadFactor }

theorem htAllocate_granted {capacity : Nat} (fits : capacity < 2 ^ 61) :
    htAllocate true table capacity = (htSuccess, cleared table capacity) := by
  have threshold : capacity * htLoadFactor % 2 ^ 64 = capacity * htLoadFactor :=
    Nat.mod_eq_of_lt (by simp only [htLoadFactor]; omega)
  rw [htAllocate, if_pos rfl, slots_eq fits, threshold, cleared]

/-- What the nodes of a table become in a new array of the capacity. -/
theorem received_cleared (hash : κ → Nat) {capacity : Nat} (least : htMinimumCapacity ≤ capacity)
    (old : List (List (κ × ν))) :
    ∃ chains', Chains.each (fun nodes _ chain => Chains.pushAll (placeIn hash capacity) nodes chain)
      old old.length
        (List.replicate capacity []) = some chains' ∧
      Chains.Received (placeIn hash capacity) (List.replicate capacity []) old.flatten chains' := by
  refine Chains.each_spec
    (P := fun nodes done => Chains.Received (placeIn hash capacity) (List.replicate capacity [])
      done nodes)
    (Chains.received_nil (Chains.placed_replicate _)) ?_
  intro nodes done i chain _ received
  obtain ⟨nodes', pushed, more⟩ := Chains.pushAll_received received.placed chain fun node _ => by
    rw [received.length, List.length_replicate]
    exact Nat.mod_lt _ (Nat.lt_of_lt_of_le (by decide) least)
  exact ⟨nodes', pushed, received.trans more⟩

theorem Holds.resized (h : Holds hash table chains map lost) {capacity : Nat}
    (least : htMinimumCapacity ≤ capacity) (fits : capacity < 2 ^ 61)
    (room : table.size ≤ capacity) :
    ∃ table' chains', htRehash hash (cleared table capacity) chains table.capacity = some table' ∧
      Holds hash table' chains' map lost ∧ table'.capacity = capacity := by
  obtain ⟨chains', moved, received⟩ := received_cleared hash least chains
  refine ⟨{ cleared table capacity with nodes := some chains' }, chains', ?_, ?_, rfl⟩
  · rw [htRehash, cleared, Option.bind_some, ← h.length]
    exact congrArg (Option.map _) moved
  · refine ⟨rfl, ?_, least, fits, rfl, received.placed, ?_, h.size, room⟩
    · exact received.length.trans List.length_replicate
    · refine received.elements.trans ?_
      simpa using h.elements

/-- The capacity that `_ht_resize` gives a table. -/
def resizedCapacity (table : DynHtable κ ν) (newCapacity : Nat) : Nat :=
  if newCapacity < htMinimumCapacity ∧ table.capacity ≤ htMinimumCapacity then table.capacity
  else max newCapacity htMinimumCapacity

theorem Holds.resize (h : Holds hash table chains map lost) {newCapacity : Nat}
    (fits : newCapacity < 2 ^ 61)
    (room : table.size ≤ newCapacity ∨ table.size ≤ htMinimumCapacity) :
    ∃ table' chains', htResize hash true table newCapacity = some (htSuccess, table') ∧
      Holds hash table' chains' map lost ∧
      table'.capacity = resizedCapacity table newCapacity := by
  unfold htResize resizedCapacity
  split
  next small => exact ⟨table, chains, rfl, h, rfl⟩
  next wanted =>
    -- either capacity is large enough for all nodes, and each goes to its place in the new array
    have goal : ∀ capacity, htMinimumCapacity ≤ capacity → capacity < 2 ^ 61 →
        table.size ≤ capacity →
        ∃ table' chains', (if (htAllocate true table capacity).1 = htError
          then some (htError, (htAllocate true table capacity).2)
          else table.nodes.bind fun old =>
            (htRehash hash (htAllocate true table capacity).2 old table.capacity).map fun table =>
              (htSuccess, table)) =
          some (htSuccess, table') ∧ Holds hash table' chains' map lost ∧
            table'.capacity = capacity := by
      intro capacity least small enough
      obtain ⟨table', chains', rehashed, held, kept⟩ := h.resized least small enough
      refine ⟨table', chains', ?_, held, kept⟩
      rw [htAllocate_granted small, if_neg (show ¬ htSuccess = htError by decide), h.nodes,
        Option.bind_some, rehashed, Option.map_some]
    split
    next below =>
      rw [Nat.max_eq_right (Nat.le_of_lt below)]
      refine goal htMinimumCapacity (Nat.le_refl _) (by decide) ?_
      rcases room with room | room <;> omega
    next above =>
      rw [Nat.max_eq_left (Nat.not_lt.mp above)]
      refine goal newCapacity (Nat.not_lt.mp above) fits ?_
      rcases room with room | room <;> omega

/-- Without memory for the array, the table is left without one. -/
theorem htResize_refused {newCapacity : Nat}
    (wanted : ¬ (newCapacity < htMinimumCapacity ∧ table.capacity ≤ htMinimumCapacity)) :
    htResize hash false table newCapacity = some (htError, { table with nodes := none }) := by
  rw [htResize, if_neg wanted]
  rfl

/-! ## Calls on all nodes -/

/-- The end of `ht_erase`. -/
def shrunk (hash : κ → Nat) (granted : Bool) (table : DynHtable κ ν) :
    Option (Int × DynHtable κ ν) :=
  (htShouldShrink table).bind fun shrink =>
    if shrink then
      (htAdjustCapacity hash granted table).map fun shrunk =>
        if shrunk.1 = htError then (htError, shrunk.2) else (htSuccess, shrunk.2)
    else some (htSuccess, table)

theorem Holds.shouldShrink (h : Holds hash table chains map lost) :
    htShouldShrink table = some (decide (table.size = 0)) := by
  have zero : table.capacity * htShrinkThreshold = 0 := Nat.mul_zero _
  rw [htShouldShrink, if_pos h.within, zero]

theorem Holds.shrink (h : Holds hash table chains map lost) :
    ∃ table' chains', shrunk hash true table = some (htSuccess, table') ∧
      Holds hash table' chains' map lost ∧
      table'.capacity = if table.size = 0 then htMinimumCapacity else table.capacity := by
  rw [shrunk, h.shouldShrink, Option.bind_some]
  by_cases empty : table.size = 0
  · obtain ⟨table', chains', resized, held, capacity⟩ :=
      h.resize (show 0 < 2 ^ 61 by decide) (.inr (by rw [empty]; decide))
    refine ⟨table', chains', ?_, held, ?_⟩
    · rw [decide_eq_true empty, if_pos rfl, htAdjustCapacity, empty, Nat.zero_mul, Nat.zero_mod,
        resized, Option.map_some, if_neg (show ¬ htSuccess = htError by decide)]
    · have least := h.least
      rw [capacity, resizedCapacity, if_pos empty]
      split <;> simp only [htMinimumCapacity] at * <;> omega
  · exact ⟨table, chains, by rw [decide_eq_false empty, if_neg Bool.false_ne_true],
      h, by rw [if_neg empty]⟩

/-- Whether the end of `ht_erase` asks for another array. -/
def Shrinks (table : DynHtable κ ν) : Prop := table.size = 0 ∧ htMinimumCapacity < table.capacity

theorem Holds.shrink_refused (h : Holds hash table chains map lost) :
    (Shrinks table → shrunk hash false table = some (htError, { table with nodes := none })) ∧
      (¬ Shrinks table → shrunk hash false table = some (htSuccess, table)) := by
  rw [shrunk, h.shouldShrink, Option.bind_some]
  by_cases empty : table.size = 0
  · have zero : table.size * htGrowthFactor % 2 ^ 64 = 0 := by
      rw [empty, Nat.zero_mul, Nat.zero_mod]
    rw [decide_eq_true empty, if_pos rfl, htAdjustCapacity, zero]
    refine ⟨fun shrinks => ?_, fun stays => ?_⟩
    · have large : ¬ (0 < htMinimumCapacity ∧ table.capacity ≤ htMinimumCapacity) :=
        fun small => Nat.not_lt.mpr small.2 shrinks.2
      rw [htResize_refused large, Option.map_some, if_pos rfl]
    · have small : table.capacity ≤ htMinimumCapacity := Nat.not_lt.mp fun large =>
        stays ⟨empty, large⟩
      rw [htResize, if_pos ⟨by decide, small⟩, Option.map_some,
        if_neg (show ¬ htSuccess = htError by decide)]
  · rw [decide_eq_false empty, if_neg Bool.false_ne_true]
    exact ⟨fun shrinks => absurd shrinks.1 empty, fun _ => rfl⟩

theorem each_skip (chains : List (List (κ × ν))) :
    Chains.each (fun _ _ _ => some ()) chains chains.length () = some () := by
  have walked : ∃ s', Chains.each (fun (_ : Unit) (_ : Nat) (_ : List (κ × ν)) => some ()) chains
      chains.length () = some s' ∧
      True := Chains.each_spec (P := fun _ _ => True) trivial fun _ _ _ _ _ _ => ⟨(), rfl, trivial⟩
  exact walked.choose_spec.1

theorem holds_empty {capacity : Nat} (table : DynHtable κ ν) (least : htMinimumCapacity ≤ capacity)
    (fits : capacity < 2 ^ 61) :
    Holds hash { cleared table capacity with size := 0 } (List.replicate capacity [])
      AssocTable.empty 0 where
  nodes := rfl
  length := List.length_replicate
  least := least
  fits := fits
  threshold := rfl
  placed := Chains.placed_replicate _
  elements := by simp [AssocTable.empty]
  size := rfl
  within := Nat.zero_le _

theorem Holds.destroy (h : Holds hash table chains map lost) :
    htDestroy table = some htSuccess := by
  rw [htDestroy, initialized, h.nodes, Option.bind_some, ← h.length, each_skip, Option.map_some]

theorem Holds.clear (h : Holds hash table chains map lost) :
    ∃ table' chains', htClear true table = some (htSuccess, table') ∧
      Holds hash table' chains' AssocTable.empty 0 ∧
      table'.capacity = htMinimumCapacity := by
  refine ⟨_, _, ?_, holds_empty table (Nat.le_refl _) (by decide), rfl⟩
  rw [htClear, h.destroy, Option.map_some, htAllocate_granted (by decide)]

theorem htSetup_granted (hash : κ → Nat) (table : DynHtable κ ν) {capacity : Nat}
    (fits : capacity < 2 ^ 61) :
    ∃ table' chains', htSetup true table capacity = (htSuccess, table') ∧
      Holds hash table' chains' AssocTable.empty 0 ∧
      table'.capacity = max capacity htMinimumCapacity := by
  have same : (if capacity < htMinimumCapacity then htMinimumCapacity else capacity)
      = max capacity htMinimumCapacity := by
    split <;> omega
  have small : max capacity htMinimumCapacity < 2 ^ 61 := Nat.max_lt.mpr ⟨fits, by decide⟩
  refine ⟨_, _, ?_, holds_empty table (Nat.le_max_right _ _) small, rfl⟩
  rw [htSetup, same, htAllocate_granted small, if_neg (show ¬ htSuccess = htError by decide)]

theorem Holds.reserve (h : Holds hash table chains map lost) {minimumCapacity : Nat}
    (fits : minimumCapacity / htLoadFactor < 2 ^ 61) :
    ∃ table' chains', htReserve hash true table minimumCapacity = some (htSuccess, table') ∧
      Holds hash table' chains' map lost ∧
      table'.capacity = if minimumCapacity > table.capacity *
        htLoadFactor then minimumCapacity / htLoadFactor else table.capacity := by
  rw [htReserve, initialized, h.nodes, Option.bind_some, h.threshold]
  split
  next more =>
    have within := h.within
    have least := h.least
    simp only [htLoadFactor, htMinimumCapacity] at more least
    obtain ⟨table', chains', resized, held, capacity⟩ :=
      h.resize fits (.inl (by simp only [htLoadFactor]; omega))
    refine ⟨table', chains', resized, held, ?_⟩
    rw [capacity, resizedCapacity]
    simp only [htLoadFactor, htMinimumCapacity]
    split <;> omega
  next => exact ⟨table, chains, rfl, h, rfl⟩

theorem Holds.copy (h : Holds hash table chains map lost) (first : DynHtable κ ν) :
    ∃ table' chains', htCopy true first table = some (htSuccess, table') ∧
      Holds hash table' chains' map lost := by
  -- the copy pushes each node to the slot that it has in the source, which is its place
  have copied : ∃ chains', Chains.each
      (fun copied i chain => Chains.pushAll (fun _ => i) copied chain) chains chains.length
      (List.replicate table.capacity []) = some chains' ∧
      Chains.Received (placeIn hash table.capacity) (List.replicate table.capacity [])
        chains.flatten chains' := by
    refine Chains.each_spec
      (P := fun nodes done => Chains.Received (placeIn hash table.capacity)
        (List.replicate table.capacity []) done nodes)
      (Chains.received_nil (Chains.placed_replicate _)) ?_
    intro nodes done i chain at_ received
    have same : Chains.pushAll (fun _ => i) nodes chain
        = Chains.pushAll (placeIn hash table.capacity) nodes chain :=
      Chains.pushAll_congr fun node mem => (h.placed i chain at_ node mem).symm
    obtain ⟨nodes', pushed, more⟩ := Chains.pushAll_received received.placed chain fun node _ => by
      rw [received.length, List.length_replicate]
      exact htHash_lt table h.least node.1
    exact ⟨nodes', same.trans pushed, received.trans more⟩
  obtain ⟨chains', made, received⟩ := copied
  refine ⟨{ cleared first table.capacity with nodes := some chains', size := table.size }, chains',
    ?_, ?_⟩
  · rw [htCopy, initialized, h.nodes, Option.bind_some, htAllocate_granted h.fits,
      if_neg (show ¬ htSuccess = htError by decide), cleared, Option.bind_some, ← h.length]
    rw [← h.length] at made
    rw [made, Option.map_some]
  · refine ⟨rfl, received.length.trans List.length_replicate, h.least, h.fits, rfl, received.placed,
      ?_, h.size, h.within⟩
    refine received.elements.trans ?_
    simpa using h.elements

/-! ## One chain replaced -/

/-- The entries of a list whose chain is replaced, against those of the map. -/
theorem Holds.others_perm (h : Holds hash table chains map lost) {i : Nat} {chain : List (κ × ν)}
    (at_ : chains[i]? = some chain) : (chain ++ Chains.others chains i).Perm map.entries :=
  (Chains.flatten_perm at_).symm.trans h.elements

theorem Holds.replace (h : Holds hash table chains map lost) (key : κ) {chain : List (κ × ν)}
    {map' : AssocTable κ ν} {lost' size : Nat}
    (belong : ∀ node ∈ chain, placeIn hash table.capacity node = htHash hash table key)
    (elements : (chain ++ Chains.others chains (htHash hash table key)).Perm map'.entries)
    (counted : size = map'.entries.length + lost') (within : size ≤ table.capacity) :
    Holds hash { table with nodes := some (chains.set (htHash hash table key) chain), size := size }
      (chains.set (htHash hash table key) chain) map' lost' where
  nodes := rfl
  length := List.length_set.trans h.length
  least := h.least
  fits := h.fits
  threshold := h.threshold
  placed := h.placed.set belong
  elements := (Chains.flatten_set_perm (h.length ▸ htHash_lt table h.least key) chain).trans
    elements
  size := counted
  within := within

theorem mem_modify_key {chain : List (κ × ν)} {i : Nat} {value : ν} {node : κ × ν}
    (mem : node ∈ chain.modify i fun node => (node.1, value)) : ∃ old ∈ chain, old.1 = node.1 := by
  obtain ⟨j, slot⟩ := List.mem_iff_getElem?.mp mem
  rw [List.getElem?_modify] at slot
  obtain ⟨old, at_, rfl⟩ := Option.map_eq_some_iff.mp slot
  refine ⟨old, List.mem_of_getElem? at_, ?_⟩
  split <;> rfl

/-! ## Look-ups -/

variable [DecidableEq κ]

theorem Holds.mem_iff (h : Holds hash table chains map lost) {k : κ} {v : ν} :
    (k, v) ∈ chains.flatten ↔ map.get k = some v := by
  rw [h.elements.mem_iff, AssocTable.get_eq_some]

theorem Holds.chain (h : Holds hash table chains map lost) (key : κ) :
    ∃ chain, chains[htHash hash table key]? = some chain ∧ ∀ v, (key, v) ∈ chain ↔
      map.get key = some v := by
  have bound : htHash hash table key < chains.length := h.length ▸ htHash_lt table h.least key
  refine ⟨_, List.getElem?_eq_getElem bound, fun v => ?_⟩
  rw [← h.mem_iff]
  exact (Chains.mem_flatten_iff h.placed (x := (key, v)) (List.getElem?_eq_getElem bound)).symm

theorem findNode_none {chain : List (κ × ν)} {key : κ}
    (alone : ∀ v, (key, v) ∈ chain ↔ map.get key = some v) :
    findNode chain key = none ↔ map.get key = none := by
  rw [findNode, List.findIdx?_eq_none_iff, Option.eq_none_iff_forall_ne_some]
  constructor
  · intro absent v present
    simpa using absent (key, v) ((alone v).mpr present)
  · rintro absent ⟨k, v⟩ mem
    refine decide_eq_false fun same => absent v ((alone v).mp ?_)
    exact same ▸ mem

theorem findNode_some {chain : List (κ × ν)} {key : κ} {i : Nat}
    (alone : ∀ v, (key, v) ∈ chain ↔ map.get key = some v) (found : findNode chain key = some i) :
    ∃ v, chain[i]? = some (key, v) ∧ map.get key = some v := by
  obtain ⟨bound, same, -⟩ := List.findIdx?_eq_some_iff_getElem.mp found
  have key_eq : key = chain[i].1 := by simpa using same
  have slot : chain[i]? = some (key, chain[i].2) := by rw [List.getElem?_eq_getElem bound, key_eq]
  exact ⟨_, slot, (alone _).mp (List.mem_of_getElem? slot)⟩

theorem Holds.lookup (h : Holds hash table chains map lost) (key : κ) :
    htLookup hash table key = some (map.get key) := by
  obtain ⟨chain, at_, alone⟩ := h.chain key
  rw [htLookup, chainOf, h.nodes, Option.bind_some, at_, Option.map_some]
  cases found : findNode chain key with
  | none => rw [(findNode_none alone).mp found, Option.bind_none]
  | some i =>
    obtain ⟨v, slot, present⟩ := findNode_some alone found
    rw [Option.bind_some, slot, present, Option.map_some]

theorem Holds.contains (h : Holds hash table chains map lost) (key : κ) :
    htContains hash table key = some (if (map.get key).isSome then htFound else htNotFound) := by
  obtain ⟨chain, at_, alone⟩ := h.chain key
  rw [htContains, chainOf, h.nodes, Option.bind_some, at_, Option.map_some]
  cases found : findNode chain key with
  | none =>
    rw [(findNode_none alone).mp found]
    rfl
  | some i =>
    obtain ⟨v, -, present⟩ := findNode_some alone found
    rw [present]
    rfl

/-! ## What the calls make of the map -/

/-- The pairs that stay where the chain of a key is cut off. -/
def outside (hash : κ → Nat) (capacity : Nat) (key : κ) (map : AssocTable κ ν) : AssocTable κ ν :=
  map.retain fun k => decide (hash k % capacity ≠ hash key % capacity)

theorem Holds.outside_perm (h : Holds hash table chains map lost) (key : κ) :
    (Chains.others chains (htHash hash table key)).Perm
      (outside hash table.capacity key map).entries := by
  obtain ⟨chain, at_, -⟩ := h.chain key
  have kept : ∀ l : List (κ × ν), l.filter
      (fun e => decide (hash e.1 % table.capacity ≠ hash key % table.capacity)) =
      l.filter fun e => decide (placeIn hash table.capacity e ≠ htHash hash table key) :=
        fun l => rfl
  -- the chain of the slot holds nothing of other slots, and the others nothing of this one
  have within : chain.filter (fun e =>
      decide (placeIn hash table.capacity e ≠ htHash hash table key)) = [] := by
    rw [List.filter_eq_nil_iff]
    intro node mem
    simpa using h.placed _ _ at_ node mem
  have apart : (Chains.others chains (htHash hash table key)).filter
      (fun e => decide (placeIn hash table.capacity e ≠ htHash hash table key))
        = Chains.others chains (htHash hash table key) := by
    rw [List.filter_eq_self]
    intro node mem
    simpa using h.placed.of_mem_others mem
  have filtered := (h.others_perm at_).filter fun e =>
    decide (placeIn hash table.capacity e ≠ htHash hash table key)
  rw [List.filter_append, within, apart, List.nil_append] at filtered
  exact filtered

/-- What `ht_insert` makes of the map, once the array has room. -/
inductive Inserted (hash : κ → Nat) (capacity : Nat) (key : κ) (value : ν) (granted : Bool)
    (map : AssocTable κ ν) (lost : Nat) : Int → AssocTable κ ν → Nat → Prop where
  | updated (present : (map.get key).isSome) : Inserted hash capacity key value granted map lost
      htUpdated (map.set key value) lost
  | inserted (absent : map.get key = none) (given : granted = true) :
      Inserted hash capacity key value granted map lost htInserted (map.set key value) lost
  | cut (absent : map.get key = none) (refused : granted = false) :
      Inserted hash capacity key value granted map lost htError (outside hash capacity key map)
        (lost + (map.entries.length - (outside hash capacity key map).entries.length))

theorem Holds.insertNode (h : Holds hash table chains map lost) (room : table.size < table.capacity)
    (granted : Bool) (key : κ) (value : ν) :
    ∃ code table' chains' map' lost', insertNode hash granted table key value
      = some (code, table') ∧
      Holds hash table' chains' map' lost' ∧ table'.capacity = table.capacity ∧
      Inserted hash table.capacity key value granted map lost code map' lost' := by
  obtain ⟨chain, at_, alone⟩ := h.chain key
  have inChain : ∀ node ∈ chain, placeIn hash table.capacity node = htHash hash table key :=
    h.placed _ _ at_
  have all := h.others_perm at_
  rw [DynHtable.insertNode, h.nodes, Option.bind_some, at_, Option.bind_some]
  cases found : findNode chain key with
  | some i =>
    -- the key is in the chain of its slot: its value is overwritten, whatever `malloc` would say
    obtain ⟨v, slot, present⟩ := findNode_some alone found
    have before := (AssocTable.modify_perm slot id).append_right
      (Chains.others chains (htHash hash table key))
    have after := (AssocTable.modify_perm slot fun node => (node.1, value)).append_right
      (Chains.others chains (htHash hash table key))
    rw [List.modify_id] at before
    have rest : (chain.eraseIdx i ++ Chains.others chains (htHash hash table key)).Perm
        (map.remove key).entries := by
      have both := (before.symm.trans all).trans (AssocTable.entries_perm present)
      simpa using both
    have elements : (chain.modify i (fun node => (node.1, value)) ++
        Chains.others chains (htHash hash table key)).Perm
        (map.set key value).entries :=
      (after.trans (rest.cons (key, value))).trans (AssocTable.entries_set_perm map key value).symm
    have length : (map.set key value).entries.length = map.entries.length := by
      rw [(AssocTable.entries_set_perm map key value).length_eq,
        (AssocTable.entries_perm present).length_eq]
      rfl
    refine ⟨_, _, _, _, _, rfl, h.replace key ?_ elements (length ▸ h.size) h.within, rfl,
      .updated (present ▸ rfl)⟩
    intro node mem
    obtain ⟨old, inside, same⟩ := mem_modify_key mem
    rw [placeIn, ← same]
    exact inChain old inside
  | none =>
    have absent := (findNode_none alone).mp found
    cases granted with
    | true =>
      -- the new node stands in front of the chain
      have elements : ((key, value) :: chain ++ Chains.others chains (htHash hash table key)).Perm
          (map.set key value).entries := by
        refine (all.cons (key, value)).trans ?_
        have := AssocTable.entries_set_perm map key value
        rw [AssocTable.remove_of_get_none absent] at this
        exact this.symm
      have length : (map.set key value).entries.length = map.entries.length + 1 := by
        rw [(AssocTable.entries_set_perm map key value).length_eq,
          AssocTable.remove_of_get_none absent]
        rfl
      have counted : table.size + 1 = (map.set key value).entries.length + lost := by
        rw [length, h.size]
        omega
      simp only [htPushFront, if_true, Chains.pushFront, at_, Option.map_some]
      refine ⟨_, _, _, _, _, rfl, h.replace key ?_ elements counted room, rfl, .inserted absent rfl⟩
      intro node mem
      rcases List.mem_cons.mp mem with rfl | inside
      · rfl
      · exact inChain node inside
    | false =>
      -- the list without memory is `NULL`, so the nodes of the slot are lost; the size counts them
      have elements := h.outside_perm key
      have fewer : (outside hash table.capacity key map).entries.length ≤ map.entries.length :=
        List.length_filter_le ..
      have counted : table.size = (outside hash table.capacity key map).entries.length +
          (lost + (map.entries.length - (outside hash table.capacity key map).entries.length)) := by
        rw [h.size]
        omega
      simp only [htPushFront, Bool.false_eq_true, if_false, at_, Option.map_some]
      exact ⟨_, _, _, _, _, rfl, h.replace key (by simp) elements counted h.within, rfl,
        .cut absent rfl⟩

/-- The capacity of the array that `ht_insert` puts its key into. -/
def grownCapacity (table : DynHtable κ ν) : Nat :=
  if table.size = table.capacity then table.size * htGrowthFactor else table.capacity

omit [DecidableEq κ] in
theorem Holds.shouldGrow (h : Holds hash table chains map lost) :
    htShouldGrow table = some (decide (table.size = table.capacity)) := if_pos h.within

theorem Holds.insert_room (h : Holds hash table chains map lost)
    (room : table.size ≠ table.capacity) (grants : Grants) (key : κ)
    (value : ν) : htInsert hash grants table key value = DynHtable.insertNode hash grants.node table
    key value := by
  rw [htInsert, initialized, h.nodes, Option.bind_some, h.shouldGrow, Option.bind_some,
    decide_eq_false room, if_neg Bool.false_ne_true]

/-- `ht_insert` reads the array that `_ht_resize` could not get. -/
theorem Holds.insert_stuck (h : Holds hash table chains map lost)
    (full : table.size = table.capacity) (few : table.size < 2 ^ 60) (node : Bool) (key : κ)
    (value : ν) : htInsert hash ⟨false, node⟩ table key value = none := by
  have least : 8 ≤ table.capacity := h.least
  have doubled : table.size * htGrowthFactor = table.size * 2 := rfl
  have same : table.size * htGrowthFactor % 2 ^ 64 = table.size * htGrowthFactor :=
    Nat.mod_eq_of_lt (by omega)
  have large : ¬ (table.size * htGrowthFactor < htMinimumCapacity ∧
      table.capacity ≤ htMinimumCapacity) := fun small => by
    have := show table.size * htGrowthFactor < 8 from small.1
    omega
  rw [htInsert, initialized, h.nodes, Option.bind_some, h.shouldGrow, Option.bind_some,
    decide_eq_true full, if_pos rfl,
    htAdjustCapacity, same, htResize_refused large, Option.bind_some]
  rfl

theorem Holds.insert (h : Holds hash table chains map lost) (few : table.size < 2 ^ 60)
    (granted : Bool) (key : κ) (value : ν) :
    ∃ code table' chains' map' lost', htInsert hash ⟨true, granted⟩ table key value
      = some (code, table') ∧
      Holds hash table' chains' map' lost' ∧ table'.capacity = grownCapacity table ∧
      Inserted hash (grownCapacity table) key value granted map lost code map' lost' := by
  rw [grownCapacity]
  by_cases full : table.size = table.capacity
  · have least : 8 ≤ table.capacity := h.least
    have doubled : table.size * htGrowthFactor = table.size * 2 := rfl
    -- a full table doubles first; below `2 ^ 60` nodes the product fits
    have same : table.size * htGrowthFactor % 2 ^ 64 = table.size * htGrowthFactor :=
      Nat.mod_eq_of_lt (by omega)
    obtain ⟨grown, chains₁, resized, held, capacity⟩ :=
      h.resize (show table.size * htGrowthFactor < 2 ^ 61 by omega) (.inl (by omega))
    have large : htMinimumCapacity ≤ table.size * htGrowthFactor :=
      show 8 ≤ table.size * htGrowthFactor by omega
    have grew : grown.capacity = table.size * htGrowthFactor := by
      rw [capacity, resizedCapacity, if_neg fun small => Nat.not_lt.mpr large small.1,
        Nat.max_eq_left large]
    have kept : grown.size = table.size := by rw [held.size, h.size]
    obtain ⟨code, table', chains', map', lost', done, held', unchanged, made⟩ :=
      held.insertNode (by omega) granted key value
    refine ⟨code, table', chains', map', lost', ?_, held', by rw [unchanged, grew, if_pos full], ?_⟩
    · rw [htInsert, initialized, h.nodes, Option.bind_some, h.shouldGrow, Option.bind_some,
        decide_eq_true full, if_pos rfl, htAdjustCapacity, same, resized, Option.bind_some, done]
    · rwa [if_pos full, ← grew]
  · obtain ⟨code, table', chains', map', lost', done, held', kept, made⟩ := h.insertNode
      (Nat.lt_of_le_of_ne h.within full) granted key value
    exact ⟨code, table', chains', map', lost', (h.insert_room full _ key value).trans done,
      held', by rw [kept, if_neg full], by rwa [if_neg full]⟩

/-- `ht_erase` of a key that is absent, and of one that is present, up to the array it may ask
    for. -/
theorem Holds.erase_cases (h : Holds hash table chains map lost) (key : κ) :
    (map.get key = none ∧ ∀ granted, htErase hash granted table key = some (htNotFound, table)) ∨
      ((map.get key).isSome ∧ ∃ erased chains', Holds hash erased chains' (map.remove key) lost ∧
        erased.capacity = table.capacity ∧
          ∀ granted, htErase hash granted table key = shrunk hash granted erased) := by
  obtain ⟨chain, at_, alone⟩ := h.chain key
  simp only [htErase, h.nodes, Option.bind_some, at_]
  cases found : findNode chain key with
  | none => exact .inl ⟨(findNode_none alone).mp found, fun _ => rfl⟩
  | some i =>
    obtain ⟨v, slot, present⟩ := findNode_some alone found
    have before := (AssocTable.modify_perm slot id).append_right
      (Chains.others chains (htHash hash table key))
    rw [List.modify_id] at before
    have elements : (chain.eraseIdx i ++ Chains.others chains (htHash hash table key)).Perm
        (map.remove key).entries := by
      have both := (before.symm.trans (h.others_perm at_)).trans (AssocTable.entries_perm present)
      simpa using both
    have length : map.entries.length = (map.remove key).entries.length + 1 :=
      (AssocTable.entries_perm present).length_eq
    -- the size counts one less, and lost pairs as before
    have counted : table.size - 1 = (map.remove key).entries.length + lost := by
      rw [h.size, length]
      omega
    have erased :=
      h.replace key (fun node mem => h.placed _ _ at_ node (List.mem_of_mem_eraseIdx mem)) elements
        counted
      (Nat.le_trans (Nat.sub_le _ _) h.within)
    exact .inr ⟨present ▸ rfl, _, _, erased, rfl, fun _ => rfl⟩

theorem Holds.erase (h : Holds hash table chains map lost) (key : κ) :
    ∃ table' chains', htErase hash true table key = some (htSuccess, table') ∧
      Holds hash table' chains' (map.remove key) lost := by
  rcases h.erase_cases key with ⟨absent, done⟩ | ⟨-, erased, chains', held, -, done⟩
  · exact ⟨table, chains, done true, (AssocTable.remove_of_get_none absent).symm ▸ h⟩
  · obtain ⟨table', chains'', made, held', -⟩ := held.shrink
    exact ⟨table', chains'', (done true).trans made, held'⟩

end DynHtable

end Soter2.Base
