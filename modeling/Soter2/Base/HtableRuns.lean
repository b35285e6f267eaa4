import Mathlib.Tactic.Common
import Soter2.Base.DynHtable
import Soter2.Library.Machine

/-! # Runs of hash tables (`base/src/base/dyn_htable.c`)

Any number of tables, and calls on them in any order.

* `tables_refine_maps` — with memory for every request, the tables are finite maps, whatever the
  hash function and however often an array is rebuilt.
* `table_survives_refusals` — one table whose requests for nodes may be refused.
-/

namespace Soter2.Base.DynHtable

variable {ι κ ν : Type*} [DecidableEq κ] (hash : κ → Nat)

inductive Answer (ν : Type*) where
  | code (r : Int)
  | pointer (value : Option ν)
  deriving DecidableEq

section Tables

variable [DecidableEq ι]

/-- A call on the tables with these names. -/
inductive TableCall (ι κ ν : Type*) where
  | setup (t : ι) (capacity : Nat)
  | insert (t : ι) (key : κ) (value : ν)
  | contains (t : ι) (key : κ)
  | lookup (t : ι) (key : κ)
  | erase (t : ι) (key : κ)
  | clear (t : ι)
  | reserve (t : ι) (minimumCapacity : Nat)
  | isEmpty (t : ι)
  | copy (first second : ι)
  | move (first second : ι)
  | swap (first second : ι)

/-- The answer of a call that changes one table. -/
def onTable (tables : ι → DynHtable κ ν) (t : ι) (done : Option (Int × DynHtable κ ν)) :
    Option (Answer ν × (ι → DynHtable κ ν)) :=
  done.map fun done => (.code done.1, Function.update tables t done.2)

/-- A call with memory for all it asks for; the two tables of a call are different ones. -/
def perform (tables : ι → DynHtable κ ν) : TableCall ι κ ν → Option (Answer ν × (ι → DynHtable κ ν))
  | .setup t capacity => onTable tables t (some (htSetup true (tables t) capacity))
  | .insert t key value => onTable tables t (htInsert hash ⟨true, true⟩ (tables t) key value)
  | .contains t key => (htContains hash (tables t) key).map fun r => (.code r, tables)
  | .lookup t key => (htLookup hash (tables t) key).map fun value => (.pointer value, tables)
  | .erase t key => onTable tables t (htErase hash true (tables t) key)
  | .clear t => onTable tables t (htClear true (tables t))
  | .reserve t minimumCapacity => onTable tables t (htReserve hash true (tables t) minimumCapacity)
  | .isEmpty t => some (.code (if htIsEmpty (tables t) then 1 else 0), tables)
  | .copy first second =>
    if first = second then none
    else onTable tables first (htCopy true (tables first) (tables second))
  | .move first second =>
    if first = second then none
    else
      (htMove (tables second)).map fun moved =>
        (.code htSuccess, Function.update (Function.update tables second moved.2) first moved.1)
  | .swap first second =>
    if first = second then none
    else
      (htSwap (tables first) (tables second)).map fun swapped =>
        (.code htSuccess, Function.update (Function.update tables second swapped.2) first swapped.1)

/-! ## The maps -/

/-- The answer of a call that changes one map, which is none where the table has no array. -/
def onMap (maps : ι → Option (AssocTable κ ν)) (t : ι) (f : AssocTable κ ν → Int × AssocTable κ ν) :
    Option (Answer ν × (ι → Option (AssocTable κ ν))) :=
  (maps t).map fun map => (.code (f map).1, Function.update maps t (some (f map).2))

/-- The same calls on finite maps. -/
def mapCall (maps : ι → Option (AssocTable κ ν)) :
    TableCall ι κ ν → Option (Answer ν × (ι → Option (AssocTable κ ν)))
  | .setup t _ => some (.code htSuccess, Function.update maps t (some AssocTable.empty))
  | .insert t key value =>
    onMap maps t fun map => (if (map.get key).isSome then htUpdated else htInserted,
      map.set key value)
  | .contains t key =>
    (maps t).map fun map => (.code (if (map.get key).isSome then htFound else htNotFound), maps)
  | .lookup t key => (maps t).map fun map => (.pointer (map.get key), maps)
  | .erase t key => onMap maps t fun map => (htSuccess, map.remove key)
  | .clear t => onMap maps t fun _ => (htSuccess, AssocTable.empty)
  | .reserve t _ => onMap maps t fun map => (htSuccess, map)
  | .isEmpty t => (maps t).map fun map => (.code (if map.entries = [] then 1 else 0), maps)
  | .copy first second =>
    if first = second then none
    else (maps second).map fun map => (.code htSuccess, Function.update maps first (some map))
  | .move first second =>
    if first = second then none
    else
      (maps second).map fun map => (.code htSuccess,
        Function.update (Function.update maps second none) first (some map))
  | .swap first second =>
    if first = second then none
    else
      (maps first).bind fun one =>
        (maps second).map fun other =>
          (.code htSuccess, Function.update (Function.update maps second (some one)) first
            (some other))

/-- Each table with an array holds its map, and has lost nothing. -/
def Represents (tables : ι → DynHtable κ ν) (maps : ι → Option (AssocTable κ ν)) : Prop :=
  ∀ t map, maps t = some map → ∃ chains, Holds hash (tables t) chains map 0

/-- The arrays stay below `2^61` slots, and two tables that are swapped have arrays of one size. -/
def Fits (tables : ι → DynHtable κ ν) : TableCall ι κ ν → Prop
  | .setup _ capacity => capacity < 2 ^ 61
  | .insert t _ _ => (tables t).size < 2 ^ 60
  | .reserve _ minimumCapacity => minimumCapacity / htLoadFactor < 2 ^ 61
  | .swap first second => (tables first).capacity = (tables second).capacity
  | _ => True

instance (tables : ι → DynHtable κ ν) : (call : TableCall ι κ ν) → Decidable (Fits tables call)
  | .setup _ _ | .insert _ _ _ | .reserve _ _ => inferInstanceAs (Decidable (_ < _))
  | .swap _ _ => inferInstanceAs (Decidable (_ = _))
  | .contains _ _ | .lookup _ _ | .erase _ _ | .clear _ | .isEmpty _ | .copy _ _ | .move _ _ =>
    .isTrue trivial

section

variable {hash} {tables : ι → DynHtable κ ν} {maps : ι → Option (AssocTable κ ν)}

omit [DecidableEq κ] in
theorem Represents.update (h : Represents hash tables maps) {t : ι} {table : DynHtable κ ν}
    {map : Option (AssocTable κ ν)}
    (holds : ∀ m, map = some m → ∃ chains, Holds hash table chains m 0) :
    Represents hash (Function.update tables t table) (Function.update maps t map) := by
  intro u m there
  by_cases same : u = t
  · subst same
    rw [Function.update_self] at there ⊢
    exact holds m there
  · rw [Function.update_of_ne same] at there ⊢
    exact h u m there

omit [DecidableEq κ] in
/-- A call on one table whose map is `map`. -/
theorem Represents.onTable (h : Represents hash tables maps) {t : ι}
    {done : Option (Int × DynHtable κ ν)} {f : AssocTable κ ν → Int × AssocTable κ ν} {o : Answer ν}
    {maps' : ι → Option (AssocTable κ ν)} (asked : onMap maps t f = some (o, maps'))
    (made : ∀ map chains, Holds hash (tables t) chains map 0 →
      ∃ table' chains', done = some ((f map).1, table') ∧ Holds hash table' chains' (f map).2 0) :
    ∃ tables', onTable tables t done = some (o, tables') ∧ Represents hash tables' maps' := by
  obtain ⟨map, there, eq⟩ := Option.map_eq_some_iff.mp asked
  obtain ⟨rfl, rfl⟩ := Prod.mk.inj eq
  obtain ⟨chains, held⟩ := h t map there
  obtain ⟨table', chains', rfl, held'⟩ := made map chains held
  refine ⟨_, rfl, h.update ?_⟩
  intro m same
  exact ⟨chains', Option.some.inj same ▸ held'⟩

theorem Holds.insert_granted {table : DynHtable κ ν} {chains : List (List (κ × ν))}
    {map : AssocTable κ ν} {lost : Nat} (h : Holds hash table chains map lost)
    (few : table.size < 2 ^ 60) (key : κ) (value : ν) :
    ∃ table' chains', htInsert hash ⟨true, true⟩ table key value =
        some (if (map.get key).isSome then htUpdated else htInserted, table') ∧
      Holds hash table' chains' (map.set key value) lost := by
  obtain ⟨code, table', chains', map', lost', done, held, -, made⟩ := h.insert few true key value
  cases made with
  | updated present => exact ⟨table', chains', by rw [done, if_pos present], held⟩
  | inserted absent given => exact ⟨table', chains', by rw [done, absent]; rfl, held⟩
  | cut absent refused => cases refused

omit [DecidableEq κ] in
theorem Holds.isEmpty {table : DynHtable κ ν} {chains : List (List (κ × ν))} {map : AssocTable κ ν}
    (h : Holds hash table chains map 0) : htIsEmpty table = decide (map.entries.length = 0) := by
  rw [htIsEmpty, h.size, Nat.add_zero]

omit [DecidableEq ι] [DecidableEq κ] in
theorem Represents.reads (h : Represents hash tables maps) {t : ι} {α : Type*} {read : Option α}
    {f : AssocTable κ ν → α} {answer : α → Answer ν} {o : Answer ν}
    {maps' : ι → Option (AssocTable κ ν)}
    (asked : ((maps t).map fun map => (answer (f map), maps)) = some (o, maps'))
    (made : ∀ map chains, Holds hash (tables t) chains map 0 → read = some (f map)) :
    ∃ tables', (read.map fun a => (answer a, tables)) = some (o, tables') ∧
      Represents hash tables' maps' := by
  obtain ⟨map, there, eq⟩ := Option.map_eq_some_iff.mp asked
  obtain ⟨rfl, rfl⟩ := Prod.mk.inj eq
  obtain ⟨chains, held⟩ := h t map there
  exact ⟨tables, by rw [made map chains held, Option.map_some], h⟩

theorem Represents.copies (h : Represents hash tables maps) {first second : ι} {o : Answer ν}
    {maps' : ι → Option (AssocTable κ ν)}
    (asked : mapCall maps (.copy first second) = some (o, maps')) :
    ∃ tables', perform hash tables (.copy first second) = some (o, tables') ∧
      Represents hash tables' maps' := by
  simp only [mapCall, perform] at asked ⊢
  split at asked
  next => cases asked
  next apart =>
    obtain ⟨map, there, eq⟩ := Option.map_eq_some_iff.mp asked
    obtain ⟨rfl, rfl⟩ := Prod.mk.inj eq
    obtain ⟨chains, held⟩ := h second map there
    obtain ⟨table', chains', copied, held'⟩ := held.copy (tables first)
    refine ⟨_, by rw [if_neg apart, DynHtable.onTable, copied, Option.map_some], h.update ?_⟩
    intro m same
    exact ⟨chains', Option.some.inj same ▸ held'⟩

theorem Represents.moves (h : Represents hash tables maps) {first second : ι} {o : Answer ν}
    {maps' : ι → Option (AssocTable κ ν)}
    (asked : mapCall maps (.move first second) = some (o, maps')) :
    ∃ tables', perform hash tables (.move first second) = some (o, tables') ∧
      Represents hash tables' maps' := by
  simp only [mapCall, perform] at asked ⊢
  split at asked
  next => cases asked
  next apart =>
    obtain ⟨map, there, eq⟩ := Option.map_eq_some_iff.mp asked
    obtain ⟨rfl, rfl⟩ := Prod.mk.inj eq
    obtain ⟨chains, held⟩ := h second map there
    refine ⟨_, by rw [if_neg apart, htMove, initialized, held.nodes]; rfl, ?_⟩
    refine (h.update (t := second) (fun m none_ => by cases none_)).update ?_
    intro m same
    exact ⟨chains, Option.some.inj same ▸ held⟩

omit [DecidableEq κ] in
/-- A table with the array of another one of its capacity. -/
theorem Holds.exchanged {table other : DynHtable κ ν} {chains : List (List (κ × ν))}
    {map : AssocTable κ ν} {lost : Nat} (h : Holds hash other chains map lost)
    (capacity : table.capacity = other.capacity) (threshold : table.threshold = other.threshold) :
    Holds hash { table with size := other.size, nodes := other.nodes } chains map lost where
  nodes := h.nodes
  length := h.length.trans capacity.symm
  least := capacity ▸ h.least
  fits := capacity ▸ h.fits
  threshold := by rw [threshold, capacity]; exact h.threshold
  placed := capacity ▸ h.placed
  elements := h.elements
  size := h.size
  within := capacity ▸ h.within

theorem Represents.swaps (h : Represents hash tables maps) {first second : ι}
    (fits : (tables first).capacity = (tables second).capacity) {o : Answer ν}
    {maps' : ι → Option (AssocTable κ ν)}
    (asked : mapCall maps (.swap first second) = some (o, maps')) :
    ∃ tables', perform hash tables (.swap first second) = some (o, tables') ∧
      Represents hash tables' maps' := by
  simp only [mapCall, perform] at asked ⊢
  split at asked
  next => cases asked
  next apart =>
    obtain ⟨one, here, inner⟩ := Option.bind_eq_some_iff.mp asked
    obtain ⟨other, there, eq⟩ := Option.map_eq_some_iff.mp inner
    obtain ⟨rfl, rfl⟩ := Prod.mk.inj eq
    obtain ⟨chains, held⟩ := h first one here
    obtain ⟨chains', held'⟩ := h second other there
    -- the thresholds stay where they are, so the capacities have to agree
    have threshold : (tables first).threshold = (tables second).threshold := by
      rw [held.threshold, held'.threshold, fits]
    refine ⟨_, by
      rw [if_neg apart, htSwap, initialized, held.nodes, Option.bind_some, initialized,
        held'.nodes]; rfl, ?_⟩
    refine (h.update (t := second) ?_).update ?_
    · intro m same
      rw [← held.nodes]
      exact ⟨chains, Option.some.inj same ▸ held.exchanged fits.symm threshold.symm⟩
    · intro m same
      rw [← held'.nodes]
      exact ⟨chains', Option.some.inj same ▸ held'.exchanged fits threshold⟩

theorem perform_simulates (h : Represents hash tables maps) {call : TableCall ι κ ν}
    (fits : Fits tables call) {o : Answer ν} {maps' : ι → Option (AssocTable κ ν)}
    (asked : mapCall maps call = some (o, maps')) :
    ∃ tables', perform hash tables call = some (o, tables') ∧ Represents hash tables' maps' := by
  cases call with
  | setup t capacity =>
    cases asked
    obtain ⟨table', chains', done, held, -⟩ := htSetup_granted hash (tables t) fits
    refine ⟨_, by rw [perform, done]; rfl, h.update ?_⟩
    intro m same
    -- the new table stands for the empty map
    exact ⟨chains', Option.some.inj same ▸ held⟩
  | insert t key value =>
    exact h.onTable asked fun map chains held => held.insert_granted fits key value
  | contains t key =>
    exact h.reads (f := fun map => if (map.get key).isSome then htFound else htNotFound) asked
      fun map chains held => held.contains key
  | lookup t key =>
    exact h.reads (f := fun map => map.get key) asked fun map chains held => held.lookup key
  | erase t key => exact h.onTable asked fun map chains held => held.erase key
  | clear t =>
    refine h.onTable asked fun map chains held => ?_
    obtain ⟨table', chains', done, held', -⟩ := held.clear
    exact ⟨table', chains', done, held'⟩
  | reserve t minimumCapacity =>
    refine h.onTable asked fun map chains held => ?_
    obtain ⟨table', chains', done, held', -⟩ := held.reserve fits
    exact ⟨table', chains', done, held'⟩
  | isEmpty t =>
    obtain ⟨map, there, eq⟩ := Option.map_eq_some_iff.mp asked
    obtain ⟨rfl, rfl⟩ := Prod.mk.inj eq
    obtain ⟨chains, held⟩ := h t map there
    exact ⟨tables, by simp only [perform, held.isEmpty, List.length_eq_zero_iff, decide_eq_true_eq],
      h⟩
  | copy first second => exact h.copies asked
  | move first second => exact h.moves asked
  | swap first second => exact h.swaps fits asked

/-- Whatever calls are made on tables that start without an array, those that make sense on finite
    maps have a result, and are answered as by the maps. -/
theorem tables_refine_maps {calls : List (TableCall ι κ ν)} {answers : List (Answer ν)}
    {maps : ι → Option (AssocTable κ ν)}
    (fits : Machine.Meets (perform hash) Fits (fun _ => htInitializer) calls)
    (ran : Machine.runOption mapCall (fun _ => none) calls = some (answers, maps)) :
    ∃ tables, Machine.runOption (perform hash) (fun _ => htInitializer) calls
      = some (answers, tables) ∧
      ∀ t map, maps t = some map → ∀ key, htLookup hash (tables t) key = some (map.get key) ∧
        (tables t).size = map.entries.length := by
  have start : Represents hash (fun _ : ι => (htInitializer : DynHtable κ ν)) fun _ => none :=
    fun _ _ none_ => by cases none_
  obtain ⟨tables, done, represents⟩ := Machine.runOption_refines
    (fun s t i o t' related (ok : Fits s i) stepped => perform_simulates related ok stepped) start
      fits ran
  refine ⟨tables, done, fun t map there key => ?_⟩
  obtain ⟨chains, held⟩ := represents t map there
  exact ⟨held.lookup key, held.size⟩

/-- Two keys in one slot, and a copy that does not see what happens to the original. -/
def copiedTable : List (TableCall Bool Nat Nat) :=
  [.setup true 0, .insert true 1 5, .insert true 9 6, .copy false true, .erase true 1,
    .insert false 9 7, .lookup true 1, .lookup false 1, .lookup false 9]

theorem tables_refine_maps_copy : ∃ maps, Machine.runOption mapCall (fun _ => none) copiedTable =
      some ([.code 0, .code 0, .code 0, .code 0, .code 0, .code 1, .pointer none, .pointer (some 5),
        .pointer (some 7)], maps) ∧
    ∃ tables, Machine.runOption (perform id) (fun _ => htInitializer) copiedTable =
        some ([.code 0, .code 0, .code 0, .code 0, .code 0, .code 1, .pointer none,
          .pointer (some 5), .pointer (some 7)], tables) ∧
      ∀ t map, maps t = some map → ∀ key, htLookup id (tables t) key = some (map.get key) ∧
        (tables t).size = map.entries.length :=
  ⟨_, rfl, tables_refine_maps (by decide) rfl⟩

end

end Tables

/-! ## Requests that are refused -/

/-- A call on one table, with what becomes of its requests. -/
inductive RefusableCall (κ ν : Type*) where
  | setup (array : Bool) (capacity : Nat)
  | insert (array node : Bool) (key : κ) (value : ν)
  | contains (key : κ)
  | lookup (key : κ)
  | erase (array : Bool) (key : κ)
  | clear (array : Bool)
  | reserve (array : Bool) (minimumCapacity : Nat)
  | isEmpty

/-- The answer and the table of a call that changes it. -/
def answered (done : Option (Int × DynHtable κ ν)) : Option (Answer ν × DynHtable κ ν) :=
  done.map fun done => (.code done.1, done.2)

def performOne (table : DynHtable κ ν) : RefusableCall κ ν → Option (Answer ν × DynHtable κ ν)
  | .setup array capacity => answered (some (htSetup array table capacity))
  | .insert array node key value => answered (htInsert hash ⟨array, node⟩ table key value)
  | .contains key => (htContains hash table key).map fun r => (.code r, table)
  | .lookup key => (htLookup hash table key).map fun value => (.pointer value, table)
  | .erase array key => answered (htErase hash array table key)
  | .clear array => answered (htClear array table)
  | .reserve array minimumCapacity => answered (htReserve hash array table minimumCapacity)
  | .isEmpty => some (.code (if htIsEmpty table then 1 else 0), table)

/-- What such a table is: a map, the capacity of its array and the number of pairs that were cut
    off; or, where an array was refused, only the size it had. -/
inductive Shape (κ ν : Type*) where
  | live (map : AssocTable κ ν) (capacity lost : Nat)
  | broken (size : Nat)

namespace Shape

/-- An array of another capacity, if it is granted. -/
def rebuilt (array : Bool) (map : AssocTable κ ν) (capacity lost : Nat) : Int × Shape κ ν :=
  if array then (htSuccess, live map capacity lost)
  else (htError, broken (map.entries.length + lost))

def insertInto (node : Bool) (key : κ) (value : ν) (map : AssocTable κ ν) (capacity lost : Nat) :
    Int × Shape κ ν :=
  if (map.get key).isSome then (htUpdated, live (map.set key value) capacity lost)
  else if node then (htInserted, live (map.set key value) capacity lost)
  else
    let kept := outside hash capacity key map
    (htError, live kept capacity (lost + (map.entries.length - kept.entries.length)))

def call : Shape κ ν → RefusableCall κ ν → Option (Answer ν × Shape κ ν)
  | live _ _ _, .setup true capacity | broken _, .setup true capacity =>
    some (.code htSuccess, live AssocTable.empty (max capacity htMinimumCapacity) 0)
  | live map _ lost, .setup false _ => some (.code htError, broken (map.entries.length + lost))
  | broken size, .setup false _ => some (.code htError, broken size)
  | live map capacity lost, .insert array node key value =>
    if map.entries.length + lost < capacity then
      some ((insertInto hash node key value map capacity lost).map .code id)
    else if array then
      some ((insertInto hash node key value map (capacity * htGrowthFactor) lost).map .code id)
    else none
  | live map capacity lost, .contains key =>
    some (.code (if (map.get key).isSome then htFound else htNotFound), live map capacity lost)
  | live map capacity lost, .lookup key => some (.pointer (map.get key), live map capacity lost)
  | live map capacity lost, .erase array key =>
    if (map.get key).isSome ∧ (map.remove key).entries.length + lost = 0 ∧
      htMinimumCapacity < capacity then
      some ((rebuilt array (map.remove key) htMinimumCapacity lost).map .code id)
    else some (.code htSuccess, live (map.remove key) capacity lost)
  | live _ _ _, .clear true => some (.code htSuccess, live AssocTable.empty htMinimumCapacity 0)
  | live _ _ _, .clear false => some (.code htSuccess, broken 0)
  | live map capacity lost, .reserve array minimumCapacity =>
    if minimumCapacity > capacity * htLoadFactor then
      some ((rebuilt array map (minimumCapacity / htLoadFactor) lost).map .code id)
    else some (.code htSuccess, live map capacity lost)
  | live map capacity lost, .isEmpty =>
    some (.code (if map.entries.length + lost = 0 then 1 else 0), live map capacity lost)
  | broken size, .isEmpty => some (.code (if size = 0 then 1 else 0), broken size)
  | broken _, _ => none

end Shape

/-- The array of the table has fewer than `2^61` slots after the call, too. -/
def FitsOne (table : DynHtable κ ν) : RefusableCall κ ν → Prop
  | .setup _ capacity => capacity < 2 ^ 61
  | .insert _ _ _ _ => table.size < 2 ^ 60
  | .reserve _ minimumCapacity => minimumCapacity / htLoadFactor < 2 ^ 61
  | _ => True

instance (table : DynHtable κ ν) : (call : RefusableCall κ ν) → Decidable (FitsOne table call)
  | .setup _ _ | .insert _ _ _ _ | .reserve _ _ => inferInstanceAs (Decidable (_ < _))
  | .contains _ | .lookup _ | .erase _ _ | .clear _ | .isEmpty => .isTrue trivial

/-- A table of the shape. -/
inductive Shaped (hash : κ → Nat) (table : DynHtable κ ν) : Shape κ ν → Prop where
  | live {chains : List (List (κ × ν))} {map : AssocTable κ ν} {lost : Nat}
      (holds : Holds hash table chains map lost) :
      Shaped hash table (.live map table.capacity lost)
  | broken (nodes : table.nodes = none) : Shaped hash table (.broken table.size)

variable {hash} {table : DynHtable κ ν} {chains : List (List (κ × ν))} {map : AssocTable κ ν}
    {lost : Nat}

/-- Both machines go on with the same answer, or neither does. -/
inductive Agrees (hash : κ → Nat) (table : DynHtable κ ν) (shape : Shape κ ν)
    (call : RefusableCall κ ν) : Prop where
  | goes {o : Answer ν} {table' : DynHtable κ ν} {shape' : Shape κ ν}
      (done : performOne hash table call = some (o, table'))
      (called : Shape.call hash shape call = some (o, shape')) (shaped : Shaped hash table' shape')
  | stops (done : performOne hash table call = none) (called : Shape.call hash shape call = none)

omit [DecidableEq κ] in
theorem Holds.shaped (h : Holds hash table chains map lost) {capacity : Nat}
    (same : table.capacity = capacity) :
    Shaped hash table (.live map capacity lost) := same ▸ .live h

omit [DecidableEq κ] in
theorem shaped_broken {size : Nat} (same : table.size = size) :
    Shaped hash ({ table with nodes := none } : DynHtable κ ν) (.broken size) :=
  same ▸ .broken rfl

theorem Inserted.answer {capacity : Nat} {key : κ} {value : ν} {node : Bool} {code : Int}
    {map' : AssocTable κ ν} {lost' : Nat}
    (made : Inserted hash capacity key value node map lost code map' lost') :
    Shape.insertInto hash node key value map capacity lost = (code, .live map' capacity lost') := by
  cases made with
  | updated present => rw [Shape.insertInto, if_pos present]
  | inserted absent given => rw [Shape.insertInto, absent, given]; rfl
  | cut absent refused => rw [Shape.insertInto, absent, refused]; rfl

theorem Holds.agrees_insert (h : Holds hash table chains map lost) (few : table.size < 2 ^ 60)
    (array node : Bool) (key : κ) (value : ν) :
    Agrees hash table (.live map table.capacity lost) (.insert array node key value) := by
  by_cases full : table.size = table.capacity
  · -- full, counting the pairs that are lost: a larger array is needed
    have stuffed : ¬ map.entries.length + lost < table.capacity := by
      rw [← h.size, full]
      exact Nat.lt_irrefl _
    cases array with
    | true =>
      obtain ⟨code, table', chains', map', lost', done, held, capacity, made⟩ :=
        h.insert few node key value
      rw [grownCapacity, if_pos full, full] at capacity made
      refine .goes (by rw [performOne, done]; rfl) ?_ (held.shaped capacity)
      rw [Shape.call, if_neg stuffed, if_pos rfl, made.answer]
      rfl
    | false =>
      refine .stops ?_ (by rw [Shape.call, if_neg stuffed, if_neg Bool.false_ne_true])
      rw [performOne, h.insert_stuck full few]
      rfl
  · have room : map.entries.length + lost < table.capacity := by
      rw [← h.size]
      exact Nat.lt_of_le_of_ne h.within full
    obtain ⟨code, table', chains', map', lost', done, held, capacity, made⟩ :=
      h.insertNode (Nat.lt_of_le_of_ne h.within full)
      node key value
    refine .goes (by rw [performOne, h.insert_room full, done]; rfl) ?_ (held.shaped capacity)
    rw [Shape.call, if_pos room, made.answer]
    rfl

theorem Holds.agrees_erase (h : Holds hash table chains map lost) (array : Bool) (key : κ) :
    Agrees hash table (.live map table.capacity lost) (.erase array key) := by
  rcases h.erase_cases key with ⟨absent, done⟩ | ⟨present, erased, chains', held, capacity, done⟩
  · -- the key is unknown, and no array is asked for
    refine .goes (by rw [performOne, done]; rfl) ?_ (.live h)
    rw [Shape.call, absent, if_neg fun shrinks => Bool.false_ne_true shrinks.1,
      AssocTable.remove_of_get_none absent]
  · have counted : (map.remove key).entries.length + lost = 0 ↔ erased.size = 0 := by rw [held.size]
    by_cases shrinks : Shrinks erased
    · -- the last pair is gone: the table shrinks to the least capacity
      have asked : (map.get key).isSome ∧ (map.remove key).entries.length + lost = 0 ∧
          htMinimumCapacity < table.capacity :=
        ⟨present, counted.mpr shrinks.1, capacity ▸ shrinks.2⟩
      cases array with
      | true =>
        obtain ⟨table', chains'', made, held', least⟩ := held.shrink
        rw [if_pos shrinks.1] at least
        refine .goes (by rw [performOne, done, made]; rfl) ?_ (held'.shaped least)
        rw [Shape.call, if_pos asked]
        rfl
      | false =>
        refine .goes (by rw [performOne, done, held.shrink_refused.1 shrinks]; rfl)
          ?_ (shaped_broken held.size)
        rw [Shape.call, if_pos asked]
        rfl
    · -- some pair is left, or the table is as small as it gets
      have stays : ¬ ((map.get key).isSome ∧ (map.remove key).entries.length + lost = 0 ∧
          htMinimumCapacity < table.capacity) :=
        fun asked => shrinks ⟨counted.mp asked.2.1, capacity ▸ asked.2.2⟩
      cases array with
      | true =>
        obtain ⟨table', chains'', made, held', same⟩ := held.shrink
        have kept : table'.capacity = table.capacity := by
          rw [same, ← capacity]
          split
          next empty =>
            have small : erased.capacity ≤ htMinimumCapacity := Nat.not_lt.mp fun large =>
              shrinks ⟨empty, large⟩
            exact Nat.le_antisymm held.least small
          next => rfl
        refine .goes (by rw [performOne, done, made]; rfl) ?_ (held'.shaped kept)
        rw [Shape.call, if_neg stays]
      | false =>
        refine .goes (by rw [performOne, done, held.shrink_refused.2 shrinks]; rfl)
          ?_ (held.shaped capacity)
        rw [Shape.call, if_neg stays]

theorem Holds.agrees_reserve (h : Holds hash table chains map lost) (array : Bool)
    {minimumCapacity : Nat} (fits : minimumCapacity / htLoadFactor < 2 ^ 61) :
    Agrees hash table (.live map table.capacity lost) (.reserve array minimumCapacity) := by
  by_cases more : minimumCapacity > table.capacity * htLoadFactor
  · cases array with
    | true =>
      obtain ⟨table', chains', done, held, capacity⟩ := h.reserve fits
      rw [if_pos more] at capacity
      refine .goes (by rw [performOne, done]; rfl) ?_ (held.shaped capacity)
      rw [Shape.call, if_pos more]
      rfl
    | false =>
      -- more than the threshold is asked for, so the capacity is not below the least one
      have wanted : ¬ (minimumCapacity / htLoadFactor < htMinimumCapacity ∧
          table.capacity ≤ htMinimumCapacity) := fun small => by
        have least : 8 ≤ table.capacity := h.least
        have few : minimumCapacity / 5 < 8 := small.1
        have many : minimumCapacity > table.capacity * 5 := more
        omega
      refine .goes (o := .code htError) ?_ ?_ (shaped_broken h.size)
      · have beyond : minimumCapacity > table.threshold := h.threshold ▸ more
        rw [performOne, htReserve, initialized, h.nodes, Option.bind_some, if_pos beyond,
          htResize_refused wanted]
        rfl
      · rw [Shape.call, if_pos more]
        rfl
  · refine .goes (o := .code htSuccess) ?_ ?_ (.live h)
    · have within : ¬ minimumCapacity > table.threshold := h.threshold ▸ more
      rw [performOne, htReserve, initialized, h.nodes, Option.bind_some, if_neg within]
      rfl
    · rw [Shape.call, if_neg more]

theorem agrees_setup {shape : Shape κ ν} (shaped : Shaped hash table shape) (array : Bool)
    {capacity : Nat} (fits : capacity < 2 ^ 61) :
    Agrees hash table shape (.setup array capacity) := by
  cases array with
  | true =>
    obtain ⟨table', chains', done, held, same⟩ := htSetup_granted hash table fits
    refine .goes (by rw [performOne, done]; rfl) ?_ (held.shaped same)
    cases shaped <;> rfl
  | false =>
    cases shaped with
    | live h => exact .goes rfl rfl (shaped_broken h.size)
    | broken nodes => exact .goes rfl rfl (.broken rfl)

theorem agrees_broken (nodes : table.nodes = none) (call : RefusableCall κ ν)
    (other : ∀ array capacity, call ≠ .setup array capacity) :
    Agrees hash table (.broken table.size) call := by
  cases call with
  | setup array capacity => exact absurd rfl (other array capacity)
  | isEmpty => exact .goes rfl (by simp [Shape.call, htIsEmpty]) (.broken nodes)
  | _ =>
    exact .stops
      (by
        simp [performOne, answered, htInsert, initialized, htContains, htLookup, chainOf, htErase,
          htClear, htDestroy,
      htReserve, nodes]) rfl

theorem Holds.agrees (h : Holds hash table chains map lost) (call : RefusableCall κ ν)
    (fits : FitsOne table call) : Agrees hash table (.live map table.capacity lost) call := by
  cases call with
  | setup array capacity => exact agrees_setup (.live h) array fits
  | insert array node key value => exact h.agrees_insert fits array node key value
  | contains key => exact .goes (by rw [performOne, h.contains]; rfl) rfl (.live h)
  | lookup key => exact .goes (by rw [performOne, h.lookup]; rfl) rfl (.live h)
  | erase array key => exact h.agrees_erase array key
  | clear array =>
    cases array with
    | true =>
      obtain ⟨table', chains', done, held, capacity⟩ := h.clear
      exact .goes (by rw [performOne, done]; rfl) rfl (held.shaped capacity)
    | false => exact .goes (by rw [performOne, htClear, h.destroy]; rfl) rfl (.broken rfl)
  | reserve array minimumCapacity => exact h.agrees_reserve array fits
  | isEmpty => exact .goes rfl (by simp [Shape.call, htIsEmpty, h.size]) (.live h)

theorem Shaped.agrees {shape : Shape κ ν} (shaped : Shaped hash table shape)
    (call : RefusableCall κ ν) (fits : FitsOne table call) : Agrees hash table shape call := by
  cases shaped with
  | live h => exact h.agrees call fits
  | broken nodes =>
    cases call with
    | setup array capacity => exact agrees_setup (.broken nodes) array fits
    | _ => exact agrees_broken nodes _ (by simp)

/-- Whatever requests are refused, and whatever is called: a refused node cuts off the pairs that
    share its slot, which the size still counts, and a refused array leaves a table that only
    another setup can use. -/
theorem table_survives_refusals (calls : List (RefusableCall κ ν))
    (fits : Machine.Meets (performOne hash) FitsOne htInitializer calls) :
    (Machine.runOption (performOne hash) htInitializer calls).map Prod.fst =
      (Machine.runOption (Shape.call hash) (.broken 0) calls).map Prod.fst := by
  refine Machine.runOption_agrees (R := Shaped hash) ?_ (.broken rfl) fits
  intro table shape call shaped fits
  cases shaped.agrees call fits with
  | goes done called shaped' => exact .inl ⟨_, _, _, done, called, shaped'⟩
  | stops done called => exact .inr ⟨done, called⟩

/-- The third key finds no memory, and takes the two keys of its slot with it. -/
def cutChain : List (RefusableCall Nat Nat) :=
  [.setup true 0, .insert true true 1 5, .insert true true 9 6, .insert true true 2 4,
    .insert true false 17 7, .lookup 9, .lookup 2, .erase true 2, .isEmpty]

theorem table_survives_refusals_cut :
    (Machine.runOption (performOne id) htInitializer cutChain).map Prod.fst =
      (Machine.runOption (Shape.call id) (.broken 0) cutChain).map Prod.fst :=
  table_survives_refusals cutChain (by decide)

example : (Machine.runOption (performOne id) htInitializer cutChain).map Prod.fst =
    some [.code 0, .code 0, .code 0, .code 0, .code (-1), .pointer none, .pointer (some 4), .code 0,
      .code 0] := by decide

end Soter2.Base.DynHtable
