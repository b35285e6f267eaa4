import Mathlib.Data.List.Basic
import Mathlib.Data.List.Nodup
import Mathlib.Tactic.Common
import Soter2.Gossip.System
import Soter2.Library.Shuffle

/-! # Drawing entries (`gossip/src/system.c`)

`gossip_random_entries` shuffles the first places of an array of indices and copies the
entries under them.  The values of `rand()` are an input.

* `randomEntries_distinct` — what is returned, for all values of `rand()`.
-/

namespace Soter2.Gossip

open scoped List

/-- `RAND_MAX`. -/
abbrev randMax : Nat := 2 ^ 31 - 1

structure RandomEntries where
  code : Int
  system : GossipSystem
  /-- The indices under which the entries lie. -/
  indices : List Nat
  entries : List GossipEntry
deriving DecidableEq

/-- `gossip_random_entries`, where `rand` are the values of the calls of `rand()` in order; `none`
    where an index leaves its array or a division is by zero. -/
def gossipRandomEntries (rand : Nat → Nat) (g : GossipSystem) (n : Nat) : Option RandomEntries :=
  if n = 0 then some ⟨-1, g, [], []⟩
  else
    let len := g.gossips.length
    if len = 0 then some ⟨1, g, [], []⟩
    else
      let n := if n > len then len else n
      (Shuffle.draw rand n 0 (List.range len)).bind fun indices =>
        let indices := indices.take n
        (indices.mapM fun i => g.gossips[i]?).map fun entries => ⟨0, g, indices, entries⟩

/-- Pairwise distinct positions of the store, as many as wanted or as there are. -/
structure Positions (g : GossipSystem) (n : Nat) (is : List Nat) : Prop where
  length : is.length = min n g.gossips.length
  distinct : is.Nodup
  inside : ∀ i ∈ is, i < g.gossips.length

/-- The entries under some positions. -/
def entriesUnder (g : GossipSystem) (is : List Nat) : List GossipEntry :=
  is.filterMap fun i => g.gossips[i]?

variable {g : GossipSystem} {n : Nat} {is : List Nat}

theorem mapM_getElem? (inside : ∀ i ∈ is, i < g.gossips.length) :
    (is.mapM fun i => g.gossips[i]?) = some (entriesUnder g is) := by
  induction is with
  | nil => rfl
  | cons i is ih =>
    obtain ⟨here, rest⟩ := List.forall_mem_cons.mp inside
    simp [List.mapM_cons, entriesUnder, ih rest, here]

theorem length_entriesUnder (inside : ∀ i ∈ is, i < g.gossips.length) :
    (entriesUnder g is).length = is.length := by
  induction is with
  | nil => rfl
  | cons i is ih =>
    obtain ⟨here, rest⟩ := List.forall_mem_cons.mp inside
    simpa [entriesUnder, here] using ih rest

/-- The drawn indices are positions: they are part of a permutation of all. -/
theorem positions_of_perm {rest : List Nat} (length : is.length = min n g.gossips.length)
    (perm : is ++ rest ~ List.range g.gossips.length) : Positions g n is where
  length := length
  distinct := (List.nodup_append.mp (perm.nodup_iff.mpr List.nodup_range)).1
  inside _ member := List.mem_range.mp (perm.subset (List.mem_append_left _ member))

theorem gossipRandomEntries_drawn {rand : Nat → Nat} (wanted : 0 < n) (filled : g.gossips ≠ [])
    {rest : List Nat}
    (drawn : Shuffle.draw rand (min n g.gossips.length) 0 (List.range g.gossips.length)
      = some (is ++ rest))
    (positions : Positions g n is) : gossipRandomEntries rand g n
    = some ⟨0, g, is, entriesUnder g is⟩ := by
  have size : (if n > g.gossips.length then g.gossips.length else n) = min n g.gossips.length := by
    split <;> omega
  have first : (is ++ rest).take (min n g.gossips.length) = is := by
    rw [← positions.length, List.take_left]
  have some_ : ¬ g.gossips.length = 0 := by simpa using filled
  rw [gossipRandomEntries, if_neg (by omega)]
  simp only [some_, if_false, size, drawn, Option.bind_some, first, mapM_getElem? positions.inside,
    Option.map_some]

/-- Whatever `rand()` returns, the entries come from distinct positions of the store. -/
theorem randomEntries_drawn (g : GossipSystem) (filled : g.gossips ≠ []) (n : Nat) (wanted : 0 < n)
    (rand : Nat → Nat) :
    ∃ is, Positions g n is ∧ (entriesUnder g is).length = min n g.gossips.length ∧
      gossipRandomEntries rand g n = some ⟨0, g, is, entriesUnder g is⟩ := by
  obtain ⟨is, rest, drawn, length, perm⟩ :=
    @Shuffle.draw_spec _ rand (List.range g.gossips.length) []
    (min n g.gossips.length) (by rw [List.length_range]; exact Nat.min_le_right _ _)
  have positions := positions_of_perm length perm
  have copied := (length_entriesUnder positions.inside).trans length
  exact ⟨is, positions, copied, gossipRandomEntries_drawn wanted filled drawn positions⟩

/-- Every choice of positions is returned for some values of `rand()`. -/
theorem randomEntries_onto (small : g.gossips.length ≤ randMax) (filled : g.gossips ≠ [])
    (wanted : 0 < n) (positions : Positions g n is) : ∃ rand : Nat → Nat, (∀ m, rand m ≤ randMax) ∧
      gossipRandomEntries rand g n = some ⟨0, g, is, entriesUnder g is⟩ := by
  have subperm : is <+~ List.range g.gossips.length :=
    List.subperm_of_subset positions.distinct fun i member =>
      List.mem_range.mpr (positions.inside i member)
  obtain ⟨rand, bound, rest, drawn⟩ := Shuffle.draw_onto [] is subperm
  rw [positions.length] at drawn
  refine ⟨rand, fun m => ?_, gossipRandomEntries_drawn wanted filled drawn positions⟩
  exact (bound m).trans (by rw [List.length_range]; exact small)

/-- The entries come from distinct positions of the store, for all values of `rand()`, and every
    choice of positions is possible. -/
theorem randomEntries_distinct (g : GossipSystem) (filled : g.gossips ≠ []) (n : Nat)
    (wanted : 0 < n) :
    (∀ rand : Nat → Nat, ∃ is, Positions g n is ∧
      (entriesUnder g is).length = min n g.gossips.length ∧
      gossipRandomEntries rand g n = some ⟨0, g, is, entriesUnder g is⟩) ∧
    (g.gossips.length ≤ randMax → ∀ is, Positions g n is → ∃ rand : Nat → Nat,
      (∀ m, rand m ≤ randMax) ∧
      gossipRandomEntries rand g n = some ⟨0, g, is, entriesUnder g is⟩) :=
  ⟨randomEntries_drawn g filled n wanted, fun small _ => randomEntries_onto small filled wanted⟩

def twoEntries : GossipSystem := ⟨[sampleEntry 2 0, sampleEntry 3 0], 0, 1⟩

theorem randomEntries_distinct_twoEntries :
    ∃ is, Positions twoEntries 1 is ∧ (entriesUnder twoEntries is).length = 1 ∧
      gossipRandomEntries (fun _ => 7) twoEntries 1
        = some ⟨0, twoEntries, is, entriesUnder twoEntries is⟩ :=
  (randomEntries_distinct twoEntries (by decide) 1 (by decide)).1 fun _ => 7

end Soter2.Gossip
