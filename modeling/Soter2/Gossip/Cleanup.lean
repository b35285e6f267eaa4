import Mathlib.Data.List.Basic
import Mathlib.Tactic.Common
import Soter2.Gossip.System
import Soter2.Library.IndexLoop

/-! # The age of gossip (`gossip/src/system.c`)

`gossip_cleanup` goes through the store and removes what is old.  The clock is signed and the
timestamp of an entry, which its author chose, is not: the difference is taken as unsigned.

* `cleanup_exact_iff` — when exactly the entries of the last hour stay.
-/

namespace Soter2.Gossip

/-- `GOSSIP_DEAD_DT`: one hour. -/
abbrev gossipDeadDt : UInt64 := 60 * 60

/-- The test of the loop, with the clock converted to the type of the timestamp. -/
def young (currTimestamp : Int64) (entr : GossipEntry) : Bool :=
  currTimestamp.toUInt64 - entr.timestamp < gossipDeadDt

/-- The body of the loop, which has nothing to note. -/
def cleanupVisit (currTimestamp : Int64) (env : Unit) (entr : GossipEntry) :
    IndexLoop.Visit GossipEntry × Unit :=
  (if young currTimestamp entr then .keep entr else .remove, env)

def gossipCleanup (currTimestamp : Int64) (g : GossipSystem) : GossipSystem :=
  { g with gossips := (Loop.run (IndexLoop.body (cleanupVisit currTimestamp)) g.gossips.length
    ⟨0, g.gossips, ()⟩).items }

/-- Exactly the entries that are less than an hour old stay, and in their order. -/
def CleansExactly (now : Int64) (g : GossipSystem) : Prop :=
  gossipCleanup now g = { g with gossips := g.gossips.filter fun e =>
    now.toInt - e.timestamp.toNat < 60 * 60 }

/-- The entry is not ahead of the clock, or it is ahead by so much that the unsigned difference
    comes out as less than an hour. -/
def OnClock (now : Int64) (e : GossipEntry) : Prop :=
  e.timestamp.toNat ≤ now.toInt ∨
    0 ≤ 2 ^ 64 + now.toInt - e.timestamp.toNat ∧ 2 ^ 64 + now.toInt - e.timestamp.toNat < 60 * 60

variable {g : GossipSystem} {e : GossipEntry} {now : Int64}

/-- The loop removes all that is not young. -/
theorem gossipCleanup_eq (now : Int64) (g : GossipSystem) :
    gossipCleanup now g = { g with gossips := g.gossips.filter (young now) } := by
  have visited : ∀ env e, cleanupVisit now env e
      = (if young now e then .keep e else .remove, env) := fun _ _ => rfl
  rw [gossipCleanup, IndexLoop.run_filter visited () g.gossips]

theorem young_iff : young now e = true ↔ (now.toInt - e.timestamp.toNat) % 2 ^ 64 < 60 * 60 := by
  have clock := Words.toNat_toUInt64 now
  have stamp := e.timestamp.toNat_lt
  have limit : gossipDeadDt.toNat = 60 * 60 := rfl
  rw [young, decide_eq_true_iff, UInt64.lt_iff_toNat_lt, UInt64.toNat_sub, limit]
  omega

/-- The unsigned test agrees with the exact one on an entry exactly if it is on the clock. -/
theorem young_exact_iff :
    (young now e = true ↔ now.toInt - e.timestamp.toNat < 60 * 60) ↔ OnClock now e := by
  have low := now.le_toInt
  have high := now.toInt_lt
  have stamp := e.timestamp.toNat_lt
  rw [young_iff, OnClock]
  omega

theorem gossipCleanup_inv (inv : g.Inv) (now : Int64) : (gossipCleanup now g).Inv := by
  rw [gossipCleanup_eq]
  exact ⟨fun e member => inv.foreign e (List.mem_of_mem_filter member),
    inv.unique.sublist (List.filter_sublist.map _)⟩

/-- The store is cleaned exactly when no entry is ahead of the clock, but for those that are
    about 2^64 seconds ahead. -/
theorem cleanup_exact_iff (now : Int64) (g : GossipSystem) :
    CleansExactly now g ↔ ∀ e ∈ g.gossips, OnClock now e := by
  rw [CleansExactly, gossipCleanup_eq]
  constructor
  · -- the two filters agree on each entry
    intro same e member
    have same := congrArg (e ∈ ·.gossips) same
    simp only [List.mem_filter, member, true_and, decide_eq_true_eq, eq_iff_iff] at same
    exact young_exact_iff.mp same
  · intro onClock
    congr 1
    refine List.filter_congr fun e member => Bool.eq_iff_iff.mpr ?_
    rw [decide_eq_true_iff]
    exact young_exact_iff.mpr (onClock e member)

/-- An entry of a peer whose clock is one second ahead is removed. -/
theorem ahead_is_removed :
    gossipCleanup 1000 ⟨[sampleEntry 2 1001], 0, 1⟩ = ⟨[], 0, 1⟩ ∧
      ¬ CleansExactly 1000 ⟨[sampleEntry 2 1001], 0, 1⟩ := by
  have removed : gossipCleanup 1000 ⟨[sampleEntry 2 1001], 0, 1⟩ = ⟨[], 0, 1⟩ := by decide
  refine ⟨removed, ?_⟩
  rw [CleansExactly, removed]
  decide

end Soter2.Gossip
