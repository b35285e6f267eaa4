import Mathlib.Data.List.Basic
import Mathlib.Tactic.Common
import Soter2.Library.Workers
import Soter2.Lownet.Addr

/-! # Resolution of the STUN servers (`natpunch/src/nat.c`)

`nat_parallel_req` hands a part of the servers to each of its threads, which push the addresses that
they find to one array.  The array is locked for a push, so that the threads take turns.
-/

namespace Soter2.Natpunch

open Soter2.Lownet (Naddr)

/-- `STUN_PARALLEL_RESOLUTION_LIMIT`. -/
abbrev stunParallelResolutionLimit : Nat := 10

structure StunAddr where
  uniaddr : List UInt8
  port : UInt16
  deriving DecidableEq

/-- `resolution_args`, with `addresses` as an index of the array of servers. -/
structure ResolutionArgs where
  addresses : Nat
  nToResolve : Nat

def paralResN (stunsN : Nat) : Nat :=
  if stunParallelResolutionLimit > stunsN then stunsN else stunParallelResolutionLimit

/-- The arguments of the thread `i`. -/
def resolutionArgs (stunsN i : Nat) : ResolutionArgs where
  addresses := i * (paralResN stunsN / stunsN)
  nToResolve := paralResN stunsN / stunsN

/-- A thread at the head of its loop, or with an address that it is about to push. -/
structure Resolver where
  args : ResolutionArgs
  i : Nat
  out : Option Naddr

/-- The next turn of `_parallel_stun_resolution`, and what it pushes. -/
def parallelStunResolution (lnUni : StunAddr → Option Naddr) (stuns : List StunAddr)
    (thread : Resolver) : Option (Resolver × List Naddr) :=
  match thread.out with
  | some out => some ({ thread with out := none }, [out])
  | none =>
    -- a name that is not resolved leaves nothing to push
    if thread.i < thread.args.nToResolve then
      some ({ thread with
        i := thread.i + 1
        out := stuns[thread.args.addresses + thread.i]?.bind lnUni }, [])
    else none

/-- The threads at their start, and the empty array. -/
def startResolution (stunsN : Nat) : Workers.State Resolver Naddr where
  workers := (List.range (paralResN stunsN)).map fun i => ⟨resolutionArgs stunsN i, 0, none⟩
  out := []

def resolutionStep (lnUni : StunAddr → Option Naddr) (stuns : List StunAddr) :
    Workers.State Resolver Naddr → Nat → Option (Workers.State Resolver Naddr) :=
  Workers.step (parallelStunResolution lnUni stuns)

/-! ## What every server resolved once means -/

/-- The server `i` is one of those that the thread `k` is given. -/
def Handed (stunsN k i : Nat) : Prop :=
  (resolutionArgs stunsN k).addresses ≤ i ∧
    i < (resolutionArgs stunsN k).addresses + (resolutionArgs stunsN k).nToResolve

instance (stunsN k i : Nat) : Decidable (Handed stunsN k i) := inferInstanceAs (Decidable (_ ∧ _))

/-- The threads are given all servers, none of them twice, they come to their end in any order of
    turns, and the array then has the addresses of the servers that can be resolved. -/
structure ResolvedOnce (stuns : List StunAddr) : Prop where
  within : ∀ k < paralResN stuns.length,
    (resolutionArgs stuns.length k).addresses + (resolutionArgs stuns.length k).nToResolve
      ≤ stuns.length
  disjoint : ∀ j < paralResN stuns.length, ∀ k < paralResN stuns.length, j ≠ k →
    ∀ i, ¬ (Handed stuns.length j i ∧ Handed stuns.length k i)
  covers : ∀ i < stuns.length, ∃ k < paralResN stuns.length, Handed stuns.length k i
  ends : ∀ lnUni ks s, Transition.run (resolutionStep lnUni stuns) (startResolution stuns.length) ks
    = some s →
    ks.length ≤ 2 * stuns.length
  result : ∀ lnUni ks s, Transition.run (resolutionStep lnUni stuns) (startResolution stuns.length)
    ks = some s →
    Workers.Joined (parallelStunResolution lnUni stuns) s → s.out.Perm (stuns.filterMap lnUni)

/-! ## What is left to a thread -/

section

variable (lnUni : StunAddr → Option Naddr) (stuns : List StunAddr)

/-- The addresses that a thread has still to push. -/
def Resolver.left (thread : Resolver) : List Naddr :=
  thread.out.toList ++
    ((stuns.drop (thread.args.addresses + thread.i)).take
      (thread.args.nToResolve - thread.i)).filterMap lnUni

def Resolver.turnsLeft (thread : Resolver) : Nat :=
  2 * (thread.args.nToResolve - thread.i) + thread.out.toList.length

variable {lnUni stuns} {thread next : Resolver} {pushed : List Naddr}

theorem parallelStunResolution_cases
    (h : parallelStunResolution lnUni stuns thread = some (next, pushed)) :
    (∃ out, thread.out = some out ∧ next = { thread with out := none } ∧ pushed = [out]) ∨
    (thread.out = none ∧ thread.i < thread.args.nToResolve ∧ pushed = [] ∧
      next = { thread with
        i := thread.i + 1
        out := stuns[thread.args.addresses + thread.i]?.bind lnUni }) := by
  unfold parallelStunResolution at h
  split at h
  next out here =>
    cases h
    exact .inl ⟨out, here, rfl, rfl⟩
  next here =>
    split at h
    next inside =>
      cases h
      exact .inr ⟨here, inside, rfl, rfl⟩
    next => cases h

theorem left_keeps (h : parallelStunResolution lnUni stuns thread = some (next, pushed)) :
    pushed ++ next.left lnUni stuns = thread.left lnUni stuns := by
  obtain ⟨out, here, rfl, rfl⟩ | ⟨here, inside, rfl, rfl⟩ := parallelStunResolution_cases h
  · simp [Resolver.left, here]
  · have count : thread.args.nToResolve - thread.i = thread.args.nToResolve - (thread.i + 1) +
        1 := by omega
    simp only [Resolver.left, here, Option.toList_none, List.nil_append, count, ← Nat.add_assoc]
    by_cases some : thread.args.addresses + thread.i < stuns.length
    · rw [List.drop_eq_getElem_cons some, List.take_succ_cons, List.getElem?_eq_getElem some,
        Option.bind_some]
      cases found : lnUni stuns[thread.args.addresses + thread.i] with
      | none => rw [List.filterMap_cons_none found, Option.toList_none, List.nil_append]
      | some out => rw [List.filterMap_cons_some found, Option.toList_some, List.singleton_append]
    -- past the array there is nothing to resolve
    · rw [List.getElem?_eq_none (by omega), List.drop_eq_nil_of_le (by omega),
        List.drop_eq_nil_of_le (by omega), List.take_nil, List.take_nil]
      rfl

theorem left_eq_nil (h : parallelStunResolution lnUni stuns thread = none) :
    thread.left lnUni stuns = [] := by
  unfold parallelStunResolution at h
  split at h
  next => cases h
  next here =>
    split at h
    next => cases h
    next outside => rw [Resolver.left, here, Nat.sub_eq_zero_of_le (by omega), List.take_zero]; rfl

theorem turnsLeft_decreases (h : parallelStunResolution lnUni stuns thread = some (next, pushed)) :
    next.turnsLeft < thread.turnsLeft := by
  obtain ⟨out, here, rfl, rfl⟩ | ⟨here, inside, rfl, rfl⟩ := parallelStunResolution_cases h
  · simp [Resolver.turnsLeft, here]
  · have short : (stuns[thread.args.addresses + thread.i]?.bind lnUni).toList.length ≤ 1 :=
      Option.length_toList_le
    simp only [Resolver.turnsLeft]
    omega

end

/-! ## The partition -/

theorem paralResN_of_le {stunsN : Nat} (few : stunsN ≤ stunParallelResolutionLimit) :
    paralResN stunsN = stunsN := by
  unfold paralResN
  split
  · rfl
  · omega

/-- Up to the limit there is a thread for each server. -/
theorem resolutionArgs_of_le {stunsN i : Nat} (few : stunsN ≤ stunParallelResolutionLimit)
    (inside : i < stunsN) : resolutionArgs stunsN i = ⟨i, 1⟩ := by
  have one : paralResN stunsN / stunsN = 1 := by rw [paralResN_of_le few, Nat.div_self (by omega)]
  rw [resolutionArgs, one, Nat.mul_one]

/-- Above the limit no thread is given a server, because the quotient is the wrong way around. -/
theorem resolutionArgs_of_lt {stunsN : Nat} (many : stunParallelResolutionLimit < stunsN)
    (k : Nat) : resolutionArgs stunsN k = ⟨0, 0⟩ := by
  have none : paralResN stunsN / stunsN = 0 := by
    rw [paralResN, if_neg (by omega)]
    exact Nat.div_eq_of_lt many
  rw [resolutionArgs, none, Nat.mul_zero]

theorem not_handed {stunsN : Nat} (many : stunParallelResolutionLimit < stunsN) (k i : Nat) :
    ¬ Handed stunsN k i := by
  simp only [Handed, resolutionArgs_of_lt many]
  omega

theorem flatMap_single {α : Type*} (l : List α) :
    (List.range l.length).flatMap (fun i => (l.drop i).take 1) = l := by
  induction l with
  | nil => rfl
  | cons a l ih =>
    rw [List.length_cons, List.range_succ_eq_map, List.flatMap_cons, List.flatMap_map]
    exact congrArg (a :: ·) ih

theorem startResolution_of_le {stunsN : Nat} (few : stunsN ≤ stunParallelResolutionLimit) :
    (startResolution stunsN).workers = (List.range stunsN).map fun i => ⟨⟨i, 1⟩, 0, none⟩ := by
  rw [startResolution, paralResN_of_le few]
  apply List.map_congr_left
  intro i member
  rw [resolutionArgs_of_le few (List.mem_range.mp member)]

theorem left_startResolution (lnUni : StunAddr → Option Naddr) {stuns : List StunAddr}
    (few : stuns.length ≤ stunParallelResolutionLimit) :
    (startResolution stuns.length).workers.flatMap (Resolver.left lnUni stuns)
      = stuns.filterMap lnUni := by
  rw [startResolution_of_le few, List.flatMap_map]
  calc (List.range stuns.length).flatMap (fun i => Resolver.left lnUni stuns ⟨⟨i, 1⟩, 0, none⟩)
      = (List.range stuns.length).flatMap (fun i => ((stuns.drop i).take 1).filterMap lnUni) := rfl
    _ = ((List.range stuns.length).flatMap fun i => (stuns.drop i).take 1).filterMap lnUni :=
      List.filterMap_flatMap.symm
    _ = stuns.filterMap lnUni := by rw [flatMap_single]

theorem total_startResolution {stunsN : Nat} (few : stunsN ≤ stunParallelResolutionLimit) :
    Workers.total Resolver.turnsLeft (startResolution stunsN).workers = 2 * stunsN := by
  have each : ∀ i ∈ List.range stunsN,
      (Resolver.turnsLeft ∘ fun i => (⟨⟨i, 1⟩, 0, none⟩ : Resolver)) i = 2 := fun _ _ => rfl
  rw [startResolution_of_le few, Workers.total, List.map_map, List.map_congr_left each,
    List.map_const', List.sum_replicate_nat, List.length_range, Nat.mul_comm]

/-- The code resolves every server exactly if there are no more than the limit. -/
theorem resolved_once_iff (stuns : List StunAddr) :
    ResolvedOnce stuns ↔ stuns.length ≤ stunParallelResolutionLimit := by
  constructor
  · intro once
    by_contra many
    -- beyond the limit the quotient of the code is zero, and nobody gets the first server
    obtain ⟨k, -, handed⟩ := once.covers 0 (by omega)
    exact not_handed (by omega) k 0 handed
  · intro few
    have threads := paralResN_of_le few
    -- up to the limit each thread gets one server
    refine ⟨?_, ?_, ?_, ?_, ?_⟩
    · intro k inside
      rw [resolutionArgs_of_le few (by omega)]
      exact threads ▸ inside
    · rintro j jInside k kInside different i ⟨ofJ, ofK⟩
      rw [Handed, resolutionArgs_of_le few (by omega)] at ofJ ofK
      simp only at ofJ ofK
      omega
    · intro i inside
      refine ⟨i, by omega, ?_⟩
      rw [Handed, resolutionArgs_of_le few inside]
      exact ⟨Nat.le_refl i, Nat.lt_succ_self i⟩
    · intro lnUni ks s run
      have bound := Workers.length_run_le (fun _ _ _ => turnsLeft_decreases) run
      rwa [total_startResolution few] at bound
    · intro lnUni ks s run joined
      have result := Workers.out_perm_of_joined (fun _ _ _ => left_keeps) (fun _ => left_eq_nil) run
        joined
      rwa [left_startResolution lnUni few, startResolution, List.nil_append] at result

/-- Eleven servers, of which none is resolved. -/
theorem eleven_not_resolved : ¬ ResolvedOnce (List.replicate 11 ⟨[], 3478⟩) := by
  intro once
  obtain ⟨k, inside, handed⟩ := once.covers 0 (by decide)
  revert handed
  revert k
  decide

end Soter2.Natpunch
