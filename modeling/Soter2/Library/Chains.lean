import Mathlib.Data.List.Basic
import Mathlib.Data.List.Perm.Basic
import Mathlib.Tactic.Common

/-! # Chained tables

An array of chains, and a function that places each element in one of them.  All that a
table with such an array needs is how its elements as a whole (`flatten`) change when one
chain is replaced, and that an element is found in the chain of its place or nowhere.

* `Placed` — every element stands in the chain its place names.
* `flatten_perm`, `flatten_set_perm` — the elements are those of one chain and the others.
* `pushFront`, `pushAll` — elements put in front of their chains, one or many.
* `each_spec` — the rule for a loop over all chains by index.
-/

namespace Chains

variable {α σ : Type*}

def Placed (place : α → Nat) (chains : List (List α)) : Prop :=
  ∀ i chain, chains[i]? = some chain → ∀ x ∈ chain, place x = i

/-- The elements outside one chain. -/
def others (chains : List (List α)) (i : Nat) : List α := (chains.eraseIdx i).flatten

section One

variable {chains : List (List α)} {i : Nat} {chain : List α}

theorem flatten_perm (at_ : chains[i]? = some chain) :
    chains.flatten.Perm (chain ++ others chains i) := by
  induction chains generalizing i with
  | nil => simp at at_
  | cons c cs ih =>
    cases i with
    | zero =>
      obtain rfl : c = chain := by simpa using at_
      simp [others]
    | succ i =>
      have rest : cs.flatten.Perm (chain ++ others cs i) := ih (by simpa using at_)
      have swapped : (c ++ (chain ++ others cs i)).Perm (chain ++ (c ++ others cs i)) := by
        simpa only [List.append_assoc] using List.perm_append_comm.append_right (others cs i)
      simpa only [others, List.flatten_cons, List.eraseIdx_cons_succ]
        using (rest.append_left c).trans swapped

theorem others_set (chains : List (List α)) (i : Nat) (chain' : List α) :
    others (chains.set i chain') i = others chains i := by
  rw [others, others, List.eraseIdx_set_eq]

theorem flatten_set_perm (bound : i < chains.length) (chain' : List α) :
    (chains.set i chain').flatten.Perm (chain' ++ others chains i) := by
  have at_ : (chains.set i chain')[i]? = some chain' := by simp [bound]
  exact others_set chains i chain' ▸ flatten_perm at_

variable {place : α → Nat}

theorem Placed.set (h : Placed place chains) {chain' : List α}
    (belong : ∀ x ∈ chain', place x = i) : Placed place (chains.set i chain') := by
  intro j c at_ x mem
  rw [List.getElem?_set] at at_
  split at at_
  next here =>
    split at at_
    next =>
      obtain rfl := Option.some.inj at_
      exact (belong x mem).trans here
    next => cases at_
  next => exact h j c at_ x mem

theorem mem_flatten_iff (h : Placed place chains) {x : α} (at_ : chains[place x]? = some chain) :
    x ∈ chains.flatten ↔ x ∈ chain := by
  constructor
  · intro mem
    obtain ⟨c, inside, here⟩ := List.mem_flatten.mp mem
    obtain ⟨j, slot⟩ := List.mem_iff_getElem?.mp inside
    have same : place x = j := h j c slot x here
    rw [same, slot] at at_
    exact Option.some.inj at_ ▸ here
  · exact fun mem => List.mem_flatten.mpr ⟨chain, List.mem_of_getElem? at_, mem⟩

theorem Placed.of_mem_others (h : Placed place chains) {x : α} (mem : x ∈ others chains i) :
    place x ≠ i := by
  obtain ⟨c, kept, inside⟩ := List.mem_flatten.mp mem
  obtain ⟨j, elsewhere, at_⟩ := List.mem_eraseIdx_iff_getElem?.mp kept
  exact (h j c at_ x inside).trans_ne elsewhere

theorem placed_replicate (n : Nat) : Placed place (List.replicate n []) := by
  intro i chain at_ x mem
  obtain rfl : chain = [] := List.eq_of_mem_replicate (List.mem_of_getElem? at_)
  cases mem

end One

/-! ## Elements in front -/

def pushFront (chains : List (List α)) (i : Nat) (x : α) : Option (List (List α)) :=
  chains[i]?.map fun chain => chains.set i (x :: chain)

/-- The elements of a list, each in front of the chain of its place, first element first. -/
def pushAll (place : α → Nat) (chains : List (List α)) (xs : List α) : Option (List (List α)) :=
  xs.foldlM (fun chains x => pushFront chains (place x) x) chains

theorem pushAll_congr {place place' : α → Nat} {chains : List (List α)} {xs : List α}
    (same : ∀ x ∈ xs, place x = place' x) : pushAll place chains xs = pushAll place' chains xs := by
  induction xs generalizing chains with
  | nil => rfl
  | cons x xs ih =>
    obtain ⟨here, rest⟩ := List.forall_mem_cons.mp same
    rw [pushAll, pushAll, List.foldlM_cons, List.foldlM_cons, here]
    exact congrArg _ (funext fun _ => ih rest)

/-- What the array is after the elements `xs` were put into it. -/
structure Received (place : α → Nat) (chains : List (List α)) (xs : List α)
    (chains' : List (List α)) : Prop where
  elements : chains'.flatten.Perm (xs ++ chains.flatten)
  placed : Placed place chains'
  length : chains'.length = chains.length

variable {place : α → Nat} {chains : List (List α)}

theorem received_nil (h : Placed place chains) : Received place chains [] chains :=
  ⟨.refl _, h, rfl⟩

theorem Received.trans {chains' chains'' : List (List α)} {xs ys : List α}
    (first : Received place chains xs chains')
    (second : Received place chains' ys chains'') : Received place chains (xs ++ ys) chains'' where
  elements := by
    calc chains''.flatten.Perm (ys ++ chains'.flatten) := second.elements
      _ |>.Perm (ys ++ (xs ++ chains.flatten)) := first.elements.append_left ys
      _ |>.Perm (xs ++ ys ++ chains.flatten) := by
        rw [← List.append_assoc]
        exact List.perm_append_comm.append_right _
  placed := second.placed
  length := second.length.trans first.length

theorem pushFront_received (h : Placed place chains) {i : Nat} {x : α} (here : place x = i)
    (bound : i < chains.length) :
    ∃ chains', pushFront chains i x = some chains' ∧ Received place chains [x] chains' := by
  have at_ : chains[i]? = some chains[i] := List.getElem?_eq_getElem bound
  refine ⟨chains.set i (x :: chains[i]), by rw [pushFront, at_]; rfl, ?_, h.set ?_,
    List.length_set ..⟩
  · exact (flatten_set_perm bound _).trans ((flatten_perm at_).symm.cons x)
  · intro y mem
    rcases List.mem_cons.mp mem with rfl | behind
    · exact here
    · exact h i _ at_ y behind

theorem pushAll_received (h : Placed place chains) (xs : List α)
    (bounds : ∀ x ∈ xs, place x < chains.length) :
    ∃ chains', pushAll place chains xs = some chains' ∧ Received place chains xs chains' := by
  induction xs generalizing chains with
  | nil => exact ⟨chains, rfl, received_nil h⟩
  | cons x xs ih =>
    obtain ⟨here, rest⟩ := List.forall_mem_cons.mp bounds
    obtain ⟨next, pushed, one⟩ := pushFront_received h rfl here
    obtain ⟨last, all, many⟩ := ih one.placed (fun y mem => one.length ▸ rest y mem)
    refine ⟨last, ?_, one.trans many⟩
    rw [pushAll, List.foldlM_cons, pushed]
    exact all

/-! ## Loops over all chains -/

/-- The loop `for (i = 0; i < n; ++i)` over the chains: it stops where there is no chain. -/
def each (visit : σ → Nat → List α → Option σ) (chains : List (List α)) (n : Nat) (s : σ) :
    Option σ :=
  (List.range n).foldlM (fun s i => chains[i]?.bind (visit s i)) s

theorem each_succ (visit : σ → Nat → List α → Option σ) (n : Nat) (s : σ) :
    each visit chains (n + 1) s = (each visit chains n s).bind fun s =>
      chains[n]?.bind (visit s n) := by
  simp [each, List.range_succ, List.foldlM_append]

/-- An invariant that speaks of the elements visited so far ends up speaking of all. -/
theorem each_spec {visit : σ → Nat → List α → Option σ} {P : σ → List α → Prop} {s : σ}
    (start : P s [])
    (visits : ∀ s done i chain, chains[i]? = some chain → P s done →
      ∃ s', visit s i chain = some s' ∧ P s' (done ++ chain)) :
    ∃ s', each visit chains chains.length s = some s' ∧ P s' chains.flatten := by
  have prefixes : ∀ n ≤ chains.length, ∃ s', each visit chains n s = some s' ∧
      P s' (chains.take n).flatten := by
    intro n bound
    induction n with
    | zero => exact ⟨s, rfl, start⟩
    | succ n ih =>
      obtain ⟨s', ran, held⟩ := ih (by omega)
      have at_ : chains[n]? = some chains[n] := List.getElem?_eq_getElem bound
      obtain ⟨s'', visited, holds⟩ := visits s' _ n _ at_ held
      refine ⟨s'', ?_, ?_⟩
      · simp only [each_succ, ran, at_, Option.bind_some, visited]
      · rwa [List.take_add_one, at_, Option.toList_some, List.flatten_append,
          List.flatten_singleton]
  simpa only [List.take_length] using prefixes chains.length (Nat.le_refl _)

end Chains
