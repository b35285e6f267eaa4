import Mathlib.Data.List.Basic
import Mathlib.Data.List.Perm.Basic
import Mathlib.Tactic.Common
import Soter2.Library.Loop

/-! # Removing from an array by swapping the last element over

`swapRemove xs i` overwrites slot `i` with the last element and drops the last
slot, so the order is lost and the content is not (`perm_swapRemove`).  `sweep` is
the loop that removes every element passing a test this way, looking at a slot again
after a swap and folding the removed elements into an accumulator; `sweep_perm` says
that it keeps exactly what `List.filter` keeps.
-/

namespace SwapRemove

open scoped List

variable {α β : Type*}

/-- `xs[i] = xs[len - 1]; len--` -/
def swapRemove (xs : List α) (i : Nat) : List α :=
  match xs.getLast? with
  | some last => (xs.set i last).dropLast
  | none => []

theorem perm_swapRemove {xs : List α} {i : Nat} {x : α} (h : xs[i]? = some x) :
    xs ~ x :: swapRemove xs i := by
  obtain ⟨bound, rfl⟩ := List.getElem?_eq_some_iff.mp h
  obtain ⟨front, last, rfl⟩ : ∃ front last, xs = front ++ [last] :=
    ⟨xs.dropLast, xs.getLast (List.ne_nil_of_length_pos (by omega)),
      (List.dropLast_append_getLast _).symm⟩
  simp only [swapRemove, List.getLast?_concat]
  cases Nat.lt_or_ge i front.length with
  | inl inside =>
    rw [List.getElem_append_left inside, List.set_append_left _ _ inside, List.dropLast_concat]
    calc front ++ [last]
        ~ last :: front := List.perm_append_singleton last front
      _ ~ last :: front[i] :: front.eraseIdx i :=
        (List.getElem_cons_eraseIdx_perm inside).symm.cons _
      _ ~ front[i] :: last :: front.eraseIdx i := List.Perm.swap _ _ _
      _ ~ front[i] :: front.set i last := (List.set_perm_cons_eraseIdx inside last).symm.cons _
  | inr atEnd =>
    have lastSlot : i = front.length := by simp at bound; omega
    subst lastSlot
    simp [List.perm_append_singleton]

theorem length_swapRemove {xs : List α} {i : Nat} {x : α} (h : xs[i]? = some x) :
    (swapRemove xs i).length + 1 = xs.length := by
  simpa using (perm_swapRemove h).length_eq.symm

/-- A swap at `i` leaves the slots before `i` alone. -/
theorem take_swapRemove {xs : List α} {i : Nat} {x : α} (h : xs[i]? = some x) :
    (swapRemove xs i).take i = xs.take i := by
  obtain ⟨bound, rfl⟩ := List.getElem?_eq_some_iff.mp h
  unfold swapRemove
  cases last : xs.getLast? with
  | none => simp at last; subst last; simp
  | some l =>
    simp only [List.dropLast_eq_take, List.length_set, List.take_take]
    rw [Nat.min_eq_left (by omega), List.take_set_of_le (Nat.le_refl i)]

/-! ## The sweep -/

/-- The loop state: the index, the array and what the removed elements left. -/
structure Sweep (α β : Type*) where
  index : Nat
  items : List α
  acc : β

/-- One turn: remove the element under the index, or go on to the next. -/
def sweepBody (drop : α → Bool) (note : β → α → β) (s : Sweep α β) : Option (Sweep α β) :=
  match s.items[s.index]? with
  | none => none
  | some x =>
    if drop x then some { s with items := swapRemove s.items s.index, acc := note s.acc x }
    else some { s with index := s.index + 1 }

def sweep (drop : α → Bool) (note : β → α → β) (xs : List α) (acc : β) : Sweep α β :=
  Loop.run (sweepBody drop note) xs.length ⟨0, xs, acc⟩

variable {drop : α → Bool} {note : β → α → β}

theorem sweepBody_cases {s s' : Sweep α β} (h : sweepBody drop note s = some s') :
    ∃ x, s.items[s.index]? = some x ∧
      ((drop x = true ∧ s' = ⟨s.index, swapRemove s.items s.index, note s.acc x⟩) ∨
        (drop x = false ∧ s' = ⟨s.index + 1, s.items, s.acc⟩)) := by
  unfold sweepBody at h
  split at h
  · cases h
  next x slot =>
    refine ⟨x, slot, ?_⟩
    cases test : drop x <;> simp [test] at h <;> simp [← h]

/-- The elements behind the index all stay, and nothing that should stay is lost. -/
structure SweepInv (drop : α → Bool) (xs : List α) (s : Sweep α β) : Prop where
  kept : ∀ x ∈ s.items.take s.index, drop x = false
  content : s.items.filter (fun x => !drop x) ~ xs.filter (fun x => !drop x)

theorem sweepBody_inv {xs : List α} {s s' : Sweep α β} (inv : SweepInv drop xs s)
    (h : sweepBody drop note s = some s') : SweepInv drop xs s' := by
  obtain ⟨x, slot, ⟨removed, rfl⟩ | ⟨stays, rfl⟩⟩ := sweepBody_cases h
  · refine ⟨by rw [take_swapRemove slot]; exact inv.kept, ?_⟩
    have content := (perm_swapRemove slot).filter (fun y => !drop y)
    rw [List.filter_cons_of_neg (by simp [removed])] at content
    exact content.symm.trans inv.content
  · refine ⟨?_, inv.content⟩
    intro y hy
    rw [List.take_add_one, slot] at hy
    cases List.mem_append.mp hy with
    | inl before => exact inv.kept y before
    | inr here =>
      simp only [Option.toList_some, List.mem_singleton] at here
      exact here ▸ stays

/-- The sweep keeps exactly the elements the test does not pick. -/
theorem sweep_perm (xs : List α) (acc : β) :
    (sweep drop note xs acc).items ~ xs.filter (fun x => !drop x) := by
  have inv : SweepInv drop xs (sweep drop note xs acc) :=
    Loop.run_invariant (fun _ _ => sweepBody_inv) _ ⟨by simp, List.Perm.refl _⟩
  -- each turn brings the index nearer to the end, so the loop comes to its end
  have exit : sweepBody drop note (sweep drop note xs acc) = none := by
    refine Loop.run_exit (fun s => s.items.length - s.index) ?_ _ _ (by simp)
    intro s s' h
    obtain ⟨x, slot, ⟨_, rfl⟩ | ⟨_, rfl⟩⟩ := sweepBody_cases h
    all_goals
      obtain ⟨bound, _⟩ := List.getElem?_eq_some_iff.mp slot
      have := length_swapRemove slot
      simp only
      omega
  -- there every element left has been tested
  have past : (sweep drop note xs acc).items.length ≤ (sweep drop note xs acc).index := by
    unfold sweepBody at exit
    split at exit
    next slot => simpa using slot
    next => split at exit <;> cases exit
  have all : ∀ x ∈ (sweep drop note xs acc).items, drop x = false := by
    simpa [List.take_of_length_le past] using inv.kept
  have whole : (sweep drop note xs acc).items.filter (fun x => !drop x) =
      (sweep drop note xs acc).items := List.filter_eq_self.mpr (by simpa using all)
  exact whole ▸ inv.content

theorem sweep_of_none {xs : List α} (none : ∀ x ∈ xs, drop x = false) (acc : β) :
    (sweep drop note xs acc).items = xs ∧ (sweep drop note xs acc).acc = acc := by
  have turn : ∀ s s' : Sweep α β, s.items = xs ∧ s.acc = acc → sweepBody drop note s = some s' →
      s'.items = xs ∧ s'.acc = acc := by
    rintro s s' ⟨items, same⟩ h
    obtain ⟨x, slot, ⟨removed, -⟩ | ⟨-, rfl⟩⟩ := sweepBody_cases h
    · rw [items] at slot
      rw [none x (List.mem_of_getElem? slot)] at removed
      cases removed
    · exact ⟨items, same⟩
  exact Loop.run_invariant turn _ ⟨rfl, rfl⟩

end SwapRemove
