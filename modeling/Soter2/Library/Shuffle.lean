import Mathlib.Data.List.Basic
import Mathlib.Data.List.Perm.Subperm
import Mathlib.Tactic.Common

/-! # Drawing from an array without repetition

The first rounds of a Fisher-Yates shuffle: each swaps the next place of the array with one of
those from it on, at an offset that a stream of numbers gives.  An access outside the array
and a division by zero are undefined.

* `draw_spec` — what is drawn, and that it is not drawn again.
* `draw_onto` — everything that can be drawn is, by some numbers.
-/

namespace Shuffle

open scoped List

variable {α : Type*}

/-- `tmp = l[i]; l[i] = l[j]; l[j] = tmp`, where both places are in the array. -/
def swap (l : List α) (i j : Nat) : Option (List α) :=
  match l[i]?, l[j]? with
  | some a, some b => some ((l.set i b).set j a)
  | _, _ => none

/-- So many rounds, from the `i`-th place on. -/
def draw (pick : Nat → Nat) : Nat → Nat → List α → Option (List α)
  | 0, _, l => some l
  | left + 1, i, l =>
    if l.length - i = 0 then none
    else (swap l i (i + pick 0 % (l.length - i))).bind (draw (fun m => pick (m + 1)) left (i + 1))

variable {pick : Nat → Nat} {a t : α} {as s : List α}

theorem swap_suffix (done : List α) {d : Nat} (here : (a :: as)[d]? = some t) :
    swap (done ++ a :: as) done.length (done.length + d)
      = some (done ++ [t] ++ ((a :: as).set d a).tail) := by
  have first : (done ++ a :: as)[done.length]? = some a := by simp
  have other : (done ++ a :: as)[done.length + d]? = some t := by
    rw [List.getElem?_append_right (Nat.le_add_right _ _), Nat.add_sub_cancel_left]
    exact here
  simp only [swap, first, other]
  cases d with
  | zero => simp_all
  | succ d => simp

/-- What is swapped to the front and what stays behind it are the elements that were there. -/
theorem perm_swap {d : Nat} (here : (a :: as)[d]? = some t) :
    t :: ((a :: as).set d a).tail ~ a :: as := by
  cases d with
  | zero =>
    obtain rfl : a = t := by simpa using here
    simp
  | succ d =>
    rw [List.getElem?_cons_succ] at here
    obtain ⟨inside, rfl⟩ := List.getElem?_eq_some_iff.mp here
    rw [List.set_cons_succ, List.tail_cons]
    calc as[d] :: as.set d a
        ~ as[d] :: a :: as.eraseIdx d := (List.set_perm_cons_eraseIdx inside a).cons _
      _ ~ a :: as[d] :: as.eraseIdx d := List.Perm.swap _ _ _
      _ ~ a :: as := (List.getElem_cons_eraseIdx_perm inside).cons _

/-- One round: an element of the rest is drawn. -/
theorem draw_round (done : List α) (left d : Nat) (here : (a :: as)[d]? = some t)
    (picked : pick 0 % (a :: as).length = d) :
    draw pick (left + 1) done.length (done ++ a :: as)
      = draw (fun m => pick (m + 1)) left (done ++ [t]).length
        (done ++ [t] ++ ((a :: as).set d a).tail) := by
  have rest : (done ++ a :: as).length - done.length = (a :: as).length := by simp
  rw [draw, rest, if_neg (by simp), picked, swap_suffix done here, Option.bind_some,
    List.length_append]
  rfl

/-- The rounds draw as many elements as they are, each from those that were not drawn before. -/
theorem draw_spec (done : List α) {k : Nat} (enough : k ≤ s.length) :
    ∃ ts rest, draw pick k done.length (done ++ s) = some (done ++ ts ++ rest) ∧ ts.length = k ∧
      ts ++ rest ~ s := by
  induction k generalizing pick done s with
  | zero => exact ⟨[], s, by simp [draw], rfl, List.Perm.refl _⟩
  | succ k ih =>
    cases s with
    | nil => exact absurd enough (Nat.not_succ_le_zero _)
    | cons a as =>
      have inside : pick 0 % (a :: as).length < (a :: as).length := Nat.mod_lt _ (Nat.succ_pos _)
      obtain ⟨t, here⟩ : ∃ t, (a :: as)[pick 0 % (a :: as).length]? = some t :=
        ⟨_, List.getElem?_eq_getElem inside⟩
      obtain ⟨ts, rest, drawn, length, perm⟩ :=
        @ih (fun m => pick (m + 1)) (((a :: as).set (pick 0 % (a :: as).length) a).tail)
          (done ++ [t])
          (by simpa using enough)
      refine ⟨t :: ts, rest, ?_, by simp [length], (perm.cons t).trans (perm_swap here)⟩
      rw [draw_round done k _ here rfl, drawn]
      simp

/-- Whatever can be drawn is drawn with some numbers, none larger than the array. -/
theorem draw_onto (done ts : List α) (subperm : ts <+~ s) :
    ∃ pick : Nat → Nat, (∀ m, pick m ≤ s.length) ∧
      ∃ rest, draw pick ts.length done.length (done ++ s) = some (done ++ ts ++ rest) := by
  induction ts generalizing done s with
  | nil => exact ⟨fun _ => 0, fun _ => Nat.zero_le _, s, by simp [draw]⟩
  | cons t ts ih =>
    cases s with
    | nil => simp at subperm
    | cons a as =>
      obtain ⟨d, inside, rfl⟩ := List.getElem_of_mem (subperm.subset List.mem_cons_self)
      have here : (a :: as)[d]? = some (a :: as)[d] := List.getElem?_eq_getElem inside
      have others : ts <+~ ((a :: as).set d a).tail :=
        (List.subperm_cons _).mp (subperm.trans (perm_swap here).symm.subperm)
      obtain ⟨pick, small, rest, drawn⟩ := ih (done ++ [(a :: as)[d]]) others
      -- the place of the first element, then the numbers for the others
      refine ⟨fun m => m.casesOn d pick, ?_, rest, ?_⟩
      · intro m
        cases m with
        | zero => exact Nat.le_of_lt inside
        | succ m => exact Nat.le_trans (small m) (by simp)
      · rw [List.length_cons, draw_round done ts.length d here (Nat.mod_eq_of_lt inside), drawn]
        simp

end Shuffle
