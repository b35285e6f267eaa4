import Mathlib.Data.List.Basic
import Mathlib.Tactic.Common
import Soter2.Library.Loop

/-! # Going through an array that may shrink

The loop keeps an index.  A visit to the element under it reads and changes an environment; it
leaves the index where it is, puts an element in the place and goes on, or removes the element,
which moves the others up.

* `run_pass` — when no visit leaves the index where it is, the loop ends, and visits each
  element once and in order.
* `run_filter` — what is left when the visits keep or remove by a test.
* `visits_balance` — the visits that are made, against the elements.
-/

namespace IndexLoop

variable {ε α : Type*}

inductive Visit (α : Type*) where
  | again
  | keep (a : α)
  | remove

structure Walk (ε α : Type*) where
  index : Nat
  items : List α
  env : ε

/-- One turn of the loop. -/
def body (visit : ε → α → Visit α × ε) (w : Walk ε α) : Option (Walk ε α) :=
  match w.items[w.index]? with
  | none => none
  | some a =>
    match visit w.env a with
    | (.again, env) => some { w with env := env }
    | (.keep b, env) => some ⟨w.index + 1, w.items.set w.index b, env⟩
    | (.remove, env) => some ⟨w.index, w.items.eraseIdx w.index, env⟩

/-- Each element is visited once, and none again; `bs` are the elements that are left. -/
inductive Pass (visit : ε → α → Visit α × ε) : ε → List α → List α → ε → Prop where
  | nil (env : ε) : Pass visit env [] [] env
  | keep {env env' last : ε} {a b : α} {as bs : List α} (visited : visit env a = (.keep b, env'))
      (rest : Pass visit env' as bs last) : Pass visit env (a :: as) (b :: bs) last
  | remove {env env' last : ε} {a : α} {as bs : List α} (visited : visit env a = (.remove, env'))
      (rest : Pass visit env' as bs last) : Pass visit env (a :: as) bs last

variable {visit : ε → α → Visit α × ε} {w w' : Walk ε α}

/-- Past the end the loop is left. -/
theorem body_eq_none : body visit w = none ↔ w.items.length ≤ w.index := by
  rw [← List.getElem?_eq_none_iff, body]
  cases w.items[w.index]? with
  | none => simp
  | some a =>
    simp only [reduceCtorEq, iff_false]
    split <;> simp

theorem body_cases (h : body visit w = some w') :
    ∃ a, w.items[w.index]? = some a ∧
      ((visit w.env a = (.again, w'.env) ∧ w' = { w with env := w'.env }) ∨
        (∃ b, visit w.env a = (.keep b, w'.env) ∧
          w' = ⟨w.index + 1, w.items.set w.index b, w'.env⟩) ∨
        visit w.env a = (.remove, w'.env) ∧ w' = ⟨w.index, w.items.eraseIdx w.index, w'.env⟩) := by
  rw [body] at h
  split at h
  · cases h
  next a here =>
    refine ⟨a, here, ?_⟩
    split at h
    next env visited => cases h; exact .inl ⟨visited, rfl⟩
    next b env visited => cases h; exact .inr (.inl ⟨b, visited, rfl⟩)
    next env visited => cases h; exact .inr (.inr ⟨visited, rfl⟩)

/-! ## One visit to each element -/

theorem run_pass {env last : ε} {as bs : List α} (pass : Pass visit env as bs last) (done : List α)
    {fuel : Nat} (enough : as.length ≤ fuel) :
    Loop.run (body visit) fuel ⟨done.length, done ++ as, env⟩
      = ⟨(done ++ bs).length, done ++ bs, last⟩ := by
  induction pass generalizing done fuel with
  | nil env =>
    rw [List.append_nil]
    exact Loop.run_of_none (body_eq_none.mpr (Nat.le_refl _)) fuel
  | @keep env env' last a b as bs visited rest ih =>
    cases fuel with
    | zero => exact absurd enough (Nat.not_succ_le_zero _)
    | succ fuel =>
      -- one element more is done
      have turn : body visit ⟨done.length, done ++ a :: as, env⟩
          = some ⟨(done ++ [b]).length, (done ++ [b]) ++ as, env'⟩ := by
        simp [body, visited]
      rw [Loop.run_of_some turn, ih _ (Nat.le_of_succ_le_succ enough), List.append_assoc,
        List.singleton_append]
  | @remove env env' last a as bs visited rest ih =>
    cases fuel with
    | zero => exact absurd enough (Nat.not_succ_le_zero _)
    | succ fuel =>
      -- the elements behind move up, so that the index is at the next one
      have turn : body visit ⟨done.length, done ++ a :: as, env⟩
          = some ⟨done.length, done ++ as, env'⟩ := by
        simp [body, visited, List.eraseIdx_append_of_length_le]
      rw [Loop.run_of_some turn, ih done (Nat.le_of_succ_le_succ enough)]

/-- Where the visits keep and remove by a test, the loop leaves what passes it. -/
theorem run_filter {test : α → Bool}
    (visited : ∀ env a, visit env a = (if test a then .keep a else .remove, env)) (env : ε)
    (as : List α) :
    Loop.run (body visit) as.length ⟨0, as, env⟩
      = ⟨(as.filter test).length, as.filter test, env⟩ := by
  have pass : Pass visit env as (as.filter test) env := by
    induction as with
    | nil => exact .nil env
    | cons a as ih =>
      by_cases kept : test a = true
      · rw [List.filter_cons_of_pos kept]
        exact .keep (by rw [visited, if_pos kept]) ih
      · rw [List.filter_cons_of_neg kept]
        exact .remove (by rw [visited, if_neg kept]) ih
  exact run_pass pass [] (Nat.le_refl _)

/-! ## Counting the visits -/

/-- The visits made so far and the elements that are left are as many as the elements and the
    visits that left the index where it was. -/
theorem visits_balance (visits stays : ε → Nat) {total : Nat}
    (counted : ∀ env a, visits (visit env a).2 = visits env + 1)
    (stayed : ∀ env a, stays (visit env a).2 =
      stays env + match (visit env a).1 with | .again => 1 | _ => 0)
    (balance : visits w.env + w.items.length = total + stays w.env + w.index)
    (h : body visit w = some w') :
    visits w'.env + w'.items.length = total + stays w'.env + w'.index := by
  obtain ⟨a, here, cases_⟩ := body_cases h
  have inside : w.index < w.items.length := (List.getElem?_eq_some_iff.mp here).1
  have count := counted w.env a
  have stay := stayed w.env a
  -- a visit more, against a stay more, a step of the index, or an element less
  obtain ⟨visited, eq⟩ | ⟨b, visited, eq⟩ | ⟨visited, eq⟩ := cases_
  · rw [visited] at count stay
    rw [eq]
    simp only at count stay ⊢
    omega
  · rw [visited] at count stay
    rw [eq]
    simp only [List.length_set] at count stay ⊢
    omega
  · rw [visited] at count stay
    rw [eq]
    simp only [List.length_eraseIdx_of_lt inside] at count stay ⊢
    omega

end IndexLoop
