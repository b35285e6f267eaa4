import Mathlib.Order.Lattice
import Mathlib.Data.List.Basic
import Mathlib.Data.List.InsertIdx
import Mathlib.Tactic.Common

/-! # Inserting into a list kept strictly increasing

`scan` walks a list until it finds the key or a greater one, the way an insertion
into a sorted array is written with an index and a flag; `insert` uses its result.
A key that is found leaves the list alone (`insert_of_found`), and the insertion keeps a
strictly increasing list strictly increasing (`insert_increasing`).
-/

namespace UniqueInsert

variable {α β : Type*} [LinearOrder β] (key : α → β)

/-- The position at which the walk for `k` stops, and whether it stopped at `k`. -/
def scan (k : β) : List α → Nat × Bool
  | [] => (0, false)
  | x :: xs =>
    if key x = k then (0, true)
    else if k < key x then (0, false)
    else ((scan k xs).1 + 1, (scan k xs).2)

/-- Insert `x` where the walk for its key stops, unless the key is there. -/
def insert (x : α) (xs : List α) : List α :=
  if (scan key (key x) xs).2 then xs else xs.insertIdx (scan key (key x) xs).1 x

def Increasing (xs : List α) : Prop := xs.Pairwise (fun x y => key x < key y)

variable {key}

theorem scan_le_length (k : β) (xs : List α) : (scan key k xs).1 ≤ xs.length := by
  induction xs with
  | nil => simp [scan]
  | cons x xs ih =>
    simp only [scan]
    split
    · simp
    · split
      · simp
      · simpa using ih

theorem insert_of_found {x : α} {xs : List α} (h : (scan key (key x) xs).2 = true) :
    insert key x xs = xs := by
  simp [insert, h]

theorem insert_perm {x : α} {xs : List α} (h : (scan key (key x) xs).2 = false) :
    (insert key x xs).Perm (x :: xs) := by
  simpa [insert, h] using List.perm_insertIdx x xs (scan_le_length _ _)

theorem mem_insert {x y : α} {xs : List α} (h : y ∈ insert key x xs) : y = x ∨ y ∈ xs := by
  cases found : (scan key (key x) xs).2 with
  | true => rw [insert_of_found found] at h; exact .inr h
  | false => exact List.mem_cons.mp ((insert_perm found).mem_iff.mp h)

theorem mem_insert_of_mem {x y : α} {xs : List α} (h : y ∈ xs) : y ∈ insert key x xs := by
  cases found : (scan key (key x) xs).2 with
  | true => rwa [insert_of_found found]
  | false => exact (insert_perm found).mem_iff.mpr (List.mem_cons_of_mem x h)

/-- The walk only stops at the key where it is. -/
theorem exists_of_found {k : β} {xs : List α} (h : (scan key k xs).2 = true) :
    ∃ y ∈ xs, key y = k := by
  induction xs with
  | nil => cases h
  | cons x xs ih =>
    simp only [scan] at h
    split at h
    next here => exact ⟨x, List.mem_cons_self, here⟩
    next =>
      split at h
      · cases h
      · obtain ⟨y, member, same⟩ := ih h
        exact ⟨y, List.mem_cons_of_mem x member, same⟩

/-- After the insertion the key is in the list, with the new element or an older one. -/
theorem exists_mem_insert (x : α) (xs : List α) : ∃ y ∈ insert key x xs, key y = key x := by
  cases found : (scan key (key x) xs).2 with
  | true =>
    rw [insert_of_found found]
    exact exists_of_found found
  | false => exact ⟨x, (insert_perm found).mem_iff.mpr List.mem_cons_self, rfl⟩

theorem insert_cons (x y : α) (xs : List α) :
    insert key x (y :: xs) =
      if key y = key x then y :: xs
      else if key x < key y then x :: y :: xs else y :: insert key x xs := by
  simp only [insert, scan]
  split
  · simp
  · split
    · simp
    · split <;> simp

theorem insert_increasing {x : α} {xs : List α} (sorted : Increasing key xs) :
    Increasing key (insert key x xs) := by
  induction xs with
  | nil => simp [insert, scan, Increasing]
  | cons y ys ih =>
    obtain ⟨above, tail⟩ := List.pairwise_cons.mp sorted
    rw [insert_cons]
    split
    · exact sorted
    next different =>
      split
      -- smaller than the first, so it comes in front of it
      next before =>
        refine List.pairwise_cons.mpr ⟨?_, sorted⟩
        rw [List.forall_mem_cons]
        exact ⟨before, fun z hz => lt_trans before (above z hz)⟩
      next notBefore =>
        have below : key y < key x := lt_of_le_of_ne (not_lt.mp notBefore) different
        refine List.pairwise_cons.mpr ⟨?_, ih tail⟩
        intro z hz
        rcases mem_insert hz with rfl | hz
        · exact below
        · exact above z hz

end UniqueInsert
