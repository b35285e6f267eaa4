import Mathlib.Data.List.Basic
import Mathlib.Data.List.Nodup
import Mathlib.Data.List.Perm.Basic
import Mathlib.Tactic.Common

/-! # Association tables

An array of key-value pairs that is searched from the front, with no key twice.  A slot
of the array stands for a pointer to the value in it: `setAt` writes through such a
pointer.  `get_eq_some` reduces every look-up to membership of the pair.
-/

structure AssocTable (κ β : Type*) where
  entries : List (κ × β)
  unique : (entries.map Prod.fst).Nodup

namespace AssocTable

variable {κ β : Type*}

instance [DecidableEq κ] [DecidableEq β] : DecidableEq (AssocTable κ β) := fun s t =>
  decidable_of_iff (s.entries = t.entries) (by cases s; cases t; simp)

theorem ext_entries {s t : AssocTable κ β} (h : s.entries = t.entries) : s = t := by
  cases s
  cases t
  cases h
  rfl

def empty : AssocTable κ β := ⟨[], List.nodup_nil⟩

theorem map_fst_modify (entries : List (κ × β)) (i : Nat) (f : β → β) :
    (entries.modify i (fun e => (e.1, f e.2))).map Prod.fst = entries.map Prod.fst := by
  apply List.ext_getElem?
  intro j
  simp only [List.getElem?_map, List.getElem?_modify]
  by_cases here : i = j
  · cases entries[j]? <;> simp [here]
  · simp [here]

def setAt (t : AssocTable κ β) (i : Nat) (f : β → β) : AssocTable κ β :=
  ⟨t.entries.modify i (fun e => (e.1, f e.2)), by rw [map_fst_modify]; exact t.unique⟩

section Slots

variable {t : AssocTable κ β} {i : Nat} {key k : κ} {value v : β}

theorem setAt_slot (slot : t.entries[i]? = some (key, value)) (f : β → β) :
    (t.setAt i f).entries[i]? = some (key, f value) := by
  simp [setAt, slot]

theorem setAt_id (slot : t.entries[i]? = some (key, value)) {f : β → β} (same : f value = value) :
    t.setAt i f = t := by
  have entries : (t.setAt i f).entries = t.entries := by
    apply List.ext_getElem?
    intro j
    simp only [setAt, List.getElem?_modify]
    by_cases here : i = j
    · subst here
      simp [slot, same]
    · simp [here]
  cases t
  simpa only [setAt, AssocTable.mk.injEq] using entries

theorem mem_setAt {f : β → β} (h : (k, v) ∈ (t.setAt i f).entries) :
    (k, v) ∈ t.entries ∨ ∃ u, (k, u) ∈ t.entries ∧ v = f u := by
  obtain ⟨j, slot⟩ := List.mem_iff_getElem?.mp h
  simp only [setAt, List.getElem?_modify] at slot
  obtain ⟨e, at_, eq⟩ := Option.map_eq_some_iff.mp slot
  by_cases here : i = j
  · rw [if_pos here] at eq
    cases eq
    exact .inr ⟨e.2, List.mem_of_getElem? at_, rfl⟩
  · rw [if_neg here] at eq
    cases eq
    exact .inl (List.mem_of_getElem? at_)

end Slots

def mapValues (t : AssocTable κ β) (f : β → β) : AssocTable κ β :=
  ⟨t.entries.map (fun e => (e.1, f e.2)), by
    rw [List.map_map]
    exact t.unique⟩

theorem mem_mapValues {t : AssocTable κ β} {k : κ} {v : β} {f : β → β}
    (h : (k, v) ∈ (t.mapValues f).entries) : ∃ u, (k, u) ∈ t.entries ∧ v = f u := by
  obtain ⟨⟨a, u⟩, member, eq⟩ := List.mem_map.mp h
  obtain ⟨rfl, rfl⟩ := Prod.mk.inj eq
  exact ⟨u, member, rfl⟩

section Search

variable [DecidableEq κ]

def find (t : AssocTable κ β) (key : κ) : Option Nat := t.entries.findIdx? (fun e => e.1 = key)

def get (t : AssocTable κ β) (key : κ) : Option β :=
  (t.find key).bind fun i => t.entries[i]?.map Prod.snd

theorem find_none {t : AssocTable κ β} {key : κ} :
    t.find key = none ↔ key ∉ t.entries.map Prod.fst := by
  simp only [find, List.findIdx?_eq_none_iff, List.mem_map, not_exists, not_and,
    decide_eq_false_iff_not]

/-- Overwrite the value of the key, or append a new pair. -/
def set (t : AssocTable κ β) (key : κ) (value : β) : AssocTable κ β :=
  match h : t.find key with
  | some i => t.setAt i (fun _ => value)
  | none => ⟨t.entries ++ [(key, value)], by
      rw [List.map_append, List.nodup_append]
      refine ⟨t.unique, by simp, ?_⟩
      rintro a ha b hb rfl
      obtain rfl : a = key := by simpa using hb
      exact find_none.mp h ha⟩

/-- Remove the pair of the key; the ones behind it move up. -/
def remove (t : AssocTable κ β) (key : κ) : AssocTable κ β :=
  match t.find key with
  | some i => ⟨t.entries.eraseIdx i,
      t.unique.sublist ((List.eraseIdx_sublist t.entries i).map Prod.fst)⟩
  | none => t

/-- Write through the pointer to the value of the key, if there is one. -/
def modify (t : AssocTable κ β) (key : κ) (f : β → β) : AssocTable κ β :=
  match t.find key with
  | some i => t.setAt i f
  | none => t

/-! ## Slots and look-ups -/

variable {t : AssocTable κ β} {i : Nat} {key k : κ} {value v : β}

theorem find_slot (h : t.find key = some i) : ∃ value, t.entries[i]? = some (key, value) := by
  obtain ⟨bound, found, -⟩ := List.findIdx?_eq_some_iff_getElem.mp h
  have same : t.entries[i].1 = key := by simpa using found
  exact ⟨t.entries[i].2, by rw [List.getElem?_eq_getElem bound, ← same]⟩

theorem find_of_slot (slot : t.entries[i]? = some (key, value)) : t.find key = some i := by
  cases found : t.find key with
  | none =>
    exact absurd (List.mem_map_of_mem (List.mem_of_getElem? slot)) (find_none.mp found)
  | some j =>
    obtain ⟨other, slot'⟩ := find_slot found
    have keyAt : ∀ (n : Nat) (v : β), t.entries[n]? = some (key, v) →
        (t.entries.map Prod.fst)[n]? = some key := by
      intro n v h
      rw [List.getElem?_map, h]
      rfl
    obtain ⟨bound, -⟩ := List.getElem?_eq_some_iff.mp slot
    have same := (keyAt i value slot).trans (keyAt j other slot').symm
    exact congrArg some ((List.getElem?_inj (by simpa using bound) t.unique).mp same).symm

theorem get_of_slot (slot : t.entries[i]? = some (key, value)) : t.get key = some value := by
  simp [get, find_of_slot slot, slot]

theorem get_eq_some : t.get key = some value ↔ (key, value) ∈ t.entries := by
  constructor
  · intro h
    obtain ⟨i, found, at_⟩ := Option.bind_eq_some_iff.mp h
    obtain ⟨other, slot⟩ := find_slot found
    rw [slot] at at_
    obtain rfl : other = value := by simpa using at_
    exact List.mem_of_getElem? slot
  · intro h
    obtain ⟨i, slot⟩ := List.mem_iff_getElem?.mp h
    exact get_of_slot slot

theorem get_eq_none : t.get key = none ↔ key ∉ t.entries.map Prod.fst := by
  rw [Option.eq_none_iff_forall_ne_some]
  simp only [Ne, get_eq_some, List.mem_map, not_exists, not_and]
  constructor
  · rintro absent ⟨k, v⟩ member rfl
    exact absent v member
  · exact fun absent v member => absent (key, v) member rfl

/-! ## Writing through a slot -/

theorem get_setAt_self (slot : t.entries[i]? = some (key, value)) (f : β → β) :
    (t.setAt i f).get key = some (f value) :=
  get_of_slot (setAt_slot slot f)

theorem get_setAt_ne (slot : t.entries[i]? = some (key, value)) (f : β → β) (other : k ≠ key) :
    (t.setAt i f).get k = t.get k := by
  apply Option.ext
  intro v
  rw [get_eq_some, get_eq_some, List.mem_iff_getElem?, List.mem_iff_getElem?]
  refine exists_congr fun j => ?_
  simp only [setAt, List.getElem?_modify]
  by_cases here : i = j
  · subst here
    simp [slot, other.symm]
  · simp [here]

theorem get_none_of_find (h : t.find key = none) : t.get key = none := by simp [get, h]

@[simp] theorem get_modify_self (t : AssocTable κ β) (key : κ) (f : β → β) :
    (t.modify key f).get key = (t.get key).map f := by
  rw [modify]
  split
  next i found =>
    obtain ⟨value, slot⟩ := find_slot found
    rw [get_setAt_self slot, get_of_slot slot, Option.map_some]
  next absent => rw [get_none_of_find absent, Option.map_none]

theorem get_modify_ne (t : AssocTable κ β) (f : β → β) (other : k ≠ key) :
    (t.modify key f).get k = t.get k := by
  rw [modify]
  split
  next i found =>
    obtain ⟨value, slot⟩ := find_slot found
    exact get_setAt_ne slot f other
  next => rfl

theorem mem_modify {f : β → β} (h : (k, v) ∈ (t.modify key f).entries) :
    (k, v) ∈ t.entries ∨ ∃ u, (k, u) ∈ t.entries ∧ v = f u := by
  rw [modify] at h
  split at h
  · exact mem_setAt h
  · exact .inl h

/-! ## Setting -/

theorem entries_set_found (found : t.find key = some i) (value : β) :
    (t.set key value).entries = t.entries.modify i fun e => (e.1, value) := by
  rw [set]
  split
  next j here =>
    cases found.symm.trans here
    rfl
  next absent => cases found.symm.trans absent

theorem entries_set_absent (absent : t.find key = none) (value : β) :
    (t.set key value).entries = t.entries ++ [(key, value)] := by
  rw [set]
  split
  next here => cases absent.symm.trans here
  next => rfl

@[simp] theorem get_set_self (t : AssocTable κ β) (key : κ) (value : β) :
    (t.set key value).get key = some value := by
  rw [set]
  split
  next i found =>
    obtain ⟨old, slot⟩ := find_slot found
    exact get_setAt_self slot _
  next => exact get_eq_some.mpr (List.mem_append_right _ (List.mem_singleton_self _))

theorem get_set_ne (t : AssocTable κ β) (value : β) (other : k ≠ key) :
    (t.set key value).get k = t.get k := by
  rw [set]
  split
  next i found =>
    obtain ⟨old, slot⟩ := find_slot found
    exact get_setAt_ne slot _ other
  next =>
    apply Option.ext
    intro v
    simp [get_eq_some, other]

/-! ## Removing -/

theorem entries_remove_found (found : t.find key = some i) :
    (t.remove key).entries = t.entries.eraseIdx i := by
  rw [remove, found]

theorem remove_absent (absent : t.find key = none) : t.remove key = t := by
  rw [remove, absent]

theorem mem_remove : (k, v) ∈ (t.remove key).entries ↔ k ≠ key ∧ (k, v) ∈ t.entries := by
  rw [remove]
  split
  next i found =>
    -- each key has one slot, so only that of the key goes
    obtain ⟨value, slot⟩ := find_slot found
    rw [List.mem_eraseIdx_iff_getElem?, List.mem_iff_getElem?]
    constructor
    · rintro ⟨j, elsewhere, h⟩
      refine ⟨?_, j, h⟩
      rintro rfl
      have := find_of_slot h
      rw [found] at this
      exact elsewhere (Option.some.inj this).symm
    · rintro ⟨other, j, h⟩
      refine ⟨j, ?_, h⟩
      rintro rfl
      rw [slot] at h
      exact other (congrArg Prod.fst (Option.some.inj h)).symm
  next absent =>
    refine ⟨fun h => ⟨?_, h⟩, And.right⟩
    rintro rfl
    exact find_none.mp absent (List.mem_map_of_mem h)

theorem get_remove_self : (t.remove key).get key = none := by
  cases h : (t.remove key).get key with
  | none => rfl
  | some value => exact absurd rfl (mem_remove.mp (get_eq_some.mp h)).1

theorem get_remove_ne (other : k ≠ key) : (t.remove key).get k = t.get k := by
  apply Option.ext
  intro v
  rw [get_eq_some, get_eq_some, mem_remove]
  exact and_iff_right other

/-! ## The pairs up to their order -/

/-- What a write to one place of a list leaves. -/
theorem modify_perm {α : Type*} {l : List α} {i : Nat} {a : α} (slot : l[i]? = some a) (f : α → α) :
    (l.modify i f).Perm (f a :: l.eraseIdx i) := by
  induction l generalizing i with
  | nil => simp at slot
  | cons b l ih =>
    cases i with
    | zero =>
      obtain rfl : b = a := by simpa using slot
      exact .refl _
    | succ i => exact ((ih (by simpa using slot)).cons b).trans (.swap _ _ _)

theorem entries_perm (h : t.get key = some value) :
    t.entries.Perm ((key, value) :: (t.remove key).entries) := by
  obtain ⟨i, slot⟩ := List.mem_iff_getElem?.mp (get_eq_some.mp h)
  rw [entries_remove_found (find_of_slot slot)]
  simpa using modify_perm slot id

theorem entries_set_perm (t : AssocTable κ β) (key : κ) (value : β) :
    (t.set key value).entries.Perm ((key, value) :: (t.remove key).entries) := by
  cases found : t.find key with
  | none =>
    rw [entries_set_absent found, remove_absent found]
    exact List.perm_append_singleton _ _
  | some i =>
    obtain ⟨old, slot⟩ := find_slot found
    rw [entries_set_found found, entries_remove_found found]
    exact modify_perm slot _

theorem entries_modify_perm (h : t.get key = some value) (f : β → β) :
    (t.modify key f).entries.Perm ((key, f value) :: (t.remove key).entries) := by
  obtain ⟨i, slot⟩ := List.mem_iff_getElem?.mp (get_eq_some.mp h)
  rw [entries_remove_found (find_of_slot slot), modify, find_of_slot slot]
  exact modify_perm slot fun e => (e.1, f e.2)

theorem modify_absent (h : t.get key = none) (f : β → β) : t.modify key f = t := by
  rw [modify, find_none.mpr (get_eq_none.mp h)]

theorem remove_of_get_none (h : t.get key = none) : t.remove key = t :=
  remove_absent (find_none.mpr (get_eq_none.mp h))

theorem get_mapValues (t : AssocTable κ β) (f : β → β) (k : κ) :
    (t.mapValues f).get k = (t.get k).map f := by
  apply Option.ext
  intro v
  simp only [get_eq_some, mapValues, List.mem_map, Prod.exists, Prod.mk.injEq,
    Option.map_eq_some_iff]
  constructor
  · rintro ⟨_, u, member, rfl, same⟩
    exact ⟨u, member, same⟩
  · rintro ⟨u, member, same⟩
    exact ⟨k, u, member, rfl, same⟩

/-- The pairs whose keys are kept. -/
def retain (t : AssocTable κ β) (keep : κ → Bool) : AssocTable κ β :=
  ⟨t.entries.filter fun e => keep e.1, t.unique.sublist (List.filter_sublist.map Prod.fst)⟩

/-! ## Properties of all entries -/

theorem mem_set (h : (k, v) ∈ (t.set key value).entries) :
    (k, v) ∈ t.entries ∨ k = key ∧ v = value := by
  rw [set] at h
  split at h
  next i found =>
    obtain ⟨old, slot⟩ := find_slot found
    obtain ⟨j, at_⟩ := List.mem_iff_getElem?.mp h
    simp only [setAt, List.getElem?_modify] at at_
    by_cases here : i = j
    · subst here
      simp only [slot, if_true, Option.map_eq_map, Option.map_some, Option.some.injEq,
        Prod.mk.injEq] at at_
      exact .inr ⟨at_.1.symm, at_.2.symm⟩
    · simp only [here, if_false, Option.map_eq_map, Option.map_id'] at at_
      exact .inl (List.mem_of_getElem? (by simpa using at_))
  next =>
    cases List.mem_append.mp h with
    | inl old => exact .inl old
    | inr new => exact .inr (by simpa using new)

end Search

end AssocTable
