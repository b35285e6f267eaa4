import Mathlib.Data.List.Basic
import Mathlib.Data.List.Infix
import Mathlib.Tactic.Common

/-! # Delimiters in a list

`find` gives the place of the first occurrence of a sequence.  A text of lines is a list of
lines with a line end, of two different symbols, behind each of them (`terminated`), and it
ends where a line end follows directly on another.

* `find_line`, `find_last` — where the first line of a text ends.
* `find_blank_line`, `find_no_blank_line` — where a text of lines ends.
* `split_terminated` — the lines of a text are its pieces between the separators.
-/

namespace Delimited

variable {α : Type*} {seq text rest line last : List α} {lines : List (List α)} {c cr lf : α}
    {i : Nat}

/-- The lines, each with the separator behind it. -/
def terminated (sep : List α) (lines : List (List α)) : List α := lines.flatMap (· ++ sep)

@[simp] theorem terminated_nil (sep : List α) : terminated sep [] = [] := rfl

@[simp] theorem terminated_cons (sep line : List α) (lines : List (List α)) :
    terminated sep (line :: lines) = line ++ (sep ++ terminated sep lines) := by
  simp [terminated]

@[simp] theorem terminated_append (sep : List α) (lines more : List (List α)) :
    terminated sep (lines ++ more) = terminated sep lines ++ terminated sep more := by
  simp [terminated]

theorem drop_delimited (line sep rest : List α) :
    (line ++ (sep ++ rest)).drop (line.length + sep.length) = rest := by
  rw [← List.append_assoc, ← List.length_append, List.drop_left]

/-- A text that starts with another symbol than the end of a line. -/
def StartsPlain (cr : α) (text : List α) : Prop := ∃ a behind, text = a :: behind ∧ cr ≠ a

theorem startsPlain_append (plain : line ≠ [] ∧ cr ∉ line) (more : List α) :
    StartsPlain cr (line ++ more) := by
  obtain ⟨a, behind, rfl⟩ := List.exists_cons_of_ne_nil plain.1
  exact ⟨a, behind ++ more, rfl, fun same => plain.2 (same ▸ List.mem_cons_self)⟩

variable [DecidableEq α]

/-- The index of the first occurrence of the sequence in the list. -/
def find (seq : List α) : List α → Option Nat
  | [] => if seq = [] then some 0 else none
  | a :: l => if seq <+: a :: l then some 0 else (find seq l).map (· + 1)

theorem find_of_prefix (h : seq <+: rest) : find seq rest = some 0 := by
  cases rest with
  | nil => simp [find, List.prefix_nil.mp h]
  | cons a l => simp [find, h]

/-- An occurrence ends in the list. -/
theorem find_le (h : find seq text = some i) : i + seq.length ≤ text.length := by
  induction text generalizing i with
  | nil =>
    obtain ⟨rfl, rfl⟩ : seq = [] ∧ 0 = i := by simpa [find] using h
    exact Nat.le_refl _
  | cons a text ih =>
    rw [find] at h
    split_ifs at h with here
    · cases h
      simpa using here.length_le
    · obtain ⟨j, there, rfl⟩ := Option.map_eq_some_iff.mp h
      have := ih there
      rw [List.length_cons]
      omega

/-- What follows does not move the first occurrence. -/
theorem find_append (h : find seq text = some i) (more : List α) :
    find seq (text ++ more) = some i := by
  induction text generalizing i with
  | nil =>
    obtain ⟨rfl, rfl⟩ : seq = [] ∧ 0 = i := by simpa [find] using h
    exact find_of_prefix List.nil_prefix
  | cons a text ih =>
    rw [find] at h
    split_ifs at h with here
    · cases h
      exact find_of_prefix (here.trans (List.prefix_append _ more))
    · obtain ⟨j, there, rfl⟩ := Option.map_eq_some_iff.mp h
      have short := find_le there
      -- an occurrence at the head would end in the text as well
      have notHere : ¬ seq <+: a :: (text ++ more) := fun starts => here <|
        List.prefix_of_prefix_length_le starts (List.prefix_append (a :: text) more)
          (by rw [List.length_cons]; omega)
      rw [List.cons_append, find, if_neg notHere, ih there, Option.map_some]

/-- An occurrence does not start where its first symbol is missing. -/
theorem find_skip (absent : c ∉ line) :
    find (c :: seq) (line ++ rest) = (find (c :: seq) rest).map (line.length + ·) := by
  induction line with
  | nil => simp
  | cons a line ih =>
    obtain ⟨other, absent⟩ := not_or.mp (List.mem_cons.not.mp absent)
    have here : ¬ c :: seq <+: a :: (line ++ rest) :=
      fun starts => other (List.cons_prefix_cons.mp starts).1
    rw [List.cons_append, find, if_neg here, ih absent, Option.map_map]
    congr 1
    funext i
    simp only [Function.comp, List.length_cons]
    omega

theorem find_line (plain : cr ∉ line) (rest : List α) :
    find [cr, lf] (line ++ ([cr, lf] ++ rest)) = some line.length := by
  rw [find_skip plain, find_of_prefix (List.prefix_append _ _)]
  rfl

theorem find_last (plain : cr ∉ line) : find [cr, lf] line = none := by
  have skip : find [cr, lf] (line ++ []) = (find [cr, lf] []).map (line.length + ·) :=
    find_skip plain
  simpa [find] using skip

/-- There is no blank line behind the end of a line if another line starts there. -/
theorem find_blank_skip (distinct : cr ≠ lf) (plain : ∀ line ∈ lines, line ≠ [] ∧ cr ∉ line)
    (next : StartsPlain cr text) :
    find [cr, lf, cr, lf] (terminated [cr, lf] lines ++ text)
      = (find [cr, lf, cr, lf] text).map ((terminated [cr, lf] lines).length + ·) := by
  induction lines with
  | nil => simp
  | cons line lines ih =>
    obtain ⟨here, plain⟩ := List.forall_mem_cons.mp plain
    -- what stands behind the end of the line starts another line, so no blank one
    obtain ⟨a, behind, starts, other⟩ : StartsPlain cr (terminated [cr, lf] lines ++ text) := by
      cases lines with
      | nil => exact next
      | cons line lines =>
        rw [terminated_cons, List.append_assoc]
        exact startsPlain_append (plain line List.mem_cons_self) _
    have skip : find [cr, lf, cr, lf] (cr :: lf :: (a :: behind))
        = (find [cr, lf, cr, lf] (a :: behind)).map (2 + ·) := by
      rw [find, if_neg (by simp [List.cons_prefix_cons, other]), find, if_neg (by simp [distinct]),
        Option.map_map]
      congr 1
      funext i
      simp only [Function.comp]
      omega
    rw [terminated_cons, List.append_assoc, List.append_assoc, find_skip here.2, starts,
      List.cons_append, List.cons_append,
      List.nil_append, skip, ← starts, ih plain, Option.map_map, Option.map_map]
    congr 1
    funext i
    simp only [Function.comp, List.length_append, List.length_cons, List.length_nil]
    omega

/-- The first blank line of a text is the one behind its last line. -/
theorem find_blank_line (distinct : cr ≠ lf) (plain : ∀ line ∈ lines, line ≠ [] ∧ cr ∉ line)
    (lastPlain : last ≠ [] ∧ cr ∉ last) (rest : List α) :
    find [cr, lf, cr, lf] (terminated [cr, lf] lines ++ (last ++ ([cr, lf, cr, lf] ++ rest)))
      = some ((terminated [cr, lf] lines).length + last.length) := by
  rw [find_blank_skip distinct plain (startsPlain_append lastPlain _), find_skip lastPlain.2,
    find_of_prefix (List.prefix_append _ _)]
  rfl

/-- While a text has no blank line, none is found. -/
theorem find_no_blank_line (distinct : cr ≠ lf) (plain : ∀ line ∈ lines, line ≠ [] ∧ cr ∉ line)
    (lastPlain : last ≠ [] ∧ cr ∉ last) :
    find [cr, lf, cr, lf] (terminated [cr, lf] lines ++ last) = none := by
  have next := startsPlain_append lastPlain []
  have absent : find [cr, lf, cr, lf] (last ++ [])
      = (find [cr, lf, cr, lf] []).map (last.length + ·) := find_skip lastPlain.2
  rw [List.append_nil] at next absent
  rw [find_blank_skip distinct plain next, absent]
  rfl

/-! ## Pieces between separators -/

/-- The pieces of a list, cut at so many separators at most. -/
def splitFuel (sep : List α) : Nat → List α → List (List α)
  | 0, text => [text]
  | fuel + 1, text =>
    match find sep text with
    | none => [text]
    | some i => text.take i :: splitFuel sep fuel (text.drop (i + sep.length))

/-- The pieces between the separators. -/
def split (sep text : List α) : List (List α) := splitFuel sep text.length text

theorem splitFuel_ne_nil (sep : List α) (fuel : Nat) (text : List α) :
    splitFuel sep fuel text ≠ [] := by
  cases fuel with
  | zero => exact List.cons_ne_nil _ _
  | succ fuel =>
    rw [splitFuel]
    split <;> exact List.cons_ne_nil _ _

variable {sep : List α}

theorem split_of_find_none (absent : find sep text = none) : split sep text = [text] := by
  rw [split]
  cases text with
  | nil => rfl
  | cons a text => simp only [List.length_cons, splitFuel, absent]

section
variable (nonempty : sep ≠ [])
include nonempty

/-- Each separator takes a symbol at least. -/
theorem splitFuel_eq_split {fuel : Nat} (enough : text.length ≤ fuel) :
    splitFuel sep fuel text = split sep text := by
  -- two amounts of fuel that are both enough
  have agree : ∀ (n m : Nat) (text : List α), text.length ≤ n → text.length ≤ m →
      splitFuel sep n text = splitFuel sep m text := by
    have last : ∀ fuel, splitFuel sep fuel [] = [[]] := by
      rintro (_ | fuel)
      · rfl
      · simp [splitFuel, find, nonempty]
    intro n
    induction n with
    | zero =>
      intro m text short _
      rw [List.length_eq_zero_iff.mp (Nat.le_zero.mp short), last, last]
    | succ n ih =>
      intro m text short short'
      cases m with
      | zero => rw [List.length_eq_zero_iff.mp (Nat.le_zero.mp short'), last, last]
      | succ m =>
        cases found : find sep text with
        | none => simp only [splitFuel, found]
        | some i =>
          have := find_le found
          have := List.length_pos_iff.mpr nonempty
          have rest : (text.drop (i + sep.length)).length ≤ min n m := by
            rw [List.length_drop]
            omega
          simp only [splitFuel, found, ih m _ (rest.trans (Nat.min_le_left _ _))
            (rest.trans (Nat.min_le_right _ _))]
  exact agree fuel text.length text enough (Nat.le_refl _)

theorem split_of_find_some (found : find sep text = some i) :
    split sep text = text.take i :: split sep (text.drop (i + sep.length)) := by
  have inside := find_le found
  have := List.length_pos_iff.mpr nonempty
  obtain ⟨fuel, length⟩ : ∃ fuel, text.length = fuel + 1 := ⟨text.length - 1, by omega⟩
  have rest : (text.drop (i + sep.length)).length ≤ fuel := by
    rw [List.length_drop]
    omega
  rw [split, length]
  simp only [splitFuel, found, splitFuel_eq_split nonempty rest]

end

/-- Lines are the pieces of their text, and what is behind the last end of a line is one more. -/
theorem split_terminated (plain : ∀ line ∈ lines, cr ∉ line) (lastPlain : cr ∉ last) :
    split [cr, lf] (terminated [cr, lf] lines ++ last) = lines ++ [last] := by
  induction lines with
  | nil => exact split_of_find_none (find_last lastPlain)
  | cons line lines ih =>
    obtain ⟨here, plain⟩ := List.forall_mem_cons.mp plain
    rw [terminated_cons, List.append_assoc, List.append_assoc,
      split_of_find_some (List.cons_ne_nil _ _) (find_line here _), List.take_left, drop_delimited,
        ih plain]
    rfl

end Delimited
