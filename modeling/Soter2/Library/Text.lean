import Mathlib.Algebra.Ring.Nat
import Mathlib.Data.List.Basic
import Mathlib.Tactic.Common

/-! # Text as bytes

The characters of a C program are bytes.  `ascii` gives the bytes of a literal, and `decimal`
those of a number as `printf` prints it; `value` reads decimal digits.

* `value_decimal` — a number is read back from its digits.
* `le_foldl_digit` — the value only grows with each digit.
-/

namespace Text

def ascii (s : String) : List UInt8 := s.toList.map fun c => c.toNat.toUInt8

def isDigit (c : UInt8) : Bool := 48 ≤ c && c ≤ 57

def isSpace (c : UInt8) : Bool := c = 32 || (9 ≤ c && c ≤ 13)

def toLower (c : UInt8) : UInt8 := if 65 ≤ c ∧ c ≤ 90 then c + 32 else c

def digit (c : UInt8) : Nat := c.toNat - 48

def decimal (n : Nat) : List UInt8 := (Nat.toDigits 10 n).map fun c => c.toNat.toUInt8

def value (digits : List UInt8) : Nat := digits.foldl (fun n c => n * 10 + digit c) 0

/-- A property of all bytes of a literal, by evaluation. -/
theorem forall_of_all {text : List UInt8} {P : UInt8 → Prop} [DecidablePred P]
    (h : text.all (P ·) = true) : ∀ c ∈ text, P c := by
  simpa using h

@[simp] theorem ascii_append (s t : String) : ascii (s ++ t) = ascii s ++ ascii t := by simp [ascii]

theorem isDigit_toNat {c : UInt8} : isDigit c = true ↔ 48 ≤ c.toNat ∧ c.toNat ≤ 57 := by
  simp [isDigit, UInt8.le_iff_toNat_le]

theorem not_isSpace_of_isDigit {c : UInt8} (h : isDigit c = true) : isSpace c = false := by
  have range := isDigit_toNat.mp h
  simp only [isSpace, Bool.or_eq_false_iff, Bool.and_eq_false_iff, decide_eq_false_iff_not,
    UInt8.le_iff_toNat_le]
  refine ⟨?_, .inr ?_⟩
  · rintro rfl
    exact absurd range.1 (by decide)
  · have : (13 : UInt8).toNat = 13 := rfl
    omega

theorem toNat_of_isDigit {c : Char} (h : c.isDigit = true) : c.toNat.toUInt8.toNat = c.toNat := by
  obtain ⟨-, high⟩ := Char.isDigit_iff_toNat.mp h
  have : '9'.toNat = 57 := rfl
  simp
  omega

theorem decimal_ne_nil (n : Nat) : decimal n ≠ [] := by simp [decimal]

theorem isDigit_of_mem_decimal {n : Nat} {c : UInt8} (h : c ∈ decimal n) : isDigit c = true := by
  obtain ⟨d, member, rfl⟩ := List.mem_map.mp h
  have digit := Nat.isDigit_of_mem_toDigits (by decide) (by decide) member
  rw [isDigit_toNat, toNat_of_isDigit digit]
  exact Char.isDigit_iff_toNat.mp digit

theorem length_decimal_le_iff {n k : Nat} (h : 0 < k) : (decimal n).length ≤ k ↔ n < 10 ^ k := by
  simpa [decimal] using Nat.length_toDigits_le_iff (by decide) h

theorem value_decimal (n : Nat) : value (decimal n) = n := by
  have digits : ∀ (l : List Char) (init : Nat), (∀ c ∈ l, c.isDigit = true) →
      (l.map fun c => c.toNat.toUInt8).foldl (fun n c => n * 10 + digit c) init
        = Nat.ofDigitChars 10 l init := by
    intro l
    induction l with
    | nil => intro init _; rfl
    | cons c l ih =>
      intro init all
      obtain ⟨here, rest⟩ := List.forall_mem_cons.mp all
      rw [List.map_cons, List.foldl_cons, ih _ rest, Nat.ofDigitChars_cons, digit,
        toNat_of_isDigit here, Nat.mul_comm]
      rfl
  rw [value, decimal, digits _ 0 fun c => Nat.isDigit_of_mem_toDigits (by decide) (by decide),
    Nat.ofDigitChars_ten_toDigits]

theorem le_foldl_digit (digits : List UInt8) (init : Nat) :
    init ≤ digits.foldl (fun n c => n * 10 + digit c) init := by
  induction digits generalizing init with
  | nil => exact Nat.le_refl _
  | cons c digits ih =>
    have grows : init ≤ init * 10 + digit c := by omega
    exact Nat.le_trans grows (ih _)

end Text
