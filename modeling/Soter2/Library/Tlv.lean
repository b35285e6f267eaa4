import Mathlib.Data.List.Basic
import Mathlib.Data.List.GetD
import Mathlib.Tactic.Common
import Soter2.Library.Words

/-! # Attributes one behind the other

An attribute is a type, a length, both of two bytes in network order, and a value that is filled up
to a multiple of four bytes.  `first` walks over the attributes of a range to the first one of a
kind; its value may be cut by the end of the range.
-/

namespace Tlv

open Words (swap16 word16)

structure Attr where
  type : UInt16
  len : Nat
  /-- The range behind the header of the attribute. -/
  behind : List UInt8

/-- Two bytes in network order. -/
def be16 (a b : UInt8) : UInt16 := swap16 (word16 [a, b])

/-- The attribute at the start of a range. -/
def header : List UInt8 → Option Attr
  | a :: b :: c :: d :: behind => some ⟨be16 a b, (be16 c d).toNat, behind⟩
  | _ => none

def padded (len : Nat) : Nat := (len + 3) / 4 * 4

/-- The first attribute that passes, among no more than `fuel`. -/
def find (p : UInt16 → Bool) : Nat → List UInt8 → Option Attr
  | 0, _ => none
  | fuel + 1, range =>
    match header range with
    | none => none
    | some attr =>
      if p attr.type then some attr else find p fuel (attr.behind.drop (padded attr.len))

def first (p : UInt16 → Bool) (range : List UInt8) : Option Attr := find p range.length range

variable {p : UInt16 → Bool} {range : List UInt8} {attr : Attr} {pos : Nat}

theorem header_length (h : header range = some attr) : attr.behind.length + 4 = range.length := by
  match range, h with
  | a :: b :: c :: d :: behind, h =>
    cases h
    rfl

/-- The attribute at a position of a range. -/
theorem header_drop (inside : pos + 4 ≤ range.length) :
    header (range.drop pos) = some ⟨be16 (range.getD pos 0) (range.getD (pos + 1) 0),
      (be16 (range.getD (pos + 2) 0) (range.getD (pos + 3) 0)).toNat, range.drop (pos + 4)⟩ := by
  have step : ∀ i, i < range.length → range.drop i = range.getD i 0 :: range.drop (i + 1) := by
    intro i below
    rw [List.drop_eq_getElem_cons below, List.getD_eq_getElem _ _ below]
  rw [step pos (by omega), step (pos + 1) (by omega), step (pos + 2) (by omega),
    step (pos + 3) (by omega)]
  rfl

theorem header_drop_eq_none (outside : range.length < pos + 4) :
    header (range.drop pos) = none := by
  have short : (range.drop pos).length < 4 := by rw [List.length_drop]; omega
  match range.drop pos, short with
  | [], _ | [_], _ | [_, _], _ | [_, _, _], _ => rfl

theorem find_of_length_le {fuel : Nat} (enough : range.length ≤ fuel) :
    find p fuel range = first p range := by
  -- any two amounts of fuel that cover the range agree
  have main : ∀ (m n : Nat) (range : List UInt8), range.length ≤ m → range.length ≤ n →
      find p m range = find p n range := by
    intro m
    induction m with
    | zero =>
      intro n range small _
      rw [List.eq_nil_of_length_eq_zero (Nat.le_zero.mp small)]
      cases n <;> rfl
    | succ m ih =>
      intro n range small large
      cases n with
      | zero =>
        rw [List.eq_nil_of_length_eq_zero (Nat.le_zero.mp large)]
        rfl
      | succ n =>
        rw [find, find]
        cases here : header range with
        | none => rfl
        | some attr =>
          have length := header_length here
          have shorter : (attr.behind.drop (padded attr.len)).length ≤ attr.behind.length := by
            rw [List.length_drop]
            exact Nat.sub_le _ _
          simp only
          rw [ih n _ (by omega) (by omega)]
  exact main fuel range.length range enough (Nat.le_refl _)

end Tlv
