import Mathlib.Data.List.Basic
import Mathlib.Data.List.Infix
import Mathlib.Tactic.Common

/-! # Parameters in a text

A value is encoded byte by byte: unreserved bytes stay, a space may become `+`, and any byte that is
not unreserved may become `%` with two hexadecimal digits.  Parameters `name=value` stand in a text
with `&` between them.

* `prefix_joined_iff` — what may stand in front of a `=` at the start of a text.
-/

namespace FormEncoding

abbrev ampersand : UInt8 := 38
abbrev equals : UInt8 := 61
abbrev percent : UInt8 := 37
abbrev plus : UInt8 := 43
abbrev space : UInt8 := 32

/-- Letters, digits, `-`, `.`, `_` and `~`. -/
def isUnreserved (c : UInt8) : Bool :=
  (48 ≤ c && c ≤ 57) || (65 ≤ c && c ≤ 90) || (97 ≤ c && c ≤ 122) ||
    c = 45 || c = 46 || c = 95 || c = 126

/-- A hexadecimal digit, in either case. -/
def hexDigit (upper : Bool) (n : Nat) : UInt8 :=
  if n < 10 then UInt8.ofNat (48 + n) else UInt8.ofNat ((if upper then 65 else 97) + (n - 10))

inductive EncodesByte : UInt8 → List UInt8 → Prop where
  | plain {c : UInt8} (unreserved : isUnreserved c = true) : EncodesByte c [c]
  | plus : EncodesByte space [plus]
  | percent {c : UInt8} (reserved : isUnreserved c = false) (high low : Bool) :
      EncodesByte c [percent, hexDigit high (c.toNat / 16), hexDigit low (c.toNat % 16)]

inductive Encodes : List UInt8 → List UInt8 → Prop where
  | nil : Encodes [] []
  | cons {c : UInt8} {value part rest : List UInt8} (byte : EncodesByte c part)
      (more : Encodes value rest) :
      Encodes (c :: value) (part ++ rest)

/-- The encoding that escapes all that may be. -/
def percentEncode (value : List UInt8) : List UInt8 :=
  value.flatMap fun c =>
    if isUnreserved c = true then [c]
    else [percent, hexDigit true (c.toNat / 16), hexDigit true (c.toNat % 16)]

/-- A parameter with one of the encodings of its value. -/
structure Param where
  name : List UInt8
  value : List UInt8
  encoded : List UInt8
  unreserved : ∀ c ∈ name, isUnreserved c = true
  nonzero : 0 ∉ value
  encodes : Encodes value encoded

def Param.text (p : Param) : List UInt8 := p.name ++ equals :: p.encoded

def joined (ps : List Param) : List UInt8 := [ampersand].intercalate (ps.map Param.text)

/-- For each parameter, the text from the start through its name. -/
def throughNames : List Param → List (List UInt8)
  | [] => []
  | p :: ps => p.name :: (throughNames ps).map fun more => p.text ++ ampersand :: more

variable {c : UInt8} {value encoded name text : List UInt8} {p : Param} {ps : List Param}

/-! ## Bytes that do not occur -/

theorem ne_of_isUnreserved {d : UInt8} (h : isUnreserved c = true)
    (reserved : isUnreserved d = false) : c ≠ d := by
  rintro rfl
  rw [h] at reserved
  cases reserved

theorem hexDigit_ne : ∀ upper, ∀ n < 16, hexDigit upper n ≠ ampersand ∧
    hexDigit upper n ≠ equals := by decide

theorem EncodesByte.mem {part : List UInt8} (h : EncodesByte c part) :
    ampersand ∉ part ∧ equals ∉ part := by
  cases h with
  | plain unreserved =>
    simp only [List.mem_singleton]
    exact ⟨(ne_of_isUnreserved unreserved rfl).symm, (ne_of_isUnreserved unreserved rfl).symm⟩
  | plus => decide
  | percent reserved high low =>
    have bound := c.toNat_lt
    have first := hexDigit_ne high (c.toNat / 16) (by omega)
    have second := hexDigit_ne low (c.toNat % 16) (by omega)
    simp only [List.mem_cons, List.not_mem_nil, or_false, not_or]
    exact ⟨⟨by decide, first.1.symm, second.1.symm⟩, ⟨by decide, first.2.symm, second.2.symm⟩⟩

theorem Encodes.mem (h : Encodes value encoded) : ampersand ∉ encoded ∧ equals ∉ encoded := by
  induction h with
  | nil => exact ⟨List.not_mem_nil, List.not_mem_nil⟩
  | cons byte more ih =>
    have here := byte.mem
    simp only [List.mem_append, not_or]
    exact ⟨⟨here.1, ih.1⟩, ⟨here.2, ih.2⟩⟩

theorem Param.not_mem_name {d : UInt8} (p : Param) (reserved : isUnreserved d = false) :
    d ∉ p.name :=
  fun member => ne_of_isUnreserved (p.unreserved d member) reserved rfl

theorem Param.ampersand_not_mem (p : Param) : ampersand ∉ p.text := by
  simp only [Param.text, List.mem_append, List.mem_cons, not_or]
  exact ⟨p.not_mem_name rfl, by decide, p.encodes.mem.1⟩

theorem encodes_percentEncode (value : List UInt8) : Encodes value (percentEncode value) := by
  induction value with
  | nil => exact .nil
  | cons c value ih =>
    rw [percentEncode, List.flatMap_cons]
    refine .cons ?_ ih
    split
    next unreserved => exact .plain unreserved
    next reserved => exact .percent (eq_false_of_ne_true reserved) true true

/-! ## The text of parameters -/

theorem joined_singleton (p : Param) : joined [p] = p.text := by
  simp [joined]

theorem joined_cons (p : Param) (nonempty : ps ≠ []) :
    joined (p :: ps) = p.text ++ ampersand :: joined ps := by
  obtain ⟨q, qs, rfl⟩ := List.exists_cons_of_ne_nil nonempty
  simp [joined, List.intercalate_cons_cons]

theorem text_prefix_joined (p : Param) (ps : List Param) : p.text <+: joined (p :: ps) := by
  cases ps with
  | nil => rw [joined_singleton]
  | cons q qs => rw [joined_cons p (List.cons_ne_nil q qs)]; exact List.prefix_append _ _

/-- A sequence that ends in a delimiter, at the start of a text that begins without one. -/
theorem concat_prefix_append {start : List UInt8} (absent : c ∉ start) :
    name ++ [c] <+: start ++ text ↔ ∃ more, name = start ++ more ∧ more ++ [c] <+: text := by
  induction start generalizing name with
  | nil => simp
  | cons a start ih =>
    obtain ⟨other, absent⟩ := not_or.mp (List.mem_cons.not.mp absent)
    cases name with
    | nil =>
      simp only [List.nil_append, List.cons_append, List.cons_prefix_cons]
      exact iff_of_false (fun starts => other starts.1) (by simp)
    | cons b name =>
      simp only [List.cons_append, List.cons_prefix_cons, ih absent, List.cons.injEq,
        ← exists_and_left, and_assoc]

theorem prefix_text_append {rest : List UInt8} : name ++ [equals] <+: p.text ++ rest ↔
    name = p.name ∨ ∃ more, name = p.text ++ more ∧ more ++ [equals] <+: rest := by
  have inName : equals ∉ p.name := p.not_mem_name rfl
  have inValue : equals ∉ p.encoded := p.encodes.mem.2
  simp only [Param.text, List.append_assoc, List.cons_append]
  rw [concat_prefix_append inName]
  constructor
  · rintro ⟨more, rfl, starts⟩
    -- nothing more than the name, or its `=` and the value
    cases more with
    | nil => exact .inl (List.append_nil _)
    | cons b more =>
      obtain ⟨rfl, behind⟩ := List.cons_prefix_cons.mp starts
      obtain ⟨last, rfl, more⟩ := (concat_prefix_append inValue).mp behind
      exact .inr ⟨last, rfl, more⟩
  · rintro (rfl | ⟨more, rfl, starts⟩)
    · exact ⟨[], (List.append_nil _).symm, List.cons_prefix_cons.mpr ⟨rfl, List.nil_prefix⟩⟩
    · exact ⟨equals :: (p.encoded ++ more), rfl,
        List.cons_prefix_cons.mpr ⟨rfl, (concat_prefix_append inValue).mpr ⟨more, rfl, starts⟩⟩⟩

/-- What stands at the start of a text and in front of a `=` ends with the name of a parameter. -/
theorem prefix_joined_iff : name ++ [equals] <+: joined ps ↔ name ∈ throughNames ps := by
  induction ps generalizing name with
  | nil => simp [joined, throughNames]
  | cons p ps ih =>
    simp only [throughNames, List.mem_cons, List.mem_map]
    cases ps with
    | nil =>
      rw [joined_singleton, ← List.append_nil p.text, prefix_text_append]
      simp [throughNames]
    | cons q qs =>
      rw [joined_cons p (List.cons_ne_nil q qs), prefix_text_append]
      -- behind the value comes the `&`, and then the text of the other parameters
      refine or_congr Iff.rfl ⟨?_, ?_⟩
      · rintro ⟨more, rfl, starts⟩
        cases more with
        | nil => exact absurd (List.cons_prefix_cons.mp starts).1 (by decide)
        | cons b more =>
          obtain ⟨rfl, behind⟩ := List.cons_prefix_cons.mp starts
          exact ⟨more, ih.mp behind, rfl⟩
      · rintro ⟨more, member, rfl⟩
        exact ⟨ampersand :: more, rfl, List.cons_prefix_cons.mpr ⟨rfl, ih.mpr member⟩⟩

end FormEncoding
