import Mathlib.Data.List.Basic
import Mathlib.Data.List.TakeWhile
import Mathlib.Tactic.Common
import Soter2.Uhttp.Query
import Soter2.Uhttp.Routes

/-! # Parameters as a handler reads them (`uhttp/src/api.c`)

Here a query is any pieces with `&` between them, whoever wrote it: `pieceOf` is what stands
behind `name=` in the first piece that starts so.

* `uhttpParseParams_pieces` — a name without an `&` is looked up piece by piece.
* `decodeLoop_unescaped` — what a value that was not encoded is read as.
-/

namespace Soter2.Uhttp

open FormEncoding
open Lownet (cString)

structure UhttpParam where
  name : List UInt8
  value : Option (List UInt8)

def uhttpAnyParams (req : UhttpRequest) : Bool := 63 ∈ cString req.path

/-- What `uhttp_parse_params` leaves in the parameters of these names. -/
def parsedParams (names : List (List UInt8)) (parsed : List QueryParam) : List UhttpParam :=
  names.zipWith (fun name param => ⟨name, param.out.map cString⟩) parsed

def uhttpGetParam (params : List UhttpParam) (name : List UInt8) : Option (List UInt8) :=
  (params.find? (·.name = name)).bind (·.value)

/-- `uhttp_create_responseq`. -/
def uhttpCreateResponseq (statusCode : Int) (statusText body : Option (List UInt8)) (bodyLen : Nat)
    (contentType : UhttpContentType) : UhttpResponse :=
  uhttpCreateResponse statusCode statusText body bodyLen contentType

/-! ## The pieces of a query -/

/-- What stands behind `name=`. -/
def pieceOf (pieces : List (List UInt8)) (name : List UInt8) : Option (List UInt8) :=
  (pieces.find? (name ++ [equals] <+: ·)).map (·.drop (name.length + 1))

variable {name piece rest : List UInt8} {pieces : List (List UInt8)} {maxOutSize : Nat}

/-- A text without the delimiter ends in front of it. -/
theorem prefix_delimited {c : UInt8} {start : List UInt8} (absent : c ∉ start) :
    start <+: piece ++ c :: rest ↔ start <+: piece := by
  induction start generalizing piece with
  | nil => simp
  | cons a start ih =>
    obtain ⟨other, absent⟩ := not_or.mp (List.mem_cons.not.mp absent)
    cases piece with
    | nil =>
      exact iff_of_false (fun starts => other (List.cons_prefix_cons.mp starts).1.symm) (by simp)
    | cons b piece => simp only [List.cons_append, List.cons_prefix_cons, ih absent]

theorem valueAt_piece (apart : ampersand ∉ piece) (found : name ++ [equals] <+: piece)
    (behind : rest = [] ∨ ∃ more, rest = ampersand :: more) :
    valueAt (piece ++ rest) name 0 = piece.drop (name.length + 1) := by
  have long := found.length_le
  rw [List.length_append, List.length_singleton] at long
  have plain : ∀ c ∈ piece.drop (name.length + 1), decide (c ≠ ampersand) = true := fun c member =>
    decide_eq_true fun same => apart (same ▸ List.mem_of_mem_drop member)
  rw [valueAt, Nat.zero_add, List.drop_append_of_le_length long, List.takeWhile_append_of_pos plain]
  cases behind with
  | inl none_ => rw [none_, List.takeWhile_nil, List.append_nil]
  | inr more =>
    obtain ⟨more, rfl⟩ := more
    rw [List.takeWhile_cons_of_neg (by decide), List.append_nil]

theorem paramLoop_pieces (plain : ampersand ∉ name) (nonempty : pieces ≠ [])
    (apart : ∀ piece ∈ pieces, ampersand ∉ piece) :
    ∀ (before : List UInt8) (fuel : Nat), StartsParam before →
      ([ampersand].intercalate pieces).length < fuel →
      paramLoop (before ++ [ampersand].intercalate pieces) name maxOutSize fuel before.length
        = scanned maxOutSize (pieceOf pieces name) := by
  have absent : ampersand ∉ name ++ [equals] := by
    rw [List.mem_append, List.mem_singleton]
    exact not_or.mpr ⟨plain, by decide⟩
  induction pieces with
  | nil => exact absurd rfl nonempty
  | cons piece pieces ih =>
    intro before fuel start enough
    obtain ⟨fuel, rfl⟩ : ∃ more, fuel = more + 1 := ⟨fuel - 1, by omega⟩
    have alone : ampersand ∉ piece := apart piece List.mem_cons_self
    -- the text from here on is this piece and what stands behind it
    obtain ⟨rest, text, behind⟩ : ∃ rest, [ampersand].intercalate (piece :: pieces) = piece ++
      rest ∧
        (rest = [] ∧ pieces = [] ∨ rest = ampersand :: [ampersand].intercalate pieces ∧
          pieces ≠ []) := by
      cases pieces with
      | nil => exact ⟨[], by simp [List.intercalate], .inl ⟨rfl, rfl⟩⟩
      | cons next more =>
        refine ⟨_, ?_, .inr ⟨rfl, List.cons_ne_nil _ _⟩⟩
        rw [List.intercalate_cons_cons, List.append_assoc, List.singleton_append]
    rw [text] at enough ⊢
    have here : NameAt (before ++ (piece ++ rest)) name before.length ↔
        name ++ [equals] <+: piece := by
      rw [nameAt_iff, List.drop_left]
      rcases behind with ⟨rfl, -⟩ | ⟨rfl, -⟩
      · rw [List.append_nil]
      · exact prefix_delimited absent
    by_cases inside : before.length < (before ++ (piece ++ rest)).length
    · have first : before.length = 0 ∨ (before ++ (piece ++ rest))[before.length - 1]?
          = some ampersand := by
        rcases start with rfl | ⟨front, rfl⟩
        · exact .inl rfl
        · simp
      rw [paramLoop_start inside first, List.drop_left, valueAt_append, pieceOf]
      by_cases found : name ++ [equals] <+: piece
      · rw [if_pos (here.mpr found), List.find?_cons_of_pos (by simpa using found),
          valueAt_piece alone found
          (behind.imp And.left fun more => ⟨_, more.1⟩)]
        rfl
      · rw [if_neg (here.not.mpr found), List.find?_cons_of_neg (by simpa using found)]
        rcases behind with ⟨rfl, rfl⟩ | ⟨rfl, more⟩
        · have none_ : findByte ampersand piece = none := by
            rw [findByte, List.findIdx?_eq_none_iff]
            exact fun c member => decide_eq_false fun same => alone (same ▸ member)
          rw [List.append_nil, none_]
          rfl
        · have place : before.length + piece.length +
              1 = (before ++ piece ++ [ampersand]).length := by
            rw [List.length_append, List.length_append, List.length_singleton]
          have whole : before ++ (piece ++ ampersand :: [ampersand].intercalate pieces)
              = before ++ piece ++ [ampersand] ++ [ampersand].intercalate pieces := by
            simp only [List.append_assoc, List.singleton_append]
          rw [List.length_append, List.length_cons] at enough
          rw [findByte_append alone, whole]
          simp only [place]
          exact ih more (fun p member => apart p (List.mem_cons_of_mem _ member)) _ fuel
            (.inr ⟨_, rfl⟩) (by omega)
    · -- an empty piece at the end
      have empty : piece = [] ∧ rest = [] := by
        rw [List.length_append, List.length_append] at inside
        exact ⟨List.length_eq_zero_iff.mp (by omega), List.length_eq_zero_iff.mp (by omega)⟩
      rcases behind with ⟨-, rfl⟩ | ⟨more, -⟩
      · rw [paramLoop, if_neg inside, pieceOf, empty.1]
        simp [scanned]
      · rw [empty.2] at more
        cases more

theorem uhttpGetQueryParam_pieces (given : name ≠ []) (room : 0 < maxOutSize)
    (plain : ampersand ∉ name) (nonempty : pieces ≠ [])
    (apart : ∀ piece ∈ pieces, ampersand ∉ piece) :
    uhttpGetQueryParam (some (63 :: [ampersand].intercalate pieces)) name maxOutSize
      = scanned maxOutSize (pieceOf pieces name) := by
  have guard : ¬ (maxOutSize = 0 ∨ name = []) := by
    rintro (none_ | none_)
    · omega
    · exact given none_
  rw [uhttpGetQueryParam, if_neg guard]
  exact paramLoop_pieces plain nonempty apart [] _ (.inl rfl) (Nat.lt_succ_self _)

/-! ## What a handler is given -/

/-- The path of a request with these pieces behind its question mark. -/
structure Asks (req : UhttpRequest) (front : List UInt8) (pieces : List (List UInt8)) : Prop where
  path : cString req.path = front ++ 63 :: [ampersand].intercalate pieces
  noMark : 63 ∉ front
  nonempty : pieces ≠ []
  apart : ∀ piece ∈ pieces, ampersand ∉ piece

variable {req : UhttpRequest} {front : List UInt8}

theorem Asks.anyParams (h : Asks req front pieces) : uhttpAnyParams req = true := by
  simp [uhttpAnyParams, h.path]

theorem Asks.pathQuery_eq (h : Asks req front pieces) :
    pathQuery (cString req.path) = some (63 :: [ampersand].intercalate pieces) := by
  rw [h.path, pathQuery, findByte_append h.noMark, Option.map_some, List.drop_left]

theorem uhttpParseParams_pieces (h : Asks req front pieces) {names : List (List UInt8)}
    (plain : ∀ name ∈ names, name ≠ [] ∧ ampersand ∉ name) :
    uhttpParseParams req names = (if ∀ name ∈ names, (pieceOf pieces name).isSome then 0 else 1,
      names.map fun name => scanned 1024 (pieceOf pieces name)) := by
  have each : (names.map fun name => uhttpGetQueryParam (pathQuery (cString req.path)) name 1024)
      = names.map fun name => scanned 1024 (pieceOf pieces name) := by
    apply List.map_congr_left
    intro name member
    obtain ⟨given, plain⟩ := plain name member
    rw [h.pathQuery_eq, uhttpGetQueryParam_pieces given (by decide) plain h.nonempty h.apart]
  have code : ∀ found : Option (List UInt8), 0 ≤ (scanned 1024 found).code ↔ found.isSome := by
    rintro (_ | _) <;> simp [scanned]
  rw [uhttpParseParams, each]
  simp [code]

/-- Without a `%`, only the signs for a blank are decoded. -/
theorem decodeLoop_unescaped {text : List UInt8} (unescaped : percent ∉ text) (room : Nat) :
    decodeLoop room text = (text.map fun c => if c = plus then space else c).take room := by
  induction text generalizing room with
  | nil => cases room <;> rfl
  | cons c text ih =>
    obtain ⟨other, unescaped⟩ := not_or.mp (List.mem_cons.not.mp unescaped)
    cases room with
    | zero => rfl
    | succ room =>
      rw [decodeLoop, if_neg (Ne.symm other), List.map_cons, List.take_succ_cons, ih unescaped]
      split <;> rfl

end Soter2.Uhttp
