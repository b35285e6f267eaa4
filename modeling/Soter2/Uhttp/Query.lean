import Mathlib.Data.List.Basic
import Mathlib.Data.List.TakeWhile
import Mathlib.Tactic.Common
import Soter2.Library.FormEncoding
import Soter2.Library.Text
import Soter2.Uhttp.Parser

/-! # Parameters of a query (`uhttp/src/parser.c`, `uhttp/src/api.c`)

`uhttp_get_query_param` looks for a name at the start of the query and behind each `&`, and decodes
what stands between the `=` behind the name and the next `&`.
-/

namespace Soter2.Uhttp

open FormEncoding
open Lownet (cString)
open Text (isDigit toLower)

/-- `isxdigit`. -/
def isXDigit (c : UInt8) : Bool := isDigit c || (65 ≤ c && c ≤ 70) || (97 ≤ c && c ≤ 102)

/-- The value of a digit. -/
def xDigit (c : UInt8) : UInt8 :=
  let h := toLower c
  if 97 ≤ h then h - 97 + 10 else h - 48

/-- The byte of the two digits behind a `%`, and what follows them. -/
def escaped : List UInt8 → Option (UInt8 × List UInt8)
  | h1 :: h2 :: src =>
    if isXDigit h1 && isXDigit h2 then some (xDigit h1 <<< 4 ||| xDigit h2, src) else none
  | _ => none

/-- The loop that decodes a value into the room that is left in front of the final zero. -/
def decodeLoop : Nat → List UInt8 → List UInt8
  | 0, _ => []
  | _ + 1, [] => []
  | room + 1, c :: src =>
    if c = percent then
      match escaped src with
      | some (byte, rest) => byte :: decodeLoop room rest
      -- a `%` without two digits stands for itself
      | none => c :: decodeLoop room src
    else if c = plus then space :: decodeLoop room src
    else c :: decodeLoop room src

/-- What `uhttp_get_query_param` returns, and what it writes to a new block at `*out`. -/
structure QueryParam where
  code : Int
  out : Option (List UInt8)
  deriving DecidableEq, Repr

/-- The name stands at `p`, with a `=` behind it. -/
def NameAt (query name : List UInt8) (p : Nat) : Prop :=
  name <+: query.drop p ∧ query[p + name.length]? = some equals

instance (query name : List UInt8) (p : Nat) : Decidable (NameAt query name p) :=
  inferInstanceAs (Decidable (_ ∧ _))

/-- The encoded value behind a name at `p`. -/
def valueAt (query name : List UInt8) (p : Nat) : List UInt8 :=
  (query.drop (p + name.length + 1)).takeWhile (· ≠ ampersand)

/-- The loop over the places of the query. -/
def paramLoop (query name : List UInt8) (maxOutSize : Nat) : Nat → Nat → QueryParam
  | 0, _ => ⟨-1, none⟩
  | fuel + 1, p =>
    if p < query.length then
      if 0 < p ∧ query[p - 1]? ≠ some ampersand then paramLoop query name maxOutSize fuel (p + 1)
      -- nothing stops the comparison of the name at the next `&`
      else if NameAt query name p then
        ⟨0, some (decodeLoop (maxOutSize - 1) (valueAt query name p) ++ [0])⟩
      else
        match findByte ampersand (query.drop p) with
        | none => ⟨-1, none⟩
        | some nextAmp => paramLoop query name maxOutSize fuel (p + nextAmp + 1)
    else ⟨-1, none⟩

/-- `uhttp_get_query_param`, where `none` is a null pointer. -/
def uhttpGetQueryParam (query : Option (List UInt8)) (name : List UInt8) (maxOutSize : Nat) :
    QueryParam :=
  match query with
  | none => ⟨-3, none⟩
  | some query =>
    if maxOutSize = 0 ∨ name = [] then ⟨-3, none⟩
    else
      let query := if query.head? = some 63 then query.tail else query
      paramLoop query name maxOutSize (query.length + 1) 0

/-- The query of a path, from its `?` on. -/
def pathQuery (path : List UInt8) : Option (List UInt8) :=
  (findByte 63 path).map fun i => path.drop i

/-- `uhttp_parse_params`. -/
def uhttpParseParams (req : UhttpRequest) (names : List (List UInt8)) : Int × List QueryParam :=
  let params := names.map fun name => uhttpGetQueryParam (pathQuery (cString req.path)) name 1024
  (if params.all (0 ≤ ·.code) then 0 else 1, params)

/-! ## What the answer should be -/

/-- The parameters as a query, with or without its `?`. -/
def queryText (lead : Bool) (ps : List Param) : List UInt8 :=
  (if lead then [63] else []) ++ joined ps

/-- The answer is as much of the value of the first parameter with the name as there is room for,
    and -1 if there is no such parameter. -/
def Answers (ps : List Param) (name : List UInt8) (maxOutSize : Nat) (r : QueryParam) : Prop :=
  match ps.find? (·.name = name) with
  | some p => r.code = 0 ∧ ∃ out, r.out = some out ∧ out.length ≤ maxOutSize ∧
      ∀ behind, cString (out ++ behind) = p.value.take (maxOutSize - 1)
  | none => r.code = -1

/-- The name is the text from the start of a parameter through the name of a later one. -/
def Spans (ps : List Param) (name : List UInt8) : Prop :=
  ∃ tail, tail <:+ ps ∧ name ∈ (throughNames tail).tail

/-! ## Values are decoded -/

theorem xDigit_hexDigit : ∀ upper, ∀ n < 16, isXDigit (hexDigit upper n) = true ∧
    xDigit (hexDigit upper n) = UInt8.ofNat n := by
  decide

theorem join_digits : ∀ high < 16, ∀ low < 16, UInt8.ofNat high <<< 4 ||| UInt8.ofNat low
    = UInt8.ofNat (16 * high + low) := by
  decide

theorem decodeLoop_encodesByte {c : UInt8} {part : List UInt8} (h : EncodesByte c part) (room : Nat)
    (rest : List UInt8) : decodeLoop (room + 1) (part ++ rest) = c :: decodeLoop room rest := by
  cases h with
  | plain unreserved =>
    rw [List.singleton_append, decodeLoop, if_neg (ne_of_isUnreserved unreserved rfl),
      if_neg (ne_of_isUnreserved unreserved rfl)]
  | plus => rfl
  | percent reserved high low =>
    have bound := c.toNat_lt
    obtain ⟨isFirst, first⟩ := xDigit_hexDigit high (c.toNat / 16) (by omega)
    obtain ⟨isSecond, second⟩ := xDigit_hexDigit low (c.toNat % 16) (by omega)
    have value : UInt8.ofNat (c.toNat / 16) <<< 4 ||| UInt8.ofNat (c.toNat % 16) = c := by
      rw [join_digits _ (by omega) _ (by omega), Nat.div_add_mod, UInt8.ofNat_toNat]
    simp only [List.cons_append, List.nil_append, decodeLoop, escaped, if_true, isFirst, isSecond,
      Bool.and_self, first, second, value]

theorem decodeLoop_encodes {value encoded : List UInt8} (h : Encodes value encoded) (room : Nat) :
    decodeLoop room encoded = value.take room := by
  induction h generalizing room with
  | nil => cases room <;> rfl
  | cons byte more ih =>
    cases room with
    | zero => rfl
    | succ room => rw [decodeLoop_encodesByte byte, ih, List.take_succ_cons]

/-! ## The loop, from parameter to parameter -/

section

variable {query name : List UInt8} {maxOutSize pos fuel : Nat}

theorem nameAt_iff : NameAt query name pos ↔ name ++ [equals] <+: query.drop pos := by
  rw [NameAt, ← List.getElem?_drop]
  generalize query.drop pos = text
  constructor
  · rintro ⟨⟨behind, rfl⟩, sign⟩
    rw [List.getElem?_append_right (Nat.le_refl _), Nat.sub_self] at sign
    cases behind with
    | nil => cases sign
    | cons c behind =>
      cases sign
      exact ⟨behind, by rw [List.append_assoc, List.singleton_append]⟩
  · rintro ⟨behind, rfl⟩
    rw [List.append_assoc]
    refine ⟨List.prefix_append _ _, ?_⟩
    rw [List.getElem?_append_right (Nat.le_refl _), Nat.sub_self]
    rfl

theorem paramLoop_start (inside : pos < query.length)
    (start : pos = 0 ∨ query[pos - 1]? = some ampersand) :
    paramLoop query name maxOutSize (fuel + 1) pos =
      if NameAt query name pos then
        ⟨0, some (decodeLoop (maxOutSize - 1) (valueAt query name pos) ++ [0])⟩
      else
        match findByte ampersand (query.drop pos) with
        | none => ⟨-1, none⟩
        | some nextAmp => paramLoop query name maxOutSize fuel (pos + nextAmp + 1) := by
  have here : ¬ (0 < pos ∧ query[pos - 1]? ≠ some ampersand) := by
    rintro ⟨positive, other⟩
    exact other (start.resolve_left (by omega))
  rw [paramLoop, if_pos inside, if_neg here]

/-- The encoded value that the loop takes for that of the name. -/
def scan (name : List UInt8) : List Param → Option (List UInt8)
  | [] => none
  | p :: ps =>
    if name ++ [equals] <+: joined (p :: ps) then some (valueAt (joined (p :: ps)) name 0)
    else scan name ps

/-- The result that goes with a value. -/
def scanned (maxOutSize : Nat) : Option (List UInt8) → QueryParam
  | some src => ⟨0, some (decodeLoop (maxOutSize - 1) src ++ [0])⟩
  | none => ⟨-1, none⟩

theorem valueAt_append (before text name : List UInt8) :
    valueAt (before ++ text) name before.length = valueAt text name 0 := by
  rw [valueAt, valueAt, Nat.add_assoc, List.drop_length_add_append, Nat.zero_add]

theorem joined_ne_nil (p : Param) (ps : List Param) : joined (p :: ps) ≠ [] := by
  obtain ⟨behind, text⟩ := text_prefix_joined p ps
  rw [← text]
  simp [Param.text]

theorem findByte_ampersand (p : Param) : findByte ampersand p.text = none := by
  rw [findByte, List.findIdx?_eq_none_iff]
  intro c member
  exact decide_eq_false fun same => p.ampersand_not_mem (same ▸ member)

/-- The place behind an `&`, or the start. -/
def StartsParam (before : List UInt8) : Prop := before = [] ∨ ∃ front, before = front ++ [ampersand]

theorem paramLoop_joined (name : List UInt8) (maxOutSize : Nat) {ps : List Param}
    (nonempty : ps ≠ []) :
    ∀ (before : List UInt8) (fuel : Nat), StartsParam before → (joined ps).length < fuel →
      paramLoop (before ++ joined ps) name maxOutSize fuel before.length
        = scanned maxOutSize (scan name ps) := by
  induction ps with
  | nil => exact absurd rfl nonempty
  | cons p ps ih =>
    intro before fuel start enough
    obtain ⟨fuel, rfl⟩ : ∃ more, fuel = more + 1 := ⟨fuel - 1, by omega⟩
    have inside : before.length < (before ++ joined (p :: ps)).length := by
      have := List.length_pos_iff.mpr (joined_ne_nil p ps)
      rw [List.length_append]
      omega
    have behind : before.length = 0 ∨ (before ++ joined (p :: ps))[before.length - 1]?
        = some ampersand := by
      rcases start with rfl | ⟨front, rfl⟩
      · exact .inl rfl
      · simp
    have here : NameAt (before ++ joined (p :: ps)) name before.length ↔
        name ++ [equals] <+: joined (p :: ps) := by
      rw [nameAt_iff, List.drop_left]
    rw [paramLoop_start inside behind, List.drop_left, valueAt_append, scan]
    by_cases found : name ++ [equals] <+: joined (p :: ps)
    · rw [if_pos (here.mpr found), if_pos found]
      rfl
    · rw [if_neg (here.not.mpr found), if_neg found]
      cases ps with
      | nil => rw [joined_singleton, findByte_ampersand]; rfl
      | cons q qs =>
        -- the next turn starts behind the first `&`, where the next parameter does
        have more := List.cons_ne_nil q qs
        have place : before.length + p.text.length +
            1 = (before ++ p.text ++ [ampersand]).length := by
          rw [List.length_append, List.length_append, List.length_singleton]
        have whole : before ++ joined (p :: q :: qs) = before ++ p.text ++ [ampersand] ++
            joined (q :: qs) := by
          simp only [joined_cons p more, List.append_assoc, List.singleton_append]
        have shorter : (joined (q :: qs)).length < fuel := by
          rw [joined_cons p more, List.length_append, List.length_cons] at enough
          omega
        rw [whole, joined_cons p more, findByte_append p.ampersand_not_mem]
        simp only [place]
        exact ih more _ fuel (.inr ⟨_, rfl⟩) shorter

/-! ## What is found -/

variable {ps : List Param} {p : Param}

theorem valueAt_name (p : Param) (ps : List Param) :
    valueAt (joined (p :: ps)) p.name 0 = p.encoded := by
  have noAmpersand : ∀ c ∈ p.encoded, decide (c ≠ ampersand) = true := fun c member =>
    decide_eq_true fun same => p.encodes.mem.1 (same ▸ member)
  cases ps with
  | nil =>
    rw [joined_singleton, valueAt, Param.text, Nat.zero_add, List.drop_length_add_append]
    exact List.takeWhile_eq_self_iff.mpr noAmpersand
  | cons q qs =>
    rw [joined_cons p (List.cons_ne_nil q qs), valueAt, Param.text, Nat.zero_add, List.append_assoc,
      List.drop_length_add_append]
    simp only [List.cons_append, List.drop_succ_cons, List.drop_zero]
    rw [List.takeWhile_append_of_pos noAmpersand, List.takeWhile_cons_of_neg (by decide),
      List.append_nil]

/-- Without a name that spans parameters, the loop finds the first parameter with the name. -/
theorem scan_of_not_spans (single : ¬ Spans ps name) :
    scan name ps = (ps.find? (·.name = name)).map Param.encoded := by
  induction ps with
  | nil => rfl
  | cons p ps ih =>
    have rest : ¬ Spans ps name := fun ⟨tail, part, spans⟩ =>
      single ⟨tail, part.trans (List.suffix_cons p ps), spans⟩
    have here : name ++ [equals] <+: joined (p :: ps) ↔ p.name = name := by
      rw [prefix_joined_iff, throughNames, List.mem_cons]
      constructor
      · rintro (same | spans)
        · exact same.symm
        · exact absurd ⟨p :: ps, List.suffix_refl _, spans⟩ single
      · exact fun same => .inl same.symm
    by_cases same : p.name = name
    · subst same
      rw [scan, if_pos (here.mpr rfl), valueAt_name, List.find?_cons_of_pos (by simp)]
      rfl
    · rw [scan, if_neg (here.not.mpr same), ih rest, List.find?_cons_of_neg (by simpa using same)]

theorem scan_ne_none {tail : List Param} (part : tail <:+ ps)
    (found : name ++ [equals] <+: joined tail) : scan name ps ≠ none := by
  induction ps with
  | nil =>
    rw [List.suffix_nil.mp part] at found
    simp [joined] at found
  | cons p ps ih =>
    rw [scan]
    split
    · exact Option.some_ne_none _
    next not =>
      rcases List.suffix_cons_iff.mp part with rfl | part
      · exact absurd found not
      · exact ih part

/-- A name that spans parameters has a `=`, so that it is the name of none. -/
theorem find_of_spans (spans : Spans ps name) (qs : List Param) :
    qs.find? (·.name = name) = none := by
  obtain ⟨tail, -, member⟩ := spans
  have sign : equals ∈ name := by
    cases tail with
    | nil => cases member
    | cons p tail =>
      obtain ⟨more, -, rfl⟩ := List.mem_map.mp member
      simp [Param.text]
  rw [List.find?_eq_none]
  intro q _ same
  have same : q.name = name := by simpa using same
  exact q.not_mem_name (show isUnreserved equals = false from rfl) (same ▸ sign)

/-- A text that starts with a parameter does not start with `?`. -/
theorem head?_joined (p : Param) (ps : List Param) : (joined (p :: ps)).head? ≠ some 63 := by
  obtain ⟨behind, text⟩ := text_prefix_joined p ps
  rw [← text, Param.text]
  have plain := p.unreserved
  cases name : p.name with
  | nil => simp [equals]
  | cons c rest =>
    rw [name] at plain
    have other := ne_of_isUnreserved (plain c List.mem_cons_self)
      (show isUnreserved 63 = false from rfl)
    simpa using other

theorem uhttpGetQueryParam_queryText (nonempty : ps ≠ []) (lead : Bool) (given : name ≠ [])
    (room : 0 < maxOutSize) :
    uhttpGetQueryParam (some (queryText lead ps)) name maxOutSize
      = scanned maxOutSize (scan name ps) := by
  have guard : ¬ (maxOutSize = 0 ∨ name = []) := by
    rintro (none | none)
    · omega
    · exact given none
  have text : (if (queryText lead ps).head? = some 63 then (queryText lead ps).tail
      else queryText lead ps) = joined ps := by
    obtain ⟨p, rest, rfl⟩ := List.exists_cons_of_ne_nil nonempty
    cases lead with
    | false => exact if_neg (head?_joined p rest)
    | true => rfl
  rw [uhttpGetQueryParam, if_neg guard]
  simp only [text]
  exact paramLoop_joined name maxOutSize nonempty [] _ (.inl rfl) (Nat.lt_succ_self _)

/-- The bytes that are written are the value, as far as there is room, and a zero. -/
theorem cString_decodeLoop (p : Param) (room : Nat) (behind : List UInt8) :
    cString (decodeLoop room p.encoded ++ [0] ++ behind) = p.value.take room := by
  have plain : ∀ c ∈ p.value.take room, decide (c ≠ 0) = true := fun c member =>
    decide_eq_true fun zero => p.nonzero (zero ▸ List.mem_of_mem_take member)
  rw [decodeLoop_encodes p.encodes, cString, List.append_assoc, List.singleton_append,
    List.takeWhile_append_of_pos plain, List.takeWhile_cons_of_neg (by decide), List.append_nil]

theorem code_nonneg_iff (single : ¬ Spans ps name) :
    0 ≤ (scanned maxOutSize (scan name ps)).code ↔ ∃ p ∈ ps, p.name = name := by
  have some_iff : (ps.find? (·.name = name)).isSome ↔ ∃ p ∈ ps, p.name = name := by simp
  rw [scan_of_not_spans single, ← some_iff]
  cases ps.find? (·.name = name) with
  | none => simp [scanned]
  | some p => simp [scanned]

/-- The query of a path is read from its first `?` on, and 0 says that every name has a
    parameter. -/
theorem uhttpParseParams_eq_zero_iff {req : UhttpRequest} {front : List UInt8}
    {names : List (List UInt8)} (path : cString req.path = front ++ queryText true ps)
    (noMark : 63 ∉ front) (nonempty : ps ≠ [])
    (single : ∀ name ∈ names, name ≠ [] ∧ ¬ Spans ps name) :
    (uhttpParseParams req names).1 = 0 ↔ ∀ name ∈ names, ∃ p ∈ ps, p.name = name := by
  have query : pathQuery (cString req.path) = some (queryText true ps) := by
    have mark : findByte 63 (front ++ queryText true ps) = some front.length :=
      findByte_append noMark (joined ps)
    rw [path, pathQuery, mark, Option.map_some, List.drop_left]
  have each : ∀ name ∈ names,
      (0 ≤ (uhttpGetQueryParam (pathQuery (cString req.path)) name 1024).code ↔
        ∃ p ∈ ps, p.name = name) := by
    intro name member
    rw [query, uhttpGetQueryParam_queryText nonempty true (single name member).1 (by decide),
      code_nonneg_iff (single name member).2]
  have all : (uhttpParseParams req names).1 = 0 ↔
      ∀ name ∈ names, 0 ≤ (uhttpGetQueryParam (pathQuery (cString req.path)) name 1024).code := by
    simp [uhttpParseParams]
  rw [all]
  exact forall₂_congr each

/-- A name is looked up as it should be exactly if it is not a text that spans parameters. -/
theorem query_param_iff {lead : Bool} (nonempty : ps ≠ []) (given : name ≠ [])
    (room : 0 < maxOutSize) :
    Answers ps name maxOutSize (uhttpGetQueryParam (some (queryText lead ps)) name maxOutSize) ↔
      ¬ Spans ps name := by
  rw [uhttpGetQueryParam_queryText nonempty lead given room]
  constructor
  · -- the loop finds the text at the start of a parameter, but it is the name of none
    rintro answers spans
    obtain ⟨tail, part, member⟩ := spans
    have found := scan_ne_none part (prefix_joined_iff.mpr (List.mem_of_mem_tail member))
    rw [Answers, find_of_spans ⟨tail, part, member⟩ ps] at answers
    cases value : scan name ps with
    | none => exact found value
    | some src =>
      rw [value] at answers
      exact absurd (show (0 : Int) = -1 from answers) (by decide)
  · intro single
    rw [Answers, scan_of_not_spans single]
    cases first : ps.find? (·.name = name) with
    | none => rfl
    | some p =>
      refine ⟨rfl, _, rfl, ?_, fun behind => cString_decodeLoop p (maxOutSize - 1) behind⟩
      rw [decodeLoop_encodes p.encodes, List.length_append, List.length_take, List.length_singleton]
      omega

/-- Only a name with an `&` spans parameters. -/
theorem not_spans_of_plain (plain : ampersand ∉ name) : ¬ Spans ps name := by
  rintro ⟨tail, -, member⟩
  cases tail with
  | nil => cases member
  | cons p tail =>
    obtain ⟨more, -, rfl⟩ := List.mem_map.mp member
    simp at plain

end

/-- The parameters of `a=1&b=2`. -/
def sampleParams : List Param :=
  [⟨[97], [49], [49], List.forall_mem_singleton.mpr rfl, by decide, .cons (.plain rfl) .nil⟩,
    ⟨[98], [50], [50], List.forall_mem_singleton.mpr rfl, by decide, .cons (.plain rfl) .nil⟩]

theorem query_param_iff_sample : Answers sampleParams [98] 4
    (uhttpGetQueryParam (some (queryText true sampleParams)) [98] 4) :=
  (query_param_iff (by decide) (by decide) (by decide)).mpr (not_spans_of_plain (by decide))

/-- The name `a=1&b` is that of no parameter, but the value of `b` is found for it. -/
theorem spanning_name_found : queryText false sampleParams = Text.ascii "a=1&b=2" ∧
    uhttpGetQueryParam (some (queryText false sampleParams)) (Text.ascii "a=1&b") 4
      = ⟨0, some [50, 0]⟩ ∧
    ¬ Answers sampleParams (Text.ascii "a=1&b") 4
      (uhttpGetQueryParam (some (queryText false sampleParams)) (Text.ascii "a=1&b") 4) := by
  refine ⟨by decide, by decide, fun answers => ?_⟩
  have code : (uhttpGetQueryParam (some (queryText false sampleParams)) (Text.ascii "a=1&b") 4).code
      = -1 := answers
  exact absurd code (by decide)

end Soter2.Uhttp
