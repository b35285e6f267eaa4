import Mathlib.Data.List.Basic
import Mathlib.Tactic.Common
import Soter2.Library.Delimited
import Soter2.Library.Text
import Soter2.Uhttp.Parser

/-! # The content length (`uhttp/src/parser.c`)

The length of the body stands in a line of the header.  `parse_headers` passes over lines: the
last one, those with a name or a value that does not fit, and all others once twenty lines are
stored.

* `framed_iff_lengthStored` — where the line of the length may stand.
-/

namespace Soter2.Uhttp

open Text

/-- The lines in front of the first blank line; the first one is not of the header. -/
def messageLines (data : List UInt8) : List (List UInt8) :=
  match findSequence data (crlf ++ crlf) with
  | none => []
  | some headerLen => Delimited.split crlf (data.take headerLen)

def behindBlankLine (data : List UInt8) : List UInt8 :=
  match findSequence data (crlf ++ crlf) with
  | none => []
  | some headerLen => data.drop (headerLen + 4)

/-- The value of a line whose name is `Content-Length`. -/
def lengthField (line : List UInt8) : Option (List UInt8) :=
  match findByte 58 line with
  | none => none
  | some colon => if isContentLength (line.take colon) then some (line.drop (colon + 1)) else none

/-- The number that a value says, with any space in front of it. -/
def decimalValue (val : List UInt8) : Option Nat :=
  let digits := val.dropWhile isSpace
  if digits ≠ [] ∧ digits.all isDigit then some (value digits) else none

/-- The length is the one of the last line that says a length, and 0 if there is none. -/
def LengthFramed (lines : List (List UInt8)) (contentLength : Nat) : Prop :=
  match (lines.filterMap lengthField).getLast? with
  | none => contentLength = 0
  | some val => decimalValue val = some contentLength

/-- The content length is the one of the header, and the body of a POST request is as many bytes
    behind the blank line. -/
def Framed (data : List UInt8) (parsed : UhttpRequest) : Prop :=
  LengthFramed (messageLines data).tail parsed.contentLength ∧
    (parsed.method = .post →
      parsed.contentLength ≤ (behindBlankLine data).length ∧ parsed.bodyLen = parsed.contentLength ∧
        parsed.body.getD [] = (behindBlankLine data).take parsed.contentLength)

/-- A line that is stored, if there is room. -/
def fits (line : List UInt8) : Bool :=
  match findByte 58 line with
  | none => false
  | some colon =>
    (line.take colon).length < maxHeaderSize ∧
      ((line.drop (colon + 1)).dropWhile (· = 32)).length < maxHeaderSize

/-- The lines that are stored of lines that are followed by another one. -/
def storedLines (lines : List (List UInt8)) : List (List UInt8) :=
  (lines.filter fits).take maxHeaders

/-- The line fits, is not the last one, and fewer than twenty lines that fit are in front of it. -/
def Stored (before : List (List UInt8)) (line : List UInt8) (after : List (List UInt8)) : Prop :=
  fits line = true ∧ after ≠ [] ∧ (before.filter fits).length < maxHeaders

instance (before : List (List UInt8)) (line : List UInt8) (after : List (List UInt8)) :
    Decidable (Stored before line after) :=
  inferInstanceAs (Decidable (_ ∧ _))

/-- The number in an accepted value; space alone is accepted as 0. -/
def number (val : List UInt8) : Nat := value (val.dropWhile isSpace)

/-- The number of the last of the stored lines that says a length. -/
def storedLength (lines : List (List UInt8)) : Nat :=
  (((storedLines lines).filterMap lengthField).getLast?.map number).getD 0

/-- The last line that says a length is stored and not blank, or says the same as the last one
    that is stored. -/
def LengthStored (lines : List (List UInt8)) : Prop :=
  ∀ before line after val, lines = before ++ line :: after → lengthField line = some val →
    (∀ other ∈ after, lengthField other = none) →
    if Stored before line after then val.dropWhile isSpace ≠ []
    else decimalValue val = some (storedLength before)

/-! ## The lines of a message -/

variable {data line block rest : List UInt8} {lines before after : List (List UInt8)}
    {val : List UInt8}

theorem crlf_ne_nil : crlf ≠ [] := by decide

theorem lines_of_cut (cut : cutMessage data = .message line block rest) :
    messageLines data = line :: Delimited.split crlf block ∧ behindBlankLine data = rest := by
  obtain ⟨headerLen, lineEnd, blank, first, rfl, rfl, rfl⟩ := cutMessage_eq_message cut
  rw [messageLines, behindBlankLine, blank]
  exact ⟨Delimited.split_of_find_some crlf_ne_nil first, rfl⟩

/-! ## The lines that are stored -/

theorem dropWhile_isSpace (val : List UInt8) :
    (val.dropWhile (· = 32)).dropWhile isSpace = val.dropWhile isSpace := by
  induction val with
  | nil => rfl
  | cons c val ih =>
    by_cases space : c = 32
    · subst space
      simpa [isSpace] using ih
    · simp [space]

/-- Where the digits are accepted, they are all digits, and the number is their value. -/
theorem contentDigits_eq {str : List UInt8} {out n : Nat} (h : contentDigits out str = some n) :
    str.all isDigit = true ∧ str.foldl (fun n c => n * 10 + digit c) out = n := by
  induction str generalizing out with
  | nil => exact ⟨rfl, Option.some.inj h⟩
  | cons c str ih =>
    rw [contentDigits] at h
    dsimp only at h
    split_ifs at h with here large
    obtain ⟨all, number⟩ := ih h
    exact ⟨by simp [here, all], number⟩

theorem parseContentLength_eq {n : Nat} (h : parseContentLength (val.dropWhile (· = 32)) = some n) :
    (val.dropWhile isSpace).all isDigit = true ∧ number val = n := by
  rw [parseContentLength] at h
  split_ifs at h
  rw [dropWhile_isSpace] at h
  exact contentDigits_eq h

/-- A line that does not fit, or for which there is no room, is passed over, and any other one is
    stored with the length that it says. -/
theorem headerLine_eq {s s' : ParsedHeaders} (h : headerLine s line = some s') :
    if fits line = true ∧ s.headers.length < maxHeaders then
      s'.headers.length = s.headers.length + 1 ∧
        s'.contentLength = ((lengthField line).map number).getD s.contentLength ∧
        ∀ val, lengthField line = some val → (val.dropWhile isSpace).all isDigit = true
    else s' = s := by
  -- a line that is passed over, and one that is stored
  obtain ⟨rfl, passed⟩ | ⟨colon, field, found, room, keyFits, valFits, headers, length⟩ :=
    headerLine_cases h
  · rw [if_neg]
    rintro ⟨fit, room⟩
    rw [fits] at fit
    split at fit
    · cases fit
    next colon found => exact passed colon found ⟨room, of_decide_eq_true fit⟩
  · have fit : fits line = true := by
      rw [fits, found]
      exact decide_eq_true ⟨keyFits, valFits⟩
    rw [if_pos ⟨fit, room⟩, headers, lengthField, found, List.length_append, List.length_singleton]
    refine ⟨rfl, ?_⟩
    by_cases isLength : isContentLength (line.take colon) = true
    · rw [if_pos isLength] at length
      obtain ⟨digits, number⟩ := parseContentLength_eq length
      simp only [if_pos isLength, Option.map_some, Option.getD_some, Option.some.injEq, forall_eq']
      exact ⟨number.symm, digits⟩
    · rw [if_neg isLength] at length
      simpa only [if_neg isLength, Option.map_none, Option.getD_none, reduceCtorEq, false_imp_iff,
        implies_true, and_true]
        using length

/-- The length is the one that the last of the stored lines says. -/
theorem foldlM_headerLine_eq {s s' : ParsedHeaders} (h : lines.foldlM headerLine s = some s') :
    let stored := ((lines.filter fits).take (maxHeaders - s.headers.length)).filterMap lengthField
    s'.contentLength = (stored.getLast?.map number).getD s.contentLength ∧
      ∀ val ∈ stored, (val.dropWhile isSpace).all isDigit = true := by
  induction lines generalizing s with
  | nil =>
    cases h
    simp
  | cons line lines ih =>
    obtain ⟨u, here, rest⟩ := Option.bind_eq_some_iff.mp h
    obtain ⟨length, digits⟩ := ih rest
    have step := headerLine_eq here
    split_ifs at step with stored
    · -- one line more is stored, so there is room for one less
      obtain ⟨more, states, numeric⟩ := step
      obtain ⟨room, left⟩ : ∃ room, maxHeaders - s.headers.length = room + 1 :=
        ⟨maxHeaders - s.headers.length - 1, by have := stored.2; omega⟩
      have left' : maxHeaders - u.headers.length = room := by omega
      rw [left'] at length digits
      rw [left, List.filter_cons_of_pos stored.1, List.take_succ_cons]
      cases field : lengthField line with
      | none =>
        rw [field] at states
        rw [List.filterMap_cons_none field]
        exact ⟨length.trans (by rw [states]; rfl), digits⟩
      | some val =>
        rw [field] at states
        rw [List.filterMap_cons_some field]
        refine ⟨?_, List.forall_mem_cons.mpr ⟨numeric val field, digits⟩⟩
        rw [length, states, List.getLast?_cons]
        cases (((lines.filter fits).take room).filterMap lengthField).getLast? <;> rfl
    · subst step
      by_cases fit : fits line = true
      · have full : maxHeaders - u.headers.length = 0 := by
          have : ¬ u.headers.length < maxHeaders := fun room => stored ⟨fit, room⟩
          omega
        rw [full] at length digits ⊢
        exact ⟨length, digits⟩
      · rw [List.filter_cons_of_neg fit]
        exact ⟨length, digits⟩

theorem lengths_eq_nil (none_ : ∀ line ∈ lines, lengthField line = none) (room : Nat) :
    (((lines.dropLast).filter fits).take room).filterMap lengthField = [] := by
  rw [List.filterMap_eq_nil_iff]
  exact fun line member => none_ line
    (List.mem_of_mem_dropLast (List.mem_of_mem_filter (List.mem_of_mem_take member)))

/-- Of lines with a last one that says a length, that one is stored or not. -/
theorem stored_lengths (before : List (List UInt8)) (states : lengthField line = some val)
    (last : ∀ other ∈ after, lengthField other = none) :
    (storedLines (before ++ line :: after).dropLast).filterMap lengthField =
      if Stored before line after then (storedLines before).filterMap lengthField ++ [val]
      else (storedLines before).filterMap lengthField := by
  have quiet := lengths_eq_nil last
  by_cases end_ : after = []
  · -- `parse_headers` does not see the last line
    subst end_
    rw [if_neg (fun stored => stored.2.1 rfl), List.dropLast_concat]
  · rw [List.dropLast_append_of_ne_nil (List.cons_ne_nil _ _), List.dropLast_cons_of_ne_nil end_,
      storedLines, List.filter_append, List.take_append, List.filterMap_append, ← storedLines]
    by_cases fit : fits line = true
    · rw [List.filter_cons_of_pos fit]
      -- the lines that fit are stored in order, up to the twentieth
      by_cases room : (before.filter fits).length < maxHeaders
      · obtain ⟨left, eq⟩ : ∃ left, maxHeaders - (before.filter fits).length = left + 1 :=
          ⟨maxHeaders - (before.filter fits).length - 1, by omega⟩
        rw [if_pos ⟨fit, end_, room⟩, eq, List.take_succ_cons, List.filterMap_cons_some states,
          quiet]
      · rw [if_neg (fun stored => room stored.2.2), Nat.sub_eq_zero_of_le (Nat.le_of_not_lt room),
          List.take_zero, List.filterMap_nil, List.append_nil]
    · rw [if_neg (fun stored => fit stored.1), List.filter_cons_of_neg fit, quiet, List.append_nil]

theorem getLast?_lengths (states : lengthField line = some val)
    (last : ∀ other ∈ after, lengthField other = none) :
    ((before ++ line :: after).filterMap lengthField).getLast? = some val := by
  rw [List.filterMap_append, List.filterMap_cons_some states, List.filterMap_eq_nil_iff.mpr last,
    List.getLast?_concat]

theorem exists_last_length (h : (lines.filterMap lengthField).getLast? = some val) :
    ∃ before line after, lines = before ++ line :: after ∧ lengthField line = some val ∧
      ∀ other ∈ after, lengthField other = none := by
  -- cut where the last length comes from, and then at its line
  obtain ⟨lengths, eq⟩ := List.getLast?_eq_some_iff.mp h
  obtain ⟨front, back, rfl, -, last⟩ := List.filterMap_eq_append_iff.mp eq
  obtain ⟨between, line, after, rfl, -, states, none_⟩ := List.filterMap_eq_cons_iff.mp last
  exact ⟨front ++ between, line, after, by simp, states, List.filterMap_eq_nil_iff.mp none_⟩

/-- What is stored has the length of the last line that says one exactly if that line is stored,
    or makes no difference. -/
theorem last_length_iff (states : lengthField line = some val)
    (last : ∀ other ∈ after, lengthField other = none)
    (digits : ∀ val ∈ (storedLines (before ++ line :: after).dropLast).filterMap lengthField,
      (val.dropWhile isSpace).all isDigit = true) :
    decimalValue val = some (storedLength (before ++ line :: after).dropLast) ↔
      if Stored before line after then val.dropWhile isSpace ≠ []
      else decimalValue val = some (storedLength before) := by
  have lengths := stored_lengths before states last
  split_ifs at lengths ⊢ with stored
  · -- the value was accepted, so that it is a number unless it is blank
    rw [lengths] at digits
    have numeric := digits val (by simp)
    rw [storedLength, lengths, List.getLast?_concat, decimalValue]
    simp [numeric, number]
  · rw [storedLength, lengths, storedLength]

theorem lengthFramed_iff (digits : ∀ val ∈ (storedLines lines.dropLast).filterMap lengthField,
      (val.dropWhile isSpace).all isDigit = true) :
    LengthFramed lines (storedLength lines.dropLast) ↔ LengthStored lines := by
  constructor
  · rintro framed before line after val rfl states last
    rw [LengthFramed, getLast?_lengths states last] at framed
    exact (last_length_iff states last digits).mp framed
  · intro stored
    rw [LengthFramed]
    split
    next none_ =>
      rw [List.getLast?_eq_none_iff, List.filterMap_eq_nil_iff] at none_
      have quiet : (storedLines lines.dropLast).filterMap lengthField = [] :=
        lengths_eq_nil none_ maxHeaders
      rw [storedLength, quiet]
      rfl
    next val last =>
      obtain ⟨before, line, after, rfl, states, quiet⟩ := exists_last_length last
      exact (last_length_iff states quiet digits).mpr
        (stored before line after val rfl states quiet)

/-- An accepted request is framed by the last line that says a length if and only if that line
    is stored and not blank, or says what the last stored one says. -/
theorem framed_iff_lengthStored (data : List UInt8) (parsed : UhttpRequest)
    (accepted : uhttpParseRequest data = .ok parsed) :
    Framed data parsed ↔ LengthStored (messageLines data).tail := by
  obtain ⟨line, block, rest, cut, -, header, body⟩ := uhttpParseRequest_eq_ok accepted
  obtain ⟨lines, behind⟩ := lines_of_cut cut
  rw [parseHeaders_eq_foldlM] at header
  obtain ⟨length, digits⟩ := foldlM_headerLine_eq header
  have length : parsed.contentLength = storedLength (Delimited.split crlf block).dropLast := length
  -- of a POST the code takes as much of the body as the stored length says
  have taken : parsed.method = .post → parsed.contentLength ≤ (behindBlankLine data).length ∧
      parsed.bodyLen = parsed.contentLength ∧
      parsed.body.getD [] = (behindBlankLine data).take parsed.contentLength := by
    intro post
    rw [behind]
    split_ifs at body with wanted
    · obtain ⟨enough, some_, whole⟩ := body
      exact ⟨enough, whole, by rw [some_]; rfl⟩
    · have zero : parsed.contentLength = 0 := Nat.eq_zero_of_not_pos fun pos => wanted ⟨post, pos⟩
      rw [zero, body.1, body.2]
      exact ⟨Nat.zero_le _, rfl, rfl⟩
  rw [Framed, and_iff_left taken, lines, List.tail_cons, length]
  exact lengthFramed_iff digits

/-! ## The last line of a header -/

def lengthFirst : List UInt8 := ascii "POST / HTTP/1.1\r\nContent-Length: 5\r\nHost: a\r\n\r\nhello"

def lengthLast : List UInt8 := ascii "POST / HTTP/1.1\r\nContent-Length: 5\r\n\r\nhello"

def helloPost : UhttpRequest :=
  ⟨.post, ascii "/", [fieldOf (ascii "Content-Length") (ascii "5")], some (ascii "hello"), 5, 5⟩

theorem framed_iff_lengthStored_lengthFirst : LengthStored (messageLines lengthFirst).tail := by
  refine (framed_iff_lengthStored lengthFirst helloPost (by rfl)).mp
    ⟨?_, fun _ => by decide +kernel⟩
  have lines : messageLines lengthFirst
      = [ascii "POST / HTTP/1.1", ascii "Content-Length: 5", ascii "Host: a"] := by
    decide +kernel
  have value : decimalValue (ascii " 5") = some 5 := by decide
  rw [lines]
  exact value

/-- The length is the last line of the header, and the body is not read. -/
theorem last_length_is_lost :
    uhttpParseRequest lengthLast = .ok ⟨.post, ascii "/", [], none, 0, 0⟩ ∧
      ¬ Framed lengthLast ⟨.post, ascii "/", [], none, 0, 0⟩ := by
  refine ⟨by rfl, ?_⟩
  rintro ⟨length, -⟩
  have lines : messageLines lengthLast = [ascii "POST / HTTP/1.1", ascii "Content-Length: 5"] := by
    decide +kernel
  rw [lines] at length
  have value : decimalValue (ascii " 5") = some 0 := length
  exact absurd value (by decide)

end Soter2.Uhttp
