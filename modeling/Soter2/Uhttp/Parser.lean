import Mathlib.Data.List.Basic
import Mathlib.Tactic.Common
import Soter2.Library.Delimited
import Soter2.Library.Layout
import Soter2.Library.Text
import Soter2.Uhttp.Api

/-! # Parsing HTTP messages (`uhttp/src/parser.c`)

The parsers cut a message at its first blank line.  What stands in front of it is the first
line and the lines of the header, of which `parse_headers` takes those that end in CRLF.

* `uhttpParseRequest_eq`, `uhttpParseResponse_eq` — what the two parsers have in common.
* `parseHeaders_eq_foldlM`, `cutMessage_text` — the last line of the header is not parsed.
-/

namespace Soter2.Uhttp

open Text
open Delimited (terminated)

abbrev uhttpMaxHeaderSize : Nat := 8192
abbrev uhttpMaxBodySize : Nat := 10 * 1024 * 1024

/-- `UHTTP_PARSE_OK` with what was parsed, `UHTTP_PARSE_ERROR` and `UHTTP_PARSE_INCOMPLETE`. -/
inductive UhttpParse (α : Type) where
  | ok (parsed : α)
  | error
  | incomplete
deriving DecidableEq

/-- `find_sequence`: the index where the sequence first occurs. -/
def findSequence (buf seq : List UInt8) : Option Nat := Delimited.find seq buf

/-- The loops that look for one byte in a line. -/
def findByte (c : UInt8) (line : List UInt8) : Option Nat := line.findIdx? (· = c)

/-- The digits loop of `parse_content_length`. -/
def contentDigits : Nat → List UInt8 → Option Nat
  | out, [] => some out
  | out, c :: str =>
    if isDigit c then
      let out := out * 10 + digit c
      if uhttpMaxBodySize < out then none else contentDigits out str
    else none

def parseContentLength (str : List UInt8) : Option Nat :=
  if str = [] then none else contentDigits 0 (str.dropWhile isSpace)

structure ParsedHeaders where
  headers : List UhttpHeader
  contentLength : Nat
deriving DecidableEq

/-- The key is `Content-Length` in any case. -/
def isContentLength (key : List UInt8) : Bool :=
  key.length = 14 ∧ key.map toLower = (ascii "Content-Length").map toLower

/-- A cleared header with a key and a value copied into it. -/
def fieldOf (key val : List UInt8) : UhttpHeader :=
  ⟨(Layout.bytes maxHeaderSize).ofImage key, (Layout.bytes maxHeaderSize).ofImage val⟩

/-- The body of the loop of `parse_headers`, for one line. -/
def headerLine (s : ParsedHeaders) (line : List UInt8) : Option ParsedHeaders :=
  match findByte 58 line with
  | none => some s
  | some colon =>
    let key := line.take colon
    let val := (line.drop (colon + 1)).dropWhile (· = 32)
    if s.headers.length < maxHeaders ∧ key.length < maxHeaderSize ∧ val.length < maxHeaderSize then
      let h := fieldOf key val
      if isContentLength key then
        match parseContentLength val with
        | none => none
        | some contentLength => some ⟨s.headers ++ [h], contentLength⟩
      else some { s with headers := s.headers ++ [h] }
    -- a line that does not fit is passed over
    else some s

/-- The loop of `parse_headers`; each turn takes two bytes at least. -/
def parseHeadersLoop : Nat → ParsedHeaders → List UInt8 → Option ParsedHeaders
  | 0, s, _ => some s
  | fuel + 1, s, rest =>
    match findSequence rest crlf with
    -- a line with no CRLF behind it is left out
    | none => some s
    | some lineEnd =>
      match headerLine s (rest.take lineEnd) with
      | none => none
      | some s => parseHeadersLoop fuel s (rest.drop (lineEnd + 2))

def parseHeaders (block : List UInt8) : Option ParsedHeaders :=
  parseHeadersLoop block.length ⟨[], 0⟩ block

inductive Cut where
  | error
  | incomplete
  | message (line block rest : List UInt8)
deriving DecidableEq

/-- The start of both parsers: the first line, the rest of the header without the CRLF of its
    last line, and what follows the blank line. -/
def cutMessage (data : List UInt8) : Cut :=
  if data = [] then .error
  else
    match findSequence data (crlf ++ crlf) with
    | none => if uhttpMaxHeaderSize ≤ data.length then .error else .incomplete
    | some headerLen =>
      let header := data.take headerLen
      match findSequence header crlf with
      | none => .error
      | some lineEnd =>
        .message (header.take lineEnd) (header.drop (lineEnd + 2)) (data.drop (headerLen + 4))

def requestMethod (method : List UInt8) : UhttpMethod :=
  if method = ascii "GET" then .get else if method = ascii "POST" then .post else .unknown

/-- The first line of a request: the method, and what stands between the first two spaces. -/
def requestLine (line : List UInt8) : Option (UhttpMethod × List UInt8) :=
  match findByte 32 line with
  | none => none
  | some space1 =>
    let rest := line.drop (space1 + 1)
    match findByte 32 rest with
    | none => none
    | some space2 =>
      if maxPathSize ≤ space2 then none
      else some (requestMethod (line.take space1), rest.take space2)

def uhttpParseRequest (data : List UInt8) : UhttpParse UhttpRequest :=
  match cutMessage data with
  | .error => .error
  | .incomplete => .incomplete
  | .message line block rest =>
    match requestLine line with
    | none => .error
    | some (method, path) =>
      match parseHeaders block with
      | none => .error
      | some ⟨headers, contentLength⟩ =>
        if method = .post ∧ 0 < contentLength then
          if rest.length < contentLength then .incomplete
          else if uhttpMaxBodySize < contentLength then .error
          else .ok ⟨method, path, headers, some (rest.take contentLength), contentLength,
            contentLength⟩
        else .ok ⟨method, path, headers, none, 0, contentLength⟩

/-- `atoi`, on at most seven bytes. -/
def atoi (buf : List UInt8) : Int :=
  match buf.dropWhile isSpace with
  | 45 :: digits => -(value (digits.takeWhile isDigit) : Int)
  | 43 :: digits => value (digits.takeWhile isDigit)
  | digits => value (digits.takeWhile isDigit)

/-- The first line of a response: the status code, and the text behind the second space. -/
def statusLine (line : List UInt8) : Option (Int × Option (List UInt8)) :=
  match findByte 32 line with
  | none => none
  | some space1 =>
    let rest := line.drop (space1 + 1)
    match findByte 32 rest with
    | none => none
    | some space =>
      if 8 ≤ space then none
      else
        let text := rest.drop (space + 1)
        some (atoi (rest.take space), if text = [] then none else some text)

def uhttpParseResponse (data : List UInt8) : UhttpParse UhttpResponse :=
  match cutMessage data with
  | .error => .error
  | .incomplete => .incomplete
  | .message line block rest =>
    match statusLine line with
    | none => .error
    | some (statusCode, statusText) =>
      match parseHeaders block with
      | none => .error
      | some ⟨headers, contentLength⟩ =>
        if 0 < contentLength then
          if rest.length < contentLength then .incomplete
          else if uhttpMaxBodySize < contentLength then .error
          -- the type of the content is not looked for
          else .ok ⟨statusCode, statusText, headers, some (rest.take contentLength), contentLength,
            .octetStream⟩
        else .ok ⟨statusCode, statusText, headers, none, 0, .octetStream⟩

/-! ## What is accepted -/

/-- In what the two parsers differ: the first line, which messages have a body, and what is
    made of the start, the headers, the content length and the body. -/
structure MessageKind (α β : Type) where
  firstLine : List UInt8 → Option β
  takesBody : β → Bool
  parsed : β → List UhttpHeader → Nat → Option (List UInt8) → α

namespace MessageKind

variable {α β : Type} (kind : MessageKind α β)

/-- The body is taken from what follows the blank line. -/
def finish (start : β) (header : ParsedHeaders) (rest : List UInt8) : UhttpParse α :=
  if kind.takesBody start ∧ 0 < header.contentLength then
    if rest.length < header.contentLength then .incomplete
    else if uhttpMaxBodySize < header.contentLength then .error
    else .ok (kind.parsed start header.headers header.contentLength
      (some (rest.take header.contentLength)))
  else .ok (kind.parsed start header.headers header.contentLength none)

def parseMessage (line block rest : List UInt8) : UhttpParse α :=
  match kind.firstLine line, parseHeaders block with
  | some start, some header => kind.finish start header rest
  | none, _ | some _, none => .error

def parse (data : List UInt8) : UhttpParse α :=
  match cutMessage data with
  | .error => .error
  | .incomplete => .incomplete
  | .message line block rest => kind.parseMessage line block rest

end MessageKind

def requestKind : MessageKind UhttpRequest (UhttpMethod × List UInt8) where
  firstLine := requestLine
  takesBody start := start.1 = .post
  parsed start headers contentLength body :=
    ⟨start.1, start.2, headers, body, body.elim 0 fun _ => contentLength, contentLength⟩

def responseKind : MessageKind UhttpResponse (Int × Option (List UInt8)) where
  firstLine := statusLine
  takesBody _ := true
  parsed start headers contentLength body :=
    ⟨start.1, start.2, headers, body, body.elim 0 fun _ => contentLength, .octetStream⟩

theorem uhttpParseRequest_eq (data : List UInt8) :
    uhttpParseRequest data = requestKind.parse data := by
  rw [uhttpParseRequest, MessageKind.parse]
  cases cutMessage data with
  | error => rfl
  | incomplete => rfl
  | message line block rest =>
    cases first : requestLine line with
    | none => simp only [requestKind, MessageKind.parseMessage, first]
    | some start =>
      cases fields : parseHeaders block with
      | none => simp only [requestKind, MessageKind.parseMessage, first, fields]
      | some header =>
        simp only [requestKind, MessageKind.parseMessage, first, fields, MessageKind.finish,
          decide_eq_true_eq, Option.elim]

theorem uhttpParseResponse_eq (data : List UInt8) :
    uhttpParseResponse data = responseKind.parse data := by
  rw [uhttpParseResponse, MessageKind.parse]
  cases cutMessage data with
  | error => rfl
  | incomplete => rfl
  | message line block rest =>
    cases first : statusLine line with
    | none => simp only [responseKind, MessageKind.parseMessage, first]
    | some start =>
      cases fields : parseHeaders block with
      | none => simp only [responseKind, MessageKind.parseMessage, first, fields]
      | some header =>
        simp only [responseKind, MessageKind.parseMessage, first, fields, MessageKind.finish,
          true_and, Option.elim]

variable {data : List UInt8} {headerLen : Nat}

theorem cutMessage_of_blank (blank : findSequence data (crlf ++ crlf) = some headerLen) :
    cutMessage data =
      match findSequence (data.take headerLen) crlf with
      | none => .error
      | some lineEnd =>
        .message ((data.take headerLen).take lineEnd) ((data.take headerLen).drop (lineEnd + 2))
          (data.drop (headerLen + 4)) := by
  have nonempty : data ≠ [] := by
    rintro rfl
    cases blank
  rw [cutMessage, if_neg nonempty, blank]

theorem cutMessage_of_no_blank (nonempty : data ≠ [])
    (blank : findSequence data (crlf ++ crlf) = none) :
    cutMessage data = if uhttpMaxHeaderSize ≤ data.length then .error else .incomplete := by
  rw [cutMessage, if_neg nonempty, blank]

/-- A message is cut at its first blank line, and in front of it at the first end of a line. -/
theorem cutMessage_eq_message {line block rest : List UInt8}
    (cut : cutMessage data = .message line block rest) :
    ∃ headerLen lineEnd, findSequence data (crlf ++ crlf) = some headerLen ∧
      findSequence (data.take headerLen) crlf = some lineEnd ∧
        line = (data.take headerLen).take lineEnd ∧
      block = (data.take headerLen).drop (lineEnd + 2) ∧ rest = data.drop (headerLen + 4) := by
  cases blank : findSequence data (crlf ++ crlf) with
  | none =>
    rw [cutMessage, blank] at cut
    dsimp only at cut
    split_ifs at cut
  | some headerLen =>
    rw [cutMessage_of_blank blank] at cut
    split at cut
    · cases cut
    next lineEnd first =>
      cases cut
      exact ⟨headerLen, lineEnd, rfl, first, rfl, rfl, rfl⟩

/-- A message that is accepted was cut, its first line and its header are accepted, and it is
    long enough. -/
theorem MessageKind.parse_eq_ok {α β : Type} {kind : MessageKind α β} {parsed : α}
    (h : kind.parse data = .ok parsed) :
    ∃ line block rest start header, cutMessage data = .message line block rest ∧
      kind.firstLine line = some start ∧
      parseHeaders block = some header ∧
      if kind.takesBody start ∧ 0 < header.contentLength then
        header.contentLength ≤ rest.length ∧
          parsed = kind.parsed start header.headers header.contentLength
            (some (rest.take header.contentLength))
      else parsed = kind.parsed start header.headers header.contentLength none := by
  rw [MessageKind.parse] at h
  split at h
  · cases h
  · cases h
  next line block rest cut =>
    rw [MessageKind.parseMessage] at h
    split at h
    next start header first fields =>
      refine ⟨line, block, rest, start, header, cut, first, fields, ?_⟩
      rw [MessageKind.finish] at h
      -- a body is wanted: too little of it, too much of it, or just enough
      split_ifs at h with wanted short large
      · rw [if_pos wanted]
        exact ⟨Nat.le_of_not_lt short, (UhttpParse.ok.inj h).symm⟩
      · rw [if_neg wanted]
        exact (UhttpParse.ok.inj h).symm
    · cases h
    · cases h

theorem uhttpParseRequest_eq_ok {parsed : UhttpRequest} (h : uhttpParseRequest data = .ok parsed) :
    ∃ line block rest, cutMessage data = .message line block rest ∧
      requestLine line = some (parsed.method, parsed.path) ∧
      parseHeaders block = some ⟨parsed.headers, parsed.contentLength⟩ ∧
      if parsed.method = .post ∧ 0 < parsed.contentLength then
        parsed.contentLength ≤ rest.length ∧ parsed.body = some (rest.take parsed.contentLength) ∧
          parsed.bodyLen = parsed.contentLength
      else parsed.body = none ∧ parsed.bodyLen = 0 := by
  rw [uhttpParseRequest_eq] at h
  obtain ⟨line, block, rest, start, header, cut, first, fields, body⟩ := MessageKind.parse_eq_ok h
  refine ⟨line, block, rest, cut, ?_⟩
  simp only [requestKind, decide_eq_true_eq] at first body
  split_ifs at body with wanted
  · obtain ⟨enough, rfl⟩ := body
    exact ⟨first, fields, by rw [if_pos wanted]; exact ⟨enough, rfl, rfl⟩⟩
  · subst body
    exact ⟨first, fields, by rw [if_neg wanted]; exact ⟨rfl, rfl⟩⟩

theorem uhttpParseResponse_eq_ok {parsed : UhttpResponse}
    (h : uhttpParseResponse data = .ok parsed) :
    ∃ line block rest contentLength, cutMessage data = .message line block rest ∧
      statusLine line = some (parsed.statusCode, parsed.statusText) ∧
      parseHeaders block = some ⟨parsed.headers, contentLength⟩ ∧
      if 0 < contentLength then
        contentLength ≤ rest.length ∧ parsed.body = some (rest.take contentLength)
      else parsed.body = none := by
  rw [uhttpParseResponse_eq] at h
  obtain ⟨line, block, rest, start, header, cut, first, fields, body⟩ := MessageKind.parse_eq_ok h
  refine ⟨line, block, rest, header.contentLength, cut, ?_⟩
  simp only [responseKind, true_and] at first body
  split_ifs at body with wanted
  · obtain ⟨enough, rfl⟩ := body
    exact ⟨first, fields, by rw [if_pos wanted]; exact ⟨enough, rfl⟩⟩
  · subst body
    exact ⟨first, fields, by rw [if_neg wanted]⟩

/-! ## Messages of lines -/

variable {line first last rest : List UInt8} {lines : List (List UInt8)} {s s' : ParsedHeaders}

/-- A line that can stand in the header of a message. -/
def Plain (line : List UInt8) : Prop := line ≠ [] ∧ (13 : UInt8) ∉ line

instance : DecidablePred Plain := fun _ => inferInstanceAs (Decidable (_ ∧ _))

theorem cutMessage_message (firstPlain : Plain first) (plain : ∀ line ∈ lines, Plain line)
    (lastPlain : Plain last) (rest : List UInt8) :
    cutMessage (terminated crlf (first :: lines) ++ (last ++ (crlf ++ crlf ++ rest)))
      = .message first (terminated crlf lines ++ last) rest := by
  set text := terminated crlf (first :: lines) ++ (last ++ (crlf ++ crlf ++ rest)) with text_eq
  -- the first blank line of the text is the one behind the last header line
  have blank : findSequence text (crlf ++ crlf)
      = some ((terminated crlf (first :: lines)).length + last.length) :=
    Delimited.find_blank_line (by decide) (List.forall_mem_cons.mpr ⟨firstPlain, plain⟩) lastPlain
      rest
  have header : text.take ((terminated crlf (first :: lines)).length + last.length)
      = first ++ (crlf ++ (terminated crlf lines ++ last)) := by
    rw [text_eq, ← List.length_append, ← List.append_assoc, List.take_left]
    simp
  have line : findSequence (first ++ (crlf ++ (terminated crlf lines ++ last))) crlf
      = some first.length :=
    Delimited.find_line firstPlain.2 _
  have block : (first ++ (crlf ++ (terminated crlf lines ++ last))).drop (first.length + 2)
      = terminated crlf lines ++ last := Delimited.drop_delimited first crlf _
  have behind : text.drop ((terminated crlf (first :: lines)).length + last.length + 4) = rest := by
    rw [text_eq, ← List.append_assoc, ← List.length_append]
    exact Delimited.drop_delimited _ (crlf ++ crlf) rest
  have nonempty : text ≠ [] := by simp [text_eq, crlf]
  simp only [cutMessage, if_neg nonempty, blank, header, line, List.take_left, block, behind]

/-- The loop takes one line after the other, but the last. -/
theorem parseHeadersLoop_eq_foldlM (fuel : Nat) (s : ParsedHeaders) (rest : List UInt8) :
    parseHeadersLoop fuel s rest = (Delimited.splitFuel crlf fuel rest).dropLast.foldlM headerLine
      s := by
  induction fuel generalizing s rest with
  | zero => rfl
  | succ fuel ih =>
    rw [parseHeadersLoop, Delimited.splitFuel, findSequence]
    cases Delimited.find crlf rest with
    | none => rfl
    | some lineEnd =>
      have behind : crlf.length = 2 := rfl
      simp only [List.dropLast_cons_of_ne_nil (Delimited.splitFuel_ne_nil _ _ _), List.foldlM_cons,
        behind]
      cases headerLine s (rest.take lineEnd) with
      | none => rfl
      | some s => exact ih s _

theorem parseHeaders_eq_foldlM (block : List UInt8) :
    parseHeaders block = (Delimited.split crlf block).dropLast.foldlM headerLine ⟨[], 0⟩ :=
  parseHeadersLoop_eq_foldlM _ _ _

/-- `parse_headers` takes every line of the header but the last. -/
theorem parseHeaders_terminated (plain : ∀ line ∈ lines, (13 : UInt8) ∉ line)
    (lastPlain : (13 : UInt8) ∉ last) :
    parseHeaders (terminated crlf lines ++ last) = lines.foldlM headerLine ⟨[], 0⟩ := by
  have pieces : Delimited.split crlf (terminated crlf lines ++ last) = lines ++ [last] :=
    Delimited.split_terminated plain lastPlain
  rw [parseHeaders_eq_foldlM, pieces, List.dropLast_concat]

/-- A text of lines with a blank line behind them is cut there, and the last of its lines is not
    parsed. -/
theorem cutMessage_text (firstPlain : Plain first) (plain : ∀ line ∈ lines, Plain line)
    (nonempty : lines ≠ []) (rest : List UInt8) :
    ∃ block, cutMessage (terminated crlf (first :: lines) ++ crlf ++ rest)
      = .message first block rest ∧
      parseHeaders block = lines.dropLast.foldlM headerLine ⟨[], 0⟩ := by
  have lastPlain := plain _ (List.getLast_mem nonempty)
  have otherPlain : ∀ line ∈ lines.dropLast, Plain line := fun line member =>
    plain line (List.mem_of_mem_dropLast member)
  have text : terminated crlf (first :: lines) ++ crlf ++ rest
      = terminated crlf (first :: lines.dropLast) ++
        (lines.getLast nonempty ++ (crlf ++ crlf ++ rest)) := by
    conv_lhs => rw [← List.dropLast_concat_getLast nonempty]
    simp
  rw [text, cutMessage_message firstPlain otherPlain lastPlain]
  exact ⟨_, rfl, parseHeaders_terminated (fun line member => (otherPlain line member).2)
    lastPlain.2⟩

/-! ## Single lines -/

theorem findByte_append {c : UInt8} (absent : c ∉ first) (rest : List UInt8) :
    findByte c (first ++ c :: rest) = some first.length := by
  have none_ : first.findIdx? (fun x => decide (x = c)) = none := by
    rw [List.findIdx?_eq_none_iff]
    intro x member
    simpa using fun eq : x = c => absent (eq ▸ member)
  simp [findByte, List.findIdx?_append, none_, List.findIdx?_cons]

theorem dropWhile_of_head? {p : UInt8 → Bool} {l : List UInt8}
    (h : ∀ c, l.head? = some c → p c = false) : l.dropWhile p = l := by
  cases l with
  | nil => rfl
  | cons c l => simp [h c rfl]

theorem headerLine_field (key val : List UInt8) (colon : (58 : UInt8) ∉ key)
    (trimmed : val.head? ≠ some 32) (room : s.headers.length < maxHeaders)
    (keyFits : key.length < maxHeaderSize) (valFits : val.length < maxHeaderSize) :
    headerLine s (key ++ ascii ": " ++ val) =
      if isContentLength key then
        (parseContentLength val).map fun n => ⟨s.headers ++ [fieldOf key val], n⟩
      else some ⟨s.headers ++ [fieldOf key val], s.contentLength⟩ := by
  have line : key ++ ascii ": " ++ val = key ++ 58 :: (32 :: val) := by
    have : ascii ": " = [58, 32] := by decide
    simp [this]
  have behind : (key ++ 58 :: 32 :: val).drop (key.length + 1) = 32 :: val :=
    Delimited.drop_delimited key [58] _
  -- the parser skips the blanks behind the colon, and the builder writes one
  have value : (32 :: val).dropWhile (fun c => decide (c = 32)) = val := by
    rw [List.dropWhile_cons_of_pos (by decide)]
    exact dropWhile_of_head? fun c here => decide_eq_false fun eq => trimmed (eq ▸ here)
  rw [line]
  simp only [headerLine, findByte_append colon, behind, value, List.take_left, room, keyFits,
    valFits, and_self, if_true]
  by_cases isLength : isContentLength key = true
  · simp only [if_pos isLength]
    cases parseContentLength val <;> rfl
  · simp only [if_neg isLength]

theorem parseContentLength_decimal {n : Nat} (fits : n ≤ uhttpMaxBodySize) :
    parseContentLength (decimal n) = some n := by
  -- the test of the limit after each digit passes, as the value only grows
  have digits : ∀ (str : List UInt8) (out : Nat), (∀ c ∈ str, isDigit c = true) →
      str.foldl (fun n c => n * 10 + digit c) out ≤ uhttpMaxBodySize →
      contentDigits out str = some (str.foldl (fun n c => n * 10 + digit c) out) := by
    intro str
    induction str with
    | nil => intro out _ _; rfl
    | cons c str ih =>
      intro out all small
      obtain ⟨here, rest⟩ := List.forall_mem_cons.mp all
      have step : out * 10 + digit c ≤ uhttpMaxBodySize := (le_foldl_digit str _).trans small
      rw [contentDigits, if_pos here]
      simp only [if_neg step.not_gt]
      exact ih _ rest small
  have noSpace : (decimal n).dropWhile isSpace = decimal n :=
    dropWhile_of_head? fun c here => not_isSpace_of_isDigit
      (isDigit_of_mem_decimal (List.mem_of_mem_head? here))
  have value := value_decimal n
  rw [parseContentLength, if_neg (decimal_ne_nil n), noSpace,
    digits _ 0 (fun c => isDigit_of_mem_decimal) (by rw [← Text.value, value]; exact fits),
      ← Text.value, value]

theorem atoi_decimal (n : Nat) : atoi (decimal n) = n := by
  have digits : ∀ c ∈ decimal n, isDigit c = true := fun c => isDigit_of_mem_decimal
  have noSpace : (decimal n).dropWhile isSpace = decimal n :=
    dropWhile_of_head? fun c here => not_isSpace_of_isDigit (digits c (List.mem_of_mem_head? here))
  have all : (decimal n).takeWhile isDigit = decimal n := List.takeWhile_eq_self_iff.mpr digits
  rw [atoi, noSpace]
  split
  next rest minus => exact absurd (digits 45 (minus ▸ List.mem_cons_self)) (by decide)
  next rest plus => exact absurd (digits 43 (plus ▸ List.mem_cons_self)) (by decide)
  · rw [all, value_decimal]

/-! ## Lines one after the other -/

theorem foldlM_of_headerLine (h : headerLine s line = some s') :
    (line :: lines).foldlM headerLine s = lines.foldlM headerLine s' := by
  rw [List.foldlM_cons, h]
  rfl

/-- A line is passed over, because it has no name, does not fit or finds no room, or it adds a
    field, and sets the length if it is one of the length. -/
theorem headerLine_cases (h : headerLine s line = some s') :
    (s' = s ∧ ∀ colon, findByte 58 line = some colon → ¬ (s.headers.length < maxHeaders ∧
      (line.take colon).length < maxHeaderSize ∧
        ((line.drop (colon + 1)).dropWhile (· = 32)).length < maxHeaderSize)) ∨
    ∃ colon h, findByte 58 line = some colon ∧ s.headers.length < maxHeaders ∧
      (line.take colon).length < maxHeaderSize ∧
        ((line.drop (colon + 1)).dropWhile (· = 32)).length < maxHeaderSize ∧
      s'.headers = s.headers ++ [h] ∧
      if isContentLength (line.take colon) then
        parseContentLength ((line.drop (colon + 1)).dropWhile (· = 32)) = some s'.contentLength
      else s'.contentLength = s.contentLength := by
  rw [headerLine] at h
  split at h
  next none_ =>
    cases h
    exact .inl ⟨rfl, fun colon found => absurd (none_.symm.trans found) (by simp)⟩
  next colon found =>
    -- a field is stored only if the table has room and both parts fit their arrays
    dsimp only at h
    split_ifs at h with room isLength
    · split at h
      · cases h
      next number =>
        cases h
        exact .inr ⟨colon, _, found, room.1, room.2.1, room.2.2,
          rfl, by rw [if_pos isLength]; exact number⟩
    · cases h
      exact .inr ⟨colon, _, found, room.1, room.2.1, room.2.2, rfl, by rw [if_neg isLength]⟩
    · cases h
      refine .inl ⟨rfl, fun colon' found' => ?_⟩
      cases found.symm.trans found'
      exact room

theorem foldlM_headerLine_invariant {I : ParsedHeaders → Prop}
    (kept : ∀ {s s' line}, I s → headerLine s line = some s' → I s') (start : I s)
    (h : lines.foldlM headerLine s = some s') : I s' := by
  induction lines generalizing s with
  | nil =>
    cases h
    exact start
  | cons line lines ih =>
    obtain ⟨u, here, rest⟩ := Option.bind_eq_some_iff.mp h
    exact ih (kept start here) rest

theorem headerLine_length (h : headerLine s line = some s') :
    s'.headers.length ≤ s.headers.length + 1 := by
  obtain ⟨rfl, -⟩ | ⟨colon, field, -, -, -, -, headers, -⟩ := headerLine_cases h
  · omega
  · rw [headers, List.length_append, List.length_singleton]

theorem foldlM_headerLine_length (h : lines.foldlM headerLine s = some s') :
    s'.headers.length ≤ s.headers.length + lines.length := by
  induction lines generalizing s with
  | nil => cases h; simp
  | cons line lines ih =>
    obtain ⟨u, here, rest⟩ := Option.bind_eq_some_iff.mp h
    have := headerLine_length here
    have := ih rest
    simp only [List.length_cons]
    omega

end Soter2.Uhttp
