import Mathlib.Data.List.Infix
import Mathlib.Tactic.Common
import Soter2.Library.Delimited
import Soter2.Library.Text
import Soter2.Uhttp.Parser

/-! # Parsing more of a message (`uhttp/src/parser.c`)

A message is parsed with as much of it as there is.  The header is too large if 8192 bytes are
there without a blank line, but one whose blank line is there may have any size.

* `verdict_stable_iff` — when the result for a part of a message is final.
-/

namespace Soter2.Uhttp

open Text
open Delimited (terminated)

/-- A message that is accepted stays accepted with more input, as the same message, and one that
    is rejected stays rejected. -/
def Stable {α : Type} (parse : List UInt8 → UhttpParse α) (p d : List UInt8) : Prop :=
  (∀ parsed, parse p = .ok parsed → parse d = .ok parsed) ∧ (parse p = .error → parse d = .error)

/-- The message has a blank line, and its first line and the lines of its header are accepted. -/
def Headed {β : Type} (firstLine : List UInt8 → Option β) (data : List UInt8) : Prop :=
  ∃ line block rest, cutMessage data = .message line block rest ∧ firstLine line ≠ none ∧
    parseHeaders block ≠ none

/-- The blank line is in the part, or the part is not too large for a header yet, or the message
    is not accepted anyway. -/
def InTime {β : Type} (firstLine : List UInt8 → Option β) (p d : List UInt8) : Prop :=
  findSequence p (crlf ++ crlf) ≠ none ∨ p.length < uhttpMaxHeaderSize ∨ ¬ Headed firstLine d

/-! ## The size of the body -/

variable {α β : Type} {data p line block rest : List UInt8} {headerLen : Nat}

theorem contentDigits_le {str : List UInt8} {out n : Nat} (small : out ≤ uhttpMaxBodySize)
    (h : contentDigits out str = some n) : n ≤ uhttpMaxBodySize := by
  induction str generalizing out with
  | nil => exact Option.some.inj h ▸ small
  | cons c str ih =>
    rw [contentDigits] at h
    dsimp only at h
    split_ifs at h with here large
    exact ih (Nat.le_of_not_lt large) h

theorem parseContentLength_le {str : List UInt8} {n : Nat} (h : parseContentLength str = some n) :
    n ≤ uhttpMaxBodySize := by
  rw [parseContentLength] at h
  split_ifs at h
  exact contentDigits_le (Nat.zero_le _) h

theorem headerLine_contentLength_le {s s' : ParsedHeaders}
    (small : s.contentLength ≤ uhttpMaxBodySize)
    (h : headerLine s line = some s') : s'.contentLength ≤ uhttpMaxBodySize := by
  obtain ⟨rfl, -⟩ | ⟨colon, field, -, -, -, -, -, length⟩ := headerLine_cases h
  · exact small
  · split_ifs at length
    · exact parseContentLength_le length
    · rwa [length]

/-- The parser of the header lets no larger body through. -/
theorem parseHeaders_contentLength_le {header : ParsedHeaders}
    (h : parseHeaders block = some header) : header.contentLength ≤ uhttpMaxBodySize := by
  rw [parseHeaders_eq_foldlM] at h
  exact foldlM_headerLine_invariant headerLine_contentLength_le (Nat.zero_le uhttpMaxBodySize) h

/-! ## More input -/

variable (kind : MessageKind α β)

/-- What is cut off, with more input behind it. -/
def Cut.append (more : List UInt8) : Cut → Cut
  | .message line block rest => .message line block (rest ++ more)
  | .error => .error
  | .incomplete => .incomplete

/-- Once the blank line is there, what follows is only more of the rest. -/
theorem cutMessage_append (blank : findSequence p (crlf ++ crlf) = some headerLen)
    (more : List UInt8) : cutMessage (p ++ more) = (cutMessage p).append more := by
  have inside : headerLen + 4 ≤ p.length := Delimited.find_le blank
  have blank' : findSequence (p ++ more) (crlf ++ crlf) = some headerLen :=
    Delimited.find_append blank more
  rw [cutMessage_of_blank blank, cutMessage_of_blank blank',
    List.take_append_of_le_length (by omega), List.drop_append_of_le_length inside]
  cases findSequence (p.take headerLen) crlf <;> rfl

theorem MessageKind.parse_of_cut (cut : cutMessage data = .message line block rest) :
    kind.parse data = kind.parseMessage line block rest := by
  rw [MessageKind.parse, cut]

theorem MessageKind.finish_ne_error {start : β} {header : ParsedHeaders}
    (fields : parseHeaders block = some header) : kind.finish start header rest ≠ .error := by
  have small := parseHeaders_contentLength_le fields
  rw [MessageKind.finish]
  split_ifs with wanted short large
  · simp
  · exact absurd small (Nat.not_le_of_lt large)
  · simp
  · simp

/-- A message that is long enough has the same body with more input. -/
theorem MessageKind.finish_append {start : β} {header : ParsedHeaders} {parsed : α}
    (accepted : kind.finish start header rest = .ok parsed) (more : List UInt8) :
    kind.finish start header (rest ++ more) = .ok parsed := by
  rw [MessageKind.finish] at accepted ⊢
  split_ifs at accepted with wanted short large
  · have enough : ¬ (rest ++ more).length < header.contentLength := by
      rw [List.length_append]
      omega
    rw [if_pos wanted, if_neg enough, if_neg large,
      List.take_append_of_le_length (Nat.le_of_not_lt short)]
    exact accepted
  · rw [if_neg wanted]
    exact accepted

theorem stable_of_incomplete {parse : List UInt8 → UhttpParse α} {d : List UInt8}
    (waiting : parse p = .incomplete) : Stable parse p d := by
  simp [Stable, waiting]

theorem stable_of_error {parse : List UInt8 → UhttpParse α} {d : List UInt8}
    (rejected : parse p = .error) (still : parse d = .error) : Stable parse p d := by
  simp [Stable, rejected, still]

/-- The result for a message whose blank line is there is final. -/
theorem stable_of_blank (blank : findSequence p (crlf ++ crlf) = some headerLen)
    (more : List UInt8) : Stable kind.parse p (p ++ more) := by
  have cut := cutMessage_append blank more
  cases start : cutMessage p with
  | error =>
    rw [start] at cut
    exact stable_of_error (by rw [MessageKind.parse, start]) (by rw [MessageKind.parse, cut]; rfl)
  | incomplete => exact stable_of_incomplete (by rw [MessageKind.parse, start])
  | message line block rest =>
    rw [start] at cut
    have parsed := MessageKind.parse_of_cut kind start
    have parsed' := MessageKind.parse_of_cut kind cut
    rw [MessageKind.parseMessage] at parsed parsed'
    -- only the rest of the message grows
    cases first : kind.firstLine line with
    | none => exact stable_of_error (by rw [parsed, first]) (by rw [parsed', first])
    | some opening =>
      cases fields : parseHeaders block with
      | none =>
        exact stable_of_error (by rw [parsed, first, fields]) (by rw [parsed', first, fields])
      | some header =>
        simp only [first, fields] at parsed parsed'
        rw [Stable, parsed, parsed']
        exact ⟨fun _ accepted => MessageKind.finish_append kind accepted more,
          fun rejected => absurd rejected (MessageKind.finish_ne_error kind fields)⟩

/-- A message is rejected or has an accepted header, if it is too large for not having one. -/
theorem MessageKind.parse_eq_error_iff (large : uhttpMaxHeaderSize ≤ data.length) :
    kind.parse data = .error ↔ ¬ Headed kind.firstLine data := by
  have nonempty : data ≠ [] := by
    rintro rfl
    cases large
  cases cut : cutMessage data with
  | error =>
    refine iff_of_true (by rw [MessageKind.parse, cut]) ?_
    rintro ⟨line, block, rest, message, -⟩
    cases cut.symm.trans message
  | incomplete =>
    -- either the blank line is missing, and then the size is too large, or it is not
    exfalso
    cases blank : findSequence data (crlf ++ crlf) with
    | none =>
      rw [cutMessage_of_no_blank nonempty blank, if_pos large] at cut
      cases cut
    | some headerLen =>
      rw [cutMessage_of_blank blank] at cut
      split at cut <;> cases cut
  | message line block rest =>
    rw [MessageKind.parse_of_cut kind cut]
    have headed : Headed kind.firstLine data ↔
        kind.firstLine line ≠ none ∧ parseHeaders block ≠ none := by
      constructor
      · rintro ⟨line', block', rest', cut', accepted⟩
        cases cut.symm.trans cut'
        exact accepted
      · exact fun accepted => ⟨line, block, rest, cut, accepted⟩
    rw [headed, MessageKind.parseMessage]
    split
    next start header first fields =>
      exact iff_of_false (MessageKind.finish_ne_error kind fields) (by simp [first, fields])
    next first => exact iff_of_true rfl (by simp [first])
    next fields => exact iff_of_true rfl (by simp [fields])

/-- For each kind of message, a result is final if and only if the blank line was in time. -/
theorem MessageKind.stable_iff (nonempty : p ≠ []) (more : List UInt8) :
    Stable kind.parse p (p ++ more) ↔ InTime kind.firstLine p (p ++ more) := by
  cases blank : findSequence p (crlf ++ crlf) with
  | some headerLen => exact iff_of_true (stable_of_blank kind blank more) (.inl (by simp [blank]))
  | none =>
    have cut := cutMessage_of_no_blank nonempty blank
    rw [InTime, blank]
    -- without a blank line only the size decides
    by_cases small : p.length < uhttpMaxHeaderSize
    · rw [if_neg (Nat.not_le_of_lt small)] at cut
      have waiting : kind.parse p = .incomplete := by rw [MessageKind.parse, cut]
      exact iff_of_true (stable_of_incomplete waiting) (.inr (.inl small))
    · have large : uhttpMaxHeaderSize ≤ (p ++ more).length := by
        rw [List.length_append]
        omega
      rw [if_pos (Nat.le_of_not_lt small)] at cut
      have rejected : kind.parse p = .error := by rw [MessageKind.parse, cut]
      rw [Stable, rejected, MessageKind.parse_eq_error_iff kind large]
      simp [small]

/-- The result for a part of a request or a response is final if and only if the blank line is in
    the part, or the part is smaller than the largest header, or the header of the whole message
    is not accepted. -/
theorem verdict_stable_iff (p d : List UInt8) (initial : p <+: d) (nonempty : p ≠ []) :
    (Stable uhttpParseRequest p d ↔ InTime requestLine p d) ∧
      (Stable uhttpParseResponse p d ↔ InTime statusLine p d) := by
  obtain ⟨more, rfl⟩ := initial
  have request : uhttpParseRequest = requestKind.parse := funext uhttpParseRequest_eq
  have response : uhttpParseResponse = responseKind.parse := funext uhttpParseResponse_eq
  rw [request, response]
  exact ⟨requestKind.stable_iff nonempty more, responseKind.stable_iff nonempty more⟩

/-- A request with the start of another one behind it. -/
theorem verdict_stable_iff_pipelined :
    Stable uhttpParseRequest (ascii "GET / HTTP/1.1\r\nHost: a\r\n\r\n")
      (ascii "GET / HTTP/1.1\r\nHost: a\r\n\r\nGET") :=
  (verdict_stable_iff _ _ (by decide) (by decide)).1.mpr (.inl (by decide))

/-! ## A large header -/

/-- `GET /` with one line in its header, so far without its end. -/
def openGet (line : List UInt8) : List UInt8 := terminated crlf [ascii "GET / HTTP/1.1"] ++ line

theorem openGet_rejected (plain : Plain line) (large : uhttpMaxHeaderSize ≤ line.length) :
    uhttpParseRequest (openGet line) = .error := by
  have size : uhttpMaxHeaderSize ≤ (openGet line).length := by
    rw [openGet, List.length_append]
    omega
  have first : ∀ first ∈ [ascii "GET / HTTP/1.1"], Plain first := by decide
  have blank : findSequence (openGet line) (crlf ++ crlf) = none :=
    Delimited.find_no_blank_line (by decide) first plain
  have nonempty : openGet line ≠ [] := List.ne_nil_of_length_pos (lt_of_lt_of_le (by decide) size)
  rw [uhttpParseRequest_eq, MessageKind.parse, cutMessage_of_no_blank nonempty blank, if_pos size]

theorem openGet_accepted (plain : Plain line) :
    uhttpParseRequest (openGet line ++ (crlf ++ crlf)) = .ok ⟨.get, ascii "/", [], none, 0, 0⟩ := by
  have cut : cutMessage (terminated crlf [ascii "GET / HTTP/1.1"] ++ (line ++ (crlf ++ crlf ++ [])))
      = .message (ascii "GET / HTTP/1.1") (terminated crlf [] ++ line) [] :=
    cutMessage_message (by decide) (by simp) plain []
  have header : parseHeaders (terminated crlf [] ++ line) = some ⟨[], 0⟩ :=
    parseHeaders_terminated (by simp) plain.2
  have text : openGet line ++ (crlf ++ crlf) = terminated crlf [ascii "GET / HTTP/1.1"] ++
      (line ++ (crlf ++ crlf ++ [])) := by
    simp [openGet]
  have first : requestLine (ascii "GET / HTTP/1.1") = some (.get, ascii "/") := by decide
  rw [text, uhttpParseRequest, cut]
  simp only [first, header]
  rfl

/-- As many bytes as a header may have. -/
def longLine : List UInt8 := List.replicate uhttpMaxHeaderSize 97

/-- The header is rejected without its blank line and accepted with it. -/
theorem large_header_is_accepted :
    uhttpParseRequest (openGet longLine) = .error ∧
      uhttpParseRequest (openGet longLine ++ (crlf ++ crlf))
        = .ok ⟨.get, ascii "/", [], none, 0, 0⟩ ∧
      ¬ Stable uhttpParseRequest (openGet longLine) (openGet longLine ++ (crlf ++ crlf)) := by
  have length : longLine.length = uhttpMaxHeaderSize := List.length_replicate
  have plain : Plain longLine :=
    ⟨List.ne_nil_of_length_pos (by rw [length]; decide),
      fun member => absurd (List.eq_of_mem_replicate member) (by decide)⟩
  have rejected := openGet_rejected plain length.ge
  have accepted := openGet_accepted plain
  refine ⟨rejected, accepted, fun stable => ?_⟩
  have still := stable.2 rejected
  rw [accepted] at still
  cases still

end Soter2.Uhttp
