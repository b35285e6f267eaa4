import Mathlib.Data.List.Basic
import Mathlib.Tactic.Common
import Soter2.Library.Delimited
import Soter2.Library.Text
import Soter2.Uhttp.Api
import Soter2.Uhttp.Parser

/-! # Building and parsing a message

A message that was built is parsed again.  The parser cuts the header in front of the CRLF of
its last line and then takes only lines with a CRLF behind them, so that line is lost.

* `request_never_round_trips`, `response_never_round_trips` — no message comes back whole.
-/

namespace Soter2.Uhttp

open Text
open Delimited (terminated)
open Lownet (cString)

/-- The name and the text of a field of the header. -/
def UhttpHeader.field (h : UhttpHeader) : List UInt8 × List UInt8 := (h.name, h.text)

structure CustomHeader (h : UhttpHeader) : Prop where
  named : h.name ≠ []
  nameFits : h.name.length < maxHeaderSize
  textFits : h.text.length < maxHeaderSize
  name : ∀ c ∈ h.name, c ≠ 13 ∧ c ≠ 10 ∧ c ≠ 58
  text : ∀ c ∈ h.text, c ≠ 13 ∧ c ≠ 10
  other : h.name ≠ ascii "Content-Length"
  trimmed : h.text.head? ≠ some 32

/-- A POST request with a body, or a GET request without. -/
def BodyFits (req : UhttpRequest) : Prop :=
  (req.method = .post ∧ (req.body.getD []).length = req.bodyLen ∧ req.bodyLen ≤ uhttpMaxBodySize) ∨
    (req.method = .get ∧ req.body = none ∧ req.bodyLen = 0)

structure PlainRequest (req : UhttpRequest) : Prop where
  body : BodyFits req
  pathFits : req.path.length < maxPathSize
  path : ∀ c ∈ req.path, c ≠ 32 ∧ c ≠ 13 ∧ c ≠ 10 ∧ c ≠ 0
  few : req.headers.length ≤ maxHeaders - 1
  headers : ∀ h ∈ req.headers, CustomHeader h

structure PlainResponse (resp : UhttpResponse) : Prop where
  code : 100 ≤ resp.statusCode ∧ resp.statusCode ≤ 999
  text : ∃ text, resp.statusText = some text ∧ text ≠ [] ∧ ∀ c ∈ text, c ≠ 13 ∧ c ≠ 10 ∧ c ≠ 0
  whole : (resp.body.getD []).length = resp.bodyLen
  bodyFits : resp.bodyLen ≤ uhttpMaxBodySize
  few : resp.headers.length ≤ maxHeaders - 3
  headers : ∀ h ∈ resp.headers, CustomHeader h

/-- What the text of the request is parsed as has the method, path and body of the request, and
    its length and its headers as the header. -/
def RequestRoundTrips (memory : Nat → UInt8) (req : UhttpRequest) : Prop :=
  ∃ data osz parsed, uhttpBuildRequest memory req = .ok (data, osz) ∧
    uhttpParseRequest (data.take osz) = .ok parsed ∧
    parsed.method = req.method ∧ parsed.path = req.path ∧ parsed.body.getD [] = req.body.getD [] ∧
    parsed.headers.map (·.field) = (ascii "Content-Length", decimal req.bodyLen) ::
      req.headers.map (·.field)

/-- The response is written with as many bytes as are reported, and one more is allocated; what
    they are parsed as has the code, text and body of the response, and all headers. -/
def ResponseRoundTrips (memory : Nat → UInt8) (resp : UhttpResponse) : Prop :=
  Writes (uhttpBuildResponse memory resp) (responseText resp) ∧
  ∃ data osz parsed, uhttpBuildResponse memory resp = .ok (data, osz) ∧
    uhttpParseResponse (data.take osz) = .ok parsed ∧
    parsed.statusCode = resp.statusCode ∧ parsed.statusText = resp.statusText ∧
      parsed.body.getD [] = resp.body.getD [] ∧
    parsed.headers.map (·.field) =
      (ascii "Content-Type", uhttpStrContentType resp.contentType) ::
        (ascii "Content-Length", decimal resp.bodyLen) ::
        (ascii "Connection", ascii "close") :: resp.headers.map (·.field)

/-! ## The lines of a message -/

variable {memory : Nat → UInt8} {req : UhttpRequest} {resp : UhttpResponse} {h : UhttpHeader}

theorem CustomHeader.line_plain (custom : CustomHeader h) : Plain h.line := by
  constructor
  · simp [UhttpHeader.line, custom.named]
  · simp only [UhttpHeader.line, List.mem_append, not_or]
    exact ⟨⟨fun member => (custom.name 13 member).1 rfl, by decide⟩,
      fun member => (custom.text 13 member).1 rfl⟩

theorem decimal_plain (n : Nat) : (13 : UInt8) ∉ decimal n := fun member =>
  absurd (isDigit_of_mem_decimal member) (by decide)

theorem lengthLine_plain (bodyLen : Nat) : Plain (lengthLine bodyLen) := by
  constructor
  · simp [lengthLine, decimal_ne_nil]
  · rw [lengthLine, List.mem_append, not_or]
    exact ⟨by decide, decimal_plain bodyLen⟩

theorem requestFirst_plain (path : ∀ c ∈ req.path, c ≠ 13) : Plain (requestFirst req) := by
  have method : (13 : UInt8) ∉ uhttpStrMethod req.method := by cases req.method <;> decide
  constructor
  · cases method : req.method <;> simp [requestFirst, uhttpStrMethod, method, ascii]
  · simp only [requestFirst, List.mem_append, not_or]
    exact ⟨⟨⟨method, by decide⟩, fun member =>
      path 13 (List.takeWhile_sublist _ |>.mem member) rfl⟩, by decide⟩

theorem decimalInt_plain (n : Int) : (13 : UInt8) ∉ decimalInt n := by
  rw [decimalInt]
  split
  · rw [List.mem_append, not_or]
    exact ⟨by decide, decimal_plain _⟩
  · exact decimal_plain _

theorem responseFirst_plain (text : (13 : UInt8) ∉ statusTextOrOk resp) :
    Plain (responseFirst resp) := by
  constructor
  · simp [responseFirst, ascii]
  · simp only [responseFirst, List.mem_append, not_or]
    exact ⟨⟨⟨by decide, decimalInt_plain _⟩, by decide⟩, text⟩

theorem typeLine_plain (contentType : UhttpContentType) : Plain (typeLine contentType) := by
  cases contentType <;> decide

/-! ## What comes back -/

theorem parse_requestText (req : UhttpRequest) (path : ∀ c ∈ req.path, c ≠ 13)
    (custom : ∀ h ∈ req.headers, CustomHeader h) :
    ∃ block, cutMessage (requestText req) = .message (requestFirst req) block (req.body.getD []) ∧
      parseHeaders block = (lengthLine req.bodyLen :: req.headers.map (·.line)).dropLast.foldlM
        headerLine ⟨[], 0⟩ := by
  refine cutMessage_text (requestFirst_plain path) ?_ (List.cons_ne_nil _ _) _
  rw [List.forall_mem_cons, List.forall_mem_map]
  exact ⟨lengthLine_plain _, fun h member => (custom h member).line_plain⟩

theorem parse_responseText (resp : UhttpResponse) (text : (13 : UInt8) ∉ statusTextOrOk resp)
    (custom : ∀ h ∈ resp.headers, CustomHeader h) :
    ∃ block, cutMessage (responseText resp) = .message (responseFirst resp) block
      (resp.body.getD []) ∧
      parseHeaders block = (typeLine resp.contentType :: lengthLine resp.bodyLen :: closeLine ::
        resp.headers.map (·.line)).dropLast.foldlM headerLine ⟨[], 0⟩ := by
  have lines : responseText resp = terminated crlf
      (responseFirst resp :: typeLine resp.contentType ::
      lengthLine resp.bodyLen :: closeLine :: resp.headers.map (·.line)) ++ crlf ++
        resp.body.getD [] := by
    simp [responseText, responseHead]
  rw [lines]
  refine cutMessage_text (responseFirst_plain text) ?_ (List.cons_ne_nil _ _) _
  simp only [List.forall_mem_cons, List.forall_mem_map]
  exact ⟨typeLine_plain _, lengthLine_plain _, by decide,
    fun h member => (custom h member).line_plain⟩

theorem decimal_short {n : Nat} (h : n ≤ uhttpMaxBodySize) : (decimal n).length ≤ 8 :=
  (length_decimal_le_iff (by decide)).mpr (lt_of_le_of_lt h (by decide))

theorem PlainRequest.small (plain : PlainRequest req) : req.bodyLen ≤ uhttpMaxBodySize := by
  obtain ⟨-, -, fits⟩ | ⟨-, -, none_⟩ := plain.body
  · exact fits
  · rw [none_]
    exact Nat.zero_le _

theorem PlainRequest.whole (plain : PlainRequest req) :
    (req.body.getD []).length = req.bodyLen := by
  obtain ⟨-, whole, -⟩ | ⟨-, body, none_⟩ := plain.body
  · exact whole
  · rw [body, none_]
    rfl

/-- The first lines of a request are short enough to be printed. -/
theorem PlainRequest.short (plain : PlainRequest req) :
    (requestFirst req ++ crlf ++ lengthLine req.bodyLen ++ crlf).length ≤ intMax := by
  have number := decimal_short plain.small
  have path : (cString req.path).length ≤ req.path.length := (List.takeWhile_sublist _).length_le
  have method : (uhttpStrMethod req.method).length ≤ 7 := by cases req.method <;> decide
  have literals : (ascii " ").length = 1 ∧ (ascii " HTTP/1.1").length = 9 ∧
      (ascii "Content-Length: ").length = 16 ∧
      crlf.length = 2 ∧ intMax = 2147483647 ∧ maxPathSize = 512 := by decide
  have := plain.pathFits
  simp only [requestFirst, lengthLine, List.length_append]
  omega

/-- The last line of a header is not read, so there are fewer fields than lines. -/
theorem fields_ne_of_dropLast {lines : List (List UInt8)} {parsed : ParsedHeaders}
    {fields : List (List UInt8 × List UInt8)}
    (parses : lines.dropLast.foldlM headerLine ⟨[], 0⟩ = some parsed) (nonempty : lines ≠ [])
    (all : fields.length = lines.length) : parsed.headers.map (·.field) ≠ fields := by
  intro same
  have few := foldlM_headerLine_length parses
  have positive := List.length_pos_of_ne_nil nonempty
  rw [← same] at all
  simp only [List.length_map, List.length_dropLast, List.length_nil] at few all
  omega

/-- The header of a request that is built and parsed lacks one of its fields. -/
theorem request_never_round_trips (memory : Nat → UInt8) (req : UhttpRequest)
    (plain : PlainRequest req) : ¬ RequestRoundTrips memory req := by
  rintro ⟨data, osz, parsed, built, parses, -, -, -, fields⟩
  rw [(uhttpBuildRequest_eq memory plain.whole plain.short).take_eq built] at parses
  obtain ⟨block, cut, header⟩ := parse_requestText req (fun c member => (plain.path c member).2.1)
    plain.headers
  obtain ⟨line, block', rest, cut', -, header', -⟩ := uhttpParseRequest_eq_ok parses
  obtain ⟨-, rfl, -⟩ := Cut.message.inj (cut.symm.trans cut')
  exact fields_ne_of_dropLast (header.symm.trans header') (List.cons_ne_nil _ _) (by simp) fields

/-- `X-Id: 7`. -/
def idHeader : UhttpHeader := fieldOf (ascii "X-Id") (ascii "7")

theorem idHeader_custom : CustomHeader idHeader where
  named := by decide +kernel
  nameFits := by decide +kernel
  textFits := by decide +kernel
  name := forall_of_all (by decide +kernel)
  text := forall_of_all (by decide +kernel)
  other := by decide +kernel
  trimmed := by decide +kernel

/-- `POST /note`, with a header of its own and the body `A`. -/
def postNote : UhttpRequest := ⟨.post, ascii "/note", [idHeader], some (ascii "A"), 1, 0⟩

theorem postNote_never_round_trips : ¬ RequestRoundTrips (fun _ => 0) postNote :=
  request_never_round_trips _ postNote
    ⟨.inl (by decide), by decide, forall_of_all (by decide), by decide,
      List.forall_mem_singleton.mpr idHeader_custom⟩

/-- `POST /` with the body `A`. -/
def shortPost : UhttpRequest := ⟨.post, ascii "/", [], some (ascii "A"), 1, 0⟩

/-- The only field of the header is the length, and without it the body is not looked for. -/
theorem shortPost_loses_body :
    PlainRequest shortPost ∧ Writes (uhttpBuildRequest (fun _ => 0) shortPost)
      (requestText shortPost) ∧
      uhttpParseRequest (requestText shortPost) = .ok ⟨.post, ascii "/", [], none, 0, 0⟩ ∧
      ¬ RequestRoundTrips (fun _ => 0) shortPost := by
  have plain : PlainRequest shortPost :=
    ⟨.inl (by decide), by decide, forall_of_all (by decide), by decide, by simp [shortPost]⟩
  have writes := uhttpBuildRequest_eq (fun _ => 0) plain.whole plain.short
  have parse : uhttpParseRequest (requestText shortPost) = .ok ⟨.post, ascii "/", [], none, 0, 0⟩ :=
    rfl
  refine ⟨plain, writes, parse, ?_⟩
  rintro ⟨data, osz, parsed, built, parses, -, -, body, -⟩
  rw [writes.take_eq built, parse] at parses
  rw [← UhttpParse.ok.inj parses] at body
  exact absurd body (by decide)

theorem PlainResponse.code_length (plain : PlainResponse resp) :
    (decimalInt resp.statusCode).length = 3 := by
  obtain ⟨low, high⟩ := plain.code
  have three : (decimal resp.statusCode.natAbs).length ≤ 3 :=
    (length_decimal_le_iff (by decide)).mpr (by omega)
  have two : ¬ (decimal resp.statusCode.natAbs).length ≤ 2 := by
    rw [length_decimal_le_iff (by decide)]
    omega
  rw [decimalInt, if_neg (by omega)]
  omega

theorem PlainResponse.text_plain (plain : PlainResponse resp) :
    (13 : UInt8) ∉ statusTextOrOk resp := by
  obtain ⟨text, some_, -, clean⟩ := plain.text
  rw [statusTextOrOk, some_]
  exact fun member => (clean 13 ((List.takeWhile_sublist _).mem member)).1 rfl

/-- The header of a response that is built and parsed lacks one of its fields. -/
theorem response_never_round_trips (memory : Nat → UInt8) (resp : UhttpResponse)
    (plain : PlainResponse resp) : ¬ ResponseRoundTrips memory resp := by
  rintro ⟨writes, data, osz, parsed, built, parses, -, -, -, fields⟩
  rw [writes.take_eq built] at parses
  obtain ⟨block, cut, header⟩ := parse_responseText resp plain.text_plain plain.headers
  obtain ⟨line, block', rest, contentLength, cut', -, header', -⟩ := uhttpParseResponse_eq_ok parses
  obtain ⟨-, rfl, -⟩ := Cut.message.inj (cut.symm.trans cut')
  exact fields_ne_of_dropLast (header.symm.trans header') (List.cons_ne_nil _ _) (by simp) fields

/-- A response with a header of its own and the body `A`. -/
def noteCreated : UhttpResponse :=
  ⟨201, some (ascii "Created"), [idHeader], some (ascii "A"), 1, .textPlain⟩

theorem noteCreated_never_round_trips : ¬ ResponseRoundTrips (fun _ => 0) noteCreated :=
  response_never_round_trips _ noteCreated
    ⟨by decide, ⟨_, rfl, by decide, forall_of_all (by decide)⟩, rfl, by decide, by decide,
      List.forall_mem_singleton.mpr idHeader_custom⟩

/-- A response with the body `A`. -/
def shortResponse : UhttpResponse := ⟨200, some (ascii "OK"), [], some (ascii "A"), 1, .textPlain⟩

/-- The last field of the header is the one of the connection. -/
theorem shortResponse_loses_connection :
    PlainResponse shortResponse ∧ Writes (uhttpBuildResponse (fun _ => 0) shortResponse)
      (responseText shortResponse) ∧
      uhttpParseResponse (responseText shortResponse) = .ok
        ⟨200, some (ascii "OK"), [fieldOf (ascii "Content-Type") (ascii "text/plain"),
          fieldOf (ascii "Content-Length") (ascii "1")], some (ascii "A"), 1, .octetStream⟩ ∧
      ¬ ResponseRoundTrips (fun _ => 0) shortResponse := by
  have plain : PlainResponse shortResponse :=
    ⟨by decide, ⟨_, rfl, by decide, forall_of_all (by decide)⟩,
      rfl, by decide, by decide, by simp [shortResponse]⟩
  have writes := uhttpBuildResponse_eq (fun _ => 0) plain.code_length plain.whole
  rw [if_pos (by decide)] at writes
  have parse : uhttpParseResponse (responseText shortResponse) = .ok
      ⟨200, some (ascii "OK"), [fieldOf (ascii "Content-Type") (ascii "text/plain"),
        fieldOf (ascii "Content-Length") (ascii "1")], some (ascii "A"), 1, .octetStream⟩ := by rfl
  refine ⟨plain, writes, parse, ?_⟩
  rintro ⟨-, data, osz, parsed, built, parses, -, -, -, fields⟩
  rw [writes.take_eq built, parse] at parses
  rw [← UhttpParse.ok.inj parses] at fields
  exact absurd (congrArg List.length fields) (by decide)

/-! ## All fields but the last -/

variable {key val : List UInt8} {s : ParsedHeaders} {headers : List UhttpHeader}

theorem cString_ofImage {text : List UInt8} (clean : ∀ c ∈ text, c ≠ 0)
    (fits : text.length < maxHeaderSize) :
    cString ((Layout.bytes maxHeaderSize).ofImage text).toList = text := by
  have room : maxHeaderSize - text.length = maxHeaderSize - text.length - 1 + 1 := by omega
  have all : ∀ c ∈ text, decide (c ≠ 0) = true := by simpa using clean
  rw [Layout.toList_ofImage_bytes, List.take_append, List.take_of_length_le fits.le,
    List.take_replicate, Nat.min_eq_left (Nat.sub_le _ _), room, List.replicate_succ, cString,
      List.takeWhile_append_of_pos all]
  simp

theorem fieldOf_field (keyClean : ∀ c ∈ key, c ≠ 0) (valClean : ∀ c ∈ val, c ≠ 0)
    (keyFits : key.length < maxHeaderSize)
    (valFits : val.length < maxHeaderSize) : (fieldOf key val).field = (key, val) := by
  rw [UhttpHeader.field, UhttpHeader.name, UhttpHeader.text, fieldOf,
    cString_ofImage keyClean keyFits, cString_ofImage valClean valFits]

theorem ne_zero_of_mem_cString {buf : List UInt8} {c : UInt8} (h : c ∈ cString buf) : c ≠ 0 := by
  simpa using List.mem_takeWhile_imp h

theorem CustomHeader.headerLine (custom : CustomHeader h) (other : isContentLength h.name = false)
    (room : s.headers.length < maxHeaders) :
    ∃ parsed, headerLine s h.line = some ⟨s.headers ++ [parsed], s.contentLength⟩ ∧
      parsed.field = h.field := by
  have colon : (58 : UInt8) ∉ h.name := fun member => (custom.name 58 member).2.2 rfl
  refine ⟨Uhttp.fieldOf h.name h.text, ?_, ?_⟩
  · rw [UhttpHeader.line, headerLine_field _ _ colon custom.trimmed room custom.nameFits
      custom.textFits, other]
    rfl
  · exact fieldOf_field (fun c => ne_zero_of_mem_cString) (fun c => ne_zero_of_mem_cString)
      custom.nameFits custom.textFits

/-- The lines of custom headers add these headers to those that were parsed. -/
theorem foldlM_headerLine_custom (headers : List UhttpHeader)
    (custom : ∀ h ∈ headers, CustomHeader h ∧ isContentLength h.name = false)
    (room : s.headers.length + headers.length ≤ maxHeaders) :
    ∃ parsed, (headers.map (·.line)).foldlM headerLine s
      = some ⟨s.headers ++ parsed, s.contentLength⟩ ∧
      parsed.map (·.field) = headers.map (·.field) := by
  induction headers generalizing s with
  | nil => exact ⟨[], by simp, rfl⟩
  | cons h headers ih =>
    obtain ⟨⟨here, other⟩, custom⟩ := List.forall_mem_cons.mp custom
    rw [List.length_cons] at room
    obtain ⟨first, line, field⟩ := here.headerLine (s := s) other (by omega)
    obtain ⟨parsed, rest, fields⟩ := ih (s := ⟨s.headers ++ [first], s.contentLength⟩) custom (by
      rw [List.length_append, List.length_singleton]
      omega)
    refine ⟨first :: parsed, ?_, by simp [field, fields]⟩
    rw [List.map_cons, foldlM_of_headerLine line, rest]
    simp

theorem lengthLine_headerLine {bodyLen : Nat} (fits : bodyLen ≤ uhttpMaxBodySize)
    (room : s.headers.length < maxHeaders) :
    ∃ h, headerLine s (lengthLine bodyLen) = some ⟨s.headers ++ [h], bodyLen⟩ ∧
      h.field = (ascii "Content-Length", decimal bodyLen) := by
  have digits : ∀ c ∈ decimal bodyLen, isDigit c = true := fun c => isDigit_of_mem_decimal
  have trimmed : (decimal bodyLen).head? ≠ some 32 := fun head =>
    absurd (digits 32 (List.mem_of_mem_head? head)) (by decide)
  have short : (decimal bodyLen).length < maxHeaderSize :=
    lt_of_le_of_lt (decimal_short fits) (by decide)
  have name : ascii "Content-Length: " = ascii "Content-Length" ++ ascii ": " := by decide
  have line := headerLine_field (s := s) (ascii "Content-Length") (decimal bodyLen) (by decide)
    trimmed room (by decide) short
  rw [parseContentLength_decimal fits] at line
  refine ⟨fieldOf (ascii "Content-Length") (decimal bodyLen), ?_,
    fieldOf_field (forall_of_all (by decide)) ?_ (by decide) short⟩
  · rw [lengthLine, name]
    exact line
  · rintro c member rfl
    exact absurd (digits 0 member) (by decide)

theorem cString_eq_self {text : List UInt8} (clean : ∀ c ∈ text, c ≠ 0) : cString text = text :=
  List.takeWhile_eq_self_iff.mpr (by simpa using clean)

theorem requestLine_requestFirst (plain : PlainRequest req) :
    requestLine (requestFirst req) = some (req.method, req.path) := by
  have path : cString req.path = req.path := cString_eq_self fun c member =>
    (plain.path c member).2.2.2
  have noSpace : (32 : UInt8) ∉ req.path := fun member => (plain.path 32 member).1 rfl
  have version : ascii " HTTP/1.1" = 32 :: ascii "HTTP/1.1" := by decide
  have line : requestFirst req = uhttpStrMethod req.method ++ 32 ::
      (req.path ++ 32 :: ascii "HTTP/1.1") := by
    have : ascii " " = [32] := by decide
    simp [requestFirst, path, version, this]
  have method : (32 : UInt8) ∉ uhttpStrMethod req.method := by cases req.method <;> decide
  have known : requestMethod (uhttpStrMethod req.method) = req.method := by
    cases req.method <;> decide
  have behind : (uhttpStrMethod req.method ++ 32 :: (req.path ++ 32 :: ascii "HTTP/1.1")).drop
      ((uhttpStrMethod req.method).length + 1) = req.path ++ 32 :: ascii "HTTP/1.1" :=
    Delimited.drop_delimited (uhttpStrMethod req.method) [32] _
  rw [line, requestLine]
  simp only [findByte_append method, behind, findByte_append noSpace, if_neg plain.pathFits.not_ge,
    List.take_left, known]

/-- The lines of a request but the last give its fields but the last. -/
theorem requestHeader (plain : PlainRequest req)
    (others : ∀ h ∈ req.headers, isContentLength h.name = false) :
    ∃ parsed, (lengthLine req.bodyLen :: req.headers.map (·.line)).dropLast.foldlM headerLine
      ⟨[], 0⟩
        = some ⟨parsed, if req.headers = [] then 0 else req.bodyLen⟩ ∧
      parsed.map (·.field) = ((ascii "Content-Length", decimal req.bodyLen) ::
        req.headers.map (·.field)).dropLast := by
  by_cases none_ : req.headers = []
  · exact ⟨[], by simp [none_], by simp [none_]⟩
  · obtain ⟨h, length, field⟩ := lengthLine_headerLine (s := ⟨[], 0⟩) plain.small (by decide)
    -- the length takes one place of the table, and the last line none
    have room : 1 + req.headers.dropLast.length ≤ maxHeaders := by
      have few := plain.few
      have : maxHeaders = 20 := rfl
      rw [List.length_dropLast]
      omega
    have custom : ∀ h ∈ req.headers.dropLast, CustomHeader h ∧ isContentLength h.name = false := by
      intro h member
      have member := List.mem_of_mem_dropLast member
      exact ⟨plain.headers h member, others h member⟩
    obtain ⟨parsed, rest, fields⟩ := foldlM_headerLine_custom req.headers.dropLast
      (s := ⟨[h], req.bodyLen⟩) custom room
    rw [List.map_dropLast] at rest fields
    refine ⟨h :: parsed, ?_, ?_⟩
    · rw [List.dropLast_cons_of_ne_nil (by simpa using none_), foldlM_of_headerLine length,
        if_neg none_]
      exact rest
    · rw [List.dropLast_cons_of_ne_nil (by simpa using none_), List.map_cons, field, fields]

theorem PlainRequest.no_body (plain : PlainRequest req)
    (none_ : ¬ (req.method = .post ∧ 0 < req.bodyLen)) : req.body.getD [] = [] := by
  rw [← List.length_eq_zero_iff, plain.whole]
  obtain ⟨post, -, -⟩ | ⟨-, -, zero⟩ := plain.body
  · exact Nat.eq_zero_of_not_pos fun pos => none_ ⟨post, pos⟩
  · exact zero

/-- What the text of a request is parsed as, if no custom header is a second length: the
    request with all fields of its header but the last, and without its body if that field was
    the length. -/
theorem uhttpParseRequest_requestText (plain : PlainRequest req)
    (others : ∀ h ∈ req.headers, isContentLength h.name = false) :
    ∃ parsed, uhttpParseRequest (requestText req) = .ok parsed ∧ parsed.method = req.method ∧
      parsed.path = req.path ∧
      parsed.headers.map (·.field) =
        ((ascii "Content-Length", decimal req.bodyLen) :: req.headers.map (·.field)).dropLast ∧
      parsed.body.getD [] = if req.headers = [] then [] else req.body.getD [] := by
  obtain ⟨block, cut, header⟩ := parse_requestText req (fun c member => (plain.path c member).2.1)
    plain.headers
  obtain ⟨parsed, parses, fields⟩ := requestHeader plain others
  rw [parses] at header
  have first := requestLine_requestFirst plain
  -- without a header of its own the request loses its length, the last line there is
  by_cases none_ : req.headers = []
  · rw [if_pos none_] at header ⊢
    refine ⟨⟨req.method, req.path, parsed, none, 0, 0⟩, ?_, rfl, rfl, fields, rfl⟩
    simp only [uhttpParseRequest, cut, first, header, Nat.lt_irrefl, and_false, if_false]
  · rw [if_neg none_] at header ⊢
    -- only a POST with a length has its body read
    by_cases wanted : req.method = .post ∧ 0 < req.bodyLen
    · refine ⟨⟨req.method, req.path, parsed, some (req.body.getD []), req.bodyLen, req.bodyLen⟩, ?_,
        rfl, rfl, fields, rfl⟩
      have whole : ¬ (req.body.getD []).length < req.bodyLen := plain.whole.not_lt
      have body : (req.body.getD []).take req.bodyLen = req.body.getD [] := by
        rw [← plain.whole, List.take_length]
      simp only [uhttpParseRequest, cut, first, header, if_pos wanted, if_neg whole,
        if_neg plain.small.not_gt, body]
    · refine ⟨⟨req.method, req.path, parsed, none, 0, req.bodyLen⟩, ?_, rfl, rfl, fields,
        (plain.no_body wanted).symm⟩
      simp only [uhttpParseRequest, cut, first, header, if_neg wanted]

theorem CustomHeader.fieldOf (key val : List UInt8) (named : key ≠ [])
    (keyFits : key.length < maxHeaderSize) (valFits : val.length < maxHeaderSize)
    (keyClean : ∀ c ∈ key, c ≠ 13 ∧ c ≠ 10 ∧ c ≠ 58 ∧ c ≠ 0)
    (valClean : ∀ c ∈ val, c ≠ 13 ∧ c ≠ 10 ∧ c ≠ 0) (other : key ≠ ascii "Content-Length")
    (trimmed : val.head? ≠ some 32) :
    (fieldOf key val).name = key ∧ (fieldOf key val).text = val ∧
      CustomHeader (fieldOf key val) := by
  have field := fieldOf_field (fun c m => (keyClean c m).2.2.2) (fun c m => (valClean c m).2.2)
    keyFits valFits
  obtain ⟨name, text⟩ := Prod.mk.inj field
  refine ⟨name, text, ⟨?_, ?_, ?_, ?_, ?_, ?_, ?_⟩⟩
  · rwa [name]
  · rwa [name]
  · rwa [text]
  · rw [name]
    exact fun c m => ⟨(keyClean c m).1, (keyClean c m).2.1, (keyClean c m).2.2.1⟩
  · rw [text]
    exact fun c m => ⟨(valClean c m).1, (valClean c m).2.1⟩
  · rwa [name]
  · rwa [text]

def typeHeader (contentType : UhttpContentType) : UhttpHeader :=
  fieldOf (ascii "Content-Type") (uhttpStrContentType contentType)

def closeHeader : UhttpHeader := fieldOf (ascii "Connection") (ascii "close")

theorem typeHeader_custom (contentType : UhttpContentType) :
    (typeHeader contentType).line = typeLine contentType ∧
      (typeHeader contentType).field = (ascii "Content-Type", uhttpStrContentType contentType) ∧
      CustomHeader (typeHeader contentType) ∧
        isContentLength (typeHeader contentType).name = false := by
  obtain ⟨name, text, custom⟩ := CustomHeader.fieldOf (ascii "Content-Type")
    (uhttpStrContentType contentType) (by decide) (by decide) (by cases contentType <;> decide)
    (forall_of_all (by decide)) (forall_of_all (by cases contentType <;> decide)) (by decide)
    (by cases contentType <;> decide)
  have line : ascii "Content-Type: " = ascii "Content-Type" ++ ascii ": " := by decide
  refine ⟨?_, ?_, custom, ?_⟩
  · rw [UhttpHeader.line, typeHeader, name, text, typeLine, line]
  · rw [UhttpHeader.field, typeHeader, name, text]
  · rw [typeHeader, name]
    decide

theorem closeHeader_custom :
    closeHeader.line = closeLine ∧ closeHeader.field = (ascii "Connection", ascii "close") ∧
      CustomHeader closeHeader ∧ isContentLength closeHeader.name = false := by
  obtain ⟨name, text, custom⟩ := CustomHeader.fieldOf (ascii "Connection") (ascii "close")
    (by decide) (by decide) (by decide) (forall_of_all (by decide)) (forall_of_all (by decide))
      (by decide) (by decide)
  refine ⟨?_, ?_, custom, ?_⟩
  · rw [UhttpHeader.line, closeHeader, name, text]
    decide
  · rw [UhttpHeader.field, closeHeader, name, text]
  · rw [closeHeader, name]
    decide

theorem statusLine_responseFirst (plain : PlainResponse resp) :
    statusLine (responseFirst resp) = some (resp.statusCode, resp.statusText) := by
  obtain ⟨text, some_, nonempty, clean⟩ := plain.text
  have low := plain.code.1
  have digits : decimalInt resp.statusCode = decimal resp.statusCode.natAbs := by
    rw [decimalInt, if_neg (by omega)]
  have length := plain.code_length
  rw [digits] at length
  -- a decimal has no blank, so the second blank of the line stands behind the code
  have noSpace : (32 : UInt8) ∉ decimal resp.statusCode.natAbs := fun member =>
    absurd (isDigit_of_mem_decimal member) (by decide)
  have textOrOk : statusTextOrOk resp = text := by
    rw [statusTextOrOk, some_]
    exact cString_eq_self fun c member => (clean c member).2.2
  have line : responseFirst resp = ascii "HTTP/1.1" ++ 32 ::
      (decimal resp.statusCode.natAbs ++ 32 :: text) := by
    have version : ascii "HTTP/1.1 " = ascii "HTTP/1.1" ++ [32] := by decide
    have space : ascii " " = [32] := by decide
    simp [responseFirst, digits, textOrOk, version, space]
  have rest : (ascii "HTTP/1.1" ++ 32 :: (decimal resp.statusCode.natAbs ++ 32 :: text)).drop
      ((ascii "HTTP/1.1").length + 1) = decimal resp.statusCode.natAbs ++ 32 :: text :=
    Delimited.drop_delimited (ascii "HTTP/1.1") [32] _
  have behind : (decimal resp.statusCode.natAbs ++ 32 :: text).drop
      ((decimal resp.statusCode.natAbs).length + 1) = text :=
    Delimited.drop_delimited (decimal resp.statusCode.natAbs) [32] text
  have short : ¬ 8 ≤ (decimal resp.statusCode.natAbs).length := by omega
  have code : ((resp.statusCode.natAbs : Nat) : Int) = resp.statusCode :=
    Int.natAbs_of_nonneg (by omega)
  rw [line, statusLine]
  simp only [findByte_append (show (32 : UInt8) ∉ ascii "HTTP/1.1" by decide), rest,
    findByte_append noSpace, if_neg short,
    List.take_left, behind, if_neg nonempty, atoi_decimal, code, some_]

/-- The lines of a response but the last give its fields but the last. -/
theorem responseHeader (plain : PlainResponse resp)
    (others : ∀ h ∈ resp.headers, isContentLength h.name = false) :
    ∃ parsed, (typeLine resp.contentType :: lengthLine resp.bodyLen :: closeLine ::
        resp.headers.map (·.line)).dropLast.foldlM headerLine ⟨[], 0⟩
          = some ⟨parsed, resp.bodyLen⟩ ∧
      parsed.map (·.field) =
        ((ascii "Content-Type", uhttpStrContentType resp.contentType) ::
          (ascii "Content-Length", decimal resp.bodyLen) ::
          (ascii "Connection", ascii "close") :: resp.headers.map (·.field)).dropLast := by
  obtain ⟨typeLine_, typeField, typeCustom, typeOther⟩ := typeHeader_custom resp.contentType
  obtain ⟨closeLine_, closeField, closeCustom, closeOther⟩ := closeHeader_custom
  obtain ⟨t, type, typeParsed⟩ := typeCustom.headerLine (s := ⟨[], 0⟩) typeOther (by decide)
  obtain ⟨l, length, lengthParsed⟩ :=
    lengthLine_headerLine (s := ⟨[t], 0⟩) plain.bodyFits (show 1 < 20 by decide)
  -- from the third line on the parser does nothing special with a name
  have custom : ∀ h ∈ (closeHeader :: resp.headers).dropLast, CustomHeader h ∧
      isContentLength h.name = false := by
    intro h member
    cases List.mem_cons.mp (List.mem_of_mem_dropLast member) with
    | inl here => exact here ▸ ⟨closeCustom, closeOther⟩
    | inr there => exact ⟨plain.headers h there, others h there⟩
  -- the table of the parser has room for all lines but the last
  have room : 2 + (closeHeader :: resp.headers).dropLast.length ≤ maxHeaders := by
    have few := plain.few
    have : maxHeaders = 20 := rfl
    simp only [List.length_dropLast, List.length_cons]
    omega
  obtain ⟨parsed, rest, fields⟩ := foldlM_headerLine_custom _ (s := ⟨[t, l], resp.bodyLen⟩) custom
    room
  rw [List.map_dropLast, List.map_cons] at rest fields
  rw [closeLine_] at rest
  rw [closeField] at fields
  refine ⟨t :: l :: parsed, ?_, ?_⟩
  · rw [List.dropLast_cons_cons, List.dropLast_cons_cons, ← typeLine_, foldlM_of_headerLine type]
    exact (foldlM_of_headerLine length).trans rest
  · rw [List.map_cons, List.map_cons, fields, typeParsed, typeField, lengthParsed,
      List.dropLast_cons_cons, List.dropLast_cons_cons]

/-- What the text of a response is parsed as, if no custom header is a second length: the
    response with all fields of its header but the last. -/
theorem uhttpParseResponse_responseText (plain : PlainResponse resp)
    (others : ∀ h ∈ resp.headers, isContentLength h.name = false) :
    ∃ parsed, uhttpParseResponse (responseText resp) = .ok parsed ∧
      parsed.statusCode = resp.statusCode ∧
      parsed.statusText = resp.statusText ∧ parsed.body.getD [] = resp.body.getD [] ∧
      parsed.headers.map (·.field) =
        ((ascii "Content-Type", uhttpStrContentType resp.contentType) ::
          (ascii "Content-Length", decimal resp.bodyLen) ::
          (ascii "Connection", ascii "close") :: resp.headers.map (·.field)).dropLast := by
  obtain ⟨block, cut, header⟩ := parse_responseText resp plain.text_plain plain.headers
  obtain ⟨parsed, parses, fields⟩ := responseHeader plain others
  rw [parses] at header
  have first := statusLine_responseFirst plain
  by_cases wanted : 0 < resp.bodyLen
  · have whole : ¬ (resp.body.getD []).length < resp.bodyLen := plain.whole.not_lt
    have body : (resp.body.getD []).take resp.bodyLen = resp.body.getD [] := by
      rw [← plain.whole, List.take_length]
    refine ⟨⟨resp.statusCode, resp.statusText, parsed, some (resp.body.getD []), resp.bodyLen,
      .octetStream⟩, ?_, rfl, rfl, rfl, fields⟩
    simp only [uhttpParseResponse, cut, first, header, if_pos wanted, if_neg whole,
      if_neg plain.bodyFits.not_gt, body]
  · have empty : resp.body.getD [] = [] := List.length_eq_zero_iff.mp (plain.whole.trans (by omega))
    refine ⟨⟨resp.statusCode, resp.statusText, parsed, none, 0, .octetStream⟩, ?_, rfl, rfl,
      empty.symm, fields⟩
    simp only [uhttpParseResponse, cut, first, header, if_neg wanted]

end Soter2.Uhttp
