import Mathlib.Algebra.Ring.Nat
import Mathlib.Data.List.Basic
import Mathlib.Tactic.Common
import Soter2.Library.Delimited
import Soter2.Library.Text
import Soter2.Lownet.Addr

/-! # HTTP messages and their text (`uhttp/src/api.c`)

A message is written to a buffer whose size was computed before: `Out` is such a buffer with
the place that is written next.  A write that leaves the buffer is undefined.  A `char *` is
the bytes in front of its final zero, and a `size_t` is a natural number.

* `requestText`, `responseText` — the bytes of a message.
* `uhttpBuildRequest_eq`, `uhttpBuildResponse_eq` — the builders write these, and as many as
  they report.
-/

namespace Soter2.Uhttp

open Text
open Delimited (terminated)
open Lownet (cString)

abbrev maxHeaders : Nat := 20
abbrev maxHeaderSize : Nat := 256
abbrev maxPathSize : Nat := 512

inductive UhttpContentType where
  | textPlain
  | octetStream
  | applicationJson
  | unknown
deriving DecidableEq, Repr

inductive UhttpMethod where
  | get
  | post
  | unknown
deriving DecidableEq, Repr

structure UhttpHeader where
  key : Vector UInt8 maxHeaderSize
  value : Vector UInt8 maxHeaderSize
deriving DecidableEq

structure UhttpRequest where
  method : UhttpMethod
  path : List UInt8
  headers : List UhttpHeader
  body : Option (List UInt8)
  bodyLen : Nat
  contentLength : Nat
deriving DecidableEq

structure UhttpResponse where
  statusCode : Int
  statusText : Option (List UInt8)
  headers : List UhttpHeader
  body : Option (List UInt8)
  bodyLen : Nat
  contentType : UhttpContentType
deriving DecidableEq

def uhttpStrContentType : UhttpContentType → List UInt8
  | .textPlain => ascii "text/plain"
  | .applicationJson => ascii "application/json"
  | .octetStream | .unknown => ascii "application/octet-stream"

def uhttpStrMethod : UhttpMethod → List UInt8
  | .get => ascii "GET"
  | .post => ascii "POST"
  | .unknown => ascii "UNKNOWN"

def crlf : List UInt8 := [13, 10]

namespace UhttpHeader

def name (h : UhttpHeader) : List UInt8 := cString h.key.toList

def text (h : UhttpHeader) : List UInt8 := cString h.value.toList

/-- A line of the header, as `"%s: %s"` prints it. -/
def line (h : UhttpHeader) : List UInt8 := h.name ++ ascii ": " ++ h.text

end UhttpHeader

/-! ## Writing to a buffer -/

/-- `INT_MAX`. -/
abbrev intMax : Nat := 2 ^ 31 - 1

inductive BuildStop where
  /-- The function returns -1. -/
  | failed
  /-- A write leaves the buffer. -/
  | outOfBounds
deriving DecidableEq, Repr

structure Out where
  cells : List UInt8
  ptr : Nat

namespace Out

/-- `malloc`, with the bytes that happen to lie there. -/
def malloc (memory : Nat → UInt8) (size : Nat) : Out := ⟨(List.range size).map memory, 0⟩

def store (out : Out) (bytes : List UInt8) : List UInt8 :=
  out.cells.take out.ptr ++ bytes ++ out.cells.drop (out.ptr + bytes.length)

def memcpy (out : Out) (bytes : List UInt8) : Except BuildStop Out :=
  if out.cells.length < out.ptr + bytes.length then .error .outOfBounds
  else .ok ⟨out.store bytes, out.ptr + bytes.length⟩

/-- `snprintf` to the rest of the buffer: the text is cut to what fits in front of a zero,
    and its whole length is returned, which an `int` has to hold. -/
def snprintf (out : Out) (text : List UInt8) : Except BuildStop Out :=
  if intMax < text.length then .error .failed
  else if out.cells.length < out.ptr then .error .outOfBounds
  else
    let room := out.cells.length - out.ptr
    .ok ⟨out.store (if room = 0 then [] else text.take (room - 1) ++ [0]), out.ptr + text.length⟩

end Out

/-! ## The builders -/

/-- What one line takes in the sum of `headers_sz`. -/
def headerSize (h : UhttpHeader) : Nat := h.name.length + 2 + h.text.length + 2

/-- The end of both builders: the custom headers, the blank line and the body. -/
def buildRest (out : Out) (headers : List UhttpHeader) (body : Option (List UInt8))
    (bodyLen : Nat) :
    Except BuildStop Out := do
  let out ← headers.foldlM (fun out h => out.snprintf (h.line ++ crlf)) out
  let out ← out.memcpy crlf
  match body with
  | some body => if 0 < bodyLen then out.memcpy (body.take bodyLen) else pure out
  | none => pure out

/-- `uhttp_build_request`: the buffer and the size that is reported. -/
def uhttpBuildRequest (memory : Nat → UInt8) (req : UhttpRequest) :
    Except BuildStop (List UInt8 × Nat) := do
  let methodStr := uhttpStrMethod req.method
  let path := cString req.path
  let lenBuf := decimal req.bodyLen
  let headersSz := methodStr.length + 1 + path.length + (ascii " HTTP/1.1\r\n").length
    + ((ascii "Content-Length: ").length + lenBuf.length + crlf.length)
    + (req.headers.map headerSize).sum + crlf.length
  let totalSz := headersSz + req.bodyLen
  let out ← (Out.malloc memory (totalSz + 1)).snprintf
    (methodStr ++ ascii " " ++ path ++ ascii " HTTP/1.1\r\n" ++ ascii "Content-Length: " ++
      lenBuf ++ crlf)
  let out ← buildRest out req.headers req.body req.bodyLen
  return (out.cells, totalSz)

/-- `"%d"`. -/
def decimalInt (n : Int) : List UInt8 :=
  if n < 0 then ascii "-" ++ decimal n.natAbs else decimal n.natAbs

def statusTextOrOk (resp : UhttpResponse) : List UInt8 :=
  match resp.statusText with
  | some text => cString text
  | none => ascii "OK"

def uhttpBuildResponse (memory : Nat → UInt8) (resp : UhttpResponse) :
    Except BuildStop (List UInt8 × Nat) := do
  let ctStr := uhttpStrContentType resp.contentType
  let lenBuf := decimal resp.bodyLen
  -- three digits are counted for the status code
  let headersSz := (ascii "HTTP/1.1 ").length + 3 + 1 + (statusTextOrOk resp).length + crlf.length
    + ((ascii "Content-Type: ").length + ctStr.length + crlf.length)
    + ((ascii "Content-Length: ").length + lenBuf.length + crlf.length)
    + (ascii "Connection: close\r\n").length
    + (resp.headers.map headerSize).sum + crlf.length
  let totalSz := headersSz + resp.bodyLen
  let text := ascii "HTTP/1.1 " ++ decimalInt resp.statusCode ++ ascii " "
    ++ statusTextOrOk resp ++ crlf
    ++ (ascii "Content-Type: " ++ ctStr ++ crlf) ++ (ascii "Content-Length: " ++ lenBuf ++ crlf)
    ++ ascii "Connection: close\r\n"
  let out ← (Out.malloc memory (totalSz + 1)).snprintf text
  if headersSz < text.length then .error .failed
  let out ← buildRest out resp.headers resp.body resp.bodyLen
  return (out.cells, totalSz)

/-! ## Buffers that are written from the start on -/

/-- The buffer starts with the bytes that were written, and these end where it is written next. -/
structure Out.Filled (out : Out) (size : Nat) (written : List UInt8) : Prop where
  size : out.cells.length = size
  ptr : out.ptr = written.length
  cells : written <+: out.cells

variable {out : Out} {size : Nat} {written bytes text : List UInt8} {headers : List UhttpHeader}
    {h : UhttpHeader}

theorem Out.Filled.malloc (memory : Nat → UInt8) (size : Nat) :
    (Out.malloc memory size).Filled size [] :=
  ⟨by simp [Out.malloc], rfl, List.nil_prefix⟩

theorem Out.Filled.store (filled : out.Filled size written)
    (fits : (written ++ bytes).length ≤ size) :
    (out.store bytes).length = size ∧ written ++ bytes <+: out.store bytes := by
  have start : out.cells.take out.ptr = written := by
    rw [filled.ptr]
    exact List.prefix_iff_eq_take.mp filled.cells |>.symm
  constructor
  · have := filled.size
    have := filled.ptr
    simp only [Out.store, start, List.length_append, List.length_drop] at fits ⊢
    omega
  · rw [Out.store, start]
    exact List.prefix_append _ _

theorem Out.Filled.memcpy (filled : out.Filled size written)
    (fits : (written ++ bytes).length ≤ size) :
    ∃ out', out.memcpy bytes = .ok out' ∧ out'.Filled size (written ++ bytes) := by
  obtain ⟨length, starts⟩ := filled.store fits
  have inside : ¬ out.cells.length < out.ptr + bytes.length := by
    rw [filled.size, filled.ptr, ← List.length_append]
    exact fits.not_gt
  exact ⟨_, if_neg inside, length, by simp [filled.ptr], starts⟩

/-- A text with room for a zero behind it is printed as it is. -/
theorem Out.Filled.snprintf (filled : out.Filled size written) (short : text.length ≤ intMax)
    (fits : (written ++ text).length < size) :
    ∃ out', out.snprintf text = .ok out' ∧ out'.Filled size (written ++ text) := by
  have room : size - written.length ≠ 0 ∧ text.length ≤ size - written.length - 1 := by
    simp only [List.length_append] at fits
    omega
  have whole : (written ++ (text ++ [0])).length ≤ size := by
    simp only [List.length_append, List.length_singleton] at fits ⊢
    omega
  obtain ⟨length, starts⟩ := filled.store whole
  refine ⟨⟨out.store (text ++ [0]), out.ptr + text.length⟩, ?_, length, by simp [filled.ptr], ?_⟩
  · have inside : ¬ out.cells.length < out.ptr := by
      rw [filled.size, filled.ptr]
      omega
    rw [Out.snprintf, if_neg short.not_gt, if_neg inside]
    simp only [filled.size, filled.ptr, if_neg room.1, List.take_of_length_le room.2]
  · exact (List.prefix_append (written ++ text) [0]).trans (by simpa using starts)

/-! ## The text of a message -/

theorem UhttpHeader.length_line (h : UhttpHeader) :
    h.line.length = h.name.length + 2 + h.text.length := by
  simp only [UhttpHeader.line, List.length_append]
  rfl

/-- What two arrays of a header hold is short enough to be printed. -/
theorem UhttpHeader.length_line_le (h : UhttpHeader) : (h.line ++ crlf).length ≤ intMax := by
  have name : h.name.length ≤ maxHeaderSize := (List.takeWhile_sublist _).length_le.trans (by simp)
  have text : h.text.length ≤ maxHeaderSize := (List.takeWhile_sublist _).length_le.trans (by simp)
  have : crlf.length = 2 := rfl
  have : maxHeaderSize = 256 := rfl
  have : intMax = 2147483647 := rfl
  rw [List.length_append, h.length_line]
  omega

theorem sum_headerSize (headers : List UhttpHeader) :
    (headers.map headerSize).sum = (terminated crlf (headers.map (·.line))).length := by
  induction headers with
  | nil => rfl
  | cons h headers ih =>
    have : crlf.length = 2 := rfl
    rw [List.map_cons, List.sum_cons, ih, List.map_cons, Delimited.terminated_cons,
      List.length_append, List.length_append, h.length_line, headerSize]
    omega

theorem snprintf_headers (filled : out.Filled size written)
    (fits : (written ++ terminated crlf (headers.map (·.line))).length < size) :
    ∃ out', headers.foldlM (fun out h => out.snprintf (h.line ++ crlf)) out = .ok out' ∧
      out'.Filled size (written ++ terminated crlf (headers.map (·.line))) := by
  induction headers generalizing out written with
  | nil => exact ⟨out, rfl, by simpa using filled⟩
  | cons h headers ih =>
    have split : written ++ terminated crlf ((h :: headers).map (·.line))
        = written ++ (h.line ++ crlf) ++ terminated crlf (headers.map (·.line)) := by simp
    rw [split] at fits ⊢
    obtain ⟨out', printed, filled⟩ := filled.snprintf h.length_line_le
      (lt_of_le_of_lt (by simp) fits)
    obtain ⟨out'', rest, filled⟩ := ih filled fits
    exact ⟨out'', by rw [List.foldlM_cons, printed]; exact rest, filled⟩

theorem buildRest_eq {body : Option (List UInt8)} {bodyLen : Nat} (filled : out.Filled size written)
    (whole : (body.getD []).length = bodyLen)
    (fits : (written ++ terminated crlf (headers.map (·.line)) ++ crlf ++ body.getD []).length
      < size) :
    ∃ out', buildRest out headers body bodyLen = .ok out' ∧
      out'.Filled size (written ++ terminated crlf (headers.map (·.line)) ++ crlf ++
        body.getD []) := by
  -- if the whole fits, so does each part that is written on the way
  have shorter : ∀ {l more : List UInt8}, (l ++ more).length < size → l.length < size := by
    intro l more h
    rw [List.length_append] at h
    omega
  obtain ⟨out, printed, filled⟩ := snprintf_headers filled (shorter (shorter fits))
  obtain ⟨out, blank, filled⟩ := filled.memcpy (shorter fits).le
  cases body with
  | none =>
    exact ⟨out, by simp [buildRest, printed, blank, bind, Except.bind, pure, Except.pure], by
      simpa using filled⟩
  | some body =>
    rw [Option.getD_some] at whole fits
    subst whole
    by_cases empty : body = []
    · subst empty
      exact ⟨out, by simp [buildRest, printed, blank, bind, Except.bind, pure, Except.pure], by
        simpa using filled⟩
    · obtain ⟨out, copied, filled⟩ := filled.memcpy fits.le
      refine ⟨out, ?_, filled⟩
      simp only [buildRest, printed, blank, bind, Except.bind,
        if_pos (List.length_pos_iff.mpr empty), List.take_length, copied]

/-! ## The builders -/

def requestFirst (req : UhttpRequest) : List UInt8 :=
  uhttpStrMethod req.method ++ ascii " " ++ cString req.path ++ ascii " HTTP/1.1"

def lengthLine (bodyLen : Nat) : List UInt8 := ascii "Content-Length: " ++ decimal bodyLen

def requestText (req : UhttpRequest) : List UInt8 :=
  terminated crlf (requestFirst req :: lengthLine req.bodyLen :: req.headers.map (·.line)) ++
    crlf ++ req.body.getD []

/-- The message is in the buffer, whose last byte is left for a zero, and has the size that
    is reported. -/
def Writes (built : Except BuildStop (List UInt8 × Nat)) (text : List UInt8) : Prop :=
  ∃ data, built = .ok (data, text.length) ∧ data.length = text.length + 1 ∧
    data.take text.length = text

theorem Writes.take_eq {built : Except BuildStop (List UInt8 × Nat)} {data : List UInt8} {osz : Nat}
    (writes : Writes built text) (h : built = .ok (data, osz)) : data.take osz = text := by
  obtain ⟨data', h', -, eq⟩ := writes
  obtain ⟨rfl, rfl⟩ := Prod.mk.inj (Except.ok.inj (h.symm.trans h'))
  exact eq

theorem writes_of_filled (filled : out.Filled (size + 1) text) (exact_ : size = text.length) :
    Writes (.ok (out.cells, size)) text := by
  subst exact_
  exact ⟨out.cells, rfl, filled.size, (List.prefix_iff_eq_take.mp filled.cells).symm⟩

theorem uhttpBuildRequest_eq (memory : Nat → UInt8) {req : UhttpRequest}
    (whole : (req.body.getD []).length = req.bodyLen)
    (short : (requestFirst req ++ crlf ++ lengthLine req.bodyLen ++ crlf).length ≤ intMax) :
    Writes (uhttpBuildRequest memory req) (requestText req) := by
  have ends : ascii " HTTP/1.1\r\n" = ascii " HTTP/1.1" ++ crlf := by decide
  -- the size that the code adds up is that of the text, so the block has one byte to spare
  have total : (uhttpStrMethod req.method).length + 1 + (cString req.path).length +
      (ascii " HTTP/1.1\r\n").length
      + ((ascii "Content-Length: ").length + (decimal req.bodyLen).length + crlf.length)
      + (req.headers.map headerSize).sum + crlf.length +
        req.bodyLen = (requestText req).length := by
    have : (ascii " ").length = 1 := by decide
    rw [sum_headerSize, ends, requestText, requestFirst, lengthLine]
    simp only [Delimited.terminated_cons, List.length_append]
    omega
  have first : uhttpStrMethod req.method ++ ascii " " ++ cString req.path ++ ascii " HTTP/1.1\r\n"
      ++ ascii "Content-Length: " ++ decimal req.bodyLen ++ crlf
      = requestFirst req ++ crlf ++ lengthLine req.bodyLen ++ crlf := by
    simp [requestFirst, lengthLine, ends]
  have all : [] ++ (requestFirst req ++ crlf ++ lengthLine req.bodyLen ++ crlf)
      ++ terminated crlf (req.headers.map (·.line)) ++ crlf ++ req.body.getD []
        = requestText req := by
    simp [requestText]
  obtain ⟨out, printed, filled⟩ :=
    (Out.Filled.malloc memory ((requestText req).length + 1)).snprintf short (by
    rw [← all]
    simp only [List.length_append]
    omega)
  obtain ⟨out, rest, filled⟩ := buildRest_eq filled whole (by
    rw [all]
    exact Nat.lt_succ_self _)
  rw [all] at filled
  have built : uhttpBuildRequest memory req = .ok (out.cells, (requestText req).length) := by
    simp only [uhttpBuildRequest, total, first, printed, rest, bind, Except.bind, pure, Except.pure]
  exact built ▸ writes_of_filled filled rfl

def responseFirst (resp : UhttpResponse) : List UInt8 :=
  ascii "HTTP/1.1 " ++ decimalInt resp.statusCode ++ ascii " " ++ statusTextOrOk resp

def typeLine (contentType : UhttpContentType) : List UInt8 :=
  ascii "Content-Type: " ++ uhttpStrContentType contentType

def closeLine : List UInt8 := ascii "Connection: close"

/-- What the first `snprintf` of `uhttp_build_response` prints. -/
def responseHead (resp : UhttpResponse) : List UInt8 :=
  terminated crlf [responseFirst resp, typeLine resp.contentType, lengthLine resp.bodyLen,
    closeLine]

def responseText (resp : UhttpResponse) : List UInt8 :=
  responseHead resp ++ terminated crlf (resp.headers.map (·.line)) ++ crlf ++ resp.body.getD []

theorem uhttpBuildResponse_eq (memory : Nat → UInt8) {resp : UhttpResponse}
    (code : (decimalInt resp.statusCode).length = 3)
    (whole : (resp.body.getD []).length = resp.bodyLen) :
    if (responseHead resp).length ≤ intMax then
      Writes (uhttpBuildResponse memory resp) (responseText resp)
    else uhttpBuildResponse memory resp = .error .failed := by
  have ends : ascii "Connection: close\r\n" = closeLine ++ crlf := by decide
  have head : ascii "HTTP/1.1 " ++ decimalInt resp.statusCode ++ ascii " " ++ statusTextOrOk resp ++
      crlf
      ++ (ascii "Content-Type: " ++ uhttpStrContentType resp.contentType ++ crlf)
      ++ (ascii "Content-Length: " ++ decimal resp.bodyLen ++ crlf) ++ ascii "Connection: close\r\n"
      = responseHead resp := by
    simp [responseHead, responseFirst, typeLine, lengthLine, ends]
  -- the size that the code adds up is that of the head, as a status code has three digits
  have size : (ascii "HTTP/1.1 ").length + 3 + 1 + (statusTextOrOk resp).length + crlf.length
      + ((ascii "Content-Type: ").length + (uhttpStrContentType resp.contentType).length +
        crlf.length)
      + ((ascii "Content-Length: ").length + (decimal resp.bodyLen).length + crlf.length)
      + (ascii "Connection: close\r\n").length = (responseHead resp).length := by
    have : (ascii " ").length = 1 := by decide
    rw [← head]
    simp only [List.length_append, code]
    omega
  have total : (responseHead resp).length + (resp.headers.map headerSize).sum + crlf.length +
      resp.bodyLen
      = (responseText resp).length := by
    rw [sum_headerSize, ← whole]
    simp [responseText, Nat.add_assoc]
  have room : ¬ (responseHead resp).length + (resp.headers.map headerSize).sum + crlf.length
      < (responseHead resp).length := by omega
  -- `snprintf` refuses a head longer than `INT_MAX`
  split_ifs with short
  · have all : [] ++ responseHead resp ++ terminated crlf (resp.headers.map (·.line)) ++ crlf ++
        resp.body.getD []
        = responseText resp := rfl
    obtain ⟨out, printed, filled⟩ :=
      (Out.Filled.malloc memory ((responseText resp).length + 1)).snprintf short (by
      rw [← all]
      simp only [List.length_append]
      omega)
    obtain ⟨out, rest, filled⟩ := buildRest_eq filled whole (by
      rw [all]
      exact Nat.lt_succ_self _)
    have built : uhttpBuildResponse memory resp = .ok (out.cells, (responseText resp).length) := by
      simp only [uhttpBuildResponse, size, total, head, printed, room, rest, bind, Except.bind,
        pure, Except.pure, if_false]
    rw [all] at filled
    exact built ▸ writes_of_filled filled rfl
  · have stops : (Out.malloc memory ((responseText resp).length + 1)).snprintf (responseHead resp)
        = .error .failed :=
      if_pos (Nat.lt_of_not_le short)
    simp only [uhttpBuildResponse, size, total, head, stops, bind, Except.bind]

end Soter2.Uhttp
