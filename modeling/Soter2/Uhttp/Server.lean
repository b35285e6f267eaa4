import Mathlib.Data.List.Basic
import Mathlib.Data.List.ReduceOption
import Mathlib.Tactic.Common
import Soter2.Lownet.Netfd
import Soter2.Uhttp.Parser

/-! # Receiving a request (`uhttp/src/server.c`)

The runner calls `handler` for a client whose socket can be read.  The handler collects what
it reads and takes a read of fewer than 2048 bytes for the end of a request.

* `received_iff_fullReads` — into which reads a request may be cut.
-/

namespace Soter2.Uhttp

open Lownet (NnetFd)

/-- The size of the buffer that is read to. -/
abbrev readSize : Nat := 2048

/-- What a successful `read` of the socket gives before the end. -/
structure Chunk where
  bytes : List UInt8
  nonempty : bytes ≠ []
  fits : bytes.length ≤ readSize

/-- The results of `ln_tsock_read`: an error that passes (`EINTR`, `EWOULDBLOCK`, `EAGAIN`), any
    other error, the end, or bytes. -/
inductive ReadResult where
  | wouldBlock
  | failed
  | closed
  | chunk (c : Chunk)

structure UhttpHighRequest where
  nfd : NnetFd
  req : UhttpRequest

/-- The parts of `uhttp_serv` that the handler writes to. -/
structure UhttpServ where
  requests : List UhttpHighRequest
  requestEv : Nat

/-- A client; `reads` is what its socket is still going to give. -/
structure UhttpCliState where
  serv : UhttpServ
  nfd : NnetFd
  reads : List ReadResult
  readData : List UInt8
  readDone : Bool

/-- The state that the runner makes for a new client. -/
def newClient (serv : UhttpServ) (nfd : NnetFd) (reads : List ReadResult) : UhttpCliState :=
  ⟨serv, nfd, reads, [], false⟩

/-- The branch of `handler` behind `read_processor`, once the reading is done. -/
def processRead (st : UhttpCliState) : UhttpCliState :=
  match uhttpParseRequest st.readData with
  -- `read_done` stays, so nothing is read any more
  | .error | .incomplete => st
  | .ok req =>
    { st with
      serv := ⟨st.serv.requests ++ [⟨st.nfd, req⟩], st.serv.requestEv + 1⟩
      readData := []
      readDone := false }

/-- `handler`, which returns whether the client is to be deleted.  An error that does not pass
    is taken for -1 bytes. -/
def handler (st : UhttpCliState) : Option (Bool × UhttpCliState) :=
  if st.readDone then some (false, processRead st)
  else
    match st.reads with
    | [] => some (false, st)
    | .wouldBlock :: reads => some (false, { st with reads := reads })
    | .failed :: reads =>
      -- `realloc` has no room for `SIZE_MAX` bytes; with bytes in the buffer it may succeed,
      -- and what the copy of -1 bytes does is undefined
      if st.readData = [] then some (true, { st with reads := reads }) else none
    | .closed :: reads => some (true, { st with reads := reads })
    | .chunk c :: reads =>
      let st := { st with reads := reads, readData := st.readData ++ c.bytes }
      if c.bytes.length < readSize then some (false, processRead { st with readDone := true })
      else some (false, st)

/-- So many calls of the handler, for a client that stays. -/
def handlerCalls : Nat → UhttpCliState → Option UhttpCliState
  | 0, st => some st
  | n + 1, st =>
    match handler st with
    | some (false, st) => handlerCalls n st
    | some (true, _) | none => none

/-! ## Requests in pieces -/

def UhttpParse.isOk {α : Type} : UhttpParse α → Bool
  | .ok _ => true
  | .error | .incomplete => false

/-- The result of a read: a part of the request, or none yet. -/
def readOf : Option Chunk → ReadResult
  | some c => .chunk c
  | none => .wouldBlock

def delivered (reads : List (Option Chunk)) : List UInt8 :=
  reads.flatMap fun read => (read.map (·.bytes)).getD []

/-- Only the request is in the queue, as the parser gives it, and the client is as new. -/
def Received (data : List UInt8) (nfd : NnetFd) (st : UhttpCliState) : Prop :=
  ∃ req, uhttpParseRequest data = .ok req ∧ st.serv.requests = [⟨nfd, req⟩] ∧ st.readData = [] ∧
    st.readDone = false

/-- All parts but the last fill the buffer, and the last does not. -/
def FullReads (reads : List (Option Chunk)) : Prop :=
  ∃ c, reads.reduceOption.getLast? = some c ∧ c.bytes.length < readSize ∧
    ∀ c ∈ reads.reduceOption.dropLast, c.bytes.length = readSize

/-! ## Full reads -/

variable {data : List UInt8} {reads : List (Option Chunk)} {c : Chunk} {st : UhttpCliState}

theorem not_fullReads_nil : ¬ FullReads [] := by
  rintro ⟨c, last, -⟩
  cases last

theorem fullReads_none : FullReads (none :: reads) ↔ FullReads reads := Iff.rfl

/-- A part that fills the buffer is not the last one. -/
theorem fullReads_some_full (full : c.bytes.length = readSize) :
    FullReads (some c :: reads) ↔ FullReads reads := by
  rw [FullReads, FullReads, List.reduceOption_cons_of_some]
  cases chunks : reads.reduceOption with
  | nil =>
    refine iff_of_false ?_ (by simp)
    rintro ⟨last, eq, short, -⟩
    rw [List.getLast?_singleton, Option.some.injEq] at eq
    rw [← eq] at short
    omega
  | cons d chunks =>
    simp only [List.getLast?_cons_cons, List.dropLast_cons_cons, List.forall_mem_cons, full,
      true_and]

theorem fullReads_some_short (short : c.bytes.length < readSize) :
    FullReads (some c :: reads) ↔ reads.reduceOption = [] := by
  rw [FullReads, List.reduceOption_cons_of_some]
  cases chunks : reads.reduceOption with
  | nil => exact iff_of_true ⟨c, rfl, short, by simp⟩ rfl
  | cons d chunks =>
    refine iff_of_false ?_ (by simp)
    rintro ⟨last, -, -, full⟩
    have := full c (by simp)
    omega

theorem delivered_eq_nil : delivered reads = [] ↔ reads.reduceOption = [] := by
  rw [delivered, List.flatMap_eq_nil_iff, List.reduceOption, List.filterMap_eq_nil_iff]
  refine forall₂_congr fun read _ => ?_
  cases read with
  | none => simp
  | some c => simp [c.nonempty]

/-! ## What the calls do -/

theorem UhttpParse.isOk_iff {α : Type} {parse : UhttpParse α} :
    parse.isOk = true ↔ ∃ parsed, parse = .ok parsed := by
  cases parse <;> simp [UhttpParse.isOk]

theorem processRead_rejected (rejected : (uhttpParseRequest st.readData).isOk = false) :
    processRead st = st := by
  rw [processRead]
  cases parsed : uhttpParseRequest st.readData with
  | error => rfl
  | incomplete => rfl
  | ok req => rw [parsed] at rejected; cases rejected

theorem handler_wouldBlock {rest : List ReadResult} (waiting : st.readDone = false)
    (incoming : st.reads = .wouldBlock :: rest) :
    handler st = some (false, { st with reads := rest }) := by
  simp only [handler, waiting, incoming, Bool.false_eq_true, if_false]

theorem handler_chunk {rest : List ReadResult} (waiting : st.readDone = false)
    (incoming : st.reads = .chunk c :: rest) :
    handler st = some (false,
      let read := { st with reads := rest, readData := st.readData ++ c.bytes }
      if c.bytes.length < readSize then processRead { read with readDone := true } else read) := by
  simp only [handler, waiting, incoming, Bool.false_eq_true, if_false]
  split_ifs <;> rfl

/-- Where the parser does not accept what was read, a client that is done stays as it is. -/
theorem handlerCalls_stuck (done : st.readDone = true)
    (rejected : (uhttpParseRequest st.readData).isOk = false)
    (n : Nat) : handlerCalls n st = some st := by
  induction n with
  | zero => rfl
  | succ n ih => simp only [handlerCalls, handler, done, if_true, processRead_rejected rejected, ih]

theorem handlerCalls_idle (waiting : st.readDone = false) (none_ : reads.reduceOption = [])
    (incoming : st.reads = reads.map readOf) :
    handlerCalls reads.length st = some { st with reads := [] } := by
  induction reads generalizing st with
  | nil =>
    cases st
    cases incoming
    rfl
  | cons read reads ih =>
    cases read with
    | some c => simp at none_
    | none =>
      rw [List.length_cons, handlerCalls, handler_wouldBlock waiting incoming]
      exact ih waiting none_ rfl

/-- From a client that has read a part of the request, the rest is received exactly in full
    reads. -/
theorem calls_received_iff {nfd : NnetFd} (accepts : (uhttpParseRequest data).isOk = true)
    (first : ∀ p, p <+: data → p ≠ data → (uhttpParseRequest p).isOk = false)
    (fresh : st.serv.requests = [] ∧ st.nfd = nfd ∧ st.readDone = false)
    (incoming : st.reads = reads.map readOf) (whole : st.readData ++ delivered reads = data) :
    (∃ st', handlerCalls reads.length st = some st' ∧ Received data nfd st') ↔ FullReads reads := by
  induction reads generalizing st with
  | nil =>
    refine iff_of_false ?_ not_fullReads_nil
    rintro ⟨st', same, req, -, one, -⟩
    rw [← Option.some.inj same, fresh.1] at one
    cases one
  | cons read reads ih =>
    obtain ⟨empty, client, waiting⟩ := fresh
    cases read with
    | none =>
      rw [fullReads_none, List.length_cons, handlerCalls, handler_wouldBlock waiting incoming]
      exact ih ⟨empty, client, waiting⟩ rfl whole
    | some c =>
      have whole : (st.readData ++ c.bytes) ++ delivered reads = data := by
        rw [List.append_assoc]
        exact whole
      have next := handler_chunk waiting incoming
      by_cases short : c.bytes.length < readSize
      · let read : UhttpCliState :=
          { st with
            reads := reads.map readOf
            readData := st.readData ++ c.bytes
            readDone := true }
        have next : handler st = some (false, processRead read) := by
          simpa only [if_pos short] using next
        rw [fullReads_some_short short, ← delivered_eq_nil, List.length_cons, handlerCalls, next]
        by_cases last : delivered reads = []
        · refine iff_of_true ?_ last
          rw [last, List.append_nil] at whole
          obtain ⟨req, parsed⟩ := UhttpParse.isOk_iff.mp accepts
          have done : processRead read = { read with
              serv := ⟨[⟨nfd, req⟩], st.serv.requestEv + 1⟩, readData := [],
                readDone := false } := by
            simp only [processRead, read, whole, parsed, empty, client, List.nil_append]
          rw [done]
          exact ⟨_, handlerCalls_idle rfl (delivered_eq_nil.mp last) rfl, req, parsed, rfl, rfl,
            rfl⟩
        · -- the parser is asked too early, and the client gets stuck
          refine iff_of_false ?_ last
          have part : (uhttpParseRequest read.readData).isOk = false := by
            refine first _ ⟨_, whole⟩ fun all => last ?_
            rw [← all] at whole
            exact List.append_right_eq_self.mp whole
          rintro ⟨st', calls, req, -, one, -⟩
          rw [processRead_rejected part] at calls
          have same := calls.symm.trans (handlerCalls_stuck rfl part _)
          rw [Option.some.inj same] at one
          exact absurd (empty.symm.trans one) (by simp)
      · simp only [if_neg short] at next
        rw [fullReads_some_full (le_antisymm c.fits (Nat.le_of_not_lt short)), List.length_cons,
          handlerCalls, next]
        exact ih ⟨empty, client, waiting⟩ rfl whole

/-- A request that is read in parts, with any number of attempts in between, is received exactly
    if all parts but the last fill the buffer and the last does not. -/
theorem received_iff_fullReads (data : List UInt8) (accepts : (uhttpParseRequest data).isOk = true)
    (first : ∀ p, p <+: data → p ≠ data → (uhttpParseRequest p).isOk = false)
    (reads : List (Option Chunk)) (cut : delivered reads = data) (nfd : NnetFd) (requestEv : Nat) :
    (∃ st, handlerCalls reads.length (newClient ⟨[], requestEv⟩ nfd (reads.map readOf)) = some st ∧
        Received data nfd st) ↔ FullReads reads :=
  calls_received_iff accepts first ⟨rfl, rfl, rfl⟩ rfl cut

/-- No part of a request that ends with its first blank line is accepted. -/
theorem part_rejected {p : List UInt8} {headerLen : Nat}
    (blank : findSequence data (crlf ++ crlf) = some headerLen) (ends : data.length = headerLen + 4)
    (initial : p <+: data) (part : p ≠ data) :
    (uhttpParseRequest p).isOk = false := by
  obtain ⟨more, rfl⟩ := initial
  rw [← Bool.not_eq_true, UhttpParse.isOk_iff]
  rintro ⟨req, parsed⟩
  obtain ⟨line, block, rest, cut, -⟩ := uhttpParseRequest_eq_ok parsed
  obtain ⟨headerLen', -, blank', -⟩ := cutMessage_eq_message cut
  have same := Option.some.inj ((Delimited.find_append blank' more).symm.trans blank)
  have inside : headerLen' + 4 ≤ p.length := Delimited.find_le blank'
  rw [List.length_append] at ends
  have none_ : more.length = 0 := by omega
  exact part (by rw [List.length_eq_zero_iff.mp none_, List.append_nil])

/-! ## A request in two parts -/

def hostGet : List UInt8 := Text.ascii "GET / HTTP/1.1\r\nHost: a\r\n\r\n"

def hostGetWhole : Chunk := ⟨hostGet, by decide, by decide⟩

def hostGetStart : Chunk := ⟨hostGet.take 10, by decide, by decide⟩

def hostGetEnd : Chunk := ⟨hostGet.drop 10, by decide, by decide⟩

def sampleClient : NnetFd := ⟨5, .unspec, 16⟩

theorem hostGet_first (p : List UInt8) (initial : p <+: hostGet) (part : p ≠ hostGet) :
    (uhttpParseRequest p).isOk = false := by
  have blank : findSequence hostGet (crlf ++ crlf) = some 23 := by decide
  exact part_rejected blank (by decide) initial part

/-- A request of 2076 bytes. -/
def paddedGet : List UInt8 := Text.ascii "GET / HTTP/1.1\r\nX-Pad: " ++ List.replicate 2049 97 ++
    Text.ascii "\r\n\r\n"

def paddedStart : Chunk := ⟨paddedGet.take readSize, by decide, by decide +kernel⟩

def paddedEnd : Chunk := ⟨paddedGet.drop readSize, by decide +kernel, by decide +kernel⟩

theorem paddedGet_first (p : List UInt8) (initial : p <+: paddedGet) (part : p ≠ paddedGet) :
    (uhttpParseRequest p).isOk = false := by
  have blank : findSequence paddedGet (crlf ++ crlf) = some 2072 := by decide +kernel
  exact part_rejected blank (by decide +kernel) initial part

/-- A full read and a rest. -/
theorem received_iff_fullReads_padded :
    ∃ st,
      handlerCalls 3
      (newClient ⟨[], 0⟩ sampleClient ([some paddedStart, none, some paddedEnd].map readOf))
      = some st ∧
      Received paddedGet sampleClient st :=
  (received_iff_fullReads paddedGet (by decide +kernel) paddedGet_first
    [some paddedStart, none, some paddedEnd] (by decide +kernel) sampleClient 0).mpr
    ⟨paddedEnd, rfl, by decide +kernel, by decide +kernel⟩

/-- The handler asks the parser after the first part, and never reads the second. -/
theorem second_part_not_read :
    (uhttpParseRequest hostGet).isOk = true ∧
      (∀ p, p <+: hostGet → p ≠ hostGet → (uhttpParseRequest p).isOk = false) ∧
      delivered [some hostGetStart, some hostGetEnd] = hostGet ∧
      ∃ st,
        handlerCalls 2
        (newClient ⟨[], 0⟩ sampleClient ([some hostGetStart, some hostGetEnd].map readOf))
        = some st ∧
        st.reads = [.chunk hostGetEnd] ∧ ¬ Received hostGet sampleClient st := by
  refine ⟨by decide, hostGet_first, by decide, _, rfl, rfl, ?_⟩
  rintro ⟨req, -, one, -⟩
  cases one

end Soter2.Uhttp
