import Mathlib.Data.List.Basic
import Mathlib.Data.List.Forall2
import Mathlib.Data.List.Nodup
import Mathlib.Tactic.Common
import Soter2.Base.Events
import Soter2.Library.AssocTable
import Soter2.Library.ServiceLine
import Soter2.Library.Transition
import Soter2.Uhttp.Routes

/-! # The threads of the server (`uhttp/src/server.c`)

The accepter hands new connections to the runner, the runner reads requests and writes
responses, and `uhttp_server_poll_routes` answers the one with the other.  Between each two of
them stands a queue with an event socket.  A request and its response carry no more of the
connection than the number of its descriptor, which the kernel gives away again once it was
closed.

* `answers_in_order` — each request is answered once, in order, by its first route.
* `answers_reach_askers` — when the answers go to those that asked.
-/

namespace Soter2.Uhttp

open Base
open Lownet (NnetFd SockaddrStorage)

structure UhttpHighResponse where
  nfd : NnetFd
  resp : UhttpResponse

/-- A client of the runner, with the number of its connection. -/
structure Client where
  conn : Nat
  st : UhttpCliState

/-- A call of `ln_tsock_writex` for a response: the connection that its descriptor stood for, if
    any, and the bytes.  Without any, the call returns at once. -/
structure Written where
  conn : Option Nat
  resp : UhttpHighResponse
  data : Option (List UInt8)

inductive AccepterPc where
  | checking
  | accepting
  | notifying
  | exited
deriving DecidableEq

inductive RunnerPc where
  | checking
  /-- In front of the `poll` of the new connections. -/
  | polling
  | reading
  | draining
  | popClis
  /-- In front of the `poll` of the responses. -/
  | pollingResponses
  | readingResponses
  | popResponses
  | writing (resp : UhttpHighResponse)
  /-- In front of the `poll` of the client under the index. -/
  | visiting (i : Nat)
  /-- In `handler`, behind `prot_queue_push`. -/
  | notifying (i : Nat)
  | exited

inductive PollerPc where
  | checking
  | polling
  | reading
  | iterating
  | handling (req : UhttpHighRequest)
  /-- In `uhttp_send_response`, in front of `prot_queue_push`. -/
  | pushing (resp : UhttpHighResponse)
  | notifying
  | exited

/-- `uhttp_serv` with its three threads, and the descriptors of the accepted connections that are
    open.  `asked` and `written` are what was parsed and what was written so far. -/
structure Service (σ : Type*) where
  isRunning : Bool
  clis : Mailbox (Nat × NnetFd)
  requests : Mailbox UhttpHighRequest
  responses : Mailbox UhttpHighResponse
  routes : List (UhttpRoute σ)
  ctx : σ
  accepter : AccepterPc
  runner : RunnerPc
  poller : PollerPc
  clients : List Client
  kernel : AssocTable Int Nat
  accepted : Nat
  asked : List (Nat × UhttpHighRequest)
  written : List Written

variable {σ : Type*}

/-- The cells of the three fresh queues. -/
structure Zeros where
  cli : Nat × NnetFd
  request : UhttpHighRequest
  response : UhttpHighResponse

/-- The server in front of the three loops. -/
def uhttpServerRun (zeros : Zeros) (routes : List (UhttpRoute σ)) (ctx : σ) : Service σ where
  isRunning := true
  clis := Mailbox.create zeros.cli
  requests := Mailbox.create zeros.request
  responses := Mailbox.create zeros.response
  routes := routes
  ctx := ctx
  accepter := .checking
  runner := .checking
  poller := .checking
  clients := []
  kernel := AssocTable.empty
  accepted := 0
  asked := []
  written := []

inductive AcceptResult where
  /-- An error that passes. -/
  | again
  | failed
  | accepted (rfd : Int) (addr : SockaddrStorage)

/-- The next step of `accepter`, apart from `accept4`. -/
def accepterStep (s : Service σ) : Option (Service σ) :=
  match s.accepter with
  | .checking => some { s with accepter := if s.isRunning then .accepting else .exited }
  | .notifying => s.clis.notify.map fun clis => { s with clis := clis, accepter := .checking }
  | .accepting | .exited => none

/-- `accept4` gives a descriptor that is not open. -/
def accept4 (s : Service σ) (result : AcceptResult) (malloc : Nat → Nat × NnetFd) :
    Option (Service σ) :=
  match s.accepter, result with
  | .accepting, .again => some { s with accepter := .checking }
  | .accepting, .failed => some { s with accepter := .exited }
  | .accepting, .accepted rfd addr =>
    if s.kernel.get rfd = none then
      some { s with
        clis := s.clis.push malloc (s.accepted, ⟨rfd, addr, 16⟩)
        kernel := s.kernel.set rfd s.accepted
        accepted := s.accepted + 1
        accepter := .notifying }
    else none
  | .checking, _ | .notifying, _ | .exited, _ => none

/-- The next step of `runner`, apart from reads and writes of a client. -/
def runnerStep (s : Service σ) : Option (Service σ) :=
  match s.runner with
  | .checking =>
    some (if s.isRunning then { s with runner := .polling } else { s with runner := .exited })
  | .polling => some { s with runner := if s.clis.readable then .reading else .pollingResponses }
  | .reading => some { s with clis := s.clis.drain, runner := .draining }
  | .draining => some { s with clis := s.clis.drain, runner := .popClis }
  | .popClis =>
    match s.clis.pop with
    | some ((conn, nfd), clis) =>
      some { s with clis := clis, clients := s.clients ++ [⟨conn, newClient ⟨[], 0⟩ nfd []⟩] }
    | none => some { s with runner := .pollingResponses }
  | .pollingResponses =>
    some { s with runner := if s.responses.readable then .readingResponses else .visiting 0 }
  | .readingResponses => some { s with responses := s.responses.drain, runner := .popResponses }
  | .popResponses =>
    match s.responses.pop with
    | some (resp, responses) => some { s with responses := responses, runner := .writing resp }
    | none => some { s with runner := .visiting 0 }
  | .visiting i => if s.clients.length ≤ i then some { s with runner := .checking } else none
  | .notifying i =>
    s.requests.notify.map fun requests =>
      { s with requests := requests, runner := .visiting (i + 1) }
  | .writing _ | .exited => none

/-- A `poll` of the runner returns -1: the thread ends, or the responses are left for the next
    round. -/
def runnerPollFails (s : Service σ) : Option (Service σ) :=
  match s.runner with
  | .polling => some { s with isRunning := false, runner := .exited }
  | .pollingResponses => some { s with runner := .visiting 0 }
  | _ => none

/-- What the runner has for `ln_tsock_writex` when the builder is done: a builder that fails sets
    `data` to `NULL`. -/
def outgoing : Except BuildStop (List UInt8 × Nat) → Option (Option (List UInt8))
  | .ok (data, sz) => some (some (data.take sz))
  | .error .failed => some none
  | .error .outOfBounds => none

/-- The response is built and written; one that cannot be built is dropped. -/
def writeStep (s : Service σ) (memory : Nat → UInt8) : Option (Service σ) :=
  match s.runner with
  | .writing resp =>
    (outgoing (uhttpBuildResponse memory resp.resp)).map fun data =>
      { s with
        written := s.written ++ [⟨s.kernel.get resp.nfd.rfd, resp, data⟩]
        runner := .popResponses }
  | _ => none

/-- What `handler` does with the client of this index when its socket gives `read`. -/
def handled (s : Service σ) (i : Nat) (read : ReadResult) :
    Option (Client × Bool × UhttpCliState) :=
  match s.clients[i]? with
  | none => none
  | some cli =>
    (handler { cli.st with serv := ⟨[], 0⟩, reads := [read] }).map fun done => (cli, done)

/-- A turn of the client loop; `read` is `none` if the client cannot be read. -/
def visitStep (s : Service σ) (read : Option ReadResult) (malloc : Nat → UhttpHighRequest) :
    Option (Service σ) :=
  match s.runner, read with
  | .visiting i, none => if i < s.clients.length then some s else none
  | .visiting i, some read =>
    match handled s i read with
    | none => none
    | some (cli, true, _) =>
      some { s with clients := s.clients.eraseIdx i, kernel := s.kernel.remove cli.st.nfd.rfd }
    | some (cli, false, st) =>
      let s := { s with clients := s.clients.set i { cli with st := st } }
      match st.serv.requests with
      | [] => some { s with runner := .visiting (i + 1) }
      | req :: _ =>
        some { s with
          requests := s.requests.push malloc req
          asked := s.asked ++ [(cli.conn, req)]
          runner := .notifying i }
  | _, _ => none

/-- The next step of `uhttp_server_poll_routes`; what `prot_queue_push` takes for a larger queue is
    an input. -/
def pollerStep (s : Service σ) (malloc : Nat → UhttpHighResponse) : Option (Service σ) :=
  match s.poller with
  | .checking =>
    some (if s.isRunning then { s with poller := .polling } else { s with poller := .exited })
  | .polling => some { s with poller := if s.requests.readable then .reading else .checking }
  | .reading => some { s with requests := s.requests.drain, poller := .iterating }
  | .iterating =>
    match s.requests.pop with
    | some (req, requests) => some { s with requests := requests, poller := .handling req }
    | none => some { s with poller := .checking }
  | .handling req =>
    let (resp, ctx) := respond s.routes s.ctx req
    some { s with ctx := ctx, poller := .pushing ⟨req.nfd, resp⟩ }
  | .pushing resp => some { s with responses := s.responses.push malloc resp, poller := .notifying }
  | .notifying =>
    s.responses.notify.map fun responses => { s with responses := responses, poller := .iterating }
  | .exited => none

/-- A `poll` of the poller returns -1: `uhttp_wait_requests` drains the event socket, and the loop
    is left. -/
def pollerPollFails (s : Service σ) : Option (Service σ) :=
  match s.poller with
  | .polling => some { s with isRunning := false, requests := s.requests.drain, poller := .exited }
  | _ => none

inductive ServiceAction (σ : Type*) where
  | accepter
  | accept (result : AcceptResult) (malloc : Nat → Nat × NnetFd)
  | runner
  | runnerPollFails
  | write (memory : Nat → UInt8)
  | visit (read : Option ReadResult) (malloc : Nat → UhttpHighRequest)
  | poller (malloc : Nat → UhttpHighResponse)
  | pollerPollFails
  /-- Another thread changes the context. -/
  | outside (ctx : σ)
  /-- `uhttp_server_stop`. -/
  | stop

/-- The request that the poller has taken. -/
def PollerPc.request : PollerPc → List UhttpHighRequest
  | .handling req => [req]
  | .checking | .polling | .reading | .iterating | .pushing _ | .notifying | .exited => []

/-- The response that the poller has not pushed yet. -/
def PollerPc.response : PollerPc → List UhttpHighResponse
  | .pushing resp => [resp]
  | .checking | .polling | .reading | .iterating | .handling _ | .notifying | .exited => []

/-- The poller is going to take all requests that are in the queue. -/
def PollerPc.Takes : PollerPc → Prop
  | .reading | .iterating | .handling _ | .pushing _ | .notifying => True
  | .checking | .polling | .exited => False

instance : DecidablePred PollerPc.Takes
  | .reading | .iterating | .handling _ | .pushing _ | .notifying => .isTrue trivial
  | .checking | .polling | .exited => .isFalse id

/-- The response that the runner has taken. -/
def RunnerPc.response : RunnerPc → List UhttpHighResponse
  | .writing resp => [resp]
  | .checking | .polling | .reading | .draining | .popClis | .pollingResponses | .readingResponses
  | .popResponses
  | .visiting _ | .notifying _ | .exited => []

/-- The runner is going to take all responses that are in the queue. -/
def RunnerPc.Takes : RunnerPc → Prop
  | .readingResponses | .popResponses | .writing _ => True
  | .checking | .polling | .reading | .draining | .popClis | .pollingResponses
  | .visiting _ | .notifying _ | .exited => False

instance : DecidablePred RunnerPc.Takes
  | .readingResponses | .popResponses | .writing _ => .isTrue trivial
  | .checking | .polling | .reading | .draining | .popClis | .pollingResponses
  | .visiting _ | .notifying _ | .exited =>
    .isFalse id

namespace Service

def step (s : Service σ) : ServiceAction σ → Option (Service σ)
  | .accepter => accepterStep s
  | .accept result malloc => accept4 s result malloc
  | .runner => runnerStep s
  | .runnerPollFails => Uhttp.runnerPollFails s
  | .write memory => writeStep s memory
  | .visit read malloc => visitStep s read malloc
  | .poller malloc => pollerStep s malloc
  | .pollerPollFails => Uhttp.pollerPollFails s
  | .outside ctx => some { s with ctx := ctx }
  | .stop => some { s with isRunning := false }

/-! ## The line of requests and responses -/

/-- The requests and responses on their way through the server. -/
def line (s : Service σ) : ServiceLine.State UhttpHighRequest UhttpHighResponse where
  asked := s.asked.map Prod.snd
  waiting := s.poller.request ++ s.requests.view.items
  ready := s.runner.response ++ s.responses.view.items ++ s.poller.response
  given := s.written.map (·.resp)

/-- What a handler gives for the request, in some state of the context; it goes to the descriptor
    that the request came from. -/
def Answers (routes : List (UhttpRoute σ)) (req : UhttpHighRequest) (resp : UhttpHighResponse) :
    Prop :=
  resp.nfd = req.nfd ∧ ∃ ctx, resp.resp = (respond routes ctx req).1

/-- The line is in order, what waits in the queue of responses is going to be taken or is
    announced, and what was written is what the builder made of the responses. -/
structure Inv (routes : List (UhttpRoute σ)) (s : Service σ) : Prop where
  same : s.routes = routes
  inOrder : ServiceLine.InOrder (Answers routes) s.line
  responses : s.runner.Takes ∨ s.responses.view.Covered
  built : ∀ w ∈ s.written, ∃ memory, outgoing (uhttpBuildResponse memory w.resp.resp) = some w.data

variable {routes : List (UhttpRoute σ)} {s s' : Service σ} {a : ServiceAction σ}

theorem uhttpServerRun_inv (zeros : Zeros) (routes : List (UhttpRoute σ)) (ctx : σ) :
    Inv routes (uhttpServerRun zeros routes ctx) where
  same := rfl
  inOrder := ⟨[], rfl, .nil⟩
  responses := .inr (EventQueue.State.covered_of_empty rfl)
  built := by simp [uhttpServerRun]

theorem accepterStep_inv (inv : Inv routes s) (h : accepterStep s = some s') : Inv routes s' := by
  unfold accepterStep at h
  split at h
  · cases h
    exact ⟨inv.same, inv.inOrder, inv.responses, inv.built⟩
  · obtain ⟨clis, -, rfl⟩ := Option.map_eq_some_iff.mp h
    exact ⟨inv.same, inv.inOrder, inv.responses, inv.built⟩
  · cases h
  · cases h

theorem accept4_inv {result : AcceptResult} {malloc : Nat → Nat × NnetFd} (inv : Inv routes s)
    (h : accept4 s result malloc = some s') : Inv routes s' := by
  unfold accept4 at h
  split at h
  · cases h; exact ⟨inv.same, inv.inOrder, inv.responses, inv.built⟩
  · cases h; exact ⟨inv.same, inv.inOrder, inv.responses, inv.built⟩
  · split_ifs at h
    cases h
    exact ⟨inv.same, inv.inOrder, inv.responses, inv.built⟩
  · cases h
  · cases h
  · cases h

/-- A step of the runner that takes no response. -/
theorem Inv.runnerFrame (inv : Inv routes s) (isRunning : Bool) (clis : Mailbox (Nat × NnetFd))
    (runner : RunnerPc) (clients : List Client) (kernel : AssocTable Int Nat)
    (line : runner.response = s.runner.response) (takes : s.runner.Takes → runner.Takes) :
    Inv routes { s with
      isRunning := isRunning
      clis := clis
      runner := runner
      clients := clients
      kernel := kernel } where
  same := inv.same
  inOrder := by
    have inOrder := inv.inOrder
    rw [Service.line, ← line] at inOrder
    exact inOrder
  responses := inv.responses.imp takes id
  built := inv.built

theorem runnerStep_inv (inv : Inv routes s) (h : runnerStep s = some s') : Inv routes s' := by
  cases pc : s.runner with
  | checking =>
    -- `runnerFrame` is for the steps that move no response
    simp only [runnerStep, pc, Option.some.injEq] at h
    split_ifs at h <;> cases h <;>
      exact inv.runnerFrame _ _ _ _ _ (by simp [pc, RunnerPc.response])
        (by simp [pc, RunnerPc.Takes])
  | polling =>
    simp only [runnerStep, pc, Option.some.injEq] at h
    split_ifs at h <;> cases h <;>
      exact inv.runnerFrame _ _ _ _ _ (by simp [pc, RunnerPc.response])
        (by simp [pc, RunnerPc.Takes])
  | reading =>
    simp only [runnerStep, pc, Option.some.injEq] at h
    cases h
    exact inv.runnerFrame _ _ _ _ _ (by simp [pc, RunnerPc.response]) (by simp [pc, RunnerPc.Takes])
  | draining =>
    simp only [runnerStep, pc, Option.some.injEq] at h
    cases h
    exact inv.runnerFrame _ _ _ _ _ (by simp [pc, RunnerPc.response]) (by simp [pc, RunnerPc.Takes])
  | popClis =>
    simp only [runnerStep, pc] at h
    split at h <;> cases h <;>
      exact inv.runnerFrame _ _ _ _ _ (by simp [pc, RunnerPc.response])
        (by simp [pc, RunnerPc.Takes])
  | pollingResponses =>
    simp only [runnerStep, pc, Option.some.injEq] at h
    split_ifs at h <;> cases h <;>
      exact inv.runnerFrame _ _ _ _ _ (by simp [pc, RunnerPc.response])
        (by simp [pc, RunnerPc.Takes])
  | readingResponses =>
    -- from here the runner takes all responses, so the counter may go back to zero
    simp only [runnerStep, pc, Option.some.injEq] at h
    cases h
    refine ⟨inv.same, ?_, .inl trivial, inv.built⟩
    simpa [line, RunnerPc.response, pc, EventQueue.State.reset] using inv.inOrder
  | popResponses =>
    simp only [runnerStep, pc] at h
    split at h
    next resp responses popped =>
      cases h
      refine ⟨inv.same, ?_, .inl trivial, inv.built⟩
      simpa [line, RunnerPc.response, pc, (Mailbox.view_of_pop popped).1] using inv.inOrder
    next popped =>
      cases h
      -- the queue is empty, so no notification is missing
      refine ⟨inv.same, ?_, .inr ?_, inv.built⟩
      · simpa [line, RunnerPc.response, pc] using inv.inOrder
      · exact EventQueue.State.covered_of_empty (Mailbox.pop_eq_none.mp popped)
  | visiting i =>
    simp only [runnerStep, pc, Option.ite_none_right_eq_some, Option.some.injEq] at h
    obtain ⟨-, rfl⟩ := h
    exact inv.runnerFrame _ _ _ _ _ (by simp [pc, RunnerPc.response]) (by simp [pc, RunnerPc.Takes])
  | notifying i =>
    simp only [runnerStep, pc] at h
    obtain ⟨requests, notified, rfl⟩ := Option.map_eq_some_iff.mp h
    obtain ⟨-, view⟩ := Mailbox.view_notify notified
    refine ⟨inv.same, ?_, inv.responses.imp (by rw [pc]; exact id) id, inv.built⟩
    simpa [line, RunnerPc.response, pc, view, EventQueue.State.notify] using inv.inOrder
  | writing resp => simp [runnerStep, pc] at h
  | exited => simp [runnerStep, pc] at h

theorem runnerPollFails_inv (inv : Inv routes s) (h : Uhttp.runnerPollFails s = some s') :
    Inv routes s' := by
  cases pc : s.runner with
  | polling =>
    simp only [Uhttp.runnerPollFails, pc, Option.some.injEq] at h
    cases h
    exact inv.runnerFrame _ _ _ _ _ (by simp [pc, RunnerPc.response]) (by simp [pc, RunnerPc.Takes])
  | pollingResponses =>
    simp only [Uhttp.runnerPollFails, pc, Option.some.injEq] at h
    cases h
    exact inv.runnerFrame _ _ _ _ _ (by simp [pc, RunnerPc.response]) (by simp [pc, RunnerPc.Takes])
  | _ => simp [Uhttp.runnerPollFails, pc] at h

theorem writeStep_cases {memory : Nat → UInt8} (h : writeStep s memory = some s') :
    ∃ resp data, s.runner = .writing resp ∧
      outgoing (uhttpBuildResponse memory resp.resp) = some data ∧
      s' = { s with
        written := s.written ++ [⟨s.kernel.get resp.nfd.rfd, resp, data⟩],
          runner := .popResponses } := by
  unfold writeStep at h
  split at h
  next resp pc =>
    obtain ⟨data, built, rfl⟩ := Option.map_eq_some_iff.mp h
    exact ⟨resp, data, pc, built, rfl⟩
  next => cases h

theorem writeStep_inv {memory : Nat → UInt8} (inv : Inv routes s)
    (h : writeStep s memory = some s') : Inv routes s' := by
  obtain ⟨resp, data, pc, built, rfl⟩ := writeStep_cases h
  refine ⟨inv.same, ?_, .inl trivial, ?_⟩
  · have first : s.line.ready = resp :: (s.responses.view.items ++ s.poller.response) := by
      simp [line, pc, RunnerPc.response]
    have given := ServiceLine.inOrder_give inv.inOrder first
    simpa [line, pc, RunnerPc.response, ServiceLine.State.give] using given
  · intro w member
    rcases List.mem_append.mp member with old | new
    · exact inv.built w old
    · rw [List.mem_singleton.mp new]
      exact ⟨memory, built⟩

/-! ## A turn of the client loop -/

theorem processRead_cases (st : UhttpCliState) :
    (processRead st).nfd = st.nfd ∧ ((processRead st).serv = st.serv ∨
      ∃ req, (processRead st).serv.requests = st.serv.requests ++ [⟨st.nfd, req⟩]) := by
  unfold processRead
  split
  · exact ⟨rfl, .inl rfl⟩
  · exact ⟨rfl, .inl rfl⟩
  next req parsed => exact ⟨rfl, .inr ⟨req, rfl⟩⟩

/-- A handler that keeps the client leaves its descriptor, and pushes one request at most, with this
    descriptor. -/
theorem handler_keeps {st st' : UhttpCliState} (empty : st.serv.requests = [])
    (h : handler st = some (false, st')) :
    st'.nfd = st.nfd ∧ (st'.serv.requests = [] ∨ ∃ req, st'.serv.requests = [⟨st.nfd, req⟩]) := by
  -- both ways to the parser end in `processRead`, which pushes one request or none
  have of_process : ∀ st₁ : UhttpCliState, st₁.serv = st.serv → st₁.nfd = st.nfd →
      processRead st₁ = st' →
      st'.nfd = st.nfd ∧ (st'.serv.requests = [] ∨ ∃ req, st'.serv.requests = [⟨st.nfd, req⟩]) := by
    rintro st₁ serv nfd rfl
    obtain ⟨kept, pushed⟩ := processRead_cases st₁
    refine ⟨kept.trans nfd, pushed.imp (fun same => ?_) ?_⟩
    · rw [same, serv, empty]
    · rintro ⟨req, eq⟩
      exact ⟨req, by rw [eq, serv, empty, nfd]; rfl⟩
  unfold handler at h
  split at h
  · exact of_process st rfl rfl (by simpa using h)
  · split at h
    · cases h; exact ⟨rfl, .inl empty⟩
    · cases h; exact ⟨rfl, .inl empty⟩
    · split_ifs at h
      cases h
    · cases h
    next c reads _ =>
      dsimp only at h
      split_ifs at h
      · exact of_process
          { st with
            reads := reads
            readData := st.readData ++ c.bytes
            readDone := true } rfl rfl
          (by simpa using h)
      · cases h; exact ⟨rfl, .inl empty⟩

/-- A turn of the client loop finds the client idle, closes it, keeps it, or takes a request from
    it. -/
theorem visitStep_cases {read : Option ReadResult} {malloc : Nat → UhttpHighRequest}
    (h : visitStep s read malloc = some s') :
    (read = none ∧ s' = s) ∨
    ∃ r i cli st, read = some r ∧ s.runner = .visiting i ∧ s.clients[i]? = some cli ∧
      ((handled s i r = some (cli, true, st) ∧
          s' = { s with
            clients := s.clients.eraseIdx i
            kernel := s.kernel.remove cli.st.nfd.rfd }) ∨
        (handled s i r = some (cli, false, st) ∧ st.nfd = cli.st.nfd ∧
          (s' = { s with
              clients := s.clients.set i { cli with st := st }
              runner := .visiting (i + 1) } ∨
            ∃ req, s' = { s with
              clients := s.clients.set i { cli with st := st }
              requests := s.requests.push malloc ⟨cli.st.nfd, req⟩
              asked := s.asked ++ [(cli.conn, ⟨cli.st.nfd, req⟩)]
              runner := .notifying i }))) := by
  unfold visitStep at h
  split at h
  · simp only [Option.ite_none_right_eq_some, Option.some.injEq] at h
    exact .inl ⟨rfl, h.2.symm⟩
  next i r pc =>
    -- what `handled` says of a client is what `handler` does with it
    have found : ∀ cli delete st, handled s i r = some (cli, delete, st) →
        s.clients[i]? = some cli ∧
        handler { cli.st with serv := ⟨[], 0⟩, reads := [r] } = some (delete, st) := by
      intro cli delete st eq
      unfold handled at eq
      split at eq
      · cases eq
      next client at_ =>
        obtain ⟨done, ran, same⟩ := Option.map_eq_some_iff.mp eq
        cases same
        exact ⟨at_, ran⟩
    split at h
    · cases h
    next cli st eq =>
      cases h
      exact .inr ⟨r, i, cli, st, rfl, pc, (found _ _ _ eq).1, .inl ⟨eq, rfl⟩⟩
    next cli st eq =>
      obtain ⟨at_, ran⟩ := found _ _ _ eq
      obtain ⟨nfd, pushed⟩ := handler_keeps rfl ran
      refine .inr ⟨r, i, cli, st, rfl, pc, at_, .inr ⟨eq, nfd, ?_⟩⟩
      rcases pushed with none_ | ⟨req, one⟩
      · rw [none_] at h
        exact .inl (Option.some.inj h).symm
      · rw [one] at h
        exact .inr ⟨req, (Option.some.inj h).symm⟩
  · cases h

theorem visitStep_inv {read : Option ReadResult} {malloc : Nat → UhttpHighRequest}
    (inv : Inv routes s) (h : visitStep s read malloc = some s') : Inv routes s' := by
  obtain ⟨-, rfl⟩ | ⟨r, i, cli, st, -, pc, -, ⟨-, rfl⟩ | ⟨-, -, rfl | ⟨req, rfl⟩⟩⟩ :=
    visitStep_cases h
  · exact inv
  · exact inv.runnerFrame _ _ _ _ _ rfl id
  · exact inv.runnerFrame _ _ _ _ _ (by simp [pc, RunnerPc.response]) (by simp [pc, RunnerPc.Takes])
  · refine ⟨inv.same, ?_, inv.responses.imp (by rw [pc]; exact id) id, inv.built⟩
    have asked := ServiceLine.inOrder_ask inv.inOrder ⟨cli.st.nfd, req⟩
    simpa [line, pc, RunnerPc.response, ServiceLine.State.ask, EventQueue.State.push] using asked

/-! ## The poller -/

theorem Inv.pollerFrame (inv : Inv routes s) (isRunning : Bool) (poller : PollerPc)
    (request : poller.request = s.poller.request) (response : poller.response = s.poller.response) :
    Inv routes { s with isRunning := isRunning, poller := poller } where
  same := inv.same
  inOrder := by
    have inOrder := inv.inOrder
    rw [Service.line, ← request, ← response] at inOrder
    exact inOrder
  responses := inv.responses
  built := inv.built

theorem pollerStep_inv {malloc : Nat → UhttpHighResponse} (inv : Inv routes s)
    (h : pollerStep s malloc = some s') : Inv routes s' := by
  cases pc : s.poller with
  | checking =>
    simp only [pollerStep, pc, Option.some.injEq] at h
    split_ifs at h <;> cases h <;>
      exact inv.pollerFrame _ _ (by simp [pc, PollerPc.request]) (by simp [pc, PollerPc.response])
  | polling =>
    simp only [pollerStep, pc, Option.some.injEq] at h
    split_ifs at h <;> cases h <;>
      exact inv.pollerFrame _ _ (by simp [pc, PollerPc.request]) (by simp [pc, PollerPc.response])
  | reading =>
    simp only [pollerStep, pc, Option.some.injEq] at h
    cases h
    refine ⟨inv.same, ?_, inv.responses, inv.built⟩
    simpa [line, pc, PollerPc.request, PollerPc.response, EventQueue.State.reset] using inv.inOrder
  | iterating =>
    simp only [pollerStep, pc] at h
    split at h
    next req requests popped =>
      cases h
      refine ⟨inv.same, ?_, inv.responses, inv.built⟩
      simpa [line, pc, PollerPc.request, PollerPc.response, (Mailbox.view_of_pop popped).1]
        using inv.inOrder
    next popped =>
      cases h
      refine ⟨inv.same, ?_, inv.responses, inv.built⟩
      simpa [line, pc, PollerPc.request, PollerPc.response] using inv.inOrder
  | handling req =>
    simp only [pollerStep, pc, Option.some.injEq] at h
    cases h
    refine ⟨inv.same, ?_, inv.responses, inv.built⟩
    -- the routes are those of the start, whatever the context is by now
    have answered : Answers routes req ⟨req.nfd, (respond s.routes s.ctx req).1⟩ :=
      ⟨rfl, s.ctx, by rw [inv.same]⟩
    have first : s.line.waiting = req :: s.requests.view.items := by
      simp [line, pc, PollerPc.request]
    have next := ServiceLine.inOrder_answer inv.inOrder first answered
    simpa [line, pc, PollerPc.request, PollerPc.response, ServiceLine.State.answer] using next
  | pushing resp =>
    simp only [pollerStep, pc, Option.some.injEq] at h
    cases h
    refine ⟨inv.same, ?_, .inr ?_, inv.built⟩
    · simpa [line, pc, PollerPc.request, PollerPc.response, EventQueue.State.push] using inv.inOrder
    · -- the notification is still to come
      rw [Mailbox.view_push]
      exact EventQueue.State.covered_push _ _
  | notifying =>
    simp only [pollerStep, pc] at h
    obtain ⟨responses, notified, rfl⟩ := Option.map_eq_some_iff.mp h
    obtain ⟨-, view⟩ := Mailbox.view_notify notified
    refine ⟨inv.same, ?_, .inr ?_, inv.built⟩
    · simpa [line, pc, view, PollerPc.request, PollerPc.response, EventQueue.State.notify]
        using inv.inOrder
    · rw [view]
      exact EventQueue.State.covered_notify _
  | exited => simp [pollerStep, pc] at h

theorem pollerPollFails_inv (inv : Inv routes s) (h : Uhttp.pollerPollFails s = some s') :
    Inv routes s' := by
  unfold Uhttp.pollerPollFails at h
  split at h
  next pc =>
    cases h
    refine ⟨inv.same, ?_, inv.responses, inv.built⟩
    simpa [line, pc, PollerPc.request, PollerPc.response, EventQueue.State.reset] using inv.inOrder
  next => cases h

theorem step_inv (inv : Inv routes s) (h : s.step a = some s') : Inv routes s' := by
  cases a with
  | accepter => exact accepterStep_inv inv h
  | accept result malloc => exact accept4_inv inv h
  | runner => exact runnerStep_inv inv h
  | runnerPollFails => exact runnerPollFails_inv inv h
  | write memory => exact writeStep_inv inv h
  | visit read malloc => exact visitStep_inv inv h
  | poller malloc => exact pollerStep_inv inv h
  | pollerPollFails => exact pollerPollFails_inv inv h
  | outside ctx => cases h; exact ⟨inv.same, inv.inOrder, inv.responses, inv.built⟩
  | stop => cases h; exact ⟨inv.same, inv.inOrder, inv.responses, inv.built⟩

/-! ## Requests that nobody takes -/

/-- The poller is going to take all requests that are in the queue, or something announces them. -/
def Announced (s : Service σ) : Prop := s.poller.Takes ∨ s.requests.view.Covered

/-- The step is no failed `poll` of the poller while a request is in the queue. -/
def Hears (s : Service σ) : ServiceAction σ → Prop
  | .pollerPollFails => s.requests.view.items = []
  | _ => True

instance : ∀ (s : Service σ) (a : ServiceAction σ), Decidable (s.Hears a)
  | _, .pollerPollFails => decidable_of_iff _ List.isEmpty_iff
  | _, .accepter | _, .accept .. | _, .runner | _, .runnerPollFails | _, .write _ | _, .visit ..
  | _, .poller _
  | _, .outside _ | _, .stop => .isTrue trivial

/-- What the other threads do to the poller's queue. -/
def Feeds (s s' : Service σ) : Prop :=
  s'.poller = s.poller ∧ (s'.requests.view = s.requests.view ∨
    (∃ req, s'.requests.view = s.requests.view.push req) ∨
      s'.requests.view = s.requests.view.notify)

theorem Feeds.refl (s : Service σ) : Feeds s s := ⟨rfl, .inl rfl⟩

theorem accepterStep_feeds (h : accepterStep s = some s') : Feeds s s' := by
  unfold accepterStep at h
  split at h
  · cases h; exact .refl s
  · obtain ⟨clis, -, rfl⟩ := Option.map_eq_some_iff.mp h
    exact .refl s
  · cases h
  · cases h

theorem accept4_feeds {result : AcceptResult} {malloc : Nat → Nat × NnetFd}
    (h : accept4 s result malloc = some s') : Feeds s s' := by
  unfold accept4 at h
  split at h
  · cases h; exact .refl s
  · cases h; exact .refl s
  · split_ifs at h
    cases h
    exact .refl s
  · cases h
  · cases h
  · cases h

theorem runnerStep_feeds (h : runnerStep s = some s') : Feeds s s' := by
  unfold runnerStep at h
  split at h
  · split_ifs at h <;> cases h <;> exact .refl s
  · cases h; exact .refl s
  · cases h; exact .refl s
  · cases h; exact .refl s
  · split at h <;> cases h <;> exact .refl s
  · cases h; exact .refl s
  · cases h; exact .refl s
  · split at h <;> cases h <;> exact .refl s
  · split_ifs at h
    cases h
    exact .refl s
  · obtain ⟨requests, notified, rfl⟩ := Option.map_eq_some_iff.mp h
    exact ⟨rfl, .inr (.inr (Mailbox.view_notify notified).2)⟩
  · cases h
  · cases h

theorem visitStep_feeds {read : Option ReadResult} {malloc : Nat → UhttpHighRequest}
    (h : visitStep s read malloc = some s') : Feeds s s' := by
  obtain ⟨-, rfl⟩ | ⟨r, i, cli, st, -, pc, -, ⟨-, rfl⟩ | ⟨-, -, rfl | ⟨req, rfl⟩⟩⟩ :=
    visitStep_cases h
  · exact .refl _
  · exact .refl s
  · exact .refl s
  · exact ⟨rfl, .inr (.inl ⟨_, Mailbox.view_push _ _ _⟩)⟩

/-- A step is one of the poller, or feeds it. -/
theorem step_cases (h : s.step a = some s') :
    Feeds s s' ∨ (∃ malloc, pollerStep s malloc = some s') ∨
      (a = .pollerPollFails ∧ Uhttp.pollerPollFails s = some s') := by
  cases a with
  | accepter => exact .inl (accepterStep_feeds h)
  | accept result malloc => exact .inl (accept4_feeds h)
  | runner => exact .inl (runnerStep_feeds h)
  | runnerPollFails =>
    rw [step, Uhttp.runnerPollFails] at h
    split at h <;> cases h <;> exact .inl (.refl s)
  | write memory =>
    obtain ⟨resp, data, -, -, rfl⟩ := writeStep_cases h
    exact .inl (.refl s)
  | visit read malloc => exact .inl (visitStep_feeds h)
  | poller malloc => exact .inr (.inl ⟨malloc, h⟩)
  | pollerPollFails => exact .inr (.inr ⟨rfl, h⟩)
  | outside ctx => cases h; exact .inl (.refl s)
  | stop => cases h; exact .inl (.refl s)

theorem pollerPollFails_eq_some : Uhttp.pollerPollFails s = some s' ↔
    s.poller = .polling ∧
      s' = { s with
        isRunning := false
        requests := s.requests.drain
        poller := .exited } := by
  unfold Uhttp.pollerPollFails
  split
  next pc => simp only [pc, Option.some.injEq, true_and, eq_comm]
  next other => exact iff_of_false (by simp) fun both => other both.1

theorem pollerStep_announced {malloc : Nat → UhttpHighResponse} (announced : s.Announced)
    (h : pollerStep s malloc = some s') : s'.Announced := by
  cases pc : s.poller with
  | checking =>
    have covered := announced.resolve_left (by simp [pc, PollerPc.Takes])
    simp only [pollerStep, pc, Option.some.injEq] at h
    split_ifs at h <;> cases h <;> exact .inr covered
  | polling =>
    have covered := announced.resolve_left (by simp [pc, PollerPc.Takes])
    simp only [pollerStep, pc, Option.some.injEq] at h
    cases h
    exact .inr covered
  | reading | handling | pushing =>
    simp only [pollerStep, pc, Option.some.injEq] at h
    cases h
    exact .inl trivial
  | iterating =>
    simp only [pollerStep, pc] at h
    split at h
    next => cases h; exact .inl trivial
    next popped =>
      cases h
      -- the loop ends on an empty queue, in which no request needs an announcement
      exact .inr (EventQueue.State.covered_of_empty (Mailbox.pop_eq_none.mp popped))
  | notifying =>
    simp only [pollerStep, pc] at h
    obtain ⟨responses, -, rfl⟩ := Option.map_eq_some_iff.mp h
    exact .inl trivial
  | exited => simp [pollerStep, pc] at h

theorem step_announced (announced : s.Announced) (hears : s.Hears a) (h : s.step a = some s') :
    s'.Announced := by
  obtain ⟨poller, fed⟩ | ⟨malloc, h⟩ | ⟨rfl, h⟩ := step_cases h
  · rw [Announced, poller]
    obtain same | ⟨req, pushed⟩ | notified := fed
    · rwa [same]
    · rw [pushed]
      exact .inr (EventQueue.State.covered_push _ _)
    · rw [notified]
      exact .inr (EventQueue.State.covered_notify _)
  · exact pollerStep_announced announced h
  · obtain ⟨-, rfl⟩ := pollerPollFails_eq_some.mp h
    exact .inr (EventQueue.State.covered_of_empty hears)

/-- When the poller has left its loop, what is in the queue stays there. -/
theorem step_exited (exited : s.poller = .exited) (h : s.step a = some s') :
    s'.poller = .exited ∧ s.requests.view.items <+: s'.requests.view.items := by
  obtain ⟨poller, fed⟩ | ⟨malloc, h⟩ | ⟨rfl, h⟩ := step_cases h
  · refine ⟨poller.trans exited, ?_⟩
    obtain same | ⟨req, pushed⟩ | notified := fed
    · rw [same]
    · rw [pushed]
      exact List.prefix_append _ _
    · rw [notified]
      exact List.prefix_rfl
  · simp [pollerStep, exited] at h
  · have polling := (pollerPollFails_eq_some.mp h).1
    rw [exited] at polling
    cases polling

/-- A run that leaves no request in the queue has no failed `poll` while one is there. -/
theorem hears_of_empty {as : List (ServiceAction σ)} {start : Service σ}
    (h : Transition.run step start as = some s)
    (empty : s.requests.view.items = []) : Transition.Meets step Hears start as := by
  refine (Transition.steps_iff_meets (I := fun _ => True) (fun _ _ _ _ _ => trivial)
    (fun _ _ _ => Iff.rfl) trivial).mp ?_
  rintro bs a t ⟨cs, rfl⟩ before
  cases a with
  | pollerPollFails =>
    obtain ⟨u, failed, after⟩ := Transition.run_append.mp h
    obtain ⟨t', before', failed⟩ := Transition.run_append.mp failed
    cases before.symm.trans before'
    obtain ⟨v, failed, same⟩ := Transition.run_cons.mp failed
    cases same
    obtain ⟨-, rfl⟩ := pollerPollFails_eq_some.mp failed
    -- the poller is gone, so the requests that it left are there at the end
    have left : s.poller = .exited ∧ t.requests.view.items <+: s.requests.view.items :=
      Transition.run_invariant (I := fun v => v.poller = .exited ∧
        t.requests.view.items <+: v.requests.view.items)
        (fun v a v' stays next =>
          have kept := step_exited stays.1 next
          ⟨kept.1, stays.2.trans kept.2⟩)
        ⟨rfl, List.prefix_rfl⟩ after
    rw [empty] at left
    exact List.prefix_nil.mp left.2
  | _ => exact trivial

/-! ## Descriptors -/

/-- The connections that the runner has or is going to get, with their descriptors. -/
def held (s : Service σ) : List (Nat × Int) :=
  s.clients.map (fun cli => (cli.conn, cli.st.nfd.rfd)) ++ s.clis.view.items.map fun cli =>
    (cli.1, cli.2.rfd)

/-- The requests whose responses have not been written. -/
def unanswered (s : Service σ) : List (Nat × UhttpHighRequest) := s.asked.drop s.written.length

/-- The connections that are held are open, and no connection has two descriptors. -/
structure Tracked (s : Service σ) : Prop where
  unique : (s.held.map Prod.fst).Nodup
  current : ∀ e ∈ s.held, s.kernel.get e.2 = some e.1
  single : ∀ fd fd' conn, s.kernel.get fd = some conn → s.kernel.get fd' = some conn → fd = fd'
  fresh : ∀ fd conn, s.kernel.get fd = some conn → conn < s.accepted
  asked : ∀ e ∈ s.asked, e.1 < s.accepted

/-- What was written went to the connections that asked, and those that still wait are open. -/
def ReachAskers (s : Service σ) : Prop :=
  s.written.map (·.conn) = (s.asked.take s.written.length).map (fun e => some e.1) ∧
    ∀ e ∈ s.unanswered, s.kernel.get e.2.nfd.rfd = some e.1

/-- The client that the step closes, if any. -/
def closing (s : Service σ) : ServiceAction σ → Option Client
  | .visit (some read) _ =>
    match s.runner with
    | .visiting i =>
      match handled s i read with
      | some (cli, true, _) => some cli
      | _ => none
    | _ => none
  | _ => none

/-- The step closes no connection that waits for a response. -/
def ClosesServed (s : Service σ) (a : ServiceAction σ) : Prop :=
  ∀ cli, s.closing a = some cli → ∀ e ∈ s.unanswered, e.1 ≠ cli.conn

instance (s : Service σ) (a : ServiceAction σ) : Decidable (s.ClosesServed a) :=
  match h : s.closing a with
  | none => .isTrue fun cli eq => by rw [h] at eq; cases eq
  | some cli => decidable_of_iff (∀ e ∈ s.unanswered, e.1 ≠ cli.conn) (by simp [ClosesServed, h])

/-- What a step that concerns no connection leaves as it is. -/
structure Undisturbed (s s' : Service σ) : Prop where
  asked : s'.asked = s.asked
  written : s'.written = s.written
  kernel : s'.kernel = s.kernel
  held : s'.held = s.held
  accepted : s'.accepted = s.accepted

theorem Tracked.undisturbed (tracked : s.Tracked) (same : Undisturbed s s') : s'.Tracked := by
  obtain ⟨unique, current, single, fresh, asked⟩ := tracked
  constructor
  · rwa [same.held]
  · rwa [same.held, same.kernel]
  · rwa [same.kernel]
  · rwa [same.kernel, same.accepted]
  · rwa [same.asked, same.accepted]

theorem Undisturbed.reachAskers (same : Undisturbed s s') : s'.ReachAskers ↔ s.ReachAskers := by
  rw [ReachAskers, ReachAskers, unanswered, unanswered, same.asked, same.written, same.kernel]

theorem runnerStep_undisturbed (h : runnerStep s = some s') : Undisturbed s s' := by
  cases pc : s.runner with
  | checking =>
    simp only [runnerStep, pc, Option.some.injEq] at h
    split_ifs at h <;> cases h <;> exact ⟨rfl, rfl, rfl, rfl, rfl⟩
  | polling | pollingResponses =>
    simp only [runnerStep, pc, Option.some.injEq] at h
    cases h
    exact ⟨rfl, rfl, rfl, rfl, rfl⟩
  | reading | draining | readingResponses =>
    simp only [runnerStep, pc, Option.some.injEq] at h
    cases h
    exact ⟨rfl, rfl, rfl, rfl, rfl⟩
  | popClis =>
    simp only [runnerStep, pc] at h
    split at h
    next conn nfd clis popped =>
      cases h
      -- the connection moves from the queue to the clients
      refine ⟨rfl, rfl, rfl, ?_, rfl⟩
      simp [held, (Mailbox.view_of_pop popped).1, newClient]
    next => cases h; exact ⟨rfl, rfl, rfl, rfl, rfl⟩
  | popResponses =>
    simp only [runnerStep, pc] at h
    split at h <;> cases h <;> exact ⟨rfl, rfl, rfl, rfl, rfl⟩
  | visiting i =>
    simp only [runnerStep, pc, Option.ite_none_right_eq_some, Option.some.injEq] at h
    obtain ⟨-, rfl⟩ := h
    exact ⟨rfl, rfl, rfl, rfl, rfl⟩
  | notifying i =>
    simp only [runnerStep, pc] at h
    obtain ⟨requests, -, rfl⟩ := Option.map_eq_some_iff.mp h
    exact ⟨rfl, rfl, rfl, rfl, rfl⟩
  | writing resp => simp [runnerStep, pc] at h
  | exited => simp [runnerStep, pc] at h

theorem pollerStep_undisturbed {malloc : Nat → UhttpHighResponse}
    (h : pollerStep s malloc = some s') : Undisturbed s s' := by
  unfold pollerStep at h
  split at h
  · split_ifs at h <;> cases h <;> exact ⟨rfl, rfl, rfl, rfl, rfl⟩
  · cases h; exact ⟨rfl, rfl, rfl, rfl, rfl⟩
  · cases h; exact ⟨rfl, rfl, rfl, rfl, rfl⟩
  · split at h <;> cases h <;> exact ⟨rfl, rfl, rfl, rfl, rfl⟩
  · cases h; exact ⟨rfl, rfl, rfl, rfl, rfl⟩
  · cases h; exact ⟨rfl, rfl, rfl, rfl, rfl⟩
  · obtain ⟨responses, -, rfl⟩ := Option.map_eq_some_iff.mp h
    exact ⟨rfl, rfl, rfl, rfl, rfl⟩
  · cases h

theorem accepterStep_undisturbed (h : accepterStep s = some s') : Undisturbed s s' := by
  unfold accepterStep at h
  split at h
  · cases h; exact ⟨rfl, rfl, rfl, rfl, rfl⟩
  · obtain ⟨clis, notified, rfl⟩ := Option.map_eq_some_iff.mp h
    refine ⟨rfl, rfl, rfl, ?_, rfl⟩
    rw [held, (Mailbox.view_notify notified).2]
    rfl
  · cases h
  · cases h

/-- A connection is accepted, or nothing happens to any. -/
theorem accept4_cases {result : AcceptResult} {malloc : Nat → Nat × NnetFd}
    (h : accept4 s result malloc = some s') :
    Undisturbed s s' ∨ ∃ rfd addr, s.kernel.get rfd = none ∧
      s' = { s with
        clis := s.clis.push malloc (s.accepted, ⟨rfd, addr, 16⟩)
        kernel := s.kernel.set rfd s.accepted
        accepted := s.accepted + 1
        accepter := .notifying } := by
  unfold accept4 at h
  split at h
  · cases h; exact .inl ⟨rfl, rfl, rfl, rfl, rfl⟩
  · cases h; exact .inl ⟨rfl, rfl, rfl, rfl, rfl⟩
  next rfd addr _ =>
    split_ifs at h with free
    exact .inr ⟨rfd, addr, free, (Option.some.inj h).symm⟩
  · cases h
  · cases h
  · cases h

/-! ## A connection that comes and one that goes -/

theorem held_accepted (s : Service σ) (malloc : Nat → Nat × NnetFd) (conn : Nat) (nfd : NnetFd)
    (kernel : AssocTable Int Nat) (accepted : Nat) (accepter : AccepterPc) :
    held { s with
        clis := s.clis.push malloc (conn, nfd)
        kernel := kernel
        accepted := accepted
        accepter := accepter } =
      s.held ++ [(conn, nfd.rfd)] := by
  simp [held, EventQueue.State.push]

theorem Tracked.accept (tracked : s.Tracked) {rfd : Int} {addr : SockaddrStorage}
    (free : s.kernel.get rfd = none) (malloc : Nat → Nat × NnetFd) :
    Tracked { s with
      clis := s.clis.push malloc (s.accepted, ⟨rfd, addr, 16⟩)
      kernel := s.kernel.set rfd s.accepted
      accepted := s.accepted + 1
      accepter := .notifying } := by
  obtain ⟨unique, current, single, fresh, asked⟩ := tracked
  -- `accept4` gives a descriptor that was not open, and the connection a number not used before
  have here := AssocTable.get_set_self s.kernel rfd s.accepted
  have elsewhere : ∀ fd, fd ≠ rfd → (s.kernel.set rfd s.accepted).get fd = s.kernel.get fd :=
    fun fd other => AssocTable.get_set_ne _ _ other
  constructor
  · rw [held_accepted, List.map_append, List.nodup_append]
    refine ⟨unique, List.nodup_singleton _, ?_⟩
    intro c old d new same
    obtain ⟨e, member, rfl⟩ := List.mem_map.mp old
    have := fresh _ _ (current e member)
    rw [List.mem_singleton.mp new] at same
    dsimp only at same
    omega
  · rw [held_accepted]
    intro e member
    rcases List.mem_append.mp member with old | new
    · have before := current e old
      have other : e.2 ≠ rfd := by
        intro same
        rw [same, free] at before
        cases before
      rw [elsewhere _ other]
      exact before
    · rw [List.mem_singleton.mp new]
      exact here
  · intro fd fd' conn open_ open'
    dsimp only at open_ open'
    by_cases new : fd = rfd
    · by_cases new' : fd' = rfd
      · rw [new, new']
      · rw [new, here, Option.some.injEq] at open_
        rw [elsewhere _ new'] at open'
        have := fresh _ _ open'
        omega
    · rw [elsewhere _ new] at open_
      have := fresh _ _ open_
      by_cases new' : fd' = rfd
      · rw [new', here, Option.some.injEq] at open'
        omega
      · rw [elsewhere _ new'] at open'
        exact single _ _ _ open_ open'
  · intro fd conn open_
    dsimp only at open_
    by_cases new : fd = rfd
    · rw [new, here, Option.some.injEq] at open_
      dsimp only
      omega
    · rw [elsewhere _ new] at open_
      exact Nat.lt_succ_of_lt (fresh _ _ open_)
  · exact fun e member => Nat.lt_succ_of_lt (asked e member)

/-- A new connection has a descriptor that none of those that wait has. -/
theorem reachAskers_accept (tracked : s.Tracked) {rfd : Int} {addr : SockaddrStorage}
    (free : s.kernel.get rfd = none) (malloc : Nat → Nat × NnetFd) :
    ReachAskers { s with
      clis := s.clis.push malloc (s.accepted, ⟨rfd, addr, 16⟩)
      kernel := s.kernel.set rfd s.accepted
      accepted := s.accepted + 1
      accepter := .notifying } ↔ s.ReachAskers := by
  refine and_congr_right fun _ => forall₂_congr fun e waits => ?_
  have old : e.1 < s.accepted := tracked.asked e (List.mem_of_mem_drop waits)
  by_cases same : e.2.nfd.rfd = rfd
  · rw [same, AssocTable.get_set_self, free]
    refine iff_of_false ?_ nofun
    rw [Option.some.injEq]
    omega
  · rw [AssocTable.get_set_ne _ _ same]

variable {i : Nat} {cli : Client}

theorem held_set (at_ : s.clients[i]? = some cli) {st : UhttpCliState} (nfd : st.nfd = cli.st.nfd)
    (clients : s'.clients = s.clients.set i { cli with st := st }) (clis : s'.clis = s.clis) :
    s'.held = s.held := by
  obtain ⟨inside, eq⟩ := List.getElem?_eq_some_iff.mp at_
  rw [held, held, clients, clis, List.map_set, nfd]
  congr 1
  apply List.ext_getElem?
  intro j
  rw [List.getElem?_set, List.getElem?_map]
  split_ifs with here below
  · rw [← here, at_]
    rfl
  · rw [List.length_map] at below
    exact absurd inside below
  · rfl

theorem mem_held (at_ : s.clients[i]? = some cli) : (cli.conn, cli.st.nfd.rfd) ∈ s.held :=
  List.mem_append_left _ (List.mem_map_of_mem (List.mem_of_getElem? at_))

theorem held_close (at_ : s.clients[i]? = some cli) :
    s.held.Perm ((cli.conn, cli.st.nfd.rfd) ::
      held { s with
        clients := s.clients.eraseIdx i
        kernel := s.kernel.remove cli.st.nfd.rfd }) := by
  obtain ⟨inside, eq⟩ := List.getElem?_eq_some_iff.mp at_
  have perm := (List.getElem_cons_eraseIdx_perm inside).symm
  rw [eq] at perm
  exact (perm.map fun cli : Client => (cli.conn, cli.st.nfd.rfd)).append_right _

theorem Tracked.close (tracked : s.Tracked) (at_ : s.clients[i]? = some cli) :
    Tracked { s with
      clients := s.clients.eraseIdx i
      kernel := s.kernel.remove cli.st.nfd.rfd } := by
  obtain ⟨unique, current, single, fresh, asked⟩ := tracked
  have perm := held_close at_
  have distinct := (perm.map Prod.fst).nodup_iff.mp unique
  rw [List.map_cons, List.nodup_cons] at distinct
  -- the client is gone from what is held, and its descriptor is free
  have old : ∀ e ∈ held { s with
      clients := s.clients.eraseIdx i
      kernel := s.kernel.remove cli.st.nfd.rfd }, e ∈ s.held :=
    fun e member => perm.mem_iff.mpr (List.mem_cons_of_mem _ member)
  have still : ∀ fd conn, (s.kernel.remove cli.st.nfd.rfd).get fd = some conn →
      s.kernel.get fd = some conn := by
    intro fd conn open_
    by_cases closed : fd = cli.st.nfd.rfd
    · rw [closed, AssocTable.get_remove_self] at open_
      cases open_
    · rwa [AssocTable.get_remove_ne closed] at open_
  refine ⟨distinct.2, ?_, ?_, fun fd conn open_ => fresh fd conn (still fd conn open_), asked⟩
  · intro e member
    have here := current e (old e member)
    have other : e.2 ≠ cli.st.nfd.rfd := by
      -- two clients with one descriptor would be one
      intro same
      rw [same, current _ (mem_held at_), Option.some.injEq] at here
      exact distinct.1 (here ▸ List.mem_map_of_mem member)
    rw [AssocTable.get_remove_ne other]
    exact here
  · exact fun fd fd' conn open_ open' => single fd fd' conn (still _ _ open_) (still _ _ open')

/-- What waits for a response can be reached afterwards if it could be before, and none of it came
    from the connection that is closed. -/
theorem reachAskers_close (tracked : s.Tracked) (at_ : s.clients[i]? = some cli) :
    ReachAskers { s with
      clients := s.clients.eraseIdx i
      kernel := s.kernel.remove cli.st.nfd.rfd } ↔
      s.ReachAskers ∧ ∀ e ∈ s.unanswered, e.1 ≠ cli.conn := by
  have held := tracked.current _ (mem_held at_)
  dsimp only at held
  rw [ReachAskers, ReachAskers, and_assoc, ← forall₂_and]
  refine and_congr_right fun _ => forall₂_congr fun e _ => ?_
  by_cases same : e.2.nfd.rfd = cli.st.nfd.rfd
  · rw [same, AssocTable.get_remove_self, held]
    refine iff_of_false nofun ?_
    rintro ⟨here, other⟩
    exact other (Option.some.inj here).symm
  · rw [AssocTable.get_remove_ne same]
    exact (and_iff_left_of_imp fun here eq => same (tracked.single _ _ _ here (eq ▸ held))).symm

/-! ## The steps -/

theorem runnerPollFails_undisturbed (h : Uhttp.runnerPollFails s = some s') : Undisturbed s s' := by
  unfold Uhttp.runnerPollFails at h
  split at h <;> cases h <;> exact ⟨rfl, rfl, rfl, rfl, rfl⟩

theorem pollerPollFails_undisturbed (h : Uhttp.pollerPollFails s = some s') : Undisturbed s s' := by
  unfold Uhttp.pollerPollFails at h
  split at h <;> cases h
  exact ⟨rfl, rfl, rfl, rfl, rfl⟩

theorem Inv.written_le (inv : Inv routes s) : s.written.length ≤ s.asked.length := by
  have length := inv.inOrder.given.length_eq
  simp only [line, List.length_take, List.length_map] at length
  omega

/-- The response that the runner writes is for the first request that waits. -/
theorem first_unanswered (inv : Inv routes s) {resp : UhttpHighResponse}
    (pc : s.runner = .writing resp) :
    ∃ conn req rest, s.unanswered = (conn, req) :: rest ∧ resp.nfd = req.nfd := by
  obtain ⟨pending, outstanding, matched⟩ := inv.inOrder.outstanding
  have ready : s.line.ready = resp :: (s.responses.view.items ++ s.poller.response) := by
    simp [line, pc, RunnerPc.response]
  rw [ready] at matched
  obtain ⟨req, pending, ⟨nfd, -⟩, -, rfl⟩ := List.forall₂_cons_right_iff.mp matched
  have waits : s.unanswered.map Prod.snd = req :: (pending ++ s.line.waiting) := by
    rw [unanswered, List.map_drop]
    simpa [ServiceLine.State.outstanding, line] using outstanding
  obtain ⟨⟨conn, req'⟩, rest, split, same, -⟩ := List.map_eq_cons_iff.mp waits
  exact ⟨conn, req', rest, split, by rw [nfd, ← same]⟩

theorem reachAskers_write {memory : Nat → UInt8} (inv : Inv routes s)
    (h : writeStep s memory = some s') : s'.ReachAskers ↔ s.ReachAskers := by
  obtain ⟨resp, data, pc, -, rfl⟩ := writeStep_cases h
  obtain ⟨conn, req, rest, split, nfd⟩ := first_unanswered inv pc
  -- the response is for the first request without an answer, so that pair moves to the written ones
  have first : s.asked[s.written.length]? = some (conn, req) := by
    have := congrArg List.head? split
    rwa [unanswered, List.head?_drop] at this
  have later : s.asked.drop (s.written.length + 1) = rest := by
    have := congrArg List.tail split
    rwa [unanswered, List.tail_drop] at this
  have length : (s.written.map (·.conn)).length
      = ((s.asked.take s.written.length).map fun e => some e.1).length := by
    have := inv.written_le
    simp only [List.length_map, List.length_take]
    omega
  simp only [ReachAskers, split, List.forall_mem_cons]
  simp only [unanswered, List.length_append, List.length_singleton, later, List.map_append,
    List.map_cons, List.map_nil, List.take_add_one, first, Option.toList_some, nfd,
      List.append_eq_append_iff_of_size_eq_left length, and_assoc,
    List.cons.injEq, and_true]

theorem step_tracked (tracked : s.Tracked) (h : s.step a = some s') : s'.Tracked := by
  cases a with
  | accepter => exact tracked.undisturbed (accepterStep_undisturbed h)
  | accept result malloc =>
    obtain same | ⟨rfd, addr, free, rfl⟩ := accept4_cases h
    · exact tracked.undisturbed same
    · exact tracked.accept free malloc
  | runner => exact tracked.undisturbed (runnerStep_undisturbed h)
  | runnerPollFails => exact tracked.undisturbed (runnerPollFails_undisturbed h)
  | write memory =>
    obtain ⟨resp, data, -, -, rfl⟩ := writeStep_cases h
    exact ⟨tracked.unique, tracked.current, tracked.single, tracked.fresh, tracked.asked⟩
  | visit read malloc =>
    obtain ⟨-, rfl⟩ | ⟨r, i, cli, st, -, -, at_, ⟨-, rfl⟩ | ⟨-, nfd, rfl | ⟨req, rfl⟩⟩⟩ :=
      visitStep_cases h
    · exact tracked
    · exact tracked.close at_
    · exact tracked.undisturbed ⟨rfl, rfl, rfl, held_set at_ nfd rfl rfl, rfl⟩
    · -- the request asked carries the connection of its client, which is still open
      have kept : Tracked { s with
          clients := s.clients.set i { cli with st := st }
          runner := .notifying i } :=
        tracked.undisturbed ⟨rfl, rfl, rfl, held_set at_ nfd rfl rfl, rfl⟩
      refine ⟨kept.unique, kept.current, kept.single, kept.fresh, fun e member => ?_⟩
      rcases List.mem_append.mp member with old | new
      · exact tracked.asked e old
      · rw [List.mem_singleton.mp new]
        exact tracked.fresh _ _ (tracked.current _ (mem_held at_))
  | poller malloc => exact tracked.undisturbed (pollerStep_undisturbed h)
  | pollerPollFails => exact tracked.undisturbed (pollerPollFails_undisturbed h)
  | outside ctx => cases h; exact tracked.undisturbed ⟨rfl, rfl, rfl, rfl, rfl⟩
  | stop => cases h; exact tracked.undisturbed ⟨rfl, rfl, rfl, rfl, rfl⟩

theorem reachAskers_ask (inv : Inv routes s) (tracked : s.Tracked) (at_ : s.clients[i]? = some cli)
    {req : UhttpHighRequest} (nfd : req.nfd = cli.st.nfd) (kernel : s'.kernel = s.kernel)
    (written : s'.written = s.written) (asked : s'.asked = s.asked ++ [(cli.conn, req)]) :
    s'.ReachAskers ↔ s.ReachAskers := by
  have held := tracked.current _ (mem_held at_)
  have le := inv.written_le
  rw [ReachAskers, ReachAskers, unanswered, kernel, written, asked,
    List.take_append_of_le_length le,
    List.drop_append_of_le_length le, List.forall_mem_append, List.forall_mem_singleton, nfd]
  exact and_congr_right fun _ => and_iff_left held

/-- A step keeps every request with its connection, unless it closes one that waits; what is lost
    once is not found again. -/
theorem reachAskers_step (inv : Inv routes s) (tracked : s.Tracked) (h : s.step a = some s') :
    s'.ReachAskers ↔ s.ReachAskers ∧ s.ClosesServed a := by
  -- only the end of a client can turn an answer from the one that asked
  have harmless (none_ : s.closing a = none) (same : s'.ReachAskers ↔ s.ReachAskers) :
      s'.ReachAskers ↔ s.ReachAskers ∧ s.ClosesServed a :=
    same.trans (and_iff_left fun cli eq => by rw [none_] at eq; cases eq).symm
  cases a with
  | accepter => exact harmless rfl (accepterStep_undisturbed h).reachAskers
  | accept result malloc =>
    refine harmless rfl ?_
    obtain same | ⟨rfd, addr, free, rfl⟩ := accept4_cases h
    · exact same.reachAskers
    · exact reachAskers_accept tracked free malloc
  | runner => exact harmless rfl (runnerStep_undisturbed h).reachAskers
  | runnerPollFails => exact harmless rfl (runnerPollFails_undisturbed h).reachAskers
  | write memory => exact harmless rfl (reachAskers_write inv h)
  | visit read malloc =>
    obtain ⟨rfl, rfl⟩ | ⟨r, i, cli, st, rfl, pc, at_, ⟨eq, rfl⟩ | ⟨eq, nfd, rfl | ⟨req, rfl⟩⟩⟩ :=
      visitStep_cases h
    · exact harmless rfl Iff.rfl
    · have closed : s.closing (.visit (some r) malloc) = some cli := by simp only [closing, pc, eq]
      rw [reachAskers_close tracked at_, ClosesServed]
      simp only [closed, Option.some.injEq, forall_eq']
    · exact harmless (by simp only [closing, pc, eq]) Iff.rfl
    · exact harmless (by simp only [closing, pc, eq])
        (reachAskers_ask inv tracked at_ rfl rfl rfl rfl)
  | poller malloc => exact harmless rfl (pollerStep_undisturbed h).reachAskers
  | pollerPollFails => exact harmless rfl (pollerPollFails_undisturbed h).reachAskers
  | outside ctx => cases h; exact harmless rfl Iff.rfl
  | stop => cases h; exact harmless rfl Iff.rfl

theorem uhttpServerRun_tracked (zeros : Zeros) (routes : List (UhttpRoute σ)) (ctx : σ) :
    (uhttpServerRun zeros routes ctx).Tracked where
  unique := List.nodup_nil
  current := by simp [held, uhttpServerRun]
  single := by simp [uhttpServerRun, AssocTable.get, AssocTable.find, AssocTable.empty]
  fresh := by simp [uhttpServerRun, AssocTable.get, AssocTable.find, AssocTable.empty]
  asked := by simp [uhttpServerRun]

/-- No thread is about to take what is in a queue, nothing is announced, and no thread is between a
    push and its notification. -/
def Settled (s : Service σ) : Prop :=
  ¬ s.poller.Takes ∧ ¬ s.runner.Takes ∧ s.requests.view.Quiet ∧ s.responses.view.Quiet

/-- A settled server has answered all requests if and only if none is in the queue. -/
theorem Inv.settled_iff (inv : Inv routes s) (settled : s.Settled) :
    s.written.length = s.asked.length ↔ s.requests.view.items = [] := by
  obtain ⟨poller, runner, -, responses⟩ := settled
  have noResponse := (inv.responses.resolve_left runner).empty responses
  have idlePoller : s.poller.request = [] ∧ s.poller.response = [] := by
    cases pc : s.poller <;>
      simp [pc, PollerPc.Takes, PollerPc.request, PollerPc.response] at poller ⊢
  have idleRunner : s.runner.response = [] := by
    cases pc : s.runner <;> simp [pc, RunnerPc.Takes, RunnerPc.response] at runner ⊢
  simpa [line, idleRunner, idlePoller, noResponse] using inv.inOrder.settled_iff

/-- What is written is built from the answer to the request; it is nothing if the builder fails. -/
def WrittenFor (routes : List (UhttpRoute σ)) (e : Nat × UhttpHighRequest) (w : Written) : Prop :=
  Answers routes e.2 w.resp ∧ ∃ memory, outgoing (uhttpBuildResponse memory w.resp.resp)
    = some w.data

theorem Inv.writtenFor (inv : Inv routes s) :
    List.Forall₂ (WrittenFor routes) (s.asked.take s.written.length) s.written := by
  have given := inv.inOrder.given
  simp only [line, List.length_map, ← List.map_take, List.forall₂_map_left_iff,
    List.forall₂_map_right_iff] at given
  have length := given.length_eq
  rw [List.forall₂_iff_get] at given ⊢
  refine ⟨length, fun i inside inside' =>
    ⟨given.2 i inside inside', inv.built _ (List.get_mem _ _)⟩⟩

end Service

open Service

variable {routes : List (UhttpRoute σ)}

theorem reached_inv {zeros : Zeros} {ctx : σ} {as : List (ServiceAction σ)} {s : Service σ}
    (h : Transition.run step (uhttpServerRun zeros routes ctx) as = some s) : Inv routes s :=
  Transition.run_invariant (fun _ _ _ inv next => step_inv inv next)
    (uhttpServerRun_inv zeros routes ctx) h

theorem reached_settled_iff {zeros : Zeros} {ctx : σ} {as : List (ServiceAction σ)} {s : Service σ}
    (h : Transition.run step (uhttpServerRun zeros routes ctx) as = some s) (settled : s.Settled) :
    s.written.length = s.asked.length ↔
      Transition.Meets step Hears (uhttpServerRun zeros routes ctx) as := by
  rw [(reached_inv h).settled_iff settled]
  refine ⟨hears_of_empty h, fun hears => ?_⟩
  have start : (uhttpServerRun zeros routes ctx).Announced :=
    .inr (EventQueue.State.covered_of_empty rfl)
  have announced : s.Announced :=
    Transition.run_invariant_where (fun _ _ _ announced good next =>
      step_announced announced good next) start hears h
  exact (announced.resolve_left settled.1).empty settled.2.2.1

/-- When all requests were answered, each answer went to the connection that asked if and only if
    no connection was closed while it waited. -/
theorem answers_reach_askers (zeros : Zeros) (routes : List (UhttpRoute σ)) (ctx : σ)
    (as : List (ServiceAction σ)) (s : Service σ)
    (h : Transition.run step (uhttpServerRun zeros routes ctx) as = some s)
    (answered : s.written.length = s.asked.length) :
    s.written.map (·.conn) = s.asked.map (fun e => some e.1) ↔
      Transition.Meets step ClosesServed (uhttpServerRun zeros routes ctx) as := by
  have exactly : s.ReachAskers ↔ Transition.Meets step ClosesServed
      (uhttpServerRun zeros routes ctx) as :=
    Transition.holds_iff_meets (I := fun s => Inv routes s ∧ s.Tracked)
      (fun _ _ _ inv next => ⟨step_inv inv.1 next, step_tracked inv.2 next⟩)
      (fun _ _ _ inv next => reachAskers_step inv.1 inv.2 next)
      ⟨uhttpServerRun_inv zeros routes ctx, uhttpServerRun_tracked zeros routes ctx⟩
      ⟨rfl, by simp [unanswered, uhttpServerRun]⟩ h
  rw [← exactly, ReachAskers, unanswered, answered, List.take_length, List.drop_length]
  simp

/-! ## A client that does not wait -/

def countingRoute : UhttpRoute Nat where
  path := Text.ascii "/"
  handler _ n :=
    (uhttpCreateResponse 200 (some (Text.ascii "OK")) (some (Text.ascii "Hello world")) 11
      .textPlain, n + 1)

def sampleZeros : Zeros :=
  ⟨(0, sampleClient), ⟨sampleClient, ⟨.unknown, [], [], none, 0, 0⟩⟩, ⟨sampleClient, pathNotFound⟩⟩

/-- A connection is accepted, with the descriptor 5. -/
def acceptFive : List (ServiceAction Nat) :=
  [.accepter, .accept (.accepted 5 .unspec) fun _ => sampleZeros.cli, .accepter]

def runnerSteps (n : Nat) : List (ServiceAction Nat) := List.replicate n .runner

/-- A client asks and closes its connection; another one is accepted, and then the first is
    answered. -/
def askAndLeave : List (ServiceAction Nat) :=
  acceptFive ++ runnerSteps 7 ++ [.visit (some (.chunk hostGetWhole)) fun _ =>
    sampleZeros.request] ++ runnerSteps 5 ++
    [.visit (some .closed) fun _ => sampleZeros.request] ++ acceptFive ++
    List.replicate 9 (.poller fun _ => sampleZeros.response) ++ runnerSteps 10 ++
      [.write fun _ => 0] ++ runnerSteps 1

theorem runs_askAndLeave :
    ∃ s, Transition.run step (uhttpServerRun sampleZeros [countingRoute] 0) askAndLeave = some s ∧
      s.asked.map Prod.fst = [0] ∧ s.written.map (·.conn) = [some 1] ∧ s.Settled := by
  have outcome : (Transition.run step (uhttpServerRun sampleZeros [countingRoute] 0)
      askAndLeave).map (fun s =>
      (s.asked.map Prod.fst, s.written.map (·.conn), [decide s.poller.Takes, decide s.runner.Takes],
        [s.requests.event, s.requests.between, s.responses.event, s.responses.between])) =
      some ([0], [some 1], [false, false], [0, 0, 0, 0]) := by
    decide +kernel
  obtain ⟨s, reached, eq⟩ := Option.map_eq_some_iff.mp outcome
  simp only [Prod.mk.injEq, List.cons.injEq, decide_eq_false_iff_not, and_true] at eq
  obtain ⟨asked, written, ⟨poller, runner⟩, event, between, event', between'⟩ := eq
  exact ⟨s, reached, asked, written, poller, runner, ⟨event, between⟩, event', between'⟩

/-- A client asks, and then a `poll` of the poller fails. -/
def askAndFail : List (ServiceAction Nat) :=
  acceptFive ++ runnerSteps 7 ++ [.visit (some (.chunk hostGetWhole)) fun _ =>
    sampleZeros.request] ++ runnerSteps 1 ++
    [.poller fun _ => sampleZeros.response, .pollerPollFails]

theorem runs_askAndFail :
    ∃ s, Transition.run step (uhttpServerRun sampleZeros [countingRoute] 0) askAndFail = some s ∧
      s.asked.length = 1 ∧ s.written.length = 0 ∧ s.Settled := by
  have outcome : (Transition.run step (uhttpServerRun sampleZeros [countingRoute] 0) askAndFail).map
      (fun s =>
      (s.asked.length, s.written.length, [decide s.poller.Takes, decide s.runner.Takes],
        [s.requests.event, s.requests.between, s.responses.event, s.responses.between])) =
      some (1, 0, [false, false], [0, 0, 0, 0]) := by
    decide +kernel
  obtain ⟨s, reached, eq⟩ := Option.map_eq_some_iff.mp outcome
  simp only [Prod.mk.injEq, List.cons.injEq, decide_eq_false_iff_not, and_true] at eq
  obtain ⟨asked, written, ⟨poller, runner⟩, event, between, event', between'⟩ := eq
  exact ⟨s, reached, asked, written, poller, runner, ⟨event, between⟩, event', between'⟩

/-- The answer goes to the connection that was accepted in place of the one that asked. -/
theorem answers_reach_askers_askAndLeave :
    ∃ s, Transition.run step (uhttpServerRun sampleZeros [countingRoute] 0) askAndLeave = some s ∧
      s.asked.map Prod.fst = [0] ∧ s.written.map (·.conn) = [some 1] ∧
      ¬ Transition.Meets step ClosesServed (uhttpServerRun sampleZeros [countingRoute] 0)
        askAndLeave := by
  obtain ⟨s, reached, asked, written, settled⟩ := runs_askAndLeave
  have answered : s.written.length = s.asked.length := by
    have := congrArg List.length asked
    have := congrArg List.length written
    simp_all
  refine ⟨s, reached, asked, written, fun meets => ?_⟩
  have right :=
    (answers_reach_askers sampleZeros [countingRoute] 0 askAndLeave s reached answered).mpr meets
  have asker : s.asked.map (fun e => some e.1) = [some 0] := by
    have := congrArg (List.map some) asked
    rwa [List.map_map] at this
  rw [written, asker] at right
  cases right

end Soter2.Uhttp
