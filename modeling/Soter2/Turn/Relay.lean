import Mathlib.Data.List.Basic
import Mathlib.Tactic.Common
import Soter2.Library.Transition
import Soter2.Turn.Client

/-! # The TURN handler and the holes it opens (`interface/src/handlers.c`)

A hole is the binding of a pair of UIDs: `turn_check_pair` looks for it under the hash of the
pair, and so does everything but the opening, which stores it under the UID of the sender.

* `holes_agree_iff` — which runs of requests leave the holes as their last requests say.
-/

namespace Soter2.Turn

open Soter2.Lownet Soter2.Protocol Soter2.Peers

/-- What the handler's two variables hold that nothing writes to before they are read. -/
structure Uninit where
  truid : UInt32
  status : UInt32

/-- `turn_client_unwrap_sys`.  It copies the two variables into the request, not the other
    way. -/
def turnClientUnwrapSys (cli : TurnClient) (request : TurnRequest) (vars : Uninit) :
    Int × TurnClient :=
  -- the size of the pointer `status`
  if request.dSize.toNat < 4 + 8 then (-1, cli)
  else if vars.truid ≠ TurnSysStatus.fail.code ∧ vars.truid ≠ TurnSysStatus.ok.code then (-1, cli)
  else if request.dSize.toNat - 8 > 500 then (0, cli)
  else (0, { cli with sysRequests := cli.sysRequests.set vars.truid vars.status })

structure TurnHandled where
  code : Int
  turn : TurnClient
  /-- The requests given to `turn_client_qsend`. -/
  answers : List TurnRequest
  /-- The packets given to `pvd_listener_pass`. -/
  passed : List (Protopack × NnetFd)

/-- `turn_client_req_sys` to the sender of a packet, whose address fits in its struct. -/
def answerSys (inet : Inet) (nfd : NnetFd) (toUid truid : UInt32) (status : TurnSysStatus) :
    TurnRequest :=
  (turnClientReqSys (lnNfd2addr inet nfd) toUid truid status).get
    (turnReqMake_isSome (lnNfd2addr_terminated inet nfd) _ _ _ _ _)

theorem data_answerSys (inet : Inet) (nfd : NnetFd) (toUid truid : UInt32)
    (status : TurnSysStatus) :
    (answerSys inet nfd toUid truid status).data = Words.bytes32 (htonl truid) ++
      Words.bytes32 status.code :=
  (turnReqMake_some
    (Option.some_get (turnReqMake_isSome (lnNfd2addr_terminated inet nfd) .systemMsg toUid truid
    (Words.bytes32 (htonl truid) ++ Words.bytes32 status.code) 8)).symm).2.1

def soter2HndTurn (ctx : AppContext) (db : PeersDb) (turn : TurnClient) (vars : Uninit)
    (pck : Protopack) (nfd : NnetFd) : TurnHandled :=
  match turnReqRecv pck.data pck.dSize with
  | none => ⟨-1, turn, [], []⟩
  | some trn =>
    let hsh := turnPairHash pck.hFrom trn.toUid
    let answer := answerSys ctx.inet nfd pck.hFrom trn.truid
    if trn.type = TurnRtype.closeHole.code then
      let (code, turn) := turnClientUnbind turn hsh
      -- the code is always 0
      if code < 0 then ⟨-1, turn, [answer .fail], []⟩ else ⟨0, turn, [answer .ok], []⟩
    else if trn.type = TurnRtype.openHole.code then
      if LightPeerInfo.layout.size ≠ trn.dSize.toNat then ⟨-1, turn, [answer .fail], []⟩
      else
        match peersDbGet db pck.hFrom with
        | none => ⟨-1, turn, [answer .fail], []⟩
        | some originInfo =>
          let bpeer : TurnBindPeer := {
            linfoConnected := LightPeerInfo.layout.ofImage trn.data
            linfoOrigin := peersDbLinfo ctx.inet originInfo }
          -- the key is not `hsh`
          ⟨0, turnClientBind turn pck.hFrom bpeer, [answer .ok], []⟩
    else if trn.type = TurnRtype.dataMsg.code then
      match turnClientUnwrap turn pck with
      | (_, none) => ⟨-1, turn, [], []⟩
      | (_, some outgoing) => ⟨0, turn, [], [(outgoing, nfd)]⟩
    else if trn.type = TurnRtype.systemMsg.code then
      let (code, turn) := turnClientUnwrapSys turn trn vars
      if code < 0 then ⟨-1, turn, [], []⟩ else ⟨0, turn, [], []⟩
    else ⟨0, turn, [], []⟩

/-! ## Requests for a hole -/

/-- A well-formed request to open or to close a hole, with what it meets at the relay. -/
structure HoleRequest where
  ctx : AppContext
  db : PeersDb
  vars : Uninit
  pck : Protopack
  nfd : NnetFd
  trn : TurnRequest
  received : turnReqRecv pck.data pck.dSize = some trn
  opens : Bool
  type : trn.type = (if opens then TurnRtype.openHole else TurnRtype.closeHole).code
  payload : opens = true → trn.dSize.toNat = LightPeerInfo.layout.size
  known : opens = true → (peersDbGet db pck.hFrom).isSome = true

namespace HoleRequest

variable (r : HoleRequest)

def sender : UInt32 := r.pck.hFrom

def target : UInt32 := r.trn.toUid

def key : UInt32 := turnPairHash r.sender r.target

def handle (turn : TurnClient) : TurnHandled := soter2HndTurn r.ctx r.db turn r.vars r.pck r.nfd

def answer (status : TurnSysStatus) : TurnRequest :=
  answerSys r.ctx.inet r.nfd r.sender r.trn.truid status

end HoleRequest

/-- A request that was handled, and the client it was handled by. -/
structure Exchange where
  request : HoleRequest
  before : TurnClient
  handled : TurnHandled

structure Relay where
  turn : TurnClient
  /-- The requests so far, the last one first. -/
  log : List Exchange

/-- `turn_client_init`; `truid` is what it gets from `rand()`. -/
def turnClientInit (turnSUid truid : UInt32) : TurnClient where
  truid := truid
  turnSUid := turnSUid
  bindedClients := AssocTable.empty
  sysRequests := AssocTable.empty

def Relay.init (turnSUid truid : UInt32) : Relay := ⟨turnClientInit turnSUid truid, []⟩

def relayStep (s : Relay) (r : HoleRequest) : Option Relay :=
  let handled := r.handle s.turn
  some ⟨handled.turn, ⟨r, s.turn, handled⟩ :: s.log⟩

/-- The last request for the key was one to open. -/
def lastOpens (log : List Exchange) (key : UInt32) : Bool :=
  (log.find? fun e => e.request.key = key).any fun e => e.request.opens

/-- A request to close was answered by what was there, and changed nothing where there was
    no hole. -/
def Exchange.AnsweredRight (e : Exchange) : Prop :=
  if turnCheckPair e.before e.request.sender e.request.target then
    e.handled.answers = [e.request.answer .ok]
  else
    e.handled.answers = [e.request.answer .fail] ∧
      e.handled.turn.bindedClients = e.before.bindedClients

structure HolesAgree (s : Relay) : Prop where
  check : ∀ u v, turnCheckPair s.turn u v = lastOpens s.log (turnPairHash u v)
  closed : ∀ e ∈ s.log, e.request.opens = false → e.AnsweredRight

def Bound (turn : TurnClient) (key : UInt32) : Prop := (turn.bindedClients.get key).isSome = true

/-- A request to open finds its pair's hole and the one it is stored under open already, where
    these are not the same; a request to close finds the hole open. -/
def KeepsHoles (s : Relay) (r : HoleRequest) : Prop :=
  if r.opens then
    r.key = r.sender ∨ Bound s.turn r.key ∧ ∀ u v, turnPairHash u v = r.sender →
      Bound s.turn r.sender
  else Bound s.turn r.key

/-! ## One request -/

section Requests

variable {turn : TurnClient} {r : HoleRequest} {key k : UInt32}

theorem answer_fail_ne_ok (r : HoleRequest) : r.answer .ok ≠ r.answer .fail := by
  intro same
  have data := congrArg TurnRequest.data same
  rw [HoleRequest.answer, HoleRequest.answer, data_answerSys, data_answerSys] at data
  have status : Words.bytes32 TurnSysStatus.ok.code = Words.bytes32 TurnSysStatus.fail.code :=
    congrArg (List.drop 4) data
  exact absurd status (by decide)

theorem turnCheckPair_iff {u v : UInt32} :
    turnCheckPair turn u v = true ↔ Bound turn (turnPairHash u v) := Iff.rfl

theorem bound_bind {peer : TurnBindPeer} :
    Bound (turnClientBind turn key peer) k ↔ k = key ∨ Bound turn k := by
  by_cases here : k = key
  · simp [Bound, turnClientBind, here]
  · simp [Bound, turnClientBind, AssocTable.get_set_ne _ _ here, here]

theorem bound_unbind : Bound (turnClientUnbind turn key).2 k ↔ k ≠ key ∧ Bound turn k := by
  by_cases here : k = key
  · simp [Bound, turnClientUnbind, here, AssocTable.get_remove_self]
  · simp [Bound, turnClientUnbind, AssocTable.get_remove_ne here, here]

theorem lastOpens_cons (e : Exchange) (log : List Exchange) (key : UInt32) :
    lastOpens (e :: log) key = if e.request.key = key then e.request.opens
      else lastOpens log key := by
  by_cases here : e.request.key = key <;> simp [lastOpens, here]

/-- To close a hole is always answered OK. -/
theorem handle_close (closes : r.opens = false) (turn : TurnClient) :
    r.handle turn = ⟨0, (turnClientUnbind turn r.key).2, [r.answer .ok], []⟩ := by
  have type := r.type
  rw [closes] at type
  simp only [HoleRequest.handle, soter2HndTurn, r.received, type]
  rfl

theorem handle_open (opens : r.opens = true) (turn : TurnClient) :
    ∃ peer, r.handle turn = ⟨0, turnClientBind turn r.sender peer, [r.answer .ok], []⟩ := by
  have type := r.type
  rw [opens] at type
  have notClose : TurnRtype.openHole.code ≠ TurnRtype.closeHole.code := by decide
  obtain ⟨originInfo, known⟩ := Option.isSome_iff_exists.mp (r.known opens)
  simp only [HoleRequest.handle, soter2HndTurn, r.received, type, if_true, if_neg notClose,
    r.payload opens, ne_eq, not_true, if_false, known]
  exact ⟨_, rfl⟩

end Requests

/-! ## Runs -/

section Steps

variable {s s' : Relay} {r : HoleRequest}

theorem HolesAgree.bound_iff (h : HolesAgree s) (u v : UInt32) :
    Bound s.turn (turnPairHash u v) ↔ lastOpens s.log (turnPairHash u v) = true := by
  rw [← h.check, turnCheckPair_iff]

theorem open_agrees_iff (h : HolesAgree s) (opens : r.opens = true)
    (step : relayStep s r = some s') :
    HolesAgree s' ↔
      r.key = r.sender ∨ Bound s.turn r.key ∧ ∀ u v, turnPairHash u v = r.sender →
        Bound s.turn r.sender := by
  obtain ⟨peer, handled⟩ := handle_open opens s.turn
  cases step
  have check : ∀ u v, (turnCheckPair (r.handle s.turn).turn u v
        = lastOpens (⟨r, s.turn, r.handle s.turn⟩ :: s.log) (turnPairHash u v)) ↔
      (turnPairHash u v = r.sender ∨ Bound s.turn (turnPairHash u v) ↔
        r.key = turnPairHash u v ∨ Bound s.turn (turnPairHash u v)) := by
    intro u v
    rw [handled, Bool.eq_iff_iff, turnCheckPair_iff, bound_bind, lastOpens_cons, h.bound_iff]
    by_cases here : r.key = turnPairHash u v <;> simp [here, opens]
  -- the two sides of `check` can only differ at the key written and at the pair's own
  constructor
  · intro agree
    by_cases same : r.key = r.sender
    · exact .inl same
    · refine .inr ⟨?_, ?_⟩
      · have own := (check r.sender r.target).mp (agree.check r.sender r.target)
        exact (own.mpr (.inl rfl)).resolve_left same
      · intro u v stored
        have other := (check u v).mp (agree.check u v)
        rw [stored] at other
        exact (other.mp (.inl rfl)).resolve_left same
  · intro keeps
    refine ⟨fun u v => (check u v).mpr ?_, ?_⟩
    · cases keeps with
      | inl same => rw [same, eq_comm]
      | inr both =>
        constructor
        · rintro (stored | bound)
          · exact .inr (stored ▸ both.2 u v stored)
          · exact .inr bound
        · rintro (own | bound)
          · exact .inr (own ▸ both.1)
          · exact .inr bound
    · intro e member closes
      cases List.mem_cons.mp member with
      | inl new => rw [new, opens] at closes; cases closes
      | inr old => exact h.closed e old closes

theorem close_agrees_iff (h : HolesAgree s) (closes : r.opens = false)
    (step : relayStep s r = some s') : HolesAgree s' ↔ Bound s.turn r.key := by
  have handled := handle_close closes s.turn
  cases step
  have answered : (⟨r, s.turn, r.handle s.turn⟩ : Exchange).AnsweredRight ↔ Bound s.turn r.key := by
    by_cases bound : Bound s.turn r.key
    · refine iff_of_true ?_ bound
      rw [Exchange.AnsweredRight, if_pos (turnCheckPair_iff.mpr bound), handled]
    · -- there was no hole, and the answer is OK all the same
      refine iff_of_false ?_ bound
      rw [Exchange.AnsweredRight, if_neg (mt turnCheckPair_iff.mp bound), handled]
      rintro ⟨answers, -⟩
      exact answer_fail_ne_ok r (List.cons.inj answers).1
  constructor
  · intro agree
    exact answered.mp (agree.closed _ List.mem_cons_self closes)
  · intro bound
    refine ⟨?_, ?_⟩
    · intro u v
      rw [handled, Bool.eq_iff_iff, turnCheckPair_iff, bound_unbind, lastOpens_cons, h.bound_iff]
      by_cases here : r.key = turnPairHash u v
      · simp [here, closes]
      · simp [here, Ne.symm here]
    · intro e member closes'
      cases List.mem_cons.mp member with
      | inl new => exact new ▸ answered.mpr bound
      | inr old => exact h.closed e old closes'

theorem step_agrees_iff (h : HolesAgree s) (step : relayStep s r = some s') :
    HolesAgree s' ↔ KeepsHoles s r := by
  cases opens : r.opens with
  | true => simpa only [KeepsHoles, opens, if_true] using open_agrees_iff h opens step
  | false =>
    simpa only [KeepsHoles, opens, Bool.false_eq_true, if_false] using close_agrees_iff h opens step

theorem holesAgree_init (turnSUid truid : UInt32) : HolesAgree (Relay.init turnSUid truid) :=
  ⟨fun _ _ => rfl, fun _ member => absurd member List.not_mem_nil⟩

end Steps

/-- From an empty relay: the holes are those that the last requests say, and the requests to
    close are answered right, all along a run, exactly when each of its requests keeps them. -/
theorem holes_agree_iff (turnSUid truid : UInt32) (requests : List HoleRequest) :
    (∀ done, done <+: requests → ∀ s, Transition.run relayStep (Relay.init turnSUid truid) done
      = some s →
      HolesAgree s) ↔
      Transition.Meets relayStep KeepsHoles (Relay.init turnSUid truid) requests :=
  Transition.always_iff_meets (fun _ _ => ⟨_, rfl⟩)
    (fun _ _ _ agree step => step_agrees_iff agree step)
    (holesAgree_init turnSUid truid)

-- there are such requests: the hash of this pair is the UID of its sender
example : turnPairHash 7 880088675 = 7 := by decide +kernel

/-- The bytes that the decoder reads as a request of peer 7 to open a hole to peer 6. -/
def openBytes : List UInt8 :=
  TurnRequest.readLayout.image ((Address.ipv4 sampleText 80).naddr, TurnRtype.openHole.code,
    htonl 140, htonl 6, 0) ++
    LightPeerInfo.layout.image (sampleLinfo 6 5)

def openRequest : HoleRequest where
  ctx := sampleContext
  db := peersDbAdd PeersDb.empty (peersDbReconstruct sampleInet 0 (sampleLinfo 7 3))
  vars := ⟨0, 0⟩
  pck := ⟨0, 0, 208, 7, 1, ProtopackType.turn.code, openBytes⟩
  nfd := ⟨3, .unspec, 0⟩
  trn := ⟨0, 6, 0, (Address.ipv4 sampleText 80).naddr, 140,
    LightPeerInfo.layout.image (sampleLinfo 6 5)⟩
  received := by decide +kernel
  opens := true
  type := rfl
  payload := fun _ => rfl
  known := fun _ => by decide +kernel

/-- Peer 7 opens a hole to peer 6, which is answered OK, and there is none. -/
theorem opened_not_found :
    (openRequest.handle (turnClientInit 1 0)).answers = [openRequest.answer .ok] ∧
      turnCheckPair (openRequest.handle (turnClientInit 1 0)).turn openRequest.sender
        openRequest.target = false := by
  decide +kernel

end Soter2.Turn
