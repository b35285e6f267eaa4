import Mathlib.Data.List.Basic
import Mathlib.Data.List.GetD
import Mathlib.Tactic.Common
import Soter2.Library.Drive
import Soter2.Natpunch.Resolution
import Soter2.Natpunch.Stun

/-! # The type of the NAT (`natpunch/src/nat.c`)

The loop of `nat_parallel_req` asks two servers at a time, until both have answered.  Of the socket
the model keeps what `bind` and `close` (`lownet/src/udp_sock.c`) do to it.
-/

namespace Soter2.Natpunch

open Soter2.Lownet (Address Inet Naddr NaddrType inet6Addrstrlen inetAddrstrlen sampleInet
  sampleText)

inductive NatType where
  | dynamic
  | static
  | symmetric
  | error
  deriving DecidableEq, Repr

def lnGport (addr : Naddr) : UInt16 :=
  if addr.t = NaddrType.ipv4.code then (addr.member inetAddrstrlen).port
  else if addr.t = NaddrType.ipv6.code then (addr.member inet6Addrstrlen).port
  else 0

/-- `ln_socket`. -/
structure LnSocket where
  opened : Bool
  bound : Bool
  addr : Naddr
  deriving DecidableEq

/-- `bind`, which fails on a socket that is closed or bound. -/
def LnSocket.bind (client : LnSocket) : Option LnSocket :=
  if client.opened && !client.bound then some { client with bound := true } else none

def lnUsockClose (client : LnSocket) : LnSocket := { client with opened := false, bound := false }

/-- What a turn of the loop gets from outside: `rand()`, and the datagram that comes when a server
    is asked, if one does. -/
structure Turn where
  rand : Nat
  firstReply : Naddr → Option (List UInt8)
  secondReply : Naddr → Option (List UInt8)

def Turn.port (turn : Turn) : UInt16 := UInt16.ofNat (1024 + turn.rand % 63000)

/-- The type, by the ports that the two servers have seen. -/
def typeOfPorts (first second port : UInt16) : NatType :=
  if first = second then if first = port then .static else .dynamic else .symmetric

/-- What `nat_get_type` returns, with the socket and `*type`. -/
structure GetType where
  code : Int
  client : LnSocket
  type : NatType

section

variable (inet : Inet) (behind : Nat → UInt8)

def natGetType (turn : Turn) (client : LnSocket) (firstStun secondStun : Naddr) (port : UInt16)
    (type : NatType) : GetType :=
  match client.bind with
  | none => ⟨-1, client, type⟩
  | some client =>
    let first := natpRequestStun inet behind client.addr (turn.firstReply firstStun)
    if 0 > first.code then ⟨-2, lnUsockClose { client with addr := first.addr }, type⟩
    else
      let second := natpRequestStun inet behind first.addr (turn.secondReply secondStun)
      if 0 > second.code then ⟨-3, lnUsockClose { client with addr := second.addr }, type⟩
      else ⟨0, { client with addr := second.addr },
        typeOfPorts (lnGport first.addr) (lnGport second.addr) port⟩

/-! ## The loop -/

/-- The variables of the loop. -/
structure Probe where
  firstI : Nat
  secondI : Nat
  client : LnSocket
  type : NatType

/-- An index after its increment, which skips the other one. -/
def skip (i other : Nat) : Nat := if i + 1 = other then i + 1 + 1 else i + 1

/-- A turn of the loop, over the addresses `q` that were resolved. -/
def probe (q : List Naddr) (p : Probe) (turn : Turn) : Probe ⊕ NatType :=
  let stun1 := q.getD p.firstI Naddr.zero
  let stun2 := q.getD p.secondI Naddr.zero
  let r := natGetType inet behind turn p.client stun1 stun2 turn.port p.type
  if r.code = 0 then .inr r.type
  -- `bind` has failed
  else if r.code = -1 then .inr r.type
  else if r.code = -2 then
    if skip p.firstI p.secondI ≥ q.length then .inr r.type
    else .inl ⟨skip p.firstI p.secondI, p.secondI, r.client, r.type⟩
  else if r.code = -3 then
    if skip p.secondI p.firstI ≥ q.length then .inr r.type
    else .inl ⟨p.firstI, skip p.secondI p.firstI, r.client, r.type⟩
  else .inl ⟨p.firstI, p.secondI, r.client, r.type⟩

def startProbe (client : LnSocket) : Probe := ⟨0, 1, client, .error⟩

/-- `nat_parallel_req` returns the type, once the addresses are resolved. -/
def Returns (q : List Naddr) (turns : Nat → Turn) (client : LnSocket) (type : NatType) : Prop :=
  if q.length < 2 then type = .error
  else Drive.Ends (probe inet behind q) turns (startProbe client) type

/-! ## What the detection is for -/

/-- The mapped address in the answer of a server. -/
def answer (reply : Option (List UInt8)) : Option Naddr :=
  let r := natpRequestStun inet behind Naddr.zero reply
  if r.code = 0 then some r.addr else none

/-- A server that is alive answers whenever it is asked, and any other never does. -/
def Consistent (alive : Naddr → Prop) (q : List Naddr) (turns : Nat → Turn) : Prop :=
  ∀ t, ∀ stun ∈ q, ((answer inet behind ((turns t).firstReply stun)).isSome ↔ alive stun) ∧
    ((answer inet behind ((turns t).secondReply stun)).isSome ↔ alive stun)

/-- The type comes from the answers of two servers of the list. -/
def FromTwo (q : List Naddr) (turns : Nat → Turn) (type : NatType) : Prop :=
  ∃ t i j first second, i < q.length ∧ j < q.length ∧ i ≠ j ∧
    answer inet behind ((turns t).firstReply (q.getD i Naddr.zero)) = some first ∧
    answer inet behind ((turns t).secondReply (q.getD j Naddr.zero)) = some second ∧
    type = typeOfPorts (lnGport first) (lnGport second) (turns t).port

/-- Every pair that is asked is one of two servers of the list, and the loop ends with a type that
    two answers gave. -/
structure Detects (q : List Naddr) (turns : Nat → Turn) (client : LnSocket) : Prop where
  pairs : ∀ t p, Drive.reached (probe inet behind q) turns (startProbe client) t = some p →
    p.firstI < q.length ∧ p.secondI < q.length ∧ p.firstI ≠ p.secondI
  returns : ∃ type, Returns inet behind q turns client type ∧ type ≠ .error ∧
    FromTwo inet behind q turns type

end

section

variable {inet : Inet} {behind : Nat → UInt8} {turn : Turn} {client : LnSocket} {q : List Naddr}
    {p : Probe}

/-! ## One request -/

theorem natpRequestStun_eq_answered (inet : Inet) (behind : Nat → UInt8)
    (reply : Option (List UInt8)) : ∃ reads found, ∀ addr,
    natpRequestStun inet behind addr reply = answered inet addr reads found := by
  cases reply with
  | none => exact ⟨[], none, fun _ => rfl⟩
  | some datagram =>
    by_cases response : IsResponse (received behind (stored datagram)) (stored datagram).length
    · exact ⟨_, _, fun addr => natpRequestStun_of_response inet addr response⟩
    · exact ⟨[], none, fun addr => by simp only [natpRequestStun, if_neg response]⟩

/-- A request gives the address of the answer, or fails and changes nothing. -/
theorem natpRequestStun_spec (inet : Inet) (behind : Nat → UInt8) (addr : Naddr)
    (reply : Option (List UInt8)) :
    match answer inet behind reply with
    | some found =>
      (natpRequestStun inet behind addr reply).code = 0 ∧
        (natpRequestStun inet behind addr reply).addr = found
    | none =>
      (natpRequestStun inet behind addr reply).code = -1 ∧
        (natpRequestStun inet behind addr reply).addr = addr := by
  obtain ⟨reads, found, all⟩ := natpRequestStun_eq_answered inet behind reply
  cases found <;> simp [answer, all, answered]

/-! ## One pair of servers -/

theorem bind_eq_some {c : LnSocket} (h : client.bind = some c) :
    client.opened = true ∧ client.bound = false ∧ c = { client with bound := true } := by
  unfold LnSocket.bind at h
  split at h
  next free =>
    simp only [Bool.and_eq_true, Bool.not_eq_true'] at free
    cases h
    exact ⟨free.1, free.2, rfl⟩
  next => cases h

theorem bind_of_free (opened : client.opened = true) (free : client.bound = false) :
    client.bind = some { client with bound := true } := by
  simp only [LnSocket.bind, opened, free, Bool.not_false, Bool.and_true, if_true]

theorem bind_lnUsockClose (client : LnSocket) : (lnUsockClose client).bind = none := rfl

variable {firstStun secondStun : Naddr} {c : LnSocket}

section

variable (port : UInt16) (type : NatType)

theorem natGetType_of_unbindable (h : client.bind = none) :
    natGetType inet behind turn client firstStun secondStun port type = ⟨-1, client, type⟩ := by
  rw [natGetType, h]

theorem natGetType_of_answers (h : client.bind = some c) {first second : Naddr}
    (one : answer inet behind (turn.firstReply firstStun) = some first)
    (two : answer inet behind (turn.secondReply secondStun) = some second) :
    natGetType inet behind turn client firstStun secondStun port type
      = ⟨0, { c with addr := second }, typeOfPorts (lnGport first) (lnGport second) port⟩ := by
  have request := natpRequestStun_spec inet behind c.addr (turn.firstReply firstStun)
  rw [one] at request
  have request' := natpRequestStun_spec inet behind first (turn.secondReply secondStun)
  rw [two] at request'
  simp only at request request'
  simp [natGetType, h, request.1, request.2, request'.1, request'.2]

theorem natGetType_of_silent (h : client.bind = some c)
    (silent : answer inet behind (turn.firstReply firstStun) = none ∨
      answer inet behind (turn.secondReply secondStun) = none) :
    ∃ code closed, (code = -2 ∨ code = -3) ∧
      natGetType inet behind turn client firstStun secondStun port type
        = ⟨code, lnUsockClose closed, type⟩ := by
  have request := natpRequestStun_spec inet behind c.addr (turn.firstReply firstStun)
  cases one : answer inet behind (turn.firstReply firstStun) with
  | none =>
    rw [one] at request
    simp only at request
    exact ⟨-2, c, .inl rfl, by simp [natGetType, h, request.1, request.2]⟩
  | some first =>
    -- the first has answered, so it is the second that is silent
    have two := silent.resolve_left (by simp [one])
    have request' := natpRequestStun_spec inet behind first (turn.secondReply secondStun)
    rw [one] at request
    rw [two] at request'
    simp only at request request'
    exact ⟨-3, { c with addr := first },
      .inr rfl, by simp [natGetType, h, request.1, request.2, request'.1, request'.2]⟩

end

/-! ## One turn -/

theorem probe_of_unbindable (h : p.client.bind = none) :
    probe inet behind q p turn = .inr p.type := by
  simp [probe, natGetType_of_unbindable _ _ h]

theorem probe_of_answers (h : p.client.bind = some c) {first second : Naddr}
    (one : answer inet behind (turn.firstReply (q.getD p.firstI Naddr.zero)) = some first)
    (two : answer inet behind (turn.secondReply (q.getD p.secondI Naddr.zero)) = some second) :
    probe inet behind q p turn = .inr (typeOfPorts (lnGport first) (lnGport second) turn.port) := by
  simp only [probe, natGetType_of_answers _ _ h one two, if_true]

/-- After a silent server the loop ends, or goes on with a closed socket. -/
theorem probe_of_silent (h : p.client.bind = some c)
    (silent : answer inet behind (turn.firstReply (q.getD p.firstI Naddr.zero)) = none ∨
      answer inet behind (turn.secondReply (q.getD p.secondI Naddr.zero)) = none) :
    probe inet behind q p turn = .inr p.type ∨
      ∃ next, probe inet behind q p turn = .inl next ∧ next.client.bind = none ∧
        next.type = p.type := by
  obtain ⟨code, closed, kind, get⟩ := natGetType_of_silent turn.port p.type h silent
  rw [probe, get]
  -- whichever server was silent, its index goes on and the socket is closed
  obtain rfl | rfl := kind
  · by_cases last : skip p.firstI p.secondI ≥ q.length
    · left
      simp [last]
    · right
      exact ⟨⟨skip p.firstI p.secondI, p.secondI, lnUsockClose closed, p.type⟩, by simp [last],
        bind_lnUsockClose closed, rfl⟩
  · by_cases last : skip p.secondI p.firstI ≥ q.length
    · left
      simp [last]
    · right
      exact ⟨⟨p.firstI, skip p.secondI p.firstI, lnUsockClose closed, p.type⟩, by simp [last],
        bind_lnUsockClose closed, rfl⟩

/-- Two servers of the list. -/
def Probe.Pair (p : Probe) (q : List Naddr) : Prop :=
  p.firstI < q.length ∧ p.secondI < q.length ∧ p.firstI ≠ p.secondI

theorem skip_ne (i other : Nat) : skip i other ≠ other := by
  unfold skip
  split <;> omega

theorem probe_pair (pair : p.Pair q) {next : Probe} (h : probe inet behind q p turn = .inl next) :
    next.Pair q := by
  obtain ⟨first, second, different⟩ := pair
  unfold probe at h
  simp only at h
  -- no type yet: another first server, another second one, or the same two once more
  split at h; · cases h
  split at h; · cases h
  split at h
  · split at h
    next => cases h
    next inside =>
      cases h
      exact ⟨Nat.not_le.mp inside, second, skip_ne _ _⟩
  split at h
  · split at h
    next => cases h
    next inside =>
      cases h
      exact ⟨first, Nat.not_le.mp inside, (skip_ne _ _).symm⟩
  · cases h
    exact ⟨first, second, different⟩

/-! ## The whole loop -/

variable {turns : Nat → Turn} {alive : Naddr → Prop}

theorem pair_of_reached (two : 2 ≤ q.length) {t : Nat}
    (h : Drive.reached (probe inet behind q) turns (startProbe client) t = some p) : p.Pair q :=
  Drive.reached_invariant (I := fun p => p.Pair q) (fun _ _ _ _ pair turn => probe_pair pair turn)
    ⟨by simp only [startProbe]; omega, two, Nat.zero_ne_one⟩ h

theorem ends_of_unbindable (h : client.bind = none) :
    Drive.Ends (probe inet behind q) turns (startProbe client) .error :=
  ⟨0, startProbe client, rfl, probe_of_unbindable h⟩

/-- The socket stays closed after a silent server, so that the next turn can only fail. -/
theorem ends_of_silent (h : client.bind = some c)
    (silent : answer inet behind ((turns 0).firstReply (q.getD 0 Naddr.zero)) = none ∨
      answer inet behind ((turns 0).secondReply (q.getD 1 Naddr.zero)) = none) :
    Drive.Ends (probe inet behind q) turns (startProbe client) .error := by
  obtain ended | ⟨next, goes, closed, type⟩ := probe_of_silent (p := startProbe client) h silent
  · exact ⟨0, startProbe client, rfl, ended⟩
  · refine ⟨1, next, Drive.reached_succ.mpr ⟨startProbe client, rfl, goes⟩, ?_⟩
    rw [probe_of_unbindable closed, type]
    rfl

theorem typeOfPorts_ne_error (first second port : UInt16) :
    typeOfPorts first second port ≠ .error := by
  unfold typeOfPorts
  split
  · split <;> decide
  · decide

/-- On a usable socket the first turn finds the type when both of its servers answer. -/
theorem detects_of_answers (length : 2 ≤ q.length) (opened : client.opened = true)
    (free : client.bound = false) {first second : Naddr}
    (one : answer inet behind ((turns 0).firstReply (q.getD 0 Naddr.zero)) = some first)
    (two : answer inet behind ((turns 0).secondReply (q.getD 1 Naddr.zero)) = some second) :
    Detects inet behind q turns client := by
  refine ⟨fun t p h => pair_of_reached length h, _, ?_,
    typeOfPorts_ne_error (lnGport first) (lnGport second) (turns 0).port,
    0, 0, 1, first, second, by omega, by omega, Nat.zero_ne_one, one, two, rfl⟩
  rw [Returns, if_neg (by omega)]
  exact ⟨0, startProbe client, rfl, probe_of_answers (bind_of_free opened free) one two⟩

/-- The loop has one result, which is an error unless both servers answer at once. -/
theorem answers_of_detects (length : 2 ≤ q.length) (detects : Detects inet behind q turns client) :
    client.opened = true ∧ client.bound = false ∧
      (answer inet behind ((turns 0).firstReply (q.getD 0 Naddr.zero))).isSome ∧
      (answer inet behind ((turns 0).secondReply (q.getD 1 Naddr.zero))).isSome := by
  obtain ⟨-, type, returns, noError, -⟩ := detects
  rw [Returns, if_neg (by omega)] at returns
  cases bound : client.bind with
  | none => exact absurd (returns.unique (ends_of_unbindable bound)) noError
  | some c =>
    obtain ⟨opened, free, -⟩ := bind_eq_some bound
    refine ⟨opened, free, ?_⟩
    by_contra dead
    have silent : answer inet behind ((turns 0).firstReply (q.getD 0 Naddr.zero)) = none ∨
        answer inet behind ((turns 0).secondReply (q.getD 1 Naddr.zero)) = none := by
      rw [not_and_or] at dead
      simpa using dead
    exact noError (returns.unique (ends_of_silent bound silent))

/-- The type is detected exactly if the first two servers are alive, on a socket that is open and
    not bound. -/
theorem detects_iff (consistent : Consistent inet behind alive q turns)
    (two : ∃ i j, i < j ∧ j < q.length ∧ alive (q.getD i Naddr.zero) ∧
      alive (q.getD j Naddr.zero)) :
    Detects inet behind q turns client ↔ client.opened = true ∧ client.bound = false ∧
      alive (q.getD 0 Naddr.zero) ∧ alive (q.getD 1 Naddr.zero) := by
  obtain ⟨i, j, before, inside, -, -⟩ := two
  have length : 2 ≤ q.length := by omega
  have member : ∀ k, k < q.length → q.getD k Naddr.zero ∈ q := by
    intro k inside
    rw [List.getD_eq_getElem _ _ inside]
    exact List.getElem_mem inside
  -- the first turn asks the first two servers, and no later one makes up for it
  have first := (consistent 0 _ (member 0 (by omega))).1
  have second := (consistent 0 _ (member 1 (by omega))).2
  rw [← first, ← second]
  constructor
  · exact answers_of_detects length
  · rintro ⟨opened, free, one, other⟩
    obtain ⟨_, one⟩ := Option.isSome_iff_exists.mp one
    obtain ⟨_, other⟩ := Option.isSome_iff_exists.mp other
    exact detects_of_answers length opened free one other

end

/-! ## Three servers -/

/-- A response with a complete address. -/
def sampleResponse : List UInt8 :=
  [0x01, 0x01, 0x00, 0x0C, 0x21, 0x12, 0xA4, 0x42, 0, 0, 0, 0, 0, 0, 0, 0, 0, 0, 0, 0,
    0x00, 0x20, 0x00, 0x08, 0x00, 0x01, 0x21, 0x12, 0x20, 0x10, 0xA7, 0x46]

/-- The server at a port of `1.2.3.4`. -/
def sampleStun (port : UInt16) : Naddr := (Address.ipv4 sampleText port).naddr

/-- All servers answer, but for the one at the port 1. -/
def sampleReply (stun : Naddr) : Option (List UInt8) :=
  if stun = sampleStun 1 then none else some sampleResponse

def sampleTurn : Turn := ⟨0, sampleReply, sampleReply⟩

/-- As `ln_usock_new` leaves it. -/
def sampleSocket : LnSocket := ⟨true, false, Naddr.zero⟩

theorem sampleStun_two : sampleStun 2 ≠ sampleStun 1 := by decide

theorem sampleStun_three : sampleStun 3 ≠ sampleStun 1 := by decide

theorem sampleReply_consistent (q : List Naddr) :
    Consistent sampleInet (fun _ => 0) (· ≠ sampleStun 1) q fun _ => sampleTurn := by
  have answers : ∀ stun, (answer sampleInet (fun _ => 0) (sampleReply stun)).isSome ↔
      stun ≠ sampleStun 1 := by
    intro stun
    by_cases dead : stun = sampleStun 1
    · rw [sampleReply, if_pos dead]
      exact iff_of_false (by decide) (fun other => other dead)
    · rw [sampleReply, if_neg dead]
      exact iff_of_true (by decide) dead
  exact fun _ stun _ => ⟨answers stun, answers stun⟩

theorem detects_iff_alive : Detects sampleInet (fun _ => 0) [sampleStun 2, sampleStun 3]
    (fun _ => sampleTurn) sampleSocket :=
  (detects_iff (sampleReply_consistent [sampleStun 2, sampleStun 3])
    ⟨0, 1, Nat.zero_lt_one, Nat.one_lt_two, sampleStun_two, sampleStun_three⟩).mpr
    ⟨rfl, rfl, sampleStun_two, sampleStun_three⟩

/-- With a silent server in front of two that are alive no type is detected. -/
theorem silent_server_stops_detection :
    let q := [sampleStun 1, sampleStun 2, sampleStun 3]
    Consistent sampleInet (fun _ => 0) (· ≠ sampleStun 1) q (fun _ => sampleTurn) ∧
      sampleStun 2 ≠ sampleStun 1 ∧ sampleStun 3 ≠ sampleStun 1 ∧
      ¬ Detects sampleInet (fun _ => 0) q (fun _ => sampleTurn) sampleSocket := by
  refine ⟨sampleReply_consistent _, sampleStun_two, sampleStun_three, ?_⟩
  rintro ⟨-, type, returns, noError, -⟩
  have ends : Drive.Ends (probe sampleInet (fun _ => 0) [sampleStun 1, sampleStun 2, sampleStun 3])
      (fun _ => sampleTurn)
      (startProbe sampleSocket) .error := ends_of_silent rfl (.inl (by decide))
  exact noError (returns.unique ends)

end Soter2.Natpunch
