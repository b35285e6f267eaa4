import Mathlib.Data.List.Basic
import Mathlib.Tactic.Common
import Soter2.Proxy.Replies

/-! # A session of the proxy (`proxy/src/socks5.c`, `quic/src/socks5_test.c`)

A client greets, asks for an address and is replied to; then its bytes go through a tunnel.
`Network` says what the resolver and the connects to the addresses lead to.

* `resolveLoop_eq` — a connect that completes is taken for one that failed.
* `session_exact` — what a client that asks for an address is sent, and which socket it is
  tunnelled to.
-/

namespace Soter2.Proxy

open Soter2.Lownet (Client Inet htons)

/-- `SOCKS5_AUTH_NO_AUTH`. -/
abbrev socks5AuthNoAuth : UInt8 := 0

/-- `SOCKS5_AUTH_NOT_ACCEPT`. -/
abbrev socks5AuthNotAccept : UInt8 := 0xff

/-! ## The greeting -/

/-- What the local variables hold before they are read into. -/
structure HelloLocals where
  clientHello : Nat → UInt8
  methods : Nat → UInt8

/-- `__stas5_handle_greeting`: its code, what the client is sent, and the socket. -/
def handleGreeting (cut : Nat → Nat) (locals : HelloLocals) (client : Client) :
    Option (Int × List UInt8 × Client) :=
  (client.readx cut 2 locals.clientHello).bind fun (r, clientHello, client) =>
    if r ≤ 0 then some (-1, [], client)
    else if clientHello 0 ≠ socks5Version then some (-1, [], client)
    else
      (client.readx cut (clientHello 1).toNat locals.methods).bind fun (r, methods, client) =>
        if r ≤ 0 then some (-1, [], client)
        else if (List.range (clientHello 1).toNat).any fun i => methods i = socks5AuthNoAuth then
          some (0, [socks5Version, socks5AuthNoAuth], client)
        else some (-1, [socks5Version, socks5AuthNotAccept], client)

/-! ## Connecting -/

/-- What becomes of a connect: a pending one is waited for, and has an error or none in the end. -/
inductive ConnectResult where
  | done
  | pending (tr : Int) (soError : Int)
  | failed

/-- `ln_tsock_connectx`. -/
def lnTsockConnectx : ConnectResult → Int
  | .done => 1
  | .pending tr soError => if tr ≤ 0 then tr else if soError ≠ 0 then -1 else 1
  | .failed => -1

/-- A connect to an address, with the descriptor that `ln_tsock_new` has for it. -/
structure Attempt where
  rfd : Int
  result : ConnectResult

structure Network where
  /-- The connect to an IP address. -/
  direct : List UInt8 → UInt16 → Attempt
  /-- The addresses that `getaddrinfo` has for a name, or its failure. -/
  getaddrinfo : List UInt8 → UInt16 → Option (List Attempt)

/-- The loop over the addresses of a name: the descriptor it ends with, and those it closes. -/
def resolveLoop : List Attempt → Option Int × List Int
  | [] => (none, [])
  | a :: ai =>
    if lnTsockConnectx a.result = 0 then (some a.rfd, [])
    else ((resolveLoop ai).1, a.rfd :: (resolveLoop ai).2)

/-- `prx_resolve_address`: the descriptor of the socket where it returns 0. -/
def prxResolveAddress (net : Network) : S5UniAddr → Option Int
  | .ip text port =>
    let a := net.direct text port
    if lnTsockConnectx a.result ≤ 0 then none else some a.rfd
  | .domain domain port _ =>
    (net.getaddrinfo domain port).bind fun addrInfo => (resolveLoop addrInfo).1

/-- `connection_handler`. -/
def connectionHandler (net : Network) (remoteAddress : S5UniAddr) : Int :=
  (prxResolveAddress net remoteAddress).getD (-1)

/-! ## The session -/

/-- How a session goes on: it is closed, or bytes pass between the client and a descriptor. -/
inductive Session where
  | closed (sent : List UInt8)
  | tunnel (sent : List UInt8) (rfd : Int)
deriving DecidableEq, Repr

/-- `__prx_socks5_tunnel_wrapper` up to its loop.  After a request that is not handled it closes a
    socket that was never set, which has no result, as a reply that does not fit has none. -/
def tunnelWrapper (inet : Inet) (net : Network) (cut : Nat → Nat) (hello : HelloLocals)
    (locals : Locals) (behind : List UInt8) (client : Client) : Option Session :=
  (handleGreeting cut hello client).bind fun (r, sent, client) =>
    if r ≠ 0 then some (.closed sent)
    else
      (prxSocks5HandleRequest inet cut locals client).bind fun (r, raddr, _) =>
        if 0 > r then none
        else
          raddr.bind fun raddr =>
            let rfd := connectionHandler net raddr
            (addressReply inet behind rfd raddr).map fun reply =>
              if rfd ≤ 0 then .closed (sent ++ reply) else .tunnel (sent ++ reply) rfd

/-! ## What a greeting leads to -/

/-- A greeting that offers these methods. -/
def greeting (methods : List UInt8) : List UInt8 :=
  socks5Version :: UInt8.ofNat methods.length :: methods

variable {inet : Inet} {cut : Nat → Nat} {methods later : List UInt8}

/-- A greeting is answered by the method without authentication, if it is offered. -/
theorem handleGreeting_whole (cut : Nat → Nat) (hello : HelloLocals) (later : List UInt8)
    (nonempty : methods ≠ []) (short : methods.length < 256) :
    ∃ reads, handleGreeting cut hello ⟨greeting methods ++ later, 0⟩ =
      some (if socks5AuthNoAuth ∈ methods
        then (0, [socks5Version, socks5AuthNoAuth], ⟨later, reads⟩)
        else (-1, [socks5Version, socks5AuthNotAccept], ⟨later, reads⟩)) := by
  have count : (UInt8.ofNat methods.length).toNat = methods.length := by
    rw [UInt8.toNat_ofNat', Nat.mod_eq_of_lt short]
  have positive : 0 < methods.length := List.length_pos_iff.mpr nonempty
  -- two bytes, then as many as the second of them says
  obtain ⟨first, reads₁, read, same⟩ :=
    Client.readx_whole cut hello.clientHello 0 (methods ++ later)
    (show [socks5Version, UInt8.ofNat methods.length].length = 2 from rfl) (by omega)
  obtain ⟨offered, reads₂, read', same'⟩ := Client.readx_whole cut hello.methods reads₁ later
    (show methods.length = methods.length from rfl) (by omega)
  have version : first 0 = socks5Version := same 0 (by omega)
  have number : (first 1).toNat = methods.length :=
    (congrArg UInt8.toNat (same 1 (by omega))).trans count
  -- the loop looks at each byte of the array that was read, so at each method offered
  have found : ((List.range methods.length).any fun i => offered i = socks5AuthNoAuth) = true ↔
      socks5AuthNoAuth ∈ methods := by
    rw [List.any_eq_true]
    constructor
    · rintro ⟨i, member, none_⟩
      have inside := List.mem_range.mp member
      rw [decide_eq_true_eq, same' i inside, List.getD_eq_getElem _ _ inside] at none_
      exact none_ ▸ List.getElem_mem inside
    · intro member
      obtain ⟨i, inside, none_⟩ := List.mem_iff_getElem.mp member
      refine ⟨i, List.mem_range.mpr inside, decide_eq_true ?_⟩
      rw [same' i inside, List.getD_eq_getElem _ _ inside, none_]
  have text : greeting methods ++ later = [socks5Version, UInt8.ofNat methods.length] ++
      (methods ++ later) := rfl
  refine ⟨reads₂, ?_⟩
  rw [handleGreeting, text, read, Option.bind_some]
  simp only [version, number, ne_eq, not_true, if_false, read', Option.bind_some]
  rw [if_neg (by omega), if_neg (by omega)]
  by_cases offers : socks5AuthNoAuth ∈ methods
  · rw [if_pos (found.mpr offers), if_pos offers]
  · rw [if_neg (found.not.mpr offers), if_neg offers]

theorem tunnelWrapper_eq (inet : Inet) (net : Network) (cut : Nat → Nat) (hello : HelloLocals)
    (locals : Locals) (behind later : List UInt8) (nonempty : methods ≠ [])
    (short : methods.length < 256) (req : Request) (reserved : UInt8) :
    tunnelWrapper inet net cut hello locals behind
      ⟨greeting methods ++ (req.wire reserved ++ later), 0⟩ =
      if socks5AuthNoAuth ∈ methods then
        (addressReply inet behind (connectionHandler net (req.uniAddr inet)) (req.uniAddr inet)).map
          fun reply =>
          if connectionHandler net (req.uniAddr inet) ≤ 0 then
            .closed ([socks5Version, socks5AuthNoAuth] ++ reply)
          else .tunnel ([socks5Version, socks5AuthNoAuth] ++ reply)
            (connectionHandler net (req.uniAddr inet))
      else some (.closed [socks5Version, socks5AuthNotAccept]) := by
  obtain ⟨reads, greeted⟩ := handleGreeting_whole cut hello (req.wire reserved ++ later) nonempty
    short
  obtain ⟨reads', accepted⟩ := request_accepted inet cut locals reads req reserved later
  rw [tunnelWrapper, greeted, Option.bind_some]
  -- turned away before a byte of the request is read
  by_cases offers : socks5AuthNoAuth ∈ methods
  · simp only [if_pos offers, ne_eq, not_true, if_false, accepted, Option.bind_some]
    rw [if_neg (by decide)]
  · simp only [if_neg offers]
    rw [if_pos (by decide)]

/-! ## What a connect leads to -/

/-- The connect is still pending when the wait for it ends. -/
def ConnectResult.TimedOut (r : ConnectResult) : Prop := lnTsockConnectx r = 0

/-- The connection is there. -/
def ConnectResult.Completed (r : ConnectResult) : Prop := 0 < lnTsockConnectx r

instance : DecidablePred ConnectResult.TimedOut := fun _ => inferInstanceAs (Decidable (_ = _))

instance : DecidablePred ConnectResult.Completed := fun _ => inferInstanceAs (Decidable (_ < _))

/-- The loop ends with the first address that does not answer in time, and closes the sockets of
    all before it, connected or not. -/
theorem resolveLoop_eq (attempts : List Attempt) :
    resolveLoop attempts = ((attempts.find? fun a => a.result.TimedOut).map Attempt.rfd,
      (attempts.takeWhile fun a => ¬ a.result.TimedOut).map Attempt.rfd) := by
  induction attempts with
  | nil => rfl
  | cons a attempts ih =>
    by_cases timedOut : a.result.TimedOut
    · rw [resolveLoop, if_pos (show lnTsockConnectx a.result = 0 from timedOut),
        List.find?_cons_of_pos (by simpa using timedOut),
        List.takeWhile_cons_of_neg (by simpa using timedOut)]
      rfl
    · rw [resolveLoop, if_neg (show ¬ lnTsockConnectx a.result = 0 from timedOut),
        List.find?_cons_of_neg (by simpa using timedOut),
        List.takeWhile_cons_of_pos (by simpa using timedOut), ih]
      rfl

/-- The socket that a request is tunnelled to: for an IP address the one that is connected, for a
    name that of the first address that does not answer in time. -/
def tunnelledTo (inet : Inet) (net : Network) : Request → Option Int
  | .ipv4 ip port =>
    let a := net.direct (inet.ntop4 ip) port
    if a.result.Completed then some a.rfd else none
  | .domain name port =>
    (net.getaddrinfo name.bytes port).bind fun addrInfo =>
      (addrInfo.find? fun a => a.result.TimedOut).map Attempt.rfd

theorem prxResolveAddress_eq (inet : Inet) (net : Network) (req : Request) :
    prxResolveAddress net (req.uniAddr inet) = tunnelledTo inet net req := by
  cases req with
  | ipv4 ip port =>
    simp only [prxResolveAddress, Request.uniAddr, tunnelledTo]
    by_cases completed : (net.direct (inet.ntop4 ip) port).result.Completed
    · exact (if_neg (Int.not_le.mpr completed)).trans (if_pos completed).symm
    · exact (if_pos (Int.not_lt.mp completed)).trans (if_neg completed).symm
  | domain name port => simp only [prxResolveAddress, Request.uniAddr, tunnelledTo, resolveLoop_eq]

/-! ## The whole session -/

/-- What the client is sent behind the greeting. -/
def reply (rfd : Option Int) (req : Request) : List UInt8 :=
  socks5Version :: replyCode (rfd.getD (-1)) :: 0 :: req.address

/-- The session that a greeting and a request lead to. -/
def sessionOf (inet : Inet) (net : Network) (methods : List UInt8) (req : Request) : Session :=
  if socks5AuthNoAuth ∈ methods then
    let sent := [socks5Version, socks5AuthNoAuth] ++ reply (tunnelledTo inet net req) req
    match tunnelledTo inet net req with
    | some rfd => if rfd ≤ 0 then .closed sent else .tunnel sent rfd
    | none => .closed sent
  else .closed [socks5Version, socks5AuthNotAccept]

theorem addressReply_eq (behind : List UInt8) (rfd : Int) (req : Request)
    (inverse : ∀ ip port, req = .ipv4 ip port → inet.pton4 (inet.ntop4 ip) = some ip) :
    (req.Fits → addressReply inet behind rfd (req.uniAddr inet)
        = some (socks5Version :: replyCode rfd :: 0 :: req.address)) ∧
      (¬ req.Fits → addressReply inet behind rfd (req.uniAddr inet) = none) := by
  cases req with
  | ipv4 ip port =>
    have text : inetAddr inet (inet.ntop4 ip) = ip.toList := by rw [inetAddr, inverse ip port rfl]
    rw [Request.uniAddr, addressReply, text,
      sendIpReply_eq _ (show ip.toList.length = 4 from Vector.length_toList)]
    exact ⟨fun _ => rfl, fun long => absurd trivial long⟩
  | domain name port =>
    have length : name.bytes.length = (UInt8.ofNat name.bytes.length).toNat := by
      rw [UInt8.toNat_ofNat', Nat.mod_eq_of_lt name.short]
    rw [Request.uniAddr, addressReply, Int.toNat_natCast, sendDomainReply_eq _ _ length,
      Request.Fits]
    exact ⟨fun fits => (if_pos fits).trans (by simp [Request.address]), fun long => if_neg long⟩

/-- However the network cuts the bytes of a client, it is replied to with the address that it asked
    for, and tunnelled to the socket of `tunnelledTo`; only a name of more than 251 bytes has no
    reply. -/
theorem session_exact (inet : Inet) (net : Network) (cut : Nat → Nat) (hello : HelloLocals)
    (locals : Locals) (behind methods later : List UInt8) (nonempty : methods ≠ [])
    (short : methods.length < 256) (req : Request) (reserved : UInt8)
    (inverse : ∀ ip port, req = .ipv4 ip port → inet.pton4 (inet.ntop4 ip) = some ip) :
    tunnelWrapper inet net cut hello locals behind
      ⟨greeting methods ++ (req.wire reserved ++ later), 0⟩
        = some (sessionOf inet net methods req) ↔
      (socks5AuthNoAuth ∈ methods → req.Fits) := by
  rw [tunnelWrapper_eq inet net cut hello locals behind later nonempty short, connectionHandler,
    prxResolveAddress_eq, sessionOf]
  by_cases offers : socks5AuthNoAuth ∈ methods
  swap
  · rw [if_neg offers, if_neg offers]
    -- turned away, whatever the request would have been
    exact iff_of_true rfl fun member => absurd member offers
  rw [if_pos offers, if_pos offers]
  -- the reply is the part that may not fit its buffer
  obtain ⟨fitting, overflowing⟩ := addressReply_eq behind ((tunnelledTo inet net req).getD (-1)) req
    inverse
  by_cases fits : req.Fits
  · refine iff_of_true ?_ fun _ => fits
    rw [fitting fits, Option.map_some]
    cases target : tunnelledTo inet net req with
    | none => rfl
    | some rfd =>
      simp only [Option.getD_some, reply]
  · rw [overflowing fits]
    exact iff_of_false (by simp) fun given => fits (given offers)

/-- A name of one letter. -/
def shortName : DomainName := ⟨[97], List.cons_ne_nil _ _, by decide, by decide⟩

/-- Of two addresses the first answers, and the second does not. -/
def sampleNetwork : Network where
  direct _ _ := ⟨3, .done⟩
  getaddrinfo _ _ := some [⟨4, .done⟩, ⟨5, .pending 0 0⟩]

/-- The client is tunnelled to the address that does not answer. -/
theorem session_exact_timedOut :
    tunnelWrapper Lownet.sampleInet sampleNetwork (fun _ => 0) ⟨fun _ => 0, fun _ => 0⟩
        ⟨fun _ => 0, fun _ => 0, fun _ => 0, fun _ => 0, fun _ => 0⟩ []
        ⟨greeting [2, 0] ++ (Request.wire (.domain shortName 80) 0 ++ []), 0⟩
      = some (.tunnel [5, 0, 5, 0, 0, 3, 1, 97, 0, 80] 5) := by
  have exact_ :=
    (session_exact Lownet.sampleInet sampleNetwork (fun _ => 0) ⟨fun _ => 0, fun _ => 0⟩
    ⟨fun _ => 0, fun _ => 0, fun _ => 0, fun _ => 0, fun _ => 0⟩ [] [2, 0] [] (by decide)
      (by decide) (.domain shortName 80) 0
    (fun _ _ other => nomatch other)).mpr fun _ => (by decide : [97].length ≤ 251)
  rw [exact_]
  rfl

end Soter2.Proxy
