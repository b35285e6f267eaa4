import Mathlib.Data.List.Basic
import Mathlib.Tactic.Common
import Soter2.Library.Words
import Soter2.Lownet.Client
import Soter2.Lownet.Netfd

/-! # SOCKS5 requests and replies (`proxy/src/socks5.c`)

`Request` is what a client may ask for, `Request.wire` the bytes it sends.  The request is read
piece by piece from the socket into local variables, which hold anything before.
-/

namespace Soter2.Proxy

open Soter2.E2ee (Bytes)
open Soter2.Lownet (Client Inet htons cString)
open Words (bytes16 word16)

/-! ## Requests -/

/-- `SOCKS5_VERSION`. -/
abbrev socks5Version : UInt8 := 5

/-- `SOCKS5_CMD_CONNECT`. -/
abbrev socks5CmdConnect : UInt8 := 1

/-- `SOCKS5_ATYP_IPV4`. -/
abbrev socks5AtypIpv4 : UInt8 := 1

/-- `SOCKS5_ATYP_DOMAIN_NAME`. -/
abbrev socks5AtypDomainName : UInt8 := 3

/-- A domain name whose length is a byte. -/
structure DomainName where
  bytes : List UInt8
  nonempty : bytes ≠ []
  noNul : 0 ∉ bytes
  short : bytes.length < 256

inductive Request where
  | ipv4 (ip : Bytes 4) (port : UInt16)
  | domain (name : DomainName) (port : UInt16)

/-- The address as it is sent: its type, itself and the port. -/
def Request.address : Request → List UInt8
  | .ipv4 ip port => socks5AtypIpv4 :: ip.toList ++ bytes16 (htons port)
  | .domain name port =>
    socks5AtypDomainName :: UInt8.ofNat name.bytes.length :: name.bytes ++ bytes16 (htons port)

def Request.wire (req : Request) (reserved : UInt8) : List UInt8 :=
  socks5Version :: socks5CmdConnect :: reserved :: req.address

/-- `s5_uni_addr`, with the text of an IP address or a domain up to its final zero. -/
inductive S5UniAddr where
  | ip (text : List UInt8) (port : UInt16)
  | domain (domain : List UInt8) (port : UInt16) (domainLen : Int)
  deriving DecidableEq

def Request.uniAddr (inet : Inet) : Request → S5UniAddr
  | .ipv4 ip port => .ip (inet.ntop4 ip) port
  | .domain name port => .domain name.bytes port name.bytes.length

/-! ## Reading a request -/

/-- What the local variables hold before they are read into. -/
structure Locals where
  req : Nat → UInt8
  ip : Nat → UInt8
  port : Nat → UInt8
  len : Nat → UInt8
  domain : Nat → UInt8

/-- `__stas5_recv_string`: the return value, the string and the socket. -/
def recvString (cut : Nat → Nat) (locals : Locals) (client : Client) :
    Option (Int × (Nat → UInt8) × Client) :=
  (client.readx cut 1 locals.len).bind fun (r, len, client) =>
    if r ≤ 0 then some (-1, locals.domain, client)
    else
      (client.readx cut (len 0).toNat locals.domain).bind fun (r, str, client) =>
        if r ≤ 0 then some (-1, str, client)
        else some ((len 0).toNat, fun i => if i = (len 0).toNat then 0 else str i, client)

/-- The two bytes of a port in memory, in host order. -/
def portOf (port : Nat → UInt8) : UInt16 := htons (word16 [port 0, port 1])

/-- What is left of the request behind the type of an IP address: the return value, `out_addr` where
    it is written, and the socket. -/
def handleIpv4 (inet : Inet) (cut : Nat → Nat) (locals : Locals) (client : Client) :
    Option (Int × Option S5UniAddr × Client) :=
  (client.readx cut 4 locals.ip).bind fun (r, ip, client) =>
    if r ≤ 0 then some (-1, none, client)
    else
      (client.readx cut 2 locals.port).bind fun (r, port, client) =>
        if r ≤ 0 then some (-1, none, client)
        else some (0, some (.ip (inet.ntop4 (Vector.ofFn fun i => ip i)) (portOf port)), client)

/-- The same behind the type of a domain name, which `strcpy` takes up to its first zero. -/
def handleDomain (cut : Nat → Nat) (locals : Locals) (client : Client) :
    Option (Int × Option S5UniAddr × Client) :=
  (recvString cut locals client).bind fun (domainLen, domain, client) =>
    if domainLen ≤ 0 then some (-1, none, client)
    else
      (client.readx cut 2 locals.port).bind fun (r, port, client) =>
        if r ≤ 0 then some (-1, none, client)
        else some (0,
          some (.domain (cString ((List.range 256).map domain)) (portOf port) domainLen), client)

def prxSocks5HandleRequest (inet : Inet) (cut : Nat → Nat) (locals : Locals) (client : Client) :
    Option (Int × Option S5UniAddr × Client) :=
  (client.readx cut 4 locals.req).bind fun (r, req, client) =>
    if r ≤ 0 then some (-1, none, client)
    else if req 0 ≠ socks5Version then some (-1, none, client)
    else if req 1 ≠ socks5CmdConnect then some (-1, none, client)
    else if req 3 = socks5AtypIpv4 then handleIpv4 inet cut locals client
    else if req 3 = socks5AtypDomainName then handleDomain cut locals client
    else some (-1, none, client)

variable {inet : Inet} {cut : Nat → Nat} {locals : Locals} {reads : Nat} {stream : List UInt8}

/-! ## A port -/

/-- Reading a port from what is left of the stream. -/
theorem readx_port (cut : Nat → Nat) (reads : Nat) (buf : Nat → UInt8) (rest : List UInt8) :
    ∃ port reads', Client.readx cut ⟨rest, reads⟩ 2 buf
      = some (((min 2 rest.length : Nat) : Int), port, ⟨rest.drop 2, reads'⟩) ∧
      ∀ p q later, rest = p :: q :: later → portOf port = htons (word16 [p, q]) := by
  obtain ⟨port, reads', read, same⟩ := Client.readx_eq (n := 2) cut ⟨rest, reads⟩ (by decide) buf
  refine ⟨port, reads', read, ?_⟩
  rintro p q later rfl
  have first : port 0 = p := same 0 (by decide) (by simp)
  have second : port 1 = q := same 1 (by decide) (by simp)
  rw [portOf, first, second]

theorem htons_wire (port : UInt16) :
    ∃ p q, bytes16 (htons port) = [p, q] ∧ htons (word16 [p, q]) = port :=
  ⟨_, _, rfl, by
    rw [show [_, _] = bytes16 (htons port) from rfl, Words.word16_bytes16]
    exact Words.swap16_swap16 port⟩

theorem bytes16_pair (p q : UInt8) : bytes16 (word16 [p, q]) = [p, q] := Words.bytes16_word16 rfl

/-! ## An IP address -/

/-- The request is not accepted. -/
def Fails (result : Option (Int × Option S5UniAddr × Client)) : Prop :=
  ∃ client, result = some (-1, none, client)

theorem handleIpv4_cut {rest : List UInt8} (short : rest.length ≤ 4) :
    Fails (handleIpv4 inet cut locals ⟨rest, reads⟩) := by
  obtain ⟨ip, reads₁, read, -⟩ := Client.readx_eq (n := 4) cut ⟨rest, reads⟩ (by decide) locals.ip
  obtain ⟨port, reads₂, readPort, -⟩ := readx_port cut reads₁ locals.port []
  rw [handleIpv4, read, List.drop_of_length_le short, Option.bind_some]
  simp only
  split
  · exact ⟨_, rfl⟩
  · rw [readPort, Option.bind_some]
    exact ⟨_, rfl⟩

theorem handleIpv4_whole (inet : Inet) (cut : Nat → Nat) (locals : Locals) (reads : Nat)
    (ip : Bytes 4) (rest : List UInt8) :
    ∃ port reads', handleIpv4 inet cut locals ⟨ip.toList ++ rest, reads⟩
        = (if min 2 rest.length = 0 then some (-1, none, ⟨rest.drop 2, reads'⟩)
          else some (0, some (.ip (inet.ntop4 ip) (portOf port)), ⟨rest.drop 2, reads'⟩)) ∧
      ∀ p q later, rest = p :: q :: later → portOf port = htons (word16 [p, q]) := by
  obtain ⟨buf, reads₁, read, same⟩ :=
    Client.readx_whole cut locals.ip reads rest
      (show ip.toList.length = 4 from Vector.length_toList) (by decide)
  obtain ⟨port, reads₂, readPort, value⟩ := readx_port cut reads₁ locals.port rest
  refine ⟨port, reads₂, ?_, value⟩
  have address : Vector.ofFn (fun i : Fin 4 => buf i) = ip := by
    apply Vector.ext
    intro i inside
    rw [Vector.getElem_ofFn, same i inside, List.getD_eq_getElem _ _ (by simpa using inside),
      Vector.getElem_toList]
  rw [handleIpv4, read, Option.bind_some]
  simp only
  rw [if_neg (by decide), readPort, Option.bind_some]
  simp only [address]
  exact if_congr (by omega) rfl rfl

/-! ## A domain name -/

theorem recvString_eq (cut : Nat → Nat) (locals : Locals) (reads : Nat) (n : UInt8)
    (rest : List UInt8) :
    ∃ str reads', recvString cut locals ⟨n :: rest, reads⟩
        = (if min n.toNat rest.length = 0 then some (-1, str, ⟨rest.drop n.toNat, reads'⟩)
          else some ((n.toNat : Int), fun i => if i = n.toNat then 0 else str i,
            ⟨rest.drop n.toNat, reads'⟩)) ∧
      ∀ i, i < n.toNat → i < rest.length → str i = rest.getD i 0 := by
  obtain ⟨len, reads₁, read, same⟩ :=
    Client.readx_whole cut locals.len reads rest (show [n].length = 1 from rfl) (by decide)
  have length : len 0 = n := same 0 (by decide)
  have small := n.toNat_lt
  obtain ⟨str, reads₂, readStr, same'⟩ :=
    Client.readx_eq (n := n.toNat) cut ⟨rest, reads₁⟩ (by omega) locals.domain
  refine ⟨str, reads₂, ?_, same'⟩
  rw [recvString, ← List.singleton_append, read, Option.bind_some]
  simp only [length]
  rw [if_neg (by decide), readStr, Option.bind_some]
  exact if_congr Int.natCast_nonpos_iff rfl rfl

theorem handleDomain_cut {n : UInt8} {rest : List UInt8}
    (short : n.toNat = 0 ∨ rest.length ≤ n.toNat) :
    Fails (handleDomain cut locals ⟨n :: rest, reads⟩) := by
  obtain ⟨str, reads₁, received, -⟩ := recvString_eq cut locals reads n rest
  obtain ⟨port, reads₂, readPort, -⟩ := readx_port cut reads₁ locals.port (rest.drop n.toNat)
  rw [handleDomain, received]
  split
  next => exact ⟨_, rfl⟩
  next some_ =>
    have nothing : rest.drop n.toNat = [] := List.drop_of_length_le (by omega)
    simp only [Option.bind_some]
    rw [if_neg (by omega), readPort, nothing]
    exact ⟨_, rfl⟩

theorem handleDomain_empty : Fails (handleDomain cut locals ⟨[], reads⟩) := by
  obtain ⟨len, reads₁, read⟩ :=
    Client.readx_short cut locals.len reads (show [].length < 1 by decide) (by decide)
  rw [handleDomain, recvString, read]
  exact ⟨_, rfl⟩

/-- The string is taken up to its first zero, and a byte is enough for a port. -/
theorem handleDomain_whole (cut : Nat → Nat) (locals : Locals) (reads : Nat) {n : UInt8}
    {name rest : List UInt8} (length : name.length = n.toNat) (positive : n.toNat ≠ 0)
    (more : rest ≠ []) :
    ∃ (str port : Nat → UInt8) (reads' : Nat), handleDomain cut locals ⟨n :: (name ++ rest), reads⟩
        = some (0,
          some (.domain (cString ((List.range 256).map fun i => if i = n.toNat then 0 else str i))
            (portOf port)
            n.toNat), ⟨rest.drop 2, reads'⟩) ∧
      (∀ i < n.toNat, str i = name.getD i 0) ∧
      ∀ p q later, rest = p :: q :: later → portOf port = htons (word16 [p, q]) := by
  obtain ⟨str, reads₁, received, same⟩ := recvString_eq cut locals reads n (name ++ rest)
  have left : (name ++ rest).drop n.toNat = rest := List.drop_left' length
  have some_ : rest.length ≠ 0 := fun zero => more (List.eq_nil_of_length_eq_zero zero)
  obtain ⟨port, reads₂, readPort, value⟩ := readx_port cut reads₁ locals.port rest
  refine ⟨str, port, reads₂, ?_, fun i below => ?_, value⟩
  · rw [handleDomain, received, if_neg (by rw [List.length_append]; omega), left]
    simp only [Option.bind_some]
    rw [if_neg (by omega), readPort]
    simp only [Option.bind_some]
    rw [if_neg (by omega)]
  · rw [same i below (by rw [List.length_append]; omega), List.getD_append _ _ _ _ (by omega)]

theorem cString_name {str : Nat → UInt8} {name : List UInt8} (short : name.length < 256)
    (noNul : 0 ∉ name) (same : ∀ i < name.length, str i = name.getD i 0) :
    cString ((List.range 256).map fun i => if i = name.length then 0 else str i) = name := by
  obtain ⟨left, size⟩ : ∃ left, 256 = name.length + (left + 1) := ⟨255 - name.length, by omega⟩
  have first : (List.range name.length).map (fun i => if i = name.length then 0 else str i)
      = name := by
    apply List.ext_getElem (by simp)
    intro i _ inside
    rw [List.getElem_map, List.getElem_range, if_neg (Nat.ne_of_lt inside), same i inside,
      List.getD_eq_getElem _ _ inside]
  have clean : ∀ c ∈ name, decide (c ≠ 0) = true := by
    intro c member
    rw [decide_eq_true_iff]
    rintro rfl
    exact noNul member
  rw [size, List.range_add, List.map_append, first, cString, List.takeWhile_append_of_pos clean,
    List.range_succ_eq_map]
  simp

/-! ## The whole request -/

theorem header_eq (inet : Inet) (cut : Nat → Nat) (locals : Locals) (reads : Nat) (v c r t : UInt8)
    (rest : List UInt8) :
    ∃ reads', prxSocks5HandleRequest inet cut locals ⟨v :: c :: r :: t :: rest, reads⟩
      = if v ≠ socks5Version then some (-1, none, ⟨rest, reads'⟩)
        else if c ≠ socks5CmdConnect then some (-1, none, ⟨rest, reads'⟩)
        else if t = socks5AtypIpv4 then handleIpv4 inet cut locals ⟨rest, reads'⟩
        else if t = socks5AtypDomainName then handleDomain cut locals ⟨rest, reads'⟩
        else some (-1, none, ⟨rest, reads'⟩) := by
  obtain ⟨req, reads', read, same⟩ :=
    Client.readx_whole cut locals.req reads rest (show [v, c, r, t].length = 4 from rfl) (by decide)
  have version : req 0 = v := same 0 (by decide)
  have command : req 1 = c := same 1 (by decide)
  have addrType : req 3 = t := same 3 (by decide)
  refine ⟨reads', ?_⟩
  have split_ : v :: c :: r :: t :: rest = [v, c, r, t] ++ rest := rfl
  rw [split_, prxSocks5HandleRequest, read, Option.bind_some]
  simp only [version, command, addrType]
  rw [if_neg (by decide)]

theorem header_cut (short : stream.length < 4) :
    Fails (prxSocks5HandleRequest inet cut locals ⟨stream, reads⟩) := by
  obtain ⟨req, reads₁, read⟩ := Client.readx_short cut locals.req reads short (by decide)
  -- whatever the missing bytes are taken for, there is nothing behind them
  obtain ⟨ip, ipFails⟩ : Fails (handleIpv4 inet cut locals ⟨[], reads₁⟩) :=
    handleIpv4_cut (by decide)
  obtain ⟨domain, domainFails⟩ : Fails (handleDomain cut locals ⟨[], reads₁⟩) := handleDomain_empty
  rw [prxSocks5HandleRequest, read, Option.bind_some]
  simp only [ipFails, domainFails]
  repeat' split
  all_goals exact ⟨_, rfl⟩

/-- The stream starts with a complete request. -/
def Complete (stream : List UInt8) : Prop :=
  ∃ reserved req later, stream = Request.wire req reserved ++ later

/-- The stream ends in the port of a request, or the name in it has a zero. -/
def Slips (stream : List UInt8) : Prop :=
  (∃ reserved ip p, ip.length = 4 ∧ stream = socks5Version :: socks5CmdConnect :: reserved ::
    socks5AtypIpv4 :: (ip ++ [p])) ∨
  ∃ (reserved n : UInt8) (name : List UInt8) (p : UInt8) (later : List UInt8), n.toNat ≠ 0 ∧
    name.length = n.toNat ∧
    stream = socks5Version :: socks5CmdConnect :: reserved :: socks5AtypDomainName :: n ::
      (name ++ p :: later) ∧
    (later = [] ∨ 0 ∈ name)

/-- A complete request is accepted, and no byte behind it is taken. -/
theorem request_accepted (inet : Inet) (cut : Nat → Nat) (locals : Locals) (reads : Nat)
    (req : Request) (reserved : UInt8) (later : List UInt8) :
    ∃ reads', prxSocks5HandleRequest inet cut locals ⟨req.wire reserved ++ later, reads⟩
      = some (0, some (req.uniAddr inet), ⟨later, reads'⟩) := by
  cases req with
  | ipv4 ip port =>
    obtain ⟨p, q, sent, value⟩ := htons_wire port
    obtain ⟨reads₁, header⟩ := header_eq inet cut locals reads
      socks5Version socks5CmdConnect reserved socks5AtypIpv4 (ip.toList ++ p :: q :: later)
    obtain ⟨buf, reads₂, whole, received⟩ :=
      handleIpv4_whole inet cut locals reads₁ ip (p :: q :: later)
    refine ⟨reads₂, ?_⟩
    have wire : Request.wire (.ipv4 ip port) reserved ++ later
        = socks5Version :: socks5CmdConnect :: reserved :: socks5AtypIpv4 ::
          (ip.toList ++ p :: q :: later) := by
      simp [Request.wire, Request.address, sent]
    rw [wire, header, if_neg (by simp), if_neg (by simp), if_pos rfl, whole, if_neg (by simp),
      received p q later rfl, value]
    rfl
  | domain name port =>
    obtain ⟨p, q, sent, value⟩ := htons_wire port
    -- the length of a name fits its byte
    have length : name.bytes.length = (UInt8.ofNat name.bytes.length).toNat := by
      rw [UInt8.toNat_ofNat', Nat.mod_eq_of_lt name.short]
    have positive : (UInt8.ofNat name.bytes.length).toNat ≠ 0 := by
      rw [← length]
      exact fun zero => name.nonempty (List.eq_nil_of_length_eq_zero zero)
    obtain ⟨reads₁, header⟩ := header_eq inet cut locals reads
      socks5Version socks5CmdConnect reserved socks5AtypDomainName
      (UInt8.ofNat name.bytes.length :: (name.bytes ++ p :: q :: later))
    obtain ⟨str, buf, reads₂, whole, same, received⟩ :=
      handleDomain_whole cut locals reads₁ length positive (List.cons_ne_nil p (q :: later))
    refine ⟨reads₂, ?_⟩
    have wire : Request.wire (.domain name port) reserved ++ later
        = socks5Version :: socks5CmdConnect :: reserved :: socks5AtypDomainName ::
          UInt8.ofNat name.bytes.length :: (name.bytes ++ p :: q :: later) := by
      simp [Request.wire, Request.address, sent]
    rw [← length] at whole same
    rw [wire, header, if_neg (by simp), if_neg (by simp), if_neg (by decide), if_pos rfl, whole,
      cString_name name.short name.noNul same, received p q later rfl, value]
    rfl

theorem slips_accepted (inet : Inet) (cut : Nat → Nat) (locals : Locals) (reads : Nat)
    (h : Slips stream) :
    ∃ addr client, prxSocks5HandleRequest inet cut locals ⟨stream, reads⟩
      = some (0, some addr, client) := by
  obtain ⟨reserved, ip, p, four, rfl⟩ | ⟨reserved, n, name, p, later, positive, length, rfl, -⟩ := h
  · obtain ⟨reads₁, header⟩ := header_eq inet cut locals reads
      socks5Version socks5CmdConnect reserved socks5AtypIpv4 (ip ++ [p])
    obtain ⟨ip', rfl⟩ : ∃ ip' : Bytes 4, ip = ip'.toList :=
      ⟨⟨ip.toArray, by simpa using four⟩, by simp⟩
    obtain ⟨buf, reads₂, whole, -⟩ :=
      handleIpv4_whole inet cut locals reads₁ ip' [p]
    exact ⟨_,
      _, by rw [header, if_neg (by simp), if_neg (by simp), if_pos rfl, whole, if_neg (by simp)]⟩
  · obtain ⟨reads₁, header⟩ := header_eq inet cut locals reads
      socks5Version socks5CmdConnect reserved socks5AtypDomainName (n :: (name ++ p :: later))
    obtain ⟨str, buf, reads₂, whole, -⟩ :=
      handleDomain_whole cut locals reads₁ length positive (List.cons_ne_nil p later)
    exact ⟨_,
      _, by rw [header, if_neg (by simp), if_neg (by simp), if_neg (by decide), if_pos rfl, whole]⟩

theorem slips_incomplete (h : Slips stream) : ¬ Complete stream := by
  rintro ⟨reserved', req, rest, rfl⟩
  obtain ⟨reserved, ip, p, four, same⟩
    | ⟨reserved, n, name, p, later, positive, length, same, bad⟩ := h
  · cases req with
    | ipv4 ip' port =>
      have sizes := congrArg List.length same
      simp [Request.wire, Request.address, four] at sizes
      omega
    | domain name port =>
      -- the address types differ
      have types : socks5AtypDomainName = socks5AtypIpv4 := by
        simp only [Request.wire, Request.address, List.cons_append, List.cons.injEq] at same
        exact same.2.2.2.1
      exact absurd types (by decide)
  · cases req with
    | ipv4 ip port =>
      have types : socks5AtypIpv4 = socks5AtypDomainName := by
        simp only [Request.wire, Request.address, List.cons_append, List.cons.injEq] at same
        exact same.2.2.2.1
      exact absurd types (by decide)
    | domain name' port =>
      obtain ⟨-, count, same⟩ : reserved' = reserved ∧ UInt8.ofNat name'.bytes.length = n ∧
          name'.bytes ++ (bytes16 (htons port) ++ rest) = name ++ p :: later := by
        simpa [Request.wire, Request.address] using same
      have equal : name'.bytes.length = name.length := by
        rw [length, ← count, UInt8.toNat_ofNat', Nat.mod_eq_of_lt name'.short]
      -- as long a name leaves a whole port behind it, not one byte
      obtain ⟨rfl, ports⟩ := List.append_inj same equal
      obtain rfl | zero := bad
      · have sizes := congrArg List.length ports
        rw [List.length_append, Words.length_bytes16, List.length_singleton] at sizes
        omega
      · exact name'.noNul zero

theorem ipv4_cases (reserved : UInt8) (rest : List UInt8) :
    let stream := socks5Version :: socks5CmdConnect :: reserved :: socks5AtypIpv4 :: rest
    Fails (handleIpv4 inet cut locals ⟨rest, reads⟩) ∨ Slips stream ∨ Complete stream := by
  by_cases short : rest.length ≤ 4
  · exact .inl (handleIpv4_cut short)
  -- the address, and one or more bytes behind it
  obtain ⟨ip, behind, rfl, four⟩ : ∃ ip behind, rest = ip ++ behind ∧ ip.length = 4 :=
    ⟨rest.take 4, rest.drop 4, by simp, by simp; omega⟩
  rw [List.length_append, four] at short
  match behind with
  | [] => simp at short
  | [p] => exact .inr (.inl (.inl ⟨reserved, ip, p, four, rfl⟩))
  | p :: q :: later =>
    refine .inr
      (.inr ⟨reserved, .ipv4 ⟨ip.toArray, by simpa using four⟩ (htons (word16 [p, q])), later, ?_⟩)
    simp [Request.wire, Request.address, bytes16_pair]

theorem domain_cases (reserved : UInt8) (rest : List UInt8) :
    let stream := socks5Version :: socks5CmdConnect :: reserved :: socks5AtypDomainName :: rest
    Fails (handleDomain cut locals ⟨rest, reads⟩) ∨ Slips stream ∨ Complete stream := by
  match rest with
  | [] => exact .inl handleDomain_empty
  | n :: rest =>
    -- no name, or a stream that ends before the port: one of the reads finds nothing
    by_cases short : n.toNat = 0 ∨ rest.length ≤ n.toNat
    · exact .inl (handleDomain_cut short)
    obtain ⟨positive, more⟩ := not_or.mp short
    obtain ⟨name, behind, rfl, length⟩ : ∃ name behind, rest = name ++ behind ∧
      name.length = n.toNat :=
      ⟨rest.take n.toNat, rest.drop n.toNat, by simp, by simp; omega⟩
    rw [List.length_append, length] at more
    match behind with
    | [] => simp at more
    | p :: later =>
      -- one byte of the port, or a name with a zero in it, is taken for a request
      by_cases bad : later = [] ∨ 0 ∈ name
      · exact .inr (.inl (.inr ⟨reserved, n, name, p, later, positive, length, rfl, bad⟩))
      obtain ⟨some_, noNul⟩ := not_or.mp bad
      obtain ⟨q, later, rfl⟩ := List.exists_cons_of_ne_nil some_
      have small := n.toNat_lt
      have nonempty : name ≠ [] := by
        rintro rfl
        exact positive length.symm
      refine .inr
        (.inr ⟨reserved, .domain ⟨name, nonempty, noNul, by omega⟩ (htons (word16 [p, q])), later,
          ?_⟩)
      have count : UInt8.ofNat name.length = n := by rw [length, UInt8.ofNat_toNat]
      simp [Request.wire, Request.address, bytes16_pair, count]

theorem fails_or (stream : List UInt8) :
    Fails (prxSocks5HandleRequest inet cut locals ⟨stream, reads⟩) ∨ Slips stream ∨
      Complete stream := by
  match stream with
  | [] | [_] | [_, _] | [_, _, _] => exact .inl (header_cut (by simp))
  | v :: c :: r :: t :: rest =>
    obtain ⟨reads₁, header⟩ := header_eq inet cut locals reads v c r t rest
    rw [header]
    -- the header is tested field by field, in this order
    by_cases version : v = socks5Version
    swap
    · exact .inl ⟨_, if_pos version⟩
    by_cases command : c = socks5CmdConnect
    swap
    · exact .inl ⟨_, by rw [if_neg (not_not.mpr version), if_pos command]⟩
    subst version command
    rw [if_neg (by simp), if_neg (by simp)]
    by_cases ipv4 : t = socks5AtypIpv4
    · subst ipv4
      rw [if_pos rfl]
      exact ipv4_cases r rest
    by_cases domain : t = socks5AtypDomainName
    · subst domain
      rw [if_neg ipv4, if_pos rfl]
      exact domain_cases r rest
    · exact .inl ⟨_, by rw [if_neg ipv4, if_neg domain]⟩

/-! ## Acceptance -/

/-- The function returns 0 with the address of a complete request, of which it takes all bytes and
    no more; and otherwise -1. -/
def AcceptsComplete (inet : Inet) (cut : Nat → Nat) (locals : Locals) (stream : List UInt8) :
    Prop :=
  (∃ reserved req later reads, stream = Request.wire req reserved ++ later ∧
      prxSocks5HandleRequest inet cut locals ⟨stream, 0⟩
        = some (0, some (req.uniAddr inet), ⟨later, reads⟩)) ∨
    ¬ Complete stream ∧ Fails (prxSocks5HandleRequest inet cut locals ⟨stream, 0⟩)

theorem not_accepts (slips : Slips stream) : ¬ AcceptsComplete inet cut locals stream := by
  obtain ⟨addr, client, accepted⟩ := slips_accepted inet cut locals 0 slips
  rintro (⟨reserved, req, later, reads, starts, -⟩ | ⟨-, other, rejected⟩)
  · exact slips_incomplete slips ⟨reserved, req, later, starts⟩
  · cases accepted.symm.trans rejected

/-- Requests are accepted exactly when they are complete, except where the stream ends after the
    first byte of a port and where a domain name has a zero. -/
theorem accepts_complete_iff (inet : Inet) (cut : Nat → Nat) (locals : Locals)
    (stream : List UInt8) : AcceptsComplete inet cut locals stream ↔ ¬ Slips stream := by
  constructor
  · exact fun accepts slips => not_accepts slips accepts
  · intro fine
    by_cases complete : Complete stream
    · obtain ⟨reserved, req, later, rfl⟩ := complete
      obtain ⟨reads, accepted⟩ := request_accepted inet cut locals 0 req reserved later
      exact .inl ⟨reserved, req, later, reads, rfl, accepted⟩
    · exact .inr ⟨complete, (fails_or stream).resolve_right (not_or.mpr ⟨fine, complete⟩)⟩

/-- A request that ends after the first byte of its port, and a name with a zero. -/
theorem accepts_incomplete :
    (∃ client, prxSocks5HandleRequest Lownet.sampleInet (fun _ => 0)
        ⟨fun _ => 0, fun _ => 0, fun _ => 0xAB, fun _ => 0, fun _ => 0⟩
          ⟨[5, 1, 0, 1, 1, 2, 3, 4, 0], 0⟩
          = some (0, some (.ip Lownet.sampleText.chars 0xAB), client)) ∧
      ¬ AcceptsComplete Lownet.sampleInet (fun _ => 0)
        ⟨fun _ => 0, fun _ => 0, fun _ => 0xAB, fun _ => 0, fun _ => 0⟩
          [5, 1, 0, 1, 1, 2, 3, 4, 0] ∧
      ¬ AcceptsComplete Lownet.sampleInet (fun _ => 0)
        ⟨fun _ => 0, fun _ => 0, fun _ => 0, fun _ => 0, fun _ => 0⟩
          [5, 1, 0, 3, 2, 97, 0, 0, 80] := by
  refine ⟨⟨_, rfl⟩, not_accepts (.inl ⟨0, [1, 2, 3, 4], 0, rfl, rfl⟩),
    not_accepts (.inr ⟨0, 2, [97, 0], 0, [80], ?_⟩)⟩
  exact ⟨by decide, rfl, rfl, .inr (by decide)⟩

end Soter2.Proxy
