import Mathlib.Data.List.Basic
import Mathlib.Tactic.Common
import Soter2.Proxy.Socks5

/-! # SOCKS5 replies (`proxy/src/socks5.c`)

The two encoders compose a reply piece by piece in a local buffer.  A piece that does not fit into
the buffer has no result.
-/

namespace Soter2.Proxy

open Soter2.Lownet (Client Inet htons)
open Words (bytes16)

/-- A piece is written at the pointer behind what is there already. -/
def put (size : Nat) (piece : List UInt8) (buffer : List UInt8) : Option (List UInt8) :=
  if buffer.length + piece.length ≤ size then some (buffer ++ piece) else none

/-- `SOCKS5_REP_SUCCESS` or `SOCKS5_REP_GENERAL_FAILURE`, by the descriptor of the connection. -/
def replyCode (remoteRfd : Int) : UInt8 := if remoteRfd ≥ 0 then 0 else 1

/-- `__stas5_send_ip_reply`; the buffer has room for a header, an address and a port. -/
def sendIpReply (replyType : UInt8) (ip : List UInt8) (port : UInt16) : Option (List UInt8) :=
  ((put (4 + 4 + 2) [socks5Version, replyType, 0, socks5AtypIpv4] []).bind
    (put (4 + 4 + 2) ip)).bind
    (put (4 + 4 + 2) (bytes16 port))

/-- The size of the buffer in `__stas5_send_domain_reply`. -/
def domainReplySize : Nat := 1 + 255 + 2

/-- `__stas5_send_domain_reply`, where `domain` is the memory that the pointer leads to. -/
def sendDomainReply (replyType : UInt8) (domain : List UInt8) (domainLen : UInt8) (port : UInt16) :
    Option (List UInt8) :=
  (((put domainReplySize [socks5Version, replyType, 0, socks5AtypDomainName] []).bind
    (put domainReplySize [domainLen])).bind
      (put domainReplySize (domain.take domainLen.toNat))).bind
    (put domainReplySize (bytes16 port))

/-- `inet_addr`, which returns `INADDR_NONE` for a text that is no address. -/
def inetAddr (inet : Inet) (text : List UInt8) : List UInt8 :=
  match inet.pton4 text with
  | some ip => ip.toList
  | none => [255, 255, 255, 255]

/-- The reply of `__prx_socks5_tunnel_wrapper` to an address; `behind` is what lies in memory behind
    the final zero of a domain. -/
def addressReply (inet : Inet) (behind : List UInt8) (remoteRfd : Int) :
    S5UniAddr → Option (List UInt8)
  | .ip text port => sendIpReply (replyCode remoteRfd) (inetAddr inet text) (htons port)
  | .domain domain port domainLen =>
    sendDomainReply (replyCode remoteRfd) (domain ++ 0 :: behind) (UInt8.ofNat domainLen.toNat)
      (htons port)

/-- What the client of a request is sent. -/
def tunnelReply (inet : Inet) (cut : Nat → Nat) (locals : Locals) (behind : List UInt8)
    (remoteRfd : Int) (client : Client) : Option (List UInt8) :=
  (prxSocks5HandleRequest inet cut locals client).bind fun (r, raddr, _) =>
    if 0 > r then none else raddr.bind (addressReply inet behind remoteRfd)

/-! ## What fits -/

theorem put_of_le {size : Nat} {piece buffer : List UInt8}
    (fits : buffer.length + piece.length ≤ size) :
    put size piece buffer = some (buffer ++ piece) := if_pos fits

theorem put_eq_none {size : Nat} {piece buffer : List UInt8}
    (long : size < buffer.length + piece.length) :
    put size piece buffer = none := if_neg (Nat.not_le.mpr long)

theorem sendIpReply_eq (replyType : UInt8) {ip : List UInt8} (four : ip.length = 4)
    (port : UInt16) :
    sendIpReply replyType ip port = some ([socks5Version, replyType, 0, socks5AtypIpv4] ++ ip ++
      bytes16 port) := by
  rw [sendIpReply, put_of_le (by simp), Option.bind_some, put_of_le (by simp [four]),
    Option.bind_some, put_of_le (by simp [four])]
  rfl

/-- The buffer has room for a length, 255 bytes and a port, but not for the header as well. -/
theorem sendDomainReply_eq (replyType : UInt8) {name : List UInt8} (behind : List UInt8)
    {domainLen : UInt8} (length : name.length = domainLen.toNat) (port : UInt16) :
    sendDomainReply replyType (name ++ behind) domainLen port
      = if name.length ≤ 251 then
          some ([socks5Version, replyType, 0, socks5AtypDomainName, domainLen] ++ name ++
            bytes16 port)
        else none := by
  have room : domainReplySize = 258 := rfl
  rw [sendDomainReply, put_of_le (by simp [room]), Option.bind_some, put_of_le (by simp [room]),
    Option.bind_some, List.take_left' length]
  by_cases fits : name.length ≤ 251
  · rw [if_pos fits, put_of_le (by simp [room]; omega), Option.bind_some,
      put_of_le (by simp [room]; omega)]
    simp
  rw [if_neg fits]
  -- the name overruns the buffer, or else the port behind it does
  by_cases near : name.length ≤ 253
  · rw [put_of_le (by simp [room]; omega), Option.bind_some]
    exact put_eq_none (by simp [room]; omega)
  · rw [put_eq_none (by simp [room]; omega), Option.bind_none]

def Request.Fits : Request → Prop
  | .ipv4 _ _ => True
  | .domain name _ => name.bytes.length ≤ 251

/-- The reply to a request repeats its address within the buffer, exactly when the name in it is not
    longer than 251 bytes. -/
theorem reply_echoes_iff {inet : Inet} (cut : Nat → Nat) (locals : Locals) (behind : List UInt8)
    (remoteRfd : Int) (req : Request) (reserved : UInt8) (later : List UInt8)
    (inverse : ∀ ip port, req = .ipv4 ip port → inet.pton4 (inet.ntop4 ip) = some ip) :
    tunnelReply inet cut locals behind remoteRfd ⟨req.wire reserved ++ later, 0⟩
        = some (socks5Version :: replyCode remoteRfd :: 0 :: req.address) ↔ req.Fits := by
  obtain ⟨reads, accepted⟩ :=
    request_accepted inet cut locals 0 req reserved later
  rw [tunnelReply, accepted, Option.bind_some]
  simp only
  rw [if_neg (by decide), Option.bind_some]
  cases req with
  | ipv4 ip port =>
    -- the text of the address is turned back into its four bytes
    have text : inetAddr inet (inet.ntop4 ip) = ip.toList := by rw [inetAddr, inverse ip port rfl]
    rw [Request.uniAddr, addressReply, text,
      sendIpReply_eq _ (show ip.toList.length = 4 from Vector.length_toList)]
    exact iff_of_true rfl trivial
  | domain name port =>
    have length : name.bytes.length = (UInt8.ofNat name.bytes.length).toNat := by
      rw [UInt8.toNat_ofNat', Nat.mod_eq_of_lt name.short]
    rw [Request.uniAddr, addressReply, Int.toNat_natCast, sendDomainReply_eq _ _ length,
      Request.Fits]
    split
    next fits => exact iff_of_true (by simp [Request.address]) fits
    next long => exact iff_of_false (by simp) long

def sampleLocals : Locals := ⟨fun _ => 0, fun _ => 0, fun _ => 0, fun _ => 0, fun _ => 0⟩

/-- `a.io`. -/
def shortHost : DomainName where
  bytes := [97, 46, 105, 111]
  nonempty := by decide
  noNul := by decide
  short := by decide

/-- An address, and a name with something behind the request. -/
theorem reply_echoes_iff_sample :
    tunnelReply Lownet.sampleInet (fun _ => 0) sampleLocals [] 3
      ⟨Request.wire (.ipv4 Lownet.sampleIp 80) 0 ++ [], 0⟩
        = some (socks5Version :: replyCode 3 :: 0 :: Request.address (.ipv4 Lownet.sampleIp 80)) ∧
      tunnelReply Lownet.sampleInet (fun _ => 0) sampleLocals [9] (-1)
        ⟨Request.wire (.domain shortHost 443) 7 ++ [22, 3], 0⟩
        = some (socks5Version :: replyCode (-1) :: 0 :: Request.address (.domain shortHost 443)) :=
  ⟨(reply_echoes_iff (fun _ => 0) sampleLocals [] 3 (.ipv4 Lownet.sampleIp 80) 0 []
    (by rintro ip port ⟨⟩; decide)).mpr trivial,
    (reply_echoes_iff (fun _ => 0) sampleLocals [9] (-1) (.domain shortHost 443) 7 [22, 3]
      (by simp)).mpr
      (by simp [Request.Fits, shortHost])⟩

/-- A name of 252 letters. -/
def longName : DomainName where
  bytes := List.replicate 252 97
  nonempty := List.cons_ne_nil 97 (List.replicate 251 97)
  noNul := fun member => absurd (List.eq_of_mem_replicate member) (by decide)
  short := Nat.lt_of_le_of_lt (Nat.le_of_eq List.length_replicate) (by decide)

theorem reply_overflows :
    tunnelReply Lownet.sampleInet (fun _ => 0)
      ⟨fun _ => 0, fun _ => 0, fun _ => 0, fun _ => 0, fun _ => 0⟩ [] 3
        ⟨Request.wire (.domain longName 80) 0 ++ [], 0⟩ = none ∧
      tunnelReply Lownet.sampleInet (fun _ => 0)
        ⟨fun _ => 0, fun _ => 0, fun _ => 0, fun _ => 0, fun _ => 0⟩ [] 3
          ⟨Request.wire (.domain longName 80) 0 ++ [], 0⟩
        ≠ some (socks5Version :: replyCode 3 :: 0 :: Request.address (.domain longName 80)) := by
  have overflow : tunnelReply Lownet.sampleInet (fun _ => 0)
      ⟨fun _ => 0, fun _ => 0, fun _ => 0, fun _ => 0, fun _ => 0⟩ [] 3
      ⟨Request.wire (.domain longName 80) 0 ++ [], 0⟩ = none := by
    obtain ⟨reads, accepted⟩ := request_accepted Lownet.sampleInet (fun _ => 0)
      ⟨fun _ => 0, fun _ => 0, fun _ => 0, fun _ => 0, fun _ => 0⟩ 0 (.domain longName 80) 0 []
    have size : longName.bytes.length = 252 := @List.length_replicate UInt8 252 97
    rw [tunnelReply, accepted, Option.bind_some]
    simp only
    rw [if_neg (by decide), Option.bind_some, Request.uniAddr, addressReply, Int.toNat_natCast,
      sendDomainReply_eq _ _ (by rw [size]; rfl), size, if_neg (by decide)]
  exact ⟨overflow, by rw [overflow]; simp⟩

end Soter2.Proxy
