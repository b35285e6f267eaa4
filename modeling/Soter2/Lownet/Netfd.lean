import Mathlib.Data.List.Basic
import Mathlib.Tactic.Common
import Soter2.Lownet.Addr

/-! # Socket addresses (`lownet/src/core.c`)

`NnetFd` is the struct that a packet is sent to and came from.  The conversions of the C
library between texts and addresses are the fields of `Inet`, with the lengths of the texts
that they write and accept.
-/

namespace Soter2.Lownet

open Soter2.E2ee (Bytes)

structure Inet where
  /-- `inet_pton(AF_INET, ..)`, where it returns 1. -/
  pton4 : List UInt8 → Option (Bytes 4)
  /-- `inet_pton(AF_INET6, ..)`, where it returns 1. -/
  pton6 : List UInt8 → Option (Bytes 16)
  ntop4 : Bytes 4 → List UInt8
  ntop6 : Bytes 16 → List UInt8
  pton4_fits : ∀ text, (pton4 text).isSome → text.length < inetAddrstrlen
  pton6_fits : ∀ text, (pton6 text).isSome → text.length < inet6Addrstrlen
  ntop4_fits : ∀ sinAddr, (ntop4 sinAddr).length < inetAddrstrlen
  ntop6_fits : ∀ sin6Addr, (ntop6 sin6Addr).length < inet6Addrstrlen

/-- What the code reads of a `sockaddr_storage`; the port is in network order. -/
inductive SockaddrStorage where
  | unspec
  | inet (sinPort : UInt16) (sinAddr : Bytes 4)
  | inet6 (sin6Port : UInt16) (sin6Addr : Bytes 16)
deriving DecidableEq

structure NnetFd where
  rfd : Int
  addr : SockaddrStorage
  addrLen : Nat
deriving DecidableEq

variable (inet : Inet)

def lnNetfd (addr : Naddr) : Option NnetFd :=
  if addr.t = NaddrType.ipv4.code then
    let v4 := addr.member inetAddrstrlen
    (inet.pton4 (cString v4.ip.toList)).map fun sinAddr =>
      { rfd := 0, addr := .inet (htons v4.port) sinAddr, addrLen := 16 }
  else if addr.t = NaddrType.ipv6.code then
    let v6 := addr.member inet6Addrstrlen
    (inet.pton6 (cString v6.ip.toList)).map fun sin6Addr =>
      { rfd := 0, addr := .inet6 (htons v6.port) sin6Addr, addrLen := 28 }
  else none

def lnNetfdq (addr : Naddr) : NnetFd :=
  (lnNetfd inet addr).getD { rfd := -1, addr := .unspec, addrLen := 0 }

def lnNfd2addr (fd : NnetFd) : Naddr :=
  match fd.addr with
  | .inet sinPort sinAddr =>
    lnMake4 ((lnIpv4 (inet.ntop4 sinAddr) (htons sinPort)).get
      (lnIp_isSome (inet.ntop4_fits sinAddr) _))
  | .inet6 sin6Port sin6Addr =>
    lnMake6 ((lnIpv6 (inet.ntop6 sin6Addr) (htons sin6Port)).get
      (lnIp_isSome (inet.ntop6_fits sin6Addr) _))
  | .unspec => Naddr.zero

/-- The address of a socket can be converted to network order. -/
theorem lnNfd2addr_terminated (fd : NnetFd) : (lnNfd2addr inet fd).Terminated := by
  rw [lnNfd2addr]
  split
  · exact terminated_lnMake4 (Option.some_get _).symm
  · exact terminated_lnMake6 (Option.some_get _).symm
  · exact terminated_zero

/-- `ln_resolve`; `gethostbyname` gives the text of the first address of a name. -/
def lnResolve (gethostbyname : List UInt8 → Option (List UInt8)) (domain : List UInt8) :
    Option Naddr :=
  (gethostbyname domain).bind fun ip =>
    if ip = [] then none
    else if 58 ∈ ip then some (lnMake6 ⟨strncpy inet6Addrstrlen ip, 0⟩)
    else some (lnMake4 ⟨strncpy inetAddrstrlen ip, 0⟩)

/-- `ln_uni`: an address of either kind, or a name that has one. -/
def lnUni (gethostbyname : List UInt8 → Option (List UInt8)) (uniAddr : List UInt8)
    (port : UInt16) : Option Naddr :=
  if four : (inet.pton4 uniAddr).isSome then
    some (lnMake4 ((lnIpv4 uniAddr port).get (lnIp_isSome (inet.pton4_fits uniAddr four) port)))
  else if six : (inet.pton6 uniAddr).isSome then
    some (lnMake6 ((lnIpv6 uniAddr port).get (lnIp_isSome (inet.pton6_fits uniAddr six) port)))
  else
    (lnResolve gethostbyname uniAddr).map fun out =>
      if out.t = NaddrType.ipv4.code then
        .ofMember { out.member inetAddrstrlen with port := port } .ipv4
      else if out.t = NaddrType.ipv6.code then
        .ofMember { out.member inet6Addrstrlen with port := port } .ipv6
      else out

/-- The C library on the text `1.2.3.4`. -/
def sampleInet : Inet where
  pton4 text := if text = sampleText.chars then some #v[1, 2, 3, 4] else none
  pton6 _ := none
  ntop4 sinAddr := if sinAddr = #v[1, 2, 3, 4] then sampleText.chars else []
  ntop6 _ := []
  pton4_fits text accepted := by
    rw [Option.isSome_ite] at accepted
    rw [accepted]
    decide
  pton6_fits _ accepted := absurd accepted (by decide)
  ntop4_fits sinAddr := by
    split
    · decide
    · decide
  ntop6_fits _ := by decide

/-- The bytes of that text. -/
def sampleIp : Bytes 4 := #v[1, 2, 3, 4]

end Soter2.Lownet
