import Mathlib.Data.List.Basic
import Mathlib.Data.List.TakeWhile
import Mathlib.Tactic.Common
import Soter2.E2ee.Crypto
import Soter2.Library.Layout

/-! # Network addresses (`lownet/src/core.c`)

`Naddr` is the struct `naddr_t` as it lies in memory: 48 bytes for the union of the two
address structs, then the discriminating enumeration, which a received struct may hold any
word in.  The compiler clears the bytes of the union that `ln_make4` does not name.

`Address` is what such a struct is for, a text and a port: `lnHton_naddr` and `lnNtoh_naddr`
say that the two conversions of a well-formed address only swap its port.
-/

namespace Soter2.Lownet

open Soter2.E2ee (Bytes)
open Words (swap16)

abbrev htons : UInt16 → UInt16 := swap16

inductive NaddrType where
  | ipv4
  | ipv6
deriving DecidableEq, Repr

def NaddrType.code : NaddrType → UInt32
  | .ipv4 => 0
  | .ipv6 => 1

/-- `INET_ADDRSTRLEN`. -/
abbrev inetAddrstrlen : Nat := 16

/-- `INET6_ADDRSTRLEN`. -/
abbrev inet6Addrstrlen : Nat := 46

/-- `naddr_ipv4` and `naddr_ipv6`, which only differ in the room for the text. -/
structure NaddrIp (room : Nat) where
  ip : Bytes room
  port : UInt16
deriving DecidableEq

structure Naddr where
  ip : Bytes 48
  t : UInt32
deriving DecidableEq

def NaddrIp.layout (room : Nat) : Layout (NaddrIp room) :=
  ((Layout.bytes room).pair Layout.u16).congr (fun f => ⟨f.1, f.2⟩) (fun a => (a.ip, a.port))
    (fun _ => rfl) (fun _ => rfl)

def Naddr.layout : Layout Naddr :=
  ((Layout.bytes 48).pair Layout.u32).congr (fun f => ⟨f.1, f.2⟩) (fun a => (a.ip, a.t))
    (fun _ => rfl) (fun _ => rfl)

/-- `(naddr_t){0}`. -/
def Naddr.zero : Naddr := ⟨Vector.replicate 48 0, 0⟩

/-- A member of the union, read or written. -/
def Naddr.member (room : Nat) (addr : Naddr) : NaddrIp room :=
  (NaddrIp.layout room).ofImage addr.ip.toList

def Naddr.ofMember {room : Nat} (a : NaddrIp room) (t : NaddrType) : Naddr :=
  ⟨(Layout.bytes 48).ofImage ((NaddrIp.layout room).image a), t.code⟩

/-- The text in front of the first zero byte. -/
def cString (buf : List UInt8) : List UInt8 := buf.takeWhile (· ≠ 0)

/-- `strncpy` into an array: the text is cut, or zeros follow it. -/
def strncpy (room : Nat) (text : List UInt8) : Bytes room :=
  (Layout.bytes room).ofImage (cString text)

/-- `ln_ipv4` and `ln_ipv6`: `strcpy` into a cleared struct.  There is no result where the
    text has no room for its final zero and the copy runs over the array. -/
def lnIp (room : Nat) (ip : List UInt8) (port : UInt16) : Option (NaddrIp room) :=
  if (cString ip).length < room then some ⟨strncpy room ip, port⟩ else none

def lnIpv4 : List UInt8 → UInt16 → Option (NaddrIp inetAddrstrlen) := lnIp inetAddrstrlen
def lnIpv6 : List UInt8 → UInt16 → Option (NaddrIp inet6Addrstrlen) := lnIp inet6Addrstrlen
def lnMake4 (ipv4 : NaddrIp inetAddrstrlen) : Naddr := .ofMember ipv4 .ipv4
def lnMake6 (ipv6 : NaddrIp inet6Addrstrlen) : Naddr := .ofMember ipv6 .ipv6

/-- The body of `ln_hton`, and of `ln_ntoh` with the other conversion. -/
def lnConvert (convert : UInt16 → UInt16) (addr : Naddr) : Option Naddr :=
  if addr.t = NaddrType.ipv4.code then
    let v4 := addr.member inetAddrstrlen
    (lnIpv4 v4.ip.toList (convert v4.port)).map lnMake4
  else if addr.t = NaddrType.ipv6.code then
    let v6 := addr.member inet6Addrstrlen
    (lnIpv6 v6.ip.toList (convert v6.port)).map lnMake6
  else some Naddr.zero

def lnHton : Naddr → Option Naddr := lnConvert htons
def lnNtoh : Naddr → Option Naddr := lnConvert htons

/-! ## Texts with room for their final zero -/

theorem length_cString_le (buf : List UInt8) : (cString buf).length ≤ buf.length :=
  (List.takeWhile_sublist _).length_le

theorem lnIp_eq_some {room : Nat} {ip : List UInt8} {port : UInt16} {a : NaddrIp room} :
    lnIp room ip port = some a ↔ (cString ip).length < room ∧ a = ⟨strncpy room ip, port⟩ := by
  rw [lnIp, Option.ite_none_right_eq_some, Option.some.injEq, eq_comm (a := a)]

theorem lnIp_isSome {room : Nat} {ip : List UInt8} (fits : ip.length < room) (port : UInt16) :
    (lnIp room ip port).isSome :=
  Option.isSome_of_eq_some (lnIp_eq_some.mpr ⟨(length_cString_le ip).trans_lt fits, rfl⟩)

theorem mem_cString {buf : List UInt8} {c : UInt8} (member : c ∈ cString buf) :
    decide (c ≠ 0) = true :=
  List.mem_takeWhile_imp (p := fun c => decide (c ≠ 0)) member

/-- What the copy leaves in the array is read back as the text. -/
theorem cString_strncpy {room : Nat} {text : List UInt8} (fits : (cString text).length < room) :
    cString (strncpy room text).toList = cString text := by
  have behind : room - (cString text).length = (room - (cString text).length - 1) + 1 := by omega
  rw [strncpy, Layout.toList_ofImage_bytes, List.take_append, List.take_of_length_le fits.le,
    List.take_replicate, Nat.min_eq_left (Nat.sub_le _ _), behind, List.replicate_succ, cString,
    List.takeWhile_append_of_pos fun c => mem_cString]
  simp [cString]

theorem lnIp_lnIp {room : Nat} {ip : List UInt8} {port port' : UInt16} {a : NaddrIp room}
    (copied : lnIp room ip port = some a) :
    lnIp room a.ip.toList port' = some ⟨strncpy room ip, port'⟩ := by
  obtain ⟨fits, rfl⟩ := lnIp_eq_some.mp copied
  have same := cString_strncpy fits
  refine lnIp_eq_some.mpr ⟨by rwa [same], ?_⟩
  rw [strncpy, strncpy, ← strncpy, same]
  rfl

/-! ## Well-formed addresses -/

/-- The text of an address, as `inet_ntop` prints it: printable characters, with room for
    the zero behind them. -/
structure IpText (room : Nat) where
  chars : List UInt8
  nonempty : chars ≠ []
  printable : ∀ c ∈ chars, 32 < c
  fits : chars.length < room

inductive Address where
  | ipv4 (text : IpText inetAddrstrlen) (port : UInt16)
  | ipv6 (text : IpText inet6Addrstrlen) (port : UInt16)

def Address.naddr : Address → Naddr
  | .ipv4 text port => lnMake4 ⟨strncpy _ text.chars, port⟩
  | .ipv6 text port => lnMake6 ⟨strncpy _ text.chars, port⟩

def Address.mapPort (convert : UInt16 → UInt16) : Address → Address
  | .ipv4 text port => .ipv4 text (convert port)
  | .ipv6 text port => .ipv6 text (convert port)

/-- The text `1.2.3.4`. -/
def sampleText : IpText inetAddrstrlen :=
  ⟨[49, 46, 50, 46, 51, 46, 52], by simp, by simp, by decide⟩

theorem IpText.ne_zero {room : Nat} (text : IpText room) : ∀ c ∈ text.chars, c ≠ 0 := by
  rintro c member rfl
  exact absurd (text.printable 0 member) (by decide)

theorem IpText.cString_chars {room : Nat} (text : IpText room) : cString text.chars = text.chars :=
  List.takeWhile_eq_self_iff.mpr (by simpa using text.ne_zero)

theorem IpText.lnIp_chars {room : Nat} (text : IpText room) (port : UInt16) :
    lnIp room text.chars port = some ⟨strncpy room text.chars, port⟩ :=
  lnIp_eq_some.mpr ⟨by rw [text.cString_chars]; exact text.fits, rfl⟩

theorem member_ofMember {room : Nat} (a : NaddrIp room) (t : NaddrType) (small : room + 2 ≤ 48) :
    (Naddr.ofMember a t).member room = a := by
  have long : ((NaddrIp.layout room).image a).length ≤ 48 := by
    rw [Layout.length_image]
    exact small
  rw [Naddr.member, Naddr.ofMember, Layout.toList_ofImage_bytes, List.take_append,
    List.take_of_length_le long, Layout.ofImage_append]

/-- The conversion reads the member that it is told of, and writes it. -/
theorem lnConvert_lnMake4 (convert : UInt16 → UInt16) (v4 : NaddrIp inetAddrstrlen) :
    lnConvert convert (lnMake4 v4) = (lnIpv4 v4.ip.toList (convert v4.port)).map lnMake4 := by
  have member : (lnMake4 v4).member inetAddrstrlen = v4 := member_ofMember v4 _ (by decide)
  have type : (lnMake4 v4).t = NaddrType.ipv4.code := rfl
  rw [lnConvert, if_pos type, member]

theorem lnConvert_lnMake6 (convert : UInt16 → UInt16) (v6 : NaddrIp inet6Addrstrlen) :
    lnConvert convert (lnMake6 v6) = (lnIpv6 v6.ip.toList (convert v6.port)).map lnMake6 := by
  have member : (lnMake6 v6).member inet6Addrstrlen = v6 := member_ofMember v6 _ (by decide)
  have type : (lnMake6 v6).t = NaddrType.ipv6.code := rfl
  have other : ¬ (lnMake6 v6).t = NaddrType.ipv4.code := by rw [type]; decide
  rw [lnConvert, if_neg other, if_pos type, member]

theorem lnConvert_naddr (convert : UInt16 → UInt16) (addr : Address) :
    lnConvert convert addr.naddr = some (addr.mapPort convert).naddr := by
  cases addr with
  | ipv4 text port =>
    rw [Address.naddr, lnConvert_lnMake4, lnIpv4, lnIp_lnIp (text.lnIp_chars port)]
    rfl
  | ipv6 text port =>
    rw [Address.naddr, lnConvert_lnMake6, lnIpv6, lnIp_lnIp (text.lnIp_chars port)]
    rfl

theorem lnHton_naddr (addr : Address) : lnHton addr.naddr = some (addr.mapPort htons).naddr :=
  lnConvert_naddr htons addr

theorem lnNtoh_naddr (addr : Address) : lnNtoh addr.naddr = some (addr.mapPort htons).naddr :=
  lnConvert_naddr htons addr

@[simp] theorem Address.mapPort_htons_htons (addr : Address) :
    (addr.mapPort htons).mapPort htons = addr := by
  cases addr <;> simp [mapPort]

/-- The text of the member that the type names has its final zero. -/
def Naddr.Terminated (addr : Naddr) : Prop :=
  (addr.t = NaddrType.ipv4.code → (cString (addr.member inetAddrstrlen).ip.toList).length
    < inetAddrstrlen) ∧
    (addr.t = NaddrType.ipv6.code → (cString (addr.member inet6Addrstrlen).ip.toList).length
      < inet6Addrstrlen)

instance : DecidablePred Naddr.Terminated := fun _ => inferInstanceAs (Decidable (_ ∧ _))

/-- Of the texts that a struct may hold, those without a final zero make the copy run over. -/
theorem lnConvert_eq_none {convert : UInt16 → UInt16} {addr : Naddr} :
    lnConvert convert addr = none ↔ ¬ addr.Terminated := by
  have distinct : NaddrType.ipv4.code ≠ NaddrType.ipv6.code := by decide
  rw [lnConvert, Naddr.Terminated]
  by_cases four : addr.t = NaddrType.ipv4.code
  · simp [four, distinct, lnIpv4, lnIp]
  · by_cases six : addr.t = NaddrType.ipv6.code
    · simp [six, distinct.symm, lnIpv6, lnIp]
    · simp [four, six]

theorem lnConvert_isSome (convert : UInt16 → UInt16) {addr : Naddr} (terminated : addr.Terminated) :
    (lnConvert convert addr).isSome := by
  rw [Option.isSome_iff_ne_none, ne_eq, lnConvert_eq_none, not_not]
  exact terminated

theorem Address.terminated (addr : Address) : addr.naddr.Terminated := by
  rw [← not_not (a := Naddr.Terminated _), ← @lnConvert_eq_none htons _, lnConvert_naddr]
  simp

theorem terminated_lnMake4 {ip : List UInt8} {port : UInt16} {v4 : NaddrIp inetAddrstrlen}
    (copied : lnIpv4 ip port = some v4) : (lnMake4 v4).Terminated := by
  rw [← not_not (a := Naddr.Terminated _), ← @lnConvert_eq_none htons _,
    lnConvert_lnMake4, lnIpv4, lnIp_lnIp copied]
  simp

theorem terminated_lnMake6 {ip : List UInt8} {port : UInt16} {v6 : NaddrIp inet6Addrstrlen}
    (copied : lnIpv6 ip port = some v6) : (lnMake6 v6).Terminated := by
  rw [← not_not (a := Naddr.Terminated _), ← @lnConvert_eq_none htons _,
    lnConvert_lnMake6, lnIpv6, lnIp_lnIp copied]
  simp

theorem terminated_zero : Naddr.zero.Terminated := by decide +kernel

/-- What a conversion returns can be converted again. -/
theorem lnConvert_terminated {convert : UInt16 → UInt16} {addr converted : Naddr}
    (h : lnConvert convert addr = some converted) : converted.Terminated := by
  rw [lnConvert] at h
  split at h
  · obtain ⟨v4, copied, rfl⟩ := Option.map_eq_some_iff.mp h
    exact terminated_lnMake4 copied
  split at h
  · obtain ⟨v6, copied, rfl⟩ := Option.map_eq_some_iff.mp h
    exact terminated_lnMake6 copied
  · cases h
    exact terminated_zero

/-! ## The first character -/

/-- The first byte of the union, where both members have their text. -/
def Naddr.first (addr : Naddr) : UInt8 := addr.ip.toList.headD 0

theorem headD_ofImage_bytes {n : Nat} (nonempty : 0 < n) (raw : List UInt8) :
    ((Layout.bytes n).ofImage raw).toList.headD 0 = raw.headD 0 := by
  obtain ⟨k, rfl⟩ : ∃ k, n = k + 1 := ⟨n - 1, by omega⟩
  rw [Layout.toList_ofImage_bytes]
  cases raw <;> simp [List.replicate_succ]

theorem headD_cString (buf : List UInt8) : (cString buf).headD 0 = buf.headD 0 := by
  cases buf with
  | nil => rfl
  | cons c buf =>
    by_cases zero : c = 0
    · simp [cString, zero]
    · simp [cString, zero]

theorem first_ofMember {room : Nat} (nonempty : 0 < room) (ip : List UInt8) (port : UInt16)
    (t : NaddrType) :
    (Naddr.ofMember (⟨strncpy room ip, port⟩ : NaddrIp room) t).first = ip.headD 0 := by
  have text : (NaddrIp.layout room).image ⟨strncpy room ip, port⟩
      = (strncpy room ip).toList ++ Words.bytes16 port := rfl
  have head : (strncpy room ip).toList.headD 0 = (cString ip).headD 0 :=
    headD_ofImage_bytes nonempty (cString ip)
  have length : (strncpy room ip).toList.length = room := by simp
  rw [Naddr.first, Naddr.ofMember, headD_ofImage_bytes (by decide), text, ← headD_cString ip,
    ← head]
  cases h : (strncpy room ip).toList with
  | nil => rw [h, List.length_nil] at length; omega
  | cons c rest => rfl

theorem first_member {room : Nat} (nonempty : 0 < room) (addr : Naddr) :
    (addr.member room).ip.toList.headD 0 = addr.first :=
  headD_ofImage_bytes nonempty addr.ip.toList

/-- A conversion keeps the first character, or clears the address. -/
theorem first_lnConvert {convert : UInt16 → UInt16} {addr converted : Naddr}
    (h : lnConvert convert addr = some converted) :
    converted.first = addr.first ∨ converted.first = 0 := by
  rw [lnConvert] at h
  split at h
  · obtain ⟨v4, copied, rfl⟩ := Option.map_eq_some_iff.mp h
    obtain ⟨-, rfl⟩ := lnIp_eq_some.mp copied
    exact .inl ((first_ofMember (by decide) _ _ _).trans (first_member (by decide) addr))
  split at h
  · obtain ⟨v6, copied, rfl⟩ := Option.map_eq_some_iff.mp h
    obtain ⟨-, rfl⟩ := lnIp_eq_some.mp copied
    exact .inl ((first_ofMember (by decide) _ _ _).trans (first_member (by decide) addr))
  · cases h
    exact .inr rfl

theorem Address.first_printable (addr : Address) : 32 < addr.naddr.first := by
  have head : ∀ {room : Nat} (text : IpText room), 32 < text.chars.headD 0 := by
    intro room text
    cases h : text.chars with
    | nil => exact absurd h text.nonempty
    | cons c rest => exact text.printable c (h ▸ List.mem_cons_self)
  cases addr with
  | ipv4 text port => rw [naddr, lnMake4, first_ofMember (by decide)]; exact head text
  | ipv6 text port => rw [naddr, lnMake6, first_ofMember (by decide)]; exact head text

end Soter2.Lownet
