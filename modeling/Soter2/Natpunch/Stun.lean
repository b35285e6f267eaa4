import Mathlib.Data.List.Basic
import Mathlib.Tactic.Common
import Soter2.Library.Buffer
import Soter2.Library.Tlv
import Soter2.Lownet.Netfd

/-! # STUN responses (`natpunch/src/stun.c`)

What `natp_request_stun` makes of a datagram: the attributes of a binding response are walked over
to the first one with a mapped address.
-/

namespace Soter2.Natpunch

open Buffer (Span)
open Soter2.E2ee (Bytes)
open Soter2.Lownet (Inet Naddr lnIp_isSome lnIpv4 lnMake4 sampleInet)
open Words (bytes16 bytes16_inj bytes16_word16 bytes16_xor bytes32 bytes32_swap32 bytes32_word32
  bytes32_xor swap16 swap32
  swap32_swap32 word32)

/-- `STUN_BINDING_RESPONSE`. -/
abbrev stunBindingResponse : UInt16 := 0x0101

/-- `STUN_MAGIC_COOKIE`. -/
abbrev stunMagicCookie : UInt32 := 0x2112A442

/-- `ATTR_MAPPED_ADDRESS`. -/
abbrev attrMappedAddress : UInt16 := 0x0001

/-- `ATTR_XOR_MAPPED_ADDRESS`. -/
abbrev attrXorMappedAddress : UInt16 := 0x0020

/-- `ATTR_XOR_MAPPED_ADDRESS_RFC5389`. -/
abbrev attrXorMappedAddressRfc5389 : UInt16 := 0x8020

/-- `sizeof(struct stun_header)`. -/
abbrev sizeofStunHeader : Nat := 20

def IsXorMapped (type : UInt16) : Prop :=
  type = attrXorMappedAddress ∨ type = attrXorMappedAddressRfc5389

instance (type : UInt16) : Decidable (IsXorMapped type) := inferInstanceAs (Decidable (_ ∨ _))

/-- An address, as it goes to `inet_ntoa`, and a port. -/
structure Mapped where
  ip : Bytes 4
  port : UInt16
  deriving DecidableEq

def toBytes4 (w : UInt32) : Bytes 4 := ⟨(bytes32 w).toArray, rfl⟩

/-! ## The values of the attributes -/

/-- The address in a value that is exclusive-or-ed with the cookie. -/
def xorAddress (value : Nat → UInt8) : Mapped where
  ip := toBytes4 (swap32 (swap32 (word32 [value 4, value 5, value 6, value 7]) ^^^ stunMagicCookie))
  port := Tlv.be16 (value 2) (value 3) ^^^ 0x2112

def plainAddress (value : Nat → UInt8) : Mapped where
  ip := toBytes4 (swap32 (swap32 (word32 [value 4, value 5, value 6, value 7])))
  port := Tlv.be16 (value 2) (value 3)

/-- The branch of `ATTR_XOR_MAPPED_ADDRESS`, with what is read of the attribute. -/
def xorMapped (buf : Nat → UInt8) (pos len : Nat) : Option Mapped × List Span :=
  -- neither the family nor the end of the range is looked at
  if len < 8 then (none, [])
  else (some (xorAddress fun i => buf (pos + 4 + i)), [⟨pos + 4 + 2, 2⟩, ⟨pos + 4 + 4, 4⟩])

/-- The branch of `ATTR_MAPPED_ADDRESS`, which looks at the family. -/
def mapped (buf : Nat → UInt8) (pos len : Nat) : Option Mapped × List Span :=
  if len < 8 then (none, [])
  else if buf (pos + 4 + 1) ≠ 1 then (none, [⟨pos + 4 + 1, 1⟩])
  else (some (plainAddress fun i => buf (pos + 4 + i)),
    [⟨pos + 4 + 1, 1⟩, ⟨pos + 4 + 2, 2⟩, ⟨pos + 4 + 4, 4⟩])

/-! ## The walk -/

/-- The loop over the attributes, with what it reads. -/
def attrLoop (buf : Nat → UInt8) (endPos : Nat) : Nat → Nat → Option Mapped × List Span
  | 0, _ => (none, [])
  | fuel + 1, pos =>
    if pos + 4 ≤ endPos then
      let type := Tlv.be16 (buf pos) (buf (pos + 1))
      let len := (Tlv.be16 (buf (pos + 2)) (buf (pos + 3))).toNat
      let rest :=
        if IsXorMapped type then xorMapped buf pos len
        else if type = attrMappedAddress then mapped buf pos len
        else attrLoop buf endPos fuel (pos + 4 + Tlv.padded len)
      (rest.1, ⟨pos, 2⟩ :: ⟨pos + 2, 2⟩ :: rest.2)
    else (none, [])

/-- `sizeof(buf)`. -/
abbrev sizeofBuf : Nat := 1024

/-- The bytes of a datagram that `recvfrom` stores. -/
def stored (datagram : List UInt8) : List UInt8 := datagram.take sizeofBuf

/-- `buf` after `recvfrom`, and the memory behind it. -/
def received (behind : Nat → UInt8) (data : List UInt8) (i : Nat) : UInt8 :=
  data.getD i (if i < sizeofBuf then 0 else behind i)

/-- The header is that of a binding response. -/
def IsResponse (buf : Nat → UInt8) (r : Nat) : Prop :=
  sizeofStunHeader ≤ r ∧ Tlv.be16 (buf 0) (buf 1) = stunBindingResponse ∧
    swap32 (word32 [buf 4, buf 5, buf 6, buf 7]) = stunMagicCookie

instance (buf : Nat → UInt8) (r : Nat) : Decidable (IsResponse buf r) :=
  inferInstanceAs (Decidable (_ ∧ _))

/-- The end of the attributes, as the header gives it. -/
def declaredEnd (buf : Nat → UInt8) : Nat := sizeofStunHeader + (Tlv.be16 (buf 2) (buf 3)).toNat

structure StunResult where
  code : Int
  /-- `client->addr`. -/
  addr : Naddr
  reads : List Span

/-- The end of a call, when an address was found and when none was. -/
def answered (inet : Inet) (addr : Naddr) (reads : List Span) : Option Mapped → StunResult
  | some found =>
    ⟨0,
      lnMake4 ((lnIpv4 (inet.ntop4 found.ip) found.port).get
        (lnIp_isSome (inet.ntop4_fits found.ip) _)), reads⟩
  | none => ⟨-1, addr, reads⟩

/-- `natp_request_stun`, with the datagram that comes, if one does. -/
def natpRequestStun (inet : Inet) (behind : Nat → UInt8) (addr : Naddr) :
    Option (List UInt8) → StunResult
  | none => answered inet addr [] none
  | some datagram =>
    let data := stored datagram
    let buf := received behind data
    if IsResponse buf data.length then
      let endPos := min (declaredEnd buf) data.length
      let walk := attrLoop buf endPos endPos sizeofStunHeader
      answered inet addr walk.2 walk.1
    else answered inet addr [] none

/-! ## What a response says -/

section

variable (attr : Tlv.Attr)

def IsMapped (type : UInt16) : Bool :=
  decide (IsXorMapped type) || decide (type = attrMappedAddress)

/-- The value lies in the range, has an IPv4 address and room for it. -/
structure Complete : Prop where
  eight : 8 ≤ attr.len
  inside : attr.len ≤ attr.behind.length
  family : attr.behind.getD 1 0 = 1

instance : Decidable (Complete attr) :=
  decidable_of_iff (8 ≤ attr.len ∧ attr.len ≤ attr.behind.length ∧ attr.behind.getD 1 0 = 1)
    ⟨fun ⟨eight, inside, family⟩ => ⟨eight, inside, family⟩, fun h => ⟨h.eight, h.inside, h.family⟩⟩

def bytes4 (a b c d : UInt8) : Bytes 4 := ⟨[a, b, c, d].toArray, rfl⟩

/-- The address in an attribute, without the cookie. -/
def said : Mapped :=
  let value i := attr.behind.getD i 0
  if IsXorMapped attr.type then
    ⟨bytes4 (value 4 ^^^ 0x21) (value 5 ^^^ 0x12) (value 6 ^^^ 0xA4) (value 7 ^^^ 0x42),
      Tlv.be16 (value 2 ^^^ 0x21) (value 3 ^^^ 0x12)⟩
  else ⟨bytes4 (value 4) (value 5) (value 6) (value 7), Tlv.be16 (value 2) (value 3)⟩

/-- The first mapped address among the attributes of a response, as far as they were received. -/
def firstMapped (buf : Nat → UInt8) (data : List UInt8) : Option Tlv.Attr :=
  if IsResponse buf data.length then
    Tlv.first IsMapped ((data.take (declaredEnd buf)).drop sizeofStunHeader)
  else none

/-- The mapped address of a datagram, if it is complete. -/
def mappedAddress (buf : Nat → UInt8) (data : List UInt8) : Option Mapped :=
  match firstMapped buf data with
  | some attr => if Complete attr then some (said attr) else none
  | none => none

/-- The kinds of attributes that are decoded as they should be: those too short, those complete, and
    those of `ATTR_MAPPED_ADDRESS` with another family. -/
def Decodable : Prop :=
  attr.len < 8 ∨ Complete attr ∨ (attr.type = attrMappedAddress ∧ 2 ≤ attr.behind.length ∧
    attr.behind.getD 1 0 ≠ 1)

end

/-! ## The values, byte by byte -/

theorem toBytes4_eq {w : UInt32} {a b c d : UInt8} (image : bytes32 w = [a, b, c, d]) :
    toBytes4 w = bytes4 a b c d := by
  simp only [toBytes4, bytes4, image]

theorem bytes16_be16 (a b : UInt8) : bytes16 (Tlv.be16 a b) = [b, a] := by
  rw [Tlv.be16, swap16, bytes16_word16 rfl, bytes16_word16 rfl]
  rfl

theorem xorAddress_eq (value : Nat → UInt8) :
    xorAddress value
      = ⟨bytes4 (value 4 ^^^ 0x21) (value 5 ^^^ 0x12) (value 6 ^^^ 0xA4) (value 7 ^^^ 0x42),
      Tlv.be16 (value 2 ^^^ 0x21) (value 3 ^^^ 0x12)⟩ := by
  have cookie : bytes32 stunMagicCookie = [0x42, 0xA4, 0x12, 0x21] := rfl
  have ip : bytes32
      (swap32 (swap32 (word32 [value 4, value 5, value 6, value 7]) ^^^ stunMagicCookie))
      = [value 4 ^^^ 0x21, value 5 ^^^ 0x12, value 6 ^^^ 0xA4, value 7 ^^^ 0x42] := by
    rw [bytes32_swap32, bytes32_xor, bytes32_swap32, bytes32_word32 rfl, cookie]
    rfl
  have port : Tlv.be16 (value 2) (value 3) ^^^ 0x2112
      = Tlv.be16 (value 2 ^^^ 0x21) (value 3 ^^^ 0x12) := by
    apply bytes16_inj
    rw [bytes16_xor, bytes16_be16, bytes16_be16]
    rfl
  rw [xorAddress, toBytes4_eq ip, port]

theorem plainAddress_eq (value : Nat → UInt8) :
    plainAddress value = ⟨bytes4 (value 4) (value 5) (value 6) (value 7),
      Tlv.be16 (value 2) (value 3)⟩ := by
  rw [plainAddress, swap32_swap32, toBytes4_eq (bytes32_word32 rfl)]

/-! ## The walk to the first mapped address -/

section

variable {buf : Nat → UInt8} {range : List UInt8} {attr : Tlv.Attr} {q : Nat}

/-- The branch that a mapped address takes. -/
def decode (buf : Nat → UInt8) (type : UInt16) (pos len : Nat) : Option Mapped × List Span :=
  if IsXorMapped type then xorMapped buf pos len else mapped buf pos len

/-- A mapped address at a position of a range. -/
structure FoundAt (range : List UInt8) (attr : Tlv.Attr) (q : Nat) : Prop where
  kind : IsMapped attr.type = true
  inside : q + 4 ≤ range.length
  behind : attr.behind = range.drop (q + 4)

/-- Every turn goes on by four bytes at least, so that as many turns as bytes are enough. -/
theorem attrLoop_add_fuel (buf : Nat → UInt8) (endPos more : Nat) :
    ∀ (fuel pos : Nat), endPos ≤ pos + fuel →
      attrLoop buf endPos (fuel + more) pos = attrLoop buf endPos fuel pos := by
  intro fuel
  induction fuel with
  | zero =>
    intro pos enough
    cases more with
    | zero => rfl
    | succ more => rw [Nat.zero_add, attrLoop, attrLoop, if_neg (by omega)]
  | succ fuel ih =>
    intro pos enough
    rw [Nat.succ_add, attrLoop, attrLoop]
    have next : ∀ len, attrLoop buf endPos (fuel + more) (pos + 4 + Tlv.padded len)
        = attrLoop buf endPos fuel (pos + 4 + Tlv.padded len) := fun len => ih _ (by omega)
    simp only [next]

theorem headers_within {pos length : Nat} {more : List Span} (inside : pos + 4 ≤ length)
    (within : ∀ s ∈ more, s.Within length) :
    ∀ s ∈ (⟨pos, 2⟩ : Span) :: ⟨pos + 2, 2⟩ :: more, s.Within length := by
  have type : Span.Within ⟨pos, 2⟩ length := by simp only [Span.Within]; omega
  have len : Span.Within ⟨pos + 2, 2⟩ length := by simp only [Span.Within]; omega
  exact List.forall_mem_cons.mpr ⟨type, List.forall_mem_cons.mpr ⟨len, within⟩⟩

theorem attrLoop_turn (agrees : ∀ i < range.length, buf i = range.getD i 0) {pos : Nat}
    (inside : pos + 4 ≤ range.length)
    (fuel : Nat) : ∃ attr, Tlv.header (range.drop pos) = some attr ∧ attr.behind = range.drop
    (pos + 4) ∧
      attrLoop buf range.length (fuel + 1) pos =
        let rest := if IsMapped attr.type then decode buf attr.type pos attr.len
          else attrLoop buf range.length fuel (pos + 4 + Tlv.padded attr.len)
        (rest.1, ⟨pos, 2⟩ :: ⟨pos + 2, 2⟩ :: rest.2) := by
  refine ⟨_, Tlv.header_drop inside, rfl, ?_⟩
  rw [attrLoop, if_pos inside, agrees pos (by omega), agrees (pos + 1) (by omega),
    agrees (pos + 2) (by omega), agrees (pos + 3) (by omega)]
  simp only
  generalize Tlv.be16 (range.getD pos 0) (range.getD (pos + 1) 0) = type
  by_cases isXor : IsXorMapped type
  · simp [IsMapped, decode, isXor]
  · by_cases plain : type = attrMappedAddress
    · simp [IsMapped, decode, plain]
    · simp [IsMapped, isXor, plain]

/-- The walk stops where the range is found to have its first mapped address. -/
theorem attrLoop_find (agrees : ∀ i < range.length, buf i = range.getD i 0) :
    ∀ (fuel pos : Nat), match Tlv.find IsMapped fuel (range.drop pos) with
      | none => (attrLoop buf range.length fuel pos).1 = none ∧
          ∀ s ∈ (attrLoop buf range.length fuel pos).2, s.Within range.length
      | some attr =>
        ∃ q headers, FoundAt range attr q ∧ (∀ s ∈ headers, Span.Within s range.length) ∧
          attrLoop buf range.length fuel pos
            = ((decode buf attr.type q attr.len).1,
              headers ++ (decode buf attr.type q attr.len).2) := by
  intro fuel
  induction fuel with
  | zero => intro pos; exact ⟨rfl, by simp [attrLoop]⟩
  | succ fuel ih =>
    intro pos
    rw [Tlv.find]
    by_cases inside : pos + 4 ≤ range.length
    · obtain ⟨attr, here, behind, turn⟩ := attrLoop_turn agrees inside fuel
      rw [here, turn]
      -- a mapped address ends the walk here, any other attribute is passed over
      by_cases kind : IsMapped attr.type = true
      · simp only [if_pos kind]
        exact ⟨pos, _, ⟨kind, inside, behind⟩, headers_within inside (List.forall_mem_nil _), rfl⟩
      · simp only [if_neg kind, behind, List.drop_drop]
        have next := ih (pos + 4 + Tlv.padded attr.len)
        generalize attrLoop buf range.length fuel (pos + 4 + Tlv.padded attr.len) = walk at next ⊢
        split at next
        next => exact ⟨next.1, headers_within inside next.2⟩
        next =>
          obtain ⟨q, more, found, within, rfl⟩ := next
          exact ⟨q, ⟨pos, 2⟩ :: ⟨pos + 2, 2⟩ :: more, found, headers_within inside within, rfl⟩
    · rw [Tlv.header_drop_eq_none (by omega), attrLoop, if_neg inside]
      exact ⟨rfl, List.forall_mem_nil _⟩

/-! ## The branches -/

theorem value_eq (agrees : ∀ i < range.length, buf i = range.getD i 0)
    (found : FoundAt range attr q) {i : Nat}
    (inside : i < attr.behind.length) : buf (q + 4 + i) = attr.behind.getD i 0 := by
  rw [found.behind, List.length_drop] at inside
  rw [agrees (q + 4 + i) (by omega), found.behind, List.getD_eq_getElem?_getD,
    List.getD_eq_getElem?_getD, List.getElem?_drop]

theorem FoundAt.length_eq (found : FoundAt range attr q) :
    q + 4 + attr.behind.length = range.length := by
  have inside := found.inside
  rw [found.behind, List.length_drop]
  omega

theorem said_eq (agrees : ∀ i < range.length, buf i = range.getD i 0) (found : FoundAt range attr q)
    (room : 8 ≤ attr.behind.length) :
    said attr = if IsXorMapped attr.type then xorAddress (fun i => buf (q + 4 + i))
      else plainAddress (fun i => buf (q + 4 + i)) := by
  rw [xorAddress_eq, plainAddress_eq, said]
  simp only [value_eq agrees found (show 2 < _ by omega),
    value_eq agrees found (show 3 < _ by omega),
    value_eq agrees found (show 4 < _ by omega), value_eq agrees found (show 5 < _ by omega),
    value_eq agrees found (show 6 < _ by omega), value_eq agrees found (show 7 < _ by omega)]

theorem decode_of_decodable (agrees : ∀ i < range.length, buf i = range.getD i 0)
    (found : FoundAt range attr q) (decodable : Decodable attr) :
    (∀ s ∈ (decode buf attr.type q attr.len).2, s.Within range.length) ∧
      (decode buf attr.type q attr.len).1 = if Complete attr then some (said attr) else none := by
  have length := found.length_eq
  rcases decodable with short | complete | ⟨plain, room, family⟩
  · have incomplete : ¬ Complete attr := fun complete => Nat.not_lt.mpr complete.eight short
    rw [if_neg incomplete]
    unfold decode xorMapped mapped
    simp [short]
  · -- what the branches read lies in the first eight bytes of the value
    have eight := complete.eight
    have inside := complete.inside
    have family : buf (q + 4 + 1) = 1 := (value_eq agrees found (by omega)).trans complete.family
    rw [if_pos complete, said_eq agrees found (by omega)]
    unfold decode xorMapped mapped
    split
    · simp [Span.Within, Nat.not_lt.mpr eight]
      omega
    · simp [Span.Within, Nat.not_lt.mpr eight, family]
      omega
  · have incomplete : ¬ Complete attr := fun complete => family complete.family
    have isPlain : ¬ IsXorMapped attr.type := by rw [plain]; decide
    rw [if_neg incomplete, decode, if_neg isPlain, mapped, value_eq agrees found (by omega)]
    split
    · exact ⟨by simp, rfl⟩
    · simp [Span.Within]
      omega

/-- Otherwise the code reads past the range or answers with an address that is not there. -/
theorem decode_of_not_decodable (agrees : ∀ i < range.length, buf i = range.getD i 0)
    (found : FoundAt range attr q) (not : ¬ Decodable attr) :
    (∃ s ∈ (decode buf attr.type q attr.len).2, ¬ s.Within range.length) ∨
      ((decode buf attr.type q attr.len).1 ≠ none ∧ ¬ Complete attr) := by
  have length := found.length_eq
  simp only [Decodable, not_or] at not
  obtain ⟨long, incomplete, other⟩ := not
  by_cases isXor : IsXorMapped attr.type
  · right
    simp [decode, isXor, xorMapped, long, incomplete]
  · have kind := found.kind
    simp only [IsMapped, Bool.or_eq_true, decide_eq_true_eq] at kind
    have plain := kind.resolve_left isXor
    by_cases room : 2 ≤ attr.behind.length
    · have family : attr.behind.getD 1 0 = 1 := by
        by_contra other'
        exact other ⟨plain, room, other'⟩
      right
      have read := (value_eq agrees found (show 1 < _ by omega)).trans family
      simp [decode, isXor, mapped, long, incomplete, read]
    -- not even the family lies in the range
    · left
      refine ⟨⟨q + 4 + 1, 1⟩, ?_, ?_⟩
      · rw [decode, if_neg isXor, mapped, if_neg long]
        split <;> simp
      · simp only [Span.Within]
        omega

end

/-! ## What a call does -/

section

variable (inet : Inet) (behind : Nat → UInt8) (addr : Naddr) (datagram : List UInt8)

/-- The walk ends, reads no byte past the attributes that were received, and the call answers with
    the mapped address, or with -1 and no change. -/
structure DecodedFromReceived : Prop where
  ends : let buf := received behind (stored datagram)
    let endPos := min (declaredEnd buf) (stored datagram).length
    ∀ more, attrLoop buf endPos (endPos + more) sizeofStunHeader
      = attrLoop buf endPos endPos sizeofStunHeader
  reads : ∀ s ∈ (natpRequestStun inet behind addr (some datagram)).reads,
    s.Within (min (declaredEnd (received behind (stored datagram))) (stored datagram).length)
  result : natpRequestStun inet behind addr (some datagram)
    = answered inet addr (natpRequestStun inet behind addr (some datagram)).reads
        (mappedAddress (received behind (stored datagram)) (stored datagram))

variable {inet behind addr datagram}

theorem agrees_received (behind : Nat → UInt8) (data : List UInt8) (n : Nat) :
    ∀ i < (data.take n).length, received behind data i = (data.take n).getD i 0 := by
  intro i below
  have inside : i < data.length := by rw [List.length_take] at below; omega
  rw [received, List.getD_eq_getElem _ _ inside, List.getD_eq_getElem _ _ below, List.getElem_take]

/-- What the walk does, for the first mapped address of a response. -/
theorem walk_spec (data : List UInt8) (response : IsResponse (received behind data) data.length) :
    let buf := received behind data
    let endPos := min (declaredEnd buf) data.length
    let walk := attrLoop buf endPos endPos sizeofStunHeader
    match firstMapped buf data with
    | none => walk.1 = none ∧ ∀ s ∈ walk.2, s.Within endPos
    | some attr => ∃ q headers, FoundAt (data.take (declaredEnd buf)) attr q ∧
        (∀ s ∈ headers, Span.Within s endPos) ∧
        walk = ((decode buf attr.type q attr.len).1,
          headers ++ (decode buf attr.type q attr.len).2) := by
  intro buf endPos walk
  have length : (data.take (declaredEnd buf)).length = endPos := List.length_take
  -- the walk has enough turns, as each attribute takes a header at least
  have main := attrLoop_find (agrees_received behind data (declaredEnd buf)) endPos sizeofStunHeader
  have enough : ((data.take (declaredEnd buf)).drop sizeofStunHeader).length ≤ endPos := by
    rw [List.length_drop, length]
    exact Nat.sub_le _ _
  rw [Tlv.find_of_length_le enough, length] at main
  rw [firstMapped, if_pos response]
  exact main

theorem answered_reads (reads : List Span) (found : Option Mapped) :
    (answered inet addr reads found).reads = reads := by
  cases found <;> rfl

theorem natpRequestStun_of_response (inet : Inet) (addr : Naddr)
    (response : IsResponse (received behind (stored datagram)) (stored datagram).length) :
    natpRequestStun inet behind addr (some datagram) =
      let buf := received behind (stored datagram)
      let endPos := min (declaredEnd buf) (stored datagram).length
      answered inet addr (attrLoop buf endPos endPos sizeofStunHeader).2
        (attrLoop buf endPos endPos sizeofStunHeader).1 := by
  simp only [natpRequestStun, if_pos response]

theorem walk_ends (data : List UInt8) : let buf := received behind data
    let endPos := min (declaredEnd buf) data.length
    ∀ more, attrLoop buf endPos (endPos + more) sizeofStunHeader
      = attrLoop buf endPos endPos sizeofStunHeader :=
  fun more => attrLoop_add_fuel _ _ more _ _ (Nat.le_add_left _ _)

theorem decoded_of_no_response
    (other : ¬ IsResponse (received behind (stored datagram)) (stored datagram).length) :
    DecodedFromReceived inet behind addr datagram := by
  have call : natpRequestStun inet behind addr (some datagram) = answered inet addr [] none := by
    simp only [natpRequestStun, if_neg other]
  refine ⟨walk_ends _, ?_, ?_⟩
  · rw [call]
    exact List.forall_mem_nil _
  · rw [call, mappedAddress, firstMapped, if_neg other]
    rfl

section

variable (response : IsResponse (received behind (stored datagram)) (stored datagram).length)

include response

theorem decoded_of_no_mapped
    (absent : firstMapped (received behind (stored datagram)) (stored datagram) = none) :
    DecodedFromReceived inet behind addr datagram := by
  have call := natpRequestStun_of_response inet addr response
  have walk := walk_spec (stored datagram) response
  simp only [absent] at walk
  refine ⟨walk_ends _, ?_, ?_⟩
  · rw [call, answered_reads]
    exact walk.2
  · rw [call, answered_reads, mappedAddress, absent]
    simp only [walk.1]

theorem decoded_iff_of_mapped {attr : Tlv.Attr}
    (found : firstMapped (received behind (stored datagram)) (stored datagram) = some attr) :
    DecodedFromReceived inet behind addr datagram ↔ Decodable attr := by
  have call := natpRequestStun_of_response inet addr response
  have walk := walk_spec (stored datagram) response
  simp only [found] at walk
  obtain ⟨q, headers, place, within, decoded⟩ := walk
  have agrees := agrees_received behind (stored datagram)
    (declaredEnd (received behind (stored datagram)))
  constructor
  · rintro ⟨-, reads, result⟩
    by_contra undecodable
    rw [call, answered_reads] at reads result
    -- a read past the range, or an answer where there should be none
    rcases decode_of_not_decodable agrees place undecodable with ⟨s, member, outside⟩
      | ⟨answers, incomplete⟩
    · rw [List.length_take] at outside
      rw [decoded] at reads
      exact outside (reads s (List.mem_append_right _ member))
    · obtain ⟨ip, answer⟩ := Option.ne_none_iff_exists'.mp answers
      simp only [decoded, answer, mappedAddress, found, if_neg incomplete] at result
      cases congrArg StunResult.code result
  · intro decodable
    obtain ⟨reads, value⟩ := decode_of_decodable agrees place decodable
    rw [List.length_take] at reads
    refine ⟨walk_ends _, ?_, ?_⟩
    · rw [call, answered_reads, decoded]
      exact List.forall_mem_append.mpr ⟨within, reads⟩
    · rw [call, answered_reads]
      simp only [decoded, value, mappedAddress, found]

end

/-- A response is decoded from received bytes exactly if its first mapped address is of one of the
    kinds that are decoded as they should be. -/
theorem decoded_from_received_iff : DecodedFromReceived inet behind addr datagram ↔
    ∀ attr, firstMapped (received behind (stored datagram)) (stored datagram) = some attr →
      Decodable attr := by
  by_cases response : IsResponse (received behind (stored datagram)) (stored datagram).length
  · cases found : firstMapped (received behind (stored datagram)) (stored datagram) with
    | none =>
      exact iff_of_true (decoded_of_no_mapped response found) (fun _ absent => by cases absent)
    | some attr =>
      rw [decoded_iff_of_mapped response found]
      constructor
      · rintro decodable _ ⟨⟩
        exact decodable
      · exact fun all => all attr rfl
  · refine iff_of_true (decoded_of_no_response response) ?_
    rw [firstMapped, if_neg response]
    intro attr absent
    cases absent

end

/-- A response that ends behind the header of its only attribute. -/
def cutResponse : List UInt8 :=
  [0x01, 0x01, 0x00, 0x0C, 0x21, 0x12, 0xA4, 0x42, 0, 0, 0, 0, 0, 0, 0, 0, 0, 0, 0, 0, 0x00, 0x20,
    0x00, 0x08]

/-- The code takes the eight bytes of the value, none of which was received, for an address. -/
theorem cut_response_decoded :
    (natpRequestStun sampleInet (fun _ => 0) Naddr.zero (some cutResponse)).code = 0 ∧
    ¬ DecodedFromReceived sampleInet (fun _ => 0) Naddr.zero cutResponse := by
  refine ⟨by decide, fun decoded => ?_⟩
  have port := decoded.reads ⟨26, 2⟩ (by decide)
  exact absurd port (by decide)

end Soter2.Natpunch
