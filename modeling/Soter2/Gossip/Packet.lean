import Mathlib.Data.List.Basic
import Mathlib.Tactic.Common
import Soter2.Gossip.System
import Soter2.Library.Buffer
import Soter2.Protocol.Wire

/-! # Gossip packets (`gossip/src/system.c`)

A packet holds a count and so many entries, as they lie in memory.

* `fromPacket_exact_iff` — when a packet is read within its payload.
* `gossipFromPacket_one`, `gossipToData_stray` — a packet of one entry is read back, and the writer
  loses its way in more.
-/

namespace Soter2.Gossip

open Buffer (Span)
open Lownet Protocol
open Words (bytes32 word32)

def GossipMetadata.layout : Layout GossipMetadata :=
  ((Layout.bytes E2ee.keyBytes).pair Naddr.layout).congr (fun (pubkey, server) => ⟨pubkey, server⟩)
    (fun md => (md.pubkey, md.availableStateServer)) (fun _ => rfl) (fun _ => rfl)

def GossipEntry.layout : Layout GossipEntry :=
  (Layout.u32.pair <| Naddr.layout.pair <| Layout.u32.pair <|
    Layout.u64.pair GossipMetadata.layout).congr
    (fun (uid, addr, version, timestamp, md) => ⟨uid, addr, version, timestamp, md⟩)
    (fun e => (e.uid, e.addr, e.version, e.timestamp, e.md)) (fun _ => rfl) (fun _ => rfl)

/-- `sizeof(gossip_entry)`. -/
abbrev sizeofGossipEntry : Nat := 152

theorem GossipEntry.layout_size : GossipEntry.layout.size = sizeofGossipEntry := rfl

/-! ## Reading -/

structure FromPacket where
  code : Int
  system : GossipSystem
  /-- The entries that were given to `gossip_new_entry`. -/
  offered : List GossipEntry
  /-- What was read of the data of the packet. -/
  reads : List Span

/-- A read of the data, in front of what follows. -/
def FromPacket.reading (span : Span) (r : FromPacket) : FromPacket :=
  { r with reads := span :: r.reads }

/-- The registration of an entry, in front of what follows. -/
def FromPacket.offering (header : GossipEntry) (r : FromPacket) : FromPacket :=
  { r with offered := header :: r.offered }

variable (behind : Nat → UInt8) (data : List UInt8)

/-- The loop of `gossip_from_packet` with so many entries to go.  The entries are counted from
    behind the count, and the offset is checked against the size with the count. -/
def fromPacketLoop (dataSz : Nat) : Nat → Nat → GossipSystem → FromPacket
  | 0, _, g => ⟨0, g, [], []⟩
  | left + 1, offset, g =>
    let span : Span := ⟨4 + offset, sizeofGossipEntry⟩
    let header := GossipEntry.layout.ofImage (Buffer.read behind data span)
    FromPacket.reading span <|
      if offset + sizeofGossipEntry > dataSz then ⟨-1, g, [], []⟩
      else (fromPacketLoop dataSz left (offset + sizeofGossipEntry)
        (gossipNewEntry g header)).offering header

def gossipFromPacket (g : GossipSystem) (packIn : Protopack) : FromPacket :=
  let dataSz := packIn.dSize.toNat
  if dataSz < sizeofGossipEntry + 4 then ⟨-1, g, [], []⟩
  else
    let count : Span := ⟨0, 4⟩
    let entriesN := htonl (word32 (Buffer.read behind packIn.data count))
    (fromPacketLoop behind packIn.data dataSz entriesN.toNat 0 g).reading count

/-! ## Writing -/

inductive ToData where
  /-- The function returns -1. -/
  | failed
  /-- A pointer is read that is not in the array. -/
  | strayPointer
  | done (outData : List UInt8)
deriving DecidableEq

/-- The copies of `gossip_to_data`: the `i`-th copies one entry from where the `i`-th pointer
    points to. -/
def copyEntries (entries : List (List GossipEntry)) : Nat → Option (List UInt8)
  | 0 => some []
  | n + 1 =>
    match copyEntries entries n, entries[n]?.bind List.head? with
    | some outData, some entry => some (outData ++ GossipEntry.layout.image entry)
    | _, _ => none

/-- `gossip_to_data`, where `entries` is an array of pointers to arrays of entries. -/
def gossipToData (entries : List (List GossipEntry)) (n : Nat) : ToData :=
  if n = 0 then .failed
  else
    match copyEntries entries n with
    | none => .strayPointer
    | some outData => .done (bytes32 (htonl (UInt32.ofNat n)) ++ outData)

variable {behind data}

/-! ## The entries of a payload -/

/-- The count in front of a payload. -/
def entryCount (payload : List UInt8) : Nat := (htonl (word32 (payload.take 4))).toNat

/-- The entries that a payload has room for. -/
def entryRoom (payload : List UInt8) : Nat := (payload.length - 4) / sizeofGossipEntry

def entryAt (payload : List UInt8) (i : Nat) : GossipEntry :=
  GossipEntry.layout.ofImage ((payload.drop (4 + i * sizeofGossipEntry)).take sizeofGossipEntry)

def entrySpan (i : Nat) : Span := Buffer.record 4 sizeofGossipEntry i

/-- Nothing is read but the payload, and its entries are registered in order, as far as the count
    goes and there is room; the code says whether that was all. -/
structure ParsesExactly (behind : Nat → UInt8) (g : GossipSystem) (pk : Protopack) : Prop where
  within : ∀ s ∈ (gossipFromPacket behind g pk).reads, s.Within pk.payload.length
  offered : (gossipFromPacket behind g pk).offered
    = (List.range (min (entryCount pk.payload) (entryRoom pk.payload))).map (entryAt pk.payload)
  code : (gossipFromPacket behind g pk).code = 0 ↔ entryCount pk.payload ≤ entryRoom pk.payload

@[simp] theorem reading_system (span : Span) (r : FromPacket) :
    (r.reading span).system = r.system := rfl
@[simp] theorem reading_offered (span : Span) (r : FromPacket) :
    (r.reading span).offered = r.offered := rfl
@[simp] theorem reading_code (span : Span) (r : FromPacket) : (r.reading span).code = r.code := rfl
@[simp] theorem reading_reads (span : Span) (r : FromPacket) :
    (r.reading span).reads = span :: r.reads := rfl

/-- The store gets what is offered, whatever that is. -/
theorem fromPacketLoop_system (dataSz left offset : Nat) (g : GossipSystem) :
    (fromPacketLoop behind data dataSz left offset g).system
      = gossipNewEntries g (fromPacketLoop behind data dataSz left offset g).offered := by
  induction left generalizing offset g with
  | zero => rfl
  | succ left ih =>
    simp only [fromPacketLoop, reading_system, reading_offered]
    split
    · rfl
    · exact ih _ _

theorem gossipFromPacket_short {g : GossipSystem} {pk : Protopack}
    (short : pk.dSize.toNat < sizeofGossipEntry + 4) :
    gossipFromPacket behind g pk = ⟨-1, g, [], []⟩ := if_pos short

theorem gossipFromPacket_long {g : GossipSystem} {pk : Protopack}
    (long : ¬ pk.dSize.toNat < sizeofGossipEntry + 4) :
    gossipFromPacket behind g pk =
      (fromPacketLoop behind pk.data pk.dSize.toNat
        (htonl (word32 (Buffer.read behind pk.data ⟨0, 4⟩))).toNat 0 g).reading
        ⟨0, 4⟩ := if_neg long

theorem gossipFromPacket_system (g : GossipSystem) (pk : Protopack) :
    (gossipFromPacket behind g pk).system
      = gossipNewEntries g (gossipFromPacket behind g pk).offered := by
  by_cases short : pk.dSize.toNat < sizeofGossipEntry + 4
  · rw [gossipFromPacket_short short]
    rfl
  · rw [gossipFromPacket_long short, reading_system, reading_offered, fromPacketLoop_system]

/-- Several turns of the loop, through entries that all lie within the data. -/
theorem fromPacketLoop_inside (k left i : Nat)
    (inside : 4 + (i + k) * sizeofGossipEntry ≤ data.length) (g : GossipSystem) :
    fromPacketLoop behind data data.length (k + left) (i * sizeofGossipEntry) g =
      let es := (List.range' i k).map (entryAt data)
      let r := fromPacketLoop behind data data.length left ((i + k) * sizeofGossipEntry)
        (gossipNewEntries g es)
      ⟨r.code, r.system, es ++ r.offered, (List.range' i k).map entrySpan ++ r.reads⟩ := by
  induction k generalizing i g with
  | zero => rw [Nat.zero_add]; rfl
  | succ k ih =>
    have next : i * sizeofGossipEntry + sizeofGossipEntry = (i + 1) * sizeofGossipEntry :=
      (Nat.succ_mul i _).symm
    have behind_ : i + 1 + k = i + (k + 1) := by omega
    have reach : (i + 1) * sizeofGossipEntry ≤ (i + (k + 1)) * sizeofGossipEntry :=
      Nat.mul_le_mul_right _ (by omega)
    have within : (entrySpan i).Within data.length := by
      simp only [entrySpan, Buffer.record, Span.Within]
      omega
    have header : Buffer.read behind data (entrySpan i)
        = (data.drop (4 + i * sizeofGossipEntry)).take sizeofGossipEntry :=
          Buffer.read_of_within within
    -- the code compares the end of the entry with the size of the data
    have small : ¬ (i + 1) * sizeofGossipEntry > data.length := by omega
    have here : fromPacketLoop behind data data.length (k + left + 1) (i * sizeofGossipEntry) g =
        ((fromPacketLoop behind data data.length (k + left) ((i + 1) * sizeofGossipEntry)
          (gossipNewEntry g (entryAt data i))).offering (entryAt data i)).reading
            (entrySpan i) := by
      rw [fromPacketLoop, next, if_neg small, entryAt, ← header]
      rfl
    rw [Nat.succ_add, here, ih (i + 1) (by rw [behind_]; exact inside), behind_]
    rfl

/-- A turn for an entry that does not lie within the data reads behind it. -/
theorem fromPacketLoop_outside (left i : Nat) (g : GossipSystem) :
    entrySpan i ∈ (fromPacketLoop behind data data.length (left + 1) (i * sizeofGossipEntry)
      g).reads := by
  rw [fromPacketLoop, reading_reads]
  exact List.mem_cons_self

/-! ## When a packet is read within its payload -/

section Exact

variable {g : GossipSystem} {pk : Protopack}

theorem entryRoom_inside {payload : List UInt8} (long : ¬ payload.length < sizeofGossipEntry + 4)
    {n : Nat} (few : n ≤ entryRoom payload) : 4 + n * sizeofGossipEntry ≤ payload.length := by
  have := (Nat.le_div_iff_mul_le (by decide)).mp few
  omega

theorem gossipFromPacket_sized (sized : pk.Sized)
    (long : ¬ pk.payload.length < sizeofGossipEntry + 4) :
    gossipFromPacket behind g pk =
      (fromPacketLoop behind pk.payload pk.payload.length (entryCount pk.payload) 0 g).reading
        ⟨0, 4⟩ := by
  have count : Buffer.read behind pk.payload ⟨0, 4⟩ = pk.payload.take 4 :=
    Buffer.read_of_within (show 0 + 4 ≤ pk.payload.length by omega)
  rw [sized.payload] at long count ⊢
  have size : pk.dSize.toNat = pk.data.length := sized.symm
  rw [gossipFromPacket_long (by rw [size]; exact long), count, size]
  rfl

/-- Where there is room for all entries, the loop goes through them and ends. -/
theorem parsesExactly_of_le (sized : pk.Sized) (long : ¬ pk.payload.length < sizeofGossipEntry + 4)
    (few : entryCount pk.payload ≤ entryRoom pk.payload) : ParsesExactly behind g pk := by
  have inside := entryRoom_inside long few
  have loop := @fromPacketLoop_inside behind pk.payload (entryCount pk.payload) 0 0
    (by simpa using inside) g
  rw [Nat.add_zero, Nat.zero_mul, ← List.range_eq_range'] at loop
  have parsed := @gossipFromPacket_sized behind g pk sized long
  rw [loop] at parsed
  constructor
  · intro s member
    rw [parsed, reading_reads, List.mem_cons] at member
    obtain rfl | member := member
    · show 0 + 4 ≤ pk.payload.length
      omega
    · obtain ⟨i, before, rfl⟩ : ∃ i < entryCount pk.payload, entrySpan i = s := by
        simpa [fromPacketLoop] using member
      exact (Buffer.record_within_iff (by decide) (by omega) i).mpr (Nat.lt_of_lt_of_le before few)
  · rw [parsed, Nat.min_eq_left few]
    exact List.append_nil _
  · rw [parsed]
    exact iff_of_true rfl few

/-- Where there is no room for an entry, it is read before the check, and behind the payload. -/
theorem le_of_parsesExactly (sized : pk.Sized) (long : ¬ pk.payload.length < sizeofGossipEntry + 4)
    (exactly : ParsesExactly behind g pk) : entryCount pk.payload ≤ entryRoom pk.payload := by
  by_contra many
  -- the loop reads the first entry that there is no room for before it checks the room
  obtain ⟨left, count⟩ : ∃ left, entryCount pk.payload = entryRoom pk.payload + (left + 1) :=
    ⟨entryCount pk.payload - entryRoom pk.payload - 1, by omega⟩
  have inside := entryRoom_inside long (Nat.le_refl _)
  have loop := @fromPacketLoop_inside behind pk.payload (entryRoom pk.payload) (left + 1) 0
    (by simpa using inside) g
  have read : entrySpan (entryRoom pk.payload) ∈ (gossipFromPacket behind g pk).reads := by
    rw [gossipFromPacket_sized sized long, count, ← Nat.zero_mul sizeofGossipEntry, loop,
      reading_reads, Nat.zero_add]
    exact List.mem_cons_of_mem _ (List.mem_append_right _ (fromPacketLoop_outside left _ _))
  have within := (Buffer.record_within_iff (by decide) (by omega) _).mp (exactly.within _ read)
  exact Nat.lt_irrefl _ within

/-- A packet is read within its payload, and all of it, exactly if it announces no more entries
    than it has room for. -/
theorem fromPacket_exact_iff (behind : Nat → UInt8) (g : GossipSystem) (pk : Protopack)
    (sized : pk.Sized) (long : sizeofGossipEntry + 4 ≤ pk.payload.length) :
    ParsesExactly behind g pk ↔ entryCount pk.payload ≤ entryRoom pk.payload :=
  ⟨le_of_parsesExactly sized (Nat.not_lt.mpr long), parsesExactly_of_le sized (Nat.not_lt.mpr long)⟩

end Exact

/-! ## What the writer makes -/

theorem gossipToData_one (entry : GossipEntry) :
    gossipToData [[entry]] 1 = .done (bytes32 (htonl 1) ++ GossipEntry.layout.image entry) := rfl

/-- The second pointer is taken from behind an array of one. -/
theorem gossipToData_stray (entries : List GossipEntry) {n : Nat} (several : 2 ≤ n) :
    gossipToData [entries] n = .strayPointer := by
  obtain ⟨k, rfl⟩ : ∃ k, n = k + 2 := ⟨n - 2, by omega⟩
  have behind_ : ([entries] : List (List GossipEntry))[k + 1]?.bind List.head? = none := by simp
  rw [gossipToData, if_neg (by omega), copyEntries, behind_]
  cases copyEntries [entries] (k + 1) <;> rfl

theorem gossipFromPacket_one (behind : Nat → UInt8) (g : GossipSystem) {pk : Protopack}
    (sized : pk.Sized) {entry : GossipEntry}
    (payload : pk.payload = bytes32 (htonl 1) ++ GossipEntry.layout.image entry) :
    (gossipFromPacket behind g pk).system = gossipNewEntry g entry := by
  have length : pk.payload.length = 156 := by
    rw [payload, List.length_append, Layout.length_image]
    rfl
  have count : entryCount pk.payload = 1 := by
    rw [entryCount, payload, Words.take_bytes32_append, Words.word32_bytes32]
    rfl
  -- the payload is the count and one entry, so it is parsed whole
  have room : entryRoom pk.payload = 1 := by
    rw [entryRoom, length]
    rfl
  have long : ¬ pk.payload.length < sizeofGossipEntry + 4 := by rw [length]; decide
  have first : entryAt pk.payload 0 = entry := by
    have image : (GossipEntry.layout.image entry).length = sizeofGossipEntry :=
      GossipEntry.layout.length_image entry
    rw [entryAt, payload, Nat.zero_mul, Nat.add_zero, Words.drop_bytes32_append _ _ 0,
      List.drop_zero, ← image, List.take_length, Layout.ofImage_image]
  have exactly := @parsesExactly_of_le behind g pk sized long (by rw [count, room])
  rw [gossipFromPacket_system, exactly.offered, count, room]
  simp only [Nat.min_self, List.range_one, List.map_singleton, first]
  rfl

/-! ## A packet that announces too many entries -/

/-- A packet with one entry of zero bytes, which announces so many. -/
def announcing (n : UInt8) : Protopack where
  seq := 0
  chsum := 0
  dSize := 156
  hFrom := 2
  hTo := 1
  packtype := ProtopackType.gossip.code
  data := [0, 0, 0, n] ++ List.replicate 152 0

theorem announcing_sized (n : UInt8) : (announcing n).Sized := by simp [Protopack.Sized, announcing]

theorem announcing_payload (n : UInt8) :
    (announcing n).payload = [0, 0, 0, n] ++ List.replicate 152 0 :=
  (announcing_sized n).payload

theorem announcing_long (n : UInt8) : sizeofGossipEntry + 4 ≤ (announcing n).payload.length := by
  simp [announcing_payload]

theorem fromPacket_exact_iff_announcing :
    ParsesExactly (fun _ => 0) (gossipSystemInit 1) (announcing 1) :=
  (fromPacket_exact_iff (fun _ => 0) (gossipSystemInit 1) (announcing 1) (announcing_sized 1)
    (announcing_long 1)).mpr
    (by decide +kernel)

/-- The second entry is read from behind the payload. -/
theorem announcing_two_reads_behind :
    (announcing 2).Sized ∧ sizeofGossipEntry + 4 ≤ (announcing 2).payload.length ∧
      (⟨156, 152⟩ : Span)
      ∈ (gossipFromPacket (fun _ => 0) (gossipSystemInit 1) (announcing 2)).reads ∧
      ¬ ParsesExactly (fun _ => 0) (gossipSystemInit 1) (announcing 2) := by
  have read : (⟨156, 152⟩ : Span)
      ∈ (gossipFromPacket (fun _ => 0) (gossipSystemInit 1) (announcing 2)).reads := by
    decide +kernel
  refine ⟨announcing_sized 2, announcing_long 2, read, fun exactly => ?_⟩
  have within := exactly.within _ read
  simp [announcing_payload, Span.Within] at within

end Soter2.Gossip
