import Mathlib.Data.List.Basic
import Mathlib.Tactic.Common
import Soter2.Library.ShiftRegister
import Soter2.Protocol.Wire

/-! # Corrupted datagrams (`crc32`, `protopack_recv`)

`crc32` is the feedback shift register of its polynomial, fed with the bytes of the
datagram in which the checksum field counts as zero.

* `crc32_burst` — bytes that differ only within a word have different checksums.
* `burst_rejected` — a datagram that was hit within four bytes is not accepted.
-/

namespace Soter2.Protocol

open Words (bytes32 word32)
open Protopack
open ShiftRegister (feed Low)

/-! ## The checksum as a shift register -/

def crcPoly : BitVec 32 := 0xEDB88320

/-- A byte as what is added to the register. -/
def digit (byte : UInt8) : BitVec 32 := byte.toUInt32.toBitVec

theorem and_one_eq (crc : UInt32) : crc &&& 1 = if crc.toBitVec.getLsbD 0 then 1 else 0 := by
  have lowest : (crc &&& 1).toBitVec = BitVec.setWidth 32
      (BitVec.ofBool (crc.toBitVec.getLsbD 0)) := by
    rw [UInt32.toBitVec_and]
    exact BitVec.and_one_eq_setWidth_ofBool_getLsbD
  apply UInt32.toBitVec_inj.mp
  rw [lowest]
  cases crc.toBitVec.getLsbD 0 <;> rfl

/-- The mask is the polynomial or nothing, by the bit that falls out. -/
theorem toBitVec_crc32Bit (crc : UInt32) :
    (crc32Bit crc).toBitVec = ShiftRegister.step crcPoly crc.toBitVec := by
  rw [crc32Bit, and_one_eq, ShiftRegister.step]
  split
  · rw [UInt32.toBitVec_xor]
    rfl
  · rw [UInt32.toBitVec_xor]
    exact BitVec.xor_zero

theorem toBitVec_crc32Byte (crc : UInt32) (byte : UInt8) :
    (crc32Byte crc byte).toBitVec = feed crcPoly 8 crc.toBitVec (digit byte) := by
  have turns : ∀ (n : Nat) (c : UInt32),
      ((List.range n).foldl (fun crc _ => crc32Bit crc) c).toBitVec =
      (ShiftRegister.step crcPoly)^[n] c.toBitVec := by
    intro n c
    induction n with
    | zero => rfl
    | succ n ih =>
      rw [List.range_succ, List.foldl_append, Function.iterate_succ_apply', ← ih,
        ← toBitVec_crc32Bit]; rfl
  exact turns 8 (crc ^^^ byte.toUInt32)

theorem toBitVec_foldl_crc32Byte (bytes : List UInt8) (crc : UInt32) :
    (bytes.foldl crc32Byte crc).toBitVec = (bytes.map digit).foldl (feed crcPoly 8)
      crc.toBitVec := by
  induction bytes generalizing crc with
  | nil => rfl
  | cons byte bytes ih => rw [List.foldl_cons, ih, toBitVec_crc32Byte]; rfl

theorem low_digit (byte : UInt8) : Low 8 (digit byte) := by
  intro i above
  rw [digit, UInt8.toBitVec_toUInt32, BitVec.getLsbD_setWidth,
    BitVec.getLsbD_of_ge byte.toBitVec i above]
  simp

theorem digit_injective : Function.Injective digit := by
  intro b c same
  exact UInt8.toUInt32_inj.mp (UInt32.toBitVec_inj.mp same)

/-- A change within four bytes shows in the checksum. -/
theorem crc32_burst {front mid mid' rest : List UInt8} (length : mid.length = mid'.length)
    (short : mid.length ≤ 4)
    (same : crc32 (front ++ mid ++ rest) = crc32 (front ++ mid' ++ rest)) : mid = mid' := by
  unfold crc32 at same
  have registers := congrArg UInt32.toBitVec (UInt32.not_inj.mp same)
  -- the checksum is the register behind the bytes, started from what the front leaves
  have behind : ∀ m : List UInt8, ((front ++ m ++ rest).foldl crc32Byte 0xFFFFFFFF).toBitVec =
      (m.map digit ++ rest.map digit).foldl (feed crcPoly 8)
        (front.foldl crc32Byte 0xFFFFFFFF).toBitVec := by
    intro m
    rw [List.append_assoc, List.foldl_append, toBitVec_foldl_crc32Byte, List.map_append]
  rw [behind, behind] at registers
  have digits : ∀ bytes : List UInt8, ∀ d ∈ bytes.map digit, Low 8 d := by
    intro bytes
    rw [List.forall_mem_map]
    exact fun byte _ => low_digit byte
  have fits : (mid.map digit).length * 8 ≤ 32 := by rw [List.length_map]; omega
  have high : crcPoly.msb = true := by decide
  refine digit_injective.list_map (ShiftRegister.burst_detected high ?_ fits (digits mid)
    (digits mid') _ registers)
  rw [List.length_map, List.length_map, length]

/-! ## What the decoder makes of it -/

variable {raw raw' : List UInt8} {k : Nat}

/-- The datagrams have the same length and are equal but for the four bytes from `k` on. -/
structure DiffersWithin (k : Nat) (raw raw' : List UInt8) : Prop where
  length : raw'.length = raw.length
  outside : ∀ i, i < k ∨ k + 4 ≤ i → raw'[i]? = raw[i]?

theorem DiffersWithin.before (h : DiffersWithin k raw raw') {n : Nat} (le : n ≤ k) :
    raw'.take n = raw.take n := by
  apply List.ext_getElem?
  intro i
  rw [List.getElem?_take, List.getElem?_take]
  split
  next inside => exact h.outside i (.inl (by omega))
  next => rfl

theorem DiffersWithin.behind (h : DiffersWithin k raw raw') {n : Nat} (le : k + 4 ≤ n) :
    raw'.drop n = raw.drop n := by
  apply List.ext_getElem?
  intro i
  rw [List.getElem?_drop, List.getElem?_drop]
  exact h.outside (n + i) (.inr (by omega))

theorem DiffersWithin.eq_of_window (h : DiffersWithin k raw raw')
    (window : (raw'.drop k).take 4 = (raw.drop k).take 4) : raw' = raw := by
  rw [← List.take_append_drop k raw', ← List.take_append_drop 4 (raw'.drop k), List.drop_drop,
    h.before (Nat.le_refl k),
    window, h.behind (Nat.le_refl (k + 4)), ← List.drop_drop, List.take_append_drop,
      List.take_append_drop]

theorem DiffersWithin.chsum_eq (h : DiffersWithin k raw raw') (apart : k + 4 ≤ 4 ∨ 8 ≤ k) :
    (ofImage raw').chsum = (ofImage raw).chsum := by
  have field : (raw'.drop 4).take 4 = (raw.drop 4).take 4 := by
    cases apart with
    | inl low => rw [h.behind low]
    | inr high =>
      have shifted : ∀ r : List UInt8, (r.drop 4).take 4 = (r.take 8).drop 4 :=
        fun r => by rw [List.drop_take]
      rw [shifted, h.before high, shifted]
  simp only [ofImage, field]

/-- Outside the checksum field the change is in what the checksum is taken of. -/
theorem DiffersWithin.cleared_parts (h : DiffersWithin k raw raw') (apart : k + 4 ≤ 4 ∨ 8 ≤ k) :
    ∃ front rest, clearedBuffer raw = front ++ (raw.drop k).take 4 ++ rest ∧
      clearedBuffer raw' = front ++ (raw'.drop k).take 4 ++ rest := by
  cases apart with
  | inl low =>
    -- in front of the field there is room for the four bytes at the very start only
    obtain rfl : k = 0 := by omega
    refine ⟨[], bytes32 0 ++ raw.drop 8, ?_, ?_⟩
    · simp [clearedBuffer, setChsum]
    · simp [clearedBuffer, setChsum, h.behind]
  | inr high =>
    -- behind it, cut where the change begins and where it ends
    have parts : ∀ r : List UInt8, r.drop 8 = (r.take k).drop 8 ++
        ((r.drop k).take 4 ++ r.drop (k + 4)) := by
      intro r
      rw [List.drop_take, ← List.drop_drop, List.take_append_drop]
      conv_lhs => rw [← List.take_append_drop (k - 8) (r.drop 8), List.drop_drop,
        Nat.add_sub_cancel' high]
    refine ⟨raw.take 4 ++ bytes32 0 ++ (raw.take k).drop 8, raw.drop (k + 4), ?_, ?_⟩
    · rw [clearedBuffer, setChsum, parts raw]
      simp only [List.append_assoc]
    · rw [clearedBuffer, setChsum, parts raw', h.before (by omega), h.before (Nat.le_refl k),
        h.behind (Nat.le_refl _)]
      simp only [List.append_assoc]

/-- A datagram that differs from an accepted one within four bytes, which are all in the
    checksum field or all outside of it, is rejected. -/
theorem burst_rejected (raw raw' : List UInt8) (q : Protopack)
    (accepted : protopackRecv raw = some q) (k : Nat) (within : DiffersWithin k raw raw')
    (place : k = 4 ∨ k + 4 ≤ 4 ∨ 8 ≤ k) (differs : raw' ≠ raw) :
    protopackRecv raw' = none := by
  obtain ⟨size, -, checked, -⟩ := protopackRecv_some accepted
  rw [← Option.not_isSome_iff_eq_none, Option.isSome_iff_exists]
  rintro ⟨q', accepted'⟩
  obtain ⟨size', -, checked', -⟩ := protopackRecv_some accepted'
  refine differs (within.eq_of_window ?_)
  rcases place with rfl | apart
  · -- what the checksum is taken of is the same, so the fields are
    have cleared : clearedBuffer raw' = clearedBuffer raw := by
      rw [clearedBuffer, setChsum, within.before (Nat.le_refl 4), within.behind (Nat.le_refl 8),
        clearedBuffer, setChsum]
    rw [cleared, ← checked] at checked'
    have field : (ofImage raw').chsum = (ofImage raw).chsum := by
      simpa only [htonl, Words.swap32_swap32] using congrArg htonl checked'
    have size4 : ∀ r : List UInt8, sizeofProtopack ≤ r.length → ((r.drop 4).take 4).length = 4 := by
      intro r long
      unfold sizeofProtopack at long
      simp
      omega
    rw [← Words.bytes32_word32 (size4 raw' size'), ← Words.bytes32_word32 (size4 raw size)]
    exact congrArg bytes32 field
  · obtain ⟨front, rest, parts, parts'⟩ := within.cleared_parts apart
    rw [within.chsum_eq apart, checked, parts, parts'] at checked'
    have size : ∀ r : List UInt8, ((r.drop k).take 4).length = min 4 (r.length - k) := by
      intro r
      rw [List.length_take, List.length_drop]
    exact (crc32_burst (by rw [size, size, within.length]) (by rw [size]; omega) checked').symm

/-- Three of its last four bytes are others. -/
def hitDatagram : List UInt8 := sampleDatagram.take 19 ++ [9, 1, 104, 0]

theorem burst_rejected_hit :
    ∃ q, protopackRecv sampleDatagram = some q ∧ DiffersWithin 19 sampleDatagram hitDatagram ∧
      hitDatagram ≠ sampleDatagram ∧
      protopackRecv hitDatagram = none := by
  have accepted : protopackRecv sampleDatagram = some { samplePack with chsum := 250361472 } := by
    decide +kernel
  have within : DiffersWithin 19 sampleDatagram hitDatagram := by
    refine ⟨rfl, ?_⟩
    rintro i (before | behind)
    · have kept : hitDatagram.take 19 = sampleDatagram.take 19 := by decide
      rw [← List.getElem?_take_of_lt before, kept, List.getElem?_take_of_lt before]
    · rw [List.getElem?_eq_none, List.getElem?_eq_none] <;> exact behind
  have differs : hitDatagram ≠ sampleDatagram := by decide
  exact ⟨_, accepted, within, differs,
    burst_rejected _ _ _ accepted 19 within (.inr (.inr (by decide))) differs⟩

end Soter2.Protocol
