import Mathlib.Data.List.Basic
import Mathlib.Tactic.Common
import Soter2.Protocol.Burst

/-! # Damage on the way

Up to four bytes of a datagram, side by side, become others.  The decoder either rejects
what arrives or gives back the packet that was sent.
-/

namespace Soter2.Protocol

open Words (bytes32)
open Protopack (ofImage)

/-- Four bytes at a place of the datagram are replaced. -/
structure Hit where
  place : Nat
  bytes : List UInt8
deriving DecidableEq

namespace Hit

def apply (hit : Hit) (raw : List UInt8) : List UInt8 :=
  raw.take hit.place ++ hit.bytes ++ raw.drop (hit.place + 4)

/-- The four bytes lie within the datagram, and in the checksum field or outside of it. -/
def Within (hit : Hit) (raw : List UInt8) : Prop :=
  hit.bytes.length = 4 ∧ hit.place + 4 ≤ raw.length ∧
    (hit.place = 4 ∨ hit.place + 4 ≤ 4 ∨ 8 ≤ hit.place)

instance (hit : Hit) (raw : List UInt8) : Decidable (hit.Within raw) :=
  inferInstanceAs (Decidable (_ ∧ _))

variable {hit : Hit} {raw raw' : List UInt8}

theorem differsWithin (within : hit.Within raw) : DiffersWithin hit.place raw (hit.apply raw) := by
  obtain ⟨four, inside, -⟩ := within
  have front : (raw.take hit.place).length = hit.place := by
    rw [List.length_take]
    omega
  refine ⟨?_, ?_⟩
  · simp only [apply, List.length_append, front, four, List.length_drop]
    omega
  · rintro i (before | behind)
    · rw [apply, List.append_assoc, List.getElem?_append_left (by omega),
        List.getElem?_take_of_lt before]
    · rw [apply, List.getElem?_append_right (by rw [List.length_append]; omega), List.length_append,
        front, four, List.getElem?_drop, Nat.add_sub_cancel' behind]

end Hit

/-- Of two datagrams that differ within four bytes the decoder accepts at most one. -/
theorem eq_of_accepted {raw raw' : List UInt8} {q q' : Protopack} {k : Nat}
    (accepted : protopackRecv raw = some q) (accepted' : protopackRecv raw' = some q')
    (within : DiffersWithin k raw raw') (place : k = 4 ∨ k + 4 ≤ 4 ∨ 8 ≤ k) : raw' = raw := by
  obtain ⟨size, -, checked, -⟩ := protopackRecv_some accepted
  obtain ⟨size', -, checked', -⟩ := protopackRecv_some accepted'
  apply within.eq_of_window
  obtain rfl | apart := place
  · -- only the field was hit, and there is one value that fits the rest
    have rest : clearedBuffer raw' = clearedBuffer raw := by
      simp only [clearedBuffer, setChsum, within.before (Nat.le_refl 4),
        within.behind (Nat.le_refl 8)]
    have field : (ofImage raw').chsum = (ofImage raw).chsum := by
      rw [rest, ← checked] at checked'
      exact (Words.swap32_swap32 _).symm.trans
        ((congrArg htonl checked').trans (Words.swap32_swap32 _))
    have four : ∀ r : List UInt8, sizeofProtopack ≤ r.length → ((r.drop 4).take 4).length = 4 := by
      unfold sizeofProtopack
      intro r long
      rw [List.length_take, List.length_drop]
      omega
    have word := congrArg bytes32 field
    rwa [ofImage, ofImage, Words.bytes32_word32 (four raw' size'),
      Words.bytes32_word32 (four raw size)] at word
  · obtain ⟨front, rest, parts, parts'⟩ := within.cleared_parts apart
    have same : crc32 (clearedBuffer raw) = crc32 (clearedBuffer raw') := by
      rw [← checked, ← checked', within.chsum_eq apart]
    rw [parts, parts'] at same
    have equal : ((raw.drop k).take 4).length = ((raw'.drop k).take 4).length := by
      simp only [List.length_take, List.length_drop, within.length]
    exact (crc32_burst equal (List.length_take_le 4 _) same).symm

/-- Whatever the decoder makes of a datagram that was hit is the packet that was sent. -/
theorem samePacket_of_hit {p q : Protopack} {hit : Hit}
    (small : sizeofProtopack + p.data.length < 2048) (within : hit.Within (datagram p))
    (accepted : protopackRecv (hit.apply (datagram p)) = some q) : SamePacket p q := by
  obtain ⟨q', original, same⟩ := protopackRecv_datagram p small
  rw [eq_of_accepted original accepted (Hit.differsWithin within) within.2.2, original] at accepted
  exact Option.some.inj accepted ▸ same

end Soter2.Protocol
