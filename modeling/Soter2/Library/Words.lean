import Mathlib.Algebra.Group.Int.Defs
import Mathlib.Algebra.Group.Nat.Defs
import Mathlib.Data.List.Basic
import Mathlib.Tactic.Common

/-! # Words in memory

The image of a word of 16, 32 or 64 bits in the memory of a little-endian machine, the
byte-order conversion of such a machine, and the reading of a word at an offset of a buffer.
-/

namespace Words

/-- The four bytes of a word, least significant first. -/
def bytes32 (w : UInt32) : List UInt8 :=
  [UInt8.ofNat w.toNat, UInt8.ofNat (w.toNat / 2 ^ 8), UInt8.ofNat (w.toNat / 2 ^ 16),
    UInt8.ofNat (w.toNat / 2 ^ 24)]

def word32 : List UInt8 → UInt32
  | [a, b, c, d] =>
    UInt32.ofNat (a.toNat + b.toNat * 2 ^ 8 + c.toNat * 2 ^ 16 + d.toNat * 2 ^ 24)
  | _ => 0

/-- `htonl`, which is also `ntohl`: the bytes of the image in the other order. -/
def swap32 (w : UInt32) : UInt32 := word32 (bytes32 w).reverse

@[simp] theorem length_bytes32 (w : UInt32) : (bytes32 w).length = 4 := rfl

@[simp] theorem word32_bytes32 (w : UInt32) : word32 (bytes32 w) = w := by
  have bound := w.toNat_lt
  apply UInt32.toNat_inj.mp
  simp only [bytes32, word32, UInt8.toNat_ofNat', UInt32.toNat_ofNat']
  omega

theorem bytes32_word32 {bs : List UInt8} (h : bs.length = 4) : bytes32 (word32 bs) = bs := by
  obtain ⟨a, b, c, d, rfl⟩ : ∃ a b c d, bs = [a, b, c, d] := by
    match bs, h with
    | [a, b, c, d], _ => exact ⟨a, b, c, d, rfl⟩
  have ha := a.toNat_lt
  have hb := b.toNat_lt
  have hc := c.toNat_lt
  have hd := d.toNat_lt
  simp only [bytes32, word32, UInt32.toNat_ofNat', List.cons.injEq, and_true]
  refine ⟨?_, ?_, ?_, ?_⟩
  all_goals
    apply UInt8.toNat_inj.mp
    rw [UInt8.toNat_ofNat']
    omega

@[simp] theorem bytes32_swap32 (w : UInt32) : bytes32 (swap32 w) = (bytes32 w).reverse :=
  bytes32_word32 (by simp)

@[simp] theorem swap32_swap32 (w : UInt32) : swap32 (swap32 w) = w := by
  rw [swap32, bytes32_swap32, List.reverse_reverse, word32_bytes32]

/-- A small word is a large one in the other byte order. -/
theorem le_swap32 {w : UInt32} (positive : 0 < w.toNat) (small : w.toNat < 2 ^ 16) :
    2 ^ 16 ≤ (swap32 w).toNat := by
  have value : (swap32 w).toNat = w.toNat / 2 ^ 24 % 2 ^ 8 + w.toNat / 2 ^ 16 % 2 ^ 8 * 2 ^ 8
      + w.toNat / 2 ^ 8 % 2 ^ 8 * 2 ^ 16 + w.toNat % 2 ^ 8 * 2 ^ 24 := by
    simp only [swap32, bytes32, List.reverse_cons, List.reverse_nil, List.nil_append,
      List.cons_append, word32, UInt32.toNat_ofNat', UInt8.toNat_ofNat']
    omega
  omega

theorem ofNat_xor_div (v w k : Nat) :
    UInt8.ofNat ((v ^^^ w) / 2 ^ k) = UInt8.ofNat (v / 2 ^ k) ^^^ UInt8.ofNat (w / 2 ^ k) := by
  apply UInt8.toNat_inj.mp
  simp only [UInt8.toNat_xor, UInt8.toNat_ofNat', Nat.xor_div_two_pow, Nat.xor_mod_two_pow]

theorem bytes32_xor (v w : UInt32) :
    bytes32 (v ^^^ w) = List.zipWith (· ^^^ ·) (bytes32 v) (bytes32 w) := by
  have low := ofNat_xor_div v.toNat w.toNat 0
  simp only [Nat.pow_zero, Nat.div_one] at low
  simp only [bytes32, UInt32.toNat_xor, ofNat_xor_div, low, List.zipWith_cons_cons,
    List.zipWith_nil_left]

/-! ## A word in front of other bytes -/

@[simp] theorem take_bytes32_append (w : UInt32) (rest : List UInt8) :
    (bytes32 w ++ rest).take 4 = bytes32 w := rfl

@[simp] theorem drop_bytes32_append (w : UInt32) (rest : List UInt8) (n : Nat) :
    (bytes32 w ++ rest).drop (n + 4) = rest.drop n := rfl

theorem bytes32_at {raw : List UInt8} {k : Nat} (h : k + 4 ≤ raw.length) :
    bytes32 (word32 ((raw.drop k).take 4)) ++ raw.drop (k + 4) = raw.drop k := by
  rw [bytes32_word32 (by simp; omega), ← List.drop_drop, List.take_append_drop]

theorem bytes32_inj {v w : UInt32} (h : bytes32 v = bytes32 w) : v = w := by
  rw [← word32_bytes32 v, h, word32_bytes32]

/-! ## Half words -/

def bytes16 (w : UInt16) : List UInt8 := [UInt8.ofNat w.toNat, UInt8.ofNat (w.toNat / 2 ^ 8)]

def word16 : List UInt8 → UInt16
  | [a, b] => UInt16.ofNat (a.toNat + b.toNat * 2 ^ 8)
  | _ => 0

/-- `htons`, which is also `ntohs`. -/
def swap16 (w : UInt16) : UInt16 := word16 (bytes16 w).reverse

@[simp] theorem length_bytes16 (w : UInt16) : (bytes16 w).length = 2 := rfl

@[simp] theorem word16_bytes16 (w : UInt16) : word16 (bytes16 w) = w := by
  have bound := w.toNat_lt
  apply UInt16.toNat_inj.mp
  simp only [bytes16, word16, UInt8.toNat_ofNat', UInt16.toNat_ofNat']
  omega

theorem bytes16_word16 {bs : List UInt8} (h : bs.length = 2) : bytes16 (word16 bs) = bs := by
  obtain ⟨a, b, rfl⟩ : ∃ a b, bs = [a, b] := by
    match bs, h with
    | [a, b], _ => exact ⟨a, b, rfl⟩
  have ha := a.toNat_lt
  have hb := b.toNat_lt
  simp only [bytes16, word16, UInt16.toNat_ofNat', List.cons.injEq, and_true]
  refine ⟨?_, ?_⟩
  all_goals
    apply UInt8.toNat_inj.mp
    rw [UInt8.toNat_ofNat']
    omega

@[simp] theorem swap16_swap16 (w : UInt16) : swap16 (swap16 w) = w := by
  rw [swap16, swap16, bytes16_word16 (by simp), List.reverse_reverse, word16_bytes16]

theorem bytes16_xor (v w : UInt16) :
    bytes16 (v ^^^ w) = List.zipWith (· ^^^ ·) (bytes16 v) (bytes16 w) := by
  have low := ofNat_xor_div v.toNat w.toNat 0
  simp only [Nat.pow_zero, Nat.div_one] at low
  simp only [bytes16, UInt16.toNat_xor, ofNat_xor_div, low, List.zipWith_cons_cons,
    List.zipWith_nil_left]

theorem bytes16_inj {v w : UInt16} (h : bytes16 v = bytes16 w) : v = w := by
  rw [← word16_bytes16 v, h, word16_bytes16]

/-! ## Double words -/

def bytes64 (w : UInt64) : List UInt8 :=
  bytes32 (UInt32.ofNat w.toNat) ++ bytes32 (UInt32.ofNat (w.toNat / 2 ^ 32))

def word64 (bs : List UInt8) : UInt64 :=
  UInt64.ofNat ((word32 (bs.take 4)).toNat + (word32 (bs.drop 4)).toNat * 2 ^ 32)

/-- Two words side by side, the low one first. -/
def join64 (low high : UInt32) : UInt64 := low.toUInt64 ||| (high.toUInt64 <<< 32)

/-- `htonll`, which is also `ntohll`: the halves change places, each in the other order. -/
def swap64 (x : UInt64) : UInt64 := join64 (swap32 (x >>> 32).toUInt32) (swap32 x.toUInt32)

theorem bytes64_inj {v w : UInt64} (h : bytes64 v = bytes64 w) : v = w := by
  obtain ⟨low, high⟩ := List.append_inj h rfl
  have low := congrArg UInt32.toNat (bytes32_inj low)
  have high := congrArg UInt32.toNat (bytes32_inj high)
  simp only [UInt32.toNat_ofNat'] at low high
  have hv := v.toNat_lt
  have hw := w.toNat_lt
  apply UInt64.toNat_inj.mp
  omega

@[simp] theorem length_bytes64 (w : UInt64) : (bytes64 w).length = 8 := rfl

@[simp] theorem word64_bytes64 (w : UInt64) : word64 (bytes64 w) = w := by
  have bound := w.toNat_lt
  have low : (bytes64 w).take 4 = bytes32 (UInt32.ofNat w.toNat) := rfl
  have high : (bytes64 w).drop 4 = bytes32 (UInt32.ofNat (w.toNat / 2 ^ 32)) := rfl
  apply UInt64.toNat_inj.mp
  simp only [word64, low, high, word32_bytes32, UInt64.toNat_ofNat', UInt32.toNat_ofNat']
  omega

theorem bytes64_word64 {bs : List UInt8} (h : bs.length = 8) : bytes64 (word64 bs) = bs := by
  have low := (word32 (bs.take 4)).toNat_lt
  have high := (word32 (bs.drop 4)).toNat_lt
  have value : (word64 bs).toNat
      = (word32 (bs.take 4)).toNat + (word32 (bs.drop 4)).toNat * 2 ^ 32 := by
    rw [word64, UInt64.toNat_ofNat', Nat.mod_eq_of_lt (by omega)]
  have lowWord : UInt32.ofNat (word64 bs).toNat = word32 (bs.take 4) := by
    apply UInt32.toNat_inj.mp
    rw [UInt32.toNat_ofNat', value]
    omega
  have highWord : UInt32.ofNat ((word64 bs).toNat / 2 ^ 32) = word32 (bs.drop 4) := by
    apply UInt32.toNat_inj.mp
    rw [UInt32.toNat_ofNat', value]
    omega
  rw [bytes64, lowWord, highWord, bytes32_word32 (by simp [h]), bytes32_word32 (by simp [h]),
    List.take_append_drop]

theorem toNat_join64 (low high : UInt32) :
    (join64 low high).toNat = low.toNat + high.toNat * 2 ^ 32 := by
  have hl := low.toNat_lt
  have hh := high.toNat_lt
  have shifted : (high.toUInt64 <<< 32).toNat = high.toNat <<< 32 := by
    rw [UInt64.toNat_shiftLeft, UInt32.toNat_toUInt64]
    exact Nat.mod_eq_of_lt (by rw [Nat.shiftLeft_eq]; simp; omega)
  rw [join64, UInt64.toNat_or, UInt32.toNat_toUInt64, shifted, Nat.or_comm,
    ← Nat.shiftLeft_add_eq_or_of_lt (by simpa using hl), Nat.shiftLeft_eq, Nat.add_comm]

theorem low_join64 (low high : UInt32) : (join64 low high).toUInt32 = low := by
  have hl := low.toNat_lt
  apply UInt32.toNat_inj.mp
  rw [UInt64.toNat_toUInt32, toNat_join64]
  omega

theorem high_join64 (low high : UInt32) : (join64 low high >>> 32).toUInt32 = high := by
  have hl := low.toNat_lt
  have hh := high.toNat_lt
  apply UInt32.toNat_inj.mp
  rw [UInt64.toNat_toUInt32, UInt64.toNat_shiftRight, toNat_join64, Nat.shiftRight_eq_div_pow]
  simp only [UInt64.reduceToNat, Nat.reduceMod]
  omega

theorem join64_halves (x : UInt64) : join64 x.toUInt32 (x >>> 32).toUInt32 = x := by
  have bound := x.toNat_lt
  apply UInt64.toNat_inj.mp
  rw [toNat_join64, UInt64.toNat_toUInt32, UInt64.toNat_toUInt32, UInt64.toNat_shiftRight,
    Nat.shiftRight_eq_div_pow]
  simp only [UInt64.reduceToNat, Nat.reduceMod]
  omega

@[simp] theorem swap64_swap64 (x : UInt64) : swap64 (swap64 x) = x := by
  rw [swap64, swap64, low_join64, high_join64, swap32_swap32, swap32_swap32, join64_halves]

/-! ## Signed words -/

/-- The conversion to the unsigned type is modulo 2^64. -/
theorem toNat_toUInt64 (x : Int64) : (x.toUInt64.toNat : Int) = x.toInt % 2 ^ 64 := by
  have value : x.toInt = if 2 * x.toUInt64.toNat < 2 ^ 64 then (x.toUInt64.toNat : Int)
      else x.toUInt64.toNat - 2 ^ 64 :=
    BitVec.toInt_eq_toNat_cond x.toBitVec
  have bound := x.toUInt64.toNat_lt
  split at value <;> omega

end Words
