import Mathlib.Data.List.Basic
import Mathlib.Tactic.Common

/-! # Reading from a buffer

A read is a `Span` of the buffer.  A read that goes past the end gets what lies behind the
buffer in memory, so that a program that makes one still has a meaning, and a program is
judged by the spans that it has read.

* `read_of_within` — a read inside the buffer gets its bytes.
* `record_within_iff` — how many records a buffer has room for.
-/

namespace Buffer

structure Span where
  offset : Nat
  size : Nat
deriving DecidableEq, Repr

/-- The span lies in the first `length` bytes. -/
def Span.Within (s : Span) (length : Nat) : Prop := s.offset + s.size ≤ length

instance (s : Span) (length : Nat) : Decidable (s.Within length) :=
  inferInstanceAs (Decidable (_ ≤ _))

/-- The bytes of a span, where `behind` is the memory by the distance from the start of the
    buffer. -/
def read (behind : Nat → UInt8) (data : List UInt8) (s : Span) : List UInt8 :=
  (List.range s.size).map fun i => data.getD (s.offset + i) (behind (s.offset + i))

@[simp] theorem length_read (behind : Nat → UInt8) (data : List UInt8) (s : Span) :
    (read behind data s).length = s.size := by
  simp [read]

theorem read_of_within {behind : Nat → UInt8} {data : List UInt8} {s : Span}
    (within : s.Within data.length) : read behind data s = (data.drop s.offset).take s.size := by
  unfold Span.Within at within
  apply List.ext_getElem
  · simp
    omega
  · intro i _ _
    have inside : s.offset + i < data.length := by simp at *; omega
    simp [read, inside]

/-! ## Records one behind the other -/

/-- The `i`-th record of an array that starts at `base`. -/
def record (base size i : Nat) : Span := ⟨base + i * size, size⟩

theorem record_within_iff {base size length : Nat} (positive : 0 < size) (room : base ≤ length)
    (i : Nat) : (record base size i).Within length ↔ i < (length - base) / size := by
  have next : (i + 1) * size = i * size + size := Nat.succ_mul i size
  rw [Nat.lt_iff_add_one_le, Nat.le_div_iff_mul_le positive, next]
  simp only [Span.Within, record]
  omega

end Buffer
