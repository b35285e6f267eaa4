import Mathlib.Data.List.Basic
import Mathlib.Data.List.OfFn
import Mathlib.Tactic.Common
import Soter2.Library.Words

/-! # Packed structs in memory

A `Layout` says how the values of a type lie in memory: a fixed number of bytes, of which
every one counts.  `u32`, `u64` and `bytes n` are the fields, `pair` puts one field behind
another, and `congr` renames the tuple of the fields to the struct they make up.

* `ofImage_append` — a struct is read back from its image, whatever follows it.
* `image_ofImage` — every buffer that is long enough starts with the image of a struct.
-/

structure Layout (α : Type*) where
  size : Nat
  image : α → List UInt8
  ofImage : List UInt8 → α
  length_image : ∀ a, (image a).length = size
  ofImage_append : ∀ a rest, ofImage (image a ++ rest) = a
  image_ofImage : ∀ raw, size ≤ raw.length → image (ofImage raw) = raw.take size

namespace Layout

open Words

variable {α β : Type*}

attribute [simp] length_image ofImage_append

@[simp] theorem ofImage_image (l : Layout α) (a : α) : l.ofImage (l.image a) = a := by
  simpa using l.ofImage_append a []

theorem image_inj (l : Layout α) {a b : α} (h : l.image a = l.image b) : a = b := by
  rw [← l.ofImage_image a, h, l.ofImage_image]

/-! ## Fields -/

def u16 : Layout UInt16 where
  size := 2
  image := bytes16
  ofImage raw := word16 (raw.take 2)
  length_image := length_bytes16
  ofImage_append w rest := word16_bytes16 w
  image_ofImage raw h := bytes16_word16 (by simp; omega)

def u32 : Layout UInt32 where
  size := 4
  image := bytes32
  ofImage raw := word32 (raw.take 4)
  length_image := length_bytes32
  ofImage_append w rest := by simp
  image_ofImage raw h := bytes32_word32 (by simp; omega)

def u64 : Layout UInt64 where
  size := 8
  image := bytes64
  ofImage raw := word64 (raw.take 8)
  length_image := length_bytes64
  ofImage_append w rest := word64_bytes64 w
  image_ofImage raw h := bytes64_word64 (by simp; omega)

def bytes (n : Nat) : Layout (Vector UInt8 n) where
  size := n
  image v := v.toList
  ofImage raw := Vector.ofFn fun i => raw.getD i 0
  length_image v := by simp
  ofImage_append v rest := by
    ext i h
    simp [List.getElem?_append]
  image_ofImage raw h := by
    apply List.ext_getElem?
    intro i
    by_cases inside : i < n
    · simp [inside, show i < raw.length by omega]
    · simp [inside]

theorem toList_ofImage_bytes (n : Nat) (raw : List UInt8) :
    ((bytes n).ofImage raw).toList = (raw ++ List.replicate n 0).take n := by
  apply List.ext_getElem?
  intro i
  by_cases inside : i < n
  · by_cases within : i < raw.length
    · simp [bytes, inside, within]
    · simp [bytes, inside, Nat.le_of_not_lt within]
  · simp [bytes, inside]

/-! ## Structs -/

def pair (l : Layout α) (m : Layout β) : Layout (α × β) where
  size := l.size + m.size
  image p := l.image p.1 ++ m.image p.2
  ofImage raw := (l.ofImage raw, m.ofImage (raw.drop l.size))
  length_image p := by simp
  ofImage_append p rest := by
    have behind : (l.image p.1 ++ (m.image p.2 ++ rest)).drop l.size = m.image p.2 ++ rest := by
      rw [← l.length_image p.1, List.drop_left]
    rw [List.append_assoc, ofImage_append, behind, ofImage_append]
  image_ofImage raw h := by
    have behind : m.size ≤ (raw.drop l.size).length := by simp; omega
    rw [l.image_ofImage raw (by omega), m.image_ofImage _ behind, List.take_add]

/-- The same bytes under other names. -/
def congr (l : Layout α) (f : α → β) (g : β → α) (fg : ∀ b, f (g b) = b) (gf : ∀ a, g (f a) = a) :
    Layout β where
  size := l.size
  image b := l.image (g b)
  ofImage raw := f (l.ofImage raw)
  length_image b := l.length_image (g b)
  ofImage_append b rest := by rw [ofImage_append, fg]
  image_ofImage raw h := by rw [gf, l.image_ofImage raw h]

/-! ## Arrays of structs -/

theorem length_flatMap_image (l : Layout α) (as : List α) :
    (as.flatMap l.image).length = as.length * l.size := by
  induction as with
  | nil => simp
  | cons a as ih => simp [ih, Nat.succ_mul, Nat.add_comm]

theorem flatMap_image_inj (l : Layout α) (nonempty : 0 < l.size) {as bs : List α}
    (h : as.flatMap l.image = bs.flatMap l.image) : as = bs := by
  induction as generalizing bs with
  | nil =>
    have length := congrArg List.length h
    rw [length_flatMap_image, length_flatMap_image, List.length_nil, Nat.zero_mul] at length
    cases bs with
    | nil => rfl
    | cons b bs => simp only [List.length_cons, Nat.succ_mul] at length; omega
  | cons a as ih =>
    cases bs with
    | nil =>
      have length := congrArg List.length h
      rw [length_flatMap_image, length_flatMap_image, List.length_cons, List.length_nil,
        Nat.succ_mul] at length
      omega
    | cons b bs =>
      rw [List.flatMap_cons, List.flatMap_cons] at h
      obtain ⟨head, tail⟩ := List.append_inj h (by simp)
      rw [l.image_inj head, ih tail]

end Layout
