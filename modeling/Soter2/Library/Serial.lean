import Mathlib.Algebra.Group.Int.Defs
import Mathlib.Algebra.Group.Nat.Defs
import Mathlib.Data.List.Basic
import Mathlib.Data.List.Nodup
import Mathlib.Data.List.Perm.Subperm
import Mathlib.Data.Fintype.Card
import Mathlib.Tactic.Common

/-! # Serial-number arithmetic on 32-bit counters

`ahead base x` is how far `x` lies ahead of `base` on the circle of 32-bit values.
A window `ahead base x ≤ w` is what `(int32_t)(x - base)` decides for `w < 2^31`
(`signedDiff_window`).  Counters that have not wrapped are `UInt32.ofNat n`.
-/

namespace Serial

/-- The distance from `base` forward to `x`, modulo 2^32. -/
def ahead (base x : UInt32) : Nat := (x - base).toNat

/-- The C expression `(int32_t)(x - base)`. -/
def signedDiff (x base : UInt32) : Int := (x - base).toInt32.toInt

theorem signedDiff_eq (x base : UInt32) :
    signedDiff x base =
      if ahead base x < 2 ^ 31 then (ahead base x : Int) else (ahead base x : Int) - 2 ^ 32 := by
  unfold signedDiff ahead
  generalize x - base = d
  change d.toBitVec.toInt = _
  rw [BitVec.toInt_eq_toNat_cond]
  change (if 2 * d.toNat < 2 ^ 32 then (d.toNat : Int)
    else (d.toNat : Int) - ((2 ^ 32 : Nat) : Int)) = _
  split <;> split <;> omega

/-- A window test on the signed difference is a window on the circle. -/
theorem signedDiff_window {x base : UInt32} {w : Nat} (hw : w < 2 ^ 31) :
    (signedDiff x base < 0 ∨ signedDiff x base > w) ↔ w < ahead base x := by
  have bound : ahead base x < 2 ^ 32 := (x - base).toNat_lt
  rw [signedDiff_eq]
  split <;> omega

@[simp] theorem ahead_self (base : UInt32) : ahead base base = 0 := by
  simp [ahead]

theorem ahead_eq_zero {base x : UInt32} : ahead base x = 0 ↔ x = base := by
  constructor
  · intro h
    have : x - base = 0 := UInt32.toNat_inj.mp h
    grind
  · rintro rfl; simp

theorem ahead_inj {base x y : UInt32} (h : ahead base x = ahead base y) : x = y := by
  have : x - base = y - base := UInt32.toNat_inj.mp h
  grind

/-- Advancing the base by one brings everything but the base itself one step nearer. -/
theorem ahead_succ {base x : UInt32} (h : x ≠ base) : ahead (base + 1) x + 1 = ahead base x := by
  have pos : ahead base x ≠ 0 := fun h0 => h (ahead_eq_zero.mp h0)
  have split : x - (base + 1) = (x - base) - 1 := by grind
  have bound : ahead base x < 2 ^ 32 := (x - base).toNat_lt
  unfold ahead at *
  rw [split, UInt32.toNat_sub]
  simp only [UInt32.toNat_one]
  omega

/-! ## Counters -/

theorem eq_max_of_succ {x : UInt32} (h : x + 1 = 0) : x = 0xFFFFFFFF := by grind

theorem toNat_ofNat_of_lt {n : Nat} (h : n < 2 ^ 32) : (UInt32.ofNat n).toNat = n := by
  rw [UInt32.toNat_ofNat', Nat.mod_eq_of_lt h]

theorem ofNat_succ (n : Nat) : UInt32.ofNat (n + 1) = UInt32.ofNat n + 1 := by
  apply UInt32.toNat_inj.mp
  simp [UInt32.toNat_add]

theorem ofNat_add (m n : Nat) : UInt32.ofNat (m + n) = UInt32.ofNat m + UInt32.ofNat n := by
  apply UInt32.toNat_inj.mp
  simp [UInt32.toNat_add]

theorem ahead_ofNat {m n : Nat} (hm : m ≤ n) (hn : n < 2 ^ 32) :
    ahead (UInt32.ofNat m) (UInt32.ofNat n) = n - m := by
  unfold ahead
  rw [UInt32.toNat_sub, toNat_ofNat_of_lt hn, toNat_ofNat_of_lt (by omega)]
  omega

/-! ## Arcs

The values `base + UInt32.ofNat i` for `i ≤ n` are an arc of the circle.  Their raw values are in
the order of the arc as long as it does not pass from 2^32 - 1 to 0 (`le_add_ofNat_iff`). -/

theorem toNat_add_ofNat (base : UInt32) (n : Nat) :
    (base + UInt32.ofNat n).toNat = (base.toNat + n) % 2 ^ 32 := by
  rw [UInt32.toNat_add, UInt32.toNat_ofNat', Nat.add_mod_mod]

theorem ahead_add_ofNat {n : Nat} (base : UInt32) (h : n < 2 ^ 32) :
    ahead base (base + UInt32.ofNat n) = n := by
  have back : base + UInt32.ofNat n - base = UInt32.ofNat n := by grind
  rw [ahead, back, toNat_ofNat_of_lt h]

theorem le_add_ofNat_iff {base : UInt32} {n : Nat} (h : n < 2 ^ 32) :
    base ≤ base + UInt32.ofNat n ↔ base.toNat + n < 2 ^ 32 := by
  have bound : base.toNat < 2 ^ 32 := base.toNat_lt
  rw [UInt32.le_iff_toNat_le, toNat_add_ofNat]
  omega

/-! ## A window holds few values -/

/-- Pairwise different values inside a window of width `w` are at most `w + 1` many. -/
theorem length_le_of_window {base : UInt32} {w : Nat} {xs : List UInt32} (distinct : xs.Nodup)
    (window : ∀ x ∈ xs, ahead base x ≤ w) : xs.length ≤ w + 1 := by
  have nodup : (xs.map (ahead base)).Nodup := distinct.map fun _ _ h => ahead_inj h
  have subset : xs.map (ahead base) ⊆ List.range (w + 1) := by
    intro n hn
    obtain ⟨x, hx, rfl⟩ := List.mem_map.mp hn
    exact List.mem_range.mpr (Nat.lt_succ_of_le (window x hx))
  simpa using (List.subperm_of_subset nodup subset).length_le

end Serial
