import Mathlib.Data.List.Basic
import Mathlib.Logic.Function.Iterate
import Mathlib.Tactic.Common

/-! # Feedback shift registers

A register of `w` bits is shifted to the right, and the polynomial is added to it when the
bit that falls out is set.  Digits of `n` bits are added at the low end, `n` shifts after
each: this is how a cyclic redundancy check runs over its input.

* `step_injective` — where the polynomial has its top bit, no shift loses anything.
* `foldl_feed` — digits that fit the register together are fed as if they were one.
* `burst_detected` — two inputs that differ only within such digits never leave the same
  register, whatever comes before and after.
-/

namespace ShiftRegister

variable {w n : Nat} {poly x y : BitVec w}

def step (poly x : BitVec w) : BitVec w := if x.getLsbD 0 then (x >>> 1) ^^^ poly else x >>> 1

/-- Only the lowest `n` bits are set. -/
def Low (n : Nat) (y : BitVec w) : Prop := ∀ i, n ≤ i → y.getLsbD i = false

/-! ## One shift -/

/-- The top bit after a shift is the bit that fell out. -/
theorem step_top (high : poly.msb = true) (x : BitVec w) :
    (step poly x).getLsbD (w - 1) = x.getLsbD 0 := by
  have positive : 0 < w := by
    cases w with
    | zero => simp [BitVec.eq_nil poly] at high
    | succ w => exact Nat.succ_pos w
  have top : poly.getLsbD (w - 1) = true := by rw [← BitVec.msb_eq_getLsbD_last]; exact high
  have shifted : (x >>> 1).getLsbD (w - 1) = false := by
    rw [BitVec.getLsbD_ushiftRight]
    exact BitVec.getLsbD_of_ge x _ (by omega)
  rw [step]
  split
  next set_ => rw [BitVec.getLsbD_xor, shifted, top, set_]; rfl
  next clear => rw [shifted]; simpa using clear

theorem step_injective (high : poly.msb = true) : Function.Injective (step poly) := by
  intro x y same
  have lowest : x.getLsbD 0 = y.getLsbD 0 := by rw [← step_top high x, same, step_top high y]
  have upper : x >>> 1 = y >>> 1 := by
    unfold step at same
    rw [lowest] at same
    split at same
    · exact (BitVec.xor_left_inj _).mp same
    · exact same
  refine BitVec.eq_of_getLsbD_eq fun i _ => ?_
  cases i with
  | zero => exact lowest
  | succ i =>
    have bit := congrArg (fun z => z.getLsbD i) upper
    simpa only [BitVec.getLsbD_ushiftRight, Nat.add_comm 1 i] using bit

/-- What is added after a shift could have been added one place higher before it. -/
theorem step_xor (room : Low (w - 1) y) : step poly x ^^^ y = step poly (x ^^^ y <<< 1) := by
  have lowest : (x ^^^ y <<< 1).getLsbD 0 = x.getLsbD 0 := by simp [BitVec.getLsbD_shiftLeft]
  have back : (x ^^^ y <<< 1) >>> 1 = x >>> 1 ^^^ y := by
    refine BitVec.eq_of_getLsbD_eq fun i inside => ?_
    simp only [BitVec.getLsbD_ushiftRight, BitVec.getLsbD_xor, BitVec.getLsbD_shiftLeft]
    by_cases fits : 1 + i < w
    · simp [fits]
    · rw [room i (by omega)]
      simp [fits]
  rw [step, step, lowest, back]
  split
  · rw [BitVec.xor_assoc, BitVec.xor_comm poly, ← BitVec.xor_assoc]
  · rfl

theorem low_shiftLeft {k : Nat} (low : Low n y) : Low (n + k) (y <<< k) := by
  intro i above
  rw [BitVec.getLsbD_shiftLeft, low (i - k) (by omega), Bool.and_false]

theorem low_xor {y' : BitVec w} (low : Low n y) (low' : Low n y') : Low n (y ^^^ y') := by
  intro i above
  rw [BitVec.getLsbD_xor, low i above, low' i above]
  rfl

theorem Low.mono {m : Nat} (low : Low n y) (le : n ≤ m) : Low m y :=
  fun i above => low i (Nat.le_trans le above)

theorem steps_xor (fits : n ≤ w) (room : Low (w - n) y) :
    (step poly)^[n] x ^^^ y = (step poly)^[n] (x ^^^ y <<< n) := by
  induction n generalizing x with
  | zero => simp
  | succ n ih =>
    have above : Low (w - 1) (y <<< n) := (low_shiftLeft room).mono (by omega)
    rw [Function.iterate_succ_apply, Function.iterate_succ_apply,
      ih (by omega) (room.mono (by omega)), step_xor above, ← BitVec.shiftLeft_add]

/-! ## Digits -/

/-- A digit is added, and the register shifted past it. -/
def feed (poly : BitVec w) (n : Nat) (x d : BitVec w) : BitVec w := (step poly)^[n] (x ^^^ d)

/-- The digits side by side, the first one lowest. -/
def pack (n : Nat) : List (BitVec w) → BitVec w
  | [] => 0
  | d :: ds => d ^^^ pack n ds <<< n

variable {ds ds' : List (BitVec w)}

theorem low_pack (digits : ∀ d ∈ ds, Low n d) : Low (ds.length * n) (pack n ds) := by
  induction ds with
  | nil => intro i _; simp [pack]
  | cons d ds ih =>
    obtain ⟨first, others⟩ := List.forall_mem_cons.mp digits
    rw [List.length_cons, Nat.succ_mul, pack]
    exact low_xor (first.mono (Nat.le_add_left n _)) (low_shiftLeft (ih others))

theorem foldl_feed (fits : ds.length * n ≤ w) (digits : ∀ d ∈ ds, Low n d) :
    ds.foldl (feed poly n) x = (step poly)^[ds.length * n] (x ^^^ pack n ds) := by
  induction ds generalizing x with
  | nil => simp [pack]
  | cons d ds ih =>
    obtain ⟨-, others⟩ := List.forall_mem_cons.mp digits
    rw [List.length_cons, Nat.succ_mul] at fits ⊢
    have room : Low (w - n) (pack n ds) := (low_pack others).mono (by omega)
    rw [List.foldl_cons, ih (by omega) others, feed, steps_xor (by omega) room, pack,
      ← BitVec.xor_assoc, ← Function.iterate_add_apply]

theorem pack_injective (same : ds.length = ds'.length) (fits : ds.length * n ≤ w)
    (digits : ∀ d ∈ ds, Low n d)
    (digits' : ∀ d ∈ ds', Low n d) (packed : pack n ds = pack n ds') : ds = ds' := by
  induction ds generalizing ds' with
  | nil => exact (List.length_eq_zero_iff.mp same.symm).symm
  | cons d ds ih =>
    obtain ⟨d', ds', rfl⟩ := List.exists_cons_of_length_eq_add_one same.symm
    obtain ⟨first, others⟩ := List.forall_mem_cons.mp digits
    obtain ⟨first', others'⟩ := List.forall_mem_cons.mp digits'
    rw [List.length_cons, Nat.succ_mul] at fits
    have length : ds.length = ds'.length := Nat.succ.inj same
    have bit : ∀ i, i < w → (d.getLsbD i ^^ (!decide (i < n) && (pack n ds).getLsbD (i - n))) =
        (d'.getLsbD i ^^ (!decide (i < n) && (pack n ds').getLsbD (i - n))) := by
      intro i inside
      have eq := congrArg (fun z => z.getLsbD i) packed
      simpa only [pack, BitVec.getLsbD_xor, BitVec.getLsbD_shiftLeft, inside, decide_true,
        Bool.true_and] using eq
    -- below the digit's width the rest is not seen, above it the digit is not
    have head : d = d' := by
      refine BitVec.eq_of_getLsbD_eq fun i inside => ?_
      by_cases below : i < n
      · simpa [below] using bit i inside
      · rw [first i (by omega), first' i (by omega)]
    have tail : pack n ds = pack n ds' := by
      refine BitVec.eq_of_getLsbD_eq fun i inside => ?_
      by_cases used : i < ds.length * n
      · have at_ := bit (i + n) (by omega)
        rw [first _ (by omega), first' _ (by omega), decide_eq_false (by omega),
          Nat.add_sub_cancel] at at_
        simpa using at_
      · rw [low_pack others i (by omega), low_pack others' i (by rw [← length]; omega)]
    rw [head, ih length (by omega) others others' tail]

/-! ## Bursts -/

theorem foldl_feed_injective (high : poly.msb = true) (ds : List (BitVec w))
    (same : ds.foldl (feed poly n) x = ds.foldl (feed poly n) y) : x = y := by
  induction ds generalizing x y with
  | nil => exact same
  | cons d ds ih => exact (BitVec.xor_left_inj d).mp ((step_injective high).iterate n (ih same))

theorem burst_detected (high : poly.msb = true) (length : ds.length = ds'.length)
    (fits : ds.length * n ≤ w) (digits : ∀ d ∈ ds, Low n d) (digits' : ∀ d ∈ ds', Low n d)
    (rest : List (BitVec w))
    (same : (ds ++ rest).foldl (feed poly n) x = (ds' ++ rest).foldl (feed poly n) x) :
    ds = ds' := by
  rw [List.foldl_append, List.foldl_append] at same
  have behind := foldl_feed_injective high rest same
  rw [foldl_feed fits digits, foldl_feed (length ▸ fits) digits', ← length] at behind
  exact pack_injective length fits digits digits'
    ((BitVec.xor_right_inj x).mp ((step_injective high).iterate _ behind))

end ShiftRegister
