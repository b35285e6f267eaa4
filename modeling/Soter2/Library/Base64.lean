import Mathlib.Data.List.Basic
import Mathlib.Tactic.Common

/-! # Base64

Three bytes are four digits of six bits each.  A text ends with one `=` for each byte that its
last group lacks, and the bits of that group that stand for no byte are zero.

* `decode_encode` — every sequence of bytes is read back from its text.
* `symbol_of_mem_decode` — a text that is read has characters of the alphabet only.
-/

namespace Base64

/-- The character `=`. -/
abbrev padding : UInt8 := 61

def digit (n : Nat) : UInt8 :=
  if n < 26 then UInt8.ofNat (65 + n)
  else if n < 52 then UInt8.ofNat (97 + (n - 26))
  else if n < 62 then UInt8.ofNat (48 + (n - 52))
  else if n = 62 then 43
  else 47

def value (c : UInt8) : Option Nat :=
  if 65 ≤ c ∧ c ≤ 90 then some (c.toNat - 65)
  else if 97 ≤ c ∧ c ≤ 122 then some (c.toNat - 97 + 26)
  else if 48 ≤ c ∧ c ≤ 57 then some (c.toNat - 48 + 52)
  else if c = 43 then some 62
  else if c = 47 then some 63
  else none

/-- A character that stands in texts. -/
def Symbol (c : UInt8) : Prop := (value c).isSome ∨ c = padding

instance : DecidablePred Symbol := fun _ => inferInstanceAs (Decidable (_ ∨ _))

def encode : List UInt8 → List UInt8
  | [] => []
  | [a] => [digit (a.toNat / 4), digit (a.toNat % 4 * 16), padding, padding]
  | [a, b] =>
    [digit (a.toNat / 4), digit (a.toNat % 4 * 16 + b.toNat / 16),
      digit (b.toNat % 16 * 4), padding]
  | a :: b :: c :: rest =>
    digit (a.toNat / 4) :: digit (a.toNat % 4 * 16 + b.toNat / 16) ::
      digit (b.toNat % 16 * 4 + c.toNat / 64) :: digit (c.toNat % 64) :: encode rest

/-- The bytes of a group of two digits, of three and of four; no byte is left over. -/
def group (w x : Nat) : List (Option Nat) → Option (List UInt8)
  | [none, none] => if x % 16 = 0 then some [UInt8.ofNat (w * 4 + x / 16)] else none
  | [some y, none] =>
    if y % 4 = 0 then some [UInt8.ofNat (w * 4 + x / 16), UInt8.ofNat (x % 16 * 16 + y / 4)]
    else none
  | [some y, some z] =>
    some [UInt8.ofNat (w * 4 + x / 16), UInt8.ofNat (x % 16 * 16 + y / 4),
      UInt8.ofNat (y % 4 * 64 + z)]
  | _ => none

/-- A digit, or the padding in its place. -/
def place (c : UInt8) : Option (Option Nat) := if c = padding then some none else (value c).map some

def decode : List UInt8 → Option (List UInt8)
  | [] => some []
  | a :: b :: c :: d :: rest => do
    let w ← value a
    let x ← value b
    let y ← place c
    let z ← place d
    let bytes ← group w x [y, z]
    if bytes.length < 3 ∧ rest ≠ [] then none
    else (decode rest).map (bytes ++ ·)
  | _ => none

/-! ## Digits -/

theorem value_digit : ∀ n < 64, value (digit n) = some n := by decide

theorem digit_ne_padding : ∀ n < 64, digit n ≠ padding := by decide

theorem place_digit {n : Nat} (bound : n < 64) : place (digit n) = some (some n) := by
  rw [place, if_neg (digit_ne_padding n bound), value_digit n bound, Option.map_some]

theorem place_padding : place padding = some none := rfl

theorem symbol_digit {n : Nat} (bound : n < 64) : Symbol (digit n) :=
  .inl (by rw [value_digit n bound]; rfl)

theorem symbol_of_place {c : UInt8} {y : Option Nat} (h : place c = some y) : Symbol c := by
  rw [place] at h
  split at h
  next same => exact .inr same
  next =>
    obtain ⟨n, found, -⟩ := Option.map_eq_some_iff.mp h
    exact .inl (by rw [found]; rfl)

theorem symbol_of_value {c : UInt8} {n : Nat} (h : value c = some n) : Symbol c :=
  .inl (by rw [h]; rfl)

/-! ## Texts -/

/-- Each byte is put together from the digits that it was taken apart into. -/
theorem ofNat_parts {a : UInt8} {n : Nat} (h : n = a.toNat) : UInt8.ofNat n = a := by
  rw [h, UInt8.ofNat_toNat]

theorem decode_encode (bytes : List UInt8) : decode (encode bytes) = some bytes := by
  induction bytes using encode.induct with
  | case1 => rfl
  | case2 a =>
    -- one byte is left over: two digits, of which the second has four bits of filling
    have below := a.toNat_lt
    have first := value_digit (a.toNat / 4) (by omega)
    have second := value_digit (a.toNat % 4 * 16) (by omega)
    have byte : UInt8.ofNat (a.toNat / 4 * 4 + a.toNat % 4 * 16 / 16) = a := ofNat_parts (by omega)
    simp only [encode, decode, first, second, place_padding, Option.bind_eq_bind, Option.bind_some,
      group, Nat.mul_mod_left, if_true, byte]
    rfl
  | case3 a b =>
    -- two bytes are left over: three digits, the last with two bits of filling
    have below := a.toNat_lt
    have below' := b.toNat_lt
    have first := value_digit (a.toNat / 4) (by omega)
    have second := value_digit (a.toNat % 4 * 16 + b.toNat / 16) (by omega)
    have third := place_digit (n := b.toNat % 16 * 4) (by omega)
    have byte : UInt8.ofNat (a.toNat / 4 * 4 + (a.toNat % 4 * 16 + b.toNat / 16) / 16) = a :=
      ofNat_parts (by omega)
    have byte' : UInt8.ofNat ((a.toNat % 4 * 16 + b.toNat / 16) % 16 * 16 + b.toNat % 16 * 4 / 4)
        = b :=
      ofNat_parts (by omega)
    simp only [encode, decode, first, second, third, place_padding, Option.bind_eq_bind,
      Option.bind_some, group, Nat.mul_mod_left, if_true, byte, byte']
    rfl
  | case4 a b c rest ih =>
    -- three bytes fill four digits, and the rest follows by induction
    have below := a.toNat_lt
    have below' := b.toNat_lt
    have below'' := c.toNat_lt
    have first := value_digit (a.toNat / 4) (by omega)
    have second := value_digit (a.toNat % 4 * 16 + b.toNat / 16) (by omega)
    have third := place_digit (n := b.toNat % 16 * 4 + c.toNat / 64) (by omega)
    have fourth := place_digit (n := c.toNat % 64) (by omega)
    have byte : UInt8.ofNat (a.toNat / 4 * 4 + (a.toNat % 4 * 16 + b.toNat / 16) / 16) = a :=
      ofNat_parts (by omega)
    have byte' : UInt8.ofNat ((a.toNat % 4 * 16 + b.toNat / 16) % 16 * 16 +
        (b.toNat % 16 * 4 + c.toNat / 64) / 4) = b :=
      ofNat_parts (by omega)
    have byte'' : UInt8.ofNat ((b.toNat % 16 * 4 + c.toNat / 64) % 4 * 64 + c.toNat % 64) = c :=
      ofNat_parts (by omega)
    simp only [encode, decode, first, second, third, fourth, Option.bind_eq_bind, Option.bind_some,
      group, byte, byte', byte'', ih]
    rfl

theorem length_encode (bytes : List UInt8) :
    (encode bytes).length = 4 * ((bytes.length + 2) / 3) := by
  induction bytes using encode.induct with
  | case1 => rfl
  | case2 a => simp [encode]
  | case3 a b => simp [encode]
  | case4 a b c rest ih =>
    simp only [encode, List.length_cons, ih]
    omega

theorem symbol_of_mem_encode (bytes : List UInt8) : ∀ c ∈ encode bytes, Symbol c := by
  have pad : Symbol padding := .inr rfl
  induction bytes using encode.induct with
  | case1 => exact fun c member => nomatch member
  | case2 a =>
    have below := a.toNat_lt
    have first := symbol_digit (n := a.toNat / 4) (by omega)
    have second := symbol_digit (n := a.toNat % 4 * 16) (by omega)
    -- what fills up the group is a symbol too
    simp [encode, first, second, pad]
  | case3 a b =>
    have below := a.toNat_lt
    have below' := b.toNat_lt
    have first := symbol_digit (n := a.toNat / 4) (by omega)
    have second := symbol_digit (n := a.toNat % 4 * 16 + b.toNat / 16) (by omega)
    have third := symbol_digit (n := b.toNat % 16 * 4) (by omega)
    simp [encode, first, second, third, pad]
  | case4 a b c rest ih =>
    have below := a.toNat_lt
    have below' := b.toNat_lt
    have below'' := c.toNat_lt
    have first := symbol_digit (n := a.toNat / 4) (by omega)
    have second := symbol_digit (n := a.toNat % 4 * 16 + b.toNat / 16) (by omega)
    have third := symbol_digit (n := b.toNat % 16 * 4 + c.toNat / 64) (by omega)
    have fourth := symbol_digit (n := c.toNat % 64) (by omega)
    simpa [encode, first, second, third, fourth] using ih

theorem symbol_of_mem_decode {text bytes : List UInt8} (h : decode text = some bytes) :
    ∀ c ∈ text, Symbol c := by
  induction text using decode.induct generalizing bytes with
  | case1 => exact fun c member => nomatch member
  | case2 a b c d rest ih =>
    simp only [decode, Option.bind_eq_bind, Option.bind_eq_some_iff] at h
    obtain ⟨w, first, x, second, y, third, z, fourth, group_, -, h⟩ := h
    have behind : ∀ e ∈ rest, Symbol e := by
      split_ifs at h with last
      obtain ⟨more, decoded, -⟩ := Option.map_eq_some_iff.mp h
      exact ih decoded
    simpa [symbol_of_value first, symbol_of_value second, symbol_of_place third,
      symbol_of_place fourth] using behind
  | case3 text other other' => simp [decode] at h

end Base64
