import Mathlib.Data.List.Basic
import Mathlib.Data.List.GetD
import Mathlib.Tactic.Common
import Soter2.E2ee.Crypto
import Soter2.Library.Base64

/-! # The text of a key with its UID (`crypto/src/keys.c`)

`crypto_encode_pubkey_uid` prints what a peer is connected to by.  `Base64Codec` are the two
functions of the sodium library, with the original variant.

* `decodePubkeyUid_encode` — the pair is read back from its text.
* `decodePubkeyUid_spaced` — but not when a blank stands in the text.
-/

namespace Soter2.E2ee

/-- The colon between the key and the UID. -/
abbrev colon : UInt8 := 58

structure Base64Codec where
  bin2base64 : List UInt8 → List UInt8
  /-- `sodium_base642bin`, where it returns 0. -/
  base642bin : List UInt8 → Option (List UInt8)

/-- What the sodium library says of the two. -/
structure Base64Codec.Documented (codec : Base64Codec) : Prop where
  decodes : ∀ bytes, codec.base642bin (codec.bin2base64 bytes) = some bytes
  length : ∀ bytes, (codec.bin2base64 bytes).length = 4 * ((bytes.length + 2) / 3)
  alphabet : ∀ bytes, ∀ c ∈ codec.bin2base64 bytes, Base64.Symbol c
  /-- A character outside the alphabet is not skipped. -/
  strict : ∀ text bytes, codec.base642bin text = some bytes → ∀ c ∈ text, Base64.Symbol c

def base64Codec : Base64Codec := ⟨Base64.encode, Base64.decode⟩

theorem base64Codec_documented : base64Codec.Documented where
  decodes := Base64.decode_encode
  length := Base64.length_encode
  alphabet := Base64.symbol_of_mem_encode
  strict _ _ := Base64.symbol_of_mem_decode

variable (codec : Base64Codec)

def cryptoEncodePubkeyUid (pubkey : Bytes keyBytes) (uid : UInt32) : List UInt8 :=
  codec.bin2base64 (pubkey.toList ++ colon :: Layout.u32.image (Words.swap32 uid))

variable {codec}

theorem length_pubuid (documented : codec.Documented) (pubkey : Bytes keyBytes) (uid : UInt32) :
    (cryptoEncodePubkeyUid codec pubkey uid).length = 52 := by
  rw [cryptoEncodePubkeyUid, documented.length, List.length_append, List.length_cons,
    Layout.u32.length_image, Vector.length_toList]
  rfl

theorem decodePubkeyUid_encode (documented : codec.Documented) (pubkey : Bytes keyBytes)
    (uid : UInt32) :
    cryptoDecodePubkeyUid codec.base642bin (cryptoEncodePubkeyUid codec pubkey uid)
      = some (pubkey, uid) := by
  have behind : (pubkey.toList ++ colon :: Layout.u32.image (Words.swap32 uid)).drop 33
      = Layout.u32.image (Words.swap32 uid) := by
    rw [show (33 : Nat) = 32 + 1 from rfl, ← List.drop_drop, List.drop_left' pubkey.length_toList]
    rfl
  -- key, colon and UID stand where the decoder looks for them
  have mark : (pubkey.toList ++ colon :: Layout.u32.image (Words.swap32 uid)).getD 32 0
      = colon := by
    rw [List.getD_append_right _ _ _ _ (Nat.le_of_eq pubkey.length_toList), pubkey.length_toList]
    rfl
  have size : (pubkey.toList ++ colon :: Layout.u32.image (Words.swap32 uid)).length = 37 := by
    rw [List.length_append, List.length_cons, Layout.u32.length_image, pubkey.length_toList]
    rfl
  have first : (Layout.bytes keyBytes).ofImage
      (pubkey.toList ++ colon :: Layout.u32.image (Words.swap32 uid)) = pubkey :=
    (Layout.bytes keyBytes).ofImage_append pubkey _
  rw [cryptoDecodePubkeyUid, cryptoEncodePubkeyUid, documented.decodes, Option.bind_some,
    if_neg (not_not.mpr size),
    if_neg (not_not.mpr mark), first, behind, Layout.ofImage_image, Words.swap32_swap32]

/-- A text with a blank in it is not one of a key. -/
theorem decodePubkeyUid_spaced (documented : codec.Documented) {text : List UInt8}
    (blank : 32 ∈ text) : cryptoDecodePubkeyUid codec.base642bin text = none := by
  cases decoded : codec.base642bin text with
  | none => rw [cryptoDecodePubkeyUid, decoded]; rfl
  | some bytes => exact absurd (documented.strict text bytes decoded 32 blank) (by decide)

/-- What does not stand in the text of a key. -/
theorem not_mem_pubuid (documented : codec.Documented) (pubkey : Bytes keyBytes) (uid : UInt32)
    {c : UInt8} (other : ¬ Base64.Symbol c) : c ∉ cryptoEncodePubkeyUid codec pubkey uid :=
  fun member => other (documented.alphabet _ c member)

end Soter2.E2ee
