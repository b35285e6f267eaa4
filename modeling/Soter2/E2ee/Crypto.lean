import Mathlib.Data.List.Basic
import Mathlib.Tactic.Common
import Soter2.Library.Layout

/-! # Keys, signatures and the cipher (`crypto/src`)

The functions of the sodium library that the code calls are the fields of `Sodium`, with
`none` or `false` where they return -1; what a result needs of them is a hypothesis of that
result.  A key that a failing call leaves alone is not part of its result.
-/

namespace Soter2.E2ee

abbrev Bytes (n : Nat) := Vector UInt8 n

/-- `crypto_kx_PUBLICKEYBYTES`, and the size of a secret, of an identity and of a session key. -/
abbrev keyBytes : Nat := 32

/-- `crypto_sign_BYTES`, also `crypto_sign_SECRETKEYBYTES`. -/
abbrev signBytes : Nat := 64

/-- `crypto_aead_chacha20poly1305_IETF_ABYTES`, which is `E2EE_OVERHEAD`. -/
def e2eeOverhead : Nat := 16

structure CryptoKeypair where
  publicKey : Bytes keyBytes
  privateKey : Bytes keyBytes
deriving DecidableEq

structure CryptoSessionKeys where
  rx : Bytes keyBytes
  tx : Bytes keyBytes
deriving DecidableEq

structure Sign where
  idPub : Bytes keyBytes
  idSec : Bytes signBytes
deriving DecidableEq

structure Sodium where
  cryptoHashSha256 : List UInt8 → Bytes 32
  cryptoSignDetached : (msg : List UInt8) → (sk : Bytes signBytes) → Bytes signBytes
  cryptoSignVerifyDetached : (sig : Bytes signBytes) → (msg : List UInt8) → (pk : Bytes keyBytes) →
    Bool
  cryptoKxServerSessionKeys : (pk sk clientPk : Bytes keyBytes) → Option CryptoSessionKeys
  cryptoKxClientSessionKeys : (pk sk serverPk : Bytes keyBytes) → Option CryptoSessionKeys
  cryptoAeadEncrypt : (msg nonce : List UInt8) → (key : Bytes keyBytes) → Option (List UInt8)
  cryptoAeadDecrypt : (ciphertext nonce : List UInt8) → (key : Bytes keyBytes) → Option (List UInt8)

variable (sodium : Sodium)

/-- `crypto_pubkey_to_uid`: the first four bytes of the hash, as they lie in memory. -/
def cryptoPubkeyToUid (pubkey : Bytes keyBytes) : UInt32 :=
  Words.word32 ((sodium.cryptoHashSha256 pubkey.toList).toList.take 4)

/-- `crypto_pubkey_and_uid_check`. -/
def cryptoPubkeyAndUidCheck (pubkey : Bytes keyBytes) (uid : UInt32) : Bool :=
  uid = cryptoPubkeyToUid sodium pubkey

/-- `crypto_decode_pubkey_uid`, where `base642bin` is `sodium_base642bin` with the original
    variant: 32 bytes of key, a colon, and the UID in network order. -/
def cryptoDecodePubkeyUid (base642bin : List UInt8 → Option (List UInt8)) (b64Str : List UInt8) :
    Option (Bytes keyBytes × UInt32) :=
  (base642bin b64Str).bind fun binaryBlob =>
    if binaryBlob.length ≠ 37 then none
    else if binaryBlob.getD 32 0 ≠ 58 then none
    else
      some ((Layout.bytes keyBytes).ofImage binaryBlob,
        Words.swap32 (Layout.u32.ofImage (binaryBlob.drop 33)))

def signData (sgn : Sign) (msg : List UInt8) : Bytes signBytes :=
  sodium.cryptoSignDetached msg sgn.idSec

def signVerify (msg : List UInt8) (signature : Bytes signBytes) (pubKey : Bytes keyBytes) : Bool :=
  sodium.cryptoSignVerifyDetached signature msg pubKey

def cryptoHandshakeServer (clientPubk : Bytes keyBytes) (kp : CryptoKeypair) :
    Option CryptoSessionKeys :=
  sodium.cryptoKxServerSessionKeys kp.publicKey kp.privateKey clientPubk

def cryptoHandshakeClient (serverPubk : Bytes keyBytes) (kp : CryptoKeypair) :
    Option CryptoSessionKeys :=
  sodium.cryptoKxClientSessionKeys kp.publicKey kp.privateKey serverPubk

/-- Four zero bytes and the counter as it lies in memory. -/
def nonceOf (nonceCounter : UInt64) : List UInt8 := [0, 0, 0, 0] ++ Words.bytes64 nonceCounter

def cryptoEncrypt (rawData : List UInt8) (nonceCounter : UInt64) (sk : CryptoSessionKeys) :
    Option (List UInt8) × UInt64 :=
  match sodium.cryptoAeadEncrypt rawData (nonceOf nonceCounter) sk.tx with
  | some ciphertext => (some ciphertext, nonceCounter + 1)
  | none => (none, nonceCounter)

def cryptoDecrypt (ciphertext : List UInt8) (nonceCounter : UInt64) (sk : CryptoSessionKeys) :
    Option (List UInt8) × UInt64 :=
  if ciphertext.length < e2eeOverhead then (none, nonceCounter)
  else
    match sodium.cryptoAeadDecrypt ciphertext (nonceOf nonceCounter) sk.rx with
    | some raw => (some raw, nonceCounter + 1)
    | none => (none, nonceCounter)

theorem nonceOf_inj {m n : UInt64} (h : nonceOf m = nonceOf n) : m = n :=
  Words.bytes64_inj (List.append_cancel_left h)

end Soter2.E2ee
