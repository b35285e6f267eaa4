import Mathlib.Data.List.Basic
import Mathlib.Logic.Function.Basic
import Mathlib.Tactic.Common
import Soter2.E2ee.Crypto
import Soter2.Library.AssocTable
import Soter2.Protocol.Packet

/-! # End-to-end connections (`e2ee/src/connection.c`)

Every function returns its return value beside the connection it leaves.  What the code
draws at random (a key pair, the nonce of a handshake) is an argument.
-/

namespace Soter2.E2ee

inductive E2eeHsState where
  | notHandshaked
  | handshakeSent
  | handshakeEnded
deriving DecidableEq, Repr

/-- The packed struct: every 100 bytes are one. -/
structure E2eeHandshake where
  nonce : UInt32
  x25519Pubkey : Bytes keyBytes
  signature : Bytes signBytes
deriving DecidableEq

structure E2eeConnection where
  stSignature : Sign
  stOtherPubkey : Bytes keyBytes
  skeys : CryptoSessionKeys
  kp : CryptoKeypair
  hstate : E2eeHsState
  hsAs : Bool
  txNonce : UInt64
  rxNonce : UInt64
deriving DecidableEq

/-- The key-pair files: a file holds the whole structure that was written to it. -/
abbrev Files := AssocTable String CryptoKeypair

variable (sodium : Sodium)

/-- `e2ee_conn_init`, where `kp` is what `crypto_keypair_make` returns.  The session keys
    stay what they were in the memory of `conn`. -/
def e2eeConnInit (conn : E2eeConnection) (mySignature : Sign) (stOtherPubkey : Bytes keyBytes)
    (kp : CryptoKeypair) : E2eeConnection :=
  { stSignature := mySignature
    stOtherPubkey := stOtherPubkey
    skeys := conn.skeys
    kp := kp
    hstate := .notHandshaked
    hsAs := cryptoPubkeyToUid sodium mySignature.idPub < cryptoPubkeyToUid sodium stOtherPubkey
    txNonce := 0
    rxNonce := 0 }

/-- `crypto_keypair_load` into `conn->kp`.  `fread` returns the number of items, 1, and it is
    compared with the size of one, so the call fails even though the pair was read. -/
def e2eeConnLoadKeypair (conn : E2eeConnection) (files : Files) (path : String) :
    Int × E2eeConnection :=
  match files.get path with
  | none => (-1, conn)
  | some kp => (-1, { conn with kp := kp })

def e2eeConnSaveKeypair (conn : E2eeConnection) (files : Files) (path : String) : Int × Files :=
  (0, files.set path conn.kp)

def e2eeConnUpdKeypair (conn : E2eeConnection) (files : Files) (path : String) :
    Int × E2eeConnection × Files :=
  match files.get path with
  | some _ =>
    let (ret, conn) := e2eeConnLoadKeypair conn files path
    (ret, conn, files)
  | none =>
    let (ret, files) := e2eeConnSaveKeypair conn files path
    (ret, conn, files)

def biggestSize : Nat := Protocol.udpMtu - Protocol.sizeofProtopack - e2eeOverhead

/-- `e2ee_encrypt`: the return value, the connection and what is in `outbuf` on success. -/
def e2eeEncrypt (conn : E2eeConnection) (data : List UInt8) :
    Int × E2eeConnection × Option (List UInt8) :=
  if conn.hstate ≠ .handshakeEnded then (-1, conn, none)
  else if data.length > biggestSize then (-1, conn, none)
  else
    match cryptoEncrypt sodium data conn.txNonce conn.skeys with
    | (none, txNonce) => (-1, { conn with txNonce := txNonce }, none)
    | (some ciphered, txNonce) => (0, { conn with txNonce := txNonce }, some ciphered)

def e2eeDecrypt (conn : E2eeConnection) (inpbuf : List UInt8) :
    Int × E2eeConnection × Option (List UInt8) :=
  if conn.hstate ≠ .handshakeEnded then (-1, conn, none)
  else if inpbuf.length < e2eeOverhead then (-1, conn, none)
  else
    match cryptoDecrypt sodium inpbuf conn.rxNonce conn.skeys with
    | (none, rxNonce) => (-1, { conn with rxNonce := rxNonce }, none)
    | (some decrypted, rxNonce) => (0, { conn with rxNonce := rxNonce }, some decrypted)

/-! ## The handshake -/

/-- What is signed: the nonce as it lies in memory, and the public key. -/
def signaturePayload (nonce : UInt32) (x25519Pubkey : Bytes keyBytes) : List UInt8 :=
  Words.bytes32 nonce ++ x25519Pubkey.toList

/-- `e2ee_conn_handshake_init`, where `nonce` is what `randombytes_random` returns. -/
def e2eeConnHandshakeInit (conn : E2eeConnection) (nonce : UInt32) :
    E2eeConnection × E2eeHandshake :=
  -- whatever the state was, also that of a finished handshake
  ({ conn with hstate := .handshakeSent },
    { nonce := nonce
      x25519Pubkey := conn.kp.publicKey
      signature := signData sodium conn.stSignature (signaturePayload nonce conn.kp.publicKey) })

/-- The signature of a handshake holds under the identity of the peer. -/
def verifies (conn : E2eeConnection) (hs : E2eeHandshake) : Bool :=
  signVerify sodium (signaturePayload hs.nonce hs.x25519Pubkey) hs.signature conn.stOtherPubkey

def handshakeKeys (hsAs : Bool) (kp : CryptoKeypair) (x25519Pubkey : Bytes keyBytes) :
    Option CryptoSessionKeys :=
  if hsAs then cryptoHandshakeServer sodium x25519Pubkey kp
  else cryptoHandshakeClient sodium x25519Pubkey kp

def e2eeConnHandshakeResp (conn : E2eeConnection) (hs : E2eeHandshake) : Int × E2eeConnection :=
  -- the nonce is signed, and compared with nothing
  if verifies sodium conn hs then
    match handshakeKeys sodium conn.hsAs conn.kp hs.x25519Pubkey with
    | none => (-1, conn)
    | some skeys => (0, { conn with skeys := skeys, hstate := .handshakeEnded })
  else (-1, conn)

theorem signaturePayload_inj {m n : UInt32} {p q : Bytes keyBytes}
    (h : signaturePayload m p = signaturePayload n q) : m = n ∧ p = q := by
  obtain ⟨nonces, keys⟩ := List.append_inj h rfl
  exact ⟨Words.bytes32_inj nonces, Vector.toList_inj.mp keys⟩

/-! ## What each operation does -/

variable {sodium}

theorem e2eeConnHandshakeResp_cases (conn : E2eeConnection) (hs : E2eeHandshake) :
    (∃ skeys, verifies sodium conn hs = true ∧
        handshakeKeys sodium conn.hsAs conn.kp hs.x25519Pubkey = some skeys ∧
        e2eeConnHandshakeResp sodium conn hs =
          (0, { conn with skeys := skeys, hstate := .handshakeEnded })) ∨
      e2eeConnHandshakeResp sodium conn hs = (-1, conn) := by
  by_cases good : verifies sodium conn hs = true
  · cases keys : handshakeKeys sodium conn.hsAs conn.kp hs.x25519Pubkey with
    | none => exact .inr (by simp [e2eeConnHandshakeResp, good, keys])
    | some skeys => exact .inl ⟨skeys, good, rfl, by simp [e2eeConnHandshakeResp, good, keys]⟩
  · exact .inr (by simp [e2eeConnHandshakeResp, good])

/-- Encrypting succeeds under the send key and counter, or changes nothing. -/
theorem e2eeEncrypt_cases (conn : E2eeConnection) (data : List UInt8) :
    (∃ ciphered, conn.hstate = .handshakeEnded ∧
        sodium.cryptoAeadEncrypt data (nonceOf conn.txNonce) conn.skeys.tx = some ciphered ∧
        e2eeEncrypt sodium conn data = (0, { conn with txNonce := conn.txNonce + 1 },
          some ciphered)) ∨
      e2eeEncrypt sodium conn data = (-1, conn, none) := by
  by_cases ended : conn.hstate = .handshakeEnded
  · by_cases big : data.length > biggestSize
    · exact .inr (by simp [e2eeEncrypt, ended, big])
    · cases cipher : sodium.cryptoAeadEncrypt data (nonceOf conn.txNonce) conn.skeys.tx with
      | none =>
        refine .inr ?_
        rw [e2eeEncrypt, if_neg (not_not.mpr ended), if_neg big]
        simp only [cryptoEncrypt, cipher]
      | some ciphered =>
        refine .inl ⟨ciphered, ended, rfl, ?_⟩
        rw [e2eeEncrypt, if_neg (not_not.mpr ended), if_neg big]
        simp only [cryptoEncrypt, cipher]
  · exact .inr (by simp [e2eeEncrypt, ended])

theorem e2eeDecrypt_cases (conn : E2eeConnection) (inpbuf : List UInt8) :
    (∃ decrypted, conn.hstate = .handshakeEnded ∧
        sodium.cryptoAeadDecrypt inpbuf (nonceOf conn.rxNonce) conn.skeys.rx = some decrypted ∧
        e2eeDecrypt sodium conn inpbuf =
          (0, { conn with rxNonce := conn.rxNonce + 1 }, some decrypted)) ∨
      e2eeDecrypt sodium conn inpbuf = (-1, conn, none) := by
  by_cases ended : conn.hstate = .handshakeEnded
  · by_cases short : inpbuf.length < e2eeOverhead
    · exact .inr (by simp [e2eeDecrypt, ended, short])
    · cases plain : sodium.cryptoAeadDecrypt inpbuf (nonceOf conn.rxNonce) conn.skeys.rx with
      | none =>
        refine .inr ?_
        rw [e2eeDecrypt, if_neg (not_not.mpr ended), if_neg short]
        simp only [cryptoDecrypt, if_neg short, plain]
      | some decrypted =>
        refine .inl ⟨decrypted, ended, rfl, ?_⟩
        rw [e2eeDecrypt, if_neg (not_not.mpr ended), if_neg short]
        simp only [cryptoDecrypt, if_neg short, plain]
  · exact .inr (by simp [e2eeDecrypt, ended])

/-! ## Two parties -/

inductive Party where
  | alice
  | bob
deriving DecidableEq, Repr

def Party.other : Party → Party
  | .alice => .bob
  | .bob => .alice

@[simp] theorem Party.other_ne (p : Party) : p.other ≠ p := by cases p <;> decide

@[simp] theorem Party.other_other (p : Party) : p.other.other = p := by cases p <;> rfl

theorem Party.eq_or_eq_other (p q : Party) : q = p ∨ q = p.other := by
  cases p <;> cases q <;> decide

/-- What holds of every party still does when one of them is replaced by what it holds for. -/
theorem Party.forall_update {α : Type*} {P : Party → α → Prop} {f : Party → α} (h : ∀ p, P p (f p))
    {p : Party} {x : α} (hx : P p x) : ∀ q, P q (Function.update f p x q) := by
  intro q
  by_cases same : q = p
  · subst same
    rwa [Function.update_self]
  · rw [Function.update_of_ne same]
    exact h q

/-! ## A stand-in for the library -/

def firstByte {n : Nat} (bytes : Bytes n) : UInt8 := bytes.toList.headD 0

def toyServerKeys (serverPk clientPk : Bytes keyBytes) : CryptoSessionKeys :=
  let shared := 32 * firstByte clientPk + 2 * firstByte serverPk
  ⟨Vector.replicate keyBytes shared, Vector.replicate keyBytes (shared + 1)⟩

/-- A library with the algebra of the real one and none of its strength, to run the model
    on: a secret has the first byte of its public key. -/
def toySodium : Sodium where
  cryptoHashSha256 bytes := Vector.replicate 32 (bytes.headD 0)
  cryptoSignDetached msg sk := Vector.replicate signBytes (msg.foldl (· + ·) (firstByte sk))
  cryptoSignVerifyDetached sig msg pk := firstByte sig == msg.foldl (· + ·) (firstByte pk)
  cryptoKxServerSessionKeys pk _ clientPk := some (toyServerKeys pk clientPk)
  cryptoKxClientSessionKeys pk _ serverPk :=
    some ⟨(toyServerKeys serverPk pk).tx, (toyServerKeys serverPk pk).rx⟩
  cryptoAeadEncrypt msg nonce key :=
    some (msg ++ List.replicate e2eeOverhead (nonce.foldl (· + ·) (firstByte key)))
  cryptoAeadDecrypt ciphertext nonce key :=
    let (msg, tag) := ciphertext.splitAt (ciphertext.length - e2eeOverhead)
    if tag = List.replicate e2eeOverhead (nonce.foldl (· + ·) (firstByte key)) then some msg
    else none

def toyKeypair (b : UInt8) : CryptoKeypair :=
  ⟨Vector.replicate keyBytes b, Vector.replicate keyBytes b⟩

def toySign (b : UInt8) : Sign := ⟨Vector.replicate keyBytes b, Vector.replicate signBytes b⟩

/-- The memory of a connection before `e2ee_conn_init`. -/
def blankConnection : E2eeConnection :=
  { stSignature := toySign 0
    stOtherPubkey := Vector.replicate keyBytes 0
    skeys := ⟨Vector.replicate keyBytes 0, Vector.replicate keyBytes 0⟩
    kp := toyKeypair 0
    hstate := .notHandshaked
    hsAs := false
    txNonce := 0
    rxNonce := 0 }

end Soter2.E2ee
