import Mathlib.Data.List.Basic
import Mathlib.Data.List.Infix
import Mathlib.Tactic.Common
import Soter2.E2ee.Connection
import Soter2.Library.FifoChannel
import Soter2.Library.Transition

/-! # The encrypted stream

One connection encrypts and the other decrypts whatever an attacker hands it.  The ledger
`produced` records what came out of the cipher, and `Authentic` is the assumption about the
cipher: under a key and a nonce it opens nothing but what was produced under them.

* `stream_refines_channel`, `stream_authentic` — what is decrypted is the first part of what
  was encrypted, and the next ciphertext is accepted whatever was tried before.
-/

namespace Soter2.E2ee

open Transition

variable (sodium : Sodium)

/-- The cipher opens what it produced, which is longer by the tag. -/
structure AeadCorrect : Prop where
  opens : ∀ msg nonce key ciphertext, sodium.cryptoAeadEncrypt msg nonce key = some ciphertext →
    sodium.cryptoAeadDecrypt ciphertext nonce key = some msg
  expands : ∀ msg nonce key ciphertext, sodium.cryptoAeadEncrypt msg nonce key = some ciphertext →
    ciphertext.length = msg.length + e2eeOverhead

structure Produced where
  key : Bytes keyBytes
  nonce : List UInt8
  ciphertext : List UInt8
deriving DecidableEq

/-- `sent` and `received` are the plaintexts of the successful calls on each side. -/
structure Stream where
  sender : E2eeConnection
  receiver : E2eeConnection
  sent : List (List UInt8)
  produced : List Produced
  received : List (List UInt8)
deriving DecidableEq

inductive StreamAction where
  | encrypt (data : List UInt8)
  | decrypt (inpbuf : List UInt8)

/-- Both handshakes are over, the keys match and nothing was encrypted yet. -/
structure Paired (a b : E2eeConnection) : Prop where
  endedA : a.hstate = .handshakeEnded
  endedB : b.hstate = .handshakeEnded
  keys : a.skeys.tx = b.skeys.rx
  txNonce : a.txNonce = 0
  rxNonce : b.rxNonce = 0

namespace Stream

def start (a b : E2eeConnection) : Stream := ⟨a, b, [], [], []⟩

def encrypt (s : Stream) (data : List UInt8) : Stream :=
  match e2eeEncrypt sodium s.sender data with
  | (_, conn, none) => { s with sender := conn }
  | (_, conn, some ciphered) =>
    { s with
      sender := conn
      sent := s.sent ++ [data]
      produced := s.produced ++ [⟨s.sender.skeys.tx, nonceOf s.sender.txNonce, ciphered⟩] }

def decrypt (s : Stream) (inpbuf : List UInt8) : Stream :=
  let (_, conn, decrypted) := e2eeDecrypt sodium s.receiver inpbuf
  { s with receiver := conn, received := s.received ++ decrypted.toList }

def step (s : Stream) : StreamAction → Option Stream
  | .encrypt data => some (s.encrypt sodium data)
  | .decrypt inpbuf => some (s.decrypt sodium inpbuf)

/-- The cipher opens under the receiver's key and counter only what was produced under them. -/
def Authentic (s : Stream) : StreamAction → Prop
  | .encrypt _ => True
  | .decrypt inpbuf =>
    (sodium.cryptoAeadDecrypt inpbuf (nonceOf s.receiver.rxNonce) s.receiver.skeys.rx).isSome →
      ⟨s.receiver.skeys.rx, nonceOf s.receiver.rxNonce, inpbuf⟩ ∈ s.produced

instance (s : Stream) : ∀ a, Decidable (Authentic sodium s a)
  | .encrypt _ => .isTrue trivial
  | .decrypt _ => inferInstanceAs (Decidable (_ → _))

/-! ## The invariant -/

variable {sodium} {s : Stream}

/-- The counters count the successful calls, and the ledger has one entry for each. -/
structure Inv (sodium : Sodium) (s : Stream) : Prop where
  few : s.sent.length < 2 ^ 64
  endedA : s.sender.hstate = .handshakeEnded
  endedB : s.receiver.hstate = .handshakeEnded
  keys : s.sender.skeys.tx = s.receiver.skeys.rx
  txNonce : s.sender.txNonce = UInt64.ofNat s.sent.length
  rxNonce : s.receiver.rxNonce = UInt64.ofNat s.received.length
  count : s.produced.length = s.sent.length
  ledger : ∀ i e, s.produced[i]? = some e → e.key = s.sender.skeys.tx ∧
    e.nonce = nonceOf (UInt64.ofNat i) ∧
    ∃ msg, s.sent[i]? = some msg ∧ sodium.cryptoAeadEncrypt msg e.nonce e.key = some e.ciphertext
  ordered : s.received <+: s.sent

theorem start_inv {a b : E2eeConnection} (paired : Paired a b) : Inv sodium (start a b) where
  few := by simp [start]
  endedA := paired.endedA
  endedB := paired.endedB
  keys := paired.keys
  txNonce := paired.txNonce
  rxNonce := paired.rxNonce
  count := rfl
  ledger := by simp [start]
  ordered := List.nil_prefix

theorem ofNat_succ (n : Nat) : UInt64.ofNat n + 1 = UInt64.ofNat (n + 1) := by
  apply UInt64.toNat_inj.mp
  simp [UInt64.toNat_add]

theorem ofNat_inj {m n : Nat} (hm : m < 2 ^ 64) (hn : n < 2 ^ 64)
    (h : UInt64.ofNat m = UInt64.ofNat n) : m = n := by
  have := congrArg UInt64.toNat h
  rwa [UInt64.toNat_ofNat', UInt64.toNat_ofNat', Nat.mod_eq_of_lt hm, Nat.mod_eq_of_lt hn] at this

/-- An encryption goes into the ledger under the next counter, or fails and changes nothing. -/
theorem encrypt_cases (s : Stream) (data : List UInt8) :
    (∃ ciphered, sodium.cryptoAeadEncrypt data (nonceOf s.sender.txNonce) s.sender.skeys.tx
      = some ciphered ∧
        s.encrypt sodium data = { s with
          sender := { s.sender with txNonce := s.sender.txNonce + 1 }
          sent := s.sent ++ [data]
          produced := s.produced ++ [⟨s.sender.skeys.tx, nonceOf s.sender.txNonce, ciphered⟩] }) ∨
      s.encrypt sodium data = s := by
  obtain ⟨ciphered, -, made, eq⟩ | eq := @e2eeEncrypt_cases sodium s.sender data
  · exact .inl ⟨ciphered, made, by simp only [encrypt, eq]⟩
  · exact .inr (by simp only [encrypt, eq])

/-- The receiver opens only the next ciphertext, and gets the plaintext it was made of. -/
theorem decrypt_cases (inv : Inv sodium s) (aead : AeadCorrect sodium) {inpbuf : List UInt8}
    (authentic : Authentic sodium s (.decrypt inpbuf)) :
    (∃ msg, s.sent[s.received.length]? = some msg ∧
        s.decrypt sodium inpbuf = { s with
          receiver := { s.receiver with rxNonce := s.receiver.rxNonce + 1 }
          received := s.received ++ [msg] }) ∨
      s.decrypt sodium inpbuf = s := by
  obtain ⟨decrypted, -, opened, eq⟩ | eq := @e2eeDecrypt_cases sodium s.receiver inpbuf
  · obtain ⟨i, entry⟩ := List.mem_iff_getElem?.mp (authentic (by rw [opened]; rfl))
    obtain ⟨-, nonce, msg, sent, made⟩ := inv.ledger i _ entry
    -- the counters have not wrapped, so the entry under this nonce is the one for the next message
    have place : s.received.length = i := by
      have bound := (List.getElem?_eq_some_iff.mp sent).1
      have behind := inv.ordered.length_le
      have few := inv.few
      apply ofNat_inj (by omega) (by omega)
      rw [← inv.rxNonce]
      exact nonceOf_inj nonce
    have same : decrypted = msg := by
      rw [aead.opens _ _ _ _ made] at opened
      exact (Option.some.inj opened).symm
    exact .inl ⟨msg, place ▸ sent, by simp only [decrypt, eq, same, Option.toList_some]⟩
  · refine .inr ?_
    simp only [decrypt, eq, Option.toList_none, List.append_nil]

theorem encrypt_inv (inv : Inv sodium s) (data : List UInt8)
    (few : (s.encrypt sodium data).sent.length < 2 ^ 64) : Inv sodium (s.encrypt sodium data) := by
  obtain ⟨ciphered, made, eq⟩ | eq := @encrypt_cases sodium s data
  · rw [eq] at few ⊢
    have count := inv.count
    refine ⟨few, inv.endedA, inv.endedB, inv.keys, ?_, inv.rxNonce, by simp [count], ?_,
      inv.ordered.trans (List.prefix_append _ _)⟩
    · show s.sender.txNonce + 1 = _
      rw [inv.txNonce, ofNat_succ, List.length_append, List.length_singleton]
    · -- the old entries keep their messages, and the new one is for the new message
      intro i e entry
      rcases Nat.lt_trichotomy i s.produced.length with old | rfl | past
      · rw [List.getElem?_append_left old] at entry
        obtain ⟨key, nonce, msg, sent, same⟩ := inv.ledger i e entry
        refine ⟨key, nonce, msg, ?_, same⟩
        rw [List.getElem?_append_left (count ▸ old)]
        exact sent
      · rw [List.getElem?_concat_length] at entry
        cases entry
        refine ⟨rfl, by rw [inv.txNonce, count], data, ?_, made⟩
        rw [count, List.getElem?_concat_length]
      · rw [List.getElem?_eq_none (by simp; omega)] at entry
        cases entry
  · rwa [eq]

theorem decrypt_inv (inv : Inv sodium s) (aead : AeadCorrect sodium) {inpbuf : List UInt8}
    (authentic : Authentic sodium s (.decrypt inpbuf)) : Inv sodium (s.decrypt sodium inpbuf) := by
  obtain ⟨msg, next, eq⟩ | eq := decrypt_cases inv aead authentic
  · rw [eq]
    refine ⟨inv.few, inv.endedA, inv.endedB, inv.keys, inv.txNonce, ?_, inv.count, inv.ledger, ?_⟩
    · show s.receiver.rxNonce + 1 = _
      rw [inv.rxNonce, ofNat_succ, List.length_append, List.length_singleton]
    · exact FifoChannel.prefix_next inv.ordered next
  · rwa [eq]

def Few (s : Stream) : Prop := s.sent.length < 2 ^ 64

theorem few_antitone {s s' : Stream} {a : StreamAction} (h : step sodium s a = some s')
    (few : s'.Few) : s.Few := by
  cases a with
  | encrypt data =>
    cases h
    obtain ⟨_, -, eq⟩ | eq := @encrypt_cases sodium s data
    · rw [Few, eq] at few
      simp only [List.length_append, List.length_singleton] at few
      exact Nat.lt_of_succ_lt few
    · rwa [eq] at few
  | decrypt inpbuf => cases h; exact few

theorem step_inv (aead : AeadCorrect sodium) {s s' : Stream} {a : StreamAction} (inv : Inv sodium s)
    (authentic : Authentic sodium s a) (few : s'.Few) (h : step sodium s a = some s') :
    Inv sodium s' := by
  cases a with
  | encrypt data => cases h; exact encrypt_inv inv data few
  | decrypt inpbuf => cases h; exact decrypt_inv inv aead authentic

/-! ## Refinement of the channel -/

def channel (s : Stream) : FifoChannel.State (List UInt8) := ⟨s.sent, s.received⟩

theorem step_refines (aead : AeadCorrect sodium) {s s' : Stream} {a : StreamAction}
    (inv : Inv sodium s) (authentic : Authentic sodium s a) (h : step sodium s a = some s') :
    ∃ bs, run FifoChannel.step s.channel bs = some s'.channel := by
  cases a with
  | encrypt data =>
    cases h
    obtain ⟨_, -, eq⟩ | eq := @encrypt_cases sodium s data
    · exact ⟨[.send data], by rw [eq]; rfl⟩
    · exact ⟨[], by rw [eq]; rfl⟩
  | decrypt inpbuf =>
    cases h
    obtain ⟨msg, next, eq⟩ | eq := decrypt_cases inv aead authentic
    · refine ⟨[.receive], ?_⟩
      rw [eq, run_cons]
      exact ⟨_, by simp only [FifoChannel.step, channel, next], rfl⟩
    · exact ⟨[], by rw [eq]; rfl⟩

variable {a b : E2eeConnection} {as : List StreamAction}

/-- Every run of the stream is a run of the channel. -/
theorem stream_refines_channel (aead : AeadCorrect sodium) (paired : Paired a b)
    (authentic : Meets (step sodium) (Authentic sodium) (start a b) as)
    (reached : run (step sodium) (start a b) as = some s) (few : s.Few) :
    ∃ bs, run FifoChannel.step FifoChannel.empty bs = some s.channel :=
  run_simulates channel (fun _ _ _ => few_antitone) (fun _ _ _ => step_inv aead)
    (fun _ _ _ inv good _ => step_refines aead inv good) (start_inv paired) authentic reached few

theorem failures_change_nothing (conn : E2eeConnection) (bytes : List UInt8) :
    ((e2eeEncrypt sodium conn bytes).1 ≠ 0 → (e2eeEncrypt sodium conn bytes).2.1 = conn) ∧
      ((e2eeDecrypt sodium conn bytes).1 ≠ 0 → (e2eeDecrypt sodium conn bytes).2.1 = conn) := by
  refine ⟨?_, ?_⟩
  · obtain ⟨_, -, -, eq⟩ | eq := @e2eeEncrypt_cases sodium conn bytes
    · simp [eq]
    · simp [eq]
  · obtain ⟨_, -, -, eq⟩ | eq := @e2eeDecrypt_cases sodium conn bytes
    · simp [eq]
    · simp [eq]

/-- The next ciphertext in order opens to the next plaintext. -/
theorem next_accepted (aead : AeadCorrect sodium) (inv : Inv sodium s) {e : Produced}
    (next : s.produced[s.received.length]? = some e) :
    ∃ conn msg, s.sent[s.received.length]? = some msg ∧
      e2eeDecrypt sodium s.receiver e.ciphertext = (0, conn, some msg) := by
  obtain ⟨key, nonce, msg, sent, made⟩ := inv.ledger _ e next
  have long := aead.expands _ _ _ _ made
  have opened := aead.opens _ _ _ _ made
  rw [key, inv.keys, nonce, ← inv.rxNonce] at opened
  refine ⟨{ s.receiver with rxNonce := s.receiver.rxNonce + 1 }, msg, sent, ?_⟩
  rw [e2eeDecrypt, if_neg (not_not.mpr inv.endedB), if_neg (by omega)]
  simp only [cryptoDecrypt, if_neg (show ¬ e.ciphertext.length < e2eeOverhead by omega), opened]

/-- What B decrypts is the first part of what A encrypted, failures change no counter, and
    the next genuine ciphertext is accepted whatever was tried before it. -/
theorem stream_authentic (sodium : Sodium) (aead : AeadCorrect sodium) (a b : E2eeConnection)
    (paired : Paired a b) (as : List StreamAction) (s : Stream)
    (reached : run (step sodium) (start a b) as = some s)
    (authentic : Meets (step sodium) (Authentic sodium) (start a b) as)
    (few : s.sent.length < 2 ^ 64) :
    s.received <+: s.sent ∧
      (∀ data, (e2eeEncrypt sodium s.sender data).1 ≠ 0 →
        (e2eeEncrypt sodium s.sender data).2.1 = s.sender) ∧
      (∀ inpbuf, (e2eeDecrypt sodium s.receiver inpbuf).1 ≠ 0 →
        (e2eeDecrypt sodium s.receiver inpbuf).2.1 = s.receiver) ∧
      ∀ e, s.produced[s.received.length]? = some e →
        ∃ conn msg, s.sent[s.received.length]? = some msg ∧
          e2eeDecrypt sodium s.receiver e.ciphertext = (0, conn, some msg) := by
  have inv : Inv sodium s := run_invariant_guarded (fun _ _ _ => few_antitone)
    (fun _ _ _ => step_inv aead) (start_inv paired) authentic reached few
  -- the prefix is a fact about channels that lose nothing they accept
  obtain ⟨bs, simulated⟩ := stream_refines_channel aead paired authentic reached few
  exact ⟨FifoChannel.received_prefix simulated,
    fun data => (failures_change_nothing s.sender data).1,
    fun inpbuf => (failures_change_nothing s.receiver inpbuf).2,
    fun e next => next_accepted aead inv next⟩

theorem toySodium_correct : AeadCorrect toySodium where
  opens msg nonce key ciphertext made := by
    obtain rfl := Option.some.inj made
    simp [toySodium]
  expands msg nonce key ciphertext made := by
    obtain rfl := Option.some.inj made
    simp

def endedA : E2eeConnection :=
  { blankConnection with
    skeys := toyServerKeys (toyKeypair 1).publicKey (toyKeypair 2).publicKey
    hstate := .handshakeEnded }

def endedB : E2eeConnection := { endedA with skeys := ⟨endedA.skeys.tx, endedA.skeys.rx⟩ }

/-- Two messages; the attacker tries the second first, sends noise and repeats the first. -/
def swapped : List StreamAction :=
  [.encrypt [7], .encrypt [8], .decrypt (8 :: List.replicate 16 68), .decrypt [1, 2],
    .decrypt (7 :: List.replicate 16 67), .decrypt (7 :: List.replicate 16 67)]

theorem stream_authentic_swapped :
    ∃ s, run (step toySodium) (start endedA endedB) swapped = some s ∧
      s.sent = [[7], [8]] ∧ s.received = [[7]] ∧
      s.received <+: s.sent ∧
      (∀ data, (e2eeEncrypt toySodium s.sender data).1 ≠ 0 →
        (e2eeEncrypt toySodium s.sender data).2.1 = s.sender) ∧
      (∀ inpbuf, (e2eeDecrypt toySodium s.receiver inpbuf).1 ≠ 0 →
        (e2eeDecrypt toySodium s.receiver inpbuf).2.1 = s.receiver) ∧
      ∀ e, s.produced[s.received.length]? = some e →
        ∃ conn msg, s.sent[s.received.length]? = some msg ∧
          e2eeDecrypt toySodium s.receiver e.ciphertext = (0, conn, some msg) :=
  ⟨_, rfl, rfl, rfl, stream_authentic toySodium toySodium_correct endedA endedB
    ⟨rfl, rfl, rfl, rfl, rfl⟩ swapped _ rfl (by decide) (by decide)⟩

end Stream

end Soter2.E2ee
