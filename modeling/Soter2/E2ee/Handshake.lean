import Mathlib.Data.List.Basic
import Mathlib.Logic.Function.Basic
import Mathlib.Tactic.Common
import Soter2.E2ee.Connection
import Soter2.Library.Transition

/-! # The handshake of two parties

Two connections are initialised for each other, and in any order each calls
`e2ee_conn_handshake_init` or hands some buffer to `e2ee_conn_handshake_resp`.  The state
of a connection is one field that both calls overwrite, and a handshake carries nothing
that ties it to the session:

* `handshake_agrees` — no call of init on a finished connection and no recorded handshake of
  an earlier session, and the parties agree once both have called both.
* `handshake_disagrees` — either of the two, and they need not.
-/

namespace Soter2.E2ee

open Transition

structure Signed where
  id : Bytes keyBytes
  payload : List UInt8
  signature : Bytes signBytes
deriving DecidableEq

/-- The handshake as a signature of the identity `id`. -/
def E2eeHandshake.signedBy (hs : E2eeHandshake) (id : Bytes keyBytes) : Signed :=
  ⟨id, signaturePayload hs.nonce hs.x25519Pubkey, hs.signature⟩

/-- What each party brings: its identity, its fresh key pair and the memory its connection is
    initialised in. -/
structure Setup where
  sign : Party → Sign
  kp : Party → CryptoKeypair
  memory : Party → E2eeConnection

/-- `made` are the signatures made since the connections were initialised; `inited` and
    `processed` say which calls a party has made with success. -/
structure Handshaking where
  conn : Party → E2eeConnection
  made : List Signed
  inited : Party → Bool
  processed : Party → Bool

inductive HandshakeAction where
  | init (p : Party) (nonce : UInt32)
  | resp (p : Party) (hs : E2eeHandshake)

namespace Handshaking

variable (sodium : Sodium)

def start (setup : Setup) : Handshaking where
  conn p := e2eeConnInit sodium (setup.memory p) (setup.sign p) (setup.sign p.other).idPub
    (setup.kp p)
  made := []
  inited _ := false
  processed _ := false

def init (w : Handshaking) (p : Party) (nonce : UInt32) : Handshaking :=
  let (conn, hs) := e2eeConnHandshakeInit sodium (w.conn p) nonce
  { w with
    conn := Function.update w.conn p conn
    made := hs.signedBy (w.conn p).stSignature.idPub :: w.made
    inited := Function.update w.inited p true }

def resp (w : Handshaking) (p : Party) (hs : E2eeHandshake) : Handshaking :=
  let (ret, conn) := e2eeConnHandshakeResp sodium (w.conn p) hs
  { w with
    conn := Function.update w.conn p conn
    processed := Function.update w.processed p (w.processed p || ret == 0) }

def step (w : Handshaking) : HandshakeAction → Option Handshaking
  | .init p nonce => some (w.init sodium p nonce)
  | .resp p hs => some (w.resp sodium p hs)

/-! ## Assumption and condition -/

/-- A signature that verifies was made by the claimed identity, in this session or before;
    `recordings` are those from before. -/
def SignedByPeer (recordings : List Signed) (w : Handshaking) : HandshakeAction → Prop
  | .init _ _ => True
  | .resp p hs => verifies sodium (w.conn p) hs →
      hs.signedBy (w.conn p).stOtherPubkey ∈ w.made ∨
        hs.signedBy (w.conn p).stOtherPubkey ∈ recordings

/-- No party starts over when its handshake has ended, or is handed a recording. -/
def Undisturbed (recordings : List Signed) (w : Handshaking) : HandshakeAction → Prop
  | .init p _ => (w.conn p).hstate ≠ .handshakeEnded
  | .resp p hs => hs.signedBy (w.conn p).stOtherPubkey ∉ recordings

instance (recordings : List Signed) (w : Handshaking) :
    ∀ a, Decidable (SignedByPeer sodium recordings w a)
  | .init _ _ => .isTrue trivial
  | .resp _ _ => inferInstanceAs (Decidable (_ → _))

instance (recordings : List Signed) (w : Handshaking) : ∀ a, Decidable (Undisturbed recordings w a)
  | .init _ _ => inferInstanceAs (Decidable (_ ≠ _))
  | .resp _ _ => inferInstanceAs (Decidable (_ ∉ _))

/-- What the two sides of `crypto_kx` compute from each other's public keys is mirrored. -/
def Mirrored (server client : CryptoKeypair) : Prop :=
  ∀ ks kc, handshakeKeys sodium true server client.publicKey = some ks →
    handshakeKeys sodium false client server.publicKey = some kc → ks.tx = kc.rx ∧ ks.rx = kc.tx

/-! ## Agreement and rejection -/

def OneServer (w : Handshaking) : Prop := (w.conn .alice).hsAs ≠ (w.conn .bob).hsAs

/-- Both sides have called init, and have processed a message of the other. -/
def AllDone (w : Handshaking) : Prop := ∀ p, w.inited p = true ∧ w.processed p = true

structure Agreed (w : Handshaking) : Prop where
  ended : ∀ p, (w.conn p).hstate = .handshakeEnded
  tx : (w.conn .alice).skeys.tx = (w.conn .bob).skeys.rx
  rx : (w.conn .alice).skeys.rx = (w.conn .bob).skeys.tx

/-- A buffer that fails verification changes nothing. -/
def RejectsUnchanged (w : Handshaking) : Prop :=
  ∀ p hs, verifies sodium (w.conn p) hs = false →
    e2eeConnHandshakeResp sodium (w.conn p) hs = (-1, w.conn p)

/-! ## The invariant -/

def role (setup : Setup) (p : Party) : Bool :=
  cryptoPubkeyToUid sodium (setup.sign p).idPub
    < cryptoPubkeyToUid sodium (setup.sign p.other).idPub

/-- What the calls never change in the connection of a party. -/
structure Enrolled (setup : Setup) (p : Party) (conn : E2eeConnection) : Prop where
  kp : conn.kp = setup.kp p
  sign : conn.stSignature = setup.sign p
  other : conn.stOtherPubkey = (setup.sign p.other).idPub
  hsAs : conn.hsAs = role sodium setup p

/-- What is signed carries the key of the signer, and a party that has processed a message
    is through with the keys for the two key pairs. -/
structure Inv (setup : Setup) (w : Handshaking) : Prop where
  enrolled : ∀ p, Enrolled sodium setup p (w.conn p)
  made : ∀ e ∈ w.made, ∃ p nonce, e.id = (setup.sign p).idPub ∧
    e.payload = signaturePayload nonce (setup.kp p).publicKey
  done : ∀ p, w.processed p = true → (w.conn p).hstate = .handshakeEnded ∧
    handshakeKeys sodium (role sodium setup p) (setup.kp p) (setup.kp p.other).publicKey =
      some (w.conn p).skeys

variable {sodium} {setup : Setup} {w : Handshaking}

theorem start_inv (setup : Setup) : Inv sodium setup (start sodium setup) where
  enrolled _ := ⟨rfl, rfl, rfl, rfl⟩
  made := by simp [start]
  done := by simp [start]

theorem init_inv (inv : Inv sodium setup w) {p : Party} {nonce : UInt32} {recordings : List Signed}
    (undisturbed : Undisturbed recordings w (.init p nonce)) :
    Inv sodium setup (w.init sodium p nonce) := by
  have mine := inv.enrolled p
  refine ⟨Party.forall_update inv.enrolled ⟨mine.kp, mine.sign, mine.other, mine.hsAs⟩, ?_, ?_⟩
  · intro e he
    rcases List.mem_cons.mp he with rfl | he
    · refine ⟨p, nonce, congrArg Sign.idPub mine.sign, ?_⟩
      rw [← mine.kp]
      rfl
    · exact inv.made e he
  · intro q done
    -- a party that has processed a message is through, so it is not the one that starts over
    have other : q ≠ p := by
      rintro rfl
      exact undisturbed (inv.done q done).1
    show (Function.update w.conn p _ q).hstate = _ ∧ _ = some (Function.update w.conn p _ q).skeys
    rw [Function.update_of_ne other]
    exact inv.done q done

/-- A handshake of this session that verifies carries the key of the peer. -/
theorem peer_key (inv : Inv sodium setup w)
    (distinct : (setup.sign .alice).idPub ≠ (setup.sign .bob).idPub) {p : Party}
    {hs : E2eeHandshake} (signed : hs.signedBy (w.conn p).stOtherPubkey ∈ w.made) :
    hs.x25519Pubkey = (setup.kp p.other).publicKey := by
  obtain ⟨q, nonce, id, payload⟩ := inv.made _ signed
  have id : (setup.sign p.other).idPub = (setup.sign q).idPub :=
    (inv.enrolled p).other.symm.trans id
  obtain rfl : q = p.other := by
    cases p <;> cases q
    · exact absurd id.symm distinct
    · rfl
    · rfl
    · exact absurd id distinct
  exact (signaturePayload_inj payload).2

theorem resp_inv (inv : Inv sodium setup w)
    (distinct : (setup.sign .alice).idPub ≠ (setup.sign .bob).idPub) {p : Party}
    {hs : E2eeHandshake} {recordings : List Signed}
    (signed : SignedByPeer sodium recordings w (.resp p hs))
    (undisturbed : Undisturbed recordings w (.resp p hs)) :
    Inv sodium setup (w.resp sodium p hs) := by
  obtain ⟨skeys, good, keys, eq⟩ | eq := @e2eeConnHandshakeResp_cases sodium (w.conn p) hs
  · -- the only handshakes under the peer's signature carry the key that it enrolled with
    have peer := peer_key inv distinct ((signed good).resolve_right undisturbed)
    have mine := inv.enrolled p
    simp only [resp, eq]
    refine ⟨Party.forall_update inv.enrolled ⟨mine.kp, mine.sign, mine.other, mine.hsAs⟩, inv.made,
      ?_⟩
    intro q done
    by_cases same : q = p
    · subst same
      simp only [Function.update_self]
      rw [← mine.hsAs, ← mine.kp, ← peer]
      exact ⟨trivial, keys⟩
    · simp only [Function.update_of_ne same] at done ⊢
      exact inv.done q done
  · have same : w.resp sodium p hs = w := by
      simp [resp, eq]
    rwa [same]

theorem decide_lt_ne {a b : UInt32} (ne : a ≠ b) : decide (a < b) ≠ decide (b < a) := by
  intro same
  have same : a < b ↔ b < a := by simpa using same
  have ne : a.toNat ≠ b.toNat := fun h => ne (UInt32.toNat_inj.mp h)
  simp only [UInt32.lt_iff_toNat_lt] at same
  omega

theorem oneServer (inv : Inv sodium setup w)
    (uids : cryptoPubkeyToUid sodium (setup.sign .alice).idPub ≠
      cryptoPubkeyToUid sodium (setup.sign .bob).idPub) : w.OneServer := by
  rw [OneServer, (inv.enrolled .alice).hsAs, (inv.enrolled .bob).hsAs]
  exact decide_lt_ne uids

theorem agreed (inv : Inv sodium setup w)
    (mirrored : ∀ p : Party, Mirrored sodium (setup.kp p) (setup.kp p.other)) (one : w.OneServer)
    (done : w.AllDone) : w.Agreed := by
  obtain ⟨endedA, keysA⟩ := inv.done .alice (done .alice).2
  obtain ⟨endedB, keysB⟩ := inv.done .bob (done .bob).2
  rw [OneServer, (inv.enrolled .alice).hsAs, (inv.enrolled .bob).hsAs] at one
  have ended : ∀ p, (w.conn p).hstate = .handshakeEnded := by
    intro p
    cases p
    · exact endedA
    · exact endedB
  rw [Bool.eq_not.mpr one.symm] at keysB
  -- one of them is the server; its keys are the other's, the two directions exchanged
  cases server : role sodium setup .alice with
  | true =>
    rw [server] at keysA keysB
    obtain ⟨tx, rx⟩ := mirrored .alice _ _ keysA keysB
    exact ⟨ended, tx, rx⟩
  | false =>
    rw [server] at keysA keysB
    obtain ⟨tx, rx⟩ := mirrored .bob _ _ keysB keysA
    exact ⟨ended, rx.symm, tx.symm⟩

/-- In every run whose steps are undisturbed, exactly one side is the server, the sides agree
    once both have called both, and a buffer that fails verification changes nothing. -/
theorem handshake_agrees (sodium : Sodium) (setup : Setup) (recordings : List Signed)
    (uids : cryptoPubkeyToUid sodium (setup.sign .alice).idPub ≠
      cryptoPubkeyToUid sodium (setup.sign .bob).idPub)
    (mirrored : ∀ p : Party, Mirrored sodium (setup.kp p) (setup.kp p.other))
    (as : List HandshakeAction) (w : Handshaking)
    (reached : run (step sodium) (start sodium setup) as = some w)
    (signed : Meets (step sodium) (SignedByPeer sodium recordings) (start sodium setup) as)
    (undisturbed : Meets (step sodium) (Undisturbed recordings) (start sodium setup) as) :
    w.OneServer ∧ (w.AllDone → w.Agreed) ∧ RejectsUnchanged sodium w := by
  -- different UIDs come of different identities
  have distinct : (setup.sign .alice).idPub ≠ (setup.sign .bob).idPub :=
    fun same => uids (congrArg (cryptoPubkeyToUid sodium) same)
  have inv : Inv sodium setup w := by
    refine run_invariant_where ?_ (start_inv setup) (signed.and undisturbed) reached
    rintro v (⟨p, nonce⟩ | ⟨p, hs⟩) v' inv ⟨good, free⟩ h
    · cases h; exact init_inv inv free
    · cases h; exact resp_inv inv distinct good free
  have one := oneServer inv uids
  refine ⟨one, agreed inv mirrored one, ?_⟩
  intro p hs bad
  simp [e2eeConnHandshakeResp, bad]

/-! ## Runs with the stand-in -/

def toySetup : Setup where
  sign
    | .alice => toySign 1
    | .bob => toySign 2
  kp
    | .alice => toyKeypair 1
    | .bob => toyKeypair 2
  memory _ := blankConnection

def message (p : Party) : E2eeHandshake :=
  (e2eeConnHandshakeInit toySodium ((start toySodium toySetup).conn p) 0).2

/-- What Bob signed in an earlier session, with another key pair. -/
def earlier : E2eeHandshake :=
  (e2eeConnHandshakeInit toySodium { (start toySodium toySetup).conn .bob with kp := toyKeypair 5 }
    0).2

/-- Both start, then both answer. -/
def inOrder : List HandshakeAction :=
  [.init .alice 0, .init .bob 0, .resp .alice (message .bob), .resp .bob (message .alice)]

/-- Alice answers Bob before she starts. -/
def answersFirst : List HandshakeAction :=
  [.init .bob 0, .resp .alice (message .bob), .init .alice 0, .resp .bob (message .alice)]

theorem toySetup_uids : cryptoPubkeyToUid toySodium (toySetup.sign .alice).idPub ≠
    cryptoPubkeyToUid toySodium (toySetup.sign .bob).idPub := by decide

theorem toySetup_mirrored (p : Party) :
    Mirrored toySodium (toySetup.kp p) (toySetup.kp p.other) := by
  intro ks kc server client
  cases server
  cases client
  exact ⟨rfl, rfl⟩

theorem handshake_agrees_inOrder :
    ∃ w, run (step toySodium) (start toySodium toySetup) inOrder = some w ∧ w.AllDone ∧
      w.OneServer ∧ (w.AllDone → w.Agreed) ∧ RejectsUnchanged toySodium w :=
  ⟨_, rfl, fun p => by cases p <;> decide +kernel,
    handshake_agrees toySodium toySetup [] toySetup_uids toySetup_mirrored inOrder _ rfl
      (by decide +kernel) (by decide +kernel)⟩

/-- A party that answers first and starts afterwards forgets that it is through, and a
    recorded handshake replaces the keys of one that is. -/
theorem handshake_disagrees :
    (∃ w, run (step toySodium) (start toySodium toySetup) answersFirst = some w ∧
      Meets (step toySodium) (SignedByPeer toySodium []) (start toySodium toySetup) answersFirst ∧
      w.AllDone ∧ (w.conn .alice).hstate = .handshakeSent ∧ ¬ w.Agreed) ∧
    ∃ w, run (step toySodium) (start toySodium toySetup) (inOrder ++ [.resp .alice earlier])
      = some w ∧
      Meets (step toySodium) (SignedByPeer toySodium [earlier.signedBy (toySetup.sign .bob).idPub])
        (start toySodium toySetup) (inOrder ++ [.resp .alice earlier]) ∧
      w.AllDone ∧ (w.conn .alice).skeys.tx ≠ (w.conn .bob).skeys.rx ∧ ¬ w.Agreed := by
  refine ⟨⟨_, rfl, by decide +kernel, fun p => by cases p <;> decide +kernel, by decide +kernel,
    ?_⟩, ⟨_, rfl, by decide +kernel, fun p => by cases p <;> decide +kernel, by decide +kernel, ?_⟩⟩
  · intro agreed
    exact absurd (agreed.ended .alice) (by decide +kernel)
  · intro agreed
    exact absurd agreed.tx (by decide +kernel)

end Handshaking

end Soter2.E2ee
