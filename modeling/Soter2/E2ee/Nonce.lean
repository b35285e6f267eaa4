import Mathlib
import Soter2.E2ee.Connection
import Soter2.Library.AssocTable
import Soter2.Library.Transition

/-! # Nonces over successive sessions

Two identities go through any number of sessions.  `e2ee_conn_init` makes a key pair and
puts the counters back to 0; `e2ee_conn_load_keypair` puts an old key pair in its place and
leaves the counters alone.  Every initialisation starts a new epoch of its side:

* `nonces_not_reused` — a loaded pair that never meets a peer key it encrypted for before
  repeats no nonce.
* `nonce_reused` — two sessions with the same two pairs do.
-/

namespace Soter2.E2ee

open Transition

/-- A successful `e2ee_encrypt`: by whom, in which epoch, with the session keys from which
    pair and peer key, under which key and counter. -/
structure Encryption where
  party : Party
  epoch : Nat
  own : Bytes keyBytes
  peer : Bytes keyBytes
  key : Bytes keyBytes
  nonce : UInt64
  data : List UInt8
deriving DecidableEq

structure Derived where
  hsAs : Bool
  own : Bytes keyBytes
  peer : Bytes keyBytes
  tx : Bytes keyBytes
deriving DecidableEq

/-- A connection, the number of its initialisations, the pair that the last one made, the
    keys of its last handshake, and the files of its machine. -/
structure Side where
  conn : E2eeConnection
  epoch : Nat
  fresh : CryptoKeypair
  own : Bytes keyBytes
  peer : Bytes keyBytes
  files : Files

/-- `made` are the public keys that `crypto_keypair_make` returned, with their makers. -/
structure Sessions where
  side : Party → Side
  made : List (Party × Bytes keyBytes)
  derived : List Derived
  log : List Encryption

inductive SessionsAction where
  | init (p : Party) (kp : CryptoKeypair)
  | save (p : Party) (path : String)
  | load (p : Party) (path : String)
  | upd (p : Party) (path : String)
  | handshakeInit (p : Party) (nonce : UInt32)
  | handshakeResp (p : Party) (hs : E2eeHandshake)
  | encrypt (p : Party) (data : List UInt8)
  | decrypt (p : Party) (inpbuf : List UInt8)

namespace Sessions

/-- No initialisation yet, no files, and anything in memory. -/
def start (memory : Party → E2eeConnection) : Sessions where
  side p := ⟨memory p, 0, (memory p).kp, (memory p).kp.publicKey, (memory p).stOtherPubkey,
    AssocTable.empty⟩
  made := []
  derived := []
  log := []

def setSide (s : Sessions) (p : Party) (side : Side) : Sessions :=
  { s with side := Function.update s.side p side }

variable (sodium : Sodium) (sign : Party → Sign)

def init (s : Sessions) (p : Party) (kp : CryptoKeypair) : Sessions :=
  let side := s.side p
  { s.setSide p { side with
      conn := e2eeConnInit sodium side.conn (sign p) (sign p.other).idPub kp
      epoch := side.epoch + 1
      fresh := kp } with
    made := (p, kp.publicKey) :: s.made }

def save (s : Sessions) (p : Party) (path : String) : Sessions :=
  let side := s.side p
  s.setSide p { side with files := (e2eeConnSaveKeypair side.conn side.files path).2 }

def load (s : Sessions) (p : Party) (path : String) : Sessions :=
  let side := s.side p
  s.setSide p { side with conn := (e2eeConnLoadKeypair side.conn side.files path).2 }

def upd (s : Sessions) (p : Party) (path : String) : Sessions :=
  let side := s.side p
  let (_, conn, files) := e2eeConnUpdKeypair side.conn side.files path
  s.setSide p { side with conn := conn, files := files }

def handshakeInit (s : Sessions) (p : Party) (nonce : UInt32) : Sessions :=
  let side := s.side p
  s.setSide p { side with conn := (e2eeConnHandshakeInit sodium side.conn nonce).1 }

def handshakeResp (s : Sessions) (p : Party) (hs : E2eeHandshake) : Sessions :=
  let side := s.side p
  match e2eeConnHandshakeResp sodium side.conn hs with
  | (0, conn) =>
    { s.setSide p { side with conn := conn, own := conn.kp.publicKey, peer := hs.x25519Pubkey } with
      derived := ⟨conn.hsAs, conn.kp.publicKey, hs.x25519Pubkey, conn.skeys.tx⟩ :: s.derived }
  | (_, conn) => s.setSide p { side with conn := conn }

def encrypt (s : Sessions) (p : Party) (data : List UInt8) : Sessions :=
  let side := s.side p
  match e2eeEncrypt sodium side.conn data with
  | (_, conn, none) => s.setSide p { side with conn := conn }
  | (_, conn, some _) =>
    { s.setSide p { side with conn := conn } with
      log := s.log ++
        [⟨p, side.epoch, side.own, side.peer, side.conn.skeys.tx, side.conn.txNonce, data⟩] }

def decrypt (s : Sessions) (p : Party) (inpbuf : List UInt8) : Sessions :=
  let side := s.side p
  s.setSide p { side with conn := (e2eeDecrypt sodium side.conn inpbuf).2.1 }

/-- Nothing is called before `e2ee_conn_init`, and `crypto_keypair_make` never repeats. -/
def step (s : Sessions) : SessionsAction → Option Sessions
  | .init p kp =>
    if kp.publicKey ∈ s.made.map Prod.snd then none else some (s.init sodium sign p kp)
  | .save p path => if (s.side p).epoch = 0 then none else some (s.save p path)
  | .load p path => if (s.side p).epoch = 0 then none else some (s.load p path)
  | .upd p path => if (s.side p).epoch = 0 then none else some (s.upd p path)
  | .handshakeInit p nonce =>
    if (s.side p).epoch = 0 then none else some (s.handshakeInit sodium p nonce)
  | .handshakeResp p hs => if (s.side p).epoch = 0 then none else some (s.handshakeResp sodium p hs)
  | .encrypt p data => if (s.side p).epoch = 0 then none else some (s.encrypt sodium p data)
  | .decrypt p inpbuf => if (s.side p).epoch = 0 then none else some (s.decrypt sodium p inpbuf)

/-! ## Colliding keys, loaded pairs and reused nonces -/

/-- Different derivations gave different send keys. -/
def CollisionFree (derived : List Derived) : Prop :=
  ∀ d ∈ derived, ∀ d' ∈ derived, d.tx = d'.tx → d = d'

instance (derived : List Derived) : Decidable (CollisionFree derived) :=
  inferInstanceAs (Decidable (∀ d ∈ derived, ∀ d' ∈ derived, _))

/-- A key pair from a file finishes no handshake with a peer key with which it was used to
    encrypt before the last initialisation. -/
def LoadsNoUsedPair (s : Sessions) : SessionsAction → Prop
  | .handshakeResp p hs =>
    (s.side p).conn.kp ≠ (s.side p).fresh → verifies sodium (s.side p).conn hs = true →
      ∀ e ∈ s.log, e.party = p → e.epoch < (s.side p).epoch →
        ¬ (e.own = (s.side p).conn.kp.publicKey ∧ e.peer = hs.x25519Pubkey)
  | _ => True

instance (s : Sessions) (a : SessionsAction) : Decidable (LoadsNoUsedPair sodium s a) := by
  cases a <;> simp only [LoadsNoUsedPair] <;> infer_instance

/-- No two plaintexts were encrypted under one key and nonce. -/
def NoReuse (log : List Encryption) : Prop :=
  log.Pairwise (fun x y => x.key = y.key → x.nonce = y.nonce → x.data = y.data)

/-! ## The invariant -/

def role (p : Party) : Bool :=
  cryptoPubkeyToUid sodium (sign p).idPub < cryptoPubkeyToUid sodium (sign p.other).idPub

/-- The pair and the peer key of a side were not used to encrypt in an earlier epoch. -/
def Unused (log : List Encryption) (p : Party) (epoch : Nat) (own peer : Bytes keyBytes) : Prop :=
  ∀ e ∈ log, e.party = p → e.epoch < epoch → ¬ (e.own = own ∧ e.peer = peer)

structure SideInv (made : List (Party × Bytes keyBytes)) (derived : List Derived)
    (log : List Encryption) (p : Party) (side : Side) : Prop where
  files : ∀ path kp, (path, kp) ∈ side.files.entries → (p, kp.publicKey) ∈ made
  epochs : ∀ e ∈ log, e.party = p → e.epoch ≤ side.epoch
  owns : side.epoch ≠ 0 → (p, side.conn.kp.publicKey) ∈ made
  hsAs : side.epoch ≠ 0 → side.conn.hsAs = role sodium sign p
  fresh : side.epoch ≠ 0 → ∀ peer, Unused log p side.epoch side.fresh.publicKey peer
  ended : side.epoch ≠ 0 → side.conn.hstate = .handshakeEnded →
    ⟨role sodium sign p, side.own, side.peer, side.conn.skeys.tx⟩ ∈ derived ∧
      (p, side.own) ∈ made ∧ Unused log p side.epoch side.own side.peer
  counted : side.epoch ≠ 0 → ∀ e ∈ log, e.party = p → e.epoch = side.epoch →
    e.nonce.toNat < side.conn.txNonce.toNat
  txNonce : side.epoch ≠ 0 → side.conn.txNonce.toNat ≤ log.length

structure Inv (s : Sessions) : Prop where
  sides : ∀ p, SideInv sodium sign s.made s.derived s.log p (s.side p)
  makers : (s.made.map Prod.snd).Nodup
  keys : ∀ e ∈ s.log, ⟨role sodium sign e.party, e.own, e.peer, e.key⟩ ∈ s.derived ∧
    (e.party, e.own) ∈ s.made
  unique : s.log.Pairwise (fun x y => x.key = y.key → x.nonce ≠ y.nonce)

structure Bounded (s : Sessions) : Prop where
  few : s.log.length < 2 ^ 64
  collisionFree : CollisionFree s.derived

variable {sodium} {sign} {s : Sessions}

theorem start_inv (memory : Party → E2eeConnection) : Inv sodium sign (start memory) where
  sides _ := by
    refine ⟨?_, ?_, ?_, ?_, ?_, ?_, ?_, ?_⟩ <;> simp [start, AssocTable.empty]
  makers := List.nodup_nil
  keys := by simp [start]
  unique := List.Pairwise.nil

namespace SideInv

variable {made made' : List (Party × Bytes keyBytes)} {derived derived' : List Derived}
  {log : List Encryption} {p : Party} {side : Side}

theorem mono (h : SideInv sodium sign made derived log p side) (moreMade : made ⊆ made')
    (moreDerived : derived ⊆ derived') : SideInv sodium sign made' derived' log p side where
  files path kp member := moreMade (h.files path kp member)
  epochs := h.epochs
  owns started := moreMade (h.owns started)
  hsAs := h.hsAs
  fresh := h.fresh
  ended started ended :=
    let ⟨keys, own, unused⟩ := h.ended started ended
    ⟨moreDerived keys, moreMade own, unused⟩
  counted := h.counted
  txNonce := h.txNonce

/-- An encryption of the other side is none of this one's. -/
theorem other_encrypts (h : SideInv sodium sign made derived log p side) {e : Encryption}
    (other : e.party ≠ p) : SideInv sodium sign made derived (log ++ [e]) p side := by
  have mine : ∀ {P : Encryption → Prop}, (∀ x ∈ log, x.party = p → P x) →
      ∀ x ∈ log ++ [e], x.party = p → P x :=
    fun old => List.forall_mem_append.mpr
      ⟨old, List.forall_mem_singleton.mpr fun party => absurd party other⟩
  refine ⟨h.files, mine h.epochs, h.owns, h.hsAs, ?_, ?_, ?_, ?_⟩
  · intro started peer
    exact mine (h.fresh started peer)
  · intro started ended
    obtain ⟨keys, own, unused⟩ := h.ended started ended
    exact ⟨keys, own, mine unused⟩
  · intro started
    exact mine (h.counted started)
  · intro started
    have := h.txNonce started
    rw [List.length_append]
    omega

/-- An encryption of this side in this epoch, under the counter that it puts up. -/
theorem own_encrypts (h : SideInv sodium sign made derived log p side) (started : side.epoch ≠ 0)
    (ended : side.conn.hstate = .handshakeEnded) {e : Encryption} (epoch : e.epoch = side.epoch)
    (nonce : e.nonce = side.conn.txNonce) (few : log.length + 1 < 2 ^ 64) :
    SideInv sodium sign made derived (log ++ [e]) p
      { side with conn := { side.conn with txNonce := side.conn.txNonce + 1 } } := by
  obtain ⟨keys, own, unused⟩ := h.ended started ended
  have counter := h.txNonce started
  -- the counter does not wrap around, as the encryptions so far are fewer than its values
  have next : (side.conn.txNonce + 1).toNat = side.conn.txNonce.toNat + 1 := by
    rw [UInt64.toNat_add, UInt64.toNat_one]
    omega
  -- whatever is asked of earlier epochs does not concern this encryption
  have notEarlier : ∀ {P : Prop}, e.party = p → e.epoch < side.epoch → P :=
    fun _ earlier => absurd (epoch ▸ earlier) (Nat.lt_irrefl _)
  refine ⟨h.files, ?_, h.owns, h.hsAs, ?_, ?_, ?_, ?_⟩
  · exact List.forall_mem_append.mpr ⟨h.epochs,
      List.forall_mem_singleton.mpr fun _ => Nat.le_of_eq epoch⟩
  · intro _ peer
    exact List.forall_mem_append.mpr ⟨h.fresh started peer,
      List.forall_mem_singleton.mpr notEarlier⟩
  · intro _ _
    exact ⟨keys, own, List.forall_mem_append.mpr ⟨unused, List.forall_mem_singleton.mpr notEarlier⟩⟩
  · intro _
    show ∀ x ∈ log ++ [e], x.party = p → x.epoch = side.epoch →
      x.nonce.toNat < (side.conn.txNonce + 1).toNat
    rw [next]
    refine List.forall_mem_append.mpr ⟨?_, List.forall_mem_singleton.mpr ?_⟩
    · intro x hx party now
      exact Nat.lt_succ_of_lt (h.counted started x hx party now)
    · intro _ _
      rw [nonce]
      exact Nat.lt_succ_self _
  · intro _
    show (side.conn.txNonce + 1).toNat ≤ _
    rw [next, List.length_append, List.length_singleton]
    omega

/-- A call that keeps the keys and the counter, and ends no handshake. -/
theorem replace (h : SideInv sodium sign made derived log p side) {conn : E2eeConnection}
    {files : Files} (allMade : ∀ path kp, (path, kp) ∈ files.entries → (p, kp.publicKey) ∈ made)
    (owns : side.epoch ≠ 0 → (p, conn.kp.publicKey) ∈ made) (hsAs : conn.hsAs = side.conn.hsAs)
    (hstate : conn.hstate = .handshakeEnded → side.conn.hstate = .handshakeEnded)
    (skeys : conn.skeys = side.conn.skeys) (txNonce : conn.txNonce = side.conn.txNonce) :
    SideInv sodium sign made derived log p { side with conn := conn, files := files } := by
  refine ⟨allMade, h.epochs, owns, ?_, h.fresh, ?_, ?_, ?_⟩
  · intro started
    exact hsAs.trans (h.hsAs started)
  · intro started ended
    show (⟨_, _, _, conn.skeys.tx⟩ : Derived) ∈ derived ∧ _
    rw [skeys]
    exact h.ended started (hstate ended)
  · show _ → ∀ e ∈ log, _ → _ → _ < conn.txNonce.toNat
    rw [txNonce]
    exact h.counted
  · show _ → conn.txNonce.toNat ≤ _
    rw [txNonce]
    exact h.txNonce

end SideInv

/-! ## The steps -/

theorem setSide_inv (inv : Inv sodium sign s) {p : Party} {side : Side}
    (sideInv : SideInv sodium sign s.made s.derived s.log p side) :
    Inv sodium sign (s.setSide p side) :=
  ⟨Party.forall_update (P := SideInv sodium sign s.made s.derived s.log) inv.sides sideInv,
    inv.makers, inv.keys, inv.unique⟩

theorem init_inv (inv : Inv sodium sign s) {p : Party} {kp : CryptoKeypair}
    (new : kp.publicKey ∉ s.made.map Prod.snd) : Inv sodium sign (s.init sodium sign p kp) := by
  have moreMade : s.made ⊆ (p, kp.publicKey) :: s.made := List.subset_cons_self _ _
  have mine := (inv.sides p).mono moreMade (List.Subset.refl s.derived)
  refine ⟨Party.forall_update
    (P := SideInv sodium sign ((p, kp.publicKey) :: s.made) s.derived s.log)
    (fun q => (inv.sides q).mono moreMade (List.Subset.refl _)) ?_, ?_, ?_, inv.unique⟩
  · refine ⟨mine.files, ?_, fun _ => List.mem_cons_self, fun _ => rfl, ?_, ?_, ?_, ?_⟩
    · intro e he party
      exact Nat.le_succ_of_le (mine.epochs e he party)
    · -- every key used so far was made before this one
      rintro - peer e he - - ⟨same, -⟩
      exact new (same ▸ List.mem_map_of_mem (inv.keys e he).2)
    · rintro - ended
      cases ended
    · -- the new epoch has no encryption yet, so the counter may start again
      intro _ e he party epoch
      have epoch : e.epoch = (s.side p).epoch + 1 := epoch
      have := mine.epochs e he party
      omega
    · intro _
      exact Nat.zero_le _
  · exact List.nodup_cons.mpr ⟨new, inv.makers⟩
  · intro e he
    exact ⟨(inv.keys e he).1, moreMade (inv.keys e he).2⟩

theorem save_inv (inv : Inv sodium sign s) {p : Party} (started : (s.side p).epoch ≠ 0)
    (path : String) : Inv sodium sign (s.save p path) := by
  have mine := inv.sides p
  refine setSide_inv inv (mine.replace ?_ mine.owns rfl id rfl rfl)
  intro other kp member
  rcases AssocTable.mem_set member with old | ⟨-, rfl⟩
  · exact mine.files other kp old
  · exact mine.owns started

theorem load_inv (inv : Inv sodium sign s) (p : Party) (path : String) :
    Inv sodium sign (s.load p path) := by
  have mine := inv.sides p
  have loaded : ∀ conn, (e2eeConnLoadKeypair (s.side p).conn (s.side p).files path).2 = conn →
      SideInv sodium sign s.made s.derived s.log p { s.side p with conn := conn } := by
    rintro conn rfl
    simp only [e2eeConnLoadKeypair]
    split
    · exact mine
    next kp file =>
      exact mine.replace mine.files (fun _ => mine.files path kp (AssocTable.get_eq_some.mp file))
        rfl
        id rfl rfl
  exact setSide_inv inv (loaded _ rfl)

theorem upd_eq (s : Sessions) (p : Party) (path : String) :
    s.upd p path = s.load p path ∨ s.upd p path = s.save p path := by
  cases file : (s.side p).files.get path with
  | some kp => exact .inl (by simp [upd, load, e2eeConnUpdKeypair, file])
  | none => exact .inr (by simp [upd, save, e2eeConnUpdKeypair, file])

theorem handshakeInit_inv (inv : Inv sodium sign s) (p : Party) (nonce : UInt32) :
    Inv sodium sign (s.handshakeInit sodium p nonce) := by
  have mine := inv.sides p
  refine setSide_inv inv (mine.replace mine.files mine.owns rfl ?_ rfl rfl)
  intro ended
  cases ended

theorem decrypt_inv (inv : Inv sodium sign s) (p : Party) (inpbuf : List UInt8) :
    Inv sodium sign (s.decrypt sodium p inpbuf) := by
  have mine := inv.sides p
  refine setSide_inv inv ?_
  obtain ⟨_, -, -, eq⟩ | eq := @e2eeDecrypt_cases sodium (s.side p).conn inpbuf
  · rw [eq]
    exact mine.replace mine.files mine.owns rfl id rfl rfl
  · rw [eq]
    exact mine

/-- The pair of a finished handshake is new in this epoch or was loaded, and a loaded one is
    unused with this peer key by the condition. -/
theorem handshakeResp_inv (inv : Inv sodium sign s) {p : Party} (started : (s.side p).epoch ≠ 0)
    {hs : E2eeHandshake} (ok : LoadsNoUsedPair sodium s (.handshakeResp p hs)) :
    Inv sodium sign (s.handshakeResp sodium p hs) := by
  have mine := inv.sides p
  obtain ⟨skeys, good, -, eq⟩ | eq := @e2eeConnHandshakeResp_cases sodium (s.side p).conn hs
  · have moreDerived := List.subset_cons_self
      (⟨(s.side p).conn.hsAs, (s.side p).conn.kp.publicKey, hs.x25519Pubkey, skeys.tx⟩ : Derived)
        s.derived
    -- a fresh key pair has derived nothing before, and of a loaded one it is the condition
    have unused : Unused s.log p (s.side p).epoch (s.side p).conn.kp.publicKey hs.x25519Pubkey := by
      by_cases own : (s.side p).conn.kp = (s.side p).fresh
      · rw [own]
        exact mine.fresh started hs.x25519Pubkey
      · exact ok own good
    simp only [handshakeResp, eq]
    refine ⟨Party.forall_update (P := SideInv sodium sign s.made (_ :: s.derived) s.log)
      (fun q => (inv.sides q).mono (List.Subset.refl _) moreDerived) ?_, inv.makers, ?_, inv.unique⟩
    · refine ⟨mine.files, mine.epochs, mine.owns, mine.hsAs, mine.fresh, ?_, mine.counted,
        mine.txNonce⟩
      intro _ _
      rw [← mine.hsAs started]
      exact ⟨List.mem_cons_self, mine.owns started, unused⟩
    · intro e he
      exact ⟨moreDerived (inv.keys e he).1, (inv.keys e he).2⟩
  · have same : s.handshakeResp sodium p hs = s.setSide p (s.side p) := by
      simp [handshakeResp, eq]
    rw [same]
    exact setSide_inv inv mine

/-- The key and the counter of an encryption differ from those of every one before it. -/
theorem encryption_new (inv : Inv sodium sign s) (bounded : Bounded s) {p : Party}
    (started : (s.side p).epoch ≠ 0) (ended : (s.side p).conn.hstate = .handshakeEnded)
    {e : Encryption} (he : e ∈ s.log) (key : e.key = (s.side p).conn.skeys.tx) :
    e.nonce ≠ (s.side p).conn.txNonce := by
  have mine := inv.sides p
  obtain ⟨keys, own, unused⟩ := mine.ended started ended
  obtain ⟨keysBefore, ownBefore⟩ := inv.keys e he
  have same := bounded.collisionFree _ keysBefore _ keys key
  obtain ⟨-, sameOwn, samePeer, -⟩ := Derived.mk.inj same
  -- the pair tells who made it, so the earlier encryption is by the same side
  have party : e.party = p := by
    rw [sameOwn] at ownBefore
    exact congrArg Prod.fst (List.inj_on_of_nodup_map inv.makers ownBefore own rfl)
  cases Nat.lt_or_ge e.epoch (s.side p).epoch with
  | inl earlier => exact absurd ⟨sameOwn, samePeer⟩ (unused e he party earlier)
  | inr now =>
    -- in the same epoch the counter has moved on
    have below := mine.counted started e he party (Nat.le_antisymm (mine.epochs e he party) now)
    intro equal
    rw [equal] at below
    exact Nat.lt_irrefl _ below

theorem encrypt_inv (inv : Inv sodium sign s) {p : Party} (started : (s.side p).epoch ≠ 0)
    {data : List UInt8} (bounded : Bounded (s.encrypt sodium p data)) :
    Inv sodium sign (s.encrypt sodium p data) := by
  have mine := inv.sides p
  obtain ⟨ciphered, ended, -, eq⟩ | eq := @e2eeEncrypt_cases sodium (s.side p).conn data
  · simp only [encrypt, eq] at bounded ⊢
    have length := bounded.few
    simp only [List.length_append, List.length_singleton] at length
    have before : Bounded s := ⟨Nat.lt_of_succ_lt length, bounded.collisionFree⟩
    obtain ⟨keys, own, -⟩ := mine.ended started ended
    refine ⟨?_, inv.makers, ?_, ?_⟩
    · intro q
      by_cases same : q = p
      · subst same
        show SideInv sodium sign s.made s.derived (s.log ++ _) q (Function.update s.side q _ q)
        rw [Function.update_self]
        -- the side that encrypts puts its counter up, the other has no part in it
        exact mine.own_encrypts started ended rfl rfl length
      · show SideInv sodium sign s.made s.derived (s.log ++ _) q (Function.update s.side p _ q)
        rw [Function.update_of_ne same]
        exact (inv.sides q).other_encrypts (Ne.symm same)
    · exact List.forall_mem_append.mpr ⟨inv.keys, List.forall_mem_singleton.mpr ⟨keys, own⟩⟩
    · refine List.pairwise_append.mpr ⟨inv.unique, List.pairwise_singleton _ _, ?_⟩
      intro e he e' he' key
      obtain rfl := List.mem_singleton.mp he'
      -- an earlier one under the same key and counter would be of this side and this epoch
      exact encryption_new inv before started ended he key
  · simp only [encrypt, eq]
    exact setSide_inv inv mine

theorem step_inv {s s' : Sessions} {a : SessionsAction} (inv : Inv sodium sign s)
    (ok : LoadsNoUsedPair sodium s a) (bounded : Bounded s') (h : step sodium sign s a = some s') :
    Inv sodium sign s' := by
  cases a with
  | init p kp =>
    simp only [step, Option.ite_none_left_eq_some, Option.some.injEq] at h
    obtain ⟨new, rfl⟩ := h
    exact init_inv inv new
  | save p path =>
    simp only [step, Option.ite_none_left_eq_some, Option.some.injEq] at h
    obtain ⟨started, rfl⟩ := h
    exact save_inv inv started path
  | load p path =>
    simp only [step, Option.ite_none_left_eq_some, Option.some.injEq] at h
    obtain ⟨-, rfl⟩ := h
    exact load_inv inv p path
  | upd p path =>
    simp only [step, Option.ite_none_left_eq_some, Option.some.injEq] at h
    obtain ⟨started, rfl⟩ := h
    -- `upd` is a load where the file is there, and a save where it is not
    obtain eq | eq := upd_eq s p path
    · rw [eq]; exact load_inv inv p path
    · rw [eq]; exact save_inv inv started path
  | handshakeInit p nonce =>
    simp only [step, Option.ite_none_left_eq_some, Option.some.injEq] at h
    obtain ⟨-, rfl⟩ := h
    exact handshakeInit_inv inv p nonce
  | handshakeResp p hs =>
    simp only [step, Option.ite_none_left_eq_some, Option.some.injEq] at h
    obtain ⟨started, rfl⟩ := h
    exact handshakeResp_inv inv started ok
  | encrypt p data =>
    simp only [step, Option.ite_none_left_eq_some, Option.some.injEq] at h
    obtain ⟨started, rfl⟩ := h
    exact encrypt_inv inv started bounded
  | decrypt p inpbuf =>
    simp only [step, Option.ite_none_left_eq_some, Option.some.injEq] at h
    obtain ⟨-, rfl⟩ := h
    exact decrypt_inv inv p inpbuf

theorem handshakeResp_grows (s : Sessions) (p : Party) (hs : E2eeHandshake) :
    (s.handshakeResp sodium p hs).log = s.log ∧
      s.derived ⊆ (s.handshakeResp sodium p hs).derived := by
  obtain ⟨_, -, -, eq⟩ | eq := @e2eeConnHandshakeResp_cases sodium (s.side p).conn hs
  · simp only [handshakeResp, eq]
    exact ⟨rfl, List.subset_cons_self _ _⟩
  · have same : s.handshakeResp sodium p hs = s.setSide p (s.side p) := by
      simp [handshakeResp, eq]
    rw [same]
    exact ⟨rfl, List.Subset.refl _⟩

theorem encrypt_grows (s : Sessions) (p : Party) (data : List UInt8) :
    s.log.length ≤ (s.encrypt sodium p data).log.length ∧
      (s.encrypt sodium p data).derived = s.derived := by
  obtain ⟨_, -, -, eq⟩ | eq := @e2eeEncrypt_cases sodium (s.side p).conn data
  · simp only [encrypt, eq]
    exact ⟨by simp, rfl⟩
  · simp only [encrypt, eq]
    exact ⟨Nat.le_refl _, rfl⟩

theorem step_grows {s s' : Sessions} {a : SessionsAction} (h : step sodium sign s a = some s') :
    s.log.length ≤ s'.log.length ∧ s.derived ⊆ s'.derived := by
  cases a with
  | handshakeResp p hs =>
    simp only [step, Option.ite_none_left_eq_some, Option.some.injEq] at h
    obtain ⟨-, rfl⟩ := h
    obtain ⟨log, derived⟩ := @handshakeResp_grows sodium s p hs
    exact ⟨Nat.le_of_eq (congrArg List.length log.symm), derived⟩
  | encrypt p data =>
    simp only [step, Option.ite_none_left_eq_some, Option.some.injEq] at h
    obtain ⟨-, rfl⟩ := h
    obtain ⟨log, derived⟩ := @encrypt_grows sodium s p data
    exact ⟨log, derived ▸ List.Subset.refl _⟩
  | _ =>
    -- every other call leaves both as they are
    simp only [step, Option.ite_none_left_eq_some, Option.some.injEq] at h
    obtain ⟨-, rfl⟩ := h
    exact ⟨Nat.le_refl _, List.Subset.refl _⟩

theorem bounded_antitone {s s' : Sessions} {a : SessionsAction} (h : step sodium sign s a = some s')
    (bounded : Bounded s') : Bounded s := by
  obtain ⟨log, derived⟩ := step_grows h
  refine ⟨Nat.lt_of_le_of_lt log bounded.few, ?_⟩
  intro d hd d' hd'
  exact bounded.collisionFree d (derived hd) d' (derived hd')

/-- In every run in which no pair from a file finishes a handshake with a peer key it has
    already encrypted for in an earlier epoch, no key and nonce serve two plaintexts. -/
theorem nonces_not_reused (sodium : Sodium) (sign : Party → Sign) (memory : Party → E2eeConnection)
    (as : List SessionsAction) (s : Sessions)
    (reached : run (step sodium sign) (start memory) as = some s) (few : s.log.length < 2 ^ 64)
    (collisionFree : CollisionFree s.derived)
    (ok : Meets (step sodium sign) (LoadsNoUsedPair sodium) (start memory) as) : NoReuse s.log := by
  have inv : Inv sodium sign s := run_invariant_guarded (fun _ _ _ => bounded_antitone)
    (fun _ _ _ => step_inv) (start_inv memory) ok reached ⟨few, collisionFree⟩
  apply inv.unique.imp
  intro x y differ key nonce
  exact absurd nonce (differ key)

/-! ## Two sessions with the stand-in -/

def toyIdentity : Party → Sign
  | .alice => toySign 1
  | .bob => toySign 2

def bobsMessage (b : UInt8) : E2eeHandshake :=
  (e2eeConnHandshakeInit toySodium
    { blankConnection with stSignature := toyIdentity .bob, kp := toyKeypair b } 0).2

/-- The first session: both save their pairs and shake hands, and Alice encrypts. -/
def firstSession : List SessionsAction :=
  [.init .alice (toyKeypair 1), .upd .alice "alice.key", .init .bob (toyKeypair 2),
    .upd .bob "bob.key", .handshakeInit .alice 0, .handshakeInit .bob 0,
    .handshakeResp .alice (bobsMessage 2), .encrypt .alice [7]]

/-- In the next session Alice loads her pair again, and Bob keeps his new one. -/
def newPeerPair : List SessionsAction :=
  firstSession ++ [.init .alice (toyKeypair 3), .upd .alice "alice.key", .init .bob (toyKeypair 4),
    .handshakeInit .alice 0, .handshakeInit .bob 0, .handshakeResp .alice (bobsMessage 4),
    .encrypt .alice [8]]

/-- The same, but Bob loads his pair too. -/
def oldPeerPair : List SessionsAction :=
  firstSession ++ [.init .alice (toyKeypair 3), .upd .alice "alice.key", .init .bob (toyKeypair 4),
    .upd .bob "bob.key", .handshakeInit .alice 0, .handshakeInit .bob 0,
    .handshakeResp .alice (bobsMessage 2), .encrypt .alice [8]]

theorem nonces_not_reused_newPeerPair :
    ∃ s, run (step toySodium toyIdentity) (start fun _ => blankConnection) newPeerPair = some s ∧
      s.log.length = 2 ∧ NoReuse s.log := by
  refine ⟨_, rfl, by decide +kernel, ?_⟩
  apply nonces_not_reused toySodium toyIdentity (fun _ => blankConnection) newPeerPair
  · rfl
  · decide +kernel
  · decide +kernel
  · decide +kernel

/-- Both encryptions are under one key and the nonce 0. -/
theorem nonce_reused :
    ∃ s, run (step toySodium toyIdentity) (start fun _ => blankConnection) oldPeerPair = some s ∧
      CollisionFree s.derived ∧ s.log.map (fun e => (e.nonce, e.data)) = [(0, [7]), (0, [8])] ∧
      ¬ NoReuse s.log := by
  refine ⟨_, rfl, by decide +kernel, by decide +kernel, ?_⟩
  intro noReuse
  exact absurd noReuse (by unfold NoReuse; decide +kernel)

end Sessions

end Soter2.E2ee
