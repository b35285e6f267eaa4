import Mathlib.Data.List.Basic
import Mathlib.Tactic.Common
import Soter2.Peers.Db
import Soter2.Protocol.Packet

/-! # The handlers that write peer records (`interface/src/handlers.c`)

A handler is called with the packet and the socket address it came from.  It returns its
code, the database after it, and what it gave to `pvd_sender_send`.

* `handler_frame_iff` — when a packet leaves the records of all but its sender alone.
* `rejected_traceless_iff` — when a packet that is rejected leaves all records alone.
-/

namespace Soter2.Peers

open Soter2.Lownet Soter2.Protocol
open Soter2.E2ee (Bytes)

/-- What the handlers read of `app_context`, with the clock. -/
structure AppContext where
  selfUid : UInt32
  inet : Inet
  now : UInt32

structure Handled where
  code : Int
  db : PeersDb
  sent : List (Option Protopack × NnetFd)

abbrev Handler := AppContext → PeersDb → Protopack → NnetFd → Handled

def soter2HndAck : Handler := fun ctx db pck _ =>
  match peersDbGet db pck.hFrom with
  | none => ⟨-1, db, []⟩
  | some info =>
    { code := 0
      db := peersDbSchange db info.uid .active
      sent := if info.state = .inited then [(protoMsgQuick ctx.selfUid info.uid 0 .ack, info.nfd)]
        else [] }

/-- The part of `soter2_hnd_PUNCH` behind the look-up, with the record it found or made. -/
def punchKnown (ctx : AppContext) (db : PeersDb) (info : PeerInfo) (nfd : NnetFd) : Handled :=
  let db := peersDbUnfd db info.uid nfd
  if info.state ≠ .inited ∧ info.state ≠ .natpunching then ⟨-1, db, []⟩
  else
    { code := 0
      db := if info.state = .natpunching then db else peersDbSchange db info.uid .natpunching
      sent := [(protoMsgQuick ctx.selfUid info.uid 0 .ack, nfd)] }

def soter2HndPunch : Handler := fun ctx db pck nfd =>
  if pck.hFrom = ctx.selfUid then ⟨-1, db, []⟩
  else
    match peersDbGet db pck.hFrom with
    | some info => punchKnown ctx db info nfd
    | none =>
      -- a peer that is not known is added under the UID that its payload names
      if pck.dSize.toNat ≠ LightPeerInfo.layout.size then ⟨-1, db, []⟩
      else
        let info := peersDbReconstruct ctx.inet ctx.now (LightPeerInfo.layout.ofImage pck.data)
        punchKnown ctx (peersDbAdd db info) info nfd

def soter2HndPing : Handler := fun ctx db pck nfd =>
  { code := 0
    db := peersDbUtime db pck.hFrom ctx.now
    sent := [(protoMsgQuick ctx.selfUid pck.hFrom pck.seq .pong, nfd)] }

def soter2HndPong : Handler := fun ctx db pck _ => ⟨0, peersDbUtime db pck.hFrom ctx.now, []⟩

def soter2HndHello : Handler := fun ctx db pck nfd =>
  if pck.dSize.toNat ≠ LightPeerInfo.layout.size then ⟨-1, db, []⟩
  else
    let info := peersDbReconstruct ctx.inet ctx.now (LightPeerInfo.layout.ofImage pck.data)
    { code := 0
      db := peersDbAdd db { info with state := .active }
      sent := [(protoMsgQuick ctx.selfUid pck.hFrom 0 .hello2, nfd)] }

def soter2HndHello2 : Handler := fun _ db pck _ =>
  match peersDbGet db pck.hFrom with
  | none => ⟨-1, db, []⟩
  | some _ => ⟨0, peersDbSchange db pck.hFrom .active, []⟩

/-- The packet types whose handlers write peer records. -/
inductive PeerPacket where
  | ack
  | punch
  | ping
  | pong
  | hello
  | hello2
deriving DecidableEq, Repr

/-- The handler that `soter2_intr_init` registers for a type. -/
def PeerPacket.handler : PeerPacket → Handler
  | .ack => soter2HndAck
  | .punch => soter2HndPunch
  | .ping => soter2HndPing
  | .pong => soter2HndPong
  | .hello => soter2HndHello
  | .hello2 => soter2HndHello2

/-! ## Frames -/

variable {ctx : AppContext} {db : PeersDb} {pck : Protopack} {nfd : NnetFd} {info : PeerInfo}
    {w : UInt32}

/-- Every record but that of `uid` is as it was. -/
def Frame (uid : UInt32) (db db' : PeersDb) : Prop := ∀ w ≠ uid, peersDbGet db' w = peersDbGet db w

theorem Frame.refl (uid : UInt32) (db : PeersDb) : Frame uid db db := fun _ _ => rfl

theorem Frame.trans {uid : UInt32} {db db' db'' : PeersDb} (h : Frame uid db db')
    (h' : Frame uid db' db'') :
    Frame uid db db'' := fun w other => (h' w other).trans (h w other)

theorem add_frame (db : PeersDb) (info : PeerInfo) : Frame info.uid db (peersDbAdd db info) :=
  fun _ other => get_peersDbAdd_ne db info other

theorem schange_frame (db : PeersDb) (uid : UInt32) (newState : PeerState) :
    Frame uid db (peersDbSchange db uid newState) := fun _ other => get_modify_ne _ _ other

theorem unfd_frame (db : PeersDb) (uid : UInt32) (nfd : NnetFd) :
    Frame uid db (peersDbUnfd db uid nfd) :=
  fun _ other => get_modify_ne _ _ other

theorem utime_frame (db : PeersDb) (uid now : UInt32) : Frame uid db (peersDbUtime db uid now) :=
  fun _ other => get_modify_ne _ _ other

theorem ack_frame (ctx : AppContext) (nfd : NnetFd) :
    Frame pck.hFrom db (soter2HndAck ctx db pck nfd).db := by
  rw [soter2HndAck]
  split
  · exact Frame.refl _ _
  next info found =>
    rw [uid_of_get found]
    exact schange_frame _ _ _

theorem hello2_frame (ctx : AppContext) (nfd : NnetFd) :
    Frame pck.hFrom db (soter2HndHello2 ctx db pck nfd).db := by
  rw [soter2HndHello2]
  split
  · exact Frame.refl _ _
  · exact schange_frame _ _ _

theorem punchKnown_frame : Frame info.uid db (punchKnown ctx db info nfd).db := by
  have readdressed := unfd_frame db info.uid nfd
  rw [punchKnown]
  split
  · exact readdressed
  · dsimp only
    split
    · exact readdressed
    · exact readdressed.trans (schange_frame _ _ _)

theorem punchKnown_inited (inited : info.state = .inited) :
    punchKnown ctx db info nfd = {
      code := 0
      db := peersDbSchange (peersDbUnfd db info.uid nfd) info.uid .natpunching
      sent := [(protoMsgQuick ctx.selfUid info.uid 0 .ack, nfd)] } := by
  simp [punchKnown, inited]

/-! ## The record a packet acts on -/

/-- The peer that the payload describes. -/
def embeddedInfo (ctx : AppContext) (pck : Protopack) : PeerInfo :=
  peersDbReconstruct ctx.inet ctx.now (LightPeerInfo.layout.ofImage pck.data)

theorem soter2HndPunch_known (notSelf : pck.hFrom ≠ ctx.selfUid)
    (known : peersDbGet db pck.hFrom = some info) :
    soter2HndPunch ctx db pck nfd = punchKnown ctx db info nfd := by
  simp only [soter2HndPunch, if_neg notSelf, known]

/-- The peer of a PUNCH is not known, and the PUNCH is one that adds it. -/
def Introduces (ctx : AppContext) (db : PeersDb) (pck : Protopack) : Prop :=
  pck.hFrom ≠ ctx.selfUid ∧ peersDbGet db pck.hFrom = none ∧
    pck.dSize.toNat = LightPeerInfo.layout.size

instance : Decidable (Introduces ctx db pck) := inferInstanceAs (Decidable (_ ∧ _))

theorem soter2HndPunch_introduces (h : Introduces ctx db pck) :
    soter2HndPunch ctx db pck nfd
      = punchKnown ctx (peersDbAdd db (embeddedInfo ctx pck)) (embeddedInfo ctx pck) nfd := by
  obtain ⟨notSelf, unknown, size⟩ := h
  simp only [soter2HndPunch, if_neg notSelf, unknown, size, ne_eq, not_true, if_false, embeddedInfo]

/-- A PUNCH adds a peer, or is handled for a known one, or is dropped. -/
theorem soter2HndPunch_cases (ctx : AppContext) (db : PeersDb) (pck : Protopack) (nfd : NnetFd) :
    Introduces ctx db pck ∨ ¬ Introduces ctx db pck ∧
      ((∃ info, peersDbGet db pck.hFrom = some info ∧
        soter2HndPunch ctx db pck nfd = punchKnown ctx db info nfd) ∨
        soter2HndPunch ctx db pck nfd = ⟨-1, db, []⟩) := by
  by_cases introduces : Introduces ctx db pck
  · exact .inl introduces
  · refine .inr ⟨introduces, ?_⟩
    by_cases notSelf : pck.hFrom = ctx.selfUid
    · exact .inr (if_pos notSelf)
    · cases found : peersDbGet db pck.hFrom with
      | some info => exact .inl ⟨info, rfl, soter2HndPunch_known notSelf found⟩
      | none =>
        have size : pck.dSize.toNat ≠ LightPeerInfo.layout.size :=
          fun size => introduces ⟨notSelf, found, size⟩
        exact .inr (by simp only [soter2HndPunch, if_neg notSelf, found, if_pos size])

/-- A packet acts on the record of its sender: where the handler takes the UID from the
    payload, it is the sender's, or the record there is already what the handler writes. -/
def ActsOnSender (ctx : AppContext) (db : PeersDb) (pck : Protopack) (nfd : NnetFd) :
    PeerPacket → Prop
  | .punch => Introduces ctx db pck →
      (embeddedInfo ctx pck).uid = pck.hFrom ∨ peersDbGet db (embeddedInfo ctx pck).uid
        = some { embeddedInfo ctx pck with nfd := nfd, state := .natpunching }
  | .hello => pck.dSize.toNat = LightPeerInfo.layout.size →
      (embeddedInfo ctx pck).uid = pck.hFrom ∨ peersDbGet db (embeddedInfo ctx pck).uid
        = some { embeddedInfo ctx pck with state := .active }
  | _ => True

/-- A handler that writes one record keeps the others exactly when that is the record of the
    sender, or it writes what is there. -/
theorem frame_iff_of_write {db' : PeersDb} {written : PeerInfo} {key uid : UInt32}
    (writes : Frame key db db') (value : peersDbGet db' key = some written) :
    Frame uid db db' ↔ key = uid ∨ peersDbGet db key = some written := by
  constructor
  · intro frame
    by_cases own : key = uid
    · exact .inl own
    · exact .inr (by rw [← frame _ own, value])
  · rintro (rfl | same)
    · exact writes
    · intro w _
      by_cases there : w = key
      · rw [there, value, same]
      · exact writes w there

theorem punch_introduces_frame_iff (h : Introduces ctx db pck) :
    Frame pck.hFrom db (soter2HndPunch ctx db pck nfd).db ↔
      (embeddedInfo ctx pck).uid = pck.hFrom ∨ peersDbGet db (embeddedInfo ctx pck).uid
        = some { embeddedInfo ctx pck with nfd := nfd, state := .natpunching } := by
  have inited : (embeddedInfo ctx pck).state = .inited := rfl
  rw [soter2HndPunch_introduces h]
  generalize embeddedInfo ctx pck = info at inited
  have value : peersDbGet (punchKnown ctx (peersDbAdd db info) info nfd).db info.uid
      = some { info with nfd := nfd, state := .natpunching } := by
    rw [punchKnown_inited inited, peersDbSchange, get_modify_self, peersDbUnfd, get_modify_self,
      get_peersDbAdd_self]
    rfl
  exact frame_iff_of_write ((add_frame db info).trans punchKnown_frame) value

theorem punch_frame_iff :
    Frame pck.hFrom db (soter2HndPunch ctx db pck nfd).db ↔ ActsOnSender ctx db pck nfd .punch := by
  obtain introduces | ⟨known, ⟨info, found, handled⟩ | dropped⟩ :=
    soter2HndPunch_cases ctx db pck nfd
  · rw [punch_introduces_frame_iff introduces]
    exact ⟨fun h _ => h, fun h => h introduces⟩
  · refine iff_of_true ?_ fun introduces => absurd introduces known
    rw [handled, ← uid_of_get found]
    exact punchKnown_frame
  · refine iff_of_true ?_ fun introduces => absurd introduces known
    rw [dropped]
    exact Frame.refl _ _

theorem hello_frame_iff :
    Frame pck.hFrom db (soter2HndHello ctx db pck nfd).db ↔ ActsOnSender ctx db pck nfd .hello := by
  by_cases size : pck.dSize.toNat = LightPeerInfo.layout.size
  · simp only [soter2HndHello, size, ne_eq, not_true, if_false, ActsOnSender, forall_const]
    exact frame_iff_of_write (add_frame db { embeddedInfo ctx pck with state := .active })
      (get_peersDbAdd_self db { embeddedInfo ctx pck with state := .active })
  · simp [ActsOnSender, soter2HndHello, size, Frame.refl]

/-- The handler of a packet leaves the records of all but the sender alone exactly when the
    packet acts on the record of its sender. -/
theorem handler_frame_iff (ctx : AppContext) (db : PeersDb) (pck : Protopack) (nfd : NnetFd)
    (type : PeerPacket) :
    Frame pck.hFrom db (type.handler ctx db pck nfd).db ↔ ActsOnSender ctx db pck nfd type := by
  cases type with
  | ack => exact iff_of_true (ack_frame ctx nfd) trivial
  | punch => exact punch_frame_iff
  | ping => exact iff_of_true (utime_frame _ _ _) trivial
  | pong => exact iff_of_true (utime_frame _ _ _) trivial
  | hello => exact hello_frame_iff
  | hello2 => exact iff_of_true (hello2_frame ctx nfd) trivial

/-- A peer with a key of one byte, as it describes itself. -/
def sampleLinfo (uid : UInt32) (b : UInt8) : LightPeerInfo where
  uid := uid
  server := Naddr.zero
  addr := (Address.ipv4 sampleText 80).naddr
  pubkey := Vector.replicate 32 b

def sampleContext : AppContext := ⟨1, sampleInet, 0⟩

/-- A PUNCH of the unknown peer 7 whose payload describes peer 9. -/
def foreignPunch : Protopack where
  seq := 0
  chsum := 0
  dSize := 140
  hFrom := 7
  hTo := 1
  packtype := ProtopackType.punch.code
  data := LightPeerInfo.layout.image (sampleLinfo 9 5)

/-- A database with an active peer 9. -/
def sampleDb : PeersDb :=
  peersDbAdd PeersDb.empty
    { peersDbReconstruct sampleInet 0 (sampleLinfo 9 3) with state := .active }

/-- The PUNCH of peer 7 gives peer 9 another key, another address and another state. -/
theorem punch_rewrites_other :
    ¬ Frame foreignPunch.hFrom sampleDb
      (PeerPacket.punch.handler sampleContext sampleDb foreignPunch ⟨3, .unspec, 0⟩).db := by
  intro frame
  exact absurd (frame 9 (by decide)) (by decide +kernel)

/-! ## Rejected packets -/

/-- No record was added, removed or changed. -/
def Traceless (db db' : PeersDb) : Prop := ∀ w, peersDbGet db' w = peersDbGet db w

/-- A PUNCH of a known peer that is past punching comes from the address in its record. -/
def KeepsAddress (ctx : AppContext) (db : PeersDb) (pck : Protopack) (nfd : NnetFd) :
    PeerPacket → Prop
  | .punch => pck.hFrom ≠ ctx.selfUid → ∀ info, peersDbGet db pck.hFrom = some info →
      info.state ≠ .inited → info.state ≠ .natpunching → info.nfd = nfd
  | _ => True

theorem unfd_traceless_iff (known : peersDbGet db info.uid = some info) :
    Traceless db (peersDbUnfd db info.uid nfd) ↔ info.nfd = nfd := by
  have written : peersDbGet (peersDbUnfd db info.uid nfd) info.uid
      = some { info with nfd := nfd } := by
    rw [peersDbUnfd, get_modify_self, known]
    rfl
  constructor
  · intro same
    have unchanged := same info.uid
    rw [written, known, Option.some.injEq] at unchanged
    exact (congrArg PeerInfo.nfd unchanged).symm
  · rintro rfl w
    by_cases own : w = info.uid
    · rw [own, written, known]
    · exact unfd_frame db info.uid info.nfd w own

theorem accepted_ne : (0 : Int) ≠ -1 := by decide

/-- The record that a PUNCH adds is in its first state, so that PUNCH is not rejected. -/
theorem punchKnown_code (ctx : AppContext) (db : PeersDb) (info : PeerInfo) (nfd : NnetFd) :
    (punchKnown ctx db info nfd).code = -1 ↔ info.state ≠ .inited ∧ info.state ≠ .natpunching := by
  rw [punchKnown]
  split
  next late => exact iff_of_true rfl late
  next early => exact iff_of_false accepted_ne early

theorem punch_traceless_iff :
    ((soter2HndPunch ctx db pck nfd).code = -1 → Traceless db (soter2HndPunch ctx db pck nfd).db) ↔
      KeepsAddress ctx db pck nfd .punch := by
  by_cases self : pck.hFrom = ctx.selfUid
  · simp [soter2HndPunch, KeepsAddress, self, Traceless]
  cases found : peersDbGet db pck.hFrom with
  | none =>
    -- nothing is stored of a stranger whose PUNCH is rejected
    have keeps : KeepsAddress ctx db pck nfd .punch := by simp [KeepsAddress, found]
    refine iff_of_true (fun rejected => ?_) keeps
    by_cases introduces : Introduces ctx db pck
    · rw [soter2HndPunch_introduces introduces, punchKnown_code] at rejected
      exact absurd rfl rejected.1
    · obtain added | ⟨-, ⟨info, known, -⟩ | dropped⟩ := soter2HndPunch_cases ctx db pck nfd
      · exact absurd added introduces
      · rw [found] at known
        cases known
      · rw [dropped]
        exact fun _ => rfl
  | some info =>
    have uid := uid_of_get found
    rw [soter2HndPunch_known self found, punchKnown_code]
    have keeps : KeepsAddress ctx db pck nfd .punch ↔
        (info.state ≠ .inited ∧ info.state ≠ .natpunching → info.nfd = nfd) := by
      simp [KeepsAddress, self, found]
    rw [keeps]
    -- the address is written in front of the test of the state
    refine imp_congr_right fun late => ?_
    rw [punchKnown, if_pos late]
    exact unfd_traceless_iff (uid.symm ▸ found)

/-- A packet that is rejected leaves every record as it was, exactly if it is not a PUNCH
    that is rejected for the state of its peer and comes from another address. -/
theorem rejected_traceless_iff (ctx : AppContext) (db : PeersDb) (pck : Protopack) (nfd : NnetFd)
    (type : PeerPacket) :
    ((type.handler ctx db pck nfd).code = -1 → Traceless db (type.handler ctx db pck nfd).db) ↔
      KeepsAddress ctx db pck nfd type := by
  cases type with
  | punch => exact punch_traceless_iff
  | ack =>
    -- the other handlers test all there is to test before they write
    refine iff_of_true (fun rejected => ?_) trivial
    simp only [PeerPacket.handler, soter2HndAck] at rejected ⊢
    split at rejected
    · exact fun _ => rfl
    · exact absurd rejected accepted_ne
  | hello =>
    refine iff_of_true (fun rejected => ?_) trivial
    simp only [PeerPacket.handler, soter2HndHello] at rejected ⊢
    split at rejected
    next wrong => rw [if_pos wrong]; exact fun _ => rfl
    next => exact absurd rejected accepted_ne
  | hello2 =>
    refine iff_of_true (fun rejected => ?_) trivial
    simp only [PeerPacket.handler, soter2HndHello2] at rejected ⊢
    split at rejected
    · exact fun _ => rfl
    · exact absurd rejected accepted_ne
  | ping | pong => exact iff_of_true (fun rejected => absurd rejected accepted_ne) trivial

/-- A PUNCH in the name of the active peer 9, from another address. -/
def latePunch : Protopack := { foreignPunch with hFrom := 9 }

/-- It is rejected, and the packets for peer 9 go to that address from then on. -/
theorem rejected_punch_moves_peer :
    (soter2HndPunch sampleContext sampleDb latePunch ⟨3, .unspec, 0⟩).code = -1 ∧
      ((peersDbGet sampleDb 9).map (·.nfd) ≠ some ⟨3, .unspec, 0⟩) ∧
      ((peersDbGet (soter2HndPunch sampleContext sampleDb latePunch ⟨3, .unspec, 0⟩).db 9).map
        (·.nfd) =
        some ⟨3, .unspec, 0⟩) ∧
      ¬ Traceless sampleDb (soter2HndPunch sampleContext sampleDb latePunch
        ⟨3, .unspec, 0⟩).db := by
  have moved : (peersDbGet (soter2HndPunch sampleContext sampleDb latePunch ⟨3, .unspec, 0⟩).db
      9).map (·.nfd) =
      some ⟨3, .unspec, 0⟩ := by decide +kernel
  have before : (peersDbGet sampleDb 9).map (·.nfd) ≠ some ⟨3, .unspec, 0⟩ := by decide +kernel
  refine ⟨by decide +kernel, before, moved, fun same => before ?_⟩
  rw [← same 9, moved]

end Soter2.Peers
