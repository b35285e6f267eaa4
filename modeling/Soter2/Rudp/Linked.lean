import Mathlib.Data.List.Basic
import Mathlib.Tactic.Common
import Soter2.Protocol.Wire
import Soter2.Rudp.Session

/-! # A connection that sends and receives

Both halves of a connection at once.  `Linked` says what one end of a link knows of the
payloads accepted at either end; every operation keeps it, and what an operation sends is
something that the other end can take.
-/

namespace Soter2.Rudp

open Protocol
open scoped List

/-- The sender thread makes a datagram of the packet. -/
def Transmissible (p : Protopack) : Prop := p.Sized ∧ sizeofProtopack + p.dSize.toNat ≤ udpMtu

theorem transmissible_of_made {sequenceN hashFrom hashTo : UInt32} {type : ProtopackType}
    {bytes : List UInt8} {pk : Protopack}
    (made : udpMakePack sequenceN hashFrom hashTo type (some bytes) bytes.length = some pk) :
    Transmissible pk := by
  obtain ⟨fits, rfl⟩ := udpMakePack_eq_some.mp made
  have size := toNat_ofNat_fits fits
  exact ⟨size.symm, show _ + (UInt32.ofNat bytes.length).toNat ≤ _ from size.symm ▸ fits⟩

/-- One end of a link.  `sentOut` was accepted here and `sentIn` at the other end, `taken` was
    popped here, and the other end has appended `acked` packets. -/
structure Linked (uid peer : UInt32) (sentOut sentIn : List (List UInt8)) (taken : List Protopack)
    (acked : Nat) (conn : RudpConnection) : Prop where
  sUid : conn.sUid = uid
  cUid : conn.cUid = peer
  sender : ∃ racks capped, SenderInv sentOut racks capped conn ∧ firstUnacked racks ≤ acked
  receiver : ReceivesGenuine sentIn taken conn
  pending : ∀ ppkt ∈ conn.pktsFhost, Transmissible ppkt.copyPack ∧ ppkt.copyPack.hFrom = uid

theorem ReceivesGenuine.congr {sent : List (List UInt8)} {taken : List Protopack}
    {conn conn' : RudpConnection} (h : ReceivesGenuine sent taken conn)
    (buffer : conn'.pktsReorderBuf = conn.pktsReorderBuf) (net : conn'.pktsNet = conn.pktsNet)
    (ordered : conn'.pktsReordered = conn.pktsReordered)
    (last : conn'.lastRecvedSeq = conn.lastRecvedSeq) : ReceivesGenuine sent taken conn' := by
  obtain ⟨received, inv, genuine⟩ := h
  exact ⟨received, inv.congr buffer net ordered last, genuine⟩

/-- The invariant reads three fields of the connection. -/
theorem SenderInv.congr {sent : List (List UInt8)} {racks : List UInt32} {capped : Bool}
    {conn conn' : RudpConnection} (inv : SenderInv sent racks capped conn)
    (pending : conn'.pktsFhost = conn.pktsFhost) (current : conn'.currentSeq = conn.currentSeq)
    (closed : conn'.closed = conn.closed) :
    SenderInv sent racks capped conn' := by
  refine ⟨?_, ?_, ?_, ?_, inv.acked, inv.window⟩
  · rw [current]; exact inv.numbered
  · rw [closed]; exact inv.closed
  · rw [pending]; exact inv.genuine
  · rw [pendingSeqs, pending]; exact inv.contiguous

/-- A packet from the other end: DATA as it was accepted there, or a RACK for what has
    been appended there. -/
inductive FromPeer (sent : List (List UInt8)) (appended : Nat) (p : Protopack) : Prop where
  | data (genuine : Genuine sent p)
  | rack (type : p.packtype = ProtopackType.rack.code) (below : p.seq.toNat < appended)

theorem FromPeer.mono {sent sent' : List (List UInt8)} {n n' : Nat} {p : Protopack}
    (h : FromPeer sent n p) (grown : sent <+: sent') (more : n ≤ n') : FromPeer sent' n' p := by
  cases h with
  | data genuine =>
    obtain ⟨rest, rfl⟩ := grown
    exact .data (genuine.append rest)
  | rack type below => exact .rack type (Nat.lt_of_lt_of_le below more)

theorem FromPeer.not_fin {sent : List (List UInt8)} {n : Nat} {p : Protopack}
    (h : FromPeer sent n p) : p.packtype ≠ ProtopackType.fin.code := by
  cases h with
  | data genuine => rw [genuine.1]; decide
  | rack type below => rw [type]; decide

/-- What goes out on a link. -/
structure Emits (uid : UInt32) (sent : List (List UInt8)) (appended : Nat) (p : Protopack) :
    Prop where
  transmissible : Transmissible p
  from_ : p.hFrom = uid
  content : FromPeer sent appended p

theorem acknowledge_bare {conn : RudpConnection} {inOrder : Bool} {nowMs : Int} {msg : Protopack}
    (h : msg ∈ (acknowledge conn inOrder nowMs).2) : Transmissible msg ∧ msg.hFrom = conn.sUid := by
  simp only [acknowledge, protoMsgQuick_eq] at h
  split at h
  next =>
    obtain rfl := List.mem_singleton.mp h
    exact ⟨⟨rfl, show sizeofProtopack + 0 ≤ udpMtu by decide⟩, rfl⟩
  next => cases h

namespace Linked

variable {uid peer : UInt32} {sentOut sentIn : List (List UInt8)} {taken : List Protopack}
    {acked : Nat}
  {conn : RudpConnection} {pkt : Protopack} {nowMs : Int}

theorem new (uid peer : UInt32) (sentIn : List (List UInt8)) (acked : Nat) (nowMs : Int) :
    Linked uid peer [] sentIn [] acked (rudpConnNew uid peer nowMs) where
  sUid := rfl
  cUid := rfl
  sender := ⟨[], false, rudpConnNew_senderInv uid peer nowMs, Nat.zero_le _⟩
  receiver := ⟨[], rudpConnNew_inv uid peer nowMs, by simp⟩
  pending := by simp [rudpConnNew]

theorem mono {sentIn' : List (List UInt8)} {acked' : Nat}
    (h : Linked uid peer sentOut sentIn taken acked conn) (grown : sentIn <+: sentIn')
    (more : acked ≤ acked') :
    Linked uid peer sentOut sentIn' taken acked' conn := by
  obtain ⟨racks, capped, inv, below⟩ := h.sender
  obtain ⟨rest, rfl⟩ := grown
  exact ⟨h.sUid, h.cUid, ⟨racks, capped, inv, Nat.le_trans below more⟩, h.receiver.append rest,
    h.pending⟩

/-- What a call of `rudp_conn_send` accepts. -/
def accepted (ret : Int) (pkt : Protopack) : List (List UInt8) :=
  if ret = 0 then [pkt.payload] else []

theorem send (h : Linked uid peer sentOut sentIn taken acked conn)
    (data : pkt.packtype = ProtopackType.data.code) (transmissible : Transmissible pkt)
    (from_ : pkt.hFrom = uid) (few : sentOut.length < 2 ^ 32 - 1) (nowMs : Int) (n : Nat) :
    Linked uid peer (sentOut ++ accepted (rudpConnSend conn pkt nowMs).1 pkt) sentIn taken acked
        (rudpConnSend conn pkt nowMs).2.1 ∧
      (rudpConnSend conn pkt nowMs).2.1.pktsReordered = conn.pktsReordered ∧
      ∀ p ∈ (rudpConnSend conn pkt nowMs).2.2,
        Emits uid (sentOut ++ accepted (rudpConnSend conn pkt nowMs).1 pkt) n p := by
  obtain ⟨ret, refused, eq⟩ | ⟨-, -, pending, seq, copy, eq⟩ := rudpConnSend_cases conn pkt nowMs
  · -- a refused call leaves no trace
    rw [eq, accepted, if_neg refused, List.append_nil]
    exact ⟨h, rfl, by simp⟩
  · obtain ⟨racks, capped, inv, below⟩ := h.sender
    obtain ⟨senderInv, genuine⟩ := send_inv inv data few eq
    have carried : Transmissible pending.copyPack ∧ pending.copyPack.hFrom = uid := by
      rw [copy, udpCopyPack_of_sized transmissible.1]
      exact ⟨transmissible, from_⟩
    rw [eq, accepted, if_pos rfl]
    refine ⟨⟨h.sUid, h.cUid, ⟨racks, capped, senderInv, below⟩, h.receiver.congr rfl rfl rfl rfl,
      ?_⟩, rfl, ?_⟩
    · exact List.forall_mem_append.mpr ⟨h.pending, List.forall_mem_singleton.mpr carried⟩
    · intro p member
      have content := genuine p member
      obtain rfl := List.mem_singleton.mp member
      exact ⟨carried.1, carried.2, .data content⟩

theorem timeouts (h : Linked uid peer sentOut sentIn taken acked conn) (nowMs : Int) (n : Nat) :
    Linked uid peer sentOut sentIn taken acked (rudpConnTimeouts conn nowMs).2.1 ∧
      (rudpConnTimeouts conn nowMs).2.1.pktsReordered = conn.pktsReordered ∧
      ∀ p ∈ (rudpConnTimeouts conn nowMs).2.2, Emits uid sentOut n p := by
  obtain ⟨racks, capped, inv, below⟩ := h.sender
  obtain ⟨senderInv, genuine⟩ := timeouts_inv inv nowMs
  have loop := timeoutsLoop_inv conn nowMs
  have frame : (rudpConnTimeouts conn nowMs).2.1 = { conn with
      pktsFhost := (rudpConnTimeouts conn nowMs).2.1.pktsFhost
      closed := (rudpConnTimeouts conn nowMs).2.1.closed } := loop.frame
  refine ⟨⟨?_, ?_, ⟨racks, _, senderInv, below⟩, ?_, ?_⟩, ?_, ?_⟩
  · rw [frame]; exact h.sUid
  · rw [frame]; exact h.cUid
  · rw [frame]; exact h.receiver.congr rfl rfl rfl rfl
  · intro ppkt member
    obtain ⟨old, before, -, copy⟩ := loop.carried_over member
    rw [← copy]
    exact h.pending old before
  · rw [frame]
  · intro p member
    -- what is sent again was pending, so it was sent before
    obtain ⟨ppkt, before, rfl⟩ := List.mem_map.mp (loop.resent p member)
    exact ⟨(h.pending ppkt before).1, (h.pending ppkt before).2, .data (genuine _ member)⟩

/-- DATA of the other end; the answer is a RACK for what is appended by then. -/
theorem data (h : Linked uid peer sentOut sentIn taken acked conn) (genuine : Genuine sentIn pkt)
    (few : sentIn.length < 2 ^ 32 - 1) (sent : List (List UInt8)) :
    Linked uid peer sentOut sentIn taken acked (netHandlerData conn pkt nowMs).1 ∧
      conn.pktsReordered <+: (netHandlerData conn pkt nowMs).1.pktsReordered ∧
      ∀ p ∈ (netHandlerData conn pkt nowMs).2,
        Emits uid sent (appended taken (netHandlerData conn pkt nowMs).1).length p := by
  obtain ⟨pending, current, closed⟩ := netHandlerData_sending conn pkt nowMs
  obtain ⟨racks, capped, inv, below⟩ := h.sender
  obtain ⟨received, receiverInv, fromPeer⟩ := h.receiver
  have uids : (netHandlerData conn pkt nowMs).1.sUid = conn.sUid ∧
      (netHandlerData conn pkt nowMs).1.cUid = conn.cUid := by
    obtain ⟨_, _, _, _, frame⟩ := netHandlerData_frame conn pkt nowMs
    obtain ⟨_, _, _, _, accepted⟩ := acceptData_frame conn pkt
    rw [frame, accepted]
    exact ⟨rfl, rfl⟩
  -- one packet more of the other party, genuine as those before it
  have receiver : ReceivesGenuine sentIn taken (netHandlerData conn pkt nowMs).1 :=
    ⟨received ++ [pkt], netHandlerData_inv receiverInv pkt nowMs,
      List.forall_mem_append.mpr ⟨fromPeer, List.forall_mem_singleton.mpr genuine⟩⟩
  refine ⟨⟨uids.1.trans h.sUid, uids.2.trans h.cUid,
    ⟨racks, capped, inv.congr pending current closed, below⟩, receiver, ?_⟩,
    netHandlerData_delivered conn pkt nowMs, ?_⟩
  · rw [pending]; exact h.pending
  · intro p member
    have length := receiver.length_le few
    obtain ⟨type, seq⟩ := netHandlerData_acks receiverInv (by omega) member
    have bare := acknowledge_bare member
    refine ⟨bare.1, bare.2.trans ?_, .rack type seq⟩
    obtain ⟨_, _, _, _, accepted⟩ := acceptData_frame conn pkt
    rw [accepted]
    exact h.sUid

theorem rack (h : Linked uid peer sentOut sentIn taken acked conn) (below : pkt.seq.toNat < acked)
    (bound : acked ≤ sentOut.length) (nowMs : Int) :
    Linked uid peer sentOut sentIn taken acked (netHandlerRack conn pkt nowMs) := by
  obtain ⟨racks, capped, inv, behind⟩ := h.sender
  refine ⟨h.sUid, h.cUid,
    ⟨racks ++ [pkt.seq], capped, rack_inv inv (Nat.lt_of_lt_of_le below bound) nowMs, ?_⟩,
    h.receiver.congr rfl rfl rfl rfl, fun ppkt member =>
      h.pending ppkt (mem_netHandlerRack.mp member).1⟩
  rw [firstUnacked_append]
  exact Nat.max_le.mpr ⟨behind, below⟩

theorem recv (h : Linked uid peer sentOut sentIn taken acked conn) {rest : List Protopack}
    (queue : conn.pktsReordered = pkt :: rest) :
    Linked uid peer sentOut sentIn (taken ++ [pkt]) acked { conn with pktsReordered := rest } := by
  obtain ⟨racks, capped, inv, below⟩ := h.sender
  obtain ⟨received, receiverInv, fromPeer⟩ := h.receiver
  exact ⟨h.sUid, h.cUid, ⟨racks, capped, inv.congr rfl rfl rfl, below⟩,
    ⟨received, recv_inv receiverInv queue, fromPeer⟩, h.pending⟩

/-- Until the cap is hit, a number accepted is pending, or the other end has appended it. -/
theorem accounted (h : Linked uid peer sentOut sentIn taken acked conn)
    (opened : conn.closed = false) {j : Nat}
    (sent : j < sentOut.length) : j < acked ∨ ∃ ppkt ∈ conn.pktsFhost, ppkt.seq.toNat = j := by
  obtain ⟨racks, capped, inv, below⟩ := h.sender
  cases Nat.lt_or_ge j (firstUnacked racks) with
  | inl done => exact .inl (Nat.lt_of_lt_of_le done below)
  | inr beyond =>
    have member : j ∈ pendingSeqs conn := by
      rw [(inv.contiguous (inv.closed ▸ opened)).mem_iff, List.mem_range'_1]
      omega
    exact .inr (List.mem_map.mp member)

end Linked

end Soter2.Rudp
