import Mathlib.Data.List.Basic
import Mathlib.Tactic.Common
import Soter2.Library.AssocTable
import Soter2.Library.Transition
import Soter2.Rudp.Parameters

/-! # The dispatcher (`rudp/src/dispatcher.c`)

The dispatcher keeps the connections in a table by the UID of the peer, and its worker
hands every packet passed to it to the connection of `h_from`.  A pointer to a connection
is the slot of the table that owns it.  `rudp_get_connection` treats `UINT32_MAX` as a
request for any connection, and the worker passes it the UID that stands in the packet:

* `isolated_iff` — exactly which packets stay with the connection of their sender.
-/

namespace Soter2.Rudp

open Protocol

structure RudpDispatcher where
  selfUid : UInt32
  passedPkts : List Protopack
  connections : AssocTable UInt32 RudpConnection
deriving DecidableEq

def rudpDispatcherNew (selfUid : UInt32) : RudpDispatcher := ⟨selfUid, [], AssocTable.empty⟩

def rudpEstConnection (disp : RudpDispatcher) (otherUid : UInt32) (nowMs : Int) : RudpDispatcher :=
  { disp with
    connections := disp.connections.set otherUid (rudpConnNew disp.selfUid otherUid nowMs) }

inductive Lookup where
  | found (slot : Nat)
  | missing
  | divisionByZero
deriving DecidableEq, Repr

/-- `rudp_get_connection`, where `rand` is what `rand()` returns. -/
def rudpGetConnection (disp : RudpDispatcher) (uid : UInt32) (rand : Nat) : Lookup :=
  if uid = uint32Max then
    -- `rand() % len` is evaluated before anything checks that there is a connection
    if disp.connections.entries.length = 0 then .divisionByZero
    else .found (rand % disp.connections.entries.length)
  else
    match disp.connections.find uid with
    | some slot => .found slot
    | none => .missing

def rudpCloseConncetion (disp : RudpDispatcher) (uid : UInt32) :
    Int × RudpDispatcher × List Protopack :=
  match disp.connections.get uid with
  | none => (-1, disp, [])
  | some conn =>
    (0, { disp with connections := disp.connections.remove uid }, (rudpConnClose conn).2)

def rudpDispatcherPass (disp : RudpDispatcher) (pkt : Protopack) : RudpDispatcher :=
  { disp with passedPkts := disp.passedPkts ++ [pkt] }

/-- `_rudp_dispatcher_net_handler` on the connection in `slot`. -/
def rudpDispatcherNetHandler (disp : RudpDispatcher) (slot : Nat) (pkt : Protopack) (nowMs : Int) :
    RudpDispatcher × List Protopack :=
  match disp.connections.entries[slot]? with
  | none => (disp, [])
  | some (_, conn) =>
    -- the types exclude one another, so the order in which they are tested is free
    if pkt.packtype = ProtopackType.fin.code then (rudpCloseConncetion disp conn.cUid).2
    else
      ({ disp with
          connections :=
            disp.connections.setAt slot (fun conn => (netHandlerConn conn pkt nowMs).1) },
        (netHandlerConn conn pkt nowMs).2)

inductive Worked where
  | idle
  | divisionByZero
  | done (disp : RudpDispatcher) (out : List Protopack)

/-- The packet loop of `_rudp_dispatcher_worker`, one packet at a time. -/
def rudpDispatcherWorker (disp : RudpDispatcher) (rand : Nat) (nowMs : Int) : Worked :=
  match disp.passedPkts with
  | [] => .idle
  | pkt :: rest =>
    let disp := { disp with passedPkts := rest }
    match rudpGetConnection disp pkt.hFrom rand with
    | .divisionByZero => .divisionByZero
    | .missing => .done disp []
    | .found slot =>
      let handled := rudpDispatcherNetHandler disp slot (udpCopyPack pkt) nowMs
      .done handled.1 handled.2

/-! ## Runs of a dispatcher -/

inductive DispatcherAction where
  | est (otherUid : UInt32) (nowMs : Int)
  | close (uid : UInt32)
  | pass (pkt : Protopack)
  | work (rand : Nat) (nowMs : Int)
  | timeouts (nowMs : Int)
  | connSend (uid : UInt32) (pkt : Protopack) (nowMs : Int)
  | connRecv (uid : UInt32)

namespace RudpDispatcher

/-- Use the connection registered under a UID, as an application does with the pointer that
    `rudp_est_connection` gave it. -/
def onConnection (disp : RudpDispatcher) (uid : UInt32) (f : RudpConnection → RudpConnection) :
    Option RudpDispatcher :=
  (disp.connections.find uid).map fun slot =>
    { disp with connections := disp.connections.setAt slot f }

def step (disp : RudpDispatcher) : DispatcherAction → Option RudpDispatcher
  | .est otherUid nowMs => some (rudpEstConnection disp otherUid nowMs)
  | .close uid => some (rudpCloseConncetion disp uid).2.1
  | .pass pkt => some (rudpDispatcherPass disp pkt)
  -- a division by zero ends the process, so no state is reached through it
  | .work rand nowMs =>
    match rudpDispatcherWorker disp rand nowMs with
    | .done disp _ => some disp
    | .idle | .divisionByZero => none
  | .timeouts nowMs =>
    some { disp with
      connections := disp.connections.mapValues (fun conn => (rudpConnTimeouts conn nowMs).2.1) }
  | .connSend uid pkt nowMs => disp.onConnection uid (fun conn => (rudpConnSend conn pkt nowMs).2.1)
  | .connRecv uid => disp.onConnection uid (fun conn => (rudpConnRecv conn).2.2)

end RudpDispatcher

/-! ## What holds of every connection in the table -/

/-- The connection is for `uid`, and its timing parameters are in their ranges. -/
structure Settled (uid : UInt32) (conn : RudpConnection) : Prop where
  peer : conn.cUid = uid
  threshold : 2 ≤ conn.ackThreshold
  rtt : 20 ≤ conn.avgRttMs
  timeout : conn.ackTimeoutMs = 2000

namespace Settled

variable {uid : UInt32} {conn : RudpConnection}

theorem new (selfUid uid : UInt32) (nowMs : Int) : Settled uid (rudpConnNew selfUid uid nowMs) :=
  ⟨rfl, UInt32.le_refl 2, by show (20 : Int) ≤ 250; decide, rfl⟩

theorem retimed {conn' : RudpConnection} (h : Settled uid conn) (r : Retimed conn conn') :
    Settled uid conn' where
  peer := r.peer.trans h.peer
  threshold := by
    obtain same | ⟨rttMs, count, next⟩ := r.threshold
    · rw [same]
      exact h.threshold
    · rw [next]
      exact nextAckThreshold_ge _ _ _
  rtt := by
    obtain same | ⟨sample, next⟩ := r.rtt
    · rw [same]
      exact h.rtt
    · rw [next]
      exact nextAvgRtt_ge _ h.rtt
  timeout := r.timeout.trans h.timeout

/-- A DATA packet leaves a trace in every connection that handles it. -/
theorem data_changes (h : Settled uid conn) (pkt : Protopack) (nowMs : Int) :
    (netHandlerData conn pkt nowMs).1 ≠ conn := by
  intro same
  by_cases next : pkt.seq = expectedSeq conn
  · obtain ⟨_, _, _, last, accepted⟩ := acceptData_frame conn pkt
    simp only [netHandlerData, acknowledge, protoMsgQuick_eq, accepted] at same
    split at same
    next sends =>
      -- a RACK for a packet in order at the very time of the last one, with a count of 0
      have since : 0 = conn.packetsSinceAck := congrArg RudpConnection.packetsSinceAck same
      have time : nowMs = conn.lastAckTimestamp := congrArg RudpConnection.lastAckTimestamp same
      have sentSeq : last = conn.lastAckSentSeq := congrArg RudpConnection.lastAckSentSeq same
      obtain ⟨reason, notMax⟩ := sends
      have rtt : 0 < conn.avgRttMs.tdiv 2 := by
        have := h.rtt
        rw [Int.tdiv_eq_ediv_of_nonneg (by omega)]
        omega
      have few : ¬ conn.ackThreshold ≤ 1 := by
        have := h.threshold
        simp only [UInt32.le_iff_toNat_le] at *
        intro one
        exact absurd (Nat.le_trans this one) (by decide)
      have timeout := h.timeout
      simp only [shouldSendAck, next, ← since, time, ← sentSeq, timeout, beq_self_eq_true,
        Bool.not_true,
        Bool.false_or, Int.sub_self, Bool.or_eq_true, decide_eq_true_eq, beq_iff_eq] at reason
      rcases reason with ((count | half) | late) | never
      · exact few (by simpa using count)
      · omega
      · omega
      · exact notMax never
    next => simpa using congrArg RudpConnection.packetsSinceAck same
  · -- out of order: the packet stays in the queue
    obtain ⟨_, _, _, _, frame⟩ := netHandlerData_frame conn pkt nowMs
    have queue : (netHandlerData conn pkt nowMs).1.pktsNet = conn.pktsNet ++ [pkt] := by
      rw [frame]
      show (acceptData conn pkt).pktsNet = _
      rw [acceptData, if_neg next]
      rfl
    rw [same] at queue
    simpa using congrArg List.length queue

end Settled

namespace RudpDispatcher

def Inv (disp : RudpDispatcher) : Prop :=
  ∀ uid conn, (uid, conn) ∈ disp.connections.entries → Settled uid conn

variable {disp disp' : RudpDispatcher}

theorem Inv.setAt (inv : disp.Inv) {slot : Nat} {f : RudpConnection → RudpConnection}
    (kept : ∀ uid conn, Settled uid conn → Settled uid (f conn)) :
    Inv { disp with connections := disp.connections.setAt slot f } := by
  intro uid conn member
  rcases AssocTable.mem_setAt member with old | ⟨before, old, rfl⟩
  · exact inv uid conn old
  · exact kept uid before (inv uid before old)

theorem Inv.close (inv : disp.Inv) (uid : UInt32) : (rudpCloseConncetion disp uid).2.1.Inv := by
  simp only [rudpCloseConncetion]
  split
  · exact inv
  · intro other conn member
    exact inv other conn (AssocTable.mem_remove.mp member).2

theorem Inv.onConnection (inv : disp.Inv) {uid : UInt32} {f : RudpConnection → RudpConnection}
    (kept : ∀ uid conn, Settled uid conn → Settled uid (f conn))
    (h : disp.onConnection uid f = some disp') : disp'.Inv := by
  obtain ⟨slot, -, rfl⟩ := Option.map_eq_some_iff.mp h
  exact inv.setAt kept

theorem Inv.netHandler (inv : disp.Inv) (slot : Nat) (pkt : Protopack) (nowMs : Int) :
    (rudpDispatcherNetHandler disp slot pkt nowMs).1.Inv := by
  simp only [rudpDispatcherNetHandler]
  split
  · exact inv
  · split
    · exact inv.close _
    · exact inv.setAt (fun _ conn settled => settled.retimed (.handled conn pkt nowMs))

theorem step_inv {a : DispatcherAction} (inv : disp.Inv) (h : step disp a = some disp') :
    disp'.Inv := by
  cases a with
  | est otherUid nowMs =>
    cases h
    intro uid conn member
    rcases AssocTable.mem_set member with old | ⟨rfl, rfl⟩
    · exact inv uid conn old
    · exact Settled.new _ _ _
  | close uid => cases h; exact inv.close uid
  | pass pkt => cases h; exact inv
  | work rand nowMs =>
    simp only [step, rudpDispatcherWorker] at h
    cases queue : disp.passedPkts with
    | nil => simp [queue] at h
    | cons pkt rest =>
      -- what the queue holds does not matter to the connections
      have popped : Inv { disp with passedPkts := rest } := inv
      simp only [queue] at h
      cases found : rudpGetConnection { disp with passedPkts := rest } pkt.hFrom rand with
      | divisionByZero => simp [found] at h
      | missing =>
        simp only [found, Option.some.injEq] at h
        exact h ▸ popped
      | found slot =>
        simp only [found, Option.some.injEq] at h
        exact h ▸ popped.netHandler slot (udpCopyPack pkt) nowMs
  | timeouts nowMs =>
    cases h
    intro uid conn member
    obtain ⟨before, old, rfl⟩ := AssocTable.mem_mapValues member
    exact (inv uid before old).retimed (.timeouts before nowMs)
  | connSend uid pkt nowMs =>
    exact inv.onConnection (fun _ conn settled => settled.retimed (.send conn pkt nowMs)) h
  | connRecv uid => exact inv.onConnection (fun _ conn settled => settled.retimed (.recv conn)) h

/-! ## Isolation -/

/-- With `pkt` at the head of the queue and `rest` behind it: the worker survives the
    packet, no connection but that of its sender changes, and a packet of a stranger changes
    nothing at all. -/
def Isolated (disp : RudpDispatcher) (pkt : Protopack) (rest : List Protopack) (rand : Nat)
    (nowMs : Int) : Prop :=
  ∃ disp' out, rudpDispatcherWorker disp rand nowMs = .done disp' out ∧
    (∀ uid, uid ≠ pkt.hFrom → disp'.connections.get uid = disp.connections.get uid) ∧
    (disp.connections.get pkt.hFrom = none → disp' = { disp with passedPkts := rest } ∧ out = [])

/-- The entry that `rudp_get_connection` picks for `UINT32_MAX`. -/
def picked (disp : RudpDispatcher) (rand : Nat) : Option (UInt32 × RudpConnection) :=
  disp.connections.entries[rand % disp.connections.entries.length]?

/-- The packet does not claim to come from `UINT32_MAX`; or there is a connection to pick
    for it, and that one is registered under `UINT32_MAX` or has nothing for this RACK. -/
def Harmless (disp : RudpDispatcher) (pkt : Protopack) (rand : Nat) : Prop :=
  pkt.hFrom ≠ uint32Max ∨
    ∃ uid conn, disp.picked rand = some (uid, conn) ∧
      (uid = uint32Max ∨
        pkt.packtype = ProtopackType.rack.code ∧ ∀ ppkt ∈ conn.pktsFhost, pkt.seq < ppkt.seq)

/-- Handling a packet in the slot of its sender leaves every other connection alone. -/
theorem netHandler_frame (inv : disp.Inv) {slot : Nat} {uid : UInt32} {conn : RudpConnection}
    (entry : disp.connections.entries[slot]? = some (uid, conn)) (pkt : Protopack) (nowMs : Int)
    {other : UInt32} (ne : other ≠ uid) :
    (rudpDispatcherNetHandler disp slot pkt nowMs).1.connections.get other =
      disp.connections.get other := by
  have peer := (inv uid conn (List.mem_of_getElem? entry)).peer
  simp only [rudpDispatcherNetHandler, entry, peer]
  split
  · rw [rudpCloseConncetion, AssocTable.get_of_slot entry]
    exact AssocTable.get_remove_ne ne
  · exact AssocTable.get_setAt_ne entry _ ne

/-- A packet the connection in the slot has a use for changes that connection. -/
theorem netHandler_changes (inv : disp.Inv) {slot : Nat} {uid : UInt32} {conn : RudpConnection}
    (entry : disp.connections.entries[slot]? = some (uid, conn)) (pkt : Protopack)
    (rudp : udpIsRudpReq pkt.packtype = true) (nowMs : Int)
    (useful : ¬ (pkt.packtype = ProtopackType.rack.code ∧
      ∀ ppkt ∈ conn.pktsFhost, pkt.seq < ppkt.seq)) :
    (rudpDispatcherNetHandler disp slot pkt nowMs).1.connections.get uid ≠ some conn := by
  have settled := inv uid conn (List.mem_of_getElem? entry)
  simp only [rudpDispatcherNetHandler, entry, settled.peer]
  by_cases fin : pkt.packtype = ProtopackType.fin.code
  · rw [if_pos fin, rudpCloseConncetion, AssocTable.get_of_slot entry]
    show (disp.connections.remove uid).get uid ≠ _
    rw [AssocTable.get_remove_self]
    simp
  · rw [if_neg fin]
    show (disp.connections.setAt slot _).get uid ≠ _
    rw [AssocTable.get_setAt_self entry]
    intro same
    have same := Option.some.inj same
    by_cases data : pkt.packtype = ProtopackType.data.code
    · rw [netHandlerConn_data data] at same
      -- DATA leaves a trace even where its payload is dropped
      exact settled.data_changes pkt nowMs same
    · have rack : pkt.packtype = ProtopackType.rack.code := by
        simpa [udpIsRudpReq, data, fin] using rudp
      rw [netHandlerConn_rack rack] at same
      exact useful ⟨rack, netHandlerRack_eq_self.mp same⟩

theorem worker_found {pkt : Protopack} {rest : List Protopack}
    (queue : disp.passedPkts = pkt :: rest) (rand slot : Nat) (nowMs : Int)
    (found : rudpGetConnection disp pkt.hFrom rand = .found slot) :
    rudpDispatcherWorker disp rand nowMs =
      .done (rudpDispatcherNetHandler { disp with passedPkts := rest } slot (udpCopyPack pkt)
        nowMs).1
        (rudpDispatcherNetHandler { disp with passedPkts := rest } slot (udpCopyPack pkt)
          nowMs).2 := by
  have same : rudpGetConnection { disp with passedPkts := rest } pkt.hFrom rand = .found slot :=
    found
  simp only [rudpDispatcherWorker, queue, same]

variable {pkt : Protopack} {rest : List Protopack}

/-- A packet from `UINT32_MAX` that finds a connection. -/
theorem isolated_picked_iff (inv : disp.Inv) (queue : disp.passedPkts = pkt :: rest)
    (rudp : udpIsRudpReq pkt.packtype = true) (from_ : pkt.hFrom = uint32Max) (rand : Nat)
    (nowMs : Int) {uid : UInt32} {conn : RudpConnection}
    (entry : disp.picked rand = some (uid, conn)) :
    disp.Isolated pkt rest rand nowMs ↔ uid = uint32Max ∨
      pkt.packtype = ProtopackType.rack.code ∧ ∀ ppkt ∈ conn.pktsFhost, pkt.seq < ppkt.seq := by
  let popped : RudpDispatcher := { disp with passedPkts := rest }
  let place := rand % disp.connections.entries.length
  have slot : popped.connections.entries[place]? = some (uid, conn) := entry
  have nonempty : disp.connections.entries.length ≠ 0 := by
    intro none
    simp only [picked, List.length_eq_zero_iff.mp none] at entry
    simp at entry
  have worked := worker_found queue rand place nowMs
    (by rw [rudpGetConnection, if_pos from_, if_neg nonempty])
  have invPopped : popped.Inv := inv
  constructor
  · rintro ⟨disp', out, h, others, -⟩
    rw [worked] at h
    -- the connection of another peer was picked, and the packet changed it
    by_contra neither
    obtain ⟨notMax, useful⟩ := not_or.mp neither
    have changed := netHandler_changes invPopped slot (udpCopyPack pkt) rudp nowMs useful
    rw [(Worked.done.inj h).1] at changed
    rw [from_] at others
    exact changed ((others uid notMax).trans (AssocTable.get_of_slot slot))
  · intro harmless
    refine ⟨_, _, worked, ?_⟩
    rw [from_]
    rcases harmless with rfl | ⟨rack, beyond⟩
    · refine ⟨fun other ne => netHandler_frame invPopped slot (udpCopyPack pkt) nowMs ne, ?_⟩
      intro stranger
      have registered : disp.connections.get uint32Max = some conn := AssocTable.get_of_slot slot
      rw [registered] at stranger
      cases stranger
    · -- the RACK finds nothing to remove, so even a foreign connection stays as it was
      have type : (udpCopyPack pkt).packtype = ProtopackType.rack.code := rack
      have notFin : (udpCopyPack pkt).packtype ≠ ProtopackType.fin.code := by rw [type]; decide
      have nothing : netHandlerConn conn (udpCopyPack pkt) nowMs = (conn, []) := by
        have idle : netHandlerRack conn (udpCopyPack pkt) nowMs = conn :=
          netHandlerRack_eq_self.mpr beyond
        rw [netHandlerConn_rack type, idle]
      have unchanged : rudpDispatcherNetHandler popped place (udpCopyPack pkt) nowMs
          = (popped, []) := by
        simp only [rudpDispatcherNetHandler, slot, if_neg notFin, nothing]
        rw [AssocTable.setAt_id slot (congrArg Prod.fst nothing)]
      rw [unchanged]
      exact ⟨fun _ _ => rfl, fun _ => ⟨rfl, rfl⟩⟩

/-- A packet from any other UID goes to the connection of that UID or nowhere. -/
theorem isolated_of_ne (inv : disp.Inv) (queue : disp.passedPkts = pkt :: rest)
    (from_ : pkt.hFrom ≠ uint32Max) (rand : Nat) (nowMs : Int) :
    disp.Isolated pkt rest rand nowMs := by
  have invPopped : Inv { disp with passedPkts := rest } := inv
  cases found : disp.connections.find pkt.hFrom with
  | none =>
    refine ⟨{ disp with passedPkts := rest }, [], ?_, fun _ _ => rfl, fun _ => ⟨rfl, rfl⟩⟩
    simp only [rudpDispatcherWorker, queue, rudpGetConnection, if_neg from_, found]
  | some slot =>
    obtain ⟨conn, entry⟩ := AssocTable.find_slot found
    have worked := worker_found queue rand slot nowMs
      (by simp only [rudpGetConnection, if_neg from_, found])
    refine ⟨_, _, worked, ?_, ?_⟩
    · intro uid ne
      exact netHandler_frame invPopped entry (udpCopyPack pkt) nowMs ne
    · intro stranger
      rw [AssocTable.get_of_slot entry] at stranger
      cases stranger

/-- Packets stay with the connection of their sender exactly if they do not name
    `UINT32_MAX` as their sender, up to coincidences. -/
theorem isolated_iff (selfUid : UInt32) (as : List DispatcherAction) (disp : RudpDispatcher)
    (reached : Transition.run step (rudpDispatcherNew selfUid) as = some disp)
    (pkt : Protopack) (rest : List Protopack) (queue : disp.passedPkts = pkt :: rest)
    (rudp : udpIsRudpReq pkt.packtype = true) (rand : Nat) (nowMs : Int) :
    disp.Isolated pkt rest rand nowMs ↔ disp.Harmless pkt rand := by
  have start : (rudpDispatcherNew selfUid).Inv := by simp [Inv, rudpDispatcherNew, AssocTable.empty]
  have inv : disp.Inv := Transition.run_invariant (fun _ _ _ => step_inv) start reached
  by_cases from_ : pkt.hFrom = uint32Max
  · cases entry : disp.picked rand with
    | none =>
      -- the table is empty: `rand() % 0`
      have empty : disp.connections.entries.length = 0 := by
        by_contra nonempty
        have := List.getElem?_eq_none_iff.mp entry
        exact absurd (Nat.mod_lt rand (Nat.pos_of_ne_zero nonempty)) (Nat.not_lt.mpr this)
      constructor
      · rintro ⟨_, _, worked, -⟩
        simp [rudpDispatcherWorker, queue, rudpGetConnection, from_, empty] at worked
      · rintro (notMax | ⟨uid, conn, some_, -⟩)
        · exact absurd from_ notMax
        · rw [entry] at some_
          cases some_
    | some e =>
      obtain ⟨uid, conn⟩ := e
      rw [isolated_picked_iff inv queue rudp from_ rand nowMs entry]
      constructor
      · intro harmless
        exact .inr ⟨uid, conn, entry, harmless⟩
      · rintro (notMax | ⟨_, _, same, harmless⟩)
        · exact absurd from_ notMax
        · rw [entry] at same
          cases same
          exact harmless
  · exact ⟨fun _ => .inl from_, fun _ => isolated_of_ne inv queue from_ rand nowMs⟩

/-- A FIN that claims to come from `UINT32_MAX`. -/
def anonymousFin : Protopack :=
  { seq := 0, chsum := 0, dSize := 0, hFrom := uint32Max, hTo := 1, packtype := 8, data := [] }

/-- Without a connection such a FIN divides by zero, and with one it closes the session of
    a peer that never sent it. -/
theorem not_isolated :
    (∃ disp, Transition.run step (rudpDispatcherNew 1) [.pass anonymousFin] = some disp ∧
      disp.passedPkts = [anonymousFin] ∧ rudpDispatcherWorker disp 0 0 = .divisionByZero ∧
      ¬ disp.Isolated anonymousFin [] 0 0) ∧
    ∃ disp, Transition.run step (rudpDispatcherNew 1) [.est 5 0, .pass anonymousFin] = some disp ∧
      disp.passedPkts = [anonymousFin] ∧ (disp.connections.get 5).isSome ∧
      (∃ disp' out, rudpDispatcherWorker disp 0 0 = .done disp' out ∧
        disp'.connections.get 5 = none) ∧
      ¬ disp.Isolated anonymousFin [] 0 0 := by
  refine ⟨⟨_, rfl, rfl, rfl, ?_⟩, ⟨_, rfl, rfl, rfl, ⟨_, _, rfl, rfl⟩, ?_⟩⟩
  · rintro ⟨_, _, worked, -⟩
    cases worked
  · rintro ⟨disp', out, worked, others, -⟩
    obtain ⟨rfl, -⟩ := Worked.done.inj worked
    exact absurd (others 5 (by decide)) (by decide)

/-- A FIN of peer 5, and a run in which it finds the sessions with 5 and 6. -/
def ownFin : Protopack := { anonymousFin with hFrom := 5 }

def twoPeers : List DispatcherAction := [.est 5 0, .est 6 0, .pass ownFin]

theorem isolated_iff_twoPeers :
    ∃ disp, Transition.run step (rudpDispatcherNew 1) twoPeers = some disp ∧
      disp.passedPkts = [ownFin] ∧ udpIsRudpReq ownFin.packtype = true ∧
      (disp.Isolated ownFin [] 3 40 ↔ disp.Harmless ownFin 3) :=
  ⟨_, rfl, rfl, rfl, isolated_iff 1 twoPeers _ rfl ownFin [] rfl rfl 3 40⟩

end RudpDispatcher

end Soter2.Rudp
