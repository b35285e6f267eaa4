import Mathlib.Data.List.Basic
import Mathlib.Tactic.Common
import Soter2.Rudp.Connection

/-! # Handling a packet from the network (`_rudp_dispatcher_net_handler`)

The branches for DATA and RACK, which stay within one connection.  A FIN goes through
the table of the dispatcher and is modelled there.

* `acknowledge_frame`, `acknowledge_out` — what acknowledging a DATA packet changes and sends.
* `netHandlerRack_pending` — a RACK removes the pending packets up to its number.
-/

namespace Soter2.Rudp

open Protocol
open scoped List

/-! ## DATA -/

/-- The first half of the DATA branch: the packet goes into the queue, and the queue is
    ordered only if the packet is the one expected. -/
def acceptData (conn : RudpConnection) (pkt : Protopack) : RudpConnection :=
  if pkt.seq = expectedSeq conn then rudpConnReordering (rudpConnPassNet conn pkt)
  else rudpConnPassNet conn pkt

/-- Ordering touches the four fields of the receiving side and nothing else. -/
theorem acceptData_frame (conn : RudpConnection) (pkt : Protopack) :
    ∃ buf net ordered last, acceptData conn pkt = { conn with
      pktsReorderBuf := buf
      pktsNet := net
      pktsReordered := ordered
      lastRecvedSeq := last } := by
  let Framed : RudpConnection → Prop := fun c => ∃ buf net ordered last, c = { conn with
    pktsReorderBuf := buf
    pktsNet := net
    pktsReordered := ordered
    lastRecvedSeq := last }
  -- each turn of either loop keeps the frame
  have popTurn : ∀ c c', Framed c → reorderPop c = some c' → Framed c' := by
    rintro c c' ⟨_, _, _, _, rfl⟩ h
    simp only [reorderPop] at h
    split at h
    · cases h
    · split at h <;> (cases h; exact ⟨_, _, _, _, rfl⟩)
  have drainTurn : ∀ c c', Framed c → reorderDrain c = some c' → Framed c' := by
    rintro c c' ⟨_, _, _, _, rfl⟩ h
    simp only [reorderDrain] at h
    split at h
    · cases h
    · split at h
      · cases h; exact ⟨_, _, _, _, rfl⟩
      · cases h
  have passed : Framed (rudpConnPassNet conn pkt) := ⟨_, _, _, _, rfl⟩
  show Framed (acceptData conn pkt)
  by_cases next : pkt.seq = expectedSeq conn
  · rw [acceptData, if_pos next]
    exact Loop.run_invariant drainTurn _ (Loop.run_invariant popTurn _ passed)
  · rw [acceptData, if_neg next]
    exact passed

/-- `should_send_ack`, after `packets_since_ack++`. -/
def shouldSendAck (conn : RudpConnection) (inOrder : Bool) (nowMs : Int) : Bool :=
  !inOrder
    || conn.packetsSinceAck ≥ conn.ackThreshold
    || nowMs - conn.lastAckTimestamp ≥ conn.avgRttMs.tdiv 2
    || nowMs - conn.lastAckTimestamp ≥ conn.ackTimeoutMs
    || conn.lastAckSentSeq == uint32Max

def clamp (a b c : UInt32) : UInt32 := if a < b then b else if a > c then c else a

theorem clamp_ge {a b c : UInt32} (h : b ≤ c) : b ≤ clamp a b c := by
  by_cases low : a < b
  · rw [clamp, if_pos low]
    exact UInt32.le_refl b
  · by_cases high : a > c
    · rw [clamp, if_neg low, if_pos high]
      exact h
    · rw [clamp, if_neg low, if_neg high]
      exact UInt32.not_lt.mp low

theorem clamp_le {a b c : UInt32} (h : b ≤ c) : clamp a b c ≤ c := by
  by_cases low : a < b
  · rw [clamp, if_pos low]
    exact h
  · by_cases high : a > c
    · rw [clamp, if_neg low, if_pos high]
      exact UInt32.le_refl c
    · rw [clamp, if_neg low, if_neg high]
      exact UInt32.not_lt.mp high

/-- `ack_threshold` after a RACK went out. -/
def nextAckThreshold (threshold : UInt32) (avgRttMs : Int) (packetsCount : UInt32) : UInt32 :=
  -- fewer RACKs on a fast link, more of them on a slow one
  let threshold :=
    if avgRttMs < 30 then (if threshold < 16 then threshold + 2 else 16)
    else if avgRttMs > 100 then (if threshold > 2 then threshold - 1 else 2)
    else threshold
  let threshold := if packetsCount = 0 ∧ threshold > 4 then 4 else threshold
  clamp threshold 2 16

theorem nextAckThreshold_ge (threshold : UInt32) (avgRttMs : Int) (packetsCount : UInt32) :
    2 ≤ nextAckThreshold threshold avgRttMs packetsCount :=
  clamp_ge (by decide)

theorem nextAckThreshold_le (threshold : UInt32) (avgRttMs : Int) (packetsCount : UInt32) :
    nextAckThreshold threshold avgRttMs packetsCount ≤ 16 :=
  clamp_le (by decide)

def recordAck (conn : RudpConnection) (nowMs : Int) : RudpConnection :=
  { conn with
    lastAckSentSeq := conn.lastRecvedSeq
    packetsSinceAck := 0
    lastAckTimestamp := nowMs
    ackThreshold := nextAckThreshold conn.ackThreshold conn.avgRttMs conn.packetsSinceAck }

/-- The second half of the DATA branch. -/
def acknowledge (conn : RudpConnection) (inOrder : Bool) (nowMs : Int) :
    RudpConnection × List Protopack :=
  let conn := { conn with packetsSinceAck := conn.packetsSinceAck + 1 }
  if shouldSendAck conn inOrder nowMs ∧ conn.lastRecvedSeq ≠ uint32Max then
    match protoMsgQuick conn.sUid conn.cUid conn.lastRecvedSeq .rack with
    | some msg => (recordAck conn nowMs, [msg])
    -- no memory for the RACK: only the count and the time start again
    | none => ({ conn with packetsSinceAck := 0, lastAckTimestamp := nowMs }, [])
  else (conn, [])

/-- Acknowledging touches the counters of the acknowledgement and nothing else; what goes
    out is at most one RACK for the last packet delivered. -/
theorem acknowledge_frame (conn : RudpConnection) (inOrder : Bool) (nowMs : Int) :
    ∃ since sentSeq sentAt threshold,
      (acknowledge conn inOrder nowMs).1 = { conn with
        packetsSinceAck := since
        lastAckSentSeq := sentSeq
        lastAckTimestamp := sentAt
        ackThreshold := threshold } := by
  simp only [acknowledge, protoMsgQuick_eq]
  split
  · exact ⟨_, _, _, _, rfl⟩
  · exact ⟨_, _, _, _, rfl⟩

theorem acknowledge_out {conn : RudpConnection} {inOrder : Bool} {nowMs : Int} {msg : Protopack}
    (h : msg ∈ (acknowledge conn inOrder nowMs).2) :
    conn.lastRecvedSeq ≠ uint32Max ∧ msg.seq = conn.lastRecvedSeq ∧
      msg.packtype = ProtopackType.rack.code := by
  simp only [acknowledge, protoMsgQuick_eq] at h
  split at h
  next sends =>
    obtain rfl := List.mem_singleton.mp h
    exact ⟨sends.2, rfl, rfl⟩
  next => cases h

def netHandlerData (conn : RudpConnection) (pkt : Protopack) (nowMs : Int) :
    RudpConnection × List Protopack :=
  acknowledge (acceptData conn pkt) (pkt.seq == expectedSeq conn) nowMs

/-- After the first half of the branch only the counters of the acknowledgement change. -/
theorem netHandlerData_frame (conn : RudpConnection) (pkt : Protopack) (nowMs : Int) :
    ∃ since sentSeq sentAt threshold,
      (netHandlerData conn pkt nowMs).1 = { acceptData conn pkt with
        packetsSinceAck := since
        lastAckSentSeq := sentSeq
        lastAckTimestamp := sentAt
        ackThreshold := threshold } :=
  acknowledge_frame (acceptData conn pkt) _ nowMs

/-- The sending side has no part in it. -/
theorem netHandlerData_sending (conn : RudpConnection) (pkt : Protopack) (nowMs : Int) :
    (netHandlerData conn pkt nowMs).1.pktsFhost = conn.pktsFhost ∧
      (netHandlerData conn pkt nowMs).1.currentSeq = conn.currentSeq ∧
      (netHandlerData conn pkt nowMs).1.closed = conn.closed := by
  obtain ⟨_, _, _, _, frame⟩ := netHandlerData_frame conn pkt nowMs
  obtain ⟨_, _, _, _, accepted⟩ := acceptData_frame conn pkt
  rw [frame, accepted]
  exact ⟨rfl, rfl, rfl⟩

/-- Every state of the connection during the DATA branch. -/
def netHandlerDataMoments (conn : RudpConnection) (pkt : Protopack) (nowMs : Int) :
    List RudpConnection :=
  conn :: rudpConnPassNet conn pkt ::
    (if pkt.seq = expectedSeq conn then reorderingMoments (rudpConnPassNet conn pkt) else []) ++
      [(netHandlerData conn pkt nowMs).1]

theorem netHandlerDataMoments_forall {P : RudpConnection → Prop} {conn : RudpConnection}
    {pkt : Protopack} {nowMs : Int} (before : P conn) (passed : P (rudpConnPassNet conn pkt))
    (during : ∀ c ∈ reorderingMoments (rudpConnPassNet conn pkt), P c)
    (after : P (netHandlerData conn pkt nowMs).1) :
    ∀ c ∈ netHandlerDataMoments conn pkt nowMs, P c := by
  intro c hc
  simp only [netHandlerDataMoments, List.cons_append, List.mem_cons, List.mem_append,
    List.not_mem_nil, or_false] at hc
  rcases hc with rfl | rfl | ordering | rfl
  · exact before
  · exact passed
  · by_cases next : pkt.seq = expectedSeq conn
    · rw [if_pos next] at ordering
      exact during c ordering
    · rw [if_neg next] at ordering
      cases ordering
  · exact after

/-! ## RACK -/

/-- `avg_rtt_ms` after a sample. -/
def nextAvgRtt (avgRttMs rttSample : Int) : Int :=
  -- a sample far above the average moves it by an eighth only
  if rttSample > 0 ∧ rttSample < 10000 then
    let rttSample := if rttSample < 20 then 20 else rttSample
    if rttSample > avgRttMs * 3 ∧ avgRttMs > 50 then (avgRttMs * 7 + rttSample).tdiv 8
    else (avgRttMs * 3 + rttSample).tdiv 4
  else avgRttMs

theorem nextAvgRtt_ge {avgRttMs : Int} (rttSample : Int) (h : 20 ≤ avgRttMs) :
    20 ≤ nextAvgRtt avgRttMs rttSample := by
  simp only [nextAvgRtt]
  split
  · have atLeast : 20 ≤ (if rttSample < 20 then 20 else rttSample) := by split <;> omega
    generalize (if rttSample < 20 then 20 else rttSample) = sample at atLeast
    split
    · rw [Int.tdiv_eq_ediv_of_nonneg (by omega)]; omega
    · rw [Int.tdiv_eq_ediv_of_nonneg (by omega)]; omega
  · exact h

theorem nextAvgRtt_lt {avgRttMs : Int} (rttSample : Int) (h : 20 ≤ avgRttMs)
    (small : avgRttMs < 10000) : nextAvgRtt avgRttMs rttSample < 10000 := by
  simp only [nextAvgRtt]
  split
  next range =>
    have atLeast : 20 ≤ (if rttSample < 20 then 20 else rttSample) := by split <;> omega
    have below : (if rttSample < 20 then 20 else rttSample) < 10000 := by split <;> omega
    generalize (if rttSample < 20 then 20 else rttSample) = sample at atLeast below
    split
    · rw [Int.tdiv_eq_ediv_of_nonneg (by omega)]; omega
    · rw [Int.tdiv_eq_ediv_of_nonneg (by omega)]; omega
  next => exact small

/-- `rtt_sample` after a pending packet was acknowledged: only one never resent counts. -/
def noteRtt (pkt : Protopack) (nowMs : Int) (rttSample : Int) (ppkt : RudpPendingPkt) : Int :=
  if ppkt.seq = pkt.seq ∧ ppkt.retransmitCount = 0 then nowMs - ppkt.timestamp else rttSample

def rackSweep (conn : RudpConnection) (pkt : Protopack) (nowMs : Int) :
    SwapRemove.Sweep RudpPendingPkt Int :=
  SwapRemove.sweep (fun ppkt => ppkt.seq ≤ pkt.seq) (noteRtt pkt nowMs) conn.pktsFhost (-1)

def netHandlerRack (conn : RudpConnection) (pkt : Protopack) (nowMs : Int) : RudpConnection :=
  let swept := rackSweep conn pkt nowMs
  { conn with pktsFhost := swept.items, avgRttMs := nextAvgRtt conn.avgRttMs swept.acc }

/-- A RACK removes exactly the pending packets up to its sequence number. -/
theorem netHandlerRack_pending (conn : RudpConnection) (pkt : Protopack) (nowMs : Int) :
    (netHandlerRack conn pkt nowMs).pktsFhost ~
      conn.pktsFhost.filter (fun ppkt => !decide (ppkt.seq ≤ pkt.seq)) :=
  SwapRemove.sweep_perm conn.pktsFhost (-1)

theorem mem_netHandlerRack {conn : RudpConnection} {pkt : Protopack} {nowMs : Int}
    {ppkt : RudpPendingPkt} :
    ppkt ∈ (netHandlerRack conn pkt nowMs).pktsFhost ↔
      ppkt ∈ conn.pktsFhost ∧ pkt.seq < ppkt.seq := by
  rw [(netHandlerRack_pending conn pkt nowMs).mem_iff, List.mem_filter]
  simp

/-- A RACK below every pending packet changes nothing, and any other removes something. -/
theorem netHandlerRack_eq_self {conn : RudpConnection} {pkt : Protopack} {nowMs : Int} :
    netHandlerRack conn pkt nowMs = conn ↔ ∀ ppkt ∈ conn.pktsFhost, pkt.seq < ppkt.seq := by
  constructor
  · -- a pending packet survives the sweep, so its number is beyond that of the RACK
    intro same ppkt hp
    rw [← same] at hp
    exact (mem_netHandlerRack.mp hp).2
  · intro beyond
    have nothing : ∀ ppkt ∈ conn.pktsFhost, decide (ppkt.seq ≤ pkt.seq) = false :=
      fun ppkt hp => decide_eq_false (UInt32.not_le.mpr (beyond ppkt hp))
    obtain ⟨items, acc⟩ := @SwapRemove.sweep_of_none _ _ _ (noteRtt pkt nowMs) _ nothing (-1)
    simp only [netHandlerRack, rackSweep, items, acc]
    rfl

/-! ## The handler within a connection -/

/-- `_rudp_dispatcher_net_handler` but for FIN: any other type is only reported. -/
def netHandlerConn (conn : RudpConnection) (pkt : Protopack) (nowMs : Int) :
    RudpConnection × List Protopack :=
  if pkt.packtype = ProtopackType.data.code then netHandlerData conn pkt nowMs
  else if pkt.packtype = ProtopackType.rack.code then (netHandlerRack conn pkt nowMs, [])
  else (conn, [])

theorem netHandlerConn_data {conn : RudpConnection} {pkt : Protopack} {nowMs : Int}
    (type : pkt.packtype = ProtopackType.data.code) :
    netHandlerConn conn pkt nowMs = netHandlerData conn pkt nowMs := if_pos type

theorem netHandlerConn_rack {conn : RudpConnection} {pkt : Protopack} {nowMs : Int}
    (type : pkt.packtype = ProtopackType.rack.code) :
    netHandlerConn conn pkt nowMs = (netHandlerRack conn pkt nowMs, []) := by
  have notData : pkt.packtype ≠ ProtopackType.data.code := by rw [type]; decide
  rw [netHandlerConn, if_neg notData, if_pos type]

end Soter2.Rudp
