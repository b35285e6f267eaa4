import Mathlib.Data.List.Basic
import Mathlib.Tactic.Common
import Soter2.Library.Loop
import Soter2.Library.Serial
import Soter2.Library.SwapRemove
import Soter2.Library.UniqueInsert
import Soter2.Protocol.Packet

/-! # RUDP connections (`rudp/src/connection.c`, `rudp/src/packets.c`)

A connection owns four containers: the pending packets of the sending side
(`pktsFhost`, in no particular order), and on the receiving side the queue of packets
from the network, the buffer they are ordered in, and the queue they are delivered from.
What a function hands to `pvd_sender_send` is returned as its list `out`; the clock is an
argument.  Event sockets, the address and the counters nothing reads are left out.
-/

namespace Soter2.Rudp

open Protocol

def rudpRetransmissionCap : Nat := 10

def rudpReorderWindow : Nat := 128

def rudpSendWindow : Nat := 128

def uint32Max : UInt32 := 0xFFFFFFFF

def enotconn : Int := 107

def eagain : Int := 11

inductive RudpPktState where
  | inited
  | sent
  | acked
  | lost
deriving DecidableEq, Repr

structure RudpPendingPkt where
  seq : UInt32
  timestamp : Int
  copyPack : Protopack
  state : RudpPktState
  retransmitCount : Nat
  sendTimestamp : Int
deriving DecidableEq, Repr

/-- `rudp_pkt_make`. The send time is not set here; `rudp_conn_send` sets it. -/
def rudpPktMake (pack : Protopack) (state : RudpPktState) (seq : UInt32) (nowMs : Int) :
    RudpPendingPkt :=
  { seq := seq, timestamp := nowMs, copyPack := pack, state := state, retransmitCount := 0,
    sendTimestamp := nowMs }

structure RudpConnection where
  sUid : UInt32
  cUid : UInt32
  pktsReorderBuf : List Protopack
  pktsFhost : List RudpPendingPkt
  pktsNet : List Protopack
  pktsReordered : List Protopack
  currentSeq : UInt32
  lastRecvedSeq : UInt32
  lastAckSentSeq : UInt32
  packetsSinceAck : UInt32
  lastAckTimestamp : Int
  ackThreshold : UInt32
  ackTimeoutMs : Int
  avgRttMs : Int
  closed : Bool
deriving DecidableEq, Repr

def rudpConnNew (selfUid connUid : UInt32) (nowMs : Int) : RudpConnection where
  sUid := selfUid
  cUid := connUid
  pktsReorderBuf := []
  pktsFhost := []
  pktsNet := []
  pktsReordered := []
  currentSeq := 0
  lastRecvedSeq := uint32Max
  lastAckSentSeq := uint32Max
  packetsSinceAck := 0
  lastAckTimestamp := nowMs
  ackThreshold := 2
  ackTimeoutMs := 2000
  avgRttMs := 250
  closed := false

/-- `rudp_conn_close`: the containers are emptied and the peer is sent two FINs. -/
def rudpConnClose (conn : RudpConnection) : RudpConnection × List Protopack :=
  let finPkt := (protoMsgQuick conn.sUid conn.cUid conn.currentSeq .fin).toList
  ({ conn with
      pktsNet := []
      pktsReordered := []
      pktsReorderBuf := []
      pktsFhost := []
      closed := true },
    finPkt ++ finPkt)

/-! ## Interface -/

/-- `rudp_conn_send`: the return value, the connection and what goes out. -/
def rudpConnSend (conn : RudpConnection) (pkt : Protopack) (nowMs : Int) :
    Int × RudpConnection × List Protopack :=
  if conn.closed then (enotconn, conn, [])
  else if conn.pktsFhost.length ≥ rudpSendWindow then (eagain, conn, [])
  else
    -- whatever number the caller left in the packet is overwritten
    let packCopy := { udpCopyPack pkt with seq := conn.currentSeq }
    let pending := { rudpPktMake packCopy .inited conn.currentSeq nowMs with
      state := .sent
      sendTimestamp := nowMs }
    (0,
      { conn with
        pktsFhost := conn.pktsFhost ++ [pending]
        currentSeq := conn.currentSeq + 1 },
      [packCopy])

/-- `rudp_conn_recv`: the packet popped, beside the return value. -/
def rudpConnRecv (conn : RudpConnection) : Int × Option Protopack × RudpConnection :=
  if conn.closed then (enotconn, none, conn)
  else
    match conn.pktsReordered with
    | [] => (-1, none, conn)
    | pkt :: rest => (0, some pkt, { conn with pktsReordered := rest })

/-- `rudp_conn_inflight`, where `none` stands for `SIZE_MAX`. -/
def rudpConnInflight (conn : RudpConnection) : Option Nat :=
  if conn.closed then none else some conn.pktsFhost.length

/-! ## Reordering -/

def rudpConnPassNet (conn : RudpConnection) (pkt : Protopack) : RudpConnection :=
  { conn with pktsNet := conn.pktsNet ++ [pkt] }

/-- The sequence number to be delivered next, as the code computes it in three places. -/
def expectedSeq (conn : RudpConnection) : UInt32 :=
  if conn.lastRecvedSeq = uint32Max then 0 else conn.lastRecvedSeq + 1

/-- The reorder buffer is searched by the raw value of the sequence number. -/
def seqKey (pkt : Protopack) : Nat := pkt.seq.toNat

/-- One turn of the first loop of `_rudp_conn_reordering`. -/
def reorderPop (conn : RudpConnection) : Option RudpConnection :=
  match conn.pktsNet with
  | [] => none
  | pkt :: rest =>
    let diff := Serial.signedDiff pkt.seq (expectedSeq conn)
    if diff < 0 ∨ diff > rudpReorderWindow then some { conn with pktsNet := rest }
    else
      -- a duplicate is freed: `insert` leaves the buffer as it was
      some { conn with
        pktsNet := rest
        pktsReorderBuf := UniqueInsert.insert seqKey pkt conn.pktsReorderBuf }

/-- One turn of its second loop. -/
def reorderDrain (conn : RudpConnection) : Option RudpConnection :=
  match conn.pktsReorderBuf with
  | [] => none
  | p :: rest =>
    if p.seq = expectedSeq conn then
      some { conn with
        lastRecvedSeq := p.seq
        pktsReorderBuf := rest
        pktsReordered := conn.pktsReordered ++ [p] }
    else none

def reorderIntake (conn : RudpConnection) : RudpConnection :=
  Loop.run reorderPop conn.pktsNet.length conn

def rudpConnReordering (conn : RudpConnection) : RudpConnection :=
  Loop.run reorderDrain (reorderIntake conn).pktsReorderBuf.length (reorderIntake conn)

/-- Every state of the connection during `_rudp_conn_reordering`. -/
def reorderingMoments (conn : RudpConnection) : List RudpConnection :=
  Loop.moments reorderPop conn.pktsNet.length conn ++
    Loop.moments reorderDrain (reorderIntake conn).pktsReorderBuf.length (reorderIntake conn)

/-! ## Timeouts -/

/-- `avg_rtt_ms * (1.5 + retransmit_count)`, which is exact in a double, cut to an integer. -/
def backoffMs (conn : RudpConnection) (pkt : RudpPendingPkt) : Int :=
  (conn.avgRttMs * (3 + 2 * (pkt.retransmitCount : Int))).tdiv 2

/-- The loop of `_rudp_conn_timeouts`; `capped` is set where it returns -1. -/
structure TimeoutsLoop where
  i : Nat
  conn : RudpConnection
  out : List Protopack
  capped : Bool

def timeoutsBody (nowMs : Int) (s : TimeoutsLoop) : Option TimeoutsLoop :=
  if s.capped then none
  else
    match s.conn.pktsFhost[s.i]? with
    | none => none
    | some pkt =>
      if pkt.retransmitCount ≥ rudpRetransmissionCap then
        -- the packet is given up, and the connection with it
        some { s with
          conn := { s.conn with
            pktsFhost := SwapRemove.swapRemove s.conn.pktsFhost s.i
            closed := true }
          capped := true }
      else if nowMs - pkt.timestamp ≥ backoffMs s.conn pkt then
        some { s with
          i := s.i + 1
          conn := { s.conn with
            pktsFhost := s.conn.pktsFhost.set s.i { pkt with
              timestamp := nowMs
              retransmitCount := pkt.retransmitCount + 1 } }
          out := s.out ++ [pkt.copyPack] }
      else some { s with i := s.i + 1 }

-- a turn moves on or stops the loop, so one turn for every pending packet is enough
def timeoutsLoop (conn : RudpConnection) (nowMs : Int) : TimeoutsLoop :=
  Loop.run (timeoutsBody nowMs) conn.pktsFhost.length ⟨0, conn, [], false⟩

def rudpConnTimeouts (conn : RudpConnection) (nowMs : Int) :
    Int × RudpConnection × List Protopack :=
  let s := timeoutsLoop conn nowMs
  (if s.capped then -1 else 0, s.conn, s.out)

end Soter2.Rudp
