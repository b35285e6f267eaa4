import Mathlib.Data.List.Basic
import Mathlib.Tactic.Common
import Soter2.Library.Transition
import Soter2.Rudp.Receiver
import Soter2.Rudp.Sender

/-! # One end of a session, until it is closed

The network hands an end any packets at all; the application sends, receives and closes as
it likes.  A FIN or `rudp_close_conncetion` frees the connection with its queues, and
`_rudp_conn_timeouts` marks it as closed: `rudp_conn_recv` returns nothing from then on.

* `acknowledged_retrievable` — until then, what was acknowledged can be received.
-/

namespace Soter2.Rudp

open Protocol
open scoped List

/-- A RACK that was sent. -/
structure Rack where
  seq : UInt32
  /-- How many packets were appended to `pkts_reordered` by then. -/
  upTo : Nat
deriving DecidableEq

/-- The connection that `rudp_est_connection` returned, as long as the dispatcher has it in
    its table, and the history of what came in and went out. -/
structure Endpoint where
  conn : RudpConnection
  registered : Bool
  received : List Protopack
  taken : List Protopack
  racks : List Rack
deriving DecidableEq

inductive EndpointAction where
  | send (pkt : Protopack) (nowMs : Int)
  | timeouts (nowMs : Int)
  | arrives (pkt : Protopack) (nowMs : Int)
  | close
  | recv

/-- What that many calls of `rudp_conn_recv` return. -/
def rudpConnRecvs : Nat → RudpConnection → List Protopack
  | 0, _ => []
  | calls + 1, conn =>
    let (_, pkt, conn) := rudpConnRecv conn
    pkt.toList ++ rudpConnRecvs calls conn

namespace Endpoint

def fresh (selfUid connUid : UInt32) (nowMs : Int) : Endpoint :=
  ⟨rudpConnNew selfUid connUid nowMs, true, [], [], []⟩

/-- `rudp_close_conncetion`.  The memory is freed; the application can only read from it that
    the connection is closed. -/
def close (s : Endpoint) : Endpoint :=
  { s with conn := (rudpConnClose s.conn).1, registered := false }

/-- `_rudp_dispatcher_net_handler`. -/
def handle (s : Endpoint) (pkt : Protopack) (nowMs : Int) : Endpoint :=
  if pkt.packtype = ProtopackType.fin.code then s.close
  else
    let (conn, out) := netHandlerConn s.conn pkt nowMs
    { s with
      conn := conn
      received := if pkt.packtype = ProtopackType.data.code then s.received ++ [pkt] else s.received
      racks := s.racks ++ out.map fun msg => ⟨msg.seq, (appended s.taken conn).length⟩ }

def step (s : Endpoint) : EndpointAction → Option Endpoint
  | .send pkt nowMs => some { s with conn := (rudpConnSend s.conn pkt nowMs).2.1 }
  | .timeouts nowMs =>
    some (if s.registered then { s with conn := (rudpConnTimeouts s.conn nowMs).2.1 } else s)
  | .arrives pkt nowMs => some (if s.registered then s.handle pkt nowMs else s)
  | .close => some (if s.registered then s.close else s)
  | .recv =>
    let (_, pkt, conn) := rudpConnRecv s.conn
    some { s with conn := conn, taken := s.taken ++ pkt.toList }

/-! ## While the connection is open -/

/-- Every RACK names the last of the packets appended by then. -/
structure OpenInv (s : Endpoint) : Prop where
  receiver : ReceiverInv s.received s.taken s.conn
  racks : ∀ r ∈ s.racks, 0 < r.upTo ∧ r.seq = UInt32.ofNat (r.upTo - 1) ∧
    r.upTo ≤ (appended s.taken s.conn).length

structure Inv (s : Endpoint) : Prop where
  opened : s.conn.closed = false → OpenInv s
  ordered : ∀ k p, s.taken[k]? = some p → p.seq = UInt32.ofNat k

variable {s s' : Endpoint}

theorem OpenInv.ordered (h : OpenInv s) {k : Nat} {p : Protopack} (at_ : s.taken[k]? = some p) :
    p.seq = UInt32.ofNat k := by
  apply h.receiver.numbered k p
  obtain ⟨inside, -⟩ := List.getElem?_eq_some_iff.mp at_
  rw [appended, List.getElem?_append_left inside, at_]

theorem fresh_inv (selfUid connUid : UInt32) (nowMs : Int) : (fresh selfUid connUid nowMs).Inv where
  opened := fun _ => ⟨rudpConnNew_inv selfUid connUid nowMs, by simp [fresh]⟩
  ordered := by simp [fresh]

/-- Nothing is promised of a closed connection but what was taken from it before. -/
theorem close_inv (inv : s.Inv) : s.close.Inv where
  opened := fun opened => absurd opened (by simp [close, rudpConnClose])
  ordered := inv.ordered

/-- What leaves the receiving side alone keeps the invariant, while the connection is open. -/
theorem OpenInv.congr {conn : RudpConnection} (h : OpenInv s)
    (buffer : conn.pktsReorderBuf = s.conn.pktsReorderBuf) (net : conn.pktsNet = s.conn.pktsNet)
    (ordered : conn.pktsReordered = s.conn.pktsReordered)
    (last : conn.lastRecvedSeq = s.conn.lastRecvedSeq) : OpenInv { s with conn := conn } where
  receiver := h.receiver.congr buffer net ordered last
  racks := by
    simp only [appended, ordered]
    exact h.racks

theorem send_inv (inv : s.Inv) (pkt : Protopack) (nowMs : Int) :
    Inv { s with conn := (rudpConnSend s.conn pkt nowMs).2.1 } := by
  obtain ⟨ret, -, eq⟩ | ⟨-, -, pending, -, -, eq⟩ := rudpConnSend_cases s.conn pkt nowMs
  · rw [eq]
    exact inv
  · rw [eq]
    exact ⟨fun opened => (inv.opened opened).congr rfl rfl rfl rfl, inv.ordered⟩

/-- A timeout either closes the connection or leaves its receiving side alone. -/
theorem timeouts_inv (inv : s.Inv) (nowMs : Int) :
    Inv { s with conn := (rudpConnTimeouts s.conn nowMs).2.1 } := by
  have loop := timeoutsLoop_inv s.conn nowMs
  simp only [rudpConnTimeouts]
  generalize timeoutsLoop s.conn nowMs = l at loop
  refine ⟨fun opened => ?_, inv.ordered⟩
  -- the connection is still open, so the cap was not hit
  have going : l.capped = false := by
    cases capped : l.capped with
    | false => rfl
    | true => exact absurd ((loop.stopped capped).1.symm.trans opened) (by decide)
  have before := inv.opened ((loop.running going).1.symm.trans opened)
  rw [loop.frame]
  exact before.congr rfl rfl rfl rfl

/-- A DATA packet that is handled adds at most one RACK, for the last packet appended. -/
theorem data_inv (h : OpenInv s) (pkt : Protopack) (nowMs : Int) :
    OpenInv { s with
      conn := (netHandlerData s.conn pkt nowMs).1
      received := s.received ++ [pkt]
      racks := s.racks ++ (netHandlerData s.conn pkt nowMs).2.map fun msg =>
        ⟨msg.seq, (appended s.taken (netHandlerData s.conn pkt nowMs).1).length⟩ } where
  receiver := netHandlerData_inv h.receiver pkt nowMs
  racks := by
    intro r hr
    cases List.mem_append.mp hr with
    | inl old =>
      -- what was appended before is still there
      obtain ⟨positive, seq, below⟩ := h.racks r old
      exact ⟨positive, seq, below.trans
        (appended_grows s.taken (netHandlerData_delivered s.conn pkt nowMs))⟩
    | inr new =>
      obtain ⟨msg, sends, rfl⟩ := List.mem_map.mp new
      obtain ⟨-, positive, seq⟩ := netHandlerData_names_last
        (netHandlerData_inv h.receiver pkt nowMs).expected sends
      exact ⟨positive, seq, Nat.le_refl _⟩

theorem handle_inv (inv : s.Inv) (pkt : Protopack) (nowMs : Int) : (s.handle pkt nowMs).Inv := by
  rw [handle]
  by_cases fin : pkt.packtype = ProtopackType.fin.code
  · rw [if_pos fin]
    exact close_inv inv
  · rw [if_neg fin]
    refine ⟨fun opened => ?_, inv.ordered⟩
    by_cases data : pkt.packtype = ProtopackType.data.code
    · -- handling DATA does not close, so the connection was open before
      simp only [netHandlerConn_data data, if_pos data] at opened ⊢
      obtain ⟨-, -, same⟩ := netHandlerData_sending s.conn pkt nowMs
      exact data_inv (inv.opened (same.symm.trans opened)) pkt nowMs
    · by_cases rack : pkt.packtype = ProtopackType.rack.code
      · simp only [netHandlerConn_rack rack, if_neg data, List.map_nil, List.append_nil] at opened ⊢
        exact (inv.opened opened).congr rfl rfl rfl rfl
      · simp only [netHandlerConn, if_neg data, if_neg rack, List.map_nil,
          List.append_nil] at opened ⊢
        exact inv.opened opened

theorem recv_inv {conn : RudpConnection} {pkt : Protopack} {rest : List Protopack} (inv : s.Inv)
    (opened : s.conn.closed = false) (queue : s.conn.pktsReordered = pkt :: rest)
    (popped : conn = { s.conn with pktsReordered := rest }) :
    Inv { s with conn := conn, taken := s.taken ++ [pkt] } := by
  subst popped
  have before := inv.opened opened
  have same : appended (s.taken ++ [pkt]) { s.conn with pktsReordered := rest }
    = appended s.taken s.conn := by
    simp [appended, queue]
  have after : OpenInv { s with
        conn := { s.conn with pktsReordered := rest }
        taken := s.taken ++ [pkt] } := by
    refine ⟨Rudp.recv_inv before.receiver queue, ?_⟩
    rw [same]
    exact before.racks
  exact ⟨fun _ => after, fun _ _ => after.ordered⟩

theorem step_inv {a : EndpointAction} (inv : s.Inv) (h : step s a = some s') : s'.Inv := by
  cases a with
  | send pkt nowMs => cases h; exact send_inv inv pkt nowMs
  | timeouts nowMs =>
    cases h
    split
    · exact timeouts_inv inv nowMs
    · exact inv
  | arrives pkt nowMs =>
    cases h
    split
    · exact handle_inv inv pkt nowMs
    · exact inv
  | close =>
    cases h
    split
    · exact close_inv inv
    · exact inv
  | recv =>
    simp only [step, Option.some.injEq] at h
    subst h
    obtain ⟨pkt, rest, opened, queue, popped⟩ | ⟨ret, same⟩ := rudpConnRecv_cases s.conn
    · rw [popped]
      exact recv_inv inv opened queue rfl
    · rw [same]
      -- nothing was there to take
      simpa only [Option.toList_none, List.append_nil] using inv

end Endpoint

/-! ## What can be received -/

theorem rudpConnRecvs_open {conn : RudpConnection} (opened : conn.closed = false) (calls : Nat) :
    rudpConnRecvs calls conn = conn.pktsReordered.take calls := by
  induction calls generalizing conn with
  | zero => rfl
  | succ calls ih =>
    cases queue : conn.pktsReordered with
    | nil => simpa [rudpConnRecvs, rudpConnRecv, opened, queue] using ih opened
    | cons pkt rest =>
      have popped : rudpConnRecv conn = (0, some pkt, { conn with pktsReordered := rest }) := by
        simp [rudpConnRecv, opened, queue]
      have others : rudpConnRecvs calls { conn with pktsReordered := rest } = rest.take calls :=
        ih opened
      simp only [rudpConnRecvs, popped, Option.toList_some, List.take_succ_cons,
        List.singleton_append, others]

theorem rudpConnRecvs_closed {conn : RudpConnection} (closed : conn.closed = true) (calls : Nat) :
    rudpConnRecvs calls conn = [] := by
  induction calls with
  | zero => rfl
  | succ calls ih =>
    have refused : rudpConnRecv conn = (enotconn, none, conn) := if_pos closed
    simp only [rudpConnRecvs, refused, Option.toList_none, List.nil_append, ih]

namespace Endpoint

/-- Whatever the network and the application do: as long as the connection is open, all
    packets up to a RACK that was sent were returned by `rudp_conn_recv` or are returned by
    its next calls, in order.  What it returned is in order at all times, and a closed
    connection returns nothing more. -/
theorem acknowledged_retrievable (selfUid connUid : UInt32) (startMs : Int)
    (as : List EndpointAction) (s : Endpoint)
    (reached : Transition.run step (fresh selfUid connUid startMs) as = some s) :
    (s.conn.closed = false → ∀ r ∈ s.racks, r.seq = UInt32.ofNat (r.upTo - 1) ∧ 0 < r.upTo ∧
      ∃ calls, ∀ k < r.upTo, ∃ p ∈ s.received,
        (s.taken ++ rudpConnRecvs calls s.conn)[k]? = some p ∧ p.seq = UInt32.ofNat k) ∧
    (∀ k p, s.taken[k]? = some p → p.seq = UInt32.ofNat k) ∧
    (s.conn.closed = true → ∀ calls, rudpConnRecvs calls s.conn = []) := by
  have inv : s.Inv := Transition.run_invariant (fun _ _ _ => step_inv)
    (fresh_inv selfUid connUid startMs) reached
  refine ⟨?_, inv.ordered, rudpConnRecvs_closed⟩
  intro opened r hr
  obtain ⟨receiver, racks⟩ := inv.opened opened
  obtain ⟨positive, seq, below⟩ := racks r hr
  -- as many calls as packets wait take them all
  refine ⟨seq, positive, s.conn.pktsReordered.length, ?_⟩
  rw [rudpConnRecvs_open opened, List.take_length]
  intro k hk
  have there := List.getElem?_eq_getElem (Nat.lt_of_lt_of_le hk below)
  exact ⟨_, receiver.mem_received (.inl (List.mem_of_getElem? there)), there,
    receiver.numbered k _ there⟩

def sampleFin : Protopack :=
  { seq := 0, chsum := 0, dSize := 0, hFrom := 2, hTo := 1, packtype := ProtopackType.fin.code,
    data := [] }

/-- Packet 1 overtakes packet 0, and one of the two is read. -/
def overtaken : List EndpointAction :=
  [.arrives (Receiver.emptyData 1) 10, .arrives (Receiver.emptyData 0) 20, .recv]

theorem acknowledged_retrievable_overtaken :
    ∃ s, Transition.run step (fresh 1 2 0) overtaken = some s ∧ s.racks = [⟨1, 2⟩] ∧
      (s.conn.closed = false → ∀ r ∈ s.racks, r.seq = UInt32.ofNat (r.upTo - 1) ∧ 0 < r.upTo ∧
        ∃ calls, ∀ k < r.upTo, ∃ p ∈ s.received,
          (s.taken ++ rudpConnRecvs calls s.conn)[k]? = some p ∧ p.seq = UInt32.ofNat k) ∧
      (∀ k p, s.taken[k]? = some p → p.seq = UInt32.ofNat k) ∧
      (s.conn.closed = true → ∀ calls, rudpConnRecvs calls s.conn = []) :=
  ⟨_, rfl, rfl, acknowledged_retrievable 1 2 0 overtaken _ rfl⟩

/-- A packet goes out and is never acknowledged, and another comes in. -/
def unanswered : List EndpointAction :=
  .send (Receiver.emptyData 0) 0 :: .arrives (Receiver.emptyData 0) 5 ::
    (List.range 11).map fun i => .timeouts (10000 * (i + 1))

/-- Packet 0 was acknowledged and not read, and cannot be read any more: after a FIN, and
    after the retransmission cap was hit. -/
theorem acknowledged_lost :
    (∃ s, Transition.run step (fresh 1 2 0)
      [.arrives (Receiver.emptyData 0) 5, .arrives sampleFin 6] = some s ∧
      s.racks = [⟨0, 1⟩] ∧ s.taken = [] ∧ ∀ calls, rudpConnRecvs calls s.conn = []) ∧
    ∃ s, Transition.run step (fresh 1 2 0) unanswered = some s ∧
      s.racks = [⟨0, 1⟩] ∧ s.taken = [] ∧ ∀ calls, rudpConnRecvs calls s.conn = [] :=
  ⟨⟨_, rfl, rfl, rfl, rudpConnRecvs_closed rfl⟩, ⟨_, rfl, rfl, rfl, rudpConnRecvs_closed rfl⟩⟩

end Endpoint

end Soter2.Rudp
