import Mathlib.Data.List.Basic
import Mathlib.Tactic.Common
import Soter2.Library.Transition
import Soter2.Rudp.Sender

/-! # What a RACK acknowledges

The RACK branch compares sequence numbers by their raw values, while `current_seq` goes round
from 2^32 - 1 to 0.

* `rack_exact_iff` — a RACK removes what it acknowledges exactly as long as the numbers
  concerned do not go round.
-/

namespace Soter2.Rudp

open Protocol
open scoped List

/-! ## The sending side on its own -/

/-- A connection and how many packets `rudp_conn_send` accepted. -/
structure Outbound where
  conn : RudpConnection
  sent : Nat
deriving DecidableEq

inductive OutboundAction where
  | send (pkt : Protopack) (nowMs : Int)
  | rack (pkt : Protopack) (nowMs : Int)

namespace Outbound

def fresh (selfUid connUid : UInt32) (nowMs : Int) : Outbound :=
  ⟨rudpConnNew selfUid connUid nowMs, 0⟩

def step (s : Outbound) : OutboundAction → Option Outbound
  | .send pkt nowMs =>
    let (ret, conn, _) := rudpConnSend s.conn pkt nowMs
    some ⟨conn, if ret = 0 then s.sent + 1 else s.sent⟩
  | .rack pkt nowMs =>
    if pkt.packtype = ProtopackType.rack.code then
      some { s with conn := (netHandlerConn s.conn pkt nowMs).1 }
    else none

variable {s s' : Outbound}

/-- The packets accepted are numbered from 0 on, modulo 2^32. -/
def Numbered (s : Outbound) : Prop := s.conn.currentSeq = UInt32.ofNat s.sent

theorem step_numbered {a : OutboundAction} (inv : s.Numbered) (h : step s a = some s') :
    s'.Numbered := by
  cases a with
  | send pkt nowMs =>
    obtain ⟨ret, refused, eq⟩ | ⟨-, -, pending, -, -, eq⟩ := rudpConnSend_cases s.conn pkt nowMs
    · simp only [step, eq, if_neg refused, Option.some.injEq] at h
      subst h
      exact inv
    · simp only [step, eq, if_true, Option.some.injEq] at h
      subst h
      show s.conn.currentSeq + 1 = UInt32.ofNat (s.sent + 1)
      rw [Serial.ofNat_succ, ← inv]
  | rack pkt nowMs =>
    simp only [step, Option.ite_none_right_eq_some, Option.some.injEq] at h
    obtain ⟨type, rfl⟩ := h
    rw [Numbered, netHandlerConn_rack type]
    exact inv

/-- A packet that is accepted is the last of those pending. -/
theorem step_send (opened : s.conn.closed = false) (room : s.conn.pktsFhost.length < rudpSendWindow)
    (pkt : Protopack) (nowMs : Int) :
    step s (.send pkt nowMs) = some ⟨{ s.conn with
      pktsFhost := s.conn.pktsFhost ++ [pendingOf s.conn pkt nowMs]
      currentSeq := s.conn.currentSeq + 1 }, s.sent + 1⟩ := by
  simp only [step, rudpConnSend_accepted opened room, if_true]

end Outbound

/-! ## What a RACK has to do -/

/-- The oldest of `k` pending numbers that end before `current_seq`. -/
def oldestPending (conn : RudpConnection) (k : Nat) : UInt32 := conn.currentSeq - UInt32.ofNat k

/-- What is pending are the last `k` numbers, in any order. -/
structure Consecutive (conn : RudpConnection) (k : Nat) : Prop where
  few : k ≤ rudpSendWindow
  seqs : conn.pktsFhost.map (·.seq) ~ (List.range k).map
    (fun i => oldestPending conn k + UInt32.ofNat i)

/-- `a` is a number sent earlier, less than 2^31 before the oldest of the `k` pending. -/
def Stale (s : Outbound) (k : Nat) (a : UInt32) : Prop :=
  ∃ j, a = UInt32.ofNat j ∧ j + k < s.sent ∧ s.sent - k - j < 2 ^ 31

/-- A RACK for a pending number removes the packets up to it and keeps the others as they are,
    and a stale one removes nothing. -/
def RackExact (s : Outbound) (k : Nat) (pkt : Protopack) (nowMs : Int) : Prop :=
  let pending := (netHandlerConn s.conn pkt nowMs).1.pktsFhost
  (∀ i < k, pkt.seq = oldestPending s.conn k + UInt32.ofNat i →
      pending ~ s.conn.pktsFhost.filter
        (fun ppkt => i < Serial.ahead (oldestPending s.conn k) ppkt.seq)) ∧
    (Stale s k pkt.seq → pending = s.conn.pktsFhost)

/-- The numbers from the oldest pending one, or from a stale RACK, up to the last one sent
    do not go round. -/
def Unwrapped (s : Outbound) (k : Nat) (pkt : Protopack) : Prop :=
  let newest := s.conn.currentSeq - 1
  (∀ i < k, pkt.seq = oldestPending s.conn k + UInt32.ofNat i → oldestPending s.conn k ≤ newest) ∧
    (Stale s k pkt.seq → 0 < k → pkt.seq ≤ newest)

variable {conn : RudpConnection} {k : Nat} {pkt : Protopack} {nowMs : Int}

theorem oldestPending_add_last (conn : RudpConnection) (positive : 0 < k) :
    conn.currentSeq - 1 = oldestPending conn k + UInt32.ofNat (k - 1) := by
  obtain ⟨n, rfl⟩ := Nat.exists_eq_succ_of_ne_zero (Nat.ne_of_gt positive)
  rw [oldestPending, Serial.ofNat_succ, Nat.succ_sub_one]
  grind

namespace Consecutive

theorem mem (h : Consecutive conn k) {ppkt : RudpPendingPkt} (member : ppkt ∈ conn.pktsFhost) :
    ∃ i < k, ppkt.seq = oldestPending conn k + UInt32.ofNat i := by
  have image := h.seqs.mem_iff.mp (List.mem_map_of_mem (f := (·.seq)) member)
  obtain ⟨i, below, eq⟩ := List.mem_map.mp image
  exact ⟨i, List.mem_range.mp below, eq.symm⟩

theorem exists_mem (h : Consecutive conn k) {i : Nat} (below : i < k) :
    ∃ ppkt ∈ conn.pktsFhost, ppkt.seq = oldestPending conn k + UInt32.ofNat i := by
  have image : oldestPending conn k + UInt32.ofNat i ∈ conn.pktsFhost.map (·.seq) :=
    h.seqs.mem_iff.mpr (List.mem_map.mpr ⟨i, List.mem_range.mpr below, rfl⟩)
  obtain ⟨ppkt, member, eq⟩ := List.mem_map.mp image
  exact ⟨ppkt, member, eq⟩

theorem small (h : Consecutive conn k) : k < 2 ^ 31 := Nat.lt_of_le_of_lt h.few (by decide)

/-- Within the pending numbers the raw order is the order of sending, exactly if they do not
    go round: otherwise the RACK takes the last one too early or leaves the first one. -/
theorem acked_iff (h : Consecutive conn k) {i : Nat} (below : i < k)
    (acked : pkt.seq = oldestPending conn k + UInt32.ofNat i) :
    (netHandlerRack conn pkt nowMs).pktsFhost ~
        conn.pktsFhost.filter (fun ppkt => i < Serial.ahead (oldestPending conn k) ppkt.seq) ↔
      oldestPending conn k ≤ conn.currentSeq - 1 := by
  have small := h.small
  have oldestBound : (oldestPending conn k).toNat < 2 ^ 32 := (oldestPending conn k).toNat_lt
  rw [oldestPending_add_last conn (Nat.zero_lt_of_lt below), Serial.le_add_ofNat_iff (by omega)]
  constructor
  · intro exact_
    by_contra wraps
    -- being exact, the RACK sees the raw numbers in the order of the arc
    have kept : ∀ j < k, (oldestPending conn k + UInt32.ofNat i < oldestPending conn k +
        UInt32.ofNat j ↔ i < j) := by
      intro j hj
      obtain ⟨ppkt, member, seq⟩ := h.exists_mem hj
      have same := exact_.mem_iff (a := ppkt)
      rw [mem_netHandlerRack, List.mem_filter, decide_eq_true_iff, and_iff_right member,
        and_iff_right member, acked, seq, Serial.ahead_add_ofNat _ (by omega)] at same
      exact same
    -- the last number is beyond `i`, the first one is not
    have last := kept (k - 1) (by omega)
    have first := kept 0 (by omega)
    simp only [UInt32.lt_iff_toNat_lt, Serial.toNat_add_ofNat] at last first
    omega
  · intro straight
    have kept : conn.pktsFhost.filter (fun ppkt => !decide (ppkt.seq ≤ pkt.seq)) =
        conn.pktsFhost.filter (fun ppkt => i < Serial.ahead (oldestPending conn k) ppkt.seq) := by
      apply List.filter_congr
      intro ppkt member
      obtain ⟨j, hj, seq⟩ := h.mem member
      rw [← decide_not, decide_eq_decide, seq, acked, Serial.ahead_add_ofNat _ (by omega),
        UInt32.le_iff_toNat_le, Serial.toNat_add_ofNat, Serial.toNat_add_ofNat]
      omega
    rw [← kept]
    exact netHandlerRack_pending conn pkt nowMs

/-- A number before the oldest pending one is below all of them exactly if it is below the
    last one. -/
theorem stale_iff (h : Consecutive conn k) {d : Nat} (positive : 0 < k) (before : d < 2 ^ 31)
    (stale : oldestPending conn k = pkt.seq + UInt32.ofNat d) (earlier : 0 < d) :
    (netHandlerRack conn pkt nowMs).pktsFhost = conn.pktsFhost ↔ pkt.seq ≤ conn.currentSeq - 1 := by
  have small := h.small
  have last : conn.currentSeq - 1 = pkt.seq + UInt32.ofNat (d + (k - 1)) := by
    rw [oldestPending_add_last conn positive, stale, Serial.ofNat_add, UInt32.add_assoc]
  constructor
  · intro nothing
    -- the last packet stays although it is beyond the RACK as a raw number
    obtain ⟨ppkt, member, seq⟩ := h.exists_mem (i := k - 1) (by omega)
    rw [← nothing] at member
    have beyond := (mem_netHandlerRack.mp member).2
    rw [seq, ← oldestPending_add_last conn positive] at beyond
    exact UInt32.le_of_lt beyond
  · intro straight
    rw [last, Serial.le_add_ofNat_iff (by omega)] at straight
    -- no number wraps around between the RACK and the last packet
    have beyond : ∀ ppkt ∈ conn.pktsFhost, pkt.seq < ppkt.seq := by
      intro ppkt member
      obtain ⟨i, below, seq⟩ := h.mem member
      rw [seq, stale, UInt32.add_assoc, ← Serial.ofNat_add, UInt32.lt_iff_toNat_lt,
        Serial.toNat_add_ofNat]
      omega
    rw [netHandlerRack_eq_self.mpr beyond]

end Consecutive

/-- In every state that sends and RACKs lead to, with the last `k` numbers pending: a RACK is
    exact if and only if the numbers concerned do not go round. -/
theorem rack_exact_iff (selfUid connUid : UInt32) (startMs : Int) (as : List OutboundAction)
    (s : Outbound)
    (reached : Transition.run Outbound.step (Outbound.fresh selfUid connUid startMs) as = some s)
    (k : Nat) (consecutive : Consecutive s.conn k) (pkt : Protopack)
    (type : pkt.packtype = ProtopackType.rack.code) (nowMs : Int) :
    RackExact s k pkt nowMs ↔ Unwrapped s k pkt := by
  have start : (Outbound.fresh selfUid connUid startMs).Numbered := rfl
  have numbered : s.Numbered := Transition.run_invariant (fun _ _ _ => Outbound.step_numbered) start
    reached
  simp only [RackExact, Unwrapped, netHandlerConn_rack type]
  refine and_congr ?_ (forall_congr' fun stale => ?_)
  · exact forall_congr' fun i => forall_congr' fun below => forall_congr' fun acked =>
      consecutive.acked_iff below acked
  · obtain ⟨j, number, earlier, near⟩ := stale
    have oldest : oldestPending s.conn k = pkt.seq + UInt32.ofNat (s.sent - k - j) := by
      have total : s.sent = j + (s.sent - k - j) + k := by omega
      rw [oldestPending, numbered, number]
      conv_lhs => rw [total, Serial.ofNat_add, Serial.ofNat_add]
      grind
    cases k with
    | zero =>
      -- nothing is pending
      have empty : s.conn.pktsFhost = [] := by simpa using consecutive.seqs
      refine iff_of_true ?_ fun none => absurd none (Nat.lt_irrefl 0)
      rw [netHandlerRack_eq_self.mpr (by simp [empty])]
    | succ k =>
      rw [consecutive.stale_iff (Nat.succ_pos k) near oldest (by omega),
        forall_prop_of_true (Nat.succ_pos k)]

def emptyPack : Protopack := ⟨0, 0, 0, 1, 2, ProtopackType.data.code, []⟩

def rackFor (seq : UInt32) : Protopack := ⟨seq, 0, 0, 2, 1, ProtopackType.rack.code, []⟩

/-- Two packets are sent, and the first one is acknowledged. -/
def twoSends : List OutboundAction := [.send emptyPack 0, .send emptyPack 0]

theorem rack_exact_iff_twoSends :
    ∃ s, Transition.run Outbound.step (Outbound.fresh 1 2 0) twoSends = some s ∧
      Consecutive s.conn 2 ∧
      (RackExact s 2 (rackFor 0) 5 ↔ Unwrapped s 2 (rackFor 0)) := by
  have both : ∀ s, Transition.run Outbound.step (Outbound.fresh 1 2 0) twoSends = some s →
      Consecutive s.conn 2 := by
    intro s reached
    cases reached
    exact ⟨Nat.succ_le_succ (Nat.succ_le_succ (Nat.zero_le _)), List.Perm.refl [0, 1]⟩
  exact ⟨_, rfl, both _ rfl, rack_exact_iff 1 2 0 twoSends _ rfl 2 (both _ rfl) (rackFor 0) rfl 5⟩

/-! ## Where the numbers go round -/

namespace Outbound

/-- Nothing is pending after `n` packets. -/
structure Idle (s : Outbound) (n : Nat) : Prop where
  opened : s.conn.closed = false
  pending : s.conn.pktsFhost = []
  next : s.conn.currentSeq = UInt32.ofNat n
  sent : s.sent = n

variable {s : Outbound} {n : Nat}

theorem Idle.room (idle : s.Idle n) : s.conn.pktsFhost.length < rudpSendWindow := by
  rw [idle.pending]
  exact Nat.zero_lt_succ _

/-- A packet is sent and acknowledged. -/
theorem Idle.exchange (idle : s.Idle n) :
    ∃ t, Transition.run step s [.send emptyPack 0, .rack (rackFor s.conn.currentSeq) 0] = some t ∧
      t.Idle (n + 1) := by
  refine ⟨_, Transition.run_cons.mpr ⟨_, step_send idle.opened idle.room emptyPack 0, rfl⟩, ?_⟩
  rw [netHandlerConn_rack rfl]
  refine ⟨idle.opened, ?_, ?_, ?_⟩
  · -- the packet is the only one, and the RACK is for it
    apply List.eq_nil_iff_forall_not_mem.mpr
    intro ppkt member
    obtain ⟨before, beyond⟩ := mem_netHandlerRack.mp member
    rw [idle.pending, List.nil_append, List.mem_singleton] at before
    rw [before] at beyond
    exact UInt32.lt_irrefl _ beyond
  · show s.conn.currentSeq + 1 = UInt32.ofNat (n + 1)
    rw [Serial.ofNat_succ, idle.next]
  · show s.sent + 1 = n + 1
    rw [idle.sent]

theorem idle_reached (selfUid connUid : UInt32) (startMs : Int) (n : Nat) :
    ∃ as s, Transition.run step (fresh selfUid connUid startMs) as = some s ∧ s.Idle n := by
  induction n with
  | zero => exact ⟨[], _, rfl, rfl, rfl, rfl, rfl⟩
  | succ n ih =>
    obtain ⟨as, s, reached, idle⟩ := ih
    obtain ⟨t, more, idle'⟩ := idle.exchange
    exact ⟨as ++ _, t, Transition.run_append.mpr ⟨s, reached, more⟩, idle'⟩

theorem Idle.two_sends (idle : s.Idle n) :
    ∃ t, Transition.run step s twoSends = some t ∧
      t.conn.pktsFhost.map (·.seq) = [UInt32.ofNat n, UInt32.ofNat n + 1] ∧
      t.conn.currentSeq = UInt32.ofNat n + 1 + 1 := by
  obtain ⟨t, sends, opened, pending, current⟩ : ∃ t, step s (.send emptyPack 0) = some t ∧
    t.conn.closed = false ∧
      t.conn.pktsFhost = [pendingOf s.conn emptyPack 0] ∧
        t.conn.currentSeq = s.conn.currentSeq + 1 :=
    ⟨_, step_send idle.opened idle.room emptyPack 0, idle.opened, by simp [idle.pending], rfl⟩
  have room : t.conn.pktsFhost.length < rudpSendWindow := by
    rw [pending]
    exact Nat.succ_lt_succ (Nat.zero_lt_succ _)
  refine ⟨_,
    Transition.run_cons.mpr ⟨t, sends,
      Transition.run_cons.mpr ⟨_, step_send opened room emptyPack 0, rfl⟩⟩, ?_, ?_⟩
  · rw [pending, ← idle.next, ← current]
    rfl
  · rw [← idle.next, ← current]

end Outbound

/-- The numbers 2^32 - 1 and 0 are pending, and the RACK for the first one removes both. -/
theorem rack_removes_unacknowledged :
    ∃ as s, Transition.run Outbound.step (Outbound.fresh 1 2 0) as = some s ∧ Consecutive s.conn 2 ∧
      s.conn.pktsFhost.map (·.seq) = [0xFFFFFFFF, 0] ∧
      (netHandlerConn s.conn (rackFor 0xFFFFFFFF) 0).1.pktsFhost = [] ∧
      ¬ RackExact s 2 (rackFor 0xFFFFFFFF) 0 := by
  obtain ⟨as, s, reached, idle⟩ := Outbound.idle_reached 1 2 0 (2 ^ 32 - 1)
  obtain ⟨t, more, seqs, current⟩ := idle.two_sends
  have run := Transition.run_append.mpr ⟨s, reached, more⟩
  have seqs : t.conn.pktsFhost.map (·.seq) = [0xFFFFFFFF, 0] := seqs
  have current : t.conn.currentSeq = 1 := current
  have oldest : oldestPending t.conn 2 = 0xFFFFFFFF := by
    rw [oldestPending, current]
    rfl
  have consecutive : Consecutive t.conn 2 := by
    refine ⟨Nat.succ_le_succ (Nat.succ_le_succ (Nat.zero_le _)), ?_⟩
    rw [seqs, oldest]
    exact List.Perm.refl _
  -- no number is beyond 2^32 - 1
  have gone : (netHandlerRack t.conn (rackFor 0xFFFFFFFF) 0).pktsFhost = [] := by
    apply List.eq_nil_iff_forall_not_mem.mpr
    intro ppkt member
    obtain ⟨-, beyond⟩ := mem_netHandlerRack.mp member
    exact absurd beyond
      (UInt32.not_lt.mpr (UInt32.le_iff_toNat_le.mpr (Nat.le_of_lt_succ ppkt.seq.toNat_lt)))
  refine ⟨_, t, run, consecutive, seqs, ?_, ?_⟩
  · rw [netHandlerConn_rack rfl, gone]
  · intro exact_
    have acked : (rackFor 0xFFFFFFFF).seq = oldestPending t.conn 2 + UInt32.ofNat 0 := by
      rw [oldest]
      rfl
    have removes := exact_.1 0 (Nat.zero_lt_succ 1) acked
    rw [netHandlerConn_rack rfl] at removes
    have straight := (consecutive.acked_iff (Nat.zero_lt_succ 1) acked).mp removes
    rw [oldest, current] at straight
    exact absurd straight (by decide)

end Soter2.Rudp
