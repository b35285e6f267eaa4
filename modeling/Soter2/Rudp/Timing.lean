import Mathlib.Data.List.Basic
import Mathlib.Tactic.Common
import Soter2.Rudp.Parameters
import Soter2.Rudp.Timeouts

/-! # The timing parameters of a connection

`avg_rtt_ms` is a smoothed average of samples that are cut to a range, `ack_threshold` is
clamped, and a pending packet is resent only below the cap.  So all three stay in their
ranges whatever the clock does.

* `timing_in_range` — the ranges in every state of every run, and of the back-off.
-/

namespace Soter2.Rudp

open Protocol
open scoped List

structure InRange (conn : RudpConnection) : Prop where
  rtt : 20 ≤ conn.avgRttMs ∧ conn.avgRttMs < 10000
  threshold : 2 ≤ conn.ackThreshold ∧ conn.ackThreshold ≤ 16
  counts : ∀ pkt ∈ conn.pktsFhost, pkt.retransmitCount ≤ rudpRetransmissionCap

variable {conn conn' : RudpConnection}

/-! ## The two averages -/

/-- The two parameters are in range. -/
def Tuned (conn : RudpConnection) : Prop :=
  (20 ≤ conn.avgRttMs ∧ conn.avgRttMs < 10000) ∧ 2 ≤ conn.ackThreshold ∧ conn.ackThreshold ≤ 16

theorem Tuned.retimed (h : Tuned conn) (r : Retimed conn conn') : Tuned conn' := by
  constructor
  · obtain same | ⟨sample, next⟩ := r.rtt
    · rw [same]
      exact h.1
    · rw [next]
      exact ⟨nextAvgRtt_ge _ h.1.1, nextAvgRtt_lt _ h.1.1 h.1.2⟩
  · obtain same | ⟨rttMs, count, next⟩ := r.threshold
    · rw [same]
      exact h.2
    · rw [next]
      exact ⟨nextAckThreshold_ge _ _ _, nextAckThreshold_le _ _ _⟩

namespace Endpoint

variable {s s' : Endpoint} {a : EndpointAction}

theorem step_retimed (next : step s a = some s') : Retimed s.conn s'.conn := by
  cases a with
  | send pkt nowMs =>
    cases next
    exact .send s.conn pkt nowMs
  | timeouts nowMs =>
    cases next
    split
    · exact .timeouts s.conn nowMs
    · exact .refl s.conn
  | arrives pkt nowMs =>
    cases next
    split
    · rw [handle]
      split
      · exact .close s.conn
      · exact .handled s.conn pkt nowMs
    · exact .refl s.conn
  | close =>
    cases next
    split
    · exact .close s.conn
    · exact .refl s.conn
  | recv =>
    simp only [step, Option.some.injEq] at next
    subst next
    exact .recv s.conn

theorem run_inRange {selfUid connUid : UInt32} {startMs : Int} {as : List EndpointAction}
    (reached : Transition.run step (fresh selfUid connUid startMs) as = some s) :
    InRange s.conn := by
  have start : Tuned (fresh selfUid connUid startMs).conn := by
    rw [Tuned]
    exact ⟨⟨by show (20 : Int) ≤ 250; decide, by show (250 : Int) < 10000; decide⟩, by
      show (2 : UInt32) ≤ 2; decide, by show (2 : UInt32) ≤ 16; decide⟩
  have tuned := Transition.run_invariant (I := fun s : Endpoint => Tuned s.conn)
    (fun _ _ _ tuned next => tuned.retimed (step_retimed next)) start reached
  exact ⟨tuned.1, tuned.2, (run_withinCap reached).counts⟩

end Endpoint

/-! ## No computation leaves its type -/

/-- The back-off of every pending packet is between 30 ms and 115 s; the sums that are
    divided for the average, the next count and the next threshold fit their types. -/
structure Computes (conn : RudpConnection) : Prop where
  backoff : ∀ pkt ∈ conn.pktsFhost, 30 ≤ backoffMs conn pkt ∧ backoffMs conn pkt < 115000
  count : ∀ pkt ∈ conn.pktsFhost, pkt.retransmitCount + 1 < 2 ^ 31
  average : ∀ sample, 20 ≤ sample → sample < 10000 →
    0 ≤ conn.avgRttMs * 3 + sample ∧ conn.avgRttMs * 3 + sample < 2 ^ 63 ∧
      0 ≤ conn.avgRttMs * 7 + sample ∧ conn.avgRttMs * 7 + sample < 2 ^ 63
  threshold : (conn.ackThreshold + 2).toNat = conn.ackThreshold.toNat + 2 ∧
    (conn.ackThreshold - 1).toNat = conn.ackThreshold.toNat - 1

theorem backoffMs_range (inRange : InRange conn) {pkt : RudpPendingPkt}
    (member : pkt ∈ conn.pktsFhost) : 30 ≤ backoffMs conn pkt ∧ backoffMs conn pkt < 115000 := by
  obtain ⟨low, high⟩ := inRange.rtt
  have count : pkt.retransmitCount ≤ 10 := inRange.counts pkt member
  have least : conn.avgRttMs * 3 ≤ conn.avgRttMs * (3 + 2 * (pkt.retransmitCount : Int)) :=
    Int.mul_le_mul_of_nonneg_left (by omega) (by omega)
  have most : conn.avgRttMs * (3 + 2 * (pkt.retransmitCount : Int)) ≤ conn.avgRttMs * 23 :=
    Int.mul_le_mul_of_nonneg_left (by omega) (by omega)
  rw [backoffMs, Int.tdiv_eq_ediv_of_nonneg (by omega)]
  omega

theorem InRange.computes (inRange : InRange conn) : Computes conn where
  backoff := fun _ member => backoffMs_range inRange member
  count := by
    intro pkt member
    have count : pkt.retransmitCount ≤ 10 := inRange.counts pkt member
    omega
  average := by
    intro sample low high
    have := inRange.rtt
    omega
  threshold := by
    obtain ⟨low, high⟩ := inRange.threshold
    simp only [UInt32.le_iff_toNat_le, UInt32.reduceToNat] at low high
    rw [UInt32.toNat_add, UInt32.toNat_sub]
    simp only [UInt32.reduceToNat]
    omega

/-- Whatever is sent and handled, and whatever the clock says: the parameters are in their
    ranges, and with them everything that is computed from them. -/
theorem timing_in_range (selfUid connUid : UInt32) (startMs : Int) (as : List EndpointAction)
    (s : Endpoint)
    (reached : Transition.run Endpoint.step (Endpoint.fresh selfUid connUid startMs) as = some s) :
    InRange s.conn ∧ Computes s.conn :=
  ⟨Endpoint.run_inRange reached, (Endpoint.run_inRange reached).computes⟩

/-- A packet that is resent before its RACK comes, by a clock that runs backwards. -/
def resentOnce : List EndpointAction :=
  [.send (Receiver.emptyData 0) 5000, .timeouts 6000,
    .arrives { Receiver.emptyData 0 with packtype := ProtopackType.rack.code } 0,
      .send (Receiver.emptyData 1) 10]

theorem timing_in_range_resentOnce :
    ∃ s, Transition.run Endpoint.step (Endpoint.fresh 1 2 0) resentOnce = some s ∧
      s.conn.pktsFhost.length = 1 ∧
      InRange s.conn ∧ Computes s.conn :=
  ⟨_, rfl, rfl, timing_in_range 1 2 0 resentOnce _ rfl⟩

end Soter2.Rudp
