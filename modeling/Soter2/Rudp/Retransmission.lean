import Mathlib.Data.List.Basic
import Mathlib.Tactic.Common
import Soter2.Rudp.Reordering

/-! # The acknowledgement of a retransmitted packet

A packet below the one expected is acknowledged at once.  The packet expected may have to wait
for the counter, but once it is delivered its retransmission is below.

* `retransmission_answered_iff` — when two arrivals of a packet draw a RACK for it, and how
  the RACKs of a run are numbered.
-/

namespace Soter2.Rudp

open Protocol
open scoped List

/-- A RACK for a packet, or for a later one. -/
def Acks (seq : UInt32) (msg : Protopack) : Prop :=
  msg.packtype = ProtopackType.rack.code ∧ seq ≤ msg.seq

/-- The packet arrives twice: one of the two is answered, and the first one is if the packet was
    already below the one expected. -/
structure Answered (conn : RudpConnection) (pkt : Protopack) (firstMs secondMs : Int) : Prop where
  twice : ∃ msg ∈ (netHandlerConn conn pkt firstMs).2 ++
    (netHandlerConn (netHandlerConn conn pkt firstMs).1 pkt secondMs).2, Acks pkt.seq msg
  once : pkt.seq < expectedSeq conn → ∃ msg ∈ (netHandlerConn conn pkt firstMs).2, Acks pkt.seq msg

variable {received taken : List Protopack} {conn : RudpConnection} {pkt : Protopack} {n : Nat}

/-! ## One arrival -/

/-- The last number delivered, when there is one and the counter has not gone round. -/
theorem lastRecvedSeq_toNat (expected : expectedSeq conn = UInt32.ofNat n) (some_ : 0 < n)
    (few : n < 2 ^ 32) : conn.lastRecvedSeq ≠ uint32Max ∧ conn.lastRecvedSeq.toNat = n - 1 := by
  obtain ⟨m, rfl⟩ := Nat.exists_eq_succ_of_ne_zero (Nat.ne_of_gt some_)
  rw [expectedSeq_eq, Serial.ofNat_succ] at expected
  have last : conn.lastRecvedSeq = UInt32.ofNat m := by simpa using expected
  have number : conn.lastRecvedSeq.toNat = m := by rw [last, Serial.toNat_ofNat_of_lt (by omega)]
  refine ⟨fun sentinel => ?_, number⟩
  have max : m = 2 ^ 32 - 1 := by rw [← number, sentinel]; rfl
  omega

/-- A packet out of order draws a RACK for the last packet delivered. -/
theorem netHandlerData_below (other : pkt.seq ≠ expectedSeq conn)
    (some_ : conn.lastRecvedSeq ≠ uint32Max) (nowMs : Int) :
    ∃ msg ∈ (netHandlerData conn pkt nowMs).2,
      msg.packtype = ProtopackType.rack.code ∧ msg.seq = conn.lastRecvedSeq := by
  have outOfOrder : (pkt.seq == expectedSeq conn) = false := by simpa using other
  rw [netHandlerData, outOfOrder, acceptData, if_neg other, acknowledge]
  simp only [protoMsgQuick_eq]
  split
  next => exact ⟨_, List.mem_singleton_self _, rfl, rfl⟩
  next silent => exact absurd ⟨rfl, some_⟩ silent

theorem below_answered (inv : ReceiverInv received taken conn)
    (few : (appended taken conn).length < 2 ^ 32)
    (below : pkt.seq.toNat < (appended taken conn).length) (nowMs : Int) :
    ∃ msg ∈ (netHandlerData conn pkt nowMs).2, Acks pkt.seq msg := by
  obtain ⟨some_, last⟩ := lastRecvedSeq_toNat inv.expected (Nat.zero_lt_of_lt below) few
  have other : pkt.seq ≠ expectedSeq conn := by
    intro same
    rw [same, inv.expected, Serial.toNat_ofNat_of_lt few] at below
    exact Nat.lt_irrefl _ below
  obtain ⟨msg, member, type, seq⟩ := netHandlerData_below other some_ nowMs
  refine ⟨msg, member, type, ?_⟩
  rw [UInt32.le_iff_toNat_le, seq, last]
  omega

/-- The packet expected is delivered, where none below it waits. -/
theorem next_delivered (inv : ReceiverInv received taken conn) (next : pkt.seq = expectedSeq conn)
    (none : NoneBelow conn) :
    (appended taken conn).length < (appended taken (acceptData conn pkt)).length := by
  by_contra stays
  have same : (appended taken (acceptData conn pkt)).length = (appended taken conn).length :=
    Nat.le_antisymm (Nat.not_lt.mp stays) (appended_grows taken (acceptData_delivered conn pkt))
  have flowing : Flowing (acceptData conn pkt) := by
    rw [acceptData, if_pos next]
    have there : Holds (rudpConnPassNet conn pkt) (expectedSeq conn) :=
      holds_passNet.mpr (.inr next)
    exact (reordering_flowing_iff (passNet_inv inv pkt) there).mpr
      ((noneBelow_passNet next).mpr none)
  have secured : Secured taken (acceptData conn pkt) (appended taken conn).length :=
    acceptData_secured inv (Nat.le_add_right _ _) (.inr (next.trans inv.expected))
  rw [Secured, same] at secured
  rw [Flowing, (acceptData_inv inv pkt).expected, same] at flowing
  exact flowing (secured.resolve_left (Nat.lt_irrefl _))

/-- Where the packet expected stays behind, a RACK is only for an earlier one, and the same
    holds for the next arrival. -/
theorem stalled_racks (inv : ReceiverInv received taken conn)
    (few : (appended taken conn).length < 2 ^ 32) (next : pkt.seq = expectedSeq conn)
    (low : ¬ NoneBelow conn) (nowMs : Int) :
    (∀ msg ∈ (netHandlerData conn pkt nowMs).2, msg.seq < pkt.seq) ∧
      pkt.seq = expectedSeq (netHandlerData conn pkt nowMs).1 ∧
        ¬ NoneBelow (netHandlerData conn pkt nowMs).1 := by
  obtain ⟨_, _, _, _, frame⟩ := netHandlerData_frame conn pkt nowMs
  obtain ⟨expected, low', -⟩ := acceptData_stalled inv next low
  have same : expectedSeq (netHandlerData conn pkt nowMs).1 = expectedSeq conn := by
    rw [frame]
    exact expected
  refine ⟨?_, next.trans same.symm, ?_⟩
  · intro msg member
    -- a RACK names the last packet delivered, and nothing is delivered
    obtain ⟨-, some_, seq⟩ := netHandlerData_names_last (same.trans inv.expected) member
    rw [next, inv.expected, seq, UInt32.lt_iff_toNat_lt, Serial.toNat_ofNat_of_lt few,
      Serial.toNat_ofNat_of_lt (by omega)]
    omega
  · rw [frame]
    exact low'

/-! ## Two arrivals -/

theorem answered_iff (inv : ReceiverInv received taken conn) (few : received.length < 2 ^ 32 - 1)
    (type : pkt.packtype = ProtopackType.data.code) (notAbove : pkt.seq ≤ expectedSeq conn)
    (firstMs secondMs : Int) :
    Answered conn pkt firstMs secondMs ↔ (pkt.seq = expectedSeq conn → NoneBelow conn) := by
  have delivered := inv.appended_subperm.length_le
  have inv' := netHandlerData_inv inv pkt firstMs
  have delivered' := inv'.appended_subperm.length_le
  rw [List.length_append, List.length_singleton] at delivered'
  have number : (expectedSeq conn).toNat = (appended taken conn).length := by
    rw [inv.expected, Serial.toNat_ofNat_of_lt (by omega)]
  by_cases next : pkt.seq = expectedSeq conn
  · rw [forall_prop_of_true next]
    constructor
    · intro answered
      by_contra low
      -- it stays behind both times
      obtain ⟨early, next', low'⟩ := stalled_racks inv (by omega) next low firstMs
      obtain ⟨early', -, -⟩ := stalled_racks inv' (by omega) next' low' secondMs
      obtain ⟨msg, member, acks⟩ := answered.twice
      rw [netHandlerConn_data type, netHandlerConn_data type] at member
      have below : msg.seq < pkt.seq := (List.mem_append.mp member).elim (early msg) (early' msg)
      exact absurd below (UInt32.not_lt.mpr acks.2)
    · intro none
      refine ⟨?_, fun below => absurd (next ▸ below) (UInt32.lt_irrefl _)⟩
      -- the first arrival delivers it, so that the second one is below
      have grown : (appended taken conn).length
          < (appended taken (netHandlerData conn pkt firstMs).1).length := by
        obtain ⟨_, _, _, _, frame⟩ := netHandlerData_frame conn pkt firstMs
        rw [frame]
        exact next_delivered inv next none
      have below : pkt.seq.toNat < (appended taken (netHandlerData conn pkt firstMs).1).length := by
        rw [next, number]
        exact grown
      obtain ⟨msg, member, acks⟩ := below_answered inv' (by omega) below secondMs
      rw [netHandlerConn_data type, netHandlerConn_data type]
      exact ⟨msg, List.mem_append_right _ member, acks⟩
  · -- it is below at its first arrival
    refine iff_of_true ?_ fun same => absurd same next
    have below : pkt.seq.toNat < (appended taken conn).length := by
      have different : pkt.seq.toNat ≠ (expectedSeq conn).toNat :=
        fun same => next (UInt32.toNat_inj.mp same)
      have le := UInt32.le_iff_toNat_le.mp notAbove
      omega
    obtain ⟨msg, member, acks⟩ := below_answered inv (by omega) below firstMs
    rw [← netHandlerConn_data type] at member
    exact ⟨⟨msg, List.mem_append_left _ member, acks⟩, fun _ => ⟨msg, member, acks⟩⟩

/-! ## The RACKs of a run -/

namespace Receiver

variable {s s' : Receiver} {a : ReceiverAction}

def acks (s : Receiver) : ReceiverAction → List Protopack
  | .data pkt nowMs => (netHandlerConn s.conn pkt nowMs).2
  | .recv => []

/-- The RACKs sent go up, and the last of them is below what is expected. -/
structure Ascending (out : List Protopack) (s : Receiver) : Prop where
  increasing : (out.map (·.seq)).Pairwise (· ≤ ·)
  delivered : ∀ msg ∈ out, msg.packtype = ProtopackType.rack.code ∧ msg.seq.toNat < s.count

theorem step_received (h : step s a = some s') : s.received.length ≤ s'.received.length := by
  cases a with
  | data pkt nowMs =>
    simp only [step, Option.ite_none_right_eq_some, Option.some.injEq] at h
    obtain ⟨-, rfl⟩ := h
    simp
  | recv =>
    simp only [step, Option.some.injEq] at h
    subst h
    exact Nat.le_refl _

/-- A step sends nothing, or RACKs for the last packet delivered. -/
theorem acks_number (inv : s.Inv) (h : step s a = some s') {msg : Protopack}
    (member : msg ∈ s.acks a) :
    msg.packtype = ProtopackType.rack.code ∧ 0 < s'.count ∧
      msg.seq = UInt32.ofNat (s'.count - 1) := by
  have inv' := step_inv inv h
  obtain ⟨pkt, nowMs, rfl, type, -, conn⟩ | ⟨rfl, -, -⟩ := step_delivers h
  · rw [acks, netHandlerConn_data type] at member
    exact netHandlerData_names_last (conn ▸ inv'.expected) member
  · cases member

theorem step_ascending {out : List Protopack} (inv : s.Inv) (ascending : Ascending out s)
    (h : step s a = some s')
    (few : s'.received.length < 2 ^ 32 - 1) : Ascending (out ++ s.acks a) s' := by
  have bound : s'.count ≤ s'.received.length := (step_inv inv h).appended_subperm.length_le
  have grows := step_count h
  have new : ∀ msg ∈ s.acks a, msg.packtype = ProtopackType.rack.code ∧ 0 < s'.count ∧
      msg.seq.toNat = s'.count - 1 := by
    intro msg member
    obtain ⟨type, some_, seq⟩ := acks_number inv h member
    exact ⟨type, some_, by rw [seq, Serial.toNat_ofNat_of_lt (by omega)]⟩
  constructor
  · rw [List.map_append, List.pairwise_append]
    refine ⟨ascending.increasing, ?_, ?_⟩
    · -- RACKs of one step have the same number
      rw [List.pairwise_map]
      apply List.pairwise_of_forall_mem_list
      intro p hp q hq
      rw [UInt32.le_iff_toNat_le, (new p hp).2.2, (new q hq).2.2]
    · intro p hp q hq
      obtain ⟨old, before, rfl⟩ := List.mem_map.mp hp
      obtain ⟨msg, now, rfl⟩ := List.mem_map.mp hq
      have earlier := (ascending.delivered old before).2
      rw [UInt32.le_iff_toNat_le, (new msg now).2.2]
      omega
  · intro msg member
    cases List.mem_append.mp member with
    | inl before =>
      obtain ⟨type, earlier⟩ := ascending.delivered msg before
      exact ⟨type, by omega⟩
    | inr now =>
      obtain ⟨type, some_, seq⟩ := new msg now
      exact ⟨type, by omega⟩

theorem run_ascending {start t : Receiver} {as : List ReceiverAction} (inv : start.Inv)
    (h : Transition.run step start as = some t) (few : t.received.length < 2 ^ 32 - 1) :
    Ascending (Transition.emitted step acks start as) t := by
  have preserved : ∀ out s a s', (s.Inv ∧ (s.received.length < 2 ^ 32 - 1 → Ascending out s)) →
      step s a = some s' → s'.Inv ∧
        (s'.received.length < 2 ^ 32 - 1 → Ascending (out ++ s.acks a) s') := by
    intro out s a s' before h
    obtain ⟨inv, ascending⟩ := before
    have grows := step_received h
    exact ⟨step_inv inv h, fun few => step_ascending inv (ascending (by omega)) h few⟩
  have none : start.Inv ∧ (start.received.length < 2 ^ 32 - 1 → Ascending [] start) :=
    ⟨inv, fun _ => ⟨List.Pairwise.nil, by simp⟩⟩
  exact (Transition.emitted_invariant preserved none h).2 few

/-- In every state reached with fewer than 2^32 - 1 packets, and with any threshold, count and
    round-trip time: two arrivals of a packet up to the one expected draw the RACK for it, exactly
    if it is not the one expected or none below waits.  In any case the RACKs sent so far
    never go down and are for packets delivered. -/
theorem retransmission_answered_iff (selfUid connUid : UInt32) (startMs : Int)
    (as : List ReceiverAction) (s : Receiver)
    (reached : Transition.run step (fresh selfUid connUid startMs) as = some s)
    (few : s.received.length < 2 ^ 32 - 1) :
    (∀ pkt threshold since rttMs firstMs secondMs, pkt.packtype = ProtopackType.data.code →
      pkt.seq ≤ expectedSeq s.conn →
      (Answered
          { s.conn with ackThreshold := threshold, packetsSinceAck := since, avgRttMs := rttMs }
          pkt firstMs secondMs ↔
        (pkt.seq = expectedSeq s.conn → NoneBelow s.conn))) ∧
      Ascending (Transition.emitted step acks (fresh selfUid connUid startMs) as) s := by
  have start := fresh_inv selfUid connUid startMs
  have inv := run_inv start reached
  refine ⟨?_, run_ascending start reached few⟩
  intro pkt threshold since rttMs firstMs secondMs type notAbove
  -- threshold, count and round-trip time play no part in the ordering
  have tuned : ReceiverInv s.received s.taken
      { s.conn with ackThreshold := threshold, packetsSinceAck := since, avgRttMs := rttMs } :=
        inv.congr rfl rfl rfl rfl
  exact answered_iff tuned few type notAbove firstMs secondMs

/-- Packet 1 overtakes packet 0, and packet 0 comes twice. -/
theorem retransmission_answered_iff_overtaken :
    ∃ s, Transition.run step (fresh 1 2 0) overtaken = some s ∧ s.received.length < 2 ^ 32 - 1 ∧
      (∀ pkt threshold since rttMs firstMs secondMs, pkt.packtype = ProtopackType.data.code →
        pkt.seq ≤ expectedSeq s.conn →
        (Answered
            { s.conn with ackThreshold := threshold, packetsSinceAck := since, avgRttMs := rttMs }
            pkt firstMs secondMs ↔
          (pkt.seq = expectedSeq s.conn → NoneBelow s.conn))) ∧
        Ascending (Transition.emitted step acks (fresh 1 2 0) overtaken) s :=
  ⟨_, rfl, by simp [fresh], retransmission_answered_iff 1 2 0 overtaken _ rfl (by simp [fresh])⟩

/-- A late packet 0 waits for the next lap, and the packet 2^32 - 3 that is expected draws no RACK
    for it. -/
theorem retransmission_unanswered :
    ∃ as s, Transition.run step (fresh 1 2 0) as = some s ∧ s.received.length < 2 ^ 32 - 1 ∧
      expectedSeq s.conn = 0xFFFFFFFD ∧
      ∀ firstMs secondMs, ¬ Answered s.conn (emptyData 0xFFFFFFFD) firstMs secondMs := by
  obtain ⟨as, r, reached, caught⟩ := caught_reached 1 2 0 (2 ^ 32 - 3)
  have last : expectedSeq r.conn = 0xFFFFFFFD := caught.expected
  -- packet 0 comes before its lap, and waits in the buffer
  have other : (emptyData 0).seq ≠ expectedSeq r.conn := by
    rw [last]
    decide
  obtain ⟨s, waits, received, same, net⟩ := step_waits 0 rfl other
  rw [last] at same
  have run := Transition.run_append.mpr
    ⟨r, reached, Transition.run_cons.mpr ⟨s, waits, Transition.run_nil s⟩⟩
  have inv := run_inv (fresh_inv 1 2 0) run
  have few : s.received.length < 2 ^ 32 - 1 := by
    rw [received, List.length_append, caught.received, List.length_singleton]
    omega
  refine ⟨_, s, run, few, same, fun firstMs secondMs answered => ?_⟩
  have notAbove : (emptyData 0xFFFFFFFD).seq ≤ expectedSeq s.conn := same ▸ UInt32.le_refl _
  have none := (answered_iff inv few rfl notAbove firstMs secondMs).mp answered same.symm
  -- an answer needs all that waits to lie above the expected number, and 0 does not
  have above := none (emptyData 0) (by simp [net]) (by rw [same]; decide)
  rw [same] at above
  exact absurd above (by decide)

end Receiver

end Soter2.Rudp
