import Mathlib.Data.List.Basic
import Mathlib.Tactic.Common
import Soter2.Library.Transition
import Soter2.Rudp.Receiver

/-! # What a receiver delivers

`_rudp_conn_reordering` delivers from the head of a buffer that is sorted by raw sequence
numbers.  Near 2^32 - 1 the window already takes in the numbers from 0 on, and a packet with
one of these comes before the packet that is expected.

* `reordering_flowing_iff` — ordering leaves the next packet behind exactly if a packet that
  waits has a raw number below it.
* `reordering_flows_iff` — so the receiver delivers all it can exactly in the runs without.
-/

namespace Soter2.Rudp

open Protocol
open scoped List

/-! ## What is held -/

/-- A packet with that number waits in the queue from the network or in the reorder buffer. -/
def Holds (conn : RudpConnection) (seq : UInt32) : Prop :=
  ∃ p ∈ conn.pktsReorderBuf ++ conn.pktsNet, p.seq = seq

/-- The packet to be delivered next is not held. -/
def Flowing (conn : RudpConnection) : Prop := ¬ Holds conn (expectedSeq conn)

/-- No packet held for one of the next numbers has a raw number below the one expected. -/
def NoneBelow (conn : RudpConnection) : Prop :=
  ∀ p ∈ conn.pktsReorderBuf ++ conn.pktsNet,
    Serial.ahead (expectedSeq conn) p.seq ≤ rudpReorderWindow → expectedSeq conn ≤ p.seq

variable {received taken : List Protopack} {conn c c' : RudpConnection}

theorem Holds.mono {conn conn' : RudpConnection} {seq : UInt32}
    (sub : ∀ p ∈ conn.pktsReorderBuf ++ conn.pktsNet, p ∈ conn'.pktsReorderBuf ++ conn'.pktsNet)
    (h : Holds conn seq) : Holds conn' seq := by
  obtain ⟨p, member, same⟩ := h
  exact ⟨p, sub p member, same⟩

theorem holds_passNet {pkt : Protopack} {seq : UInt32} :
    Holds (rudpConnPassNet conn pkt) seq ↔ Holds conn seq ∨ pkt.seq = seq := by
  simp only [Holds, rudpConnPassNet, ← List.append_assoc, List.mem_append, List.mem_singleton,
    or_and_right, exists_or, exists_eq_left]

/-- The packet that is expected is not below itself. -/
theorem noneBelow_passNet {pkt : Protopack} (next : pkt.seq = expectedSeq conn) :
    NoneBelow (rudpConnPassNet conn pkt) ↔ NoneBelow conn := by
  have itself : expectedSeq conn ≤ pkt.seq := next ▸ UInt32.le_refl _
  show (∀ p ∈ conn.pktsReorderBuf ++ (conn.pktsNet ++ [pkt]), _ → expectedSeq conn ≤ p.seq) ↔ _
  rw [← List.append_assoc, List.forall_mem_append, List.forall_mem_singleton]
  exact and_iff_left fun _ => itself

/-! ## The first loop -/

/-- The first loop drops what is outside the window, and one of two packets with the same
    number. -/
structure Gathered (conn c : RudpConnection) : Prop where
  last : c.lastRecvedSeq = conn.lastRecvedSeq
  old : ∀ p ∈ c.pktsReorderBuf ++ c.pktsNet, p ∈ conn.pktsReorderBuf ++ conn.pktsNet
  kept : ∀ seq, Serial.ahead (expectedSeq conn) seq ≤ rudpReorderWindow → Holds conn seq →
    Holds c seq

theorem Gathered.expected (h : Gathered conn c) : expectedSeq c = expectedSeq conn := by
  rw [expectedSeq_eq, h.last, expectedSeq_eq]

theorem reorderPop_gathered (inv : Gathered conn c) (h : reorderPop c = some c') :
    Gathered conn c' := by
  obtain ⟨pkt, rest, queue, ⟨outside, rfl⟩ | ⟨-, rfl⟩⟩ := reorderPop_cases h
  · -- the packet is dropped, and its number is not near
    have before := inv.old
    rw [queue] at before
    refine ⟨inv.last, fun p member => before p ?_, ?_⟩
    · exact ((List.sublist_cons_self pkt rest).append_left _).subset member
    · intro seq near held
      obtain ⟨p, member, same⟩ := inv.kept seq near held
      have other : p ≠ pkt := by
        intro eq
        rw [inv.expected, ← eq, same] at outside
        omega
      rw [queue, List.mem_append, List.mem_cons, or_iff_right other, ← List.mem_append] at member
      exact ⟨p, member, same⟩
  · -- the packet goes into the buffer, unless its number is there
    have before := inv.old
    rw [queue] at before
    refine ⟨inv.last, fun p member => before p ?_, ?_⟩
    · rw [List.mem_append, List.mem_cons]
      cases List.mem_append.mp member with
      | inl buffered =>
        exact (UniqueInsert.mem_insert buffered).elim (fun new => .inr (.inl new)) .inl
      | inr waits => exact .inr (.inr waits)
    · intro seq near held
      obtain ⟨p, member, same⟩ := inv.kept seq near held
      rw [queue, List.mem_append, List.mem_cons] at member
      rcases member with buffered | rfl | waits
      · exact ⟨p, List.mem_append_left _ (UniqueInsert.mem_insert_of_mem buffered), same⟩
      · -- the packet itself, or the one that was there with its number
        obtain ⟨q, inserted, key⟩ := @UniqueInsert.exists_mem_insert _ _ _ seqKey p c.pktsReorderBuf
        exact ⟨q, List.mem_append_left _ inserted, (UInt32.toNat_inj.mp key).trans same⟩
      · exact ⟨p, List.mem_append_right _ waits, same⟩

theorem reorderIntake_gathered (conn : RudpConnection) : Gathered conn (reorderIntake conn) :=
  Loop.run_invariant (fun _ _ => reorderPop_gathered)
    _ ⟨rfl, fun _ member => member, fun _ _ held => held⟩

/-! ## The second loop -/

theorem reordering_exit (conn : RudpConnection) :
    reorderDrain (rudpConnReordering conn) = none := by
  refine Loop.run_exit (fun c => c.pktsReorderBuf.length) ?_ _ _ (Nat.le_refl _)
  intro c c' h
  obtain ⟨p, rest, buffer, -, rfl⟩ := reorderDrain_cases h
  simp [buffer]

/-- Whatever is left over is not below the packet expected. -/
structure Draining (c : RudpConnection) : Prop where
  sorted : UniqueInsert.Increasing seqKey c.pktsReorderBuf
  above : ∀ p ∈ c.pktsReorderBuf, expectedSeq c ≤ p.seq
  net : c.pktsNet = []

theorem reorderDrain_draining (inv : Draining c) (h : reorderDrain c = some c') : Draining c' := by
  obtain ⟨p, rest, buffer, next, rfl⟩ := reorderDrain_cases h
  have sorted := inv.sorted
  rw [buffer] at sorted
  obtain ⟨behind, tail⟩ := List.pairwise_cons.mp sorted
  refine ⟨tail, ?_, inv.net⟩
  intro q member
  -- something is beyond `p`, so the number after `p` is not 0
  have below : p.seq.toNat < q.seq.toNat := behind q member
  have bound : q.seq.toNat < 2 ^ 32 := q.seq.toNat_lt
  rw [expectedSeq_eq]
  show p.seq + 1 ≤ q.seq
  rw [UInt32.le_iff_toNat_le, UInt32.toNat_add]
  simp only [UInt32.toNat_one]
  omega

/-- Where the loop ends, the head is the packet that could come next. -/
theorem Draining.flowing (inv : Draining c) (exit : reorderDrain c = none) : Flowing c := by
  rintro ⟨q, member, next⟩
  rw [inv.net, List.append_nil] at member
  cases buffer : c.pktsReorderBuf with
  | nil =>
    rw [buffer] at member
    cases member
  | cons p rest =>
    -- the head was not taken, and what is behind it is beyond it
    have head : p.seq ≠ expectedSeq c := by
      intro here
      simp [reorderDrain, buffer, here] at exit
    have sorted := inv.sorted
    rw [buffer] at sorted member
    cases List.mem_cons.mp member with
    | inl same => exact head (same ▸ next)
    | inr behind =>
      have below : p.seq < q.seq := (List.pairwise_cons.mp sorted).1 q behind
      have above := inv.above p (buffer ▸ List.mem_cons_self)
      rw [next] at below
      exact absurd below (UInt32.not_lt.mpr above)

/-- With a packet below the one expected, the loop does not even start. -/
theorem reorderDrain_stalls (sorted : UniqueInsert.Increasing seqKey c.pktsReorderBuf)
    {q : Protopack}
    (member : q ∈ c.pktsReorderBuf) (below : q.seq < expectedSeq c) : reorderDrain c = none := by
  cases drained : reorderDrain c with
  | none => rfl
  | some c' =>
    obtain ⟨p, rest, buffer, next, -⟩ := reorderDrain_cases drained
    rw [buffer] at sorted member
    cases List.mem_cons.mp member with
    | inl same =>
      rw [same, next] at below
      exact absurd below (UInt32.lt_irrefl _)
    | inr behind =>
      have above : p.seq < q.seq := (List.pairwise_cons.mp sorted).1 q behind
      rw [next] at above
      exact absurd (UInt32.lt_trans above below) (UInt32.lt_irrefl _)

theorem reordering_net (conn : RudpConnection) : (rudpConnReordering conn).pktsNet = [] := by
  have turn : ∀ c c' : RudpConnection, c.pktsNet = [] → reorderDrain c = some c' →
      c'.pktsNet = [] := by
    intro c c' net h
    obtain ⟨p, rest, -, -, rfl⟩ := reorderDrain_cases h
    exact net
  exact Loop.run_invariant turn _ (reorderIntake_net conn)

theorem reordering_stalled (inv : ReceiverInv received taken conn) (low : ¬ NoneBelow conn) :
    rudpConnReordering conn = reorderIntake conn := by
  have gathered := reorderIntake_gathered conn
  -- the packet below is in the buffer after the first loop
  simp only [NoneBelow, not_forall] at low
  obtain ⟨p, member, near, below⟩ := low
  obtain ⟨q, held, same⟩ := gathered.kept p.seq near ⟨p, member, rfl⟩
  rw [reorderIntake_net, List.append_nil] at held
  refine Loop.run_of_none (reorderDrain_stalls (reorderIntake_inv inv).sorted held ?_) _
  rw [gathered.expected, same]
  exact UInt32.not_le.mp below

/-- Once the expected packet is there, ordering leaves the next packet behind exactly if one
    with a lower raw number waits. -/
theorem reordering_flowing_iff (inv : ReceiverInv received taken conn)
    (next : Holds conn (expectedSeq conn)) :
    Flowing (rudpConnReordering conn) ↔ NoneBelow conn := by
  have gathered := reorderIntake_gathered conn
  constructor
  · intro flowing
    by_contra low
    rw [reordering_stalled inv low, Flowing, gathered.expected] at flowing
    exact flowing (gathered.kept _ (by simp) next)
  · intro none
    have inv' := reorderIntake_inv inv
    refine Draining.flowing ?_ (reordering_exit conn)
    refine Loop.run_invariant (fun _ _ => reorderDrain_draining)
      _ ⟨inv'.sorted, ?_, reorderIntake_net conn⟩
    intro p member
    have near := inv'.window p member
    rw [gathered.expected] at near ⊢
    exact none p (gathered.old p (List.mem_append_left _ member)) near

/-- The packet below is held after the first loop, too. -/
theorem Gathered.noneBelow (h : Gathered conn c) (none : NoneBelow c) : NoneBelow conn := by
  intro p member near
  obtain ⟨q, held, same⟩ := h.kept p.seq near ⟨p, member, rfl⟩
  have above := none q held
  rw [h.expected, same] at above
  exact above near

/-- A packet that is expected and stays behind is in the buffer and expected still, and so is
    the packet below it. -/
theorem acceptData_stalled (inv : ReceiverInv received taken conn) {pkt : Protopack}
    (next : pkt.seq = expectedSeq conn) (low : ¬ NoneBelow conn) :
    expectedSeq (acceptData conn pkt) = expectedSeq conn ∧ ¬ NoneBelow (acceptData conn pkt) ∧
      ∃ p ∈ (acceptData conn pkt).pktsReorderBuf, p.seq = expectedSeq conn := by
  rw [← noneBelow_passNet next] at low
  have gathered := reorderIntake_gathered (rudpConnPassNet conn pkt)
  rw [acceptData, if_pos next, reordering_stalled (passNet_inv inv pkt) low]
  refine ⟨gathered.expected, fun none => low (gathered.noneBelow none), ?_⟩
  have near : Serial.ahead (expectedSeq (rudpConnPassNet conn pkt)) (expectedSeq conn)
      ≤ rudpReorderWindow := by
    show Serial.ahead (expectedSeq conn) (expectedSeq conn) ≤ rudpReorderWindow
    simp
  obtain ⟨p, member, same⟩ := gathered.kept _ near (holds_passNet.mpr (.inr next))
  rw [reorderIntake_net, List.append_nil] at member
  exact ⟨p, member, same⟩

/-! ## A number received is delivered or held -/

/-- The packet number `j` of the session has been appended to `pkts_reordered`, or is held. -/
def Secured (taken : List Protopack) (conn : RudpConnection) (j : Nat) : Prop :=
  j < (appended taken conn).length ∨ Holds conn (UInt32.ofNat j)

theorem ahead_expected (inv : ReceiverInv received taken conn) {j : Nat}
    (ahead : (appended taken conn).length ≤ j)
    (near : j ≤ (appended taken conn).length + rudpReorderWindow) :
    Serial.ahead (expectedSeq conn) (UInt32.ofNat j) = j - (appended taken conn).length := by
  have window : rudpReorderWindow < 2 ^ 31 := by decide
  have split : j = (appended taken conn).length + (j - (appended taken conn).length) := by omega
  rw [inv.expected]
  conv_lhs => rw [split, Serial.ofNat_add]
  exact Serial.ahead_add_ofNat _ (by omega)

theorem reorderIntake_secured (inv : ReceiverInv received taken conn) {j : Nat}
    (near : j ≤ (appended taken conn).length + rudpReorderWindow) (secured : Secured taken conn j) :
    Secured taken (reorderIntake conn) j := by
  rw [Secured, appended, reorderIntake_delivered]
  cases Nat.lt_or_ge j (appended taken conn).length with
  | inl delivered => exact .inl delivered
  | inr ahead =>
    -- a number that is not delivered yet is inside the window
    have held := secured.resolve_left (Nat.not_lt.mpr ahead)
    refine .inr ((reorderIntake_gathered conn).kept _ ?_ held)
    rw [ahead_expected inv ahead near]
    omega

theorem reorderDrain_secured (inv : ReceiverInv received taken c) {j : Nat}
    (near : j ≤ (appended taken c).length + rudpReorderWindow) (secured : Secured taken c j)
    (h : reorderDrain c = some c') : Secured taken c' j ∧
    (appended taken c).length ≤ (appended taken c').length := by
  have grows := appended_grows taken (reorderDrain_delivered h)
  refine ⟨?_, grows⟩
  cases Nat.lt_or_ge j (appended taken c).length with
  | inl delivered => exact .inl (Nat.lt_of_lt_of_le delivered grows)
  | inr ahead =>
    obtain ⟨q, member, number⟩ := secured.resolve_left (Nat.not_lt.mpr ahead)
    obtain ⟨p, rest, buffer, next, rfl⟩ := reorderDrain_cases h
    rw [buffer, List.cons_append] at member
    cases List.mem_cons.mp member with
    | inr stays => exact .inr ⟨q, stays, number⟩
    | inl same =>
      -- the packet delivered is the one with this number
      have zero : Serial.ahead (expectedSeq c) (UInt32.ofNat j) = 0 :=
        Serial.ahead_eq_zero.mpr (by rw [← number, same, next])
      rw [ahead_expected inv ahead near] at zero
      refine .inl ?_
      simp only [appended, List.length_append, List.length_singleton] at zero ahead ⊢
      omega

theorem acceptData_secured (inv : ReceiverInv received taken conn) {pkt : Protopack} {j : Nat}
    (near : j ≤ (appended taken conn).length + rudpReorderWindow)
    (secured : Secured taken conn j ∨ pkt.seq = UInt32.ofNat j) :
    Secured taken (acceptData conn pkt) j := by
  have passed : Secured taken (rudpConnPassNet conn pkt) j := by
    rw [Secured, holds_passNet, ← or_assoc]
    exact secured
  by_cases next : pkt.seq = expectedSeq conn
  · rw [acceptData, if_pos next]
    have inv' := passNet_inv inv pkt
    -- the window only moves up while the second loop runs
    have turn : ∀ c c', (ReceiverInv (received ++ [pkt]) taken c ∧
        j ≤ (appended taken c).length + rudpReorderWindow ∧ Secured taken c j) →
          reorderDrain c = some c' →
        ReceiverInv (received ++ [pkt]) taken c' ∧
          j ≤ (appended taken c').length + rudpReorderWindow ∧ Secured taken c' j := by
      intro c c' before h
      obtain ⟨inv, near, secured⟩ := before
      obtain ⟨after, grows⟩ := reorderDrain_secured inv near secured h
      exact ⟨reorderDrain_inv inv h, by omega, after⟩
    have start : j ≤ (appended taken (reorderIntake (rudpConnPassNet conn pkt))).length +
        rudpReorderWindow := by
      rw [appended, reorderIntake_delivered]
      exact near
    exact (Loop.run_invariant turn _ ⟨reorderIntake_inv inv', start,
      reorderIntake_secured inv' near passed⟩).2.2
  · rw [acceptData, if_neg next]
    exact passed

namespace Receiver

variable {s s' t : Receiver} {a : ReceiverAction}

/-- How many packets were delivered so far. -/
def count (s : Receiver) : Nat := (appended s.taken s.conn).length

/-- A step receives the packet with that number. -/
def Receives (seq : UInt32) : ReceiverAction → Prop
  | .data pkt _ => pkt.seq = seq
  | .recv => False

/-- Taking a packet from the queue leaves what is delivered, and what is held, as it was. -/
theorem step_delivers (h : step s a = some s') :
    (∃ pkt nowMs, a = .data pkt nowMs ∧ pkt.packtype = ProtopackType.data.code ∧
      s'.taken = s.taken ∧
        s'.conn = (netHandlerData s.conn pkt nowMs).1) ∨
      a = .recv ∧ appended s'.taken s'.conn = appended s.taken s.conn ∧
        s'.conn = { s.conn with pktsReordered := s'.conn.pktsReordered } := by
  obtain ⟨pkt, nowMs, rfl, type, rfl⟩ | ⟨pkt, rest, rfl, queue, rfl⟩ | ⟨rfl, rfl⟩ := step_cases h
  · exact .inl ⟨pkt, nowMs, rfl, type, rfl, rfl⟩
  · exact .inr ⟨rfl, by simp [appended, queue], rfl⟩
  · exact .inr ⟨rfl, rfl, rfl⟩

theorem step_count (h : step s a = some s') : s.count ≤ s'.count := by
  obtain ⟨pkt, nowMs, -, -, taken, conn⟩ | ⟨-, same, -⟩ := step_delivers h
  · obtain ⟨_, _, _, _, frame⟩ := netHandlerData_frame s.conn pkt nowMs
    rw [count, count, taken, conn, frame]
    exact appended_grows s.taken (acceptData_delivered s.conn pkt)
  · rw [count, count, same]

theorem step_secured (inv : s.Inv) {j : Nat} (near : j ≤ s.count + rudpReorderWindow)
    (secured : Secured s.taken s.conn j ∨ Receives (UInt32.ofNat j) a) (h : step s a = some s') :
    Secured s'.taken s'.conn j := by
  obtain ⟨pkt, nowMs, rfl, -, taken, conn⟩ | ⟨rfl, same, frame⟩ := step_delivers h
  · obtain ⟨_, _, _, _, frame⟩ := netHandlerData_frame s.conn pkt nowMs
    rw [taken, conn, frame]
    exact acceptData_secured inv near secured
  · have secured := secured.resolve_right id
    rw [Secured, ← same, frame] at secured
    rw [Secured, frame]
    exact secured

/-- A number near the next one that is held or received stays held until it is delivered. -/
theorem run_secured {as : List ReceiverAction} (inv : s.Inv) {j : Nat}
    (near : j ≤ s.count + rudpReorderWindow)
    (secured : Secured s.taken s.conn j ∨ ∃ a ∈ as, Receives (UInt32.ofNat j) a)
    (h : Transition.run step s as = some t) : Secured t.taken t.conn j := by
  induction as generalizing s with
  | nil =>
    cases h
    exact secured.resolve_right (by simp)
  | cons a as ih =>
    obtain ⟨s', hs, ht⟩ := Transition.run_cons.mp h
    have grows := step_count hs
    refine ih (step_inv inv hs) (by omega) ?_ ht
    simp only [List.mem_cons, exists_eq_or_imp] at secured
    obtain old | here | later := secured
    · exact .inl (step_secured inv near (.inl old) hs)
    · exact .inl (step_secured inv near (.inr here) hs)
    · exact .inr later

/-! ## Runs without a packet below -/

/-- Where a packet arrives that is expected, none below it waits. -/
def InSight (s : Receiver) : ReceiverAction → Prop
  | .data pkt _ =>
    pkt.packtype = ProtopackType.data.code → pkt.seq = expectedSeq s.conn → NoneBelow s.conn
  | .recv => True

theorem netHandlerData_flowing {pkt : Protopack} {nowMs : Int} :
    Flowing (netHandlerData conn pkt nowMs).1 ↔ Flowing (acceptData conn pkt) := by
  obtain ⟨_, _, _, _, frame⟩ := netHandlerData_frame conn pkt nowMs
  rw [frame]
  exact Iff.rfl

/-- A packet out of order is not the next one, so it leaves the receiver flowing. -/
theorem step_flowing_iff (inv : s.Inv) (flowing : Flowing s.conn) (h : step s a = some s') :
    Flowing s'.conn ↔ InSight s a := by
  obtain ⟨pkt, nowMs, rfl, type, taken, conn⟩ | ⟨rfl, -, frame⟩ := step_delivers h
  · rw [conn, netHandlerData_flowing, InSight, forall_prop_of_true type, acceptData]
    by_cases next : pkt.seq = expectedSeq s.conn
    · have there : Holds (rudpConnPassNet s.conn pkt) (expectedSeq s.conn) :=
        holds_passNet.mpr (.inr next)
      rw [if_pos next, forall_prop_of_true next, ← noneBelow_passNet next]
      exact reordering_flowing_iff (passNet_inv inv pkt) there
    · -- the packet only waits
      refine iff_of_true ?_ fun same => absurd same next
      rw [if_neg next]
      intro held
      exact (holds_passNet.mp held).elim flowing next
  · rw [frame]
    exact iff_of_true flowing trivial

/-- The receiver keeps nothing back: in the runs that begin like `as`, ordering empties the queue
    from the network and leaves no packet that could come next; and from any state on, of
    the next packets all are delivered up to where one was neither held nor received. -/
structure Flows (start : Receiver) (as : List ReceiverAction) : Prop where
  emptied : ∀ bs pkt nowMs s, bs ++ [.data pkt nowMs] <+: as →
    Transition.run step start bs = some s →
    pkt.packtype = ProtopackType.data.code → pkt.seq = expectedSeq s.conn →
      (rudpConnReordering (rudpConnPassNet s.conn pkt)).pktsNet = [] ∧
        ∀ p ∈ (rudpConnReordering (rudpConnPassNet s.conn pkt)).pktsReorderBuf,
          p.seq ≠ expectedSeq (rudpConnReordering (rudpConnPassNet s.conn pkt))
  delivered : ∀ bs cs s t, bs ++ cs <+: as → Transition.run step start bs = some s →
    Transition.run step s cs = some t → ∀ k ≤ rudpReorderWindow,
      (∀ i < k, Holds s.conn (expectedSeq s.conn + UInt32.ofNat i) ∨
        ∃ a ∈ cs, Receives (expectedSeq s.conn + UInt32.ofNat i) a) → s.count + k ≤ t.count

theorem flowing_delivered {cs : List ReceiverAction} {k : Nat} (inv : s.Inv)
    (h : Transition.run step s cs = some t) (flowing : Flowing t.conn) (few : k ≤ rudpReorderWindow)
    (all : ∀ i < k, Holds s.conn (expectedSeq s.conn + UInt32.ofNat i) ∨
      ∃ a ∈ cs, Receives (expectedSeq s.conn + UInt32.ofNat i) a) : s.count + k ≤ t.count := by
  by_contra short
  have inv' := run_inv inv h
  have grows : s.count ≤ t.count :=
    Transition.run_invariant (I := fun u => s.count ≤ u.count)
      (fun _ _ _ le hs => le.trans (step_count hs)) le_rfl h
  -- the number that `t` expects is one of those received
  have number : expectedSeq s.conn + UInt32.ofNat (t.count - s.count) = UInt32.ofNat t.count := by
    rw [inv.expected, ← Serial.ofNat_add]
    exact congrArg UInt32.ofNat (Nat.add_sub_cancel' grows)
  have one := all (t.count - s.count) (by omega)
  rw [number] at one
  have secured : Secured t.taken t.conn t.count := run_secured inv (by omega) (one.imp_left .inr) h
  have held := secured.resolve_left (Nat.lt_irrefl _)
  rw [Flowing, inv'.expected] at flowing
  exact flowing held

/-- Where ordering keeps nothing back, no state of the run holds the next packet. -/
theorem Flows.flowing {start : Receiver} {as bs : List ReceiverAction} (flows : Flows start as)
    (inv : start.Inv) (flowing : Flowing start.conn) (initial : bs <+: as)
    (h : Transition.run step start bs = some t) : Flowing t.conn := by
  induction bs using List.reverseRecOn generalizing t with
  | nil =>
    cases h
    exact flowing
  | append_singleton bs a ih =>
    obtain ⟨s, hs, last⟩ := Transition.run_append.mp h
    obtain ⟨t', next, done⟩ := Transition.run_cons.mp last
    cases done
    have inv := run_inv inv hs
    have before := ih ((List.prefix_append bs [a]).trans initial) hs
    refine (step_flowing_iff inv before next).mpr ?_
    cases a with
    | recv => trivial
    | data pkt nowMs =>
      intro type next
      -- the packet that arrives is the one expected, so the loop has something to deliver
      have there : Holds (rudpConnPassNet s.conn pkt) (expectedSeq s.conn) :=
        holds_passNet.mpr (.inr next)
      rw [← noneBelow_passNet next, ← reordering_flowing_iff (passNet_inv inv pkt) there]
      obtain ⟨net, none⟩ := flows.emptied bs pkt nowMs s initial hs type next
      rintro ⟨p, member, same⟩
      rw [net, List.append_nil] at member
      exact none p member same

theorem flows_of_flowing {start : Receiver} {as : List ReceiverAction} (inv : start.Inv)
    (always : ∀ bs, bs <+: as → ∀ t, Transition.run step start bs = some t → Flowing t.conn) :
    Flows start as where
  emptied := by
    intro bs pkt nowMs s initial hs type next
    refine ⟨reordering_net _, fun p member same => ?_⟩
    have after :=
      always _ initial
        _ (Transition.run_append.mpr ⟨s, hs, Transition.run_cons.mpr ⟨_, if_pos type, rfl⟩⟩)
    rw [netHandlerConn_data type, netHandlerData_flowing, acceptData, if_pos next] at after
    exact after ⟨p, List.mem_append_left _ member, same⟩
  delivered := by
    intro bs cs s t initial hs ht k few all
    have inv := run_inv inv hs
    exact flowing_delivered inv ht (always _ initial t (Transition.run_append.mpr ⟨s, hs, ht⟩)) few
      all

/-- A step that is not in sight is one that happens. -/
theorem step_of_not_inSight (bad : ¬ InSight s a) : ∃ s', step s a = some s' := by
  cases a with
  | recv => exact absurd trivial bad
  | data pkt nowMs =>
    have type : pkt.packtype = ProtopackType.data.code := by
      by_contra other
      exact bad fun type => absurd type other
    exact ⟨_, if_pos type⟩

theorem fresh_flowing (selfUid connUid : UInt32) (nowMs : Int) :
    Flowing (fresh selfUid connUid nowMs).conn := by
  rintro ⟨p, member, -⟩
  cases member

/-- The receiver keeps nothing back exactly in the runs in which no packet below the one
    expected waits when that one arrives. -/
theorem reordering_flows_iff (selfUid connUid : UInt32) (startMs : Int) (as : List ReceiverAction) :
    Flows (fresh selfUid connUid startMs) as ↔
      Transition.Meets step InSight (fresh selfUid connUid startMs) as := by
  have start := fresh_inv selfUid connUid startMs
  have flowing := fresh_flowing selfUid connUid startMs
  rw [← Transition.always_iff_meets_where (fun _ _ _ => step_inv) (fun _ _ => step_of_not_inSight)
    (fun _ _ _ => step_flowing_iff) start flowing]
  exact ⟨fun flows bs initial t => flows.flowing start flowing initial, flows_of_flowing start⟩

/-! ## Where a packet is below -/

/-- The packets up to `n` were delivered, and nothing is held. -/
structure Caught (s : Receiver) (n : Nat) : Prop where
  received : s.received.length = n
  buffer : s.conn.pktsReorderBuf = []
  net : s.conn.pktsNet = []
  expected : expectedSeq s.conn = UInt32.ofNat n

theorem acceptData_caught {pkt : Protopack} (buffer : conn.pktsReorderBuf = [])
    (net : conn.pktsNet = []) (next : pkt.seq = expectedSeq conn) :
    acceptData conn pkt = { conn with
      lastRecvedSeq := pkt.seq
      pktsReordered := conn.pktsReordered ++ [pkt] } := by
  have queue : (rudpConnPassNet conn pkt).pktsNet = [pkt] := by
    rw [rudpConnPassNet, net]
    rfl
  -- nothing waits, so the first loop moves this packet to the buffer and ends
  have popped : reorderPop (rudpConnPassNet conn pkt)
      = some { conn with pktsReorderBuf := [pkt] } := by
    have inside : Serial.signedDiff pkt.seq (expectedSeq (rudpConnPassNet conn pkt)) = 0 := by
      show Serial.signedDiff pkt.seq (expectedSeq conn) = 0
      rw [← next, Serial.signedDiff_eq, Serial.ahead_self]
      rfl
    have window : ¬ ((0 : Int) < 0 ∨ (0 : Int) > rudpReorderWindow) := by omega
    simp only [reorderPop, queue, inside, if_neg window]
    simp only [rudpConnPassNet, buffer, net, UniqueInsert.insert, UniqueInsert.scan]
    rfl
  have intake : reorderIntake (rudpConnPassNet conn pkt)
      = { conn with pktsReorderBuf := [pkt] } := by
    rw [reorderIntake, queue]
    exact Loop.run_of_some popped 0
  -- the second loop delivers it, and the buffer is empty again
  have drained : reorderDrain { conn with pktsReorderBuf := [pkt] } = some { conn with
      lastRecvedSeq := pkt.seq
      pktsReordered := conn.pktsReordered ++ [pkt] } := by
    simp only [reorderDrain, buffer]
    exact if_pos next
  rw [acceptData, if_pos next, rudpConnReordering, intake]
  exact Loop.run_of_some drained 0

/-- Packet after packet arrives in order. -/
theorem caught_reached (selfUid connUid : UInt32) (startMs : Int) (n : Nat) :
    ∃ as s, Transition.run step (fresh selfUid connUid startMs) as = some s ∧ s.Caught n := by
  induction n with
  | zero => exact ⟨[], _, rfl, rfl, rfl, rfl, rfl⟩
  | succ n ih =>
    obtain ⟨as, s, reached, caught⟩ := ih
    have next : (emptyData (expectedSeq s.conn)).seq = expectedSeq s.conn := rfl
    refine ⟨as ++ [.data (emptyData (expectedSeq s.conn)) 0], _,
      Transition.run_append.mpr ⟨s, reached, rfl⟩, ?_⟩
    obtain ⟨_, _, _, _, frame⟩ := netHandlerData_frame s.conn (emptyData (expectedSeq s.conn)) 0
    rw [netHandlerConn_data rfl, frame, acceptData_caught caught.buffer caught.net next]
    refine ⟨by simp [caught.received], caught.buffer, caught.net, ?_⟩
    rw [expectedSeq_eq, Serial.ofNat_succ, ← caught.expected]
    rfl

theorem step_waits {pkt : Protopack} (nowMs : Int) (type : pkt.packtype = ProtopackType.data.code)
    (other : pkt.seq ≠ expectedSeq s.conn) :
    ∃ t, step s (.data pkt nowMs) = some t ∧ t.received = s.received ++ [pkt] ∧
      expectedSeq t.conn = expectedSeq s.conn ∧ t.conn.pktsNet = s.conn.pktsNet ++ [pkt] := by
  obtain ⟨_, _, _, _, frame⟩ := netHandlerData_frame s.conn pkt nowMs
  rw [acceptData, if_neg other] at frame
  exact ⟨_, if_pos type, rfl, by rw [netHandlerConn_data type, frame]; rfl, by
    rw [netHandlerConn_data type, frame]; rfl⟩

theorem step_stalls {pkt : Protopack} (nowMs : Int) (type : pkt.packtype = ProtopackType.data.code)
    (inv : s.Inv) (next : pkt.seq = expectedSeq s.conn) (low : ¬ NoneBelow s.conn) :
    ∃ t, step s (.data pkt nowMs) = some t ∧ expectedSeq t.conn = expectedSeq s.conn ∧
      ∃ p ∈ t.conn.pktsReorderBuf, p.seq = expectedSeq s.conn := by
  obtain ⟨expected, -, behind⟩ := acceptData_stalled inv next low
  obtain ⟨_, _, _, _, frame⟩ := netHandlerData_frame s.conn pkt nowMs
  exact ⟨_, if_pos type, by rw [netHandlerConn_data type, frame]; exact expected,
    by rw [netHandlerConn_data type, frame]; exact behind⟩

/-- Packet 0 of the next lap comes before the packet 2^32 - 1 that is expected. -/
def lapAhead : List ReceiverAction := [.data (emptyData 0) 0, .data (emptyData 0xFFFFFFFF) 0]

theorem reordering_stalls :
    ∃ as s t, Transition.run step (fresh 1 2 0) as = some s ∧
      Transition.run step s lapAhead = some t ∧
      expectedSeq t.conn = 0xFFFFFFFF ∧ (∃ p ∈ t.conn.pktsReorderBuf, p.seq = 0xFFFFFFFF) ∧
      ¬ Flows (fresh 1 2 0) (as ++ lapAhead) := by
  obtain ⟨as, r, reached, caught⟩ := caught_reached 1 2 0 (2 ^ 32 - 1)
  have last : expectedSeq r.conn = 0xFFFFFFFF := caught.expected
  have other : (emptyData 0).seq ≠ expectedSeq r.conn := by
    rw [last]
    decide
  obtain ⟨s, waits, -, same, net⟩ := step_waits 0 rfl other
  rw [last] at same
  have start := fresh_inv 1 2 0
  have inv : s.Inv := step_inv (run_inv start reached) waits
  -- packet 0 is one ahead of the packet expected, and below it
  have low : ¬ NoneBelow s.conn := by
    intro none
    have above := none (emptyData 0) (by simp [net]) (by rw [same]; decide)
    rw [same] at above
    exact absurd above (by decide)
  have next : (emptyData 0xFFFFFFFF).seq = expectedSeq s.conn := same.symm
  obtain ⟨t, stalls, expected, behind⟩ := step_stalls 0 rfl inv next low
  rw [same] at expected behind
  have both : Transition.run step r lapAhead = some t :=
    Transition.run_cons.mpr ⟨s, waits, Transition.run_cons.mpr ⟨t, stalls, rfl⟩⟩
  refine ⟨as, r, t, reached, both, expected, behind, ?_⟩
  intro flows
  have flowing := flows.flowing start (fresh_flowing 1 2 0) (List.prefix_refl _)
    (Transition.run_append.mpr ⟨r, reached, both⟩)
  obtain ⟨p, member, number⟩ := behind
  exact flowing ⟨p, List.mem_append_left _ member, number.trans expected.symm⟩

end Receiver

end Soter2.Rudp
