import Mathlib.Algebra.Ring.Nat
import Mathlib.Data.List.Basic
import Mathlib.Tactic.Common
import Soter2.Rudp.Endpoint

/-! # The retransmission pass (`_rudp_conn_timeouts`)

The pass goes over the pending packets until it meets one that was resent often enough;
that one it gives up, with the connection.

* `rudpConnTimeouts_cases` — what a pass does, in either case.
* `timeouts_pass` — the same of the pending packets as a whole, and how often a packet is on
  the wire in a run.
-/

namespace Soter2.Rudp

open Protocol
open scoped List

/-! ## One pass -/

def Due (conn : RudpConnection) (nowMs : Int) (pkt : RudpPendingPkt) : Prop :=
  nowMs - pkt.timestamp ≥ backoffMs conn pkt

instance (conn : RudpConnection) (nowMs : Int) (pkt : RudpPendingPkt) :
    Decidable (Due conn nowMs pkt) :=
  inferInstanceAs (Decidable (_ ≥ _))

/-- A pending packet after the pass went over it. -/
def passed (conn : RudpConnection) (nowMs : Int) (pkt : RudpPendingPkt) : RudpPendingPkt :=
  if Due conn nowMs pkt then
    { pkt with timestamp := nowMs, retransmitCount := pkt.retransmitCount + 1 } else pkt

theorem carried_passed (conn : RudpConnection) (nowMs : Int) (pkt : RudpPendingPkt) :
    (passed conn nowMs pkt).carried = pkt.carried := by
  rw [passed]
  split <;> rfl

theorem passed_count_le {conn : RudpConnection} {nowMs : Int} {pkt : RudpPendingPkt}
    (below : ¬ rudpRetransmissionCap ≤ pkt.retransmitCount) :
    (passed conn nowMs pkt).retransmitCount ≤ rudpRetransmissionCap := by
  rw [passed]
  split
  · exact Nat.lt_of_not_le below
  · exact Nat.le_of_lt (Nat.lt_of_not_le below)

/-- What goes out for a list of pending packets. -/
def resent (conn : RudpConnection) (nowMs : Int) (pkts : List RudpPendingPkt) : List Protopack :=
  (pkts.filter fun pkt => Due conn nowMs pkt).map (·.copyPack)

def Capped (pkt : RudpPendingPkt) : Prop := rudpRetransmissionCap ≤ pkt.retransmitCount

instance (pkt : RudpPendingPkt) : Decidable (Capped pkt) := inferInstanceAs (Decidable (_ ≤ _))

variable {conn : RudpConnection} {nowMs : Int} {done todo : List RudpPendingPkt}
    {pkt : RudpPendingPkt} {out : List Protopack}

section Turn

variable {s : TimeoutsLoop}

theorem timeoutsBody_pass (going : s.capped = false) (slot : s.conn.pktsFhost[s.i]? = some pkt)
    (below : ¬ Capped pkt) :
    timeoutsBody nowMs s = some { s with
      i := s.i + 1
      conn := { s.conn with pktsFhost := s.conn.pktsFhost.set s.i (passed s.conn nowMs pkt) }
      out := s.out ++ resent s.conn nowMs [pkt] } := by
  have below : ¬ pkt.retransmitCount ≥ rudpRetransmissionCap := below
  simp only [timeoutsBody, going, slot, if_neg below, Bool.false_eq_true, if_false]
  by_cases due : nowMs - pkt.timestamp ≥ backoffMs s.conn pkt
  · simp [passed, resent, Due, due]
  · obtain ⟨inside, rfl⟩ := List.getElem?_eq_some_iff.mp slot
    simp [passed, resent, Due, due]

theorem timeoutsBody_giveUp (nowMs : Int) (going : s.capped = false)
    (slot : s.conn.pktsFhost[s.i]? = some pkt) (capped : Capped pkt) :
    timeoutsBody nowMs s = some { s with
      conn := { s.conn with
        pktsFhost := SwapRemove.swapRemove s.conn.pktsFhost s.i
        closed := true }
      capped := true } := by
  have capped : pkt.retransmitCount ≥ rudpRetransmissionCap := capped
  simp only [timeoutsBody, going, slot, if_pos capped, Bool.false_eq_true, if_false]

theorem timeoutsBody_stopped (capped : s.capped = true) : timeoutsBody nowMs s = none := by
  simp [timeoutsBody, capped]

end Turn

/-- The loop with the packets it is past and those in front of it. -/
def loopAt (conn : RudpConnection) (done todo : List RudpPendingPkt) (out : List Protopack) :
    TimeoutsLoop :=
  ⟨done.length, { conn with pktsFhost := done ++ todo }, out, false⟩

theorem slot_loopAt :
    (loopAt conn done (pkt :: todo) out).conn.pktsFhost[(loopAt conn done (pkt :: todo) out).i]?
      = some pkt := by
  simp [loopAt]

theorem timeoutsBody_loopAt (below : ¬ Capped pkt) :
    timeoutsBody nowMs (loopAt conn done (pkt :: todo) out) =
      some (loopAt conn (done ++ [passed conn nowMs pkt]) todo
        (out ++ resent conn nowMs [pkt])) := by
  rw [timeoutsBody_pass rfl slot_loopAt below]
  have past : (done ++ pkt :: todo).set done.length (passed conn nowMs pkt) = done ++
      [passed conn nowMs pkt] ++ todo := by simp
  have next : (done ++ [passed conn nowMs pkt]).length = done.length + 1 := by simp
  simp only [loopAt, next, ← past]
  rfl

/-- All packets were below the cap: each one that was due went out once. -/
structure PassedOver (conn : RudpConnection) (nowMs : Int)
    (result : Int × RudpConnection × List Protopack) : Prop where
  below : ∀ pkt ∈ conn.pktsFhost, ¬ Capped pkt
  result : result = (0, { conn with pktsFhost := conn.pktsFhost.map (passed conn nowMs) },
    resent conn nowMs conn.pktsFhost)

/-- The pass ended at a packet that was at the cap; the packets in front of it were passed. -/
structure GaveUp (conn : RudpConnection) (nowMs : Int) (front : List RudpPendingPkt)
    (lost : RudpPendingPkt) (back : List RudpPendingPkt)
    (result : Int × RudpConnection × List Protopack) : Prop where
  pending : conn.pktsFhost = front ++ lost :: back
  below : ∀ pkt ∈ front, ¬ Capped pkt
  capped : Capped lost
  code : result.1 = -1
  frame : result.2.1 = { conn with pktsFhost := result.2.1.pktsFhost, closed := true }
  kept : result.2.1.pktsFhost ~ front.map (passed conn nowMs) ++ back
  out : result.2.2 = resent conn nowMs front

/-- The packets below the cap are passed one by one. -/
theorem run_front {front : List RudpPendingPkt} (below : ∀ pkt ∈ front, ¬ Capped pkt) :
    Loop.run (timeoutsBody nowMs) (front.length + todo.length)
      (loopAt conn done (front ++ todo) out) =
      Loop.run (timeoutsBody nowMs) todo.length
        (loopAt conn (done ++ front.map (passed conn nowMs)) todo
          (out ++ resent conn nowMs front)) := by
  induction front generalizing done out with
  | nil => simp [resent]
  | cons pkt front ih =>
    obtain ⟨here, rest⟩ := List.forall_mem_cons.mp below
    have fuel : (pkt :: front).length + todo.length = front.length + todo.length + 1 := by
      simp; omega
    rw [fuel, List.cons_append, Loop.run_of_some (timeoutsBody_loopAt here), ih rest]
    have outs : out ++ resent conn nowMs [pkt] ++ resent conn nowMs front = out ++
        resent conn nowMs (pkt :: front) := by
      by_cases due : Due conn nowMs pkt <;> simp [resent, due]
    rw [outs, List.map_cons, List.append_assoc]
    rfl

/-- The first packet at the cap, if there is one. -/
theorem split_capped (pkts : List RudpPendingPkt) :
    (∀ pkt ∈ pkts, ¬ Capped pkt) ∨
      ∃ front lost back, pkts = front ++ lost :: back ∧ (∀ pkt ∈ front, ¬ Capped pkt) ∧
        Capped lost := by
  induction pkts with
  | nil => exact .inl (by simp)
  | cons pkt pkts ih =>
    by_cases here : Capped pkt
    · exact .inr ⟨[], pkt, pkts, rfl, by simp, here⟩
    · obtain below | ⟨front, lost, back, rfl, below, capped⟩ := ih
      · exact .inl (List.forall_mem_cons.mpr ⟨here, below⟩)
      · exact .inr ⟨pkt :: front, lost, back, rfl, List.forall_mem_cons.mpr ⟨here, below⟩, capped⟩

theorem rudpConnTimeouts_cases (conn : RudpConnection) (nowMs : Int) :
    PassedOver conn nowMs (rudpConnTimeouts conn nowMs) ∨
      ∃ front lost back, GaveUp conn nowMs front lost back (rudpConnTimeouts conn nowMs) := by
  have start : (⟨0, conn, [], false⟩ : TimeoutsLoop) = loopAt conn [] conn.pktsFhost [] := rfl
  obtain below | ⟨front, lost, back, pending, below, capped⟩ := split_capped conn.pktsFhost
  · left
    have run := @run_front conn nowMs [] [] [] conn.pktsFhost below
    simp only [List.append_nil, List.nil_append, List.length_nil, Nat.add_zero] at run
    refine ⟨below, ?_⟩
    simp only [rudpConnTimeouts, timeoutsLoop, start, run]
    simp [Loop.run, loopAt]
  · right
    refine ⟨front, lost, back, ?_⟩
    have run := @run_front conn nowMs [] (lost :: back) [] front below
    have slot := @slot_loopAt conn (front.map (passed conn nowMs)) back lost
      (resent conn nowMs front)
    have giveUp := timeoutsBody_giveUp nowMs rfl slot capped
    have loop : timeoutsLoop conn nowMs = {
        i := (front.map (passed conn nowMs)).length
        conn := { conn with
          pktsFhost := SwapRemove.swapRemove (front.map (passed conn nowMs) ++ lost :: back)
            (front.map (passed conn nowMs)).length
          closed := true }
        out := resent conn nowMs front
        capped := true } := by
      rw [timeoutsLoop, start, pending, List.length_append, run, List.nil_append, List.nil_append,
        List.length_cons, Loop.run_of_some giveUp, Loop.run_of_none (timeoutsBody_stopped rfl)]
      rfl
    simp only [rudpConnTimeouts, loop]
    -- the last packet takes the place of the one given up
    have kept := (SwapRemove.perm_swapRemove slot).symm.trans List.perm_middle
    exact ⟨pending, below, capped, rfl, rfl, kept.cons_inv, rfl⟩

/-! ## Along a run -/

/-- A packet of the connection on its way to `pvd_sender_send`. -/
inductive Transmission where
  | first (pkt : Protopack)
  | again (pkt : Protopack)
deriving DecidableEq

/-- What `rudp_conn_send` and `_rudp_conn_timeouts` send in a step. -/
def Endpoint.transmits (s : Endpoint) : EndpointAction → List Transmission
  | .send pkt nowMs => (rudpConnSend s.conn pkt nowMs).2.2.map .first
  | .timeouts nowMs => if s.registered then (rudpConnTimeouts s.conn nowMs).2.2.map .again else []
  | _ => []

/-- How often the entries for a packet can still be resent. -/
def budget (p : Protopack) (pkts : List RudpPendingPkt) : Nat :=
  ((pkts.filter fun pkt => pkt.copyPack = p).map fun pkt =>
    rudpRetransmissionCap - pkt.retransmitCount).sum

section Budget

variable {p : Protopack} {pkts pkts' : List RudpPendingPkt}

@[simp] theorem budget_nil : budget p [] = 0 := rfl

theorem budget_append : budget p (pkts ++ pkts') = budget p pkts + budget p pkts' := by
  simp [budget]

theorem budget_cons : budget p (pkt :: pkts) =
    (if pkt.copyPack = p then rudpRetransmissionCap - pkt.retransmitCount else 0) +
      budget p pkts := by
  by_cases own : pkt.copyPack = p <;> simp [budget, own]

theorem budget_perm (h : pkts ~ pkts') : budget p pkts = budget p pkts' :=
  ((h.filter _).map _).sum_nat

/-- What is sent again is taken from the budget. -/
theorem budget_passed (below : ∀ pkt ∈ pkts, ¬ Capped pkt) :
    budget p (pkts.map (passed conn nowMs)) + (resent conn nowMs pkts).count p = budget p pkts := by
  induction pkts with
  | nil => rfl
  | cons pkt pkts ih =>
    obtain ⟨here, rest⟩ := List.forall_mem_cons.mp below
    have before := ih rest
    rw [Capped, Nat.not_le] at here
    rw [List.map_cons, budget_cons, budget_cons]
    by_cases due : Due conn nowMs pkt
    · by_cases own : pkt.copyPack = p
      · simp [passed, resent, due, own] at before ⊢
        omega
      · simp [passed, resent, due, own] at before ⊢
        omega
    · simp [passed, resent, due] at before ⊢
      omega

end Budget

/-! ## What a step does to the pending packets -/

theorem netHandlerConn_removes (conn : RudpConnection) (pkt : Protopack) (nowMs : Int) :
    ∃ removed, conn.pktsFhost ~ removed ++ (netHandlerConn conn pkt nowMs).1.pktsFhost := by
  simp only [netHandlerConn]
  split
  · obtain ⟨same, -, -⟩ := netHandlerData_sending conn pkt nowMs
    refine ⟨[], List.Perm.of_eq ?_⟩
    rw [same, List.nil_append]
  · split
    · obtain ⟨removed, split, -⟩ := rack_removes conn pkt nowMs
      exact ⟨removed, split⟩
    · exact ⟨[], List.Perm.refl _⟩

namespace Endpoint

variable {s s' : Endpoint} {a : EndpointAction}

/-- The step sends no DATA and leaves some of the pending packets as they are. -/
def Keeps (s : Endpoint) (a : EndpointAction) (s' : Endpoint) : Prop :=
  s.transmits a = [] ∧ ∃ removed, s.conn.pktsFhost ~ removed ++ s'.conn.pktsFhost

/-- The step is an accepted call of `rudp_conn_send`. -/
def Sends (s : Endpoint) (a : EndpointAction) (s' : Endpoint) : Prop :=
  ∃ pkt nowMs, s.transmits a = [.first (pendingOf s.conn pkt nowMs).copyPack] ∧
    s'.conn.pktsFhost = s.conn.pktsFhost ++ [pendingOf s.conn pkt nowMs]

/-- The step is a pass over the packets in `front`. -/
def Passes (s : Endpoint) (a : EndpointAction) (s' : Endpoint) : Prop :=
  ∃ nowMs removed front back, (∀ pkt ∈ front, ¬ Capped pkt) ∧
    s.transmits a = (resent s.conn nowMs front).map .again ∧
    s.conn.pktsFhost ~ removed ++ (front ++ back) ∧
      s'.conn.pktsFhost ~ front.map (passed s.conn nowMs) ++ back

theorem keeps_of_eq (quiet : s.transmits a = []) (same : s'.conn.pktsFhost = s.conn.pktsFhost) :
    s.Keeps a s' :=
  ⟨quiet, [], List.Perm.of_eq same.symm⟩

theorem close_keeps (s : Endpoint) (quiet : s.transmits a = []) : s.Keeps a s.close :=
  ⟨quiet, s.conn.pktsFhost, List.Perm.of_eq (List.append_nil _).symm⟩

theorem timeouts_passes (nowMs : Int) (registered : s.registered = true)
    (after : s'.conn = (rudpConnTimeouts s.conn nowMs).2.1) : s.Passes (.timeouts nowMs) s' := by
  rw [Passes, after]
  simp only [transmits, registered, if_true]
  obtain ⟨below, result⟩ | ⟨front, lost, back, gaveUp⟩ := rudpConnTimeouts_cases s.conn nowMs
  · rw [result]
    exact ⟨nowMs, [], s.conn.pktsFhost, [], below, rfl, by simp, by simp⟩
  · refine ⟨nowMs, [lost], front, back, gaveUp.below, by rw [gaveUp.out], ?_, gaveUp.kept⟩
    rw [gaveUp.pending]
    exact List.perm_middle

theorem step_pending (h : step s a = some s') : s.Keeps a s' ∨ s.Sends a s' ∨ s.Passes a s' := by
  cases a with
  | send pkt nowMs =>
    cases h
    obtain ⟨ret, -, refused⟩ | ⟨-, -, accepted⟩ := rudpConnSend_pending s.conn pkt nowMs
    · exact .inl (keeps_of_eq (by simp [transmits, refused]) (by simp [refused]))
    · exact .inr (.inl ⟨pkt, nowMs, by simp [transmits, accepted], by simp [accepted]⟩)
  | timeouts nowMs =>
    cases h
    cases registered : s.registered with
    | true => exact .inr (.inr (timeouts_passes nowMs registered (by simp)))
    | false => exact .inl (keeps_of_eq (by simp [transmits, registered]) (by simp))
  | arrives pkt nowMs =>
    cases h
    -- no arrival sends anything: it only takes away what it acknowledges
    left
    split
    · rw [handle]
      split
      · exact close_keeps s rfl
      · obtain ⟨removed, split⟩ := netHandlerConn_removes s.conn pkt nowMs
        exact ⟨rfl, removed, split⟩
    · exact keeps_of_eq rfl rfl
  | close =>
    cases h
    left
    split
    · exact close_keeps s rfl
    · exact keeps_of_eq rfl rfl
  | recv =>
    simp only [step, Option.some.injEq] at h
    subst h
    left
    obtain ⟨pkt, rest, -, -, popped⟩ | ⟨ret, same⟩ := rudpConnRecv_cases s.conn
    · exact keeps_of_eq rfl (by simp only [popped])
    · exact keeps_of_eq rfl (by simp only [same])

/-! ## No packet is resent more often than the cap -/

/-- How often what was sent first was sent again, and can still be. -/
structure WithinCap (out : List Transmission) (s : Endpoint) : Prop where
  budgeted : ∀ p, out.count (.again p) + budget p s.conn.pktsFhost ≤ rudpRetransmissionCap *
    out.count (.first p)
  counts : ∀ pkt ∈ s.conn.pktsFhost, pkt.retransmitCount ≤ rudpRetransmissionCap

theorem budget_le_of_removed {p : Protopack} {pkts removed kept : List RudpPendingPkt}
    (split : pkts ~ removed ++ kept) : budget p kept ≤ budget p pkts := by
  rw [budget_perm split, budget_append]
  exact Nat.le_add_left _ _

theorem count_again (p : Protopack) (pkts : List Protopack) :
    (pkts.map Transmission.again).count (.again p) = pkts.count p ∧
      (pkts.map Transmission.again).count (.first p) = 0 := by
  refine ⟨List.count_map_of_injective pkts _ (fun _ _ same => Transmission.again.inj same) p, ?_⟩
  exact List.count_eq_zero.mpr (by simp)

theorem step_withinCap {out : List Transmission} (inv : WithinCap out s) (h : step s a = some s') :
    WithinCap (out ++ s.transmits a) s' := by
  obtain ⟨quiet, removed, split⟩ | ⟨pkt, nowMs, sent, after⟩ |
    ⟨nowMs, removed, front, back, below, again, split, after⟩ := step_pending h
  · rw [quiet, List.append_nil]
    refine ⟨fun p => ?_, fun pkt member =>
      inv.counts pkt (split.mem_iff.mpr (List.mem_append_right removed member))⟩
    exact Nat.le_trans (Nat.add_le_add_left (budget_le_of_removed split) _) (inv.budgeted p)
  · -- a packet sent enters with its full budget
    rw [sent]
    refine ⟨fun p => ?_, ?_⟩
    · have before := inv.budgeted p
      have fresh : rudpRetransmissionCap - (pendingOf s.conn pkt nowMs).retransmitCount
          = rudpRetransmissionCap := rfl
      rw [after, budget_append, budget_cons, budget_nil, List.count_append, List.count_append,
        fresh]
      by_cases own : (pendingOf s.conn pkt nowMs).copyPack = p
      · simp [own, Nat.mul_add]
        omega
      · simp [own]
        omega
    · intro ppkt member
      rw [after] at member
      cases List.mem_append.mp member with
      | inl old => exact inv.counts ppkt old
      | inr new =>
        obtain rfl := List.mem_singleton.mp new
        exact Nat.zero_le _
  · -- each packet sent again takes one from what is left to it
    rw [again]
    refine ⟨fun p => ?_, ?_⟩
    · obtain ⟨counted, none⟩ := count_again p (resent s.conn nowMs front)
      have before := inv.budgeted p
      have total := @budget_passed s.conn nowMs p front below
      rw [budget_perm split, budget_append, budget_append] at before
      rw [budget_perm after, budget_append, List.count_append, List.count_append, counted, none,
        Nat.add_zero]
      omega
    · intro ppkt member
      rw [after.mem_iff, List.mem_append] at member
      cases member with
      | inl fore =>
        obtain ⟨old, here, rfl⟩ := List.mem_map.mp fore
        exact passed_count_le (below old here)
      | inr back => exact inv.counts ppkt (split.mem_iff.mpr (by simp [back]))

theorem run_withinCap {selfUid connUid : UInt32} {startMs : Int} {as : List EndpointAction}
    (reached : Transition.run step (fresh selfUid connUid startMs) as = some s) :
    WithinCap (Transition.emitted step transmits (fresh selfUid connUid startMs) as) s := by
  have start : WithinCap [] (fresh selfUid connUid startMs) :=
    ⟨fun p => by simp [fresh, rudpConnNew], by simp [fresh, rudpConnNew]⟩
  simpa using Transition.emitted_invariant (fun _ _ _ _ => step_withinCap) start reached

end Endpoint

/-! ## The pass and the runs -/

/-- How often a packet is on the wire in a run, and how often it was accepted. -/
def onWire (p : Protopack) (out : List Transmission) : Nat :=
  out.count (.first p) + out.count (.again p)

/-- A pass either resends what is due, by whole milliseconds, or gives up one packet that was
    resent as often as the cap allows, with the connection; no packet is ever on the wire more
    often. -/
theorem timeouts_pass (conn : RudpConnection) (nowMs : Int) :
    let r := rudpConnTimeouts conn nowMs
    (r.1 = 0 ∧ (∀ pkt ∈ conn.pktsFhost, ¬ Capped pkt) ∧
        r.2.1 = { conn with pktsFhost := conn.pktsFhost.map (passed conn nowMs) } ∧
        r.2.1.pktsFhost.map RudpPendingPkt.carried = conn.pktsFhost.map RudpPendingPkt.carried ∧
        r.2.2 = (conn.pktsFhost.filter fun pkt => Due conn nowMs pkt).map (·.copyPack) ∨
      r.1 = -1 ∧ r.2.1 = { conn with pktsFhost := r.2.1.pktsFhost, closed := true } ∧
        ∃ lost ∈ conn.pktsFhost, Capped lost ∧
        conn.pktsFhost.map RudpPendingPkt.carried ~ lost.carried ::
          r.2.1.pktsFhost.map RudpPendingPkt.carried) ∧
      ∀ (selfUid connUid : UInt32) (startMs : Int) (as : List EndpointAction) (s : Endpoint),
        Transition.run Endpoint.step (Endpoint.fresh selfUid connUid startMs) as = some s →
          (∀ pkt ∈ s.conn.pktsFhost, pkt.retransmitCount ≤ rudpRetransmissionCap) ∧
          let out := Transition.emitted Endpoint.step Endpoint.transmits
            (Endpoint.fresh selfUid connUid startMs) as
          ∀ p, onWire p out ≤ (1 + rudpRetransmissionCap) * out.count (.first p) := by
  intro r
  -- the visit changes the times and counts of a packet, never what it carries
  have sameCarried : ∀ pkts : List RudpPendingPkt, (pkts.map (passed conn nowMs)).map
      RudpPendingPkt.carried =
      pkts.map RudpPendingPkt.carried := by
    intro pkts
    rw [List.map_map]
    exact List.map_congr_left fun pkt _ => carried_passed conn nowMs pkt
  constructor
  · obtain ⟨below, result⟩ | ⟨front, lost, back, gaveUp⟩ := rudpConnTimeouts_cases conn nowMs
    · left
      simp only [r, result]
      exact ⟨trivial, below, trivial, sameCarried _, rfl⟩
    · right
      refine ⟨gaveUp.code, gaveUp.frame, lost, by simp [gaveUp.pending], gaveUp.capped, ?_⟩
      -- behind the packet given up the loop is not run, and the array is closed up
      have kept := gaveUp.kept.map RudpPendingPkt.carried
      rw [List.map_append, sameCarried, ← List.map_append] at kept
      rw [gaveUp.pending]
      exact (List.perm_middle.map _).trans (kept.symm.cons lost.carried)
  · intro selfUid connUid startMs as s reached
    have within := Endpoint.run_withinCap reached
    refine ⟨within.counts, fun p => ?_⟩
    -- no packet is sent again more often than its budget allows
    have again := (Nat.le_add_right _ _).trans (within.budgeted p)
    rw [onWire, Nat.add_mul, Nat.one_mul]
    exact Nat.add_le_add_left again _

/-- A connection with an odd average and one packet that was sent at time 0. -/
def oddRtt : RudpConnection :=
  { rudpConnNew 1 2 0 with
    avgRttMs := 251
    pktsFhost := [⟨0, 0, Receiver.emptyData 0, .sent, 0, 0⟩] }

/-- One and a half times the average are 376.5 milliseconds, and the packet is resent after
    376. -/
theorem resent_before_backoff :
    (rudpConnTimeouts oddRtt 376).1 = 0 ∧
      (rudpConnTimeouts oddRtt 376).2.2 = [Receiver.emptyData 0] ∧
      ∀ pkt ∈ oddRtt.pktsFhost, 2 * (376 - pkt.timestamp) < oddRtt.avgRttMs *
        (3 + 2 * (pkt.retransmitCount : Int)) :=
  ⟨by decide, by decide, by simp [oddRtt, rudpConnNew]⟩

end Soter2.Rudp
