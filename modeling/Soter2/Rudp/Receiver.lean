import Mathlib.Data.List.Basic
import Mathlib.Data.List.Perm.Subperm
import Mathlib.Tactic.Common
import Soter2.Library.Transition
import Soter2.Rudp.Handler

/-! # The receiving side of a connection

A receiver handles DATA packets with any sequence number and any payload, and the
application takes packets from its queue.  `ReceiverInv` is kept by every turn of the two
loops of `_rudp_conn_reordering`, so it holds at every moment of every run:

* `receiver_in_order` — what is delivered is numbered 0, 1, 2, …, each packet delivered
  was received, none twice, and the reorder buffer stays sorted inside its window.
-/

namespace Soter2.Rudp

open Protocol
open scoped List

/-- The two ways the code treats the sentinel and the last number come to the same. -/
theorem expectedSeq_eq (conn : RudpConnection) : expectedSeq conn = conn.lastRecvedSeq + 1 := by
  by_cases sentinel : conn.lastRecvedSeq = uint32Max
  · rw [expectedSeq, if_pos sentinel, sentinel]
    rfl
  · rw [expectedSeq, if_neg sentinel]

/-! ## The invariant -/

/-- The packets appended to `pkts_reordered` so far; `taken` are those the application
    has already popped. -/
def appended (taken : List Protopack) (conn : RudpConnection) : List Protopack :=
  taken ++ conn.pktsReordered

theorem appended_grows {conn conn' : RudpConnection} (taken : List Protopack)
    (kept : conn.pktsReordered <+: conn'.pktsReordered) :
    (appended taken conn).length ≤ (appended taken conn').length := by
  rw [appended, appended, List.length_append, List.length_append]
  exact Nat.add_le_add_left kept.length_le _

structure BufferOrdered (conn : RudpConnection) : Prop where
  increasing : conn.pktsReorderBuf.Pairwise (fun p q => p.seq < q.seq)
  distinct : (conn.pktsReorderBuf.map (·.seq)).Nodup
  bounded : conn.pktsReorderBuf.length ≤ rudpReorderWindow + 1
  window : ∀ p ∈ conn.pktsReorderBuf, Serial.ahead (expectedSeq conn) p.seq ≤ rudpReorderWindow

/-- The receiver invariant, where `received` are the packets handled so far. -/
structure ReceiverInv (received taken : List Protopack) (conn : RudpConnection) : Prop where
  numbered : ∀ k p, (appended taken conn)[k]? = some p → p.seq = UInt32.ofNat k
  expected : expectedSeq conn = UInt32.ofNat (appended taken conn).length
  sorted : UniqueInsert.Increasing seqKey conn.pktsReorderBuf
  window : ∀ p ∈ conn.pktsReorderBuf, Serial.ahead (expectedSeq conn) p.seq ≤ rudpReorderWindow
  once : appended taken conn ++ (conn.pktsReorderBuf ++ conn.pktsNet) <+~ received

namespace ReceiverInv

variable {received taken : List Protopack} {conn : RudpConnection}

theorem distinct (inv : ReceiverInv received taken conn) :
    (conn.pktsReorderBuf.map (·.seq)).Nodup := by
  apply List.pairwise_map.mpr
  apply inv.sorted.imp
  intro p q below same
  exact absurd (congrArg UInt32.toNat same) (Nat.ne_of_lt below)

/-- A sorted buffer inside the window cannot be long. -/
theorem bufferOrdered (inv : ReceiverInv received taken conn) : BufferOrdered conn where
  increasing := inv.sorted
  distinct := inv.distinct
  bounded := by
    have short := @Serial.length_le_of_window (expectedSeq conn) rudpReorderWindow _ inv.distinct
      (by simpa using inv.window)
    simpa using short
  window := inv.window

theorem appended_subperm (inv : ReceiverInv received taken conn) :
    appended taken conn <+~ received :=
  (List.sublist_append_left _ _).subperm.trans inv.once

theorem mono (inv : ReceiverInv received taken conn) {more : List Protopack}
    (le : received <+~ more) : ReceiverInv more taken conn :=
  ⟨inv.numbered, inv.expected, inv.sorted, inv.window, inv.once.trans le⟩

theorem mem_received (inv : ReceiverInv received taken conn) {p : Protopack}
    (h : p ∈ appended taken conn ∨ p ∈ conn.pktsReorderBuf ∨ p ∈ conn.pktsNet) : p ∈ received := by
  apply inv.once.subset
  simpa using h

end ReceiverInv

/-- The invariant reads four fields of the connection. -/
theorem ReceiverInv.congr {received taken : List Protopack} {conn conn' : RudpConnection}
    (inv : ReceiverInv received taken conn) (buffer : conn'.pktsReorderBuf = conn.pktsReorderBuf)
    (net : conn'.pktsNet = conn.pktsNet) (ordered : conn'.pktsReordered = conn.pktsReordered)
    (last : conn'.lastRecvedSeq = conn.lastRecvedSeq) : ReceiverInv received taken conn' := by
  have same : appended taken conn' = appended taken conn := by rw [appended, ordered, appended]
  have next : expectedSeq conn' = expectedSeq conn := by rw [expectedSeq_eq, last, expectedSeq_eq]
  refine ⟨?_, ?_, ?_, ?_, ?_⟩
  · rw [same]; exact inv.numbered
  · rw [next, same]; exact inv.expected
  · rw [buffer]; exact inv.sorted
  · rw [buffer, next]; exact inv.window
  · rw [same, buffer, net]; exact inv.once

/-! ## One turn of each loop -/

variable {received taken : List Protopack} {conn conn' : RudpConnection}

theorem reorderPop_cases (h : reorderPop conn = some conn') :
    ∃ pkt rest, conn.pktsNet = pkt :: rest ∧
      ((rudpReorderWindow < Serial.ahead (expectedSeq conn) pkt.seq ∧
          conn' = { conn with pktsNet := rest }) ∨
        (Serial.ahead (expectedSeq conn) pkt.seq ≤ rudpReorderWindow ∧
          conn' = { conn with
            pktsNet := rest
            pktsReorderBuf := UniqueInsert.insert seqKey pkt conn.pktsReorderBuf })) := by
  simp only [reorderPop] at h
  split at h
  · cases h
  next pkt rest queue =>
    refine ⟨pkt, rest, queue, ?_⟩
    have test := @Serial.signedDiff_window pkt.seq (expectedSeq conn) rudpReorderWindow (by decide)
    split at h
    next outside => exact .inl ⟨test.mp outside, (Option.some.inj h).symm⟩
    next inside =>
      exact .inr ⟨Nat.le_of_not_lt (fun far => inside (test.mpr far)), (Option.some.inj h).symm⟩

theorem reorderDrain_cases (h : reorderDrain conn = some conn') :
    ∃ p rest, conn.pktsReorderBuf = p :: rest ∧ p.seq = expectedSeq conn ∧
      conn' = { conn with
        lastRecvedSeq := p.seq
        pktsReorderBuf := rest
        pktsReordered := conn.pktsReordered ++ [p] } := by
  simp only [reorderDrain] at h
  split at h
  · cases h
  next p rest buffer =>
    split at h
    next next => exact ⟨p, rest, buffer, next, (Option.some.inj h).symm⟩
    next => cases h

theorem reorderIntake_net (conn : RudpConnection) : (reorderIntake conn).pktsNet = [] := by
  have exit : reorderPop (reorderIntake conn) = none := by
    refine Loop.run_exit (fun c => c.pktsNet.length) ?_ _ _ (Nat.le_refl _)
    intro c c' h
    obtain ⟨pkt, rest, queue, ⟨-, rfl⟩ | ⟨-, rfl⟩⟩ := reorderPop_cases h
    · simp [queue]
    · simp [queue]
  simp only [reorderPop] at exit
  split at exit
  · assumption
  · split at exit <;> cases exit

theorem reorderPop_inv (inv : ReceiverInv received taken conn) (h : reorderPop conn = some conn') :
    ReceiverInv received taken conn' := by
  obtain ⟨pkt, rest, queue, ⟨-, rfl⟩ | ⟨inside, rfl⟩⟩ := reorderPop_cases h
  · refine ⟨inv.numbered, inv.expected, inv.sorted, inv.window, ?_⟩
    refine List.Subperm.trans ?_ inv.once
    rw [queue]
    exact (((List.sublist_cons_self pkt rest).append_left _).append_left _).subperm
  · refine ⟨inv.numbered, inv.expected, UniqueInsert.insert_increasing inv.sorted, ?_, ?_⟩
    · intro p hp
      rcases UniqueInsert.mem_insert hp with rfl | hp
      · exact inside
      · exact inv.window p hp
    · refine List.Subperm.trans ?_ inv.once
      rw [queue]
      -- a duplicate is dropped, any other packet moves from the queue to the buffer
      cases found : (UniqueInsert.scan seqKey (seqKey pkt) conn.pktsReorderBuf).2 with
      | true =>
        show appended taken conn ++ (UniqueInsert.insert seqKey pkt conn.pktsReorderBuf ++ rest) <+~
          _
        rw [UniqueInsert.insert_of_found found]
        exact (((List.sublist_cons_self pkt rest).append_left _).append_left _).subperm
      | false =>
        have moved : UniqueInsert.insert seqKey pkt conn.pktsReorderBuf ++ rest ~
            conn.pktsReorderBuf ++ pkt :: rest :=
          ((UniqueInsert.insert_perm found).append_right rest).trans List.perm_middle.symm
        exact (moved.append_left _).subperm

theorem reorderDrain_inv (inv : ReceiverInv received taken conn)
    (h : reorderDrain conn = some conn') : ReceiverInv received taken conn' := by
  obtain ⟨p, rest, buffer, next, rfl⟩ := reorderDrain_cases h
  have grown : appended taken { conn with
      lastRecvedSeq := p.seq
      pktsReorderBuf := rest
      pktsReordered := conn.pktsReordered ++ [p] } = appended taken conn ++ [p] := by
    simp [appended]
  have sorted := inv.sorted
  rw [buffer] at sorted
  obtain ⟨above, tail⟩ := List.pairwise_cons.mp sorted
  refine ⟨?_, ?_, tail, ?_, ?_⟩
  · -- the place of the new packet is the number expected
    intro k q hq
    rw [grown] at hq
    cases Nat.lt_or_ge k (appended taken conn).length with
    | inl old =>
      rw [List.getElem?_append_left old] at hq
      exact inv.numbered k q hq
    | inr new =>
      rw [List.getElem?_append_right new] at hq
      obtain ⟨last, rfl⟩ : k - (appended taken conn).length = 0 ∧ p = q := by
        cases hk : k - (appended taken conn).length with
        | zero => rw [hk] at hq; exact ⟨rfl, by simpa using hq⟩
        | succ n => rw [hk] at hq; simp at hq
      obtain rfl : k = (appended taken conn).length := by omega
      exact next.trans inv.expected
  · rw [grown, expectedSeq_eq, List.length_append, List.length_singleton, Serial.ofNat_succ,
      ← inv.expected, ← next]
  · -- what stays behind has another number, so it comes one step nearer
    intro q hq
    have near := inv.window q (buffer ▸ List.mem_cons_of_mem p hq)
    have other : q.seq ≠ expectedSeq conn := by
      intro same
      have below : seqKey p < seqKey q := above q hq
      simp only [seqKey, next, same] at below
      omega
    have step := Serial.ahead_succ other
    rw [expectedSeq_eq]
    show Serial.ahead (p.seq + 1) q.seq ≤ _
    rw [next]
    omega
  · rw [grown]
    have once := inv.once
    rw [buffer] at once
    simpa using once

/-! ## Handling a DATA packet -/

theorem passNet_inv (inv : ReceiverInv received taken conn) (pkt : Protopack) :
    ReceiverInv (received ++ [pkt]) taken (rudpConnPassNet conn pkt) := by
  refine ⟨inv.numbered, inv.expected, inv.sorted, inv.window, ?_⟩
  have once : (appended taken conn ++ (conn.pktsReorderBuf ++ conn.pktsNet)) ++ [pkt] <+~
      received ++ [pkt] := (List.subperm_append_right [pkt]).mpr inv.once
  simpa [rudpConnPassNet, appended] using once

theorem reorderIntake_inv (inv : ReceiverInv received taken conn) :
    ReceiverInv received taken (reorderIntake conn) :=
  Loop.run_invariant (fun _ _ => reorderPop_inv) _ inv

theorem reorderingMoments_inv (inv : ReceiverInv received taken conn) :
    ∀ c ∈ reorderingMoments conn, ReceiverInv received taken c := by
  intro c hc
  cases List.mem_append.mp hc with
  | inl intake => exact Loop.moments_invariant (fun _ _ => reorderPop_inv) _ inv c intake
  | inr drain =>
    exact Loop.moments_invariant (fun _ _ => reorderDrain_inv) _ (reorderIntake_inv inv) c drain

theorem reordering_inv (inv : ReceiverInv received taken conn) :
    ReceiverInv received taken (rudpConnReordering conn) :=
  Loop.run_invariant (fun _ _ => reorderDrain_inv) _ (reorderIntake_inv inv)

theorem acceptData_inv (inv : ReceiverInv received taken conn) (pkt : Protopack) :
    ReceiverInv (received ++ [pkt]) taken (acceptData conn pkt) := by
  by_cases next : pkt.seq = expectedSeq conn
  · rw [acceptData, if_pos next]
    exact reordering_inv (passNet_inv inv pkt)
  · rw [acceptData, if_neg next]
    exact passNet_inv inv pkt

/-- The acknowledgement reads the receiving side and does not write it. -/
theorem acknowledge_inv (inv : ReceiverInv received taken conn) (inOrder : Bool) (nowMs : Int) :
    ReceiverInv received taken (acknowledge conn inOrder nowMs).1 := by
  obtain ⟨_, _, _, _, frame⟩ := acknowledge_frame conn inOrder nowMs
  rw [frame]
  exact ⟨inv.numbered, inv.expected, inv.sorted, inv.window, inv.once⟩

theorem netHandlerData_inv (inv : ReceiverInv received taken conn) (pkt : Protopack) (nowMs : Int) :
    ReceiverInv (received ++ [pkt]) taken (netHandlerData conn pkt nowMs).1 :=
  acknowledge_inv (acceptData_inv inv pkt) _ nowMs

theorem netHandlerDataMoments_inv (inv : ReceiverInv received taken conn) (pkt : Protopack)
    (nowMs : Int) :
    ∀ c ∈ netHandlerDataMoments conn pkt nowMs, ReceiverInv (received ++ [pkt]) taken c := by
  have before := inv.mono (List.sublist_append_left received [pkt]).subperm
  exact netHandlerDataMoments_forall before (passNet_inv inv pkt)
    (reorderingMoments_inv (passNet_inv inv pkt)) (netHandlerData_inv inv pkt nowMs)

/-! ## Deliveries are never taken back -/

theorem reorderPop_delivered (h : reorderPop conn = some conn') :
    conn'.pktsReordered = conn.pktsReordered := by
  obtain ⟨_, _, _, ⟨_, rfl⟩ | ⟨_, rfl⟩⟩ := reorderPop_cases h
  · rfl
  · rfl

theorem reorderDrain_delivered (h : reorderDrain conn = some conn') :
    conn.pktsReordered <+: conn'.pktsReordered := by
  obtain ⟨p, _, _, _, rfl⟩ := reorderDrain_cases h
  exact List.prefix_append _ [p]

theorem reorderIntake_delivered (conn : RudpConnection) :
    (reorderIntake conn).pktsReordered = conn.pktsReordered := by
  have turn : ∀ c c' : RudpConnection, c.pktsReordered = conn.pktsReordered →
      reorderPop c = some c' → c'.pktsReordered = conn.pktsReordered :=
    fun _ _ same h => (reorderPop_delivered h).trans same
  exact Loop.run_invariant turn _ rfl

theorem reorderingMoments_delivered (conn : RudpConnection) :
    ∀ c ∈ reorderingMoments conn, conn.pktsReordered <+: c.pktsReordered := by
  have popTurn : ∀ c c' : RudpConnection, conn.pktsReordered <+: c.pktsReordered →
      reorderPop c = some c' → conn.pktsReordered <+: c'.pktsReordered :=
    fun _ _ kept h => (reorderPop_delivered h).symm ▸ kept
  have drainTurn : ∀ c c' : RudpConnection, conn.pktsReordered <+: c.pktsReordered →
      reorderDrain c = some c' → conn.pktsReordered <+: c'.pktsReordered :=
    fun _ _ kept h => kept.trans (reorderDrain_delivered h)
  have start : conn.pktsReordered <+: (reorderIntake conn).pktsReordered := by
    rw [reorderIntake_delivered]
  intro c hc
  cases List.mem_append.mp hc with
  | inl intake => exact Loop.moments_invariant popTurn _ (List.prefix_refl _) c intake
  | inr drain => exact Loop.moments_invariant drainTurn _ start c drain

theorem reordering_mem_moments (conn : RudpConnection) :
    rudpConnReordering conn ∈ reorderingMoments conn :=
  List.mem_append_right _ (Loop.run_mem_moments _ _)

theorem acceptData_delivered (conn : RudpConnection) (pkt : Protopack) :
    conn.pktsReordered <+: (acceptData conn pkt).pktsReordered := by
  by_cases next : pkt.seq = expectedSeq conn
  · rw [acceptData, if_pos next]
    exact reorderingMoments_delivered (rudpConnPassNet conn pkt) _ (reordering_mem_moments _)
  · rw [acceptData, if_neg next]
    exact List.prefix_refl _

theorem netHandlerData_delivered (conn : RudpConnection) (pkt : Protopack) (nowMs : Int) :
    conn.pktsReordered <+: (netHandlerData conn pkt nowMs).1.pktsReordered := by
  obtain ⟨_, _, _, _, frame⟩ := netHandlerData_frame conn pkt nowMs
  rw [frame]
  exact acceptData_delivered conn pkt

theorem netHandlerConn_delivered (conn : RudpConnection) (pkt : Protopack) (nowMs : Int) :
    conn.pktsReordered <+: (netHandlerConn conn pkt nowMs).1.pktsReordered := by
  simp only [netHandlerConn]
  split
  · exact netHandlerData_delivered conn pkt nowMs
  · split <;> exact List.prefix_refl _

theorem netHandlerDataMoments_delivered (conn : RudpConnection) (pkt : Protopack) (nowMs : Int) :
    ∀ c ∈ netHandlerDataMoments conn pkt nowMs, conn.pktsReordered <+: c.pktsReordered := by
  have passed : conn.pktsReordered <+: (rudpConnPassNet conn pkt).pktsReordered :=
    List.prefix_refl _
  exact netHandlerDataMoments_forall (List.prefix_refl _) passed
    (reorderingMoments_delivered (rudpConnPassNet conn pkt))
      (netHandlerData_delivered conn pkt nowMs)

/-- Where something was delivered, `last_recved_seq` is the last number before the one
    expected. -/
theorem lastRecvedSeq_eq {n : Nat} (expected : expectedSeq conn = UInt32.ofNat n)
    (some_ : conn.lastRecvedSeq ≠ uint32Max) :
    0 < n ∧ conn.lastRecvedSeq = UInt32.ofNat (n - 1) := by
  rw [expectedSeq_eq] at expected
  cases n with
  | zero => exact absurd (Serial.eq_max_of_succ expected) some_
  | succ n =>
    rw [Serial.ofNat_succ] at expected
    exact ⟨Nat.succ_pos n, by simpa using expected⟩

/-- A RACK names the last packet delivered, and is only sent once there is one. -/
theorem netHandlerData_names_last {pkt msg : Protopack} {nowMs : Int} {n : Nat}
    (expected : expectedSeq (netHandlerData conn pkt nowMs).1 = UInt32.ofNat n)
    (h : msg ∈ (netHandlerData conn pkt nowMs).2) :
    msg.packtype = ProtopackType.rack.code ∧ 0 < n ∧ msg.seq = UInt32.ofNat (n - 1) := by
  obtain ⟨some_, last, type⟩ := acknowledge_out h
  obtain ⟨_, _, _, _, frame⟩ := netHandlerData_frame conn pkt nowMs
  rw [frame] at expected
  rw [last]
  exact ⟨type, lastRecvedSeq_eq expected some_⟩

theorem netHandlerData_acks (inv : ReceiverInv received taken conn) {pkt msg : Protopack}
    {nowMs : Int} (few : (appended taken (netHandlerData conn pkt nowMs).1).length < 2 ^ 32)
    (h : msg ∈ (netHandlerData conn pkt nowMs).2) :
    msg.packtype = ProtopackType.rack.code ∧
      msg.seq.toNat < (appended taken (netHandlerData conn pkt nowMs).1).length := by
  obtain ⟨type, positive, seq⟩ := netHandlerData_names_last
    (netHandlerData_inv inv pkt nowMs).expected h
  rw [seq, Serial.toNat_ofNat_of_lt (by omega)]
  exact ⟨type, by omega⟩

theorem rudpConnNew_inv (selfUid connUid : UInt32) (nowMs : Int) :
    ReceiverInv [] [] (rudpConnNew selfUid connUid nowMs) where
  numbered := by simp [appended, rudpConnNew]
  expected := rfl
  sorted := List.Pairwise.nil
  window := by simp [rudpConnNew]
  once := List.nil_subperm

theorem rudpConnRecv_cases (conn : RudpConnection) :
    (∃ pkt rest, conn.closed = false ∧ conn.pktsReordered = pkt :: rest ∧
        rudpConnRecv conn = (0, some pkt, { conn with pktsReordered := rest })) ∨
      ∃ ret, rudpConnRecv conn = (ret, none, conn) := by
  by_cases open_ : conn.closed = true
  · exact .inr ⟨enotconn, by rw [rudpConnRecv, if_pos open_]⟩
  · cases queue : conn.pktsReordered with
    | nil => exact .inr ⟨-1, by simp [rudpConnRecv, open_, queue]⟩
    | cons pkt rest =>
      exact .inl ⟨pkt, rest, by simpa using open_, rfl, by simp [rudpConnRecv, open_, queue]⟩

theorem recv_inv (inv : ReceiverInv received taken conn) {pkt : Protopack} {rest : List Protopack}
    (queue : conn.pktsReordered = pkt :: rest) :
    ReceiverInv received (taken ++ [pkt]) { conn with pktsReordered := rest } := by
  have same : appended (taken ++ [pkt]) { conn with pktsReordered := rest }
    = appended taken conn := by
    simp [appended, queue]
  refine ⟨?_, ?_, inv.sorted, inv.window, ?_⟩
  · rw [same]; exact inv.numbered
  · rw [same]; exact inv.expected
  · rw [same]; exact inv.once

/-! ## Runs of a receiver -/

structure Receiver where
  conn : RudpConnection
  received : List Protopack
  taken : List Protopack
deriving DecidableEq

inductive ReceiverAction where
  | data (pkt : Protopack) (nowMs : Int)
  | recv

namespace Receiver

def fresh (selfUid connUid : UInt32) (nowMs : Int) : Receiver :=
  ⟨rudpConnNew selfUid connUid nowMs, [], []⟩

/-- A DATA packet is handled, or the application calls `rudp_conn_recv`. -/
def step (s : Receiver) : ReceiverAction → Option Receiver
  | .data pkt nowMs =>
    if pkt.packtype = ProtopackType.data.code then
      some { s with
        conn := (netHandlerConn s.conn pkt nowMs).1
        received := s.received ++ [pkt] }
    else none
  | .recv =>
    let (_, pkt, conn) := rudpConnRecv s.conn
    some { s with conn := conn, taken := s.taken ++ pkt.toList }

def Inv (s : Receiver) : Prop := ReceiverInv s.received s.taken s.conn

/-- What a step does: it handles a DATA packet, takes the first packet of the queue, or finds none
    to take. -/
theorem step_cases {s s' : Receiver} {a : ReceiverAction} (h : step s a = some s') :
    (∃ pkt nowMs, a = .data pkt nowMs ∧ pkt.packtype = ProtopackType.data.code ∧
        s' = { s with
          conn := (netHandlerData s.conn pkt nowMs).1
          received := s.received ++ [pkt] }) ∨
      (∃ pkt rest, a = .recv ∧ s.conn.pktsReordered = pkt :: rest ∧
        s' = { s with
          conn := { s.conn with pktsReordered := rest }
          taken := s.taken ++ [pkt] }) ∨
      a = .recv ∧ s' = s := by
  cases a with
  | data pkt nowMs =>
    simp only [step, Option.ite_none_right_eq_some, Option.some.injEq] at h
    obtain ⟨type, rfl⟩ := h
    exact .inl ⟨pkt, nowMs, rfl, type, by rw [netHandlerConn_data type]⟩
  | recv =>
    simp only [step, Option.some.injEq] at h
    subst h
    obtain ⟨pkt, rest, -, queue, popped⟩ | ⟨ret, same⟩ := rudpConnRecv_cases s.conn
    · exact .inr (.inl ⟨pkt, rest, rfl, queue, by rw [popped]; rfl⟩)
    · exact .inr (.inr ⟨rfl, by simp [same]⟩)

theorem step_inv {s s' : Receiver} {a : ReceiverAction} (inv : s.Inv) (h : step s a = some s') :
    s'.Inv := by
  obtain ⟨pkt, nowMs, -, -, rfl⟩ | ⟨pkt, rest, -, queue, rfl⟩ | ⟨-, rfl⟩ := step_cases h
  · exact netHandlerData_inv inv pkt nowMs
  · exact recv_inv inv queue
  · exact inv

theorem fresh_inv (selfUid connUid : UInt32) (nowMs : Int) : (fresh selfUid connUid nowMs).Inv :=
  rudpConnNew_inv selfUid connUid nowMs

theorem run_inv {s t : Receiver} {as : List ReceiverAction} (inv : s.Inv)
    (h : Transition.run step s as = some t) : t.Inv :=
  Transition.run_invariant (fun _ _ _ => step_inv) inv h

/-- Whatever DATA packets a fresh receiver handles: the packets delivered are numbered in
    order, each is a packet received and none is delivered twice, and the reorder buffer is
    ordered at every moment of handling the next packet. -/
theorem receiver_in_order (selfUid connUid : UInt32) (startMs : Int) (as : List ReceiverAction)
    (s : Receiver) (reached : Transition.run step (fresh selfUid connUid startMs) as = some s) :
    (∀ k p, (appended s.taken s.conn)[k]? = some p → p.seq.toNat = k % 2 ^ 32) ∧
      appended s.taken s.conn <+~ s.received ∧
      BufferOrdered s.conn ∧
      ∀ pkt nowMs, ∀ c ∈ netHandlerDataMoments s.conn pkt nowMs, BufferOrdered c := by
  have inv : s.Inv := run_inv (fresh_inv selfUid connUid startMs) reached
  refine ⟨?_, inv.appended_subperm, inv.bufferOrdered, ?_⟩
  · intro k p hp
    rw [inv.numbered k p hp]
    exact UInt32.toNat_ofNat'
  · intro pkt nowMs c hc
    exact (netHandlerDataMoments_inv inv pkt nowMs c hc).bufferOrdered

def emptyData (seq : UInt32) : Protopack :=
  { seq := seq, chsum := 0, dSize := 0, hFrom := 2, hTo := 1, packtype := 0, data := [] }

/-- Packet 1 overtakes packet 0, and both are delivered. -/
def overtaken : List ReceiverAction :=
  [.data (emptyData 1) 10, .data (emptyData 0) 20, .recv]

theorem receiver_in_order_overtaken :
    ∃ s, Transition.run step (fresh 1 2 0) overtaken = some s ∧
      s.conn.pktsReordered = [emptyData 1] ∧
      (∀ k p, (appended s.taken s.conn)[k]? = some p → p.seq.toNat = k % 2 ^ 32) ∧
      appended s.taken s.conn <+~ s.received ∧
      BufferOrdered s.conn ∧
      ∀ pkt nowMs, ∀ c ∈ netHandlerDataMoments s.conn pkt nowMs, BufferOrdered c :=
  ⟨_, rfl, rfl, receiver_in_order 1 2 0 overtaken _ rfl⟩

end Receiver

end Soter2.Rudp
