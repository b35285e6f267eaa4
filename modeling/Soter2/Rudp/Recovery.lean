import Mathlib.Data.List.Basic
import Mathlib.Tactic.Common
import Soter2.Library.Transition
import Soter2.Rudp.Retransmission
import Soter2.Rudp.Session
import Soter2.Rudp.Timeouts

/-! # Recovery of a session

What the network does to a session is made good by the retransmissions.  The receiver keeps
nothing back (`Flowing`) as long as the numbers do not go round, so a payload is delivered as
soon as everything in front of it has arrived once.

* `delivery_resumes` — one arrival of each pending packet delivers all that was accepted.
* `recovery_possible` — from every state of an open connection the clock and the network
  alone can deliver everything and leave nothing pending.
-/

namespace Soter2.Rudp

open Protocol Transition
open scoped List

/-! ## A receiver that keeps nothing back -/

section Receiver

variable {received taken : List Protopack} {conn : RudpConnection} {pkt : Protopack}

/-- Where the numbers sent keep a window away from 2^32, none that waits is below the next. -/
theorem ReceivesGenuine.noneBelow {sent : List (List UInt8)} (h : ReceivesGenuine sent taken conn)
    (few : sent.length + rudpReorderWindow < 2 ^ 32) : NoneBelow conn := by
  have bound := h.length_le (by unfold rudpReorderWindow at few; omega)
  obtain ⟨received, inv, genuine⟩ := h
  intro p member near
  have there : p ∈ received := inv.mem_received (.inr (List.mem_append.mp member))
  obtain ⟨place, -⟩ := List.getElem?_eq_some_iff.mp (genuine p there).2
  have next : (expectedSeq conn).toNat = (appended taken conn).length := by
    rw [inv.expected, Serial.toNat_ofNat_of_lt (by omega)]
  -- a number below the next one is almost a lap ahead of it
  by_contra below
  rw [UInt32.le_iff_toNat_le] at below
  rw [Serial.ahead, UInt32.toNat_sub] at near
  omega

theorem acceptData_flowing (inv : ReceiverInv received taken conn) (flowing : Flowing conn)
    (none : NoneBelow conn) (pkt : Protopack) : Flowing (acceptData conn pkt) := by
  rw [acceptData]
  split
  next next =>
    have there : Holds (rudpConnPassNet conn pkt) (expectedSeq conn) :=
      holds_passNet.mpr (.inr next)
    exact (reordering_flowing_iff (passNet_inv inv pkt) there).mpr
      ((noneBelow_passNet next).mpr none)
  next other =>
    intro held
    exact (holds_passNet.mp held).elim flowing other

/-- A packet that comes late enough draws a RACK, unless nothing was delivered at all. -/
theorem netHandlerData_late {nowMs : Int} (late : nowMs - conn.lastAckTimestamp ≥ conn.ackTimeoutMs)
    (some_ : (netHandlerData conn pkt nowMs).1.lastRecvedSeq ≠ uint32Max) :
    ∃ msg, (netHandlerData conn pkt nowMs).2 = [msg] ∧ msg.packtype = ProtopackType.rack.code ∧
      msg.seq = (netHandlerData conn pkt nowMs).1.lastRecvedSeq := by
  obtain ⟨_, _, _, _, accepted⟩ := acceptData_frame conn pkt
  obtain ⟨_, _, _, _, frame⟩ := netHandlerData_frame conn pkt nowMs
  rw [frame] at some_ ⊢
  rw [accepted] at some_ ⊢
  simp only at some_ ⊢
  have due : shouldSendAck
      { acceptData conn pkt with packetsSinceAck := (acceptData conn pkt).packetsSinceAck + 1 }
      (pkt.seq == expectedSeq conn) nowMs = true := by
    simp only [shouldSendAck, accepted, late, decide_true, Bool.or_true, Bool.true_or]
  simp only [netHandlerData, acknowledge, due, protoMsgQuick_eq]
  rw [accepted]
  simp only [some_, ne_eq, not_false_eq_true, and_self, if_true]
  exact ⟨_, rfl, rfl, rfl⟩

end Receiver

namespace Session

variable {s s' t : Session} {a : Action} {bs : List Action}

/-! ## One step -/

/-- The numbers sent keep a window away from 2^32. -/
def Fewer (s : Session) : Prop := s.sent.length + rudpReorderWindow < 2 ^ 32

theorem Fewer.few (h : s.Fewer) : s.Few := by
  unfold Fewer rudpReorderWindow at h
  unfold Few
  omega

theorem step_sent_grows (h : step s a = some s') : s.sent <+: s'.sent := by
  obtain ⟨x, grown, -⟩ | ⟨same, -⟩ := step_progress h
  · rw [grown]
    exact List.prefix_append _ _
  · rw [same]

theorem fewer_antitone (h : step s a = some s') (fewer : s'.Fewer) : s.Fewer :=
  Nat.lt_of_le_of_lt (Nat.add_le_add_right (step_sent_grows h).length_le _) fewer

/-- How many packets were delivered so far. -/
def count (s : Session) : Nat := (appended s.taken s.receiver).length

theorem step_count (h : step s a = some s') : s.count ≤ s'.count := by
  obtain ⟨x, -, same⟩ | ⟨-, more⟩ := step_progress h
  · have := congrArg List.length same
    simp only [delivered, List.length_map] at this
    exact Nat.le_of_eq this.symm
  · exact more

/-- The step brings the packet with that number to the receiver. -/
def Arrives (seq : UInt32) : Action → Prop
  | .dataArrives _ pkt _ => pkt.seq = seq
  | _ => False

instance (seq : UInt32) (a : Action) : Decidable (Arrives seq a) := by
  cases a with
  | dataArrives i pkt nowMs => exact inferInstanceAs (Decidable (pkt.seq = seq))
  | send | timeouts | rackArrives | dataFault | rackFault | recv => exact .isFalse id

/-- A step that does not bring DATA leaves the receiver as it was, but for what the application
    takes from its queue. -/
theorem step_receiver (h : step s a = some s') :
    (∃ i pkt nowMs, a = .dataArrives i pkt nowMs ∧ InFlight s.net i pkt ∧
      s' = s.handleData i pkt nowMs) ∨
      appended s'.taken s'.receiver = appended s.taken s.receiver ∧ (∀ seq, ¬ Arrives seq a) ∧
        ∃ ordered, s'.receiver = { s.receiver with pktsReordered := ordered } := by
  cases a with
  | send pkt nowMs =>
    simp only [step, Option.ite_none_right_eq_some, Option.some.injEq] at h
    obtain ⟨-, rfl⟩ := h
    exact .inr ⟨rfl, fun _ => id, _, rfl⟩
  | timeouts nowMs => cases h; exact .inr ⟨rfl, fun _ => id, _, rfl⟩
  | dataArrives i pkt nowMs =>
    simp only [step, Option.ite_none_right_eq_some, Option.some.injEq] at h
    obtain ⟨arrives, rfl⟩ := h
    exact .inl ⟨i, pkt, nowMs, rfl, arrives, rfl⟩
  | rackArrives i pkt nowMs =>
    simp only [step, Option.ite_none_right_eq_some, Option.some.injEq] at h
    obtain ⟨-, rfl⟩ := h
    exact .inr ⟨rfl, fun _ => id, _, rfl⟩
  | dataFault f => cases h; exact .inr ⟨rfl, fun _ => id, _, rfl⟩
  | rackFault f => cases h; exact .inr ⟨rfl, fun _ => id, _, rfl⟩
  | recv =>
    cases h
    refine .inr ⟨recv_appended s, fun _ => id, ?_⟩
    -- what the program takes leaves the queue and was appended all the same
    obtain ⟨pkt, rest, -, -, popped⟩ | ⟨ret, same⟩ := rudpConnRecv_cases s.receiver
    · exact ⟨rest, by simp [recv, popped]⟩
    · exact ⟨s.receiver.pktsReordered, by simp [recv, same]⟩

/-- The receiver after DATA from the network, but for the counters of the acknowledgement. -/
theorem handleData_receiver (inv : SessionInv s) {i : Nat} {pkt : Protopack}
    (arrives : InFlight s.net i pkt) (nowMs : Int) :
    (s.handleData i pkt nowMs).receiver
      = (netHandlerData s.receiver (udpCopyPack pkt) nowMs).1 := by
  simp only [handleData, netHandlerConn_data (inFlight_genuine inv arrives).1]

theorem step_flowing (inv : SessionInv s) (fewer : s.Fewer) (flowing : Flowing s.receiver)
    (h : step s a = some s') : Flowing s'.receiver := by
  obtain ⟨i, pkt, nowMs, rfl, arrives, rfl⟩ | ⟨-, -, ordered, frame⟩ := step_receiver h
  · rw [handleData_receiver inv arrives, Receiver.netHandlerData_flowing]
    have none := inv.receiver.noneBelow fewer
    obtain ⟨received, receiverInv, -⟩ := inv.receiver
    exact acceptData_flowing receiverInv flowing none _
  · rw [frame]
    exact flowing

theorem step_secured (inv : SessionInv s) {j : Nat} (near : j ≤ s.count + rudpReorderWindow)
    (secured : Secured s.taken s.receiver j ∨ Arrives (UInt32.ofNat j) a) (h : step s a = some s') :
    Secured s'.taken s'.receiver j := by
  obtain ⟨i, pkt, nowMs, rfl, arrives, rfl⟩ | ⟨same, other, ordered, frame⟩ := step_receiver h
  · obtain ⟨received, receiverInv, -⟩ := inv.receiver
    obtain ⟨_, _, _, _, frame⟩ := netHandlerData_frame s.receiver (udpCopyPack pkt) nowMs
    rw [handleData_receiver inv arrives, frame]
    exact acceptData_secured receiverInv near secured
  · have secured := secured.resolve_right (other _)
    rw [Secured, ← same] at secured
    rw [Secured]
    refine secured.imp_right ?_
    rw [frame]
    exact id

/-! ## A run that brings what is pending -/

theorem run_inv (inv : SessionInv s) (h : run step s bs = some t) (few : t.Few) : SessionInv t :=
  run_invariant_within (fun _ _ _ => few_antitone) (fun _ _ _ inv few => step_inv inv few) inv h few

theorem run_flowing (inv : SessionInv s) (flowing : Flowing s.receiver) (h : run step s bs = some t)
    (fewer : t.Fewer) : Flowing t.receiver := by
  have both : SessionInv t ∧ Flowing t.receiver :=
    run_invariant_within (I := fun u => SessionInv u ∧ Flowing u.receiver)
      (fun _ _ _ => fewer_antitone)
      (fun _ _ _ both fewer h =>
        ⟨step_inv both.1 fewer.few h, step_flowing both.1 (fewer_antitone h fewer) both.2 h⟩)
      ⟨inv, flowing⟩ h fewer
  exact both.2

/-- A number near the next one that is held or arrives stays held until it is delivered. -/
theorem run_secured (inv : SessionInv s) {j : Nat} (near : j ≤ s.count + rudpReorderWindow)
    (secured : Secured s.taken s.receiver j ∨ ∃ a ∈ bs, Arrives (UInt32.ofNat j) a)
    (h : run step s bs = some t) (few : t.Few) : Secured t.taken t.receiver j := by
  induction bs generalizing s with
  | nil =>
    cases h
    exact secured.resolve_right (by simp)
  | cons a bs ih =>
    obtain ⟨s', hs, ht⟩ := run_cons.mp h
    have few' : s'.Few := run_bound (fun _ _ _ => few_antitone) ht few
    refine ih (step_inv inv few' hs) (Nat.le_trans near (Nat.add_le_add_right (step_count hs) _))
      ?_ ht
    simp only [List.mem_cons, exists_eq_or_imp] at secured
    obtain old | here | later := secured
    · exact .inl (step_secured inv near (.inl old) hs)
    · exact .inl (step_secured inv near (.inr here) hs)
    · exact .inr later

/-- Each packet that is pending in `s` arrives during `bs`. -/
def PendingArrive (s : Session) (bs : List Action) : Prop :=
  ∀ ppkt ∈ s.sender.pktsFhost, ∃ a ∈ bs, Arrives ppkt.seq a

instance (s : Session) (bs : List Action) : Decidable (PendingArrive s bs) :=
  inferInstanceAs (Decidable (∀ ppkt ∈ s.sender.pktsFhost, ∃ a ∈ bs, Arrives ppkt.seq a))

/-- Until the cap is hit, a number accepted is pending, or it is that of a packet delivered. -/
theorem delivered_or_pending (inv : SessionInv s) (going : s.capped = false) {j : Nat}
    (sent : j < s.sent.length) :
    j < s.count ∨ ∃ ppkt ∈ s.sender.pktsFhost, ppkt.seq = UInt32.ofNat j := by
  cases Nat.lt_or_ge j (firstUnacked s.racks) with
  | inl acked => exact .inl (Nat.lt_of_lt_of_le acked inv.acked)
  | inr beyond =>
    have member : j ∈ pendingSeqs s.sender := by
      rw [(inv.sender.contiguous going).mem_iff, List.mem_range'_1]
      omega
    obtain ⟨ppkt, pending, number⟩ := List.mem_map.mp member
    exact .inr ⟨ppkt, pending, by rw [← number, UInt32.ofNat_toNat]⟩

theorem sent_near (inv : SessionInv s) : s.sent.length ≤ s.count + rudpReorderWindow :=
  Nat.le_trans inv.sender.window (Nat.add_le_add_right inv.acked _)

theorem run_delivers (inv : SessionInv s) (flowing : Flowing s.receiver) (going : s.capped = false)
    (h : run step s bs = some t) (fewer : t.Fewer) (arrive : PendingArrive s bs) :
    s.sent.length ≤ t.count := by
  by_contra short
  have before : t.count < s.sent.length := Nat.not_le.mp short
  have secured : Secured t.taken t.receiver t.count := by
    refine run_secured inv (Nat.le_of_lt (Nat.lt_of_lt_of_le before (sent_near inv))) ?_ h fewer.few
    obtain done | ⟨ppkt, pending, number⟩ := delivered_or_pending inv going before
    · exact .inl (.inl done)
    · exact .inr (number ▸ arrive ppkt pending)
  -- the next number is held, but a receiver that flows does not hold it
  have held := secured.resolve_left (Nat.lt_irrefl _)
  have flows := run_flowing inv flowing h fewer
  obtain ⟨received, receiverInv, -⟩ := (run_inv inv h fewer.few).receiver
  rw [Flowing, receiverInv.expected] at flows
  exact flows held

theorem fresh_flowing (uidA uidB : UInt32) (startA startB : Int) :
    Flowing (fresh uidA uidB startA startB).receiver := by
  rintro ⟨p, member, -⟩
  cases member

/-- Whatever was lost, doubled or reordered before: once each packet that was pending has arrived
    again, all that was accepted is delivered. -/
theorem delivery_resumes (uidA uidB : UInt32) (startA startB : Int) (as bs : List Action)
    (s t : Session)
    (reached : run step (fresh uidA uidB startA startB) as = some s) (going : s.capped = false)
    (continued : run step s bs = some t) (fewer : t.sent.length + rudpReorderWindow < 2 ^ 32)
    (arrive : PendingArrive s bs) : s.sent <+: t.delivered := by
  have fewerNow : s.Fewer := run_bound (fun _ _ _ => fewer_antitone) continued fewer
  have inv := reached_inv reached fewerNow.few
  have flowing := run_flowing (fresh_inv uidA uidB startA startB)
    (fresh_flowing uidA uidB startA startB) reached fewerNow
  have all := run_delivers inv flowing going continued fewer arrive
  have inv' := run_inv inv continued (Fewer.few fewer)
  obtain ⟨more, grown⟩ : s.sent <+: t.sent :=
    run_invariant (I := fun u => s.sent <+: u.sent)
      (fun u a u' sent h => sent.trans (step_sent_grows h))
      (List.prefix_refl _) continued
  rw [delivered, inv'.receiver.delivered_eq inv'.few, ← grown]
  exact List.prefix_take_iff.mpr ⟨List.prefix_append _ _, all⟩

/-! ## A run that recovers -/

/-- Only the clock and the network move, and no earlier than at `since`. -/
def Waits (since : Int) : Action → Prop
  | .timeouts nowMs => since ≤ nowMs
  | .dataArrives _ _ nowMs => since ≤ nowMs
  | .rackArrives _ _ nowMs => since ≤ nowMs
  | _ => False

theorem exists_due (conn : RudpConnection) (since : Int) (pkts : List RudpPendingPkt) :
    ∃ nowMs, since ≤ nowMs ∧ ∀ ppkt ∈ pkts, Due conn nowMs ppkt := by
  induction pkts with
  | nil => exact ⟨since, Int.le_refl _, by simp⟩
  | cons ppkt pkts ih =>
    obtain ⟨nowMs, later, due⟩ := ih
    refine ⟨max nowMs (ppkt.timestamp + backoffMs conn ppkt), by omega,
      List.forall_mem_cons.mpr ⟨?_, ?_⟩⟩
    · unfold Due
      omega
    · intro other member
      have := due other member
      unfold Due at this ⊢
      omega

/-- With all that is pending due and below the cap, a pass resends all of it. -/
theorem timeouts_resend {nowMs : Int} (below : ∀ ppkt ∈ s.sender.pktsFhost, ¬ Capped ppkt)
    (due : ∀ ppkt ∈ s.sender.pktsFhost, Due s.sender nowMs ppkt) :
    ∃ s', step s (.timeouts nowMs) = some s' ∧
      s'.net = s.net ++ s.sender.pktsFhost.map (·.copyPack) ∧
      s'.sent = s.sent ∧ s'.capped = s.capped := by
  have all : resent s.sender nowMs s.sender.pktsFhost = s.sender.pktsFhost.map (·.copyPack) := by
    rw [resent, List.filter_eq_self.mpr (fun ppkt member => decide_eq_true (due ppkt member))]
  obtain ⟨-, result⟩ | ⟨front, lost, back, gaveUp⟩ := rudpConnTimeouts_cases s.sender nowMs
  · exact ⟨_, rfl, by simp [timeouts, result, all], rfl, by simp [timeouts, result]⟩
  · have member : lost ∈ s.sender.pktsFhost := by simp [gaveUp.pending]
    exact absurd gaveUp.capped (below lost member)

/-- What is in flight behind `net` arrives in its order. -/
def arrivals (net out : List Protopack) (nowMs : Int) : List Action :=
  out.map (fun p => .dataArrives net.length p nowMs)

theorem waits_arrivals {since nowMs : Int} {net out : List Protopack} (later : since ≤ nowMs) :
    ∀ a ∈ arrivals net out nowMs, Waits since a := by
  intro a member
  obtain ⟨p, -, rfl⟩ := List.mem_map.mp member
  exact later

theorem step_arrival {net out : List Protopack} {p : Protopack} (flight : s.net = net ++ p :: out)
    (nowMs : Int) :
    ∃ u, step s (.dataArrives net.length p nowMs) = some u ∧ u = s.handleData net.length p nowMs ∧
      u.net = net ++ out := by
  have arrives : InFlight s.net net.length p := ⟨p, by simp [flight], SamePacket.refl p⟩
  refine ⟨_, if_pos arrives, rfl, ?_⟩
  simp [handleData, flight, List.eraseIdx_append_of_length_le]

/-- The arrivals leave the sending side alone. -/
structure SameSender (s u : Session) : Prop where
  sender : u.sender = s.sender
  sent : u.sent = s.sent
  capped : u.capped = s.capped

theorem run_arrivals {net out back : List Protopack} (flight : s.net = net ++ (out ++ back))
    (nowMs : Int) :
    ∃ u, run step s (arrivals net out nowMs) = some u ∧ u.net = net ++ back ∧ SameSender s u := by
  induction out generalizing s with
  | nil => exact ⟨s, rfl, flight, rfl, rfl, rfl⟩
  | cons p out ih =>
    obtain ⟨s', next, rfl, net'⟩ := step_arrival flight nowMs
    obtain ⟨u, rest, netU, same⟩ := ih net'
    exact ⟨u, run_cons.mpr ⟨_, next, rest⟩, netU, same.sender, same.sent, same.capped⟩

/-- The last packet in flight comes late, and the RACK it draws is for everything sent. -/
theorem late_arrival (inv : SessionInv s) {net : List Protopack} {p : Protopack}
    (flight : s.net = net ++ [p]) (since : Int) :
    ∃ nowMs u, since ≤ nowMs ∧ step s (.dataArrives net.length p nowMs) = some u ∧ SameSender s u ∧
      (0 < u.count → ∃ msg, u.rnet = s.rnet ++ [msg] ∧ msg.packtype = ProtopackType.rack.code ∧
        msg.seq.toNat = u.count - 1) := by
  let nowMs := max since (s.receiver.lastAckTimestamp + s.receiver.ackTimeoutMs)
  -- late enough for the receiver to answer whatever its threshold is
  have late : nowMs - s.receiver.lastAckTimestamp ≥ s.receiver.ackTimeoutMs := by
    show max since _ - _ ≥ _
    omega
  obtain ⟨u, next, rfl, -⟩ := step_arrival flight nowMs
  have arrives : InFlight s.net net.length p := ⟨p, by simp [flight], SamePacket.refl p⟩
  have inv' := handleData_inv inv arrives nowMs
  refine ⟨nowMs, _, Int.le_max_left _ _, next, ⟨rfl, rfl, rfl⟩, ?_⟩
  intro positive
  have few : (s.handleData net.length p nowMs).count < 2 ^ 32 - 1 :=
    Nat.lt_of_le_of_lt (inv'.receiver.length_le inv'.few) inv'.few
  obtain ⟨received, receiverInv, -⟩ := inv'.receiver
  obtain ⟨some_, last⟩ := lastRecvedSeq_toNat receiverInv.expected positive
    (Nat.lt_of_lt_of_le few (by decide))
  have receiver := handleData_receiver inv arrives nowMs
  obtain ⟨msg, out, type, seq⟩ := netHandlerData_late late (receiver ▸ some_)
  refine ⟨msg, ?_, type, by rw [seq, ← receiver, last, count]⟩
  simp only [handleData, netHandlerConn_data (inFlight_genuine inv arrives).1, out]

theorem rack_empties (inv : SessionInv s) {rnet : List Protopack} {msg : Protopack}
    (flight : s.rnet = rnet ++ [msg]) (type : msg.packtype = ProtopackType.rack.code)
    (last : s.sent.length ≤ msg.seq.toNat + 1) (nowMs : Int) :
    ∃ u, step s (.rackArrives rnet.length msg nowMs) = some u ∧ u.sender.pktsFhost = [] ∧
      u.sent = s.sent ∧
      u.capped = s.capped ∧ u.count = s.count := by
  have arrives : InFlight s.rnet rnet.length msg := ⟨msg, by simp [flight], SamePacket.refl msg⟩
  refine ⟨_, if_pos arrives, ?_, rfl, rfl, rfl⟩
  have copied : (udpCopyPack msg).packtype = ProtopackType.rack.code := type
  simp only [handleRack, netHandlerConn_rack copied]
  rw [List.eq_nil_iff_forall_not_mem]
  intro ppkt member
  -- whatever is left would be beyond the last packet sent
  obtain ⟨pending, beyond⟩ := mem_netHandlerRack.mp member
  obtain ⟨number, -, place⟩ := inv.sender.genuine ppkt pending
  rw [number] at place
  obtain ⟨inside, -⟩ := List.getElem?_eq_some_iff.mp place
  rw [udpCopyPack_seq, UInt32.lt_iff_toNat_lt] at beyond
  omega

theorem delivered_of_count (inv : SessionInv s) (all : s.sent.length ≤ s.count) :
    s.delivered = s.sent := by
  rw [delivered, inv.receiver.delivered_eq inv.few]
  exact List.take_of_length_le all

theorem pending_arrive (inv : SessionInv s) {front : List Protopack} {last : Protopack}
    (all : s.sender.pktsFhost.map (·.copyPack) = front ++ [last])
    (arrive : ∀ p ∈ front ++ [last], ∃ a ∈ bs, Arrives p.seq a) : PendingArrive s bs := by
  intro ppkt pending
  have member : ppkt.copyPack ∈ front ++ [last] := all ▸ List.mem_map_of_mem pending
  rw [← (inv.sender.genuine ppkt pending).1]
  exact arrive _ member

/-- From a state in which something is pending: one pass resends it, all of it arrives, and the
    RACK for it comes back. -/
theorem recovers (inv : SessionInv s) (fewer : s.Fewer) (flowing : Flowing s.receiver)
    (going : s.capped = false) (below : ∀ ppkt ∈ s.sender.pktsFhost, ¬ Capped ppkt) (since : Int) :
    ∃ bs t, run step s bs = some t ∧ (∀ a ∈ bs, Waits since a) ∧ t.sent = s.sent ∧
      t.delivered = s.sent ∧
      t.sender.pktsFhost = [] ∧ t.capped = false := by
  cases pending : (s.sender.pktsFhost.map (·.copyPack)).reverse with
  | nil =>
    have nothing : s.sender.pktsFhost = [] := by simpa using pending
    have all := run_delivers inv flowing going (run_nil s) fewer (by simp [PendingArrive, nothing])
    exact ⟨[], s, rfl, by simp, rfl, delivered_of_count inv all, nothing, going⟩
  | cons last front =>
    have split : s.sender.pktsFhost.map (·.copyPack) = front.reverse ++ [last] := by
      rw [← List.reverse_reverse (s.sender.pktsFhost.map _), pending, List.reverse_cons]
    generalize front.reverse = front at split
    obtain ⟨now, from_, due⟩ := exists_due s.sender since s.sender.pktsFhost
    obtain ⟨s', first, flight, sent', capped'⟩ := timeouts_resend below due
    rw [split] at flight
    obtain ⟨u, second, netU, sameU⟩ := run_arrivals flight now
    have toU : run step s (.timeouts now :: arrivals s.net front now) = some u :=
      run_cons.mpr ⟨s', first, second⟩
    have sentU : u.sent = s.sent := sameU.sent.trans sent'
    have fewerU : u.Fewer := by rwa [Fewer, sentU]
    obtain ⟨later, v, after, third, sameV, drawn⟩ :=
      late_arrival (run_inv inv toU fewerU.few) netU since
    have toV := run_append.mpr ⟨u, toU, run_cons.mpr ⟨v, third, run_nil v⟩⟩
    have sentV : v.sent = s.sent := sameV.sent.trans sentU
    have cappedV : v.capped = false := ((sameV.capped.trans sameU.capped).trans capped').trans going
    have fewerV : v.Fewer := by rwa [Fewer, sentV]
    -- everything pending arrived, so everything is delivered
    have arrive : ∀ p ∈ front ++ [last], ∃ a ∈ .timeouts now :: arrivals s.net front now ++
        [.dataArrives s.net.length last later], Arrives p.seq a := by
      rw [List.forall_mem_append, List.forall_mem_singleton]
      refine ⟨fun p member => ⟨.dataArrives s.net.length p now, ?_, rfl⟩,
        ⟨.dataArrives s.net.length last later, ?_, rfl⟩⟩
      · exact List.mem_append_left _ (List.mem_cons_of_mem _ (List.mem_map_of_mem member))
      · exact List.mem_append_right _ (List.mem_singleton_self _)
    have all := run_delivers inv flowing going toV fewerV (pending_arrive inv split arrive)
    have invV := run_inv inv toV fewerV.few
    have some_ : 0 < s.sent.length := by
      obtain ⟨ppkt, member⟩ : ∃ ppkt, ppkt ∈ s.sender.pktsFhost :=
        List.exists_mem_of_ne_nil _ (fun nothing => by simp [nothing] at split)
      obtain ⟨inside, -⟩ := List.getElem?_eq_some_iff.mp (inv.sender.genuine ppkt member).2.2
      exact Nat.lt_of_le_of_lt (Nat.zero_le _) inside
    obtain ⟨msg, rnet, type, seq⟩ := drawn (Nat.lt_of_lt_of_le some_ all)
    obtain ⟨t, fourth, empty, sentT, cappedT, countT⟩ :=
      rack_empties invV rnet type (by rw [sentV, seq]; omega) later
    have toT := run_append.mpr ⟨v, toV, run_cons.mpr ⟨t, fourth, run_nil t⟩⟩
    have sent : t.sent = s.sent := sentT.trans sentV
    have invT := run_inv inv toT (by rw [Few, sent]; exact fewer.few)
    refine ⟨_, t, toT, ?_, sent, ?_, empty, cappedT.trans cappedV⟩
    · rw [List.forall_mem_append, List.forall_mem_append, List.forall_mem_cons]
      exact ⟨⟨⟨from_, waits_arrivals from_⟩, List.forall_mem_singleton.mpr after⟩,
        List.forall_mem_singleton.mpr after⟩
    · rw [← sent]
      exact delivered_of_count invT (by rw [sent, countT]; exact all)

/-- No loss, doubling or reordering is final: while the connection is open and no packet was resent
    as often as it may be, there is always a run of the clock and the network, from any
    time on, that delivers everything accepted and leaves nothing pending. -/
theorem recovery_possible (uidA uidB : UInt32) (startA startB : Int) (as : List Action)
    (s : Session) (reached : run step (fresh uidA uidB startA startB) as = some s)
    (fewer : s.sent.length + rudpReorderWindow < 2 ^ 32) (going : s.capped = false)
    (below : ∀ ppkt ∈ s.sender.pktsFhost, ppkt.retransmitCount < rudpRetransmissionCap)
    (since : Int) :
    ∃ bs t, run step s bs = some t ∧ (∀ a ∈ bs, Waits since a) ∧ t.sent = s.sent ∧
      t.delivered = s.sent ∧
      t.sender.pktsFhost = [] ∧ t.capped = false := by
  have fewerNow : s.Fewer := fewer
  have flowing := run_flowing (fresh_inv uidA uidB startA startB)
    (fresh_flowing uidA uidB startA startB) reached fewerNow
  exact recovers (reached_inv reached fewerNow.few) fewer flowing going
    (fun ppkt member => Nat.not_le.mpr (below ppkt member))
    since

/-- Of three packets the first is lost. -/
def firstLost : List Action :=
  [.send samplePack 0, .send samplePack 1, .send samplePack 2, .dataFault (.drop 0),
    .dataArrives 1 { samplePack with seq := 2 } 5, .dataArrives 0 { samplePack with seq := 1 } 6]

/-- The pass resends all three, and they arrive the other way round. -/
def resentReversed : List Action :=
  [.timeouts 400, .dataArrives 2 { samplePack with seq := 2 } 500,
    .dataArrives 1 { samplePack with seq := 1 } 501,
    .dataArrives 0 { samplePack with seq := 0 } 502]

theorem delivery_resumes_firstLost :
    ∃ s t, run step (fresh 1 2 0 0) firstLost = some s ∧ run step s resentReversed = some t ∧
      s.delivered = [] ∧
      s.sent <+: t.delivered :=
  ⟨_, _, rfl, rfl, rfl, delivery_resumes 1 2 0 0 firstLost resentReversed _ _ rfl rfl rfl
    (by decide) (by decide)⟩

theorem recovery_possible_firstLost :
    ∃ s, run step (fresh 1 2 0 0) firstLost = some s ∧ s.delivered = [] ∧
      ∃ bs t, run step s bs = some t ∧ (∀ a ∈ bs, Waits 1000 a) ∧ t.sent = s.sent ∧
        t.delivered = s.sent ∧
        t.sender.pktsFhost = [] ∧ t.capped = false :=
  ⟨_, rfl, rfl, recovery_possible 1 2 0 0 firstLost _ rfl (by decide) rfl (by decide) 1000⟩

end Session

end Soter2.Rudp
