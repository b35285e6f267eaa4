import Mathlib.Data.List.Basic
import Mathlib.Data.List.Infix
import Mathlib.Tactic.Common
import Soter2.Library.FifoChannel
import Soter2.Library.Transition
import Soter2.Protocol.Wire
import Soter2.Rudp.Receiver
import Soter2.Rudp.Sender

/-! # A session between two connections

One connection sends, the other receives, and the network carries DATA one way and RACKs
the other.  It may lose, duplicate, delay and reorder what is in flight; a packet arrives
as the decoder gives it back (`SamePacket`).  The joint invariant is `SessionInv`, and
every run within 2^32 - 1 packets refines the first-in-first-out channel:

* `session_refines_channel`, `delivered_prefix` — ordered, exactly-once delivery.
* `forgets_only_delivered` — the sender forgets nothing before it is delivered.
* `undelivered_within_window` — the send window keeps inside the reorder window.
-/

namespace Soter2.Rudp

open Protocol Transition
open scoped List

/-! ## The system -/

inductive Fault where
  | drop (i : Nat)
  | duplicate (i : Nat)
deriving DecidableEq

def Fault.apply (net : List Protopack) : Fault → List Protopack
  | .drop i => net.eraseIdx i
  | .duplicate i => net ++ net[i]?.toList

theorem Fault.apply_subset (net : List Protopack) (f : Fault) : f.apply net ⊆ net := by
  cases f with
  | drop i => exact List.eraseIdx_subset
  | duplicate i =>
    intro p hp
    cases List.mem_append.mp hp with
    | inl old => exact old
    | inr copy => exact List.mem_of_getElem? (Option.mem_toList.mp copy)

/-- `sent` are the payloads for which `rudp_conn_send` returned 0, `taken` the packets the
    receiving application has popped, `racks` the numbers of the RACKs handled; `capped`
    says that a call of `_rudp_conn_timeouts` returned -1. -/
structure Session where
  sender : RudpConnection
  receiver : RudpConnection
  net : List Protopack
  rnet : List Protopack
  sent : List (List UInt8)
  taken : List Protopack
  racks : List UInt32
  capped : Bool
deriving DecidableEq

inductive Action where
  | send (pkt : Protopack) (nowMs : Int)
  | timeouts (nowMs : Int)
  | dataArrives (i : Nat) (pkt : Protopack) (nowMs : Int)
  | rackArrives (i : Nat) (pkt : Protopack) (nowMs : Int)
  | dataFault (f : Fault)
  | rackFault (f : Fault)
  | recv

namespace Session

/-- Two connections made for each other, and nothing in flight. -/
def fresh (uidA uidB : UInt32) (startA startB : Int) : Session where
  sender := rudpConnNew uidA uidB startA
  receiver := rudpConnNew uidB uidA startB
  net := []
  rnet := []
  sent := []
  taken := []
  racks := []
  capped := false

/-- The payloads appended to the receiver's `pkts_reordered` so far. -/
def delivered (s : Session) : List (List UInt8) := (appended s.taken s.receiver).map (·.payload)

def send (s : Session) (pkt : Protopack) (nowMs : Int) : Session :=
  let (ret, conn, out) := rudpConnSend s.sender pkt nowMs
  { s with
    sender := conn
    net := s.net ++ out
    sent := if ret = 0 then s.sent ++ [pkt.payload] else s.sent }

def timeouts (s : Session) (nowMs : Int) : Session :=
  let (ret, conn, out) := rudpConnTimeouts s.sender nowMs
  { s with sender := conn, net := s.net ++ out, capped := s.capped || ret == -1 }

/-- The dispatcher hands a copy of the packet to the handler. -/
def handleData (s : Session) (i : Nat) (pkt : Protopack) (nowMs : Int) : Session :=
  let (conn, out) := netHandlerConn s.receiver (udpCopyPack pkt) nowMs
  { s with receiver := conn, net := s.net.eraseIdx i, rnet := s.rnet ++ out }

def handleRack (s : Session) (i : Nat) (pkt : Protopack) (nowMs : Int) : Session :=
  let (conn, out) := netHandlerConn s.sender (udpCopyPack pkt) nowMs
  { s with
    sender := conn
    rnet := s.rnet.eraseIdx i
    net := s.net ++ out
    racks := s.racks ++ [pkt.seq] }

def recv (s : Session) : Session :=
  let (_, pkt, conn) := rudpConnRecv s.receiver
  { s with receiver := conn, taken := s.taken ++ pkt.toList }

/-- The packet at place `i` of what is in flight can arrive as `pkt`. -/
def InFlight (net : List Protopack) (i : Nat) (pkt : Protopack) : Prop :=
  ∃ p ∈ net[i]?, SamePacket p pkt

instance (net : List Protopack) (i : Nat) (pkt : Protopack) : Decidable (InFlight net i pkt) :=
  decidable_of_iff ((net[i]?).any (fun p => decide (SamePacket p pkt)) = true) (by
    cases h : net[i]? <;> simp [InFlight, h])

def step (s : Session) : Action → Option Session
  | .send pkt nowMs =>
    if pkt.packtype = ProtopackType.data.code then some (s.send pkt nowMs) else none
  | .timeouts nowMs => some (s.timeouts nowMs)
  | .dataArrives i pkt nowMs =>
    if InFlight s.net i pkt then some (s.handleData i pkt nowMs) else none
  | .rackArrives i pkt nowMs =>
    if InFlight s.rnet i pkt then some (s.handleRack i pkt nowMs) else none
  | .dataFault f => some { s with net := f.apply s.net }
  | .rackFault f => some { s with rnet := f.apply s.rnet }
  | .recv => some s.recv

end Session

/-! ## A receiver of genuine packets -/

theorem genuine_samePacket {sent : List (List UInt8)} {p q : Protopack} (h : Genuine sent p)
    (same : SamePacket p q) : Genuine sent (udpCopyPack q) := by
  have payload := same.payload_eq
  obtain ⟨seq, -, -, -, packtype, -⟩ := same
  refine ⟨packtype.trans h.1, ?_⟩
  rw [udpCopyPack_seq, udpCopyPack_payload, seq, h.2, payload]

/-- The receiver invariant where every packet received is one of the session. -/
def ReceivesGenuine (sent : List (List UInt8)) (taken : List Protopack) (conn : RudpConnection) :
    Prop :=
  ∃ received, ReceiverInv received taken conn ∧ ∀ p ∈ received, Genuine sent p

namespace ReceivesGenuine

variable {sent : List (List UInt8)} {taken : List Protopack} {conn : RudpConnection}

theorem append (h : ReceivesGenuine sent taken conn) (more : List (List UInt8)) :
    ReceivesGenuine (sent ++ more) taken conn := by
  obtain ⟨received, inv, genuine⟩ := h
  exact ⟨received, inv, fun p hp => (genuine p hp).append more⟩

theorem place (h : ReceivesGenuine sent taken conn) {k : Nat} {p : Protopack}
    (hp : (appended taken conn)[k]? = some p) : sent[k % 2 ^ 32]? = some p.payload := by
  obtain ⟨received, inv, genuine⟩ := h
  have member := inv.mem_received (.inl (List.mem_of_getElem? hp))
  have := (genuine p member).2
  rwa [inv.numbered k p hp, UInt32.toNat_ofNat'] at this

theorem length_le (h : ReceivesGenuine sent taken conn) (few : sent.length < 2 ^ 32 - 1) :
    (appended taken conn).length ≤ sent.length := by
  by_contra more
  have slot := List.getElem?_eq_getElem (Nat.lt_of_not_le more)
  have := h.place slot
  rw [Nat.mod_eq_of_lt (by omega), List.getElem?_eq_none (Nat.le_refl _)] at this
  cases this

/-- What was delivered is the first part of what was sent. -/
theorem delivered_eq (h : ReceivesGenuine sent taken conn) (few : sent.length < 2 ^ 32 - 1) :
    (appended taken conn).map (·.payload) = sent.take (appended taken conn).length := by
  have bound := h.length_le few
  apply List.ext_getElem?
  intro k
  rw [List.getElem?_map]
  cases slot : (appended taken conn)[k]? with
  | none =>
    have past := List.getElem?_eq_none_iff.mp slot
    rw [List.getElem?_eq_none (by simp; omega)]
    rfl
  | some p =>
    obtain ⟨inside, -⟩ := List.getElem?_eq_some_iff.mp slot
    have := h.place slot
    rw [Nat.mod_eq_of_lt (by omega)] at this
    rw [List.getElem?_take_of_lt inside, this]
    rfl

/-- A packet of the session that is not delivered lies ahead of what is, by no more than
    the sender may run ahead. -/
theorem window (h : ReceivesGenuine sent taken conn) (few : sent.length < 2 ^ 32 - 1) {w : Nat}
    (near : sent.length ≤ (appended taken conn).length + w) (small : w < 2 ^ 31) {p : Protopack}
    (genuine : Genuine sent p) (undelivered : ∀ d ∈ appended taken conn, d.seq ≠ p.seq) :
    0 ≤ Serial.signedDiff p.seq (expectedSeq conn) ∧
      Serial.signedDiff p.seq (expectedSeq conn) < w := by
  have bound := h.length_le few
  obtain ⟨received, inv, -⟩ := h
  obtain ⟨inside, -⟩ := List.getElem?_eq_some_iff.mp genuine.2
  -- every smaller number is that of a packet delivered
  have later : (appended taken conn).length ≤ p.seq.toNat := by
    by_contra earlier
    have slot := List.getElem?_eq_getElem (Nat.lt_of_not_le earlier)
    apply undelivered _ (List.mem_of_getElem? slot)
    rw [inv.numbered _ _ slot]
    simp
  have distance : Serial.ahead (expectedSeq conn) p.seq
      = p.seq.toNat - (appended taken conn).length := by
    rw [inv.expected]
    conv_lhs => rw [← UInt32.ofNat_toNat (x := p.seq)]
    exact Serial.ahead_ofNat later p.seq.toNat_lt
  rw [Serial.signedDiff_eq, distance]
  split <;> omega

end ReceivesGenuine

/-! ## The joint invariant -/

namespace Session

structure SessionInv (s : Session) : Prop where
  few : s.sent.length < 2 ^ 32 - 1
  sender : SenderInv s.sent s.racks s.capped s.sender
  receiver : ReceivesGenuine s.sent s.taken s.receiver
  inFlight : ∀ p ∈ s.net, Genuine s.sent p
  acksInFlight : ∀ r ∈ s.rnet, r.packtype = ProtopackType.rack.code ∧
    r.seq.toNat < (appended s.taken s.receiver).length
  acked : firstUnacked s.racks ≤ (appended s.taken s.receiver).length

def Few (s : Session) : Prop := s.sent.length < 2 ^ 32 - 1

theorem fresh_inv (uidA uidB : UInt32) (startA startB : Int) :
    SessionInv (fresh uidA uidB startA startB) where
  few := by simp [fresh]
  sender := rudpConnNew_senderInv uidA uidB startA
  receiver := ⟨[], rudpConnNew_inv uidB uidA startB, by simp⟩
  inFlight := by simp [fresh]
  acksInFlight := by simp [fresh]
  acked := Nat.zero_le _

variable {s : Session}

theorem send_inv (inv : SessionInv s) {pkt : Protopack} {nowMs : Int}
    (data : pkt.packtype = ProtopackType.data.code) (few : (s.send pkt nowMs).Few) :
    SessionInv (s.send pkt nowMs) := by
  obtain ⟨ret, refused, eq⟩ | ⟨-, -, pending, -, -, eq⟩ := rudpConnSend_cases s.sender pkt nowMs
  · -- a call that is refused leaves no trace in the session
    have same : s.send pkt nowMs = s := by
      simp [send, eq, refused]
    rwa [same]
  · obtain ⟨senderInv, genuine⟩ := Rudp.send_inv inv.sender data inv.few eq
    simp only [send, eq, if_true, Few] at few ⊢
    have before : ∀ p ∈ s.net, Genuine (s.sent ++ [pkt.payload]) p :=
      fun p hp => (inv.inFlight p hp).append _
    exact ⟨few, senderInv, inv.receiver.append _, List.forall_mem_append.mpr ⟨before, genuine⟩,
      inv.acksInFlight, inv.acked⟩

theorem timeouts_inv (inv : SessionInv s) (nowMs : Int) : SessionInv (s.timeouts nowMs) := by
  obtain ⟨senderInv, genuine⟩ := Rudp.timeouts_inv inv.sender nowMs
  exact ⟨inv.few, senderInv, inv.receiver, List.forall_mem_append.mpr ⟨inv.inFlight, genuine⟩,
    inv.acksInFlight, inv.acked⟩

theorem inFlight_genuine (inv : SessionInv s) {i : Nat} {pkt : Protopack}
    (arrives : InFlight s.net i pkt) : Genuine s.sent (udpCopyPack pkt) := by
  obtain ⟨p, slot, same⟩ := arrives
  exact genuine_samePacket (inv.inFlight p (List.mem_of_getElem? slot)) same

/-- Handling DATA from the network keeps every packet received a genuine one, at every
    moment. -/
theorem receiving (inv : SessionInv s) {i : Nat} {pkt : Protopack} (arrives : InFlight s.net i pkt)
    (nowMs : Int) :
    ∀ c ∈ netHandlerDataMoments s.receiver (udpCopyPack pkt) nowMs,
      ReceivesGenuine s.sent s.taken c := by
  intro c hc
  obtain ⟨received, receiverInv, genuine⟩ := inv.receiver
  have new : ∀ p ∈ [udpCopyPack pkt], Genuine s.sent p :=
    List.forall_mem_singleton.mpr (inFlight_genuine inv arrives)
  exact ⟨received ++ [udpCopyPack pkt], netHandlerDataMoments_inv receiverInv _ nowMs c hc,
    List.forall_mem_append.mpr ⟨genuine, new⟩⟩

theorem handleData_inv (inv : SessionInv s) {i : Nat} {pkt : Protopack}
    (arrives : InFlight s.net i pkt) (nowMs : Int) : SessionInv (s.handleData i pkt nowMs) := by
  have grows := appended_grows s.taken (netHandlerData_delivered s.receiver (udpCopyPack pkt) nowMs)
  -- the state behind the handler is the last of its moments
  have last : (netHandlerData s.receiver (udpCopyPack pkt) nowMs).1 ∈
      netHandlerDataMoments s.receiver (udpCopyPack pkt) nowMs := by
    simp [netHandlerDataMoments]
  have receiver := receiving inv arrives nowMs _ last
  have bound := receiver.length_le inv.few
  have few := inv.few
  simp only [handleData, netHandlerConn_data (inFlight_genuine inv arrives).1]
  refine ⟨inv.few, inv.sender, receiver, ?_, ?_, Nat.le_trans inv.acked grows⟩
  · intro p hp
    exact inv.inFlight p (List.eraseIdx_subset hp)
  · refine List.forall_mem_append.mpr ⟨?_, ?_⟩
    · intro r hr
      exact ⟨(inv.acksInFlight r hr).1, Nat.lt_of_lt_of_le (inv.acksInFlight r hr).2 grows⟩
    · intro r hr
      obtain ⟨received, receiverInv, -⟩ := inv.receiver
      exact netHandlerData_acks receiverInv (by omega) hr

/-- The number of a RACK in flight is that of a packet already delivered. -/
theorem rack_delivered (inv : SessionInv s) {i : Nat} {pkt : Protopack}
    (arrives : InFlight s.rnet i pkt) :
    (udpCopyPack pkt).packtype = ProtopackType.rack.code ∧
      pkt.seq.toNat < (appended s.taken s.receiver).length := by
  obtain ⟨r, slot, seq, -, -, -, packtype, -⟩ := arrives
  have := inv.acksInFlight r (List.mem_of_getElem? slot)
  rw [udpCopyPack_packtype, packtype, seq]
  exact this

theorem handleRack_inv (inv : SessionInv s) {i : Nat} {pkt : Protopack}
    (arrives : InFlight s.rnet i pkt) (nowMs : Int) : SessionInv (s.handleRack i pkt nowMs) := by
  obtain ⟨type, below⟩ := rack_delivered inv arrives
  have bound := inv.receiver.length_le inv.few
  have sent : (udpCopyPack pkt).seq.toNat < s.sent.length := Nat.lt_of_lt_of_le below bound
  have senderInv := rack_inv inv.sender sent nowMs
  simp only [handleRack, netHandlerConn_rack type, List.append_nil]
  refine ⟨inv.few, senderInv, inv.receiver, inv.inFlight, ?_, ?_⟩
  · intro r hr
    exact inv.acksInFlight r (List.eraseIdx_subset hr)
  · show firstUnacked (s.racks ++ [pkt.seq]) ≤ _
    rw [firstUnacked_append]
    exact Nat.max_le.mpr ⟨inv.acked, below⟩

/-- Popping moves a packet from the queue to `taken`, so nothing delivered changes. -/
theorem recv_appended (s : Session) :
    appended s.recv.taken s.recv.receiver = appended s.taken s.receiver := by
  obtain ⟨pkt, rest, -, queue, popped⟩ | ⟨ret, same⟩ := rudpConnRecv_cases s.receiver
  · simp [recv, popped, appended, queue]
  · simp [recv, same, appended]

theorem recv_inv (inv : SessionInv s) : SessionInv s.recv := by
  have same := recv_appended s
  refine ⟨inv.few, inv.sender, ?_, inv.inFlight, ?_, ?_⟩
  · obtain ⟨received, receiverInv, genuine⟩ := inv.receiver
    refine ⟨received, ?_, genuine⟩
    obtain ⟨pkt, rest, -, queue, popped⟩ | ⟨ret, same⟩ := rudpConnRecv_cases s.receiver
    · simp only [recv, popped]
      exact Rudp.recv_inv receiverInv queue
    · simp only [recv, same, Option.toList_none, List.append_nil]
      exact receiverInv
  · rw [same]; exact inv.acksInFlight
  · rw [same]; exact inv.acked

theorem step_inv {s' : Session} {a : Action} (inv : SessionInv s) (few : s'.Few)
    (h : step s a = some s') : SessionInv s' := by
  cases a with
  | send pkt nowMs =>
    simp only [step, Option.ite_none_right_eq_some, Option.some.injEq] at h
    obtain ⟨data, rfl⟩ := h
    exact send_inv inv data few
  | timeouts nowMs => cases h; exact timeouts_inv inv nowMs
  | dataArrives i pkt nowMs =>
    simp only [step, Option.ite_none_right_eq_some, Option.some.injEq] at h
    obtain ⟨arrives, rfl⟩ := h
    exact handleData_inv inv arrives nowMs
  | rackArrives i pkt nowMs =>
    simp only [step, Option.ite_none_right_eq_some, Option.some.injEq] at h
    obtain ⟨arrives, rfl⟩ := h
    exact handleRack_inv inv arrives nowMs
  | dataFault f =>
    cases h
    -- the network invents nothing, so what is in flight was in flight before
    exact ⟨inv.few, inv.sender, inv.receiver, fun p hp => inv.inFlight p (f.apply_subset _ hp),
      inv.acksInFlight, inv.acked⟩
  | rackFault f =>
    cases h
    exact ⟨inv.few, inv.sender, inv.receiver, inv.inFlight,
      fun r hr => inv.acksInFlight r (f.apply_subset _ hr), inv.acked⟩
  | recv => cases h; exact recv_inv inv

/-! ## Refinement of the channel -/

def channel (s : Session) : FifoChannel.State (List UInt8) := ⟨s.sent, s.delivered⟩

/-- A step accepts at most one payload or delivers some more of those accepted. -/
theorem step_progress {s' : Session} {a : Action} (h : step s a = some s') :
    (∃ x, s'.sent = s.sent ++ [x] ∧ s'.delivered = s.delivered) ∨
      s'.sent = s.sent ∧
        (appended s.taken s.receiver).length ≤ (appended s'.taken s'.receiver).length := by
  cases a with
  | send pkt nowMs =>
    simp only [step, Option.ite_none_right_eq_some, Option.some.injEq] at h
    obtain ⟨-, rfl⟩ := h
    -- a refused payload is not counted as sent
    by_cases accepted : (rudpConnSend s.sender pkt nowMs).1 = 0
    · exact .inl ⟨pkt.payload, by simp [send, accepted], rfl⟩
    · exact .inr ⟨by simp [send, accepted], Nat.le_refl _⟩
  | timeouts nowMs => cases h; exact .inr ⟨rfl, Nat.le_refl _⟩
  | dataArrives i pkt nowMs =>
    simp only [step, Option.ite_none_right_eq_some, Option.some.injEq] at h
    obtain ⟨-, rfl⟩ := h
    exact .inr ⟨rfl, appended_grows s.taken
      (netHandlerConn_delivered s.receiver (udpCopyPack pkt) nowMs)⟩
  | rackArrives i pkt nowMs =>
    simp only [step, Option.ite_none_right_eq_some, Option.some.injEq] at h
    obtain ⟨-, rfl⟩ := h
    exact .inr ⟨rfl, Nat.le_refl _⟩
  | dataFault f => cases h; exact .inr ⟨rfl, Nat.le_refl _⟩
  | rackFault f => cases h; exact .inr ⟨rfl, Nat.le_refl _⟩
  | recv => cases h; exact .inr ⟨rfl, by rw [recv_appended]⟩

theorem few_antitone {s s' : Session} {a : Action} (h : step s a = some s') (few : s'.Few) :
    s.Few := by
  have longer : s.sent.length ≤ s'.sent.length := by
    obtain ⟨x, grown, -⟩ | ⟨same, -⟩ := step_progress h
    · simp [grown]
    · rw [same]
  exact Nat.lt_of_le_of_lt longer few

theorem step_refines {s' : Session} {a : Action} (inv : SessionInv s) (inv' : SessionInv s')
    (h : step s a = some s') : ∃ bs, run FifoChannel.step s.channel bs = some s'.channel := by
  obtain ⟨x, grown, same⟩ | ⟨same, more⟩ := step_progress h
  · refine ⟨[.send x], ?_⟩
    rw [channel, channel, grown, same]
    exact FifoChannel.send_step _ x
  · -- whatever a step delivers is a batch of receptions, which may be empty
    have before : s.delivered = s.sent.take _ := inv.receiver.delivered_eq inv.few
    have after : s'.delivered = s'.sent.take _ := inv'.receiver.delivered_eq inv'.few
    rw [channel, channel, before, after, same]
    exact FifoChannel.receive_batch s.sent more (same ▸ inv'.receiver.length_le inv'.few)

theorem reached_inv {uidA uidB : UInt32} {startA startB : Int} {as : List Action} {s : Session}
    (reached : run step (fresh uidA uidB startA startB) as = some s) (few : s.Few) : SessionInv s :=
  run_invariant_within (fun _ _ _ => few_antitone) (fun _ _ _ inv few => step_inv inv few)
    (fresh_inv uidA uidB startA startB) reached few

/-- Every run of a session is a run of the channel. -/
theorem session_refines_channel {uidA uidB : UInt32} {startA startB : Int} {as : List Action}
    {s : Session} (reached : run step (fresh uidA uidB startA startB) as = some s) (few : s.Few) :
    ∃ bs, run FifoChannel.step FifoChannel.empty bs = some s.channel :=
  run_simulates channel (fun _ _ _ => few_antitone) (fun _ _ _ inv _ few => step_inv inv few)
    (fun _ _ _ inv _ => step_refines inv) (fresh_inv uidA uidB startA startB)
    (meets_of_forall (fun _ _ => trivial) _ as : Meets step (fun _ _ => True) _ as) reached few

/-! ## What a session guarantees -/

/-- Ordered exactly-once delivery: the payloads delivered are the first of those accepted. -/
theorem delivered_prefix (uidA uidB : UInt32) (startA startB : Int) (as : List Action) (s : Session)
    (reached : run step (fresh uidA uidB startA startB) as = some s)
    (few : s.sent.length < 2 ^ 32 - 1) : s.delivered <+: s.sent := by
  obtain ⟨bs, simulated⟩ := session_refines_channel reached few
  exact FifoChannel.received_prefix simulated

/-- Two packets are sent, the second overtakes the first, a copy of it comes after the
    delivery, and the RACK for both comes back. -/
def overtaking : List Action :=
  [.send samplePack 0, .send samplePack 1, .dataFault (.duplicate 1),
    .dataArrives 1 { samplePack with seq := 1 } 5, .dataArrives 0 { samplePack with seq := 0 } 6,
    .recv, .dataArrives 0 { samplePack with seq := 1 } 7, .rackArrives 0
      { seq := 1, chsum := 9, dSize := 0, hFrom := 2, hTo := 1, packtype := 7, data := [] } 9]

theorem delivered_prefix_overtaking :
    ∃ s, run step (fresh 1 2 0 0) overtaking = some s ∧
      s.sent = [samplePack.data, samplePack.data] ∧ s.sender.pktsFhost = [] ∧
        s.delivered <+: s.sent :=
  ⟨_, rfl, rfl, rfl, delivered_prefix 1 2 0 0 overtaking _ rfl (by decide)⟩

/-- What handling a RACK takes off the pending packets was delivered. -/
def ForgetsOnlyDelivered (s : Session) : Prop :=
  ∀ i pkt nowMs s', step s (.rackArrives i pkt nowMs) = some s' →
    ∃ removed, s.sender.pktsFhost ~ removed ++ s'.sender.pktsFhost ∧
      ∀ ppkt ∈ removed, ∃ p ∈ appended s.taken s.receiver,
        p.seq = ppkt.seq ∧ p.payload = ppkt.copyPack.payload

/-- The pending numbers are those from the highest RACK on, each once. -/
def PendingContiguous (s : Session) : Prop :=
  pendingSeqs s.sender ~ List.range' (firstUnacked s.racks)
    (s.sender.currentSeq.toNat - firstUnacked s.racks)

/-- No packet is forgotten before it is delivered, and until the retransmission cap is hit
    the sender knows exactly which packets are not acknowledged. -/
theorem forgets_only_delivered (uidA uidB : UInt32) (startA startB : Int) (as : List Action)
    (s : Session) (reached : run step (fresh uidA uidB startA startB) as = some s)
    (few : s.sent.length < 2 ^ 32 - 1) :
    s.ForgetsOnlyDelivered ∧ (s.capped = false → s.PendingContiguous) := by
  have inv := reached_inv reached few
  refine ⟨?_, ?_⟩
  · intro i pkt nowMs s' h
    simp only [step, Option.ite_none_right_eq_some, Option.some.injEq] at h
    obtain ⟨arrives, rfl⟩ := h
    obtain ⟨type, below⟩ := rack_delivered inv arrives
    obtain ⟨removed, split, upTo⟩ := rack_removes s.sender (udpCopyPack pkt) nowMs
    refine ⟨removed, by simpa only [handleRack, netHandlerConn_rack type] using split, ?_⟩
    intro ppkt hp
    have pending := inv.sender.genuine ppkt (split.mem_iff.mpr (List.mem_append_left _ hp))
    have slot : ppkt.seq.toNat < (appended s.taken s.receiver).length :=
      Nat.lt_of_le_of_lt (UInt32.le_iff_toNat_le.mp (upTo ppkt hp)) below
    have there := List.getElem?_eq_getElem slot
    refine ⟨_, List.mem_of_getElem? there, ?_, ?_⟩
    · obtain ⟨received, receiverInv, -⟩ := inv.receiver
      rw [receiverInv.numbered _ _ there]
      simp
    · -- both carry the payload that was sent at this place
      have place := inv.receiver.place there
      rw [Nat.mod_eq_of_lt ppkt.seq.toNat_lt] at place
      have payload := pending.2.2
      rw [pending.1, place] at payload
      exact Option.some.inj payload
  · intro going
    have count : s.sender.currentSeq.toNat = s.sent.length := by
      rw [inv.sender.numbered, Serial.toNat_ofNat_of_lt (by omega)]
    rw [PendingContiguous, count]
    exact inv.sender.contiguous going

theorem forgets_only_delivered_overtaking :
    ∃ s, run step (fresh 1 2 0 0) overtaking = some s ∧
      s.ForgetsOnlyDelivered ∧ (s.capped = false → s.PendingContiguous) :=
  ⟨_, rfl, forgets_only_delivered 1 2 0 0 overtaking _ rfl (by decide)⟩

/-- No packet with this number was appended to `pkts_reordered`. -/
def Undelivered (taken : List Protopack) (conn : RudpConnection) (p : Protopack) : Prop :=
  ∀ d ∈ appended taken conn, d.seq ≠ p.seq

/-- `_rudp_conn_reordering` would not discard the packet for its distance. -/
def InReorderWindow (conn : RudpConnection) (p : Protopack) : Prop :=
  0 ≤ Serial.signedDiff p.seq (expectedSeq conn) ∧
    Serial.signedDiff p.seq (expectedSeq conn) ≤ rudpReorderWindow

/-- Every packet waiting to be examined, at every moment of handling DATA from the network,
    lies in the window unless it was delivered. -/
def ExaminesInWindow (s : Session) : Prop :=
  ∀ i pkt nowMs, InFlight s.net i pkt →
    ∀ c ∈ netHandlerDataMoments s.receiver (udpCopyPack pkt) nowMs, ∀ p ∈ c.pktsNet,
      Undelivered s.taken c p → InReorderWindow c p

/-- So does every packet in flight, and every one that is still to be resent. -/
def OutstandingInWindow (s : Session) : Prop :=
  ∀ p, (p ∈ s.net ∨ ∃ ppkt ∈ s.sender.pktsFhost, p = ppkt.copyPack) →
    Undelivered s.taken s.receiver p → InReorderWindow s.receiver p

/-- However late a packet arrives, it is examined inside the reorder window unless it was
    delivered before. -/
theorem undelivered_within_window (uidA uidB : UInt32) (startA startB : Int) (as : List Action)
    (s : Session) (reached : run step (fresh uidA uidB startA startB) as = some s)
    (few : s.sent.length < 2 ^ 32 - 1) : s.ExaminesInWindow ∧ s.OutstandingInWindow := by
  have inv := reached_inv reached few
  -- the sender runs at most a window ahead of the RACKs, and those never ahead of the deliveries
  have near : s.sent.length ≤ (appended s.taken s.receiver).length + rudpSendWindow :=
    Nat.le_trans inv.sender.window (Nat.add_le_add_right inv.acked _)
  refine ⟨?_, ?_⟩
  · intro i pkt nowMs arrives c hc p hp undelivered
    have genuineNow := receiving inv arrives nowMs c hc
    have grows := appended_grows s.taken (netHandlerDataMoments_delivered s.receiver _ nowMs c hc)
    have genuine : Genuine s.sent p := by
      obtain ⟨received, receiverInv, genuine⟩ := genuineNow
      exact genuine p (receiverInv.mem_received (.inr (.inr hp)))
    obtain ⟨low, high⟩ := genuineNow.window inv.few
      (Nat.le_trans near (Nat.add_le_add_right grows _)) (by decide) genuine undelivered
    exact ⟨low, Int.le_of_lt high⟩
  · intro p outstanding undelivered
    have genuine : Genuine s.sent p := by
      rcases outstanding with flying | ⟨ppkt, pending, rfl⟩
      · exact inv.inFlight p flying
      · exact (inv.sender.genuine ppkt pending).2
    obtain ⟨low, high⟩ := inv.receiver.window inv.few near (by decide) genuine undelivered
    exact ⟨low, Int.le_of_lt high⟩

theorem undelivered_within_window_overtaking :
    ∃ s, run step (fresh 1 2 0 0) overtaking = some s ∧ s.ExaminesInWindow ∧
      s.OutstandingInWindow :=
  ⟨_, rfl, undelivered_within_window 1 2 0 0 overtaking _ rfl (by decide)⟩

end Session

end Soter2.Rudp
