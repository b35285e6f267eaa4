import Mathlib.Data.List.Basic
import Mathlib.Data.List.Infix
import Mathlib.Tactic.Common
import Soter2.E2ee.Connection
import Soter2.Library.Transition
import Soter2.Protocol.Wire
import Soter2.Rudp.Receiver
import Soter2.Rudp.Sender

/-! # Successive sessions of two parties

The two parties close their connection and establish a new one as often as they like, each
on its own.  No packet says which session it belongs to, and every session starts with the
number 0, so what keeps the sessions apart is the numbers that a connection discards.

* `sessions_separate` — they are apart where that discards what comes from other sessions.
-/

namespace Soter2.Rudp

open Protocol
open Soter2.E2ee (Party)
open scoped List

/-! ## What a connection appends -/

/-- `conn'` has appended `new` to `pkts_reordered`, numbered from what `conn` expects. -/
structure Appends (conn conn' : RudpConnection) (new : List Protopack) : Prop where
  queue : conn'.pktsReordered = conn.pktsReordered ++ new
  numbered : ∀ k p, new[k]? = some p → p.seq = expectedSeq conn + UInt32.ofNat k
  expected : expectedSeq conn' = expectedSeq conn + UInt32.ofNat new.length

/-- What the receiving side holds satisfies `Q`, but for packets that it is going to
    discard. -/
structure Screened (Q : Protopack → Prop) (conn : RudpConnection) : Prop where
  buffered : ∀ p ∈ conn.pktsReorderBuf, Q p
  waiting : ∀ p ∈ conn.pktsNet, Q p ∨ rudpReorderWindow < Serial.ahead (expectedSeq conn) p.seq

section Receiving

variable {Q : Protopack → Prop} {conn conn' conn'' : RudpConnection}

theorem Appends.refl (conn : RudpConnection) : Appends conn conn [] :=
  ⟨(List.append_nil _).symm, by simp, by simp⟩

theorem Appends.concat {new : List Protopack} {p : Protopack} (h : Appends conn conn' new)
    (queue : conn''.pktsReordered = conn'.pktsReordered ++ [p]) (seq : p.seq = expectedSeq conn')
    (expected : expectedSeq conn'' = expectedSeq conn' + 1) : Appends conn conn'' (new ++ [p]) := by
  refine ⟨?_, ?_, ?_⟩
  · rw [queue, h.queue, List.append_assoc]
  · intro k q hq
    cases Nat.lt_or_ge k new.length with
    | inl old =>
      rw [List.getElem?_append_left old] at hq
      exact h.numbered k q hq
    | inr last =>
      obtain ⟨inside, -⟩ := List.getElem?_eq_some_iff.mp hq
      obtain rfl : k = new.length := by simp at inside; omega
      obtain rfl : p = q := by simpa using hq
      rw [seq, h.expected]
  · rw [expected, h.expected, List.length_append, List.length_singleton, Serial.ofNat_succ,
      UInt32.add_assoc]

theorem reorderIntake_screened (screened : Screened Q conn) :
    Screened Q (reorderIntake conn) ∧ (reorderIntake conn).pktsReordered = conn.pktsReordered ∧
      expectedSeq (reorderIntake conn) = expectedSeq conn := by
  have turn : ∀ c c', Screened Q c ∧ c.pktsReordered = conn.pktsReordered ∧
      expectedSeq c = expectedSeq conn →
      reorderPop c = some c' →
      Screened Q c' ∧ c'.pktsReordered = conn.pktsReordered ∧
        expectedSeq c' = expectedSeq conn := by
    rintro c c' ⟨screened, same⟩ h
    obtain ⟨pkt, rest, queue, ⟨-, rfl⟩ | ⟨inside, rfl⟩⟩ := reorderPop_cases h
    · refine ⟨⟨screened.buffered, ?_⟩, same⟩
      intro p hp
      exact screened.waiting p (queue ▸ List.mem_cons_of_mem _ hp)
    · -- a packet that gets into the buffer was not one to be discarded
      have accepted : Q pkt := by
        cases screened.waiting pkt (queue ▸ List.mem_cons_self) with
        | inl good => exact good
        | inr outside => omega
      refine ⟨⟨?_, ?_⟩, same⟩
      · intro p hp
        rcases UniqueInsert.mem_insert hp with rfl | old
        · exact accepted
        · exact screened.buffered p old
      · intro p hp
        exact screened.waiting p (queue ▸ List.mem_cons_of_mem _ hp)
  exact Loop.run_invariant turn _ ⟨screened, rfl, rfl⟩

theorem reordering_appends (screened : Screened Q conn) :
    Screened Q (rudpConnReordering conn) ∧
      ∃ new, Appends conn (rudpConnReordering conn) new ∧ ∀ p ∈ new, Q p := by
  obtain ⟨taken, queue, expected⟩ := reorderIntake_screened screened
  -- nothing waits any more when the loop starts that moves the expected number
  have turn : ∀ c c', (c.pktsNet = [] ∧ (∀ p ∈ c.pktsReorderBuf, Q p) ∧
        ∃ new, Appends conn c new ∧ ∀ p ∈ new, Q p) → reorderDrain c = some c' →
      c'.pktsNet = [] ∧ (∀ p ∈ c'.pktsReorderBuf, Q p) ∧ ∃ new, Appends conn c' new ∧
        ∀ p ∈ new, Q p := by
    rintro c c' ⟨net, buffered, new, appends, good⟩ h
    obtain ⟨p, rest, buffer, next, rfl⟩ := reorderDrain_cases h
    rw [buffer, List.forall_mem_cons] at buffered
    refine ⟨net, buffered.2, new ++ [p], appends.concat rfl next ?_, ?_⟩
    · rw [expectedSeq_eq, ← next]
    · exact List.forall_mem_append.mpr ⟨good, List.forall_mem_singleton.mpr buffered.1⟩
  have start : Appends conn (reorderIntake conn) [] :=
    ⟨by rw [queue, List.append_nil], by simp, by simp [expected]⟩
  obtain ⟨net, buffered, new⟩ := Loop.run_invariant turn (reorderIntake conn).pktsReorderBuf.length
    ⟨reorderIntake_net conn, taken.buffered, [], start, by simp⟩
  refine ⟨⟨buffered, ?_⟩, new⟩
  rw [rudpConnReordering, net]
  simp

/-- Handling a DATA packet that satisfies `Q` or is going to be discarded. -/
theorem acceptData_appends (screened : Screened Q conn) {pkt : Protopack}
    (screens : Q pkt ∨ rudpReorderWindow < Serial.ahead (expectedSeq conn) pkt.seq) :
    Screened Q (acceptData conn pkt) ∧ ∃ new, Appends conn (acceptData conn pkt) new ∧
      ∀ p ∈ new, Q p := by
  have passed : Screened Q (rudpConnPassNet conn pkt) :=
    ⟨screened.buffered, List.forall_mem_append.mpr
      ⟨screened.waiting, List.forall_mem_singleton.mpr screens⟩⟩
  by_cases next : pkt.seq = expectedSeq conn
  · rw [acceptData, if_pos next]
    obtain ⟨after, new, appends, good⟩ := reordering_appends passed
    exact ⟨after, new, ⟨appends.queue, appends.numbered, appends.expected⟩, good⟩
  · rw [acceptData, if_neg next]
    have unchanged : Appends conn conn [] := Appends.refl conn
    exact ⟨passed, [], ⟨unchanged.queue, unchanged.numbered, unchanged.expected⟩, by simp⟩

theorem netHandlerData_appends (screened : Screened Q conn) {pkt : Protopack} (nowMs : Int)
    (screens : Q pkt ∨ rudpReorderWindow < Serial.ahead (expectedSeq conn) pkt.seq) :
    Screened Q (netHandlerData conn pkt nowMs).1 ∧
      ∃ new, Appends conn (netHandlerData conn pkt nowMs).1 new ∧ ∀ p ∈ new, Q p := by
  obtain ⟨_, _, _, _, frame⟩ := netHandlerData_frame conn pkt nowMs
  obtain ⟨after, new, appends, good⟩ := acceptData_appends screened screens
  rw [frame]
  exact ⟨⟨after.buffered, after.waiting⟩, new, ⟨appends.queue, appends.numbered, appends.expected⟩,
    good⟩

end Receiving

/-! ## The system -/

/-- A connection that a party established, the payloads for which `rudp_conn_send` returned 0
    on it, and what it appended to `pkts_reordered`. -/
structure Episode where
  conn : RudpConnection
  sent : List (List UInt8)
  delivered : List Protopack

/-- A packet in flight, and who sent it in which of its sessions. -/
structure Flying where
  sender : Party
  session : Nat
  pkt : Protopack

/-- A RACK that was sent in session `sentIn` and handled in `session`, with the connection
    before and after it and what the other party had delivered in that session by then. -/
structure RackHandled where
  sentIn : Nat
  session : Nat
  before : Episode
  after : RudpConnection
  delivered : List Protopack

/-- The sessions of each party, numbered from 0, with the one in the table of its dispatcher.
    Whatever was sent may arrive at any time and any number of times. -/
structure Link where
  sessions : Party → List Episode
  current : Party → Option Nat
  net : List Flying
  racks : List RackHandled

inductive LinkAction where
  | est (p : Party) (nowMs : Int)
  | close (p : Party)
  | send (p : Party) (session : Nat) (pkt : Protopack) (nowMs : Int)
  | recv (p : Party) (session : Nat)
  | timeouts (p : Party) (nowMs : Int)
  | arrives (i : Nat) (pkt : Protopack) (nowMs : Int)

namespace Link

def init : Link := ⟨fun _ => [], fun _ => none, [], []⟩

variable (w : Link)

/-- What a party was given to send in a session. -/
def sentIn (p : Party) (session : Nat) : List (List UInt8) :=
  ((w.sessions p)[session]?.map Episode.sent).getD []

def deliveredIn (p : Party) (session : Nat) : List Protopack :=
  ((w.sessions p)[session]?.map Episode.delivered).getD []

/-- The connection that the dispatcher of a party has in its table. -/
def live (p : Party) : Option (Nat × Episode) :=
  (w.current p).bind fun session => (w.sessions p)[session]?.map fun e => (session, e)

/-- Write a session, and send what came out. -/
def put (p : Party) (session : Nat) (e : Episode) (out : List Protopack) : Link :=
  { w with
    sessions := Function.update w.sessions p ((w.sessions p).set session e)
    net := w.net ++ out.map fun pkt => ⟨p, session, pkt⟩ }

/-- `rudp_est_connection`, which takes the place of a connection that is still there. -/
def est (uid : Party → UInt32) (p : Party) (nowMs : Int) : Link :=
  { w with
    sessions := Function.update w.sessions p
      (w.sessions p ++ [⟨rudpConnNew (uid p) (uid p.other) nowMs, [], []⟩])
    current := Function.update w.current p (some (w.sessions p).length) }

/-- `rudp_close_conncetion`. -/
def close (p : Party) (session : Nat) (e : Episode) : Link :=
  { w.put p session { e with conn := (rudpConnClose e.conn).1 } (rudpConnClose e.conn).2 with
    current := Function.update w.current p none }

def send (p : Party) (session : Nat) (e : Episode) (pkt : Protopack) (nowMs : Int) : Link :=
  let (ret, conn, out) := rudpConnSend e.conn pkt nowMs
  w.put p session { e with conn := conn, sent := if ret = 0 then e.sent ++ [pkt.payload]
    else e.sent } out

/-- `_rudp_dispatcher_net_handler` on a packet that was sent in session `sentIn`. -/
def handle (p : Party) (session : Nat) (e : Episode) (sentIn : Nat) (pkt : Protopack)
    (nowMs : Int) : Link :=
  if pkt.packtype = ProtopackType.fin.code then w.close p session e
  else
    let (conn, out) := netHandlerConn e.conn pkt nowMs
    let after := w.put p session { e with
      conn := conn
      -- the call only appends, so what lies beyond the old length is new
      delivered := e.delivered ++ conn.pktsReordered.drop e.conn.pktsReordered.length } out
    if pkt.packtype = ProtopackType.rack.code then
      { after with racks := w.racks ++ [⟨sentIn, session, e, conn, w.deliveredIn p.other session⟩] }
    else after

def step (uid : Party → UInt32) (w : Link) : LinkAction → Option Link
  | .est p nowMs => some (w.est uid p nowMs)
  | .close p =>
    match w.live p with
    | none => some w
    | some (session, e) => some (w.close p session e)
  | .send p session pkt nowMs =>
    if pkt.packtype = ProtopackType.data.code then
      (w.sessions p)[session]?.map fun e => w.send p session e pkt nowMs
    else none
  | .recv p session =>
    (w.sessions p)[session]?.map fun e =>
      w.put p session { e with conn := (rudpConnRecv e.conn).2.2 } []
  | .timeouts p nowMs =>
    match w.live p with
    | none => some w
    | some (session, e) =>
      let (_, conn, out) := rudpConnTimeouts e.conn nowMs
      some (w.put p session { e with conn := conn } out)
  | .arrives i pkt nowMs =>
    match w.net[i]? with
    | none => none
    | some f =>
      if SamePacket f.pkt pkt then
        match w.live f.sender.other with
        -- the worker frees a packet from a peer without a connection
        | none => some w
        | some (session, e) =>
          some (w.handle f.sender.other session e f.session (udpCopyPack pkt) nowMs)
      else none

/-- The connection discards the packet: DATA for the distance of its number, and a RACK for
    there is nothing up to it. -/
def Discards (conn : RudpConnection) (pkt : Protopack) : Prop :=
  (pkt.packtype = ProtopackType.data.code →
    Serial.signedDiff pkt.seq (expectedSeq conn) < 0 ∨
      Serial.signedDiff pkt.seq (expectedSeq conn) > rudpReorderWindow) ∧
  (pkt.packtype = ProtopackType.rack.code → ∀ ppkt ∈ conn.pktsFhost, pkt.seq < ppkt.seq)

instance (conn : RudpConnection) (pkt : Protopack) : Decidable (Discards conn pkt) :=
  inferInstanceAs (Decidable (_ ∧ _))

/-- What arrives is from the session it arrives in, or is discarded. -/
def Separated (w : Link) : LinkAction → Prop
  | .arrives i pkt _ =>
    ∀ f ∈ w.net[i]?, ∀ c ∈ w.live f.sender.other, f.session = c.1 ∨ Discards c.2.conn pkt
  | _ => True

end Link

/-! ## The invariant -/

/-- The packet is numbered and filled as one of those sent. -/
def IsSent (sent : List (List UInt8)) (p : Protopack) : Prop :=
  ∃ n, p.seq = UInt32.ofNat n ∧ sent[n]? = some p.payload

theorem IsSent.mono {sent sent' : List (List UInt8)} {p : Protopack} (h : IsSent sent p)
    (grown : sent <+: sent') : IsSent sent' p := by
  obtain ⟨n, seq, place⟩ := h
  obtain ⟨more, rfl⟩ := grown
  obtain ⟨inside, -⟩ := List.getElem?_eq_some_iff.mp place
  exact ⟨n, seq, (List.getElem?_append_left inside).trans place⟩

structure Episode.Inv (peerSent : List (List UInt8)) (e : Episode) : Prop where
  current : e.conn.currentSeq = UInt32.ofNat e.sent.length
  pending : ∀ ppkt ∈ e.conn.pktsFhost,
    ppkt.copyPack.packtype = ProtopackType.data.code ∧ ppkt.copyPack.seq = ppkt.seq ∧
      IsSent e.sent ppkt.copyPack
  numbered : ∀ k d, e.delivered[k]? = some d → d.seq = UInt32.ofNat k
  expected : expectedSeq e.conn = UInt32.ofNat e.delivered.length
  genuine : ∀ d ∈ e.delivered, IsSent peerSent d
  screened : Screened (IsSent peerSent) e.conn

/-- A DATA packet in flight was sent, and a RACK names a packet that was delivered. -/
structure Traceable (sent : List (List UInt8)) (delivered : List Protopack) (p : Protopack) :
    Prop where
  data : p.packtype = ProtopackType.data.code → IsSent sent p
  rack : p.packtype = ProtopackType.rack.code → ∃ n < delivered.length, p.seq = UInt32.ofNat n

/-- A RACK took nothing off the pending packets that was not delivered, if it came from
    another session or few packets were sent in this one. -/
def RackHandled.Fine (h : RackHandled) : Prop :=
  h.sentIn ≠ h.session ∨ h.before.sent.length < 2 ^ 32 - 1 →
    ∀ ppkt ∈ h.before.conn.pktsFhost, ppkt ∈ h.after.pktsFhost ∨
      ∃ d ∈ h.delivered, d.seq = ppkt.seq ∧ d.payload = ppkt.copyPack.payload

structure Link.Inv (w : Link) : Prop where
  sessions : ∀ p session (e : Episode), (w.sessions p)[session]? = some e →
    e.Inv (w.sentIn p.other session)
  inFlight : ∀ f ∈ w.net, Traceable (w.sentIn f.sender f.session) (w.deliveredIn f.sender f.session)
    f.pkt
  racks : ∀ h ∈ w.racks, h.Fine

theorem IsSent.traceable {sent : List (List UInt8)} {p : Protopack} (h : IsSent sent p)
    (type : p.packtype = ProtopackType.data.code) (delivered : List Protopack) :
    Traceable sent delivered p :=
  ⟨fun _ => h, fun rack => absurd (type.symm.trans rack) (by decide)⟩

theorem Traceable.mono {sent sent' : List (List UInt8)} {delivered delivered' : List Protopack}
    {p : Protopack} (h : Traceable sent delivered p) (grown : sent <+: sent')
    (grown' : delivered <+: delivered') :
    Traceable sent' delivered' p where
  data := fun type => (h.data type).mono grown
  rack := fun type => by
    obtain ⟨n, below, seq⟩ := h.rack type
    exact ⟨n, Nat.lt_of_lt_of_le below grown'.length_le, seq⟩

theorem Episode.Inv.mono {e : Episode} {peerSent peerSent' : List (List UInt8)} (h : e.Inv peerSent)
    (grown : peerSent <+: peerSent') : e.Inv peerSent' where
  current := h.current
  pending := h.pending
  numbered := h.numbered
  expected := h.expected
  genuine := fun d member => (h.genuine d member).mono grown
  screened := {
    buffered := fun p member => (h.screened.buffered p member).mono grown
    waiting := fun p member => (h.screened.waiting p member).imp_left fun sent => sent.mono grown }

namespace Link

variable {w : Link} {p q : Party} {session i : Nat} {e e' : Episode}

theorem sentIn_of (at_ : (w.sessions p)[session]? = some e) : w.sentIn p session = e.sent := by
  rw [sentIn, at_]
  rfl

theorem deliveredIn_of (at_ : (w.sessions p)[session]? = some e) :
    w.deliveredIn p session = e.delivered := by
  rw [deliveredIn, at_]
  rfl

theorem sessions_of_live (h : w.live p = some (session, e)) :
    (w.sessions p)[session]? = some e := by
  obtain ⟨current, -, at_⟩ := Option.bind_eq_some_iff.mp h
  obtain ⟨found, slot, eq⟩ := Option.map_eq_some_iff.mp at_
  cases eq
  exact slot

/-! ## Writing a session -/

theorem sessions_put (at_ : (w.sessions p)[session]? = some e) (out : List Protopack) :
    ((w.put p session e' out).sessions q)[i]? =
      if q = p ∧ i = session then some e' else (w.sessions q)[i]? := by
  obtain ⟨inside, -⟩ := List.getElem?_eq_some_iff.mp at_
  by_cases own : q = p
  · subst own
    by_cases here : i = session
    · simp [put, here, inside]
    · simp [put, here, List.getElem?_set_ne (Ne.symm here)]
  · simp [put, own]

theorem grows_put (at_ : (w.sessions p)[session]? = some e) (sent : e.sent <+: e'.sent)
    (delivered : e.delivered <+: e'.delivered) (out : List Protopack) (q : Party) (i : Nat) :
    w.sentIn q i <+: (w.put p session e' out).sentIn q i ∧
      w.deliveredIn q i <+: (w.put p session e' out).deliveredIn q i := by
  by_cases here : q = p ∧ i = session
  · obtain ⟨rfl, rfl⟩ := here
    rw [sentIn_of at_, deliveredIn_of at_, sentIn, deliveredIn, sessions_put at_, if_pos ⟨rfl, rfl⟩]
    exact ⟨sent, delivered⟩
  · simp only [sentIn, deliveredIn, sessions_put at_, if_neg here]
    exact ⟨List.prefix_refl _, List.prefix_refl _⟩

theorem put_inv (inv : w.Inv) (at_ : (w.sessions p)[session]? = some e)
    (holds : e'.Inv (w.sentIn p.other session)) (sent : e.sent <+: e'.sent)
    (delivered : e.delivered <+: e'.delivered) {out : List Protopack}
    (traceable : ∀ pkt ∈ out, Traceable e'.sent e'.delivered pkt) :
    (w.put p session e' out).Inv where
  sessions := by
    intro q i f slot
    rw [sessions_put at_] at slot
    -- what the other party has sent may have grown, and in no other way changed
    have grows := (grows_put at_ sent delivered out q.other i).1
    split at slot
    next here =>
      obtain ⟨rfl, rfl⟩ := here
      cases slot
      exact holds.mono grows
    next => exact (inv.sessions q i f slot).mono grows
  inFlight := by
    intro f hf
    cases List.mem_append.mp hf with
    | inl old =>
      obtain ⟨sentGrows, deliveredGrows⟩ := grows_put at_ sent delivered out f.sender f.session
      exact (inv.inFlight f old).mono sentGrows deliveredGrows
    | inr new =>
      obtain ⟨pkt, member, rfl⟩ := List.mem_map.mp new
      have slot : ((w.put p session e' out).sessions p)[session]? = some e' := by
        rw [sessions_put at_, if_pos ⟨rfl, rfl⟩]
      simpa only [sentIn_of slot, deliveredIn_of slot] using traceable pkt member
  racks := inv.racks

/-- A step that neither accepts nor delivers a payload. -/
theorem put_conn_inv (inv : w.Inv) (at_ : (w.sessions p)[session]? = some e) {conn : RudpConnection}
    (holds : Episode.Inv (w.sentIn p.other session) { e with conn := conn }) {out : List Protopack}
    (traceable : ∀ pkt ∈ out, Traceable e.sent e.delivered pkt) :
    (w.put p session { e with conn := conn } out).Inv :=
  put_inv inv at_ holds (List.prefix_refl _) (List.prefix_refl _) traceable

/-! ## One step -/

theorem getD_concat_empty {α : Type*} (field : Episode → List α) {new : Episode}
    (empty : field new = []) (sessions : List Episode) (i : Nat) :
    ((sessions ++ [new])[i]?.map field).getD [] = (sessions[i]?.map field).getD [] := by
  rcases Nat.lt_trichotomy i sessions.length with old | rfl | beyond
  · rw [List.getElem?_append_left old]
  · simp [empty]
  · rw [List.getElem?_eq_none (by simp; omega), List.getElem?_eq_none (by omega)]

theorem est_inv (inv : w.Inv) (uid : Party → UInt32) (p : Party) (nowMs : Int) :
    (w.est uid p nowMs).Inv := by
  have sent : ∀ q i, (w.est uid p nowMs).sentIn q i = w.sentIn q i := by
    intro q i
    by_cases own : q = p
    · subst own
      simpa [est, sentIn] using getD_concat_empty Episode.sent rfl (w.sessions q) i
    · simp [est, sentIn, own]
  have delivered : ∀ q i, (w.est uid p nowMs).deliveredIn q i = w.deliveredIn q i := by
    intro q i
    by_cases own : q = p
    · subst own
      simpa [est, deliveredIn] using getD_concat_empty Episode.delivered rfl (w.sessions q) i
    · simp [est, deliveredIn, own]
  refine ⟨?_, ?_, inv.racks⟩
  · intro q i e slot
    rw [sent]
    by_cases own : q = p
    · subst own
      simp only [est, Function.update_self, List.getElem?_append] at slot
      split at slot
      · exact inv.sessions q i e slot
      · -- the new session has no history yet
        rw [List.getElem?_singleton, Option.ite_none_right_eq_some, Option.some.injEq] at slot
        obtain ⟨-, rfl⟩ := slot
        exact ⟨rfl, by simp [rudpConnNew], by simp,
          rfl, by simp, by simp [rudpConnNew], by simp [rudpConnNew]⟩
    · simp only [est, Function.update_of_ne own] at slot
      exact inv.sessions q i e slot
  · intro f hf
    rw [sent, delivered]
    exact inv.inFlight f hf

theorem close_inv (inv : w.Inv) (at_ : (w.sessions p)[session]? = some e) :
    (w.close p session e).Inv := by
  have before := inv.sessions p session e at_
  have closed : Episode.Inv (w.sentIn p.other session)
      { e with conn := (rudpConnClose e.conn).1 } :=
    ⟨before.current, by simp [rudpConnClose], before.numbered, before.expected, before.genuine,
      by simp [rudpConnClose], by simp [rudpConnClose]⟩
  have fins : ∀ pkt ∈ (rudpConnClose e.conn).2, Traceable e.sent e.delivered pkt := by
    intro pkt member
    have type : pkt.packtype = ProtopackType.fin.code := by
      simp only [rudpConnClose, protoMsgQuick_eq, Option.toList_some] at member
      rcases List.mem_append.mp member with first | second
      · exact List.mem_singleton.mp first ▸ rfl
      · exact List.mem_singleton.mp second ▸ rfl
    refine ⟨fun data => ?_, fun rack => ?_⟩
    · exact absurd (type.symm.trans data) (by decide)
    · exact absurd (type.symm.trans rack) (by decide)
  have written := put_conn_inv inv at_ closed fins
  exact ⟨written.sessions, written.inFlight, written.racks⟩

theorem send_inv (inv : w.Inv) (at_ : (w.sessions p)[session]? = some e) {pkt : Protopack}
    (data : pkt.packtype = ProtopackType.data.code) (nowMs : Int) :
    (w.send p session e pkt nowMs).Inv := by
  have before := inv.sessions p session e at_
  rw [send]
  obtain ⟨ret, refused, eq⟩ | ⟨-, -, pending, seq, copy, eq⟩ := rudpConnSend_cases e.conn pkt nowMs
  · simp only [eq, if_neg refused]
    exact put_conn_inv inv at_ before (by simp)
  · simp only [eq, if_true]
    -- the pending copy is the payload at its number in what is sent now
    have sent : IsSent (e.sent ++ [pkt.payload]) pending.copyPack := by
      rw [copy]
      refine ⟨e.sent.length, before.current, ?_⟩
      show _ = some (udpCopyPack pkt).payload
      rw [udpCopyPack_payload]
      simp
    have type : pending.copyPack.packtype = ProtopackType.data.code := by rw [copy]; exact data
    refine put_inv inv at_ ?_ ?_ ?_ ?_
    · refine ⟨?_, ?_, before.numbered, before.expected, before.genuine,
        ⟨before.screened.buffered, before.screened.waiting⟩⟩
      · rw [List.length_append, List.length_singleton, Serial.ofNat_succ, ← before.current]
      · intro ppkt hp
        cases List.mem_append.mp hp with
        | inl old =>
          obtain ⟨data, number, was⟩ := before.pending ppkt old
          exact ⟨data, number, was.mono (List.prefix_append _ _)⟩
        | inr new =>
          obtain rfl := List.mem_singleton.mp new
          exact ⟨type, by rw [copy, seq], sent⟩
    · exact List.prefix_append _ _
    · exact List.prefix_refl _
    · exact List.forall_mem_singleton.mpr (sent.traceable type _)

theorem recv_inv (inv : w.Inv) (at_ : (w.sessions p)[session]? = some e) :
    (w.put p session { e with conn := (rudpConnRecv e.conn).2.2 } []).Inv := by
  have before := inv.sessions p session e at_
  refine put_conn_inv inv at_ ?_ (by simp)
  obtain ⟨pkt, rest, -, -, popped⟩ | ⟨ret, same⟩ := rudpConnRecv_cases e.conn
  · rw [popped]
    exact ⟨before.current, before.pending, before.numbered, before.expected, before.genuine,
      before.screened.buffered, before.screened.waiting⟩
  · rw [same]
    exact before

theorem timeouts_inv (inv : w.Inv) (at_ : (w.sessions p)[session]? = some e) (nowMs : Int) :
    (w.put p session { e with conn := (rudpConnTimeouts e.conn nowMs).2.1 }
      (rudpConnTimeouts e.conn nowMs).2.2).Inv := by
  have before := inv.sessions p session e at_
  have loop := timeoutsLoop_inv e.conn nowMs
  simp only [rudpConnTimeouts]
  generalize timeoutsLoop e.conn nowMs = l at loop
  refine put_conn_inv inv at_ ?_ ?_
  · -- the visit leaves the packets that are pending as they were made
    have pending : ∀ ppkt ∈ l.conn.pktsFhost, ppkt.copyPack.packtype = ProtopackType.data.code ∧
        ppkt.copyPack.seq = ppkt.seq ∧ IsSent e.sent ppkt.copyPack := by
      intro ppkt hp
      obtain ⟨old, member, seq, copy⟩ := loop.carried_over hp
      rw [← seq, ← copy]
      exact before.pending old member
    rw [loop.frame]
    exact ⟨before.current, pending, before.numbered, before.expected, before.genuine,
      before.screened.buffered, before.screened.waiting⟩
  · intro pkt member
    obtain ⟨ppkt, hp, rfl⟩ := List.mem_map.mp (loop.resent pkt member)
    obtain ⟨type, -, sent⟩ := before.pending ppkt hp
    exact sent.traceable type _

/-- A DATA packet of the matching session, or one that is discarded. -/
theorem data_inv (inv : w.Inv) (at_ : (w.sessions p)[session]? = some e) {pkt : Protopack}
    (nowMs : Int)
    (screens : IsSent (w.sentIn p.other session) pkt ∨
      rudpReorderWindow < Serial.ahead (expectedSeq e.conn) pkt.seq) :
    (w.put p session { e with
      conn := (netHandlerData e.conn pkt nowMs).1
      delivered := e.delivered ++
        (netHandlerData e.conn pkt nowMs).1.pktsReordered.drop e.conn.pktsReordered.length }
      (netHandlerData e.conn pkt nowMs).2).Inv := by
  have before := inv.sessions p session e at_
  obtain ⟨screened, new, appends, good⟩ := netHandlerData_appends before.screened nowMs screens
  have grown : (netHandlerData e.conn pkt nowMs).1.pktsReordered.drop e.conn.pktsReordered.length
      = new := by
    rw [appends.queue, List.drop_left]
  have expected : expectedSeq (netHandlerData e.conn pkt nowMs).1
      = UInt32.ofNat (e.delivered ++ new).length := by
    rw [appends.expected, before.expected, List.length_append, Serial.ofNat_add]
  rw [grown]
  refine put_inv inv at_ ?_ ?_ ?_ ?_
  · obtain ⟨pending, current, -⟩ := netHandlerData_sending e.conn pkt nowMs
    refine ⟨current.trans before.current, pending ▸ before.pending, ?_, expected,
      List.forall_mem_append.mpr ⟨before.genuine, good⟩, screened⟩
    intro k d hd
    cases Nat.lt_or_ge k e.delivered.length with
    | inl old =>
      rw [List.getElem?_append_left old] at hd
      exact before.numbered k d hd
    | inr fresh =>
      -- the new packets go on where the old ones end
      rw [List.getElem?_append_right fresh] at hd
      rw [appends.numbered _ d hd, before.expected, ← Serial.ofNat_add, Nat.add_sub_cancel' fresh]
  · exact List.prefix_refl _
  · exact List.prefix_append _ _
  · intro msg sends
    obtain ⟨type, positive, seq⟩ := netHandlerData_names_last expected sends
    exact ⟨fun data => absurd (type.symm.trans data) (by decide),
      fun _ => ⟨_, Nat.sub_lt positive Nat.one_pos, seq⟩⟩

theorem rack_inv (inv : w.Inv) (at_ : (w.sessions p)[session]? = some e) (pkt : Protopack)
    (nowMs : Int) :
    (w.put p session { e with conn := netHandlerRack e.conn pkt nowMs } []).Inv := by
  have before := inv.sessions p session e at_
  refine put_conn_inv inv at_ ?_ (by simp)
  refine ⟨before.current, ?_, before.numbered, before.expected, before.genuine,
    before.screened.buffered, before.screened.waiting⟩
  intro ppkt hp
  exact before.pending ppkt (mem_netHandlerRack.mp hp).1

end Link

/-! ## What a RACK of the matching session takes away -/

/-- Few packets are told apart by their numbers. -/
theorem IsSent.payload_eq {sent : List (List UInt8)} (few : sent.length < 2 ^ 32 - 1)
    {p q : Protopack}
    (hp : IsSent sent p) (hq : IsSent sent q) (same : p.seq = q.seq) : p.payload = q.payload := by
  obtain ⟨m, seq, place⟩ := hp
  obtain ⟨n, seq', place'⟩ := hq
  obtain ⟨inside, -⟩ := List.getElem?_eq_some_iff.mp place
  obtain ⟨inside', -⟩ := List.getElem?_eq_some_iff.mp place'
  have equal := congrArg UInt32.toNat (seq.symm.trans (same.trans seq'))
  rw [Serial.toNat_ofNat_of_lt (by omega), Serial.toNat_ofNat_of_lt (by omega)] at equal
  rw [equal, place'] at place
  exact (Option.some.inj place).symm

theorem Episode.Inv.delivered_length_le {e : Episode} {peerSent : List (List UInt8)}
    (h : e.Inv peerSent)
    (few : peerSent.length < 2 ^ 32 - 1) : e.delivered.length ≤ peerSent.length := by
  by_contra more
  -- the packet behind the last one that was sent would have its number
  have slot := List.getElem?_eq_getElem (Nat.lt_of_not_le more)
  obtain ⟨n, seq, place⟩ := h.genuine _ (List.mem_of_getElem? slot)
  obtain ⟨inside, -⟩ := List.getElem?_eq_some_iff.mp place
  have equal := congrArg UInt32.toNat ((h.numbered _ _ slot).symm.trans seq)
  rw [Serial.toNat_ofNat_of_lt (by omega), Serial.toNat_ofNat_of_lt (by omega)] at equal
  omega

/-- The packets up to one that was delivered were delivered, as the sender has them. -/
theorem Episode.Inv.delivered_up_to {sender receiver : Episode} {peerSent : List (List UInt8)}
    (hs : sender.Inv peerSent) (hr : receiver.Inv sender.sent)
    (few : sender.sent.length < 2 ^ 32 - 1) {n : Nat} (below : n < receiver.delivered.length)
    {ppkt : RudpPendingPkt} (pending : ppkt ∈ sender.conn.pktsFhost)
    (upTo : ppkt.seq ≤ UInt32.ofNat n) :
    ∃ d ∈ receiver.delivered, d.seq = ppkt.seq ∧ d.payload = ppkt.copyPack.payload := by
  -- so few were delivered that a number is a place
  have length := hr.delivered_length_le few
  have inside : ppkt.seq.toNat < receiver.delivered.length := by
    have := UInt32.le_iff_toNat_le.mp upTo
    rw [Serial.toNat_ofNat_of_lt (by omega)] at this
    omega
  have slot := List.getElem?_eq_getElem inside
  have seq : (receiver.delivered[ppkt.seq.toNat]).seq = ppkt.seq := by
    rw [hr.numbered _ _ slot, UInt32.ofNat_toNat]
  obtain ⟨-, number, sent⟩ := hs.pending ppkt pending
  have member := List.mem_of_getElem? slot
  exact ⟨_, member, seq, (hr.genuine _ member).payload_eq few sent (seq.trans number.symm)⟩

theorem Traceable.arrives {sent : List (List UInt8)} {delivered : List Protopack}
    {q pkt : Protopack} (h : Traceable sent delivered q) (same : SamePacket q pkt) :
    Traceable sent delivered (udpCopyPack pkt) := by
  have payload : (udpCopyPack pkt).payload = q.payload :=
    (udpCopyPack_payload pkt).trans same.payload_eq
  obtain ⟨seq, -, -, -, packtype, -⟩ := same
  refine ⟨fun type => ?_, fun type => ?_⟩
  · obtain ⟨n, number, place⟩ := h.data (packtype.symm.trans type)
    exact ⟨n, seq.trans number, payload ▸ place⟩
  · obtain ⟨n, below, number⟩ := h.rack (packtype.symm.trans type)
    exact ⟨n, below, seq.trans number⟩

namespace Link

variable {uid : Party → UInt32} {w w' : Link} {p : Party} {session sentIn : Nat} {e : Episode}

/-- A RACK from another session finds nothing to remove, one from the matching session only
    what was delivered. -/
theorem rack_fine (inv : w.Inv) (at_ : (w.sessions p)[session]? = some e) {pkt : Protopack}
    (nowMs : Int) (type : pkt.packtype = ProtopackType.rack.code)
    (traceable : Traceable (w.sentIn p.other sentIn) (w.deliveredIn p.other sentIn) pkt)
    (separated : sentIn = session ∨ Discards e.conn pkt) :
    RackHandled.Fine ⟨sentIn, session, e, netHandlerRack e.conn pkt nowMs,
      w.deliveredIn p.other session⟩ := by
  intro known ppkt hp
  cases separated with
  | inr discards =>
    -- a RACK of another session that frees nothing does no harm
    have unchanged : netHandlerRack e.conn pkt nowMs = e.conn :=
      netHandlerRack_eq_self.mpr (discards.2 type)
    refine .inl ?_
    show ppkt ∈ (netHandlerRack e.conn pkt nowMs).pktsFhost
    rw [unchanged]
    exact hp
  | inl matching =>
    have few : e.sent.length < 2 ^ 32 - 1 := known.resolve_left (not_not_intro matching)
    by_cases upTo : ppkt.seq ≤ pkt.seq
    · -- the RACK was made for something delivered in this session, and acknowledges no more
      obtain ⟨n, below, seq⟩ := traceable.rack type
      rw [matching] at below
      cases peer : (w.sessions p.other)[session]? with
      | none =>
        rw [deliveredIn, peer] at below
        exact absurd below (Nat.not_lt_zero n)
      | some receiver =>
        have receives := inv.sessions p.other session receiver peer
        rw [Party.other_other, sentIn_of at_] at receives
        rw [deliveredIn_of peer] at below ⊢
        exact .inr ((inv.sessions p session e at_).delivered_up_to receives few below hp
          (seq ▸ upTo))
    · exact .inl (mem_netHandlerRack.mpr ⟨hp, UInt32.not_le.mp upTo⟩)

theorem handle_inv (inv : w.Inv) (at_ : (w.sessions p)[session]? = some e) {pkt : Protopack}
    (nowMs : Int)
    (traceable : Traceable (w.sentIn p.other sentIn) (w.deliveredIn p.other sentIn) pkt)
    (separated : sentIn = session ∨ Discards e.conn pkt) :
    (w.handle p session e sentIn pkt nowMs).Inv := by
  rw [handle]
  by_cases fin : pkt.packtype = ProtopackType.fin.code
  · rw [if_pos fin]
    -- a FIN of any session closes the connection
    exact close_inv inv at_
  rw [if_neg fin]
  by_cases data : pkt.packtype = ProtopackType.data.code
  · have notRack : pkt.packtype ≠ ProtopackType.rack.code := by rw [data]; decide
    simp only [netHandlerConn_data data, if_neg notRack]
    refine data_inv inv at_ nowMs ?_
    cases separated with
    | inl matching => exact .inl (matching ▸ traceable.data data)
    | inr discards => exact .inr ((Serial.signedDiff_window (by decide)).mp (discards.1 data))
  · by_cases rack : pkt.packtype = ProtopackType.rack.code
    · -- a RACK delivers nothing
      have idle : (netHandlerRack e.conn pkt nowMs).pktsReordered.drop e.conn.pktsReordered.length
          = [] :=
        List.drop_length
      simp only [netHandlerConn_rack rack, if_pos rack, idle, List.append_nil]
      have written := rack_inv inv at_ pkt nowMs
      refine ⟨written.sessions, written.inFlight, List.forall_mem_append.mpr ⟨inv.racks, ?_⟩⟩
      exact List.forall_mem_singleton.mpr (rack_fine inv at_ nowMs rack traceable separated)
    · simp only [netHandlerConn, if_neg data, if_neg rack, List.drop_length, List.append_nil]
      exact put_conn_inv inv at_ (inv.sessions p session e at_) (by simp)

theorem step_inv {a : LinkAction} (inv : w.Inv) (separated : Separated w a)
    (h : step uid w a = some w') : w'.Inv := by
  cases a with
  | est p nowMs => cases h; exact est_inv inv uid p nowMs
  | close p =>
    simp only [step] at h
    split at h
    · cases h; exact inv
    next session e live => cases h; exact close_inv inv (sessions_of_live live)
  | send p session pkt nowMs =>
    simp only [step, Option.ite_none_right_eq_some, Option.map_eq_some_iff] at h
    obtain ⟨data, e, at_, rfl⟩ := h
    exact send_inv inv at_ data nowMs
  | recv p session =>
    simp only [step, Option.map_eq_some_iff] at h
    obtain ⟨e, at_, rfl⟩ := h
    exact recv_inv inv at_
  | timeouts p nowMs =>
    simp only [step] at h
    split at h
    · cases h; exact inv
    next session e live => cases h; exact timeouts_inv inv (sessions_of_live live) nowMs
  | arrives i pkt nowMs =>
    simp only [step] at h
    split at h
    · cases h
    next f slot =>
      rw [Option.ite_none_right_eq_some] at h
      obtain ⟨same, h⟩ := h
      split at h
      · cases h; exact inv
      next session e live =>
        cases h
        -- the packet in flight was made in the session that it meets
        have traceable := (inv.inFlight f (List.mem_of_getElem? slot)).arrives same
        refine handle_inv inv (sessions_of_live live) nowMs ?_ (separated f slot (session, e) live)
        rwa [Party.other_other]

theorem init_inv : init.Inv :=
  ⟨fun p session e at_ => absurd at_ (by simp [init]), by simp [init], by simp [init]⟩

/-- In a run in which what arrives from another session is discarded: everything delivered in
    a session was sent in the session of the same number of the other party, and no RACK
    takes a packet off the pending ones that is not delivered, if it comes from another
    session or few packets were sent in this one. -/
theorem sessions_separate (uid : Party → UInt32) (as : List LinkAction) (w : Link)
    (reached : Transition.run (step uid) init as = some w)
    (separated : Transition.Meets (step uid) Separated init as) :
    (∀ p session, ∀ d ∈ w.deliveredIn p session, IsSent (w.sentIn p.other session) d) ∧
      ∀ h ∈ w.racks, h.Fine := by
  have inv : w.Inv := Transition.run_invariant_where (fun _ _ _ => step_inv) init_inv separated
    reached
  refine ⟨?_, inv.racks⟩
  intro p session d member
  cases at_ : (w.sessions p)[session]? with
  | none => simp [deliveredIn, at_] at member
  | some e =>
    rw [deliveredIn_of at_] at member
    exact (inv.sessions p session e at_).genuine d member

instance (w : Link) : ∀ a, Decidable (Separated w a)
  | .arrives i pkt _ => inferInstanceAs
      (Decidable (∀ f ∈ w.net[i]?, ∀ c ∈ w.live f.sender.other, f.session = c.1 ∨
        Discards c.2.conn pkt))
  | .est .. | .close _ | .send .. | .recv .. | .timeouts .. => .isTrue trivial

def sampleUid : Party → UInt32
  | .alice => 1
  | .bob => 2

/-- What arrives of `samplePack` when it was sent with the number 0. -/
def firstPack : Protopack := { samplePack with seq := 0 }

def firstRack : Protopack :=
  { seq := 0, chsum := 0, dSize := 0, hFrom := 2, hTo := 1, packtype := ProtopackType.rack.code,
    data := [] }

def firstFin : Protopack :=
  { firstRack with seq := 1, hFrom := 1, hTo := 2, packtype := ProtopackType.fin.code }

/-- A session in which one packet is sent and acknowledged, its end, and a second session. -/
def twoSessions : List LinkAction :=
  [.est .alice 0, .est .bob 0, .send .alice 0 samplePack 1, .arrives 0 firstPack 2, .close .alice,
    .arrives 2 firstFin 3, .est .alice 4, .est .bob 4]

/-- In the second session a packet is sent, and all that is old arrives once more. -/
def lateArrivals : List LinkAction :=
  twoSessions ++ [.send .alice 1 samplePack 5, .arrives 6 firstPack 6, .arrives 7 firstRack 7,
    .arrives 0 firstPack 8, .arrives 1 firstRack 9]

theorem sessions_separate_lateArrivals :
    ∃ w, Transition.run (step sampleUid) init lateArrivals = some w ∧
      (w.deliveredIn .bob 1).length = 1 ∧ w.racks.length = 2 ∧
      Transition.Meets (step sampleUid) Separated init lateArrivals ∧
      (∀ p session, ∀ d ∈ w.deliveredIn p session, IsSent (w.sentIn p.other session) d) ∧
      ∀ h ∈ w.racks, h.Fine := by
  have separated : Transition.Meets (step sampleUid) Separated init lateArrivals := by
    decide +kernel
  exact ⟨_, rfl, rfl, rfl, separated, sessions_separate sampleUid lateArrivals _ rfl separated⟩

/-- The packet of the first session is delivered in the second one, in which nothing was
    sent, and the RACK of the first session takes an undelivered packet of the second one. -/
theorem sessions_leak :
    (∃ w, Transition.run (step sampleUid) init (twoSessions ++ [.arrives 0 firstPack 5]) = some w ∧
      w.deliveredIn .bob 1 = [firstPack] ∧ w.sentIn .alice 1 = []) ∧
    ∃ w h, Transition.run (step sampleUid) init
        (twoSessions ++ [.send .alice 1 samplePack 5, .arrives 1 firstRack 6]) = some w ∧
      h ∈ w.racks ∧ h.sentIn = 0 ∧ h.session = 1 ∧ h.before.conn.pktsFhost.length = 1 ∧
      h.after.pktsFhost = [] ∧ h.delivered = [] :=
  ⟨⟨_, rfl, rfl, rfl⟩, ⟨_, _, rfl, List.mem_singleton_self _, rfl, rfl, rfl, rfl, rfl⟩⟩

end Link

end Soter2.Rudp
