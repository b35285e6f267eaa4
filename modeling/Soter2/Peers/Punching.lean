import Mathlib.Data.List.Basic
import Mathlib.Data.List.Perm.Basic
import Mathlib.Logic.Function.Basic
import Mathlib.Tactic.Common
import Soter2.E2ee.Connection
import Soter2.Library.Transition
import Soter2.Peers.System

/-! # Hole punching between two peers

Each side may start a connection at any time, and the messages are delivered in any order;
none is lost.  `Phases` is the protocol without its data: the state of the record each side
has of the other, and which messages are on their way to whom.  `Punching` runs the
handlers on two databases; `punching_simulates` says that it does what the protocol says.

* `punching_agrees` — when nothing is on its way, both sides are active or none is.
-/

namespace Soter2.Peers

open Soter2.Lownet Soter2.Protocol
open Soter2.E2ee (Bytes keyBytes Party)

/-! ## The protocol -/

inductive PunchMsg where
  | punch
  | ack
deriving DecidableEq, Repr

structure Phases where
  phase : Party → Option PeerState
  net : List (Party × PunchMsg)

inductive PhasesAction where
  | connect (p : Party)
  | deliver (i : Nat)

namespace Phases

/-- What a side does about a message: its new state, and whether it answers with an ACK. -/
def receive : PunchMsg → Option PeerState → Option PeerState × Bool
  | .ack, none => (none, false)
  | .ack, some state => (some .active, state = .inited)
  | .punch, none => (some .natpunching, true)
  | .punch, some state =>
    if state = .inited ∨ state = .natpunching then (some .natpunching, true)
    else (some state, false)

def connect (s : Phases) (p : Party) : Phases where
  phase := Function.update s.phase p (some .inited)
  net := s.net ++ [(p.other, .punch)]

/-- `p` receives `msg`, and `rest` is still on its way. -/
def deliver (s : Phases) (p : Party) (msg : PunchMsg) (rest : List (Party × PunchMsg)) :
    Phases where
  phase := Function.update s.phase p (receive msg (s.phase p)).1
  net := rest ++ if (receive msg (s.phase p)).2 then [(p.other, .ack)] else []

def step (s : Phases) : PhasesAction → Option Phases
  | .connect p => some (s.connect p)
  | .deliver i => s.net[i]?.map fun m => s.deliver m.1 m.2 (s.net.eraseIdx i)

/-- The side has heard of the other. -/
def Engaged (s : Phases) (p : Party) : Prop := s.phase p ≠ none ∧ s.phase p ≠ some .inited

instance (s : Phases) (p : Party) : Decidable (s.Engaged p) := inferInstanceAs (Decidable (_ ∧ _))

/-- A side that is active does not start over while the other has heard of it and no ACK is
    on its way back. -/
def Orderly (s : Phases) : PhasesAction → Prop
  | .connect p => ¬ (s.phase p = some .active ∧ s.Engaged p.other ∧ (p, .ack) ∉ s.net)
  | .deliver _ => True

instance (s : Phases) : ∀ a, Decidable (s.Orderly a)
  | .connect _ => inferInstanceAs (Decidable (¬ _))
  | .deliver _ => .isTrue trivial

structure Inv (s : Phases) : Prop where
  /-- Who sent a message has a record of the other. -/
  sender : ∀ p msg, (p, msg) ∈ s.net → s.phase p.other ≠ none
  /-- An ACK is sent to who has a record. -/
  receiver : ∀ p, (p, .ack) ∈ s.net → s.phase p ≠ none
  /-- The other side of an engaged one is active, or will be. -/
  engaged : ∀ p, s.Engaged p → s.phase p.other = some .active ∨
    (p.other, .ack) ∈ s.net ∧ s.phase p.other ≠ none

/-! ## One step -/

theorem receive_known {msg : PunchMsg} {state : Option PeerState} (known : state ≠ none) :
    (receive msg state).1 ≠ none := by
  cases state with
  | none => exact absurd rfl known
  | some state =>
    cases msg with
    | ack => simp [receive]
    | punch => simp only [receive]; split <;> simp

theorem receive_answered {msg : PunchMsg} {state : Option PeerState}
    (answered : (receive msg state).2 = true) : (receive msg state).1 ≠ none := by
  cases state with
  | none => cases msg <;> simp_all [receive]
  | some state => exact receive_known (Option.some_ne_none state)

/-- A side that does not answer has heard of the other before, if it has now. -/
theorem receive_silent {msg : PunchMsg} {state : Option PeerState}
    (silent : (receive msg state).2 = false)
    (engaged : (receive msg state).1 ≠ none ∧ (receive msg state).1 ≠ some .inited) :
    state ≠ none ∧ state ≠ some .inited := by
  cases state with
  | none => cases msg <;> simp_all [receive]
  | some state => cases msg <;> cases state <;> simp_all [receive]

theorem receive_active (msg : PunchMsg) : (receive msg (some .active)).1 = some .active := by
  cases msg <;> simp [receive]

theorem receive_ack {state : Option PeerState} (known : state ≠ none) :
    (receive .ack state).1 = some .active := by
  cases state with
  | none => exact absurd rfl known
  | some state => rfl

theorem update_known {phase : Party → Option PeerState} {p q : Party} {state : Option PeerState}
    (recorded : state ≠ none) (known : phase q ≠ none) :
    Function.update phase p state q ≠ none := by
  by_cases there : q = p
  · rwa [there, Function.update_self]
  · rwa [Function.update_of_ne there]

theorem connect_inv {s : Phases} {p : Party} (inv : s.Inv) (orderly : s.Orderly (.connect p)) :
    (s.connect p).Inv := by
  constructor
  case sender =>
    intro q msg member
    cases List.mem_append.mp member with
    | inl old => exact update_known (Option.some_ne_none _) (inv.sender q msg old)
    | inr new =>
      obtain ⟨rfl, rfl⟩ : q = p.other ∧ msg = .punch := by simpa using new
      simp [connect]
  case receiver =>
    intro q member
    cases List.mem_append.mp member with
    | inl old => exact update_known (Option.some_ne_none _) (inv.receiver q old)
    | inr new => simp at new
  case engaged =>
    intro q engaged
    cases Party.eq_or_eq_other p q with
    | inl here =>
      subst here
      exact absurd (Function.update_self ..) engaged.2
    | inr other =>
      subst other
      -- `p` was active or an ACK is on its way to it; the step is orderly, so it is the ACK
      have before : s.Engaged p.other := by
        simpa [Engaged, connect, Function.update_of_ne p.other_ne] using engaged
      have onWay : (p, .ack) ∈ s.net := by
        by_contra none
        cases inv.engaged p.other before with
        | inl active => exact orderly ⟨by simpa using active, before, none⟩
        | inr coming => exact none (by simpa using coming.1)
      refine .inr ⟨?_, by simp [connect]⟩
      rw [Party.other_other]
      exact List.mem_append_left _ onWay

theorem deliver_inv {s : Phases} {p : Party} {msg : PunchMsg} {rest : List (Party × PunchMsg)}
    (inv : s.Inv) (onWay : s.net.Perm ((p, msg) :: rest)) : (s.deliver p msg rest).Inv := by
  have delivered : (p, msg) ∈ s.net := onWay.mem_iff.mpr List.mem_cons_self
  have remaining : ∀ m ∈ rest, m ∈ s.net :=
    fun m member => onWay.mem_iff.mpr (List.mem_cons_of_mem _ member)
  have other : s.phase p.other ≠ none := inv.sender p msg delivered
  have kept : (s.deliver p msg rest).phase p.other = s.phase p.other :=
    Function.update_of_ne p.other_ne ..
  have known : ∀ q, s.phase q ≠ none → (s.deliver p msg rest).phase q ≠ none := by
    intro q before
    by_cases there : q = p
    · subst there
      simpa [deliver] using receive_known before
    · simpa [deliver, Function.update_of_ne there] using before
  have mem_net : ∀ m, m ∈ (s.deliver p msg rest).net ↔
      m ∈ rest ∨ (receive msg (s.phase p)).2 = true ∧ m = (p.other, .ack) := by
    intro m
    rw [deliver, List.mem_append]
    split <;> simp_all
  constructor
  case sender =>
    intro q m member
    cases (mem_net _).mp member with
    | inl old => exact known _ (inv.sender q m (remaining _ old))
    | inr new =>
      obtain ⟨answered, same⟩ := new
      obtain ⟨rfl, rfl⟩ := Prod.mk.inj same
      simpa [deliver] using receive_answered answered
  case receiver =>
    intro q member
    cases (mem_net _).mp member with
    | inl old => exact known _ (inv.receiver q (remaining _ old))
    | inr new =>
      obtain ⟨-, same⟩ := new
      obtain ⟨rfl, -⟩ := Prod.mk.inj same
      rwa [kept]
  case engaged =>
    intro q engaged
    cases Party.eq_or_eq_other p q with
    | inl here =>
      subst here
      rw [kept]
      cases answered : (receive msg (s.phase q)).2 with
      | true => exact .inr ⟨(mem_net _).mpr (.inr ⟨answered, rfl⟩), other⟩
      | false =>
        -- it had heard of the other before, and an ACK to the other is not what it received
        have before : s.Engaged q := receive_silent answered
          (by simpa [Engaged, deliver] using engaged)
        refine (inv.engaged q before).imp id fun coming => ⟨(mem_net _).mpr (.inl ?_), other⟩
        cases List.mem_cons.mp (onWay.mem_iff.mp coming.1) with
        | inl same => exact absurd (congrArg Prod.fst same) q.other_ne
        | inr rest => exact rest
    | inr there =>
      -- what was on its way to `p` is either this very message or still on its way
      subst there
      have before : s.Engaged p.other := by rwa [Engaged, kept] at engaged
      rw [Party.other_other]
      cases inv.engaged p.other before with
      | inl active =>
        rw [Party.other_other] at active
        exact .inl (by simp [deliver, active, receive_active])
      | inr coming =>
        rw [Party.other_other] at coming
        cases List.mem_cons.mp (onWay.mem_iff.mp coming.1) with
        | inl same =>
          obtain ⟨-, rfl⟩ := Prod.mk.inj same
          exact .inl (by simp [deliver, receive_ack coming.2])
        | inr rest => exact .inr ⟨(mem_net _).mpr (.inl rest), known p coming.2⟩

theorem step_inv {s t : Phases} {a : PhasesAction} (inv : s.Inv) (orderly : s.Orderly a)
    (next : s.step a = some t) : t.Inv := by
  cases a with
  | connect p =>
    cases next
    exact connect_inv inv orderly
  | deliver i =>
    obtain ⟨m, found, rfl⟩ := Option.map_eq_some_iff.mp next
    obtain ⟨inside, rfl⟩ := List.getElem?_eq_some_iff.mp found
    exact deliver_inv inv (List.getElem_cons_eraseIdx_perm inside).symm

theorem Inv.agree {s : Phases} (inv : s.Inv) (quiet : s.net = []) (p : Party)
    (active : s.phase p = some .active) : s.phase p.other = some .active := by
  have engaged : s.Engaged p := by simp [Engaged, active]
  cases inv.engaged p engaged with
  | inl agreed => exact agreed
  | inr coming => simp [quiet] at coming

end Phases

/-! ## The handlers -/

/-- Two hosts with different UIDs, each with its own address and key. -/
structure Hosts where
  inet : Inet
  uid : Party → UInt32
  sockAddr : Party → Naddr
  idPub : Party → Bytes keyBytes
  distinct : uid .alice ≠ uid .bob

/-- The databases of both, and the packets on their way, each with its receiver. -/
structure Punching where
  db : Party → PeersDb
  net : List (Party × Protopack)

inductive PunchAction where
  | connect (p : Party) (addr servAddr : Naddr) (pubkey : Bytes keyBytes) (now : UInt32)
  | deliver (i : Nat) (nfd : NnetFd) (now : UInt32)

def punchHandler (pck : Protopack) : Handler :=
  if pck.packtype = ProtopackType.punch.code then PeerPacket.punch.handler
  else PeerPacket.ack.handler

def punchMsg (pck : Protopack) : PunchMsg :=
  if pck.packtype = ProtopackType.punch.code then .punch else .ack

/-- The packets that were really built, on their way to the peer they are for. -/
def onWay (receiver : Party) (sent : List (Option Protopack × NnetFd)) : List (Party × Protopack) :=
  sent.filterMap fun m => m.1.map (receiver, ·)

namespace Punching

variable (hosts : Hosts)

def context (p : Party) (now : UInt32) : AppContext := ⟨hosts.uid p, hosts.inet, now⟩

def connect (w : Punching) (p : Party) (addr servAddr : Naddr) (pubkey : Bytes keyBytes)
    (now : UInt32) : Punching :=
  let ctx := context hosts p now
  let db := s2SysNewPeer ctx (w.db p) addr servAddr (hosts.uid p.other) pubkey
  let (_, sent) := s2SysNatPunch ctx (hosts.sockAddr p) (hosts.idPub p) db (hosts.uid p.other)
  { db := Function.update w.db p db, net := w.net ++ onWay p.other sent }

def deliver (w : Punching) (p : Party) (pck : Protopack) (rest : List (Party × Protopack))
    (nfd : NnetFd) (now : UInt32) : Punching :=
  let handled := punchHandler pck (context hosts p now) (w.db p) pck nfd
  { db := Function.update w.db p handled.db, net := rest ++ onWay p.other handled.sent }

def step (w : Punching) : PunchAction → Option Punching
  | .connect p addr servAddr pubkey now => some (w.connect hosts p addr servAddr pubkey now)
  | .deliver i nfd now => w.net[i]?.map fun m => w.deliver hosts m.1 m.2 (w.net.eraseIdx i) nfd now

/-- The state of the record that `p` has of the other. -/
def phase (w : Punching) (p : Party) : Option PeerState :=
  (peersDbGet (w.db p) (hosts.uid p.other)).map (·.state)

def abstraction (w : Punching) : Phases where
  phase := w.phase hosts
  net := w.net.map fun m => (m.1, punchMsg m.2)

/-- A packet that the other side sent. -/
structure FromPeer (p : Party) (pck : Protopack) : Prop where
  sender : pck.hFrom = hosts.uid p.other
  punch : pck.packtype = ProtopackType.punch.code → pck.dSize.toNat = LightPeerInfo.layout.size ∧
    (LightPeerInfo.layout.ofImage pck.data).uid = hosts.uid p.other

variable {hosts}

theorem uid_other_ne (p : Party) : hosts.uid p.other ≠ hosts.uid p := by
  cases p with
  | alice => exact hosts.distinct.symm
  | bob => exact hosts.distinct

theorem phase_update_self (db : PeersDb) (w : Punching) (p : Party)
    (net : List (Party × Protopack)) :
    (Punching.mk (Function.update w.db p db) net).phase hosts
      = Function.update (w.phase hosts) p ((peersDbGet db (hosts.uid p.other)).map (·.state)) := by
  funext q
  by_cases there : q = p
  · subst there
    simp [phase]
  · simp [phase, Function.update_of_ne there]

/-- The packet of an ACK from `p`. -/
def ackPack (hosts : Hosts) (p : Party) : Protopack where
  seq := 0
  chsum := 0
  dSize := 0
  hFrom := hosts.uid p
  hTo := hosts.uid p.other
  packtype := ProtopackType.ack.code
  data := []

/-- What a handler does to the record of the sender and what it sends, as the protocol has it. -/
structure Handles (hosts : Hosts) (p : Party) (msg : PunchMsg) (state : Option PeerState)
    (handled : Handled) : Prop where
  record : (peersDbGet handled.db (hosts.uid p.other)).map (·.state) = (Phases.receive msg state).1
  sent : onWay p.other handled.sent
    = if (Phases.receive msg state).2 then [(p.other, ackPack hosts p)] else []

theorem onWay_ack (hosts : Hosts) (p : Party) (now : UInt32) (nfd : NnetFd) :
    onWay p.other [(protoMsgQuick (context hosts p now).selfUid (hosts.uid p.other) 0 .ack, nfd)]
      = [(p.other, ackPack hosts p)] := rfl

theorem punchKnown_handles {p : Party} {db : PeersDb} {info : PeerInfo} (nfd : NnetFd)
    (now : UInt32) (stored : peersDbGet db (hosts.uid p.other) = some info) :
    Handles hosts p .punch (some info.state) (punchKnown (context hosts p now) db info nfd) := by
  have uid := uid_of_get stored
  -- the two states in which a PUNCH is awaited
  by_cases waiting : info.state = .inited ∨ info.state = .natpunching
  · have accepted : ¬ (info.state ≠ .inited ∧ info.state ≠ .natpunching) := by tauto
    constructor
    case record =>
      cases waiting with
      | inl inited =>
        simp [punchKnown, Phases.receive, peersDbUnfd, peersDbSchange, uid, stored, inited]
      | inr natpunching => simp [punchKnown, Phases.receive, peersDbUnfd, uid, stored, natpunching]
    case sent =>
      rw [punchKnown, if_neg accepted, uid, onWay_ack, Phases.receive, if_pos waiting]
      rfl
  · have rejected : info.state ≠ .inited ∧ info.state ≠ .natpunching := by tauto
    constructor
    case record => simp [punchKnown, Phases.receive, peersDbUnfd, uid, stored, rejected]
    case sent =>
      rw [punchKnown, if_pos rejected, Phases.receive, if_neg waiting]
      rfl

theorem punch_handles {p : Party} {db : PeersDb} {pck : Protopack} {nfd : NnetFd} {now : UInt32}
    (fromPeer : FromPeer hosts p pck) (type : pck.packtype = ProtopackType.punch.code) :
    Handles hosts p .punch ((peersDbGet db (hosts.uid p.other)).map (·.state))
      (soter2HndPunch (context hosts p now) db pck nfd) := by
  obtain ⟨size, embedded⟩ := fromPeer.punch type
  have notSelf : pck.hFrom ≠ (context hosts p now).selfUid := fromPeer.sender ▸ uid_other_ne p
  cases known : peersDbGet db (hosts.uid p.other) with
  | some info =>
    rw [soter2HndPunch_known notSelf (fromPeer.sender ▸ known)]
    exact punchKnown_handles nfd now known
  | none =>
    rw [soter2HndPunch_introduces ⟨notSelf, fromPeer.sender ▸ known, size⟩]
    have stored : peersDbGet (peersDbAdd db (embeddedInfo (context hosts p now) pck))
        (hosts.uid p.other)
        = some (embeddedInfo (context hosts p now) pck) := by
      have added := get_peersDbAdd_self db (embeddedInfo (context hosts p now) pck)
      rwa [show (embeddedInfo (context hosts p now) pck).uid = hosts.uid p.other
        from embedded] at added
    -- a record that was just added is handled as an old one in its first state
    have handled := punchKnown_handles nfd now stored
    exact ⟨handled.record, handled.sent⟩

theorem ack_handles {p : Party} {db : PeersDb} {pck : Protopack} (nfd : NnetFd) {now : UInt32}
    (fromPeer : FromPeer hosts p pck) :
    Handles hosts p .ack ((peersDbGet db (hosts.uid p.other)).map (·.state))
      (soter2HndAck (context hosts p now) db pck nfd) := by
  cases known : peersDbGet db (hosts.uid p.other) with
  | none =>
    constructor
    case record => simp [soter2HndAck, fromPeer.sender, known, Phases.receive]
    case sent => simp [soter2HndAck, fromPeer.sender, known, Phases.receive, onWay]
  | some info =>
    have uid := uid_of_get known
    constructor
    case record =>
      simp [soter2HndAck, fromPeer.sender, known, Phases.receive, peersDbSchange, uid]
    case sent =>
      simp only [soter2HndAck, fromPeer.sender, known, uid, Option.map_some, Phases.receive,
        decide_eq_true_eq]
      split
      · rfl
      · rfl

theorem deliver_handles {p : Party} {pck : Protopack} (w : Punching) (nfd : NnetFd) (now : UInt32)
    (fromPeer : FromPeer hosts p pck) :
    Handles hosts p (punchMsg pck) (w.phase hosts p)
      (punchHandler pck (context hosts p now) (w.db p) pck nfd) := by
  by_cases type : pck.packtype = ProtopackType.punch.code
  · rw [punchMsg, punchHandler, if_pos type, if_pos type]
    exact punch_handles fromPeer type
  · rw [punchMsg, punchHandler, if_neg type, if_neg type]
    exact ack_handles nfd fromPeer

/-! ## The simulation -/

/-- The PUNCH of a connect step. -/
def punchPack (hosts : Hosts) (p : Party) (servAddr : Naddr) : Protopack where
  seq := 0
  chsum := 0
  dSize := 140
  hFrom := hosts.uid p
  hTo := hosts.uid p.other
  packtype := ProtopackType.punch.code
  data := LightPeerInfo.layout.image ⟨hosts.uid p, servAddr, hosts.sockAddr p, hosts.idPub p⟩

theorem punchPack_fromPeer (hosts : Hosts) (p : Party) (servAddr : Naddr) :
    FromPeer hosts p.other (punchPack hosts p servAddr) where
  sender := by rw [Party.other_other]; rfl
  punch _ := by
    rw [Party.other_other, punchPack, Layout.ofImage_image]
    exact ⟨rfl, rfl⟩

theorem ackPack_fromPeer (hosts : Hosts) (p : Party) :
    FromPeer hosts p.other (ackPack hosts p) where
  sender := by rw [Party.other_other]; rfl
  punch isPunch := by simp [ackPack, ProtopackType.code] at isPunch

theorem connect_eq (hosts : Hosts) (w : Punching) (p : Party) (addr servAddr : Naddr)
    (pubkey : Bytes keyBytes) (now : UInt32) :
    w.connect hosts p addr servAddr pubkey now =
      { db := Function.update w.db p
          (s2SysNewPeer (context hosts p now) (w.db p) addr servAddr (hosts.uid p.other) pubkey)
        net := w.net ++ [(p.other, punchPack hosts p servAddr)] } := by
  simp only [connect, s2SysNatPunch, get_s2SysNewPeer, protoPunchMsg_image]
  rfl

theorem deliver_eq (w : Punching) {p : Party} {pck : Protopack} (rest : List (Party × Protopack))
    (nfd : NnetFd) (now : UInt32) (fromPeer : FromPeer hosts p pck) :
    ∃ db, w.deliver hosts p pck rest nfd now = {
        db := Function.update w.db p db
        net := rest ++ if (Phases.receive (punchMsg pck) (w.phase hosts p)).2 then
          [(p.other, ackPack hosts p)] else [] } ∧
      (peersDbGet db (hosts.uid p.other)).map (·.state)
        = (Phases.receive (punchMsg pck) (w.phase hosts p)).1 := by
  have handled := deliver_handles w nfd now fromPeer
  exact ⟨_, by rw [deliver, handled.sent], handled.record⟩

theorem map_answer (hosts : Hosts) (p : Party) (answers : Bool) :
    (if answers then [(p.other, ackPack hosts p)] else []).map (fun m => (m.1, punchMsg m.2))
      = if answers then [(p.other, .ack)] else [] := by
  cases answers <;> rfl

/-- All packets on their way are from the other side. -/
def Tracked (hosts : Hosts) (w : Punching) : Prop := ∀ m ∈ w.net, FromPeer hosts m.1 m.2

end Punching

def PunchAction.phases : PunchAction → PhasesAction
  | .connect p _ _ _ _ => .connect p
  | .deliver i _ _ => .deliver i

open Punching

/-- A step of the handlers is the step of the protocol. -/
theorem punching_simulates {hosts : Hosts} {w w' : Punching} {a : PunchAction}
    (tracked : Tracked hosts w) (next : w.step hosts a = some w') :
    Tracked hosts w' ∧ (w.abstraction hosts).step a.phases = some (w'.abstraction hosts) := by
  cases a with
  | connect p addr servAddr pubkey now =>
    cases next
    rw [connect_eq]
    constructor
    · -- the PUNCH carries the sender's own UID and key
      intro m member
      cases List.mem_append.mp member with
      | inl old => exact tracked m old
      | inr new =>
        rw [List.mem_singleton.mp new]
        exact punchPack_fromPeer hosts p servAddr
    · simp only [PunchAction.phases, Phases.step, Option.some.injEq, Phases.connect, abstraction,
        phase_update_self, get_s2SysNewPeer, List.map_append]
      rfl
  | deliver i nfd now =>
    obtain ⟨⟨p, pck⟩, found, rfl⟩ := Option.map_eq_some_iff.mp next
    obtain ⟨db, delivered, record⟩ := deliver_eq w (w.net.eraseIdx i) nfd now
      (tracked _ (List.mem_of_getElem? found))
    rw [delivered]
    constructor
    · -- at most one ACK joins the net, from the host that got the packet
      intro m member
      cases List.mem_append.mp member with
      | inl old => exact tracked m (List.mem_of_mem_eraseIdx old)
      | inr new =>
        split at new
        · rw [List.mem_singleton.mp new]
          exact ackPack_fromPeer hosts p
        · cases new
    · simp only [PunchAction.phases, Phases.step, abstraction, List.getElem?_map, found,
        Option.map_some,
        Phases.deliver, Option.some.injEq, Phases.mk.injEq, phase_update_self, record,
          List.map_append,
        List.eraseIdx_map, true_and]
      rw [map_answer]
      rfl

/-! ## Runs -/

/-- No side that is active connects again while the other has heard of it and no ACK is on
    its way back. -/
def PunchOrderly (hosts : Hosts) (w : Punching) (a : PunchAction) : Prop :=
  (w.abstraction hosts).Orderly a.phases

instance (hosts : Hosts) (w : Punching) (a : PunchAction) : Decidable (PunchOrderly hosts w a) :=
  inferInstanceAs (Decidable (Phases.Orderly _ _))

/-- `p` has an active record of the other. -/
def Active (hosts : Hosts) (w : Punching) (p : Party) : Prop := w.phase hosts p = some .active

instance (hosts : Hosts) (w : Punching) (p : Party) : Decidable (Active hosts w p) :=
  inferInstanceAs (Decidable (_ = _))

theorem start_inv {hosts : Hosts} {db : Party → PeersDb}
    (strangers : ∀ p, peersDbGet (db p) (hosts.uid p.other) = none) :
    ((Punching.mk db []).abstraction hosts).Inv where
  sender _ _ member := nomatch member
  receiver _ member := nomatch member
  engaged p engaged := by simp [Phases.Engaged, abstraction, phase, strangers] at engaged

/-- Two peers that do not know each other agree whether they are connected when nothing is on
    its way, after any connect steps and deliveries of which all are orderly. -/
theorem punching_agrees (hosts : Hosts) (db : Party → PeersDb) (actions : List PunchAction)
    (w : Punching) (strangers : ∀ p, peersDbGet (db p) (hosts.uid p.other) = none)
    (orderly : Transition.Meets (step hosts) (PunchOrderly hosts) ⟨db, []⟩ actions)
    (reached : Transition.run (step hosts) ⟨db, []⟩ actions = some w) (quiet : w.net = []) :
    Active hosts w .alice ↔ Active hosts w .bob := by
  obtain ⟨-, inv⟩ : Tracked hosts w ∧ (w.abstraction hosts).Inv := by
    refine Transition.run_invariant_where
      (I := fun w => Tracked hosts w ∧ (w.abstraction hosts).Inv) ?_
      ⟨fun _ member => absurd member List.not_mem_nil, start_inv strangers⟩ orderly reached
    -- the invariant of the protocol is carried over from its step
    intro w a w' ⟨tracked, inv⟩ orderly next
    obtain ⟨tracked', simulated⟩ := punching_simulates tracked next
    exact ⟨tracked', Phases.step_inv inv orderly simulated⟩
  have nothing : (w.abstraction hosts).net = [] := by simp [abstraction, quiet]
  exact ⟨inv.agree nothing .alice, inv.agree nothing .bob⟩

/-- Hosts 1 and 2. -/
def sampleHosts : Hosts where
  inet := sampleInet
  uid
    | .alice => 1
    | .bob => 2
  sockAddr _ := (Address.ipv4 sampleText 80).naddr
  idPub _ := Vector.replicate 32 0
  distinct := by decide

def sampleConnect (p : Party) : PunchAction :=
  .connect p (Address.ipv4 sampleText 80).naddr Naddr.zero (Vector.replicate 32 0) 0

def sampleDeliver : PunchAction := .deliver 0 ⟨3, .unspec, 0⟩ 0

/-- One connect step, the PUNCH, and both ACKs. -/
def samplePunching : List PunchAction :=
  [sampleConnect .alice, sampleDeliver, sampleDeliver, sampleDeliver]

/-- The databases of two hosts that know nobody. -/
def noPeers : Punching := ⟨fun _ => PeersDb.empty, []⟩

theorem punching_agrees_sample :
    ∃ w, Transition.run (step sampleHosts) noPeers samplePunching = some w ∧ w.net = [] ∧
      (Active sampleHosts w .alice ↔ Active sampleHosts w .bob) := by
  have ends : (Transition.run (step sampleHosts) noPeers samplePunching).map (·.net) = some [] := by
    decide +kernel
  obtain ⟨w, reached, quiet⟩ := Option.map_eq_some_iff.mp ends
  exact ⟨w, reached, quiet, punching_agrees sampleHosts _ samplePunching w (fun _ => rfl)
    (by decide +kernel)
    reached quiet⟩

/-- Alice connects again when both are active: Bob rejects her PUNCH, and she stays
    in the first state. -/
theorem reconnect_disagrees :
    ∃ w, Transition.run (step sampleHosts) noPeers
        (samplePunching ++ [sampleConnect .alice, sampleDeliver]) = some w ∧ w.net = [] ∧
      ¬ (Active sampleHosts w .alice ↔ Active sampleHosts w .bob) := by
  obtain ⟨w, reached, ends⟩ : ∃ w, Transition.run (step sampleHosts) noPeers
      (samplePunching ++ [sampleConnect .alice, sampleDeliver]) = some w ∧
      (w.net, w.phase sampleHosts .alice, w.phase sampleHosts .bob)
        = ([], some .inited, some .active) :=
    Option.map_eq_some_iff.mp (by decide +kernel)
  obtain ⟨quiet, alice, bob⟩ : w.net = [] ∧ _ ∧ _ := by simpa using ends
  exact ⟨w, reached, quiet, by simp [Active, alice, bob]⟩

end Soter2.Peers
