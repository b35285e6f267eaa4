import Mathlib.Data.List.Basic
import Mathlib.Tactic.Common
import Soter2.Library.AssocTable
import Soter2.Library.Transition
import Soter2.Peers.Db
import Soter2.Rudp.Worker

/-! # The active connections (`interface/src/daemons.c`, `interface/src/system.c`)

`conn_mod.active` holds a second copy of the pointers in the table of the dispatcher.
`_daemon_st` writes both tables; a FIN, the detection of a dead peer and `s2_sys_closeconn`
remove from the dispatcher's only.

* `sound_iff_never_closes` — in which runs every active entry is a connection of the
  dispatcher.
-/

namespace Soter2.Interface

open Peers Protocol Rudp

/-- A pointer to a connection: the block of the `nth` connection that was made for the UID. -/
structure ConnPtr where
  uid : UInt32
  nth : Nat
deriving DecidableEq, Repr

/-- The parts of `s2_systems` that hold connections.  `made` lists the peers of all the
    connections that `rudp_est_connection` has made, the last one first. -/
structure S2Connections where
  peers : PeersDb
  disp : RudpDispatcher
  made : List UInt32
  active : AssocTable UInt32 ConnPtr
deriving DecidableEq

def s2ConnectionsCreate (selfUid : UInt32) : S2Connections :=
  ⟨PeersDb.empty, rudpDispatcherNew selfUid, [], AssocTable.empty⟩

def peersDbSnapshot (db : PeersDb) : List PeerInfo := db.data.entries.map Prod.snd

def peersDbCheck (db : PeersDb) (uid : UInt32) : Bool := (peersDbGet db uid).isSome

namespace S2Connections

/-- `rudp_disp.connections[uid]`. -/
def connPtr (s : S2Connections) (uid : UInt32) : Option ConnPtr :=
  (s.disp.connections.get uid).map fun _ => ⟨uid, s.made.count uid⟩

end S2Connections

open S2Connections

/-! ## The state daemon -/

/-- The end of the loop of `_daemon_st`: a new connection, entered in both tables. -/
def estActive (s : S2Connections) (uid : UInt32) (nowMs : Int) : S2Connections :=
  let made := uid :: s.made
  { s with
    disp := rudpEstConnection s.disp uid nowMs
    made := made
    active := s.active.set uid ⟨uid, made.count uid⟩ }

/-- The loop of `_daemon_st` over the peers, for one peer. -/
def stIter (rand : Nat) (nowMs : Int) (s : S2Connections) (info : PeerInfo) :
    Option S2Connections :=
  if info.state ≠ .active then some s
  else
    match rudpGetConnection s.disp info.uid rand with
    | .found _ => some s
    | .divisionByZero => none
    | .missing => some (estActive s info.uid nowMs)

/-- `_daemon_st` from the snapshot on.  One peer at most has the UID for which
    `rudp_get_connection` draws a random number. -/
def daemonSt (rand : Nat) (nowMs : Int) (s : S2Connections) : Option S2Connections :=
  (peersDbSnapshot s.peers).foldlM (stIter rand nowMs) s

/-! ## The ends of a connection -/

/-- `rudp_close_conncetion` on these tables, with the packets that it gives to the sender. -/
def closeConnection (s : S2Connections) (uid : UInt32) : S2Connections × List Protopack :=
  let (_, disp, fins) := rudpCloseConncetion s.disp uid
  ({ s with disp := disp }, fins)

/-- The test of `ping_iter`. -/
def dead (nowMs : Int) (info : PeerInfo) : Bool := nowMs - info.lastSeen.toNat ≥ 10 * 1000

/-- What `ping_iter` does to the tables, and the removal of the peer where it returns 1. -/
def pingIter (nowMs : Int) (s : S2Connections) (info : PeerInfo) : S2Connections :=
  if dead nowMs info then
    let s := (closeConnection s info.uid).1
    { s with peers := peersDbRemove s.peers info.uid }
  else s

/-- The loop of `_daemon_io` over the peers. -/
def pingPeers (nowMs : Int) (s : S2Connections) : S2Connections :=
  (peersDbSnapshot s.peers).foldl (pingIter nowMs) s

/-- `s2_sys_closeconn`: its code, the tables, and the packets for the sender. -/
def s2SysCloseconn (s : S2Connections) (uid : UInt32) : Int × S2Connections × List Protopack :=
  if peersDbCheck s.peers uid then
    let s := { s with peers := peersDbRemove s.peers uid }
    (0, closeConnection s uid)
  else (-1, s, [])

/-! ## Runs -/

inductive ConnAction where
  | daemonSt (rand : Nat) (nowMs : Int)
  /-- The dispatcher takes a packet: a FIN, or any other. -/
  | packet (pkt : Protopack) (rand : Nat) (nowMs : Int)
  | ping (nowMs : Int)
  | closeconn (uid : UInt32)
  /-- The handlers change the peers. -/
  | peers (db : PeersDb)

def step (s : S2Connections) : ConnAction → Option S2Connections
  | .daemonSt rand nowMs => daemonSt rand nowMs s
  | .packet pkt rand nowMs =>
    match rudpDispatcherHandle s.disp pkt rand nowMs with
    | .done disp _ => some { s with disp := disp }
    | .idle | .divisionByZero => none
  | .ping nowMs => some (pingPeers nowMs s)
  | .closeconn uid => some (s2SysCloseconn s uid).2.1
  | .peers db => some { s with peers := db }

/-- The step closes the connection with a peer. -/
def Closes (s : S2Connections) (uid : UInt32) : ConnAction → Prop
  | .packet pkt rand _ =>
    pkt.packtype = ProtopackType.fin.code ∧
      ∃ slot conn, rudpGetConnection s.disp pkt.hFrom rand = .found slot ∧
        s.disp.connections.entries[slot]? = some (uid, conn)
  | .ping nowMs =>
    (∃ info ∈ peersDbSnapshot s.peers, dead nowMs info = true ∧ info.uid = uid) ∧
      s.connPtr uid ≠ none
  | .closeconn gone => gone = uid ∧ peersDbCheck s.peers uid = true ∧ s.connPtr uid ≠ none
  | .daemonSt .. | .peers _ => False

def NeverCloses (s : S2Connections) (a : ConnAction) : Prop := ∀ uid, ¬ Closes s uid a

/-- Every active entry is a connection of the dispatcher. -/
def Sound (s : S2Connections) : Prop :=
  ∀ uid ptr, s.active.get uid = some ptr → s.connPtr uid = some ptr

/-- Every connection of the dispatcher is active, and under the UID of its peer. -/
structure Covered (s : S2Connections) : Prop where
  settled : s.disp.Inv
  listed : ∀ uid ptr, s.connPtr uid = some ptr → s.active.get uid = some ptr

/-! ## What a step does to the pointers of one peer -/

variable {s s' s'' : S2Connections} {uid w : UInt32} {a : ConnAction}

/-- The pointers of a peer stay, or a first connection with it is entered in both tables. -/
inductive Grown (s s' : S2Connections) (w : UInt32) : Prop where
  | kept (ptr : s'.connPtr w = s.connPtr w) (active : s'.active.get w = s.active.get w)
  | entered (old : s.connPtr w = none) {p : ConnPtr} (ptr : s'.connPtr w = some p)
      (active : s'.active.get w = some p)

theorem Grown.refl (s : S2Connections) (w : UInt32) : Grown s s w := .kept rfl rfl

theorem Grown.trans (first : Grown s s' w) (then_ : Grown s' s'' w) : Grown s s'' w := by
  cases first with
  | kept ptr active =>
    cases then_ with
    | kept ptr' active' => exact .kept (ptr'.trans ptr) (active'.trans active)
    | entered old ptr' active' => exact .entered (ptr ▸ old) ptr' active'
  | entered old ptr active =>
    cases then_ with
    | kept ptr' active' => exact .entered old (ptr'.trans ptr) (active'.trans active)
    | entered old' _ _ => rw [ptr] at old'; cases old'

theorem connPtr_closeConnection (s : S2Connections) (uid w : UInt32) :
    (closeConnection s uid).1.connPtr w = if w = uid then none else s.connPtr w := by
  simp only [connPtr, closeConnection, rudpCloseConncetion]
  cases found : s.disp.connections.get uid with
  | none =>
    by_cases here : w = uid
    · simp [here, found]
    · simp [here]
  | some conn =>
    by_cases here : w = uid
    · simp [here, AssocTable.get_remove_self]
    · simp [here, AssocTable.get_remove_ne]

theorem connPtr_eq_none : s.connPtr w = none ↔ s.disp.connections.get w = none := by simp [connPtr]

theorem estActive_grown (s : S2Connections) (nowMs : Int) (w : UInt32)
    (old : s.connPtr uid = none) : Grown s (estActive s uid nowMs) w := by
  by_cases here : w = uid
  · subst here
    refine .entered old (p := ⟨w, (w :: s.made).count w⟩) ?_ (AssocTable.get_set_self _ _ _)
    simp [connPtr, estActive, rudpEstConnection]
  · refine .kept ?_ (AssocTable.get_set_ne _ _ here)
    simp [connPtr, estActive, rudpEstConnection, AssocTable.get_set_ne _ _ here,
      List.count_cons_of_ne (Ne.symm here)]

theorem get_of_missing {disp : RudpDispatcher} {rand : Nat}
    (h : rudpGetConnection disp uid rand = .missing) : disp.connections.get uid = none := by
  rw [rudpGetConnection] at h
  split at h
  · split at h <;> cases h
  · split at h
    · cases h
    next absent => exact AssocTable.get_none_of_find absent

theorem slot_of_found {disp : RudpDispatcher} {rand slot : Nat}
    (h : rudpGetConnection disp uid rand = .found slot) :
    ∃ e, disp.connections.entries[slot]? = some e := by
  rw [rudpGetConnection] at h
  split at h
  · split at h
    · cases h
    next nonempty =>
      cases h
      exact ⟨_, List.getElem?_eq_getElem (Nat.mod_lt rand (Nat.pos_of_ne_zero nonempty))⟩
  · split at h
    next found =>
      cases h
      obtain ⟨conn, entry⟩ := AssocTable.find_slot found
      exact ⟨_, entry⟩
    · cases h

theorem stIter_cases {rand : Nat} {nowMs : Int} {info : PeerInfo}
    (h : stIter rand nowMs s info = some s') :
    s' = s ∨ s.connPtr info.uid = none ∧ s' = estActive s info.uid nowMs := by
  rw [stIter] at h
  split at h
  · cases h; exact .inl rfl
  · split at h
    · cases h; exact .inl rfl
    · cases h
    next missing => cases h; exact .inr ⟨connPtr_eq_none.mpr (get_of_missing missing), rfl⟩

/-- The state daemon only adds connections. -/
theorem daemonSt_grown {rand : Nat} {nowMs : Int} (settled : s.disp.Inv)
    (h : daemonSt rand nowMs s = some s') : s'.disp.Inv ∧ ∀ w, Grown s s' w := by
  rw [daemonSt] at h
  generalize peersDbSnapshot s.peers = infos at h
  induction infos generalizing s with
  | nil => cases h; exact ⟨settled, Grown.refl _⟩
  | cons info infos ih =>
    rw [List.foldlM_cons] at h
    obtain ⟨mid, first, rest⟩ := Option.bind_eq_some_iff.mp h
    have one : mid.disp.Inv ∧ ∀ w, Grown s mid w := by
      obtain rfl | ⟨old, rfl⟩ := stIter_cases first
      · exact ⟨settled, Grown.refl _⟩
      · exact ⟨RudpDispatcher.step_inv (a := .est info.uid nowMs) settled rfl,
          fun w => estActive_grown _ nowMs w old⟩
    obtain ⟨settled', grown⟩ := ih one.1 rest
    exact ⟨settled', fun w => (one.2 w).trans (grown w)⟩

theorem pingIter_settled (nowMs : Int) (info : PeerInfo) (settled : s.disp.Inv) :
    (pingIter nowMs s info).disp.Inv := by
  rw [pingIter]
  split
  · exact settled.close info.uid
  · exact settled

theorem connPtr_pingIter (nowMs : Int) (s : S2Connections) (info : PeerInfo) (w : UInt32) :
    (pingIter nowMs s info).connPtr w = if dead nowMs info = true ∧
      info.uid = w then none else s.connPtr w := by
  rw [pingIter]
  split
  next gone =>
    refine (connPtr_closeConnection s info.uid w).trans ?_
    simp [gone, @eq_comm _ w]
  next alive => simp [alive]

/-- The detection of dead peers closes their connections, and leaves the active ones alone. -/
theorem pingPeers_connPtr (nowMs : Int) (s : S2Connections) (settled : s.disp.Inv) :
    (pingPeers nowMs s).disp.Inv ∧ (pingPeers nowMs s).active = s.active ∧
      ∀ w, (pingPeers nowMs s).connPtr w
        = if ∃ info ∈ peersDbSnapshot s.peers, dead nowMs info = true ∧
          info.uid = w then none else s.connPtr w := by
  rw [pingPeers]
  -- the snapshot stays as it is while the peers are removed one by one
  generalize peersDbSnapshot s.peers = infos
  induction infos generalizing s with
  | nil => exact ⟨settled, rfl, fun w => (if_neg (by simp)).symm⟩
  | cons info infos ih =>
    obtain ⟨settled', active, ptr⟩ := ih (pingIter nowMs s info)
      (pingIter_settled nowMs info settled)
    refine ⟨settled', active.trans ?_, fun w => ?_⟩
    · rw [pingIter]
      split <;> rfl
    · rw [List.foldl_cons, ptr w, connPtr_pingIter]
      by_cases behind : ∃ i ∈ infos, dead nowMs i = true ∧ i.uid = w
      · rw [if_pos behind, if_pos]
        obtain ⟨i, member, gone⟩ := behind
        exact ⟨i, List.mem_cons_of_mem _ member, gone⟩
      · rw [if_neg behind]
        simp only [List.mem_cons, or_and_right, exists_or, exists_eq_left]
        by_cases here : dead nowMs info = true ∧ info.uid = w
        · rw [if_pos here, if_pos (.inl here)]
        · rw [if_neg here, if_neg (not_or.mpr ⟨here, behind⟩)]

/-- A packet closes the connection it finds if it is a FIN, and otherwise no connection. -/
theorem packet_connPtr {pkt : Protopack} {rand : Nat} {nowMs : Int} (settled : s.disp.Inv)
    (h : step s (.packet pkt rand nowMs) = some s') :
    s'.disp.Inv ∧ s'.active = s.active ∧
      ∀ w, Closes s w (.packet pkt rand nowMs) ∧ s.connPtr w ≠ none ∧ s'.connPtr w = none ∨
        ¬ Closes s w (.packet pkt rand nowMs) ∧ s'.connPtr w = s.connPtr w := by
  simp only [step, rudpDispatcherHandle] at h
  cases found : rudpGetConnection s.disp pkt.hFrom rand with
  | divisionByZero => simp [found] at h
  | missing =>
    simp only [found, Option.some.injEq] at h
    subst h
    exact ⟨settled, rfl, fun w => .inr ⟨by simp [Closes, found], rfl⟩⟩
  | found slot =>
    simp only [found, Option.some.injEq] at h
    subst h
    obtain ⟨⟨uid, conn⟩, entry⟩ := slot_of_found found
    have peer := (settled uid conn (List.mem_of_getElem? entry)).peer
    have inTable : s.disp.connections.get uid = some conn := AssocTable.get_of_slot entry
    refine ⟨settled.netHandler slot _ nowMs, rfl, fun w => ?_⟩
    by_cases fin : pkt.packtype = ProtopackType.fin.code
    · -- the handler of a FIN does what `closeConnection` does
      have handled : (rudpDispatcherNetHandler s.disp slot (udpCopyPack pkt) nowMs).1
          = (closeConnection s uid).1.disp := by
        simp only [rudpDispatcherNetHandler, entry, udpCopyPack_packtype, fin, if_true, peer,
          closeConnection]
      have made : (closeConnection s uid).1.made = s.made := rfl
      have ptr := connPtr_closeConnection s uid w
      simp only [connPtr, handled, made] at ptr ⊢
      by_cases here : w = uid
      · subst here
        exact .inl ⟨⟨fin, slot, conn, found, entry⟩, by simp [inTable], by simpa using ptr⟩
      · refine .inr ⟨?_, by simpa [here] using ptr⟩
        rintro ⟨-, slot', conn', found', entry'⟩
        rw [found] at found'
        cases found'
        rw [entry] at entry'
        exact here (congrArg Prod.fst (Option.some.inj entry')).symm
    · refine .inr ⟨fun closes => fin closes.1, ?_⟩
      simp only [connPtr, rudpDispatcherNetHandler, entry, udpCopyPack_packtype, fin, if_false]
      by_cases here : w = uid
      · subst here
        simp [AssocTable.get_setAt_self entry, inTable]
      · rw [AssocTable.get_setAt_ne entry _ here]

/-- What a step does to the pointers of a peer. -/
theorem step_cases (settled : s.disp.Inv) (h : step s a = some s') :
    s'.disp.Inv ∧ ∀ w,
      Closes s w a ∧ s.connPtr w ≠ none ∧ s'.connPtr w = none ∧ s'.active.get w = s.active.get w ∨
      ¬ Closes s w a ∧ Grown s s' w := by
  cases a with
  | daemonSt rand nowMs =>
    obtain ⟨settled', grown⟩ := daemonSt_grown settled h
    exact ⟨settled', fun w => .inr ⟨id, grown w⟩⟩
  | packet pkt rand nowMs =>
    obtain ⟨settled', active, ptr⟩ := packet_connPtr settled h
    refine ⟨settled', fun w => ?_⟩
    obtain ⟨closes, old, new⟩ | ⟨keeps, same⟩ := ptr w
    · exact .inl ⟨closes, old, new, by rw [active]⟩
    · exact .inr ⟨keeps, .kept same (by rw [active])⟩
  | ping nowMs =>
    cases h
    obtain ⟨settled', active, ptr⟩ := pingPeers_connPtr nowMs s settled
    refine ⟨settled', fun w => ?_⟩
    by_cases closes : Closes s w (.ping nowMs)
    · exact .inl ⟨closes, closes.2, (ptr w).trans (if_pos closes.1), by rw [active]⟩
    · refine .inr ⟨closes, .kept ?_ (by rw [active])⟩
      rw [ptr w]
      split
      -- a dead peer without a connection keeps what it has
      next gone => exact (not_not.mp fun old => closes ⟨gone, old⟩).symm
      next => rfl
  | closeconn uid =>
    cases h
    simp only [s2SysCloseconn]
    split
    next known =>
      refine ⟨settled.close uid, fun w => ?_⟩
      have ptr := connPtr_closeConnection s uid w
      by_cases closes : Closes s w (.closeconn uid)
      · obtain ⟨rfl, -, old⟩ := closes
        exact .inl ⟨⟨rfl, known, old⟩, old, ptr.trans (if_pos rfl), rfl⟩
      · refine .inr ⟨closes, .kept (ptr.trans ?_) rfl⟩
        split
        next here =>
          subst here
          exact (not_not.mp fun old => closes ⟨rfl, known, old⟩).symm
        next => rfl
    next unknown =>
      refine ⟨settled, fun w => .inr ⟨?_, Grown.refl _ w⟩⟩
      -- an unknown peer is answered before anything is closed
      rintro ⟨rfl, known, -⟩
      exact unknown known
  | peers db =>
    cases h
    exact ⟨settled, fun w => .inr ⟨id, .kept rfl rfl⟩⟩

/-! ## The active entries -/

theorem step_covered (covered : Covered s) (h : step s a = some s') : Covered s' := by
  obtain ⟨settled, cases_⟩ := step_cases covered.settled h
  refine ⟨settled, fun w p ptr => ?_⟩
  obtain ⟨-, -, gone, -⟩ | ⟨-, ⟨kept, active⟩ | ⟨-, new, active⟩⟩ := cases_ w
  · rw [gone] at ptr
    cases ptr
  · rw [active]
    exact covered.listed w p (kept ▸ ptr)
  · rw [active, ← new, ptr]

/-- A step leaves no entry behind exactly if it closes no connection. -/
theorem step_sound_iff (covered : Covered s) (sound : Sound s) (h : step s a = some s') :
    Sound s' ↔ NeverCloses s a := by
  obtain ⟨-, cases_⟩ := step_cases covered.settled h
  constructor
  · intro sound' w closes
    obtain ⟨-, old, gone, active⟩ | ⟨keeps, -⟩ := cases_ w
    · obtain ⟨p, ptr⟩ := Option.ne_none_iff_exists'.mp old
      have left := sound' w p (active.trans (covered.listed w p ptr))
      rw [gone] at left
      cases left
    · exact keeps closes
  · intro keeps w p active'
    obtain ⟨closes, -⟩ | ⟨-, ⟨kept, active⟩ | ⟨-, new, active⟩⟩ := cases_ w
    · exact absurd closes (keeps w)
    · rw [kept]
      exact sound w p (active ▸ active')
    · rw [new, ← active, active']

theorem s2ConnectionsCreate_covered (selfUid : UInt32) : Covered (s2ConnectionsCreate selfUid) where
  settled := by simp [RudpDispatcher.Inv, s2ConnectionsCreate, rudpDispatcherNew, AssocTable.empty]
  listed := by
    intro uid ptr h
    simp [connPtr, s2ConnectionsCreate, rudpDispatcherNew, AssocTable.get, AssocTable.find,
      AssocTable.empty] at h

theorem s2ConnectionsCreate_sound (selfUid : UInt32) : Sound (s2ConnectionsCreate selfUid) := by
  intro uid ptr h
  simp [s2ConnectionsCreate, AssocTable.get, AssocTable.find, AssocTable.empty] at h

/-- A step that is not possible has no connection to close. -/
theorem possible_of_closes (s : S2Connections) (a : ConnAction) (closes : ¬ NeverCloses s a) :
    ∃ s', step s a = some s' := by
  obtain ⟨uid, closes⟩ := not_forall.mp closes
  cases a with
  | packet pkt rand nowMs =>
    obtain ⟨-, slot, conn, found, entry⟩ := not_not.mp closes
    exact ⟨_, by simp only [step, rudpDispatcherHandle, found]; rfl⟩
  | daemonSt rand nowMs => exact absurd id closes
  | ping | closeconn | peers => exact ⟨_, rfl⟩

/-- In all states of a run every active entry is a connection of the dispatcher exactly if no
    step of the run closes a connection. -/
theorem sound_iff_never_closes (selfUid : UInt32) (as : List ConnAction) :
    (∀ bs, bs <+: as → ∀ s, Transition.run step (s2ConnectionsCreate selfUid) bs = some s → Sound s)
      ↔ Transition.Meets step NeverCloses (s2ConnectionsCreate selfUid) as :=
  Transition.always_iff_meets_where (fun _ _ _ => step_covered) possible_of_closes
    (fun _ _ _ => step_sound_iff) (s2ConnectionsCreate_covered selfUid)
      (s2ConnectionsCreate_sound selfUid)

def activePeer : PeerInfo :=
  { server := .zero, state := .active, uid := 5, lastSeen := 0, pubkey := Vector.replicate _ 0,
    nfd := ⟨0, .unspec, 0⟩ }

def finOfPeer : Protopack :=
  { seq := 0, chsum := 0, dSize := 0, hFrom := 5, hTo := 1, packtype := ProtopackType.fin.code,
    data := [] }

/-- A peer becomes active, gets its connection, and ends it. -/
theorem active_dangles :
    ∃ s, Transition.run step (s2ConnectionsCreate 1)
        [.peers (peersDbAdd PeersDb.empty activePeer), .daemonSt 0 0, .packet finOfPeer 0 0]
          = some s ∧
      s.active.get 5 = some ⟨5, 1⟩ ∧ s.connPtr 5 = none ∧ ¬ Sound s :=
  ⟨_, rfl, rfl, rfl, fun sound => nomatch sound 5 ⟨5, 1⟩ rfl⟩

end Soter2.Interface
