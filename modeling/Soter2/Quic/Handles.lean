import Mathlib.Data.List.Basic
import Mathlib.Data.List.Nodup
import Mathlib.Tactic.Common
import Soter2.Base.Events
import Soter2.Quic.Session

/-! # The pointers to QUIC sessions (`quic/src/quic.c`)

The application is given the place of a record in a growing array.  The array may move when it
grows, and its records shift when one is removed.

* `handles_right_iff` — in which runs the pointers lead to the records of their connections.
* `reads_own_chunks` — what the application then reads of a connection.
* `sessions_given_once` — what the calls of `quic_wait_session` give.
-/

namespace Soter2.Quic

open Base

variable {κ : Type*} [DecidableEq κ]

/-- A `quic_session *`: a slot of the block that the array has after this many moves. -/
structure SessionPtr where
  block : Nat
  slot : Nat
deriving DecidableEq

/-- Where a call of `quic_wait_session` stands. -/
inductive WaitPc where
  | idle
  | waiting
  | popping
deriving DecidableEq

structure Server (κ : Type*) where
  registry : Registry κ
  /-- `head` of the array of the records. -/
  head : Nat
  /-- How often `realloc` has moved the array. -/
  block : Nat
  newSessions : Mailbox SessionPtr
  waitPc : WaitPc
  /-- The pointers that were queued, each with its connection. -/
  made : List (κ × SessionPtr)
  /-- What the calls of `quic_wait_session` that returned 1 have written, if anything. -/
  given : List (Option SessionPtr)
  /-- The chunks that `quic_recv` returned, each with the connection whose pointer it was called
      with. -/
  reads : List (κ × κ × QuicPkt)

inductive ServerAction (κ : Type*) where
  /-- A connection becomes ready, and `realloc` moves the array if it is called. -/
  | ready (cnx : κ) (moved : Bool) (malloc : Nat → SessionPtr)
  | notify
  | stream (cnx : κ) (streamId : UInt64) (bytes : List UInt8) (fin : Bool) (malloc : Nat → QuicPkt)
  | close (cnx : κ) (reset : Bool)
  | other (cnx : κ)
  /-- `quic_wait_session` is called, and looks at the queue. -/
  | wait
  | wake
  | timeout
  | pop
  | recv (cnx : κ) (ptr : SessionPtr)

namespace Server

def init : Server κ := ⟨Registry.init, 1, 0, Mailbox.create ⟨0, 0⟩, .idle, [], [], []⟩

def sessions (s : Server κ) : List (QuicSession κ) := s.registry.core.sessions

/-- The connections of the records. -/
def names (s : Server κ) : List κ := s.sessions.map (·.cnx)

/-- `dyn_array_push` calls `realloc`. -/
def Grows (s : Server κ) : Prop := s.sessions.length ≥ s.head - 1

instance (s : Server κ) : Decidable s.Grows := inferInstanceAs (Decidable (_ ≥ _))

/-- The place of the record that is pushed next. -/
def nextPtr (s : Server κ) (moved : Bool) : SessionPtr :=
  ⟨if s.Grows ∧ moved = true then s.block + 1 else s.block, s.sessions.length⟩

def step (s : Server κ) : ServerAction κ → Option (Server κ)
  | .ready cnx moved malloc =>
    (Quic.step s.registry (.ready cnx)).map fun registry => { s with
      registry := registry
      head := if s.Grows then s.head * 2 else s.head
      block := (s.nextPtr moved).block
      newSessions := s.newSessions.push malloc (s.nextPtr moved)
      made := s.made ++ [(cnx, s.nextPtr moved)] }
  | .notify => s.newSessions.notify.map fun newSessions => { s with newSessions := newSessions }
  | .stream cnx streamId bytes fin malloc =>
    (Quic.step s.registry (.stream cnx streamId bytes fin malloc)).map fun registry =>
      { s with registry := registry }
  | .close cnx reset =>
    (Quic.step s.registry (.close cnx reset)).map fun registry => { s with registry := registry }
  | .other cnx =>
    (Quic.step s.registry (.other cnx)).map fun registry => { s with registry := registry }
  | .wait =>
    if s.waitPc = .idle then
      some { s with waitPc := if s.newSessions.queue.contents = [] then .waiting else .popping }
    else none
  | .wake =>
    if s.waitPc = .waiting ∧ s.newSessions.readable then
      some { s with waitPc := .popping, newSessions := s.newSessions.drain }
    else none
  | .timeout => if s.waitPc = .waiting then some { s with waitPc := .idle } else none
  | .pop =>
    if s.waitPc = .popping then
      match s.newSessions.pop with
      | some (ptr, newSessions) =>
        some { s with waitPc := .idle, newSessions := newSessions, given := s.given ++ [some ptr] }
      | none => some { s with waitPc := .idle, given := s.given ++ [none] }
    else none
  | .recv cnx ptr =>
    -- nothing is known of a record behind a pointer to a block that was left
    if (cnx, ptr) ∈ s.made ∧ some ptr ∈ s.given ∧ ptr.block = s.block then
      (quicRecv s.registry.core ptr.slot).map fun (pkt, core) => { s with
        registry := { s.registry with core := core, taken := s.registry.taken ++ [pkt] }
        reads := s.reads ++ [(cnx, pkt)] }
    else none

/-- The pointer leads to the record of the connection. -/
def Leads (s : Server κ) (cnx : κ) (ptr : SessionPtr) : Prop :=
  ptr.block = s.block ∧ s.names[ptr.slot]? = some cnx

/-- The pointers to the sessions of all open connections lead there. -/
def HandlesRight (s : Server κ) : Prop := ∀ e ∈ s.made, e.1 ∈ s.registry.opened → s.Leads e.1 e.2

/-- The array does not move while a connection is open, and no other connection is open when its
    first record is removed. -/
def Steady (s : Server κ) : ServerAction κ → Prop
  | .ready cnx moved _ => cnx ∉ s.registry.known → s.Grows → moved = true → s.registry.opened = []
  | .close cnx _ =>
    cnx ∈ s.registry.opened → s.names.head? = some cnx → ∀ c ∈ s.registry.opened, c = cnx
  | .notify | .stream .. | .other _ | .wait | .wake | .timeout | .pop | .recv .. => True

instance (s : Server κ) : ∀ a, Decidable (Steady s a)
  | .ready cnx moved _ =>
    inferInstanceAs
      (Decidable (cnx ∉ s.registry.known → s.Grows → moved = true → s.registry.opened = []))
  | .close cnx _ =>
    inferInstanceAs
      (Decidable (cnx ∈ s.registry.opened → s.names.head? = some cnx →
        ∀ c ∈ s.registry.opened, c = cnx))
  | .notify | .stream .. | .other _ | .wait | .wake | .timeout | .pop | .recv .. => .isTrue trivial

/-! ## What a step does -/

variable {s s' : Server κ} {a : ServerAction κ} {cnx c : κ} {ptr : SessionPtr}

/-- All that a step does to the records and the pointers. -/
inductive Effect (s : Server κ) (a : ServerAction κ) (s' : Server κ) : Prop where
  | ready (cnx : κ) (moved : Bool) (malloc : Nat → SessionPtr) (is : a = .ready cnx moved malloc)
      (fresh : cnx ∉ s.registry.known)
      (names : s'.names = s.names ++ [cnx]) (opened : s'.registry.opened = cnx :: s.registry.opened)
      (known : s'.registry.known = cnx :: s.registry.known)
      (block : s'.block = (s.nextPtr moved).block)
      (made : s'.made = s.made ++ [(cnx, s.nextPtr moved)])
  | close (cnx : κ) (reset : Bool) (is : a = .close cnx reset) (isOpen : cnx ∈ s.registry.opened)
      (names : s'.names = if s.names.head? = some cnx then s.names.tail else s.names)
      (opened : s'.registry.opened = s.registry.opened.filter (· ≠ cnx))
      (known : s'.registry.known = s.registry.known)
      (block : s'.block = s.block) (made : s'.made = s.made)
  | keep (steady : Steady s a) (names : s'.names = s.names)
      (opened : s'.registry.opened = s.registry.opened)
      (known : s'.registry.known = s.registry.known) (block : s'.block = s.block)
      (made : s'.made = s.made)

theorem map_cnx_unregister (core : QuicCore κ) (cnx : κ) :
    (quicUnregisterSession core cnx).sessions.map (·.cnx)
      = if (core.sessions.map (·.cnx)).head? = some cnx then (core.sessions.map (·.cnx)).tail
        else core.sessions.map (·.cnx) := by
  rw [quicUnregisterSession]
  cases sessions : core.sessions with
  | nil => simp [sessions]
  | cons first rest =>
    by_cases here : first.cnx = cnx
    · simp [here]
    · simp [here, sessions]

/-- The steps that only work on the queue of new sessions. -/
def onQueue : ServerAction κ → Bool
  | .notify | .wait | .wake | .timeout | .pop => true
  | .ready .. | .stream .. | .close .. | .other _ | .recv .. => false

theorem same_of_onQueue (h : step s a = some s') (queue : onQueue a = true) :
    s'.registry = s.registry ∧ s'.block = s.block ∧ s'.made = s.made ∧ s'.reads = s.reads := by
  cases a with
  | notify =>
    obtain ⟨newSessions, -, rfl⟩ := Option.map_eq_some_iff.mp h
    exact ⟨rfl, rfl, rfl, rfl⟩
  | wait | wake | timeout =>
    simp only [step, Option.ite_none_right_eq_some, Option.some.injEq] at h
    obtain ⟨-, rfl⟩ := h
    exact ⟨rfl, rfl, rfl, rfl⟩
  | pop =>
    simp only [step, Option.ite_none_right_eq_some] at h
    obtain ⟨-, h⟩ := h
    split at h <;> cases h <;> exact ⟨rfl, rfl, rfl, rfl⟩
  | ready | stream | close | other | recv => cases queue

theorem Effect.of_onQueue (h : step s a = some s') (queue : onQueue a = true)
    (steady : Steady s a) : Effect s a s' := by
  obtain ⟨registry, block, made, -⟩ := same_of_onQueue h queue
  exact .keep steady (by rw [names, sessions, registry]; rfl) (by rw [registry]) (by rw [registry])
    block made

theorem step_effect (h : step s a = some s') : Effect s a s' := by
  cases a with
  | ready cnx moved malloc =>
    obtain ⟨registry, next, rfl⟩ := Option.map_eq_some_iff.mp h
    simp only [Quic.step, Option.ite_none_left_eq_some, Option.some.injEq] at next
    obtain ⟨fresh, rfl⟩ := next
    exact .ready cnx moved malloc rfl fresh (List.map_append ..) rfl rfl rfl rfl
  | stream cnx streamId bytes fin malloc =>
    obtain ⟨registry, next, rfl⟩ := Option.map_eq_some_iff.mp h
    simp only [Quic.step, Option.ite_none_right_eq_some, Option.some.injEq] at next
    obtain ⟨-, rfl⟩ := next
    exact .keep trivial (map_cnx_stream ..) rfl rfl rfl rfl
  | close cnx reset =>
    obtain ⟨registry, next, rfl⟩ := Option.map_eq_some_iff.mp h
    simp only [Quic.step, Option.ite_none_right_eq_some, Option.some.injEq] at next
    obtain ⟨isOpen, rfl⟩ := next
    refine .close cnx reset rfl isOpen ?_ rfl rfl rfl rfl
    -- a reset and an orderly end unregister alike
    cases reset <;> exact map_cnx_unregister s.registry.core cnx
  | other cnx =>
    cases h
    exact .keep trivial rfl rfl rfl rfl rfl
  | notify | wait | wake | timeout | pop => exact .of_onQueue h rfl trivial
  | recv cnx ptr =>
    simp only [step, Option.ite_none_right_eq_some] at h
    obtain ⟨-, h⟩ := h
    obtain ⟨⟨e, core⟩, received, rfl⟩ := Option.map_eq_some_iff.mp h
    obtain ⟨ses, queue, there, -, -, sessions⟩ := quicRecv_eq_some received
    exact .keep trivial ((congrArg (List.map _) sessions).trans (map_cnx_set there queue)) rfl rfl
      rfl rfl

/-! ## Where the pointers lead -/

/-- The records are of different connections, and each open connection was given a pointer. -/
structure Tracked (s : Server κ) : Prop where
  unique : s.names.Nodup
  records : ∀ c ∈ s.names, c ∈ s.registry.known
  opened : ∀ c ∈ s.registry.opened, c ∈ s.registry.known
  made : ∀ e ∈ s.made, e.1 ∈ s.registry.known
  given : ∀ c ∈ s.registry.opened, ∃ ptr, (c, ptr) ∈ s.made

theorem step_tracked (tracked : Tracked s) (h : step s a = some s') : Tracked s' := by
  obtain ⟨unique, records, opened_, made_, given⟩ := tracked
  cases step_effect h with
  | ready cnx moved malloc is fresh names opened known block made =>
    refine ⟨?_, ?_, ?_, ?_, ?_⟩
    -- all records are of connections that were known before
    · rw [names, List.nodup_append]
      exact ⟨unique, List.nodup_singleton cnx, fun c old d new same =>
        fresh (records cnx (by rwa [← List.mem_singleton.mp new, ← same]))⟩
    · rw [names, known]
      simpa [or_imp, forall_and] using fun c member => Or.inr (records c member)
    · rw [opened, known]
      exact fun c member => (List.mem_cons.mp member).elim (fun new => new ▸ List.mem_cons_self)
        fun old => .tail _ (opened_ c old)
    · rw [made, known]
      intro e member
      obtain old | new := List.mem_append.mp member
      · exact .tail _ (made_ e old)
      · rw [List.mem_singleton.mp new]
        exact List.mem_cons_self
    · rw [opened, made]
      intro c member
      obtain rfl | old := List.mem_cons.mp member
      · exact ⟨_, List.mem_append_right _ (List.mem_singleton_self _)⟩
      · obtain ⟨ptr, there⟩ := given c old
        exact ⟨ptr, List.mem_append_left _ there⟩
  | close cnx reset is isOpen names opened known block made =>
    have fewer : s'.names.Sublist s.names := by
      rw [names]
      split
      · exact List.tail_sublist _
      · exact List.Sublist.refl _
    have kept : ∀ c ∈ s'.registry.opened, c ∈ s.registry.opened := by
      rw [opened]
      exact fun c member => (List.mem_filter.mp member).1
    refine ⟨unique.sublist fewer, ?_, ?_, ?_, ?_⟩
    · rw [known]
      exact fun c member => records c (fewer.subset member)
    · rw [known]
      exact fun c member => opened_ c (kept c member)
    · rw [known, made]
      exact made_
    · rw [made]
      exact fun c member => given c (kept c member)
  | keep steady names opened known block made =>
    rw [← names] at unique records
    rw [← known] at records opened_ made_
    rw [← opened] at opened_ given
    rw [← made] at made_ given
    exact ⟨unique, records, opened_, made_, given⟩

omit [DecidableEq κ] in
theorem ready_right_iff (tracked : Tracked s) (right : HandlesRight s) {moved : Bool}
    {malloc : Nat → SessionPtr} (fresh : cnx ∉ s.registry.known)
    (names : s'.names = s.names ++ [cnx]) (opened : s'.registry.opened = cnx :: s.registry.opened)
    (block : s'.block = (s.nextPtr moved).block)
    (made : s'.made = s.made ++ [(cnx, s.nextPtr moved)]) :
    HandlesRight s' ↔ Steady s (.ready cnx moved malloc) := by
  simp only [Steady, fresh, not_false_eq_true, true_implies]
  constructor
  · intro right' grows isMoved
    refine List.eq_nil_iff_forall_not_mem.mpr fun c isOpen => ?_
    -- the pointer to an open session stays in the old block
    obtain ⟨ptr, there⟩ := tracked.given c isOpen
    have before := (right (c, ptr) there isOpen).1
    have after :=
      (right' (c, ptr) (made ▸ List.mem_append_left _ there) (opened ▸ .tail _ isOpen)).1
    have moves : (s.nextPtr moved).block = s.block + 1 := if_pos ⟨grows, isMoved⟩
    rw [block, moves] at after
    omega
  · intro steady e there isOpen
    rw [made] at there
    rw [opened] at isOpen
    rw [Leads, block, names]
    obtain old | new := List.mem_append.mp there
    · have other : e.1 ≠ cnx := fun same => fresh (same ▸ tracked.made e old)
      have wasOpen := (List.mem_cons.mp isOpen).resolve_left other
      have still : ¬ (s.Grows ∧ moved = true) :=
        fun moves => by simp [steady moves.1 moves.2] at wasOpen
      obtain ⟨before, slot⟩ := right e old wasOpen
      refine ⟨by rw [before, nextPtr, if_neg still], ?_⟩
      rw [List.getElem?_append_left (List.getElem?_eq_some_iff.mp slot).1]
      exact slot
    · obtain rfl := List.mem_singleton.mp new
      refine ⟨rfl, ?_⟩
      have length : s.sessions.length = s.names.length := (List.length_map _).symm
      simp only [nextPtr, length]
      exact List.getElem?_concat_length

theorem close_right_iff (tracked : Tracked s) (right : HandlesRight s) {reset : Bool}
    (isOpen : cnx ∈ s.registry.opened)
    (names : s'.names = if s.names.head? = some cnx then s.names.tail else s.names)
    (opened : s'.registry.opened = s.registry.opened.filter (· ≠ cnx)) (block : s'.block = s.block)
    (made : s'.made = s.made) : HandlesRight s' ↔ Steady s (.close cnx reset) := by
  simp only [Steady, isOpen, true_implies]
  by_cases first : s.names.head? = some cnx
  · rw [if_pos first] at names
    constructor
    · intro right' _ c wasOpen
      by_contra other
      obtain ⟨ptr, there⟩ := tracked.given c wasOpen
      have before := (right (c, ptr) there wasOpen).2
      have after :=
        (right' (c, ptr) (made ▸ there)
          (opened ▸ List.mem_filter.mpr ⟨wasOpen, by simpa using other⟩)).2
      -- the next record is one of the same connection
      rw [names, List.getElem?_tail] at after
      have same := List.nodup_iff_getElem?_ne_getElem?.mp tracked.unique ptr.slot (ptr.slot + 1)
        (Nat.lt_succ_self _)
        (List.getElem?_eq_some_iff.mp after).1
      exact same (before.trans after.symm)
    · intro alone e there stillOpen
      obtain ⟨wasOpen, other⟩ := List.mem_filter.mp (opened ▸ stillOpen)
      exact absurd (alone first e.1 wasOpen) (by simpa using other)
  · rw [if_neg first] at names
    refine iff_of_true (fun e there stillOpen => ?_) fun is => absurd is first
    have before := right e (made ▸ there) (List.mem_filter.mp (opened ▸ stillOpen)).1
    rwa [Leads, block, names]

theorem step_right_iff (tracked : Tracked s) (right : HandlesRight s) (h : step s a = some s') :
    HandlesRight s' ↔ Steady s a := by
  cases step_effect h with
  | ready cnx moved malloc is fresh names opened known block made =>
    subst is
    exact ready_right_iff tracked right fresh names opened block made
  | close cnx reset is isOpen names opened known block made =>
    subst is
    exact close_right_iff tracked right isOpen names opened block made
  | keep steady names opened known block made =>
    refine iff_of_true (fun e there isOpen => ?_) steady
    rw [Leads, block, names]
    exact right e (made ▸ there) (opened ▸ isOpen)

omit [DecidableEq κ] in
theorem init_tracked : Tracked (init : Server κ) :=
  ⟨List.nodup_nil, nofun, nofun, nofun, nofun⟩

/-- In all states of a run the pointers to the sessions of the open connections lead to their
    records, exactly if the array never moves while a connection is open, and no record is removed
    while another is. -/
theorem handles_right_iff (as : List (ServerAction κ)) :
    (∀ bs, bs <+: as → ∀ s, Transition.run step (init : Server κ) bs = some s → HandlesRight s) ↔
      Transition.Meets step Steady (init : Server κ) as := by
  refine Transition.always_iff_meets_where (fun _ _ _ => step_tracked)
    ?_ (fun _ _ _ => step_right_iff) init_tracked nofun
  intro s a bad
  cases a with
  | ready cnx moved malloc =>
    have fresh : cnx ∉ s.registry.known := fun known => bad fun fresh => absurd known fresh
    refine ⟨_, Option.map_eq_some_iff.mpr ⟨_, if_neg fresh, rfl⟩⟩
  | close cnx reset =>
    have isOpen : cnx ∈ s.registry.opened := (Classical.not_imp.mp bad).1
    exact ⟨_, Option.map_eq_some_iff.mpr ⟨_, if_pos isOpen, rfl⟩⟩
  | notify | stream | other | wait | wake | timeout | pop | recv => exact absurd trivial bad

/-- Two clients: the array grows for the second, and the session of the first is in the block that
    was left. -/
theorem second_client_dangles :
    ∃ s, Transition.run step (init : Server Nat)
      [.ready 1 true fun _ => ⟨0, 0⟩, .ready 2 true fun _ => ⟨0, 0⟩] = some s ∧
      ¬ HandlesRight s := by
  refine ⟨_, rfl, fun right => ?_⟩
  exact absurd (right (1, ⟨1, 0⟩) (by decide) (by decide)).1 (by decide)

/-! ## What the application reads -/

/-- The first record is that of the connection that ends, and no pointer to a session that has ended
    is read through. -/
def Careful (s : Server κ) : ServerAction κ → Prop
  | .close cnx reset => ClosesFirst s.registry (.close cnx reset)
  | .recv cnx _ => cnx ∈ s.registry.opened
  | .ready .. | .notify | .stream .. | .other _ | .wait | .wake | .timeout | .pop => True

instance (s : Server κ) : ∀ a, Decidable (Careful s a)
  | .close cnx _ =>
    inferInstanceAs
      (Decidable (cnx ∈ s.registry.opened →
        (s.registry.core.sessions.head?.map (·.cnx)) = some cnx))
  | .recv cnx _ => inferInstanceAs (Decidable (cnx ∈ s.registry.opened))
  | .ready .. | .notify | .stream .. | .other _ | .wait | .wake | .timeout | .pop => .isTrue trivial

/-- The chunks that were read with the pointer of a connection. -/
def readsOf (cnx : κ) (reads : List (κ × κ × QuicPkt)) : List QuicPkt :=
  (reads.filter fun e => e.1 = cnx).map (·.2.2)

/-- All that was read came from the connection that was asked for. -/
structure ReadsOwn (s : Server κ) : Prop where
  tracked : Tracked s
  right : HandlesRight s
  known : Known s.registry
  registered : Registered s.registry
  taken : s.reads.map Prod.snd = s.registry.taken
  own : ∀ e ∈ s.reads, e.2.1 = e.1

/-- A step of the registry, and of nothing that was read. -/
theorem ReadsOwn.of_registry (reads : ReadsOwn s) (h : step s a = some s') (steady : Steady s a)
    {b : QuicAction κ} (next : Quic.step s.registry b = some s'.registry)
    (first : ClosesFirst s.registry b) (same : s'.reads = s.reads)
    (taken : s'.registry.taken = s.registry.taken) : ReadsOwn s' where
  tracked := step_tracked reads.tracked h
  right := (step_right_iff reads.tracked reads.right h).mpr steady
  known := step_known reads.known next
  registered := (step_registered_iff reads.known reads.registered next).mpr first
  taken := by rw [same, taken]; exact reads.taken
  own := by rw [same]; exact reads.own

theorem ReadsOwn.of_same (reads : ReadsOwn s) (h : step s a = some s') (steady : Steady s a)
    (registry : s'.registry = s.registry) (same : s'.reads = s.reads) : ReadsOwn s' where
  tracked := step_tracked reads.tracked h
  right := (step_right_iff reads.tracked reads.right h).mpr steady
  known := registry ▸ reads.known
  registered := registry ▸ reads.registered
  taken := by rw [same, registry]; exact reads.taken
  own := by rw [same]; exact reads.own

theorem recv_reads (reads : ReadsOwn s) (isOpen : cnx ∈ s.registry.opened)
    (h : step s (.recv cnx ptr) = some s') : ReadsOwn s' := by
  have received := h
  simp only [step, Option.ite_none_right_eq_some] at received
  obtain ⟨⟨made, -, -⟩, received⟩ := received
  obtain ⟨⟨e, core⟩, got, rfl⟩ := Option.map_eq_some_iff.mp received
  have next : Quic.step s.registry (.recv ptr.slot)
      = some { s.registry with core := core, taken := s.registry.taken ++ [e] } := by
    rw [Quic.step, got]
    rfl
  obtain ⟨ses, queue, there, from_, -, -⟩ := quicRecv_eq_some got
  refine ⟨step_tracked reads.tracked h, (step_right_iff reads.tracked reads.right h).mpr trivial,
    step_known reads.known next,
    (step_registered_iff reads.known reads.registered next).mpr trivial, ?_, ?_⟩
  · simp only [List.map_append, reads.taken, List.map_cons, List.map_nil]
  · intro e' member
    obtain old | new := List.mem_append.mp member
    · exact reads.own e' old
    · obtain rfl := List.mem_singleton.mp new
      -- the pointer leads to the record of its connection
      have leads := (reads.right (cnx, ptr) made isOpen).2
      rw [names, List.getElem?_map, sessions, there] at leads
      exact from_.trans (Option.some.inj leads)

theorem step_reads (reads : ReadsOwn s) (ok : Steady s a ∧ Careful s a) (h : step s a = some s') :
    ReadsOwn s' := by
  obtain ⟨steady, careful⟩ := ok
  -- the registry takes steps of its own; only a read looks at the array
  cases a with
  | ready cnx moved malloc =>
    obtain ⟨registry, next, rfl⟩ := Option.map_eq_some_iff.mp h
    refine reads.of_registry h steady next trivial rfl ?_
    simp only [Quic.step, Option.ite_none_left_eq_some, Option.some.injEq] at next
    exact next.2 ▸ rfl
  | stream cnx streamId bytes fin malloc =>
    obtain ⟨registry, next, rfl⟩ := Option.map_eq_some_iff.mp h
    refine reads.of_registry h steady next trivial rfl ?_
    simp only [Quic.step, Option.ite_none_right_eq_some, Option.some.injEq] at next
    exact next.2 ▸ rfl
  | close cnx reset =>
    obtain ⟨registry, next, rfl⟩ := Option.map_eq_some_iff.mp h
    refine reads.of_registry h steady next careful rfl ?_
    simp only [Quic.step, Option.ite_none_right_eq_some, Option.some.injEq] at next
    exact next.2 ▸ rfl
  | other cnx =>
    cases h
    have next : Quic.step s.registry (.other cnx) = some s.registry := rfl
    exact reads.of_registry rfl steady next trivial rfl rfl
  | recv cnx ptr => exact recv_reads reads careful h
  | notify | wait | wake | timeout | pop =>
    obtain ⟨registry, -, -, same⟩ := same_of_onQueue h rfl
    exact reads.of_same h steady registry same

theorem init_readsOwn : ReadsOwn (init : Server κ) where
  tracked := init_tracked
  right := nofun
  known := ⟨nofun, nofun, nofun, nofun⟩
  registered := ⟨by simp [init, Registry.init, quicServInit], nofun⟩
  taken := rfl
  own := nofun

theorem ReadsOwn.chunks (reads : ReadsOwn s) (cnx : κ) :
    readsOf cnx s.reads = chunksOf cnx s.registry.taken := by
  rw [chunksOf, ← reads.taken, List.filter_map, List.map_map, readsOf]
  refine congrArg (List.map _) (List.filter_congr fun e member => ?_)
  simp only [Function.comp, reads.own e member]

/-- A connection is made and given to the application. -/
def giveSession (cnx : Nat) (moved : Bool) : List (ServerAction Nat) :=
  [.ready cnx moved fun _ => ⟨0, 0⟩, .notify, .wait, .pop]

def chunkOn (cnx : Nat) (byte : UInt8) : ServerAction Nat :=
  .stream cnx 4 [byte] false fun _ => zeroPkt

/-- A first connection comes and goes, and of the next two the application reads in turns. -/
def sampleReads : List (ServerAction Nat) :=
  giveSession 0 true ++ [chunkOn 0 5, .recv 0 ⟨1, 0⟩, .close 0 false] ++ giveSession 1 true ++
    giveSession 2 false ++
    [chunkOn 1 7, chunkOn 2 8, chunkOn 1 9, .recv 2 ⟨1, 1⟩, .recv 1 ⟨1, 0⟩]

/-- The call was woken and finds no session. -/
def vain (s : Server κ) : Nat :=
  if s.waitPc = .popping ∧ s.newSessions.view.items = [] then 1 else 0

structure Giving (s : Server κ) : Prop where
  order : s.given.filterMap id ++ s.newSessions.view.items = s.made.map Prod.snd
  vain : s.given.count none + s.newSessions.view.counter + s.newSessions.view.between +
    s.vain ≤ s.made.length
  covered : s.waitPc = .waiting → s.newSessions.view.Covered

omit [DecidableEq κ] in
theorem vain_eq_zero (h : s.waitPc ≠ .popping ∨ s.newSessions.view.items ≠ []) : s.vain = 0 :=
  if_neg fun both => h.elim (absurd both.1) (absurd both.2)

omit [DecidableEq κ] in
theorem vain_le_one (s : Server κ) : s.vain ≤ 1 := by
  rw [Server.vain]
  split <;> omega

theorem ready_giving (giving : Giving s) {moved : Bool} {malloc : Nat → SessionPtr}
    (h : step s (.ready cnx moved malloc) = some s') : Giving s' := by
  obtain ⟨registry, -, rfl⟩ := Option.map_eq_some_iff.mp h
  obtain ⟨order, vain, covered⟩ := giving
  have items : (s.newSessions.push malloc (s.nextPtr moved)).view.items
      = s.newSessions.view.items ++ [s.nextPtr moved] := by
    rw [Mailbox.view_push]
    rfl
  refine ⟨?_, ?_, fun _ => by rw [Mailbox.view_push]; exact EventQueue.State.covered_push _ _⟩
  · rw [items, ← List.append_assoc, order, List.map_append]
    rfl
  · rw [vain_eq_zero (.inr (by rw [items]; simp)), Mailbox.view_push, List.length_append]
    simp only [EventQueue.State.push, List.length_singleton]
    omega

theorem pop_giving (giving : Giving s) (h : step s .pop = some s') : Giving s' := by
  simp only [step, Option.ite_none_right_eq_some] at h
  obtain ⟨popping, h⟩ := h
  obtain ⟨order, vain, covered⟩ := giving
  split at h
  next ptr newSessions popped =>
    cases h
    obtain ⟨items, rest⟩ := Mailbox.view_of_pop popped
    refine ⟨?_, ?_, by simp⟩
    · rw [items] at order
      simpa using order
    · rw [vain_eq_zero (.inl (by simp)), rest, EventQueue.State.rest, List.count_append]
      simp only [List.count_cons, List.count_nil]
      simp
      omega
  next empty =>
    cases h
    have items := Mailbox.pop_eq_none.mp empty
    -- the notification that woke the call was counted as one in vain
    have waited : s.vain = 1 := if_pos ⟨popping, items⟩
    refine ⟨by simpa using order, ?_, by simp⟩
    rw [vain_eq_zero (.inl (by simp)), List.count_append]
    simp
    omega

theorem step_giving (giving : Giving s) (h : step s a = some s') : Giving s' := by
  have registers {registry : Registry κ} {reads : List (κ × κ × QuicPkt)} :
      Giving { s with registry := registry, reads := reads } :=
        ⟨giving.order, giving.vain, giving.covered⟩
  cases a with
  | ready cnx moved malloc => exact ready_giving giving h
  | pop => exact pop_giving giving h
  | stream | close =>
    obtain ⟨registry, -, rfl⟩ := Option.map_eq_some_iff.mp h
    exact registers
  | other =>
    cases h
    exact giving
  | recv =>
    simp only [step, Option.ite_none_right_eq_some] at h
    obtain ⟨e, -, rfl⟩ := Option.map_eq_some_iff.mp h.2
    exact registers
  | notify =>
    obtain ⟨newSessions, notified, rfl⟩ := Option.map_eq_some_iff.mp h
    obtain ⟨pending, view⟩ := Mailbox.view_notify notified
    obtain ⟨order, vain, covered⟩ := giving
    have items : newSessions.view.items = s.newSessions.view.items := by rw [view]; rfl
    refine ⟨by rw [items]; exact order, ?_,
      fun _ => by rw [view]; exact EventQueue.State.covered_notify _⟩
    have same : ({ s with newSessions := newSessions } : Server κ).vain = s.vain := by
      simp only [Server.vain, items]
    rw [same, view]
    simp only [EventQueue.State.notify]
    omega
  | wait =>
    simp only [step, Option.ite_none_right_eq_some, Option.some.injEq] at h
    obtain ⟨-, rfl⟩ := h
    obtain ⟨order, vain, covered⟩ := giving
    by_cases empty : s.newSessions.queue.contents = []
    · refine ⟨order, ?_, fun _ => EventQueue.State.covered_of_empty empty⟩
      rw [vain_eq_zero (.inl (by simp [empty]))]
      dsimp only
      omega
    · refine ⟨order, ?_, by simp [empty]⟩
      rw [vain_eq_zero (.inr (by exact empty))]
      dsimp only
      omega
  | wake =>
    simp only [step, Option.ite_none_right_eq_some, Option.some.injEq] at h
    obtain ⟨⟨-, readable⟩, rfl⟩ := h
    obtain ⟨order, vain, covered⟩ := giving
    -- the counter is read, so a call in vain is paid for by what was counted
    have counted : 0 < s.newSessions.view.counter := of_decide_eq_true readable
    refine ⟨order, ?_, by simp⟩
    have := vain_le_one { s with waitPc := .popping, newSessions := s.newSessions.drain }
    simp only [Mailbox.view_drain, EventQueue.State.reset]
    omega
  | timeout =>
    simp only [step, Option.ite_none_right_eq_some, Option.some.injEq] at h
    obtain ⟨-, rfl⟩ := h
    obtain ⟨order, vain, covered⟩ := giving
    refine ⟨order, ?_, by simp⟩
    rw [vain_eq_zero (.inl (by simp))]
    dsimp only
    omega

/-- In every run the calls of `quic_wait_session` give the application each session once and in
    order, return 1 without one no more often than there were sessions, and never wait for a session
    that no notification is on its way for. -/
theorem sessions_given_once (as : List (ServerAction κ)) (s : Server κ)
    (reached : Transition.run step (init : Server κ) as = some s) :
    s.given.filterMap id ++ s.newSessions.view.items = s.made.map Prod.snd ∧
      s.given.count none ≤ s.made.length ∧ (s.waitPc = .waiting → s.newSessions.view.Covered) := by
  have start : Giving (init : Server κ) := ⟨rfl, Nat.le_refl _, nofun⟩
  obtain ⟨order, vain, covered⟩ := Transition.run_invariant (fun _ _ _ => step_giving) start reached
  exact ⟨order, by omega, covered⟩

/-- The second call returns at once, for the notification of the session that the first one gave. -/
def sampleCalls : List (ServerAction Nat) :=
  [.ready 1 true fun _ => ⟨0, 0⟩, .notify, .wait, .pop, .wait, .wake, .pop]

theorem sessions_given_once_vain :
    ∃ s : Server Nat, Transition.run step init sampleCalls = some s ∧
      s.given = [some ⟨1, 0⟩, none] ∧
      s.given.count none ≤ s.made.length := by
  have reached : (Transition.run step init sampleCalls).any (fun s => s.given = [some ⟨1, 0⟩, none])
      = true := by decide +kernel
  obtain ⟨s, reached, given⟩ := (Option.any_eq_true _ _).mp reached
  exact ⟨s, reached, of_decide_eq_true given, (sessions_given_once sampleCalls s reached).2.1⟩

end Server

end Soter2.Quic
