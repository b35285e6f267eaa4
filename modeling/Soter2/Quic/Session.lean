import Mathlib.Data.List.Basic
import Mathlib.Data.List.Count
import Mathlib.Data.List.Nodup
import Mathlib.Tactic.Common
import Soter2.Base.ProtQueue
import Soter2.Library.Transition

/-! # The sessions of the QUIC core (`quic/src/quic.c`)

`picoquic` reports what happens on a connection to `_quic_core_cb`, which keeps a record with
a queue for each connection.  A `picoquic_cnx_t *` is an opaque value here, and a
`quic_session *` is the place of a record in the array.

* `registry_iff_closes_first` — in which runs the records are those of the open connections.
-/

namespace Soter2.Quic

open Base

variable {κ : Type*} [DecidableEq κ]

structure QuicPkt where
  streamId : UInt64
  msg : List UInt8
  fin : Bool
deriving DecidableEq, Repr

structure QuicSession (κ : Type*) where
  cnx : κ
  incPkts : ProtQueue QuicPkt

structure QuicCore (κ : Type*) where
  isRunning : Bool
  sessions : List (QuicSession κ)
  newSessions : List Nat

/-- The events of `picoquic` that `_quic_core_cb` looks at, and all others. -/
inductive CallBackEvent where
  | ready
  | streamData
  | streamFin
  | close
  | statelessReset
  | other
deriving DecidableEq, Repr

def zeroPkt : QuicPkt := ⟨0, [], false⟩

def quicServInit : QuicCore κ := ⟨true, [], []⟩

def findSessionByCnx (core : QuicCore κ) (cnx : κ) : Option Nat :=
  core.sessions.findIdx? fun ses => ses.cnx = cnx

def quicRegisterSession (core : QuicCore κ) (cnx : κ) : QuicCore κ :=
  { core with
    sessions := core.sessions ++ [⟨cnx, protQueueCreate zeroPkt⟩]
    newSessions := core.newSessions ++ [core.sessions.length] }

/-- `_quic_unregister_session`: the loop ends after its first turn, whatever it finds. -/
def quicUnregisterSession (core : QuicCore κ) (cnx : κ) : QuicCore κ :=
  match core.sessions with
  | [] => core
  | ses :: rest => if ses.cnx = cnx then { core with sessions := rest } else core

def quicCoreStop (core : QuicCore κ) : QuicCore κ := { core with isRunning := false }

/-- Push to the queue of the record in a slot. -/
def pushAt (malloc : Nat → QuicPkt) (slot : Nat) (pkt : QuicPkt) (core : QuicCore κ) : QuicCore κ :=
  { core with
    sessions := core.sessions.modify slot fun ses =>
      { ses with incPkts := protQueuePush malloc ses.incPkts pkt } }

def quicCoreCb (malloc : Nat → QuicPkt) (core : QuicCore κ) (cnx : κ) (streamId : UInt64)
    (bytes : List UInt8) (event : CallBackEvent) : QuicCore κ :=
  match event with
  | .ready => quicRegisterSession core cnx
  | .streamData | .streamFin =>
    match findSessionByCnx core cnx with
    | some slot => pushAt malloc slot ⟨streamId, bytes, event = .streamFin⟩ core
    | none => core
  | .close | .statelessReset => quicCoreStop (quicUnregisterSession core cnx)
  | .other => core

/-- `quic_recv` on the record in a slot. -/
def quicRecv (core : QuicCore κ) (slot : Nat) : Option ((κ × QuicPkt) × QuicCore κ) :=
  core.sessions[slot]?.bind fun ses =>
    (protQueuePop ses.incPkts).map fun (pkt, queue) =>
      ((ses.cnx, pkt),
        { core with sessions := core.sessions.set slot { ses with incPkts := queue } })

/-! ## Runs -/

/-- The core with its history: the connections that ever became ready, those not closed yet,
    the chunks that arrived and those that `quic_recv` took. -/
structure Registry (κ : Type*) where
  core : QuicCore κ
  known : List κ
  opened : List κ
  arrived : List (κ × QuicPkt)
  taken : List (κ × QuicPkt)

def Registry.init : Registry κ := ⟨quicServInit, [], [], [], []⟩

inductive QuicAction (κ : Type*) where
  | ready (cnx : κ)
  | stream (cnx : κ) (streamId : UInt64) (bytes : List UInt8) (fin : Bool) (malloc : Nat → QuicPkt)
  | close (cnx : κ) (reset : Bool)
  | other (cnx : κ)
  | recv (slot : Nat)

/-- A callback or a call of `quic_recv`.  A connection becomes ready once, and nothing is
    reported of it before that or after its end. -/
def step (s : Registry κ) : QuicAction κ → Option (Registry κ)
  | .ready cnx =>
    if cnx ∈ s.known then none
    else some { s with
      core := quicCoreCb (fun _ => zeroPkt) s.core cnx 0 [] .ready
      known := cnx :: s.known
      opened := cnx :: s.opened }
  | .stream cnx streamId bytes fin malloc =>
    if cnx ∈ s.opened then
      some { s with
        core := quicCoreCb malloc s.core cnx streamId bytes
          (if fin then .streamFin else .streamData)
        arrived := s.arrived ++ [(cnx, ⟨streamId, bytes, fin⟩)] }
    else none
  | .close cnx reset =>
    if cnx ∈ s.opened then
      some { s with
        core := quicCoreCb (fun _ => zeroPkt) s.core cnx 0 []
          (if reset then .statelessReset else .close)
        opened := s.opened.filter (· ≠ cnx) }
    else none
  | .other cnx => some { s with core := quicCoreCb (fun _ => zeroPkt) s.core cnx 0 [] .other }
  | .recv slot =>
    (quicRecv s.core slot).map fun (pkt, core) => { s with core := core, taken := s.taken ++ [pkt] }

/-- The chunks of a connection in a history. -/
def chunksOf (cnx : κ) (history : List (κ × QuicPkt)) : List QuicPkt :=
  (history.filter fun e => e.1 = cnx).map Prod.snd

/-- There is one record for each open connection and none for any other, and the queue of a
    record holds what arrived on its connection and was not taken, in order. -/
structure Registered (s : Registry κ) : Prop where
  records : ∀ cnx, (s.core.sessions.map (·.cnx)).count cnx = if cnx ∈ s.opened then 1 else 0
  queues : ∀ ses ∈ s.core.sessions,
    chunksOf ses.cnx s.taken ++ ses.incPkts.contents = chunksOf ses.cnx s.arrived

/-- A connection that ends has the first record in the array. -/
def ClosesFirst (s : Registry κ) : QuicAction κ → Prop
  | .close cnx _ => cnx ∈ s.opened → (s.core.sessions.head?.map (·.cnx)) = some cnx
  | .ready _ | .stream .. | .other _ | .recv _ => True

/-- The histories only name connections that became ready. -/
structure Known (s : Registry κ) : Prop where
  opened : ∀ cnx ∈ s.opened, cnx ∈ s.known
  arrived : ∀ e ∈ s.arrived, e.1 ∈ s.known
  taken : ∀ e ∈ s.taken, e.1 ∈ s.known
  records : ∀ ses ∈ s.core.sessions, ses.cnx ∈ s.known

/-! ## Chunks -/

variable {cnx c : κ} {pkt : QuicPkt} {history : List (κ × QuicPkt)}

@[simp] theorem chunksOf_append (cnx : κ) (history later : List (κ × QuicPkt)) :
    chunksOf cnx (history ++ later) = chunksOf cnx history ++ chunksOf cnx later := by
  simp [chunksOf]

@[simp] theorem chunksOf_self (cnx : κ) (pkt : QuicPkt) : chunksOf cnx [(cnx, pkt)] = [pkt] := by
  simp [chunksOf]

theorem chunksOf_ne (other : c ≠ cnx) : chunksOf c [(cnx, pkt)] = [] := by
  simp [chunksOf, Ne.symm other]

theorem chunksOf_unknown {known : List κ} (names : ∀ e ∈ history, e.1 ∈ known)
    (fresh : cnx ∉ known) : chunksOf cnx history = [] := by
  rw [chunksOf, List.map_eq_nil_iff, List.filter_eq_nil_iff]
  intro e member here
  exact fresh (of_decide_eq_true here ▸ names e member)

/-! ## Records -/

section Records

omit [DecidableEq κ]

variable {core : QuicCore κ} {slot i : Nat} {ses other : QuicSession κ}

theorem slot_unique (unique : (core.sessions.map (·.cnx)).Nodup)
    (there : core.sessions[slot]? = some ses) (here : core.sessions[i]? = some other)
    (same : other.cnx = ses.cnx) : i = slot := by
  have inside := (List.getElem?_eq_some_iff.mp here).1
  refine (List.getElem?_inj (by simpa using inside) unique).mp ?_
  rw [List.getElem?_map, List.getElem?_map, there, here]
  simp [same]

/-- Another queue in a record leaves the connections of the records. -/
theorem map_cnx_set (there : core.sessions[slot]? = some ses) (queue : ProtQueue QuicPkt) :
    (core.sessions.set slot { ses with incPkts := queue }).map (·.cnx)
      = core.sessions.map (·.cnx) := by
  obtain ⟨bound, eq⟩ := List.getElem?_eq_some_iff.mp there
  apply List.ext_getElem?
  intro j
  by_cases here : slot = j
  · subst here
    simp [bound, eq]
  · simp [List.getElem?_set_ne here]

theorem pushAt_sessions (there : core.sessions[slot]? = some ses) (malloc : Nat → QuicPkt)
    (pkt : QuicPkt) :
    (pushAt malloc slot pkt core).sessions
      = core.sessions.set slot { ses with incPkts := protQueuePush malloc ses.incPkts pkt } := by
  obtain ⟨bound, eq⟩ := List.getElem?_eq_some_iff.mp there
  apply List.ext_getElem?
  intro j
  by_cases here : slot = j
  · subst here
    simp [pushAt, bound, eq]
  · simp [pushAt, List.getElem?_set_ne here, here]

theorem quicRecv_eq_some {core' : QuicCore κ} {e : κ × QuicPkt}
    (h : quicRecv core slot = some (e, core')) :
    ∃ ses queue, core.sessions[slot]? = some ses ∧ e.1 = ses.cnx ∧
      ses.incPkts.contents = e.2 :: queue.contents ∧
      core'.sessions = core.sessions.set slot { ses with incPkts := queue } := by
  obtain ⟨ses, there, popped⟩ := Option.bind_eq_some_iff.mp h
  obtain ⟨⟨pkt, queue⟩, pop, eq⟩ := Option.map_eq_some_iff.mp popped
  obtain ⟨rfl, rfl⟩ := Prod.mk.inj eq
  exact ⟨ses, queue, there, rfl, contents_of_protQueuePop pop, rfl⟩

end Records

variable {core : QuicCore κ} {s s' : Registry κ} {a : QuicAction κ} {slot : Nat}
    {ses : QuicSession κ}

theorem findSessionByCnx_some (h : findSessionByCnx core cnx = some slot) :
    ∃ ses, core.sessions[slot]? = some ses ∧ ses.cnx = cnx := by
  obtain ⟨bound, found, -⟩ := List.findIdx?_eq_some_iff_getElem.mp h
  exact ⟨_, List.getElem?_eq_getElem bound, by simpa using found⟩

theorem findSessionByCnx_none (h : findSessionByCnx core cnx = none) :
    (core.sessions.map (·.cnx)).count cnx = 0 := by
  have absent : ∀ ses ∈ core.sessions, ses.cnx ≠ cnx := by
    simpa [findSessionByCnx, List.findIdx?_eq_none_iff] using h
  rw [List.count_eq_zero]
  rintro member
  obtain ⟨ses, there, rfl⟩ := List.mem_map.mp member
  exact absent ses there rfl

theorem quicUnregisterSession_subset
    (member : ses ∈ (quicCoreStop (quicUnregisterSession core cnx)).sessions) :
    ses ∈ core.sessions := by
  simp only [quicCoreStop, quicUnregisterSession] at member
  split at member
  · exact member
  next first rest sessions =>
    split at member
    · rw [sessions]; exact .tail _ member
    · exact member

theorem Registered.unique (registered : Registered s) : (s.core.sessions.map (·.cnx)).Nodup := by
  rw [List.nodup_iff_count_le_one]
  intro c
  rw [registered.records c]
  split <;> omega

/-- Another queue in one record, with the history that goes with it. -/
theorem Registered.requeue (registered : Registered s) (there : s.core.sessions[slot]? = some ses)
    (queue : ProtQueue QuicPkt)
    (sessions : s'.core.sessions = s.core.sessions.set slot { ses with incPkts := queue })
    (opened : s'.opened = s.opened)
    (others : ∀ c ≠ ses.cnx, chunksOf c s'.taken = chunksOf c s.taken ∧
      chunksOf c s'.arrived = chunksOf c s.arrived)
    (own : chunksOf ses.cnx s'.taken ++ queue.contents = chunksOf ses.cnx s'.arrived) :
    Registered s' where
  records := by
    intro c
    rw [sessions, map_cnx_set there, opened]
    exact registered.records c
  queues := by
    intro o member
    rw [sessions] at member
    obtain ⟨j, here⟩ := List.mem_iff_getElem?.mp member
    by_cases same : slot = j
    · subst same
      rw [List.getElem?_set_self (List.getElem?_eq_some_iff.mp there).1] at here
      cases here
      exact own
    · rw [List.getElem?_set_ne same] at here
      -- no two records are of one connection
      have other : o.cnx ≠ ses.cnx := fun eq =>
        same (slot_unique registered.unique there here eq).symm
      obtain ⟨taken, arrived⟩ := others o.cnx other
      rw [taken, arrived]
      exact registered.queues o (List.mem_of_getElem? here)

theorem map_cnx_stream (core : QuicCore κ) (cnx : κ) (streamId : UInt64) (bytes : List UInt8)
    (fin : Bool) (malloc : Nat → QuicPkt) :
    (quicCoreCb malloc core cnx streamId bytes
      (if fin then .streamFin else .streamData)).sessions.map (·.cnx)
      = core.sessions.map (·.cnx) := by
  cases found : findSessionByCnx core cnx with
  | none => cases fin <;> simp [quicCoreCb, found]
  | some slot =>
    obtain ⟨ses, there, -⟩ := findSessionByCnx_some found
    cases fin <;> simp only [quicCoreCb, found, Bool.false_eq_true, if_false, if_true] <;>
      rw [pushAt_sessions there, map_cnx_set there]

omit [DecidableEq κ] in
theorem Known.records_of_names (known : Known s) {sessions : List (QuicSession κ)}
    (names : sessions.map (·.cnx) = s.core.sessions.map (·.cnx)) :
    ∀ ses ∈ sessions, ses.cnx ∈ s.known := by
  intro ses member
  obtain ⟨old, there, eq⟩ := List.mem_map.mp
    (names ▸ List.mem_map_of_mem (f := QuicSession.cnx) member)
  exact eq ▸ known.records old there

/-! ## What a step does -/

theorem step_known (known : Known s) (h : step s a = some s') : Known s' := by
  cases a with
  | ready cnx =>
    simp only [step, Option.ite_none_left_eq_some, Option.some.injEq] at h
    obtain ⟨-, rfl⟩ := h
    refine ⟨?_, fun e m => .tail _ (known.arrived e m), fun e m => .tail _ (known.taken e m), ?_⟩
    · intro c member
      cases List.mem_cons.mp member with
      | inl new => exact new ▸ List.mem_cons_self
      | inr old => exact .tail _ (known.opened c old)
    · intro ses member
      cases List.mem_append.mp member with
      | inl old => exact .tail _ (known.records ses old)
      | inr new => rw [List.mem_singleton.mp new]; exact List.mem_cons_self
  | stream cnx streamId bytes fin malloc =>
    simp only [step, Option.ite_none_right_eq_some, Option.some.injEq] at h
    obtain ⟨isOpen, rfl⟩ := h
    refine ⟨known.opened, ?_, known.taken, ?_⟩
    · intro e member
      cases List.mem_append.mp member with
      | inl old => exact known.arrived e old
      | inr new => rw [List.mem_singleton.mp new]; exact known.opened cnx isOpen
    · exact known.records_of_names (map_cnx_stream s.core cnx streamId bytes fin malloc)
  | close cnx reset =>
    simp only [step, Option.ite_none_right_eq_some, Option.some.injEq] at h
    obtain ⟨-, rfl⟩ := h
    refine ⟨fun c m => known.opened c (List.mem_filter.mp m).1, known.arrived, known.taken, ?_⟩
    intro ses member
    refine known.records ses ?_
    cases reset <;> exact quicUnregisterSession_subset member
  | other cnx => cases h; exact known
  | recv slot =>
    obtain ⟨⟨e, core⟩, received, rfl⟩ := Option.map_eq_some_iff.mp h
    obtain ⟨ses, queue, there, from_, -, sessions⟩ := quicRecv_eq_some received
    -- the chunk is taken for the connection of the record
    have owner := known.records ses (List.mem_of_getElem? there)
    refine ⟨known.opened, known.arrived, ?_, ?_⟩
    · intro o member
      cases List.mem_append.mp member with
      | inl old => exact known.taken o old
      | inr new => rw [List.mem_singleton.mp new, from_]; exact owner
    · exact known.records_of_names (by rw [sessions]; exact map_cnx_set there queue)

theorem ready_registered (known : Known s) (registered : Registered s)
    (h : step s (.ready cnx) = some s') : Registered s' := by
  simp only [step, Option.ite_none_left_eq_some, Option.some.injEq] at h
  obtain ⟨fresh, rfl⟩ := h
  have closed : cnx ∉ s.opened := fun member => fresh (known.opened cnx member)
  constructor
  · intro c
    have old := registered.records c
    simp only [quicCoreCb, quicRegisterSession, List.map_append, List.count_append, List.map_cons,
      List.map_nil, List.mem_cons, old]
    by_cases new : c = cnx
    · subst new
      simp [closed]
    · simp [new, Ne.symm new]
  · intro ses member
    cases List.mem_append.mp member with
    | inl old => exact registered.queues ses old
    | inr new =>
      obtain rfl := List.mem_singleton.mp new
      simp [chunksOf_unknown known.taken fresh, chunksOf_unknown known.arrived fresh]

theorem stream_registered {streamId : UInt64} {bytes : List UInt8} {fin : Bool}
    {malloc : Nat → QuicPkt} (registered : Registered s)
    (h : step s (.stream cnx streamId bytes fin malloc) = some s') :
    Registered s' := by
  simp only [step, Option.ite_none_right_eq_some, Option.some.injEq] at h
  obtain ⟨isOpen, rfl⟩ := h
  cases found : findSessionByCnx s.core cnx with
  | none =>
    -- an open connection has a record
    have absent := findSessionByCnx_none found
    rw [registered.records cnx, if_pos isOpen] at absent
    cases absent
  | some slot =>
    obtain ⟨ses, there, rfl⟩ := findSessionByCnx_some found
    have sessions := pushAt_sessions there malloc ⟨streamId, bytes, fin⟩
    refine registered.requeue there (protQueuePush malloc ses.incPkts ⟨streamId, bytes, fin⟩) ?_ rfl
      ?_ ?_
    · cases fin <;> simpa [quicCoreCb, found] using sessions
    · intro c other
      exact ⟨rfl, by simp [chunksOf_ne other]⟩
    · have before := registered.queues ses (List.mem_of_getElem? there)
      simp [contents_protQueuePush, ← before]

theorem recv_registered (registered : Registered s) (h : step s (.recv slot) = some s') :
    Registered s' := by
  obtain ⟨⟨⟨c, pkt⟩, core⟩, received, rfl⟩ := Option.map_eq_some_iff.mp h
  obtain ⟨ses, queue, there, rfl, contents, sessions⟩ := quicRecv_eq_some received
  refine registered.requeue there queue sessions rfl ?_ ?_
  · intro c other
    exact ⟨by simp [chunksOf_ne other], rfl⟩
  · have before := registered.queues ses (List.mem_of_getElem? there)
    simpa [contents] using before

/-- The end of a connection takes its record away exactly if that is the first. -/
theorem close_registered_iff {reset : Bool} (registered : Registered s)
    (h : step s (.close cnx reset) = some s') :
    Registered s' ↔ ClosesFirst s (.close cnx reset) := by
  simp only [step, Option.ite_none_right_eq_some, Option.some.injEq] at h
  obtain ⟨isOpen, rfl⟩ := h
  have stays : (quicCoreCb (fun _ => zeroPkt) s.core cnx 0 []
      (if reset then .statelessReset else .close)).sessions
      = (quicUnregisterSession s.core cnx).sessions := by
    cases reset <;> rfl
  have one := registered.records cnx
  rw [if_pos isOpen] at one
  simp only [ClosesFirst, isOpen, true_implies]
  cases sessions : s.core.sessions with
  | nil => simp [sessions] at one
  | cons first rest =>
    rw [sessions, List.map_cons] at one
    by_cases here : first.cnx = cnx
    · refine iff_of_true ?_ (by simp [here])
      -- the loop finds the record in its first turn, and takes it away
      have rest_ : (quicUnregisterSession s.core cnx).sessions = rest := by
        simp [quicUnregisterSession, sessions, here]
      constructor
      · intro c
        have old := registered.records c
        rw [sessions, List.map_cons] at old
        simp only [stays, rest_, List.mem_filter]
        by_cases same : c = cnx
        · subst same
          simpa [here] using one
        · rw [List.count_cons_of_ne (fun eq => same (eq.symm.trans here))] at old
          simpa [same] using old
      · intro ses member
        rw [stays, rest_] at member
        exact registered.queues ses (sessions ▸ List.mem_cons_of_mem _ member)
    · refine iff_of_false ?_ (by simpa using here)
      intro registered'
      have none_ := registered'.records cnx
      -- it stops behind its first turn, so the record stays although the connection is gone
      have left : (quicUnregisterSession s.core cnx).sessions = first :: rest := by
        simp [quicUnregisterSession, sessions, here]
      simp only [stays, left, List.map_cons, one] at none_
      simp at none_

theorem step_registered_iff (known : Known s) (registered : Registered s) (h : step s a = some s') :
    Registered s' ↔ ClosesFirst s a := by
  cases a with
  | ready cnx => exact iff_of_true (ready_registered known registered h) trivial
  | stream => exact iff_of_true (stream_registered registered h) trivial
  | close => exact close_registered_iff registered h
  | other cnx => cases h; exact iff_of_true registered trivial
  | recv slot => exact iff_of_true (recv_registered registered h) trivial

/-- In all states of a run the records are those of the open connections with their chunks,
    exactly if each connection that ends has the first record at that time. -/
theorem registry_iff_closes_first (as : List (QuicAction κ)) :
    (∀ bs, bs <+: as → ∀ s, Transition.run step (Registry.init : Registry κ) bs = some s →
      Registered s) ↔
      Transition.Meets step ClosesFirst (Registry.init : Registry κ) as := by
  refine Transition.always_iff_meets_where (fun _ _ _ => step_known)
    ?_ (fun _ _ _ => step_registered_iff) ?_ ?_
  · intro s a bad
    cases a with
    | close cnx reset => exact ⟨_, if_pos (Classical.not_imp.mp bad).1⟩
    | ready | stream | other | recv => exact absurd trivial bad
  · exact ⟨by simp [Registry.init], by simp [Registry.init], by simp [Registry.init],
      by simp [Registry.init, quicServInit]⟩
  · exact ⟨by simp [Registry.init, quicServInit], by simp [Registry.init, quicServInit]⟩

/-- Two clients, of which the second leaves first: its record stays. -/
theorem second_client_stays :
    ∃ s, Transition.run step (Registry.init : Registry Nat) [.ready 1, .ready 2, .close 2 false]
      = some s ∧
      s.opened = [1] ∧ s.core.sessions.map (·.cnx) = [1, 2] ∧ ¬ Registered s := by
  refine ⟨_, rfl, rfl, rfl, fun registered => ?_⟩
  exact absurd (registered.records 2) (by decide)

end Soter2.Quic
