import Mathlib.Data.List.Basic
import Mathlib.Tactic.Common
import Soter2.Stating.Server

/-! # The silence of the state server (`stating/src/server.c`)

The unused cells of the queue are zero bytes until it grows, and count as other peers.  More
than eight peers do not fit in a packet.

* `server_silent` — how often a peer has to ask before it is sent a packet.
-/

namespace Soter2.Base

open ProtQueue

variable {α : Type*}

/-- Of the first cells, those that are not in use are as they were at the start. -/
structure Untouched [DecidableEq α] (zero : α) (q : ProtQueue α) : Prop where
  long : initialLen ≤ q.cells.length
  fresh : initialLen ≤ q.count + q.spare.count zero

theorem untouched_create [DecidableEq α] (zero : α) : Untouched zero (protQueueCreate zero) := by
  have cells := contents_append_spare (protQueueCreate zero)
  rw [show (protQueueCreate zero).contents = [] from rfl, List.nil_append,
    show (protQueueCreate zero).head = 0 from rfl, List.rotate_zero] at cells
  constructor
  case long => exact Nat.le_of_eq List.length_replicate.symm
  case fresh =>
    rw [cells, show (protQueueCreate zero).cells = List.replicate initialLen zero from rfl,
      List.count_replicate_self]
    exact Nat.le_add_left _ _

theorem Untouched.push [DecidableEq α] {zero : α} {q : ProtQueue α} (h : Untouched zero q)
    (malloc : Nat → α) (elem : α) : Untouched zero (protQueuePushUnsafe malloc q elem) := by
  have long := h.long
  have fresh := h.fresh
  have count : (protQueuePushUnsafe malloc q elem).count = q.count + 1 := by
    rw [← length_contents, contents_protQueuePushUnsafe, List.length_append, length_contents,
      List.length_singleton]
  by_cases free : q.count < q.cells.length
  · have same : makeRoom malloc q = q := if_neg (by omega)
    constructor
    case long => simpa [protQueuePushUnsafe, same] using long
    case fresh =>
      have tail := List.le_count_tail (a := zero) (l := q.spare)
      rw [count, spare_protQueuePushUnsafe malloc elem free]
      omega
  · -- a queue that grows holds more than it had cells at the start
    have bounded := (protQueuePushUnsafe malloc q elem).bounded
    have full := q.bounded
    exact ⟨by omega, by omega⟩

theorem Untouched.upush [DecidableEq α] {zero : α} {q : ProtQueue α} (h : Untouched zero q)
    (malloc : Nat → α) (elem : α) : Untouched zero (protQueueUpush malloc q elem) := by
  rw [protQueueUpush]
  split
  · exact h
  · exact h.push malloc elem

end Soter2.Base

namespace Soter2.Stating

open Soter2.Base
open Soter2.E2ee (Sodium toySodium)
open Soter2.Protocol

variable {sodium : Sodium} {pending : ProtQueue ServerRequest} {history : List Incoming}
    {m : Incoming}
  {r : StateRequest}

/-- Which requests a server keeps of a peer is at most what it accepted of it. -/
theorem served_untouched {pending : ProtQueue ServerRequest}
    (running : served sodium history = some pending) (uid : UInt32) :
    Untouched ServerRequest.zero pending ∧
      pending.contents.countP (·.r.uid = uid) ≤ (history.filterMap (received sodium)).countP
        (·.uid = uid) := by
  induction history using List.reverseRecOn generalizing pending with
  | nil =>
    obtain rfl := Option.some.inj running
    exact ⟨untouched_create _, Nat.le_refl _⟩
  | append_singleton history m ih =>
    obtain ⟨before, reached, last⟩ := Transition.run_append.mp running
    obtain ⟨untouched, counted⟩ := ih reached
    obtain ⟨after, kept, same⟩ := Transition.run_cons.mp last
    obtain rfl := Option.some.inj same
    obtain ⟨outcome, handled, rfl⟩ := Option.map_eq_some_iff.mp kept
    rw [List.filterMap_append, List.countP_append]
    cases h : received sodium m with
    | none =>
      -- a message that is no request leaves the queue alone
      rw [stateHandler_rejected h handled]
      exact ⟨untouched, Nat.le_add_right_of_le counted⟩
    | some r =>
      obtain ⟨records, -, rfl⟩ := (stateHandler_received h).mp handled
      refine ⟨untouched.upush _ _, ?_⟩
      rw [contents_protQueueUpush]
      split
      · omega
      · rw [List.countP_append, List.filterMap_cons, h]
        simpa [List.countP_cons, List.countP_nil] using counted

/-- The cells that count as other peers are too many for a packet, unless most are in use for
    the peer itself. -/
theorem listed_many {uid : UInt32} (untouched : Untouched ServerRequest.zero pending)
    (nonzero : uid ≠ 0)
    (few : pending.contents.countP (·.r.uid = uid) < 1016) : 8 < (listed pending uid).length := by
  have cells := (listed_perm pending uid).length_eq
  have zeros : pending.spare.count ServerRequest.zero
      ≤ (pending.spare.filter fun sr => sr.r.uid ≠ uid).length := by
    rw [← List.countP_eq_length_filter]
    refine List.countP_mono_left fun sr _ zero => ?_
    have same : sr = ServerRequest.zero := by simpa using zero
    rw [same]
    exact decide_eq_true nonzero.symm
  have parts : pending.count
      = pending.contents.countP (·.r.uid = uid) + pending.contents.countP (·.r.uid ≠ uid) := by
    rw [← ProtQueue.length_contents, List.length_eq_countP_add_countP
      (fun sr : ServerRequest => sr.r.uid = uid)]
    simp
  have fresh := untouched.fresh
  rw [List.length_append, others, ← List.countP_eq_length_filter] at cells
  rw [initialLen] at fresh
  omega

/-- A peer is sent no packet until 1016 of its earlier requests were accepted. -/
theorem server_silent (history : List Incoming) (m : Incoming) (r : StateRequest)
    (request : received sodium m = some r) (nonzero : r.uid ≠ 0)
    (few : (history.filterMap (received sodium)).countP (·.uid = r.uid) < 1016) :
    ∀ pending outcome, served sodium history = some pending →
      stateHandler sodium pending m = some outcome →
      outcome.sent = some (none, m.nfd) := by
  intro pending outcome running handled
  obtain ⟨untouched, counted⟩ := served_untouched running r.uid
  exact sent_of_many request (listed_many untouched nonzero (Nat.lt_of_le_of_lt counted few))
    handled

/-- The second request of a peer is not answered either. -/
theorem server_silent_again :
    (∃ pending, served toySodium [sampleIncoming 1] = some pending ∧
      (stateHandler toySodium pending (sampleIncoming 1)).isSome) ∧
    ∀ pending outcome, served toySodium [sampleIncoming 1] = some pending →
      stateHandler toySodium pending (sampleIncoming 1) = some outcome →
        outcome.sent = some (none, (sampleIncoming 1).nfd) := by
  constructor
  · have terminated : ∀ m ∈ [sampleIncoming 1], m.Terminated toySodium :=
      List.forall_mem_singleton.mpr (sampleIncoming_terminated 1)
    obtain ⟨pending, running, cells⟩ := served_of_terminated terminated
    have kept := keep_of_terminated (received_sampleIncoming 1) cells
    obtain ⟨outcome, handled, -⟩ := Option.map_eq_some_iff.mp kept
    exact ⟨pending, running, Option.isSome_of_eq_some handled⟩
  · refine server_silent [sampleIncoming 1] (sampleIncoming 1) (sampleRequest 1)
      (received_sampleIncoming 1)
      (by decide) ?_
    have one : [sampleIncoming 1].filterMap (received toySodium) = [sampleRequest 1] := by
      rw [List.filterMap_cons, received_sampleIncoming]
      rfl
    rw [one]
    decide

end Soter2.Stating
