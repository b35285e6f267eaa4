import Mathlib.Data.List.Basic
import Mathlib.Tactic.Common
import Soter2.Base.Events
import Soter2.Library.Transition
import Soter2.Lownet.Netfd
import Soter2.Protocol.Wire

/-! # The sender thread (`providers/src/sender.c`)

`pvd_sender_send` queues a copy of a packet, and the worker encodes and sends the queued
packets one after the other, as many as there are each time it wakes up.

* `sender_exactly_once` — over every interleaving the datagrams sent are the encodings of the
  packets accepted, in order and without a gap, and none is missing when the worker blocks.
-/

namespace Soter2.Providers

open Base Lownet Protocol

/-- `pvd_sender_pack_t`. -/
structure SenderPack where
  pack : Protopack
  dest : NnetFd
deriving DecidableEq

abbrev Datagram := List UInt8 × NnetFd

/-- What a queued packet is sent as; `none` where it is dropped as too large. -/
def datagram (ppkt : SenderPack) : Option Datagram :=
  (pvdSenderWorker ppkt.pack).map fun buf => (buf, ppkt.dest)

inductive SenderPc where
  /-- In front of the `poll` of `mt_evsock_wait`. -/
  | waiting
  /-- In front of the `read` of `mt_evsock_wait`. -/
  | reading
  | popping
  | sending (ppkt : SenderPack)
  | exited
deriving DecidableEq

/-- The sender, with the packets that callers of `pvd_sender_send` had accepted and the
    datagrams that went to `ln_usock_send`. -/
structure PvdSender where
  packets : Mailbox SenderPack
  isRunning : Bool
  pc : SenderPc
  accepted : List SenderPack
  sent : List Datagram

def pvdSenderNew (zero : SenderPack) : PvdSender := ⟨Mailbox.create zero, true, .waiting, [], []⟩

/-- The next step of `pvd_sender_worker`, when no proxy is set. -/
def pvdSenderStep (s : PvdSender) : Option PvdSender :=
  match s.pc with
  | .waiting =>
    if s.isRunning = false then some { s with pc := .exited }
    else if s.packets.readable then some { s with pc := .reading }
    -- the time is up, and the loop starts again
    else some s
  | .reading => some { s with packets := s.packets.drain, pc := .popping }
  | .popping =>
    match s.packets.pop with
    | some (ppkt, packets) => some { s with packets := packets, pc := .sending ppkt }
    | none => some { s with pc := .waiting }
  | .sending ppkt => some { s with sent := s.sent ++ (datagram ppkt).toList, pc := .popping }
  | .exited => none

inductive SenderAction where
  /-- `pvd_sender_send` up to the notification. -/
  | push (packet : Protopack) (dest : NnetFd) (malloc : Nat → SenderPack)
  | notify
  | work
  /-- The `atomic_store` of `pvd_sender_end`. -/
  | stop

def step (s : PvdSender) : SenderAction → Option PvdSender
  | .push packet dest malloc =>
    some { s with
      packets := s.packets.push malloc ⟨udpCopyPack packet, dest⟩
      accepted := s.accepted ++ [⟨packet, dest⟩] }
  | .notify => s.packets.notify.map fun packets => { s with packets := packets }
  | .work => pvdSenderStep s
  | .stop => some { s with isRunning := false }

/-- The packet comes from `udp_make_pack`. -/
def Built (packet : Protopack) : Prop :=
  ∃ sequenceN hashFrom hashTo type payload payloadSize,
    udpMakePack sequenceN hashFrom hashTo type payload payloadSize = some packet

/-- The packets that are passed come from `udp_make_pack`. -/
def PassesBuilt : SenderAction → Prop
  | .push packet _ _ => Built packet
  | .notify | .work | .stop => True

namespace PvdSender

/-- The worker is in front of a `poll` that blocks, and no caller of `pvd_sender_send` is
    between its push and its notification. -/
def AboutToBlock (s : PvdSender) : Prop :=
  s.pc = .waiting ∧ s.isRunning = true ∧ s.packets.view.Quiet

/-- The packets accepted and not yet sent, oldest first. -/
def pending (s : PvdSender) : List SenderPack :=
  match s.pc with
  | .sending ppkt => ppkt :: s.packets.queue.contents
  | .waiting | .reading | .popping | .exited => s.packets.queue.contents

structure Inv (s : PvdSender) : Prop where
  /-- What was sent and what is pending are what was accepted. -/
  complete : s.sent.map some ++ s.pending.map datagram = s.accepted.map datagram
  encodes : ∀ ppkt ∈ s.pending, (datagram ppkt).isSome
  announced : s.pc = .waiting → s.packets.view.Covered

end PvdSender

open PvdSender

/-! ## The encoding -/

/-- The worker encodes the copy as it would the packet. -/
theorem pvdSenderWorker_copy (packet : Protopack) :
    pvdSenderWorker (udpCopyPack packet) = pvdSenderWorker packet := by
  have image : ∀ pk : Protopack, { pk with data := packet.payload }.image.take
    (sizeofProtopack + packet.dSize.toNat)
      = { pk with data := packet.data }.image.take (sizeofProtopack + packet.dSize.toNat) := by
    intro pk
    have header : ∀ data, ({ pk with data := data } : Protopack).image
      = { pk with data := [] }.image ++ data := by
      intro data
      simp [Protopack.image]
    have length : ({ pk with data := [] } : Protopack).image.length = sizeofProtopack := by
      simp [length_image]
    rw [header packet.payload, header packet.data, List.take_append, List.take_append, length,
      Nat.add_sub_cancel_left, Protopack.payload, List.take_take, Nat.min_self]
  have same := image { packet with
    seq := htonl packet.seq, dSize := htonl packet.dSize, hFrom := htonl packet.hFrom,
      hTo := htonl packet.hTo,
    chsum := 0 }
  exact congrArg (fun buf => if sizeofProtopack + packet.dSize.toNat > 2048 then none
    else some (setChsum buf (htonl (crc32 buf)))) same

theorem built_encodes {packet : Protopack} (built : Built packet) (dest : NnetFd) :
    (datagram ⟨packet, dest⟩).isSome := by
  obtain ⟨sequenceN, hashFrom, hashTo, type, payload, payloadSize, made⟩ := built
  simp only [udpMakePack, Option.ite_none_left_eq_some, Nat.not_lt, Option.some.injEq] at made
  obtain ⟨fits, rfl⟩ := made
  have size := toNat_ofNat_fits fits
  have small : ¬ sizeofProtopack + payloadSize > 2048 := by
    unfold udpMtu at fits
    omega
  simp [datagram, pvdSenderWorker, size, small]

@[simp] theorem datagram_copy (packet : Protopack) (dest : NnetFd) :
    datagram ⟨udpCopyPack packet, dest⟩ = datagram ⟨packet, dest⟩ := by
  rw [datagram, datagram, pvdSenderWorker_copy]

/-! ## The invariant -/

variable {s s' : PvdSender} {a : SenderAction}

theorem pvdSenderNew_inv (zero : SenderPack) : (pvdSenderNew zero).Inv where
  complete := rfl
  encodes := by simp [pending, pvdSenderNew, Mailbox.create]
  announced := fun _ => EventQueue.State.covered_of_empty rfl

theorem work_inv (inv : s.Inv) (h : pvdSenderStep s = some s') : s'.Inv := by
  obtain ⟨complete, encodes, announced⟩ := inv
  cases pc : s.pc with
  | waiting =>
    simp only [pvdSenderStep, pc] at h
    -- between the poll and the end of the loop no announcement is owed
    simp only [pending, pc] at complete encodes
    split at h
    · cases h; exact ⟨complete, encodes, nofun⟩
    · split at h
      · cases h; exact ⟨complete, encodes, nofun⟩
      · cases h; exact ⟨by rw [pending, pc]; exact complete, by rw [pending, pc]; exact encodes,
          announced⟩
  | reading =>
    simp only [pvdSenderStep, pc, Option.some.injEq] at h
    subst h
    simp only [pending, pc] at complete encodes
    exact ⟨complete, encodes, nofun⟩
  | popping =>
    simp only [pvdSenderStep, pc] at h
    simp only [pending, pc] at complete encodes
    split at h
    next ppkt packets popped =>
      cases h
      have items : s.packets.queue.contents = ppkt :: packets.queue.contents :=
        (Mailbox.view_of_pop popped).1
      rw [items] at complete encodes
      exact ⟨complete, encodes, nofun⟩
    next popped =>
      cases h
      exact ⟨complete, encodes, fun _ =>
        EventQueue.State.covered_of_empty (Mailbox.pop_eq_none.mp popped)⟩
  | sending ppkt =>
    simp only [pvdSenderStep, pc, Option.some.injEq] at h
    subst h
    simp only [pending, pc] at complete encodes
    obtain ⟨here, rest⟩ := List.forall_mem_cons.mp encodes
    -- a packet that can be encoded leaves as one datagram
    obtain ⟨dg, encoded⟩ := Option.isSome_iff_exists.mp here
    refine ⟨?_, rest, nofun⟩
    simpa [pending, encoded] using complete
  | exited => simp [pvdSenderStep, pc] at h

theorem pending_push (malloc : Nat → SenderPack) (s : PvdSender) (ppkt : SenderPack)
    (accepted : List SenderPack) :
    pending { s with packets := s.packets.push malloc ppkt, accepted := accepted } = s.pending ++
      [ppkt] := by
  simp only [pending, Mailbox.push, contents_protQueuePush]
  split <;> simp_all

theorem step_inv (inv : s.Inv) (built : PassesBuilt a) (h : step s a = some s') : s'.Inv := by
  cases a with
  | push packet dest malloc =>
    cases h
    refine ⟨?_, ?_, fun _ => ?_⟩
    · rw [pending_push]
      simp [← inv.complete, ← List.append_assoc]
    · intro ppkt member
      rw [pending_push] at member
      cases List.mem_append.mp member with
      | inl old => exact inv.encodes ppkt old
      | inr new =>
        obtain rfl := List.mem_singleton.mp new
        rw [datagram_copy]
        exact built_encodes built dest
    · rw [Mailbox.view_push]
      exact EventQueue.State.covered_push _ _
  | notify =>
    obtain ⟨packets, notified, rfl⟩ := Option.map_eq_some_iff.mp h
    -- a notification covers whatever is in the queue
    have covered : packets.view.Covered := by
      rw [(Mailbox.view_notify notified).2]
      exact EventQueue.State.covered_notify _
    obtain ⟨-, rfl⟩ := Mailbox.notify_eq_some.mp notified
    exact ⟨inv.complete, inv.encodes, fun _ => covered⟩
  | work => exact work_inv inv h
  | stop => cases h; exact ⟨inv.complete, inv.encodes, inv.announced⟩

/-- Over every interleaving of callers with the worker, what was sent are the encodings of the
    packets accepted so far, in the order of their pushes and up to one of them; and it is all
    of them when the worker is about to block. -/
theorem sender_exactly_once (zero : SenderPack) (as : List SenderAction)
    (built : ∀ a ∈ as, PassesBuilt a) (s : PvdSender)
    (reached : Transition.run step (pvdSenderNew zero) as = some s) :
    s.sent.map some <+: s.accepted.map datagram ∧
      (s.AboutToBlock → s.sent.map some = s.accepted.map datagram) := by
  have inv : s.Inv := Transition.run_invariant_where (fun _ _ _ => step_inv) (pvdSenderNew_inv zero)
    (Transition.meets_of_mem built _) reached
  refine ⟨⟨_, inv.complete⟩, fun blocks => ?_⟩
  obtain ⟨waiting, -, quiet⟩ := blocks
  have empty : s.packets.queue.contents = [] := (inv.announced waiting).empty quiet
  have complete := inv.complete
  simpa [pending, waiting, empty] using complete

def samplePing (seq : UInt32) : Protopack :=
  { seq := seq, chsum := 0, dSize := 0, hFrom := 7, hTo := 1, packtype := ProtopackType.ping.code,
    data := [] }

def sampleFd : NnetFd := ⟨0, .unspec, 0⟩

def samplePack : SenderPack := ⟨samplePing 0, sampleFd⟩

/-- Two callers, the second of which pushes before the first has notified. -/
def twoCallers : List SenderAction :=
  [.push (samplePing 1) sampleFd fun _ => samplePack, .push (samplePing 2) sampleFd fun _ =>
    samplePack, .notify,
    .work, .work, .notify, .work, .work, .work, .work, .work, .work, .work, .work]

theorem sender_exactly_once_twoCallers :
    (∀ a ∈ twoCallers, PassesBuilt a) ∧
    ∃ s, Transition.run step (pvdSenderNew samplePack) twoCallers = some s ∧ s.AboutToBlock ∧
      s.sent.length = 2 ∧
      s.sent.map some <+: s.accepted.map datagram ∧
      (s.AboutToBlock → s.sent.map some = s.accepted.map datagram) := by
  have built : ∀ a ∈ twoCallers, PassesBuilt a := by
    have ping : ∀ seq, Built (samplePing seq) := fun seq => ⟨seq, 7, 1, .ping, none, 0, rfl⟩
    simp [twoCallers, PassesBuilt, ping]
  have outcome : (Transition.run step (pvdSenderNew samplePack) twoCallers).map (fun s =>
      (s.pc, s.isRunning, s.packets.event, s.packets.between, s.sent.length))
        = some (.waiting, true, 0, 0, 2) := by
    decide +kernel
  obtain ⟨s, reached, eq⟩ := Option.map_eq_some_iff.mp outcome
  simp only [Prod.mk.injEq] at eq
  obtain ⟨pc, running, event, between, sent⟩ := eq
  exact ⟨built, s, reached, ⟨pc, running, event, between⟩, sent,
    sender_exactly_once samplePack twoCallers built s reached⟩

end Soter2.Providers
