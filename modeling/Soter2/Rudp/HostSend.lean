import Mathlib.Data.List.Basic
import Mathlib.Tactic.Common
import Soter2.Base.DynArray
import Soter2.Library.Transition
import Soter2.Rudp.Connection

/-! # Sending where memory can run out (`rudp_conn_send`)

`rudp_conn_send` hands the packet to the sender before it has a place for it among the
pending packets.

* `rudpConnSendAlloc_allocated` — with enough memory this is `rudpConnSend`.
* `send_atomic_iff` — when a call either sends and records the packet or does nothing.
-/

namespace Soter2.Rudp

open Protocol
open Soter2.Base (DynArray dynArrayPush)

/-- A connection with the block that its pending packets lie in. -/
structure HostConn where
  conn : RudpConnection
  head : Nat
  room : conn.pktsFhost.length < head

/-- What the allocations of a call return. -/
structure Allocations where
  copied : Bool
  grown : Bool
deriving DecidableEq

/-- What a call returned, left behind, and handed to `pvd_sender_send`. -/
structure Called where
  code : Int
  conn : HostConn
  passed : List Protopack

namespace HostConn

def fhost (c : HostConn) : DynArray RudpPendingPkt := ⟨c.conn.pktsFhost, c.head, c.room⟩

/-- The connection with a packet more among the pending ones. -/
def record (c : HostConn) (fhost : DynArray RudpPendingPkt) : HostConn where
  conn := { c.conn with
    pktsFhost := fhost.elements
    currentSeq := c.conn.currentSeq + 1 }
  head := fhost.head
  room := fhost.room

@[simp] theorem conn_record (c : HostConn) (fhost : DynArray RudpPendingPkt) :
    (c.record fhost).conn =
    { c.conn with pktsFhost := fhost.elements, currentSeq := c.conn.currentSeq + 1 } := rfl

end HostConn

/-- `rudp_conn_send`.  For a packet that cannot be copied there is no result: `udp_copy_pack`
    writes to the address that `malloc` returned. -/
def rudpConnSendAlloc (al : Allocations) (c : HostConn) (pkt : Protopack) (nowMs : Int) :
    Option Called :=
  if c.conn.closed then some ⟨enotconn, c, []⟩
  else if c.conn.pktsFhost.length ≥ rudpSendWindow then some ⟨eagain, c, []⟩
  else if al.copied = false then none
  else
    let packCopy := { udpCopyPack pkt with seq := c.conn.currentSeq }
    let pending := { rudpPktMake packCopy .inited c.conn.currentSeq nowMs with
      state := .sent
      sendTimestamp := nowMs }
    match dynArrayPush al.grown c.fhost pending with
    | none => some ⟨-1, c, [packCopy]⟩
    | some fhost => some ⟨0, c.record fhost, [packCopy]⟩

variable {c : HostConn} {al : Allocations} {pkt : Protopack} {nowMs : Int}

/-- With enough memory the call is the one of the other modules. -/
theorem rudpConnSendAlloc_allocated (c : HostConn) (pkt : Protopack) (nowMs : Int) :
    (rudpConnSendAlloc ⟨true, true⟩ c pkt nowMs).map
      (fun called => (called.code, called.conn.conn, called.passed)) =
      some (rudpConnSend c.conn pkt nowMs) := by
  rw [rudpConnSendAlloc, rudpConnSend]
  by_cases shut : c.conn.closed = true
  · simp [shut]
  by_cases full : c.conn.pktsFhost.length ≥ rudpSendWindow
  · simp [shut, full]
  rw [if_neg shut, if_neg full, if_neg shut, if_neg full]
  simp only [Bool.true_eq_false, if_false]
  split
  next failed => exact absurd (Base.dynArrayPush_eq_none.mp failed).2 (by decide)
  next fhost pushed =>
    simp only [Option.map_some, HostConn.conn_record, Base.elements_dynArrayPush pushed,
      HostConn.fhost]

/-- A call returns; where it returns 0, one packet with the next number was handed over and is
    pending, and the number is used up; elsewhere nothing was handed over and nothing has
    changed. -/
def Atomic (c : HostConn) (result : Option Called) : Prop :=
  ∃ called, result = some called ∧
    (called.code = 0 → ∃ pending : RudpPendingPkt, called.passed = [pending.copyPack] ∧
      pending.copyPack.seq = c.conn.currentSeq ∧ pending.seq = c.conn.currentSeq ∧
      called.conn.conn = { c.conn with
        pktsFhost := c.conn.pktsFhost ++ [pending]
        currentSeq := c.conn.currentSeq + 1 }) ∧
    (called.code ≠ 0 → called.passed = [] ∧ called.conn.conn.currentSeq = c.conn.currentSeq ∧
      called.conn.conn.pktsFhost = c.conn.pktsFhost)

/-- The packet is refused, or it can be copied and there is a place for it. -/
def Provided (c : HostConn) (al : Allocations) : Prop :=
  c.conn.closed = true ∨ rudpSendWindow ≤ c.conn.pktsFhost.length ∨
    al.copied = true ∧ (c.conn.pktsFhost.length + 1 < c.head ∨ al.grown = true)

theorem rudpConnSendAlloc_refused (al : Allocations) (pkt : Protopack) (nowMs : Int)
    (refused : c.conn.closed = true ∨ rudpSendWindow ≤ c.conn.pktsFhost.length) :
    ∃ code, code ≠ 0 ∧ rudpConnSendAlloc al c pkt nowMs = some ⟨code, c, []⟩ := by
  rw [rudpConnSendAlloc]
  by_cases shut : c.conn.closed = true
  · exact ⟨enotconn, by decide, if_pos shut⟩
  · have full := refused.resolve_left shut
    exact ⟨eagain, by decide, by rw [if_neg shut, if_pos full]⟩

theorem fhost_full : c.fhost.Full ↔ ¬ c.conn.pktsFhost.length + 1 < c.head := by
  have := c.room
  simp only [DynArray.Full, HostConn.fhost]
  omega

/-- A packet that is not refused is sent and recorded where there is memory, sent and not
    recorded where there is no place for it, and not even copied without any memory. -/
theorem rudpConnSendAlloc_cases (al : Allocations) (pkt : Protopack) (nowMs : Int)
    (opened : c.conn.closed = false) (room : c.conn.pktsFhost.length < rudpSendWindow) :
    al.copied = false ∧ rudpConnSendAlloc al c pkt nowMs = none ∨
      al.copied = true ∧ (¬ c.conn.pktsFhost.length + 1 < c.head ∧ al.grown = false) ∧
        (∃ packCopy, rudpConnSendAlloc al c pkt nowMs = some ⟨-1, c, [packCopy]⟩) ∨
      al.copied = true ∧ (c.conn.pktsFhost.length + 1 < c.head ∨ al.grown = true) ∧
        ∃ (fhost : DynArray RudpPendingPkt) (pending : RudpPendingPkt), fhost.elements
          = c.conn.pktsFhost ++ [pending] ∧
          pending.copyPack.seq = c.conn.currentSeq ∧ pending.seq = c.conn.currentSeq ∧
          rudpConnSendAlloc al c pkt nowMs = some ⟨0, c.record fhost, [pending.copyPack]⟩ := by
  simp only [rudpConnSendAlloc, opened, Nat.not_le.mpr room, Bool.false_eq_true, if_false]
  cases copied : al.copied with
  | false => exact .inl ⟨rfl, rfl⟩
  | true =>
    right
    simp only [Bool.true_eq_false, if_false]
    split
    next failed =>
      -- the packet is sent before the push is tried
      obtain ⟨full, grown⟩ := Base.dynArrayPush_eq_none.mp failed
      exact .inl ⟨trivial, ⟨fhost_full.mp full, grown⟩, _, rfl⟩
    next fhost pushed =>
      refine .inr ⟨trivial, ?_, fhost, _, Base.elements_dynArrayPush pushed, rfl, rfl, rfl⟩
      by_contra nowhere
      obtain ⟨full, grown⟩ := not_or.mp nowhere
      rw [Base.dynArrayPush_eq_none.mpr ⟨fhost_full.mpr full, by simpa using grown⟩] at pushed
      cases pushed

theorem rudpConnSendAlloc_atomic_iff (c : HostConn) (al : Allocations) (pkt : Protopack)
    (nowMs : Int) : Atomic c (rudpConnSendAlloc al c pkt nowMs) ↔ Provided c al := by
  by_cases refused : c.conn.closed = true ∨ rudpSendWindow ≤ c.conn.pktsFhost.length
  · obtain ⟨code, failed, called⟩ := rudpConnSendAlloc_refused al pkt nowMs refused
    refine iff_of_true ?_ ?_
    · rw [called]
      exact ⟨_, rfl, fun accepted => absurd accepted failed, fun _ => ⟨rfl, rfl, rfl⟩⟩
    · exact refused.elim .inl (fun full => .inr (.inl full))
  · obtain ⟨opened, room⟩ := not_or.mp refused
    have provided : Provided c al ↔ al.copied = true ∧
        (c.conn.pktsFhost.length + 1 < c.head ∨ al.grown = true) := by
      rw [Provided, or_iff_right opened, or_iff_right room]
    rw [provided]
    obtain ⟨copied, called⟩ | ⟨copied, nowhere, packCopy, called⟩ |
        ⟨copied, place, fhost, pending, elements, seq, number, called⟩ :=
      rudpConnSendAlloc_cases al pkt nowMs (by simpa using opened) (Nat.lt_of_not_le room)
    · refine iff_of_false ?_ (by simp [copied])
      rw [called]
      rintro ⟨_, none, -⟩
      cases none
    · refine iff_of_false ?_ (by simp [nowhere])
      rw [called]
      -- it was handed over and the call returns -1
      rintro ⟨_, same, -, nothing⟩
      cases same
      exact absurd (nothing (show (-1 : Int) ≠ 0 by decide)).1 (List.cons_ne_nil _ _)
    · refine iff_of_true ?_ ⟨copied, place⟩
      rw [called]
      refine ⟨_, rfl, fun _ => ⟨pending, rfl, seq, number, ?_⟩, fun failed => absurd rfl failed⟩
      simp only [HostConn.conn_record, elements]

/-! ## The numbers on the wire -/

/-- A call of `rudp_conn_send`, or anything else that happens to the connection: nothing else
    writes `current_seq`. -/
inductive HostAction where
  | send (al : Allocations) (pkt : Protopack) (nowMs : Int)
  | other (c : HostConn)

namespace HostConn

def step (c : HostConn) : HostAction → Option HostConn
  | .send al pkt nowMs => (rudpConnSendAlloc al c pkt nowMs).map (·.conn)
  | .other c' => if c'.conn.currentSeq = c.conn.currentSeq then some c' else none

def passes (c : HostConn) : HostAction → List Protopack
  | .send al pkt nowMs => ((rudpConnSendAlloc al c pkt nowMs).map (·.passed)).getD []
  | .other _ => []

def ProvidedAction (c : HostConn) : HostAction → Prop
  | .send al _ _ => Provided c al
  | .other _ => True

/-- What was handed over is numbered from `start` on, up to the current number. -/
structure Numbered (start : UInt32) (out : List Protopack) (c : HostConn) : Prop where
  next : c.conn.currentSeq = start + UInt32.ofNat out.length
  seqs : ∀ i p, out[i]? = some p → p.seq = start + UInt32.ofNat i

theorem Numbered.concat {start : UInt32} {out : List Protopack} {c c' : HostConn} {p : Protopack}
    (h : Numbered start out c) (seq : p.seq = c.conn.currentSeq)
    (next : c'.conn.currentSeq = c.conn.currentSeq + 1) : Numbered start (out ++ [p]) c' where
  next := by
    rw [next, h.next, List.length_append, List.length_singleton, Serial.ofNat_succ,
      UInt32.add_assoc]
  seqs := by
    intro i q found
    rw [List.getElem?_append] at found
    split at found
    next => exact h.seqs i q found
    next beyond =>
      have last : i = out.length := by
        have inside := (List.getElem?_eq_some_iff.mp found).1
        simp at inside
        omega
      rw [last, Nat.sub_self, List.getElem?_cons_zero, Option.some.injEq] at found
      rw [← found, seq, h.next, last]

theorem step_numbered {start : UInt32} {out : List Protopack} {c c' : HostConn} {a : HostAction}
    (inv : Numbered start out c) (provided : c.ProvidedAction a) (h : step c a = some c') :
    Numbered start (out ++ c.passes a) c' := by
  cases a with
  | send al pkt nowMs =>
    obtain ⟨called, returned, accepted, refused⟩ :=
      (rudpConnSendAlloc_atomic_iff c al pkt nowMs).mpr provided
    simp only [step, passes, returned, Option.map_some, Option.some.injEq, Option.getD_some] at h ⊢
    subst h
    -- a call either sends and takes a number, or does neither
    by_cases code : called.code = 0
    · obtain ⟨pending, handed, seq, -, recorded⟩ := accepted code
      rw [handed]
      exact inv.concat seq (by rw [recorded])
    · obtain ⟨handed, same, -⟩ := refused code
      rw [handed, List.append_nil]
      exact ⟨same.trans inv.next, inv.seqs⟩
  | other =>
    simp only [step, Option.ite_none_right_eq_some, Option.some.injEq] at h
    obtain ⟨same, rfl⟩ := h
    rw [passes, List.append_nil]
    exact ⟨same.trans inv.next, inv.seqs⟩

end HostConn

/-- A call is atomic exactly if the packet is refused or there is memory for it; and where all
    calls of a run are, what they handed over has the numbers one after the other, so that none
    is used twice before the counter comes round. -/
theorem send_atomic_iff (c : HostConn) :
    (∀ al pkt nowMs, Atomic c (rudpConnSendAlloc al c pkt nowMs) ↔ Provided c al) ∧
      ∀ (as : List HostAction) (t : HostConn), Transition.run HostConn.step c as = some t →
        Transition.Meets HostConn.step HostConn.ProvidedAction c as →
        let out := Transition.emitted HostConn.step HostConn.passes c as
        (∀ i p, out[i]? = some p → p.seq = c.conn.currentSeq + UInt32.ofNat i) ∧
          t.conn.currentSeq = c.conn.currentSeq + UInt32.ofNat out.length := by
  refine ⟨rudpConnSendAlloc_atomic_iff c, fun as t reached meets => ?_⟩
  have start : HostConn.Numbered c.conn.currentSeq [] c := ⟨by simp, by simp⟩
  have numbered := Transition.emitted_invariant_where (fun _ _ _ _ => HostConn.step_numbered) start
    meets reached
  rw [List.nil_append] at numbered
  exact ⟨numbered.seqs, numbered.next⟩

def freshHost : HostConn := ⟨rudpConnNew 1 2 0, 1, Nat.zero_lt_one⟩

def dataPack (payload : List UInt8) : Protopack :=
  { seq := 0, chsum := 0, dSize := UInt32.ofNat payload.length, hFrom := 1, hTo := 2,
    packtype := ProtopackType.data.code, data := payload }

/-- The first call finds no memory for its entry, the second one does: number 0 is on the wire
    with both payloads. -/
theorem failed_send_reuses_number :
    ¬ Atomic freshHost (rudpConnSendAlloc ⟨true, false⟩ freshHost (dataPack [65]) 0) ∧
      (rudpConnSendAlloc ⟨true, false⟩ freshHost (dataPack [65]) 0).map (·.code) = some (-1) ∧
      (Transition.emitted HostConn.step HostConn.passes freshHost
        [.send ⟨true, false⟩ (dataPack [65]) 0, .send ⟨true, true⟩ (dataPack [66]) 0]).map
          (fun p => (p.seq, p.data)) =
          [(0, [65]), (0, [66])] := by
  refine ⟨?_, rfl, rfl⟩
  rintro ⟨called, returned, -, nothing⟩
  cases returned
  exact absurd (nothing (by decide)).1 (List.cons_ne_nil _ _)

end Soter2.Rudp
