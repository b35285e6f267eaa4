import Mathlib.Data.List.Basic
import Mathlib.Data.List.Nodup
import Mathlib.Data.List.Range
import Mathlib.Tactic.Common
import Soter2.Rudp.Handler

/-! # The sending side of a connection

What is pending is known from two histories: the payloads for which `rudp_conn_send`
returned 0, and the numbers of the RACKs handled.  `SenderInv` says how, and is kept by
sending, by the timeouts and by every RACK for a packet that was sent.

* `send_inv`, `timeouts_inv`, `rack_inv` — the three operations keep the invariant.
* `rack_removes` — what a RACK takes off the pending packets.
-/

namespace Soter2.Rudp

open Protocol
open scoped List

/-! ## What each operation does -/

/-- The entry that `rudp_conn_send` adds for a packet. -/
def pendingOf (conn : RudpConnection) (pkt : Protopack) (nowMs : Int) : RudpPendingPkt :=
  { rudpPktMake { udpCopyPack pkt with seq := conn.currentSeq } .inited conn.currentSeq nowMs with
    state := .sent
    sendTimestamp := nowMs }

theorem rudpConnSend_accepted {conn : RudpConnection} (opened : conn.closed = false)
    (room : conn.pktsFhost.length < rudpSendWindow) (pkt : Protopack) (nowMs : Int) :
    rudpConnSend conn pkt nowMs = (0, { conn with
      pktsFhost := conn.pktsFhost ++ [pendingOf conn pkt nowMs]
      currentSeq := conn.currentSeq + 1 }, [(pendingOf conn pkt nowMs).copyPack]) := by
  rw [rudpConnSend, if_neg (by simp [opened]), if_neg (Nat.not_le.mpr room)]
  rfl

/-- `rudp_conn_send` refuses and changes nothing, or accepts. -/
theorem rudpConnSend_pending (conn : RudpConnection) (pkt : Protopack) (nowMs : Int) :
    (∃ ret, ret ≠ 0 ∧ rudpConnSend conn pkt nowMs = (ret, conn, [])) ∨
      conn.closed = false ∧ conn.pktsFhost.length < rudpSendWindow ∧
        rudpConnSend conn pkt nowMs = (0, { conn with
          pktsFhost := conn.pktsFhost ++ [pendingOf conn pkt nowMs]
          currentSeq := conn.currentSeq + 1 }, [(pendingOf conn pkt nowMs).copyPack]) := by
  by_cases shut : conn.closed = true
  · exact .inl ⟨enotconn, by decide, by rw [rudpConnSend, if_pos shut]⟩
  · by_cases full : conn.pktsFhost.length ≥ rudpSendWindow
    · exact .inl ⟨eagain, by decide, by rw [rudpConnSend, if_neg shut, if_pos full]⟩
    · have opened : conn.closed = false := by simpa using shut
      exact .inr ⟨opened, Nat.lt_of_not_le full,
        rudpConnSend_accepted opened (Nat.lt_of_not_le full) pkt nowMs⟩

theorem rudpConnSend_cases (conn : RudpConnection) (pkt : Protopack) (nowMs : Int) :
    (∃ ret, ret ≠ 0 ∧ rudpConnSend conn pkt nowMs = (ret, conn, [])) ∨
      conn.closed = false ∧ conn.pktsFhost.length < rudpSendWindow ∧
        ∃ pending : RudpPendingPkt,
          pending.seq = conn.currentSeq ∧
          pending.copyPack = { udpCopyPack pkt with seq := conn.currentSeq } ∧
          rudpConnSend conn pkt nowMs =
            (0, { conn with
                pktsFhost := conn.pktsFhost ++ [pending]
                currentSeq := conn.currentSeq + 1 }, [pending.copyPack]) := by
  obtain refused | ⟨opened, room, accepted⟩ := rudpConnSend_pending conn pkt nowMs
  · exact .inl refused
  · exact .inr ⟨opened, room, pendingOf conn pkt nowMs, rfl, rfl, accepted⟩

namespace RudpPendingPkt

/-- What a retransmission leaves alone. -/
def carried (ppkt : RudpPendingPkt) : UInt32 × Protopack := (ppkt.seq, ppkt.copyPack)

end RudpPendingPkt

open RudpPendingPkt (carried)

/-- The invariant of the loop of `_rudp_conn_timeouts` started at `conn`. -/
structure TimeoutsInv (conn : RudpConnection) (s : TimeoutsLoop) : Prop where
  frame : s.conn = { conn with pktsFhost := s.conn.pktsFhost, closed := s.conn.closed }
  running : s.capped = false →
    s.conn.closed = conn.closed ∧ s.conn.pktsFhost.map carried = conn.pktsFhost.map carried
  stopped : s.capped = true → s.conn.closed = true ∧
    ∃ lost, conn.pktsFhost.map carried ~ lost :: s.conn.pktsFhost.map carried
  resent : ∀ p ∈ s.out, p ∈ conn.pktsFhost.map (·.copyPack)

theorem timeoutsBody_inv {conn : RudpConnection} {nowMs : Int} {s s' : TimeoutsLoop}
    (inv : TimeoutsInv conn s) (h : timeoutsBody nowMs s = some s') : TimeoutsInv conn s' := by
  simp only [timeoutsBody] at h
  split at h
  · cases h
  next going =>
    have going : s.capped = false := by simpa using going
    obtain ⟨same, pending⟩ := inv.running going
    split at h
    · cases h
    next pkt slot =>
      split at h
      next capHit =>
        -- the last packet takes the place of the one given up
        cases h
        refine ⟨by rw [inv.frame], by simp, fun _ => ⟨rfl, carried pkt, ?_⟩, inv.resent⟩
        rw [← pending]
        exact (SwapRemove.perm_swapRemove slot).map carried
      next =>
        split at h
        next due =>
          -- resending writes the time and the count, which `carried` does not see
          cases h
          refine ⟨by rw [inv.frame], fun _ => ⟨same, ?_⟩, by simp [going], ?_⟩
          · rw [← pending]
            apply List.ext_getElem?
            intro j
            simp only [List.getElem?_map, List.getElem?_set]
            by_cases here : s.i = j
            · subst here
              obtain ⟨bound, rfl⟩ := List.getElem?_eq_some_iff.mp slot
              simp [bound, carried]
            · simp [here]
          · intro p hp
            cases List.mem_append.mp hp with
            | inl old => exact inv.resent p old
            | inr new =>
              obtain rfl := List.mem_singleton.mp new
              have member := List.mem_map_of_mem (f := carried) (List.mem_of_getElem? slot)
              rw [pending] at member
              obtain ⟨q, hq, eq⟩ := List.mem_map.mp member
              exact List.mem_map.mpr ⟨q, hq, congrArg Prod.snd eq⟩
        next =>
          cases h
          exact ⟨inv.frame, inv.running, inv.stopped, inv.resent⟩

theorem timeoutsLoop_inv (conn : RudpConnection) (nowMs : Int) :
    TimeoutsInv conn (timeoutsLoop conn nowMs) :=
  Loop.run_invariant (fun _ _ => timeoutsBody_inv) _ ⟨rfl, fun _ => ⟨rfl, rfl⟩, by simp, by simp⟩

/-- What is pending after the loop was pending before it, under the same number. -/
theorem TimeoutsInv.carried_over {conn : RudpConnection} {s : TimeoutsLoop} (h : TimeoutsInv conn s)
    {ppkt : RudpPendingPkt} (pending : ppkt ∈ s.conn.pktsFhost) :
    ∃ old ∈ conn.pktsFhost, old.seq = ppkt.seq ∧ old.copyPack = ppkt.copyPack := by
  have member : carried ppkt ∈ conn.pktsFhost.map carried := by
    have after := List.mem_map_of_mem (f := carried) pending
    cases stop : s.capped with
    | false => exact (h.running stop).2 ▸ after
    | true =>
      obtain ⟨lost, removed⟩ := (h.stopped stop).2
      exact removed.mem_iff.mpr (List.mem_cons_of_mem _ after)
  obtain ⟨old, before, same⟩ := List.mem_map.mp member
  exact ⟨old, before, Prod.mk.inj same⟩

/-! ## The sender invariant -/

/-- One past the highest RACK handled, and 0 before the first. -/
def firstUnacked (racks : List UInt32) : Nat := racks.foldr (fun r n => max (r.toNat + 1) n) 0

theorem firstUnacked_append (racks : List UInt32) (r : UInt32) :
    firstUnacked (racks ++ [r]) = max (firstUnacked racks) (r.toNat + 1) := by
  induction racks with
  | nil => simp [firstUnacked]
  | cons q qs ih =>
    show max (q.toNat + 1) (firstUnacked (qs ++ [r])) = max (max (q.toNat + 1) (firstUnacked qs)) _
    rw [ih, Nat.max_assoc]

/-- A DATA packet of the session: its number is the place of its payload among those sent. -/
def Genuine (sent : List (List UInt8)) (p : Protopack) : Prop :=
  p.packtype = ProtopackType.data.code ∧ sent[p.seq.toNat]? = some p.payload

theorem Genuine.append {sent : List (List UInt8)} {p : Protopack} (h : Genuine sent p)
    (more : List (List UInt8)) : Genuine (sent ++ more) p := by
  refine ⟨h.1, ?_⟩
  obtain ⟨bound, -⟩ := List.getElem?_eq_some_iff.mp h.2
  rw [List.getElem?_append_left bound]
  exact h.2

def pendingSeqs (conn : RudpConnection) : List Nat := conn.pktsFhost.map (·.seq.toNat)

/-- The sender invariant over the payloads accepted and the RACKs handled; `capped` says
    that the retransmission cap was hit. -/
structure SenderInv (sent : List (List UInt8)) (racks : List UInt32) (capped : Bool)
    (conn : RudpConnection) : Prop where
  numbered : conn.currentSeq = UInt32.ofNat sent.length
  closed : conn.closed = capped
  genuine : ∀ ppkt ∈ conn.pktsFhost, ppkt.copyPack.seq = ppkt.seq ∧ Genuine sent ppkt.copyPack
  contiguous : capped = false →
    pendingSeqs conn ~ List.range' (firstUnacked racks) (sent.length - firstUnacked racks)
  acked : firstUnacked racks ≤ sent.length
  window : sent.length ≤ firstUnacked racks + rudpSendWindow

variable {sent : List (List UInt8)} {racks : List UInt32} {capped : Bool} {conn : RudpConnection}

theorem rudpConnNew_senderInv (selfUid connUid : UInt32) (nowMs : Int) :
    SenderInv [] [] false (rudpConnNew selfUid connUid nowMs) where
  numbered := rfl
  closed := rfl
  genuine := by simp [rudpConnNew]
  contiguous := by simp [pendingSeqs, rudpConnNew, firstUnacked]
  acked := Nat.le_refl 0
  window := Nat.zero_le _

/-- An accepted packet is stamped with the next number and becomes pending. -/
theorem send_inv (inv : SenderInv sent racks capped conn) {pkt : Protopack} {nowMs : Int}
    (data : pkt.packtype = ProtopackType.data.code) (few : sent.length < 2 ^ 32 - 1)
    {conn' : RudpConnection} {out : List Protopack}
    (accepted : rudpConnSend conn pkt nowMs = (0, conn', out)) :
    SenderInv (sent ++ [pkt.payload]) racks capped conn' ∧
      ∀ p ∈ out, Genuine (sent ++ [pkt.payload]) p := by
  obtain ⟨ret, refused, eq⟩ | ⟨openNow, room, pending, seq, copy, eq⟩ :=
    rudpConnSend_cases conn pkt nowMs
  · rw [eq] at accepted
    exact absurd (congrArg Prod.fst accepted) refused
  rw [eq] at accepted
  obtain ⟨rfl, rfl⟩ := Prod.mk.inj (Prod.mk.inj accepted).2
  have place : conn.currentSeq.toNat = sent.length := by
    rw [inv.numbered, Serial.toNat_ofNat_of_lt (by omega)]
  have stamped : Genuine (sent ++ [pkt.payload]) pending.copyPack := by
    rw [copy]
    refine ⟨data, ?_⟩
    show (sent ++ [pkt.payload])[conn.currentSeq.toNat]? = some (udpCopyPack pkt).payload
    rw [place, udpCopyPack_payload]
    simp
  -- the connection is open, so the cap was not hit and what is pending fills a range
  have going : capped = false := inv.closed ▸ openNow
  have count : conn.pktsFhost.length = sent.length - firstUnacked racks := by
    simpa [pendingSeqs] using (inv.contiguous going).length_eq
  have acked := inv.acked
  have longer : (sent ++ [pkt.payload]).length = sent.length + 1 := by simp
  refine ⟨⟨?_, inv.closed, ?_, ?_, ?_, ?_⟩, ?_⟩
  · rw [longer]
    show conn.currentSeq + 1 = _
    rw [inv.numbered, Serial.ofNat_succ]
  · intro ppkt hp
    cases List.mem_append.mp hp with
    | inl old => exact ⟨(inv.genuine ppkt old).1, (inv.genuine ppkt old).2.append _⟩
    | inr new =>
      obtain rfl := List.mem_singleton.mp new
      exact ⟨by rw [copy, seq], stamped⟩
  · intro _
    have extended : List.range' (firstUnacked racks) (sent.length + 1 - firstUnacked racks) =
        List.range' (firstUnacked racks) (sent.length - firstUnacked racks) ++ [sent.length] := by
      rw [Nat.succ_sub acked, List.range'_concat]
      congr 2
      omega
    rw [longer, extended]
    show (conn.pktsFhost ++ [pending]).map (·.seq.toNat) ~ _
    rw [List.map_append, List.map_singleton, seq, place]
    exact (inv.contiguous going).append_right _
  · rw [longer]; omega
  · rw [longer]; omega
  · exact List.forall_mem_singleton.mpr stamped

/-- A timeout resends pending packets, and drops one only where it closes the connection. -/
theorem timeouts_inv (inv : SenderInv sent racks capped conn) (nowMs : Int) :
    SenderInv sent racks (capped || (rudpConnTimeouts conn nowMs).1 == -1)
        (rudpConnTimeouts conn nowMs).2.1 ∧
      ∀ p ∈ (rudpConnTimeouts conn nowMs).2.2, Genuine sent p := by
  have loop := timeoutsLoop_inv conn nowMs
  simp only [rudpConnTimeouts]
  generalize timeoutsLoop conn nowMs = s at loop
  have numbered : s.conn.currentSeq = UInt32.ofNat sent.length := by
    rw [loop.frame]
    exact inv.numbered
  -- what is known of a pending packet is known of what it was before the loop
  have genuine : ∀ ppkt ∈ s.conn.pktsFhost, ppkt.copyPack.seq = ppkt.seq ∧
      Genuine sent ppkt.copyPack := by
    intro ppkt hp
    obtain ⟨old, before, seq, copy⟩ := loop.carried_over hp
    rw [← seq, ← copy]
    exact inv.genuine old before
  refine ⟨?_, ?_⟩
  · cases stop : s.capped with
    | false =>
      obtain ⟨same, pending⟩ := loop.running stop
      have seqs : pendingSeqs s.conn = pendingSeqs conn := by
        have := congrArg (List.map (fun c : UInt32 × Protopack => c.1.toNat)) pending
        simpa [pendingSeqs, Function.comp_def, carried] using this
      refine ⟨numbered, ?_, genuine, ?_, inv.acked, inv.window⟩
      · rw [same, inv.closed]
        simp
      · intro going
        rw [seqs]
        exact inv.contiguous (by simpa using going)
    | true =>
      obtain ⟨shut, -⟩ := loop.stopped stop
      exact ⟨numbered, by simpa using shut, genuine, by simp, inv.acked, inv.window⟩
  · intro p hp
    obtain ⟨ppkt, hppkt, rfl⟩ := List.mem_map.mp (loop.resent p hp)
    exact (inv.genuine ppkt hppkt).2

theorem range'_filter_beyond (a n r : Nat) :
    (List.range' a n).filter (fun x => !decide (x ≤ r)) ~
      List.range' (max a (r + 1)) (a + n - max a (r + 1)) := by
  refine (List.perm_ext_iff_of_nodup (List.Nodup.filter _ List.nodup_range') List.nodup_range').mpr
    ?_
  intro x
  simp only [List.mem_filter, List.mem_range'_1, Bool.not_eq_true', decide_eq_false_iff_not]
  omega

/-- A RACK splits the pending packets into those it acknowledges and those it keeps. -/
theorem rack_removes (conn : RudpConnection) (pkt : Protopack) (nowMs : Int) :
    ∃ removed, conn.pktsFhost ~ removed ++ (netHandlerRack conn pkt nowMs).pktsFhost ∧
      ∀ ppkt ∈ removed, ppkt.seq ≤ pkt.seq := by
  refine ⟨conn.pktsFhost.filter (fun ppkt => decide (ppkt.seq ≤ pkt.seq)), ?_, by simp⟩
  have split := List.filter_append_perm (fun ppkt => decide (ppkt.seq ≤ pkt.seq)) conn.pktsFhost
  exact split.symm.trans ((netHandlerRack_pending conn pkt nowMs).symm.append_left _)

theorem rack_inv (inv : SenderInv sent racks capped conn) {pkt : Protopack}
    (known : pkt.seq.toNat < sent.length) (nowMs : Int) :
    SenderInv sent (racks ++ [pkt.seq]) capped (netHandlerRack conn pkt nowMs) := by
  have acked := inv.acked
  have window := inv.window
  have kept := netHandlerRack_pending conn pkt nowMs
  refine ⟨inv.numbered, inv.closed, ?_, ?_, ?_, ?_⟩
  · intro ppkt hp
    exact inv.genuine ppkt (mem_netHandlerRack.mp hp).1
  · intro going
    rw [firstUnacked_append]
    -- a RACK takes away the numbers up to its own, from a range of numbers
    have filtered : pendingSeqs (netHandlerRack conn pkt nowMs) ~
        (pendingSeqs conn).filter (fun x => !decide (x ≤ pkt.seq.toNat)) := by
      refine (kept.map _).trans (List.Perm.of_eq ?_)
      rw [pendingSeqs, List.filter_map]
      rfl
    refine (filtered.trans ((inv.contiguous going).filter _)).trans ?_
    have whole := range'_filter_beyond (firstUnacked racks) (sent.length - firstUnacked racks)
      pkt.seq.toNat
    rwa [Nat.add_sub_cancel' acked] at whole
  · rw [firstUnacked_append]; omega
  · rw [firstUnacked_append]; omega

end Soter2.Rudp
