import Mathlib.Data.List.Basic
import Mathlib.Tactic.Common
import Soter2.Base.ProtQueue
import Soter2.Library.Buffer
import Soter2.Library.Transition
import Soter2.Lownet.Netfd
import Soter2.Stating.State

/-! # Answers of a state server (`interface/src/handlers.c`, `stating/src/state.c`)

A packet of a server holds a count and so many requests of other peers.  The handler puts
those that it takes in a queue, each once.  It has no result where a signed request has an
address without its final zero.

* `answers_exact_iff` — when the queue gets exactly the requests of the last half minute.
-/

namespace Soter2.Stating

open Base Lownet
open Buffer (Span)
open E2ee (Sodium signVerify toySodium toySign)
open Protocol (htonl Protopack)
open Words (bytes32 word32)

structure StateSysRequest where
  req : StateRequest
  comeFrom : Naddr
deriving DecidableEq

/-- `sizeof(state_request)`. -/
abbrev sizeofStateRequest : Nat := 168

/-- What the handler reads of `app_context` and of the clock, and the address of the server. -/
structure AnswerContext where
  sodium : Sodium
  selfUid : UInt32
  now : Int64
  serverFrom : Naddr
  /-- The bytes that the queue gets when it has to grow. -/
  malloc : Nat → StateSysRequest

def stateSysNewAns (ctx : AnswerContext) (answers : ProtQueue StateSysRequest)
    (req : StateRequest) : ProtQueue StateSysRequest :=
  protQueueUpush ctx.malloc answers ⟨req, ctx.serverFrom⟩

/-- The body of the loop over the requests.  The difference of the times is signed; where it leaves
    its type, which the language does not define, the machine wraps it around. -/
def answerRecord (ctx : AnswerContext) (answers : ProtQueue StateSysRequest) (data : List UInt8) :
    Option (ProtQueue StateSysRequest) :=
  match stateRreceive ctx.sodium data with
  | .undefined => none
  | .refused => some answers
  | .received req =>
    if req.uid = ctx.selfUid then some answers
    else
      let dt := ctx.now - req.timestamp
      if dt ≥ 30 then some answers else some (stateSysNewAns ctx answers req)

structure StateHandled where
  code : Int
  answers : ProtQueue StateSysRequest
  /-- What was read of the data of the packet. -/
  reads : List Span

def recordSpan (i : Nat) : Span := Buffer.record 4 sizeofStateRequest i

/-- `soter2_hnd_STATE`. -/
def soter2HndState (behind : Nat → UInt8) (ctx : AnswerContext)
    (answers : ProtQueue StateSysRequest) (pck : Protopack) : Option StateHandled :=
  if pck.dSize.toNat < 4 then some ⟨-1, answers, []⟩
  else
    let count : Span := ⟨0, 4⟩
    let peersCount := (htonl (word32 (Buffer.read behind pck.data count))).toNat
    if pck.dSize.toNat ≠ 4 + peersCount * sizeofStateRequest then some ⟨-1, answers, [count]⟩
    else
      let records := (List.range peersCount).map recordSpan
      (Transition.run (answerRecord ctx) answers (records.map (Buffer.read behind pck.data))).map
        fun answers =>
        ⟨0, answers, count :: records⟩

/-! ## The exact effect -/

def recordCount (payload : List UInt8) : Nat := (htonl (word32 (payload.take 4))).toNat

/-- The payload is a count and so many records. -/
def WellSized (payload : List UInt8) : Prop :=
  payload.length = 4 + recordCount payload * sizeofStateRequest

def recordsOf (payload : List UInt8) : List (List UInt8) :=
  (List.range (recordCount payload)).map fun i =>
    (payload.drop (4 + i * sizeofStateRequest)).take sizeofStateRequest

/-- The queue with the requests that are received, are not the node's own, are `fresh`, and do not
    stand in it yet. -/
def answered (ctx : AnswerContext) (fresh : Int64 → Prop) [DecidablePred fresh]
    (queue : List StateSysRequest) (records : List (List UInt8)) : List StateSysRequest :=
  records.foldl (fun queue data =>
    match stateRreceive ctx.sodium data with
    | .refused | .undefined => queue
    | .received req =>
      if req.uid ≠ ctx.selfUid ∧ fresh req.timestamp ∧ ⟨req, ctx.serverFrom⟩ ∉ queue
      then queue ++ [⟨req, ctx.serverFrom⟩] else queue) queue

/-- Less than thirty seconds old, in exact integers. -/
def Recent (now timestamp : Int64) : Prop := now.toInt - timestamp.toInt < 30

instance (now : Int64) : DecidablePred (Recent now) := fun _ => inferInstanceAs (Decidable (_ < _))

structure ExactEffect (ctx : AnswerContext) (answers : ProtQueue StateSysRequest)
    (payload : List UInt8) (handled : StateHandled) : Prop where
  rejected : ¬ WellSized payload → handled.code = -1 ∧ handled.answers = answers
  accepted : WellSized payload →
    handled.code = 0 ∧
      handled.answers.contents = answered ctx (Recent ctx.now) answers.contents (recordsOf payload)
  within : ∀ s ∈ handled.reads, s.Within payload.length

/-- The handler has a result, which is the exact effect. -/
def AnswersExactly (behind : Nat → UInt8) (ctx : AnswerContext)
    (answers : ProtQueue StateSysRequest) (pck : Protopack) : Prop :=
  ∃ handled, soter2HndState behind ctx answers pck = some handled ∧
    ExactEffect ctx answers pck.payload handled

/-- The record has an address with its final zero, unless it is refused for its signature. -/
def Copied (sodium : Sodium) (data : List UInt8) : Prop :=
  let req := StateRequest.layout.ofImage data
  signVerify sodium req.signBuff req.signature req.pubkey = true → req.addr.Terminated

/-- The difference of the times fits in 64 bits, or is so negative that it wraps around to less
    than thirty seconds. -/
def Subtracts (now timestamp : Int64) : Prop :=
  now.toInt - timestamp.toInt < 2 ^ 63 ∧
    (-2 ^ 63 ≤ now.toInt - timestamp.toInt ∨ now.toInt - timestamp.toInt + 2 ^ 64 < 30)

/-- The test of the handler. -/
def Passes (now timestamp : Int64) : Prop := ¬ now - timestamp ≥ 30

instance (now : Int64) : DecidablePred (Passes now) := fun _ => inferInstanceAs (Decidable (¬ _))

theorem passes_iff {now timestamp : Int64} :
    (Passes now timestamp ↔ Recent now timestamp) ↔ Subtracts now timestamp := by
  have low := now.le_toInt
  have high := now.toInt_lt
  have low' := timestamp.le_toInt
  have high' := timestamp.toInt_lt
  have thirty : (30 : Int64).toInt = 30 := rfl
  rw [Passes, ge_iff_le, Int64.le_iff_toInt_le, Int64.toInt_sub, thirty, Int.bmod_def, Recent,
    Subtracts]
  omega

/-! ## The queue -/

section Queue

variable {ctx : AnswerContext} {fresh fresh' : Int64 → Prop} [DecidablePred fresh]
    [DecidablePred fresh']
  {queue : List StateSysRequest} {data : List UInt8} {records : List (List UInt8)}
    {req : StateRequest}

theorem answered_nil : answered ctx fresh queue [] = queue := rfl

theorem answered_cons_none (refused : ∀ req, stateRreceive ctx.sodium data ≠ .received req) :
    answered ctx fresh queue (data :: records) = answered ctx fresh queue records := by
  simp only [answered, List.foldl_cons]
  split
  · rfl
  · rfl
  next req received => exact absurd received (refused req)

theorem answered_cons_some (received : stateRreceive ctx.sodium data = .received req) :
    answered ctx fresh queue (data :: records) =
      answered ctx fresh
        (if req.uid ≠ ctx.selfUid ∧ fresh req.timestamp ∧ ⟨req, ctx.serverFrom⟩ ∉ queue
          then queue ++ [⟨req, ctx.serverFrom⟩] else queue) records := by
  simp only [answered, List.foldl_cons, received]

theorem copied_iff : Copied ctx.sodium data ↔ stateRreceive ctx.sodium data ≠ .undefined := by
  rw [ne_eq, stateRreceive_undefined_iff, not_and_not_right, Copied]

/-- The turn of the loop puts in the queue what passes its test. -/
theorem contents_answerRecord {answers answers' : ProtQueue StateSysRequest}
    (h : answerRecord ctx answers data = some answers') :
    answered ctx (Passes ctx.now) answers.contents (data :: records)
      = answered ctx (Passes ctx.now) answers'.contents records := by
  rw [answerRecord] at h
  split at h
  · cases h
  next refused =>
    cases h
    exact answered_cons_none (by simp [refused])
  next req received =>
    rw [answered_cons_some received]
    congr 1
    -- the three reasons to pass over a request that was received
    by_cases own : req.uid = ctx.selfUid
    · rw [if_pos own] at h
      cases h
      simp [own]
    · rw [if_neg own] at h
      dsimp only at h
      by_cases old : ctx.now - req.timestamp ≥ 30
      · rw [if_pos old] at h
        cases h
        simp [own, old, Passes]
      · rw [if_neg old] at h
        cases h
        by_cases queued : (⟨req, ctx.serverFrom⟩ : StateSysRequest) ∈ answers.contents
        · simp [own, old, Passes, stateSysNewAns, contents_protQueueUpush, queued]
        · simp [own, old, Passes, stateSysNewAns, contents_protQueueUpush, queued]

theorem contents_run_answerRecord {answers answers' : ProtQueue StateSysRequest}
    (h : Transition.run (answerRecord ctx) answers records = some answers') :
    answers'.contents = answered ctx (Passes ctx.now) answers.contents records := by
  induction records generalizing answers with
  | nil =>
    cases h
    rfl
  | cons data records ih =>
    obtain ⟨middle, here, rest⟩ := Transition.run_cons.mp h
    rw [contents_answerRecord here, ih rest]

/-- The loop ends exactly if no record runs over the array. -/
theorem run_answerRecord_iff {answers : ProtQueue StateSysRequest} :
    (∃ answers', Transition.run (answerRecord ctx) answers records = some answers') ↔
      ∀ data ∈ records, Copied ctx.sodium data := by
  induction records generalizing answers with
  | nil => simp
  | cons data records ih =>
    simp only [Transition.run_cons, List.forall_mem_cons]
    constructor
    · rintro ⟨answers', middle, here, rest⟩
      refine ⟨copied_iff.mpr fun overrun => ?_, ih.mp ⟨answers', rest⟩⟩
      rw [answerRecord, overrun] at here
      cases here
    · rintro ⟨here, rest⟩
      -- a turn skips the record or queues it, but never stops at one that is copied
      obtain ⟨middle, taken⟩ : ∃ middle, answerRecord ctx answers data = some middle := by
        rw [answerRecord]
        split
        next overrun => exact absurd overrun (copied_iff.mp here)
        · exact ⟨answers, rfl⟩
        · dsimp only
          split
          · exact ⟨answers, rfl⟩
          · split
            · exact ⟨answers, rfl⟩
            · exact ⟨_, rfl⟩
      obtain ⟨answers', reached⟩ := ih.mpr rest
      exact ⟨answers', middle, taken, reached⟩

theorem mem_answered {sreq : StateSysRequest} :
    sreq ∈ answered ctx fresh queue records ↔ sreq ∈ queue ∨
      ∃ data ∈ records, ∃ req, stateRreceive ctx.sodium data = .received req ∧
        req.uid ≠ ctx.selfUid ∧
        fresh req.timestamp ∧ sreq = ⟨req, ctx.serverFrom⟩ := by
  induction records generalizing queue with
  | nil => simp [answered_nil]
  | cons data records ih =>
    -- a record that is not accepted leaves the queue alone
    by_cases received : ∃ req, stateRreceive ctx.sodium data = .received req
    swap
    · have refused := not_exists.mp received
      simp [answered_cons_none refused, ih, refused]
    · obtain ⟨req, received⟩ := received
      rw [answered_cons_some received, ih]
      simp only [List.mem_cons, exists_eq_or_imp, received, Reception.received.injEq,
        exists_eq_left', ← or_assoc]
      refine or_congr_left ?_
      by_cases taken : req.uid ≠ ctx.selfUid ∧ fresh req.timestamp
      · -- one that is queued already is not queued again, but a member all the same
        by_cases queued : (⟨req, ctx.serverFrom⟩ : StateSysRequest) ∈ queue
        · simp only [taken, queued, not_true_eq_false, and_false, if_false, ne_eq,
            not_false_eq_true, true_and]
          exact ⟨Or.inl, fun h => h.elim id fun same => same ▸ queued⟩
        · simp [taken, queued]
      · have left_out : ¬ (req.uid ≠ ctx.selfUid ∧ fresh req.timestamp ∧
            ⟨req, ctx.serverFrom⟩ ∉ queue) :=
          fun h => taken ⟨h.1, h.2.1⟩
        rw [if_neg left_out]
        exact ⟨Or.inl, fun h => h.elim id fun h => absurd ⟨h.1, h.2.1⟩ taken⟩

/-- The tests agree on the requests that could be queued. -/
def Agree (ctx : AnswerContext) (fresh fresh' : Int64 → Prop) (queue : List StateSysRequest)
    (records : List (List UInt8)) : Prop :=
  ∀ data ∈ records, ∀ req, stateRreceive ctx.sodium data = .received req → req.uid ≠ ctx.selfUid →
    ⟨req, ctx.serverFrom⟩ ∉ queue → (fresh req.timestamp ↔ fresh' req.timestamp)

theorem answered_congr (agree : Agree ctx fresh fresh' queue records) :
    answered ctx fresh queue records = answered ctx fresh' queue records := by
  induction records generalizing queue with
  | nil => rfl
  | cons data records ih =>
    obtain ⟨here, rest⟩ := List.forall_mem_cons.mp agree
    by_cases received : ∃ req, stateRreceive ctx.sodium data = .received req
    swap
    · have refused := not_exists.mp received
      rw [answered_cons_none refused, answered_cons_none refused, ih rest]
    · obtain ⟨req, received⟩ := received
      have same : (req.uid ≠ ctx.selfUid ∧ fresh req.timestamp ∧ ⟨req, ctx.serverFrom⟩ ∉ queue) ↔
          (req.uid ≠ ctx.selfUid ∧ fresh' req.timestamp ∧ ⟨req, ctx.serverFrom⟩ ∉ queue) := by
        refine and_congr_right fun other => and_congr_left fun queued => ?_
        exact here req received other queued
      rw [answered_cons_some received, answered_cons_some received]
      simp only [same]
      -- what is queued in between stays queued
      refine ih fun data member r accepted other free =>
        rest data member r accepted other fun before => free ?_
      split
      · exact List.mem_append_left _ before
      · exact before

/-- Two tests queue the same exactly if they agree on what could be queued. -/
theorem answered_eq_iff :
    answered ctx fresh queue records = answered ctx fresh' queue records ↔
      Agree ctx fresh fresh' queue records := by
  refine ⟨fun same data member req received other free => ?_, answered_congr⟩
  have both : ∀ {p q : Int64 → Prop} [DecidablePred p] [DecidablePred q],
      answered ctx p queue records = answered ctx q queue records → p req.timestamp →
        q req.timestamp := by
    intro p q _ _ same holds
    have queued : (⟨req, ctx.serverFrom⟩ : StateSysRequest) ∈ answered ctx p queue records :=
      mem_answered.mpr (.inr ⟨data, member, req, received, other, holds, rfl⟩)
    rw [same, mem_answered] at queued
    obtain before | ⟨_, _, r, -, -, holds', eq⟩ := queued
    · exact absurd before free
    · cases eq
      exact holds'
  -- a request that only one test lets through is in only one queue
  exact ⟨both same, both same.symm⟩

end Queue

/-! ## When the effect is exact -/

section Exact

variable {behind : Nat → UInt8} {ctx : AnswerContext} {answers : ProtQueue StateSysRequest}
    {pck : Protopack}

theorem soter2HndState_short (short : pck.dSize.toNat < 4) :
    soter2HndState behind ctx answers pck = some ⟨-1, answers, []⟩ := if_pos short

theorem soter2HndState_long (sized : pck.Sized) (long : 4 ≤ pck.payload.length) :
    soter2HndState behind ctx answers pck =
      if pck.payload.length ≠ 4 + recordCount pck.payload * sizeofStateRequest then
        some ⟨-1, answers, [⟨0, 4⟩]⟩
      else
        let records := (List.range (recordCount pck.payload)).map recordSpan
        (Transition.run (answerRecord ctx) answers
          (records.map (Buffer.read behind pck.payload))).map fun answers =>
          ⟨0, answers, ⟨0, 4⟩ :: records⟩ := by
  have count : Buffer.read behind pck.payload ⟨0, 4⟩ = pck.payload.take 4 :=
    Buffer.read_of_within (show 0 + 4 ≤ pck.payload.length by omega)
  rw [sized.payload] at long count ⊢
  have size : pck.dSize.toNat = pck.data.length := sized.symm
  simp only [soter2HndState, size, if_neg (Nat.not_lt.mpr long), count, recordCount]
  rfl

theorem recordSpan_within {payload : List UInt8} (whole : WellSized payload) {i : Nat}
    (inside : i < recordCount payload) : (recordSpan i).Within payload.length := by
  have room : (payload.length - 4) / sizeofStateRequest = recordCount payload := by
    rw [whole, Nat.add_sub_cancel_left, Nat.mul_div_cancel _ (by decide)]
  have long : 4 ≤ payload.length := by rw [whole]; omega
  exact (Buffer.record_within_iff (by decide) long i).mpr (room ▸ inside)

theorem read_records {payload : List UInt8} (whole : WellSized payload) :
    ((List.range (recordCount payload)).map recordSpan).map (Buffer.read behind payload)
      = recordsOf payload := by
  rw [List.map_map, recordsOf]
  refine List.map_congr_left fun i member => ?_
  exact Buffer.read_of_within (recordSpan_within whole (List.mem_range.mp member))

theorem soter2HndState_rejected (sized : pck.Sized) (broken : ¬ WellSized pck.payload) :
    ∃ handled, soter2HndState behind ctx answers pck = some handled ∧ handled.code = -1 ∧
      handled.answers = answers ∧
      ∀ s ∈ handled.reads, s.Within pck.payload.length := by
  by_cases long : 4 ≤ pck.payload.length
  · rw [soter2HndState_long sized long, if_pos (show pck.payload.length ≠ _ from broken)]
    exact ⟨_, rfl, rfl, rfl, by simpa [Span.Within] using long⟩
  · have short : pck.dSize.toNat < 4 := by
      rw [← sized, ← sized.payload]
      omega
    exact ⟨_, soter2HndState_short short, rfl, rfl, by simp⟩

theorem soter2HndState_accepted (sized : pck.Sized) (whole : WellSized pck.payload)
    {handled : StateHandled} :
    soter2HndState behind ctx answers pck = some handled ↔
      ∃ answers', Transition.run (answerRecord ctx) answers (recordsOf pck.payload)
        = some answers' ∧
        handled = ⟨0, answers', ⟨0, 4⟩ ::
          (List.range (recordCount pck.payload)).map recordSpan⟩ := by
  have long : 4 ≤ pck.payload.length := by rw [whole]; omega
  rw [soter2HndState_long sized long,
    if_neg (not_not_intro (show pck.payload.length = _ from whole)),
    ← @read_records behind _ whole, Option.map_eq_some_iff]
  simp only [eq_comm (a := handled)]

theorem records_within (whole : WellSized pck.payload) :
    ∀ s ∈ (⟨0, 4⟩ : Span) :: (List.range (recordCount pck.payload)).map recordSpan,
      s.Within pck.payload.length := by
  intro s member
  obtain rfl | member := List.mem_cons.mp member
  · show 0 + 4 ≤ pck.payload.length
    rw [whole]
    omega
  · obtain ⟨i, inside, rfl⟩ := List.mem_map.mp member
    exact recordSpan_within whole (List.mem_range.mp inside)

/-- A packet has exactly its effect if no signed record has an address without its final zero, and
    the age of every request that could be queued fits in 64 bits. -/
theorem answers_exact_iff (behind : Nat → UInt8) (ctx : AnswerContext)
    (answers : ProtQueue StateSysRequest) (pck : Protopack) (sized : pck.Sized) :
    AnswersExactly behind ctx answers pck ↔
      (WellSized pck.payload → ∀ data ∈ recordsOf pck.payload, Copied ctx.sodium data ∧
        ∀ req, stateRreceive ctx.sodium data = .received req → req.uid ≠ ctx.selfUid →
          ⟨req, ctx.serverFrom⟩ ∉ answers.contents → Subtracts ctx.now req.timestamp) := by
  -- the code's test and the exact one agree on a difference that fits
  have agree : Agree ctx (Passes ctx.now) (Recent ctx.now) answers.contents (recordsOf pck.payload)
      ↔ ∀ data ∈ recordsOf pck.payload, ∀ req, stateRreceive ctx.sodium data = .received req →
        req.uid ≠ ctx.selfUid → ⟨req, ctx.serverFrom⟩ ∉ answers.contents →
          Subtracts ctx.now req.timestamp := by
    simp only [Agree, passes_iff]
  -- the loop comes to its end, and it queues the same records as the exact test
  have condition : (∀ data ∈ recordsOf pck.payload, Copied ctx.sodium data ∧
        ∀ req, stateRreceive ctx.sodium data = .received req → req.uid ≠ ctx.selfUid →
          ⟨req, ctx.serverFrom⟩ ∉ answers.contents → Subtracts ctx.now req.timestamp) ↔
      (∃ answers', Transition.run (answerRecord ctx) answers (recordsOf pck.payload)
        = some answers') ∧
        answered ctx (Passes ctx.now) answers.contents (recordsOf pck.payload)
          = answered ctx (Recent ctx.now) answers.contents (recordsOf pck.payload) := by
    rw [run_answerRecord_iff, answered_eq_iff, agree]
    exact forall₂_and
  rw [condition]
  constructor
  · rintro ⟨handled, result, exact_⟩ whole
    obtain ⟨answers', reached, rfl⟩ := (soter2HndState_accepted sized whole).mp result
    refine ⟨⟨answers', reached⟩, ?_⟩
    rw [← contents_run_answerRecord reached]
    exact (exact_.accepted whole).2
  · intro same
    by_cases whole : WellSized pck.payload
    · obtain ⟨⟨answers', reached⟩, same⟩ := same whole
      refine ⟨_, (soter2HndState_accepted sized whole).mpr ⟨answers', reached, rfl⟩,
        fun broken => absurd whole broken, fun _ => ⟨rfl, ?_⟩, records_within whole⟩
      exact (contents_run_answerRecord reached).trans same
    · obtain ⟨handled, result, code, kept, within⟩ :=
        @soter2HndState_rejected behind ctx answers pck sized whole
      exact ⟨handled, result, fun _ => ⟨code, kept⟩, fun fits => absurd fits whole, within⟩

end Exact

/-! ## A request of an impossible time -/

/-- A request of another peer, signed at that time. -/
def peerRequest (timestamp : Int64) : StateRequest :=
  ownRequest (.ipv4 sampleText 80) .requestPeers 5 timestamp toySodium (toySign 1)

def peerRecord (timestamp : Int64) : List UInt8 :=
  StateRequest.layout.image (ownSent (.ipv4 sampleText 80) .requestPeers 5 timestamp toySodium
    (toySign 1))

/-- The answer of a server that knows of one peer. -/
def answerPacket (record : List UInt8) : Protopack where
  seq := 0
  chsum := 0
  dSize := 172
  hFrom := 0
  hTo := 1
  packtype := Protocol.ProtopackType.state.code
  data := bytes32 (htonl 1) ++ record

def answerContext (now : Int64) : AnswerContext where
  sodium := toySodium
  selfUid := 5
  now := now
  serverFrom := Naddr.zero
  malloc _ := ⟨peerRequest 0, Naddr.zero⟩

theorem peerRequest_received (timestamp : Int64) :
    stateRreceive toySodium (peerRecord timestamp) = .received (peerRequest timestamp) :=
  (ownRequest_sentAs _ _ _ _ (toySign_verifies 1)).received

section Packet

variable {record : List UInt8} (whole : record.length = sizeofStateRequest)
include whole

theorem answerPacket_sized : (answerPacket record).Sized := by
  rw [Protopack.Sized, answerPacket, List.length_append, whole]
  rfl

theorem answerPacket_records :
    WellSized (answerPacket record).payload ∧
      recordsOf (answerPacket record).payload = [record] := by
  have payload : (answerPacket record).payload = bytes32 (htonl 1) ++ record :=
    (answerPacket_sized whole).payload
  have count : recordCount (bytes32 (htonl 1) ++ record) = 1 := by
    rw [recordCount, Words.take_bytes32_append, Words.word32_bytes32]
    rfl
  rw [payload, WellSized, recordsOf, count, List.length_append, whole]
  refine ⟨rfl, ?_⟩
  rw [List.range_one, List.map_singleton, Nat.zero_mul, Nat.add_zero,
    Words.drop_bytes32_append _ _ 0, List.drop_zero, ← whole, List.take_length]

end Packet

theorem length_peerRecord (timestamp : Int64) :
    (peerRecord timestamp).length = sizeofStateRequest :=
  StateRequest.layout.length_image _

theorem peerRecord_copied (timestamp : Int64) : Copied toySodium (peerRecord timestamp) :=
  (@copied_iff (answerContext 0) _).mpr (by
    rw [show (answerContext 0).sodium = toySodium from rfl, peerRequest_received]
    simp)

theorem answers_exact_iff_recent :
    AnswersExactly (fun _ => 0) (answerContext 10) (protQueueCreate ⟨peerRequest 0, Naddr.zero⟩)
      (answerPacket (peerRecord 0)) :=
  (answers_exact_iff (fun _ => 0) (answerContext 10) (protQueueCreate ⟨peerRequest 0, Naddr.zero⟩)
    (answerPacket (peerRecord 0)) (answerPacket_sized (length_peerRecord 0))).mpr
      fun _ data member => by
      rw [(answerPacket_records (length_peerRecord 0)).2, List.mem_singleton] at member
      subst member
      refine ⟨peerRecord_copied 0, fun req received _ _ => ?_⟩
      obtain rfl : peerRequest 0 = req :=
        Reception.received.inj ((peerRequest_received 0).symm.trans received)
      exact ⟨by decide, .inl (by decide)⟩

/-- A request of another peer, signed with an address of 48 ones. -/
def unterminatedRecord : List UInt8 :=
  StateRequest.layout.image (signedRequest toySodium 5 0 ⟨Vector.replicate 48 49, 0⟩ 7 .requestPeers
    (toySign 1))

/-- A request from the most distant past is queued as a recent one, and one whose address has no
    final zero ends the handler. -/
theorem distant_past_is_queued :
    (answerPacket (peerRecord Int64.minValue)).Sized ∧
      WellSized (answerPacket (peerRecord Int64.minValue)).payload ∧
      ¬ Recent 0 Int64.minValue ∧
      (∃ handled, soter2HndState (fun _ => 0) (answerContext 0)
        (protQueueCreate ⟨peerRequest 0, Naddr.zero⟩)
        (answerPacket (peerRecord Int64.minValue)) = some handled ∧
        ⟨peerRequest Int64.minValue, Naddr.zero⟩ ∈ handled.answers.contents) ∧
      ¬ AnswersExactly (fun _ => 0) (answerContext 0) (protQueueCreate ⟨peerRequest 0, Naddr.zero⟩)
        (answerPacket (peerRecord Int64.minValue)) ∧
      (answerPacket unterminatedRecord).Sized ∧
        WellSized (answerPacket unterminatedRecord).payload ∧
      soter2HndState (fun _ => 0) (answerContext 0) (protQueueCreate ⟨peerRequest 0, Naddr.zero⟩)
        (answerPacket unterminatedRecord) = none := by
  have sized := answerPacket_sized (length_peerRecord Int64.minValue)
  obtain ⟨whole, records⟩ := answerPacket_records (length_peerRecord Int64.minValue)
  have received := peerRequest_received Int64.minValue
  have other : (peerRequest Int64.minValue).uid ≠ (answerContext 0).selfUid := by decide
  have old : ¬ Recent 0 Int64.minValue := by decide
  obtain ⟨answers, reached⟩ : ∃ answers, Transition.run (answerRecord (answerContext 0))
      (protQueueCreate ⟨peerRequest 0, Naddr.zero⟩) [peerRecord Int64.minValue] = some answers :=
    run_answerRecord_iff.mpr (List.forall_mem_singleton.mpr (peerRecord_copied Int64.minValue))
  rw [← records] at reached
  have result := (@soter2HndState_accepted (fun _ => 0) _ _ _ sized whole _).mpr
    ⟨answers, reached, rfl⟩
  -- the wrapped difference is negative, so below 30
  have queued : (⟨peerRequest Int64.minValue, Naddr.zero⟩ : StateSysRequest)
      ∈ answers.contents := by
    rw [contents_run_answerRecord reached, records]
    exact mem_answered.mpr (.inr ⟨_, List.mem_singleton_self _, _, received, other, by decide, rfl⟩)
  have length : unterminatedRecord.length = sizeofStateRequest := StateRequest.layout.length_image _
  obtain ⟨whole', records'⟩ := answerPacket_records length
  -- the text of 48 ones ends outside its field
  have overruns : stateRreceive toySodium unterminatedRecord = .undefined :=
    stateRreceive_unterminated _ _ _ (by decide +kernel) _ (toySign_verifies 1)
  refine ⟨sized, whole, old, ⟨_, result, queued⟩, fun ⟨handled, same, exact_⟩ => ?_,
    answerPacket_sized length, whole',
    Option.eq_none_iff_forall_ne_some.mpr fun handled result' => ?_⟩
  swap
  · obtain ⟨answers', reached', -⟩ :=
      (soter2HndState_accepted (answerPacket_sized length) whole').mp result'
    have copied := run_answerRecord_iff.mp ⟨answers', reached'⟩
    rw [records', List.forall_mem_singleton] at copied
    exact copied_iff.mp copied overruns
  obtain rfl := Option.some.inj (result.symm.trans same)
  have contents := (exact_.accepted whole).2
  rw [show StateHandled.answers _ = answers from rfl] at contents
  rw [contents, records, mem_answered] at queued
  obtain before | ⟨_, _, r, -, -, recent, eq⟩ := queued
  · simp at before
  · cases eq
    exact old recent

end Soter2.Stating
