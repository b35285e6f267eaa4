import Mathlib.Data.List.Dedup
import Mathlib.Data.List.Forall2
import Mathlib.Tactic.Common
import Soter2.Base.ProtQueue
import Soter2.Library.Transition
import Soter2.Stating.State

/-! # The state server (`stating/src/server.c`)

The server answers a signed request with the requests it has kept, and keeps the new one.
Its loops run over all cells of the queue of kept requests, the unused ones included.  Where
an address is copied whose text has no final zero, the handler has no result.

* `stateHandler_answers_iff` — after which histories the answer is right.
-/

namespace Soter2.Stating

open Soter2.Base Soter2.Lownet
open Soter2.Protocol
open Soter2.E2ee (Bytes Sodium cryptoPubkeyToUid firstByte toySodium toySign)
open Words (bytes32 word32)
open StateRequest

/-- `sizeof(nnet_fd)`: the comparison of kept requests reads its padding too. -/
abbrev sizeofNnetFd : Nat := 144

structure ServerRequest where
  r : StateRequest
  nfd : Bytes sizeofNnetFd
deriving DecidableEq

/-- A cell of zero bytes. -/
def ServerRequest.zero : ServerRequest where
  r := layout.ofImage (List.replicate layout.size 0)
  nfd := Vector.replicate sizeofNnetFd 0

/-- What the handler is called with, and the bytes it gets if the queue has to grow. -/
structure Incoming where
  pck : Protopack
  nfd : Bytes sizeofNnetFd
  malloc : Nat → ServerRequest

structure Outcome where
  code : Int
  pending : ProtQueue ServerRequest
  /-- The packet given to `pvd_sender_send`, which may be `NULL`, and its destination. -/
  sent : Option (Option Protopack × Bytes sizeofNnetFd)

variable (sodium : Sodium)

def stateHandler (pending : ProtQueue ServerRequest) (m : Incoming) : Option Outcome :=
  if m.pck.dSize.toNat ≠ layout.size then some ⟨-1, pending, none⟩
  else
    match stateRreceive sodium m.pck.data with
    | .undefined => none
    | .refused => some ⟨-1, pending, none⟩
    | .received r =>
      -- both loops run to the `len` of the array, not to the `count` of the queue
      let peersCount := pending.cells.countP fun sr => sr.r.uid ≠ r.uid
      let dataSize := 4 + peersCount * layout.size
      let translated := (pending.cells.filter fun sr => sr.r.uid ≠ r.uid).mapM fun sr =>
        stateRetranslate sr.r
      translated.map fun records =>
        let responseBuffer := bytes32 (htonl (UInt32.ofNat peersCount)) ++
          records.flatMap layout.image
        { code := 0
          pending := protQueueUpush m.malloc pending ⟨r, m.nfd⟩
          sent := some (udpMakePack 0 0 r.uid .state (some responseBuffer) dataSize, m.nfd) }

/-- The request the handler accepts, if it does. -/
def received (m : Incoming) : Option StateRequest :=
  if m.pck.dSize.toNat ≠ layout.size then none
  else
    match stateRreceive sodium m.pck.data with
    | .received r => some r
    | .refused | .undefined => none

/-- What a message leaves of the kept requests. -/
def keep (pending : ProtQueue ServerRequest) (m : Incoming) : Option (ProtQueue ServerRequest) :=
  (stateHandler sodium pending m).map (·.pending)

/-- The kept requests after a history, in a server that was just started. -/
def served (history : List Incoming) : Option (ProtQueue ServerRequest) :=
  Transition.run (keep sodium) (protQueueCreate ServerRequest.zero) history

/-! ## A right answer -/

/-- The other peers that made themselves known. -/
def otherUids (accepted : List StateRequest) (uid : UInt32) : List UInt32 :=
  ((accepted.map (·.uid)).filter (· ≠ uid)).dedup

/-- The packet lists `peers`, as `records`, for the peer `uid`. -/
structure Lists (accepted : List StateRequest) (uid : UInt32) (pk : Protopack)
    (records peers : List StateRequest) : Prop where
  header : 4 ≤ pk.payload.length
  count : (htonl (word32 (pk.payload.take 4))).toNat = records.length
  body : pk.payload.drop 4 = records.flatMap layout.image
  decoded : List.Forall₂ (fun req p => stateRreceive sodium (layout.image req) = .received p)
    records peers
  known : ∀ p ∈ peers, p ∈ accepted ∧ p.uid ≠ uid
  distinct : (peers.map (·.uid)).Nodup
  complete : 4 + (otherUids accepted uid).length * layout.size ≤ udpMtu - sizeofProtopack →
    ∀ other ∈ otherUids accepted uid, other ∈ peers.map (·.uid)

/-- What the handler owes a peer. -/
def Answers (accepted : List StateRequest) (uid : UInt32)
    (sent : Option (Option Protopack × Bytes sizeofNnetFd)) : Prop :=
  ∃ pk dest records peers, sent = some (some pk, dest) ∧ Lists sodium accepted uid pk records peers

/-- The answer of the server to a request after a history is right. -/
def AnswersAfter (history : List Incoming) (m : Incoming) (r : StateRequest) : Prop :=
  ∃ pending outcome, served sodium history = some pending ∧
    stateHandler sodium pending m = some outcome ∧
    Answers sodium (history.filterMap (received sodium)) r.uid outcome.sent

/-- The kept requests of other peers. -/
def others (pending : ProtQueue ServerRequest) (uid : UInt32) : List ServerRequest :=
  pending.contents.filter fun sr => sr.r.uid ≠ uid

/-- No cell that is not in use reads as another peer, and the kept requests of other peers
    are at most eight, one for each. -/
structure Listable (pending : ProtQueue ServerRequest) (uid : UInt32) : Prop where
  spare : ∀ sr ∈ pending.spare, sr.r.uid = uid
  few : (others pending uid).length ≤ 8
  distinct : ((others pending uid).map (·.r.uid)).Nodup

variable {sodium}

/-! ## The kept requests -/

/-- The cells that the loops of the handler take for other peers. -/
def listed (pending : ProtQueue ServerRequest) (uid : UInt32) : List ServerRequest :=
  pending.cells.filter fun sr => sr.r.uid ≠ uid

def responseBuffer (records : List StateRequest) : List UInt8 :=
  bytes32 (htonl (UInt32.ofNat records.length)) ++ records.flatMap layout.image

/-- The records are the cells, each in network order. -/
def Translated (cells : List ServerRequest) (records : List StateRequest) : Prop :=
  List.Forall₂ (fun sr record => stateRetranslate sr.r = some record) cells records

theorem mapM_stateRetranslate {cells : List ServerRequest} {records : List StateRequest} :
    cells.mapM (fun sr => stateRetranslate sr.r) = some records ↔ Translated cells records := by
  rw [Translated]
  induction cells generalizing records with
  | nil => simp [eq_comm]
  | cons sr cells ih =>
    simp only [List.mapM_cons, Option.bind_eq_bind, Option.bind_eq_some_iff, Option.pure_def,
      Option.some.injEq, ih, List.forall₂_cons_left_iff]
    constructor
    · rintro ⟨record, here, rest, others, rfl⟩
      exact ⟨record, rest, here, others, rfl⟩
    · rintro ⟨record, rest, here, others, rfl⟩
      exact ⟨record, here, rest, others, rfl⟩

/-- What the handler does with a request that it accepts. -/
theorem stateHandler_received {pending : ProtQueue ServerRequest} {m : Incoming} {r : StateRequest}
    {outcome : Outcome} (h : received sodium m = some r) :
    stateHandler sodium pending m = some outcome ↔
      ∃ records, Translated (listed pending r.uid) records ∧
      outcome = {
        code := 0
        pending := protQueueUpush m.malloc pending ⟨r, m.nfd⟩
        sent :=
          some (udpMakePack 0 0 r.uid .state (some (responseBuffer records))
            (responseBuffer records).length,
          m.nfd) } := by
  simp only [received, Option.ite_none_left_eq_some] at h
  obtain ⟨size, accepted⟩ := h
  split at accepted
  next q reception =>
    cases accepted
    simp only [stateHandler, if_neg size, reception, Option.map_eq_some_iff, mapM_stateRetranslate]
    refine exists_congr fun records => and_congr_right fun translated => ?_
    -- the code counts the cells once more for the size of the packet
    have length : records.length = pending.cells.countP fun sr => sr.r.uid ≠ r.uid := by
      rw [List.countP_eq_length_filter]
      exact translated.length_eq.symm
    rw [eq_comm (a := outcome), responseBuffer, List.length_append, Layout.length_flatMap_image,
      length]
    rfl
  · cases accepted
  · cases accepted

theorem stateHandler_rejected {pending : ProtQueue ServerRequest} {m : Incoming} {outcome : Outcome}
    (h : received sodium m = none) (handled : stateHandler sodium pending m = some outcome) :
    outcome = ⟨-1, pending, none⟩ := by
  simp only [stateHandler] at handled
  split at handled
  · cases handled
    rfl
  next size =>
    rw [received, if_neg size] at h
    split at handled
    · cases handled
    · cases handled
      rfl
    next r reception =>
      rw [reception] at h
      cases h

/-- A message adds to what is kept the request that was accepted, if there is one. -/
theorem mem_keep {pending pending' : ProtQueue ServerRequest} {m : Incoming}
    (h : keep sodium pending m = some pending') (r : StateRequest) :
    r ∈ pending'.contents.map (·.r) ↔ r ∈ pending.contents.map (·.r) ∨
      received sodium m = some r := by
  obtain ⟨outcome, handled, rfl⟩ := Option.map_eq_some_iff.mp h
  cases accepted : received sodium m with
  | none =>
    obtain rfl := stateHandler_rejected accepted handled
    simp
  | some q =>
    obtain ⟨records, -, rfl⟩ := (stateHandler_received accepted).mp handled
    simp only [List.mem_map, mem_protQueueUpush, Option.some.injEq]
    constructor
    · rintro ⟨sr, kept | rfl, rfl⟩
      · exact .inl ⟨sr, kept, rfl⟩
      · exact .inr rfl
    · rintro (⟨sr, kept, rfl⟩ | rfl)
      · exact ⟨sr, .inl kept, rfl⟩
      · exact ⟨_, .inr rfl, rfl⟩

theorem mem_run_keep (history : List Incoming) {pending pending' : ProtQueue ServerRequest}
    (h : Transition.run (keep sodium) pending history = some pending') (r : StateRequest) :
    r ∈ pending'.contents.map (·.r) ↔
      r ∈ pending.contents.map (·.r) ∨ r ∈ history.filterMap (received sodium) := by
  -- on the history, for the queue that its first request leaves
  induction history generalizing pending with
  | nil =>
    cases h
    simp
  | cons m history ih =>
    obtain ⟨middle, first, rest⟩ := Transition.run_cons.mp h
    rw [ih rest, mem_keep first, or_assoc]
    cases accepted : received sodium m with
    | none => simp [accepted]
    | some q => simp [accepted, eq_comm (a := r)]

theorem mem_served {history : List Incoming} {pending : ProtQueue ServerRequest}
    (running : served sodium history = some pending) (r : StateRequest) :
    r ∈ pending.contents.map (·.r) ↔ r ∈ history.filterMap (received sodium) := by
  rw [mem_run_keep history running]
  simp

/-! ## The packet -/

/-- The loops take the kept requests of others and the unused cells for other peers. -/
theorem listed_perm (pending : ProtQueue ServerRequest) (uid : UInt32) :
    (listed pending uid).Perm
      (others pending uid ++ pending.spare.filter fun sr => sr.r.uid ≠ uid) := by
  have cells : (pending.contents ++ pending.spare).Perm pending.cells := by
    rw [ProtQueue.contents_append_spare]
    exact List.rotate_perm _ _
  rw [others, ← List.filter_append]
  exact (cells.filter _).symm

theorem length_responseBuffer (records : List StateRequest) :
    (responseBuffer records).length = 4 + records.length * layout.size := by
  rw [responseBuffer, List.length_append, Layout.length_flatMap_image]
  rfl

/-- Eight requests fit in a packet, and nine do not. -/
theorem fits_iff (records : List StateRequest) :
    sizeofProtopack + (responseBuffer records).length ≤ udpMtu ↔ records.length ≤ 8 := by
  rw [length_responseBuffer, layout_size, sizeofProtopack, udpMtu]
  omega

/-- More than eight listed cells make no packet. -/
theorem sent_of_many {pending : ProtQueue ServerRequest} {m : Incoming} {r : StateRequest}
    {outcome : Outcome} (request : received sodium m = some r)
    (many : 8 < (listed pending r.uid).length)
    (handled : stateHandler sodium pending m = some outcome) :
    outcome.sent = some (none, m.nfd) := by
  obtain ⟨records, translated, rfl⟩ := (stateHandler_received request).mp handled
  cases packet : udpMakePack 0 0 r.uid .state (some (responseBuffer records))
    (responseBuffer records).length with
  | none => rfl
  | some pk =>
    have few := (fits_iff _).mp (udpMakePack_eq_some.mp packet).1
    rw [← translated.length_eq] at few
    omega

theorem responseBuffer_count {records : List StateRequest} (few : records.length ≤ 8) :
    (htonl (word32 ((responseBuffer records).take 4))).toNat = records.length := by
  rw [responseBuffer, Words.take_bytes32_append, Words.word32_bytes32]
  simp only [htonl, Words.swap32_swap32]
  rw [UInt32.toNat_ofNat', Nat.mod_eq_of_lt (by omega)]

theorem responseBuffer_body (records : List StateRequest) :
    (responseBuffer records).drop 4 = records.flatMap layout.image :=
  Words.drop_bytes32_append _ _ 0

theorem uid_of_decoded {req p : StateRequest}
    (h : stateRreceive sodium (layout.image req) = .received p) : p.uid = htonl req.uid := by
  obtain ⟨-, converted⟩ := stateRreceive_received h
  rw [Layout.ofImage_image] at converted
  exact uid_of_convert converted

/-! ## When the answer is right -/

section Answer

variable {pending : ProtQueue ServerRequest} {accepted : List StateRequest} {uid : UInt32}

theorem mem_others {sr : ServerRequest} (kept : sr.r ∈ pending.contents.map (·.r))
    (other : sr.r.uid ≠ uid) : sr.r.uid ∈ (others pending uid).map (·.r.uid) := by
  obtain ⟨sr', member, same⟩ := List.mem_map.mp kept
  refine List.mem_map.mpr ⟨sr', List.mem_filter.mpr ⟨member, ?_⟩, congrArg StateRequest.uid same⟩
  simpa [same] using other

theorem uids_of_translated {cells : List ServerRequest} {records peers : List StateRequest}
    (translated : Translated cells records)
    (decoded : List.Forall₂ (fun req p => stateRreceive sodium (layout.image req) = .received p)
      records peers) :
    cells.map (·.r.uid) = peers.map (·.uid) := by
  have sent : records.map (·.uid) = cells.map (htonl ·.r.uid) := by
    rw [← List.forall₂_eq_eq_eq, List.forall₂_map_left_iff, List.forall₂_map_right_iff]
    exact translated.flip.imp fun record sr same => uid_of_convert same
  have back : peers.map (·.uid) = records.map (htonl ·.uid) := by
    rw [← List.forall₂_eq_eq_eq, List.forall₂_map_left_iff, List.forall₂_map_right_iff]
    exact decoded.flip.imp fun p req same => uid_of_decoded same
  have twice := congrArg (List.map htonl) sent
  rw [List.map_map, List.map_map] at twice
  rw [back]
  simpa [Function.comp_def] using twice.symm

theorem listable_of_lists {pk : Protopack} {sent records peers : List StateRequest}
    (kept : ∀ r ∈ accepted, r ∈ pending.contents.map (·.r))
    (translated : Translated (listed pending uid) sent)
    (packet : pk.payload = responseBuffer sent) (few : sent.length ≤ 8)
    (h : Lists sodium accepted uid pk records peers) : Listable pending uid := by
  -- the records of the packet are read off its bytes, so they are those the handler wrote
  have sameRecords : records = sent := by
    apply layout.flatMap_image_inj (by decide)
    rw [← h.body, packet, responseBuffer_body]
  have uids := uids_of_translated translated (sameRecords ▸ h.decoded)
  have distinct : ((others pending uid).map (·.r.uid) ++
      (pending.spare.filter fun sr => sr.r.uid ≠ uid).map (·.r.uid)).Nodup := by
    rw [← List.map_append, ← ((listed_perm pending uid).map _).nodup_iff, uids]
    exact h.distinct
  obtain ⟨distinctOthers, -, apart⟩ := List.nodup_append.mp distinct
  refine ⟨?_, ?_, distinctOthers⟩
  · -- an unused cell of another uid repeats the uid of the kept request it decodes to
    intro sr unused
    by_contra other
    have inSpare : sr.r.uid ∈ (pending.spare.filter fun sr => sr.r.uid ≠ uid).map (·.r.uid) :=
      List.mem_map.mpr ⟨sr, List.mem_filter.mpr ⟨unused, by simpa using other⟩, rfl⟩
    have inList : sr.r.uid ∈ (listed pending uid).map (·.r.uid) := by
      rw [((listed_perm pending uid).map _).mem_iff, List.map_append]
      exact List.mem_append_right _ inSpare
    obtain ⟨p, member, same⟩ := List.mem_map.mp (uids ▸ inList)
    obtain ⟨known, -⟩ := h.known p member
    obtain ⟨sr', stored, rfl⟩ := List.mem_map.mp (kept p known)
    have inOthers : sr'.r.uid ∈ (others pending uid).map (·.r.uid) :=
      mem_others (List.mem_map.mpr ⟨sr', stored, rfl⟩) (same ▸ other)
    exact apart _ inOthers _ inSpare same
  · have length := (listed_perm pending uid).length_eq
    rw [List.length_append, translated.length_eq] at length
    omega

theorem Listable.listed_perm_others (h : Listable pending uid) :
    (listed pending uid).Perm (others pending uid) := by
  have noSpare : (pending.spare.filter fun sr => sr.r.uid ≠ uid) = [] := by
    rw [List.filter_eq_nil_iff]
    intro sr unused
    simpa using h.spare sr unused
  have cells := listed_perm pending uid
  rwa [noSpare, List.append_nil] at cells

/-- Of a listable queue only accepted requests are listed. -/
theorem Listable.accepted_of_listed (h : Listable pending uid)
    (kept : ∀ r, r ∈ pending.contents.map (·.r) ↔ r ∈ accepted) {sr : ServerRequest}
    (member : sr ∈ listed pending uid) : sr.r ∈ accepted ∧ sr.r.uid ≠ uid := by
  obtain ⟨stored, other⟩ := List.mem_filter.mp (h.listed_perm_others.mem_iff.mp member)
  exact ⟨(kept sr.r).mp (List.mem_map.mpr ⟨sr, stored, rfl⟩), by simpa using other⟩

theorem exists_translated {P : StateRequest → StateRequest → Prop} {cells : List ServerRequest}
    (each : ∀ sr ∈ cells, ∃ record, stateRetranslate sr.r = some record ∧ P record sr.r) :
    ∃ records, Translated cells records ∧ List.Forall₂ P records (cells.map (·.r)) := by
  induction cells with
  | nil => exact ⟨[], .nil, .nil⟩
  | cons sr cells ih =>
    obtain ⟨⟨record, translated, holds⟩, rest⟩ := List.forall_mem_cons.mp each
    obtain ⟨records, others, hold⟩ := ih rest
    exact ⟨record :: records, .cons translated others, .cons holds hold⟩

/-- A server whose unused cells read as the peer itself gives a right answer. -/
theorem lists_of_listable {pk : Protopack} {records : List StateRequest}
    (kept : ∀ r, r ∈ pending.contents.map (·.r) ↔ r ∈ accepted)
    (decoded : List.Forall₂ (fun req p => stateRreceive sodium (layout.image req) = .received p)
      records
      ((listed pending uid).map (·.r)))
    (packet : pk.payload = responseBuffer records) (h : Listable pending uid) :
    Lists sodium accepted uid pk records ((listed pending uid).map (·.r)) := by
  have cells := h.listed_perm_others
  have length : records.length = (listed pending uid).length := by
    rw [decoded.length_eq, List.length_map]
  constructor
  case header =>
    rw [packet, length_responseBuffer]
    omega
  case count => rw [packet, responseBuffer_count (length.trans_le (cells.length_eq.trans_le h.few))]
  case body => rw [packet, responseBuffer_body]
  case decoded => exact decoded
  case known =>
    intro p member
    obtain ⟨sr, stored, rfl⟩ := List.mem_map.mp member
    exact h.accepted_of_listed kept stored
  case distinct =>
    rw [List.map_map]
    exact ((cells.map _).nodup_iff).mpr h.distinct
  case complete =>
    intro _ other member
    obtain ⟨found, different⟩ := List.mem_filter.mp (List.mem_dedup.mp member)
    obtain ⟨r, stored, rfl⟩ := List.mem_map.mp found
    obtain ⟨sr, cell, rfl⟩ := List.mem_map.mp ((kept r).mpr stored)
    rw [List.map_map]
    refine (cells.map _).mem_iff.mpr (mem_others (List.mem_map.mpr ⟨sr, cell, rfl⟩) ?_)
    -- the loop takes every cell but those of the peer itself
    simpa using different

end Answer

/-- After a history of valid requests, the answer to a peer is right exactly when the kept
    requests are listable for it. -/
theorem stateHandler_answers_iff (history : List Incoming) (m : Incoming) (r : StateRequest)
    (valid : ∀ q ∈ history.filterMap (received sodium), Relayable sodium q)
    (request : received sodium m = some r) :
    AnswersAfter sodium history m r ↔ ∃ pending, served sodium history = some pending ∧
      Listable pending r.uid := by
  constructor
  · rintro ⟨pending, outcome, running, handled, pk, dest, records, peers, sent, lists⟩
    obtain ⟨written, translated, rfl⟩ := (stateHandler_received request).mp handled
    obtain ⟨packet, -⟩ := Prod.mk.inj (Option.some.inj sent)
    obtain ⟨fits, -⟩ := udpMakePack_eq_some.mp packet
    exact ⟨pending, running, listable_of_lists
      (fun r accepted => (mem_served running r).mpr accepted) translated
      (udpMakePack_payload packet) ((fits_iff _).mp fits) lists⟩
  · rintro ⟨pending, running, listable⟩
    have kept := mem_served running
    obtain ⟨records, translated, decoded⟩ := exists_translated
      (P := fun req p => stateRreceive sodium (layout.image req) = .received p) fun sr member => by
        obtain ⟨sent, sentAs⟩ := valid sr.r (listable.accepted_of_listed kept member).1
        exact ⟨sent, sentAs.translated, sentAs.received⟩
    -- at most eight records, so the packet can be made
    have few : records.length ≤ 8 :=
      translated.length_eq.symm.trans_le
        (listable.listed_perm_others.length_eq.trans_le listable.few)
    obtain ⟨pk, packet⟩ : ∃ pk, udpMakePack 0 0 r.uid .state (some (responseBuffer records))
        (responseBuffer records).length = some pk :=
      ⟨_, udpMakePack_eq_some.mpr ⟨(fits_iff _).mpr few, rfl⟩⟩
    exact ⟨pending, _, running, (stateHandler_received request).mpr ⟨records, translated, rfl⟩, pk,
      m.nfd, records, _,
      by rw [packet], lists_of_listable kept decoded (udpMakePack_payload packet) listable⟩

/-! ## A server that runs on -/

theorem stateRetranslate_isSome {r : StateRequest} (terminated : r.addr.Terminated) :
    ∃ record, stateRetranslate r = some record := by
  obtain ⟨addr, converted⟩ := Option.isSome_iff_exists.mp (lnConvert_isSome htons terminated)
  exact ⟨_, congrArg (Option.map _) converted⟩

/-- Where all texts in the cells have their zeros, the handler has a result. -/
theorem keep_of_terminated {pending : ProtQueue ServerRequest} {m : Incoming} {r : StateRequest}
    (request : received sodium m = some r) (cells : ∀ sr ∈ pending.cells, sr.r.addr.Terminated) :
    keep sodium pending m = some (protQueueUpush m.malloc pending ⟨r, m.nfd⟩) := by
  obtain ⟨records, translated, -⟩ : ∃ records, Translated (listed pending r.uid) records ∧ _ :=
    exists_translated (P := fun _ _ => True) fun sr member => by
      obtain ⟨record, translated⟩ := stateRetranslate_isSome
        (cells sr (List.mem_of_mem_filter member))
      exact ⟨record, translated, trivial⟩
  rw [keep, (stateHandler_received request).mpr ⟨records, translated, rfl⟩, Option.map_some]

theorem received_terminated {m : Incoming} {r : StateRequest}
    (request : received sodium m = some r) : r.addr.Terminated := by
  simp only [received, Option.ite_none_left_eq_some] at request
  obtain ⟨-, accepted⟩ := request
  split at accepted
  next q reception =>
    cases accepted
    obtain ⟨addr, converted, rfl⟩ := Option.map_eq_some_iff.mp (stateRreceive_received reception).2
    exact lnConvert_terminated converted
  · cases accepted
  · cases accepted

/-- A message whose address can be copied, and that brings no other into the cells. -/
structure Incoming.Terminated (sodium : Sodium) (m : Incoming) : Prop where
  reception : stateRreceive sodium m.pck.data ≠ .undefined
  malloc : ∀ i, (m.malloc i).r.addr.Terminated

theorem keep_terminated {pending : ProtQueue ServerRequest} {m : Incoming}
    (terminated : m.Terminated sodium) (cells : ∀ sr ∈ pending.cells, sr.r.addr.Terminated) :
    ∃ pending', keep sodium pending m = some pending' ∧
      ∀ sr ∈ pending'.cells, sr.r.addr.Terminated := by
  cases request : received sodium m with
  | some r =>
    refine ⟨_, keep_of_terminated request cells, fun sr member => ?_⟩
    -- a cell is an old one, the new one, or one that `malloc` gave
    obtain old | rfl | ⟨i, rfl⟩ := mem_cells_protQueueUpush member
    · exact cells sr old
    · exact received_terminated request
    · exact terminated.malloc i
  | none =>
    have handled : (stateHandler sodium pending m).isSome := by
      have reception := terminated.reception
      rw [received] at request
      rw [stateHandler]
      split
      · rfl
      next size =>
        rw [if_neg size] at request
        cases answer : stateRreceive sodium m.pck.data with
        | received r => simp [answer] at request
        | refused => rfl
        | undefined => exact absurd answer reception
    obtain ⟨outcome, handled⟩ := Option.isSome_iff_exists.mp handled
    obtain rfl := stateHandler_rejected request handled
    exact ⟨pending, congrArg (Option.map _) handled, cells⟩

theorem terminated_zero_cells : ServerRequest.zero.r.addr.Terminated := by decide +kernel

theorem created_terminated : ∀ sr ∈ (protQueueCreate ServerRequest.zero).cells,
    sr.r.addr.Terminated := by
  intro sr member
  rw [List.eq_of_mem_replicate member]
  exact terminated_zero_cells

/-- A server runs on, as long as no message brings a text without its zero. -/
theorem served_of_terminated {history : List Incoming}
    (terminated : ∀ m ∈ history, m.Terminated sodium) :
    ∃ pending, served sodium history = some pending ∧
      ∀ sr ∈ pending.cells, sr.r.addr.Terminated := by
  have running : ∀ pending : ProtQueue ServerRequest, (∀ sr ∈ pending.cells, sr.r.addr.Terminated) →
      ∃ pending', Transition.run (keep sodium) pending history = some pending' ∧
        ∀ sr ∈ pending'.cells, sr.r.addr.Terminated := by
    induction history with
    | nil => exact fun pending cells => ⟨pending, rfl, cells⟩
    | cons m history ih =>
      intro pending cells
      obtain ⟨here, rest⟩ := List.forall_mem_cons.mp terminated
      obtain ⟨middle, kept, cells'⟩ := keep_terminated here cells
      obtain ⟨pending', reached, cells''⟩ := ih rest middle cells'
      exact ⟨pending', Transition.run_cons.mpr ⟨middle, kept, reached⟩, cells''⟩
  exact running _ created_terminated

/-! ## Samples -/

/-- What the owner of a key of one byte asks for. -/
def sampleRequest (b : UInt8) : StateRequest :=
  ownRequest (.ipv4 sampleText 80) .requestPeers 5 1700000000 toySodium (toySign b)

def sampleSent (b : UInt8) : StateRequest :=
  ownSent (.ipv4 sampleText 80) .requestPeers 5 1700000000 toySodium (toySign b)

def sampleIncoming (b : UInt8) : Incoming where
  pck := {
    seq := 0, chsum := 0, dSize := 168, hFrom := 9, hTo := 0, packtype := ProtopackType.state.code,
    data := layout.image (sampleSent b) }
  nfd := Vector.replicate sizeofNnetFd 0
  malloc _ := ServerRequest.zero

theorem sampleRequest_sentAs (b : UInt8) : SentAs toySodium (sampleRequest b) (sampleSent b) :=
  ownRequest_sentAs _ _ _ _ (toySign_verifies b)

theorem received_sampleIncoming (b : UInt8) :
    received toySodium (sampleIncoming b) = some (sampleRequest b) := by
  have reception : stateRreceive toySodium (sampleIncoming b).pck.data
      = .received (sampleRequest b) :=
    (sampleRequest_sentAs b).received
  rw [received, reception]
  exact if_neg (not_not.mpr rfl)

theorem sampleIncoming_terminated (b : UInt8) : (sampleIncoming b).Terminated toySodium where
  reception := by
    have reception : stateRreceive toySodium (sampleIncoming b).pck.data
        = .received (sampleRequest b) :=
      (sampleRequest_sentAs b).received
    rw [reception]
    simp
  malloc _ := terminated_zero_cells

/-- What a server keeps of these peers. -/
def keepSample (pending : ProtQueue ServerRequest) (b : UInt8) : ProtQueue ServerRequest :=
  protQueueUpush (sampleIncoming b).malloc pending ⟨sampleRequest b, (sampleIncoming b).nfd⟩

theorem served_samples (bs : List UInt8) :
    served toySodium (bs.map sampleIncoming)
      = some (bs.foldl keepSample (protQueueCreate ServerRequest.zero)) := by
  have running : ∀ pending : ProtQueue ServerRequest, (∀ sr ∈ pending.cells, sr.r.addr.Terminated) →
      Transition.run (keep toySodium) pending (bs.map sampleIncoming)
        = some (bs.foldl keepSample pending) := by
    induction bs with
    | nil => exact fun _ _ => rfl
    | cons b bs ih =>
      intro pending cells
      have kept := keep_of_terminated (received_sampleIncoming b) cells
      obtain ⟨pending', kept', cells'⟩ := keep_terminated (sampleIncoming_terminated b) cells
      cases kept.symm.trans kept'
      exact Transition.run_cons.mpr ⟨_, kept, ih _ cells'⟩
  exact running _ created_terminated

theorem sampleRequest_inj {a b : UInt8} (same : sampleRequest a = sampleRequest b) : a = b :=
  congrArg (fun req : StateRequest => firstByte req.pubkey) same

theorem contents_samples {bs : List UInt8} (distinct : bs.Nodup) :
    (bs.foldl keepSample (protQueueCreate ServerRequest.zero)).contents
      = bs.map fun b => ⟨sampleRequest b, Vector.replicate sizeofNnetFd 0⟩ := by
  induction bs using List.reverseRecOn with
  | nil => rfl
  | append_singleton bs b ih =>
    have parts := List.nodup_append.mp distinct
    have fresh : (⟨sampleRequest b, (sampleIncoming b).nfd⟩ : ServerRequest)
        ∉ bs.map fun b => ⟨sampleRequest b, Vector.replicate sizeofNnetFd 0⟩ := by
      intro member
      obtain ⟨a, before, same⟩ := List.mem_map.mp member
      exact parts.2.2 a before b List.mem_cons_self
        (sampleRequest_inj (congrArg ServerRequest.r same))
    rw [List.foldl_append, List.foldl_cons, List.foldl_nil, keepSample, contents_protQueueUpush,
      ih parts.1, if_neg fresh, List.map_append]
    rfl

/-- Few peers leave the unused cells as they were. -/
theorem spare_samples {bs : List UInt8} (few : bs.length < initialLen) :
    ∀ sr ∈ (bs.foldl keepSample (protQueueCreate ServerRequest.zero)).spare, sr
      = ServerRequest.zero := by
  have kept : ∀ pending : ProtQueue ServerRequest, pending.count +
      bs.length ≤ pending.cells.length →
      (bs.foldl keepSample pending).spare ⊆ pending.spare := by
    clear few
    induction bs with
    | nil => exact fun pending _ => List.Subset.refl _
    | cons b bs ih =>
      intro pending room
      rw [List.length_cons] at room
      have free : pending.count < pending.cells.length := by omega
      obtain ⟨length, count, taken⟩ :=
        protQueueUpush_of_free (sampleIncoming b).malloc ⟨sampleRequest b, (sampleIncoming b).nfd⟩
          free
      exact List.Subset.trans (ih (keepSample pending b) (by rw [keepSample]; omega)) taken
  have length : (protQueueCreate ServerRequest.zero).cells.length = initialLen :=
    List.length_replicate
  intro sr unused
  have cell := kept (protQueueCreate ServerRequest.zero)
    (by rw [length]; exact (Nat.zero_add _).trans_le few.le) unused
  obtain ⟨i, -, rfl⟩ := List.mem_map.mp cell
  exact List.eq_of_mem_replicate (slot_mem (protQueueCreate ServerRequest.zero) _)

/-- The cells of zeros read as a peer of UID 0, which so learns of the three others. -/
theorem stateHandler_answers_sample :
    received toySodium (sampleIncoming 0) = some (sampleRequest 0) ∧
      AnswersAfter toySodium ([1, 2, 3].map sampleIncoming) (sampleIncoming 0)
        (sampleRequest 0) := by
  have known : ([1, 2, 3].map sampleIncoming).filterMap (received toySodium)
      = [1, 2, 3].map sampleRequest := by
    simp only [List.map_cons, List.map_nil, List.filterMap_cons, List.filterMap_nil,
      received_sampleIncoming]
  have contents := @contents_samples [1, 2, 3] (by decide)
  have spare : ∀ sr ∈ ([1, 2, 3].foldl keepSample (protQueueCreate ServerRequest.zero)).spare,
      sr.r.uid = (sampleRequest 0).uid := by
    intro sr unused
    rw [spare_samples (by decide) sr unused]
    decide
  refine ⟨received_sampleIncoming 0,
    (stateHandler_answers_iff _ _ _ ?_ (received_sampleIncoming 0)).mpr
    ⟨_, served_samples [1, 2, 3], spare, ?_, ?_⟩⟩
  · intro q member
    rw [known] at member
    obtain ⟨b, -, rfl⟩ := List.mem_map.mp member
    exact ⟨_, sampleRequest_sentAs b⟩
  · rw [others, contents]
    exact (List.length_filter_le _ _).trans (by decide)
  · have uids : ((others ([1, 2, 3].foldl keepSample (protQueueCreate ServerRequest.zero))
        (sampleRequest 0).uid).map
        (·.r.uid)).Sublist ([1, 2, 3].map fun b => (sampleRequest b).uid) := by
      rw [others, contents]
      exact List.filter_sublist.map _
    exact uids.nodup (by decide)

/-- A new server sends its first client no packet: 1024 cells of zeros count as peers. -/
theorem stateHandler_first_answer :
    received toySodium (sampleIncoming 1) = some (sampleRequest 1) ∧
    (∃ outcome, stateHandler toySodium (protQueueCreate ServerRequest.zero) (sampleIncoming 1)
      = some outcome ∧
      outcome.sent = some (none, (sampleIncoming 1).nfd)) ∧
    ¬ AnswersAfter toySodium [] (sampleIncoming 1) (sampleRequest 1) := by
  have other : decide (ServerRequest.zero.r.uid ≠ (sampleRequest 1).uid) = true := by decide
  have all : (listed (protQueueCreate ServerRequest.zero) (sampleRequest 1).uid).length
      = initialLen := by
    rw [listed, protQueueCreate, List.filter_replicate, if_pos other, List.length_replicate]
  have many : 8 < (listed (protQueueCreate ServerRequest.zero) (sampleRequest 1).uid).length := by
    rw [all]
    decide
  refine ⟨received_sampleIncoming 1, ?_, ?_⟩
  · have kept := keep_of_terminated (received_sampleIncoming 1) created_terminated
    obtain ⟨outcome, handled, -⟩ := Option.map_eq_some_iff.mp kept
    exact ⟨outcome, handled, sent_of_many (received_sampleIncoming 1) many handled⟩
  · rintro ⟨pending, outcome, running, handled, pk, dest, records, peers, answered, -⟩
    obtain rfl := Option.some.inj running
    rw [sent_of_many (received_sampleIncoming 1) many handled] at answered
    cases answered

end Soter2.Stating
