import Mathlib.Data.List.Basic
import Mathlib.Tactic.Common
import Soter2.Turn.Relay

/-! # System messages of the relay (`turn_client_req_sys`, `turn_client_unwrap_sys`)

The relay answers a request with its number, a status and perhaps a text.  The client copies
its own two variables over the answer instead of reading them from it.

* `system_message_iff` — which messages come through, and which other payloads are rejected.
-/

namespace Soter2.Turn

open Soter2.Lownet Soter2.Protocol Soter2.Peers

def turnCommentaryMaxSize : Nat := 500

/-- `turn_client_req_sys`; a commentary is a string, so none of its bytes is 0. -/
def turnClientReqSysWith (toWhom : Naddr) (toUid truid : UInt32) (status : TurnSysStatus)
    (commentary : Option (List UInt8)) : Option TurnRequest :=
  let data := Words.bytes32 (htonl truid) ++ Words.bytes32 status.code ++ commentary.getD []
  turnReqMake .systemMsg toWhom toUid truid data (UInt32.ofNat data.length)

theorem turnClientReqSysWith_none (toWhom : Naddr) (toUid truid : UInt32) (status : TurnSysStatus) :
    turnClientReqSysWith toWhom toUid truid status none = turnClientReqSys toWhom toUid truid
      status := rfl

/-- What `turn_client_unwrap_sys` returns, and what it leaves in the client, the request and the
    variables of its caller. -/
structure SysUnwrapped where
  code : Int
  cli : TurnClient
  request : TurnRequest
  vars : Uninit
  commentary : Option (List UInt8)

/-- The request after the two copies, which go into its data and not out of it. -/
def overwrittenSys (request : TurnRequest) (vars : Uninit) : TurnRequest :=
  { request with data := Words.bytes32 vars.truid ++ Words.bytes32 vars.status ++
    request.data.drop 8 }

/-- `turn_client_unwrap_sys`, with everything it writes to. -/
def turnClientUnwrapSysAll (cli : TurnClient) (request : TurnRequest) (vars : Uninit) :
    SysUnwrapped :=
  -- the size of the pointer `status`
  if request.dSize.toNat < 4 + 8 then ⟨-1, cli, request, vars, none⟩
  else
    let request := overwrittenSys request vars
    if vars.truid ≠ TurnSysStatus.fail.code ∧ vars.truid ≠ TurnSysStatus.ok.code then
      ⟨-1, cli, request, vars, none⟩
    else
      let set := { cli with sysRequests := cli.sysRequests.set vars.truid vars.status }
      if 8 < request.dSize.toNat then
        if request.dSize.toNat - 8 > turnCommentaryMaxSize then ⟨0, cli, request, vars, none⟩
        else ⟨0, set, request, vars, some ((request.data.drop 8).take (request.dSize.toNat - 8))⟩
      else ⟨0, set, request, vars, none⟩

variable {cli : TurnClient} {request : TurnRequest} {vars : Uninit}

/-- The number is taken for a status, and has to be one of the two final ones. -/
def PassesCheck (vars : Uninit) : Prop :=
  vars.truid = TurnSysStatus.ok.code ∨ vars.truid = TurnSysStatus.fail.code

theorem not_passesCheck :
    ¬ PassesCheck vars ↔ vars.truid ≠ TurnSysStatus.fail.code ∧
      vars.truid ≠ TurnSysStatus.ok.code := by
  rw [PassesCheck, not_or, and_comm]

theorem turnClientUnwrapSysAll_short (small : request.dSize.toNat < 12) :
    turnClientUnwrapSysAll cli request vars = ⟨-1, cli, request, vars, none⟩ := if_pos small

theorem turnClientUnwrapSysAll_malformed (large : 12 ≤ request.dSize.toNat)
    (bad : ¬ PassesCheck vars) :
    turnClientUnwrapSysAll cli request vars
      = ⟨-1, cli, overwrittenSys request vars, vars, none⟩ := by
  rw [turnClientUnwrapSysAll, if_neg (Nat.not_lt.mpr large)]
  exact if_pos (not_passesCheck.mp bad)

/-- A request that passes is given up where the text is too long, and entered in the table
    where it is not. -/
theorem turnClientUnwrapSysAll_passes (cli : TurnClient) (large : 12 ≤ request.dSize.toNat)
    (passes : PassesCheck vars) :
    turnClientUnwrapSysAll cli request vars =
      if request.dSize.toNat - 8 > turnCommentaryMaxSize then
        ⟨0, cli, overwrittenSys request vars, vars, none⟩
      else
        ⟨0, { cli with sysRequests := cli.sysRequests.set vars.truid vars.status },
          overwrittenSys request vars, vars,
          some ((request.data.drop 8).take (request.dSize.toNat - 8))⟩ := by
  have beyond : 8 < (overwrittenSys request vars).dSize.toNat := by
    show 8 < request.dSize.toNat
    omega
  have wellFormed : ¬ (vars.truid ≠ TurnSysStatus.fail.code ∧ vars.truid ≠ TurnSysStatus.ok.code) :=
    fun bad => not_passesCheck.mpr bad passes
  simp only [turnClientUnwrapSysAll, if_neg (Nat.not_lt.mpr large), if_neg wellFormed,
    if_pos beyond]
  rfl

theorem turnClientUnwrapSysAll_eq (cli : TurnClient) (request : TurnRequest) (vars : Uninit) :
    ((turnClientUnwrapSysAll cli request vars).code, (turnClientUnwrapSysAll cli request vars).cli)
      = turnClientUnwrapSys cli request vars := by
  rw [turnClientUnwrapSys]
  by_cases small : request.dSize.toNat < 12
  · rw [turnClientUnwrapSysAll_short small, if_pos small]
  · rw [if_neg small]
    have large := Nat.not_lt.mp small
    by_cases passes : PassesCheck vars
    · rw [turnClientUnwrapSysAll_passes cli large passes,
        if_neg fun bad => not_passesCheck.mpr bad passes]
      by_cases long : request.dSize.toNat - 8 > 500
      · rw [if_pos long, if_pos (show _ > turnCommentaryMaxSize from long)]
      · rw [if_neg long, if_neg (show ¬ _ > turnCommentaryMaxSize from long)]
    · rw [turnClientUnwrapSysAll_malformed large passes, if_pos (not_passesCheck.mp passes)]

theorem vars_turnClientUnwrapSysAll (cli : TurnClient) (request : TurnRequest) (vars : Uninit) :
    (turnClientUnwrapSysAll cli request vars).vars = vars := by
  by_cases small : request.dSize.toNat < 12
  · rw [turnClientUnwrapSysAll_short small]
  · have large := Nat.not_lt.mp small
    by_cases passes : PassesCheck vars
    · rw [turnClientUnwrapSysAll_passes cli large passes]
      split <;> rfl
    · rw [turnClientUnwrapSysAll_malformed large passes]

/-! ## Messages -/

/-- An answer of the relay. -/
structure SysMessage where
  truid : UInt32
  status : TurnSysStatus
  commentary : Option (List UInt8)
  final : status = .ok ∨ status = .fail
  text : ∀ c ∈ commentary.getD [], c ≠ 0
  short : (commentary.getD []).length ≤ turnCommentaryMaxSize

namespace SysMessage

variable (m : SysMessage)

def payload : List UInt8 := Words.bytes32 (htonl m.truid) ++ Words.bytes32 m.status.code ++
    m.commentary.getD []

/-- The request has the payload of the message and its size in host order. -/
def CarriedBy (request : TurnRequest) : Prop :=
  ∃ toWhom toUid sent, turnClientReqSysWith toWhom toUid m.truid m.status m.commentary = some sent ∧
    request.data = sent.data ∧ request.dSize = htonl sent.dSize

/-- The message comes through. -/
structure Understood (cli : TurnClient) (request : TurnRequest) (vars : Uninit) : Prop where
  code : (turnClientUnwrapSysAll cli request vars).code = 0
  truid : (turnClientUnwrapSysAll cli request vars).vars.truid = m.truid
  status : (turnClientUnwrapSysAll cli request vars).vars.status = m.status.code
  commentary : (turnClientUnwrapSysAll cli request vars).commentary = m.commentary
  answered : (turnClientUnwrapSysAll cli request vars).cli.sysRequests.get m.truid
    = some m.status.code
  others : ∀ truid, truid ≠ m.truid →
    (turnClientUnwrapSysAll cli request vars).cli.sysRequests.get truid = cli.sysRequests.get truid
  request : (turnClientUnwrapSysAll cli request vars).request = request

/-- The variables happen to hold the message, which has the number 0 and a text of at least
    four bytes. -/
structure Foreseen (vars : Uninit) : Prop where
  truid : m.truid = 0
  held : vars.truid = 0
  status : vars.status = m.status.code
  text : 4 ≤ (m.commentary.getD []).length

variable {m}

theorem length_payload : m.payload.length = 8 + (m.commentary.getD []).length := by
  simp only [payload, List.length_append, Words.length_bytes32]

theorem toNat_length_payload (m : SysMessage) :
    (UInt32.ofNat m.payload.length).toNat = m.payload.length := by
  have short := m.short
  rw [turnCommentaryMaxSize] at short
  rw [UInt32.toNat_ofNat', length_payload, Nat.mod_eq_of_lt (by omega)]

theorem CarriedBy.sizes (h : m.CarriedBy request) :
    request.data = m.payload ∧ request.dSize.toNat = 8 + (m.commentary.getD []).length := by
  obtain ⟨toWhom, toUid, sent, made, data, dSize⟩ := h
  obtain ⟨-, sentData, sentSize⟩ := turnReqMake_some made
  refine ⟨?_, ?_⟩
  · rw [data, sentData]
    show m.payload.take (UInt32.ofNat m.payload.length).toNat = m.payload
    rw [m.toNat_length_payload, List.take_length]
  · rw [dSize, sentSize, ← length_payload, ← m.toNat_length_payload]
    exact congrArg UInt32.toNat (Words.swap32_swap32 _)

/-- A number that passes the check and is the same in both byte orders is 0. -/
theorem truid_eq_zero {truid : UInt32}
    (passes : truid = TurnSysStatus.ok.code ∨ truid = TurnSysStatus.fail.code)
    (same : truid = htonl truid) : truid = 0 := by
  cases passes with
  | inl ok => exact ok
  | inr fail =>
    rw [fail] at same
    exact absurd same (by decide)

/-- A message comes through exactly if the client foresaw it. -/
theorem understood_iff (carried : m.CarriedBy request) :
    m.Understood cli request vars ↔ m.Foreseen vars := by
  obtain ⟨data, size⟩ := carried.sizes
  have short := m.short
  constructor
  · intro h
    have held := h.truid
    have status := h.status
    rw [vars_turnClientUnwrapSysAll] at held status
    have code := h.code
    have kept := h.request
    -- a result of 0 leaves only the branch that writes to the request
    have large : 12 ≤ request.dSize.toNat := by
      by_contra small
      rw [turnClientUnwrapSysAll_short (Nat.not_le.mp small)] at code
      exact absurd code.symm accepted_ne
    have passes : PassesCheck vars := by
      by_contra bad
      rw [turnClientUnwrapSysAll_malformed large bad] at code
      exact absurd code.symm accepted_ne
    have fits : ¬ request.dSize.toNat - 8 > turnCommentaryMaxSize := by omega
    rw [turnClientUnwrapSysAll_passes cli large passes, if_neg fits] at kept
    -- the request is unchanged, so it began with the number in the order of the host
    have order : Words.bytes32 vars.truid = Words.bytes32 (htonl m.truid) := by
      have bytes := congrArg (fun r : TurnRequest => r.data.take 4) kept
      rw [data] at bytes
      exact bytes
    have same : vars.truid = htonl vars.truid := (Words.bytes32_inj order).trans (by rw [held])
    have zero := truid_eq_zero passes same
    exact ⟨held.symm.trans zero, zero, status, by omega⟩
  · intro h
    have large : 12 ≤ request.dSize.toNat := by
      have := h.text
      omega
    have fits : ¬ request.dSize.toNat - 8 > turnCommentaryMaxSize := by omega
    have passes : PassesCheck vars := .inl h.held
    -- what is written over the number and the status is what stood there
    have unchanged : overwrittenSys request vars = request := by
      have bytes : Words.bytes32 vars.truid ++ Words.bytes32 vars.status ++ request.data.drop 8
          = request.data := by
        rw [data, h.held, h.status, payload, h.truid]
        rfl
      rw [overwrittenSys, bytes]
    have text : some ((request.data.drop 8).take (request.dSize.toNat - 8)) = m.commentary := by
      have behind : request.data.drop 8 = m.commentary.getD [] := by
        rw [data]
        rfl
      rw [behind, size, Nat.add_sub_cancel_left, List.take_length]
      cases said : m.commentary with
      | none => exact absurd h.text (by simp [said])
      | some c => rfl
    have result := turnClientUnwrapSysAll_passes cli large passes
    rw [if_neg fits, unchanged, text, h.held, h.status, ← h.truid] at result
    constructor
    · rw [result]
    · rw [vars_turnClientUnwrapSysAll, h.held, h.truid]
    · rw [vars_turnClientUnwrapSysAll, h.status]
    · rw [result]
    · rw [result]
      exact AssocTable.get_set_self _ _ _
    · intro truid other
      rw [result]
      exact AssocTable.get_set_ne _ _ other
    · rw [result]

end SysMessage

/-! ## Other payloads -/

/-- The request is refused, and no status is entered. -/
structure Rejected (cli : TurnClient) (request : TurnRequest) (vars : Uninit) : Prop where
  code : (turnClientUnwrapSysAll cli request vars).code = -1
  unchanged : ∀ truid, (turnClientUnwrapSysAll cli request vars).cli.sysRequests.get truid
    = cli.sysRequests.get truid

theorem rejected_iff (cli : TurnClient) (request : TurnRequest) (vars : Uninit) :
    Rejected cli request vars ↔ request.dSize.toNat < 12 ∨ ¬ PassesCheck vars := by
  by_cases small : request.dSize.toNat < 12
  · refine iff_of_true ⟨?_, fun truid => ?_⟩ (.inl small)
    · rw [turnClientUnwrapSysAll_short small]
    · rw [turnClientUnwrapSysAll_short small]
  · rw [or_iff_right small]
    have large := Nat.not_lt.mp small
    by_cases passes : PassesCheck vars
    · refine iff_of_false (fun rejected => ?_) (not_not_intro passes)
      have code := rejected.code
      rw [turnClientUnwrapSysAll_passes cli large passes] at code
      split at code <;> exact absurd code accepted_ne
    · refine iff_of_true ⟨?_, fun truid => ?_⟩ passes
      · rw [turnClientUnwrapSysAll_malformed large passes]
      · rw [turnClientUnwrapSysAll_malformed large passes]

/-- A message comes through exactly if the client foresaw it, and any other payload is rejected
    exactly if it is short or the number that the client happens to hold is no status. -/
theorem system_message_iff (cli : TurnClient) (request : TurnRequest) (vars : Uninit) :
    (∀ m : SysMessage, m.CarriedBy request → (m.Understood cli request vars ↔ m.Foreseen vars)) ∧
      (request.dSize.toNat = request.data.length → (∀ m : SysMessage, ¬ m.CarriedBy request) →
        (Rejected cli request vars ↔ request.dSize.toNat < 12 ∨ ¬ PassesCheck vars)) :=
  ⟨fun _ => SysMessage.understood_iff, fun _ _ => rejected_iff cli request vars⟩

/-- The answer to request 7, without a text and with one. -/
def answerSeven : SysMessage where
  truid := 7
  status := .ok
  commentary := none
  final := .inl rfl
  text := by simp
  short := Nat.zero_le _

def answerDone : SysMessage where
  truid := 7
  status := .ok
  commentary := some [100, 111, 110, 101]
  final := .inl rfl
  text := by simp
  short := by show 4 ≤ 500; omega

/-- As the client decodes it. -/
def decodedAnswer (m : SysMessage) : TurnRequest where
  type := TurnRtype.systemMsg.code
  toUid := 9
  truid := m.truid
  toWhom := (Address.ipv4 sampleText 80).naddr
  dSize := UInt32.ofNat m.payload.length
  data := m.payload

theorem carriedBy_decodedAnswer (m : SysMessage) : m.CarriedBy (decodedAnswer m) := by
  have made : (turnClientReqSysWith (Address.ipv4 sampleText 80).naddr 9 m.truid m.status
      m.commentary).isSome :=
    turnReqMake_isSome (Address.terminated _) _ _ _ _ _
  obtain ⟨sent, made⟩ := Option.isSome_iff_exists.mp made
  obtain ⟨-, data, size⟩ := turnReqMake_some made
  refine ⟨_, 9, sent, made, ?_, ?_⟩
  · rw [data]
    show m.payload = m.payload.take (UInt32.ofNat m.payload.length).toNat
    rw [m.toNat_length_payload, List.take_length]
  · rw [size]
    exact (Words.swap32_swap32 _).symm

/-- The first one is rejected, whatever the client's variables hold; the second one is entered
    under the number 0 where they hold 0. -/
theorem answer_lost :
    answerSeven.CarriedBy (decodedAnswer answerSeven) ∧
      answerDone.CarriedBy (decodedAnswer answerDone) ∧
      (∀ vars, Rejected boundClient (decodedAnswer answerSeven) vars ∧
        ¬ answerSeven.Understood boundClient (decodedAnswer answerSeven) vars) ∧
      ¬ answerDone.Understood boundClient (decodedAnswer answerDone) ⟨0, 0⟩ ∧
      (turnClientUnwrapSysAll boundClient (decodedAnswer answerDone) ⟨0, 0⟩).cli.sysRequests.get 0
        = some 0 ∧
      (turnClientUnwrapSysAll boundClient (decodedAnswer answerDone) ⟨0, 0⟩).cli.sysRequests.get 7
        = none := by
  have seven := carriedBy_decodedAnswer answerSeven
  have done := carriedBy_decodedAnswer answerDone
  refine ⟨seven, done, fun vars => ⟨(rejected_iff _ _ _).mpr (.inl (by decide)),
    fun understood => ?_⟩, fun understood => ?_, rfl, rfl⟩
  · exact absurd ((SysMessage.understood_iff seven).mp understood).truid (by decide)
  · exact absurd ((SysMessage.understood_iff done).mp understood).truid (by decide)

end Soter2.Turn
