import Mathlib.Algebra.Group.Int.Defs
import Mathlib.Algebra.Ring.Nat
import Mathlib.Tactic.Common
import Soter2.Library.Drive

/-! # The transfer loops (`lownet/src/tcp_sock.c`)

`ln_tsock_readx` and `ln_tsock_writex` repeat `read` and `write` until all bytes are moved.  The
results of the system calls are a sequence of inputs, one for each turn of the loop.
-/

namespace Soter2.Lownet

/-- What `read` or `write` does: it moves no more than `k` bytes (none at the end of the stream), or
    fails with `EWOULDBLOCK` or `EAGAIN`, with `EINTR`, or with another error. -/
inductive Io where
  | moved (k : Nat)
  | again
  | interrupted
  | failed
  deriving DecidableEq

/-- The results of the calls of one turn: `read` or `write`, `poll`, and the clock. -/
structure Turn where
  io : Io
  poll : Int
  now : Int

/-- The arguments of a call, and the clock at its start. -/
structure Transfer where
  n : Nat
  timeoutMs : Int
  startMs : Int

/-- How many bytes a call for what is left moves. -/
def Transfer.moves (args : Transfer) (already k : Nat) : Nat := min k (args.n - already)

/-- A `size_t` that is returned as a `ssize_t`. -/
def ssize (k : Nat) : Int := if k < 2 ^ 63 then k else k - 2 ^ 64

section Turns

variable {σ : Type*} (args : Transfer) (turn : Turn) (already : Nat) (s : σ)

/-- `ln_wait_netfd`, and what both loops do with its result. -/
def afterWait : σ ⊕ (Int × σ) :=
  if turn.poll > 0 then .inl s
  else if turn.poll = -1 then .inr (-1, s)
  else if turn.poll = 0 then .inr (ssize already, s)
  else .inr (-1, s)

/-- The end of a turn in which bytes were counted. -/
def afterTransfer : σ ⊕ (Int × σ) :=
  if already ≥ args.n then .inr (ssize already, s)
  else if args.timeoutMs = -1 then .inl s
  else if turn.now - args.startMs ≥ args.timeoutMs then .inr (ssize already, s)
  else .inl s

end Turns

/-! ## `ln_tsock_readx` -/

structure ReadState where
  already : Nat
  /-- How many bytes were taken from the socket. -/
  taken : Nat
  buf : Nat → UInt8

/-- The bytes that `read` takes from the stream go behind those already read. -/
def ReadState.put (stream : Nat → UInt8) (s : ReadState) (r : Nat) : ReadState where
  already := s.already + r
  taken := s.taken + r
  buf i := if s.already ≤ i ∧ i < s.already + r then stream (s.taken + (i - s.already)) else s.buf i

/-- `already_read += -1`. -/
def ReadState.less (s : ReadState) : ReadState :=
  { s with already := if s.already = 0 then 2 ^ 64 - 1 else s.already - 1 }

def readTurn (args : Transfer) (stream : Nat → UInt8) (s : ReadState) (turn : Turn) :
    ReadState ⊕ (Int × ReadState) :=
  match turn.io with
  | .interrupted => .inl s
  | .again => afterWait turn s.already s
  | .moved k =>
    if args.moves s.already k = 0 then .inr (ssize s.already, s)
    else afterTransfer args turn (s.already + args.moves s.already k)
      (s.put stream (args.moves s.already k))
  | .failed => afterTransfer args turn s.less.already s.less

/-! ## `ln_tsock_writex` -/

structure WriteState where
  already : Nat
  sent : List UInt8

def WriteState.put (buf : Nat → UInt8) (s : WriteState) (r : Nat) : WriteState where
  already := s.already + r
  sent := s.sent ++ (List.range r).map fun i => buf (s.already + i)

def writeTurn (args : Transfer) (buf : Nat → UInt8) (s : WriteState) (turn : Turn) :
    WriteState ⊕ (Int × WriteState) :=
  match turn.io with
  | .again | .interrupted => .inl s
  | .failed => afterWait turn s.already s
  | .moved k =>
    if args.moves s.already k = 0 then .inr (ssize s.already, s)
    else afterTransfer args turn (s.already + args.moves s.already k)
      (s.put buf (args.moves s.already k))

/-! ## Ends of a turn -/

section Turns

variable {σ : Type*} {args : Transfer} {turn : Turn} {already k : Nat} {s s' : σ} {r : Int}

theorem ssize_eq_nat (bound : already < 2 ^ 64) (h : ssize already = k) : already = k := by
  rw [ssize] at h
  split at h <;> omega

theorem afterWait_inl (h : afterWait turn already s = .inl s') : s' = s := by
  rw [afterWait] at h
  split at h
  · cases h
    rfl
  · split at h
    · cases h
    · split at h <;> cases h

/-- A count that is returned is what was moved. -/
theorem afterWait_inr (h : afterWait turn already s = .inr (r, s')) :
    s' = s ∧ (r = -1 ∨ r = ssize already) := by
  rw [afterWait] at h
  split at h
  · cases h
  · split at h
    · cases h
      exact ⟨rfl, .inl rfl⟩
    · split at h <;> cases h
      · exact ⟨rfl, .inr rfl⟩
      · exact ⟨rfl, .inl rfl⟩

theorem afterTransfer_inl (h : afterTransfer args turn already s = .inl s') :
    s' = s ∧ already < args.n := by
  rw [afterTransfer] at h
  split at h
  · cases h
  next less =>
    split at h
    · cases h
      exact ⟨rfl, Nat.lt_of_not_le less⟩
    · split at h
      · cases h
      · cases h
        exact ⟨rfl, Nat.lt_of_not_le less⟩

theorem afterTransfer_inr (h : afterTransfer args turn already s = .inr (r, s')) :
    s' = s ∧ r = ssize already := by
  rw [afterTransfer] at h
  split at h
  · cases h
    exact ⟨rfl, rfl⟩
  · split at h
    · cases h
    · split at h
      · cases h
        exact ⟨rfl, rfl⟩
      · cases h

end Turns

/-! ## Reading -/

/-- More is asked for, or nothing was read. -/
def ReadState.Open (args : Transfer) (s : ReadState) : Prop := s.already < args.n ∨ s.already = 0

/-- What was read so far is the start of the stream. -/
def ReadState.Exact (stream : Nat → UInt8) (s : ReadState) : Prop :=
  s.taken = s.already ∧ ∀ i < s.already, s.buf i = stream i

variable {args : Transfer} {stream : Nat → UInt8} {s s' : ReadState} {turn : Turn} {r : Int}

theorem readTurn_open (h : s.Open args) (next : readTurn args stream s turn = .inl s') :
    s'.Open args := by
  rw [readTurn] at next
  split at next
  · cases next
    exact h
  · rw [afterWait_inl next]
    exact h
  · split at next
    · cases next
    · obtain ⟨rfl, less⟩ := afterTransfer_inl next
      exact .inl less
  · obtain ⟨rfl, less⟩ := afterTransfer_inl next
    exact .inl less

theorem ReadState.Exact.put (h : s.Exact stream) (m : Nat) : (s.put stream m).Exact stream := by
  obtain ⟨counted, same⟩ := h
  refine ⟨congrArg (· + m) counted, fun i inside => ?_⟩
  by_cases old : i < s.already
  · have before : ¬ (s.already ≤ i ∧ i < s.already + m) := by omega
    simp only [ReadState.put, if_neg before]
    exact same i old
  · have new : s.already ≤ i ∧ i < s.already + m := ⟨Nat.le_of_not_lt old, inside⟩
    simp only [ReadState.put, if_pos new]
    congr 1
    omega

/-- A hard error ends the loop where nothing was read, and otherwise takes a byte from the count. -/
theorem readTurn_failed (bound : args.n < 2 ^ 64) (h : s.Open args) (failed : turn.io = .failed) :
    (∃ s', readTurn args stream s turn = .inr (-1, s')) ↔ s.already = 0 := by
  have result : readTurn args stream s turn = afterTransfer args turn s.less.already s.less := by
    rw [readTurn, failed]
  rw [result]
  constructor
  · rintro ⟨s', done⟩
    obtain ⟨-, minus⟩ := afterTransfer_inr done
    by_contra positive
    simp only [ReadState.less, if_neg positive] at minus
    rw [ReadState.Open] at h
    rw [ssize] at minus
    split at minus <;> omega
  · intro zero
    -- below zero the count is `SIZE_MAX`, which ends the loop
    have all : s.less.already ≥ args.n := by
      simp only [ReadState.less, if_pos zero]
      omega
    have minus : ssize s.less.already = -1 := by
      simp only [ReadState.less, if_pos zero]
      decide
    exact ⟨s.less, by rw [afterTransfer, if_pos all, minus]⟩

theorem readTurn_exact (h : s.Exact stream)
    (fine : turn.io = .failed → ∃ s', readTurn args stream s turn = .inr (-1, s'))
    (next : readTurn args stream s turn = .inl s') : s'.Exact stream := by
  rw [readTurn] at next
  split at next
  · cases next
    exact h
  · rw [afterWait_inl next]
    exact h
  · split at next
    · cases next
    · obtain ⟨rfl, -⟩ := afterTransfer_inl next
      exact h.put _
  next failed =>
    obtain ⟨s'', done⟩ := fine failed
    rw [readTurn, failed] at done
    cases done.symm.trans next

theorem readTurn_count (bound : args.n < 2 ^ 64) (h : s.Exact stream) (opened : s.Open args)
    (fine : turn.io = .failed → ∃ s', readTurn args stream s turn = .inr (-1, s'))
    (done : readTurn args stream s turn = .inr (r, s')) {k : Nat} (count : r = k) :
    k ≤ args.n ∧ s'.taken = k ∧ ∀ i < k, s'.buf i = stream i := by
  have small : s.already ≤ args.n := by rw [ReadState.Open] at opened; omega
  -- the loop ends with a count only in a state whose count that is
  have same : s'.Exact stream ∧ s'.already ≤ args.n ∧ r = ssize s'.already := by
    rw [readTurn] at done
    split at done
    · cases done
    · obtain ⟨rfl, rfl | rfl⟩ := afterWait_inr done
      · omega
      · exact ⟨h, small, rfl⟩
    · split at done
      · cases done
        exact ⟨h, small, rfl⟩
      · obtain ⟨rfl, rfl⟩ := afterTransfer_inr done
        refine ⟨h.put _, ?_, rfl⟩
        simp only [ReadState.put, Transfer.moves]
        omega
    next failed =>
      obtain ⟨s'', minus⟩ := fine failed
      rw [readTurn, failed] at minus
      cases minus.symm.trans done
      omega
  obtain ⟨⟨taken, prefix_⟩, within, rfl⟩ := same
  obtain rfl := ssize_eq_nat (by omega) count
  exact ⟨within, taken, prefix_⟩

/-! ## Writing -/

/-- The bytes that were sent are the first ones of the buffer. -/
def WriteState.Exact (buf : Nat → UInt8) (s : WriteState) : Prop :=
  s.sent = (List.range s.already).map buf

section Write

variable {buf : Nat → UInt8} {s s' : WriteState}

theorem WriteState.Exact.put (h : s.Exact buf) (m : Nat) : (s.put buf m).Exact buf := by
  rw [WriteState.Exact] at *
  simp only [WriteState.put, h, List.range_add, List.map_append, List.map_map]
  rfl

theorem writeTurn_inl (h : s.Exact buf) (small : s.already ≤ args.n)
    (next : writeTurn args buf s turn = .inl s') : s'.Exact buf ∧ s'.already ≤ args.n := by
  rw [writeTurn] at next
  split at next
  · cases next
    exact ⟨h, small⟩
  · cases next
    exact ⟨h, small⟩
  · rw [afterWait_inl next]
    exact ⟨h, small⟩
  · split at next
    · cases next
    · obtain ⟨rfl, less⟩ := afterTransfer_inl next
      exact ⟨h.put _, Nat.le_of_lt less⟩

theorem writeTurn_inr (bound : args.n < 2 ^ 64) (h : s.Exact buf) (small : s.already ≤ args.n)
    (done : writeTurn args buf s turn = .inr (r, s')) {k : Nat} (count : r = k) :
    s'.sent = (List.range k).map buf := by
  -- the loop ends with what was counted, the bytes being those of the buffer so far
  have same : s'.Exact buf ∧ s'.already ≤ args.n ∧ r = ssize s'.already := by
    rw [writeTurn] at done
    split at done
    · cases done
    · cases done
    · obtain ⟨rfl, rfl | rfl⟩ := afterWait_inr done
      · omega
      · exact ⟨h, small, rfl⟩
    · split at done
      · cases done
        exact ⟨h, small, rfl⟩
      · obtain ⟨rfl, rfl⟩ := afterTransfer_inr done
        refine ⟨h.put _, ?_, rfl⟩
        simp only [WriteState.put, Transfer.moves]
        omega
  obtain ⟨exact_, within, rfl⟩ := same
  obtain rfl := ssize_eq_nat (by omega) count
  exact exact_

/-- A hard error on a socket that is ready is tried again. -/
theorem writeTurn_failed (failed : turn.io = .failed) (ready : turn.poll > 0) :
    writeTurn args buf s turn = .inl s := by
  rw [writeTurn, failed]
  exact if_pos ready

end Write

/-! ## Whole transfers -/

/-- The call fails for good, and the socket is ready. -/
def Turn.Broken (turn : Turn) : Prop := turn.io = .failed ∧ turn.poll > 0

/-- A count that is returned is the number of the bytes taken, which are in the buffer; a hard error
    ends the loop with -1; and the loop ends where the socket is broken from some turn on. -/
def ReadExact (args : Transfer) (stream buf : Nat → UInt8) (turns : Nat → Turn) : Prop :=
  (∀ r s, Drive.Ends (readTurn args stream) turns ⟨0, 0, buf⟩ (r, s) → ∀ k : Nat, r = k →
      k ≤ args.n ∧ s.taken = k ∧ ∀ i < k, s.buf i = stream i) ∧
    (∀ i s, Drive.reached (readTurn args stream) turns ⟨0, 0, buf⟩ i = some s →
      (turns i).io = .failed →
      ∃ s', readTurn args stream s (turns i) = .inr (-1, s')) ∧
    ∀ i, (∀ j ≥ i, (turns j).Broken) → ∃ r, Drive.Ends (readTurn args stream) turns ⟨0, 0, buf⟩ r

def WriteExact (args : Transfer) (buf : Nat → UInt8) (turns : Nat → Turn) : Prop :=
  (∀ r s, Drive.Ends (writeTurn args buf) turns ⟨0, []⟩ (r, s) → ∀ k : Nat, r = k →
    s.sent = (List.range k).map buf) ∧
    ∀ i, (∀ j ≥ i, (turns j).Broken) → ∃ r, Drive.Ends (writeTurn args buf) turns ⟨0, []⟩ r

variable {turns : Nat → Turn} {buf : Nat → UInt8} {i : Nat}

theorem reached_open (h : Drive.reached (readTurn args stream) turns ⟨0, 0, buf⟩ i = some s) :
    s.Open args :=
  Drive.reached_invariant (fun _ _ _ _ opened next => readTurn_open opened next) (.inr rfl) h

theorem readExact_iff (bound : args.n < 2 ^ 64) :
    ReadExact args stream buf turns ↔
      ∀ i s, Drive.reached (readTurn args stream) turns ⟨0, 0, buf⟩ i = some s →
        (turns i).io = .failed → s.already = 0 := by
  constructor
  · rintro ⟨-, errors, -⟩ i s reached failed
    exact (readTurn_failed bound (reached_open reached) failed).mp (errors i s reached failed)
  · intro early
    -- a `recv` that fails is told of only as long as nothing was read
    have errors : ∀ i s, Drive.reached (readTurn args stream) turns ⟨0, 0, buf⟩ i = some s →
        (turns i).io = .failed →
        ∃ s', readTurn args stream s (turns i) = .inr (-1, s') := fun i s reached failed =>
      (readTurn_failed bound (reached_open reached) failed).mpr (early i s reached failed)
    -- the bytes read so far are the first of the stream, turn by turn
    have exact_ : ∀ i s, Drive.reached (readTurn args stream) turns ⟨0, 0, buf⟩ i = some s →
        s.Exact stream :=
      fun i s reached =>
        Drive.reached_invariant (I := ReadState.Exact stream)
          (fun j t u reached_ h next => readTurn_exact h (errors j t reached_) next)
          ⟨rfl, fun i inside => absurd inside (Nat.not_lt_zero i)⟩ reached
    refine ⟨?_, errors, fun i broken => ?_⟩
    · rintro r s ⟨i, t, reached, done⟩ k count
      exact readTurn_count bound (exact_ i t reached) (reached_open reached) (errors i t reached)
        done count
    · cases reached : Drive.reached (readTurn args stream) turns ⟨0, 0, buf⟩ i with
      | none => exact Drive.ends_of_not_reached reached
      | some s =>
        obtain ⟨s', done⟩ := errors i s reached (broken i (Nat.le_refl i)).1
        exact ⟨_, i, s, reached, done⟩

theorem writeExact_iff (bound : args.n < 2 ^ 64) :
    WriteExact args buf turns ↔
      ∀ i s, Drive.reached (writeTurn args buf) turns ⟨0, []⟩ i = some s →
        ¬ ∀ j ≥ i, (turns j).Broken := by
  constructor
  · rintro ⟨-, ends⟩ i s reached broken
    obtain ⟨r, end_⟩ := ends i broken
    refine Drive.not_ends (I := fun _ => True) trivial reached ?_ r end_
    intro j t later _
    -- a hard error on a socket that stays ready leaves the loop where it is
    obtain ⟨failed, ready⟩ := broken j later
    exact ⟨t, writeTurn_failed failed ready, trivial⟩
  · intro mends
    refine ⟨?_, fun i broken => ?_⟩
    · rintro r s ⟨i, t, reached, done⟩ k count
      have start : WriteState.Exact buf ⟨0, []⟩ := rfl
      obtain ⟨exact_, small⟩ : t.Exact buf ∧ t.already ≤ args.n :=
        Drive.reached_invariant (I := fun t => WriteState.Exact buf t ∧ t.already ≤ args.n)
          (fun _ _ _ _ h next => writeTurn_inl h.1 h.2 next) ⟨start, Nat.zero_le _⟩ reached
      exact writeTurn_inr bound exact_ small done count
    · cases reached : Drive.reached (writeTurn args buf) turns ⟨0, []⟩ i with
      | none => exact Drive.ends_of_not_reached reached
      | some s => exact absurd broken (mends i s reached)

/-- The loops transfer exactly, as long as no byte is read before a hard error, and no write is
    still to be made when the socket breaks for good. -/
theorem transfer_loops_exact_iff (args : Transfer) (bound : args.n < 2 ^ 64)
    (stream buf : Nat → UInt8) (reads writes : Nat → Turn) :
    (ReadExact args stream buf reads ↔
      ∀ i s, Drive.reached (readTurn args stream) reads ⟨0, 0, buf⟩ i = some s →
        (reads i).io = .failed → s.already = 0) ∧
    (WriteExact args buf writes ↔
      ∀ i s, Drive.reached (writeTurn args buf) writes ⟨0, []⟩ i = some s →
        ¬ ∀ j ≥ i, (writes j).Broken) :=
  ⟨readExact_iff bound, writeExact_iff bound⟩

/-- A socket whose reads fail, and one that takes both bytes at once. -/
theorem transfer_loops_exact_iff_broken :
    (ReadExact ⟨2, -1, 0⟩ (fun _ => 65) (fun _ => 0) (fun _ => ⟨.failed, 1, 0⟩) ↔
      ∀ i s, Drive.reached (readTurn ⟨2, -1, 0⟩ fun _ => 65) (fun _ => ⟨.failed, 1, 0⟩)
        ⟨0, 0, fun _ => 0⟩ i = some s →
        Io.failed = .failed → s.already = 0) ∧
    (WriteExact ⟨2, -1, 0⟩ (fun _ => 0) (fun _ => ⟨.moved 2, 1, 0⟩) ↔
      ∀ i s, Drive.reached (writeTurn ⟨2, -1, 0⟩ fun _ => 0) (fun _ => ⟨.moved 2, 1, 0⟩) ⟨0, []⟩ i
        = some s →
        ¬ ∀ j ≥ i, (⟨.moved 2, 1, 0⟩ : Turn).Broken) :=
  transfer_loops_exact_iff ⟨2, -1, 0⟩ (by decide) (fun _ => 65) (fun _ => 0)
    (fun _ => ⟨.failed, 1, 0⟩)
    (fun _ => ⟨.moved 2, 1, 0⟩)

/-- A byte, an error, and the end of the stream; and a socket that stays broken. -/
theorem transfer_loops_fail :
    (∃ s, Drive.Ends (readTurn ⟨2, -1, 0⟩ fun _ => 65)
        (fun i => ⟨if i = 1 then .failed else if i = 0 then .moved 1 else .moved 0, 1, 0⟩)
          ⟨0, 0, fun _ => 0⟩ (0, s) ∧
      s.taken = 1) ∧
    ¬ ReadExact ⟨2, -1, 0⟩ (fun _ => 65) (fun _ => 0)
      (fun i => ⟨if i = 1 then .failed else if i = 0 then .moved 1 else .moved 0, 1, 0⟩) ∧
    ¬ WriteExact ⟨2, -1, 0⟩ (fun _ => 0) (fun _ => ⟨.failed, 1, 0⟩) := by
  refine ⟨⟨_, ⟨2, _, rfl, rfl⟩, rfl⟩, ?_, ?_⟩
  · rintro ⟨-, errors, -⟩
    obtain ⟨s', done⟩ := errors 1 _ rfl rfl
    cases done
  · rintro ⟨-, ends⟩
    obtain ⟨r, end_⟩ := ends 0 fun j _ => ⟨rfl, by simp⟩
    refine Drive.not_ends (i := 0) (I := fun _ => True) trivial rfl ?_ r end_
    exact fun j t _ _ => ⟨t, rfl, trivial⟩

end Soter2.Lownet
