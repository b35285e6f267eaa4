import Mathlib.Algebra.Ring.Nat
import Mathlib.Data.List.GetD
import Mathlib.Tactic.Common
import Soter2.Lownet.TcpSock

/-! # Reading from a client (`lownet/src/tcp_sock.c`)

The socket of a client that sends some bytes and then ends the stream.  The network cuts the bytes
into reads in any way; `readx_eq` says that `ln_tsock_readx` without a timeout does not show how.
-/

namespace Soter2.Lownet

/-- The bytes that were not taken from the socket yet, and the number of reads that were made. -/
structure Client where
  rest : List UInt8
  reads : Nat

/-- The next read is given no more than `cut + 1` bytes, and none only at the end of the stream. -/
def clientTurn (rest : List UInt8) (n : Nat) (s : ReadState) (cut : Nat) :
    ReadState ⊕ (Int × ReadState) :=
  readTurn ⟨n, -1, 0⟩ (fun i => rest.getD i 0) s
    ⟨.moved (min (cut + 1) (rest.length - s.taken)), 1, 0⟩

/-- `ln_tsock_readx(sock, n, buf, -1)`: the return value, the buffer and the socket afterwards. -/
def Client.readx (cut : Nat → Nat) (client : Client) (n : Nat) (buf : Nat → UInt8) :
    Option (Int × (Nat → UInt8) × Client) :=
  (Drive.finish (clientTurn client.rest n) cut (n + 1) client.reads ⟨0, 0, buf⟩).map fun done =>
    (done.1.1, done.1.2.buf, ⟨client.rest.drop done.1.2.taken, done.2⟩)

variable {rest : List UInt8} {n : Nat} {s : ReadState}

theorem ssize_of_lt {k : Nat} (small : k < 2 ^ 63) : ssize k = k := if_pos small

/-- The loop goes on until all bytes are there or the stream is at its end. -/
theorem finish_client (cut : Nat → Nat) (small : n < 2 ^ 63)
    (exact_ : s.Exact fun i => rest.getD i 0) (opened : s.already ≤ n)
    (within : s.already ≤ rest.length) {turns : Nat} (enough : n - s.already < turns) (i : Nat) :
    ∃ (s' : ReadState) (j : Nat),
      Drive.finish (clientTurn rest n) cut turns i s
        = some ((((min n rest.length : Nat) : Int), s'), j) ∧
      s'.Exact (fun i => rest.getD i 0) ∧ s'.already = min n rest.length := by
  induction turns generalizing i s with
  | zero => omega
  | succ turns ih =>
    have taken := exact_.1
    -- what one `recv` moves: at most what the network cut off, what is left, and what is wanted
    let m := (⟨n, -1, 0⟩ : Transfer).moves s.already (min (cut i + 1) (rest.length - s.taken))
    have moved : m = min (min (cut i + 1) (rest.length - s.taken)) (n - s.already) := rfl
    have turn : clientTurn rest n s (cut i)
        = if m = 0 then .inr (ssize s.already, s)
          else afterTransfer ⟨n, -1, 0⟩ ⟨.moved (min (cut i + 1) (rest.length - s.taken)), 1, 0⟩
            (s.already + m)
            (s.put (fun i => rest.getD i 0) m) := rfl
    have next := exact_.put m
    -- nothing moved: the stream is at its end, or all that was wanted is there
    by_cases ended : m = 0
    · have all : s.already = min n rest.length := by omega
      refine ⟨s, i + 1, ?_, exact_, all⟩
      rw [Drive.finish, turn, if_pos ended, all, ssize_of_lt (by omega)]
    · by_cases full : s.already + m ≥ n
      · have all : s.already + m = min n rest.length := by omega
        refine ⟨s.put (fun i => rest.getD i 0) m, i + 1, ?_, next, all⟩
        rw [Drive.finish, turn, if_neg ended, afterTransfer, if_pos full, all,
          ssize_of_lt (by omega)]
      · have counted : (s.put (fun i => rest.getD i 0) m).already = s.already + m := rfl
        obtain ⟨s', j, finished, result⟩ :=
          @ih (s.put (fun i => rest.getD i 0) m) next (by omega) (by omega) (by omega) (i + 1)
        refine ⟨s', j, ?_, result⟩
        rw [Drive.finish, turn, if_neg ended, afterTransfer, if_neg full, if_pos rfl]
        exact finished

/-- `ln_tsock_readx` takes as many bytes as there are, up to those asked for. -/
theorem Client.readx_eq (cut : Nat → Nat) (client : Client) (small : n < 2 ^ 63)
    (buf : Nat → UInt8) :
    ∃ buf' reads, client.readx cut n buf
      = some (((min n client.rest.length : Nat) : Int), buf', ⟨client.rest.drop n, reads⟩) ∧
      ∀ i, i < n → i < client.rest.length → buf' i = client.rest.getD i 0 := by
  have start : (⟨0, 0, buf⟩ : ReadState).Exact fun i => client.rest.getD i 0 :=
    ⟨rfl, fun i inside => absurd inside (Nat.not_lt_zero i)⟩
  have enough : n - (⟨0, 0, buf⟩ : ReadState).already < n + 1 := Nat.lt_succ_self n
  obtain ⟨s', j, finished, ⟨taken, same⟩, all⟩ :=
    finish_client cut small start (Nat.zero_le _) (Nat.zero_le _) enough client.reads
  refine ⟨s'.buf, j, ?_, fun i below inside => same i (by omega)⟩
  have dropped : client.rest.drop s'.taken = client.rest.drop n := by
    rw [taken, all]
    by_cases short : n ≤ client.rest.length
    · rw [Nat.min_eq_left short]
    · rw [Nat.min_eq_right (by omega), List.drop_length, List.drop_of_length_le (by omega)]
  rw [Client.readx, finished, Option.map_some, dropped]

theorem Client.readx_whole (cut : Nat → Nat) (buf : Nat → UInt8) (reads : Nat) {first : List UInt8}
    (later : List UInt8) (all : first.length = n) (small : n < 2 ^ 63) :
    ∃ buf' reads', Client.readx cut ⟨first ++ later, reads⟩ n buf
      = some ((n : Int), buf', ⟨later, reads'⟩) ∧
      ∀ i < n, buf' i = first.getD i 0 := by
  obtain ⟨buf', reads', read, same⟩ := Client.readx_eq cut ⟨first ++ later, reads⟩ small buf
  have length : min n (first ++ later).length = n := by rw [List.length_append]; omega
  refine ⟨buf', reads', ?_, fun i below => ?_⟩
  · rw [read, length, List.drop_left' all]
  · rw [same i below (by rw [List.length_append]; omega), List.getD_append _ _ _ _ (by omega)]

/-- Where the stream ends too early, the call returns what was there. -/
theorem Client.readx_short (cut : Nat → Nat) (buf : Nat → UInt8) (reads : Nat)
    (short : rest.length < n) (small : n < 2 ^ 63) :
    ∃ buf' reads', Client.readx cut ⟨rest, reads⟩ n buf
      = some ((rest.length : Int), buf', ⟨[], reads'⟩) := by
  obtain ⟨buf', reads', read, -⟩ := Client.readx_eq cut ⟨rest, reads⟩ small buf
  refine ⟨buf', reads', ?_⟩
  rw [read, Nat.min_eq_right (Nat.le_of_lt short), List.drop_of_length_le (Nat.le_of_lt short)]

end Soter2.Lownet
