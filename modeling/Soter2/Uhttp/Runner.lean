import Mathlib.Data.List.Basic
import Mathlib.Tactic.Common
import Soter2.Library.IndexLoop
import Soter2.Library.Loop
import Soter2.Uhttp.Server

/-! # The clients of the runner (`uhttp/src/server.c`)

In each round the runner polls its clients one after the other, and calls `handler` for those
that can be read.  Behind a client that cannot be read the index does not move.

* `onePass_iff` — when a round polls each client once.
* `idle_never_left` — the loop does not end while a client is idle.
-/

namespace Soter2.Uhttp

variable {ε α : Type*}

/-- The state of the server, and which clients were polled and handled in this round. -/
structure RunnerEnv (ε α : Type*) where
  serv : ε
  polled : List α
  handled : List α

section
variable (handle : ε → α → Bool × α × ε) (polls : Nat → Int)

/-- The body of the client loop.  `polls` are the results of the calls of `ln_wait_netfd`, and
    `handle` says whether the client is to be deleted. -/
def clientVisit (env : RunnerEnv ε α) (cli : α) : IndexLoop.Visit α × RunnerEnv ε α :=
  let env' := { env with polled := env.polled ++ [cli] }
  -- `continue`, with the index as it is
  if polls env.polled.length ≤ 0 then (.again, env')
  else
    match handle env.serv cli with
    | (true, _, serv) => (.remove, { env' with serv := serv, handled := env.handled ++ [cli] })
    | (false, cli', serv) =>
      (.keep cli', { env' with serv := serv, handled := env.handled ++ [cli] })

/-- The client loop after so many turns, if it was not left before. -/
def clientLoop (serv : ε) (clients : List α) (fuel : Nat) : IndexLoop.Walk (RunnerEnv ε α) α :=
  Loop.run (IndexLoop.body (clientVisit handle polls)) fuel ⟨0, clients, ⟨serv, [], []⟩⟩

/-- The clients that can be read, if the first of them is the next one to be polled after so
    many. -/
def readable : Nat → List α → List α
  | _, [] => []
  | k, cli :: clients =>
    if polls k ≤ 0 then readable (k + 1) clients else cli :: readable (k + 1) clients

/-- The clients that are left of a round, and the server: those that can be read are handled, and
    removed if that is the result. -/
def served : Nat → ε → List α → List α × ε
  | _, serv, [] => ([], serv)
  | k, serv, cli :: clients =>
    if polls k ≤ 0 then
      let (left, serv) := served (k + 1) serv clients
      (cli :: left, serv)
    else
      match handle serv cli with
      | (true, _, serv) => served (k + 1) serv clients
      | (false, cli', serv) =>
        let (left, serv) := served (k + 1) serv clients
        (cli' :: left, serv)

/-- The loop is left with each client polled once, those that can be read handled, and the clients
    that are left of them. -/
def OnePass (serv : ε) (clients : List α) : Prop :=
  ∃ fuel,
    let w := clientLoop handle polls serv clients fuel
    IndexLoop.body (clientVisit handle polls) w = none ∧ w.env.polled = clients ∧
      w.env.handled = readable polls 0 clients ∧
        (w.items, w.env.serv) = served handle polls 0 serv clients

end

/-- `handler` for a client of this server.  Where it is undefined, `fault` is what it does. -/
def runnerHandle (fault : UhttpServ → UhttpCliState → Bool × UhttpCliState × UhttpServ)
    (serv : UhttpServ) (cli : UhttpCliState) : Bool × UhttpCliState × UhttpServ :=
  match handler { cli with serv := serv } with
  | some (delete, st) => (delete, st, st.serv)
  | none => fault serv cli

/-! ## Turns of the loop -/

variable (handle : ε → α → Bool × α × ε) (polls : Nat → Int) (env : RunnerEnv ε α) (cli : α)

theorem clientVisit_polled : (clientVisit handle polls env cli).2.polled = env.polled ++ [cli] := by
  rw [clientVisit]
  dsimp only
  split_ifs
  · rfl
  · split <;> rfl

/-- The index stays where it is exactly if the client cannot be read. -/
theorem clientVisit_again_iff : (clientVisit handle polls env cli).1 = .again ↔
    polls env.polled.length ≤ 0 := by
  rw [clientVisit]
  dsimp only
  split_ifs with idle
  · exact iff_of_true rfl idle
  · split <;> exact iff_of_false (by simp) idle

/-- The polls of this round that found no client that can be read. -/
def idlePolls (env : RunnerEnv ε α) : Nat := (List.range env.polled.length).countP (polls · ≤ 0)

theorem idlePolls_clientVisit :
    idlePolls polls (clientVisit handle polls env cli).2 =
      idlePolls polls env +
        match (clientVisit handle polls env cli).1 with | .again => 1 | _ => 0 := by
  have again := clientVisit_again_iff handle polls env cli
  rw [idlePolls, clientVisit_polled, List.length_append, List.length_singleton, List.range_succ,
    List.countP_append, ← idlePolls, List.countP_singleton]
  split <;> simp_all

/-- The polls of a round, against its clients and the polls of idle ones. -/
theorem clientLoop_balance (serv : ε) (clients : List α) (fuel : Nat) :
    let w := clientLoop handle polls serv clients fuel
    w.env.polled.length + w.items.length = clients.length + idlePolls polls w.env + w.index := by
  refine Loop.run_invariant (I := fun w : IndexLoop.Walk (RunnerEnv ε α) α => w.env.polled.length +
    w.items.length
    = clients.length + idlePolls polls w.env + w.index) ?_ fuel (by simp [idlePolls])
  intro w w' balance turn
  refine IndexLoop.visits_balance (fun env => env.polled.length) (idlePolls polls) ?_ ?_ balance
    turn
  · intro env cli
    rw [clientVisit_polled, List.length_append, List.length_singleton]
  · exact idlePolls_clientVisit handle polls

theorem pass_of_readable (clients : List α)
    (all : ∀ k < clients.length, 0 < polls (env.polled.length + k)) :
    ∃ last, IndexLoop.Pass (clientVisit handle polls) env clients
        (served handle polls env.polled.length env.serv clients).1 last ∧
      last.polled = env.polled ++ clients ∧
      last.handled = env.handled ++ readable polls env.polled.length clients ∧
      last.serv = (served handle polls env.polled.length env.serv clients).2 := by
  induction clients generalizing env with
  | nil => exact ⟨env, .nil env, by simp, by simp [readable], rfl⟩
  | cons cli clients ih =>
    have here : ¬ polls env.polled.length ≤ 0 := not_le.mpr (all 0 (Nat.succ_pos _))
    have behind : ∀ k < clients.length, 0 < polls (env.polled.length + 1 + k) := by
      intro k inside
      have := all (k + 1) (Nat.succ_lt_succ inside)
      rwa [Nat.add_assoc, Nat.add_comm 1 k]
    rcases outcome : handle env.serv cli with ⟨delete, cli', serv⟩
    -- the rest of the pass, from the server that this client leaves
    obtain ⟨last, pass, polled, handled, serv_⟩ :=
      ih ⟨serv, env.polled ++ [cli], env.handled ++ [cli]⟩ (by simpa using behind)
    simp only [List.length_append, List.length_singleton, List.append_assoc,
      List.singleton_append] at pass polled handled serv_
    simp only [served, readable, if_neg here, outcome]
    cases delete with
    | true =>
      exact ⟨last, .remove (by simp [clientVisit, here, outcome]) pass, polled, handled, serv_⟩
    | false =>
      exact ⟨last, .keep (by simp [clientVisit, here, outcome]) pass, polled, handled, serv_⟩

/-- A round polls each client once if and only if each of them can be read when it is polled. -/
theorem onePass_iff (serv : ε) (clients : List α) :
    OnePass handle polls serv clients ↔ ∀ k < clients.length, 0 < polls k := by
  constructor
  · rintro ⟨fuel, left, polled, -⟩ k inside
    have balance := clientLoop_balance handle polls serv clients fuel
    have past := IndexLoop.body_eq_none.mp left
    dsimp only at polled balance past
    rw [polled] at balance
    -- as many polls as clients, and none left: no poll found an idle one
    have none_ : idlePolls polls (clientLoop handle polls serv clients fuel).env = 0 := by omega
    rw [idlePolls, polled, List.countP_eq_zero] at none_
    simpa using none_ k (List.mem_range.mpr inside)
  · intro all
    obtain ⟨last, pass, polled, handled, serv_⟩ :=
      pass_of_readable handle polls ⟨serv, [], []⟩ clients (by simpa using all)
    have run : clientLoop handle polls serv clients clients.length = ⟨_, _, last⟩ :=
      IndexLoop.run_pass pass [] (Nat.le_refl _)
    refine ⟨clients.length, ?_⟩
    rw [run]
    refine ⟨IndexLoop.body_eq_none.mpr (Nat.le_refl _), polled, handled, ?_⟩
    rw [serv_]
    rfl

/-! ## Idle clients -/

/-- There is a client under the index, and it is idle from now on. -/
def Idle (w : IndexLoop.Walk (RunnerEnv ε α) α) : Prop :=
  w.index < w.items.length ∧ ∀ k, w.env.polled.length ≤ k → polls k ≤ 0

variable {w w' : IndexLoop.Walk (RunnerEnv ε α) α}

theorem Idle.turn (idle : Idle polls w)
    (h : IndexLoop.body (clientVisit handle polls) w = some w') : Idle polls w' := by
  obtain ⟨cli, -, cases_⟩ := IndexLoop.body_cases h
  have again := (clientVisit_again_iff handle polls w.env cli).mpr (idle.2 _ (Nat.le_refl _))
  obtain ⟨visited, eq⟩ | ⟨b, visited, -⟩ | ⟨visited, -⟩ := cases_
  · -- there is one more poll, and nothing else changes
    have polled := clientVisit_polled handle polls w.env cli
    rw [visited] at polled
    rw [eq]
    refine ⟨idle.1, fun k later => idle.2 k ?_⟩
    dsimp only at polled later
    rw [polled, List.length_append] at later
    omega
  · rw [visited] at again
    cases again
  · rw [visited] at again
    cases again

/-- From the moment that a client is idle for good, the loop is not left. -/
theorem idle_never_left (idle : Idle polls w) (fuel : Nat) :
    IndexLoop.body (clientVisit handle polls)
      (Loop.run (IndexLoop.body (clientVisit handle polls)) fuel w) ≠ none := by
  have still : Idle polls (Loop.run (IndexLoop.body (clientVisit handle polls)) fuel w) :=
    Loop.run_invariant (fun _ _ idle turn => idle.turn handle polls turn) fuel idle
  rw [ne_eq, IndexLoop.body_eq_none]
  exact Nat.not_le_of_lt still.1

/-- A client that was accepted and has not sent anything. -/
def silentClient : UhttpCliState := newClient ⟨[], 0⟩ sampleClient []

/-- With one client that is idle the runner stays in the loop. -/
theorem silent_client_blocks :
    let handle := runnerHandle fun serv cli => (true, cli, serv)
    (∀ fuel, IndexLoop.body (clientVisit handle fun _ => 0)
      (clientLoop handle (fun _ => 0) ⟨[], 0⟩ [silentClient] fuel) ≠ none) ∧
      ¬ OnePass handle (fun _ => 0) ⟨[], 0⟩ [silentClient] := by
  intro handle
  have blocked := idle_never_left handle (fun _ => 0)
    (w := ⟨0, [silentClient], ⟨⟨[], 0⟩, [], []⟩⟩) ⟨by decide, fun _ _ => le_refl 0⟩
  exact ⟨blocked, fun ⟨fuel, left, _⟩ => blocked fuel left⟩

end Soter2.Uhttp
