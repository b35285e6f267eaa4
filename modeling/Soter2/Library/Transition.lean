import Mathlib.Data.List.Basic
import Mathlib.Tactic.Common

/-! # Runs of a partial step function

A system is given by a step function `step : σ → ι → Option σ`: `none` says that the action is not
possible in the state.  A run is a list of actions, so the quantifier "for every interleaving" is a
quantifier over lists, and a run can be evaluated.

* `run` — the state a list of actions leads to.
* `run_invariant`, `run_invariant_guarded` — the rules that package the induction over a run; the
  second is for what only certain steps keep, and only within a bound.
* `steps_iff_meets` — the rule for a condition that agrees with another on the states of a run.
* `always_iff_meets_where`, `always_iff_meets` — the rule for a property that certain steps keep and
  all others break.
* `holds_iff_meets` — the rule for a property that, once lost, no step brings back.
* `emitted`, `emitted_invariant` — what the steps of a run put out, and the rule for an invariant
  that relates it to the state.
* `run_simulates` — a simulation along an abstraction function, in which one concrete step is
  matched by any number of abstract steps.
-/

namespace Transition

variable {σ τ ι κ : Type*}

/-- The state reached from `s` by the actions of the list, first action first. -/
def run (step : σ → ι → Option σ) : σ → List ι → Option σ
  | s, [] => some s
  | s, a :: as =>
    match step s a with
    | some s' => run step s' as
    | none => none

variable {step : σ → ι → Option σ}

@[simp] theorem run_nil (s : σ) : run step s [] = some s := rfl

theorem run_cons {s t : σ} {a : ι} {as : List ι} :
    run step s (a :: as) = some t ↔ ∃ s', step s a = some s' ∧ run step s' as = some t := by
  cases h : step s a <;> simp [run, h]

theorem run_append {s t : σ} {as bs : List ι} :
    run step s (as ++ bs) = some t ↔ ∃ u, run step s as = some u ∧ run step u bs = some t := by
  induction as generalizing s with
  | nil => simp
  | cons a as ih =>
    simp only [List.cons_append, run_cons, ih]
    constructor
    · rintro ⟨s', hs, u, hu, ht⟩
      exact ⟨u, ⟨s', hs, hu⟩, ht⟩
    · rintro ⟨u, ⟨s', hs, hu⟩, ht⟩
      exact ⟨s', hs, u, hu, ht⟩

/-! ## Invariants -/

theorem run_invariant {I : σ → Prop}
    (preserved : ∀ s a s', I s → step s a = some s' → I s')
    {s t : σ} {as : List ι} (start : I s) (h : run step s as = some t) : I t := by
  induction as generalizing s with
  | nil => cases h; exact start
  | cons a as ih =>
    obtain ⟨s', hs, ht⟩ := run_cons.mp h
    exact ih (preserved s a s' start hs) ht

/-- A bound that no step can re-establish, and that holds at the end of a run, holds
    at its start. -/
theorem run_bound {B : σ → Prop} (antitone : ∀ s a s', step s a = some s' → B s' → B s)
    {s t : σ} {as : List ι} (h : run step s as = some t) (bound : B t) : B s := by
  induction as generalizing s with
  | nil => cases h; exact bound
  | cons a as ih =>
    obtain ⟨s', hs, ht⟩ := run_cons.mp h
    exact antitone s a s' hs (ih ht)

/-- Every step of the run meets the condition `ok`, which reads the state before
    the step and the action. -/
def Meets (step : σ → ι → Option σ) (ok : σ → ι → Prop) : σ → List ι → Prop
  | _, [] => True
  | s, a :: as => ok s a ∧ ∀ s', step s a = some s' → Meets step ok s' as

instance Meets.decide (step : σ → ι → Option σ) (ok : σ → ι → Prop) [∀ s a, Decidable (ok s a)] :
    ∀ s as, Decidable (Meets step ok s as)
  | _, [] => .isTrue trivial
  | s, a :: as =>
    match h : step s a with
    | none => decidable_of_iff (ok s a) (by simp [Meets, h])
    | some s' =>
      have := Meets.decide step ok s' as
      decidable_of_iff (ok s a ∧ Meets step ok s' as) (by simp [Meets, h])

theorem Meets.and {ok ok' : σ → ι → Prop} {s : σ} {as : List ι} (h : Meets step ok s as)
    (h' : Meets step ok' s as) : Meets step (fun s a => ok s a ∧ ok' s a) s as := by
  induction as generalizing s with
  | nil => trivial
  | cons a as ih => exact ⟨⟨h.1, h'.1⟩, fun s' hs => ih (h.2 s' hs) (h'.2 s' hs)⟩

theorem meets_of_forall {ok : σ → ι → Prop} (h : ∀ s a, ok s a) (s : σ) (as : List ι) :
    Meets step ok s as := by
  induction as generalizing s with
  | nil => trivial
  | cons a as ih => exact ⟨h s a, fun s' _ => ih s'⟩

theorem meets_of_mem {ok : ι → Prop} {as : List ι} (h : ∀ a ∈ as, ok a) (s : σ) :
    Meets step (fun _ a => ok a) s as := by
  induction as generalizing s with
  | nil => trivial
  | cons a as ih =>
    obtain ⟨here, rest⟩ := List.forall_mem_cons.mp h
    exact ⟨here, fun s' _ => ih rest s'⟩

/-- The parts of a run meet the condition. -/
theorem Meets.append {ok : σ → ι → Prop} {s t : σ} {as bs : List ι}
    (meets : Meets step ok s (as ++ bs))
    (h : run step s as = some t) : Meets step ok s as ∧ Meets step ok t bs := by
  induction as generalizing s with
  | nil => cases h; exact ⟨trivial, meets⟩
  | cons a as ih =>
    obtain ⟨s', hs, ht⟩ := run_cons.mp h
    obtain ⟨first, second⟩ := ih (meets.2 s' hs) ht
    refine ⟨⟨meets.1, fun u hu => ?_⟩, second⟩
    cases hs.symm.trans hu
    exact first

/-- Where an invariant holds at the start, two conditions that agree on its states are met by the
    same steps; the first is spelled out for every step of the run. -/
theorem steps_iff_meets {I : σ → Prop} {ok ok' : σ → ι → Prop}
    (preserved : ∀ s a s', I s → step s a = some s' → I s')
    (agree : ∀ s a, I s → (ok s a ↔ ok' s a)) {s : σ} {as : List ι} (inv : I s) :
    (∀ bs a t, bs ++ [a] <+: as → run step s bs = some t → ok t a) ↔ Meets step ok' s as := by
  induction as generalizing s with
  | nil =>
    exact iff_of_true (fun bs a t initial => absurd (List.prefix_nil.mp initial) (by simp)) trivial
  | cons a as ih =>
    constructor
    · intro all
      -- the first step is the one behind the empty run, the others follow from where it leads
      refine ⟨(agree s a inv).mp (all [] a s (List.prefix_append [a] as) rfl), fun u hu => ?_⟩
      refine (ih (preserved s a u inv hu)).mp fun bs b t initial h => ?_
      exact all (a :: bs) b t ((List.prefix_cons_inj a).mpr initial) (run_cons.mpr ⟨u, hu, h⟩)
    · rintro ⟨good, rest⟩ bs b t initial h
      cases bs with
      | nil =>
        obtain ⟨rfl, -⟩ := List.cons_prefix_cons.mp initial
        cases h
        exact (agree s b inv).mpr good
      | cons c bs =>
        obtain ⟨rfl, behind⟩ := List.cons_prefix_cons.mp initial
        obtain ⟨u, hu, ht⟩ := run_cons.mp h
        exact (ih (preserved s c u inv hu)).mpr (rest u hu) bs b t behind ht

/-- The rule for an invariant that is kept by the steps meeting a condition, while such a
    bound holds. -/
theorem run_invariant_guarded {I B : σ → Prop} {ok : σ → ι → Prop}
    (antitone : ∀ s a s', step s a = some s' → B s' → B s)
    (preserved : ∀ s a s', I s → ok s a → B s' → step s a = some s' → I s')
    {s t : σ} {as : List ι} (start : I s) (meets : Meets step ok s as)
    (h : run step s as = some t) (bound : B t) : I t := by
  induction as generalizing s with
  | nil => cases h; exact start
  | cons a as ih =>
    obtain ⟨s', hs, ht⟩ := run_cons.mp h
    exact ih (preserved s a s' start meets.1 (run_bound antitone ht bound) hs) (meets.2 s' hs) ht

theorem run_invariant_within {I B : σ → Prop}
    (antitone : ∀ s a s', step s a = some s' → B s' → B s)
    (preserved : ∀ s a s', I s → B s' → step s a = some s' → I s')
    {s t : σ} {as : List ι} (start : I s) (h : run step s as = some t) (bound : B t) : I t :=
  run_invariant_guarded antitone (fun s a s' inv _ => preserved s a s' inv) start
    (meets_of_forall (fun _ _ => trivial) s as : Meets step (fun _ _ => True) s as) h bound

theorem run_invariant_where {I : σ → Prop} {ok : σ → ι → Prop}
    (preserved : ∀ s a s', I s → ok s a → step s a = some s' → I s')
    {s t : σ} {as : List ι} (start : I s) (meets : Meets step ok s as)
    (h : run step s as = some t) : I t :=
  @run_invariant_guarded _ _ step I (fun _ => True) ok (fun _ _ _ _ _ => trivial)
    (fun s a s' inv good _ => preserved s a s' inv good) s t as start meets h trivial

/-- Where the steps that meet a condition are exactly those that keep a property, a run goes
    only through states with the property if and only if all its steps meet the condition. -/
theorem always_iff_meets_where {I P : σ → Prop} {ok : σ → ι → Prop}
    (preserved : ∀ s a s', I s → step s a = some s' → I s')
    (possible : ∀ s a, ¬ ok s a → ∃ s', step s a = some s')
    (exactly : ∀ s a s', I s → P s → step s a = some s' → (P s' ↔ ok s a))
    {s : σ} {as : List ι} (inv : I s) (start : P s) :
    (∀ bs, bs <+: as → ∀ t, run step s bs = some t → P t) ↔ Meets step ok s as := by
  induction as generalizing s with
  | nil =>
    refine iff_of_true ?_ trivial
    intro bs initial t h
    rw [List.prefix_nil.mp initial] at h
    cases h
    exact start
  | cons a as ih =>
    constructor
    · intro always
      have here : ∀ s', step s a = some s' → P s' := fun s' next =>
        always [a] (List.prefix_append [a] as) s' (run_cons.mpr ⟨s', next, rfl⟩)
      constructor
      · -- a step that is not allowed can be taken, and breaks `P`
        by_contra bad
        obtain ⟨s', next⟩ := possible s a bad
        exact bad ((exactly s a s' inv start next).mp (here s' next))
      · intro u hu
        refine (ih (preserved s a u inv hu) (here u hu)).mp fun bs initial t h => ?_
        exact always (a :: bs) ((List.prefix_cons_inj a).mpr initial) t (run_cons.mpr ⟨u, hu, h⟩)
    · rintro ⟨good, rest⟩ bs initial t h
      cases bs with
      | nil => cases h; exact start
      | cons b bs =>
        obtain ⟨rfl, behind⟩ := List.cons_prefix_cons.mp initial
        obtain ⟨u, hu, ht⟩ := run_cons.mp h
        have there := (exactly s b u inv start hu).mpr good
        exact (ih (preserved s b u inv hu) there).mpr (rest u hu) bs behind t ht

theorem always_iff_meets {P : σ → Prop} {ok : σ → ι → Prop}
    (possible : ∀ s a, ∃ s', step s a = some s')
    (exactly : ∀ s a s', P s → step s a = some s' → (P s' ↔ ok s a)) {s : σ} {as : List ι}
    (start : P s) : (∀ bs, bs <+: as → ∀ t, run step s bs = some t → P t) ↔ Meets step ok s as :=
  always_iff_meets_where (I := fun _ => True) (fun _ _ _ _ _ => trivial) (fun s a _ => possible s a)
    (fun s a s' _ => exactly s a s') trivial start

/-- Where a step leads to a property exactly from states that have it, by meeting a condition,
    the run has the property at its end exactly if all its steps meet the condition. -/
theorem holds_iff_meets {I P : σ → Prop} {ok : σ → ι → Prop}
    (preserved : ∀ s a s', I s → step s a = some s' → I s')
    (exactly : ∀ s a s', I s → step s a = some s' → (P s' ↔ P s ∧ ok s a))
    {s t : σ} {as : List ι} (inv : I s) (start : P s) (h : run step s as = some t) :
    P t ↔ Meets step ok s as := by
  -- by induction, with the first step taken apart from the rest
  have both : P t ↔ P s ∧ Meets step ok s as := by
    clear start
    induction as generalizing s with
    | nil =>
      cases h
      exact (and_iff_left trivial).symm
    | cons a as ih =>
      obtain ⟨s', hs, ht⟩ := run_cons.mp h
      rw [ih (preserved s a s' inv hs) ht, exactly s a s' inv hs, and_assoc]
      refine and_congr_right fun _ => and_congr_right fun _ => ?_
      constructor
      · intro rest u hu
        cases hs.symm.trans hu
        exact rest
      · exact fun rest => rest s' hs
  rw [both, and_iff_right start]

/-! ## Outputs -/

/-- What the steps of a run put out, in order. -/
def emitted {ο : Type*} (step : σ → ι → Option σ) (emit : σ → ι → List ο) : σ → List ι → List ο
  | _, [] => []
  | s, a :: as =>
    emit s a ++
      match step s a with
      | some s' => emitted step emit s' as
      | none => []

theorem emitted_cons {ο : Type*} {emit : σ → ι → List ο} {s s' : σ} {a : ι} (h : step s a = some s')
    (as : List ι) : emitted step emit s (a :: as) = emit s a ++ emitted step emit s' as := by
  simp only [emitted, h]

theorem emitted_invariant_where {ο : Type*} {emit : σ → ι → List ο} {I : List ο → σ → Prop}
    {ok : σ → ι → Prop}
    (preserved : ∀ out s a s', I out s → ok s a → step s a = some s' → I (out ++ emit s a) s')
    {s t : σ} {as : List ι} {out : List ο} (start : I out s) (meets : Meets step ok s as)
    (h : run step s as = some t) : I (out ++ emitted step emit s as) t := by
  induction as generalizing s out with
  | nil =>
    cases h
    simpa [emitted] using start
  | cons a as ih =>
    obtain ⟨s', hs, ht⟩ := run_cons.mp h
    rw [emitted_cons hs, ← List.append_assoc]
    exact ih (preserved out s a s' start meets.1 hs) (meets.2 s' hs) ht

theorem emitted_invariant {ο : Type*} {emit : σ → ι → List ο} {I : List ο → σ → Prop}
    (preserved : ∀ out s a s', I out s → step s a = some s' → I (out ++ emit s a) s')
    {s t : σ} {as : List ι} {out : List ο} (start : I out s) (h : run step s as = some t) :
    I (out ++ emitted step emit s as) t :=
  emitted_invariant_where (fun out s a s' inv _ => preserved out s a s' inv) start
    (meets_of_forall (fun _ _ => trivial) s as : Meets step (fun _ _ => True) s as) h

/-! ## Simulation -/

/-- If every step that meets the condition within the bound, from a state satisfying `I`, is
    matched by a run of the abstract system between the abstractions, so is every run of
    such steps. -/
theorem run_simulates {abstractStep : τ → κ → Option τ} (abstraction : σ → τ) {I B : σ → Prop}
    {ok : σ → ι → Prop} (antitone : ∀ s a s', step s a = some s' → B s' → B s)
    (preserved : ∀ s a s', I s → ok s a → B s' → step s a = some s' → I s')
    (simulated : ∀ s a s', I s → ok s a → I s' → step s a = some s' →
      ∃ bs, run abstractStep (abstraction s) bs = some (abstraction s'))
    {s t : σ} {as : List ι} (start : I s) (meets : Meets step ok s as)
    (h : run step s as = some t) (bound : B t) :
    ∃ bs, run abstractStep (abstraction s) bs = some (abstraction t) := by
  induction as generalizing s with
  | nil => cases h; exact ⟨[], rfl⟩
  | cons a as ih =>
    obtain ⟨s', hs, ht⟩ := run_cons.mp h
    have inv' := preserved s a s' start meets.1 (run_bound antitone ht bound) hs
    obtain ⟨bs, hbs⟩ := simulated s a s' start meets.1 inv' hs
    obtain ⟨cs, hcs⟩ := ih inv' (meets.2 s' hs) ht
    exact ⟨bs ++ cs, run_append.mpr ⟨_, hbs, hcs⟩⟩

end Transition
