import Mathlib.Data.List.Basic

/-!
# Labelled runs

A labelled transition relation says which states one observable step can lead
to.  A run is a finite sequence of such steps together with its labels.  The
rules below carry invariants along runs, cut runs at a label, and map the runs
of one system to runs of another one that sees only part of every label.
-/

namespace WindowSystem.Library.LabelledRun

variable {σ ℓ α μ : Type*}

/-- Finite runs of a labelled transition relation. -/
inductive Run (step : σ → ℓ → σ → Prop) : σ → List ℓ → σ → Prop where
  | nil (state : σ) : Run step state [] state
  | cons {first middle last : σ} {label : ℓ} {labels : List ℓ} :
      step first label middle →
      Run step middle labels last →
      Run step first (label :: labels) last

namespace Run

variable {step : σ → ℓ → σ → Prop} {first last : σ} {labels : List ℓ}

@[simp]
theorem nil_iff : Run step first [] last ↔ first = last := by
  constructor
  · rintro ⟨⟩
    rfl
  · rintro rfl
    exact .nil _

theorem cons_iff {label : ℓ} :
    Run step first (label :: labels) last ↔
      ∃ middle, step first label middle ∧ Run step middle labels last := by
  constructor
  · rintro (_ | ⟨head, tail⟩)
    exact ⟨_, head, tail⟩
  · rintro ⟨middle, head, tail⟩
    exact .cons head tail

theorem single {label : ℓ} (taken : step first label last) :
    Run step first [label] last :=
  .cons taken (.nil _)

/-- A run can be cut between any two of its labels. -/
theorem append_iff {front back : List ℓ} :
    Run step first (front ++ back) last ↔
      ∃ middle, Run step first front middle ∧ Run step middle back last := by
  induction front generalizing first with
  | nil => simp
  | cons label front induction =>
      simp only [List.cons_append, cons_iff, induction]
      constructor
      · rintro ⟨next, head, middle, left, right⟩
        exact ⟨middle, ⟨next, head, left⟩, right⟩
      · rintro ⟨middle, ⟨next, head, left⟩, right⟩
        exact ⟨next, head, middle, left, right⟩

theorem append {middle : σ} {front back : List ℓ}
    (left : Run step first front middle)
    (right : Run step middle back last) :
    Run step first (front ++ back) last :=
  append_iff.mpr ⟨middle, left, right⟩

/-- A run of a relation is a run of every larger relation. -/
theorem mono {larger : σ → ℓ → σ → Prop}
    (included : ∀ {before label after},
      step before label after → larger before label after)
    (run : Run step first labels last) : Run larger first labels last := by
  induction run with
  | nil => exact .nil _
  | cons head _ induction => exact .cons (included head) induction

/-- A condition on all labels of a run holds at each of its steps. -/
theorem restrict {allowed : ℓ → Prop} (run : Run step first labels last)
    (all : ∀ label ∈ labels, allowed label) :
    Run (fun before label after => allowed label ∧ step before label after)
      first labels last := by
  induction run with
  | nil => exact .nil _
  | cons head _ induction =>
      exact .cons ⟨all _ List.mem_cons_self, head⟩
        (induction fun label member =>
          all label (List.mem_cons_of_mem _ member))

/-- Where an invariant holds, a relation may be replaced by another one. -/
theorem mono_of_invariant {holds : σ → Prop} {larger : σ → ℓ → σ → Prop}
    (included : ∀ {before label after},
      holds before → step before label after →
        larger before label after ∧ holds after)
    (run : Run step first labels last) (initial : holds first) :
    Run larger first labels last := by
  induction run with
  | nil => exact .nil _
  | cons head _ induction =>
      obtain ⟨taken, still⟩ := included initial head
      exact .cons taken (induction still)

/-- A condition that follows from an invariant holds at each step. -/
theorem restrict_of_invariant {holds : σ → Prop} {allowed : σ → ℓ → Prop}
    (preserved : ∀ {before label after},
      holds before → step before label after →
        allowed before label ∧ holds after)
    (run : Run step first labels last) (initial : holds first) :
    Run (fun before label after =>
      allowed before label ∧ step before label after) first labels last :=
  run.mono_of_invariant
    (fun invariant taken =>
      let ⟨fits, still⟩ := preserved invariant taken
      ⟨⟨fits, taken⟩, still⟩) initial

/-- The labels determine where a run of a deterministic relation ends. -/
theorem last_unique
    (deterministic : ∀ {before label one other},
      step before label one → step before label other → one = other)
    {other : σ} (run : Run step first labels last)
    (another : Run step first labels other) : last = other := by
  induction run with
  | nil => exact nil_iff.mp another
  | cons head _ induction =>
      obtain ⟨middle, taken, rest⟩ := cons_iff.mp another
      rw [deterministic taken head] at rest
      exact induction rest

/-- A run that ends in a step that is not allowed. -/
theorem not_restrict {allowed : σ → ℓ → σ → Prop} {before : σ} {label : ℓ}
    (deterministic : ∀ {before label one other},
      step before label one → step before label other → one = other)
    (run : Run step first labels before)
    (refused : ¬ allowed before label last) :
    ¬ Run (fun before label after =>
      allowed before label after ∧ step before label after)
        first (labels ++ [label]) last := by
  intro restricted
  obtain ⟨middle, front, back⟩ := append_iff.mp restricted
  have plain : Run step first labels middle := front.mono fun both => both.2
  obtain ⟨after, ⟨fits, _⟩, rest⟩ := cons_iff.mp back
  cases nil_iff.mp rest
  have same : middle = before := by
    refine last_unique ?_ plain run
    exact deterministic
  rw [same] at fits
  exact refused fits

/-- What holds of the label of every step holds of all labels of a run. -/
theorem labels_satisfy {holds : ℓ → Prop}
    (stepped : ∀ {before label after},
      step before label after → holds label)
    (run : Run step first labels last) : ∀ label ∈ labels, holds label := by
  induction run with
  | nil => simp
  | cons head _ induction =>
      simpa using ⟨stepped head, induction⟩

/-- What every step preserves holds at the end of every run. -/
theorem invariant {holds : σ → Prop}
    (preserved : ∀ {before label after},
      holds before → step before label after → holds after)
    (run : Run step first labels last) (initial : holds first) :
    holds last := by
  induction run with
  | nil => exact initial
  | cons head _ induction => exact induction (preserved initial head)

/-- A relation between states and the labels that led to them holds at the end
of every run if every step preserves it. -/
theorem history {holds : List ℓ → σ → Prop}
    (preserved : ∀ {front before label after},
      holds front before → step before label after →
        holds (front ++ [label]) after)
    (run : Run step first labels last) {front : List ℓ}
    (initial : holds front first) : holds (front ++ labels) last := by
  induction run generalizing front with
  | nil => simpa using initial
  | cons head _ induction =>
      simpa using induction (preserved initial head)

/--
Simulation by a system that observes a part of every label.

Every step, taken from a state with the invariant, has to keep the invariant
and to be matched by a run of the simulating system over what it observes of
the label.
-/
theorem simulate {abstractStep : α → μ → α → Prop} (abstraction : σ → α)
    (observe : ℓ → List μ) (holds : σ → Prop)
    (matched : ∀ {before label after},
      holds before → step before label after →
        holds after ∧
          Run abstractStep (abstraction before) (observe label)
            (abstraction after))
    (run : Run step first labels last) (initial : holds first) :
    Run abstractStep (abstraction first) (labels.flatMap observe)
      (abstraction last) := by
  induction run with
  | nil => exact .nil _
  | cons head _ induction =>
      obtain ⟨still, simulated⟩ := matched initial head
      rw [List.flatMap_cons]
      exact simulated.append (induction still)

end Run

/-! ## Runs of a partial function -/

/-- The relation of a partial step function with an output; the label is the
event together with the output. -/
def stepOf {ε ο : Type*} (next : σ → ε → Option (ο × σ)) :
    σ → ε × ο → σ → Prop :=
  fun before label after => next before label.1 = some (label.2, after)

theorem stepOf_deterministic {ε ο : Type*} {next : σ → ε → Option (ο × σ)}
    {before one other : σ} {label : ε × ο}
    (taken : stepOf next before label one)
    (another : stepOf next before label other) : one = other := by
  rw [stepOf, taken] at another
  simpa using another

/-- Execute a list of events, collecting the labels. -/
def execute {ε ο : Type*} (next : σ → ε → Option (ο × σ)) :
    σ → List ε → Option (List (ε × ο) × σ)
  | state, [] => some ([], state)
  | state, event :: events =>
      (next state event).bind fun (output, middle) =>
        (execute next middle events).map fun (labels, last) =>
          ((event, output) :: labels, last)

theorem run_of_execute {ε ο : Type*} {next : σ → ε → Option (ο × σ)}
    {first last : σ} {events : List ε} {labels : List (ε × ο)}
    (executed : execute next first events = some (labels, last)) :
    Run (stepOf next) first labels last := by
  induction events generalizing first labels with
  | nil =>
      simp only [execute, Option.some.injEq, Prod.mk.injEq] at executed
      rcases executed with ⟨rfl, rfl⟩
      exact .nil _
  | cons event events induction =>
      simp only [execute, Option.bind_eq_some_iff, Option.map_eq_some_iff,
        Prod.exists, Prod.mk.injEq] at executed
      rcases executed with
        ⟨output, middle, taken, rest, reached, later, rfl, rfl⟩
      exact .cons taken (induction later)

/-- Events that a partial function without outputs folds over are a run. -/
theorem run_of_foldlM {ε : Type*} {next : σ → ε → Option σ}
    {first last : σ} {events : List ε}
    (folded : events.foldlM next first = some last) :
    Run (fun before event after => next before event = some after)
      first events last := by
  induction events generalizing first with
  | nil =>
      cases folded
      exact .nil _
  | cons event events induction =>
      obtain ⟨middle, taken, rest⟩ := Option.bind_eq_some_iff.mp folded
      exact .cons taken (induction rest)

/-- An execution that passes a test is a run that does. -/
theorem exists_run_of_test {ε ο : Type*} {next : σ → ε → Option (ο × σ)}
    {first : σ} {events : List ε} {test : List (ε × ο) × σ → Bool}
    (passed : (execute next first events).any test = true) :
    ∃ labels last, Run (stepOf next) first labels last ∧
      test (labels, last) = true := by
  cases executed : execute next first events with
  | none =>
      rw [executed] at passed
      cases passed
  | some result =>
      rw [executed] at passed
      exact ⟨result.1, result.2, run_of_execute executed, passed⟩

theorem exists_run_of_execute {ε ο : Type*} {next : σ → ε → Option (ο × σ)}
    {first : σ} {labels : List (ε × ο)}
    (executed :
      (execute next first (labels.map Prod.fst)).map Prod.fst =
        some labels) :
    ∃ last, Run (stepOf next) first labels last := by
  simp only [Option.map_eq_some_iff, Prod.exists, exists_and_right,
    exists_eq_right] at executed
  rcases executed with ⟨last, executed⟩
  exact ⟨last, run_of_execute executed⟩

end WindowSystem.Library.LabelledRun
