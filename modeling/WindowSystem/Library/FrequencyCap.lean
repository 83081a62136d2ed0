import Mathlib.Data.Int.Order.Basic
import WindowSystem.Library.LabelledRun

/-!
# Capped grants with confirmations

A resource is granted to one user repeatedly.  The user may confirm a grant
later.  The number of grants is capped, and so is the number of confirmations
after which nothing is granted any more.  Between two grants a delay has to
pass: one delay since the last grant when nothing has been confirmed since,
another one since the last confirmation otherwise.

The transition relation describes the usage record of one user; the theorems
describe every sequence of answers and confirmations that it allows.
-/

namespace WindowSystem.Library.FrequencyCap

open WindowSystem.Library.LabelledRun

/-- The four limits. -/
structure Limits (τ : Type*) where
  maxGrants : ℤ
  maxConfirmed : ℤ
  retryDelay : τ
  repeatDelay : τ

/-- What is remembered of a user after the first grant. -/
structure Usage (τ : Type*) where
  granted : ℤ
  confirmed : ℤ
  lastGrant : τ
  confirmedSince : Option τ

/-- What can be seen of one user. -/
inductive Observation (τ : Type*) where
  | answered (time : τ) (granted : Bool)
  | confirmed (time : τ)

variable {τ : Type*}

/-- A positive answer. -/
def Observation.isGrant : Observation τ → Bool
  | .answered _ granted => granted
  | .confirmed _ => false

/-- The time of a confirmation. -/
def Observation.confirmedAt : Observation τ → Option τ
  | .answered _ _ => none
  | .confirmed time => some time

/-- The number of positive answers. -/
def grants (trace : List (Observation τ)) : ℕ :=
  trace.countP Observation.isGrant

/-- The times of the confirmations. -/
def confirmations (trace : List (Observation τ)) : List τ :=
  trace.filterMap Observation.confirmedAt

section Machine

variable [LE τ] [Sub τ]

/-- The steps of a usage record; a user without one has not been granted
anything yet. -/
inductive Step (limits : Limits τ) :
    Option (Usage τ) → Observation τ → Option (Usage τ) → Prop where
  | refused (usage : Option (Usage τ)) (time : τ) :
      Step limits usage (.answered time false) usage
  | opened (time : τ) :
      Step limits none (.answered time true)
        (some ⟨1, 0, time, none⟩)
  | retried {usage : Usage τ} {time : τ} :
      usage.granted < limits.maxGrants →
      usage.confirmed < limits.maxConfirmed →
      usage.confirmedSince = none →
      limits.retryDelay ≤ time - usage.lastGrant →
      Step limits (some usage) (.answered time true)
        (some ⟨usage.granted + 1, usage.confirmed, time, none⟩)
  | repeated {usage : Usage τ} {time last : τ} :
      usage.granted < limits.maxGrants →
      usage.confirmed < limits.maxConfirmed →
      usage.confirmedSince = some last →
      limits.repeatDelay ≤ time - last →
      Step limits (some usage) (.answered time true)
        (some ⟨usage.granted + 1, usage.confirmed, time, none⟩)
  | confirmed (usage : Usage τ) (time : τ) :
      Step limits (some usage) (.confirmed time)
        (some ⟨usage.granted, usage.confirmed + 1, usage.lastGrant,
          some time⟩)

/-- The time that has to have passed before the second of two consecutive
grants, given the confirmations between them. -/
def Waited (limits : Limits τ) (first second : τ)
    (between : List τ) : Prop :=
  match between.getLast? with
  | none => limits.retryDelay ≤ second - first
  | some last => limits.repeatDelay ≤ second - last

/-- The behaviour that the limits promise. -/
structure Respects (limits : Limits τ) (trace : List (Observation τ)) :
    Prop where
  /-- At most `maxGrants` positive answers. -/
  capped : (grants trace : ℤ) ≤ limits.maxGrants
  /-- No positive answer after `maxConfirmed` confirmations. -/
  finished : ∀ {front back : List (Observation τ)},
    trace = front ++ back →
    1 ≤ limits.maxConfirmed →
    limits.maxConfirmed ≤ (confirmations front).length →
    grants back = 0
  /-- Consecutive positive answers keep their distance. -/
  spaced : ∀ {front between back : List (Observation τ)}
      {first second : τ},
    trace = front ++ .answered first true ::
      (between ++ .answered second true :: back) →
    grants between = 0 →
    Waited limits first second (confirmations between)

/-! ## The record as a function of the trace -/

/-- The record reflects a trace that led to it. -/
structure Reflects (trace : List (Observation τ))
    (usage : Option (Usage τ)) : Prop where
  unopened : usage = none → grants trace = 0 ∧ confirmations trace = []
  granted : ∀ record, usage = some record →
    record.granted = grants trace
  confirmed : ∀ record, usage = some record →
    record.confirmed = (confirmations trace).length

variable {limits : Limits τ} {before after : Option (Usage τ)}
  {trace : List (Observation τ)} {label : Observation τ}

omit [LE τ] [Sub τ] in
@[simp]
theorem grants_nil : grants ([] : List (Observation τ)) = 0 := rfl

omit [LE τ] [Sub τ] in
@[simp]
theorem grants_append (front back : List (Observation τ)) :
    grants (front ++ back) = grants front + grants back :=
  List.countP_append

omit [LE τ] [Sub τ] in
@[simp]
theorem grants_cons_answered (time : τ) (granted : Bool) :
    grants (.answered time granted :: trace) =
      grants trace + if granted then 1 else 0 := by
  cases granted with
  | false => simp [grants, Observation.isGrant]
  | true => simp [grants, List.countP_cons, Observation.isGrant]

omit [LE τ] [Sub τ] in
@[simp]
theorem grants_cons_confirmed (time : τ) :
    grants (.confirmed time :: trace) = grants trace := by
  simp [grants, Observation.isGrant]

omit [LE τ] [Sub τ] in
@[simp]
theorem confirmations_append (front back : List (Observation τ)) :
    confirmations (front ++ back) =
      confirmations front ++ confirmations back :=
  List.filterMap_append

omit [LE τ] [Sub τ] in
@[simp]
theorem confirmations_cons_answered (time : τ) (granted : Bool) :
    confirmations (.answered time granted :: trace) =
      confirmations trace := rfl

omit [LE τ] [Sub τ] in
@[simp]
theorem confirmations_cons_confirmed (time : τ) :
    confirmations (.confirmed time :: trace) =
      time :: confirmations trace := rfl

omit [LE τ] [Sub τ] in
@[simp]
theorem confirmations_nil :
    confirmations ([] : List (Observation τ)) = [] := rfl

omit [LE τ] [Sub τ] in
theorem Reflects.start : Reflects ([] : List (Observation τ)) none where
  unopened _ := ⟨rfl, rfl⟩
  granted _ absent := by cases absent
  confirmed _ absent := by cases absent

/-- One step keeps the record in accordance with the trace. -/
theorem Reflects.step (reflects : Reflects trace before)
    (taken : Step limits before label after) :
    Reflects (trace ++ [label]) after := by
  cases taken with
  | refused usage time =>
      exact
        { unopened := fun absent => by
            simpa using reflects.unopened absent
          granted := fun record present => by
            simpa using reflects.granted record present
          confirmed := fun record present => by
            simpa using reflects.confirmed record present }
  | opened time =>
      obtain ⟨noGrants, noConfirmations⟩ := reflects.unopened rfl
      exact
        { unopened := fun absent => by cases absent
          granted := fun record present => by
            cases present
            simp [noGrants]
          confirmed := fun record present => by
            cases present
            simp [noConfirmations] }
  | retried =>
      exact
        { unopened := fun absent => by cases absent
          granted := fun record present => by
            cases present
            simp [reflects.granted _ rfl]
          confirmed := fun record present => by
            cases present
            simp [reflects.confirmed _ rfl] }
  | repeated =>
      exact
        { unopened := fun absent => by cases absent
          granted := fun record present => by
            cases present
            simp [reflects.granted _ rfl]
          confirmed := fun record present => by
            cases present
            simp [reflects.confirmed _ rfl] }
  | confirmed usage time =>
      exact
        { unopened := fun absent => by cases absent
          granted := fun record present => by
            cases present
            simp [reflects.granted _ rfl]
          confirmed := fun record present => by
            cases present
            simp [reflects.confirmed _ rfl] }

theorem Reflects.run (run : Run (Step limits) none trace after) :
    Reflects trace after :=
  run.history (fun reflects taken => reflects.step taken) Reflects.start

/-! ## The three promises -/

/-- The grants of an open record never exceed the cap. -/
def Below (limits : Limits τ) (usage : Option (Usage τ)) : Prop :=
  ∀ record, usage = some record → record.granted ≤ limits.maxGrants

theorem Below.step (positive : 1 ≤ limits.maxGrants)
    (below : Below limits before)
    (taken : Step limits before label after) : Below limits after := by
  intro record present
  cases taken with
  | refused usage time => exact below record present
  | opened time =>
      cases present
      simpa using positive
  | retried room =>
      cases present
      exact Int.add_one_le_of_lt room
  | repeated room =>
      cases present
      exact Int.add_one_le_of_lt room
  | confirmed usage time =>
      cases present
      exact below usage rfl

theorem grants_le_of_run (positive : 1 ≤ limits.maxGrants)
    (run : Run (Step limits) none trace after) :
    (grants trace : ℤ) ≤ limits.maxGrants := by
  have below : Below limits after :=
    run.invariant (Below.step positive) (by rintro _ ⟨⟩)
  have reflects : Reflects trace after := Reflects.run run
  cases after with
  | none =>
      rw [(reflects.unopened rfl).1]
      omega
  | some record =>
      rw [← reflects.granted record rfl]
      exact below record rfl

/-- A record with all its confirmations. -/
def Finished (limits : Limits τ) (usage : Option (Usage τ)) : Prop :=
  ∃ record, usage = some record ∧ limits.maxConfirmed ≤ record.confirmed

theorem Finished.step (finished : Finished limits before)
    (taken : Step limits before label after) :
    Finished limits after ∧ label.isGrant = false := by
  rcases finished with ⟨record, rfl, reached⟩
  cases taken with
  | refused usage time => exact ⟨⟨record, rfl, reached⟩, rfl⟩
  | retried _ room => omega
  | repeated _ room => omega
  | confirmed usage time =>
      exact ⟨⟨_, rfl, Int.le_add_one reached⟩, rfl⟩

theorem Finished.run (run : Run (Step limits) before trace after)
    (finished : Finished limits before) : grants trace = 0 := by
  induction run with
  | nil => rfl
  | cons head _ induction =>
      obtain ⟨still, refused⟩ := finished.step head
      have rest := induction still
      simp only [grants] at rest ⊢
      rw [List.countP_cons, rest, refused]
      rfl

theorem grants_eq_zero_of_run {front back : List (Observation τ)}
    (run : Run (Step limits) none (front ++ back) after)
    (positive : 1 ≤ limits.maxConfirmed)
    (reached : limits.maxConfirmed ≤ (confirmations front).length) :
    grants back = 0 := by
  obtain ⟨middle, left, right⟩ := Run.append_iff.mp run
  have reflects : Reflects front middle := Reflects.run left
  cases middle with
  | none =>
      rw [(reflects.unopened rfl).2, List.length_nil] at reached
      omega
  | some record =>
      exact Finished.run right
        ⟨record, rfl, by rwa [reflects.confirmed record rfl]⟩

/-- What a record knows while nothing has been granted since `first`. -/
def Waiting (first : τ) (between : List τ)
    (usage : Option (Usage τ)) : Prop :=
  ∃ record, usage = some record ∧ record.lastGrant = first ∧
    record.confirmedSince = between.getLast?

theorem Step.waiting_of_grant {time : τ}
    (taken : Step limits before (.answered time true) after) :
    Waiting time [] after := by
  cases taken with
  | opened => exact ⟨_, rfl, rfl, rfl⟩
  | retried => exact ⟨_, rfl, rfl, rfl⟩
  | repeated => exact ⟨_, rfl, rfl, rfl⟩

theorem Waiting.run {first : τ} {between : List τ}
    (run : Run (Step limits) before trace after)
    (quiet : grants trace = 0)
    (waiting : Waiting first between before) :
    Waiting first (between ++ confirmations trace) after := by
  induction run generalizing between with
  | nil => simpa using waiting
  | cons head _ induction =>
      rcases waiting with ⟨record, rfl, lastGrant, since⟩
      cases head with
      | refused usage time =>
          exact induction (by simpa using quiet)
            ⟨record, rfl, lastGrant, since⟩
      | retried => simp at quiet
      | repeated => simp at quiet
      | confirmed usage time =>
          have next :
              Waiting first (between ++ [time])
                (some ⟨record.granted, record.confirmed + 1,
                  record.lastGrant, some time⟩) :=
            ⟨_, rfl, lastGrant, by simp⟩
          simpa using induction (by simpa using quiet) next

theorem Waiting.waited {first time : τ} {between : List τ}
    (waiting : Waiting first between before)
    (taken : Step limits before (.answered time true) after) :
    Waited limits first time between := by
  rcases waiting with ⟨record, rfl, lastGrant, since⟩
  cases taken with
  | retried _ _ none delay =>
      rw [Waited, ← since, none, ← lastGrant]
      exact delay
  | repeated _ _ last delay =>
      rw [Waited, ← since, last]
      exact delay

/-- Every run of a record respects the limits. -/
theorem respects_of_run (positive : 1 ≤ limits.maxGrants)
    (run : Run (Step limits) none trace after) :
    Respects limits trace where
  capped := grants_le_of_run positive run
  finished := by
    rintro front back rfl
    exact grants_eq_zero_of_run run
  spaced := by
    rintro front between back first second rfl quiet
    obtain ⟨opening, _, run⟩ := Run.append_iff.mp run
    obtain ⟨granted, head, run⟩ := Run.cons_iff.mp run
    obtain ⟨pausing, middle, run⟩ := Run.append_iff.mp run
    obtain ⟨_, next, _⟩ := Run.cons_iff.mp run
    have waiting := Waiting.run middle quiet head.waiting_of_grant
    rw [List.nil_append] at waiting
    exact waiting.waited next

end Machine

end WindowSystem.Library.FrequencyCap
