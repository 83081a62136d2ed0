import Mathlib.Data.List.Basic

/-!
# Commands that may throw

A small language of sequential commands with choices, loops, `try … catch` and
`try … finally`.  Its atomic actions are a parameter: each has finitely many
results, and each result is a state and whether the action has thrown.  The
rules below are those of a Hoare logic with two postconditions, one for normal
and one for exceptional ends.
-/

namespace WindowSystem.Library.Exceptions

variable {α σ : Type*}

/-- How an execution ends. -/
inductive Outcome where
  | completed
  | threw
deriving DecidableEq

/-- Commands over atomic actions. -/
inductive Command (α : Type*) where
  | skip
  | atomic (action : α)
  | seq (first second : Command α)
  | either (left right : Command α)
  | loop (body : Command α)
  | tryCatch (body handler : Command α)
  | tryFinally (body closing : Command α)

/-- Executions, given the results of the atomic actions. -/
inductive Executes (results : α → σ → List (Outcome × σ)) :
    Command α → σ → Outcome → σ → Prop where
  | skip {state : σ} : Executes results .skip state .completed state
  | atomic {action : α} {before after : σ} {outcome : Outcome} :
      (outcome, after) ∈ results action before →
      Executes results (.atomic action) before outcome after
  | seq {first second : Command α} {before middle after : σ}
      {outcome : Outcome} :
      Executes results first before .completed middle →
      Executes results second middle outcome after →
      Executes results (.seq first second) before outcome after
  | seqThrew {first second : Command α} {before after : σ} :
      Executes results first before .threw after →
      Executes results (.seq first second) before .threw after
  | left {left right : Command α} {before after : σ} {outcome : Outcome} :
      Executes results left before outcome after →
      Executes results (.either left right) before outcome after
  | right {left right : Command α} {before after : σ} {outcome : Outcome} :
      Executes results right before outcome after →
      Executes results (.either left right) before outcome after
  | loopDone {body : Command α} {state : σ} :
      Executes results (.loop body) state .completed state
  | loopRound {body : Command α} {before middle after : σ}
      {outcome : Outcome} :
      Executes results body before .completed middle →
      Executes results (.loop body) middle outcome after →
      Executes results (.loop body) before outcome after
  | loopThrew {body : Command α} {before after : σ} :
      Executes results body before .threw after →
      Executes results (.loop body) before .threw after
  | tryCompleted {body handler : Command α} {before after : σ} :
      Executes results body before .completed after →
      Executes results (.tryCatch body handler) before .completed after
  | caught {body handler : Command α} {before middle after : σ}
      {outcome : Outcome} :
      Executes results body before .threw middle →
      Executes results handler middle outcome after →
      Executes results (.tryCatch body handler) before outcome after
  | closed {body closing : Command α} {before middle after : σ}
      {outcome : Outcome} :
      Executes results body before outcome middle →
      Executes results closing middle .completed after →
      Executes results (.tryFinally body closing) before outcome after
  | closingThrew {body closing : Command α} {before middle after : σ}
      {outcome : Outcome} :
      Executes results body before outcome middle →
      Executes results closing middle .threw after →
      Executes results (.tryFinally body closing) before .threw after

variable {results : α → σ → List (Outcome × σ)}

/-- What every atomic action preserves is preserved by every command. -/
theorem Executes.invariant {holds : σ → Prop}
    (preserved : ∀ {action before outcome after},
      holds before → (outcome, after) ∈ results action before → holds after)
    {command : Command α} {before after : σ} {outcome : Outcome}
    (execution : Executes results command before outcome after)
    (initial : holds before) : holds after := by
  induction execution with
  | skip => exact initial
  | atomic member => exact preserved initial member
  | seq _ _ first second => exact second (first initial)
  | seqThrew _ first => exact first initial
  | left _ branch => exact branch initial
  | right _ branch => exact branch initial
  | loopDone => exact initial
  | loopRound _ _ round rest => exact rest (round initial)
  | loopThrew _ round => exact round initial
  | tryCompleted _ body => exact body initial
  | caught _ _ body handler => exact handler (body initial)
  | closed _ _ body closing => exact closing (body initial)
  | closingThrew _ _ body closing => exact closing (body initial)

/-! ## Triples -/

/-- The postcondition that an outcome selects. -/
def Outcome.select (after thrown : σ → Prop) : Outcome → σ → Prop
  | .completed => after
  | .threw => thrown

/-- From a state with the precondition, every execution ends in a state with
the postcondition of its outcome. -/
structure Triple (results : α → σ → List (Outcome × σ)) (before : σ → Prop)
    (command : Command α) (after thrown : σ → Prop) : Prop where
  ends : ∀ {state outcome last}, before state →
    Executes results command state outcome last →
    outcome.select after thrown last

namespace Triple

variable {before middle after thrown caught : σ → Prop}
  {first second body handler closing : Command α}

theorem skip : Triple results before .skip before thrown := by
  constructor
  rintro state _ _ holds (_ | _)
  exact holds

theorem atomic {action : α}
    (each : ∀ {state outcome last}, before state →
      (outcome, last) ∈ results action state →
      outcome.select after thrown last) :
    Triple results before (.atomic action) after thrown := by
  constructor
  intro state outcome last holds execution
  cases execution with
  | atomic member => exact each holds member

theorem seq (left : Triple results before first middle thrown)
    (right : Triple results middle second after thrown) :
    Triple results before (.seq first second) after thrown := by
  constructor
  intro state outcome last holds execution
  cases execution with
  | seq one other => exact right.ends (left.ends holds one) other
  | seqThrew one => exact left.ends holds one

theorem either (left : Triple results before first after thrown)
    (right : Triple results before second after thrown) :
    Triple results before (.either first second) after thrown := by
  constructor
  intro state outcome last holds execution
  cases execution with
  | left one => exact left.ends holds one
  | right other => exact right.ends holds other

/-- The precondition of a round is the invariant of the loop. -/
theorem loop (round : Triple results before body before thrown) :
    Triple results before (.loop body) before thrown := by
  constructor
  intro state outcome last holds execution
  generalize written : Command.loop body = command at execution
  induction execution with
  | loopDone => exact holds
  | loopRound one _ _ rest =>
      cases written
      exact rest (round.ends holds one) rfl
  | loopThrew one =>
      cases written
      exact round.ends holds one
  | _ => cases written

theorem tryCatch (left : Triple results before body after caught)
    (right : Triple results caught handler after thrown) :
    Triple results before (.tryCatch body handler) after thrown := by
  constructor
  intro state outcome last holds execution
  cases execution with
  | tryCompleted one => exact left.ends holds one
  | caught one other => exact right.ends (left.ends holds one) other

theorem tryFinally (left : Triple results before body middle caught)
    (normal : Triple results middle closing after thrown)
    (exceptional : Triple results caught closing thrown thrown) :
    Triple results before (.tryFinally body closing) after thrown := by
  constructor
  intro state outcome last holds execution
  cases execution with
  | @closed _ _ _ _ _ outcome one other =>
      cases outcome with
      | completed => exact normal.ends (left.ends holds one) other
      | threw => exact exceptional.ends (left.ends holds one) other
  | @closingThrew _ _ _ _ _ outcome one other =>
      cases outcome with
      | completed => exact normal.ends (left.ends holds one) other
      | threw => exact exceptional.ends (left.ends holds one) other

/-- The rule of consequence. -/
theorem mono {stronger weaker escaped : σ → Prop} {command : Command α}
    (triple : Triple results before command after caught)
    (pre : ∀ state, stronger state → before state)
    (post : ∀ state, after state → weaker state)
    (exceptional : ∀ state, caught state → escaped state) :
    Triple results stronger command weaker escaped := by
  constructor
  intro state outcome last holds execution
  cases outcome with
  | completed => exact post _ (triple.ends (pre _ holds) execution)
  | threw => exact exceptional _ (triple.ends (pre _ holds) execution)

/-- A precondition that allows two cases. -/
theorem or {other : σ → Prop} {command : Command α}
    (left : Triple results before command after thrown)
    (right : Triple results other command after thrown) :
    Triple results (fun state => before state ∨ other state) command after
      thrown := by
  constructor
  rintro state outcome last (holds | holds) execution
  · exact left.ends holds execution
  · exact right.ends holds execution

/-- What holds of no state is a precondition of everything. -/
theorem absurd {command : Command α} :
    Triple results (fun _ => False) command after thrown :=
  ⟨fun impossible => impossible.elim⟩

end Triple

/-! ## Sequences -/

/-- Commands one after the other. -/
def Command.all : List (Command α) → Command α
  | [] => .skip
  | first :: rest => .seq first (Command.all rest)

/-- Commands that keep a condition keep it one after the other. -/
theorem Triple.all {holds thrown : σ → Prop} {commands : List (Command α)}
    (each : ∀ command ∈ commands,
      Triple results holds command holds thrown) :
    Triple results holds (.all commands) holds thrown := by
  induction commands with
  | nil => exact Triple.skip
  | cons first rest induction =>
      exact Triple.seq (each first List.mem_cons_self)
        (induction fun command member =>
          each command (List.mem_cons_of_mem _ member))

end WindowSystem.Library.Exceptions
