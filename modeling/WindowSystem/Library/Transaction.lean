import Mathlib.Data.List.Basic

/-!
# Statements that may fail

A program is a sequence of statements, each at a point of its own, and a
failure at a point makes its statement throw without an effect.  An exception
leaves a sequence, but a block can catch it, and then what the block has done
so far stays.  A sequence that completes has done all of its statements.
-/

namespace WindowSystem.Library.Transaction

variable {π σ ρ : Type*}

/-- A statement at a point; without a result it throws by itself. -/
structure Statement (π σ : Type*) where
  point : π
  effect : σ → Option σ

/-- A statement throws if it fails. -/
def Statement.run (fails : π → Bool) (statement : Statement π σ)
    (state : σ) : Option σ :=
  if fails statement.point then none else statement.effect state

/-- Statements one after the other. -/
def runAll (fails : π → Bool) : List (Statement π σ) → σ → Option σ
  | [], state => some state
  | statement :: rest, state =>
      (statement.run fails state).bind (runAll fails rest)

/-- Statements up to the first that throws; the exception is caught. -/
def runCaught (fails : π → Bool) : List (Statement π σ) → σ → σ
  | [], state => state
  | statement :: rest, state =>
      match statement.run fails state with
      | none => state
      | some after => runCaught fails rest after

/-- A part of a method. -/
inductive Block (π σ : Type*) where
  | plain (statements : List (Statement π σ))
  | caught (statements : List (Statement π σ))

def Block.run (fails : π → Bool) : Block π σ → σ → Option σ
  | .plain statements, state => runAll fails statements state
  | .caught statements, state => some (runCaught fails statements state)

/-- The parts of a method one after the other. -/
def runBlocks (fails : π → Bool) : List (Block π σ) → σ → Option σ
  | [], state => some state
  | block :: rest, state =>
      (block.run fails state).bind (runBlocks fails rest)

variable {fails : π → Bool} {statement : Statement π σ}
  {statements rest : List (Statement π σ)} {state after last : σ}

/-! ## Completed statements -/

theorem run_eq_some_iff :
    statement.run fails state = some after ↔
      fails statement.point = false ∧ statement.effect state = some after := by
  rw [Statement.run]
  cases fails statement.point <;> simp

@[simp]
theorem runAll_nil : runAll fails [] state = some state :=
  rfl

theorem runAll_cons_eq_some_iff :
    runAll fails (statement :: rest) state = some last ↔
      ∃ after, statement.run fails state = some after ∧
        runAll fails rest after = some last :=
  Option.bind_eq_some_iff

theorem runAll_append_eq_some_iff :
    runAll fails (statements ++ rest) state = some last ↔
      ∃ after, runAll fails statements state = some after ∧
        runAll fails rest after = some last := by
  induction statements generalizing state with
  | nil => simp
  | cons first others induction =>
      rw [List.cons_append, runAll_cons_eq_some_iff]
      constructor
      · rintro ⟨middle, done, others⟩
        obtain ⟨after, inner, outer⟩ := induction.mp others
        exact ⟨after, runAll_cons_eq_some_iff.mpr ⟨middle, done, inner⟩, outer⟩
      · rintro ⟨after, inner, outer⟩
        obtain ⟨middle, done, inner⟩ := runAll_cons_eq_some_iff.mp inner
        exact ⟨middle, done, induction.mpr ⟨after, inner, outer⟩⟩

/-- A block that completes has caught nothing. -/
theorem runCaught_of_runAll
    (completed : runAll fails statements state = some last) :
    runCaught fails statements state = last := by
  induction statements generalizing state with
  | nil => exact Option.some_inj.mp completed
  | cons first others induction =>
      obtain ⟨after, done, completed⟩ := runAll_cons_eq_some_iff.mp completed
      rw [runCaught, done]
      exact induction completed

/-- Statements that can only throw leave everything as it is. -/
theorem runCaught_eq_self
    (idle : ∀ statement ∈ statements, ∀ before after,
      statement.effect before = some after → after = before) :
    runCaught fails statements state = state := by
  induction statements with
  | nil => rfl
  | cons first others induction =>
      rw [runCaught]
      split
      · rfl
      · rename_i after done
        rw [idle first List.mem_cons_self _ _ (run_eq_some_iff.mp done).2]
        exact induction fun other member =>
          idle other (List.mem_cons_of_mem _ member)

/-! ## Statements that do not throw by themselves -/

theorem runCaught_append :
    runCaught fails (statements ++ rest) state =
      ((runAll fails statements state).map (runCaught fails rest)).getD
        (runCaught fails statements state) := by
  induction statements generalizing state with
  | nil => rfl
  | cons first others induction =>
      rw [List.cons_append, runCaught, runAll, runCaught]
      cases first.run fails state with
      | none => rfl
      | some after => exact induction

/-- Statements of which each throws by itself in every state or in none
complete exactly when none of them fails or throws. -/
theorem runAll_isSome_iff_of_steady
    (steady : ∀ statement ∈ statements, ∀ before other,
      (statement.effect before).isSome = (statement.effect other).isSome) :
    (runAll fails statements state).isSome = true ↔
      ∀ statement ∈ statements, fails statement.point = false ∧
        ∀ before, (statement.effect before).isSome = true := by
  induction statements generalizing state with
  | nil => simp
  | cons first others induction =>
      rw [List.forall_mem_cons] at steady
      rw [List.forall_mem_cons, runAll, Statement.run]
      cases fails first.point with
      | true => simp
      | false =>
          rw [if_neg Bool.false_ne_true]
          cases done : first.effect state with
          | none =>
              refine iff_of_false (by simp) fun each => ?_
              have formed := each.1.2 state
              rw [done] at formed
              cases formed
          | some after =>
              rw [Option.bind_some, induction steady.2, iff_and_self]
              refine fun _ => ⟨rfl, fun before => ?_⟩
              rw [steady.1 before state, done, Option.isSome_some]

/-- Without exceptions of their own statements complete exactly when none of
them fails. -/
theorem runAll_isSome_iff
    (total : ∀ statement ∈ statements, ∀ before,
      (statement.effect before).isSome = true) :
    (runAll fails statements state).isSome = true ↔
      ∀ statement ∈ statements, fails statement.point = false := by
  rw [runAll_isSome_iff_of_steady fun statement member before other =>
    (total statement member before).trans (total statement member other).symm]
  exact forall₂_congr fun statement member =>
    and_iff_left (total statement member)

/-- From every state, statements complete exactly if none of them fails and
something holds besides. -/
def CompletesIff (fails : π → Bool) (statements : List (Statement π σ))
    (formed : Prop) : Prop :=
  ∀ state, (runAll fails statements state).isSome = true ↔
    (∀ statement ∈ statements, fails statement.point = false) ∧ formed

theorem completesIff_of_total
    (total : ∀ statement ∈ statements, ∀ before,
      (statement.effect before).isSome = true) :
    CompletesIff fails statements True := by
  intro state
  rw [and_true]
  exact runAll_isSome_iff total

theorem CompletesIff.append {first second : Prop}
    (front : CompletesIff fails statements first)
    (back : CompletesIff fails rest second) :
    CompletesIff fails (statements ++ rest) (first ∧ second) := by
  intro state
  rw [List.forall_mem_append, and_and_and_comm, ← front state]
  simp only [CompletesIff, Option.isSome_iff_exists,
    runAll_append_eq_some_iff] at back ⊢
  constructor
  · rintro ⟨last, after, done, completed⟩
    exact ⟨⟨after, done⟩, (back after).mp ⟨last, completed⟩⟩
  · rintro ⟨⟨after, done⟩, works⟩
    obtain ⟨last, completed⟩ := (back after).mpr works
    exact ⟨last, after, done, completed⟩

theorem CompletesIff.congr {formed other : Prop}
    (completes : CompletesIff fails statements formed)
    (same : formed ↔ other) : CompletesIff fails statements other :=
  fun state => (completes state).trans (and_congr_right' same)

/-- What every statement preserves is preserved. -/
theorem runAll_preserves {holds : σ → Prop}
    (each : ∀ statement ∈ statements, ∀ before after, holds before →
      statement.effect before = some after → holds after)
    (start : holds state)
    (completed : runAll fails statements state = some last) : holds last := by
  induction statements generalizing state with
  | nil =>
      cases completed
      exact start
  | cons first others induction =>
      rw [List.forall_mem_cons] at each
      obtain ⟨after, done, completed⟩ := runAll_cons_eq_some_iff.mp completed
      exact induction each.2
        (each.1 _ _ start (run_eq_some_iff.mp done).2) completed

theorem runCaught_preserves {holds : σ → Prop}
    (each : ∀ statement ∈ statements, ∀ before after, holds before →
      statement.effect before = some after → holds after)
    (start : holds state) : holds (runCaught fails statements state) := by
  induction statements generalizing state with
  | nil => exact start
  | cons first others induction =>
      rw [List.forall_mem_cons] at each
      rw [runCaught]
      cases done : first.run fails state with
      | none => exact start
      | some after =>
          exact induction each.2
            (each.1 _ _ start (run_eq_some_iff.mp done).2)

section Crossing

variable {front back : List (Statement π σ)} {crossing : Statement π σ}
  {kept lost : σ → Prop}

/-- A failure in front of a statement or of the statement itself keeps what
the statements in front preserve. -/
theorem runCaught_stopped
    (total : ∀ statement ∈ front ++ [crossing], ∀ before,
      (statement.effect before).isSome = true)
    (before : ∀ statement ∈ front, ∀ before after, kept before →
      statement.effect before = some after → kept after)
    (start : kept state)
    (fault : ∃ statement ∈ front ++ [crossing],
      fails statement.point = true) :
    kept (runCaught fails (front ++ crossing :: back) state) := by
  have stopped : runAll fails (front ++ [crossing]) state = none := by
    rw [← Option.not_isSome_iff_eq_none, runAll_isSome_iff total]
    obtain ⟨statement, member, failed⟩ := fault
    exact fun works => Bool.eq_false_iff.mp (works statement member) failed
  rw [List.append_cons, runCaught_append, stopped, Option.map_none,
    Option.getD_none, runCaught_append]
  cases reached : runAll fails front state with
  | none => exact runCaught_preserves before start
  | some after =>
      have inside := runAll_preserves before start reached
      have failed : crossing.run fails after = none := by
        by_contra passed
        obtain ⟨last, done⟩ := Option.ne_none_iff_exists'.mp passed
        have completed : runAll fails (front ++ [crossing]) state =
            some last :=
          runAll_append_eq_some_iff.mpr ⟨after, reached,
            runAll_cons_eq_some_iff.mpr ⟨last, done, rfl⟩⟩
        rw [stopped] at completed
        cases completed
      rw [Option.map_some, Option.getD_some, runCaught, failed]
      exact inside

/-- Behind a statement that has been done holds what it brings about and the
statements behind it preserve. -/
theorem runCaught_crossed
    (total : ∀ statement ∈ front ++ [crossing], ∀ before,
      (statement.effect before).isSome = true)
    (before : ∀ statement ∈ front, ∀ before after, kept before →
      statement.effect before = some after → kept after)
    (cross : ∀ before after, kept before →
      crossing.effect before = some after → lost after)
    (behind : ∀ statement ∈ back, ∀ before after, lost before →
      statement.effect before = some after → lost after)
    (start : kept state)
    (works : ∀ statement ∈ front ++ [crossing],
      fails statement.point = false) :
    lost (runCaught fails (front ++ crossing :: back) state) := by
  obtain ⟨last, completed⟩ := Option.isSome_iff_exists.mp
    ((@runAll_isSome_iff _ _ fails _ state total).mpr works)
  rw [List.append_cons, runCaught_append, completed, Option.map_some,
    Option.getD_some]
  obtain ⟨after, reached, done⟩ := runAll_append_eq_some_iff.mp completed
  obtain ⟨other, crossed, same⟩ := runAll_cons_eq_some_iff.mp done
  obtain rfl := Option.some.inj same
  exact runCaught_preserves behind (cross _ _
    (runAll_preserves before start reached)
    (run_eq_some_iff.mp crossed).2)

end Crossing

@[simp]
theorem runBlocks_nil : runBlocks fails [] state = some state :=
  rfl

theorem runBlocks_plain {blocks : List (Block π σ)} :
    runBlocks fails (.plain statements :: blocks) state = some last ↔
      ∃ after, runAll fails statements state = some after ∧
        runBlocks fails blocks after = some last :=
  Option.bind_eq_some_iff

/-- A part that completes from every state or from none. -/
theorem CompletesIff.plain {blocks : List (Block π σ)} {first second : Prop}
    (front : CompletesIff fails statements first)
    (back : ∀ state, (runBlocks fails blocks state).isSome = true ↔ second) :
    ∀ state,
      (runBlocks fails (.plain statements :: blocks) state).isSome = true ↔
        ((∀ statement ∈ statements, fails statement.point = false) ∧ first) ∧
          second := by
  intro state
  rw [← front state]
  simp only [Option.isSome_iff_exists, runBlocks_plain] at back ⊢
  constructor
  · rintro ⟨last, after, done, completed⟩
    exact ⟨⟨after, done⟩, (back after).mp ⟨last, completed⟩⟩
  · rintro ⟨⟨after, done⟩, works⟩
    obtain ⟨last, completed⟩ := (back after).mpr works
    exact ⟨last, after, done, completed⟩

theorem runBlocks_caught {blocks : List (Block π σ)} :
    runBlocks fails (.caught statements :: blocks) state = some last ↔
      runBlocks fails blocks (runCaught fails statements state) =
        some last :=
  Iff.rfl

theorem isSome_runBlocks_caught {blocks : List (Block π σ)} {second : Prop}
    (back : ∀ state, (runBlocks fails blocks state).isSome = true ↔ second) :
    ∀ state,
      (runBlocks fails (.caught statements :: blocks) state).isSome = true ↔
        second :=
  fun state => back (runCaught fails statements state)

/-! ## Statements that add values -/

/-- A statement for each value, in their order; a value that cannot be formed
throws. -/
def adding (point : Nat → π) (add : ρ → σ → σ) :
    List (Option ρ) → List (Statement π σ) :=
  List.mapIdx fun index value =>
    ⟨point index, fun state => value.map fun value => add value state⟩

theorem adding_cons (point : Nat → π) (add : ρ → σ → σ) (value : Option ρ)
    (values : List (Option ρ)) :
    adding point add (value :: values) =
      ⟨point 0, fun state => value.map fun value => add value state⟩ ::
        adding (fun index => point (index + 1)) add values := by
  rw [adding, List.mapIdx_cons]
  rfl

/-- When all values are added, all could be formed. -/
theorem runAll_adding {point : Nat → π} {add : ρ → σ → σ}
    {values : List (Option ρ)}
    (completed : runAll fails (adding point add values) state = some last) :
    ∃ formed : List ρ, values = formed.map some ∧
      last = formed.foldl (fun state value => add value state) state := by
  induction values generalizing point state with
  | nil => exact ⟨[], rfl, (Option.some_inj.mp completed).symm⟩
  | cons value values induction =>
      rw [adding_cons] at completed
      obtain ⟨after, done, completed⟩ := runAll_cons_eq_some_iff.mp completed
      obtain ⟨_, effect⟩ := run_eq_some_iff.mp done
      obtain ⟨first, rfl, rfl⟩ := Option.map_eq_some_iff.mp effect
      obtain ⟨formed, rfl, rfl⟩ := induction completed
      exact ⟨first :: formed, rfl, rfl⟩

/-- Behind values that could be formed, all of them are added. -/
theorem runAll_adding_append {point : Nat → π} {add : ρ → σ → σ}
    {formed : List ρ} {rest : List (Statement π σ)}
    (completed : runAll fails (adding point add (formed.map some) ++ rest)
      state = some last) :
    runAll fails rest
      (formed.foldl (fun state value => add value state) state) =
        some last := by
  obtain ⟨after, added, completed⟩ := runAll_append_eq_some_iff.mp completed
  obtain ⟨values, same, rfl⟩ := runAll_adding added
  obtain rfl := List.map_injective_iff.mpr (fun _ _ => Option.some.inj) same
  exact completed

/-- Each value throws in every state or in none. -/
theorem adding_steady {point : Nat → π} {add : ρ → σ → σ}
    {values : List (Option ρ)} :
    ∀ statement ∈ adding point add values, ∀ before other,
      (statement.effect before).isSome = (statement.effect other).isSome := by
  intro statement member before other
  obtain ⟨index, inside, rfl⟩ := List.mem_mapIdx.mp member
  rw [Option.isSome_map, Option.isSome_map]

/-- Values are added completely exactly if nothing fails and all of them can be
formed. -/
theorem completesIff_adding {point : Nat → π} {add : ρ → σ → σ}
    {values : List (Option ρ)} :
    CompletesIff fails (adding point add values)
      (∀ value ∈ values, value.isSome = true) := by
  intro state
  rw [runAll_isSome_iff_of_steady adding_steady]
  constructor
  · refine fun each => ⟨fun statement member => (each statement member).1, ?_⟩
    intro value member
    obtain ⟨index, inside, rfl⟩ := List.getElem_of_mem member
    have formed := (each _ (List.mem_mapIdx.mpr ⟨index, inside, rfl⟩)).2 state
    rwa [Option.isSome_map] at formed
  · rintro ⟨works, formed⟩ statement member
    refine ⟨works statement member, fun before => ?_⟩
    obtain ⟨index, inside, rfl⟩ := List.mem_mapIdx.mp member
    rw [Option.isSome_map]
    exact formed _ (List.getElem_mem inside)

theorem adding_total {point : Nat → π} {add : ρ → σ → σ} {formed : List ρ} :
    ∀ statement ∈ adding point add (formed.map some), ∀ before,
      (statement.effect before).isSome = true := by
  intro statement member before
  obtain ⟨index, inside, rfl⟩ := List.mem_mapIdx.mp member
  simp

theorem adding_effect {point : Nat → π} {add : ρ → σ → σ} {formed : List ρ}
    (member : statement ∈ adding point add (formed.map some))
    (done : statement.effect state = some after) :
    ∃ value ∈ formed, after = add value state := by
  obtain ⟨index, inside, rfl⟩ := List.mem_mapIdx.mp member
  rw [List.getElem_map] at done
  exact ⟨_, List.getElem_mem _, (Option.some.inj done).symm⟩

theorem map_point_adding (point : Nat → π) (add : ρ → σ → σ)
    (values : List (Option ρ)) :
    (adding point add values).map Statement.point =
      (List.range values.length).map point := by
  apply List.ext_getElem
  · simp [adding]
  · intro index _ _
    simp [adding]

/-! ## Statements that add values at points of their own -/

section AddingAt

variable {add : ρ → σ → σ} {values : List (π × Option ρ)}

/-- A statement for each value, at the point that is named with it. -/
def addingAt (add : ρ → σ → σ) (values : List (π × Option ρ)) :
    List (Statement π σ) :=
  values.map fun value =>
    ⟨value.1, fun state => value.2.map fun value => add value state⟩

/-- The values up to the first that fails or cannot be formed. -/
def addable (fails : π → Bool) : List (π × Option ρ) → List ρ
  | [] => []
  | (point, value) :: rest =>
      if fails point then []
      else value.elim [] fun value => value :: addable fails rest

theorem runCaught_addingAt :
    runCaught fails (addingAt add values) state =
      (addable fails values).foldl (fun state value => add value state)
        state := by
  induction values generalizing state with
  | nil => rfl
  | cons first rest induction =>
      obtain ⟨point, value⟩ := first
      rw [addingAt, List.map_cons, ← addingAt, runCaught, Statement.run,
        addable]
      cases failed : fails point with
      | true => rfl
      | false =>
          cases value with
          | none => rfl
          | some value => exact induction

/-- All values are added exactly if nothing fails and each can be formed. -/
theorem addable_eq_iff {formed : List ρ}
    (same : values.length = formed.length) :
    addable fails values = formed ↔
      (∀ value ∈ values, fails value.1 = false) ∧
        values.map Prod.snd = formed.map some := by
  induction values generalizing formed with
  | nil =>
      obtain rfl := List.length_eq_zero_iff.mp same.symm
      simp [addable]
  | cons first rest induction =>
      obtain ⟨point, value⟩ := first
      obtain ⟨wanted, others, rfl⟩ :=
        List.exists_cons_of_length_eq_add_one same.symm
      rw [addable, List.forall_mem_cons, List.map_cons, List.map_cons,
        List.cons.injEq, and_and_and_comm,
        ← induction (Nat.succ.inj same)]
      cases fails point with
      | true => simp
      | false => cases value <;> simp

end AddingAt

/-! ## Requests one after the other -/

section Requests

variable {run : ρ → σ → Bool × σ} {requests : List ρ}

/-- The state after requests, each of which tells whether it was done. -/
def runRequests (run : ρ → σ → Bool × σ) : List ρ → σ → σ
  | [], state => state
  | request :: rest, state => runRequests run rest (run request state).2

/-- The requests that were done. -/
def doneRequests (run : ρ → σ → Bool × σ) : List ρ → σ → List ρ
  | [], _ => []
  | request :: rest, state =>
      (if (run request state).1 then [request] else []) ++
        doneRequests run rest (run request state).2

/-- What the requests that are done bring about in their order, and the others
keep, holds after all of them. -/
theorem runRequests_holds {holds : List ρ → σ → Prop}
    (done : ∀ history request state, holds history state →
      (run request state).1 = true →
        holds (history ++ [request]) (run request state).2)
    (refused : ∀ history request state, holds history state →
      (run request state).1 = false → holds history (run request state).2)
    (start : holds [] state) :
    holds (doneRequests run requests state)
      (runRequests run requests state) := by
  suffices general : ∀ history, holds history state →
      holds (history ++ doneRequests run requests state)
        (runRequests run requests state) from general [] start
  clear start
  induction requests generalizing state with
  | nil =>
      intro history before
      rw [doneRequests, List.append_nil]
      exact before
  | cons request rest induction =>
      intro history before
      rw [doneRequests, runRequests]
      cases found : (run request state).1 with
      | false => exact induction history (refused _ _ _ before found)
      | true =>
          rw [if_pos rfl, ← List.append_assoc]
          exact induction _ (done _ _ _ before found)

end Requests

end WindowSystem.Library.Transaction
