import Mathlib.Order.Basic
import WindowSystem.Library.LabelledRun

/-!
# Copies in stages

A value is collected into a copy, and what was collected is taken into use.
Both happen at any time, so what is used is the value as it was at the last
collection before the last time it was taken.  A lower bound of the value
reaches the copy in use in this way, and stays there until a reset of the
value has come through both stages.
-/

namespace WindowSystem.Library.StagedCopy

open WindowSystem.Library.LabelledRun

/-- A value, what was last collected of it, and what is used. -/
structure Stages (α : Type*) where
  source : α
  collected : α
  used : α

/-- What can happen to the stages. -/
inductive Move where
  | grow
  | reset
  | collect
  | take
deriving DecidableEq

/-! ## Moves in order -/

/-- The last element of a sublist is the last one of the list, or the whole
sublist comes before it. -/
theorem concat_sublist_concat {β : Type*} (front list : List β)
    (element last : β) :
    List.Sublist (front ++ [element]) (list ++ [last]) ↔
      List.Sublist (front ++ [element]) list ∨
        element = last ∧ List.Sublist front list := by
  rw [← List.reverse_sublist, List.reverse_concat, List.reverse_concat,
    List.cons_sublist_cons', ← List.reverse_concat, List.reverse_sublist,
    List.reverse_sublist]

/-- A value was collected and the copy taken into use. -/
abbrev Seen (moves : List Move) : Prop :=
  List.Sublist [.collect, .take] moves

/-- A value was collected after a reset. -/
abbrev Recollected (moves : List Move) : Prop :=
  List.Sublist [.reset, .collect] moves

/-- A value was collected after a reset, and the copy taken into use. -/
abbrev Renewed (moves : List Move) : Prop :=
  List.Sublist [.reset, .collect, .take] moves

variable {moves : List Move} {move : Move}

theorem seen_concat :
    Seen (moves ++ [move]) ↔
      Seen moves ∨ .take = move ∧ .collect ∈ moves := by
  rw [← List.singleton_sublist]
  exact concat_sublist_concat [.collect] moves .take move

theorem recollected_concat :
    Recollected (moves ++ [move]) ↔
      Recollected moves ∨ .collect = move ∧ .reset ∈ moves := by
  rw [← List.singleton_sublist]
  exact concat_sublist_concat [.reset] moves .collect move

theorem renewed_concat :
    Renewed (moves ++ [move]) ↔
      Renewed moves ∨ .take = move ∧ Recollected moves :=
  concat_sublist_concat [Move.reset, .collect] moves .take move

theorem Seen.collect_mem (seen : Seen moves) : .collect ∈ moves :=
  seen.subset List.mem_cons_self

/-! ## Bounds -/

variable {α : Type*} [Preorder α] {bound : α} {before after : Stages α}

/-- The value only grows between resets, and a reset may do anything to it. -/
def Step (before : Stages α) : Move → Stages α → Prop
  | .grow, after =>
      before.source ≤ after.source ∧ after.collected = before.collected ∧
        after.used = before.used
  | .reset, after =>
      after.collected = before.collected ∧ after.used = before.used
  | .collect, after => after = { before with collected := before.source }
  | .take, after => after = { before with used := before.collected }

/-- What the moves since a time at which the value had a bound say about the
stages. -/
structure Bounded (bound : α) (moves : List Move) (stages : Stages α) :
    Prop where
  source : .reset ∉ moves → bound ≤ stages.source
  collected : .collect ∈ moves → ¬ Recollected moves →
    bound ≤ stages.collected
  used : Seen moves → ¬ Renewed moves → bound ≤ stages.used

theorem bounded_nil (start : bound ≤ before.source) :
    Bounded bound [] before where
  source _ := start
  collected := nofun
  used := nofun

theorem bounded_step (bounded : Bounded bound moves before)
    (taken : Step before move after) :
    Bounded bound (moves ++ [move]) after := by
  constructor
  case source =>
      intro unreset
      rw [List.mem_append, not_or, List.mem_singleton] at unreset
      have start := bounded.source unreset.1
      cases move with
      | grow => exact start.trans taken.1
      | reset => exact absurd rfl unreset.2
      | collect =>
          cases taken
          exact start
      | take =>
          cases taken
          exact start
  case collected =>
      intro present fresh
      rw [recollected_concat, not_or, not_and] at fresh
      rw [List.mem_append, List.mem_singleton] at present
      cases move with
      | collect =>
          cases taken
          exact bounded.source (fresh.2 rfl)
      | grow =>
          rw [taken.2.1]
          exact bounded.collected (present.resolve_right nofun) fresh.1
      | reset =>
          rw [taken.1]
          exact bounded.collected (present.resolve_right nofun) fresh.1
      | take =>
          cases taken
          exact bounded.collected (present.resolve_right nofun) fresh.1
  case used =>
      intro seen fresh
      rw [renewed_concat, not_or, not_and] at fresh
      rw [seen_concat] at seen
      cases move with
      | take =>
          cases taken
          have present : .collect ∈ moves :=
            seen.elim Seen.collect_mem fun last => last.2
          exact bounded.collected present (fresh.2 rfl)
      | grow =>
          rw [taken.2.2]
          exact bounded.used (seen.resolve_right nofun) fresh.1
      | reset =>
          rw [taken.2]
          exact bounded.used (seen.resolve_right nofun) fresh.1
      | collect =>
          cases taken
          exact bounded.used (seen.resolve_right nofun) fresh.1

/-- Once a bound of the value has been collected and taken into use, it holds
of what is used until a reset has come through both stages. -/
theorem le_used (run : Run Step before moves after)
    (start : bound ≤ before.source) (seen : Seen moves)
    (fresh : ¬ Renewed moves) : bound ≤ after.used :=
  (run.history bounded_step (bounded_nil start)).used seen fresh

end WindowSystem.Library.StagedCopy
