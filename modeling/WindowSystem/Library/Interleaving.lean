import Mathlib.Algebra.BigOperators.Group.List.Basic
import WindowSystem.Library.LabelledRun

/-!
# Interleaved tasks on a shared store

Any number of tasks work on one store.  A task is what it still has to do; one
action of a task reads and changes the store and leaves the rest of the task.
The rules below are about quantities that belong partly to the store and
partly to the tasks: what an action does to the sum of its own two parts it
does to the whole.
-/

namespace WindowSystem.Library.Interleaving

open WindowSystem.Library.LabelledRun

variable {σ τ ο : Type*}

/-- The store and the tasks. -/
structure State (σ τ : Type*) where
  store : σ
  tasks : List τ

/-- The next action of the task at an index, with its output. -/
def next (act : σ → τ → Option (ο × σ × τ)) (state : State σ τ)
    (index : Nat) : Option (ο × State σ τ) :=
  (state.tasks[index]?).bind fun task =>
    (act state.store task).map fun (output, store, rest) =>
      (output, ⟨store, state.tasks.set index rest⟩)

/-- A task of the list acts, the other ones stay as they are. -/
structure Action (act : σ → τ → Option (ο × σ × τ)) (before : State σ τ)
    (output : ο) (after : State σ τ) where
  front : List τ
  task : τ
  rest : τ
  back : List τ
  acted : act before.store task = some (output, after.store, rest)
  before_eq : before.tasks = front ++ task :: back
  after_eq : after.tasks = front ++ rest :: back

variable {act : σ → τ → Option (ο × σ × τ)} {before after : State σ τ}
  {output : ο} {index : Nat}

/-- Everything that a step can do; the task at the index acts. -/
theorem exists_action_at
    (taken : stepOf (next act) before (index, output) after) :
    ∃ action : Action act before output after,
      before.tasks[index]? = some action.task := by
  rw [stepOf, next] at taken
  obtain ⟨task, found, taken⟩ := Option.bind_eq_some_iff.mp taken
  obtain ⟨⟨_, store, rest⟩, acted, equal⟩ := Option.map_eq_some_iff.mp taken
  cases equal
  obtain ⟨inside, rfl⟩ := List.getElem?_eq_some_iff.mp found
  refine ⟨⟨before.tasks.take index, before.tasks[index], rest,
    before.tasks.drop (index + 1), acted, ?_, ?_⟩, found⟩
  · rw [List.getElem_cons_drop, List.take_append_drop]
  · exact List.set_eq_take_append_cons_drop.trans (if_pos inside)

theorem exists_action
    (taken : stepOf (next act) before (index, output) after) :
    Nonempty (Action act before output after) :=
  (exists_action_at taken).nonempty

/-! ## Quantities -/

section Quantities

variable {μ : Type*} [AddCommMonoid μ]

/-- A quantity of the store together with the shares of the tasks. -/
def total (value : σ → μ) (share : τ → μ) (state : State σ τ) : μ :=
  value state.store + (state.tasks.map share).sum

/-- What an action loses of the store and its own share is lost from the
total. -/
theorem Action.total_add (action : Action act before output after)
    {value : σ → μ} {share : τ → μ} {lost : μ}
    (balance : value after.store + share action.rest + lost =
      value before.store + share action.task) :
    total value share after + lost = total value share before := by
  have sum : ∀ task, ((action.front ++ task :: action.back).map share).sum =
      share task + ((action.front ++ action.back).map share).sum := by
    intro task
    simp only [List.map_append, List.map_cons, List.sum_append, List.sum_cons]
    exact add_left_comm _ _ _
  rw [total, total, action.before_eq, action.after_eq, sum, sum, ← add_assoc,
    ← add_assoc, add_right_comm, balance]

/-- Without shares left the total is what the store has. -/
theorem total_eq_value {value : σ → μ} {share : τ → μ} {state : State σ τ}
    (settled : ∀ task ∈ state.tasks, share task = 0) :
    total value share state = value state.store := by
  rw [total, List.sum_eq_zero, add_zero]
  intro amount member
  obtain ⟨task, inside, rfl⟩ := List.mem_map.mp member
  exact settled task inside

end Quantities

/-! ## Promises -/

/-- The store has it, or a task will see to it. -/
def Promised (has : σ → Prop) (will : τ → Prop) (state : State σ τ) : Prop :=
  has state.store ∨ ∃ task ∈ state.tasks, will task

/-- An action that keeps its own promise keeps all of them. -/
theorem Action.promised_iff (action : Action act before output after)
    {has : σ → Prop} {will : τ → Prop}
    (kept : has after.store ∨ will action.rest ↔
      has before.store ∨ will action.task) :
    Promised has will after ↔ Promised has will before := by
  have split : ∀ task,
      (∃ other ∈ action.front ++ task :: action.back, will other) ↔
        will task ∨ ∃ other ∈ action.front ++ action.back, will other := by
    intro task
    simp only [List.mem_append, List.mem_cons, or_and_right, exists_or,
      exists_eq_left]
    exact or_left_comm
  rw [Promised, Promised, action.before_eq, action.after_eq, split, split,
    ← or_assoc, ← or_assoc, kept]

/-- A task of the list has acted or was there before. -/
theorem Action.eq_or_mem (action : Action act before output after) {task : τ}
    (member : task ∈ after.tasks) :
    task = action.rest ∨ task ∈ before.tasks := by
  rw [action.after_eq] at member
  rw [action.before_eq]
  rcases List.mem_append.mp member with inFront | inside
  · exact .inr (List.mem_append_left _ inFront)
  · rcases List.mem_cons.mp inside with acted | inBack
    · exact .inl acted
    · exact .inr (List.mem_append_right _ (List.mem_cons_of_mem _ inBack))

/-- The task that acts is one of the list. -/
theorem Action.mem_tasks (action : Action act before output after) :
    action.task ∈ before.tasks := by
  rw [action.before_eq]
  exact List.mem_append_right _ List.mem_cons_self

/-- What holds of every task still does when it holds of the rest of the one
that acted. -/
theorem Action.forall_tasks (action : Action act before output after)
    {holds : τ → Prop} (all : ∀ task ∈ before.tasks, holds task)
    (rest : holds action.task → holds action.rest) :
    ∀ task ∈ after.tasks, holds task := by
  intro task member
  rcases action.eq_or_mem member with rfl | old
  · exact rest (all _ action.mem_tasks)
  · exact all task old

/-- What holds between any two tasks still does when it holds between the
others and the rest of the one that acted. -/
theorem Action.pairwise_tasks (action : Action act before output after)
    {related : τ → τ → Prop}
    (symmetric : ∀ {one other}, related one other → related other one)
    (all : before.tasks.Pairwise related)
    (rest : ∀ other ∈ before.tasks,
      related action.task other → related action.rest other) :
    after.tasks.Pairwise related := by
  rw [action.before_eq, List.pairwise_middle symmetric,
    List.pairwise_cons] at all
  rw [action.after_eq, List.pairwise_middle symmetric, List.pairwise_cons]
  refine ⟨fun other member => rest other ?_ (all.1 other member), all.2⟩
  rw [action.before_eq]
  rcases List.mem_append.mp member with inFront | inBack
  · exact List.mem_append_left _ inFront
  · exact List.mem_append_right _ (List.mem_cons_of_mem _ inBack)

end WindowSystem.Library.Interleaving
