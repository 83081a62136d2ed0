import Mathlib.Algebra.BigOperators.Group.List.Basic
import Mathlib.Algebra.GroupWithZero.Nat
import Mathlib.Data.List.Infix
import Mathlib.Logic.Function.Basic

/-!
# Counts that are booked in batches

Events are counted in memory and booked later, all at once, under the key of
the event at which they are booked.  The events of every key are accounted for
at all times exactly when nothing is pending where the key changes.
-/

namespace WindowSystem.Library.BatchedCount

variable {κ ι ε : Type*} [DecidableEq κ]

/-- The amounts in memory and the booked ones. -/
structure Counts (κ ι : Type*) where
  pending : ι → Nat
  booked : κ → ι → Nat

/-- What an event is counted as, and when the pending amounts are booked. -/
structure Batching (κ ι ε : Type*) where
  key : ε → κ
  amount : ε → ι → Nat
  due : (ι → Nat) → ε → Bool

namespace Batching

variable (rules : Batching κ ι ε)

/-- One event: it is counted, and then everything is booked under its key if
that is due. -/
def step (counts : Counts κ ι) (event : ε) : Counts κ ι :=
  let pending := fun index => counts.pending index + rules.amount event index
  if rules.due pending event then
    { pending := fun _ => 0
      booked :=
        Function.update counts.booked (rules.key event) fun index =>
          counts.booked (rules.key event) index + pending index }
  else { counts with pending := pending }

/-- The counts after some events. -/
def run (events : List ε) : Counts κ ι :=
  events.foldl rules.step ⟨fun _ => 0, fun _ _ => 0⟩

/-- The amount of the events of a key. -/
def counted (events : List ε) (key : κ) (index : ι) : Nat :=
  ((events.filter fun event => rules.key event = key).map
    fun event => rules.amount event index).sum

/-- The key of the last event. -/
def lastKey (events : List ε) : Option κ :=
  events.getLast?.map rules.key

/-- What is booked under a key, with the pending amount if the key is the
last one. -/
def accounted (events : List ε) (key : κ) (index : ι) : Nat :=
  (rules.run events).booked key index +
    if rules.lastKey events = some key then (rules.run events).pending index
    else 0

/-- The events of every key are accounted for. -/
def Conserved (events : List ε) : Prop :=
  ∀ key index, rules.accounted events key index =
    rules.counted events key index

variable {rules} {events : List ε} {event : ε}

theorem run_append :
    rules.run (events ++ [event]) = rules.step (rules.run events) event := by
  rw [run, List.foldl_append]
  rfl

omit [DecidableEq κ] in
theorem lastKey_append :
    rules.lastKey (events ++ [event]) = some (rules.key event) := by
  simp [lastKey]

theorem conserved_nil : rules.Conserved [] := by
  intro key index
  rfl

theorem counted_append (key : κ) (index : ι) :
    rules.counted (events ++ [event]) key index =
      rules.counted events key index +
        if rules.key event = key then rules.amount event index else 0 := by
  rw [counted, counted, List.filter_append, List.map_append, List.sum_append]
  by_cases same : rules.key event = key
  · simp [same]
  · simp [same]

/-- An event books or keeps what was pending for its own key. -/
theorem accounted_append (key : κ) (index : ι) :
    rules.accounted (events ++ [event]) key index =
      (rules.run events).booked key index +
        if rules.key event = key then
          (rules.run events).pending index + rules.amount event index
        else 0 := by
  rw [accounted, lastKey_append, run_append, step]
  simp only [Option.some_inj]
  by_cases same : rules.key event = key
  · subst same
    simp only [if_true]
    split_ifs
    · simp only [Function.update_self]
      exact Nat.add_zero _
    · rfl
  · simp only [if_neg same]
    split_ifs
    · simp only [Function.update_of_ne (Ne.symm same)]
    · rfl

/-- After one more event everything is still accounted for exactly when it
has the key of the event before or finds nothing pending. -/
theorem conserved_append_iff (conserved : rules.Conserved events) :
    rules.Conserved (events ++ [event]) ↔
      rules.lastKey events = some (rules.key event) ∨
        ∀ index, (rules.run events).pending index = 0 := by
  constructor
  · intro after
    by_cases same : rules.lastKey events = some (rules.key event)
    · exact .inl same
    · refine .inr ?_
      intro index
      have before := conserved (rules.key event) index
      have now := after (rules.key event) index
      rw [accounted, if_neg same] at before
      rw [accounted_append, counted_append, if_pos rfl, if_pos rfl] at now
      omega
  · intro allowed key index
    have before := conserved key index
    rw [accounted] at before
    rw [accounted_append, counted_append, ← before]
    rcases allowed with same | nothing
    · simp only [same, Option.some_inj]
      by_cases equal : rules.key event = key
      · simp only [if_pos equal]
        omega
      · simp only [if_neg equal]
    · rw [nothing index]
      split_ifs <;> omega

/-- Every event has the key of the one before it or finds nothing pending. -/
def KeyChangesEmpty (rules : Batching κ ι ε) (events : List ε) : Prop :=
  ∀ front event, front ++ [event] <+: events →
    rules.lastKey front = some (rules.key event) ∨
      ∀ index, (rules.run front).pending index = 0

/-- The events are accounted for at all times exactly when nothing is pending
where the key changes. -/
theorem conserved_prefixes_iff :
    (∀ front, front <+: events → rules.Conserved front) ↔
      rules.KeyChangesEmpty events := by
  constructor
  · intro conserved front event inside
    have before : front <+: events :=
      (List.prefix_append front [event]).trans inside
    exact (conserved_append_iff (conserved front before)).mp
      (conserved _ inside)
  · intro allowed front
    induction front using List.reverseRecOn with
    | nil => exact fun _ => conserved_nil
    | append_singleton front event induction =>
        intro inside
        have before : front <+: events :=
          (List.prefix_append front [event]).trans inside
        exact (conserved_append_iff (induction before)).mpr
          (allowed front event inside)

end Batching

end WindowSystem.Library.BatchedCount
