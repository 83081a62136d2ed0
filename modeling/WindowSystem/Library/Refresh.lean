import Mathlib.Data.List.Nodup
import Mathlib.Data.Set.Basic
import WindowSystem.Library.LabelledRun

/-!
# Copies that are refreshed

A copy is made of a source that goes on changing.  From time to time the
source is compared with what was recorded of it, and the copy is made again
when the comparison reports a change.  The copy agrees with the source of the
last comparison as long as no comparison misses a change and the source waits
for the copy.
-/

namespace WindowSystem.Library.Refresh

open WindowSystem.Library.LabelledRun

/-! ## Snapshots with coarse stamps -/

section Snapshots

variable {κ τ γ : Type*} (coarse : τ → γ)

/-- What a comparison sees that counts entries and looks at the coarse stamps
of common keys; so many more entries were counted before. -/
def Seen (earlier : Nat) (recorded later : List (κ × τ)) : Prop :=
  later.length ≠ earlier + recorded.length ∨
    ∃ key old new, (key, old) ∈ recorded ∧ (key, new) ∈ later ∧
      coarse old ≠ coarse new

/-- The set of the entries of a snapshot. -/
def entries (snapshot : List (κ × τ)) : Set (κ × τ) :=
  {entry | entry ∈ snapshot}

variable {coarse} {earlier : Nat} {recorded later : List (κ × τ)}

theorem length_eq_of_entries_eq (once : (recorded.map Prod.fst).Nodup)
    (other : (later.map Prod.fst).Nodup)
    (same : entries recorded = entries later) :
    recorded.length = later.length := by
  have perm : recorded.Perm later :=
    (List.perm_ext_iff_of_nodup once.of_map other.of_map).mpr
      fun entry => Set.ext_iff.mp same entry
  exact perm.length_eq

/-- Without a difference only the earlier entries are seen. -/
theorem seen_iff_of_entries_eq (once : (recorded.map Prod.fst).Nodup)
    (other : (later.map Prod.fst).Nodup)
    (same : entries recorded = entries later) :
    Seen coarse earlier recorded later ↔ earlier ≠ 0 := by
  have length := length_eq_of_entries_eq once other same
  have untouched : ¬ ∃ key old new, (key, old) ∈ recorded ∧
      (key, new) ∈ later ∧ coarse old ≠ coarse new := by
    rintro ⟨key, old, new, first, second, differ⟩
    have again : (key, old) ∈ later := (Set.ext_iff.mp same _).mp first
    have equal := List.inj_on_of_nodup_map other again second rfl
    exact differ (congrArg (coarse ∘ Prod.snd) equal)
  rw [Seen, or_iff_left untouched]
  omega

/-- When seeing a change and being one are the same. -/
theorem seen_iff_differ_iff (once : (recorded.map Prod.fst).Nodup)
    (other : (later.map Prod.fst).Nodup) :
    (Seen coarse earlier recorded later ↔
        entries recorded ≠ entries later) ↔
      (entries recorded = entries later → earlier = 0) ∧
        (entries recorded ≠ entries later →
          Seen coarse earlier recorded later) := by
  by_cases same : entries recorded = entries later
  · simp [seen_iff_of_entries_eq once other same, same]
  · simp [same]

end Snapshots

/-! ## The copy -/

/-- The source as it is, as it was copied, and as it was compared last; a
change that was reported waits for the next copy. -/
structure Copy (σ : Type*) where
  current : σ
  recorded : σ
  compared : σ
  pending : Bool

inductive Event (σ : Type*) where
  | change (next : σ)
  | compare
  | reload

section Copies

variable {σ ν : Type*} (detects : σ → σ → Prop) (view : σ → ν)

/-- The copy after an event. -/
inductive Step : Copy σ → Event σ → Copy σ → Prop where
  | change (copy : Copy σ) (next : σ) :
      Step copy (.change next) { copy with current := next }
  | compare (copy : Copy σ) (answer : Bool) (idle : copy.pending = false)
      (answers : answer = true ↔ detects copy.recorded copy.current) :
      Step copy .compare
        { copy with compared := copy.current, pending := answer }
  | reload (copy : Copy σ) (waiting : copy.pending = true) :
      Step copy .reload
        { copy with recorded := copy.current, pending := false }

/-- The source waits for the copy, and no comparison misses a change. -/
def Allowed (copy : Copy σ) : Event σ → Prop
  | .change _ => copy.pending = false
  | .compare => view copy.recorded ≠ view copy.current →
      detects copy.recorded copy.current
  | .reload => True

/-- What is carried along a run: the copy is the one of the last comparison,
or it will be. -/
structure Fresh (copy : Copy σ) : Prop where
  idle : copy.pending = false → view copy.recorded = view copy.compared
  waiting : copy.pending = true → copy.current = copy.compared

variable {detects view}

theorem Fresh.step {before after : Copy σ} {event : Event σ}
    (fresh : Fresh view before) (allowed : Allowed detects view before event)
    (step : Step detects before event after) : Fresh view after := by
  cases step with
  | change next =>
      refine ⟨fresh.idle, fun waiting => ?_⟩
      rw [Allowed] at allowed
      simp [allowed] at waiting
  | compare answer idle answers =>
      refine ⟨fun quiet => ?_, fun _ => rfl⟩
      by_contra differ
      have missed := answers.mpr (allowed differ)
      rw [show answer = false from quiet] at missed
      cases missed
  | reload waiting =>
      exact ⟨fun _ => congrArg view (fresh.waiting waiting),
        fun waits => Bool.noConfusion waits⟩

/-- The copy agrees with the source of the last comparison. -/
theorem view_recorded_eq {start last : Copy σ} {events : List (Event σ)}
    (run : Run (fun before event after =>
      Allowed detects view before event ∧ Step detects before event after)
        start events last)
    (fresh : Fresh view start) (idle : last.pending = false) :
    view last.recorded = view last.compared :=
  (run.invariant (fun fresh ⟨allowed, step⟩ => fresh.step allowed step)
    fresh).idle idle

end Copies

end WindowSystem.Library.Refresh
