import Mathlib.Order.Basic
import WindowSystem.Library.LabelledRun

/-!
# Amounts that only shrink

A system may lose what it should keep at some of its steps.  When no step lets
an amount grow, what was lost once is not made up for later: the amount at the
end of a run is the one at its start exactly if no step of the run has lost
anything.
-/

namespace WindowSystem.Library.KeptAmount

open WindowSystem.Library.LabelledRun

variable {σ ℓ ι β : Type*} [PartialOrder β] {step : σ → ℓ → σ → Prop}
  {amount : ι → σ → β} {holds : σ → Prop} {harmless : σ → ℓ → Prop}
  {first last : σ} {labels : List ℓ}

/-- No step from a good state lets an amount grow. -/
structure Shrinks (step : σ → ℓ → σ → Prop) (amount : ι → σ → β)
    (holds : σ → Prop) : Prop where
  preserved : ∀ {before label after},
    holds before → step before label after → holds after
  le : ∀ {before label after},
    holds before → step before label after →
      ∀ index, amount index after ≤ amount index before

theorem Shrinks.run_le (shrinks : Shrinks step amount holds)
    (run : Run step first labels last) (initial : holds first) (index : ι) :
    amount index last ≤ amount index first := by
  induction run with
  | nil => exact le_rfl
  | cons head _ induction =>
      apply (induction (shrinks.preserved initial head)).trans
      exact shrinks.le initial head index

/-- Steps that keep the amounts keep them over a run. -/
theorem Shrinks.run_eq (shrinks : Shrinks step amount holds)
    (exact : ∀ {before label after},
      holds before → step before label after → harmless before label →
        ∀ index, amount index after = amount index before)
    (run : Run (fun before label after =>
      harmless before label ∧ step before label after) first labels last)
    (initial : holds first) (index : ι) :
    amount index last = amount index first := by
  induction run with
  | nil => rfl
  | cons head _ induction =>
      rw [induction (shrinks.preserved initial head.2)]
      exact exact initial head.2 head.1 index

/-- The amounts at the end are those at the start exactly if every step is
one of those that keep them. -/
theorem Shrinks.run_eq_iff (shrinks : Shrinks step amount holds)
    (exact : ∀ {before label after},
      holds before → step before label after →
        ((∀ index, amount index after = amount index before) ↔
          harmless before label))
    (run : Run step first labels last) (initial : holds first) :
    (∀ index, amount index last = amount index first) ↔
      Run (fun before label after =>
        harmless before label ∧ step before label after)
        first labels last := by
  constructor
  · intro kept
    induction run with
    | nil state => exact .nil state
    | @cons first middle last label labels head tail induction =>
        have still := shrinks.preserved initial head
        have now : ∀ index, amount index middle = amount index first := by
          intro index
          apply (shrinks.le initial head index).antisymm
          rw [← kept index]
          exact shrinks.run_le tail still index
        refine .cons ⟨(exact initial head).mp now, head⟩ ?_
        apply induction still
        intro index
        rw [kept index, now index]
  · intro safe
    apply shrinks.run_eq _ safe initial
    intro before label after inside taken harmless
    exact (exact inside taken).mpr harmless

end WindowSystem.Library.KeptAmount
