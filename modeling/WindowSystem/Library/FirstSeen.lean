import Mathlib.Data.List.Nodup

/-!
# Reporting a key when it is seen for the first time

A recorder is given a sequence of keys and has to mark those that it has not
been given before.  A recorder that also marks some keys when they come back is
right for a sequence exactly when none of these keys comes twice.
-/

namespace WindowSystem.Library.FirstSeen

variable {κ : Type*} [DecidableEq κ]

/-- The marks of the keys that are neither among those seen before nor
earlier in the sequence. -/
def newAt (seen : List κ) : List κ → List Bool
  | [] => []
  | key :: keys => decide (key ∉ seen) :: newAt (key :: seen) keys

/-- The mark of a recorder that does not recognise some keys. -/
def mark (forgotten : κ → Bool) (seen : List κ) (key : κ) : Bool :=
  decide (key ∉ seen) || forgotten key

/-- The marks that the recorder gives to a sequence. -/
def marks (forgotten : κ → Bool) (seen : List κ) : List κ → List Bool
  | [] => []
  | key :: keys =>
      mark forgotten seen key :: marks forgotten (key :: seen) keys

variable {forgotten : κ → Bool} {seen keys : List κ}

@[simp]
theorem mark_iff {key : κ} :
    mark forgotten seen key = true ↔ key ∉ seen ∨ forgotten key = true := by
  rw [mark, Bool.or_eq_true, decide_eq_true_iff]

/-- The recorder marks the new keys exactly when no key that it does not
recognise comes again. -/
theorem marks_eq_newAt_iff :
    marks forgotten seen keys = newAt seen keys ↔
      (∀ key ∈ keys.filter forgotten, key ∉ seen) ∧
        (keys.filter forgotten).Nodup := by
  induction keys generalizing seen with
  | nil => simp [marks, newAt]
  | cons key keys induction =>
      rw [marks, newAt, List.cons.injEq, induction, Bool.eq_iff_iff,
        mark_iff, decide_eq_true_iff]
      by_cases recognised : forgotten key = true
      case neg =>
        have passed : (key :: keys).filter forgotten =
            keys.filter forgotten :=
          List.filter_cons_of_neg recognised
        rw [passed]
        constructor
        · rintro ⟨_, fresh, distinct⟩
          refine ⟨?_, distinct⟩
          intro other member known
          exact fresh other member (List.mem_cons_of_mem _ known)
        · rintro ⟨fresh, distinct⟩
          refine ⟨by simp [recognised], ?_, distinct⟩
          intro other member
          rw [List.mem_cons, not_or]
          refine ⟨?_, fresh other member⟩
          rintro rfl
          exact recognised (List.mem_filter.mp member).2
      case pos =>
        rw [List.filter_cons_of_pos recognised, List.nodup_cons,
          List.forall_mem_cons]
        constructor
        · rintro ⟨head, fresh, distinct⟩
          have unseen : key ∉ seen := by simpa [recognised] using head
          refine ⟨⟨unseen, ?_⟩, ?_, distinct⟩
          · intro other member known
            exact fresh other member (List.mem_cons_of_mem _ known)
          · intro member
            exact fresh key member List.mem_cons_self
        · rintro ⟨⟨unseen, fresh⟩, once, distinct⟩
          refine ⟨by simp [recognised, unseen], ?_, distinct⟩
          intro other member
          rw [List.mem_cons, not_or]
          refine ⟨?_, fresh other member⟩
          rintro rfl
          exact once member

end WindowSystem.Library.FirstSeen
