import Mathlib.Data.List.Induction

/-!
# Containers that are filled again

A container is cleared and filled with new elements one after the other, while
others look at it.  The theorems say when everything that can be seen meanwhile
is the old content or the complete new one, and when the last content is one of
the two.
-/

namespace WindowSystem.Library.Refill

variable {μ ε : Type*}

/-- How a container grows: never to the empty one, and a second element leaves
a container with one element as it is only if it is the same. -/
structure Growth (empty : μ) (grow : μ → ε → μ) : Prop where
  grows : ∀ container element, grow container element ≠ empty
  settled : ∀ first second,
    grow (grow empty first) second = grow empty first ↔
      grow empty second = grow empty first

/-- The content after some elements. -/
def filled (empty : μ) (grow : μ → ε → μ) (elements : List ε) : μ :=
  elements.foldl grow empty

/-- There is nothing to fill in, or there was nothing before and every element
that was filled in is all there is. -/
def Settled (empty : μ) (grow : μ → ε → μ) (old new : μ)
    (elements : List ε) : Prop :=
  new = empty ∨
    (old = empty ∧ ∀ element ∈ elements, grow empty element = new)

variable {empty old new : μ} {grow : μ → ε → μ} {elements rest : List ε}

theorem filled_concat (elements : List ε) (element : ε) :
    filled empty grow (elements ++ [element]) =
      grow (filled empty grow elements) element := by
  rw [filled, List.foldl_append]
  rfl

theorem filled_eq_empty_iff (growth : Growth empty grow) :
    filled empty grow elements = empty ↔ elements = [] := by
  constructor
  · intro equal
    cases elements using List.reverseRecOn with
    | nil => rfl
    | append_singleton front last =>
        rw [filled_concat] at equal
        exact absurd equal (growth.grows _ _)
  · rintro rfl
    rfl

/-- Elements that are each all there is give the complete content. -/
theorem filled_of_all (growth : Growth empty grow)
    (all : ∀ element ∈ elements, grow empty element = new)
    (some_element : elements ≠ []) : filled empty grow elements = new := by
  induction elements using List.reverseRecOn with
  | nil => exact absurd rfl some_element
  | append_singleton front last induction =>
      have complete : grow empty last = new := all last (by simp)
      rw [filled_concat]
      cases front with
      | nil => exact complete
      | cons first front =>
          have first_complete : grow empty first = new := all first (by simp)
          have before := induction
            (fun element member => all element (List.mem_append_left _ member))
            (List.cons_ne_nil _ _)
          rw [before, ← first_complete, growth.settled, complete,
            first_complete]

/-- If only the old and the new content are seen, every element is all there
is. -/
theorem all_of_seen (growth : Growth empty grow)
    (seen : ∀ front, front <+: elements →
      filled empty grow front = empty ∨ filled empty grow front = new) :
    ∀ element ∈ elements, grow empty element = new := by
  induction elements using List.reverseRecOn with
  | nil => exact List.forall_mem_nil _
  | append_singleton front last induction =>
      have before := induction fun part inside =>
        seen part (inside.trans (List.prefix_append front [last]))
      have complete := (seen _ (List.prefix_refl _)).resolve_left
        fun equal => by simp [filled_eq_empty_iff growth] at equal
      rw [filled_concat] at complete
      intro element member
      rcases List.mem_append.mp member with inside | same
      · exact before element inside
      · rw [List.mem_singleton.mp same]
        cases front with
        | nil => exact complete
        | cons first front =>
            have first_complete : grow empty first = new :=
              before first (by simp)
            rw [filled_of_all growth before (List.cons_ne_nil _ _),
              ← first_complete, growth.settled, first_complete] at complete
            exact complete

/-- What can be seen while a container is filled is its old or its complete
new content in settled cases only. -/
theorem seen_iff_settled (growth : Growth empty grow)
    (complete : new = filled empty grow (elements ++ rest)) :
    (∀ front, front <+: elements →
        filled empty grow front = old ∨ filled empty grow front = new) ↔
      Settled empty grow old new elements := by
  constructor
  · intro seen
    rcases seen [] List.nil_prefix with same | same
    · have nothing : old = empty := same.symm
      subst nothing
      exact .inr ⟨rfl, all_of_seen growth seen⟩
    · exact .inl same.symm
  · rintro (nothing | ⟨rfl, all⟩) front inside
    · have none : elements ++ rest = [] :=
        (filled_eq_empty_iff growth).mp (complete.symm.trans nothing)
      rw [(List.append_eq_nil_iff.mp none).1, List.prefix_nil] at inside
      rw [inside]
      exact .inr nothing.symm
    · by_cases no_element : front = []
      · rw [no_element]
        exact .inl rfl
      · refine .inr (filled_of_all growth ?_ no_element)
        exact fun element member => all element (inside.subset member)

/-- A prefix ends in the first list or in the second one. -/
theorem prefix_append_cases {α : Type*} {part first second : List α}
    (inside : part <+: first ++ second) :
    part <+: first ∨ ∃ rest, part = first ++ rest ∧ rest <+: second := by
  rcases List.prefix_or_prefix_of_prefix inside
    (List.prefix_append first second) with short | ⟨rest, rfl⟩
  · exact .inl short
  · exact .inr ⟨rest, rfl, (List.prefix_append_right_inj first).mp inside⟩

/-- Steps clear the container and then fill it; what can be seen between them
is the old or the new content in settled cases only. -/
theorem seen_steps_iff {σ : Type*} {clears front : List σ}
    {value : List σ → μ} {element : σ → Option ε}
    (growth : Growth empty grow)
    (complete : new =
      filled empty grow (front.filterMap element ++ rest))
    (cleared : ∀ part, part <+: clears →
      value part = old ∨ value part = empty)
    (refilled : ∀ part, part <+: front →
      value (clears ++ part) =
        filled empty grow (part.filterMap element)) :
    (∀ part, part <+: clears ++ front →
        value part = old ∨ value part = new) ↔
      Settled empty grow old new (front.filterMap element) := by
  rw [← seen_iff_settled growth complete]
  constructor
  · intro seen elements inside
    obtain ⟨part, shorter, rfl⟩ := List.prefix_filterMap_iff.mp inside
    rw [← refilled part shorter]
    exact seen (clears ++ part)
      ((List.prefix_append_right_inj clears).mpr shorter)
  · intro seen part inside
    rcases prefix_append_cases inside with clearing | ⟨rest, rfl, shorter⟩
    · rcases cleared part clearing with same | nothing
      · exact .inl same
      · rw [nothing]
        exact seen [] List.nil_prefix
    · rw [refilled rest shorter]
      exact seen _ (shorter.filterMap _)

/-- The last content is the new one if something was filled in, or if there is
nothing. -/
theorem filled_eq_new_iff (growth : Growth empty grow)
    (complete : new = filled empty grow (elements ++ rest))
    (settled : Settled empty grow old new elements) :
    filled empty grow elements = new ↔ new = empty ∨ elements ≠ [] := by
  by_cases no_element : elements = []
  · rw [no_element]
    simp [filled, eq_comm]
  · simp only [no_element, ne_eq, not_false_eq_true, or_true, iff_true]
    rcases settled with nothing | ⟨_, all⟩
    · have none : elements ++ rest = [] :=
        (filled_eq_empty_iff growth).mp (complete.symm.trans nothing)
      exact absurd (List.append_eq_nil_iff.mp none).1 no_element
    · exact filled_of_all growth all no_element

/-- The last content is the old one if there was nothing and nothing was
filled in. -/
theorem filled_eq_old_iff (growth : Growth empty grow)
    (complete : new = filled empty grow (elements ++ rest))
    (settled : Settled empty grow old new elements) :
    filled empty grow elements = old ↔ old = empty ∧ elements = [] := by
  rcases settled with nothing | ⟨rfl, all⟩
  · have none : elements ++ rest = [] :=
      (filled_eq_empty_iff growth).mp (complete.symm.trans nothing)
    rw [(List.append_eq_nil_iff.mp none).1]
    simp [filled, eq_comm]
  · rw [filled_eq_empty_iff growth, eq_self, true_and]

end WindowSystem.Library.Refill
