import WindowSystem.Library.Substring

/-!
# Texts of tagged fields

A text that is written as a front followed by fields, each behind a tag, and
read back by searching for the tags.  Nothing is escaped, so a tag is found at
its own place exactly when it does not occur before it; the field between two
tags that are found at their places is read back exactly.
-/

namespace WindowSystem.Library.TaggedText

variable {α : Type*}

/-- A front and tagged fields, written one after the other. -/
def assemble (front : List α) (parts : List (List α × List α)) : List α :=
  front ++ parts.flatMap fun part => part.1 ++ part.2

@[simp]
theorem assemble_nil (front : List α) : assemble front [] = front := by
  simp [assemble]

theorem assemble_append (front : List α)
    (before after : List (List α × List α)) :
    assemble front (before ++ after) =
      assemble (assemble front before) after := by
  simp [assemble]

theorem assemble_cons (front tag field : List α)
    (after : List (List α × List α)) :
    assemble front ((tag, field) :: after) =
      assemble (front ++ tag ++ field) after := by
  simp [assemble]

/-- No tag occurs before its own place. -/
def Undisturbed (front : List α) : List (List α × List α) → Prop
  | [] => True
  | (tag, field) :: after =>
      ¬ tag <:+: front ++ tag.dropLast ∧
        Undisturbed (front ++ tag ++ field) after

instance decidableUndisturbed [DecidableEq α] :
    ∀ (front : List α) (parts : List (List α × List α)),
      Decidable (Undisturbed front parts)
  | _, [] => .isTrue trivial
  | front, (tag, field) :: after =>
      have := decidableUndisturbed (front ++ tag ++ field) after
      inferInstanceAs
        (Decidable
          (¬ tag <:+: front ++ tag.dropLast ∧
            Undisturbed (front ++ tag ++ field) after))

theorem Undisturbed.drop {front : List α}
    {before after : List (List α × List α)}
    (undisturbed : Undisturbed front (before ++ after)) :
    Undisturbed (assemble front before) after := by
  induction before generalizing front with
  | nil => simpa using undisturbed
  | cons part before induction =>
      obtain ⟨tag, field⟩ := part
      rw [assemble_cons]
      exact induction undisturbed.2

section Search

variable {front tag field next later : List α}
  {after : List (List α × List α)}

/-- The first tag is found at its place. -/
theorem firstOccurrence_tag [DecidableEq α] (nonempty : tag ≠ [])
    (undisturbed : Undisturbed front ((tag, field) :: after)) :
    Substring.firstOccurrence tag
        (assemble front ((tag, field) :: after)) =
      some front.length := by
  have written :
      assemble front ((tag, field) :: after) =
        front ++ tag ++ assemble field after := by
    simp [assemble]
  rw [written]
  exact
    (Substring.firstOccurrence_append_iff nonempty front _).mpr
      undisturbed.1

/-- The second tag is found at its place. -/
theorem firstOccurrence_next [DecidableEq α] (nonempty : next ≠ [])
    (undisturbed :
      Undisturbed front ((tag, field) :: (next, later) :: after)) :
    Substring.firstOccurrence next
        (assemble front ((tag, field) :: (next, later) :: after)) =
      some (front ++ tag ++ field).length := by
  rw [assemble_cons]
  exact firstOccurrence_tag nonempty undisturbed.2

/-- The field between the first two tags. -/
theorem slice_field :
    Substring.slice
        (assemble front ((tag, field) :: (next, later) :: after))
        (front.length + tag.length) (front ++ tag ++ field).length =
      field := by
  have written :
      assemble front ((tag, field) :: (next, later) :: after) =
        front ++ tag ++ field ++
          assemble (next ++ later) after := by
    simp [assemble]
  rw [written]
  exact Substring.slice_append front tag field _

end Search

/-- What stands before the first mark is determined by the text. -/
theorem append_mark_inj {front front' after after' : List α} {mark : α}
    (unmarked : mark ∉ front) (unmarked' : mark ∉ front')
    (same : front ++ mark :: after = front' ++ mark :: after') :
    front = front' ∧ after = after' := by
  rcases List.append_eq_append_iff.mp same with
    ⟨between, rfl, rest⟩ | ⟨between, rfl, rest⟩
  · cases between with
    | nil => exact ⟨by simp, (List.cons.inj rest).2⟩
    | cons head between =>
        obtain ⟨rfl, _⟩ := List.cons.inj rest
        simp at unmarked'
  · cases between with
    | nil => exact ⟨by simp, (List.cons.inj rest).2.symm⟩
    | cons head between =>
        obtain ⟨rfl, _⟩ := List.cons.inj rest
        simp at unmarked

/-- The last field of a text is determined by it when its tag closes with a
mark that no field contains. -/
theorem append_field_inj {front front' tag field field' : List α}
    {mark : α} (closes : [mark] <:+ tag) (unmarked : mark ∉ field)
    (unmarked' : mark ∉ field')
    (same : front ++ tag ++ field = front' ++ tag ++ field') :
    front = front' ∧ field = field' := by
  obtain ⟨opening, rfl⟩ := closes
  have mirrored := congrArg List.reverse same
  simp only [List.reverse_append, List.singleton_append,
    List.append_assoc, List.reverse_cons] at mirrored
  obtain ⟨fields, rest⟩ :=
    append_mark_inj (by simpa using unmarked) (by simpa using unmarked')
      mirrored
  exact ⟨List.reverse_injective (List.append_cancel_left rest),
    List.reverse_injective fields⟩

end WindowSystem.Library.TaggedText
