import Mathlib.Algebra.GroupWithZero.Nat
import Mathlib.Algebra.Order.Group.Nat
import Mathlib.Data.List.Basic

/-!
# Readers of written lists

A reader takes a value from the front of a text and returns the rest.  A list
is written by joining the texts of its elements with a separator; it is read
back element by element.  When no value is longer as a text than what a reader
takes for it, then a list that is read back whole has been read back element
by element: no element can borrow from its neighbours.
-/

namespace WindowSystem.Library.SeparatedText

variable {α β : Type*}

/-- Reads a value from the front of a text. -/
abbrev Reader (α β : Type*) :=
  List α → Option (β × List α)

/-- Take an expected text from the front. -/
def expect [DecidableEq α] (expected source : List α) : Option (List α) :=
  if expected.isPrefixOf source then some (source.drop expected.length)
  else none

theorem expect_eq_some_iff [DecidableEq α] {expected source rest : List α} :
    expect expected source = some rest ↔ source = expected ++ rest := by
  rw [expect]
  split_ifs with starts
  · obtain ⟨behind, rfl⟩ := List.isPrefixOf_iff_prefix.mp starts
    simp
  · simp only [false_iff]
    rintro rfl
    exact starts (List.isPrefixOf_iff_prefix.mpr (List.prefix_append _ _))

/-- Elements with a separator between them. -/
def separated [DecidableEq α] (read : Reader α β) (separator : α) :
    Nat → Reader α (List β)
  | 0, _ => none
  | fuel + 1, source =>
      (read source).bind fun (first, rest) =>
        match expect [separator] rest with
        | some more =>
            (separated read separator fuel more).map fun (others, last) =>
              (first :: others, last)
        | none => some ([first], rest)

/-- A list of texts with a separator between them. -/
def joined (separator : α) : List (List α) → List α
  | [] => []
  | [text] => text
  | text :: texts => text ++ separator :: joined separator texts

/-- A reader that takes at least as much as the value needs. -/
def Economical (read : Reader α β) (size : β → Nat) : Prop :=
  ∀ {source value rest}, read source = some (value, rest) →
    ∃ taken, source = taken ++ rest ∧ size value ≤ taken.length

/-- What a list needs, with one more separator than it has. -/
def total (size : β → Nat) (values : List β) : Nat :=
  (values.map fun value => size value + 1).sum

theorem Economical.separated [DecidableEq α] {read : Reader α β}
    {separator : α} {size : β → Nat} (economical : Economical read size)
    {fuel : Nat} {source last : List α} {values : List β}
    (reads : separated read separator fuel source = some (values, last)) :
    ∃ taken, source = taken ++ last ∧ total size values ≤ taken.length + 1 := by
  induction fuel generalizing source values with
  | zero => cases reads
  | succ fuel induction =>
      rw [SeparatedText.separated, Option.bind_eq_some_iff] at reads
      obtain ⟨⟨first, rest⟩, one, reads⟩ := reads
      obtain ⟨taken, rfl, fits⟩ := economical one
      cases after : expect [separator] rest with
      | none =>
          simp only [after, Option.some.injEq, Prod.mk.injEq] at reads
          obtain ⟨rfl, rfl⟩ := reads
          exact ⟨taken, rfl, by simpa [total] using fits⟩
      | some more =>
          simp only [after, Option.map_eq_some_iff, Prod.exists,
            Prod.mk.injEq] at reads
          obtain ⟨others, last, reads, rfl, rfl⟩ := reads
          obtain ⟨behind, rfl, enough⟩ := induction reads
          rw [expect_eq_some_iff.mp after]
          refine ⟨taken ++ separator :: behind, by simp, ?_⟩
          simp only [total, List.map_cons, List.sum_cons, List.length_append,
            List.length_cons] at enough ⊢
          omega

end WindowSystem.Library.SeparatedText
