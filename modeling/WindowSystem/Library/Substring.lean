import Mathlib.Data.List.Basic
import Mathlib.Data.List.Infix
import Mathlib.Data.Nat.Find

/-!
# First occurrences of a pattern in a text

The search that C calls `strstr`, over an arbitrary alphabet.  A text in which
a pattern was written at a known place is searched exactly when the pattern
does not already occur before that place; an occurrence that overlaps the
written one by a proper prefix counts as earlier.
-/

namespace WindowSystem.Library.Substring

variable {α : Type*}

/-- `pattern` can be read in `text` from offset `offset` on. -/
def OccursAt (pattern text : List α) (offset : Nat) : Prop :=
  pattern <+: text.drop offset

/-- Offset of the first place of `text` at which `pattern` can be read. -/
def firstOccurrence [DecidableEq α] (pattern : List α) : List α → Option Nat
  | [] => if pattern.isPrefixOf [] then some 0 else none
  | head :: tail =>
      if pattern.isPrefixOf (head :: tail) then some 0
      else (firstOccurrence pattern tail).map Nat.succ

/-- The search returns the least offset at which the pattern occurs. -/
theorem firstOccurrence_eq_some_iff [DecidableEq α]
    (pattern text : List α) (offset : Nat) :
    firstOccurrence pattern text = some offset ↔
      OccursAt pattern text offset ∧
        ∀ earlier < offset, ¬ OccursAt pattern text earlier := by
  induction text generalizing offset with
  | nil =>
      by_cases empty : pattern = []
      · subst empty
        simp only [firstOccurrence, List.isPrefixOf_nil_left, if_true,
          Option.some.injEq, OccursAt, List.nil_prefix, true_and]
        constructor
        · rintro rfl earlier impossible
          exact absurd impossible (Nat.not_lt_zero earlier)
        · intro minimal
          by_contra positive
          exact minimal 0 (Nat.pos_of_ne_zero (Ne.symm positive)) trivial
      · simp [firstOccurrence, OccursAt, List.isPrefixOf_iff_prefix, empty]
  | cons head tail induction =>
      by_cases here : pattern <+: head :: tail
      · simp only [firstOccurrence, List.isPrefixOf_iff_prefix, here, if_true,
          Option.some.injEq]
        constructor
        · rintro rfl
          exact ⟨here, fun earlier impossible =>
            absurd impossible (Nat.not_lt_zero earlier)⟩
        · rintro ⟨_, minimal⟩
          by_contra positive
          exact minimal 0 (Nat.pos_of_ne_zero (Ne.symm positive)) here
      · simp only [firstOccurrence, List.isPrefixOf_iff_prefix, here, if_false,
          Option.map_eq_some_iff]
        constructor
        · rintro ⟨previous, found, rfl⟩
          obtain ⟨occurs, minimal⟩ := (induction previous).mp found
          refine ⟨occurs, ?_⟩
          intro earlier smaller
          cases earlier with
          | zero => exact here
          | succ earlier =>
              exact minimal earlier (Nat.lt_of_succ_lt_succ smaller)
        · rintro ⟨occurs, minimal⟩
          cases offset with
          | zero => exact absurd occurs here
          | succ previous =>
              refine ⟨previous, (induction previous).mpr ⟨occurs, ?_⟩, rfl⟩
              intro earlier smaller
              exact minimal (earlier + 1) (Nat.succ_lt_succ smaller)

theorem infix_iff_exists_occursAt (pattern text : List α) :
    pattern <:+: text ↔ ∃ offset, OccursAt pattern text offset := by
  constructor
  · rintro ⟨before, after, rfl⟩
    exact ⟨before.length, by simp [OccursAt]⟩
  · rintro ⟨offset, occurs⟩
    exact occurs.isInfix.trans (List.drop_suffix offset text).isInfix

/-- The search fails exactly on the texts that do not contain the pattern. -/
theorem firstOccurrence_eq_none_iff [DecidableEq α]
    (pattern text : List α) :
    firstOccurrence pattern text = none ↔ ¬ pattern <:+: text := by
  rw [infix_iff_exists_occursAt]
  constructor
  · rintro absent ⟨offset, occurs⟩
    classical
    have exists_occurs : ∃ place, OccursAt pattern text place :=
      ⟨offset, occurs⟩
    have found :
        firstOccurrence pattern text = some (Nat.find exists_occurs) :=
      (firstOccurrence_eq_some_iff pattern text _).mpr
        ⟨Nat.find_spec exists_occurs,
          fun earlier smaller => Nat.find_min exists_occurs smaller⟩
    rw [absent] at found
    cases found
  · intro nowhere
    cases found : firstOccurrence pattern text with
    | none => rfl
    | some offset =>
        exact absurd
          ⟨offset, ((firstOccurrence_eq_some_iff pattern text offset).mp
            found).1⟩ nowhere

/-- An occurrence that starts before a written one ends inside the text
before it extended by all but the last letter of the written one. -/
theorem infix_of_occursAt_lt
    {pattern before after : List α} {offset : Nat}
    (earlier : offset < before.length)
    (occurs : OccursAt pattern (before ++ pattern ++ after) offset) :
    pattern <:+: before ++ pattern.dropLast := by
  have fits :
      offset + pattern.length ≤ (before ++ pattern.dropLast).length := by
    rw [List.length_append, List.length_dropLast]
    omega
  have split :
      before ++ pattern ++ after =
        (before ++ pattern.dropLast) ++
          (pattern.drop (pattern.length - 1) ++ after) := by
    rw [List.dropLast_eq_take, List.append_assoc, List.append_assoc,
      ← List.append_assoc (List.take _ pattern), List.take_append_drop]
  rw [OccursAt, split, List.drop_append_of_le_length (by omega)] at occurs
  have short :
      pattern <+: (before ++ pattern.dropLast).drop offset :=
    List.prefix_of_prefix_length_le occurs (List.prefix_append _ _)
      (by rw [List.length_drop]; omega)
  exact short.isInfix.trans (List.drop_suffix _ _).isInfix

/-- A written pattern is found at its own place exactly when it does not occur
in the text before it. -/
theorem firstOccurrence_append_iff [DecidableEq α]
    {pattern : List α} (nonempty : pattern ≠ [])
    (before after : List α) :
    firstOccurrence pattern (before ++ pattern ++ after) =
        some before.length ↔
      ¬ pattern <:+: before ++ pattern.dropLast := by
  rw [firstOccurrence_eq_some_iff]
  constructor
  · rintro ⟨_, minimal⟩ early
    obtain ⟨offset, occurs⟩ := (infix_iff_exists_occursAt _ _).mp early
    have positive : 0 < pattern.length := List.length_pos_iff.mpr nonempty
    have bound := occurs.length_le
    rw [List.length_drop, List.length_append, List.length_dropLast] at bound
    refine minimal offset (by omega) ?_
    have extends_text :
        before ++ pattern.dropLast <+: before ++ pattern ++ after := by
      rw [List.append_assoc, List.prefix_append_right_inj]
      exact (List.dropLast_prefix pattern).trans (List.prefix_append _ _)
    exact occurs.trans (extends_text.drop offset)
  · intro fresh
    exact ⟨by simp [OccursAt], fun offset smaller occurs =>
      fresh (infix_of_occursAt_lt smaller occurs)⟩

/-- A pattern with a letter that the text lacks does not occur in it. -/
theorem not_infix_of_not_mem
    {pattern text : List α} {letter : α}
    (member : letter ∈ pattern) (absent : letter ∉ text) :
    ¬ pattern <:+: text :=
  fun occurs => absent (occurs.subset member)

/-- A text runs to its end or to the first letter without a property. -/
theorem span_cases (property : α → Bool) (text : List α) :
    text.dropWhile property = [] ∨
      ∃ letter rest, text.dropWhile property = letter :: rest ∧
        property letter = false := by
  cases ending : text.dropWhile property with
  | nil => exact Or.inl rfl
  | cons letter rest =>
      have stopped := List.head?_dropWhile_not property text
      rw [ending] at stopped
      exact Or.inr ⟨letter, rest, rfl, by simpa using stopped⟩

/-- The letters of a text from one offset up to another. -/
def slice (text : List α) (start stop : Nat) : List α :=
  (text.drop start).take (stop - start)

theorem length_slice_le (text : List α) (start stop : Nat) :
    (slice text start stop).length ≤ stop - start := by
  rw [slice, List.length_take]
  omega

/-- The text written after a mark, up to the end of what is written. -/
theorem slice_append (before mark field after : List α) :
    slice (before ++ mark ++ field ++ after)
        (before.length + mark.length)
        (before ++ mark ++ field).length =
      field := by
  have skipped :
      (before ++ mark ++ field ++ after).drop
          (before.length + mark.length) = field ++ after := by
    rw [List.append_assoc (before ++ mark), ← List.length_append,
      List.drop_left]
  have width :
      (before ++ mark ++ field).length -
          (before.length + mark.length) = field.length := by
    simp only [List.length_append]
    omega
  rw [slice, skipped, width, List.take_left]

theorem slice_append_slice (text : List α) {start middle stop : Nat}
    (first : start ≤ middle) (second : middle ≤ stop) :
    slice text start middle ++ slice text middle stop =
      slice text start stop := by
  have width : stop - start = (middle - start) + (stop - middle) := by
    omega
  have skipped : middle = start + (middle - start) := by omega
  rw [slice, slice, slice, width, List.take_add, List.drop_drop, ← skipped]

section Occurrence

variable {pattern text : List α} {place : Nat}

theorem OccursAt.slice (occurs : OccursAt pattern text place) :
    slice text place (place + pattern.length) = pattern := by
  rw [Substring.slice, Nat.add_sub_cancel_left]
  exact (List.prefix_iff_eq_take.mp occurs).symm

/-- The letters of an occurrence are letters of the text. -/
theorem OccursAt.getElem? (occurs : OccursAt pattern text place)
    {index : Nat} (inside : index < pattern.length) :
    text[place + index]? = pattern[index]? := by
  obtain ⟨after, written⟩ := occurs
  rw [← List.getElem?_drop, ← written, List.getElem?_append_left inside]

/-- A pattern at the end of a front of the text does not occur later than
there. -/
theorem firstOccurrence_le_of_suffix_take [DecidableEq α] {stop : Nat}
    (found : firstOccurrence pattern text = some place)
    (closes : pattern <:+ text.take stop) :
    place + pattern.length ≤ stop := by
  obtain ⟨before, written⟩ := closes
  have bound := congrArg List.length written
  rw [List.length_append, List.length_take] at bound
  have occurs : OccursAt pattern text before.length := by
    have whole := List.take_append_drop stop text
    rw [← written] at whole
    rw [OccursAt, ← whole, List.append_assoc, List.drop_left]
    exact List.prefix_append _ _
  have least := ((firstOccurrence_eq_some_iff _ _ _).mp found).2
  have notLater : place ≤ before.length :=
    Nat.le_of_not_lt fun earlier => least _ earlier occurs
  omega

end Occurrence

end WindowSystem.Library.Substring
