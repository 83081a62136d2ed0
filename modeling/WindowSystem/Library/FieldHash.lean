import Mathlib.Data.List.Basic

/-!
# Hashes of fields

A hash holds at most one value for every field; setting a field replaces its
value.  A hash without fields does not exist.  Values that are set one after
the other are all there in the end exactly if no two different values were set
for one field.
-/

namespace WindowSystem.Library.FieldHash

variable {κ ν : Type*} [DecidableEq κ]

/-- The fields of a hash with their values. -/
abbrev Hash (κ ν : Type*) := List (κ × ν)

/-- The value of a field. -/
def hget (hash : Hash κ ν) (field : κ) : Option ν :=
  (hash.find? fun entry => entry.1 = field).map Prod.snd

/-- Set a field. -/
def hset (hash : Hash κ ν) (field : κ) (value : ν) : Hash κ ν :=
  hash.filter (fun entry => entry.1 ≠ field) ++ [(field, value)]

/-- Set several fields one after the other. -/
def hsets (hash : Hash κ ν) (entries : List (κ × ν)) : Hash κ ν :=
  entries.foldl (fun hash entry => hset hash entry.1 entry.2) hash

variable {hash : Hash κ ν} {field : κ} {value : ν}

theorem mem_hset_iff {entry : κ × ν} :
    entry ∈ hset hash field value ↔
      (entry ∈ hash ∧ entry.1 ≠ field) ∨ entry = (field, value) := by
  simp [hset]

theorem hset_ne_nil : hset hash field value ≠ [] := by
  simp [hset]

theorem mem_of_hget (found : hget hash field = some value) :
    (field, value) ∈ hash := by
  obtain ⟨entry, first, rfl⟩ := Option.map_eq_some_iff.mp found
  have named : entry.1 = field := by
    simpa using List.find?_some first
  rw [← named]
  exact List.mem_of_find?_eq_some first

/-- A field is there exactly if the hash has an entry for it. -/
theorem hget_eq_none_iff :
    hget hash field = none ↔ ∀ entry ∈ hash, entry.1 ≠ field := by
  simp [hget]

theorem hsets_cons (entry : κ × ν) (entries : List (κ × ν)) :
    hsets hash (entry :: entries) =
      hsets (hset hash entry.1 entry.2) entries :=
  rfl

/-- What is set in the end was set at some time or there before. -/
theorem mem_of_mem_hsets {entries : List (κ × ν)} {entry : κ × ν}
    (member : entry ∈ hsets hash entries) :
    entry ∈ hash ∨ entry ∈ entries := by
  induction entries generalizing hash with
  | nil => exact .inl member
  | cons first rest induction =>
      rw [hsets_cons] at member
      rcases induction member with before | after
      · rcases mem_hset_iff.mp before with ⟨old, _⟩ | new
        · exact .inl old
        · exact .inr (new ▸ List.mem_cons_self)
      · exact .inr (List.mem_cons_of_mem _ after)

/-- Values that are set for different fields do not replace one another. -/
theorem mem_hsets_of_keyed {entries : List (κ × ν)} {entry : κ × ν}
    (keyed : ∀ other ∈ entries, other.1 = entry.1 → other = entry)
    (member : entry ∈ hash ∨ entry ∈ entries) :
    entry ∈ hsets hash entries := by
  induction entries generalizing hash with
  | nil =>
      exact member.resolve_right (List.not_mem_nil)
  | cons first rest induction =>
      rw [hsets_cons]
      refine induction
        (fun other inside => keyed other (List.mem_cons_of_mem _ inside)) ?_
      by_cases same : first.1 = entry.1
      · refine .inl (mem_hset_iff.mpr (.inr ?_))
        exact (keyed first List.mem_cons_self same).symm
      · rcases member with before | now
        · exact .inl (mem_hset_iff.mpr (.inl ⟨before, Ne.symm same⟩))
        · rcases List.mem_cons.mp now with rfl | later
          · exact absurd rfl same
          · exact .inr later

/-- No field of a hash that was filled from nothing has two values. -/
theorem hsets_unique {entries : List (κ × ν)}
    (unique : ∀ one ∈ hash, ∀ other ∈ hash, one.1 = other.1 → one = other) :
    ∀ one ∈ hsets hash entries, ∀ other ∈ hsets hash entries,
      one.1 = other.1 → one = other := by
  induction entries generalizing hash with
  | nil => exact unique
  | cons first rest induction =>
      rw [hsets_cons]
      refine induction fun one left other right same => ?_
      rcases mem_hset_iff.mp left with ⟨old, aside⟩ | rfl
      · rcases mem_hset_iff.mp right with ⟨known, _⟩ | rfl
        · exact unique one old other known same
        · exact absurd same aside
      · rcases mem_hset_iff.mp right with ⟨_, aside⟩ | rfl
        · exact absurd same.symm aside
        · rfl

/-- All values that are set are there in the end exactly if no field was set
to two of them. -/
theorem mem_hsets_nil_iff {entries : List (κ × ν)} :
    (∀ entry, entry ∈ hsets [] entries ↔ entry ∈ entries) ↔
      ∀ one ∈ entries, ∀ other ∈ entries, one.1 = other.1 → one = other := by
  constructor
  · intro all one left other right
    have empty : ∀ one ∈ ([] : Hash κ ν), ∀ other ∈ ([] : Hash κ ν),
        one.1 = other.1 → one = other := by
      simp
    exact hsets_unique empty one ((all one).mpr left) other
      ((all other).mpr right)
  · intro keyed entry
    constructor
    · intro member
      exact (mem_of_mem_hsets member).resolve_left List.not_mem_nil
    · intro member
      exact mem_hsets_of_keyed
        (fun other inside => keyed other inside entry member) (.inr member)

/-- The hashes have the same value for every field. -/
def SameValues (one other : Hash κ ν) : Prop :=
  ∀ field, hget one field = hget other field

theorem SameValues.trans {one other third : Hash κ ν}
    (first : SameValues one other) (second : SameValues other third) :
    SameValues one third :=
  fun field => (first field).trans (second field)

section SameValues

variable {base front back entries : List (κ × ν)}

end SameValues

theorem hsets_ne_nil {entries : List (κ × ν)} (some_field : hash ≠ []) :
    hsets hash entries ≠ [] := by
  induction entries generalizing hash with
  | nil => exact some_field
  | cons first rest induction => exact induction hset_ne_nil

theorem hsets_nil_eq_nil_iff {entries : List (κ × ν)} :
    hsets [] entries = [] ↔ entries = [] := by
  cases entries with
  | nil => exact iff_of_true rfl rfl
  | cons first rest =>
      rw [hsets_cons]
      exact iff_of_false (hsets_ne_nil hset_ne_nil) (List.cons_ne_nil _ _)

end WindowSystem.Library.FieldHash
