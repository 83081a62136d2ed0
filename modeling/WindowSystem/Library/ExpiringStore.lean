import Mathlib.Logic.Function.Basic
import Mathlib.Order.Lattice

/-!
# Stores whose entries expire

A store keeps a value and a deadline under a key.  A value can be found until
the deadline has passed; what has expired cannot be found again unless it is
put again.
-/

namespace WindowSystem.Library.ExpiringStore

/-- A value with its deadline. -/
structure Entry (ν τ : Type*) where
  value : ν
  deadline : τ

/-- The entries under their keys. -/
abbrev Store (κ ν τ : Type*) := κ → Option (Entry ν τ)

section Operations

variable {κ ν τ : Type*} [DecidableEq κ] [LinearOrder τ]

/-- The value under a key, unless it has expired. -/
def find (store : Store κ ν τ) (now : τ) (key : κ) : Option ν :=
  (store key).bind fun entry =>
    if now ≤ entry.deadline then some entry.value else none

/-- Put a value under a key. -/
def put (store : Store κ ν τ) (key : κ) (value : ν) (deadline : τ) :
    Store κ ν τ :=
  Function.update store key (some ⟨value, deadline⟩)

/-- Remove a key. -/
def erase (store : Store κ ν τ) (key : κ) : Store κ ν τ :=
  Function.update store key none

variable {store : Store κ ν τ} {now : τ} {key other : κ}

@[simp]
theorem find_put_self (value : ν) (deadline : τ) :
    find (put store key value deadline) now key =
      if now ≤ deadline then some value else none := by
  rw [find, put, Function.update_self, Option.bind_some]

@[simp]
theorem find_put_of_ne (different : other ≠ key) (value : ν) (deadline : τ) :
    find (put store key value deadline) now other = find store now other := by
  rw [find, put, Function.update_of_ne different, find]

@[simp]
theorem find_erase_self : find (erase store key) now key = none := by
  rw [find, erase, Function.update_self, Option.bind_none]

omit [DecidableEq κ] in
/-- What has expired stays expired. -/
theorem find_eq_none_of_le {later : τ} (order : now ≤ later)
    (expired : find store now key = none) : find store later key = none := by
  rw [find, Option.bind_eq_none_iff] at expired ⊢
  intro entry stored
  have passed := expired entry stored
  by_cases lasting : later ≤ entry.deadline
  · rw [if_pos (le_trans order lasting)] at passed
    cases passed
  · exact if_neg lasting

omit [DecidableEq κ] in
theorem isSome_of_find {value : ν} (found : find store now key = some value) :
    (store key).isSome := by
  obtain ⟨entry, stored, _⟩ := Option.bind_eq_some_iff.mp found
  rw [stored]
  rfl

omit [DecidableEq κ] in
/-- Until its deadline an entry can be found. -/
theorem find_of_le {entry : Entry ν τ} (stored : store key = some entry)
    (order : now ≤ entry.deadline) :
    find store now key = some entry.value := by
  rw [find, stored, Option.bind_some, if_pos order]

end Operations

end WindowSystem.Library.ExpiringStore
