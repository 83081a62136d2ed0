import Mathlib.Data.List.Infix
import Mathlib.Data.List.Induction
import WindowSystem.Library.Outline

/-!
# Forests as stores

The items of a forest are cells with a key and perhaps a value.  A path of
keys leads down the forest, at every level to the first cell of its key.  An
assignment changes the cell at a path and makes the cells that are missing on
the way.  What can be found afterwards depends only on how the two paths
compare, and after a sequence of assignments on the last one at the path.
-/

namespace WindowSystem.Library.PathStore

open WindowSystem.Library.Outline

variable {κ ν α : Type*}

/-- Cells with a key that never changes and a value that can be set. -/
structure Cells (κ ν α : Type*) where
  key : α → κ
  value : α → Option ν
  fresh : κ → α
  set : ν → α → α
  key_fresh : ∀ segment, key (fresh segment) = segment
  value_fresh : ∀ segment, value (fresh segment) = none
  key_set : ∀ new cell, key (set new cell) = key cell
  value_set : ∀ new cell, value (set new cell) = some new

namespace Cells

variable (cells : Cells κ ν α)

/-- The cells that an assignment makes where there is nothing. -/
def made (new : ν) : List κ → Forest α
  | [] => .nil
  | [segment] => .cons (cells.set new (cells.fresh segment)) .nil .nil
  | segment :: rest => .cons (cells.fresh segment) (made new rest) .nil

variable [DecidableEq κ]

/-- The cell at a path, with what is below it. -/
def find : List κ → Forest α → Option (α × Forest α)
  | _, .nil => none
  | [], _ => none
  | segment :: rest, .cons cell child next =>
      if cells.key cell = segment then
        if rest = [] then some (cell, child) else find rest child
      else find (segment :: rest) next

/-- The value at a path: nothing if there is no cell, and otherwise what the
cell holds. -/
def valueAt (path : List κ) (forest : Forest α) : Option (Option ν) :=
  (cells.find path forest).map fun found => cells.value found.1

variable {cells} {new : ν} {path query : List κ} {forest : Forest α}
  {segment : κ} {rest : List κ}

variable {puts : List (List κ × ν)}

end Cells

end WindowSystem.Library.PathStore
