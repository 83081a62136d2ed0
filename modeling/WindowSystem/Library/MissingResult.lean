import Mathlib.Data.List.Basic

/-!
# Results that may be missing

A call that throws, or whose behaviour is not defined, has no result.  The
module has the two ways in which such calls are put together: one condition
behind another, and a call for each element of a list.
-/

namespace WindowSystem.Library.MissingResult

/-! ## Conditions -/

section Conditions

variable {first second : Option Bool}

/-- `first && second`: the second condition is not looked at if the first one
does not hold. -/
def andAlso (first second : Option Bool) : Option Bool :=
  first.bind fun flag => if flag then second else some false

@[simp]
theorem andAlso_eq_some_true_iff :
    andAlso first second = some true ↔
      first = some true ∧ second = some true := by
  rcases first with _ | _ | _ <;> simp [andAlso]

theorem andAlso_eq_some_false_iff :
    andAlso first second = some false ↔
      first = some false ∨ first = some true ∧ second = some false := by
  rcases first with _ | _ | _ <;> simp [andAlso]

end Conditions

/-! ## Lists -/

section Lists

variable {α β : Type*} {f : α → Option β} {list : List α} {formed : List β}

/-- A list has a result exactly when each element has its own. -/
theorem mapM_eq_some_iff :
    list.mapM f = some formed ↔ list.map f = formed.map some := by
  induction list generalizing formed with
  | nil => cases formed <;> simp
  | cons first rest induction =>
      rw [List.mapM_cons, List.map_cons]
      cases formed with
      | nil => cases f first <;> cases rest.mapM f <;> simp
      | cons value formed =>
          rw [List.map_cons, List.cons.injEq, ← induction]
          cases f first <;> cases rest.mapM f <;> simp

theorem length_of_mapM (each : list.mapM f = some formed) :
    formed.length = list.length := by
  have lengths := congrArg List.length (mapM_eq_some_iff.mp each)
  rw [List.length_map, List.length_map] at lengths
  exact lengths.symm

theorem exists_of_mem_mapM (each : list.mapM f = some formed) {value : β}
    (member : value ∈ formed) : ∃ element ∈ list, f element = some value := by
  rw [← List.mem_map, mapM_eq_some_iff.mp each]
  exact List.mem_map_of_mem member

theorem mapM_isSome_iff :
    (list.mapM f).isSome = true ↔
      ∀ element ∈ list, (f element).isSome = true := by
  induction list with
  | nil => simp
  | cons first rest induction =>
      rw [List.mapM_cons, List.forall_mem_cons, ← induction]
      cases f first <;> cases rest.mapM f <;> simp

end Lists

end WindowSystem.Library.MissingResult
