import Mathlib.Data.List.Induction

/-!
# Forests as outlines

A forest can be written down as an outline: one line for every item, in
preorder, with the depth of the item.  An outline is read back line by line,
every item being attached behind the last one at its depth.  The two
directions are inverse to each other, and an outline can be read exactly when
no line is more than one level below the line before it.
-/

namespace WindowSystem.Library.Outline

/-- A forest in first-child, next-sibling form. -/
inductive Forest (α : Type*) where
  | nil
  | cons (item : α) (child next : Forest α)

variable {α β : Type*}

namespace Forest

/-- The lines of a forest whose first level is `level`. -/
def lines (level : Nat) : Forest α → List (Nat × α)
  | nil => []
  | cons item child next =>
      (level, item) :: (child.lines (level + 1) ++ next.lines level)

/-- Attach an item as the last one of the first level. -/
def addLast (item : α) : Forest α → Forest α
  | nil => cons item nil nil
  | cons first child next => cons first child (next.addLast item)

/-- Attach an item below the last item of the level above it, if there is
one. -/
def attach (item : α) : Nat → Forest α → Option (Forest α)
  | 0, forest => some (forest.addLast item)
  | _ + 1, nil => none
  | level + 1, cons last child nil =>
      (child.attach item level).map fun child => cons last child nil
  | level + 1, cons first child next =>
      (next.attach item (level + 1)).map (cons first child)

/-- The number of the levels at which something can be attached below another
item. -/
def depth : Forest α → Nat
  | nil => 0
  | cons _ child nil => child.depth + 1
  | cons _ _ next => next.depth

/-- Change every item. -/
def map (change : α → β) : Forest α → Forest β
  | nil => nil
  | cons item child next =>
      cons (change item) (child.map change) (next.map change)

variable {level : Nat} {item : α} {forest child next grown : Forest α}

theorem lines_map (change : α → β) :
    (forest.map change).lines level =
      (forest.lines level).map fun line => (line.1, change line.2) := by
  induction forest generalizing level with
  | nil => rfl
  | cons item child next below behind =>
      rw [map, lines, lines, below, behind, List.map_cons, List.map_append]

/-! ## Attaching at the end -/

theorem lines_addLast :
    (forest.addLast item).lines level =
      forest.lines level ++ [(level, item)] := by
  induction forest with
  | nil => rfl
  | cons first child next _ behind =>
      rw [addLast, lines, lines, behind, List.cons_append, List.append_assoc]

theorem depth_addLast : (forest.addLast item).depth = 1 := by
  induction forest with
  | nil => rfl
  | cons first child next _ behind =>
      rw [addLast]
      cases next with
      | nil => rfl
      | cons second child further =>
          exact behind

/-- What attaching does to the lines and to the levels that are there. -/
theorem attach_eq_some (attached : forest.attach item level = some grown)
    (base : Nat) :
    grown.lines base = forest.lines base ++ [(base + level, item)] ∧
      grown.depth = level + 1 := by
  fun_induction attach item level forest generalizing base grown with
  | case1 forest =>
      cases attached
      exact ⟨lines_addLast, depth_addLast⟩
  | case2 => cases attached
  | case3 level last child induction =>
      obtain ⟨below, inside, rfl⟩ := Option.map_eq_some_iff.mp attached
      obtain ⟨same, deep⟩ := induction inside (base + 1)
      have place : base + 1 + level = base + (level + 1) := by omega
      rw [place] at same
      refine ⟨?_, ?_⟩
      · rw [lines, lines, same, lines, lines, List.append_nil,
          List.append_nil]
        rfl
      · rw [depth, deep]
  | case4 level first child next notNil induction =>
      obtain ⟨behind, inside, rfl⟩ := Option.map_eq_some_iff.mp attached
      obtain ⟨same, deep⟩ := induction inside base
      refine ⟨?_, ?_⟩
      · rw [lines, lines, same, List.cons_append, List.append_assoc]
      · cases behind with
        | nil => cases deep
        | cons second below further => exact deep

theorem attach_isSome_iff :
    (forest.attach item level).isSome ↔ level ≤ forest.depth := by
  fun_induction attach item level forest with
  | case1 => simp
  | case2 => simp [depth]
  | case3 level last child induction =>
      rw [Option.isSome_map, induction, depth, Nat.succ_le_succ_iff]
  | case4 level first child next notNil induction =>
      rw [Option.isSome_map, induction]
      cases next with
      | nil => exact absurd rfl notNil
      | cons second below further => rfl

/-! ## The lines determine the forest -/

/-- What may follow the lines of a level: nothing, or a line of a level
above. -/
def EndsBefore (level : Nat) (rest : List (Nat × α)) : Prop :=
  ∀ line ∈ rest.head?, line.1 < level

theorem endsBefore_lines {rest : List (Nat × α)}
    (ends : EndsBefore level rest) :
    EndsBefore (level + 1) (forest.lines level ++ rest) := by
  intro line first
  cases forest with
  | nil => exact Nat.lt_succ_of_lt (ends line first)
  | cons item child next =>
      cases first
      exact Nat.lt_succ_self level

theorem lines_append_inj {other : Forest α} {rest further : List (Nat × α)}
    (ends : EndsBefore level rest) (stops : EndsBefore level further)
    (same : forest.lines level ++ rest = other.lines level ++ further) :
    forest = other ∧ rest = further := by
  induction forest generalizing level other rest further with
  | nil =>
      cases other with
      | nil => exact ⟨rfl, same⟩
      | cons item child next =>
          rw [lines, List.nil_append] at same
          exact absurd (ends (level, item) (by rw [same]; rfl))
            (Nat.lt_irrefl level)
  | cons item child next below behind =>
      cases other with
      | nil =>
          change _ = further at same
          exact absurd (stops (level, item) (by rw [← same]; rfl))
            (Nat.lt_irrefl level)
      | cons second child' next' =>
          rw [lines, lines, List.cons_append, List.cons_append,
            List.append_assoc, List.append_assoc, List.cons.injEq] at same
          obtain ⟨rfl, remaining⟩ :=
            below (endsBefore_lines ends) (endsBefore_lines stops) same.2
          obtain ⟨rfl, rfl⟩ := behind ends stops remaining
          cases same.1
          exact ⟨rfl, rfl⟩

theorem lines_injective (level : Nat) :
    Function.Injective (lines level : Forest α → List (Nat × α)) := by
  intro forest other same
  have ends : EndsBefore (α := α) level [] := by
    intro line first
    cases first
  exact (lines_append_inj ends ends (congrArg (· ++ []) same)).1

end Forest

/-! ## Reading an outline -/

/-- Attach the items line by line. -/
def assemble : List (Nat × α) → Forest α → Option (Forest α)
  | [], forest => some forest
  | (level, item) :: rest, forest =>
      (forest.attach item level).bind (assemble rest)

/-- No line is more than one level below the line before it; at the beginning
there are so many levels. -/
def Steps : Nat → List (Nat × α) → Prop
  | _, [] => True
  | depth, (level, _) :: rest => level ≤ depth ∧ Steps (level + 1) rest

variable {forest result : Forest α} {entries : List (Nat × α)}

theorem lines_assemble (assembled : assemble entries forest = some result) :
    result.lines 0 = forest.lines 0 ++ entries := by
  induction entries generalizing forest with
  | nil =>
      cases assembled
      exact (List.append_nil _).symm
  | cons entry entries induction =>
      obtain ⟨grown, attached, later⟩ := Option.bind_eq_some_iff.mp assembled
      rw [induction later, (Forest.attach_eq_some attached 0).1,
        Nat.zero_add, List.append_assoc]
      rfl

theorem assemble_isSome_iff :
    (assemble entries forest).isSome ↔ Steps forest.depth entries := by
  induction entries generalizing forest with
  | nil => simp [assemble, Steps]
  | cons entry entries induction =>
      obtain ⟨level, item⟩ := entry
      rw [assemble, Steps]
      cases attached : forest.attach item level with
      | none =>
          have deeper : ¬ level ≤ forest.depth := by
            rw [← @Forest.attach_isSome_iff α level item, attached]
            exact Bool.false_ne_true
          simp [deeper]
      | some grown =>
          have fits : level ≤ forest.depth := by
            rw [← @Forest.attach_isSome_iff α level item, attached]
            rfl
          rw [Option.bind_some, induction,
            (Forest.attach_eq_some attached 0).2]
          simp [fits]

/-- The lines of a forest step down one level at a time. -/
theorem steps_lines {level depth : Nat} {rest : List (Nat × α)}
    (shallow : level ≤ depth)
    (behind : ∀ deeper, level ≤ deeper → Steps deeper rest) :
    Steps depth (forest.lines level ++ rest) := by
  induction forest generalizing level depth rest with
  | nil => exact behind depth shallow
  | cons item child next below later =>
      rw [Forest.lines, List.cons_append, List.append_assoc]
      refine ⟨shallow, below (Nat.le_refl _) ?_⟩
      intro deeper under
      exact later (Nat.le_of_succ_le under) behind

/-- A forest is read exactly from its own lines. -/
theorem assemble_eq_some_iff :
    assemble entries .nil = some result ↔ result.lines 0 = entries := by
  constructor
  · exact lines_assemble
  · rintro rfl
    have steps : Steps (Forest.nil : Forest α).depth (result.lines 0) := by
      have whole := @steps_lines α result 0 0 [] (Nat.le_refl 0)
        fun _ _ => trivial
      rwa [List.append_nil] at whole
    obtain ⟨other, assembled⟩ :=
      Option.isSome_iff_exists.mp (assemble_isSome_iff.mpr steps)
    rw [assembled, Forest.lines_injective 0 (lines_assemble assembled)]

end WindowSystem.Library.Outline
