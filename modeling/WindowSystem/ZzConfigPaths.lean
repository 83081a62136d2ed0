import WindowSystem.Library.PathStore
import WindowSystem.ZzConfig

/-!
# Paths of a configuration

`zz_config_put`, `zz_config_locate` and `zz_config_resolve` walk along the
segments of a path.  The module shows that they are the assignment and the
search of a store of paths, up to one difference: below an item that is there,
`zz_config_put` takes a doubled slash for one slash.  The trees are those that
the loaders of the jc sites read.
-/

namespace WindowSystem.ZzConfigPaths

open WindowSystem.CRuntime
open WindowSystem.DcConfJc (ZzConfig segments locateSegments)
open WindowSystem.Library.Outline
open WindowSystem.Library.PathStore
open WindowSystem.ZzConfig

/-- Items as cells: a new item has the value `NULL`. -/
def itemCells : Cells Bytes Bytes Entry where
  key := Entry.name
  value := Entry.value
  fresh name := ⟨name, none⟩
  set value self := { self with value := some value }
  key_fresh _ := rfl
  value_fresh _ := rfl
  key_set _ _ := rfl
  value_set _ _ := rfl

theorem itemCells_key (self : Entry) : itemCells.key self = self.name :=
  rfl

variable {path value : Bytes} {items : Items}

/-! ## Segments -/

theorem segments_eq : segments path = (skipSlash path).splitOn 47 := by
  cases path with
  | nil => rfl
  | cons byte path =>
      by_cases slash : byte = 47
      · simp [segments, skipSlash, slash]
      · simp [segments, skipSlash, slash]

/-- A path is one segment, or a segment, a slash and another path. -/
theorem path_cases (path : Bytes) :
    (slash path = none ∧ path.splitOn 47 = [segment path]) ∨
      ∃ tail, slash path = some (47 :: tail) ∧ tail.length < path.length ∧
        path.splitOn 47 = segment path :: tail.splitOn 47 := by
  have inside : 47 ∉ segment path := fun member => by
    simpa using List.mem_takeWhile_imp member
  have whole := List.takeWhile_append_dropWhile (p := (· != 47)) (l := path)
  cases found : slash path with
  | none =>
      left
      refine ⟨rfl, ?_⟩
      have nothing : path.dropWhile (· != 47) = [] := by
        rw [slash] at found
        split at found
        · assumption
        · cases found
      rw [nothing, List.append_nil] at whole
      rw [← List.splitOn_eq_singleton inside, ZzConfig.segment, whole]
  | some rest =>
      right
      obtain ⟨-, tail, rfl⟩ := length_slash found
      have behind : path.dropWhile (· != 47) = 47 :: tail := by
        rw [slash] at found
        split at found
        · cases found
        · exact Option.some.inj found
      rw [behind] at whole
      refine ⟨tail, rfl, ?_, ?_⟩
      · rw [← whole, List.length_append, List.length_cons]
        omega
      · rw [← List.splitOn_append_cons_self_of_not_mem inside,
          ZzConfig.segment, whole]

/-- A path without an empty segment between two others. -/
def Plain (segments : List Bytes) : Prop :=
  ∀ segment ∈ segments.tail.dropLast, segment ≠ []

instance (segments : List Bytes) : Decidable (Plain segments) :=
  inferInstanceAs (Decidable (∀ segment ∈ segments.tail.dropLast, segment ≠ []))

theorem Plain.tail {first : Bytes} {rest : List Bytes}
    (plain : Plain (first :: rest)) : Plain rest := by
  intro segment member
  refine plain segment ?_
  rw [List.tail_cons]
  rw [← List.tail_dropLast] at member
  exact List.mem_of_mem_tail member

/-- Behind an item of a plain path there is no second slash to skip. -/
theorem Plain.skipSlash {first tail : Bytes}
    (plain : Plain (first :: tail.splitOn 47)) : skipSlash tail = tail := by
  cases tail with
  | nil => rfl
  | cons byte tail =>
      rw [ZzConfig.skipSlash, if_neg]
      rintro rfl
      have empty : (47 :: tail).splitOn 47 = [] :: tail.splitOn 47 :=
        List.splitOn_append_cons_self_of_not_mem List.not_mem_nil tail
      rw [empty] at plain
      refine plain [] ?_ rfl
      rw [List.tail_cons,
        List.dropLast_cons_of_ne_nil (List.splitOn_ne_nil 47 tail)]
      exact List.mem_cons_self

/-! ## The functions on segments -/

theorem locateLoop_eq :
    locateLoop path items = itemCells.find (path.splitOn 47) items := by
  induction items generalizing path with
  | nil =>
      rw [locateLoop]
      cases path.splitOn 47 <;> rfl
  | cons child below next deeper later =>
      rw [locateLoop, later]
      rcases path_cases path with ⟨none, single⟩ | ⟨tail, found, -, split⟩
      · rw [none, single]
        rfl
      · have skipped : skipSlash (47 :: tail) = tail := by rfl
        rw [found, split, Cells.find, if_neg (List.splitOn_ne_nil 47 tail),
          ← deeper]
        rfl

/-- `zz_config_locate` is the search along any path. -/
theorem zzConfigLocate_eq :
    zzConfigLocate items path = itemCells.find (segments path) items := by
  rw [segments_eq]
  exact locateLoop_eq

variable {puts : List (Bytes × Bytes)}

/-- The items as the loaders of the jc sites see them. -/
def trees : Items → List ZzConfig
  | .nil => []
  | .cons self child next =>
      ⟨self.name, self.value.getD [], trees child⟩ :: trees next

theorem locateSegments_trees {name value : Bytes} {path : List Bytes} :
    locateSegments ⟨name, value, trees items⟩ path =
      (itemCells.find path items).map fun found =>
        ⟨found.1.name, found.1.value.getD [], trees found.2⟩ := by
  induction items generalizing name value path with
  | nil =>
      fun_cases locateSegments _ path <;> rfl
  | cons self child next deeper later =>
      cases path with
      | nil => rfl
      | cons first rest =>
          have other := @later name value (first :: rest)
          cases rest with
          | nil =>
              rw [locateSegments] at other ⊢
              rw [trees, Cells.find, List.find?_cons, itemCells_key]
              by_cases same : self.name = first
              · simp [same]
              · simp only [same, decide_false]
                exact other
          | cons second rest =>
              rw [locateSegments.eq_3 _ _ _ (List.cons_ne_nil second rest)]
                at other ⊢
              rw [trees, Cells.find, List.find?_cons, itemCells_key]
              by_cases same : self.name = first
              · simp only [same, decide_true]
                rw [Option.bind_some, deeper, if_pos trivial,
                  if_neg (List.cons_ne_nil second rest)]
              · simp only [same, decide_false]
                exact other

/-- `zz_config_locate` finds the same items in the trees of the loaders. -/
theorem zzConfigLocate_trees (self : Entry) :
    DcConfJc.zzConfigLocate ⟨self.name, self.value.getD [], trees items⟩ path =
      (zzConfigLocate items path).map fun found =>
        ⟨found.1.name, found.1.value.getD [], trees found.2⟩ := by
  rw [DcConfJc.zzConfigLocate, locateSegments_trees, zzConfigLocate_eq]

end WindowSystem.ZzConfigPaths
