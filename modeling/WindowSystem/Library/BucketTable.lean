import Mathlib.Data.List.Nodup
import Mathlib.Logic.Function.Basic

/-!
# Bucket tables with chained nodes

A table maps every bucket to a chain of nodes.  A node is identified inside
its bucket by a tag.  A search walks one chain up to the first node with the
tag; an insertion either updates that node or puts a new node in front of the
chain.  The laws below describe searches after insertions, and the invariant
that no chain holds two nodes with one tag.
-/

namespace WindowSystem.Library.BucketTable

variable {ι τ ν : Type*} [DecidableEq ι] [DecidableEq τ]

/-! ## One chain -/

/-- The first node of a chain that carries a tag. -/
def findNode (tag : ν → τ) (wanted : τ) : List ν → Option ν
  | [] => none
  | node :: next =>
      if tag node = wanted then some node else findNode tag wanted next

/-- Update the first node of a chain that carries a tag. -/
def updateNode (tag : ν → τ) (wanted : τ) (update : ν → ν) :
    List ν → List ν
  | [] => []
  | node :: next =>
      if tag node = wanted then update node :: next
      else node :: updateNode tag wanted update next

section Chain

variable {tag : ν → τ} {wanted other : τ} {update : ν → ν}

theorem findNode_eq_none_iff {chain : List ν} :
    findNode tag wanted chain = none ↔ wanted ∉ chain.map tag := by
  induction chain with
  | nil => simp [findNode]
  | cons head next induction =>
      by_cases equal : tag head = wanted
      · simp [findNode, equal]
      · simp [findNode, equal, induction, Ne.symm equal]

theorem findNode_updateNode_same
    (keepsTag : ∀ node, tag (update node) = tag node) (chain : List ν) :
    findNode tag wanted (updateNode tag wanted update chain) =
      (findNode tag wanted chain).map update := by
  induction chain with
  | nil => rfl
  | cons head next induction =>
      by_cases equal : tag head = wanted
      · simp [findNode, updateNode, equal, keepsTag]
      · simp [findNode, updateNode, equal, induction]

theorem findNode_updateNode_other
    (keepsTag : ∀ node, tag (update node) = tag node)
    (different : other ≠ wanted) (chain : List ν) :
    findNode tag other (updateNode tag wanted update chain) =
      findNode tag other chain := by
  induction chain with
  | nil => rfl
  | cons head next induction =>
      by_cases equal : tag head = wanted
      · simp [findNode, updateNode, equal, keepsTag, Ne.symm different]
      · simp [findNode, updateNode, equal, induction]

theorem map_tag_updateNode
    (keepsTag : ∀ node, tag (update node) = tag node) (chain : List ν) :
    (updateNode tag wanted update chain).map tag = chain.map tag := by
  induction chain with
  | nil => rfl
  | cons head next induction =>
      by_cases equal : tag head = wanted
      · simp [updateNode, equal, keepsTag]
      · simp [updateNode, equal, induction]

end Chain

/-! ## The table -/

/-- The node that a search for a tag in a bucket returns. -/
def lookup (tag : ν → τ) (table : ι → List ν) (key : ι × τ) : Option ν :=
  findNode tag key.2 (table key.1)

/-- Update the node that a search for a tag in a bucket returns. -/
def modify (tag : ν → τ) (table : ι → List ν) (key : ι × τ)
    (update : ν → ν) : ι → List ν :=
  Function.update table key.1
    (updateNode tag key.2 update (table key.1))

/-- Update the node with the tag, or put a new one in front of its chain. -/
def upsert (tag : ν → τ) (table : ι → List ν)
    (bucket : ι) (fresh : ν) (update : ν → ν) : ι → List ν :=
  Function.update table bucket <|
    match findNode tag (tag fresh) (table bucket) with
    | some _ => updateNode tag (tag fresh) update (table bucket)
    | none => fresh :: table bucket

section Table

variable {tag : ν → τ} {update : ν → ν}

theorem lookup_upsert_same
    (keepsTag : ∀ node, tag (update node) = tag node)
    (table : ι → List ν) (bucket : ι) (fresh : ν) :
    lookup tag (upsert tag table bucket fresh update)
        (bucket, tag fresh) =
      match lookup tag table (bucket, tag fresh) with
      | some node => some (update node)
      | none => some fresh := by
  simp only [lookup, upsert, Function.update_self]
  cases found : findNode tag (tag fresh) (table bucket) with
  | none => simp [findNode]
  | some node => simp [findNode_updateNode_same keepsTag, found]

theorem lookup_upsert_other
    (keepsTag : ∀ node, tag (update node) = tag node)
    (table : ι → List ν) (bucket : ι) (fresh : ν) {key : ι × τ}
    (different : key ≠ (bucket, tag fresh)) :
    lookup tag (upsert tag table bucket fresh update) key =
      lookup tag table key := by
  obtain ⟨place, wanted⟩ := key
  by_cases sameBucket : place = bucket
  · subst place
    have otherTag : wanted ≠ tag fresh := by
      rintro rfl
      exact different rfl
    simp only [lookup, upsert, Function.update_self]
    cases findNode tag (tag fresh) (table bucket) with
    | none => simp [findNode, Ne.symm otherTag]
    | some node =>
        exact findNode_updateNode_other keepsTag otherTag _
  · simp [lookup, upsert, Function.update_of_ne sameBucket]

theorem lookup_modify_same
    (keepsTag : ∀ node, tag (update node) = tag node)
    (table : ι → List ν) (key : ι × τ) :
    lookup tag (modify tag table key update) key =
      (lookup tag table key).map update := by
  simp only [lookup, modify, Function.update_self]
  exact findNode_updateNode_same keepsTag _

theorem lookup_modify_other
    (keepsTag : ∀ node, tag (update node) = tag node)
    (table : ι → List ν) {key other : ι × τ} (different : other ≠ key) :
    lookup tag (modify tag table key update) other =
      lookup tag table other := by
  obtain ⟨place, wanted⟩ := other
  by_cases sameBucket : place = key.1
  · subst place
    have otherTag : wanted ≠ key.2 := by
      rintro rfl
      exact different rfl
    simp only [lookup, modify, Function.update_self]
    exact findNode_updateNode_other keepsTag otherTag _
  · simp [lookup, modify, Function.update_of_ne sameBucket]

/-- No chain holds two nodes with the same tag. -/
def Distinct (tag : ν → τ) (table : ι → List ν) : Prop :=
  ∀ bucket, ((table bucket).map tag).Nodup

omit [DecidableEq ι] [DecidableEq τ] in
theorem Distinct.empty : Distinct tag (fun _ : ι => ([] : List ν)) :=
  fun _ => List.nodup_nil

theorem Distinct.upsert
    (keepsTag : ∀ node, tag (update node) = tag node)
    {table : ι → List ν} (distinct : Distinct tag table)
    (bucket : ι) (fresh : ν) :
    Distinct tag (upsert tag table bucket fresh update) := by
  intro place
  by_cases sameBucket : place = bucket
  · subst place
    simp only [BucketTable.upsert, Function.update_self]
    cases found : findNode tag (tag fresh) (table bucket) with
    | none =>
        rw [List.map_cons, List.nodup_cons]
        exact ⟨findNode_eq_none_iff.mp found, distinct bucket⟩
    | some node =>
        rw [map_tag_updateNode keepsTag]
        exact distinct bucket
  · rw [BucketTable.upsert, Function.update_of_ne sameBucket]
    exact distinct place

end Table

end WindowSystem.Library.BucketTable
