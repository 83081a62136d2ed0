import Mathlib.Data.Finset.Card
import Mathlib.Data.List.Sort
import WindowSystem.Library.IntervalSearch

/-!
# The dictionary tree

A `DictSegment` keeps up to three children in a sorted array, which is searched
by halving, and more of them in a map.  Words are filled in and disabled.  The
module shows that the two ways of storing keep the same tree, and that after
any sequence of calls `match` answers from the calls alone: a word is matched
when the last call for it filled it in, and a text is a prefix when a longer
word was once filled in.
-/

namespace WindowSystem.Jieba

open WindowSystem.Library.IntervalSearch

/-! ## The tree -/

/-- `ARRAY_LENGTH_LIMIT` -/
def arrayLengthLimit : Nat := 3

/-- A node with its character; of the array only the first `storeSize`
elements are listed, the others are `null`. -/
inductive DictSegment where
  | mk (childrenMap : Option (UInt16 → Option DictSegment))
    (childrenArray : Option (List DictSegment)) (nodeChar : UInt16)
    (storeSize : Nat) (nodeState : Bool)

namespace DictSegment

def childrenMap : DictSegment → Option (UInt16 → Option DictSegment)
  | mk childrenMap _ _ _ _ => childrenMap

def childrenArray : DictSegment → Option (List DictSegment)
  | mk _ childrenArray _ _ _ => childrenArray

def nodeChar : DictSegment → UInt16
  | mk _ _ nodeChar _ _ => nodeChar

def storeSize : DictSegment → Nat
  | mk _ _ _ storeSize _ => storeSize

def nodeState : DictSegment → Bool
  | mk _ _ _ _ nodeState => nodeState

/-- The constructor. -/
def new (nodeChar : UInt16) : DictSegment :=
  mk none none nodeChar 0 false

/-- `ds.nodeState = enabled` -/
def setState (enabled : Bool) : DictSegment → DictSegment
  | mk childrenMap childrenArray nodeChar storeSize _ =>
      mk childrenMap childrenArray nodeChar storeSize enabled

/-- The same node with other children. -/
def store (childrenMap : Option (UInt16 → Option DictSegment))
    (childrenArray : Option (List DictSegment)) (storeSize : Nat) :
    DictSegment → DictSegment
  | mk _ _ nodeChar _ nodeState =>
      mk childrenMap childrenArray nodeChar storeSize nodeState

/-- `hasNextNode` -/
def hasNextNode (self : DictSegment) : Bool :=
  0 < self.storeSize

/-! ## The children of a node -/

/-- `Arrays.binarySearch (segmentArray, 0, storeSize, keySegment)` -/
def binarySearch (segmentArray : List DictSegment) (storeSize : Nat)
    (keyChar : UInt16) : Option Nat :=
  search (fun index =>
    match segmentArray[index]? with
    | some segment => compare keyChar.toNat segment.nodeChar.toNat
    | none => .lt) 0 storeSize

/-- The segment at the position that was found. -/
def searchArray (segmentArray : List DictSegment) (storeSize : Nat)
    (keyChar : UInt16) : Option DictSegment :=
  (binarySearch segmentArray storeSize keyChar).bind
    fun position => segmentArray[position]?

/-- `Arrays.sort (segmentArray, 0, storeSize)` -/
def sort (segmentArray : List DictSegment) : List DictSegment :=
  segmentArray.mergeSort fun left right =>
    left.nodeChar.toNat ≤ right.nodeChar.toNat

/-- `segmentMap.put` -/
def put (segmentMap : UInt16 → Option DictSegment) (keyChar : UInt16)
    (segment : DictSegment) : UInt16 → Option DictSegment :=
  Function.update segmentMap keyChar (some segment)

/-- `migrate` -/
def migrate (segmentArray : List DictSegment)
    (segmentMap : UInt16 → Option DictSegment) :
    UInt16 → Option DictSegment :=
  segmentArray.foldl (fun segmentMap segment =>
    put segmentMap segment.nodeChar segment) segmentMap

/-- The first step of `match`. -/
def child (self : DictSegment) (keyChar : UInt16) : Option DictSegment :=
  match self.childrenArray with
  | some segmentArray => searchArray segmentArray self.storeSize keyChar
  | none => self.childrenMap.bind fun segmentMap => segmentMap keyChar

/-- `lookforSegment`: the node afterwards, and the segment that it refers
to. -/
def lookforSegment (self : DictSegment) (keyChar : UInt16) (create : Bool) :
    DictSegment × Option DictSegment :=
  if self.storeSize ≤ arrayLengthLimit then
    let segmentArray := self.childrenArray.getD []
    match searchArray segmentArray self.storeSize keyChar with
    | some ds =>
        (self.store self.childrenMap (some segmentArray) self.storeSize,
          some ds)
    | none =>
        if create then
          let ds := new keyChar
          if self.storeSize < arrayLengthLimit then
            (self.store self.childrenMap (some (sort (segmentArray ++ [ds])))
              (self.storeSize + 1), some ds)
          else
            let segmentMap :=
              migrate segmentArray (self.childrenMap.getD fun _ => none)
            (self.store (some (put segmentMap keyChar ds)) none
              (self.storeSize + 1), some ds)
        else
          (self.store self.childrenMap (some segmentArray) self.storeSize,
            none)
  else
    let segmentMap := self.childrenMap.getD fun _ => none
    match segmentMap keyChar with
    | some ds =>
        (self.store (some segmentMap) self.childrenArray self.storeSize,
          some ds)
    | none =>
        if create then
          let ds := new keyChar
          (self.store (some (put segmentMap keyChar ds)) self.childrenArray
            (self.storeSize + 1), some ds)
        else
          (self.store (some segmentMap) self.childrenArray self.storeSize,
            none)

/-- The node after its child has changed in place. -/
def replace (self : DictSegment) (keyChar : UInt16) (ds : DictSegment) :
    DictSegment :=
  match self.childrenArray with
  | some segmentArray =>
      self.store self.childrenMap
        (some (segmentArray.map fun segment =>
          if segment.nodeChar = keyChar then ds else segment)) self.storeSize
  | none =>
      self.store (self.childrenMap.map fun segmentMap =>
        put segmentMap keyChar ds) none self.storeSize

/-- `fillSegment` for a character and those behind it. -/
def fillSegment (enabled : Bool) (keyChar : UInt16) (rest : List UInt16)
    (self : DictSegment) : DictSegment :=
  let (grown, ds) := self.lookforSegment keyChar enabled
  match ds with
  | none => grown
  | some ds =>
      grown.replace keyChar
        (match rest with
        | [] => ds.setState enabled
        | next :: rest => fillSegment enabled next rest ds)

/-! ## Looking for a word -/

/-- The two bits of `hitState`. -/
structure Hit where
  isMatch : Bool
  isPrefix : Bool
deriving DecidableEq

/-- `match` for a character and those behind it. -/
def matchSegment (keyChar : UInt16) (rest : List UInt16)
    (self : DictSegment) : Hit :=
  match self.child keyChar with
  | none => ⟨false, false⟩
  | some ds =>
      match rest with
      | [] => ⟨ds.nodeState, ds.hasNextNode⟩
      | next :: rest => matchSegment next rest ds

/-! ## How the children are kept -/

/-- The characters of the segments become greater. -/
def Ascending (segments : List DictSegment) : Prop :=
  segments.Pairwise fun left right => left.nodeChar.toNat < right.nodeChar.toNat

variable {self ds segment : DictSegment} {segments : List DictSegment}
  {keyChar other : UInt16} {rest : List UInt16}

theorem Ascending.lt {index later : Nat} {left right : DictSegment}
    (ascending : Ascending segments) (here : segments[index]? = some left)
    (there : segments[later]? = some right) (before : index < later) :
    left.nodeChar.toNat < right.nodeChar.toNat := by
  obtain ⟨inside, rfl⟩ := List.getElem?_eq_some_iff.mp here
  obtain ⟨within, rfl⟩ := List.getElem?_eq_some_iff.mp there
  exact List.pairwise_iff_getElem.mp ascending _ _ inside within before

theorem Ascending.le {index later : Nat} {left right : DictSegment}
    (ascending : Ascending segments) (here : segments[index]? = some left)
    (there : segments[later]? = some right) (before : index ≤ later) :
    left.nodeChar.toNat ≤ right.nodeChar.toNat := by
  rcases Nat.eq_or_lt_of_le before with rfl | less
  · rw [Option.some.inj (here.symm.trans there)]
  · exact Nat.le_of_lt (ascending.lt here there less)

/-- Two segments of the array have different characters. -/
theorem Ascending.eq (ascending : Ascending segments)
    (member : segment ∈ segments) (further : ds ∈ segments)
    (same : segment.nodeChar = ds.nodeChar) : segment = ds := by
  obtain ⟨index, here⟩ := List.mem_iff_getElem?.mp member
  obtain ⟨later, there⟩ := List.mem_iff_getElem?.mp further
  rcases Nat.lt_trichotomy index later with before | rfl | behind
  · have less := ascending.lt here there before
    rw [same] at less
    exact absurd less (Nat.lt_irrefl _)
  · exact Option.some.inj (here.symm.trans there)
  · have less := ascending.lt there here behind
    rw [same] at less
    exact absurd less (Nat.lt_irrefl _)

/-- The comparisons of the binary search agree with the order. -/
theorem Ascending.directed (ascending : Ascending segments) :
    Directed (fun index =>
      match segments[index]? with
      | some segment => compare keyChar.toNat segment.nodeChar.toNat
      | none => .lt) segments.length where
  left := by
    intro index later before inside less
    have there := List.getElem?_eq_getElem inside
    have here := List.getElem?_eq_getElem (before.trans_lt inside)
    have order := ascending.le here there before
    simp only [here, there, Nat.compare_eq_lt] at less ⊢
    omega
  right := by
    intro index later before inside greater
    have there := List.getElem?_eq_getElem inside
    have here := List.getElem?_eq_getElem (before.trans_lt inside)
    have order := ascending.le here there before
    simp only [here, there, Nat.compare_eq_gt] at greater ⊢
    omega

/-- The binary search finds the segment with the character. -/
theorem searchArray_eq_some (ascending : Ascending segments) :
    searchArray segments segments.length keyChar = some ds ↔
      ds ∈ segments ∧ ds.nodeChar = keyChar := by
  have found : ∀ {segment}, searchArray segments segments.length keyChar =
      some segment → segment ∈ segments ∧ segment.nodeChar = keyChar := by
    intro segment isFound
    obtain ⟨position, searched, here⟩ := Option.bind_eq_some_iff.mp isFound
    have equal := (search_sound searched).2.2
    simp only [here, Nat.compare_eq_eq] at equal
    exact ⟨List.mem_of_getElem? here, (UInt16.toNat_inj.mp equal).symm⟩
  refine ⟨found, ?_⟩
  rintro ⟨member, same⟩
  obtain ⟨index, here⟩ := List.mem_iff_getElem?.mp member
  have inside := (List.getElem?_eq_some_iff.mp here).1
  obtain ⟨position, searched⟩ := Option.isSome_iff_exists.mp
    (search_complete (@Ascending.directed segments keyChar ascending) le_rfl
      (Nat.zero_le index) inside (by simp [here, same]))
  have within := (search_sound searched).2.1
  have there : searchArray segments segments.length keyChar =
      some segments[position] := by
    rw [searchArray, binarySearch, searched, Option.bind_some,
      List.getElem?_eq_getElem within]
  obtain ⟨further, named⟩ := found there
  rw [there, ascending.eq member further (same.trans named.symm)]

/-- A node has up to three children in an ascending array, or more in a
map. -/
inductive Kept (self : DictSegment) : Prop where
  | inArray (noMap : self.childrenMap = none)
      (size : self.storeSize = (self.childrenArray.getD []).length)
      (few : self.storeSize ≤ arrayLengthLimit)
      (ascending : Ascending (self.childrenArray.getD []))
  | inMap (segmentMap : UInt16 → Option DictSegment) (keys : Finset UInt16)
      (noArray : self.childrenArray = none)
      (map : self.childrenMap = some segmentMap)
      (named : ∀ {keyChar ds}, segmentMap keyChar = some ds →
        ds.nodeChar = keyChar)
      (domain : ∀ keyChar, keyChar ∈ keys ↔ (segmentMap keyChar).isSome)
      (size : self.storeSize = keys.card)
      (many : arrayLengthLimit < self.storeSize)

theorem kept_new : Kept (new keyChar) :=
  .inArray rfl rfl (Nat.zero_le _) List.Pairwise.nil

theorem child_eq_some_of_array (noMap : self.childrenMap = none)
    (size : self.storeSize = (self.childrenArray.getD []).length)
    (ascending : Ascending (self.childrenArray.getD [])) :
    self.child keyChar = some ds ↔
      ds ∈ self.childrenArray.getD [] ∧ ds.nodeChar = keyChar := by
  rw [child]
  cases array : self.childrenArray with
  | none => simp [noMap]
  | some segmentArray =>
      rw [array] at size ascending
      rw [size]
      exact searchArray_eq_some ascending

theorem child_of_map {segmentMap : UInt16 → Option DictSegment}
    (noArray : self.childrenArray = none)
    (map : self.childrenMap = some segmentMap) :
    self.child keyChar = segmentMap keyChar := by
  rw [child, noArray, map]
  rfl

theorem Kept.nodeChar (kept : Kept self)
    (found : self.child keyChar = some ds) : ds.nodeChar = keyChar := by
  cases kept with
  | inArray noMap size few ascending =>
      exact ((child_eq_some_of_array noMap size ascending).mp found).2
  | inMap segmentMap keys noArray map named domain size many =>
      rw [child_of_map noArray map] at found
      exact named found

theorem Kept.hasNextNode_iff (kept : Kept self) :
    self.hasNextNode = true ↔ ∃ keyChar ds, self.child keyChar = some ds := by
  rw [hasNextNode, decide_eq_true_iff]
  cases kept with
  | inArray noMap size few ascending =>
      rw [size, List.length_pos_iff_exists_mem]
      constructor
      · rintro ⟨segment, member⟩
        exact ⟨segment.nodeChar, segment,
          (child_eq_some_of_array noMap size ascending).mpr ⟨member, rfl⟩⟩
      · rintro ⟨keyChar, segment, found⟩
        exact ⟨segment,
          ((child_eq_some_of_array noMap size ascending).mp found).1⟩
  | inMap segmentMap keys noArray map named domain size many =>
      rw [size, Finset.card_pos, Finset.Nonempty]
      refine exists_congr fun keyChar => ?_
      rw [domain, Option.isSome_iff_exists, child_of_map noArray map]

/-- One child of a node has changed or is new, and nothing else. -/
structure Grown (before : DictSegment) (keyChar : UInt16)
    (ds grown : DictSegment) : Prop where
  kept : Kept grown
  child : ∀ other, grown.child other =
    if other = keyChar then some ds else before.child other
  nodeState : grown.nodeState = before.nodeState
  nodeChar : grown.nodeChar = before.nodeChar

section Store

variable {childrenMap : Option (UInt16 → Option DictSegment)}
  {childrenArray : Option (List DictSegment)} {storeSize : Nat}

@[simp]
theorem childrenMap_store :
    (self.store childrenMap childrenArray storeSize).childrenMap =
      childrenMap := by
  cases self
  rfl

@[simp]
theorem childrenArray_store :
    (self.store childrenMap childrenArray storeSize).childrenArray =
      childrenArray := by
  cases self
  rfl

@[simp]
theorem storeSize_store :
    (self.store childrenMap childrenArray storeSize).storeSize =
      storeSize := by
  cases self
  rfl

@[simp]
theorem nodeState_store :
    (self.store childrenMap childrenArray storeSize).nodeState =
      self.nodeState := by
  cases self
  rfl

@[simp]
theorem nodeChar_store :
    (self.store childrenMap childrenArray storeSize).nodeChar =
      self.nodeChar := by
  cases self
  rfl

end Store

/-- A node with an ascending array of segments. -/
theorem grown_of_array {segmentArray : List DictSegment} {grown : DictSegment}
    (noMap : grown.childrenMap = none)
    (array : grown.childrenArray = some segmentArray)
    (size : grown.storeSize = segmentArray.length)
    (few : segmentArray.length ≤ arrayLengthLimit)
    (ascending : Ascending segmentArray)
    (member : ∀ segment, segment ∈ segmentArray ↔
      segment = ds ∨
        segment.nodeChar ≠ ds.nodeChar ∧
          self.child segment.nodeChar = some segment)
    (nodeState : grown.nodeState = self.nodeState)
    (nodeChar : grown.nodeChar = self.nodeChar)
    (kept : Kept self) : Grown self ds.nodeChar ds grown where
  kept := .inArray noMap (by rw [array, size]; rfl) (by rwa [size])
    (by rwa [array])
  child := by
    intro other
    refine Option.ext fun segment => ?_
    rw [child_eq_some_of_array noMap (by rw [array, size]; rfl)
      (by rwa [array]), array, Option.getD_some, member]
    split_ifs with same
    · rw [same, Option.some.injEq]
      constructor
      · rintro ⟨rfl | ⟨differs, -⟩, equal⟩
        · rfl
        · exact absurd equal differs
      · rintro rfl
        exact ⟨.inl rfl, rfl⟩
    · constructor
      · rintro ⟨rfl | ⟨-, found⟩, rfl⟩
        · exact absurd rfl same
        · exact found
      · intro found
        have equal := kept.nodeChar found
        rw [equal]
        exact ⟨.inr ⟨same, found⟩, rfl⟩
  nodeState := nodeState
  nodeChar := nodeChar

/-- A node with a map of segments. -/
theorem grown_of_put {segmentMap : UInt16 → Option DictSegment}
    {grown : DictSegment} {keys : Finset UInt16}
    (noArray : grown.childrenArray = none)
    (map : grown.childrenMap = some (put segmentMap ds.nodeChar ds))
    (before : ∀ keyChar, segmentMap keyChar = self.child keyChar)
    (domain : ∀ keyChar, keyChar ∈ keys ↔ (segmentMap keyChar).isSome)
    (size : grown.storeSize = (insert ds.nodeChar keys).card)
    (many : arrayLengthLimit < grown.storeSize)
    (nodeState : grown.nodeState = self.nodeState)
    (nodeChar : grown.nodeChar = self.nodeChar)
    (kept : Kept self) : Grown self ds.nodeChar ds grown where
  kept := by
    refine .inMap _ (insert ds.nodeChar keys) noArray map ?_ ?_ size many
    · intro keyChar segment found
      by_cases same : keyChar = ds.nodeChar
      · rw [same, put, Function.update_self] at found
        rw [same, Option.some.inj found]
      · rw [put, Function.update_of_ne same, before] at found
        exact kept.nodeChar found
    · intro keyChar
      by_cases same : keyChar = ds.nodeChar
      · simp [same, put]
      · simp [same, put, domain]
  child := by
    intro other
    rw [child_of_map noArray map, put, Function.update_apply, before]
  nodeState := nodeState
  nodeChar := nodeChar

/-- The child of a node is exchanged. -/
theorem Kept.replace {old : DictSegment} (kept : Kept self)
    (has : self.child ds.nodeChar = some old) :
    Grown self ds.nodeChar ds (self.replace ds.nodeChar ds) := by
  cases kept with
  | inArray noMap size few ascending =>
      have kept : Kept self := .inArray noMap size few ascending
      have found := fun {keyChar ds} =>
        @child_eq_some_of_array self ds keyChar noMap size ascending
      cases array : self.childrenArray with
      | none =>
          rw [found, array] at has
          exact (List.not_mem_nil has.1).elim
      | some segmentArray =>
          rw [array, Option.getD_some] at size ascending
          simp only [array, Option.getD_some] at found
          have same : self.replace ds.nodeChar ds =
              self.store self.childrenMap
                (some (segmentArray.map fun segment =>
                  if segment.nodeChar = ds.nodeChar then ds else segment))
                self.storeSize := by
            rw [DictSegment.replace, array]
          rw [same]
          refine grown_of_array (childrenMap_store.trans noMap)
            childrenArray_store (by simp [size])
            (by rwa [List.length_map, ← size]) ?_ ?_ (by simp) (by simp) kept
          · refine List.pairwise_map.mpr (List.Pairwise.imp ?_ ascending)
            intro left right less
            split_ifs with first second second
            · rw [first, second] at less
              exact absurd less (Nat.lt_irrefl _)
            · rwa [← first]
            · rwa [← second]
            · exact less
          · intro segment
            rw [List.mem_map, found]
            constructor
            · rintro ⟨original, member, rfl⟩
              split_ifs with equal
              · exact .inl rfl
              · exact .inr ⟨equal, member, rfl⟩
            · rintro (rfl | ⟨differs, member, -⟩)
              · exact ⟨old, (found.mp has).1, if_pos (found.mp has).2⟩
              · exact ⟨segment, member, if_neg differs⟩
  | inMap segmentMap keys noArray map isNamed domain size many =>
      have inside : ds.nodeChar ∈ keys := by
        rw [domain, ← child_of_map noArray map, has]
        rfl
      have same : self.replace ds.nodeChar ds =
          self.store (some (put segmentMap ds.nodeChar ds)) none
            self.storeSize := by
        rw [DictSegment.replace, noArray, map]
        rfl
      rw [same]
      refine grown_of_put (by simp) (by simp)
        (fun _ => (child_of_map noArray map).symm) domain ?_ ?_ (by simp)
        (by simp) (.inMap segmentMap keys noArray map isNamed domain size many)
      · simp [Finset.insert_eq_of_mem inside, size]
      · simpa using many

/-- The segments of an ascending array are migrated under their
characters. -/
theorem migrate_eq_some (ascending : Ascending segments)
    (segmentMap : UInt16 → Option DictSegment) :
    migrate segments segmentMap keyChar = some ds ↔
      (ds ∈ segments ∧ ds.nodeChar = keyChar) ∨
        (∀ segment ∈ segments, segment.nodeChar ≠ keyChar) ∧
          segmentMap keyChar = some ds := by
  induction segments generalizing segmentMap with
  | nil => simp [migrate]
  | cons first segments induction =>
      obtain ⟨less, later⟩ := List.pairwise_cons.mp ascending
      have step := induction later (put segmentMap first.nodeChar first)
      rw [migrate] at step
      rw [migrate, List.foldl_cons, step]
      by_cases same : keyChar = first.nodeChar
      · have others : ∀ segment ∈ segments, segment.nodeChar ≠ keyChar := by
          intro segment member equal
          have greater := less segment member
          rw [equal, same] at greater
          exact Nat.lt_irrefl _ greater
        have noOther : ¬ (ds ∈ segments ∧ ds.nodeChar = keyChar) :=
          fun inside => others ds inside.1 inside.2
        rw [same, put, Function.update_self] at *
        constructor
        · rintro (inside | ⟨-, equal⟩)
          · exact absurd inside noOther
          · cases equal
            exact .inl ⟨List.mem_cons_self, rfl⟩
        · rintro (⟨member, named⟩ | ⟨differs, -⟩)
          · rcases List.mem_cons.mp member with rfl | inside
            · exact .inr ⟨others, rfl⟩
            · exact .inl ⟨inside, named⟩
          · exact absurd rfl (differs first List.mem_cons_self)
      · have differs : first.nodeChar ≠ keyChar := fun equal => same equal.symm
        rw [put, Function.update_of_ne same, List.forall_mem_cons,
          List.mem_cons]
        constructor
        · rintro (⟨inside, named⟩ | ⟨others, found⟩)
          · exact .inl ⟨.inr inside, named⟩
          · exact .inr ⟨⟨differs, others⟩, found⟩
        · rintro (⟨rfl | inside, named⟩ | ⟨⟨-, others⟩, found⟩)
          · exact absurd named differs
          · exact .inl ⟨inside, named⟩
          · exact .inr ⟨others, found⟩

/-- A sorted array with a new character is ascending. -/
theorem ascending_sort (ascending : Ascending segments)
    (absent : ∀ segment ∈ segments, segment.nodeChar ≠ ds.nodeChar) :
    Ascending (sort (segments ++ [ds])) := by
  have ordered : (sort (segments ++ [ds])).Pairwise fun left right =>
      left.nodeChar.toNat ≤ right.nodeChar.toNat := by
    refine List.Pairwise.imp (fun less => by simpa using less)
      (List.pairwise_mergeSort ?_ ?_ (segments ++ [ds]))
    · intro first second third before behind
      simp only [decide_eq_true_eq] at before behind ⊢
      exact before.trans behind
    · intro first second
      simpa using Nat.le_total first.nodeChar.toNat second.nodeChar.toNat
  have distinct : (sort (segments ++ [ds])).Pairwise fun left right =>
      left.nodeChar ≠ right.nodeChar := by
    rw [sort, (List.mergeSort_perm _ _).pairwise_iff Ne.symm,
      List.pairwise_append]
    refine ⟨List.Pairwise.imp ?_ ascending, List.pairwise_singleton _ _, ?_⟩
    · intro left right less equal
      rw [equal] at less
      exact Nat.lt_irrefl _ less
    · intro segment member last isLast
      rw [List.mem_singleton.mp isLast]
      exact absent segment member
  refine List.Pairwise.imp ?_ (ordered.and distinct)
  rintro left right ⟨less, differs⟩
  exact Nat.lt_of_le_of_ne less fun equal =>
    differs (UInt16.toNat_inj.mp equal)

/-! ## Looking for a segment -/

/-- The array is searched for what is a child. -/
theorem searchArray_eq_child (noMap : self.childrenMap = none)
    (size : self.storeSize = (self.childrenArray.getD []).length)
    (ascending : Ascending (self.childrenArray.getD [])) :
    searchArray (self.childrenArray.getD []) self.storeSize keyChar =
      self.child keyChar := by
  refine Option.ext fun segment => ?_
  rw [child_eq_some_of_array noMap size ascending, size]
  exact searchArray_eq_some ascending

/-- A segment that is there, or that is not to be created. -/
theorem Kept.lookforSegment_same (kept : Kept self) {create : Bool}
    (there : create = false ∨ (self.child keyChar).isSome) :
    ∃ same, self.lookforSegment keyChar create =
        (same, self.child keyChar) ∧ Kept same ∧
      (∀ other, same.child other = self.child other) ∧
      same.nodeState = self.nodeState ∧ same.nodeChar = self.nodeChar := by
  cases kept with
  | inArray noMap size few ascending =>
      have found := fun {keyChar} =>
        @searchArray_eq_child self keyChar noMap size ascending
      refine ⟨self.store self.childrenMap
        (some (self.childrenArray.getD [])) self.storeSize, ?_, ?_, ?_,
        nodeState_store, nodeChar_store⟩
      · rw [lookforSegment, if_pos few]
        simp only [found]
        cases has : self.child keyChar with
        | some segment => rfl
        | none =>
            rcases there with rfl | isSome
            · rfl
            · simp [has] at isSome
      · exact .inArray (by simp [noMap]) (by simp [size])
          (by simpa using few) (by simpa using ascending)
      · intro other
        rw [← found, child, childrenArray_store, storeSize_store]
  | inMap segmentMap keys noArray map named domain size many =>
      have found := fun {keyChar} =>
        @child_of_map self keyChar segmentMap noArray map
      refine ⟨self.store (some segmentMap) none self.storeSize, ?_, ?_, ?_,
        nodeState_store, nodeChar_store⟩
      · rw [lookforSegment, if_neg (Nat.not_le_of_lt many), map, noArray,
          found]
        rw [found] at there
        simp only [Option.getD_some]
        cases has : segmentMap keyChar with
        | some segment => rfl
        | none =>
            rcases there with rfl | isSome
            · rfl
            · simp [has] at isSome
      · exact .inMap segmentMap keys (by simp) (by simp) named domain
          (by simpa using size) (by simpa using many)
      · intro other
        rw [found, child, childrenArray_store, childrenMap_store]
        rfl

/-- A segment that is created. -/
theorem Kept.lookforSegment_new (kept : Kept self)
    (absent : self.child keyChar = none) :
    ∃ grown, self.lookforSegment keyChar true = (grown, some (new keyChar)) ∧
      Grown self keyChar (new keyChar) grown := by
  have isNew : (new keyChar).nodeChar = keyChar := rfl
  cases kept with
  | inArray noMap size few ascending =>
      have kept : Kept self := .inArray noMap size few ascending
      have found := fun {keyChar ds} =>
        @child_eq_some_of_array self ds keyChar noMap size ascending
      have others : ∀ segment ∈ self.childrenArray.getD [],
          segment.nodeChar ≠ (new keyChar).nodeChar := by
        intro segment member equal
        have there := found.mpr ⟨member, equal⟩
        rw [isNew, absent] at there
        cases there
      rw [lookforSegment, if_pos few]
      simp only [searchArray_eq_child noMap size ascending, absent, if_true]
      by_cases room : self.storeSize < arrayLengthLimit
      · rw [if_pos room]
        refine ⟨_, rfl, ?_⟩
        have length : (sort (self.childrenArray.getD [] ++
            [new keyChar])).length = self.storeSize + 1 := by
          rw [sort, List.length_mergeSort, List.length_append, size]
          rfl
        change Grown self (new keyChar).nodeChar (new keyChar) _
        refine grown_of_array (childrenMap_store.trans noMap)
          childrenArray_store
          (storeSize_store.trans length.symm) (length.trans_le room)
          (ascending_sort ascending others) ?_ nodeState_store nodeChar_store
          kept
        intro segment
        rw [sort, (List.mergeSort_perm _ _).mem_iff, List.mem_append,
          List.mem_singleton, found, or_comm]
        refine or_congr_right ?_
        constructor
        · exact fun member => ⟨others segment member, member, rfl⟩
        · exact fun there => there.2.1
      · rw [if_neg room]
        refine ⟨_, rfl, ?_⟩
        have full : self.storeSize = arrayLengthLimit :=
          Nat.le_antisymm few (Nat.le_of_not_lt room)
        have before : ∀ other, migrate (self.childrenArray.getD [])
            (self.childrenMap.getD fun _ => none) other =
              self.child other := by
          intro other
          refine Option.ext fun segment => ?_
          rw [migrate_eq_some ascending, found, noMap]
          simp
        have domain : ∀ other,
            other ∈ ((self.childrenArray.getD []).map
                DictSegment.nodeChar).toFinset ↔
              (migrate (self.childrenArray.getD [])
                (self.childrenMap.getD fun _ => none) other).isSome := by
          intro other
          rw [before, Option.isSome_iff_exists, List.mem_toFinset,
            List.mem_map]
          exact exists_congr fun segment => found.symm
        change Grown self (new keyChar).nodeChar (new keyChar) _
        refine grown_of_put childrenArray_store childrenMap_store before
          domain ?_ ?_ nodeState_store nodeChar_store kept
        · have distinct : ((self.childrenArray.getD []).map
              DictSegment.nodeChar).Nodup := by
            refine List.pairwise_map.mpr (List.Pairwise.imp ?_ ascending)
            intro left right less equal
            rw [equal] at less
            exact Nat.lt_irrefl _ less
          rw [storeSize_store, Finset.card_insert_of_notMem,
            List.toFinset_card_of_nodup distinct, List.length_map, size]
          rw [List.mem_toFinset, List.mem_map]
          rintro ⟨segment, member, equal⟩
          exact others segment member equal
        · rw [storeSize_store, full]
          exact Nat.lt_succ_self _
  | inMap segmentMap keys noArray map named domain size many =>
      have found := fun {keyChar} =>
        @child_of_map self keyChar segmentMap noArray map
      rw [lookforSegment, if_neg (Nat.not_le_of_lt many), map, noArray]
      simp only [Option.getD_some, ← found, absent, if_true]
      refine ⟨_, rfl, ?_⟩
      have outside : keyChar ∉ keys := by
        rw [domain, ← found, absent]
        simp
      change Grown self (new keyChar).nodeChar (new keyChar) _
      refine grown_of_put childrenArray_store childrenMap_store
        (fun _ => found.symm) domain ?_ ?_ nodeState_store nodeChar_store
        (.inMap segmentMap keys noArray map named domain size many)
      · rw [storeSize_store, isNew, Finset.card_insert_of_notMem outside, size]
      · rw [storeSize_store]
        exact Nat.lt_succ_of_lt many

/-! ## Filling in a word -/

section SetState

variable {enabled : Bool}

theorem child_setState :
    (ds.setState enabled).child keyChar = ds.child keyChar := by
  cases ds
  rfl

theorem nodeState_setState : (ds.setState enabled).nodeState = enabled := by
  cases ds
  rfl

theorem nodeChar_setState : (ds.setState enabled).nodeChar = ds.nodeChar := by
  cases ds
  rfl

theorem Kept.setState (kept : Kept ds) : Kept (ds.setState enabled) := by
  cases ds
  cases kept with
  | inArray noMap size few ascending =>
      exact .inArray noMap size few ascending
  | inMap segmentMap keys noArray map named domain size many =>
      exact .inMap segmentMap keys noArray map named domain size many

end SetState

/-- What `fillSegment` makes of the segment that it has found. -/
def inner (enabled : Bool) (rest : List UInt16) (ds : DictSegment) :
    DictSegment :=
  match rest with
  | [] => ds.setState enabled
  | next :: rest => fillSegment enabled next rest ds

theorem Grown.trans {grown last : DictSegment} {first second : DictSegment}
    (one : Grown self keyChar first grown)
    (two : Grown grown keyChar second last) :
    Grown self keyChar second last where
  kept := two.kept
  child other := by
    rw [two.child, one.child]
    split_ifs <;> rfl
  nodeState := two.nodeState.trans one.nodeState
  nodeChar := two.nodeChar.trans one.nodeChar

/-- A segment that is there is changed, when a word is filled in and when it
is disabled. -/
theorem fillSegment_there {enabled : Bool} (kept : Kept self)
    (has : self.child keyChar = some ds)
    (named : (inner enabled rest ds).nodeChar = ds.nodeChar) :
    Grown self keyChar (inner enabled rest ds)
      (fillSegment enabled keyChar rest self) := by
  have isNamed := named.trans (kept.nodeChar has)
  obtain ⟨same, found, keeps, children, state, char⟩ :=
    @Kept.lookforSegment_same self keyChar kept enabled
      (.inr (by rw [has]; rfl))
  rw [has] at found
  have filled : fillSegment enabled keyChar rest self =
      same.replace keyChar (inner enabled rest ds) := by
    rw [fillSegment, found]
    rfl
  have exchanged := @Kept.replace same (inner enabled rest ds) ds keeps
    (by rw [children, isNamed, has])
  rw [isNamed] at exchanged
  rw [filled]
  exact ⟨exchanged.kept, fun other => by rw [exchanged.child, children],
    exchanged.nodeState.trans state, exchanged.nodeChar.trans char⟩

/-- A segment that is missing is created when a word is filled in. -/
theorem fillSegment_missing (kept : Kept self)
    (absent : self.child keyChar = none)
    (named : (inner true rest (new keyChar)).nodeChar = keyChar) :
    Grown self keyChar (inner true rest (new keyChar))
      (fillSegment true keyChar rest self) := by
  obtain ⟨grown, found, created⟩ := kept.lookforSegment_new absent
  have filled : fillSegment true keyChar rest self =
      grown.replace keyChar (inner true rest (new keyChar)) := by
    rw [fillSegment, found]
    rfl
  have exchanged := @Kept.replace grown (inner true rest (new keyChar))
    (new keyChar) created.kept (by rw [named, created.child, if_pos rfl])
  rw [named] at exchanged
  rw [filled]
  exact created.trans exchanged

/-- Every node of a tree is kept well. -/
inductive Ok : DictSegment → Prop
  | intro {self : DictSegment} (kept : Kept self)
      (below : ∀ {keyChar ds}, self.child keyChar = some ds → Ok ds) : Ok self

theorem Ok.kept (ok : Ok self) : Kept self := by
  cases ok
  assumption

theorem Ok.child (ok : Ok self) (found : self.child keyChar = some ds) :
    Ok ds := by
  cases ok with
  | intro kept below => exact below found

theorem ok_new : Ok (new keyChar) :=
  .intro kept_new fun found => nomatch found

/-- The state of the node at the end of a path, if it is there. -/
def stateAt : List UInt16 → DictSegment → Option Bool
  | [], self => some self.nodeState
  | keyChar :: rest, self => (self.child keyChar).bind (stateAt rest)

theorem stateAt_setState {enabled : Bool} (first : UInt16) :
    stateAt (first :: rest) (ds.setState enabled) =
      stateAt (first :: rest) ds := by
  rw [stateAt, stateAt, child_setState]

theorem Ok.setState {enabled : Bool} (ok : Ok ds) : Ok (ds.setState enabled) :=
  .intro ok.kept.setState fun found => ok.child (child_setState ▸ found)

theorem Grown.ok {grown : DictSegment} (grows : Grown self keyChar ds grown)
    (ok : Ok self) (inside : Ok ds) : Ok grown := by
  refine .intro grows.kept fun {other segment} found => ?_
  rw [grows.child] at found
  split_ifs at found with same
  · rwa [← Option.some.inj found]
  · exact ok.child found

theorem Grown.stateAt_cons {grown : DictSegment}
    (grows : Grown self keyChar ds grown) (first : UInt16) :
    stateAt (first :: rest) grown =
      if first = keyChar then stateAt rest ds
      else stateAt (first :: rest) self := by
  rw [stateAt, grows.child]
  split_ifs <;> rfl

theorem stateAt_new (first : UInt16) :
    stateAt (first :: rest) (new keyChar) = none :=
  rfl

/-- A node of which nothing can be told apart from another one. -/
theorem stateAt_congr {same : DictSegment}
    (children : ∀ other, same.child other = self.child other)
    (state : same.nodeState = self.nodeState) (path : List UInt16) :
    stateAt path same = stateAt path self := by
  cases path with
  | nil => rw [stateAt, stateAt, state]
  | cons first path => rw [stateAt, stateAt, children]

/-- The segment at a character, or a new one. -/
def childOrNew (self : DictSegment) (keyChar : UInt16) : DictSegment :=
  (self.child keyChar).getD (new keyChar)

theorem Ok.childOrNew (ok : Ok self) : Ok (self.childOrNew keyChar) := by
  rw [DictSegment.childOrNew]
  cases found : self.child keyChar with
  | none => exact ok_new
  | some ds => exact ok.child found

theorem Kept.nodeChar_childOrNew (kept : Kept self) :
    (self.childOrNew keyChar).nodeChar = keyChar := by
  rw [childOrNew]
  cases found : self.child keyChar with
  | none => rfl
  | some ds => exact kept.nodeChar found

/-- A call that fills in a word goes through the segment of its first
character. -/
theorem fillSegment_true (kept : Kept self)
    (named : (inner true rest (self.childOrNew keyChar)).nodeChar =
      (self.childOrNew keyChar).nodeChar) :
    Grown self keyChar (inner true rest (self.childOrNew keyChar))
      (fillSegment true keyChar rest self) := by
  have isNamed := named.trans kept.nodeChar_childOrNew
  cases found : self.child keyChar with
  | none =>
      rw [childOrNew, found, Option.getD_none] at isNamed ⊢
      exact fillSegment_missing kept found isNamed
  | some ds =>
      rw [childOrNew, found, Option.getD_some] at named ⊢
      exact fillSegment_there kept found named

/-- Filling in a word makes the nodes on the way to it, and sets the state of
the last one. -/
theorem inner_true (word : List UInt16) (ok : Ok ds) :
    Ok (inner true word ds) ∧
      (inner true word ds).nodeChar = ds.nodeChar ∧
      ∀ path, stateAt path (inner true word ds) =
        if path = word then some true
        else if path <+: word then some ((stateAt path ds).getD false)
        else stateAt path ds := by
  induction word generalizing ds with
  | nil =>
      refine ⟨ok.setState, nodeChar_setState, ?_⟩
      intro path
      cases path with
      | nil => rw [if_pos rfl, inner, stateAt, nodeState_setState]
      | cons first path => simp [inner, stateAt_setState]
  | cons keyChar rest induction =>
      obtain ⟨inside, named, states⟩ :=
        induction (@Ok.childOrNew ds keyChar ok)
      have grows := fillSegment_true ok.kept named
      refine ⟨grows.ok ok inside, grows.nodeChar, ?_⟩
      intro path
      rw [inner]
      cases path with
      | nil => simp [stateAt, grows.nodeState]
      | cons first path =>
          rw [grows.stateAt_cons, states]
          by_cases same : first = keyChar
          · have whole : stateAt (keyChar :: path) ds =
                (ds.child keyChar).bind (stateAt path) := rfl
            rw [if_pos same, same, whole, childOrNew]
            cases found : ds.child keyChar with
            | some segment => simp
            | none =>
                cases path with
                | nil => simp [stateAt, new, nodeState]
                | cons second path => simp [stateAt_new]
          · simp [same]

/-- Disabling a word sets the state of its node, if it is there. -/
theorem inner_false (word : List UInt16) (ok : Ok ds) :
    Ok (inner false word ds) ∧
      (inner false word ds).nodeChar = ds.nodeChar ∧
      ∀ path, stateAt path (inner false word ds) =
        if path = word then (stateAt word ds).map fun _ => false
        else stateAt path ds := by
  induction word generalizing ds with
  | nil =>
      refine ⟨ok.setState, nodeChar_setState, ?_⟩
      intro path
      cases path with
      | nil => simp [inner, stateAt, nodeState_setState]
      | cons first path => simp [inner, stateAt_setState]
  | cons keyChar rest induction =>
      cases found : ds.child keyChar with
      | none =>
          obtain ⟨same, searched, keeps, children, state, char⟩ :=
            @Kept.lookforSegment_same ds keyChar ok.kept false (.inl rfl)
          rw [found] at searched
          have filled : inner false (keyChar :: rest) ds = same := by
            rw [inner, fillSegment, searched]
          rw [filled]
          refine ⟨?_, char, ?_⟩
          · refine .intro keeps fun {other segment} there => ?_
            rw [children] at there
            exact ok.child there
          · intro path
            rw [stateAt_congr children state]
            split_ifs with last
            · rw [last, stateAt, found]
              rfl
            · rfl
      | some segment =>
          obtain ⟨inside, named, states⟩ := induction (ok.child found)
          have grows := fillSegment_there ok.kept found named
          refine ⟨grows.ok ok inside, grows.nodeChar, ?_⟩
          intro path
          rw [inner]
          cases path with
          | nil => simp [stateAt, grows.nodeState]
          | cons first path =>
              rw [grows.stateAt_cons, states]
              by_cases same : first = keyChar
              · rw [if_pos same, same, stateAt, stateAt, found]
                simp
              · simp [same]

/-! ## Sequences of calls -/

/-- A call of `fillSegment` or of `disableSegment` for a word, which is not
empty. -/
structure Call where
  enabled : Bool
  first : UInt16
  rest : List UInt16
deriving DecidableEq

def Call.word (call : Call) : List UInt16 :=
  call.first :: call.rest

/-- The tree after some calls. -/
def afterCalls (self : DictSegment) (calls : List Call) : DictSegment :=
  calls.foldl (fun self call =>
    fillSegment call.enabled call.first call.rest self) self

/-- The last call for a word filled it in. -/
def LastFilled (calls : List Call) (word : List UInt16) : Prop :=
  ∃ call, calls.reverse.find? (fun call => call.word = word) = some call ∧
    call.enabled = true

/-- The tree that `loadDict` begins with. -/
def root : DictSegment :=
  new 0

theorem lastFilled_append {calls : List Call} {call : Call}
    {word : List UInt16} :
    LastFilled (calls ++ [call]) word ↔
      if call.word = word then call.enabled = true
      else LastFilled calls word := by
  rw [LastFilled, List.reverse_append, List.reverse_singleton,
    List.singleton_append, List.find?_cons]
  split_ifs with same
  · simp [same]
  · simp only [same, decide_false]
    exact Iff.rfl

theorem exists_enabled_append {calls : List Call} {call : Call}
    {path : List UInt16} :
    (∃ other ∈ calls ++ [call], other.enabled = true ∧ path <+: other.word) ↔
      (∃ other ∈ calls, other.enabled = true ∧ path <+: other.word) ∨
        call.enabled = true ∧ path <+: call.word := by
  simp only [List.mem_append, List.mem_singleton, or_and_right, exists_or,
    exists_eq_left]

/-- What is in the tree after some calls: the nodes on the way to the words
that were filled in, and in a node whether the last call for its word filled
it in. -/
theorem stateAt_afterCalls (calls : List Call) {path : List UInt16}
    (nonempty : path ≠ []) :
    Ok (root.afterCalls calls) ∧
      (stateAt path (root.afterCalls calls) ≠ none ↔
        ∃ call ∈ calls, call.enabled = true ∧ path <+: call.word) ∧
      (stateAt path (root.afterCalls calls) = some true ↔
        LastFilled calls path) := by
  induction calls using List.reverseRecOn with
  | nil =>
      obtain ⟨first, rest, rfl⟩ := List.exists_cons_of_ne_nil nonempty
      refine ⟨ok_new, ?_, ?_⟩
      · simp [afterCalls, root, stateAt_new]
      · simp [afterCalls, root, stateAt_new, LastFilled]
  | append_singleton calls call induction =>
      obtain ⟨ok, there, filled⟩ := induction
      have step : root.afterCalls (calls ++ [call]) =
          inner call.enabled call.word (root.afterCalls calls) := by
        rw [afterCalls, List.foldl_append]
        rfl
      rw [step, exists_enabled_append, lastFilled_append, ← there]
      cases enabled : call.enabled with
      | true =>
          obtain ⟨keeps, -, states⟩ := inner_true call.word ok
          refine ⟨keeps, ?_, ?_⟩
          · rw [states]
            split_ifs with last onTheWay
            · simp [last]
            · simp [onTheWay]
            · simp [onTheWay]
          · rw [states]
            by_cases last : path = call.word
            · simp [last]
            · have differs : ¬ call.word = path := fun equal => last equal.symm
              rw [if_neg last, if_neg differs, ← filled]
              split_ifs with onTheWay
              · cases stateAt path (root.afterCalls calls) <;> simp
              · exact Iff.rfl
      | false =>
          obtain ⟨keeps, -, states⟩ := inner_false call.word ok
          refine ⟨keeps, ?_, ?_⟩
          · rw [states]
            split_ifs with last
            · rw [last]
              cases stateAt call.word (root.afterCalls calls) <;> simp
            · simp
          · rw [states]
            by_cases last : path = call.word
            · rw [if_pos last, if_pos last.symm]
              cases stateAt call.word (root.afterCalls calls) <;> simp
            · have differs : ¬ call.word = path := fun equal => last equal.symm
              rw [if_neg last, if_neg differs, ← filled]

/-! ## What `match` answers -/

theorem matchSegment_eq (ok : Ok self) :
    ((matchSegment keyChar rest self).isMatch = true ↔
        stateAt (keyChar :: rest) self = some true) ∧
      ((matchSegment keyChar rest self).isPrefix = true ↔
        ∃ next, stateAt (keyChar :: rest ++ [next]) self ≠ none) := by
  induction rest generalizing keyChar self with
  | nil =>
      rw [matchSegment]
      simp only [stateAt, List.cons_append, List.nil_append]
      cases found : self.child keyChar with
      | none => simp
      | some ds =>
          refine ⟨by simp, ?_⟩
          simp only [Option.bind_some]
          rw [(ok.child found).kept.hasNextNode_iff]
          refine exists_congr fun next => ?_
          cases ds.child next <;> simp
  | cons second rest induction =>
      rw [matchSegment]
      simp only [stateAt, List.cons_append]
      cases found : self.child keyChar with
      | none => simp
      | some ds =>
          obtain ⟨matched, isPrefix⟩ :=
            @induction ds second (ok.child found)
          exact ⟨matched, isPrefix⟩

theorem isMatch_afterCalls (calls : List Call) (first : UInt16)
    (rest : List UInt16) :
    (matchSegment first rest (root.afterCalls calls)).isMatch = true ↔
      LastFilled calls (first :: rest) := by
  obtain ⟨ok, -, filled⟩ :=
    stateAt_afterCalls calls (List.cons_ne_nil first rest)
  exact (matchSegment_eq ok).1.trans filled

theorem isPrefix_afterCalls (calls : List Call) (first : UInt16)
    (rest : List UInt16) :
    (matchSegment first rest (root.afterCalls calls)).isPrefix = true ↔
      ∃ call ∈ calls, call.enabled = true ∧
        first :: rest <+: call.word ∧ first :: rest ≠ call.word := by
  obtain ⟨ok, -, -⟩ :=
    stateAt_afterCalls calls (List.cons_ne_nil first rest)
  rw [(matchSegment_eq ok).2]
  constructor
  · rintro ⟨next, there⟩
    obtain ⟨call, member, enabled, longer⟩ :=
      (stateAt_afterCalls calls (by simp)).2.1.mp there
    refine ⟨call, member, enabled, ?_, ?_⟩
    · exact (List.prefix_append _ _).trans longer
    · intro equal
      have length := longer.length_le
      rw [← equal, List.length_append, List.length_singleton] at length
      omega
  · rintro ⟨call, member, enabled, ⟨behind, whole⟩, differs⟩
    have more : behind ≠ [] := by
      rintro rfl
      rw [List.append_nil] at whole
      exact differs whole
    obtain ⟨next, further, rfl⟩ := List.exists_cons_of_ne_nil more
    refine ⟨next, (stateAt_afterCalls calls (by simp)).2.1.mpr
      ⟨call, member, enabled, further, ?_⟩⟩
    rw [← whole, List.append_assoc, List.singleton_append]

/-- After any sequence of calls a text is matched exactly when the last call
for it filled it in, and it is a prefix exactly when a longer word that begins
with it was ever filled in; disabling a word does not change what is a
prefix. -/
theorem matchSegment_afterCalls (calls : List Call) (first : UInt16)
    (rest : List UInt16) :
    ((matchSegment first rest (root.afterCalls calls)).isMatch = true ↔
        LastFilled calls (first :: rest)) ∧
      ((matchSegment first rest (root.afterCalls calls)).isPrefix = true ↔
        ∃ call ∈ calls, call.enabled = true ∧
          first :: rest <+: call.word ∧ first :: rest ≠ call.word) :=
  ⟨isMatch_afterCalls calls first rest, isPrefix_afterCalls calls first rest⟩

/-- If no word was disabled, the words are those that were filled in. -/
theorem lastFilled_of_enabled {calls : List Call} {word : List UInt16}
    (enabled : ∀ call ∈ calls, call.enabled = true) :
    LastFilled calls word ↔ ∃ call ∈ calls, call.word = word := by
  constructor
  · rintro ⟨call, found, -⟩
    have same := List.find?_some found
    exact ⟨call, List.mem_reverse.mp (List.mem_of_find?_eq_some found),
      by simpa using same⟩
  · rintro ⟨call, member, same⟩
    have there : (calls.reverse.find? fun call => call.word = word).isSome := by
      rw [List.find?_isSome]
      exact ⟨call, List.mem_reverse.mpr member, decide_eq_true same⟩
    obtain ⟨last, found⟩ := Option.isSome_iff_exists.mp there
    exact ⟨last, found,
      enabled last (List.mem_reverse.mp (List.mem_of_find?_eq_some found))⟩

end DictSegment

end WindowSystem.Jieba
