import Mathlib.Data.List.Pairwise
import WindowSystem.Library.IntervalSearch

/-!
# Tables of ranges

The entries of a table are ranges from a first to a last key.  Where no two of
them share a key, at most one contains a given key; a scan finds it in any
order of the entries, and halving finds it when they are in the order of their
first keys.
-/

namespace WindowSystem.Library.RangeTable

open WindowSystem.Library.IntervalSearch

variable {ν κ : Type*} [LinearOrder κ] (first last : ν → κ)

/-- The key lies in the range of an entry. -/
def Contains (node : ν) (key : κ) : Prop :=
  first node ≤ key ∧ key ≤ last node

instance (node : ν) (key : κ) : Decidable (Contains first last node key) :=
  inferInstanceAs (Decidable (_ ∧ _))

/-- Ranges no two of which share a key. -/
structure DisjointRanges (nodes : List ν) : Prop where
  ranges : ∀ node ∈ nodes, first node ≤ last node
  apart : nodes.Pairwise fun node other =>
    ∀ key, ¬ (Contains first last node key ∧ Contains first last other key)

/-- The first entry that contains a key. -/
def scan (nodes : List ν) (key : κ) : Option ν :=
  nodes.find? fun node => Contains first last node key

/-- Where a key lies, seen from an entry. -/
def verdict (nodes : List ν) (key : κ) (index : Nat) : Ordering :=
  match nodes[index]? with
  | none => .lt
  | some node =>
      if Contains first last node key then .eq
      else if key < first node then .lt
      else .gt

variable {first last} {nodes others : List ν} {key : κ} {index later : Nat}

/-! ## Scans -/

theorem DisjointRanges.perm (table : DisjointRanges first last nodes)
    (same : nodes.Perm others) : DisjointRanges first last others where
  ranges node member := table.ranges node (same.mem_iff.mpr member)
  apart := table.apart.perm same fun apart key both => apart key both.symm

/-- At most one entry contains a key. -/
theorem DisjointRanges.unique (table : DisjointRanges first last nodes)
    {node other : ν} (member : node ∈ nodes) (member' : other ∈ nodes)
    (contains : Contains first last node key)
    (contains' : Contains first last other key) : node = other := by
  have : Std.Symm fun node other : ν =>
      ∀ key, ¬ (Contains first last node key ∧
        Contains first last other key) :=
    ⟨fun _ _ apart key both => apart key both.symm⟩
  by_contra different
  exact table.apart.forall member member' different key
    ⟨contains, contains'⟩

theorem scan_eq_some_iff (table : DisjointRanges first last nodes) {node : ν} :
    scan first last nodes key = some node ↔
      node ∈ nodes ∧ Contains first last node key := by
  constructor
  · intro found
    exact ⟨List.mem_of_find?_eq_some found,
      of_decide_eq_true (List.find?_eq_some_iff_append.mp found).1⟩
  · rintro ⟨member, contains⟩
    cases found : scan first last nodes key with
    | none =>
        exact absurd (decide_eq_true contains)
          (List.find?_eq_none.mp found node member)
    | some other =>
        have contains' := of_decide_eq_true
          (List.find?_eq_some_iff_append.mp found).1
        rw [table.unique member (List.mem_of_find?_eq_some found) contains
          contains']

theorem scan_eq_none_iff :
    scan first last nodes key = none ↔
      ∀ node ∈ nodes, ¬ Contains first last node key := by
  rw [scan, List.find?_eq_none]
  simp only [decide_eq_true_eq]

theorem scan_perm (table : DisjointRanges first last nodes)
    (same : nodes.Perm others) :
    scan first last others key = scan first last nodes key := by
  apply Option.ext
  intro node
  rw [scan_eq_some_iff table, scan_eq_some_iff (table.perm same),
    same.mem_iff]

/-! ## Halving -/

/-- In the order of the first keys a range ends before the next one begins. -/
theorem DisjointRanges.before (table : DisjointRanges first last nodes)
    (sorted : nodes.Pairwise fun node other => first node ≤ first other)
    (inside : later < nodes.length) (earlier : index < later) :
    last nodes[index] < first nodes[later] := by
  have ordered := List.pairwise_iff_getElem.mp sorted index later
    (by omega) inside earlier
  have apart := List.pairwise_iff_getElem.mp table.apart index later
    (by omega) inside earlier (first nodes[later])
  have range := table.ranges nodes[later] (List.getElem_mem inside)
  by_contra reaches
  exact apart ⟨⟨ordered, not_lt.mp reaches⟩, ⟨le_rfl, range⟩⟩

theorem verdict_eq_iff (inside : index < nodes.length) :
    verdict first last nodes key index = .eq ↔
      Contains first last nodes[index] key := by
  rw [verdict, List.getElem?_eq_getElem inside]
  dsimp only
  split_ifs with contains front
  · simp [contains]
  · simp [contains]
  · simp [contains]

theorem verdict_lt_iff (inside : index < nodes.length) :
    verdict first last nodes key index = .lt ↔
      key < first nodes[index] := by
  rw [verdict, List.getElem?_eq_getElem inside]
  dsimp only
  split_ifs with contains front
  · simp [not_lt.mpr contains.1]
  · simp [front]
  · simp [front]

theorem verdict_gt_iff (table : DisjointRanges first last nodes)
    (inside : index < nodes.length) :
    verdict first last nodes key index = .gt ↔
      last nodes[index] < key := by
  have range := table.ranges nodes[index] (List.getElem_mem inside)
  rw [verdict, List.getElem?_eq_getElem inside]
  dsimp only
  split_ifs with contains front
  · simp [not_lt.mpr contains.2]
  · simp [not_lt.mpr (front.le.trans range)]
  · have behind : last nodes[index] < key := by
      by_contra notBehind
      exact contains ⟨not_lt.mp front, not_lt.mp notBehind⟩
    simp [behind]

/-- The verdicts agree with the order of the entries. -/
theorem directed_verdict (table : DisjointRanges first last nodes)
    (sorted : nodes.Pairwise fun node other => first node ≤ first other) :
    Directed (verdict first last nodes key) nodes.length := by
  constructor
  case left =>
    intro index later ordered inside left
    rcases Nat.eq_or_lt_of_le ordered with rfl | earlier
    · exact left
    · rw [verdict_lt_iff (by omega)] at left
      rw [verdict_lt_iff inside]
      have range := table.ranges nodes[index] (List.getElem_mem _)
      exact (left.trans_le range).trans (table.before sorted inside earlier)
  case right =>
    intro index later ordered inside right
    rcases Nat.eq_or_lt_of_le ordered with rfl | earlier
    · exact right
    · rw [verdict_gt_iff table inside] at right
      rw [verdict_gt_iff table (by omega)]
      have range := table.ranges nodes[later] (List.getElem_mem _)
      exact (table.before sorted inside earlier).trans (range.trans_lt right)

/-- Halving finds the entry that a scan finds. -/
theorem search_eq_scan (table : DisjointRanges first last nodes)
    (sorted : nodes.Pairwise fun node other => first node ≤ first other) :
    (search (verdict first last nodes key) 0 nodes.length).bind
        (fun index => nodes[index]?) = scan first last nodes key := by
  cases found : search (verdict first last nodes key) 0 nodes.length with
  | none =>
      have nowhere := (search_eq_none_iff
        (directed_verdict table sorted) le_rfl).mp found
      symm
      apply scan_eq_none_iff.mpr
      intro node member contains
      obtain ⟨index, inside, rfl⟩ := List.getElem_of_mem member
      exact nowhere index (Nat.zero_le _) inside
        ((verdict_eq_iff inside).mpr contains)
  | some index =>
      obtain ⟨-, inside, here⟩ := search_sound found
      rw [Option.bind_some, List.getElem?_eq_getElem inside]
      exact ((scan_eq_some_iff table).mpr ⟨List.getElem_mem inside,
        (verdict_eq_iff inside).mp here⟩).symm

end WindowSystem.Library.RangeTable
