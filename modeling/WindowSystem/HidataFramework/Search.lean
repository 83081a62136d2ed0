import Mathlib.Data.Int.Order.Basic
import Mathlib.Order.Compare
import WindowSystem.Library.IntervalSearch

/-!
# `Search`: the generic binary search

`binarySearch` halves the interval from `low` to `high` of a sorted array.  The
sum of the two bounds is computed in 32 bits and divided by two afterwards, so
an index from `2 ^ 30` on is computed as a negative one, with which the array
cannot be read.  Which indices are probed is decided by the search of
`Library.IntervalSearch`, and so is which keys are reached without such an
index.
-/

namespace WindowSystem.HidataFramework.Search

open WindowSystem.Library.IntervalSearch

/-- A Java array, whose length is an `int`. -/
structure JavaArray (α : Type*) where
  elements : List α
  small : elements.length < 2 ^ 31

variable {α : Type*}

namespace JavaArray

/-- `data.length` -/
def length (data : JavaArray α) : Int32 :=
  Int32.ofNat data.elements.length

/-- `data[index]`, `none` when an `ArrayIndexOutOfBoundsException` is
thrown. -/
def get (data : JavaArray α) (index : Int32) : Option α :=
  if 0 ≤ index then data.elements[index.toInt.toNat]? else none

end JavaArray

variable [LinearOrder α]

/-- How a call ends. -/
inductive Outcome where
  | returned (index : Int32)
  | arrayIndexOutOfBounds (index : Int32)
deriving DecidableEq

/-- The `while` loop, for at most so many rounds. -/
def loop (data : JavaArray α) (key : α) :
    Nat → Int32 → Int32 → Option Outcome
  | 0, _, _ => none
  | rounds + 1, low, high =>
      if low ≤ high then
        let mid := (low + high) / 2
        match data.get mid with
        | none => some (.arrayIndexOutOfBounds mid)
        | some element =>
            match compare key element with
            | .lt => loop data key rounds low (mid - 1)
            | .gt => loop data key rounds (mid + 1) high
            | .eq => some (.returned mid)
      else
        some (.returned (-1))

/-- `binarySearch`, with at most so many rounds of its loop; `none` for `data`
is `null`. -/
def binarySearch (data : Option (JavaArray α)) (key : α) (rounds : Nat) :
    Option Outcome :=
  match data with
  | none => some (.returned (-1))
  | some array =>
      if array.length = 0 then some (.returned (-1))
      else loop array key rounds 0 (array.length - 1)

example : binarySearch (some ⟨[1, 4, 5, 8, 15], by decide⟩) 8 5 =
    some (.returned 3) := by
  decide

/-- The index holds the key if the key occurs, and is `-1` otherwise. -/
def Answers (data : JavaArray α) (key : α) (index : Int32) : Prop :=
  (key ∈ data.elements → data.get index = some key) ∧
    (key ∉ data.elements → index = -1)

/-- The search ends with the index it promises, and without reading outside of
the array. -/
def Finds (data : JavaArray α) (key : α) : Prop :=
  ∃ rounds index,
    binarySearch (some data) key rounds = some (.returned index) ∧
      Answers data key index

/-! ## Rounds -/

section Rounds

variable {data : JavaArray α} {key : α}

theorem loop_more {rounds : Nat} {low high : Int32} {outcome : Outcome}
    (ended : loop data key rounds low high = some outcome) (more : Nat) :
    loop data key (rounds + more) low high = some outcome := by
  induction rounds generalizing low high with
  | zero => cases ended
  | succ rounds ih =>
      rw [Nat.succ_add]
      rw [loop] at ended ⊢
      split at ended
      case isTrue ordered =>
        rw [if_pos ordered]
        dsimp only at ended ⊢
        cases read : data.get ((low + high) / 2) with
        | none =>
            rw [read] at ended
            exact ended
        | some element =>
            rw [read] at ended
            dsimp only at ended ⊢
            cases verdict : compare key element with
            | lt =>
                rw [verdict] at ended
                exact ih ended
            | gt =>
                rw [verdict] at ended
                exact ih ended
            | eq =>
                rw [verdict] at ended
                exact ended
      case isFalse crossed =>
        rw [if_neg crossed]
        exact ended

theorem loop_unique {rounds others : Nat} {low high : Int32}
    {outcome other : Outcome}
    (ended : loop data key rounds low high = some outcome)
    (endedToo : loop data key others low high = some other) :
    outcome = other := by
  have left := loop_more ended others
  have right := loop_more endedToo rounds
  rw [Nat.add_comm, right] at left
  exact (Option.some.inj left).symm

end Rounds

/-! ## The middle of the bounds -/

section Middle

variable {low stop : Nat} {lowIndex highIndex : Int32}

theorem toInt_middle (lowIs : lowIndex.toInt = low)
    (highIs : highIndex.toInt = stop - 1) (nonempty : low < stop)
    (early : middle low stop < 2 ^ 30) :
    ((lowIndex + highIndex) / 2).toInt = middle low stop := by
  unfold middle at early ⊢
  have sum : (lowIndex + highIndex).toInt = low + (stop - 1) := by
    rw [Int32.toInt_add, lowIs, highIs, Int.bmod_eq_of_le] <;> omega
  rw [Int32.toInt_div_of_ne_right _ _ (by decide), sum,
    Int.tdiv_eq_ediv_of_nonneg (by omega)]
  have two : (2 : Int32).toInt = 2 := rfl
  rw [two]
  omega

/-- The sum of the bounds wraps around. -/
theorem middle_negative (lowIs : lowIndex.toInt = low)
    (highIs : highIndex.toInt = stop - 1) (nonempty : low < stop)
    (small : stop < 2 ^ 31) (late : 2 ^ 30 ≤ middle low stop) :
    (lowIndex + highIndex) / 2 < 0 := by
  unfold middle at late
  have sum : (lowIndex + highIndex).toInt =
      -(2 ^ 32 - (low + (stop - 1)) : Int) := by
    rw [Int32.toInt_add, lowIs, highIs, Int.bmod_def, if_neg (by omega)]
    omega
  rw [Int32.lt_iff_toInt_lt, Int32.toInt_div_of_ne_right _ _ (by decide), sum,
    Int.neg_tdiv, Int.tdiv_eq_ediv_of_nonneg (by omega)]
  have two : (2 : Int32).toInt = 2 := rfl
  have zero : (0 : Int32).toInt = 0 := rfl
  rw [two, zero]
  omega

end Middle

/-! ## The loop as a search -/

section Loop

variable (data : JavaArray α) (key : α)

/-- What the comparison with an element says about the place of the key. -/
def verdict (index : Nat) : Ordering :=
  match data.elements[index]? with
  | none => .lt
  | some element => compare key element

/-- `-1` when nothing is found. -/
def indexOf : Option Nat → Int32
  | none => -1
  | some index => Int32.ofNat index

variable {data key}

omit [LinearOrder α] in
theorem get_of_toInt {index : Int32} {place : Nat}
    (is : index.toInt = place) :
    data.get index = data.elements[place]? := by
  have nonnegative : 0 ≤ index := by
    rw [Int32.le_iff_toInt_le, is]
    exact Int.natCast_nonneg place
  rw [JavaArray.get, if_pos nonnegative, is, Int.toNat_natCast]

omit [LinearOrder α] in
theorem get_of_negative {index : Int32} (negative : index < 0) :
    data.get index = none := by
  rw [JavaArray.get, if_neg (Int32.not_le.mpr negative)]

theorem directed_verdict (sorted : data.elements.Pairwise (· ≤ ·)) :
    Directed (verdict data key) data.elements.length := by
  have ordered : ∀ {index later : Nat} (inside : later < data.elements.length)
      (before : index ≤ later),
      data.elements[index] ≤ data.elements[later] := by
    intro index later inside before
    rcases Nat.eq_or_lt_of_le before with rfl | earlier
    · exact le_rfl
    · exact List.pairwise_iff_getElem.mp sorted _ _ _ inside earlier
  constructor
  case left =>
    intro index later before inside left
    rw [verdict, List.getElem?_eq_getElem (by omega)] at left
    rw [verdict, List.getElem?_eq_getElem inside]
    rw [compare_lt_iff_lt] at left ⊢
    exact left.trans_le (ordered inside before)
  case right =>
    intro index later before inside right
    rw [verdict, List.getElem?_eq_getElem inside] at right
    rw [verdict, List.getElem?_eq_getElem (by omega)]
    rw [compare_gt_iff_gt] at right ⊢
    exact (ordered inside before).trans_lt right

variable {low stop rounds : Nat} {lowIndex highIndex : Int32}

omit [LinearOrder α] in
theorem toInt_ofNat_middle (inside : stop ≤ data.elements.length)
    (nonempty : low < stop) :
    (Int32.ofNat (middle low stop)).toInt = middle low stop := by
  have small := data.small
  have := middle_lt nonempty
  exact Int32.toInt_ofNat_of_lt (by omega)

/-- One round whose middle index is computed as it is. -/
theorem loop_succ (lowIs : lowIndex.toInt = low)
    (highIs : highIndex.toInt = stop - 1) (nonempty : low < stop)
    (inside : stop ≤ data.elements.length)
    (early : middle low stop < 2 ^ 30) :
    loop data key (rounds + 1) lowIndex highIndex =
      match verdict data key (middle low stop) with
      | .lt => loop data key rounds lowIndex
          (Int32.ofNat (middle low stop) - 1)
      | .gt => loop data key rounds (Int32.ofNat (middle low stop) + 1)
          highIndex
      | .eq => some (.returned (Int32.ofNat (middle low stop))) := by
  have middleIs := toInt_middle lowIs highIs nonempty early
  have computed : (lowIndex + highIndex) / 2 =
      Int32.ofNat (middle low stop) := by
    apply Int32.toInt.inj
    rw [middleIs, toInt_ofNat_middle inside nonempty]
  have ordered : lowIndex ≤ highIndex := by
    rw [Int32.le_iff_toInt_le, lowIs, highIs]
    omega
  have present : middle low stop < data.elements.length :=
    (middle_lt nonempty).trans_le inside
  rw [loop, if_pos ordered]
  simp only [computed, get_of_toInt (toInt_ofNat_middle inside nonempty),
    List.getElem?_eq_getElem present, verdict]

theorem loop_crossed (lowIs : lowIndex.toInt = low)
    (highIs : highIndex.toInt = stop - 1) (empty : ¬ low < stop) :
    loop data key (rounds + 1) lowIndex highIndex =
      some (.returned (-1)) := by
  rw [loop, if_neg]
  rw [Int32.le_iff_toInt_le, lowIs, highIs]
  omega

omit [LinearOrder α] in
theorem toInt_before_middle (inside : stop ≤ data.elements.length)
    (nonempty : low < stop) :
    (Int32.ofNat (middle low stop) - 1).toInt =
      (middle low stop : Nat) - 1 := by
  have small := data.small
  have below := middle_lt nonempty
  have one : (1 : Int32).toInt = 1 := rfl
  rw [Int32.toInt_sub, toInt_ofNat_middle inside nonempty, one,
    Int.bmod_eq_of_le] <;> omega

omit [LinearOrder α] in
theorem toInt_behind_middle (inside : stop ≤ data.elements.length)
    (nonempty : low < stop) :
    (Int32.ofNat (middle low stop) + 1).toInt =
      ((middle low stop + 1 : Nat) : Int) := by
  have small := data.small
  have below := middle_lt nonempty
  have one : (1 : Int32).toInt = 1 := rfl
  rw [Int32.toInt_add, toInt_ofNat_middle inside nonempty, one,
    Int.bmod_eq_of_le] <;> omega

/-- As long as no index from `2 ^ 30` on is probed, the loop is the search. -/
theorem loop_eq_search (lowIs : lowIndex.toInt = low)
    (highIs : highIndex.toInt = stop - 1)
    (inside : stop ≤ data.elements.length) (enough : stop - low < rounds)
    (early : ∀ index ∈ probes (verdict data key) low stop,
      index < 2 ^ 30) :
    loop data key rounds lowIndex highIndex =
      some (.returned (indexOf (search (verdict data key) low stop))) := by
  obtain ⟨rounds, rfl⟩ : ∃ fewer, rounds = fewer + 1 :=
    ⟨rounds - 1, by omega⟩
  induction low, stop using search.induct (verdict data key)
    generalizing rounds lowIndex highIndex with
  | case1 low stop nonempty left ih =>
      have below := middle_lt nonempty
      have above := low_le_middle nonempty
      obtain ⟨fewer, rfl⟩ : ∃ fewer, rounds = fewer + 1 :=
        ⟨rounds - 1, by omega⟩
      rw [loop_succ lowIs highIs nonempty inside
        (early _ (middle_mem_probes nonempty)), left, search,
        if_pos nonempty, left]
      apply ih lowIs (toInt_before_middle inside nonempty) (by omega) ?_ _
        (by omega)
      intro index probed
      apply early
      rw [probes, if_pos nonempty, left]
      exact List.mem_cons_of_mem _ probed
  | case2 low stop nonempty here =>
      rw [loop_succ lowIs highIs nonempty inside
        (early _ (middle_mem_probes nonempty)), here, search,
        if_pos nonempty, here]
      rfl
  | case3 low stop nonempty right ih =>
      have below := middle_lt nonempty
      have above := low_le_middle nonempty
      obtain ⟨fewer, rfl⟩ : ∃ fewer, rounds = fewer + 1 :=
        ⟨rounds - 1, by omega⟩
      rw [loop_succ lowIs highIs nonempty inside
        (early _ (middle_mem_probes nonempty)), right, search,
        if_pos nonempty, right]
      apply ih (toInt_behind_middle inside nonempty) highIs inside ?_ _
        (by omega)
      intro index probed
      apply early
      rw [probes, if_pos nonempty, right]
      exact List.mem_cons_of_mem _ probed
  | case4 low stop empty =>
      rw [loop_crossed lowIs highIs empty, search, if_neg empty]
      rfl

theorem loop_outOfBounds_of_late (lowIs : lowIndex.toInt = low)
    (highIs : highIndex.toInt = stop - 1) (nonempty : low < stop)
    (inside : stop ≤ data.elements.length)
    (late : 2 ^ 30 ≤ middle low stop) :
    loop data key (rounds + 1) lowIndex highIndex =
      some (.arrayIndexOutOfBounds ((lowIndex + highIndex) / 2)) := by
  have small := data.small
  have ordered : lowIndex ≤ highIndex := by
    rw [Int32.le_iff_toInt_le, lowIs, highIs]
    omega
  rw [loop, if_pos ordered]
  simp only [get_of_negative
    (middle_negative lowIs highIs nonempty (by omega) late)]

/-- A probe from `2 ^ 30` on reads the array at a negative index. -/
theorem loop_outOfBounds (lowIs : lowIndex.toInt = low)
    (highIs : highIndex.toInt = stop - 1)
    (inside : stop ≤ data.elements.length) (enough : stop - low < rounds)
    (late : ∃ index ∈ probes (verdict data key) low stop,
      2 ^ 30 ≤ index) :
    ∃ index, loop data key rounds lowIndex highIndex =
      some (.arrayIndexOutOfBounds index) := by
  obtain ⟨rounds, rfl⟩ : ∃ fewer, rounds = fewer + 1 :=
    ⟨rounds - 1, by omega⟩
  induction low, stop using search.induct (verdict data key)
    generalizing rounds lowIndex highIndex with
  | case1 low stop nonempty left ih =>
      have below := middle_lt nonempty
      have above := low_le_middle nonempty
      rcases le_or_gt (2 ^ 30) (middle low stop) with far | early
      · exact ⟨_, loop_outOfBounds_of_late lowIs highIs nonempty inside far⟩
      · obtain ⟨fewer, rfl⟩ : ∃ fewer, rounds = fewer + 1 :=
          ⟨rounds - 1, by omega⟩
        rw [loop_succ lowIs highIs nonempty inside early, left]
        apply ih lowIs (toInt_before_middle inside nonempty) (by omega) ?_ _
          (by omega)
        obtain ⟨index, probed, far⟩ := late
        rw [probes, if_pos nonempty, left] at probed
        cases probed with
        | head => omega
        | tail _ later => exact ⟨index, later, far⟩
  | case2 low stop nonempty here =>
      rcases le_or_gt (2 ^ 30) (middle low stop) with far | early
      · exact ⟨_, loop_outOfBounds_of_late lowIs highIs nonempty inside far⟩
      · rw [probes, if_pos nonempty, here] at late
        simp only [List.mem_singleton, exists_eq_left] at late
        omega
  | case3 low stop nonempty right ih =>
      have below := middle_lt nonempty
      have above := low_le_middle nonempty
      rcases le_or_gt (2 ^ 30) (middle low stop) with far | early
      · exact ⟨_, loop_outOfBounds_of_late lowIs highIs nonempty inside far⟩
      · obtain ⟨fewer, rfl⟩ : ∃ fewer, rounds = fewer + 1 :=
          ⟨rounds - 1, by omega⟩
        rw [loop_succ lowIs highIs nonempty inside early, right]
        apply ih (toInt_behind_middle inside nonempty) highIs inside ?_ _
          (by omega)
        obtain ⟨index, probed, far⟩ := late
        rw [probes, if_pos nonempty, right] at probed
        cases probed with
        | head => omega
        | tail _ later => exact ⟨index, later, far⟩
  | case4 low stop empty =>
      rw [probes, if_neg empty] at late
      simp at late

end Loop

/-! ## What the search answers -/

section Answer

variable {data : JavaArray α} {key : α}

omit [LinearOrder α] in
theorem toInt_last (nonempty : data.length ≠ 0) :
    (data.length - 1).toInt = (data.elements.length : Int) - 1 := by
  have small := data.small
  have positive : data.elements.length ≠ 0 := by
    intro empty
    apply nonempty
    rw [JavaArray.length, empty]
    rfl
  have one : (1 : Int32).toInt = 1 := rfl
  rw [Int32.toInt_sub, JavaArray.length, Int32.toInt_ofNat_of_lt small, one,
    Int.bmod_eq_of_le] <;> omega

theorem verdict_eq_iff {index : Nat} :
    verdict data key index = .eq ↔ data.elements[index]? = some key := by
  unfold verdict
  cases data.elements[index]? with
  | none => simp
  | some element =>
      rw [compare_eq_iff_eq, Option.some.injEq]
      exact eq_comm

omit [LinearOrder α] in
theorem get_ofNat {index : Nat} (inside : index < data.elements.length) :
    data.get (Int32.ofNat index) = data.elements[index]? :=
  get_of_toInt (Int32.toInt_ofNat_of_lt (inside.trans data.small))

theorem answers_search (sorted : data.elements.Pairwise (· ≤ ·)) :
    Answers data key
      (indexOf (search (verdict data key) 0 data.elements.length)) := by
  cases found : search (verdict data key) 0 data.elements.length with
  | none =>
      have nowhere :=
        (search_eq_none_iff (directed_verdict sorted) le_rfl).mp found
      constructor
      · intro occurs
        obtain ⟨index, inside, is⟩ := List.mem_iff_getElem.mp occurs
        apply absurd _ (nowhere index (Nat.zero_le _) inside)
        rw [verdict_eq_iff, List.getElem?_eq_getElem inside, is]
      · intro _
        rfl
  | some index =>
      have inside := search_sound found
      have holds := verdict_eq_iff.mp inside.2.2
      constructor
      · intro _
        rw [indexOf, get_ofNat inside.2.1, holds]
      · intro missing
        exact absurd (List.mem_of_getElem? holds) missing

omit [LinearOrder α] in
theorem elements_of_length (empty : data.length = 0) :
    data.elements = [] := by
  have length := Int32.toInt_ofNat_of_lt data.small
  have zero : (0 : Int32).toInt = 0 := rfl
  rw [JavaArray.length] at empty
  rw [empty, zero] at length
  exact List.length_eq_zero_iff.mp (by exact_mod_cast length.symm)

omit [LinearOrder α] in
theorem answers_empty (empty : data.length = 0) : Answers data key (-1) := by
  simp [Answers, elements_of_length empty]

/-- The search meets its promise unless it probes an index from `2 ^ 30`
on. -/
theorem finds_iff_probes (sorted : data.elements.Pairwise (· ≤ ·)) :
    Finds data key ↔
      ¬ ∃ index ∈ probes (verdict data key) 0 data.elements.length,
        2 ^ 30 ≤ index := by
  by_cases empty : data.length = 0
  · have none : data.elements = [] := elements_of_length empty
    have stays : ¬ ∃ index ∈ probes (verdict data key) 0
        data.elements.length, 2 ^ 30 ≤ index := by
      simp [none, probes]
    refine iff_of_true ⟨0, -1, ?_, answers_empty empty⟩ stays
    exact if_pos empty
  · have searches : ∀ rounds, binarySearch (some data) key rounds =
        loop data key rounds 0 (data.length - 1) :=
      fun rounds => if_neg empty
    have enough : data.elements.length - 0 < data.elements.length + 1 := by
      omega
    have zero : (0 : Int32).toInt = ((0 : Nat) : Int) := rfl
    constructor
    · rintro ⟨rounds, index, ended, -⟩ late
      obtain ⟨place, outside⟩ := loop_outOfBounds zero (toInt_last empty)
        le_rfl enough late
      rw [searches] at ended
      cases loop_unique ended outside
    · intro early
      have ended := loop_eq_search zero (toInt_last empty) le_rfl enough
        fun index probed => not_le.mp fun late =>
          early ⟨index, probed, late⟩
      rw [← searches] at ended
      exact ⟨_, _, ended, answers_search sorted⟩

theorem verdict_eq_gt_iff {index : Nat}
    (inside : index < data.elements.length) :
    verdict data key index = .gt ↔
      ¬ ∃ element, data.elements[index]? = some element ∧
        key ≤ element := by
  rw [verdict, List.getElem?_eq_getElem inside]
  simp [compare_gt_iff_gt]

/-- The code does what it promises for every key of an array with at most
`2 ^ 30` elements; in a longer one, for the keys that are not greater than one
of the probes below `2 ^ 30` of the search that always goes to the right. -/
theorem binarySearch_finds_iff (sorted : data.elements.Pairwise (· ≤ ·)) :
    Finds data key ↔
      data.elements.length ≤ 2 ^ 30 ∨
        ∃ j index element, 0 < j ∧
          index = data.elements.length - 1 - data.elements.length / 2 ^ j ∧
          index < 2 ^ 30 ∧ data.elements[index]? = some element ∧
          key ≤ element := by
  rw [finds_iff_probes sorted, exists_probe_ge_iff (Nat.zero_le _), not_and_or,
    not_lt]
  apply or_congr_right
  push Not
  constructor
  · rintro ⟨index, onPath, early, leaves⟩
    have inside := (mem_probes onPath).2
    obtain ⟨-, j, positive, is⟩ := mem_rightmost.mp onPath
    rw [Ne, verdict_eq_gt_iff inside, not_not] at leaves
    obtain ⟨element, there, notGreater⟩ := leaves
    exact ⟨j, index, element, positive, is, early, there, notGreater⟩
  · rintro ⟨j, index, element, positive, is, early, there, notGreater⟩
    have inside := (List.getElem?_eq_some_iff.mp there).1
    refine ⟨index, mem_rightmost.mpr ⟨by omega, j, positive, is⟩, early, ?_⟩
    rw [Ne, verdict_eq_gt_iff inside, not_not]
    exact ⟨element, there, notGreater⟩

end Answer

/-- A key of an array within the bound. -/
theorem eight_found : Finds ⟨[1, 4, 5, 8, 15], by decide⟩ 8 :=
  (binarySearch_finds_iff (by decide)).mpr (.inl (by decide))

/-- `2 ^ 30 + 1` zeros. -/
def zeros : JavaArray Nat where
  elements := List.replicate (2 ^ 30 + 1) 0
  small := by
    rw [List.length_replicate]
    decide

/-- The search for `1` among zeros probes the index `2 ^ 30`. -/
theorem zeros_not_finds :
    zeros.elements.Pairwise (· ≤ ·) ∧ ¬ Finds zeros 1 := by
  have sorted : zeros.elements.Pairwise (· ≤ ·) :=
    List.pairwise_replicate.mpr (.inr le_rfl)
  have length : zeros.elements.length = 2 ^ 30 + 1 := List.length_replicate
  refine ⟨sorted, ?_⟩
  rw [finds_iff_probes sorted, not_not, exists_probe_ge_iff (Nat.zero_le _)]
  constructor
  · rw [length]
    exact Nat.lt_succ_self _
  · intro index onPath _
    rw [verdict_eq_gt_iff (mem_probes onPath).2]
    rintro ⟨element, there, notGreater⟩
    have zero : element = 0 :=
      List.eq_of_mem_replicate (List.mem_of_getElem? there)
    rw [zero] at notGreater
    exact absurd notGreater (by decide)

end WindowSystem.HidataFramework.Search
