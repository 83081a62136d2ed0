import Mathlib.Algebra.Group.Nat.Defs
import Mathlib.Order.Interval.Set.Basic
import Mathlib.Tactic.Common

/-!
# Searching an interval by halving

A position is sought among the indices from `low` up to `stop`.  Every index
has a verdict: the position is there, to the left of it or to the right of it.
The search takes the index in the middle, and goes on in the half that the
verdict names.  It finds what is there whenever the verdicts agree with the
order of the indices.

The indices that a search probes matter where large indices cannot be
computed.  A search reaches a large index only along the path of the search
that always goes to the right.
-/

namespace WindowSystem.Library.IntervalSearch

variable {verdict : Nat → Ordering} {low stop bound index : Nat}

/-- The index in the middle of the indices from `low` up to `stop`. -/
def middle (low stop : Nat) : Nat :=
  (low + (stop - 1)) / 2

theorem low_le_middle (nonempty : low < stop) : low ≤ middle low stop := by
  unfold middle
  omega

theorem middle_lt (nonempty : low < stop) : middle low stop < stop := by
  unfold middle
  omega

/-- The search that halves the interval in every step. -/
def search (verdict : Nat → Ordering) (low stop : Nat) : Option Nat :=
  if low < stop then
    match verdict (middle low stop) with
    | .lt => search verdict low (middle low stop)
    | .eq => some (middle low stop)
    | .gt => search verdict (middle low stop + 1) stop
  else
    none
termination_by stop - low
decreasing_by
  · have := @middle_lt low stop (by assumption)
    omega
  · have := @low_le_middle low stop (by assumption)
    omega

/-- The indices that the search looks at, in order. -/
def probes (verdict : Nat → Ordering) (low stop : Nat) : List Nat :=
  if low < stop then
    middle low stop ::
      match verdict (middle low stop) with
      | .lt => probes verdict low (middle low stop)
      | .eq => []
      | .gt => probes verdict (middle low stop + 1) stop
  else
    []
termination_by stop - low
decreasing_by
  · have := @middle_lt low stop (by assumption)
    omega
  · have := @low_le_middle low stop (by assumption)
    omega

/-- Verdicts that agree with the order of the indices below `size`. -/
structure Directed (verdict : Nat → Ordering) (size : Nat) : Prop where
  left : ∀ {index later}, index ≤ later → later < size →
    verdict index = .lt → verdict later = .lt
  right : ∀ {index later}, index ≤ later → later < size →
    verdict later = .gt → verdict index = .gt

/-! ## What the search finds -/

theorem search_sound (found : search verdict low stop = some index) :
    low ≤ index ∧ index < stop ∧ verdict index = .eq := by
  induction low, stop using search.induct verdict with
  | case1 low stop nonempty left ih =>
      rw [search, if_pos nonempty, left] at found
      have inside := ih found
      have := middle_lt nonempty
      exact ⟨inside.1, by omega, inside.2.2⟩
  | case2 low stop nonempty here =>
      rw [search, if_pos nonempty, here] at found
      cases found
      exact ⟨low_le_middle nonempty, middle_lt nonempty, here⟩
  | case3 low stop nonempty right ih =>
      rw [search, if_pos nonempty, right] at found
      have inside := ih found
      have := low_le_middle nonempty
      exact ⟨by omega, inside.2⟩
  | case4 low stop empty =>
      rw [search, if_neg empty] at found
      cases found

theorem search_complete {size : Nat} (directed : Directed verdict size)
    (within : stop ≤ size) (above : low ≤ index) (below : index < stop)
    (here : verdict index = .eq) :
    (search verdict low stop).isSome = true := by
  induction low, stop using search.induct verdict with
  | case1 low stop nonempty left ih =>
      rw [search, if_pos nonempty, left]
      have := middle_lt nonempty
      apply ih (by omega) above
      by_contra late
      have := directed.left (not_lt.mp late) (by omega) left
      simp [this] at here
  | case2 low stop nonempty middleHere =>
      rw [search, if_pos nonempty, middleHere]
      rfl
  | case3 low stop nonempty right ih =>
      rw [search, if_pos nonempty, right]
      have := middle_lt nonempty
      refine ih within ?_ below
      by_contra early
      have := directed.right (not_le.mp early |> Nat.lt_succ_iff.mp)
        (by omega) right
      simp [this] at here
  | case4 low stop empty => omega

theorem search_eq_none_iff {size : Nat} (directed : Directed verdict size)
    (within : stop ≤ size) :
    search verdict low stop = none ↔
      ∀ index, low ≤ index → index < stop → verdict index ≠ .eq := by
  constructor
  · intro missing index above below here
    have := search_complete directed within above below here
    simp [missing] at this
  · intro nowhere
    cases found : search verdict low stop with
    | none => rfl
    | some index =>
        have inside := search_sound found
        exact absurd inside.2.2 (nowhere index inside.1 inside.2.1)

/-! ## Where the search looks -/

theorem mem_probes (probed : index ∈ probes verdict low stop) :
    low ≤ index ∧ index < stop := by
  induction low, stop using search.induct verdict with
  | case1 low stop nonempty left ih =>
      rw [probes, if_pos nonempty, left] at probed
      have := middle_lt nonempty
      cases probed with
      | head => exact ⟨low_le_middle nonempty, this⟩
      | tail _ later => exact ⟨(ih later).1, by have := (ih later).2; omega⟩
  | case2 low stop nonempty here =>
      rw [probes, if_pos nonempty, here] at probed
      cases probed with
      | head => exact ⟨low_le_middle nonempty, middle_lt nonempty⟩
      | tail _ later => cases later
  | case3 low stop nonempty right ih =>
      rw [probes, if_pos nonempty, right] at probed
      have := low_le_middle nonempty
      cases probed with
      | head => exact ⟨this, middle_lt nonempty⟩
      | tail _ later => exact ⟨by have := (ih later).1; omega, (ih later).2⟩
  | case4 low stop empty =>
      rw [probes, if_neg empty] at probed
      cases probed

/-- The path of the search that always goes to the right. -/
abbrev rightmost (low stop : Nat) : List Nat :=
  probes (fun _ => .gt) low stop

theorem rightmost_of_lt (nonempty : low < stop) :
    rightmost low stop =
      middle low stop :: rightmost (middle low stop + 1) stop := by
  rw [rightmost, probes, if_pos nonempty]

theorem middle_mem_probes (nonempty : low < stop) :
    middle low stop ∈ probes verdict low stop := by
  rw [probes, if_pos nonempty]
  exact List.mem_cons_self

theorem exists_probe_ge_of_middle (nonempty : low < stop)
    (late : bound ≤ middle low stop) :
    (∃ index ∈ probes verdict low stop, bound ≤ index) ↔
      bound < stop ∧
        ∀ index ∈ rightmost low stop, index < bound →
          verdict index = .gt := by
  have inside := middle_lt nonempty
  apply iff_of_true ⟨_, middle_mem_probes nonempty, late⟩
  constructor
  · omega
  · intro index onPath early
    rw [rightmost_of_lt nonempty] at onPath
    cases onPath with
    | head => omega
    | tail _ later =>
        have := (mem_probes later).1
        omega

/-- Where the search leaves the rightmost path, it stays to the left of the
index at which it leaves. -/
theorem exists_probe_ge_of_left (nonempty : low < stop)
    (early : middle low stop < bound)
    (leaves : verdict (middle low stop) ≠ .gt)
    (before : ∀ index ∈ probes verdict low stop,
      index ≤ middle low stop) :
    (∃ index ∈ probes verdict low stop, bound ≤ index) ↔
      bound < stop ∧
        ∀ index ∈ rightmost low stop, index < bound →
          verdict index = .gt := by
  apply iff_of_false
  · rintro ⟨index, probed, late⟩
    have := before index probed
    omega
  · rintro ⟨-, rightwards⟩
    exact leaves (rightwards _ (middle_mem_probes nonempty) early)

/-- A search reaches the indices from `bound` on exactly if it follows the
rightmost path up to there. -/
theorem exists_probe_ge_iff (start : low ≤ bound) :
    (∃ index ∈ probes verdict low stop, bound ≤ index) ↔
      bound < stop ∧
        ∀ index ∈ rightmost low stop, index < bound →
          verdict index = .gt := by
  induction low, stop using search.induct verdict with
  | case1 low stop nonempty left ih =>
      rcases le_or_gt bound (middle low stop) with late | early
      · exact exists_probe_ge_of_middle nonempty late
      · apply exists_probe_ge_of_left nonempty early (by simp [left])
        intro index probed
        rw [probes, if_pos nonempty, left] at probed
        cases probed with
        | head => exact le_rfl
        | tail _ later => exact (mem_probes later).2.le
  | case2 low stop nonempty here =>
      rcases le_or_gt bound (middle low stop) with late | early
      · exact exists_probe_ge_of_middle nonempty late
      · apply exists_probe_ge_of_left nonempty early (by simp [here])
        intro index probed
        rw [probes, if_pos nonempty, here] at probed
        cases probed with
        | head => exact le_rfl
        | tail _ later => cases later
  | case3 low stop nonempty right ih =>
      rcases le_or_gt bound (middle low stop) with late | early
      · exact exists_probe_ge_of_middle nonempty late
      · have further := ih (by omega)
        rw [probes, if_pos nonempty, right, rightmost_of_lt nonempty]
        simp only [List.mem_cons, or_and_right, exists_or, exists_eq_left,
          forall_eq_or_imp, not_le.mpr early, false_or, early, right,
          true_implies, true_and, further]
  | case4 low stop empty =>
      rw [probes, if_neg empty]
      apply iff_of_false
      · simp
      · omega

theorem middle_of_halved (size halvings : Nat)
    (remaining : 0 < size / 2 ^ halvings) :
    middle (size - size / 2 ^ halvings) size =
      size - 1 - size / 2 ^ (halvings + 1) := by
  have small := Nat.div_le_self size (2 ^ halvings)
  rw [Nat.pow_succ, ← Nat.div_div_eq_div_mul]
  unfold middle
  omega

/-- The indices of the rightmost path over `size` indices, once all but
`size / 2 ^ halvings` of them are passed. -/
theorem mem_rightmost_of_halved (size halvings : Nat) :
    index ∈ rightmost (size - size / 2 ^ halvings) size ↔
      0 < size / 2 ^ halvings ∧
        ∃ j, halvings < j ∧ index = size - 1 - size / 2 ^ j := by
  induction remaining : size / 2 ^ halvings using Nat.strong_induction_on
    generalizing halvings with
  | h count ih =>
      subst remaining
      have small := Nat.div_le_self size (2 ^ halvings)
      have halved : size / 2 ^ (halvings + 1) = size / 2 ^ halvings / 2 := by
        rw [Nat.pow_succ, Nat.div_div_eq_div_mul]
      rcases Nat.eq_zero_or_pos (size / 2 ^ halvings) with none | some
      · rw [none, rightmost, probes, if_neg (by omega)]
        simp
      · have next : size - 1 - size / 2 ^ (halvings + 1) + 1 =
            size - size / 2 ^ (halvings + 1) := by
          omega
        rw [rightmost_of_lt (by omega), middle_of_halved size halvings some,
          next, List.mem_cons,
          ih _ (by omega) (halvings + 1) rfl]
        constructor
        · rintro (rfl | ⟨-, j, later, rfl⟩)
          · exact ⟨some, halvings + 1, Nat.lt_succ_self _, rfl⟩
          · exact ⟨some, j, by omega, rfl⟩
        · rintro ⟨-, j, later, rfl⟩
          rcases Nat.eq_zero_or_pos (size / 2 ^ (halvings + 1)) with
            last | further
          · have shrinks : size / 2 ^ j ≤ size / 2 ^ (halvings + 1) :=
              Nat.div_le_div_left (Nat.pow_le_pow_right (by omega) later)
                (Nat.two_pow_pos _)
            rw [last, Nat.le_zero] at shrinks
            left
            rw [last, shrinks]
          · rcases Nat.eq_or_lt_of_le later with here | behind
            · left
              rw [← here]
            · exact .inr ⟨further, j, behind, rfl⟩

/-- The rightmost path over `size` indices. -/
theorem mem_rightmost {size : Nat} :
    index ∈ rightmost 0 size ↔
      0 < size ∧ ∃ j, 0 < j ∧ index = size - 1 - size / 2 ^ j := by
  have all := @mem_rightmost_of_halved index size 0
  simpa using all

end WindowSystem.Library.IntervalSearch
