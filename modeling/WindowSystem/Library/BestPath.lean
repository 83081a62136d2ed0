import Mathlib.Order.Lattice
import Mathlib.Order.Monotone.Defs
import Mathlib.Tactic.Common

/-!
# Best chains by dynamic programming

A chain goes from a node to one of its successors, and on until a node without
successors.  What a chain is worth is computed from its end: a node adds its
share to what the chain is worth from the successor on.  If every node holds
the best of the values that its successors offer, and the successor that
offers it, then no chain is worth more than the value of its first node, and
the chain along the successors that were chosen is worth just that.
-/

namespace WindowSystem.Library.BestPath

variable {α W : Type*}

/-! ## Choosing among candidates -/

/-- What is kept when the others are looked at one by one. -/
def candidate (replaces : W → W → Bool) (first : α × W)
    (others : List (α × W)) : α × W :=
  others.foldl (fun kept other =>
    if replaces kept.2 other.2 then other else kept) first

/-- The candidate of a list. -/
def pick (replaces : W → W → Bool) : List (α × W) → Option (α × W)
  | [] => none
  | first :: others => some (candidate replaces first others)

section Choice

variable [LinearOrder W]

/-- A candidate is replaced only by one that is as good, and by every one that
is better. -/
structure Improves (replaces : W → W → Bool) : Prop where
  le : ∀ {kept other}, replaces kept other = true → kept ≤ other
  ge : ∀ {kept other}, replaces kept other = false → other ≤ kept

theorem improves_lt : Improves fun kept other : W => kept < other where
  le less := (of_decide_eq_true less).le
  ge notLess := not_lt.mp (of_decide_eq_false notLess)

theorem improves_le : Improves fun kept other : W => kept ≤ other where
  le := of_decide_eq_true
  ge notLess := (not_le.mp (of_decide_eq_false notLess)).le

theorem candidate_best {replaces : W → W → Bool} (improves : Improves replaces)
    (first : α × W) (others : List (α × W)) :
    candidate replaces first others ∈ first :: others ∧
      ∀ other ∈ first :: others,
        other.2 ≤ (candidate replaces first others).2 := by
  induction others generalizing first with
  | nil =>
      refine ⟨List.mem_cons_self, ?_⟩
      intro other member
      rw [List.mem_singleton.mp member]
      exact le_rfl
  | cons second others induction =>
      rw [candidate, List.foldl_cons, ← candidate]
      cases replaced : replaces first.2 second.2 with
      | true =>
          rw [if_pos rfl]
          obtain ⟨member, best⟩ := induction second
          refine ⟨List.mem_cons_of_mem _ member, ?_⟩
          rw [List.forall_mem_cons]
          exact ⟨(improves.le replaced).trans (best second List.mem_cons_self),
            best⟩
      | false =>
          rw [if_neg Bool.false_ne_true]
          obtain ⟨member, best⟩ := induction first
          have top := best first List.mem_cons_self
          refine ⟨?_, ?_⟩
          · rcases List.mem_cons.mp member with here | behind
            · rw [here]
              exact List.mem_cons_self
            · exact List.mem_cons_of_mem _ (List.mem_cons_of_mem _ behind)
          · intro other inside
            rcases List.mem_cons.mp inside with rfl | inside
            · exact top
            · rcases List.mem_cons.mp inside with rfl | inside
              · exact (improves.ge replaced).trans top
              · exact best other (List.mem_cons_of_mem _ inside)

theorem pick_best {replaces : W → W → Bool} (improves : Improves replaces)
    {candidates : List (α × W)} (nonempty : candidates ≠ []) :
    ∃ best ∈ candidates, pick replaces candidates = some best ∧
      ∀ other ∈ candidates, other.2 ≤ best.2 := by
  obtain ⟨first, others, rfl⟩ := List.exists_cons_of_ne_nil nonempty
  obtain ⟨member, best⟩ := candidate_best improves first others
  exact ⟨_, member, rfl, best⟩

end Choice

/-! ## Chains -/

section Chains

variable (successors : α → List α) (base : α → W) (gain : α → α → W → W)

/-- The nodes behind the first one of a chain. -/
def Chain : α → List α → Prop
  | node, [] => successors node = []
  | node, next :: rest => next ∈ successors node ∧ Chain next rest

/-- What a chain is worth. -/
def worth : α → List α → W
  | node, [] => base node
  | node, next :: rest => gain node next (worth next rest)

/-- The chain along the choices. -/
def Followed (choice : α → Option α) : α → List α → Prop
  | node, [] => choice node = none
  | node, next :: rest => choice node = some next ∧ Followed choice next rest

/-- Every node inside holds the best value of its successors and the successor
that has it. -/
structure Solved [LE W] (Inside : α → Prop) (value : α → W)
    (choice : α → Option α) : Prop where
  closed : ∀ {node next}, Inside node → next ∈ successors node → Inside next
  last : ∀ {node}, Inside node → successors node = [] →
    value node = base node ∧ choice node = none
  step : ∀ {node}, Inside node → successors node ≠ [] →
    ∃ next ∈ successors node, choice node = some next ∧
      value node = gain node next (value next) ∧
      ∀ other ∈ successors node, gain node other (value other) ≤ value node

variable {successors base gain}

/-- No chain is worth more than the value of its first node. -/
theorem Solved.worth_le [Preorder W] {Inside : α → Prop} {value : α → W}
    {choice : α → Option α}
    (solved : Solved successors base gain Inside value choice)
    (mono : ∀ node next, Monotone (gain node next)) {node : α}
    {rest : List α} (inside : Inside node)
    (chain : Chain successors node rest) :
    worth base gain node rest ≤ value node := by
  induction rest generalizing node with
  | nil => exact (solved.last inside chain).1.ge
  | cons next rest induction =>
      obtain ⟨member, behind⟩ := chain
      have later := induction (solved.closed inside member) behind
      obtain ⟨-, -, -, -, best⟩ :=
        solved.step inside (List.ne_nil_of_mem member)
      exact (mono node next later).trans (best next member)

/-- The chain that was chosen is worth the value of its first node. -/
theorem Solved.worth_followed [LE W] {Inside : α → Prop} {value : α → W}
    {choice : α → Option α}
    (solved : Solved successors base gain Inside value choice) {node : α}
    {rest : List α} (inside : Inside node)
    (followed : Followed choice node rest) :
    Chain successors node rest ∧ worth base gain node rest = value node := by
  induction rest generalizing node with
  | nil =>
      have none : successors node = [] := by
        by_contra some
        obtain ⟨next, -, chosen, -⟩ := solved.step inside some
        rw [Followed, chosen] at followed
        cases followed
      exact ⟨none, (solved.last inside none).1.symm⟩
  | cons next rest induction =>
      obtain ⟨chosen, behind⟩ := followed
      have some : successors node ≠ [] := by
        intro none
        rw [(solved.last inside none).2] at chosen
        cases chosen
      obtain ⟨best, member, isBest, value, -⟩ := solved.step inside some
      cases isBest.symm.trans chosen
      obtain ⟨chain, same⟩ := induction (solved.closed inside member) behind
      exact ⟨⟨member, chain⟩, by rw [worth, same, value]⟩

end Chains

end WindowSystem.Library.BestPath
