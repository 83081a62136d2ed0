import Mathlib.Data.Fintype.Card
import Mathlib.Data.Set.Finite.Basic
import Mathlib.Logic.Relation

/-!
# Chains of parents

Nodes with at most one parent each.  Going up from a node ends at one without
a parent, or it does not end.  Where only finitely many nodes are parents, it
does not end exactly when it comes to a node that is above itself.
-/

namespace WindowSystem.Library.Ancestry

variable {α : Type*} (parent : α → Option α)

def IsParent (above below : α) : Prop :=
  parent below = some above

/-- The nodes above a node, beginning with its parent. -/
inductive Chain : α → List α → Prop where
  | root {node : α} : parent node = none → Chain node []
  | child {node above : α} {ancestors : List α} :
      parent node = some above → Chain above ancestors →
        Chain node (above :: ancestors)

/-- The chain of parents ends. -/
def Ends (node : α) : Prop :=
  ∃ ancestors, Chain parent node ancestors

/-- Neither the node nor one above it is above itself. -/
def Acyclic (node : α) : Prop :=
  ∀ above, Relation.ReflTransGen (IsParent parent) above node →
    ¬ Relation.TransGen (IsParent parent) above above

variable {parent}

theorem chain_of_none {node : α} (alone : parent node = none)
    {ancestors : List α} : Chain parent node ancestors ↔ ancestors = [] := by
  constructor
  · intro chain
    cases chain with
    | root => rfl
    | child up _ =>
        rw [alone] at up
        cases up
  · rintro rfl
    exact .root alone

theorem chain_of_some {node above : α} (up : parent node = some above)
    {ancestors : List α} :
    Chain parent node ancestors ↔
      ∃ rest, ancestors = above :: rest ∧ Chain parent above rest := by
  constructor
  · intro chain
    cases chain with
    | root alone =>
        rw [up] at alone
        cases alone
    | child other chain =>
        obtain rfl := Option.some.inj (up.symm.trans other)
        exact ⟨_, rfl, chain⟩
  · rintro ⟨rest, rfl, chain⟩
    exact .child up chain

theorem Chain.unique {node : α} {ancestors others : List α}
    (left : Chain parent node ancestors) (right : Chain parent node others) :
    ancestors = others := by
  induction left generalizing others with
  | root alone => exact ((chain_of_none alone).mp right).symm
  | child up _ induction =>
      obtain ⟨rest, rfl, chain⟩ := (chain_of_some up).mp right
      rw [induction chain]

theorem Chain.acyclic {node : α} {ancestors : List α}
    (chain : Chain parent node ancestors) : Acyclic parent node := by
  induction chain with
  | @root node alone =>
      intro above reaches cycle
      have top {other : α} (up : IsParent parent other node) : False := by
        rw [IsParent, alone] at up
        cases up
      rcases Relation.ReflTransGen.cases_tail reaches with
        rfl | ⟨_, _, up⟩
      · obtain ⟨_, _, up⟩ := Relation.TransGen.tail'_iff.mp cycle
        exact top up
      · exact top up
  | @child node above ancestors up chain induction =>
      intro start reaches cycle
      have only {below : α} (other : IsParent parent below node) :
          below = above :=
        Option.some.inj (other.symm.trans up)
      rcases Relation.ReflTransGen.cases_tail reaches with
        rfl | ⟨middle, before, last⟩
      · obtain ⟨middle, before, last⟩ :=
          Relation.TransGen.tail'_iff.mp cycle
        obtain rfl := only last
        exact induction middle .refl (.head' last before)
      · obtain rfl := only last
        exact induction start before cycle

/-- Going up finitely many nodes without a cycle comes to an end. -/
theorem Acyclic.ends {nodes : Set α} (finite : nodes.Finite)
    (closed : ∀ below above, parent below = some above → above ∈ nodes)
    {node : α} (acyclic : Acyclic parent node) : Ends parent node := by
  let Above := {above // Relation.TransGen (IsParent parent) above node}
  have few : Finite Above := by
    refine Set.Finite.to_subtype (finite.subset ?_)
    intro above reaches
    obtain ⟨below, up, -⟩ := Relation.TransGen.head'_iff.mp reaches
    exact closed below above up
  let higher (left right : Above) : Prop :=
    Relation.TransGen (IsParent parent) left.1 right.1
  have trans : IsTrans Above higher := ⟨fun _ _ _ => Relation.TransGen.trans⟩
  have irrefl : Std.Irrefl higher :=
    ⟨fun above => acyclic above.1 above.2.to_reflTransGen⟩
  have founded := Finite.wellFounded_of_trans_of_irrefl higher
  have ends (above : Above) : Ends parent above.1 := by
    induction above using founded.induction with
    | h above induction =>
        cases found : parent above.1 with
        | none => exact ⟨[], .root found⟩
        | some next =>
            obtain ⟨ancestors, chain⟩ :=
              induction ⟨next, .head found above.2⟩ (.single found)
            exact ⟨next :: ancestors, .child found chain⟩
  cases found : parent node with
  | none => exact ⟨[], .root found⟩
  | some next =>
      obtain ⟨ancestors, chain⟩ := ends ⟨next, .single found⟩
      exact ⟨next :: ancestors, .child found chain⟩

theorem ends_iff_acyclic {nodes : Set α} (finite : nodes.Finite)
    (closed : ∀ below above, parent below = some above → above ∈ nodes)
    {node : α} : Ends parent node ↔ Acyclic parent node :=
  ⟨fun ⟨_, chain⟩ => chain.acyclic, fun acyclic =>
    acyclic.ends finite closed⟩

end WindowSystem.Library.Ancestry
