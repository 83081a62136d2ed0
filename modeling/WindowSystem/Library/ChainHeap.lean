import Mathlib.Data.List.Basic
import Mathlib.Data.List.Nodup
import Mathlib.Logic.Function.Basic

/-!
# Chains of cells in a heap

A heap maps every address to a cell, and a cell points to the next one.  A
pointer leads to a finite chain exactly when a walk along the next pointers
ends.  The laws below say what a walk finds, and how a chain is affected when
one cell of the heap is written.
-/

namespace WindowSystem.Library.ChainHeap

variable {α τ δ : Type*}

/-- A cell with a tag to search for, some data and the next pointer. -/
structure Cell (α τ δ : Type*) where
  tag : τ
  data : δ
  next : Option α

/-- The pointer leads through the listed addresses to the null pointer. -/
inductive Chain (heap : α → Cell α τ δ) : Option α → List α → Prop where
  | nil : Chain heap none []
  | cons {place : α} {rest : List α} :
      Chain heap (heap place).next rest →
      Chain heap (some place) (place :: rest)

/-- The pointer leads to the address. -/
inductive Reaches (heap : α → Cell α τ δ) : Option α → α → Prop where
  | here (place : α) : Reaches heap (some place) place
  | next {place target : α} :
      Reaches heap (heap place).next target →
      Reaches heap (some place) target

namespace Chain

variable {heap : α → Cell α τ δ} {head : Option α} {places : List α}

@[simp]
theorem none_iff : Chain heap none places ↔ places = [] := by
  constructor
  · intro chain
    cases chain
    rfl
  · rintro rfl
    exact .nil

theorem unique {others : List α} (chain : Chain heap head places)
    (other : Chain heap head others) : places = others := by
  induction chain generalizing others with
  | nil =>
      cases other
      rfl
  | cons _ induction =>
      cases other with
      | cons rest => rw [induction rest]

/-- From every address of a chain on, the rest of it is a chain. -/
theorem suffix {place : α} (chain : Chain heap head places)
    (member : place ∈ places) :
    ∃ rest, rest.length < places.length ∧
      Chain heap (heap place).next rest := by
  induction chain with
  | nil => cases member
  | cons tail induction =>
      rcases List.mem_cons.mp member with rfl | later
      · exact ⟨_, Nat.lt_succ_self _, tail⟩
      · obtain ⟨rest, shorter, ends⟩ := induction later
        exact ⟨rest, Nat.lt_succ_of_lt shorter, ends⟩

/-- A chain that ends is not cyclic. -/
theorem nodup (chain : Chain heap head places) : places.Nodup := by
  induction chain with
  | nil => exact List.nodup_nil
  | @cons place rest tail induction =>
      refine List.nodup_cons.mpr ⟨?_, induction⟩
      intro member
      obtain ⟨shorter, below, again⟩ := tail.suffix member
      rw [again.unique tail] at below
      exact Nat.lt_irrefl _ below

theorem mem_iff_reaches {place : α} (chain : Chain heap head places) :
    place ∈ places ↔ Reaches heap head place := by
  constructor
  · intro member
    induction chain with
    | nil => cases member
    | cons _ induction =>
        rcases List.mem_cons.mp member with rfl | later
        · exact .here _
        · exact .next (induction later)
  · intro reached
    induction reached generalizing places with
    | here place =>
        cases chain with
        | cons => exact List.mem_cons_self
    | next _ induction =>
        cases chain with
        | cons rest => exact List.mem_cons_of_mem _ (induction rest)

theorem eq_nil_iff (chain : Chain heap head places) :
    places = [] ↔ head = none := by
  cases chain with
  | nil => simp
  | cons => simp

section Write

variable [DecidableEq α]

/-- A write to another address does not change a chain. -/
theorem frame {place : α} {cell : Cell α τ δ}
    (chain : Chain heap head places) (outside : place ∉ places) :
    Chain (Function.update heap place cell) head places := by
  induction chain with
  | nil => exact .nil
  | cons _ induction =>
      rw [List.mem_cons, not_or] at outside
      refine .cons ?_
      rw [Function.update_of_ne (Ne.symm outside.1)]
      exact induction outside.2

/-- A write that keeps the next pointer does not change a chain. -/
theorem rewrite {place : α} {cell : Cell α τ δ}
    (chain : Chain heap head places)
    (kept : cell.next = (heap place).next) :
    Chain (Function.update heap place cell) head places := by
  induction chain with
  | nil => exact .nil
  | @cons first rest _ induction =>
      refine .cons ?_
      by_cases same : first = place
      · subst same
        rwa [Function.update_self, kept]
      · rwa [Function.update_of_ne same]

/-- A new cell in front of a chain. -/
theorem push {place : α} {cell : Cell α τ δ}
    (chain : Chain heap head places) (outside : place ∉ places)
    (linked : cell.next = head) :
    Chain (Function.update heap place cell) (some place)
      (place :: places) := by
  refine .cons ?_
  rw [Function.update_self, linked]
  exact chain.frame outside

end Write

end Chain

/-! ## Walks -/

section Walk

variable [DecidableEq τ]

/-- Walk along a chain up to a cell with the tag, in at most as many steps as
there is fuel; the outer `none` says that the fuel is used up. -/
def walk (heap : α → Cell α τ δ) (wanted : τ) :
    Nat → Option α → Option (Option α)
  | 0, _ => none
  | _ + 1, none => some none
  | fuel + 1, some place =>
      if (heap place).tag = wanted then some (some place)
      else walk heap wanted fuel (heap place).next

variable {heap : α → Cell α τ δ} {head : Option α} {places : List α}
  {wanted : τ}

theorem walk_mono {fuel more : Nat} {result : Option α}
    (found : walk heap wanted fuel head = some result)
    (enough : fuel ≤ more) : walk heap wanted more head = some result := by
  induction fuel generalizing head more with
  | zero => simp [walk] at found
  | succ fuel induction =>
      obtain ⟨more, rfl⟩ := Nat.exists_eq_add_of_lt enough
      cases head with
      | none => simpa [walk] using found
      | some place =>
          rw [walk] at found ⊢
          split_ifs at found ⊢ with equal
          · exact found
          · exact induction found (by omega)

/-- Two walks that end agree. -/
theorem walk_unique {fuel other : Nat} {result another : Option α}
    (found : walk heap wanted fuel head = some result)
    (again : walk heap wanted other head = some another) :
    result = another := by
  have left := walk_mono found (Nat.le_max_left fuel other)
  have right := walk_mono again (Nat.le_max_right fuel other)
  exact Option.some_inj.mp (left.symm.trans right)

/-- A walk along a finite chain ends at its first cell with the tag. -/
theorem walk_of_chain {fuel : Nat} (chain : Chain heap head places)
    (enough : places.length < fuel) :
    walk heap wanted fuel head =
      some (places.find? fun place => (heap place).tag = wanted) := by
  induction chain generalizing fuel with
  | nil =>
      cases fuel with
      | zero => exact absurd enough (Nat.not_lt_zero _)
      | succ fuel => rfl
  | @cons place rest _ induction =>
      cases fuel with
      | zero => exact absurd enough (Nat.not_lt_zero _)
      | succ fuel =>
          rw [walk]
          split_ifs with equal
          · simp [equal]
          · rw [induction (Nat.lt_of_succ_lt_succ enough)]
            simp [equal]

theorem walk_eq_find {fuel : Nat} {result : Option α}
    (chain : Chain heap head places)
    (found : walk heap wanted fuel head = some result) :
    result = places.find? fun place => (heap place).tag = wanted :=
  walk_unique found (walk_of_chain chain (Nat.lt_succ_self _))

end Walk

end WindowSystem.Library.ChainHeap
