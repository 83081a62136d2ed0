import Mathlib.Data.Int.Order.Basic
import Mathlib.Data.List.Chain
import Mathlib.Tactic.Common
import WindowSystem.Library.LabelledRun

/-!
# Grants with a bound and a distance

A user asks again and again.  The first request is granted.  A later one is
granted while fewer grants than the bound have been made, if the user has
waited since the last grant.

Granting as early as possible loses nothing: a run of ordered requests has as
many grants as any choice of its requests that keep the distance, up to the
bound.
-/

namespace WindowSystem.Library.SpacedGrants

open WindowSystem.Library.LabelledRun

/-- The bound, and what it is to have waited from one time to another. -/
structure Rule (τ : Type*) where
  bound : ℤ
  Waited : τ → τ → Prop

variable {τ : Type*}

/-- What is remembered of a user: the number of grants and the time of the
last one. -/
inductive Step (rule : Rule τ) :
    Option (ℤ × τ) → τ × Bool → Option (ℤ × τ) → Prop where
  | opened (time : τ) : Step rule none (time, true) (some (1, time))
  | granted {count : ℤ} {last time : τ} :
      count < rule.bound → rule.Waited last time →
      Step rule (some (count, last)) (time, true) (some (count + 1, time))
  | refused {count : ℤ} {last time : τ} :
      ¬ (count < rule.bound ∧ rule.Waited last time) →
      Step rule (some (count, last)) (time, false) (some (count, last))

/-- The times of the requests. -/
def times (trace : List (τ × Bool)) : List τ :=
  trace.map Prod.fst

/-- The times of the grants. -/
def grants (trace : List (τ × Bool)) : List τ :=
  times (trace.filter Prod.snd)

@[simp]
theorem times_nil : times ([] : List (τ × Bool)) = [] := rfl

@[simp]
theorem grants_nil : grants ([] : List (τ × Bool)) = [] := rfl

theorem times_append (front back : List (τ × Bool)) :
    times (front ++ back) = times front ++ times back :=
  List.map_append

theorem grants_append (front back : List (τ × Bool)) :
    grants (front ++ back) = grants front ++ grants back := by
  rw [grants, List.filter_append, times_append]
  rfl

theorem grants_sublist (trace : List (τ × Bool)) :
    (grants trace).Sublist (times trace) :=
  List.filter_sublist.map Prod.fst

/-! ## What is remembered -/

variable {rule : Rule τ} {trace : List (τ × Bool)}
  {before after usage : Option (ℤ × τ)} {label : τ × Bool}

/-- The record is about the grants of the trace, which keep the distance and
the bound; only an empty trace leaves no record. -/
structure Reflects (rule : Rule τ) (trace : List (τ × Bool))
    (usage : Option (ℤ × τ)) : Prop where
  spaced : (grants trace).IsChain rule.Waited
  ends : (grants trace).getLast? = usage.map Prod.snd
  counted : ∀ record ∈ usage, record.1 = (grants trace).length
  capped : ((grants trace).length : ℤ) ≤ max 1 rule.bound
  unasked : usage = none → trace = []

theorem reflects_nil : Reflects rule ([] : List (τ × Bool)) none where
  spaced := .nil
  ends := rfl
  counted record member := by cases member
  capped := (Int.zero_le_ofNat 1).trans (le_max_left _ _)
  unasked _ := rfl

theorem Reflects.step (reflects : Reflects rule trace before)
    (taken : Step rule before label after) :
    Reflects rule (trace ++ [label]) after := by
  cases taken with
  | opened time =>
      obtain rfl := reflects.unasked rfl
      exact
        { spaced := .singleton _
          ends := rfl
          counted := by rintro record ⟨⟩; rfl
          capped := le_max_left _ _
          unasked := by rintro ⟨⟩ }
  | @granted count last time room waited =>
      have counted := reflects.counted _ rfl
      have longer : grants (trace ++ [(time, true)]) =
          grants trace ++ [time] := grants_append _ _
      constructor
      case spaced =>
        rw [longer, List.isChain_append, reflects.ends]
        refine ⟨reflects.spaced, .singleton _, ?_⟩
        rintro _ ⟨⟩ _ ⟨⟩
        exact waited
      case ends =>
        rw [longer, List.getLast?_concat]
        rfl
      case counted =>
        rintro record ⟨⟩
        rw [longer, List.length_append, List.length_singleton]
        push_cast
        exact congrArg (· + 1) counted
      case capped =>
        rw [longer, List.length_append, List.length_singleton]
        push_cast
        dsimp only at counted
        omega
      case unasked => rintro ⟨⟩
  | @refused count last time refused =>
      have same : grants (trace ++ [(time, false)]) = grants trace := by
        rw [grants_append]
        exact List.append_nil _
      exact
        { spaced := same ▸ reflects.spaced
          ends := same ▸ reflects.ends
          counted := same ▸ reflects.counted
          capped := same ▸ reflects.capped
          unasked := by rintro ⟨⟩ }

theorem reflects_of_run (run : Run (Step rule) none trace usage) :
    Reflects rule trace usage :=
  run.history (fun reflects taken => reflects.step taken) reflects_nil

theorem Reflects.mem_times (reflects : Reflects rule trace usage) {count : ℤ}
    {last : τ} (remembered : usage = some (count, last)) :
    last ∈ times trace ∧ 1 ≤ count := by
  have ends := reflects.ends
  rw [remembered, Option.map_some] at ends
  have granted : last ∈ grants trace := List.mem_of_getLast? ends
  refine ⟨(grants_sublist trace).subset granted, ?_⟩
  have positive := List.length_pos_of_mem granted
  have counted := reflects.counted (count, last) remembered
  dsimp only at counted
  omega

/-- The first request is granted. -/
theorem Reflects.grants_eq_nil_iff (reflects : Reflects rule trace usage) :
    grants trace = [] ↔ times trace = [] := by
  constructor
  · intro ungranted
    cases remembered : usage with
    | none => rw [reflects.unasked remembered, times_nil]
    | some record =>
        have ends := reflects.ends
        rw [ungranted, remembered] at ends
        cases ends
  · intro unasked
    have none := grants_sublist trace
    rw [unasked] at none
    exact List.eq_nil_of_sublist_nil none

/-! ## Choices of requests -/

/-- A choice of requests that keep the distance. -/
structure Choice (rule : Rule τ) (trace : List (τ × Bool))
    (chosen : List τ) : Prop where
  requested : chosen.Sublist (times trace)
  spaced : chosen.IsChain rule.Waited

theorem choice_nil_iff {chosen : List τ} :
    Choice rule [] chosen ↔ chosen = [] := by
  constructor
  · intro choice
    exact List.eq_nil_of_sublist_nil choice.requested
  · rintro rfl
    exact ⟨List.Sublist.refl _, .nil⟩

/-- A choice with one more request to choose from. -/
theorem Choice.concat {time : τ} {granted : Bool} {chosen : List τ}
    (choice : Choice rule (trace ++ [(time, granted)]) chosen) :
    Choice rule trace chosen ∨
      ∃ fewer, chosen = fewer ++ [time] ∧ Choice rule trace fewer ∧
        ∀ last ∈ fewer.getLast?, rule.Waited last time := by
  have requested := choice.requested
  rw [times_append, List.sublist_append_iff] at requested
  obtain ⟨fewer, more, rfl, front, back⟩ := requested
  have spaced := choice.spaced
  rw [List.isChain_append] at spaced
  rcases List.sublist_singleton.mp back with rfl | rfl
  · rw [List.append_nil]
    exact .inl ⟨front, spaced.1⟩
  · refine .inr ⟨fewer, rfl, ⟨front, spaced.1⟩, ?_⟩
    exact fun last ends => spaced.2.2 last ends time rfl

/-! ## The longest choice -/

section Longest

variable [Preorder τ]

/-- A choice that is no longer than the grants, and if it is as long, then it
ends no earlier. -/
structure Behind (count : ℤ) (last : τ) (chosen : List τ) : Prop where
  shorter : (chosen.length : ℤ) ≤ count
  later : (chosen.length : ℤ) = count → ∀ time ∈ chosen.getLast?, last ≤ time

theorem Behind.of_shorter {count : ℤ} {last : τ} {chosen : List τ}
    (shorter : (chosen.length : ℤ) < count) : Behind count last chosen :=
  ⟨shorter.le, fun same => absurd same shorter.ne⟩

theorem Behind.concat {count : ℤ} {last time : τ} {fewer : List τ}
    (shorter : (fewer.length : ℤ) < count) (later : last ≤ time) :
    Behind count last (fewer ++ [time]) where
  shorter := by
    rw [List.length_append, List.length_singleton]
    omega
  later _ latest ends := by
    rw [List.getLast?_concat] at ends
    cases ends
    exact later

/-- While the bound is not reached, every choice is behind the grants. -/
def Ahead (rule : Rule τ) (trace : List (τ × Bool))
    (usage : Option (ℤ × τ)) : Prop :=
  ∀ count last, usage = some (count, last) → count < rule.bound →
    ∀ chosen, Choice rule trace chosen → Behind count last chosen

theorem Ahead.step
    (early : ∀ {first second third : τ}, first ≤ second →
      rule.Waited second third → rule.Waited first third)
    (reflects : Reflects rule trace before)
    (ordered : ∀ time ∈ times trace, time ≤ label.1)
    (ahead : Ahead rule trace before)
    (taken : Step rule before label after) :
    Ahead rule (trace ++ [label]) after := by
  intro count last remembered within chosen choice
  cases taken with
  | opened time =>
      cases remembered
      obtain rfl := reflects.unasked rfl
      rcases choice.concat with choice | ⟨fewer, rfl, choice, -⟩
      · rw [choice_nil_iff.mp choice]
        exact .of_shorter Int.zero_lt_one
      · rw [choice_nil_iff.mp choice]
        exact .concat Int.zero_lt_one le_rfl
  | @granted count last time room waited =>
      cases remembered
      rcases choice.concat with choice | ⟨fewer, rfl, choice, -⟩
      · have behind := ahead count last rfl room chosen choice
        exact .of_shorter (Int.lt_add_one_iff.mpr behind.shorter)
      · have behind := ahead count last rfl room fewer choice
        exact .concat (Int.lt_add_one_iff.mpr behind.shorter) le_rfl
  | @refused count last time refused =>
      cases remembered
      obtain ⟨requested, positive⟩ := reflects.mem_times rfl
      rcases choice.concat with choice | ⟨fewer, rfl, choice, waited⟩
      · exact ahead count last rfl within chosen choice
      · have behind := ahead count last rfl within fewer choice
        refine .concat (lt_of_le_of_ne behind.shorter fun same => ?_)
          (ordered last requested)
        -- A choice as long as the grants ends in a request that has waited.
        obtain ⟨latest, ends⟩ : ∃ latest, fewer.getLast? = some latest := by
          apply Option.isSome_iff_exists.mp
          rw [List.getLast?_isSome]
          rintro rfl
          simp only [List.length_nil] at same
          omega
        exact refused ⟨within,
          early (behind.later same latest ends) (waited latest ends)⟩

theorem ahead_of_run
    (early : ∀ {first second third : τ}, first ≤ second →
      rule.Waited second third → rule.Waited first third)
    (ordered : (times trace).Pairwise (· ≤ ·))
    (run : Run (Step rule) none trace usage) : Ahead rule trace usage := by
  let holds (front : List (τ × Bool)) (usage : Option (ℤ × τ)) : Prop :=
    Reflects rule front usage ∧
      ((times front).Pairwise (· ≤ ·) → Ahead rule front usage)
  have preserved : ∀ {front before label after},
      holds front before → Step rule before label after →
        holds (front ++ [label]) after := by
    rintro front before label after ⟨reflects, ahead⟩ taken
    refine ⟨reflects.step taken, fun ordered => ?_⟩
    rw [times_append, List.pairwise_append] at ordered
    refine (ahead ordered.1).step early reflects (fun time asked => ?_) taken
    exact ordered.2.2 time asked label.1 List.mem_cons_self
  have start : holds [] none := by
    refine ⟨reflects_nil, fun _ count last remembered => ?_⟩
    cases remembered
  exact (run.history preserved start).2 ordered

/-- Up to the bound there are as many grants as requests can be chosen. -/
theorem le_length_grants_iff
    (early : ∀ {first second third : τ}, first ≤ second →
      rule.Waited second third → rule.Waited first third)
    (ordered : (times trace).Pairwise (· ≤ ·))
    (run : Run (Step rule) none trace usage) {n : ℕ}
    (within : (n : ℤ) ≤ max 1 rule.bound) :
    n ≤ (grants trace).length ↔
      ∃ chosen, Choice rule trace chosen ∧ chosen.length = n := by
  have reflects := reflects_of_run run
  constructor
  · intro reached
    refine ⟨(grants trace).take n, ⟨?_, reflects.spaced.take n⟩,
      List.length_take_of_le reached⟩
    exact (List.take_sublist n _).trans (grants_sublist trace)
  · rintro ⟨chosen, choice, rfl⟩
    cases remembered : usage with
    | none =>
        obtain rfl := reflects.unasked remembered
        rw [choice_nil_iff.mp choice]
        exact Nat.zero_le _
    | some record =>
        obtain ⟨count, last⟩ := record
        have positive := (reflects.mem_times remembered).2
        have counted := reflects.counted (count, last) remembered
        dsimp only at counted
        rcases lt_or_ge count rule.bound with below | above
        · have behind := ahead_of_run early ordered run count last remembered
            below chosen choice
          have shorter := behind.shorter
          omega
        · omega

end Longest

end WindowSystem.Library.SpacedGrants
