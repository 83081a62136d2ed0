import WindowSystem.Library.BatchedCount
import WindowSystem.Sspserver.JavaRuntime

/-!
# The counter of the requests of a day

`OnlineMonitorUtil.vaildSspPushOnlineMontor` counts the requests of all regions
and of two of them in static variables.  When more than 1000 are counted they
are added in redis to the fields of the current date, whatever the dates were
on which they were counted.
-/

namespace WindowSystem.Sspserver.OnlineMonitorUtil

open WindowSystem.Library.BatchedCount
open WindowSystem.Sspserver.JavaRuntime

/-! ## The counters -/

/-- The static variables and the hashes in redis.  A field that is not there
counts as zero, as it does where the hashes are read. -/
structure Monitor where
  sspPushDaysumTemp : Nat
  sspPushDaysumJsTemp : Nat
  sspPushDaysumShTemp : Nat
  sspPushDaysum : JavaString → Nat
  sspPushDaysumJs : JavaString → Nat
  sspPushDaysumSh : JavaString → Nat

/-- The counters of a new program and a new database. -/
def Monitor.new : Monitor where
  sspPushDaysumTemp := 0
  sspPushDaysumJsTemp := 0
  sspPushDaysumShTemp := 0
  sspPushDaysum _ := 0
  sspPushDaysumJs _ := 0
  sspPushDaysumSh _ := 0

/-- `hincrBy` -/
def hincrBy (hash : JavaString → Nat) (field : JavaString)
    (amount : Nat) : JavaString → Nat :=
  Function.update hash field (hash field + amount)

/-- A call, the date on which it is made, and whether the pool gives a
connection. -/
structure Call where
  currentDate : JavaString
  area : JavaString
  connected : Bool

/-- The static variables after the call is counted. -/
def count (monitor : Monitor) (area : JavaString) : Monitor :=
  let counted :=
    { monitor with sspPushDaysumTemp := monitor.sspPushDaysumTemp + 1 }
  if area = text "1" then
    { counted with sspPushDaysumJsTemp := monitor.sspPushDaysumJsTemp + 1 }
  else if area = text "2" then
    { counted with sspPushDaysumShTemp := monitor.sspPushDaysumShTemp + 1 }
  else counted

/-- The pipeline to redis and the reset of the static variables. -/
def flush (monitor : Monitor) (currentDate : JavaString) : Monitor where
  sspPushDaysumTemp := 0
  sspPushDaysumJsTemp := 0
  sspPushDaysumShTemp := 0
  sspPushDaysum :=
    hincrBy monitor.sspPushDaysum currentDate monitor.sspPushDaysumTemp
  sspPushDaysumJs :=
    hincrBy monitor.sspPushDaysumJs currentDate monitor.sspPushDaysumJsTemp
  sspPushDaysumSh :=
    hincrBy monitor.sspPushDaysumSh currentDate monitor.sspPushDaysumShTemp

/-- `vaildSspPushOnlineMontor`; without a connection it ends in the exception
of `getJedis`, and what was counted stays in the static variables. -/
def vaildSspPushOnlineMontor (monitor : Monitor) (call : Call) : Monitor :=
  let counted := count monitor call.area
  if counted.sspPushDaysumTemp > 1000 then
    if call.connected then flush counted call.currentDate else counted
  else counted

/-- The counters after a sequence of calls. -/
def after (calls : List Call) : Monitor :=
  calls.foldl vaildSspPushOnlineMontor .new

/-! ## What should be counted -/

/-- The regions that have a counter. -/
inductive Region where
  | all
  | js
  | sh
deriving DecidableEq

/-- The calls of a region. -/
def Region.counts : Region → JavaString → Bool
  | .all, _ => true
  | .js, area => area = text "1"
  | .sh, area => area = text "2"

/-- What is not booked yet. -/
def Monitor.pending (monitor : Monitor) : Region → Nat
  | .all => monitor.sspPushDaysumTemp
  | .js => monitor.sspPushDaysumJsTemp
  | .sh => monitor.sspPushDaysumShTemp

/-- What is stored for a date. -/
def Monitor.stored (monitor : Monitor) (date : JavaString) : Region → Nat
  | .all => monitor.sspPushDaysum date
  | .js => monitor.sspPushDaysumJs date
  | .sh => monitor.sspPushDaysumSh date

/-- The number of calls on a date in a region. -/
def callsOn (calls : List Call) (date : JavaString) (region : Region) :
    Nat :=
  calls.countP fun call =>
    call.currentDate = date && region.counts call.area

/-- The date of the last call. -/
def today (calls : List Call) : Option JavaString :=
  calls.getLast?.map Call.currentDate

/-- For every date and region, what is stored is the number of calls, where
what is pending is counted with the current date. -/
def Conserved (calls : List Call) : Prop :=
  ∀ date region,
    (after calls).stored date region +
        (if today calls = some date then (after calls).pending region
        else 0) =
      callsOn calls date region

/-! ## The counters as batches -/

/-- The counters count calls and book them when there are more than 1000. -/
def rules : Batching JavaString Region Call where
  key := Call.currentDate
  amount call region := if region.counts call.area then 1 else 0
  due pending call := pending .all > 1000 && call.connected

/-- The counters of the program as counts. -/
def Monitor.view (monitor : Monitor) : Counts JavaString Region where
  pending := monitor.pending
  booked := monitor.stored

theorem pending_count (monitor : Monitor) (area : JavaString)
    (region : Region) :
    (count monitor area).pending region =
      monitor.pending region + if region.counts area then 1 else 0 := by
  by_cases first : area = text "1"
  · subst first
    have other : text "1" ≠ text "2" := by decide
    rw [count, if_pos rfl]
    cases region <;> simp [Monitor.pending, Region.counts, other]
  · by_cases second : area = text "2"
    · rw [count, if_neg first, if_pos second]
      cases region <;> simp [Monitor.pending, Region.counts, second]
      rw [← second]
      exact first
    · rw [count, if_neg first, if_neg second]
      cases region <;> simp [Monitor.pending, Region.counts, second, first]

theorem stored_count (monitor : Monitor) (area date : JavaString)
    (region : Region) :
    (count monitor area).stored date region = monitor.stored date region := by
  rw [count]
  dsimp only
  split_ifs <;> cases region <;> rfl

theorem view_flush (monitor : Monitor) (currentDate : JavaString) :
    (flush monitor currentDate).view =
      { pending := fun _ => 0
        booked :=
          Function.update monitor.stored currentDate fun region =>
            monitor.stored currentDate region + monitor.pending region } := by
  have pending : (flush monitor currentDate).pending = fun _ => 0 := by
    funext region
    cases region <;> rfl
  have stored : (flush monitor currentDate).stored =
      Function.update monitor.stored currentDate fun region =>
        monitor.stored currentDate region + monitor.pending region := by
    funext date region
    by_cases same : date = currentDate
    · subst same
      cases region <;>
        simp [flush, hincrBy, Monitor.stored, Monitor.pending]
    · cases region <;>
        simp [flush, hincrBy, Monitor.stored, Function.update_of_ne same]
  rw [Monitor.view, pending, stored]

/-- A call is a step of the batches. -/
theorem view_call (monitor : Monitor) (call : Call) :
    (vaildSspPushOnlineMontor monitor call).view =
      rules.step monitor.view call := by
  have pending : (count monitor call.area).pending = fun region =>
      monitor.pending region + rules.amount call region := by
    funext region
    exact pending_count monitor call.area region
  have stored : (count monitor call.area).stored = monitor.stored := by
    funext date region
    exact stored_count monitor call.area date region
  have number : (count monitor call.area).sspPushDaysumTemp =
      monitor.pending .all + rules.amount call .all :=
    pending_count monitor call.area .all
  rw [vaildSspPushOnlineMontor, Batching.step]
  dsimp only
  have due : rules.due (fun region =>
        monitor.view.pending region + rules.amount call region) call = true ↔
      (count monitor call.area).sspPushDaysumTemp > 1000 ∧
        call.connected = true := by
    rw [rules, Bool.and_eq_true, decide_eq_true_iff, number]
    rfl
  by_cases books : (count monitor call.area).sspPushDaysumTemp > 1000 ∧
      call.connected = true
  · rw [if_pos books.1, if_pos books.2, if_pos (due.mpr books), view_flush,
      pending, stored]
    rfl
  · rw [if_neg (mt due.mp books)]
    have kept : (if (count monitor call.area).sspPushDaysumTemp > 1000 then
        if call.connected then flush (count monitor call.area)
          call.currentDate
        else count monitor call.area
      else count monitor call.area) = count monitor call.area := by
      split_ifs with many connected
      · exact absurd ⟨many, connected⟩ books
      · rfl
      · rfl
    rw [kept, Monitor.view, pending, stored]
    rfl

theorem view_after (calls : List Call) :
    (after calls).view = rules.run calls := by
  induction calls using List.reverseRecOn with
  | nil =>
      rw [Monitor.view]
      congr
      · funext region
        cases region <;> rfl
      · funext date region
        cases region <;> rfl
  | append_singleton calls call induction =>
      rw [Batching.run_append, ← induction, ← view_call, after,
        List.foldl_append]
      rfl

theorem counted_eq_callsOn (calls : List Call) (date : JavaString)
    (region : Region) :
    rules.counted calls date region = callsOn calls date region := by
  induction calls using List.reverseRecOn with
  | nil => rfl
  | append_singleton calls call induction =>
      rw [Batching.counted_append, induction, callsOn, callsOn,
        List.countP_append, List.countP_singleton]
      by_cases same : call.currentDate = date
      · simp [rules, same]
      · simp [rules, same]

theorem conserved_iff (calls : List Call) :
    Conserved calls ↔ rules.Conserved calls := by
  simp only [Conserved, Batching.Conserved, Batching.accounted,
    ← view_after, counted_eq_callsOn]
  rfl

/-! ## Conservation -/

/-- What is pending in a region is pending in all of them. -/
theorem pending_le_all (calls : List Call) (region : Region) :
    (after calls).pending region ≤ (after calls).sspPushDaysumTemp := by
  induction calls using List.reverseRecOn with
  | nil => cases region <;> exact Nat.le_refl 0
  | append_singleton calls call induction =>
      have step : (after (calls ++ [call])).view =
          rules.step (after calls).view call := by
        rw [view_after, view_after, Batching.run_append]
      have pending := congrArg Counts.pending step
      have all := congrFun pending .all
      have part := congrFun pending region
      change (after (calls ++ [call])).sspPushDaysumTemp = _ at all
      change (after (calls ++ [call])).pending region = _ at part
      rw [all, part, Batching.step]
      dsimp only
      split_ifs
      · exact Nat.le_refl 0
      · refine Nat.add_le_add induction ?_
        rw [rules]
        dsimp only
        cases region <;> simp [Region.counts] <;> split <;> omega

/-- Every call is made on the date of the one before it, or nothing is
pending. -/
def DatesChangeEmpty (calls : List Call) : Prop :=
  ∀ front call, front ++ [call] <+: calls →
    today front = some call.currentDate ∨
      (after front).sspPushDaysumTemp = 0

/-- As long as the pool gives connections, what is pending is the rest of the
number of calls. -/
theorem pending_eq_mod {calls : List Call}
    (connected : ∀ call ∈ calls, call.connected = true) :
    (after calls).sspPushDaysumTemp = calls.length % 1001 := by
  induction calls using List.reverseRecOn with
  | nil => rfl
  | append_singleton calls call induction =>
      have before := induction fun other member =>
        connected other (List.mem_append_left _ member)
      have now := connected call (by simp)
      have number : (count (after calls) call.area).sspPushDaysumTemp =
          (after calls).sspPushDaysumTemp + 1 :=
        pending_count (after calls) call.area .all
      have one : after (calls ++ [call]) =
          vaildSspPushOnlineMontor (after calls) call := by
        rw [after, List.foldl_append]
        rfl
      rw [one, vaildSspPushOnlineMontor, List.length_append,
        List.length_singleton, now]
      have emptied : (flush (count (after calls) call.area)
          call.currentDate).sspPushDaysumTemp = 0 := rfl
      by_cases many : (count (after calls) call.area).sspPushDaysumTemp > 1000
      · rw [if_pos many, if_pos rfl, emptied]
        omega
      · rw [if_neg many]
        omega

/-- The calls of every date and region are accounted for at all times exactly
when no date begins with something pending; while there are connections this
says that the number of calls before is a multiple of 1001. -/
theorem conserved_always_iff (calls : List Call) :
    ((∀ front, front <+: calls → Conserved front) ↔
      DatesChangeEmpty calls) ∧
    ((∀ call ∈ calls, call.connected = true) →
      (DatesChangeEmpty calls ↔
        ∀ front call, front ++ [call] <+: calls →
          today front = some call.currentDate ∨
            front.length % 1001 = 0)) := by
  constructor
  · simp only [conserved_iff, Batching.conserved_prefixes_iff]
    refine forall₂_congr fun front call => imp_congr_right fun _ => ?_
    refine or_congr Iff.rfl ?_
    rw [← view_after]
    constructor
    · intro nothing
      exact nothing .all
    · intro nothing region
      have most := pending_le_all front region
      rw [nothing] at most
      exact Nat.le_zero.mp most
  · intro connected
    refine forall₂_congr fun front call => imp_congr_right fun inside => ?_
    rw [pending_eq_mod]
    intro other member
    exact connected other (inside.subset (List.mem_append_left _ member))

/-- A call before midnight and a thousand after it. -/
def midnight : List Call :=
  ⟨text "2015-05-01", text "1", true⟩ ::
    List.replicate 1000 ⟨text "2015-05-02", text "1", true⟩

/-- The call before midnight is booked on the new date. -/
theorem not_conserved_midnight :
    (after midnight).sspPushDaysum (text "2015-05-02") = 1001 ∧
      ¬ ∀ front, front <+: midnight → Conserved front := by
  constructor
  · decide +kernel
  · rw [(conserved_always_iff midnight).1]
    intro allowed
    have change := allowed [⟨text "2015-05-01", text "1", true⟩]
      ⟨text "2015-05-02", text "1", true⟩ ⟨List.replicate 999 _, rfl⟩
    revert change
    decide +kernel

end WindowSystem.Sspserver.OnlineMonitorUtil
