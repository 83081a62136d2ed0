import Mathlib.Algebra.Order.Ring.Int
import WindowSystem.Statistics.CounterRows

/-!
# The reports of days and of hours

Every counted request is in the counter of the day and in the counter of the
hour.  The rolls move the counters to closed rows, the counters of the hour
sooner than those of the day; the day roll then deletes the hash with both.
For each of the two kinds of rows the closed ones and the counter make up a
ledger of all requests.  An hour may have two rows: one from a first impression
before the roll of the hour, one from this roll.
-/

namespace WindowSystem.Statistics.Reports

open WindowSystem.Library.LabelledRun
open WindowSystem.Sspserver.JavaRuntime
open WindowSystem.Statistics.AdLogService (CkServer Counter Request)
open WindowSystem.Statistics.AdStatInfo
open WindowSystem.Statistics.CounterRows
open WindowSystem.Statistics.Redis
open WindowSystem.Statistics.RollOver (skipped)

/-! ## Sums over rows -/

/-- A column of a row; `NULL` adds nothing. -/
def num (count : Count) (row : AdStatBase) : Int :=
  (row.nums count).getD 0

/-- What a row adds to the sum of the rows of a kind. -/
def part (numType : NumType) (covers : Int → Bool) (count : Count)
    (row : AdStatBase) : Int :=
  if row.numType = numType ∧ covers row.ts = true then num count row else 0

/-- `select sum(..) from ad_stat_info where num_type = ? and ..` -/
def sumOver (table : List AdStatBase) (numType : NumType)
    (covers : Int → Bool) (count : Count) : Int :=
  (table.map (part numType covers count)).sum

/-- The rows that begin before a time. -/
def earlier (time : Int) (ts : Int) : Bool :=
  ts < time

section Sums

variable {table : List AdStatBase} {numType other : NumType} {ts time : Int}
  {covers : Int → Bool} {count : Count} {nums : Count → Option Int}

theorem num_newRow : num count (newRow other time) = 0 :=
  rfl

theorem sumOver_append_newRow :
    sumOver (table ++ [newRow other time]) numType covers count =
      sumOver table numType covers count := by
  rw [sumOver, List.map_append, List.sum_append, List.map_singleton,
    List.sum_singleton, part, num_newRow, ite_self, add_zero]
  rfl

theorem sumOver_insertMissing :
    sumOver (insertMissing other time table) numType covers count =
      sumOver table numType covers count := by
  rw [insertMissing]
  split_ifs
  · rfl
  · exact sumOver_append_newRow

theorem mem_insertMissing {row : AdStatBase}
    (member : row ∈ insertMissing other time table) :
    row ∈ table ∨ row = newRow other time := by
  rw [insertMissing] at member
  split_ifs at member
  · exact .inl member
  · simpa using member

/-- An update that does not touch the rows of the sum. -/
theorem sumOver_update_of_ne
    (apart : numType = other → covers time = false) :
    sumOver (updateAdStatBase other time nums table) numType covers count =
      sumOver table numType covers count := by
  rw [sumOver, updateAdStatBase, List.map_map, sumOver]
  congr 1
  apply List.map_congr_left
  intro row _
  rw [Function.comp_apply]
  split_ifs with same
  · rw [AdStatBase.isAt, Bool.and_eq_true, decide_eq_true_eq,
      decide_eq_true_eq] at same
    obtain ⟨rfl, rfl⟩ := same
    have skipped : ¬ (row.numType = numType ∧ covers row.ts = true) := by
      rintro ⟨equal, covered⟩
      rw [apart equal.symm] at covered
      cases covered
    rw [part, part, if_neg skipped, if_neg skipped]
  · rfl

theorem sum_isAt (table : List AdStatBase) (numType : NumType) (ts : Int)
    (value : Int) :
    (table.map fun row => if row.isAt numType ts then value else 0).sum =
      rowCount table numType ts * value := by
  induction table with
  | nil => exact (zero_mul value).symm
  | cons row rows induction =>
      rw [List.map_cons, List.sum_cons, induction, rowCount, rowCount,
        List.countP_cons]
      split_ifs
      · rw [Nat.cast_add, Nat.cast_one, add_mul, one_mul, add_comm]
      · rw [zero_add, add_zero]

/-- Every row of a period gets the counter, and counts from now on. -/
theorem sumOver_update_earlier (later : ts < time)
    (ahead : ∀ row ∈ table, row.numType = numType → ts < row.ts →
      num count row = 0) :
    sumOver (updateAdStatBase numType ts nums table) numType (earlier time)
        count =
      sumOver table numType (earlier ts) count +
        rowCount table numType ts * (nums count).getD 0 := by
  have parts : ∀ row ∈ table,
      part numType (earlier time) count
          (if row.isAt numType ts then { row with nums := nums } else row) =
        part numType (earlier ts) count row +
          if row.isAt numType ts then (nums count).getD 0 else 0 := by
    intro row member
    by_cases at' : row.isAt numType ts = true
    · have same := at'
      rw [AdStatBase.isAt, Bool.and_eq_true, decide_eq_true_eq,
        decide_eq_true_eq] at same
      simp [at', part, num, earlier, same.1, same.2, later]
    · rw [if_neg at', if_neg at', add_zero, part, part]
      by_cases kind : row.numType = numType
      · have other : row.ts ≠ ts := by
          rintro rfl
          exact at' (by simp [AdStatBase.isAt, kind])
        rcases lt_or_gt_of_ne other with below | above
        · simp [kind, earlier, below, below.trans later]
        · simp [kind, earlier, ahead row member kind above]
      · simp [kind]
  rw [sumOver, updateAdStatBase, List.map_map, sumOver]
  refine (congrArg List.sum (List.map_congr_left parts)).trans ?_
  rw [List.sum_map_add, sum_isAt]

end Sums

/-! ## Ledgers -/

/-- The closed rows of a kind and the counter have all requests.  Rows of
later periods are blank, and so is the one of the running period while there
is no key. -/
structure Ledger (numType : NumType) (count : Count) (time : Int)
    (table : List AdStatBase) (held : Bool) (counter total : Int) : Prop where
  balance : sumOver table numType (earlier time) count + counter = total
  ahead : ∀ row ∈ table, row.numType = numType → time < row.ts →
    num count row = 0
  blank : held = false → ∀ row ∈ table, row.numType = numType →
    row.ts = time → num count row = 0

namespace Ledger

variable {numType other : NumType} {count : Count} {time ts : Int}
  {table : List AdStatBase} {held : Bool} {counter total : Int}

/-- More requests, and a key that may have come into being. -/
theorem count_more (ledger : Ledger numType count time table held counter
    total) (more : Int) {present : Bool}
    (kept : present = false → held = false) :
    Ledger numType count time table present (counter + more)
      (total + more) where
  balance := by rw [← ledger.balance, add_assoc]
  ahead := ledger.ahead
  blank absent := ledger.blank (kept absent)

theorem insertMissing (ledger : Ledger numType count time table held counter
    total) (other : NumType) (ts : Int) :
    Ledger numType count time (insertMissing other ts table) held counter
      total where
  balance := by rw [sumOver_insertMissing, ledger.balance]
  ahead := by
    intro row member
    rcases mem_insertMissing member with old | rfl
    · exact ledger.ahead row old
    · exact fun _ _ => num_newRow
  blank := by
    intro absent row member
    rcases mem_insertMissing member with old | rfl
    · exact ledger.blank absent row old
    · exact fun _ _ => num_newRow

theorem append_newRow (ledger : Ledger numType count time table held counter
    total) (other : NumType) (ts : Int) :
    Ledger numType count time (table ++ [newRow other ts]) held counter
      total where
  balance := by rw [sumOver_append_newRow, ledger.balance]
  ahead := by
    intro row member
    rcases List.mem_append.mp member with old | new
    · exact ledger.ahead row old
    · rw [List.mem_singleton.mp new]
      exact fun _ _ => num_newRow
  blank := by
    intro absent row member
    rcases List.mem_append.mp member with old | new
    · exact ledger.blank absent row old
    · rw [List.mem_singleton.mp new]
      exact fun _ _ => num_newRow

/-- Rows of the other kind do not matter. -/
theorem update_other (ledger : Ledger numType count time table held counter
    total) (ne : numType ≠ other) (ts : Int) (nums : Count → Option Int) :
    Ledger numType count time (updateAdStatBase other ts nums table) held
      counter total := by
  have same : ∀ row ∈ updateAdStatBase other ts nums table,
      row.numType = numType → row ∈ table := by
    intro row member kind
    obtain ⟨old, inside, rfl⟩ := List.mem_map.mp member
    split_ifs at kind ⊢ with at'
    · rw [AdStatBase.isAt, Bool.and_eq_true, decide_eq_true_eq] at at'
      exact absurd (kind.symm.trans at'.1) ne
    · exact inside
  constructor
  · rw [sumOver_update_of_ne fun equal => absurd equal ne, ledger.balance]
  · exact fun row member kind => ledger.ahead row (same row member kind) kind
  · exact fun absent row member kind =>
      ledger.blank absent row (same row member kind) kind

/-- The row of the running period may say anything while there is a key. -/
theorem update_current (ledger : Ledger numType count time table true counter
    total) (nums : Count → Option Int) :
    Ledger numType count time (updateAdStatBase numType time nums table) true
      counter total where
  balance := by
    rw [sumOver_update_of_ne, ledger.balance]
    intro _
    exact decide_eq_false (lt_irrefl time)
  ahead := by
    intro row member kind later
    obtain ⟨old, inside, rfl⟩ := List.mem_map.mp member
    split_ifs at kind later ⊢ with at'
    · rw [AdStatBase.isAt, Bool.and_eq_true, decide_eq_true_eq,
        decide_eq_true_eq] at at'
      exact absurd at'.2 (ne_of_gt later)
    · exact ledger.ahead old inside kind later
  blank absent := by cases absent

/-- The period ends, and its only row gets the counter. -/
theorem close (ledger : Ledger numType count time table held counter total)
    (one : counter = 0 ∨ rowCount table numType time = 1)
    (nums : Count → Option Int)
    (read : (nums count).getD 0 = counter) (later : time < ts)
    (present : Bool) :
    Ledger numType count ts (updateAdStatBase numType time nums table)
      present 0 total := by
  have after : ∀ row ∈ updateAdStatBase numType time nums table,
      row.numType = numType → time < row.ts → num count row = 0 := by
    intro row member kind above
    obtain ⟨old, inside, rfl⟩ := List.mem_map.mp member
    split_ifs at kind above ⊢ with at'
    · rw [AdStatBase.isAt, Bool.and_eq_true, decide_eq_true_eq,
        decide_eq_true_eq] at at'
      exact absurd at'.2 (ne_of_gt above)
    · exact ledger.ahead old inside kind above
  have once : (rowCount table numType time : Int) * counter = counter := by
    rcases one with nothing | one
    · rw [nothing, mul_zero]
    · rw [one, Nat.cast_one, one_mul]
  constructor
  · rw [sumOver_update_earlier later ledger.ahead, read, once, add_zero,
      ledger.balance]
  · exact fun row member kind above =>
      after row member kind (later.trans above)
  · exact fun _ row member kind same =>
      after row member kind (later.trans_eq same.symm)

/-- The key goes, and with it the counter, while the row is still blank. -/
theorem lose (ledger : Ledger numType count time table held counter total)
    (blank : ∀ row ∈ table, row.numType = numType → row.ts = time →
      num count row = 0) :
    Ledger numType count time table false 0 (total - counter) where
  balance := by rw [← ledger.balance, add_sub_cancel_right, add_zero]
  ahead := ledger.ahead
  blank _ := blank

/-- Without a key only the rows of earlier periods add to a sum. -/
theorem sumOver_eq
    (ledger : Ledger numType count time table false counter total)
    {covers : Int → Bool} (all : ∀ ts < time, covers ts = true) :
    sumOver table numType covers count =
      sumOver table numType (earlier time) count := by
  rw [sumOver, sumOver]
  congr 1
  apply List.map_congr_left
  intro row member
  rw [part, part]
  by_cases kind : row.numType = numType
  · rcases lt_trichotomy row.ts time with below | same | above
    · simp [kind, earlier, below, all row.ts below]
    · simp [kind, earlier, ledger.blank rfl row member kind same]
    · simp [kind, earlier, ledger.ahead row member kind above]
  · simp [kind]

/-- The period ends without a key, its row stays blank. -/
theorem skip (ledger : Ledger numType count time table false counter total)
    (later : time < ts) (present : Bool) :
    Ledger numType count ts table present counter total where
  balance := by
    rw [← ledger.balance, ledger.sumOver_eq]
    exact fun early below => decide_eq_true (below.trans later)
  ahead row member kind above :=
    ledger.ahead row member kind (later.trans above)
  blank _ row member kind same :=
    ledger.ahead row member kind (later.trans_eq same.symm)

end Ledger

/-! ## Runs -/

/-- The day that the counters of the day belong to. -/
def counterDay (system : System) : Int :=
  if system.dayRolled then system.today else system.today - 24

/-- The hour that the counters of the hour belong to. -/
def counterHour (system : System) : Int :=
  if system.hourRolled then system.now else system.now - 1

/-- Both ledgers have the same requests; between the rolls of midnight the
rows of the new hour are blank, and no day has two rows. -/
structure Balanced (count : Count) (system : System) (total : Int) :
    Prop where
  day : Ledger .day count (counterDay system) system.table
    system.keys.main.exists (system.keys.number ⟨.today, count⟩) total
  hour : Ledger .hour count (counterHour system) system.table
    system.keys.main.exists (system.keys.number ⟨.currentHour, count⟩) total
  morning : system.dayRolled = false → system.hourRolled = true →
    ∀ row ∈ system.table, row.numType = .hour → row.ts = system.now →
      num count row = 0
  dayOnce : ∀ ts, rowCount system.table .day ts ≤ 1

/-- The schedule of the timers, with the rows that they need: an hour begins
when the rolls of the last one are done, the hour roll comes first, the day
roll follows at midnight, and the minute sync comes after both. -/
def OnSchedule (server : CkServer) (adId : JavaString) (system : System) :
    Event → Prop
  | .tick => system.hourRolled = true ∧ system.dayRolled = true
  | .hourRoll => system.hourRolled = false ∧
      (rolls server adId system = true →
        0 < rowCount system.table .hour (system.now - 1))
  | .dayRoll => (system.hourRolled = true ∧ system.dayRolled = false) ∧
      (rolls server adId system = true →
        0 < rowCount system.table .day (system.today - 24))
  | .minuteSync => rolls server adId system = true →
      system.hourRolled = true ∧ system.dayRolled = true
  | .request _ => True
  | .ipUv => True

/-- A day roll comes before anything is counted in the new day, and an hour
roll that has something to write finds one row of the hour that has ended. -/
def QuietRolls (count : Count) (system : System) : Event → Prop
  | .dayRoll => system.keys.number ⟨.currentHour, count⟩ = 0
  | .hourRoll => system.keys.number ⟨.currentHour, count⟩ = 0 ∨
      rowCount system.table .hour (system.now - 1) = 1
  | _ => True

/-- The events that a column counts. -/
def counted (server : CkServer) (count : Count) : Event → Bool
  | .request request => server.counts ⟨.today, count⟩ request
  | _ => false

section Steps

variable {server : CkServer} {adId : JavaString} {count : Count}
  {system : System} {total : Int}

theorem balanced_initial (now : Int) : Balanced count (initial now) 0 where
  day := ⟨rfl, by simp [initial], by simp [initial]⟩
  hour := ⟨rfl, by simp [initial], by simp [initial]⟩
  morning := by simp [initial]
  dayOnce := by simp [initial, rowCount]

/-- A column counts the same requests for the day and for the hour. -/
theorem counts_currentHour (server : CkServer) (count : Count)
    (request : Request) :
    server.counts ⟨.currentHour, count⟩ request =
      server.counts ⟨.today, count⟩ request := by
  cases request <;> rfl

theorem balanced_serve (balanced : Balanced count system total)
    (request : Request) (notUv : count ≠ .uv) (notIp : count ≠ .ip) :
    Balanced count (serve server request system)
      (total +
        if server.counts ⟨.today, count⟩ request = true then 1 else 0) := by
  have today : (serve server request system).keys.number ⟨.today, count⟩ =
      system.keys.number ⟨.today, count⟩ +
        if server.counts ⟨.today, count⟩ request = true then 1 else 0 :=
    number_serve server request system ⟨⟨.today, count⟩, notUv, notIp⟩
  have currentHour :
      (serve server request system).keys.number ⟨.currentHour, count⟩ =
        system.keys.number ⟨.currentHour, count⟩ +
          if server.counts ⟨.today, count⟩ request = true then 1 else 0 :=
    counts_currentHour server count request ▸ number_serve server request
      system ⟨⟨.currentHour, count⟩, notUv, notIp⟩
  have kept : (serve server request system).keys.main.exists = false →
      system.keys.main.exists = false := by
    intro absent
    rw [← Bool.not_eq_true]
    intro held
    rw [exists_serve server request held] at absent
    cases absent
  generalize (if server.counts ⟨.today, count⟩ request = true then (1 : Int)
    else 0) = more at today currentHour ⊢
  obtain ⟨day, hour, morning, dayOnce⟩ := balanced
  replace day := day.count_more more kept
  replace hour := hour.count_more more kept
  rw [← today] at day
  rw [← currentHour] at hour
  rcases serve_cases server request system with
    ⟨commands, adds, _, _, served⟩ |
    ⟨impressInfo, userAgent, absent, task, served⟩
  · rw [served] at day hour ⊢
    exact ⟨day, hour, morning, dayOnce⟩
  · rw [served] at day hour ⊢
    refine ⟨(day.insertMissing _ _).insertMissing _ _,
      (hour.insertMissing _ _).insertMissing _ _, ?_, fun ts => ?_⟩
    case refine_2 =>
      have former := dayOnce ts
      rw [rowCount_insertMissing, rowCount_insertMissing]
      split_ifs <;> omega
    intro waiting rolled row member kind same
    rcases mem_insertMissing member with old | rfl
    · rcases mem_insertMissing old with older | rfl
      · exact morning waiting rolled row older kind same
      · exact num_newRow
    · exact num_newRow

theorem balanced_ipUv (balanced : Balanced count system total)
    (notUv : count ≠ .uv) (notIp : count ≠ .ip) :
    Balanced count (ipUv server adId system) total := by
  rw [ipUv]
  split_ifs with held
  · have number : ∀ period, (runPlan (RollOver.adIpUvCalc server.platform
        adId) system.keys).number ⟨period, count⟩ =
          system.keys.number ⟨period, count⟩ := fun period =>
      number_adIpUvCalc system.keys ⟨⟨period, count⟩, notUv, notIp⟩
    have present : (runPlan (RollOver.adIpUvCalc server.platform adId)
        system.keys).main.exists = system.keys.main.exists :=
      (exists_adIpUvCalc held).trans held.symm
    obtain ⟨day, hour, morning, dayOnce⟩ := balanced
    rw [← number, ← present] at day hour
    exact ⟨day, hour, morning, dayOnce⟩
  · exact balanced

theorem day_ne_hour : NumType.day ≠ .hour := by
  decide

theorem balanced_minuteSync (balanced : Balanced count system total)
    (scheduled : OnSchedule server adId system .minuteSync) :
    Balanced count (minuteSync server adId system) total := by
  rw [minuteSync]
  split_ifs with found
  · obtain ⟨hourRolled, dayRolled⟩ := scheduled found
    have held : system.keys.main.exists = true := by
      rw [rolls, Bool.and_eq_true] at found
      exact found.1
    have today : counterDay system = system.today := by
      rw [counterDay, dayRolled, if_pos rfl]
    have now : counterHour system = system.now := by
      rw [counterHour, hourRolled, if_pos rfl]
    obtain ⟨day, hour, morning, dayOnce⟩ := balanced
    rw [today, held] at day
    rw [now, held] at hour
    refine ⟨?_, ?_, ?_, by simpa using dayOnce⟩
    · show Ledger .day count (counterDay system) _ system.keys.main.exists _
        total
      rw [today, held]
      exact (day.update_current _).update_other day_ne_hour _ _
    · show Ledger .hour count (counterHour system) _ system.keys.main.exists
        _ total
      rw [now, held]
      exact (hour.update_other day_ne_hour.symm _ _).update_current _
    · intro waiting
      cases dayRolled.symm.trans waiting
  · exact balanced

theorem balanced_hourRoll (numeric : skipped server.platform adId = false)
    (balanced : Balanced count system total) (notUv : count ≠ .uv)
    (notIp : count ≠ .ip)
    (scheduled : OnSchedule server adId system .hourRoll)
    (quiet : QuietRolls count system .hourRoll) :
    Balanced count (hourRoll server adId system) total := by
  obtain ⟨waiting, -⟩ := scheduled
  obtain ⟨day, hour, morning, dayOnce⟩ := balanced
  rw [counterHour, waiting, if_neg Bool.false_ne_true] at hour
  have later : system.now - 1 < system.now := sub_one_lt system.now
  rw [hourRoll]
  split_ifs with found
  · have held := (rolls_iff numeric system).mp found
    have present : (runPlan (RollOver.adStatInfoToMysqlHour server.platform
        adId) system.keys).main.exists = true :=
      exists_adStatInfoToMysqlHour held
    have today : (runPlan (RollOver.adStatInfoToMysqlHour server.platform
        adId) system.keys).number ⟨.today, count⟩ =
          system.keys.number ⟨.today, count⟩ :=
      number_adStatInfoToMysqlHour numeric system.keys
        ⟨⟨.today, count⟩, notUv, notIp⟩
    have currentHour : (runPlan (RollOver.adStatInfoToMysqlHour
        server.platform adId) system.keys).number ⟨.currentHour, count⟩ = 0 :=
      number_adStatInfoToMysqlHour numeric system.keys
        ⟨⟨.currentHour, count⟩, notUv, notIp⟩
    have closed := (hour.close quiet
      (periodNums system.keys .currentHour) rfl later true).append_newRow
        .hour system.now
    have others := (day.update_other day_ne_hour (system.now - 1)
      (periodNums system.keys .currentHour)).append_newRow .hour system.now
    rw [held, ← present, ← today] at others
    have reset := closed
    rw [← present, ← currentHour] at reset
    refine ⟨others, reset, ?_, fun ts => ?_⟩
    case refine_2 =>
      rw [rowCount_append_newRow, rowCount_update,
        if_neg fun both => day_ne_hour both.1.symm]
      exact dayOnce ts
    intro _ _ row member kind same
    rcases List.mem_append.mp member with old | new
    · obtain ⟨former, inside, rfl⟩ := List.mem_map.mp old
      split_ifs at kind same ⊢ with at'
      · rw [AdStatBase.isAt, Bool.and_eq_true, decide_eq_true_eq,
          decide_eq_true_eq] at at'
        exact absurd (same.symm.trans at'.2) (ne_of_gt later)
      · exact hour.ahead former inside kind (later.trans_eq same.symm)
    · rw [List.mem_singleton.mp new]
      exact num_newRow
  · have absent : system.keys.main.exists = false :=
      Bool.eq_false_iff.mpr fun held =>
        found ((rolls_iff numeric system).mpr held)
    rw [absent] at hour
    have skipped := hour.skip later false
    rw [← absent] at skipped
    refine ⟨day, skipped, ?_, dayOnce⟩
    intro _ _ row member kind same
    exact hour.ahead row member kind (later.trans_eq same.symm)

/-- The day roll closes the ledger of the days; from the one of the hours it
takes the counter. -/
theorem ledgers_dayRoll (numeric : skipped server.platform adId = false)
    (balanced : Balanced count system total)
    (scheduled : OnSchedule server adId system .dayRoll) :
    (dayRoll server adId system).keys.main.exists = false ∧
    Ledger .day count system.today (dayRoll server adId system).table false
      0 total ∧
    Ledger .hour count system.now (dayRoll server adId system).table false 0
      (total - system.keys.number ⟨.currentHour, count⟩) := by
  obtain ⟨⟨hourRolled, waiting⟩, present⟩ := scheduled
  obtain ⟨day, hour, morning, dayOnce⟩ := balanced
  rw [counterHour, hourRolled, if_pos rfl] at hour
  rw [counterDay, waiting, if_neg Bool.false_ne_true] at day
  have later : system.today - 24 < system.today := by omega
  have lost := hour.lose (morning waiting hourRolled)
  rw [dayRoll]
  split_ifs with found
  · have one : rowCount system.table .day (system.today - 24) = 1 :=
      le_antisymm (dayOnce _) (present found)
    refine ⟨?_, day.close (Or.inr one) _ rfl later false,
      lost.update_other day_ne_hour.symm _ _⟩
    show AdStatHash.exists (runPlan _ system.keys).main = false
    rw [main_adStatInfoToMysqlDay numeric]
    rfl
  · have absent : system.keys.main.exists = false :=
      Bool.eq_false_iff.mpr fun held =>
        found ((rolls_iff numeric system).mpr held)
    rw [absent, number_of_not_exists absent] at day
    exact ⟨absent, day.skip later false, lost⟩

theorem balanced_dayRoll (numeric : skipped server.platform adId = false)
    (balanced : Balanced count system total)
    (scheduled : OnSchedule server adId system .dayRoll)
    (quiet : system.keys.number ⟨.currentHour, count⟩ = 0) :
    Balanced count (dayRoll server adId system) total := by
  obtain ⟨absent, day, hour⟩ := ledgers_dayRoll numeric balanced scheduled
  have hourRolled : (dayRoll server adId system).hourRolled = true := by
    rw [dayRoll]
    split_ifs <;> exact scheduled.1.1
  have dayRolled : (dayRoll server adId system).dayRolled = true := by
    rw [dayRoll]
    split_ifs <;> rfl
  have now : (dayRoll server adId system).now = system.now := by
    rw [dayRoll]
    split_ifs <;> rfl
  rw [quiet, sub_zero] at hour
  refine ⟨?_, ?_, ?_, fun ts => ?_⟩
  · rw [counterDay, dayRolled, if_pos rfl, absent,
      number_of_not_exists absent, System.today, now]
    exact day
  · rw [counterHour, hourRolled, if_pos rfl, absent,
      number_of_not_exists absent, now]
    exact hour
  · intro still
    cases dayRolled.symm.trans still
  · rw [dayRoll]
    split_ifs
    · exact (rowCount_update _ _ _ _ _ _).trans_le (balanced.dayOnce ts)
    · exact balanced.dayOnce ts

theorem balanced_tick (balanced : Balanced count system total)
    (scheduled : OnSchedule server adId system .tick) :
    Balanced count (tick system) total := by
  obtain ⟨hourRolled, dayRolled⟩ := scheduled
  obtain ⟨day, hour, morning, dayOnce⟩ := balanced
  have sameHour : counterHour (tick system) = counterHour system := by
    rw [counterHour, counterHour, hourRolled, if_pos rfl]
    exact add_sub_cancel_right system.now 1
  have sameDay : counterDay (tick system) = counterDay system := by
    rw [counterDay, counterDay, dayRolled, if_pos rfl, today_tick]
    have today : system.today = system.now - system.now % 24 := rfl
    by_cases midnight : (system.now + 1) % 24 = 0
    · have waits : (tick system).dayRolled = false := by
        simp [tick, midnight]
      rw [waits, if_neg Bool.false_ne_true, if_pos midnight, today]
      omega
    · have rolled : (tick system).dayRolled = true := by
        simp [tick, midnight]
      rw [rolled, if_pos rfl, if_neg midnight]
  exact ⟨sameDay ▸ day, sameHour ▸ hour, (fun _ rolled => by cases rolled),
    dayOnce⟩

/-- Every step on the schedule keeps both ledgers. -/
theorem balanced_step (numeric : skipped server.platform adId = false)
    (notUv : count ≠ .uv) (notIp : count ≠ .ip)
    (balanced : Balanced count system total) {event : Event}
    (scheduled : OnSchedule server adId system event)
    (quiet : QuietRolls count system event) :
    Balanced count (step server adId system event)
      (total + if counted server count event = true then 1 else 0) := by
  cases event with
  | request request => exact balanced_serve balanced request notUv notIp
  | ipUv =>
      show Balanced count _ (total + 0)
      rw [add_zero]
      exact balanced_ipUv balanced notUv notIp
  | minuteSync =>
      show Balanced count _ (total + 0)
      rw [add_zero]
      exact balanced_minuteSync balanced scheduled
  | hourRoll =>
      show Balanced count _ (total + 0)
      rw [add_zero]
      exact balanced_hourRoll numeric balanced notUv notIp scheduled quiet
  | dayRoll =>
      show Balanced count _ (total + 0)
      rw [add_zero]
      exact balanced_dayRoll numeric balanced scheduled quiet
  | tick =>
      show Balanced count _ (total + 0)
      rw [add_zero]
      exact balanced_tick balanced scheduled

/-- A run on the schedule whose day rolls come before anything is counted, and
whose hour rolls write to one row. -/
abbrev QuietRun (server : CkServer) (adId : JavaString) (count : Count) :
    System → List Event → System → Prop :=
  Run fun before event after =>
    (OnSchedule server adId before event ∧
      QuietRolls count before event) ∧ Step server adId before event after

/-- Both ledgers have the requests of the events so far. -/
def BalancedAfter (server : CkServer) (count : Count) (events : List Event)
    (system : System) : Prop :=
  Balanced count system (events.countP (counted server count))

theorem balanced_run (numeric : skipped server.platform adId = false)
    (notUv : count ≠ .uv) (notIp : count ≠ .ip) {now : Int}
    {events : List Event} {last : System}
    (run : QuietRun server adId count (initial now) events last) :
    Balanced count last (events.countP (counted server count)) := by
  apply @Run.history _ _ _ _ _ _ (BalancedAfter server count) _ run []
    (balanced_initial now)
  rintro front before event _ balanced ⟨⟨scheduled, quiet⟩, rfl⟩
  have next := balanced_step numeric notUv notIp balanced scheduled quiet
  rw [BalancedAfter, List.countP_append, List.countP_singleton,
    Nat.cast_add, Nat.cast_ite]
  exact next

end Steps

/-! ## After a day roll -/

/-- The reports of the closed days and of the hours, with the counters, are
the same. -/
def Agree (count : Count) (system : System) : Prop :=
  sumOver system.table .day (earlier system.today) count +
      system.keys.number ⟨.today, count⟩ =
    sumOver system.table .hour (fun _ => true) count +
      system.keys.number ⟨.currentHour, count⟩

section DayRoll

variable {server : CkServer} {adId : JavaString} {count : Count} {now : Int}
  {events : List Event} {system : System}

/-- After a day roll the closed days have all requests of the run. -/
theorem day_report (numeric : skipped server.platform adId = false)
    (notUv : count ≠ .uv) (notIp : count ≠ .ip)
    (run : QuietRun server adId count (initial now) events system)
    (scheduled : OnSchedule server adId system .dayRoll) :
    sumOver (dayRoll server adId system).table .day
        (earlier (dayRoll server adId system).today) count =
      events.countP (counted server count) := by
  have balanced := balanced_run numeric notUv notIp run
  obtain ⟨_, day, _⟩ := ledgers_dayRoll numeric balanced scheduled
  have today : (dayRoll server adId system).today = system.today := by
    rw [dayRoll]
    split_ifs <;> rfl
  rw [today, ← day.balance, add_zero]

/-- The hours have them apart from those that the day roll finds in the
counter of the new hour. -/
theorem hour_report (numeric : skipped server.platform adId = false)
    (notUv : count ≠ .uv) (notIp : count ≠ .ip)
    (run : QuietRun server adId count (initial now) events system)
    (scheduled : OnSchedule server adId system .dayRoll) :
    sumOver (dayRoll server adId system).table .hour (fun _ => true) count =
      events.countP (counted server count) -
        system.keys.number ⟨.currentHour, count⟩ := by
  have balanced := balanced_run numeric notUv notIp run
  obtain ⟨_, _, hour⟩ := ledgers_dayRoll numeric balanced scheduled
  rw [← hour.balance, add_zero, hour.sumOver_eq fun _ _ => rfl]

/-- After a day roll the reports agree exactly if the roll came before
anything was counted in the new day. -/
theorem agree_iff_quiet (numeric : skipped server.platform adId = false)
    (notUv : count ≠ .uv) (notIp : count ≠ .ip)
    (run : QuietRun server adId count (initial now) events system)
    (scheduled : OnSchedule server adId system .dayRoll) :
    Agree count (step server adId system .dayRoll) ↔
      system.keys.number ⟨.currentHour, count⟩ = 0 := by
  have balanced := balanced_run numeric notUv notIp run
  obtain ⟨absent, _, _⟩ := ledgers_dayRoll numeric balanced scheduled
  show Agree count (dayRoll server adId system) ↔ _
  rw [Agree, number_of_not_exists absent, number_of_not_exists absent,
    add_zero, add_zero, day_report numeric notUv notIp run scheduled,
    hour_report numeric notUv notIp run scheduled]
  omega

end DayRoll

/-- An ad that nobody sees between the rolls of midnight. -/
theorem agree_at_midnight :
    Agree .pv ([firstImpression, .tick, .hourRoll, .dayRoll].foldl
      (step CkServer.plain (text "7")) (initial 23)) := by
  have run : QuietRun CkServer.plain (text "7") .pv (initial 23)
      [firstImpression, .tick, .hourRoll]
      ([firstImpression, .tick, .hourRoll].foldl
        (step CkServer.plain (text "7")) (initial 23)) :=
    .cons ⟨⟨trivial, trivial⟩, rfl⟩
      (.cons ⟨⟨⟨rfl, rfl⟩, trivial⟩, rfl⟩
        (.cons ⟨⟨⟨rfl, fun _ => by decide +kernel⟩,
          Or.inr (by decide +kernel)⟩, rfl⟩ (.nil _)))
  refine (agree_iff_quiet (by decide +kernel) (by decide) (by decide) run
    ?_).mpr (by decide +kernel)
  exact ⟨⟨rfl, by decide +kernel⟩, fun _ => by decide +kernel⟩

instance (server : CkServer) (adId : JavaString) (system : System) :
    (event : Event) → Decidable (OnSchedule server adId system event)
  | .tick => inferInstanceAs (Decidable (_ ∧ _))
  | .hourRoll => inferInstanceAs (Decidable (_ ∧ (_ → _)))
  | .dayRoll => inferInstanceAs (Decidable (_ ∧ (_ → _)))
  | .minuteSync => inferInstanceAs (Decidable (_ → _ ∧ _))
  | .request _ => inferInstanceAs (Decidable True)
  | .ipUv => inferInstanceAs (Decidable True)

/-- All events are on the schedule when their turn comes. -/
def scheduledFrom (server : CkServer) (adId : JavaString) :
    System → List Event → Bool
  | _, [] => true
  | system, event :: rest =>
      decide (OnSchedule server adId system event) &&
        scheduledFrom server adId (step server adId system event) rest

theorem run_of_scheduledFrom {server : CkServer} {adId : JavaString}
    {first : System} {events : List Event}
    (scheduled : scheduledFrom server adId first events = true) :
    Run (fun before event after =>
      OnSchedule server adId before event ∧ Step server adId before event
        after) first events (events.foldl (step server adId) first) := by
  induction events generalizing first with
  | nil => exact .nil first
  | cons event rest induction =>
      rw [scheduledFrom, Bool.and_eq_true, decide_eq_true_iff] at scheduled
      exact .cons ⟨scheduled.1, rfl⟩ (induction scheduled.2)

/-- An impression between the rolls of midnight. -/
def midnightImpression : List Event :=
  [firstImpression, .tick, .hourRoll, firstImpression, .dayRoll]

/-- The first impression of a day before the roll of its second hour, another
one in this hour, and nothing else until midnight. -/
def earlyImpression : List Event :=
  [firstImpression, .tick, .hourRoll, .dayRoll, .tick, firstImpression,
    .hourRoll, firstImpression] ++
    (List.replicate 23 [Event.tick, .hourRoll]).flatten ++ [.dayRoll]

/-- An impression between the rolls of midnight is in the report of the day
that has ended and in no report of an hour.  An impression before the roll of
an hour leads to a second row of the hour, and what is counted in it to two
reports of an hour. -/
theorem exists_disagreement :
    (∃ last, Run (fun before event after =>
        OnSchedule CkServer.plain (text "7") before event ∧
          Step CkServer.plain (text "7") before event after)
        (initial 23) midnightImpression last ∧
      sumOver last.table .day (earlier last.today) .pv = 2 ∧
      sumOver last.table .hour (fun _ => true) .pv = 1 ∧
      ¬ Agree .pv last) ∧
    ∃ last, Run (fun before event after =>
        OnSchedule CkServer.plain (text "7") before event ∧
          Step CkServer.plain (text "7") before event after)
        (initial 23) earlyImpression last ∧
      sumOver last.table .day (earlier last.today) .pv = 3 ∧
      sumOver last.table .hour (fun _ => true) .pv = 4 ∧
      ¬ Agree .pv last := by
  constructor
  · refine ⟨_, run_of_scheduledFrom (by decide +kernel), ?_, ?_, ?_⟩
    · decide +kernel
    · decide +kernel
    · rw [Agree]
      decide +kernel
  · refine ⟨_, run_of_scheduledFrom (by decide +kernel), ?_, ?_, ?_⟩
    · decide +kernel
    · decide +kernel
    · rw [Agree]
      decide +kernel

end WindowSystem.Statistics.Reports
