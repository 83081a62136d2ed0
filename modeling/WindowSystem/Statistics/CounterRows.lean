import WindowSystem.Statistics.AdStatInfo

/-!
# How many rows an ad has for the day and for the hour

The first impression of an ad inserts the rows of the day and of the hour,
later hours get theirs from the hour roll.  The day roll inserts nothing: it
deletes the key, and the first impression of the new day starts over.
-/

namespace WindowSystem.Statistics.CounterRows

open WindowSystem.Library.LabelledRun
open WindowSystem.Sspserver.JavaRuntime
open WindowSystem.Statistics.AdLogService (CkServer Request)
open WindowSystem.Statistics.AdStatInfo
open WindowSystem.Statistics.Redis
open WindowSystem.Statistics.RollOver (skipped)

/-! ## Counting rows -/

/-- The number of rows of a period. -/
def rowCount (table : List AdStatBase) (numType : NumType) (ts : Int) : Nat :=
  table.countP (AdStatBase.isAt numType ts)

@[simp]
theorem rowCount_update (table : List AdStatBase) (numType other : NumType)
    (ts time : Int) (nums : Count → Option Int) :
    rowCount (updateAdStatBase other time nums table) numType ts =
      rowCount table numType ts := by
  rw [rowCount, updateAdStatBase, List.countP_map, rowCount]
  congr
  ext row
  rw [Function.comp_apply]
  split_ifs <;> rfl

theorem rowCount_append_newRow (table : List AdStatBase)
    (numType other : NumType) (ts time : Int) :
    rowCount (table ++ [newRow other time]) numType ts =
      rowCount table numType ts +
        if other = numType ∧ time = ts then 1 else 0 := by
  have isAt : (newRow other time).isAt numType ts = true ↔
      other = numType ∧ time = ts := by
    rw [AdStatBase.isAt, Bool.and_eq_true]
    exact and_congr decide_eq_true_iff decide_eq_true_iff
  rw [rowCount, List.countP_append, List.countP_singleton, rowCount]
  simp only [isAt]

/-- Missing rows are inserted once. -/
theorem rowCount_insertMissing (table : List AdStatBase)
    (numType other : NumType) (ts time : Int) :
    rowCount (insertMissing other time table) numType ts =
      if other = numType ∧ time = ts then max 1 (rowCount table numType ts)
      else rowCount table numType ts := by
  rw [insertMissing]
  split_ifs with present same same
  · obtain ⟨rfl, rfl⟩ := same
    have some : 0 < rowCount table other time := by
      rw [rowCount, List.countP_pos_iff]
      exact List.any_eq_true.mp present
    omega
  · rfl
  · obtain ⟨rfl, rfl⟩ := same
    have none : rowCount table other time = 0 := by
      rw [rowCount, List.countP_eq_zero]
      exact fun row member => List.any_eq_false.mp
        (Bool.eq_false_iff.mpr present) row member
    rw [rowCount_append_newRow, none, if_pos ⟨rfl, rfl⟩]
    rfl
  · rw [rowCount_append_newRow, if_neg same, add_zero]

/-! ## The schedule -/

/-- An hour begins when the rolls of the last one are done; the hour roll runs
once in an hour, and the day roll once in a day and after it.  Clicks and
closes find the key, and the first impression of an ad does not come between
the beginning of an hour and its roll. -/
def Timely (server : CkServer) (before : System) : Event → Prop
  | .request request =>
      before.keys.main.exists = true ∨
        server.start request = .commands [] ∨
        (∃ impressInfo userAgent,
          server.start request = .asks impressInfo userAgent) ∧
          before.hourRolled = true
  | .hourRoll => before.hourRolled = false
  | .dayRoll => before.hourRolled = true ∧ before.dayRolled = false
  | .tick => before.hourRolled = true ∧ before.dayRolled = true
  | .ipUv => True
  | .minuteSync => True

/-- How many rows there are in the course of a run. -/
structure RowsOnce (system : System) : Prop where
  laterDays : ∀ ts, system.today < ts → rowCount system.table .day ts = 0
  laterHours : ∀ ts, system.now < ts → rowCount system.table .hour ts = 0
  day : rowCount system.table .day system.today ≤ 1
  hour : rowCount system.table .hour system.now ≤ 1
  notRolled : system.hourRolled = false →
    rowCount system.table .hour system.now = 0
  dayRow : system.keys.main.exists = true → system.dayRolled = true →
    rowCount system.table .day system.today = 1
  hourRow : system.keys.main.exists = true → system.hourRolled = true →
    rowCount system.table .hour system.now = 1

theorem rowsOnce_initial (now : Int) : RowsOnce (initial now) where
  laterDays _ _ := rfl
  laterHours _ _ := rfl
  day := Nat.zero_le _
  hour := Nat.zero_le _
  notRolled _ := rfl
  dayRow held := by cases held
  hourRow held := by cases held

section Steps

variable {server : CkServer} {adId : JavaString} {system : System}

/-- Other numbers in the rows, other counters, and a key that stays. -/
theorem RowsOnce.of_same (once : RowsOnce system) {keys : AdKeys}
    {table : List AdStatBase}
    (same : ∀ numType ts,
      rowCount table numType ts = rowCount system.table numType ts)
    (held : keys.main.exists = true → system.keys.main.exists = true) :
    RowsOnce { system with keys := keys, table := table } where
  laterDays ts later := (same _ _).trans (once.laterDays ts later)
  laterHours ts later := (same _ _).trans (once.laterHours ts later)
  day := (same _ _).trans_le once.day
  hour := (same _ _).trans_le once.hour
  notRolled waiting := (same _ _).trans (once.notRolled waiting)
  dayRow present rolled :=
    (same _ _).trans (once.dayRow (held present) rolled)
  hourRow present rolled :=
    (same _ _).trans (once.hourRow (held present) rolled)

theorem rowsOnce_serve (once : RowsOnce system) {request : Request}
    (timely : Timely server system (.request request)) :
    RowsOnce (serve server request system) := by
  rcases serve_cases server request system with
    ⟨commands, adds, _, task, served⟩ |
    ⟨impressInfo, userAgent, absent, task, served⟩
  · rw [served]
    refine once.of_same (fun _ _ => rfl) fun present => ?_
    cases held : system.keys.main.exists with
    | true => rfl
    | false =>
        rcases timely with found | nothing | ⟨⟨_, _, asks⟩, _⟩
        · rw [held] at found
          exact found
        · cases (task held).symm.trans nothing
          rw [← held]
          exact present
        · cases (task held).symm.trans asks
  · have rolled : system.hourRolled = true := by
      rcases timely with found | nothing | ⟨_, rolled⟩
      · rw [absent] at found
        cases found
      · cases task.symm.trans nothing
      · exact rolled
    rw [served]
    have count : ∀ numType ts, rowCount (insertMissing .hour system.now
        (insertMissing .day system.today system.table)) numType ts =
        if numType = .day ∧ ts = system.today ∨
            numType = .hour ∧ ts = system.now then
          max 1 (rowCount system.table numType ts)
        else rowCount system.table numType ts := by
      intro numType ts
      rw [rowCount_insertMissing, rowCount_insertMissing]
      cases numType <;> simp [eq_comm]
    have day := once.day
    have hour := once.hour
    constructor
    · intro ts later
      have apart : ts ≠ system.today := (ne_of_lt later).symm
      rw [count, if_neg (by simp [apart]), once.laterDays ts later]
    · intro ts later
      have apart : ts ≠ system.now := (ne_of_lt later).symm
      rw [count, if_neg (by simp [apart]), once.laterHours ts later]
    · show rowCount _ _ system.today ≤ 1
      rw [count, if_pos (.inl ⟨rfl, rfl⟩)]
      omega
    · show rowCount _ _ system.now ≤ 1
      rw [count, if_pos (.inr ⟨rfl, rfl⟩)]
      omega
    · intro waiting
      cases rolled.symm.trans waiting
    · intro _ _
      show rowCount _ _ system.today = 1
      rw [count, if_pos (.inl ⟨rfl, rfl⟩)]
      omega
    · intro _ _
      show rowCount _ _ system.now = 1
      rw [count, if_pos (.inr ⟨rfl, rfl⟩)]
      omega

theorem rowsOnce_ipUv (once : RowsOnce system) :
    RowsOnce (ipUv server adId system) := by
  rw [ipUv]
  split_ifs with held
  · exact once.of_same (fun _ _ => rfl) fun _ => held
  · exact once

theorem rowsOnce_minuteSync (once : RowsOnce system) :
    RowsOnce (minuteSync server adId system) := by
  rw [minuteSync]
  split_ifs
  · exact once.of_same (by simp) id
  · exact once

theorem rowsOnce_hourRoll (numeric : skipped server.platform adId = false)
    (once : RowsOnce system) (waiting : system.hourRolled = false) :
    RowsOnce (hourRoll server adId system) := by
  have empty := once.notRolled waiting
  rw [hourRoll]
  split_ifs with found
  · have held := (rolls_iff numeric system).mp found
    have count : ∀ numType ts, rowCount
        (updateAdStatBase .hour (system.now - 1)
          (periodNums system.keys .currentHour) system.table ++
            [newRow .hour system.now]) numType ts =
        rowCount system.table numType ts +
          if NumType.hour = numType ∧ system.now = ts then 1 else 0 := by
      intro numType ts
      rw [rowCount_append_newRow, rowCount_update]
    constructor
    · intro ts later
      rw [count, once.laterDays ts later]
      rfl
    · intro ts later
      have apart : system.now ≠ ts := ne_of_lt later
      rw [count, once.laterHours ts later, if_neg (by simp [apart])]
    · show rowCount _ _ system.today ≤ 1
      rw [count]
      exact once.day
    · show rowCount _ _ system.now ≤ 1
      rw [count, empty, if_pos ⟨rfl, rfl⟩]
    · intro still
      cases still
    · intro _ rolled
      show rowCount _ _ system.today = 1
      rw [count]
      exact once.dayRow held rolled
    · intro _ _
      show rowCount _ _ system.now = 1
      rw [count, empty, if_pos ⟨rfl, rfl⟩]
  · have absent : ¬ system.keys.main.exists = true := fun held =>
      found ((rolls_iff numeric system).mpr held)
    exact { once with
      notRolled := fun still => by cases still
      hourRow := fun present => absurd present absent }

theorem rowsOnce_dayRoll (numeric : skipped server.platform adId = false)
    (once : RowsOnce system) : RowsOnce (dayRoll server adId system) := by
  rw [dayRoll]
  split_ifs with found
  · have gone := main_adStatInfoToMysqlDay numeric system.keys
    have count : ∀ numType ts, rowCount (updateAdStatBase .day
        (system.today - 24) (periodNums system.keys .today) system.table)
        numType ts = rowCount system.table numType ts := by
      simp
    exact {
      laterDays := fun ts later => (count _ _).trans (once.laterDays ts later)
      laterHours := fun ts later =>
        (count _ _).trans (once.laterHours ts later)
      day := (count _ _).trans_le once.day
      hour := (count _ _).trans_le once.hour
      notRolled := fun waiting => (count _ _).trans (once.notRolled waiting)
      dayRow := fun present => by
        rw [gone] at present
        cases present
      hourRow := fun present => by
        rw [gone] at present
        cases present }
  · have absent : ¬ system.keys.main.exists = true := fun held =>
      found ((rolls_iff numeric system).mpr held)
    exact { once with dayRow := fun present => absurd present absent }

theorem today_tick (system : System) :
    (tick system).today =
      if (system.now + 1) % 24 = 0 then system.now + 1 else system.today := by
  show system.now + 1 - (system.now + 1) % 24 =
    if (system.now + 1) % 24 = 0 then system.now + 1
    else system.now - system.now % 24
  split_ifs <;> omega

theorem rowsOnce_tick (once : RowsOnce system)
    (rolled : system.dayRolled = true) : RowsOnce (tick system) := by
  have midnight : system.today ≤ system.now := by
    rw [System.today]
    omega
  have later : system.today ≤ (tick system).today := by
    rw [today_tick]
    split_ifs <;> omega
  constructor
  · intro ts after
    exact once.laterDays ts (by omega)
  · intro ts after
    apply once.laterHours ts
    have next : system.now + 1 < ts := after
    omega
  · show rowCount system.table .day (tick system).today ≤ 1
    rw [today_tick]
    split_ifs
    · rw [once.laterDays _ (by omega)]
      exact Nat.zero_le 1
    · exact once.day
  · show rowCount system.table .hour (system.now + 1) ≤ 1
    rw [once.laterHours _ (by omega)]
    exact Nat.zero_le 1
  · intro _
    exact once.laterHours _ (by simp [tick])
  · intro held still
    have sameDay : ¬ (system.now + 1) % 24 = 0 := of_decide_eq_true still
    show rowCount system.table .day (tick system).today = 1
    rw [today_tick, if_neg sameDay]
    exact once.dayRow held rolled
  · intro _ still
    cases still

/-- Every step on the schedule keeps the rows. -/
theorem rowsOnce_step (numeric : skipped server.platform adId = false)
    (once : RowsOnce system) {event : Event}
    (timely : Timely server system event) :
    RowsOnce (step server adId system event) := by
  cases event with
  | request request => exact rowsOnce_serve once timely
  | ipUv => exact rowsOnce_ipUv once
  | minuteSync => exact rowsOnce_minuteSync once
  | hourRoll => exact rowsOnce_hourRoll numeric once timely
  | dayRoll => exact rowsOnce_dayRoll numeric once
  | tick => exact rowsOnce_tick once timely.2

end Steps

/-- A new ad is never without the row of the hour, once the hour has been
rolled, and never without the row of the day, once the day has, and it never
has two. -/
theorem one_row_each {server : CkServer} {adId : JavaString}
    (numeric : skipped server.platform adId = false) {now : Int}
    {events : List Event} {last : System}
    (run : Run (fun before event after =>
      Timely server before event ∧ Step server adId before event after)
      (initial now) events last)
    (held : last.keys.main.exists = true) :
    (last.hourRolled = true →
      rowCount last.table .hour last.now = 1) ∧
    (last.dayRolled = true → rowCount last.table .day last.today = 1) := by
  have once : RowsOnce last := by
    apply run.invariant _ (rowsOnce_initial now)
    rintro before event after once ⟨timely, rfl⟩
    exact rowsOnce_step numeric once timely
  exact ⟨once.hourRow held, once.dayRow held⟩

/-- The first impression of an ad. -/
def firstImpression : Event :=
  .request (.savePvInfo
    (CkServer.impressionOf (text "u") (text "1.1.1.1")) [])

/-- An ad that is seen at nine and still there at ten. -/
theorem one_row_each_at_ten :
    rowCount ([firstImpression, .tick, .hourRoll].foldl
      (step CkServer.plain (text "7")) (initial 9)).table .hour 10 = 1 ∧
    rowCount ([firstImpression, .tick, .hourRoll].foldl
      (step CkServer.plain (text "7")) (initial 9)).table .day 0 = 1 := by
  have run : Run (fun before event after =>
      Timely CkServer.plain before event ∧
        Step CkServer.plain (text "7") before event after)
      (initial 9) [firstImpression, .tick, .hourRoll]
      ([firstImpression, .tick, .hourRoll].foldl
        (step CkServer.plain (text "7")) (initial 9)) :=
    .cons ⟨.inr (.inr ⟨⟨_, _, rfl⟩, rfl⟩), rfl⟩
      (.cons ⟨⟨rfl, rfl⟩, rfl⟩ (.cons ⟨rfl, rfl⟩ (.nil _)))
  have rows := one_row_each (by decide +kernel) run (by decide +kernel)
  exact ⟨rows.1 (by decide +kernel), rows.2 (by decide +kernel)⟩

/-- An ad that is still there at midnight has no row for the new day before
the day roll. -/
theorem exists_no_day_row :
    ∃ events last, Run (Step CkServer.plain (text "7")) (initial 23) events
        last ∧
      last.keys.main.exists = true ∧
      skipped CkServer.plain.platform (text "7") = false ∧
      rowCount last.table .day last.today = 0 :=
  ⟨[firstImpression, .tick, .hourRoll], _,
    run_foldl CkServer.plain (text "7") (initial 23) _, by decide +kernel,
    by decide +kernel, by decide +kernel⟩

end WindowSystem.Statistics.CounterRows
