import WindowSystem.Statistics.RollOver

/-!
# The table `ad_stat_info`

The counters of an ad go to a row of type D for every day and to a row of type
H for every hour.  Here a request or a run of a timer is one step: the
requests of `ckserver` count in redis and insert the rows of an ad that is new
in redis, the minute sync copies the counters to the rows of the day and the
hour, and the rolls close these rows.  Time is counted in hours.
-/

namespace WindowSystem.Statistics.AdStatInfo

open WindowSystem.Library.LabelledRun
open WindowSystem.Sspserver.JavaRuntime
open WindowSystem.Statistics.AdLogService
open WindowSystem.Statistics.Redis
open WindowSystem.Statistics.RollOver

/-! ## Rows -/

/-- The column `num_type`: `STAT_NUM_TYPE_DAY` and `STAT_NUM_TYPE_HOUR`. -/
inductive NumType where
  | day
  | hour
deriving DecidableEq

/-- A row of the ad; `ts` is the hour at which its period begins. -/
structure AdStatBase where
  numType : NumType
  ts : Int
  nums : Count → Option Int

/-- The row is the one of a period. -/
def AdStatBase.isAt (numType : NumType) (ts : Int) (row : AdStatBase) :
    Bool :=
  row.numType = numType && row.ts = ts

/-- A row of a period that begins. -/
def newRow (numType : NumType) (ts : Int) : AdStatBase :=
  ⟨numType, ts, fun _ => some 0⟩

/-- `update ad_stat_info set .. where ad_id = ? and ts = ? and num_type = ?` -/
def updateAdStatBase (numType : NumType) (ts : Int)
    (nums : Count → Option Int) (table : List AdStatBase) :
    List AdStatBase :=
  table.map fun row =>
    if row.isAt numType ts then { row with nums := nums } else row

/-- The rows that `findAdstatBaseByAdIdAndTime` looks for, inserted if there
are none. -/
def insertMissing (numType : NumType) (ts : Int) (table : List AdStatBase) :
    List AdStatBase :=
  if table.any (AdStatBase.isAt numType ts) then table
  else table ++ [newRow numType ts]

/-! ## Steps -/

/-- The keys of the ad, its rows, the current hour, and whether the rolls of
this hour and of this day have run. -/
structure System where
  keys : AdKeys
  table : List AdStatBase
  now : Int
  hourRolled : Bool
  dayRolled : Bool

/-- `getCurrentDayBeginDateTimeStr` -/
def System.today (system : System) : Int :=
  system.now - system.now % 24

/-- A request, a run of a timer, or the beginning of an hour. -/
inductive Event where
  | request (request : Request)
  | ipUv
  | minuteSync
  | hourRoll
  | dayRoll
  | tick
deriving DecidableEq

/-- The counters of a period, as the timers read them. -/
def periodNums (keys : AdKeys) (period : Period) (count : Count) :
    Option Int :=
  keys.main.numbers ⟨period, count⟩

/-- Several commands with nothing in between. -/
def runAll (keys : AdKeys) (commands : List Command) : AdKeys :=
  commands.foldl run keys

/-- A step of a timer with nothing in between. -/
def runStep (keys : AdKeys) : RollStep → AdKeys
  | .hgetAll => keys
  | .renameIfExists key =>
      if keys.details key = ∅ then keys else run keys (.rename key)
  | .scardIfExists key =>
      if keys.details key = ∅ then keys
      else run keys (.hset key.field (keys.details key).card)
  | .scard key => run keys (.hset key.field (keys.details key).card)
  | .command sent => run keys sent

/-- A whole timer with nothing in between. -/
def runPlan (plan : Plan) (keys : AdKeys) : AdKeys :=
  plan.steps.foldl runStep keys

section Steps

variable (server : CkServer) (adId : JavaString)

/-- A request of `ckserver`. -/
def serve (request : Request) (system : System) : System :=
  match server.start request with
  | .commands commands =>
      { system with keys := runAll system.keys commands }
  | .asks impressInfo userAgent =>
      if system.keys.main.exists then
        { system with
          keys := runAll system.keys
            (server.notAdfirstPVPipline impressInfo userAgent) }
      else
        { system with
          keys := runAll system.keys
            (server.adFirstPV impressInfo userAgent)
          table := insertMissing .hour system.now
            (insertMissing .day system.today system.table) }

/-- A timer finds the key of the ad, and the ad has a number. -/
def rolls (system : System) : Bool :=
  system.keys.main.exists && !skipped server.platform adId

/-- The timers roll every ad with a number that is there. -/
theorem rolls_iff {server : CkServer} {adId : JavaString}
    (numeric : skipped server.platform adId = false) (system : System) :
    rolls server adId system = true ↔ system.keys.main.exists = true := by
  rw [rolls, numeric, Bool.not_false, Bool.and_true]

/-- `AdStatInfoToMysqlRT` -/
def minuteSync (system : System) : System :=
  if rolls server adId system then
    { system with
      table := updateAdStatBase .hour system.now
        (periodNums system.keys .currentHour)
        (updateAdStatBase .day system.today
          (periodNums system.keys .today) system.table) }
  else system

/-- `AdStatInfoToMysqlHour` -/
def hourRoll (system : System) : System :=
  if rolls server adId system then
    { system with
      keys := runPlan (adStatInfoToMysqlHour server.platform adId) system.keys
      table :=
        updateAdStatBase .hour (system.now - 1)
          (periodNums system.keys .currentHour) system.table ++
            [newRow .hour system.now]
      hourRolled := true }
  else { system with hourRolled := true }

/-- `AdStatInfoToMysqlDay` -/
def dayRoll (system : System) : System :=
  if rolls server adId system then
    { system with
      keys := runPlan (adStatInfoToMysqlDay server.platform adId) system.keys
      table := updateAdStatBase .day (system.today - 24)
        (periodNums system.keys .today) system.table
      dayRolled := true }
  else { system with dayRolled := true }

/-- `AdIpUvCalc` -/
def ipUv (system : System) : System :=
  if system.keys.main.exists then
    { system with
      keys := runPlan (adIpUvCalc server.platform adId) system.keys }
  else system

/-- The next hour begins; at midnight also the next day. -/
def tick (system : System) : System :=
  { system with
    now := system.now + 1
    hourRolled := false
    dayRolled := (system.now + 1) % 24 ≠ 0 }

def step (system : System) : Event → System
  | .request request => serve server request system
  | .ipUv => ipUv server adId system
  | .minuteSync => minuteSync server adId system
  | .hourRoll => hourRoll server adId system
  | .dayRoll => dayRoll server adId system
  | .tick => tick system

/-- The step relation of the function. -/
abbrev Step (before : System) (event : Event) (after : System) : Prop :=
  after = step server adId before event

/-- The run of a list of events. -/
theorem run_foldl (first : System) (events : List Event) :
    Run (Step server adId) first events
      (events.foldl (step server adId) first) := by
  induction events generalizing first with
  | nil => exact .nil first
  | cons event rest induction => exact .cons rfl (induction _)

end Steps

/-- An ad that nobody has seen, at any hour. -/
def initial (now : Int) : System :=
  ⟨.absent, [], now, true, true⟩

/-! ## Commands with nothing in between -/

theorem runAll_cons (keys : AdKeys) (command : Command)
    (rest : List Command) :
    runAll keys (command :: rest) = runAll (run keys command) rest :=
  rfl

theorem exists_runAll {keys : AdKeys} {commands : List Command}
    (stays : ∀ command ∈ commands, command ≠ .del)
    (held : keys.main.exists = true) :
    (runAll keys commands).main.exists = true := by
  induction commands generalizing keys with
  | nil => exact held
  | cons command rest induction =>
      rw [runAll_cons]
      apply induction fun other member =>
        stays other (List.mem_cons_of_mem _ member)
      rw [exists_run keys (stays command List.mem_cons_self), held]
      rfl

/-- Commands that overwrite nothing add up. -/
theorem number_runAll {keys : AdKeys} {commands : List Command}
    {field : Field}
    (adds : ∀ command ∈ commands, command.overwrites field = false) :
    (runAll keys commands).number field =
      keys.number field + amounts field commands := by
  induction commands generalizing keys with
  | nil => exact (add_zero _).symm
  | cons command rest induction =>
      have first := adds command List.mem_cons_self
      rw [runAll_cons, induction fun other member =>
        adds other (List.mem_cons_of_mem _ member), number_run, amounts_cons,
        add_assoc]
      intro overwrites
      rw [first] at overwrites
      cases overwrites

/-- Commands that set a counter once, and do not change it otherwise, add up
from zero. -/
theorem number_runAll_of_once {keys : AdKeys} {commands : List Command}
    {field : Field}
    (once : commands.countP (Command.overwrites field) ≤ 1)
    (others : ∀ command ∈ commands, command.overwrites field = false →
      command.amount field = 0)
    (zero : keys.number field = 0) :
    (runAll keys commands).number field = amounts field commands := by
  induction commands generalizing keys with
  | nil => exact zero
  | cons command rest induction =>
      have tail : ∀ other ∈ rest, other.overwrites field = false →
          other.amount field = 0 := fun other member =>
        others other (List.mem_cons_of_mem _ member)
      rw [runAll_cons, amounts_cons]
      cases overwrites : command.overwrites field with
      | true =>
          have none : rest.countP (Command.overwrites field) = 0 := by
            rw [List.countP_cons_of_pos overwrites] at once
            omega
          rw [number_runAll, number_run_overwrites overwrites]
          intro other member
          exact Bool.eq_false_iff.mpr
            (List.countP_eq_zero.mp none other member)
      | false =>
          rw [List.countP_cons_of_neg (by simp [overwrites])] at once
          have nothing := others command List.mem_cons_self overwrites
          rw [nothing, zero_add]
          apply induction once tail
          rw [number_run_of_other keys overwrites nothing, zero]

section Requests

variable (server : CkServer)

theorem countP_adFirstPV (impressInfo : ImpressInfo)
    (userAgent : JavaString) (field : Field) :
    (server.adFirstPV impressInfo userAgent).countP
      (Command.overwrites field) ≤ 1 := by
  obtain ⟨period, count⟩ := field
  rw [CkServer.adFirstPV, List.countP_append, (server.order_perm _).countP_eq,
    CkServer.adStatInfo, List.countP_append, List.countP_map]
  cases period <;> cases count <;>
    simp [Command.overwrites, Function.comp_def]

theorem amount_adFirstPV (impressInfo : ImpressInfo)
    (userAgent : JavaString) (field : Field) :
    ∀ command ∈ server.adFirstPV impressInfo userAgent,
      command.overwrites field = false → command.amount field = 0 := by
  intro command member keeps
  have noIncrement : ∀ other value, command ≠ .hincrBy other value := by
    rintro other value rfl
    simp [CkServer.adFirstPV, (server.order_perm _).mem_iff,
      CkServer.adStatInfo] at member
  cases command with
  | hincrBy other value => exact absurd rfl (noIncrement other value)
  | hset other value => exact if_neg (of_decide_eq_false keeps)
  | _ => rfl

/-- The first impression sets a counter of requests at most once. -/
theorem number_adFirstPV (impressInfo : ImpressInfo)
    (userAgent : JavaString) {keys : AdKeys}
    (absent : keys.main.exists = false) (counter : Counter) :
    (runAll keys (server.adFirstPV impressInfo userAgent)).number
        counter.1 =
      server.impression userAgent counter.1 := by
  rw [number_runAll_of_once
    (countP_adFirstPV server impressInfo userAgent counter.1)
    (amount_adFirstPV server impressInfo userAgent counter.1)
    (number_of_not_exists absent counter.1), server.amounts_adFirstPV]

/-- Everything that a request can do. -/
theorem serve_cases (request : Request) (system : System) :
    (∃ commands, (∀ command ∈ commands, Adds command) ∧
      (∀ field, amounts field commands =
        server.share field (server.start request)) ∧
      (system.keys.main.exists = false →
        server.start request = .commands commands) ∧
      serve server request system =
        { system with keys := runAll system.keys commands }) ∨
    ∃ impressInfo userAgent, system.keys.main.exists = false ∧
      server.start request = .asks impressInfo userAgent ∧
      serve server request system =
        { system with
          keys := runAll system.keys
            (server.adFirstPV impressInfo userAgent)
          table := insertMissing .hour system.now
            (insertMissing .day system.today system.table) } := by
  have adds := taskAdds_start server request
  unfold serve
  cases task : server.start request with
  | commands commands =>
      rw [task] at adds
      exact .inl ⟨commands, adds, fun field => rfl, fun _ => rfl, rfl⟩
  | asks impressInfo userAgent =>
      cases held : system.keys.main.exists with
      | true =>
          refine .inl ⟨server.notAdfirstPVPipline impressInfo userAgent,
            adds_notAdfirstPVPipline server impressInfo userAgent, ?_, ?_,
            rfl⟩
          · exact server.amounts_notAdfirstPVPipline impressInfo userAgent
          · intro absent
            cases absent
      | false => exact .inr ⟨impressInfo, userAgent, rfl, rfl, rfl⟩

/-- A request does not remove the key. -/
theorem exists_serve (request : Request) {system : System}
    (held : system.keys.main.exists = true) :
    (serve server request system).keys.main.exists = true := by
  rcases serve_cases server request system with
    ⟨commands, adds, _, _, served⟩ | ⟨_, _, absent, _⟩
  · rw [served]
    apply exists_runAll _ held
    rintro command member rfl
    exact adds .del member
  · rw [held] at absent
    cases absent

/-- A request adds one to every counter that counts it. -/
theorem number_serve (request : Request) (system : System)
    (counter : Counter) :
    (serve server request system).keys.number counter.1 =
      system.keys.number counter.1 +
        if server.counts counter.1 request then 1 else 0 := by
  rw [← server.share_start counter request]
  rcases serve_cases server request system with
    ⟨commands, adds, share, _, served⟩ |
    ⟨impressInfo, userAgent, absent, task, served⟩
  · rw [served, ← share]
    exact number_runAll fun command member =>
      (adds command member).overwrites counter.1
  · rw [served, task, number_of_not_exists absent, zero_add]
    exact number_adFirstPV server impressInfo userAgent absent counter

end Requests

section Timers

theorem field_ne_counter (key : DetailKey) (counter : Counter) :
    key.field ≠ counter.1 := by
  obtain ⟨field, notUv, notIp⟩ := counter
  rintro rfl
  cases key
  · exact notUv rfl
  · exact notIp rfl
  · exact notUv rfl
  · exact notIp rfl

/-- A step of a timer resets a counter of requests or leaves it. -/
theorem number_runStep (keys : AdKeys) {step : RollStep} {counter : Counter}
    (resets : step.amount counter.1 = 0) :
    (runStep keys step).number counter.1 =
      if step.overwrites counter.1 then 0 else keys.number counter.1 := by
  have users : ∀ key value,
      (run keys (.hset (DetailKey.field key) value)).number counter.1 =
        keys.number counter.1 := by
    intro key value
    have other := field_ne_counter key counter
    exact number_run_of_other keys (decide_eq_false other) (if_neg other)
  cases step with
  | hgetAll => rfl
  | renameIfExists key =>
      simp only [runStep, RollStep.overwrites, Bool.false_eq_true, if_false]
      split_ifs <;> rfl
  | scardIfExists key =>
      simp only [runStep, RollStep.overwrites, Bool.false_eq_true, if_false]
      split_ifs with empty
      · rfl
      · exact users key _
  | scard key => exact users key _
  | command sent =>
      rw [runStep, RollStep.overwrites]
      split_ifs with overwrites
      · rw [number_run_overwrites overwrites]
        exact resets
      · exact number_run_of_other keys (Bool.eq_false_iff.mpr overwrites)
          resets

/-- A timer with nothing in between resets what it overwrites. -/
theorem number_runPlan {plan : Plan} (orderly : plan.Orderly) (keys : AdKeys)
    (counter : Counter) :
    (runPlan plan keys).number counter.1 =
      if plan.steps.any (RollStep.overwrites counter.1) then 0
      else keys.number counter.1 := by
  have resets := orderly.resets
  rw [runPlan]
  generalize plan.steps = steps at resets ⊢
  induction steps generalizing keys with
  | nil => rfl
  | cons step rest induction =>
      have tail := fun later member =>
        resets later (List.mem_cons_of_mem step member)
      rw [List.foldl_cons, induction _ tail, List.any_cons,
        number_runStep keys (resets step List.mem_cons_self counter)]
      cases step.overwrites counter.1 <;> simp

/-- Only a deletion removes the key. -/
theorem exists_runPlan {plan : Plan} {keys : AdKeys}
    (stays : plan.deletes = false) (held : keys.main.exists = true) :
    (runPlan plan keys).main.exists = true := by
  rw [Plan.deletes, ← Bool.not_eq_true, List.contains_iff_mem] at stays
  rw [runPlan]
  generalize plan.steps = steps at stays ⊢
  induction steps generalizing keys with
  | nil => exact held
  | cons step rest induction =>
      rw [List.mem_cons, not_or] at stays
      rw [List.foldl_cons]
      refine induction ?_ stays.2
      cases step with
      | hgetAll => exact held
      | renameIfExists key =>
          rw [runStep]
          split_ifs
          · exact held
          · rw [exists_run keys (by simp), held, Bool.true_or]
      | scardIfExists key =>
          rw [runStep]
          split_ifs
          · exact held
          · rw [exists_run keys (by simp), held, Bool.true_or]
      | scard key => rw [runStep, exists_run keys (by simp), held,
          Bool.true_or]
      | command sent =>
          rw [runStep, exists_run keys, held, Bool.true_or]
          rintro rfl
          exact stays.1 rfl

variable {platform : Platform} {adId : JavaString}

/-- The hour roll resets the counters of the hour and no others. -/
theorem number_adStatInfoToMysqlHour
    (numeric : skipped platform adId = false) (keys : AdKeys)
    (counter : Counter) :
    (runPlan (adStatInfoToMysqlHour platform adId) keys).number counter.1 =
      if counter.1.period = .currentHour then 0
      else keys.number counter.1 := by
  apply (number_runPlan (orderly_plan platform adId .hour) keys
    counter).trans
  obtain ⟨⟨period, count⟩, notUv, notIp⟩ := counter
  rw [Timer.plan, adStatInfoToMysqlHour, numeric]
  cases period <;> cases count <;>
    simp [RollStep.overwrites, Command.overwrites] at notUv notIp ⊢

theorem exists_adStatInfoToMysqlHour {keys : AdKeys}
    (held : keys.main.exists = true) :
    (runPlan (adStatInfoToMysqlHour platform adId) keys).main.exists =
      true := by
  apply exists_runPlan _ held
  rw [adStatInfoToMysqlHour]
  split_ifs <;> decide

/-- The day roll deletes the hash. -/
theorem main_adStatInfoToMysqlDay (numeric : skipped platform adId = false)
    (keys : AdKeys) :
    (runPlan (adStatInfoToMysqlDay platform adId) keys).main = .absent := by
  rw [adStatInfoToMysqlDay, numeric]
  rfl

theorem number_adIpUvCalc (keys : AdKeys) (counter : Counter) :
    (runPlan (adIpUvCalc platform adId) keys).number counter.1 =
      keys.number counter.1 := by
  have quiet := not_overwrites_of_quiet (quiet_ipUv platform adId) counter
  apply (number_runPlan (orderly_plan platform adId .ipUv) keys
    counter).trans
  exact if_neg (Bool.eq_false_iff.mp quiet)

theorem exists_adIpUvCalc {keys : AdKeys} (held : keys.main.exists = true) :
    (runPlan (adIpUvCalc platform adId) keys).main.exists = true := by
  apply exists_runPlan _ held
  rw [adIpUvCalc]
  split_ifs <;> decide

end Timers

/-! ## The same command by command -/

section Refinement

variable (server : CkServer)

theorem exists_run_commands (keys : AdKeys) (commands : List Command) :
    ∃ labels, Run server.Step ⟨keys, [.commands commands]⟩ labels
      ⟨runAll keys commands, [.commands []]⟩ := by
  induction commands generalizing keys with
  | nil => exact ⟨[], .nil _⟩
  | cons command rest induction =>
      obtain ⟨labels, run⟩ := induction (Redis.run keys command)
      exact ⟨(0, .command command) :: labels, .cons rfl run⟩

/-- A request that runs alone sends its commands to the end. -/
theorem exists_run_serve (request : Request) (system : System) :
    ∃ labels, Run server.Step ⟨system.keys, [server.start request]⟩ labels
      ⟨(serve server request system).keys, [.commands []]⟩ := by
  unfold serve
  cases server.start request with
  | commands commands => exact exists_run_commands server _ _
  | asks impressInfo userAgent =>
      cases held : system.keys.main.exists with
      | true =>
          obtain ⟨labels, run⟩ := exists_run_commands server system.keys
            (server.notAdfirstPVPipline impressInfo userAgent)
          refine ⟨(0, .asked true) :: labels, .cons ?_ run⟩
          simp [stepOf, Library.Interleaving.next, CkServer.act, held]
      | false =>
          obtain ⟨labels, run⟩ := exists_run_commands server system.keys
            (server.adFirstPV impressInfo userAgent)
          refine ⟨(0, .asked false) :: labels, .cons ?_ run⟩
          simp [stepOf, Library.Interleaving.next, CkServer.act, held]

theorem timer_step {tasks : List Task} {keys after : AdKeys}
    {roll later : Roll} {step : RollStep}
    (acted : roll.act keys = some (step, after, later)) :
    RollOver.Step server ⟨⟨keys, roll⟩, tasks⟩ (none, .timer step)
      ⟨⟨after, later⟩, tasks⟩ := by
  rw [RollOver.Step, stepOf, next, acted]
  rfl

/-- A timer that runs alone works through its steps. -/
theorem exists_run_steps (tasks : List Task) (keys : AdKeys)
    (row : Option AdStatHash) (steps : List RollStep) :
    ∃ labels values, Run (RollOver.Step server)
      ⟨⟨keys, ⟨row, steps⟩⟩, tasks⟩ labels
      ⟨⟨steps.foldl runStep keys, ⟨values, []⟩⟩, tasks⟩ := by
  induction steps generalizing keys row with
  | nil => exact ⟨[], row, .nil _⟩
  | cons step rest induction =>
      cases step with
      | hgetAll =>
          obtain ⟨labels, values, run⟩ := induction keys (some keys.main)
          exact ⟨_, values, .cons (timer_step server rfl) run⟩
      | command sent =>
          obtain ⟨labels, values, run⟩ := induction (Redis.run keys sent) row
          exact ⟨_, values, .cons (timer_step server rfl) run⟩
      | scard key =>
          obtain ⟨labels, values, run⟩ :=
            induction (runStep keys (.scard key)) row
          exact ⟨_, values, .cons (timer_step server rfl)
            (.cons (timer_step server rfl) run)⟩
      | renameIfExists key =>
          obtain ⟨labels, values, run⟩ :=
            induction (runStep keys (.renameIfExists key)) row
          rw [List.foldl_cons]
          by_cases empty : keys.details key = ∅
          · have acted : Roll.act keys ⟨row, .renameIfExists key :: rest⟩ =
                some (.renameIfExists key, keys, ⟨row, rest⟩) := by
              simp only [Roll.act, if_pos empty]
            rw [runStep, if_pos empty] at run ⊢
            exact ⟨_, values, .cons (timer_step server acted) run⟩
          · have acted : Roll.act keys ⟨row, .renameIfExists key :: rest⟩ =
                some (.renameIfExists key, keys,
                  ⟨row, .command (.rename key) :: rest⟩) := by
              simp only [Roll.act, if_neg empty]
            rw [runStep, if_neg empty] at run ⊢
            exact ⟨_, values, .cons (timer_step server acted)
              (.cons (timer_step server rfl) run)⟩
      | scardIfExists key =>
          obtain ⟨labels, values, run⟩ :=
            induction (runStep keys (.scardIfExists key)) row
          rw [List.foldl_cons]
          by_cases empty : keys.details key = ∅
          · have acted : Roll.act keys ⟨row, .scardIfExists key :: rest⟩ =
                some (.scardIfExists key, keys, ⟨row, rest⟩) := by
              simp only [Roll.act, if_pos empty]
            rw [runStep, if_pos empty] at run ⊢
            exact ⟨_, values, .cons (timer_step server acted) run⟩
          · have acted : Roll.act keys ⟨row, .scardIfExists key :: rest⟩ =
                some (.scardIfExists key, keys,
                  ⟨row, .scard key :: rest⟩) := by
              simp only [Roll.act, if_neg empty]
            rw [runStep, if_neg empty] at run ⊢
            exact ⟨_, values, .cons (timer_step server acted)
              (.cons (timer_step server rfl)
                (.cons (timer_step server rfl) run))⟩

end Refinement

end WindowSystem.Statistics.AdStatInfo
