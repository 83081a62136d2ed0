import Mathlib.Data.Finset.Card
import WindowSystem.Statistics.AdLogService

/-!
# The rolls of `adtimer` among requests

The hour roll, the day roll and the calculation of user and address numbers
work through the keys of an ad command by command, while requests of
`ckserver` go on counting.  A roll reads the hash once, and overwrites or
deletes it later.
-/

namespace WindowSystem.Statistics.RollOver

open WindowSystem.Library.Interleaving
open WindowSystem.Library.KeptAmount
open WindowSystem.Library.LabelledRun
open WindowSystem.Sspserver.JavaRuntime
open WindowSystem.Statistics.AdLogService
open WindowSystem.Statistics.Redis

/-! ## The timers -/

/-- A step of a timer on the keys of one ad. -/
inductive RollStep where
  | hgetAll
  | renameIfExists (key : DetailKey)
  | scardIfExists (key : DetailKey)
  | scard (key : DetailKey)
  | command (sent : Command)
deriving DecidableEq

/-- What a timer does for one ad: the period whose counters it writes to the
closing row, and its steps. -/
structure Plan where
  closing : Option Period
  steps : List RollStep

/-- A timer in the middle of an ad: the values that it has read and what is
left to do. -/
structure Roll where
  row : Option AdStatHash
  rest : List RollStep

/-- The timers that read or change the counters of an ad. -/
inductive Timer where
  | hour
  | day
  | ipUv
deriving DecidableEq

/-- `StringUtils.isNumeric` -/
def isNumeric (platform : Platform) (string : JavaString) : Bool :=
  string.all fun character => (platform.digit character).isSome

/-- An ad that the rolls pass over. -/
def skipped (platform : Platform) (adId : JavaString) : Bool :=
  isBlank platform adId || !isNumeric platform adId

/-- `AdStatInfoToMysqlHour` for one ad. -/
def adStatInfoToMysqlHour (platform : Platform) (adId : JavaString) : Plan :=
  if skipped platform adId then ⟨none, [.hgetAll]⟩
  else
    ⟨some .currentHour,
      [.hgetAll, .renameIfExists .adHourUvKey, .renameIfExists .adHourIpKey,
        .command (.hset ⟨.currentHour, .click⟩ 0),
        .command (.hset ⟨.currentHour, .ip⟩ 0),
        .command (.hset ⟨.currentHour, .mobileClick⟩ 0),
        .command (.hset ⟨.currentHour, .mobilePv⟩ 0),
        .command (.hset ⟨.currentHour, .pv⟩ 0),
        .command (.hset ⟨.currentHour, .uv⟩ 0),
        .command (.hset ⟨.currentHour, .close⟩ 0)]⟩

/-- `AdStatInfoToMysqlDay` for one ad. -/
def adStatInfoToMysqlDay (platform : Platform) (adId : JavaString) : Plan :=
  if skipped platform adId then ⟨none, [.hgetAll]⟩
  else
    ⟨some .today,
      [.hgetAll, .renameIfExists .adDayUvKey, .renameIfExists .adDayIpKey,
        .command .del]⟩

/-- `AdIpUvCalc` for one ad. -/
def adIpUvCalc (platform : Platform) (adId : JavaString) : Plan :=
  if isBlank platform adId then ⟨none, []⟩
  else
    ⟨none, [.scardIfExists .adDayUvKey, .scardIfExists .adDayIpKey,
      .scardIfExists .adHourUvKey, .scardIfExists .adHourIpKey]⟩

def Timer.plan (platform : Platform) (adId : JavaString) : Timer → Plan
  | .hour => adStatInfoToMysqlHour platform adId
  | .day => adStatInfoToMysqlDay platform adId
  | .ipUv => adIpUvCalc platform adId

/-- A timer that has not sent anything yet. -/
def Plan.start (plan : Plan) : Roll :=
  ⟨none, plan.steps⟩

/-- One command of a timer. -/
def Roll.act (keys : AdKeys) (roll : Roll) :
    Option (RollStep × AdKeys × Roll) :=
  match roll.rest with
  | [] => none
  | .hgetAll :: rest => some (.hgetAll, keys, ⟨some keys.main, rest⟩)
  | .renameIfExists key :: rest =>
      some (.renameIfExists key, keys, ⟨roll.row,
        if keys.details key = ∅ then rest
        else .command (.rename key) :: rest⟩)
  | .scardIfExists key :: rest =>
      some (.scardIfExists key, keys, ⟨roll.row,
        if keys.details key = ∅ then rest else .scard key :: rest⟩)
  | .scard key :: rest =>
      some (.scard key, keys, ⟨roll.row,
        .command (.hset key.field (keys.details key).card) :: rest⟩)
  | .command sent :: rest =>
      some (.command sent, run keys sent, ⟨roll.row, rest⟩)

/-- The value of a counter in the row that a timer has read. -/
def Roll.value (roll : Roll) (field : Field) : Int :=
  (roll.row.bind fun row => row.numbers field).getD 0

/-- What the timer writes of a counter to the closing row. -/
def Plan.closed (plan : Plan) (roll : Roll) (field : Field) : Int :=
  if plan.closing = some field.period then roll.value field else 0

/-! ## A timer among requests -/

/-- What the timer and the requests share. -/
structure Shared where
  keys : AdKeys
  roll : Roll

/-- The timer and the requests. -/
abbrev System : Type :=
  State Shared Task

/-- What is executed: a step of the timer or a command of a request. -/
inductive Executed where
  | timer (step : RollStep)
  | request (sent : Sent)
deriving DecidableEq

/-- The next command of a request that does not take the way of a first
impression. -/
def act (server : CkServer) (shared : Shared) (task : Task) :
    Option (Executed × Shared × Task) :=
  (server.act shared.keys task).bind fun (sent, keys, rest) =>
    if sent = .asked false then none
    else some (.request sent, { shared with keys := keys }, rest)

/-- The next command of the timer or of one of the requests. -/
def next (server : CkServer) (system : System) :
    Option Nat → Option (Executed × System)
  | none =>
      (system.store.roll.act system.store.keys).map
        fun (step, keys, roll) =>
          (.timer step, { system with store := ⟨keys, roll⟩ })
  | some index => Library.Interleaving.next (act server) system index

abbrev Step (server : CkServer) :
    System → Option Nat × Executed → System → Prop :=
  stepOf (next server)

/-- Nobody has begun. -/
def initial (server : CkServer) (plan : Plan) (keys : AdKeys)
    (requests : List Request) : System :=
  ⟨⟨keys, plan.start⟩, requests.map server.start⟩

/-- Everybody is done. -/
def Finished (system : System) : Prop :=
  system.store.roll.rest = [] ∧ ∀ task ∈ system.tasks, task = .commands []

instance (system : System) : Decidable (Finished system) :=
  inferInstanceAs (Decidable (_ ∧ ∀ task ∈ system.tasks, _))

/-! ## What a roll keeps -/

/-- A step that loses what a counter holds. -/
def RollStep.overwrites (field : Field) : RollStep → Bool
  | .command sent => sent.overwrites field
  | _ => false

/-- What a step writes to a counter. -/
def RollStep.amount (field : Field) : RollStep → Int
  | .command sent => sent.amount field
  | _ => 0

/-- The plan removes the hash. -/
def Plan.deletes (plan : Plan) : Bool :=
  plan.steps.contains (.command .del)

/-- The value of the counter before the roll is kept: it goes to the closing
row or nobody touches it. -/
def Plan.carries (plan : Plan) (field : Field) : Bool :=
  plan.closing = some field.period ||
    !plan.steps.any (RollStep.overwrites field)

/-- An increment that comes now will not be lost. -/
def Plan.isOpen (plan : Plan) (roll : Roll) (field : Field) : Bool :=
  if roll.row.isSome then
    !(plan.deletes || roll.rest.any (RollStep.overwrites field))
  else plan.carries field

/-- The part of a counter that is written to the closing row or remains. -/
def Plan.kept (plan : Plan) (field : Field) (shared : Shared) : Int :=
  plan.closed shared.roll field +
    if plan.isOpen shared.roll field then shared.keys.number field else 0

/-- A step that touches neither the counters of requests nor the hash as a
whole. -/
def RollStep.Quiet (step : RollStep) : Prop :=
  step ≠ .hgetAll ∧ step ≠ .command .del ∧
    ∀ counter : Counter,
      step.overwrites counter.1 = false ∧ step.amount counter.1 = 0

theorem quiet_renameIfExists (key : DetailKey) :
    (RollStep.renameIfExists key).Quiet :=
  ⟨RollStep.noConfusion, RollStep.noConfusion, fun _ => ⟨rfl, rfl⟩⟩

theorem quiet_scardIfExists (key : DetailKey) :
    (RollStep.scardIfExists key).Quiet :=
  ⟨RollStep.noConfusion, RollStep.noConfusion, fun _ => ⟨rfl, rfl⟩⟩

theorem quiet_scard (key : DetailKey) : (RollStep.scard key).Quiet :=
  ⟨RollStep.noConfusion, RollStep.noConfusion, fun _ => ⟨rfl, rfl⟩⟩

theorem quiet_rename (key : DetailKey) :
    (RollStep.command (.rename key)).Quiet := by
  refine ⟨RollStep.noConfusion, ?_, fun _ => ⟨rfl, rfl⟩⟩
  intro equal
  cases equal

/-- No counter of requests is a number of users or addresses. -/
theorem quiet_hset_field (key : DetailKey) (value : Int) :
    (RollStep.command (.hset key.field value)).Quiet := by
  have other : ∀ counter : Counter, key.field ≠ counter.1 := by
    rintro ⟨field, notUv, notIp⟩ rfl
    cases key
    · exact notUv rfl
    · exact notIp rfl
    · exact notUv rfl
    · exact notIp rfl
  refine ⟨RollStep.noConfusion, ?_, fun counter => ⟨?_, ?_⟩⟩
  · intro equal
    cases equal
  · exact decide_eq_false (other counter)
  · exact if_neg (other counter)

/-- Everything that a step of a timer can do. -/
theorem Roll.act_cases {keys after : AdKeys} {roll later : Roll}
    {step : RollStep} (acted : roll.act keys = some (step, after, later)) :
    ∃ rest, roll.rest = step :: rest ∧
      (step = .hgetAll ∧ after = keys ∧ later = ⟨some keys.main, rest⟩ ∨
        (∃ sent, step = .command sent ∧ after = run keys sent ∧
          later = ⟨roll.row, rest⟩) ∨
        step.Quiet ∧ after = keys ∧ ∃ more : Option RollStep,
          later = ⟨roll.row, more.toList ++ rest⟩ ∧
            ∀ new ∈ more, new.Quiet) := by
  have unlessEmpty : ∀ (p : Prop) [Decidable p] (step : RollStep)
      (rest : List RollStep), step.Quiet → ∃ more : Option RollStep,
        (if p then rest else step :: rest) = more.toList ++ rest ∧
          ∀ new ∈ more, new.Quiet := by
    intro p _ step rest quiet
    by_cases empty : p
    · exact ⟨none, if_pos empty, fun _ absent => by cases absent⟩
    · refine ⟨some step, if_neg empty, fun new present => ?_⟩
      cases present
      exact quiet
  obtain ⟨row, rest⟩ := roll
  cases rest with
  | nil => cases acted
  | cons first rest =>
      cases first with
      | hgetAll =>
          cases acted
          exact ⟨rest, rfl, .inl ⟨rfl, rfl, rfl⟩⟩
      | command sent =>
          cases acted
          exact ⟨rest, rfl, .inr (.inl ⟨sent, rfl, rfl, rfl⟩)⟩
      | renameIfExists key =>
          cases acted
          obtain ⟨more, equal, quiet⟩ := unlessEmpty (keys.details key = ∅)
            _ rest (quiet_rename key)
          exact ⟨rest, rfl, .inr (.inr ⟨quiet_renameIfExists key, rfl, more,
            congrArg (Roll.mk row) equal, quiet⟩)⟩
      | scardIfExists key =>
          cases acted
          obtain ⟨more, equal, quiet⟩ := unlessEmpty (keys.details key = ∅)
            _ rest (quiet_scard key)
          exact ⟨rest, rfl, .inr (.inr ⟨quiet_scardIfExists key, rfl, more,
            congrArg (Roll.mk row) equal, quiet⟩)⟩
      | scard key =>
          cases acted
          refine ⟨rest, rfl, .inr (.inr ⟨quiet_scard key, rfl, some _, rfl,
            fun new present => ?_⟩)⟩
          cases present
          exact quiet_hset_field key _

/-- Nothing is overwritten twice, and nothing comes after a deletion. -/
def Apart (early late : RollStep) : Prop :=
  early ≠ .command .del ∧ ∀ counter : Counter,
    early.overwrites counter.1 = true → late.overwrites counter.1 = false

theorem apart_hset {field other : Field} (ne : field ≠ other)
    (value written : Int) :
    Apart (.command (.hset field value)) (.command (.hset other written)) := by
  refine ⟨by simp, fun counter overwrites => decide_eq_false ?_⟩
  rw [← of_decide_eq_true overwrites]
  exact ne.symm

@[simp]
theorem apart_hgetAll (late : RollStep) : Apart .hgetAll late := by
  simp [Apart, RollStep.overwrites]

@[simp]
theorem apart_renameIfExists (key : DetailKey) (late : RollStep) :
    Apart (.renameIfExists key) late := by
  simp [Apart, RollStep.overwrites]

/-- The order in which every timer works. -/
structure Plan.Orderly (plan : Plan) : Prop where
  apart : plan.steps.Pairwise Apart
  resets : ∀ step ∈ plan.steps, ∀ counter : Counter,
    step.amount counter.1 = 0
  first : (∃ body, plan.steps = .hgetAll :: body ∧ .hgetAll ∉ body) ∨
    ∀ step ∈ plan.steps, step.Quiet
  closes : ∀ counter : Counter, plan.closing = some counter.1.period →
    plan.steps.any (RollStep.overwrites counter.1) = true

theorem not_overwrites_of_quiet {steps : List RollStep}
    (quiet : ∀ step ∈ steps, step.Quiet) (counter : Counter) :
    steps.any (RollStep.overwrites counter.1) = false := by
  rw [List.any_eq_false]
  intro step member
  rw [((quiet step member).2.2 counter).1]
  exact Bool.false_ne_true

theorem orderly_of_quiet {plan : Plan} (nothing : plan.closing = none)
    (quiet : ∀ step ∈ plan.steps, step.Quiet) : plan.Orderly where
  apart := by
    apply List.pairwise_of_forall_mem_list
    intro early first late second
    refine ⟨(quiet early first).2.1, fun counter overwrites => ?_⟩
    exact ((quiet late second).2.2 counter).1
  resets step member counter := ((quiet step member).2.2 counter).2
  first := .inr quiet
  closes counter closing := by
    rw [nothing] at closing
    cases closing

theorem quiet_ipUv (platform : Platform) (adId : JavaString) :
    ∀ step ∈ (Timer.plan platform adId .ipUv).steps, step.Quiet := by
  rw [Timer.plan, adIpUvCalc]
  split_ifs
  · exact List.forall_mem_nil _
  · intro step member
    simp only [List.mem_cons, List.not_mem_nil, or_false] at member
    rcases member with rfl | rfl | rfl | rfl <;> exact quiet_scardIfExists _

/-- The plans of all timers keep to the order. -/
theorem orderly_plan (platform : Platform) (adId : JavaString)
    (timer : Timer) : (timer.plan platform adId).Orderly := by
  have skip : (Plan.mk none [.hgetAll]).Orderly :=
    { apart := List.pairwise_singleton _ _
      resets := by simp [RollStep.amount]
      first := .inl ⟨[], rfl, List.not_mem_nil⟩
      closes := by
        intro counter closing
        cases closing }
  cases timer with
  | hour =>
      rw [Timer.plan, adStatInfoToMysqlHour]
      split_ifs
      · exact skip
      · refine ⟨?_, ?_, .inl ⟨_, rfl, by decide⟩, ?_⟩
        · simp [apart_hset]
        · simp [RollStep.amount, Command.amount]
        · rintro ⟨⟨period, count⟩, notUv, notIp⟩ closing
          cases closing
          cases count with
          | uv => exact absurd rfl notUv
          | ip => exact absurd rfl notIp
          | _ => rfl
  | day =>
      rw [Timer.plan, adStatInfoToMysqlDay]
      split_ifs
      · exact skip
      · refine ⟨?_, ?_, .inl ⟨_, rfl, by decide⟩, ?_⟩
        · simp
        · simp [RollStep.amount, Command.amount]
        · simp [RollStep.overwrites, Command.overwrites]
  | ipUv =>
      apply orderly_of_quiet _ (quiet_ipUv platform adId)
      rw [Timer.plan, adIpUvCalc]
      split_ifs <;> rfl

/-- How far a timer can be: before its first command, past the reading of the
hash, or on a way that never comes near the counters. -/
inductive Progress (plan : Plan) : Roll → Prop where
  | unread {body : List RollStep} (steps : plan.steps = .hgetAll :: body)
      (once : .hgetAll ∉ body) : Progress plan plan.start
  | read (row : AdStatHash) {rest : List RollStep}
      (reads : .hgetAll ∈ plan.steps) (once : .hgetAll ∉ rest) :
      Progress plan ⟨some row, rest⟩
  | aside {rest : List RollStep} (never : ∀ step ∈ plan.steps, step.Quiet)
      (quiet : ∀ step ∈ rest, step.Quiet) : Progress plan ⟨none, rest⟩

namespace Progress

variable {plan : Plan} {roll : Roll} {step : RollStep} {rest : List RollStep}

/-- The hash is read at most once. -/
theorem once (progress : Progress plan roll)
    (steps : roll.rest = step :: rest) : .hgetAll ∉ rest := by
  cases progress with
  | @unread body planned once =>
      have same : step :: rest = .hgetAll :: body := steps.symm.trans planned
      rw [(List.cons.inj same).2]
      exact once
  | read row reads once =>
      cases steps
      exact fun again => once (List.mem_cons_of_mem _ again)
  | aside never quiet =>
      cases steps
      exact fun again =>
        (quiet .hgetAll (List.mem_cons_of_mem _ again)).1 rfl

/-- A step other than the reading, and what it may put before the rest. -/
theorem tail (progress : Progress plan roll)
    (steps : roll.rest = step :: rest) (other : step ≠ .hgetAll)
    {more : List RollStep} (new : ∀ added ∈ more, added.Quiet) :
    Progress plan ⟨roll.row, more ++ rest⟩ := by
  have once := progress.once steps
  cases progress with
  | @unread body planned _ =>
      have same : step :: rest = .hgetAll :: body := steps.symm.trans planned
      exact absurd (List.cons.inj same).1 other
  | read row reads _ =>
      apply Progress.read row reads
      intro again
      rcases List.mem_append.mp again with added | left
      · exact (new _ added).1 rfl
      · exact once left
  | aside never quiet =>
      apply Progress.aside never
      intro later member
      rcases List.mem_append.mp member with added | left
      · exact new later added
      · cases steps
        exact quiet later (List.mem_cons_of_mem _ left)

end Progress

/-- What holds of a timer at work. -/
structure Working (plan : Plan) (roll : Roll) : Prop where
  progress : Progress plan roll
  apart : roll.rest.Pairwise Apart
  resets : ∀ step ∈ roll.rest, ∀ counter : Counter,
    step.amount counter.1 = 0

theorem working_start {plan : Plan} (orderly : plan.Orderly) :
    Working plan plan.start where
  progress := by
    rcases orderly.first with ⟨body, steps, once⟩ | quiet
    · exact .unread steps once
    · exact .aside quiet quiet
  apart := orderly.apart
  resets := orderly.resets

theorem RollStep.Quiet.apart {early : RollStep} (quiet : early.Quiet)
    (late : RollStep) : Apart early late := by
  refine ⟨quiet.2.1, fun counter overwrites => ?_⟩
  rw [(quiet.2.2 counter).1] at overwrites
  cases overwrites

/-- A timer at work keeps to its plan. -/
theorem Working.act {plan : Plan} {keys after : AdKeys} {roll later : Roll}
    {step : RollStep} (working : Working plan roll)
    (acted : roll.act keys = some (step, after, later)) :
    Working plan later := by
  obtain ⟨progress, apart, resets⟩ := working
  obtain ⟨rest, steps, acted⟩ := Roll.act_cases acted
  rw [steps] at apart resets
  replace apart := (List.pairwise_cons.mp apart).2
  replace resets := fun late member =>
    resets late (List.mem_cons_of_mem step member)
  rcases acted with ⟨rfl, -, rfl⟩ | ⟨sent, rfl, -, rfl⟩ |
    ⟨quiet, -, more, rfl, new⟩
  · have reads : .hgetAll ∈ plan.steps := by
      cases progress with
      | unread planned once => exact planned ▸ List.mem_cons_self
      | read row reads once => exact reads
      | aside never quiet =>
          cases steps
          exact absurd rfl (quiet _ List.mem_cons_self).1
    exact ⟨.read _ reads (progress.once steps), apart, resets⟩
  · refine ⟨?_, apart, resets⟩
    have none : ∀ added ∈ ([] : List RollStep), added.Quiet := by simp
    exact progress.tail steps (by simp) none
  · have new : ∀ added ∈ more.toList, added.Quiet := by simpa using new
    refine ⟨progress.tail steps quiet.1 new, ?_, ?_⟩
    · cases more with
      | none => exact apart
      | some added =>
          exact List.pairwise_cons.mpr
            ⟨fun late _ => (new added (by simp)).apart late, apart⟩
    · intro late member counter
      rcases List.mem_append.mp member with added | left
      · exact ((new late added).2.2 counter).2
      · exact resets late left counter

theorem overwrites_of_deletes {plan : Plan} (deletes : plan.deletes = true)
    (field : Field) : plan.steps.any (RollStep.overwrites field) = true := by
  rw [Plan.deletes, List.contains_iff_mem] at deletes
  exact List.any_eq_true.mpr ⟨_, deletes, rfl⟩

@[simp]
theorem isOpen_read (plan : Plan) (row : AdStatHash) (rest : List RollStep)
    (field : Field) :
    plan.isOpen ⟨some row, rest⟩ field =
      !(plan.deletes || rest.any (RollStep.overwrites field)) :=
  rfl

@[simp]
theorem isOpen_unread (plan : Plan) (rest : List RollStep) (field : Field) :
    plan.isOpen ⟨none, rest⟩ field = plan.carries field :=
  rfl

@[simp]
theorem closed_unread (plan : Plan) (rest : List RollStep) (field : Field) :
    plan.closed ⟨none, rest⟩ field = 0 :=
  ite_self 0

theorem closed_read (plan : Plan) (keys : AdKeys) (rest : List RollStep)
    (field : Field) :
    plan.closed ⟨some keys.main, rest⟩ field =
      if plan.closing = some field.period then keys.number field else 0 :=
  rfl

/-- Reading the hash keeps what the plan carries. -/
theorem kept_hgetAll {plan : Plan} (orderly : plan.Orderly) {keys : AdKeys}
    {body : List RollStep} (steps : plan.steps = .hgetAll :: body)
    (counter : Counter) :
    plan.kept counter.1 ⟨keys, ⟨some keys.main, body⟩⟩ =
      plan.kept counter.1 ⟨keys, plan.start⟩ := by
  have closes := orderly.closes counter
  have deletes := fun deletes : plan.deletes = true =>
    overwrites_of_deletes deletes counter.1
  have same : plan.steps.any (RollStep.overwrites counter.1) =
      body.any (RollStep.overwrites counter.1) := by
    rw [steps, List.any_cons]
    rfl
  rw [same] at closes deletes
  simp only [Plan.kept, Plan.start, isOpen_read, isOpen_unread,
    closed_unread, closed_read, Plan.carries, same]
  by_cases changes : body.any (RollStep.overwrites counter.1) = true
  · simp [changes]
  · have notClosing : plan.closing ≠ some counter.1.period :=
      fun closing => changes (closes closing)
    have stays : plan.deletes = false :=
      Bool.eq_false_iff.mpr fun yes => changes (deletes yes)
    simp [changes, notClosing, stays]

/-- A reset that the plan still has to do keeps the value that was read. -/
theorem kept_command {plan : Plan} {roll : Roll} (working : Working plan roll)
    {keys : AdKeys} {sent : Command} {rest : List RollStep}
    (steps : roll.rest = .command sent :: rest) (counter : Counter) :
    plan.kept counter.1 ⟨run keys sent, ⟨roll.row, rest⟩⟩ =
      plan.kept counter.1 ⟨keys, roll⟩ := by
  obtain ⟨progress, apart, resets⟩ := working
  have amount : sent.amount counter.1 = 0 :=
    resets (.command sent) (steps ▸ List.mem_cons_self) counter
  rw [steps, List.pairwise_cons] at apart
  have closed : plan.closed ⟨roll.row, rest⟩ counter.1 =
      plan.closed roll counter.1 := rfl
  rw [Plan.kept, Plan.kept, closed, add_right_inj]
  cases overwritten : sent.overwrites counter.1 with
  | true =>
      have later : rest.any (RollStep.overwrites counter.1) = false := by
        rw [List.any_eq_false]
        intro late member
        rw [(apart.1 late member).2 counter overwritten]
        exact Bool.false_ne_true
      rw [number_run_overwrites overwritten, amount, ite_self]
      cases progress with
      | unread planned once =>
          cases planned.symm.trans steps
      | read row reads once =>
          cases steps
          simp [RollStep.overwrites, overwritten]
      | aside never quiet =>
          cases steps
          have untouched := ((quiet _ List.mem_cons_self).2.2 counter).1
          rw [RollStep.overwrites, overwritten] at untouched
          cases untouched
  | false =>
      rw [number_run (by simp [overwritten]), amount, add_zero]
      cases progress with
      | unread planned once =>
          cases planned.symm.trans steps
      | read row reads once =>
          cases steps
          simp [RollStep.overwrites, overwritten]
      | aside never quiet => rfl

/-- A step of the timer keeps what is written and what remains. -/
theorem kept_act {plan : Plan} (orderly : plan.Orderly)
    {keys after : AdKeys} {roll later : Roll} {step : RollStep}
    (working : Working plan roll)
    (acted : roll.act keys = some (step, after, later)) (counter : Counter) :
    plan.kept counter.1 ⟨after, later⟩ =
      plan.kept counter.1 ⟨keys, roll⟩ := by
  obtain ⟨rest, steps, acted⟩ := Roll.act_cases acted
  rcases acted with ⟨rfl, rfl, rfl⟩ | ⟨sent, rfl, rfl, rfl⟩ |
    ⟨quiet, rfl, more, rfl, new⟩
  · cases working.progress with
    | unread planned once =>
        cases planned.symm.trans steps
        exact kept_hgetAll orderly planned counter
    | read row reads once =>
        cases steps
        exact absurd List.mem_cons_self once
    | aside never quiet =>
        cases steps
        exact absurd rfl (quiet _ List.mem_cons_self).1
  · exact kept_command working steps counter
  · have step := (quiet.2.2 counter).1
    have added : more.toList.any (RollStep.overwrites counter.1) = false :=
      not_overwrites_of_quiet (by simpa using new) counter
    obtain ⟨row, _⟩ := roll
    cases steps
    cases row with
    | none => rfl
    | some row => simp [Plan.kept, Plan.closed, Roll.value, step, added]

/-! ## What a request adds -/

/-- A command of a request that found the hash. -/
def Adds : Command → Prop
  | .hincrBy field value =>
      value = 1 ∧ field.count ≠ .uv ∧ field.count ≠ .ip
  | .sadd _ _ => True
  | _ => False

/-- A request on its way. -/
def TaskAdds : Task → Prop
  | .asks _ _ => True
  | .commands rest => ∀ command ∈ rest, Adds command

theorem adds_mobile (server : CkServer) (userAgent : JavaString)
    {field : Field} (request : field.count ≠ .uv ∧ field.count ≠ .ip) :
    ∀ command ∈ server.mobile userAgent field, Adds command := by
  rw [CkServer.mobile]
  split_ifs <;> simp [Adds, request]

theorem adds_notAdfirstPVPipline (server : CkServer)
    (impressInfo : ImpressInfo) (userAgent : JavaString) :
    ∀ command ∈ server.notAdfirstPVPipline impressInfo userAgent,
      Adds command := by
  simp only [CkServer.notAdfirstPVPipline, List.forall_mem_append]
  refine ⟨⟨⟨⟨?_, adds_mobile _ _ ?_⟩, ?_⟩, adds_mobile _ _ ?_⟩, ?_⟩ <;>
    simp [Adds]

theorem taskAdds_start (server : CkServer) (request : Request) :
    TaskAdds (server.start request) := by
  unfold CkServer.start
  split_ifs
  · cases request with
    | savePvInfo impressInfo userAgent => trivial
    | saveClickInfo impressInfo userAgent =>
        simp only [TaskAdds, CkServer.adClickInfoPipline,
          List.forall_mem_append]
        refine ⟨⟨⟨?_, adds_mobile _ _ ?_⟩, ?_⟩, adds_mobile _ _ ?_⟩ <;>
          simp [Adds]
    | saveCloseClickInfo impressInfo =>
        simp [TaskAdds, adCloseClickInfo, Adds]
  · simp [TaskAdds]

theorem Adds.overwrites {command : Command} (adds : Adds command)
    (field : Field) : command.overwrites field = false := by
  cases command with
  | hincrBy other value => rfl
  | sadd key member => rfl
  | _ => exact adds.elim

theorem Adds.amount_nonneg {command : Command} (adds : Adds command)
    (field : Field) : 0 ≤ command.amount field := by
  cases command with
  | hincrBy other value =>
      rw [Command.amount, adds.1]
      split_ifs <;> decide
  | sadd key member => exact le_rfl
  | _ => exact adds.elim

theorem Adds.texts {command : Command} (adds : Adds command)
    (keys : AdKeys) : (run keys command).main.texts = keys.main.texts := by
  cases command with
  | hincrBy other value => rfl
  | sadd key member => rfl
  | _ => exact adds.elim

/-- A command that changes no counter leaves the hash. -/
theorem Adds.main {command : Command} (adds : Adds command) (keys : AdKeys)
    (nothing : ∀ counter : Counter, command.amount counter.1 = 0) :
    (run keys command).main = keys.main := by
  cases command with
  | hincrBy other value =>
      have amount := nothing ⟨other, adds.2⟩
      rw [Command.amount, if_pos rfl, adds.1] at amount
      cases amount
  | sadd key member => rfl
  | _ => exact adds.elim

/-- Everything that a request can do in this system. -/
theorem act_cases {server : CkServer} {shared after : Shared}
    {task rest : Task} {executed : Executed}
    (acted : act server shared task = some (executed, after, rest)) :
    after.roll = shared.roll ∧
      ((∃ impressInfo userAgent, task = .asks impressInfo userAgent ∧
          executed = .request (.asked true) ∧ after.keys = shared.keys ∧
          rest = .commands
            (server.notAdfirstPVPipline impressInfo userAgent)) ∨
        ∃ command others, task = .commands (command :: others) ∧
          executed = .request (.command command) ∧
          after.keys = run shared.keys command ∧
          rest = .commands others) := by
  rw [act, Option.bind_eq_some_iff] at acted
  obtain ⟨⟨sent, keys, left⟩, acted, kept⟩ := acted
  simp only at kept
  split_ifs at kept with first
  simp only [Option.some.injEq, Prod.mk.injEq] at kept
  obtain ⟨rfl, rfl, rfl⟩ := kept
  refine ⟨rfl, ?_⟩
  cases task with
  | asks impressInfo userAgent =>
      simp only [CkServer.act, Option.some.injEq, Prod.mk.injEq] at acted
      obtain ⟨rfl, rfl, rfl⟩ := acted
      have found : shared.keys.main.exists = true := by
        simpa using first
      simp [found]
  | commands others =>
      cases others with
      | nil => cases acted
      | cons command others =>
          simp only [CkServer.act, Option.some.injEq,
            Prod.mk.injEq] at acted
          obtain ⟨rfl, rfl, rfl⟩ := acted
          exact .inr ⟨command, others, rfl, rfl, rfl, rfl⟩

/-- Everything that a step of the system can be. -/
theorem step_cases {server : CkServer} {before after : System}
    {label : Option Nat × Executed} (taken : Step server before label after) :
    (∃ step keys roll,
      label.2 = .timer step ∧
      before.store.roll.act before.store.keys = some (step, keys, roll) ∧
      after = { before with store := ⟨keys, roll⟩ }) ∨
      Nonempty (Action (act server) before label.2 after) := by
  obtain ⟨_ | index, executed⟩ := label
  · obtain ⟨⟨step, keys, roll⟩, acted, equal⟩ :=
      Option.map_eq_some_iff.mp taken
    cases equal
    exact .inl ⟨step, keys, roll, rfl, acted, rfl⟩
  · exact .inr (exists_action taken)

/-! ## Runs -/

/-- What an increment loses when it comes at the wrong moment. -/
def Executed.lost (plan : Plan) (field : Field) (roll : Roll) :
    Executed → Int
  | .timer _ => 0
  | .request (.asked _) => 0
  | .request (.command sent) =>
      if plan.isOpen roll field then 0 else sent.amount field

/-- No request increments a counter between the reading of its value and the
end of the reset, or a counter that the roll drops. -/
def Safe (plan : Plan) (before : System) (label : Option Nat × Executed) :
    Prop :=
  ∀ counter : Counter, label.2.lost plan counter.1 before.store.roll = 0

/-- What is kept of a counter, with what the requests will still add. -/
def promised (server : CkServer) (plan : Plan) (counter : Counter) :
    System → Int :=
  total (plan.kept counter.1) (server.share counter.1)

/-- The timer and the requests are at work. -/
structure Sound (plan : Plan) (system : System) : Prop where
  working : Working plan system.store.roll
  adds : ∀ task ∈ system.tasks, TaskAdds task

section Runs

variable {server : CkServer} {plan : Plan} {before after first last : System}
  {label : Option Nat × Executed} {labels : List (Option Nat × Executed)}

theorem sound_initial (orderly : plan.Orderly) (keys : AdKeys)
    (requests : List Request) :
    Sound plan (initial server plan keys requests) where
  working := working_start orderly
  adds := by
    intro task member
    obtain ⟨request, _, rfl⟩ := List.mem_map.mp member
    exact taskAdds_start server request

theorem sound_step (sound : Sound plan before)
    (taken : Step server before label after) : Sound plan after := by
  rcases step_cases taken with ⟨step, keys, roll, _, acted, rfl⟩ | ⟨⟨action⟩⟩
  · exact ⟨sound.working.act acted, sound.adds⟩
  · obtain ⟨roll, asked | sent⟩ := act_cases action.acted
    · obtain ⟨impressInfo, userAgent, task, _, _, rest⟩ := asked
      refine ⟨roll ▸ sound.working, action.forall_tasks sound.adds ?_⟩
      rw [rest]
      intro _
      exact adds_notAdfirstPVPipline server impressInfo userAgent
    · obtain ⟨command, others, task, _, _, rest⟩ := sent
      refine ⟨roll ▸ sound.working, action.forall_tasks sound.adds ?_⟩
      rw [task, rest]
      exact fun adds other member =>
        adds other (List.mem_cons_of_mem _ member)

/-- A step takes from what is promised only what it loses. -/
theorem promised_step (orderly : plan.Orderly) (sound : Sound plan before)
    (taken : Step server before label after) (counter : Counter) :
    promised server plan counter after +
        label.2.lost plan counter.1 before.store.roll =
      promised server plan counter before := by
  rcases step_cases taken with
    ⟨step, keys, roll, executed, acted, rfl⟩ | ⟨⟨action⟩⟩
  · rw [executed, Executed.lost, add_zero, promised, total, total,
      kept_act orderly sound.working acted counter]
  · apply action.total_add
    have adds := sound.adds action.task action.mem_tasks
    obtain ⟨roll, asked | sent⟩ := act_cases action.acted
    · obtain ⟨impressInfo, userAgent, task, executed, keys, rest⟩ := asked
      rw [task, rest, executed, Executed.lost, add_zero, CkServer.share,
        CkServer.share, CkServer.amounts_notAdfirstPVPipline, Plan.kept,
        Plan.kept, roll, keys]
    · obtain ⟨command, others, task, executed, keys, rest⟩ := sent
      rw [task] at adds
      have number : (run before.store.keys command).number counter.1 =
          before.store.keys.number counter.1 + command.amount counter.1 := by
        apply number_run
        simp [(adds _ List.mem_cons_self).overwrites]
      rw [task, rest, executed, Executed.lost, CkServer.share,
        CkServer.share, amounts_cons, Plan.kept, Plan.kept, roll, keys,
        number]
      split_ifs <;> omega

theorem lost_nonneg (sound : Sound plan before)
    (taken : Step server before label after) (counter : Counter) :
    0 ≤ label.2.lost plan counter.1 before.store.roll := by
  rcases step_cases taken with
    ⟨step, keys, roll, executed, acted, rfl⟩ | ⟨⟨action⟩⟩
  · rw [executed]
    exact le_rfl
  · have adds := sound.adds action.task action.mem_tasks
    obtain ⟨roll, asked | sent⟩ := act_cases action.acted
    · obtain ⟨impressInfo, userAgent, task, executed, _⟩ := asked
      rw [executed]
      exact le_rfl
    · obtain ⟨command, others, task, executed, _⟩ := sent
      rw [task] at adds
      rw [executed, Executed.lost]
      split_ifs
      · exact le_rfl
      · exact (adds _ List.mem_cons_self).amount_nonneg counter.1

theorem shrinks_promised (orderly : plan.Orderly) :
    Shrinks (Step server) (promised server plan) (Sound plan) where
  preserved := sound_step
  le sound taken counter := by
    rw [← promised_step orderly sound taken counter]
    exact le_add_of_nonneg_right (lost_nonneg sound taken counter)

/-- What is promised is kept exactly by the runs whose increments are safe. -/
theorem promised_run_iff (orderly : plan.Orderly) (sound : Sound plan first)
    (run : Run (Step server) first labels last) :
    (∀ counter, promised server plan counter last =
        promised server plan counter first) ↔
      Run (fun before label after =>
        Safe plan before label ∧ Step server before label after)
        first labels last := by
  apply (shrinks_promised orderly).run_eq_iff _ run sound
  intro before label after sound taken
  apply forall_congr'
  intro counter
  rw [← promised_step orderly sound taken counter, left_eq_add]

/-! ## After the deletion -/

/-- Once the roll has deleted the hash it is done, and the hash is as said. -/
def Gone (holds : AdStatHash → Prop) (plan : Plan) (shared : Shared) : Prop :=
  plan.deletes = true → shared.roll.row.isSome = true →
    .command .del ∉ shared.roll.rest →
      shared.roll.rest = [] ∧ holds shared.keys.main

theorem gone_act {holds : AdStatHash → Prop} (absent : holds .absent)
    {keys later : AdKeys} {roll next : Roll} {step : RollStep}
    (working : Working plan roll) (gone : Gone holds plan ⟨keys, roll⟩)
    (acted : roll.act keys = some (step, later, next)) :
    Gone holds plan ⟨later, next⟩ := by
  intro deletes read finished
  obtain ⟨rest, steps, acted⟩ := Roll.act_cases acted
  rcases acted with ⟨rfl, rfl, rfl⟩ | ⟨sent, rfl, rfl, rfl⟩ |
    ⟨quiet, rfl, more, rfl, new⟩
  · cases working.progress with
    | @unread body planned once =>
        cases planned.symm.trans steps
        rw [Plan.deletes, List.contains_iff_mem, planned] at deletes
        exact absurd (List.mem_of_ne_of_mem (by simp) deletes) finished
    | read row reads once =>
        cases steps
        exact absurd List.mem_cons_self once
    | aside never quiet =>
        cases steps
        exact absurd rfl (quiet _ List.mem_cons_self).1
  · by_cases removes : sent = .del
    · subst removes
      have apart := working.apart
      rw [steps, List.pairwise_cons] at apart
      refine ⟨List.eq_nil_iff_forall_not_mem.mpr ?_, absent⟩
      exact fun late member => (apart.1 late member).1 rfl
    · have before := (gone deletes read (by
        rw [steps, List.mem_cons, not_or]
        exact ⟨by simpa using Ne.symm removes, finished⟩)).1
      cases steps.symm.trans before
  · have before := (gone deletes read (by
      rw [steps, List.mem_cons, not_or]
      exact ⟨quiet.2.1.symm, fun member =>
        finished (List.mem_append_right _ member)⟩)).1
    cases steps.symm.trans before

/-- It stays so when the requests leave it so. -/
theorem gone_step {holds : AdStatHash → Prop} (absent : holds .absent)
    (sound : Sound plan before) (gone : Gone holds plan before.store)
    (taken : Step server before label after)
    (requests : ∀ command, label.2 = .request (.command command) →
      Adds command → plan.deletes = true →
        before.store.roll.row.isSome = true →
          holds before.store.keys.main →
            holds (run before.store.keys command).main) :
    Gone holds plan after.store := by
  rcases step_cases taken with
    ⟨step, keys, roll, executed, acted, rfl⟩ | ⟨⟨action⟩⟩
  · exact gone_act absent sound.working gone acted
  · intro deletes read finished
    obtain ⟨roll, asked | sent⟩ := act_cases action.acted
    · obtain ⟨impressInfo, userAgent, task, executed, keys, rest⟩ := asked
      rw [roll] at read finished
      rw [roll, keys]
      exact gone deletes read finished
    · obtain ⟨command, others, task, executed, keys, rest⟩ := sent
      have adds := sound.adds action.task action.mem_tasks
      rw [task] at adds
      rw [roll] at read finished
      obtain ⟨done, still⟩ := gone deletes read finished
      rw [roll, keys]
      exact ⟨done, requests command executed (adds _ List.mem_cons_self)
        deletes read still⟩

/-- Everybody is at work, and a deleted hash is as said. -/
structure Deleting (holds : AdStatHash → Prop) (plan : Plan)
    (system : System) : Prop where
  sound : Sound plan system
  gone : Gone holds plan system.store

theorem deleting_initial {holds : AdStatHash → Prop}
    (orderly : plan.Orderly) (keys : AdKeys) (requests : List Request) :
    Deleting holds plan (initial server plan keys requests) where
  sound := sound_initial orderly keys requests
  gone := by
    intro _ read
    cases read

/-- Nobody writes the texts of a deleted hash again. -/
theorem gone_texts_step
    (deleting : Deleting (fun hash => hash.texts = AdStatHash.absent.texts)
      plan before)
    (taken : Step server before label after) :
    Deleting (fun hash => hash.texts = AdStatHash.absent.texts) plan
      after := by
  obtain ⟨sound, gone⟩ := deleting
  refine ⟨sound_step sound taken, gone_step rfl sound gone taken ?_⟩
  intro command _ adds _ _ still
  rw [adds.texts]
  exact still

/-- In a safe run a deleted hash stays away. -/
theorem gone_safe_step (deleting : Deleting (· = .absent) plan before)
    (taken : Safe plan before label ∧ Step server before label after) :
    Deleting (· = .absent) plan after := by
  obtain ⟨sound, gone⟩ := deleting
  obtain ⟨safe, taken⟩ := taken
  refine ⟨sound_step sound taken, gone_step rfl sound gone taken ?_⟩
  intro command executed adds deletes read still
  rw [adds.main, still]
  intro counter
  have nothing := safe counter
  rw [executed, Executed.lost, Plan.isOpen, if_pos read, deletes] at nothing
  exact nothing

end Runs

/-! ## Finished rolls -/

/-- Every increment is in the closing row or in the hash, and a deleted hash
has not come back in part. -/
structure RolledOver (server : CkServer) (plan : Plan) (keys : AdKeys)
    (requests : List Request) (last : System) : Prop where
  contained : ∀ counter : Counter,
    plan.closed last.store.roll counter.1 +
        last.store.keys.number counter.1 =
      (if plan.carries counter.1 then keys.number counter.1 else 0) +
        requests.countP (server.counts counter.1)
  whole : plan.deletes = true → last.store.keys.main.exists = true →
    (last.store.keys.main.texts .adId).isSome ∧ ∀ period,
      (last.store.keys.main.numbers ⟨period, .pv⟩).isSome

instance (server : CkServer) (plan : Plan) (keys : AdKeys)
    (requests : List Request) (last : System) :
    Decidable (RolledOver server plan keys requests last) :=
  decidable_of_iff
    ((∀ field ∈ fields, field.count ≠ .uv → field.count ≠ .ip →
        plan.closed last.store.roll field + last.store.keys.number field =
          (if plan.carries field then keys.number field else 0) +
            requests.countP (server.counts field)) ∧
      (plan.deletes = true → last.store.keys.main.exists = true →
        (last.store.keys.main.texts .adId).isSome ∧
          ∀ period ∈ [Period.total, .today, .currentHour],
            (last.store.keys.main.numbers ⟨period, .pv⟩).isSome))
    (by
      constructor
      · rintro ⟨contained, whole⟩
        refine ⟨fun counter => contained _ (mem_fields _) counter.2.1
          counter.2.2, fun deletes present => ?_⟩
        obtain ⟨adId, pv⟩ := whole deletes present
        refine ⟨adId, fun period => pv period ?_⟩
        cases period <;> simp
      · rintro ⟨contained, whole⟩
        refine ⟨fun field _ notUv notIp =>
          contained ⟨field, notUv, notIp⟩, fun deletes present => ?_⟩
        obtain ⟨adId, pv⟩ := whole deletes present
        exact ⟨adId, fun period _ => pv period⟩)

section Finished

variable {server : CkServer} {plan : Plan} {last : System}
  {labels : List (Option Nat × Executed)}

/-- A timer that is done has read the hash if it deletes it. -/
theorem Working.read_of_deletes {roll : Roll} (working : Working plan roll)
    (done : roll.rest = []) (deletes : plan.deletes = true) :
    roll.row.isSome = true := by
  cases working.progress with
  | unread planned once => cases planned.symm.trans done
  | read row reads once => rfl
  | aside never quiet =>
      rw [Plan.deletes, List.contains_iff_mem] at deletes
      exact absurd rfl (never _ deletes).2.1

/-- What a finished roll keeps. -/
theorem kept_finished {shared : Shared} (working : Working plan shared.roll)
    (done : shared.roll.rest = []) (counter : Counter) :
    plan.kept counter.1 shared =
      plan.closed shared.roll counter.1 +
        if plan.deletes then 0 else shared.keys.number counter.1 := by
  have read := working.read_of_deletes done
  obtain ⟨keys, roll⟩ := shared
  rw [Plan.kept, add_right_inj]
  cases working.progress with
  | unread planned once => cases planned.symm.trans done
  | read row reads once =>
      cases done
      cases deletes : plan.deletes <;> simp [deletes]
  | aside never quiet =>
      have stays : plan.deletes = false := by
        rw [Bool.eq_false_iff]
        intro deletes
        cases read deletes
      simp [Plan.carries, not_overwrites_of_quiet never counter, stays]

theorem promised_initial (keys : AdKeys) (requests : List Request)
    (counter : Counter) :
    promised server plan counter (initial server plan keys requests) =
      (if plan.carries counter.1 then keys.number counter.1 else 0) +
        requests.countP (server.counts counter.1) := by
  have shares : (((initial server plan keys requests).tasks).map
      (server.share counter.1)).sum =
        requests.countP (server.counts counter.1) := by
    have counted := server.promised_initial requests counter
    rwa [CkServer.promised, total, CkServer.initial, number_absent,
      zero_add] at counted
  rw [promised, total, shares, Plan.kept, initial, Plan.start,
    closed_unread, isOpen_unread, zero_add]

/-- Nothing is lost exactly in the runs whose increments are safe. -/
theorem rolledOver_iff (orderly : plan.Orderly) (keys : AdKeys)
    (requests : List Request)
    (run : Run (Step server) (initial server plan keys requests) labels last)
    (finished : Finished last) :
    RolledOver server plan keys requests last ↔
      Run (fun before label after =>
        Safe plan before label ∧ Step server before label after)
        (initial server plan keys requests) labels last := by
  have sound : Sound plan last :=
    run.invariant sound_step (sound_initial orderly keys requests)
  have read := sound.working.read_of_deletes finished.1
  have ended : .command .del ∉ last.store.roll.rest := by
    rw [finished.1]
    exact List.not_mem_nil
  have ends : ∀ counter, promised server plan counter last =
      plan.closed last.store.roll counter.1 +
        if plan.deletes then 0 else last.store.keys.number counter.1 := by
    intro counter
    rw [← kept_finished sound.working finished.1 counter]
    apply total_eq_value
    intro task member
    rw [finished.2 task member]
    rfl
  have exact := promised_run_iff orderly
    (sound_initial orderly keys requests) run
  simp only [promised_initial, ends] at exact
  constructor
  · rintro ⟨contained, whole⟩
    have texts : Deleting (fun hash => hash.texts =
        AdStatHash.absent.texts) plan last :=
      run.invariant gone_texts_step (deleting_initial orderly keys requests)
    apply exact.mp
    intro counter
    rw [← contained counter, add_right_inj]
    split_ifs with deletes
    · have absent : last.store.keys.main.exists = false := by
        rw [Bool.eq_false_iff]
        intro present
        have adId := (whole deletes present).1
        rw [(texts.gone deletes (read deletes) ended).2] at adId
        cases adId
      exact (number_of_not_exists absent counter.1).symm
    · rfl
  · intro safe
    have gone : Deleting (· = .absent) plan last :=
      safe.invariant gone_safe_step (deleting_initial orderly keys requests)
    have kept := exact.mpr safe
    constructor
    · intro counter
      rw [← kept counter, add_right_inj]
      split_ifs with deletes
      · have absent := (gone.gone deletes (read deletes) ended).2
        rw [AdKeys.number, absent]
        rfl
      · rfl
    · intro deletes present
      rw [(gone.gone deletes (read deletes) ended).2] at present
      cases present

end Finished

/-- Every timer loses nothing exactly in the runs whose increments come at a
safe moment. -/
theorem rolledOver_iff_safe (server : CkServer) (timer : Timer)
    (adId : JavaString) (keys : AdKeys) (requests : List Request)
    {labels : List (Option Nat × Executed)} {last : System}
    (run : Run (Step server)
      (initial server (timer.plan server.platform adId) keys requests)
      labels last)
    (finished : Finished last) :
    RolledOver server (timer.plan server.platform adId) keys requests last ↔
      Run (fun before label after =>
        Safe (timer.plan server.platform adId) before label ∧
          Step server before label after)
        (initial server (timer.plan server.platform adId) keys requests)
        labels last :=
  rolledOver_iff (orderly_plan server.platform adId timer) keys requests run
    finished

/-- A plan that never comes near the counters leaves them open. -/
theorem isOpen_of_quiet {plan : Plan} {roll : Roll}
    (quiet : ∀ step ∈ plan.steps, step.Quiet) (progress : Progress plan roll)
    (counter : Counter) : plan.isOpen roll counter.1 = true := by
  cases progress with
  | unread planned once =>
      exact absurd rfl (quiet .hgetAll (planned ▸ List.mem_cons_self)).1
  | read row reads once => exact absurd rfl (quiet _ reads).1
  | aside never others =>
      simp [Plan.carries, not_overwrites_of_quiet never counter]

theorem safe_of_quiet {plan : Plan} {before : System}
    {label : Option Nat × Executed}
    (quiet : ∀ step ∈ plan.steps, step.Quiet) (sound : Sound plan before) :
    Safe plan before label := by
  intro counter
  obtain ⟨index, step | found | sent⟩ := label
  · rfl
  · rfl
  · exact if_pos (isOpen_of_quiet quiet sound.working.progress counter)

/-- The calculation of user and address numbers never loses anything. -/
theorem rolledOver_ipUv (server : CkServer) (adId : JavaString)
    (keys : AdKeys) (requests : List Request)
    {labels : List (Option Nat × Executed)} {last : System}
    (run : Run (Step server)
      (initial server (Timer.plan server.platform adId .ipUv) keys requests)
      labels last)
    (finished : Finished last) :
    RolledOver server (Timer.plan server.platform adId .ipUv) keys requests
      last := by
  have orderly := orderly_plan server.platform adId .ipUv
  apply (rolledOver_iff orderly keys requests run finished).mpr
  refine run.restrict_of_invariant ?_ (sound_initial orderly keys requests)
  intro before label after sound taken
  exact ⟨safe_of_quiet (quiet_ipUv server.platform adId) sound,
    sound_step sound taken⟩

/-- The keys of an ad with one impression in this hour. -/
def oneImpression : AdKeys :=
  [Command.hsetText .adId (text "7"), .hset ⟨.total, .pv⟩ 1,
    .hset ⟨.today, .pv⟩ 1, .hset ⟨.currentHour, .pv⟩ 1].foldl run .absent

/-- The impression that is counted while the roll is at work. -/
def another : List Request :=
  [.savePvInfo (CkServer.impressionOf (text "u") (text "1.1.1.1")) []]

/-- The impression comes first, then the hour is closed. -/
theorem rolledOver_before :
    ∃ labels last,
      Run (fun before label after =>
        Safe (Timer.plan CkServer.plain.platform (text "7") .hour) before
          label ∧ Step CkServer.plain before label after)
        (initial CkServer.plain
          (Timer.plan CkServer.plain.platform (text "7") .hour) oneImpression
          another) labels last ∧
      last.store.roll.value ⟨.currentHour, .pv⟩ = 2 := by
  have executed :
      (execute (next CkServer.plain) (initial CkServer.plain
        (Timer.plan CkServer.plain.platform (text "7") .hour) oneImpression
        another) (List.replicate 8 (some 0) ++ List.replicate 12 none)).any
          (fun result => decide (Finished result.2) &&
            decide (result.2.store.roll.value ⟨.currentHour, .pv⟩ = 2) &&
            decide (RolledOver CkServer.plain
              (Timer.plan CkServer.plain.platform (text "7") .hour)
              oneImpression another result.2)) = true := by
    decide +kernel
  obtain ⟨labels, last, run, tested⟩ := exists_run_of_test executed
  simp only [Bool.and_eq_true, decide_eq_true_eq] at tested
  obtain ⟨⟨finished, value⟩, rolledOver⟩ := tested
  refine ⟨labels, last, ?_, value⟩
  exact (rolledOver_iff_safe CkServer.plain .hour (text "7") oneImpression
    another run finished).mp rolledOver

/-- The impression comes between the reading and the reset of the hour: it is
in neither. -/
theorem exists_lost_between :
    ∃ labels last,
      Run (Step CkServer.plain)
        (initial CkServer.plain
          (Timer.plan CkServer.plain.platform (text "7") .hour) oneImpression
          another) labels last ∧
      Finished last ∧
      (Timer.plan CkServer.plain.platform (text "7") .hour).closed
        last.store.roll ⟨.currentHour, .pv⟩ = 1 ∧
      last.store.keys.number ⟨.currentHour, .pv⟩ = 0 ∧
      ¬ RolledOver CkServer.plain
        (Timer.plan CkServer.plain.platform (text "7") .hour) oneImpression
        another last := by
  have executed :
      (execute (next CkServer.plain) (initial CkServer.plain
        (Timer.plan CkServer.plain.platform (text "7") .hour) oneImpression
        another) ([none] ++ List.replicate 8 (some 0) ++
          List.replicate 11 none)).any
          (fun result => decide (Finished result.2) &&
            (decide ((Timer.plan CkServer.plain.platform (text "7")
              .hour).closed result.2.store.roll ⟨.currentHour, .pv⟩ = 1) &&
            (decide (result.2.store.keys.number ⟨.currentHour, .pv⟩ = 0) &&
            decide (¬ RolledOver CkServer.plain
              (Timer.plan CkServer.plain.platform (text "7") .hour)
              oneImpression another result.2)))) = true := by
    decide +kernel
  obtain ⟨labels, last, run, tested⟩ := exists_run_of_test executed
  simp only [Bool.and_eq_true, decide_eq_true_eq] at tested
  exact ⟨labels, last, run, tested⟩

end WindowSystem.Statistics.RollOver
