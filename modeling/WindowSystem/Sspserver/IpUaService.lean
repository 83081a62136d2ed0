import WindowSystem.Library.LabelledRun
import WindowSystem.Sspserver.Filters

/-!
# The counter of an address

`IpUaFilter.doIPNumFilter` limits how often a plan is shown to one address.
The number of times is kept by redis under a key that lives until midnight;
`IpUaServiceImpl` reads it with one command and creates or increases it with
another.  The module follows the commands of any number of requests for one
address and one plan, in any order, with the expiry of the key between any two
of them.
-/

namespace WindowSystem.Sspserver.IpUaService

open WindowSystem.Library.LabelledRun
open WindowSystem.Sspserver.Filters
open WindowSystem.Sspserver.JavaRuntime
open WindowSystem.Sspserver.Model

/-! ## Redis -/

/-- The value of the key, and whether it has an expiry. -/
structure Counter where
  visitNum : Int
  expires : Bool
deriving DecidableEq

/-- `saveIPInfoForRedis`: `setex` refuses an expiry that is not positive, and
the filter catches the exception. -/
def saveIPInfoForRedis (counter : Option Counter) (visitNum : Int)
    (expireSecond : Int) : Option Counter :=
  if 1 ≤ expireSecond then some ⟨visitNum, true⟩ else counter

/-- `hincrByOne`: a key that does not exist is created without an expiry. -/
def hincrByOne : Option Counter → Counter
  | none => ⟨1, false⟩
  | some counter => { counter with visitNum := counter.visitNum + 1 }

/-! ## Requests -/

/-- What a request does after it has read the counter. -/
inductive Decision where
  | save
  | increase
  | reject
deriving DecidableEq

/-- The decision of `doIPNumFilter` on the counter that it has read. -/
def decision (uidIpNum : Int) : Option Counter → Decision
  | none => .save
  | some counter =>
      if counter.visitNum ≥ uidIpNum then .reject else .increase

/-- The counter, the requests between their two commands, and the number of
requests that have passed the filter since the counter was last reset. -/
structure State where
  counter : Option Counter
  saving : List Nat
  increasing : List Nat
  passed : Nat
deriving DecidableEq

/-- No request has come yet. -/
def State.initial : State := ⟨none, [], [], 0⟩

/-- A command of a request, or the expiry of the key. -/
inductive Command where
  | getIPInfoForRedis (request : Nat)
  | saveIPInfoForRedis (request : Nat) (expireSecond : Int)
  | hincrByOne (request : Nat)
  | expire
deriving DecidableEq

/-- The state after a command, if the command can come. -/
def next (uidIpNum : Int) (state : State) : Command → Option State
  | .getIPInfoForRedis request =>
      if request ∈ state.saving ∨ request ∈ state.increasing then none
      else
        match decision uidIpNum state.counter with
        | .save => some { state with saving := request :: state.saving }
        | .increase =>
            some { state with increasing := request :: state.increasing }
        | .reject => some state
  | .saveIPInfoForRedis request expireSecond =>
      if request ∈ state.saving then
        some
          { state with
            counter := saveIPInfoForRedis state.counter 1 expireSecond
            saving := state.saving.erase request
            passed := state.passed + 1 }
      else none
  | .hincrByOne request =>
      if request ∈ state.increasing then
        some
          { state with
            counter := some (hincrByOne state.counter)
            increasing := state.increasing.erase request
            passed := state.passed + 1 }
      else none
  | .expire =>
      match state.counter with
      | some ⟨_, true⟩ => some { state with counter := none, passed := 0 }
      | _ => none

/-- A command that can come. -/
def Step (uidIpNum : Int) (before : State) (command : Command)
    (after : State) : Prop :=
  next uidIpNum before command = some after

/-- The limit, and that the counter will start again. -/
structure Limited (uidIpNum : Int) (state : State) : Prop where
  passed : state.passed ≤ uidIpNum
  expires : ∀ counter, state.counter = some counter → counter.expires = true

/-! ## The filter -/

/-- A string that `getIPInfoForRedis` reads for a counter. -/
def Reads (platform : Platform) (visitNum : JavaString) :
    Option Counter → Prop
  | none => visitNum = []
  | some counter =>
      visitNum ≠ [] ∧ parseInt platform visitNum = some counter.visitNum

/-- The command that follows a decision, as `doIPNumFilter` writes it. -/
def writesOf (advId key : JavaString) (remainSecond : Int) :
    Decision → Written Bool
  | .save =>
      ⟨[⟨advId, .saveIPInfo key (text "1") remainSecond⟩], some true⟩
  | .increase => ⟨[⟨advId, .hincrByOne key⟩], some true⟩
  | .reject => ⟨[], some false⟩

/-- The filter of a single request takes the decision of the model. -/
theorem doIPNumFilter_eq {platform : Platform} {readings : Readings}
    {advPlan : AdvPlan} {request : HttpServletRequest}
    {adUserFrequency : AdUserFrequency} {uidIpNum : Int}
    {counter : Option Counter} {visitNum : JavaString}
    (frequency : advPlan.adUserFrequency = some adUserFrequency)
    (limited : adUserFrequency.uidIpNum ≠ [])
    (limit : parseInt platform adUserFrequency.uidIpNum = some uidIpNum)
    (read : readings.visitNum (keyForIp platform advPlan request) =
      some visitNum)
    (reads : Reads platform visitNum counter) :
    doIPNumFilter platform readings advPlan request =
      writesOf advPlan.advId (keyForIp platform advPlan request)
        (readings.remainSecond advPlan.advId)
        (decision uidIpNum counter) := by
  rw [doIPNumFilter, frequency]
  dsimp only
  rw [if_neg limited, read]
  cases counter with
  | none =>
      rw [Reads] at reads
      rw [reads]
      rfl
  | some counter =>
      obtain ⟨present, counted⟩ := reads
      obtain ⟨first, rest, rfl⟩ := List.exists_cons_of_ne_nil present
      dsimp only
      rw [limit, counted, decision]
      dsimp only
      split_ifs <;> rfl

/-! ## Undisturbed runs -/

/-- A missing counter is not read while another request is about to create it,
and a counter below the limit is not read when the requests that are about to
increase it will bring it to the limit.  The key does not expire before a
request that has read it increases it, and it is not created in the last
second of the day. -/
def Undisturbed (uidIpNum : Int) (state : State) : Command → Prop
  | .getIPInfoForRedis _ =>
      match state.counter with
      | none => state.saving = []
      | some counter => counter.visitNum < uidIpNum →
          counter.visitNum + state.increasing.length < uidIpNum
  | .saveIPInfoForRedis _ expireSecond => 1 ≤ expireSecond
  | .hincrByOne _ => True
  | .expire => state.increasing = []

/-- A command that can come and that is not disturbed. -/
def UndisturbedStep (uidIpNum : Int) (before : State) (command : Command)
    (after : State) : Prop :=
  Undisturbed uidIpNum before command ∧ Step uidIpNum before command after

/-- The counter counts the requests that have passed, and there is room for
those that will pass. -/
structure Accurate (uidIpNum : Int) (state : State) : Prop where
  missing : state.counter = none →
    state.passed = 0 ∧ state.increasing = [] ∧ state.saving.length ≤ 1
  present : ∀ counter, state.counter = some counter →
    counter.expires = true ∧ counter.visitNum = state.passed ∧
      state.saving = [] ∧
      (state.passed : Int) + state.increasing.length ≤ uidIpNum

section Steps

variable {uidIpNum : Int} {before after : State} {request : Nat}

theorem Accurate.getIPInfoForRedis (accurate : Accurate uidIpNum before)
    (taken : UndisturbedStep uidIpNum before (.getIPInfoForRedis request)
      after) : Accurate uidIpNum after := by
  obtain ⟨undisturbed, taken⟩ := taken
  rw [Step, next] at taken
  split_ifs at taken
  cases found : before.counter with
  | none =>
      rw [Undisturbed, found] at undisturbed
      rw [found, decision] at taken
      cases taken
      constructor
      case missing =>
        intro _
        obtain ⟨none, noIncrease, _⟩ := accurate.missing found
        refine ⟨none, noIncrease, ?_⟩
        show before.saving.length + 1 ≤ 1
        rw [undisturbed, List.length_nil]
      case present =>
        intro counter present
        cases present
  | some counter =>
      obtain ⟨expires, counted, noSave, room⟩ :=
        accurate.present counter found
      rw [Undisturbed, found] at undisturbed
      rw [found, decision] at taken
      split_ifs at taken with reached
      · cases taken
        exact accurate
      · cases taken
        have below := undisturbed (not_le.mp reached)
        rw [counted] at below
        constructor
        case missing =>
          intro missing
          cases missing
        case present =>
          intro other present
          cases present
          refine ⟨expires, counted, noSave, ?_⟩
          show (before.passed : Int) + (before.increasing.length + 1 : Nat) ≤
            uidIpNum
          omega

theorem Accurate.saveIPInfoForRedis {expireSecond : Int}
    (positive : 1 ≤ uidIpNum) (accurate : Accurate uidIpNum before)
    (taken : UndisturbedStep uidIpNum before
      (.saveIPInfoForRedis request expireSecond) after) :
    Accurate uidIpNum after := by
  obtain ⟨lasting, taken⟩ := taken
  rw [Step, next] at taken
  split_ifs at taken with member
  cases taken
  have missing : before.counter = none := by
    cases found : before.counter with
    | none => rfl
    | some counter =>
        obtain ⟨_, _, noSave, _⟩ := accurate.present counter found
        rw [noSave] at member
        cases member
  obtain ⟨noPass, noIncrease, single⟩ := accurate.missing missing
  have created : IpUaService.saveIPInfoForRedis before.counter 1
      expireSecond = some ⟨1, true⟩ := if_pos lasting
  rw [created]
  constructor
  case missing =>
    intro absent
    cases absent
  case present =>
    intro counter present
    cases present
    have one : (1 : Int) = (before.passed + 1 : Nat) := by
      rw [noPass]
      rfl
    refine ⟨rfl, one, ?_, ?_⟩
    · show before.saving.erase request = []
      rw [← List.length_eq_zero_iff, List.length_erase_of_mem member]
      omega
    · show ((before.passed + 1 : Nat) : Int) + before.increasing.length ≤
        uidIpNum
      rw [← one, noIncrease, List.length_nil]
      exact positive

theorem Accurate.hincrByOne (accurate : Accurate uidIpNum before)
    (taken : UndisturbedStep uidIpNum before (.hincrByOne request) after) :
    Accurate uidIpNum after := by
  obtain ⟨_, taken⟩ := taken
  rw [Step, next] at taken
  split_ifs at taken with member
  cases taken
  cases found : before.counter with
  | none =>
      obtain ⟨_, noIncrease, _⟩ := accurate.missing found
      rw [noIncrease] at member
      cases member
  | some counter =>
      obtain ⟨expires, counted, noSave, room⟩ :=
        accurate.present counter found
      have length := List.length_erase_of_mem member
      have some_pending := List.length_pos_of_mem member
      constructor
      case missing =>
        intro absent
        cases absent
      case present =>
        intro increased present
        cases present
        refine ⟨expires, ?_, noSave, ?_⟩
        · show counter.visitNum + 1 = (before.passed + 1 : Nat)
          rw [counted]
          rfl
        · show ((before.passed + 1 : Nat) : Int) +
            (before.increasing.erase request).length ≤ uidIpNum
          omega

theorem Accurate.expire (accurate : Accurate uidIpNum before)
    (taken : UndisturbedStep uidIpNum before .expire after) :
    Accurate uidIpNum after := by
  obtain ⟨noIncrease, taken⟩ := taken
  rw [Step, next] at taken
  split at taken
  · rename_i visitNum found
    cases taken
    obtain ⟨_, _, noSave, _⟩ := accurate.present _ found
    constructor
    case missing =>
      intro _
      refine ⟨rfl, noIncrease, ?_⟩
      show before.saving.length ≤ 1
      rw [noSave]
      exact Nat.zero_le 1
    case present =>
      intro counter present
      cases present
  · cases taken

/-- Every undisturbed command keeps the counter accurate. -/
theorem Accurate.step (positive : 1 ≤ uidIpNum) {command : Command}
    (accurate : Accurate uidIpNum before)
    (taken : UndisturbedStep uidIpNum before command after) :
    Accurate uidIpNum after := by
  cases command with
  | getIPInfoForRedis request => exact accurate.getIPInfoForRedis taken
  | saveIPInfoForRedis request expireSecond =>
      exact accurate.saveIPInfoForRedis positive taken
  | hincrByOne request => exact accurate.hincrByOne taken
  | expire => exact accurate.expire taken

theorem accurate_initial (uidIpNum : Int) :
    Accurate uidIpNum .initial where
  missing _ := ⟨rfl, rfl, Nat.zero_le 1⟩
  present counter present := by cases present

theorem Accurate.limited (positive : 1 ≤ uidIpNum)
    (accurate : Accurate uidIpNum before) : Limited uidIpNum before := by
  cases found : before.counter with
  | none =>
      constructor
      case passed =>
        rw [(accurate.missing found).1]
        exact Int.le_trans (by decide) positive
      case expires =>
        intro counter present
        exact absurd (found.symm.trans present) (by simp)
  | some counter =>
      obtain ⟨expires, counted, noSave, room⟩ :=
        accurate.present counter found
      constructor
      case passed => omega
      case expires =>
        intro other present
        cases found.symm.trans present
        exact expires

end Steps

/--
The limit of an address in undisturbed runs.

If the commands of the requests do not disturb each other, at most as many
requests pass between two resets as the plan allows, and the counter always
has an expiry.
-/
theorem limited_of_undisturbed {uidIpNum : Int} (positive : 1 ≤ uidIpNum)
    {commands : List Command} {last : State}
    (run : Run (UndisturbedStep uidIpNum) .initial commands last) :
    Limited uidIpNum last := by
  have accurate : Accurate uidIpNum last :=
    run.invariant (fun accurate taken => accurate.step positive taken)
      (accurate_initial uidIpNum)
  exact accurate.limited positive

/-- Three requests one after the other, with a limit of two, and the next
day. -/
theorem limited_of_undisturbed_day :
    Limited 2 ⟨some ⟨1, true⟩, [], [], 1⟩ := by
  have commands : Run (UndisturbedStep 2) .initial
      [.getIPInfoForRedis 0, .saveIPInfoForRedis 0 3600,
        .getIPInfoForRedis 1, .hincrByOne 1, .getIPInfoForRedis 2, .expire,
        .getIPInfoForRedis 3, .saveIPInfoForRedis 3 86399]
      ⟨some ⟨1, true⟩, [], [], 1⟩ := by
    have hour : (1 : Int) ≤ 3600 := by decide
    have day : (1 : Int) ≤ 86399 := by decide
    refine .cons ⟨rfl, rfl⟩ ?_
    refine .cons ⟨hour, rfl⟩ ?_
    refine .cons ⟨fun _ => by decide, rfl⟩ ?_
    refine .cons ⟨trivial, rfl⟩ ?_
    refine .cons ⟨fun below => absurd below (by decide), rfl⟩ ?_
    refine .cons ⟨rfl, rfl⟩ ?_
    refine .cons ⟨rfl, rfl⟩ ?_
    exact .single ⟨day, rfl⟩
  exact limited_of_undisturbed (by decide) commands

/-- With a limit of one, two requests read the counter before one of them
creates it, and both pass; with a limit of two, the key expires between the
two commands of a request, which creates it again without an expiry. -/
theorem limited_disturbed :
    (∃ last,
      Run (Step 1) .initial
        [.getIPInfoForRedis 0, .getIPInfoForRedis 1,
          .saveIPInfoForRedis 0 3600, .saveIPInfoForRedis 1 3600] last ∧
      last.passed = 2 ∧ ¬ Limited 1 last) ∧
    ∃ last,
      Run (Step 2) .initial
        [.getIPInfoForRedis 0, .saveIPInfoForRedis 0 1,
          .getIPInfoForRedis 1, .expire, .hincrByOne 1] last ∧
      last.counter = some ⟨1, false⟩ ∧ ¬ Limited 2 last := by
  constructor
  · refine ⟨⟨some ⟨1, true⟩, [], [], 2⟩, ?_, rfl, ?_⟩
    · exact .cons rfl (.cons rfl (.cons rfl (.single rfl)))
    · intro limited
      exact absurd limited.passed (by decide)
  · refine ⟨⟨some ⟨1, false⟩, [], [], 1⟩, ?_, rfl, ?_⟩
    · exact .cons rfl (.cons rfl (.cons rfl (.cons rfl (.single rfl))))
    · intro limited
      exact absurd (limited.expires _ rfl) (by decide)

end WindowSystem.Sspserver.IpUaService
