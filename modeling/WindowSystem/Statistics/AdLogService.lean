import WindowSystem.Library.Interleaving
import WindowSystem.Library.KeptAmount
import WindowSystem.Statistics.Redis

/-!
# `AdLogServiceImpl`: counting impressions, clicks and closes

A request of `ckserver` sends its redis commands one by one, and those of
other requests come in between.  The first impression of an ad asks whether
the hash is there and then sets every field to a constant; everything else
increments.
-/

namespace WindowSystem.Statistics.AdLogService

open WindowSystem.Library.Interleaving
open WindowSystem.Library.KeptAmount
open WindowSystem.Library.LabelledRun
open WindowSystem.Sspserver.JavaRuntime
open WindowSystem.Statistics.Redis

/-! ## Requests and their commands -/

/-- What the counters take from an `ImpressInfo`. -/
structure ImpressInfo where
  adId : JavaString
  materialId : Option JavaString
  uid : JavaString
  srcIP : JavaString
deriving DecidableEq

/-- The parts of the server that are not in its source: the platform, the
table of mobile user agents, and the order in which a `JSONObject` lists its
keys. -/
structure CkServer where
  platform : Platform
  isMoveDevice : JavaString → Bool
  order : List Command → List Command
  order_perm : ∀ commands, (order commands).Perm commands

/-- A call of the service. -/
inductive Request where
  | savePvInfo (impressInfo : ImpressInfo) (userAgent : JavaString)
  | saveClickInfo (impressInfo : ImpressInfo) (userAgent : JavaString)
  | saveCloseClickInfo (impressInfo : ImpressInfo)
deriving DecidableEq

def Request.impressInfo : Request → ImpressInfo
  | .savePvInfo impressInfo _ => impressInfo
  | .saveClickInfo impressInfo _ => impressInfo
  | .saveCloseClickInfo impressInfo => impressInfo

/-- The text of the material id in the JSON object; `null` becomes a text. -/
def materialText (impressInfo : ImpressInfo) : JavaString :=
  impressInfo.materialId.getD (text "null")

namespace CkServer

variable (server : CkServer)

/-- The ids are numbers; an ad need not have a material. -/
def isImpVaild (impressInfo : ImpressInfo) : Bool :=
  (parseInt server.platform impressInfo.adId).isSome &&
    impressInfo.materialId.all fun materialId =>
      isBlank server.platform materialId ||
        (parseInt server.platform materialId).isSome

/-- The increment that only requests of mobile devices send. -/
def mobile (userAgent : JavaString) (field : Field) : List Command :=
  if server.isMoveDevice userAgent then [.hincrBy field 1] else []

def notAdfirstPVPipline (impressInfo : ImpressInfo) (userAgent : JavaString) :
    List Command :=
  [.hincrBy ⟨.total, .pv⟩ 1, .hincrBy ⟨.today, .pv⟩ 1] ++
    server.mobile userAgent ⟨.today, .mobilePv⟩ ++
    [.sadd .adDayUvKey impressInfo.uid, .sadd .adDayIpKey impressInfo.srcIP,
      .hincrBy ⟨.currentHour, .pv⟩ 1] ++
    server.mobile userAgent ⟨.currentHour, .mobilePv⟩ ++
    [.sadd .adHourUvKey impressInfo.uid, .sadd .adHourIpKey impressInfo.srcIP]

/-- The fields of an `AdStatInfo` whose values are not blank. -/
def adStatInfo (impressInfo : ImpressInfo) (userAgent : JavaString) :
    List Command :=
  let mobilePv := if server.isMoveDevice userAgent then 1 else 0
  ([(TextField.adId, impressInfo.adId),
      (.materialId, materialText impressInfo)].filter fun entry =>
        isNotBlank server.platform entry.2).map
      (fun entry => Command.hsetText entry.1 entry.2) ++
    [.hset ⟨.total, .click⟩ 0, .hset ⟨.total, .pv⟩ 1,
      .hset ⟨.today, .pv⟩ 1, .hset ⟨.today, .click⟩ 0,
      .hset ⟨.today, .uv⟩ 1, .hset ⟨.today, .ip⟩ 1,
      .hset ⟨.today, .mobileClick⟩ 0, .hset ⟨.today, .close⟩ 0,
      .hset ⟨.today, .mobilePv⟩ mobilePv,
      .hset ⟨.currentHour, .pv⟩ 1, .hset ⟨.currentHour, .click⟩ 0,
      .hset ⟨.currentHour, .uv⟩ 1, .hset ⟨.currentHour, .ip⟩ 1,
      .hset ⟨.currentHour, .mobileClick⟩ 0,
      .hset ⟨.currentHour, .close⟩ 0,
      .hset ⟨.currentHour, .mobilePv⟩ mobilePv]

def adFirstPV (impressInfo : ImpressInfo) (userAgent : JavaString) :
    List Command :=
  server.order (server.adStatInfo impressInfo userAgent) ++
    [.sadd .adDayUvKey impressInfo.uid, .sadd .adDayIpKey impressInfo.srcIP,
      .sadd .adHourUvKey impressInfo.uid, .sadd .adHourIpKey impressInfo.srcIP]

def adClickInfoPipline (userAgent : JavaString) : List Command :=
  [.hincrBy ⟨.total, .click⟩ 1, .hincrBy ⟨.today, .click⟩ 1] ++
    server.mobile userAgent ⟨.today, .mobileClick⟩ ++
    [.hincrBy ⟨.currentHour, .click⟩ 1] ++
    server.mobile userAgent ⟨.currentHour, .mobileClick⟩

end CkServer

def adCloseClickInfo : List Command :=
  [.hincrBy ⟨.today, .close⟩ 1, .hincrBy ⟨.currentHour, .close⟩ 1]

/-! ## Concurrent requests -/

/-- What a request still has to do. -/
inductive Task where
  | asks (impressInfo : ImpressInfo) (userAgent : JavaString)
  | commands (rest : List Command)
deriving DecidableEq

/-- What redis sees of an action. -/
inductive Sent where
  | asked (found : Bool)
  | command (sent : Command)
deriving DecidableEq

namespace CkServer

variable (server : CkServer)

/-- A request that has not sent anything yet. -/
def start (request : Request) : Task :=
  if server.isImpVaild request.impressInfo then
    match request with
    | .savePvInfo impressInfo userAgent => .asks impressInfo userAgent
    | .saveClickInfo _ userAgent =>
        .commands (server.adClickInfoPipline userAgent)
    | .saveCloseClickInfo _ => .commands adCloseClickInfo
  else .commands []

/-- The next command of a request. -/
def act (keys : AdKeys) : Task → Option (Sent × AdKeys × Task)
  | .asks impressInfo userAgent =>
      some (.asked keys.main.exists, keys, .commands
        (if keys.main.exists then
          server.notAdfirstPVPipline impressInfo userAgent
        else server.adFirstPV impressInfo userAgent))
  | .commands [] => none
  | .commands (command :: rest) =>
      some (.command command, run keys command, .commands rest)

/-- The requests that a counter counts. -/
def counts (field : Field) (request : Request) : Bool :=
  server.isImpVaild request.impressInfo &&
    match request with
    | .savePvInfo _ userAgent =>
        field.count = .pv ||
          (field.count = .mobilePv && field.period ≠ .total &&
            server.isMoveDevice userAgent)
    | .saveClickInfo _ userAgent =>
        field.count = .click ||
          (field.count = .mobileClick && field.period ≠ .total &&
            server.isMoveDevice userAgent)
    | .saveCloseClickInfo _ => field.count = .close && field.period ≠ .total

end CkServer

/-- A counter of requests, not of users or addresses. -/
abbrev Counter : Type :=
  { field : Field // field.count ≠ .uv ∧ field.count ≠ .ip }

/-! ## What a request adds -/

/-- What commands add to a counter that none of them finds in use. -/
def amounts (field : Field) (commands : List Command) : Int :=
  (commands.map (Command.amount field)).sum

@[simp]
theorem amounts_nil (field : Field) : amounts field [] = 0 :=
  rfl

@[simp]
theorem amounts_cons (field : Field) (command : Command)
    (rest : List Command) :
    amounts field (command :: rest) =
      command.amount field + amounts field rest := by
  rw [amounts, List.map_cons, List.sum_cons]
  rfl

@[simp]
theorem amounts_append (field : Field) (front back : List Command) :
    amounts field (front ++ back) =
      amounts field front + amounts field back := by
  rw [amounts, List.map_append, List.sum_append]
  rfl

theorem amounts_perm {field : Field} {commands others : List Command}
    (perm : commands.Perm others) :
    amounts field commands = amounts field others :=
  (perm.map _).sum_eq

namespace CkServer

variable (server : CkServer)

@[simp]
theorem amounts_mobile (userAgent : JavaString) (field other : Field) :
    amounts field (server.mobile userAgent other) =
      if server.isMoveDevice userAgent ∧ other = field then 1 else 0 := by
  rw [mobile]
  cases server.isMoveDevice userAgent with
  | false => simp [amounts]
  | true => simp [amounts, Command.amount]

/-- The share of an impression. -/
def impression (userAgent : JavaString) (field : Field) : Int :=
  if field.count = .pv ∨ (field.count = .mobilePv ∧ field.period ≠ .total ∧
    server.isMoveDevice userAgent) then 1 else 0

theorem amounts_notAdfirstPVPipline (impressInfo : ImpressInfo)
    (userAgent : JavaString) (field : Field) :
    amounts field (server.notAdfirstPVPipline impressInfo userAgent) =
      server.impression userAgent field := by
  obtain ⟨period, count⟩ := field
  cases period <;> cases count <;>
    simp [notAdfirstPVPipline, impression, Command.amount]

/-- Setting the fields adds what the increments add, apart from the numbers of
users and addresses. -/
theorem amounts_adFirstPV (impressInfo : ImpressInfo)
    (userAgent : JavaString) (counter : Counter) :
    amounts counter.1 (server.adFirstPV impressInfo userAgent) =
      server.impression userAgent counter.1 := by
  have texts : ∀ entries : List (TextField × JavaString),
      amounts counter.1
        (entries.map fun entry => .hsetText entry.1 entry.2) = 0 := by
    intro entries
    induction entries with
    | nil => rfl
    | cons entry entries induction =>
        rw [List.map_cons, amounts_cons, induction]
        rfl
  obtain ⟨⟨period, count⟩, notUv, notIp⟩ := counter
  rw [adFirstPV, amounts_append, amounts_perm (server.order_perm _),
    adStatInfo, amounts_append, texts]
  cases count with
  | uv => exact absurd rfl notUv
  | ip => exact absurd rfl notIp
  | _ => cases period <;> simp [impression, Command.amount]

/-- The share of a task in a counter. -/
def share (field : Field) : Task → Int
  | .asks _ userAgent => server.impression userAgent field
  | .commands rest => amounts field rest

/-- A request starts with one for every counter that counts it. -/
theorem share_start (counter : Counter) (request : Request) :
    server.share counter.1 (server.start request) =
      if server.counts counter.1 request then 1 else 0 := by
  unfold start counts
  cases server.isImpVaild request.impressInfo with
  | false => rfl
  | true =>
      obtain ⟨⟨period, count⟩, notUv, notIp⟩ := counter
      cases request with
      | savePvInfo impressInfo userAgent =>
          simp [share, impression, and_assoc]
      | saveClickInfo impressInfo userAgent =>
          cases period <;> cases count <;>
            simp [share, adClickInfoPipline, Command.amount]
      | saveCloseClickInfo impressInfo =>
          cases period <;> cases count <;>
            simp [share, adCloseClickInfo, Command.amount]

end CkServer

/-! ## What a step loses -/

/-- What a command overwrites in a counter. -/
def Sent.lost (field : Field) (keys : AdKeys) : Sent → Int
  | .asked _ => 0
  | .command sent => if sent.overwrites field then keys.number field else 0

/-- A command adds its amount to what it leaves of the counter. -/
theorem number_run_add_lost (keys : AdKeys) (field : Field)
    (command : Command) :
    (run keys command).number field +
        (Sent.command command).lost field keys =
      keys.number field + command.amount field := by
  rw [Sent.lost]
  split_ifs with overwritten
  · rw [number_run_overwrites overwritten, add_comm]
  · rw [add_zero, number_run]
    intro overwrites
    exact absurd overwrites overwritten

/-! ## What a command can be -/

/-- A command of a request: it never removes a key and never writes a negative
number. -/
def Counting : Command → Prop
  | .hincrBy _ value => 0 ≤ value
  | .hset _ value => 0 ≤ value
  | .hsetText _ _ => True
  | .sadd _ _ => True
  | .rename _ => False
  | .del => False

/-- What a task may be in the course of a run. -/
def Task.Fair : Task → Prop
  | .asks _ _ => True
  | .commands rest => ∀ command ∈ rest, Counting command

theorem amount_nonneg {command : Command} (counting : Counting command)
    (field : Field) : 0 ≤ command.amount field := by
  cases command with
  | hincrBy other value =>
      rw [Command.amount]
      split_ifs
      · exact counting
      · exact le_rfl
  | hset other value =>
      rw [Command.amount]
      split_ifs
      · exact counting
      · exact le_rfl
  | _ => exact le_rfl

theorem number_run_nonneg {keys : AdKeys} {command : Command}
    (counting : Counting command) {field : Field}
    (nonneg : 0 ≤ keys.number field) :
    0 ≤ (run keys command).number field := by
  have amount := amount_nonneg counting field
  have balance := number_run_add_lost keys field command
  rw [Sent.lost] at balance
  split_ifs at balance <;> omega

/-- Only a command that adds the member brings it into a set. -/
theorem mem_details_run {keys : AdKeys} {command : Command}
    (counting : Counting command) {key : DetailKey} {member : JavaString} :
    member ∈ (run keys command).details key ↔
      member ∈ keys.details key ∨ command = .sadd key member := by
  cases command with
  | sadd other added =>
      by_cases same : key = other
      · subst same
        simp [run, or_comm, eq_comm]
      · simp [run, Function.update_of_ne same, Ne.symm same]
  | rename other => exact counting.elim
  | del => exact counting.elim
  | _ => simp [run]

namespace CkServer

variable (server : CkServer)

theorem counting_mobile (userAgent : JavaString) (field : Field) :
    ∀ command ∈ server.mobile userAgent field, Counting command := by
  rw [mobile]
  cases server.isMoveDevice userAgent <;> simp [Counting]

theorem counting_notAdfirstPVPipline (impressInfo : ImpressInfo)
    (userAgent : JavaString) :
    ∀ command ∈ server.notAdfirstPVPipline impressInfo userAgent,
      Counting command := by
  have mobile := server.counting_mobile userAgent
  simp only [notAdfirstPVPipline, List.forall_mem_append]
  refine ⟨⟨⟨⟨?_, mobile _⟩, ?_⟩, mobile _⟩, ?_⟩ <;> simp [Counting]

theorem counting_adFirstPV (impressInfo : ImpressInfo)
    (userAgent : JavaString) :
    ∀ command ∈ server.adFirstPV impressInfo userAgent,
      Counting command := by
  simp only [adFirstPV, List.forall_mem_append,
    (server.order_perm _).mem_iff, adStatInfo]
  refine ⟨⟨?_, ?_⟩, ?_⟩
  · intro command member
    obtain ⟨entry, _, rfl⟩ := List.mem_map.mp member
    trivial
  · cases server.isMoveDevice userAgent <;> simp [Counting]
  · simp [Counting]

theorem fair_start (request : Request) : (server.start request).Fair := by
  unfold start
  cases server.isImpVaild request.impressInfo with
  | false => simp [Task.Fair]
  | true =>
      have mobile := server.counting_mobile
      cases request with
      | savePvInfo impressInfo userAgent => trivial
      | saveClickInfo impressInfo userAgent =>
          simp only [Task.Fair, adClickInfoPipline, List.forall_mem_append,
            if_true]
          refine ⟨⟨⟨?_, mobile _ _⟩, ?_⟩, mobile _ _⟩ <;> simp [Counting]
      | saveCloseClickInfo impressInfo =>
          simp [Task.Fair, adCloseClickInfo, Counting]

end CkServer

/-! ## Runs -/

/-- The keys of the ad and its requests. -/
abbrev System : Type :=
  State AdKeys Task

namespace CkServer

variable (server : CkServer)

/-- One command of one of the requests. -/
abbrev Step : System → Nat × Sent → System → Prop :=
  stepOf (next server.act)

variable {server} {before after last : System} {sent : Sent}
  {labels : List (Nat × Sent)}

/-- Everything that an action can be. -/
theorem act_cases (action : Action server.act before sent after) :
    (∃ impressInfo userAgent, action.task = .asks impressInfo userAgent ∧
      sent = .asked before.store.main.exists ∧
      after.store = before.store ∧
      action.rest = .commands
        (if before.store.main.exists then
          server.notAdfirstPVPipline impressInfo userAgent
        else server.adFirstPV impressInfo userAgent)) ∨
    ∃ command rest, action.task = .commands (command :: rest) ∧
      sent = .command command ∧ after.store = run before.store command ∧
      action.rest = .commands rest := by
  have acted := action.acted
  cases task : action.task with
  | asks impressInfo userAgent =>
      simp only [task, act, Option.some.injEq, Prod.mk.injEq] at acted
      exact .inl ⟨impressInfo, userAgent, rfl, acted.1.symm,
        acted.2.1.symm, acted.2.2.symm⟩
  | commands rest =>
      cases rest with
      | nil =>
          rw [task] at acted
          cases acted
      | cons command rest =>
          simp only [task, act, Option.some.injEq, Prod.mk.injEq] at acted
          exact .inr ⟨command, rest, rfl, acted.1.symm, acted.2.1.symm,
            acted.2.2.symm⟩

/-- The number in a counter and what the requests will still add to it. -/
def promised (server : CkServer) (counter : Counter) : System → Int :=
  total (fun keys => keys.number counter.1) (server.share counter.1)

/-- A step takes from what is promised only what it overwrites. -/
theorem promised_step (action : Action server.act before sent after)
    (counter : Counter) :
    server.promised counter after + sent.lost counter.1 before.store =
      server.promised counter before := by
  apply action.total_add
  rcases server.act_cases action with
    ⟨impressInfo, userAgent, task, rfl, store, rest⟩ |
    ⟨command, others, task, rfl, store, rest⟩
  · rw [task, rest, store, Sent.lost, add_zero]
    split_ifs
    · rw [share, share, amounts_notAdfirstPVPipline]
    · rw [share, share, amounts_adFirstPV]
  · rw [task, rest, store, share, share, amounts_cons, add_right_comm,
      number_run_add_lost, add_assoc]

/-- Nothing is stored and no request has begun. -/
def initial (server : CkServer) (requests : List Request) : System :=
  ⟨.absent, requests.map server.start⟩

/-- The numbers are not negative and the requests only count. -/
def Sound (system : System) : Prop :=
  (∀ field, 0 ≤ system.store.number field) ∧
    ∀ task ∈ system.tasks, task.Fair

theorem sound_step (sound : Sound before)
    (action : Action server.act before sent after) : Sound after := by
  obtain ⟨nonneg, fair⟩ := sound
  have acts := fair action.task action.mem_tasks
  rcases server.act_cases action with
    ⟨impressInfo, userAgent, task, rfl, store, rest⟩ |
    ⟨command, others, task, rfl, store, rest⟩
  · refine ⟨by rwa [store], action.forall_tasks fair fun _ => ?_⟩
    rw [rest]
    split_ifs
    · exact server.counting_notAdfirstPVPipline impressInfo userAgent
    · exact server.counting_adFirstPV impressInfo userAgent
  · rw [task] at acts
    have counting := acts command List.mem_cons_self
    refine ⟨fun field => ?_, action.forall_tasks fair fun _ => ?_⟩
    · rw [store]
      exact number_run_nonneg counting (nonneg field)
    · rw [rest]
      exact fun other member => acts other (List.mem_cons_of_mem _ member)

theorem sound_start (requests : List Request) :
    Sound (server.initial requests) := by
  refine ⟨fun field => le_rfl, fun task member => ?_⟩
  obtain ⟨request, _, rfl⟩ := List.mem_map.mp member
  exact server.fair_start request

/-- No `hset` of a counter comes when something is counted there already. -/
def Undisturbed (before : System) (label : Nat × Sent) : Prop :=
  ∀ counter : Counter, label.2.lost counter.1 before.store = 0

theorem lost_nonneg (sound : Sound before) (sent : Sent) (field : Field) :
    0 ≤ sent.lost field before.store := by
  cases sent with
  | asked found => exact le_rfl
  | command command =>
      rw [Sent.lost]
      split_ifs
      · exact sound.1 field
      · exact le_rfl

theorem shrinks_promised :
    Shrinks server.Step server.promised Sound where
  preserved sound taken := by
    obtain ⟨action⟩ := exists_action taken
    exact sound_step sound action
  le sound taken counter := by
    obtain ⟨action⟩ := exists_action taken
    rw [← promised_step action counter]
    exact le_add_of_nonneg_right (lost_nonneg sound _ _)

/-- What is promised is kept exactly by the runs without a disturbed step. -/
theorem promised_run_iff {first : System} (sound : Sound first)
    (run : Run server.Step first labels last) :
    (∀ counter, server.promised counter last =
        server.promised counter first) ↔
      Run (fun before label after =>
        Undisturbed before label ∧ server.Step before label after)
        first labels last := by
  apply shrinks_promised.run_eq_iff _ run sound
  intro before label after sound taken
  obtain ⟨action⟩ := exists_action taken
  apply forall_congr'
  intro counter
  rw [← promised_step action counter, left_eq_add]

/-! ## The sets of users and addresses -/

/-- The commands that a task is going to send in any case. -/
def WillSend (server : CkServer) (command : Command) : Task → Prop
  | .asks impressInfo userAgent =>
      command ∈ server.notAdfirstPVPipline impressInfo userAgent
  | .commands rest => command ∈ rest

theorem sadd_not_mem_mobile (userAgent : JavaString) (field : Field)
    (key : DetailKey) (member : JavaString) :
    .sadd key member ∉ server.mobile userAgent field := by
  rw [mobile]
  split_ifs <;> simp

/-- Both ways of counting an impression add to the same sets. -/
theorem sadd_mem_adFirstPV {impressInfo : ImpressInfo}
    {userAgent : JavaString} {key : DetailKey} {member : JavaString} :
    .sadd key member ∈ server.adFirstPV impressInfo userAgent ↔
      .sadd key member ∈
        server.notAdfirstPVPipline impressInfo userAgent := by
  simp [adFirstPV, (server.order_perm _).mem_iff, adStatInfo,
    notAdfirstPVPipline, sadd_not_mem_mobile]

/-- A member of a set is in it or about to be added. -/
theorem member_step (sound : Sound before)
    (action : Action server.act before sent after) {key : DetailKey}
    {member : JavaString} :
    Promised (fun keys : AdKeys => member ∈ keys.details key)
        (server.WillSend (.sadd key member)) after ↔
      Promised (fun keys : AdKeys => member ∈ keys.details key)
        (server.WillSend (.sadd key member)) before := by
  apply action.promised_iff
  rcases server.act_cases action with
    ⟨impressInfo, userAgent, task, rfl, store, rest⟩ |
    ⟨command, others, task, rfl, store, rest⟩
  · rw [task, rest, store]
    split_ifs
    · rfl
    · exact or_congr_right sadd_mem_adFirstPV
  · have counting := sound.2 action.task action.mem_tasks
    rw [task] at counting
    rw [task, rest, store, mem_details_run (counting _ List.mem_cons_self),
      or_assoc]
    exact or_congr_right (by rw [WillSend, WillSend,
      List.mem_cons, eq_comm])

theorem member_run {first : System} (sound : Sound first)
    (run : Run server.Step first labels last) (key : DetailKey)
    (member : JavaString) :
    Promised (fun keys : AdKeys => member ∈ keys.details key)
        (server.WillSend (.sadd key member)) last ↔
      Promised (fun keys : AdKeys => member ∈ keys.details key)
        (server.WillSend (.sadd key member)) first := by
  induction run with
  | nil => rfl
  | cons head _ induction =>
      obtain ⟨action⟩ := exists_action head
      rw [induction (sound_step sound action), member_step sound action]

/-! ## Finished requests -/

/-- The impressions that are counted. -/
def impressions (server : CkServer) (requests : List Request) :
    List ImpressInfo :=
  requests.filterMap fun
    | .savePvInfo impressInfo _ =>
        if server.isImpVaild impressInfo then some impressInfo else none
    | _ => none

/-- The counters are the numbers of the requests that they count, the sets are
the users and addresses of the impressions. -/
structure Reported (server : CkServer) (requests : List Request)
    (keys : AdKeys) : Prop where
  numbers : ∀ counter : Counter,
    keys.number counter.1 = requests.countP (server.counts counter.1)
  dayUv : keys.details .adDayUvKey =
    ((server.impressions requests).map ImpressInfo.uid).toFinset
  dayIp : keys.details .adDayIpKey =
    ((server.impressions requests).map ImpressInfo.srcIP).toFinset
  hourUv : keys.details .adHourUvKey =
    ((server.impressions requests).map ImpressInfo.uid).toFinset
  hourIp : keys.details .adHourIpKey =
    ((server.impressions requests).map ImpressInfo.srcIP).toFinset

instance (server : CkServer) (requests : List Request) (keys : AdKeys) :
    Decidable (server.Reported requests keys) :=
  decidable_of_iff
    ((∀ field ∈ fields, field.count ≠ .uv → field.count ≠ .ip →
        keys.number field = requests.countP (server.counts field)) ∧
      (∀ key ∈ [DetailKey.adDayUvKey, .adHourUvKey], keys.details key =
        ((server.impressions requests).map ImpressInfo.uid).toFinset) ∧
      ∀ key ∈ [DetailKey.adDayIpKey, .adHourIpKey], keys.details key =
        ((server.impressions requests).map ImpressInfo.srcIP).toFinset)
    (by
      constructor
      · rintro ⟨numbers, uids, addresses⟩
        exact ⟨fun counter => numbers _ (mem_fields _) counter.2.1
          counter.2.2, uids _ (by simp), addresses _ (by simp),
          uids _ (by simp), addresses _ (by simp)⟩
      · intro reported
        refine ⟨fun field _ notUv notIp =>
          reported.numbers ⟨field, notUv, notIp⟩, ?_, ?_⟩
        · simp [reported.dayUv, reported.hourUv]
        · simp [reported.dayIp, reported.hourIp])

/-- All requests have sent everything. -/
def Finished (system : System) : Prop :=
  ∀ task ∈ system.tasks, task = .commands []

instance (system : System) : Decidable (Finished system) :=
  inferInstanceAs (Decidable (∀ task ∈ system.tasks, task = .commands []))

theorem promised_initial (requests : List Request) (counter : Counter) :
    server.promised counter (server.initial requests) =
      requests.countP (server.counts counter.1) := by
  rw [promised, total, initial, number_absent, zero_add]
  induction requests with
  | nil => rfl
  | cons request requests induction =>
      rw [List.map_cons, List.map_cons, List.sum_cons, induction,
        share_start, List.countP_cons]
      split_ifs <;> simp [add_comm]

theorem promised_finished (finished : Finished last) (counter : Counter) :
    server.promised counter last = last.store.number counter.1 := by
  apply total_eq_value
  intro task member
  rw [finished task member]
  rfl

/-- Only counted impressions add to the sets. -/
theorem willSend_start {value : ImpressInfo → JavaString} {key : DetailKey}
    {member : JavaString}
    (sends : ∀ impressInfo userAgent,
      .sadd key member ∈ server.notAdfirstPVPipline impressInfo userAgent ↔
        value impressInfo = member) (request : Request) :
    server.WillSend (.sadd key member) (server.start request) ↔
      ∃ impressInfo ∈ server.impressions [request],
        value impressInfo = member := by
  unfold start
  cases request with
  | savePvInfo impressInfo userAgent =>
      cases valid : server.isImpVaild impressInfo <;>
        simp [Request.impressInfo, impressions, WillSend, sends, valid]
  | saveClickInfo impressInfo userAgent =>
      cases valid : server.isImpVaild impressInfo <;>
        simp [Request.impressInfo, impressions, WillSend,
          adClickInfoPipline, sadd_not_mem_mobile, valid]
  | saveCloseClickInfo impressInfo =>
      cases valid : server.isImpVaild impressInfo <;>
        simp [Request.impressInfo, impressions, WillSend,
          adCloseClickInfo, valid]

/-- A set of one of the four keys ends up with the values that the impressions
send to it. -/
theorem details_finished {requests : List Request}
    (run : Run server.Step (server.initial requests) labels last)
    (finished : Finished last) {key : DetailKey}
    {value : ImpressInfo → JavaString}
    (sends : ∀ member impressInfo userAgent,
      .sadd key member ∈ server.notAdfirstPVPipline impressInfo userAgent ↔
        value impressInfo = member) :
    last.store.details key =
      ((server.impressions requests).map value).toFinset := by
  ext member
  have outcome : ∀ task ∈ last.tasks,
      ¬ server.WillSend (.sadd key member) task := by
    intro task inside
    rw [finished task inside]
    exact List.not_mem_nil
  calc member ∈ last.store.details key
    _ ↔ Promised (fun keys : AdKeys => member ∈ keys.details key)
          (server.WillSend (.sadd key member)) last := by
        rw [Promised, or_iff_left]
        rintro ⟨task, inside, willSend⟩
        exact outcome task inside willSend
    _ ↔ ∃ request ∈ requests,
          server.WillSend (.sadd key member) (server.start request) := by
        rw [member_run (server.sound_start requests) run]
        simp [Promised, initial, AdKeys.absent]
    _ ↔ ∃ request ∈ requests, ∃ impressInfo ∈ server.impressions [request],
          value impressInfo = member := by
        simp only [willSend_start (sends member)]
    _ ↔ member ∈ ((server.impressions requests).map value).toFinset := by
        rw [List.mem_toFinset, List.mem_map]
        simp only [impressions, List.mem_filterMap, List.mem_singleton,
          exists_eq_left]
        constructor
        · rintro ⟨request, inside, info, found, equal⟩
          exact ⟨info, ⟨request, inside, found⟩, equal⟩
        · rintro ⟨info, ⟨request, inside, found⟩, equal⟩
          exact ⟨request, inside, info, found, equal⟩

/-- The counters come out right exactly in the runs in which no first
impression sets a counter that another request has used. -/
theorem reported_iff_undisturbed (requests : List Request)
    (run : Run server.Step (server.initial requests) labels last)
    (finished : Finished last) :
    server.Reported requests last.store ↔
      Run (fun before label after =>
        Undisturbed before label ∧ server.Step before label after)
        (server.initial requests) labels last := by
  rw [← promised_run_iff (server.sound_start requests) run]
  simp only [promised_initial, promised_finished finished]
  constructor
  · intro reported counter
    exact reported.numbers counter
  · intro numbers
    refine ⟨numbers, ?_, ?_, ?_, ?_⟩ <;>
      apply details_finished run finished <;>
      intro member impressInfo userAgent <;>
      simp [notAdfirstPVPipline, sadd_not_mem_mobile, eq_comm]

/-- A server on ASCII texts that lists the keys of an object in their order. -/
def plain : CkServer where
  platform := asciiPlatform
  isMoveDevice _ := false
  order := id
  order_perm := List.Perm.refl

/-- An impression without a material. -/
def impressionOf (uid srcIP : JavaString) : ImpressInfo :=
  ⟨text "7", none, uid, srcIP⟩

/-- An impression, a click in the middle of it and a second impression. -/
def oneAfterTheOther : List Request :=
  [.savePvInfo (impressionOf (text "u") (text "1.1.1.1")) [],
    .saveClickInfo (impressionOf (text "u") (text "1.1.1.1")) [],
    .savePvInfo (impressionOf (text "v") (text "1.1.1.1")) []]

/-- The first one alone, then the click before the rest. -/
theorem reported_oneAfterTheOther :
    ∃ labels last,
      Run (fun before label after =>
        Undisturbed before label ∧ plain.Step before label after)
        (plain.initial oneAfterTheOther) labels last ∧
      last.store.number ⟨.total, .pv⟩ = 2 := by
  have executed :
      (execute (next plain.act) (plain.initial oneAfterTheOther)
        (List.replicate 23 0 ++ List.replicate 3 1 ++
          List.replicate 8 2)).any (fun result =>
            decide (Finished result.2) &&
              decide (plain.Reported oneAfterTheOther result.2.store)) =
        true := by
    decide +kernel
  obtain ⟨labels, last, run, tested⟩ := exists_run_of_test executed
  rw [Bool.and_eq_true, decide_eq_true_eq, decide_eq_true_eq] at tested
  refine ⟨labels, last, ?_, tested.2.numbers ⟨⟨.total, .pv⟩, by simp⟩⟩
  exact (reported_iff_undisturbed oneAfterTheOther run tested.1).mp tested.2

/-- Two impressions of an ad that nobody has seen before. -/
def bothFirst : List Request :=
  [.savePvInfo (impressionOf (text "u") (text "1.1.1.1")) [],
    .savePvInfo (impressionOf (text "v") (text "1.1.1.2")) []]

/-- Both ask before either has set a field; the second one sets the counters
of the first back to one. -/
theorem exists_lost_impression :
    ∃ labels last, Run plain.Step (plain.initial bothFirst) labels last ∧
      Finished last ∧ bothFirst.countP (plain.counts ⟨.total, .pv⟩) = 2 ∧
      last.store.number ⟨.total, .pv⟩ = 1 := by
  have executed :
      (execute (next plain.act) (plain.initial bothFirst)
        ([0, 1] ++ List.replicate 22 0 ++ List.replicate 22 1)).any
          (fun result => decide (Finished result.2) &&
            decide (result.2.store.number ⟨.total, .pv⟩ = 1)) = true := by
    decide +kernel
  obtain ⟨labels, last, run, tested⟩ := exists_run_of_test executed
  rw [Bool.and_eq_true, decide_eq_true_eq, decide_eq_true_eq] at tested
  exact ⟨labels, last, run, tested.1, by decide +kernel, tested.2⟩

end CkServer

end WindowSystem.Statistics.AdLogService
