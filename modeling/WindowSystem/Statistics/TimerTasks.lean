import WindowSystem.HidataFramework.RedisUtil

/-!
# The clients of the timer tasks

Every task of `adtimer` takes a client, asks for the keys of the ads, goes
through them in a loop whose body catches everything, and gives the client
back.  Only what touches a client or the database is modelled; which branch a
body takes is left open.
-/

namespace WindowSystem.Statistics.TimerTasks

open WindowSystem.HidataFramework.RedisUtil
open WindowSystem.Library.Exceptions

/-! ## Parts of the tasks -/

/-- A command outside of the `try` blocks of a task. -/
def inTask (call : Call) : Method :=
  .atomic (.command call .outside)

/-- A command inside of a `try` block of a task. -/
def inTry (call : Call) : Method :=
  .atomic (.command call .inside)

/-- Something that may be left out. -/
def optional (body : Method) : Method :=
  .either body .skip

/-- `if (client.exists(key)) { … }` -/
def ifExists (calls : List Call) : Method :=
  .seq (inTry .isPresent) (optional (.all (calls.map inTry)))

/-- A loop over keys that goes on after an entry with an error. -/
def forEach (body : Method) : Method :=
  .loop (.tryCatch body .skip)

/-- Take a client, send commands, go through the keys, give the client
back. -/
def withClient (acquire : Method) (commands : List Call)
    (bodies : List Method) : Method :=
  .seq acquire
    (.seq (.all (commands.map inTask))
      (.seq (.all (bodies.map forEach)) releaseJedisClientFromPool))

/-- Something that also gives the client back where it throws. -/
def releasing (body : Method) : Method :=
  .tryFinally (.tryCatch body .skip) releaseJedisClientFromPool

/-- `pool.getResource()` -/
def poolGetResource : Method :=
  .seq (.atomic .declare) (.atomic .getResource)

/-- The `run` of a task that catches everything. -/
def runTask (parts : List Method) : Method :=
  .tryCatch (.all parts) .skip

/-- A call of `statService`. -/
def statService : Method :=
  .atomic (.service .outside)

/-- `exists`, `rename` and `expire` of a set of users or addresses. -/
def renameOld : Method :=
  ifExists [.rename, .expire]

/-- `exists`, `scard` and `hset` for a set of users or addresses. -/
def storeSize : Method :=
  ifExists [.scard, .hset]

/-! ## `RtAdStat2MysqlTimerTask` -/

def adStatInfoToMysqlRT : Method :=
  .all
    [withClient getJedisClientFromPool [.keys, .keys]
        [inTry .hgetAll, inTry .hgetAll],
      statService, statService]

def adHostStatInfoToMysqlMin : Method :=
  .all
    [withClient getJedisClientFromPool [.keys] [inTry .hgetAll],
      statService, statService]

def rtAdStat2MysqlTimerTask : Method :=
  runTask [adStatInfoToMysqlRT, adHostStatInfoToMysqlMin]

/-! ## `HourAdStat2MysqlTimerTask` -/

/-- One key of the hour task, with the fields that are set to zero. -/
def hourBody (fields : Nat) : Method :=
  .seq (inTry .hgetAll)
    (optional (.seq (.seq renameOld renameOld)
      (.all (List.replicate fields (inTry .hset)))))

def adStatInfoToMysqlHour : Method :=
  .all
    [withClient getJedisClientFromPool [.keys] [hourBody 7],
      statService, statService]

def maStatInfoToMysqlHour : Method :=
  .all
    [withClient getJedisClientFromPool [.keys] [hourBody 6],
      statService, statService]

def hourAdStat2MysqlTimerTask : Method :=
  runTask [adStatInfoToMysqlHour, maStatInfoToMysqlHour]

/-! ## `DayAdStat2MysqlTimerTask` -/

/-- One key of the day task. -/
def dayBody : Method :=
  .seq (inTry .hgetAll)
    (optional (.seq (.seq renameOld renameOld) (inTry .del)))

def adStatInfoToMysqlDay : Method :=
  .all
    [withClient getJedisClientFromPool [.keys] [dayBody],
      withClient getJedisClientFromPool [.keys] [dayBody],
      statService, statService]

def adHostStatInfoToMysqlDay : Method :=
  .all
    [withClient getJedisClientFromPool [.keys] [dayBody], statService]

def dayAdStat2MysqlTimerTask : Method :=
  runTask [adStatInfoToMysqlDay, adHostStatInfoToMysqlDay]

/-! ## `RtIpUv2MainKeyTimerTask` and `RtIpUv2HostMainKeyTimerTask` -/

/-- One key of `AdIpUvCalc` or `MaterialIpUvCalc`. -/
def ipUvBody : Method :=
  optional (.all [storeSize, storeSize, storeSize, storeSize])

def adIpUvCalc : Method :=
  withClient getJedisClientFromPool [.keys] [ipUvBody]

def materialIpUvCalc : Method :=
  withClient getJedisClientFromPool [.keys] [ipUvBody]

def rtIpUv2MainKeyTimerTask : Method :=
  runTask [adIpUvCalc, materialIpUvCalc]

/-- The keys are read before the `try` block, which is around the loop. -/
def hostIpUvCalc : Method :=
  .seq getJedisClientFromPool
    (.seq (inTask .keys)
      (releasing (.loop (optional (.seq storeSize storeSize)))))

def rtIpUv2HostMainKeyTimerTask : Method :=
  runTask [hostIpUvCalc]

/-! ## `PVCountCollectionTimerTask` -/

/-- The counters of the minute are deleted before the `try` block; nothing
catches what that throws. -/
def pvCountCollectionTimerTask : Method :=
  .seq getJedisClientFromPool
    (.seq (inTask .del)
      (releasing
        (.seq (inTry .keys)
          (.seq (forEach (inTry .hgetAll)) (optional (inTry .set))))))

/-! ## `NHT2NotNHTTimerTask` and `NotNHT2NHTTimerTask` -/

/-- `nhtStat2NnhtProcess` or `nNht2nhtStatProcess` with its cache update. -/
def nhtProcess : Method :=
  .seq (.atomic (.service .inside))
    (optional (.seq (.atomic (.service .inside))
      (.seq (.atomic (.service .inside)) (.loop (inTry .hset)))))

/-- One key of an NHT task, with the fields that it sets first. -/
def nhtBody (fields : Nat) : Method :=
  .seq (inTry .hgetAll)
    (optional (.seq (.all (List.replicate fields (inTry .hset))) nhtProcess))

def nht2NotNHTTimerTask : Method :=
  runTask [withClient poolGetResource [.keys] [nhtBody 1]]

def notNHT2NHTTimerTask : Method :=
  runTask [withClient poolGetResource [.keys] [nhtBody 2]]

/-! ## The parts keep the count -/

/-- A body that a `try` block of a task may have. -/
def Guarded (body : Method) : Prop :=
  Triple results Available body Available Available

theorem guarded_inTry (call : Call) : Guarded (inTry call) :=
  command_inside_triple call

theorem guarded_service : Guarded (.atomic (.service .inside)) :=
  service_inside_triple

theorem Guarded.seq {first second : Method} (left : Guarded first)
    (right : Guarded second) : Guarded (.seq first second) :=
  Triple.seq left right

theorem Guarded.all {methods : List Method}
    (each : ∀ method ∈ methods, Guarded method) : Guarded (.all methods) :=
  Triple.all each

theorem Guarded.optional {body : Method} (guarded : Guarded body) :
    Guarded (optional body) :=
  Triple.either guarded .skip

theorem guarded_ifExists (calls : List Call) : Guarded (ifExists calls) := by
  refine (guarded_inTry .isPresent).seq (Guarded.optional (.all ?_))
  rintro _ member
  obtain ⟨call, -, rfl⟩ := List.mem_map.mp member
  exact guarded_inTry call

theorem guarded_hsets (fields : Nat) :
    Guarded (.all (List.replicate fields (inTry .hset))) := by
  apply Guarded.all
  intro method member
  rw [List.eq_of_mem_replicate member]
  exact guarded_inTry .hset

theorem guarded_hourBody (fields : Nat) : Guarded (hourBody fields) :=
  (guarded_inTry .hgetAll).seq
    (((guarded_ifExists _).seq (guarded_ifExists _)).seq
      (guarded_hsets fields)).optional

theorem guarded_dayBody : Guarded dayBody :=
  (guarded_inTry .hgetAll).seq
    (((guarded_ifExists _).seq (guarded_ifExists _)).seq
      (guarded_inTry .del)).optional

theorem guarded_ipUvBody : Guarded ipUvBody := by
  refine Guarded.optional (.all ?_)
  intro method member
  have size : method = storeSize := by simpa using member
  rw [size]
  exact guarded_ifExists _

theorem guarded_nhtProcess : Guarded nhtProcess :=
  guarded_service.seq (guarded_service.seq (guarded_service.seq
    (Triple.loop (guarded_inTry .hset)))).optional

theorem guarded_nhtBody (fields : Nat) : Guarded (nhtBody fields) :=
  (guarded_inTry .hgetAll).seq
    ((guarded_hsets fields).seq guarded_nhtProcess).optional

theorem inTask_triple (call : Call) :
    Triple results Available (inTask call) Available (Failed 0) :=
  command_triple call (by decide)

/-- A loop over keys never throws. -/
theorem forEach_triple {body : Method} (guarded : Guarded body) :
    Triple results Available (forEach body) Available fun _ => False :=
  .loop (.tryCatch guarded .skip)

theorem failed_exact (state : State) (failed : Failed 0 state) :
    state.Exact :=
  failed.exact (by decide)

/-- What a part of a task leaves behind. -/
def Part (method : Method) : Prop :=
  Triple results State.Exact method Done State.Exact

theorem withClient_part {acquire : Method} {commands : List Call}
    {bodies : List Method}
    (acquired : Triple results State.Exact acquire Available State.Exact)
    (guarded : ∀ body ∈ bodies, Guarded body) :
    Part (withClient acquire commands bodies) := by
  have asked : Triple results Available (.all (commands.map inTask))
      Available State.Exact := by
    apply Triple.all
    intro method member
    obtain ⟨call, -, rfl⟩ := List.mem_map.mp member
    exact (inTask_triple call).mono (fun _ => id) (fun _ => id) failed_exact
  have looped : Triple results Available (.all (bodies.map forEach))
      Available State.Exact := by
    apply Triple.all
    intro method member
    obtain ⟨body, inside, rfl⟩ := List.mem_map.mp member
    exact (forEach_triple (guarded body inside)).mono (fun _ => id)
      (fun _ => id) fun _ => False.elim
  have released : Triple results Available releaseJedisClientFromPool Done
      State.Exact :=
    releaseJedisClientFromPool_triple.mono (fun _ => id) (fun _ => id)
      fun _ => False.elim
  exact acquired.seq (asked.seq (looped.seq released))

theorem releasing_triple {body : Method} (guarded : Guarded body) :
    Triple results Available (releasing body) State.Exact State.Exact := by
  have caught : Triple results Available (.tryCatch body .skip) Available
      fun _ => False :=
    .tryCatch guarded .skip
  have released : Triple results Available releaseJedisClientFromPool
      State.Exact State.Exact :=
    releaseJedisClientFromPool_triple.mono (fun _ => id)
      (fun _ => And.left) fun _ => False.elim
  exact caught.tryFinally released .absurd

theorem acquired_getJedisClientFromPool :
    Triple results State.Exact getJedisClientFromPool Available
      State.Exact :=
  getJedisClientFromPool_triple.mono (fun _ => id) (fun _ => id)
    fun _ => False.elim

theorem acquired_poolGetResource :
    Triple results State.Exact poolGetResource Available State.Exact := by
  have declared : Triple results State.Exact (.atomic .declare) Null
      State.Exact :=
    declare_triple.mono (fun _ => id) (fun _ => id) fun _ => False.elim
  exact declared.seq
    (getResource_triple.mono (fun _ => id) (fun _ => .inr) fun _ => And.left)

theorem Part.exacting {method : Method} (part : Part method) :
    Exacting method :=
  part.mono (fun _ => id) (fun _ => And.left) fun _ => id

/-- What may follow once the client is given back. -/
def Later (method : Method) : Prop :=
  Triple results Done method Done State.Exact

theorem later_statService : Later statService :=
  (service_done_triple .outside).mono (fun _ => id) (fun _ => id)
    fun _ => And.left

theorem Part.later {method : Method} (part : Part method) : Later method :=
  part.mono (fun _ => And.left) (fun _ => id) fun _ => id

theorem Part.all {first : Method} {rest : List Method} (part : Part first)
    (later : ∀ method ∈ rest, Later method) : Part (.all (first :: rest)) :=
  Triple.seq part (Triple.all later)

theorem exacting_runTask {parts : List Method}
    (each : ∀ part ∈ parts, Exacting part) : Exacting (runTask parts) :=
  .tryCatch (Triple.all each) .skip

/-! ## The tasks keep the count -/

theorem part_withClient {commands : List Call} {bodies : List Method}
    (guarded : ∀ body ∈ bodies, Guarded body) :
    Part (withClient getJedisClientFromPool commands bodies) :=
  withClient_part acquired_getJedisClientFromPool guarded

theorem rtAdStat2MysqlTimerTask_exacting :
    Exacting rtAdStat2MysqlTimerTask := by
  have ads : Part adStatInfoToMysqlRT :=
    Part.all (part_withClient (by simp [guarded_inTry]))
      (by simp [later_statService])
  have hosts : Part adHostStatInfoToMysqlMin :=
    Part.all (part_withClient (by simp [guarded_inTry]))
      (by simp [later_statService])
  exact exacting_runTask (by simp [ads.exacting, hosts.exacting])

theorem hourAdStat2MysqlTimerTask_exacting :
    Exacting hourAdStat2MysqlTimerTask := by
  have ads : Part adStatInfoToMysqlHour :=
    Part.all (part_withClient (by simp [guarded_hourBody]))
      (by simp [later_statService])
  have materials : Part maStatInfoToMysqlHour :=
    Part.all (part_withClient (by simp [guarded_hourBody]))
      (by simp [later_statService])
  exact exacting_runTask (by simp [ads.exacting, materials.exacting])

theorem dayAdStat2MysqlTimerTask_exacting :
    Exacting dayAdStat2MysqlTimerTask := by
  have part : Part (withClient getJedisClientFromPool [.keys] [dayBody]) :=
    part_withClient (by simp [guarded_dayBody])
  have ads : Part adStatInfoToMysqlDay :=
    part.all (by simp [part.later, later_statService])
  have hosts : Part adHostStatInfoToMysqlDay :=
    part.all (by simp [later_statService])
  exact exacting_runTask (by simp [ads.exacting, hosts.exacting])

theorem rtIpUv2MainKeyTimerTask_exacting :
    Exacting rtIpUv2MainKeyTimerTask := by
  have ads : Part adIpUvCalc := part_withClient (by simp [guarded_ipUvBody])
  have materials : Part materialIpUvCalc :=
    part_withClient (by simp [guarded_ipUvBody])
  exact exacting_runTask (by simp [ads.exacting, materials.exacting])

/-- A method that asks for something outside of its `try` block. -/
theorem exacting_releasing {call : Call} {body : Method}
    (guarded : Guarded body) :
    Exacting (.seq getJedisClientFromPool
      (.seq (inTask call) (releasing body))) := by
  have asked : Triple results Available (inTask call) Available
      State.Exact :=
    (inTask_triple call).mono (fun _ => id) (fun _ => id) failed_exact
  exact acquired_getJedisClientFromPool.seq
    (asked.seq (releasing_triple guarded))

theorem rtIpUv2HostMainKeyTimerTask_exacting :
    Exacting rtIpUv2HostMainKeyTimerTask := by
  have guarded : Guarded
      (.loop (optional (.seq storeSize storeSize))) :=
    Triple.loop
      (((guarded_ifExists _).seq (guarded_ifExists _)).optional)
  have hosts : Exacting hostIpUvCalc := exacting_releasing guarded
  exact exacting_runTask (by simp [hosts])

theorem pvCountCollectionTimerTask_exacting :
    Exacting pvCountCollectionTimerTask := by
  have looped : Guarded (forEach (inTry .hgetAll)) :=
    (forEach_triple (guarded_inTry .hgetAll)).mono (fun _ => id)
      (fun _ => id) fun _ => False.elim
  exact exacting_releasing
    ((guarded_inTry .keys).seq (looped.seq (guarded_inTry .set).optional))

/-- An NHT task, which takes its client from a pool of its own. -/
theorem exacting_nhtTask (fields : Nat) :
    Exacting (runTask [withClient poolGetResource [.keys] [nhtBody fields]]) := by
  have part : Part (withClient poolGetResource [.keys] [nhtBody fields]) :=
    withClient_part acquired_poolGetResource (by simp [guarded_nhtBody])
  exact exacting_runTask (by simp [part.exacting])

/-! ## Sequences of operations and tasks -/

/-- The operations of `RedisUtil` and the tasks of `adtimer`. -/
inductive Program where
  | hset
  | sadd
  | keys
  | hget
  | hsetOjbect
  | hgetAll
  | isExists
  | del
  | get
  | set
  | rtAdStat2Mysql
  | hourAdStat2Mysql
  | dayAdStat2Mysql
  | rtIpUv2MainKey
  | rtIpUv2HostMainKey
  | pvCountCollection
  | nht2NotNHT
  | notNHT2NHT
deriving DecidableEq

/-- What a program runs. -/
def Program.method : Program → Method
  | .hset => HidataFramework.RedisUtil.hset
  | .sadd => HidataFramework.RedisUtil.sadd
  | .keys => HidataFramework.RedisUtil.keys
  | .hget => HidataFramework.RedisUtil.hget
  | .hsetOjbect => HidataFramework.RedisUtil.hsetOjbect
  | .hgetAll => HidataFramework.RedisUtil.hgetAll
  | .isExists => HidataFramework.RedisUtil.isExists
  | .del => HidataFramework.RedisUtil.del
  | .get => HidataFramework.RedisUtil.get
  | .set => HidataFramework.RedisUtil.set
  | .rtAdStat2Mysql => rtAdStat2MysqlTimerTask
  | .hourAdStat2Mysql => hourAdStat2MysqlTimerTask
  | .dayAdStat2Mysql => dayAdStat2MysqlTimerTask
  | .rtIpUv2MainKey => rtIpUv2MainKeyTimerTask
  | .rtIpUv2HostMainKey => rtIpUv2HostMainKeyTimerTask
  | .pvCountCollection => pvCountCollectionTimerTask
  | .nht2NotNHT => nht2NotNHTTimerTask
  | .notNHT2NHT => notNHT2NHTTimerTask

/-- Programs one after the other; what one throws does not stop the next. -/
def sequence (programs : List Program) : Method :=
  .all (programs.map fun program => .tryCatch program.method .skip)

theorem Program.exacting (program : Program) : Exacting program.method :=
  match program with
  | .hset => hset_exacting
  | .sadd => sadd_exacting
  | .keys => keys_exacting
  | .hget => hget_exacting
  | .hsetOjbect => hsetOjbect_exacting
  | .hgetAll => hgetAll_exacting
  | .isExists => isExists_exacting
  | .del => del_exacting
  | .get => get_exacting
  | .set => set_exacting
  | .rtAdStat2Mysql => rtAdStat2MysqlTimerTask_exacting
  | .hourAdStat2Mysql => hourAdStat2MysqlTimerTask_exacting
  | .dayAdStat2Mysql => dayAdStat2MysqlTimerTask_exacting
  | .rtIpUv2MainKey => rtIpUv2MainKeyTimerTask_exacting
  | .rtIpUv2HostMainKey => rtIpUv2HostMainKeyTimerTask_exacting
  | .pvCountCollection => pvCountCollectionTimerTask_exacting
  | .nht2NotNHT => exacting_nhtTask 1
  | .notNHT2NHT => exacting_nhtTask 2

theorem sequence_exacting (programs : List Program) :
    Exacting (sequence programs) := by
  apply Triple.all
  intro method member
  obtain ⟨program, -, rfl⟩ := List.mem_map.mp member
  exact .tryCatch program.exacting .skip

theorem exact_initial : initial.Exact :=
  iff_of_true (List.forall_mem_nil _) (List.forall_mem_nil _)

/-- After any sequence of operations and tasks, every client is given back
exactly once, and the pool has each of its clients exactly once, if and only
if no call has failed in an operation or outside of the `try` blocks of a task
while a client was out. -/
theorem conserved_iff_harmless {programs : List Program} {last : State}
    {outcome : Outcome}
    (execution : Executes results (sequence programs) initial outcome last) :
    last.Balanced ∧ last.Whole ↔ last.Harmless := by
  have exact : last.Exact := by
    have ends := (sequence_exacting programs).ends exact_initial execution
    cases outcome <;> exact ends
  constructor
  · intro conserved
    exact exact.mp conserved.1
  · intro harmless
    have balanced := exact.mpr harmless
    exact ⟨balanced, whole_of_balanced execution balanced⟩

/-- A program that throws nothing to its caller, and those behind it. -/
theorem executes_cons {program : Program} {programs : List Program}
    {before middle last : State}
    (execution : Executes results program.method before .completed middle)
    (rest : Executes results (sequence programs) middle .completed last) :
    Executes results (sequence (program :: programs)) before .completed
      last :=
  .seq (.tryCompleted execution) rest

theorem executes_sequence {program : Program} {last : State}
    (execution : Executes results program.method initial .completed last) :
    Executes results (sequence [program]) initial .completed last :=
  executes_cons execution .skip

/-- An operation, one that gets no client, and a task with a command that
throws inside of its `try` block. -/
theorem conserved_harmlessFailures :
    ∃ last,
      Executes results (sequence [.hset, .get, .pvCountCollection]) initial
        .completed last ∧
      last.leases = [⟨0, [.good]⟩, ⟨0, [.good]⟩] ∧
      last.failures =
        [⟨.getResource, .inside, false⟩, ⟨.keys, .inside, true⟩] ∧
      last.Balanced ∧ last.Whole := by
  have stored : Executes results (Program.method .hset) initial .completed
      ⟨[0], [], 1, [], some ⟨0, [.good]⟩, []⟩ :=
    .seq (.atomic List.mem_cons_self)
      (.closed
        (.tryCompleted
          (.seq (.atomic List.mem_cons_self) (.atomic List.mem_cons_self)))
        (.atomic List.mem_cons_self))
  have refused : Executes results (Program.method .get)
      ⟨[0], [], 1, [], some ⟨0, [.good]⟩, []⟩ .completed
      ⟨[0], [], 1, [⟨0, [.good]⟩], none,
        [⟨.getResource, .inside, false⟩]⟩ :=
    .seq (.atomic List.mem_cons_self)
      (.closed
        (.caught
          (.seqThrew (.atomic (List.mem_cons_of_mem _ List.mem_cons_self)))
          (.atomic List.mem_cons_self))
        (.atomic List.mem_cons_self))
  have collected : Executes results (Program.method .pvCountCollection)
      ⟨[0], [], 1, [⟨0, [.good]⟩], none, [⟨.getResource, .inside, false⟩]⟩
      .completed
      ⟨[0], [], 1, [⟨0, [.good]⟩], some ⟨0, [.good]⟩,
        [⟨.getResource, .inside, false⟩, ⟨.keys, .inside, true⟩]⟩ :=
    .seq
      (.seq (.atomic List.mem_cons_self)
        (.tryCompleted (.atomic List.mem_cons_self)))
      (.seq (.atomic List.mem_cons_self)
        (.closed
          (.caught
            (.seqThrew (.atomic (List.mem_cons_of_mem _ List.mem_cons_self)))
            .skip)
          (.atomic List.mem_cons_self)))
  have execution := @executes_cons .hset _ _ _ _ stored
    (@executes_cons .get _ _ _ _ refused
      (@executes_cons .pvCountCollection [] _ _ _ collected .skip))
  exact ⟨_, execution, rfl, rfl,
    (conserved_iff_harmless execution).mpr
      (List.forall_mem_cons.mpr ⟨rfl, List.forall_mem_singleton.mpr rfl⟩)⟩

/-- An operation whose command throws gives its client back twice; a task
whose first command throws does not give it back. -/
theorem exists_not_conserved :
    (∃ last, Executes results (sequence [.hset]) initial .completed last ∧
      last.leases = [⟨0, [.broken, .good]⟩] ∧ ¬ last.Balanced) ∧
      ∃ last,
        Executes results (sequence [.rtAdStat2Mysql]) initial .completed
          last ∧
        last.leases = [⟨0, []⟩] ∧ ¬ last.Balanced ∧ ¬ last.Whole := by
  constructor
  · refine ⟨⟨[0], [0], 1, [], some ⟨0, [.broken, .good]⟩,
      [⟨.hset, .operation, true⟩]⟩, executes_sequence ?_, rfl, ?_⟩
    · exact .seq (.atomic List.mem_cons_self)
        (.closed
          (.caught
            (.seq (.atomic List.mem_cons_self)
              (.atomic (List.mem_cons_of_mem _ List.mem_cons_self)))
            (.atomic List.mem_cons_self))
          (.atomic List.mem_cons_self))
    · intro balanced
      cases balanced _ List.mem_cons_self
  · refine ⟨⟨[], [], 1, [], some ⟨0, []⟩, [⟨.keys, .outside, true⟩]⟩, ?_, rfl,
      ?_, ?_⟩
    · refine executes_sequence (.caught (.seqThrew (.seqThrew ?_)) .skip)
      exact .seq
        (.seq (.atomic List.mem_cons_self)
          (.tryCompleted (.atomic List.mem_cons_self)))
        (.seqThrew (.seqThrew
          (.atomic (List.mem_cons_of_mem _ List.mem_cons_self))))
    · intro balanced
      cases balanced _ List.mem_cons_self
    · intro whole
      cases whole.length_eq

end WindowSystem.Statistics.TimerTasks
