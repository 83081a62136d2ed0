import WindowSystem.DataPassBack
import WindowSystem.Library.FrequencyCap

/-!
# The caps of the users

Every record of a user runs through the usage machine of
`Library.FrequencyCap`, whatever requests and pass-backs the server
interleaves.  The module proves what one event does to the records, derives
the simulation from it, and concludes that the answers for a user respect the
configured limits in every run.
-/

namespace WindowSystem.UserCaps

open WindowSystem.CRuntime
open WindowSystem.DataPassBack
open WindowSystem.DcGlobal
open WindowSystem.FilterRulePop
open WindowSystem.Library
open WindowSystem.Library.FrequencyCap
open WindowSystem.Library.LabelledRun
open WindowSystem.ToolHashMap

/-! ## A record as a usage -/

/-- The limits of a decider. -/
def usageLimits (limits : UserLimits) : Limits Int where
  maxGrants := limits.maxNum
  maxConfirmed := limits.factNum
  retryDelay := limits.factdelay
  repeatDelay := limits.delay

/-- The usage that a record stands for; a zero time is no confirmation. -/
def usage (pUserInfo : FilterUserInfo) : Usage Int where
  granted := pUserInfo.iCount
  confirmed := pUserInfo.iFactCount
  lastGrant := pUserInfo.lTime
  confirmedSince :=
    if pUserInfo.iFactTime = 0 then none else some pUserInfo.iFactTime

/-- The tests on an existing record make a step of the usage. -/
theorem decideKnown_step (limits : UserLimits) (pUserInfo : FilterUserInfo)
    (lSec : Int) :
    Step (usageLimits limits) (some (usage pUserInfo))
      (.answered lSec (decideKnown limits pUserInfo lSec).1)
      (some (usage (decideKnown limits pUserInfo lSec).2)) := by
  rw [decideKnown]
  split
  · exact .refused _ _
  rename_i room
  split
  · rename_i unfinished
    split
    · rename_i unconfirmed
      split
      · exact .refused _ _
      · rename_i waited
        have next :
            usage { pUserInfo with
                iCount := pUserInfo.iCount + 1, lTime := lSec } =
              ⟨(usage pUserInfo).granted + 1, (usage pUserInfo).confirmed,
                lSec, none⟩ := by
          simp [usage, unconfirmed]
        rw [next]
        exact .retried (not_le.mp room) unfinished
          (by simp [usage, unconfirmed]) (not_lt.mp waited)
    · rename_i confirmed
      split
      · split
        · exact .refused _ _
        · rename_i waited
          have last :
              (usage pUserInfo).confirmedSince =
                some pUserInfo.iFactTime := by
            simp [usage, confirmed]
          exact .repeated (not_le.mp room) unfinished last
            (not_lt.mp waited)
      · exact .refused _ _
  · exact .refused _ _

theorem firstUserInfo_step (limits : UserLimits) (lSec : Int) :
    Step (usageLimits limits) none (.answered lSec true)
      (some (usage (firstUserInfo lSec))) :=
  .opened lSec

theorem countedUserInfo_step (limits : UserLimits)
    (pUserInfo : FilterUserInfo) {currTime : Int} (positive : 0 < currTime) :
    Step (usageLimits limits) (some (usage pUserInfo))
      (.confirmed currTime)
      (some (usage (countedUserInfo pUserInfo (pUserInfo.iFactCount + 1)
        currTime))) := by
  have next :
      usage (countedUserInfo pUserInfo (pUserInfo.iFactCount + 1)
          currTime) =
        ⟨(usage pUserInfo).granted, (usage pUserInfo).confirmed + 1,
          (usage pUserInfo).lastGrant, some currTime⟩ := by
    simp [usage, countedUserInfo, positive.ne']
  rw [next]
  exact .confirmed _ _

/-! ## One event -/

/-- A transition of the records: one record makes a step of its usage, all
others stay. -/
structure RecordStep (conf : Conf) (id : RecordId)
    (observation : Observation Int) (before after : Server) : Prop where
  step :
    Step (usageLimits (conf.limits id.table))
      ((before.record id).map usage) observation
      ((after.record id).map usage)
  others : AgreeExcept id before after

variable {conf : Conf} {before after : Server}

theorem Decided.step {limits : UserLimits} {lSec : Int}
    {old new : Option FilterUserInfo} {answer : Bool}
    (decided : Decided limits lSec old answer new) :
    Step (usageLimits limits) (old.map usage) (.answered lSec answer)
      (new.map usage) := by
  cases decided with
  | refused => exact .refused _ _
  | first => exact firstUserInfo_step _ _
  | known pUserInfo => exact decideKnown_step _ _ _

/-- A decision is a step of the record of the user. -/
theorem Decision.recordStep {table : UserTable} {ad ua : Bytes}
    {lSec : Int} {answer : Bool} (allocated : before.Allocated)
    (decision :
      Decision conf table (userThread ad) (ad ++ ua) lSec answer before
        after) :
    RecordStep conf (recordId table ad ua) (.answered lSec answer) before
      after where
  step := Decided.step (decision.decided allocated).2
  others := (decision.decided allocated).1

/-- A pass-back is a step of the record it counts in. -/
theorem CountedOnce.recordStep (conf : Conf) {id : RecordId}
    {currTime : Int} (positive : 0 < currTime)
    (countedOnce : CountedOnce before after id currTime) :
    RecordStep conf id (.confirmed currTime) before after where
  step := by
    obtain ⟨pUserInfo, old, _, new⟩ := countedOnce.record
    rw [old, new]
    exact countedUserInfo_step _ _ positive
  others := countedOnce.others

/-! ## Whole runs -/

/-- What an event and its reply show of one record. -/
def observe (id : RecordId) : Event × Reply → List (Observation Int)
  | (.request table psMqHttpMes sAd, .answered answer) =>
      if recordId table sAd.text psMqHttpMes.pcUa = id then
        [.answered psMqHttpMes.lSec answer]
      else []
  | (.passBack _ currTime, .passedBack passBack) =>
      if passBack.counted = some id then [.confirmed currTime] else []
  | _ => []

/-- Pass-backs are received at positive times. -/
def PositiveTime : Event → Prop
  | .request _ _ _ => True
  | .passBack _ currTime => 0 < currTime

instance : DecidablePred PositiveTime
  | .request _ _ _ => isTrue trivial
  | .passBack _ currTime => inferInstanceAs (Decidable (0 < currTime))

theorem RecordStep.observed {id changed : RecordId}
    {observation : Observation Int}
    (taken : RecordStep conf changed observation before after) :
    Run (Step (usageLimits (conf.limits id.table)))
      ((before.record id).map usage)
      (if changed = id then [observation] else [])
      ((after.record id).map usage) := by
  split
  · rename_i same
    subst same
    exact .single taken.step
  · rename_i different
    rw [taken.others id (Ne.symm different)]
    exact .nil _

/-- One event is matched by the usage of every record. -/
theorem serverStep_observed (conf : Conf) {label : Event × Reply}
    (id : RecordId) (allocated : before.Allocated)
    (positive : PositiveTime label.1)
    (taken : stepOf (serverStep conf) before label after) :
    Run (Step (usageLimits (conf.limits id.table)))
      ((before.record id).map usage) (observe id label)
      ((after.record id).map usage) := by
  cases serverStep_cases taken with
  | request decision =>
      exact (Decision.recordStep allocated decision).observed
  | @passBack message currTime passBack effect =>
      have effect := effect.record allocated
      rw [observe]
      cases counted : passBack.counted with
      | none =>
          rw [counted, RecordEffect] at effect
          rw [effect id]
          exact .nil _
      | some changed =>
          rw [counted, RecordEffect] at effect
          simpa using
            (CountedOnce.recordStep conf positive effect).observed

/-- The user records of a run are runs of the usage machine. -/
theorem serverRun_observed {labels : List (Event × Reply)}
    (id : RecordId) (allocated : before.Allocated)
    (times : ∀ label ∈ labels, PositiveTime label.1)
    (run : ServerRun conf before labels after) :
    Run (Step (usageLimits (conf.limits id.table)))
      ((before.record id).map usage) (labels.flatMap (observe id))
      ((after.record id).map usage) :=
  (run.restrict times).simulate
    (fun server => (server.record id).map usage) (observe id)
    Server.Allocated
    (fun still taken =>
      ⟨serverStep_allocated still taken.2,
        serverStep_observed conf id still taken.1 taken.2⟩)
    allocated

/--
The answers for one user in any run from the empty tables.

The trace of the user consists of the answers that the decider of `table`
gives to requests reaching the user's record, and of the pass-backs counted in
it.  It respects the configured limits: the number of positive answers, none
of them after the configured number of pass-backs, and the delays between
them.
-/
theorem userCaps_respected (conf : Conf) (table : UserTable)
    (ad ua : Bytes) {labels : List (Event × Reply)} {server : Server}
    (positive : 1 ≤ (conf.limits table).maxNum)
    (times : ∀ label ∈ labels, PositiveTime label.1)
    (run : ServerRun conf .initial labels server) :
    Respects (usageLimits (conf.limits table))
      (labels.flatMap (observe (recordId table ad ua))) :=
  respects_of_run positive
    (serverRun_observed (recordId table ad ua) Server.allocated_initial
      times run)

/-! ## A sample run -/

/-- Two popups per user, ten minutes apart, until one is passed back. -/
def sampleConf : Conf where
  limits _ := { maxNum := 2, factNum := 1, factdelay := 600, delay := 3600 }
  adMaxNum _ := 3

/-- A decoded request of one user. -/
def sampleMessage (lSec : Int) : MqHttpMessage where
  pcCookie := ascii "NULL"
  pcSrcIP := ascii "10.0.0.1"
  pcUri := ascii "/"
  host := ascii "example.com"
  pcSec := []
  lSec := lSec
  pcUa := ascii "123"
  pcNoEncUa := ascii "agent"

/-- The request reaches a decider for the subscriber `user`. -/
def sampleRequest (table : UserTable) (lSec : Int) : Event :=
  .request table (sampleMessage lSec)
    { address := 4096, text := ascii "user" }

/-- The user gets two popups and passes the second one back. -/
def sampleLabels : List (Event × Reply) :=
  [ (sampleRequest .surplusIP 1000, .answered true),
    (sampleRequest .surplusIP 1599, .answered false),
    (sampleRequest .surplusIP 1600, .answered true),
    (.passBack (ascii "10.0.0.1::user::123::0") 1700,
      .passedBack
        { counted := some (recordId .surplusIP (ascii "user") (ascii "123"))
          countedAd := some (counterId .surplusAD (ascii "user"))
          szMsg :=
            some
              { name := ascii "surplus"
                field := ascii "user123"
                value := ascii "1::1700::user::1" } }),
    (sampleRequest .surplusIP 9000, .answered false) ]

theorem userCaps_respected_sample :
    ∃ server,
      ServerRun sampleConf .initial sampleLabels server ∧
      1 ≤ (sampleConf.limits .surplusIP).maxNum ∧
      (∀ label ∈ sampleLabels, PositiveTime label.1) ∧
      Respects (usageLimits (sampleConf.limits .surplusIP))
        (sampleLabels.flatMap
          (observe (recordId .surplusIP (ascii "user") (ascii "123")))) := by
  obtain ⟨server, run⟩ :
      ∃ server, ServerRun sampleConf .initial sampleLabels server :=
    exists_run_of_execute (by decide +kernel)
  have positive : 1 ≤ (sampleConf.limits .surplusIP).maxNum := by decide
  have times : ∀ label ∈ sampleLabels, PositiveTime label.1 := by
    decide +kernel
  exact ⟨server, run, positive, times,
    userCaps_respected sampleConf .surplusIP (ascii "user") (ascii "123")
      positive times run⟩

end WindowSystem.UserCaps
