import WindowSystem.Library.SpacedGrants
import WindowSystem.RulePopLoops

/-!
# The simple caps

`pop_after_send_pop_message`, `specify_adua_send_pop_message` and
`rule_pop_nopass_send_mobile_message` keep the number of popups of a user and
the time of the last one.  The first two compare the number with the limit by
`>`, the third one by `>=`.  A user without a record gets a popup whatever the
limit is.
-/

namespace WindowSystem.SimpleCaps

open WindowSystem.CRuntime
open WindowSystem.DataPassBack (incrementInt)
open WindowSystem.DcGlobal
open WindowSystem.Library
open WindowSystem.Library.LabelledRun
open WindowSystem.Library.SpacedGrants
open WindowSystem.RulePopLoops
open WindowSystem.ToolHashMap

/-! ## The deciders -/

/-- What the three deciders have in common; `reached` is the test of the
number of popups. -/
def sendPopMessage (reached : Int → Bool) (delay : Int)
    (table : HashMap FilterUserInfo) (psMqHttpMes : MqHttpMessage)
    (sAd : Bytes) : Option (Bool × HashMap FilterUserInfo) :=
  (store 1024 (sAd ++ psMqHttpMes.pcUa)).bind fun szADUA =>
    (findObject table szADUA szADUA.length).bind fun
    | some pUserInfo =>
        if reached pUserInfo.iCount ||
            psMqHttpMes.lSec - pUserInfo.lTime < delay then
          some (false, table)
        else
          (incrementInt pUserInfo.iCount).map fun iCount =>
            (true,
              table.writeValue
                (fingerprint table.hashLen szADUA szADUA.length)
                fun pUserInfo =>
                  { pUserInfo with
                    iCount := iCount, lTime := psMqHttpMes.lSec })
    | none =>
        some (true,
          hashMapInsert table szADUA szADUA.length
            (some
              { iFactCount := 0, iFactTime := 0, iCount := 1,
                lTime := psMqHttpMes.lSec }))

/-- The limits: `g_conf_specify_ad_*`, `g_conf_pop_mobile_*`, and those of
`pop_after_send_pop_message` in `pop`. -/
structure SimpleConf where
  pop : PopConf
  specifyAdMaxNum : Int
  specifyAdDelay : Int
  popMobileMaxNum : Int
  popMobileDelay : Int

/-- The tables: `g_pSpecifyAdUa`, `g_pMobileHashMap`, and
`g_pAfterSearchHashMap` in `pop`. -/
structure SimpleState where
  pop : PopState
  specifyAdUa : HashMap FilterUserInfo
  mobile : ThreadId → HashMap FilterUserInfo

/-- The tables after their allocation. -/
def SimpleState.initial : SimpleState where
  pop := PopState.initial
  specifyAdUa := hashMapNew 1024
  mobile _ := hashMapNew 4000000

variable (conf : SimpleConf)

/-- `specify_adua_send_pop_message`. -/
def specifyAduaSendPopMessage :=
  sendPopMessage (fun iCount => conf.specifyAdMaxNum < iCount)
    conf.specifyAdDelay

/-- `rule_pop_nopass_send_mobile_message`. -/
def rulePopNopassSendMobileMessage :=
  sendPopMessage (fun iCount => conf.popMobileMaxNum ≤ iCount)
    conf.popMobileDelay

/-- `pop_after_send_pop_message` has the body of the others. -/
theorem popAfterSendPopMessage_eq (conf : PopConf) (state : PopState)
    (iTid : ThreadId) (psMqHttpMes : MqHttpMessage) (sAd : Bytes) :
    popAfterSendPopMessage conf state iTid psMqHttpMes sAd =
      (sendPopMessage (fun iCount => conf.afterMaxNum < iCount)
        conf.afterDelay (state.afterSearch iTid) psMqHttpMes sAd).map
          fun (answer, table) =>
            (answer,
              { state with
                afterSearch :=
                  Function.update state.afterSearch iTid table }) := by
  simp only [popAfterSendPopMessage, sendPopMessage, Option.map_bind]
  congr 1
  funext szADUA
  simp only [Function.comp_apply, Option.map_bind]
  congr 1
  funext found
  cases found with
  | none => rfl
  | some pUserInfo =>
      dsimp only
      split_ifs
      · rw [Option.map_some, Function.update_eq_self]
      · rw [Option.map_map]
        rfl

/-! ## Tables and requests -/

/-- A table of a decider; two of the deciders have one for every thread. -/
inductive CapTable where
  | afterSearch (iTid : ThreadId)
  | specifyAdUa
  | mobile (iTid : ThreadId)
deriving DecidableEq

namespace CapTable

/-- The number of buckets; for `mobile` it is `MOBILE_HOST_LEN`. -/
def length : CapTable → UInt32
  | afterSearch _ => 4096
  | specifyAdUa => 1024
  | mobile _ => 4000000

theorem length_searchable (table : CapTable) :
    0 < table.length ∧ table.length.toNat ≤ 2 ^ 31 := by
  cases table <;> decide +revert

theorem afterSearch_injective : Function.Injective afterSearch :=
  fun _ _ => afterSearch.inj

theorem mobile_injective : Function.Injective mobile :=
  fun _ _ => mobile.inj

end CapTable

/-- The tables of a state. -/
def SimpleState.table (state : SimpleState) : CapTable → HashMap FilterUserInfo
  | .afterSearch iTid => state.pop.afterSearch iTid
  | .specifyAdUa => state.specifyAdUa
  | .mobile iTid => state.mobile iTid

namespace SimpleConf

/-- The configured maximum of a decider. -/
def maxNum : CapTable → Int
  | .afterSearch _ => conf.pop.afterMaxNum
  | .specifyAdUa => conf.specifyAdMaxNum
  | .mobile _ => conf.popMobileMaxNum

/-- The configured delay of a decider. -/
def delay : CapTable → Int
  | .afterSearch _ => conf.pop.afterDelay
  | .specifyAdUa => conf.specifyAdDelay
  | .mobile _ => conf.popMobileDelay

/-- The number of popups at which a decider stops. -/
def bound (table : CapTable) : Int :=
  match table with
  | .mobile _ => conf.maxNum table
  | _ => conf.maxNum table + 1

/-- The test of the number of popups. -/
def reached (table : CapTable) (iCount : Int) : Bool :=
  match table with
  | .mobile _ => conf.maxNum table ≤ iCount
  | _ => conf.maxNum table < iCount

theorem reached_iff {table : CapTable} {iCount : Int} :
    conf.reached table iCount = true ↔ conf.bound table ≤ iCount := by
  cases table with
  | mobile iTid => exact decide_eq_true_iff
  | afterSearch iTid => exact decide_eq_true_iff.trans Int.lt_iff_add_one_le
  | specifyAdUa => exact decide_eq_true_iff.trans Int.lt_iff_add_one_le

end SimpleConf

/-- A call of one of the deciders. -/
structure Request where
  table : CapTable
  psMqHttpMes : MqHttpMessage
  sAd : Bytes
deriving DecidableEq

/-- A call, with its answer. -/
def capStep (state : SimpleState) (request : Request) :
    Option (Bool × SimpleState) :=
  match request.table with
  | .afterSearch iTid =>
      (popAfterSendPopMessage conf.pop state.pop iTid request.psMqHttpMes
        request.sAd).map fun (answer, pop) =>
          (answer, { state with pop := pop })
  | .specifyAdUa =>
      (specifyAduaSendPopMessage conf state.specifyAdUa request.psMqHttpMes
        request.sAd).map fun (answer, table) =>
          (answer, { state with specifyAdUa := table })
  | .mobile iTid =>
      (rulePopNopassSendMobileMessage conf (state.mobile iTid)
        request.psMqHttpMes request.sAd).map fun (answer, table) =>
          (answer,
            { state with mobile := Function.update state.mobile iTid table })

/-! ## One call -/

section Step

variable {conf : SimpleConf} {before after : SimpleState} {request : Request}
  {answer : Bool}

/-- A call decides in its table and leaves all others alone. -/
theorem capStep_cases
    (called : capStep conf before request = some (answer, after)) :
    ∃ table,
      sendPopMessage (conf.reached request.table) (conf.delay request.table)
          (before.table request.table) request.psMqHttpMes request.sAd =
        some (answer, table) ∧
      after.table = Function.update before.table request.table table := by
  obtain ⟨place, psMqHttpMes, sAd⟩ := request
  cases place with
  | afterSearch iTid =>
      simp only [capStep, popAfterSendPopMessage_eq, Option.map_map,
        Option.map_eq_some_iff, Function.comp_apply, Prod.mk.injEq] at called
      obtain ⟨⟨_, table⟩, decided, rfl, rfl⟩ := called
      refine ⟨table, decided, funext fun other => ?_⟩
      cases other with
      | afterSearch other =>
          exact (Function.update_apply_of_injective before.table
            CapTable.afterSearch_injective iTid table other).symm
      | specifyAdUa => rfl
      | mobile other => rfl
  | specifyAdUa =>
      simp only [capStep, Option.map_eq_some_iff, Prod.mk.injEq] at called
      obtain ⟨⟨_, table⟩, decided, rfl, rfl⟩ := called
      refine ⟨table, decided, funext fun other => ?_⟩
      cases other with
      | afterSearch other => rfl
      | specifyAdUa =>
          rw [Function.update_self]
          rfl
      | mobile other => rfl
  | mobile iTid =>
      simp only [capStep, Option.map_eq_some_iff, Prod.mk.injEq] at called
      obtain ⟨⟨_, table⟩, decided, rfl, rfl⟩ := called
      refine ⟨table, decided, funext fun other => ?_⟩
      cases other with
      | afterSearch other => rfl
      | specifyAdUa => rfl
      | mobile other =>
          exact (Function.update_apply_of_injective before.table
            CapTable.mobile_injective iTid table other).symm

end Step

/-! ## A record as a usage -/

section Decision

variable {reached : Int → Bool} {bound delay : Int}
  {before after : HashMap FilterUserInfo} {psMqHttpMes : MqHttpMessage}
  {sAd : Bytes} {answer : Bool}

/-- A user gets a popup again when the delay has passed. -/
def capRule (bound delay : Int) : Rule Int where
  bound := bound
  Waited first second := delay ≤ second - first

theorem eq_of_incrementInt {value next : Int}
    (incremented : incrementInt value = some next) : next = value + 1 := by
  rw [incrementInt] at incremented
  split_ifs at incremented
  exact (Option.some.inj incremented).symm

/-- What a record remembers. -/
def usage (pUserInfo : FilterUserInfo) : Int × Int :=
  (pUserInfo.iCount, pUserInfo.lTime)

/-- The usage under a fingerprint. -/
def usageIn (table : HashMap FilterUserInfo) (key : Fingerprint) :
    Option (Int × Int) :=
  (table.lookup key).join.map usage

/-- The fingerprint of a user. -/
def userKey (hashLen : UInt32) (sAd pcUa : Bytes) : Fingerprint :=
  fingerprint hashLen (sAd ++ pcUa) (sAd ++ pcUa).length

/-- A call makes a step of the usage of its user, and leaves those of all
others alone. -/
structure UsageStep (rule : Rule Int) (key : Fingerprint)
    (label : Int × Bool) (before after : HashMap FilterUserInfo) : Prop where
  step : Step rule (usageIn before key) label (usageIn after key)
  others : ∀ {other}, other ≠ key →
    after.lookup other = before.lookup other
  hashLen : after.hashLen = before.hashLen

theorem sendPopMessage_step (searchable : before.Searchable)
    (bounded : ∀ iCount, reached iCount = true ↔ bound ≤ iCount)
    (decided :
      sendPopMessage reached delay before psMqHttpMes sAd =
        some (answer, after)) :
    UsageStep (capRule bound delay)
      (userKey before.hashLen sAd psMqHttpMes.pcUa)
      (psMqHttpMes.lSec, answer) before after := by
  simp only [sendPopMessage, Option.bind_eq_some_iff, store_eq_some_iff]
    at decided
  obtain ⟨_, ⟨-, rfl⟩, _ | pUserInfo, found, decided⟩ := decided
  · cases decided
    have absent := (findObject_eq_missing_iff searchable).mp found
    constructor
    case step =>
      rw [usageIn, userKey, absent, usageIn, lookup_hashMapInsert_same]
      exact .opened _
    case others =>
      intro other different
      exact lookup_hashMapInsert_other _ _ _ _ different
    case hashLen => exact hashLen_hashMapInsert _ _ _ _
  · have present := (findObject_eq_found_iff searchable).mp found
    have usageBefore : usageIn before
        (userKey before.hashLen sAd psMqHttpMes.pcUa) =
          some (pUserInfo.iCount, pUserInfo.lTime) := by
      rw [usageIn, userKey, present]
      rfl
    dsimp only at decided
    split_ifs at decided with stopped
    · cases decided
      refine ⟨?_, fun _ => rfl, rfl⟩
      rw [usageBefore]
      apply Step.refused
      rintro ⟨room, waited⟩
      rw [Bool.or_eq_true, decide_eq_true_iff] at stopped
      rcases stopped with full | early
      · exact not_lt.mpr ((bounded _).mp full) room
      · exact not_lt.mpr waited early
    · simp only [Option.map_eq_some_iff, Prod.mk.injEq] at decided
      obtain ⟨iCount, counted, rfl, rfl⟩ := decided
      rw [Bool.or_eq_true, not_or, bounded, not_le, decide_eq_true_iff,
        not_lt] at stopped
      constructor
      case step =>
        have usageAfter : usageIn
            (before.writeValue (userKey before.hashLen sAd psMqHttpMes.pcUa)
              fun pUserInfo =>
                { pUserInfo with
                  iCount := iCount, lTime := psMqHttpMes.lSec })
            (userKey before.hashLen sAd psMqHttpMes.pcUa) =
              some (pUserInfo.iCount + 1, psMqHttpMes.lSec) := by
          rw [usageIn, lookup_writeValue_same, userKey, present,
            eq_of_incrementInt counted]
          rfl
        rw [usageBefore, ← userKey, usageAfter]
        exact .granted stopped.1 stopped.2
      case others =>
        intro other different
        exact lookup_writeValue_other _ different _
      case hashLen => rfl

end Decision

/-! ## Runs -/

/-- What distinguishes one record from another. -/
@[ext]
structure CapRecord where
  table : CapTable
  key : Fingerprint
deriving DecidableEq

/-- The record that a call is about. -/
def Request.record (request : Request) : CapRecord where
  table := request.table
  key := userKey request.table.length request.sAd request.psMqHttpMes.pcUa

/-- The usage of a record. -/
def SimpleState.usageOf (state : SimpleState) (id : CapRecord) :
    Option (Int × Int) :=
  usageIn (state.table id.table) id.key

/-- The time and the answer of a call that is about the record. -/
def observe (id : CapRecord) (label : Request × Bool) : List (Int × Bool) :=
  if label.1.record = id then [(label.1.psMqHttpMes.lSec, label.2)] else []

/-- Every table has the number of buckets that it was allocated with. -/
def SimpleState.Allocated (state : SimpleState) : Prop :=
  ∀ table, (state.table table).hashLen = table.length

theorem allocated_initial : SimpleState.initial.Allocated := by
  intro table
  cases table <;> rfl

section Run

variable {conf : SimpleConf} {before after : SimpleState}
  {label : Request × Bool} {labels : List (Request × Bool)} {id : CapRecord}

/-- A call is a step of the record it is about, and of no other one. -/
theorem capStep_observed (allocated : before.Allocated)
    (called : stepOf (capStep conf) before label after) :
    after.Allocated ∧
      LabelledRun.Run
        (Step (capRule (conf.bound id.table) (conf.delay id.table)))
        (before.usageOf id) (observe id label) (after.usageOf id) := by
  obtain ⟨request, answer⟩ := label
  obtain ⟨table, decided, updated⟩ := capStep_cases called
  have length := allocated request.table
  have searchable : (before.table request.table).Searchable := by
    rw [HashMap.Searchable, length]
    exact request.table.length_searchable
  have stepped := sendPopMessage_step searchable
    (fun _ => conf.reached_iff) decided
  constructor
  case left =>
    intro other
    rw [updated, hashLen_update stepped.hashLen]
    exact allocated other
  case right =>
    rw [length] at stepped
    dsimp only at stepped updated
    rw [observe]
    split_ifs with same
    · subst same
      apply LabelledRun.Run.single
      have placed : Function.update before.table request.table table
          request.record.table = table := Function.update_self _ _ _
      rw [SimpleState.usageOf, SimpleState.usageOf, updated, placed]
      exact stepped.step
    · have different :
          (id.table, id.key) ≠ (request.table, request.record.key) :=
        fun equal => same (CapRecord.ext (Prod.mk.inj equal).1.symm
          (Prod.mk.inj equal).2.symm)
      have kept : after.usageOf id = before.usageOf id := by
        rw [SimpleState.usageOf, updated, usageIn,
          lookup_update_other stepped.others different]
        rfl
      rw [kept]
      exact .nil _

/-- The calls about one record are a run of its usage. -/
theorem run_observed
    (run : LabelledRun.Run (stepOf (capStep conf)) .initial labels after) :
    LabelledRun.Run
      (Step (capRule (conf.bound id.table) (conf.delay id.table))) none
      (labels.flatMap (observe id)) (after.usageOf id) := by
  have observed := run.simulate (fun state => state.usageOf id) (observe id)
    SimpleState.Allocated capStep_observed allocated_initial
  have none : SimpleState.initial.usageOf id = none := by
    obtain ⟨table, key⟩ := id
    cases table <;> rfl
  rwa [none] at observed

/-- At most so many popups, and the delay between one and the next. -/
structure Capped (maxNum delay : Int) (trace : List (Int × Bool)) : Prop where
  limited : ((grants trace).length : Int) ≤ maxNum
  spaced : (grants trace).IsChain fun first second => delay ≤ second - first

/-- The requests for which a limit is kept.  With `>=` these are all if the
limit is positive.  With `>` no `maxNum + 1` requests may be far enough apart
from one another. -/
def Fits (table : CapTable) (maxNum delay : Int) (requests : List Int) : Prop :=
  match table with
  | .mobile _ => 0 < maxNum ∨ maxNum = 0 ∧ requests = []
  | _ =>
      ¬ ∃ chosen : List Int, chosen.Sublist requests ∧
        chosen.IsChain (fun first second => delay ≤ second - first) ∧
        chosen.length = (maxNum + 1).toNat

variable {trace : List (Int × Bool)} {final : Option (Int × Int)}
  {maxNum delay : Int}

theorem limited_iff_of_lt (ordered : (times trace).Pairwise (· ≤ ·))
    (run : LabelledRun.Run (Step (capRule (maxNum + 1) delay)) none trace
      final) :
    ((grants trace).length : Int) ≤ maxNum ↔
      ¬ ∃ chosen : List Int, chosen.Sublist (times trace) ∧
        chosen.IsChain (fun first second => delay ≤ second - first) ∧
        chosen.length = (maxNum + 1).toNat := by
  have early : ∀ {first second third : Int}, first ≤ second →
      (capRule (maxNum + 1) delay).Waited second third →
        (capRule (maxNum + 1) delay).Waited first third := by
    intro first second third earlier waited
    exact waited.trans (Int.sub_le_sub_left earlier third)
  have reached := @le_length_grants_iff _ _ _ _ _ early ordered run
    (maxNum + 1).toNat (by simp only [capRule]; omega)
  have choices : (∃ chosen, Choice (capRule (maxNum + 1) delay) trace chosen ∧
      chosen.length = (maxNum + 1).toNat) ↔
        ∃ chosen : List Int, chosen.Sublist (times trace) ∧
          chosen.IsChain (fun first second => delay ≤ second - first) ∧
          chosen.length = (maxNum + 1).toNat :=
    exists_congr fun chosen =>
      ⟨fun ⟨choice, long⟩ => ⟨choice.requested, choice.spaced, long⟩,
        fun ⟨requested, spaced, long⟩ => ⟨⟨requested, spaced⟩, long⟩⟩
  rw [← choices, ← reached]
  omega

theorem limited_iff_of_le
    (run : LabelledRun.Run (Step (capRule maxNum delay)) none trace final) :
    ((grants trace).length : Int) ≤ maxNum ↔
      0 < maxNum ∨ maxNum = 0 ∧ times trace = [] := by
  have reflects := reflects_of_run run
  have capped : ((grants trace).length : Int) ≤ max 1 maxNum :=
    reflects.capped
  rw [← reflects.grants_eq_nil_iff, ← List.length_eq_zero_iff]
  omega

/-- A limit is kept exactly for the requests that fit it; the delay always
is. -/
theorem capped_iff_fits (id : CapRecord)
    (ordered : (times (labels.flatMap (observe id))).Pairwise (· ≤ ·))
    (run : LabelledRun.Run (stepOf (capStep conf)) .initial labels after) :
    Capped (conf.maxNum id.table) (conf.delay id.table)
        (labels.flatMap (observe id)) ↔
      Fits id.table (conf.maxNum id.table) (conf.delay id.table)
        (times (labels.flatMap (observe id))) := by
  have observed := @run_observed _ _ _ id run
  have spaced := (reflects_of_run observed).spaced
  obtain ⟨table, key⟩ := id
  cases table with
  | mobile iTid =>
      exact (Iff.intro (·.limited) fun limited => ⟨limited, spaced⟩).trans
        (limited_iff_of_le observed)
  | specifyAdUa =>
      exact (Iff.intro (·.limited) fun limited => ⟨limited, spaced⟩).trans
        (limited_iff_of_lt ordered observed)
  | afterSearch iTid =>
      exact (Iff.intro (·.limited) fun limited => ⟨limited, spaced⟩).trans
        (limited_iff_of_lt ordered observed)

end Run

/-! ## A sample run -/

/-- Limits with a delay of ten seconds. -/
def sampleConf (maxNum : Int) : SimpleConf where
  pop :=
    { conf :=
        { limits := fun _ =>
            { maxNum := 3, factNum := 3, factdelay := 60, delay := 600 }
          adMaxNum := fun _ => 100 }
      illegalWords := []
      blackSite := hashMapNew 10000
      totalWhiteSite := hashMapNew 100000
      adWhite := hashMapNew 2097152
      blackIp := hashMapNew 1000000
      whiteIps := []
      targetedPop := hashMapNew 40960
      targetedPop1 := hashMapNew 40960
      surplusSite := hashMapNew 1000
      blackUri := hashMapNew 10000
      popWhiteHost := 0
      popWhiteHost1 := 0
      popIpSearch := 0
      popSurplus := 0
      popAfterSearch := 1
      adTotalCount := 1000
      afterMaxNum := maxNum
      afterDelay := 10
      checkContainKey := fun _ _ => some [] }
  specifyAdMaxNum := maxNum
  specifyAdDelay := 10
  popMobileMaxNum := maxNum
  popMobileDelay := 10

/-- A request of one user. -/
def sampleRequest (table : CapTable) (lSec : Int) : Request where
  table := table
  psMqHttpMes :=
    { pcCookie := ascii "NULL"
      pcSrcIP := ascii "10.0.0.1"
      pcUri := ascii "/"
      host := ascii "example.com"
      pcSec := []
      lSec := lSec
      pcUa := ascii "123"
      pcNoEncUa := ascii "agent" }
  sAd := ascii "user"

/-- Two requests, ten seconds apart, and one between them. -/
def sampleLabels (table : CapTable) : List (Request × Bool) :=
  [(sampleRequest table 1000, true), (sampleRequest table 1009, false),
    (sampleRequest table 1010, true)]

/-- The table of the sample user for searches. -/
def sampleAfterSearch : CapTable :=
  .afterSearch (userThread (ascii "user"))

/-- What the sample run shows of the sample user. -/
def sampleTrace (table : CapTable) : List (Int × Bool) :=
  (sampleLabels table).flatMap (observe (sampleRequest table 1000).record)

/-- With a limit of one, two deciders grant two popups. -/
theorem not_capped_sample :
    (∃ last,
      LabelledRun.Run (stepOf (capStep (sampleConf 1))) .initial
        (sampleLabels sampleAfterSearch) last ∧
      (times (sampleTrace sampleAfterSearch)).Pairwise (· ≤ ·) ∧
      ¬ Capped ((sampleConf 1).maxNum sampleAfterSearch)
        ((sampleConf 1).delay sampleAfterSearch)
        (sampleTrace sampleAfterSearch)) ∧
    ∃ last,
      LabelledRun.Run (stepOf (capStep (sampleConf 1))) .initial
        (sampleLabels .specifyAdUa) last ∧
      (times (sampleTrace .specifyAdUa)).Pairwise (· ≤ ·) ∧
      ¬ Capped ((sampleConf 1).maxNum .specifyAdUa)
        ((sampleConf 1).delay .specifyAdUa) (sampleTrace .specifyAdUa) := by
  constructor
  case left =>
    obtain ⟨last, run⟩ : ∃ last,
        LabelledRun.Run (stepOf (capStep (sampleConf 1))) .initial
          (sampleLabels sampleAfterSearch) last :=
      exists_run_of_execute (by decide +kernel)
    refine ⟨last, run, by decide +kernel, fun capped => ?_⟩
    have two : ¬ ((grants (sampleTrace sampleAfterSearch)).length : Int) ≤
        (sampleConf 1).maxNum sampleAfterSearch := by
      decide +kernel
    exact two capped.limited
  case right =>
    obtain ⟨last, run⟩ : ∃ last,
        LabelledRun.Run (stepOf (capStep (sampleConf 1))) .initial
          (sampleLabels .specifyAdUa) last :=
      exists_run_of_execute (by decide +kernel)
    refine ⟨last, run, by decide +kernel, fun capped => ?_⟩
    have two : ¬ ((grants (sampleTrace .specifyAdUa)).length : Int) ≤
        (sampleConf 1).maxNum .specifyAdUa := by
      decide +kernel
    exact two capped.limited

theorem capped_iff_fits_sample :
    ∃ last,
      LabelledRun.Run (stepOf (capStep (sampleConf 2))) .initial
        (sampleLabels sampleAfterSearch) last ∧
      (Capped ((sampleConf 2).maxNum sampleAfterSearch)
          ((sampleConf 2).delay sampleAfterSearch)
          (sampleTrace sampleAfterSearch) ↔
        Fits sampleAfterSearch ((sampleConf 2).maxNum sampleAfterSearch)
          ((sampleConf 2).delay sampleAfterSearch)
          (times (sampleTrace sampleAfterSearch))) := by
  obtain ⟨last, run⟩ : ∃ last,
      LabelledRun.Run (stepOf (capStep (sampleConf 2))) .initial
        (sampleLabels sampleAfterSearch) last :=
    exists_run_of_execute (by decide +kernel)
  exact ⟨last, run,
    capped_iff_fits (sampleRequest sampleAfterSearch 1000).record
      (by decide +kernel) run⟩

end WindowSystem.SimpleCaps
