import Mathlib.Data.List.Chain
import WindowSystem.DcGlobal
import WindowSystem.Library.LabelledRun

/-!
# The limits of the jc strategies

`filter_rule_jc.c` remembers for every user which strategies were used on it,
how often and when.  One record of a user holds three parallel arrays of 64
entries.  The first half of the module is the decision of
`rule_js_is_in_map`; the second half relates a record to the calls that were
accepted for its user, and concludes which runs respect the limits.
-/

namespace WindowSystem.FilterRuleJc

open WindowSystem.CRuntime
open WindowSystem.DcGlobal
open WindowSystem.Library.LabelledRun
open WindowSystem.ToolHashMap

/-! ## The decision -/

/-- `SJCUSer`. -/
structure JCUser where
  totalNum : Int
  iStrategyNum : Nat
  pcStrategys : Fin 64 → Bytes
  lTimes : Fin 64 → Int
  iCounts : Fin 64 → Int

/-- `g_conf_jc_total_limit` and `g_conf_jc_limit`. -/
structure JcConf where
  jcTotalLimit : Int
  jcLimit : Int

/-- The arguments of a call on the table of one thread. -/
structure JcCall where
  psMqHttpMes : MqHttpMessage
  name : Bytes
  delay : Int
deriving DecidableEq

/-- `szADUA`. -/
def JcCall.szADUA (call : JcCall) : Bytes :=
  call.psMqHttpMes.pcSrcIP ++ call.psMqHttpMes.pcUa

/-- The loop over the strategies of a record: the index at which it stops,
`none` when it leaves the array. -/
def strategyLoop (psJCUser : JCUser) (name : Bytes) : Nat → Nat → Option Nat
  | i, 0 => some i
  | i, rest + 1 =>
      if inside : i < 64 then
        if psJCUser.pcStrategys ⟨i, inside⟩ = name then some i
        else strategyLoop psJCUser name (i + 1) rest
      else none

/-- A record after a strategy was used for the first time; `none` when the
arrays are full, and C would write behind them. -/
def addStrategy (psJCUser : JCUser) (name : Bytes) (lSec : Int) :
    Option JCUser :=
  if inside : psJCUser.iStrategyNum < 64 then
    let slot : Fin 64 := ⟨psJCUser.iStrategyNum, inside⟩
    some
      { totalNum := psJCUser.totalNum + 1
        iStrategyNum := psJCUser.iStrategyNum + 1
        pcStrategys := Function.update psJCUser.pcStrategys slot name
        lTimes := Function.update psJCUser.lTimes slot lSec
        iCounts :=
          Function.update psJCUser.iCounts slot
            (psJCUser.iCounts slot + 1) }
  else none

/-- The test of a known strategy and the record after it. -/
def repeatStrategy (conf : JcConf) (psJCUser : JCUser) (i : Fin 64)
    (lSec delay : Int) : Bool × JCUser :=
  if psJCUser.totalNum ≥ conf.jcTotalLimit ∨
      psJCUser.iCounts i ≥ conf.jcLimit ∨
      lSec - psJCUser.lTimes i < delay then
    (false, psJCUser)
  else
    (true,
      { psJCUser with
        totalNum := psJCUser.totalNum + 1
        iCounts := Function.update psJCUser.iCounts i
          (psJCUser.iCounts i + 1)
        lTimes := Function.update psJCUser.lTimes i lSec })

/-- What `rule_js_is_in_map` does with an existing record. -/
def decideKnown (conf : JcConf) (psJCUser : JCUser) (call : JcCall) :
    Option (Bool × JCUser) :=
  (strategyLoop psJCUser call.name 0 psJCUser.iStrategyNum).bind fun i =>
    if i = psJCUser.iStrategyNum then
      (addStrategy psJCUser call.name call.psMqHttpMes.lSec).map fun next =>
        (true, next)
    else if inside : i < 64 then
      some
        (repeatStrategy conf psJCUser ⟨i, inside⟩ call.psMqHttpMes.lSec
          call.delay)
    else none

/-- The record after `memset`. -/
def clearedUser : JCUser where
  totalNum := 0
  iStrategyNum := 0
  pcStrategys _ := []
  lTimes _ := 0
  iCounts _ := 0

/-- `rule_js_is_in_map` on the table of a thread; `none` stands for behaviour
that C leaves undefined. -/
def ruleJsIsInMap (conf : JcConf) (users : HashMap JCUser) (call : JcCall) :
    Option (Bool × HashMap JCUser) :=
  (store 1024 call.szADUA).bind fun szADUA =>
    (findObject users szADUA szADUA.length).bind fun
      | some psJCUser =>
          (decideKnown conf psJCUser call).map fun (answer, next) =>
            (answer,
              users.writeValue
                (fingerprint users.hashLen szADUA szADUA.length)
                fun _ => next)
      | none =>
          (addStrategy clearedUser call.name call.psMqHttpMes.lSec).map
            fun psJCUser =>
              (true,
                hashMapInsert users szADUA szADUA.length (some psJCUser))

/-! ## What the loop finds -/

theorem strategyLoop_eq_some {psJCUser : JCUser} {name : Bytes}
    {i rest found : Nat} (enough : i + rest ≤ 64)
    (stopped : strategyLoop psJCUser name i rest = some found) :
    (found = i + rest ∧
      ∀ slot : Fin 64, i ≤ slot → (slot : Nat) < i + rest →
        psJCUser.pcStrategys slot ≠ name) ∨
    ∃ inside : found < 64, i ≤ found ∧ found < i + rest ∧
      psJCUser.pcStrategys ⟨found, inside⟩ = name := by
  induction rest generalizing i with
  | zero =>
      cases stopped
      exact .inl ⟨rfl, fun slot low high => absurd high (by omega)⟩
  | succ rest induction =>
      rw [strategyLoop] at stopped
      split_ifs at stopped with inside equal
      · cases stopped
        exact .inr ⟨inside, Nat.le_refl _, by omega, equal⟩
      · rcases induction (by omega) stopped with
          ⟨rfl, absent⟩ | ⟨below, low, high, equal⟩
        · refine .inl ⟨by omega, fun slot low high => ?_⟩
          by_cases first : (slot : Nat) = i
          · have same : slot = ⟨i, inside⟩ := Fin.ext first
            rwa [same]
          · exact absent slot (by omega) (by omega)
        · exact .inr ⟨below, by omega, by omega, equal⟩

theorem strategyLoop_isSome (psJCUser : JCUser) (name : Bytes)
    {i rest : Nat} (enough : i + rest ≤ 64) :
    (strategyLoop psJCUser name i rest).isSome := by
  induction rest generalizing i with
  | zero => rfl
  | succ rest induction =>
      rw [strategyLoop, dif_pos (by omega)]
      split_ifs
      · rfl
      · exact induction (by omega)

/-- Everything that the decision on an existing record can do. -/
theorem decideKnown_cases {conf : JcConf} {psJCUser next : JCUser}
    {call : JcCall} {answer : Bool} (bounded : psJCUser.iStrategyNum ≤ 64)
    (decided : decideKnown conf psJCUser call = some (answer, next)) :
    (∃ i : Fin 64, (i : Nat) < psJCUser.iStrategyNum ∧
      psJCUser.pcStrategys i = call.name ∧
      (answer, next) =
        repeatStrategy conf psJCUser i call.psMqHttpMes.lSec call.delay) ∨
    ((∀ i : Fin 64, (i : Nat) < psJCUser.iStrategyNum →
        psJCUser.pcStrategys i ≠ call.name) ∧
      answer = true ∧
      addStrategy psJCUser call.name call.psMqHttpMes.lSec = some next) := by
  obtain ⟨found, stopped, decided⟩ := Option.bind_eq_some_iff.mp decided
  rcases strategyLoop_eq_some (by omega) stopped with
    ⟨rfl, absent⟩ | ⟨inside, _, used, equal⟩
  · rw [Nat.zero_add, if_pos rfl] at decided
    obtain ⟨_, added, same⟩ := Option.map_eq_some_iff.mp decided
    cases same
    exact .inr ⟨fun i used => absent i (Nat.zero_le _) (by omega), rfl,
      added⟩
  · rw [if_neg (by omega), dif_pos inside] at decided
    exact .inl ⟨⟨found, inside⟩, by simpa using used, equal,
      (Option.some_inj.mp decided).symm⟩

/-! ## The accepted calls of a user -/

/-- The calls for one strategy. -/
def usedFor (name : Bytes) (history : List JcCall) : List JcCall :=
  history.filter fun call => call.name = name

/-- Each call comes its delay after the one before it. -/
def Spaced (history : List JcCall) : Prop :=
  history.IsChain fun earlier later =>
    later.delay ≤ later.psMqHttpMes.lSec - earlier.psMqHttpMes.lSec

/-- The accepted calls of a user respect the limits. -/
structure Within (conf : JcConf) (history : List JcCall) : Prop where
  total : (history.length : Int) ≤ conf.jcTotalLimit
  each (name : Bytes) :
    ((usedFor name history).length : Int) ≤ conf.jcLimit
  spaced (name : Bytes) : Spaced (usedFor name history)

/-- The record of a user keeps the books of its accepted calls. -/
structure Books (psJCUser : JCUser) (history : List JcCall) : Prop where
  bounded : psJCUser.iStrategyNum ≤ 64
  total : psJCUser.totalNum = history.length
  count {i : Fin 64} : (i : Nat) < psJCUser.iStrategyNum →
    psJCUser.iCounts i =
      (usedFor (psJCUser.pcStrategys i) history).length
  last {i : Fin 64} : (i : Nat) < psJCUser.iStrategyNum →
    (usedFor (psJCUser.pcStrategys i) history).getLast?.map
      (fun call => call.psMqHttpMes.lSec) = some (psJCUser.lTimes i)
  distinct {i j : Fin 64} : (i : Nat) < psJCUser.iStrategyNum →
    (j : Nat) < psJCUser.iStrategyNum →
    psJCUser.pcStrategys i = psJCUser.pcStrategys j → i = j
  known {call : JcCall} : call ∈ history →
    ∃ i : Fin 64, (i : Nat) < psJCUser.iStrategyNum ∧
      psJCUser.pcStrategys i = call.name
  fresh (i : Fin 64) : psJCUser.iStrategyNum ≤ (i : Nat) →
    psJCUser.iCounts i = 0

@[simp]
theorem usedFor_append_same (history : List JcCall) (call : JcCall) :
    usedFor call.name (history ++ [call]) =
      usedFor call.name history ++ [call] := by
  simp [usedFor]

theorem usedFor_append_other {name : Bytes} (history : List JcCall)
    {call : JcCall} (different : name ≠ call.name) :
    usedFor name (history ++ [call]) = usedFor name history := by
  simp [usedFor, Ne.symm different]

theorem Spaced.append {history : List JcCall} {call : JcCall}
    (spaced : Spaced history)
    (waited : ∀ earlier ∈ history.getLast?,
      call.delay ≤ call.psMqHttpMes.lSec - earlier.psMqHttpMes.lSec) :
    Spaced (history ++ [call]) := by
  rw [Spaced, List.isChain_append]
  refine ⟨spaced, List.isChain_singleton _, ?_⟩
  intro earlier member later first
  cases first
  exact waited earlier member

theorem within_nil {conf : JcConf} (positive : 1 ≤ conf.jcTotalLimit)
    (eachPositive : 1 ≤ conf.jcLimit) : Within conf [] where
  total := by simp; omega
  each _ := by simp [usedFor]; omega
  spaced _ := List.isChain_nil

theorem books_nil : Books clearedUser [] where
  bounded := Nat.zero_le _
  total := rfl
  count used := absurd used (Nat.not_lt_zero _)
  last used := absurd used (Nat.not_lt_zero _)
  distinct used := absurd used (Nat.not_lt_zero _)
  known member := absurd member List.not_mem_nil
  fresh _ _ := rfl

/-- One more accepted call keeps the limits if there is room for it and its
delay has passed. -/
theorem Within.append {conf : JcConf} {history : List JcCall}
    {call : JcCall} (within : Within conf history)
    (room : (history.length : Int) < conf.jcTotalLimit)
    (eachRoom :
      ((usedFor call.name history).length : Int) < conf.jcLimit)
    (waited : ∀ earlier ∈ (usedFor call.name history).getLast?,
      call.delay ≤ call.psMqHttpMes.lSec - earlier.psMqHttpMes.lSec) :
    Within conf (history ++ [call]) where
  total := by
    rw [List.length_append, List.length_singleton]
    push_cast
    omega
  each name := by
    by_cases same : name = call.name
    · subst same
      rw [usedFor_append_same, List.length_append, List.length_singleton]
      push_cast
      omega
    · rw [usedFor_append_other _ same]
      exact within.each name
  spaced name := by
    by_cases same : name = call.name
    · subst same
      rw [usedFor_append_same]
      exact (within.spaced _).append waited
    · rw [usedFor_append_other _ same]
      exact within.spaced name

/-- The books after an accepted call for a known strategy. -/
theorem Books.repeat {conf : JcConf} {psJCUser next : JCUser}
    {history : List JcCall} {call : JcCall} {i : Fin 64}
    (books : Books psJCUser history) (within : Within conf history)
    (used : (i : Nat) < psJCUser.iStrategyNum)
    (named : psJCUser.pcStrategys i = call.name)
    (accepted : (true, next) =
      repeatStrategy conf psJCUser i call.psMqHttpMes.lSec call.delay) :
    Books next (history ++ [call]) ∧ Within conf (history ++ [call]) := by
  have count := books.count used
  have last := books.last used
  rw [named] at count last
  rw [repeatStrategy] at accepted
  split_ifs at accepted with refused
  · simp at accepted
  rw [not_or, not_or, not_le, not_le, not_lt] at refused
  obtain ⟨room, eachRoom, waited⟩ := refused
  cases accepted
  constructor
  · constructor
    case bounded => exact books.bounded
    case total =>
      rw [List.length_append, books.total]
      simp
    case count =>
      intro j usedJ
      dsimp only at usedJ ⊢
      by_cases same : j = i
      · subst same
        rw [Function.update_self, named, usedFor_append_same, count]
        simp
      · rw [Function.update_of_ne same]
        have different : psJCUser.pcStrategys j ≠ call.name := fun equal =>
          same (books.distinct usedJ used (equal.trans named.symm))
        rw [usedFor_append_other _ different]
        exact books.count usedJ
    case last =>
      intro j usedJ
      dsimp only at usedJ ⊢
      by_cases same : j = i
      · subst same
        rw [Function.update_self, named, usedFor_append_same]
        simp
      · rw [Function.update_of_ne same]
        have different : psJCUser.pcStrategys j ≠ call.name := fun equal =>
          same (books.distinct usedJ used (equal.trans named.symm))
        rw [usedFor_append_other _ different]
        exact books.last usedJ
    case distinct => exact books.distinct
    case known =>
      intro other member
      rcases List.mem_append.mp member with earlier | new
      · exact books.known earlier
      · rw [List.mem_singleton.mp new]
        exact ⟨i, used, named⟩
    case fresh =>
      intro j free
      dsimp only at free ⊢
      have apart : j ≠ i := by
        rintro rfl
        exact absurd used (Nat.not_lt.mpr free)
      rw [Function.update_of_ne apart]
      exact books.fresh j free
  · refine within.append ?_ ?_ ?_
    · rwa [← books.total]
    · rwa [← count]
    · intro earlier member
      rw [Option.mem_def.mp member, Option.map_some, Option.some_inj] at last
      rwa [last]

/-- A strategy that is not in the record was not used. -/
theorem Books.unused {psJCUser : JCUser} {history : List JcCall}
    (books : Books psJCUser history) {name : Bytes}
    (absent : ∀ i : Fin 64, (i : Nat) < psJCUser.iStrategyNum →
      psJCUser.pcStrategys i ≠ name) : usedFor name history = [] := by
  rw [usedFor, List.filter_eq_nil_iff]
  intro earlier member
  obtain ⟨i, used, named⟩ := books.known member
  simpa [← named] using absent i used

/-- The books after the first call for a strategy. -/
theorem Books.addStrategy {psJCUser next : JCUser} {history : List JcCall}
    {call : JcCall} (books : Books psJCUser history)
    (absent : ∀ i : Fin 64, (i : Nat) < psJCUser.iStrategyNum →
      psJCUser.pcStrategys i ≠ call.name)
    (added : FilterRuleJc.addStrategy psJCUser call.name
      call.psMqHttpMes.lSec = some next) :
    Books next (history ++ [call]) := by
  rw [FilterRuleJc.addStrategy] at added
  split_ifs at added with inside
  cases added
  have unused := books.unused absent
  have apart : ∀ {i : Fin 64}, (i : Nat) < psJCUser.iStrategyNum →
      i ≠ ⟨psJCUser.iStrategyNum, inside⟩ := by
    rintro i used rfl
    exact absurd used (Nat.lt_irrefl _)
  have older : ∀ {i : Fin 64}, (i : Nat) < psJCUser.iStrategyNum + 1 →
      i ≠ ⟨psJCUser.iStrategyNum, inside⟩ →
      (i : Nat) < psJCUser.iStrategyNum := by
    intro i used different
    have notLast : (i : Nat) ≠ psJCUser.iStrategyNum :=
      fun equal => different (Fin.ext equal)
    omega
  constructor
  case bounded => exact inside
  case total =>
    rw [List.length_append, books.total]
    simp
  case count =>
    intro i used
    dsimp only at used ⊢
    by_cases newest : i = ⟨psJCUser.iStrategyNum, inside⟩
    · subst newest
      rw [Function.update_self, Function.update_self,
        books.fresh _ (Nat.le_refl _), usedFor_append_same, unused]
      rfl
    · have before := older used newest
      rw [Function.update_of_ne newest, Function.update_of_ne newest,
        usedFor_append_other _ (absent i before)]
      exact books.count before
  case last =>
    intro i used
    dsimp only at used ⊢
    by_cases newest : i = ⟨psJCUser.iStrategyNum, inside⟩
    · subst newest
      rw [Function.update_self, Function.update_self,
        usedFor_append_same, unused]
      rfl
    · have before := older used newest
      rw [Function.update_of_ne newest, Function.update_of_ne newest,
        usedFor_append_other _ (absent i before)]
      exact books.last before
  case distinct =>
    intro i j usedI usedJ equal
    dsimp only at usedI usedJ equal
    by_cases newestI : i = ⟨psJCUser.iStrategyNum, inside⟩
    · by_cases newestJ : j = ⟨psJCUser.iStrategyNum, inside⟩
      · rw [newestI, newestJ]
      · rw [newestI, Function.update_self,
          Function.update_of_ne newestJ] at equal
        exact absurd equal.symm (absent j (older usedJ newestJ))
    · by_cases newestJ : j = ⟨psJCUser.iStrategyNum, inside⟩
      · rw [newestJ, Function.update_self,
          Function.update_of_ne newestI] at equal
        exact absurd equal (absent i (older usedI newestI))
      · rw [Function.update_of_ne newestI,
          Function.update_of_ne newestJ] at equal
        exact books.distinct (older usedI newestI) (older usedJ newestJ)
          equal
  case known =>
    intro other member
    rcases List.mem_append.mp member with earlier | new
    · obtain ⟨i, used, named⟩ := books.known earlier
      refine ⟨i, Nat.lt_succ_of_lt used, ?_⟩
      dsimp only
      rw [Function.update_of_ne (apart used), named]
    · rw [List.mem_singleton.mp new]
      exact ⟨⟨_, inside⟩, Nat.lt_succ_self _, Function.update_self ..⟩
  case fresh =>
    intro i free
    dsimp only at free ⊢
    have newer : i ≠ ⟨psJCUser.iStrategyNum, inside⟩ := by
      rintro rfl
      exact absurd free (Nat.not_succ_le_self _)
    rw [Function.update_of_ne newer]
    exact books.fresh i (Nat.le_of_succ_le free)

/-- The books and the limits after the first call for a strategy. -/
theorem Books.add {conf : JcConf} {psJCUser next : JCUser}
    {history : List JcCall} {call : JcCall}
    (books : Books psJCUser history) (within : Within conf history)
    (eachPositive : 1 ≤ conf.jcLimit)
    (room : psJCUser.totalNum < conf.jcTotalLimit)
    (absent : ∀ i : Fin 64, (i : Nat) < psJCUser.iStrategyNum →
      psJCUser.pcStrategys i ≠ call.name)
    (added : FilterRuleJc.addStrategy psJCUser call.name
      call.psMqHttpMes.lSec = some next) :
    Books next (history ++ [call]) ∧ Within conf (history ++ [call]) := by
  have unused := books.unused absent
  refine ⟨books.addStrategy absent added, within.append ?_ ?_ ?_⟩
  · rwa [← books.total]
  · rw [unused]
    exact eachPositive
  · simp [unused]

/-! ## Runs on the table of a thread -/

/-- `g_pJcTotalUser` of a thread after the initialisation. -/
def jcTotalUser : HashMap JCUser :=
  hashMapNew 400000

/-- What the table knows of the user of a call. -/
def JcCall.userKey (call : JcCall) : Fingerprint :=
  fingerprint 400000 call.szADUA call.szADUA.length

/-- The accepted calls for a user, among calls with their answers; the table
knows a user by its fingerprint. -/
def acceptedFor (user : Fingerprint) (labels : List (JcCall × Bool)) :
    List JcCall :=
  (labels.filter fun label => label.2 ∧ label.1.userKey = user).map Prod.fst

/-- The user and the User-Agent fit into the fields of the message. -/
def FitsFields (call : JcCall) : Prop :=
  call.psMqHttpMes.pcSrcIP.length < 16 ∧ call.psMqHttpMes.pcUa.length < 512

/-- A strategy that has not been used for the user is asked for only while
the total limit is not reached and an entry of the arrays is free. -/
def Admitted (conf : JcConf) (users : HashMap JCUser) (call : JcCall) :
    Prop :=
  ∀ psJCUser, users.lookup call.userKey = some (some psJCUser) →
    (∀ i : Fin 64, (i : Nat) < psJCUser.iStrategyNum →
      psJCUser.pcStrategys i ≠ call.name) →
    psJCUser.totalNum < conf.jcTotalLimit ∧ psJCUser.iStrategyNum < 64

/-- A call that returns. -/
def JcStep (conf : JcConf) : HashMap JCUser → JcCall × Bool →
    HashMap JCUser → Prop :=
  stepOf (ruleJsIsInMap conf)

/-- A call that meets the condition and returns. -/
def AdmittedStep (conf : JcConf) (before : HashMap JCUser)
    (label : JcCall × Bool) (after : HashMap JCUser) : Prop :=
  Admitted conf before label.1 ∧ JcStep conf before label after

/-- The records of the table keep the books of the accepted calls. -/
structure Ledger (conf : JcConf) (labels : List (JcCall × Bool))
    (users : HashMap JCUser) : Prop where
  length : users.hashLen = 400000
  unknown {user : Fingerprint} : users.lookup user = none →
    acceptedFor user labels = []
  allocated (user : Fingerprint) : users.lookup user ≠ some none
  books {user : Fingerprint} {psJCUser : JCUser} :
    users.lookup user = some (some psJCUser) →
    Books psJCUser (acceptedFor user labels)
  within (user : Fingerprint) : Within conf (acceptedFor user labels)

section Runs

variable {conf : JcConf} {labels : List (JcCall × Bool)}
  {users after : HashMap JCUser} {label : JcCall × Bool}

theorem acceptedFor_refused {user : Fingerprint} (refused : label.2 = false) :
    acceptedFor user (labels ++ [label]) = acceptedFor user labels := by
  simp [acceptedFor, refused]

theorem acceptedFor_other {user : Fingerprint}
    (different : user ≠ label.1.userKey) :
    acceptedFor user (labels ++ [label]) = acceptedFor user labels := by
  simp [acceptedFor, Ne.symm different]

theorem acceptedFor_same (accepted : label.2 = true) :
    acceptedFor label.1.userKey (labels ++ [label]) =
      acceptedFor label.1.userKey labels ++ [label.1] := by
  simp [acceptedFor, accepted]

theorem ledger_initial (positive : 1 ≤ conf.jcTotalLimit)
    (eachPositive : 1 ≤ conf.jcLimit) : Ledger conf [] jcTotalUser where
  length := rfl
  unknown _ := rfl
  allocated _ := by simp [jcTotalUser]
  books found := by simp [jcTotalUser] at found
  within _ := within_nil positive eachPositive

theorem Ledger.searchable (ledger : Ledger conf labels users) :
    users.Searchable := by
  rw [HashMap.Searchable, ledger.length]
  decide

/-- Only the record of the user of a call is written. -/
theorem Ledger.next {psJCUser : JCUser} (ledger : Ledger conf labels users)
    (length : after.hashLen = 400000)
    (others : ∀ {user}, user ≠ label.1.userKey →
      after.lookup user = users.lookup user)
    (written : after.lookup label.1.userKey = some (some psJCUser))
    (booked : Books psJCUser
        (acceptedFor label.1.userKey (labels ++ [label])) ∧
      Within conf (acceptedFor label.1.userKey (labels ++ [label]))) :
    Ledger conf (labels ++ [label]) after where
  length := length
  unknown {user} missing := by
    by_cases same : user = label.1.userKey
    · rw [same, written] at missing
      cases missing
    · rw [acceptedFor_other same]
      exact ledger.unknown (others same ▸ missing)
  allocated user := by
    by_cases same : user = label.1.userKey
    · rw [same, written]
      simp
    · rw [others same]
      exact ledger.allocated user
  books {user _} found := by
    by_cases same : user = label.1.userKey
    · rw [same, written] at found
      cases found
      exact same ▸ booked.1
    · rw [acceptedFor_other same]
      exact ledger.books (others same ▸ found)
  within user := by
    by_cases same : user = label.1.userKey
    · exact same ▸ booked.2
    · rw [acceptedFor_other same]
      exact ledger.within user

theorem Ledger.step (ledger : Ledger conf labels users)
    (positive : 1 ≤ conf.jcTotalLimit) (eachPositive : 1 ≤ conf.jcLimit)
    (taken : AdmittedStep conf users label after) :
    Ledger conf (labels ++ [label]) after := by
  obtain ⟨admitted, returned⟩ := taken
  obtain ⟨call, answer⟩ := label
  rw [JcStep, stepOf, ruleJsIsInMap] at returned
  obtain ⟨szADUA, copied, returned⟩ := Option.bind_eq_some_iff.mp returned
  obtain ⟨_, rfl⟩ := store_eq_some_iff.mp copied
  obtain ⟨found, looked, returned⟩ := Option.bind_eq_some_iff.mp returned
  have key : fingerprint users.hashLen call.szADUA call.szADUA.length =
      call.userKey := by rw [ledger.length]; rfl
  cases found with
  | none =>
      obtain ⟨psJCUser, added, equal⟩ := Option.map_eq_some_iff.mp returned
      cases equal
      have missing := (findObject_eq_missing_iff ledger.searchable).mp looked
      rw [key] at missing
      have unknown := ledger.unknown missing
      have inserted := lookup_hashMapInsert_same users call.szADUA
        call.szADUA.length (some psJCUser)
      rw [key, missing] at inserted
      refine ledger.next
        ((hashLen_hashMapInsert _ _ _ _).trans ledger.length) ?_ inserted ?_
      · intro user different
        exact lookup_hashMapInsert_other _ _ _ _ (key ▸ different)
      · rw [acceptedFor_same rfl, unknown]
        exact books_nil.add (within_nil positive eachPositive) eachPositive
          positive (fun _ used => absurd used (Nat.not_lt_zero _)) added
  | some psJCUser =>
      obtain ⟨⟨_, next⟩, decided, equal⟩ :=
        Option.map_eq_some_iff.mp returned
      cases equal
      have stored := (findObject_eq_found_iff ledger.searchable).mp looked
      rw [key] at stored
      have books := ledger.books stored
      have written := lookup_writeValue_same users call.userKey
        fun _ => next
      rw [stored] at written
      rw [key]
      refine ledger.next ledger.length
        (fun different => lookup_writeValue_other users different _)
        written ?_
      rcases decideKnown_cases books.bounded decided with
        ⟨i, used, named, repeated⟩ | ⟨absent, accepted, added⟩
      · cases answer with
        | true =>
            rw [acceptedFor_same rfl]
            exact books.repeat (ledger.within _) used named repeated
        | false =>
            rw [acceptedFor_refused rfl]
            have unchanged : next = psJCUser := by
              rw [repeatStrategy] at repeated
              split_ifs at repeated with refused
              · exact congrArg Prod.snd repeated
              · simp at repeated
            rw [unchanged]
            exact ⟨books, ledger.within _⟩
      · cases accepted
        rw [acceptedFor_same rfl]
        exact books.add (ledger.within _) eachPositive
          (admitted psJCUser stored absent).1 absent added

/-- A call that meets the condition indexes the arrays inside their bounds,
and returns. -/
theorem Ledger.returns (ledger : Ledger conf labels users) {call : JcCall}
    (fits : FitsFields call) (admitted : Admitted conf users call) :
    (ruleJsIsInMap conf users call).isSome := by
  have short : call.szADUA.length < 1024 := by
    rw [JcCall.szADUA, List.length_append]
    exact Nat.lt_trans (Nat.add_lt_add fits.1 fits.2) (by decide)
  have key : fingerprint users.hashLen call.szADUA call.szADUA.length =
      call.userKey := by rw [ledger.length]; rfl
  rw [ruleJsIsInMap, store, if_pos short, Option.bind_some]
  cases stored : users.lookup call.userKey with
  | none =>
      have looked := (findObject_eq_missing_iff ledger.searchable).mpr
        (key ▸ stored : users.lookup (fingerprint users.hashLen call.szADUA
          call.szADUA.length) = none)
      rw [looked]
      rfl
  | some pointer =>
      cases pointer with
      | none => exact absurd stored (ledger.allocated _)
      | some psJCUser =>
          have looked := (findObject_eq_found_iff ledger.searchable).mpr
            (key ▸ stored : users.lookup (fingerprint users.hashLen
              call.szADUA call.szADUA.length) = some (some psJCUser))
          have books := ledger.books stored
          have bounded := books.bounded
          have stops : (strategyLoop psJCUser call.name 0
              psJCUser.iStrategyNum).isSome :=
            strategyLoop_isSome psJCUser call.name (by omega)
          obtain ⟨found, stopped⟩ := Option.isSome_iff_exists.mp stops
          rw [looked, Option.bind_some, Option.isSome_map, decideKnown,
            stopped, Option.bind_some]
          rcases strategyLoop_eq_some (by omega) stopped with
            ⟨last, absent⟩ | ⟨inside, _, used, _⟩
          · have free := (admitted psJCUser stored fun i used =>
              absent i (Nat.zero_le _) (by omega)).2
            rw [if_pos (by omega), addStrategy, dif_pos free]
            rfl
          · rw [if_neg (by omega), dif_pos inside]
            rfl

/--
The limits of the jc strategies over whole runs.

If every call for a strategy that is new for its user finds the total limit
not reached and an entry of the arrays free, then for every user the accepted
calls respect the two limits and the delays, and no call that meets the
condition leaves the arrays.
-/
theorem jcLimits_respected (conf : JcConf)
    (positive : 1 ≤ conf.jcTotalLimit) (eachPositive : 1 ≤ conf.jcLimit)
    {labels : List (JcCall × Bool)} {users : HashMap JCUser}
    (run : Run (AdmittedStep conf) jcTotalUser labels users) :
    (∀ user, Within conf (acceptedFor user labels)) ∧
      ∀ call, FitsFields call → Admitted conf users call →
        (ruleJsIsInMap conf users call).isSome := by
  have ledger : Ledger conf labels users :=
    @Run.history _ _ _ _ _ _ (Ledger conf)
      (fun ledger taken => ledger.step positive eachPositive taken) run []
      (ledger_initial positive eachPositive)
  exact ⟨ledger.within, fun _ => ledger.returns⟩

end Runs

/-- A request of one user. -/
def sampleRequest (lSec : Int) : MqHttpMessage where
  pcCookie := []
  pcSrcIP := ascii "10.0.0.1"
  pcUri := ascii "/"
  host := ascii "example.com"
  pcSec := []
  lSec := lSec
  pcUa := ascii "123"
  pcNoEncUa := []

/-- Whether a call meets the condition, on the record that the table has. -/
instance (conf : JcConf) (users : HashMap JCUser) (call : JcCall) :
    Decidable (Admitted conf users call) :=
  match stored : users.lookup call.userKey with
  | some (some psJCUser) =>
      decidable_of_iff
        ((∀ i : Fin 64, (i : Nat) < psJCUser.iStrategyNum →
            psJCUser.pcStrategys i ≠ call.name) →
          psJCUser.totalNum < conf.jcTotalLimit ∧
            psJCUser.iStrategyNum < 64)
        ⟨fun admitted _ found => by
          rw [stored] at found
          cases found
          exact admitted,
        fun admitted => admitted psJCUser stored⟩
  | some none => .isTrue fun _ found => by rw [stored] at found; cases found
  | none => .isTrue fun _ found => by rw [stored] at found; cases found

/-- The calls that meet the condition, as a function. -/
def admittedCall (conf : JcConf) (users : HashMap JCUser) (call : JcCall) :
    Option (Bool × HashMap JCUser) :=
  if Admitted conf users call then ruleJsIsInMap conf users call else none

theorem admittedStep_of_call {conf : JcConf} {users after : HashMap JCUser}
    {label : JcCall × Bool}
    (taken : stepOf (admittedCall conf) users label after) :
    AdmittedStep conf users label after := by
  rw [stepOf, admittedCall] at taken
  split_ifs at taken with admitted
  exact ⟨admitted, taken⟩

/-- Two calls for one strategy that are accepted, and a third one that comes
too early. -/
def repeatedCalls : List (JcCall × Bool) :=
  [(⟨sampleRequest 0, ascii "a", 60⟩, true),
    (⟨sampleRequest 60, ascii "a", 60⟩, true),
    (⟨sampleRequest 90, ascii "a", 60⟩, false)]

theorem jcLimits_respected_repeated :
    ∃ users, Run (AdmittedStep ⟨3, 3⟩) jcTotalUser repeatedCalls users ∧
      (∀ user, Within ⟨3, 3⟩ (acceptedFor user repeatedCalls)) ∧
      ∀ call, FitsFields call → Admitted ⟨3, 3⟩ users call →
        (ruleJsIsInMap ⟨3, 3⟩ users call).isSome := by
  obtain ⟨users, run⟩ :=
    @exists_run_of_execute _ _ _ (admittedCall ⟨3, 3⟩) jcTotalUser
      repeatedCalls (by decide +kernel)
  have run := run.mono admittedStep_of_call
  exact ⟨users, run,
    jcLimits_respected ⟨3, 3⟩ (by decide) (by decide) run⟩

/-! ## New strategies -/

/-- A call for the strategy whose name has the given length. -/
def strategyCall (length : Nat) : JcCall where
  psMqHttpMes := sampleRequest 0
  name := List.replicate length 65
  delay := 0

/-- The calls for a number of strategies, all accepted. -/
def strategyLabels (strategies : Nat) : List (JcCall × Bool) :=
  (List.range strategies).map fun length => (strategyCall length, true)

/-- A call for a strategy that is not in the record is accepted while an
entry of the arrays is free. -/
theorem decideKnown_new (conf : JcConf) {psJCUser : JCUser} {call : JcCall}
    (bounded : psJCUser.iStrategyNum ≤ 64)
    (absent : ∀ i : Fin 64, (i : Nat) < psJCUser.iStrategyNum →
      psJCUser.pcStrategys i ≠ call.name) :
    decideKnown conf psJCUser call =
      (addStrategy psJCUser call.name call.psMqHttpMes.lSec).map fun next =>
        (true, next) := by
  obtain ⟨found, stopped⟩ := Option.isSome_iff_exists.mp
    (strategyLoop_isSome psJCUser call.name
      (show 0 + psJCUser.iStrategyNum ≤ 64 by omega))
  rw [decideKnown, stopped, Option.bind_some]
  rcases strategyLoop_eq_some (by omega) stopped with
    ⟨rfl, _⟩ | ⟨inside, _, used, equal⟩
  · rw [if_pos (Nat.zero_add _)]
  · exact absurd equal (absent _ (by simpa using used))

/-- The record of a user after its first strategies. -/
structure Recorded (psJCUser : JCUser) (strategies : Nat) : Prop where
  count : psJCUser.iStrategyNum = strategies
  total : psJCUser.totalNum = strategies
  names (i : Fin 64) : (i : Nat) < strategies →
    psJCUser.pcStrategys i = List.replicate i 65

theorem recorded_absent {psJCUser : JCUser} {strategies : Nat}
    (recorded : Recorded psJCUser strategies) (i : Fin 64)
    (used : (i : Nat) < psJCUser.iStrategyNum) :
    psJCUser.pcStrategys i ≠ (strategyCall strategies).name := by
  rw [recorded.count] at used
  rw [recorded.names i used]
  intro equal
  have lengths := congrArg List.length equal
  rw [strategyCall, List.length_replicate, List.length_replicate] at lengths
  omega

theorem Recorded.add {psJCUser : JCUser} {strategies : Nat}
    (recorded : Recorded psJCUser strategies)
    (bounded : strategies < 64) :
    ∃ next, addStrategy psJCUser (strategyCall strategies).name 0 =
        some next ∧
      Recorded next (strategies + 1) := by
  have inside : psJCUser.iStrategyNum < 64 := recorded.count ▸ bounded
  rw [addStrategy, dif_pos inside]
  refine ⟨_, rfl, congrArg (· + 1) recorded.count, ?_, ?_⟩
  · show psJCUser.totalNum + 1 = _
    rw [recorded.total]
    rfl
  · intro i used
    dsimp only
    by_cases newest : i = ⟨psJCUser.iStrategyNum, inside⟩
    · subst newest
      rw [Function.update_self]
      exact congrArg (List.replicate · 65) recorded.count.symm
    · rw [Function.update_of_ne newest]
      refine recorded.names i ?_
      have notLast : (i : Nat) ≠ psJCUser.iStrategyNum :=
        fun equal => newest (Fin.ext equal)
      have count := recorded.count
      omega

/-- A table in which the user of the sample calls has a record of its first
strategies. -/
def AfterStrategies (users : HashMap JCUser) (strategies : Nat) : Prop :=
  users.hashLen = 400000 ∧ ∃ psJCUser,
    users.lookup (strategyCall 0).userKey = some (some psJCUser) ∧
      Recorded psJCUser strategies

theorem AfterStrategies.found {users : HashMap JCUser} {strategies : Nat}
    (after : AfterStrategies users strategies) :
    ∃ psJCUser, Recorded psJCUser strategies ∧
      findObject users (strategyCall strategies).szADUA
        (strategyCall strategies).szADUA.length = some (some psJCUser) := by
  obtain ⟨length, psJCUser, stored, recorded⟩ := after
  have searchable : users.Searchable := by
    rw [HashMap.Searchable, length]
    decide
  refine ⟨psJCUser, recorded, ?_⟩
  rw [findObject_eq_found_iff searchable, length]
  exact stored

theorem strategyCall_szADUA_short (strategies : Nat) :
    (strategyCall strategies).szADUA.length < 1024 := by
  show (strategyCall 0).szADUA.length < 1024
  decide

/-- Calls for new strategies are accepted whatever the limits are. -/
theorem exists_strategyRun (conf : JcConf) {strategies : Nat}
    (bounded : strategies < 64) :
    ∃ users,
      Run (JcStep conf) jcTotalUser (strategyLabels (strategies + 1)) users ∧
      AfterStrategies users (strategies + 1) := by
  induction strategies with
  | zero =>
      obtain ⟨psJCUser, added, recorded⟩ :=
        @Recorded.add clearedUser 0 ⟨rfl, rfl, fun _ used => absurd used
          (Nat.not_lt_zero _)⟩ (by decide)
      have missing : findObject jcTotalUser (strategyCall 0).szADUA
          (strategyCall 0).szADUA.length = some none :=
        (findObject_eq_missing_iff (by
          rw [HashMap.Searchable]; decide)).mpr rfl
      refine ⟨hashMapInsert jcTotalUser (strategyCall 0).szADUA
        (strategyCall 0).szADUA.length (some psJCUser), .single ?_,
        hashLen_hashMapInsert _ _ _ _, psJCUser, ?_, recorded⟩
      · rw [JcStep, stepOf, ruleJsIsInMap, store,
          if_pos (strategyCall_szADUA_short 0), Option.bind_some, missing,
          Option.bind_some]
        dsimp only
        rw [show (strategyCall 0).psMqHttpMes.lSec = 0 from rfl, added]
        rfl
      · exact lookup_hashMapInsert_same jcTotalUser (strategyCall 0).szADUA
          (strategyCall 0).szADUA.length (some psJCUser)
  | succ strategies induction =>
      obtain ⟨users, run, after⟩ := induction (by omega)
      obtain ⟨psJCUser, recorded, found⟩ := after.found
      obtain ⟨next, added, again⟩ := recorded.add bounded
      have accepted : decideKnown conf psJCUser
          (strategyCall (strategies + 1)) = some (true, next) := by
        rw [decideKnown_new conf (by rw [recorded.count]; omega)
          (recorded_absent recorded)]
        rw [show (strategyCall (strategies + 1)).psMqHttpMes.lSec = 0
          from rfl, added]
        rfl
      have length := after.1
      have key : fingerprint users.hashLen
          (strategyCall (strategies + 1)).szADUA
          (strategyCall (strategies + 1)).szADUA.length =
            (strategyCall 0).userKey := by
        rw [length]
        rfl
      refine ⟨users.writeValue (strategyCall 0).userKey fun _ => next, ?_,
        length, next, ?_, again⟩
      · rw [strategyLabels, List.range_succ, List.map_append]
        refine run.append (.single ?_)
        rw [JcStep, stepOf, ruleJsIsInMap, store,
          if_pos (strategyCall_szADUA_short _), Option.bind_some, found,
          Option.bind_some]
        dsimp only
        rw [accepted, key]
        rfl
      · obtain ⟨_, _, stored, _⟩ := after
        rw [lookup_writeValue_same, stored]
        rfl

/-- Limits of one popup, and 65 strategies: all but the last are accepted,
and the last one is written behind the arrays. -/
theorem jcLimits_exceeded :
    ∃ users,
      Run (JcStep ⟨1, 1⟩) jcTotalUser (strategyLabels 64) users ∧
      ¬ Within ⟨1, 1⟩
        (acceptedFor (strategyCall 0).userKey (strategyLabels 64)) ∧
      FitsFields (strategyCall 64) ∧
      ruleJsIsInMap ⟨1, 1⟩ users (strategyCall 64) = none := by
  obtain ⟨users, run, after⟩ :=
    exists_strategyRun ⟨1, 1⟩ (show 63 < 64 by decide)
  obtain ⟨psJCUser, recorded, found⟩ := after.found
  refine ⟨users, run, ?_, ⟨by decide, by decide⟩, ?_⟩
  · intro within
    have total := within.total
    rw [show acceptedFor (strategyCall 0).userKey (strategyLabels 64) =
      (List.range 64).map strategyCall from ?_] at total
    · simp at total
    · rw [acceptedFor, List.filter_eq_self.mpr]
      · rw [strategyLabels, List.map_map]
        rfl
      · intro label member
        obtain ⟨length, _, rfl⟩ := List.mem_map.mp member
        exact decide_eq_true ⟨rfl, rfl⟩
  · rw [ruleJsIsInMap, store, if_pos (strategyCall_szADUA_short _),
      Option.bind_some, found, Option.bind_some]
    dsimp only
    rw [decideKnown_new ⟨1, 1⟩ (by rw [recorded.count])
      (recorded_absent recorded), addStrategy,
      dif_neg (by rw [recorded.count]; decide)]
    rfl

end WindowSystem.FilterRuleJc
