import WindowSystem.DcGlobal

/-!
# The deciders of `filter_rule_pop.c`

Four functions decide whether a popup is sent to a user of a subscriber.  They
share the code that follows the search in their table of users; two of them
take only every second request of their thread, the other two look up the
counter of the subscriber first.  `none` stands for behaviour that C leaves
undefined.
-/

namespace WindowSystem.FilterRulePop

open WindowSystem.CRuntime
open WindowSystem.DcGlobal
open WindowSystem.ToolHashMap

/-! ## The shared part -/

/-- The nested tests on an existing record, with the record they leave. -/
def decideKnown (limits : UserLimits) (pUserInfo : FilterUserInfo)
    (lSec : Int) : Bool × FilterUserInfo :=
  if limits.maxNum ≤ pUserInfo.iCount then (false, pUserInfo)
  else if pUserInfo.iFactCount < limits.factNum then
    if pUserInfo.iFactTime = 0 then
      if lSec - pUserInfo.lTime < limits.factdelay then (false, pUserInfo)
      else
        (true,
          { pUserInfo with iCount := pUserInfo.iCount + 1, lTime := lSec })
    else if 0 < pUserInfo.iFactTime then
      if lSec - pUserInfo.iFactTime < limits.delay then (false, pUserInfo)
      else
        (true,
          { pUserInfo with
            iCount := pUserInfo.iCount + 1, lTime := lSec, iFactTime := 0 })
    else (false, pUserInfo)
  else (false, pUserInfo)

/-- The record of a first popup. -/
def firstUserInfo (lSec : Int) : FilterUserInfo where
  iFactCount := 0
  iFactTime := 0
  iCount := 1
  lTime := lSec

/-- The search in the table of users and what depends on it. -/
def decideUser (limits : UserLimits) (users : HashMap FilterUserInfo)
    (szADUA : Bytes) (lSec : Int) :
    Option (Bool × HashMap FilterUserInfo) :=
  (findObject users szADUA szADUA.length).map fun
    | some pUserInfo =>
        ((decideKnown limits pUserInfo lSec).1,
          users.writeValue (fingerprint users.hashLen szADUA szADUA.length)
            fun pUserInfo => (decideKnown limits pUserInfo lSec).2)
    | none =>
        (true,
          hashMapInsert users szADUA szADUA.length
            (some (firstUserInfo lSec)))

/-- `decideUser` on one of the tables of the server. -/
def decideInTable (conf : Conf) (server : Server) (table : UserTable)
    (iTid : ThreadId) (szADUA : Bytes) (lSec : Int) :
    Option (Bool × Server) :=
  (decideUser (conf.limits table) (server.users (table, iTid)) szADUA
    lSec).map fun (answer, users) =>
      (answer,
        { server with
          users := Function.update server.users (table, iTid) users })

/-! ## The deciders -/

/-- `rule_pop_is_send_target_message` and `rule_pop_is_send_target_message1`
up to their tables. -/
def isSendTarget (table : UserTable) (conf : Conf) (server : Server)
    (iTid : ThreadId) (psMqHttpMes : MqHttpMessage)
    (sAd : Option CharPointer) : Option (Bool × Server) :=
  match sAd with
  | none => some (false, server)
  | some sAd =>
      let server :=
        { server with
          iTotalNum :=
            Function.update server.iTotalNum iTid
              (server.iTotalNum iTid + 1) }
      if server.iTotalNum iTid % 2 ≠ 0 then some (false, server)
      else
        (store 1024 (sAd.text ++ psMqHttpMes.pcUa)).bind fun szADUA =>
          decideInTable conf server table iTid szADUA psMqHttpMes.lSec

/--
The test on the counter of the subscriber.

The length argument of the search is the pointer `sAd` itself.
-/
def adCapReached (adMaxNum : Int) (ads : HashMap Int)
    (sAd : CharPointer) : Option Bool :=
  (findObject ads sAd.text (toInt32 sAd.address)).map fun
    | some count => decide (adMaxNum ≤ count)
    | none => false

/-- `rule_pop_is_send_surplus_message` and `rule_pop_is_send_pop_message` up
to their tables. -/
def isSendCapped (table : UserTable) (adTable : AdTable) (conf : Conf)
    (server : Server) (iTid : ThreadId) (psMqHttpMes : MqHttpMessage)
    (sAd : Option CharPointer) : Option (Bool × Server) :=
  match sAd with
  | none => some (false, server)
  | some sAd =>
      (store 1024 (sAd.text ++ psMqHttpMes.pcUa)).bind fun szADUA =>
        (adCapReached (conf.adMaxNum adTable) (server.ads (adTable, iTid))
          sAd).bind fun
            | true => some (false, server)
            | false =>
                decideInTable conf server table iTid szADUA
                  psMqHttpMes.lSec

/-- `rule_pop_is_send_target_message`. -/
def rulePopIsSendTargetMessage :=
  isSendTarget .targetIP

/-- `rule_pop_is_send_target_message1`. -/
def rulePopIsSendTargetMessage1 :=
  isSendTarget .targetIP1

/-- `rule_pop_is_send_surplus_message`. -/
def rulePopIsSendSurplusMessage :=
  isSendCapped .surplusIP .surplusAD

/-- `rule_pop_is_send_pop_message`. -/
def rulePopIsSendPopMessage :=
  isSendCapped .filterConditionIP .filterConditionAD

/-- The decider that works on a table of users. -/
def decider (table : UserTable) (conf : Conf) (server : Server)
    (iTid : ThreadId) (psMqHttpMes : MqHttpMessage)
    (sAd : Option CharPointer) : Option (Bool × Server) :=
  match table with
  | .targetIP =>
      rulePopIsSendTargetMessage conf server iTid psMqHttpMes sAd
  | .targetIP1 =>
      rulePopIsSendTargetMessage1 conf server iTid psMqHttpMes sAd
  | .surplusIP =>
      rulePopIsSendSurplusMessage conf server iTid psMqHttpMes sAd
  | .filterConditionIP =>
      rulePopIsSendPopMessage conf server iTid psMqHttpMes sAd

/-! ## What a decision changes -/

variable {conf : Conf} {before after : Server} {table : UserTable}
  {iTid : ThreadId} {psMqHttpMes : MqHttpMessage} {answer : Bool}

/-- The effect of `decideUser` on the record of its key. -/
theorem decideUser_cases {limits : UserLimits}
    {users users' : HashMap FilterUserInfo} {szADUA : Bytes} {lSec : Int}
    (searchable : users.Searchable)
    (decided :
      decideUser limits users szADUA lSec = some (answer, users')) :
    (users.lookup (fingerprint users.hashLen szADUA szADUA.length) = none ∧
      answer = true ∧
      users' = hashMapInsert users szADUA szADUA.length
        (some (firstUserInfo lSec))) ∨
    ∃ pUserInfo,
      users.lookup (fingerprint users.hashLen szADUA szADUA.length) =
        some (some pUserInfo) ∧
      answer = (decideKnown limits pUserInfo lSec).1 ∧
      users' =
        users.writeValue (fingerprint users.hashLen szADUA szADUA.length)
          fun pUserInfo => (decideKnown limits pUserInfo lSec).2 := by
  obtain ⟨missing, equal⟩ | ⟨pUserInfo, found, equal⟩ :=
    findObject_map_cases searchable decided
  · cases equal
    exact Or.inl ⟨missing, rfl, rfl⟩
  · cases equal
    exact Or.inr ⟨pUserInfo, found, rfl, rfl⟩

/--
A decider leaves the counters of the subscribers alone; it either refuses
without touching a record or decides in its table of users.
-/
def Decision (conf : Conf) (table : UserTable) (iTid : ThreadId)
    (szADUA : Bytes) (lSec : Int) (answer : Bool)
    (before after : Server) : Prop :=
  after.ads = before.ads ∧
  ((answer = false ∧ after.users = before.users) ∨
    ∃ users,
      decideUser (conf.limits table) (before.users (table, iTid)) szADUA
          lSec = some (answer, users) ∧
      after.users = Function.update before.users (table, iTid) users)

theorem decideInTable_decision {szADUA : Bytes} {lSec : Int}
    (decided :
      decideInTable conf before table iTid szADUA lSec =
        some (answer, after)) :
    Decision conf table iTid szADUA lSec answer before after := by
  simp only [decideInTable, Option.map_eq_some_iff, Prod.exists,
    Prod.mk.injEq] at decided
  rcases decided with ⟨answer', users, decision, rfl, rfl⟩
  exact ⟨rfl, .inr ⟨users, decision, rfl⟩⟩

theorem isSendTarget_decision {sAd : CharPointer}
    (decided :
      isSendTarget table conf before iTid psMqHttpMes (some sAd) =
        some (answer, after)) :
    Decision conf table iTid (sAd.text ++ psMqHttpMes.pcUa)
      psMqHttpMes.lSec answer before after := by
  simp only [isSendTarget] at decided
  split at decided
  · simp only [Option.some.injEq, Prod.mk.injEq] at decided
    rcases decided with ⟨rfl, rfl⟩
    exact ⟨rfl, .inl ⟨rfl, rfl⟩⟩
  · simp only [Option.bind_eq_some_iff, store_eq_some_iff] at decided
    rcases decided with ⟨szADUA, ⟨_, rfl⟩, decided⟩
    have decision := decideInTable_decision decided
    exact decision

theorem isSendCapped_decision {adTable : AdTable} {sAd : CharPointer}
    (decided :
      isSendCapped table adTable conf before iTid psMqHttpMes (some sAd) =
        some (answer, after)) :
    Decision conf table iTid (sAd.text ++ psMqHttpMes.pcUa)
      psMqHttpMes.lSec answer before after := by
  simp only [isSendCapped, Option.bind_eq_some_iff,
    store_eq_some_iff] at decided
  rcases decided with ⟨szADUA, ⟨_, rfl⟩, capped, _, decided⟩
  cases capped with
  | false => exact decideInTable_decision decided
  | true =>
      simp only [Option.some.injEq, Prod.mk.injEq] at decided
      rcases decided with ⟨rfl, rfl⟩
      exact ⟨rfl, .inl ⟨rfl, rfl⟩⟩

theorem decider_decision {sAd : CharPointer}
    (decided :
      decider table conf before iTid psMqHttpMes (some sAd) =
        some (answer, after)) :
    Decision conf table iTid (sAd.text ++ psMqHttpMes.pcUa)
      psMqHttpMes.lSec answer before after := by
  cases table with
  | targetIP => exact isSendTarget_decision decided
  | targetIP1 => exact isSendTarget_decision decided
  | surplusIP => exact isSendCapped_decision decided
  | filterConditionIP => exact isSendCapped_decision decided

theorem decideUser_hashLen {limits : UserLimits}
    {users users' : HashMap FilterUserInfo} {szADUA : Bytes} {lSec : Int}
    (decided :
      decideUser limits users szADUA lSec = some (answer, users')) :
    users'.hashLen = users.hashLen := by
  refine hashLen_of_findObject_map ?_ decided
  rintro (_ | pUserInfo)
  · exact hashLen_hashMapInsert _ _ _ _
  · rfl

theorem Decision.allocated {szADUA : Bytes} {lSec : Int}
    (decision :
      Decision conf table iTid szADUA lSec answer before after)
    (allocated : before.Allocated) : after.Allocated := by
  obtain ⟨adsSame, ⟨_, usersSame⟩ | ⟨users, decided, usersUpdated⟩⟩ :=
    decision
  · exact
      { users := by rw [usersSame]; exact allocated.users
        ads := by rw [adsSame]; exact allocated.ads }
  · exact allocated.update_users (decideUser_hashLen decided) usersUpdated
      fun place => by rw [adsSame]

/-- What a decision does to the record of its user. -/
inductive Decided (limits : UserLimits) (lSec : Int) :
    Option FilterUserInfo → Bool → Option FilterUserInfo → Prop where
  | refused (record : Option FilterUserInfo) :
      Decided limits lSec record false record
  | first : Decided limits lSec none true (some (firstUserInfo lSec))
  | known (pUserInfo : FilterUserInfo) :
      Decided limits lSec (some pUserInfo)
        (decideKnown limits pUserInfo lSec).1
        (some (decideKnown limits pUserInfo lSec).2)

/-- A user who gets a popup has a record. -/
theorem Decided.stored {limits : UserLimits} {lSec : Int}
    {before after : Option FilterUserInfo} {answer : Bool}
    (decided : Decided limits lSec before answer after)
    (granted : answer = true) : ∃ pUserInfo, after = some pUserInfo := by
  cases decided with
  | refused => cases granted
  | first => exact ⟨_, rfl⟩
  | known => exact ⟨_, rfl⟩

/-- A decision changes the record of its user and no other one. -/
theorem Decision.decided {ad ua : Bytes} {lSec : Int}
    (decision :
      Decision conf table (userThread ad) (ad ++ ua) lSec answer before
        after)
    (allocated : before.Allocated) :
    AgreeExcept (recordId table ad ua) before after ∧
      Decided (conf.limits table) lSec
        (before.record (recordId table ad ua)) answer
        (after.record (recordId table ad ua)) := by
  obtain ⟨_, ⟨rfl, usersSame⟩ | ⟨users, decided, usersUpdated⟩⟩ := decision
  · refine ⟨.of_users_eq _ usersSame, ?_⟩
    rw [record_eq_of_users_eq usersSame]
    exact .refused _
  · have length := allocated.users (table, userThread ad)
    rcases decideUser_cases (allocated.users_searchable _) decided with
      ⟨absent, rfl, rfl⟩ | ⟨pUserInfo, found, rfl, rfl⟩
    · have same := record_insert_same absent usersUpdated
      have others := record_insert_other usersUpdated
      rw [length] at same others absent
      have unopened : before.record (recordId table ad ua) = none :=
        congrArg Option.join absent
      refine ⟨others, ?_⟩
      rw [unopened, recordId, same]
      exact .first
    · have same := record_writeValue_same usersUpdated
      have others := record_writeValue_other usersUpdated
      rw [length] at same others found
      have opened :
          before.record (recordId table ad ua) = some pUserInfo :=
        congrArg Option.join found
      refine ⟨others, ?_⟩
      rw [recordId] at opened
      rw [recordId, same, opened]
      exact .known _

end WindowSystem.FilterRulePop
