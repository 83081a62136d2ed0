import WindowSystem.InstantSearchPop
import WindowSystem.Library.MissingResult
import WindowSystem.MqClientPopwin

/-!
# The loops that dispatch popup messages

`rule_pop_main_loop` of `filter_rule_pop.c` and `rule_pop_crowd_search_loop`
of `instant_search_pop.c`.  Both files declare the senders of
`mq_client_popwin.c` with one parameter more than their definitions have.
`none` stands for behaviour that C leaves undefined.
-/

namespace WindowSystem.RulePopLoops

open WindowSystem.CRuntime
open WindowSystem.DataPassBack
open WindowSystem.DcGlobal
open WindowSystem.FilterRulePop
open WindowSystem.InstantSearchPop
open WindowSystem.Library
open WindowSystem.Library.MissingResult
open WindowSystem.MqClientPopwin
open WindowSystem.ToolHashMap

/-! ## Configuration and state -/

/--
What the loops read and never write: the lists that are loaded from files and
the values `g_conf_*`.

`checkContainKey` is `rule_pop_check_contain_key`, which rests on regular
expressions and on a word segmentation library; its result is the identifiers
in `aid`, or `none` for a negative return value.
-/
structure PopConf where
  conf : Conf
  illegalWords : List Bytes
  blackSite : HashMap Unit
  totalWhiteSite : HashMap Unit
  adWhite : HashMap Unit
  blackIp : HashMap Unit
  whiteIps : List Bytes
  targetedPop : HashMap Unit
  targetedPop1 : HashMap Unit
  surplusSite : HashMap Unit
  blackUri : HashMap Unit
  popWhiteHost : Int
  popWhiteHost1 : Int
  popIpSearch : Int
  popSurplus : Int
  popAfterSearch : Int
  adTotalCount : Int
  afterMaxNum : Int
  afterDelay : Int
  checkContainKey : ThreadId → MqHttpMessage → Option (List Int)

/-- The tables that the loops read and write: those of the deciders,
`g_pRadiusHashMap`, `g_pTotalIP`, `g_pTotalAD`, `g_pSearchAdUaHashMap` and
`g_pAfterSearchHashMap`. -/
structure PopState where
  server : Server
  radius : HashMap CharPointer
  totalIP : ThreadId → HashMap Unit
  totalAD : ThreadId → HashMap FilterUserInfo
  searchAdUa : SearchTables
  afterSearch : ThreadId → HashMap FilterUserInfo

/-- The tables after their allocation. -/
def PopState.initial : PopState where
  server := Server.initial
  radius := hashMapNew 8388608
  totalIP _ := hashMapNew 250000
  totalAD _ := hashMapNew 250000
  searchAdUa _ := hashMapNew 40960
  afterSearch _ := hashMapNew 4096

/-- The tables of users that authorise popups. -/
inductive PopTable where
  | user (table : UserTable)
  | afterSearch
deriving DecidableEq

/-- A popup message with the table that authorised it. -/
structure Sent where
  table : PopTable
  message : Bytes
deriving DecidableEq

/-- What a loop leaves behind. -/
structure LoopResult where
  ret : Int
  sent : Option Sent
  hit : Option SearchHit
  state : PopState

/-- A loop that sends nothing. -/
def refuse (state : PopState) : Option LoopResult :=
  some { ret := -1, sent := none, hit := none, state := state }

/-! ## The tests of the main loop -/

/-- A search in a set of texts. -/
def isListed {V : Type} (map : HashMap V) (text : Bytes) : Bool :=
  decide (0 ≤ (hashMapFind map text text.length).ret)

/-- `isUriHaveIllegalWord`. -/
def isUriHaveIllegalWord (conf : PopConf) (psMqHttpMes : MqHttpMessage) :
    Bool :=
  conf.illegalWords.any fun word =>
    (strstr psMqHttpMes.pcUri word).isSome

/-- The subscriber of the source address. -/
def findRadius (state : PopState) (psMqHttpMes : MqHttpMessage) :
    Option (Option CharPointer) :=
  findObject state.radius psMqHttpMes.pcSrcIP psMqHttpMes.pcSrcIP.length

/-- `rule_pop_load_file_host`. -/
def rulePopLoadFileHost (conf : PopConf) (host : Bytes) : Bool :=
  isListed conf.blackSite host

/-- `rule_pop_in_total_white_site`. -/
def rulePopInTotalWhiteSite (conf : PopConf)
    (psMqHttpMes : MqHttpMessage) : Bool :=
  isListed conf.totalWhiteSite psMqHttpMes.host

/-- `rule_pop_cal_total_ip`. -/
def rulePopCalTotalIp (state : PopState) (iTid : ThreadId)
    (psMqHttpMes : MqHttpMessage) (adv : Bytes) : Option PopState :=
  (store 530 (psMqHttpMes.pcSrcIP ++ psMqHttpMes.pcUa)).map fun _ =>
    if isListed (state.totalIP iTid) adv then state
    else
      { state with
        totalIP :=
          Function.update state.totalIP iTid
            (hashMapInsert (state.totalIP iTid) adv adv.length none) }

/-- `check_ad_ua_black`. -/
def checkAdUaBlack (conf : PopConf) (psMqHttpMes : MqHttpMessage)
    (adv : Bytes) : Bool :=
  if 512 ≤ psMqHttpMes.pcSrcIP.length + psMqHttpMes.pcUa.length then false
  else isListed conf.adWhite adv

/-- `rule_pop_filter_ip`: the white list holds subscribers. -/
def rulePopFilterIp (conf : PopConf) (cpSrcIP adv : Bytes) : Bool :=
  if isListed conf.blackIp cpSrcIP then false
  else conf.whiteIps.isEmpty || conf.whiteIps.contains adv

def htmlTypes : List Bytes :=
  [ascii ".htm", ascii ".html", ascii ".shtml"]

/-- `rule_pop_is_html`: the main page, or a page with one of the endings
before its query. -/
def rulePopIsHtml (pcUri : Bytes) : Option Bool :=
  if pcUri = ascii "/" || (ascii "/?").isPrefixOf pcUri then some true
  else if 63 ∈ pcUri then
    let szBuff := pcUri.takeWhile (· ≠ 63)
    if 512 < szBuff.length then some false
    else if szBuff.length < 6 then some false
    else
      (store 512 szBuff).map fun szBuff =>
        htmlTypes.any fun ending => ending.isSuffixOf szBuff
  else if pcUri.length < 6 || 512 < pcUri.length then some false
  else some (htmlTypes.any fun ending => ending.isSuffixOf pcUri)

/-- A listed host and a page that is shown. -/
def isListedPage (sites : HashMap Unit) (psMqHttpMes : MqHttpMessage) :
    Option Bool :=
  if isListed sites psMqHttpMes.host then rulePopIsHtml psMqHttpMes.pcUri
  else some false

/-- `specify_host_send_pop_message`. -/
def specifyHostSendPopMessage (conf : PopConf) :=
  isListedPage conf.targetedPop

/-- `specify_host_send_pop_message1`. -/
def specifyHostSendPopMessage1 (conf : PopConf) :=
  isListedPage conf.targetedPop1

/-- `rule_pop_is_suplus_site`. -/
def rulePopIsSuplusSite (conf : PopConf) :=
  isListedPage conf.surplusSite

/-- `rule_pop_load_black_uri`: the page is not on the black list. -/
def rulePopLoadBlackUri (conf : PopConf) (psMqHttpMes : MqHttpMessage) :
    Option Bool :=
  (store 1024 (psMqHttpMes.host ++ psMqHttpMes.pcUri)).map fun szUri =>
    !isListed conf.blackUri szUri

/-- `check_post_ad_count`. -/
def checkPostAdCount (conf : PopConf) (state : PopState) (adv : Bytes)
    (iTid : ThreadId) : Option (Bool × PopState) :=
  let update (table : HashMap FilterUserInfo) : PopState :=
    { state with totalAD := Function.update state.totalAD iTid table }
  (findObject (state.totalAD iTid) adv adv.length).bind fun
    | some pUserInfo =>
        if conf.adTotalCount ≤ pUserInfo.iCount then some (false, state)
        else
          (incrementInt pUserInfo.iCount).map fun iCount =>
            (true, update
              ((state.totalAD iTid).writeValue
                (fingerprint (state.totalAD iTid).hashLen adv adv.length)
                fun pUserInfo => { pUserInfo with iCount := iCount }))
    | none =>
        some (true, update
          (hashMapInsert (state.totalAD iTid) adv adv.length
            (some
              { iFactCount := 0, iFactTime := 0, iCount := 1,
                lTime := 0 })))

/-! ## Calls of the senders -/

/--
A call through the declaration
`(iTid, pcMessage, szTypeStr, cTotalAdvIds, sAd)`.

The definition takes `(iTid, pcMessage, cTotalAdvIds, sAd)`: it finds the
type under the name of the identifiers, the identifiers under the name of the
subscriber, and does not look at the last argument.
-/
def callDeclared (sender : Sender)
    (pcMessage szTypeStr cTotalAdvIds _sAd : Bytes) :
    Option (Option Bytes) :=
  sender pcMessage (some szTypeStr) (some cTotalAdvIds)

/-- Ask a decider, and send when it agrees. -/
def decideAndSend (conf : PopConf) (state : PopState) (pcMessage : Bytes)
    (psMqHttpMes : MqHttpMessage) (adv : CharPointer) (table : UserTable)
    (sender : Sender) (szTypeFlag : Bytes) :
    Option (Bool × Option Sent × PopState) :=
  (decider table conf.conf state.server (userThread adv.text) psMqHttpMes
    (some adv)).bind fun (answer, server) =>
      let state := { state with server := server }
      if answer then
        (callDeclared sender pcMessage szTypeFlag (ascii "0")
          adv.text).map fun message =>
            (true, message.map fun message =>
              { table := .user table, message := message }, state)
      else some (false, none, state)

/-! ## The main loop -/

/-- The end of a branch that returns `1` whatever the decider answers. -/
def handled (decision : Option (Bool × Option Sent × PopState)) :
    Option LoopResult :=
  decision.map fun (_, sent, state) =>
    { ret := 1, sent := sent, hit := none, state := state }

/-- The block for the sites of the surplus. -/
def surplusBlock (conf : PopConf) (state : PopState) (pcMessage : Bytes)
    (psMqHttpMes : MqHttpMessage) (adv : CharPointer) :
    Option LoopResult :=
  (andAlso (rulePopIsSuplusSite conf psMqHttpMes)
    (rulePopLoadBlackUri conf psMqHttpMes)).bind fun
  | false => refuse state
  | true =>
      (checkPostAdCount conf state adv.text (userThread adv.text)).bind fun
      | (false, state) => refuse state
      | (true, state) =>
          (andAlso (some (conf.popIpSearch = 1))
            (radiusPopCheckPopIp state.searchAdUa (userThread adv.text)
              psMqHttpMes (some adv.text))).bind fun
          | true =>
              handled
                (decideAndSend conf state pcMessage psMqHttpMes adv
                  .filterConditionIP popMqDirectSendCrowdMsg (ascii "4"))
          | false =>
              if conf.popSurplus = 1 then
                (decideAndSend conf state pcMessage psMqHttpMes adv
                  .surplusIP popMqDirectSendSurplusMsg
                  (ascii "0")).map fun (answer, sent, state) =>
                    { ret := if answer then 1 else -1
                      sent := sent
                      hit := none
                      state := state }
              else refuse state

/-- The part of the main loop that asks the deciders. -/
def popBlocks (conf : PopConf) (state : PopState) (pcMessage : Bytes)
    (psMqHttpMes : MqHttpMessage) (adv : CharPointer) :
    Option LoopResult :=
  (andAlso (some (conf.popWhiteHost1 = 1))
    (andAlso (specifyHostSendPopMessage1 conf psMqHttpMes)
      (rulePopLoadBlackUri conf psMqHttpMes))).bind fun
  | true =>
      handled
        (decideAndSend conf state pcMessage psMqHttpMes adv .targetIP1
          popMqDirectSendCrowdMsg (ascii "3"))
  | false =>
      (andAlso (some (conf.popWhiteHost = 1))
        (andAlso (specifyHostSendPopMessage conf psMqHttpMes)
          (rulePopLoadBlackUri conf psMqHttpMes))).bind fun
      | true =>
          handled
            (decideAndSend conf state pcMessage psMqHttpMes adv .targetIP
              popMqDirectSendCrowdMsg (ascii "2"))
      | false => surplusBlock conf state pcMessage psMqHttpMes adv

/-- `rule_pop_main_loop`. -/
def rulePopMainLoop (conf : PopConf) (state : PopState)
    (pcMessage : Bytes) (psMqHttpMes : MqHttpMessage) :
    Option LoopResult :=
  if isUriHaveIllegalWord conf psMqHttpMes then refuse state
  else
    (findRadius state psMqHttpMes).bind fun
    | none => refuse state
    | some adv =>
        if rulePopLoadFileHost conf psMqHttpMes.host then refuse state
        else if !rulePopInTotalWhiteSite conf psMqHttpMes then refuse state
        else
          (rulePopCalTotalIp state (userThread adv.text) psMqHttpMes
            adv.text).bind fun state =>
              if checkAdUaBlack conf psMqHttpMes adv.text then refuse state
              else if
                !rulePopFilterIp conf psMqHttpMes.pcSrcIP adv.text
              then refuse state
              else popBlocks conf state pcMessage psMqHttpMes adv

/-! ## The loop for searches -/

/-- `pop_after_send_pop_message`. -/
def popAfterSendPopMessage (conf : PopConf) (state : PopState)
    (iTid : ThreadId) (psMqHttpMes : MqHttpMessage) (sAd : Bytes) :
    Option (Bool × PopState) :=
  let update (table : HashMap FilterUserInfo) : PopState :=
    { state with
      afterSearch := Function.update state.afterSearch iTid table }
  (store 1024 (sAd ++ psMqHttpMes.pcUa)).bind fun szADUA =>
    (findObject (state.afterSearch iTid) szADUA szADUA.length).bind fun
    | some pUserInfo =>
        if conf.afterMaxNum < pUserInfo.iCount ||
            psMqHttpMes.lSec - pUserInfo.lTime < conf.afterDelay then
          some (false, state)
        else
          (incrementInt pUserInfo.iCount).map fun iCount =>
            (true, update
              ((state.afterSearch iTid).writeValue
                (fingerprint (state.afterSearch iTid).hashLen szADUA
                  szADUA.length)
                fun pUserInfo =>
                  { pUserInfo with
                    iCount := iCount, lTime := psMqHttpMes.lSec }))
    | none =>
        some (true, update
          (hashMapInsert (state.afterSearch iTid) szADUA szADUA.length
            (some
              { iFactCount := 0, iFactTime := 0, iCount := 1,
                lTime := psMqHttpMes.lSec })))

/-- The loop of `pop_after_search` over `aid`, with `cTotalAdvId` as it is
before the rest of the loop. -/
def totalAdvId : Bool → List Int → Bytes → Option Bytes
  | _, [], cTotalAdvId => some cTotalAdvId
  | first, iAdid :: aid, cTotalAdvId =>
      (store 64
        (cTotalAdvId ++ (if first then [] else ascii "_") ++
          Decimal.decimalInt iAdid)).bind fun cTotalAdvId =>
            totalAdvId false aid cTotalAdvId

/-- `pop_after_search`. -/
def popAfterSearch (conf : PopConf) (state : PopState)
    (pcMessage : Bytes) (psMqHttpMes : MqHttpMessage) (adv : Bytes)
    (aid : List Int) : Option LoopResult :=
  (totalAdvId true aid []).bind fun cTotalAdvId =>
    (popAfterSendPopMessage conf state (userThread adv) psMqHttpMes
      adv).bind fun
    | (false, state) =>
        some { ret := 1, sent := none, hit := none, state := state }
    | (true, state) =>
        (callDeclared popMqDirectSendCrowdMsg pcMessage (ascii "5")
          cTotalAdvId adv).map fun message =>
            { ret := 1
              sent := message.map fun message =>
                { table := .afterSearch, message := message }
              hit := none
              state := state }

/-- `rule_pop_crowd_search_loop`. -/
def rulePopCrowdSearchLoop (conf : PopConf) (state : PopState)
    (pcMessage : Bytes) (psMqHttpMes : MqHttpMessage) :
    Option LoopResult :=
  (findRadius state psMqHttpMes).bind fun
  | none => refuse state
  | some adv =>
      match conf.checkContainKey (userThread adv.text) psMqHttpMes with
      | none => refuse state
      | some aid =>
          if conf.popAfterSearch = 1 then
            popAfterSearch conf state pcMessage psMqHttpMes adv.text aid
          else
            (radiusPopCheckSearchWd psMqHttpMes (some adv.text) aid).map
              fun hit =>
                { ret := 1, sent := none, hit := hit, state := state }

/-- The two loops that dispatch popup messages. -/
inductive PopLoop where
  | main
  | crowdSearch
deriving DecidableEq

/-- One of the loops. -/
def rulePopLoop (loop : PopLoop) (conf : PopConf) (state : PopState)
    (pcMessage : Bytes) (psMqHttpMes : MqHttpMessage) :
    Option LoopResult :=
  match loop with
  | .main => rulePopMainLoop conf state pcMessage psMqHttpMes
  | .crowdSearch =>
      rulePopCrowdSearchLoop conf state pcMessage psMqHttpMes

/-! ## What the loops send -/

/-- The type under which the pass-back thread knows the table of a decider,
and `5` for the table that it does not know. -/
def typeFlag : PopTable → Bytes
  | .user .surplusIP => ascii "0"
  | .user .targetIP => ascii "2"
  | .user .targetIP1 => ascii "3"
  | .user .filterConditionIP => ascii "4"
  | .afterSearch => ascii "5"

section Sent

variable {conf : PopConf} {state : PopState} {pcMessage : Bytes}
  {psMqHttpMes : MqHttpMessage} {adv : CharPointer} {result : LoopResult}
  {sent : Sent}

/-- A message of the main loop: a decider has authorised it, and behind the
declaration the type and the text `0` are what the sender sees. -/
structure SentByDecider (conf : PopConf) (before : PopState)
    (pcMessage : Bytes) (psMqHttpMes : MqHttpMessage) (adv : CharPointer)
    (table : UserTable) (sent : Sent) (after : PopState) : Prop where
  authorised : sent.table = .user table
  decided :
    decider table conf.conf before.server (userThread adv.text) psMqHttpMes
        (some adv) =
      some (true, after.server)
  built :
    popMessage pcMessage (some (typeFlag (.user table)))
      (some (ascii "0")) = some sent.message

theorem decideAndSend_sent {table : UserTable} {sender : Sender}
    {answer : Bool} {after : PopState} (sends : Sends sender)
    (taken :
      decideAndSend conf state pcMessage psMqHttpMes adv table sender
          (typeFlag (.user table)) =
        some (answer, some sent, after)) :
    SentByDecider conf state pcMessage psMqHttpMes adv table sent after := by
  simp only [decideAndSend, Option.bind_eq_some_iff, Prod.exists] at taken
  obtain ⟨agreed, server, decided, taken⟩ := taken
  split at taken
  · rename_i agreement
    simp only [Option.map_eq_some_iff, Prod.mk.injEq] at taken
    obtain ⟨message, called, _, ⟨message', rfl, rfl⟩, rfl⟩ := taken
    rw [agreement] at decided
    exact ⟨rfl, decided, sends called⟩
  · cases taken

theorem handled_sent
    {decision : Option (Bool × Option Sent × PopState)}
    (finished : handled decision = some result)
    (dispatched : result.sent = some sent) :
    ∃ answer, decision = some (answer, some sent, result.state) := by
  simp only [handled, Option.map_eq_some_iff, Prod.exists] at finished
  obtain ⟨answer, sent', after, rfl, rfl⟩ := finished
  cases dispatched
  exact ⟨answer, rfl⟩

theorem refuse_sent (refused : refuse state = some result) :
    result.sent ≠ some sent := by
  cases refused
  simp

theorem server_rulePopCalTotalIp {iTid : ThreadId} {after : PopState}
    {adv : Bytes}
    (counted :
      rulePopCalTotalIp state iTid psMqHttpMes adv = some after) :
    after.server = state.server := by
  simp only [rulePopCalTotalIp, Option.map_eq_some_iff] at counted
  obtain ⟨_, _, rfl⟩ := counted
  split <;> rfl

theorem server_checkPostAdCount {iTid : ThreadId} {answer : Bool}
    {adv : Bytes} {after : PopState}
    (counted :
      checkPostAdCount conf state adv iTid = some (answer, after)) :
    after.server = state.server := by
  simp only [checkPostAdCount, Option.bind_eq_some_iff] at counted
  obtain ⟨_ | pUserInfo, _, counted⟩ := counted
  · cases counted
    rfl
  · dsimp only at counted
    split at counted
    · cases counted
      rfl
    · simp only [Option.map_eq_some_iff, Prod.mk.injEq] at counted
      obtain ⟨_, _, _, rfl⟩ := counted
      rfl

theorem server_popAfterSendPopMessage {iTid : ThreadId} {answer : Bool}
    {sAd : Bytes} {after : PopState}
    (decided :
      popAfterSendPopMessage conf state iTid psMqHttpMes sAd =
        some (answer, after)) :
    after.server = state.server := by
  simp only [popAfterSendPopMessage, Option.bind_eq_some_iff] at decided
  obtain ⟨_, _, _ | pUserInfo, _, decided⟩ := decided
  · cases decided
    rfl
  · dsimp only at decided
    split at decided
    · cases decided
      rfl
    · simp only [Option.map_eq_some_iff, Prod.mk.injEq] at decided
      obtain ⟨_, _, _, rfl⟩ := decided
      rfl

/-- A decider is asked about the tables that it shares, not about the other
ones. -/
theorem SentByDecider.of_server_eq {before before' : PopState}
    {table : UserTable} {after : PopState}
    (sentByDecider :
      SentByDecider conf before pcMessage psMqHttpMes adv table sent after)
    (same : before.server = before'.server) :
    SentByDecider conf before' pcMessage psMqHttpMes adv table sent
      after where
  authorised := sentByDecider.authorised
  decided := same ▸ sentByDecider.decided
  built := sentByDecider.built

theorem surplusBlock_sent
    (finished :
      surplusBlock conf state pcMessage psMqHttpMes adv = some result)
    (dispatched : result.sent = some sent) :
    ∃ table, SentByDecider conf state pcMessage psMqHttpMes adv table sent
      result.state := by
  simp only [surplusBlock, Option.bind_eq_some_iff] at finished
  obtain ⟨_ | _, _, finished⟩ := finished
  · exact absurd dispatched (refuse_sent finished)
  simp only [Option.bind_eq_some_iff, Prod.exists] at finished
  obtain ⟨_ | _, after, counted, finished⟩ := finished
  · exact absurd dispatched (refuse_sent finished)
  have same := server_checkPostAdCount counted
  simp only [Option.bind_eq_some_iff] at finished
  obtain ⟨_ | _, _, finished⟩ := finished
  · dsimp only at finished
    split at finished
    · simp only [Option.map_eq_some_iff, Prod.exists] at finished
      obtain ⟨answer, sent', after', taken, rfl⟩ := finished
      cases dispatched
      exact ⟨_, (decideAndSend_sent sends_surplus taken).of_server_eq same⟩
    · exact absurd dispatched (refuse_sent finished)
  · obtain ⟨answer, taken⟩ := handled_sent finished dispatched
    exact ⟨_, (decideAndSend_sent sends_crowd taken).of_server_eq same⟩

theorem popBlocks_sent
    (finished :
      popBlocks conf state pcMessage psMqHttpMes adv = some result)
    (dispatched : result.sent = some sent) :
    ∃ table, SentByDecider conf state pcMessage psMqHttpMes adv table sent
      result.state := by
  simp only [popBlocks, Option.bind_eq_some_iff] at finished
  obtain ⟨_ | _, _, finished⟩ := finished
  · simp only [Option.bind_eq_some_iff] at finished
    obtain ⟨_ | _, _, finished⟩ := finished
    · exact surplusBlock_sent finished dispatched
    · obtain ⟨answer, taken⟩ := handled_sent finished dispatched
      exact ⟨_, decideAndSend_sent sends_crowd taken⟩
  · obtain ⟨answer, taken⟩ := handled_sent finished dispatched
    exact ⟨_, decideAndSend_sent sends_crowd taken⟩

/-- Every message of the main loop is authorised by a decider that was asked
about the subscriber of the source address. -/
theorem rulePopMainLoop_sent
    (finished :
      rulePopMainLoop conf state pcMessage psMqHttpMes = some result)
    (dispatched : result.sent = some sent) :
    ∃ adv table, findRadius state psMqHttpMes = some (some adv) ∧
      SentByDecider conf state pcMessage psMqHttpMes adv table sent
        result.state := by
  rw [rulePopMainLoop] at finished
  split at finished
  · exact absurd dispatched (refuse_sent finished)
  simp only [Option.bind_eq_some_iff] at finished
  obtain ⟨_ | adv, subscribed, finished⟩ := finished
  · exact absurd dispatched (refuse_sent finished)
  dsimp only at finished
  split at finished
  · exact absurd dispatched (refuse_sent finished)
  split at finished
  · exact absurd dispatched (refuse_sent finished)
  simp only [Option.bind_eq_some_iff] at finished
  obtain ⟨after, counted, finished⟩ := finished
  split at finished
  · exact absurd dispatched (refuse_sent finished)
  split at finished
  · exact absurd dispatched (refuse_sent finished)
  obtain ⟨table, sentByDecider⟩ := popBlocks_sent finished dispatched
  exact ⟨adv, table, subscribed,
    sentByDecider.of_server_eq (server_rulePopCalTotalIp counted)⟩

/-- Every message of the loop for searches is authorised by its own table. -/
theorem rulePopCrowdSearchLoop_sent
    (finished :
      rulePopCrowdSearchLoop conf state pcMessage psMqHttpMes =
        some result)
    (dispatched : result.sent = some sent) :
    ∃ adv, findRadius state psMqHttpMes = some (some adv) ∧
      sent.table = .afterSearch := by
  simp only [rulePopCrowdSearchLoop, Option.bind_eq_some_iff] at finished
  obtain ⟨_ | adv, subscribed, finished⟩ := finished
  · exact absurd dispatched (refuse_sent finished)
  refine ⟨adv, subscribed, ?_⟩
  dsimp only at finished
  split at finished
  · exact absurd dispatched (refuse_sent finished)
  split at finished
  · simp only [popAfterSearch, Option.bind_eq_some_iff, Prod.exists]
      at finished
    obtain ⟨cTotalAdvId, _, _ | _, after, _, finished⟩ := finished
    · cases finished
      cases dispatched
    · simp only [Option.map_eq_some_iff] at finished
      obtain ⟨message, _, rfl⟩ := finished
      simp only [Option.map_eq_some_iff] at dispatched
      obtain ⟨_, _, rfl⟩ := dispatched
      rfl
  · simp only [Option.map_eq_some_iff] at finished
    obtain ⟨hit, _, rfl⟩ := finished
    cases dispatched

end Sent

/-! ## The loops as events of the server -/

section Server

variable {conf : PopConf} {state : PopState} {pcMessage : Bytes}
  {psMqHttpMes : MqHttpMessage} {adv : CharPointer} {result : LoopResult}

/-- The tables of the deciders are left alone, or a decider was asked. -/
def AsksOnce (conf : PopConf) (psMqHttpMes : MqHttpMessage)
    (before after : PopState) : Prop :=
  after.server = before.server ∨
    ∃ table adv answer,
      serverStep conf.conf before.server
          (.request table psMqHttpMes adv) =
        some (.answered answer, after.server)

theorem AsksOnce.of_server_eq {before before' after : PopState}
    (asks : AsksOnce conf psMqHttpMes before after)
    (same : before.server = before'.server) :
    AsksOnce conf psMqHttpMes before' after := by
  rw [AsksOnce, ← same]
  exact asks

theorem decideAndSend_asks {table : UserTable} {sender : Sender}
    {szTypeFlag : Bytes} {answer : Bool} {sent : Option Sent}
    {after : PopState}
    (taken :
      decideAndSend conf state pcMessage psMqHttpMes adv table sender
          szTypeFlag =
        some (answer, sent, after)) :
    AsksOnce conf psMqHttpMes state after := by
  simp only [decideAndSend, Option.bind_eq_some_iff, Prod.exists] at taken
  obtain ⟨agreed, server, decided, taken⟩ := taken
  have moved : after.server = server := by
    split at taken
    · simp only [Option.map_eq_some_iff, Prod.mk.injEq] at taken
      obtain ⟨_, _, _, _, rfl⟩ := taken
      rfl
    · cases taken
      rfl
  refine Or.inr ⟨table, adv, agreed, ?_⟩
  rw [serverStep, decided, moved]
  rfl

theorem handled_asks
    {decision : Option (Bool × Option Sent × PopState)}
    (asks : ∀ {answer sent after},
      decision = some (answer, sent, after) →
        AsksOnce conf psMqHttpMes state after)
    (finished : handled decision = some result) :
    AsksOnce conf psMqHttpMes state result.state := by
  simp only [handled, Option.map_eq_some_iff, Prod.exists] at finished
  obtain ⟨answer, sent, after, decided, rfl⟩ := finished
  exact asks decided

theorem refuse_asks (refused : refuse state = some result) :
    AsksOnce conf psMqHttpMes state result.state := by
  cases refused
  exact Or.inl rfl

theorem surplusBlock_asks
    (finished :
      surplusBlock conf state pcMessage psMqHttpMes adv = some result) :
    AsksOnce conf psMqHttpMes state result.state := by
  simp only [surplusBlock, Option.bind_eq_some_iff] at finished
  obtain ⟨_ | _, _, finished⟩ := finished
  · exact refuse_asks finished
  simp only [Option.bind_eq_some_iff, Prod.exists] at finished
  obtain ⟨counts, after, counted, finished⟩ := finished
  have same := server_checkPostAdCount counted
  cases counts with
  | false => exact (refuse_asks finished).of_server_eq same
  | true =>
      simp only [Option.bind_eq_some_iff] at finished
      obtain ⟨_ | _, _, finished⟩ := finished
      · dsimp only at finished
        split at finished
        · simp only [Option.map_eq_some_iff, Prod.exists] at finished
          obtain ⟨answer, sent, after', taken, rfl⟩ := finished
          exact (decideAndSend_asks taken).of_server_eq same
        · exact (refuse_asks finished).of_server_eq same
      · exact (handled_asks decideAndSend_asks finished).of_server_eq same

theorem popBlocks_asks
    (finished :
      popBlocks conf state pcMessage psMqHttpMes adv = some result) :
    AsksOnce conf psMqHttpMes state result.state := by
  simp only [popBlocks, Option.bind_eq_some_iff] at finished
  obtain ⟨_ | _, _, finished⟩ := finished
  · simp only [Option.bind_eq_some_iff] at finished
    obtain ⟨_ | _, _, finished⟩ := finished
    · exact surplusBlock_asks finished
    · exact handled_asks decideAndSend_asks finished
  · exact handled_asks decideAndSend_asks finished

/-- The main loop asks one decider at most. -/
theorem rulePopMainLoop_asks
    (finished :
      rulePopMainLoop conf state pcMessage psMqHttpMes = some result) :
    AsksOnce conf psMqHttpMes state result.state := by
  rw [rulePopMainLoop] at finished
  split at finished
  · exact refuse_asks finished
  simp only [Option.bind_eq_some_iff] at finished
  obtain ⟨_ | adv, _, finished⟩ := finished
  · exact refuse_asks finished
  dsimp only at finished
  split at finished
  · exact refuse_asks finished
  split at finished
  · exact refuse_asks finished
  simp only [Option.bind_eq_some_iff] at finished
  obtain ⟨after, counted, finished⟩ := finished
  have same := server_rulePopCalTotalIp counted
  split at finished
  · exact (refuse_asks finished).of_server_eq same
  split at finished
  · exact (refuse_asks finished).of_server_eq same
  exact (popBlocks_asks finished).of_server_eq same

/-- The loop for searches asks none of the deciders. -/
theorem rulePopCrowdSearchLoop_server
    (finished :
      rulePopCrowdSearchLoop conf state pcMessage psMqHttpMes =
        some result) :
    result.state.server = state.server := by
  simp only [rulePopCrowdSearchLoop, Option.bind_eq_some_iff] at finished
  obtain ⟨_ | adv, _, finished⟩ := finished
  · cases finished
    rfl
  dsimp only at finished
  split at finished
  · cases finished
    rfl
  split at finished
  · simp only [popAfterSearch, Option.bind_eq_some_iff, Prod.exists]
      at finished
    obtain ⟨cTotalAdvId, _, answer, after, decided, finished⟩ := finished
    have same : after.server = state.server :=
      server_popAfterSendPopMessage decided
    cases answer with
    | false =>
        cases finished
        exact same
    | true =>
        simp only [Option.map_eq_some_iff] at finished
        obtain ⟨_, _, rfl⟩ := finished
        exact same
  · simp only [Option.map_eq_some_iff] at finished
    obtain ⟨_, _, rfl⟩ := finished
    rfl

/--
A request through one of the loops is an event of the server, or none.

So a run of the loops and the pass-back thread is a run of the server, and
what holds of the runs of the server holds of the loops.
-/
theorem rulePopLoop_serverRun {loop : PopLoop}
    (finished :
      rulePopLoop loop conf state pcMessage psMqHttpMes = some result) :
    ∃ labels,
      ServerRun conf.conf state.server labels result.state.server ∧
      labels.length ≤ 1 := by
  have asks : AsksOnce conf psMqHttpMes state result.state := by
    cases loop with
    | main => exact rulePopMainLoop_asks finished
    | crowdSearch => exact Or.inl (rulePopCrowdSearchLoop_server finished)
  rcases asks with same | ⟨table, adv, answer, taken⟩
  · rw [same]
    exact ⟨[], .nil _, by simp⟩
  · exact ⟨[(.request table psMqHttpMes adv, .answered answer)],
      .single taken, by simp⟩

end Server

end WindowSystem.RulePopLoops
