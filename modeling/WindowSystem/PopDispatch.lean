import WindowSystem.PassBackIdentity
import WindowSystem.SimpleCaps

/-!
# What the loops may send

Every popup message of the main loop has passed the lists of words, sites,
pages, addresses and subscribers.  `check_post_ad_count` counts the popups for
the surplus in `g_pTotalAD`, which nothing clears, before a decider is asked.
A request is taken here together with all that other threads have written
since the last one.
-/

namespace WindowSystem.PopDispatch

open WindowSystem.CRuntime
open WindowSystem.DcGlobal
open WindowSystem.Library
open WindowSystem.Library.MissingResult
open WindowSystem.MqClientPopwin (Sender)
open WindowSystem.PassBackIdentity
open WindowSystem.RulePopLoops
open WindowSystem.ToolHashMap

/-! ## What a message has passed -/

/-- The first block shows popups on the site. -/
def Targeted1 (conf : PopConf) (host : Bytes) : Prop :=
  conf.popWhiteHost1 = 1 ∧ isListed conf.targetedPop1 host = true

/-- The second block shows popups on the site. -/
def Targeted (conf : PopConf) (host : Bytes) : Prop :=
  conf.popWhiteHost = 1 ∧ isListed conf.targetedPop host = true

/-- The switches and lists of sites that open a table of users: a site that an
earlier block shows popups on is closed to the later ones. -/
def Opened (conf : PopConf) (host : Bytes) : UserTable → Prop
  | .targetIP1 => Targeted1 conf host
  | .targetIP => ¬ Targeted1 conf host ∧ Targeted conf host
  | .filterConditionIP =>
      ¬ Targeted1 conf host ∧ ¬ Targeted conf host ∧
        isListed conf.surplusSite host = true ∧ conf.popIpSearch = 1
  | .surplusIP =>
      ¬ Targeted1 conf host ∧ ¬ Targeted conf host ∧
        isListed conf.surplusSite host = true ∧ conf.popSurplus = 1

/-- A page that is shown and that is not on the black list. -/
structure ShownPage (conf : PopConf) (psMqHttpMes : MqHttpMessage) :
    Prop where
  html : rulePopIsHtml psMqHttpMes.pcUri = some true
  notBlack :
    isListed conf.blackUri (psMqHttpMes.host ++ psMqHttpMes.pcUri) = false

/-- A request of a subscriber that is not on any of the lists that end the
main loop. -/
structure Passed (conf : PopConf) (psMqHttpMes : MqHttpMessage)
    (adv : Bytes) : Prop where
  legal : ∀ word ∈ conf.illegalWords, strstr psMqHttpMes.pcUri word = none
  site : isListed conf.blackSite psMqHttpMes.host = false
  whiteSite : isListed conf.totalWhiteSite psMqHttpMes.host = true
  subscriber :
    isListed conf.adWhite adv = false ∨
      512 ≤ psMqHttpMes.pcSrcIP.length + psMqHttpMes.pcUa.length
  address : isListed conf.blackIp psMqHttpMes.pcSrcIP = false
  chosen : conf.whiteIps = [] ∨ adv ∈ conf.whiteIps

/-- A request of a subscriber that may be answered by a popup. -/
structure Allowed (conf : PopConf) (psMqHttpMes : MqHttpMessage)
    (adv : Bytes) (table : UserTable) : Prop extends
    Passed conf psMqHttpMes adv where
  page : ShownPage conf psMqHttpMes
  opened : Opened conf psMqHttpMes.host table

/-- The tables behind `check_post_ad_count`. -/
def IsSurplus (table : UserTable) : Bool :=
  table = .filterConditionIP || table = .surplusIP

/-! ## The records of `g_pTotalAD` -/

/-- The record of a subscriber: its thread and its fingerprint. -/
abbrev TotalRecord := ThreadId × Fingerprint

/-- The record that `check_post_ad_count` finds. -/
def totalRecord (adv : Bytes) : TotalRecord :=
  (userThread adv, fingerprint 250000 adv adv.length)

/-- The tables `g_pTotalAD`. -/
abbrev Totals := ThreadId → HashMap FilterUserInfo

/-- The number in a record, `0` where there is none. -/
def totalCount (totals : Totals) (record : TotalRecord) : Int :=
  (((totals record.1).lookup record.2).join.map
    FilterUserInfo.iCount).getD 0

/-- Every table has the length it was allocated with. -/
def TotalsAllocated (totals : Totals) : Prop :=
  ∀ iTid, (totals iTid).hashLen = 250000

theorem searchable_totals {totals : Totals}
    (allocated : TotalsAllocated totals) (iTid : ThreadId) :
    (totals iTid).Searchable := by
  rw [HashMap.Searchable, allocated]
  decide

/-- One more popup for a subscriber, within the limit. -/
structure Counted (conf : PopConf) (adv : Bytes) (before after : Totals) :
    Prop where
  same : totalCount after (totalRecord adv) =
    totalCount before (totalRecord adv) + 1
  limited : totalCount after (totalRecord adv) ≤ max 1 conf.adTotalCount
  others : ∀ record, record ≠ totalRecord adv →
    totalCount after record = totalCount before record
  allocated : TotalsAllocated after

section Counter

variable {conf : PopConf} {before after : PopState} {adv : Bytes}

/-- A change of one table, under one fingerprint. -/
theorem counted_of_update {totals : Totals}
    {table : HashMap FilterUserInfo}
    (allocated : TotalsAllocated totals)
    (others : ∀ {other}, other ≠ (totalRecord adv).2 →
      table.lookup other = (totals (userThread adv)).lookup other)
    (length : table.hashLen = (totals (userThread adv)).hashLen)
    (same : ((table.lookup (totalRecord adv).2).join.map
        FilterUserInfo.iCount).getD 0 =
      totalCount totals (totalRecord adv) + 1)
    (room : totalCount totals (totalRecord adv) <
      max 1 conf.adTotalCount) :
    Counted conf adv totals
      (Function.update totals (userThread adv) table) := by
  have counts :
      totalCount (Function.update totals (userThread adv) table)
          (totalRecord adv) =
        totalCount totals (totalRecord adv) + 1 := by
    rw [← same, totalCount, totalRecord, Function.update_self]
  refine ⟨counts, ?_, fun record different => ?_, fun iTid => ?_⟩
  · rw [counts]
    exact Int.add_one_le_of_lt room
  · rw [totalCount, lookup_update_other others different, totalCount]
  · rw [hashLen_update length, allocated]

theorem checkPostAdCount_refused {iTid : ThreadId}
    (answered :
      checkPostAdCount conf before adv iTid = some (false, after)) :
    after = before := by
  simp only [checkPostAdCount, Option.bind_eq_some_iff] at answered
  obtain ⟨_ | pUserInfo, -, answered⟩ := answered
  · cases answered
  · dsimp only at answered
    split_ifs at answered
    · cases answered
      rfl
    · simp at answered

theorem checkPostAdCount_counted
    (allocated : TotalsAllocated before.totalAD)
    (answered :
      checkPostAdCount conf before adv (userThread adv) =
        some (true, after)) :
    Counted conf adv before.totalAD after.totalAD := by
  simp only [checkPostAdCount, Option.bind_eq_some_iff] at answered
  have searchable := searchable_totals allocated (userThread adv)
  have key : fingerprint (before.totalAD (userThread adv)).hashLen adv
      adv.length = (totalRecord adv).2 := by
    rw [allocated, totalRecord]
  obtain ⟨_ | pUserInfo, found, answered⟩ := answered
  · cases answered
    have absent := (findObject_eq_missing_iff searchable).mp found
    rw [key] at absent
    have zero : totalCount before.totalAD (totalRecord adv) = 0 := by
      rw [totalCount]
      exact congrArg (fun stored =>
        ((Option.join stored).map FilterUserInfo.iCount).getD 0) absent
    apply counted_of_update allocated
    case others =>
      intro other different
      exact lookup_hashMapInsert_other _ _ _ _ (key ▸ different)
    case length => exact hashLen_hashMapInsert _ _ _ _
    case same =>
      rw [← key, lookup_hashMapInsert_same, zero]
      rfl
    case room =>
      rw [zero]
      exact lt_max_of_lt_left Int.one_pos
  · have present := (findObject_eq_found_iff searchable).mp found
    rw [key] at present
    have stored : totalCount before.totalAD (totalRecord adv) =
        pUserInfo.iCount := by
      rw [totalCount]
      exact congrArg (fun stored =>
        ((Option.join stored).map FilterUserInfo.iCount).getD 0) present
    dsimp only at answered
    split_ifs at answered with full
    · simp at answered
    · simp only [Option.map_eq_some_iff, Prod.mk.injEq] at answered
      obtain ⟨iCount, counted, -, rfl⟩ := answered
      apply counted_of_update allocated
      case others =>
        intro other different
        exact lookup_writeValue_other _ (key ▸ different) _
      case length => rfl
      case same =>
        rw [key, lookup_writeValue_same, present, stored,
          SimpleCaps.eq_of_incrementInt counted]
        rfl
      case room =>
        rw [stored]
        exact lt_max_of_lt_right (not_le.mp full)

end Counter

/-! ## The blocks of the main loop -/

section Blocks

variable {conf : PopConf} {before : PopState} {pcMessage : Bytes}
  {psMqHttpMes : MqHttpMessage} {adv : CharPointer} {result : LoopResult}

theorem rulePopLoadBlackUri_eq {answer : Bool}
    (answered : rulePopLoadBlackUri conf psMqHttpMes = some answer) :
    answer =
      !isListed conf.blackUri (psMqHttpMes.host ++ psMqHttpMes.pcUri) := by
  simp only [rulePopLoadBlackUri, Option.map_eq_some_iff,
    store_eq_some_iff] at answered
  obtain ⟨_, ⟨-, rfl⟩, rfl⟩ := answered
  rfl

theorem shownPage_of_block {sites : HashMap Unit}
    (agreed : andAlso (isListedPage sites psMqHttpMes)
      (rulePopLoadBlackUri conf psMqHttpMes) = some true) :
    isListed sites psMqHttpMes.host = true ∧
      ShownPage conf psMqHttpMes := by
  rw [andAlso_eq_some_true_iff, isListedPage] at agreed
  obtain ⟨page, notBlack⟩ := agreed
  split_ifs at page with listed
  · refine ⟨listed, page, ?_⟩
    simpa using (rulePopLoadBlackUri_eq notBlack).symm
  · cases page

/-- A block that is passed by although the page is shown is switched off, or
it does not list the site. -/
theorem not_opened_of_block {sites : HashMap Unit} {switch : Int}
    (passedBy : andAlso (some (decide (switch = 1)))
      (andAlso (isListedPage sites psMqHttpMes)
        (rulePopLoadBlackUri conf psMqHttpMes)) = some false)
    (page : ShownPage conf psMqHttpMes) :
    ¬ (switch = 1 ∧ isListed sites psMqHttpMes.host = true) := by
  rintro ⟨on, listed⟩
  have shown : isListedPage sites psMqHttpMes = some true := by
    rw [isListedPage, if_pos listed, page.html]
  simp only [andAlso_eq_some_false_iff, shown, on, decide_true,
    Option.some.injEq, Bool.true_eq_false, true_and, false_or] at passedBy
  have black := rulePopLoadBlackUri_eq passedBy
  rw [page.notBlack] at black
  exact Bool.false_ne_true black

/-- A decider writes no table but its own, and authorises with it. -/
theorem decideAndSend_keeps {table : UserTable} {sender : Sender}
    {szTypeFlag : Bytes} {answer : Bool} {sent : Option Sent}
    {after : PopState}
    (taken :
      decideAndSend conf before pcMessage psMqHttpMes adv table sender
          szTypeFlag =
        some (answer, sent, after)) :
    after.totalAD = before.totalAD ∧
      ∀ message ∈ sent, message.table = .user table := by
  simp only [decideAndSend, Option.bind_eq_some_iff, Prod.exists] at taken
  obtain ⟨agreed, server, -, taken⟩ := taken
  split at taken
  · simp only [Option.map_eq_some_iff, Prod.mk.injEq] at taken
    obtain ⟨message, -, -, rfl, rfl⟩ := taken
    refine ⟨rfl, fun sent member => ?_⟩
    obtain ⟨_, -, rfl⟩ := Option.map_eq_some_iff.mp member
    rfl
  · cases taken
    simp

/-- What a part of the main loop does with `g_pTotalAD`, and when it sends a
message. -/
structure Outcome (conf : PopConf) (before : Totals)
    (psMqHttpMes : MqHttpMessage) (adv : Bytes) (sent : Option Sent)
    (after : Totals) : Prop where
  opened : ∀ message ∈ sent, ∃ table, message.table = .user table ∧
    ShownPage conf psMqHttpMes ∧ Opened conf psMqHttpMes.host table
  totals :
    after = before ∧
        (∀ message ∈ sent, ∀ table, message.table = .user table →
          IsSurplus table = false) ∨
      Counted conf adv before after

theorem Outcome.silent (totals : Totals) (sAd : Bytes) :
    Outcome conf totals psMqHttpMes sAd none totals where
  opened _ member := by simp at member
  totals := Or.inl ⟨rfl, fun _ member => by simp at member⟩

/-- A decider that is asked before or after the popup has been counted. -/
theorem decideAndSend_outcome {totals : Totals} {after : PopState}
    {table : UserTable} {sender : Sender} {szTypeFlag : Bytes} {answer : Bool}
    {sent : Option Sent}
    (page : ShownPage conf psMqHttpMes)
    (opened : Opened conf psMqHttpMes.host table)
    (counts :
      before.totalAD = totals ∧ IsSurplus table = false ∨
        Counted conf adv.text totals before.totalAD)
    (taken :
      decideAndSend conf before pcMessage psMqHttpMes adv table sender
          szTypeFlag =
        some (answer, sent, after)) :
    Outcome conf totals psMqHttpMes adv.text sent after.totalAD := by
  obtain ⟨same, authorised⟩ := decideAndSend_keeps taken
  rw [same]
  refine ⟨fun message member =>
    ⟨table, authorised message member, page, opened⟩, ?_⟩
  rcases counts with ⟨unchanged, early⟩ | counted
  · refine Or.inl ⟨unchanged, fun message member other equal => ?_⟩
    rw [authorised message member] at equal
    cases equal
    exact early
  · exact Or.inr counted

theorem handled_eq_some
    {decision : Option (Bool × Option Sent × PopState)}
    (finished : handled decision = some result) :
    ∃ answer, decision = some (answer, result.sent, result.state) := by
  simp only [handled, Option.map_eq_some_iff, Prod.exists] at finished
  obtain ⟨answer, sent, after, rfl, rfl⟩ := finished
  exact ⟨answer, rfl⟩

/-- The surplus is counted before a decider is asked. -/
theorem surplusBlock_outcome
    (allocated : TotalsAllocated before.totalAD)
    (closed1 : ShownPage conf psMqHttpMes →
      ¬ Targeted1 conf psMqHttpMes.host)
    (closed : ShownPage conf psMqHttpMes → ¬ Targeted conf psMqHttpMes.host)
    (finished :
      surplusBlock conf before pcMessage psMqHttpMes adv = some result) :
    Outcome conf before.totalAD psMqHttpMes adv.text result.sent
      result.state.totalAD := by
  simp only [surplusBlock, Option.bind_eq_some_iff] at finished
  obtain ⟨_ | _, asked, finished⟩ := finished
  · cases finished
    exact .silent _ _
  obtain ⟨listed, page⟩ := shownPage_of_block asked
  simp only [Option.bind_eq_some_iff, Prod.exists] at finished
  obtain ⟨_ | _, middle, answered, finished⟩ := finished
  · cases finished
    rw [checkPostAdCount_refused answered]
    exact .silent _ _
  have counted := checkPostAdCount_counted allocated answered
  simp only [Option.bind_eq_some_iff] at finished
  obtain ⟨_ | _, searched, finished⟩ := finished
  · dsimp only at finished
    split_ifs at finished with on
    · simp only [Option.map_eq_some_iff, Prod.exists] at finished
      obtain ⟨answer, sent, after, taken, rfl⟩ := finished
      have opened : Opened conf psMqHttpMes.host .surplusIP :=
        ⟨closed1 page, closed page, listed, on⟩
      exact decideAndSend_outcome page opened (Or.inr counted) taken
    · cases finished
      exact ⟨fun _ member => by simp at member, Or.inr counted⟩
  · rw [andAlso_eq_some_true_iff, Option.some.injEq, decide_eq_true_iff]
      at searched
    obtain ⟨answer, taken⟩ := handled_eq_some finished
    have opened : Opened conf psMqHttpMes.host .filterConditionIP :=
      ⟨closed1 page, closed page, listed, searched.1⟩
    exact decideAndSend_outcome page opened (Or.inr counted) taken

theorem popBlocks_outcome
    (allocated : TotalsAllocated before.totalAD)
    (finished :
      popBlocks conf before pcMessage psMqHttpMes adv = some result) :
    Outcome conf before.totalAD psMqHttpMes adv.text result.sent
      result.state.totalAD := by
  simp only [popBlocks, Option.bind_eq_some_iff] at finished
  obtain ⟨_ | _, asked1, finished⟩ := finished
  · simp only [Option.bind_eq_some_iff] at finished
    obtain ⟨_ | _, asked, finished⟩ := finished
    · exact surplusBlock_outcome allocated (not_opened_of_block asked1)
        (not_opened_of_block asked) finished
    · rw [andAlso_eq_some_true_iff, Option.some.injEq, decide_eq_true_iff]
        at asked
      obtain ⟨listed, page⟩ := shownPage_of_block asked.2
      obtain ⟨answer, taken⟩ := handled_eq_some finished
      have opened : Opened conf psMqHttpMes.host .targetIP :=
        ⟨not_opened_of_block asked1 page, asked.1, listed⟩
      exact decideAndSend_outcome page opened (Or.inl ⟨rfl, rfl⟩) taken
  · rw [andAlso_eq_some_true_iff, Option.some.injEq, decide_eq_true_iff]
      at asked1
    obtain ⟨listed, page⟩ := shownPage_of_block asked1.2
    obtain ⟨answer, taken⟩ := handled_eq_some finished
    have opened : Opened conf psMqHttpMes.host .targetIP1 :=
      ⟨asked1.1, listed⟩
    exact decideAndSend_outcome page opened (Or.inl ⟨rfl, rfl⟩) taken

/-! ## The loops -/

theorem totalAD_rulePopCalTotalIp {iTid : ThreadId} {after : PopState}
    {sAd : Bytes}
    (counted :
      rulePopCalTotalIp before iTid psMqHttpMes sAd = some after) :
    after.totalAD = before.totalAD := by
  simp only [rulePopCalTotalIp, Option.map_eq_some_iff] at counted
  obtain ⟨_, -, rfl⟩ := counted
  split <;> rfl

/-- The tests that do not end the main loop. -/
theorem passed_of_tests {sAd : Bytes}
    (legal : ¬ isUriHaveIllegalWord conf psMqHttpMes = true)
    (notBlack : ¬ rulePopLoadFileHost conf psMqHttpMes.host = true)
    (white : ¬ (!rulePopInTotalWhiteSite conf psMqHttpMes) = true)
    (notListed : ¬ checkAdUaBlack conf psMqHttpMes sAd = true)
    (kept : ¬ (!rulePopFilterIp conf psMqHttpMes.pcSrcIP sAd) = true) :
    Passed conf psMqHttpMes sAd := by
  rw [Bool.not_eq_true', Bool.not_eq_false] at white kept
  rw [Bool.not_eq_true] at notBlack
  rw [rulePopFilterIp] at kept
  split at kept
  case isTrue => cases kept
  case isFalse address =>
    constructor
    case legal =>
      intro word member
      rw [isUriHaveIllegalWord, List.any_eq_true] at legal
      rw [← Option.not_isSome_iff_eq_none]
      exact fun found => legal ⟨word, member, found⟩
    case site => exact notBlack
    case whiteSite => exact white
    case subscriber =>
      rw [checkAdUaBlack] at notListed
      split at notListed
      case isTrue long => exact Or.inr long
      case isFalse => exact Or.inl (Bool.not_eq_true _ ▸ notListed)
    case address => simpa using address
    case chosen => simpa using kept

/-- A request through the main loop: it ends at one of the lists, or the
blocks are reached. -/
theorem rulePopMainLoop_outcome
    (allocated : TotalsAllocated before.totalAD)
    (finished :
      rulePopMainLoop conf before pcMessage psMqHttpMes = some result) :
    (result.sent = none ∧ result.state.totalAD = before.totalAD) ∨
      ∃ adv, findRadius before psMqHttpMes = some (some adv) ∧
        Passed conf psMqHttpMes adv.text ∧
        Outcome conf before.totalAD psMqHttpMes adv.text result.sent
          result.state.totalAD := by
  have refused {state : PopState} (same : state.totalAD = before.totalAD)
      (ended : refuse state = some result) :
      result.sent = none ∧ result.state.totalAD = before.totalAD := by
    cases ended
    exact ⟨rfl, same⟩
  rw [rulePopMainLoop] at finished
  split at finished
  · exact Or.inl (refused rfl finished)
  rename_i legal
  simp only [Option.bind_eq_some_iff] at finished
  obtain ⟨_ | adv, subscribed, finished⟩ := finished
  · exact Or.inl (refused rfl finished)
  dsimp only at finished
  split at finished
  · exact Or.inl (refused rfl finished)
  rename_i notBlack
  split at finished
  · exact Or.inl (refused rfl finished)
  rename_i white
  simp only [Option.bind_eq_some_iff] at finished
  obtain ⟨middle, addressed, finished⟩ := finished
  have same := totalAD_rulePopCalTotalIp addressed
  split at finished
  · exact Or.inl (refused same finished)
  rename_i notListed
  split at finished
  · exact Or.inl (refused same finished)
  rename_i kept
  have passed : Passed conf psMqHttpMes adv.text :=
    passed_of_tests legal notBlack white notListed kept
  rw [← same] at allocated ⊢
  exact Or.inr ⟨adv, subscribed, passed,
    popBlocks_outcome allocated finished⟩

/-- The loop for searches has a table of its own. -/
theorem rulePopCrowdSearchLoop_totals
    (finished :
      rulePopCrowdSearchLoop conf before pcMessage psMqHttpMes =
        some result) :
    result.state.totalAD = before.totalAD := by
  simp only [rulePopCrowdSearchLoop, Option.bind_eq_some_iff] at finished
  obtain ⟨_ | adv, -, finished⟩ := finished
  · cases finished
    rfl
  dsimp only at finished
  split at finished
  · cases finished
    rfl
  split at finished
  · simp only [popAfterSearch, SimpleCaps.popAfterSendPopMessage_eq,
      Option.bind_eq_some_iff, Option.map_eq_some_iff, Prod.exists,
      Prod.mk.injEq] at finished
    obtain ⟨cTotalAdvId, -, answer, _, ⟨_, _, -, -, rfl⟩, finished⟩ :=
      finished
    cases answer with
    | false =>
        cases finished
        rfl
    | true =>
        simp only [Option.map_eq_some_iff] at finished
        obtain ⟨_, -, rfl⟩ := finished
        rfl
  · simp only [Option.map_eq_some_iff] at finished
    obtain ⟨_, -, rfl⟩ := finished
    rfl

end Blocks

/-! ## Runs -/

/-- A request, the subscriber that it was for, and the message that left. -/
structure Served where
  psMqHttpMes : MqHttpMessage
  subscriber : Option (Option CharPointer)
  sent : Option Sent

/-- The record whose number of popups the message belongs to. -/
def Served.surplusRecord (served : Served) : Option TotalRecord :=
  served.subscriber.join.bind fun adv =>
    served.sent.bind fun sent =>
      match sent.table with
      | .user table =>
          if IsSurplus table then some (totalRecord adv.text) else none
      | .afterSearch => none

/--
A request through one of the loops.

Since the last request the other threads may have written whatever they like
except `g_pTotalAD`, which `check_post_ad_count` alone reads and writes.
-/
inductive DispatchStep (conf : PopConf) (before : PopState) :
    Served → PopState → Prop where
  | request {loop : PopLoop} {start : PopState} {pcMessage : Bytes}
      {psMqHttpMes : MqHttpMessage} {result : LoopResult} :
      start.totalAD = before.totalAD →
      rulePopLoop loop conf start pcMessage psMqHttpMes = some result →
      DispatchStep conf before
        { psMqHttpMes := psMqHttpMes
          subscriber := findRadius start psMqHttpMes
          sent := result.sent }
        result.state

/-- A message that a decider authorised has been allowed. -/
def Served.Right (conf : PopConf) (served : Served) : Prop :=
  ∀ sent ∈ served.sent, ∀ table, sent.table = .user table →
    ∃ adv, served.subscriber = some (some adv) ∧
      Allowed conf served.psMqHttpMes adv.text table

/-- All messages were allowed; the numbers of the tables bound those of the
messages, and are bounded by the limit. -/
structure Dispatched (conf : PopConf) (history : List Served)
    (totals : Totals) : Prop where
  right : ∀ served ∈ history, served.Right conf
  allocated : TotalsAllocated totals
  counted : ∀ record,
    ((history.filterMap Served.surplusRecord).count record : Int) ≤
      totalCount totals record
  limited : ∀ record, totalCount totals record ≤ max 1 conf.adTotalCount

section Run

variable {conf : PopConf} {before after : PopState} {served : Served}

theorem dispatched_initial :
    Dispatched conf [] PopState.initial.totalAD where
  right _ member := by simp at member
  allocated _ := rfl
  counted _ := le_refl 0
  limited _ := le_max_of_le_left Int.one_nonneg

theorem right_append {history : List Served}
    (right : ∀ served ∈ history, served.Right conf)
    (last : served.Right conf) :
    ∀ other ∈ history ++ [served], other.Right conf := by
  intro other member
  rcases List.mem_append.mp member with earlier | new
  · exact right other earlier
  · rw [List.mem_singleton.mp new]
    exact last

/-- A message that is not counted changes nothing. -/
theorem Dispatched.uncounted {history : List Served} {totals : Totals}
    (dispatched : Dispatched conf history totals)
    (right : served.Right conf) (free : served.surplusRecord = none) :
    Dispatched conf (history ++ [served]) totals where
  right := right_append dispatched.right right
  allocated := dispatched.allocated
  counted record := by
    rw [List.filterMap_append]
    simpa [free] using dispatched.counted record
  limited := dispatched.limited

/-- A message that is counted, or that the decider has refused. -/
theorem Dispatched.next {history : List Served} {totals next : Totals}
    {adv : Bytes} (dispatched : Dispatched conf history totals)
    (right : served.Right conf) (counted : Counted conf adv totals next)
    (about : ∀ record ∈ served.surplusRecord, record = totalRecord adv) :
    Dispatched conf (history ++ [served]) next := by
  have room (record : TotalRecord) :
      (([served].filterMap Served.surplusRecord).count record : Int) +
          totalCount totals record ≤ totalCount next record := by
    by_cases same : record = totalRecord adv
    case pos =>
      rw [same, counted.same]
      have one : ([served].filterMap Served.surplusRecord).count
          (totalRecord adv) ≤ 1 :=
        List.count_le_length.trans (List.length_filterMap_le _ _)
      omega
    case neg =>
      have absent : ([served].filterMap Served.surplusRecord).count
          record = 0 := by
        apply List.count_eq_zero_of_not_mem
        intro member
        simp only [List.mem_filterMap, List.mem_singleton,
          exists_eq_left] at member
        exact same (about record member)
      rw [counted.others record same, absent]
      exact (Int.zero_add _).le
  constructor
  case right => exact right_append dispatched.right right
  case allocated => exact counted.allocated
  case counted =>
    intro record
    rw [List.filterMap_append, List.count_append, Nat.cast_add]
    have earlier := dispatched.counted record
    have now := room record
    omega
  case limited =>
    intro record
    by_cases same : record = totalRecord adv
    case pos =>
      rw [same]
      exact counted.limited
    case neg =>
      rw [counted.others record same]
      exact dispatched.limited record

/-- The message of the main loop, with what it leaves in the tables. -/
theorem Dispatched.main {history : List Served} {start : PopState}
    {pcMessage : Bytes} {psMqHttpMes : MqHttpMessage} {result : LoopResult}
    (dispatched : Dispatched conf history start.totalAD)
    (finished :
      rulePopMainLoop conf start pcMessage psMqHttpMes = some result) :
    Dispatched conf
      (history ++ [⟨psMqHttpMes, findRadius start psMqHttpMes, result.sent⟩])
      result.state.totalAD := by
  rcases rulePopMainLoop_outcome dispatched.allocated finished with
    ⟨silent, same⟩ | ⟨adv, subscribed, passed, outcome⟩
  · rw [silent, same]
    apply dispatched.uncounted
    case right => exact fun _ member => by simp at member
    case free => simp [Served.surplusRecord]
  have right : Served.Right conf
      ⟨psMqHttpMes, findRadius start psMqHttpMes, result.sent⟩ := by
    intro sent member table authorised
    obtain ⟨_, same, page, opened⟩ := outcome.opened sent member
    cases authorised.symm.trans same
    exact ⟨adv, subscribed, passed, page, opened⟩
  rcases outcome.totals with ⟨same, early⟩ | counted
  · rw [same]
    apply dispatched.uncounted right
    simp only [Served.surplusRecord, Option.bind_eq_none_iff]
    intro _ _ sent member
    cases authorised : sent.table with
    | user table =>
        simp [early sent (Option.mem_def.mpr member) table authorised]
    | afterSearch => rfl
  · apply dispatched.next right counted
    intro record member
    simp only [Served.surplusRecord, subscribed, Option.join_some,
      Option.bind_some, Option.mem_def, Option.bind_eq_some_iff] at member
    obtain ⟨sent, -, member⟩ := member
    split at member
    · split at member
      · exact (Option.some.inj member).symm
      · cases member
    · cases member

/-- The message of the loop for searches is not counted. -/
theorem Dispatched.crowdSearch {history : List Served} {start : PopState}
    {pcMessage : Bytes} {psMqHttpMes : MqHttpMessage} {result : LoopResult}
    (dispatched : Dispatched conf history start.totalAD)
    (finished :
      rulePopCrowdSearchLoop conf start pcMessage psMqHttpMes =
        some result) :
    Dispatched conf
      (history ++ [⟨psMqHttpMes, findRadius start psMqHttpMes, result.sent⟩])
      result.state.totalAD := by
  have own {sent : Sent} (member : sent ∈ result.sent) :
      sent.table = .afterSearch := by
    obtain ⟨_, -, authorised⟩ :=
      rulePopCrowdSearchLoop_sent finished member
    exact authorised
  rw [rulePopCrowdSearchLoop_totals finished]
  apply dispatched.uncounted
  case right =>
    intro sent member table authorised
    cases (own member).symm.trans authorised
  case free =>
    simp only [Served.surplusRecord, Option.bind_eq_none_iff]
    intro _ _ sent member
    rw [own member]

theorem Dispatched.step {history : List Served}
    (dispatched : Dispatched conf history before.totalAD)
    (taken : DispatchStep conf before served after) :
    Dispatched conf (history ++ [served]) after.totalAD := by
  cases taken with
  | @request loop start pcMessage psMqHttpMes result kept finished =>
      rw [← kept] at dispatched
      cases loop with
      | main => exact dispatched.main finished
      | crowdSearch => exact dispatched.crowdSearch finished

/--
In every run, every message of the main loop was allowed, and no record of a
subscriber has more messages for the surplus than the limit, or than one.
-/
theorem run_dispatched {labels : List Served} {last : PopState}
    (run : LabelledRun.Run (DispatchStep conf) .initial labels last) :
    (∀ served ∈ labels, served.Right conf) ∧
      ∀ record,
        ((labels.filterMap Served.surplusRecord).count record : Int) ≤
          max 1 conf.adTotalCount := by
  have dispatched : Dispatched conf labels last.totalAD :=
    @LabelledRun.Run.history _ _ _ _ _ _
      (fun history (state : PopState) =>
        Dispatched conf history state.totalAD)
      (fun dispatched taken => dispatched.step taken) run []
      dispatched_initial
  exact ⟨dispatched.right, fun record =>
    (dispatched.counted record).trans (dispatched.limited record)⟩

/-- One popup for the surplus. -/
theorem run_dispatched_sample :
    ∃ served last,
      LabelledRun.Run (DispatchStep samplePopConf) .initial [served] last ∧
      served.surplusRecord = some (totalRecord (ascii "user1")) ∧
      served.Right samplePopConf := by
  have dispatched :
      (rulePopLoop .main samplePopConf (samplePopState (ascii "user1"))
          sampleRequest sampleFields).map LoopResult.sent =
        some (some
          ⟨.user .surplusIP, samplePop (ascii "0") (ascii "0")⟩) := by
    decide +kernel
  obtain ⟨result, finished, sent⟩ := Option.map_eq_some_iff.mp dispatched
  have kept : (samplePopState (ascii "user1")).totalAD =
      PopState.initial.totalAD := rfl
  have taken := DispatchStep.request kept finished
  obtain ⟨right, -⟩ := run_dispatched (.single taken)
  refine ⟨_, _, .single taken, ?_, right _ (List.mem_singleton_self _)⟩
  have found :
      findRadius (samplePopState (ascii "user1")) sampleFields =
        some (some ⟨4096, ascii "user1"⟩) := by
    decide +kernel
  simp [Served.surplusRecord, found, sent, IsSurplus]

end Run

end WindowSystem.PopDispatch
