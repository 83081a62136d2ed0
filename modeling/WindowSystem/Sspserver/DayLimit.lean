import WindowSystem.Library.StagedCopy
import WindowSystem.Sspserver.AdSelection
import WindowSystem.Statistics.AdStatInfo

/-!
# The daily limit of an ad

`ckserver` counts the impressions of an ad in its hash, a timer of `adtimer`
collects the counts of all ads into one text in redis, and the ad server reads
this text and compares the counts with the daily limits.  The timer starts
from an empty object and leaves out an ad whose hash cannot be read, so that
the ad server counts zero for it.  The text of a JSON object is taken to be
read back as the object, and the text of a number as the number.
-/

namespace WindowSystem.Sspserver.DayLimit

open WindowSystem.Library
open WindowSystem.Library.LabelledRun
open WindowSystem.Library.StagedCopy (Move Renewed Seen Stages le_used)
open WindowSystem.Sspserver.AdRetrieval
open WindowSystem.Sspserver.AdSelection
open WindowSystem.Sspserver.JavaRuntime
open WindowSystem.Sspserver.Model
open WindowSystem.Statistics
open WindowSystem.Statistics.AdLogService

/-! ## The three programs -/

/-- The JSON object of the counts. -/
abbrev PvJson := JavaString → Option Int

/-- The hashes of the ads, the key `PVCount` of redis, and the copy of the ad
server. -/
structure System where
  ads : JavaString → AdStatInfo.System
  pvCount : Option PvJson
  jsonDayPvCount : Option PvJson

/-- `AdStatInfo.getToday_pv_num` -/
def System.todayPvNum (system : System) (adId : JavaString) : Option Int :=
  (system.ads adId).keys.main.numbers ⟨.today, .pv⟩

/-- The count in the hash; there is none in a missing field. -/
def System.number (system : System) (adId : JavaString) : Int :=
  (system.ads adId).keys.number ⟨.today, .pv⟩

/-- What happens to a run of the timer: the ads whose keys `keys` answers, the
ads whose hashes cannot be read, and the commands that fail. -/
structure Collection where
  order : List JavaString
  unread : JavaString → Bool
  delFails : Bool
  keysFails : Bool
  setFails : Bool

section Programs

variable (server : CkServer) (system : System)

/-- The key of the hash. -/
def adStatKey (adId : JavaString) : JavaString :=
  text "adstat_main_" ++ adId

/-- `strs[strs.length - 1]` -/
def adIdOfKey (key : JavaString) : JavaString :=
  (split '_' key).getLastD []

/-- What the loop does with the key of an ad.  An exception is caught, and a
missing number removes the entry. -/
def collectAd (collection : Collection) (adPvJson : PvJson)
    (adId : JavaString) : PvJson :=
  if collection.unread adId then adPvJson
  else if isBlank server.platform (adIdOfKey (adStatKey adId)) then adPvJson
  else
    Function.update adPvJson (adIdOfKey (adStatKey adId))
      (system.todayPvNum adId)

/-- The object after the loop. -/
def adPvJson (collection : Collection) : PvJson :=
  collection.order.foldl (collectAd server system collection) fun _ => none

/-- `PVCountCollectionTimerTask.run`; the text of an object is not blank. -/
def pvCountCollection (collection : Collection) : System :=
  if collection.delFails then system
  else if collection.keysFails then system
  else if collection.setFails then system
  else { system with pvCount := some (adPvJson server system collection) }

/-- `initDayPvCount` -/
def initDayPvCount (dayPvCountInfo : Option PvJson) : System :=
  match dayPvCountInfo with
  | none => system
  | some json => { system with jsonDayPvCount := some json }

/-- `DBInfoFresh.getPvCount`; the copy stays when redis does not answer. -/
def refreshPvCount (answered : Bool) : System :=
  if answered then initDayPvCount system system.pvCount else system

end Programs

/-- The run of the timer stores an object. -/
def Collection.stores (collection : Collection) : Bool :=
  !collection.delFails && !collection.keysFails && !collection.setFails

/-- A run of the timer stores an object or leaves the system as it is. -/
theorem pvCountCollection_eq (server : CkServer) (collection : Collection)
    (system : System) :
    pvCountCollection server system collection =
      { system with
        pvCount :=
          if collection.stores then
            some (adPvJson server system collection)
          else system.pvCount } := by
  rw [pvCountCollection, Collection.stores]
  cases collection.delFails <;> cases collection.keysFails <;>
    cases collection.setFails <;> rfl

/-- A refresh takes the object of redis if there is one. -/
theorem refreshPvCount_eq (system : System) (answered : Bool) :
    refreshPvCount system answered =
      { system with
        jsonDayPvCount :=
          if answered then system.pvCount.or system.jsonDayPvCount
          else system.jsonDayPvCount } := by
  obtain ⟨ads, pvCount, jsonDayPvCount⟩ := system
  cases answered with
  | false => rfl
  | true => cases pvCount <;> rfl

/-- The count of an ad in an object, which need not be there. -/
def countIn (json : Option PvJson) (advId : JavaString) : Int :=
  (json.bind fun json => json advId).getD 0

/-- `AdvWareHouse.getPvCount` -/
def System.getPvCount (system : System) (advId : JavaString) : Int :=
  countIn system.jsonDayPvCount advId

/-! ## Events -/

/-- A call of `ckserver`, the roll of the day, a run of the timer, a refresh
of the ad server and whether redis answers it, or a retrieval. -/
inductive Event where
  | request (request : AdLogService.Request)
  | dayRoll
  | collection (collection : Collection)
  | refresh (answered : Bool)
  | retrieval (call : AdRetrieval.Request) (plans : PlanMap) (draws : Draws)

/-- What an event does. -/
def act (server : CkServer) (system : System) : Event → System
  | .request request =>
      { system with
        ads := Function.update system.ads request.impressInfo.adId
          (AdStatInfo.serve server request
            (system.ads request.impressInfo.adId)) }
  | .dayRoll =>
      { system with
        ads := fun adId => AdStatInfo.dayRoll server adId (system.ads adId) }
  | .collection collection => pvCountCollection server system collection
  | .refresh answered => refreshPvCount system answered
  | .retrieval _ _ _ => system

/-- What redis and the ad server answer to the program. -/
def Answered (system : System) : Event → Prop
  | .collection collection =>
      collection.order.Nodup ∧
        (∀ adId, adId ∈ collection.order ↔
          (system.ads adId).keys.main.exists = true) ∧
        ∀ adId, collection.unread adId = true → adId ∈ collection.order
  | .retrieval call _ _ =>
      ∀ advId, call.readings.pvCount advId = system.getPvCount advId
  | _ => True

/-! ## What the limit is meant to be compared with -/

/-- When a run of the timer counts as a collection that could read the hash of
an ad: it got the hash, or it also stored what it got. -/
inductive Reading where
  | got
  | stored
deriving DecidableEq

/-- The run of the timer could read the hash of the ad. -/
def Collection.couldRead (collection : Collection) (reading : Reading)
    (adId : JavaString) : Bool :=
  !collection.delFails && !collection.keysFails &&
    !collection.unread adId &&
      (reading = .got || collection.stores)

/-- The count of every ad at the last collection that could read its hash, and
at the last one of these before the last refresh. -/
structure Ledger where
  collected : JavaString → Int
  used : JavaString → Int

/-- What an event adds to the ledger. -/
def Ledger.record (ledger : Ledger) (reading : Reading) (system : System) :
    Event → Ledger
  | .collection collection =>
      { ledger with
        collected := fun adId =>
          if collection.couldRead reading adId then system.number adId
          else ledger.collected adId }
  | .refresh true => { ledger with used := ledger.collected }
  | _ => ledger

/-- The system and its ledger. -/
structure Observed where
  system : System
  ledger : Ledger

/-- One event. -/
def Step (server : CkServer) (reading : Reading) (before : Observed)
    (event : Event) (after : Observed) : Prop :=
  Answered before.system event ∧
    after = ⟨act server before.system event,
      before.ledger.record reading before.system event⟩

/-- Nobody has counted or read anything. -/
def Observed.initial (now : Int) : Observed :=
  ⟨⟨fun _ => AdStatInfo.initial now, none, none⟩, ⟨fun _ => 0, fun _ => 0⟩⟩

/-- Nothing is lost by a collection: there is nothing to keep of an ad whose
hash it stores without having read it, and nothing new in what it read without
storing it. -/
def Lossless (reading : Reading) (before : Observed) : Event → Prop
  | .collection collection =>
      ∀ adId,
        if collection.stores then
          collection.couldRead reading adId = true ∨
            before.ledger.collected adId = 0
        else
          collection.couldRead reading adId = true →
            before.system.number adId = before.ledger.collected adId
  | _ => True

/-! ## The ids of ads -/

/-- What is used of the tables of characters: the underscore is not a digit,
and a digit is not white space. -/
structure Characters (platform : Platform) : Prop where
  underscore : platform.digit '_' = none
  visible : ∀ character, (platform.digit character).isSome = true →
    platform.isWhitespace character = false

variable {platform : Platform}

theorem isSome_digit_of_readDigits {value number : Nat}
    {string : JavaString}
    (read : readDigits platform value string = some number) :
    ∀ character ∈ string, (platform.digit character).isSome = true := by
  induction string generalizing value with
  | nil => nofun
  | cons first rest induction =>
      obtain ⟨digit, found, read⟩ := Option.bind_eq_some_iff.mp read
      intro character member
      rcases List.mem_cons.mp member with rfl | inside
      · rw [found]
        rfl
      · exact induction read character inside

/-- The characters of a number are digits and a sign, and there is a digit. -/
structure Numeric (platform : Platform) (string : JavaString) : Prop where
  characters : ∀ character ∈ string, character = '-' ∨ character = '+' ∨
    (platform.digit character).isSome = true
  digit : ∃ character ∈ string, (platform.digit character).isSome = true

theorem numeric_of_readNumber {string : JavaString} {number : Nat}
    (read : readNumber platform string = some number) :
    Numeric platform string := by
  rw [readNumber] at read
  split_ifs at read with empty
  have digits := isSome_digit_of_readDigits read
  obtain ⟨first, rest, rfl⟩ := List.exists_cons_of_ne_nil empty
  exact ⟨fun character member => .inr (.inr (digits character member)),
    first, List.mem_cons_self, digits first List.mem_cons_self⟩

theorem Numeric.cons {string : JavaString} {sign : Char}
    (numeric : Numeric platform string) (isSign : sign = '-' ∨ sign = '+') :
    Numeric platform (sign :: string) where
  characters character member := by
    rcases List.mem_cons.mp member with rfl | inside
    · exact isSign.elim .inl fun plus => .inr (.inl plus)
    · exact numeric.characters character inside
  digit := by
    obtain ⟨character, member, isDigit⟩ := numeric.digit
    exact ⟨character, List.mem_cons_of_mem _ member, isDigit⟩

theorem numeric_of_parseInt {string : JavaString}
    (number : (parseInt platform string).isSome = true) :
    Numeric platform string := by
  obtain ⟨value, parsed⟩ := Option.isSome_iff_exists.mp number
  unfold parseInt at parsed
  split at parsed
  · obtain ⟨n, read, _⟩ := Option.bind_eq_some_iff.mp parsed
    exact (numeric_of_readNumber read).cons (.inl rfl)
  · obtain ⟨n, read, _⟩ := Option.bind_eq_some_iff.mp parsed
    exact (numeric_of_readNumber read).cons (.inr rfl)
  · obtain ⟨n, read, _⟩ := Option.bind_eq_some_iff.mp parsed
    exact numeric_of_readNumber read

variable (characters : Characters platform) {adId : JavaString}

include characters

theorem Numeric.underscore (numeric : Numeric platform adId) :
    '_' ∉ adId := by
  intro member
  rcases numeric.characters '_' member with minus | plus | digit
  · cases minus
  · cases plus
  · rw [characters.underscore] at digit
    cases digit

theorem Numeric.not_isBlank (numeric : Numeric platform adId) :
    isBlank platform adId = false := by
  obtain ⟨character, member, isDigit⟩ := numeric.digit
  rw [isBlank, List.all_eq_false]
  refine ⟨character, member, ?_⟩
  rw [characters.visible character isDigit]
  exact Bool.false_ne_true

/-- The timer finds the id of an ad in the key of its hash. -/
theorem Numeric.adIdOfKey (numeric : Numeric platform adId) :
    adIdOfKey (adStatKey adId) = adId := by
  have plain := numeric.underscore characters
  obtain ⟨character, member, _⟩ := numeric.digit
  have split : (adStatKey adId).splitOn '_' =
      [text "adstat", text "main", adId] := by
    have key : adStatKey adId =
        text "adstat" ++ '_' :: (text "main" ++ '_' :: adId) := rfl
    rw [key, List.splitOn_append_cons_self_of_not_mem (by decide),
      List.splitOn_append_cons_self_of_not_mem (by decide),
      List.splitOn_eq_singleton plain]
  have present : '_' ∈ adStatKey adId :=
    List.mem_append_left _ (by decide)
  have nonempty : adId ≠ [] := List.ne_nil_of_mem member
  rw [DayLimit.adIdOfKey, JavaRuntime.split, if_pos present, split]
  simp [nonempty]

omit characters

/-! ## The hashes -/

variable {server : CkServer}

theorem main_serve_of_not_isImpVaild {request : AdLogService.Request}
    {ad : AdStatInfo.System}
    (refused : server.isImpVaild request.impressInfo = false) :
    (AdStatInfo.serve server request ad).keys.main = ad.keys.main := by
  have nothing : server.start request = .commands [] := by
    unfold CkServer.start
    rw [refused]
    rfl
  rw [AdStatInfo.serve, nothing]
  rfl

/-- A request of an ad whose id is not a number does not bring a hash into
being. -/
theorem numeric_of_exists_serve {request : AdLogService.Request}
    {ad : AdStatInfo.System}
    (known : ad.keys.main.exists = true →
      Numeric server.platform request.impressInfo.adId)
    (present :
      (AdStatInfo.serve server request ad).keys.main.exists = true) :
    Numeric server.platform request.impressInfo.adId := by
  cases valid : server.isImpVaild request.impressInfo with
  | true =>
      rw [CkServer.isImpVaild, Bool.and_eq_true] at valid
      exact numeric_of_parseInt valid.1
  | false =>
      rw [main_serve_of_not_isImpVaild valid] at present
      exact known present

/-- A request does not make a count smaller. -/
theorem number_le_serve (request : AdLogService.Request)
    (ad : AdStatInfo.System) :
    ad.keys.number ⟨.today, .pv⟩ ≤
      (AdStatInfo.serve server request ad).keys.number ⟨.today, .pv⟩ := by
  calc
    ad.keys.number ⟨.today, .pv⟩ ≤
        ad.keys.number ⟨.today, .pv⟩ +
          if server.counts ⟨.today, .pv⟩ request then 1 else 0 := by
      split_ifs <;> omega
    _ = (AdStatInfo.serve server request ad).keys.number ⟨.today, .pv⟩ :=
      (AdStatInfo.number_serve server request ad
        ⟨⟨.today, .pv⟩, by simp⟩).symm

theorem exists_of_exists_dayRoll {adId : JavaString}
    {ad : AdStatInfo.System}
    (present :
      (AdStatInfo.dayRoll server adId ad).keys.main.exists = true) :
    ad.keys.main.exists = true := by
  rw [AdStatInfo.dayRoll] at present
  split at present
  · rename_i rolls
    rw [AdStatInfo.rolls, Bool.and_eq_true] at rolls
    exact rolls.1
  · exact present

/-- The hash of a missing ad has no count. -/
theorem number_of_missing {system : System} {adId : JavaString}
    (missing : (system.ads adId).keys.main.exists = false) :
    system.number adId = 0 :=
  Redis.number_of_not_exists missing _

/-! ## The loop over the keys -/

section Loop

variable {system : System} {collection : Collection}

theorem collectAd_apply (characters : Characters server.platform)
    {adId : JavaString} (numeric : Numeric server.platform adId)
    (json : PvJson) (other : JavaString) :
    collectAd server system collection json adId other =
      if other = adId ∧ collection.unread adId = false then
        system.todayPvNum adId
      else json other := by
  rw [collectAd, numeric.adIdOfKey characters, numeric.not_isBlank characters]
  cases collection.unread adId with
  | true => simp
  | false =>
      by_cases same : other = adId
      · simp [same]
      · simp [same]

/-- The loop collects the count of every ad whose hash can be read. -/
theorem foldl_collectAd_apply (characters : Characters server.platform)
    {order : List JavaString}
    (numeric : ∀ adId ∈ order, Numeric server.platform adId) (json : PvJson)
    (adId : JavaString) :
    order.foldl (collectAd server system collection) json adId =
      if adId ∈ order ∧ collection.unread adId = false then
        system.todayPvNum adId
      else json adId := by
  induction order generalizing json with
  | nil => simp
  | cons first rest induction =>
      rw [List.foldl_cons, induction fun other member =>
        numeric other (List.mem_cons_of_mem _ member),
        collectAd_apply characters (numeric first List.mem_cons_self)]
      by_cases same : adId = first
      · subst same
        cases collection.unread adId with
        | true => simp
        | false => simp
      · simp [same]

end Loop

/-! ## The three copies -/

/-- The keys are those of ads whose ids are numbers, and the copies are those
of the ledger. -/
structure Agrees (platform : Platform) (observed : Observed) : Prop where
  numeric : ∀ adId,
    (observed.system.ads adId).keys.main.exists = true →
      Numeric platform adId
  collected : ∀ adId,
    countIn observed.system.pvCount adId = observed.ledger.collected adId
  used : ∀ adId,
    observed.system.getPvCount adId = observed.ledger.used adId
  unread : observed.system.pvCount = none →
    observed.system.jsonDayPvCount = none

theorem agrees_initial (now : Int) :
    Agrees platform (Observed.initial now) where
  numeric := nofun
  collected _ := rfl
  used _ := rfl
  unread _ := rfl

section Steps

variable {reading : Reading} {before after : Observed}

/-- The count of a stored object. -/
theorem countIn_adPvJson (characters : Characters server.platform)
    (agrees : Agrees server.platform before) {collection : Collection}
    (answered : Answered before.system (.collection collection))
    (adId : JavaString) :
    countIn (some (adPvJson server before.system collection)) adId =
      if collection.unread adId then 0 else before.system.number adId := by
  obtain ⟨_, keys, unread⟩ := answered
  have numeric : ∀ adId ∈ collection.order, Numeric server.platform adId :=
    fun adId member => agrees.numeric adId ((keys adId).mp member)
  have count : countIn (some (adPvJson server before.system collection))
      adId = ((collection.order.foldl
        (collectAd server before.system collection) fun _ => none)
          adId).getD 0 := rfl
  rw [count, foldl_collectAd_apply characters numeric]
  cases collection.unread adId with
  | true => simp
  | false =>
      by_cases member : adId ∈ collection.order
      · simp only [member, and_self, if_true]
        rfl
      · have missing := Bool.eq_false_iff.mpr (mt (keys adId).mpr member)
        rw [number_of_missing missing]
        simp [member]

theorem numeric_step (agrees : Agrees server.platform before)
    {event : Event} (adId : JavaString)
    (present :
      ((act server before.system event).ads adId).keys.main.exists = true) :
    Numeric server.platform adId := by
  cases event with
  | request request =>
      by_cases same : adId = request.impressInfo.adId
      · subst same
        simp only [act, Function.update_self] at present
        exact numeric_of_exists_serve (agrees.numeric _) present
      · simp only [act, Function.update_of_ne same] at present
        exact agrees.numeric adId present
  | dayRoll => exact agrees.numeric adId (exists_of_exists_dayRoll present)
  | collection collection =>
      apply agrees.numeric adId
      simpa only [act, pvCountCollection_eq] using present
  | refresh answered =>
      apply agrees.numeric adId
      simpa only [act, refreshPvCount_eq] using present
  | retrieval call plans draws => exact agrees.numeric adId present

/-- Redis has the counts of the ledger after a collection if and only if the
collection loses nothing. -/
theorem collected_collection_iff (characters : Characters server.platform)
    (agrees : Agrees server.platform before) {collection : Collection}
    (answered : Answered before.system (.collection collection)) :
    (∀ adId,
      countIn (pvCountCollection server before.system collection).pvCount
          adId =
        if collection.couldRead reading adId then before.system.number adId
        else before.ledger.collected adId) ↔
      Lossless reading before (.collection collection) := by
  apply forall_congr'
  intro adId
  rw [pvCountCollection_eq]
  cases stores : collection.stores with
  | false =>
      simp only [Bool.false_eq_true, if_false]
      rw [agrees.collected]
      split_ifs with read
      · simp only [read, forall_const, eq_comm]
      · simp only [read, Bool.false_eq_true, false_implies]
  | true =>
      simp only [if_true]
      rw [countIn_adPvJson characters agrees answered]
      have read : collection.couldRead reading adId =
          !collection.unread adId := by
        rw [Collection.stores, Bool.and_eq_true] at stores
        rw [Collection.couldRead, stores.1, Collection.stores, stores.1,
          stores.2]
        simp
      rw [read]
      cases collection.unread adId with
      | true => simp [eq_comm]
      | false => simp

/-- A refresh takes what redis has. -/
theorem taken_pvCount (agrees : Agrees platform before) :
    before.system.pvCount.or before.system.jsonDayPvCount =
      before.system.pvCount := by
  cases stored : before.system.pvCount with
  | none => exact agrees.unread stored
  | some json => rfl

/-- One step of a run in which nothing is lost. -/
theorem agrees_step (characters : Characters server.platform)
    (agrees : Agrees server.platform before) {event : Event}
    (taken : Lossless reading before event ∧
      Step server reading before event after) :
    Agrees server.platform after := by
  obtain ⟨lossless, answered, rfl⟩ := taken
  constructor
  case numeric => exact numeric_step agrees
  case collected =>
      intro adId
      cases event with
      | collection collection =>
          exact (collected_collection_iff characters agrees answered).mpr
            lossless adId
      | refresh isAnswered =>
          rw [act, refreshPvCount_eq]
          cases isAnswered <;> exact agrees.collected adId
      | _ => exact agrees.collected adId
  case used =>
      intro adId
      cases event with
      | collection collection =>
          rw [act, pvCountCollection_eq]
          exact agrees.used adId
      | refresh isAnswered =>
          rw [act, refreshPvCount_eq]
          cases isAnswered with
          | false => exact agrees.used adId
          | true =>
              refine Eq.trans ?_ (agrees.collected adId)
              exact congrArg (countIn · adId) (taken_pvCount agrees)
      | _ => exact agrees.used adId
  case unread =>
      intro missing
      cases event with
      | collection collection =>
          rw [act, pvCountCollection_eq] at missing ⊢
          dsimp only at missing ⊢
          split_ifs at missing
          exact agrees.unread missing
      | refresh isAnswered =>
          rw [act, refreshPvCount_eq] at missing ⊢
          rw [agrees.unread missing, missing]
          cases isAnswered <;> rfl
      | _ => exact agrees.unread missing

end Steps

/-! ## One ad -/

/-- The count of an ad in its hash and in the ledger. -/
def Observed.stages (observed : Observed) (adId : JavaString) : Stages Int :=
  ⟨observed.system.number adId, observed.ledger.collected adId,
    observed.ledger.used adId⟩

/-- What an event does with the count of an ad. -/
def Event.moves (reading : Reading) (adId : JavaString) : Event → List Move
  | .request _ => [.grow]
  | .dayRoll => [.reset]
  | .collection made =>
      if made.couldRead reading adId then [.collect] else []
  | .refresh true => [.take]
  | .refresh false => []
  | .retrieval _ _ _ => []

section Stages

variable {reading : Reading} {before after : Observed}

theorem number_le_request (request : AdLogService.Request) (system : System)
    (adId : JavaString) :
    system.number adId ≤
      (act server system (.request request)).number adId := by
  simp only [System.number, act]
  by_cases same : adId = request.impressInfo.adId
  · subst same
    rw [Function.update_self]
    exact number_le_serve request _
  · rw [Function.update_of_ne same]

theorem run_moves {event : Event} (adId : JavaString)
    (taken : Step server reading before event after) :
    Run StagedCopy.Step (before.stages adId) (event.moves reading adId)
      (after.stages adId) := by
  obtain ⟨_, rfl⟩ := taken
  cases event with
  | request request =>
      apply Run.single
      exact ⟨number_le_request request before.system adId, rfl, rfl⟩
  | dayRoll =>
      apply Run.single
      exact ⟨rfl, rfl⟩
  | collection made =>
      have same : (act server before.system (.collection made)).number adId =
          before.system.number adId := by
        rw [act, pvCountCollection_eq]
        rfl
      simp only [Observed.stages, same, Event.moves, Ledger.record]
      split_ifs
      · exact .single rfl
      · exact .nil _
  | refresh answered =>
      have same : (act server before.system (.refresh answered)).number adId =
          before.system.number adId := by
        rw [act, refreshPvCount_eq]
        rfl
      simp only [Observed.stages, same]
      cases answered with
      | false => exact .nil _
      | true => exact .single rfl
  | retrieval call plans draws => exact .nil _

/-- A count that has come into use is a lower bound until the day has been
rolled and the ad collected and taken again. -/
theorem number_le_used {events : List Event} (adId : JavaString)
    (run : Run (Step server reading) before events after)
    (seen : Seen (events.flatMap (Event.moves reading adId)))
    (fresh : ¬ Renewed (events.flatMap (Event.moves reading adId))) :
    before.system.number adId ≤ after.ledger.used adId := by
  have staged := run.simulate (Observed.stages · adId)
    (Event.moves reading adId) (fun _ => True)
    (fun _ taken => ⟨trivial, run_moves adId taken⟩) trivial
  exact le_used staged le_rfl seen fresh

end Stages

/-! ## Retrievals -/

/-- The ad, or the plan of Vizury, of the outcome of a retrieval. -/
def Delivers (outcome : Option AdProperty) (adId : JavaString) : Prop :=
  ∃ adProperty, outcome = some adProperty ∧
    (adProperty.adId = some adId ∨ adProperty.vizuryAdId = some adId)

theorem eligible_of_delivers {call : AdRetrieval.Request} {plans : PlanMap}
    {draws : Draws} {outcome : Option AdProperty} {adId : JavaString}
    (numbered : Numbered call plans)
    (returned : (adRetrieveCommonForVaolanPush call plans draws).result =
      some outcome) (delivers : Delivers outcome adId) :
    ∃ advPlan, Eligible call plans advPlan ∧ advPlan.advId = adId := by
  obtain ⟨lists, filtered, chosen⟩ := Option.bind_eq_some_iff.mp returned
  obtain ⟨adProperty, rfl, shown⟩ := delivers
  have sound := (soundOutcome_choose (sorted_filterLoop filtered) numbered
    chosen).sound rfl
  rcases shown with shown | shown
  · obtain ⟨advPlan, _, eligible, same, _⟩ := sound.chosen shown
    exact ⟨advPlan, eligible, same⟩
  · exact sound.vizury shown

/-- A plan whose limit is reached is not delivered. -/
theorem not_delivers_of_isBeyondDayLimit {call : AdRetrieval.Request}
    {plans : PlanMap} {draws : Draws} {outcome : Option AdProperty}
    {advPlan : AdvPlan} (numbered : Numbered call plans)
    (loaded : advPlan ∈ plans.plans)
    (reached : Filters.isBeyondDayLimit call.readings advPlan = false)
    (returned : (adRetrieveCommonForVaolanPush call plans draws).result =
      some outcome) : ¬ Delivers outcome advPlan.advId := by
  intro delivers
  obtain ⟨other, eligible, same⟩ :=
    eligible_of_delivers numbered returned delivers
  have equal : other = advPlan := by
    have one := PlanMap.get_eq_some_iff.mpr ⟨eligible.loaded, same⟩
    rw [PlanMap.get_eq_some_iff.mpr ⟨loaded, rfl⟩] at one
    exact (Option.some_inj.mp one).symm
  have passed := eligible.adPlan
  rw [equal, Filters.adPlanFilter, MissingResult.andAlso_eq_some_true_iff,
    reached] at passed
  cases passed.1

/-- The limits hold from end to end: a retrieval compares them with the counts
of the ledger, an ad whose count has come into use is not delivered as long as
its limit is not above this count and the day has not been renewed, and a
collection followed by a refresh leaves the count of an ad whose hash it could
not read. -/
structure Enforced (server : CkServer) (reading : Reading)
    (before : Observed) (later : List Event) (state : Observed) : Prop where
  compared {call : AdRetrieval.Request} {plans : PlanMap} {draws : Draws}
    (answered : Answered state.system (.retrieval call plans draws))
    (advPlan : AdvPlan) :
    Filters.isBeyondDayLimit call.readings advPlan =
      decide (state.ledger.used advPlan.advId <
        advPlan.adTimeFrequency.dayLimit)
  stopped {call : AdRetrieval.Request} {plans : PlanMap} {draws : Draws}
    {outcome : Option AdProperty} {advPlan : AdvPlan}
    (answered : Answered state.system (.retrieval call plans draws))
    (numbered : Numbered call plans) (loaded : advPlan ∈ plans.plans)
    (reached : advPlan.adTimeFrequency.dayLimit ≤
      before.system.number advPlan.advId)
    (seen : Seen (later.flatMap (Event.moves reading advPlan.advId)))
    (fresh : ¬ Renewed (later.flatMap (Event.moves reading advPlan.advId)))
    (returned : (adRetrieveCommonForVaolanPush call plans draws).result =
      some outcome) : ¬ Delivers outcome advPlan.advId
  kept {collection : Collection} {collected refreshed : Observed}
    (collects : Lossless reading state (.collection collection) ∧
      Step server reading state (.collection collection) collected)
    (refreshes : Step server reading collected (.refresh true) refreshed)
    {adId : JavaString} (unread : collection.couldRead reading adId = false) :
    refreshed.system.getPvCount adId =
      (refreshPvCount state.system true).getPvCount adId

/-- In runs in which nothing is lost by a collection the daily limits hold
from end to end. -/
theorem dayLimit_enforced (server : CkServer)
    (characters : Characters server.platform) (reading : Reading) (now : Int)
    (earlier later : List Event) (before state : Observed)
    (start : Run
      (fun before event after =>
        Lossless reading before event ∧
          Step server reading before event after)
      (.initial now) earlier before)
    (run : Run
      (fun before event after =>
        Lossless reading before event ∧
          Step server reading before event after) before later state) :
    Enforced server reading before later state := by
  have agreesBefore : Agrees server.platform before :=
    start.invariant (fun holds taken => agrees_step characters holds taken)
      (agrees_initial now)
  have agrees : Agrees server.platform state :=
    run.invariant (fun holds taken => agrees_step characters holds taken)
      agreesBefore
  have compared {call : AdRetrieval.Request} {plans : PlanMap} {draws : Draws}
      (answered : Answered state.system (.retrieval call plans draws))
      (advPlan : AdvPlan) :
      Filters.isBeyondDayLimit call.readings advPlan =
        decide (state.ledger.used advPlan.advId <
          advPlan.adTimeFrequency.dayLimit) := by
    rw [Filters.isBeyondDayLimit, answered, agrees.used]
  constructor
  case compared => exact compared
  case stopped =>
      intro call plans draws outcome advPlan answered numbered loaded reached
        seen fresh returned
      apply not_delivers_of_isBeyondDayLimit numbered loaded ?_ returned
      have bound := number_le_used advPlan.advId (run.mono fun both => both.2)
        seen fresh
      rw [compared answered, decide_eq_false_iff_not, not_lt]
      exact reached.trans bound
  case kept =>
      intro collection collected refreshed collects refreshes adId unread
      have agreesCollected := agrees_step characters agrees collects
      have quiet : Lossless reading collected (.refresh true) := trivial
      have agreesRefreshed := agrees_step characters agreesCollected
        ⟨quiet, refreshes⟩
      obtain ⟨_, _, rfl⟩ := collects
      obtain ⟨_, rfl⟩ := refreshes
      have taken := congrArg (countIn · adId) (taken_pvCount agrees)
      rw [agreesRefreshed.used, refreshPvCount_eq]
      refine Eq.trans ?_ (taken.trans (agrees.collected adId)).symm
      exact if_neg (Bool.eq_false_iff.mp unread)

/-! ## An ad that was shown once -/

/-- The ad is shown once. -/
def shownOnce : Event :=
  .request (.savePvInfo (CkServer.impressionOf (text "u") (text "1.1.1.1"))
    [])

/-- A run of the timer that finds the hash of the ad, and whether it can read
it. -/
def collectionOf (readable stored : Bool) : Event :=
  .collection ⟨[text "7"], fun adId => adId = text "7" && !readable, false,
    false, !stored⟩

/-- The state after some events. -/
def observe (reading : Reading) (events : List Event) : Observed :=
  events.foldl
    (fun before event =>
      ⟨act CkServer.plain before.system event,
        before.ledger.record reading before.system event⟩)
    (.initial 0)

/-- A plan of the ad for one impression a day. -/
def onceADay : PlanMap :=
  planMap
    [{ samplePlan "7" with
      adAcctTargetFilters := [text "account"]
      adTimeFrequency := ⟨1, [], []⟩ }] (by decide +kernel)

/-- A request of a page, and the counts of the ad server. -/
def callAt (system : System) : AdRetrieval.Request :=
  { sampleCall (sampleElement "4" "") with
    readings := { sampleReadings with pvCount := system.getPvCount } }

theorem characters_asciiPlatform : Characters asciiPlatform where
  underscore := by decide
  visible character isDigit := by
    have digit : '0' ≤ character ∧ character ≤ '9' := by
      by_contra outside
      have none : asciiPlatform.digit character = none := if_neg outside
      rw [none] at isDigit
      cases isDigit
    simp only [asciiPlatform, char_le_iff, Bool.or_eq_false_iff,
      Bool.and_eq_false_iff, decide_eq_false_iff_not, ← Char.toNat_inj,
      Char.reduceToNat] at digit ⊢
    omega

/-- The timer finds the one hash. -/
theorem answered_collectionOf {system : System}
    (same : system.ads = (observe .got [shownOnce]).system.ads)
    (readable stored : Bool) :
    Answered system (collectionOf readable stored) := by
  refine ⟨List.nodup_singleton _, ?_, ?_⟩
  · intro adId
    rw [same, List.mem_singleton]
    by_cases seven : adId = text "7"
    · subst seven
      decide +kernel
    · have other : (observe .got [shownOnce]).system.ads adId =
          AdStatInfo.initial 0 := Function.update_of_ne seven _ _
      rw [other]
      exact iff_of_false seven nofun
  · intro adId unread
    rw [Bool.and_eq_true, decide_eq_true_eq] at unread
    exact List.mem_singleton.mpr unread.1

theorem couldRead_readable (stored : Bool) (adId : JavaString) :
    Collection.couldRead
      ⟨[text "7"], fun adId => adId = text "7" && !true, false, false,
        !stored⟩ .got adId = true := by
  simp [Collection.couldRead]

theorem numbered_onceADay (system : System) :
    Numbered (callAt system) onceADay := by
  apply @numbered_digits (sampleElement "4" "")
  rw [onceADay, plans_planMap]
  decide +kernel

/-- The count is collected and taken; afterwards the hash cannot be read and
the object cannot be stored. -/
def collectedOnce : List Event :=
  [collectionOf true true, .refresh true, collectionOf false false,
    .refresh false, .refresh true]

theorem onceADay_stopped :
    ∃ state : Observed,
      state.ledger.used (text "7") = 1 ∧
      Enforced CkServer.plain .got (observe .got [shownOnce]) collectedOnce
        state ∧
      ∀ outcome,
        (adRetrieveCommonForVaolanPush (callAt state.system) onceADay
          firstDraws).result = some outcome →
          ¬ Delivers outcome (text "7") := by
  have start : Run
      (fun before event after =>
        Lossless .got before event ∧
          Step CkServer.plain .got before event after)
      (.initial 0) [shownOnce] (observe .got [shownOnce]) :=
    .single ⟨trivial, trivial, rfl⟩
  have run : Run
      (fun before event after =>
        Lossless .got before event ∧
          Step CkServer.plain .got before event after)
      (observe .got [shownOnce]) collectedOnce
      (observe .got (shownOnce :: collectedOnce)) := by
    refine .cons ⟨?_, answered_collectionOf rfl _ _, rfl⟩
      (.cons ⟨trivial, trivial, rfl⟩
        (.cons ⟨?_, answered_collectionOf rfl _ _, rfl⟩
          (.cons ⟨trivial, trivial, rfl⟩
            (.cons ⟨trivial, trivial, rfl⟩ (.nil _)))))
    · exact fun adId => .inl (couldRead_readable true adId)
    · exact fun adId _ => (if_pos (couldRead_readable true adId)).symm
  have enforced := dayLimit_enforced CkServer.plain characters_asciiPlatform
    .got 0 _ _ _ _ start run
  refine ⟨_, ?_, enforced, ?_⟩
  · decide +kernel
  · intro outcome returned
    apply @Enforced.stopped _ _ _ _ _ enforced
      (callAt (observe .got (shownOnce :: collectedOnce)).system) onceADay
      firstDraws outcome
      { samplePlan "7" with
        adAcctTargetFilters := [text "account"]
        adTimeFrequency := ⟨1, [], []⟩ }
    case answered => exact fun _ => rfl
    case numbered => exact numbered_onceADay _
    case loaded => exact List.mem_singleton_self _
    case reached => decide +kernel
    case seen => decide +kernel
    case fresh => decide +kernel
    case returned => exact returned

/-- The count is collected and taken; then the hash cannot be read once. -/
def liftedLimit : List Event :=
  [shownOnce, collectionOf true true, .refresh true, collectionOf false true,
    .refresh true]

/-- The object that is stored without the ad lifts its limit. -/
theorem lifted_limit :
    ∃ state : Reading → Observed, ∀ reading,
      Run (Step CkServer.plain reading) (.initial 0) liftedLimit
        (state reading) ∧
      (state reading).ledger.used (text "7") = 1 ∧
      (state reading).system.getPvCount (text "7") = 0 ∧
      ∃ outcome,
        (adRetrieveCommonForVaolanPush (callAt (state reading).system)
          onceADay firstDraws).result = some outcome ∧
        Delivers outcome (text "7") := by
  refine ⟨fun reading => observe reading liftedLimit, ?_⟩
  intro reading
  refine ⟨?_, ?_, ?_, ?_⟩
  · exact .cons ⟨trivial, rfl⟩
      (.cons ⟨answered_collectionOf rfl _ _, rfl⟩
        (.cons ⟨trivial, rfl⟩
          (.cons ⟨answered_collectionOf rfl _ _, rfl⟩
            (.cons ⟨trivial, rfl⟩ (.nil _)))))
  · cases reading <;> decide +kernel
  · cases reading <;> decide +kernel
  · have shown :
        ((adRetrieveCommonForVaolanPush
          (callAt (observe reading liftedLimit).system) onceADay
            firstDraws).result.join.bind AdProperty.adId) =
          some (text "7") := by
      cases reading <;> decide +kernel
    obtain ⟨adProperty, returned, equal⟩ := Option.bind_eq_some_iff.mp shown
    exact ⟨some adProperty, Option.join_eq_some_iff.mp returned, adProperty,
      rfl, .inl equal⟩

end WindowSystem.Sspserver.DayLimit
