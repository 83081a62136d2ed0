import WindowSystem.Adserver.AdMaterialService
import WindowSystem.Library.Transaction

/-!
# An edit of a plan is all or nothing

`editAdPlan` removes the rows of a plan and inserts those of the form, in one
transaction that is rolled back when an exception leaves the method; before it
returns it writes the cached creatives of the plan.  This module follows its
statements, redis commands and string operations, each of which may fail.
Some of the failures are caught, and the cache is not rolled back.
-/

namespace WindowSystem.Admanager.EditAdPlan

open WindowSystem.Adserver.AdMaterialService
open WindowSystem.Admanager.AdPlanManage
open WindowSystem.Library.FieldHash
open WindowSystem.Library.MissingResult
open WindowSystem.Library.Transaction
open WindowSystem.Sspserver.JavaRuntime

/-! ## The rows of a plan -/

/-- The tables with rows for a plan, apart from `ad_instance`, the tables of
its creatives, and those of its check processes. -/
inductive Table where
  | adTimeFilter
  | adSite
  | adIpTargeting
  | adplanKeyword
  | adTLink
  | adDeviceLink
  | adTimeFrequency
  | adUserFrequency
  | adRegionLink
  | allLabelAdplan
  | adCrowdLink
deriving DecidableEq

/-- The arguments of an insert statement apart from the id of the plan. -/
abbrev Row := List (Option JavaString)

/-- The columns that `updateAdInstance` copies from the form. -/
structure AdInstanceDto where
  adName : Option JavaString
  adDesc : Option JavaString
  chargeType : Option JavaString
  startTime : Option JavaString
  endTime : Option JavaString
  unitPrice : Option JavaString
  allBudget : Option JavaString
  dayBudget : Option JavaString
  ad3statCode : Option JavaString
  ad3statCodeSub : Option JavaString
  channel : Option JavaString
  total : Option JavaString
  maxCpmBidprice : Option JavaString
deriving DecidableEq

/-- All rows of a plan. -/
structure Rows where
  adInstance : AdInstanceDto
  ad3statCodeTemp : Option JavaString
  plan : Plan
  tables : Table → List Row

/-- `delete from .. where ad_id = ?` -/
def Rows.delete (table : Table) (rows : Rows) : Rows :=
  { rows with tables := Function.update rows.tables table [] }

/-- `insert into ..`, once for each row. -/
def Rows.insertAll (table : Table) (list : List Row) (rows : Rows) : Rows :=
  { rows with
    tables := Function.update rows.tables table (rows.tables table ++ list) }

/-! ## The form -/

/-- `KeyWordAdPlan` -/
structure KeyWordAdPlan where
  keyWd : Option JavaString
  fetchCicle : Option JavaString
  isJisoujitou : Option JavaString
  searchType : Option JavaString
  searchDate : Option JavaString
  matchType : Option JavaString
  kwFilePath : Option JavaString

/-- `AdTimeFrequencyDto` -/
structure AdTimeFrequencyDto where
  putIntervalUnit : Option JavaString
  putIntervalNum : Option JavaString
  dayLimit : Option JavaString
  minLimit : Option JavaString
  isUniform : Option JavaString

/-- `AdUserFrequencyDto` -/
structure AdUserFrequencyDto where
  timeUnit : Option JavaString
  uidImpressNum : Option JavaString
  uidIpNum : Option JavaString

/-- `AdPlanManageInfoDto` and the request: `kwfilepath` is the size of the
file, a request without one is `some none`, and `none` is one that is not
`MultipartHttpServletRequest`. -/
structure Form where
  adDto : AdPlanManageInfoDto
  adInstanceDto : AdInstanceDto
  kwfilepath : Option (Option Nat)
  kwFileName : Option JavaString
  keyWordAdPlan : Option KeyWordAdPlan
  putHours : JavaString
  crowdSeledIds : JavaString
  whiteAdSites : JavaString
  blackAdSites : JavaString
  backUrlSite : JavaString
  whiteIps : JavaString
  blackIps : JavaString
  regionCodes : JavaString
  allLabelCodes : JavaString
  adDeviceIds : JavaString
  adTimeFrequencyDto : Option AdTimeFrequencyDto
  adUserFrequencyDto : Option AdUserFrequencyDto

/-- `RegionTargeting` -/
structure RegionTargeting where
  code : JavaString
  parentCode : JavaString
  name : JavaString

/-- What the method finds: its plan and its time, the other tables, the
property `kw.directory`, the type of the user, if it is one of those whose
advertisements are checked, and what the queries return for the old rows. -/
structure Environment where
  platform : Platform
  adId : Int
  ctStr : JavaString
  db : Database
  regionTargeting : List RegionTargeting
  kwDirectory : Option JavaString
  user : Option UserType
  returned : Returned

/-! ## Points of failure -/

/-- The helpers that insert rows in a loop. -/
inductive Helper where
  | addPlanTime
  | addPlanCrowd
  | addPlanMaterial
  | whiteAdSites
  | blackAdSites
  | addBackUrlSites
  | whiteIps
  | blackIps
  | addAdRegionLink
  | addAdAllLabel
  | addDeviceLink
  | adTimeFrequency
  | adUserFrequency
deriving DecidableEq

/-- A statement, a redis command or a string operation. -/
inductive Point where
  | checkAdUrl
  | updateAdInstance
  | delete (table : Table)
  | findAdMLinkDtoByAdId
  | delAdMaterialLinks
  | deleteAdExtLinkByAdId
  | getFile
  | fileName
  | transferTo
  | uploadFtp
  | deleteKwFile
  | keyWd
  | insertKeyword
  | insertKwFile
  | insert (helper : Helper) (index : Nat)
  | insertAdExtLink
  | updateAdExtLink
  | findInCache
  | cacheDel
  | cacheHset (index : Nat)
  | getAdInstanceDtoByAdId
  | deleteAdCheckProcessByAdId
  | updateAdInstanceByAdId
deriving DecidableEq

/-! ## String operations -/

/-- The parts of a text between the ends of its lines. -/
def pieces : JavaString → List JavaString
  | [] => [[]]
  | '\r' :: '\n' :: rest => [] :: pieces rest
  | character :: rest =>
      match pieces rest with
      | [] => [[character]]
      | piece :: others => (character :: piece) :: others

/-- `split("\r\n")` -/
def splitLines (string : JavaString) : List JavaString :=
  match pieces string with
  | [piece] => [piece]
  | list => (list.reverse.dropWhile (· = [])).reverse

/-- `trim` -/
def trim (string : JavaString) : JavaString :=
  ((string.dropWhile (· ≤ ' ')).reverse.dropWhile (· ≤ ' ')).reverse

/-- The parts of a text between the matches of the pattern `.txt`, whose first
character is any but the end of a line. -/
def piecesTxt : JavaString → List JavaString
  | [] => [[]]
  | character :: rest =>
      if rest.take 3 = text "txt" ∧
          character ∉ ['\n', '\r', '\u0085', '\u2028', '\u2029'] then
        [] :: piecesTxt (rest.drop 3)
      else
        match piecesTxt rest with
        | [] => [[character]]
        | piece :: others => (character :: piece) :: others
termination_by string => string.length
decreasing_by
  · simp only [List.length_cons, List.length_drop]
    omega
  · exact Nat.lt_succ_self _

/-- `split(".txt")` -/
def splitTxt (string : JavaString) : List JavaString :=
  match piecesTxt string with
  | [piece] => [piece]
  | list => (list.reverse.dropWhile (· = [])).reverse

/-! ## `addPlanKeyword` -/

section Keywords

variable (env : Environment) (form : Form)

/-- The file is stored: its name is not empty, and neither is the file. -/
def Form.uploads (form : Form) : Option Bool :=
  if form.kwFileName = some [] then some false
  else form.kwfilepath.join.map fun size => decide (0 < size)

/-- The name under which a file is stored: without its directories, and with
the id of the plan. -/
def uploadName (kwFileName : JavaString) : Option JavaString :=
  let filenames := split '\\' kwFileName
  let fileName :=
    if filenames.length = 3 then filenames.getLastD [] else kwFileName
  (splitTxt fileName).head?.map fun stem =>
    if (split '_' stem)[1]? = some (valueOf env.adId) then fileName
    else stem ++ text "_" ++ valueOf env.adId ++ text ".txt"

/-- `getKwFileName` after the file was stored. -/
def storedFileName : Option (Option JavaString) :=
  form.uploads.bind fun uploads =>
    if uploads then (form.kwFileName.bind (uploadName env)).map some
    else some form.kwFileName

/-- The lines of the keywords that are not empty. -/
def keywordLines (keyWd : JavaString) : List JavaString :=
  (splitLines keyWd).filter (· ≠ [])

/-- The keywords with commas, one too many. -/
def keywords (lines : List JavaString) : JavaString :=
  lines.flatMap (· ++ text ",")

/-- `keywords.trim().substring(0, keywords.length() - 1)` -/
def trimmedKeywords (lines : List JavaString) : Option JavaString :=
  let length := (keywords lines).length - 1
  if length ≤ (trim (keywords lines)).length then
    some ((trim (keywords lines)).take length)
  else none

/-- The row of `insertAdPlanKeyWord`. -/
def keywordRow (keyWord : KeyWordAdPlan) (keyWd : Option JavaString)
    (kwType : JavaString) (kwFilePath : Option JavaString) : Row :=
  [keyWd, keyWord.fetchCicle, keyWord.isJisoujitou, keyWord.searchType,
    some (text "A"), keyWord.searchDate, keyWord.matchType, some kwType,
    kwFilePath]

/-- A statement of the transaction. -/
abbrev EditStatement := Statement Point Rows

/-- A string operation, which may throw by itself. -/
def operation {α : Type*} (point : Point) (result : Option α) :
    EditStatement :=
  ⟨point, fun rows => result.map fun _ => rows⟩

/-- A statement or a call that does not change the rows. -/
def quiet (point : Point) : EditStatement :=
  ⟨point, some⟩

/-- The insertion of a row into `adplan_keyword`. -/
def insertAdPlanKeyWord (point : Point) (row : Option Row) : EditStatement :=
  ⟨point, fun rows => row.map fun row => rows.insertAll .adplanKeyword [row]⟩

/-- The last part of `addPlanKeyword`. -/
def insertKeywords (keyWord : KeyWordAdPlan) (keyWd : JavaString)
    (kwFileName : Option JavaString) : List EditStatement :=
  (if keywordLines keyWd = [] then []
    else
      [insertAdPlanKeyWord .insertKeyword
        ((trimmedKeywords (keywordLines keyWd)).map fun keywords =>
          keywordRow keyWord (some keywords) (text "1")
            keyWord.kwFilePath)]) ++
    if kwFileName = some [] then []
    else
      [insertAdPlanKeyWord .insertKwFile
        (some (keywordRow keyWord kwFileName (text "2") env.kwDirectory))]

/-- `addPlanKeyword`; the whole method is one `try` block. -/
def addPlanKeyword : List EditStatement :=
  operation .getFile form.kwfilepath ::
    operation .fileName (storedFileName env form) ::
    (if form.uploads = some true then
      [quiet .transferTo, quiet .uploadFtp, quiet .deleteKwFile]
    else []) ++
    operation .keyWd (form.keyWordAdPlan.bind KeyWordAdPlan.keyWd) ::
    match form.keyWordAdPlan with
    | none => []
    | some keyWord =>
        insertKeywords env keyWord (keyWord.keyWd.getD [])
          ((storedFileName env form).getD form.kwFileName)

end Keywords

/-! ## The other helpers -/

section Helpers

variable (env : Environment) (form : Form)

/-- The parts of a text that is not blank. -/
def parts (separator : Char) (string : JavaString) : List JavaString :=
  if isNotBlank env.platform string then split separator string else []

/-- The lines of a text that is not blank. -/
def lines (string : JavaString) : List JavaString :=
  if isNotBlank env.platform string then splitLines string else []

/-- `Integer.parseInt(part.split(":")[1])` -/
def hour (part : Option JavaString) : Option Int :=
  (part.bind fun part => (split ':' part)[1]?).bind (parseInt env.platform)

/-- `assembleAdTimeFilterFromStr` and the row of `insertAdTimeFilter`; times
that are not selected have none. -/
def adTimeFilter (string : JavaString) : Option (List Row) :=
  let str1 := split '%' string
  str1[0]?.bind fun first =>
    let str2 := split ':' first
    str2[1]?.bind fun selected =>
      if selected = text "true" then
        let days :=
          if str2[0]? = some (text "workDay") then text "2,3,4,5,6"
          else text "1,7"
        str1[1]?.bind fun times =>
          let str3 := split '#' times
          (hour env str3[0]?).bind fun start =>
            (hour env str3[1]?).map fun ends =>
              [[some days, some (valueOf start), some (valueOf ends),
                some env.ctStr]]
      else some []

/-- The rows of `addPlanTime`. -/
def adTimeFilters : List (Option (List Row)) :=
  (parts env ';' form.putHours).map (adTimeFilter env)

/-- The rows of `addPlanCrowd`. -/
def adCrowdLinks : List Row :=
  (parts env ',' form.crowdSeledIds).map fun crowdId =>
    [some crowdId, some env.ctStr, some (text "A")]

/-- `AD_MATCHTYPE_F` for a url and `AD_MATCHTYPE_R` for a part of one. -/
def matchType (url : JavaString) : JavaString :=
  if containsText (env.platform.lowerCase url) (text "http://") then text "F"
  else text "R"

/-- The rows of `addPlanSites` for one list. -/
def adSites (siteType : JavaString) (urls : JavaString) : List Row :=
  (lines env urls).map fun url =>
    [some url, some (matchType env url), some env.ctStr, some (text "A"),
      some siteType]

/-- The rows of `addBackUrlSites`. -/
def backUrlSites : List Row :=
  (lines env form.backUrlSite).map fun url =>
    [some url, some (text "A"), some env.ctStr, some (text "A"), none]

/-- The rows of `addAdIpTargeting` for one list. -/
def adIpTargetings (type : JavaString) (ips : JavaString) : List Row :=
  (lines env ips).map fun ip => [some ip, some env.ctStr, some type]

/-- `findAdRegionListByCondition`; an empty code is no condition. -/
def findAdRegionListByCondition (code : JavaString) : List RegionTargeting :=
  env.regionTargeting.filter fun region => code = [] || region.code = code

/-- `regionName` -/
def regionName (regionCode : JavaString) : JavaString :=
  match (findAdRegionListByCondition env regionCode).head? with
  | none => []
  | some region =>
      match (findAdRegionListByCondition env region.parentCode).head? with
      | none => []
      | some parent =>
          if region.name = parent.name then region.name
          else parent.name ++ region.name

/-- The rows of `addAdRegionLink`. -/
def adRegionLinks : List Row :=
  (parts env ',' form.regionCodes).map fun regionCode =>
    [some regionCode, some (regionName env regionCode), some env.ctStr]

/-- The rows of `addAdAllLabel`; empty codes are passed over. -/
def allLabelAdplans : List Row :=
  ((parts env ',' form.allLabelCodes).filter (· ≠ [])).map fun label =>
    [some label, some env.ctStr, some (text "A")]

/-- The rows of `addDeviceLink`. -/
def adDeviceLinks : List Row :=
  (parts env ',' form.adDeviceIds).map fun adDeviceId => [some adDeviceId]

/-- The first row of `addPlanStrategy`. -/
def adTimeFrequency : Option Row :=
  form.adTimeFrequencyDto.map fun frequency =>
    [frequency.putIntervalUnit, frequency.putIntervalNum, frequency.dayLimit,
      some env.ctStr, some (text "A"), frequency.minLimit,
      frequency.isUniform]

/-- The second row of `addPlanStrategy`. -/
def adUserFrequency : Option Row :=
  form.adUserFrequencyDto.map fun frequency =>
    [frequency.timeUnit, frequency.uidImpressNum, some env.ctStr,
      some (text "A"), frequency.uidIpNum]

/-- The loop of a helper: a statement for each part of a text. -/
def insertRows (helper : Helper) (table : Table)
    (values : List (Option (List Row))) : List EditStatement :=
  adding (.insert helper) (Rows.insertAll table) values

/-- The loop of a helper with a row for each part. -/
def insertEach (helper : Helper) (table : Table) (rows : List Row) :
    List EditStatement :=
  insertRows helper table (rows.map fun row => some [row])

/-- `addPlanMaterial` -/
def addPlanMaterial : List EditStatement :=
  adding (.insert .addPlanMaterial)
    (fun link rows =>
      { rows with
        plan :=
          { rows.plan with adMLinks := rows.plan.adMLinks ++ [link] } })
    ((parts env ',' (form.adDto.adMaterialIds.getD [])).map
      (materialLink env.platform env.returned.links))

/-- `addAdExtLink`; an exception of `insertAdExtLink` is caught, but `null` is
not an `int`. -/
def addAdExtLink : List EditStatement :=
  ⟨.insertAdExtLink, fun rows =>
    (form.adDto.adExtLink.bind (extLink env.db.mapKv form.adDto)).map
      fun inserted =>
        { rows with
          plan :=
            { rows.plan with
              adExtLinks := rows.plan.adExtLinks ++ [inserted] } }⟩ ::
    if form.adDto.linkType = .J ∧ form.adDto.jsContent ≠ some [] then
      [⟨.updateAdExtLink, fun rows =>
        rows.plan.adExtLinks.getLast?.map fun inserted =>
          { rows with
            plan :=
              { rows.plan with
                adExtLinks := rows.plan.adExtLinks.dropLast ++
                  [{ inserted with throwUrl := form.adDto.jsContent }] } }⟩]
    else []

end Helpers

/-! ## `editAdPlan` -/

section Edit

variable (env : Environment) (form : Form)

/-- `updateAdInstance`; an empty price is stored as `null`. -/
def Rows.updateAdInstance (rows : Rows) : Rows :=
  { rows with
    adInstance :=
      { form.adInstanceDto with
        maxCpmBidprice :=
          form.adInstanceDto.maxCpmBidprice.filter (· ≠ []) }
    plan := AdPlanManage.updateAdInstance form.adDto rows.plan }

/-- The deletion of the rows of a table. -/
def deleteRows (table : Table) : EditStatement :=
  ⟨.delete table, fun rows => some (rows.delete table)⟩

/-- The first statements. -/
def updateAndDelete : List EditStatement :=
  [⟨.updateAdInstance, fun rows => some (rows.updateAdInstance form)⟩,
    deleteRows .adTimeFilter, deleteRows .adSite, deleteRows .adIpTargeting,
    deleteRows .adplanKeyword, deleteRows .adTLink,
    quiet .findAdMLinkDtoByAdId, deleteRows .adDeviceLink,
    ⟨.delAdMaterialLinks, fun rows =>
      some { rows with plan := delAdMaterialLinks rows.plan }⟩]

/-- `deleteAdExtLinkByAdId`, which catches its exceptions. -/
def deleteExtLink : List EditStatement :=
  [⟨.deleteAdExtLinkByAdId, fun rows =>
    some { rows with plan := deleteAdExtLinkByAdId rows.plan }⟩]

/-- The rest of the deletions. -/
def deleteOthers : List EditStatement :=
  [deleteRows .adTimeFrequency, deleteRows .adUserFrequency,
    deleteRows .adRegionLink, deleteRows .allLabelAdplan]

/-- The insertions, and the query for the cache. -/
def addNew : List EditStatement :=
  insertRows .addPlanTime .adTimeFilter (adTimeFilters env form) ++
    insertEach .addPlanCrowd .adCrowdLink (adCrowdLinks env form) ++
    (if form.adDto.linkType = .M then addPlanMaterial env form
      else addAdExtLink env form) ++
    insertEach .whiteAdSites .adSite
      (adSites env (text "+") form.whiteAdSites) ++
    insertEach .blackAdSites .adSite
      (adSites env (text "-") form.blackAdSites) ++
    insertEach .addBackUrlSites .adSite (backUrlSites env form) ++
    insertRows .adTimeFrequency .adTimeFrequency
      [(adTimeFrequency env form).map fun row => [row]] ++
    insertRows .adUserFrequency .adUserFrequency
      [(adUserFrequency env form).map fun row => [row]] ++
    insertEach .whiteIps .adIpTargeting
      (adIpTargetings env (text "+") form.whiteIps) ++
    insertEach .blackIps .adIpTargeting
      (adIpTargetings env (text "-") form.blackIps) ++
    insertEach .addAdRegionLink .adRegionLink (adRegionLinks env form) ++
    insertEach .addAdAllLabel .allLabelAdplan (allLabelAdplans env form) ++
    insertEach .addDeviceLink .adDeviceLink (adDeviceLinks env form) ++
    [quiet .findInCache]

/-- The statements before the cache is written. -/
def blocks : List (Block Point Rows) :=
  [.plain (updateAndDelete form), .caught deleteExtLink, .plain deleteOthers,
    .caught (addPlanKeyword env form), .plain (addNew env form)]

/-- The statements after the cache was written: a changed creative needs a
new approval. -/
def review (flag : Bool) (plan : Plan) : List EditStatement :=
  quiet .getAdInstanceDtoByAdId ::
    if flag ∧ plan.adToufangSts ≠ -1 then
      match env.user with
      | none => []
      | some user =>
          [⟨.deleteAdCheckProcessByAdId, fun rows =>
            some
              { rows with
                plan :=
                  { rows.plan with
                    adCheckProcess :=
                      Function.update rows.plan.adCheckProcess user [] } }⟩,
            ⟨.updateAdInstanceByAdId, fun rows =>
              some
                { rows with
                  plan := { rows.plan with adToufangSts := -1 } }⟩]
    else []

/-- The database with the rows of the plan. -/
def databaseOf (rows : Rows) : Database :=
  { env.db with
    plan := Function.update env.db.plan env.adId (some rows.plan)
    statCodes :=
      Function.update env.db.statCodes env.adId
        ⟨rows.adInstance.ad3statCode, rows.adInstance.ad3statCodeSub,
          rows.ad3statCodeTemp⟩ }

/-- `listInCache` -/
def listInCache (rows : Rows) : List AdMaterialCache :=
  if form.adDto.linkType = .M then
    (databaseOf env rows).findMaterialByAdId env.adId
  else (databaseOf env rows).findExtLinkByAdId env.adId

/-- `cache.del` and `cache.hset`, which catch their exceptions. -/
def cacheUpdate (fails : Point → Bool) (list : List AdMaterialCache)
    (cache : Hash Int Json) : Hash Int Json :=
  runCaught fails
    (adding .cacheHset (fun entry hash => hset hash entry.1 entry.2)
      ((fields list).map some))
    (runCaught fails [⟨.cacheDel, fun _ => some []⟩] cache)

/-- The rows of a plan and its entry `ad_all_info_` of the cache. -/
structure World where
  rows : Rows
  cache : Hash Int Json

/-- `checkAdUrl` -/
def checked (fails : Point → Bool) (plan : Plan) : Option Bool :=
  if fails .checkAdUrl then none
  else
    checkAdUrl env.platform env.returned.adMLinkList form.adDto plan

/-- `editAdPlan`: whether it returns, and what it leaves.  The rows are rolled
back when an exception leaves the method, the cache is not. -/
def editAdPlan (fails : Point → Bool) (world : World) : Bool × World :=
  match checked env form fails world.rows.plan with
  | none => (false, world)
  | some flag =>
      match runBlocks fails (blocks env form) world.rows with
      | none => (false, world)
      | some rows =>
          let cache :=
            cacheUpdate fails (listInCache env form rows) world.cache
          match runAll fails (review env flag rows.plan) rows with
          | none => (false, ⟨world.rows, cache⟩)
          | some reviewed => (true, ⟨reviewed, cache⟩)

end Edit

/-! ## What an edit is meant to leave -/

section Meaning

variable (env : Environment) (form : Form)

/-- The keyword rows of a form: the lines that are not empty, joined by
commas, and the name of a file. -/
def keywordRows : List Row :=
  match form.keyWordAdPlan with
  | none => []
  | some keyWord =>
      let lines := keywordLines (keyWord.keyWd.getD [])
      let kwFileName := (storedFileName env form).getD form.kwFileName
      (if lines = [] then []
        else
          [keywordRow keyWord (some (List.intercalate (text ",") lines))
            (text "1") keyWord.kwFilePath]) ++
        if kwFileName = some [] then []
        else [keywordRow keyWord kwFileName (text "2") env.kwDirectory]

/-- The rows of a form in each table, if they can be formed. -/
def submitted : Table → Option (List Row)
  | .adTimeFilter => ((adTimeFilters env form).mapM id).map List.flatten
  | .adSite =>
      some (adSites env (text "+") form.whiteAdSites ++
        adSites env (text "-") form.blackAdSites ++ backUrlSites env form)
  | .adIpTargeting =>
      some (adIpTargetings env (text "+") form.whiteIps ++
        adIpTargetings env (text "-") form.blackIps)
  | .adplanKeyword => some (keywordRows env form)
  | .adTLink => some []
  | .adDeviceLink => some (adDeviceLinks env form)
  | .adTimeFrequency => (adTimeFrequency env form).map fun row => [row]
  | .adUserFrequency => (adUserFrequency env form).map fun row => [row]
  | .adRegionLink => some (adRegionLinks env form)
  | .allLabelAdplan => some (allLabelAdplans env form)
  | .adCrowdLink => some (adCrowdLinks env form)

/-- The approval of a plan after its creative was compared. -/
def reviewed (flag : Bool) (plan : Plan) : Plan :=
  match env.user with
  | none => plan
  | some user => withdraw user flag plan

/-- The creatives of a form, added to those that are there. -/
def addedPlan (plan : Plan) : Option Plan :=
  if form.adDto.linkType = .M then
    AdPlanManage.addPlanMaterial env.platform env.returned.links form.adDto
      plan
  else AdPlanManage.addAdExtLink env.db.mapKv form.adDto plan

/-- The creatives of a form and the approval of the plan. -/
def submittedPlan (flag : Bool) (plan : Plan) : Option Plan :=
  (addedPlan env form (deleteAdExtLinkByAdId (delAdMaterialLinks
    (AdPlanManage.updateAdInstance form.adDto plan)))).map
      (reviewed env flag)

/-- All rows are those of the form. -/
structure IsEdited (flag : Bool) (old rows : Rows) : Prop where
  adInstance : rows.adInstance =
    { form.adInstanceDto with
      maxCpmBidprice := form.adInstanceDto.maxCpmBidprice.filter (· ≠ []) }
  ad3statCodeTemp : rows.ad3statCodeTemp = old.ad3statCodeTemp
  plan : submittedPlan env form flag old.plan = some rows.plan
  tables : ∀ table, submitted env form table = some (rows.tables table)

/-- The rows of a plan are those of a form. -/
def Edited (old rows : Rows) : Prop :=
  ∃ flag ∈ checkAdUrl env.platform env.returned.adMLinkList form.adDto
    old.plan, IsEdited env form flag old rows

/-- Everything is done, and the cached entry is what the database has. -/
def Done (old : Rows) (world : World) : Prop :=
  Edited env form old world.rows ∧
    SameValues world.cache
      (hsets [] (fields (listInCache env form world.rows)))

/-- The first line does not begin with a blank, which `trim` would remove. -/
def Unblank (lines : List JavaString) : Prop :=
  ∀ line ∈ lines.head?, ∀ character ∈ line.head?, ' ' < character

/-- Nothing in `addPlanKeyword` throws, and the keywords are not shifted. -/
structure KeywordsStored (fails : Point → Bool) : Prop where
  works : ∀ statement ∈ addPlanKeyword env form,
    fails statement.point = false
  multipart : form.kwfilepath.isSome = true
  fileName : (storedFileName env form).isSome = true
  keyWd : (form.keyWordAdPlan.bind KeyWordAdPlan.keyWd).isSome = true
  unblank : ∀ keyWord ∈ form.keyWordAdPlan,
    Unblank (keywordLines (keyWord.keyWd.getD []))

/-- The plan without its creatives; the links to external urls are left if
their deletion fails. -/
def emptiedPlan (fails : Point → Bool) (plan : Plan) : Plan :=
  let updated :=
    delAdMaterialLinks (AdPlanManage.updateAdInstance form.adDto plan)
  if fails .deleteAdExtLinkByAdId then updated
  else deleteAdExtLinkByAdId updated

/-- The creatives that are to be cached. -/
def creatives (fails : Point → Bool) (rows : Rows) :
    Option (List AdMaterialCache) :=
  (addedPlan env form (emptiedPlan form fails rows.plan)).map fun plan =>
    listInCache env form { rows.updateAdInstance form with plan := plan }

/-- No exception leaves the method before the cache is written: the creatives
can be compared, the rows can be formed, and no statement fails whose exception
is not caught. -/
structure ReachesCache (fails : Point → Bool) (plan : Plan) : Prop where
  compares : fails .checkAdUrl = false
  compared : (checkAdUrl env.platform env.returned.adMLinkList form.adDto
    plan).isSome = true
  works : ∀ statement ∈ updateAndDelete form ++ deleteOthers ++
    addNew env form, fails statement.point = false
  tables : ∀ table, (submitted env form table).isSome = true
  creatives : (addedPlan env form plan).isSome = true

/-- Nothing fails after the cache was written. -/
def Approves (fails : Point → Bool) (plan : Plan) : Prop :=
  ∀ flag ∈ checkAdUrl env.platform env.returned.adMLinkList form.adDto plan,
    ∀ statement ∈ review env flag plan, fails statement.point = false

/-- No exception is caught that loses rows, and no crowds are left from
before. -/
structure Unharmed (fails : Point → Bool) (rows : Rows) : Prop where
  keywords : keywordRows env form = [] ∨ KeywordsStored env form fails
  extLink : fails .deleteAdExtLinkByAdId = false ∨ rows.plan.adExtLinks = []
  crowds : rows.tables .adCrowdLink = []

section Commands

variable (fails : Point → Bool) (list : List AdMaterialCache)
  (cache : Hash Int Json)

/-- The number of creatives in front of the first whose command fails. -/
def firstFailing : Nat :=
  (List.range list.length).findIdx fun index => fails (.cacheHset index)

/-- The creatives in front of the first whose command fails. -/
def front : List AdMaterialCache :=
  list.take (firstFailing fails list)

/-- The creatives that are not written. -/
def back : List AdMaterialCache :=
  list.drop (firstFailing fails list)

/-- The old entry if it cannot be deleted. -/
def remaining : Hash Int Json :=
  if fails .cacheDel then cache else []

/-- An old entry that is not deleted has no other fields, and the creatives
that are not written are there already. -/
structure CacheWritten : Prop where
  cacheDel : ∀ entry ∈ remaining fails cache,
    ∃ material ∈ list, material.adMId = entry.1
  cacheHset : ∀ material ∈ back fails list,
    hget ((fields (front fails list)).reverse ++ remaining fails cache)
        material.adMId =
      hget (fields (back fails list)).reverse material.adMId

/-- Every field of an old entry that is deleted is written again, and what is
written was there. -/
structure CacheKept : Prop where
  cacheDel : fails .cacheDel = false → ∀ entry ∈ cache,
    ∃ material ∈ front fails list, material.adMId = entry.1
  cacheHset : ∀ material ∈ front fails list,
    hget (fields (front fails list)).reverse material.adMId =
      hget cache material.adMId

end Commands

/-- The failures behind the creatives are harmless: nothing is lost, or an edit
that is rolled back in the end leaves the cache as it was; unless it changes no
rows, when the cache may be written. -/
def Harmless (fails : Point → Bool) (world : World) : Prop :=
  ∀ list ∈ creatives env form fails world.rows,
    (Approves env form fails world.rows.plan ∧
      Unharmed env form fails world.rows ∧
      CacheWritten fails list world.cache) ∨
    (¬ Approves env form fails world.rows.plan ∧
      (CacheKept fails list world.cache ∨
        Edited env form world.rows world.rows ∧
          CacheWritten fails list world.cache))

end Meaning

/-! ## Tables -/

section Tables

variable {rows : Rows} {table other : Table} {list more : List Row}

theorem tables_insertAll :
    (rows.insertAll table list).tables other =
      rows.tables other ++ if other = table then list else [] := by
  rw [Rows.insertAll]
  by_cases same : other = table
  · subst same
    simp
  · simp [same]

@[simp]
theorem adInstance_insertAll :
    (rows.insertAll table list).adInstance = rows.adInstance :=
  rfl

@[simp]
theorem ad3statCodeTemp_insertAll :
    (rows.insertAll table list).ad3statCodeTemp = rows.ad3statCodeTemp :=
  rfl

@[simp]
theorem plan_insertAll : (rows.insertAll table list).plan = rows.plan :=
  rfl

theorem insertAll_nil : rows.insertAll table [] = rows := by
  rw [Rows.insertAll, List.append_nil, Function.update_eq_self]

theorem insertAll_insertAll :
    (rows.insertAll table list).insertAll table more =
      rows.insertAll table (list ++ more) := by
  simp [Rows.insertAll]

theorem foldl_insertAll (lists : List (List Row)) :
    lists.foldl (fun rows list => Rows.insertAll table list rows) rows =
      rows.insertAll table lists.flatten := by
  induction lists generalizing rows with
  | nil => exact insertAll_nil.symm
  | cons first lists induction =>
      rw [List.foldl_cons, induction, insertAll_insertAll, List.flatten_cons]

theorem foldl_insertAll_singleton :
    list.foldl (fun rows row => Rows.insertAll table [row] rows) rows =
      rows.insertAll table list := by
  induction list generalizing rows with
  | nil => exact insertAll_nil.symm
  | cons first list induction =>
      rw [List.foldl_cons, induction, insertAll_insertAll,
        List.singleton_append]

end Tables

/-! ## Completed helpers -/

section Completed

variable {env : Environment} {form : Form} {fails : Point → Bool}
  {helper : Helper} {table : Table} {rows last : Rows}

theorem runAll_insertRows {values : List (Option (List Row))}
    (completed : runAll fails (insertRows helper table values) rows =
      some last) :
    ∃ formed, values.mapM id = some formed ∧
      last = rows.insertAll table formed.flatten := by
  obtain ⟨formed, rfl, rfl⟩ := runAll_adding completed
  refine ⟨formed, ?_, foldl_insertAll formed⟩
  exact mapM_eq_some_iff.mpr (by rw [List.map_id])

theorem runAll_insertEach {list : List Row}
    (completed : runAll fails (insertEach helper table list) rows =
      some last) : last = rows.insertAll table list := by
  obtain ⟨formed, equal, rfl⟩ := runAll_adding completed
  have same : formed = list.map fun row => [row] := by
    have mapped : (list.map fun row => [row]).map some = formed.map some := by
      rw [List.map_map]
      exact equal
    exact (List.map_injective_iff.mpr (Option.some_injective _) mapped).symm
  rw [same, foldl_insertAll, ← List.flatMap_def, List.flatMap_singleton']

theorem completesIff_insertEach {list : List Row} :
    CompletesIff fails (insertEach helper table list) True :=
  completesIff_adding.congr (by simp)

/-- The links of a form to materials and to external urls. -/
def submittedLinks (env : Environment) (form : Form) :
    Option (List AdMLink × List AdExtLink) :=
  if form.adDto.linkType = .M then
    ((parts env ',' (form.adDto.adMaterialIds.getD [])).mapM
      (materialLink env.platform env.returned.links)).map fun links =>
        (links, [])
  else
    (form.adDto.adExtLink.bind (extLink env.db.mapKv form.adDto)).map
      fun inserted =>
        ([], [if form.adDto.linkType = .J ∧ form.adDto.jsContent ≠ some []
          then { inserted with throwUrl := form.adDto.jsContent }
          else inserted])

/-- The links are put behind those that are there. -/
theorem addedPlan_eq {plan : Plan} :
    addedPlan env form plan =
      (submittedLinks env form).map fun links =>
        { plan with
          adMLinks := plan.adMLinks ++ links.1
          adExtLinks := plan.adExtLinks ++ links.2 } := by
  rw [addedPlan, submittedLinks]
  by_cases material : form.adDto.linkType = .M
  · rw [if_pos material, if_pos material, AdPlanManage.addPlanMaterial, parts]
    split_ifs
    · rw [Option.map_map]
      exact Option.map_congr fun links _ => by simp
    · simp
  · rw [if_neg material, if_neg material, AdPlanManage.addAdExtLink,
      Option.map_map]
    exact Option.map_congr fun inserted _ => by simp

theorem isSome_addedPlan (plan : Plan) :
    (addedPlan env form plan).isSome = (submittedLinks env form).isSome := by
  rw [addedPlan_eq, Option.isSome_map]

/-- A row that was inserted can be updated. -/
theorem completesIff_addAdExtLink :
    CompletesIff fails (addAdExtLink env form)
      ((form.adDto.adExtLink.bind (extLink env.db.mapKv form.adDto)).isSome =
        true) := by
  intro rows
  rw [addAdExtLink, runAll, List.forall_mem_cons, Statement.run]
  cases fails .insertAdExtLink with
  | true => simp
  | false =>
      rw [if_neg Bool.false_ne_true]
      cases form.adDto.adExtLink.bind (extLink env.db.mapKv form.adDto) with
      | none => simp
      | some inserted =>
          split_ifs with script
          · cases failed : fails .updateAdExtLink <;>
              simp [runAll, Statement.run, failed]
          · simp

theorem completesIff_creatives :
    CompletesIff fails
      (if form.adDto.linkType = .M then addPlanMaterial env form
        else addAdExtLink env form)
      ((submittedLinks env form).isSome = true) := by
  rw [submittedLinks]
  by_cases material : form.adDto.linkType = .M
  · rw [if_pos material, if_pos material, Option.isSome_map, mapM_isSome_iff]
    exact completesIff_adding.congr List.forall_mem_map
  · rw [if_neg material, if_neg material, Option.isSome_map]
    exact completesIff_addAdExtLink

theorem runAll_addPlanMaterial
    (completed : runAll fails (addPlanMaterial env form) rows = some last) :
    ∃ plan, AdPlanManage.addPlanMaterial env.platform env.returned.links
        form.adDto rows.plan = some plan ∧
      last = { rows with plan := plan } := by
  obtain ⟨formed, equal, rfl⟩ := runAll_adding completed
  have added : formed.foldl
      (fun rows link =>
        { rows with
          plan :=
            { rows.plan with adMLinks := rows.plan.adMLinks ++ [link] } })
      rows =
        { rows with
          plan :=
            { rows.plan with adMLinks := rows.plan.adMLinks ++ formed } } := by
    clear equal completed
    induction formed generalizing rows with
    | nil => simp
    | cons link formed induction =>
        rw [List.foldl_cons, induction]
        simp
  refine ⟨_, ?_, added⟩
  rw [AdPlanManage.addPlanMaterial]
  unfold parts at equal
  split_ifs at equal ⊢ with shown
  · rw [mapM_eq_some_iff.mpr equal]
    rfl
  · cases formed with
    | nil => rw [List.append_nil]
    | cons _ _ => cases equal

theorem runAll_addAdExtLink
    (completed : runAll fails (addAdExtLink env form) rows = some last) :
    ∃ plan, AdPlanManage.addAdExtLink env.db.mapKv form.adDto rows.plan =
        some plan ∧
      last = { rows with plan := plan } := by
  obtain ⟨after, inserted, completed⟩ := runAll_cons_eq_some_iff.mp completed
  obtain ⟨_, effect⟩ := run_eq_some_iff.mp inserted
  obtain ⟨row, formed, rfl⟩ := Option.map_eq_some_iff.mp effect
  rw [AdPlanManage.addAdExtLink, formed, Option.map_some]
  split_ifs at completed ⊢ with script
  · obtain ⟨updated, done, completed⟩ := runAll_cons_eq_some_iff.mp completed
    obtain ⟨_, effect⟩ := run_eq_some_iff.mp done
    cases Option.some_inj.mp completed
    simp only [List.getLast?_append, List.getLast?_singleton,
      Option.some_or, Option.map_some, List.dropLast_concat,
      Option.some_inj] at effect
    exact ⟨_, rfl, effect.symm⟩
  · cases Option.some_inj.mp completed
    exact ⟨_, rfl, rfl⟩

end Completed

/-! ## The keywords -/

/-- The text of the loop is the joined lines and one more comma. -/
theorem keywords_eq {lines : List JavaString} (some_line : lines ≠ []) :
    keywords lines = List.intercalate (text ",") lines ++ text "," := by
  induction lines with
  | nil => exact absurd rfl some_line
  | cons line lines induction =>
      cases lines with
      | nil => simp [keywords]
      | cons next lines =>
          have rest := induction (List.cons_ne_nil _ _)
          rw [keywords, List.flatMap_cons, ← keywords, rest,
            List.intercalate_cons_cons]
          simp only [List.append_assoc]

/-- Only blanks at the beginning are removed. -/
theorem trim_comma (string : JavaString) :
    trim (string ++ text ",") =
      string.dropWhile (· ≤ ' ') ++ text "," := by
  have front : (string ++ text ",").dropWhile (· ≤ ' ') =
      string.dropWhile (· ≤ ' ') ++ text "," := by
    rw [List.dropWhile_append]
    split_ifs with blank
    · rw [List.isEmpty_iff.mp blank]
      decide
    · rfl
  rw [trim, front, List.reverse_append]
  have last : (text ",").reverse = [','] := rfl
  rw [last, List.singleton_append, List.dropWhile_cons_of_neg (by decide),
    List.reverse_cons, List.reverse_reverse]
  rfl

/-- The keywords are stored as they were meant to be exactly if the first
line does not begin with a blank. -/
theorem trimmedKeywords_eq_iff {lines : List JavaString}
    (some_line : lines ≠ []) (nonempty : ∀ line ∈ lines, line ≠ []) :
    trimmedKeywords lines = some (List.intercalate (text ",") lines) ↔
      Unblank lines := by
  obtain ⟨line, rest, rfl⟩ := List.exists_cons_of_ne_nil some_line
  obtain ⟨first, behind, rfl⟩ :=
    List.exists_cons_of_ne_nil (nonempty line List.mem_cons_self)
  have unblank : Unblank ((first :: behind) :: rest) ↔ ' ' < first := by
    simp [Unblank]
  obtain ⟨tail, joined⟩ : ∃ tail,
      List.intercalate (text ",") ((first :: behind) :: rest) =
        first :: tail := by
    cases rest with
    | nil => exact ⟨behind, by simp⟩
    | cons next rest =>
        rw [List.intercalate_cons_cons]
        exact ⟨_, rfl⟩
  have length : (first :: tail ++ text ",").length - 1 = tail.length + 1 := by
    simp [text]
  rw [unblank, trimmedKeywords, keywords_eq some_line, trim_comma, joined,
    length]
  by_cases blank : first ≤ ' '
  · rw [List.dropWhile_cons_of_pos (by simpa using blank)]
    refine iff_of_false ?_ (Char.not_lt.mpr blank)
    intro stored
    split_ifs at stored
    have head := congrArg List.head? (Option.some_inj.mp stored)
    rw [List.head?_take, if_neg (Nat.succ_ne_zero _), List.head?_cons] at head
    have visible := List.head?_dropWhile_not (· ≤ ' ') tail
    cases kept : tail.dropWhile (· ≤ ' ') with
    | nil =>
        rw [kept] at head
        cases head
        revert blank
        decide
    | cons other others =>
        rw [kept] at head visible
        cases head
        simp [blank] at visible
  · rw [List.dropWhile_cons_of_neg (by simpa using blank)]
    refine iff_of_true ?_ (Char.not_le.mp blank)
    rw [if_pos (by simp)]
    simp

/-! ## The keyword rows -/

section KeywordRows

variable {env : Environment} {form : Form} {fails : Point → Bool}
  {rows : Rows}

theorem keywordLines_ne_nil {keyWd : JavaString} :
    ∀ line ∈ keywordLines keyWd, line ≠ [] := by
  intro line member
  simpa using (List.mem_filter.mp member).2

theorem idle_operation {α : Type*} {point : Point} {result : Option α}
    (state after : Rows)
    (done : (operation point result).effect state = some after) :
    after = state := by
  obtain ⟨_, _, rfl⟩ := Option.map_eq_some_iff.mp done
  rfl

theorem idle_quiet {point : Point} (state after : Rows)
    (done : (quiet point).effect state = some after) : after = state :=
  (Option.some_inj.mp done).symm

/-- The statements of `addPlanKeyword` that insert. -/
def insertions (env : Environment) (form : Form) : List EditStatement :=
  match form.keyWordAdPlan with
  | none => []
  | some keyWord =>
      insertKeywords env keyWord (keyWord.keyWd.getD [])
        ((storedFileName env form).getD form.kwFileName)

/-- The statements of `addPlanKeyword` before them. -/
def preparations (env : Environment) (form : Form) : List EditStatement :=
  operation .getFile form.kwfilepath ::
    operation .fileName (storedFileName env form) ::
    (if form.uploads = some true then
      [quiet .transferTo, quiet .uploadFtp, quiet .deleteKwFile]
    else []) ++
    [operation .keyWd (form.keyWordAdPlan.bind KeyWordAdPlan.keyWd)]

theorem addPlanKeyword_eq :
    addPlanKeyword env form = preparations env form ++ insertions env form := by
  rw [addPlanKeyword, preparations, List.append_assoc]
  rfl

theorem mem_preparations {statement : EditStatement}
    (member : statement ∈ preparations env form) :
    statement = operation .getFile form.kwfilepath ∨
      statement = operation .fileName (storedFileName env form) ∨
      (∃ point, statement = quiet point) ∨
      statement =
        operation .keyWd (form.keyWordAdPlan.bind KeyWordAdPlan.keyWd) := by
  simp only [preparations, List.cons_append, List.mem_cons,
    List.mem_append, List.not_mem_nil, or_false] at member
  rcases member with file | name | uploading | keyWd
  · exact .inl file
  · exact .inr (.inl name)
  · refine .inr (.inr (.inl ?_))
    split_ifs at uploading
    · simp only [List.mem_cons, List.not_mem_nil, or_false] at uploading
      rcases uploading with transfer | upload | delete
      · exact ⟨_, transfer⟩
      · exact ⟨_, upload⟩
      · exact ⟨_, delete⟩
    · cases uploading
  · exact .inr (.inr (.inr keyWd))

theorem idle_preparations : ∀ statement ∈ preparations env form,
    ∀ before after, statement.effect before = some after →
      after = before := by
  intro statement member
  rcases mem_preparations member with rfl | rfl | ⟨point, rfl⟩ | rfl
  · exact idle_operation
  · exact idle_operation
  · exact idle_quiet
  · exact idle_operation

/-- The rows that `addPlanKeyword` is to insert, with their points. -/
def keywordInserts (env : Environment) (form : Form) :
    List (Point × Option Row) :=
  match form.keyWordAdPlan with
  | none => []
  | some keyWord =>
      let lines := keywordLines (keyWord.keyWd.getD [])
      let kwFileName := (storedFileName env form).getD form.kwFileName
      (if lines = [] then []
        else
          [(.insertKeyword, (trimmedKeywords lines).map fun keywords =>
            keywordRow keyWord (some keywords) (text "1")
              keyWord.kwFilePath)]) ++
        if kwFileName = some [] then []
        else
          [(.insertKwFile,
            some (keywordRow keyWord kwFileName (text "2")
              env.kwDirectory))]

theorem insertions_eq :
    insertions env form =
      addingAt (fun row => Rows.insertAll .adplanKeyword [row])
        (keywordInserts env form) := by
  rw [insertions, keywordInserts]
  cases form.keyWordAdPlan with
  | none => rfl
  | some keyWord =>
      dsimp only
      rw [insertKeywords, addingAt, List.map_append]
      congr 1 <;> split_ifs <;> rfl

theorem length_keywordInserts :
    (keywordInserts env form).length = (keywordRows env form).length := by
  rw [keywordInserts, keywordRows]
  cases form.keyWordAdPlan with
  | none => rfl
  | some keyWord =>
      dsimp only
      split_ifs <;> rfl

/-- The rows can be formed as they were meant to be exactly if the first line
does not begin with a blank. -/
theorem keywordInserts_eq_iff :
    (keywordInserts env form).map Prod.snd =
        (keywordRows env form).map some ↔
      ∀ keyWord ∈ form.keyWordAdPlan,
        Unblank (keywordLines (keyWord.keyWd.getD [])) := by
  rw [keywordInserts, keywordRows]
  cases form.keyWordAdPlan with
  | none => simp
  | some keyWord =>
      have file : ∀ (name : Option JavaString) (row : Row),
          ((if name = some [] then [] else [(Point.insertKwFile, some row)]).map
            Prod.snd) = (if name = some [] then [] else [row]).map some := by
        intro name row
        split_ifs <;> rfl
      simp only [List.map_append, file, List.append_cancel_right_eq,
        Option.mem_some_iff, forall_eq']
      by_cases empty : keywordLines (keyWord.keyWd.getD []) = []
      · rw [if_pos empty, if_pos empty]
        exact iff_of_true rfl (by simp [Unblank, empty])
      · rw [if_neg empty, if_neg empty,
          ← trimmedKeywords_eq_iff empty keywordLines_ne_nil]
        cases trimmedKeywords (keywordLines (keyWord.keyWd.getD [])) with
        | none => simp
        | some keywords => simp [keywordRow]

theorem isSome_operation {α : Type*} {point : Point} {result : Option α}
    (before : Rows) :
    ((operation point result).effect before).isSome = result.isSome := by
  rw [operation, Option.isSome_map]

theorem steady_operation {α : Type*} {point : Point} {result : Option α}
    (before other : Rows) :
    ((operation point result).effect before).isSome =
      ((operation point result).effect other).isSome := by
  rw [isSome_operation, isSome_operation]

/-- Nothing throws in front of the insertions. -/
def Prepared (env : Environment) (form : Form) : Prop :=
  form.kwfilepath.isSome = true ∧ (storedFileName env form).isSome = true ∧
    (form.keyWordAdPlan.bind KeyWordAdPlan.keyWd).isSome = true

theorem completesIff_preparations :
    CompletesIff fails (preparations env form) (Prepared env form) := by
  intro rows
  rw [runAll_isSome_iff_of_steady, forall₂_and]
  · refine and_congr_right' ⟨fun each => ⟨?_, ?_, ?_⟩, ?_⟩
    · rw [← @isSome_operation _ .getFile _ rows]
      exact each _ (by simp [preparations]) rows
    · rw [← @isSome_operation _ .fileName _ rows]
      exact each _ (by simp [preparations]) rows
    · rw [← @isSome_operation _ .keyWd _ rows]
      exact each _ (by simp [preparations]) rows
    · rintro ⟨multipart, fileName, keyWd⟩ statement member before
      rcases mem_preparations member with rfl | rfl | ⟨point, rfl⟩ | rfl
      · rwa [isSome_operation]
      · rwa [isSome_operation]
      · rfl
      · rwa [isSome_operation]
  · intro statement member
    rcases mem_preparations member with rfl | rfl | ⟨point, rfl⟩ | rfl
    · exact steady_operation
    · exact steady_operation
    · exact fun _ _ => rfl
    · exact steady_operation

theorem runAll_preparations {after : Rows}
    (completed : runAll fails (preparations env form) rows = some after) :
    after = rows := by
  refine @runAll_preserves _ _ fails _ rows after (· = rows) ?_ rfl completed
  rintro statement member before after rfl done
  exact idle_preparations statement member before after done

/-- `addPlanKeyword` inserts some rows, and they are those of the form exactly
if there are none or nothing throws and the keywords are not shifted. -/
theorem exists_runCaught_addPlanKeyword (env : Environment) (form : Form)
    (fails : Point → Bool) :
    ∃ list,
      (∀ rows, runCaught fails (addPlanKeyword env form) rows =
        rows.insertAll .adplanKeyword list) ∧
      (list = keywordRows env form ↔
        keywordRows env form = [] ∨ KeywordsStored env form fails) := by
  by_cases prepared : (∀ statement ∈ preparations env form,
      fails statement.point = false) ∧ Prepared env form
  · refine ⟨addable fails (keywordInserts env form), fun rows => ?_, ?_⟩
    · obtain ⟨after, completed⟩ := Option.isSome_iff_exists.mp
        ((completesIff_preparations rows).mpr prepared)
      obtain rfl := runAll_preparations completed
      rw [addPlanKeyword_eq, runCaught_append, completed, Option.map_some,
        Option.getD_some, insertions_eq, runCaught_addingAt,
        foldl_insertAll_singleton]
    · rw [addable_eq_iff length_keywordInserts, keywordInserts_eq_iff]
      have points : (∀ insert ∈ keywordInserts env form,
          fails insert.1 = false) ↔
          ∀ statement ∈ insertions env form, fails statement.point = false := by
        rw [insertions_eq, addingAt, List.forall_mem_map]
      constructor
      · rintro ⟨works, unblank⟩
        refine .inr ⟨?_, prepared.2.1, prepared.2.2.1, prepared.2.2.2, unblank⟩
        rw [addPlanKeyword_eq, List.forall_mem_append]
        exact ⟨prepared.1, points.mp works⟩
      · rintro (nothing | stored)
        · have none : keywordInserts env form = [] := by
            rw [← List.length_eq_zero_iff, length_keywordInserts, nothing]
            rfl
          rw [← keywordInserts_eq_iff, none, nothing]
          simp
        · have works := stored.works
          rw [addPlanKeyword_eq, List.forall_mem_append] at works
          exact ⟨points.mpr works.2, stored.unblank⟩
  · refine ⟨[], fun rows => ?_, ?_⟩
    · have stopped : runAll fails (preparations env form) rows = none := by
        rw [← Option.not_isSome_iff_eq_none, completesIff_preparations]
        exact prepared
      rw [addPlanKeyword_eq, runCaught_append, stopped, Option.map_none,
        Option.getD_none, insertAll_nil]
      exact runCaught_eq_self idle_preparations
    · rw [eq_comm, iff_self_or]
      intro stored
      have works := stored.works
      rw [addPlanKeyword_eq, List.forall_mem_append] at works
      exact absurd ⟨works.1, stored.multipart, stored.fileName, stored.keyWd⟩
        prepared

end KeywordRows

/-! ## The whole edit -/

section Whole

variable {env : Environment} {form : Form} {fails : Point → Bool}
  {rows last : Rows} {world : World}

/-- The rows without those of some tables. -/
def Rows.without (deleted : List Table) (rows : Rows) : Rows :=
  { rows with
    tables := fun table =>
      if table ∈ deleted then [] else rows.tables table }

theorem runAll_updateAndDelete
    (completed : runAll fails (updateAndDelete form) rows = some last) :
    last =
      { (rows.updateAdInstance form).without
          [.adTimeFilter, .adSite, .adIpTargeting, .adplanKeyword, .adTLink,
            .adDeviceLink] with
        plan :=
          delAdMaterialLinks
            (AdPlanManage.updateAdInstance form.adDto rows.plan) } := by
  simp only [updateAndDelete, deleteRows, quiet, runAll_cons_eq_some_iff,
    run_eq_some_iff, runAll_nil, Option.some_inj] at completed
  obtain ⟨_, ⟨_, rfl⟩, _, ⟨_, rfl⟩, _, ⟨_, rfl⟩, _, ⟨_, rfl⟩, _, ⟨_, rfl⟩, _,
    ⟨_, rfl⟩, _, ⟨_, rfl⟩, _, ⟨_, rfl⟩, _, ⟨_, rfl⟩, rfl⟩ := completed
  rw [Rows.mk.injEq]
  refine ⟨rfl, rfl, rfl, funext fun table => ?_⟩
  cases table <;> rfl

theorem runAll_deleteOthers
    (completed : runAll fails deleteOthers rows = some last) :
    last = rows.without
      [.adTimeFrequency, .adUserFrequency, .adRegionLink,
        .allLabelAdplan] := by
  simp only [deleteOthers, deleteRows, runAll_cons_eq_some_iff,
    run_eq_some_iff, runAll_nil, Option.some_inj] at completed
  obtain ⟨_, ⟨_, rfl⟩, _, ⟨_, rfl⟩, _, ⟨_, rfl⟩, _, ⟨_, rfl⟩, rfl⟩ := completed
  rw [Rows.without, Rows.mk.injEq]
  refine ⟨rfl, rfl, rfl, funext fun table => ?_⟩
  cases table <;> rfl

theorem runCaught_deleteExtLink :
    runCaught fails deleteExtLink rows =
      { rows with
        plan :=
          if fails .deleteAdExtLinkByAdId then rows.plan
          else deleteAdExtLinkByAdId rows.plan } := by
  rw [deleteExtLink, runCaught, Statement.run]
  cases fails .deleteAdExtLinkByAdId <;> rfl

/-- The rows of a form that `addNew` inserts. -/
def added (env : Environment) (form : Form) (table : Table) :
    Option (List Row) :=
  if table = .adplanKeyword then some [] else submitted env form table

/-- The rows of a helper that inserts one row, if it can be formed. -/
theorem flatten_of_mapM_singleton {list : Option (List Row)}
    {formed : List (List Row)} (equal : [list].mapM id = some formed) :
    list = some formed.flatten := by
  cases list with
  | none => cases equal
  | some value =>
      cases Option.some_inj.mp equal
      simp

theorem runAll_creatives
    (completed : runAll fails
      (if form.adDto.linkType = .M then addPlanMaterial env form
        else addAdExtLink env form) rows = some last) :
    ∃ plan, addedPlan env form rows.plan = some plan ∧
      last = { rows with plan := plan } := by
  rw [addedPlan]
  split_ifs at completed ⊢
  · exact runAll_addPlanMaterial completed
  · exact runAll_addAdExtLink completed

theorem runAll_addNew
    (completed : runAll fails (addNew env form) rows = some last) :
    last.adInstance = rows.adInstance ∧
      last.ad3statCodeTemp = rows.ad3statCodeTemp ∧
      addedPlan env form rows.plan = some last.plan ∧
      ∀ table, ∃ list, added env form table = some list ∧
        last.tables table = rows.tables table ++ list := by
  simp only [addNew, runAll_append_eq_some_iff] at completed
  obtain ⟨rows13, ⟨rows12, ⟨rows11, ⟨rows10, ⟨rows9, ⟨rows8, ⟨rows7, ⟨rows6,
    ⟨rows5, ⟨rows4, ⟨rows3, ⟨rows2, ⟨rows1, times, crowds⟩, creatives⟩,
    white⟩, black⟩, backUrls⟩, frequency⟩, users⟩, whiteIps⟩, blackIps⟩,
    regions⟩, labels⟩, devices⟩, query⟩ := completed
  obtain ⟨timeRows, timesFormed, added1⟩ := runAll_insertRows times
  have added2 := runAll_insertEach crowds
  obtain ⟨plan, planFormed, added3⟩ := runAll_creatives creatives
  have added4 := runAll_insertEach white
  have added5 := runAll_insertEach black
  have added6 := runAll_insertEach backUrls
  obtain ⟨frequencyRows, frequencyFormed, added7⟩ :=
    runAll_insertRows frequency
  obtain ⟨userRows, usersFormed, added8⟩ := runAll_insertRows users
  have added9 := runAll_insertEach whiteIps
  have added10 := runAll_insertEach blackIps
  have added11 := runAll_insertEach regions
  have added12 := runAll_insertEach labels
  have added13 := runAll_insertEach devices
  obtain ⟨_, queried, nothing⟩ := runAll_cons_eq_some_iff.mp query
  obtain ⟨_, same⟩ := run_eq_some_iff.mp queried
  have equal : last = rows13 :=
    (Option.some_inj.mp nothing).symm.trans (Option.some_inj.mp same).symm
  have planBefore : rows2.plan = rows.plan := by
    simp only [added2, added1, plan_insertAll]
  have planAfter : last.plan = plan := by
    simp only [equal, added13, added12, added11, added10, added9, added8,
      added7, added6, added5, added4, added3, plan_insertAll]
  rw [planBefore] at planFormed
  have tables : ∀ table, last.tables table =
      rows.tables table ++
        ((((((((((((if table = .adTimeFilter then timeRows.flatten else []) ++
          if table = .adCrowdLink then adCrowdLinks env form else []) ++
          if table = .adSite then adSites env (text "+") form.whiteAdSites
            else []) ++
          if table = .adSite then adSites env (text "-") form.blackAdSites
            else []) ++
          if table = .adSite then backUrlSites env form else []) ++
          if table = .adTimeFrequency then frequencyRows.flatten else []) ++
          if table = .adUserFrequency then userRows.flatten else []) ++
          if table = .adIpTargeting then
            adIpTargetings env (text "+") form.whiteIps else []) ++
          if table = .adIpTargeting then
            adIpTargetings env (text "-") form.blackIps else []) ++
          if table = .adRegionLink then adRegionLinks env form else []) ++
          if table = .allLabelAdplan then allLabelAdplans env form
            else []) ++
          if table = .adDeviceLink then adDeviceLinks env form else []) := by
    intro table
    simp only [equal, added13, added12, added11, added10, added9, added8,
      added7, added6, added5, added4, added3, added2, added1,
      tables_insertAll, List.append_assoc]
  refine ⟨?_, ?_, planAfter ▸ planFormed, fun table => ⟨_, ?_, tables table⟩⟩
  · simp only [equal, added13, added12, added11, added10, added9, added8,
      added7, added6, added5, added4, added3, added2, added1,
      adInstance_insertAll]
  · simp only [equal, added13, added12, added11, added10, added9, added8,
      added7, added6, added5, added4, added3, added2, added1,
      ad3statCodeTemp_insertAll]
  · cases table with
    | adTimeFilter => simp [added, submitted, timesFormed]
    | adTimeFrequency =>
        simpa [added, submitted] using
          flatten_of_mapM_singleton frequencyFormed
    | adUserFrequency =>
        simpa [added, submitted] using
          flatten_of_mapM_singleton usersFormed
    | _ => simp [added, submitted]

theorem isSome_submitted_iff :
    (∀ table, (submitted env form table).isSome = true) ↔
      (∀ times ∈ adTimeFilters env form, times.isSome = true) ∧
        (adTimeFrequency env form).isSome = true ∧
        (adUserFrequency env form).isSome = true := by
  have times : (submitted env form .adTimeFilter).isSome = true ↔
      ∀ times ∈ adTimeFilters env form, times.isSome = true := by
    rw [submitted, Option.isSome_map, mapM_isSome_iff]
    rfl
  rw [← times]
  constructor
  · refine fun formed => ⟨formed _, ?_, ?_⟩
    · simpa [submitted] using formed .adTimeFrequency
    · simpa [submitted] using formed .adUserFrequency
  · rintro ⟨times, frequency, users⟩ table
    cases table with
    | adTimeFilter => exact times
    | adTimeFrequency => simpa [submitted] using frequency
    | adUserFrequency => simpa [submitted] using users
    | _ => rfl

/-- The insertions complete if all rows can be formed and nothing fails. -/
theorem completesIff_addNew :
    CompletesIff fails (addNew env form)
      ((∀ table, (submitted env form table).isSome = true) ∧
        (submittedLinks env form).isSome = true) := by
  have frequency : CompletesIff fails
      (insertRows .adTimeFrequency .adTimeFrequency
        [(adTimeFrequency env form).map fun row => [row]])
      ((adTimeFrequency env form).isSome = true) :=
    completesIff_adding.congr (by simp)
  have users : CompletesIff fails
      (insertRows .adUserFrequency .adUserFrequency
        [(adUserFrequency env form).map fun row => [row]])
      ((adUserFrequency env form).isSome = true) :=
    completesIff_adding.congr (by simp)
  have query : CompletesIff fails [quiet .findInCache] True :=
    completesIff_of_total (by simp [quiet])
  refine ((((((((((((((completesIff_adding.append
    completesIff_insertEach).append completesIff_creatives).append
    completesIff_insertEach).append completesIff_insertEach).append
    completesIff_insertEach).append frequency).append users).append
    completesIff_insertEach).append completesIff_insertEach).append
    completesIff_insertEach).append completesIff_insertEach).append
    completesIff_insertEach).append query).congr ?_)
  rw [isSome_submitted_iff]
  simp only [and_true]
  tauto

theorem completesIff_updateAndDelete :
    CompletesIff fails (updateAndDelete form) True :=
  completesIff_of_total (by simp [updateAndDelete, deleteRows, quiet])

theorem completesIff_deleteOthers : CompletesIff fails deleteOthers True :=
  completesIff_of_total (by simp [deleteOthers, deleteRows])

/-- Whether an exception leaves the method before the cache is written can be
told beforehand. -/
theorem reachesCache_iff :
    ReachesCache env form fails rows.plan ↔
      (checked env form fails rows.plan).isSome = true ∧
        (runBlocks fails (blocks env form) rows).isSome = true := by
  have returns : ∀ state : Rows,
      (runBlocks fails [] state).isSome = true ↔ True :=
    fun state => iff_of_true rfl trivial
  rw [blocks, completesIff_updateAndDelete.plain (isSome_runBlocks_caught
    (completesIff_deleteOthers.plain (isSome_runBlocks_caught
      (completesIff_addNew.plain returns)))), checked]
  cases compared : fails .checkAdUrl with
  | true =>
      exact iff_of_false (fun reaches => by simp [reaches.compares] at compared)
        (by simp)
  | false =>
      rw [if_neg Bool.false_ne_true]
      constructor
      · intro reaches
        have works := reaches.works
        rw [List.forall_mem_append, List.forall_mem_append] at works
        have links := reaches.creatives
        rw [isSome_addedPlan] at links
        exact ⟨reaches.compared, ⟨works.1.1, trivial⟩,
          ⟨works.1.2, trivial⟩, ⟨works.2, reaches.tables, links⟩, trivial⟩
      · rintro ⟨found, ⟨first, _⟩, ⟨second, _⟩, ⟨third, tables, links⟩, _⟩
        refine ⟨compared, found, ?_, tables, ?_⟩
        · rw [List.forall_mem_append, List.forall_mem_append]
          exact ⟨⟨first, second⟩, third⟩
        · rwa [isSome_addedPlan]

/-- The rows when the cache is written. -/
structure IsReached (env : Environment) (form : Form) (fails : Point → Bool)
    (old rows : Rows) : Prop where
  adInstance : rows.adInstance = (old.updateAdInstance form).adInstance
  ad3statCodeTemp : rows.ad3statCodeTemp = old.ad3statCodeTemp
  plan : addedPlan env form (emptiedPlan form fails old.plan) =
    some rows.plan
  tables : ∀ table, table ≠ .adplanKeyword →
    ∃ list, submitted env form table = some list ∧
      rows.tables table =
        (if table = .adCrowdLink then old.tables table else []) ++ list
  adplanKeyword : ∃ before, before.tables .adplanKeyword = [] ∧
    rows.tables .adplanKeyword =
      (runCaught fails (addPlanKeyword env form) before).tables .adplanKeyword

theorem isReached_of_runBlocks
    (completed : runBlocks fails (blocks env form) rows = some last) :
    IsReached env form fails rows last := by
  obtain ⟨rows1, updated, completed⟩ := runBlocks_plain.mp completed
  have first := runAll_updateAndDelete updated
  have completed := runBlocks_caught.mp completed
  rw [runCaught_deleteExtLink] at completed
  obtain ⟨rows2, deleted, completed⟩ := runBlocks_plain.mp completed
  have second := runAll_deleteOthers deleted
  have completed := runBlocks_caught.mp completed
  obtain ⟨list, inserted, _⟩ :=
    exists_runCaught_addPlanKeyword env form fails
  obtain ⟨rows3, new, nothing⟩ := runBlocks_plain.mp completed
  cases Option.some_inj.mp nothing
  obtain ⟨adInstance, temp, plan, tables⟩ := runAll_addNew new
  have emptied : ∀ table, rows2.tables table =
      if table = .adplanKeyword then []
      else if table = .adCrowdLink then rows.tables table else [] := by
    intro table
    rw [second, Rows.without, first]
    cases table <;> rfl
  constructor
  case adInstance => rw [adInstance, inserted, second, first]; rfl
  case ad3statCodeTemp => rw [temp, inserted, second, first]; rfl
  case plan =>
    rw [← plan, inserted, plan_insertAll, second, first]
    rfl
  case tables =>
    intro table keyword
    obtain ⟨list, formed, equal⟩ := tables table
    rw [added, if_neg keyword] at formed
    refine ⟨list, formed, ?_⟩
    rw [equal, inserted, tables_insertAll, if_neg keyword, List.append_nil,
      emptied, if_neg keyword]
  case adplanKeyword =>
    obtain ⟨list, formed, equal⟩ := tables .adplanKeyword
    cases Option.some_inj.mp formed
    exact ⟨rows2, emptied _, by rw [equal, List.append_nil]⟩

section Commands

variable {list : List AdMaterialCache} {cache : Hash Int Json}

end Commands

theorem runAll_review {flag : Bool}
    (works : ∀ statement ∈ review env flag rows.plan,
      fails statement.point = false) :
    runAll fails (review env flag rows.plan) rows =
      some { rows with plan := reviewed env flag rows.plan } := by
  rw [review, reviewed] at *
  refine runAll_cons_eq_some_iff.mpr
    ⟨rows, run_eq_some_iff.mpr ⟨works _ List.mem_cons_self, rfl⟩, ?_⟩
  have rest := fun statement member =>
    works statement (List.mem_cons_of_mem _ member)
  clear works
  cases user : env.user with
  | none =>
      rw [user] at rest
      split_ifs <;> rfl
  | some type =>
      rw [user] at rest
      dsimp only at rest ⊢
      rw [withdraw]
      split_ifs at rest ⊢
      · refine runAll_cons_eq_some_iff.mpr
          ⟨_, run_eq_some_iff.mpr ⟨rest _ List.mem_cons_self, rfl⟩, ?_⟩
        refine runAll_cons_eq_some_iff.mpr
          ⟨_, run_eq_some_iff.mpr ⟨rest _ (by simp), rfl⟩, rfl⟩
      · rfl

theorem runAll_review_isSome_iff {flag : Bool} {plan : Plan} :
    (runAll fails (review env flag plan) rows).isSome = true ↔
      ∀ statement ∈ review env flag plan, fails statement.point = false := by
  refine runAll_isSome_iff fun statement member before => ?_
  rw [review] at member
  rcases List.mem_cons.mp member with rfl | member
  · rfl
  · split_ifs at member
    · cases user : env.user with
      | none =>
          rw [user] at member
          cases member
      | some user =>
          rw [user] at member
          rcases List.mem_cons.mp member with rfl | member
          · rfl
          · obtain rfl := List.mem_singleton.mp member
            rfl
    · cases member

theorem reviewed_links {flag : Bool} {plan : Plan} :
    (reviewed env flag plan).adMLinks = plan.adMLinks ∧
      (reviewed env flag plan).adExtLinks = plan.adExtLinks := by
  rw [reviewed]
  split
  · exact ⟨rfl, rfl⟩
  · rw [withdraw]
    split_ifs <;> exact ⟨rfl, rfl⟩

/-- Everything that an edit can do before it writes the cache. -/
theorem editAdPlan_cases (env : Environment) (form : Form)
    (fails : Point → Bool) (world : World) :
    ¬ ReachesCache env form fails world.rows.plan ∧
        editAdPlan env form fails world = (false, world) ∨
      ∃ flag rows,
        ReachesCache env form fails world.rows.plan ∧
        checkAdUrl env.platform env.returned.adMLinkList form.adDto
          world.rows.plan = some flag ∧
        runBlocks fails (blocks env form) world.rows = some rows ∧
        editAdPlan env form fails world =
          match runAll fails (review env flag rows.plan) rows with
          | none =>
              (false, ⟨world.rows,
                cacheUpdate fails (listInCache env form rows) world.cache⟩)
          | some reviewed =>
              (true, ⟨reviewed,
                cacheUpdate fails (listInCache env form rows)
                  world.cache⟩) := by
  rw [reachesCache_iff, editAdPlan]
  cases found : checked env form fails world.rows.plan with
  | none => exact .inl ⟨by simp, rfl⟩
  | some flag =>
      dsimp only
      cases completed : runBlocks fails (blocks env form) world.rows with
      | none => exact .inl ⟨by simp, rfl⟩
      | some rows =>
          refine .inr ⟨flag, rows, ⟨rfl, rfl⟩, ?_, rfl, rfl⟩
          rw [checked] at found
          split_ifs at found
          exact found

/-! ## What is lost -/

section Lost

variable {flag : Bool} {old : Rows}

variable (cache : Hash Int Json)

end Lost

end Whole

/-! ## A plan with keywords -/

/-- The advertisement `1`, edited by its user. -/
def oneUser : Environment where
  platform := asciiPlatform
  adId := 1
  ctStr := text "2015-01-01 00:00:00"
  db := oneMaterial.db
  regionTargeting := []
  kwDirectory := none
  user := some .normal
  returned := ⟨[material 5], [material 5]⟩

/-- No column is set. -/
def noColumns : AdInstanceDto :=
  ⟨none, none, none, none, none, none, none, none, none, none, none, none,
    none⟩

/-- The form of the material with some keywords. -/
def keywordForm (keyWd : String) : Form where
  adDto := materialForm "5"
  adInstanceDto := noColumns
  kwfilepath := some none
  kwFileName := some []
  keyWordAdPlan :=
    some ⟨some (text keyWd), none, none, none, none, none, none⟩
  putHours := text "workDay:true%start:1#end:2;weekendDay:false%start:1#end:2"
  crowdSeledIds := []
  whiteAdSites := text "http://a.example"
  blackAdSites := []
  backUrlSite := []
  whiteIps := text "1.1.1.1\r\n1.1.1.2"
  blackIps := []
  regionCodes := []
  allLabelCodes := []
  adDeviceIds := text "1,2"
  adTimeFrequencyDto := some ⟨none, none, some (text "100"), none, none⟩
  adUserFrequencyDto := some ⟨none, none, none⟩

/-- The plan with an old keyword. -/
def oldWorld : World where
  rows :=
    { adInstance := noColumns
      ad3statCodeTemp := none
      plan := ⟨.M, 2, [material 5], [], fun _ => []⟩
      tables := fun table =>
        if table = .adplanKeyword then [[some (text "old")]] else [] }
  cache := []

end WindowSystem.Admanager.EditAdPlan
