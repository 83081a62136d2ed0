import WindowSystem.Sspserver.Filters

/-!
# The choice of an ad

`AdRetrievalCommonServiceImpl.adRetrieveCommonForVaolanPush` with the methods
that it calls.  The filters sort the plans of the map into lists, one for each
kind of targeting, and the ad is drawn from the first list that is not empty.
-/

namespace WindowSystem.Sspserver.AdRetrieval

open WindowSystem.Sspserver.Filters
open WindowSystem.Sspserver.JavaRuntime
open WindowSystem.Sspserver.Model

/-- What the retrieval is called with, apart from the draws. -/
structure Request where
  platform : Platform
  readings : Readings
  element : AdFilterElement
  request : HttpServletRequest

variable (call : Request)

/-! ## Sizes -/

/-- `judageAdPlanSize` -/
def judageAdPlanSize (advPlan : AdvPlan) (width height : JavaString) : Bool :=
  advPlan.adMaterials.all fun admaterial =>
    width ++ text "x" ++ height = admaterial.materialSizeValue

/-- The requested size, if there is one, is the one of the plan. -/
def sizeFilter (advPlan : AdvPlan) : Bool :=
  if isNotBlank call.platform call.element.width &&
      isNotBlank call.platform call.element.height then
    judageAdPlanSize advPlan call.element.width call.element.height
  else true

/-- `getAdPlanSize`; `none` is `null`. -/
def getAdPlanSize (advPlan : AdvPlan) : Option (List JavaString) :=
  let linkType := advPlan.adInstance.linkType
  if linkType = text "M" then
    advPlan.adMaterials.head?.map fun admaterial =>
      split 'x' admaterial.materialSizeValue
  else if linkType = text "E" ∨ linkType = text "J" ∨ linkType = text "L" then
    some [advPlan.adExtLink.width, advPlan.adExtLink.height]
  else none

/-! ## The lists of plans -/

/-- The lists that `filterAdForVaolanPush` fills. -/
structure Candidates where
  vaolanMangtouAdIds : List AdvPlan
  vaolanAdIds : List AdvPlan
  urlTargetAdIds : List AdvPlan
  adAcctTargetAdIds : List AdvPlan
  ipTargetsAdIds : List AdvPlan
  hostTargetAdIds : List AdvPlan

/-- The empty lists. -/
def Candidates.empty : Candidates where
  vaolanMangtouAdIds := []
  vaolanAdIds := []
  urlTargetAdIds := []
  adAcctTargetAdIds := []
  ipTargetsAdIds := []
  hostTargetAdIds := []

/-- `list.add` under a condition. -/
def addIf (condition : Bool) (advPlan : AdvPlan) (list : List AdvPlan) :
    List AdvPlan :=
  if condition then list ++ [advPlan] else list

/-- The plan is aimed at the page by its url. -/
def isUrlTarget (advPlan : AdvPlan) : Bool :=
  advPlan.isUrlFilter &&
    MediaFilter.adUrlFilter call.platform advPlan call.element

/-- The plan is aimed at the account. -/
def isAdAcctTarget (advPlan : AdvPlan) : Bool :=
  advPlan.isAdAcctTargetFilter &&
    adAcctFilter call.platform advPlan call.element

/-- The plan is aimed at the address. -/
def isIpTarget (advPlan : AdvPlan) : Bool :=
  advPlan.isPosIpTargetFilter &&
    ipPosTargetFilter call.platform advPlan call.element

/-- The plan is aimed at the host of the page. -/
def isHostTarget (advPlan : AdvPlan) : Option Bool :=
  if advPlan.isSiteFilter then
    MediaFilter.adSiteFilter call.platform advPlan call.element
  else some false

/-- The plan is not aimed at groups of users. -/
def isMangtou (advPlan : AdvPlan) : Bool :=
  !advPlan.isDmpCrowdMatch && !advPlan.isLabelFilter &&
    !advPlan.isKeywordFilter

/-- The lists after a plan has passed the filters. -/
def addPlan (advPlan : AdvPlan) (lists : Candidates) : Option Candidates :=
  (isHostTarget call advPlan).map fun isHost =>
    { vaolanAdIds := lists.vaolanAdIds ++ [advPlan]
      urlTargetAdIds :=
        addIf (isUrlTarget call advPlan) advPlan lists.urlTargetAdIds
      adAcctTargetAdIds :=
        addIf (isAdAcctTarget call advPlan) advPlan lists.adAcctTargetAdIds
      ipTargetsAdIds :=
        addIf (isIpTarget call advPlan) advPlan lists.ipTargetsAdIds
      hostTargetAdIds := addIf isHost advPlan lists.hostTargetAdIds
      vaolanMangtouAdIds :=
        addIf (isMangtou advPlan) advPlan lists.vaolanMangtouAdIds }

/-- The plan is considered at all: it is not excluded and has the requested
size. -/
def considered (adId : JavaString) (advPlan : AdvPlan) : Bool :=
  !call.element.excludeAdIds.contains adId && sizeFilter call advPlan

/-- The filters of the chain for this call. -/
def chain (advPlan : AdvPlan) : Written Bool :=
  filterChain call.platform call.readings advPlan call.element call.request

/-- The loop of `filterAdForVaolanPush`. -/
def filterLoop (lists : Candidates) :
    List (JavaString × AdvPlan) → Written Candidates
  | [] => .ofResult (some lists)
  | (adId, advPlan) :: rest =>
      if considered call adId advPlan then
        let filtered := chain call advPlan
        match filtered.result with
        | none => ⟨filtered.writes, none⟩
        | some false =>
            let later := filterLoop lists rest
            ⟨filtered.writes ++ later.writes, later.result⟩
        | some true =>
            match addPlan call advPlan lists with
            | none => ⟨filtered.writes, none⟩
            | some added =>
                let later := filterLoop added rest
                ⟨filtered.writes ++ later.writes, later.result⟩
      else filterLoop lists rest

/-- `filterAdForVaolanPush` -/
def filterAdForVaolanPush (plans : PlanMap) : Written Candidates :=
  filterLoop call .empty plans.entries

/-! ## The result -/

/-- Put an ad and its size into the result.  A plan without a size leaves it
as it is; a size without two parts is an exception. -/
def deliver (adProperty : AdProperty) (adv : AdvPlan) (adId : JavaString)
    (adThrowType hitCause : JavaString) : Option AdProperty :=
  match getAdPlanSize adv with
  | none => some adProperty
  | some (width :: height :: _) =>
      some
        { adProperty with
          adId := some adId
          width := width
          height := height
          adThrowType := adThrowType
          hitCause := hitCause
          userId := adv.adInstance.userId
          adName := adv.adInstance.adName
          closeType := adv.adInstance.closeType
          linkType := adv.adInstance.linkType
          extLink := adv.adExtLink.throwUrl }
  | some _ => none

/-- `processVizury`: the result, and the list without the plan of Vizury. -/
def processVizury (plans : PlanMap) (vaolanAdIds : List AdvPlan)
    (adProperty : AdProperty) : Option (AdProperty × List AdvPlan) :=
  let asked := { adProperty with adThrowType := text "2" }
  if vaolanAdIds.any fun adv => text "304" = adv.advId then
    (plans.get (text "304")).bind fun vizury =>
      match getAdPlanSize vizury with
      | some (width :: height :: _) =>
          some
            ({ asked with
                vizuryAdId := some (text "304")
                vizuryUserId := text "42"
                vizuryTag := text "1"
                vizuryWidth := width
                vizuryHeight := height
                vizuryCloseType := vizury.adInstance.closeType },
              vaolanAdIds.eraseP fun adv => text "304" = adv.advId)
      | _ => none
  else some ({ asked with vizuryTag := text "0" }, vaolanAdIds)

/-- `notVaolanAccuratePv` -/
def notVaolanAccuratePv (plans : PlanMap) (random : Nat)
    (vaolanMangtouAdIds : List AdvPlan) (adProperty : AdProperty) :
    Option AdProperty :=
  (processVizury plans vaolanMangtouAdIds adProperty).bind
    fun (asked, remaining) =>
      match draw random remaining with
      | none => some { asked with hitCause := text "NO" }
      | some adv =>
          deliver { asked with hitCause := text "VL_MT" } adv adv.advId
            (text "2") (text "VL_MT")

/-- `crowdAdIds` -/
def crowdAdIds (plans : PlanMap) (crowdIds : List JavaString)
    (vaolanAdIds : List AdvPlan) : List JavaString :=
  plans.entries.flatMap fun (key, advPlan) =>
    if sizeFilter call advPlan && advPlan.isDmpCrowdMatch &&
        vaolanAdIds.contains advPlan then
      (advPlan.dmpCrowds.filter crowdIds.contains).map fun _ => key
    else []

/-- The branch of the users of a crowd. -/
def crowdBranch (plans : PlanMap) (draws : Draws) (crowdIds : List JavaString)
    (lists : Candidates) (adProperty : AdProperty) : Option AdProperty :=
  let blind :=
    notVaolanAccuratePv plans draws.mangtou lists.vaolanMangtouAdIds
      adProperty
  match draw draws.crowd (crowdAdIds call plans crowdIds lists.vaolanAdIds)
    with
  | none => blind
  | some adId =>
      match plans.get adId with
      | none => blind
      | some advPlan =>
          if isNotBlank call.platform adId &&
              lists.vaolanAdIds.contains advPlan then
            deliver adProperty advPlan adId (text "1") (text "OFF_CROWD")
          else blind

/-- The crowds of the user; without the switch they are not asked for. -/
def crowdIds : Option (List JavaString) :=
  if call.readings.crowdSwitch then call.readings.crowdIdsByAdUa else some []

/-- What follows the search-matched ads. -/
def laterBranches (plans : PlanMap) (draws : Draws) (lists : Candidates)
    (adProperty : AdProperty) : Option AdProperty :=
  match draw draws.host lists.hostTargetAdIds with
  | some adv =>
      (deliver adProperty adv adv.advId (text "2") (text "HOST_TARGET")).bind
        fun delivered =>
          (processVizury plans lists.vaolanAdIds delivered).map Prod.fst
  | none =>
      (crowdIds call).bind fun crowdIds =>
        if crowdIds = [] then
          notVaolanAccuratePv plans draws.mangtou lists.vaolanMangtouAdIds
            adProperty
        else crowdBranch call plans draws crowdIds lists adProperty

/-- `jsjtStandbyAdIds` -/
def jsjtStandbyAdIds : Option (List JavaString) :=
  if call.element.type = text "4" then call.readings.adIdsFromRedis
  else if call.element.type = text "5" ∧ call.element.adId ≠ [] then
    some [call.element.adId]
  else some []

/-- `canPostAdIds` -/
def canPostAdIds (standby : List JavaString) (vaolanAdIds : List AdvPlan) :
    List JavaString :=
  standby.flatMap fun subAdId =>
    (vaolanAdIds.filter fun plan =>
      equalsIgnoreCase call.platform plan.advId subAdId).map fun _ => subAdId

/-- The branches from the search-matched ads on; the outer `none` is an
exception, the inner one `null`. -/
def jsjtBranch (plans : PlanMap) (draws : Draws) (lists : Candidates)
    (adProperty : AdProperty) : Option (Option AdProperty) :=
  (jsjtStandbyAdIds call).bind fun standby =>
    match (draw draws.jsjt
        (canPostAdIds call standby lists.vaolanAdIds)).bind fun suitableAdId =>
          (plans.get suitableAdId).map (suitableAdId, ·) with
    | some (suitableAdId, jsjtAdvPlan) =>
        (deliver adProperty jsjtAdvPlan suitableAdId (text "1")
          (text "JSJT")).map some
    | none =>
        if call.element.type = text "5" then some none
        else (laterBranches call plans draws lists adProperty).map some

/-- The result before the lists are looked at. -/
def initialProperty : AdProperty :=
  { AdProperty.new with
    adAcct := call.element.adAcct
    ref := call.element.ref
    adThrowType := text "2" }

/-- What `adRetrieveCommonForVaolanPush` does with the lists. -/
def choose (plans : PlanMap) (draws : Draws) (lists : Candidates) :
    Option (Option AdProperty) :=
  let adProperty := initialProperty call
  match draw draws.adAcct lists.adAcctTargetAdIds with
  | some adv =>
      (deliver adProperty adv adv.advId (text "1") (text "AD_TARGET")).map
        some
  | none =>
      match draw draws.url lists.urlTargetAdIds with
      | some adv =>
          (deliver adProperty adv adv.advId (text "1")
            (text "URL_TARGET")).map some
      | none =>
          match draw draws.ip lists.ipTargetsAdIds with
          | some adv =>
              (deliver adProperty adv adv.advId (text "1")
                (text "IP_TARGET")).map some
          | none => jsjtBranch call plans draws lists adProperty

/-- `adRetrieveCommonForVaolanPush` -/
def adRetrieveCommonForVaolanPush (plans : PlanMap) (draws : Draws) :
    Written (Option AdProperty) :=
  let filtered := filterAdForVaolanPush call plans
  ⟨filtered.writes, filtered.result.bind (choose call plans draws)⟩

end WindowSystem.Sspserver.AdRetrieval
