import Mathlib.Data.Finmap
import WindowSystem.Library.Refill
import WindowSystem.Sspserver.Model

/-!
# Reloading the plans

`DBInfoFresh.freshAdvInfo` and the two loaders of `AdPlanTotalInfoComImpl`.
The maps that serve the requests are cleared and filled again from the
database, step by step, and a look-up between two of the steps may end in an
exception.  The module says for which data a request that looks at the maps
meanwhile, or after an exception, sees the old or the complete new ones.
-/

namespace WindowSystem.Sspserver.DBInfoFresh

open WindowSystem.Library.Refill
open WindowSystem.Sspserver.JavaRuntime
open WindowSystem.Sspserver.Model

/-! ## The maps -/

/-- A map from ad ids to plans. -/
abbrev AdvPlanMap := Finmap fun _ : JavaString => AdvPlan

/-- A map from words to the ids of their ads. -/
abbrev AdsKeywordMap := Finmap fun _ : JavaString => Finset JavaString

/-- `PUSH_CHANNEL`, `QINGKOO_VIDEO_CHANNEL` and `SH_PROTAL_CHANNEL` -/
inductive Channel where
  | push
  | qingkooVideo
  | shProtal
deriving DecidableEq

/-- The number of a channel. -/
def Channel.number : Channel → JavaString
  | .push => text "2"
  | .qingkooVideo => text "6"
  | .shProtal => text "7"

/-- The live maps: `advPlanMap2`, `advPlanMap6` and `advPlanMap7` by channel,
and `adsKeywordMap`. -/
@[ext]
structure LiveMaps where
  advPlanMap : Channel → AdvPlanMap
  adsKeywordMap : AdsKeywordMap

/-- `advPlanMap.put` -/
def putPlan (map : AdvPlanMap) (plan : JavaString × AdvPlan) : AdvPlanMap :=
  map.insert plan.1 plan.2

/-- The loop body of `assembFenci`. -/
def addKeyword (keywordsMap : AdsKeywordMap)
    (keyword : JavaString × JavaString) : AdsKeywordMap :=
  match keywordsMap.lookup keyword.1 with
  | some adIds => keywordsMap.insert keyword.1 (insert keyword.2 adIds)
  | none => keywordsMap.insert keyword.1 {keyword.2}

/-! ## The database -/

/-- `AdPlanKeyWord` -/
structure AdPlanKeyWord where
  keyWd : JavaString
  kwType : JavaString
  kwFilePath : JavaString

/-- What the look-ups of a reload give: the methods of the data access
objects, the files of keywords, and the words of a text. -/
structure Database where
  getInstanceByChannel : JavaString → List AdInstance
  getMaterialByAdId : JavaString → List AdMaterial
  getFrequencyByAdId : JavaString → AdTimeFrequency
  getSiteUrlByAdId : JavaString → List JavaString
  getNegSiteUrlByAdId : JavaString → List JavaString
  getUrlByAdId : JavaString → List JavaString
  getTimeFilterByAdId : JavaString → List AdTimeFilter
  getPosTargetIpByAdId : JavaString → List JavaString
  getTargetAdAcctByAdId : JavaString → List JavaString
  getNegTargetIpByAdId : JavaString → List JavaString
  getRegionTargetByAdId : JavaString → List JavaString
  getAdExtLinkByAdId : JavaString → Option AdExtLink
  getUserFrequencyByAdId : JavaString → Option AdUserFrequency
  getAdDeviceLinks : JavaString → List JavaString
  qryAdplanLabelByAdId : JavaString → List JavaString
  qryAdPlanKeyWordByAdId : JavaString → Option AdPlanKeyWord
  qryAdPlanKeyWordNotJSJTByAdId : JavaString → Option AdPlanKeyWord
  getFtpFileContent : JavaString → JavaString → List JavaString
  getFenci : JavaString → List JavaString

variable (db : Database)

/-- The plan that `getAdvPlans` builds for an instance.  It sets no crowds. -/
def advPlanOf (instance_ : AdInstance) : AdvPlan where
  adInstance := instance_
  adMaterials := db.getMaterialByAdId instance_.adId
  adTimeFrequency := db.getFrequencyByAdId instance_.adId
  adSites := db.getSiteUrlByAdId instance_.adId
  negAdSites := db.getNegSiteUrlByAdId instance_.adId
  adUrls := db.getUrlByAdId instance_.adId
  adTimeFilters := db.getTimeFilterByAdId instance_.adId
  ipPosTargetFilters := db.getPosTargetIpByAdId instance_.adId
  adAcctTargetFilters := db.getTargetAdAcctByAdId instance_.adId
  ipNegTargetFilters := db.getNegTargetIpByAdId instance_.adId
  regionTargetFilters := db.getRegionTargetByAdId instance_.adId
  adExtLink := (db.getAdExtLinkByAdId instance_.adId).getD ⟨[], [], []⟩
  adUserFrequency := db.getUserFrequencyByAdId instance_.adId
  adDeviceLinkList := db.getAdDeviceLinks instance_.adId
  isLabelFilter := isFilter (db.qryAdplanLabelByAdId instance_.adId)
  isKeywordFilter := (db.qryAdPlanKeyWordByAdId instance_.adId).isSome
  dmpCrowds := []

/-- The texts that `getAdKeywordsvPlans` takes the words of an ad from. -/
def keywordTexts (adId : JavaString) : List JavaString :=
  match db.qryAdPlanKeyWordNotJSJTByAdId adId with
  | none => []
  | some apkw =>
      if apkw.kwType = text "1" then [apkw.keyWd]
      else if apkw.kwType = text "2" then
        db.getFtpFileContent apkw.kwFilePath apkw.keyWd
      else []

/-- The plans of a channel in the order in which they are put. -/
def plansOf (channel : Channel) : List (JavaString × AdvPlan) :=
  (db.getInstanceByChannel channel.number).map fun instance_ =>
    (instance_.adId, advPlanOf db instance_)

/-- The words of a channel in the order in which they are added. -/
def keywordsOf (channel : Channel) : List (JavaString × JavaString) :=
  (db.getInstanceByChannel channel.number).flatMap fun instance_ =>
    (keywordTexts db instance_.adId).flatMap fun content =>
      (db.getFenci content).map fun fenci => (fenci, instance_.adId)

/-- The complete new maps. -/
def newMaps : LiveMaps where
  advPlanMap channel := filled ∅ putPlan (plansOf db channel)
  adsKeywordMap := filled ∅ addKeyword (keywordsOf db .push)

/-! ## The steps of a reload -/

/-- What a reload does one after the other.  A step `load` stands for the
look-ups up to the next change of a map. -/
inductive Step where
  | clearPlans (channel : Channel)
  | clearKeywords
  | load
  | putPlan (channel : Channel) (plan : JavaString × AdvPlan)
  | addKeyword (keyword : JavaString × JavaString)
  | setKeywords (adsKeywordMap : AdsKeywordMap)
  | log (adId : JavaString)

/-- The live maps after a step. -/
def Step.apply (live : LiveMaps) : Step → LiveMaps
  | .clearPlans channel =>
      { live with
        advPlanMap := Function.update live.advPlanMap channel ∅ }
  | .clearKeywords => { live with adsKeywordMap := ∅ }
  | .load => live
  | .putPlan channel plan =>
      { live with
        advPlanMap :=
          Function.update live.advPlanMap channel
            (DBInfoFresh.putPlan (live.advPlanMap channel) plan) }
  | .addKeyword keyword =>
      { live with
        adsKeywordMap := DBInfoFresh.addKeyword live.adsKeywordMap keyword }
  | .setKeywords adsKeywordMap => { live with adsKeywordMap := adsKeywordMap }
  | .log _ => live

/-- The live maps after some steps. -/
def run (live : LiveMaps) (steps : List Step) : LiveMaps :=
  steps.foldl Step.apply live

/-- The steps that can end in an exception: look-ups, and `targetInfo` of a
plan without the data that it prints. -/
def Step.throws : Step → Bool
  | .load => true
  | .log _ => true
  | _ => false

/-- `getAdvPlans` -/
def getAdvPlans (channel : Channel) : List Step :=
  .load :: (db.getInstanceByChannel channel.number).flatMap fun instance_ =>
    [.load, .putPlan channel (instance_.adId, advPlanOf db instance_)]

/-- `getAdKeywordsvPlans`, with the step that adds a word to the map that it
is given. -/
def getAdKeywordsvPlans (add : JavaString × JavaString → Step)
    (channel : Channel) : List Step :=
  .load :: (db.getInstanceByChannel channel.number).flatMap fun instance_ =>
    .load :: (keywordTexts db instance_.adId).flatMap fun content =>
      .load :: (db.getFenci content).map fun fenci =>
        add (fenci, instance_.adId)

/-- The steps at the start of `freshAdvInfo`. -/
def clears : List Step :=
  [.clearPlans .push, .clearPlans .qingkooVideo, .clearPlans .shProtal,
    .clearKeywords]

/-- The steps that load the plans. -/
def loadPlans : List Step :=
  getAdvPlans db .push ++ getAdvPlans db .qingkooVideo ++
    getAdvPlans db .shProtal

/-- The steps that load the words: into the live map if it is empty, else into
a new one that nobody looks at until it takes the place of the live one. -/
def loadKeywords (live : LiveMaps) : List Step :=
  if live.adsKeywordMap.keys.card ≤ 0 then
    getAdKeywordsvPlans db .addKeyword .push
  else
    getAdKeywordsvPlans db (fun _ => .load) .push ++
      [.setKeywords (filled ∅ DBInfoFresh.addKeyword (keywordsOf db .push))]

/-- The lines of the log. -/
def logPlans : List Step :=
  ((plansOf db .push).map Prod.fst).dedup.map .log

/-- `freshAdvInfo` -/
def freshAdvInfo (old : LiveMaps) : List Step :=
  let start := clears ++ loadPlans db
  start ++ loadKeywords db (run old start) ++ logPlans db

/-- The steps that were taken: all of them, or those before one that ended in
an exception. -/
def Taken (steps taken : List Step) : Prop :=
  taken = steps ∨ ∃ failing rest,
    steps = taken ++ failing :: rest ∧ failing.throws = true

/-- The promise of a reload: afterwards the maps are the old or the complete
new ones, and at no time anyone sees another one. -/
structure AtomicReload (old : LiveMaps) (taken : List Step) : Prop where
  ended : run old taken = old ∨ run old taken = newMaps db
  seenPlans : ∀ channel front, front <+: taken →
    (run old front).advPlanMap channel = old.advPlanMap channel ∨
      (run old front).advPlanMap channel = (newMaps db).advPlanMap channel
  seenKeywords : ∀ front, front <+: taken →
    (run old front).adsKeywordMap = old.adsKeywordMap ∨
      (run old front).adsKeywordMap = (newMaps db).adsKeywordMap

/-! ## What the steps put into the maps -/

/-- The plan that a step puts into the map of the channel. -/
def Step.planPut (channel : Channel) : Step → Option (JavaString × AdvPlan)
  | .putPlan other plan => if other = channel then some plan else none
  | _ => none

/-- The word that a step adds. -/
def Step.keywordAdded : Step → Option (JavaString × JavaString)
  | .addKeyword keyword => some keyword
  | _ => none

/-- The plans that were put into the map of a channel. -/
def plansPut (channel : Channel) (steps : List Step) :
    List (JavaString × AdvPlan) :=
  steps.filterMap (Step.planPut channel)

/-- The words that were added. -/
def keywordsAdded (steps : List Step) : List (JavaString × JavaString) :=
  steps.filterMap Step.keywordAdded

/-- The step neither clears nor replaces a map. -/
def Step.Fills : Step → Prop
  | .clearPlans _ => False
  | .clearKeywords => False
  | .setKeywords _ => False
  | _ => True

section Fills

variable {live : LiveMaps} {steps : List Step} {channel : Channel}

theorem run_cons (live : LiveMaps) (step : Step) (steps : List Step) :
    run live (step :: steps) = run (step.apply live) steps := rfl

theorem run_append (live : LiveMaps) (front back : List Step) :
    run live (front ++ back) = run (run live front) back :=
  List.foldl_append

theorem plansPut_cons (step : Step) (steps : List Step) :
    plansPut channel (step :: steps) =
      (step.planPut channel).toList ++ plansPut channel steps := by
  rw [plansPut, List.filterMap_cons]
  cases step.planPut channel <;> rfl

theorem keywordsAdded_cons (step : Step) (steps : List Step) :
    keywordsAdded (step :: steps) =
      step.keywordAdded.toList ++ keywordsAdded steps := by
  rw [keywordsAdded, List.filterMap_cons]
  cases step.keywordAdded <;> rfl

theorem apply_advPlanMap {step : Step} (fills : step.Fills) :
    (step.apply live).advPlanMap channel =
      (step.planPut channel).toList.foldl putPlan
        (live.advPlanMap channel) := by
  cases step with
  | clearPlans other => exact fills.elim
  | clearKeywords => exact fills.elim
  | setKeywords map => exact fills.elim
  | load => rfl
  | log adId => rfl
  | addKeyword keyword => rfl
  | putPlan other plan =>
      rw [Step.planPut, Step.apply]
      split_ifs with same
      · subst same
        exact Function.update_self ..
      · exact Function.update_of_ne (Ne.symm same) ..

theorem apply_adsKeywordMap {step : Step} (fills : step.Fills) :
    (step.apply live).adsKeywordMap =
      step.keywordAdded.toList.foldl addKeyword live.adsKeywordMap := by
  cases step with
  | clearPlans other => exact fills.elim
  | clearKeywords => exact fills.elim
  | setKeywords map => exact fills.elim
  | load => rfl
  | log adId => rfl
  | addKeyword keyword => rfl
  | putPlan other plan => rfl

/-- Filling steps put their plans into the map one after the other. -/
theorem run_advPlanMap (fills : ∀ step ∈ steps, step.Fills) :
    (run live steps).advPlanMap channel =
      (plansPut channel steps).foldl putPlan (live.advPlanMap channel) := by
  induction steps generalizing live with
  | nil => rfl
  | cons step steps induction =>
      obtain ⟨here, later⟩ := List.forall_mem_cons.mp fills
      rw [run_cons, induction later, apply_advPlanMap here, plansPut_cons,
        List.foldl_append]

/-- Filling steps add their words one after the other. -/
theorem run_adsKeywordMap (fills : ∀ step ∈ steps, step.Fills) :
    (run live steps).adsKeywordMap =
      (keywordsAdded steps).foldl addKeyword live.adsKeywordMap := by
  induction steps generalizing live with
  | nil => rfl
  | cons step steps induction =>
      obtain ⟨here, later⟩ := List.forall_mem_cons.mp fills
      rw [run_cons, induction later, apply_adsKeywordMap here,
        keywordsAdded_cons, List.foldl_append]

theorem plansPut_append (front back : List Step) :
    plansPut channel (front ++ back) =
      plansPut channel front ++ plansPut channel back :=
  List.filterMap_append

theorem keywordsAdded_append (front back : List Step) :
    keywordsAdded (front ++ back) =
      keywordsAdded front ++ keywordsAdded back :=
  List.filterMap_append

end Fills

section Loads

variable {db}

theorem mem_getAdvPlans {channel : Channel} {step : Step} :
    step ∈ getAdvPlans db channel →
      step = .load ∨ ∃ plan, step = .putPlan channel plan := by
  simp only [getAdvPlans, List.mem_cons, List.mem_flatMap, List.not_mem_nil,
    or_false]
  rintro (rfl | ⟨_, _, rfl | rfl⟩)
  · exact .inl rfl
  · exact .inl rfl
  · exact .inr ⟨_, rfl⟩

theorem mem_getAdKeywordsvPlans {channel : Channel} {step : Step} :
    step ∈ getAdKeywordsvPlans db .addKeyword channel →
      step = .load ∨ ∃ keyword, step = .addKeyword keyword := by
  simp only [getAdKeywordsvPlans, List.mem_cons, List.mem_flatMap,
    List.mem_map]
  rintro (rfl | ⟨_, _, rfl | ⟨_, _, rfl | ⟨_, _, rfl⟩⟩⟩)
  · exact .inl rfl
  · exact .inl rfl
  · exact .inl rfl
  · exact .inr ⟨_, rfl⟩

theorem plansPut_getAdvPlans (other channel : Channel) :
    plansPut channel (getAdvPlans db other) =
      if other = channel then plansOf db other else [] := by
  rw [getAdvPlans, plansPut_cons, plansPut, List.filterMap_flatMap]
  by_cases same : other = channel
  · rw [if_pos same, plansOf, List.map_eq_flatMap]
    simp [Step.planPut, same, List.filterMap_cons]
  · rw [if_neg same]
    simp [Step.planPut, same, List.filterMap_cons]

theorem keywordsAdded_fenci (adId : JavaString) (words : List JavaString) :
    keywordsAdded (.load :: words.map fun fenci =>
        .addKeyword (fenci, adId)) =
      words.map fun fenci => (fenci, adId) := by
  rw [keywordsAdded_cons, keywordsAdded, List.filterMap_map]
  exact congrFun List.filterMap_eq_map words

theorem keywordsAdded_getAdKeywordsvPlans (channel : Channel) :
    keywordsAdded (getAdKeywordsvPlans db .addKeyword channel) =
      keywordsOf db channel := by
  rw [getAdKeywordsvPlans, keywordsAdded_cons, keywordsAdded,
    List.filterMap_flatMap]
  show List.flatMap _ _ = List.flatMap _ _
  congr 1
  funext instance_
  show keywordsAdded _ = _
  rw [keywordsAdded_cons, keywordsAdded, List.filterMap_flatMap]
  show List.flatMap _ _ = List.flatMap _ _
  congr 1
  funext content
  exact keywordsAdded_fenci instance_.adId (db.getFenci content)

/-- What follows the clearing of the maps. -/
def fillSteps (db : Database) : List Step :=
  loadPlans db ++ getAdKeywordsvPlans db .addKeyword .push ++ logPlans db

theorem mem_loadPlans {step : Step} (member : step ∈ loadPlans db) :
    step = .load ∨ ∃ channel plan, step = .putPlan channel plan := by
  rw [loadPlans, List.mem_append, List.mem_append] at member
  rcases member with (first | second) | third
  · exact (mem_getAdvPlans first).imp_right fun put => ⟨_, put⟩
  · exact (mem_getAdvPlans second).imp_right fun put => ⟨_, put⟩
  · exact (mem_getAdvPlans third).imp_right fun put => ⟨_, put⟩

theorem fills_loadPlans : ∀ step ∈ loadPlans db, step.Fills := by
  intro step member
  rcases mem_loadPlans member with rfl | ⟨_, _, rfl⟩
  · exact trivial
  · exact trivial

theorem keywordsAdded_loadPlans : keywordsAdded (loadPlans db) = [] := by
  rw [keywordsAdded, List.filterMap_eq_nil_iff]
  intro step member
  rcases mem_loadPlans member with rfl | ⟨_, _, rfl⟩
  · rfl
  · rfl

theorem fills_fillSteps : ∀ step ∈ fillSteps db, step.Fills := by
  intro step member
  rw [fillSteps, List.mem_append, List.mem_append] at member
  rcases member with (plan | keyword) | log
  · exact fills_loadPlans step plan
  · rcases mem_getAdKeywordsvPlans keyword with rfl | ⟨_, rfl⟩
    · exact trivial
    · exact trivial
  · obtain ⟨_, _, rfl⟩ := List.mem_map.mp log
    exact trivial

/-- The reload puts the plans of each channel into its map. -/
theorem plansPut_fillSteps (channel : Channel) :
    plansPut channel (fillSteps db) = plansOf db channel := by
  have noKeywords : plansPut channel
      (getAdKeywordsvPlans db .addKeyword .push) = [] := by
    rw [plansPut, List.filterMap_eq_nil_iff]
    intro step member
    rcases mem_getAdKeywordsvPlans member with rfl | ⟨_, rfl⟩
    · rfl
    · rfl
  have noLogs : plansPut channel (logPlans db) = [] := by
    rw [plansPut, List.filterMap_eq_nil_iff]
    intro step member
    obtain ⟨_, _, rfl⟩ := List.mem_map.mp member
    rfl
  rw [fillSteps, plansPut_append, plansPut_append, noKeywords, noLogs,
    loadPlans, plansPut_append, plansPut_append, plansPut_getAdvPlans,
    plansPut_getAdvPlans, plansPut_getAdvPlans, List.append_nil,
    List.append_nil]
  cases channel with
  | push => exact (List.append_nil _).trans (List.append_nil _)
  | qingkooVideo => exact List.append_nil _
  | shProtal => rfl

/-- The reload adds the words of the first channel. -/
theorem keywordsAdded_fillSteps :
    keywordsAdded (fillSteps db) = keywordsOf db .push := by
  have noLogs : keywordsAdded (logPlans db) = [] := by
    rw [keywordsAdded, List.filterMap_eq_nil_iff]
    intro step member
    obtain ⟨_, _, rfl⟩ := List.mem_map.mp member
    rfl
  rw [fillSteps, keywordsAdded_append, keywordsAdded_append,
    keywordsAdded_loadPlans, noLogs, List.nil_append, List.append_nil,
    keywordsAdded_getAdKeywordsvPlans]

/-! ## Clearing -/

theorem run_clears (old : LiveMaps) :
    run old clears = ⟨fun _ => ∅, ∅⟩ := by
  ext1
  · funext channel
    cases channel <;> rfl
  · rfl

/-- While the maps are cleared, each is the old one or empty. -/
theorem run_of_prefix_clears {old : LiveMaps} {front : List Step}
    (inside : front <+: clears) :
    (∀ channel, (run old front).advPlanMap channel =
        old.advPlanMap channel ∨
      (run old front).advPlanMap channel = ∅) ∧
    ((run old front).adsKeywordMap = old.adsKeywordMap ∨
      (run old front).adsKeywordMap = ∅) := by
  have cases : front = [] ∨ front = [.clearPlans .push] ∨
      front = [.clearPlans .push, .clearPlans .qingkooVideo] ∨
      front = [.clearPlans .push, .clearPlans .qingkooVideo,
        .clearPlans .shProtal] ∨ front = clears := by
    have listed := (List.mem_inits front clears).mpr inside
    simpa [clears] using listed
  rcases cases with rfl | rfl | rfl | rfl | rfl
  · exact ⟨fun _ => .inl rfl, .inl rfl⟩
  · refine ⟨fun channel => ?_, .inl rfl⟩
    cases channel with
    | push => exact .inr rfl
    | qingkooVideo => exact .inl rfl
    | shProtal => exact .inl rfl
  · refine ⟨fun channel => ?_, .inl rfl⟩
    cases channel with
    | push => exact .inr rfl
    | qingkooVideo => exact .inr rfl
    | shProtal => exact .inl rfl
  · refine ⟨fun channel => ?_, .inl rfl⟩
    cases channel with
    | push => exact .inr rfl
    | qingkooVideo => exact .inr rfl
    | shProtal => exact .inr rfl
  · rw [run_clears]
    exact ⟨fun _ => .inr rfl, .inr rfl⟩

/-- The map of the words has been cleared, so that it is always filled in
place. -/
theorem freshAdvInfo_eq (old : LiveMaps) :
    freshAdvInfo db old = clears ++ fillSteps db := by
  have empty :
      (run old (clears ++ loadPlans db)).adsKeywordMap.keys.card ≤ 0 := by
    rw [run_append, run_clears, run_adsKeywordMap fills_loadPlans,
      keywordsAdded_loadPlans]
    exact Nat.le_refl 0
  rw [freshAdvInfo, loadKeywords, if_pos empty, fillSteps]
  simp only [List.append_assoc]

/-- The clearing cannot fail: some of the steps that follow were taken. -/
theorem Taken.exists_filled {old : LiveMaps} {taken : List Step}
    (ended : Taken (freshAdvInfo db old) taken) :
    ∃ front back, taken = clears ++ front ∧
      fillSteps db = front ++ back := by
  rw [freshAdvInfo_eq] at ended
  rcases ended with rfl | ⟨failing, rest, equal, throws⟩
  · exact ⟨fillSteps db, [], rfl, (List.append_nil _).symm⟩
  · rcases List.append_eq_append_iff.mp equal with
      ⟨front, same, later⟩ | ⟨cleared, same, later⟩
    · exact ⟨front, failing :: rest, same, later⟩
    · cases cleared with
      | nil =>
          refine ⟨[], failing :: rest, ?_, later.symm⟩
          rw [same]
          simp
      | cons first cleared =>
          have clearing : first ∈ clears := by
            rw [same]
            simp
          cases later
          have noThrow : ∀ step ∈ clears, step.throws = false := by
            simp [clears, Step.throws]
          rw [noThrow _ clearing] at throws
          cases throws

end Loads

/-! ## When a reload is atomic -/

theorem growth_putPlan : Growth ∅ putPlan where
  grows map plan := by
    intro empty
    have found : (putPlan map plan).lookup plan.1 = some plan.2 :=
      Finmap.lookup_insert map
    rw [empty, Finmap.lookup_empty] at found
    cases found
  settled first second := by
    constructor
    · intro same
      have found : (putPlan (putPlan ∅ first) second).lookup second.1 =
          some second.2 := Finmap.lookup_insert _
      rw [same] at found
      by_cases equal : second.1 = first.1
      · rw [equal, putPlan, Finmap.lookup_insert] at found
        rw [putPlan, putPlan, equal, ← Option.some_inj.mp found]
      · rw [putPlan, Finmap.lookup_insert_of_ne _ equal,
          Finmap.lookup_empty] at found
        cases found
    · intro same
      have found : (putPlan ∅ second).lookup second.1 = some second.2 :=
        Finmap.lookup_insert _
      rw [same] at found
      by_cases equal : second.1 = first.1
      · rw [equal, putPlan, Finmap.lookup_insert] at found
        rw [putPlan, putPlan, equal, ← Option.some_inj.mp found,
          Finmap.insert_insert]
      · rw [putPlan, Finmap.lookup_insert_of_ne _ equal,
          Finmap.lookup_empty] at found
        cases found

theorem addKeyword_empty (keyword : JavaString × JavaString) :
    addKeyword ∅ keyword = Finmap.insert keyword.1 {keyword.2} ∅ := by
  rw [addKeyword, Finmap.lookup_empty]

theorem lookup_addKeyword (map : AdsKeywordMap)
    (keyword : JavaString × JavaString) :
    (addKeyword map keyword).lookup keyword.1 =
      some (insert keyword.2 ((map.lookup keyword.1).getD ∅)) := by
  rw [addKeyword]
  cases map.lookup keyword.1 with
  | none => exact Finmap.lookup_insert map
  | some adIds => exact Finmap.lookup_insert map

theorem growth_addKeyword : Growth ∅ addKeyword where
  grows map keyword := by
    intro empty
    have found := lookup_addKeyword map keyword
    rw [empty, Finmap.lookup_empty] at found
    cases found
  settled first second := by
    have single : ∀ {found : Finset JavaString},
        (addKeyword ∅ first).lookup second.1 = some found →
          second.1 = first.1 ∧ found = {first.2} := by
      intro found present
      rw [addKeyword_empty] at present
      by_cases equal : second.1 = first.1
      · rw [equal, Finmap.lookup_insert] at present
        exact ⟨equal, (Option.some_inj.mp present).symm⟩
      · rw [Finmap.lookup_insert_of_ne _ equal, Finmap.lookup_empty] at present
        cases present
    constructor
    · intro same
      have found := lookup_addKeyword (addKeyword ∅ first) second
      rw [same] at found
      obtain ⟨equal, inserted⟩ := single found
      have word : second.2 ∈ ({first.2} : Finset JavaString) := by
        rw [← inserted]
        exact Finset.mem_insert_self _ _
      rw [Finset.mem_singleton] at word
      rw [Prod.ext equal word]
    · intro same
      have found := lookup_addKeyword ∅ second
      rw [same] at found
      obtain ⟨equal, inserted⟩ := single found
      rw [Finmap.lookup_empty] at inserted
      have word : second.2 = first.2 :=
        Finset.singleton_injective inserted
      rw [Prod.ext equal word, addKeyword, addKeyword_empty,
        Finmap.lookup_insert]
      dsimp only
      rw [Finmap.insert_insert, Finset.insert_eq_of_mem
        (Finset.mem_singleton_self _)]

/-- Every map settles at once: the database has nothing for it, or it was
empty and the first element that is put into it is all there is.  The reload
ends when this has been done for all maps, or when all of them were empty and
nothing has been put yet. -/
structure SettledReload (old : LiveMaps) (taken : List Step) : Prop where
  plans : ∀ channel, Settled ∅ putPlan (old.advPlanMap channel)
    ((newMaps db).advPlanMap channel) (plansPut channel taken)
  keywords : Settled ∅ addKeyword old.adsKeywordMap
    (newMaps db).adsKeywordMap (keywordsAdded taken)
  ended :
    ((∀ channel, (newMaps db).advPlanMap channel = ∅ ∨
        plansPut channel taken ≠ []) ∧
      ((newMaps db).adsKeywordMap = ∅ ∨ keywordsAdded taken ≠ [])) ∨
    ((∀ channel, old.advPlanMap channel = ∅ ∧
        plansPut channel taken = []) ∧
      old.adsKeywordMap = ∅ ∧ keywordsAdded taken = [])

section Reload

variable {db} {old : LiveMaps} {front back : List Step}

theorem fills_of_split (split : fillSteps db = front ++ back) :
    ∀ step ∈ front, step.Fills := by
  intro step member
  have inside : step ∈ fillSteps db := by
    rw [split]
    exact List.mem_append_left back member
  exact fills_fillSteps step inside

/-- The map of a channel after the clearing and some steps. -/
theorem advPlanMap_filled (old : LiveMaps) (fills : ∀ step ∈ front, step.Fills)
    (channel : Channel) :
    (run old (clears ++ front)).advPlanMap channel =
      filled ∅ putPlan (plansPut channel front) := by
  rw [run_append, run_clears, run_advPlanMap fills]
  rfl

/-- The map of the words after the clearing and some steps. -/
theorem adsKeywordMap_filled (old : LiveMaps)
    (fills : ∀ step ∈ front, step.Fills) :
    (run old (clears ++ front)).adsKeywordMap =
      filled ∅ addKeyword (keywordsAdded front) := by
  rw [run_append, run_clears, run_adsKeywordMap fills]
  rfl

/-- What was put, with what is still missing, gives the new map. -/
theorem plans_complete (split : fillSteps db = front ++ back)
    (channel : Channel) :
    (newMaps db).advPlanMap channel =
      filled ∅ putPlan (plansPut channel front ++ plansPut channel back) := by
  rw [← plansPut_append, ← split, plansPut_fillSteps]
  rfl

theorem keywords_complete (split : fillSteps db = front ++ back) :
    (newMaps db).adsKeywordMap =
      filled ∅ addKeyword (keywordsAdded front ++ keywordsAdded back) := by
  rw [← keywordsAdded_append, ← split, keywordsAdded_fillSteps]
  rfl

/-- Requests see an old or new map of a channel if it settles at once. -/
theorem seenPlans_iff (split : fillSteps db = front ++ back)
    (channel : Channel) :
    (∀ part, part <+: clears ++ front →
        (run old part).advPlanMap channel = old.advPlanMap channel ∨
          (run old part).advPlanMap channel =
            (newMaps db).advPlanMap channel) ↔
      Settled ∅ putPlan (old.advPlanMap channel)
        ((newMaps db).advPlanMap channel) (plansPut channel front) := by
  have fills := fills_of_split split
  apply seen_steps_iff growth_putPlan (plans_complete split channel)
  · exact fun part inside => (run_of_prefix_clears inside).1 channel
  · exact fun part shorter => advPlanMap_filled old
      (fun step member => fills step (shorter.subset member)) channel

/-- Requests see an old or new map of the words if it settles at once. -/
theorem seenKeywords_iff (split : fillSteps db = front ++ back) :
    (∀ part, part <+: clears ++ front →
        (run old part).adsKeywordMap = old.adsKeywordMap ∨
          (run old part).adsKeywordMap = (newMaps db).adsKeywordMap) ↔
      Settled ∅ addKeyword old.adsKeywordMap (newMaps db).adsKeywordMap
        (keywordsAdded front) := by
  have fills := fills_of_split split
  apply seen_steps_iff growth_addKeyword (keywords_complete split)
  · exact fun part inside => (run_of_prefix_clears inside).2
  · exact fun part shorter => adsKeywordMap_filled old
      fun step member => fills step (shorter.subset member)

/-- If the maps settle at once, the old or the new ones are there in the end
when all of them or none has been filled. -/
theorem ended_iff (split : fillSteps db = front ++ back)
    (plans : ∀ channel, Settled ∅ putPlan (old.advPlanMap channel)
      ((newMaps db).advPlanMap channel) (plansPut channel front))
    (keywords : Settled ∅ addKeyword old.adsKeywordMap
      (newMaps db).adsKeywordMap (keywordsAdded front)) :
    (run old (clears ++ front) = old ∨
        run old (clears ++ front) = newMaps db) ↔
      ((∀ channel, (newMaps db).advPlanMap channel = ∅ ∨
          plansPut channel front ≠ []) ∧
        ((newMaps db).adsKeywordMap = ∅ ∨ keywordsAdded front ≠ [])) ∨
      ((∀ channel, old.advPlanMap channel = ∅ ∧
          plansPut channel front = []) ∧
        old.adsKeywordMap = ∅ ∧ keywordsAdded front = []) := by
  have fills := fills_of_split split
  rw [or_comm]
  apply or_congr
  · rw [LiveMaps.ext_iff, funext_iff, adsKeywordMap_filled old fills,
      filled_eq_new_iff growth_addKeyword (keywords_complete split) keywords]
    refine and_congr (forall_congr' fun channel => ?_) Iff.rfl
    rw [advPlanMap_filled old fills, filled_eq_new_iff growth_putPlan
      (plans_complete split channel) (plans channel)]
  · rw [LiveMaps.ext_iff, funext_iff, adsKeywordMap_filled old fills,
      filled_eq_old_iff growth_addKeyword (keywords_complete split) keywords]
    refine and_congr (forall_congr' fun channel => ?_) Iff.rfl
    rw [advPlanMap_filled old fills, filled_eq_old_iff growth_putPlan
      (plans_complete split channel) (plans channel)]

end Reload

/--
When a reload is atomic.

Whatever the live maps and the database hold and wherever a look-up fails, the
old or the complete new maps are there afterwards, and requests see no others
meanwhile, if and only if every map settles at once and the reload ends when
all of them or none has been filled.
-/
theorem atomicReload_iff (old : LiveMaps) (taken : List Step)
    (ended : Taken (freshAdvInfo db old) taken) :
    AtomicReload db old taken ↔ SettledReload db old taken := by
  obtain ⟨front, back, rfl, split⟩ := ended.exists_filled
  constructor
  · intro atomic
    have plans := fun channel =>
      (seenPlans_iff split channel).mp (atomic.seenPlans channel)
    have keywords := (seenKeywords_iff split).mp atomic.seenKeywords
    exact ⟨plans, keywords,
      (ended_iff split plans keywords).mp atomic.ended⟩
  · intro settled
    have plans := settled.plans
    have keywords := settled.keywords
    constructor
    case ended =>
      exact (ended_iff split plans keywords).mpr settled.ended
    case seenPlans =>
      intro channel
      exact (seenPlans_iff split channel).mpr (plans channel)
    case seenKeywords => exact (seenKeywords_iff split).mpr keywords

/-- A database with one ad for the first channel. -/
def singleDatabase : Database where
  getInstanceByChannel channel :=
    if channel = text "2" then
      [⟨text "11", text "ad", text "1", text "0", text "M", text "1"⟩]
    else []
  getMaterialByAdId _ := [⟨text "300x250"⟩]
  getFrequencyByAdId _ := ⟨1000, [], []⟩
  getSiteUrlByAdId _ := []
  getNegSiteUrlByAdId _ := []
  getUrlByAdId _ := []
  getTimeFilterByAdId _ := []
  getPosTargetIpByAdId _ := []
  getTargetAdAcctByAdId _ := []
  getNegTargetIpByAdId _ := []
  getRegionTargetByAdId _ := []
  getAdExtLinkByAdId _ := none
  getUserFrequencyByAdId _ := none
  getAdDeviceLinks _ := []
  qryAdplanLabelByAdId _ := []
  qryAdPlanKeyWordByAdId _ := none
  qryAdPlanKeyWordNotJSJTByAdId _ := none
  getFtpFileContent _ _ := []
  getFenci _ := []

/-- The first load of a database with a single ad. -/
theorem atomicReload_single :
    AtomicReload singleDatabase ⟨fun _ => ∅, ∅⟩
      (freshAdvInfo singleDatabase ⟨fun _ => ∅, ∅⟩) := by
  refine (atomicReload_iff singleDatabase _ _ (.inl rfl)).mpr ?_
  have put : ∀ channel, plansPut channel
      (freshAdvInfo singleDatabase ⟨fun _ => ∅, ∅⟩) =
        plansOf singleDatabase channel := by
    intro channel
    rw [freshAdvInfo_eq, plansPut_append, plansPut_fillSteps]
    rfl
  constructor
  case plans =>
    intro channel
    rw [put]
    cases channel with
    | push =>
        refine .inr ⟨rfl, ?_⟩
        intro plan member
        rw [List.mem_singleton.mp member]
        rfl
    | qingkooVideo => exact .inl rfl
    | shProtal => exact .inl rfl
  case keywords => exact .inl rfl
  case ended =>
    refine .inl ⟨fun channel => ?_, .inl rfl⟩
    rw [put]
    cases channel with
    | push => exact .inr (List.cons_ne_nil _ _)
    | qingkooVideo => exact .inl rfl
    | shProtal => exact .inl rfl

/-- The plan of the ad cannot be loaded again: the maps stay empty, although
neither the old nor the new ones are. -/
theorem atomicReload_failed :
    Taken (freshAdvInfo singleDatabase (newMaps singleDatabase))
        (clears ++ [.load]) ∧
      run (newMaps singleDatabase) (clears ++ [.load]) =
        ⟨fun _ => ∅, ∅⟩ ∧
      ¬ AtomicReload singleDatabase (newMaps singleDatabase)
        (clears ++ [.load]) := by
  have cleared : run (newMaps singleDatabase) (clears ++ [.load]) =
      ⟨fun _ => ∅, ∅⟩ := by
    rw [run_append, run_clears]
    rfl
  refine ⟨.inr ⟨.load, (fillSteps singleDatabase).drop 2, ?_, rfl⟩,
    cleared, ?_⟩
  · rw [freshAdvInfo_eq]
    rfl
  · intro atomic
    have same : (⟨fun _ => ∅, ∅⟩ : LiveMaps) = newMaps singleDatabase := by
      rw [← cleared]
      exact or_self_iff.mp atomic.ended
    have empty : filled ∅ putPlan (plansOf singleDatabase .push) = ∅ :=
      (congrFun (congrArg LiveMaps.advPlanMap same) .push).symm
    have none := (filled_eq_empty_iff growth_putPlan).mp empty
    exact absurd none (List.cons_ne_nil _ _)

end WindowSystem.Sspserver.DBInfoFresh
