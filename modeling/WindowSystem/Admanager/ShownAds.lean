import WindowSystem.Admanager.PlanTargeting

/-!
# What is shown of a plan

From the page on which a plan is edited its targeting goes through the rows of
the database and the map of the ad server to the answer of a request.  The
module joins the models of these parts: a plan is in no answer to a request
that its form did not ask for, where the urls of the black list count as asked
for.
-/

namespace WindowSystem.Admanager.ShownAds

open WindowSystem.Admanager.EditAdPlan
open WindowSystem.Admanager.PlanPage
open WindowSystem.Admanager.PlanTargeting
open WindowSystem.Library.MissingResult
open WindowSystem.Library.Transaction
open WindowSystem.Sspserver.AdRetrieval
open WindowSystem.Sspserver.AdSelection
open WindowSystem.Sspserver.DBInfoFresh (Database advPlanOf singleDatabase)
open WindowSystem.Sspserver.Filters
open WindowSystem.Sspserver.JavaRuntime
open WindowSystem.Sspserver.MediaFilter
open WindowSystem.Sspserver.Model

section Shown

variable {call : Request} {plans : PlanMap} {draws : Draws}
  {result : AdProperty} {adId : JavaString} {edit : Edit}
  {edits : List Edit} {world : World} {page : Page} {db : Database}
  {instance_ : AdInstance}

/-- The result names the ad, also as the one of Vizury. -/
def Names (result : AdProperty) (adId : JavaString) : Prop :=
  result.adId = some adId ∨ result.vizuryAdId = some adId

/-- The form of an edit asks for the request.  As to the page, the lines of the
white list count and those of the black list with `http://`, which the ad
server does not tell apart; the other lines of the black list do not count. -/
structure Wanted (edit : Edit) (call : Request) : Prop where
  site : edit.hosts edit.whiteSites = [] ∧ edit.urls = [] ∨
    (∃ host ∈ edit.hosts edit.whiteSites,
      getHostUrl call.element.ref = some host) ∨
    call.element.ref ∈ edit.urls
  posIp : edit.whiteIps = [] ∨ call.element.ip ∈ edit.whiteIps
  negIp : call.element.ip ∉ edit.blackIps
  region : edit.regions = [] ∨ call.element.region ∈ edit.regions
  device : edit.devices = [] ∨
    deviceCode call.platform call.element.userAgent ∈ edit.devices

/-- The map was filled from the database. -/
def LoadedFrom (db : Database) (plans : PlanMap) : Prop :=
  ∀ advPlan ∈ plans.plans, advPlan = advPlanOf db advPlan.adInstance

/-- An ad in an answer has passed all filters. -/
theorem eligible_of_names (numbered : Numbered call plans)
    (answered : (adRetrieveCommonForVaolanPush call plans draws).result =
      some (some result)) (names : Names result adId) :
    ∃ advPlan, Eligible call plans advPlan ∧ advPlan.advId = adId := by
  obtain ⟨lists, filtered, chosen⟩ := Option.bind_eq_some_iff.mp answered
  have sound :=
    (soundOutcome_choose (sorted_filterLoop filtered) numbered chosen).sound
      rfl
  rcases names with chosen | vizury
  · obtain ⟨advPlan, _, eligible, named, _⟩ := sound.chosen chosen
    exact ⟨advPlan, eligible, named⟩
  · exact sound.vizury vizury

theorem mem_of_targetFilter {platform : Platform}
    {targets wanted : List JavaString} {value : JavaString}
    (same : ∀ element, element ∈ targets ↔ element ∈ wanted)
    (passed : targetFilter platform targets value = true) :
    wanted = [] ∨ value ∈ wanted := by
  rw [targetFilter_eq value same, decide_eq_true_iff] at passed
  exact passed.imp_right And.right

/-- A page that passes `adSiteUrlFilter` is on one of the lists. -/
theorem site_of_doFilter {platform : Platform} {advPlan : AdvPlan}
    {element : AdFilterElement} {hosts urls : List JavaString}
    (sameHosts : advPlan.adSites.Perm hosts)
    (sameUrls : advPlan.adUrls.Perm urls)
    (passed : doFilter platform advPlan element = some true) :
    hosts = [] ∧ urls = [] ∨
      (∃ host ∈ hosts, getHostUrl element.ref = some host) ∨
      element.ref ∈ urls := by
  have hostsEmpty := @isFilter_eq _ advPlan.adSites hosts
    fun host => sameHosts.mem_iff
  have urlsEmpty := @isFilter_eq _ advPlan.adUrls urls
    fun url => sameUrls.mem_iff
  rw [doFilter, adSiteUrlFilter, AdvPlan.isSiteFilter, AdvPlan.isUrlFilter,
    hostsEmpty, urlsEmpty] at passed
  split at passed
  · cases passed
  split at passed
  · rename_i unset
    exact .inl (by simpa using unset)
  obtain ⟨isSite, found, passed⟩ := Option.map_eq_some_iff.mp passed
  rcases (Bool.or_eq_true _ _).mp passed with site | url
  · cases site
    refine .inr (.inl ?_)
    split at found
    · obtain ⟨host, hosted, contained⟩ := Option.map_eq_some_iff.mp found
      exact ⟨host, sameHosts.mem_iff.mp (List.contains_iff_mem.mp contained),
        hosted⟩
    · cases found
  · refine .inr (.inr (sameUrls.mem_iff.mp ?_))
    exact List.contains_iff_mem.mp ((Bool.and_eq_true _ _).mp url).2

/-- What passes the filters is wanted by the edit whose lists they have. -/
theorem wanted_of_eligible (asks : AsksFor edit db instance_.adId)
    (eligible : Eligible call plans (advPlanOf db instance_)) :
    Wanted edit call := by
  have user := eligible.user
  rw [userFilter, Bool.and_eq_true, Bool.and_eq_true] at user
  obtain ⟨⟨_, posIp⟩, negIp⟩ := user
  constructor
  case site => exact site_of_doFilter asks.sites asks.urls eligible.media
  case posIp => exact mem_of_targetFilter asks.posIps posIp
  case negIp =>
    rw [ipNegTargetFilter, AdvPlan.isNegIpTargetFilter, advPlanOf,
      isFilter_eq asks.negIps, contains_eq call.element.ip asks.negIps]
      at negIp
    intro member
    simp [member, List.ne_nil_of_mem member] at negIp
  case region => exact mem_of_targetFilter asks.regions eligible.region
  case device =>
    have same := fun code => @List.Perm.mem_iff _ code _ _ asks.devices
    have device := eligible.device
    rw [deviceFilter, AdvPlan.isAdDeviceTarget, advPlanOf, isFilter_eq same,
      contains_eq _ same] at device
    simp only [Bool.not_not, Bool.or_eq_true, decide_eq_true_eq,
      Bool.and_eq_true] at device
    exact device.imp_right And.right

/-- A plan whose ids are numbers is shown only in the hours that the page of its
last edit has, and only to requests that its form asks for. -/
theorem shown_edits
    (last : (returned edits world).getLast? = some edit)
    (latin : Latin edit.env.platform)
    (sent : edit.form.putHours = (getTime page).1)
    (reads : Reads (runRequests Edit.run edits world).rows db adId)
    (loaded : LoadedFrom db plans) (numbered : Numbered call plans)
    (sunday : 1 ≤ call.readings.dayOfWeek adId)
    (saturday : call.readings.dayOfWeek adId ≤ 7)
    (answered : (adRetrieveCommonForVaolanPush call plans draws).result =
      some (some result)) (names : Names result adId) :
    ∃ schedule, page.schedule = some schedule ∧
      Shows schedule (call.readings.dayOfWeek adId)
        (call.readings.hourOfDay adId) ∧
      Wanted edit call := by
  obtain ⟨advPlan, eligible, rfl⟩ :=
    eligible_of_names numbered answered names
  obtain ⟨schedule, chosen, times⟩ := timeFilters_last last latin sent
  have same := loaded advPlan eligible.loaded
  generalize advPlan.adInstance = instance_ at same
  subst same
  have found := reads.getTimeFilterByAdId
  rw [times] at found
  have shown := eligible.adPlan
  rw [adPlanFilter, andAlso_eq_some_true_iff, andAlso_eq_some_true_iff]
    at shown
  refine ⟨schedule, chosen, ?_, ?_⟩
  · exact (putAdTimeFilter_iff found sunday saturday).mp
      (Option.some.inj shown.2.1)
  · exact wanted_of_eligible (asksFor_of_submitted reads (submitted_last last))
      eligible

/-- The map of the ad server with the plan alone. -/
def officeMap : PlanMap :=
  planMap [advPlanOf (databaseWith officeRows singleDatabase) officeInstance]
    (by decide +kernel)

/-- On the page of the black list the plan is shown on Monday at noon. -/
theorem shown_edits_office :
    ∃ result,
      (adRetrieveCommonForVaolanPush (sampleCall (sampleElement "" ""))
        officeMap firstDraws).result = some (some result) ∧
      Names result (text "1") ∧
      ∃ schedule, officePage.schedule = some schedule ∧
        Shows schedule 2 12 ∧
        Wanted officeEdit (sampleCall (sampleElement "" "")) := by
  have shown :
      ((adRetrieveCommonForVaolanPush (sampleCall (sampleElement "" ""))
        officeMap firstDraws).result.join.bind AdProperty.adId) =
          some (text "1") := by
    decide +kernel
  have numbered : Numbered (sampleCall (sampleElement "" "")) officeMap := by
    apply numbered_digits
    rw [officeMap, plans_planMap]
    decide +kernel
  have loaded :
      LoadedFrom (databaseWith officeRows singleDatabase) officeMap := by
    intro advPlan member
    rw [officeMap, plans_planMap, List.mem_singleton] at member
    rw [member]
    rfl
  obtain ⟨result, answered, equal⟩ := Option.bind_eq_some_iff.mp shown
  have answered := Option.join_eq_some_iff.mp answered
  exact ⟨result, answered, .inl equal,
    shown_edits getLast?_returned_officeEdit latin_asciiPlatform rfl
      (reads_databaseWith officeRows singleDatabase (text "1")) loaded
      numbered (by decide) (by decide) answered (.inl equal)⟩

end Shown

end WindowSystem.Admanager.ShownAds
