import WindowSystem.Sspserver.AdChoices

/-!
# Targeting of sites

The comment of `adSiteFilter` documents how the sites of a plan are compared
with a page: by its host, by its top domain, and against the negative sites of
the plan.  The chain of filters calls `adSiteUrlFilter` instead, which looks
for the host only.  The module says for which plans the two agree, and which
requests return no plan whose negative sites have the page.
-/

namespace WindowSystem.Sspserver.SiteTargeting

open WindowSystem.Sspserver.AdChoices
open WindowSystem.Sspserver.AdRetrieval
open WindowSystem.Sspserver.AdSelection
open WindowSystem.Sspserver.Filters
open WindowSystem.Sspserver.JavaRuntime
open WindowSystem.Sspserver.MediaFilter
open WindowSystem.Sspserver.Model

/-- The ref is the url of a page, with its host and its top domain. -/
structure PageUrl (call : Request) (host : JavaString)
    (domain : Option JavaString) : Prop where
  present : isBlank call.platform call.element.ref = false
  hosted : getHostUrl call.element.ref = some host
  topDomain : getTopDomainWithoutSubdomain call.platform call.element.ref =
    some domain

/-- The sites contain the host or the top domain of the page. -/
def onSites (sites : List JavaString) (host : JavaString)
    (domain : Option JavaString) : Bool :=
  sites.contains host || containsDomain sites domain

/-- The negative sites of the plan have the page. -/
def onNegSites (advPlan : AdvPlan) (host : JavaString)
    (domain : Option JavaString) : Bool :=
  advPlan.isNegSiteFilter && onSites advPlan.negAdSites host domain

/-- What the targeting of sites is for.  The plans of the map are followed
through the retrieval and through the two filters. -/
structure SitesRespected (call : Request) (plans : PlanMap)
    (host : JavaString) (domain : Option JavaString) : Prop where
  negative : ∀ draws result,
    (adRetrieveCommonForVaolanPush call plans draws).result =
      some (some result) →
    ∀ advPlan ∈ plans.plans, onNegSites advPlan host domain = true →
      result.adId ≠ some advPlan.advId ∧
        result.vizuryAdId ≠ some advPlan.advId
  positive : ∀ advPlan ∈ plans.plans,
    containsDomain advPlan.adSites domain = true →
      MediaFilter.doFilter call.platform advPlan call.element = some true
  agree : ∀ advPlan ∈ plans.plans, advPlan.isSiteFilter = true →
    advPlan.isUrlFilter = false →
      adSiteUrlFilter call.platform advPlan call.element =
        adSiteFilter call.platform advPlan call.element

/-- Top domains are listed with the hosts, and no plan whose negative sites
have the page is a candidate. -/
structure HostsListed (call : Request) (plans : PlanMap)
    (host : JavaString) (domain : Option JavaString) : Prop where
  candidates : Responds call plans → ∀ adClass advPlan,
    Reached call plans adClass → Eligible call plans advPlan →
    InClass call advPlan adClass → Readable call adClass →
    VizuryReady call plans adClass → HasSize advPlan →
      onNegSites advPlan host domain = false
  vizury : Responds call plans → ∀ adClass advPlan,
    VizuryShown call plans advPlan adClass →
      onNegSites advPlan host domain = false
  hosts : ∀ advPlan ∈ plans.plans,
    containsDomain advPlan.adSites domain = true →
      host ∈ advPlan.adSites ∨ call.element.ref ∈ advPlan.adUrls
  negatives : ∀ advPlan ∈ plans.plans, advPlan.isUrlFilter = false →
    host ∈ advPlan.adSites → onNegSites advPlan host domain = false

/-! ## The two filters on a page -/

section Filters

variable {call : Request} {host : JavaString} {domain : Option JavaString}
  {advPlan : AdvPlan}

theorem containsPage_eq (page : PageUrl call host domain)
    (sites : List JavaString) :
    containsPage call.platform sites call.element.ref =
      some (onSites sites host domain) := by
  rw [containsPage, page.hosted, Option.bind_some, page.topDomain, onSites]
  split_ifs with contained
  · rw [contained, Bool.true_or]
  · rw [Bool.eq_false_iff.mpr contained, Bool.false_or]
    rfl

/-- The rules of the comment. -/
theorem adSiteFilter_eq (page : PageUrl call host domain) :
    adSiteFilter call.platform advPlan call.element =
      some (!advPlan.isSiteFilter ||
        onSites advPlan.adSites host domain &&
          !onNegSites advPlan host domain) := by
  rw [adSiteFilter, page.present, onNegSites, containsPage_eq page,
    containsPage_eq page]
  cases advPlan.isSiteFilter with
  | false => rfl
  | true =>
      cases onSites advPlan.adSites host domain with
      | false => rfl
      | true => cases advPlan.isNegSiteFilter <;> rfl

/-- What the chain of filters decides. -/
theorem adSiteUrlFilter_eq (page : PageUrl call host domain) :
    adSiteUrlFilter call.platform advPlan call.element =
      some (!advPlan.isSiteFilter && !advPlan.isUrlFilter ||
        advPlan.adSites.contains host ||
        advPlan.adUrls.contains call.element.ref) := by
  have sites : advPlan.isSiteFilter = false →
      advPlan.adSites.contains host = false := by
    intro unset
    rw [Bool.eq_false_iff, Ne, List.contains_iff_mem]
    intro member
    exact absurd (isFilter_of_mem member) (Bool.eq_false_iff.mp unset)
  have urls : advPlan.isUrlFilter = false →
      advPlan.adUrls.contains call.element.ref = false := by
    intro unset
    rw [Bool.eq_false_iff, Ne, List.contains_iff_mem]
    intro member
    exact absurd (isFilter_of_mem member) (Bool.eq_false_iff.mp unset)
  rw [adSiteUrlFilter, page.present, page.hosted]
  cases site : advPlan.isSiteFilter with
  | false =>
      rw [sites site]
      cases url : advPlan.isUrlFilter with
      | false =>
          rw [urls url]
          rfl
      | true => rfl
  | true =>
      cases url : advPlan.isUrlFilter with
      | false =>
          rw [urls url]
          rfl
      | true => rfl

/-- The chain lets the plans of a top domain pass that name the host or the
page as well. -/
theorem positive_iff (page : PageUrl call host domain)
    (listed : containsDomain advPlan.adSites domain = true) :
    MediaFilter.doFilter call.platform advPlan call.element = some true ↔
      host ∈ advPlan.adSites ∨ call.element.ref ∈ advPlan.adUrls := by
  have isSite : advPlan.isSiteFilter = true := by
    cases domain with
    | none => cases listed
    | some name =>
        exact isFilter_of_mem (List.contains_iff_mem.mp listed)
  rw [MediaFilter.doFilter, adSiteUrlFilter_eq page, isSite]
  simp

/-- The two filters agree on a plan with sites and without urls if it lists
the host with the top domain, and no negative site has the page. -/
theorem agree_iff (page : PageUrl call host domain)
    (isSite : advPlan.isSiteFilter = true)
    (noUrl : advPlan.isUrlFilter = false)
    (hosts : containsDomain advPlan.adSites domain = true →
      host ∈ advPlan.adSites) :
    adSiteUrlFilter call.platform advPlan call.element =
        adSiteFilter call.platform advPlan call.element ↔
      (host ∈ advPlan.adSites → onNegSites advPlan host domain = false) := by
  have noUrls : advPlan.adUrls.contains call.element.ref = false := by
    rw [Bool.eq_false_iff, Ne, List.contains_iff_mem]
    intro member
    exact absurd (isFilter_of_mem member) (Bool.eq_false_iff.mp noUrl)
  rw [adSiteUrlFilter_eq page, adSiteFilter_eq page, isSite, noUrl, noUrls,
    Option.some_inj, onSites]
  by_cases member : host ∈ advPlan.adSites
  · rw [List.contains_iff_mem.mpr member]
    cases onNegSites advPlan host domain <;> simp [member]
  · have unlisted : containsDomain advPlan.adSites domain = false :=
      Bool.eq_false_iff.mpr fun listed => member (hosts listed)
    rw [unlisted]
    simp [member]

end Filters

/-! ## The retrieval -/

section Retrieval

variable {call : Request} {plans : PlanMap} {host : JavaString}
  {domain : Option JavaString}

/-- No plan of a condition is returned if none is a candidate. -/
theorem never_returned_iff (numbered : Numbered call plans)
    (condition : AdvPlan → Prop) :
    (∀ draws result,
        (adRetrieveCommonForVaolanPush call plans draws).result =
          some (some result) →
        ∀ advPlan ∈ plans.plans, condition advPlan →
          result.adId ≠ some advPlan.advId ∧
            result.vizuryAdId ≠ some advPlan.advId) ↔
      (Responds call plans → ∀ adClass advPlan,
        Reached call plans adClass → Eligible call plans advPlan →
        InClass call advPlan adClass → Readable call adClass →
        VizuryReady call plans adClass → HasSize advPlan →
          ¬ condition advPlan) ∧
      (Responds call plans → ∀ adClass advPlan,
        VizuryShown call plans advPlan adClass → ¬ condition advPlan) := by
  constructor
  · intro never
    constructor
    · intro responds adClass advPlan reached eligible inClass readable ready
        sized holds
      obtain ⟨draws, result, returned, shown⟩ :=
        (shown_iff numbered).mpr ⟨responds, adClass, advPlan, reached,
          eligible, inClass, readable, ready, sized, rfl⟩
      exact (never draws result returned advPlan eligible.loaded holds).1
        shown
    · intro responds adClass advPlan vizury holds
      obtain ⟨draws, result, returned, shown⟩ :=
        (vizury_shown_iff numbered).mpr
          ⟨responds, adClass, advPlan, vizury, rfl⟩
      exact (never draws result returned advPlan vizury.eligible.loaded
        holds).2 shown
  · rintro ⟨noCandidate, noVizury⟩ draws result returned advPlan member holds
    constructor
    · intro shown
      obtain ⟨responds, adClass, other, reached, eligible, inClass, readable,
        ready, sized, same⟩ :=
          (shown_iff numbered).mp ⟨draws, result, returned, shown⟩
      have equal : other = advPlan :=
        PlanMap.eq_of_advId eligible.loaded member same
      subst equal
      exact noCandidate responds adClass other reached eligible inClass
        readable ready sized holds
    · intro shown
      obtain ⟨responds, adClass, other, vizury, same⟩ :=
        (vizury_shown_iff numbered).mp ⟨draws, result, returned, shown⟩
      have equal : other = advPlan :=
        PlanMap.eq_of_advId vizury.eligible.loaded member same
      subst equal
      exact noVizury responds adClass other vizury holds

end Retrieval

/--
When the targeting of sites is respected.

No draws return a plan whose negative sites have the page, every plan with the
top domain of the page passes, and the filter of the chain agrees with the
documented one, if and only if the plans that have the top domain name the
host or the page too, the negative sites of the plans with the host do not
have the page, and no candidate for the result has negative sites with it.
-/
theorem sitesRespected_iff (call : Request) (plans : PlanMap)
    (host : JavaString) (domain : Option JavaString)
    (page : PageUrl call host domain) (numbered : Numbered call plans) :
    SitesRespected call plans host domain ↔
      HostsListed call plans host domain := by
  have returned := never_returned_iff numbered
    fun advPlan => onNegSites advPlan host domain = true
  simp only [Bool.not_eq_true] at returned
  have noUrls : ∀ {advPlan : AdvPlan}, advPlan.isUrlFilter = false →
      call.element.ref ∉ advPlan.adUrls := fun unset member =>
    absurd (isFilter_of_mem member) (Bool.eq_false_iff.mp unset)
  constructor
  · intro respected
    obtain ⟨candidates, vizury⟩ := returned.mp respected.negative
    constructor
    case candidates => exact candidates
    case vizury => exact vizury
    case hosts =>
      intro advPlan member listed
      exact (positive_iff page listed).mp
        (respected.positive advPlan member listed)
    case negatives =>
      intro advPlan member noUrl named
      have isSite : advPlan.isSiteFilter = true := isFilter_of_mem named
      exact (agree_iff page isSite noUrl fun _ => named).mp
        (respected.agree advPlan member isSite noUrl) named
  · intro listed
    constructor
    case negative => exact returned.mpr ⟨listed.candidates, listed.vizury⟩
    case positive =>
      intro advPlan member named
      exact (positive_iff page named).mpr (listed.hosts advPlan member named)
    case agree =>
      intro advPlan member isSite noUrl
      refine (agree_iff page isSite noUrl ?_).mpr
        (listed.negatives advPlan member noUrl)
      intro named
      exact (listed.hosts advPlan member named).resolve_right (noUrls noUrl)

theorem pageUrl_sampleElement :
    PageUrl (sampleCall (sampleElement "" ""))
      (text "www.example.com") (some (text "example.com")) where
  present := by decide +kernel
  hosted := by decide +kernel
  topDomain := by decide +kernel

/-- A plan with a host and its top domain, and with negative sites elsewhere;
a plan for a url only. -/
def listedMap : PlanMap :=
  planMap
    [{ samplePlan "11" with
        adSites := [text "example.com", text "www.example.com"]
        negAdSites := [text "example.org"] },
      { samplePlan "12" with
        adUrls := [text "http://www.example.com/a"] }] (by decide +kernel)

theorem sitesRespected_listedMap :
    SitesRespected (sampleCall (sampleElement "" "")) listedMap
      (text "www.example.com") (some (text "example.com")) := by
  have numbered : Numbered (sampleCall (sampleElement "" "")) listedMap := by
    apply numbered_digits
    rw [listedMap, plans_planMap]
    decide +kernel
  have clear : ∀ advPlan ∈ listedMap.plans, onNegSites advPlan
      (text "www.example.com") (some (text "example.com")) = false := by
    rw [listedMap, plans_planMap]
    decide +kernel
  refine (sitesRespected_iff _ listedMap _ _ pageUrl_sampleElement
    numbered).mpr ?_
  constructor
  case candidates =>
    intro _ adClass advPlan _ eligible _ _ _ _
    exact clear advPlan eligible.loaded
  case vizury =>
    intro _ adClass advPlan shown
    exact clear advPlan shown.eligible.loaded
  case hosts =>
    rw [listedMap, plans_planMap]
    decide +kernel
  case negatives =>
    intro advPlan member _ _
    exact clear advPlan member

/-- A plan whose negative sites have the page, and a plan for its top
domain. -/
def unlistedMap : PlanMap :=
  planMap
    [{ samplePlan "11" with negAdSites := [text "www.example.com"] },
      { samplePlan "12" with adSites := [text "example.com"] }]
    (by decide +kernel)

/-- The first plan is returned on the page of its negative sites; the second
one does not pass, although the documented rules let it. -/
theorem sitesRespected_unlistedMap :
    (∃ result,
      (adRetrieveCommonForVaolanPush (sampleCall (sampleElement "" ""))
        unlistedMap firstDraws).result = some (some result) ∧
      result.adId = some (text "11")) ∧
    MediaFilter.doFilter asciiPlatform
      { samplePlan "12" with adSites := [text "example.com"] }
      (sampleElement "" "") = some false ∧
    adSiteFilter asciiPlatform
      { samplePlan "12" with adSites := [text "example.com"] }
      (sampleElement "" "") = some true ∧
    ¬ SitesRespected (sampleCall (sampleElement "" "")) unlistedMap
      (text "www.example.com") (some (text "example.com")) := by
  have shown :
      ((adRetrieveCommonForVaolanPush (sampleCall (sampleElement "" ""))
        unlistedMap firstDraws).result.join.bind AdProperty.adId) =
          some (text "11") := by
    decide +kernel
  obtain ⟨result, returned, equal⟩ := Option.bind_eq_some_iff.mp shown
  have returned := Option.join_eq_some_iff.mp returned
  refine ⟨⟨result, returned, equal⟩, by decide +kernel, by decide +kernel, ?_⟩
  intro respected
  have member : { samplePlan "11" with
      negAdSites := [text "www.example.com"] } ∈ unlistedMap.plans := by
    rw [unlistedMap, plans_planMap]
    exact List.mem_cons_self
  exact (respected.negative firstDraws result returned _ member
    (by decide +kernel)).1 equal

end WindowSystem.Sspserver.SiteTargeting
