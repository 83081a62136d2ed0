import WindowSystem.Sspserver.AdChoices

/-!
# The counters of shown ads

The filter of cookies and addresses counts a plan when it lets it pass, that
is for every candidate that comes to it, although the limits are on the number
of times that an ad is shown.  The module says which requests count only the
ad that they return.
-/

namespace WindowSystem.Sspserver.ShownCounters

open WindowSystem.Sspserver.AdChoices
open WindowSystem.Sspserver.AdRetrieval
open WindowSystem.Sspserver.AdSelection
open WindowSystem.Sspserver.Filters
open WindowSystem.Sspserver.JavaRuntime
open WindowSystem.Sspserver.Model

/-- Only the counters of the returned ad are written. -/
def OnlyShown (call : Request) (plans : PlanMap) (draws : Draws) : Prop :=
  ∀ write ∈ (adRetrieveCommonForVaolanPush call plans draws).writes,
    ∃ result,
      (adRetrieveCommonForVaolanPush call plans draws).result =
        some (some result) ∧
      result.adId = some write.advId

/-! ## Plans whose counters are open -/

/-- A number that is missing or below the limit. -/
def BelowLimit (platform : Platform) (number limit : JavaString) : Prop :=
  number = [] ∨ ∃ count bound,
    parseInt platform number = some count ∧
    parseInt platform limit = some bound ∧ count < bound

/-- The plan limits the cookies, and the one of the user is below. -/
def CookieOpen (call : Request) (advPlan : AdvPlan) : Prop :=
  ∃ adUserFrequency, advPlan.adUserFrequency = some adUserFrequency ∧
    adUserFrequency.uidImpressNum ≠ [] ∧
    BelowLimit call.platform (cookieValue advPlan call.request)
      adUserFrequency.uidImpressNum

/-- The plan limits the addresses, and the one of the user is below. -/
def IpOpen (call : Request) (advPlan : AdvPlan) : Prop :=
  ∃ adUserFrequency visitNum,
    advPlan.adUserFrequency = some adUserFrequency ∧
    adUserFrequency.uidIpNum ≠ [] ∧
    call.readings.visitNum (keyForIp call.platform advPlan call.request) =
      some visitNum ∧
    BelowLimit call.platform visitNum adUserFrequency.uidIpNum

/-- The cookies of the plan are limited. -/
def LimitsCookies (advPlan : AdvPlan) : Prop :=
  ∃ adUserFrequency, advPlan.adUserFrequency = some adUserFrequency ∧
    adUserFrequency.uidImpressNum ≠ []

/-- A counter of the plan is increased when the filter comes to it. -/
def CountersOpen (call : Request) (advPlan : AdvPlan) : Prop :=
  CookieOpen call advPlan ∨ (¬ LimitsCookies advPlan ∧ IpOpen call advPlan)

/-- No plan before this one ends the request, and the filters before the
counters let it pass. -/
structure Counted (call : Request) (plans : PlanMap) (advPlan : AdvPlan) :
    Prop where
  before : ∃ front back,
    plans.entries = front ++ (advPlan.advId, advPlan) :: back ∧
    ∀ earlier ∈ front, ¬ Throws call earlier
  isConsidered : considered call advPlan.advId advPlan = true
  passed : firstFilters call.platform call.readings advPlan call.element =
    some true
  isOpen : CountersOpen call advPlan

/-- The plan is the only one of the class that the ad is drawn from, and can
be shown. -/
structure SoleAd (call : Request) (plans : PlanMap) (advPlan : AdvPlan) :
    Prop where
  responds : Responds call plans
  sole : ∃ adClass, Reached call plans adClass ∧
    ¬ ClassEmpty call plans adClass ∧ Readable call adClass ∧
    VizuryReady call plans adClass ∧
    ∀ other, Eligible call plans other → InClass call other adClass →
      HasSize other ∧ other.advId = advPlan.advId

/-! ## Writes of the filter -/

section Writes

variable {call : Request} {advPlan : AdvPlan}

theorem belowLimit_iff {platform : Platform} {number limit : JavaString}
    {count bound : Int} (present : number ≠ [])
    (counted : parseInt platform number = some count)
    (bounded : parseInt platform limit = some bound) :
    BelowLimit platform number limit ↔ count < bound := by
  simp [BelowLimit, present, counted, bounded]

theorem not_belowLimit {platform : Platform} {number limit : JavaString}
    (present : number ≠ [])
    (unparsed : ∀ count bound, parseInt platform number = some count →
      parseInt platform limit = some bound → False) :
    ¬ BelowLimit platform number limit := by
  rintro (missing | ⟨count, bound, counted, bounded, _⟩)
  · exact present missing
  · exact unparsed count bound counted bounded

/-- Everything that the filter of cookies can do. -/
theorem doCookieNumFilter_cases (call : Request) (advPlan : AdvPlan) :
    (CookieOpen call advPlan ∧ ∃ value,
      doCookieNumFilter call.platform call.readings advPlan call.request =
        ⟨[uvcookie call.readings advPlan value], some true⟩) ∨
    (¬ CookieOpen call advPlan ∧
      (doCookieNumFilter call.platform call.readings advPlan
        call.request).writes = [] ∧
      ((doCookieNumFilter call.platform call.readings advPlan
        call.request).result = some true ↔ ¬ LimitsCookies advPlan)) := by
  rw [doCookieNumFilter]
  cases frequency : advPlan.adUserFrequency with
  | none =>
      refine .inr ⟨?_, rfl, iff_of_true rfl ?_⟩
      · rintro ⟨_, found, _⟩
        rw [frequency] at found
        cases found
      · rintro ⟨_, found, _⟩
        rw [frequency] at found
        cases found
  | some adUserFrequency =>
      dsimp only
      have limits : LimitsCookies advPlan ↔
          adUserFrequency.uidImpressNum ≠ [] := by
        simp [LimitsCookies, frequency]
      have isOpen : CookieOpen call advPlan ↔
          adUserFrequency.uidImpressNum ≠ [] ∧
            BelowLimit call.platform (cookieValue advPlan call.request)
              adUserFrequency.uidImpressNum := by
        simp [CookieOpen, frequency]
      rw [limits, isOpen]
      split_ifs with unlimited missing
      · exact .inr ⟨fun isOpen => isOpen.1 unlimited, rfl,
          iff_of_true rfl (not_not.mpr unlimited)⟩
      · exact .inl ⟨⟨unlimited, .inl missing⟩, _, rfl⟩
      · split
        · rename_i oldCookieValue uidImpressNum old cap
          rw [belowLimit_iff missing old cap]
          split_ifs with reached
          · exact .inr ⟨fun below => absurd below.2 (not_lt.mpr reached),
              rfl, iff_of_false (by simp [Written.ofResult])
                (not_not.mpr unlimited)⟩
          · exact .inl ⟨⟨unlimited, not_le.mp reached⟩, _, rfl⟩
        · rename_i unparsed
          have closed := not_belowLimit missing unparsed
          exact .inr ⟨fun below => closed below.2, rfl,
            iff_of_false (by simp [Written.ofResult])
              (not_not.mpr unlimited)⟩

/-- Everything that the filter of addresses can do. -/
theorem doIPNumFilter_cases (call : Request) (advPlan : AdvPlan) :
    (IpOpen call advPlan ∧ ∃ change,
      doIPNumFilter call.platform call.readings advPlan call.request =
        ⟨[⟨advPlan.advId, change⟩], some true⟩) ∨
    (¬ IpOpen call advPlan ∧
      (doIPNumFilter call.platform call.readings advPlan
        call.request).writes = []) := by
  rw [doIPNumFilter]
  cases frequency : advPlan.adUserFrequency with
  | none =>
      refine .inr ⟨?_, rfl⟩
      rintro ⟨_, _, found, _⟩
      rw [frequency] at found
      cases found
  | some adUserFrequency =>
      dsimp only
      have isOpen : IpOpen call advPlan ↔
          adUserFrequency.uidIpNum ≠ [] ∧ ∃ visitNum,
            call.readings.visitNum
                (keyForIp call.platform advPlan call.request) =
              some visitNum ∧
            BelowLimit call.platform visitNum adUserFrequency.uidIpNum := by
        simp [IpOpen, frequency]
      rw [isOpen]
      split_ifs with unlimited
      · exact .inr ⟨fun isOpen => isOpen.1 unlimited, rfl⟩
      · split
        · rename_i unread
          refine .inr ⟨?_, rfl⟩
          rintro ⟨_, _, read, _⟩
          rw [unread] at read
          cases read
        · rename_i absent
          exact .inl ⟨⟨unlimited, [], absent, .inl rfl⟩, _, rfl⟩
        · rename_i visitNum present read
          have stored : (∃ visitNum,
              call.readings.visitNum
                  (keyForIp call.platform advPlan call.request) =
                some visitNum ∧
              BelowLimit call.platform visitNum
                adUserFrequency.uidIpNum) ↔
              BelowLimit call.platform visitNum adUserFrequency.uidIpNum := by
            simp [read]
          rw [stored]
          have nonempty : visitNum ≠ [] := fun empty => present empty
          split
          · rename_i cap visits bounded counted
            rw [belowLimit_iff nonempty counted bounded]
            split_ifs with reached
            · exact .inr ⟨fun below => absurd below.2 (not_lt.mpr reached),
                rfl⟩
            · exact .inl ⟨⟨unlimited, not_le.mp reached⟩, _, rfl⟩
          · rename_i unparsed
            have closed := not_belowLimit nonempty fun visits cap counted
              bounded => unparsed cap visits bounded counted
            exact .inr ⟨fun below => closed below.2, rfl⟩

/-- The filter writes if a counter of the plan is open, and to the counters
of the plan only. -/
theorem ipUaFilter_writes (call : Request) (advPlan : AdvPlan) :
    ((ipUaFilter call.platform call.readings advPlan
        call.request).writes ≠ [] ↔ CountersOpen call advPlan) ∧
    ∀ write ∈ (ipUaFilter call.platform call.readings advPlan
        call.request).writes, write.advId = advPlan.advId := by
  rw [ipUaFilter]
  rcases doCookieNumFilter_cases call advPlan with
    ⟨isOpen, value, cookie⟩ | ⟨closed, noCookie, unlimited⟩
  · rw [Written.and, cookie]
    refine ⟨iff_of_true (by simp) (.inl isOpen), ?_⟩
    intro write member
    rcases List.mem_append.mp member with first | second
    · rw [List.mem_singleton.mp first, uvcookie]
    · rcases doIPNumFilter_cases call advPlan with
        ⟨_, change, ip⟩ | ⟨_, noIp⟩
      · rw [ip] at second
        rw [List.mem_singleton.mp second]
      · rw [noIp] at second
        cases second
  · by_cases limits : LimitsCookies advPlan
    · have refused : (doCookieNumFilter call.platform call.readings advPlan
          call.request).result ≠ some true :=
        fun passed => unlimited.mp passed limits
      have stops : (doCookieNumFilter call.platform call.readings advPlan
          call.request).and (doIPNumFilter call.platform call.readings
            advPlan call.request) =
          doCookieNumFilter call.platform call.readings advPlan
            call.request := by
        rw [Written.and]
        split
        · rename_i passed
          exact absurd passed refused
        · rfl
      rw [stops, noCookie]
      refine ⟨iff_of_false (by simp) ?_, List.forall_mem_nil _⟩
      rintro (isOpen | ⟨free, _⟩)
      · exact closed isOpen
      · exact free limits
    · have goesOn : (doCookieNumFilter call.platform call.readings advPlan
          call.request).and (doIPNumFilter call.platform call.readings
            advPlan call.request) =
          doIPNumFilter call.platform call.readings advPlan
            call.request := by
        rw [Written.and, unlimited.mpr limits, noCookie]
        rfl
      rw [goesOn, CountersOpen, or_iff_right closed, and_iff_right limits]
      rcases doIPNumFilter_cases call advPlan with
        ⟨isOpen, change, ip⟩ | ⟨shut, noIp⟩
      · rw [ip]
        refine ⟨iff_of_true (by simp) isOpen, ?_⟩
        intro write member
        rw [List.mem_singleton.mp member]
      · rw [noIp]
        exact ⟨iff_of_false (by simp) shut, List.forall_mem_nil _⟩

/-- The chain writes what the filter of cookies and addresses writes, if the
filters before it pass. -/
theorem chain_writes (call : Request) (advPlan : AdvPlan) :
    (chain call advPlan).writes =
      if firstFilters call.platform call.readings advPlan call.element =
          some true then
        (ipUaFilter call.platform call.readings advPlan call.request).writes
      else [] := by
  rw [chain, filterChain]
  split
  · rename_i passed
    rw [if_pos passed]
    rfl
  · rename_i failed
    rw [if_neg failed]
    rfl

/-- The writes of a retrieval are those of the counted plans. -/
theorem exists_write_iff {plans : PlanMap} {draws : Draws}
    {adId : JavaString} :
    (∃ write ∈ (adRetrieveCommonForVaolanPush call plans draws).writes,
        write.advId = adId) ↔
      ∃ advPlan, advPlan.advId = adId ∧ Counted call plans advPlan := by
  constructor
  · rintro ⟨write, member, rfl⟩
    obtain ⟨front, ⟨key, advPlan⟩, back, equal, before, written⟩ :=
      mem_writes_filterLoop.mp member
    have inside : (key, advPlan) ∈ plans.entries := by
      rw [equal]
      exact List.mem_append_right _ List.mem_cons_self
    have keyed := PlanMap.advId_of_mem inside
    subst keyed
    rw [entryWrites] at written
    split_ifs at written with isConsidered
    · rw [chain_writes] at written
      split_ifs at written with passed
      · obtain ⟨opened, same⟩ := ipUaFilter_writes call advPlan
        exact ⟨advPlan, (same write written).symm, ⟨front, back, equal,
          before⟩, isConsidered, passed,
          opened.mp (List.ne_nil_of_mem written)⟩
      · cases written
    · cases written
  · rintro ⟨advPlan, rfl, ⟨front, back, equal, before⟩, isConsidered, passed,
      isOpen⟩
    obtain ⟨opened, same⟩ := ipUaFilter_writes call advPlan
    obtain ⟨write, written⟩ :=
      List.exists_mem_of_ne_nil _ (opened.mpr isOpen)
    refine ⟨write, ?_, same write written⟩
    apply mem_writes_filterLoop.mpr
    refine ⟨front, _, back, equal, before, ?_⟩
    rw [entryWrites, if_pos isConsidered, chain_writes, if_pos passed]
    exact written

end Writes

/--
Which requests count only the ad that they return.

Whatever the draws are, only the counters of the returned ad are written, if
and only if every plan that comes to open counters is the only plan of the
class that the ad is drawn from, and no exception ends the request.
-/
theorem countersOfShown_iff (call : Request) (plans : PlanMap)
    (numbered : Numbered call plans) :
    (∀ draws, OnlyShown call plans draws) ↔
      ∀ advPlan, Counted call plans advPlan → SoleAd call plans advPlan := by
  constructor
  · intro only advPlan counted
    have always : ∀ draws, ∃ result,
        (adRetrieveCommonForVaolanPush call plans draws).result =
          some (some result) ∧ result.adId = some advPlan.advId := by
      intro draws
      obtain ⟨write, member, same⟩ :=
        exists_write_iff.mpr ⟨advPlan, rfl, counted⟩
      rw [← same]
      exact only draws write member
    obtain ⟨responds, sole⟩ := (always_shown_iff numbered).mp always
    exact ⟨responds, sole⟩
  · intro sole draws write member
    obtain ⟨advPlan, same, counted⟩ :=
      exists_write_iff.mp ⟨write, member, rfl⟩
    obtain ⟨responds, only⟩ := sole advPlan counted
    rw [← same]
    exact (always_shown_iff numbered).mpr ⟨responds, only⟩ draws

/-- A plan aimed at the account that limits its addresses, with a blind one
that limits nothing. -/
def soleAccount : AdvPlan :=
  { samplePlan "11" with
    adAcctTargetFilters := [text "account"]
    adUserFrequency := some ⟨[], text "3"⟩ }

/-- The map of the two plans. -/
def soleMap : PlanMap :=
  planMap [soleAccount, samplePlan "13"] (by decide +kernel)

theorem countersOfShown_soleMap :
    OnlyShown (sampleCall (sampleElement "" "")) soleMap firstDraws := by
  have numbered : Numbered (sampleCall (sampleElement "" "")) soleMap := by
    apply numbered_digits
    rw [soleMap, plans_planMap]
    decide +kernel
  have inMap : ∀ advPlan ∈ soleMap.plans,
      advPlan = soleAccount ∨ advPlan = samplePlan "13" := by
    rw [soleMap, plans_planMap]
    simp
  refine (countersOfShown_iff _ soleMap numbered).mpr ?_ firstDraws
  intro advPlan counted
  have limited : advPlan = soleAccount := by
    obtain ⟨front, back, equal, _⟩ := counted.before
    have member : (advPlan.advId, advPlan) ∈ soleMap.entries := by
      rw [equal]
      exact List.mem_append_right _ List.mem_cons_self
    rcases inMap advPlan (List.mem_map_of_mem member) with same | same
    · exact same
    · rcases counted.isOpen with ⟨_, found, _⟩ | ⟨_, _, _, found, _⟩
      · rw [same] at found
        cases found
      · rw [same] at found
        cases found
  subst limited
  have eligible : Eligible (sampleCall (sampleElement "" "")) soleMap
      soleAccount := by
    rw [← mem_eligiblePlans_iff]
    decide +kernel
  have aimed : isAdAcctTarget (sampleCall (sampleElement "" ""))
      soleAccount = true := by
    decide +kernel
  have blind : isAdAcctTarget (sampleCall (sampleElement "" ""))
      (samplePlan "13") ≠ true := by
    decide +kernel
  refine ⟨?_, .adAcct, ⟨?_, ?_⟩, ?_, ⟨?_, ?_⟩, trivial, ?_⟩
  · simp only [Responds, Throws]
    decide +kernel
  · intro baidu
    revert baidu
    decide +kernel
  · intro earlier first
    cases earlier <;> exact absurd first (by decide)
  · exact fun empty => empty _ eligible aimed
  · exact fun late => absurd late (by decide)
  · exact fun late => absurd late (by decide)
  · intro other fits inClass
    rcases inMap other fits.loaded with rfl | rfl
    · exact ⟨⟨_, _, _, rfl⟩, rfl⟩
    · exact absurd inClass blind

/-- Two blind plans that limit the cookies and the addresses, one of which is
for other devices. -/
def countedMap : PlanMap :=
  planMap
    [{ samplePlan "11" with adUserFrequency := some ⟨text "3", text "3"⟩ },
      { samplePlan "12" with adUserFrequency := some ⟨text "3", text "3"⟩ },
      { samplePlan "13" with
        adUserFrequency := some ⟨text "3", text "3"⟩
        adDeviceLinkList := [text "2"] }] (by decide +kernel)

/-- The first plan is returned.  The second one, which was not drawn, and the
third one, which the filter of devices rejects, are counted as well. -/
theorem countersOfShown_countedMap :
    ∃ result,
      (adRetrieveCommonForVaolanPush (sampleCall (sampleElement "" ""))
        countedMap firstDraws).result = some (some result) ∧
      result.adId = some (text "11") ∧
      ((adRetrieveCommonForVaolanPush (sampleCall (sampleElement "" ""))
          countedMap firstDraws).writes.map Filters.CounterWrite.advId =
        [text "11", text "11", text "12", text "12", text "13",
          text "13"]) ∧
      ¬ OnlyShown (sampleCall (sampleElement "" "")) countedMap
        firstDraws := by
  have shown :
      ((adRetrieveCommonForVaolanPush (sampleCall (sampleElement "" ""))
        countedMap firstDraws).result.join.bind AdProperty.adId) =
          some (text "11") := by
    decide +kernel
  have written :
      (adRetrieveCommonForVaolanPush (sampleCall (sampleElement "" ""))
        countedMap firstDraws).writes.map Filters.CounterWrite.advId =
          [text "11", text "11", text "12", text "12", text "13",
            text "13"] := by
    decide +kernel
  obtain ⟨result, returned, equal⟩ := Option.bind_eq_some_iff.mp shown
  have returned := Option.join_eq_some_iff.mp returned
  refine ⟨result, returned, equal, written, ?_⟩
  intro only
  have counted : text "12" ∈
      (adRetrieveCommonForVaolanPush (sampleCall (sampleElement "" ""))
        countedMap firstDraws).writes.map Filters.CounterWrite.advId := by
    rw [written]
    decide +kernel
  obtain ⟨write, member, same⟩ := List.mem_map.mp counted
  obtain ⟨other, another, different⟩ := only write member
  rw [returned] at another
  cases another
  rw [equal, same] at different
  exact absurd different (by decide +kernel)

end WindowSystem.Sspserver.ShownCounters
