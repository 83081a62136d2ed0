import WindowSystem.Sspserver.AdRetrieval

/-!
# Which ad is chosen

The eligible plans are those that pass every filter.  The kinds of targeting
divide them into classes, which overlap; the ad is drawn from the first class
that has a plan.  The module relates the lists of the program to the classes
and proves that the choice is sound, ordered and complete.
-/

namespace WindowSystem.Sspserver.AdSelection

open WindowSystem.Library.MissingResult
open WindowSystem.Sspserver.AdRetrieval
open WindowSystem.Sspserver.Filters
open WindowSystem.Sspserver.JavaRuntime
open WindowSystem.Sspserver.Model

/-! ## Eligible plans and their classes -/

/-- The plan is in the map, is not excluded, has the requested size and passes
the filters of the chain. -/
structure Eligible (call : Request) (plans : PlanMap) (advPlan : AdvPlan) :
    Prop where
  loaded : advPlan ∈ plans.plans
  notExcluded : advPlan.advId ∉ call.element.excludeAdIds
  size : sizeFilter call advPlan = true
  adPlan :
    adPlanFilter call.platform call.readings advPlan call.element = some true
  media : MediaFilter.doFilter call.platform advPlan call.element = some true
  user : userFilter call.platform advPlan call.element = true
  region : regionFilter call.platform advPlan call.element = true
  ipUa :
    (ipUaFilter call.platform call.readings advPlan call.request).result =
      some true
  device : deviceFilter call.platform advPlan call.element = true

/-- The classes in the order in which they are looked at. -/
inductive AdClass where
  | adAcct
  | url
  | ip
  | jsjt
  | host
  | crowd
  | mangtou
deriving DecidableEq

/-- The place of a class in the order. -/
def AdClass.rank : AdClass → Nat
  | .adAcct => 0
  | .url => 1
  | .ip => 2
  | .jsjt => 3
  | .host => 4
  | .crowd => 5
  | .mangtou => 6

/-- The ids that the user searched for. -/
def standbyAdIds (call : Request) : List JavaString :=
  (jsjtStandbyAdIds call).getD []

/-- The crowds of the user. -/
def userCrowds (call : Request) : List JavaString :=
  (crowdIds call).getD []

/-- The plans of a class.  The plan of Vizury is not shown blindly. -/
def InClass (call : Request) (advPlan : AdvPlan) : AdClass → Prop
  | .adAcct => isAdAcctTarget call advPlan = true
  | .url => isUrlTarget call advPlan = true
  | .ip => isIpTarget call advPlan = true
  | .jsjt => advPlan.advId ∈ standbyAdIds call
  | .host => isHostTarget call advPlan = some true
  | .crowd => ∃ crowd ∈ advPlan.dmpCrowds, crowd ∈ userCrowds call
  | .mangtou => isMangtou advPlan = true ∧ advPlan.advId ≠ text "304"

/-- A Baidu request is not given the later classes. -/
def Allowed (call : Request) (adClass : AdClass) : Prop :=
  call.element.type = text "5" → adClass.rank ≤ AdClass.jsjt.rank

/-- No eligible plan is in the class. -/
def ClassEmpty (call : Request) (plans : PlanMap) (adClass : AdClass) : Prop :=
  ∀ advPlan, Eligible call plans advPlan → ¬ InClass call advPlan adClass

/-- The class is allowed, and the classes before it are empty. -/
def Reached (call : Request) (plans : PlanMap) (adClass : AdClass) : Prop :=
  Allowed call adClass ∧
    ∀ earlier : AdClass, earlier.rank < adClass.rank →
      ClassEmpty call plans earlier

theorem AdClass.eq_of_rank {left right : AdClass}
    (equal : left.rank = right.rank) : left = right := by
  cases left <;> cases right <;> first | rfl | cases equal

/-- When a class is empty, the class that follows it is reached. -/
theorem Reached.next {call : Request} {plans : PlanMap}
    {adClass following : AdClass} (reached : Reached call plans adClass)
    (empty : ClassEmpty call plans adClass)
    (order : following.rank = adClass.rank + 1)
    (allowed : Allowed call following) : Reached call plans following := by
  refine ⟨allowed, ?_⟩
  intro earlier before
  by_cases same : earlier = adClass
  · rw [same]
    exact empty
  · apply reached.2
    have different : earlier.rank ≠ adClass.rank :=
      fun equal => same (AdClass.eq_of_rank equal)
    omega

/-- The plan has a size to deliver. -/
def HasSize (advPlan : AdvPlan) : Prop :=
  ∃ width height rest,
    getAdPlanSize advPlan = some (width :: height :: rest)

/-- Ad ids are numbers: they are not blank, and no other string equals one
up to case. -/
def Numbered (call : Request) (plans : PlanMap) : Prop :=
  ∀ advPlan ∈ plans.plans, isNotBlank call.platform advPlan.advId = true ∧
    ∀ adId, equalsIgnoreCase call.platform advPlan.advId adId = true →
      adId = advPlan.advId

/-! ## The lists of the program -/

/-- The plan of an entry passes the filters. -/
def passes (call : Request) (entry : JavaString × AdvPlan) : Bool :=
  considered call entry.1 entry.2 &&
    decide ((chain call entry.2).result = some true)

/-- The plans that pass the filters, in the order of the map. -/
def eligiblePlans (call : Request) (entries : List (JavaString × AdvPlan)) :
    List AdvPlan :=
  (entries.filter (passes call)).map Prod.snd

/-- The lists hold the plans of their kinds. -/
structure Sorted (call : Request) (before : Candidates)
    (eligible : List AdvPlan) (after : Candidates) : Prop where
  vaolan : after.vaolanAdIds = before.vaolanAdIds ++ eligible
  url : after.urlTargetAdIds =
    before.urlTargetAdIds ++ eligible.filter (isUrlTarget call)
  adAcct : after.adAcctTargetAdIds =
    before.adAcctTargetAdIds ++ eligible.filter (isAdAcctTarget call)
  ip : after.ipTargetsAdIds =
    before.ipTargetsAdIds ++ eligible.filter (isIpTarget call)
  host : after.hostTargetAdIds =
    before.hostTargetAdIds ++
      eligible.filter fun advPlan => isHostTarget call advPlan = some true
  mangtou : after.vaolanMangtouAdIds =
    before.vaolanMangtouAdIds ++ eligible.filter isMangtou

theorem addIf_eq (condition : AdvPlan → Bool) (advPlan : AdvPlan)
    (list : List AdvPlan) :
    addIf (condition advPlan) advPlan list =
      list ++ [advPlan].filter condition := by
  rw [addIf]
  split_ifs with holds
  · rw [List.filter_singleton, holds]
    rfl
  · rw [List.filter_singleton, Bool.eq_false_iff.mpr holds]
    exact (List.append_nil list).symm

theorem sorted_nil (call : Request) (lists : Candidates) :
    Sorted call lists [] lists where
  vaolan := (List.append_nil _).symm
  url := (List.append_nil _).symm
  adAcct := (List.append_nil _).symm
  ip := (List.append_nil _).symm
  host := (List.append_nil _).symm
  mangtou := (List.append_nil _).symm

theorem sorted_addPlan {call : Request} {advPlan : AdvPlan}
    {lists added : Candidates}
    (filled : addPlan call advPlan lists = some added) :
    Sorted call lists [advPlan] added := by
  obtain ⟨isHost, decided, rfl⟩ := Option.map_eq_some_iff.mp filled
  constructor
  case vaolan => rfl
  case url => exact addIf_eq (isUrlTarget call) advPlan _
  case adAcct => exact addIf_eq (isAdAcctTarget call) advPlan _
  case ip => exact addIf_eq (isIpTarget call) advPlan _
  case host =>
    have same : isHost =
        decide (isHostTarget call advPlan = some true) := by
      rw [decided]
      cases isHost <;> rfl
    dsimp only
    rw [same]
    exact addIf_eq
      (fun advPlan => decide (isHostTarget call advPlan = some true))
      advPlan _
  case mangtou => exact addIf_eq isMangtou advPlan _

theorem Sorted.trans {call : Request} {first middle last : Candidates}
    {front back : List AdvPlan} (left : Sorted call first front middle)
    (right : Sorted call middle back last) :
    Sorted call first (front ++ back) last where
  vaolan := by rw [right.vaolan, left.vaolan, List.append_assoc]
  url := by rw [right.url, left.url, List.filter_append, List.append_assoc]
  adAcct := by
    rw [right.adAcct, left.adAcct, List.filter_append, List.append_assoc]
  ip := by rw [right.ip, left.ip, List.filter_append, List.append_assoc]
  host := by
    rw [right.host, left.host, List.filter_append, List.append_assoc]
  mangtou := by
    rw [right.mangtou, left.mangtou, List.filter_append, List.append_assoc]

/-- The loop sorts the plans that pass the filters. -/
theorem sorted_filterLoop {call : Request}
    {entries : List (JavaString × AdvPlan)} {lists last : Candidates}
    (finished : (filterLoop call lists entries).result = some last) :
    Sorted call lists (eligiblePlans call entries) last := by
  induction entries generalizing lists with
  | nil =>
      cases finished
      exact sorted_nil call _
  | cons entry rest induction =>
      obtain ⟨adId, advPlan⟩ := entry
      rw [filterLoop] at finished
      rw [eligiblePlans, List.filter_cons]
      split_ifs at finished with isConsidered
      · cases filtered : (chain call advPlan).result with
        | none => simp [filtered] at finished
        | some flag =>
            cases flag with
            | false =>
                simp only [filtered] at finished
                rw [passes, filtered]
                simpa [eligiblePlans] using induction finished
            | true =>
                simp only [filtered] at finished
                rw [passes, filtered, isConsidered]
                cases filled : addPlan call advPlan lists with
                | none => simp [filled] at finished
                | some added =>
                    simp only [filled] at finished
                    exact (sorted_addPlan filled).trans (induction finished)
      · rw [passes, Bool.eq_false_iff.mpr isConsidered]
        exact induction finished

theorem chain_eq_some_true_iff (call : Request) (advPlan : AdvPlan) :
    (chain call advPlan).result = some true ↔
      adPlanFilter call.platform call.readings advPlan call.element =
          some true ∧
        MediaFilter.doFilter call.platform advPlan call.element =
          some true ∧
        userFilter call.platform advPlan call.element = true ∧
        regionFilter call.platform advPlan call.element = true ∧
        (ipUaFilter call.platform call.readings advPlan
          call.request).result = some true ∧
        deviceFilter call.platform advPlan call.element = true := by
  have first : firstFilters call.platform call.readings advPlan
      call.element = some true ↔
        adPlanFilter call.platform call.readings advPlan call.element =
            some true ∧
          MediaFilter.doFilter call.platform advPlan call.element =
            some true ∧
          userFilter call.platform advPlan call.element = true ∧
          regionFilter call.platform advPlan call.element = true := by
    simp [firstFilters]
  rw [chain, filterChain]
  split
  · rename_i passed
    obtain ⟨adPlan, media, user, region⟩ := first.mp passed
    simp only [adPlan, media, user, region, true_and]
    exact andAlso_eq_some_true_iff.trans (by rw [Option.some_inj])
  · rename_i other failed
    constructor
    · intro passed
      exact absurd passed failed
    · rintro ⟨adPlan, media, user, region, _⟩
      exact absurd (first.mpr ⟨adPlan, media, user, region⟩) failed

theorem mem_eligiblePlans_iff {call : Request} {plans : PlanMap}
    {advPlan : AdvPlan} :
    advPlan ∈ eligiblePlans call plans.entries ↔
      Eligible call plans advPlan := by
  constructor
  · intro member
    obtain ⟨⟨adId, plan⟩, passed, rfl⟩ := List.mem_map.mp member
    obtain ⟨inside, passed⟩ := List.mem_filter.mp passed
    rw [PlanMap.mem_entries_iff] at inside
    obtain ⟨loaded, rfl⟩ := inside
    rw [passes, considered, Bool.and_eq_true, Bool.and_eq_true,
      decide_eq_true_iff, chain_eq_some_true_iff] at passed
    obtain ⟨⟨notExcluded, size⟩, adPlan, media, user, region, ipUa, device⟩ :=
      passed
    exact ⟨loaded, by simpa using notExcluded, size, adPlan, media, user,
      region, ipUa, device⟩
  · intro eligible
    refine List.mem_map.mpr ⟨(advPlan.advId, advPlan), ?_, rfl⟩
    refine List.mem_filter.mpr ⟨?_, ?_⟩
    · exact PlanMap.mem_entries_iff.mpr ⟨eligible.loaded, rfl⟩
    · rw [passes, considered, Bool.and_eq_true, Bool.and_eq_true,
        decide_eq_true_iff, chain_eq_some_true_iff]
      exact ⟨⟨by simpa using eligible.notExcluded, eligible.size⟩,
        eligible.adPlan, eligible.media, eligible.user, eligible.region,
        eligible.ipUa, eligible.device⟩

/-! ## The lists and the classes -/

/-- The lists hold exactly the eligible plans of their kinds. -/
abbrev Filled (call : Request) (plans : PlanMap) (lists : Candidates) : Prop :=
  Sorted call .empty (eligiblePlans call plans.entries) lists

section Lists

variable {call : Request} {plans : PlanMap} {lists : Candidates}
  {advPlan : AdvPlan}

theorem Sorted.mem_vaolan (filled : Filled call plans lists) :
    advPlan ∈ lists.vaolanAdIds ↔ Eligible call plans advPlan := by
  rw [filled.vaolan]
  exact mem_eligiblePlans_iff

theorem Sorted.mem_adAcct (filled : Filled call plans lists) :
    advPlan ∈ lists.adAcctTargetAdIds ↔
      Eligible call plans advPlan ∧ InClass call advPlan .adAcct := by
  rw [filled.adAcct]
  exact List.mem_filter.trans (and_congr mem_eligiblePlans_iff Iff.rfl)

theorem Sorted.mem_url (filled : Filled call plans lists) :
    advPlan ∈ lists.urlTargetAdIds ↔
      Eligible call plans advPlan ∧ InClass call advPlan .url := by
  rw [filled.url]
  exact List.mem_filter.trans (and_congr mem_eligiblePlans_iff Iff.rfl)

theorem Sorted.mem_ip (filled : Filled call plans lists) :
    advPlan ∈ lists.ipTargetsAdIds ↔
      Eligible call plans advPlan ∧ InClass call advPlan .ip := by
  rw [filled.ip]
  exact List.mem_filter.trans (and_congr mem_eligiblePlans_iff Iff.rfl)

theorem Sorted.mem_host (filled : Filled call plans lists) :
    advPlan ∈ lists.hostTargetAdIds ↔
      Eligible call plans advPlan ∧ InClass call advPlan .host := by
  rw [filled.host]
  exact List.mem_filter.trans
    (and_congr mem_eligiblePlans_iff decide_eq_true_iff)

theorem Sorted.mem_mangtou (filled : Filled call plans lists) :
    advPlan ∈ lists.vaolanMangtouAdIds ↔
      Eligible call plans advPlan ∧ isMangtou advPlan = true := by
  rw [filled.mangtou]
  exact List.mem_filter.trans (and_congr mem_eligiblePlans_iff Iff.rfl)

/-- The search-matched ids are those of the eligible plans of the class. -/
theorem Sorted.mem_canPostAdIds (filled : Filled call plans lists)
    (numbered : Numbered call plans) {standby : List JavaString}
    (asked : jsjtStandbyAdIds call = some standby) {adId : JavaString} :
    adId ∈ canPostAdIds call standby lists.vaolanAdIds ↔
      ∃ advPlan, Eligible call plans advPlan ∧ advPlan.advId = adId ∧
        InClass call advPlan .jsjt := by
  have known : standbyAdIds call = standby := by
    rw [standbyAdIds, asked, Option.getD_some]
  simp only [canPostAdIds, List.mem_flatMap, List.mem_map, List.mem_filter,
    InClass, known]
  constructor
  · rintro ⟨subAdId, member, advPlan, ⟨inside, equal⟩, rfl⟩
    have eligible := filled.mem_vaolan.mp inside
    have same := (numbered advPlan eligible.loaded).2 subAdId equal
    exact ⟨advPlan, eligible, same.symm, same ▸ member⟩
  · rintro ⟨advPlan, eligible, rfl, member⟩
    exact ⟨advPlan.advId, member, advPlan,
      ⟨filled.mem_vaolan.mpr eligible, equalsIgnoreCase_self _ _⟩, rfl⟩

/-- The ids that match the crowds are those of the eligible plans of the
class. -/
theorem Sorted.mem_crowdAdIds (filled : Filled call plans lists)
    {crowds : List JavaString} (asked : crowdIds call = some crowds)
    {adId : JavaString} :
    adId ∈ crowdAdIds call plans crowds lists.vaolanAdIds ↔
      ∃ advPlan, Eligible call plans advPlan ∧ advPlan.advId = adId ∧
        InClass call advPlan .crowd := by
  have known : userCrowds call = crowds := by
    rw [userCrowds, asked, Option.getD_some]
  simp only [crowdAdIds, List.mem_flatMap, InClass, known, Prod.exists]
  constructor
  · rintro ⟨key, advPlan, inside, member⟩
    split_ifs at member with condition
    · simp only [Bool.and_eq_true, List.contains_iff_mem] at condition
      simp only [List.mem_map, List.mem_filter, List.contains_iff_mem]
        at member
      obtain ⟨crowd, ⟨wanted, present⟩, rfl⟩ := member
      exact ⟨advPlan, filled.mem_vaolan.mp condition.2,
        PlanMap.advId_of_mem inside, crowd, wanted, present⟩
    · cases member
  · rintro ⟨advPlan, eligible, rfl, crowd, wanted, present⟩
    refine ⟨advPlan.advId, advPlan,
      PlanMap.mem_entries_iff.mpr ⟨eligible.loaded, rfl⟩, ?_⟩
    have condition : (sizeFilter call advPlan && advPlan.isDmpCrowdMatch &&
        lists.vaolanAdIds.contains advPlan) = true := by
      simp only [Bool.and_eq_true, List.contains_iff_mem]
      exact ⟨⟨eligible.size, isFilter_of_mem wanted⟩,
        filled.mem_vaolan.mpr eligible⟩
    rw [if_pos condition]
    simp only [List.mem_map, List.mem_filter, List.contains_iff_mem]
    exact ⟨crowd, ⟨wanted, present⟩, trivial⟩

/-- Removing the first plan with an id removes all of them when the ids are
distinct. -/
theorem mem_eraseP_advId {list : List AdvPlan}
    (distinct : (list.map AdvPlan.advId).Nodup) (adId : JavaString) :
    advPlan ∈ list.eraseP (fun adv => adId = adv.advId) ↔
      advPlan ∈ list ∧ advPlan.advId ≠ adId := by
  induction list with
  | nil => simp
  | cons adv list induction =>
      rw [List.map_cons, List.nodup_cons] at distinct
      by_cases same : adId = adv.advId
      · rw [List.eraseP_cons_of_pos (by simpa using same)]
        subst same
        constructor
        · intro member
          refine ⟨List.mem_cons_of_mem _ member, ?_⟩
          intro equal
          exact distinct.1 (equal ▸ List.mem_map_of_mem member)
        · rintro ⟨member, different⟩
          rcases List.mem_cons.mp member with rfl | member
          · exact absurd rfl different
          · exact member
      · rw [List.eraseP_cons_of_neg (by simpa using same), List.mem_cons,
          List.mem_cons, induction distinct.2]
        constructor
        · rintro (rfl | ⟨member, different⟩)
          · exact ⟨.inl rfl, Ne.symm same⟩
          · exact ⟨.inr member, different⟩
        · rintro ⟨rfl | member, different⟩
          · exact .inl rfl
          · exact .inr ⟨member, different⟩

theorem Sorted.distinct_mangtou (filled : Filled call plans lists) :
    (lists.vaolanMangtouAdIds.map AdvPlan.advId).Nodup := by
  rw [filled.mangtou]
  show (((eligiblePlans call plans.entries).filter isMangtou).map
    AdvPlan.advId).Nodup
  have keys : plans.entries.map (fun entry => entry.2.advId) =
      plans.entries.map Prod.fst :=
    List.map_congr_left fun entry member => (plans.keyed entry member).symm
  have distinct : (plans.plans.map AdvPlan.advId).Nodup := by
    rw [PlanMap.plans, List.map_map]
    exact keys ▸ plans.distinct
  refine distinct.sublist (List.Sublist.map _ ?_)
  exact List.filter_sublist.trans (List.filter_sublist.map _)

end Lists

/-! ## What the branches return -/

/-- What can be said of a result: its ad belongs to the first class that has
a plan, the plan of Vizury is eligible, and no ad is returned only if there is
none. -/
structure Sound (call : Request) (plans : PlanMap)
    (adProperty : AdProperty) : Prop where
  chosen {adId : JavaString} : adProperty.adId = some adId →
    ∃ advPlan adClass, Eligible call plans advPlan ∧ advPlan.advId = adId ∧
      InClass call advPlan adClass ∧ Reached call plans adClass
  vizury {adId : JavaString} : adProperty.vizuryAdId = some adId →
    ∃ advPlan, Eligible call plans advPlan ∧ advPlan.advId = adId
  complete : adProperty.adId = none →
    (∀ advPlan, Eligible call plans advPlan → HasSize advPlan) →
    ∀ adClass, Allowed call adClass → ClassEmpty call plans adClass

/-- A result to which no ad has been put yet. -/
structure Open (call : Request) (plans : PlanMap)
    (adProperty : AdProperty) : Prop where
  adId : adProperty.adId = none
  vizury {adId : JavaString} : adProperty.vizuryAdId = some adId →
    ∃ advPlan, Eligible call plans advPlan ∧ advPlan.advId = adId

section Branches

variable {call : Request} {plans : PlanMap} {lists : Candidates}
  {advPlan : AdvPlan} {adProperty result : AdProperty}
  {adId adThrowType hitCause : JavaString}

/-- Everything that putting an ad into the result can do. -/
theorem deliver_cases
    (delivered : deliver adProperty advPlan adId adThrowType hitCause =
      some result) :
    (getAdPlanSize advPlan = none ∧ result = adProperty) ∨
      (HasSize advPlan ∧ result.adId = some adId ∧
        result.vizuryAdId = adProperty.vizuryAdId) := by
  rw [deliver] at delivered
  split at delivered
  · rename_i missing
    exact .inl ⟨missing, (Option.some_inj.mp delivered).symm⟩
  · rename_i width height rest found
    cases delivered
    exact .inr ⟨⟨width, height, rest, found⟩, rfl, rfl⟩
  · cases delivered

theorem not_hasSize (missing : getAdPlanSize advPlan = none) :
    ¬ HasSize advPlan := by
  rintro ⟨_, _, _, found⟩
  rw [missing] at found
  cases found

/-- An ad of the first class that has a plan is a sound result. -/
theorem sound_deliver {adClass : AdClass} (isOpen : Open call plans adProperty)
    (eligible : Eligible call plans advPlan)
    (inClass : InClass call advPlan adClass)
    (reached : Reached call plans adClass)
    (delivered : deliver adProperty advPlan advPlan.advId adThrowType
      hitCause = some result) :
    Sound call plans result := by
  rcases deliver_cases delivered with ⟨missing, rfl⟩ | ⟨_, shown, vizury⟩
  · constructor
    case chosen =>
      intro adId shown
      rw [isOpen.adId] at shown
      cases shown
    case vizury => exact isOpen.vizury
    case complete =>
      intro _ sized
      exact absurd (sized advPlan eligible) (not_hasSize missing)
  · constructor
    case chosen =>
      intro adId equal
      rw [shown] at equal
      cases equal
      exact ⟨advPlan, adClass, eligible, rfl, inClass, reached⟩
    case vizury =>
      intro adId equal
      exact isOpen.vizury (vizury ▸ equal)
    case complete =>
      intro nothing
      rw [shown] at nothing
      cases nothing

/-- Everything that asking Vizury can do. -/
theorem processVizury_cases {list remaining : List AdvPlan}
    (asked : processVizury plans list adProperty =
      some (result, remaining)) :
    result.adId = adProperty.adId ∧
      ((result.vizuryAdId = some (text "304") ∧
          (∃ adv ∈ list, adv.advId = text "304") ∧
          remaining = list.eraseP fun adv => text "304" = adv.advId) ∨
        (result.vizuryAdId = adProperty.vizuryAdId ∧
          (∀ adv ∈ list, adv.advId ≠ text "304") ∧ remaining = list)) := by
  rw [processVizury] at asked
  split_ifs at asked with present
  · rw [List.any_eq_true] at present
    obtain ⟨adv, member, equal⟩ := present
    obtain ⟨vizury, _, asked⟩ := Option.bind_eq_some_iff.mp asked
    split at asked
    · cases asked
      exact ⟨rfl, .inl ⟨rfl, ⟨adv, member,
        (decide_eq_true_iff.mp equal).symm⟩, rfl⟩⟩
    · cases asked
  · cases asked
    refine ⟨rfl, .inr ⟨rfl, ?_, rfl⟩⟩
    intro adv member equal
    exact present (List.any_eq_true.mpr
      ⟨adv, member, decide_eq_true_iff.mpr equal.symm⟩)

/-- The result of the host-targeted ads after Vizury has been asked. -/
theorem Sound.processVizury {remaining : List AdvPlan}
    (sound : Sound call plans adProperty)
    (filled : Filled call plans lists)
    (asked : AdRetrieval.processVizury plans lists.vaolanAdIds adProperty =
      some (result, remaining)) :
    Sound call plans result := by
  obtain ⟨same, others⟩ := processVizury_cases asked
  constructor
  case chosen => exact fun shown => sound.chosen (same ▸ shown)
  case complete => exact fun nothing => sound.complete (same ▸ nothing)
  case vizury =>
    intro adId shown
    rcases others with ⟨asked, ⟨adv, member, equal⟩, _⟩ | ⟨unchanged, _⟩
    · rw [asked] at shown
      cases shown
      exact ⟨adv, filled.mem_vaolan.mp member, equal⟩
    · exact sound.vizury (unchanged ▸ shown)

theorem ClassEmpty.of_draw_eq_none {list : List AdvPlan} {adClass : AdClass}
    {random : Nat}
    (members : ∀ {advPlan}, advPlan ∈ list ↔
      Eligible call plans advPlan ∧ InClass call advPlan adClass)
    (nothing : draw random list = none) : ClassEmpty call plans adClass := by
  intro advPlan eligible inClass
  have member := members.mpr ⟨eligible, inClass⟩
  rw [draw_eq_none_iff.mp nothing] at member
  cases member

theorem ClassEmpty.of_ids {list : List JavaString} {adClass : AdClass}
    {random : Nat}
    (members : ∀ {adId}, adId ∈ list ↔
      ∃ advPlan, Eligible call plans advPlan ∧ advPlan.advId = adId ∧
        InClass call advPlan adClass)
    (nothing : draw random list = none) : ClassEmpty call plans adClass := by
  intro advPlan eligible inClass
  have member := members.mpr ⟨advPlan, eligible, rfl, inClass⟩
  rw [draw_eq_none_iff.mp nothing] at member
  cases member

/-- The blind ads, when all other classes are empty. -/
theorem sound_notVaolanAccuratePv {random : Nat}
    (isOpen : Open call plans adProperty)
    (filled : Filled call plans lists)
    (reached : Reached call plans .mangtou)
    (returned : notVaolanAccuratePv plans random lists.vaolanMangtouAdIds
      adProperty = some result) :
    Sound call plans result := by
  obtain ⟨⟨askedProperty, remaining⟩, asked, returned⟩ :=
    Option.bind_eq_some_iff.mp returned
  obtain ⟨same, others⟩ := processVizury_cases asked
  have stillOpen : Open call plans askedProperty := by
    constructor
    case adId => rw [same, isOpen.adId]
    case vizury =>
      intro adId shown
      rcases others with ⟨asked, ⟨adv, member, equal⟩, _⟩ | ⟨unchanged, _⟩
      · rw [asked] at shown
        cases shown
        exact ⟨adv, (filled.mem_mangtou.mp member).1, equal⟩
      · exact isOpen.vizury (unchanged ▸ shown)
  have members : ∀ {advPlan}, advPlan ∈ remaining ↔
      Eligible call plans advPlan ∧ InClass call advPlan .mangtou := by
    intro advPlan
    rcases others with ⟨_, _, erased⟩ | ⟨_, absent, unchanged⟩
    · rw [erased, mem_eraseP_advId filled.distinct_mangtou,
        filled.mem_mangtou, and_assoc]
      rfl
    · rw [unchanged]
      constructor
      · intro member
        obtain ⟨eligible, blind⟩ := filled.mem_mangtou.mp member
        exact ⟨eligible, blind, absent advPlan member⟩
      · rintro ⟨eligible, blind, _⟩
        exact filled.mem_mangtou.mpr ⟨eligible, blind⟩
  dsimp only at returned
  cases drawn : draw random remaining with
  | none =>
      rw [drawn] at returned
      cases returned
      have empty : ClassEmpty call plans .mangtou :=
        ClassEmpty.of_draw_eq_none members drawn
      constructor
      case chosen =>
        intro adId shown
        rw [stillOpen.adId] at shown
        cases shown
      case vizury => exact stillOpen.vizury
      case complete =>
        intro _ _ adClass _
        cases adClass with
        | mangtou => exact empty
        | adAcct => exact reached.2 .adAcct (by decide)
        | url => exact reached.2 .url (by decide)
        | ip => exact reached.2 .ip (by decide)
        | jsjt => exact reached.2 .jsjt (by decide)
        | host => exact reached.2 .host (by decide)
        | crowd => exact reached.2 .crowd (by decide)
  | some adv =>
      rw [drawn] at returned
      obtain ⟨eligible, inClass⟩ := members.mp (draw_mem drawn)
      have blind :
          Open call plans { askedProperty with hitCause := text "VL_MT" } :=
        ⟨stillOpen.adId, stillOpen.vizury⟩
      exact sound_deliver blind eligible inClass reached returned

/-- The ads that match a crowd of the user, and the blind ones. -/
theorem sound_crowdBranch {draws : Draws} {crowds : List JavaString}
    (isOpen : Open call plans adProperty)
    (filled : Filled call plans lists) (numbered : Numbered call plans)
    (reached : Reached call plans .crowd)
    (allowed : Allowed call .mangtou)
    (asked : crowdIds call = some crowds)
    (returned : crowdBranch call plans draws crowds lists adProperty =
      some result) :
    Sound call plans result := by
  rw [crowdBranch] at returned
  cases drawn : draw draws.crowd
      (crowdAdIds call plans crowds lists.vaolanAdIds) with
  | none =>
      rw [drawn] at returned
      have empty : ClassEmpty call plans .crowd :=
        ClassEmpty.of_ids (filled.mem_crowdAdIds asked) drawn
      exact sound_notVaolanAccuratePv isOpen filled
        (reached.next empty rfl allowed) returned
  | some adId =>
      obtain ⟨advPlan, eligible, rfl, inClass⟩ :=
        (filled.mem_crowdAdIds asked).mp (draw_mem drawn)
      have found : plans.get advPlan.advId = some advPlan :=
        PlanMap.get_eq_some_iff.mpr ⟨eligible.loaded, rfl⟩
      have matched : (isNotBlank call.platform advPlan.advId &&
          lists.vaolanAdIds.contains advPlan) = true := by
        rw [Bool.and_eq_true, List.contains_iff_mem, filled.mem_vaolan]
        exact ⟨(numbered advPlan eligible.loaded).1, eligible⟩
      rw [drawn] at returned
      dsimp only at returned
      rw [found] at returned
      dsimp only at returned
      rw [if_pos matched] at returned
      exact sound_deliver isOpen eligible inClass reached returned

/-- The host-targeted ads and those after them. -/
theorem sound_laterBranches {draws : Draws}
    (isOpen : Open call plans adProperty)
    (filled : Filled call plans lists) (numbered : Numbered call plans)
    (reached : Reached call plans .host)
    (baidu : call.element.type ≠ text "5")
    (returned : laterBranches call plans draws lists adProperty =
      some result) :
    Sound call plans result := by
  have allowed : ∀ adClass, Allowed call adClass :=
    fun _ isBaidu => absurd isBaidu baidu
  rw [laterBranches] at returned
  cases drawn : draw draws.host lists.hostTargetAdIds with
  | some adv =>
      rw [drawn] at returned
      obtain ⟨delivered, put, returned⟩ :=
        Option.bind_eq_some_iff.mp returned
      obtain ⟨⟨asked, remaining⟩, vizury, rfl⟩ :=
        Option.map_eq_some_iff.mp returned
      obtain ⟨eligible, inClass⟩ := filled.mem_host.mp (draw_mem drawn)
      exact (sound_deliver isOpen eligible inClass reached put).processVizury
        filled vizury
  | none =>
      rw [drawn] at returned
      obtain ⟨crowds, asked, returned⟩ :=
        Option.bind_eq_some_iff.mp returned
      have noHost : ClassEmpty call plans .host :=
        ClassEmpty.of_draw_eq_none filled.mem_host drawn
      have reachedCrowd : Reached call plans .crowd :=
        reached.next noHost rfl (allowed _)
      split_ifs at returned with noCrowds
      · have noCrowd : ClassEmpty call plans .crowd := by
          rintro advPlan _ ⟨crowd, _, member⟩
          rw [userCrowds, asked, Option.getD_some, noCrowds] at member
          cases member
        exact sound_notVaolanAccuratePv isOpen filled
          (reachedCrowd.next noCrowd rfl (allowed _)) returned
      · exact sound_crowdBranch isOpen filled numbered reachedCrowd
          (allowed _) asked returned

theorem open_initialProperty :
    Open call plans (initialProperty call) where
  adId := rfl
  vizury shown := by cases shown

/-- What is said of the outcome of a retrieval: `null` is returned only to a
Baidu request for which there is nothing. -/
structure SoundOutcome (call : Request) (plans : PlanMap)
    (outcome : Option AdProperty) : Prop where
  sound {result : AdProperty} : outcome = some result →
    Sound call plans result
  nothing : outcome = none → call.element.type = text "5" ∧
    ∀ adClass, Allowed call adClass → ClassEmpty call plans adClass

theorem soundOutcome_some (sound : Sound call plans result) :
    SoundOutcome call plans (some result) where
  sound equal := by
    cases equal
    exact sound
  nothing equal := by cases equal

/-- An ad drawn from the list of the first class that has a plan. -/
theorem soundOutcome_drawn {list : List AdvPlan} {adClass : AdClass}
    {random : Nat} {outcome : Option AdProperty}
    (members : ∀ {advPlan}, advPlan ∈ list ↔
      Eligible call plans advPlan ∧ InClass call advPlan adClass)
    (isOpen : Open call plans adProperty)
    (reached : Reached call plans adClass)
    (drawn : draw random list = some advPlan)
    (returned : (deliver adProperty advPlan advPlan.advId adThrowType
      hitCause).map some = some outcome) :
    SoundOutcome call plans outcome := by
  obtain ⟨eligible, inClass⟩ := members.mp (draw_mem drawn)
  obtain ⟨result, delivered, rfl⟩ := Option.map_eq_some_iff.mp returned
  exact soundOutcome_some
    (sound_deliver isOpen eligible inClass reached delivered)

/-- The search-matched ads: a Baidu request gets nothing when there are
none. -/
theorem soundOutcome_jsjtBranch {draws : Draws} {outcome : Option AdProperty}
    (isOpen : Open call plans adProperty)
    (filled : Filled call plans lists) (numbered : Numbered call plans)
    (reached : Reached call plans .jsjt)
    (returned : jsjtBranch call plans draws lists adProperty =
      some outcome) :
    SoundOutcome call plans outcome := by
  obtain ⟨standby, asked, returned⟩ := Option.bind_eq_some_iff.mp returned
  have members := @Sorted.mem_canPostAdIds _ _ _ filled numbered _ asked
  cases drawn : draw draws.jsjt
      (canPostAdIds call standby lists.vaolanAdIds) with
  | some adId =>
      obtain ⟨advPlan, eligible, rfl, inClass⟩ :=
        members.mp (draw_mem drawn)
      have found : plans.get advPlan.advId = some advPlan :=
        PlanMap.get_eq_some_iff.mpr ⟨eligible.loaded, rfl⟩
      rw [drawn, Option.bind_some, found] at returned
      obtain ⟨result, delivered, rfl⟩ := Option.map_eq_some_iff.mp returned
      exact soundOutcome_some
        (sound_deliver isOpen eligible inClass reached delivered)
  | none =>
      have empty : ClassEmpty call plans .jsjt :=
        ClassEmpty.of_ids members drawn
      rw [drawn, Option.bind_none] at returned
      dsimp only at returned
      split_ifs at returned with baidu
      · cases returned
        constructor
        · intro _ equal
          cases equal
        · intro _
          refine ⟨baidu, ?_⟩
          intro adClass allowed
          rcases Nat.lt_or_eq_of_le (allowed baidu) with before | last
          · exact reached.2 adClass before
          · rw [AdClass.eq_of_rank last]
            exact empty
      · obtain ⟨result, later, rfl⟩ := Option.map_eq_some_iff.mp returned
        have reachedHost : Reached call plans .host :=
          reached.next empty rfl fun isBaidu => absurd isBaidu baidu
        exact soundOutcome_some
          (sound_laterBranches isOpen filled numbered reachedHost baidu later)

/-- The choice from the filled lists. -/
theorem soundOutcome_choose {draws : Draws} {outcome : Option AdProperty}
    (filled : Filled call plans lists) (numbered : Numbered call plans)
    (returned : choose call plans draws lists = some outcome) :
    SoundOutcome call plans outcome := by
  have isOpen : Open call plans (initialProperty call) :=
    open_initialProperty
  have reached : Reached call plans .adAcct :=
    ⟨fun _ => Nat.zero_le _, fun _ before => absurd before (Nat.not_lt_zero _)⟩
  rw [choose] at returned
  cases drawn : draw draws.adAcct lists.adAcctTargetAdIds with
  | some adv =>
      rw [drawn] at returned
      exact soundOutcome_drawn filled.mem_adAcct isOpen reached drawn returned
  | none =>
      rw [drawn] at returned
      have reached : Reached call plans .url :=
        reached.next (ClassEmpty.of_draw_eq_none filled.mem_adAcct drawn) rfl
          fun _ => by decide
      cases drawn : draw draws.url lists.urlTargetAdIds with
      | some adv =>
          rw [drawn] at returned
          exact soundOutcome_drawn filled.mem_url isOpen reached drawn
            returned
      | none =>
          rw [drawn] at returned
          have reached : Reached call plans .ip :=
            reached.next (ClassEmpty.of_draw_eq_none filled.mem_url drawn) rfl
              fun _ => by decide
          cases drawn : draw draws.ip lists.ipTargetsAdIds with
          | some adv =>
              rw [drawn] at returned
              exact soundOutcome_drawn filled.mem_ip isOpen reached drawn
                returned
          | none =>
              rw [drawn] at returned
              have reached : Reached call plans .jsjt :=
                reached.next (ClassEmpty.of_draw_eq_none filled.mem_ip drawn)
                  rfl fun _ => by decide
              exact soundOutcome_jsjtBranch isOpen filled numbered reached
                returned

end Branches

/--
The choice is sound, ordered and complete.

The ad that is returned, and the plan of Vizury, are eligible; the ad belongs
to the first class that has a plan; and no ad is returned, when every eligible
plan has a size, only if all classes are empty.
-/
theorem adRetrieve_sound (call : Request) (plans : PlanMap) (draws : Draws)
    (numbered : Numbered call plans) {outcome : Option AdProperty}
    (returned :
      (adRetrieveCommonForVaolanPush call plans draws).result =
        some outcome) :
    SoundOutcome call plans outcome := by
  obtain ⟨lists, filtered, chosen⟩ := Option.bind_eq_some_iff.mp returned
  exact soundOutcome_choose (sorted_filterLoop filtered) numbered chosen

/-! ## Sample plans -/

/-- A plan without any targeting. -/
def samplePlan (adId : String) : AdvPlan where
  adInstance :=
    { adId := text adId
      adName := text "ad"
      userId := text "1"
      closeType := text "0"
      linkType := text "M"
      adType := text "1" }
  adSites := []
  negAdSites := []
  adUrls := []
  adMaterials := [⟨text "300x250"⟩]
  adExtLink := ⟨[], [], []⟩
  adTimeFrequency := ⟨1000, [], []⟩
  adTimeFilters := []
  ipPosTargetFilters := []
  ipNegTargetFilters := []
  adAcctTargetFilters := []
  dmpCrowds := []
  regionTargetFilters := []
  isLabelFilter := false
  isKeywordFilter := false
  adUserFrequency := none
  adDeviceLinkList := []

/-- A request for a page, of a type and for an ad. -/
def sampleElement (type adId : String) : AdFilterElement where
  ref := text "http://www.example.com/a"
  excludeAdIds := []
  userAgent := text "Android"
  adId := text adId
  type := text type
  adAcct := text "account"
  ip := text "10.0.0.1"
  width := []
  height := []
  region := []
  adType := text "1"
  adMinNumMap _ := []

/-- Redis is empty, and it is noon. -/
def sampleReadings : Readings where
  pvCount _ := 0
  dayOfWeek _ := 2
  hourOfDay _ := 12
  cookieSecond _ := 43200
  remainSecond _ := 43200
  visitNum _ := some []
  adIdsFromRedis := some []
  crowdSwitch := false
  crowdIdsByAdUa := some []

/-- A request without cookies. -/
def sampleCall (element : AdFilterElement) : Request where
  platform := asciiPlatform
  readings := sampleReadings
  element := element
  request := ⟨[], fun _ => [], text "10.0.0.1"⟩

/-- The map of some plans under their ids. -/
def planMap (plans : List AdvPlan)
    (distinct : (plans.map AdvPlan.advId).Nodup) : PlanMap where
  entries := plans.map fun advPlan => (advPlan.advId, advPlan)
  distinct := by
    rw [List.map_map]
    exact distinct
  keyed := by
    intro entry member
    obtain ⟨advPlan, _, rfl⟩ := List.mem_map.mp member
    rfl

/-- The draws that take the first element. -/
def firstDraws : Draws := ⟨0, 0, 0, 0, 0, 0, 0⟩

theorem plans_planMap {plans : List AdvPlan}
    (distinct : (plans.map AdvPlan.advId).Nodup) :
    (planMap plans distinct).plans = plans := by
  rw [PlanMap.plans, planMap, List.map_map]
  exact List.map_id plans

/-- Ids made of digits are numbers. -/
theorem numbered_digits {element : AdFilterElement} {plans : PlanMap}
    (digits : ∀ advPlan ∈ plans.plans,
      advPlan.advId ≠ [] ∧ advPlan.advId.all
        (fun digit => '0' ≤ digit ∧ digit ≤ '9') = true) :
    Numbered (sampleCall element) plans := by
  intro advPlan member
  obtain ⟨nonempty, digits⟩ := digits advPlan member
  have all : ∀ digit ∈ advPlan.advId, '0' ≤ digit ∧ digit ≤ '9' :=
    fun digit inside =>
      decide_eq_true_iff.mp (List.all_eq_true.mp digits digit inside)
  refine ⟨?_, fun adId same => equalsIgnoreCase_digits all same⟩
  obtain ⟨first, rest, equal⟩ := List.exists_cons_of_ne_nil nonempty
  have low := (all first (equal ▸ List.mem_cons_self)).1
  have visible : asciiPlatform.isWhitespace first = false := by
    rw [char_le_iff] at low
    simp only [asciiPlatform, char_le_iff, Bool.or_eq_false_iff,
      Bool.and_eq_false_iff, decide_eq_false_iff_not, ← Char.toNat_inj,
      Char.reduceToNat] at low ⊢
    omega
  rw [isNotBlank, isBlank, equal, List.all_cons]
  show (!(asciiPlatform.isWhitespace first && _)) = true
  rw [visible]
  rfl

/-- Two plans that are aimed at the account, one of which was shown often
enough, and a blind one. -/
def accountMap : PlanMap :=
  planMap
    [{ samplePlan "11" with adAcctTargetFilters := [text "account"] },
      { samplePlan "12" with
        adAcctTargetFilters := [text "account"]
        adTimeFrequency := ⟨0, [], []⟩ },
      samplePlan "13"] (by decide +kernel)

theorem adRetrieve_sound_account :
    ∃ result,
      (adRetrieveCommonForVaolanPush (sampleCall (sampleElement "4" ""))
        accountMap firstDraws).result = some (some result) ∧
      result.adId = some (text "11") ∧
      SoundOutcome (sampleCall (sampleElement "4" "")) accountMap
        (some result) := by
  have shown :
      ((adRetrieveCommonForVaolanPush (sampleCall (sampleElement "4" ""))
        accountMap firstDraws).result.join.bind AdProperty.adId) =
          some (text "11") := by
    decide +kernel
  have numbered :
      Numbered (sampleCall (sampleElement "4" "")) accountMap := by
    apply numbered_digits
    rw [accountMap, plans_planMap]
    decide +kernel
  obtain ⟨result, returned, equal⟩ := Option.bind_eq_some_iff.mp shown
  have returned := Option.join_eq_some_iff.mp returned
  exact ⟨result, returned, equal,
    adRetrieve_sound _ accountMap firstDraws numbered returned⟩

/-- A Baidu request for one of two plans, whose ids differ in case; the
request excludes the one with the small letters. -/
def excludedElement : AdFilterElement :=
  { sampleElement "5" "ab" with excludeAdIds := [text "ab"] }

/-- The two plans. -/
def caseMap : PlanMap :=
  planMap [samplePlan "AB", samplePlan "ab"] (by decide +kernel)

/-- A plan for a crowd whose id is blank, and a blind one. -/
def blankMap : PlanMap :=
  planMap [{ samplePlan " " with dmpCrowds := [text "c"] }, samplePlan "13"]
    (by decide +kernel)

/-- A request of a user of the crowd. -/
def crowdCall : Request :=
  { sampleCall (sampleElement "" "") with
    readings :=
      { sampleReadings with
        crowdSwitch := true
        crowdIdsByAdUa := some [text "c"] } }

/-- Ids that are not numbers: an excluded plan is returned because its id
equals the one of an eligible plan up to case, and a plan with a blank id is
passed over. -/
theorem adRetrieve_unnumbered :
    (∃ result,
      (adRetrieveCommonForVaolanPush (sampleCall excludedElement) caseMap
        firstDraws).result = some (some result) ∧
      result.adId = some (text "ab") ∧
      ∀ advPlan, Eligible (sampleCall excludedElement) caseMap advPlan →
        advPlan.advId ≠ text "ab") ∧
    ∃ result,
      (adRetrieveCommonForVaolanPush crowdCall blankMap firstDraws).result =
        some (some result) ∧
      result.adId = some (text "13") ∧
      ¬ ClassEmpty crowdCall blankMap .crowd := by
  constructor
  · have shown :
        ((adRetrieveCommonForVaolanPush (sampleCall excludedElement) caseMap
          firstDraws).result.join.bind AdProperty.adId) =
            some (text "ab") := by
      decide +kernel
    obtain ⟨result, returned, equal⟩ := Option.bind_eq_some_iff.mp shown
    refine ⟨result, Option.join_eq_some_iff.mp returned, equal, ?_⟩
    intro advPlan eligible same
    exact eligible.notExcluded (same ▸ List.mem_singleton_self _)
  · have shown :
        ((adRetrieveCommonForVaolanPush crowdCall blankMap
          firstDraws).result.join.bind AdProperty.adId) =
            some (text "13") := by
      decide +kernel
    obtain ⟨result, returned, equal⟩ := Option.bind_eq_some_iff.mp shown
    refine ⟨result, Option.join_eq_some_iff.mp returned, equal, ?_⟩
    intro empty
    have eligible : Eligible crowdCall blankMap
        { samplePlan " " with dmpCrowds := [text "c"] } := by
      rw [← mem_eligiblePlans_iff]
      decide +kernel
    exact empty _ eligible
      ⟨text "c", List.mem_singleton_self _, by decide +kernel⟩

end WindowSystem.Sspserver.AdSelection
