import WindowSystem.Sspserver.JavaRuntime

/-!
# The data of the ad server

The classes of the package `model` with the fields that the retrieval uses, a
request, and what the retrieval reads from the clock, from the counters of
shown ads and from redis.  The flags of a plan are not fields: the setters of
the lists set a flag exactly when the list that they are given is not empty.
-/

namespace WindowSystem.Sspserver.Model

open WindowSystem.Sspserver.JavaRuntime

/-! ## Plans -/

/-- `AdMaterial` -/
structure AdMaterial where
  materialSizeValue : JavaString
deriving DecidableEq

/-- `AdExtLink` -/
structure AdExtLink where
  throwUrl : JavaString
  width : JavaString
  height : JavaString
deriving DecidableEq

/-- `AdInstance` -/
structure AdInstance where
  adId : JavaString
  adName : JavaString
  userId : JavaString
  closeType : JavaString
  linkType : JavaString
  adType : JavaString
deriving DecidableEq

/-- `AdTimeFilter` -/
structure AdTimeFilter where
  daysOfWeek : JavaString
  startHour : Int
  endHour : Int
deriving DecidableEq

/-- `AdTimeFrequency` -/
structure AdTimeFrequency where
  dayLimit : Int
  minuteLimit : JavaString
  isUniform : JavaString
deriving DecidableEq

/-- `AdUserFrequency` -/
structure AdUserFrequency where
  uidImpressNum : JavaString
  uidIpNum : JavaString
deriving DecidableEq

/-- `AdvPlan` -/
structure AdvPlan where
  adInstance : AdInstance
  adSites : List JavaString
  negAdSites : List JavaString
  adUrls : List JavaString
  adMaterials : List AdMaterial
  adExtLink : AdExtLink
  adTimeFrequency : AdTimeFrequency
  adTimeFilters : List AdTimeFilter
  ipPosTargetFilters : List JavaString
  ipNegTargetFilters : List JavaString
  adAcctTargetFilters : List JavaString
  dmpCrowds : List JavaString
  regionTargetFilters : List JavaString
  isLabelFilter : Bool
  isKeywordFilter : Bool
  adUserFrequency : Option AdUserFrequency
  /-- The device ids of the links. -/
  adDeviceLinkList : List JavaString
deriving DecidableEq

/-- The flag that the setter of a list sets. -/
def isFilter {α : Type*} (list : List α) : Bool :=
  !list.isEmpty

theorem isFilter_of_mem {α : Type*} {element : α} {list : List α}
    (member : element ∈ list) : isFilter list = true := by
  cases list with
  | nil => cases member
  | cons => rfl

namespace AdvPlan

variable (advPlan : AdvPlan)

/-- `getAdvId` -/
def advId : JavaString :=
  advPlan.adInstance.adId

/-- `isSiteFilter` -/
def isSiteFilter : Bool :=
  isFilter advPlan.adSites

/-- `isNegSiteFilter` -/
def isNegSiteFilter : Bool :=
  isFilter advPlan.negAdSites

/-- `isUrlFilter` -/
def isUrlFilter : Bool :=
  isFilter advPlan.adUrls

/-- `isPutTimeFilter` -/
def isPutTimeFilter : Bool :=
  isFilter advPlan.adTimeFilters

/-- `isPosIpTargetFilter` -/
def isPosIpTargetFilter : Bool :=
  isFilter advPlan.ipPosTargetFilters

/-- `isNegIpTargetFilter` -/
def isNegIpTargetFilter : Bool :=
  isFilter advPlan.ipNegTargetFilters

/-- `isAdAcctTargetFilter` -/
def isAdAcctTargetFilter : Bool :=
  isFilter advPlan.adAcctTargetFilters

/-- `isDmpCrowdMatch` -/
def isDmpCrowdMatch : Bool :=
  isFilter advPlan.dmpCrowds

/-- `isAdDeviceTarget` -/
def isAdDeviceTarget : Bool :=
  isFilter advPlan.adDeviceLinkList

end AdvPlan

/-- A map of plans in the order of its iteration, whose keys are the ids of
the plans. -/
structure PlanMap where
  entries : List (JavaString × AdvPlan)
  distinct : (entries.map Prod.fst).Nodup
  keyed : ∀ entry ∈ entries, entry.1 = entry.2.advId

/-- `Map.get` -/
def PlanMap.get (plans : PlanMap) (adId : JavaString) : Option AdvPlan :=
  plans.entries.lookup adId

/-- The plans of a map. -/
def PlanMap.plans (plans : PlanMap) : List AdvPlan :=
  plans.entries.map Prod.snd

/-! ## Requests -/

/-- `AdFilterElement` -/
structure AdFilterElement where
  ref : JavaString
  excludeAdIds : List JavaString
  userAgent : JavaString
  adId : JavaString
  type : JavaString
  adAcct : JavaString
  ip : JavaString
  width : JavaString
  height : JavaString
  region : JavaString
  adType : JavaString
  adMinNumMap : JavaString → JavaString

/-- The parts of `HttpServletRequest` that the filters read. -/
structure HttpServletRequest where
  cookies : List (JavaString × JavaString)
  header : JavaString → JavaString
  remoteAddr : JavaString

/-- `AdProperty` -/
structure AdProperty where
  adId : Option JavaString
  userId : JavaString
  hitCause : JavaString
  adAcct : JavaString
  ref : JavaString
  width : JavaString
  height : JavaString
  adThrowType : JavaString
  vizuryAdId : Option JavaString
  vizuryUserId : JavaString
  vizuryTag : JavaString
  vizuryWidth : JavaString
  vizuryHeight : JavaString
  linkType : JavaString
  extLink : JavaString
  closeType : JavaString
  vizuryCloseType : JavaString
  adName : JavaString
deriving DecidableEq

/-- The object after `new AdProperty()`. -/
def AdProperty.new : AdProperty where
  adId := none
  userId := []
  hitCause := []
  adAcct := []
  ref := []
  width := []
  height := []
  adThrowType := []
  vizuryAdId := none
  vizuryUserId := []
  vizuryTag := []
  vizuryWidth := []
  vizuryHeight := []
  linkType := []
  extLink := []
  closeType := []
  vizuryCloseType := []
  adName := []

/--
What one retrieval reads from outside.

The clock and the number of shown ads are read once for each plan that the
filters reach, and may be different for every plan.
-/
structure Readings where
  /-- `getPvCount` -/
  pvCount : JavaString → Int
  dayOfWeek : JavaString → Nat
  hourOfDay : JavaString → Int
  /-- `getRemainTime() / 1000` for the cookie -/
  cookieSecond : JavaString → Int
  /-- `getRemainTime() / 1000` for the key of the address -/
  remainSecond : JavaString → Int
  /-- `get` of the key of an address -/
  visitNum : JavaString → Option JavaString
  /-- `getAdIdsFromRedis` -/
  adIdsFromRedis : Option (List JavaString)
  /-- the property `crowd_switch` is `ON` -/
  crowdSwitch : Bool
  /-- `getCrowdIdsByAdUa` -/
  crowdIdsByAdUa : Option (List JavaString)

/-- What the seven calls of `nextInt` draw from. -/
structure Draws where
  adAcct : Nat
  url : Nat
  ip : Nat
  jsjt : Nat
  host : Nat
  crowd : Nat
  mangtou : Nat

/-! ## Looking up plans -/

namespace PlanMap

variable {plans : PlanMap} {adId : JavaString} {advPlan : AdvPlan}

theorem advId_of_mem (member : (adId, advPlan) ∈ plans.entries) :
    advPlan.advId = adId :=
  (plans.keyed _ member).symm

theorem mem_of_get (found : plans.get adId = some advPlan) :
    (adId, advPlan) ∈ plans.entries := by
  rw [get, List.lookup_eq_some_iff] at found
  obtain ⟨front, back, equal, _⟩ := found
  rw [equal]
  exact List.mem_append_right _ List.mem_cons_self

/-- A plan is found under its id. -/
theorem get_of_mem (member : (adId, advPlan) ∈ plans.entries) :
    plans.get adId = some advPlan := by
  obtain ⟨front, back, equal⟩ := List.append_of_mem member
  have distinct := plans.distinct
  rw [equal, List.map_append, List.map_cons, List.nodup_append] at distinct
  rw [get, List.lookup_eq_some_iff]
  refine ⟨front, back, equal, ?_⟩
  intro entry earlier
  rw [bne_iff_ne]
  exact (distinct.2.2 _ (List.mem_map_of_mem earlier) _
    List.mem_cons_self).symm

theorem get_eq_some_iff :
    plans.get adId = some advPlan ↔
      advPlan ∈ plans.plans ∧ advPlan.advId = adId := by
  constructor
  · intro found
    have member := mem_of_get found
    exact ⟨List.mem_map_of_mem member, advId_of_mem member⟩
  · rintro ⟨member, rfl⟩
    obtain ⟨⟨key, plan⟩, inside, rfl⟩ := List.mem_map.mp member
    rw [advId_of_mem inside]
    exact get_of_mem inside

theorem mem_entries_iff :
    (adId, advPlan) ∈ plans.entries ↔
      advPlan ∈ plans.plans ∧ advPlan.advId = adId :=
  ⟨fun member => get_eq_some_iff.mp (get_of_mem member),
    fun found => mem_of_get (get_eq_some_iff.mpr found)⟩

/-- The id of a plan determines it. -/
theorem eq_of_advId {other : AdvPlan} (member : advPlan ∈ plans.plans)
    (otherMember : other ∈ plans.plans)
    (same : advPlan.advId = other.advId) : advPlan = other := by
  have found := get_eq_some_iff.mpr ⟨member, same⟩
  rw [get_eq_some_iff.mpr ⟨otherMember, rfl⟩] at found
  exact (Option.some_inj.mp found).symm

end PlanMap

end WindowSystem.Sspserver.Model
