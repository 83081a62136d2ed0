import WindowSystem.Library.MissingResult
import WindowSystem.Sspserver.MediaFilter

/-!
# The chain of filters

`AdPlanFilter`, `UserFilter`, `RegionFilter`, `IpUaFilter` and `DeviceFilter`.
The filter of cookies and addresses writes while it decides: its result is
the list of its writes together with its answer, and the writes stay when a
later filter throws.
-/

namespace WindowSystem.Sspserver.Filters

open WindowSystem.Library
open WindowSystem.Library.MissingResult
open WindowSystem.Sspserver.JavaRuntime
open WindowSystem.Sspserver.Model

/-! ## Decisions that write -/

/-- A write to the counters of an ad. -/
inductive CounterChange where
  | addCookie (name : JavaString) (value maxAge : Int)
  | saveIPInfo (key visitNum : JavaString) (expireSecond : Int)
  | hincrByOne (key : JavaString)
deriving DecidableEq

/-- A write and the ad whose counter is written. -/
structure CounterWrite where
  advId : JavaString
  change : CounterChange
deriving DecidableEq

/-- What a method writes, and what it returns; `none` is an exception. -/
structure Written (α : Type*) where
  writes : List CounterWrite
  result : Option α

namespace Written

variable {α : Type*}

/-- A method that writes nothing. -/
def ofResult (result : Option α) : Written α :=
  ⟨[], result⟩

/-- `first && second`, where the second one does not write. -/
def andThen (first : Written Bool) (second : Option Bool) : Written Bool where
  writes := first.writes
  result := first.result.bind fun flag => if flag then second else some false

/-- `first && second` -/
def and (first second : Written Bool) : Written Bool :=
  match first.result with
  | some true => ⟨first.writes ++ second.writes, second.result⟩
  | _ => first

end Written

variable (platform : Platform) (readings : Readings) (advPlan : AdvPlan)
  (adFilterElement : AdFilterElement) (request : HttpServletRequest)

/-! ## `AdPlanFilter` -/

/-- `putAdTimeFilter` -/
def putAdTimeFilter : Bool :=
  !advPlan.isPutTimeFilter ||
    advPlan.adTimeFilters.any fun adPutTime =>
      containsText adPutTime.daysOfWeek
          (Nat.toDigits 10 (readings.dayOfWeek advPlan.advId)) &&
        adPutTime.startHour ≤ readings.hourOfDay advPlan.advId &&
        readings.hourOfDay advPlan.advId ≤ adPutTime.endHour

/-- `isBeyondDayLimit`: the limit is not reached. -/
def isBeyondDayLimit : Bool :=
  readings.pvCount advPlan.advId < advPlan.adTimeFrequency.dayLimit

/-- `minLimitInt` -/
def minLimitInt : Option Int :=
  if isNotBlank platform advPlan.adTimeFrequency.minuteLimit then
    parseInt platform advPlan.adTimeFrequency.minuteLimit
  else some 0

/-- `isBeyondMinLimit` -/
def isBeyondMinLimit : Option Bool :=
  (minLimitInt platform advPlan).bind fun minLimitInt =>
    let minPvNumStr :=
      adFilterElement.adMinNumMap (text "adId_" ++ advPlan.advId)
    if advPlan.adTimeFrequency.isUniform = text "1" ∧
        isNotBlank platform minPvNumStr then
      (parseInt platform minPvNumStr).map fun minPvNumInt =>
        decide (minPvNumInt < minLimitInt)
    else some true

/-- `isAdType` -/
def isAdType : Bool :=
  adFilterElement.adType ≠ [] &&
    advPlan.adInstance.adType = adFilterElement.adType

/-- `AdPlanFilter.doFilter` -/
def adPlanFilter : Option Bool :=
  andAlso (some (isBeyondDayLimit readings advPlan))
    (andAlso (some (putAdTimeFilter readings advPlan))
      (andAlso (isBeyondMinLimit platform advPlan adFilterElement)
        (some (isAdType advPlan adFilterElement))))

/-! ## `UserFilter`, `RegionFilter` and `DeviceFilter` -/

/-- A list of wanted values: it is not set, or it contains the value of the
request. -/
def targetFilter (targets : List JavaString) (value : JavaString) : Bool :=
  !isFilter targets || isNotBlank platform value && targets.contains value

/-- `adAcctFilter` -/
def adAcctFilter : Bool :=
  targetFilter platform advPlan.adAcctTargetFilters adFilterElement.adAcct

/-- `ipPosTargetFilter` -/
def ipPosTargetFilter : Bool :=
  targetFilter platform advPlan.ipPosTargetFilters adFilterElement.ip

/-- `ipNegTargetFilter` -/
def ipNegTargetFilter : Bool :=
  !advPlan.isNegIpTargetFilter ||
    isNotBlank platform adFilterElement.ip &&
      !advPlan.ipNegTargetFilters.contains adFilterElement.ip

/-- `UserFilter.doFilter` -/
def userFilter : Bool :=
  adAcctFilter platform advPlan adFilterElement &&
    ipPosTargetFilter platform advPlan adFilterElement &&
    ipNegTargetFilter platform advPlan adFilterElement

/-- `RegionFilter.doFilter` -/
def regionFilter : Bool :=
  targetFilter platform advPlan.regionTargetFilters adFilterElement.region

/-- `dCode` -/
def deviceCode (userAgent : JavaString) : JavaString :=
  if containsText (platform.lowerCase userAgent) (text "android") then
    text "1"
  else if containsText (platform.lowerCase userAgent) (text "iphone") then
    text "2"
  else []

/-- `DeviceFilter.doFilter` -/
def deviceFilter : Bool :=
  !advPlan.isAdDeviceTarget ||
    isNotBlank platform adFilterElement.userAgent &&
      advPlan.adDeviceLinkList.contains
        (deviceCode platform adFilterElement.userAgent)

/-! ## `IpUaFilter` -/

/-- `cookieName` -/
def cookieName : JavaString :=
  text "cookieForAdId" ++ text "_" ++ advPlan.advId

/-- `cookieValue` -/
def cookieValue : JavaString :=
  (request.cookies.lookup (cookieName advPlan)).getD []

/-- The write of a cookie that lives until midnight. -/
def uvcookie (value : Int) : CounterWrite :=
  ⟨advPlan.advId,
    .addCookie (cookieName advPlan) value
      (readings.cookieSecond advPlan.advId)⟩

/-- `doCookieNumFilter` -/
def doCookieNumFilter : Written Bool :=
  match advPlan.adUserFrequency with
  | none => .ofResult (some true)
  | some adUserFrequency =>
      if adUserFrequency.uidImpressNum = [] then .ofResult (some true)
      else if cookieValue advPlan request = [] then
        ⟨[uvcookie readings advPlan 1], some true⟩
      else
        match parseInt platform (cookieValue advPlan request),
          parseInt platform adUserFrequency.uidImpressNum with
        | some oldCookieValue, some uidImpressNum =>
            if oldCookieValue ≥ uidImpressNum then .ofResult (some false)
            else ⟨[uvcookie readings advPlan (oldCookieValue + 1)], some true⟩
        | _, _ => .ofResult none

/-- A header that does not name an address. -/
def noAddress (ip : JavaString) : Bool :=
  ip = [] || equalsIgnoreCase platform (text "unknown") ip

/-- `RequestUtil.getClientIp` -/
def getClientIp : JavaString :=
  let forwarded := request.header (text "x-forwarded-for")
  let proxy :=
    if noAddress platform forwarded then
      request.header (text "Proxy-Client-IP")
    else forwarded
  let client :=
    if noAddress platform proxy then
      request.header (text "WL-Proxy-Client-IP")
    else proxy
  if noAddress platform client then request.remoteAddr else client

/-- `keyForIp` -/
def keyForIp : JavaString :=
  getClientIp platform request ++ text "_" ++ advPlan.advId

/-- `doIPNumFilter`; an exception of a write is caught. -/
def doIPNumFilter : Written Bool :=
  match advPlan.adUserFrequency with
  | none => .ofResult (some true)
  | some adUserFrequency =>
      if adUserFrequency.uidIpNum = [] then .ofResult (some true)
      else
        match readings.visitNum (keyForIp platform advPlan request) with
        | none => .ofResult none
        | some [] =>
            ⟨[⟨advPlan.advId,
              .saveIPInfo (keyForIp platform advPlan request) (text "1")
                (readings.remainSecond advPlan.advId)⟩], some true⟩
        | some visitNum =>
            match parseInt platform adUserFrequency.uidIpNum,
              parseInt platform visitNum with
            | some uidIpNum, some visits =>
                if visits ≥ uidIpNum then .ofResult (some false)
                else
                  ⟨[⟨advPlan.advId,
                    .hincrByOne (keyForIp platform advPlan request)⟩],
                    some true⟩
            | _, _ => .ofResult none

/-- `IpUaFilter.doFilter` -/
def ipUaFilter : Written Bool :=
  (doCookieNumFilter platform readings advPlan request).and
    (doIPNumFilter platform readings advPlan request)

/-! ## The chain -/

/-- The filters before the one that writes. -/
def firstFilters : Option Bool :=
  andAlso (adPlanFilter platform readings advPlan adFilterElement)
    (andAlso (MediaFilter.doFilter platform advPlan adFilterElement)
      (some (userFilter platform advPlan adFilterElement &&
        regionFilter platform advPlan adFilterElement)))

/-- The condition of `filterAdForVaolanPush`. -/
def filterChain : Written Bool :=
  match firstFilters platform readings advPlan adFilterElement with
  | some true =>
      (ipUaFilter platform readings advPlan request).andThen
        (some (deviceFilter platform advPlan adFilterElement))
  | other => .ofResult other

end WindowSystem.Sspserver.Filters
