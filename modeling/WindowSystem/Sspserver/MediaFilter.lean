import WindowSystem.Sspserver.Model

/-!
# Sites and urls

`StringUtil.getHostUrl`, `DomainUtils.getTopDomainWithoutSubdomain` and
`MediaFilter`.  Two methods of the filter decide whether a page is on the
sites of a plan: `adSiteFilter` follows the rules of its comment, and
`adSiteUrlFilter` is what the chain of filters calls.
-/

namespace WindowSystem.Sspserver.MediaFilter

open WindowSystem.Sspserver.JavaRuntime
open WindowSystem.Sspserver.Model

/-! ## Hosts -/

/-- The loop of `getHostUrl` from index `i` on, with the character before it;
the result is `start` and `end`. -/
def hostLoop (length : Nat) (before : Char) (start stop i : Nat) :
    JavaString → Nat × Nat
  | [] => (start, stop)
  | character :: rest =>
      if character = '/' ∧ character = before then
        hostLoop length character (i + 1) stop (i + 1) rest
      else if character = '/' ∧ before ≠ ':' then (start, i)
      else
        hostLoop length character start
          (if i + 1 = length ∧ stop < start then length else stop)
          (i + 1) rest

/-- `getHostUrl`; the exception is the one of `new String`. -/
def getHostUrl (url : JavaString) : Option JavaString :=
  let (start, stop) :=
    match url with
    | [] => (0, 0)
    | first :: rest => hostLoop url.length first 0 0 1 rest
  if start ≤ stop then some ((url.drop start).take (stop - start)) else none

/-- The alternatives of the pattern. -/
def suffixes : List JavaString :=
  [".com.cn", ".net.cn", ".org.cn", ".gov.cn", ".com", ".net", ".cn", ".org",
    ".cc", ".me", ".tel", ".mobi", ".asia", ".biz", ".info", ".name", ".tv",
    ".hk", ".公司", ".中国", ".网络"].map text

/-- The first match of the pattern: characters other than dots and one of the
suffixes. -/
def findDomain : JavaString → Option JavaString
  | [] => none
  | first :: rest =>
      let label := (first :: rest).takeWhile (· ≠ '.')
      let tail := (first :: rest).dropWhile (· ≠ '.')
      match suffixes.find? fun suffix => suffix.isPrefixOf tail with
      | some suffix => if label = [] then findDomain rest
          else some (label ++ suffix)
      | none => findDomain rest

/-- `getTopDomainWithoutSubdomain`: an exception for what is not a url, and
`none` for a `null`. -/
def getTopDomainWithoutSubdomain (platform : Platform) (url : JavaString) :
    Option (Option JavaString) :=
  (platform.urlHost url).map fun host => findDomain (platform.lowerCase host)

/-! ## The filter -/

variable (platform : Platform) (advPlan : AdvPlan)
  (adFilterElement : AdFilterElement)

/-- `contains` of a list of strings with the top domain of the page. -/
def containsDomain (sites : List JavaString) : Option JavaString → Bool
  | none => false
  | some domain => sites.contains domain

/-- `contains(host) || contains(domain)`, evaluated from the left. -/
def containsPage (sites : List JavaString) (ref : JavaString) : Option Bool :=
  (getHostUrl ref).bind fun host =>
    if sites.contains host then some true
    else (getTopDomainWithoutSubdomain platform ref).map
      (containsDomain sites)

/-- `adSiteFilter` -/
def adSiteFilter : Option Bool :=
  if advPlan.isSiteFilter then
    if isBlank platform adFilterElement.ref then some false
    else
      (containsPage platform advPlan.adSites adFilterElement.ref).bind
        fun isSite =>
          if !isSite then some false
          else if advPlan.isNegSiteFilter then
            (containsPage platform advPlan.negAdSites
              adFilterElement.ref).map (!·)
          else some true
  else some true

/-- `adUrlFilter` -/
def adUrlFilter : Bool :=
  !advPlan.isUrlFilter ||
    isNotBlank platform adFilterElement.ref &&
      advPlan.adUrls.contains adFilterElement.ref

/-- `adSiteUrlFilter` -/
def adSiteUrlFilter : Option Bool :=
  if isBlank platform adFilterElement.ref then some false
  else if !advPlan.isSiteFilter && !advPlan.isUrlFilter then some true
  else
    (if advPlan.isSiteFilter then
        (getHostUrl adFilterElement.ref).map advPlan.adSites.contains
      else some false).map fun isSite =>
        isSite ||
          advPlan.isUrlFilter && advPlan.adUrls.contains adFilterElement.ref

/-- `doFilter` -/
def doFilter : Option Bool :=
  adSiteUrlFilter platform advPlan adFilterElement

end WindowSystem.Sspserver.MediaFilter
