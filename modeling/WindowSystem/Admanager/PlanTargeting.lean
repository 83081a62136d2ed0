import WindowSystem.Admanager.PlanPage
import WindowSystem.Sspserver.DBInfoFresh
import WindowSystem.Sspserver.SiteTargeting

/-!
# The targeting of a plan after its edits

A plan is edited again and again, and some edits fail on the way.  The module
follows the rows of the plan through all of its edits, to the lists that the
ad server reads and to what its filters decide.
-/

namespace WindowSystem.Admanager.PlanTargeting

open WindowSystem.Admanager.AdPlanManage (AdMLink Plan UserType)
open WindowSystem.Admanager.EditAdPlan
open WindowSystem.Admanager.PlanPage
open WindowSystem.Library.Transaction
open WindowSystem.Sspserver.AdRetrieval (Request)
open WindowSystem.Sspserver.AdSelection (sampleCall sampleElement
  sampleReadings)
open WindowSystem.Sspserver.DBInfoFresh (Database advPlanOf singleDatabase)
open WindowSystem.Sspserver.Filters
open WindowSystem.Sspserver.JavaRuntime
open WindowSystem.Sspserver.MediaFilter
open WindowSystem.Sspserver.Model
open WindowSystem.Sspserver.SiteTargeting

/-! ## Edits -/

/-- A call of `editAdPlan`, with what it finds and what fails in it. -/
structure Edit where
  env : Environment
  form : Form
  fails : Point → Bool

/-- The call; it is done if it returns. -/
def Edit.run (edit : Edit) (world : World) : Bool × World :=
  editAdPlan edit.env edit.form edit.fails world

/-- The rows of keywords that `addPlanKeyword` can insert. -/
def Edit.keywordRows (edit : Edit) : List Row :=
  edit.form.keyWordAdPlan.elim [] fun keyWord =>
    let kwFileName :=
      (storedFileName edit.env edit.form).getD edit.form.kwFileName
    ((trimmedKeywords (keywordLines (keyWord.keyWd.getD []))).map
        fun keywords =>
          keywordRow keyWord (some keywords) (text "1")
            keyWord.kwFilePath).toList ++
      [keywordRow keyWord kwFileName (text "2") edit.env.kwDirectory]

/-- The columns that an edit writes. -/
def Edit.adInstance (edit : Edit) : AdInstanceDto :=
  { edit.form.adInstanceDto with
    maxCpmBidprice :=
      edit.form.adInstanceDto.maxCpmBidprice.filter (· ≠ []) }

/-- The links to materials that an edit inserts. -/
def Edit.adMLinks (edit : Edit) : List AdMLink :=
  (submittedLinks edit.env edit.form).elim [] Prod.fst

/-- The links to external urls after an edit: its own, behind the old ones if
their deletion failed. -/
def Edit.adExtLinks (edit : Edit) (old : List AdPlanManage.AdExtLink) :
    List AdPlanManage.AdExtLink :=
  (if edit.fails .deleteAdExtLinkByAdId then old else []) ++
    (submittedLinks edit.env edit.form).elim [] Prod.snd

/-! ## The approval -/

/-- The approval was not touched. -/
structure SameApproval (before after : Plan) : Prop where
  adToufangSts : after.adToufangSts = before.adToufangSts
  adCheckProcess : after.adCheckProcess = before.adCheckProcess

/-- The approval was withdrawn, and with it the check processes of a user. -/
structure Withdrawn (user : UserType) (before after : Plan) : Prop where
  active : before.adToufangSts ≠ -1
  adToufangSts : after.adToufangSts = -1
  adCheckProcess :
    after.adCheckProcess = Function.update before.adCheckProcess user []

/-- At most one of some edits has withdrawn the approval. -/
def WithdrawnOnce (edits : List Edit) (before after : Plan) : Prop :=
  SameApproval before after ∨
    ∃ edit ∈ edits, ∃ user ∈ edit.env.user, Withdrawn user before after

section Approval

variable {edit : Edit} {edits : List Edit} {before middle after : Plan}

/-- What was withdrawn cannot be withdrawn again. -/
theorem WithdrawnOnce.concat (front : WithdrawnOnce edits before middle)
    (last : WithdrawnOnce [edit] middle after) :
    WithdrawnOnce (edits ++ [edit]) before after := by
  rcases front with same | ⟨first, member, user, checked, withdrawn⟩ <;>
    rcases last with kept | ⟨other, single, another, found, again⟩
  · exact .inl ⟨kept.adToufangSts.trans same.adToufangSts,
      kept.adCheckProcess.trans same.adCheckProcess⟩
  · refine .inr ⟨other, List.mem_append_right _ single, another, found, ?_⟩
    exact ⟨same.adToufangSts ▸ again.active, again.adToufangSts,
      same.adCheckProcess ▸ again.adCheckProcess⟩
  · refine .inr ⟨first, List.mem_append_left _ member, user, checked, ?_⟩
    exact ⟨withdrawn.active, kept.adToufangSts.trans withdrawn.adToufangSts,
      kept.adCheckProcess.trans withdrawn.adCheckProcess⟩
  · exact absurd withdrawn.adToufangSts again.active

theorem withdrawnOnce_reviewed {flag : Bool} :
    WithdrawnOnce [edit] before (reviewed edit.env flag before) := by
  rw [reviewed]
  cases checked : edit.env.user with
  | none => exact .inl ⟨rfl, rfl⟩
  | some user =>
      dsimp only
      rw [AdPlanManage.withdraw]
      split_ifs with changed
      · exact .inr ⟨edit, List.mem_singleton_self edit, user, checked,
          changed.2, rfl, rfl⟩
      · exact .inl ⟨rfl, rfl⟩

end Approval

/-- An edit has stored its own rows and no others, except for the crowds,
which are not deleted before, and the links to external urls, whose deletion
may fail without an exception. -/
structure Stored (edit : Edit) (before after : Rows) : Prop where
  adInstance : after.adInstance = edit.adInstance
  ad3statCodeTemp : after.ad3statCodeTemp = before.ad3statCodeTemp
  linkType : after.plan.linkType =
    (AdPlanManage.updateAdInstance edit.form.adDto before.plan).linkType
  formed : (submittedLinks edit.env edit.form).isSome = true
  adMLinks : after.plan.adMLinks = edit.adMLinks
  adExtLinks : after.plan.adExtLinks = edit.adExtLinks before.plan.adExtLinks
  approval : WithdrawnOnce [edit] before.plan after.plan
  tables : ∀ table, table ≠ .adplanKeyword → table ≠ .adCrowdLink →
    submitted edit.env edit.form table = some (after.tables table)
  adplanKeyword : ∀ row ∈ after.tables .adplanKeyword,
    row ∈ edit.keywordRows
  adCrowdLink : after.tables .adCrowdLink =
    before.tables .adCrowdLink ++ adCrowdLinks edit.env edit.form

/-! ## One edit -/

section Step

variable {edit : Edit} {fails : Point → Bool}
  {rows before after last : Rows} {world : World}

/-- A statement of `addPlanKeyword` inserts one of the rows or nothing. -/
theorem effect_insertions {statement : EditStatement}
    (member : statement ∈ insertions edit.env edit.form)
    (done : statement.effect before = some after) :
    ∃ row ∈ edit.keywordRows,
      after = before.insertAll .adplanKeyword [row] := by
  rw [insertions] at member
  cases found : edit.form.keyWordAdPlan with
  | none =>
      rw [found] at member
      cases member
  | some keyWord =>
      rw [found] at member
      dsimp only at member
      rw [Edit.keywordRows, found, Option.elim_some]
      rcases List.mem_append.mp member with member | member
      · split_ifs at member
        · cases member
        · obtain rfl := List.mem_singleton.mp member
          obtain ⟨row, formed, rfl⟩ := Option.map_eq_some_iff.mp done
          refine ⟨row, List.mem_append_left _ ?_, rfl⟩
          rw [formed]
          exact List.mem_singleton_self row
      · split_ifs at member
        · cases member
        · obtain rfl := List.mem_singleton.mp member
          obtain rfl := Option.some.inj done
          exact ⟨_, List.mem_append_right _ (List.mem_singleton_self _), rfl⟩

/-- Where there are no keywords, `addPlanKeyword` leaves only its own. -/
theorem mem_keywordRows_of_runCaught
    (empty : rows.tables .adplanKeyword = []) :
    ∀ row ∈ (runCaught fails (addPlanKeyword edit.env edit.form)
      rows).tables .adplanKeyword, row ∈ edit.keywordRows := by
  apply @runCaught_preserves _ _ fails _ rows
    fun rows => ∀ row ∈ rows.tables .adplanKeyword, row ∈ edit.keywordRows
  case each =>
    intro statement member before after own done
    rw [addPlanKeyword_eq] at member
    rcases List.mem_append.mp member with member | member
    · rw [idle_preparations statement member before after done]
      exact own
    · obtain ⟨row, submitted, rfl⟩ := effect_insertions member done
      rw [tables_insertAll, if_pos rfl, List.forall_mem_append,
        List.forall_mem_singleton]
      exact ⟨own, submitted⟩
  case start =>
    rw [empty]
    exact List.forall_mem_nil _

/-- The plan of an edit that reaches the cache has its type and its links, and
the old approval. -/
theorem plan_of_isReached
    (reached : IsReached edit.env edit.form edit.fails before last) :
    last.plan.linkType =
        (AdPlanManage.updateAdInstance edit.form.adDto before.plan).linkType ∧
      (submittedLinks edit.env edit.form).isSome = true ∧
      last.plan.adMLinks = edit.adMLinks ∧
      last.plan.adExtLinks = edit.adExtLinks before.plan.adExtLinks ∧
      SameApproval before.plan last.plan := by
  have formed := reached.plan
  rw [addedPlan_eq] at formed
  obtain ⟨links, found, equal⟩ := Option.map_eq_some_iff.mp formed
  rw [Edit.adMLinks, Edit.adExtLinks, found, ← equal, emptiedPlan]
  split_ifs <;> exact ⟨rfl, rfl, rfl, rfl, rfl, rfl⟩

theorem reviewed_linkType {flag : Bool} {plan : Plan} :
    (reviewed edit.env flag plan).linkType = plan.linkType := by
  rw [reviewed]
  split
  · rfl
  · rw [AdPlanManage.withdraw]
    split_ifs <;> rfl

/-- An edit that does not return leaves the rows. -/
theorem rows_of_refused (refused : (edit.run world).1 = false) :
    (edit.run world).2.rows = world.rows := by
  rw [Edit.run] at *
  rcases editAdPlan_cases edit.env edit.form edit.fails world with
    ⟨_, left⟩ | ⟨flag, rows, _, _, _, edited⟩
  · rw [left]
  · rw [edited] at refused ⊢
    cases reviewed : runAll edit.fails (review edit.env flag rows.plan)
        rows with
    | none => rfl
    | some last =>
        rw [reviewed] at refused
        cases refused

/-- An edit that returns has stored its rows. -/
theorem stored_of_done (done : (edit.run world).1 = true) :
    Stored edit world.rows (edit.run world).2.rows := by
  rw [Edit.run] at *
  rcases editAdPlan_cases edit.env edit.form edit.fails world with
    ⟨_, left⟩ | ⟨flag, rows, _, _, completed, edited⟩
  · rw [left] at done
    cases done
  have reached := isReached_of_runBlocks completed
  rw [edited] at done ⊢
  cases ended : runAll edit.fails (review edit.env flag rows.plan) rows with
  | none =>
      rw [ended] at done
      cases done
  | some last =>
      have works := runAll_review_isSome_iff.mp
        (Option.isSome_iff_exists.mpr ⟨last, ended⟩)
      obtain rfl := Option.some_inj.mp ((runAll_review works).symm.trans ended)
      obtain ⟨linkType, formed, material, external, same⟩ :=
        plan_of_isReached reached
      constructor
      case adInstance => exact reached.adInstance
      case ad3statCodeTemp => exact reached.ad3statCodeTemp
      case linkType => exact reviewed_linkType.trans linkType
      case formed => exact formed
      case adMLinks => exact reviewed_links.1.trans material
      case adExtLinks => exact reviewed_links.2.trans external
      case approval =>
        exact @WithdrawnOnce.concat edit [] _ _ _ (.inl same)
          withdrawnOnce_reviewed
      case tables =>
        intro table keyword crowd
        obtain ⟨list, formed, equal⟩ := reached.tables table keyword
        rw [formed, equal, if_neg crowd, List.nil_append]
      case adplanKeyword =>
        obtain ⟨before, empty, stored⟩ := reached.adplanKeyword
        rw [stored]
        exact mem_keywordRows_of_runCaught empty
      case adCrowdLink =>
        obtain ⟨list, formed, equal⟩ := reached.tables .adCrowdLink nofun
        cases Option.some_inj.mp formed
        rw [equal, if_pos rfl]

end Step

/-! ## All edits -/

section Run

variable {edit : Edit} {edits : List Edit} {world : World}

/-- The edits of a plan that returned. -/
abbrev returned (edits : List Edit) (world : World) : List Edit :=
  doneRequests Edit.run edits world

/-- The rows after some edits are those of the last one, except for the crowds,
which are those of all, and for the links to external urls and the approval,
to which earlier edits may have added or withdrawn something. -/
structure FromLast (old : Rows) (history : List Edit) (rows : Rows) :
    Prop where
  adInstance : rows.adInstance =
    history.getLast?.elim old.adInstance Edit.adInstance
  ad3statCodeTemp : rows.ad3statCodeTemp = old.ad3statCodeTemp
  linkType : rows.plan.linkType =
    history.getLast?.elim old.plan.linkType fun last =>
      (AdPlanManage.updateAdInstance last.form.adDto old.plan).linkType
  formed : ∀ edit ∈ history,
    (submittedLinks edit.env edit.form).isSome = true
  adMLinks : rows.plan.adMLinks =
    history.getLast?.elim old.plan.adMLinks Edit.adMLinks
  adExtLinks : rows.plan.adExtLinks =
    history.foldl (fun links edit => edit.adExtLinks links)
      old.plan.adExtLinks
  approval : WithdrawnOnce history old.plan rows.plan
  tables : ∀ table, table ≠ .adplanKeyword → table ≠ .adCrowdLink →
    history.getLast?.elim (rows.tables table = old.tables table) fun last =>
      submitted last.env last.form table = some (rows.tables table)
  adplanKeyword : ∀ row ∈ rows.tables .adplanKeyword,
    row ∈ history.getLast?.elim (old.tables .adplanKeyword) Edit.keywordRows
  adCrowdLink : rows.tables .adCrowdLink =
    old.tables .adCrowdLink ++
      history.flatMap fun edit => adCrowdLinks edit.env edit.form

/-- One more edit that has stored its rows. -/
theorem FromLast.concat {old rows after : Rows} {history : List Edit}
    (before : FromLast old history rows) (stored : Stored edit rows after) :
    FromLast old (history ++ [edit]) after := by
  constructor
  case adInstance =>
    rw [List.getLast?_concat]
    exact stored.adInstance
  case ad3statCodeTemp =>
    exact stored.ad3statCodeTemp.trans before.ad3statCodeTemp
  case linkType =>
    rw [List.getLast?_concat]
    exact stored.linkType
  case formed =>
    rw [List.forall_mem_append, List.forall_mem_singleton]
    exact ⟨before.formed, stored.formed⟩
  case adMLinks =>
    rw [List.getLast?_concat]
    exact stored.adMLinks
  case adExtLinks =>
    rw [List.foldl_concat, ← before.adExtLinks]
    exact stored.adExtLinks
  case approval => exact before.approval.concat stored.approval
  case tables =>
    rw [List.getLast?_concat]
    exact stored.tables
  case adplanKeyword =>
    rw [List.getLast?_concat]
    exact stored.adplanKeyword
  case adCrowdLink =>
    rw [stored.adCrowdLink, before.adCrowdLink, List.flatMap_append,
      List.flatMap_singleton, List.append_assoc]

/-- The tables that are read below hold the rows of the last edit that
returned. -/
theorem submitted_last (last : (returned edits world).getLast? = some edit) :
    ∀ table, table ≠ .adplanKeyword → table ≠ .adCrowdLink →
      submitted edit.env edit.form table =
        some ((runRequests Edit.run edits world).rows.tables table) := by
  suffices kept : ∀ edit ∈ (returned edits world).getLast?,
      ∀ table, table ≠ .adplanKeyword → table ≠ .adCrowdLink →
        submitted edit.env edit.form table =
          some ((runRequests Edit.run edits world).rows.tables table) from
    kept edit last
  apply @runRequests_holds World Edit world Edit.run edits
    fun history after => ∀ edit ∈ history.getLast?,
      ∀ table, table ≠ .adplanKeyword → table ≠ .adCrowdLink →
        submitted edit.env edit.form table = some (after.rows.tables table)
  case done =>
    intro history edit after before done other same
    rw [List.getLast?_concat, Option.mem_some_iff] at same
    rw [← same]
    exact (stored_of_done done).tables
  case refused =>
    intro history edit after before refused
    rw [rows_of_refused refused]
    exact before
  case start => exact fun edit none => nomatch none

end Run

/-! ## What the ad server reads -/

/-- The column `url` where `match_type` is one of the two, and `site_type`
too if it is asked for. -/
def siteUrl (matchType : JavaString) (siteType : Option JavaString) :
    Row → Option JavaString
  | [some url, some type, _, _, site] =>
      if type = matchType ∧ (siteType = none ∨ site = siteType) then some url
      else none
  | _ => none

/-- The column `ip` of one `type`. -/
def targetIp (type : JavaString) : Row → Option JavaString
  | [some ip, _, some other] => if other = type then some ip else none
  | _ => none

/-- The column `region_name`. -/
def targetRegion : Row → Option JavaString
  | [_, some regionName, _] => some regionName
  | _ => none

/-- The column `ad_device_id`. -/
def targetDevice : Row → Option JavaString
  | [some adDeviceId] => some adDeviceId
  | _ => none

/-- The queries for a plan find its rows, in whatever order. -/
structure Reads (rows : Rows) (db : Database) (adId : JavaString) : Prop where
  getTimeFilterByAdId : (db.getTimeFilterByAdId adId).Perm
    ((rows.tables .adTimeFilter).filterMap timeFilter)
  getSiteUrlByAdId : (db.getSiteUrlByAdId adId).Perm
    ((rows.tables .adSite).filterMap (siteUrl (text "R") (some (text "+"))))
  getNegSiteUrlByAdId : (db.getNegSiteUrlByAdId adId).Perm
    ((rows.tables .adSite).filterMap (siteUrl (text "R") (some (text "-"))))
  getUrlByAdId : (db.getUrlByAdId adId).Perm
    ((rows.tables .adSite).filterMap (siteUrl (text "F") none))
  getPosTargetIpByAdId : ∀ ip, ip ∈ db.getPosTargetIpByAdId adId ↔
    ip ∈ (rows.tables .adIpTargeting).filterMap (targetIp (text "+"))
  getNegTargetIpByAdId : ∀ ip, ip ∈ db.getNegTargetIpByAdId adId ↔
    ip ∈ (rows.tables .adIpTargeting).filterMap (targetIp (text "-"))
  getRegionTargetByAdId : ∀ name, name ∈ db.getRegionTargetByAdId adId ↔
    name ∈ (rows.tables .adRegionLink).filterMap targetRegion
  getAdDeviceLinks : (db.getAdDeviceLinks adId).Perm
    ((rows.tables .adDeviceLink).filterMap targetDevice)

/-- A database in which every plan has the rows. -/
def databaseWith (rows : Rows) (db : Database) : Database :=
  { db with
    getTimeFilterByAdId := fun _ =>
      (rows.tables .adTimeFilter).filterMap timeFilter
    getSiteUrlByAdId := fun _ =>
      (rows.tables .adSite).filterMap (siteUrl (text "R") (some (text "+")))
    getNegSiteUrlByAdId := fun _ =>
      (rows.tables .adSite).filterMap (siteUrl (text "R") (some (text "-")))
    getUrlByAdId := fun _ =>
      (rows.tables .adSite).filterMap (siteUrl (text "F") none)
    getPosTargetIpByAdId := fun _ =>
      (rows.tables .adIpTargeting).filterMap (targetIp (text "+"))
    getNegTargetIpByAdId := fun _ =>
      (rows.tables .adIpTargeting).filterMap (targetIp (text "-"))
    getRegionTargetByAdId := fun _ =>
      (rows.tables .adRegionLink).filterMap targetRegion
    getAdDeviceLinks := fun _ =>
      (rows.tables .adDeviceLink).filterMap targetDevice }

theorem reads_databaseWith (rows : Rows) (db : Database) (adId : JavaString) :
    Reads rows (databaseWith rows db) adId where
  getTimeFilterByAdId := .refl _
  getSiteUrlByAdId := .refl _
  getNegSiteUrlByAdId := .refl _
  getUrlByAdId := .refl _
  getPosTargetIpByAdId _ := .rfl
  getNegTargetIpByAdId _ := .rfl
  getRegionTargetByAdId _ := .rfl
  getAdDeviceLinks := .refl _

/-! ## What the form asks for -/

section Form

variable (edit : Edit)

/-- The line is a url and not a part of one. -/
def Edit.isUrl (line : JavaString) : Bool :=
  containsText (edit.env.platform.lowerCase line) (text "http://")

/-- The lines of the white list. -/
def Edit.whiteSites : List JavaString :=
  lines edit.env edit.form.whiteAdSites

/-- The lines of the black list. -/
def Edit.blackSites : List JavaString :=
  lines edit.env edit.form.blackAdSites

/-- The hosts of a list. -/
def Edit.hosts (list : List JavaString) : List JavaString :=
  list.filter fun line => !edit.isUrl line

/-- The urls of both lists. -/
def Edit.urls : List JavaString :=
  (edit.whiteSites ++ edit.blackSites).filter edit.isUrl

/-- The wanted addresses. -/
def Edit.whiteIps : List JavaString :=
  lines edit.env edit.form.whiteIps

/-- The unwanted addresses. -/
def Edit.blackIps : List JavaString :=
  lines edit.env edit.form.blackIps

/-- The names of the regions. -/
def Edit.regions : List JavaString :=
  (parts edit.env ',' edit.form.regionCodes).map (regionName edit.env)

/-- The devices. -/
def Edit.devices : List JavaString :=
  parts edit.env ',' edit.form.adDeviceIds

/-- The queries give what the form of an edit asks for. -/
structure AsksFor (db : Database) (adId : JavaString) : Prop where
  sites : (db.getSiteUrlByAdId adId).Perm (edit.hosts edit.whiteSites)
  negSites : (db.getNegSiteUrlByAdId adId).Perm (edit.hosts edit.blackSites)
  urls : (db.getUrlByAdId adId).Perm edit.urls
  posIps : ∀ ip, ip ∈ db.getPosTargetIpByAdId adId ↔ ip ∈ edit.whiteIps
  negIps : ∀ ip, ip ∈ db.getNegTargetIpByAdId adId ↔ ip ∈ edit.blackIps
  regions : ∀ name, name ∈ db.getRegionTargetByAdId adId ↔
    name ∈ edit.regions
  devices : (db.getAdDeviceLinks adId).Perm edit.devices

end Form

section Queries

variable {edit : Edit} {rows : Rows} {db : Database} {adId : JavaString}

/-- A query for the rows that a helper made of values. -/
theorem filterMap_map {α β : Type*} {values : List α} {row : α → Row}
    {column : Row → Option β} {kept : α → Option β}
    (each : ∀ value, column (row value) = kept value) :
    (values.map row).filterMap column = values.filterMap kept := by
  rw [List.filterMap_map]
  exact congrArg (List.filterMap · values) (funext each)

theorem siteUrl_adSites {siteType : JavaString} {wanted : Option JavaString}
    {matching : JavaString} (list : JavaString) :
    (adSites edit.env siteType list).filterMap (siteUrl matching wanted) =
      if wanted = none ∨ some siteType = wanted then
        (lines edit.env list).filter fun line =>
          matchType edit.env line = matching
      else [] := by
  have each : ∀ line, siteUrl matching wanted
      [some line, some (matchType edit.env line), some edit.env.ctStr,
        some (text "A"), some siteType] =
      if matchType edit.env line = matching ∧
          (wanted = none ∨ some siteType = wanted) then some line
      else none := fun line => rfl
  rw [adSites, filterMap_map each]
  split_ifs with asked
  · simp only [asked, and_true]
    rw [← List.filterMap_eq_filter]
    refine congrArg (List.filterMap · _) (funext fun line => ?_)
    simp [Option.guard]
  · simp only [asked, and_false, if_false]
    exact List.filterMap_none _

theorem siteUrl_backUrlSites {matching : JavaString}
    {wanted : Option JavaString} (other : text "A" ≠ matching) :
    (backUrlSites edit.env edit.form).filterMap (siteUrl matching wanted) =
      [] := by
  have each : ∀ line, siteUrl matching wanted
      [some line, some (text "A"), some edit.env.ctStr, some (text "A"),
        none] = none := fun line => if_neg fun both => other both.1
  rw [backUrlSites, filterMap_map each]
  exact List.filterMap_none _

theorem matchType_eq_F (line : JavaString) :
    decide (matchType edit.env line = text "F") = edit.isUrl line := by
  rw [matchType, Edit.isUrl]
  cases containsText (edit.env.platform.lowerCase line) (text "http://") <;>
    decide

theorem matchType_eq_R (line : JavaString) :
    decide (matchType edit.env line = text "R") = !edit.isUrl line := by
  rw [matchType, Edit.isUrl]
  cases containsText (edit.env.platform.lowerCase line) (text "http://") <;>
    decide

theorem siteUrl_submitted {matching : JavaString}
    {wanted : Option JavaString} (other : text "A" ≠ matching)
    (stored : submitted edit.env edit.form .adSite =
      some (rows.tables .adSite)) :
    (rows.tables .adSite).filterMap (siteUrl matching wanted) =
      ((if wanted = none ∨ some (text "+") = wanted then edit.whiteSites
        else []) ++
        if wanted = none ∨ some (text "-") = wanted then edit.blackSites
        else []).filter fun line => matchType edit.env line = matching := by
  rw [submitted] at stored
  rw [← Option.some.inj stored, List.filterMap_append, List.filterMap_append,
    siteUrl_adSites, siteUrl_adSites, siteUrl_backUrlSites other,
    List.append_nil, List.filter_append]
  congr 1 <;> split_ifs <;> rfl

theorem targetIp_submitted {type : JavaString}
    (stored : submitted edit.env edit.form .adIpTargeting =
      some (rows.tables .adIpTargeting)) :
    (rows.tables .adIpTargeting).filterMap (targetIp type) =
      (if text "+" = type then edit.whiteIps else []) ++
        if text "-" = type then edit.blackIps else [] := by
  have each : ∀ (own : JavaString) ip, targetIp type
      [some ip, some edit.env.ctStr, some own] =
      if own = type then some ip else none := fun _ _ => rfl
  rw [submitted] at stored
  rw [← Option.some.inj stored, List.filterMap_append, adIpTargetings,
    adIpTargetings, filterMap_map (each _), filterMap_map (each _)]
  congr 1 <;> split_ifs <;> simp [Edit.whiteIps, Edit.blackIps]

/-- The queries for the rows of an edit give what its form asks for. -/
theorem asksFor_of_submitted (reads : Reads rows db adId)
    (stored : ∀ table, table ≠ .adplanKeyword → table ≠ .adCrowdLink →
      submitted edit.env edit.form table = some (rows.tables table)) :
    AsksFor edit db adId := by
  have sites := stored .adSite nofun nofun
  have ips := stored .adIpTargeting nofun nofun
  constructor
  case sites =>
    refine reads.getSiteUrlByAdId.trans (.of_eq ?_)
    rw [siteUrl_submitted (by decide) sites, if_pos (by decide),
      if_neg (by decide), List.append_nil]
    exact congrArg (List.filter · _) (funext matchType_eq_R)
  case negSites =>
    refine reads.getNegSiteUrlByAdId.trans (.of_eq ?_)
    rw [siteUrl_submitted (by decide) sites, if_neg (by decide),
      if_pos (by decide), List.nil_append]
    exact congrArg (List.filter · _) (funext matchType_eq_R)
  case urls =>
    refine reads.getUrlByAdId.trans (.of_eq ?_)
    rw [siteUrl_submitted (by decide) sites, if_pos (.inl rfl),
      if_pos (.inl rfl)]
    exact congrArg (List.filter · _) (funext matchType_eq_F)
  case posIps =>
    intro ip
    rw [reads.getPosTargetIpByAdId, targetIp_submitted ips, if_pos rfl,
      if_neg (by decide), List.append_nil]
  case negIps =>
    intro ip
    rw [reads.getNegTargetIpByAdId, targetIp_submitted ips,
      if_neg (by decide), if_pos rfl, List.nil_append]
  case regions =>
    intro name
    have same := Option.some.inj (stored .adRegionLink nofun nofun)
    have each : ∀ code, targetRegion
        [some code, some (regionName edit.env code), some edit.env.ctStr] =
        (some ∘ regionName edit.env) code := fun code => rfl
    rw [reads.getRegionTargetByAdId, ← same, adRegionLinks,
      filterMap_map each, List.filterMap_eq_map, Edit.regions]
  case devices =>
    refine reads.getAdDeviceLinks.trans (.of_eq ?_)
    have same := Option.some.inj (stored .adDeviceLink nofun nofun)
    have each : ∀ device, targetDevice [some device] = some device :=
      fun device => rfl
    rw [← same, adDeviceLinks, filterMap_map each, List.filterMap_some,
      Edit.devices]

end Queries

/-! ## An edit with a url in the black list -/

/-- Office hours on work days. -/
def officePage : Page :=
  ⟨⟨true, some ⟨9, by decide⟩, some ⟨18, by decide⟩⟩, .fresh⟩

/-- The edit of the page, with a url in the black list. -/
def officeEdit : Edit where
  env := oneUser
  form :=
    { keywordForm "a" with
      putHours := (getTime officePage).1
      whiteAdSites := []
      blackAdSites := text "http://www.example.com/a"
      whiteIps := text "10.0.0.1" }
  fails _ := false

/-- The instance of the advertisement. -/
def officeInstance : AdInstance :=
  ⟨text "1", text "ad", text "1", text "0", text "M", text "1"⟩

/-- The rows after the edit. -/
def officeRows : Rows :=
  (runRequests Edit.run [officeEdit] oldWorld).rows

theorem getLast?_returned_officeEdit :
    (returned [officeEdit] oldWorld).getLast? = some officeEdit := by
  have done : (officeEdit.run oldWorld).1 = true := by decide +kernel
  rw [returned, doneRequests, if_pos done]
  rfl

/-! ## What the filters decide -/

section Filters

variable {edit : Edit} {edits : List Edit} {world : World} {rows : Rows}
  {db : Database} {instance_ : AdInstance} {call : Request}
  {host : JavaString} {domain : Option JavaString}

/-- What the filters of the ad server decide for an edit.  The hosts of the
black list are not looked at, and its urls are wanted ones. -/
structure Decides (edit : Edit) (call : Request) (advPlan : AdvPlan)
    (host : JavaString) (domain : Option JavaString) : Prop where
  siteUrl : doFilter call.platform advPlan call.element =
    some (decide (edit.hosts edit.whiteSites = [] ∧ edit.urls = [] ∨
      host ∈ edit.hosts edit.whiteSites ∨ call.element.ref ∈ edit.urls))
  site : adSiteFilter call.platform advPlan call.element =
    some (decide (edit.hosts edit.whiteSites = []) ||
      onSites (edit.hosts edit.whiteSites) host domain &&
        !onSites (edit.hosts edit.blackSites) host domain)
  posIp : ipPosTargetFilter call.platform advPlan call.element =
    decide (edit.whiteIps = [] ∨
      isNotBlank call.platform call.element.ip = true ∧
        call.element.ip ∈ edit.whiteIps)
  negIp : ipNegTargetFilter call.platform advPlan call.element =
    decide (edit.blackIps = [] ∨
      isNotBlank call.platform call.element.ip = true ∧
        call.element.ip ∉ edit.blackIps)
  region : regionFilter call.platform advPlan call.element =
    decide (edit.regions = [] ∨
      isNotBlank call.platform call.element.region = true ∧
        call.element.region ∈ edit.regions)
  device : deviceFilter call.platform advPlan call.element =
    decide (edit.devices = [] ∨
      isNotBlank call.platform call.element.userAgent = true ∧
        deviceCode call.platform call.element.userAgent ∈ edit.devices)

theorem isFilter_eq {α : Type*} {list other : List α}
    (same : ∀ element, element ∈ list ↔ element ∈ other) :
    isFilter list = !decide (other = []) := by
  have empty : list = [] ↔ other = [] := by
    rw [List.eq_nil_iff_forall_not_mem, List.eq_nil_iff_forall_not_mem]
    exact forall_congr' fun element => not_congr (same element)
  rw [isFilter, Bool.eq_iff_iff]
  simp [empty]

theorem contains_eq {list other : List JavaString} (value : JavaString)
    (same : ∀ element, element ∈ list ↔ element ∈ other) :
    list.contains value = decide (value ∈ other) := by
  rw [Bool.eq_iff_iff, List.contains_iff_mem, decide_eq_true_iff]
  exact same value

theorem targetFilter_eq {platform : Platform} {targets other : List JavaString}
    (value : JavaString)
    (same : ∀ element, element ∈ targets ↔ element ∈ other) :
    targetFilter platform targets value =
      decide (other = [] ∨ isNotBlank platform value = true ∧
        value ∈ other) := by
  rw [targetFilter, isFilter_eq same, contains_eq value same]
  simp

theorem onSites_congr {list other : List JavaString}
    (same : ∀ element, element ∈ list ↔ element ∈ other) :
    onSites list host domain = onSites other host domain := by
  rw [onSites, onSites, contains_eq host same, List.contains_eq_mem]
  cases domain with
  | none => rfl
  | some domain =>
      rw [containsDomain, containsDomain, contains_eq domain same,
        List.contains_eq_mem]

theorem decides_of_asksFor (asks : AsksFor edit db instance_.adId)
    (page : PageUrl call host domain) :
    Decides edit call (advPlanOf db instance_) host domain := by
  have sites := fun url => @List.Perm.mem_iff _ url _ _ asks.sites
  have negSites := fun url => @List.Perm.mem_iff _ url _ _ asks.negSites
  have urls := fun url => @List.Perm.mem_iff _ url _ _ asks.urls
  have devices := fun code => @List.Perm.mem_iff _ code _ _ asks.devices
  constructor
  case siteUrl =>
    rw [doFilter, adSiteUrlFilter_eq page, AdvPlan.isSiteFilter,
      AdvPlan.isUrlFilter, advPlanOf, isFilter_eq sites, isFilter_eq urls,
      contains_eq host sites, contains_eq call.element.ref urls]
    simp [Bool.or_assoc]
  case site =>
    rw [adSiteFilter_eq page, AdvPlan.isSiteFilter, onNegSites,
      AdvPlan.isNegSiteFilter, advPlanOf, isFilter_eq sites,
      isFilter_eq negSites, onSites_congr sites, onSites_congr negSites]
    by_cases none : edit.hosts edit.blackSites = []
    · rw [none]
      cases domain <;> simp [onSites, containsDomain]
    · simp [none]
  case posIp => exact targetFilter_eq call.element.ip asks.posIps
  case negIp =>
    rw [ipNegTargetFilter, AdvPlan.isNegIpTargetFilter, advPlanOf,
      isFilter_eq asks.negIps, contains_eq call.element.ip asks.negIps]
    simp
  case region => exact targetFilter_eq call.element.region asks.regions
  case device =>
    rw [deviceFilter, AdvPlan.isAdDeviceTarget, advPlanOf,
      isFilter_eq devices, contains_eq _ devices]
    simp

/-- After any edits the filters of the ad server decide by the form of the
last edit that returned. -/
theorem filters_edits
    (last : (returned edits world).getLast? = some edit)
    (reads : Reads (runRequests Edit.run edits world).rows db instance_.adId)
    (page : PageUrl call host domain) :
    Decides edit call (advPlanOf db instance_) host domain :=
  decides_of_asksFor (asksFor_of_submitted reads (submitted_last last))
    page

/-- The plan passes on the page of the black list. -/
theorem filters_edits_black :
    Decides officeEdit (sampleCall (sampleElement "" ""))
        (advPlanOf (databaseWith officeRows singleDatabase) officeInstance)
        (text "www.example.com") (some (text "example.com")) ∧
      (sampleElement "" "").ref ∈ officeEdit.blackSites ∧
      officeEdit.whiteSites = [] ∧
      (sampleElement "" "").ref ∈ officeEdit.urls :=
  ⟨filters_edits getLast?_returned_officeEdit
      (reads_databaseWith officeRows singleDatabase officeInstance.adId)
      pageUrl_sampleElement,
    by decide +kernel, by decide +kernel, by decide +kernel⟩

end Filters

/-! ## The hours -/

section Hours

variable {edit : Edit} {edits : List Edit} {world : World} {page : Page}
  {schedule : Schedule} {db : Database} {instance_ : AdInstance}
  {readings : Readings} {advPlan : AdvPlan}

/-- The schedule shows the plan at an hour of a day; Sunday is the day 1. -/
def Shows (schedule : Schedule) (dayOfWeek : Nat) (hourOfDay : Int) : Prop :=
  schedule.workDays = none ∧ schedule.weekends = none ∨
    ∃ hours ∈ if dayOfWeek = 1 ∨ dayOfWeek = 7 then schedule.weekends
        else schedule.workDays,
      (hours.first.val : Int) ≤ hourOfDay ∧ hourOfDay ≤ hours.last.val

theorem containsText_days {dayOfWeek : Nat} (first : 1 ≤ dayOfWeek)
    (last : dayOfWeek ≤ 7) :
    containsText (text "2,3,4,5,6") (Nat.toDigits 10 dayOfWeek) =
        decide (¬ (dayOfWeek = 1 ∨ dayOfWeek = 7)) ∧
      containsText (text "1,7") (Nat.toDigits 10 dayOfWeek) =
        decide (dayOfWeek = 1 ∨ dayOfWeek = 7) := by
  interval_cases dayOfWeek <;> decide

theorem any_timeFilter (days day : JavaString) (hours : Option Hours)
    (hourOfDay : Int) :
    ((hours.toList.map (Hours.timeFilter days)).any fun adPutTime =>
        containsText adPutTime.daysOfWeek day &&
          adPutTime.startHour ≤ hourOfDay &&
          hourOfDay ≤ adPutTime.endHour) = true ↔
      containsText days day = true ∧ ∃ chosen ∈ hours,
        (chosen.first.val : Int) ≤ hourOfDay ∧
          hourOfDay ≤ chosen.last.val := by
  cases hours with
  | none => simp
  | some hours => simp [Hours.timeFilter, and_assoc]

/-- The filter of the hours shows the plan when its schedule does. -/
theorem putAdTimeFilter_iff
    (found : advPlan.adTimeFilters.Perm schedule.timeFilters)
    (first : 1 ≤ readings.dayOfWeek advPlan.advId)
    (last : readings.dayOfWeek advPlan.advId ≤ 7) :
    putAdTimeFilter readings advPlan = true ↔
      Shows schedule (readings.dayOfWeek advPlan.advId)
        (readings.hourOfDay advPlan.advId) := by
  have same := fun time => @List.Perm.mem_iff _ time _ _ found
  obtain ⟨work, weekend⟩ := containsText_days first last
  rw [putAdTimeFilter, AdvPlan.isPutTimeFilter, isFilter_eq same, Shows]
  generalize readings.dayOfWeek advPlan.advId = dayOfWeek at work weekend ⊢
  generalize readings.hourOfDay advPlan.advId = hourOfDay
  rw [Bool.or_eq_true, List.any_eq_true]
  refine or_congr ?_ ?_
  · obtain ⟨_ | workHours, _ | weekendHours⟩ := schedule <;>
      simp [Schedule.timeFilters]
  · rw [← List.any_eq_true, found.any_eq, Schedule.timeFilters,
      List.any_append, Bool.or_eq_true, any_timeFilter, any_timeFilter, work,
      weekend]
    by_cases isWeekend : dayOfWeek = 1 ∨ dayOfWeek = 7
    · simp [isWeekend]
    · simp [isWeekend]

/-- The objects of the rows are those of the schedule of the page. -/
theorem timeFilters_last
    (last : (returned edits world).getLast? = some edit)
    (latin : Latin edit.env.platform)
    (sent : edit.form.putHours = (getTime page).1) :
    ∃ schedule, page.schedule = some schedule ∧
      ((runRequests Edit.run edits world).rows.tables
        .adTimeFilter).filterMap timeFilter = schedule.timeFilters := by
  have stored := submitted_last last .adTimeFilter nofun nofun
  rw [adTimeFilters_getTime latin sent] at stored
  obtain ⟨schedule, chosen, rows⟩ := Option.map_eq_some_iff.mp stored
  exact ⟨schedule, chosen, by rw [← rows, timeFilter_rows]⟩

/-- After any edits the plan is shown in the hours that the page of the last
edit that returned had. -/
theorem putAdTimeFilter_edits
    (last : (returned edits world).getLast? = some edit)
    (latin : Latin edit.env.platform)
    (sent : edit.form.putHours = (getTime page).1)
    (reads : Reads (runRequests Edit.run edits world).rows db instance_.adId)
    (sunday : 1 ≤ readings.dayOfWeek instance_.adId)
    (saturday : readings.dayOfWeek instance_.adId ≤ 7) :
    ∃ schedule, page.schedule = some schedule ∧
      (putAdTimeFilter readings (advPlanOf db instance_) = true ↔
        Shows schedule (readings.dayOfWeek instance_.adId)
          (readings.hourOfDay instance_.adId)) := by
  obtain ⟨schedule, chosen, times⟩ := timeFilters_last last latin sent
  have found := reads.getTimeFilterByAdId
  rw [times] at found
  exact ⟨schedule, chosen, putAdTimeFilter_iff found sunday saturday⟩

/-- On Monday at noon the plan is shown in office hours. -/
theorem putAdTimeFilter_edits_office :
    ∃ schedule, officePage.schedule = some schedule ∧
      (putAdTimeFilter sampleReadings
          (advPlanOf (databaseWith officeRows singleDatabase)
            officeInstance) = true ↔
        Shows schedule 2 12) :=
  putAdTimeFilter_edits getLast?_returned_officeEdit latin_asciiPlatform rfl
    (reads_databaseWith officeRows singleDatabase officeInstance.adId)
    (by decide) (by decide)

/-- After any edits the page is filled with the hours of the last edit that
returned, and sends them again. -/
theorem renderHours_edits {found : List AdTimeFilter}
    (last : (returned edits world).getLast? = some edit)
    (latin : Latin edit.env.platform)
    (sent : edit.form.putHours = (getTime page).1)
    (read : found.Perm
      (((runRequests Edit.run edits world).rows.tables
        .adTimeFilter).filterMap timeFilter)) :
    ∃ schedule, page.schedule = some schedule ∧
      renderHours (putHours found) .fresh = .ok schedule.page ∧
      ∀ (env : Environment) (form : Form), Latin env.platform →
        form.putHours = (getTime schedule.page).1 →
          submitted env form .adTimeFilter =
            some (schedule.rows env.ctStr) := by
  obtain ⟨schedule, chosen, times⟩ := timeFilters_last last latin sent
  rw [times] at read
  refine ⟨schedule, chosen, renderHours_putHours read, ?_⟩
  intro env form latin sent
  rw [adTimeFilters_getTime latin sent, schedule_page, Option.map_some]

/-- The page is filled with the office hours. -/
theorem renderHours_edits_office :
    ∃ schedule, officePage.schedule = some schedule ∧
      renderHours
          (putHours ((officeRows.tables .adTimeFilter).filterMap timeFilter))
          .fresh = .ok schedule.page ∧
      ∀ (env : Environment) (form : Form), Latin env.platform →
        form.putHours = (getTime schedule.page).1 →
          submitted env form .adTimeFilter =
            some (schedule.rows env.ctStr) :=
  renderHours_edits getLast?_returned_officeEdit latin_asciiPlatform rfl
    (.refl _)

end Hours

end WindowSystem.Admanager.PlanTargeting
