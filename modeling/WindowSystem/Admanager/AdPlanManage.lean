import Mathlib.Data.Finset.Lattice.Lemmas
import WindowSystem.Library.LabelledRun
import WindowSystem.Library.MissingResult
import WindowSystem.Sspserver.JavaRuntime

/-!
# A changed creative needs a new approval

An advertisement shows materials, an external url, or JavaScript.  When its
owner edits it, `checkAdUrl` of `AdPlanManageServiceImpl` compares what is
submitted with what is stored, and `editAdPlan` withdraws the approval when
something has changed.  This module follows the statements of `editAdPlan`
that read or write the creative, its state and its check processes; when
another statement throws, everything is rolled back and nothing happens.
-/

namespace WindowSystem.Admanager.AdPlanManage

open WindowSystem.Library.LabelledRun
open WindowSystem.Library.MissingResult
open WindowSystem.Sspserver.JavaRuntime

/-! ## The rows of an advertisement -/

/-- `link_type`: materials, an external url, and two kinds of JavaScript. -/
inductive LinkType where
  | M
  | E
  | J
  | L
deriving DecidableEq

/-- The `linkType` of the form. -/
inductive FormLinkType where
  | M
  | E
  | J
deriving DecidableEq

/-- The `jsType` of the form. -/
inductive JsType where
  | J
  | L
deriving DecidableEq

/-- The type of the user, `2` or `3`: each has a table of check processes. -/
inductive UserType where
  | normal
  | t
deriving DecidableEq

/-- A row of `ad_m_link`. -/
structure AdMLink where
  adMId : Int
  checkStatus : Option JavaString
  comment : Option JavaString
deriving DecidableEq

/-- A row of `ad_ext_link`. -/
structure AdExtLink where
  throwUrl : Option JavaString
  picSize : Option JavaString
  width : Option JavaString
  height : Option JavaString
deriving DecidableEq

/-- A row of `map_kv`. -/
structure MapKv where
  attrValue : JavaString
  width : JavaString
  height : JavaString

/-- The rows of an advertisement, with the numbers of its check processes. -/
structure Plan where
  linkType : LinkType
  adToufangSts : Int
  adMLinks : List AdMLink
  adExtLinks : List AdExtLink
  adCheckProcess : UserType → List Nat

/-- `AdPlanManageInfoDto` -/
structure AdPlanManageInfoDto where
  linkType : FormLinkType
  jsType : JsType
  adMaterialIds : Option JavaString
  adExtLink : Option AdExtLink
  jsContent : Option JavaString
  jsSize : Option JavaString

/-- The rows of `ad_m_link` in the order in which `getAdMaterialsByAdId`
returns them, and what `findAdMLinkDtoByAdId` returns. -/
structure Returned where
  adMLinkList : List AdMLink
  links : List AdMLink

/-! ## `checkAdUrl` -/

/-- The stored type as it is compared. -/
def LinkType.compared : LinkType → FormLinkType
  | .M => .M
  | .E => .E
  | .J => .J
  | .L => .J

/-- The inner loop: the numbers are read until one is that of the stored
material. -/
def innerLoop (platform : Platform) (adMId : Int) :
    List JavaString → Bool → Option Bool
  | [], flag => some flag
  | part :: adMIds, _ =>
      (parseInt platform part).bind fun number =>
        if adMId = number then some false
        else innerLoop platform adMId adMIds true

/-- The outer loop. -/
def outerLoop (platform : Platform) (adMIds : List JavaString) :
    List AdMLink → Bool → Option Bool
  | [], flag => some flag
  | adMLink :: adMLinkList, flag =>
      (innerLoop platform adMLink.adMId adMIds flag).bind
        (outerLoop platform adMIds adMLinkList)

/-- `findAdExtLinkByAdId`; without a single row there is an exception, here or
in the call that follows. -/
def Plan.findAdExtLinkByAdId (plan : Plan) : Option AdExtLink :=
  match plan.adExtLinks with
  | [adExtLink] => some adExtLink
  | _ => none

/-- `checkAdUrl` -/
def checkAdUrl (platform : Platform) (adMLinkList : List AdMLink)
    (adDto : AdPlanManageInfoDto) (plan : Plan) : Option Bool :=
  if plan.linkType.compared = adDto.linkType then
    match adDto.linkType with
    | .M =>
        adDto.adMaterialIds.bind fun adMaterialIds =>
          let adMIds := split ',' adMaterialIds
          if adMIds.length ≠ adMLinkList.length then some true
          else outerLoop platform adMIds adMLinkList false
    | .E =>
        plan.findAdExtLinkByAdId.bind fun adExtLink =>
        adDto.adExtLink.bind fun adExtLinkDto =>
        adExtLink.throwUrl.map fun throwUrl =>
          decide (some throwUrl ≠ adExtLinkDto.throwUrl)
    | .J =>
        plan.findAdExtLinkByAdId.bind fun adExtLink =>
        adExtLink.throwUrl.map fun throwUrl =>
          decide (some throwUrl ≠ adDto.jsContent)
  else some true

/-! ## `editAdPlan` -/

/-- `updateAdInstance`, as far as the creative is concerned. -/
def updateAdInstance (adDto : AdPlanManageInfoDto) (plan : Plan) : Plan :=
  { plan with
    linkType :=
      match adDto.linkType, adDto.jsType with
      | .M, _ => .M
      | .E, _ => .E
      | .J, .J => .J
      | .J, .L => .L }

/-- `delAdMaterialLinks` -/
def delAdMaterialLinks (plan : Plan) : Plan :=
  { plan with adMLinks := [] }

/-- `deleteAdExtLinkByAdId` -/
def deleteAdExtLinkByAdId (plan : Plan) : Plan :=
  { plan with adExtLinks := [] }

/-- `String.valueOf` -/
def valueOf (number : Int) : JavaString :=
  text (toString number)

/-- The row that `addPlanMaterial` inserts for a part of the list.  The column
takes the number that `parseInt` reads, or the statement fails. -/
def materialLink (platform : Platform) (links : List AdMLink)
    (adMaterialId : JavaString) : Option AdMLink :=
  (parseInt platform adMaterialId).map fun adMId =>
    match (links.filter fun link => adMaterialId = valueOf link.adMId).getLast?
    with
    | none => ⟨adMId, none, none⟩
    | some link => { link with adMId := adMId }

/-- `addPlanMaterial` -/
def addPlanMaterial (platform : Platform) (links : List AdMLink)
    (adDto : AdPlanManageInfoDto) (plan : Plan) : Option Plan :=
  let adMaterialIds := adDto.adMaterialIds.getD []
  if isNotBlank platform adMaterialIds then
    ((split ',' adMaterialIds).mapM (materialLink platform links)).map
      fun rows => { plan with adMLinks := plan.adMLinks ++ rows }
  else some plan

/-- The row that `addAdExtLink` inserts for a form that is not one of
materials. -/
def extLink (mapKv : JavaString → Option MapKv)
    (adDto : AdPlanManageInfoDto) (adExtLink : AdExtLink) :
    Option AdExtLink :=
  let script := adDto.linkType = .J
  let picSize := if script then adDto.jsSize else adExtLink.picSize
  let throwUrl := if script then some [] else adExtLink.throwUrl
  if picSize.getD [] = [] then some { adExtLink with throwUrl := throwUrl }
  else
    (picSize.bind mapKv).map fun size =>
      ⟨throwUrl, some size.attrValue, some size.width, some size.height⟩

/-- `addAdExtLink`; JavaScript is stored by a second statement. -/
def addAdExtLink (mapKv : JavaString → Option MapKv)
    (adDto : AdPlanManageInfoDto) (plan : Plan) : Option Plan :=
  (adDto.adExtLink.bind (extLink mapKv adDto)).map fun inserted =>
    let row :=
      if adDto.linkType = .J ∧ adDto.jsContent ≠ some [] then
        { inserted with throwUrl := adDto.jsContent }
      else inserted
    { plan with adExtLinks := plan.adExtLinks ++ [row] }

/-- The last statements, after the cache is written. -/
def withdraw (user : UserType) (flag : Bool) (plan : Plan) : Plan :=
  if flag ∧ plan.adToufangSts ≠ -1 then
    { plan with
      adToufangSts := -1
      adCheckProcess := Function.update plan.adCheckProcess user [] }
  else plan

/-- `editAdPlan` -/
def editAdPlan (platform : Platform) (mapKv : JavaString → Option MapKv)
    (user : UserType) (returned : Returned) (adDto : AdPlanManageInfoDto)
    (plan : Plan) : Option Plan :=
  (checkAdUrl platform returned.adMLinkList adDto plan).bind fun flag =>
  let emptied := deleteAdExtLinkByAdId
    (delAdMaterialLinks (updateAdInstance adDto plan))
  (if adDto.linkType = .M then
    addPlanMaterial platform returned.links adDto emptied
  else addAdExtLink mapKv adDto emptied).map (withdraw user flag)

/-! ## What is approved -/

/-- What an advertisement shows. -/
structure Creative where
  linkType : FormLinkType
  materials : Finset Int
  url : Option JavaString

theorem Creative.eq_iff (left right : Creative) :
    left.linkType = right.linkType ∧ left.materials = right.materials ∧
        left.url = right.url ↔
      left = right := by
  cases left
  cases right
  rw [Creative.mk.injEq]

instance : DecidableEq Creative := fun left right =>
  decidable_of_iff _ (Creative.eq_iff left right)

/-- The numbers of the stored materials. -/
def Plan.materials (plan : Plan) : Finset Int :=
  (plan.adMLinks.map AdMLink.adMId).toFinset

/-- The stored creative. -/
def Plan.creative (plan : Plan) : Creative :=
  match plan.linkType.compared with
  | .M => ⟨.M, plan.materials, none⟩
  | linkType =>
      ⟨linkType, ∅, plan.findAdExtLinkByAdId.bind AdExtLink.throwUrl⟩

/-- The numbers of the submitted materials, if all are numbers. -/
def AdPlanManageInfoDto.materials (adDto : AdPlanManageInfoDto)
    (platform : Platform) : Option (List Int) :=
  let adMaterialIds := adDto.adMaterialIds.getD []
  if isNotBlank platform adMaterialIds then
    (split ',' adMaterialIds).mapM (parseInt platform)
  else some []

/-- The submitted creative, if the form has one. -/
def AdPlanManageInfoDto.creative (adDto : AdPlanManageInfoDto)
    (platform : Platform) : Option Creative :=
  match adDto.linkType with
  | .M =>
      (adDto.materials platform).map fun materials =>
        ⟨.M, materials.toFinset, none⟩
  | .E => adDto.adExtLink.map fun link => ⟨.E, ∅, link.throwUrl⟩
  | .J => adDto.adExtLink.map fun _ => ⟨.J, ∅, adDto.jsContent⟩

/-- The edits that are compared rightly.  Of two lists of materials with the
same length only the last stored one is looked for, so it has to be missing
when the sets differ; lists of different lengths have to be different sets.
For a stored url there has to be one. -/
def Compares (platform : Platform) (adMLinkList : List AdMLink)
    (adDto : AdPlanManageInfoDto) (creative : Creative) (plan : Plan) :
    Prop :=
  plan.linkType.compared = adDto.linkType →
    match adDto.linkType with
    | .M =>
        ∃ adMaterialIds ∈ adDto.adMaterialIds,
          if (split ',' adMaterialIds).length = adMLinkList.length then
            isNotBlank platform adMaterialIds = true ∧
              ∀ last ∈ adMLinkList.getLast?,
                last.adMId ∈ creative.materials →
                  creative.materials = plan.materials
          else creative.materials ≠ plan.materials
    | _ => (plan.findAdExtLinkByAdId.bind AdExtLink.throwUrl).isSome = true

/-! ## The loops -/

variable {platform : Platform}

theorem innerLoop_eq {adMId : Int} {adMIds : List JavaString}
    {numbers : List Int}
    (read : adMIds.mapM (parseInt platform) = some numbers) (flag : Bool) :
    innerLoop platform adMId adMIds flag =
      some (if numbers = [] then flag else decide (adMId ∉ numbers)) := by
  induction adMIds generalizing numbers flag with
  | nil =>
      cases read
      rfl
  | cons part adMIds induction =>
      rw [List.mapM_cons] at read
      obtain ⟨number, first, read⟩ := Option.bind_eq_some_iff.mp read
      obtain ⟨others, rest, read⟩ := Option.bind_eq_some_iff.mp read
      cases read
      rw [innerLoop, first]
      by_cases same : adMId = number
      · simp [same]
      · by_cases none : others = []
        · simp [induction rest, same, none]
        · simp [induction rest, same, none]

/-- What an inner loop has found is overwritten by the next one. -/
theorem outerLoop_eq {adMIds : List JavaString} {numbers : List Int}
    (read : adMIds.mapM (parseInt platform) = some numbers)
    (some_number : numbers ≠ []) (adMLinkList : List AdMLink) (flag : Bool) :
    outerLoop platform adMIds adMLinkList flag =
      some (match adMLinkList.getLast? with
        | none => flag
        | some last => decide (last.adMId ∉ numbers)) := by
  induction adMLinkList generalizing flag with
  | nil => rfl
  | cons adMLink adMLinkList induction =>
      rw [outerLoop, innerLoop_eq read, if_neg some_number, Option.bind_some,
        induction]
      cases adMLinkList with
      | nil => rfl
      | cons second adMLinkList =>
          rw [List.getLast?_cons_cons]
          simp only [List.getLast?_cons]

/-- White space is not read as a number. -/
structure Blanks (platform : Platform) : Prop where
  digit : ∀ character, platform.isWhitespace character = true →
    platform.digit character = none
  sign : ∀ character, platform.isWhitespace character = true →
    character ∉ ['-', '+', ',']

theorem parseInt_of_isBlank (blanks : Blanks platform) {string : JavaString}
    (blank : isBlank platform string = true) :
    parseInt platform string = none := by
  cases string with
  | nil => rfl
  | cons first string =>
      rw [isBlank, List.all_cons, Bool.and_eq_true] at blank
      have sign := blanks.sign first blank.1
      simp only [List.mem_cons, List.not_mem_nil, or_false, not_or] at sign
      unfold parseInt
      split
      · rename_i same
        cases same
        exact absurd rfl sign.1
      · rename_i same
        cases same
        exact absurd rfl sign.2.1
      · rw [readNumber, if_neg (List.cons_ne_nil _ _), readDigits,
          blanks.digit first blank.1]
        rfl

theorem split_of_isBlank (blanks : Blanks platform) {string : JavaString}
    (blank : isBlank platform string = true) :
    split ',' string = [string] := by
  refine if_neg fun comma => ?_
  have white := List.all_eq_true.mp blank _ comma
  exact blanks.sign ',' white (by decide)

/-! ## The comparison -/

variable {adDto : AdPlanManageInfoDto} {creative : Creative} {plan : Plan}
  {adMLinkList : List AdMLink}

theorem creative_linkType
    (shown : adDto.creative platform = some creative) :
    creative.linkType = adDto.linkType := by
  unfold AdPlanManageInfoDto.creative at shown
  split at shown
  · rename_i linkType
    obtain ⟨materials, _, rfl⟩ := Option.map_eq_some_iff.mp shown
    exact linkType.symm
  · rename_i linkType
    obtain ⟨link, _, rfl⟩ := Option.map_eq_some_iff.mp shown
    exact linkType.symm
  · rename_i linkType
    obtain ⟨link, _, rfl⟩ := Option.map_eq_some_iff.mp shown
    exact linkType.symm

theorem plan_creative_linkType (plan : Plan) :
    plan.creative.linkType = plan.linkType.compared := by
  unfold Plan.creative
  split
  · rename_i linkType
    exact linkType.symm
  · rfl

/-- The materials of the plan are those of the rows in any order. -/
theorem mem_materials_of_perm (perm : adMLinkList.Perm plan.adMLinks)
    (adMId : Int) :
    adMId ∈ plan.materials ↔ adMId ∈ adMLinkList.map AdMLink.adMId := by
  rw [Plan.materials, List.mem_toFinset]
  exact (perm.map AdMLink.adMId).mem_iff.symm

/-- Two lists of the same length: the answer is that for the last stored
material. -/
theorem outerLoop_iff (blanks : Blanks platform)
    (perm : adMLinkList.Perm plan.adMLinks) {adMaterialIds : JavaString}
    {numbers : List Int}
    (read : (if isNotBlank platform adMaterialIds then
        (split ',' adMaterialIds).mapM (parseInt platform)
      else some []) = some numbers)
    (lengths : (split ',' adMaterialIds).length = adMLinkList.length) :
    outerLoop platform (split ',' adMaterialIds) adMLinkList false =
        some (decide (numbers.toFinset ≠ plan.materials)) ↔
      isNotBlank platform adMaterialIds = true ∧
        ∀ last ∈ adMLinkList.getLast?,
          last.adMId ∈ numbers.toFinset →
            numbers.toFinset = plan.materials := by
  by_cases written : isNotBlank platform adMaterialIds = true
  · rw [if_pos written] at read
    simp only [written, true_and]
    cases final : adMLinkList.getLast? with
    | none =>
        have empty := List.getLast?_eq_none_iff.mp final
        subst empty
        have none := List.eq_nil_of_length_eq_zero
          ((length_of_mapM read).trans lengths)
        have nothing : plan.materials = ∅ := by
          rw [Plan.materials, perm.symm.eq_nil]
          rfl
        rw [none, nothing]
        simp [outerLoop]
    | some last =>
        have found : numbers ≠ [] := by
          intro none
          have length := (length_of_mapM read).trans lengths
          rw [none] at length
          have empty := List.eq_nil_of_length_eq_zero length.symm
          subst empty
          cases final
        have kept : last.adMId ∈ plan.materials :=
          (mem_materials_of_perm perm _).mpr
            (List.mem_map_of_mem (List.mem_of_getLast? final))
        rw [outerLoop_eq read found, final]
        simp only [Option.some.injEq, decide_eq_decide, Option.mem_some_iff,
          forall_eq', List.mem_toFinset]
        by_cases inside : last.adMId ∈ numbers
        · simp [inside]
        · have differ : numbers.toFinset ≠ plan.materials := fun same =>
            inside (List.mem_toFinset.mp (same ▸ kept))
          simp [inside, differ]
  · have blank : isBlank platform adMaterialIds = true := by
      simpa [isNotBlank] using written
    rw [split_of_isBlank blanks blank] at lengths ⊢
    obtain ⟨adMLink, rfl⟩ := List.length_eq_one_iff.mp lengths.symm
    rw [outerLoop, innerLoop, parseInt_of_isBlank blanks blank]
    simp [written]

/-- The comparison of two lists of materials. -/
theorem checkMaterials_iff (blanks : Blanks platform)
    (perm : adMLinkList.Perm plan.adMLinks)
    (stored : plan.linkType.compared = .M) (form : adDto.linkType = .M)
    (shown : adDto.creative platform = some creative) :
    checkAdUrl platform adMLinkList adDto plan =
        some (decide (creative ≠ plan.creative)) ↔
      Compares platform adMLinkList adDto creative plan := by
  have same : plan.linkType.compared = adDto.linkType := by
    rw [stored, form]
  have kept : plan.creative = ⟨.M, plan.materials, none⟩ := by
    rw [Plan.creative, stored]
  rw [AdPlanManageInfoDto.creative, form] at shown
  obtain ⟨numbers, read, rfl⟩ := Option.map_eq_some_iff.mp shown
  rw [checkAdUrl, if_pos same, Compares, kept]
  simp only [form, stored, forall_const, ne_eq, Creative.mk.injEq, true_and,
    and_true]
  cases ids : adDto.adMaterialIds with
  | none => simp
  | some adMaterialIds =>
      rw [AdPlanManageInfoDto.materials, ids] at read
      simp only [Option.getD_some] at read
      simp only [Option.bind_some, Option.mem_some_iff, exists_eq_left']
      by_cases lengths :
          (split ',' adMaterialIds).length = adMLinkList.length
      · rw [if_neg (not_not_intro lengths), if_pos lengths]
        exact outerLoop_iff blanks perm read lengths
      · rw [if_pos lengths, if_neg lengths]
        simp

theorem compareUrl_iff (linkType : FormLinkType)
    (stored submitted : Option JavaString) :
    (stored.map fun throwUrl => decide (some throwUrl ≠ submitted)) =
        some (decide ((⟨linkType, ∅, submitted⟩ : Creative) ≠
          ⟨linkType, ∅, stored⟩)) ↔
      stored.isSome = true := by
  cases stored with
  | none => simp
  | some throwUrl =>
      simp only [Option.map_some, Option.some.injEq, decide_eq_decide, ne_eq,
        Creative.mk.injEq, true_and, Option.isSome_some, iff_true]
      exact not_congr eq_comm

/-- The comparison with a stored url. -/
theorem checkUrl_iff (same : plan.linkType.compared = adDto.linkType)
    (form : adDto.linkType ≠ .M)
    (shown : adDto.creative platform = some creative) :
    checkAdUrl platform adMLinkList adDto plan =
        some (decide (creative ≠ plan.creative)) ↔
      Compares platform adMLinkList adDto creative plan := by
  rw [checkAdUrl, if_pos same, Compares]
  simp only [same, forall_const]
  unfold AdPlanManageInfoDto.creative at shown
  unfold Plan.creative
  rw [same]
  cases linkType : adDto.linkType with
  | M => exact absurd linkType form
  | E =>
      simp only [linkType] at shown
      obtain ⟨link, submitted, rfl⟩ := Option.map_eq_some_iff.mp shown
      simp only [submitted, Option.bind_some]
      cases plan.findAdExtLinkByAdId with
      | none => simp
      | some row => exact compareUrl_iff .E row.throwUrl link.throwUrl
  | J =>
      simp only [linkType] at shown
      obtain ⟨link, submitted, rfl⟩ := Option.map_eq_some_iff.mp shown
      cases plan.findAdExtLinkByAdId with
      | none => simp
      | some row => exact compareUrl_iff .J row.throwUrl adDto.jsContent

/-- `checkAdUrl` answers rightly exactly for the edits that are compared
rightly. -/
theorem checkAdUrl_eq_iff (blanks : Blanks platform)
    (perm : adMLinkList.Perm plan.adMLinks)
    (shown : adDto.creative platform = some creative) :
    checkAdUrl platform adMLinkList adDto plan =
        some (decide (creative ≠ plan.creative)) ↔
      Compares platform adMLinkList adDto creative plan := by
  by_cases same : plan.linkType.compared = adDto.linkType
  · by_cases form : adDto.linkType = .M
    · exact checkMaterials_iff blanks perm (same.trans form) form shown
    · exact checkUrl_iff same form shown
  · have differ : creative ≠ plan.creative := by
      intro equal
      refine same ?_
      rw [← plan_creative_linkType, ← equal, creative_linkType shown]
    rw [checkAdUrl, if_neg same]
    simp [Compares, same, differ]

/-! ## The edited plan -/

/-- The inserted rows are those of the submitted numbers. -/
theorem materialLink_numbers {links rows : List AdMLink}
    {adMIds : List JavaString}
    (inserted : adMIds.mapM (materialLink platform links) = some rows) :
    adMIds.mapM (parseInt platform) = some (rows.map AdMLink.adMId) := by
  have number : ∀ part, (materialLink platform links part).map AdMLink.adMId =
      parseInt platform part := by
    intro part
    rw [materialLink, Option.map_map]
    refine (Option.map_congr fun number _ => ?_).trans Option.map_id'
    rw [Function.comp_apply]
    split <;> rfl
  rw [mapM_eq_some_iff] at *
  have numbers := congrArg (List.map (Option.map AdMLink.adMId)) inserted
  rw [List.map_map, List.map_map] at numbers
  rw [List.map_map]
  exact (List.map_congr_left fun part _ => (number part).symm).trans numbers

/-- What is left of the plan before the new rows are inserted. -/
def emptied (adDto : AdPlanManageInfoDto) (plan : Plan) : Plan :=
  deleteAdExtLinkByAdId (delAdMaterialLinks (updateAdInstance adDto plan))

theorem emptied_compared (adDto : AdPlanManageInfoDto) (plan : Plan) :
    (emptied adDto plan).linkType.compared = adDto.linkType := by
  simp only [emptied, deleteAdExtLinkByAdId, delAdMaterialLinks,
    updateAdInstance]
  cases adDto.linkType with
  | M => rfl
  | E => rfl
  | J =>
      cases adDto.jsType with
      | J => rfl
      | L => rfl

/-- The rows of an edit show its creative; the state and the check processes
are not touched by them. -/
structure Writes (platform : Platform) (adDto : AdPlanManageInfoDto)
    (before after : Plan) : Prop where
  creative : adDto.creative platform = some after.creative
  adToufangSts : after.adToufangSts = before.adToufangSts
  adCheckProcess : after.adCheckProcess = before.adCheckProcess

theorem addPlanMaterial_writes {links : List AdMLink} {after : Plan}
    (form : adDto.linkType = .M)
    (added : addPlanMaterial platform links adDto (emptied adDto plan) =
      some after) :
    Writes platform adDto plan after := by
  have compared := emptied_compared adDto plan
  rw [form] at compared
  rw [addPlanMaterial] at added
  split at added
  · rename_i written
    obtain ⟨rows, inserted, rfl⟩ := Option.map_eq_some_iff.mp added
    refine ⟨?_, rfl, rfl⟩
    rw [AdPlanManageInfoDto.creative, form, AdPlanManageInfoDto.materials,
      if_pos written, materialLink_numbers inserted]
    simp only [Plan.creative, compared, Plan.materials]
    rfl
  · rename_i blank
    cases added
    refine ⟨?_, rfl, rfl⟩
    rw [AdPlanManageInfoDto.creative, form, AdPlanManageInfoDto.materials,
      if_neg blank]
    simp only [Plan.creative, compared, Plan.materials]
    rfl

theorem extLink_throwUrl {mapKv : JavaString → Option MapKv}
    {submitted inserted : AdExtLink}
    (row : extLink mapKv adDto submitted = some inserted) :
    inserted.throwUrl =
      if adDto.linkType = .J then some [] else submitted.throwUrl := by
  simp only [extLink] at row
  generalize (if adDto.linkType = .J then some [] else submitted.throwUrl) =
    throwUrl at row ⊢
  generalize (if adDto.linkType = .J then adDto.jsSize
    else submitted.picSize) = picSize at row
  split at row
  · cases row
    rfl
  · obtain ⟨size, _, rfl⟩ := Option.map_eq_some_iff.mp row
    rfl

theorem addAdExtLink_writes {mapKv : JavaString → Option MapKv}
    {after : Plan} (form : adDto.linkType ≠ .M)
    (added : addAdExtLink mapKv adDto (emptied adDto plan) = some after) :
    Writes platform adDto plan after := by
  have compared := emptied_compared adDto plan
  obtain ⟨inserted, row, rfl⟩ := Option.map_eq_some_iff.mp added
  obtain ⟨submitted, given, row⟩ := Option.bind_eq_some_iff.mp row
  have url := extLink_throwUrl row
  refine ⟨?_, rfl, rfl⟩
  rw [AdPlanManageInfoDto.creative, Plan.creative]
  simp only [compared, given]
  cases linkType : adDto.linkType with
  | M => exact absurd linkType form
  | E =>
      rw [linkType] at url
      simp [Plan.findAdExtLinkByAdId, emptied, deleteAdExtLinkByAdId, url]
  | J =>
      rw [linkType, if_pos rfl] at url
      by_cases written : adDto.jsContent = some []
      · simp [Plan.findAdExtLinkByAdId, emptied, deleteAdExtLinkByAdId, url,
          written]
      · simp [Plan.findAdExtLinkByAdId, emptied, deleteAdExtLinkByAdId,
          written]

/-- What a completed edit does. -/
theorem editAdPlan_cases {mapKv : JavaString → Option MapKv}
    {user : UserType} {returned : Returned} {after : Plan}
    (completed : editAdPlan platform mapKv user returned adDto plan =
      some after) :
    ∃ flag written,
      checkAdUrl platform returned.adMLinkList adDto plan = some flag ∧
        Writes platform adDto plan written ∧
          after = withdraw user flag written := by
  obtain ⟨flag, checked, completed⟩ := Option.bind_eq_some_iff.mp completed
  obtain ⟨written, added, rfl⟩ := Option.map_eq_some_iff.mp completed
  refine ⟨flag, written, checked, ?_, rfl⟩
  split at added
  · rename_i form
    exact addPlanMaterial_writes form added
  · rename_i form
    exact addAdExtLink_writes form added

theorem withdraw_creative (user : UserType) (flag : Bool) (plan : Plan) :
    (withdraw user flag plan).creative = plan.creative := by
  rw [withdraw]
  split
  · rfl
  · rfl

/-- A completed edit stores the submitted creative. -/
theorem editAdPlan_creative {mapKv : JavaString → Option MapKv}
    {user : UserType} {returned : Returned} {after : Plan}
    (completed : editAdPlan platform mapKv user returned adDto plan =
      some after) :
    adDto.creative platform = some after.creative := by
  obtain ⟨flag, written, _, writes, rfl⟩ := editAdPlan_cases completed
  rw [withdraw_creative]
  exact writes.creative

/-- The plan, and the creative that the reviewers have approved last. -/
structure State where
  plan : Plan
  approved : Option Creative

/-- What happens to an advertisement. -/
inductive Event where
  | edit (user : UserType) (returned : Returned)
      (adDto : AdPlanManageInfoDto)
  | approve
  | updateSts (adToufangSts : Int)

/-- Approved advertisements are delivered, paused or over. -/
def Approved (adToufangSts : Int) : Prop :=
  adToufangSts ∈ [2, 3, 4]

/-- One event.  A failed edit is rolled back; without a review no state of an
approved advertisement is set where there was none. -/
inductive Step (platform : Platform) (mapKv : JavaString → Option MapKv) :
    State → Event → State → Prop where
  | edit {before : State} {user : UserType} {returned : Returned}
      {adDto : AdPlanManageInfoDto} :
      returned.adMLinkList.Perm before.plan.adMLinks →
      Step platform mapKv before (.edit user returned adDto)
        { before with
          plan :=
            (editAdPlan platform mapKv user returned adDto before.plan).getD
              before.plan }
  | approve {before : State} :
      Step platform mapKv before .approve
        { plan := { before.plan with adToufangSts := 2 }
          approved := some before.plan.creative }
  | updateSts {before : State} {adToufangSts : Int} :
      (Approved adToufangSts → Approved before.plan.adToufangSts) →
      Step platform mapKv before (.updateSts adToufangSts)
        { before with
          plan := { before.plan with adToufangSts := adToufangSts } }

/-- The edits of a run that are compared rightly. -/
def Fits (platform : Platform) (before : State) : Event → Prop
  | .edit _ returned adDto =>
      ∀ creative ∈ adDto.creative platform,
        Compares platform returned.adMLinkList adDto creative before.plan
  | _ => True

/-- An approved advertisement shows what was approved. -/
def Sound (state : State) : Prop :=
  Approved state.plan.adToufangSts →
    state.approved = some state.plan.creative

theorem not_approved_withdrawn : ¬ Approved (-1) := by
  simp [Approved]

/-- An advertisement that stays approved has kept its creative. -/
theorem creative_of_approved (blanks : Blanks platform)
    {mapKv : JavaString → Option MapKv} {user : UserType}
    {returned : Returned} {after : Plan}
    (perm : returned.adMLinkList.Perm plan.adMLinks)
    (fits : ∀ creative ∈ adDto.creative platform,
      Compares platform returned.adMLinkList adDto creative plan)
    (completed : editAdPlan platform mapKv user returned adDto plan =
      some after)
    (approved : Approved after.adToufangSts) :
    Approved plan.adToufangSts ∧ after.creative = plan.creative := by
  have shown := editAdPlan_creative completed
  have right := (checkAdUrl_eq_iff blanks perm shown).mpr (fits _ shown)
  obtain ⟨flag, written, checked, writes, rfl⟩ := editAdPlan_cases completed
  rw [checked, Option.some.injEq] at right
  rw [withdraw, writes.adToufangSts] at approved
  split at approved
  · exact absurd approved not_approved_withdrawn
  · rename_i kept
    rw [writes.adToufangSts] at approved
    refine ⟨approved, ?_⟩
    by_contra differ
    rw [decide_eq_true differ] at right
    refine kept ⟨right, fun withdrawn => ?_⟩
    rw [withdrawn] at approved
    exact not_approved_withdrawn approved

theorem sound_step (blanks : Blanks platform)
    {mapKv : JavaString → Option MapKv} {before after : State}
    {event : Event} (sound : Sound before)
    (taken : Fits platform before event ∧
      Step platform mapKv before event after) :
    Sound after := by
  obtain ⟨fits, taken⟩ := taken
  cases taken with
  | @edit user returned adDto perm =>
      intro approved
      cases completed :
          editAdPlan platform mapKv user returned adDto before.plan with
      | none =>
          rw [completed] at approved
          exact sound approved
      | some plan =>
          rw [completed] at approved
          obtain ⟨still, kept⟩ :=
            creative_of_approved blanks perm fits completed approved
          exact (sound still).trans (congrArg some kept.symm)
  | approve => exact fun _ => rfl
  | updateSts already => exact fun approved => sound (already approved)

/-- A link to a material. -/
def material (adMId : Int) : AdMLink :=
  ⟨adMId, none, none⟩

/-- The form of an advertisement with materials. -/
def materialForm (adMaterialIds : String) : AdPlanManageInfoDto :=
  ⟨.M, .J, some (text adMaterialIds), none, none, none⟩

end WindowSystem.Admanager.AdPlanManage
