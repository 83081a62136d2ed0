import WindowSystem.Admanager.AdPlanManage
import WindowSystem.Library.FieldHash

/-!
# The cached creatives

The creatives of an advertisement are kept in a redis hash, `ad_all_info_`
with its id, in a field for each of them.  `findMaterialByAdId` of the ad
server fills the hash when it does not exist and `findMaterialById` adds a
single field to it; `editAdPlan` writes it anew, `editAdMaterial` forgets it,
and the two transitions of the statistics codes write to another key.  The
operations of this module are atomic and use one redis.
-/

namespace WindowSystem.Adserver.AdMaterialService

open WindowSystem.Admanager
open WindowSystem.Admanager.AdPlanManage
open WindowSystem.Library.FieldHash
open WindowSystem.Library.LabelledRun
open WindowSystem.Sspserver.JavaRuntime

/-! ## The database -/

/-- The three columns of `ad_instance` for statistics codes. -/
structure StatCodes where
  ad3statCode : Option JavaString
  ad3statCodeSub : Option JavaString
  ad3statCodeTemp : Option JavaString
deriving DecidableEq

/-- What the form of a material sets. -/
structure MaterialForm where
  mType : Option JavaString
  materialName : Option JavaString
  materialSize : JavaString
  linkUrl : Option JavaString
  targetUrl : Option JavaString
  monitorLink : Option JavaString
  richText : Option JavaString
  coverFlag : Option JavaString
deriving DecidableEq

/-- A row of `ad_material`; `inUse` is `sts = 'A'`. -/
structure AdMaterial extends MaterialForm where
  userid : Int
  inUse : Bool
deriving DecidableEq

/-- A row of `ad_mongo_click_link`. -/
structure ClickLink where
  clickId : Option JavaString
  target : Option JavaString
deriving DecidableEq

/-- The tables: an advertisement with its links, its codes and its click
links, the materials, and the sizes of `map_kv` by their codes. -/
structure Database where
  plan : Int → Option Plan
  statCodes : Int → StatCodes
  clickLinks : Int → List ClickLink
  adMaterial : Int → Option AdMaterial
  mapKv : JavaString → Option MapKv

/-! ## The beans -/

/-- `AdMaterialCache` -/
structure AdMaterialCache where
  adMId : Int
  mType : Option JavaString
  width : Option JavaString
  height : Option JavaString
  materialName : Option JavaString
  linkUrl : Option JavaString
  targetUrl : Option JavaString
  monitorLink : Option JavaString
  codes : StatCodes
  richText : Option JavaString
  coverFlag : Option JavaString
deriving DecidableEq

/-- `MobileMaterial` -/
structure MobileMaterial where
  adMId : Int
  mType : Option JavaString
  width : Option JavaString
  height : Option JavaString
  clickLink : ClickLink
  linkUrl : Option JavaString
deriving DecidableEq

/-- The JSON of a bean.  The mapper refuses the one for the other. -/
inductive Json where
  | adMaterialCache (material : AdMaterialCache)
  | mobileMaterial (material : MobileMaterial)
deriving DecidableEq

/-- `classType` -/
inductive ClassType where
  | adMaterialCache
  | mobileMaterial
deriving DecidableEq

/-- The keys `ad_all_info_<ad>` and `<ad>`. -/
inductive Key where
  | adAllInfo (adId : Int)
  | plain (adId : Int)
deriving DecidableEq

/-- The database and redis. -/
structure State where
  db : Database
  cache : Key → Hash Int Json

/-! ## The queries -/

namespace Database

variable (db : Database)

/-- The columns that the queries select from a material and its size. -/
def select (codes : StatCodes) (adMId : Int) (material : AdMaterial)
    (size : MapKv) : AdMaterialCache where
  adMId := adMId
  mType := material.mType
  width := some size.width
  height := some size.height
  materialName := material.materialName
  linkUrl := material.linkUrl
  targetUrl := material.targetUrl
  monitorLink := material.monitorLink
  codes := codes
  richText := material.richText
  coverFlag := material.coverFlag

/-- The joined rows for one link. -/
def joined (adId : Int) (adMId : Int) : Option AdMaterialCache :=
  (db.adMaterial adMId).bind fun material =>
    if material.inUse then
      (db.mapKv material.materialSize).map
        (select (db.statCodes adId) adMId material)
    else none

/-- The links of an advertisement to materials. -/
def links (adId : Int) : List Int :=
  (db.plan adId).elim [] fun plan => plan.adMLinks.map AdMLink.adMId

/-- `findMaterialByAdId` of the ad server and of `admanager`. -/
def findMaterialByAdId (adId : Int) : List AdMaterialCache :=
  (db.links adId).filterMap (db.joined adId)

/-- `findExtLinkByAdId` of the ad server and of `admanager`. -/
def findExtLinkByAdId (adId : Int) : List AdMaterialCache :=
  (db.plan adId).elim [] fun plan =>
    plan.adExtLinks.map fun row =>
      { adMId := 0
        mType := some (text "3")
        width := row.width
        height := row.height
        materialName := some []
        linkUrl := some []
        targetUrl := some []
        monitorLink := some []
        codes := db.statCodes adId
        richText := some []
        coverFlag := some [] }

/-- A query for one row; a second row is an exception, which gives `null`. -/
def single {α : Type*} : List α → Option α
  | [row] => some row
  | _ => none

/-- `findMaterialById` for the class `AdMaterialCache`, with the columns that
it selects. -/
def findMaterialById (adId adMId : Int) : Option AdMaterialCache :=
  (single ((db.findMaterialByAdId adId).filter (·.adMId = adMId))).map
    fun row =>
      { row with
        codes := ⟨row.codes.ad3statCode, none, none⟩
        richText := none
        coverFlag := none }

/-- `findMaterialById` for the class `MobileMaterial`. -/
def findMobileById (adId adMId : Int) : Option MobileMaterial :=
  single (((db.findMaterialByAdId adId).filter (·.adMId = adMId)).flatMap
    fun row => (db.clickLinks adId).map fun clickLink =>
      ⟨row.adMId, row.mType, row.width, row.height, clickLink, row.linkUrl⟩)

/-- `findMaterialByAdId` of the timer; its bean has no rich text and no cover
flag. -/
def findForTimer (adId : Int) : List AdMaterialCache :=
  (db.findMaterialByAdId adId).map fun row =>
    { row with richText := none, coverFlag := none }

/-- What the ad server takes from the database: the materials, or the external
link when there are none. -/
def view (adId : Int) : List AdMaterialCache :=
  if db.findMaterialByAdId adId = [] then db.findExtLinkByAdId adId
  else db.findMaterialByAdId adId

end Database

/-! ## The operations -/

/-- The fields of a list of materials. -/
def fields (list : List AdMaterialCache) : List (Int × Json) :=
  list.map fun material => (material.adMId, .adMaterialCache material)

/-- The values of a hash as materials, up to the first that is refused: the
exception is caught, and the list is returned as it is. -/
def decoded : List Json → List AdMaterialCache
  | .adMaterialCache material :: values => material :: decoded values
  | _ => []

/-- What `findMaterialByAdId` returns if redis sends the values in this
order. -/
def findMaterialByAdId (adId : Int) (values : List Json) (state : State) :
    List AdMaterialCache :=
  if state.cache (.adAllInfo adId) = [] then state.db.view adId
  else decoded values

/-- What `findMaterialByAdId` leaves. -/
def afterFindMaterialByAdId (adId : Int) (state : State) : State :=
  if state.cache (.adAllInfo adId) = [] then
    { state with
      cache :=
        Function.update state.cache (.adAllInfo adId)
          (hsets [] (fields (state.db.view adId))) }
  else state

/-- A value of a hash as an object of the class. -/
def readable : ClassType → Json → Bool
  | .adMaterialCache, .adMaterialCache _ => true
  | .mobileMaterial, .mobileMaterial _ => true
  | _, _ => false

/-- The row that `findMaterialById` finds in the database. -/
def Database.findById (db : Database) (adId adMId : Int) :
    ClassType → Option Json
  | .adMaterialCache =>
      (db.findMaterialById adId adMId).map .adMaterialCache
  | .mobileMaterial => (db.findMobileById adId adMId).map .mobileMaterial

/-- What `findMaterialById` leaves; a value that cannot be read is taken as
missing. -/
def afterFindMaterialById (adId adMId : Int) (classType : ClassType)
    (state : State) : State :=
  let hash := state.cache (.adAllInfo adId)
  if (hget hash adMId).any (readable classType) then state
  else
    match state.db.findById adId adMId classType with
    | none => state
    | some value =>
        { state with
          cache :=
            Function.update state.cache (.adAllInfo adId)
              (hset hash adMId value) }

/-- The tables after a plan was edited. -/
def Database.edited (db : Database) (adId : Int) (plan : Plan)
    (ad3statCode ad3statCodeSub : Option JavaString) : Database :=
  { db with
    plan := Function.update db.plan adId (some plan)
    statCodes :=
      Function.update db.statCodes adId
        { db.statCodes adId with
          ad3statCode := ad3statCode
          ad3statCodeSub := ad3statCodeSub } }

/-- What an edit of a plan submits. -/
structure PlanEdit where
  adId : Int
  user : UserType
  returned : Returned
  adDto : AdPlanManageInfoDto
  ad3statCode : Option JavaString
  ad3statCodeSub : Option JavaString

/-- The plan that an edit leaves in the database, unless it throws. -/
def PlanEdit.plan (edit : PlanEdit) (platform : Platform) (db : Database) :
    Option Plan :=
  (db.plan edit.adId).bind
    (AdPlanManage.editAdPlan platform db.mapKv edit.user edit.returned
      edit.adDto)

/-- `editAdPlan`; where it throws, everything is rolled back. -/
def editAdPlan (platform : Platform) (edit : PlanEdit) (state : State) :
    State :=
  match edit.plan platform state.db with
  | none => state
  | some plan =>
      let db := state.db.edited edit.adId plan edit.ad3statCode
        edit.ad3statCodeSub
      let listInCache :=
        if edit.adDto.linkType = .M then db.findMaterialByAdId edit.adId
        else db.findExtLinkByAdId edit.adId
      { db
        cache :=
          Function.update state.cache (.adAllInfo edit.adId)
            (hsets [] (fields listInCache)) }

/-- The materials after an edit; a material of another user is not found. -/
def Database.editAdMaterial (db : Database) (userid adMId : Int)
    (form : MaterialForm) : Database :=
  match db.adMaterial adMId with
  | none => db
  | some history =>
      if history.userid = userid then
        { db with
          adMaterial :=
            Function.update db.adMaterial adMId
              (some { history with toMaterialForm := form }) }
      else db

/-- `editAdMaterial` -/
def editAdMaterial (userid adMId : Int) (form : MaterialForm)
    (state : State) : State :=
  { state with db := state.db.editAdMaterial userid adMId form }

/-- The update of `subStat2TempStat`. -/
def subStat2TempStat (codes : StatCodes) : StatCodes where
  ad3statCode := codes.ad3statCode
  ad3statCodeSub := some []
  ad3statCodeTemp := codes.ad3statCodeSub

/-- The update of `tempStat2SubStat`. -/
def tempStat2SubStat (codes : StatCodes) : StatCodes where
  ad3statCode := codes.ad3statCode
  ad3statCodeSub := codes.ad3statCodeTemp
  ad3statCodeTemp := some []

/-- The two transitions of the timer. -/
inductive Transition where
  | nhtStat2Nnht
  | nNht2nhtStat
deriving DecidableEq

/-- The codes after a transition; only one check of each returns. -/
def Transition.codes (transition : Transition) (platform : Platform)
    (codes : StatCodes) : Option StatCodes :=
  let present := isNotBlank platform (codes.ad3statCodeTemp.getD [])
  match transition with
  | .nhtStat2Nnht => if present then none else some (subStat2TempStat codes)
  | .nNht2nhtStat => if present then some (tempStat2SubStat codes) else none

/-- The tables after a transition, if it does not return early. -/
def Transition.next (transition : Transition) (platform : Platform)
    (adId : Int) (db : Database) : Option Database :=
  if (db.plan adId).isSome then
    (transition.codes platform (db.statCodes adId)).map fun codes =>
      { db with statCodes := Function.update db.statCodes adId codes }
  else none

/-- `nhtStat2NnhtProcess` and `nNht2nhtStatProcess`. -/
def process (platform : Platform) (transition : Transition) (adId : Int)
    (state : State) : State :=
  match transition.next platform adId state.db with
  | none => state
  | some db =>
      { db
        cache :=
          Function.update state.cache (.plain adId)
            (hsets (state.cache (.plain adId))
              (fields (db.findForTimer adId))) }

/-! ## What is claimed and when it holds -/

/-- What happens. -/
inductive Event where
  | findMaterialByAdId (adId : Int)
  | findMaterialById (adId adMId : Int) (classType : ClassType)
  | editAdPlan (edit : PlanEdit)
  | editAdMaterial (userid adMId : Int) (form : MaterialForm)
  | process (transition : Transition) (adId : Int)

/-- One operation. -/
def next (platform : Platform) (state : State) : Event → State
  | .findMaterialByAdId adId => afterFindMaterialByAdId adId state
  | .findMaterialById adId adMId classType =>
      afterFindMaterialById adId adMId classType state
  | .editAdPlan edit => editAdPlan platform edit state
  | .editAdMaterial userid adMId form => editAdMaterial userid adMId form state
  | .process transition adId => process platform transition adId state

/-- One operation as a relation. -/
def Step (platform : Platform) (before : State) (event : Event)
    (after : State) : Prop :=
  next platform before event = after

/-- The same rows, in whatever order. -/
def SameRows (left right : List AdMaterialCache) : Prop :=
  ∀ row, row ∈ left ↔ row ∈ right

/-- For every advertisement and every order of the values the list has the
rows that the database returns now. -/
def Serves (state : State) : Prop :=
  ∀ adId values,
    values.Perm ((state.cache (.adAllInfo adId)).map Prod.snd) →
      SameRows (findMaterialByAdId adId values state) (state.db.view adId)

/-- No two different rows have the same number. -/
def Keyed (rows : List AdMaterialCache) : Prop :=
  ∀ one ∈ rows, ∀ other ∈ rows, one.adMId = other.adMId → one = other

/-- The operations that keep the hashes right. -/
def Fits (platform : Platform) (before : State) : Event → Prop
  | .findMaterialByAdId adId =>
      before.cache (.adAllInfo adId) = [] → Keyed (before.db.view adId)
  | .findMaterialById adId adMId .adMaterialCache =>
      before.cache (.adAllInfo adId) = [] →
        ∀ row ∈ before.db.findMaterialById adId adMId,
          SameRows [row] (before.db.view adId)
  | .findMaterialById adId adMId .mobileMaterial =>
      before.db.findMobileById adId adMId = none
  | .editAdPlan _ => True
  | .editAdMaterial userid adMId form =>
      ∀ adId, before.cache (.adAllInfo adId) ≠ [] →
        SameRows ((before.db.editAdMaterial userid adMId form).view adId)
          (before.db.view adId)
  | .process transition adId =>
      before.cache (.adAllInfo adId) ≠ [] →
        ∀ db ∈ transition.next platform adId before.db,
          SameRows (db.view adId) (before.db.view adId)

/-! ## What a hash shows -/

theorem SameRows.symm {left right : List AdMaterialCache}
    (same : SameRows left right) : SameRows right left :=
  fun row => (same row).symm

theorem SameRows.trans {left middle right : List AdMaterialCache}
    (one : SameRows left middle) (other : SameRows middle right) :
    SameRows left right :=
  fun row => (one row).trans (other row)

theorem sameRows_nil_iff {rows : List AdMaterialCache} :
    SameRows rows [] ↔ rows = [] := by
  constructor
  · intro same
    exact List.eq_nil_iff_forall_not_mem.mpr fun row member =>
      List.not_mem_nil ((same row).mp member)
  · rintro rfl
    exact fun _ => Iff.rfl

/-- A value as a material. -/
def Json.material : Json → Option AdMaterialCache
  | .adMaterialCache material => some material
  | .mobileMaterial _ => none

/-- The materials of a hash. -/
def materials (hash : Hash Int Json) : List AdMaterialCache :=
  (hash.map Prod.snd).filterMap Json.material

/-- A hash that is right for these rows. -/
def Shows (hash : Hash Int Json) (rows : List AdMaterialCache) : Prop :=
  hash = [] ∨
    (SameRows (materials hash) rows ∧
      ((∃ entry ∈ hash, readable .adMaterialCache entry.2 = false) →
        rows = []))

/-- All values up to one that is refused. -/
theorem decoded_append {front back : List Json}
    (readables : ∀ value ∈ front, readable .adMaterialCache value = true)
    (refused : ∀ value ∈ back, readable .adMaterialCache value = false) :
    decoded (front ++ back) = (front ++ back).filterMap Json.material := by
  induction front with
  | nil =>
      cases back with
      | nil => rfl
      | cons first back =>
          have none : ∀ value ∈ first :: back, Json.material value = none := by
            intro value member
            have refusal := refused value member
            cases value with
            | adMaterialCache => cases refusal
            | mobileMaterial => rfl
          rw [List.nil_append, List.filterMap_eq_nil_iff.mpr none]
          have refusal := refused first List.mem_cons_self
          cases first with
          | adMaterialCache => cases refusal
          | mobileMaterial => rfl
  | cons first front induction =>
      obtain ⟨head, tail⟩ := List.forall_mem_cons.mp readables
      cases first with
      | adMaterialCache material =>
          exact congrArg (material :: ·) (induction tail)
      | mobileMaterial => cases head

theorem mem_of_mem_decoded {values : List Json} {row : AdMaterialCache}
    (member : row ∈ decoded values) : .adMaterialCache row ∈ values := by
  induction values with
  | nil => cases member
  | cons first values induction =>
      cases first with
      | adMaterialCache material =>
          rcases List.mem_cons.mp member with rfl | later
          · exact List.mem_cons_self
          · exact List.mem_cons_of_mem _ (induction later)
      | mobileMaterial => cases member

theorem mem_materials_iff {hash : Hash Int Json} {row : AdMaterialCache} :
    row ∈ materials hash ↔ .adMaterialCache row ∈ hash.map Prod.snd := by
  rw [materials, List.mem_filterMap]
  constructor
  · rintro ⟨value, member, read⟩
    cases value with
    | adMaterialCache material =>
        cases read
        exact member
    | mobileMaterial => cases read
  · exact fun member => ⟨_, member, rfl⟩

/-- The readable values in front of the others, or behind them. -/
theorem filter_perm (values : List Json) :
    (values.filter (readable .adMaterialCache) ++
      values.filter fun value => !readable .adMaterialCache value).Perm
        values :=
  List.filter_append_perm _ _

theorem decoded_of_refused {front : List Json} {value : Json}
    (member : value ∈ front)
    (refused : ∀ value ∈ front, readable .adMaterialCache value = false)
    (back : List Json) : decoded (front ++ back) = [] := by
  cases front with
  | nil => cases member
  | cons first front =>
      have refusal := refused first List.mem_cons_self
      cases first with
      | adMaterialCache => cases refusal
      | mobileMaterial => rfl

/-- A hash serves its rows in every order of the values exactly if it shows
them: the values can be sent with all that are read, or with one that is
refused, in front. -/
theorem shows_iff {hash : Hash Int Json} (rows : List AdMaterialCache)
    (found : hash ≠ []) :
    Shows hash rows ↔
      ∀ values, values.Perm (hash.map Prod.snd) →
        SameRows (decoded values) rows := by
  rw [Shows, or_iff_right found]
  constructor
  · rintro ⟨same, nothing⟩ values perm
    by_cases refused :
        ∃ entry ∈ hash, readable .adMaterialCache entry.2 = false
    · rw [nothing refused] at same ⊢
      rw [sameRows_nil_iff] at same ⊢
      refine List.eq_nil_iff_forall_not_mem.mpr fun row member => ?_
      have inside := perm.subset (mem_of_mem_decoded member)
      rw [← mem_materials_iff, same] at inside
      exact List.not_mem_nil inside
    · have readables : ∀ value ∈ values,
          readable .adMaterialCache value = true := by
        intro value member
        obtain ⟨entry, inside, rfl⟩ :=
          List.mem_map.mp (perm.subset member)
        exact Bool.not_eq_false _ ▸ fun refusal =>
          refused ⟨entry, inside, refusal⟩
      have all : decoded (values ++ []) =
          (values ++ []).filterMap Json.material :=
        decoded_append readables (by simp)
      rw [List.append_nil] at all
      rw [all]
      intro row
      exact ((perm.filterMap Json.material).mem_iff).trans (same row)
  · intro all
    constructor
    · have first := all _ (filter_perm (hash.map Prod.snd))
      rw [decoded_append (by simp) (by simp)] at first
      intro row
      exact (((filter_perm _).filterMap Json.material).mem_iff).symm.trans
        (first row)
    · rintro ⟨entry, member, refusal⟩
      have last := all _
        (List.perm_append_comm.trans (filter_perm (hash.map Prod.snd)))
      rw [← sameRows_nil_iff]
      refine last.symm.trans (sameRows_nil_iff.mpr ?_)
      exact decoded_of_refused
        (List.mem_filter.mpr ⟨List.mem_map_of_mem member, by simp [refusal]⟩)
        (by simp) _

/-- The state serves all advertisements exactly if every hash shows what the
database returns. -/
theorem serves_iff {state : State} :
    Serves state ↔
      ∀ adId, Shows (state.cache (.adAllInfo adId)) (state.db.view adId) := by
  refine forall_congr' fun adId => ?_
  by_cases empty : state.cache (.adAllInfo adId) = []
  · refine iff_of_true (fun values _ => ?_) (.inl empty)
    rw [findMaterialByAdId, if_pos empty]
    exact fun _ => Iff.rfl
  · rw [shows_iff _ empty]
    simp only [findMaterialByAdId, if_neg empty]

/-- Where only the database has changed. -/
theorem shows_changed_iff {hash : Hash Int Json}
    {before after : List AdMaterialCache} (shows : Shows hash before) :
    Shows hash after ↔ (hash ≠ [] → SameRows after before) := by
  rcases shows with empty | ⟨same, nothing⟩
  · exact iff_of_true (.inl empty) fun found => absurd empty found
  · by_cases empty : hash = []
    · exact iff_of_true (.inl empty) fun found => absurd empty found
    · rw [Shows, or_iff_right empty, forall_prop_of_true empty]
      constructor
      · rintro ⟨now, _⟩
        exact now.symm.trans same
      · intro kept
        refine ⟨same.trans kept.symm, fun refused => ?_⟩
        rw [nothing refused] at kept
        exact sameRows_nil_iff.mp kept

theorem mem_fields_iff {rows : List AdMaterialCache} {entry : Int × Json} :
    entry ∈ fields rows ↔
      ∃ row ∈ rows, entry = (row.adMId, .adMaterialCache row) := by
  rw [fields, List.mem_map]
  exact exists_congr fun row => and_congr_right fun _ => eq_comm

theorem keyed_fields_iff {rows : List AdMaterialCache} :
    (∀ one ∈ fields rows, ∀ other ∈ fields rows,
        one.1 = other.1 → one = other) ↔
      Keyed rows := by
  constructor
  · intro all one left other right same
    have equal := all _ (mem_fields_iff.mpr ⟨one, left, rfl⟩) _
      (mem_fields_iff.mpr ⟨other, right, rfl⟩) same
    exact Json.adMaterialCache.inj (Prod.mk.inj equal).2
  · intro keyed one left other right same
    obtain ⟨row, inside, rfl⟩ := mem_fields_iff.mp left
    obtain ⟨second, present, rfl⟩ := mem_fields_iff.mp right
    rw [keyed row inside second present same]

/-- The hash that is filled with rows shows them exactly if they differ in
their numbers. -/
theorem shows_filled_iff {rows : List AdMaterialCache} :
    Shows (hsets [] (fields rows)) rows ↔ Keyed rows := by
  have filled : ∀ {entry}, entry ∈ hsets [] (fields rows) →
      entry ∈ fields rows := fun member =>
    (mem_of_mem_hsets member).resolve_left List.not_mem_nil
  rw [← keyed_fields_iff, ← mem_hsets_nil_iff]
  constructor
  · rintro (empty | ⟨same, _⟩) entry
    · rw [empty, hsets_nil_eq_nil_iff.mp empty]
    · refine ⟨filled, fun member => ?_⟩
      obtain ⟨row, inside, rfl⟩ := mem_fields_iff.mp member
      obtain ⟨entry, stored, value⟩ :=
        List.mem_map.mp (mem_materials_iff.mp ((same row).mpr inside))
      obtain ⟨other, _, rfl⟩ := mem_fields_iff.mp (filled stored)
      cases value
      exact stored
  · intro same
    refine .inr ⟨fun row => ?_, ?_⟩
    · rw [mem_materials_iff, List.mem_map]
      constructor
      · rintro ⟨entry, member, read⟩
        obtain ⟨material, inside, rfl⟩ := mem_fields_iff.mp (filled member)
        cases read
        exact inside
      · intro member
        exact ⟨_, (same _).mpr (mem_fields_iff.mpr ⟨row, member, rfl⟩), rfl⟩
    · rintro ⟨entry, member, refusal⟩
      obtain ⟨material, _, rfl⟩ := mem_fields_iff.mp (filled member)
      cases refusal

/-! ## The rows of the database -/

theorem joined_adMId {db : Database} {adId adMId : Int}
    {row : AdMaterialCache} (joined : db.joined adId adMId = some row) :
    row.adMId = adMId := by
  obtain ⟨material, _, joined⟩ := Option.bind_eq_some_iff.mp joined
  split at joined
  · obtain ⟨size, _, rfl⟩ := Option.map_eq_some_iff.mp joined
    rfl
  · cases joined

/-- The rows of the materials differ in their numbers. -/
theorem keyed_findMaterialByAdId (db : Database) (adId : Int) :
    Keyed (db.findMaterialByAdId adId) := by
  intro one left other right same
  obtain ⟨first, _, one_joined⟩ := List.mem_filterMap.mp left
  obtain ⟨second, _, other_joined⟩ := List.mem_filterMap.mp right
  rw [joined_adMId one_joined, joined_adMId other_joined] at same
  rw [same, other_joined] at one_joined
  exact (Option.some.inj one_joined).symm

theorem view_of_links {db : Database} {adId : Int}
    (none : db.links adId = []) :
    db.view adId = db.findExtLinkByAdId adId := by
  refine if_pos ?_
  rw [Database.findMaterialByAdId, none]
  rfl

/-- An edited plan has either links to materials or one external link. -/
theorem editAdPlan_rows {platform : Platform}
    {mapKv : JavaString → Option MapKv} {user : UserType}
    {returned : Returned} {adDto : AdPlanManageInfoDto} {plan after : Plan}
    (completed : AdPlanManage.editAdPlan platform mapKv user returned adDto
      plan = some after) :
    if adDto.linkType = .M then after.adExtLinks = []
    else after.adMLinks = [] ∧ after.adExtLinks.length = 1 := by
  obtain ⟨flag, _, completed⟩ := Option.bind_eq_some_iff.mp completed
  obtain ⟨written, added, rfl⟩ := Option.map_eq_some_iff.mp completed
  have kept : (withdraw user flag written).adMLinks = written.adMLinks ∧
      (withdraw user flag written).adExtLinks = written.adExtLinks := by
    rw [withdraw]
    split
    · exact ⟨rfl, rfl⟩
    · exact ⟨rfl, rfl⟩
  rw [kept.1, kept.2]
  split at added
  · rename_i form
    rw [if_pos form]
    rw [addPlanMaterial] at added
    split at added
    · obtain ⟨rows, _, rfl⟩ := Option.map_eq_some_iff.mp added
      rfl
    · cases added
      rfl
  · rename_i form
    rw [if_neg form]
    obtain ⟨inserted, _, rfl⟩ := Option.map_eq_some_iff.mp added
    exact ⟨rfl, rfl⟩

/-- What the database returns for an advertisement depends on its own rows,
the materials and the sizes. -/
theorem view_congr {db other : Database} {adId : Int}
    (plan : other.plan adId = db.plan adId)
    (codes : other.statCodes adId = db.statCodes adId)
    (adMaterial : other.adMaterial = db.adMaterial)
    (mapKv : other.mapKv = db.mapKv) :
    other.view adId = db.view adId := by
  have joined : other.joined adId = db.joined adId := by
    funext adMId
    rw [Database.joined, Database.joined, codes, adMaterial, mapKv]
  rw [Database.view, Database.view, Database.findMaterialByAdId,
    Database.findMaterialByAdId, Database.findExtLinkByAdId,
    Database.findExtLinkByAdId, Database.links, Database.links, joined, plan,
    codes]

theorem view_ne_nil {db : Database} {adId : Int}
    (found : db.findMaterialByAdId adId ≠ []) : db.view adId ≠ [] := by
  rwa [Database.view, if_neg found]

theorem single_mem {α : Type*} {rows : List α} {row : α}
    (found : Database.single rows = some row) : row ∈ rows := by
  unfold Database.single at found
  split at found
  · cases found
    exact List.mem_cons_self
  · cases found

/-- A row that is found by its number is one of the rows of the ad. -/
theorem findMaterialById_mem {db : Database} {adId adMId : Int}
    {row : AdMaterialCache}
    (found : db.findMaterialById adId adMId = some row) :
    row.adMId = adMId ∧
      ∃ full ∈ db.findMaterialByAdId adId, full.adMId = adMId := by
  obtain ⟨full, only, rfl⟩ := Option.map_eq_some_iff.mp found
  obtain ⟨member, same⟩ := List.mem_filter.mp (single_mem only)
  have named : full.adMId = adMId := by
    simpa using same
  exact ⟨named, full, member, named⟩

theorem findMobileById_mem {db : Database} {adId adMId : Int}
    {row : MobileMaterial}
    (found : db.findMobileById adId adMId = some row) :
    db.findMaterialByAdId adId ≠ [] := by
  obtain ⟨full, member, _⟩ := List.mem_flatMap.mp (single_mem found)
  exact List.ne_nil_of_mem (List.mem_filter.mp member).1

/-! ## One operation -/

/-- A field of a material has its number. -/
def Orderly (state : State) : Prop :=
  ∀ adId, ∀ entry ∈ state.cache (.adAllInfo adId),
    ∀ row, entry.2 = .adMaterialCache row → row.adMId = entry.1

variable {platform : Platform} {before : State}

/-- Where only one advertisement is touched. -/
theorem serves_touched_iff {after : State} (serves : Serves before)
    (adId : Int)
    (others : ∀ other, other ≠ adId →
      after.cache (.adAllInfo other) = before.cache (.adAllInfo other) ∧
        after.db.view other = before.db.view other) :
    Serves after ↔
      Shows (after.cache (.adAllInfo adId)) (after.db.view adId) := by
  rw [serves_iff] at serves ⊢
  refine ⟨fun all => all adId, fun shows other => ?_⟩
  by_cases same : other = adId
  · rw [same]
    exact shows
  · rw [(others other same).1, (others other same).2]
    exact serves other

theorem update_other (cache : Key → Hash Int Json) (hash : Hash Int Json)
    {adId other : Int} (different : other ≠ adId) :
    Function.update cache (.adAllInfo adId) hash (.adAllInfo other) =
      cache (.adAllInfo other) :=
  Function.update_of_ne (fun equal => different (Key.adAllInfo.inj equal)) _ _

/-- Where only the hash of one advertisement has changed. -/
theorem serves_update_iff (serves : Serves before) (adId : Int)
    (hash : Hash Int Json) :
    Serves { before with
        cache := Function.update before.cache (.adAllInfo adId) hash } ↔
      Shows hash (before.db.view adId) := by
  have touched := @serves_touched_iff before
    { before with
      cache := Function.update before.cache (.adAllInfo adId) hash } serves
    adId fun other different => ⟨update_other _ _ different, rfl⟩
  simpa only [Function.update_self] using touched

theorem serves_findMaterialByAdId_iff (serves : Serves before) (adId : Int) :
    Serves (afterFindMaterialByAdId adId before) ↔
      Fits platform before (.findMaterialByAdId adId) := by
  rw [afterFindMaterialByAdId, Fits]
  split
  · rename_i empty
    rw [serves_update_iff serves, shows_filled_iff, forall_prop_of_true empty]
  · rename_i found
    exact iff_of_true serves fun empty => absurd empty found

/-- A hash that is right has every material that the database finds. -/
theorem hget_of_serves (orderly : Orderly before) (serves : Serves before)
    {adId adMId : Int} (found : before.cache (.adAllInfo adId) ≠ [])
    {row : AdMaterialCache}
    (row_found : before.db.findMaterialById adId adMId = some row) :
    (hget (before.cache (.adAllInfo adId)) adMId).any
      (readable .adMaterialCache) = true := by
  obtain ⟨_, full, member, named⟩ := findMaterialById_mem row_found
  have nonempty := view_ne_nil (List.ne_nil_of_mem member)
  obtain ⟨same, nothing⟩ :=
    (serves_iff.mp serves adId).resolve_left found
  have shown : full ∈ before.db.view adId := by
    rwa [Database.view, if_neg (List.ne_nil_of_mem member)]
  obtain ⟨entry, stored, value⟩ :=
    List.mem_map.mp (mem_materials_iff.mp ((same full).mpr shown))
  have field := orderly adId entry stored full value
  rw [named] at field
  cases read : hget (before.cache (.adAllInfo adId)) adMId with
  | none =>
      exact absurd field.symm (hget_eq_none_iff.mp read entry stored)
  | some value =>
      rw [Option.any_some]
      by_contra refused
      exact nonempty (nothing ⟨_, mem_of_hget read,
        Bool.eq_false_iff.mpr refused⟩)

/-- A hash with one field. -/
theorem shows_single_iff {adMId : Int} {row : AdMaterialCache}
    {rows : List AdMaterialCache} :
    Shows [(adMId, .adMaterialCache row)] rows ↔ SameRows [row] rows := by
  rw [Shows, or_iff_right (List.cons_ne_nil _ _)]
  refine and_iff_left_of_imp fun _ => ?_
  rintro ⟨entry, member, refusal⟩
  cases List.mem_singleton.mp member
  cases refusal

theorem serves_findMaterialById_iff (orderly : Orderly before)
    (serves : Serves before) (adId adMId : Int) :
    Serves (afterFindMaterialById adId adMId .adMaterialCache before) ↔
      Fits platform before (.findMaterialById adId adMId .adMaterialCache) := by
  rw [Fits, afterFindMaterialById]
  by_cases empty : before.cache (.adAllInfo adId) = []
  · rw [forall_prop_of_true empty]
    simp only [empty]
    rw [if_neg (by simp [hget])]
    cases found : before.db.findMaterialById adId adMId with
    | none => simp [Database.findById, found, serves]
    | some row =>
        simp only [Database.findById, found, Option.map_some,
          Option.mem_some_iff, forall_eq']
        rw [serves_update_iff serves]
        exact shows_single_iff
  · refine iff_of_true ?_ fun none => absurd none empty
    cases found : before.db.findMaterialById adId adMId with
    | none => simp [Database.findById, found, serves]
    | some row =>
        have read := hget_of_serves orderly serves empty found
        rwa [if_pos read]

theorem serves_findMobileById_iff (serves : Serves before)
    (adId adMId : Int) :
    Serves (afterFindMaterialById adId adMId .mobileMaterial before) ↔
      Fits platform before (.findMaterialById adId adMId .mobileMaterial) := by
  rw [Fits, afterFindMaterialById]
  cases found : before.db.findMobileById adId adMId with
  | none => simp [Database.findById, found, serves]
  | some row =>
      have nonempty := view_ne_nil (findMobileById_mem found)
      refine iff_of_false ?_ (Option.some_ne_none row)
      by_cases read : (hget (before.cache (.adAllInfo adId)) adMId).any
          (readable .mobileMaterial) = true
      · obtain ⟨value, stored, mobile⟩ :=
          (Option.any_eq_true _ _).mp read
        have member := mem_of_hget stored
        obtain ⟨_, nothing⟩ := (serves_iff.mp serves adId).resolve_left
          (List.ne_nil_of_mem member)
        refine absurd (nothing ⟨_, member, ?_⟩) nonempty
        cases value with
        | adMaterialCache => cases mobile
        | mobileMaterial => rfl
      · simp only [if_neg read, Database.findById, found, Option.map_some]
        rw [serves_update_iff serves, Shows, or_iff_right hset_ne_nil]
        rintro ⟨_, nothing⟩
        refine nonempty (nothing ⟨(adMId, .mobileMaterial row), ?_, rfl⟩)
        exact mem_hset_iff.mpr (.inr rfl)

/-- The list that `editAdPlan` writes is what the database returns. -/
theorem shows_edited {db : Database} {adId : Int} {plan : Plan}
    {linkType : FormLinkType} (row : db.plan adId = some plan)
    (rows : if linkType = .M then plan.adExtLinks = []
      else plan.adMLinks = [] ∧ plan.adExtLinks.length = 1) :
    Shows
      (hsets [] (fields (if linkType = .M then db.findMaterialByAdId adId
        else db.findExtLinkByAdId adId)))
      (db.view adId) := by
  by_cases form : linkType = .M
  · rw [if_pos form] at rows ⊢
    have same : db.view adId = db.findMaterialByAdId adId := by
      rw [Database.view]
      split
      · rename_i empty
        rw [empty, Database.findExtLinkByAdId, row]
        simp [rows]
      · rfl
    rw [same]
    exact shows_filled_iff.mpr (keyed_findMaterialByAdId _ _)
  · rw [if_neg form] at rows ⊢
    have same : db.view adId = db.findExtLinkByAdId adId := by
      refine view_of_links ?_
      rw [Database.links, row]
      simp [rows.1]
    rw [same]
    refine shows_filled_iff.mpr ?_
    obtain ⟨link, only⟩ := List.length_eq_one_iff.mp rows.2
    rw [Database.findExtLinkByAdId, row]
    simp [only, Keyed]

/-- `editAdPlan` always leaves the right hash. -/
theorem serves_editAdPlan (serves : Serves before) (edit : PlanEdit) :
    Serves (editAdPlan platform edit before) := by
  rw [editAdPlan]
  cases completed : edit.plan platform before.db with
  | none => exact serves
  | some plan =>
      refine (serves_touched_iff serves edit.adId fun other different =>
        ⟨update_other _ _ different, ?_⟩).mpr ?_
      · exact view_congr (Function.update_of_ne different _ _)
          (Function.update_of_ne different _ _) rfl rfl
      · obtain ⟨old, _, completed⟩ := Option.bind_eq_some_iff.mp completed
        simp only [Function.update_self]
        exact shows_edited (Function.update_self _ _ _)
          (editAdPlan_rows completed)

theorem serves_editAdMaterial_iff (serves : Serves before)
    (userid adMId : Int) (form : MaterialForm) :
    Serves (editAdMaterial userid adMId form before) ↔
      Fits platform before (.editAdMaterial userid adMId form) := by
  rw [serves_iff, Fits]
  exact forall_congr' fun adId =>
    shows_changed_iff (serves_iff.mp serves adId)

theorem serves_process_iff (serves : Serves before)
    (transition : Transition) (adId : Int) :
    Serves (process platform transition adId before) ↔
      Fits platform before (.process transition adId) := by
  rw [Fits, process]
  cases moved : transition.next platform adId before.db with
  | none =>
      simp [serves]
  | some db =>
      have plain : ∀ other,
          Function.update before.cache (.plain adId)
            (hsets (before.cache (.plain adId)) (fields (db.findForTimer adId)))
            (.adAllInfo other) = before.cache (.adAllInfo other) :=
        fun other => Function.update_of_ne (by simp) _ _
      have others : ∀ other, other ≠ adId →
          db.view other = before.db.view other := by
        intro other different
        rw [Transition.next] at moved
        split at moved
        · obtain ⟨codes, _, rfl⟩ := Option.map_eq_some_iff.mp moved
          exact view_congr rfl (Function.update_of_ne different _ _) rfl rfl
        · cases moved
      have touched := @serves_touched_iff before
        { db
          cache :=
            Function.update before.cache (.plain adId)
              (hsets (before.cache (.plain adId))
                (fields (db.findForTimer adId))) } serves adId
        fun other different => ⟨plain other, others other different⟩
      refine touched.trans ?_
      simp only [plain, Option.mem_some_iff, forall_eq']
      exact shows_changed_iff (serves_iff.mp serves adId)

/-- After an operation everything is served exactly if it fits. -/
theorem serves_next_iff (orderly : Orderly before) (serves : Serves before)
    (event : Event) :
    Serves (next platform before event) ↔ Fits platform before event := by
  cases event with
  | findMaterialByAdId adId => exact serves_findMaterialByAdId_iff serves adId
  | findMaterialById adId adMId classType =>
      cases classType with
      | adMaterialCache =>
          exact serves_findMaterialById_iff orderly serves adId adMId
      | mobileMaterial => exact serves_findMobileById_iff serves adId adMId
  | editAdPlan edit => exact iff_of_true (serves_editAdPlan serves edit) trivial
  | editAdMaterial userid adMId form =>
      exact serves_editAdMaterial_iff serves userid adMId form
  | process transition adId => exact serves_process_iff serves transition adId

/-- A filled hash is orderly. -/
theorem orderly_filled {rows : List AdMaterialCache} :
    ∀ entry ∈ hsets [] (fields rows), ∀ row,
      entry.2 = .adMaterialCache row → row.adMId = entry.1 := by
  intro entry member row value
  obtain ⟨other, _, rfl⟩ := mem_fields_iff.mp
    ((mem_of_mem_hsets member).resolve_left List.not_mem_nil)
  cases value
  rfl

theorem Orderly.update (orderly : Orderly before) {db : Database}
    {adId : Int} {hash : Hash Int Json}
    (new : ∀ entry ∈ hash, ∀ row, entry.2 = .adMaterialCache row →
      row.adMId = entry.1) :
    Orderly ⟨db, Function.update before.cache (.adAllInfo adId) hash⟩ := by
  intro other entry member
  by_cases same : other = adId
  · rw [same] at member
    simp only [Function.update_self] at member
    exact new entry member
  · simp only [update_other _ _ same] at member
    exact orderly other entry member

theorem orderly_next (orderly : Orderly before) (event : Event) :
    Orderly (next platform before event) := by
  cases event with
  | findMaterialByAdId adId =>
      rw [next, afterFindMaterialByAdId]
      split
      · exact orderly.update orderly_filled
      · exact orderly
  | findMaterialById adId adMId classType =>
      rw [next, afterFindMaterialById]
      split
      · exact orderly
      · split
        · exact orderly
        · rename_i value found
          refine orderly.update fun entry member row read => ?_
          rcases mem_hset_iff.mp member with ⟨old, _⟩ | rfl
          · exact orderly adId entry old row read
          · cases classType with
            | adMaterialCache =>
                obtain ⟨other, row_found, rfl⟩ :=
                  Option.map_eq_some_iff.mp found
                cases read
                exact (findMaterialById_mem row_found).1
            | mobileMaterial =>
                obtain ⟨other, _, rfl⟩ := Option.map_eq_some_iff.mp found
                cases read
  | editAdPlan edit =>
      rw [next, editAdPlan]
      split
      · exact orderly
      · exact orderly.update orderly_filled
  | editAdMaterial userid adMId form => exact orderly
  | process transition adId =>
      rw [next, process]
      split
      · exact orderly
      · intro other entry member
        have apart : Key.adAllInfo other ≠ .plain adId := by simp
        simp only [Function.update_of_ne apart] at member
        exact orderly other entry member

/-! ## Runs -/

/-- The invariant of the runs that fit. -/
def Coherent (state : State) : Prop :=
  Orderly state ∧ Serves state

theorem coherent_of_empty {first : State}
    (empty : ∀ key, first.cache key = []) : Coherent first := by
  refine ⟨fun adId entry member => ?_, serves_iff.mpr fun adId => .inl ?_⟩
  · rw [empty] at member
    cases member
  · exact empty _

/-- From empty caches on, every list that `findMaterialByAdId` would return
after any step of a run is the one of the database exactly if every step of
the run fits. -/
theorem coherent_run_iff (platform : Platform) {first last : State}
    {events : List Event} (empty : ∀ key, first.cache key = []) :
    Run (fun before event after =>
        Serves after ∧ Step platform before event after) first events last ↔
      Run (fun before event after =>
        Fits platform before event ∧ Step platform before event after)
        first events last := by
  constructor
  · intro served
    refine served.mono_of_invariant ?_ (coherent_of_empty empty)
    rintro before event after ⟨orderly, serves⟩ ⟨now, rfl⟩
    exact ⟨⟨(serves_next_iff orderly serves event).mp now, rfl⟩,
      orderly_next orderly event, now⟩
  · intro fits
    refine fits.mono_of_invariant ?_ (coherent_of_empty empty)
    rintro before event after ⟨orderly, serves⟩ ⟨fit, rfl⟩
    have now := (serves_next_iff orderly serves event).mpr fit
    exact ⟨⟨now, rfl⟩, orderly_next orderly event, now⟩

/-- The advertisement `1` with the material `5` of the user `7`. -/
def oneMaterial : State where
  db :=
    { plan := fun adId =>
        if adId = 1 then some ⟨.M, 2, [material 5], [], fun _ => []⟩ else none
      statCodes := fun _ => ⟨some [], some (text "code"), some []⟩
      clickLinks := fun _ => []
      adMaterial := fun adMId =>
        if adMId = 5 then
          some
            { mType := none
              materialName := none
              materialSize := text "1"
              linkUrl := some (text "old")
              targetUrl := none
              monitorLink := none
              richText := none
              coverFlag := none
              userid := 7
              inUse := true }
        else none
      mapKv := fun _ => some ⟨[], text "300", text "250"⟩ }
  cache := fun _ => []

/-- The hash is filled and has the material. -/
theorem oneMaterial_served :
    ∃ last,
      Run (fun before event after =>
          Serves after ∧ Step asciiPlatform before event after) oneMaterial
        [.findMaterialByAdId 1, .findMaterialById 1 5 .adMaterialCache]
        last := by
  refine ⟨_, (coherent_run_iff asciiPlatform fun _ => rfl).mpr
    (.cons ⟨fun _ => ?_, rfl⟩ (.cons ⟨fun empty => ?_, rfl⟩ (.nil _)))⟩
  · unfold Keyed
    decide +kernel
  · refine absurd empty ?_
    decide +kernel

/-- The form that changes the link of the material. -/
def newLink : MaterialForm where
  mType := none
  materialName := none
  materialSize := text "1"
  linkUrl := some (text "new")
  targetUrl := none
  monitorLink := none
  richText := none
  coverFlag := none

/-- After the hash was filled, neither an edited material nor moved codes are
served, and a material that is found on its own is served without its codes. -/
theorem stale_hashes :
    (∀ key, oneMaterial.cache key = []) ∧
      ∀ events ∈
        [[Event.findMaterialByAdId 1, .editAdMaterial 7 5 newLink],
          [.findMaterialByAdId 1, .process .nhtStat2Nnht 1],
          [.findMaterialById 1 5 .adMaterialCache]],
        ¬ Serves (events.foldl (next asciiPlatform) oneMaterial) := by
  refine ⟨fun _ => rfl, fun events member serves => ?_⟩
  have served : ∀ row ∈
      (events.foldl (next asciiPlatform) oneMaterial).db.view 1,
      row ∈ findMaterialByAdId 1 _
        (events.foldl (next asciiPlatform) oneMaterial) :=
    fun row => (serves 1 _ (List.Perm.refl _) row).mpr
  revert served
  simp only [List.mem_cons, List.not_mem_nil, or_false] at member
  rcases member with rfl | rfl | rfl
  · decide +kernel
  · decide +kernel
  · decide +kernel

end WindowSystem.Adserver.AdMaterialService
