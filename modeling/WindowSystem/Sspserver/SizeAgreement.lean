import WindowSystem.Library.Tokens
import WindowSystem.Sspserver.AdChoices

/-!
# The size that is returned

`judageAdPlanSize` compares the requested size with every material of a plan,
whatever the type of its link is.  `getAdPlanSize` takes the size that is
returned from the first material, or from the external link of the plan.  The
module says for which plans the two are about the same size.
-/

namespace WindowSystem.Sspserver.SizeAgreement

open WindowSystem.Library.Tokens (not_mem_of_mem_splitOn)
open WindowSystem.Sspserver.AdChoices
open WindowSystem.Sspserver.AdRetrieval
open WindowSystem.Sspserver.AdSelection
open WindowSystem.Sspserver.JavaRuntime
open WindowSystem.Sspserver.Model

/-! ## Whose size is returned -/

/-- The sizes in a result are those of the plans that it names. -/
structure OwnSizes (plans : PlanMap) (result : AdProperty) : Prop where
  shown {adId : JavaString} : result.adId = some adId →
    ∃ advPlan rest, plans.get adId = some advPlan ∧
      getAdPlanSize advPlan = some (result.width :: result.height :: rest)
  vizury {adId : JavaString} : result.vizuryAdId = some adId →
    ∃ advPlan rest, plans.get adId = some advPlan ∧
      getAdPlanSize advPlan =
        some (result.vizuryWidth :: result.vizuryHeight :: rest)

section Returned

variable {call : Request} {plans : PlanMap} {lists : Candidates}
  {draws : Draws} {advPlan : AdvPlan} {adProperty result : AdProperty}

theorem ownSizes_initialProperty :
    OwnSizes plans (initialProperty call) where
  shown equal := by cases equal
  vizury equal := by cases equal

theorem OwnSizes.deliver {adId adThrowType hitCause : JavaString}
    (own : OwnSizes plans adProperty)
    (found : plans.get adId = some advPlan)
    (delivered : AdRetrieval.deliver adProperty advPlan adId adThrowType
      hitCause = some result) : OwnSizes plans result := by
  rw [AdRetrieval.deliver] at delivered
  split at delivered
  · cases delivered
    exact own
  · rename_i width height rest sized
    cases delivered
    constructor
    case shown =>
      intro adId equal
      cases equal
      exact ⟨advPlan, rest, found, sized⟩
    case vizury => exact own.vizury
  · cases delivered

theorem OwnSizes.processVizury {list remaining : List AdvPlan}
    (own : OwnSizes plans adProperty)
    (asked : AdRetrieval.processVizury plans list adProperty =
      some (result, remaining)) : OwnSizes plans result := by
  rw [AdRetrieval.processVizury] at asked
  split_ifs at asked with present
  · obtain ⟨vizury, found, asked⟩ := Option.bind_eq_some_iff.mp asked
    split at asked
    · rename_i width height rest sized
      cases asked
      constructor
      case shown => exact own.shown
      case vizury =>
        intro adId equal
        cases equal
        exact ⟨vizury, rest, found, sized⟩
    · cases asked
  · cases asked
    exact ⟨own.shown, own.vizury⟩

/-- Asking Vizury leaves a part of the list. -/
theorem mem_of_mem_remaining {list remaining : List AdvPlan}
    (asked : AdRetrieval.processVizury plans list adProperty =
      some (result, remaining)) (member : advPlan ∈ remaining) :
    advPlan ∈ list := by
  rw [remaining_processVizury asked] at member
  exact List.mem_of_mem_eraseP member

theorem OwnSizes.notVaolanAccuratePv {random : Nat}
    (own : OwnSizes plans adProperty) (filled : Filled call plans lists)
    (returned : AdRetrieval.notVaolanAccuratePv plans random
      lists.vaolanMangtouAdIds adProperty = some result) :
    OwnSizes plans result := by
  obtain ⟨⟨asked, remaining⟩, answered, returned⟩ :=
    Option.bind_eq_some_iff.mp returned
  have ownAsked := own.processVizury answered
  dsimp only at returned
  cases drawn : draw random remaining with
  | none =>
      rw [drawn] at returned
      cases returned
      exact ⟨ownAsked.shown, ownAsked.vizury⟩
  | some adv =>
      rw [drawn] at returned
      have member := mem_of_mem_remaining answered (draw_mem drawn)
      have blind :
          OwnSizes plans { asked with hitCause := text "VL_MT" } :=
        ⟨ownAsked.shown, ownAsked.vizury⟩
      exact blind.deliver
        (get_eligible (filled.mem_mangtou.mp member).1) returned

theorem OwnSizes.crowdBranch {crowds : List JavaString}
    (own : OwnSizes plans adProperty) (filled : Filled call plans lists)
    (returned : AdRetrieval.crowdBranch call plans draws crowds lists
      adProperty = some result) : OwnSizes plans result := by
  rw [AdRetrieval.crowdBranch] at returned
  split at returned
  · exact own.notVaolanAccuratePv filled returned
  · split at returned
    · exact own.notVaolanAccuratePv filled returned
    · rename_i advPlan found
      split_ifs at returned
      · exact own.deliver found returned
      · exact own.notVaolanAccuratePv filled returned

theorem OwnSizes.laterBranches (own : OwnSizes plans adProperty)
    (filled : Filled call plans lists)
    (returned : AdRetrieval.laterBranches call plans draws lists
      adProperty = some result) : OwnSizes plans result := by
  rw [AdRetrieval.laterBranches] at returned
  split at returned
  · rename_i adv drawn
    obtain ⟨delivered, ownSize, returned⟩ :=
      Option.bind_eq_some_iff.mp returned
    obtain ⟨⟨asked, remaining⟩, answered, rfl⟩ :=
      Option.map_eq_some_iff.mp returned
    have eligible := (filled.mem_host.mp (draw_mem drawn)).1
    exact (own.deliver (get_eligible eligible) ownSize).processVizury
      answered
  · obtain ⟨crowds, _, returned⟩ := Option.bind_eq_some_iff.mp returned
    split_ifs at returned
    · exact own.notVaolanAccuratePv filled returned
    · exact own.crowdBranch filled returned

theorem OwnSizes.jsjtBranch (own : OwnSizes plans adProperty)
    (filled : Filled call plans lists)
    (returned : AdRetrieval.jsjtBranch call plans draws lists adProperty =
      some (some result)) : OwnSizes plans result := by
  obtain ⟨standby, _, returned⟩ := Option.bind_eq_some_iff.mp returned
  split at returned
  · rename_i suitableAdId advPlan chosen
    obtain ⟨adId, _, found⟩ := Option.bind_eq_some_iff.mp chosen
    obtain ⟨plan, found, equal⟩ := Option.map_eq_some_iff.mp found
    cases equal
    obtain ⟨delivered, ownSize, equal⟩ := Option.map_eq_some_iff.mp returned
    cases equal
    exact own.deliver found ownSize
  · split_ifs at returned
    · cases returned
    · obtain ⟨later, returned, equal⟩ := Option.map_eq_some_iff.mp returned
      cases equal
      exact own.laterBranches filled returned

/-- The sizes of every result are those of the plans that it names. -/
theorem ownSizes_of_returned
    (returned : (adRetrieveCommonForVaolanPush call plans draws).result =
      some (some result)) : OwnSizes plans result := by
  obtain ⟨lists, finished, returned⟩ := Option.bind_eq_some_iff.mp returned
  have filled : Filled call plans lists := sorted_filterLoop finished
  have own := @ownSizes_initialProperty call plans
  have drawn : ∀ {adv : AdvPlan} {hitCause : JavaString},
      Eligible call plans adv →
      (deliver (initialProperty call) adv adv.advId (text "1")
        hitCause).map some = some (some result) →
      OwnSizes plans result := by
    intro adv hitCause eligible returned
    obtain ⟨delivered, ownSize, equal⟩ := Option.map_eq_some_iff.mp returned
    cases equal
    exact own.deliver (get_eligible eligible) ownSize
  rw [choose] at returned
  split at returned
  · rename_i adv one
    exact drawn (filled.mem_adAcct.mp (draw_mem one)).1 returned
  · split at returned
    · rename_i adv one
      exact drawn (filled.mem_url.mp (draw_mem one)).1 returned
    · split at returned
      · rename_i adv one
        exact drawn (filled.mem_ip.mp (draw_mem one)).1 returned
      · exact own.jsjtBranch filled returned

end Returned

/-! ## When it is the requested one -/

/-- The request asks for a size. -/
def Requested (call : Request) : Prop :=
  isNotBlank call.platform call.element.width = true ∧
    isNotBlank call.platform call.element.height = true

/-- The size that is returned for the plan is the requested one: the one of
the external link, or, for a plan with materials, a size that can be read
back. -/
def SameSize (call : Request) (advPlan : AdvPlan) : Prop :=
  if advPlan.adInstance.linkType = text "M" then
    'x' ∉ call.element.width ∧ 'x' ∉ call.element.height
  else
    advPlan.adExtLink.width = call.element.width ∧
      advPlan.adExtLink.height = call.element.height

instance (call : Request) (advPlan : AdvPlan) :
    Decidable (SameSize call advPlan) := by
  unfold SameSize
  infer_instance

theorem ne_nil_of_isNotBlank {platform : Platform} {string : JavaString}
    (notBlank : isNotBlank platform string = true) : string ≠ [] := by
  rintro rfl
  cases notBlank

/-- A size is read back exactly when neither of its parts has an `x`. -/
theorem split_size_iff {width height first second : JavaString}
    {rest : List JavaString} (nonempty : height ≠ [])
    (parts : split 'x' (width ++ text "x" ++ height) =
      first :: second :: rest) :
    first = width ∧ second = height ↔ 'x' ∉ width ∧ 'x' ∉ height := by
  have separated : width ++ text "x" ++ height = width ++ 'x' :: height := by
    rw [List.append_assoc]
    rfl
  have inside : 'x' ∈ width ++ text "x" ++ height := by
    rw [separated]
    exact List.mem_append_right _ List.mem_cons_self
  rw [split, if_pos inside, separated] at parts
  constructor
  · have free : ∀ part ∈ first :: second :: rest, 'x' ∉ part := by
      intro part member
      rw [← parts, List.mem_reverse] at member
      exact not_mem_of_mem_splitOn
        (List.mem_reverse.mp ((List.dropWhile_sublist _).mem member))
    rintro ⟨rfl, rfl⟩
    exact ⟨free _ List.mem_cons_self,
      free _ (List.mem_cons_of_mem _ List.mem_cons_self)⟩
  · rintro ⟨noFirst, noSecond⟩
    rw [List.splitOn_append_cons_self_of_not_mem noFirst,
      List.splitOn_eq_singleton noSecond] at parts
    have shown : [height, width].dropWhile (· = []) = [height, width] :=
      List.dropWhile_cons_of_neg (by simp [nonempty])
    rw [List.reverse_cons, List.reverse_singleton, List.singleton_append,
      shown] at parts
    cases parts
    exact ⟨rfl, rfl⟩

variable {call : Request} {plans : PlanMap} {advPlan : AdvPlan}

/-- The materials of an eligible plan have the requested size. -/
theorem material_of_eligible (requested : Requested call)
    (eligible : Eligible call plans advPlan) {material : AdMaterial}
    (member : material ∈ advPlan.adMaterials) :
    material.materialSizeValue =
      call.element.width ++ text "x" ++ call.element.height := by
  have judged := eligible.size
  rw [sizeFilter, requested.1, requested.2] at judged
  have all : judageAdPlanSize advPlan call.element.width
      call.element.height = true := judged
  rw [judageAdPlanSize, List.all_eq_true] at all
  exact (decide_eq_true_iff.mp (all material member)).symm

/-- What the size of an eligible plan has to do with the requested one. -/
theorem size_iff_sameSize (requested : Requested call)
    (eligible : Eligible call plans advPlan) {width height : JavaString}
    {rest : List JavaString}
    (sized : getAdPlanSize advPlan = some (width :: height :: rest)) :
    width = call.element.width ∧ height = call.element.height ↔
      SameSize call advPlan := by
  rw [getAdPlanSize] at sized
  rw [SameSize]
  by_cases isMaterial : advPlan.adInstance.linkType = text "M"
  · rw [if_pos isMaterial] at sized ⊢
    obtain ⟨material, first, parts⟩ := Option.map_eq_some_iff.mp sized
    rw [material_of_eligible requested eligible
      (List.mem_of_mem_head? first)] at parts
    exact split_size_iff (ne_nil_of_isNotBlank requested.2) parts
  · rw [if_neg isMaterial] at sized ⊢
    split_ifs at sized
    cases sized
    exact Iff.rfl

/-- Every result for a request with a size has this size. -/
def SizesAgree (call : Request) (plans : PlanMap) : Prop :=
  ∀ draws result,
    (adRetrieveCommonForVaolanPush call plans draws).result =
      some (some result) →
    (result.adId ≠ none →
      result.width = call.element.width ∧
        result.height = call.element.height) ∧
    (result.vizuryAdId ≠ none →
      result.vizuryWidth = call.element.width ∧
        result.vizuryHeight = call.element.height)

/-- The plans that can be drawn, and the plan of Vizury where it is asked,
have the requested size also where the returned size is taken from. -/
structure SizesLinked (call : Request) (plans : PlanMap) : Prop where
  candidates {adClass : AdClass} {advPlan : AdvPlan} :
    Responds call plans → Reached call plans adClass →
      Eligible call plans advPlan → InClass call advPlan adClass →
      Readable call adClass → VizuryReady call plans adClass →
      HasSize advPlan → SameSize call advPlan
  vizury {adClass : AdClass} {advPlan : AdvPlan} :
    Responds call plans → VizuryShown call plans advPlan adClass →
      SameSize call advPlan

/-- A plan that is named in a result and its size. -/
theorem sameSize_of_named {adId width height : JavaString}
    (requested : Requested call) (eligible : Eligible call plans advPlan)
    (named : advPlan.advId = adId)
    (own : ∃ plan rest, plans.get adId = some plan ∧
      getAdPlanSize plan = some (width :: height :: rest)) :
    width = call.element.width ∧ height = call.element.height ↔
      SameSize call advPlan := by
  obtain ⟨plan, rest, found, sized⟩ := own
  rw [← named, get_eligible eligible, Option.some_inj] at found
  rw [found] at eligible ⊢
  exact size_iff_sameSize requested eligible sized

/--
For which requests and plans the returned size is always the requested one.

The ids of the plans are those of the table `ad_instance`, which are numbers.
-/
theorem sizesAgree_iff (call : Request) (plans : PlanMap)
    (requested : Requested call) (numbered : Numbered call plans) :
    SizesAgree call plans ↔ SizesLinked call plans := by
  constructor
  · intro agree
    constructor
    case candidates =>
      intro adClass advPlan responds reached eligible inClass readable
        ready sized
      obtain ⟨draws, result, returned, shown⟩ :=
        (shown_iff numbered).mpr ⟨responds, adClass, advPlan, reached,
          eligible, inClass, readable, ready, sized, rfl⟩
      have size := (agree draws result returned).1 (by simp [shown])
      exact (sameSize_of_named requested eligible rfl
        ((ownSizes_of_returned returned).shown shown)).mp size
    case vizury =>
      intro adClass advPlan responds vizury
      obtain ⟨draws, result, returned, shown⟩ :=
        (vizury_shown_iff numbered).mpr
          ⟨responds, adClass, advPlan, vizury, rfl⟩
      have size := (agree draws result returned).2 (by simp [shown])
      exact (sameSize_of_named requested vizury.eligible rfl
        ((ownSizes_of_returned returned).vizury shown)).mp size
  · intro linked draws result returned
    have own := ownSizes_of_returned returned
    constructor
    · intro present
      obtain ⟨adId, shown⟩ := Option.ne_none_iff_exists'.mp present
      obtain ⟨responds, adClass, advPlan, reached, eligible, inClass,
        readable, ready, sized, named⟩ :=
          (shown_iff numbered).mp ⟨draws, result, returned, shown⟩
      exact (sameSize_of_named requested eligible named
        (own.shown shown)).mpr (linked.candidates responds reached eligible
          inClass readable ready sized)
    · intro present
      obtain ⟨adId, shown⟩ := Option.ne_none_iff_exists'.mp present
      obtain ⟨responds, adClass, advPlan, vizury, named⟩ :=
        (vizury_shown_iff numbered).mp ⟨draws, result, returned, shown⟩
      exact (sameSize_of_named requested vizury.eligible named
        (own.vizury shown)).mpr (linked.vizury responds vizury)

/-- A request for the size 300x250. -/
def sizedCall : Request :=
  sampleCall
    { sampleElement "" "" with width := text "300", height := text "250" }

theorem requested_sizedCall : Requested sizedCall := by
  unfold Requested
  decide +kernel

/-- A plan with two materials of the requested size, and one with an external
link of this size. -/
def sizedMap : PlanMap :=
  planMap
    [{ samplePlan "11" with
        adMaterials := [⟨text "300x250"⟩, ⟨text "300x250"⟩] },
      { samplePlan "12" with
        adInstance :=
          { (samplePlan "12").adInstance with linkType := text "E" }
        adMaterials := []
        adExtLink := ⟨[], text "300", text "250"⟩ }]
    (by decide +kernel)

theorem sizesAgree_sizedMap : SizesAgree sizedCall sizedMap := by
  have numbered : Numbered sizedCall sizedMap := by
    apply numbered_digits
    rw [sizedMap, plans_planMap]
    decide +kernel
  have same : ∀ advPlan ∈ sizedMap.plans, SameSize sizedCall advPlan := by
    rw [sizedMap, plans_planMap]
    decide +kernel
  refine (sizesAgree_iff _ sizedMap requested_sizedCall numbered).mpr ?_
  constructor
  case candidates =>
    intro adClass advPlan _ _ eligible _ _ _ _
    exact same advPlan eligible.loaded
  case vizury =>
    intro adClass advPlan _ vizury
    exact same advPlan vizury.eligible.loaded

/-- A plan with an external link of another size and no materials. -/
def linkMap : PlanMap :=
  planMap
    [{ samplePlan "11" with
        adInstance :=
          { (samplePlan "11").adInstance with linkType := text "E" }
        adMaterials := []
        adExtLink := ⟨text "http://example.com", text "640", text "480"⟩ }]
    (by decide +kernel)

/-- The plan is returned with its own size. -/
theorem sizes_linkMap :
    Requested sizedCall ∧
      (∃ result,
        (adRetrieveCommonForVaolanPush sizedCall linkMap
          firstDraws).result = some (some result) ∧
        result.adId = some (text "11") ∧ result.width = text "640" ∧
        result.height = text "480") ∧
      ¬ SizesAgree sizedCall linkMap := by
  have shown :
      ((adRetrieveCommonForVaolanPush sizedCall linkMap
        firstDraws).result.join.any fun result =>
          result.adId = some (text "11") ∧ result.width = text "640" ∧
            result.height = text "480") = true := by
    decide +kernel
  obtain ⟨result, returned, delivered⟩ := Option.any_eq_true _ _ |>.mp shown
  have returned := Option.join_eq_some_iff.mp returned
  obtain ⟨named, width, height⟩ := of_decide_eq_true delivered
  refine ⟨requested_sizedCall,
    ⟨result, returned, named, width, height⟩, fun agree => ?_⟩
  have size := ((agree firstDraws result returned).1 (by simp [named])).1
  rw [width] at size
  revert size
  decide +kernel

end WindowSystem.Sspserver.SizeAgreement
