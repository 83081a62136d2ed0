import WindowSystem.Sspserver.AdChoices

/-!
# The answer to a push request

`AdPlanServiceImpl.adRetrieveForVaolanPush` builds the answer from what the
retrieval returns, in all cases in the same way.  The retrieval may have
returned `null`, or a result to which no ad was put because the drawn plan has
no size.  The module says for which requests and plans neither happens.
-/

namespace WindowSystem.Sspserver.PushResult

open WindowSystem.Sspserver.AdChoices
open WindowSystem.Sspserver.AdRetrieval
open WindowSystem.Sspserver.AdSelection
open WindowSystem.Sspserver.JavaRuntime
open WindowSystem.Sspserver.Model

/-! ## The answer -/

/-- The fields of `AdShowPara` that the method sets. -/
structure AdShowPara where
  adAcct : JavaString
  adId : JavaString
  adName : JavaString
  adThrowType : JavaString
  adType : JavaString
  closeType : JavaString
  extLink : JavaString
  height : JavaString
  linkType : JavaString
  ref : JavaString
  userId : JavaString
  width : JavaString
  showFlag : JavaString
  impId : JavaString

/-- `Null2Empt` -/
def null2Empt (src : Option JavaString) : JavaString :=
  src.getD []

/-- The answer for a result of the retrieval; the strings of a result that may
be `null` are empty in the model already, except the id. -/
def showPara (call : Request) (adProperty : AdProperty)
    (impId : JavaString) : AdShowPara where
  adAcct := adProperty.adAcct
  adId := null2Empt adProperty.adId
  adName := adProperty.adName
  adThrowType := adProperty.adThrowType
  adType := call.element.adType
  closeType := adProperty.closeType
  extLink := adProperty.extLink
  height := adProperty.height
  linkType := adProperty.linkType
  ref := adProperty.ref
  userId := adProperty.userId
  width := adProperty.width
  showFlag :=
    if adProperty.hitCause = text "NO" then text "0" else text "1"
  impId := impId

/-- How a call ends: an exception of one of the called methods, the use of
the retrieval's `null`, or an answer. -/
inductive Push where
  | exception
  | nullPointer
  | returned (adShowPara : AdShowPara)

/-- `adRetrieveForVaolanPush`; `impId` is what `genImpressionUUID` returns,
`none` its exception.  The element already holds the map of the minutes. -/
def adRetrieveForVaolanPush (call : Request) (plans : PlanMap)
    (draws : Draws) (impId : Option JavaString) : Push :=
  match (adRetrieveCommonForVaolanPush call plans draws).result with
  | none => .exception
  | some none => .nullPointer
  | some (some adProperty) =>
      match impId with
      | none => .exception
      | some impId => .returned (showPara call adProperty impId)

/-- The ad of the answer is a loaded plan, and its size is the one of the
plan; neither is empty. -/
structure Shown (plans : PlanMap) (para : AdShowPara) : Prop where
  adId : para.adId ≠ []
  width : para.width ≠ []
  height : para.height ≠ []
  loaded : ∃ advPlan ∈ plans.plans, advPlan.advId = para.adId ∧
    ∃ rest, getAdPlanSize advPlan =
      some (para.width :: para.height :: rest)

/-- No draws lead to the use of `null`, and an answer that says that there is
an ad has one. -/
structure WellFormed (call : Request) (plans : PlanMap) : Prop where
  nullPointer : ∀ draws impId,
    adRetrieveForVaolanPush call plans draws impId ≠ .nullPointer
  shown : ∀ {draws impId para},
    adRetrieveForVaolanPush call plans draws impId = .returned para →
      para.showFlag = text "1" → Shown plans para

/-- The plan has a size, and if it has two parts, they are not empty. -/
structure Sized (advPlan : AdvPlan) : Prop where
  present : getAdPlanSize advPlan ≠ none
  parts : ∀ {width height rest},
    getAdPlanSize advPlan = some (width :: height :: rest) →
      width ≠ [] ∧ height ≠ []

/-- A Baidu request has a plan, and the plans that can be drawn have a
size. -/
structure Servable (call : Request) (plans : PlanMap) : Prop where
  baidu : call.element.type = text "5" →
    ∃ adClass, Allowed call adClass ∧ ¬ ClassEmpty call plans adClass
  drawable {adClass : AdClass} {advPlan : AdvPlan} :
    Reached call plans adClass → Readable call adClass →
      VizuryReady call plans adClass → Eligible call plans advPlan →
        InClass call advPlan adClass → Sized advPlan

/-! ## The results of the retrieval -/

section Results

variable {call : Request} {plans : PlanMap} {lists : Candidates}
  {draws : Draws} {adClass : AdClass} {advPlan : AdvPlan}
  {adProperty result : AdProperty}

/-- The result says that there is an ad; it has the plan's id and size, or
nothing because the plan has no size. -/
structure Put (advPlan : AdvPlan) (result : AdProperty) : Prop where
  hitCause : result.hitCause ≠ text "NO"
  content : (getAdPlanSize advPlan = none ∧ result.adId = none) ∨
    (result.adId = some advPlan.advId ∧ ∃ rest,
      getAdPlanSize advPlan = some (result.width :: result.height :: rest))

theorem put_deliver {adThrowType hitCause : JavaString}
    (nothing : adProperty.adId = none)
    (before : adProperty.hitCause ≠ text "NO")
    (after : hitCause ≠ text "NO")
    (delivered : deliver adProperty advPlan advPlan.advId adThrowType
      hitCause = some result) : Put advPlan result := by
  rw [deliver] at delivered
  split at delivered
  · rename_i missing
    cases delivered
    exact ⟨before, .inl ⟨missing, nothing⟩⟩
  · rename_i width height rest sized
    cases delivered
    exact ⟨after, .inr ⟨rfl, rest, sized⟩⟩
  · cases delivered

/-- Asking Vizury leaves the ad of a result as it is. -/
theorem processVizury_keeps {list remaining : List AdvPlan}
    (asked : processVizury plans list adProperty =
      some (result, remaining)) :
    result.adId = adProperty.adId ∧ result.width = adProperty.width ∧
      result.height = adProperty.height ∧
        result.hitCause = adProperty.hitCause := by
  rw [processVizury] at asked
  split_ifs at asked
  · obtain ⟨vizury, _, asked⟩ := Option.bind_eq_some_iff.mp asked
    split at asked
    · cases asked
      exact ⟨rfl, rfl, rfl, rfl⟩
    · cases asked
  · cases asked
    exact ⟨rfl, rfl, rfl, rfl⟩

theorem Put.processVizury {list remaining : List AdvPlan}
    (put : Put advPlan adProperty)
    (asked : AdRetrieval.processVizury plans list adProperty =
      some (result, remaining)) : Put advPlan result := by
  obtain ⟨adId, width, height, hitCause⟩ := processVizury_keeps asked
  constructor
  case hitCause =>
    rw [hitCause]
    exact put.hitCause
  case content =>
    rw [adId, width, height]
    exact put.content

/-- Every drawn plan is put into the result. -/
theorem put_finish
    (finished : finish call plans lists advPlan adClass = some result) :
    Put advPlan result := by
  have plain : ∀ {adThrowType hitCause : JavaString} {result : AdProperty},
      hitCause ≠ text "NO" →
        deliver (initialProperty call) advPlan advPlan.advId adThrowType
          hitCause = some result → Put advPlan result := by
    intro adThrowType hitCause result after delivered
    have before : (initialProperty call).hitCause ≠ text "NO" := by
      show ([] : JavaString) ≠ text "NO"
      decide
    exact put_deliver rfl before after delivered
  cases adClass with
  | adAcct => exact plain (by decide) finished
  | url => exact plain (by decide) finished
  | ip => exact plain (by decide) finished
  | jsjt => exact plain (by decide) finished
  | crowd => exact plain (by decide) finished
  | host =>
      obtain ⟨delivered, put, asked⟩ := Option.bind_eq_some_iff.mp finished
      obtain ⟨⟨same, remaining⟩, vizury, rfl⟩ :=
        Option.map_eq_some_iff.mp asked
      exact (plain (by decide) put).processVizury vizury
  | mangtou =>
      obtain ⟨⟨property, remaining⟩, asked, put⟩ :=
        Option.bind_eq_some_iff.mp finished
      have nothing :
          ({ property with hitCause := text "VL_MT" } : AdProperty).adId =
            none := (processVizury_keeps asked).1
      have blind : text "VL_MT" ≠ text "NO" := by decide
      exact put_deliver nothing blind blind put

/-- A drawn plan whose size can be delivered, or that has none, gives a
result when Vizury can be asked. -/
theorem exists_finish (filled : Filled call plans lists)
    (ready : VizuryReady call plans adClass)
    (delivers : Delivers advPlan) :
    ∃ result, finish call plans lists advPlan adClass = some result := by
  have plain : ∀ (adProperty : AdProperty) (adThrowType hitCause),
      ∃ result, deliver adProperty advPlan advPlan.advId adThrowType
        hitCause = some result :=
    fun _ _ _ => Option.isSome_iff_exists.mp
      (deliver_isSome_iff.mpr delivers)
  cases adClass with
  | adAcct => exact plain _ _ _
  | url => exact plain _ _ _
  | ip => exact plain _ _ _
  | jsjt => exact plain _ _ _
  | crowd => exact plain _ _ _
  | host =>
      obtain ⟨delivered, put⟩ :=
        plain (initialProperty call) (text "2") (text "HOST_TARGET")
      obtain ⟨asked, vizury⟩ := Option.isSome_iff_exists.mp
        ((vizuryReady_host_iff filled delivered).mpr ready)
      refine ⟨asked.1, ?_⟩
      rw [finish, put, Option.bind_some, vizury]
      rfl
  | mangtou =>
      obtain ⟨asked, vizury⟩ := Option.isSome_iff_exists.mp
        ((vizuryReady_mangtou_iff filled (initialProperty call)).mpr ready)
      obtain ⟨result, put⟩ :=
        plain { asked.1 with hitCause := text "VL_MT" } (text "2")
          (text "VL_MT")
      refine ⟨result, ?_⟩
      rw [finish, vizury]
      exact put

/-- Vizury can be asked when a drawn plan gave a result. -/
theorem vizuryReady_of_finish (filled : Filled call plans lists)
    (finished : finish call plans lists advPlan adClass = some result) :
    VizuryReady call plans adClass := by
  cases adClass with
  | adAcct => trivial
  | url => trivial
  | ip => trivial
  | jsjt => trivial
  | crowd => trivial
  | host =>
      obtain ⟨delivered, _, asked⟩ := Option.bind_eq_some_iff.mp finished
      obtain ⟨pair, vizury, _⟩ := Option.map_eq_some_iff.mp asked
      rw [← vizuryReady_host_iff filled delivered, vizury]
      rfl
  | mangtou =>
      obtain ⟨pair, vizury, _⟩ := Option.bind_eq_some_iff.mp finished
      rw [← vizuryReady_mangtou_iff filled (initialProperty call), vizury]
      rfl

/-- A Baidu request without a plan in the classes it is given gets `null`. -/
theorem choose_baidu_null (filled : Filled call plans lists)
    (numbered : Numbered call plans) (baidu : call.element.type = text "5")
    (empty : ∀ adClass, Allowed call adClass →
      ClassEmpty call plans adClass) (draws : Draws) :
    choose call plans draws lists = some none := by
  have allowed : ∀ adClass : AdClass, adClass.rank ≤ AdClass.jsjt.rank →
      ClassEmpty call plans adClass :=
    fun adClass early => empty adClass fun _ => early
  have reached : Reached call plans .jsjt :=
    ⟨fun _ => Nat.le_refl _, fun earlier before =>
      allowed earlier (Nat.le_of_lt before)⟩
  have notRedis : call.element.type ≠ text "4" := by
    rw [baidu]
    decide
  obtain ⟨standby, asked⟩ :
      ∃ standby, jsjtStandbyAdIds call = some standby := by
    rw [jsjtStandbyAdIds, if_neg notRedis]
    split_ifs
    · exact ⟨_, rfl⟩
    · exact ⟨_, rfl⟩
  rw [choose_eq_jsjtBranch filled reached (Nat.le_refl _), jsjtBranch, asked,
    Option.bind_some, draw_eq_none_of_ids draws.jsjt
      (filled.mem_canPostAdIds numbered asked) (allowed .jsjt (Nat.le_refl _)),
    Option.bind_none]
  dsimp only
  rw [if_pos baidu]

/-- When all classes are empty and the request is no Baidu request, a result
says that there is no ad. -/
theorem choose_nothing (filled : Filled call plans lists)
    (numbered : Numbered call plans) (other : call.element.type ≠ text "5")
    (empty : ∀ adClass, ClassEmpty call plans adClass)
    {outcome : Option AdProperty}
    (chosen : choose call plans draws lists = some outcome) :
    ∃ result, outcome = some result ∧ result.hitCause = text "NO" := by
  have reached : Reached call plans .mangtou :=
    ⟨fun baidu => absurd baidu other, fun earlier _ => empty earlier⟩
  by_cases readable : Readable call .mangtou
  · rw [choose_eq_blind filled numbered reached readable] at chosen
    obtain ⟨result, answered, rfl⟩ := Option.map_eq_some_iff.mp chosen
    obtain ⟨⟨property, remaining⟩, asked, answered⟩ :=
      Option.bind_eq_some_iff.mp answered
    have nothing : draw draws.mangtou remaining = none := by
      rw [remaining_processVizury asked]
      exact draw_eq_none_of_members _ (mem_remaining filled) (empty _)
    dsimp only at answered
    rw [nothing] at answered
    cases answered
    exact ⟨_, rfl, rfl⟩
  · rw [choose_unreadable filled numbered reached readable draws] at chosen
    cases chosen

/-- A result of a class with a plan is the one of a plan that can be drawn. -/
theorem exists_put_of_chosen (filled : Filled call plans lists)
    (numbered : Numbered call plans) (reached : Reached call plans adClass)
    (nonempty : ¬ ClassEmpty call plans adClass)
    {outcome : Option AdProperty}
    (chosen : choose call plans draws lists = some outcome) :
    ∃ result advPlan, outcome = some result ∧ Put advPlan result ∧
      Readable call adClass ∧ VizuryReady call plans adClass ∧
        Eligible call plans advPlan ∧ InClass call advPlan adClass := by
  obtain ⟨advPlan, drawn, eligible, inClass⟩ :=
    exists_drawn filled numbered draws nonempty
  by_cases readable : Readable call adClass
  · rw [choose_eq_finish filled numbered reached readable eligible inClass
      drawn] at chosen
    obtain ⟨result, finished, rfl⟩ := Option.map_eq_some_iff.mp chosen
    exact ⟨result, advPlan, rfl, put_finish finished, readable,
      vizuryReady_of_finish filled finished, eligible, inClass⟩
  · rw [choose_unreadable filled numbered reached readable draws] at chosen
    cases chosen

end Results

/-! ## Well-formed answers -/

section Answers

variable {call : Request} {plans : PlanMap} {lists : Candidates}
  {adClass : AdClass} {advPlan : AdvPlan}

theorem push_eq_nullPointer_iff {draws : Draws}
    {impId : Option JavaString} :
    adRetrieveForVaolanPush call plans draws impId = .nullPointer ↔
      (adRetrieveCommonForVaolanPush call plans draws).result =
        some none := by
  rw [adRetrieveForVaolanPush]
  cases (adRetrieveCommonForVaolanPush call plans draws).result with
  | none => simp
  | some outcome =>
      cases outcome with
      | none => simp
      | some result => cases impId <;> simp

theorem push_eq_returned_iff {draws : Draws} {impId : Option JavaString}
    {para : AdShowPara} :
    adRetrieveForVaolanPush call plans draws impId = .returned para ↔
      ∃ result impression, impId = some impression ∧
        (adRetrieveCommonForVaolanPush call plans draws).result =
          some (some result) ∧ showPara call result impression = para := by
  rw [adRetrieveForVaolanPush]
  cases (adRetrieveCommonForVaolanPush call plans draws).result with
  | none => simp
  | some outcome =>
      cases outcome with
      | none => simp
      | some result => cases impId <;> simp

theorem showFlag_eq_iff {adProperty : AdProperty} {impId : JavaString} :
    (showPara call adProperty impId).showFlag = text "1" ↔
      adProperty.hitCause ≠ text "NO" := by
  rw [showPara]
  dsimp only
  split_ifs with none
  · simp only [none, ne_eq, not_true_eq_false, iff_false]
    decide
  · simp [none]

theorem ne_nil_of_numbered (numbered : Numbered call plans)
    (loaded : advPlan ∈ plans.plans) : advPlan.advId ≠ [] := by
  intro empty
  have notBlank := (numbered advPlan loaded).1
  rw [empty] at notBlank
  cases notBlank

/-- The answer for a plan that can be drawn has an ad exactly when the plan
has a size. -/
theorem shown_of_sized (numbered : Numbered call plans)
    (loaded : advPlan ∈ plans.plans) {result : AdProperty}
    (put : Put advPlan result) (sized : Sized advPlan)
    (impId : JavaString) : Shown plans (showPara call result impId) := by
  rcases put.content with ⟨missing, _⟩ | ⟨shown, rest, size⟩
  · exact absurd missing sized.present
  · have named : (showPara call result impId).adId = advPlan.advId := by
      rw [showPara, shown]
      rfl
    obtain ⟨width, height⟩ := sized.parts size
    constructor
    case adId =>
      rw [named]
      exact ne_nil_of_numbered numbered loaded
    case width => exact width
    case height => exact height
    case loaded => exact ⟨advPlan, loaded, named.symm, rest, size⟩

theorem sized_of_shown {result : AdProperty} (put : Put advPlan result)
    {impId : JavaString} (shown : Shown plans (showPara call result impId)) :
    Sized advPlan := by
  rcases put.content with ⟨_, nothing⟩ | ⟨_, rest, size⟩
  · refine absurd ?_ shown.adId
    rw [showPara, nothing]
    rfl
  · constructor
    case present => simp [size]
    case parts =>
      intro width height more same
      rw [size] at same
      cases same
      exact ⟨shown.width, shown.height⟩

/-- The plan of well-formed answers has a size. -/
theorem WellFormed.sized (wellFormed : WellFormed call plans)
    (numbered : Numbered call plans) (responds : Responds call plans)
    (reached : Reached call plans adClass) (readable : Readable call adClass)
    (ready : VizuryReady call plans adClass)
    (eligible : Eligible call plans advPlan)
    (inClass : InClass call advPlan adClass) : Sized advPlan := by
  obtain ⟨lists, filled, equal⟩ := exists_filled responds
  by_cases delivers : Delivers advPlan
  · obtain ⟨draws, drawn⟩ := exists_draws filled numbered eligible inClass
    obtain ⟨result, finished⟩ := exists_finish filled ready delivers
    have put := put_finish finished
    have returned : (adRetrieveCommonForVaolanPush call plans draws).result =
        some (some result) := by
      rw [equal, choose_eq_finish filled numbered reached readable eligible
        inClass drawn, finished, Option.map_some]
    have shown : Shown plans (showPara call result []) :=
      wellFormed.shown
        (push_eq_returned_iff.mpr ⟨result, [], rfl, returned, rfl⟩)
        (showFlag_eq_iff.mpr put.hitCause)
    exact sized_of_shown put shown
  · rw [Delivers, not_or] at delivers
    constructor
    case present => exact delivers.1
    case parts =>
      intro width height rest size
      exact absurd ⟨width, height, rest, size⟩ delivers.2

/-- The answers to a request whose plans can be filtered. -/
theorem Servable.outcome (servable : Servable call plans)
    (numbered : Numbered call plans) {draws : Draws}
    {outcome : Option AdProperty}
    (returned : (adRetrieveCommonForVaolanPush call plans draws).result =
      some outcome) :
    ∃ result, outcome = some result ∧
      (result.hitCause = text "NO" ∨ ∃ advPlan ∈ plans.plans,
        Put advPlan result ∧ Sized advPlan) := by
  obtain ⟨lists, filled, equal⟩ :=
    exists_filled (responds_of_returned returned)
  rw [equal] at returned
  rcases exists_reached_or_empty call plans with
    ⟨adClass, reached, nonempty⟩ | empty
  · obtain ⟨result, advPlan, rfl, put, readable, ready, eligible, inClass⟩ :=
      exists_put_of_chosen filled numbered reached nonempty returned
    exact ⟨result, rfl, .inr ⟨advPlan, eligible.loaded, put,
      servable.drawable reached readable ready eligible inClass⟩⟩
  · have other : call.element.type ≠ text "5" := by
      intro baidu
      obtain ⟨adClass, allowed, nonempty⟩ := servable.baidu baidu
      exact nonempty (empty adClass allowed)
    obtain ⟨result, rfl, nothing⟩ := choose_nothing filled numbered other
      (fun adClass => empty adClass fun baidu => absurd baidu other) returned
    exact ⟨result, rfl, .inl nothing⟩

end Answers

/--
For which requests and plans every answer is well formed.

When filtering a plan ends in an exception there is no answer.  The ids of the
plans are those of the table `ad_instance`, which are numbers.
-/
theorem wellFormed_iff (call : Request) (plans : PlanMap)
    (numbered : Numbered call plans) :
    WellFormed call plans ↔
      (Responds call plans → Servable call plans) := by
  constructor
  · intro wellFormed responds
    constructor
    case baidu =>
      intro baidu
      by_contra nothing
      obtain ⟨lists, filled, equal⟩ := exists_filled responds
      have empty : ∀ adClass, Allowed call adClass →
          ClassEmpty call plans adClass := by
        intro adClass allowed
        by_contra nonempty
        exact nothing ⟨adClass, allowed, nonempty⟩
      apply wellFormed.nullPointer firstDraws none
      rw [push_eq_nullPointer_iff, equal]
      exact choose_baidu_null filled numbered baidu empty firstDraws
    case drawable =>
      intro adClass advPlan reached readable ready eligible inClass
      exact wellFormed.sized numbered responds reached readable ready
        eligible inClass
  · intro condition
    constructor
    case nullPointer =>
      intro draws impId used
      rw [push_eq_nullPointer_iff] at used
      obtain ⟨result, equal, _⟩ :=
        (condition (responds_of_returned used)).outcome numbered used
      cases equal
    case shown =>
      intro draws impId para answered flag
      obtain ⟨result, impression, rfl, returned, rfl⟩ :=
        push_eq_returned_iff.mp answered
      obtain ⟨same, equal, content⟩ :=
        (condition (responds_of_returned returned)).outcome numbered returned
      cases equal
      rcases content with nothing | ⟨advPlan, loaded, put, sized⟩
      · exact absurd nothing (showFlag_eq_iff.mp flag)
      · exact shown_of_sized numbered loaded put sized impression

/-- The plans of `accountMap` and a request that they are aimed at. -/
theorem wellFormed_iff_account :
    WellFormed (sampleCall (sampleElement "4" "")) accountMap ↔
      (Responds (sampleCall (sampleElement "4" "")) accountMap →
        Servable (sampleCall (sampleElement "4" "")) accountMap) := by
  have numbered :
      Numbered (sampleCall (sampleElement "4" "")) accountMap := by
    apply numbered_digits
    rw [accountMap, plans_planMap]
    decide +kernel
  exact wellFormed_iff _ accountMap numbered

/-- A blind plan with materials of its own, none of which is loaded. -/
def bareMap : PlanMap :=
  planMap [{ samplePlan "11" with adMaterials := [] }] (by decide +kernel)

/-- A Baidu request for an ad that is not loaded ends with the use of `null`,
and the plan without materials is answered as an ad without an id. -/
theorem not_wellFormed_baidu :
    ¬ WellFormed (sampleCall (sampleElement "5" "12")) bareMap ∧
      ¬ WellFormed (sampleCall (sampleElement "" "")) bareMap := by
  constructor
  · intro wellFormed
    apply wellFormed.nullPointer firstDraws none
    rw [push_eq_nullPointer_iff]
    decide +kernel
  · intro wellFormed
    have shown :
        ((adRetrieveCommonForVaolanPush (sampleCall (sampleElement "" ""))
          bareMap firstDraws).result.join.any fun result =>
            result.adId = none ∧ result.hitCause ≠ text "NO") = true := by
      decide +kernel
    obtain ⟨result, returned, content⟩ :=
      Option.any_eq_true _ _ |>.mp shown
    have returned := Option.join_eq_some_iff.mp returned
    obtain ⟨nothing, flag⟩ := of_decide_eq_true content
    have answer := wellFormed.shown
      (push_eq_returned_iff.mpr ⟨result, [], rfl, returned, rfl⟩)
      (showFlag_eq_iff.mpr flag)
    refine answer.adId ?_
    rw [showPara, nothing]
    rfl

end WindowSystem.Sspserver.PushResult
