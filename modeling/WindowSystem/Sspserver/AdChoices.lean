import Mathlib.Order.WellFounded
import WindowSystem.Sspserver.AdSelection

/-!
# What the draws decide

Which class the ad is drawn from does not depend on the draws.  In that class
every plan is drawn by some of them, and the result depends on the drawn plan
only; unless redis has to be asked for the class and does not answer.
-/

namespace WindowSystem.Sspserver.AdChoices

open WindowSystem.Sspserver.AdRetrieval
open WindowSystem.Sspserver.AdSelection
open WindowSystem.Sspserver.Filters (CounterWrite)
open WindowSystem.Sspserver.JavaRuntime
open WindowSystem.Sspserver.Model

/-! ## Draws from a class -/

/-- The draws give the plan when they are made from the class. -/
def Drawn (call : Request) (plans : PlanMap) (lists : Candidates)
    (draws : Draws) (advPlan : AdvPlan) : AdClass → Prop
  | .adAcct => draw draws.adAcct lists.adAcctTargetAdIds = some advPlan
  | .url => draw draws.url lists.urlTargetAdIds = some advPlan
  | .ip => draw draws.ip lists.ipTargetsAdIds = some advPlan
  | .jsjt => ∀ standby, jsjtStandbyAdIds call = some standby →
      draw draws.jsjt (canPostAdIds call standby lists.vaolanAdIds) =
        some advPlan.advId
  | .host => draw draws.host lists.hostTargetAdIds = some advPlan
  | .crowd => ∀ crowds, crowdIds call = some crowds →
      draw draws.crowd (crowdAdIds call plans crowds lists.vaolanAdIds) =
        some advPlan.advId
  | .mangtou =>
      draw draws.mangtou
          (lists.vaolanMangtouAdIds.eraseP fun adv =>
            text "304" = adv.advId) =
        some advPlan

/-- Redis has answered what has to be asked before the class. -/
def Readable (call : Request) (adClass : AdClass) : Prop :=
  (AdClass.jsjt.rank ≤ adClass.rank → (jsjtStandbyAdIds call).isSome) ∧
    (AdClass.crowd.rank ≤ adClass.rank → (crowdIds call).isSome)

/-- The result when a plan of a class was drawn. -/
def finish (call : Request) (plans : PlanMap) (lists : Candidates)
    (advPlan : AdvPlan) : AdClass → Option AdProperty
  | .adAcct =>
      deliver (initialProperty call) advPlan advPlan.advId (text "1")
        (text "AD_TARGET")
  | .url =>
      deliver (initialProperty call) advPlan advPlan.advId (text "1")
        (text "URL_TARGET")
  | .ip =>
      deliver (initialProperty call) advPlan advPlan.advId (text "1")
        (text "IP_TARGET")
  | .jsjt =>
      deliver (initialProperty call) advPlan advPlan.advId (text "1")
        (text "JSJT")
  | .host =>
      (deliver (initialProperty call) advPlan advPlan.advId (text "2")
          (text "HOST_TARGET")).bind fun delivered =>
        (processVizury plans lists.vaolanAdIds delivered).map Prod.fst
  | .crowd =>
      deliver (initialProperty call) advPlan advPlan.advId (text "1")
        (text "OFF_CROWD")
  | .mangtou =>
      (processVizury plans lists.vaolanMangtouAdIds
          (initialProperty call)).bind fun asked =>
        deliver { asked.1 with hitCause := text "VL_MT" } advPlan
          advPlan.advId (text "2") (text "VL_MT")

section Choices

variable {call : Request} {plans : PlanMap} {lists : Candidates}
  {draws : Draws} {advPlan : AdvPlan} {adClass : AdClass}

/-- A list whose members are the plans of a class gives one of them if there
is one. -/
theorem exists_drawn_of_members {list : List AdvPlan} (random : Nat)
    (members : ∀ {advPlan}, advPlan ∈ list ↔
      Eligible call plans advPlan ∧ InClass call advPlan adClass)
    (nonempty : ¬ ClassEmpty call plans adClass) :
    ∃ advPlan, draw random list = some advPlan ∧
      Eligible call plans advPlan ∧ InClass call advPlan adClass := by
  cases drawn : draw random list with
  | none => exact absurd (ClassEmpty.of_draw_eq_none members drawn) nonempty
  | some advPlan =>
      exact ⟨advPlan, rfl, members.mp (draw_mem drawn)⟩

theorem exists_drawn_of_ids {list : List JavaString} (random : Nat)
    (members : ∀ {adId}, adId ∈ list ↔
      ∃ advPlan, Eligible call plans advPlan ∧ advPlan.advId = adId ∧
        InClass call advPlan adClass)
    (nonempty : ¬ ClassEmpty call plans adClass) :
    ∃ advPlan, draw random list = some advPlan.advId ∧
      Eligible call plans advPlan ∧ InClass call advPlan adClass := by
  cases drawn : draw random list with
  | none => exact absurd (ClassEmpty.of_ids members drawn) nonempty
  | some adId =>
      obtain ⟨advPlan, eligible, rfl, inClass⟩ :=
        members.mp (draw_mem drawn)
      exact ⟨advPlan, rfl, eligible, inClass⟩

theorem draw_eq_none_of_members {list : List AdvPlan} (random : Nat)
    (members : ∀ {advPlan}, advPlan ∈ list ↔
      Eligible call plans advPlan ∧ InClass call advPlan adClass)
    (empty : ClassEmpty call plans adClass) : draw random list = none := by
  rw [draw_eq_none_iff, List.eq_nil_iff_forall_not_mem]
  intro advPlan member
  obtain ⟨eligible, inClass⟩ := members.mp member
  exact empty advPlan eligible inClass

theorem draw_eq_none_of_ids {list : List JavaString} (random : Nat)
    (members : ∀ {adId}, adId ∈ list ↔
      ∃ advPlan, Eligible call plans advPlan ∧ advPlan.advId = adId ∧
        InClass call advPlan adClass)
    (empty : ClassEmpty call plans adClass) : draw random list = none := by
  rw [draw_eq_none_iff, List.eq_nil_iff_forall_not_mem]
  intro adId member
  obtain ⟨advPlan, eligible, _, inClass⟩ := members.mp member
  exact empty advPlan eligible inClass

/-- The blind plans without the one of Vizury. -/
theorem mem_remaining (filled : Filled call plans lists) :
    advPlan ∈ lists.vaolanMangtouAdIds.eraseP
        (fun adv => text "304" = adv.advId) ↔
      Eligible call plans advPlan ∧ InClass call advPlan .mangtou := by
  rw [mem_eraseP_advId filled.distinct_mangtou, filled.mem_mangtou,
    and_assoc]
  rfl

theorem exists_standby (inClass : InClass call advPlan .jsjt) :
    ∃ standby, jsjtStandbyAdIds call = some standby := by
  cases asked : jsjtStandbyAdIds call with
  | none =>
      rw [InClass, standbyAdIds, asked] at inClass
      cases inClass
  | some standby => exact ⟨standby, rfl⟩

theorem exists_crowds (inClass : InClass call advPlan .crowd) :
    ∃ crowds, crowdIds call = some crowds := by
  obtain ⟨crowd, _, member⟩ := inClass
  cases asked : crowdIds call with
  | none =>
      rw [userCrowds, asked] at member
      cases member
  | some crowds => exact ⟨crowds, rfl⟩

theorem not_classEmpty_iff : ¬ ClassEmpty call plans adClass ↔
    ∃ advPlan, Eligible call plans advPlan ∧ InClass call advPlan adClass := by
  rw [ClassEmpty]
  push Not
  rfl

/-- The draws give a plan of every class that has one. -/
theorem exists_drawn (filled : Filled call plans lists)
    (numbered : Numbered call plans) (draws : Draws)
    (nonempty : ¬ ClassEmpty call plans adClass) :
    ∃ advPlan, Drawn call plans lists draws advPlan adClass ∧
      Eligible call plans advPlan ∧ InClass call advPlan adClass := by
  cases adClass with
  | adAcct =>
      exact exists_drawn_of_members draws.adAcct filled.mem_adAcct nonempty
  | url => exact exists_drawn_of_members draws.url filled.mem_url nonempty
  | ip => exact exists_drawn_of_members draws.ip filled.mem_ip nonempty
  | host =>
      exact exists_drawn_of_members draws.host filled.mem_host nonempty
  | mangtou =>
      exact exists_drawn_of_members draws.mangtou (mem_remaining filled)
        nonempty
  | jsjt =>
      obtain ⟨_, _, inClass⟩ := not_classEmpty_iff.mp nonempty
      obtain ⟨standby, asked⟩ := exists_standby inClass
      obtain ⟨advPlan, drawn, eligible, inClass⟩ :=
        exists_drawn_of_ids draws.jsjt
          (filled.mem_canPostAdIds numbered asked) nonempty
      refine ⟨advPlan, ?_, eligible, inClass⟩
      intro other equal
      rw [asked] at equal
      cases equal
      exact drawn
  | crowd =>
      obtain ⟨_, _, inClass⟩ := not_classEmpty_iff.mp nonempty
      obtain ⟨crowds, asked⟩ := exists_crowds inClass
      obtain ⟨advPlan, drawn, eligible, inClass⟩ :=
        exists_drawn_of_ids draws.crowd (filled.mem_crowdAdIds asked)
          nonempty
      refine ⟨advPlan, ?_, eligible, inClass⟩
      intro other equal
      rw [asked] at equal
      cases equal
      exact drawn

/-- Every plan of a class is given by some draws. -/
theorem exists_draws (filled : Filled call plans lists)
    (numbered : Numbered call plans) (eligible : Eligible call plans advPlan)
    (inClass : InClass call advPlan adClass) :
    ∃ draws, Drawn call plans lists draws advPlan adClass := by
  cases adClass with
  | adAcct =>
      obtain ⟨random, drawn⟩ :=
        exists_draw (filled.mem_adAcct.mpr ⟨eligible, inClass⟩)
      exact ⟨⟨random, 0, 0, 0, 0, 0, 0⟩, drawn⟩
  | url =>
      obtain ⟨random, drawn⟩ :=
        exists_draw (filled.mem_url.mpr ⟨eligible, inClass⟩)
      exact ⟨⟨0, random, 0, 0, 0, 0, 0⟩, drawn⟩
  | ip =>
      obtain ⟨random, drawn⟩ :=
        exists_draw (filled.mem_ip.mpr ⟨eligible, inClass⟩)
      exact ⟨⟨0, 0, random, 0, 0, 0, 0⟩, drawn⟩
  | host =>
      obtain ⟨random, drawn⟩ :=
        exists_draw (filled.mem_host.mpr ⟨eligible, inClass⟩)
      exact ⟨⟨0, 0, 0, 0, random, 0, 0⟩, drawn⟩
  | mangtou =>
      obtain ⟨random, drawn⟩ :=
        exists_draw ((mem_remaining filled).mpr ⟨eligible, inClass⟩)
      exact ⟨⟨0, 0, 0, 0, 0, 0, random⟩, drawn⟩
  | jsjt =>
      obtain ⟨standby, asked⟩ := exists_standby inClass
      obtain ⟨random, drawn⟩ :=
        exists_draw ((filled.mem_canPostAdIds numbered asked).mpr
          ⟨advPlan, eligible, rfl, inClass⟩)
      refine ⟨⟨0, 0, 0, random, 0, 0, 0⟩, ?_⟩
      intro other equal
      rw [asked] at equal
      cases equal
      exact drawn
  | crowd =>
      obtain ⟨crowds, asked⟩ := exists_crowds inClass
      obtain ⟨random, drawn⟩ :=
        exists_draw ((filled.mem_crowdAdIds asked).mpr
          ⟨advPlan, eligible, rfl, inClass⟩)
      refine ⟨⟨0, 0, 0, 0, 0, random, 0⟩, ?_⟩
      intro other equal
      rw [asked] at equal
      cases equal
      exact drawn

/-! ## The result of a draw -/

theorem choose_eq_jsjtBranch (filled : Filled call plans lists)
    (reached : Reached call plans adClass)
    (late : AdClass.jsjt.rank ≤ adClass.rank) (draws : Draws) :
    choose call plans draws lists =
      jsjtBranch call plans draws lists (initialProperty call) := by
  have noAdAcct : ClassEmpty call plans .adAcct :=
    reached.2 .adAcct (Nat.lt_of_lt_of_le (by decide) late)
  have noUrl : ClassEmpty call plans .url :=
    reached.2 .url (Nat.lt_of_lt_of_le (by decide) late)
  have noIp : ClassEmpty call plans .ip :=
    reached.2 .ip (Nat.lt_of_lt_of_le (by decide) late)
  rw [choose, draw_eq_none_of_members _ filled.mem_adAcct noAdAcct,
    draw_eq_none_of_members _ filled.mem_url noUrl,
    draw_eq_none_of_members _ filled.mem_ip noIp]

theorem jsjtBranch_eq_later (filled : Filled call plans lists)
    (numbered : Numbered call plans) (reached : Reached call plans adClass)
    (late : AdClass.host.rank ≤ adClass.rank) {standby : List JavaString}
    (asked : jsjtStandbyAdIds call = some standby)
    (adProperty : AdProperty) :
    jsjtBranch call plans draws lists adProperty =
      (laterBranches call plans draws lists adProperty).map some := by
  have noJsjt : ClassEmpty call plans .jsjt :=
    reached.2 .jsjt (Nat.lt_of_lt_of_le (by decide) late)
  have notBaidu : call.element.type ≠ text "5" := by
    intro baidu
    have early := reached.1 baidu
    exact absurd (Nat.le_trans late early) (by decide)
  rw [jsjtBranch, asked, Option.bind_some,
    draw_eq_none_of_ids _ (filled.mem_canPostAdIds numbered asked) noJsjt,
    Option.bind_none]
  dsimp only
  rw [if_neg notBaidu]

theorem laterBranches_eq_crowd (filled : Filled call plans lists)
    (reached : Reached call plans adClass)
    (late : AdClass.crowd.rank ≤ adClass.rank)
    (adProperty : AdProperty) :
    laterBranches call plans draws lists adProperty =
      (crowdIds call).bind fun crowdIds =>
        if crowdIds = [] then
          notVaolanAccuratePv plans draws.mangtou lists.vaolanMangtouAdIds
            adProperty
        else crowdBranch call plans draws crowdIds lists adProperty := by
  have noHost : ClassEmpty call plans .host :=
    reached.2 .host (Nat.lt_of_lt_of_le (by decide) late)
  rw [laterBranches, draw_eq_none_of_members _ filled.mem_host noHost]

/-- Without a plan for the crowds of the user there are only blind ads. -/
theorem laterBranches_eq_blind (filled : Filled call plans lists)
    (reached : Reached call plans .mangtou) {crowds : List JavaString}
    (asked : crowdIds call = some crowds) (adProperty : AdProperty) :
    laterBranches call plans draws lists adProperty =
      notVaolanAccuratePv plans draws.mangtou lists.vaolanMangtouAdIds
        adProperty := by
  rw [laterBranches_eq_crowd filled reached (by decide), asked,
    Option.bind_some]
  split_ifs
  · rfl
  · rw [crowdBranch, draw_eq_none_of_ids _ (filled.mem_crowdAdIds asked)
      (reached.2 .crowd (by decide))]

theorem remaining_processVizury {list remaining : List AdvPlan}
    {adProperty result : AdProperty}
    (asked : processVizury plans list adProperty =
      some (result, remaining)) :
    remaining = list.eraseP fun adv => text "304" = adv.advId := by
  rcases processVizury_cases asked with ⟨_, ⟨_, _, erased⟩ | ⟨_, absent, same⟩⟩
  · exact erased
  · rw [same, List.eraseP_of_forall_not]
    intro adv member equal
    exact absent adv member (decide_eq_true_iff.mp equal).symm

/-- A plan that is eligible is found under its id. -/
theorem get_eligible (eligible : Eligible call plans advPlan) :
    plans.get advPlan.advId = some advPlan :=
  PlanMap.get_eq_some_iff.mpr ⟨eligible.loaded, rfl⟩

/-- When only blind ads are left, they are what is chosen from. -/
theorem choose_eq_blind (filled : Filled call plans lists)
    (numbered : Numbered call plans) (reached : Reached call plans .mangtou)
    (readable : Readable call .mangtou) :
    choose call plans draws lists =
      (notVaolanAccuratePv plans draws.mangtou lists.vaolanMangtouAdIds
        (initialProperty call)).map some := by
  obtain ⟨standby, asked⟩ :=
    Option.isSome_iff_exists.mp (readable.1 (by decide))
  obtain ⟨crowds, answered⟩ :=
    Option.isSome_iff_exists.mp (readable.2 (by decide))
  rw [choose_eq_jsjtBranch filled reached (by decide),
    jsjtBranch_eq_later filled numbered reached (by decide) asked,
    laterBranches_eq_blind filled reached answered]

/-- The result depends on the drawn plan of the first class only. -/
theorem choose_eq_finish (filled : Filled call plans lists)
    (numbered : Numbered call plans) (reached : Reached call plans adClass)
    (readable : Readable call adClass)
    (eligible : Eligible call plans advPlan)
    (inClass : InClass call advPlan adClass)
    (drawn : Drawn call plans lists draws advPlan adClass) :
    choose call plans draws lists =
      (finish call plans lists advPlan adClass).map some := by
  cases adClass with
  | adAcct =>
      rw [Drawn] at drawn
      rw [choose, drawn]
      rfl
  | url =>
      rw [Drawn] at drawn
      rw [choose, draw_eq_none_of_members _ filled.mem_adAcct
        (reached.2 .adAcct (by decide)), drawn]
      rfl
  | ip =>
      rw [Drawn] at drawn
      rw [choose, draw_eq_none_of_members _ filled.mem_adAcct
        (reached.2 .adAcct (by decide)),
        draw_eq_none_of_members _ filled.mem_url
          (reached.2 .url (by decide)), drawn]
      rfl
  | jsjt =>
      obtain ⟨standby, asked⟩ := exists_standby inClass
      rw [choose_eq_jsjtBranch filled reached (Nat.le_refl _), jsjtBranch,
        asked, Option.bind_some, drawn standby asked, Option.bind_some,
        get_eligible eligible]
      rfl
  | host =>
      obtain ⟨standby, asked⟩ :=
        Option.isSome_iff_exists.mp (readable.1 (by decide))
      rw [Drawn] at drawn
      rw [choose_eq_jsjtBranch filled reached (by decide),
        jsjtBranch_eq_later filled numbered reached (Nat.le_refl _) asked,
        laterBranches, drawn]
      rfl
  | crowd =>
      obtain ⟨standby, asked⟩ :=
        Option.isSome_iff_exists.mp (readable.1 (by decide))
      obtain ⟨crowds, answered⟩ := exists_crowds inClass
      have matched : (isNotBlank call.platform advPlan.advId &&
          lists.vaolanAdIds.contains advPlan) = true := by
        rw [Bool.and_eq_true, List.contains_iff_mem, filled.mem_vaolan]
        exact ⟨(numbered advPlan eligible.loaded).1, eligible⟩
      have some_crowd : crowds ≠ [] := by
        rintro rfl
        obtain ⟨crowd, _, member⟩ := inClass
        rw [userCrowds, answered] at member
        cases member
      rw [choose_eq_jsjtBranch filled reached (by decide),
        jsjtBranch_eq_later filled numbered reached (by decide) asked,
        laterBranches_eq_crowd filled reached (Nat.le_refl _), answered,
        Option.bind_some, if_neg some_crowd, crowdBranch,
        drawn crowds answered]
      dsimp only
      rw [get_eligible eligible]
      dsimp only
      rw [if_pos matched]
      rfl
  | mangtou =>
      rw [choose_eq_blind filled numbered reached readable,
        notVaolanAccuratePv, finish]
      cases asked : processVizury plans lists.vaolanMangtouAdIds
          (initialProperty call) with
      | none => rfl
      | some asked =>
          rw [Drawn, ← remaining_processVizury asked] at drawn
          dsimp only [Option.bind_some]
          rw [drawn]

/-- Without an answer of redis nothing is returned. -/
theorem choose_unreadable (filled : Filled call plans lists)
    (numbered : Numbered call plans) (reached : Reached call plans adClass)
    (unreadable : ¬ Readable call adClass) (draws : Draws) :
    choose call plans draws lists = none := by
  cases asked : jsjtStandbyAdIds call with
  | none =>
      have late : AdClass.jsjt.rank ≤ adClass.rank := by
        by_contra early
        refine unreadable ⟨fun late => absurd late early, fun late => ?_⟩
        exact absurd (Nat.le_trans (by decide) late) early
      rw [choose_eq_jsjtBranch filled reached late, jsjtBranch, asked]
      rfl
  | some standby =>
      cases answered : crowdIds call with
      | some crowds =>
          refine absurd ⟨fun _ => ?_, fun _ => ?_⟩ unreadable
          · rw [asked]
            rfl
          · rw [answered]
            rfl
      | none =>
          have late : AdClass.crowd.rank ≤ adClass.rank := by
            by_contra early
            refine unreadable ⟨fun _ => ?_, fun late => absurd late early⟩
            rw [asked]
            rfl
          rw [choose_eq_jsjtBranch filled reached
              (Nat.le_trans (by decide) late),
            jsjtBranch_eq_later filled numbered reached
              (Nat.le_trans (by decide) late) asked,
            laterBranches_eq_crowd filled reached late, answered]
          rfl

/-! ## Which plans are shown -/

/-- If Vizury is asked in the class, its plan has a size. -/
def VizuryReady (call : Request) (plans : PlanMap) : AdClass → Prop
  | .host => ∀ vizury, Eligible call plans vizury →
      vizury.advId = text "304" → HasSize vizury
  | .mangtou => ∀ vizury, Eligible call plans vizury →
      isMangtou vizury = true → vizury.advId = text "304" → HasSize vizury
  | _ => True

theorem deliver_shown_iff {adProperty : AdProperty}
    {adThrowType hitCause adId : JavaString}
    (nothing : adProperty.adId = none) :
    (∃ result, deliver adProperty advPlan advPlan.advId adThrowType
        hitCause = some result ∧ result.adId = some adId) ↔
      HasSize advPlan ∧ advPlan.advId = adId := by
  constructor
  · rintro ⟨result, delivered, shown⟩
    rcases deliver_cases delivered with ⟨_, rfl⟩ | ⟨sized, same, _⟩
    · rw [nothing] at shown
      cases shown
    · rw [same] at shown
      exact ⟨sized, Option.some_inj.mp shown⟩
  · rintro ⟨⟨width, height, rest, found⟩, rfl⟩
    rw [deliver, found]
    exact ⟨_, rfl, rfl⟩

/-- Vizury can be asked when its plan, if it is in the list, has a size. -/
theorem processVizury_isSome_iff {list : List AdvPlan}
    (loaded : ∀ adv ∈ list, adv ∈ plans.plans) (adProperty : AdProperty) :
    (processVizury plans list adProperty).isSome ↔
      ∀ vizury ∈ list, vizury.advId = text "304" → HasSize vizury := by
  rw [processVizury]
  split_ifs with present
  · rw [List.any_eq_true] at present
    obtain ⟨adv, member, equal⟩ := present
    have named : adv.advId = text "304" :=
      (decide_eq_true_iff.mp equal).symm
    have found : plans.get (text "304") = some adv :=
      PlanMap.get_eq_some_iff.mpr ⟨loaded adv member, named⟩
    rw [found, Option.bind_some]
    constructor
    · intro returned vizury inside same
      have only : vizury = adv :=
        PlanMap.eq_of_advId (loaded _ inside) (loaded _ member)
          (same.trans named.symm)
      rw [only]
      split at returned
      · rename_i width height rest sized
        exact ⟨width, height, rest, sized⟩
      · cases returned
    · intro sized
      obtain ⟨width, height, rest, size⟩ := sized adv member named
      rw [size]
      rfl
  · rw [Option.isSome_some, eq_self, true_iff]
    intro vizury member named
    refine absurd (List.any_eq_true.mpr ⟨vizury, member, ?_⟩) present
    exact decide_eq_true_iff.mpr named.symm

/-- The plans that passed the filters are plans of the map. -/
theorem loaded_vaolan (filled : Filled call plans lists) :
    ∀ adv ∈ lists.vaolanAdIds, adv ∈ plans.plans :=
  fun _ member => (filled.mem_vaolan.mp member).loaded

/-- The blind plans are plans of the map. -/
theorem loaded_mangtou (filled : Filled call plans lists) :
    ∀ adv ∈ lists.vaolanMangtouAdIds, adv ∈ plans.plans :=
  fun _ member => (filled.mem_mangtou.mp member).1.loaded

theorem vizuryReady_host_iff (filled : Filled call plans lists)
    (adProperty : AdProperty) :
    (processVizury plans lists.vaolanAdIds adProperty).isSome ↔
      VizuryReady call plans .host := by
  rw [processVizury_isSome_iff (loaded_vaolan filled)]
  exact forall_congr' fun _ => by rw [filled.mem_vaolan]

theorem vizuryReady_mangtou_iff (filled : Filled call plans lists)
    (adProperty : AdProperty) :
    (processVizury plans lists.vaolanMangtouAdIds adProperty).isSome ↔
      VizuryReady call plans .mangtou := by
  rw [processVizury_isSome_iff (loaded_mangtou filled)]
  exact forall_congr' fun _ => by rw [filled.mem_mangtou, and_imp]

/-- A plan is shown if it has a size and Vizury can be asked. -/
theorem finish_shown_iff (filled : Filled call plans lists)
    {adId : JavaString} :
    (∃ result, finish call plans lists advPlan adClass = some result ∧
        result.adId = some adId) ↔
      (HasSize advPlan ∧ advPlan.advId = adId) ∧
        VizuryReady call plans adClass := by
  cases adClass with
  | adAcct => exact (deliver_shown_iff rfl).trans (and_iff_left trivial).symm
  | url => exact (deliver_shown_iff rfl).trans (and_iff_left trivial).symm
  | ip => exact (deliver_shown_iff rfl).trans (and_iff_left trivial).symm
  | jsjt => exact (deliver_shown_iff rfl).trans (and_iff_left trivial).symm
  | crowd => exact (deliver_shown_iff rfl).trans (and_iff_left trivial).symm
  | host =>
      have nothing : (initialProperty call).adId = none := rfl
      rw [← vizuryReady_host_iff filled (initialProperty call), finish]
      have ready : ∀ delivered,
          (processVizury plans lists.vaolanAdIds delivered).isSome ↔
            (processVizury plans lists.vaolanAdIds
              (initialProperty call)).isSome := fun delivered =>
        (vizuryReady_host_iff filled delivered).trans
          (vizuryReady_host_iff filled (initialProperty call)).symm
      constructor
      · rintro ⟨result, returned, shown⟩
        obtain ⟨delivered, put, asked⟩ := Option.bind_eq_some_iff.mp returned
        obtain ⟨⟨same, remaining⟩, vizury, rfl⟩ :=
          Option.map_eq_some_iff.mp asked
        rw [(processVizury_cases vizury).1] at shown
        refine ⟨(deliver_shown_iff rfl).mp ⟨delivered, put, shown⟩, ?_⟩
        rw [← ready delivered, vizury]
        rfl
      · rintro ⟨sized, isReady⟩
        obtain ⟨delivered, put, shown⟩ :=
          (deliver_shown_iff nothing).mpr sized
        obtain ⟨⟨result, remaining⟩, asked⟩ :=
          Option.isSome_iff_exists.mp ((ready delivered).mpr isReady)
        refine ⟨result, ?_, (processVizury_cases asked).1.trans shown⟩
        rw [put, Option.bind_some, asked]
        rfl
  | mangtou =>
      rw [← vizuryReady_mangtou_iff filled (initialProperty call), finish]
      constructor
      · rintro ⟨result, returned, shown⟩
        obtain ⟨⟨property, remaining⟩, asked, put⟩ :=
          Option.bind_eq_some_iff.mp returned
        have nothing :
            ({ property with hitCause := text "VL_MT" } : AdProperty).adId =
              none := (processVizury_cases asked).1
        refine ⟨(deliver_shown_iff nothing).mp ⟨result, put, shown⟩, ?_⟩
        rw [asked]
        rfl
      · rintro ⟨sized, isReady⟩
        obtain ⟨⟨property, remaining⟩, asked⟩ :=
          Option.isSome_iff_exists.mp isReady
        have nothing :
            ({ property with hitCause := text "VL_MT" } : AdProperty).adId =
              none := (processVizury_cases asked).1
        rw [asked]
        exact (deliver_shown_iff nothing).mpr sized

/-! ## Exceptions and writes of the loop -/

/-- Filtering the plan of an entry ends in an exception. -/
def Throws (call : Request) (entry : JavaString × AdvPlan) : Prop :=
  considered call entry.1 entry.2 = true ∧
    ((chain call entry.2).result = none ∨
      ((chain call entry.2).result = some true ∧
        isHostTarget call entry.2 = none))

/-- No plan ends the request with an exception. -/
def Responds (call : Request) (plans : PlanMap) : Prop :=
  ∀ entry ∈ plans.entries, ¬ Throws call entry

/-- What the filters write for the plan of an entry. -/
def entryWrites (call : Request) (entry : JavaString × AdvPlan) :
    List CounterWrite :=
  if considered call entry.1 entry.2 then (chain call entry.2).writes else []

theorem filterLoop_throws {entry : JavaString × AdvPlan}
    (throws : Throws call entry) (rest : List (JavaString × AdvPlan)) :
    filterLoop call lists (entry :: rest) =
      ⟨entryWrites call entry, none⟩ := by
  obtain ⟨isConsidered, failed | ⟨passed, failed⟩⟩ := throws
  · rw [filterLoop, if_pos isConsidered, entryWrites, if_pos isConsidered]
    simp only [failed]
  · rw [filterLoop, if_pos isConsidered, entryWrites, if_pos isConsidered]
    simp only [passed, addPlan, failed, Option.map_none]

/-- A plan that does not end the request adds its writes. -/
theorem exists_filterLoop {entry : JavaString × AdvPlan}
    (responds : ¬ Throws call entry) (lists : Candidates)
    (rest : List (JavaString × AdvPlan)) :
    ∃ next, filterLoop call lists (entry :: rest) =
      ⟨entryWrites call entry ++ (filterLoop call next rest).writes,
        (filterLoop call next rest).result⟩ := by
  rw [filterLoop, entryWrites]
  split_ifs with isConsidered
  · cases filtered : (chain call entry.2).result with
    | none => exact absurd ⟨isConsidered, .inl filtered⟩ responds
    | some flag =>
        cases flag with
        | false =>
            simp only [filtered]
            exact ⟨lists, rfl⟩
        | true =>
            cases host : isHostTarget call entry.2 with
            | none =>
                exact absurd ⟨isConsidered, .inr ⟨filtered, host⟩⟩ responds
            | some isHost =>
                simp only [filtered, addPlan, host, Option.map_some]
                exact ⟨_, rfl⟩
  · exact ⟨lists, rfl⟩

theorem filterLoop_isSome_iff {entries : List (JavaString × AdvPlan)} :
    (filterLoop call lists entries).result.isSome ↔
      ∀ entry ∈ entries, ¬ Throws call entry := by
  induction entries generalizing lists with
  | nil => simp [filterLoop, Filters.Written.ofResult]
  | cons entry rest induction =>
      rw [List.forall_mem_cons]
      by_cases throws : Throws call entry
      · rw [filterLoop_throws throws]
        simp [throws]
      · obtain ⟨next, equal⟩ := exists_filterLoop throws lists rest
        rw [equal]
        exact induction.trans (and_iff_right throws).symm

/-- A write is made for a plan that no exception has come before. -/
theorem mem_writes_filterLoop {entries : List (JavaString × AdvPlan)}
    {write : CounterWrite} :
    write ∈ (filterLoop call lists entries).writes ↔
      ∃ front entry back, entries = front ++ entry :: back ∧
        (∀ earlier ∈ front, ¬ Throws call earlier) ∧
        write ∈ entryWrites call entry := by
  induction entries generalizing lists with
  | nil =>
      simp [filterLoop, Filters.Written.ofResult]
  | cons entry rest induction =>
      have split : (∃ front inner back,
          entry :: rest = front ++ inner :: back ∧
          (∀ earlier ∈ front, ¬ Throws call earlier) ∧
          write ∈ entryWrites call inner) ↔
        write ∈ entryWrites call entry ∨ (¬ Throws call entry ∧
          ∃ front inner back, rest = front ++ inner :: back ∧
          (∀ earlier ∈ front, ¬ Throws call earlier) ∧
          write ∈ entryWrites call inner) := by
        constructor
        · rintro ⟨front, inner, back, equal, before, written⟩
          cases front with
          | nil =>
              cases equal
              exact .inl written
          | cons first front =>
              cases equal
              obtain ⟨responds, before⟩ := List.forall_mem_cons.mp before
              exact .inr ⟨responds, front, inner, back, rfl, before, written⟩
        · rintro (written | ⟨responds, front, inner, back, rfl, before,
            written⟩)
          · exact ⟨[], entry, rest, rfl, List.forall_mem_nil _, written⟩
          · exact ⟨entry :: front, inner, back, rfl,
              List.forall_mem_cons.mpr ⟨responds, before⟩, written⟩
      rw [split]
      by_cases throws : Throws call entry
      · rw [filterLoop_throws throws]
        simp [throws]
      · obtain ⟨next, equal⟩ := exists_filterLoop throws lists rest
        rw [equal, List.mem_append]
        exact or_congr Iff.rfl (induction.trans (and_iff_right throws).symm)

/-! ## Who is shown -/

/-- The lists of a retrieval that no exception ends. -/
theorem exists_filled (responds : Responds call plans) :
    ∃ lists, Filled call plans lists ∧ ∀ draws,
      (adRetrieveCommonForVaolanPush call plans draws).result =
        choose call plans draws lists := by
  obtain ⟨lists, finished⟩ := Option.isSome_iff_exists.mp
    ((@filterLoop_isSome_iff call .empty plans.entries).mpr responds)
  refine ⟨lists, sorted_filterLoop finished, ?_⟩
  intro draws
  rw [adRetrieveCommonForVaolanPush, filterAdForVaolanPush]
  dsimp only
  rw [finished, Option.bind_some]

theorem responds_of_returned {outcome : Option AdProperty}
    (returned : (adRetrieveCommonForVaolanPush call plans draws).result =
      some outcome) : Responds call plans := by
  obtain ⟨lists, finished, _⟩ := Option.bind_eq_some_iff.mp returned
  apply (@filterLoop_isSome_iff call .empty plans.entries).mp
  rw [filterAdForVaolanPush] at finished
  rw [finished]
  rfl

/-- The result of a retrieval from a class that has a plan. -/
theorem choose_shown_iff (filled : Filled call plans lists)
    (numbered : Numbered call plans) (reached : Reached call plans adClass)
    (eligible : Eligible call plans advPlan)
    (inClass : InClass call advPlan adClass)
    (drawn : Drawn call plans lists draws advPlan adClass)
    {adId : JavaString} :
    (∃ result, choose call plans draws lists = some (some result) ∧
        result.adId = some adId) ↔
      Readable call adClass ∧ VizuryReady call plans adClass ∧
        HasSize advPlan ∧ advPlan.advId = adId := by
  by_cases readable : Readable call adClass
  · rw [choose_eq_finish filled numbered reached readable eligible inClass
      drawn, and_iff_right readable, and_comm, ← finish_shown_iff filled]
    simp only [Option.map_eq_some_iff, Option.some_inj, exists_eq_right]
  · rw [choose_unreadable filled numbered reached readable draws]
    simp [readable]

/-- For some draws the retrieval returns the ad. -/
theorem shown_iff (numbered : Numbered call plans) {adId : JavaString} :
    (∃ draws result,
        (adRetrieveCommonForVaolanPush call plans draws).result =
          some (some result) ∧ result.adId = some adId) ↔
      Responds call plans ∧ ∃ adClass advPlan,
        Reached call plans adClass ∧ Eligible call plans advPlan ∧
        InClass call advPlan adClass ∧ Readable call adClass ∧
        VizuryReady call plans adClass ∧ HasSize advPlan ∧
        advPlan.advId = adId := by
  constructor
  · rintro ⟨draws, result, returned, shown⟩
    have responds := responds_of_returned returned
    obtain ⟨lists, filled, equal⟩ := exists_filled responds
    rw [equal] at returned
    obtain ⟨other, adClass, eligible, _, inClass, reached⟩ :=
      ((soundOutcome_choose filled numbered returned).sound rfl).chosen shown
    obtain ⟨advPlan, drawn, eligible, inClass⟩ :=
      exists_drawn filled numbered draws
        (not_classEmpty_iff.mpr ⟨other, eligible, inClass⟩)
    exact ⟨responds, adClass, advPlan, reached, eligible, inClass,
      (choose_shown_iff filled numbered reached eligible inClass drawn).mp
        ⟨result, returned, shown⟩⟩
  · rintro ⟨responds, adClass, advPlan, reached, eligible, inClass, ready⟩
    obtain ⟨lists, filled, equal⟩ := exists_filled responds
    obtain ⟨draws, drawn⟩ := exists_draws filled numbered eligible inClass
    refine ⟨draws, ?_⟩
    rw [equal]
    exact (choose_shown_iff filled numbered reached eligible inClass
      drawn).mpr ready

/-- Whatever the draws are, the retrieval returns the ad. -/
theorem always_shown_iff (numbered : Numbered call plans)
    {adId : JavaString} :
    (∀ draws, ∃ result,
        (adRetrieveCommonForVaolanPush call plans draws).result =
          some (some result) ∧ result.adId = some adId) ↔
      Responds call plans ∧ ∃ adClass,
        Reached call plans adClass ∧ ¬ ClassEmpty call plans adClass ∧
        Readable call adClass ∧ VizuryReady call plans adClass ∧
        ∀ advPlan, Eligible call plans advPlan →
          InClass call advPlan adClass →
          HasSize advPlan ∧ advPlan.advId = adId := by
  constructor
  · intro always
    obtain ⟨result, returned, shown⟩ := always firstDraws
    obtain ⟨responds, adClass, other, reached, eligible, inClass, readable,
      vizury, _⟩ :=
        (shown_iff numbered).mp ⟨firstDraws, result, returned, shown⟩
    obtain ⟨lists, filled, equal⟩ := exists_filled responds
    refine ⟨responds, adClass, reached,
      not_classEmpty_iff.mpr ⟨other, eligible, inClass⟩, readable, vizury, ?_⟩
    intro advPlan eligible inClass
    obtain ⟨draws, drawn⟩ := exists_draws filled numbered eligible inClass
    have given := always draws
    rw [equal] at given
    exact ((choose_shown_iff filled numbered reached eligible inClass
      drawn).mp given).2.2
  · rintro ⟨responds, adClass, reached, nonempty, readable, vizury, only⟩
      draws
    obtain ⟨lists, filled, equal⟩ := exists_filled responds
    obtain ⟨advPlan, drawn, eligible, inClass⟩ :=
      exists_drawn filled numbered draws nonempty
    rw [equal]
    exact (choose_shown_iff filled numbered reached eligible inClass
      drawn).mpr ⟨readable, vizury, only advPlan eligible inClass⟩

/-! ## When the plan of Vizury is shown -/

/-- Putting the plan into a result does not end in an exception. -/
def Delivers (advPlan : AdvPlan) : Prop :=
  getAdPlanSize advPlan = none ∨ HasSize advPlan

/-- The plan is in the list that Vizury is asked with. -/
def VizuryListed (vizury : AdvPlan) : AdClass → Prop
  | .host => True
  | .mangtou => isMangtou vizury = true
  | _ => False

/-- The class gives a result: for some draws, or because there are no blind
ads either. -/
def Answers (call : Request) (plans : PlanMap) (adClass : AdClass) : Prop :=
  (adClass = .mangtou ∧ ClassEmpty call plans adClass) ∨
    ∃ advPlan, Eligible call plans advPlan ∧ InClass call advPlan adClass ∧
      Delivers advPlan

/-- The plan of Vizury is eligible, and its class gives a result. -/
structure VizuryShown (call : Request) (plans : PlanMap) (vizury : AdvPlan)
    (adClass : AdClass) : Prop where
  named : vizury.advId = text "304"
  eligible : Eligible call plans vizury
  sized : HasSize vizury
  listed : VizuryListed vizury adClass
  reached : Reached call plans adClass
  readable : Readable call adClass
  answers : Answers call plans adClass

theorem deliver_isSome_iff {adProperty : AdProperty}
    {adId adThrowType hitCause : JavaString} :
    (deliver adProperty advPlan adId adThrowType hitCause).isSome ↔
      Delivers advPlan := by
  rw [deliver, Delivers, HasSize]
  split
  · rename_i missing
    simp [missing]
  · rename_i width height rest found
    simp [found]
  · rename_i parts short found
    constructor
    · intro returned
      cases returned
    · rintro (missing | ⟨width, height, rest, sized⟩)
      · rw [found] at missing
        cases missing
      · rw [found] at sized
        exact (short width height rest (Option.some_inj.mp sized)).elim

/-- Putting a plan into a result leaves Vizury as it is. -/
theorem deliver_vizuryAdId {adProperty result : AdProperty}
    {adId adThrowType hitCause : JavaString}
    (delivered : deliver adProperty advPlan adId adThrowType hitCause =
      some result) : result.vizuryAdId = adProperty.vizuryAdId := by
  rcases deliver_cases delivered with ⟨_, rfl⟩ | ⟨_, _, same⟩
  · rfl
  · exact same

theorem processVizury_shown_iff {list : List AdvPlan}
    (loaded : ∀ adv ∈ list, adv ∈ plans.plans) {adProperty : AdProperty}
    (nothing : adProperty.vizuryAdId = none) {adId : JavaString} :
    (∃ asked, processVizury plans list adProperty = some asked ∧
        asked.1.vizuryAdId = some adId) ↔
      adId = text "304" ∧
        ∃ vizury ∈ list, vizury.advId = text "304" ∧ HasSize vizury := by
  have ready := processVizury_isSome_iff loaded adProperty
  constructor
  · rintro ⟨⟨result, remaining⟩, asked, shown⟩
    obtain ⟨_, ⟨same, ⟨vizury, member, named⟩, _⟩ | ⟨same, _⟩⟩ :=
      processVizury_cases asked
    · rw [same] at shown
      rw [asked] at ready
      exact ⟨(Option.some_inj.mp shown).symm, vizury, member, named,
        ready.mp rfl vizury member named⟩
    · rw [same, nothing] at shown
      cases shown
  · rintro ⟨rfl, vizury, member, named, sized⟩
    have only : ∀ other ∈ list, other.advId = text "304" →
        HasSize other := by
      intro other inside equal
      rw [PlanMap.eq_of_advId (loaded other inside) (loaded vizury member)
        (equal.trans named.symm)]
      exact sized
    obtain ⟨⟨result, remaining⟩, asked⟩ :=
      Option.isSome_iff_exists.mp (ready.mpr only)
    refine ⟨_, asked, ?_⟩
    obtain ⟨_, ⟨same, _⟩ | ⟨_, absent, _⟩⟩ := processVizury_cases asked
    · exact same
    · exact absurd named (absent vizury member)

/-- The result of a drawn plan names Vizury if its plan is listed. -/
theorem finish_vizury_iff (filled : Filled call plans lists)
    {adId : JavaString} :
    (∃ result, finish call plans lists advPlan adClass = some result ∧
        result.vizuryAdId = some adId) ↔
      adId = text "304" ∧ Delivers advPlan ∧
        ∃ vizury, Eligible call plans vizury ∧ vizury.advId = text "304" ∧
          HasSize vizury ∧ VizuryListed vizury adClass := by
  have plain : ∀ {hitCause : JavaString} {result : AdProperty},
      deliver (initialProperty call) advPlan advPlan.advId (text "1")
          hitCause = some result → result.vizuryAdId ≠ some adId := by
    intro hitCause result delivered shown
    rw [deliver_vizuryAdId delivered] at shown
    cases shown
  cases adClass with
  | adAcct => simpa [VizuryListed, finish] using fun _ => plain
  | url => simpa [VizuryListed, finish] using fun _ => plain
  | ip => simpa [VizuryListed, finish] using fun _ => plain
  | jsjt => simpa [VizuryListed, finish] using fun _ => plain
  | crowd => simpa [VizuryListed, finish] using fun _ => plain
  | host =>
      have asked : ∀ {delivered : AdProperty}, delivered.vizuryAdId = none →
          ((∃ asked, processVizury plans lists.vaolanAdIds delivered =
              some asked ∧ asked.1.vizuryAdId = some adId) ↔
            adId = text "304" ∧ ∃ vizury, Eligible call plans vizury ∧
              vizury.advId = text "304" ∧ HasSize vizury) := by
        intro delivered nothing
        rw [processVizury_shown_iff (loaded_vaolan filled) nothing]
        simp only [filled.mem_vaolan]
      simp only [VizuryListed, and_true]
      constructor
      · rintro ⟨result, returned, shown⟩
        rw [finish] at returned
        obtain ⟨delivered, put, returned⟩ :=
          Option.bind_eq_some_iff.mp returned
        obtain ⟨pair, vizury, rfl⟩ := Option.map_eq_some_iff.mp returned
        have nothing : delivered.vizuryAdId = none := deliver_vizuryAdId put
        obtain ⟨same, listed⟩ := (asked nothing).mp ⟨pair, vizury, shown⟩
        refine ⟨same, ?_, listed⟩
        apply deliver_isSome_iff.mp
        exact Option.isSome_iff_exists.mpr ⟨delivered, put⟩
      · rintro ⟨same, delivers, listed⟩
        have put : (deliver (initialProperty call) advPlan advPlan.advId
            (text "2") (text "HOST_TARGET")).isSome :=
          deliver_isSome_iff.mpr delivers
        obtain ⟨delivered, put⟩ := Option.isSome_iff_exists.mp put
        have nothing : delivered.vizuryAdId = none := deliver_vizuryAdId put
        obtain ⟨pair, vizury, shown⟩ := (asked nothing).mpr ⟨same, listed⟩
        refine ⟨pair.1, ?_, shown⟩
        rw [finish, put, Option.bind_some, vizury]
        rfl
  | mangtou =>
      have asked := @processVizury_shown_iff plans _
        (loaded_mangtou filled) (initialProperty call) rfl adId
      constructor
      · rintro ⟨result, returned, shown⟩
        obtain ⟨pair, vizury, put⟩ := Option.bind_eq_some_iff.mp returned
        rw [deliver_vizuryAdId put] at shown
        obtain ⟨same, adv, member, named, sized⟩ :=
          asked.mp ⟨pair, vizury, shown⟩
        obtain ⟨eligible, blind⟩ := filled.mem_mangtou.mp member
        refine ⟨same, ?_, adv, eligible, named, sized, blind⟩
        apply deliver_isSome_iff.mp
        exact Option.isSome_iff_exists.mpr ⟨result, put⟩
      · rintro ⟨same, delivers, adv, eligible, named, sized, blind⟩
        obtain ⟨pair, vizury, shown⟩ := asked.mpr ⟨same, adv,
          filled.mem_mangtou.mpr ⟨eligible, blind⟩, named, sized⟩
        have put : (deliver { pair.1 with hitCause := text "VL_MT" } advPlan
            advPlan.advId (text "2") (text "VL_MT")).isSome :=
          deliver_isSome_iff.mpr delivers
        obtain ⟨result, put⟩ := Option.isSome_iff_exists.mp put
        refine ⟨result, ?_, (deliver_vizuryAdId put).trans shown⟩
        rw [finish, vizury]
        exact put

/-- A class that gives the ad is reached, or all classes are empty. -/
theorem exists_reached_or_empty (call : Request) (plans : PlanMap) :
    (∃ adClass, Reached call plans adClass ∧
      ¬ ClassEmpty call plans adClass) ∨
      ∀ adClass, Allowed call adClass → ClassEmpty call plans adClass := by
  by_cases found : ∃ adClass, Allowed call adClass ∧
      ¬ ClassEmpty call plans adClass
  · obtain ⟨adClass, ⟨allowed, nonempty⟩, least⟩ :=
      WellFounded.has_min (measure AdClass.rank).wf
        {adClass | Allowed call adClass ∧ ¬ ClassEmpty call plans adClass}
        found
    refine .inl ⟨adClass, ⟨allowed, ?_⟩, nonempty⟩
    intro earlier before
    by_contra nonempty
    have allowed : Allowed call earlier :=
      fun baidu => Nat.le_trans (Nat.le_of_lt before) (allowed baidu)
    exact least earlier ⟨allowed, nonempty⟩ before
  · refine .inr ?_
    intro adClass allowed
    by_contra nonempty
    exact found ⟨adClass, allowed, nonempty⟩

/-- A drawn plan decides whether the result names Vizury. -/
theorem choose_vizury_iff (filled : Filled call plans lists)
    (numbered : Numbered call plans) (reached : Reached call plans adClass)
    (eligible : Eligible call plans advPlan)
    (inClass : InClass call advPlan adClass)
    (drawn : Drawn call plans lists draws advPlan adClass)
    {adId : JavaString} :
    (∃ result, choose call plans draws lists = some (some result) ∧
        result.vizuryAdId = some adId) ↔
      Readable call adClass ∧ adId = text "304" ∧ Delivers advPlan ∧
        ∃ vizury, Eligible call plans vizury ∧ vizury.advId = text "304" ∧
          HasSize vizury ∧ VizuryListed vizury adClass := by
  by_cases readable : Readable call adClass
  · rw [choose_eq_finish filled numbered reached readable eligible inClass
      drawn, and_iff_right readable, ← finish_vizury_iff filled]
    simp only [Option.map_eq_some_iff, Option.some_inj, exists_eq_right]
  · rw [choose_unreadable filled numbered reached readable draws]
    simp [readable]

/-- Without any ad the result names Vizury if its plan is a blind one. -/
theorem choose_vizury_iff_of_empty (filled : Filled call plans lists)
    (numbered : Numbered call plans) (reached : Reached call plans .mangtou)
    (empty : ClassEmpty call plans .mangtou) (draws : Draws)
    {adId : JavaString} :
    (∃ result, choose call plans draws lists = some (some result) ∧
        result.vizuryAdId = some adId) ↔
      Readable call .mangtou ∧ adId = text "304" ∧
        ∃ vizury, Eligible call plans vizury ∧ vizury.advId = text "304" ∧
          HasSize vizury ∧ VizuryListed vizury .mangtou := by
  by_cases readable : Readable call .mangtou
  · have asked := @processVizury_shown_iff plans _ (loaded_mangtou filled)
      (initialProperty call) rfl adId
    have listed : (∃ vizury ∈ lists.vaolanMangtouAdIds,
        vizury.advId = text "304" ∧ HasSize vizury) ↔
        ∃ vizury, Eligible call plans vizury ∧ vizury.advId = text "304" ∧
          HasSize vizury ∧ VizuryListed vizury .mangtou := by
      simp only [filled.mem_mangtou, VizuryListed]
      exact exists_congr fun _ => by tauto
    rw [and_iff_right readable, ← listed, ← asked,
      choose_eq_blind filled numbered reached readable]
    rw [notVaolanAccuratePv]
    cases answered : processVizury plans lists.vaolanMangtouAdIds
        (initialProperty call) with
    | none => simp
    | some pair =>
        obtain ⟨property, remaining⟩ := pair
        have nothing : draw draws.mangtou remaining = none := by
          rw [remaining_processVizury answered]
          exact draw_eq_none_of_members _ (mem_remaining filled) empty
        simp [nothing]
  · rw [choose_unreadable filled numbered reached readable draws]
    simp [readable]

/-- A Baidu request for which there is nothing gets no result. -/
theorem choose_baidu_empty (filled : Filled call plans lists)
    (numbered : Numbered call plans) (baidu : call.element.type = text "5")
    (empty : ∀ adClass, Allowed call adClass →
      ClassEmpty call plans adClass) (draws : Draws) (result : AdProperty) :
    choose call plans draws lists ≠ some (some result) := by
  have allowed : ∀ adClass, adClass.rank ≤ AdClass.jsjt.rank →
      ClassEmpty call plans adClass :=
    fun adClass early => empty adClass fun _ => early
  have reached : Reached call plans .jsjt :=
    ⟨fun _ => Nat.le_refl _, fun earlier before =>
      allowed earlier (Nat.le_of_lt before)⟩
  rw [choose_eq_jsjtBranch filled reached (Nat.le_refl _), jsjtBranch]
  cases asked : jsjtStandbyAdIds call with
  | none => simp
  | some standby =>
      have nothing := draw_eq_none_of_ids draws.jsjt
        (filled.mem_canPostAdIds numbered asked)
        (allowed .jsjt (Nat.le_refl _))
      simp [nothing, baidu]

/-- For some draws the retrieval returns the plan of Vizury. -/
theorem vizury_shown_iff (numbered : Numbered call plans)
    {adId : JavaString} :
    (∃ draws result,
        (adRetrieveCommonForVaolanPush call plans draws).result =
          some (some result) ∧ result.vizuryAdId = some adId) ↔
      Responds call plans ∧ ∃ adClass vizury,
        VizuryShown call plans vizury adClass ∧ vizury.advId = adId := by
  constructor
  · rintro ⟨draws, result, returned, shown⟩
    have responds := responds_of_returned returned
    obtain ⟨lists, filled, equal⟩ := exists_filled responds
    rw [equal] at returned
    refine ⟨responds, ?_⟩
    rcases exists_reached_or_empty call plans with
      ⟨adClass, reached, nonempty⟩ | empty
    · obtain ⟨advPlan, drawn, eligible, inClass⟩ :=
        exists_drawn filled numbered draws nonempty
      obtain ⟨readable, same, delivers, vizury, fits, named, sized, listed⟩ :=
        (choose_vizury_iff filled numbered reached eligible inClass
          drawn).mp ⟨result, returned, shown⟩
      exact ⟨adClass, vizury, ⟨named, fits, sized, listed, reached, readable,
        .inr ⟨advPlan, eligible, inClass, delivers⟩⟩, named.trans same.symm⟩
    · by_cases baidu : call.element.type = text "5"
      · exact absurd returned
          (choose_baidu_empty filled numbered baidu empty draws result)
      · have empty : ∀ adClass, ClassEmpty call plans adClass :=
          fun adClass => empty adClass fun isBaidu => absurd isBaidu baidu
        have reached : Reached call plans .mangtou :=
          ⟨fun isBaidu => absurd isBaidu baidu, fun earlier _ =>
            empty earlier⟩
        obtain ⟨readable, same, vizury, fits, named, sized, listed⟩ :=
          (choose_vizury_iff_of_empty filled numbered reached (empty _)
            draws).mp ⟨result, returned, shown⟩
        exact ⟨.mangtou, vizury, ⟨named, fits, sized, listed, reached,
          readable, .inl ⟨rfl, empty _⟩⟩, named.trans same.symm⟩
  · rintro ⟨responds, adClass, vizury, shown, rfl⟩
    obtain ⟨lists, filled, equal⟩ := exists_filled responds
    have listed : ∃ other, Eligible call plans other ∧
        other.advId = text "304" ∧ HasSize other ∧
        VizuryListed other adClass :=
      ⟨vizury, shown.eligible, shown.named, shown.sized, shown.listed⟩
    rcases shown.answers with
      ⟨rfl, empty⟩ | ⟨advPlan, eligible, inClass, delivers⟩
    · refine ⟨firstDraws, ?_⟩
      rw [equal]
      exact (choose_vizury_iff_of_empty filled numbered shown.reached empty
        firstDraws).mpr ⟨shown.readable, shown.named, listed⟩
    · obtain ⟨draws, drawn⟩ := exists_draws filled numbered eligible inClass
      refine ⟨draws, ?_⟩
      rw [equal]
      exact (choose_vizury_iff filled numbered shown.reached eligible
        inClass drawn).mpr
          ⟨shown.readable, shown.named, delivers, listed⟩

end Choices

end WindowSystem.Sspserver.AdChoices
