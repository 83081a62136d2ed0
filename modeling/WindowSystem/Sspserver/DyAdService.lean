import WindowSystem.Library.ExpiringStore
import WindowSystem.Library.LabelledRun
import WindowSystem.Sspserver.JavaRuntime

/-!
# Impressions of ads

`DyAdServiceImpl` gives an id to every impression and decides, when the ad is
shown, whether `SSPCenterControllor.adshow` counts it.  An id is remembered
for thirty seconds and forgotten when it is shown.  A second key of redis,
made of the user and the page, holds the time of the last impression for a
minute, so that impressions that follow each other too fast can be told from
real ones.
-/

namespace WindowSystem.Sspserver.DyAdService

open WindowSystem.Library.ExpiringStore
open WindowSystem.Library.LabelledRun
open WindowSystem.Sspserver.JavaRuntime

/-! ## The service -/

/-- The keys of redis: the impressions, and the times of the last ones.  Times
are in milliseconds. -/
structure Redis where
  impressions : Store JavaString Unit Int
  lastImpTimes : Store JavaString Int Int

/-- The key of an impression. -/
def impressKey (impuuid : JavaString) : JavaString :=
  text "imp_" ++ impuuid

/-- The key of the impressions that a user has seen on a page. -/
def impfreqKey (cookieValue referrer : JavaString) : JavaString :=
  text "impfreq_" ++ cookieValue ++ text "_" ++ referrer

/-- `genImpressionUUID` -/
def genImpressionUUID (redis : Redis) (now : Int) (uuid : JavaString) :
    Redis :=
  { redis with
    impressions := put redis.impressions (impressKey uuid) ()
      (now + 30 * 1000) }

/-- What `isNeedExecStatCode` returns, and what it has found out. -/
structure Judgement where
  b : Bool
  realImp : Bool
deriving DecidableEq

/-- `realImp` of an impression with a referrer. -/
def isRealImp (lastImpTime : Option Int) (thisImpTime : Int) : Bool :=
  match lastImpTime with
  | some lastImpTime => thisImpTime - lastImpTime ≥ 30000
  | none => true

/-- `isNeedExecStatCode` -/
def isNeedExecStatCode (platform : Platform) (redis : Redis) (now : Int)
    (cookieValue impuuid referrer : JavaString) : Judgement × Redis :=
  if find redis.impressions now (impressKey impuuid) = some () then
    let shown :=
      { redis with
        impressions := erase redis.impressions (impressKey impuuid) }
    if isNotBlank platform referrer then
      let key := impfreqKey cookieValue referrer
      (⟨true, isRealImp (find shown.lastImpTimes now key) now⟩,
        { shown with
          lastImpTimes := put shown.lastImpTimes key now
            (now + 60 * 1000) })
    else (⟨true, true⟩, shown)
  else (⟨false, false⟩, redis)

/-! ## Sequences of calls -/

/-- A call of the service; `adshow` counts the impression if the judgement of
the call says so. -/
inductive Call where
  | genImpressionUUID (uuid : JavaString)
  | showad (cookieValue impuuid referrer : JavaString)
deriving DecidableEq

/-- A call at a time. -/
structure Event where
  time : Int
  call : Call
deriving DecidableEq

/-- Redis, the time of the last call, and the ids that have been given. -/
structure State where
  redis : Redis
  now : Int
  given : List JavaString

/-- Nothing has been shown yet. -/
def State.initial (start : Int) : State :=
  ⟨⟨fun _ => none, fun _ => none⟩, start, []⟩

/-- A call; time does not go back, and no id is given twice. -/
def next (platform : Platform) (state : State) (event : Event) :
    Option (Judgement × State) :=
  if event.time < state.now then none
  else
    match event.call with
    | .genImpressionUUID uuid =>
        if uuid ∈ state.given then none
        else
          some (⟨false, false⟩,
            { redis := genImpressionUUID state.redis event.time uuid
              now := event.time
              given := uuid :: state.given })
    | .showad cookieValue impuuid referrer =>
        let judged := isNeedExecStatCode platform state.redis event.time
          cookieValue impuuid referrer
        some (judged.1, { state with redis := judged.2, now := event.time })

/-- A call with its judgement. -/
abbrev Label := Event × Judgement

/-- The call shows the impression. -/
def shows (impuuid : JavaString) (label : Label) : Bool :=
  match label.1.call with
  | .genImpressionUUID _ => false
  | .showad _ shown _ => shown = impuuid

/-- The call counts the impression. -/
def counts (impuuid : JavaString) (label : Label) : Bool :=
  shows impuuid label && label.2.b

/-- The id was given in the last half minute, and has not been shown since. -/
def Issued (labels : List Label) (impuuid : JavaString) (time : Int) : Prop :=
  ∃ before generation judgement after,
    labels = before ++
      (⟨generation, .genImpressionUUID impuuid⟩, judgement) :: after ∧
    time ≤ generation + 30 * 1000 ∧
    ∀ label ∈ after, shows impuuid label = false

/-- What the service promises for a sequence of calls.  Impressions without a
referrer are for tests and are not compared with others. -/
structure Deduplicated (platform : Platform) (labels : List Label) :
    Prop where
  once : ∀ impuuid, labels.countP (counts impuuid) ≤ 1
  exempt : ∀ {front back time judgement cookieValue impuuid referrer},
    labels = front ++
      (⟨time, .showad cookieValue impuuid referrer⟩, judgement) :: back →
    isBlank platform referrer = true →
      (judgement.b = true ↔ Issued front impuuid time)
  spaced : ∀ {front between back first second firstJudgement
      secondJudgement cookieValue firstId secondId referrer},
    labels = front ++
      (⟨first, .showad cookieValue firstId referrer⟩, firstJudgement) ::
      (between ++ (⟨second, .showad cookieValue secondId referrer⟩,
        secondJudgement) :: back) →
    isBlank platform referrer = false → second - first < 30000 →
      ¬ (firstJudgement.realImp = true ∧ secondJudgement.realImp = true)

/-! ## One call -/

section Calls

variable {platform : Platform} {before after : State} {time : Int}
  {judgement : Judgement} {cookieValue impuuid referrer uuid : JavaString}

theorem impressKey_inj {left right : JavaString} :
    impressKey left = impressKey right ↔ left = right :=
  List.append_right_inj (text "imp_")

/-- Everything that showing an impression can do. -/
theorem isNeedExecStatCode_cases (platform : Platform) (redis : Redis)
    (now : Int) (cookieValue impuuid referrer : JavaString) :
    (find redis.impressions now (impressKey impuuid) = none ∧
      isNeedExecStatCode platform redis now cookieValue impuuid referrer =
        (⟨false, false⟩, redis)) ∨
    (find redis.impressions now (impressKey impuuid) = some () ∧
      isNeedExecStatCode platform redis now cookieValue impuuid referrer =
        if isNotBlank platform referrer then
          (⟨true, isRealImp (find redis.lastImpTimes now
              (impfreqKey cookieValue referrer)) now⟩,
            ⟨erase redis.impressions (impressKey impuuid),
              put redis.lastImpTimes (impfreqKey cookieValue referrer) now
                (now + 60 * 1000)⟩)
        else
          (⟨true, true⟩, ⟨erase redis.impressions (impressKey impuuid),
            redis.lastImpTimes⟩)) := by
  cases found : find redis.impressions now (impressKey impuuid) with
  | none =>
      refine .inl ⟨rfl, ?_⟩
      rw [isNeedExecStatCode, found]
      rfl
  | some value =>
      refine .inr ⟨rfl, ?_⟩
      rw [isNeedExecStatCode, found]
      rfl

/-- The call counts exactly what can be found. -/
theorem isNeedExecStatCode_b (platform : Platform) (redis : Redis)
    (now : Int) (cookieValue impuuid referrer : JavaString) :
    (isNeedExecStatCode platform redis now cookieValue impuuid
        referrer).1.b = true ↔
      find redis.impressions now (impressKey impuuid) = some () := by
  rcases isNeedExecStatCode_cases platform redis now cookieValue impuuid
    referrer with ⟨missing, equal⟩ | ⟨found, equal⟩
  · rw [equal, missing]
    simp
  · rw [equal, found]
    split_ifs <;> simp

/-- What the call leaves of the impressions. -/
theorem isNeedExecStatCode_impressions (platform : Platform) (redis : Redis)
    (now : Int) (cookieValue impuuid referrer : JavaString) :
    (isNeedExecStatCode platform redis now cookieValue impuuid
        referrer).2.impressions =
      if find redis.impressions now (impressKey impuuid) = some () then
        erase redis.impressions (impressKey impuuid)
      else redis.impressions := by
  rcases isNeedExecStatCode_cases platform redis now cookieValue impuuid
    referrer with ⟨missing, equal⟩ | ⟨found, equal⟩
  · rw [equal, missing]
    rfl
  · rw [equal, if_pos found]
    split_ifs <;> rfl

/-- The call leaves the other impressions as they are. -/
theorem isNeedExecStatCode_other {redis after : Redis} {now : Int}
    {other : JavaString} (judged : isNeedExecStatCode platform redis now
      cookieValue impuuid referrer = (judgement, after))
    (different : other ≠ impuuid) :
    after.impressions (impressKey other) =
      redis.impressions (impressKey other) := by
  have left := isNeedExecStatCode_impressions platform redis now cookieValue
    impuuid referrer
  rw [judged] at left
  dsimp only at left
  rw [left]
  split_ifs
  · exact Function.update_of_ne
      (fun equal => different (impressKey_inj.mp equal)) _ _
  · rfl

theorem next_genImpressionUUID
    (taken : stepOf (next platform) before
      (⟨time, .genImpressionUUID uuid⟩, judgement) after) :
    before.now ≤ time ∧ uuid ∉ before.given ∧ judgement = ⟨false, false⟩ ∧
      after =
        { redis := genImpressionUUID before.redis time uuid
          now := time
          given := uuid :: before.given } := by
  rw [stepOf, next] at taken
  split_ifs at taken with early
  dsimp only at taken
  split_ifs at taken with given
  cases taken
  exact ⟨not_lt.mp early, given, rfl, rfl⟩

theorem next_showad
    (taken : stepOf (next platform) before
      (⟨time, .showad cookieValue impuuid referrer⟩, judgement) after) :
    before.now ≤ time ∧
      isNeedExecStatCode platform before.redis time cookieValue impuuid
        referrer = (judgement, after.redis) ∧
      after.now = time ∧ after.given = before.given := by
  rw [stepOf, next] at taken
  split_ifs at taken with early
  simp only [Option.some_inj, Prod.mk.injEq] at taken
  obtain ⟨rfl, rfl⟩ := taken
  exact ⟨not_lt.mp early, rfl, rfl, rfl⟩

end Calls

/-! ## Ids -/

section Ids

variable {platform : Platform} {front : List Label} {label : Label}
  {impuuid : JavaString} {time : Int}

/-- An id is issued by the last call, or it was before and is not shown. -/
theorem issued_concat :
    Issued (front ++ [label]) impuuid time ↔
      (label.1.call = .genImpressionUUID impuuid ∧
        time ≤ label.1.time + 30 * 1000) ∨
      (Issued front impuuid time ∧ shows impuuid label = false) := by
  constructor
  · rintro ⟨before, generation, judgement, later, equal, lasting, unshown⟩
    cases later using List.reverseRecOn with
    | nil =>
        obtain ⟨rfl, same⟩ := List.append_inj' equal rfl
        cases same
        exact .inl ⟨rfl, lasting⟩
    | append_singleton later last =>
        rw [← List.cons_append, ← List.append_assoc] at equal
        obtain ⟨rfl, same⟩ := List.append_inj' equal rfl
        cases same
        refine .inr ⟨⟨before, generation, judgement, later, rfl, lasting,
          fun other member => unshown other (List.mem_append_left _ member)⟩,
          unshown _ (by simp)⟩
  · rintro (⟨call, lasting⟩ | ⟨⟨before, generation, judgement, later, rfl,
      lasting, unshown⟩, quiet⟩)
    · obtain ⟨⟨generation, call'⟩, judgement⟩ := label
      cases call
      exact ⟨front, generation, judgement, [], rfl, lasting,
        List.forall_mem_nil _⟩
    · refine ⟨before, generation, judgement, later ++ [label], by simp,
        lasting, ?_⟩
      intro other member
      rcases List.mem_append.mp member with inside | same
      · exact unshown other inside
      · rw [List.mem_singleton.mp same]
        exact quiet

/-- A call that does not show the impression does not count it. -/
theorem countP_concat_of_not_shows (unshown : shows impuuid label = false) :
    (front ++ [label]).countP (counts impuuid) =
      front.countP (counts impuuid) := by
  simp [counts, unshown]

/-- A call that shows the impression counts it if it says so. -/
theorem countP_concat_of_shows (shown : shows impuuid label = true) :
    (front ++ [label]).countP (counts impuuid) =
      front.countP (counts impuuid) + if label.2.b then 1 else 0 := by
  simp [counts, shown, List.countP_cons]

/-- What redis knows of the ids after some calls. -/
structure Tracks (front : List Label) (state : State) : Prop where
  live : ∀ impuuid time, state.now ≤ time →
    (find state.redis.impressions time (impressKey impuuid) = some () ↔
      Issued front impuuid time)
  given : ∀ impuuid, (state.redis.impressions (impressKey impuuid)).isSome →
    impuuid ∈ state.given ∧ front.countP (counts impuuid) = 0
  unknown : ∀ impuuid, impuuid ∉ state.given →
    front.countP (counts impuuid) = 0 ∧ ∀ time, ¬ Issued front impuuid time
  once : ∀ impuuid, front.countP (counts impuuid) ≤ 1

theorem tracks_initial (start : Int) : Tracks [] (.initial start) where
  live impuuid time _ := by
    refine iff_of_false (by simp [State.initial, find]) ?_
    rintro ⟨before, generation, judgement, after, equal, _⟩
    simp at equal
  given impuuid stored := by cases stored
  unknown impuuid _ := by
    refine ⟨rfl, ?_⟩
    rintro time ⟨before, generation, judgement, after, equal, _⟩
    simp at equal
  once impuuid := Nat.zero_le 1

/-- Giving an id keeps track of the ids. -/
theorem Tracks.genImpressionUUID {before after : State} {uuid : JavaString}
    {judgement : Judgement} (tracks : Tracks front before)
    (taken : stepOf (next platform) before
      (⟨time, .genImpressionUUID uuid⟩, judgement) after) :
    Tracks (front ++ [(⟨time, .genImpressionUUID uuid⟩, judgement)])
      after := by
  obtain ⟨order, fresh, rfl, rfl⟩ := next_genImpressionUUID taken
  have unknown := tracks.unknown uuid fresh
  have uncounted : ∀ impuuid, (front ++ [((⟨time,
      .genImpressionUUID uuid⟩, ⟨false, false⟩) : Label)]).countP
        (counts impuuid) = front.countP (counts impuuid) :=
    fun _ => countP_concat_of_not_shows rfl
  constructor
  case live =>
    intro impuuid later notEarlier
    rw [issued_concat]
    by_cases same : impuuid = uuid
    · subst same
      dsimp only [DyAdService.genImpressionUUID]
      rw [find_put_self]
      simp [unknown.2 later, shows]
    · have different : impressKey impuuid ≠ impressKey uuid :=
        fun equal => same (impressKey_inj.mp equal)
      dsimp only [DyAdService.genImpressionUUID]
      rw [find_put_of_ne different,
        tracks.live impuuid later (order.trans notEarlier)]
      simp [shows, Ne.symm same]
  case given =>
    intro impuuid stored
    rw [uncounted]
    by_cases same : impuuid = uuid
    · rw [same]
      exact ⟨List.mem_cons_self, unknown.1⟩
    · have different : impressKey impuuid ≠ impressKey uuid :=
        fun equal => same (impressKey_inj.mp equal)
      dsimp only [DyAdService.genImpressionUUID, put] at stored
      rw [Function.update_of_ne different] at stored
      obtain ⟨given, none⟩ := tracks.given impuuid stored
      exact ⟨List.mem_cons_of_mem _ given, none⟩
  case unknown =>
    intro impuuid absent
    obtain ⟨different, absent⟩ := not_or.mp (mt List.mem_cons.mpr absent)
    obtain ⟨none, unissued⟩ := tracks.unknown impuuid absent
    refine ⟨(uncounted impuuid).trans none, ?_⟩
    intro later
    rw [issued_concat]
    simp [unissued later, Ne.symm different]
  case once =>
    intro impuuid
    rw [uncounted]
    exact tracks.once impuuid

/-- Showing an impression keeps track of the ids. -/
theorem Tracks.showad {before after : State} {judgement : Judgement}
    {cookieValue shown referrer : JavaString} (tracks : Tracks front before)
    (taken : stepOf (next platform) before
      (⟨time, .showad cookieValue shown referrer⟩, judgement) after) :
    Tracks (front ++ [(⟨time, .showad cookieValue shown referrer⟩,
      judgement)]) after := by
  obtain ⟨order, judged, now, given⟩ := next_showad taken
  have decided := isNeedExecStatCode_b platform before.redis time cookieValue
    shown referrer
  have left := isNeedExecStatCode_impressions platform before.redis time
    cookieValue shown referrer
  rw [judged] at decided left
  dsimp only at decided left
  have others : ∀ impuuid, impuuid ≠ shown →
      after.redis.impressions (impressKey impuuid) =
        before.redis.impressions (impressKey impuuid) :=
    fun _ => isNeedExecStatCode_other judged
  have sameCount : ∀ impuuid, impuuid ≠ shown → (front ++ [((⟨time,
      .showad cookieValue shown referrer⟩, judgement) : Label)]).countP
        (counts impuuid) = front.countP (counts impuuid) :=
    fun impuuid different => countP_concat_of_not_shows
      (decide_eq_false (Ne.symm different))
  have ownCount : (front ++ [((⟨time, .showad cookieValue shown referrer⟩,
      judgement) : Label)]).countP (counts shown) =
        front.countP (counts shown) + if judgement.b then 1 else 0 :=
    countP_concat_of_shows (decide_eq_true rfl)
  constructor
  case live =>
    intro impuuid later notEarlier
    rw [now] at notEarlier
    rw [issued_concat]
    by_cases same : impuuid = shown
    · subst same
      refine iff_of_false ?_ (by simp [shows])
      intro found
      rw [left] at found
      split_ifs at found with live
      · rw [find_erase_self] at found
        cases found
      · have expired : find before.redis.impressions time
            (impressKey impuuid) = none :=
          Option.eq_none_iff_forall_ne_some.mpr fun _ => live
        rw [find_eq_none_of_le notEarlier expired] at found
        cases found
    · rw [find, others impuuid same, ← find,
        tracks.live impuuid later (order.trans notEarlier)]
      simp [shows, Ne.symm same]
  case given =>
    intro impuuid stored
    rw [given]
    by_cases same : impuuid = shown
    · subst same
      rw [left] at stored
      split_ifs at stored with live
      · rw [erase, Function.update_self] at stored
        cases stored
      · obtain ⟨known, none⟩ := tracks.given impuuid stored
        rw [ownCount, none, if_neg fun counted => live (decided.mp counted)]
        exact ⟨known, rfl⟩
    · rw [others impuuid same] at stored
      rw [sameCount impuuid same]
      exact tracks.given impuuid stored
  case unknown =>
    intro impuuid absent
    rw [given] at absent
    obtain ⟨none, unissued⟩ := tracks.unknown impuuid absent
    constructor
    · by_cases same : impuuid = shown
      · subst same
        have dead : judgement.b ≠ true := by
          intro counted
          exact absent
            (tracks.given impuuid (isSome_of_find (decided.mp counted))).1
        rw [ownCount, none, if_neg dead]
      · rw [sameCount impuuid same]
        exact none
    · intro later
      rw [issued_concat]
      simp [unissued later]
  case once =>
    intro impuuid
    by_cases same : impuuid = shown
    · subst same
      rw [ownCount]
      split_ifs with counted
      · rw [(tracks.given impuuid
          (isSome_of_find (decided.mp counted))).2]
      · exact tracks.once impuuid
    · rw [sameCount impuuid same]
      exact tracks.once impuuid

/-- Every call keeps track of the ids. -/
theorem Tracks.step {before after : State} (tracks : Tracks front before)
    (taken : stepOf (next platform) before label after) :
    Tracks (front ++ [label]) after := by
  obtain ⟨⟨time, call⟩, judgement⟩ := label
  cases call with
  | genImpressionUUID uuid => exact tracks.genImpressionUUID taken
  | showad cookieValue impuuid referrer => exact tracks.showad taken

theorem tracks_of_run {start : Int} {last : State}
    (run : Run (stepOf (next platform)) (.initial start) front last) :
    Tracks front last :=
  run.history (fun tracks taken => tracks.step taken) (tracks_initial start)

end Ids

/-! ## Times of the last impressions -/

section Times

variable {platform : Platform} {before after : State} {key : JavaString}
  {time : Int}

/-- The time has come, and the time of an impression that is not earlier is
stored under the key. -/
def SeenSince (key : JavaString) (first : Int) (state : State) : Prop :=
  first ≤ state.now ∧ ∃ last, first ≤ last ∧
    state.redis.lastImpTimes key = some ⟨last, last + 60 * 1000⟩

/-- What a call stores for a page. -/
theorem lastImpTimes_showad {redis after : Redis} {judgement : Judgement}
    {cookieValue impuuid referrer : JavaString}
    (judged : isNeedExecStatCode platform redis time cookieValue impuuid
      referrer = (judgement, after)) :
    after.lastImpTimes = redis.lastImpTimes ∨
      after.lastImpTimes = put redis.lastImpTimes
        (impfreqKey cookieValue referrer) time (time + 60 * 1000) := by
  rcases isNeedExecStatCode_cases platform redis time cookieValue impuuid
    referrer with ⟨_, equal⟩ | ⟨_, equal⟩
  · rw [judged] at equal
    cases equal
    exact .inl rfl
  · rw [judged] at equal
    split_ifs at equal
    · cases equal
      exact .inr rfl
    · cases equal
      exact .inl rfl

/-- Later calls only store later times. -/
theorem SeenSince.step {first : Int} {label : Label}
    (seen : SeenSince key first before)
    (taken : stepOf (next platform) before label after) :
    SeenSince key first after := by
  obtain ⟨started, last, later, stored⟩ := seen
  obtain ⟨⟨time, call⟩, judgement⟩ := label
  cases call with
  | genImpressionUUID uuid =>
      obtain ⟨order, _, _, rfl⟩ := next_genImpressionUUID taken
      exact ⟨started.trans order, last, later, stored⟩
  | showad cookieValue impuuid referrer =>
      obtain ⟨order, judged, now, _⟩ := next_showad taken
      have started : first ≤ time := started.trans order
      rw [SeenSince, now]
      refine ⟨started, ?_⟩
      rcases lastImpTimes_showad judged with same | written
      · refine ⟨last, later, ?_⟩
        rw [same, stored]
      · by_cases own : key = impfreqKey cookieValue referrer
        · subst own
          refine ⟨time, started, ?_⟩
          rw [written, put, Function.update_self]
        · refine ⟨last, later, ?_⟩
          rw [written, put, Function.update_of_ne own, stored]

variable {judgement : Judgement} {cookieValue impuuid referrer : JavaString}

/-- A real impression with a referrer stores its time. -/
theorem seenSince_of_realImp
    (taken : stepOf (next platform) before
      (⟨time, .showad cookieValue impuuid referrer⟩, judgement) after)
    (present : isBlank platform referrer = false)
    (real : judgement.realImp = true) :
    SeenSince (impfreqKey cookieValue referrer) time after := by
  obtain ⟨_, judged, now, _⟩ := next_showad taken
  refine ⟨now.ge, ?_⟩
  rcases isNeedExecStatCode_cases platform before.redis time cookieValue
    impuuid referrer with ⟨_, equal⟩ | ⟨_, equal⟩
  · rw [judged] at equal
    rw [(Prod.mk.inj equal).1] at real
    cases real
  · rw [judged, isNotBlank, present, Bool.not_false, if_pos rfl] at equal
    refine ⟨time, le_refl time, ?_⟩
    rw [(Prod.mk.inj equal).2]
    exact Function.update_self ..

/-- An impression that follows another one too fast is not a real one. -/
theorem not_realImp_of_seenSince {first : Int}
    (taken : stepOf (next platform) before
      (⟨time, .showad cookieValue impuuid referrer⟩, judgement) after)
    (present : isBlank platform referrer = false)
    (seen : SeenSince (impfreqKey cookieValue referrer) first before)
    (fast : time - first < 30000) : judgement.realImp ≠ true := by
  obtain ⟨_, judged, _, _⟩ := next_showad taken
  obtain ⟨_, last, later, stored⟩ := seen
  rcases isNeedExecStatCode_cases platform before.redis time cookieValue
    impuuid referrer with ⟨_, equal⟩ | ⟨_, equal⟩
  · rw [judged] at equal
    rw [(Prod.mk.inj equal).1]
    exact Bool.false_ne_true
  · have found : find before.redis.lastImpTimes time
        (impfreqKey cookieValue referrer) = some last := by
      have lasting : time ≤ last + 60 * 1000 := by omega
      rw [find, stored, Option.bind_some]
      exact if_pos lasting
    rw [judged, isNotBlank, present, Bool.not_false, if_pos rfl, found]
      at equal
    rw [(Prod.mk.inj equal).1]
    simp only [isRealImp, ne_eq, decide_eq_true_eq]
    omega

end Times

/--
De-duplication of impressions.

In every sequence of calls an id is counted at most once; an impression
without a referrer is counted exactly if its id was issued; and of two
impressions of one user on one page less than thirty seconds apart at most one
is a real one.
-/
theorem deduplicated_of_run (platform : Platform) {start : Int}
    {labels : List Label} {last : State}
    (run : Run (stepOf (next platform)) (.initial start) labels last) :
    Deduplicated platform labels where
  once := (tracks_of_run run).once
  exempt := by
    rintro front back time judgement cookieValue impuuid referrer rfl _
    obtain ⟨middle, earlier, run⟩ := Run.append_iff.mp run
    obtain ⟨after, taken, _⟩ := Run.cons_iff.mp run
    obtain ⟨order, judged, _, _⟩ := next_showad taken
    have decided := isNeedExecStatCode_b platform middle.redis time
      cookieValue impuuid referrer
    rw [judged] at decided
    exact decided.trans ((tracks_of_run earlier).live impuuid time order)
  spaced := by
    rintro front between back first second firstJudgement secondJudgement
      cookieValue firstId secondId referrer rfl present fast
      ⟨firstReal, secondReal⟩
    obtain ⟨_, _, run⟩ := Run.append_iff.mp run
    obtain ⟨shown, firstTaken, run⟩ := Run.cons_iff.mp run
    obtain ⟨middle, meanwhile, run⟩ := Run.append_iff.mp run
    obtain ⟨_, secondTaken, _⟩ := Run.cons_iff.mp run
    have seen : SeenSince (impfreqKey cookieValue referrer) first middle :=
      meanwhile.invariant (fun seen taken => seen.step taken)
        (seenSince_of_realImp firstTaken present firstReal)
    exact not_realImp_of_seenSince secondTaken present seen fast secondReal

/-- Two impressions of one user, shown on a page one second apart. -/
def twoImpressions (referrer : String) (second : Judgement) : List Label :=
  [(⟨0, .genImpressionUUID (text "a")⟩, ⟨false, false⟩),
    (⟨0, .genImpressionUUID (text "b")⟩, ⟨false, false⟩),
    (⟨1000, .showad (text "user") (text "a") (text referrer)⟩, ⟨true, true⟩),
    (⟨2000, .showad (text "user") (text "b") (text referrer)⟩, second)]

theorem deduplicated_twoImpressions :
    Deduplicated asciiPlatform
      (twoImpressions "http://www.example.com/a" ⟨true, false⟩) := by
  have executed :
      (execute (next asciiPlatform) (.initial 0)
        ((twoImpressions "http://www.example.com/a"
          ⟨true, false⟩).map Prod.fst)).map Prod.fst =
          some (twoImpressions "http://www.example.com/a"
            ⟨true, false⟩) := by
    decide +kernel
  obtain ⟨last, run⟩ := exists_run_of_execute executed
  exact deduplicated_of_run asciiPlatform run

/-- Two impressions without a referrer are both counted. -/
theorem deduplicated_without_referrer :
    ¬ ∀ labels last,
      Run (stepOf (next asciiPlatform)) (.initial 0) labels last →
      ∀ front between back first second firstJudgement secondJudgement
        cookieValue firstId secondId referrer,
        labels = front ++
          (⟨first, .showad cookieValue firstId referrer⟩, firstJudgement) ::
          (between ++ (⟨second, .showad cookieValue secondId referrer⟩,
            secondJudgement) :: back) →
        second - first < 30000 →
          ¬ (firstJudgement.b = true ∧ secondJudgement.b = true) := by
  intro always
  have executed :
      (execute (next asciiPlatform) (.initial 0)
        ((twoImpressions "" ⟨true, true⟩).map Prod.fst)).map Prod.fst =
          some (twoImpressions "" ⟨true, true⟩) := by
    decide +kernel
  obtain ⟨last, run⟩ := exists_run_of_execute executed
  exact always _ last run
    [(⟨0, .genImpressionUUID (text "a")⟩, ⟨false, false⟩),
      (⟨0, .genImpressionUUID (text "b")⟩, ⟨false, false⟩)]
    [] [] 1000 2000 ⟨true, true⟩ ⟨true, true⟩ (text "user") (text "a")
    (text "b") (text "") rfl (by decide) ⟨rfl, rfl⟩

end WindowSystem.Sspserver.DyAdService
