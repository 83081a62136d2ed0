import WindowSystem.Library.LabelledRun
import WindowSystem.Sspserver.JavaRuntime

/-!
# Switching the statistics codes of an ad

An ad that is counted in `NHT_<ad>` is shown with the statistics code of
`ad_3stat_code_sub`.  Once enough impressions are counted, `NHT2NotNHTTimerTask`
sets the status `F` and has the code moved to `ad_3stat_code_temp`; on the next
day `NotNHT2NHTTimerTask` clears the status and has the code moved back.  Each
move reads the row, looks at both columns and then sends an update that looks
at neither.  Both tasks run in the thread of one `Timer`.
-/

namespace WindowSystem.Statistics.NHTStatService

open WindowSystem.Library
open WindowSystem.Library.LabelledRun
open WindowSystem.Sspserver.JavaRuntime

variable (platform : Platform)

/-! ## The row and the hash -/

/-- The codes in the row of `ad_instance`. -/
structure AdInstance where
  ad3statCodeSub : JavaString
  ad3statCodeTemp : JavaString
deriving DecidableEq

/-- The update of `subStat2TempStat`. -/
def subStat2TempStat (row : AdInstance) : AdInstance where
  ad3statCodeSub := []
  ad3statCodeTemp := row.ad3statCodeSub

/-- The update of `tempStat2SubStat`. -/
def tempStat2SubStat (row : AdInstance) : AdInstance where
  ad3statCodeSub := row.ad3statCodeTemp
  ad3statCodeTemp := []

/-- The hash `NHT_<ad>`. -/
structure NhtAdMap where
  adSetPvNum : JavaString
  pvNum : Option Int
  sts : JavaString
deriving DecidableEq

/-- The status of an ad that has its impressions. -/
def full : JavaString := text "F"

/-- `pvNum >= adSetPvNum`, as far as both are numbers. -/
def NhtAdMap.reached (hash : NhtAdMap) : Bool :=
  match parseInt platform hash.adSetPvNum, inInt (hash.pvNum.getD 0) with
  | some adSetPvNum, some pvNum => decide (adSetPvNum ≤ pvNum)
  | _, _ => false

/-! ## The tasks -/

/-- What the service logs as an error. -/
inductive Message where
  | subMissing
  | tempPresent
  | subPresent
  | tempMissing
deriving DecidableEq

/-- What a message demands of the row. -/
def Message.demand : Message → AdInstance → Bool
  | .subMissing, row => isNotBlank platform row.ad3statCodeSub
  | .tempPresent, row => isBlank platform row.ad3statCodeTemp
  | .subPresent, row => isBlank platform row.ad3statCodeSub
  | .tempMissing, row => isNotBlank platform row.ad3statCodeTemp

/-- The messages whose demand the row does not meet. -/
def complaints (messages : List Message) (row : AdInstance) : List Message :=
  messages.filter fun message => !message.demand platform row

/-- The next command that the timer sends for the ad. -/
inductive Place where
  | idle
  | nhtStat2NnhtProcess
  | subStat2TempStat
  | clearSts
  | nNht2nhtStatProcess
  | tempStat2SubStat
deriving DecidableEq

/-- The stores and the timer. -/
structure State where
  row : AdInstance
  hash : NhtAdMap
  place : Place
deriving DecidableEq

/-- What happens to an ad. -/
inductive Event where
  | impression
  | nht2NotNht
  | notNht2Nht
  | advance
  | fail
  | edit (row : AdInstance)
deriving DecidableEq

/-- `NHT2NotNHTTimerTask` up to the call of the service. -/
def nht2NotNht (state : State) : State :=
  if state.hash.reached platform ∧ state.hash.sts ≠ full then
    { state with
      hash := { state.hash with sts := full }
      place := .nhtStat2NnhtProcess }
  else state

/-- `NotNHT2NHTTimerTask` up to the first `hset`. -/
def notNht2Nht (state : State) : State :=
  if state.hash.sts = full then
    { state with
      hash := { state.hash with pvNum := some 0 }
      place := .clearSts }
  else state

/-- `nhtStat2NnhtProcess` up to its update; only the second check returns. -/
def nhtStat2NnhtProcess (state : State) : List Message × State :=
  (complaints platform [.subMissing, .tempPresent] state.row,
    { state with
      place :=
        if isNotBlank platform state.row.ad3statCodeTemp then .idle
        else .subStat2TempStat })

/-- `nNht2nhtStatProcess` up to its update; only the second check returns. -/
def nNht2nhtStatProcess (state : State) : List Message × State :=
  (complaints platform [.subPresent, .tempMissing] state.row,
    { state with
      place :=
        if isBlank platform state.row.ad3statCodeTemp then .idle
        else .tempStat2SubStat })

/-- The next command of the timer. -/
def advance (state : State) : Option (List Message × State) :=
  match state.place with
  | .idle => none
  | .nhtStat2NnhtProcess => some (nhtStat2NnhtProcess platform state)
  | .subStat2TempStat =>
      some
        ([], { state with row := subStat2TempStat state.row, place := .idle })
  | .clearSts =>
      some ([],
        { state with
          hash := { state.hash with sts := [] }
          place := .nNht2nhtStatProcess })
  | .nNht2nhtStatProcess => some (nNht2nhtStatProcess platform state)
  | .tempStat2SubStat =>
      some
        ([], { state with row := tempStat2SubStat state.row, place := .idle })

/-- The places at which the service talks to the database. -/
def Place.inService : Place → Bool
  | .idle | .clearSts => false
  | _ => true

/-- One event.  The service is `@Transactional`: where it fails, the row stays
as it was.  `none` stands for an event that cannot happen. -/
def next (state : State) : Event → Option (List Message × State)
  | .impression =>
      some ([],
        { state with
          hash :=
            { state.hash with
              pvNum := some (state.hash.pvNum.getD 0 + 1) } })
  | .nht2NotNht =>
      if state.place = .idle then some ([], nht2NotNht platform state)
      else none
  | .notNht2Nht =>
      if state.place = .idle then some ([], notNht2Nht state) else none
  | .advance => advance platform state
  | .fail =>
      if state.place.inService then some ([], { state with place := .idle })
      else none
  | .edit row => some ([], { state with row })

/-- One event with what it logs. -/
abbrev Step : State → Event × List Message → State → Prop :=
  stepOf (next platform)

/-! ## What is claimed and when it holds -/

/-- A transition moves a code to a free column or does nothing. -/
def Moves (before after : AdInstance) : Prop :=
  after = before ∨
    (isNotBlank platform before.ad3statCodeSub ∧
      isBlank platform before.ad3statCodeTemp ∧
      after = subStat2TempStat before) ∨
    (isNotBlank platform before.ad3statCodeTemp ∧
      isBlank platform before.ad3statCodeSub ∧
      after = tempStat2SubStat before)

/-- The codes of a row. -/
def AdInstance.codes (row : AdInstance) : List JavaString :=
  [row.ad3statCodeSub, row.ad3statCodeTemp]

/-- Between two transitions, the status `F` means that the code is in the
second column. -/
def Located (state : State) : Prop :=
  state.place = .idle → state.hash.sts = full →
    isNotBlank platform state.row.ad3statCodeTemp = true

/-- What each step should do. -/
structure Safe (before : State) (event : Event) (after : State) : Prop where
  moves : (∀ row, event ≠ .edit row) → Moves platform before.row after.row
  kept : (∀ row, event ≠ .edit row) → ∀ code ∈ before.row.codes,
    isNotBlank platform code = true → code ∈ after.row.codes
  located : Located platform after

/-- How a transition goes on behind its checks: with its update or with a
failure, after the last edit that comes before, or with neither of them. -/
inductive Ending where
  | update (edited : Option AdInstance)
  | failure (edited : Option AdInstance)
  | pending

/-- The end of a transition that has been checked. -/
def ending (edited : Option AdInstance) : List Event → Ending
  | [] => .pending
  | .advance :: _ => .update edited
  | .fail :: _ => .failure edited
  | .edit row :: rest => ending (some row) rest
  | .impression :: rest => ending edited rest
  | .nht2NotNht :: rest => ending edited rest
  | .notNht2Nht :: rest => ending edited rest

/-- The update finds the row that `nhtStat2NnhtProcess` has let through, or
what an edit has left since; after a failure the status stays `F`. -/
def carefulSub2Temp (row : AdInstance) : Ending → Bool
  | .update none => isNotBlank platform row.ad3statCodeSub
  | .update (some edited) =>
      isNotBlank platform edited.ad3statCodeSub &&
        isBlank platform edited.ad3statCodeTemp
  | .failure none => false
  | .failure (some edited) => isNotBlank platform edited.ad3statCodeTemp
  | .pending => true

/-- The update finds the row that `nNht2nhtStatProcess` has let through, or
what an edit has left since. -/
def carefulTemp2Sub (row : AdInstance) : Ending → Bool
  | .update none => isBlank platform row.ad3statCodeSub
  | .update (some edited) =>
      isNotBlank platform edited.ad3statCodeTemp &&
          isBlank platform edited.ad3statCodeSub ||
        edited == ⟨[], []⟩
  | .failure _ => true
  | .pending => true

/-- What is asked of an event: of the row that a check sees, of the edits and
failures behind the check, of a failure before it, and of an edit between the
transitions. -/
def watched (state : State) (rest : List Event) : Event → Bool
  | .advance =>
      match state.place with
      | .nhtStat2NnhtProcess =>
          isNotBlank platform state.row.ad3statCodeTemp ||
            carefulSub2Temp platform state.row (ending none rest)
      | .nNht2nhtStatProcess =>
          isBlank platform state.row.ad3statCodeTemp ||
            carefulTemp2Sub platform state.row (ending none rest)
      | _ => true
  | .fail =>
      match state.place with
      | .nhtStat2NnhtProcess =>
          isNotBlank platform state.row.ad3statCodeTemp
      | _ => true
  | .edit row =>
      state.place != .idle || state.hash.sts != full ||
        isNotBlank platform row.ad3statCodeTemp
  | _ => true

/-- The runs whose checks, edits and failures are as asked. -/
def careful (state : State) : List Event → Bool
  | [] => true
  | event :: rest =>
      watched platform state rest event &&
        match next platform state event with
        | some (_, after) => careful after rest
        | none => true

/-! ## Single steps -/

/-- The steps that do what they should. -/
def harmless (before : State) : Event → Bool
  | .advance =>
      match before.place with
      | .subStat2TempStat =>
          isNotBlank platform before.row.ad3statCodeSub &&
            isBlank platform before.row.ad3statCodeTemp
      | .tempStat2SubStat =>
          isNotBlank platform before.row.ad3statCodeTemp &&
              isBlank platform before.row.ad3statCodeSub ||
            before.row == ⟨[], []⟩
      | _ => true
  | .fail =>
      match before.place with
      | .nhtStat2NnhtProcess | .subStat2TempStat =>
          isNotBlank platform before.row.ad3statCodeTemp
      | _ => true
  | .edit row =>
      before.place != .idle || before.hash.sts != full ||
        isNotBlank platform row.ad3statCodeTemp
  | _ => true

/-! ## Moves -/

@[simp]
theorem isBlank_nil : isBlank platform [] = true :=
  rfl

@[simp]
theorem isNotBlank_nil : isNotBlank platform [] = false :=
  rfl

/-- A code that a column gets is nowhere else lost. -/
theorem kept_of_moves {before after : AdInstance}
    (moves : Moves platform before after) :
    ∀ code ∈ before.codes,
      isNotBlank platform code = true → code ∈ after.codes := by
  intro code member present
  rcases moves with rfl | ⟨_, free, rfl⟩ | ⟨_, free, rfl⟩
  · exact member
  · simp only [AdInstance.codes, List.mem_cons, List.not_mem_nil,
      or_false] at member
    rcases member with rfl | rfl
    · simp [AdInstance.codes, subStat2TempStat]
    · simp [isNotBlank, free] at present
  · simp only [AdInstance.codes, List.mem_cons, List.not_mem_nil,
      or_false] at member
    rcases member with rfl | rfl
    · simp [isNotBlank, free] at present
    · simp [AdInstance.codes, tempStat2SubStat]

/-- An update moves a code exactly if the target is free and the source is
not, or if there is nothing to move. -/
theorem moves_tempStat2SubStat_iff (row : AdInstance) :
    Moves platform row (tempStat2SubStat row) ↔
      (isNotBlank platform row.ad3statCodeTemp &&
          isBlank platform row.ad3statCodeSub || row == ⟨[], []⟩) =
        true := by
  simp only [Bool.or_eq_true, Bool.and_eq_true, beq_iff_eq]
  constructor
  · rintro (same | ⟨present, free, same⟩ | ⟨present, free, _⟩)
    · right
      obtain ⟨sub, temp⟩ := row
      simp only [tempStat2SubStat, AdInstance.mk.injEq] at same
      rw [same.1, ← same.2] at *
    · obtain ⟨sub, temp⟩ := row
      simp only [tempStat2SubStat, subStat2TempStat,
        AdInstance.mk.injEq] at same
      obtain ⟨rfl, rfl⟩ := same
      cases present
    · exact .inl ⟨present, free⟩
  · rintro (⟨present, free⟩ | rfl)
    · exact .inr (.inr ⟨present, free, rfl⟩)
    · exact .inl rfl

/-- The first update also has to leave a code in the second column. -/
theorem moves_subStat2TempStat_iff (row : AdInstance) :
    Moves platform row (subStat2TempStat row) ∧
        isNotBlank platform (subStat2TempStat row).ad3statCodeTemp = true ↔
      (isNotBlank platform row.ad3statCodeSub &&
        isBlank platform row.ad3statCodeTemp) = true := by
  simp only [Bool.and_eq_true]
  constructor
  · rintro ⟨same | ⟨present, free, _⟩ | ⟨present, free, same⟩, filled⟩
    · obtain ⟨sub, temp⟩ := row
      simp only [subStat2TempStat, AdInstance.mk.injEq] at same filled
      obtain ⟨rfl, rfl⟩ := same
      cases filled
    · exact ⟨present, free⟩
    · simp [subStat2TempStat, isNotBlank, free] at filled
  · rintro ⟨present, free⟩
    exact ⟨.inr (.inl ⟨present, free, rfl⟩), present⟩

/-! ## The status along a run -/

/-- What the status is while the timer is at work. -/
def Sound (state : State) : Prop :=
  match state.place with
  | .idle => Located platform state
  | .nhtStat2NnhtProcess | .subStat2TempStat | .clearSts =>
      state.hash.sts = full
  | .nNht2nhtStatProcess | .tempStat2SubStat => state.hash.sts ≠ full

variable {platform}

theorem Sound.located {state : State} (sound : Sound platform state) :
    Located platform state := by
  intro idle
  rw [Sound, idle] at sound
  exact sound idle

theorem sound_of_located {state : State} (idle : state.place = .idle)
    (located : Located platform state) : Sound platform state := by
  rw [Sound, idle]
  exact located

/-- Only the timer changes the status and its own place. -/
theorem Sound.congr {before after : State} (sound : Sound platform before)
    (place : after.place = before.place)
    (status : after.hash.sts = before.hash.sts)
    (located : Located platform after) : Sound platform after := by
  rw [Sound] at sound ⊢
  rw [place, status]
  cases at_ : before.place <;> simp only [at_] at sound ⊢ <;> assumption

theorem safe_iff {before after : State} {event : Event} :
    Safe platform before event after ↔
      ((∀ row, event ≠ .edit row) → Moves platform before.row after.row) ∧
        Located platform after :=
  ⟨fun safe => ⟨safe.moves, safe.located⟩,
    fun ⟨moves, located⟩ =>
      ⟨moves, fun other => kept_of_moves platform (moves other), located⟩⟩

/-- A step that leaves the row is safe where it ends in a good state. -/
theorem safe_iff_located {before after : State} {event : Event}
    (row : after.row = before.row) :
    Safe platform before event after ↔ Located platform after := by
  rw [safe_iff, row]
  exact and_iff_right fun _ => .inl rfl

/-! ## One step -/

/-- A harmless step that keeps the row and the meaning of the status. -/
theorem quiet_step {before after : State} {event : Event}
    (row : after.row = before.row)
    (fits : harmless platform before event = true)
    (sound : Sound platform after) :
    (Safe platform before event after ↔
        harmless platform before event = true) ∧
      (Located platform after → Sound platform after) :=
  ⟨(safe_iff_located row).trans (iff_of_true sound.located fits),
    fun _ => sound⟩

/-- After the checks of `nhtStat2NnhtProcess`. -/
theorem sound_nhtStat2NnhtProcess {before : State}
    (status : before.hash.sts = full) :
    Sound platform (nhtStat2NnhtProcess platform before).2 := by
  rw [Sound, nhtStat2NnhtProcess]
  cases filled : isNotBlank platform before.row.ad3statCodeTemp with
  | true => exact fun _ _ => filled
  | false => exact status

/-- After the checks of `nNht2nhtStatProcess`. -/
theorem sound_nNht2nhtStatProcess {before : State}
    (status : before.hash.sts ≠ full) :
    Sound platform (nNht2nhtStatProcess platform before).2 := by
  rw [Sound, nNht2nhtStatProcess]
  cases isBlank platform before.row.ad3statCodeTemp with
  | true => exact fun _ full => absurd full status
  | false => exact status

/-- The commands of the timer. -/
theorem advance_step {before after : State} {messages : List Message}
    (sound : Sound platform before)
    (taken : advance platform before = some (messages, after)) :
    (Safe platform before .advance after ↔
        harmless platform before .advance = true) ∧
      (Located platform after → Sound platform after) := by
  rw [advance] at taken
  rw [Sound] at sound
  cases place : before.place with
  | idle => simp [place] at taken
  | nhtStat2NnhtProcess =>
      simp only [place, Option.some.injEq] at taken sound
      obtain ⟨-, rfl⟩ := Prod.mk.inj taken
      exact quiet_step rfl (by rw [harmless, place])
        (sound_nhtStat2NnhtProcess sound)
  | subStat2TempStat =>
      simp only [place, Option.some.injEq, Prod.mk.injEq] at taken sound
      obtain ⟨-, rfl⟩ := taken
      refine ⟨?_, fun located => sound_of_located rfl located⟩
      rw [safe_iff, harmless, place,
        ← moves_subStat2TempStat_iff platform before.row]
      simp [Located, sound]
  | clearSts =>
      simp only [place, Option.some.injEq, Prod.mk.injEq] at taken
      obtain ⟨-, rfl⟩ := taken
      exact quiet_step rfl (by rw [harmless, place])
        (by simp [Sound, full, text])
  | nNht2nhtStatProcess =>
      simp only [place, Option.some.injEq] at taken sound
      obtain ⟨-, rfl⟩ := Prod.mk.inj taken
      exact quiet_step rfl (by rw [harmless, place])
        (sound_nNht2nhtStatProcess sound)
  | tempStat2SubStat =>
      simp only [place, Option.some.injEq, Prod.mk.injEq] at taken sound
      obtain ⟨-, rfl⟩ := taken
      refine ⟨?_, fun located => sound_of_located rfl located⟩
      rw [safe_iff, harmless, place,
        ← moves_tempStat2SubStat_iff platform before.row]
      simp [Located, sound]

/-- A failure leaves the status behind. -/
theorem fail_step {before : State} (sound : Sound platform before)
    (inService : before.place.inService = true) :
    Safe platform before .fail { before with place := .idle } ↔
      harmless platform before .fail = true := by
  have row : ({ before with place := .idle } : State).row = before.row := rfl
  rw [safe_iff_located row, harmless, Located]
  rw [Sound] at sound
  cases place : before.place <;>
    simp_all [Place.inService]

/-- A step does what it should exactly if it is harmless, and then the status
still says where the code is. -/
theorem step_iff {before after : State} {event : Event}
    {messages : List Message} (sound : Sound platform before)
    (taken : next platform before event = some (messages, after)) :
    (Safe platform before event after ↔
        harmless platform before event = true) ∧
      (Located platform after → Sound platform after) := by
  cases event with
  | impression =>
      simp only [next, Option.some.injEq, Prod.mk.injEq] at taken
      obtain ⟨-, rfl⟩ := taken
      exact quiet_step rfl rfl (sound.congr rfl rfl sound.located)
  | nht2NotNht =>
      obtain ⟨idle, taken⟩ := Option.ite_none_right_eq_some.mp taken
      simp only [Option.some.injEq, Prod.mk.injEq] at taken
      obtain ⟨-, rfl⟩ := taken
      rw [nht2NotNht]
      split_ifs with reached
      · exact quiet_step rfl rfl rfl
      · exact quiet_step rfl rfl sound
  | notNht2Nht =>
      obtain ⟨idle, taken⟩ := Option.ite_none_right_eq_some.mp taken
      simp only [Option.some.injEq, Prod.mk.injEq] at taken
      obtain ⟨-, rfl⟩ := taken
      rw [notNht2Nht]
      split_ifs with status
      · exact quiet_step rfl rfl status
      · exact quiet_step rfl rfl sound
  | advance => exact advance_step sound taken
  | fail =>
      obtain ⟨inService, taken⟩ := Option.ite_none_right_eq_some.mp taken
      simp only [Option.some.injEq, Prod.mk.injEq] at taken
      obtain ⟨-, rfl⟩ := taken
      exact ⟨fail_step sound inService,
        fun located => sound_of_located rfl located⟩
  | edit row =>
      simp only [next, Option.some.injEq, Prod.mk.injEq] at taken
      obtain ⟨-, rfl⟩ := taken
      refine ⟨?_, fun located => sound.congr rfl rfl located⟩
      rw [safe_iff]
      simp only [harmless, Located, Bool.or_eq_true, bne_iff_ne]
      constructor
      · rintro ⟨-, located⟩
        by_cases idle : before.place = .idle
        · by_cases status : before.hash.sts = full
          · exact .inr (located idle status)
          · exact .inl (.inr status)
        · exact .inl (.inl idle)
      · intro fits
        refine ⟨fun other => absurd rfl (other row), fun idle status => ?_⟩
        exact fits.resolve_left
          (not_or.mpr ⟨not_not.mpr idle, not_not.mpr status⟩)

/-! ## Behind the checks -/

/-- The edits before an event are those behind it, or the one before them. -/
def Ending.orEdited (edited : Option AdInstance) : Ending → Ending
  | .update later => .update (later.or edited)
  | .failure later => .failure (later.or edited)
  | .pending => .pending

theorem ending_eq (edited : Option AdInstance) (rest : List Event) :
    ending edited rest = (ending none rest).orEdited edited := by
  induction rest generalizing edited with
  | nil => rfl
  | cons event rest induction =>
      cases event with
      | edit row =>
          rw [ending, ending, induction (some row)]
          cases ending none rest <;> simp [Ending.orEdited]
      | advance => rfl
      | fail => rfl
      | impression => exact induction edited
      | nht2NotNht => exact induction edited
      | notNht2Nht => exact induction edited

/-- What is still asked of the end of a transition whose checks are done. -/
def owed (platform : Platform) (state : State) (rest : List Event) : Bool :=
  match state.place with
  | .subStat2TempStat =>
      carefulSub2Temp platform state.row (ending (some state.row) rest)
  | .tempStat2SubStat =>
      carefulTemp2Sub platform state.row (ending (some state.row) rest)
  | _ => true

/-- After an edit the row of the check does not matter. -/
theorem carefulSub2Temp_edited (row other edited : AdInstance)
    (rest : List Event) :
    carefulSub2Temp platform row (ending (some edited) rest) =
      carefulSub2Temp platform other (ending (some edited) rest) := by
  rw [ending_eq]
  rcases ending none rest with (_ | later) | (_ | later) | _ <;> rfl

/-- After an edit the row of the check does not matter. -/
theorem carefulTemp2Sub_edited (row other edited : AdInstance)
    (rest : List Event) :
    carefulTemp2Sub platform row (ending (some edited) rest) =
      carefulTemp2Sub platform other (ending (some edited) rest) := by
  rw [ending_eq]
  rcases ending none rest with (_ | later) | (_ | later) | _ <;> rfl

/-- The check has seen that there is no code in the second column. -/
theorem carefulSub2Temp_checked {row : AdInstance}
    (free : isNotBlank platform row.ad3statCodeTemp = false)
    (rest : List Event) :
    carefulSub2Temp platform row (ending (some row) rest) =
      carefulSub2Temp platform row (ending none rest) := by
  have blank : isBlank platform row.ad3statCodeTemp = true := by
    simpa [isNotBlank] using free
  rw [ending_eq (some row)]
  rcases ending none rest with (_ | edited) | (_ | edited) | _ <;>
    simp [Ending.orEdited, carefulSub2Temp, free, blank]

/-- The check has seen that there is a code in the second column. -/
theorem carefulTemp2Sub_checked {row : AdInstance}
    (present : isBlank platform row.ad3statCodeTemp = false)
    (rest : List Event) :
    carefulTemp2Sub platform row (ending (some row) rest) =
      carefulTemp2Sub platform row (ending none rest) := by
  have filled : isNotBlank platform row.ad3statCodeTemp = true := by
    simpa [isNotBlank] using present
  have nonempty : (row == ⟨[], []⟩) = false := by
    rw [beq_eq_false_iff_ne]
    rintro rfl
    cases filled
  rw [ending_eq (some row)]
  rcases ending none rest with (_ | edited) | (_ | edited) | _ <;>
    simp [Ending.orEdited, carefulTemp2Sub, filled, nonempty]

/-- The commands of the timer meet what is asked of them and of what is still
to come. -/
theorem advance_owed {before after : State} {messages : List Message}
    (rest : List Event)
    (taken : advance platform before = some (messages, after)) :
    (harmless platform before .advance && owed platform after rest) =
      (owed platform before (.advance :: rest) &&
        watched platform before rest .advance) := by
  rw [advance] at taken
  cases place : before.place with
  | idle => simp [place] at taken
  | nhtStat2NnhtProcess =>
      simp only [place, Option.some.injEq] at taken
      obtain ⟨-, rfl⟩ := Prod.mk.inj taken
      cases free : isNotBlank platform before.row.ad3statCodeTemp with
      | true =>
          simp [harmless, owed, watched, place, free]
      | false =>
          simp [harmless, owed, watched, place, free,
            carefulSub2Temp_checked free]
  | subStat2TempStat =>
      simp only [place, Option.some.injEq, Prod.mk.injEq] at taken
      obtain ⟨-, rfl⟩ := taken
      simp [harmless, owed, watched, place, ending, carefulSub2Temp]
  | clearSts =>
      simp only [place, Option.some.injEq, Prod.mk.injEq] at taken
      obtain ⟨-, rfl⟩ := taken
      simp [harmless, owed, watched, place]
  | nNht2nhtStatProcess =>
      simp only [place, Option.some.injEq] at taken
      obtain ⟨-, rfl⟩ := Prod.mk.inj taken
      cases present : isBlank platform before.row.ad3statCodeTemp with
      | true =>
          simp [harmless, owed, watched, place, present]
      | false =>
          simp [harmless, owed, watched, place, present,
            carefulTemp2Sub_checked present]
  | tempStat2SubStat =>
      simp only [place, Option.some.injEq, Prod.mk.injEq] at taken
      obtain ⟨-, rfl⟩ := taken
      simp [harmless, owed, watched, place, ending, carefulTemp2Sub]

/-- What is asked of a step and of what is still to come. -/
theorem step_owed {before after : State} {event : Event}
    {messages : List Message} (rest : List Event)
    (taken : next platform before event = some (messages, after)) :
    (harmless platform before event && owed platform after rest) =
      (owed platform before (event :: rest) &&
        watched platform before rest event) := by
  cases event with
  | impression =>
      simp only [next, Option.some.injEq, Prod.mk.injEq] at taken
      obtain ⟨-, rfl⟩ := taken
      cases place : before.place <;>
        simp [harmless, owed, watched, place, ending]
  | nht2NotNht =>
      obtain ⟨idle, taken⟩ := Option.ite_none_right_eq_some.mp taken
      simp only [Option.some.injEq, Prod.mk.injEq] at taken
      obtain ⟨-, rfl⟩ := taken
      rw [nht2NotNht]
      split_ifs <;> simp [harmless, owed, watched, idle]
  | notNht2Nht =>
      obtain ⟨idle, taken⟩ := Option.ite_none_right_eq_some.mp taken
      simp only [Option.some.injEq, Prod.mk.injEq] at taken
      obtain ⟨-, rfl⟩ := taken
      rw [notNht2Nht]
      split_ifs <;> simp [harmless, owed, watched, idle]
  | advance => exact advance_owed rest taken
  | fail =>
      obtain ⟨inService, taken⟩ := Option.ite_none_right_eq_some.mp taken
      simp only [Option.some.injEq, Prod.mk.injEq] at taken
      obtain ⟨-, rfl⟩ := taken
      cases place : before.place <;>
        simp [harmless, owed, watched, place, ending, carefulSub2Temp,
          carefulTemp2Sub]
  | edit row =>
      simp only [next, Option.some.injEq, Prod.mk.injEq] at taken
      obtain ⟨-, rfl⟩ := taken
      cases place : before.place <;>
        simp [harmless, owed, watched, place, ending,
          carefulSub2Temp_edited row before.row,
          carefulTemp2Sub_edited row before.row, Bool.and_comm]

/-- The steps of a run are harmless exactly if its checks, edits and failures
are as asked, from now on and behind a check that is already done. -/
theorem harmless_iff_owed {first last : State}
    {labels : List (Event × List Message)}
    (run : Run (Step platform) first labels last) :
    Run (fun before label after =>
        harmless platform before label.1 = true ∧
          Step platform before label after) first labels last ↔
      (owed platform first (labels.map Prod.fst) &&
        careful platform first (labels.map Prod.fst)) = true := by
  induction run with
  | nil state =>
      refine iff_of_true (.nil state) ?_
      rw [List.map_nil, owed, careful]
      cases state.place <;> rfl
  | @cons first middle last label labels taken rest induction =>
      have step := step_owed (labels.map Prod.fst) taken
      have carefully : careful platform first
          (label.1 :: labels.map Prod.fst) =
            (watched platform first (labels.map Prod.fst) label.1 &&
              careful platform middle (labels.map Prod.fst)) := by
        rw [careful, show next platform first label.1 =
          some (label.2, middle) from taken]
      rw [List.map_cons, carefully, ← Bool.and_assoc, ← step,
        Bool.and_assoc, Bool.and_eq_true, ← induction]
      constructor
      · intro steps
        obtain ⟨other, ⟨fits, another⟩, later⟩ := Run.cons_iff.mp steps
        rw [stepOf_deterministic another taken] at later
        exact ⟨fits, later⟩
      · rintro ⟨fits, later⟩
        exact .cons ⟨fits, taken⟩ later

/-! ## Runs -/

section Claims

variable {first last : State} {labels : List (Event × List Message)}

/-- The harmless steps are those that do what they should. -/
theorem safe_iff_harmless (idle : first.place = .idle)
    (located : Located platform first) :
    Run (fun before label after =>
        Safe platform before label.1 after ∧
          Step platform before label after) first labels last ↔
      Run (fun before label after =>
        harmless platform before label.1 = true ∧
          Step platform before label after) first labels last := by
  have sound := sound_of_located idle located
  constructor
  · intro safe
    apply safe.mono_of_invariant _ sound
    rintro before label after sound ⟨safe, taken⟩
    have step := step_iff sound taken
    exact ⟨⟨step.1.mp safe, taken⟩, step.2 safe.located⟩
  · intro harmless
    apply harmless.mono_of_invariant _ sound
    rintro before label after sound ⟨fits, taken⟩
    have step := step_iff sound taken
    have safe := step.1.mpr fits
    exact ⟨⟨safe, taken⟩, step.2 safe.located⟩

/-- In a run, the codes are handled well exactly if the check before a move
sees a code in the first column for the one direction and none for the other,
the last edit behind a check leaves a code that can be moved, an administrator
leaves a code in the second column while the status is `F`, and the database
fails only where it is already there. -/
theorem safe_iff_careful (idle : first.place = .idle)
    (located : Located platform first)
    (run : Run (Step platform) first labels last) :
    Run (fun before label after =>
        Safe platform before label.1 after ∧
          Step platform before label after) first labels last ↔
      careful platform first (labels.map Prod.fst) = true := by
  rw [safe_iff_harmless idle located, harmless_iff_owed run, owed, idle,
    Bool.true_and]

/-- What an administrator enters in the first column while the status is `F`
is overwritten on the next day, right after the service has logged that the
column should be empty. -/
theorem exists_overwritten :
    ∃ (first last : State) (labels : List (Event × List Message)),
      first.place = .idle ∧ Located asciiPlatform first ∧
        Run (Step asciiPlatform) first labels last ∧
        (.advance, [.subPresent]) ∈ labels ∧
        (.edit ⟨text "new", text "old"⟩, []) ∈ labels ∧
        last.row = ⟨text "old", []⟩ ∧
        ¬ Run (fun before label after =>
            Safe asciiPlatform before label.1 after ∧
              Step asciiPlatform before label after) first labels last := by
  have executed : (execute (next asciiPlatform)
      ⟨⟨text "old", []⟩, ⟨text "1", none, []⟩, .idle⟩
      [.impression, .nht2NotNht, .advance, .advance,
        .edit ⟨text "new", text "old"⟩, .notNht2Nht, .advance,
        .advance]).any (fun (labels, before) =>
          decide ((.advance, [.subPresent]) ∈ labels) &&
          decide ((.edit ⟨text "new", text "old"⟩, []) ∈ labels) &&
          decide (before = ⟨⟨text "new", text "old"⟩,
            ⟨text "1", some 0, []⟩, .tempStat2SubStat⟩)) = true := by
    decide +kernel
  obtain ⟨labels, before, run, tested⟩ := exists_run_of_test executed
  simp only [Bool.and_eq_true, decide_eq_true_eq] at tested
  obtain ⟨⟨logged, edited⟩, rfl⟩ := tested
  have taken : Step asciiPlatform
      ⟨⟨text "new", text "old"⟩, ⟨text "1", some 0, []⟩, .tempStat2SubStat⟩
      (.advance, [])
      ⟨⟨text "old", []⟩, ⟨text "1", some 0, []⟩, .idle⟩ := rfl
  refine ⟨_, _, labels ++ [(.advance, [])], rfl, ?_, run.append (.single taken),
    List.mem_append_left _ logged, List.mem_append_left _ edited, rfl,
    Run.not_restrict stepOf_deterministic run ?_⟩
  · intro _ status
    cases status
  · intro safe
    have kept := safe.kept (by simp) (text "new")
    revert kept
    decide +kernel

/-- A code that is moved away and back, with an edit behind each check. -/
theorem exists_moved_and_back :
    ∃ (first last : State) (labels : List (Event × List Message)),
      last.row = ⟨text "third", []⟩ ∧
        (.edit ⟨text "second", []⟩, []) ∈ labels ∧
        (.edit ⟨[], text "third"⟩, []) ∈ labels ∧
        Run (fun before label after =>
          Safe asciiPlatform before label.1 after ∧
            Step asciiPlatform before label after) first labels last := by
  have executed : (execute (next asciiPlatform)
      ⟨⟨text "code", []⟩, ⟨text "1", none, []⟩, .idle⟩
      [.impression, .nht2NotNht, .advance, .edit ⟨text "second", []⟩,
        .advance, .notNht2Nht, .advance, .advance,
        .edit ⟨text "third", text "second"⟩, .edit ⟨[], text "third"⟩,
        .advance]).any (fun (labels, last) =>
          decide ((.edit ⟨text "second", []⟩, []) ∈ labels) &&
          decide ((.edit ⟨[], text "third"⟩, []) ∈ labels) &&
          decide (last.row = ⟨text "third", []⟩) &&
          careful asciiPlatform
            ⟨⟨text "code", []⟩, ⟨text "1", none, []⟩, .idle⟩
            (labels.map Prod.fst)) = true := by
    decide +kernel
  obtain ⟨labels, last, run, tested⟩ := exists_run_of_test executed
  simp only [Bool.and_eq_true, decide_eq_true_eq] at tested
  obtain ⟨⟨⟨second, third⟩, row⟩, carefully⟩ := tested
  refine ⟨_, last, labels, row, second, third,
    (safe_iff_careful rfl ?_ run).mpr carefully⟩
  intro _ status
  cases status

end Claims

end WindowSystem.Statistics.NHTStatService
