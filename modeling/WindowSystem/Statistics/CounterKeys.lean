import Mathlib.Data.List.TakeWhile
import Mathlib.Data.Nat.Digits.Defs
import WindowSystem.Sspserver.DayLimit

/-!
# The keys of the counters

`ckserver` counts an impression under a key that ends in the id of the ad or
of the material, as the request has written it; `adtimer` takes the id out of
the key and updates the rows with this id.  `ckserver` accepts what
`Integer.parseInt` reads, `adtimer` passes over what is not made of digits.
-/

namespace WindowSystem.Statistics.CounterKeys

open WindowSystem.Sspserver.DayLimit
open WindowSystem.Sspserver.JavaRuntime
open WindowSystem.Statistics.AdLogService
open WindowSystem.Statistics.AdStatInfo (NumType)
open WindowSystem.Statistics.RollOver

/-! ## Keys and rows -/

/-- What is counted. -/
inductive Counter where
  | ad
  | material
deriving DecidableEq

/-- `AD_STAT_KEY_PREFIX + adId` and `MATERIAL_STAT_KEY_PREFIX + materialId` -/
def statKey : Counter → JavaString → JavaString
  | .ad, id => text "adstat_main_" ++ id
  | .material, id => text "materialstat_main_" ++ id

/-- An update of the rows of an id. -/
structure StatBase where
  id : JavaString
  numType : NumType
deriving DecidableEq

/-- The loops of `AdStatInfoToMysqlRT` over the keys: the updates that it
makes in the end. -/
def adStatInfoToMysqlRT (platform : Platform) (keys : List JavaString) :
    List StatBase :=
  keys.flatMap fun key =>
    if skipped platform (adIdOfKey key) then []
    else [⟨adIdOfKey key, .day⟩, ⟨adIdOfKey key, .hour⟩]

/-- Two updates change the same row: the column of the id is a number. -/
def SameRow (platform : Platform) (one other : StatBase) : Prop :=
  parseInt platform one.id = parseInt platform other.id ∧
    one.numType = other.numType

/-- An id that comes with an impression that is accepted. -/
def Accepted (server : CkServer) (counter : Counter) (id : JavaString) :
    Prop :=
  ∃ impressInfo, server.isImpVaild impressInfo = true ∧
    match counter with
    | .ad => impressInfo.adId = id
    | .material => impressInfo.materialId = some id ∧
        isBlank server.platform id = false

/-- Every id is reported as it was counted, ids of the same number have the
same key, and no row is updated twice. -/
structure Agrees (platform : Platform) (counter : Counter)
    (ids : List JavaString) : Prop where
  reported : ∀ id ∈ ids, ∀ numType,
    ⟨id, numType⟩ ∈ adStatInfoToMysqlRT platform (ids.map (statKey counter))
  sameKey : ∀ id ∈ ids, ∀ other ∈ ids,
    parseInt platform id = parseInt platform other →
      statKey counter id = statKey counter other
  apart : (adStatInfoToMysqlRT platform
      (ids.map (statKey counter))).Pairwise
    fun one other => ¬ SameRow platform one other

/-! ## Conditions on the texts -/

/-- There is no sign in front of the digits. -/
def Unsigned (id : JavaString) : Prop :=
  id.head? ≠ some '-' ∧ id.head? ≠ some '+'

instance (id : JavaString) : Decidable (Unsigned id) :=
  inferInstanceAs (Decidable (_ ∧ _))

/-- The values of the digits, without zeros in front. -/
def significant (platform : Platform) (id : JavaString) : List Nat :=
  (id.map fun character => (platform.digit character).getD 0).dropWhile
    (· = 0)

/-- Signs and the underscore are no digits, digits are not white space, and
their values are less than ten. -/
structure Tables (platform : Platform) : Prop where
  characters : Characters platform
  minus : platform.digit '-' = none
  plus : platform.digit '+' = none
  small : ∀ character digit, platform.digit character = some digit →
    digit < 10

variable {platform : Platform} {id other : JavaString}

/-! ## Numbers -/

theorem readDigits_eq (all : isNumeric platform id = true) (value : Nat) :
    readDigits platform value id =
      some (value * 10 ^ id.length + Nat.ofDigits 10
        (id.map fun character => (platform.digit character).getD 0).reverse)
    := by
  induction id generalizing value with
  | nil => simp [readDigits]
  | cons first rest ih =>
      rw [isNumeric, List.all_cons, Bool.and_eq_true] at all
      obtain ⟨digit, is⟩ := Option.isSome_iff_exists.mp all.1
      rw [readDigits, is, Option.bind_some, ih all.2]
      simp only [List.map_cons, is, Option.getD_some, List.length_cons,
        Nat.ofDigits_reverse_cons, List.length_map, Option.some.injEq]
      ring

/-- A list of digits without zeros in front is that of its number. -/
theorem digits_ofDigits_reverse {digits : List Nat}
    (small : ∀ digit ∈ digits, digit < 10) :
    Nat.digits 10 (Nat.ofDigits 10 digits.reverse) =
      (digits.dropWhile (· = 0)).reverse := by
  have zeros : digits.takeWhile (· = 0) =
      List.replicate (digits.takeWhile (· = 0)).length 0 := by
    rw [List.eq_replicate_iff]
    refine ⟨rfl, fun digit member => ?_⟩
    simpa using List.mem_takeWhile_imp member
  have parts : digits.reverse = (digits.dropWhile (· = 0)).reverse ++
      List.replicate (digits.takeWhile (· = 0)).length 0 := by
    rw [← List.reverse_replicate, ← zeros, ← List.reverse_append,
      List.takeWhile_append_dropWhile]
  rw [parts, Nat.ofDigits_append_replicate_zero]
  apply Nat.digits_ofDigits _ (by omega)
  · intro digit member
    apply small
    exact (List.dropWhile_suffix _).subset (List.mem_reverse.mp member)
  · intro nonempty
    rw [List.getLast_reverse]
    have first := List.head_dropWhile_not (fun digit : Nat => digit = 0)
      (l := digits) (by simpa using nonempty)
    simpa using first

theorem parseInt_of_unsigned (unsigned : Unsigned id) :
    parseInt platform id =
      (readNumber platform id).bind fun number => inInt number := by
  unfold parseInt
  split
  case h_1 => exact absurd rfl unsigned.1
  case h_2 => exact absurd rfl unsigned.2
  case h_3 => rfl

section Accepted

variable (tables : Tables platform)
  (accepted : (parseInt platform id).isSome = true)

include accepted

theorem isNumeric_of_unsigned (unsigned : Unsigned id) :
    isNumeric platform id = true := by
  rw [parseInt_of_unsigned unsigned] at accepted
  obtain ⟨value, parsed⟩ := Option.isSome_iff_exists.mp accepted
  obtain ⟨number, read, -⟩ := Option.bind_eq_some_iff.mp parsed
  rw [readNumber] at read
  split_ifs at read
  rw [isNumeric, List.all_eq_true]
  exact isSome_digit_of_readDigits read

include tables

omit accepted in
theorem unsigned_of_isNumeric (numeric : isNumeric platform id = true) :
    Unsigned id := by
  rw [isNumeric, List.all_eq_true] at numeric
  constructor
  · intro first
    have digit := numeric '-' (List.mem_of_head? first)
    rw [tables.minus] at digit
    cases digit
  · intro first
    have digit := numeric '+' (List.mem_of_head? first)
    rw [tables.plus] at digit
    cases digit

/-- The timers pass over the ids with a sign. -/
theorem skipped_eq_false_iff : skipped platform id = false ↔ Unsigned id := by
  have visible := (numeric_of_parseInt accepted).not_isBlank tables.characters
  rw [skipped, visible, Bool.false_or, Bool.not_eq_false']
  exact ⟨unsigned_of_isNumeric tables,
    isNumeric_of_unsigned accepted⟩

/-- The timers take the id out of the key. -/
theorem adIdOfKey_statKey (counter : Counter) :
    adIdOfKey (statKey counter id) = id := by
  have numeric := numeric_of_parseInt accepted
  cases counter with
  | ad => exact numeric.adIdOfKey tables.characters
  | material =>
      have plain := numeric.underscore tables.characters
      obtain ⟨character, member, _⟩ := numeric.digit
      have parts : (statKey .material id).splitOn '_' =
          [text "materialstat", text "main", id] := by
        have front : text "materialstat_main_" =
            text "materialstat" ++ '_' :: (text "main" ++ ['_']) := by
          decide +kernel
        have key : statKey .material id =
            text "materialstat" ++ '_' :: (text "main" ++ '_' :: id) := by
          rw [statKey, front, List.append_assoc, List.cons_append,
            List.append_assoc]
          rfl
        rw [key, List.splitOn_append_cons_self_of_not_mem (by decide),
          List.splitOn_append_cons_self_of_not_mem (by decide),
          List.splitOn_eq_singleton plain]
      have present : '_' ∈ statKey .material id :=
        List.mem_append_left _ (by decide)
      have nonempty : id ≠ [] := List.ne_nil_of_mem member
      rw [adIdOfKey, split, if_pos present, parts]
      simp [nonempty]

omit tables in
theorem parseInt_eq (unsigned : Unsigned id) :
    parseInt platform id = some ((Nat.ofDigits 10
      (id.map fun character =>
        (platform.digit character).getD 0).reverse : Nat) : Int) := by
  have numeric := isNumeric_of_unsigned accepted unsigned
  rw [parseInt_of_unsigned unsigned] at accepted ⊢
  obtain ⟨value, parsed⟩ := Option.isSome_iff_exists.mp accepted
  obtain ⟨number, read, inRange⟩ := Option.bind_eq_some_iff.mp parsed
  have digits := read
  rw [readNumber] at digits
  split_ifs at digits
  rw [readDigits_eq numeric, Nat.zero_mul, Nat.zero_add,
    Option.some.injEq] at digits
  rw [read, Option.bind_some, digits]
  rw [inInt] at inRange ⊢
  split_ifs at inRange ⊢
  rfl

/-- The digits of the number are those of the text, without zeros in front. -/
theorem significant_eq (unsigned : Unsigned id) {number : Nat}
    (parsed : parseInt platform id = some (number : Int)) :
    significant platform id = (Nat.digits 10 number).reverse := by
  rw [parseInt_eq accepted unsigned, Option.some.injEq,
    Int.natCast_inj] at parsed
  rw [← parsed, digits_ofDigits_reverse, List.reverse_reverse]
  · rfl
  · intro digit member
    obtain ⟨character, inId, rfl⟩ := List.mem_map.mp member
    have numeric := isNumeric_of_unsigned accepted unsigned
    rw [isNumeric, List.all_eq_true] at numeric
    obtain ⟨value, is⟩ :=
      Option.isSome_iff_exists.mp (numeric character inId)
    rw [is]
    exact tables.small character value is

end Accepted

/-- Two numbers without a sign are the same if their texts differ only in
zeros in front and in the form of the digits. -/
theorem parseInt_eq_iff (tables : Tables platform)
    (accepted : (parseInt platform id).isSome = true)
    (acceptedToo : (parseInt platform other).isSome = true)
    (unsigned : Unsigned id) (unsignedToo : Unsigned other) :
    parseInt platform id = parseInt platform other ↔
      significant platform id = significant platform other := by
  have parsed := parseInt_eq accepted unsigned
  have parsedToo := parseInt_eq acceptedToo unsignedToo
  rw [significant_eq tables accepted unsigned parsed,
    significant_eq tables acceptedToo unsignedToo parsedToo, parsed,
    parsedToo, Option.some.injEq, Int.natCast_inj, List.reverse_inj,
    Nat.digits_inj_iff]

/-! ## Batches of updates -/

section Batch

variable {server : CkServer} {counter : Counter} {ids : List JavaString}

theorem parseInt_of_accepted (accepted : Accepted server counter id) :
    (parseInt server.platform id).isSome = true := by
  obtain ⟨impressInfo, valid, is⟩ := accepted
  rw [CkServer.isImpVaild, Bool.and_eq_true] at valid
  cases counter with
  | ad =>
      rw [← is]
      exact valid.1
  | material =>
      have number := valid.2
      rw [is.1, Option.all_some, is.2, Bool.false_or] at number
      exact number

theorem statKey_injective {id other : JavaString}
    (same : statKey counter id = statKey counter other) : id = other := by
  cases counter with
  | ad => exact List.append_cancel_left same
  | material => exact List.append_cancel_left same

/-- The updates of counters whose ids were accepted. -/
theorem adStatInfoToMysqlRT_map (tables : Tables server.platform)
    (accepted : ∀ id ∈ ids, Accepted server counter id) :
    adStatInfoToMysqlRT server.platform (ids.map (statKey counter)) =
      ids.flatMap fun id =>
        if Unsigned id then [⟨id, .day⟩, ⟨id, .hour⟩] else [] := by
  rw [adStatInfoToMysqlRT, List.flatMap_map]
  apply List.flatMap_congr
  intro id member
  have number := parseInt_of_accepted (accepted id member)
  rw [adIdOfKey_statKey tables number]
  by_cases unsigned : Unsigned id
  · rw [if_pos unsigned, (skipped_eq_false_iff tables number).mpr unsigned]
    rfl
  · rw [if_neg unsigned, if_pos]
    rw [← Bool.not_eq_false, skipped_eq_false_iff tables number]
    exact unsigned

theorem mem_adStatInfoToMysqlRT_map (tables : Tables server.platform)
    (accepted : ∀ id ∈ ids, Accepted server counter id)
    {update : StatBase} :
    update ∈ adStatInfoToMysqlRT server.platform
        (ids.map (statKey counter)) ↔
      update.id ∈ ids ∧ Unsigned update.id := by
  obtain ⟨id, numType⟩ := update
  rw [adStatInfoToMysqlRT_map tables accepted, List.mem_flatMap]
  constructor
  · rintro ⟨id, member, listed⟩
    split_ifs at listed with unsigned
    · simp only [List.mem_cons, List.not_mem_nil, or_false,
        StatBase.mk.injEq] at listed
      rcases listed with ⟨rfl, -⟩ | ⟨rfl, -⟩
      · exact ⟨member, unsigned⟩
      · exact ⟨member, unsigned⟩
    · cases listed
  · rintro ⟨member, unsigned⟩
    refine ⟨id, member, ?_⟩
    rw [if_pos unsigned]
    cases numType with
    | day => exact List.mem_cons_self
    | hour => exact List.mem_cons_of_mem _ List.mem_cons_self

/-- The updates of ids of different numbers change different rows. -/
theorem pairwise_not_sameRow (tables : Tables server.platform)
    (accepted : ∀ id ∈ ids, Accepted server counter id)
    (different : ids.Pairwise fun id other =>
      parseInt server.platform id ≠ parseInt server.platform other) :
    (adStatInfoToMysqlRT server.platform
      (ids.map (statKey counter))).Pairwise
        fun one other => ¬ SameRow server.platform one other := by
  rw [adStatInfoToMysqlRT_map tables accepted, List.pairwise_flatMap]
  constructor
  · intro id _
    split_ifs
    · rw [List.pairwise_pair]
      exact fun same => nomatch same.2
    · exact List.Pairwise.nil
  · apply different.imp
    intro id other numbers one inOne update inOther same
    have ids : one.id = id ∧ update.id = other := by
      split_ifs at inOne inOther
      · simp only [List.mem_cons, List.not_mem_nil, or_false]
          at inOne inOther
        constructor
        · rcases inOne with rfl | rfl <;> rfl
        · rcases inOther with rfl | rfl <;> rfl
      all_goals simp at inOne inOther
    rw [← ids.1, ← ids.2] at numbers
    exact numbers same.1

/-- `ckserver` and `adtimer` agree on a set of counters exactly if no id has a
sign, and no two ids differ only in zeros in front and in the form of the
digits. -/
theorem counters_agree_iff (tables : Tables server.platform)
    (accepted : ∀ id ∈ ids, Accepted server counter id)
    (nodup : ids.Nodup) :
    Agrees server.platform counter ids ↔
      (∀ id ∈ ids, Unsigned id) ∧
        ∀ id ∈ ids, ∀ other ∈ ids,
          significant server.platform id =
              significant server.platform other →
            id = other := by
  constructor
  · intro agrees
    have unsigned : ∀ id ∈ ids, Unsigned id := fun id member =>
      ((mem_adStatInfoToMysqlRT_map tables accepted).mp
        (agrees.reported id member .day)).2
    refine ⟨unsigned, fun id member other memberToo same => ?_⟩
    apply statKey_injective
    apply agrees.sameKey id member other memberToo
    exact (parseInt_eq_iff tables (parseInt_of_accepted (accepted id member))
      (parseInt_of_accepted (accepted other memberToo)) (unsigned id member)
      (unsigned other memberToo)).mpr same
  · rintro ⟨unsigned, injective⟩
    have different : ∀ id ∈ ids, ∀ other ∈ ids,
        parseInt server.platform id = parseInt server.platform other →
          id = other := by
      intro id member other memberToo same
      apply injective id member other memberToo
      exact (parseInt_eq_iff tables
        (parseInt_of_accepted (accepted id member))
        (parseInt_of_accepted (accepted other memberToo))
        (unsigned id member) (unsigned other memberToo)).mp same
    constructor
    case reported =>
      intro id member numType
      exact (mem_adStatInfoToMysqlRT_map tables accepted).mpr
        ⟨member, unsigned id member⟩
    case sameKey =>
      intro id member other memberToo same
      rw [different id member other memberToo same]
    case apart =>
      apply pairwise_not_sameRow tables accepted
      apply nodup.imp_of_mem
      intro id other member memberToo distinct same
      exact distinct (different id member other memberToo same)

end Batch

/-! ## Examples -/

theorem tables_asciiPlatform : Tables asciiPlatform where
  characters := characters_asciiPlatform
  minus := rfl
  plus := rfl
  small character digit is := by
    simp only [asciiPlatform, char_le_iff, Char.reduceToNat] at is
    split_ifs at is with inside
    cases is
    omega

/-- An impression of an ad without a material. -/
def impressionOf (adId : String) : ImpressInfo :=
  ⟨text adId, none, text "u", text "1.1.1.1"⟩

theorem accepted_impressionOf {adId : String}
    (valid : CkServer.plain.isImpVaild (impressionOf adId) = true) :
    Accepted CkServer.plain .ad (text adId) :=
  ⟨impressionOf adId, valid, rfl⟩

/-- Two ads whose counters are reported. -/
theorem seven_and_ten_agree :
    Agrees CkServer.plain.platform .ad [text "7", text "10"] := by
  apply (counters_agree_iff tables_asciiPlatform _ (by decide)).mpr
  · exact ⟨by decide, by decide +kernel⟩
  · intro id member
    simp only [List.mem_cons, List.not_mem_nil, or_false] at member
    rcases member with rfl | rfl
    · exact accepted_impressionOf (by decide +kernel)
    · exact accepted_impressionOf (by decide +kernel)

/-- An id with a sign is accepted and never reported; an id with a zero in
front is counted apart from the one without it. -/
theorem sign_and_zero_disagree :
    (Accepted CkServer.plain .ad (text "+7") ∧
        ¬ Agrees CkServer.plain.platform .ad [text "+7"]) ∧
      Accepted CkServer.plain .ad (text "7") ∧
        Accepted CkServer.plain .ad (text "07") ∧
        ¬ Agrees CkServer.plain.platform .ad [text "7", text "07"] := by
  refine ⟨⟨accepted_impressionOf (by decide +kernel), ?_⟩,
    accepted_impressionOf (by decide +kernel),
    accepted_impressionOf (by decide +kernel), ?_⟩
  · intro agrees
    have reported := agrees.reported (text "+7") (by decide) .day
    have none : adStatInfoToMysqlRT CkServer.plain.platform
        ([text "+7"].map (statKey .ad)) = [] := by
      decide +kernel
    rw [none] at reported
    cases reported
  · intro agrees
    have same := agrees.sameKey (text "7") (by decide) (text "07")
      (by decide) (by decide +kernel)
    exact absurd same (by decide)

end WindowSystem.Statistics.CounterKeys
