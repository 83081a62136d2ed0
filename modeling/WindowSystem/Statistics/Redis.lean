import Mathlib.Algebra.BigOperators.Group.List.Basic
import Mathlib.Algebra.Order.Group.Int
import Mathlib.Algebra.Ring.Int.Defs
import Mathlib.Data.Finset.Insert
import Mathlib.Data.Int.ConditionallyCompleteOrder
import Mathlib.Order.ConditionallyCompleteLattice.Basic
import WindowSystem.Sspserver.JavaRuntime

/-!
# The counters of one ad in redis

`ckserver` counts the impressions and clicks of an ad in the hash
`adstat_main_<ad>` and in four sets of users and addresses; the timers of
`adtimer` read and reset them.  The module has the keys of one ad and the
commands that both programs send.
-/

namespace WindowSystem.Statistics.Redis

open WindowSystem.Sspserver.JavaRuntime

/-! ## Keys and fields -/

/-- What a counter counts over. -/
inductive Period where
  | total
  | today
  | currentHour
deriving DecidableEq

/-- What is counted; these are also the columns of `ad_stat_info`. -/
inductive Count where
  | pv
  | click
  | uv
  | ip
  | mobilePv
  | mobileClick
  | close
deriving DecidableEq

/-- A counter of the hash, such as `today_pv_num`. -/
structure Field where
  period : Period
  count : Count
deriving DecidableEq

/-- The fields of the hash that are not counters. -/
inductive TextField where
  | adId
  | materialId
deriving DecidableEq

/-- The sets of the users and of the addresses, `adstat_day_uv_<ad>` and so
on. -/
inductive DetailKey where
  | adDayUvKey
  | adDayIpKey
  | adHourUvKey
  | adHourIpKey
deriving DecidableEq

/-- The counter that gets the size of the set. -/
def DetailKey.field : DetailKey → Field
  | .adDayUvKey => ⟨.today, .uv⟩
  | .adDayIpKey => ⟨.today, .ip⟩
  | .adHourUvKey => ⟨.currentHour, .uv⟩
  | .adHourIpKey => ⟨.currentHour, .ip⟩

/-- The hash `adstat_main_<ad>`; redis has no empty hash. -/
structure AdStatHash where
  numbers : Field → Option Int
  texts : TextField → Option JavaString

/-- The keys of one ad. -/
structure AdKeys where
  main : AdStatHash
  details : DetailKey → Finset JavaString

/-- The hash without any field, which is no key. -/
def AdStatHash.absent : AdStatHash :=
  ⟨fun _ => none, fun _ => none⟩

/-- All counters of the hash. -/
def fields : List Field :=
  [.total, .today, .currentHour].flatMap fun period =>
    [.pv, .click, .uv, .ip, .mobilePv, .mobileClick, .close].map
      (Field.mk period)

theorem mem_fields (field : Field) : field ∈ fields := by
  obtain ⟨period, count⟩ := field
  cases period <;> cases count <;> decide

/-- The answer to `exists`. -/
def AdStatHash.exists (hash : AdStatHash) : Bool :=
  fields.any (fun field => (hash.numbers field).isSome) ||
    [TextField.adId, .materialId].any fun field => (hash.texts field).isSome

/-- Nothing is stored for the ad. -/
def AdKeys.absent : AdKeys :=
  ⟨.absent, fun _ => ∅⟩

/-- The number in a counter; a missing one counts as zero. -/
def AdKeys.number (keys : AdKeys) (field : Field) : Int :=
  (keys.main.numbers field).getD 0

@[simp]
theorem number_absent (field : Field) : AdKeys.absent.number field = 0 :=
  rfl

/-- A hash that is not there has no counters. -/
theorem number_of_not_exists {keys : AdKeys}
    (absent : keys.main.exists = false) (field : Field) :
    keys.number field = 0 := by
  rw [AdStatHash.exists, Bool.or_eq_false_iff, List.any_eq_false] at absent
  have missing := absent.1 field (mem_fields field)
  rw [Bool.not_eq_true, Option.isSome_eq_false_iff,
    Option.isNone_iff_eq_none] at missing
  rw [AdKeys.number, missing]
  rfl

/-! ## Commands -/

/-- A command that writes. -/
inductive Command where
  | hincrBy (field : Field) (value : Int)
  | hset (field : Field) (value : Int)
  | hsetText (field : TextField) (value : JavaString)
  | sadd (key : DetailKey) (member : JavaString)
  | rename (key : DetailKey)
  | del
deriving DecidableEq

/-- The keys after a command.  A renamed set is not looked at again and
expires after a minute. -/
def run (keys : AdKeys) : Command → AdKeys
  | .hincrBy field value =>
      { keys with
        main :=
          { keys.main with
            numbers := Function.update keys.main.numbers field
              (some (keys.number field + value)) } }
  | .hset field value =>
      { keys with
        main :=
          { keys.main with
            numbers := Function.update keys.main.numbers field
              (some value) } }
  | .hsetText field value =>
      { keys with
        main :=
          { keys.main with
            texts := Function.update keys.main.texts field (some value) } }
  | .sadd key member =>
      { keys with
        details := Function.update keys.details key
          (insert member (keys.details key)) }
  | .rename key =>
      { keys with details := Function.update keys.details key ∅ }
  | .del => { keys with main := .absent }

/-- What a command adds to a counter that it does not overwrite. -/
def Command.amount (field : Field) : Command → Int
  | .hincrBy other value => if other = field then value else 0
  | .hset other value => if other = field then value else 0
  | _ => 0

/-- A command that loses what a counter holds. -/
def Command.overwrites (field : Field) : Command → Bool
  | .hset other _ => other = field
  | .del => true
  | _ => false

/-- A counter grows by the amount of a command that finds nothing to
overwrite. -/
theorem number_run {keys : AdKeys} {field : Field} {command : Command}
    (intact : command.overwrites field = true → keys.number field = 0) :
    (run keys command).number field =
      keys.number field + command.amount field := by
  cases command with
  | hincrBy other value =>
      by_cases same : other = field
      · subst same
        simp [run, AdKeys.number, Command.amount]
      · simp [run, AdKeys.number, Command.amount, same,
          Function.update_of_ne (Ne.symm same)]
  | hset other value =>
      by_cases same : other = field
      · subst same
        rw [intact (decide_eq_true rfl)]
        simp [run, AdKeys.number, Command.amount]
      · simp [run, AdKeys.number, Command.amount, same,
          Function.update_of_ne (Ne.symm same)]
  | del =>
      rw [intact rfl]
      rfl
  | hsetText other value => exact (add_zero _).symm
  | sadd key member => exact (add_zero _).symm
  | rename key => exact (add_zero _).symm

/-- After a command that loses the counter there is what it wrote. -/
theorem number_run_overwrites {keys : AdKeys} {field : Field}
    {command : Command} (lost : command.overwrites field = true) :
    (run keys command).number field = command.amount field := by
  cases command with
  | hset other value =>
      have same : other = field := of_decide_eq_true lost
      subst same
      simp [run, AdKeys.number, Command.amount]
  | del => rfl
  | _ => cases lost

/-! ## The key of the hash -/

theorem exists_iff (hash : AdStatHash) :
    hash.exists = true ↔
      (∃ field, (hash.numbers field).isSome) ∨
        ∃ field, (hash.texts field).isSome := by
  have text : ∀ field, field ∈ [TextField.adId, .materialId] := by
    intro field
    cases field <;> decide
  rw [AdStatHash.exists, Bool.or_eq_true, List.any_eq_true,
    List.any_eq_true]
  constructor
  · rintro (⟨field, _, found⟩ | ⟨field, _, found⟩)
    · exact .inl ⟨field, found⟩
    · exact .inr ⟨field, found⟩
  · rintro (⟨field, found⟩ | ⟨field, found⟩)
    · exact .inl ⟨field, mem_fields field, found⟩
    · exact .inr ⟨field, text field, found⟩

@[simp]
theorem not_exists_absent : AdStatHash.absent.exists = false :=
  rfl

/-- A command that brings the hash into being. -/
def Command.stores : Command → Bool
  | .hincrBy _ _ => true
  | .hset _ _ => true
  | .hsetText _ _ => true
  | _ => false

theorem exists_run (keys : AdKeys) {command : Command}
    (stays : command ≠ .del) :
    (run keys command).main.exists =
      (keys.main.exists || command.stores) := by
  cases command with
  | hincrBy field value =>
      rw [Command.stores, Bool.or_true, exists_iff]
      exact .inl ⟨field, by simp [run]⟩
  | hset field value =>
      rw [Command.stores, Bool.or_true, exists_iff]
      exact .inl ⟨field, by simp [run]⟩
  | hsetText field value =>
      rw [Command.stores, Bool.or_true, exists_iff]
      exact .inr ⟨field, by simp [run]⟩
  | sadd key member => exact (Bool.or_false _).symm
  | rename key => exact (Bool.or_false _).symm
  | del => exact absurd rfl stays

/-- A command that does not write the counter leaves its number. -/
theorem number_run_of_other (keys : AdKeys) {field : Field}
    {command : Command} (keeps : command.overwrites field = false)
    (nothing : command.amount field = 0) :
    (run keys command).number field = keys.number field := by
  rw [number_run, nothing, add_zero]
  intro overwrites
  rw [keeps] at overwrites
  cases overwrites

end WindowSystem.Statistics.Redis
