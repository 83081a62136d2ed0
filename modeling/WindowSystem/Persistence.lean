import WindowSystem.Library.StaleCopy
import WindowSystem.MqCountRedisStore
import WindowSystem.SubscriberCaps

/-!
# Restoring the counts after a restart

Every pass-back that counts in a surplus or crowd record copies the record's
count and the subscriber's count into one field of redis.  A field is stale
for a counter as soon as another field has been written by a pass-back of the
same counter.  The invariant of this module relates the fields to the tables
through `Library.StaleCopy`; the theorem says for which histories and orders
of the reply the loader restores the tables.
-/

namespace WindowSystem.Persistence

open WindowSystem.CRuntime
open WindowSystem.DataPassBack
open WindowSystem.DcGlobal
open WindowSystem.FilterRulePop
open WindowSystem.Library
open WindowSystem.Library.LabelledRun
open WindowSystem.Library.StaleCopy
open WindowSystem.MqCountRedisStore
open WindowSystem.SubscriberCaps
open WindowSystem.ToolHashMap
open WindowSystem.UserCaps

/-! ## Records in a step -/

/-- The pass-back of a label counted in a record. -/
def countsIn (id : RecordId) : Event × Reply → Bool
  | (_, .passedBack passBack) => passBack.counted = some id
  | (_, .answered _) => false

/-- The times of the pass-backs are positive values of type `int`. -/
def IntTime : Event → Prop
  | .request _ _ _ => True
  | .passBack _ currTime => 0 < currTime ∧ currTime < 2 ^ 31

instance : DecidablePred IntTime
  | .request _ _ _ => isTrue trivial
  | .passBack _ currTime =>
      inferInstanceAs (Decidable (0 < currTime ∧ currTime < 2 ^ 31))

/-- What a step does to a record in which it counts nothing. -/
inductive RecordKept :
    Option FilterUserInfo → Option FilterUserInfo → Prop where
  | same (record : Option FilterUserInfo) : RecordKept record record
  | opened {new : FilterUserInfo} :
      new.iFactCount = 0 → new.iFactTime = 0 → RecordKept none (some new)
  | answered {old new : FilterUserInfo} :
      new.iFactCount = old.iFactCount →
      new.iFactTime = old.iFactTime ∨ new.iFactTime = 0 →
      RecordKept (some old) (some new)

theorem RecordKept.factTime {old : Option FilterUserInfo}
    {new : FilterUserInfo} (kept : RecordKept old (some new)) :
    new.iFactTime = 0 ∨
      ∃ record, old = some record ∧ new.iFactTime = record.iFactTime := by
  cases kept with
  | same => exact .inr ⟨new, rfl, rfl⟩
  | opened _ noTime => exact .inl noTime
  | answered _ time =>
      rcases time with sameTime | noTime
      · exact .inr ⟨_, rfl, sameTime⟩
      · exact .inl noTime

theorem decideKnown_kept (limits : UserLimits) (pUserInfo : FilterUserInfo)
    (lSec : Int) :
    RecordKept (some pUserInfo)
      (some (decideKnown limits pUserInfo lSec).2) := by
  rw [decideKnown]
  split
  · exact .same _
  split
  · split
    · split
      · exact .same _
      · exact .answered rfl (.inl rfl)
    · split
      · split
        · exact .same _
        · exact .answered rfl (.inr rfl)
      · exact .same _
  · exact .same _

theorem Decided.kept {limits : UserLimits} {lSec : Int}
    {old new : Option FilterUserInfo} {answer : Bool}
    (decided : Decided limits lSec old answer new) :
    RecordKept old new := by
  cases decided with
  | refused => exact .same _
  | first => exact .opened rfl rfl
  | known pUserInfo => exact decideKnown_kept _ _ _

variable {conf : Conf} {before after : Server} {label : Event × Reply}

/-- One event keeps every record in which it counts nothing. -/
theorem serverStep_kept (allocated : before.Allocated)
    (taken : stepOf (serverStep conf) before label after)
    {id : RecordId} (uncounted : countsIn id label = false) :
    RecordKept (before.record id) (after.record id) := by
  cases serverStep_cases taken with
  | @request table psMqHttpMes sAd answer decision =>
      obtain ⟨others, same⟩ := decision.decided allocated
      by_cases changed : id = recordId table sAd.text psMqHttpMes.pcUa
      · rw [changed]
        exact Decided.kept same
      · rw [others id changed]
        exact .same _
  | @passBack message currTime passBack effect =>
      have effect := effect.record allocated
      cases counted : passBack.counted with
      | none =>
          rw [counted, RecordEffect] at effect
          rw [effect id]
          exact .same _
      | some changed =>
          rw [counted, RecordEffect] at effect
          have different : id ≠ changed := by
            rintro rfl
            simp [countsIn, counted] at uncounted
          rw [effect.others id different]
          exact .same _

/-- One event counts once in the record that it counts in. -/
theorem serverStep_countedOnce (allocated : before.Allocated)
    (taken : stepOf (serverStep conf) before label after)
    {id : RecordId} (counted : countsIn id label = true) :
    ∃ currTime, CountedOnce before after id currTime := by
  cases serverStep_cases taken with
  | request => simp [countsIn] at counted
  | @passBack message currTime passBack effect =>
      have effect := effect.record allocated
      simp only [countsIn, decide_eq_true_eq] at counted
      rw [counted] at effect
      exact ⟨currTime, effect⟩

/-! ## The invariant -/

/-- A record holds the number of its pass-backs. -/
def RecordCounts (counted : Nat) : Option FilterUserInfo → Prop
  | none => counted = 0
  | some pUserInfo =>
      pUserInfo.iFactCount = counted ∧
        (counted = 0 → pUserInfo.iFactTime = 0)

theorem RecordCounts.kept {counted : Nat}
    {old new : Option FilterUserInfo} (counts : RecordCounts counted old)
    (kept : RecordKept old new) : RecordCounts counted new := by
  cases kept with
  | same => exact counts
  | opened noCount noTime =>
      have none : counted = 0 := counts
      exact ⟨by rw [noCount, none]; rfl, fun _ => noTime⟩
  | answered sameCount time =>
      obtain ⟨count, unconfirmed⟩ := counts
      refine ⟨by rw [sameCount, count], fun none => ?_⟩
      rcases time with sameTime | noTime
      · rw [sameTime, unconfirmed none]
      · exact noTime

/-- The field of redis that a label writes. -/
def writtenField (label : Event × Reply) : Option Bytes :=
  (sentCommand label).map Hset.field

/-- The record that is loaded from a field of a subscriber. -/
def fieldRecord (adTable : AdTable) (ad field : Bytes) : RecordId where
  table := adTable.users
  iTid := userThread ad
  key := fingerprint adTable.users.length field field.length

/-- What is known of a field: its parts can be read back, its two counts are
copies, and a current copy has the time of its record. -/
structure Written (labels : List (Event × Reply)) (server : Server)
    (adTable : AdTable) (field ad : Bytes) (pUserInfo : FilterUserInfo)
    (count factCount : Nat) : Prop where
  ad_ne_nil : ad ≠ []
  ad_token : 58 ∉ ad ∧ 0 ∉ ad
  field_clean : 0 ∉ field
  field_short : field.length < 128
  factCount_eq : pUserInfo.iFactCount = factCount
  factCount_small : factCount < 2 ^ 31
  time : 0 < pUserInfo.iFactTime ∧ pUserInfo.iFactTime < 2 ^ 31
  counterCopy :
    Copy (countsFor (counterId adTable ad)) writtenField labels field count
  recordCopy :
    Copy (countsIn (fieldRecord adTable ad field)) writtenField labels field
      factCount
  current :
    factCount = labels.countP (countsIn (fieldRecord adTable ad field)) →
    ∀ record, server.record (fieldRecord adTable ad field) = some record →
      record.iFactTime = 0 ∨ record.iFactTime = pUserInfo.iFactTime

theorem Written.kept {labels : List (Event × Reply)} {adTable : AdTable}
    {field ad : Bytes} {pUserInfo : FilterUserInfo} {count factCount : Nat}
    (written :
      Written labels before adTable field ad pUserInfo count factCount)
    (allocated : before.Allocated)
    (taken : stepOf (serverStep conf) before label after)
    (counterElsewhere :
      countsFor (counterId adTable ad) label = true →
        writtenField label ≠ some field)
    (recordElsewhere :
      countsIn (fieldRecord adTable ad field) label = true →
        writtenField label ≠ some field) :
    Written (labels ++ [label]) after adTable field ad pUserInfo count
      factCount :=
  { written with
    counterCopy := written.counterCopy.kept counterElsewhere
    recordCopy := written.recordCopy.kept recordElsewhere
    current := by
      intro equal record found
      cases counted :
          countsIn (fieldRecord adTable ad field) label with
      | true =>
          exact absurd equal
            (written.recordCopy.not_current_of_kept counted)
      | false =>
          have kept := serverStep_kept allocated taken counted
          have stillCurrent :
              factCount =
                labels.countP
                  (countsIn (fieldRecord adTable ad field)) := by
            simpa [counted] using equal
          rw [found] at kept
          rcases kept.factTime with noTime | ⟨old, opened, sameTime⟩
          · exact .inl noTime
          · rw [sameTime]
            exact written.current stillCurrent old opened }

/-- The tables and redis after a run. -/
structure Persisted (labels : List (Event × Reply)) (server : Server) :
    Prop where
  counts : ∀ id, Counts id labels server
  records : ∀ id,
    RecordCounts (labels.countP (countsIn id)) (server.record id)
  written : ∀ adTable field value,
    Redis.after labels (storedName adTable) field = some value →
    ∃ ad pUserInfo count factCount,
      value = hsetValue pUserInfo ad (count : Nat) ∧
      Written labels server adTable field ad pUserInfo count factCount

theorem Persisted.initial : Persisted [] .initial where
  counts := Counts.initial
  records _ := rfl
  written _ _ _ absent := by cases absent

theorem Redis.after_append (labels : List (Event × Reply))
    (label : Event × Reply) :
    Redis.after (labels ++ [label]) =
      match sentCommand label with
      | none => Redis.after labels
      | some hset => (Redis.after labels).hset hset := by
  rw [Redis.after, List.filterMap_append, List.foldl_append]
  cases sent : sentCommand label with
  | none => simp [sent, Redis.after]
  | some hset => simp [sent, Redis.after]

theorem Redis.hset_same (redis : Redis) (hset : Hset) :
    redis.hset hset hset.name hset.field = some hset.value := by
  simp [Redis.hset]

theorem Redis.hset_other (redis : Redis) (hset : Hset)
    {name field : Bytes}
    (different : ¬ (name = hset.name ∧ field = hset.field)) :
    redis.hset hset name field = redis name field := by
  rw [Redis.hset]
  by_cases sameName : name = hset.name
  · subst sameName
    rw [Function.update_self,
      Function.update_of_ne fun same => different ⟨rfl, same⟩]
  · rw [Function.update_of_ne sameName]

theorem storedName_injective : Function.Injective storedName := by
  intro left right equal
  cases left <;> cases right
  · rfl
  · exact absurd equal (by decide)
  · exact absurd equal (by decide)
  · rfl

theorem AdTable.users_injective : Function.Injective AdTable.users := by
  intro left right equal
  cases left <;> cases right
  · rfl
  · cases equal
  · cases equal
  · rfl

/-- The records keep counting their pass-backs. -/
theorem Persisted.step_records {labels : List (Event × Reply)}
    (persisted : Persisted labels before) (allocated : before.Allocated)
    (taken : stepOf (serverStep conf) before label after)
    (id : RecordId) :
    RecordCounts ((labels ++ [label]).countP (countsIn id))
      (after.record id) := by
  rw [List.countP_append, List.countP_singleton]
  cases counted : countsIn id label with
  | false =>
      exact (persisted.records id).kept
        (serverStep_kept allocated taken counted)
  | true =>
      obtain ⟨currTime, once⟩ :=
        serverStep_countedOnce allocated taken counted
      obtain ⟨pUserInfo, old, _, new⟩ := once.record
      have counts := persisted.records id
      rw [old] at counts
      rw [new]
      refine ⟨?_, fun none => ?_⟩
      · rw [countedUserInfo, if_pos rfl]
        push_cast
        rw [counts.1]
      · simp at none

/-- The parts of a command that one pass-back sent. -/
theorem StoredBy.field_clean {currTime : Int} {passBack : PassBack}
    {adTable : AdTable} {fields : PassBackFields}
    {pUserInfo : FilterUserInfo} {count : Int}
    (stored :
      StoredBy after currTime passBack adTable fields pUserInfo count) :
    0 ∉ fields.ad ++ fields.ua ∧ (fields.ad ++ fields.ua).length < 128 := by
  constructor
  · simp [stored.wellFormed.ad_token.2, stored.wellFormed.ua_token.2]
  · have short := stored.short
    simp only [hsetMessage, Hset.command, List.length_append] at short ⊢
    omega

/-- The label of a pass-back that sent a command. -/
structure Writes (label : Event × Reply) (adTable : AdTable)
    (fields : PassBackFields) : Prop where
  countedAd : countsFor (counterId adTable fields.ad) label = true
  counted :
    countsIn (fieldRecord adTable fields.ad (fields.ad ++ fields.ua))
      label = true
  here : writtenField label = some (fields.ad ++ fields.ua)

theorem StoredBy.writes {currTime : Int} {passBack : PassBack}
    {adTable : AdTable} {fields : PassBackFields}
    {pUserInfo : FilterUserInfo} {count : Int}
    (stored :
      StoredBy after currTime passBack adTable fields pUserInfo count)
    (event : Event) :
    Writes (event, .passedBack passBack) adTable fields where
  countedAd := by simp [countsFor, stored.countedAd]
  counted := by
    simp only [countsIn, stored.counted]
    exact decide_eq_true rfl
  here := by
    simp [writtenField, sentCommand, stored.szMsg, hsetMessage]

/-- The field that a pass-back writes is current for both its counters. -/
theorem StoredBy.written {labels : List (Event × Reply)} {currTime : Int}
    {passBack : PassBack} {adTable : AdTable} {fields : PassBackFields}
    {pUserInfo : FilterUserInfo} {count : Int}
    (stored :
      StoredBy after currTime passBack adTable fields pUserInfo count)
    (writes : Writes label adTable fields)
    (time : 0 < currTime ∧ currTime < 2 ^ 31)
    (small : pUserInfo.iFactCount < 2 ^ 31)
    (countsAfter :
      Counts (counterId adTable fields.ad) (labels ++ [label]) after)
    (recordsAfter :
      RecordCounts
        ((labels ++ [label]).countP
          (countsIn
            (fieldRecord adTable fields.ad (fields.ad ++ fields.ua))))
        (after.record
          (fieldRecord adTable fields.ad (fields.ad ++ fields.ua)))) :
    ∃ written factCount : Nat,
      count = written ∧
      Written (labels ++ [label]) after adTable (fields.ad ++ fields.ua)
        fields.ad pUserInfo written factCount := by
  have tallied := countsAfter.counter
  rw [stored.counter, countedFor, List.countP_append, List.countP_singleton,
    writes.countedAd, if_pos rfl, tally,
    if_neg (Nat.succ_ne_zero _)] at tallied
  have countEq :
      count =
        (labels.countP (countsFor (counterId adTable fields.ad)) + 1 :
          Nat) :=
    Option.some.inj (Option.some.inj tallied)
  have record :
      after.record
          (fieldRecord adTable fields.ad (fields.ad ++ fields.ua)) =
        some pUserInfo :=
    stored.record
  rw [record, List.countP_append, List.countP_singleton,
    if_pos writes.counted] at recordsAfter
  have factCount := recordsAfter.1
  refine ⟨_, _, countEq,
    { ad_ne_nil := stored.wellFormed.ad_ne_nil
      ad_token := stored.wellFormed.ad_token
      field_clean := (StoredBy.field_clean stored).1
      field_short := (StoredBy.field_clean stored).2
      factCount_eq := factCount
      factCount_small := by omega
      time := by rw [stored.time]; exact time
      counterCopy := .written writes.countedAd writes.here
      recordCopy := .written writes.counted writes.here
      current := ?_ }⟩
  intro _ other found
  rw [Option.some.inj (found.symm.trans record)]
  exact .inr rfl

/-- Every field keeps the invariant when the event writes another field. -/
theorem Persisted.written_kept {labels : List (Event × Reply)}
    {adTable : AdTable} {field value : Bytes}
    (persisted : Persisted labels before) (allocated : before.Allocated)
    (taken : stepOf (serverStep conf) before label after)
    (old : Redis.after labels (storedName adTable) field = some value)
    (elsewhere : writtenField label ≠ some field ∨
      ∀ adTable', (∃ ad, countsFor (counterId adTable' ad) label = true) ∨
        (∃ id, countsIn id label = true ∧ id.table = adTable'.users) →
        adTable' ≠ adTable) :
    ∃ ad pUserInfo count factCount,
      value = hsetValue pUserInfo ad (count : Nat) ∧
      Written (labels ++ [label]) after adTable field ad pUserInfo count
        factCount := by
  obtain ⟨ad, pUserInfo, count, factCount, equal, written⟩ :=
    persisted.written adTable field value old
  refine ⟨ad, pUserInfo, count, factCount, equal,
    written.kept allocated taken (fun counted => ?_) fun counted => ?_⟩
  · rcases elsewhere with otherField | otherTable
    · exact otherField
    · exact absurd rfl (otherTable adTable (.inl ⟨ad, counted⟩))
  · rcases elsewhere with otherField | otherTable
    · exact otherField
    · exact absurd rfl (otherTable adTable (.inr ⟨_, counted, rfl⟩))

theorem CountedOnce.small {id : RecordId} {currTime : Int}
    (once : CountedOnce before after id currTime)
    {pUserInfo : FilterUserInfo} (found : after.record id = some pUserInfo) :
    pUserInfo.iFactCount < 2 ^ 31 := by
  obtain ⟨old, _, room, new⟩ := once.record
  rw [new] at found
  rw [← Option.some.inj found]
  exact room

/-- A command comes from a pass-back and stores what this one has counted. -/
theorem sentCommand_cases {hset : Hset} (allocated : before.Allocated)
    (taken : stepOf (serverStep conf) before label after)
    (sent : sentCommand label = some hset) :
    ∃ message currTime passBack adTable fields pUserInfo count,
      label = (.passBack message currTime, .passedBack passBack) ∧
      StoredBy after currTime passBack adTable fields pUserInfo count ∧
      CountedOnce before after
        (recordId adTable.users fields.ad fields.ua) currTime ∧
      hset =
        hsetMessage (storedName adTable) (fields.ad ++ fields.ua) pUserInfo
          fields.ad count := by
  cases serverStep_cases taken with
  | request => cases sent
  | @passBack message currTime passBack effect =>
      rcases effect.stored allocated with
        ⟨unsent, _⟩ | ⟨adTable, fields, pUserInfo, count, stored⟩
      · rw [sentCommand, unsent] at sent
        cases sent
      · have once := effect.record allocated
        rw [stored.counted] at once
        rw [sentCommand, stored.szMsg] at sent
        exact ⟨message, currTime, passBack, adTable, fields, pUserInfo,
          count, rfl, stored, once, (Option.some.inj sent).symm⟩

/-- A pass-back writes no other field of its hash, and it counts in no other
table. -/
theorem StoredBy.elsewhere {event : Event} {currTime : Int}
    {passBack : PassBack} {adTable other : AdTable}
    {fields : PassBackFields} {pUserInfo : FilterUserInfo} {count : Int}
    {field : Bytes}
    (stored :
      StoredBy after currTime passBack adTable fields pUserInfo count)
    (different : ¬ (other = adTable ∧ field = fields.ad ++ fields.ua)) :
    writtenField (event, .passedBack passBack) ≠ some field ∨
      ∀ counting : AdTable,
        (∃ ad, countsFor (counterId counting ad)
          (event, .passedBack passBack) = true) ∨
        (∃ id, countsIn id (event, .passedBack passBack) = true ∧
          id.table = counting.users) →
        counting ≠ other := by
  by_cases sameTable : other = adTable
  · left
    rw [(StoredBy.writes stored event).here]
    intro same
    exact different ⟨sameTable, (Option.some.inj same).symm⟩
  · right
    rintro counting (⟨ad, counted⟩ | ⟨id, counted, sameUsers⟩) rfl
    · simp only [countsFor, stored.countedAd, decide_eq_true_eq,
        Option.some.injEq, counterId, CounterId.mk.injEq] at counted
      exact sameTable counted.1.symm
    · simp only [countsIn, stored.counted, decide_eq_true_eq,
        Option.some.injEq] at counted
      rw [← counted] at sameUsers
      exact sameTable (AdTable.users_injective sameUsers).symm

/-- One event keeps the invariant. -/
theorem Persisted.step {labels : List (Event × Reply)}
    (persisted : Persisted labels before) (times : IntTime label.1)
    (taken : stepOf (serverStep conf) before label after) :
    Persisted (labels ++ [label]) after := by
  have allocated : before.Allocated :=
    (persisted.counts ⟨.surplusAD, 0, 0, 0, 0⟩).allocated
  have counts (id : CounterId) : Counts id (labels ++ [label]) after :=
    (persisted.counts id).step taken
  have records := persisted.step_records allocated taken
  refine ⟨counts, records, fun adTable field value found => ?_⟩
  rw [Redis.after_append] at found
  cases sent : sentCommand label with
  | none =>
      rw [sent] at found
      exact persisted.written_kept allocated taken found
        (.inl (by simp [writtenField, sent]))
  | some hset =>
      rw [sent] at found
      dsimp only at found
      obtain ⟨message, currTime, passBack, writtenTable, fields, pUserInfo,
        count, rfl, stored, once, rfl⟩ :=
        sentCommand_cases allocated taken sent
      by_cases same :
          adTable = writtenTable ∧ field = fields.ad ++ fields.ua
      · obtain ⟨rfl, rfl⟩ := same
        obtain ⟨written, factCount, countEq, now⟩ :=
          StoredBy.written stored (StoredBy.writes stored _) times
            (CountedOnce.small once stored.record) (counts _) (records _)
        have value := (Redis.hset_same _ _).symm.trans found
        refine ⟨fields.ad, pUserInfo, written, factCount, ?_, now⟩
        rw [← Option.some.inj value, ← countEq]
        rfl
      · rw [Redis.hset_other] at found
        · exact persisted.written_kept allocated taken found
            (StoredBy.elsewhere stored same)
        · intro place
          exact same ⟨storedName_injective place.1, place.2⟩

theorem Persisted.of_run {labels : List (Event × Reply)}
    (times : ∀ label ∈ labels, IntTime label.1)
    (run : ServerRun conf .initial labels after) :
    Persisted labels after :=
  (run.restrict times).history
    (fun persisted taken => persisted.step taken.1 taken.2)
    Persisted.initial

/-! ## Reading a field back -/

theorem loadedFields_hsetValue {pUserInfo : FilterUserInfo} {ad : Bytes}
    (count : Int) (ad_ne_nil : ad ≠ []) (ad_token : 58 ∉ ad ∧ 0 ∉ ad)
    (factCount : 0 ≤ pUserInfo.iFactCount ∧ pUserInfo.iFactCount < 2 ^ 31)
    (factTime : 0 ≤ pUserInfo.iFactTime ∧ pUserInfo.iFactTime < 2 ^ 31) :
    loadedFields (hsetValue pUserInfo ad count) =
      some (some
        { factCount := pUserInfo.iFactCount
          factTime := pUserInfo.iFactTime
          ad := ad
          adCount := some (Decimal.decimalInt (toInt32 count)) }) := by
  have noColon (number : Int) : 58 ∉ Decimal.decimalInt number :=
    Decimal.not_mem_decimalInt (by decide) (by decide)
  have noNul (number : Int) : 0 ∉ Decimal.decimalInt number :=
    Decimal.not_mem_decimalInt (by decide) (by decide)
  have separator (rest : Bytes) : ascii "::" ++ rest = 58 :: 58 :: rest :=
    rfl
  have whole : cString (hsetValue pUserInfo ad count) =
      hsetValue pUserInfo ad count := by
    apply cString_eq_self
    simp only [hsetValue, List.append_assoc, separator, List.mem_append,
      List.mem_cons, noNul, ad_token.2, or_self, or_false, false_or]
    decide
  have tokens : strsep 58 (hsetValue pUserInfo ad count) =
      [Decimal.decimalInt pUserInfo.iFactCount, [],
        Decimal.decimalInt pUserInfo.iFactTime, [], ad, [],
        Decimal.decimalInt (toInt32 count)] := by
    simp only [hsetValue, List.append_assoc, separator]
    rw [strsep_double (noColon _), strsep_double (noColon _),
      strsep_double ad_token.1, strsep_of_not_mem (noColon _)]
  rw [loadedFields, whole, tokens]
  simp only [List.length_cons, List.length_nil, requireToken,
    List.getElem?_cons_zero, List.getElem?_cons_succ, Option.bind_some,
    Decimal.decimalInt_ne_nil, ad_ne_nil, if_false]
  rw [atoi_decimalInt (by omega) factCount.2,
    atoi_decimalInt (by omega) factTime.2]
  rfl

section Field

variable {labels : List (Event × Reply)} {server : Server}
  {adTable : AdTable} {field ad : Bytes} {pUserInfo : FilterUserInfo}
  {count factCount : Nat}

theorem Written.loadedFields
    (written :
      Written labels server adTable field ad pUserInfo count factCount) :
    loadedFields (hsetValue pUserInfo ad (count : Nat)) =
      some (some
        { factCount := pUserInfo.iFactCount
          factTime := pUserInfo.iFactTime
          ad := ad
          adCount :=
            some (Decimal.decimalInt (toInt32 (count : Nat))) }) := by
  have small := written.factCount_small
  refine loadedFields_hsetValue _ written.ad_ne_nil written.ad_token ?_
    ⟨written.time.1.le, written.time.2⟩
  rw [written.factCount_eq]
  omega

theorem Written.loadable
    (written :
      Written labels server adTable field ad pUserInfo count factCount) :
    Loadable (field, hsetValue pUserInfo ad (count : Nat))
      { factCount := pUserInfo.iFactCount
        factTime := pUserInfo.iFactTime
        ad := ad
        adCount := some (Decimal.decimalInt (toInt32 (count : Nat))) }
      (Decimal.decimalInt (toInt32 (count : Nat))) where
  short := by
    rw [cString_eq_self written.field_clean]
    exact written.field_short
  read := written.loadedFields
  present := rfl

theorem Written.entryCounter
    (written :
      Written labels server adTable field ad pUserInfo count factCount) :
    entryCounter adTable (field, hsetValue pUserInfo ad (count : Nat)) =
      some (counterId adTable ad) := by
  simp [MqCountRedisStore.entryCounter, written.loadedFields]

theorem Written.entryRecord
    (written :
      Written labels server adTable field ad pUserInfo count factCount) :
    entryRecord adTable (field, hsetValue pUserInfo ad (count : Nat)) =
      some (fieldRecord adTable ad field) := by
  simp [MqCountRedisStore.entryRecord, written.loadedFields,
    cString_eq_self written.field_clean, fieldRecord]

theorem Written.entryCount
    (written :
      Written labels server adTable field ad pUserInfo count factCount) :
    entryCount (field, hsetValue pUserInfo ad (count : Nat)) =
      some (toInt32 (count : Nat)) := by
  obtain ⟨low, high⟩ := toInt32_range (count : Nat)
  simp [MqCountRedisStore.entryCount, written.loadedFields,
    atoi_decimalInt low high]

theorem Written.entryUserInfo
    (written :
      Written labels server adTable field ad pUserInfo count factCount) :
    entryUserInfo (field, hsetValue pUserInfo ad (count : Nat)) =
      some ⟨factCount, pUserInfo.iFactTime, 0, 0⟩ := by
  simp [MqCountRedisStore.entryUserInfo, written.loadedFields,
    loadedUserInfo, written.factCount_eq]

end Field

/-! ## The first entries of a reply -/

section Reply

variable {labels : List (Event × Reply)} {server : Server}
  {reply : AdTable → List (Bytes × Bytes)}

/-- The replies to the two commands of the loader. -/
def Replies (labels : List (Event × Reply))
    (reply : AdTable → List (Bytes × Bytes)) : Prop :=
  ∀ adTable,
    Hgetall (Redis.after labels) (storedName adTable) (reply adTable)

theorem Persisted.entry (persisted : Persisted labels server)
    (replies : Replies labels reply) {adTable : AdTable}
    {field value : Bytes} (member : (field, value) ∈ reply adTable) :
    ∃ ad pUserInfo count factCount,
      value = hsetValue pUserInfo ad (count : Nat) ∧
      Written labels server adTable field ad pUserInfo count factCount :=
  persisted.written adTable field value
    (((replies adTable).mem_iff field value).mp member)

theorem Persisted.allLoadable (persisted : Persisted labels server)
    (replies : Replies labels reply) (adTable : AdTable) :
    AllLoadable (reply adTable) := by
  rintro ⟨field, value⟩ member
  obtain ⟨ad, pUserInfo, count, factCount, rfl, written⟩ :=
    persisted.entry replies member
  exact ⟨_, _, written.loadable⟩

/-- The first entry for a counter holds one of its copies. -/
theorem Persisted.counterCopy (persisted : Persisted labels server)
    (replies : Replies labels reply) {id : CounterId}
    {field value : Bytes}
    (first :
      firstForCounter id.table id (reply id.table) = some (field, value)) :
    ∃ count : Nat,
      entryCount (field, value) = some (toInt32 count) ∧
      Copy (countsFor id) writtenField labels field count := by
  obtain ⟨ad, pUserInfo, count, factCount, rfl, written⟩ :=
    persisted.entry replies (List.mem_of_find?_eq_some first)
  have about := List.find?_some first
  simp only [written.entryCounter, decide_eq_true_eq,
    Option.some.injEq] at about
  refine ⟨count, written.entryCount, ?_⟩
  rw [← about]
  exact written.counterCopy

/-- The first entry for a record holds one of its copies. -/
theorem Persisted.recordCopy (persisted : Persisted labels server)
    (replies : Replies labels reply) {adTable : AdTable} {id : RecordId}
    {field value : Bytes}
    (first :
      firstForRecord adTable id (reply adTable) = some (field, value)) :
    ∃ (factCount : Nat) (factTime : Int),
      entryUserInfo (field, value) = some ⟨factCount, factTime, 0, 0⟩ ∧
      0 < factTime ∧
      Copy (countsIn id) writtenField labels field factCount ∧
      (factCount = labels.countP (countsIn id) →
        ∀ record, server.record id = some record →
          record.iFactTime = 0 ∨ record.iFactTime = factTime) := by
  obtain ⟨ad, pUserInfo, count, factCount, rfl, written⟩ :=
    persisted.entry replies (List.mem_of_find?_eq_some first)
  have about := List.find?_some first
  simp only [written.entryRecord, decide_eq_true_eq,
    Option.some.injEq] at about
  refine ⟨factCount, pUserInfo.iFactTime, written.entryUserInfo,
    written.time.1, ?_⟩
  rw [← about]
  exact ⟨written.recordCopy, written.current⟩

theorem firstForCounter_eq_none (adTable : AdTable) {id : CounterId}
    (otherTable : id.table ≠ adTable) (entries : List (Bytes × Bytes)) :
    firstForCounter adTable id entries = none := by
  rw [firstForCounter, List.find?_eq_none]
  rintro entry _ about
  simp only [MqCountRedisStore.entryCounter, decide_eq_true_eq,
    Option.map_eq_some_iff] at about
  rcases about with ⟨fields, _, rfl⟩
  exact otherTable rfl

theorem firstForRecord_eq_none {adTable : AdTable} {id : RecordId}
    (otherTable : id.table ≠ adTable.users)
    (entries : List (Bytes × Bytes)) :
    firstForRecord adTable id entries = none := by
  rw [firstForRecord, List.find?_eq_none]
  rintro entry _ about
  simp only [MqCountRedisStore.entryRecord, decide_eq_true_eq,
    Option.map_eq_some_iff] at about
  rcases about with ⟨fields, _, rfl⟩
  exact otherTable rfl

/-- The tables after loading both replies. -/
theorem Persisted.loaded (persisted : Persisted labels server)
    (replies : Replies labels reply) :
    ∃ loaded,
      mqRedisStoreClientInit (reply .surplusAD)
          (reply .filterConditionAD) = some loaded ∧
      (∀ id, loaded.counter id =
        (firstForCounter id.table id (reply id.table)).bind fun entry =>
          (entryCount entry).map some) ∧
      ∀ id, loaded.record id =
        (firstForRecord .surplusAD id (reply .surplusAD)).bind
          entryUserInfo := by
  obtain ⟨middle, surplus, middleAllocated, counters, records⟩ :=
    loadAllHash_surplus Server.allocated_initial
      (persisted.allLoadable replies .surplusAD)
  have noRecords (id : RecordId) :
      storedRecord Server.initial id = none := rfl
  have noCounters (id : CounterId) : Server.initial.counter id = none := rfl
  have empty (id : RecordId) (crowd : id.table = .filterConditionIP) :
      storedRecord middle id = none := by
    rw [records, noRecords, Option.none_or,
      firstForRecord_eq_none (by rw [crowd]; nofun), Option.bind_none]
  obtain ⟨loaded, crowd, _, moreCounters, usersSame⟩ :=
    loadAllHash_crowd middleAllocated empty
      (persisted.allLoadable replies .filterConditionAD)
  refine ⟨loaded, ?_, fun id => ?_, fun id => ?_⟩
  · rw [mqRedisStoreClientInit, surplus]
    exact crowd
  · rw [moreCounters, counters, noCounters, Option.none_or]
    obtain ⟨table, iTid, key⟩ := id
    cases table with
    | surplusAD =>
        rw [firstForCounter_eq_none .filterConditionAD (by rintro ⟨⟩),
          Option.bind_none, Option.or_none]
    | filterConditionAD =>
        rw [firstForCounter_eq_none .surplusAD (by rintro ⟨⟩),
          Option.bind_none, Option.none_or]
  · have same : loaded.record id = (storedRecord middle id).join := by
      rw [Server.record, usersSame, storedRecord]
    rw [same, records, noRecords, Option.none_or]
    cases firstForRecord .surplusAD id (reply .surplusAD) with
    | none => rfl
    | some entry =>
        rw [Option.bind_some, Option.bind_some]
        cases entryUserInfo entry with
        | none => rfl
        | some pUserInfo => rfl

end Reply

/-! ## What is restored -/

/-- The counted pass-backs of a user; a user without a record has none. -/
def facts : Option FilterUserInfo → Int × Int
  | none => (0, 0)
  | some pUserInfo => (pUserInfo.iFactCount, pUserInfo.iFactTime)

/-- The same facts for every user and the same count for every subscriber. -/
structure Restored (server loaded : Server) : Prop where
  users : ∀ (adTable : AdTable) (id : RecordId), id.table = adTable.users →
    facts (loaded.record id) = facts (server.record id)
  ads : ∀ id : CounterId, loaded.counter id = server.counter id

/--
The histories and replies for which the tables are restored.

No crowd pass-back has been counted.  The reply starts, for every subscriber
and for every user with surplus pass-backs, with the field that the last of
these pass-backs wrote; the count of the subscriber fits into an `int`, and
no popup has been granted to the user since.
-/
structure Restorable (labels : List (Event × Reply)) (server : Server)
    (surplus : List (Bytes × Bytes)) : Prop where
  noCrowd : ∀ id : CounterId, id.table = .filterConditionAD →
    countedFor id labels = 0
  subscribers : ∀ id : CounterId, id.table = .surplusAD →
    countedFor id labels ≠ 0 →
    countedFor id labels < 2 ^ 31 ∧
      ∃ field value,
        firstForCounter .surplusAD id surplus = some (field, value) ∧
        lastPlace (countsFor id) writtenField labels = some field
  users : ∀ id : RecordId, id.table = .surplusIP →
    labels.countP (countsIn id) ≠ 0 →
    (∃ field value,
      firstForRecord .surplusAD id surplus = some (field, value) ∧
      lastPlace (countsIn id) writtenField labels = some field) ∧
    ∀ record, server.record id = some record → record.iFactTime ≠ 0

section Restore

variable {labels : List (Event × Reply)} {server loaded : Server}
  {reply : AdTable → List (Bytes × Bytes)}

/-- A counter is restored exactly if it is zero, or fits and comes first in
its last copy. -/
theorem Persisted.counter_restored_iff (persisted : Persisted labels server)
    (replies : Replies labels reply) (id : CounterId)
    (loadedCounter :
      loaded.counter id =
        (firstForCounter id.table id (reply id.table)).bind fun entry =>
          (entryCount entry).map some) :
    loaded.counter id = server.counter id ↔
      (countedFor id labels ≠ 0 →
        countedFor id labels < 2 ^ 31 ∧
          ∃ field value,
            firstForCounter id.table id (reply id.table) =
              some (field, value) ∧
            lastPlace (countsFor id) writtenField labels = some field) := by
  rw [loadedCounter, (persisted.counts id).counter]
  cases first : firstForCounter id.table id (reply id.table) with
  | none =>
      rw [Option.bind_none, tally]
      constructor
      · intro equal counted
        rw [if_neg counted] at equal
        cases equal
      · intro condition
        by_cases counted : countedFor id labels = 0
        · rw [if_pos counted]
        · obtain ⟨_, _, _, absent, _⟩ := condition counted
          cases absent
  | some entry =>
      obtain ⟨field, value⟩ := entry
      obtain ⟨count, read, copy⟩ := persisted.counterCopy replies first
      have counted : countedFor id labels ≠ 0 := by
        have positive := copy.positive
        have bounded := copy.bounded
        rw [countedFor]
        omega
      have bounded : count ≤ countedFor id labels := copy.bounded
      have current :
          count = countedFor id labels ↔
            lastPlace (countsFor id) writtenField labels = some field :=
        copy.current_iff
      rw [Option.bind_some, read, tally, if_neg counted, Option.map_some,
        Option.some.injEq, Option.some.injEq]
      constructor
      · intro equal _
        have range := toInt32_range (count : Nat)
        have small : countedFor id labels < 2 ^ 31 := by omega
        have kept : toInt32 (count : Nat) = count :=
          toInt32_of_range (by omega) (by omega)
        exact ⟨small, field, value, rfl, current.mp (by omega)⟩
      · intro condition
        obtain ⟨small, _, _, equal, last⟩ := condition counted
        cases equal
        rw [toInt32_of_range (by omega) (by omega), current.mpr last]

/-- A record that is not loaded is restored exactly if nothing was counted in
it. -/
theorem RecordCounts.facts_none_iff {count : Nat}
    {record : Option FilterUserInfo} (counts : RecordCounts count record) :
    facts none = facts record ↔ count = 0 := by
  cases record with
  | none => exact iff_of_true rfl counts
  | some record =>
      have factCount := counts.1
      constructor
      · intro equal
        have zero : 0 = record.iFactCount := congrArg Prod.fst equal
        omega
      · rintro rfl
        rw [facts, facts, counts.1, counts.2 rfl]
        rfl

/-- A surplus record is restored exactly if it has no pass-backs, or comes
first in its last copy and has not been granted a popup since. -/
theorem Persisted.record_restored_iff (persisted : Persisted labels server)
    (replies : Replies labels reply) (id : RecordId)
    (loadedRecord :
      loaded.record id =
        (firstForRecord .surplusAD id (reply .surplusAD)).bind
          entryUserInfo) :
    facts (loaded.record id) = facts (server.record id) ↔
      (labels.countP (countsIn id) ≠ 0 →
        (∃ field value,
          firstForRecord .surplusAD id (reply .surplusAD) =
            some (field, value) ∧
          lastPlace (countsIn id) writtenField labels = some field) ∧
        ∀ record, server.record id = some record →
          record.iFactTime ≠ 0) := by
  have counts := persisted.records id
  rw [loadedRecord]
  cases first : firstForRecord .surplusAD id (reply .surplusAD) with
  | none =>
      rw [Option.bind_none, counts.facts_none_iff]
      constructor
      · intro uncounted counted
        exact absurd uncounted counted
      · intro condition
        by_contra counted
        obtain ⟨⟨_, _, absent, _⟩, _⟩ := condition counted
        cases absent
  | some entry =>
      obtain ⟨field, value⟩ := entry
      obtain ⟨factCount, factTime, read, positive, copy, current⟩ :=
        persisted.recordCopy replies first
      have counted : labels.countP (countsIn id) ≠ 0 := by
        have positive := copy.positive
        have bounded := copy.bounded
        omega
      cases found : server.record id with
      | none =>
          rw [found] at counts
          exact absurd counts counted
      | some record =>
          rw [found] at counts
          have count := counts.1
          rw [Option.bind_some, read, facts, facts, Prod.mk.injEq]
          dsimp only
          constructor
          · rintro ⟨sameCount, sameTime⟩ _
            refine ⟨⟨field, value, rfl, copy.current_iff.mp (by omega)⟩, ?_⟩
            rintro _ ⟨⟩
            omega
          · intro condition
            obtain ⟨⟨_, _, equal, last⟩, granted⟩ := condition counted
            cases equal
            have latest := copy.current_iff.mpr last
            have noGrant := granted record rfl
            rcases current latest record found with noTime | sameTime
            · exact absurd noTime noGrant
            · omega

/-- A pass-back that counts in a surplus or crowd record counts in a counter of
the same table. -/
theorem serverStep_counter
    (taken : stepOf (serverStep conf) before label after)
    (adTable : AdTable) (id : RecordId) (sameTable : id.table = adTable.users)
    (counted : countsIn id label = true) :
    ∃ counter : CounterId,
      counter.table = adTable ∧ countsFor counter label = true := by
  cases serverStep_cases taken with
  | request => simp [countsIn] at counted
  | passBack effect =>
      simp only [countsIn, decide_eq_true_eq] at counted
      cases effect with
      | skipped => cases counted
      | target uncapped _ =>
          simp only [Option.map_eq_some_iff] at counted
          rcases counted with ⟨_, _, rfl⟩
          exact absurd sameTable.symm (uncapped adTable)
      | @capped countedTable fields _ _ _ _ _ _ _ _ =>
          simp only [Option.map_eq_some_iff] at counted
          rcases counted with ⟨_, _, rfl⟩
          exact ⟨counterId countedTable fields.ad,
            AdTable.users_injective sameTable, by simp [countsFor]⟩

theorem countP_countsIn_eq_zero {adTable : AdTable}
    (run : ServerRun conf .initial labels server)
    (uncounted : ∀ counter : CounterId, counter.table = adTable →
      countedFor counter labels = 0)
    {id : RecordId} (sameTable : id.table = adTable.users) :
    labels.countP (countsIn id) = 0 := by
  rw [List.countP_eq_zero]
  intro label member counted
  obtain ⟨counter, table, counts⟩ :=
    run.labels_satisfy (fun taken => serverStep_counter taken) label member
      adTable id sameTable counted
  exact List.countP_eq_zero.mp (uncounted counter table) label member counts

/--
Exactly the histories and replies for which the loader restores the tables.

The history is any run from the empty tables whose pass-backs arrive at
positive times, and the replies list the fields of redis in any order.
-/
theorem restored_iff (conf : Conf)
    (times : ∀ label ∈ labels, IntTime label.1)
    (run : ServerRun conf .initial labels server)
    (replies : Replies labels reply) :
    (∃ loaded,
      mqRedisStoreClientInit (reply .surplusAD)
          (reply .filterConditionAD) = some loaded ∧
        Restored server loaded) ↔
      Restorable labels server (reply .surplusAD) := by
  have persisted : Persisted labels server := .of_run times run
  obtain ⟨loaded, loading, counters, records⟩ := persisted.loaded replies
  have counterIff (id : CounterId) :=
    persisted.counter_restored_iff replies id (counters id)
  have recordIff (id : RecordId) :=
    persisted.record_restored_iff replies id (records id)
  have crowdRecord (id : RecordId) (crowd : id.table = .filterConditionIP) :
      loaded.record id = none := by
    rw [records, firstForRecord_eq_none (by rw [crowd]; nofun),
      Option.bind_none]
  constructor
  · rintro ⟨_, again, restored⟩
    cases loading.symm.trans again
    refine
      { noCrowd := fun id crowd => ?_
        subscribers := fun id surplus => ?_
        users := fun id surplus =>
          (recordIff id).mp (restored.users .surplusAD id surplus) }
    · by_contra counted
      obtain ⟨_, field, value, first, _⟩ :=
        (counterIff id).mp (restored.ads id) counted
      obtain ⟨ad, pUserInfo, count, factCount, rfl, written⟩ :=
        persisted.entry replies (List.mem_of_find?_eq_some first)
      rw [crowd] at written
      have lost :=
        restored.users .filterConditionAD
          (fieldRecord .filterConditionAD ad field) rfl
      rw [crowdRecord _ rfl,
        (persisted.records _).facts_none_iff] at lost
      have positive := written.recordCopy.positive
      have bounded := written.recordCopy.bounded
      omega
    · have condition := (counterIff id).mp (restored.ads id)
      rw [surplus] at condition
      exact condition
  · intro restorable
    refine ⟨loaded, loading, fun adTable id sameTable => ?_, fun id => ?_⟩
    · cases adTable with
      | surplusAD =>
          exact (recordIff id).mpr (restorable.users id sameTable)
      | filterConditionAD =>
          rw [crowdRecord id sameTable]
          exact (persisted.records id).facts_none_iff.mpr
            (countP_countsIn_eq_zero run restorable.noCrowd sameTable)
    · refine (counterIff id).mpr fun counted => ?_
      cases table : id.table with
      | surplusAD => exact restorable.subscribers id table counted
      | filterConditionAD =>
          exact absurd (restorable.noCrowd id table) counted

end Restore

/-! ## One pass-back -/

/-- A user gets one popup from a decider and passes it back. -/
def onePassBack (adTable : AdTable) (type : Bytes) :
    List (Event × Reply) :=
  [ (sampleRequest adTable.users 1000, .answered true),
    (.passBack (ascii "10.0.0.1::user::123::" ++ type) 1700,
      .passedBack
        { counted := some (recordId adTable.users (ascii "user") (ascii "123"))
          countedAd := some (counterId adTable (ascii "user"))
          szMsg :=
            some
              { name := storedName adTable
                field := ascii "user123"
                value := ascii "1::1700::user::1" } }) ]

/-- The replies of redis after that pass-back. -/
def oneReply (adTable other : AdTable) : List (Bytes × Bytes) :=
  if other = adTable then [(ascii "user123", ascii "1::1700::user::1")]
  else []

theorem oneReply_replies (adTable : AdTable) (type : Bytes) :
    Replies (onePassBack adTable type) (oneReply adTable) := by
  intro other
  have written :
      Redis.after (onePassBack adTable type) =
        Redis.hset (fun _ _ => none)
          { name := storedName adTable
            field := ascii "user123"
            value := ascii "1::1700::user::1" } := rfl
  rw [written, oneReply]
  by_cases same : other = adTable
  · rw [if_pos same, same]
    refine ⟨by simp, fun field value => ?_⟩
    rw [Redis.hset, Function.update_self]
    by_cases sameField : field = ascii "user123"
    · rw [sameField, Function.update_self]
      simp [eq_comm]
    · rw [Function.update_of_ne sameField]
      simp [sameField]
  · rw [if_neg same]
    refine ⟨by simp, fun field value => ?_⟩
    rw [Redis.hset_other]
    · simp
    · exact fun equal => same (storedName_injective equal.1)

theorem restored_iff_surplus :
    ∃ server,
      ServerRun sampleConf .initial (onePassBack .surplusAD (ascii "0"))
        server ∧
      (∀ label ∈ onePassBack .surplusAD (ascii "0"), IntTime label.1) ∧
      Replies (onePassBack .surplusAD (ascii "0")) (oneReply .surplusAD) ∧
      ((∃ loaded,
        mqRedisStoreClientInit (oneReply .surplusAD .surplusAD)
            (oneReply .surplusAD .filterConditionAD) = some loaded ∧
          Restored server loaded) ↔
        Restorable (onePassBack .surplusAD (ascii "0")) server
          (oneReply .surplusAD .surplusAD)) := by
  obtain ⟨server, run⟩ :
      ∃ server,
        ServerRun sampleConf .initial (onePassBack .surplusAD (ascii "0"))
          server :=
    exists_run_of_execute (by decide +kernel)
  have times :
      ∀ label ∈ onePassBack .surplusAD (ascii "0"), IntTime label.1 := by
    decide +kernel
  have replies := oneReply_replies .surplusAD (ascii "0")
  exact ⟨server, run, times, replies,
    restored_iff sampleConf times run replies⟩

/-- A crowd pass-back is not restored. -/
theorem crowd_not_restored :
    ∃ server,
      ServerRun sampleConf .initial
        (onePassBack .filterConditionAD (ascii "4")) server ∧
      Replies (onePassBack .filterConditionAD (ascii "4"))
        (oneReply .filterConditionAD) ∧
      ¬ ∃ loaded,
        mqRedisStoreClientInit (oneReply .filterConditionAD .surplusAD)
            (oneReply .filterConditionAD .filterConditionAD) =
          some loaded ∧
        Restored server loaded := by
  obtain ⟨server, run⟩ :
      ∃ server,
        ServerRun sampleConf .initial
          (onePassBack .filterConditionAD (ascii "4")) server :=
    exists_run_of_execute (by decide +kernel)
  have times :
      ∀ label ∈ onePassBack .filterConditionAD (ascii "4"),
        IntTime label.1 := by
    decide +kernel
  have replies := oneReply_replies .filterConditionAD (ascii "4")
  have persisted := Persisted.of_run times run
  have counts :=
    persisted.records
      (recordId .filterConditionIP (ascii "user") (ascii "123"))
  have counted :
      (onePassBack .filterConditionAD (ascii "4")).countP
          (countsIn
            (recordId .filterConditionIP (ascii "user") (ascii "123"))) =
        1 := by
    decide +kernel
  refine ⟨server, run, replies, ?_⟩
  rintro ⟨loaded, loading, restored⟩
  obtain ⟨_, again, _, records⟩ := persisted.loaded replies
  cases loading.symm.trans again
  have lost :=
    restored.users .filterConditionAD
      (recordId .filterConditionIP (ascii "user") (ascii "123")) rfl
  rw [records, firstForRecord_eq_none (by decide), Option.bind_none] at lost
  rw [counted] at counts
  cases found :
      server.record
        (recordId .filterConditionIP (ascii "user") (ascii "123")) with
  | none =>
      rw [found] at counts
      cases counts
  | some record =>
      rw [found] at counts lost
      have zero : (0 : Int) = record.iFactCount := congrArg Prod.fst lost
      have one := counts.1
      omega

end WindowSystem.Persistence
