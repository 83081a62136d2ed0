import WindowSystem.FilterRulePop
import WindowSystem.Library.LabelledRun

/-!
# The pass-back thread

`data_pass_back.c` receives messages `ip::ad::ua::type` from the clients that
showed a popup.  A message counts the popup in the record of the user and, for
two of the four types, in the counter of the subscriber.  The second half of
the module puts the pass-back thread and the deciders into one transition
system: the server after any interleaving of requests and pass-backs.
-/

namespace WindowSystem.DataPassBack

open WindowSystem.CRuntime
open WindowSystem.DcGlobal
open WindowSystem.FilterRulePop
open WindowSystem.Library
open WindowSystem.Library.LabelledRun
open WindowSystem.ToolHashMap

/-! ## Reading a message -/

/-- The fields of a message that is not skipped. -/
structure PassBackFields where
  sIp : Bytes
  ad : Bytes
  ua : Bytes
  type : Int

/-- Go on with a token unless it is empty, in which case the message is
skipped; `none` is the use of a pointer that `strsep` has not set. -/
def requireToken {α : Type} (token : List Bytes) (index : Nat)
    (next : Bytes → Option (Option α)) : Option (Option α) :=
  token[index]?.bind fun text =>
    if text = [] then some none else next text

/--
The first half of the loop of `get_data_pass_back`.

`none` is undefined behaviour and `some none` a skipped message.  The array
`token` has 20 cells, of which `strsep` also uses one for its final `NULL`.
-/
def passBackFields (message : Bytes) : Option (Option PassBackFields) :=
  (store 1024 (cString message)).bind fun packet =>
    let token := strsep 58 packet
    if token.length < 20 then
      requireToken token 0 fun sIp =>
      requireToken token 2 fun ad =>
      requireToken token 4 fun ua =>
      requireToken token 6 fun type =>
        if (strstr ua (ascii "wispr")).isSome ||
            (strstr ua (ascii "spider")).isSome then
          some none
        else
          (store 16 sIp).map fun sIp =>
            some { sIp := sIp, ad := ad, ua := ua, type := atoi type }
    else none

/-- What is known of the fields of a message. -/
structure PassBackFields.WellFormed (fields : PassBackFields) : Prop where
  ad_ne_nil : fields.ad ≠ []
  ua_ne_nil : fields.ua ≠ []
  ad_token : 58 ∉ fields.ad ∧ 0 ∉ fields.ad
  ua_token : 58 ∉ fields.ua ∧ 0 ∉ fields.ua

theorem requireToken_eq_some_iff {α : Type} {token : List Bytes}
    {index : Nat} {next : Bytes → Option (Option α)} {result : α} :
    requireToken token index next = some (some result) ↔
      ∃ text, token[index]? = some text ∧ text ≠ [] ∧
        next text = some (some result) := by
  simp only [requireToken, Option.bind_eq_some_iff]
  constructor
  · rintro ⟨text, found, taken⟩
    split at taken
    · cases taken
    · rename_i nonempty
      exact ⟨text, found, nonempty, taken⟩
  · rintro ⟨text, found, nonempty, taken⟩
    exact ⟨text, found, by rw [if_neg nonempty]; exact taken⟩

theorem passBackFields_wellFormed {message : Bytes}
    {fields : PassBackFields}
    (read : passBackFields message = some (some fields)) :
    fields.WellFormed := by
  simp only [passBackFields, Option.bind_eq_some_iff,
    store_eq_some_iff] at read
  rcases read with ⟨packet, ⟨_, rfl⟩, read⟩
  have clean {index : Nat} {text : Bytes}
      (found : (strsep 58 (cString message))[index]? = some text) :
      58 ∉ text ∧ 0 ∉ text := by
    obtain ⟨absent, inside⟩ := mem_strsep (List.mem_of_getElem? found)
    exact ⟨absent, fun zero =>
      zero_not_mem_cString message (inside 0 zero)⟩
  split at read
  · simp only [requireToken_eq_some_iff] at read
    rcases read with
      ⟨sIp, _, _, ad, adFound, adNonempty, ua, uaFound, uaNonempty, type, _,
        _, read⟩
    split at read
    · cases read
    · simp only [Option.map_eq_some_iff, Option.some.injEq] at read
      rcases read with ⟨_, _, rfl⟩
      exact
        { ad_ne_nil := adNonempty
          ua_ne_nil := uaNonempty
          ad_token := clean adFound
          ua_token := clean uaFound }
  · cases read

/-! ## Counting -/

/-- Increment an `int`; overflow is undefined. -/
def incrementInt (value : Int) : Option Int :=
  if value + 1 < 2 ^ 31 then some (value + 1) else none

/-- A record after a pass-back has been counted in it. -/
def countedUserInfo (pUserInfo : FilterUserInfo) (iFactCount currTime : Int) :
    FilterUserInfo :=
  { pUserInfo with iFactCount := iFactCount, iFactTime := currTime }

/-- Count a pass-back in a table of users; a user without a record is left
alone.  The result holds the record that was counted. -/
def countUser (users : HashMap FilterUserInfo) (szADUA : Bytes)
    (currTime : Int) :
    Option (Option FilterUserInfo × HashMap FilterUserInfo) :=
  (findObject users szADUA szADUA.length).bind fun
    | some pUserInfo =>
        (incrementInt pUserInfo.iFactCount).map fun iFactCount =>
          (some (countedUserInfo pUserInfo iFactCount currTime),
            users.writeValue
              (fingerprint users.hashLen szADUA szADUA.length)
              fun pUserInfo =>
                countedUserInfo pUserInfo iFactCount currTime)
    | none => some (none, users)

/-- Count a pass-back in a table of subscribers. -/
def countSubscriber (ads : HashMap Int) (ad : Bytes) :
    Option (Int × HashMap Int) :=
  (findObject ads ad ad.length).map fun
    | some count =>
        (count + 1,
          ads.writeValue (fingerprint ads.hashLen ad ad.length) (· + 1))
    | none => (1, hashMapInsert ads ad ad.length (some 1))

/-- The command `hset <name> <field> <value>`. -/
structure Hset where
  name : Bytes
  field : Bytes
  value : Bytes
deriving DecidableEq

/-- The text of the command. -/
def Hset.command (hset : Hset) : Bytes :=
  ascii "hset " ++ hset.name ++ ascii " " ++ hset.field ++ ascii " " ++
    hset.value

/-- The value `<count>::<time>::<ad>::<adcount>`; the counter is a `long`
printed with `%d`. -/
def hsetValue (pUserInfo : FilterUserInfo) (ad : Bytes) (count : Int) :
    Bytes :=
  Decimal.decimalInt pUserInfo.iFactCount ++ ascii "::" ++
    (Decimal.decimalInt pUserInfo.iFactTime ++ ascii "::" ++
      (ad ++ ascii "::" ++ Decimal.decimalInt (toInt32 count)))

/-- The command that stores a counted pass-back. -/
def hsetMessage (name szADUA : Bytes) (pUserInfo : FilterUserInfo)
    (ad : Bytes) (count : Int) : Hset where
  name := name
  field := szADUA
  value := hsetValue pUserInfo ad count

/-- What a message led to: the record and the counter that it counted, and the
command sent to the redis thread. -/
structure PassBack where
  counted : Option RecordId
  countedAd : Option CounterId
  szMsg : Option Hset
deriving DecidableEq

/-- The branches for the types `2` and `3`. -/
def passBackTarget (server : Server) (table : UserTable)
    (fields : PassBackFields) (currTime : Int) :
    Option (PassBack × Server) :=
  let iTid := userThread fields.ad
  (countUser (server.users (table, iTid)) (fields.ad ++ fields.ua)
    currTime).map fun (pUserInfo, users) =>
      ({ counted := pUserInfo.map fun _ =>
            recordId table fields.ad fields.ua
         countedAd := none
         szMsg := none },
        { server with
          users := Function.update server.users (table, iTid) users })

/-- The branches for the types `0` and `4`. -/
def passBackCapped (server : Server) (table : UserTable)
    (adTable : AdTable) (name : Bytes) (fields : PassBackFields)
    (currTime : Int) : Option (PassBack × Server) :=
  let iTid := userThread fields.ad
  (countSubscriber (server.ads (adTable, iTid)) fields.ad).bind
    fun (count, ads) =>
      (countUser (server.users (table, iTid)) (fields.ad ++ fields.ua)
        currTime).bind fun (pUserInfo, users) =>
          let server :=
            { server with
              users := Function.update server.users (table, iTid) users
              ads := Function.update server.ads (adTable, iTid) ads }
          match pUserInfo with
          | none =>
              some
                ({ counted := none
                   countedAd := some (counterId adTable fields.ad)
                   szMsg := none }, server)
          | some pUserInfo =>
              let szMsg :=
                hsetMessage name (fields.ad ++ fields.ua) pUserInfo
                  fields.ad count
              (store 128 szMsg.command).map fun _ =>
                ({ counted := some (recordId table fields.ad fields.ua)
                   countedAd := some (counterId adTable fields.ad)
                   szMsg := some szMsg }, server)

/-- One message of `get_data_pass_back`, received at time `currTime`. -/
def getDataPassBack (server : Server) (message : Bytes) (currTime : Int) :
    Option (PassBack × Server) :=
  (passBackFields message).bind fun
    | none => some (⟨none, none, none⟩, server)
    | some fields =>
        if fields.type = 2 then
          passBackTarget server .targetIP fields currTime
        else if fields.type = 3 then
          passBackTarget server .targetIP1 fields currTime
        else if fields.type = 0 then
          passBackCapped server .surplusIP .surplusAD (ascii "surplus")
            fields currTime
        else if fields.type = 4 then
          passBackCapped server .filterConditionIP .filterConditionAD
            (ascii "crowd") fields currTime
        else some (⟨none, none, none⟩, server)

/-! ## What a message changes -/

section Effect

variable {before after : Server} {currTime : Int} {passBack : PassBack}

theorem countUser_cases {users users' : HashMap FilterUserInfo}
    {szADUA : Bytes} {counted : Option FilterUserInfo}
    (searchable : users.Searchable)
    (counting :
      countUser users szADUA currTime = some (counted, users')) :
    (counted = none ∧ users' = users) ∨
    ∃ pUserInfo,
      users.lookup (fingerprint users.hashLen szADUA szADUA.length) =
        some (some pUserInfo) ∧
      pUserInfo.iFactCount + 1 < 2 ^ 31 ∧
      counted =
        some (countedUserInfo pUserInfo (pUserInfo.iFactCount + 1)
          currTime) ∧
      users' =
        users.writeValue (fingerprint users.hashLen szADUA szADUA.length)
          fun other =>
            countedUserInfo other (pUserInfo.iFactCount + 1) currTime := by
  simp only [countUser, Option.bind_eq_some_iff] at counting
  rcases counting with ⟨_ | pUserInfo, found, counting⟩
  · left
    simp only [Option.some.injEq, Prod.mk.injEq] at counting
    exact ⟨counting.1.symm, counting.2.symm⟩
  · right
    simp only [Option.map_eq_some_iff, incrementInt,
      Option.ite_none_right_eq_some, Option.some.injEq,
      Prod.mk.injEq] at counting
    rcases counting with ⟨_, ⟨room, rfl⟩, rfl, rfl⟩
    exact ⟨pUserInfo, (findObject_eq_found_iff searchable).mp found, room,
      rfl, rfl⟩

/-- A stored user whose counter has room is counted. -/
theorem countUser_of_found {users : HashMap FilterUserInfo}
    {szADUA : Bytes} {pUserInfo : FilterUserInfo}
    (searchable : users.Searchable)
    (found :
      users.lookup (fingerprint users.hashLen szADUA szADUA.length) =
        some (some pUserInfo))
    (room : pUserInfo.iFactCount + 1 < 2 ^ 31) :
    countUser users szADUA currTime =
      some
        (some (countedUserInfo pUserInfo (pUserInfo.iFactCount + 1)
            currTime),
          users.writeValue (fingerprint users.hashLen szADUA szADUA.length)
            fun other =>
              countedUserInfo other (pUserInfo.iFactCount + 1)
                currTime) := by
  rw [countUser, (findObject_eq_found_iff searchable).mpr found,
    Option.bind_some]
  simp only [incrementInt, if_pos room, Option.map_some]

/-- A subscriber is counted unless a `NULL` pointer is stored for it. -/
theorem countSubscriber_of_ne_null {ads : HashMap Int} {ad : Bytes}
    (searchable : ads.Searchable)
    (notNull :
      ads.lookup (fingerprint ads.hashLen ad ad.length) ≠ some none) :
    ∃ count ads', countSubscriber ads ad = some (count, ads') := by
  cases stored : ads.lookup (fingerprint ads.hashLen ad ad.length) with
  | none =>
      rw [countSubscriber, (findObject_eq_missing_iff searchable).mpr stored]
      exact ⟨_, _, rfl⟩
  | some pointer =>
      cases pointer with
      | none => exact absurd stored notNull
      | some count =>
          rw [countSubscriber,
            (findObject_eq_found_iff searchable).mpr stored]
          exact ⟨_, _, rfl⟩

theorem hashLen_countUser {users users' : HashMap FilterUserInfo}
    {szADUA : Bytes} {counted : Option FilterUserInfo}
    (counting :
      countUser users szADUA currTime = some (counted, users')) :
    users'.hashLen = users.hashLen := by
  simp only [countUser, Option.bind_eq_some_iff] at counting
  rcases counting with ⟨_ | pUserInfo, _, counting⟩
  · cases counting
    rfl
  · simp only [Option.map_eq_some_iff, Prod.mk.injEq] at counting
    rcases counting with ⟨_, _, _, rfl⟩
    rfl

theorem countSubscriber_cases {ads ads' : HashMap Int} {ad : Bytes}
    {count : Int} (searchable : ads.Searchable)
    (counting : countSubscriber ads ad = some (count, ads')) :
    (ads.lookup (fingerprint ads.hashLen ad ad.length) = none ∧
      count = 1 ∧ ads' = hashMapInsert ads ad ad.length (some 1)) ∨
    ∃ old,
      ads.lookup (fingerprint ads.hashLen ad ad.length) =
        some (some old) ∧
      count = old + 1 ∧
      ads' =
        ads.writeValue (fingerprint ads.hashLen ad ad.length) (· + 1) := by
  obtain ⟨missing, equal⟩ | ⟨old, found, equal⟩ :=
    findObject_map_cases searchable counting
  · cases equal
    exact Or.inl ⟨missing, rfl, rfl⟩
  · cases equal
    exact Or.inr ⟨old, found, rfl, rfl⟩

theorem hashLen_countSubscriber {ads ads' : HashMap Int} {ad : Bytes}
    {count : Int}
    (counting : countSubscriber ads ad = some (count, ads')) :
    ads'.hashLen = ads.hashLen := by
  refine hashLen_of_findObject_map ?_ counting
  rintro (_ | count)
  · exact hashLen_hashMapInsert _ _ _ _
  · rfl

/-- The redis hash that a table of subscribers is stored in. -/
def storedName : AdTable → Bytes
  | .surplusAD => ascii "surplus"
  | .filterConditionAD => ascii "crowd"

/-- All that one message can do. -/
inductive PassBackCase (before : Server) (currTime : Int) :
    PassBack → Server → Prop where
  | skipped : PassBackCase before currTime ⟨none, none, none⟩ before
  | target {table : UserTable}
      (uncapped : ∀ adTable : AdTable, adTable.users ≠ table)
      {fields : PassBackFields}
      {pUserInfo : Option FilterUserInfo}
      {users : HashMap FilterUserInfo} :
      countUser (before.users (table, userThread fields.ad))
        (fields.ad ++ fields.ua) currTime = some (pUserInfo, users) →
      PassBackCase before currTime
        { counted := pUserInfo.map fun _ =>
            recordId table fields.ad fields.ua
          countedAd := none
          szMsg := none }
        { before with
          users :=
            Function.update before.users (table, userThread fields.ad)
              users }
  | capped {adTable : AdTable} {fields : PassBackFields} {count : Int}
      {ads : HashMap Int} {pUserInfo : Option FilterUserInfo}
      {users : HashMap FilterUserInfo} :
      fields.WellFormed →
      (∀ info, pUserInfo = some info →
        (hsetMessage (storedName adTable) (fields.ad ++ fields.ua) info
          fields.ad count).command.length < 128) →
      countSubscriber (before.ads (adTable, userThread fields.ad))
        fields.ad = some (count, ads) →
      countUser (before.users (adTable.users, userThread fields.ad))
        (fields.ad ++ fields.ua) currTime = some (pUserInfo, users) →
      PassBackCase before currTime
        { counted := pUserInfo.map fun _ =>
            recordId adTable.users fields.ad fields.ua
          countedAd := some (counterId adTable fields.ad)
          szMsg := pUserInfo.map fun pUserInfo =>
            hsetMessage (storedName adTable) (fields.ad ++ fields.ua)
              pUserInfo fields.ad count }
        { before with
          users :=
            Function.update before.users
              (adTable.users, userThread fields.ad) users
          ads :=
            Function.update before.ads (adTable, userThread fields.ad)
              ads }

theorem passBackTarget_cases {table : UserTable}
    (uncapped : ∀ adTable : AdTable, adTable.users ≠ table)
    {fields : PassBackFields}
    (taken :
      passBackTarget before table fields currTime =
        some (passBack, after)) :
    PassBackCase before currTime passBack after := by
  simp only [passBackTarget, Option.map_eq_some_iff, Prod.exists,
    Prod.mk.injEq] at taken
  rcases taken with ⟨pUserInfo, users, counting, rfl, rfl⟩
  exact .target uncapped counting

theorem passBackCapped_cases (adTable : AdTable)
    {fields : PassBackFields} (wellFormed : fields.WellFormed)
    (taken :
      passBackCapped before adTable.users adTable (storedName adTable)
        fields currTime = some (passBack, after)) :
    PassBackCase before currTime passBack after := by
  simp only [passBackCapped, Option.bind_eq_some_iff, Prod.exists] at taken
  rcases taken with
    ⟨count, ads, countingAd, pUserInfo, users, counting, taken⟩
  cases pUserInfo with
  | none =>
      cases taken
      exact .capped wellFormed (by rintro _ ⟨⟩) countingAd counting
  | some pUserInfo =>
      simp only [Option.map_eq_some_iff, store_eq_some_iff,
        Prod.mk.injEq] at taken
      rcases taken with ⟨_, ⟨short, _⟩, rfl, rfl⟩
      refine .capped wellFormed ?_ countingAd counting
      rintro _ ⟨⟩
      exact short

theorem getDataPassBack_cases {message : Bytes}
    (taken :
      getDataPassBack before message currTime = some (passBack, after)) :
    PassBackCase before currTime passBack after := by
  simp only [getDataPassBack, Option.bind_eq_some_iff] at taken
  rcases taken with ⟨_ | fields, read, taken⟩
  · cases taken
    exact .skipped
  · have wellFormed := passBackFields_wellFormed read
    dsimp only at taken
    split at taken
    · exact passBackTarget_cases (by rintro ⟨⟩ <;> nofun) taken
    split at taken
    · exact passBackTarget_cases (by rintro ⟨⟩ <;> nofun) taken
    split at taken
    · exact passBackCapped_cases .surplusAD wellFormed taken
    split at taken
    · exact passBackCapped_cases .filterConditionAD wellFormed taken
    · cases taken
      exact .skipped

/-- What a message that is not skipped does to the tables of users. -/
structure CountsIn (before after : Server) (table : UserTable)
    (fields : PassBackFields) (currTime : Int)
    (counted : Option RecordId) : Prop where
  counting : ∃ pUserInfo users,
    countUser (before.users (table, userThread fields.ad))
        (fields.ad ++ fields.ua) currTime = some (pUserInfo, users) ∧
    after.users =
      Function.update before.users (table, userThread fields.ad) users ∧
    counted = pUserInfo.map fun _ => recordId table fields.ad fields.ua
  adsLength : ∀ place,
    (after.ads place).hashLen = (before.ads place).hashLen

theorem PassBackCase.countsIn
    (effect : PassBackCase before currTime passBack after) :
    (passBack.counted = none ∧ after = before) ∨
    ∃ table fields,
      CountsIn before after table fields currTime passBack.counted := by
  cases effect with
  | skipped => exact .inl ⟨rfl, rfl⟩
  | target _ counting =>
      exact .inr ⟨_, _, ⟨_, _, counting, rfl, rfl⟩, fun _ => rfl⟩
  | @capped adTable fields count ads pUserInfo users _ _ countingAd
      counting =>
      exact .inr ⟨_, _, ⟨_, _, counting, rfl, rfl⟩, fun place =>
        hashLen_update (hashLen_countSubscriber countingAd) place⟩

theorem PassBackCase.allocated
    (effect : PassBackCase before currTime passBack after)
    (allocated : before.Allocated) : after.Allocated := by
  rcases effect.countsIn with ⟨_, rfl⟩ | ⟨table, fields, countsIn⟩
  · exact allocated
  · obtain ⟨pUserInfo, users, counting, usersUpdated, _⟩ :=
      countsIn.counting
    exact allocated.update_users (hashLen_countUser counting) usersUpdated
      countsIn.adsLength

/-- What a pass-back does to the record it counts in. -/
structure CountedOnce (before after : Server) (id : RecordId)
    (currTime : Int) : Prop where
  record : ∃ pUserInfo,
    before.record id = some pUserInfo ∧
    pUserInfo.iFactCount + 1 < 2 ^ 31 ∧
    after.record id =
      some (countedUserInfo pUserInfo (pUserInfo.iFactCount + 1) currTime)
  others : AgreeExcept id before after

/-- What a message does to the records, by the record it counts in. -/
def RecordEffect (before after : Server) (currTime : Int) :
    Option RecordId → Prop
  | none => ∀ id, after.record id = before.record id
  | some id => CountedOnce before after id currTime

theorem CountsIn.record {table : UserTable} {fields : PassBackFields}
    {counted : Option RecordId} (allocated : before.Allocated)
    (countsIn : CountsIn before after table fields currTime counted) :
    RecordEffect before after currTime counted := by
  obtain ⟨pUserInfo, users, counting, usersUpdated, rfl⟩ :=
    countsIn.counting
  have length := allocated.users (table, userThread fields.ad)
  rcases countUser_cases (allocated.users_searchable _) counting with
    ⟨rfl, rfl⟩ | ⟨pUserInfo, found, room, rfl, rfl⟩
  · rw [Function.update_eq_self] at usersUpdated
    exact record_eq_of_users_eq usersUpdated
  · have same := record_writeValue_same usersUpdated
    have others := record_writeValue_other usersUpdated
    rw [length] at same others found
    have opened :
        before.record (recordId table fields.ad fields.ua) =
          some pUserInfo :=
      congrArg Option.join found
    refine ⟨⟨pUserInfo, opened, room, ?_⟩, others⟩
    rw [recordId] at opened
    rw [recordId, same, opened]
    rfl

/-- A message counts in the record that its result names, and changes no other
record. -/
theorem PassBackCase.record
    (effect : PassBackCase before currTime passBack after)
    (allocated : before.Allocated) :
    RecordEffect before after currTime passBack.counted := by
  rcases effect.countsIn with ⟨skipped, rfl⟩ | ⟨table, fields, countsIn⟩
  · rw [skipped]
    exact fun _ => rfl
  · exact countsIn.record allocated

theorem lookup_countUser {users users' : HashMap FilterUserInfo}
    {szADUA : Bytes} {pUserInfo : FilterUserInfo}
    (searchable : users.Searchable)
    (counting :
      countUser users szADUA currTime = some (some pUserInfo, users')) :
    pUserInfo.iFactTime = currTime ∧
      users'.lookup (fingerprint users.hashLen szADUA szADUA.length) =
        some (some pUserInfo) := by
  rcases countUser_cases searchable counting with
    ⟨absurd, _⟩ | ⟨old, found, _, equal, rfl⟩
  · cases absurd
  · rw [lookup_writeValue_same, found, Option.some.inj equal]
    exact ⟨rfl, rfl⟩

theorem lookup_countSubscriber {ads ads' : HashMap Int} {ad : Bytes}
    {count : Int} (searchable : ads.Searchable)
    (counting : countSubscriber ads ad = some (count, ads')) :
    ads'.lookup (fingerprint ads.hashLen ad ad.length) =
      some (some count) := by
  rcases countSubscriber_cases searchable counting with
    ⟨absent, rfl, rfl⟩ | ⟨old, found, rfl, rfl⟩
  · rw [lookup_hashMapInsert_same, absent]
    rfl
  · rw [lookup_writeValue_same, found]
    rfl

/-- The command of a message stores the record and the counter that the
message leaves behind. -/
structure StoredBy (after : Server) (currTime : Int) (passBack : PassBack)
    (adTable : AdTable) (fields : PassBackFields)
    (pUserInfo : FilterUserInfo) (count : Int) : Prop where
  wellFormed : fields.WellFormed
  szMsg : passBack.szMsg =
    some (hsetMessage (storedName adTable) (fields.ad ++ fields.ua)
      pUserInfo fields.ad count)
  short :
    (hsetMessage (storedName adTable) (fields.ad ++ fields.ua) pUserInfo
      fields.ad count).command.length < 128
  counted :
    passBack.counted = some (recordId adTable.users fields.ad fields.ua)
  countedAd : passBack.countedAd = some (counterId adTable fields.ad)
  record :
    after.record (recordId adTable.users fields.ad fields.ua) =
      some pUserInfo
  time : pUserInfo.iFactTime = currTime
  counter : after.counter (counterId adTable fields.ad) = some (some count)

/-- A message without a command counts in no record that is stored. -/
theorem PassBackCase.stored
    (effect : PassBackCase before currTime passBack after)
    (allocated : before.Allocated) :
    (passBack.szMsg = none ∧
      ∀ id, passBack.counted = some id →
        ∀ adTable : AdTable, adTable.users ≠ id.table) ∨
    ∃ adTable fields pUserInfo count,
      StoredBy after currTime passBack adTable fields pUserInfo count := by
  cases effect with
  | skipped => exact .inl ⟨rfl, by rintro _ ⟨⟩⟩
  | @target table uncapped fields pUserInfo users counting =>
      refine .inl ⟨rfl, fun id counted => ?_⟩
      simp only [Option.map_eq_some_iff] at counted
      rcases counted with ⟨_, _, rfl⟩
      exact uncapped
  | @capped adTable fields count ads pUserInfo users wellFormed short
      countingAd counting =>
      cases pUserInfo with
      | none => exact .inl ⟨rfl, by rintro _ ⟨⟩⟩
      | some pUserInfo =>
          have usersLength :
              (before.users
                (adTable.users, userThread fields.ad)).hashLen =
                  adTable.users.length :=
            allocated.users _
          have adsLength :
              (before.ads (adTable, userThread fields.ad)).hashLen =
                adTable.length :=
            allocated.ads _
          obtain ⟨time, found⟩ :=
            lookup_countUser (allocated.users_searchable _) counting
          have foundAd :=
            lookup_countSubscriber (allocated.ads_searchable _) countingAd
          rw [usersLength] at found
          rw [adsLength] at foundAd
          refine .inr ⟨adTable, fields, pUserInfo, count, wellFormed, rfl,
            short _ rfl, rfl, rfl, ?_, time, ?_⟩
          · rw [Server.record, recordId]
            dsimp only
            rw [Function.update_self, found]
            rfl
          · exact (counter_update_same rfl).trans foundAd

end Effect

/-! ## The server as a transition system -/

/-- The events of the server. -/
inductive Event where
  | request (table : UserTable) (psMqHttpMes : MqHttpMessage)
      (sAd : CharPointer)
  | passBack (message : Bytes) (currTime : Int)
deriving DecidableEq

/-- What an event leads to besides the new state. -/
inductive Reply where
  | answered (answer : Bool)
  | passedBack (passBack : PassBack)
deriving DecidableEq

/-- One event.  A request reaches its decider with the thread of its
subscriber. -/
def serverStep (conf : Conf) (server : Server) :
    Event → Option (Reply × Server)
  | .request table psMqHttpMes sAd =>
      (decider table conf server (userThread sAd.text) psMqHttpMes
        (some sAd)).map fun (answer, server) => (.answered answer, server)
  | .passBack message currTime =>
      (getDataPassBack server message currTime).map
        fun (passBack, server) => (.passedBack passBack, server)

/-- All that one event can do: a request is answered by its decider with a
`Decision`, and a pass-back has one of the effects of its message. -/
inductive ServerCase (conf : Conf) (before after : Server) :
    Event × Reply → Prop where
  | request {table : UserTable} {psMqHttpMes : MqHttpMessage}
      {sAd : CharPointer} {answer : Bool} :
      Decision conf table (userThread sAd.text)
        (sAd.text ++ psMqHttpMes.pcUa) psMqHttpMes.lSec answer before
        after →
      ServerCase conf before after
        (.request table psMqHttpMes sAd, .answered answer)
  | passBack {message : Bytes} {currTime : Int} {passBack : PassBack} :
      PassBackCase before currTime passBack after →
      ServerCase conf before after
        (.passBack message currTime, .passedBack passBack)

theorem serverStep_cases {conf : Conf} {before after : Server}
    {label : Event × Reply}
    (taken : stepOf (serverStep conf) before label after) :
    ServerCase conf before after label := by
  obtain ⟨event, reply⟩ := label
  cases event with
  | request table psMqHttpMes sAd =>
      simp only [stepOf, serverStep, Option.map_eq_some_iff, Prod.exists,
        Prod.mk.injEq] at taken
      rcases taken with ⟨answer, _, decided, rfl, rfl⟩
      exact .request (decider_decision decided)
  | passBack message currTime =>
      simp only [stepOf, serverStep, Option.map_eq_some_iff, Prod.exists,
        Prod.mk.injEq] at taken
      rcases taken with ⟨passBack, _, counting, rfl, rfl⟩
      exact .passBack (getDataPassBack_cases counting)

theorem serverStep_allocated {conf : Conf} {before after : Server}
    {label : Event × Reply} (allocated : before.Allocated)
    (taken : stepOf (serverStep conf) before label after) :
    after.Allocated := by
  cases serverStep_cases taken with
  | request decision => exact decision.allocated allocated
  | passBack effect => exact effect.allocated allocated

/-- Runs of the server over events with their replies. -/
abbrev ServerRun (conf : Conf) :
    Server → List (Event × Reply) → Server → Prop :=
  Run (stepOf (serverStep conf))

end WindowSystem.DataPassBack
