import WindowSystem.DataPassBack

/-!
# Loading the counts from redis

`mq_count_redis_store.c` keeps the last value of every user's field in redis
and reads all of them back at the start of the server.  `load_all_hash` has
one branch for the surplus tables and one for the crowd tables.
-/

namespace WindowSystem.MqCountRedisStore

open WindowSystem.CRuntime
open WindowSystem.DataPassBack
open WindowSystem.DcGlobal
open WindowSystem.Library
open WindowSystem.ToolHashMap

/-! ## Redis -/

/-- The hashes that redis keeps, by name and field. -/
abbrev Redis := Bytes → Bytes → Option Bytes

/-- The effect of an `hset` command. -/
def Redis.hset (redis : Redis) (hset : Hset) : Redis :=
  Function.update redis hset.name
    (Function.update (redis hset.name) hset.field (some hset.value))

/-- The command that a reply of the server sends to redis. -/
def sentCommand : Event × Reply → Option Hset
  | (_, .passedBack passBack) => passBack.szMsg
  | (_, .answered _) => none

/-- Redis after the commands of a run. -/
def Redis.after (labels : List (Event × Reply)) : Redis :=
  (labels.filterMap sentCommand).foldl Redis.hset fun _ _ => none

/-- An answer to `hgetall`: every field with its value, in any order. -/
structure Hgetall (redis : Redis) (name : Bytes)
    (reply : List (Bytes × Bytes)) : Prop where
  nodup : (reply.map Prod.fst).Nodup
  mem_iff : ∀ field value,
    (field, value) ∈ reply ↔ redis name field = some value

/-! ## The loader -/

/-- The parts of a value; the last one is looked at only when it is used. -/
structure LoadedFields where
  factCount : Int
  factTime : Int
  ad : Bytes
  adCount : Option Bytes

/-- The value of a field, cut with `strsep`. -/
def loadedFields (value : Bytes) : Option (Option LoadedFields) :=
  let token := strsep 58 (cString value)
  if token.length < 20 then
    requireToken token 0 fun factCount =>
    requireToken token 2 fun factTime =>
    requireToken token 4 fun ad =>
      some (some
        { factCount := atoi factCount
          factTime := atoi factTime
          ad := ad
          adCount := token[6]? })
  else none

/-- Insert the counter of a subscriber that has none yet. -/
def loadCount (server : Server) (adTable : AdTable)
    (fields : LoadedFields) : Option Server :=
  let iTid := userThread fields.ad
  let ads := server.ads (adTable, iTid)
  if (hashMapFind ads fields.ad fields.ad.length).ret < 0 then
    fields.adCount.map fun adCount =>
      { server with
        ads :=
          Function.update server.ads (adTable, iTid)
            (hashMapInsert ads fields.ad fields.ad.length
              (some (atoi adCount))) }
  else some server

/-- The record that is built from a value. -/
def loadedUserInfo (fields : LoadedFields) : FilterUserInfo where
  iFactCount := fields.factCount
  iFactTime := fields.factTime
  iCount := 0
  lTime := 0

/-- Insert the record of a user. -/
def loadUser (server : Server) (table : UserTable) (szBuff : Bytes)
    (fields : LoadedFields) : Server :=
  let iTid := userThread fields.ad
  { server with
    users :=
      Function.update server.users (table, iTid)
        (hashMapInsert (server.users (table, iTid)) szBuff szBuff.length
          (some (loadedUserInfo fields))) }

/-- The branch `type == 0`. -/
def loadSurplus (server : Server) (szBuff : Bytes)
    (fields : LoadedFields) : Option Server :=
  (loadCount server .surplusAD fields).map fun server =>
    if (hashMapFind (server.users (.surplusIP, userThread fields.ad))
        szBuff szBuff.length).ret < 0 then
      loadUser server .surplusIP szBuff fields
    else server

/-- The branch `type == 1`; its test on the user has the other sign. -/
def loadCrowd (server : Server) (szBuff : Bytes)
    (fields : LoadedFields) : Option Server :=
  (loadCount server .filterConditionAD fields).map fun server =>
    if 0 ≤ (hashMapFind (server.users (.filterConditionIP,
        userThread fields.ad)) szBuff szBuff.length).ret then
      loadUser server .filterConditionIP szBuff fields
    else server

/-- One field and its value. -/
def loadEntry (load : Server → Bytes → LoadedFields → Option Server)
    (server : Server) (entry : Bytes × Bytes) : Option Server :=
  (store 128 (cString entry.1)).bind fun szBuff =>
    (loadedFields entry.2).bind fun
      | none => some server
      | some fields => load server szBuff fields

/-- `load_all_hash` on the reply to its command. -/
def loadAllHash (load : Server → Bytes → LoadedFields → Option Server)
    (server : Server) (reply : List (Bytes × Bytes)) : Option Server :=
  reply.foldlM (loadEntry load) server

/-- The loading part of `mq_redis_store_client_init`. -/
def mqRedisStoreClientInit (surplus crowd : List (Bytes × Bytes)) :
    Option Server :=
  (loadAllHash loadSurplus .initial surplus).bind fun server =>
    loadAllHash loadCrowd server crowd

/-! ## What one entry does -/

/-- The user record that an entry is about. -/
def entryRecord (adTable : AdTable) (entry : Bytes × Bytes) :
    Option RecordId :=
  (loadedFields entry.2).join.map fun fields =>
    { table := adTable.users
      iTid := userThread fields.ad
      key :=
        fingerprint adTable.users.length (cString entry.1)
          (cString entry.1).length }

/-- The subscriber counter that an entry is about. -/
def entryCounter (adTable : AdTable) (entry : Bytes × Bytes) :
    Option CounterId :=
  (loadedFields entry.2).join.map fun fields => counterId adTable fields.ad

/-- The first entry about a user record. -/
def firstForRecord (adTable : AdTable) (id : RecordId)
    (reply : List (Bytes × Bytes)) : Option (Bytes × Bytes) :=
  reply.find? fun entry => entryRecord adTable entry = some id

/-- The first entry about a subscriber counter. -/
def firstForCounter (adTable : AdTable) (id : CounterId)
    (reply : List (Bytes × Bytes)) : Option (Bytes × Bytes) :=
  reply.find? fun entry => entryCounter adTable entry = some id

/-- The value pointer under which a user record is stored, if there is one. -/
def storedRecord (server : Server) (id : RecordId) :
    Option (Option FilterUserInfo) :=
  (server.users (id.table, id.iTid)).lookup id.key

/-- The record that an entry would insert. -/
def entryUserInfo (entry : Bytes × Bytes) : Option FilterUserInfo :=
  (loadedFields entry.2).join.map loadedUserInfo

/-- The count that an entry would insert. -/
def entryCount (entry : Bytes × Bytes) : Option Int :=
  (loadedFields entry.2).join.bind fun fields => fields.adCount.map atoi

/-- An entry that can be loaded: the field fits into its buffer and the value
has all its parts. -/
structure Loadable (entry : Bytes × Bytes) (fields : LoadedFields)
    (adCount : Bytes) : Prop where
  short : (cString entry.1).length < 128
  read : loadedFields entry.2 = some (some fields)
  present : fields.adCount = some adCount

theorem ret_hashMapFind_neg_iff {V : Type*} {map : HashMap V}
    (searchable : map.Searchable) (start : Bytes) (len : Int) :
    (hashMapFind map start len).ret < 0 ↔
      map.lookup (fingerprint map.hashLen start len) = none := by
  rw [← not_le, ret_hashMapFind_nonneg_iff searchable.1 searchable.2,
    Option.not_isSome_iff_eq_none]

section Load

variable {server : Server} {entry : Bytes × Bytes}
  {fields : LoadedFields} {adCount : Bytes}

/-- The counters after one entry: the first entry for a counter stays. -/
theorem loadCount_counter (adTable : AdTable)
    (allocated : server.Allocated) (present : fields.adCount = some adCount) :
    ∃ after,
      loadCount server adTable fields = some after ∧
      after.Allocated ∧ after.users = server.users ∧
      ∀ id, after.counter id =
        (server.counter id).or
          (if counterId adTable fields.ad = id then
            some (some (atoi adCount))
          else none) := by
  have length :
      (server.ads (adTable, userThread fields.ad)).hashLen =
        adTable.length :=
    allocated.ads _
  have missing_iff :=
    ret_hashMapFind_neg_iff
      (allocated.ads_searchable (adTable, userThread fields.ad))
      fields.ad fields.ad.length
  rw [length] at missing_iff
  have stored :
      server.counter (counterId adTable fields.ad) =
        (server.ads (adTable, userThread fields.ad)).lookup
          (fingerprint adTable.length fields.ad fields.ad.length) := rfl
  rw [loadCount]
  split
  · rename_i missing
    have absent := missing_iff.mp missing
    rw [present]
    refine ⟨_, rfl, ⟨allocated.users, fun place => ?_⟩, rfl, fun id => ?_⟩
    · exact (hashLen_update (hashLen_hashMapInsert _ _ _ _) place).trans
        (allocated.ads place)
    · split
      · rename_i same
        subst same
        rw [stored, absent, Option.none_or, counter_update_same rfl,
          ← length, lookup_hashMapInsert_same, length, absent]
        rfl
      · rename_i different
        rw [Option.or_none]
        refine counter_update_other (fun otherKey => ?_) rfl
          (Ne.symm different)
        rw [← length] at otherKey
        exact lookup_hashMapInsert_other _ _ _ _ otherKey
  · rename_i found
    refine ⟨server, rfl, allocated, rfl, fun id => ?_⟩
    split
    · rename_i same
      subst same
      rw [missing_iff, ← stored] at found
      obtain ⟨value, equal⟩ := Option.ne_none_iff_exists'.mp found
      rw [equal, Option.some_or]
    · rw [Option.or_none]

/-- The records after a user has been loaded who had none. -/
theorem loadUser_storedRecord {table : UserTable} {szBuff : Bytes}
    (allocated : server.Allocated)
    (absent :
      storedRecord server
          ⟨table, userThread fields.ad,
            fingerprint table.length szBuff szBuff.length⟩ = none)
    (id : RecordId) :
    storedRecord (loadUser server table szBuff fields) id =
      (storedRecord server id).or
        (if (⟨table, userThread fields.ad,
            fingerprint table.length szBuff szBuff.length⟩ : RecordId) = id
          then some (some (loadedUserInfo fields)) else none) := by
  have length :
      (server.users (table, userThread fields.ad)).hashLen =
        table.length :=
    allocated.users _
  split
  · rename_i same
    rw [← same, absent, Option.none_or, storedRecord, loadUser]
    dsimp only
    rw [Function.update_self, ← length, lookup_hashMapInsert_same]
    rw [storedRecord] at absent
    rw [length, absent]
    rfl
  · rename_i different
    rw [Option.or_none, storedRecord, loadUser, storedRecord]
    refine lookup_update_other
      (fun otherKey => lookup_hashMapInsert_other _ _ _ _ otherKey)
      fun same => ?_
    obtain ⟨samePlace, sameKey⟩ := Prod.mk.inj same
    obtain ⟨sameTable, sameThread⟩ := Prod.mk.inj samePlace
    rw [length] at sameKey
    exact different (RecordId.ext sameTable sameThread sameKey).symm

theorem loadUser_allocated {table : UserTable} {szBuff : Bytes}
    (allocated : server.Allocated) :
    (loadUser server table szBuff fields).Allocated :=
  allocated.update_users (hashLen_hashMapInsert _ _ _ _) rfl fun _ => rfl

/-- One entry of the surplus hash: whatever is already there stays. -/
theorem loadEntry_surplus (allocated : server.Allocated)
    (loadable : Loadable entry fields adCount) :
    ∃ after,
      loadEntry loadSurplus server entry = some after ∧
      after.Allocated ∧
      (∀ id, after.counter id =
        (server.counter id).or
          (if entryCounter .surplusAD entry = some id then
            (entryCount entry).map some
          else none)) ∧
      ∀ id, storedRecord after id =
        (storedRecord server id).or
          (if entryRecord .surplusAD entry = some id then
            (entryUserInfo entry).map some
          else none) := by
  obtain ⟨counted, loaded, countedAllocated, usersSame, counters⟩ :=
    loadCount_counter .surplusAD allocated loadable.present
  have recordsSame (id : RecordId) :
      storedRecord counted id = storedRecord server id := by
    rw [storedRecord, usersSame, storedRecord]
  have length :
      (counted.users (.surplusIP, userThread fields.ad)).hashLen =
        UserTable.surplusIP.length :=
    countedAllocated.users _
  have missing_iff :=
    ret_hashMapFind_neg_iff
      (countedAllocated.users_searchable
        (.surplusIP, userThread fields.ad))
      (cString entry.1) (cString entry.1).length
  rw [length] at missing_iff
  have countRead : (entryCount entry).map some =
      some (some (atoi adCount)) := by
    simp [entryCount, loadable.read, loadable.present]
  have recordRead : (entryUserInfo entry).map some =
      some (some (loadedUserInfo fields)) := by
    simp [entryUserInfo, loadable.read]
  simp only [loadEntry, store, if_pos loadable.short, Option.bind_some,
    loadable.read, loadSurplus, loaded, Option.map_some, Option.some.injEq,
    exists_eq_left', countRead, recordRead, entryCounter, entryRecord,
    Option.join_some, AdTable.users]
  split
  · rename_i missing
    have absent := missing_iff.mp missing
    refine ⟨loadUser_allocated countedAllocated, counters, fun id => ?_⟩
    rw [loadUser_storedRecord countedAllocated absent, recordsSame]
  · rename_i found
    refine ⟨countedAllocated, counters, fun id => ?_⟩
    rw [recordsSame]
    split
    · rename_i same
      rw [missing_iff] at found
      obtain ⟨value, equal⟩ := Option.ne_none_iff_exists'.mp found
      have present : storedRecord server id = some value := by
        rw [← recordsSame, ← same]
        exact equal
      rw [present, Option.some_or]
    · rw [Option.or_none]

/-- One entry of the crowd hash: users without a record stay without. -/
theorem loadEntry_crowd (allocated : server.Allocated)
    (empty : ∀ id : RecordId, id.table = .filterConditionIP →
      storedRecord server id = none)
    (loadable : Loadable entry fields adCount) :
    ∃ after,
      loadEntry loadCrowd server entry = some after ∧
      after.Allocated ∧
      (∀ id, after.counter id =
        (server.counter id).or
          (if entryCounter .filterConditionAD entry = some id then
            (entryCount entry).map some
          else none)) ∧
      after.users = server.users := by
  obtain ⟨counted, loaded, countedAllocated, usersSame, counters⟩ :=
    loadCount_counter .filterConditionAD allocated loadable.present
  have length :
      (counted.users (.filterConditionIP, userThread fields.ad)).hashLen =
        UserTable.filterConditionIP.length :=
    countedAllocated.users _
  have missing :
      (hashMapFind
        (counted.users (.filterConditionIP, userThread fields.ad))
        (cString entry.1) (cString entry.1).length).ret < 0 := by
    rw [ret_hashMapFind_neg_iff (countedAllocated.users_searchable _),
      length, usersSame]
    exact empty ⟨.filterConditionIP, userThread fields.ad, _⟩ rfl
  have countRead : (entryCount entry).map some =
      some (some (atoi adCount)) := by
    simp [entryCount, loadable.read, loadable.present]
  refine ⟨counted, ?_, countedAllocated, ?_, usersSame⟩
  · simp [loadEntry, store, loadable.short, loadable.read, loadCrowd,
      loaded, missing]
  · simpa [countRead, entryCounter, loadable.read] using counters

end Load

/-! ## What a whole reply does -/

section Reply

variable {server : Server} {reply : List (Bytes × Bytes)}

/-- All entries can be loaded. -/
def AllLoadable (reply : List (Bytes × Bytes)) : Prop :=
  ∀ entry ∈ reply, ∃ fields adCount, Loadable entry fields adCount

/-- What is there already goes before the first entry, and that one before
the later entries. -/
theorem or_find_cons {β γ : Type*} (already : Option γ) (about : β → Prop)
    [DecidablePred about] (value : β → Option γ) {first : β}
    (rest : List β) (valued : (value first).isSome) :
    (already.or (if about first then value first else none)).or
        ((rest.find? fun entry => about entry).bind value) =
      already.or
        (((first :: rest).find? fun entry => about entry).bind value) := by
  rw [Option.or_assoc]
  obtain ⟨found, equal⟩ := Option.isSome_iff_exists.mp valued
  by_cases concerned : about first
  · simp [concerned, equal]
  · simp [concerned]

theorem Loadable.entryCount_isSome {entry : Bytes × Bytes}
    {fields : LoadedFields} {adCount : Bytes}
    (loadable : Loadable entry fields adCount) :
    ((entryCount entry).map some).isSome := by
  simp [entryCount, loadable.read, loadable.present]

theorem Loadable.entryUserInfo_isSome {entry : Bytes × Bytes}
    {fields : LoadedFields} {adCount : Bytes}
    (loadable : Loadable entry fields adCount) :
    ((entryUserInfo entry).map some).isSome := by
  simp [entryUserInfo, loadable.read]

/-- The surplus tables after a reply: the first entry for a subscriber and
the first entry for a user win. -/
theorem loadAllHash_surplus (allocated : server.Allocated)
    (loadable : AllLoadable reply) :
    ∃ after,
      loadAllHash loadSurplus server reply = some after ∧
      after.Allocated ∧
      (∀ id, after.counter id =
        (server.counter id).or
          ((firstForCounter .surplusAD id reply).bind fun entry =>
            (entryCount entry).map some)) ∧
      ∀ id, storedRecord after id =
        (storedRecord server id).or
          ((firstForRecord .surplusAD id reply).bind fun entry =>
            (entryUserInfo entry).map some) := by
  induction reply generalizing server with
  | nil =>
      exact ⟨server, rfl, allocated, by simp [firstForCounter],
        by simp [firstForRecord]⟩
  | cons entry reply induction =>
      obtain ⟨fields, adCount, headLoadable⟩ :=
        loadable entry List.mem_cons_self
      obtain ⟨middle, head, middleAllocated, counters, records⟩ :=
        loadEntry_surplus allocated headLoadable
      obtain ⟨after, tail, afterAllocated, moreCounters, moreRecords⟩ :=
        induction middleAllocated fun other member =>
          loadable other (List.mem_cons_of_mem _ member)
      refine ⟨after, ?_, afterAllocated, fun id => ?_, fun id => ?_⟩
      · rw [loadAllHash, List.foldlM_cons, head]
        exact tail
      · rw [moreCounters, counters]
        exact or_find_cons _
          (fun entry => entryCounter .surplusAD entry = some id)
          (fun entry => (entryCount entry).map some) reply
          headLoadable.entryCount_isSome
      · rw [moreRecords, records]
        exact or_find_cons _
          (fun entry => entryRecord .surplusAD entry = some id)
          (fun entry => (entryUserInfo entry).map some) reply
          headLoadable.entryUserInfo_isSome

/-- The crowd tables after a reply: no user is ever loaded. -/
theorem loadAllHash_crowd (allocated : server.Allocated)
    (empty : ∀ id : RecordId, id.table = .filterConditionIP →
      storedRecord server id = none)
    (loadable : AllLoadable reply) :
    ∃ after,
      loadAllHash loadCrowd server reply = some after ∧
      after.Allocated ∧
      (∀ id, after.counter id =
        (server.counter id).or
          ((firstForCounter .filterConditionAD id reply).bind fun entry =>
            (entryCount entry).map some)) ∧
      after.users = server.users := by
  induction reply generalizing server with
  | nil =>
      exact ⟨server, rfl, allocated, by simp [firstForCounter], rfl⟩
  | cons entry reply induction =>
      obtain ⟨fields, adCount, headLoadable⟩ :=
        loadable entry List.mem_cons_self
      obtain ⟨middle, head, middleAllocated, counters, usersSame⟩ :=
        loadEntry_crowd allocated empty headLoadable
      have middleEmpty (id : RecordId)
          (crowd : id.table = .filterConditionIP) :
          storedRecord middle id = none := by
        rw [storedRecord, usersSame]
        exact empty id crowd
      obtain ⟨after, tail, afterAllocated, moreCounters, stillSame⟩ :=
        induction middleAllocated middleEmpty fun other member =>
          loadable other (List.mem_cons_of_mem _ member)
      refine ⟨after, ?_, afterAllocated, fun id => ?_,
        stillSame.trans usersSame⟩
      · rw [loadAllHash, List.foldlM_cons, head]
        exact tail
      · rw [moreCounters, counters]
        exact or_find_cons _
          (fun entry => entryCounter .filterConditionAD entry = some id)
          (fun entry => (entryCount entry).map some) reply
          headLoadable.entryCount_isSome

end Reply

end WindowSystem.MqCountRedisStore
