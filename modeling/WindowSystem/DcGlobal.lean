import WindowSystem.ToolHashMap

/-!
# Types shared by the server files

The structures and constants of `dc_global.h` that the modelled functions use,
and the per-thread tables that `rule_pop_init_condition_hash` allocates.
-/

namespace WindowSystem.DcGlobal

open WindowSystem.CRuntime
open WindowSystem.ToolHashMap

/-- The index of a worker thread, below `THREAD_NUM`. -/
abbrev ThreadId := Fin 16

/-- `FilterUserInfo`: the popups of one user. -/
structure FilterUserInfo where
  iFactCount : Int
  iFactTime : Int
  iCount : Int
  lTime : Int
deriving DecidableEq

/-- `MqHttpMessage`: a decoded request. -/
structure MqHttpMessage where
  pcCookie : Bytes
  pcSrcIP : Bytes
  pcUri : Bytes
  host : Bytes
  pcSec : Bytes
  lSec : Int
  pcUa : Bytes
  pcNoEncUa : Bytes
deriving DecidableEq

/-- The tables of users: `g_pTargetIP`, `g_pTargetIP1`, `g_pSurplusIP` and
`g_pFilterConditionIP`. -/
inductive UserTable where
  | targetIP
  | targetIP1
  | surplusIP
  | filterConditionIP
deriving DecidableEq

/-- The tables of subscribers: `g_pSurplusAD` and `g_pFilterConditionAD`. -/
inductive AdTable where
  | surplusAD
  | filterConditionAD
deriving DecidableEq

/-- `TOTAL_IP_SUM` or `POP_HISTORY_IPUA_LEN`. -/
def UserTable.length : UserTable → UInt32
  | .targetIP => 250000
  | .targetIP1 => 250000
  | .surplusIP => 250000
  | .filterConditionIP => 40960

/-- `TOTAL_IP_SUM` or `POP_HISTORY_IPUA_LEN`. -/
def AdTable.length : AdTable → UInt32
  | .surplusAD => 250000
  | .filterConditionAD => 40960

/-- The table of users that goes with a table of subscribers. -/
def AdTable.users : AdTable → UserTable
  | .surplusAD => .surplusIP
  | .filterConditionAD => .filterConditionIP

/-- The limits that a decider reads for one table of users: `max_num`,
`fact_num`, `factdelay` and `delay`. -/
structure UserLimits where
  maxNum : Int
  factNum : Int
  factdelay : Int
  delay : Int

/--
The configuration of the deciders.

The limits are `g_conf_pop_white_host_*` for `g_pTargetIP`,
`g_conf_pop_white_host_*1` for `g_pTargetIP1`, `g_conf_suplus_*` for
`g_pSurplusIP` and `g_conf_crowd_*` for `g_pFilterConditionIP`; the caps of the
subscribers are `g_conf_suplus_ad_max_num` and `g_conf_crowd_ad_max_num`.
-/
structure Conf where
  limits : UserTable → UserLimits
  adMaxNum : AdTable → Int

/-- The tables that the deciders and the pass-back thread share. -/
structure Server where
  iTotalNum : ThreadId → UInt32
  users : UserTable × ThreadId → HashMap FilterUserInfo
  ads : AdTable × ThreadId → HashMap Int

/-- The tables after `rule_pop_init_condition_hash`. -/
def Server.initial : Server where
  iTotalNum _ := 0
  users place := hashMapNew place.1.length
  ads place := hashMapNew place.1.length

/-- `hash_map_hash_value(ad, strlen(ad)) % 16`. -/
def userThread (ad : Bytes) : ThreadId :=
  Fin.ofNat 16 (hashMapHashValue ad ad.length).toNat

/-! ## Tables keep their size -/

/-- Every table has the number of buckets it was allocated with. -/
structure Server.Allocated (server : Server) : Prop where
  users : ∀ place, (server.users place).hashLen = place.1.length
  ads : ∀ place, (server.ads place).hashLen = place.1.length

theorem Server.allocated_initial : Server.initial.Allocated where
  users _ := rfl
  ads _ := rfl

@[simp]
theorem counter_initial (table : AdTable) (iTid : ThreadId)
    (key : Fingerprint) :
    (Server.initial.ads (table, iTid)).lookup key = none := rfl

theorem UserTable.length_searchable (table : UserTable) :
    0 < table.length ∧ table.length.toNat ≤ 2 ^ 31 := by
  cases table <;> decide

theorem AdTable.length_searchable (table : AdTable) :
    0 < table.length ∧ table.length.toNat ≤ 2 ^ 31 := by
  cases table <;> decide

namespace Server.Allocated

variable {server : Server}

theorem users_searchable (allocated : server.Allocated)
    (place : UserTable × ThreadId) : (server.users place).Searchable := by
  rw [HashMap.Searchable, allocated.users]
  exact place.1.length_searchable

theorem ads_searchable (allocated : server.Allocated)
    (place : AdTable × ThreadId) : (server.ads place).Searchable := by
  rw [HashMap.Searchable, allocated.ads]
  exact place.1.length_searchable

end Server.Allocated

/-! ## Records -/

/-- What distinguishes one user record from another: its table, the thread
of the subscriber, and the fingerprint of the key `ad ++ ua`. -/
@[ext]
structure RecordId where
  table : UserTable
  iTid : ThreadId
  key : Fingerprint
deriving DecidableEq

/-- The record under which a user of a subscriber is kept. -/
def recordId (table : UserTable) (ad ua : Bytes) : RecordId where
  table := table
  iTid := userThread ad
  key := fingerprint table.length (ad ++ ua) (ad ++ ua).length

/-- What distinguishes one subscriber counter from another. -/
@[ext]
structure CounterId where
  table : AdTable
  iTid : ThreadId
  key : Fingerprint
deriving DecidableEq

/-- The counter of a subscriber. -/
def counterId (table : AdTable) (ad : Bytes) : CounterId where
  table := table
  iTid := userThread ad
  key := fingerprint table.length ad ad.length

/-- The stored record, if there is one. -/
def Server.record (server : Server) (id : RecordId) :
    Option FilterUserInfo :=
  ((server.users (id.table, id.iTid)).lookup id.key).join

/-- The value pointer under which a counter is stored, if there is one. -/
def Server.counter (server : Server) (id : CounterId) :
    Option (Option Int) :=
  (server.ads (id.table, id.iTid)).lookup id.key

/-! ## Records after an update of one table -/

section Update

variable {before after : Server} {place : UserTable × ThreadId}

/-- Every record but one is the same in both states. -/
def AgreeExcept (id : RecordId) (before after : Server) : Prop :=
  ∀ other, other ≠ id → after.record other = before.record other

theorem record_eq_of_users_eq (same : after.users = before.users)
    (id : RecordId) : after.record id = before.record id := by
  rw [Server.record, same, Server.record]

theorem AgreeExcept.of_users_eq (id : RecordId)
    (same : after.users = before.users) : AgreeExcept id before after :=
  fun other _ => record_eq_of_users_eq same other

theorem record_writeValue_same {key : Fingerprint}
    {write : FilterUserInfo → FilterUserInfo}
    (written :
      after.users = Function.update before.users place
        ((before.users place).writeValue key write)) :
    after.record ⟨place.1, place.2, key⟩ =
      (before.record ⟨place.1, place.2, key⟩).map write := by
  rw [Server.record, written, Function.update_self,
    lookup_writeValue_same, Server.record]
  cases (before.users (place.1, place.2)).lookup key with
  | none => rfl
  | some pointer => rfl

theorem AgreeExcept.of_update {key : Fingerprint}
    {users : HashMap FilterUserInfo}
    (agrees : ∀ {other}, other ≠ key →
      users.lookup other = (before.users place).lookup other)
    (updated : after.users = Function.update before.users place users) :
    AgreeExcept ⟨place.1, place.2, key⟩ before after := by
  intro other different
  rw [Server.record, updated, Server.record]
  refine congrArg Option.join (lookup_update_other agrees ?_)
  intro same
  obtain ⟨samePlace, sameKey⟩ := Prod.mk.inj same
  subst samePlace
  exact different (RecordId.ext rfl rfl sameKey)

theorem record_writeValue_other {key : Fingerprint}
    {write : FilterUserInfo → FilterUserInfo}
    (written :
      after.users = Function.update before.users place
        ((before.users place).writeValue key write)) :
    AgreeExcept ⟨place.1, place.2, key⟩ before after :=
  .of_update (fun different => lookup_writeValue_other _ different _)
    written

theorem record_insert_same {start : Bytes} {value : FilterUserInfo}
    (absent :
      (before.users place).lookup
        (fingerprint (before.users place).hashLen start start.length) = none)
    (inserted :
      after.users = Function.update before.users place
        (hashMapInsert (before.users place) start start.length
          (some value))) :
    after.record ⟨place.1, place.2,
        fingerprint (before.users place).hashLen start start.length⟩ =
      some value := by
  rw [Server.record, inserted, Function.update_self,
    lookup_hashMapInsert_same, absent]
  rfl

theorem record_insert_other {start : Bytes} {value : FilterUserInfo}
    (inserted :
      after.users = Function.update before.users place
        (hashMapInsert (before.users place) start start.length
          (some value))) :
    AgreeExcept ⟨place.1, place.2,
        fingerprint (before.users place).hashLen start start.length⟩
      before after :=
  .of_update
    (fun different => lookup_hashMapInsert_other _ _ _ _ different) inserted

theorem Server.Allocated.update_users (allocated : before.Allocated)
    {users : HashMap FilterUserInfo}
    (length : users.hashLen = (before.users place).hashLen)
    (usersUpdated : after.users = Function.update before.users place users)
    (adsLength : ∀ place, (after.ads place).hashLen =
      (before.ads place).hashLen) :
    after.Allocated where
  users other := by
    rw [usersUpdated, hashLen_update length, allocated.users]
  ads other := by
    rw [adsLength, allocated.ads]

end Update

/-! ## Counters after an update of one table -/

section UpdateAds

variable {before after : Server} {adTable : AdTable} {ad : Bytes}
  {ads : HashMap Int}

theorem counter_update_same
    (updated :
      after.ads =
        Function.update before.ads (adTable, userThread ad) ads) :
    after.counter (counterId adTable ad) =
      ads.lookup (fingerprint adTable.length ad ad.length) := by
  rw [Server.counter, updated, counterId, Function.update_self]

theorem counter_update_other
    (agrees : ∀ {other},
      other ≠ fingerprint adTable.length ad ad.length →
      ads.lookup other =
        (before.ads (adTable, userThread ad)).lookup other)
    (updated :
      after.ads =
        Function.update before.ads (adTable, userThread ad) ads)
    {id : CounterId} (different : id ≠ counterId adTable ad) :
    after.counter id = before.counter id := by
  rw [Server.counter, updated, Server.counter]
  refine lookup_update_other agrees fun same => ?_
  obtain ⟨samePlace, sameKey⟩ := Prod.mk.inj same
  obtain ⟨sameTable, sameThread⟩ := Prod.mk.inj samePlace
  exact different (CounterId.ext sameTable sameThread sameKey)

end UpdateAds

end WindowSystem.DcGlobal
