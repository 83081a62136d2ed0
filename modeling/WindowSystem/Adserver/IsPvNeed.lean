import Mathlib.Order.WithBot
import WindowSystem.Library.ExpiringStore
import WindowSystem.Library.Interleaving
import WindowSystem.Sspserver.JavaRuntime

/-!
# Handing out the statistics code

A page that shows an advertisement asks `isPvNeed` for the statistics code of
the advertisement.  The code is meant to be handed out once for each
impression: `isNeedExecStatCode` looks for the id of the impression in redis
and deletes it with another command.  And it is meant to be handed out once a
minute to the same user on the same page: a key is looked for, set, and given
a minute to live, again with three commands.  This module follows the commands
of any number of requests in any order; redis does not fail.
-/

namespace WindowSystem.Adserver.IsPvNeed

open WindowSystem.Library
open WindowSystem.Library.ExpiringStore
open WindowSystem.Library.LabelledRun
open WindowSystem.Sspserver.JavaRuntime

/-! ## Redis -/

/-- The clock in milliseconds, the keys with the times at which they expire,
and the ids of the impressions that were generated. -/
structure Server where
  now : Nat
  store : Store JavaString Unit (WithTop Nat)
  generated : List JavaString

namespace Server

variable (server : Server)

/-- `exists` -/
def isExists (key : JavaString) : Bool :=
  (find server.store (WithTop.some server.now) key).isSome

/-- `hset`: a key that does not exist is created without an expiry. -/
def hset (key : JavaString) : Server :=
  if server.isExists key then server
  else { server with store := put server.store key () ⊤ }

/-- `expire`: nothing happens to a key that does not exist. -/
def expire (key : JavaString) (milliseconds : Nat) : Server :=
  if server.isExists key then
    { server with
      store :=
        put server.store key () (WithTop.some (server.now + milliseconds)) }
  else server

/-- `del` -/
def del (key : JavaString) : Server :=
  { server with store := erase server.store key }

end Server

/-! ## Requests -/

/-- The parameters and the cookie of a request; `impuuid` and `adId` as they
are concatenated, and the cookie that is generated when there is none. -/
structure Request where
  impuuid : JavaString
  adId : JavaString
  referer : JavaString
  userId : JavaString
  cookie : JavaString
  freshCookie : JavaString
deriving DecidableEq

/-- The key of an impression. -/
def impressKey (uuid : JavaString) : JavaString :=
  text "imp_" ++ uuid

/-- Whether a request is checked against the other ones of the minute, only
marks the minute for its new cookie, or does neither. -/
inductive Control where
  | free
  | checked
  | fresh
deriving DecidableEq

/-- The next command of a request, or its end. -/
inductive Place where
  | isNeedExecStatCode
  | del
  | getValueByKey
  | hset
  | expire
  | done (b : Bool)
deriving DecidableEq

/-- A request with the time of its arrival, and the time at which its key was
given its minute. -/
structure Task where
  request : Request
  arrival : Nat
  place : Place
  marked : Nat
deriving DecidableEq

variable (platform : Platform) (md5Encryp : JavaString → JavaString)

namespace Request

variable (request : Request)

/-- The branch that the request takes. -/
def control : Control :=
  if isNotBlank platform request.referer then
    if isNotBlank platform request.userId then .checked
    else if isNotBlank platform request.cookie then .checked
    else .fresh
  else .free

/-- Whom the key names. -/
def user : JavaString :=
  if isNotBlank platform request.userId then request.userId
  else if isNotBlank platform request.cookie then request.cookie
  else request.freshCookie

/-- The key in the cache. -/
def frequencyKey : JavaString :=
  request.user platform ++ text "_" ++ request.adId ++ text "_" ++
    md5Encryp request.referer

end Request

/-- The minute of a key. -/
def minute : Nat := 60000

/-- The place after the id was deleted. -/
def Control.place : Control → Place
  | .free => .done true
  | .checked => .getValueByKey
  | .fresh => .hset

/-- The next command of a request. -/
def act (server : Server) (task : Task) : Option (Unit × Server × Task) :=
  let key := task.request.frequencyKey platform md5Encryp
  match task.place with
  | .isNeedExecStatCode =>
      some ((), server,
        { task with
          place :=
            if server.isExists (impressKey task.request.impuuid) then .del
            else .done false })
  | .del =>
      some ((), server.del (impressKey task.request.impuuid),
        { task with place := (task.request.control platform).place })
  | .getValueByKey =>
      some ((), server,
        { task with
          place := if server.isExists key then .done false else .hset })
  | .hset => some ((), server.hset key, { task with place := .expire })
  | .expire =>
      some ((), server.expire key minute,
        { task with place := .done true, marked := server.now })
  | .done _ => none

/-! ## The system -/

/-- The server and the requests. -/
abbrev State := Interleaving.State Server Task

/-- Nothing has happened yet. -/
def initial : State :=
  ⟨⟨0, fun _ => none, []⟩, []⟩

/-- What happens. -/
inductive Event where
  | genImpressionUUID (uuid : JavaString) (imp_uuid_expire : Option Nat)
  | arrive (request : Request)
  | act (index : Nat)
  | tick (milliseconds : Nat)
deriving DecidableEq

/-- `genImpressionUUID`: nobody knows the id before its key is complete.  The
ids are new and have no underscores. -/
def Server.genImpressionUUID (server : Server) (uuid : JavaString)
    (imp_uuid_expire : Option Nat) : Option Server :=
  if server.generated.contains uuid ∨ '_' ∈ uuid then none
  else
    some
      { server with
        store := put server.store (impressKey uuid) ()
          (match imp_uuid_expire with
          | none => ⊤
          | some sec => WithTop.some (server.now + 1000 * sec))
        generated := uuid :: server.generated }

/-- One event, if it can happen. -/
def next (state : State) : Event → Option State
  | .genImpressionUUID uuid imp_uuid_expire =>
      (state.store.genImpressionUUID uuid imp_uuid_expire).map fun server =>
        { state with store := server }
  | .arrive request =>
      some
        { state with
          tasks := state.tasks ++
            [⟨request, state.store.now, .isNeedExecStatCode, 0⟩] }
  | .act index =>
      (Interleaving.next (act platform md5Encryp) state index).map Prod.snd
  | .tick milliseconds =>
      some
        { state with
          store :=
            { state.store with now := state.store.now + milliseconds } }

/-- One event as a relation. -/
def Step (before : State) (event : Event) (after : State) : Prop :=
  next platform md5Encryp before event = some after

/-! ## What is claimed and when it holds -/

/-- What a request returns in the end; `statCode` is what the creatives of the
advertisement have. -/
def Task.result (statCode : JavaString → JavaString) (task : Task) :
    Option JavaString :=
  match task.place with
  | .done b => some (if b then statCode task.request.adId else text "-1")
  | _ => none

/-- The request has received a statistics code. -/
def Task.Receives (statCode : JavaString → JavaString) (task : Task) : Prop :=
  ∃ result ∈ task.result statCode, result ≠ text "-1"

/-- The same user, advertisement and page. -/
structure Request.SameVisit (one other : Request) : Prop where
  adId : one.adId = other.adId
  referer : one.referer = other.referer
  written : isNotBlank platform one.referer = true
  user :
    (isNotBlank platform one.userId = true ∧ one.userId = other.userId) ∨
      (isNotBlank platform one.cookie = true ∧ one.cookie = other.cookie)

/-- Two requests that arrive less than a minute apart. -/
def Close (one other : Task) : Prop :=
  one.arrival < other.arrival + minute ∧ other.arrival < one.arrival + minute

/-- The id of an impression is not looked for while another request with the
same id has found and not yet deleted it. -/
def UndisturbedId (before : State) : Event → Prop
  | .act index =>
      ∀ task ∈ before.tasks[index]?, task.place = .isNeedExecStatCode →
        ∀ other ∈ before.tasks, other.place = .del →
          other.request.impuuid ≠ task.request.impuuid
  | _ => True

/-- What must not disturb the next command of a request.  The key of a minute
is not looked for while another request is about to set it or to give it its
minute, and not later than a minute after a request that arrived close to this
one has done so.  It still exists when it is given its minute.  No id that is
deleted is the key of a minute. -/
def UndisturbedAt (before : State) (task : Task) : Place → Prop
  | .del =>
      ∀ other ∈ before.tasks, other.request.control platform = .checked →
        impressKey task.request.impuuid ≠
          other.request.frequencyKey platform md5Encryp
  | .getValueByKey =>
      ∀ other ∈ before.tasks, other.request.control platform = .checked →
        other.request.frequencyKey platform md5Encryp =
            task.request.frequencyKey platform md5Encryp →
          other.place ≠ .hset ∧ other.place ≠ .expire ∧
            (other.place = .done true → Close task other →
              before.store.now ≤ other.marked + minute)
  | .expire =>
      before.store.isExists
        (task.request.frequencyKey platform md5Encryp) = true
  | _ => True

/-- The events that do not disturb the minutes; requests of one visit have one
key. -/
def UndisturbedMinute (before : State) : Event → Prop
  | .arrive request =>
      ∀ other ∈ before.tasks, request.SameVisit platform other.request →
        request.frequencyKey platform md5Encryp =
          other.request.frequencyKey platform md5Encryp
  | .act index =>
      ∀ task ∈ before.tasks[index]?,
        UndisturbedAt platform md5Encryp before task task.place
  | _ => True

/-! ## Keys -/

/-- The key of a minute is not the key of a generated id: it has a second
underscore. -/
theorem frequencyKey_ne_impressKey {request : Request} {uuid : JavaString}
    (plain : '_' ∉ uuid) :
    request.frequencyKey platform md5Encryp ≠ impressKey uuid := by
  intro same
  have count := congrArg (List.count '_') same
  simp only [Request.frequencyKey, impressKey, List.count_append,
    List.count_eq_zero_of_not_mem plain] at count
  have one : List.count '_' (text "_") = 1 := by
    decide
  have prefixed : List.count '_' (text "imp_") = 1 := by
    decide
  omega

theorem impressKey_inj {one other : JavaString} :
    impressKey one = impressKey other ↔ one = other :=
  List.append_right_inj _

/-! ## The store -/

theorem store_hset_of_ne {server : Server} {key other : JavaString}
    (different : other ≠ key) :
    (server.hset key).store other = server.store other := by
  rw [Server.hset]
  split
  · rfl
  · exact Function.update_of_ne different _ _

theorem store_expire_of_ne {server : Server} {key other : JavaString}
    {milliseconds : Nat} (different : other ≠ key) :
    (server.expire key milliseconds).store other = server.store other := by
  rw [Server.expire]
  split
  · exact Function.update_of_ne different _ _
  · rfl

theorem now_hset (server : Server) (key : JavaString) :
    (server.hset key).now = server.now := by
  rw [Server.hset]
  split
  · rfl
  · rfl

theorem now_expire (server : Server) (key : JavaString)
    (milliseconds : Nat) :
    (server.expire key milliseconds).now = server.now := by
  rw [Server.expire]
  split
  · rfl
  · rfl

theorem generated_hset (server : Server) (key : JavaString) :
    (server.hset key).generated = server.generated := by
  rw [Server.hset]
  split
  · rfl
  · rfl

theorem generated_expire (server : Server) (key : JavaString)
    (milliseconds : Nat) :
    (server.expire key milliseconds).generated = server.generated := by
  rw [Server.expire]
  split
  · rfl
  · rfl

variable {platform md5Encryp}
variable {before after : State}

/-! ## The ids -/

/-- The request has found its id. -/
def Task.Admitted (task : Task) : Prop :=
  task.place ≠ .isNeedExecStatCode ∧ task.place ≠ .done false

/-- No two requests have found one id, an id that was deleted is gone, and
only generated ids are found. -/
structure Once (state : State) : Prop where
  once : state.tasks.Pairwise fun one other =>
    one.request.impuuid = other.request.impuuid →
      '_' ∉ one.request.impuuid → ¬ (one.Admitted ∧ other.Admitted)
  gone : ∀ task ∈ state.tasks, task.Admitted → task.place ≠ .del →
    '_' ∉ task.request.impuuid →
      state.store.store (impressKey task.request.impuuid) = none
  known : ∀ uuid, '_' ∉ uuid →
    state.store.store (impressKey uuid) ≠ none →
      uuid ∈ state.store.generated
  admitted : ∀ task ∈ state.tasks, task.Admitted →
    '_' ∉ task.request.impuuid →
      task.request.impuuid ∈ state.store.generated
  plain : ∀ uuid ∈ state.store.generated, '_' ∉ uuid

variable {server newer : Server} {task rest : Task}

/-- What the next command of a request does, branch by branch. -/
inductive Acts (platform : Platform) (md5Encryp : JavaString → JavaString)
    (server : Server) (task : Task) : Server → Task → Prop where
  | found (place : task.place = .isNeedExecStatCode)
      (present : server.isExists (impressKey task.request.impuuid) = true) :
      Acts platform md5Encryp server task server { task with place := .del }
  | unknown (place : task.place = .isNeedExecStatCode) :
      Acts platform md5Encryp server task server
        { task with place := .done false }
  | del (place : task.place = .del) :
      Acts platform md5Encryp server task
        (server.del (impressKey task.request.impuuid))
        { task with place := (task.request.control platform).place }
  | repeated (place : task.place = .getValueByKey) :
      Acts platform md5Encryp server task server
        { task with place := .done false }
  | first (place : task.place = .getValueByKey)
      (absent : server.isExists
        (task.request.frequencyKey platform md5Encryp) = false) :
      Acts platform md5Encryp server task server { task with place := .hset }
  | hset (place : task.place = .hset) :
      Acts platform md5Encryp server task
        (server.hset (task.request.frequencyKey platform md5Encryp))
        { task with place := .expire }
  | expire (place : task.place = .expire) :
      Acts platform md5Encryp server task
        (server.expire (task.request.frequencyKey platform md5Encryp) minute)
        { task with place := .done true, marked := server.now }

theorem acts_of_act
    (acted : act platform md5Encryp server task = some ((), newer, rest)) :
    Acts platform md5Encryp server task newer rest := by
  unfold act at acted
  cases place : task.place with
  | isNeedExecStatCode =>
      rw [place] at acted
      cases acted
      split
      case isTrue present => exact .found place present
      case isFalse => exact .unknown place
  | del =>
      rw [place] at acted
      cases acted
      exact .del place
  | getValueByKey =>
      rw [place] at acted
      cases acted
      split
      case isTrue => exact .repeated place
      case isFalse absent =>
        exact .first place (Bool.eq_false_iff.mpr absent)
  | hset =>
      rw [place] at acted
      cases acted
      exact .hset place
  | expire =>
      rw [place] at acted
      cases acted
      exact .expire place
  | done =>
      rw [place] at acted
      cases acted

theorem act_request
    (acted : act platform md5Encryp server task = some ((), newer, rest)) :
    rest.request = task.request ∧ rest.arrival = task.arrival := by
  cases acts_of_act acted <;> exact ⟨rfl, rfl⟩

theorem act_clock
    (acted : act platform md5Encryp server task = some ((), newer, rest)) :
    newer.now = server.now ∧ newer.generated = server.generated := by
  cases acts_of_act acted with
  | hset => exact ⟨now_hset _ _, generated_hset _ _⟩
  | expire => exact ⟨now_expire _ _ _, generated_expire _ _ _⟩
  | _ => exact ⟨rfl, rfl⟩

/-- A request comes to the deletion only after it has found its id, and behind
the deletion only from there. -/
theorem act_admitted
    (acted : act platform md5Encryp server task = some ((), newer, rest))
    (admitted : rest.Admitted) :
    (task.place = .isNeedExecStatCode ∧ rest.place = .del ∧
        server.isExists (impressKey task.request.impuuid) = true) ∨
      (task.Admitted ∧ rest.place ≠ .del) := by
  cases acts_of_act acted with
  | found place present => exact .inl ⟨place, rfl, present⟩
  | unknown => exact absurd rfl admitted.2
  | repeated => exact absurd rfl admitted.2
  | del place =>
      refine .inr ⟨by simp [Task.Admitted, place], ?_⟩
      cases task.request.control platform <;> simp [Control.place]
  | first place => exact .inr ⟨by simp [Task.Admitted, place], by simp⟩
  | hset place => exact .inr ⟨by simp [Task.Admitted, place], by simp⟩
  | expire place => exact .inr ⟨by simp [Task.Admitted, place], by simp⟩

/-- The key of an id changes only when it is deleted. -/
theorem act_impressKey
    (acted : act platform md5Encryp server task = some ((), newer, rest))
    {uuid : JavaString} (plain : '_' ∉ uuid) :
    newer.store (impressKey uuid) = server.store (impressKey uuid) ∧
        (task.place = .del → task.request.impuuid ≠ uuid) ∨
      (task.place = .del ∧ newer.store (impressKey uuid) = none) := by
  have other := (@frequencyKey_ne_impressKey platform md5Encryp task.request
    uuid plain).symm
  have kept : task.place ≠ .del →
      task.place = .del → task.request.impuuid ≠ uuid :=
    fun elsewhere place => absurd place elsewhere
  cases acts_of_act acted with
  | del place =>
      by_cases same : task.request.impuuid = uuid
      · rw [same]
        exact .inr ⟨place, Function.update_self _ _ _⟩
      · refine .inl ⟨Function.update_of_ne ?_ _ _, fun _ => same⟩
        exact fun equal => same (impressKey_inj.mp equal).symm
  | hset place =>
      exact .inl ⟨store_hset_of_ne other, kept (by simp [place])⟩
  | expire place =>
      exact .inl ⟨store_expire_of_ne other, kept (by simp [place])⟩
  | found place => exact .inl ⟨rfl, kept (by simp [place])⟩
  | unknown place => exact .inl ⟨rfl, kept (by simp [place])⟩
  | repeated place => exact .inl ⟨rfl, kept (by simp [place])⟩
  | first place => exact .inl ⟨rfl, kept (by simp [place])⟩

/-- A request of the list acts. -/
theorem act_step {index : Nat}
    (taken : Step platform md5Encryp before (.act index) after) :
    ∃ action : Interleaving.Action (act platform md5Encryp) before () after,
      before.tasks[index]? = some action.task := by
  obtain ⟨⟨output, state⟩, acted, rfl⟩ := Option.map_eq_some_iff.mp taken
  exact Interleaving.exists_action_at acted

theorem once_act (once : Once before) {index : Nat}
    (calm : UndisturbedId before (.act index))
    (taken : Step platform md5Encryp before (.act index) after) :
    Once after := by
  obtain ⟨action, here⟩ := act_step taken
  have acted := action.acted
  have request := (act_request acted).1
  have generated := (act_clock acted).2
  refine ⟨?_, ?_, ?_, ?_, ?_⟩
  · refine action.pairwise_tasks ?_ once.once fun other member apart => ?_
    · intro one other apart same plain both
      exact apart same.symm (same ▸ plain) both.symm
    · rw [request]
      rintro same plain ⟨admitted, also⟩
      rcases act_admitted acted admitted with ⟨arrived, _, found⟩ | ⟨was, _⟩
      · by_cases deleting : other.place = .del
        · exact calm _ here arrived other member deleting same.symm
        · have gone := once.gone other member also deleting (same ▸ plain)
          rw [← same] at gone
          rw [Server.isExists, find, gone] at found
          cases found
      · exact apart same plain ⟨was, also⟩
  · intro task member admitted place plain
    rcases action.eq_or_mem member with rfl | old
    · rw [request] at plain ⊢
      rcases act_admitted acted admitted with ⟨_, deleting, _⟩ | ⟨was, _⟩
      · exact absurd deleting place
      · rcases act_impressKey acted plain with ⟨kept, apart⟩ | ⟨_, gone⟩
        · rw [kept]
          exact once.gone _ action.mem_tasks was (fun del => apart del rfl)
            plain
        · exact gone
    · rcases act_impressKey acted plain with ⟨kept, _⟩ | ⟨_, gone⟩
      · rw [kept]
        exact once.gone _ old admitted place plain
      · exact gone
  · intro uuid plain present
    rw [generated]
    rcases act_impressKey acted plain with ⟨kept, _⟩ | ⟨_, gone⟩
    · rw [kept] at present
      exact once.known uuid plain present
    · exact absurd gone present
  · intro task member admitted plain
    rw [generated]
    rcases action.eq_or_mem member with rfl | old
    · rw [request] at plain ⊢
      rcases act_admitted acted admitted with ⟨_, _, found⟩ | ⟨was, _⟩
      · refine once.known _ plain fun none => ?_
        rw [Server.isExists, find, none] at found
        cases found
      · exact once.admitted _ action.mem_tasks was plain
    · exact once.admitted _ old admitted plain
  · rw [generated]
    exact once.plain

theorem once_genImpressionUUID (once : Once before) {uuid : JavaString}
    {imp_uuid_expire : Option Nat}
    (taken : Step platform md5Encryp before
      (.genImpressionUUID uuid imp_uuid_expire) after) :
    Once after := by
  obtain ⟨server, made, rfl⟩ := Option.map_eq_some_iff.mp taken
  unfold Server.genImpressionUUID at made
  split at made
  · cases made
  · rename_i new
    rw [not_or, List.contains_iff_mem] at new
    cases made
    refine ⟨once.once, ?_, ?_, ?_, ?_⟩
    · intro task member admitted place plain
      have other : impressKey task.request.impuuid ≠ impressKey uuid := by
        rw [ne_eq, impressKey_inj]
        exact fun same => new.1 (same ▸ once.admitted task member admitted plain)
      exact (Function.update_of_ne other _ _).trans
        (once.gone task member admitted place plain)
    · intro other plain present
      by_cases same : other = uuid
      · rw [same]
        exact List.mem_cons_self
      · refine List.mem_cons_of_mem _ (once.known other plain fun none => ?_)
        refine present ((Function.update_of_ne ?_ _ _).trans none)
        exact fun equal => same (impressKey_inj.mp equal)
    · intro task member admitted plain
      exact List.mem_cons_of_mem _ (once.admitted task member admitted plain)
    · intro other member
      rcases List.mem_cons.mp member with rfl | old
      · exact new.2
      · exact once.plain other old

theorem once_step (once : Once before) {event : Event}
    (taken : UndisturbedId before event ∧
      Step platform md5Encryp before event after) : Once after := by
  obtain ⟨calm, taken⟩ := taken
  cases event with
  | genImpressionUUID uuid imp_uuid_expire =>
      exact once_genImpressionUUID once taken
  | act index => exact once_act once calm taken
  | arrive request =>
      cases taken
      have waiting : ∀ task ∈ before.tasks ++
          [⟨request, before.store.now, .isNeedExecStatCode, 0⟩],
          task.Admitted → task ∈ before.tasks := by
        intro task member admitted
        rcases List.mem_append.mp member with old | new
        · exact old
        · cases List.mem_singleton.mp new
          exact absurd rfl admitted.1
      refine ⟨?_, ?_, once.known, ?_, once.plain⟩
      · refine List.pairwise_append.mpr
          ⟨once.once, List.pairwise_singleton _ _, ?_⟩
        intro one _ other new _ _ both
        cases List.mem_singleton.mp new
        exact both.2.1 rfl
      · exact fun task member admitted =>
          once.gone task (waiting task member admitted) admitted
      · exact fun task member admitted =>
          once.admitted task (waiting task member admitted) admitted
  | tick milliseconds =>
      cases taken
      exact ⟨once.once, once.gone, once.known, once.admitted, once.plain⟩

theorem once_initial : Once initial where
  once := List.Pairwise.nil
  gone := nofun
  known := fun _ _ present => absurd rfl present
  admitted := nofun
  plain := nofun

/-! ## The minutes -/

/-- A key that is kept at least until a time. -/
def Lasts (server : Server) (key : JavaString) (time : Nat) : Prop :=
  ∃ entry, server.store key = some entry ∧
    WithTop.some time ≤ entry.deadline

variable {key other : JavaString} {time : Nat}

theorem Lasts.isExists (lasts : Lasts server key time)
    (early : server.now ≤ time) : server.isExists key = true := by
  obtain ⟨entry, stored, deadline⟩ := lasts
  have order : WithTop.some server.now ≤ entry.deadline :=
    le_trans (WithTop.coe_le_coe.mpr early) deadline
  rw [Server.isExists, find_of_le stored order]
  rfl

theorem Lasts.congr (lasts : Lasts server key time)
    (same : newer.store key = server.store key) : Lasts newer key time := by
  obtain ⟨entry, stored, deadline⟩ := lasts
  exact ⟨entry, same.trans stored, deadline⟩

theorem Lasts.hset (lasts : Lasts server key time) (other : JavaString) :
    Lasts (server.hset other) key time := by
  by_cases same : key = other
  · subst same
    rw [Server.hset]
    split
    · exact lasts
    · exact ⟨⟨(), ⊤⟩, Function.update_self _ _ _, le_top⟩
  · exact lasts.congr (store_hset_of_ne same)

theorem lasts_expire_self (present : server.isExists key = true) :
    Lasts (server.expire key minute) key (server.now + minute) := by
  rw [Server.expire, if_pos present]
  exact ⟨_, Function.update_self _ _ _, le_refl _⟩

/-- To give a key another minute does not shorten an earlier one. -/
theorem Lasts.expire (lasts : Lasts server key (time + minute))
    (past : time ≤ server.now) (other : JavaString) :
    Lasts (server.expire other minute) key (time + minute) := by
  by_cases same : key = other
  · subst same
    by_cases present : server.isExists key = true
    · obtain ⟨entry, stored, deadline⟩ := lasts_expire_self present
      refine ⟨entry, stored, le_trans (WithTop.coe_le_coe.mpr ?_) deadline⟩
      exact Nat.add_le_add_right past minute
    · rw [Server.expire, if_neg present]
      exact lasts
  · exact lasts.congr (store_expire_of_ne same)

/-- What a request does to a key that lasts. -/
theorem Lasts.act
    (acted : act platform md5Encryp server task = some ((), newer, rest))
    (lasts : Lasts server key (time + minute)) (past : time ≤ server.now)
    (kept : task.place = .del → impressKey task.request.impuuid ≠ key) :
    Lasts newer key (time + minute) := by
  cases acts_of_act acted with
  | del place =>
      exact lasts.congr (Function.update_of_ne (kept place).symm _ _)
  | hset => exact lasts.hset _
  | expire => exact lasts.expire past _
  | _ => exact lasts

/-- The request will receive the code. -/
def Task.Passed (task : Task) : Prop :=
  task.place = .hset ∨ task.place = .expire ∨ task.place = .done true

/-- How a request comes to receive the code. -/
theorem act_passed
    (acted : act platform md5Encryp server task = some ((), newer, rest))
    (passed : rest.Passed) :
    task.Passed ∨
      (task.place = .getValueByKey ∧
        server.isExists (task.request.frequencyKey platform md5Encryp) =
          false) ∨
      (task.place = .del ∧ task.request.control platform ≠ .checked) := by
  cases acts_of_act acted with
  | found => simp [Task.Passed] at passed
  | unknown => simp [Task.Passed] at passed
  | repeated => simp [Task.Passed] at passed
  | del place =>
      refine .inr (.inr ⟨place, fun checked => ?_⟩)
      simp [Task.Passed, checked, Control.place] at passed
  | first place absent => exact .inr (.inl ⟨place, absent⟩)
  | hset place => exact .inl (.inl place)
  | expire place => exact .inl (.inr (.inl place))

/-- A request that is checked ends with its minute. -/
theorem act_done
    (acted : act platform md5Encryp server task = some ((), newer, rest))
    (checked : task.request.control platform = .checked)
    (done : rest.place = .done true) :
    task.place = .expire ∧ rest.marked = server.now ∧
      newer = server.expire (task.request.frequencyKey platform md5Encryp)
        minute := by
  cases acts_of_act acted with
  | del =>
      rw [checked] at done
      cases done
  | expire place => exact ⟨place, rfl, rfl⟩
  | _ => cases done

theorem act_marked
    (acted : act platform md5Encryp server task = some ((), newer, rest))
    (past : task.marked ≤ server.now) : rest.marked ≤ server.now := by
  cases acts_of_act acted with
  | expire => exact le_refl _
  | _ => exact past

theorem Request.SameVisit.symm {one other : Request}
    (same : one.SameVisit platform other) : other.SameVisit platform one where
  adId := same.adId.symm
  referer := same.referer.symm
  written := same.referer ▸ same.written
  user := by
    rcases same.user with ⟨written, equal⟩ | ⟨written, equal⟩
    · exact .inl ⟨equal ▸ written, equal.symm⟩
    · exact .inr ⟨equal ▸ written, equal.symm⟩

theorem Request.SameVisit.checked {one other : Request}
    (same : one.SameVisit platform other) :
    one.control platform = .checked := by
  rw [Request.control, if_pos same.written]
  rcases same.user with ⟨written, _⟩ | ⟨written, _⟩
  · rw [if_pos written]
  · by_cases named : isNotBlank platform one.userId = true
    · rw [if_pos named]
    · rw [if_neg named, if_pos written]

/-- Requests of one visit have one key, and no two of them that are close pass;
the key of a request that has passed lasts for its minute. -/
structure Guarded (platform : Platform)
    (md5Encryp : JavaString → JavaString) (state : State) : Prop where
  apart : state.tasks.Pairwise fun one other =>
    one.request.SameVisit platform other.request →
      one.request.frequencyKey platform md5Encryp =
          other.request.frequencyKey platform md5Encryp ∧
        (Close one other → ¬ (one.Passed ∧ other.Passed))
  kept : ∀ task ∈ state.tasks, task.request.control platform = .checked →
    task.place = .done true →
      Lasts state.store (task.request.frequencyKey platform md5Encryp)
        (task.marked + minute)
  marked : ∀ task ∈ state.tasks, task.marked ≤ state.store.now

theorem guarded_act (guarded : Guarded platform md5Encryp before)
    {index : Nat}
    (calm : UndisturbedMinute platform md5Encryp before (.act index))
    (taken : Step platform md5Encryp before (.act index) after) :
    Guarded platform md5Encryp after := by
  obtain ⟨action, here⟩ := act_step taken
  have acted := action.acted
  obtain ⟨request, arrival⟩ := act_request acted
  have calm := calm _ here
  have past := guarded.marked _ action.mem_tasks
  refine ⟨?_, ?_, ?_⟩
  · refine action.pairwise_tasks ?_ guarded.apart
      fun other member apart same => ?_
    · intro one other apart same
      obtain ⟨key, never⟩ := apart same.symm
      exact ⟨key.symm, fun close both => never ⟨close.2, close.1⟩ both.symm⟩
    · rw [request] at same ⊢
      obtain ⟨key, never⟩ := apart same
      refine ⟨key, fun close => ?_⟩
      rw [Close, arrival] at close
      rintro ⟨passed, also⟩
      rcases act_passed acted passed with was | ⟨looks, absent⟩ | ⟨_, free⟩
      · exact never close ⟨was, also⟩
      · simp only [looks] at calm
        obtain ⟨setting, expiring, early⟩ :=
          calm other member same.symm.checked key.symm
        have done := (also.resolve_left setting).resolve_left expiring
        have lasts := guarded.kept other member same.symm.checked done
        rw [key, lasts.isExists (early done close)] at absent
        cases absent
      · exact free same.checked
  · intro task member checked done
    rcases action.eq_or_mem member with rfl | old
    · rw [request] at checked ⊢
      obtain ⟨expiring, marked, store⟩ := act_done acted checked done
      rw [expiring] at calm
      rw [marked, store]
      exact lasts_expire_self calm
    · refine (guarded.kept task old checked done).act acted
        (guarded.marked task old) fun deleting => ?_
      rw [deleting] at calm
      exact calm task old checked
  · intro task member
    rw [(act_clock acted).1]
    rcases action.eq_or_mem member with rfl | old
    · exact act_marked acted past
    · exact guarded.marked task old

theorem guarded_step (guarded : Guarded platform md5Encryp before)
    {event : Event}
    (taken : UndisturbedMinute platform md5Encryp before event ∧
      Step platform md5Encryp before event after) :
    Guarded platform md5Encryp after := by
  obtain ⟨calm, taken⟩ := taken
  cases event with
  | genImpressionUUID uuid imp_uuid_expire =>
      obtain ⟨server, made, rfl⟩ := Option.map_eq_some_iff.mp taken
      unfold Server.genImpressionUUID at made
      split at made
      · cases made
      · rename_i new
        rw [not_or, List.contains_iff_mem] at new
        cases made
        refine ⟨guarded.apart, fun task member checked done => ?_,
          guarded.marked⟩
        exact (guarded.kept task member checked done).congr
          (Function.update_of_ne
            (frequencyKey_ne_impressKey platform md5Encryp new.2) _ _)
  | act index => exact guarded_act guarded calm taken
  | arrive request =>
      cases taken
      refine ⟨?_, ?_, ?_⟩
      · refine List.pairwise_append.mpr
          ⟨guarded.apart, List.pairwise_singleton _ _, ?_⟩
        intro one member other new same
        cases List.mem_singleton.mp new
        exact ⟨(calm one member same.symm).symm,
          fun _ both => by simp [Task.Passed] at both⟩
      · intro task member checked done
        rcases List.mem_append.mp member with old | new
        · exact guarded.kept task old checked done
        · cases List.mem_singleton.mp new
          cases done
      · intro task member
        rcases List.mem_append.mp member with old | new
        · exact guarded.marked task old
        · cases List.mem_singleton.mp new
          exact Nat.zero_le _
  | tick milliseconds =>
      cases taken
      exact ⟨guarded.apart, guarded.kept, fun task member =>
        Nat.le_add_right_of_le (guarded.marked task member)⟩

theorem guarded_initial : Guarded platform md5Encryp initial where
  apart := List.Pairwise.nil
  kept := nofun
  marked := nofun

/-! ## Runs -/

theorem done_of_receives {statCode : JavaString → JavaString}
    (receives : task.Receives statCode) : task.place = .done true := by
  obtain ⟨result, member, different⟩ := receives
  unfold Task.result at member
  split at member
  · rename_i b place
    cases b with
    | false =>
        cases member
        exact absurd rfl different
    | true => exact place
  · cases member

/-- In runs whose ids are looked for undisturbed the code is handed out once
for each of them, and in runs whose minutes are undisturbed once a minute for
each visit. -/
theorem statCode_once (platform : Platform)
    (md5Encryp statCode : JavaString → JavaString) (events : List Event)
    (last : State) :
    (Run (fun before event after =>
        UndisturbedId before event ∧
          Step platform md5Encryp before event after) initial events last →
      last.tasks.Pairwise fun one other =>
        one.request.impuuid = other.request.impuuid →
          one.request.impuuid ∈ last.store.generated →
            ¬ (one.Receives statCode ∧ other.Receives statCode)) ∧
    (Run (fun before event after =>
        UndisturbedMinute platform md5Encryp before event ∧
          Step platform md5Encryp before event after) initial events last →
      last.tasks.Pairwise fun one other =>
        one.request.SameVisit platform other.request → Close one other →
          ¬ (one.Receives statCode ∧ other.Receives statCode)) := by
  constructor
  · intro run
    have once : Once last := run.invariant
      (fun once taken => once_step once taken) once_initial
    refine once.once.imp fun {one other} apart same generated both => ?_
    have left := done_of_receives both.1
    have right := done_of_receives both.2
    refine apart same (once.plain _ generated) ⟨?_, ?_⟩
    · rw [Task.Admitted, left]
      exact ⟨nofun, nofun⟩
    · rw [Task.Admitted, right]
      exact ⟨nofun, nofun⟩
  · intro run
    have guarded : Guarded platform md5Encryp last :=
      run.invariant
        (fun guarded taken => guarded_step guarded taken) guarded_initial
    refine guarded.apart.imp fun apart same close both => ?_
    exact (apart same).2 close
      ⟨.inr (.inr (done_of_receives both.1)),
        .inr (.inr (done_of_receives both.2))⟩

instance (one other : Request) : Decidable (one.SameVisit platform other) :=
  decidable_of_iff
    (one.adId = other.adId ∧ one.referer = other.referer ∧
      isNotBlank platform one.referer = true ∧
      ((isNotBlank platform one.userId = true ∧ one.userId = other.userId) ∨
        (isNotBlank platform one.cookie = true ∧ one.cookie = other.cookie)))
    ⟨fun ⟨adId, referer, written, user⟩ => ⟨adId, referer, written, user⟩,
      fun same => ⟨same.adId, same.referer, same.written, same.user⟩⟩

instance (one other : Task) : Decidable (Close one other) :=
  inferInstanceAs (Decidable (_ ∧ _))

instance (before : State) (event : Event) :
    Decidable (UndisturbedId before event) :=
  match event with
  | .act index =>
      decidable_of_iff
        (∀ task ∈ before.tasks[index]?.toList,
          task.place = .isNeedExecStatCode →
            ∀ other ∈ before.tasks, other.place = .del →
              other.request.impuuid ≠ task.request.impuuid)
        (by simp [UndisturbedId])
  | .genImpressionUUID _ _ => .isTrue trivial
  | .arrive _ => .isTrue trivial
  | .tick _ => .isTrue trivial

instance (before : State) (task : Task) (place : Place) :
    Decidable (UndisturbedAt platform md5Encryp before task place) :=
  match place with
  | .del => inferInstanceAs (Decidable (∀ other ∈ before.tasks, _))
  | .getValueByKey => inferInstanceAs (Decidable (∀ other ∈ before.tasks, _))
  | .expire => inferInstanceAs (Decidable (_ = true))
  | .isNeedExecStatCode => .isTrue trivial
  | .hset => .isTrue trivial
  | .done _ => .isTrue trivial

instance (before : State) (event : Event) :
    Decidable (UndisturbedMinute platform md5Encryp before event) :=
  match event with
  | .act index =>
      decidable_of_iff
        (∀ task ∈ before.tasks[index]?.toList,
          UndisturbedAt platform md5Encryp before task task.place)
        (by simp [UndisturbedMinute])
  | .arrive _ => inferInstanceAs (Decidable (∀ other ∈ before.tasks, _))
  | .genImpressionUUID _ _ => .isTrue trivial
  | .tick _ => .isTrue trivial

/-- The user `user` on one page with an id. -/
def visit (impuuid : String) : Request where
  impuuid := text impuuid
  adId := text "7"
  referer := text "page"
  userId := text "user"
  cookie := []
  freshCookie := text "new"

/-- The events one after the other, as long as `calm` allows them. -/
def calmly (calm : State → Event → Bool) (events : List Event) :
    Option State :=
  events.foldlM (fun before event =>
    if calm before event then next asciiPlatform id before event else none)
    initial

theorem run_of_calm {calm : State → Event → Bool} {events : List Event}
    {allowed : State → Event → Prop}
    (sound : ∀ before event, calm before event = true → allowed before event)
    (executed : calmly calm events = some after) :
    Run (fun before event after =>
      allowed before event ∧ Step asciiPlatform id before event after)
      initial events after := by
  refine (run_of_foldlM executed).mono ?_
  intro before event after taken
  split at taken
  · rename_i fits
    exact ⟨sound _ _ fits, taken⟩
  · cases taken

/-- The first request is served, and the next one is refused. -/
def servedOnce : List Event :=
  [.genImpressionUUID (text "a") none, .arrive (visit "a"),
    .act 0, .act 0, .act 0, .act 0, .act 0,
    .genImpressionUUID (text "b") none, .arrive (visit "b"),
    .act 1, .act 1, .act 1]

theorem servedOnce_undisturbed :
    ∃ last : State, last.tasks.map Task.place = [.done true, .done false] ∧
      last.tasks.Pairwise fun one other =>
        (one.request.impuuid = other.request.impuuid →
          one.request.impuuid ∈ last.store.generated →
            ¬ (one.Receives (fun _ => text "code") ∧
              other.Receives fun _ => text "code")) ∧
        (one.request.SameVisit asciiPlatform other.request →
          Close one other →
            ¬ (one.Receives (fun _ => text "code") ∧
              other.Receives fun _ => text "code")) := by
  have places : (calmly (fun before event =>
      decide (UndisturbedId before event ∧
        UndisturbedMinute asciiPlatform id before event)) servedOnce).map
          (fun last => last.tasks.map Task.place) =
        some [.done true, .done false] := by
    decide +kernel
  obtain ⟨last, executed, places⟩ := Option.map_eq_some_iff.mp places
  obtain ⟨ids, minutes⟩ :=
    statCode_once asciiPlatform id (fun _ => text "code") servedOnce last
  refine ⟨last, places, (ids ?_).and (minutes ?_)⟩
  · exact run_of_calm (fun _ _ fits => (of_decide_eq_true fits).1) executed
  · exact run_of_calm (fun _ _ fits => (of_decide_eq_true fits).2) executed

/-- Two requests find one id before either deletes it; two requests of one
visit, with an id each, look for the key before either sets it.  All of them
are served. -/
theorem servedTwice :
    (∀ events ∈
      [[Event.genImpressionUUID (text "a") none,
          .arrive { visit "a" with referer := [] },
          .arrive { visit "a" with referer := [] },
          .act 0, .act 1, .act 0, .act 1],
        [.genImpressionUUID (text "a") none,
          .genImpressionUUID (text "b") none,
          .arrive (visit "a"), .arrive (visit "b"),
          .act 0, .act 1, .act 0, .act 1, .act 0, .act 1,
          .act 0, .act 1, .act 0, .act 1]],
      (calmly (fun _ _ => true) events).map
          (fun last => last.tasks.map
            (Task.result fun _ => text "code")) =
        some [some (text "code"), some (text "code")]) ∧
      (visit "a").SameVisit asciiPlatform (visit "b") := by
  decide +kernel

end WindowSystem.Adserver.IsPvNeed
