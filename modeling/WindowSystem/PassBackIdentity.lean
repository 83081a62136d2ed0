import WindowSystem.RulePopLoops

/-!
# Popup messages and their pass-backs

A popup message names the subscriber, the digest of the User-Agent and the
type of the decider that authorised it.  Its receiver echoes them, and
`get_data_pass_back` looks up the record in which the popup is counted.  This
module follows a message from the loop that dispatches it to that record.
-/

namespace WindowSystem.PassBackIdentity

open WindowSystem.CRuntime
open WindowSystem.DataPassBack
open WindowSystem.DcGlobal
open WindowSystem.FilterRulePop
open WindowSystem.Library
open WindowSystem.MqClientPopwin
open WindowSystem.MqMessageAnalysis
open WindowSystem.RulePopLoops
open WindowSystem.ToolHashMap

/-! ## What a message carries -/

/-- What a receiver takes out of a popup message; the type is the member
`advId`. -/
@[ext]
structure Members where
  userAgent : Bytes
  type : Bytes
  radius : Bytes

/-- The end of a message with these members. -/
def Members.text (members : Members) : Bytes :=
  Separator.ua ++ members.userAgent ++ advIdStr ++ members.type ++
    adiusStr ++ members.radius ++ Separator.finish

/-- The message ends with the members, and none of them contains the quote
that would end it earlier. -/
structure Carries (message : Bytes) (members : Members) : Prop where
  written : members.text <:+ message
  userAgent_unquoted : 34 ∉ members.userAgent
  type_unquoted : 34 ∉ members.type
  radius_unquoted : 34 ∉ members.radius

instance (message : Bytes) (members : Members) :
    Decidable (Carries message members) :=
  decidable_of_iff
    (members.text <:+ message ∧ 34 ∉ members.userAgent ∧
      34 ∉ members.type ∧ 34 ∉ members.radius)
    ⟨fun ⟨written, userAgent, type, radius⟩ =>
      ⟨written, userAgent, type, radius⟩,
    fun carries =>
      ⟨carries.written, carries.userAgent_unquoted, carries.type_unquoted,
        carries.radius_unquoted⟩⟩

/-- A message carries one choice of members at most. -/
theorem Carries.unique {message : Bytes} {members members' : Members}
    (carries : Carries message members)
    (carries' : Carries message members') : members = members' := by
  obtain ⟨front, written⟩ := carries.written
  obtain ⟨front', written'⟩ := carries'.written
  have same := written.trans written'.symm
  simp only [Members.text, ← List.append_assoc] at same
  have closes : [34] <:+ adiusStr := by decide
  have closes' : [34] <:+ advIdStr := by decide
  have closes'' : [34] <:+ Separator.ua := by decide
  obtain ⟨same, radius⟩ :=
    TaggedText.append_field_inj closes carries.radius_unquoted
      carries'.radius_unquoted (List.append_cancel_right same)
  obtain ⟨same, type⟩ :=
    TaggedText.append_field_inj closes' carries.type_unquoted
      carries'.type_unquoted same
  obtain ⟨_, userAgent⟩ :=
    TaggedText.append_field_inj closes'' carries.userAgent_unquoted
      carries'.userAgent_unquoted same
  exact Members.ext userAgent type radius

section Carried

variable {decoder : Decoder} {pcMessage message : Bytes}
  {psMqHttpMes : MqHttpMessage}

theorem optionalMember_of_ne_nil (tag : Bytes) {text : Bytes}
    (nonempty : text ≠ []) :
    optionalMember tag (some text) = tag ++ text := by
  cases text with
  | nil => exact absurd rfl nonempty
  | cons head text => rfl

/-- A message with a type and the text `0` carries the digest, this type and
a subscriber exactly when the subscriber is `0` and the name of User-Agent is
kept. -/
theorem carries_iff {type adv : Bytes}
    (accepted : decoder.analysis pcMessage = .taken psMqHttpMes)
    (type_ne_nil : type ≠ []) (type_unquoted : 34 ∉ type)
    (built :
      popMessage pcMessage (some type) (some (ascii "0")) =
        some message) :
    Carries message
        { userAgent := psMqHttpMes.pcUa, type := type, radius := adv } ↔
      adv = ascii "0" ∧ UserAgentKept pcMessage := by
  obtain ⟨place, szPcMessage, found, removed, rfl⟩ :=
    popMessage_of_accepted accepted built
  have zero_unquoted : 34 ∉ ascii "0" := by decide
  rw [← ua_suffix_iff accepted found removed,
    optionalMember_of_ne_nil _ type_ne_nil,
    optionalMember_of_ne_nil _ (by decide : ascii "0" ≠ [])]
  constructor
  · intro carries
    obtain ⟨front, same⟩ := carries.written
    simp only [Members.text, ← List.append_assoc] at same
    obtain ⟨same, radius⟩ :=
      TaggedText.append_field_inj (by decide : [34] <:+ adiusStr)
        carries.radius_unquoted zero_unquoted
        (List.append_cancel_right same)
    have kept :=
      List.append_cancel_right
        (List.append_cancel_right (List.append_cancel_right same))
    exact ⟨radius, front, kept⟩
  · rintro ⟨rfl, front, rfl⟩
    have digest := (analysis_wellFormed accepted).1.digest
    exact
      { written := ⟨front, by simp only [Members.text, List.append_assoc]⟩
        userAgent_unquoted := by
          rw [digest]
          exact not_mem_cUaMD5s (by decide)
        type_unquoted := type_unquoted
        radius_unquoted := zero_unquoted }

end Carried

/-! ## The echo of a message -/

/-- The pass-back message of a receiver at an address. -/
def echo (ip : Bytes) (members : Members) : Bytes :=
  ip ++ ascii "::" ++ (members.radius ++ ascii "::" ++
    (members.userAgent ++ ascii "::" ++ members.type))

/-- A text that the pass-back thread reads as one token. -/
structure Token (text : Bytes) : Prop where
  ne_nil : text ≠ []
  no_separator : 58 ∉ text
  no_nul : 0 ∉ text

/-- The text of an address. -/
structure SourceAddress (ip : Bytes) : Prop where
  token : Token ip
  short : ip.length < 16

/-- Members whose echo is read as it was written. -/
structure Members.Echoable (members : Members) : Prop where
  radius : Token members.radius
  userAgent : Token members.userAgent
  type : Token members.type
  no_w : 119 ∉ members.userAgent
  no_s : 115 ∉ members.userAgent
  short : 2 * members.radius.length + members.userAgent.length < 75
  type_short : members.type.length < 4

section Echo

variable {ip : Bytes} {members : Members}

theorem strsep_echo (address : SourceAddress ip)
    (echoable : members.Echoable) :
    strsep 58 (echo ip members) =
      [ip, [], members.radius, [], members.userAgent, [],
        members.type] := by
  have separator (rest : Bytes) : ascii "::" ++ rest = 58 :: 58 :: rest :=
    rfl
  rw [echo, List.append_assoc, List.append_assoc, List.append_assoc,
    separator, separator, separator,
    strsep_double address.token.no_separator,
    strsep_double echoable.radius.no_separator,
    strsep_double echoable.userAgent.no_separator,
    strsep_of_not_mem echoable.type.no_separator]

theorem length_echo (address : SourceAddress ip)
    (echoable : members.Echoable) : (echo ip members).length < 1024 := by
  have separator : (ascii "::").length = 2 := rfl
  have bounds := echoable.short
  have typeBound := echoable.type_short
  have ipBound := address.short
  simp only [echo, List.length_append, separator]
  omega

theorem zero_not_mem_echo (address : SourceAddress ip)
    (echoable : members.Echoable) : 0 ∉ echo ip members := by
  have separator : 0 ∉ ascii "::" := by decide
  simp only [echo, List.mem_append, not_or]
  exact ⟨⟨address.token.no_nul, separator⟩,
    ⟨echoable.radius.no_nul, separator⟩,
    ⟨echoable.userAgent.no_nul, separator⟩, echoable.type.no_nul⟩

/-- A text without a letter of a word does not contain the word. -/
theorem strstr_isSome_of_not_mem {text word : Bytes} {byte : UInt8}
    (member : byte ∈ word) (absent : byte ∉ text) :
    (strstr text word).isSome = false := by
  have missing :=
    (Substring.firstOccurrence_eq_none_iff word text).mpr
      (Substring.not_infix_of_not_mem member absent)
  rw [strstr, missing]
  rfl

/-- What the pass-back thread reads. -/
theorem passBackFields_echo (address : SourceAddress ip)
    (echoable : members.Echoable) :
    passBackFields (echo ip members) =
      some (some
        { sIp := ip
          ad := members.radius
          ua := members.userAgent
          type := atoi members.type }) := by
  rw [passBackFields, cString_eq_self (zero_not_mem_echo address echoable),
    store, if_pos (length_echo address echoable), Option.bind_some,
    strsep_echo address echoable]
  simp only [requireToken, List.length_cons, List.length_nil,
    List.getElem?_cons_zero, List.getElem?_cons_succ, Option.bind_some,
    if_neg address.token.ne_nil, if_neg echoable.radius.ne_nil,
    if_neg echoable.userAgent.ne_nil, if_neg echoable.type.ne_nil,
    strstr_isSome_of_not_mem (by decide : 119 ∈ ascii "wispr")
      echoable.no_w,
    strstr_isSome_of_not_mem (by decide : 115 ∈ ascii "spider")
      echoable.no_s,
    Bool.or_self, Bool.false_eq_true, if_false, store,
    if_pos address.short, Option.map_some]
  rfl

end Echo

/-! ## PopCountable a stored record -/

section Count

variable {server : Server} {fields : PassBackFields} {currTime : Int}

/-- The record is stored and its counter has room, and no counter of the
subscriber is a `NULL` pointer. -/
structure Countable (server : Server) (id : RecordId) (ad : Bytes) :
    Prop where
  allocated : server.Allocated
  record : ∃ pUserInfo, server.record id = some pUserInfo ∧
    -2 ^ 31 ≤ pUserInfo.iFactCount ∧ pUserInfo.iFactCount + 1 < 2 ^ 31
  counters : ∀ adTable, server.counter (counterId adTable ad) ≠ some none

namespace Countable

theorem countUser {table : UserTable}
    (countable :
      Countable server (recordId table fields.ad fields.ua) fields.ad) :
    ∃ pUserInfo users,
      pUserInfo.iFactCount.natAbs < 10 ^ 10 ∧
      pUserInfo.iFactTime = currTime ∧
      DataPassBack.countUser (server.users (table, userThread fields.ad))
          (fields.ad ++ fields.ua) currTime =
        some (some pUserInfo, users) := by
  obtain ⟨pUserInfo, stored, low, room⟩ := countable.record
  have length := countable.allocated.users (table, userThread fields.ad)
  have found := Option.join_eq_some_iff.mp stored
  rw [recordId] at found
  dsimp only at found
  rw [← length] at found
  exact ⟨_, _, by dsimp only [countedUserInfo]; omega, rfl,
    countUser_of_found
      (countable.allocated.users_searchable (table, userThread fields.ad))
      found room⟩

theorem countSubscriber {id : RecordId} {ad : Bytes}
    (countable : Countable server id ad) (adTable : AdTable) :
    ∃ count ads,
      DataPassBack.countSubscriber (server.ads (adTable, userThread ad))
          ad =
        some (count, ads) := by
  have notNull := countable.counters adTable
  rw [Server.counter, counterId] at notNull
  dsimp only at notNull
  have length : (server.ads (adTable, userThread ad)).hashLen =
      adTable.length :=
    countable.allocated.ads (adTable, userThread ad)
  rw [← length] at notNull
  exact countSubscriber_of_ne_null
    (countable.allocated.ads_searchable (adTable, userThread ad)) notNull

/-- The branches for the types `2` and `3` count the record. -/
theorem passBackTarget {table : UserTable}
    (countable :
      Countable server (recordId table fields.ad fields.ua) fields.ad) :
    ∃ passBack after,
      DataPassBack.passBackTarget server table fields currTime =
        some (passBack, after) ∧
      passBack.counted = some (recordId table fields.ad fields.ua) := by
  obtain ⟨pUserInfo, users, _, _, counting⟩ :=
    @Countable.countUser _ _ currTime _ countable
  rw [DataPassBack.passBackTarget, counting]
  exact ⟨_, _, rfl, rfl⟩

/-- The command of a counted pass-back fits into its buffer. -/
theorem length_command {name : Bytes} {pUserInfo : FilterUserInfo}
    {ad ua : Bytes} {count : Int} (named : name.length ≤ 7)
    (short : 2 * ad.length + ua.length < 75)
    (counted : pUserInfo.iFactCount.natAbs < 10 ^ 10)
    (timed : pUserInfo.iFactTime.natAbs < 10 ^ 10) :
    (hsetMessage name (ad ++ ua) pUserInfo ad count).command.length <
      128 := by
  have range := toInt32_range count
  have countLength :=
    Decimal.length_decimalInt_le (by omega : 0 < 10) counted
  have timeLength :=
    Decimal.length_decimalInt_le (by omega : 0 < 10) timed
  have adLength :=
    Decimal.length_decimalInt_le (by omega : 0 < 10)
      (by omega : (toInt32 count).natAbs < 10 ^ 10)
  have word : (ascii "hset ").length = 5 := rfl
  have blank : (ascii " ").length = 1 := rfl
  have separator : (ascii "::").length = 2 := rfl
  simp only [Hset.command, hsetMessage, hsetValue, List.length_append,
    word, blank, separator]
  omega

/-- The branches for the types `0` and `4` count the record. -/
theorem passBackCapped {adTable : AdTable} {name : Bytes}
    (countable :
      Countable server (recordId adTable.users fields.ad fields.ua)
        fields.ad)
    (named : name.length ≤ 7)
    (short : 2 * fields.ad.length + fields.ua.length < 75)
    (time : currTime.natAbs < 10 ^ 10) :
    ∃ passBack after,
      DataPassBack.passBackCapped server adTable.users adTable name fields
          currTime =
        some (passBack, after) ∧
      passBack.counted =
        some (recordId adTable.users fields.ad fields.ua) := by
  obtain ⟨pUserInfo, users, counted, timed, counting⟩ :=
    @Countable.countUser _ _ currTime _ countable
  obtain ⟨count, ads, countingAd⟩ := countable.countSubscriber adTable
  have fits :=
    @length_command name pUserInfo fields.ad fields.ua count named short
      counted (by rw [timed]; exact time)
  rw [DataPassBack.passBackCapped, countingAd, Option.bind_some]
  simp only [counting, Option.bind_some, store, if_pos fits,
    Option.map_some]
  exact ⟨_, _, rfl, rfl⟩

end Countable

/-- What `get_data_pass_back` does with an echo whose type is the one of a
decider. -/
theorem getDataPassBack_echo {ip : Bytes} {table : UserTable}
    {members : Members} (address : SourceAddress ip)
    (echoable : members.Echoable)
    (typed : members.type = typeFlag (.user table))
    (time : currTime.natAbs < 10 ^ 10)
    (countable :
      Countable server (recordId table members.radius members.userAgent)
        members.radius) :
    ∃ passBack after,
      getDataPassBack server (echo ip members) currTime =
        some (passBack, after) ∧
      passBack.counted =
        some (recordId table members.radius members.userAgent) := by
  have two : atoi (ascii "2") = 2 := by decide
  have three : atoi (ascii "3") = 3 := by decide
  have zero : atoi (ascii "0") = 0 := by decide
  have four : atoi (ascii "4") = 4 := by decide
  rw [getDataPassBack, passBackFields_echo address echoable,
    Option.bind_some]
  dsimp only
  rw [typed]
  cases table with
  | targetIP =>
      rw [typeFlag, two, if_pos rfl]
      exact Countable.passBackTarget countable
  | targetIP1 =>
      rw [typeFlag, three, if_neg (by decide), if_pos rfl]
      exact Countable.passBackTarget countable
  | surplusIP =>
      rw [typeFlag, zero, if_neg (by decide), if_neg (by decide),
        if_pos rfl]
      exact
        @Countable.passBackCapped _ _ _ .surplusAD _ countable (by decide)
          echoable.short time
  | filterConditionIP =>
      rw [typeFlag, four, if_neg (by decide), if_neg (by decide),
        if_neg (by decide), if_pos rfl]
      exact
        @Countable.passBackCapped _ _ _ .filterConditionAD _ countable
          (by decide) echoable.short time

/-- An echo whose type is the one of a decider is counted in the record of
this decider and in no other one. -/
theorem countedOnce_echo {ip : Bytes} {table : UserTable}
    {members : Members} (address : SourceAddress ip)
    (echoable : members.Echoable)
    (typed : members.type = typeFlag (.user table))
    (time : currTime.natAbs < 10 ^ 10)
    (countable :
      Countable server (recordId table members.radius members.userAgent)
        members.radius) :
    ∃ passBack after,
      getDataPassBack server (echo ip members) currTime =
        some (passBack, after) ∧
      CountedOnce server after
        (recordId table members.radius members.userAgent) currTime := by
  obtain ⟨passBack, after, taken, counted⟩ :=
    getDataPassBack_echo address echoable typed time countable
  have effect := (getDataPassBack_cases taken).record countable.allocated
  rw [counted] at effect
  exact ⟨passBack, after, taken, effect⟩

end Count

/-! ## Records of all tables -/

/-- What distinguishes one record from another, also in the table that
`pop_after_send_pop_message` keeps. -/
inductive PopRecordId where
  | user (id : RecordId)
  | afterSearch (iTid : ThreadId) (key : Fingerprint)
deriving DecidableEq

/-- The record of a user of a subscriber. -/
def popRecordId (table : PopTable) (ad ua : Bytes) : PopRecordId :=
  match table with
  | .user table => .user (recordId table ad ua)
  | .afterSearch =>
      .afterSearch (userThread ad)
        (fingerprint 4096 (ad ++ ua) (ad ++ ua).length)

/-- The stored record, if there is one. -/
def record (state : PopState) : PopRecordId → Option FilterUserInfo
  | .user id => state.server.record id
  | .afterSearch iTid key => ((state.afterSearch iTid).lookup key).join

/-- The record of a decider is there when its message has been sent. -/
theorem stored_of_sent {conf : PopConf} {before after : PopState}
    {pcMessage : Bytes} {psMqHttpMes : MqHttpMessage} {adv : CharPointer}
    {table : UserTable} {sent : Sent}
    (allocated : before.server.Allocated)
    (sentByDecider :
      SentByDecider conf before pcMessage psMqHttpMes adv table sent
        after) :
    ∃ pUserInfo,
      record after (popRecordId sent.table adv.text psMqHttpMes.pcUa) =
        some pUserInfo := by
  have decision := decider_decision sentByDecider.decided
  rw [sentByDecider.authorised]
  exact (decision.decided allocated).2.stored rfl

/-- One message of the pass-back thread, which shares the tables of the
deciders with the loops. -/
def passBackStep (state : PopState) (message : Bytes) (currTime : Int) :
    Option PopState :=
  (getDataPassBack state.server message currTime).map
    fun (_, server) => { state with server := server }

/-- A popup is counted in one record, and no other record changes. -/
structure UpdatesExactly (id : PopRecordId) (currTime : Int)
    (before after : PopState) : Prop where
  counted : ∃ pUserInfo, record before id = some pUserInfo ∧
    record after id =
      some (countedUserInfo pUserInfo (pUserInfo.iFactCount + 1) currTime)
  others : ∀ other, other ≠ id → record after other = record before other

/-- The record is stored and its counter has room, and no counter of the
subscriber is a `NULL` pointer. -/
structure PopCountable (state : PopState) (id : PopRecordId) (ad : Bytes) :
    Prop where
  allocated : state.server.Allocated
  stored : ∃ pUserInfo, record state id = some pUserInfo ∧
    -2 ^ 31 ≤ pUserInfo.iFactCount ∧ pUserInfo.iFactCount + 1 < 2 ^ 31
  counters : ∀ adTable,
    state.server.counter (counterId adTable ad) ≠ some none

/-! ## The identity -/

/-- What a message authorised in a table should carry. -/
def expectedMembers (table : PopTable) (adv : Bytes)
    (psMqHttpMes : MqHttpMessage) : Members where
  userAgent := psMqHttpMes.pcUa
  type := typeFlag table
  radius := adv

/--
The identity of a popup message and its pass-back.

The message carries the subscriber, the digest in the key of the decider and
the type of the decider; wherever the record of the decider is stored, the
echo of these members is counted in it and in no other record.
-/
structure Identity (table : PopTable) (adv : Bytes)
    (psMqHttpMes : MqHttpMessage) (message : Bytes) : Prop where
  carries : Carries message (expectedMembers table adv psMqHttpMes)
  updates : ∀ {ip : Bytes} {state : PopState} {currTime : Int},
    SourceAddress ip →
    PopCountable state (popRecordId table adv psMqHttpMes.pcUa) adv →
    0 ≤ currTime → currTime < 2 ^ 31 →
    ∃ after,
      passBackStep state
          (echo ip (expectedMembers table adv psMqHttpMes)) currTime =
        some after ∧
      UpdatesExactly (popRecordId table adv psMqHttpMes.pcUa) currTime
        state after

section Identity

variable {adv : Bytes} {psMqHttpMes : MqHttpMessage} {message : Bytes}

/-- A pass-back leaves the records of the table for searches alone. -/
theorem passBackStep_afterSearch {before after : PopState}
    {echoed : Bytes} {currTime : Int}
    (taken : passBackStep before echoed currTime = some after)
    (iTid : ThreadId) (key : Fingerprint) :
    record after (.afterSearch iTid key) =
      record before (.afterSearch iTid key) := by
  simp only [passBackStep, Option.map_eq_some_iff] at taken
  obtain ⟨_, _, rfl⟩ := taken
  rfl

/-- No message after a search is passed back to the record that authorised
it. -/
theorem not_identity_afterSearch :
    ¬ Identity .afterSearch adv psMqHttpMes message := by
  intro identity
  have address : SourceAddress (ascii "10.0.0.1") :=
    ⟨⟨by decide, by decide, by decide⟩, by decide⟩
  let table : HashMap FilterUserInfo :=
    hashMapInsert (hashMapNew 4096) (adv ++ psMqHttpMes.pcUa)
      (adv ++ psMqHttpMes.pcUa).length (some (firstUserInfo 0))
  let state : PopState :=
    { PopState.initial with afterSearch := fun _ => table }
  have stored :
      record state (popRecordId .afterSearch adv psMqHttpMes.pcUa) =
        some (firstUserInfo 0) := by
    have inserted :=
      lookup_hashMapInsert_same (hashMapNew 4096)
        (adv ++ psMqHttpMes.pcUa) (adv ++ psMqHttpMes.pcUa).length
        (some (firstUserInfo 0))
    rw [hashLen_hashMapNew, lookup_hashMapNew] at inserted
    simp only [popRecordId, record, state, table, inserted]
    rfl
  have counting :
      PopCountable state (popRecordId .afterSearch adv psMqHttpMes.pcUa)
        adv :=
    { allocated := Server.allocated_initial
      stored := ⟨_, stored, by decide, by decide⟩
      counters := fun adTable => by
        simp [Server.counter, state, PopState.initial] }
  obtain ⟨after, taken, updates⟩ :=
    identity.updates address counting (by decide : (0 : Int) ≤ 0)
      (by decide)
  obtain ⟨pUserInfo, before, counted⟩ := updates.counted
  have unchanged := passBackStep_afterSearch taken
  have same := counted.symm.trans ((unchanged _ _).trans before)
  have counts :=
    congrArg FilterUserInfo.iFactCount (Option.some.inj same)
  dsimp only [countedUserInfo] at counts
  omega

theorem token_zero : Token (ascii "0") :=
  ⟨by decide, by decide, by decide⟩

theorem token_typeFlag (table : PopTable) : Token (typeFlag table) := by
  rcases table with (_ | _ | _ | _) | _ <;>
    exact ⟨by decide, by decide, by decide⟩

theorem length_typeFlag (table : PopTable) :
    (typeFlag table).length = 1 := by
  rcases table with (_ | _ | _ | _) | _ <;> rfl

/-- The members of a message for the subscriber `0` are echoed as they are
written. -/
theorem echoable_zero (table : PopTable)
    (wellFormed : WellFormed psMqHttpMes) :
    (expectedMembers table (ascii "0") psMqHttpMes).Echoable := by
  have bound := length_cUaMD5s psMqHttpMes.pcNoEncUa
  have zeroLength : (ascii "0").length = 1 := rfl
  have absent {byte : UInt8} (noDigit : Decimal.isDigit byte = false) :
      byte ∉ psMqHttpMes.pcUa := by
    rw [wellFormed.digest]
    exact not_mem_cUaMD5s noDigit
  exact
    { radius := token_zero
      userAgent :=
        { ne_nil := by
            rw [expectedMembers, wellFormed.digest]
            exact cUaMD5s_ne_nil _
          no_separator := absent (by decide)
          no_nul := absent (by decide) }
      type := token_typeFlag table
      no_w := absent (by decide)
      no_s := absent (by decide)
      short := by
        rw [expectedMembers, wellFormed.digest]
        dsimp only
        omega
      type_short := by
        rw [expectedMembers, length_typeFlag]
        decide }

/-- An echo whose type is the one of a decider updates exactly the record of
this decider. -/
theorem updatesExactly_echo {ip : Bytes} {table : UserTable}
    {members : Members} {state : PopState} {currTime : Int}
    (address : SourceAddress ip) (echoable : members.Echoable)
    (typed : members.type = typeFlag (.user table))
    (time : currTime.natAbs < 10 ^ 10)
    (counting :
      PopCountable state
        (popRecordId (.user table) members.radius members.userAgent)
        members.radius) :
    ∃ after,
      passBackStep state (echo ip members) currTime = some after ∧
      UpdatesExactly
        (popRecordId (.user table) members.radius members.userAgent)
        currTime state after := by
  obtain ⟨passBack, server, taken, effect⟩ :=
    countedOnce_echo address echoable typed time
      ⟨counting.allocated, counting.stored, counting.counters⟩
  have stepped :
      passBackStep state (echo ip members) currTime =
        some { state with server := server } := by
    rw [passBackStep, taken]
    rfl
  refine ⟨_, stepped, ?_, ?_⟩
  · obtain ⟨pUserInfo, before, _, after⟩ := effect.record
    exact ⟨pUserInfo, before, after⟩
  · intro other different
    cases other with
    | user id =>
        exact effect.others id fun same => different (congrArg _ same)
    | afterSearch iTid key => exact passBackStep_afterSearch stepped _ _

/-- A message that a decider authorised is passed back to its record exactly
when the subscriber is `0` and the name of User-Agent is kept. -/
theorem identity_user_iff {decoder : Decoder} {pcMessage : Bytes}
    {table : UserTable}
    (accepted : decoder.analysis pcMessage = .taken psMqHttpMes)
    (built :
      popMessage pcMessage (some (typeFlag (.user table)))
        (some (ascii "0")) = some message) :
    Identity (.user table) adv psMqHttpMes message ↔
      adv = ascii "0" ∧ UserAgentKept pcMessage := by
  have flagged :
      typeFlag (.user table) ≠ [] ∧ 34 ∉ typeFlag (.user table) := by
    cases table <;> decide
  have carried :=
    @carries_iff _ _ _ _ _ adv accepted flagged.1 flagged.2 built
  constructor
  · intro identity
    exact carried.mp identity.carries
  · rintro ⟨rfl, kept⟩
    have wellFormed := (analysis_wellFormed accepted).1
    refine ⟨carried.mpr ⟨rfl, kept⟩, ?_⟩
    intro ip state currTime address counting nonneg small
    exact
      updatesExactly_echo address (echoable_zero _ wellFormed) rfl
        (by omega) counting

end Identity

/--
A popup message is passed back to the record that authorised it exactly when
it comes from the main loop, its subscriber is the text `0`, and the name of
User-Agent is the last thing that is copied into it.
-/
theorem passBackIdentity_iff {loop : PopLoop} {conf : PopConf}
    {state : PopState} {pcMessage : Bytes} {psMqHttpMes : MqHttpMessage}
    {result : LoopResult} {sent : Sent}
    (accepted : mqMessageAnalysisJson pcMessage = .taken psMqHttpMes)
    (finished :
      rulePopLoop loop conf state pcMessage psMqHttpMes = some result)
    (dispatched : result.sent = some sent) :
    ∃ adv, findRadius state psMqHttpMes = some (some adv) ∧
      (Identity sent.table adv.text psMqHttpMes sent.message ↔
        loop = .main ∧ adv.text = ascii "0" ∧
          UserAgentKept pcMessage) := by
  cases loop with
  | main =>
      obtain ⟨adv, table, subscribed, sentByDecider⟩ :=
        rulePopMainLoop_sent finished dispatched
      refine ⟨adv, subscribed, ?_⟩
      rw [sentByDecider.authorised,
        identity_user_iff accepted sentByDecider.built]
      simp
  | crowdSearch =>
      obtain ⟨adv, subscribed, authorised⟩ :=
        rulePopCrowdSearchLoop_sent finished dispatched
      refine ⟨adv, subscribed, ?_⟩
      rw [authorised]
      exact iff_of_false not_identity_afterSearch (by simp)

/-! ## A popup for the surplus -/

/-- A server that shows the surplus on one site. -/
def samplePopConf : PopConf where
  conf :=
    { limits := fun _ =>
        { maxNum := 3, factNum := 3, factdelay := 60, delay := 600 }
      adMaxNum := fun _ => 100 }
  illegalWords := []
  blackSite := hashMapNew 10000
  totalWhiteSite :=
    hashMapInsert (hashMapNew 100000) (ascii "example.com") 11 none
  adWhite := hashMapNew 2097152
  blackIp := hashMapNew 1000000
  whiteIps := []
  targetedPop := hashMapNew 40960
  targetedPop1 := hashMapNew 40960
  surplusSite :=
    hashMapInsert (hashMapNew 1000) (ascii "example.com") 11 none
  blackUri := hashMapNew 10000
  popWhiteHost := 0
  popWhiteHost1 := 0
  popIpSearch := 0
  popSurplus := 1
  popAfterSearch := 0
  adTotalCount := 1000
  afterMaxNum := 3
  afterDelay := 60
  checkContainKey := fun _ _ => none

/-- Its tables when one address has been assigned to a subscriber. -/
def samplePopState (adv : Bytes) : PopState :=
  { PopState.initial with
    radius :=
      hashMapInsert (hashMapNew 8388608) (ascii "10.0.0.7") 8
        (some { address := 4096, text := adv }) }

/-- A request from this address. -/
def sampleRequest : Bytes :=
  sampleMessage (ascii "1400000000") (ascii "Opera")

/-- What is decoded from the request. -/
def sampleFields : MqHttpMessage where
  pcCookie := ascii "NULL"
  pcSrcIP := ascii "10.0.0.7"
  pcUri := ascii "/"
  host := ascii "example.com"
  pcSec := ascii "1400000000"
  lSec := 1400000000
  pcUa := ascii "42744471619202675493912638152"
  pcNoEncUa := ascii "Opera"

/-- The popup message for the request with a type and a subscriber. -/
def samplePop (type radius : Bytes) : Bytes :=
  ascii "\x7b\"sequence\":\"1" ++
    Separator.srcIP ++ ascii "10.0.0.7" ++
    Separator.dstIP ++ ascii "10.0.0.1" ++
    Separator.siteUrl ++ ascii "example.com" ++
    Separator.siteUri ++ ascii "/" ++
    Separator.sec ++ ascii "1400000000" ++
    Members.text
      { userAgent := ascii "42744471619202675493912638152"
        type := type
        radius := radius }

theorem sampleRequest_accepted :
    mqMessageAnalysisJson sampleRequest = .taken sampleFields := by
  decide +kernel

/-- The subscriber `0` is the one whose popup is passed back. -/
theorem passBackIdentity_iff_zero :
    ∃ result sent,
      rulePopLoop .main samplePopConf (samplePopState (ascii "0"))
          sampleRequest sampleFields = some result ∧
      result.sent = some sent ∧
      sent = ⟨.user .surplusIP, samplePop (ascii "0") (ascii "0")⟩ ∧
      Identity sent.table (ascii "0") sampleFields sent.message := by
  have dispatched :
      (rulePopLoop .main samplePopConf (samplePopState (ascii "0"))
          sampleRequest sampleFields).map LoopResult.sent =
        some (some
          ⟨.user .surplusIP, samplePop (ascii "0") (ascii "0")⟩) := by
    decide +kernel
  obtain ⟨result, finished, sent⟩ := Option.map_eq_some_iff.mp dispatched
  obtain ⟨adv, subscribed, equivalence⟩ :=
    passBackIdentity_iff sampleRequest_accepted finished sent
  have found :
      findRadius (samplePopState (ascii "0")) sampleFields =
        some (some ⟨4096, ascii "0"⟩) := by
    decide +kernel
  cases Option.some.inj (Option.some.inj (subscribed.symm.trans found))
  have kept : UserAgentKept sampleRequest := Or.inl (by decide +kernel)
  exact ⟨result, _, finished, sent, rfl,
    equivalence.mpr ⟨rfl, rfl, kept⟩⟩

/-- The subscriber `user1` is not named in its popup message: the message
carries the text `0` in its place. -/
theorem passBackIdentity_violated :
    mqMessageAnalysisJson sampleRequest = .taken sampleFields ∧
    findRadius (samplePopState (ascii "user1")) sampleFields =
      some (some ⟨4096, ascii "user1"⟩) ∧
    (rulePopLoop .main samplePopConf (samplePopState (ascii "user1"))
        sampleRequest sampleFields).map LoopResult.sent =
      some (some
        ⟨.user .surplusIP, samplePop (ascii "0") (ascii "0")⟩) ∧
    ¬ Identity (.user .surplusIP) (ascii "user1") sampleFields
        (samplePop (ascii "0") (ascii "0")) := by
  refine ⟨by decide +kernel, by decide +kernel, by decide +kernel, ?_⟩
  intro identity
  exact absurd identity.carries (by decide +kernel)

end WindowSystem.PassBackIdentity
