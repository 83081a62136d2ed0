import WindowSystem.InstantSearchPop
import WindowSystem.MqCountRedisStore

/-!
# The array of the tokens

Four functions cut a text with `strsep` into `char *token[20]` and then look at
fixed places of the array: `get_data_pass_back`, `instant_count_record`,
`redis_store` and `load_all_hash`.  `strsep` takes every single `:` for a
separator.  Each function is written here as the list of its accesses to the
array.
-/

namespace WindowSystem.PassBackTokens

open WindowSystem.CRuntime
open WindowSystem.DataPassBack
open WindowSystem.DcGlobal
open WindowSystem.Library
open WindowSystem.ToolHashMap

/-! ## Accesses -/

/-- A pointer is written into the array, or one is followed. -/
inductive Access where
  | write (index : Nat)
  | follow (index : Nat)
deriving DecidableEq

/-- An access inside the array; the pointers that are followed are those of
tokens, neither the final `NULL` nor one that was never written. -/
def Access.Safe (token : List Bytes) : Access → Prop
  | .write index => index < 20
  | .follow index => index < 20 ∧ index < token.length

instance (token : List Bytes) (access : Access) :
    Decidable (access.Safe token) :=
  match access with
  | .write _ => inferInstanceAs (Decidable (_ < _))
  | .follow _ => inferInstanceAs (Decidable (_ ∧ _))

/-- `while ((token[i++] = strsep (&buf, "::")) != NULL);` -/
def split (token : List Bytes) : List Access :=
  (List.range (token.length + 1)).map .write

/-- `strlen(token[i]) == 0` for one place after the other, up to an empty
token; the function goes on when there is none. -/
def tests (token : List Bytes) (after : List Access) :
    List Nat → List Access
  | [] => after
  | index :: places =>
      .follow index ::
        match token[index]? with
        | some (_ :: _) => tests token after places
        | some [] => []
        | none => []

/-- The text at a place that was tested. -/
def text (token : List Bytes) (index : Nat) : Bytes :=
  token.getD index []

/-! ## The four functions -/

/-- `hash_map_find` finds the counter of a subscriber. -/
def knowsAd (server : Server) (adTable : AdTable) (ad : Bytes) : Bool :=
  0 ≤ (hashMapFind (server.ads (adTable, userThread ad)) ad ad.length).ret

/-- `hash_map_find` finds the record of a user; the table belongs to the thread
of the subscriber. -/
def knowsUser (server : Server) (table : UserTable) (ad szADUA : Bytes) :
    Bool :=
  0 ≤ (hashMapFind (server.users (table, userThread ad)) szADUA
    szADUA.length).ret

/-- The branches of `get_data_pass_back` for the types `0` and `4`. -/
def countBoth (server : Server) (adTable : AdTable) (table : UserTable)
    (ad szADUA : Bytes) : List Nat :=
  [2, 2] ++ (if knowsAd server adTable ad then [] else [2, 2]) ++
    (if knowsUser server table ad szADUA then [2] else [])

/-- The places that `get_data_pass_back` uses behind its tests. -/
def passBackPlaces (server : Server) (token : List Bytes) : List Nat :=
  let ad := text token 2
  let ua := text token 4
  let type := atoi (text token 6)
  if (strstr ua (ascii "wispr")).isSome then [4]
  else if (strstr ua (ascii "spider")).isSome then [4, 4]
  else
    [4, 4, 0, 2, 4, 6, 2, 2, 2, 4] ++
      if type = 0 then
        countBoth server .surplusAD .surplusIP ad (ad ++ ua)
      else if type = 4 then
        countBoth server .filterConditionAD .filterConditionIP ad (ad ++ ua)
      else []

/-- `get_data_pass_back` with the tokens of a message. -/
def getDataPassBack (server : Server) (token : List Bytes) : List Access :=
  split token ++
    tests token ((passBackPlaces server token).map .follow) [0, 2, 4, 6]

/-- `instant_count_record` with the tokens of a message. -/
def instantCountRecord (token : List Bytes) : List Access :=
  split token ++ tests token ([0, 2, 0, 0].map .follow) [0, 2]

/-- `redis_store` with the tokens of a message. -/
def redisStore (token : List Bytes) : List Access :=
  split token ++ tests token ([4, 0, 2].map .follow) [0, 2, 4]

/-- The types with which `load_all_hash` is called, `0` and `1`. -/
inductive HashType where
  | surplus
  | crowd

def HashType.adTable : HashType → AdTable
  | .surplus => .surplusAD
  | .crowd => .filterConditionAD

/-- A user is inserted that is not found, or for the other type one that
is. -/
def HashType.insertsUser (server : Server) (ad szBuff : Bytes) :
    HashType → Bool
  | .surplus => !knowsUser server .surplusIP ad szBuff
  | .crowd => knowsUser server .filterConditionIP ad szBuff

/-- The places that `load_all_hash` uses behind its tests. -/
def hashPlaces (server : Server) (type : HashType) (szBuff : Bytes)
    (token : List Bytes) : List Nat :=
  let ad := text token 4
  [4, 4, 4, 4] ++
    (if knowsAd server type.adTable ad then [] else [6, 4, 4]) ++
    if type.insertsUser server ad szBuff then [0, 2] else []

/-- `load_all_hash` with the tokens of a value. -/
def loadAllHash (server : Server) (type : HashType) (szBuff : Bytes)
    (token : List Bytes) : List Access :=
  split token ++
    tests token ((hashPlaces server type szBuff token).map .follow) [0, 2, 4]

/-! ## Texts -/

/-- A message of at most 1024 bytes. -/
structure Packet where
  bytes : Bytes
  short : bytes.length ≤ 1024

/-- The tokens of a message in an array of zeros, with the memory behind
it. -/
def received (size : Nat) (packet : Packet) (behind : Bytes) : List Bytes :=
  strsep 58
    (cString
      (packet.bytes ++ List.replicate (size - packet.bytes.length) 0 ++
        behind))

/-- The tokens of a message that is terminated. -/
def Packet.tokens (packet : Packet) : List Bytes :=
  strsep 58 (cString packet.bytes)

/-- There is a zero in the message or behind it. -/
def Packet.Terminated (packet : Packet) : Prop :=
  packet.bytes.length < 1024 ∨ 0 ∈ packet.bytes

/-! ## What is safe -/

/-- All accesses are safe. -/
def AllSafe (token : List Bytes) (accesses : List Access) : Prop :=
  ∀ access ∈ accesses, access.Safe token

/-- Every tested place has a token unless an earlier one is empty. -/
def Present (places : List Nat) (token : List Bytes) : Prop :=
  ∀ index ∈ places, index < token.length ∨
    ∃ earlier ∈ places, earlier < index ∧ token[earlier]? = some []

/-- At most nineteen tokens, which leaves an entry for `NULL`, with the tested
ones among them. -/
structure Complete (places : List Nat) (token : List Bytes) : Prop where
  few : token.length ≤ 19
  present : Present places token

/-- No tested token is empty. -/
def Passes (places : List Nat) (token : List Bytes) : Prop :=
  ∀ index ∈ places, ∃ first rest, token[index]? = some (first :: rest)

section Safe

variable {token : List Bytes} {after : List Access} {places : List Nat}

theorem allSafe_append {first second : List Access} :
    AllSafe token (first ++ second) ↔
      AllSafe token first ∧ AllSafe token second :=
  List.forall_mem_append

theorem allSafe_split_iff :
    AllSafe token (split token) ↔ token.length ≤ 19 := by
  constructor
  · intro safe
    have last := safe (.write token.length)
      (List.mem_map_of_mem (List.mem_range.mpr (Nat.lt_succ_self _)))
    exact Nat.le_of_lt_succ last
  · intro few access member
    obtain ⟨index, inside, rfl⟩ := List.mem_map.mp member
    have bound := List.mem_range.mp inside
    show index < 20
    omega

theorem follow_safe_iff (few : token.length ≤ 19) {index : Nat} :
    (Access.follow index).Safe token ↔ index < token.length := by
  change index < 20 ∧ index < token.length ↔ _
  omega

theorem allSafe_follow_iff (few : token.length ≤ 19) :
    AllSafe token (places.map .follow) ↔
      ∀ index ∈ places, index < token.length := by
  rw [AllSafe, List.forall_mem_map]
  exact forall₂_congr fun _ _ => follow_safe_iff few

theorem lt_length_of_passes {index : Nat} (passes : Passes places token)
    (member : index ∈ places) : index < token.length := by
  obtain ⟨first, rest, found⟩ := passes index member
  exact (List.getElem?_eq_some_iff.mp found).1

section Places

variable {index : Nat} (least : ∀ later ∈ places, index < later)

include least

theorem not_present_of_missing (missing : token[index]? = none) :
    ¬ Present (index :: places) token := by
  intro present
  rw [List.getElem?_eq_none_iff] at missing
  rcases present index List.mem_cons_self with
    inside | ⟨earlier, member, before, _⟩
  · omega
  · rcases List.mem_cons.mp member with rfl | member
    · omega
    · have := least earlier member
      omega

theorem present_of_empty (empty : token[index]? = some []) :
    Present (index :: places) token := by
  intro other member
  rcases List.mem_cons.mp member with rfl | member
  · exact Or.inl (List.getElem?_eq_some_iff.mp empty).1
  · exact Or.inr ⟨index, List.mem_cons_self, least other member, empty⟩

theorem present_cons_iff {first : UInt8} {rest : Bytes}
    (full : token[index]? = some (first :: rest)) :
    Present (index :: places) token ↔ Present places token := by
  constructor
  · intro present other member
    refine (present other (List.mem_cons_of_mem _ member)).imp_right ?_
    rintro ⟨earlier, earlierMember, before, empty⟩
    rcases List.mem_cons.mp earlierMember with rfl | earlierMember
    · rw [full] at empty
      cases empty
    · exact ⟨earlier, earlierMember, before, empty⟩
  · intro present other member
    rcases List.mem_cons.mp member with rfl | member
    · exact Or.inl (List.getElem?_eq_some_iff.mp full).1
    · refine (present other member).imp_right ?_
      rintro ⟨earlier, earlierMember, before, empty⟩
      exact ⟨earlier, List.mem_cons_of_mem _ earlierMember, before, empty⟩

end Places

theorem not_passes_of_empty {index : Nat} (empty : token[index]? = some []) :
    ¬ Passes (index :: places) token := by
  intro passes
  obtain ⟨first, rest, full⟩ := passes index List.mem_cons_self
  rw [full] at empty
  cases empty

theorem passes_cons_iff {index : Nat} {first : UInt8} {rest : Bytes}
    (full : token[index]? = some (first :: rest)) :
    Passes (index :: places) token ↔ Passes places token := by
  rw [Passes, List.forall_mem_cons, and_iff_right ⟨first, rest, full⟩]
  rfl

/-- The tests are safe when the tested places are present. -/
theorem allSafe_tests_iff (few : token.length ≤ 19)
    (ordered : places.Pairwise (· < ·)) :
    AllSafe token (tests token after places) ↔
      Present places token ∧
        (Passes places token → AllSafe token after) := by
  induction places with
  | nil => simp [tests, Passes, Present]
  | cons index places induction =>
      obtain ⟨least, ordered⟩ := List.pairwise_cons.mp ordered
      rw [tests, AllSafe, List.forall_mem_cons, follow_safe_iff few]
      cases found : token[index]? with
      | none =>
          have outside : ¬ index < token.length := by
            rw [List.getElem?_eq_none_iff] at found
            omega
          simp [outside, not_present_of_missing least found]
      | some head =>
          have inside := (List.getElem?_eq_some_iff.mp found).1
          rw [and_iff_right inside]
          cases head with
          | nil =>
              simp [present_of_empty least found, not_passes_of_empty found]
          | cons first rest =>
              rw [present_cons_iff least found, passes_cons_iff found]
              exact induction ordered

/-- A function that splits, tests and then uses some places. -/
theorem allSafe_parser_iff {used : List Nat}
    (ordered : places.Pairwise (· < ·)) :
    AllSafe token
        (split token ++ tests token (used.map .follow) places) ↔
      Complete places token ∧
        (Passes places token → ∀ index ∈ used, index < token.length) := by
  rw [allSafe_append, allSafe_split_iff]
  constructor
  · rintro ⟨few, safe⟩
    rw [allSafe_tests_iff few ordered, allSafe_follow_iff few] at safe
    exact ⟨⟨few, safe.1⟩, safe.2⟩
  · rintro ⟨⟨few, present⟩, safe⟩
    rw [allSafe_tests_iff few ordered, allSafe_follow_iff few]
    exact ⟨few, present, safe⟩

/-- A function that uses only places that it has tested. -/
theorem allSafe_tested_iff {used : List Nat}
    (ordered : places.Pairwise (· < ·)) (tested : used ⊆ places) :
    AllSafe token
        (split token ++ tests token (used.map .follow) places) ↔
      Complete places token := by
  rw [allSafe_parser_iff ordered, and_iff_left]
  exact fun passes index member =>
    lt_length_of_passes passes (tested member)

end Safe

/-! ## The places of each function -/

section Parsers

variable {server : Server} {token : List Bytes}

theorem countBoth_subset (adTable : AdTable) (table : UserTable)
    (ad szADUA : Bytes) :
    countBoth server adTable table ad szADUA ⊆ [0, 2, 4, 6] := by
  rw [countBoth]
  split_ifs
  · simp
  · simp
  · simp
  · simp

theorem passBackPlaces_subset :
    passBackPlaces server token ⊆ [0, 2, 4, 6] := by
  simp only [passBackPlaces]
  split_ifs
  · simp
  · simp
  · exact List.append_subset.mpr ⟨by simp, countBoth_subset _ _ _ _⟩
  · exact List.append_subset.mpr ⟨by simp, countBoth_subset _ _ _ _⟩
  · simp

theorem getDataPassBack_safe_iff :
    AllSafe token (getDataPassBack server token) ↔
      Complete [0, 2, 4, 6] token :=
  allSafe_tested_iff (by decide) passBackPlaces_subset

theorem instantCountRecord_safe_iff :
    AllSafe token (instantCountRecord token) ↔ Complete [0, 2] token :=
  allSafe_tested_iff (by decide) (by simp)

theorem redisStore_safe_iff :
    AllSafe token (redisStore token) ↔ Complete [0, 2, 4] token :=
  allSafe_tested_iff (by decide) (by simp)

/-- The count of a subscriber is taken from a value whose tested tokens are
all there, when no counter is stored yet. -/
def ReadsCount (server : Server) (type : HashType) (token : List Bytes) :
    Prop :=
  Passes [0, 2, 4] token ∧ knowsAd server type.adTable (text token 4) = false

theorem loadAllHash_safe_iff {type : HashType} {szBuff : Bytes} :
    AllSafe token (loadAllHash server type szBuff token) ↔
      Complete [0, 2, 4] token ∧
        (ReadsCount server type token → 6 < token.length) := by
  rw [loadAllHash, allSafe_parser_iff (by decide)]
  refine and_congr_right fun _ => ?_
  constructor
  · rintro safe ⟨passes, unknown⟩
    exact safe passes 6 (by simp [hashPlaces, unknown])
  · intro count passes index member
    have tested {place : Nat} (tested : place ∈ [0, 2, 4]) :=
      lt_length_of_passes passes tested
    simp only [hashPlaces, List.mem_append] at member
    rcases member with (member | member) | member
    · exact tested (by simp at member ⊢; omega)
    · split_ifs at member with known
      · cases member
      · by_cases six : index = 6
        · rw [six]
          exact count ⟨passes, by simpa using known⟩
        · exact tested (by simp at member ⊢; omega)
    · split_ifs at member
      · exact tested (by simp at member ⊢; omega)
      · cases member

end Parsers

/-! ## Messages in their arrays -/

theorem length_strsep (delimiter : UInt8) (text : Bytes) :
    (strsep delimiter text).length = text.count delimiter + 1 := by
  induction text with
  | nil => rfl
  | cons first text induction =>
      rw [strsep, List.splitOn_cons_eq_if_modifyHead, ← strsep,
        List.count_cons]
      split_ifs
      · rw [List.length_cons, induction]
      · rw [List.length_modifyHead, induction]

section Received

variable {packet : Packet}

/-- The memory behind the array is not read when there is a zero in the
array. -/
theorem received_eq {size : Nat}
    (ends : packet.bytes.length < size ∨ 0 ∈ packet.bytes)
    (behind : Bytes) : received size packet behind = packet.tokens := by
  have zero : 0 ∈ packet.bytes ++
      List.replicate (size - packet.bytes.length) 0 := by
    rw [List.mem_append, List.mem_replicate]
    rcases ends with short | member
    · exact Or.inr ⟨by omega, rfl⟩
    · exact Or.inl member
  rw [received, cString_append_of_mem zero, cString_append_zeros]
  rfl

/-- Otherwise the memory behind it can hold too many separators. -/
theorem exists_many_tokens (whole : 1024 ≤ packet.bytes.length)
    (noNul : 0 ∉ packet.bytes) :
    ∃ behind, 19 < (received 1024 packet behind).length := by
  refine ⟨List.replicate 20 58, ?_⟩
  have clean : 0 ∉ packet.bytes ++ List.replicate 20 58 := by
    rw [List.mem_append, List.mem_replicate]
    rintro (member | ⟨_, zero⟩)
    · exact noNul member
    · cases zero
  rw [received, Nat.sub_eq_zero_of_le whole, List.replicate_zero,
    List.append_nil, cString_eq_self clean, length_strsep, List.count_append,
    List.count_replicate_self]
  omega

/-- A function on a message of an array of 1024 bytes. -/
theorem received_safe_iff {parser : List Bytes → List Access}
    {places : List Nat}
    (safe : ∀ token, AllSafe token (parser token) ↔ Complete places token) :
    (∀ behind, AllSafe (received 1024 packet behind)
        (parser (received 1024 packet behind))) ↔
      packet.Terminated ∧ Complete places packet.tokens := by
  constructor
  · intro all
    have ends : packet.Terminated := by
      by_contra endless
      obtain ⟨long, noNul⟩ := not_or.mp endless
      obtain ⟨behind, many⟩ := exists_many_tokens (not_lt.mp long) noNul
      have few := ((safe _).mp (all behind)).few
      omega
    have first := all []
    rw [received_eq ends] at first
    exact ⟨ends, (safe _).mp first⟩
  · rintro ⟨ends, complete⟩ behind
    rw [received_eq ends]
    exact (safe _).mpr complete

end Received

/-- **The tokens are used safely.**

The three functions that receive messages keep to the tokens, for every memory
behind the message, exactly when the message is terminated, has at most
nineteen tokens, and has a token at every place that is tested before an empty
one; the message of `redis_store` is always terminated.  The loader also needs
a seventh token when it has to take the count of a subscriber from it. -/
theorem tokens_safe_iff (server : Server) :
    (∀ packet : Packet,
      (∀ behind, AllSafe (received 1024 packet behind)
          (getDataPassBack server (received 1024 packet behind))) ↔
        packet.Terminated ∧ Complete [0, 2, 4, 6] packet.tokens) ∧
      (∀ packet : Packet,
        (∀ behind, AllSafe (received 1024 packet behind)
            (instantCountRecord (received 1024 packet behind))) ↔
          packet.Terminated ∧ Complete [0, 2] packet.tokens) ∧
      (∀ packet : Packet,
        (∀ behind, AllSafe (received 4096 packet behind)
            (redisStore (received 4096 packet behind))) ↔
          Complete [0, 2, 4] packet.tokens) ∧
      ∀ (type : HashType) (szBuff value : Bytes),
        AllSafe (strsep 58 (cString value))
            (loadAllHash server type szBuff (strsep 58 (cString value))) ↔
          Complete [0, 2, 4] (strsep 58 (cString value)) ∧
            (ReadsCount server type (strsep 58 (cString value)) →
              6 < (strsep 58 (cString value)).length) := by
  refine ⟨fun packet => ?_, fun packet => ?_, fun packet => ?_,
    fun type szBuff value => loadAllHash_safe_iff⟩
  · exact received_safe_iff fun token => getDataPassBack_safe_iff
  · exact received_safe_iff fun token => instantCountRecord_safe_iff
  · have ends : packet.bytes.length < 4096 ∨ 0 ∈ packet.bytes := by
      have short := packet.short
      omega
    simp only [received_eq ends, redisStore_safe_iff, forall_const]

/-- A pass-back without its last field. -/
def shortPacket : Packet where
  bytes := ascii "1.2.3.4::ad::ua"
  short := Nat.le_of_ble_eq_true rfl

/-- The missing field is followed nevertheless. -/
theorem not_safe_shortPacket :
    ¬ ∀ behind, AllSafe (received 1024 shortPacket behind)
        (getDataPassBack .initial (received 1024 shortPacket behind)) := by
  intro all
  have safe := (received_safe_iff
    (fun token => @getDataPassBack_safe_iff .initial token)).mp all
  have present := safe.2.present 6 (by decide)
  revert present
  decide +kernel

end WindowSystem.PassBackTokens
