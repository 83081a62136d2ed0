import WindowSystem.Client.MqClientPopwin
import WindowSystem.Library.FirstSeen
import WindowSystem.ToolHashMap

/-!
# The membership filters of the client

`filter_rule_host_filter.c` answers whether a host was loaded from a file, and
`filter_rule_host_learn.c` and `filter_rule_ip_learn.c` report hosts and
addresses when they come for the first time.  All three read the return value
of the client's hash table as a flag: the table returns the bucket of a key
that it finds, `0` for a key that it adds and `-1` for a failed search, so a
key of bucket 0 is never known.
-/

namespace WindowSystem.Client.HostFilters

open WindowSystem.CRuntime
open WindowSystem.Library
open WindowSystem.ToolHashMap

/-! ## The table of the client -/

/-- `nTableSize`. -/
def nTableSize : UInt32 := 40960

/-- The table of `tool_hash_map.c`.  The client's hash function and its chains
are those of the server's map; the client keeps neither the length of the
table nor its size, the length is the constant `nTableSize`. -/
abbrev ToolHashTable := HashMap Int

/-- `tool_hash_table_new`. -/
def toolHashTableNew : ToolHashTable := hashMapNew nTableSize

/-- `tool_hash_table_find`. -/
def toolHashTableFind (toolHashTable : ToolHashTable) (start : Bytes)
    (len : Int) : Probe Int :=
  hashMapCheckAppend toolHashTable start len none false none nTableSize

/-- `tool_hash_table_insert`. -/
def toolHashTableInsert (toolHashTable : ToolHashTable) (start : Bytes)
    (len : Int) (inVal : Option Int) : Probe Int :=
  hashMapCheckAppend toolHashTable start len inVal true inVal nTableSize

/-- Bucket and hashes of a key in the client's table. -/
def keyOf (start : Bytes) (len : Int) : Fingerprint :=
  fingerprint nTableSize start len

/-- A key that falls into bucket 0. -/
def inBucketZero (key : Fingerprint) : Bool := key.1 = 0

/-! ## The filters -/

/-- The bytes of a page of memory. -/
def pageSize : Nat := 4096

/-- `host_filter_read_file` for the bytes of the file; the rest of the last
page is zero, and an empty file cannot be mapped. -/
def hostFilterReadFile (file : Bytes) : Option Bytes :=
  if file = [] then none
  else
    some (file ++
      List.replicate ((pageSize - file.length % pageSize) % pageSize) 0)

/-- The loop of `host_filter_load_conf` from a place in the mapping on; `none`
is a read behind it.  The bound `index < 3` never ends the inner loop, since
`index` is not counted. -/
def hostFilterLoadConf (fileContent : Bytes) (hostHashTable : ToolHashTable) :
    Option ToolHashTable :=
  match fileContent with
  | [] => none
  | byte :: bytes =>
      if byte = 0 then some hostHashTable
      else
        let currLen := ((byte :: bytes).takeWhile (· != 10)).length
        match _ : (byte :: bytes).dropWhile (· != 10) with
        | [] => none
        | _ :: rest =>
            hostFilterLoadConf rest
              (toolHashTableInsert hostHashTable (byte :: bytes)
                currLen none).map
termination_by fileContent.length
decreasing_by
  rename_i ends
  have shorter := (List.dropWhile_suffix (· != (10 : UInt8))
    (l := byte :: bytes)).length_le
  rw [ends] at shorter
  exact shorter

/-- `host_filter_init`; `none` is a read through the null pointer of a failed
mapping or behind the mapping. -/
def hostFilterInit (file : Bytes) : Option ToolHashTable :=
  (hostFilterReadFile file).bind fun fileContent =>
    hostFilterLoadConf fileContent toolHashTableNew

/-- `host_filter_check`. -/
def hostFilterCheck (hostHashTable : ToolHashTable) (host : Bytes)
    (hostLen : Int) : Int :=
  let ret := (toolHashTableFind hostHashTable host hostLen).ret
  if ret ≤ 0 then -1 else 1

/-- The arguments of `host_learn_check`; `host` is the memory from the pointer
to the terminator. -/
structure HostCall where
  host : Bytes
  len : Nat

/-- What `snprintf` writes into `host_str`, whose size it is told to be
`len + 1`. -/
def HostCall.hostStr (call : HostCall) : Bytes :=
  (cString call.host ++ ascii "\n").take call.len

/-- `host_learn_check`: the line that is written to the file, if one is, and
the table; `none` is a write behind `host_str`. -/
def hostLearnCheck (hostLearnHashTable : ToolHashTable) (call : HostCall) :
    Option (Option Bytes × ToolHashTable) :=
  let probe := toolHashTableInsert hostLearnHashTable call.host call.len none
  if probe.ret = 0 then
    (store 1024 call.hostStr).map fun hostStr => (some hostStr, probe.map)
  else some (none, probe.map)

/-- A sequence of calls of `host_learn_check`. -/
def hostLearnCalls (hostLearnHashTable : ToolHashTable) :
    List HostCall → Option (List (Option Bytes))
  | [] => some []
  | call :: calls =>
      (hostLearnCheck hostLearnHashTable call).bind fun answer =>
        (hostLearnCalls answer.2 calls).map (answer.1 :: ·)

/-- The text that `inet_ntoa` prints for `htonl(ip)`. -/
def ipStr (ip : Int) : Bytes := MqClientPopwin.inetNtoaR (UInt32.ofInt ip)

/-- `ip_learn_check`: its result and the table. -/
def ipLearnCheck (ipLearnHashTable : ToolHashTable) (ip : Int) :
    Int × ToolHashTable :=
  let probe :=
    toolHashTableInsert ipLearnHashTable (ipStr ip) (ipStr ip).length none
  (if probe.ret = 0 then -1 else 0, probe.map)

/-- A sequence of calls of `ip_learn_check`. -/
def ipLearnCalls (ipLearnHashTable : ToolHashTable) : List Int → List Int
  | [] => []
  | ip :: ips =>
      let answer := ipLearnCheck ipLearnHashTable ip
      answer.1 :: ipLearnCalls answer.2 ips

/-! ## What the table knows -/

/-- A table that knows exactly the listed keys. -/
structure Knows (table : ToolHashTable) (seen : List Fingerprint) : Prop where
  hashLen : table.hashLen = nTableSize
  lookup : ∀ key, (table.lookup key).isSome ↔ key ∈ seen

theorem knows_new : Knows toolHashTableNew [] where
  hashLen := rfl
  lookup key := by simp [toolHashTableNew]

/-- The bucket of a key as a return value. -/
theorem toInt32_bucket (start : Bytes) (len : Int) :
    toInt32 (keyOf start len).1.toNat = (keyOf start len).1.toNat := by
  have below : (keyOf start len).1.toNat < nTableSize.toNat := by
    rw [keyOf, fingerprint, UInt32.toNat_mod]
    exact Nat.mod_lt _ (by decide)
  have size : nTableSize.toNat = 40960 := rfl
  rw [toInt32_of_range] <;> omega

theorem inBucketZero_iff {key : Fingerprint} :
    inBucketZero key = true ↔ key.1.toNat = 0 := by
  rw [inBucketZero, decide_eq_true_iff, ← UInt32.toNat_inj]
  rfl

namespace Knows

variable {table : ToolHashTable} {seen : List Fingerprint}

/-- A search returns a positive bucket exactly for a known key outside of
bucket 0. -/
theorem find_pos_iff (knows : Knows table seen) (start : Bytes) (len : Int) :
    0 < (toolHashTableFind table start len).ret ↔
      keyOf start len ∈ seen ∧ inBucketZero (keyOf start len) = false := by
  have found : (toolHashTableFind table start len).ret =
      if (table.lookup (keyOf start len)).isSome then
        ((keyOf start len).1.toNat : Int)
      else -1 := by
    have search := congrArg Probe.ret (hashMapFind_eq table start len)
    rw [hashMapFind, knows.hashLen] at search
    rw [toolHashTableFind, search, ← toInt32_bucket]
    rfl
  rw [found, ← knows.lookup, ← Bool.not_eq_true, inBucketZero_iff]
  split
  · rename_i known
    rw [and_iff_right known]
    omega
  · rename_i unknown
    simp [unknown]

/-- An insertion returns 0 for a new key, and for every key of bucket 0. -/
theorem insert_ret_iff (knows : Knows table seen) (start : Bytes)
    (len : Int) (inVal : Option Int) :
    (toolHashTableInsert table start len inVal).ret = 0 ↔
      keyOf start len ∉ seen ∨ inBucketZero (keyOf start len) = true := by
  have bucket : toInt32 (keyOf start len).1.toNat = 0 ↔
      inBucketZero (keyOf start len) = true := by
    rw [toInt32_bucket, inBucketZero_iff]
    omega
  rw [← bucket, ← knows.lookup, HashMap.lookup, BucketTable.lookup,
    Option.isSome_map, toolHashTableInsert, hashMapCheckAppend]
  simp only [if_true]
  split
  · rename_i node found
    simp only [keyOf, fingerprint] at found ⊢
    simp [found]
  · rename_i missing
    simp only [keyOf, fingerprint] at missing ⊢
    simp [missing]

theorem insert (knows : Knows table seen) (start : Bytes) (len : Int)
    (inVal : Option Int) :
    Knows (toolHashTableInsert table start len inVal).map
      (keyOf start len :: seen) := by
  have after : (toolHashTableInsert table start len inVal).map =
      hashMapInsert table start len inVal := by
    rw [hashMapInsert, knows.hashLen, toolHashTableInsert]
  have place : fingerprint table.hashLen start len = keyOf start len := by
    rw [knows.hashLen, keyOf]
  rw [after]
  constructor
  case hashLen => rw [hashLen_hashMapInsert, knows.hashLen]
  case lookup =>
    intro key
    rw [List.mem_cons]
    by_cases same : key = keyOf start len
    · have stored := lookup_hashMapInsert_same table start len inVal
      rw [place] at stored
      rw [same, stored]
      simp
    · rw [lookup_hashMapInsert_other table start len inVal
        (by rwa [place]), knows.lookup]
      simp [same]

end Knows

/-! ## The filter of the loaded hosts -/

/-- Hosts that can stand on the lines of the file. -/
structure HostList where
  hosts : List Bytes
  plain : ∀ host ∈ hosts, 0 ∉ host ∧ 10 ∉ host

namespace HostList

/-- The file with one host on every line. -/
def file (list : HostList) : Bytes :=
  (list.hosts.map (· ++ [10])).flatten

/-- A host with these bucket and hashes was loaded. -/
def Loaded (list : HostList) (key : Fingerprint) : Prop :=
  ∃ host ∈ list.hosts, keyOf host host.length = key

end HostList

/-- One line of the file. -/
theorem hostFilterLoadConf_line {host : Bytes} (plain : 0 ∉ host ∧ 10 ∉ host)
    (rest : Bytes) (table : ToolHashTable) :
    hostFilterLoadConf (host ++ 10 :: rest) table =
      hostFilterLoadConf rest
        (toolHashTableInsert table (host ++ 10 :: rest) host.length none).map
      := by
  have passes : ∀ byte ∈ host, (byte != 10) = true := by
    intro byte member
    rw [bne_iff_ne]
    rintro rfl
    exact plain.2 member
  have line : (host ++ 10 :: rest).takeWhile (· != 10) = host := by
    rw [List.takeWhile_append_of_pos passes,
      List.takeWhile_cons_of_neg (by decide), List.append_nil]
  have ends : (host ++ 10 :: rest).dropWhile (· != 10) = 10 :: rest := by
    rw [List.dropWhile_append_of_pos passes,
      List.dropWhile_cons_of_neg (by decide)]
  obtain ⟨byte, bytes, shape⟩ : ∃ byte bytes,
      host ++ 10 :: rest = byte :: bytes := by
    cases host with
    | nil => exact ⟨_, _, rfl⟩
    | cons byte bytes => exact ⟨_, _, rfl⟩
  have nonzero : byte ≠ 0 := by
    rintro rfl
    cases host with
    | nil => simp at shape
    | cons byte bytes =>
        rw [List.cons_append, List.cons.injEq] at shape
        exact plain.1 (shape.1 ▸ List.mem_cons_self)
  rw [shape] at line ends ⊢
  rw [hostFilterLoadConf, if_neg nonzero]
  dsimp only
  split
  · rename_i nothing
    rw [ends] at nothing
    cases nothing
  · rename_i found
    rw [ends] at found
    cases found
    rw [line]

/-- The bytes of a line that are hashed are those of the host. -/
theorem keyOf_line (host rest : Bytes) :
    keyOf (host ++ 10 :: rest) host.length = keyOf host host.length := by
  simp [keyOf, fingerprint, hashMapGetHash]

/-- A text of whole lines with a zero byte behind it is loaded. -/
theorem hostFilterLoadConf_lines {hosts : List Bytes}
    (plain : ∀ host ∈ hosts, 0 ∉ host ∧ 10 ∉ host) (behind : Bytes)
    {table : ToolHashTable} {seen : List Fingerprint}
    (knows : Knows table seen) :
    ∃ loaded,
      hostFilterLoadConf ((hosts.map (· ++ [10])).flatten ++ 0 :: behind)
        table = some loaded ∧
      Knows loaded
        ((hosts.map fun host => keyOf host host.length).reverse ++ seen) := by
  induction hosts generalizing table seen with
  | nil =>
      refine ⟨table, ?_, knows⟩
      rw [List.map_nil, List.flatten_nil, List.nil_append,
        hostFilterLoadConf, if_pos rfl]
  | cons host hosts induction =>
      rw [List.forall_mem_cons] at plain
      have after := knows.insert
        (host ++ 10 :: ((hosts.map (· ++ [10])).flatten ++ 0 :: behind))
        host.length none
      rw [keyOf_line] at after
      obtain ⟨loaded, run, known⟩ := induction plain.2 after
      refine ⟨loaded, ?_, ?_⟩
      · have text : ((host :: hosts).map (· ++ [10])).flatten ++
            0 :: behind =
            host ++ 10 :: ((hosts.map (· ++ [10])).flatten ++
              0 :: behind) := by
          simp
        rw [text, hostFilterLoadConf_line plain.1, run]
      · simpa using known

/-- A text of whole lines is read to its end. -/
theorem hostFilterLoadConf_runs_out {hosts : List Bytes}
    (plain : ∀ host ∈ hosts, 0 ∉ host ∧ 10 ∉ host)
    (table : ToolHashTable) :
    hostFilterLoadConf (hosts.map (· ++ [10])).flatten table = none := by
  induction hosts generalizing table with
  | nil =>
      rw [List.map_nil, List.flatten_nil, hostFilterLoadConf]
  | cons host hosts induction =>
      rw [List.forall_mem_cons] at plain
      have text : ((host :: hosts).map (· ++ [10])).flatten =
          host ++ 10 :: (hosts.map (· ++ [10])).flatten := by
        simp
      rw [text, hostFilterLoadConf_line plain.1, induction plain.2]

/-- The file is loaded when mapping it leaves a zero byte behind it, and then
the table knows its hosts. -/
theorem hostFilterInit_eq (list : HostList) :
    if list.file.length % pageSize = 0 then hostFilterInit list.file = none
    else ∃ table, hostFilterInit list.file = some table ∧
      Knows table
        (list.hosts.map fun host => keyOf host host.length).reverse := by
  split
  case isTrue whole =>
    by_cases empty : list.file = []
    · rw [hostFilterInit, hostFilterReadFile, if_pos empty, Option.bind_none]
    · rw [hostFilterInit, hostFilterReadFile, if_neg empty, whole,
        Option.bind_some, Nat.sub_zero, Nat.mod_self, List.replicate_zero,
        List.append_nil]
      exact hostFilterLoadConf_runs_out list.plain _
  case isFalse partly =>
    have nonempty : list.file ≠ [] := by
      intro empty
      rw [empty] at partly
      exact partly rfl
    have below := Nat.mod_lt list.file.length (show 0 < pageSize by decide)
    obtain ⟨zeros, count⟩ : ∃ zeros,
        (pageSize - list.file.length % pageSize) % pageSize =
          zeros + 1 := by
      rw [Nat.mod_eq_of_lt (by omega)]
      exact ⟨pageSize - list.file.length % pageSize - 1, by omega⟩
    rw [hostFilterInit, hostFilterReadFile, if_neg nonempty, count,
      List.replicate_succ, Option.bind_some]
    obtain ⟨table, run, known⟩ :=
      hostFilterLoadConf_lines list.plain (List.replicate zeros 0) knows_new
    rw [List.append_nil] at known
    exact ⟨table, run, known⟩

/-- The hosts are loaded, and the answer says whether the host is one of
them. -/
def FilterRight (list : HostList) (host : Bytes) (hostLen : Int) : Prop :=
  ∃ table, hostFilterInit list.file = some table ∧
    (hostFilterCheck table host hostLen = 1 ↔
      list.Loaded (keyOf host hostLen))

theorem hostFilterCheck_eq_one_iff {table : ToolHashTable}
    {seen : List Fingerprint} (knows : Knows table seen) (host : Bytes)
    (hostLen : Int) :
    hostFilterCheck table host hostLen = 1 ↔
      keyOf host hostLen ∈ seen ∧
        inBucketZero (keyOf host hostLen) = false := by
  rw [← knows.find_pos_iff, hostFilterCheck]
  split <;> omega

/-- The filter is right for a host unless it is a loaded one of bucket 0. -/
theorem filterRight_iff (list : HostList) (host : Bytes) (hostLen : Int) :
    FilterRight list host hostLen ↔
      list.file.length % pageSize ≠ 0 ∧
        ¬ (list.Loaded (keyOf host hostLen) ∧
          inBucketZero (keyOf host hostLen) = true) := by
  have loading := hostFilterInit_eq list
  split at loading
  case isTrue whole =>
    rw [FilterRight, loading]
    simp [whole]
  case isFalse partly =>
    obtain ⟨table, run, knows⟩ := loading
    have member : keyOf host hostLen ∈
          (list.hosts.map fun host => keyOf host host.length).reverse ↔
        list.Loaded (keyOf host hostLen) := by
      rw [List.mem_reverse, List.mem_map, HostList.Loaded]
    rw [FilterRight, run, and_iff_right partly]
    constructor
    · rintro ⟨_, same, right⟩ ⟨loaded, zero⟩
      cases same
      rw [hostFilterCheck_eq_one_iff knows, member] at right
      rw [(right.mpr loaded).2] at zero
      cases zero
    · intro apart
      refine ⟨table, rfl, ?_⟩
      rw [hostFilterCheck_eq_one_iff knows, member, and_iff_left_iff_imp]
      intro loaded
      rw [← Bool.not_eq_true]
      exact fun zero => apart ⟨loaded, zero⟩

/-! ## The reports of new keys -/

/-- Bucket and hashes of the host of a call. -/
def HostCall.key (call : HostCall) : Fingerprint :=
  keyOf call.host call.len

/-- Bucket and hashes of an address. -/
def ipKey (ip : Int) : Fingerprint := keyOf (ipStr ip) (ipStr ip).length

/-- The calls write their lines inside `host_str`, and a line is written
exactly when the host comes for the first time. -/
def HostsLearned (calls : List HostCall) : Prop :=
  ∃ lines, hostLearnCalls toolHashTableNew calls = some lines ∧
    lines.map Option.isSome = FirstSeen.newAt [] (calls.map HostCall.key)

/-- The result is `-1` exactly when the address comes for the first time. -/
def IpsLearned (ips : List Int) : Prop :=
  (ipLearnCalls toolHashTableNew ips).map (fun ret => decide (ret = -1)) =
    FirstSeen.newAt [] (ips.map ipKey)

/-- No key of bucket 0 comes twice. -/
def ZeroOnce (keys : List Fingerprint) : Prop :=
  (keys.filter inBucketZero).Nodup

theorem marks_eq_newAt_iff_zeroOnce (keys : List Fingerprint) :
    FirstSeen.marks inBucketZero [] keys = FirstSeen.newAt [] keys ↔
      ZeroOnce keys := by
  rw [FirstSeen.marks_eq_newAt_iff, ZeroOnce, and_iff_right_iff_imp]
  intro _ key _ member
  cases member

section Learn

variable {table : ToolHashTable} {seen : List Fingerprint}

theorem ipLearnCalls_eq (knows : Knows table seen) (ips : List Int) :
    (ipLearnCalls table ips).map (fun ret => decide (ret = -1)) =
      FirstSeen.marks inBucketZero seen (ips.map ipKey) := by
  induction ips generalizing table seen with
  | nil => rfl
  | cons ip ips induction =>
      have answer := knows.insert_ret_iff (ipStr ip) (ipStr ip).length none
      rw [ipLearnCalls, List.map_cons, List.map_cons, FirstSeen.marks,
        List.cons.injEq]
      constructor
      · rw [Bool.eq_iff_iff, decide_eq_true_iff, FirstSeen.mark_iff, ipKey,
          ← answer, ipLearnCheck]
        simp
      · exact induction
          (knows.insert (ipStr ip) (ipStr ip).length none)

theorem ipsLearned_iff (ips : List Int) :
    IpsLearned ips ↔ ZeroOnce (ips.map ipKey) := by
  rw [IpsLearned, ipLearnCalls_eq knows_new, marks_eq_newAt_iff_zeroOnce]

/-- A marked call writes its line, any other call writes nothing. -/
theorem hostLearnCheck_eq (knows : Knows table seen) (call : HostCall) :
    hostLearnCheck table call =
      if FirstSeen.mark inBucketZero seen call.key = true then
        (store 1024 call.hostStr).map fun hostStr =>
          (some hostStr,
            (toolHashTableInsert table call.host call.len none).map)
      else
        some (none,
          (toolHashTableInsert table call.host call.len none).map) := by
  simp only [hostLearnCheck, FirstSeen.mark_iff, HostCall.key,
    ← knows.insert_ret_iff call.host call.len none]

/-- Every marked call has a line that fits into `host_str`. -/
def LinesFit (calls : List HostCall) (marked : List Bool) : Prop :=
  ∀ pair ∈ calls.zip marked, pair.2 = true → pair.1.hostStr.length < 1024

theorem linesFit_cons {call : HostCall} {calls : List HostCall}
    {mark : Bool} {marked : List Bool} :
    LinesFit (call :: calls) (mark :: marked) ↔
      (mark = true → call.hostStr.length < 1024) ∧
        LinesFit calls marked := by
  rw [LinesFit, List.zip_cons_cons, List.forall_mem_cons]
  rfl

/-- The calls go through when the lines of the marked ones fit, and these are
the lines that they write. -/
theorem hostLearnCalls_eq_some_iff (knows : Knows table seen)
    (calls : List HostCall) (marked : List Bool) :
    (∃ lines, hostLearnCalls table calls = some lines ∧
        lines.map Option.isSome = marked) ↔
      LinesFit calls
          (FirstSeen.marks inBucketZero seen (calls.map HostCall.key)) ∧
        FirstSeen.marks inBucketZero seen (calls.map HostCall.key) =
          marked := by
  induction calls generalizing table seen marked with
  | nil => simp [hostLearnCalls, FirstSeen.marks, LinesFit]
  | cons call calls induction =>
      have next := fun marked =>
        induction (knows.insert call.host call.len none) marked
      rw [List.map_cons, FirstSeen.marks, linesFit_cons, hostLearnCalls,
        hostLearnCheck_eq knows]
      generalize (toolHashTableInsert table call.host call.len none).map =
        after at next ⊢
      change ∀ marked, _ ↔ LinesFit calls (FirstSeen.marks inBucketZero
        (call.key :: seen) _) ∧ FirstSeen.marks inBucketZero
          (call.key :: seen) _ = marked at next
      cases answer : FirstSeen.mark inBucketZero seen call.key with
      | false =>
          constructor
          · rintro ⟨lines, run, rfl⟩
            obtain ⟨rest, tail, rfl⟩ := Option.map_eq_some_iff.mp run
            obtain ⟨fit, same⟩ := (next _).mp ⟨rest, tail, rfl⟩
            exact ⟨⟨by simp, fit⟩, by rw [same]; rfl⟩
          · rintro ⟨⟨_, fit⟩, rfl⟩
            obtain ⟨rest, tail, same⟩ := (next _).mpr ⟨fit, rfl⟩
            refine ⟨none :: rest, ?_, by rw [← same]; rfl⟩
            simp [tail]
      | true =>
          constructor
          · rintro ⟨lines, run, rfl⟩
            obtain ⟨answer, wrote, run⟩ := Option.bind_eq_some_iff.mp run
            obtain ⟨hostStr, stored, rfl⟩ := Option.map_eq_some_iff.mp wrote
            obtain ⟨rest, tail, rfl⟩ := Option.map_eq_some_iff.mp run
            obtain ⟨fit, same⟩ := (next _).mp ⟨rest, tail, rfl⟩
            have room := (store_eq_some_iff.mp stored).1
            exact ⟨⟨fun _ => room, fit⟩, by rw [same]; rfl⟩
          · rintro ⟨⟨room, fit⟩, rfl⟩
            obtain ⟨rest, tail, same⟩ := (next _).mpr ⟨fit, rfl⟩
            refine ⟨some call.hostStr :: rest, ?_, by rw [← same]; rfl⟩
            simp [store, room, tail]

end Learn

theorem hostsLearned_iff (calls : List HostCall) :
    HostsLearned calls ↔
      ZeroOnce (calls.map HostCall.key) ∧
        LinesFit calls (FirstSeen.newAt [] (calls.map HostCall.key)) := by
  rw [HostsLearned, hostLearnCalls_eq_some_iff knows_new, and_comm,
    ← marks_eq_newAt_iff_zeroOnce]
  refine and_congr_right ?_
  intro same
  rw [same]

/-! ## The three filters -/

/-- The filter of the loaded hosts is wrong for the loaded hosts of bucket 0
only, and the two learners for the sequences in which a key of bucket 0 comes
back or a new host does not fit into `host_str`. -/
theorem memberships_iff (list : HostList) (host : Bytes) (hostLen : Int)
    (calls : List HostCall) (ips : List Int) :
    (FilterRight list host hostLen ↔
      list.file.length % pageSize ≠ 0 ∧
        ¬ (list.Loaded (keyOf host hostLen) ∧
          inBucketZero (keyOf host hostLen) = true)) ∧
    (HostsLearned calls ↔
      ZeroOnce (calls.map HostCall.key) ∧
        LinesFit calls (FirstSeen.newAt [] (calls.map HostCall.key))) ∧
    (IpsLearned ips ↔ ZeroOnce (ips.map ipKey)) :=
  ⟨filterRight_iff list host hostLen, hostsLearned_iff calls,
    ipsLearned_iff ips⟩

/-- A list with the one host `pxc.com`, whose bucket is 0. -/
def zeroHost : HostList where
  hosts := [ascii "pxc.com"]
  plain := by decide

/-- A call with the host `pxc.com`. -/
def zeroCall : HostCall where
  host := ascii "pxc.com"
  len := 7

/-- The loaded host is not found, the host is written twice, and the address
10.0.22.150 is new twice. -/
theorem not_memberships_bucketZero :
    ¬ FilterRight zeroHost (ascii "pxc.com") 7 ∧
      ¬ HostsLearned [zeroCall, zeroCall] ∧
        ¬ IpsLearned [0x0A001696, 0x0A001696] := by
  refine ⟨?_, ?_, ?_⟩
  · intro right
    refine ((filterRight_iff _ _ _).mp right).2 ⟨?_, by decide +kernel⟩
    exact ⟨_, List.mem_cons_self, rfl⟩
  · intro learned
    have once := ((hostsLearned_iff _).mp learned).1
    unfold ZeroOnce at once
    revert once
    decide +kernel
  · intro learned
    have once := (ipsLearned_iff _).mp learned
    unfold ZeroOnce at once
    revert once
    decide +kernel

end WindowSystem.Client.HostFilters
