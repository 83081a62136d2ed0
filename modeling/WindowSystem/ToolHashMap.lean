import Mathlib.Data.Finset.Card
import Mathlib.Data.List.ReduceOption
import WindowSystem.CRuntime
import WindowSystem.Library.BucketTable

/-!
# The string hash map of the server

`tool_hash_map_new.c` keeps every table of the server: a bucket array with
chained nodes that store two hashes of the key instead of the key.  A key is
therefore known to the map only by its fingerprint, the bucket and the two
hashes.  The table instantiates `Library.BucketTable`; the last section proves
what searches return after any sequence of insertions.
-/

namespace WindowSystem.ToolHashMap

open WindowSystem.CRuntime
open WindowSystem.Library

/-! ## The hash function -/

/-- One draw of the generator that fills the crypt table. -/
def nextSeed (seed : Nat) : Nat :=
  (seed * 125 + 3) % 0x2AAAAB

/-- The generator after a number of draws. -/
def cryptSeed : Nat → Nat
  | 0 => 0x00100001
  | draws + 1 => nextSeed (cryptSeed draws)

/--
`g_tool_crypt_table` after `hash_map_init_crypt_table`.

The outer loop runs over `index1 < 0x100`, the inner one over the five cells
`index1 + i * 0x100`, and each cell takes two draws.
-/
def toolCryptTable (index2 : Nat) : UInt64 :=
  let draws := 2 * (5 * (index2 % 0x100) + index2 / 0x100)
  let temp1 := (cryptSeed (draws + 1) &&& 0xFFFF) <<< 0x10
  let temp2 := cryptSeed (draws + 2) &&& 0xFFFF
  UInt64.ofNat (temp1 ||| temp2)

/-- The loop of `hash_map_get_hash`: at most `len` bytes, up to a zero byte. -/
def hashLoop (dwHashType : Nat) : Bytes → UInt64 → UInt64 → UInt64
  | [], seed1, _ => seed1
  | ch :: key, seed1, seed2 =>
      if ch = 0 then seed1
      else
        let seed1' :=
          toolCryptTable ((dwHashType <<< 8) + ch.toNat) ^^^ (seed1 + seed2)
        let seed2' :=
          UInt64.ofNat ch.toNat + seed1' + seed2 + (seed2 <<< 5) + 3
        hashLoop dwHashType key seed1' seed2'

/-- `hash_map_get_hash`; a negative length reads nothing. -/
def hashMapGetHash (start : Bytes) (len : Int) (dwHashType : Nat) : UInt64 :=
  hashLoop dwHashType (start.take len.toNat) 0x7FED7FED 0xEEEEEEEE

/-- `hash_map_hash_value`. -/
def hashMapHashValue (start : Bytes) (len : Int) : UInt32 :=
  (hashMapGetHash start len 0).toUInt32

theorem hashLoop_cString (dwHashType : Nat) (key : Bytes)
    (seed1 seed2 : UInt64) :
    hashLoop dwHashType (cString key) seed1 seed2 =
      hashLoop dwHashType key seed1 seed2 := by
  induction key generalizing seed1 seed2 with
  | nil => rfl
  | cons ch key induction =>
      by_cases zero : ch = 0
      · subst ch
        simp [cString, hashLoop]
      · have kept : cString (ch :: key) = ch :: cString key := by
          simp [cString, zero]
        rw [kept, hashLoop, hashLoop, if_neg zero, if_neg zero]
        exact induction _ _

/-! ## The table -/

/-- `struct TOOL_HASH_NODE`; a value pointer is `none` when it is `NULL`. -/
structure ToolHashNode (V : Type*) where
  hashA : UInt32
  hashB : UInt32
  value : Option V

/-- What identifies a node inside its bucket. -/
def ToolHashNode.tag {V : Type*} (node : ToolHashNode V) : UInt32 × UInt32 :=
  (node.hashA, node.hashB)

/-- `HashMap`; every bucket holds the chain that its pointer leads to. -/
structure HashMap (V : Type*) where
  hashLen : UInt32
  size : UInt32
  ppHashNode : UInt32 → List (ToolHashNode V)

/-- Bucket and hashes under which a key is stored. -/
abbrev Fingerprint := UInt32 × UInt32 × UInt32

/-- The fingerprint of a key in a map with `hashLen` buckets. -/
def fingerprint (hashLen : UInt32) (start : Bytes) (len : Int) :
    Fingerprint :=
  ((hashMapGetHash start len 0).toUInt32 % hashLen,
    (hashMapGetHash start len 1).toUInt32,
    (hashMapGetHash start len 2).toUInt32)

/-- A fingerprint is that of the key up to its length or its first zero byte. -/
theorem fingerprint_cString (hashLen : UInt32) (start : Bytes) (len : Int) :
    fingerprint hashLen start len =
      fingerprint hashLen (cString (start.take len.toNat))
        (cString (start.take len.toNat)).length := by
  simp only [fingerprint, hashMapGetHash, Int.toNat_natCast, List.take_length,
    hashLoop_cString]

/-- A length beyond the end of the string reads the whole string. -/
theorem fingerprint_of_length_le {start : Bytes} {len : Int}
    (enough : (start.length : Int) ≤ len) (hashLen : UInt32) :
    fingerprint hashLen start len =
      fingerprint hashLen start start.length := by
  have whole : start.take len.toNat = start :=
    List.take_of_length_le (by omega)
  simp [fingerprint, hashMapGetHash, whole]

/-- What a call leaves behind: its return value, the map, and the value
written through `out_val` when the call wrote one. -/
structure Probe (V : Type*) where
  ret : Int
  map : HashMap V
  handedOut : Option (Option V)

variable {V : Type*}

/--
`hash_map_check_append`.

In an insertion `out_val` is the value pointer itself; in a search it is the
cell of the caller, and `handedOut` is what is stored there.
-/
def hashMapCheckAppend (sHashMap : HashMap V) (start : Bytes) (len : Int)
    (inVal : Option V) (bInsert : Bool) (outVal : Option V)
    (hashLen : UInt32) : Probe V :=
  let nHash := (hashMapGetHash start len 0).toUInt32
  let nHashA := (hashMapGetHash start len 1).toUInt32
  let nHashB := (hashMapGetHash start len 2).toUInt32
  let nHashPos := nHash % hashLen
  let chain := sHashMap.ppHashNode nHashPos
  match BucketTable.findNode ToolHashNode.tag (nHashA, nHashB) chain with
  | some currNode =>
      if bInsert then
        let update (node : ToolHashNode V) : ToolHashNode V :=
          match outVal with
          | some pointer => { node with value := some pointer }
          | none => node
        { ret := toInt32 nHashPos.toNat
          map :=
            { sHashMap with
              ppHashNode :=
                Function.update sHashMap.ppHashNode nHashPos
                  (BucketTable.updateNode ToolHashNode.tag
                    (nHashA, nHashB) update chain) }
          handedOut := none }
      else
        { ret := toInt32 nHashPos.toNat
          map := sHashMap
          handedOut := some currNode.value }
  | none =>
      if bInsert then
        let nextNode : ToolHashNode V :=
          { hashA := nHashA, hashB := nHashB, value := inVal }
        { ret := 0
          map :=
            { sHashMap with
              size := sHashMap.size + 1
              ppHashNode :=
                Function.update sHashMap.ppHashNode nHashPos
                  (nextNode :: chain) }
          handedOut := none }
      else
        { ret := -1, map := sHashMap, handedOut := none }

/-- `hash_map_find`. -/
def hashMapFind (psHashMap : HashMap V) (start : Bytes) (len : Int) :
    Probe V :=
  hashMapCheckAppend psHashMap start len none false none psHashMap.hashLen

/-- `hash_map_insert`. -/
def hashMapInsert (psHashMap : HashMap V) (start : Bytes) (len : Int)
    (inVal : Option V) : HashMap V :=
  (hashMapCheckAppend psHashMap start len inVal true inVal
    psHashMap.hashLen).map

/-- `hash_map_new`. -/
def hashMapNew (length : UInt32) : HashMap V where
  hashLen := length
  size := 0
  ppHashNode _ := []

/-! ## What one call does -/

/-- The value pointer stored under a fingerprint.  The outer `none` says that
no node carries the fingerprint, the inner one is a `NULL` value. -/
def HashMap.lookup (map : HashMap V) (key : Fingerprint) :
    Option (Option V) :=
  (BucketTable.lookup ToolHashNode.tag map.ppHashNode key).map
    ToolHashNode.value

@[simp]
theorem lookup_hashMapNew (length : UInt32) (key : Fingerprint) :
    (hashMapNew length : HashMap V).lookup key = none := rfl

@[simp]
theorem hashLen_hashMapNew (length : UInt32) :
    (hashMapNew length : HashMap V).hashLen = length := rfl

/-- A search reads the table and changes nothing. -/
theorem hashMapFind_eq (map : HashMap V) (start : Bytes) (len : Int) :
    hashMapFind map start len =
      { ret :=
          if (map.lookup (fingerprint map.hashLen start len)).isSome then
            toInt32 (fingerprint map.hashLen start len).1.toNat
          else -1
        map := map
        handedOut := map.lookup (fingerprint map.hashLen start len) } := by
  simp only [hashMapFind, hashMapCheckAppend, HashMap.lookup,
    BucketTable.lookup, fingerprint, Bool.false_eq_true, if_false]
  split
  · rename_i node found
    simp [found]
  · rename_i found
    simp [found]

/-- The update that an insertion makes in a node it finds. -/
def overwrite (inVal : Option V) (node : ToolHashNode V) : ToolHashNode V :=
  match inVal with
  | some pointer => { node with value := some pointer }
  | none => node

@[simp]
theorem tag_overwrite (inVal : Option V) (node : ToolHashNode V) :
    (overwrite inVal node).tag = node.tag := by
  cases inVal with
  | none => rfl
  | some pointer => rfl

@[simp]
theorem value_overwrite (inVal : Option V) (node : ToolHashNode V) :
    (overwrite inVal node).value = inVal.or node.value := by
  cases inVal with
  | none => rfl
  | some pointer => rfl

/-- The node that an insertion creates when its search fails. -/
def freshNode (key : Fingerprint) (inVal : Option V) : ToolHashNode V where
  hashA := key.2.1
  hashB := key.2.2
  value := inVal

@[simp]
theorem tag_freshNode (key : Fingerprint) (inVal : Option V) :
    (freshNode key inVal).tag = key.2 := rfl

/-- The buckets after an insertion are those of the library's `upsert`. -/
theorem ppHashNode_hashMapInsert (map : HashMap V) (start : Bytes)
    (len : Int) (inVal : Option V) :
    (hashMapInsert map start len inVal).ppHashNode =
      BucketTable.upsert ToolHashNode.tag map.ppHashNode
        (fingerprint map.hashLen start len).1
        (freshNode (fingerprint map.hashLen start len) inVal)
        (overwrite inVal) := by
  simp only [hashMapInsert, hashMapCheckAppend, BucketTable.upsert,
    fingerprint, if_true]
  split
  · rename_i node found
    simp only [freshNode, ToolHashNode.tag, found]
    rfl
  · rename_i found
    simp only [freshNode, ToolHashNode.tag, found]

@[simp]
theorem hashLen_hashMapInsert (map : HashMap V) (start : Bytes)
    (len : Int) (inVal : Option V) :
    (hashMapInsert map start len inVal).hashLen = map.hashLen := by
  simp only [hashMapInsert, hashMapCheckAppend, if_true]
  split <;> rfl

theorem size_hashMapInsert (map : HashMap V) (start : Bytes)
    (len : Int) (inVal : Option V) :
    (hashMapInsert map start len inVal).size =
      if (map.lookup (fingerprint map.hashLen start len)).isSome then map.size
      else map.size + 1 := by
  simp only [hashMapInsert, hashMapCheckAppend, if_true, HashMap.lookup,
    BucketTable.lookup, fingerprint]
  split
  · rename_i node found
    simp [found]
  · rename_i found
    simp [found]

theorem lookup_hashMapInsert_same (map : HashMap V) (start : Bytes)
    (len : Int) (inVal : Option V) :
    (hashMapInsert map start len inVal).lookup
        (fingerprint map.hashLen start len) =
      some (inVal.or
        (map.lookup (fingerprint map.hashLen start len)).join) := by
  have found :=
    BucketTable.lookup_upsert_same (tag_overwrite inVal) map.ppHashNode
      (fingerprint map.hashLen start len).1
      (freshNode (fingerprint map.hashLen start len) inVal)
  rw [tag_freshNode, Prod.mk.eta] at found
  rw [HashMap.lookup, ppHashNode_hashMapInsert, HashMap.lookup, found]
  cases BucketTable.lookup ToolHashNode.tag map.ppHashNode
      (fingerprint map.hashLen start len) with
  | none => cases inVal <;> rfl
  | some node => simp

theorem lookup_hashMapInsert_other (map : HashMap V) (start : Bytes)
    (len : Int) (inVal : Option V) {key : Fingerprint}
    (different : key ≠ fingerprint map.hashLen start len) :
    (hashMapInsert map start len inVal).lookup key = map.lookup key := by
  rw [HashMap.lookup, ppHashNode_hashMapInsert, HashMap.lookup,
    BucketTable.lookup_upsert_other (tag_overwrite inVal) _ _ _ different]

/-- The position of a bucket is never the `-1` of a failed search. -/
theorem toInt32_bucket_ne {hashLen : UInt32} (positive : 0 < hashLen)
    (nHash : UInt32) :
    toInt32 (nHash % hashLen).toNat ≠ -1 := by
  have below : (nHash % hashLen).toNat < hashLen.toNat := by
    rw [UInt32.toNat_mod]
    exact Nat.mod_lt _ positive
  have wordSize := hashLen.toNat_lt
  rw [toInt32, Int.bmod_def]
  split <;> omega

theorem toInt32_bucket_nonneg {hashLen : UInt32} (positive : 0 < hashLen)
    (small : hashLen.toNat ≤ 2 ^ 31) (nHash : UInt32) :
    0 ≤ toInt32 (nHash % hashLen).toNat := by
  have below : (nHash % hashLen).toNat < hashLen.toNat := by
    rw [UInt32.toNat_mod]
    exact Nat.mod_lt _ positive
  rw [toInt32_of_range] <;> omega

theorem ret_hashMapFind_ne_iff {map : HashMap V}
    (positive : 0 < map.hashLen) (start : Bytes) (len : Int) :
    (hashMapFind map start len).ret ≠ -1 ↔
      (map.lookup (fingerprint map.hashLen start len)).isSome := by
  rw [hashMapFind_eq]
  dsimp only
  split
  · rename_i found
    exact iff_of_true (toInt32_bucket_ne positive _) found
  · rename_i missing
    simp [missing]

/-- The test `>= 0` of the callers, in a table of at most `2 ^ 31` buckets. -/
theorem ret_hashMapFind_nonneg_iff {map : HashMap V}
    (positive : 0 < map.hashLen) (small : map.hashLen.toNat ≤ 2 ^ 31)
    (start : Bytes) (len : Int) :
    0 ≤ (hashMapFind map start len).ret ↔
      (map.lookup (fingerprint map.hashLen start len)).isSome := by
  rw [hashMapFind_eq]
  dsimp only
  split
  · rename_i found
    exact iff_of_true (toInt32_bucket_nonneg positive small _) found
  · rename_i missing
    simp [missing]

/-- The bucket counts for which the callers' test is right. -/
def HashMap.Searchable (map : HashMap V) : Prop :=
  0 < map.hashLen ∧ map.hashLen.toNat ≤ 2 ^ 31

/--
What the callers do with a search: they test the result with `>= 0` and then
use the object behind the handed-out pointer.

`none` is the use of a `NULL` pointer, `some none` a failed search.
-/
def findObject (map : HashMap V) (start : Bytes) (len : Int) :
    Option (Option V) :=
  let probe := hashMapFind map start len
  if 0 ≤ probe.ret then probe.handedOut.join.map some else some none

theorem findObject_eq {map : HashMap V} (searchable : map.Searchable)
    (start : Bytes) (len : Int) :
    findObject map start len =
      match map.lookup (fingerprint map.hashLen start len) with
      | none => some none
      | some pointer => pointer.map some := by
  have found :=
    ret_hashMapFind_nonneg_iff searchable.1 searchable.2 start len
  have handed :
      (hashMapFind map start len).handedOut =
        map.lookup (fingerprint map.hashLen start len) := by
    rw [hashMapFind_eq]
  rw [findObject]
  rw [handed]
  cases stored : map.lookup (fingerprint map.hashLen start len) with
  | none =>
      rw [stored] at found
      rw [if_neg (mt found.mp (by simp))]
  | some pointer =>
      rw [stored] at found
      rw [if_pos (found.mpr rfl)]
      rfl

theorem findObject_eq_missing_iff {map : HashMap V}
    (searchable : map.Searchable) {start : Bytes} {len : Int} :
    findObject map start len = some none ↔
      map.lookup (fingerprint map.hashLen start len) = none := by
  rw [findObject_eq searchable]
  cases map.lookup (fingerprint map.hashLen start len) with
  | none => simp
  | some pointer => cases pointer <;> simp

theorem findObject_eq_found_iff {map : HashMap V}
    (searchable : map.Searchable) {start : Bytes} {len : Int}
    {value : V} :
    findObject map start len = some (some value) ↔
      map.lookup (fingerprint map.hashLen start len) =
        some (some value) := by
  rw [findObject_eq searchable]
  cases map.lookup (fingerprint map.hashLen start len) with
  | none => simp
  | some pointer => cases pointer <;> simp

/-- What depends on a search: the key is missing, or a value is handed out. -/
theorem findObject_map_cases {map : HashMap V} {β : Type}
    {next : Option V → β} {result : β} {start : Bytes} {len : Int}
    (searchable : map.Searchable)
    (run : (findObject map start len).map next = some result) :
    (map.lookup (fingerprint map.hashLen start len) = none ∧
        next none = result) ∨
      ∃ value,
        map.lookup (fingerprint map.hashLen start len) =
          some (some value) ∧
        next (some value) = result := by
  obtain ⟨_ | value, found, equal⟩ := Option.map_eq_some_iff.mp run
  · exact Or.inl ⟨(findObject_eq_missing_iff searchable).mp found, equal⟩
  · exact Or.inr
      ⟨value, (findObject_eq_found_iff searchable).mp found, equal⟩

/-- A call that searches and answers with a table keeps its length. -/
theorem hashLen_of_findObject_map {map map' : HashMap V} {β : Type}
    {next : Option V → β × HashMap V} {answer : β} {start : Bytes}
    {len : Int} (keeps : ∀ object, (next object).2.hashLen = map.hashLen)
    (run : (findObject map start len).map next = some (answer, map')) :
    map'.hashLen = map.hashLen := by
  obtain ⟨object, _, equal⟩ := Option.map_eq_some_iff.mp run
  rw [← keeps object, equal]

/-! ## Writing through a handed-out pointer -/

/-- A node whose value pointer is kept while its object is written to. -/
def writeNode (write : V → V) (node : ToolHashNode V) : ToolHashNode V :=
  { node with value := node.value.map write }

@[simp]
theorem tag_writeNode (write : V → V) (node : ToolHashNode V) :
    (writeNode write node).tag = node.tag := rfl

/-- The object behind a stored value pointer after its holder has written to
it; the table keeps the pointer itself. -/
def HashMap.writeValue (map : HashMap V) (key : Fingerprint)
    (write : V → V) : HashMap V :=
  { map with
    ppHashNode :=
      BucketTable.modify ToolHashNode.tag map.ppHashNode key
        (writeNode write) }

theorem lookup_writeValue_same (map : HashMap V) (key : Fingerprint)
    (write : V → V) :
    (map.writeValue key write).lookup key =
      (map.lookup key).map (Option.map write) := by
  rw [HashMap.lookup, HashMap.writeValue,
    BucketTable.lookup_modify_same (tag_writeNode write), HashMap.lookup]
  cases BucketTable.lookup ToolHashNode.tag map.ppHashNode key with
  | none => rfl
  | some node => rfl

theorem lookup_writeValue_other (map : HashMap V)
    {key other : Fingerprint} (different : other ≠ key)
    (write : V → V) :
    (map.writeValue key write).lookup other = map.lookup other := by
  rw [HashMap.lookup, HashMap.writeValue,
    BucketTable.lookup_modify_other (tag_writeNode write) _ different,
    HashMap.lookup]

/-! ## Several tables -/

section Family

variable {ι : Type*} [DecidableEq ι]

/-- A change of one of several tables that leaves all fingerprints but one
alone leaves all other fingerprints of all tables alone. -/
theorem lookup_update_other {tables : ι → HashMap V} {place : ι}
    {table : HashMap V} {key : Fingerprint}
    (agrees : ∀ {other}, other ≠ key →
      table.lookup other = (tables place).lookup other)
    {otherPlace : ι} {otherKey : Fingerprint}
    (different : (otherPlace, otherKey) ≠ (place, key)) :
    (Function.update tables place table otherPlace).lookup otherKey =
      (tables otherPlace).lookup otherKey := by
  by_cases samePlace : otherPlace = place
  · subst samePlace
    rw [Function.update_self]
    refine agrees fun sameKey => different ?_
    rw [sameKey]
  · rw [Function.update_of_ne samePlace]

theorem hashLen_update {tables : ι → HashMap V} {place : ι}
    {table : HashMap V} (length : table.hashLen = (tables place).hashLen)
    (other : ι) :
    (Function.update tables place table other).hashLen =
      (tables other).hashLen := by
  by_cases samePlace : other = place
  · rw [samePlace, Function.update_self, length]
  · rw [Function.update_of_ne samePlace]

end Family

/-! ## Sequences of insertions -/

/-- The arguments of one call of `hash_map_insert`. -/
structure Insertion (V : Type*) where
  start : Bytes
  len : Int
  inVal : Option V

/-- The fingerprint of the inserted key. -/
def Insertion.key (hashLen : UInt32) (call : Insertion V) : Fingerprint :=
  fingerprint hashLen call.start call.len

/-- The table after a sequence of insertions. -/
def insertAll (map : HashMap V) (calls : List (Insertion V)) : HashMap V :=
  calls.foldl
    (fun map call => hashMapInsert map call.start call.len call.inVal) map

/-- The values inserted under one fingerprint, in the order of the calls. -/
def insertedUnder (hashLen : UInt32) (key : Fingerprint)
    (calls : List (Insertion V)) : List (Option V) :=
  (calls.filter fun call => call.key hashLen = key).map Insertion.inVal

/-- The last value that is not `NULL`. -/
def lastNonNull (values : List (Option V)) : Option V :=
  values.reduceOption.getLast?

theorem insertAll_append_singleton (map : HashMap V)
    (calls : List (Insertion V)) (call : Insertion V) :
    insertAll map (calls ++ [call]) =
      hashMapInsert (insertAll map calls) call.start call.len call.inVal := by
  simp [insertAll]

theorem hashLen_insertAll (map : HashMap V) (calls : List (Insertion V)) :
    (insertAll map calls).hashLen = map.hashLen := by
  induction calls using List.reverseRecOn with
  | nil => rfl
  | append_singleton calls call induction =>
      rw [insertAll_append_singleton, hashLen_hashMapInsert, induction]

theorem insertedUnder_append_same (hashLen : UInt32)
    (calls : List (Insertion V)) (call : Insertion V) :
    insertedUnder hashLen (call.key hashLen) (calls ++ [call]) =
      insertedUnder hashLen (call.key hashLen) calls ++ [call.inVal] := by
  simp [insertedUnder]

theorem insertedUnder_append_other {hashLen : UInt32} {key : Fingerprint}
    (calls : List (Insertion V)) {call : Insertion V}
    (different : key ≠ call.key hashLen) :
    insertedUnder hashLen key (calls ++ [call]) =
      insertedUnder hashLen key calls := by
  simp [insertedUnder, Ne.symm different]

theorem insertedUnder_eq_nil_iff {hashLen : UInt32} {key : Fingerprint}
    {calls : List (Insertion V)} :
    insertedUnder hashLen key calls = [] ↔
      ∀ call ∈ calls, call.key hashLen ≠ key := by
  simp [insertedUnder]

theorem lastNonNull_append (values : List (Option V)) (value : Option V) :
    lastNonNull (values ++ [value]) = value.or (lastNonNull values) := by
  cases value with
  | none => simp [lastNonNull, List.reduceOption_append]
  | some pointer => simp [lastNonNull, List.reduceOption_append]

/-- What a search hands out after a sequence of insertions. -/
theorem lookup_insertAll (length : UInt32) (calls : List (Insertion V))
    (key : Fingerprint) :
    (insertAll (hashMapNew length) calls).lookup key =
      if insertedUnder length key calls = [] then none
      else some (lastNonNull (insertedUnder length key calls)) := by
  induction calls using List.reverseRecOn with
  | nil => rfl
  | append_singleton calls call induction =>
      have length_kept :
          (insertAll (hashMapNew length : HashMap V) calls).hashLen =
            length := hashLen_insertAll _ _
      rw [insertAll_append_singleton]
      by_cases equal : key = call.key length
      · subst equal
        have same :=
          lookup_hashMapInsert_same
            (insertAll (hashMapNew length) calls) call.start call.len
            call.inVal
        rw [length_kept] at same
        rw [insertedUnder_append_same, if_neg (by simp),
          lastNonNull_append]
        refine same.trans (congrArg some (congrArg _ ?_))
        refine (congrArg Option.join induction).trans ?_
        by_cases fresh :
            insertedUnder length (call.key length) calls = []
        · simp [fresh, lastNonNull]
        · simp [fresh]
      · rw [lookup_hashMapInsert_other _ _ _ _
          (by rw [length_kept]; exact equal), induction,
          insertedUnder_append_other calls equal]

theorem lookup_insertAll_isSome_iff {length : UInt32}
    {calls : List (Insertion V)} {key : Fingerprint} :
    ((insertAll (hashMapNew length) calls).lookup key).isSome ↔
      ∃ call ∈ calls, call.key length = key := by
  rw [lookup_insertAll]
  by_cases fresh : insertedUnder length key calls = []
  · have absent := insertedUnder_eq_nil_iff.mp fresh
    simp only [fresh, if_true, Option.isSome_none, Bool.false_eq_true,
      false_iff, not_exists, not_and]
    exact absent
  · have present := mt insertedUnder_eq_nil_iff.mpr fresh
    push Not at present
    simpa [fresh] using present

/-- The counter of the table counts fingerprints. -/
theorem size_insertAll (length : UInt32) (calls : List (Insertion V)) :
    (insertAll (hashMapNew length) calls).size =
      UInt32.ofNat (calls.map (Insertion.key length)).toFinset.card := by
  induction calls using List.reverseRecOn with
  | nil => rfl
  | append_singleton calls call induction =>
      have length_kept :
          (insertAll (hashMapNew length : HashMap V) calls).hashLen =
            length := hashLen_insertAll _ _
      have member :
          ((insertAll (hashMapNew length) calls).lookup
              (call.key length)).isSome ↔
            call.key length ∈
              (calls.map (Insertion.key length)).toFinset := by
        rw [lookup_insertAll_isSome_iff]
        simp
      rw [insertAll_append_singleton, size_hashMapInsert, length_kept,
        List.map_append, List.toFinset_append, List.map_singleton,
        List.toFinset_cons, List.toFinset_nil, insert_empty_eq,
        Finset.union_comm, ← Finset.insert_eq]
      change (if (((insertAll (hashMapNew length) calls).lookup
        (call.key length)).isSome = true) then _ else _) = _
      by_cases known :
          call.key length ∈ (calls.map (Insertion.key length)).toFinset
      · rw [if_pos (member.mpr known), Finset.insert_eq_of_mem known,
          induction]
      · rw [if_neg (mt member.mp known), Finset.card_insert_of_notMem known,
          induction, UInt32.ofNat_add]
        rfl

/-- No chain ever holds two nodes for one fingerprint. -/
theorem distinct_insertAll (length : UInt32) (calls : List (Insertion V)) :
    BucketTable.Distinct ToolHashNode.tag
      (insertAll (hashMapNew length) calls).ppHashNode := by
  induction calls using List.reverseRecOn with
  | nil => exact BucketTable.Distinct.empty
  | append_singleton calls call induction =>
      rw [insertAll_append_singleton, ppHashNode_hashMapInsert]
      exact induction.upsert (tag_overwrite _) _ _

/--
The table over whole runs of insertions.

A search succeeds exactly for the fingerprints inserted, hands out the last
non-null value, the size counts fingerprints, and an insertion is invisible
under every other fingerprint.  A fingerprint is that of the key up to its
length or its first zero byte, and each is at most once in its chain.
-/
theorem hashMap_after_insertions (length : UInt32) (positive : 0 < length)
    (calls : List (Insertion V)) :
    (∀ (start : Bytes) (len : Int),
      ((hashMapFind (insertAll (hashMapNew length) calls) start len).ret ≠ -1
        ↔ ∃ call ∈ calls,
            call.key length = fingerprint length start len) ∧
      (length.toNat ≤ 2 ^ 31 →
        (0 ≤ (hashMapFind (insertAll (hashMapNew length) calls)
            start len).ret ↔
          ∃ call ∈ calls,
            call.key length = fingerprint length start len)) ∧
      ((∃ call ∈ calls, call.key length = fingerprint length start len) →
        (hashMapFind (insertAll (hashMapNew length) calls)
            start len).handedOut =
          some (lastNonNull
            (insertedUnder length (fingerprint length start len) calls))))
    ∧ (insertAll (hashMapNew length) calls).size =
        UInt32.ofNat (calls.map (Insertion.key length)).toFinset.card
    ∧ (∀ (call : Insertion V) (start : Bytes) (len : Int),
        fingerprint length start len ≠ call.key length →
        (hashMapFind (insertAll (hashMapNew length) (calls ++ [call]))
            start len).ret =
          (hashMapFind (insertAll (hashMapNew length) calls)
            start len).ret ∧
        (hashMapFind (insertAll (hashMapNew length) (calls ++ [call]))
            start len).handedOut =
          (hashMapFind (insertAll (hashMapNew length) calls)
            start len).handedOut)
    ∧ (∀ (start : Bytes) (len : Int),
        fingerprint length start len =
          fingerprint length (cString (start.take len.toNat))
            (cString (start.take len.toNat)).length)
    ∧ BucketTable.Distinct ToolHashNode.tag
        (insertAll (hashMapNew length) calls).ppHashNode := by
  have lengthKept (calls : List (Insertion V)) :
      (insertAll (hashMapNew length) calls).hashLen = length :=
    hashLen_insertAll _ _
  refine ⟨fun start len => ⟨?_, fun small => ?_, fun inserted => ?_⟩,
    size_insertAll length calls, fun call start len different => ?_,
    fingerprint_cString length, distinct_insertAll length calls⟩
  · rw [ret_hashMapFind_ne_iff (by rw [lengthKept]; exact positive),
      lengthKept, lookup_insertAll_isSome_iff]
  · rw [ret_hashMapFind_nonneg_iff (by rw [lengthKept]; exact positive)
      (by rw [lengthKept]; exact small), lengthKept,
      lookup_insertAll_isSome_iff]
  · have found := lookup_insertAll_isSome_iff.mpr inserted
    rw [hashMapFind_eq]
    dsimp only
    rw [lengthKept, lookup_insertAll]
    rw [lookup_insertAll] at found
    split at found
    · cases found
    · rename_i present
      rw [if_neg present]
  · have unseen :
        (insertAll (hashMapNew length) (calls ++ [call])).lookup
            (fingerprint length start len) =
          (insertAll (hashMapNew length) calls).lookup
            (fingerprint length start len) := by
      rw [insertAll_append_singleton]
      exact lookup_hashMapInsert_other _ _ _ _
        (by rw [lengthKept]; exact different)
    rw [hashMapFind_eq, hashMapFind_eq]
    dsimp only
    rw [lengthKept, lengthKept, unseen]
    exact ⟨rfl, rfl⟩

/-- Three insertions under two fingerprints. -/
def threeInsertions : List (Insertion Nat) :=
  [ { start := ascii "13800000000", len := 11, inVal := some 1 },
    { start := ascii "13800000000", len := 11, inVal := none },
    { start := ascii "13800000001", len := 11, inVal := none } ]

theorem hashMap_after_threeInsertions :
    (0 : UInt32) < 250000 ∧
      (insertAll (hashMapNew 250000) threeInsertions).size = 2 ∧
      (hashMapFind (insertAll (hashMapNew 250000) threeInsertions)
        (ascii "13800000000") 11).handedOut = some (some 1) := by
  have law :=
    hashMap_after_insertions 250000 (by decide) threeInsertions
  refine ⟨by decide, law.2.1.trans (by decide +kernel), ?_⟩
  have inserted :
      ∃ call ∈ threeInsertions,
        call.key 250000 = fingerprint 250000 (ascii "13800000000") 11 :=
    ⟨_, List.mem_cons_self, rfl⟩
  exact ((law.1 (ascii "13800000000") 11).2.2 inserted).trans
    (by decide +kernel)

end WindowSystem.ToolHashMap
