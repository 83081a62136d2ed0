import Mathlib.Data.Finset.Card
import WindowSystem.Library.ChainHeap
import WindowSystem.Library.LabelledRun
import WindowSystem.ToolHashMap

/-!
# The nodes of the string hash map

`tool_hash_map_new.c` at the level of its pointers: the buckets point to nodes
that come from `malloc`, and `hash_map_item_delete` gives one back to `free`.
Insertions refine the table of chains in `ToolHashMap`.  A deletion frees the
first node of its bucket, whatever its key is, and leaves the bucket pointing
to it.
-/

namespace WindowSystem.HashMapNodes

open WindowSystem.CRuntime
open WindowSystem.Library
open WindowSystem.Library.ChainHeap (Cell Chain)
open WindowSystem.Library.LabelledRun
open WindowSystem.ToolHashMap (Fingerprint HashMap ToolHashNode fingerprint
  hashMapGetHash)

/-! ## The functions -/

/-- `HashMap` with the nodes in memory and the nodes that are allocated; the
objects behind the value pointers are not part of it. -/
structure NodeMap (α V : Type*) where
  hashLen : UInt32
  size : UInt32
  ppHashNode : UInt32 → Option α
  node : α → Cell α (UInt32 × UInt32) (Option V)
  allocated : Finset α

variable {α V : Type*} [DecidableEq α]

/-- The search of `hash_map_check_append` along a chain; `none` is the use of
a freed node, or a search that does not end after as many nodes as there is
fuel. -/
def search (map : NodeMap α V) (wanted : UInt32 × UInt32) :
    Nat → Option α → Option (Option α)
  | 0, _ => none
  | _ + 1, none => some none
  | fuel + 1, some currNode =>
      if currNode ∈ map.allocated then
        if (map.node currNode).tag = wanted then some (some currNode)
        else search map wanted fuel (map.node currNode).next
      else none

/-- What a call leaves behind, as in `ToolHashMap.Probe`. -/
structure NodeProbe (α V : Type*) where
  ret : Int
  map : NodeMap α V
  handedOut : Option (Option V)

/-- `hash_map_check_append`; `malloced` is what `malloc` returns if it is
called, and `none` is undefined behaviour, also that of a null pointer from
`malloc`. -/
def hashMapCheckAppend (sHashMap : NodeMap α V) (start : Bytes) (len : Int)
    (inVal : Option V) (bInsert : Bool) (outVal : Option V)
    (hashLen : UInt32) (malloced : Option α) : Option (NodeProbe α V) :=
  let nHash := (hashMapGetHash start len 0).toUInt32
  let nHashA := (hashMapGetHash start len 1).toUInt32
  let nHashB := (hashMapGetHash start len 2).toUInt32
  let nHashPos := nHash % hashLen
  (search sHashMap (nHashA, nHashB) (sHashMap.allocated.card + 1)
      (sHashMap.ppHashNode nHashPos)).bind fun found =>
    match found with
    | some currNode =>
        if bInsert then
          some
            { ret := toInt32 nHashPos.toNat
              map :=
                match outVal with
                | some pointer =>
                    { sHashMap with
                      node :=
                        Function.update sHashMap.node currNode
                          { sHashMap.node currNode with
                            data := some pointer } }
                | none => sHashMap
              handedOut := none }
        else
          some
            { ret := toInt32 nHashPos.toNat
              map := sHashMap
              handedOut := some (sHashMap.node currNode).data }
    | none =>
        if bInsert then
          malloced.map fun nextNode =>
            { ret := 0
              map :=
                { sHashMap with
                  size := sHashMap.size + 1
                  ppHashNode :=
                    Function.update sHashMap.ppHashNode nHashPos
                      (some nextNode)
                  node :=
                    Function.update sHashMap.node nextNode
                      ⟨(nHashA, nHashB), inVal,
                        sHashMap.ppHashNode nHashPos⟩
                  allocated := insert nextNode sHashMap.allocated }
              handedOut := none }
        else some { ret := -1, map := sHashMap, handedOut := none }

/-- `hash_map_find`. -/
def hashMapFind (psHashMap : NodeMap α V) (start : Bytes) (len : Int) :
    Option (NodeProbe α V) :=
  hashMapCheckAppend psHashMap start len none false none psHashMap.hashLen
    none

/-- `hash_map_insert`. -/
def hashMapInsert (psHashMap : NodeMap α V) (start : Bytes) (len : Int)
    (inVal : Option V) (malloced : Option α) : Option (NodeProbe α V) :=
  hashMapCheckAppend psHashMap start len inVal true inVal psHashMap.hashLen
    malloced

/-- `hash_map_item_delete`; `none` is the use of a freed node. -/
def hashMapItemDelete (sHashMap : NodeMap α V) (key : Bytes) (len : Int) :
    Option (NodeMap α V) :=
  let nHash := (hashMapGetHash key len 0).toUInt32
  let nHashPos := nHash % sHashMap.hashLen
  match sHashMap.ppHashNode nHashPos with
  | none => some sHashMap
  | some currNode =>
      if currNode ∈ sHashMap.allocated then
        some
          { sHashMap with
            size := sHashMap.size - 1
            node :=
              Function.update sHashMap.node currNode
                { sHashMap.node currNode with data := none }
            allocated := sHashMap.allocated.erase currNode }
      else none

/-- `hash_map_new`; what memory holds before is arbitrary. -/
def hashMapNew (length : UInt32)
    (memory : α → Cell α (UInt32 × UInt32) (Option V)) : NodeMap α V where
  hashLen := length
  size := 0
  ppHashNode _ := none
  node := memory
  allocated := ∅

/-! ## Insertions refine the table of chains -/

/-- A node as the table of chains has it. -/
def NodeMap.contents (map : NodeMap α V) (place : α) : ToolHashNode V where
  hashA := (map.node place).tag.1
  hashB := (map.node place).tag.2
  value := (map.node place).data

/-- The first of some places whose node carries a tag. -/
def NodeMap.first (map : NodeMap α V) (places : List α)
    (wanted : UInt32 × UInt32) : Option α :=
  places.find? fun place => (map.node place).tag = wanted

/-- The buckets lead to allocated nodes, apart from each other, whose contents
are the chains of the table. -/
structure Represents (map : NodeMap α V) (table : HashMap V)
    (chains : UInt32 → List α) : Prop where
  hashLen : map.hashLen = table.hashLen
  size : map.size = table.size
  chain : ∀ bucket, Chain map.node (map.ppHashNode bucket) (chains bucket)
  nodes : ∀ bucket,
    (chains bucket).map map.contents = table.ppHashNode bucket
  allocated : ∀ {bucket place}, place ∈ chains bucket →
    place ∈ map.allocated
  apart : ∀ {left right place}, place ∈ chains left →
    place ∈ chains right → left = right

section Refinement

variable {map : NodeMap α V} {table : HashMap V}
  {chains : UInt32 → List α}

omit [DecidableEq α] in
theorem represents_new (length : UInt32)
    (memory : α → Cell α (UInt32 × UInt32) (Option V)) :
    Represents (hashMapNew length memory) (ToolHashMap.hashMapNew length)
      fun _ => [] where
  hashLen := rfl
  size := rfl
  chain _ := .nil
  nodes _ := rfl
  allocated member := nomatch member
  apart member := nomatch member

theorem search_of_chain {wanted : UInt32 × UInt32} {head : Option α}
    {places : List α} {fuel : Nat} (chain : Chain map.node head places)
    (inside : ∀ place ∈ places, place ∈ map.allocated)
    (enough : places.length < fuel) :
    search map wanted fuel head = some (map.first places wanted) := by
  induction chain generalizing fuel with
  | nil =>
      cases fuel with
      | zero => exact absurd enough (Nat.not_lt_zero _)
      | succ fuel => rfl
  | @cons place rest _ induction =>
      rw [List.forall_mem_cons] at inside
      cases fuel with
      | zero => exact absurd enough (Nat.not_lt_zero _)
      | succ fuel =>
          rw [search, if_pos inside.1]
          split_ifs with equal
          · simp [NodeMap.first, equal]
          · rw [induction inside.2 (Nat.lt_of_succ_lt_succ enough)]
            simp [NodeMap.first, equal]

omit [DecidableEq α] in
/-- The search of the table of chains, in the nodes behind a list of
places. -/
theorem findNode_contents (places : List α) (wanted : UInt32 × UInt32) :
    BucketTable.findNode ToolHashNode.tag wanted (places.map map.contents) =
      (map.first places wanted).map map.contents := by
  induction places with
  | nil => rfl
  | cons place places induction =>
      rw [List.map_cons, BucketTable.findNode]
      have same : (map.contents place).tag = (map.node place).tag := rfl
      by_cases equal : (map.node place).tag = wanted
      · rw [same, if_pos equal]
        simp [NodeMap.first, equal]
      · rw [same, if_neg equal, induction]
        simp [NodeMap.first, equal]

namespace Represents

theorem length_chain_le (represents : Represents map table chains)
    (bucket : UInt32) : (chains bucket).length ≤ map.allocated.card := by
  rw [← List.toFinset_card_of_nodup (represents.chain bucket).nodup]
  refine Finset.card_le_card ?_
  intro place member
  exact represents.allocated (List.mem_toFinset.mp member)

/-- A search ends, uses allocated nodes only and finds the first node with
the tag. -/
theorem search_eq (represents : Represents map table chains)
    (bucket : UInt32) (wanted : UInt32 × UInt32) :
    search map wanted (map.allocated.card + 1) (map.ppHashNode bucket) =
      some (map.first (chains bucket) wanted) :=
  search_of_chain (represents.chain bucket)
    (fun _ member => represents.allocated member)
    (Nat.lt_succ_of_le (represents.length_chain_le bucket))

omit [DecidableEq α] in
theorem lookup_eq (represents : Represents map table chains)
    (key : Fingerprint) :
    table.lookup key =
      (map.first (chains key.1) key.2).map fun place =>
        (map.node place).data := by
  rw [HashMap.lookup, BucketTable.lookup, ← represents.nodes,
    findNode_contents, Option.map_map]
  rfl

/-- A search gives what it gives in the table of chains. -/
theorem find (represents : Represents map table chains) (start : Bytes)
    (len : Int) :
    hashMapFind map start len =
      some
        { ret := (ToolHashMap.hashMapFind table start len).ret
          map := map
          handedOut :=
            (ToolHashMap.hashMapFind table start len).handedOut } := by
  have stored := represents.lookup_eq (fingerprint map.hashLen start len)
  have searched := represents.search_eq
    (fingerprint map.hashLen start len).1
    (fingerprint map.hashLen start len).2
  rw [ToolHashMap.hashMapFind_eq, ← represents.hashLen, hashMapFind,
    hashMapCheckAppend]
  cases found : map.first (chains (fingerprint map.hashLen start len).1)
      (fingerprint map.hashLen start len).2 with
  | none =>
      rw [found] at stored searched
      rw [stored]
      simp only [fingerprint] at searched
      dsimp only
      rw [searched]
      rfl
  | some place =>
      rw [found] at stored searched
      rw [stored]
      simp only [fingerprint] at searched
      dsimp only
      rw [searched]
      simp [fingerprint]

omit [DecidableEq α] in
/-- A table with the same fields. -/
theorem of_fields {other : HashMap V}
    (represents : Represents map table chains)
    (hashLen : other.hashLen = table.hashLen)
    (size : other.size = table.size)
    (buckets : other.ppHashNode = table.ppHashNode) :
    Represents map other chains := by
  cases table
  cases other
  cases hashLen
  cases size
  cases buckets
  exact represents

end Represents

omit [DecidableEq α] in
/-- The contents after the first node with a tag is updated. -/
theorem map_update_first {f g : α → ToolHashNode V} {places : List α}
    {wanted : UInt32 × UInt32} {currNode : α}
    {update : ToolHashNode V → ToolHashNode V} (distinct : places.Nodup)
    (tags : ∀ place, (f place).tag = (map.node place).tag)
    (found : map.first places wanted = some currNode)
    (there : g currNode = update (f currNode))
    (elsewhere : ∀ place, place ≠ currNode → g place = f place) :
    places.map g =
      BucketTable.updateNode ToolHashNode.tag wanted update
        (places.map f) := by
  induction places with
  | nil => cases found
  | cons place places induction =>
      rw [List.nodup_cons] at distinct
      rw [List.map_cons, List.map_cons, BucketTable.updateNode, tags]
      by_cases equal : (map.node place).tag = wanted
      · have same : place = currNode := by
          simpa [NodeMap.first, equal] using found
        subst same
        rw [if_pos equal, there]
        refine congrArg _ (List.map_congr_left fun other member => ?_)
        exact elsewhere other fun same => distinct.1 (same ▸ member)
      · have later : map.first places wanted = some currNode := by
          simpa [NodeMap.first, equal] using found
        have different : place ≠ currNode := by
          rintro rfl
          have matched := List.find?_some later
          exact equal (of_decide_eq_true matched)
        rw [if_neg equal, elsewhere place different,
          induction distinct.2 later]

/-- The map after the value of a node is overwritten. -/
def NodeMap.write (map : NodeMap α V) (currNode : α) (value : Option V) :
    NodeMap α V :=
  { map with
    node :=
      Function.update map.node currNode
        { map.node currNode with data := value } }

/-- The map after a new node is put in front of a bucket. -/
def NodeMap.push (map : NodeMap α V) (key : Fingerprint)
    (inVal : Option V) (nextNode : α) : NodeMap α V :=
  { map with
    size := map.size + 1
    ppHashNode := Function.update map.ppHashNode key.1 (some nextNode)
    node :=
      Function.update map.node nextNode
        ⟨key.2, inVal, map.ppHashNode key.1⟩
    allocated := insert nextNode map.allocated }

theorem contents_write_same (currNode : α) (inVal : Option V) :
    (map.write currNode (inVal.or (map.node currNode).data)).contents
        currNode =
      ToolHashMap.overwrite inVal (map.contents currNode) := by
  rw [NodeMap.contents, NodeMap.write]
  simp only [Function.update_self]
  cases inVal with
  | none => rfl
  | some pointer => rfl

theorem contents_write_other {place currNode : α} (value : Option V)
    (different : place ≠ currNode) :
    (map.write currNode value).contents place = map.contents place := by
  simp [NodeMap.contents, NodeMap.write, Function.update_of_ne different]

/-- An insertion that finds a node. -/
theorem hashMapInsert_found {start : Bytes} {len : Int} {inVal : Option V}
    {malloced : Option α} {currNode : α}
    (searched : search map (fingerprint map.hashLen start len).2
      (map.allocated.card + 1)
      (map.ppHashNode (fingerprint map.hashLen start len).1) =
        some (some currNode)) :
    (hashMapInsert map start len inVal malloced).map NodeProbe.map =
      some (map.write currNode (inVal.or (map.node currNode).data)) := by
  simp only [fingerprint] at searched
  rw [hashMapInsert, hashMapCheckAppend]
  dsimp only
  rw [searched, Option.bind_some]
  cases inVal with
  | none => simp [NodeMap.write]
  | some pointer => simp [NodeMap.write]

/-- An insertion that finds no node. -/
theorem hashMapInsert_missing {start : Bytes} {len : Int} {inVal : Option V}
    {malloced : α}
    (searched : search map (fingerprint map.hashLen start len).2
      (map.allocated.card + 1)
      (map.ppHashNode (fingerprint map.hashLen start len).1) = some none) :
    (hashMapInsert map start len inVal (some malloced)).map NodeProbe.map =
      some (map.push (fingerprint map.hashLen start len) inVal malloced) := by
  simp only [fingerprint] at searched
  rw [hashMapInsert, hashMapCheckAppend]
  dsimp only
  rw [searched, Option.bind_some]
  rfl

namespace Represents

/-- A node that is found gets the new value. -/
theorem write (represents : Represents map table chains)
    {key : Fingerprint} {currNode : α}
    (found : map.first (chains key.1) key.2 = some currNode)
    (inVal : Option V) :
    Represents (map.write currNode (inVal.or (map.node currNode).data))
      { table with
        ppHashNode :=
          BucketTable.upsert ToolHashNode.tag table.ppHashNode key.1
            (ToolHashMap.freshNode key inVal)
            (ToolHashMap.overwrite inVal) } chains := by
  have member : currNode ∈ chains key.1 := List.mem_of_find?_eq_some found
  constructor
  case hashLen => exact represents.hashLen
  case size => exact represents.size
  case chain =>
    intro bucket
    exact (represents.chain bucket).rewrite rfl
  case nodes =>
    intro bucket
    have stored : BucketTable.findNode ToolHashNode.tag key.2
        (table.ppHashNode key.1) = some (map.contents currNode) := by
      rw [← represents.nodes, findNode_contents, found, Option.map_some]
    dsimp only
    by_cases same : bucket = key.1
    · subst same
      rw [BucketTable.upsert, Function.update_self,
        ToolHashMap.tag_freshNode, stored]
      dsimp only
      rw [← represents.nodes]
      exact map_update_first (represents.chain _).nodup (fun _ => rfl) found
        (contents_write_same currNode inVal)
        fun _ different => contents_write_other _ different
    · rw [BucketTable.upsert, Function.update_of_ne same,
        ← represents.nodes]
      refine List.map_congr_left fun place inside => ?_
      apply contents_write_other
      rintro rfl
      exact same (represents.apart inside member)
  case allocated => exact represents.allocated
  case apart => exact represents.apart

/-- A node that `malloc` returns is put in front of its bucket. -/
theorem push (represents : Represents map table chains)
    {key : Fingerprint} {nextNode : α}
    (found : map.first (chains key.1) key.2 = none)
    (fresh : nextNode ∉ map.allocated) (inVal : Option V) :
    Represents (map.push key inVal nextNode)
      { table with
        size := table.size + 1
        ppHashNode :=
          BucketTable.upsert ToolHashNode.tag table.ppHashNode key.1
            (ToolHashMap.freshNode key inVal)
            (ToolHashMap.overwrite inVal) }
      (Function.update chains key.1 (nextNode :: chains key.1)) := by
  have outside : ∀ bucket, nextNode ∉ chains bucket :=
    fun bucket member => fresh (represents.allocated member)
  have elsewhere : ∀ {place}, place ≠ nextNode →
      (map.push key inVal nextNode).contents place = map.contents place := by
    intro place different
    simp [NodeMap.contents, NodeMap.push, Function.update_of_ne different]
  have others : ∀ bucket, (chains bucket).map
      (map.push key inVal nextNode).contents = table.ppHashNode bucket := by
    intro bucket
    rw [← represents.nodes]
    refine List.map_congr_left fun place member => elsewhere ?_
    rintro rfl
    exact outside bucket member
  constructor
  case hashLen => exact represents.hashLen
  case size => exact congrArg (· + 1) represents.size
  case chain =>
    intro bucket
    dsimp only [NodeMap.push]
    by_cases same : bucket = key.1
    · subst same
      rw [Function.update_self, Function.update_self]
      exact (represents.chain _).push (outside _) rfl
    · rw [Function.update_of_ne same, Function.update_of_ne same]
      exact (represents.chain bucket).frame (outside bucket)
  case nodes =>
    intro bucket
    have missing : BucketTable.findNode ToolHashNode.tag key.2
        (table.ppHashNode key.1) = none := by
      rw [← represents.nodes, findNode_contents, found, Option.map_none]
    dsimp only
    by_cases same : bucket = key.1
    · subst same
      rw [BucketTable.upsert, Function.update_self, Function.update_self,
        ToolHashMap.tag_freshNode, missing, List.map_cons, others]
      dsimp only
      congr 1
      simp [NodeMap.contents, NodeMap.push, ToolHashMap.freshNode]
    · rw [BucketTable.upsert, Function.update_of_ne same,
        Function.update_of_ne same, others]
  case allocated =>
    intro bucket place member
    refine Finset.mem_insert.mpr ?_
    by_cases same : bucket = key.1
    · subst same
      rw [Function.update_self] at member
      rcases List.mem_cons.mp member with equal | member
      · exact .inl equal
      · exact .inr (represents.allocated member)
    · rw [Function.update_of_ne same] at member
      exact .inr (represents.allocated member)
  case apart =>
    have inside : ∀ {bucket place},
        place ∈ Function.update chains key.1 (nextNode :: chains key.1)
          bucket → place = nextNode ∧ bucket = key.1 ∨
            place ∈ chains bucket := by
      intro bucket place member
      by_cases same : bucket = key.1
      · subst same
        rw [Function.update_self] at member
        rcases List.mem_cons.mp member with equal | member
        · exact .inl ⟨equal, rfl⟩
        · exact .inr member
      · rw [Function.update_of_ne same] at member
        exact .inr member
    intro left right place inLeft inRight
    rcases inside inLeft with ⟨equal, here⟩ | old
    · rcases inside inRight with ⟨_, there⟩ | old
      · rw [here, there]
      · exact absurd (equal ▸ old) (outside right)
    · rcases inside inRight with ⟨equal, _⟩ | other
      · exact absurd (equal ▸ old) (outside left)
      · exact represents.apart old other

/-- An insertion with memory from `malloc` is one into the table of chains. -/
theorem insert (represents : Represents map table chains) (start : Bytes)
    (len : Int) (inVal : Option V) {malloced : α}
    (fresh : malloced ∉ map.allocated) :
    ∃ probe places, hashMapInsert map start len inVal (some malloced) =
        some probe ∧
      Represents probe.map (ToolHashMap.hashMapInsert table start len inVal)
        places := by
  have searched := represents.search_eq
    (fingerprint map.hashLen start len).1
    (fingerprint map.hashLen start len).2
  have stored := represents.lookup_eq (fingerprint map.hashLen start len)
  have size := ToolHashMap.size_hashMapInsert table start len inVal
  have length := ToolHashMap.hashLen_hashMapInsert table start len inVal
  have buckets :=
    ToolHashMap.ppHashNode_hashMapInsert table start len inVal
  rw [← represents.hashLen] at size buckets
  rw [stored] at size
  cases found : map.first (chains (fingerprint map.hashLen start len).1)
      (fingerprint map.hashLen start len).2 with
  | none =>
      rw [found] at searched size
      have inserted : (hashMapInsert map start len inVal
          (some malloced)).map NodeProbe.map = _ :=
        hashMapInsert_missing searched
      obtain ⟨probe, run, equal⟩ := Option.map_eq_some_iff.mp inserted
      have after :=
        (represents.push found fresh inVal).of_fields length size buckets
      rw [← equal] at after
      exact ⟨probe, _, run, after⟩
  | some currNode =>
      rw [found] at searched size
      have inserted : (hashMapInsert map start len inVal
          (some malloced)).map NodeProbe.map = _ :=
        hashMapInsert_found searched
      obtain ⟨probe, run, equal⟩ := Option.map_eq_some_iff.mp inserted
      have after :=
        (represents.write found inVal).of_fields length size buckets
      rw [← equal] at after
      exact ⟨probe, _, run, after⟩

end Represents

end Refinement

/-! ## Deletions -/

/-- A search for the key is defined and hands out the value. -/
def Finds (map : NodeMap α V) (start : Bytes) (len : Int)
    (value : Option V) : Prop :=
  (hashMapFind map start len).bind NodeProbe.handedOut = some value

/-- What a deletion should do: the key is not found any more, every other key
is found with its value, the size counts the key if it was there, and the
buckets point to allocated nodes. -/
structure Deleted (before : NodeMap α V) (key : Bytes) (len : Int)
    (after : NodeMap α V) : Prop where
  absent : (hashMapFind after key len).map NodeProbe.ret = some (-1)
  others {start : Bytes} {startLen : Int} {value : Option V} :
    fingerprint before.hashLen start startLen ≠
        fingerprint before.hashLen key len →
      Finds before start startLen value → Finds after start startLen value
  size_present {value : Option V} :
    Finds before key len value → after.size = before.size - 1
  size_absent :
    (∀ value, ¬ Finds before key len value) → after.size = before.size
  buckets {bucket : UInt32} {place : α} :
    after.ppHashNode bucket = some place → place ∈ after.allocated

/-- The deletion is defined and does what it should. -/
def DeleteRight (map : NodeMap α V) (key : Bytes) (len : Int) : Prop :=
  ∃ after, hashMapItemDelete map key len = some after ∧
    Deleted map key len after

/-- No node is in the bucket of the key. -/
def EmptyBucket (map : NodeMap α V) (key : Bytes) (len : Int) : Prop :=
  map.ppHashNode (fingerprint map.hashLen key len).1 = none

section Deletions

variable {map after : NodeMap α V} {key : Bytes} {len : Int}

/-- A deletion from an empty bucket changes nothing. -/
theorem hashMapItemDelete_of_empty (empty : EmptyBucket map key len) :
    hashMapItemDelete map key len = some map := by
  rw [hashMapItemDelete]
  rw [EmptyBucket, fingerprint] at empty
  dsimp only at empty ⊢
  rw [empty]

/-- The node that the bucket points to is freed, whatever its key is. -/
theorem hashMapItemDelete_frees
    (deleted : hashMapItemDelete map key len = some after) {place : α}
    (head : map.ppHashNode (fingerprint map.hashLen key len).1 =
      some place) :
    after.ppHashNode = map.ppHashNode ∧ place ∉ after.allocated := by
  rw [hashMapItemDelete] at deleted
  rw [fingerprint] at head
  dsimp only at head deleted
  rw [head] at deleted
  dsimp only at deleted
  split_ifs at deleted
  cases deleted
  exact ⟨rfl, Finset.notMem_erase _ _⟩

theorem emptyBucket_of_deleted
    (deleted : hashMapItemDelete map key len = some after)
    (right : Deleted map key len after) : EmptyBucket map key len := by
  rw [EmptyBucket, Option.eq_none_iff_forall_ne_some]
  intro place head
  obtain ⟨same, freed⟩ := hashMapItemDelete_frees deleted head
  rw [← same] at head
  exact freed (right.buckets head)

/-- In an empty bucket nothing is found. -/
theorem hashMapFind_of_empty (empty : EmptyBucket map key len) :
    hashMapFind map key len = some ⟨-1, map, none⟩ := by
  rw [hashMapFind, hashMapCheckAppend]
  rw [EmptyBucket, fingerprint] at empty
  dsimp only at empty ⊢
  rw [empty]
  rfl

theorem deleted_of_empty (empty : EmptyBucket map key len)
    (buckets : ∀ {bucket place}, map.ppHashNode bucket = some place →
      place ∈ map.allocated) : Deleted map key len map := by
  have missing := hashMapFind_of_empty empty
  constructor
  case absent => rw [missing, Option.map_some]
  case others => exact fun _ found => found
  case size_present =>
    intro value found
    rw [Finds, missing] at found
    cases found
  case size_absent => exact fun _ => rfl
  case buckets => exact buckets

omit [DecidableEq α] in
/-- The buckets of a map that represents a table point to allocated nodes. -/
theorem Represents.buckets {table : HashMap V} {chains : UInt32 → List α}
    (represents : Represents map table chains) {bucket : UInt32} {place : α}
    (head : map.ppHashNode bucket = some place) :
    place ∈ map.allocated := by
  have chain := represents.chain bucket
  rw [head] at chain
  refine represents.allocated
    (chain.mem_iff_reaches.mpr (.here place) : place ∈ chains bucket)

theorem Represents.deleteRight_iff {table : HashMap V}
    {chains : UInt32 → List α} (represents : Represents map table chains) :
    DeleteRight map key len ↔ EmptyBucket map key len := by
  constructor
  · rintro ⟨after, deleted, right⟩
    exact emptyBucket_of_deleted deleted right
  · intro empty
    exact ⟨map, hashMapItemDelete_of_empty empty,
      deleted_of_empty empty represents.buckets⟩

end Deletions

/-! ## Runs -/

/-- An insertion with the memory that `malloc` returns if it is called, or a
deletion. -/
inductive Op (α V : Type*) where
  | insert (start : Bytes) (len : Int) (inVal : Option V) (malloced : α)
  | delete (key : Bytes) (len : Int)

/-- A defined step; `malloc` returns memory that is not allocated. -/
inductive Step : NodeMap α V → Op α V → NodeMap α V → Prop where
  | insert {map : NodeMap α V} {start : Bytes} {len : Int}
      {inVal : Option V} {malloced : α} {probe : NodeProbe α V} :
      malloced ∉ map.allocated →
      hashMapInsert map start len inVal (some malloced) = some probe →
      Step map (.insert start len inVal malloced) probe.map
  | delete {map after : NodeMap α V} {key : Bytes} {len : Int} :
      hashMapItemDelete map key len = some after →
      Step map (.delete key len) after

/-- A deletion did what it should. -/
def Op.Right (before : NodeMap α V) (after : NodeMap α V) :
    Op α V → Prop
  | .insert _ _ _ _ => True
  | .delete key len => Deleted before key len after

/-- A deletion is from an empty bucket. -/
def Op.Spared (before : NodeMap α V) : Op α V → Prop
  | .insert _ _ _ _ => True
  | .delete key len => EmptyBucket before key len

/-- The operation on the table of chains, which knows insertions only. -/
def Op.onTable (table : HashMap V) : Op α V → HashMap V
  | .insert start len inVal _ =>
      ToolHashMap.hashMapInsert table start len inVal
  | .delete _ _ => table

/-- Runs in which all deletions are right. -/
abbrev RightStep (before : NodeMap α V) (op : Op α V)
    (after : NodeMap α V) : Prop :=
  op.Right before after ∧ Step before op after

/-- Runs in which all deletions are from empty buckets. -/
abbrev SparedStep (before : NodeMap α V) (op : Op α V)
    (after : NodeMap α V) : Prop :=
  op.Spared before ∧ Step before op after

section Runs

variable {before after : NodeMap α V} {op : Op α V} {ops : List (Op α V)}
  {table : HashMap V} {chains : UInt32 → List α}

/-- An insertion, and a deletion from an empty bucket, keep the map in line
with the table of chains. -/
theorem Represents.step (represents : Represents before table chains)
    (spared : op.Spared before) (taken : Step before op after) :
    ∃ places, Represents after (op.onTable table) places := by
  cases taken with
  | insert fresh run =>
      obtain ⟨probe, places, again, represented⟩ :=
        represents.insert _ _ _ fresh
      rw [run] at again
      cases again
      exact ⟨places, represented⟩
  | delete deleted =>
      rw [hashMapItemDelete_of_empty spared] at deleted
      cases deleted
      exact ⟨chains, represents⟩

/-- A run without deletions from other buckets computes the table of
chains. -/
theorem Represents.run (represents : Represents before table chains)
    (run : Run SparedStep before ops after) :
    ∃ places, Represents after (ops.foldl Op.onTable table) places := by
  induction run generalizing table chains with
  | nil => exact ⟨chains, represents⟩
  | cons head _ induction =>
      obtain ⟨places, represented⟩ := represents.step head.1 head.2
      exact induction represented

theorem spared_of_right (right : op.Right before after)
    (taken : Step before op after) : op.Spared before := by
  cases taken with
  | insert _ _ => trivial
  | delete deleted => exact emptyBucket_of_deleted deleted right

theorem Represents.right_of_spared
    (represents : Represents before table chains)
    (spared : op.Spared before) (taken : Step before op after) :
    op.Right before after := by
  cases taken with
  | insert _ _ => trivial
  | delete deleted =>
      have same := hashMapItemDelete_of_empty spared
      rw [same] at deleted
      cases deleted
      exact deleted_of_empty spared represents.buckets

theorem rightRun_iff {length : UInt32}
    {memory : α → Cell α (UInt32 × UInt32) (Option V)} :
    Run RightStep (hashMapNew length memory) ops after ↔
      Run SparedStep (hashMapNew length memory) ops after := by
  constructor
  · intro run
    exact run.mono fun taken => ⟨spared_of_right taken.1 taken.2, taken.2⟩
  · intro run
    have kept : ∀ {before after : NodeMap α V} {op : Op α V},
        (∃ table chains, Represents before table chains) →
        SparedStep before op after →
          RightStep before op after ∧
            ∃ table chains, Represents after table chains := by
      rintro before after op ⟨table, chains, represents⟩ ⟨spared, taken⟩
      refine ⟨⟨represents.right_of_spared spared taken, taken⟩, ?_⟩
      obtain ⟨places, represented⟩ := represents.step spared taken
      exact ⟨_, places, represented⟩
    exact run.mono_of_invariant (fun holds taken => kept holds taken)
      ⟨_, _, represents_new length memory⟩

/-- In every run of insertions and deletions, the deletions of the run and one
more are right exactly when all of them are from empty buckets. -/
theorem deletions_right_iff {length : UInt32}
    {memory : α → Cell α (UInt32 × UInt32) (Option V)}
    (ops : List (Op α V)) (map : NodeMap α V) (key : Bytes) (len : Int) :
    Run RightStep (hashMapNew length memory) ops map ∧
        DeleteRight map key len ↔
      Run SparedStep (hashMapNew length memory) ops map ∧
        EmptyBucket map key len := by
  rw [rightRun_iff]
  refine and_congr_right ?_
  intro run
  obtain ⟨places, represents⟩ := (represents_new length memory).run run
  exact represents.deleteRight_iff

end Runs

/-- The insertion of one key with the value 7. -/
def oneInsertion : List (Op Nat Nat) :=
  [.insert (ascii "13800000000") 11 (some 7) 1]

/-- Memory that holds no nodes yet. -/
def blankMemory : Nat → Cell Nat (UInt32 × UInt32) (Option Nat) :=
  fun _ => ⟨(0, 0), none, none⟩

/-- The inserted key is deleted: its node is freed, and its bucket still
points to it. -/
theorem not_deleteRight_inserted :
    ∃ map, Run Step (hashMapNew 250000 blankMemory) oneInsertion map ∧
      ¬ DeleteRight map (ascii "13800000000") 11 := by
  have fresh : 1 ∉ (hashMapNew 250000 blankMemory).allocated :=
    Finset.notMem_empty 1
  obtain ⟨probe, places, inserted, represents⟩ :=
    (represents_new 250000 blankMemory).insert (ascii "13800000000") 11
      (some 7) fresh
  refine ⟨probe.map, .single (.insert fresh inserted), ?_⟩
  rw [represents.deleteRight_iff]
  intro empty
  have missing := hashMapFind_of_empty empty
  rw [represents.find, Option.some_inj] at missing
  have result := congrArg NodeProbe.ret missing
  dsimp only at result
  revert result
  decide +kernel

end WindowSystem.HashMapNodes
