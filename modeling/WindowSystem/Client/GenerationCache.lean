import WindowSystem.CRuntime
import WindowSystem.Library.ChainHeap
import WindowSystem.Library.LabelledRun

/-!
# Caches of two generations

`filter_rule_user_clean.c` and `filter_rule_tcp_reassemble.c` are copies of
one design.  Each capture thread has two bucket tables, A and B, whose nodes
come from bump allocators.  New nodes go into the current table; a period
time-out clears the other table, makes it the current one and starts its
allocator again at the front of its memory.

The two files differ in the size of a node and of a pool, in the pool that
the allocator takes a node from, and in what a search does with the node that
it finds.  These are the parameters below.  The second half of the module
proves when the memory of a node stays its own, and that the tables then hold
what was appended to them.
-/

namespace WindowSystem.Client.GenerationCache

open WindowSystem.CRuntime
open WindowSystem.Library.ChainHeap
open WindowSystem.Library.LabelledRun

/-! ## The data of one thread -/

/-- The tables, and the memory pools, are called A and B. -/
inductive Generation where
  | a
  | b
deriving DecidableEq

/-- The generation that is not this one. -/
def Generation.other : Generation → Generation
  | .a => .b
  | .b => .a

@[simp]
theorem Generation.other_ne (generation : Generation) :
    generation.other ≠ generation := by
  cases generation <;> decide

@[simp]
theorem Generation.ne_other (generation : Generation) :
    generation ≠ generation.other :=
  (generation.other_ne).symm

theorem Generation.eq_or_eq_other (one two : Generation) :
    one = two ∨ one = two.other := by
  cases one <;> cases two <;> decide

/-- The address of a node: a pool and an offset in it. -/
structure Address where
  pool : Generation
  offset : Nat
deriving DecidableEq

/-- The two hashes that a node stores instead of its key. -/
abbrev Tag := UInt32 × UInt32

/-- The bucket of a key and the two hashes. -/
abbrev Key := UInt32 × Tag

/-- The constants of one of the two files. -/
structure Layout where
  /-- `sizeof` of a node. -/
  nodeSize : Nat
  /-- The number of nodes for which a pool has room. -/
  poolSize : Nat
  /-- The pool that the allocator uses while a generation is current. -/
  pool : Generation → Generation
  nodeSize_pos : 0 < nodeSize

/-- The offset beyond which the allocator starts again. -/
def Layout.limit (layout : Layout) : Nat :=
  layout.nodeSize * layout.poolSize - 1000

/-- What one thread owns of the global arrays. -/
structure Cache (δ : Type*) where
  periodFlag : Int
  memOffset : Nat
  heap : Address → Cell Address Tag δ
  table : Generation → UInt32 → Option Address
  tableSize : Generation → Nat

variable {δ κ : Type*}

/-- The generation into which nodes are inserted. -/
def Cache.current (cache : Cache δ) : Generation :=
  if cache.periodFlag < 0 then .a else .b

/-- The state after the initialisation; the pools are not cleared. -/
def initial (heap : Address → Cell Address Tag δ) : Cache δ where
  periodFlag := -2
  memOffset := 0
  heap := heap
  table _ _ := none
  tableSize _ := 0

/-! ## The operations -/

/-- The allocator: the memory it hands out, and the state after it. -/
def allocMem (layout : Layout) (cache : Cache δ) : Address × Cache δ :=
  let ret : Address := ⟨layout.pool cache.current, cache.memOffset⟩
  let memOffset := cache.memOffset + layout.nodeSize
  (ret,
    { cache with
      memOffset := if memOffset > layout.limit then 0 else memOffset })

/-- The table whose chain a search walks: B only if the bucket of A is
empty. -/
def Cache.searched (cache : Cache δ) (nHashPos : UInt32) : Generation :=
  if (cache.table .a nHashPos).isSome then .a else .b

/-- The search for the two hashes of a key; the outer `none` says that the
fuel did not suffice. -/
def find (fuel : Nat) (cache : Cache δ) (key : Key) :
    Option (Option Address) :=
  walk cache.heap key.2 fuel
    (cache.table (cache.searched key.1) key.1)

/-- The insertion into the current table, with the memory that it uses.  Both
branches of the source put the new node in front of the chain. -/
def insert (layout : Layout) (cache : Cache δ) (key : Key) (data : δ) :
    Address × Cache δ :=
  let current := cache.current
  let (nextNode, allocated) :=
    allocMem layout
      { cache with
        tableSize :=
          Function.update cache.tableSize current
            (cache.tableSize current + 1) }
  (nextNode,
    { allocated with
      heap :=
        Function.update allocated.heap nextNode
          { tag := key.2, data := data, next := cache.table current key.1 }
      table :=
        Function.update allocated.table current
          (Function.update (cache.table current) key.1 (some nextNode)) })

/-- What a search that does not insert does with the node it finds. -/
structure Hit (δ : Type*) where
  ret : Int
  data : δ
  sent : List Bytes

/-- What a call leaves behind: its return value, the state, the memory that
it took from the allocator and the messages that it sent. -/
structure Reply (δ : Type*) where
  ret : Int
  cache : Cache δ
  allocated : Option Address
  sent : List Bytes

/-- Search a key, and insert it when asked to and not found. -/
def checkAppend (layout : Layout) (onHit : Generation → UInt32 → δ → Hit δ)
    (fuel : Nat) (cache : Cache δ) (key : Key) (data : δ) (isAdd : Bool) :
    Option (Reply δ) :=
  (find fuel cache key).map fun
    | some place =>
        if isAdd then
          { ret := key.1.toNat, cache := cache, allocated := none,
            sent := [] }
        else
          let hit :=
            onHit (cache.searched key.1) key.1 (cache.heap place).data
          { ret := hit.ret
            cache :=
              { cache with
                heap :=
                  Function.update cache.heap place
                    { cache.heap place with data := hit.data } }
            allocated := none
            sent := hit.sent }
    | none =>
        if isAdd then
          let (nextNode, inserted) := insert layout cache key data
          { ret := key.1.toNat, cache := inserted,
            allocated := some nextNode, sent := [] }
        else
          { ret := -1, cache := cache, allocated := none, sent := [] }

/-- The period time-out. -/
def timeOut (cache : Cache δ) : Cache δ :=
  if cache.periodFlag = -2 then
    { cache with
      periodFlag := 1
      memOffset := 0
      tableSize := Function.update cache.tableSize .b 0 }
  else if cache.periodFlag > 0 then
    { cache with
      table := Function.update cache.table .a fun _ => none
      periodFlag := -1
      memOffset := 0
      tableSize := Function.update cache.tableSize .a 0 }
  else
    { cache with
      table := Function.update cache.table .b fun _ => none
      periodFlag := 1
      memOffset := 0
      tableSize := Function.update cache.tableSize .b 0 }

/-- What happens to the cache of a thread. -/
inductive Event (δ : Type*) where
  | check (key : Key) (data : δ) (isAdd : Bool)
  | timeOut

/-- An event with the return value and the memory that was allocated. -/
structure Label (δ : Type*) where
  event : Event δ
  ret : Int
  allocated : Option Address

/-- One event.  A call that does not come back has no step. -/
inductive Step (layout : Layout) (onHit : Generation → UInt32 → δ → Hit δ) :
    Cache δ → Label δ → Cache δ → Prop where
  | check {cache : Cache δ} {fuel : Nat} {key : Key} {data : δ}
      {isAdd : Bool} {reply : Reply δ} :
      checkAppend layout onHit fuel cache key data isAdd = some reply →
      Step layout onHit cache
        ⟨.check key data isAdd, reply.ret, reply.allocated⟩ reply.cache
  | timeOut (cache : Cache δ) :
      Step layout onHit cache ⟨.timeOut, 0, none⟩ (timeOut cache)

/-! ## What the tables are for -/

/-- The generations as lists: what was appended to each bucket of each
generation since it was cleared. -/
structure Contents (κ : Type*) where
  current : Generation
  entries : Generation → UInt32 → List (Tag × κ)

/-- Nothing has been appended. -/
def Contents.empty : Contents κ where
  current := .a
  entries _ _ := []

/-- Put an entry into the current generation. -/
def Contents.append (contents : Contents κ) (key : Key) (data : κ) :
    Contents κ :=
  { contents with
    entries :=
      Function.update contents.entries contents.current
        (Function.update (contents.entries contents.current) key.1
          ((key.2, data) :: contents.entries contents.current key.1)) }

/-- Clear the generation that is not current, and make it the current one. -/
def Contents.turn (contents : Contents κ) : Contents κ where
  current := contents.current.other
  entries :=
    Function.update contents.entries contents.current.other fun _ => []

/-- The entries that a search looks at. -/
def Contents.searched (contents : Contents κ) (nHashPos : UInt32) :
    List (Tag × κ) :=
  if contents.entries .a nHashPos ≠ [] then contents.entries .a nHashPos
  else contents.entries .b nHashPos

/-- A search for the key succeeds. -/
def Contents.Knows (contents : Contents κ) (key : Key) : Prop :=
  key.2 ∈ (contents.searched key.1).map Prod.fst

/-- The contents after an event, with `view` the part of the data that
searches do not change. -/
def Contents.record (view : δ → κ) (contents : Contents κ) :
    Label δ → Contents κ
  | ⟨.check key data _, _, some _⟩ => contents.append key (view data)
  | ⟨.check _ _ _, _, none⟩ => contents
  | ⟨.timeOut, _, _⟩ => contents.turn

/-- The contents after the events of a run. -/
def Contents.recordAll (view : δ → κ) (labels : List (Label δ)) :
    Contents κ :=
  labels.foldl (Contents.record view) .empty

@[simp]
theorem entries_append_same (contents : Contents κ) (key : Key) (data : κ) :
    (contents.append key data).entries contents.current key.1 =
      (key.2, data) :: contents.entries contents.current key.1 := by
  simp [Contents.append]

theorem entries_append_other (contents : Contents κ) (key : Key) (data : κ)
    {generation : Generation} {nHashPos : UInt32}
    (different : generation ≠ contents.current ∨ nHashPos ≠ key.1) :
    (contents.append key data).entries generation nHashPos =
      contents.entries generation nHashPos := by
  by_cases same : generation = contents.current
  · subst same
    have elsewhere := different.resolve_left fun absurdity => absurdity rfl
    simp [Contents.append, Function.update_of_ne elsewhere]
  · simp [Contents.append, Function.update_of_ne same]

@[simp]
theorem entries_turn_other (contents : Contents κ) (nHashPos : UInt32) :
    contents.turn.entries contents.current.other nHashPos = [] := by
  simp [Contents.turn]

@[simp]
theorem entries_turn_current (contents : Contents κ) (nHashPos : UInt32) :
    contents.turn.entries contents.current nHashPos =
      contents.entries contents.current nHashPos := by
  simp [Contents.turn]

/-! ## The memory of the nodes -/

/-- How many nodes the allocator hands out before it starts again. -/
def Layout.capacity (layout : Layout) : Nat :=
  layout.limit / layout.nodeSize + 1

/-- The memory of the node with the given number in a generation. -/
def Layout.slot (layout : Layout) (generation : Generation) (index : Nat) :
    Address :=
  ⟨layout.pool generation, index * layout.nodeSize⟩

theorem Layout.slot_inj (layout : Layout) {generation : Generation}
    {one two : Nat} :
    layout.slot generation one = layout.slot generation two ↔ one = two := by
  have positive := layout.nodeSize_pos
  simp [Layout.slot, Nat.ne_of_gt positive]

theorem Layout.capacity_le_iff (layout : Layout) (nodes : Nat) :
    layout.capacity ≤ nodes ↔ layout.limit < nodes * layout.nodeSize := by
  rw [Layout.capacity, Nat.succ_le_iff,
    Nat.div_lt_iff_lt_mul layout.nodeSize_pos]

/-- The nodes of the other generation cannot be in the way of the next
allocation, and the current generation has room for one more. -/
def Cache.HasRoom (layout : Layout) (cache : Cache δ) : Prop :=
  cache.tableSize cache.current < layout.capacity ∧
    (layout.pool cache.current.other = layout.pool cache.current →
      cache.tableSize cache.current.other ≤
        cache.tableSize cache.current)

/-- The places of the nodes in the chains of the tables. -/
abbrev Places := Generation → UInt32 → List Address

/--
Every bucket leads to a chain of its own places, a generation uses exactly
its first `tableSize` slots, and the allocator stands behind the slots of the
current generation.
-/
structure Intact (layout : Layout) (cache : Cache δ) (places : Places) :
    Prop where
  chain (generation : Generation) (nHashPos : UInt32) :
    Chain cache.heap (cache.table generation nHashPos)
      (places generation nHashPos)
  inside {generation : Generation} {nHashPos : UInt32} {place : Address} :
    place ∈ places generation nHashPos →
      ∃ index < cache.tableSize generation,
        place = layout.slot generation index
  used {generation : Generation} {index : Nat} :
    index < cache.tableSize generation →
      ∃ nHashPos, layout.slot generation index ∈ places generation nHashPos
  size_le (generation : Generation) :
    cache.tableSize generation ≤ layout.capacity
  offset :
    cache.memOffset =
      if cache.tableSize cache.current < layout.capacity then
        cache.tableSize cache.current * layout.nodeSize
      else 0
  flag :
    cache.periodFlag = -2 ∧ cache.tableSize .b = 0 ∨
      cache.periodFlag = -1 ∨ cache.periodFlag = 1

/-- The tables hold the contents. -/
structure Represents (layout : Layout) (view : δ → κ) (cache : Cache δ)
    (contents : Contents κ) (places : Places) : Prop where
  intact : Intact layout cache places
  current : contents.current = cache.current
  entries (generation : Generation) (nHashPos : UInt32) :
    contents.entries generation nHashPos =
      (places generation nHashPos).map fun place =>
        ((cache.heap place).tag, view (cache.heap place).data)

theorem intact_initial (layout : Layout)
    (heap : Address → Cell Address Tag δ) :
    Intact layout (initial heap) fun _ _ => [] where
  chain _ _ := .nil
  inside member := absurd member List.not_mem_nil
  used below := absurd below (Nat.not_lt_zero _)
  size_le _ := Nat.zero_le _
  offset := by simp [initial]
  flag := .inl ⟨rfl, rfl⟩

theorem represents_initial (layout : Layout) (view : δ → κ)
    (heap : Address → Cell Address Tag δ) :
    Represents layout view (initial heap) .empty fun _ _ => [] where
  intact := intact_initial layout heap
  current := rfl
  entries _ _ := rfl

section Intact

variable {layout : Layout} {cache : Cache δ} {places : Places}

/-- Every search comes to an end. -/
theorem Intact.find_terminates (intact : Intact layout cache places)
    (key : Key) : ∃ fuel result, find fuel cache key = some result :=
  ⟨_, _, walk_of_chain (intact.chain _ _) (Nat.lt_succ_self _)⟩

theorem Intact.searched_eq (intact : Intact layout cache places)
    (nHashPos : UInt32) :
    cache.searched nHashPos =
      if places .a nHashPos ≠ [] then .a else .b := by
  rw [Cache.searched]
  cases head : cache.table .a nHashPos with
  | none =>
      have empty := (intact.chain .a nHashPos).eq_nil_iff.mpr head
      simp [empty]
  | some place =>
      have nonempty : places .a nHashPos ≠ [] := by
        rw [Ne, (intact.chain .a nHashPos).eq_nil_iff, head]
        simp
      simp [nonempty]

/-- The memory that the next insertion takes. -/
theorem Intact.allocated_eq (intact : Intact layout cache places)
    (key : Key) (data : δ) :
    (insert layout cache key data).1 =
      layout.slot cache.current
        (if cache.tableSize cache.current < layout.capacity then
          cache.tableSize cache.current
        else 0) := by
  have offset := intact.offset
  simp only [insert, allocMem, Layout.slot, Cache.current]
  rw [Cache.current] at offset
  rw [offset]
  split_ifs <;> simp

/-- The next insertion takes fresh memory exactly when there is room. -/
theorem Intact.fresh_iff (intact : Intact layout cache places)
    (key : Key) (data : δ) :
    (∀ generation nHashPos,
        (insert layout cache key data).1 ∉ places generation nHashPos) ↔
      cache.HasRoom layout := by
  rw [intact.allocated_eq key data]
  constructor
  · intro fresh
    have room :
        cache.tableSize cache.current < layout.capacity := by
      by_contra full
      have positive : 0 < cache.tableSize cache.current :=
        Nat.lt_of_lt_of_le (Nat.succ_pos _) (Nat.not_lt.mp full)
      obtain ⟨nHashPos, member⟩ := intact.used positive
      rw [if_neg full] at fresh
      exact fresh _ _ member
    refine ⟨room, fun samePool => ?_⟩
    by_contra more
    obtain ⟨nHashPos, member⟩ := intact.used (Nat.not_le.mp more)
    rw [if_pos room] at fresh
    apply fresh cache.current.other nHashPos
    rwa [Layout.slot, ← samePool]
  · rintro ⟨room, apart⟩ generation nHashPos member
    rw [if_pos room] at member
    obtain ⟨index, below, equal⟩ := intact.inside member
    rcases Generation.eq_or_eq_other generation cache.current with
      rfl | rfl
    · rw [layout.slot_inj] at equal
      omega
    · have samePool : layout.pool cache.current.other =
          layout.pool cache.current := by
        simpa [Layout.slot] using (congrArg Address.pool equal).symm
      have enough := apart samePool
      rw [Layout.slot, ← samePool, ← Layout.slot, layout.slot_inj] at equal
      omega

end Intact

/-! ## What one event does -/

section Operations

variable {layout : Layout} {view : δ → κ} {cache : Cache δ}
  {contents : Contents κ} {places : Places}

/-- The places after a node was put in front of a chain. -/
def Places.push (places : Places) (generation : Generation)
    (nHashPos : UInt32) (place : Address) : Places :=
  Function.update places generation
    (Function.update (places generation) nHashPos
      (place :: places generation nHashPos))

theorem Places.push_same (places : Places) (generation : Generation)
    (nHashPos : UInt32) (place : Address) :
    places.push generation nHashPos place generation nHashPos =
      place :: places generation nHashPos := by
  simp [Places.push]

theorem Places.push_other (places : Places) {generation other : Generation}
    {nHashPos elsewhere : UInt32} (place : Address)
    (different : other ≠ generation ∨ elsewhere ≠ nHashPos) :
    places.push generation nHashPos place other elsewhere =
      places other elsewhere := by
  by_cases same : other = generation
  · subst same
    have apart := different.resolve_left fun absurdity => absurdity rfl
    simp [Places.push, Function.update_of_ne apart]
  · simp [Places.push, Function.update_of_ne same]

theorem Places.mem_push {places : Places} {generation other : Generation}
    {nHashPos elsewhere : UInt32} {place member : Address}
    (inside :
      member ∈ places.push generation nHashPos place other elsewhere) :
    (member = place ∧ other = generation) ∨
      member ∈ places other elsewhere := by
  by_cases same : other = generation ∧ elsewhere = nHashPos
  · obtain ⟨rfl, rfl⟩ := same
    rw [Places.push_same, List.mem_cons] at inside
    exact inside.imp_left fun equal => ⟨equal, rfl⟩
  · rw [Places.push_other _ _ (not_and_or.mp same)] at inside
    exact .inr inside

theorem Places.subset_push (places : Places) (generation other : Generation)
    (nHashPos elsewhere : UInt32) (place : Address) :
    places other elsewhere ⊆
      places.push generation nHashPos place other elsewhere := by
  intro member inside
  by_cases same : other = generation ∧ elsewhere = nHashPos
  · obtain ⟨rfl, rfl⟩ := same
    rw [Places.push_same]
    exact List.mem_cons_of_mem _ inside
  · rwa [Places.push_other _ _ (not_and_or.mp same)]

@[simp]
theorem current_insert (layout : Layout) (cache : Cache δ) (key : Key)
    (data : δ) : (insert layout cache key data).2.current = cache.current :=
  rfl

theorem table_insert (layout : Layout) (cache : Cache δ) (key : Key)
    (data : δ) :
    (insert layout cache key data).2.table =
      Function.update cache.table cache.current
        (Function.update (cache.table cache.current) key.1
          (some (insert layout cache key data).1)) := rfl

theorem heap_insert (layout : Layout) (cache : Cache δ) (key : Key)
    (data : δ) :
    (insert layout cache key data).2.heap =
      Function.update cache.heap (insert layout cache key data).1
        { tag := key.2, data := data,
          next := cache.table cache.current key.1 } := rfl

theorem tableSize_insert (layout : Layout) (cache : Cache δ) (key : Key)
    (data : δ) :
    (insert layout cache key data).2.tableSize =
      Function.update cache.tableSize cache.current
        (cache.tableSize cache.current + 1) := rfl

theorem memOffset_insert (layout : Layout) (cache : Cache δ) (key : Key)
    (data : δ) :
    (insert layout cache key data).2.memOffset =
      if cache.memOffset + layout.nodeSize > layout.limit then 0
      else cache.memOffset + layout.nodeSize := rfl

theorem Intact.insert (intact : Intact layout cache places)
    (room : cache.HasRoom layout) (key : Key) (data : δ) :
    Intact layout (insert layout cache key data).2
      (places.push cache.current key.1
        (layout.slot cache.current (cache.tableSize cache.current))) := by
  have fresh := (intact.fresh_iff key data).mpr room
  have taken := intact.allocated_eq key data
  rw [if_pos room.1] at taken
  constructor
  case chain =>
    intro generation nHashPos
    rw [table_insert, heap_insert, ← taken]
    by_cases same : generation = cache.current ∧ nHashPos = key.1
    · obtain ⟨rfl, rfl⟩ := same
      rw [Places.push_same, Function.update_self, Function.update_self]
      exact (intact.chain _ _).push (fresh _ _) rfl
    · rw [Places.push_other _ _ (not_and_or.mp same)]
      have untouched : Function.update cache.table cache.current
          (Function.update (cache.table cache.current) key.1
            (some (GenerationCache.insert layout cache key data).1))
          generation nHashPos = cache.table generation nHashPos := by
        by_cases current : generation = cache.current
        · subst current
          have elsewhere : nHashPos ≠ key.1 :=
            fun equal => same ⟨rfl, equal⟩
          rw [Function.update_self, Function.update_of_ne elsewhere]
        · rw [Function.update_of_ne current]
      rw [untouched]
      exact (intact.chain _ _).frame (fresh _ _)
  case inside =>
    intro generation nHashPos place member
    rw [tableSize_insert]
    rcases Places.mem_push member with ⟨rfl, rfl⟩ | old
    · refine ⟨cache.tableSize cache.current, ?_, rfl⟩
      rw [Function.update_self]
      exact Nat.lt_succ_self _
    · obtain ⟨index, below, equal⟩ := intact.inside old
      refine ⟨index, ?_, equal⟩
      by_cases current : generation = cache.current
      · subst current
        rw [Function.update_self]
        exact Nat.lt_succ_of_lt below
      · rwa [Function.update_of_ne current]
  case used =>
    intro generation index below
    rw [tableSize_insert] at below
    by_cases newest : generation = cache.current ∧
        index = cache.tableSize cache.current
    · obtain ⟨rfl, rfl⟩ := newest
      refine ⟨key.1, ?_⟩
      rw [Places.push_same]
      exact List.mem_cons_self
    · have older : index < cache.tableSize generation := by
        by_cases current : generation = cache.current
        · subst current
          rw [Function.update_self] at below
          have notLast : index ≠ cache.tableSize cache.current :=
            fun equal => newest ⟨rfl, equal⟩
          omega
        · rwa [Function.update_of_ne current] at below
      obtain ⟨nHashPos, member⟩ := intact.used older
      exact ⟨nHashPos, Places.subset_push _ _ _ _ _ _ member⟩
  case size_le =>
    intro generation
    rw [tableSize_insert]
    by_cases current : generation = cache.current
    · subst current
      rw [Function.update_self]
      exact room.1
    · rw [Function.update_of_ne current]
      exact intact.size_le generation
  case offset =>
    have full := layout.capacity_le_iff (cache.tableSize cache.current + 1)
    have before := intact.offset
    rw [if_pos room.1] at before
    rw [memOffset_insert, tableSize_insert, current_insert,
      Function.update_self, before, ← Nat.succ_mul]
    by_cases more : cache.tableSize cache.current + 1 < layout.capacity
    · have below := mt full.mpr (Nat.not_le.mpr more)
      rw [if_neg below, if_pos more]
    · rw [if_pos (full.mp (Nat.not_lt.mp more)), if_neg more]
  case flag =>
    rcases intact.flag with ⟨first, unused⟩ | later
    · refine .inl ⟨first, ?_⟩
      have currentA : cache.current = .a := by
        simp [Cache.current, first]
      rw [tableSize_insert, currentA,
        Function.update_of_ne (show Generation.b ≠ .a by decide)]
      exact unused
    · exact .inr later

/-- The new places hold the new entry in front of the old ones. -/
theorem Represents.insert
    (represents : Represents layout view cache contents places)
    (room : cache.HasRoom layout) (key : Key) (data : δ) :
    Represents layout view (insert layout cache key data).2
      (contents.append key (view data))
      (places.push cache.current key.1
        (layout.slot cache.current (cache.tableSize cache.current))) := by
  have intact := represents.intact
  have fresh := (intact.fresh_iff key data).mpr room
  have taken := intact.allocated_eq key data
  rw [if_pos room.1] at taken
  have kept : ∀ generation nHashPos,
      (places generation nHashPos).map (fun place =>
        (((GenerationCache.insert layout cache key data).2.heap place).tag,
          view
            ((GenerationCache.insert layout cache key data).2.heap
              place).data)) =
      contents.entries generation nHashPos := by
    intro generation nHashPos
    rw [represents.entries]
    apply List.map_congr_left
    intro place member
    have apart : place ≠ (GenerationCache.insert layout cache key data).1 :=
      fun equal => fresh generation nHashPos (equal ▸ member)
    rw [heap_insert, Function.update_of_ne apart]
  refine ⟨intact.insert room key data, represents.current, ?_⟩
  intro generation nHashPos
  by_cases same : generation = cache.current ∧ nHashPos = key.1
  · obtain ⟨rfl, rfl⟩ := same
    rw [Places.push_same, List.map_cons, kept, ← represents.current,
      entries_append_same, represents.current, heap_insert, ← taken,
      Function.update_self]
  · rw [Places.push_other _ _ (not_and_or.mp same), kept]
    apply entries_append_other
    rw [represents.current]
    exact not_and_or.mp same

/-- A write that keeps the tag, the next pointer and the visible part of the
data of a node does not change the contents. -/
theorem Represents.rewrite
    (represents : Represents layout view cache contents places)
    (place : Address) (data : δ)
    (unseen : view data = view (cache.heap place).data) :
    Represents layout view
      { cache with
        heap :=
          Function.update cache.heap place
            { cache.heap place with data := data } }
      contents places where
  intact :=
    { chain := fun generation nHashPos =>
        (represents.intact.chain generation nHashPos).rewrite rfl
      inside := represents.intact.inside
      used := represents.intact.used
      size_le := represents.intact.size_le
      offset := represents.intact.offset
      flag := represents.intact.flag }
  current := represents.current
  entries generation nHashPos := by
    rw [represents.entries]
    apply List.map_congr_left
    intro member _
    by_cases same : member = place
    · subst same
      simp [unseen]
    · simp [Function.update_of_ne same]

/-- A time-out clears the generation that is not current. -/
theorem timeOut_eq (intact : Intact layout cache places) :
    timeOut cache =
      { periodFlag := if cache.current = .a then 1 else -1
        memOffset := 0
        heap := cache.heap
        table :=
          Function.update cache.table cache.current.other fun _ => none
        tableSize :=
          Function.update cache.tableSize cache.current.other 0 } := by
  rcases intact.flag with ⟨first, unused⟩ | minus | plus
  · have cleared : Function.update cache.table .b (fun _ => none) =
        cache.table := by
      rw [Function.update_eq_self_iff]
      funext nHashPos
      symm
      rw [← (intact.chain .b nHashPos).eq_nil_iff]
      by_contra nonempty
      obtain ⟨place, member⟩ := List.exists_mem_of_ne_nil _ nonempty
      obtain ⟨index, below, _⟩ := intact.inside member
      omega
    simp [timeOut, Cache.current, first, Generation.other, cleared]
  · simp [timeOut, Cache.current, minus, Generation.other]
  · simp [timeOut, Cache.current, plus, Generation.other]

theorem current_timeOut (intact : Intact layout cache places) :
    (timeOut cache).current = cache.current.other := by
  rw [timeOut_eq intact, Cache.current]
  cases cache.current <;> simp [Generation.other]

theorem Intact.timeOut (intact : Intact layout cache places) :
    Intact layout (timeOut cache)
      (Function.update places cache.current.other fun _ => []) := by
  have turned := current_timeOut intact
  constructor
  case chain =>
    intro generation nHashPos
    rw [timeOut_eq intact]
    by_cases cleared : generation = cache.current.other
    · subst cleared
      simp
    · simpa [Function.update_of_ne cleared] using
        intact.chain generation nHashPos
  case inside =>
    intro generation nHashPos place member
    by_cases cleared : generation = cache.current.other
    · subst cleared
      simp at member
    · rw [Function.update_of_ne cleared] at member
      rw [timeOut_eq intact]
      simpa [Function.update_of_ne cleared] using intact.inside member
  case used =>
    intro generation index below
    rw [timeOut_eq intact] at below
    by_cases cleared : generation = cache.current.other
    · subst cleared
      simp at below
    · rw [Function.update_of_ne cleared]
      exact intact.used
        (by simpa [Function.update_of_ne cleared] using below)
  case size_le =>
    intro generation
    rw [timeOut_eq intact]
    by_cases cleared : generation = cache.current.other
    · subst cleared
      simp
    · simpa [Function.update_of_ne cleared] using
        intact.size_le generation
  case offset =>
    rw [turned, timeOut_eq intact]
    simp
  case flag =>
    rw [timeOut_eq intact]
    cases cache.current <;> simp

theorem Represents.timeOut
    (represents : Represents layout view cache contents places) :
    Represents layout view (timeOut cache) contents.turn
      (Function.update places cache.current.other fun _ => []) := by
  have intact := represents.intact
  refine ⟨intact.timeOut, ?_, ?_⟩
  · rw [current_timeOut intact, Contents.turn, represents.current]
  · intro generation nHashPos
    rw [timeOut_eq intact, Contents.turn, represents.current]
    by_cases cleared : generation = cache.current.other
    · subst cleared
      simp
    · simpa [Function.update_of_ne cleared] using
        represents.entries generation nHashPos

/-- A search finds what the contents know. -/
theorem Represents.find_isSome_iff
    (represents : Represents layout view cache contents places)
    {fuel : Nat} {key : Key} {result : Option Address}
    (found : find fuel cache key = some result) :
    result.isSome ↔ contents.Knows key := by
  have entries : ∀ generation,
      (contents.entries generation key.1).map Prod.fst =
        (places generation key.1).map fun place =>
          (cache.heap place).tag := by
    intro generation
    rw [represents.entries, List.map_map]
    rfl
  have emptyIff :
      contents.entries .a key.1 = [] ↔ places .a key.1 = [] := by
    rw [represents.entries, List.map_eq_nil_iff]
  have looked : (contents.searched key.1).map Prod.fst =
      (places (cache.searched key.1) key.1).map fun place =>
        (cache.heap place).tag := by
    rw [represents.intact.searched_eq, Contents.searched]
    by_cases empty : places .a key.1 = []
    · rw [if_neg (not_not.mpr (emptyIff.mpr empty)),
        if_neg (not_not.mpr empty)]
      exact entries .b
    · rw [if_pos (mt emptyIff.mp empty), if_pos empty]
      exact entries .a
  have walked :=
    walk_eq_find (represents.intact.chain (cache.searched key.1) key.1) found
  rw [walked, Contents.Knows, looked]
  simp [List.find?_isSome]

end Operations

/-! ## Runs -/

section Runs

variable {layout : Layout} {onHit : Generation → UInt32 → δ → Hit δ}
  {view : δ → κ} {cache after : Cache δ} {contents : Contents κ}
  {places : Places}

/-- Everything that a call can do. -/
theorem checkAppend_cases {fuel : Nat} {key : Key} {data : δ} {isAdd : Bool}
    {reply : Reply δ}
    (returned :
      checkAppend layout onHit fuel cache key data isAdd = some reply) :
    (∃ place, find fuel cache key = some (some place) ∧ isAdd = true ∧
      reply = ⟨key.1.toNat, cache, none, []⟩) ∨
    (∃ place, find fuel cache key = some (some place) ∧ isAdd = false ∧
      ∃ hit,
        hit = onHit (cache.searched key.1) key.1 (cache.heap place).data ∧
        reply =
          ⟨hit.ret,
            { cache with
              heap :=
                Function.update cache.heap place
                  { cache.heap place with data := hit.data } },
            none, hit.sent⟩) ∨
    (find fuel cache key = some none ∧ isAdd = true ∧
      reply =
        ⟨key.1.toNat, (insert layout cache key data).2,
          some (insert layout cache key data).1, []⟩) ∨
    (find fuel cache key = some none ∧ isAdd = false ∧
      reply = ⟨-1, cache, none, []⟩) := by
  obtain ⟨result, found, rfl⟩ := Option.map_eq_some_iff.mp returned
  cases result with
  | none =>
      cases isAdd with
      | true => exact .inr (.inr (.inl ⟨found, rfl, rfl⟩))
      | false => exact .inr (.inr (.inr ⟨found, rfl, rfl⟩))
  | some place =>
      cases isAdd with
      | true => exact .inl ⟨place, found, rfl, rfl⟩
      | false => exact .inr (.inl ⟨place, found, rfl, _, rfl, rfl⟩)

/-- An append of a key that the search does not find is made only while there
is room. -/
def Roomy (layout : Layout) (cache : Cache δ) : Event δ → Prop
  | .check key _ true =>
      (∃ fuel, find fuel cache key = some none) → cache.HasRoom layout
  | .check _ _ false => True
  | .timeOut => True

/-- The steps of runs in which there is always room. -/
def RoomyStep (layout : Layout) (onHit : Generation → UInt32 → δ → Hit δ)
    (before : Cache δ) (label : Label δ) (after : Cache δ) : Prop :=
  Roomy layout before label.event ∧ Step layout onHit before label after

/-- A step takes the contents to the contents with its event recorded. -/
theorem Represents.step
    (represents : Represents layout view cache contents places)
    (unseen : ∀ generation nHashPos data,
      view (onHit generation nHashPos data).data = view data)
    {label : Label δ} (taken : RoomyStep layout onHit cache label after) :
    ∃ places', Represents layout view after (contents.record view label)
      places' := by
  obtain ⟨roomy, taken⟩ := taken
  cases taken with
  | timeOut => exact ⟨_, represents.timeOut⟩
  | @check fuel key data isAdd reply returned =>
      rcases checkAppend_cases returned with
        ⟨place, found, rfl, rfl⟩ | ⟨place, found, rfl, hit, rfl, rfl⟩ |
        ⟨missing, rfl, rfl⟩ | ⟨missing, rfl, rfl⟩
      · exact ⟨_, represents⟩
      · exact ⟨_, represents.rewrite place _ (unseen _ _ _)⟩
      · exact ⟨_, represents.insert (roomy ⟨fuel, missing⟩) key data⟩
      · exact ⟨_, represents⟩

/-- The tables hold what the events with these labels appended. -/
def Recorded (layout : Layout) (view : δ → κ) (labels : List (Label δ))
    (cache : Cache δ) : Prop :=
  ∃ places, Represents layout view cache (Contents.recordAll view labels)
    places

theorem Recorded.step {front : List (Label δ)}
    (recorded : Recorded layout view front cache)
    (unseen : ∀ generation nHashPos data,
      view (onHit generation nHashPos data).data = view data)
    {label : Label δ} (taken : RoomyStep layout onHit cache label after) :
    Recorded layout view (front ++ [label]) after := by
  obtain ⟨places, represents⟩ := recorded
  rw [Recorded, Contents.recordAll, List.foldl_append]
  exact represents.step unseen taken

/-- After a run the tables hold what was appended to them. -/
theorem recorded_of_run
    (unseen : ∀ generation nHashPos data,
      view (onHit generation nHashPos data).data = view data)
    {heap : Address → Cell Address Tag δ} {labels : List (Label δ)}
    (run : Run (RoomyStep layout onHit) (initial heap) labels after) :
    Recorded layout view labels after := by
  have start : Recorded layout view ([] : List (Label δ)) (initial heap) :=
    ⟨_, represents_initial layout view heap⟩
  exact @Run.history _ _ _ _ _ _ (Recorded layout view)
    (fun recorded taken => recorded.step unseen taken) run [] start

/--
What the integrity of the pools gives in one state.

Every bucket leads to a chain without a cycle that consists of the nodes
appended since the table was cleared, every search ends, and an append takes
memory that no table leads to exactly when there is room for it.
-/
def Integrity (layout : Layout) (view : δ → κ) (cache : Cache δ)
    (contents : Contents κ) : Prop :=
  (∀ generation nHashPos, ∃ places,
    Chain cache.heap (cache.table generation nHashPos) places ∧
      places.Nodup ∧
      (places.map fun place =>
        ((cache.heap place).tag, view (cache.heap place).data)) =
          contents.entries generation nHashPos) ∧
  (∀ key, ∃ fuel result, find fuel cache key = some result) ∧
  (∀ key data,
    (∀ generation nHashPos,
      ¬ Reaches cache.heap (cache.table generation nHashPos)
        (insert layout cache key data).1) ↔
      cache.HasRoom layout)

theorem Represents.integrity
    (represents : Represents layout view cache contents places) :
    Integrity layout view cache contents := by
  have intact := represents.intact
  refine ⟨?_, intact.find_terminates, ?_⟩
  · intro generation nHashPos
    have chain := intact.chain generation nHashPos
    exact ⟨_, chain, chain.nodup,
      (represents.entries generation nHashPos).symm⟩
  · intro key data
    rw [← intact.fresh_iff key data]
    constructor
    · intro unreached generation nHashPos member
      exact unreached generation nHashPos
        ((intact.chain _ _).mem_iff_reaches.mp member)
    · intro fresh generation nHashPos reached
      exact fresh generation nHashPos
        ((intact.chain _ _).mem_iff_reaches.mpr reached)

end Runs

end WindowSystem.Client.GenerationCache
