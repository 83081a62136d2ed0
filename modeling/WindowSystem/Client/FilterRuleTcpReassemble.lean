import WindowSystem.Client.FilterRuleUserClean

/-!
# The reassembly cache of the client and the pools of both caches

`filter_rule_tcp_reassemble.c` is the second instance of the two-generation
cache.  It differs from the user-clean cache in the allocator: both branches
of `tcp_reassemble_alloc_mem` take the memory from pool A.  The last section
states for both caches when the memory of a node stays its own.
-/

namespace WindowSystem.Client.FilterRuleTcpReassemble

open WindowSystem.CRuntime
open WindowSystem.Library.ChainHeap
open WindowSystem.Library.LabelledRun
open WindowSystem.Client.GenerationCache
open WindowSystem.Client.FilterRuleUserClean

/-! ## The cache -/

/-- The addresses and ports of a segment. -/
structure Connection where
  srcIp : UInt32
  dstIp : UInt32
  srcPort : UInt32
  dstPort : UInt32
deriving DecidableEq

/-- `tcp_reassemble_get_ip_ua_url_hash`; the table of the hash and the rounds
are those of the user-clean cache. -/
def tcpReassembleGetIpUaUrlHash (connection : Connection)
    (dwHashType : Nat) : UInt64 :=
  ((ipBytes connection.srcIp ++ ipBytes connection.dstIp ++
      ipBytes connection.srcPort ++ ipBytes connection.dstPort).foldl
    (hashRound dwHashType) (0x7FED7FED, 0xEEEEEEEE)).1

/-- The bucket and the two hashes of a connection. -/
def connectionKey (connection : Connection) : Key :=
  ((tcpReassembleGetIpUaUrlHash connection 0).toUInt32 % 1000,
    (tcpReassembleGetIpUaUrlHash connection 1).toUInt32,
    (tcpReassembleGetIpUaUrlHash connection 2).toUInt32)

/-- Nodes of 24 bytes, all of them from pool A. -/
def tcpReassembleLayout : Layout where
  nodeSize := 24
  poolSize := 1000
  pool _ := .a
  nodeSize_pos := by decide

/-- A node that is found is left as it is. -/
def tcpReassembleHit (_ : Generation) (nHashPos : UInt32)
    (jsonStr : Bytes) : Hit Bytes where
  ret := nHashPos.toNat
  data := jsonStr
  sent := []

/-- `tcp_reassemble_check_append_ip_ua_url`. -/
def tcpReassembleCheckAppendIpUaUrl (fuel : Nat) (cache : Cache Bytes)
    (connection : Connection) (jsonStr : Bytes) (isAdd : Bool) :
    Option (Reply Bytes) :=
  checkAppend tcpReassembleLayout tcpReassembleHit fuel cache
    (connectionKey connection) jsonStr isAdd

/-- `tcp_reassemble_check`. -/
def tcpReassembleCheck (fuel : Nat) (cache : Cache Bytes)
    (connection : Connection) (jsonStr : Bytes) : Option (Reply Bytes) :=
  tcpReassembleCheckAppendIpUaUrl fuel cache connection jsonStr true

/-- `tcp_reassemble_period_time_out`. -/
def tcpReassemblePeriodTimeOut (cache : Cache Bytes) : Cache Bytes :=
  timeOut cache

/-! ## The pools of the two caches -/

/-- The pools of the user-clean cache are not shared, so that there is room as
long as the current one is not used up. -/
theorem hasRoom_userClean_iff (cache : Cache IpUaUrlNode) :
    cache.HasRoom userCleanLayout ↔
      cache.tableSize cache.current < 1499969 := by
  have capacity : userCleanLayout.capacity = 1499969 := by decide +kernel
  have apart : userCleanLayout.pool cache.current.other ≠
      userCleanLayout.pool cache.current := cache.current.other_ne
  simp [Cache.HasRoom, capacity, apart]

/-- In the reassembly cache the nodes of the other generation have to be
passed first. -/
theorem hasRoom_tcpReassemble_iff (cache : Cache Bytes) :
    cache.HasRoom tcpReassembleLayout ↔
      cache.tableSize cache.current < 959 ∧
        cache.tableSize cache.current.other ≤
          cache.tableSize cache.current := by
  have capacity : tcpReassembleLayout.capacity = 959 := by decide +kernel
  have shared : tcpReassembleLayout.pool cache.current.other =
      tcpReassembleLayout.pool cache.current := rfl
  simp [Cache.HasRoom, capacity, shared]

/--
In every run of the user-clean cache, and in every run of the reassembly
cache, in which each insertion finds room, the pools keep their integrity.
-/
theorem generationPools_intact
    {pageHeap : Address → Cell Address Tag IpUaUrlNode}
    {pageLabels : List (Label IpUaUrlNode)} {pages : Cache IpUaUrlNode}
    {segmentHeap : Address → Cell Address Tag Bytes}
    {segmentLabels : List (Label Bytes)} {segments : Cache Bytes}
    (pageRun : Run (RoomyStep userCleanLayout userCleanHit)
      (initial pageHeap) pageLabels pages)
    (segmentRun : Run (RoomyStep tcpReassembleLayout tcpReassembleHit)
      (initial segmentHeap) segmentLabels segments) :
    Integrity userCleanLayout IpUaUrlNode.jsonStr pages
        (Contents.recordAll IpUaUrlNode.jsonStr pageLabels) ∧
      Integrity tcpReassembleLayout id segments
        (Contents.recordAll id segmentLabels) := by
  constructor
  · obtain ⟨places, represents⟩ := recorded_of_run jsonStr_userCleanHit pageRun
    exact represents.integrity
  · have unseen : ∀ searched nHashPos jsonStr,
        id (tcpReassembleHit searched nHashPos jsonStr).data =
          id jsonStr := fun _ _ _ => rfl
    obtain ⟨places, represents⟩ := recorded_of_run unseen segmentRun
    exact represents.integrity

/-- A pool whose memory has not been written yet. -/
def freshSegments : Address → Cell Address Tag Bytes :=
  fun _ => ⟨(0, 0), [], none⟩

/-- The first insertion always finds room. -/
theorem firstInsertion {δ : Type} (layout : Layout)
    (onHit : Generation → UInt32 → δ → Hit δ)
    (heap : Address → Cell Address Tag δ) (key : Key) (data : δ) :
    Run (RoomyStep layout onHit) (initial heap)
      [⟨.check key data true, key.1.toNat,
        some (insert layout (initial heap) key data).1⟩]
      (insert layout (initial heap) key data).2 := by
  have returned : checkAppend layout onHit 1 (initial heap) key data true =
      some ⟨key.1.toNat, (insert layout (initial heap) key data).2,
        some (insert layout (initial heap) key data).1, []⟩ := rfl
  refine Run.single ⟨fun _ => ?_, .check returned⟩
  exact ⟨Nat.succ_pos _, fun _ => Nat.le_refl _⟩

/-- The cache after an insertion and two time-outs. -/
def turnedTwice {δ : Type} (layout : Layout)
    (heap : Address → Cell Address Tag δ) (key : Key) (data : δ) : Cache δ :=
  timeOut (timeOut (insert layout (initial heap) key data).2)

/-- After two time-outs the next insertion finds room again. -/
theorem insertionAfterTimeOuts {δ : Type} (layout : Layout)
    (onHit : Generation → UInt32 → δ → Hit δ)
    (heap : Address → Cell Address Tag δ) (key other : Key) (data more : δ) :
    Run (RoomyStep layout onHit) (initial heap)
      [⟨.check key data true, key.1.toNat,
          some (insert layout (initial heap) key data).1⟩,
        ⟨.timeOut, 0, none⟩, ⟨.timeOut, 0, none⟩,
        ⟨.check other more true, other.1.toNat,
          some (insert layout (turnedTwice layout heap key data) other
            more).1⟩]
      (insert layout (turnedTwice layout heap key data) other more).2 := by
  have returned : checkAppend layout onHit 1
      (turnedTwice layout heap key data) other more true =
        some ⟨other.1.toNat,
          (insert layout (turnedTwice layout heap key data) other more).2,
          some (insert layout (turnedTwice layout heap key data) other
            more).1, []⟩ := rfl
  have turned : ∀ cache : Cache δ, RoomyStep layout onHit cache
      ⟨.timeOut, 0, none⟩ (timeOut cache) :=
    fun cache => ⟨trivial, .timeOut cache⟩
  refine (firstInsertion layout onHit heap key data).append
    (.cons (turned _) (.cons (turned _) (.single ⟨fun _ => ?_,
      .check returned⟩)))
  exact ⟨Nat.succ_pos _, fun _ => Nat.le_refl _⟩

theorem generationPools_intact_afterTimeOuts :
    Integrity userCleanLayout IpUaUrlNode.jsonStr
      (insert userCleanLayout
        (turnedTwice userCleanLayout freshPool (7, 1, 2) ⟨[], 0⟩)
        (8, 3, 4) ⟨[], 0⟩).2
      (Contents.recordAll IpUaUrlNode.jsonStr
        [⟨.check (7, 1, 2) ⟨[], 0⟩ true, 7, some ⟨.a, 0⟩⟩,
          ⟨.timeOut, 0, none⟩, ⟨.timeOut, 0, none⟩,
          ⟨.check (8, 3, 4) ⟨[], 0⟩ true, 8, some ⟨.a, 0⟩⟩]) ∧
    Integrity tcpReassembleLayout id
      (insert tcpReassembleLayout
        (turnedTwice tcpReassembleLayout freshSegments (7, 1, 2) [])
        (8, 3, 4) []).2
      (Contents.recordAll id
        [⟨.check (7, 1, 2) [] true, 7, some ⟨.a, 0⟩⟩,
          ⟨.timeOut, 0, none⟩, ⟨.timeOut, 0, none⟩,
          ⟨.check (8, 3, 4) [] true, 8, some ⟨.a, 0⟩⟩]) :=
  generationPools_intact
    (insertionAfterTimeOuts _ _ freshPool _ _ _ _)
    (insertionAfterTimeOuts _ _ freshSegments _ _ _ _)

/-- The reassembly cache after one segment and a time-out. -/
def segmentKept : Cache Bytes :=
  timeOut
    (insert tcpReassembleLayout (initial freshSegments)
      (connectionKey ⟨1, 2, 3, 4⟩) []).2

/-- The second segment takes the memory of the first one. -/
def segmentLost : Cache Bytes :=
  (insert tcpReassembleLayout segmentKept (connectionKey ⟨5, 6, 7, 8⟩) []).2

/-- In the period after its insertion the memory of a node that table A still
leads to is handed out again, and its connection is not found any more. -/
theorem generationPools_reused :
    (∃ labels label,
      Run (Step tcpReassembleLayout tcpReassembleHit)
          (initial freshSegments) labels segmentKept ∧
        Step tcpReassembleLayout tcpReassembleHit segmentKept label
          segmentLost ∧
        ∃ place nHashPos, label.allocated = some place ∧
          Reaches segmentKept.heap (segmentKept.table .a nHashPos) place) ∧
    find 4 segmentKept (connectionKey ⟨1, 2, 3, 4⟩) = some (some ⟨.a, 0⟩) ∧
    find 4 segmentLost (connectionKey ⟨1, 2, 3, 4⟩) = some none := by
  refine ⟨?_, by decide +kernel, by decide +kernel⟩
  have stored := (firstInsertion tcpReassembleLayout tcpReassembleHit
    freshSegments (connectionKey ⟨1, 2, 3, 4⟩) []).mono And.right
  have turned := stored.append (.single (.timeOut _))
  have missing : find 4 segmentKept (connectionKey ⟨5, 6, 7, 8⟩) =
      some none := by decide +kernel
  have returned : checkAppend tcpReassembleLayout tcpReassembleHit 4
      segmentKept (connectionKey ⟨5, 6, 7, 8⟩) [] true =
      some ⟨(connectionKey ⟨5, 6, 7, 8⟩).1.toNat, segmentLost,
        some (insert tcpReassembleLayout segmentKept
          (connectionKey ⟨5, 6, 7, 8⟩) []).1, []⟩ := by
    rw [checkAppend, missing]
    rfl
  refine ⟨_, _, turned, .check returned, ⟨.a, 0⟩,
    (connectionKey ⟨1, 2, 3, 4⟩).1, by decide +kernel, ?_⟩
  have head : segmentKept.table .a (connectionKey ⟨1, 2, 3, 4⟩).1 =
      some ⟨.a, 0⟩ := by decide +kernel
  rw [head]
  exact .here _

end WindowSystem.Client.FilterRuleTcpReassemble
