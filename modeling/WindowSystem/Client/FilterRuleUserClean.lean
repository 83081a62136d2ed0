import Mathlib.Data.Nat.Digits.Defs
import WindowSystem.ToolHashMap
import WindowSystem.Client.GenerationCache

/-!
# The user-clean cache of the client

`filter_rule_user_clean.c` remembers the pages that a user has requested, so
that a later request with one of them as its referer can be told from a
request of the user's own.  It is an instance of the two-generation cache.
The design comment promises that a page stays for at least one full period.
The last section proves in which runs that promise is kept.
-/

namespace WindowSystem.Client.FilterRuleUserClean

open WindowSystem.CRuntime
open WindowSystem.Library.ChainHeap
open WindowSystem.Library.LabelledRun
open WindowSystem.Client.GenerationCache

/-! ## The hash of a page -/

/-- The ranges that identify a page; a request is known by its referer alone
when the host is missing.  The callers and `user_clean_check_append_ip_ua_url`
both exchange the host with the agent, so that they arrive in this order. -/
structure PageArgs where
  ip : UInt32
  host : Option Bytes
  ua : Bytes
  uri : Bytes
deriving DecidableEq

/-- What the hash reads of the ranges. -/
structure Page where
  ip : UInt32
  ua : Bytes
  url : Bytes
deriving DecidableEq

/-- The bytes of the url that the two loops with the counter `z` read. -/
def urlBytes (host : Option Bytes) (uri : Bytes) : Bytes :=
  let read :=
    match host with
    | some host => ascii "http://" ++ host.take (200 - 7)
    | none => []
  read ++ uri.take (200 - read.length)

/-- What `user_clean_get_ip_ua_url_hash` reads. -/
def pageOf (args : PageArgs) : Page where
  ip := args.ip
  ua := args.ua.take 15
  url := urlBytes args.host args.uri

/-- A request and a referer with the same address are the same page. -/
theorem urlBytes_some (host uri : Bytes) :
    urlBytes (some host) uri =
      urlBytes none (ascii "http://" ++ host ++ uri) := by
  have scheme : (ascii "http://").length = 7 := rfl
  have short : (ascii "http://").take 200 = ascii "http://" :=
    List.take_of_length_le (by rw [scheme]; decide)
  simp only [urlBytes, List.nil_append, List.length_nil, Nat.sub_zero,
    List.take_append, List.length_append, List.length_take, scheme, short]
  congr 2
  omega

/-- The digits of the address from the last one on, as the first loop of the
hash meets them. -/
def ipBytes (ip : UInt32) : Bytes :=
  (Nat.digits 10 ip.toNat).map fun digit => (digit + 48).toUInt8

/-- `uc_ip_ua_url_crypt_table` is filled by the same generator as the table
of the hash map. -/
def ucIpUaUrlCryptTable (index : Nat) : UInt64 :=
  ToolHashMap.toolCryptTable index

/-- One round of a hash loop. -/
def hashRound (dwHashType : Nat) (seeds : UInt64 × UInt64) (ch : UInt8) :
    UInt64 × UInt64 :=
  let seed1 :=
    ucIpUaUrlCryptTable ((dwHashType <<< 8) + ch.toNat) ^^^
      (seeds.1 + seeds.2)
  (seed1,
    UInt64.ofNat ch.toNat + seed1 + seeds.2 + (seeds.2 <<< 5) + 3)

/-- `user_clean_get_ip_ua_url_hash`. -/
def userCleanGetIpUaUrlHash (page : Page) (dwHashType : Nat) : UInt64 :=
  ((ipBytes page.ip ++ page.ua ++ page.url).foldl (hashRound dwHashType)
    (0x7FED7FED, 0xEEEEEEEE)).1

/-- The bucket and the two hashes of a page. -/
def pageKey (page : Page) : Key :=
  ((userCleanGetIpUaUrlHash page 0).toUInt32 % 1000000,
    (userCleanGetIpUaUrlHash page 1).toUInt32,
    (userCleanGetIpUaUrlHash page 2).toUInt32)

/-! ## The cache -/

/-- The data of `struct IP_UA_URL_NODE`. -/
structure IpUaUrlNode where
  jsonStr : Bytes
  sendFlag : UInt8

/-- Nodes of 32 bytes in two pools; the allocator uses the pool of the current
generation. -/
def userCleanLayout : Layout where
  nodeSize := 32
  poolSize := 1500000
  pool generation := generation
  nodeSize_pos := by decide

/-- A parent that is found is sent once. -/
def userCleanHit (searched : Generation) (nHashPos : UInt32)
    (node : IpUaUrlNode) : Hit IpUaUrlNode :=
  if node.sendFlag = 0 then
    { ret := -2, data := { node with sendFlag := 1 },
      sent := [node.jsonStr] }
  else
    match searched with
    | .a => { ret := -3, data := node, sent := [] }
    | .b =>
        if node.sendFlag = 1 then { ret := -3, data := node, sent := [] }
        else { ret := nHashPos.toNat, data := node, sent := [] }

/-- `user_clean_check_append_ip_ua_url`. -/
def userCleanCheckAppendIpUaUrl (fuel : Nat) (cache : Cache IpUaUrlNode)
    (args : PageArgs) (jsonStr : Bytes) (isAdd : Bool) :
    Option (Reply IpUaUrlNode) :=
  checkAppend userCleanLayout userCleanHit fuel cache
    (pageKey (pageOf args)) { jsonStr := jsonStr, sendFlag := 0 } isAdd

/-- `user_clean_check_parent`. -/
def userCleanCheckParent (fuel : Nat) (cache : Cache IpUaUrlNode)
    (args : PageArgs) (jsonStr : Bytes) : Option (Reply IpUaUrlNode) :=
  userCleanCheckAppendIpUaUrl fuel cache args jsonStr false

/-- `user_clean_append_queue`. -/
def userCleanAppendQueue (fuel : Nat) (cache : Cache IpUaUrlNode)
    (args : PageArgs) (jsonStr : Bytes) : Option (Reply IpUaUrlNode) :=
  userCleanCheckAppendIpUaUrl fuel cache args jsonStr true

/-- `user_clean_time_out`. -/
def userCleanTimeOut (cache : Cache IpUaUrlNode) : Cache IpUaUrlNode :=
  timeOut cache

/-- A call of one of the three functions. -/
inductive UserCleanEvent where
  | appendQueue (args : PageArgs) (jsonStr : Bytes)
  | checkParent (args : PageArgs) (jsonStr : Bytes)
  | timeOut
deriving DecidableEq

/-- A call, with the return value and the state after it. -/
def userCleanCall (fuel : Nat) (cache : Cache IpUaUrlNode) :
    UserCleanEvent → Option (Int × Cache IpUaUrlNode)
  | .appendQueue args jsonStr =>
      (userCleanAppendQueue fuel cache args jsonStr).map fun reply =>
        (reply.ret, reply.cache)
  | .checkParent args jsonStr =>
      (userCleanCheckParent fuel cache args jsonStr).map fun reply =>
        (reply.ret, reply.cache)
  | .timeOut => some (0, userCleanTimeOut cache)

/-- A call and its return value. -/
abbrev UserCleanLabel := UserCleanEvent × Int

/-- One call that comes back. -/
def UserCleanStep (before : Cache IpUaUrlNode) (label : UserCleanLabel)
    (after : Cache IpUaUrlNode) : Prop :=
  ∃ fuel, userCleanCall fuel before label.1 = some (label.2, after)

/-- The event of the two-generation cache that a call is. -/
def UserCleanEvent.toEvent : UserCleanEvent → Event IpUaUrlNode
  | .appendQueue args jsonStr =>
      .check (pageKey (pageOf args)) ⟨jsonStr, 0⟩ true
  | .checkParent args jsonStr =>
      .check (pageKey (pageOf args)) ⟨jsonStr, 0⟩ false
  | .timeOut => .timeOut

/-- A call is a step of the two-generation cache. -/
theorem UserCleanStep.toStep {before after : Cache IpUaUrlNode}
    {label : UserCleanLabel} (taken : UserCleanStep before label after) :
    ∃ allocated, Step userCleanLayout userCleanHit before
      ⟨label.1.toEvent, label.2, allocated⟩ after := by
  obtain ⟨fuel, called⟩ := taken
  obtain ⟨event, ret⟩ := label
  cases event with
  | appendQueue args jsonStr =>
      obtain ⟨reply, returned, equal⟩ := Option.map_eq_some_iff.mp called
      cases equal
      exact ⟨_, .check returned⟩
  | checkParent args jsonStr =>
      obtain ⟨reply, returned, equal⟩ := Option.map_eq_some_iff.mp called
      cases equal
      exact ⟨_, .check returned⟩
  | timeOut =>
      cases called
      exact ⟨_, .timeOut _⟩

/-- Searches change only the flag of a node. -/
theorem jsonStr_userCleanHit (searched : Generation) (nHashPos : UInt32)
    (node : IpUaUrlNode) :
    (userCleanHit searched nHashPos node).data.jsonStr = node.jsonStr := by
  unfold userCleanHit
  split_ifs
  · rfl
  · cases searched <;> rfl
  · cases searched <;> rfl

/-- A node that is found never gives the answer for a missing one. -/
theorem ret_userCleanHit (searched : Generation) (nHashPos : UInt32)
    (node : IpUaUrlNode) :
    (userCleanHit searched nHashPos node).ret ≠ -1 := by
  unfold userCleanHit
  split_ifs
  · simp
  · cases searched <;> simp
  · cases searched with
    | a => simp
    | b => dsimp only; omega

/-! ## Retention -/

/-- The number of time-outs among some calls. -/
def timeOuts (labels : List UserCleanLabel) : Nat :=
  labels.countP fun label => label.1 matches .timeOut

/-- The promise of the design comment for one run: a search for a page that
was appended finds it until the second time-out. -/
def Retained (labels : List UserCleanLabel) : Prop :=
  ∀ front args jsonStr appended middle args' jsonStr' ret back,
    labels =
      front ++ (.appendQueue args jsonStr, appended) :: middle ++
        (.checkParent args' jsonStr', ret) :: back →
    pageOf args' = pageOf args →
    timeOuts middle ≤ 1 →
    ret ≠ -1

/-- The node pool is not exhausted by the call. -/
def PoolLeft (cache : Cache IpUaUrlNode) : UserCleanEvent → Prop
  | .appendQueue _ _ =>
      cache.tableSize cache.current < userCleanLayout.capacity
  | .checkParent _ _ => True
  | .timeOut => True

instance (cache : Cache IpUaUrlNode) :
    (event : UserCleanEvent) → Decidable (PoolLeft cache event)
  | .appendQueue _ _ => inferInstanceAs (Decidable (_ < _))
  | .checkParent _ _ => .isTrue trivial
  | .timeOut => .isTrue trivial

/-- A page is appended only while the bucket of its hash is empty in the
generation that is not current. -/
def Unshadowed (cache : Cache IpUaUrlNode) : UserCleanEvent → Prop
  | .appendQueue args _ =>
      cache.table cache.current.other (pageKey (pageOf args)).1 = none
  | .checkParent _ _ => True
  | .timeOut => True

instance (cache : Cache IpUaUrlNode) :
    (event : UserCleanEvent) → Decidable (Unshadowed cache event)
  | .appendQueue _ _ => inferInstanceAs (Decidable (_ = _))
  | .checkParent _ _ => .isTrue trivial
  | .timeOut => .isTrue trivial

/-- Steps that do not exhaust the node pool. -/
def PooledStep (before : Cache IpUaUrlNode) (label : UserCleanLabel)
    (after : Cache IpUaUrlNode) : Prop :=
  PoolLeft before label.1 ∧ UserCleanStep before label after

/-- Steps that do not exhaust the node pool and append no page whose bucket
the other generation uses. -/
def UnshadowedStep (before : Cache IpUaUrlNode) (label : UserCleanLabel)
    (after : Cache IpUaUrlNode) : Prop :=
  Unshadowed before label.1 ∧ PooledStep before label after

/-- No bucket is used by both generations. -/
def Exclusive (contents : Contents Bytes) : Prop :=
  ∀ nHashPos, contents.entries .a nHashPos = [] ∨
    contents.entries .b nHashPos = []

/-- The tag is among the entries of its bucket in a generation. -/
def Holds (contents : Contents Bytes) (generation : Generation)
    (key : Key) : Prop :=
  key.2 ∈ (contents.entries generation key.1).map Prod.fst

/-- A state of a run in which no bucket is used by both generations. -/
def Sound (cache : Cache IpUaUrlNode) (contents : Contents Bytes) : Prop :=
  Exclusive contents ∧
    ∃ places, Represents userCleanLayout IpUaUrlNode.jsonStr cache contents
      places

section Retention

variable {cache before after : Cache IpUaUrlNode}
  {contents : Contents Bytes} {label : UserCleanLabel} {key : Key}

theorem Exclusive.knows_iff (exclusive : Exclusive contents)
    (generation : Generation) :
    contents.Knows key ↔
      Holds contents generation key ∨
        Holds contents generation.other key := by
  have either : contents.Knows key ↔
      Holds contents .a key ∨ Holds contents .b key := by
    rw [Contents.Knows, Contents.searched, Holds, Holds]
    rcases exclusive key.1 with unused | unused
    · simp [unused]
    · by_cases empty : contents.entries .a key.1 = []
      · simp [empty, unused]
      · simp [empty, unused]
  cases generation with
  | a => exact either
  | b => exact either.trans or_comm

theorem not_holds_of_unused {generation : Generation}
    (unused : contents.entries generation key.1 = []) :
    ¬ Holds contents generation key := by
  simp [Holds, unused]

theorem Exclusive.append {jsonStr : Bytes}
    (exclusive : Exclusive contents)
    (unshadowed : contents.entries contents.current.other key.1 = []) :
    Exclusive (contents.append key jsonStr) := by
  intro nHashPos
  by_cases same : nHashPos = key.1
  · subst same
    have still : (contents.append key jsonStr).entries
        contents.current.other key.1 = [] := by
      rw [entries_append_other _ _ _ (.inl contents.current.other_ne)]
      exact unshadowed
    cases current : contents.current with
    | a => exact .inr (by simpa [current, Generation.other] using still)
    | b => exact .inl (by simpa [current, Generation.other] using still)
  · rw [entries_append_other _ _ _ (.inr same),
      entries_append_other _ _ _ (.inr same)]
    exact exclusive nHashPos

/-- After a time-out the current generation is empty. -/
theorem exclusive_turn (contents : Contents Bytes) :
    Exclusive contents.turn := by
  intro nHashPos
  have cleared := entries_turn_other contents nHashPos
  cases current : contents.current with
  | a => exact .inr (by simpa [current, Generation.other] using cleared)
  | b => exact .inl (by simpa [current, Generation.other] using cleared)

theorem Holds.append {jsonStr : Bytes} {generation : Generation}
    {other : Key} (held : Holds contents generation key) :
    Holds (contents.append other jsonStr) generation key := by
  by_cases same : generation = contents.current ∧ key.1 = other.1
  · obtain ⟨rfl, bucket⟩ := same
    rw [Holds, bucket] at held
    rw [Holds, bucket, entries_append_same]
    exact List.mem_cons_of_mem _ held
  · rwa [Holds, entries_append_other _ _ _ (not_and_or.mp same)]

theorem holds_append (contents : Contents Bytes) (key : Key)
    (jsonStr : Bytes) :
    Holds (contents.append key jsonStr) contents.current key := by
  rw [Holds, entries_append_same]
  exact List.mem_cons_self

theorem Holds.turn (held : Holds contents contents.current key) :
    Holds contents.turn contents.turn.current.other key := by
  have back : contents.turn.current.other = contents.current := by
    cases current : contents.current <;> simp [Contents.turn, current,
      Generation.other]
  rw [back, Holds, entries_turn_current]
  exact held

/-- What a step of such a run does. -/
theorem UnshadowedStep.cases (sound : Sound before contents)
    (taken : UnshadowedStep before label after) :
    (label.1 = .timeOut ∧ Sound after contents.turn) ∨
    (∃ args jsonStr, label.1 = .checkParent args jsonStr ∧
      Sound after contents ∧
      (contents.Knows (pageKey (pageOf args)) → label.2 ≠ -1)) ∨
    (∃ args jsonStr contents', label.1 = .appendQueue args jsonStr ∧
      Sound after contents' ∧ contents'.current = contents.current ∧
      Holds contents' contents.current (pageKey (pageOf args)) ∧
      ∀ generation key, Holds contents generation key →
        Holds contents' generation key) := by
  obtain ⟨exclusive, places, represents⟩ := sound
  obtain ⟨unshadowed, left, fuel, called⟩ := taken
  obtain ⟨event, ret⟩ := label
  cases event with
  | timeOut =>
      cases called
      exact .inl ⟨rfl, exclusive_turn contents, _, represents.timeOut⟩
  | checkParent args jsonStr =>
      refine .inr (.inl ⟨args, jsonStr, rfl, ?_⟩)
      obtain ⟨reply, returned, equal⟩ := Option.map_eq_some_iff.mp called
      cases equal
      rcases checkAppend_cases returned with
        ⟨place, found, absurdity, _⟩ | ⟨place, found, _, hit, rfl, rfl⟩ |
        ⟨missing, absurdity, _⟩ | ⟨missing, _, rfl⟩
      · cases absurdity
      · refine ⟨⟨exclusive, _, represents.rewrite place _ ?_⟩, ?_⟩
        · exact jsonStr_userCleanHit _ _ _
        · exact fun _ => ret_userCleanHit _ _ _
      · cases absurdity
      · refine ⟨⟨exclusive, _, represents⟩, fun known => ?_⟩
        have found := (represents.find_isSome_iff missing).mpr known
        cases found
  | appendQueue args jsonStr =>
      refine .inr (.inr ⟨args, jsonStr, ?_⟩)
      obtain ⟨reply, returned, equal⟩ := Option.map_eq_some_iff.mp called
      cases equal
      have unused : contents.entries contents.current.other
          (pageKey (pageOf args)).1 = [] := by
        rw [represents.entries, represents.current, List.map_eq_nil_iff]
        exact (represents.intact.chain _ _).eq_nil_iff.mpr unshadowed
      rcases checkAppend_cases returned with
        ⟨place, found, _, rfl⟩ | ⟨place, found, absurdity, _⟩ |
        ⟨missing, _, rfl⟩ | ⟨missing, absurdity, _⟩
      · refine ⟨contents, rfl, ⟨exclusive, _, represents⟩, rfl, ?_,
          fun _ _ held => held⟩
        have known := (represents.find_isSome_iff found).mp rfl
        rw [exclusive.knows_iff contents.current] at known
        exact known.resolve_right (not_holds_of_unused unused)
      · cases absurdity
      · have room : before.HasRoom userCleanLayout :=
          ⟨left, fun samePool =>
            absurd samePool (by simp [userCleanLayout])⟩
        exact ⟨_, rfl,
          ⟨exclusive.append unused, _, represents.insert room _ _⟩, rfl,
          holds_append contents _ _, fun _ _ held => held.append⟩
      · cases absurdity

/-- The page stays at least until the next time-out, or, once `turned`, until
the one after it. -/
def Kept (key : Key) (turned : Bool) (cache : Cache IpUaUrlNode) : Prop :=
  ∃ contents, Sound cache contents ∧
    (Holds contents contents.current key ∨
      turned = true ∧ Holds contents contents.current.other key)

theorem Kept.step {turned : Bool} (kept : Kept key turned before)
    (taken : UnshadowedStep before label after)
    (once : label.1 = .timeOut → turned = false) :
    Kept key (turned || label.1 matches .timeOut) after := by
  obtain ⟨contents, sound, held⟩ := kept
  rcases taken.cases sound with
    ⟨event, still⟩ | ⟨args, jsonStr, event, still, _⟩ |
    ⟨args, jsonStr, contents', event, still, same, _, grown⟩
  · have first := once event
    rw [first] at held
    refine ⟨contents.turn, still, .inr ⟨by simp [event], ?_⟩⟩
    exact (held.resolve_right fun impossible =>
      Bool.false_ne_true impossible.1).turn
  · refine ⟨contents, still, ?_⟩
    simpa [event] using held
  · refine ⟨contents', still, ?_⟩
    rw [same]
    simp only [event, Bool.or_false]
    exact held.imp (grown _ _) (And.imp_right (grown _ _))

theorem Kept.run {turned : Bool} {labels : List UserCleanLabel}
    (run : Run UnshadowedStep before labels after)
    (kept : Kept key turned before)
    (once : timeOuts labels + turned.toNat ≤ 1) : Kept key true after := by
  induction run generalizing turned with
  | nil =>
      obtain ⟨contents, sound, held⟩ := kept
      exact ⟨contents, sound, held.imp_right fun other => ⟨rfl, other.2⟩⟩
  | @cons first middle last label labels head _ induction =>
      rw [timeOuts, List.countP_cons] at once
      by_cases event : label.1 = .timeOut
      · have first : turned = false := by
          cases turned with
          | false => rfl
          | true => simp [event] at once
        have next := kept.step head fun _ => first
        refine induction next ?_
        simp only [event, if_true, first] at once ⊢
        simpa [timeOuts] using once
      · have next := kept.step head fun absurdity => absurd absurdity event
        have quiet : (label.1 matches .timeOut) = false := by
          cases which : label.1 with
          | appendQueue args jsonStr => rfl
          | checkParent args jsonStr => rfl
          | timeOut => exact absurd which event
        rw [quiet, Bool.or_false] at next
        refine induction next ?_
        simpa [timeOuts, quiet] using once

theorem sound_initial (heap : Address → Cell Address Tag IpUaUrlNode) :
    ∃ contents, Sound (initial heap) contents :=
  ⟨.empty, fun _ => .inl rfl, _, represents_initial _ _ heap⟩

theorem UnshadowedStep.sound
    (sound : ∃ contents, Sound before contents)
    (taken : UnshadowedStep before label after) :
    ∃ contents, Sound after contents := by
  obtain ⟨contents, sound⟩ := sound
  rcases taken.cases sound with
    ⟨_, still⟩ | ⟨_, _, _, still, _⟩ | ⟨_, _, _, _, still, _⟩
  · exact ⟨_, still⟩
  · exact ⟨_, still⟩
  · exact ⟨_, still⟩

/-- In every run that never exhausts the node pool and appends no page whose
bucket the other generation uses, the promise of the design comment is
kept. -/
theorem userClean_retained (heap : Address → Cell Address Tag IpUaUrlNode)
    (labels : List UserCleanLabel) (last : Cache IpUaUrlNode)
    (run : Run UnshadowedStep (initial heap) labels last) :
    Retained labels := by
  rintro front args jsonStr appended middle args' jsonStr' ret back rfl same
    once
  rw [List.append_assoc, Run.append_iff] at run
  obtain ⟨before, toAppend, run⟩ := run
  rw [List.cons_append, Run.cons_iff] at run
  obtain ⟨stored, append, run⟩ := run
  rw [Run.append_iff] at run
  obtain ⟨asked, between, run⟩ := run
  obtain ⟨answered, check, _⟩ := Run.cons_iff.mp run
  obtain ⟨contents, sound⟩ :=
    toAppend.invariant (fun sound taken => taken.sound sound)
      (sound_initial heap)
  have kept : Kept (pageKey (pageOf args)) false stored := by
    rcases append.cases sound with
      ⟨event, _⟩ | ⟨_, _, event, _⟩ |
      ⟨_, _, contents', event, still, current, held, _⟩
    · cases event
    · cases event
    · cases event
      exact ⟨contents', still, .inl (current ▸ held)⟩
  obtain ⟨contents, sound, held⟩ :=
    kept.run between (by simpa using once)
  rcases check.cases sound with
    ⟨event, _⟩ | ⟨_, _, event, _, found⟩ | ⟨_, _, _, event, _⟩
  · cases event
  · cases event
    apply found
    rw [same, sound.1.knows_iff contents.current]
    exact held.imp_right And.right
  · cases event

end Retention

/-! ## Runs on fixed inputs -/

/-- Execution with a fixed fuel of calls that leave room in the pool and, if
asked for, do not shadow a bucket. -/
def guardedCall (unshadowed : Bool) (cache : Cache IpUaUrlNode)
    (event : UserCleanEvent) : Option (Int × Cache IpUaUrlNode) :=
  if PoolLeft cache event ∧ (unshadowed = true → Unshadowed cache event) then
    userCleanCall 8 cache event
  else none

/-- A pool whose memory has not been written yet. -/
def freshPool : Address → Cell Address Tag IpUaUrlNode :=
  fun _ => ⟨(0, 0), ⟨[], 0⟩, none⟩

theorem exists_guardedRun {unshadowed : Bool} {labels : List UserCleanLabel}
    (executed :
      (execute (guardedCall unshadowed) (initial freshPool)
        (labels.map Prod.fst)).map Prod.fst = some labels) :
    ∃ last, Run
      (fun before label after =>
        (unshadowed = true → Unshadowed before label.1) ∧
          PooledStep before label after)
      (initial freshPool) labels last := by
  obtain ⟨last, run⟩ := exists_run_of_execute executed
  refine ⟨last, run.mono ?_⟩
  intro before label after taken
  rw [stepOf, guardedCall] at taken
  split_ifs at taken with allowed
  exact ⟨allowed.2, allowed.1, _, taken⟩

theorem exists_pooledRun {labels : List UserCleanLabel}
    (executed :
      (execute (guardedCall false) (initial freshPool)
        (labels.map Prod.fst)).map Prod.fst = some labels) :
    ∃ last, Run PooledStep (initial freshPool) labels last := by
  obtain ⟨last, run⟩ := exists_guardedRun executed
  exact ⟨last, run.mono And.right⟩

/-- A request for a page of the host `a`. -/
def request (uri : String) : PageArgs where
  ip := 1
  host := some (ascii "a")
  ua := ascii "M"
  uri := ascii uri

/-- The same page as a referer. -/
def referer (uri : String) : PageArgs where
  ip := 1
  host := none
  ua := ascii "M"
  uri := ascii ("http://a" ++ uri)

/-- A page that is found in the period after the one it was appended in. -/
def keptRun : List UserCleanLabel :=
  [(.appendQueue (request "/o") [], 295277), (.timeOut, 0),
    (.checkParent (referer "/o") [], -2)]

theorem userClean_retained_once :
    ∃ last, Run UnshadowedStep (initial freshPool) keptRun last ∧
      Retained keptRun := by
  obtain ⟨last, run⟩ := @exists_guardedRun true keptRun (by decide +kernel)
  have unshadowed := run.mono fun taken =>
    (show UnshadowedStep _ _ _ from ⟨taken.1 rfl, taken.2⟩)
  exact ⟨last, unshadowed, userClean_retained freshPool keptRun last unshadowed⟩

/-- The pages `/o` and `/wy` share a bucket; while A holds the one, the other
is put into B and not found there. -/
def shadowedRun : List UserCleanLabel :=
  [(.appendQueue (request "/o") [], 295277), (.timeOut, 0),
    (.appendQueue (request "/wy") [], 295277),
    (.checkParent (referer "/wy") [], -1)]

/-- A page that is appended again while the older generation holds it is not
put into the current one, and is cleared by the next time-out. -/
def forgottenRun : List UserCleanLabel :=
  [(.appendQueue (request "/o") [], 295277), (.timeOut, 0),
    (.appendQueue (request "/o") [], 295277), (.timeOut, 0),
    (.checkParent (referer "/o") [], -1)]

theorem userClean_not_retained :
    (∃ last, Run PooledStep (initial freshPool) shadowedRun last ∧
      ¬ Retained shadowedRun) ∧
    ∃ last, Run PooledStep (initial freshPool) forgottenRun last ∧
      ¬ Retained forgottenRun := by
  constructor
  · obtain ⟨last, run⟩ : ∃ last,
        Run PooledStep (initial freshPool) shadowedRun last :=
      exists_pooledRun (by decide +kernel)
    refine ⟨last, run, fun retained => ?_⟩
    exact retained (shadowedRun.take 2) (request "/wy") [] 295277 []
      (referer "/wy") [] (-1) [] rfl (by decide +kernel) (by decide) rfl
  · obtain ⟨last, run⟩ : ∃ last,
        Run PooledStep (initial freshPool) forgottenRun last :=
      exists_pooledRun (by decide +kernel)
    refine ⟨last, run, fun retained => ?_⟩
    exact retained (forgottenRun.take 2) (request "/o") [] 295277
      [(.timeOut, 0)] (referer "/o") [] (-1) [] rfl (by decide +kernel)
      (by decide) rfl

end WindowSystem.Client.FilterRuleUserClean
