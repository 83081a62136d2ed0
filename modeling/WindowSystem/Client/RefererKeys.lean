import WindowSystem.Client.FilterRuleUserClean
import WindowSystem.Client.WellFormedRequest

/-!
# The keys of pages and of referers

`user_clean_main` looks a request up under its referer and stores it under its
own address.  The functions in between exchange the ranges of the host and of
the agent twice.  The hash reads the ranges byte by byte; the scheme, the host
and the URI share a limit of 200 bytes.
-/

namespace WindowSystem.Client.RefererKeys

open WindowSystem.CRuntime
open WindowSystem.Client.FilterRuleUserClean
  (PageArgs hashRound ipBytes pageKey pageOf urlBytes urlBytes_some)
open WindowSystem.Client.GenerationCache (Key)
open WindowSystem.Client.PktParser
open WindowSystem.Client.WellFormedRequest (rangeText)

/-! ## The program -/

/-- The address that a pointer holds. -/
def address (pointer : Option Int) : Int :=
  pointer.getD 0

/-- A loop over a text up to its last byte, for at most so many bytes; what is
left of them is returned with the seeds. -/
def hashText (memory : Memory) (dwHashType : Nat) (stop : Int) :
    Nat → Int → UInt64 × UInt64 → (UInt64 × UInt64) × Nat
  | 0, _, seeds => (seeds, 0)
  | left + 1, key, seeds =>
      if key ≤ stop then
        hashText memory dwHashType stop left (key + 1)
          (hashRound dwHashType seeds (memory key))
      else (seeds, left + 1)

/-- `user_clean_get_ip_ua_url_hash` -/
def userCleanGetIpUaUrlHash (memory : Memory) (ip : UInt32)
    (host ua uri : Range) (dwHashType : Nat) : UInt64 :=
  let seeds :=
    (ipBytes ip).foldl (hashRound dwHashType) (0x7FED7FED, 0xEEEEEEEE)
  let (seeds, _) :=
    hashText memory dwHashType (address ua.stop) 15 (address ua.start) seeds
  let (seeds, left) :=
    if 10 < address host.stop ∧ 10 < address host.start then
      hashText memory dwHashType (address host.stop) (200 - 7)
        (address host.start)
        ((ascii "http://").foldl (hashRound dwHashType) seeds)
    else (seeds, 200)
  (hashText memory dwHashType (address uri.stop) left (address uri.start)
    seeds).1.1

/-- The hashes under which a call of `user_clean_check_append_ip_ua_url`
searches, and the argument that makes it store a node under them. -/
structure Probe where
  nHash : UInt32
  nHashA : UInt32
  nHashB : UInt32
  isAdd : Bool
deriving DecidableEq

/-- `user_clean_check_append_ip_ua_url`, up to its search. -/
def userCleanCheckAppendIpUaUrl (memory : Memory) (ip : UInt32)
    (host ua uri : Range) (isAdd : Bool) : Probe where
  nHash := (userCleanGetIpUaUrlHash memory ip ua host uri 0).toUInt32
  nHashA := (userCleanGetIpUaUrlHash memory ip ua host uri 1).toUInt32
  nHashB := (userCleanGetIpUaUrlHash memory ip ua host uri 2).toUInt32
  isAdd := isAdd

/-- `user_clean_check_parent` -/
def userCleanCheckParent (memory : Memory) (ip : UInt32)
    (ua host uri : Range) : Probe :=
  userCleanCheckAppendIpUaUrl memory ip ua host uri false

/-- `user_clean_append_queue` -/
def userCleanAppendQueue (memory : Memory) (ip : UInt32)
    (ua host uri : Range) : Probe :=
  userCleanCheckAppendIpUaUrl memory ip ua host uri true

/-- `user_clean_main`: the calls that it makes.  The tests in front name
`host_end` and `uri_start` twice. -/
def userCleanMain (memory : Memory) (http : HttpRequestKinfo) : List Probe :=
  let ua := http.header .userAgent
  let host := http.header .host
  let referer := http.header .referer
  if ua.stop.isNone || ua.start.isNone || host.stop.isNone ||
      http.uri.start.isNone then []
  else if referer.stop.isNone || referer.start.isNone then
    [userCleanAppendQueue memory http.sip ua host http.uri]
  else
    [userCleanCheckParent memory http.sip ua Range.unset referer,
      userCleanAppendQueue memory http.sip ua host http.uri]

/-! ## What the hash reads -/

section Hash

variable {memory : Memory} {dwHashType : Nat}

theorem hashText_eq (stop : Int) (left : Nat) (key : Int)
    (seeds : UInt64 × UInt64) :
    hashText memory dwHashType stop left key seeds =
      (((bytesAt memory key (stop - key + 1).toNat).take left).foldl
        (hashRound dwHashType) seeds, left - (stop - key + 1).toNat) := by
  induction left generalizing key seeds with
  | zero => rw [hashText, List.take_zero, Nat.zero_sub, List.foldl_nil]
  | succ left induction =>
      rw [hashText]
      split_ifs with inside
      · have length :
            (stop - key + 1).toNat = (stop - (key + 1) + 1).toNat + 1 := by
          omega
        rw [induction, length, bytesAt, List.take_succ_cons, List.foldl_cons,
          Nat.add_sub_add_right]
      · have length : (stop - key + 1).toNat = 0 := by omega
        rw [length, bytesAt, List.take_nil, List.foldl_nil, Nat.sub_zero]

/-- The loop over a text that is recorded in memory. -/
theorem hashText_of_rangeText {range : Range} {text : Bytes}
    (recorded : rangeText memory range = some text) (left : Nat)
    (seeds : UInt64 × UInt64) :
    hashText memory dwHashType (address range.stop) left
        (address range.start) seeds =
      ((text.take left).foldl (hashRound dwHashType) seeds,
        left - text.length) := by
  simp only [rangeText, Option.bind_eq_some_iff, Option.map_eq_some_iff]
    at recorded
  obtain ⟨start, started, stop, stopped, rfl⟩ := recorded
  rw [started, stopped, hashText_eq, length_bytesAt]
  rfl

variable {ip : UInt32} {host ua uri : Range} {hostText uaText uriText : Bytes}

/-- Both pointers of a range lie behind the first bytes of the memory. -/
structure Mapped (range : Range) : Prop where
  start : 10 < address range.start
  stop : 10 < address range.stop

/-- With a host the hash reads the scheme, the host and the URI. -/
theorem hash_of_host (mapped : Mapped host)
    (hostRead : rangeText memory host = some hostText)
    (uaRead : rangeText memory ua = some uaText)
    (uriRead : rangeText memory uri = some uriText) :
    userCleanGetIpUaUrlHash memory ip host ua uri dwHashType =
      FilterRuleUserClean.userCleanGetIpUaUrlHash
        (pageOf ⟨ip, some hostText, uaText, uriText⟩) dwHashType := by
  have left : 200 - (ascii "http://" ++ hostText.take (200 - 7)).length =
      200 - 7 - hostText.length := by
    have scheme : (ascii "http://").length = 7 := rfl
    rw [List.length_append, List.length_take, scheme]
    omega
  rw [userCleanGetIpUaUrlHash, hashText_of_rangeText uaRead]
  dsimp only
  rw [if_pos ⟨mapped.stop, mapped.start⟩, hashText_of_rangeText hostRead,
    FilterRuleUserClean.userCleanGetIpUaUrlHash, pageOf, urlBytes]
  simp only [hashText_of_rangeText uriRead, left, List.foldl_append]

/-- Without a host it reads the URI alone. -/
theorem hash_of_unset (uaRead : rangeText memory ua = some uaText)
    (uriRead : rangeText memory uri = some uriText) :
    userCleanGetIpUaUrlHash memory ip Range.unset ua uri dwHashType =
      FilterRuleUserClean.userCleanGetIpUaUrlHash
        (pageOf ⟨ip, none, uaText, uriText⟩) dwHashType := by
  have unset : ¬ (10 < address Range.unset.stop ∧
      10 < address Range.unset.start) := by
    decide
  rw [userCleanGetIpUaUrlHash, hashText_of_rangeText uaRead]
  dsimp only
  rw [if_neg unset, FilterRuleUserClean.userCleanGetIpUaUrlHash, pageOf,
    urlBytes]
  simp only [hashText_of_rangeText uriRead, List.foldl_append,
    List.nil_append, List.length_nil, Nat.sub_zero]

/-- A page and a referer with its address have the same hashes. -/
theorem hash_referer (hostText uaText uriText : Bytes) :
    pageOf ⟨ip, none, uaText, ascii "http://" ++ hostText ++ uriText⟩ =
      pageOf ⟨ip, some hostText, uaText, uriText⟩ := by
  rw [pageOf, pageOf, urlBytes_some]

end Hash

/-! ## Requests -/

/-- What is recorded of a request from an address by an agent. -/
structure Recorded (memory : Memory) (http : HttpRequestKinfo) (ip : UInt32)
    (ua host uri : Bytes) : Prop where
  sip : http.sip = ip
  ua : rangeText memory (http.header .userAgent) = some ua
  host : rangeText memory (http.header .host) = some host
  uri : rangeText memory http.uri = some uri
  mapped : Mapped (http.header .host)

namespace Probe

/-- Bucket and hashes of a call. -/
def key (probe : Probe) : Key :=
  (probe.nHash % 1000000, probe.nHashA, probe.nHashB)

end Probe

/-- The calls of `user_clean_check_parent`. -/
def parentProbes (memory : Memory) (http : HttpRequestKinfo) : List Probe :=
  (userCleanMain memory http).filter fun probe => !probe.isAdd

/-- The calls of `user_clean_append_queue`. -/
def appendProbes (memory : Memory) (http : HttpRequestKinfo) : List Probe :=
  (userCleanMain memory http).filter Probe.isAdd

section Requests

variable {memory memory' : Memory} {http page request : HttpRequestKinfo}
  {ip : UInt32} {ua host uri host' uri' referer : Bytes}

/-- The probe of a page. -/
def pageProbe (args : PageArgs) (isAdd : Bool) : Probe :=
  let hash := FilterRuleUserClean.userCleanGetIpUaUrlHash (pageOf args)
  { nHash := (hash 0).toUInt32
    nHashA := (hash 1).toUInt32
    nHashB := (hash 2).toUInt32
    isAdd := isAdd }

theorem isSome_of_rangeText {range : Range} {text : Bytes}
    (recorded : rangeText memory range = some text) :
    range.start.isNone = false ∧ range.stop.isNone = false := by
  simp only [rangeText, Option.bind_eq_some_iff, Option.map_eq_some_iff]
    at recorded
  obtain ⟨start, started, stop, stopped, -⟩ := recorded
  rw [started, stopped]
  exact ⟨rfl, rfl⟩

/-- A request is stored under its own address. -/
theorem Recorded.appendQueue
    (recorded : Recorded memory http ip ua host uri) :
    userCleanAppendQueue memory http.sip (http.header .userAgent)
        (http.header .host) http.uri =
      pageProbe ⟨ip, some host, ua, uri⟩ true := by
  rw [userCleanAppendQueue, userCleanCheckAppendIpUaUrl, recorded.sip]
  simp only [hash_of_host recorded.mapped recorded.host recorded.ua
    recorded.uri]
  rfl

/-- It is looked up under its referer. -/
theorem Recorded.checkParent
    (recorded : Recorded memory http ip ua host uri)
    (referred : rangeText memory (http.header .referer) = some referer) :
    userCleanCheckParent memory http.sip (http.header .userAgent)
        Range.unset (http.header .referer) =
      pageProbe ⟨ip, none, ua, referer⟩ false := by
  rw [userCleanCheckParent, userCleanCheckAppendIpUaUrl, recorded.sip]
  simp only [hash_of_unset recorded.ua referred]
  rfl

/-- The calls for a complete request. -/
theorem Recorded.main (recorded : Recorded memory http ip ua host uri) :
    userCleanMain memory http =
      if (http.header .referer).stop.isNone ||
          (http.header .referer).start.isNone then
        [pageProbe ⟨ip, some host, ua, uri⟩ true]
      else
        [userCleanCheckParent memory http.sip (http.header .userAgent)
            Range.unset (http.header .referer),
          pageProbe ⟨ip, some host, ua, uri⟩ true] := by
  have uaSet := isSome_of_rangeText recorded.ua
  have hostSet := isSome_of_rangeText recorded.host
  have uriSet := isSome_of_rangeText recorded.uri
  rw [userCleanMain]
  simp only [uaSet, hostSet, uriSet, Bool.or_self, Bool.false_eq_true,
    if_false, recorded.appendQueue]

theorem Recorded.appendProbes
    (recorded : Recorded memory http ip ua host uri) :
    appendProbes memory http = [pageProbe ⟨ip, some host, ua, uri⟩ true] := by
  rw [RefererKeys.appendProbes, recorded.main]
  split_ifs <;> rfl

theorem Recorded.parentProbes
    (recorded : Recorded memory http ip ua host uri)
    (referred : rangeText memory (http.header .referer) = some referer) :
    parentProbes memory http = [pageProbe ⟨ip, none, ua, referer⟩ false] := by
  have refererSet := isSome_of_rangeText referred
  rw [RefererKeys.parentProbes, recorded.main, refererSet.1, refererSet.2,
    recorded.checkParent referred]
  rfl

/-- A request that refers to a page is looked up under the hashes under which
the page has been stored. -/
theorem referer_key_agrees
    (stored : Recorded memory page ip ua host uri)
    (asked : Recorded memory' request ip ua host' uri')
    (referred : rangeText memory' (request.header .referer) =
      some (ascii "http://" ++ host ++ uri)) :
    ∃ parent added, parentProbes memory' request = [parent] ∧
      appendProbes memory page = [added] ∧ parent.nHash = added.nHash ∧
      parent.nHashA = added.nHashA ∧ parent.nHashB = added.nHashB := by
  refine ⟨_, _, asked.parentProbes referred, stored.appendProbes, ?_⟩
  simp only [pageProbe, hash_referer, and_self]

end Requests

/-! ## A sample request -/

/-- An agent, a host, a URI and a referer behind the first 16 bytes. -/
def sampleMemory : Memory :=
  packetMemory
    (List.replicate 16 0 ++ ascii "Opera" ++ ascii "example.com" ++
      ascii "/a.html" ++ ascii "http://example.com/a.html")

/-- A page that refers to itself. -/
def sampleRequest : HttpRequestKinfo :=
  { previousKinfo Range.unset with
    uri := ⟨some 32, some 38⟩
    header := fun
      | .userAgent => ⟨some 16, some 20⟩
      | .host => ⟨some 21, some 31⟩
      | .referer => ⟨some 39, some 63⟩
      | _ => Range.unset
    sip := 0x0A000007 }

theorem recorded_sampleRequest :
    Recorded sampleMemory sampleRequest 0x0A000007 (ascii "Opera")
      (ascii "example.com") (ascii "/a.html") where
  sip := rfl
  ua := by decide +kernel
  host := by decide +kernel
  uri := by decide +kernel
  mapped := ⟨by decide, by decide⟩

theorem referer_key_agrees_sample :
    ∃ parent added, parentProbes sampleMemory sampleRequest = [parent] ∧
      appendProbes sampleMemory sampleRequest = [added] ∧
      parent.nHash = added.nHash ∧ parent.nHashA = added.nHashA ∧
      parent.nHashB = added.nHashB :=
  referer_key_agrees recorded_sampleRequest recorded_sampleRequest
    (by decide +kernel)

end WindowSystem.Client.RefererKeys
