import WindowSystem.Client.FilterRulePop
import WindowSystem.RulePopLoops

/-!
# The page tests of the client and of the server

Both programs have a function `rule_pop_is_html`.  The client compares endings
backwards from a pointer into the packet, the server in a copy of the path.
They differ in how short a path may be: the client wants more than six bytes
in front of a query and any number otherwise, the server always six.
-/

namespace WindowSystem.PageTests

open WindowSystem.CRuntime
open WindowSystem.Client.FilterRulePop
  (PopRules Span rulePopCheckHost rulePopJcCheckHost)
open WindowSystem.Client.PktParser
open WindowSystem.RulePopLoops (htmlTypes)

/-! ## URIs -/

/-- A URI from `/` on, of at most 511 bytes. -/
structure PageUri (uri : Bytes) : Prop where
  slash : uri.head? = some 47
  short : uri.length ≤ 511
  noNul : 0 ∉ uri

/-- What is in front of the query. -/
def path (uri : Bytes) : Bytes :=
  uri.takeWhile (· ≠ 63)

/-- The path has one of the endings. -/
def isPage (path : Bytes) : Bool :=
  htmlTypes.any fun ending => ending.isSuffixOf path

/-- The main page, with or without a query. -/
def isMainPage (uri : Bytes) : Bool :=
  uri = ascii "/" || (ascii "/?").isPrefixOf uri

/-- The URIs of which only one of the programs shows the page. -/
def Differs (uri : Bytes) : Prop :=
  uri = ascii "/.htm" ∨
    63 ∈ uri ∧ (path uri).length = 6 ∧ isPage (path uri) = true

/-- The bytes of a URI in a packet. -/
structure Holds (memory : Memory) (span : Span) (uri : Bytes) : Prop where
  stop : span.stop - span.start + 1 = uri.length
  bytes : bytesAt memory span.start uri.length = uri

/-- A host that is on the list of shown sites only, so that the URI decides. -/
structure Shown (rules : PopRules) (host : Bytes) : Prop where
  notListed : rulePopJcCheckHost rules host = false
  listed : rulePopCheckHost rules host = true

/-- Both programs give the same answer. -/
def Agree (rules : PopRules) (memory : Memory) (host span : Span)
    (uri : Bytes) : Prop :=
  RulePopLoops.rulePopIsHtml uri =
    some (Client.FilterRulePop.rulePopIsHtml rules memory host span)

/-! ## Endings in memory -/

section Memory

variable {memory : Memory} {start : Int} {path ending : Bytes}

theorem slash_not_mem_htmlTypes : ∀ ending ∈ htmlTypes, 47 ∉ ending := by
  decide

/-- Reading backwards from the end of a path does not go beyond the slash. -/
theorem bytesAt_eq_iff_suffix (held : bytesAt memory start path.length = path)
    (slash : 47 ∈ path) (noSlash : 47 ∉ ending) :
    bytesAt memory (start + path.length - ending.length) ending.length =
        ending ↔ ending <:+ path := by
  rcases Nat.lt_or_ge path.length ending.length with exceeds | fits
  · obtain ⟨behind, length⟩ := Nat.exists_eq_add_of_le' exceeds.le
    have address : start + path.length - ending.length + behind = start := by
      omega
    apply iff_of_false
    · intro read
      rw [length, bytesAt_add, ← length, address, held] at read
      exact noSlash (read ▸ List.mem_append_right _ slash)
    · intro suffix
      exact not_lt.mpr suffix.length_le exceeds
  · obtain ⟨front, length⟩ := Nat.exists_eq_add_of_le' fits
    have address : start + path.length - ending.length = start + front := by
      omega
    rw [length, bytesAt_add] at held
    rw [address]
    constructor
    · intro read
      rw [read] at held
      exact ⟨_, held⟩
    · rintro ⟨before, parts⟩
      refine (List.append_inj' (held.trans parts.symm) ?_).2
      rw [length_bytesAt]

end Memory

/-! ## Both tests -/

section Tests

variable {rules : PopRules} {memory : Memory} {host span : Span} {uri : Bytes}

theorem path_of_not_mem (noQuery : 63 ∉ uri) : path uri = uri := by
  rw [path, List.takeWhile_eq_self_iff]
  intro byte member
  exact decide_eq_true fun query => noQuery (query ▸ member)

theorem PageUri.exists_rest (page : PageUri uri) :
    ∃ rest, uri = 47 :: rest := by
  cases uri with
  | nil => cases page.slash
  | cons first rest =>
      obtain rfl : first = 47 := Option.some.inj page.slash
      exact ⟨rest, rfl⟩

theorem slash_mem_path (page : PageUri uri) : 47 ∈ path uri := by
  obtain ⟨rest, rfl⟩ := page.exists_rest
  exact List.mem_cons_self

theorem length_path_le (uri : Bytes) : (path uri).length ≤ uri.length :=
  (List.takeWhile_sublist _).length_le

theorem length_path_lt_iff : (path uri).length < uri.length ↔ 63 ∈ uri := by
  constructor
  · intro shorter
    by_contra noQuery
    rw [path_of_not_mem noQuery] at shorter
    exact lt_irrefl _ shorter
  · intro query
    by_contra whole
    have all : path uri = uri :=
      (List.takeWhile_prefix _).eq_of_length_le (not_lt.mp whole)
    rw [path, List.takeWhile_eq_self_iff] at all
    exact of_decide_eq_true (all 63 query) rfl

/-- The path is in memory where the URI is. -/
theorem Holds.bytesAt_path (held : Holds memory span uri) :
    bytesAt memory span.start (path uri).length = path uri := by
  have parts : path uri ++ uri.dropWhile (· ≠ 63) = uri :=
    List.takeWhile_append_dropWhile
  have whole := held.bytes
  rw [← parts, List.length_append, bytesAt_add] at whole
  refine (List.append_inj whole ?_).1
  rw [length_bytesAt]

theorem Holds.len (held : Holds memory span uri) (page : PageUri uri) :
    span.len = uri.length := by
  have short := page.short
  rw [Span.len, held.stop, toInt32_of_range] <;> omega

theorem Holds.text (held : Holds memory span uri) (page : PageUri uri) :
    span.text memory = uri := by
  rw [Span.text, held.len page, Int.toNat_natCast, held.bytes]

theorem Holds.slash (held : Holds memory span uri) (page : PageUri uri) :
    memory span.start = 47 := by
  obtain ⟨rest, rfl⟩ := page.exists_rest
  exact (List.cons.inj held.bytes).1

theorem Holds.second {first second : UInt8} {rest : Bytes}
    (held : Holds memory span (first :: second :: rest)) :
    memory (span.start + 1) = second :=
  (List.cons.inj (List.cons.inj held.bytes).2).1

/-- The test for the main page reads two bytes at most. -/
theorem Holds.isMainPage_iff (held : Holds memory span uri)
    (page : PageUri uri) :
    ((uri.length : Int) = 1 ∧ memory span.start = 47) ∨
        (memory span.start = 47 ∧ memory (span.start + 1) = 63) ↔
      isMainPage uri = true := by
  have slash := held.slash page
  obtain ⟨rest, rfl⟩ := page.exists_rest
  cases rest with
  | nil => exact iff_of_true (.inl ⟨rfl, slash⟩) rfl
  | cons second rest =>
      have main : isMainPage (47 :: second :: rest) = (63 == second) := by
        have texts : ascii "/" = [47] ∧ ascii "/?" = [47, 63] := by decide
        simp [isMainPage, texts, List.isPrefixOf]
      have long : ((47 :: second :: rest : Bytes).length : Int) ≠ 1 := by
        simp only [List.length_cons]
        omega
      rw [main, beq_iff_eq, held.second]
      simp only [long, slash, false_and, true_and, false_or]
      exact eq_comm

/-- The end of the path, from which the client reads backwards. -/
theorem Holds.endPos (held : Holds memory span uri) :
    (if ((path uri).length : Int) < uri.length then
        span.start + (path uri).length - 1 else span.stop) =
      span.start + (path uri).length - 1 := by
  have stop := held.stop
  split_ifs with query
  · rfl
  · have shorter := length_path_le uri
    omega

/-- The client compares the endings with the path. -/
theorem Holds.ends (held : Holds memory span uri) (page : PageUri uri) :
    (Client.FilterRulePop.htmlType.any fun ending =>
        bytesAt memory
            (span.start + (path uri).length - 1 - ending.length + 1)
            ending.length = ending) =
      isPage (path uri) := by
  rw [Bool.eq_iff_iff, isPage, List.any_eq_true, List.any_eq_true]
  refine exists_congr fun ending => and_congr_right fun listed => ?_
  have address : span.start + (path uri).length - 1 - ending.length + 1 =
      span.start + (path uri).length - ending.length := by
    omega
  rw [address, decide_eq_true_iff, List.isSuffixOf_iff_suffix]
  exact bytesAt_eq_iff_suffix held.bytesAt_path (slash_mem_path page)
    (slash_not_mem_htmlTypes ending listed)

/-- What the client answers. -/
theorem client_eq (page : PageUri uri) (held : Holds memory span uri)
    (shown : Shown rules (host.text memory)) :
    Client.FilterRulePop.rulePopIsHtml rules memory host span =
      (isMainPage uri ||
        (!(decide (63 ∈ uri) && decide ((path uri).length ≤ 6)) &&
          isPage (path uri))) := by
  have short := page.short
  have notLong : ¬ 512 < (uri.length : Int) := by omega
  rw [Client.FilterRulePop.rulePopIsHtml, shown.notListed, shown.listed,
    held.len page, held.text page]
  simp only [Bool.false_eq_true, if_false, Bool.not_true, if_neg notLong,
    held.isMainPage_iff page]
  change (if isMainPage uri = true then true
    else if ((path uri).length : Int) < uri.length ∧
        ((path uri).length : Int) ≤ 6 then false
    else Client.FilterRulePop.htmlType.any fun ending =>
      bytesAt memory
          ((if ((path uri).length : Int) < uri.length then
              span.start + (path uri).length - 1 else span.stop) -
            ending.length + 1) ending.length = ending) = _
  have few : ((path uri).length : Int) ≤ 6 ↔ (path uri).length ≤ 6 := by
    omega
  rw [held.endPos, held.ends page]
  simp only [Int.ofNat_lt, length_path_lt_iff, few]
  cases isMainPage uri with
  | true => rfl
  | false =>
      by_cases shorter : 63 ∈ uri ∧ (path uri).length ≤ 6
      · rw [if_neg Bool.false_ne_true, if_pos shorter, decide_eq_true shorter.1,
          decide_eq_true shorter.2]
        rfl
      · rw [if_neg Bool.false_ne_true, if_neg shorter, ← Bool.decide_and,
          decide_eq_false shorter]
        rfl

/-- What the server answers. -/
theorem server_eq (page : PageUri uri) :
    RulePopLoops.rulePopIsHtml uri =
      some (isMainPage uri ||
        (!decide ((path uri).length < 6) && isPage (path uri))) := by
  have short := page.short
  have pathShort := length_path_le uri
  rw [RulePopLoops.rulePopIsHtml]
  cases main : isMainPage uri with
  | true =>
      rw [isMainPage] at main
      rw [if_pos main]
      rfl
  | false =>
      rw [isMainPage] at main
      rw [if_neg (Bool.not_eq_true _ ▸ main)]
      by_cases query : 63 ∈ uri
      · have stored : store 512 (path uri) = some (path uri) :=
          store_eq_some_iff.mpr ⟨by omega, rfl⟩
        rw [if_pos query]
        change (if 512 < (path uri).length then some false
          else if (path uri).length < 6 then some false
          else (store 512 (path uri)).map isPage) = _
        rw [if_neg (by omega), stored]
        split_ifs with few
        · rw [decide_eq_true few]
          rfl
        · rw [decide_eq_false few]
          rfl
      · have notLong : ¬ 512 < uri.length := by omega
        rw [if_neg query, path_of_not_mem query]
        simp only [notLong, decide_false, Bool.or_false, decide_eq_true_eq]
        split_ifs with few
        · rw [decide_eq_true few]
          rfl
        · rw [decide_eq_false few]
          rfl

/-- The only path with an ending that is shorter than six bytes. -/
theorem short_page_iff (page : PageUri uri) :
    uri.length < 6 ∧ isPage uri = true ↔ uri = ascii "/.htm" := by
  constructor
  · rintro ⟨short, ends⟩
    rw [isPage, List.any_eq_true] at ends
    obtain ⟨ending, listed, suffix⟩ := ends
    obtain ⟨front, rfl⟩ := List.isSuffixOf_iff_suffix.mp suffix
    have behind : front ≠ [] := by
      rintro rfl
      exact slash_not_mem_htmlTypes ending listed
        (List.mem_of_mem_head? page.slash)
    have positive := List.length_pos_iff.mpr behind
    rw [List.length_append] at short
    obtain rfl : ending = ascii ".htm" := by
      rw [htmlTypes, List.mem_cons, List.mem_cons, List.mem_singleton]
        at listed
      rcases listed with rfl | rfl | rfl
      · rfl
      · have length : (ascii ".html").length = 5 := rfl
        omega
      · have length : (ascii ".shtml").length = 6 := rfl
        omega
    obtain ⟨first, rfl⟩ : ∃ first, front = [first] := by
      have length : (ascii ".htm").length = 4 := rfl
      exact List.length_eq_one_iff.mp (by omega)
    obtain rfl : first = 47 := Option.some.inj page.slash
    rfl
  · rintro rfl
    decide

/-- The path of a main page is its slash. -/
theorem length_path_of_main (main : isMainPage uri = true) :
    (path uri).length = 1 := by
  rw [isMainPage, Bool.or_eq_true, decide_eq_true_iff] at main
  rcases main with rfl | starts
  · rfl
  · obtain ⟨rest, rfl⟩ := List.isPrefixOf_iff_prefix.mp starts
    rfl

theorem not_differs_of_main (main : isMainPage uri = true) :
    ¬ Differs uri := by
  have one := length_path_of_main main
  rintro (rfl | ⟨-, six, -⟩)
  · exact absurd main (by decide)
  · omega

/-- The programs agree on every URI but the ones that are too short for one of
them. -/
theorem tests_agree_iff (rules : PopRules) (memory : Memory) (host span : Span)
    (uri : Bytes) (page : PageUri uri) (held : Holds memory span uri)
    (shown : Shown rules (host.text memory)) :
    Agree rules memory host span uri ↔ ¬ Differs uri := by
  rw [Agree, server_eq page, client_eq page held shown, Option.some.injEq]
  cases main : isMainPage uri with
  | true => exact iff_of_true rfl (not_differs_of_main main)
  | false =>
      have shortPage := short_page_iff page
      rw [Differs, ← shortPage, Bool.false_or, Bool.false_or]
      by_cases query : 63 ∈ uri
      · have notShort : ¬ (uri.length < 6 ∧ isPage uri = true) := by
          rw [shortPage]
          rintro rfl
          revert query
          decide
        cases ends : isPage (path uri) with
        | false => simp [notShort]
        | true =>
            simp only [notShort, query, decide_true, Bool.true_and,
              Bool.and_true, true_and, and_true, false_or]
            rw [Bool.not_inj_iff, decide_eq_decide]
            omega
      · rw [path_of_not_mem query]
        cases ends : isPage uri with
        | false => simp [query]
        | true => simp [query]

end Tests

/-! ## Sample packets -/

/-- A packet with a host and a URI. -/
def samplePacket (uri : Bytes) : Memory :=
  packetMemory (ascii "example.com" ++ uri)

/-- Where the host is. -/
def sampleHost : Span :=
  ⟨0, 10⟩

/-- Where the URI is. -/
def sampleSpan (uri : Bytes) : Span :=
  ⟨11, 10 + uri.length⟩

/-- Every host is shown. -/
def sampleRules : PopRules where
  enablePopMobile := 0
  popNameList := 0
  whiteSite _ := true
  noWhiteSite _ := false
  moblieSite _ := false

theorem shown_sampleRules (host : Bytes) : Shown sampleRules host :=
  ⟨rfl, rfl⟩

/-- With a query the client does not show a page that the server shows. -/
theorem not_agree_query :
    PageUri (ascii "/a.htm?b=1") ∧
      Holds (samplePacket (ascii "/a.htm?b=1"))
        (sampleSpan (ascii "/a.htm?b=1")) (ascii "/a.htm?b=1") ∧
      Shown sampleRules
        (sampleHost.text (samplePacket (ascii "/a.htm?b=1"))) ∧
      ¬ Agree sampleRules (samplePacket (ascii "/a.htm?b=1")) sampleHost
        (sampleSpan (ascii "/a.htm?b=1")) (ascii "/a.htm?b=1") := by
  refine ⟨⟨rfl, by decide, by decide⟩, ⟨rfl, by decide +kernel⟩,
    shown_sampleRules _, ?_⟩
  unfold Agree
  decide +kernel

theorem tests_agree_iff_index :
    Agree sampleRules (samplePacket (ascii "/index.html?b=1")) sampleHost
        (sampleSpan (ascii "/index.html?b=1")) (ascii "/index.html?b=1") ↔
      ¬ Differs (ascii "/index.html?b=1") :=
  tests_agree_iff sampleRules _ sampleHost _ _ ⟨rfl, by decide, by decide⟩
    ⟨rfl, by decide +kernel⟩ (shown_sampleRules _)

end WindowSystem.PageTests
