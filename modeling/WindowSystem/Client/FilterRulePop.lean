import WindowSystem.Client.MqClientMobile
import WindowSystem.Client.RequestRanges

/-!
# Which packets the capture client sends

`rule_pop_main_loop` of the client's `filter_rule_pop.c` chooses one of the
four encoders for a parsed packet.  The lists of sites and the flags decide
which one it is; of the lengths of a request only those of the host and the URI
are tested, and not on every path.
-/

namespace WindowSystem.Client.FilterRulePop

open WindowSystem.CRuntime
open WindowSystem.Client.MqClientMobile
open WindowSystem.Client.MqClientPopwin
open WindowSystem.Client.PktParser
open WindowSystem.Client.RequestRanges
open WindowSystem.Client.WellFormedRequest

/-! ## The rules -/

/-- `g_conf_enable_pop_mobile`, `g_conf_pop_name_list` and the lists
`g_pWhiteSiteHashMap`, `g_pNoWhiteSiteHashMap` and `g_pMoblieSiteHashMap`, each
as the function that looks a host up. -/
structure PopRules where
  enablePopMobile : Int
  popNameList : Int
  whiteSite : Bytes → Bool
  noWhiteSite : Bytes → Bool
  moblieSite : Bytes → Bool

/-- A text of the request, from its first to its last byte. -/
structure Span where
  start : Int
  stop : Int

/-- The text between two pointers that are set. -/
def spanOf (range : Range) : Option Span :=
  range.start.bind fun start => range.stop.map fun stop => ⟨start, stop⟩

/-- The number of its bytes, an `int`. -/
def Span.len (span : Span) : Int :=
  toInt32 (span.stop - span.start + 1)

/-- Its bytes. -/
def Span.text (memory : Memory) (span : Span) : Bytes :=
  bytesAt memory span.start span.len.toNat

/-- A list that names what is sent, or what is not when `g_conf_pop_name_list`
is set. -/
def listed (rules : PopRules) (list : Bytes → Bool) (host : Bytes) : Bool :=
  if rules.popNameList = 0 then list host else !list host

/-- `rule_pop_check_host`. -/
def rulePopCheckHost (rules : PopRules) (host : Bytes) : Bool :=
  listed rules rules.whiteSite host

/-- `rule_pop_jc_check_host`. -/
def rulePopJcCheckHost (rules : PopRules) (host : Bytes) : Bool :=
  listed rules rules.noWhiteSite host

/-- `g_pcHtmlType`. -/
def htmlType : List Bytes :=
  [ascii ".htm", ascii ".html", ascii ".shtml"]

/-- `rule_pop_is_html`. -/
def rulePopIsHtml (rules : PopRules) (memory : Memory) (host uri : Span) :
    Bool :=
  if rulePopJcCheckHost rules (host.text memory) then true
  else if !rulePopCheckHost rules (host.text memory) then false
  else if 512 < uri.len then false
  else if (uri.len = 1 ∧ memory uri.start = 47) ∨
      (memory uri.start = 47 ∧ memory (uri.start + 1) = 63) then true
  else
    let iPos : Int := ((uri.text memory).takeWhile (· ≠ 63)).length
    if iPos < uri.len ∧ iPos ≤ 6 then false
    else
      let pcEndPos := if iPos < uri.len then uri.start + iPos - 1 else uri.stop
      htmlType.any fun ending =>
        bytesAt memory (pcEndPos - ending.length + 1) ending.length = ending

/-- `rule_pop_is_mobile_site`. -/
def rulePopIsMobileSite (rules : PopRules) (memory : Memory)
    (host uri : Span) : Bool :=
  if 512 < host.stop - host.start + 1 then false
  else if !rules.moblieSite (host.text memory) then false
  else if 2048 < uri.len then false
  else true

/-- The encoder that `rule_pop_main_loop` calls. -/
def encoderFor (rules : PopRules) (memory : Memory) (hdr : CapturedHdr)
    (http : HttpRequestKinfo) : Option Encoder :=
  match spanOf http.uri, spanOf (http.header .host),
    spanOf (http.header .userAgent) with
  | some uri, some host, some _ =>
      if http.httpType = 1 then none
      else if rules.enablePopMobile ≠ 0 ∧
          rulePopIsMobileSite rules memory host uri then
        some (if hdr.tunnelId.isSome then .mobileTunneled else .mobile)
      else if rulePopIsHtml rules memory host uri then
        some (if hdr.tunnelId.isSome then .directTunneled else .direct)
      else none
  | _, _, _ => none

/-- `rule_pop_main_loop`: the message that is sent, if there is one, and
`none` when an encoder leaves its array. -/
def rulePopMainLoop (rules : PopRules) (memory : Memory) (buffer : Int)
    (hdr : CapturedHdr) (http : HttpRequestKinfo) : Option (Option Bytes) :=
  match encoderFor rules memory hdr http with
  | none => some none
  | some encoder => encoder.send memory buffer hdr http

/-- `http_cap_filter_main`, with the content that the struct `http` has
before. -/
def httpCapFilterMain (rules : PopRules) (memory : Memory) (buffer : Int)
    (hdr : CapturedHdr) (http : HttpRequestKinfo) : Option (Option Bytes) :=
  match httpCapFilter memory hdr.toPfringPkthdr buffer http with
  | none => some none
  | some result => rulePopMainLoop rules memory buffer hdr result

/-! ## What is tested -/

section Tested

variable {rules : PopRules} {memory : Memory} {buffer : Int}
  {hdr : CapturedHdr} {http result : HttpRequestKinfo} {encoder : Encoder}

theorem rangeText_of_spanOf {range : Range} {span : Span}
    (given : spanOf range = some span) :
    rangeText memory range =
      some (bytesAt memory span.start
        (span.stop - span.start + 1).toNat) := by
  simp only [spanOf, Option.bind_eq_some_iff,
    Option.map_eq_some_iff] at given
  obtain ⟨start, started, stop, stopped, rfl⟩ := given
  rw [rangeText, started, stopped]
  rfl

/-- A packet for which an encoder is called has a host, a URI and a
User-Agent, and the encoders for mobile sites get a URI that was tested. -/
theorem encoderFor_eq_some
    (chosen : encoderFor rules memory hdr http = some encoder) :
    ∃ uri host ua,
      spanOf http.uri = some uri ∧
        spanOf (http.header .host) = some host ∧
        spanOf (http.header .userAgent) = some ua ∧
        (encoder = .mobile → uri.len ≤ 2048) := by
  rw [encoderFor] at chosen
  split at chosen
  case h_2 => cases chosen
  rename_i uri host ua uriGiven hostGiven uaGiven
  refine ⟨uri, host, ua, uriGiven, hostGiven, uaGiven, ?_⟩
  rintro rfl
  split at chosen
  · cases chosen
  split at chosen
  · rename_i mobile
    by_contra long
    have refused :
        rulePopIsMobileSite rules memory host uri = false := by
      rw [rulePopIsMobileSite]
      simp only [if_pos (Int.not_le.mp long)]
      split
      · rfl
      split <;> rfl
    rw [refused] at mobile
    exact absurd mobile.2 (by decide)
  · split at chosen
    · split at chosen <;> cases chosen
    · cases chosen

/-- The URI of an accepted packet is shorter than an `int` can count. -/
theorem uri_len_of_accepted {uri : Span}
    (accepted :
      httpCapFilter memory hdr.toPfringPkthdr buffer http = some result)
    (given : spanOf result.uri = some uri) :
    uri.len = uri.stop - uri.start + 1 := by
  simp only [spanOf, Option.bind_eq_some_iff,
    Option.map_eq_some_iff] at given
  obtain ⟨start, started, stop, stopped, rfl⟩ := given
  obtain ⟨_, _, read, _⟩ := httpCapFilter_accepts accepted
  obtain ⟨low, order, high⟩ := read.ordered started stopped
  have short := @length_payload_le memory hdr.toPfringPkthdr buffer
  have range := toInt32_range
    (payloadLen memory hdr.toPfringPkthdr buffer).toNat
  rw [payloadEnd] at high
  exact toInt32_of_range (by simp only; omega) (by simp only; omega)

end Tested

/-! ## The packets that fit -/

/-- The text for a packet fits into the array of the encoder: what is printed
of the packet and of the request, beside 188 bytes of names and marks and the
terminator. -/
def Fits (encoder : Encoder) (memory : Memory) (buffer : Int)
    (hdr : CapturedHdr) (http : HttpRequestKinfo) : Prop :=
  ∀ texts ∈ encoder.texts memory buffer hdr http,
    188 + printedLength texts + requestLength texts < encoder.capacity

/-- **The encoders stay in their arrays.**

No packet makes an encoder leave its array exactly when the header values that
the parser has recorded for it are short enough for the encoder that is
called. -/
theorem httpCapFilterMain_isSome_iff (rules : PopRules) (memory : Memory)
    (buffer : Int) (hdr : CapturedHdr) (http : HttpRequestKinfo) :
    (httpCapFilterMain rules memory buffer hdr http).isSome = true ↔
      ∀ result ∈ httpCapFilter memory hdr.toPfringPkthdr buffer http,
        ∀ encoder ∈ encoderFor rules memory hdr result,
          Fits encoder memory buffer hdr result := by
  rw [httpCapFilterMain]
  cases accepted : httpCapFilter memory hdr.toPfringPkthdr buffer http with
  | none => simp
  | some result =>
      simp only [Option.mem_def, Option.some.injEq, forall_eq']
      rw [rulePopMainLoop]
      cases chosen : encoderFor rules memory hdr result with
      | none => simp
      | some encoder =>
          simp only [Option.some.injEq, forall_eq']
          obtain ⟨uri, host, ua, uriGiven, hostGiven, uaGiven, tested⟩ :=
            encoderFor_eq_some chosen
          obtain ⟨texts, read, _, uriText, _⟩ :=
            @texts_of_recorded memory buffer hdr result _ _ _ encoder
              (rangeText_of_spanOf hostGiven)
              (rangeText_of_spanOf uriGiven)
              (rangeText_of_spanOf uaGiven)
          have short : encoder = .mobile → texts.uri.length ≤ 2048 := by
            intro mobile
            have bound := tested mobile
            rw [uri_len_of_accepted accepted uriGiven] at bound
            rw [uriText, length_bytesAt]
            omega
          rw [send_isSome_iff read short, Fits, read]
          simp

/-! ## Well-formed requests -/

theorem bytesAt_packetMemory (packet : Bytes) {offset count : Nat}
    (inside : offset + count ≤ packet.length) :
    bytesAt (packetMemory packet) offset count =
      (packet.drop offset).take count := by
  induction count generalizing offset with
  | zero => simp [bytesAt]
  | succ count induction =>
      have here : offset < packet.length := by omega
      have rest := @induction (offset + 1) (by omega)
      rw [Nat.cast_succ] at rest
      rw [bytesAt, rest, List.drop_eq_getElem_cons here,
        List.take_succ_cons]
      simp [packetMemory, List.getD_eq_getElem?_getD, here]

/-- The 54 bytes of the Ethernet, IP and TCP headers; only the length of the
last one is given. -/
def frontBytes : Bytes :=
  List.replicate 46 0 ++ 0x50 :: List.replicate 7 0

/-- A captured packet for a request. -/
def capturedPacket (request : Request) : Bytes :=
  frontBytes ++ request.text

/-- Its header. -/
def capturedHdr (request : Request) : CapturedHdr :=
  { packetHdr (capturedPacket request) with
    l3Offset := 14
    l4Offset := 34
    payloadOffset := 54
    tunneledL4SrcPort := 0 }

/-- A well-formed request is captured and recorded. -/
theorem httpCapFilter_capturedPacket {request : Request}
    (wellFormed : request.WellFormed)
    (plain : ∀ line ∈ request.headers, line.Plain)
    (short : (capturedPacket request).length < 2 ^ 31) :
    ∃ result,
      httpCapFilter (packetMemory (capturedPacket request))
          (capturedHdr request).toPfringPkthdr 0
          (previousKinfo Range.unset) = some result ∧
        rangeText (packetMemory (capturedPacket request)) result.uri =
          some request.uri ∧
        (∀ header value,
          lastValue header request.headers = some value →
            rangeText (packetMemory (capturedPacket request))
              (result.header header) = some value) ∧
        result.httpType = request.method.httpType 0 := by
  have frontLength : frontBytes.length = 54 := rfl
  have packetLength :
      (capturedPacket request).length = 54 + request.text.length := by
    rw [capturedPacket, List.length_append, frontLength]
  have caplen :
      (capturedHdr request).caplen.toNat = 54 + request.text.length := by
    show (capturedPacket request).length.toUInt32.toNat = _
    rw [← packetLength]
    have size : UInt32.size = 2 ^ 32 := rfl
    exact UInt32.toNat_ofNat_of_lt' (by omega)
  have len :
      (UInt32.ofInt ((capturedHdr request).caplen.toNat - 54)).toNat =
        request.text.length := by
    rw [caplen]
    simp only [UInt32.ofInt, UInt32.toNat_ofNat']
    omega
  have level1 :
      httpParserLevel1 (packetMemory (capturedPacket request))
          (capturedHdr request).toPfringPkthdr 0
          (previousKinfo Range.unset) =
        (0,
          { resetKinfo (capturedHdr request).toPfringPkthdr 0
              (previousKinfo Range.unset) with
            sip := 0x0A000007
            dip := 0x0A000001
            content := some 54
            len :=
              UInt32.ofInt ((capturedHdr request).caplen.toNat - 54) }) :=
    rfl
  have held :
      bytesAt (packetMemory (capturedPacket request)) 54
          (request.text ++ []).length =
        request.text ++ [] := by
    rw [List.append_nil]
    have read :=
      @bytesAt_packetMemory (capturedPacket request) 54 request.text.length
        (by omega)
    refine read.trans ?_
    rw [capturedPacket, ← frontLength, List.drop_left, List.take_length]
  have length :
      toInt32
          (UInt32.ofInt
            ((capturedHdr request).caplen.toNat - 54)).toNat =
        (request.text ++ []).length := by
    rw [len, List.append_nil]
    exact toInt32_of_range (by omega) (by omega)
  obtain ⟨result, run, ⟨uri, headers⟩, httpType⟩ :=
    @httpParserLevel2_records (packetMemory (capturedPacket request))
      request (capturedHdr request).toPfringPkthdr 0 54
      (httpParserLevel1 (packetMemory (capturedPacket request))
        (capturedHdr request).toPfringPkthdr 0
        (previousKinfo Range.unset)).2 []
      wellFormed plain (by rw [level1]) (by rw [level1]; exact length) held
  refine ⟨result, ?_, uri, ?_, httpType⟩
  · simp only [httpCapFilter, level1] at run ⊢
    rw [run]
    rfl
  · intro header value last
    have recorded := headers header
    rw [last] at recorded
    exact recorded

/-! ## A long cookie -/

/-- A request with a cookie of a given length. -/
def cookieRequest (count : Nat) : Request where
  method := .get
  uri := ascii "/"
  version := ascii "1.1"
  headers :=
    [⟨ascii "Host", ascii "h"⟩, ⟨ascii "User-Agent", ascii "u"⟩,
      ⟨ascii "Cookie", List.replicate count 97⟩]

/-- A name of one of the five headers is not nearly another one. -/
theorem not_nearMiss_headerName (header : Header) :
    ¬ NearMiss (headerName header) := by
  rintro ⟨other, _, same, _, different⟩
  have equal : header = other := by
    revert same
    cases header <;> cases other <;> decide
  exact different (congrArg headerName equal)

theorem cookieRequest_lines {count : Nat} (positive : 0 < count) :
    ∀ line ∈ (cookieRequest count).headers,
      line.WellFormed ∧ line.Plain := by
  intro line member
  simp only [cookieRequest, List.mem_cons, List.not_mem_nil,
    or_false] at member
  rcases member with rfl | rfl | rfl
  · exact
      ⟨⟨by decide, by decide +kernel, by decide +kernel, _, _, rfl,
          by decide, by decide⟩,
        by decide, by decide, not_nearMiss_headerName .host⟩
  · exact
      ⟨⟨by decide, by decide +kernel, by decide +kernel, _, _, rfl,
          by decide, by decide⟩,
        by decide, by decide, not_nearMiss_headerName .userAgent⟩
  · obtain ⟨count, rfl⟩ := Nat.exists_eq_succ_of_ne_zero positive.ne'
    have named : ascii "Cookie" ≠ [] := by decide
    have namePlain :
        ∀ ch ∈ ascii "Cookie", ch ≠ 32 ∧ ch ≠ 58 ∧ ch ≠ 13 ∧ ch ≠ 10 := by
      decide +kernel
    have nameNoNul : 0 ∉ ascii "Cookie" := by decide
    refine
      ⟨⟨named, namePlain, ?_, 97, List.replicate count 97, rfl, by decide,
          by decide⟩,
        nameNoNul, ?_, not_nearMiss_headerName .cookie⟩
    · intro ch repeated
      rw [List.eq_of_mem_replicate repeated]
      decide
    · intro repeated
      cases List.eq_of_mem_replicate repeated

theorem cookieRequest_wellFormed {count : Nat} (positive : 0 < count) :
    (cookieRequest count).WellFormed where
  uri_begins := ⟨_, rfl⟩
  uri_plain :=
    (by decide +kernel : ∀ ch ∈ ascii "/",
      ch ≠ 32 ∧ ch ≠ 13 ∧ ch ≠ 10 ∧ ch ≠ 0)
  version_plain :=
    (by decide +kernel : ∀ ch ∈ ascii "1.1", ch ≠ 13 ∧ ch ≠ 10 ∧ ch ≠ 0)
  headers line member := (cookieRequest_lines positive line member).1

theorem length_capturedPacket_cookieRequest (count : Nat) :
    (capturedPacket (cookieRequest count)).length = 106 + count := by
  simp only [capturedPacket, Request.text, cookieRequest, headerBlock,
    HeaderLine.text, List.flatMap_cons, List.flatMap_nil,
    List.length_append, List.length_replicate]
  change
    54 + (3 + 1 + 1 + 6 + 3 + 2 +
      (4 + 2 + 1 + 2 + (10 + 2 + 1 + 2 + (6 + 2 + count + 2 + 0)) + 2)) =
      106 + count
  omega

/-- Rules that send the pages of every host. -/
def openRules : PopRules where
  enablePopMobile := 0
  popNameList := 0
  whiteSite _ := true
  noWhiteSite _ := true
  moblieSite _ := false

section LongCookie

variable {memory : Memory} {hdr : CapturedHdr} {result : HttpRequestKinfo}

theorem spanOf_isSome {range : Range} {text : Bytes}
    (read : rangeText memory range = some text) :
    ∃ span, spanOf range = some span := by
  simp only [rangeText, Option.bind_eq_some_iff,
    Option.map_eq_some_iff] at read
  obtain ⟨start, started, stop, stopped, _⟩ := read
  exact ⟨⟨start, stop⟩, by rw [spanOf, started, stopped]; rfl⟩

/-- The open rules send every request outside a tunnel with the same
encoder. -/
theorem encoderFor_openRules {host uri ua : Bytes}
    (plain : hdr.tunnelId = none) (get : result.httpType ≠ 1)
    (hostRead : rangeText memory (result.header .host) = some host)
    (uriRead : rangeText memory result.uri = some uri)
    (uaRead : rangeText memory (result.header .userAgent) = some ua) :
    encoderFor openRules memory hdr result = some .direct := by
  obtain ⟨hostSpan, hostGiven⟩ := spanOf_isSome hostRead
  obtain ⟨uriSpan, uriGiven⟩ := spanOf_isSome uriRead
  obtain ⟨uaSpan, uaGiven⟩ := spanOf_isSome uaRead
  have html :
      rulePopIsHtml openRules memory hostSpan uriSpan = true := by
    simp [rulePopIsHtml, rulePopJcCheckHost, listed, openRules]
  have noMobile : openRules.enablePopMobile = 0 := rfl
  rw [encoderFor, uriGiven, hostGiven, uaGiven]
  simp [get, html, noMobile, plain]

end LongCookie

/-- A request with a long cookie leaves the array: `rule_pop_main_loop` calls
`pop_mq_direct_send_msg`, whose array the cookie alone fills. -/
theorem cookieRequest_leaves {count : Nat} (long : 10240 ≤ count)
    (short : count < 2 ^ 30) :
    ∃ result,
      httpCapFilter (packetMemory (capturedPacket (cookieRequest count)))
          (capturedHdr (cookieRequest count)).toPfringPkthdr 0
          (previousKinfo Range.unset) = some result ∧
        encoderFor openRules
            (packetMemory (capturedPacket (cookieRequest count)))
            (capturedHdr (cookieRequest count)) result =
          some .direct ∧
        rulePopMainLoop openRules
            (packetMemory (capturedPacket (cookieRequest count))) 0
            (capturedHdr (cookieRequest count)) result =
          none := by
  have positive : 0 < count := by omega
  obtain ⟨result, captured, uri, headers, httpType⟩ :=
    httpCapFilter_capturedPacket (cookieRequest_wellFormed positive)
      (fun line member => (cookieRequest_lines positive line member).2)
      (by rw [length_capturedPacket_cookieRequest]; omega)
  have host := headers .host (ascii "h") rfl
  have ua := headers .userAgent (ascii "u") rfl
  have cookie := headers .cookie (List.replicate count 97) rfl
  have chosen :=
    @encoderFor_openRules _ (capturedHdr (cookieRequest count)) result _ _ _
      rfl (by rw [httpType]; exact (by decide : (0 : Int) ≠ 1)) host uri ua
  refine ⟨result, captured, chosen, ?_⟩
  obtain ⟨texts, read, _, _, _, cookieText⟩ :=
    @texts_of_recorded _ 0 (capturedHdr (cookieRequest count)) _ _ _ _
      .direct host uri ua
  have full : count ≤ requestLength texts := by
    rw [requestLength, cookieLength, cookieText, cookie]
    simp only [List.length_replicate]
    omega
  have direct : Encoder.direct.capacity = 10240 := rfl
  have stuck := mt (send_isSome_iff read (by simp)).mp (by omega)
  rw [rulePopMainLoop, chosen]
  simpa using stuck

/-- A packet of 10346 bytes. -/
theorem longCookie_overflows :
    (capturedPacket (cookieRequest 10240)).length = 10346 ∧
      ∃ result,
        httpCapFilter (packetMemory (capturedPacket (cookieRequest 10240)))
            (capturedHdr (cookieRequest 10240)).toPfringPkthdr 0
            (previousKinfo Range.unset) = some result ∧
          encoderFor openRules
              (packetMemory (capturedPacket (cookieRequest 10240)))
              (capturedHdr (cookieRequest 10240)) result =
            some .direct ∧
          rulePopMainLoop openRules
              (packetMemory (capturedPacket (cookieRequest 10240))) 0
              (capturedHdr (cookieRequest 10240)) result =
            none :=
  ⟨length_capturedPacket_cookieRequest 10240,
    cookieRequest_leaves (by decide) (by decide)⟩

end WindowSystem.Client.FilterRulePop
