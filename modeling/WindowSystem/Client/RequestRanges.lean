import WindowSystem.Client.RequestGrammar

/-!
# Where the recorded ranges lie

After both levels of the parser have accepted a packet, every pair of pointers
should be unset or lie in the payload of this packet.  Three pairs need more
than that: the URI may be cut off behind its beginning, the pair of the cookie
is set before its value is met, and the pair of the content length is never
reset.
-/

namespace WindowSystem.Client.RequestRanges

open WindowSystem.CRuntime
open WindowSystem.Client.PktParser
open WindowSystem.Client.RequestGrammar

/-! ## The payload -/

section Payload

variable (memory : Memory) (hdr : PfringPkthdr) (buffer : Int)

/-- The address of the payload. -/
def payloadStart : Int :=
  buffer + headerLen memory hdr buffer

/-- The length that level 1 records. -/
def payloadLen : UInt32 :=
  UInt32.ofInt (hdr.caplen.toNat - headerLen memory hdr buffer)

/-- The bytes that level 2 reads. -/
def payload : Bytes :=
  contentText memory (payloadStart memory hdr buffer)
    (toInt32 (payloadLen memory hdr buffer).toNat).toNat

/-- The address behind the last byte that level 2 reads. -/
def payloadEnd : Int :=
  payloadStart memory hdr buffer + (payload memory hdr buffer).length

/-- The headers of a packet. -/
def packetHeaders : List HeaderItem :=
  requestHeaders (payloadEnd memory hdr buffer) (payload memory hdr buffer)

end Payload

section Headers

variable {memory : Memory} {hdr : PfringPkthdr} {buffer : Int}

theorem headerLen_range :
    -2 ^ 31 ≤ headerLen memory hdr buffer ∧
      headerLen memory hdr buffer < 2 ^ 31 := by
  rw [headerLen]
  split <;> exact toInt32_range _

theorem length_payload_le :
    (payload memory hdr buffer).length ≤
      (toInt32 (payloadLen memory hdr buffer).toNat).toNat := by
  have short := (List.takeWhile_prefix (· != 0)
    (l := bytesAt memory (payloadStart memory hdr buffer)
      (toInt32 (payloadLen memory hdr buffer).toNat).toNat)).length_le
  rwa [length_bytesAt] at short

/-- The text that is read ends within the recorded length. -/
theorem payloadEnd_le :
    payloadEnd memory hdr buffer ≤
      payloadStart memory hdr buffer +
        (payloadLen memory hdr buffer).toNat := by
  have short := @length_payload_le memory hdr buffer
  have range := toInt32_range (payloadLen memory hdr buffer).toNat
  have small := (payloadLen memory hdr buffer).toNat_lt
  have converted :
      toInt32 (payloadLen memory hdr buffer).toNat ≤
        (payloadLen memory hdr buffer).toNat := by
    rw [toInt32, Int.bmod_def]
    split <;> omega
  rw [payloadEnd]
  omega

/-- Where a byte is read, the recorded length does not go beyond what was
captured. -/
theorem payloadLen_le_captured
    (nonempty : payload memory hdr buffer ≠ []) :
    payloadStart memory hdr buffer + (payloadLen memory hdr buffer).toNat ≤
      buffer + hdr.caplen.toNat := by
  have positive := List.length_pos_iff.mpr nonempty
  have short := @length_payload_le memory hdr buffer
  have range := @headerLen_range memory hdr buffer
  have bits :
      ((payloadLen memory hdr buffer).toNat : Int) =
        (hdr.caplen.toNat - headerLen memory hdr buffer) % 2 ^ 32 := by
    simp only [payloadLen, UInt32.ofInt, UInt32.toNat_ofNat']
    omega
  rw [toInt32, Int.bmod_def] at short
  rw [payloadStart]
  split at short <;> omega

theorem placed_payload :
    Placed memory (payloadEnd memory hdr buffer)
      (payload memory hdr buffer) := by
  rw [payloadEnd, payload]
  exact placed_contentText _ _ _

theorem zero_not_mem_payload : 0 ∉ payload memory hdr buffer := by
  rw [payload, contentText]
  exact zero_not_mem_cString _

theorem addressOf_payload :
    addressOf (payloadEnd memory hdr buffer)
      (payload memory hdr buffer) = payloadStart memory hdr buffer := by
  rw [addressOf, payloadEnd, Int.add_sub_cancel]

/-- The part behind the request line. -/
theorem headerText_suffix (text : Bytes) : headerText text <:+ text :=
  ((List.tail_suffix _).trans (List.dropWhile_suffix _)).trans
    (List.dropWhile_suffix _)

/-- What level 1 leaves behind. -/
theorem httpParserLevel1_accepts {http result : HttpRequestKinfo}
    (accepted :
      (httpParserLevel1 memory hdr buffer http).1 = 0)
    (left : (httpParserLevel1 memory hdr buffer http).2 = result) :
    result.content = some (payloadStart memory hdr buffer) ∧
      result.len = payloadLen memory hdr buffer ∧
      result.uri = Range.unset ∧
      result.header .contentLength = http.header .contentLength ∧
      ∀ header ≠ .contentLength, result.header header = Range.unset := by
  subst left
  have reset (header : Header) (other : header ≠ .contentLength) :
      (resetKinfo hdr buffer http).header header = Range.unset := by
    cases header <;> first | rfl | exact absurd rfl other
  rw [httpParserLevel1] at accepted ⊢
  split at accepted <;> split at accepted <;> rename_i port
  · cases accepted
  · rw [if_neg port]
    exact ⟨rfl, rfl, rfl, rfl, reset⟩
  · cases accepted
  · rw [if_neg port]
    exact ⟨rfl, rfl, rfl, rfl, reset⟩

/-- What level 2 leaves behind on a text that it accepts. -/
theorem runText_accepts {captured finish m : Int} {text : Bytes}
    {http result : HttpRequestKinfo} (placed : Placed memory finish text)
    (noNul : 0 ∉ text) (unset : http.uri = Range.unset)
    (accepted :
      runText memory captured (addressOf finish text) text
          { state := .start, m := m, httprequest := http } =
        (0, result)) :
    result.content = http.content ∧ result.len = http.len ∧
      UriRead (UriOpen (uriText text)) (addressOf finish text) finish
        result.uri ∧
      ∀ header, result.header header =
        match ((requestHeaders finish text).filter
          (·.sets header)).getLast? with
        | some item => item.range captured
        | none => http.header header := by
  obtain ⟨m, range, httpType, taken, read⟩ :=
    runText_request unset accepted
  have ending := headerText_suffix text
  obtain ⟨postStart, described⟩ :=
    @runText_readHeaders memory captured finish m (headerText text)
      (afterRequestLine http range httpType) (placed.suffix ending)
      fun member => noNul (ending.subset member)
  obtain rfl := congrArg Prod.snd (read.symm.trans described)
  obtain ⟨uri, content, len⟩ :=
    foldl_record_frame captured (readHeaders finish (headerText text)).2
      (afterRequestLine http range httpType)
  refine ⟨content, len, ?_, ?_⟩
  · simp only [uri]
    exact taken
  · intro header
    refine (header_foldl_record _ header).trans ?_
    rw [requestHeaders]
    cases ((readHeaders finish (headerText text)).2.filter
      (·.sets header)).getLast? <;> rfl

/-- Both levels have accepted a packet. -/
theorem httpCapFilter_eq_some {http result : HttpRequestKinfo}
    (accepted : httpCapFilter memory hdr buffer http = some result) :
    (httpParserLevel1 memory hdr buffer http).1 = 0 ∧
      httpParserLevel2 memory hdr buffer
          (httpParserLevel1 memory hdr buffer http).2 =
        some (0, result) := by
  rw [httpCapFilter] at accepted
  generalize httpParserLevel1 memory hdr buffer http = first at accepted ⊢
  split at accepted
  · cases accepted
  rename_i code
  generalize httpParserLevel2 memory hdr buffer first.2 = second
    at accepted ⊢
  cases second with
  | none => cases accepted
  | some second =>
      obtain ⟨secondCode, left⟩ := second
      rw [Option.bind_some] at accepted
      split at accepted
      · cases accepted
      rename_i second
      simp only [ne_eq, not_not] at code second
      obtain rfl := Option.some.inj accepted
      rw [second]
      exact ⟨code, rfl⟩

/-- What the parser leaves behind on a packet that it accepts. -/
theorem httpCapFilter_accepts {http result : HttpRequestKinfo}
    (accepted : httpCapFilter memory hdr buffer http = some result) :
    result.content = some (payloadStart memory hdr buffer) ∧
      result.len = payloadLen memory hdr buffer ∧
      UriRead (UriOpen (uriText (payload memory hdr buffer)))
        (payloadStart memory hdr buffer) (payloadEnd memory hdr buffer)
        result.uri ∧
      ∀ header, result.header header =
        match ((packetHeaders memory hdr buffer).filter
          (·.sets header)).getLast? with
        | some item => item.range (buffer + hdr.caplen.toNat)
        | none =>
            if header = .contentLength then http.header .contentLength
            else Range.unset := by
  obtain ⟨first, second⟩ := httpCapFilter_eq_some accepted
  obtain ⟨content, len, uri, stale, unset⟩ :=
    httpParserLevel1_accepts first rfl
  rw [httpParserLevel2, content, Option.map_some, len, loop_eq_runText,
    ← payload, ← @addressOf_payload memory hdr buffer] at second
  obtain ⟨sameContent, sameLen, taken, headers⟩ :=
    runText_accepts placed_payload zero_not_mem_payload uri
      (Option.some.inj second)
  rw [addressOf_payload] at taken
  refine ⟨sameContent.trans content, sameLen.trans len, taken, ?_⟩
  intro header
  refine (headers header).trans ?_
  rw [← packetHeaders]
  cases ((packetHeaders memory hdr buffer).filter
    (·.sets header)).getLast? with
  | some item => rfl
  | none =>
      by_cases length : header = .contentLength
      · rw [if_pos length, length]
        exact stale
      · rw [if_neg length]
        exact unset header length

/-- A header range lies in the text. -/
def HeaderItem.Within (first past : Int) (item : HeaderItem) : Prop :=
  (first ≤ item.opened ∧ item.opened ≤ past) ∧
    ∀ offset, lastReturn item.line = some offset →
      first ≤ item.valueStart ∧ item.valueStart + offset < past

theorem lastReturn_lt {line : Bytes} {offset : Nat}
    (found : lastReturn line = some offset) : offset < line.length := by
  induction line generalizing offset with
  | nil => cases found
  | cons ch line induction =>
      rw [lastReturn] at found
      rw [List.length_cons]
      cases later : lastReturn line with
      | some before =>
          rw [later] at found
          obtain rfl := Option.some.inj found
          have := induction later
          omega
      | none =>
          rw [later] at found
          simp only [Option.ite_none_right_eq_some,
            Option.some.injEq] at found
          omega

theorem lastReturn_isSome_iff (line : Bytes) :
    (lastReturn line).isSome ↔ 13 ∈ line := by
  induction line with
  | nil => simp [lastReturn]
  | cons ch line induction =>
      rw [lastReturn, List.mem_cons, ← induction]
      cases lastReturn line with
      | some before => simp
      | none =>
          by_cases isReturn : ch = 13
          · simp [isReturn]
          · simp [isReturn, Ne.symm isReturn]

/-- A value is read inside the text behind its separator. -/
theorem readValue_within {finish first : Int} {header : Header}
    {body : Bytes} (low : first ≤ addressOf finish body) :
    HeaderItem.Within first finish (readValue finish header body) := by
  have ending := (List.dropWhile_suffix isSeparator (l := body)).length_le
  constructor
  · refine ⟨low, ?_⟩
    simp only [readValue, addressOf]
    omega
  · intro offset found
    simp only [readValue] at found ⊢
    have inLine := lastReturn_lt found
    have line :=
      (List.takeWhile_prefix (· != 10)
        (l := (body.dropWhile isSeparator).tail)).length_le
    rw [List.length_tail] at line
    simp only [addressOf] at low ⊢
    omega

theorem HeaderItem.Within.mono {first first' past : Int}
    {item : HeaderItem} (within : HeaderItem.Within first past item)
    (lower : first' ≤ first) : HeaderItem.Within first' past item := by
  obtain ⟨⟨opened, reached⟩, value⟩ := within
  refine ⟨⟨by omega, reached⟩, ?_⟩
  intro offset found
  have := value offset found
  omega

theorem addressOf_le_of_suffix {text rest : Bytes} (finish : Int)
    (ending : rest <:+ text) :
    addressOf finish text ≤ addressOf finish rest := by
  have := ending.length_le
  simp only [addressOf]
  omega

theorem nextHeader_within {finish : Int} {text rest : Bytes}
    {item : Option HeaderItem}
    (found : nextHeader finish text = .more item rest) :
    ∀ known ∈ item,
      HeaderItem.Within (addressOf finish text) finish known := by
  have blanks := List.dropWhile_suffix (· == 32) (l := text)
  rw [nextHeader] at found
  split at found
  · cases found
  rename_i ch later lineStart
  rw [lineStart] at blanks
  split at found
  · cases found
  split at found
  · cases found
  have named :=
    List.dropWhile_suffix (fun ch => !isSeparator ch) (l := later)
  rw [readName] at found
  split at found
  · cases found
  rename_i separator body ended
  rw [ended] at named
  have inside : body <:+ text :=
    (((List.suffix_cons separator body).trans named).trans
      (List.suffix_cons ch later)).trans blanks
  split at found
  · cases found
    rintro known ⟨⟩
  · cases found
    rintro known ⟨⟩
    exact readValue_within (addressOf_le_of_suffix finish inside)

/-- All headers lie in the text. -/
theorem readHeaders_within (finish : Int) (text : Bytes) :
    ∀ item ∈ (readHeaders finish text).2,
      HeaderItem.Within (addressOf finish text) finish item := by
  induction text using readHeaders.induct finish with
  | case1 text code found =>
      rw [readHeaders, found]
      simp
  | case2 text item rest found induction =>
      rw [readHeaders, found]
      intro known member
      rcases List.mem_append.mp member with here | later
      · exact nextHeader_within found known (Option.mem_toList.mp here)
      · exact (induction known later).mono
          (addressOf_le_of_suffix finish (suffix_of_nextHeader found).1)

theorem packetHeaders_within :
    ∀ item ∈ packetHeaders memory hdr buffer,
      HeaderItem.Within (payloadStart memory hdr buffer)
        (payloadEnd memory hdr buffer) item := by
  intro item member
  rw [packetHeaders, requestHeaders] at member
  refine (readHeaders_within _ _ item member).mono ?_
  rw [← addressOf_payload]
  exact addressOf_le_of_suffix _ (headerText_suffix _)

theorem payload_ne_nil_of_mem {item : HeaderItem}
    (member : item ∈ packetHeaders memory hdr buffer) :
    payload memory hdr buffer ≠ [] := by
  intro empty
  rw [packetHeaders, empty, requestHeaders, headerText] at member
  simp [afterLine, readHeaders, nextHeader] at member

/-! ## Ranges inside the payload -/

/-- Every pair of the struct is unset or lies in its payload. -/
def RangesInside (http : HttpRequestKinfo) : Prop :=
  ∀ content ∈ http.content,
    http.uri.Inside content (content + http.len.toNat) ∧
      ∀ header,
        (http.header header).Inside content (content + http.len.toNat)

/-- The last `Cookie` header has a carriage return behind the first byte of
its value. -/
def CookieClosed (items : List HeaderItem) : Prop :=
  ∀ item ∈ (items.filter (·.header = .cookie)).getLast?, 13 ∈ item.line

/-- Some `Content-Length` header has a carriage return behind the first byte
of its value. -/
def LengthGiven (items : List HeaderItem) : Prop :=
  ∃ item ∈ items, item.header = .contentLength ∧ 13 ∈ item.line

theorem sets_cookie (item : HeaderItem) :
    item.sets .cookie = decide (item.header = .cookie) := by
  simp [HeaderItem.sets]

theorem range_closed {captured : Int} {item : HeaderItem} {offset : Nat}
    (found : lastReturn item.line = some offset) :
    item.range captured =
      { start := some item.valueStart
        stop := some (item.valueStart + offset) } := by
  rw [HeaderItem.range, found]

theorem range_open {captured : Int} {item : HeaderItem}
    (found : lastReturn item.line = none) :
    item.range captured =
      { start := some item.opened, stop := some captured } := by
  rw [HeaderItem.range, found]

/-- The pair that a closed header of the packet leaves. -/
theorem range_inside {item : HeaderItem}
    (member : item ∈ packetHeaders memory hdr buffer)
    (closed : 13 ∈ item.line) (captured : Int) :
    (item.range captured).Inside (payloadStart memory hdr buffer)
      (payloadStart memory hdr buffer +
        (payloadLen memory hdr buffer).toNat) := by
  obtain ⟨offset, found⟩ :=
    Option.isSome_iff_exists.mp ((lastReturn_isSome_iff _).mpr closed)
  obtain ⟨low, high⟩ := (packetHeaders_within item member).2 offset found
  have reached := @payloadEnd_le memory hdr buffer
  rw [range_closed found, Range.inside_some_iff]
  exact ⟨low, by omega, by omega⟩

/-- The pair of a cookie that was left open. -/
theorem range_not_inside {item : HeaderItem}
    (member : item ∈ packetHeaders memory hdr buffer)
    (unclosed : 13 ∉ item.line) :
    ¬ (item.range (buffer + hdr.caplen.toNat)).Inside
      (payloadStart memory hdr buffer)
      (payloadStart memory hdr buffer +
        (payloadLen memory hdr buffer).toNat) := by
  have found : lastReturn item.line = none := by
    rw [← Option.not_isSome_iff_eq_none, lastReturn_isSome_iff]
    exact unclosed
  have past := payloadLen_le_captured (payload_ne_nil_of_mem member)
  rw [range_open found, Range.inside_some_iff]
  omega

/-- A header that sets its pair without a carriage return is a cookie. -/
theorem cookie_of_sets {item : HeaderItem} {header : Header}
    (sets : item.sets header = true) (unclosed : 13 ∉ item.line) :
    header = .cookie := by
  have noReturn : (lastReturn item.line).isSome = false := by
    rw [← Bool.not_eq_true, lastReturn_isSome_iff]
    exact unclosed
  rw [HeaderItem.sets, noReturn, Bool.or_false, Bool.and_eq_true] at sets
  exact of_decide_eq_true sets.2

/-- No header sets the pair of the content length unless a closed one gives
it. -/
theorem filter_sets_contentLength_eq_nil_iff {items : List HeaderItem} :
    items.filter (·.sets .contentLength) = [] ↔ ¬ LengthGiven items := by
  rw [List.filter_eq_nil_iff]
  constructor
  · rintro unset ⟨item, member, named, closed⟩
    apply unset item member
    simp [HeaderItem.sets, named, lastReturn_isSome_iff, closed]
  · intro missing item member sets
    refine missing ⟨item, member, ?named, ?closed⟩
    case named =>
      simp only [HeaderItem.sets, Bool.and_eq_true] at sets
      exact of_decide_eq_true sets.1
    case closed =>
      by_contra unclosed
      cases cookie_of_sets sets unclosed

/-- After a packet was accepted, all ranges lie in its payload exactly when
its URI is ended by a space or does not begin, its last cookie is closed, and
it either carries a content length or the pair of the content length was
harmless before. -/
theorem rangesInside_iff {http result : HttpRequestKinfo}
    (accepted : httpCapFilter memory hdr buffer http = some result) :
    RangesInside result ↔
      ¬ UriOpen (uriText (payload memory hdr buffer)) ∧
        CookieClosed (packetHeaders memory hdr buffer) ∧
        (LengthGiven (packetHeaders memory hdr buffer) ∨
          (http.header .contentLength).Inside
            (payloadStart memory hdr buffer)
            (payloadStart memory hdr buffer +
              (payloadLen memory hdr buffer).toNat)) := by
  obtain ⟨content, len, uri, headers⟩ := httpCapFilter_accepts accepted
  have ranges :
      RangesInside result ↔
        ¬ UriOpen (uriText (payload memory hdr buffer)) ∧
          ∀ header, (result.header header).Inside
            (payloadStart memory hdr buffer)
            (payloadStart memory hdr buffer +
              (payloadLen memory hdr buffer).toNat) := by
    rw [RangesInside, content, len]
    simp only [Option.mem_def, Option.some.injEq, forall_eq']
    rw [uri.inside_iff (Int.le_refl _) payloadEnd_le]
  rw [ranges]
  refine and_congr_right fun _ => ?_
  constructor
  · intro inside
    constructor
    · intro item last
      by_contra unclosed
      have given := headers .cookie
      simp only [sets_cookie, Option.mem_def.mp last] at given
      have member := (List.mem_filter.mp (List.mem_of_getLast? last)).1
      exact range_not_inside member unclosed (given ▸ inside .cookie)
    · refine or_iff_not_imp_left.mpr fun missing => ?_
      have stale := headers .contentLength
      rw [filter_sets_contentLength_eq_nil_iff.mpr missing, List.getLast?_nil,
        if_pos rfl] at stale
      have kept := inside .contentLength
      rw [stale] at kept
      exact kept
  · rintro ⟨cookie, length⟩ header
    rw [headers header]
    split
    · rename_i item last
      obtain ⟨member, sets⟩ :=
        List.mem_filter.mp (List.mem_of_getLast? last)
      refine range_inside member ?_ _
      by_contra unclosed
      obtain rfl := cookie_of_sets sets unclosed
      simp only [sets_cookie] at last
      exact unclosed (cookie item last)
    · rename_i unset
      split
      · rename_i isLength
        subst isLength
        rw [List.getLast?_eq_none_iff,
          filter_sets_contentLength_eq_nil_iff] at unset
        exact length.resolve_left unset
      · exact Range.inside_unset _ _

end Headers

/-! ## Four packets -/

/-- A packet that is cut off in its URI. -/
def cutUri : Bytes :=
  ascii "GET /index"

/-- A packet that is cut off in the value of its cookie. -/
def cutPacket : Bytes :=
  ascii "GET / HTTP/1.1\x0d\x0aCookie: a"

/-- A packet without headers. -/
def barePacket : Bytes :=
  ascii "GET / HTTP/1.1\x0d\x0a\x0d\x0a"

/-- A complete request. -/
def closedPacket : Bytes :=
  ascii "GET / HTTP/1.1\x0d\x0aCookie: a\x0d\x0a" ++
    ascii "Content-Length: 0\x0d\x0a\x0d\x0a"

theorem rangesInside_iff_closedPacket :
    ∃ result,
      httpCapFilter (packetMemory closedPacket) (packetHdr closedPacket) 0
          (previousKinfo Range.unset) = some result ∧
      (RangesInside result ↔
        ¬ UriOpen
            (uriText
              (payload (packetMemory closedPacket) (packetHdr closedPacket)
                0)) ∧
          CookieClosed
            (packetHeaders (packetMemory closedPacket)
              (packetHdr closedPacket) 0) ∧
          (LengthGiven
              (packetHeaders (packetMemory closedPacket)
                (packetHdr closedPacket) 0) ∨
            Range.unset.Inside
              (payloadStart (packetMemory closedPacket)
                (packetHdr closedPacket) 0)
              (payloadStart (packetMemory closedPacket)
                  (packetHdr closedPacket) 0 +
                (payloadLen (packetMemory closedPacket)
                  (packetHdr closedPacket) 0).toNat))) := by
  have accepts :
      (httpCapFilter (packetMemory closedPacket) (packetHdr closedPacket) 0
        (previousKinfo Range.unset)).isSome = true := by
    decide +kernel
  obtain ⟨result, accepted⟩ := Option.isSome_iff_exists.mp accepts
  exact ⟨result, accepted, rangesInside_iff accepted⟩

/-- A pair that the parser leaves and that is not inside the payload. -/
theorem not_rangesInside_of_header {memory : Memory} {hdr : PfringPkthdr}
    {buffer content start stop : Int} {len : UInt32}
    {http : HttpRequestKinfo} {header : Header}
    (left :
      (httpCapFilter memory hdr buffer http).map
          (fun result =>
            (result.content, result.len, result.header header)) =
        some (some content, len, { start := some start, stop := some stop }))
    (outside : content + len.toNat ≤ stop) :
    ∃ result, httpCapFilter memory hdr buffer http = some result ∧
      result.header header = { start := some start, stop := some stop } ∧
      ¬ RangesInside result := by
  obtain ⟨result, accepted, fields⟩ := Option.map_eq_some_iff.mp left
  simp only [Prod.mk.injEq] at fields
  obtain ⟨payload, length, range⟩ := fields
  refine ⟨result, accepted, range, ?_⟩
  intro inside
  have bound := (inside content payload).2 header
  rw [range, length, Range.inside_some_iff] at bound
  omega

/-- A URI that is cut off has a beginning and no end, the end of an unfinished
cookie is one byte too far, and the content length of an earlier packet is
kept. -/
theorem rangesInside_violated :
    (∃ result,
      httpCapFilter (packetMemory cutUri) (packetHdr cutUri) 0
          (previousKinfo Range.unset) = some result ∧
      result.uri = { start := some 4, stop := none } ∧
      ¬ RangesInside result) ∧
    (∃ result,
      httpCapFilter (packetMemory cutPacket) (packetHdr cutPacket) 0
          (previousKinfo Range.unset) = some result ∧
      result.header .cookie = { start := some 23, stop := some 25 } ∧
      ¬ RangesInside result) ∧
    ∃ result,
      httpCapFilter (packetMemory barePacket) (packetHdr barePacket) 0
          (previousKinfo { start := some 900, stop := some 901 }) =
        some result ∧
      result.header .contentLength =
        { start := some 900, stop := some 901 } ∧
      ¬ RangesInside result := by
  refine ⟨?_, ?_, ?_⟩
  · obtain ⟨result, accepted, uri⟩ :
        ∃ result,
          httpCapFilter (packetMemory cutUri) (packetHdr cutUri) 0
              (previousKinfo Range.unset) = some result ∧
          (result.content, result.uri) =
            (some 0, { start := some 4, stop := none }) :=
      Option.map_eq_some_iff.mp (by decide +kernel)
    obtain ⟨content, uri⟩ := Prod.mk.inj uri
    refine ⟨result, accepted, uri, fun inside => ?_⟩
    have pair := (inside 0 content).1
    rw [uri] at pair
    exact Range.not_inside_half pair
  · exact @not_rangesInside_of_header _ _ _ 0 _ _ 25 _ .cookie
      (by decide +kernel) (by decide)
  · exact @not_rangesInside_of_header _ _ _ 0 _ _ 18 _ .contentLength
      (by decide +kernel) (by decide)

end WindowSystem.Client.RequestRanges
