import WindowSystem.Client.RequestGrammar

/-!
# Well-formed requests

A request that follows the grammar of HTTP is accepted, its URI is recorded
exactly, and each of the five headers gets the value of its last line.
-/

namespace WindowSystem.Client.WellFormedRequest

open WindowSystem.CRuntime
open WindowSystem.Client.PktParser
open WindowSystem.Client.RequestGrammar

/-! ## Requests -/

/-- The two methods. -/
inductive Method where
  | get
  | post
deriving DecidableEq

def Method.text : Method → Bytes
  | .get => ascii "GET"
  | .post => ascii "POST"

/-- The value that `http_type` gets. -/
def Method.httpType (before : Int) : Method → Int
  | .get => before
  | .post => 1

/-- A line `Name: value`. -/
structure HeaderLine where
  name : Bytes
  value : Bytes
deriving DecidableEq

/-- A line break. -/
def crlf : Bytes :=
  [13, 10]

def HeaderLine.text (line : HeaderLine) : Bytes :=
  line.name ++ ascii ": " ++ line.value ++ crlf

/-- A request without its body. -/
structure Request where
  method : Method
  uri : Bytes
  version : Bytes
  headers : List HeaderLine
deriving DecidableEq

/-- The header lines and the blank line. -/
def headerBlock (headers : List HeaderLine) : Bytes :=
  headers.flatMap HeaderLine.text ++ crlf

def Request.text (request : Request) : Bytes :=
  request.method.text ++ ascii " " ++ request.uri ++ ascii " HTTP/" ++
    request.version ++ crlf ++ headerBlock request.headers

/-- A well-formed header line. -/
structure HeaderLine.WellFormed (line : HeaderLine) : Prop where
  name_ne_nil : line.name ≠ []
  name_plain : ∀ ch ∈ line.name, ch ≠ 32 ∧ ch ≠ 58 ∧ ch ≠ 13 ∧ ch ≠ 10
  value_plain : ∀ ch ∈ line.value, ch ≠ 13 ∧ ch ≠ 10
  value_begins : ∃ first rest, line.value = first :: rest ∧
    first ≠ 32 ∧ first ≠ 58

/-- A well-formed request. -/
structure Request.WellFormed (request : Request) : Prop where
  uri_begins : ∃ rest, request.uri = 47 :: rest
  uri_plain : ∀ ch ∈ request.uri, ch ≠ 32 ∧ ch ≠ 13 ∧ ch ≠ 10 ∧ ch ≠ 0
  version_plain : ∀ ch ∈ request.version, ch ≠ 13 ∧ ch ≠ 10 ∧ ch ≠ 0
  headers : ∀ line ∈ request.headers, line.WellFormed

/-- The name of a header. -/
def headerName : Header → Bytes
  | .host => ascii "Host"
  | .userAgent => ascii "User-Agent"
  | .referer => ascii "Referer"
  | .cookie => ascii "Cookie"
  | .contentLength => ascii "Content-Length"

/-- A different name of the same length as `Referer`, `User-Agent` or
`Content-Length` that agrees with it in five bytes. -/
def NearMiss (name : Bytes) : Prop :=
  ∃ header ≠ Header.cookie,
    name.length = (headerName header).length ∧
      name.take 5 = (headerName header).take 5 ∧ name ≠ headerName header

/-- A line without zero bytes whose name is not nearly one of the five. -/
structure HeaderLine.Plain (line : HeaderLine) : Prop where
  name_noNul : 0 ∉ line.name
  value_noNul : 0 ∉ line.value
  name_distinct : ¬ NearMiss line.name

/-- The value of the last line with the name of a header. -/
def lastValue (header : Header) (headers : List HeaderLine) :
    Option Bytes :=
  ((headers.filter (·.name = headerName header)).getLast?).map
    HeaderLine.value

/-- The text of a pair of pointers. -/
def rangeText (memory : Memory) (range : Range) : Option Bytes :=
  range.start.bind fun start =>
    range.stop.map fun stop =>
      bytesAt memory start (stop - start + 1).toNat

/-! ## Names -/

theorem headerOf_headerName (header : Header) :
    headerOf (headerName header) = some header := by
  cases header <;> rfl

/-- A name that is not nearly one of the five is compared exactly. -/
theorem headerOf_eq_some_iff {name : Bytes} (distinct : ¬ NearMiss name)
    (header : Header) :
    headerOf name = some header ↔ name = headerName header := by
  constructor
  · intro found
    by_contra other
    refine distinct ⟨header, ?_⟩
    rw [headerOf] at found
    split at found <;> rename_i length <;>
      simp only [Option.ite_none_right_eq_some, Option.some.injEq,
        reduceCtorEq] at found
    · obtain ⟨same, rfl⟩ := found
      exact absurd same other
    · obtain ⟨same, rfl⟩ := found
      exact absurd same other
    · obtain ⟨start, rfl⟩ := found
      exact ⟨by decide, length, start, other⟩
    · obtain ⟨start, rfl⟩ := found
      exact ⟨by decide, length, start, other⟩
    · obtain ⟨start, rfl⟩ := found
      exact ⟨by decide, length, start, other⟩
  · rintro rfl
    exact headerOf_headerName header

/-! ## Reading the header lines -/

section Headers

variable {line : HeaderLine} {lines : List HeaderLine} {finish : Int}
  {rest : Bytes}

/-- The header that the parser sees in a line before `rest`. -/
def lineItem (finish : Int) (line : HeaderLine) (rest : Bytes) :
    Option HeaderItem :=
  (headerOf line.name).map fun header =>
    { header := header
      opened := addressOf finish (32 :: (line.value ++ crlf ++ rest))
      valueStart := addressOf finish (line.value ++ crlf ++ rest)
      line := line.value.tail ++ [13] }

/-- The headers that the parser sees in several lines before `rest`. -/
def lineItems (finish : Int) : List HeaderLine → Bytes → List HeaderItem
  | [], _ => []
  | line :: lines, rest =>
      (lineItem finish line
          (lines.flatMap HeaderLine.text ++ rest)).toList ++
        lineItems finish lines rest

theorem takeWhile_append_stop {property : UInt8 → Bool}
    {front : Bytes} {stop : UInt8} (rest : Bytes)
    (holds : ∀ ch ∈ front, property ch = true)
    (fails : property stop = false) :
    (front ++ stop :: rest).takeWhile property = front ∧
      (front ++ stop :: rest).dropWhile property = stop :: rest := by
  rw [List.takeWhile_append_of_pos holds,
    List.dropWhile_append_of_pos holds,
    List.takeWhile_cons_of_neg (by simp [fails]),
    List.dropWhile_cons_of_neg (by simp [fails]), List.append_nil]
  exact ⟨rfl, rfl⟩

theorem afterLine_append {front : Bytes} (rest : Bytes)
    (oneLine : ∀ ch ∈ front, ch ≠ 10) :
    afterLine (front ++ 10 :: rest) = rest := by
  have stops :=
    @takeWhile_append_stop (· != 10) front 10 rest
      (by simpa using oneLine) (by decide)
  rw [afterLine, stops.2, List.tail_cons]

/-- What the parser reads of a value and its line break. -/
theorem readValue_line (wellFormed : line.WellFormed) (header : Header)
    (rest : Bytes) :
    readValue finish header (32 :: (line.value ++ crlf ++ rest)) =
        { header := header
          opened := addressOf finish (32 :: (line.value ++ crlf ++ rest))
          valueStart := addressOf finish (line.value ++ crlf ++ rest)
          line := line.value.tail ++ [13] } ∧
      afterLine
          ((32 :: (line.value ++ crlf ++ rest)).dropWhile
            isSeparator).tail = rest := by
  obtain ⟨first, later, value, noBlank, noColon⟩ := wellFormed.value_begins
  have begins :
      (32 :: (line.value ++ crlf ++ rest)).dropWhile isSeparator =
        line.value ++ crlf ++ rest := by
    rw [List.dropWhile_cons_of_pos (by decide), value]
    simp [isSeparator, noBlank, noColon]
  have oneLine : ∀ ch ∈ line.value.tail ++ [13], ch ≠ 10 := by
    intro ch member
    rcases List.mem_append.mp member with inValue | isReturn
    · exact (wellFormed.value_plain ch (List.mem_of_mem_tail inValue)).2
    · rw [List.mem_singleton.mp isReturn]
      decide
  have tail :
      (line.value ++ crlf ++ rest).tail =
        (line.value.tail ++ [13]) ++ 10 :: rest := by
    rw [value]
    simp [crlf]
  constructor
  · simp only [readValue, begins, tail]
    rw [(@takeWhile_append_stop (· != 10) (line.value.tail ++ [13]) 10 rest
      (by simpa using oneLine) (by decide)).1]
  · rw [begins, tail, afterLine_append rest oneLine]

/-- The parser reads one line. -/
theorem nextHeader_line (wellFormed : line.WellFormed) (rest : Bytes) :
    nextHeader finish (line.text ++ rest) =
      .more (lineItem finish line rest) rest := by
  obtain ⟨first, later, name⟩ :=
    List.exists_cons_of_ne_nil wellFormed.name_ne_nil
  have plain := wellFormed.name_plain
  rw [name] at plain
  obtain ⟨noBlank, _, noReturn, noFeed⟩ := plain first List.mem_cons_self
  have text :
      line.text ++ rest =
        first :: (later ++ 58 :: 32 :: (line.value ++ crlf ++ rest)) := by
    have separator : ascii ": " = [58, 32] := rfl
    rw [HeaderLine.text, name, separator]
    simp
  obtain ⟨named, body⟩ :=
    @takeWhile_append_stop (fun ch => !isSeparator ch) later 58
      (32 :: (line.value ++ crlf ++ rest))
      (fun ch member => by
        have := plain ch (List.mem_cons_of_mem _ member)
        simp [isSeparator, this.1, this.2.1])
      (by decide)
  rw [text, nextHeader, List.dropWhile_cons_of_neg (by simpa using noBlank)]
  simp only [if_neg noReturn, if_neg noFeed, readName, named, body,
    lineItem, name]
  cases headerOf (first :: later) with
  | some header =>
      obtain ⟨read, after⟩ :=
        @readValue_line line finish wellFormed header rest
      simp only [read, after, Option.map_some]
  | none =>
      have oneLine : ∀ ch ∈ 32 :: (line.value ++ [13]), ch ≠ 10 := by
        intro ch member
        rcases List.mem_cons.mp member with rfl | member
        · decide
        · rcases List.mem_append.mp member with inValue | isReturn
          · exact (wellFormed.value_plain ch inValue).2
          · rw [List.mem_singleton.mp isReturn]
            decide
      have split :
          32 :: (line.value ++ crlf ++ rest) =
            (32 :: (line.value ++ [13])) ++ 10 :: rest := by
        simp [crlf]
      simp only [Option.map_none]
      rw [split, afterLine_append rest oneLine]

/-- The parser reads all lines and stops at the blank line. -/
theorem readHeaders_headerBlock
    (wellFormed : ∀ line ∈ lines, line.WellFormed) (body : Bytes) :
    readHeaders finish (headerBlock lines ++ body) =
      (0, lineItems finish lines (crlf ++ body)) := by
  induction lines with
  | nil =>
      have blank :
          nextHeader finish (headerBlock [] ++ body) = .finished 0 := by
        simp [headerBlock, crlf, nextHeader, closingCode]
      rw [readHeaders, blank]
      rfl
  | cons line lines induction =>
      have more :=
        @nextHeader_line line finish (wellFormed line List.mem_cons_self)
          (headerBlock lines ++ body)
      have text :
          headerBlock (line :: lines) ++ body =
            line.text ++ (headerBlock lines ++ body) := by
        simp [headerBlock]
      rw [readHeaders, text, more]
      simp only [induction fun other member =>
        wellFormed other (List.mem_cons_of_mem _ member), lineItems]
      rw [headerBlock, List.append_assoc]

/-! ## Values -/

theorem lastReturn_append_return {front : Bytes}
    (plain : ∀ ch ∈ front, ch ≠ 13) :
    lastReturn (front ++ [13]) = some front.length := by
  induction front with
  | nil => rfl
  | cons ch front induction =>
      rw [List.cons_append, lastReturn,
        induction fun other member =>
          plain other (List.mem_cons_of_mem _ member)]
      rfl

/-- The pair that a line leaves encloses its value. -/
theorem lineItem_range {memory : Memory} {captured : Int}
    {item : HeaderItem} (wellFormed : line.WellFormed)
    (placed : Placed memory finish (line.text ++ rest))
    (seen : lineItem finish line rest = some item) :
    (lastReturn item.line).isSome = true ∧
      rangeText memory (item.range captured) = some line.value := by
  obtain ⟨header, _, rfl⟩ := Option.map_eq_some_iff.mp seen
  obtain ⟨first, later, value, _, _⟩ := wellFormed.value_begins
  have found :
      lastReturn (line.value.tail ++ [13]) = some later.length := by
    rw [value, List.tail_cons]
    refine lastReturn_append_return fun ch member => ?_
    exact (wellFormed.value_plain ch
      (by rw [value]; exact List.mem_cons_of_mem _ member)).1
  have ending :
      line.value ++ (crlf ++ rest) <:+ line.text ++ rest :=
    ⟨line.name ++ ascii ": ", by simp [HeaderLine.text]⟩
  have read := (placed_append (placed.suffix ending)).1
  rw [← List.append_assoc] at read
  refine ⟨by simp [found], ?_⟩
  simp only [HeaderItem.range, found, rangeText, Option.bind_some,
    Option.map_some]
  have width (start : Int) :
      (start + (later.length : Int) - start + 1).toNat =
        line.value.length := by
    rw [value, List.length_cons]
    omega
  rw [width, read]

/-- One more line in front. -/
theorem lastValue_cons (header : Header) (line : HeaderLine)
    (lines : List HeaderLine) :
    lastValue header (line :: lines) =
      (lastValue header lines).or
        (if line.name = headerName header then some line.value
        else none) := by
  rw [lastValue, lastValue, List.filter_cons]
  by_cases same : line.name = headerName header
  · rw [if_pos (by simpa using same), if_pos same, List.getLast?_cons]
    cases (lines.filter (·.name = headerName header)).getLast? <;> rfl
  · rw [if_neg (by simpa using same), if_neg same, Option.or_none]

/-- The last line of a header determines its pair. -/
theorem lineItems_last {memory : Memory} {captured : Int}
    (header : Header)
    (wellFormed : ∀ line ∈ lines, line.WellFormed)
    (plain : ∀ line ∈ lines, line.Plain)
    (placed :
      Placed memory finish (lines.flatMap HeaderLine.text ++ rest)) :
    (((lineItems finish lines rest).filter
        (·.sets header)).getLast?).map
          (fun item => rangeText memory (item.range captured)) =
      (lastValue header lines).map some := by
  induction lines with
  | nil => rfl
  | cons line lines induction =>
      rw [List.flatMap_cons, List.append_assoc] at placed
      have later :=
        induction
          (fun other member =>
            wellFormed other (List.mem_cons_of_mem _ member))
          (fun other member => plain other (List.mem_cons_of_mem _ member))
          (placed.suffix (List.suffix_append _ _))
      have distinct :=
        headerOf_eq_some_iff (plain line List.mem_cons_self).name_distinct
      have here :
          ((((lineItem finish line
              (lines.flatMap HeaderLine.text ++ rest)).toList).filter
                (·.sets header)).getLast?).map
                  (fun item => rangeText memory (item.range captured)) =
            (if line.name = headerName header then some line.value
            else none).map some := by
        cases seen : lineItem finish line
            (lines.flatMap HeaderLine.text ++ rest) with
        | none =>
            have other : line.name ≠ headerName header := by
              intro same
              rw [lineItem, (distinct header).mpr same] at seen
              cases seen
            rw [if_neg other]
            rfl
        | some item =>
            obtain ⟨closed, text⟩ :=
              @lineItem_range line finish
                (lines.flatMap HeaderLine.text ++ rest) memory captured item
                (wellFormed line List.mem_cons_self) placed seen
            have known : headerOf line.name = some item.header := by
              obtain ⟨known, found, rfl⟩ := Option.map_eq_some_iff.mp seen
              exact found
            have sets :
                item.sets header = decide (item.header = header) := by
              rw [HeaderItem.sets, closed, Bool.or_true, Bool.and_true]
            by_cases same : item.header = header
            · rw [same, distinct] at known
              simp [sets, same, known, text]
            · have other : line.name ≠ headerName header := by
                intro named
                rw [(distinct header).mpr named] at known
                exact same (Option.some.inj known).symm
              simp [sets, same, other]
      rw [lineItems, List.filter_append, List.getLast?_append,
        Option.map_or, later, here, lastValue_cons, Option.map_or]

end Headers

/-! ## Reading the request line -/

section RequestLine

variable {memory : Memory} {captured finish m : Int}
  {http : HttpRequestKinfo} {rest : Bytes}

/-- The space behind a method. -/
theorem switch_method {p : Int} (method : Method)
    (width : p - m = method.text.length)
    (named : bytesAt memory m (method.text.length + 1) =
      method.text ++ [32]) :
    switch memory captured p 32
        { state := .method, m := m, httprequest := http } =
      .next
        { state := .spacesBeforeUri
          m := m
          httprequest :=
            { http with httpType := method.httpType http.httpType } } := by
  cases method with
  | get =>
      have three : p - m = 3 := width
      have four : bytesAt memory m 4 = ascii "GET " := named
      simp [switch, switchMethod, three, four, Method.httpType]
  | post =>
      have four : p - m = 4 := width
      have five : bytesAt memory m 5 = ascii "POST " := named
      simp [switch, switchMethod, four, five, Method.httpType]

/-- The method is read. -/
theorem runText_method (method : Method)
    (placed : Placed memory finish (method.text ++ 32 :: rest)) :
    ∃ m', runText memory captured
          (addressOf finish (method.text ++ 32 :: rest))
          (method.text ++ 32 :: rest)
          { state := .start, m := m, httprequest := http } =
        runText memory captured (addressOf finish rest) rest
          { state := .spacesBeforeUri
            m := m'
            httprequest :=
              { http with
                httpType := method.httpType http.httpType } } := by
  obtain ⟨first, later, text, capitals⟩ :
      ∃ first later, method.text = first :: later ∧
        ∀ ch ∈ first :: later,
          notCapital ch = false ∧ ch ≠ 13 ∧ ch ≠ 10 ∧ ch ≠ 32 := by
    cases method <;> exact ⟨_, _, rfl, by decide +kernel⟩
  obtain ⟨capital, noReturn, noFeed, _⟩ := capitals first List.mem_cons_self
  refine ⟨addressOf finish (method.text ++ 32 :: rest), ?_⟩
  have begins (p : Int) :
      switch memory captured p first
          { state := .start, m := m, httprequest := http } =
        .next { state := .method, m := p, httprequest := http } := by
    simp [switch, capital, noReturn, noFeed]
  have idle : ∀ ch ∈ later, ∀ p,
      switch memory captured p ch
          { state := .method
            m := addressOf finish (method.text ++ 32 :: rest)
            httprequest := http } =
        .next
          { state := .method
            m := addressOf finish (method.text ++ 32 :: rest)
            httprequest := http } := by
    intro ch member p
    obtain ⟨capital, _, _, noBlank⟩ :=
      capitals ch (List.mem_cons_of_mem _ member)
    simp [switch, capital, noBlank]
  have place := addressOf_append finish method.text (32 :: rest)
  have named :
      bytesAt memory (addressOf finish (method.text ++ 32 :: rest))
          (method.text.length + 1) = method.text ++ [32] := by
    have whole : method.text ++ 32 :: rest = (method.text ++ [32]) ++ rest := by
      simp
    rw [whole] at placed ⊢
    have read := (placed_append placed).1
    rwa [List.length_append, List.length_singleton] at read
  have ended :=
    @switch_method memory captured
      (addressOf finish (method.text ++ 32 :: rest)) http
      (addressOf finish (32 :: rest)) method (by omega) named
  rw [text, List.cons_append] at idle ended ⊢
  rw [runText_next (begins _), runText_skip _ idle,
    addressOf_cons, addressOf_append, runText_next ended, addressOf_cons]

/-- The URI is read up to its end. -/
theorem runText_uri {uri : Bytes} (p : Int)
    (plain : ∀ ch ∈ uri, ch ≠ 32 ∧ ch ≠ 13 ∧ ch ≠ 10 ∧ ch ≠ 0) :
    ∃ m', runText memory captured p (uri ++ rest)
        { state := .uri, m := m, httprequest := http } =
      runText memory captured (p + uri.length) rest
        { state := .uri, m := m', httprequest := http } := by
  induction uri generalizing p m with
  | nil => exact ⟨m, by simp⟩
  | cons ch uri induction =>
      obtain ⟨noBlank, noReturn, noFeed, nonzero⟩ :=
        plain ch List.mem_cons_self
      have turn :
          switch memory captured p ch
              { state := .uri, m := m, httprequest := http } =
            .next
              { state := .uri
                m := if ch = 63 then lastTen (p - 1) m else m
                httprequest := http } := by
        simp only [switch, if_neg noBlank, if_neg noReturn, if_neg noFeed,
          if_neg nonzero]
        split <;> rfl
      obtain ⟨m', read⟩ :=
        @induction (if ch = 63 then lastTen (p - 1) m else m) (p + 1)
          fun other member => plain other (List.mem_cons_of_mem _ member)
      refine ⟨m', ?_⟩
      have later : p + 1 + uri.length = p + (ch :: uri).length := by
        rw [List.length_cons, Nat.cast_succ]
        omega
      rw [List.cons_append, runText_next turn, read, later]

/-- The version is read up to the end of its line. -/
theorem runText_version {version : Bytes}
    (plain : ∀ ch ∈ version, ch ≠ 10) :
    runText memory captured
        (addressOf finish (version ++ 10 :: rest)) (version ++ 10 :: rest)
        { state := .spacesAfterDigit, m := m, httprequest := http } =
      runText memory captured (addressOf finish rest) rest
        (atHeader m http) := by
  have idle : ∀ ch ∈ version, ∀ p,
      switch memory captured p ch
          { state := .spacesAfterDigit, m := m, httprequest := http } =
        .next
          { state := .spacesAfterDigit, m := m, httprequest := http } := by
    intro ch member p
    simp [switch, plain ch member]
  have feed (p : Int) :
      switch memory captured p 10
          { state := .spacesAfterDigit, m := m, httprequest := http } =
        .next (atHeader m http) := by
    simp [switch, atHeader]
  rw [runText_skip _ idle, addressOf_append, runText_next (feed _),
    addressOf_cons]

/-- The pair of a URI that is written before `rest`. -/
def uriRange (finish : Int) (uri rest : Bytes) : Range where
  start := some (addressOf finish (uri ++ rest))
  stop := some (addressOf finish rest - 1)

theorem rangeText_uriRange {uri : Bytes} (nonempty : uri ≠ [])
    (placed : Placed memory finish (uri ++ rest)) :
    rangeText memory (uriRange finish uri rest) = some uri := by
  have positive := List.length_pos_iff.mpr nonempty
  have place := addressOf_append finish uri rest
  have width :
      (addressOf finish rest - 1 - addressOf finish (uri ++ rest) +
        1).toNat = uri.length := by
    omega
  simp only [rangeText, uriRange, Option.bind_some, Option.map_some, width]
  rw [(placed_append placed).1]

/-- The part of a request behind its URI. -/
def Request.tail (request : Request) (body : Bytes) : Bytes :=
  ascii " HTTP/" ++ request.version ++ crlf ++
    (headerBlock request.headers ++ body)

theorem Request.text_append (request : Request) (body : Bytes) :
    request.text ++ body =
      request.method.text ++ 32 :: (request.uri ++ request.tail body) := by
  have blank : ascii " " = [32] := rfl
  simp [Request.text, Request.tail, blank]

/-- A URI is recorded. -/
theorem runText_recordUri {uri : Bytes} (p : Int)
    (begins : ∃ rest, uri = 47 :: rest)
    (plain : ∀ ch ∈ uri, ch ≠ 32 ∧ ch ≠ 13 ∧ ch ≠ 10 ∧ ch ≠ 0)
    (place : p = addressOf finish (uri ++ 32 :: rest)) :
    ∃ m', runText memory captured p (uri ++ 32 :: rest)
        { state := .spacesBeforeUri, m := m, httprequest := http } =
      runText memory captured (addressOf finish rest) rest
        { state := .http09
          m := m'
          httprequest :=
            { http with uri := uriRange finish uri (32 :: rest) } } := by
  obtain ⟨later, rfl⟩ := begins
  have slash (p : Int) :
      switch memory captured p 47
          { state := .spacesBeforeUri, m := m, httprequest := http } =
        .next
          { state := .uri
            m := p
            httprequest :=
              { http with uri := { http.uri with start := some p } } } := by
    simp [switch]
  obtain ⟨m', read⟩ :=
    @runText_uri memory captured p
      { http with uri := { http.uri with start := some p } }
      (32 :: rest) later (p + 1)
      fun ch member => plain ch (List.mem_cons_of_mem _ member)
  have blank (p : Int) (http : HttpRequestKinfo) :
      switch memory captured p 32
          { state := .uri, m := m', httprequest := http } =
        .next
          { state := .http09
            m := lastTen (p - 1) m'
            httprequest :=
              { http with
                uri := { http.uri with stop := some (p - 1) } } } := by
    simp [switch]
  refine ⟨lastTen (addressOf finish (32 :: rest) - 1) m', ?_⟩
  have ended : p + 1 + later.length = addressOf finish (32 :: rest) := by
    rw [place, List.cons_append, addressOf_cons, addressOf_append]
  rw [List.cons_append, runText_next (slash p), read, ended,
    runText_next (blank _ _), addressOf_cons, uriRange, ← place]

/-- The request line is read. -/
theorem runText_requestText {request : Request}
    (wellFormed : request.WellFormed) (body : Bytes)
    (placed : Placed memory finish (request.text ++ body)) :
    ∃ m', runText memory captured
          (addressOf finish (request.text ++ body)) (request.text ++ body)
          { state := .start, m := m, httprequest := http } =
        runText memory captured
          (addressOf finish (headerBlock request.headers ++ body))
          (headerBlock request.headers ++ body)
          (atHeader m'
            (afterRequestLine http
              (uriRange finish request.uri (request.tail body))
              (request.method.httpType http.httpType))) := by
  rw [request.text_append] at placed ⊢
  obtain ⟨first, method⟩ :=
    @runText_method memory captured finish m http
      (request.uri ++ request.tail body) request.method placed
  have tail :
      request.tail body =
        32 :: 72 :: ((ascii "TTP/" ++ request.version ++ [13]) ++
          10 :: (headerBlock request.headers ++ body)) := by
    have protocol : ascii " HTTP/" = 32 :: 72 :: ascii "TTP/" := rfl
    simp [Request.tail, protocol, crlf]
  have versionPlain :
      ∀ ch ∈ ascii "TTP/" ++ request.version ++ [13], ch ≠ 10 := by
    have letters : ∀ ch ∈ ascii "TTP/", ch ≠ 10 := by
      decide +kernel
    intro ch member
    rcases List.mem_append.mp member with member | isReturn
    · rcases List.mem_append.mp member with letter | inVersion
      · exact letters ch letter
      · exact (wellFormed.version_plain ch inVersion).2.1
    · rw [List.mem_singleton.mp isReturn]
      decide
  rw [method, tail]
  obtain ⟨second, uri⟩ :=
    @runText_recordUri memory captured finish first
      { http with httpType := request.method.httpType http.httpType }
      (72 :: ((ascii "TTP/" ++ request.version ++ [13]) ++
        10 :: (headerBlock request.headers ++ body)))
      request.uri _ wellFormed.uri_begins wellFormed.uri_plain rfl
  have protocol (p : Int) (http : HttpRequestKinfo) :
      switch memory captured p 72
          { state := .http09, m := second, httprequest := http } =
        .next
          { state := .spacesAfterDigit
            m := second
            httprequest := http } := by
    simp [switch]
  refine ⟨second, ?_⟩
  rw [uri, runText_next (protocol _ _), addressOf_cons,
    runText_version versionPlain]
  rfl

end RequestLine

/-! ## The request -/

section Request

variable {memory : Memory} {request : Request}

theorem Request.noNul (wellFormed : request.WellFormed)
    (plain : ∀ line ∈ request.headers, line.Plain) :
    0 ∉ request.text := by
  have method : 0 ∉ request.method.text := by
    cases request.method <;> decide
  have protocol : 0 ∉ ascii " HTTP/" := by decide
  have blank : 0 ∉ ascii " " := by decide
  have separator : 0 ∉ ascii ": " := by decide
  have lineBreak : 0 ∉ crlf := by decide
  have uri : 0 ∉ request.uri :=
    fun member => (wellFormed.uri_plain 0 member).2.2.2 rfl
  have version : 0 ∉ request.version :=
    fun member => (wellFormed.version_plain 0 member).2.2 rfl
  have lines : 0 ∉ request.headers.flatMap HeaderLine.text := by
    intro member
    obtain ⟨line, inHeaders, zero⟩ := List.mem_flatMap.mp member
    have := plain line inHeaders
    simp [HeaderLine.text, this.name_noNul, this.value_noNul, separator,
      lineBreak] at zero
  simp [Request.text, headerBlock, method, protocol, blank, lineBreak, uri,
    version, lines]

/-- A struct records a request: its URI exactly, and for each header the value
of its last line or else what was there before. -/
def Records (memory : Memory) (request : Request)
    (before result : HttpRequestKinfo) : Prop :=
  rangeText memory result.uri = some request.uri ∧
    ∀ header,
      match lastValue header request.headers with
      | some value => rangeText memory (result.header header) = some value
      | none => result.header header = before.header header

/-- The machine over a well-formed request. -/
theorem runText_records {captured finish m : Int} {body : Bytes}
    {http : HttpRequestKinfo} (wellFormed : request.WellFormed)
    (plain : ∀ line ∈ request.headers, line.Plain) (bodyNoNul : 0 ∉ body)
    (placed : Placed memory finish (request.text ++ body)) :
    ∃ result,
      runText memory captured (addressOf finish (request.text ++ body))
          (request.text ++ body)
          { state := .start, m := m, httprequest := http } =
        (0, result) ∧
      Records memory request http result ∧
      result.httpType = request.method.httpType http.httpType := by
  obtain ⟨m', line⟩ :=
    @runText_requestText memory captured finish m http request wellFormed
      body placed
  have ending :
      headerBlock request.headers ++ body <:+ request.text ++ body := by
    rw [Request.text, List.append_assoc]
    exact List.suffix_append _ _
  have noNul : 0 ∉ headerBlock request.headers ++ body := by
    intro member
    rcases List.mem_append.mp (ending.subset member) with front | rest
    · exact request.noNul wellFormed plain front
    · exact bodyNoNul rest
  obtain ⟨postStart, read⟩ :=
    @runText_readHeaders memory captured finish m'
      (headerBlock request.headers ++ body)
      (afterRequestLine http
        (uriRange finish request.uri (request.tail body))
        (request.method.httpType http.httpType))
      (placed.suffix ending) noNul
  rw [readHeaders_headerBlock wellFormed.headers] at read
  refine ⟨_, line.trans read, ⟨?_, ?_⟩, httpType_foldl_record _ _ _⟩
  · obtain ⟨uri, _⟩ :=
      foldl_record_frame captured
        (lineItems finish request.headers (crlf ++ body))
        (afterRequestLine http
          (uriRange finish request.uri (request.tail body))
          (request.method.httpType http.httpType))
    have nonempty : request.uri ≠ [] := by
      obtain ⟨rest, begins⟩ := wellFormed.uri_begins
      simp [begins]
    have behind :
        request.uri ++ request.tail body <:+ request.text ++ body :=
      ⟨request.method.text ++ [32], by simp [request.text_append]⟩
    simp only [uri]
    exact rangeText_uriRange nonempty (placed.suffix behind)
  · intro header
    have lines := placed.suffix ending
    rw [headerBlock, List.append_assoc] at lines
    have last :=
      @lineItems_last request.headers finish (crlf ++ body) memory captured
        header wellFormed.headers plain lines
    have folded :=
      @header_foldl_record captured
        (afterRequestLine http
          (uriRange finish request.uri (request.tail body))
          (request.method.httpType http.httpType))
        (lineItems finish request.headers (crlf ++ body)) header
    cases given : lastValue header request.headers with
    | some value =>
        rw [given] at last
        obtain ⟨item, found, text⟩ := Option.map_eq_some_iff.mp last
        rw [found] at folded
        simp only [folded]
        exact text
    | none =>
        rw [given, Option.map_none, Option.map_eq_none_iff] at last
        rw [last] at folded
        exact folded

/-- Level 2 over a well-formed request. -/
theorem httpParserLevel2_records {hdr : PfringPkthdr}
    {buffer content : Int} {httprequest : HttpRequestKinfo} {body : Bytes}
    (wellFormed : request.WellFormed)
    (plain : ∀ line ∈ request.headers, line.Plain)
    (start : httprequest.content = some content)
    (length : toInt32 httprequest.len.toNat = (request.text ++ body).length)
    (held :
      bytesAt memory content (request.text ++ body).length =
        request.text ++ body) :
    ∃ result,
      httpParserLevel2 memory hdr buffer httprequest = some (0, result) ∧
      Records memory request httprequest result ∧
      result.httpType = request.method.httpType httprequest.httpType := by
  have text :
      contentText memory content (toInt32 httprequest.len.toNat).toNat =
        request.text ++ cString body := by
    have nonzero : ∀ ch ∈ request.text, (ch != 0) = true := by
      intro ch member
      have noNul := request.noNul wellFormed plain
      simp only [bne_iff_ne, ne_eq]
      rintro rfl
      exact noNul member
    rw [length, Int.toNat_natCast, contentText, held, cString,
      List.takeWhile_append_of_pos nonzero, cString]
  have placed := placed_contentText memory content
    (toInt32 httprequest.len.toNat).toNat
  rw [text] at placed
  obtain ⟨result, run, records⟩ :=
    @runText_records memory request (buffer + hdr.caplen.toNat) _ 0
      (cString body) httprequest wellFormed plain (zero_not_mem_cString body)
      placed
  rw [addressOf, Int.add_sub_cancel] at run
  refine ⟨result, ?_, records⟩
  rw [httpParserLevel2, start, Option.map_some, loop_eq_runText, text, run]

/-- A well-formed request is accepted and recorded. -/
theorem wellFormedRequest_recorded {hdr : PfringPkthdr}
    {buffer content : Int} {httprequest : HttpRequestKinfo} {body : Bytes}
    (wellFormed : request.WellFormed)
    (plain : ∀ line ∈ request.headers, line.Plain)
    (start : httprequest.content = some content)
    (length : toInt32 httprequest.len.toNat = (request.text ++ body).length)
    (held :
      bytesAt memory content (request.text ++ body).length =
        request.text ++ body) :
    ∃ result,
      httpParserLevel2 memory hdr buffer httprequest = some (0, result) ∧
      Records memory request httprequest result := by
  obtain ⟨result, run, records, _⟩ :=
    @httpParserLevel2_records memory request hdr buffer content httprequest
      body wellFormed plain start length held
  exact ⟨result, run, records⟩

end Request

/-! ## Sample requests -/

section Sample

variable {headers : List HeaderLine}

def sampleRequest (headers : List HeaderLine) : Request where
  method := .post
  uri := ascii "/s?wd=car"
  version := ascii "1.1"
  headers := headers

theorem sampleRequest_wellFormed
    (lines : ∀ line ∈ headers, line.WellFormed) :
    (sampleRequest headers).WellFormed where
  uri_begins := ⟨_, rfl⟩
  uri_plain :=
    (by decide +kernel : ∀ ch ∈ ascii "/s?wd=car",
      ch ≠ 32 ∧ ch ≠ 13 ∧ ch ≠ 10 ∧ ch ≠ 0)
  version_plain :=
    (by decide +kernel : ∀ ch ∈ ascii "1.1", ch ≠ 13 ∧ ch ≠ 10 ∧ ch ≠ 0)
  headers := lines

/-- Memory that holds a request and a body at the address zero. -/
def sampleMemory (headers : List HeaderLine) : Memory :=
  packetMemory ((sampleRequest headers).text ++ ascii "x=1")

/-- A struct that level 1 could leave for this memory. -/
def sampleKinfo (headers : List HeaderLine) : HttpRequestKinfo :=
  { previousKinfo Range.unset with
    content := some 0
    len := ((sampleRequest headers).text ++ ascii "x=1").length.toUInt32 }

/-- The parser over this memory. -/
def sampleRun (headers : List HeaderLine) :
    Option (Int × HttpRequestKinfo) :=
  httpParserLevel2 (sampleMemory headers)
    (packetHdr ((sampleRequest headers).text ++ ascii "x=1")) 0
    (sampleKinfo headers)

/-- The sample request is accepted and recorded. -/
def SampleRecorded (headers : List HeaderLine) : Prop :=
  ∃ result, sampleRun headers = some (0, result) ∧
    Records (sampleMemory headers) (sampleRequest headers)
      (sampleKinfo headers) result

/-- Two lines with the same name around another one. -/
def repeatedHeaders : List HeaderLine :=
  [⟨ascii "Host", ascii "a.com"⟩, ⟨ascii "X-Id", ascii "7"⟩,
    ⟨ascii "Host", ascii "b.com"⟩]

/-- Names of other lengths are not near misses. -/
theorem not_nearMiss_of_length {name : Bytes}
    (length : name.length ≠ 7 ∧ name.length ≠ 10 ∧ name.length ≠ 14)
    (short : name.length = 4 → name.take 5 = name) : ¬ NearMiss name := by
  rintro ⟨header, noCookie, same, start, other⟩
  cases header with
  | host => exact other ((short same).symm.trans start)
  | cookie => exact noCookie rfl
  | userAgent => exact length.2.1 same
  | referer => exact length.1 same
  | contentLength => exact length.2.2 same

theorem repeatedHeaders_lines :
    ∀ line ∈ repeatedHeaders, line.WellFormed ∧ line.Plain := by
  intro line member
  simp only [repeatedHeaders, List.mem_cons, List.not_mem_nil,
    or_false] at member
  rcases member with rfl | rfl | rfl <;>
    exact
      ⟨⟨by decide, by decide +kernel, by decide +kernel, _, _, rfl,
          by decide, by decide⟩,
        by decide, by decide,
        not_nearMiss_of_length (by decide) (by decide)⟩

theorem wellFormedRequest_recorded_sample :
    SampleRecorded repeatedHeaders :=
  @wellFormedRequest_recorded (sampleMemory repeatedHeaders)
    (sampleRequest repeatedHeaders)
    (packetHdr ((sampleRequest repeatedHeaders).text ++ ascii "x=1")) 0 0
    (sampleKinfo repeatedHeaders) (ascii "x=1")
    (sampleRequest_wellFormed fun line member =>
      (repeatedHeaders_lines line member).1)
    (fun line member => (repeatedHeaders_lines line member).2) rfl
    (by decide +kernel) (by decide +kernel)

/-- A header whose text differs from that of its last line. -/
theorem not_sampleRecorded {header : Header} {seen : Option Bytes}
    (left :
      (sampleRun headers).map (fun result =>
        rangeText (sampleMemory headers) (result.2.header header)) =
          some seen)
    (other : lastValue header headers ≠ seen) :
    ¬ SampleRecorded headers := by
  rintro ⟨result, run, _, records⟩
  rw [run, Option.map_some, Option.some.injEq] at left
  have recorded := records header
  cases given : lastValue header (sampleRequest headers).headers with
  | some value =>
      rw [given] at recorded
      refine other ?_
      rw [← left]
      exact given.trans recorded.symm
  | none =>
      rw [given] at recorded
      refine other ?_
      rw [← left, recorded]
      refine given.trans ?_
      cases header <;> rfl

/-- A name that only resembles `Referer`. -/
def nearHeaders : List HeaderLine :=
  [⟨ascii "Refer-X", ascii "y"⟩]

/-- A zero byte before the line of the host. -/
def nulHeaders : List HeaderLine :=
  [⟨ascii "X-Id", [0]⟩, ⟨ascii "Host", ascii "a.com"⟩]

/-- The first is recorded as a referer, and behind the second no host is
found. -/
theorem wellFormedRequest_misread :
    ((sampleRequest nearHeaders).WellFormed ∧
      ¬ SampleRecorded nearHeaders) ∧
    (sampleRequest nulHeaders).WellFormed ∧
      ¬ SampleRecorded nulHeaders := by
  refine ⟨⟨sampleRequest_wellFormed ?_, ?_⟩, sampleRequest_wellFormed ?_, ?_⟩
  · intro line member
    rw [nearHeaders, List.mem_singleton] at member
    subst member
    exact ⟨by decide, by decide +kernel, by decide +kernel, _, _, rfl,
      by decide, by decide⟩
  · exact @not_sampleRecorded _ .referer (some (ascii "y"))
      (by decide +kernel) (by decide)
  · intro line member
    simp only [nulHeaders, List.mem_cons, List.not_mem_nil,
      or_false] at member
    rcases member with rfl | rfl <;>
      exact ⟨by decide, by decide +kernel, by decide +kernel, _, _, rfl,
        by decide, by decide⟩
  · exact @not_sampleRecorded _ .host none (by decide +kernel) (by decide)

end Sample

end WindowSystem.Client.WellFormedRequest
