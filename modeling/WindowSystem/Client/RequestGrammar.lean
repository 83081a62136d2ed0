import WindowSystem.Client.PktParser
import WindowSystem.Library.Substring

/-!
# What the request machine reads

The machine of `http_parser_level_2` is described here as a reader of texts:
after the request line come headers, and a header whose name is one of the
five contributes the part of its line up to the last carriage return.
-/

namespace WindowSystem.Client.RequestGrammar

open WindowSystem.CRuntime
open WindowSystem.Client.PktParser
open WindowSystem.Library

/-! ## The loop over a text -/

/-- The loop over the bytes that it has not met yet. -/
def runText (memory : Memory) (captured : Int) :
    Int → Bytes → Machine → Int × HttpRequestKinfo
  | _, [], machine => (0, machine.httprequest)
  | p, ch :: text, machine =>
      match switch memory captured p ch machine with
      | .next machine => runText memory captured (p + 1) text machine
      | .requestDone httprequest => (0, httprequest)
      | .error code httprequest => (code, httprequest)

/-- The bytes up to the length or the first zero byte. -/
def contentText (memory : Memory) (content : Int) (len : Nat) : Bytes :=
  cString (bytesAt memory content len)

theorem loop_eq_runText (memory : Memory) (captured : Int) (count : Nat)
    (p : Int) (machine : Machine) :
    loop memory captured count p machine =
      runText memory captured p (contentText memory p count) machine := by
  induction count generalizing p machine with
  | zero => rfl
  | succ count induction =>
      rw [loop, contentText, bytesAt, cString]
      by_cases zero : memory p = 0
      · simp [zero, runText]
      · rw [if_neg zero, List.takeWhile_cons_of_pos (by simpa using zero),
          runText]
        cases switch memory captured p (memory p) machine with
        | next machine => exact induction (p + 1) machine
        | requestDone httprequest => rfl
        | error code httprequest => rfl

/-- The address of a text that ends at the address `finish`. -/
def addressOf (finish : Int) (text : Bytes) : Int :=
  finish - text.length

theorem addressOf_cons (finish : Int) (ch : UInt8) (text : Bytes) :
    addressOf finish (ch :: text) + 1 = addressOf finish text := by
  simp only [addressOf, List.length_cons, Nat.cast_succ]
  omega

theorem addressOf_append (finish : Int) (front rest : Bytes) :
    addressOf finish (front ++ rest) + front.length =
      addressOf finish rest := by
  simp only [addressOf, List.length_append, Nat.cast_add]
  omega

/-- The text stands in memory so that it ends at `finish`. -/
def Placed (memory : Memory) (finish : Int) (text : Bytes) : Prop :=
  bytesAt memory (addressOf finish text) text.length = text

section Placed

variable {memory : Memory} {finish : Int}

theorem placed_append {front rest : Bytes}
    (placed : Placed memory finish (front ++ rest)) :
    bytesAt memory (addressOf finish (front ++ rest)) front.length =
        front ∧
      Placed memory finish rest := by
  rw [Placed, List.length_append, bytesAt_add, addressOf_append] at placed
  exact List.append_inj placed (length_bytesAt _ _ _)

theorem Placed.suffix {text rest : Bytes} (placed : Placed memory finish text)
    (ending : rest <:+ text) : Placed memory finish rest := by
  obtain ⟨front, rfl⟩ := ending
  exact (placed_append placed).2

theorem bytesAt_of_prefix {text : Bytes} {address : Int} {count : Nat}
    (front : text <+: bytesAt memory address count) :
    bytesAt memory address text.length = text := by
  obtain ⟨rest, whole⟩ := front
  have lengths := congrArg List.length whole
  rw [List.length_append, length_bytesAt] at lengths
  rw [← lengths, bytesAt_add] at whole
  exact (List.append_inj whole.symm (length_bytesAt _ _ _)).1

theorem placed_contentText (memory : Memory) (content : Int) (len : Nat) :
    Placed memory
      (content + (contentText memory content len).length)
      (contentText memory content len) := by
  rw [Placed, addressOf, Int.add_sub_cancel]
  exact bytesAt_of_prefix (List.takeWhile_prefix _)

end Placed

section Segments

variable {memory : Memory} {captured p : Int} {machine : Machine}

theorem runText_next {ch : UInt8} {after : Machine}
    (turn : switch memory captured p ch machine = .next after)
    (text : Bytes) :
    runText memory captured p (ch :: text) machine =
      runText memory captured (p + 1) text after := by
  rw [runText, turn]

/-- Bytes that leave the machine as it is are skipped. -/
theorem runText_skip {front : Bytes} (rest : Bytes)
    (idle : ∀ ch ∈ front, ∀ p,
      switch memory captured p ch machine = .next machine) :
    runText memory captured p (front ++ rest) machine =
      runText memory captured (p + front.length) rest machine := by
  induction front generalizing p with
  | nil => simp
  | cons ch front induction =>
      rw [List.cons_append, runText_next (idle ch List.mem_cons_self p),
        induction fun other member =>
          idle other (List.mem_cons_of_mem _ member),
        List.length_cons, Nat.cast_succ, Int.add_assoc, Int.add_comm 1]

/-- The machine goes to the first byte without a property when it is idle on
the bytes that have it. -/
theorem runText_skipWhile {property : UInt8 → Bool} (finish : Int)
    (text : Bytes)
    (idle : ∀ ch ∈ text, property ch = true → ∀ p,
      switch memory captured p ch machine = .next machine) :
    runText memory captured (addressOf finish text) text machine =
      runText memory captured (addressOf finish (text.dropWhile property))
        (text.dropWhile property) machine := by
  have whole := List.takeWhile_append_dropWhile
    (p := property) (l := text)
  have front : ∀ ch ∈ text.takeWhile property, ∀ p,
      switch memory captured p ch machine = .next machine :=
    fun ch member => idle ch (List.takeWhile_subset _ member)
      (List.mem_takeWhile_imp member)
  calc
    runText memory captured (addressOf finish text) text machine =
        runText memory captured
          (addressOf finish
            (text.takeWhile property ++ text.dropWhile property))
          (text.takeWhile property ++ text.dropWhile property) machine := by
      rw [whole]
    _ = _ := by rw [runText_skip _ front, addressOf_append]

end Segments

/-! ## Headers -/

/-- Whether a byte ends a name. -/
def isSeparator (ch : UInt8) : Bool :=
  ch == 32 || ch == 58

/-- The offset of the last carriage return of a text. -/
def lastReturn : Bytes → Option Nat
  | [] => none
  | ch :: line =>
      match lastReturn line with
      | some offset => some (offset + 1)
      | none => if ch = 13 then some 0 else none

/--
A header whose name is one of the five: the address behind the separator of
its name, the address of its value, and what follows the first byte of the
value on its line.
-/
structure HeaderItem where
  header : Header
  opened : Int
  valueStart : Int
  line : Bytes

/-- What the machine does at the separator of a name. -/
def openHeader (captured opened : Int) (header : Header)
    (http : HttpRequestKinfo) : HttpRequestKinfo :=
  match header with
  | .cookie =>
      { http.setHeader .cookie
          { start := some opened, stop := some captured } with
        headerState := some .cookie }
  | header => { http with headerState := some header }

/-- What the machine does from the address `p` on to the end of the line of
a value that starts at `m`. -/
def closeHeader (m p : Int) (header : Header) (line : Bytes)
    (http : HttpRequestKinfo) : HttpRequestKinfo :=
  match lastReturn line with
  | some offset =>
      http.setHeader header
        { start := some m, stop := some (p + offset - 1) }
  | none => http

/-- What a header leaves in the struct. -/
def HeaderItem.record (captured : Int) (http : HttpRequestKinfo)
    (item : HeaderItem) : HttpRequestKinfo :=
  closeHeader item.valueStart (item.valueStart + 1) item.header item.line
    (openHeader captured item.opened item.header http)

/-- The text after the next line feed. -/
def afterLine (text : Bytes) : Bytes :=
  (text.dropWhile (· != 10)).tail

/-- The next thing that is read at the start of a header line. -/
inductive NextHeader where
  | finished (code : Int)
  | more (item : Option HeaderItem) (rest : Bytes)

/-- The result at a carriage return where a header is expected. -/
def closingCode (text : Bytes) : Int :=
  match text.dropWhile (· == 13) with
  | [] => 0
  | ch :: _ => if ch = 10 then 0 else 25

/-- The header with a known name whose separator stands before `body`. -/
def readValue (finish : Int) (header : Header) (body : Bytes) :
    HeaderItem :=
  let value := body.dropWhile isSeparator
  { header := header
    opened := addressOf finish body
    valueStart := addressOf finish value
    line := value.tail.takeWhile (· != 10) }

/-- A header line that begins with `ch`; a name ends at the first separator
after its first byte, also when line feeds come before that. -/
def readName (finish : Int) (ch : UInt8) (text : Bytes) : NextHeader :=
  match text.dropWhile fun ch => !isSeparator ch with
  | [] => .finished 0
  | _ :: body =>
      match headerOf (ch :: text.takeWhile fun ch => !isSeparator ch) with
      | none => .more none (afterLine body)
      | some header =>
          .more (some (readValue finish header body))
            (afterLine (body.dropWhile isSeparator).tail)

/-- One step of reading; the text ends at the address `finish`. -/
def nextHeader (finish : Int) (text : Bytes) : NextHeader :=
  match text.dropWhile (· == 32) with
  | [] => .finished 0
  | ch :: text =>
      if ch = 13 then .finished (closingCode text)
      else if ch = 10 then .finished 0
      else readName finish ch text

theorem suffix_of_readName {finish : Int} {ch : UInt8} {text rest : Bytes}
    {item : Option HeaderItem}
    (found : readName finish ch text = .more item rest) :
    rest <:+ text := by
  have afterLine_suffix (text : Bytes) : afterLine text <:+ text :=
    (List.tail_suffix _).trans (List.dropWhile_suffix _)
  have named :=
    List.dropWhile_suffix (fun ch => !isSeparator ch) (l := text)
  rw [readName] at found
  split at found
  · cases found
  rename_i separator body ended
  rw [ended] at named
  have inside : body <:+ text := (List.suffix_cons separator body).trans named
  split at found
  · cases found
    exact (afterLine_suffix body).trans inside
  · cases found
    exact (((afterLine_suffix _).trans (List.tail_suffix _)).trans
      (List.dropWhile_suffix _)).trans inside

/-- What is left after a step is a proper end of the text. -/
theorem suffix_of_nextHeader {finish : Int} {text rest : Bytes}
    {item : Option HeaderItem}
    (found : nextHeader finish text = .more item rest) :
    rest <:+ text ∧ rest.length < text.length := by
  have blanks := List.dropWhile_suffix (· == 32) (l := text)
  rw [nextHeader] at found
  split at found
  · cases found
  rename_i ch later lineStart
  rw [lineStart] at blanks
  split at found
  · cases found
  split at found
  · cases found
  have named := suffix_of_readName found
  have shorter := blanks.length_le
  have tail := named.length_le
  rw [List.length_cons] at shorter
  exact ⟨(named.trans (List.suffix_cons ch later)).trans blanks, by omega⟩

/-- All headers of a text that ends at `finish`, with the result of the
parser. -/
def readHeaders (finish : Int) (text : Bytes) : Int × List HeaderItem :=
  match _found : nextHeader finish text with
  | .finished code => (code, [])
  | .more item rest =>
      let later := readHeaders finish rest
      (later.1, item.toList ++ later.2)
termination_by text.length
decreasing_by exact (suffix_of_nextHeader _found).2

/-! ## The machine reads headers -/

section Reading

variable {memory : Memory} {captured finish m : Int} {text : Bytes}
  {http : HttpRequestKinfo}

/-- The machine at the start of a header line. -/
def atHeader (m : Int) (http : HttpRequestKinfo) : Machine where
  state := .headStart
  m := m
  httprequest := http

/-- At the end of a line the machine expects a header. -/
theorem runText_lineEnd {state : State}
    (feed : ∀ p,
      switch memory captured p 10
          { state := state, m := m, httprequest := http } =
        .next (atHeader m http))
    (text : Bytes) :
    runText memory captured (addressOf finish (text.dropWhile (· != 10)))
        (text.dropWhile (· != 10))
        { state := state, m := m, httprequest := http } =
      runText memory captured (addressOf finish (afterLine text))
        (afterLine text) (atHeader m http) := by
  rw [afterLine]
  rcases Substring.span_cases (· != 10) text with
    ending | ⟨ch, rest, ending, stopped⟩
  · rw [ending]
    rfl
  · obtain rfl : ch = 10 := by simpa using stopped
    rw [ending, runText_next (feed _), addressOf_cons, List.tail_cons]

/-- A line whose header is not recorded. -/
theorem runText_otherLine (noNul : 0 ∉ text) :
    runText memory captured (addressOf finish text) text
        { state := .spaceAfterValue, m := m, httprequest := http } =
      runText memory captured (addressOf finish (afterLine text))
        (afterLine text) (atHeader m http) := by
  rw [@runText_skipWhile _ _ _ (· != 10) finish text ?_,
    runText_lineEnd (by simp [switch, atHeader])]
  intro ch member other p
  have nonzero : ch ≠ 0 := fun zero => noNul (zero ▸ member)
  have noFeed : ch ≠ 10 := by simpa using other
  simp [switch, nonzero, noFeed]

@[simp]
theorem setHeader_setHeader (header : Header) (first second : Range) :
    (http.setHeader header first).setHeader header second =
      http.setHeader header second := by
  simp [HttpRequestKinfo.setHeader]

theorem closeHeader_return (p : Int) (header : Header) (line : Bytes) :
    closeHeader m p header (13 :: line) http =
      closeHeader m (p + 1) header line
        (http.setHeader header
          { start := some m, stop := some (p - 1) }) := by
  simp only [closeHeader, lastReturn]
  cases lastReturn line with
  | none => simp
  | some offset =>
      have stop : p + ((offset + 1 : Nat) : Int) - 1 = p + 1 + offset - 1 := by
        omega
      simp only [setHeader_setHeader, stop]

theorem closeHeader_other {ch : UInt8} (p : Int) (header : Header)
    (line : Bytes) (other : ch ≠ 13) :
    closeHeader m p header (ch :: line) http =
      closeHeader m (p + 1) header line http := by
  simp only [closeHeader, lastReturn, if_neg other]
  cases lastReturn line with
  | none => rfl
  | some offset =>
      have stop : p + ((offset + 1 : Nat) : Int) - 1 = p + 1 + offset - 1 := by
        omega
      simp only [stop]

/-- The part of a value on its line. -/
theorem runText_line {header : Header} {line : Bytes} (rest : Bytes)
    (p : Int) (known : http.headerState = some header)
    (oneLine : 10 ∉ line) (noNul : 0 ∉ line) :
    runText memory captured p (line ++ rest)
        { state := .value, m := m, httprequest := http } =
      runText memory captured (p + line.length) rest
        { state := .value
          m := m
          httprequest := closeHeader m p header line http } := by
  induction line generalizing p http with
  | nil => simp [closeHeader, lastReturn]
  | cons ch line induction =>
      have later : p + 1 + line.length = p + (ch :: line).length := by
        rw [List.length_cons, Nat.cast_succ]
        omega
      simp only [List.mem_cons, not_or] at oneLine noNul
      rw [List.cons_append, ← later]
      by_cases isReturn : ch = 13
      · subst isReturn
        have turn :
            switch memory captured p 13
                { state := .value, m := m, httprequest := http } =
              .next
                { state := .value
                  m := m
                  httprequest :=
                    http.setHeader header
                      { start := some m, stop := some (p - 1) } } := by
          simp [switch, known]
        have stillKnown :
            (http.setHeader header
              { start := some m, stop := some (p - 1) }).headerState =
                some header :=
          known
        rw [runText_next turn, induction _ stillKnown oneLine.2 noNul.2,
          closeHeader_return]
      · have turn :
            switch memory captured p ch
                { state := .value, m := m, httprequest := http } =
              .next
                { state := .value, m := m, httprequest := http } := by
          simp [switch, isReturn, Ne.symm oneLine.1, Ne.symm noNul.1]
        rw [runText_next turn, induction _ known oneLine.2 noNul.2,
          closeHeader_other p header line isReturn]

/-- The rest of a line behind the first byte of a value. -/
theorem runText_value {header : Header}
    (known : http.headerState = some header) (noNul : 0 ∉ text) :
    runText memory captured (addressOf finish text) text
        { state := .value, m := m, httprequest := http } =
      runText memory captured (addressOf finish (afterLine text))
        (afterLine text)
        (atHeader m
          (closeHeader m (addressOf finish text) header
            (text.takeWhile (· != 10)) http)) := by
  have whole := List.takeWhile_append_dropWhile
    (p := (· != 10)) (l := text)
  have oneLine : 10 ∉ text.takeWhile (· != 10) := by
    intro member
    simpa using List.mem_takeWhile_imp member
  have lineNoNul : 0 ∉ text.takeWhile (· != 10) :=
    fun member => noNul (List.takeWhile_subset _ member)
  calc
    runText memory captured (addressOf finish text) text
          { state := .value, m := m, httprequest := http } =
        runText memory captured (addressOf finish text)
          (text.takeWhile (· != 10) ++ text.dropWhile (· != 10))
          { state := .value, m := m, httprequest := http } := by
      rw [whole]
    _ = runText memory captured
          (addressOf finish (text.dropWhile (· != 10)))
          (text.dropWhile (· != 10))
          { state := .value
            m := m
            httprequest :=
              closeHeader m (addressOf finish text) header
                (text.takeWhile (· != 10)) http } := by
      have later :=
        addressOf_append finish (text.takeWhile (· != 10))
          (text.dropWhile (· != 10))
      rw [whole] at later
      rw [runText_line _ _ known oneLine lineNoNul, later]
    _ = _ := runText_lineEnd (by simp [switch, atHeader]) text

theorem headerState_openHeader (captured opened : Int) (header : Header)
    (http : HttpRequestKinfo) :
    (openHeader captured opened header http).headerState = some header := by
  cases header <;> rfl

/-- A line whose header is recorded, from behind the separator on. -/
theorem runText_readValue {header : Header}
    (known : http.headerState = some header) (noNul : 0 ∉ text) :
    ∃ m', runText memory captured (addressOf finish text) text
        { state := .spaceBeforeValue, m := m, httprequest := http } =
      runText memory captured
        (addressOf finish (afterLine (text.dropWhile isSeparator).tail))
        (afterLine (text.dropWhile isSeparator).tail)
        (atHeader m'
          (closeHeader (readValue finish header text).valueStart
            ((readValue finish header text).valueStart + 1) header
            (readValue finish header text).line http)) := by
  have idle : ∀ ch ∈ text, isSeparator ch = true → ∀ p,
      switch memory captured p ch
          { state := .spaceBeforeValue, m := m, httprequest := http } =
        .next
          { state := .spaceBeforeValue, m := m, httprequest := http } := by
    intro ch _ separator p
    simp only [isSeparator, Bool.or_eq_true, beq_iff_eq] at separator
    rcases separator with rfl | rfl <;> simp [switch]
  rw [runText_skipWhile finish text idle]
  simp only [readValue]
  have subset := List.dropWhile_subset (l := text) isSeparator
  rcases Substring.span_cases isSeparator text with
    ending | ⟨ch, rest, ending, stopped⟩
  · refine ⟨m, ?_⟩
    rw [ending]
    rfl
  · refine ⟨addressOf finish (ch :: rest), ?_⟩
    rw [ending] at subset ⊢
    simp only [isSeparator, Bool.or_eq_false_iff, beq_eq_false_iff_ne]
      at stopped
    have turn (p : Int) :
        switch memory captured p ch
            { state := .spaceBeforeValue, m := m, httprequest := http } =
          .next { state := .value, m := p, httprequest := http } := by
      simp [switch, stopped.1, stopped.2]
    have restNoNul : 0 ∉ rest :=
      fun member => noNul (subset (List.mem_cons_of_mem _ member))
    rw [runText_next (turn _), addressOf_cons, List.tail_cons,
      runText_value known restNoNul]

/-- The end of a request after a carriage return. -/
theorem runText_closing :
    ∃ postStart,
      runText memory captured (addressOf finish text) text
          { state := .almostDone, m := m, httprequest := http } =
        (closingCode text, { http with postStart := postStart }) := by
  have idle : ∀ ch ∈ text, (ch == 13) = true → ∀ p,
      switch memory captured p ch
          { state := .almostDone, m := m, httprequest := http } =
        .next { state := .almostDone, m := m, httprequest := http } := by
    intro ch _ isReturn p
    obtain rfl := beq_iff_eq.mp isReturn
    simp [switch]
  rw [runText_skipWhile finish text idle, closingCode]
  rcases Substring.span_cases (· == 13) text with
    ending | ⟨ch, rest, ending, stopped⟩
  · rw [ending]
    exact ⟨http.postStart, rfl⟩
  · have other : ch ≠ 13 := by simpa using stopped
    rw [ending, runText]
    by_cases feed : ch = 10
    · simp [switch, feed]
    · simp only [switch, feed, other, if_false]
      exact ⟨http.postStart, rfl⟩

/-- The separator of a name. -/
theorem switch_separator {ch : UInt8} {name : Bytes} {p : Int}
    (separator : isSeparator ch = true)
    (named : bytesAt memory m name.length = name)
    (place : p = m + name.length) :
    switch memory captured p ch
        { state := .name, m := m, httprequest := http } =
      match headerOf name with
      | none =>
          .next { state := .spaceAfterValue, m := m, httprequest := http }
      | some header =>
          .next
            { state := .spaceBeforeValue
              m := m
              httprequest := openHeader captured (p + 1) header http } := by
  have length : (p - m).toNat = name.length := by omega
  simp only [isSeparator, Bool.or_eq_true, beq_iff_eq] at separator
  simp only [switch, if_pos separator, switchName, length, named]
  cases headerOf name with
  | none => rfl
  | some header => cases header <;> rfl

/-- What a step of reading says about the machine. -/
def NextHeader.Describes (memory : Memory) (captured finish : Int)
    (text : Bytes) (machine : Machine) : NextHeader → Prop
  | .finished code =>
      ∃ postStart,
        runText memory captured (addressOf finish text) text machine =
          (code, { machine.httprequest with postStart := postStart })
  | .more item rest =>
      ∃ m', runText memory captured (addressOf finish text) text machine =
        runText memory captured (addressOf finish rest) rest
          (atHeader m'
            (item.toList.foldl (HeaderItem.record captured)
              machine.httprequest))

theorem NextHeader.Describes.of_run {later : Bytes}
    {machine after : Machine} {found : NextHeader}
    (described : found.Describes memory captured finish later after)
    (same : machine.httprequest = after.httprequest)
    (run :
      runText memory captured (addressOf finish text) text machine =
        runText memory captured (addressOf finish later) later after) :
    found.Describes memory captured finish text machine := by
  cases found with
  | finished code =>
      obtain ⟨postStart, described⟩ := described
      exact ⟨postStart, by rw [run, described, same]⟩
  | more item rest =>
      obtain ⟨m', described⟩ := described
      exact ⟨m', by rw [run, described, same]⟩

/-- The machine in a name. -/
theorem readName_describes {ch : UInt8}
    (placed : Placed memory finish (ch :: text)) (noNul : 0 ∉ text) :
    (readName finish ch text).Describes memory captured finish text
      { state := .name
        m := addressOf finish (ch :: text)
        httprequest := http } := by
  have idle : ∀ other ∈ text, (!isSeparator other) = true → ∀ p,
      switch memory captured p other
          { state := .name
            m := addressOf finish (ch :: text)
            httprequest := http } =
        .next
          { state := .name
            m := addressOf finish (ch :: text)
            httprequest := http } := by
    intro other _ inName p
    simp only [isSeparator, Bool.not_eq_true', Bool.or_eq_false_iff,
      beq_eq_false_iff_ne] at inName
    simp [switch, inName.1, inName.2]
  have run := runText_skipWhile finish text idle
  have whole := List.takeWhile_append_dropWhile
    (p := fun ch => !isSeparator ch) (l := text)
  have subset := List.dropWhile_subset (l := text)
    fun ch => !isSeparator ch
  rw [readName]
  rcases Substring.span_cases (fun ch => !isSeparator ch) text with
    ending | ⟨separator, body, ending, stopped⟩
  · rw [ending] at run ⊢
    exact ⟨http.postStart, run⟩
  · rw [ending] at run subset whole ⊢
    have bodyNoNul : 0 ∉ body :=
      fun member => noNul (subset (List.mem_cons_of_mem _ member))
    have named := placed
    rw [← whole, ← List.cons_append] at named
    have place := addressOf_append finish
      (ch :: text.takeWhile fun ch => !isSeparator ch) (separator :: body)
    rw [List.cons_append, whole] at place
    have turn :=
      @switch_separator memory captured (addressOf finish (ch :: text)) http
        separator (ch :: text.takeWhile fun ch => !isSeparator ch)
        (addressOf finish (separator :: body)) (by simpa using stopped)
        (by
          have := (placed_append named).1
          rwa [List.cons_append, whole] at this)
        place.symm
    dsimp only
    cases known : headerOf
        (ch :: text.takeWhile fun ch => !isSeparator ch) with
    | none =>
        rw [known] at turn
        refine ⟨addressOf finish (ch :: text), ?_⟩
        rw [run, runText_next turn, addressOf_cons,
          runText_otherLine bodyNoNul]
        rfl
    | some header =>
        rw [known] at turn
        obtain ⟨m', read⟩ :=
          @runText_readValue memory captured finish
            (addressOf finish (ch :: text)) body
            (openHeader captured (addressOf finish body) header http) header
            (headerState_openHeader _ _ _ _) bodyNoNul
        refine ⟨m', ?_⟩
        rw [run, runText_next turn, addressOf_cons, read]
        rfl

/-- The machine and the reader agree on one header line. -/
theorem nextHeader_describes (placed : Placed memory finish text)
    (noNul : 0 ∉ text) :
    (nextHeader finish text).Describes memory captured finish text
      (atHeader m http) := by
  have idle : ∀ ch ∈ text, (ch == 32) = true → ∀ p,
      switch memory captured p ch (atHeader m http) =
        .next (atHeader m http) := by
    intro ch _ blank p
    obtain rfl := beq_iff_eq.mp blank
    simp [switch, atHeader]
  have run := runText_skipWhile finish text idle
  have ends := List.dropWhile_suffix (l := text) (· == 32)
  rw [nextHeader]
  rcases Substring.span_cases (· == 32) text with
    ending | ⟨ch, later, ending, stopped⟩
  · rw [ending] at run ⊢
    exact ⟨http.postStart, run⟩
  · rw [ending] at run ends ⊢
    have noBlank : ch ≠ 32 := by simpa using stopped
    have nonzero : ch ≠ 0 := by
      rintro rfl
      exact noNul (ends.subset List.mem_cons_self)
    have laterNoNul : 0 ∉ later :=
      fun member => noNul (ends.subset (List.mem_cons_of_mem _ member))
    dsimp only
    split
    · rename_i isReturn
      have turn (p : Int) :
          switch memory captured p ch (atHeader m http) =
            .next { state := .almostDone, m := m, httprequest := http } := by
        simp [switch, atHeader, isReturn]
      obtain ⟨postStart, closed⟩ :=
        @runText_closing memory captured finish m later http
      refine ⟨postStart, ?_⟩
      rw [run, runText_next (turn _), addressOf_cons, closed]
      rfl
    split
    · rename_i feed
      refine ⟨some (addressOf finish (ch :: later) + 1), ?_⟩
      rw [run, runText]
      simp [switch, atHeader, feed]
    · rename_i noReturn noFeed
      have turn (p : Int) :
          switch memory captured p ch (atHeader m http) =
            .next { state := .name, m := p, httprequest := http } := by
        simp [switch, atHeader, noBlank, noReturn, noFeed, nonzero]
      have described :=
        @readName_describes memory captured finish later http ch
          (placed.suffix ends) laterNoNul
      refine described.of_run rfl ?_
      rw [run, runText_next (turn _), addressOf_cons]

/-- The machine and the reader agree on all headers. -/
theorem runText_readHeaders (placed : Placed memory finish text)
    (noNul : 0 ∉ text) :
    ∃ postStart,
      runText memory captured (addressOf finish text) text
          (atHeader m http) =
        ((readHeaders finish text).1,
          { (readHeaders finish text).2.foldl (HeaderItem.record captured)
              http with
            postStart := postStart }) := by
  induction text using readHeaders.induct finish generalizing m http with
  | case1 text code found =>
      have described :=
        @nextHeader_describes memory captured finish m text http placed noNul
      rw [found] at described
      rw [readHeaders, found]
      exact described
  | case2 text item rest found induction =>
      have described :=
        @nextHeader_describes memory captured finish m text http placed noNul
      rw [found] at described
      obtain ⟨m', described⟩ := described
      have ending := (suffix_of_nextHeader found).1
      obtain ⟨postStart, read⟩ :=
        @induction m'
          (item.toList.foldl (HeaderItem.record captured) http)
          (placed.suffix ending)
          (fun member => noNul (ending.subset member))
      refine ⟨postStart, ?_⟩
      rw [described, readHeaders, found]
      simp only [List.foldl_append]
      exact read

end Reading

/-! ## What the headers leave behind -/

/-- Whether a header sets its pair: a cookie does so already with its name,
the others with a carriage return in their value. -/
def HeaderItem.sets (item : HeaderItem) (header : Header) : Bool :=
  item.header = header &&
    (header = .cookie || (lastReturn item.line).isSome)

/-- The pair that a header leaves. -/
def HeaderItem.range (captured : Int) (item : HeaderItem) : Range :=
  match lastReturn item.line with
  | some offset =>
      { start := some item.valueStart
        stop := some (item.valueStart + offset) }
  | none => { start := some item.opened, stop := some captured }

section Recorded

variable {captured : Int} {http : HttpRequestKinfo}

theorem header_openHeader (opened : Int) (known header : Header) :
    (openHeader captured opened known http).header header =
      if known = .cookie ∧ header = .cookie then
        { start := some opened, stop := some captured }
      else http.header header := by
  cases known <;> cases header <;>
    simp [openHeader, HttpRequestKinfo.setHeader]

theorem header_record (item : HeaderItem) (header : Header) :
    (item.record captured http).header header =
      if item.sets header then item.range captured
      else http.header header := by
  rw [HeaderItem.record, closeHeader, HeaderItem.range, HeaderItem.sets]
  cases lastReturn item.line with
  | none =>
      rw [header_openHeader]
      by_cases same : item.header = header
      · subst same
        simp
      · have other : ¬ (item.header = .cookie ∧ header = .cookie) := by
          rintro ⟨named, rfl⟩
          exact same named
        simp [same, other]
  | some offset =>
      have stop :
          item.valueStart + 1 + (offset : Int) - 1 =
            item.valueStart + offset := by
        omega
      simp only [HttpRequestKinfo.setHeader, stop]
      by_cases same : item.header = header
      · subst same
        simp
      · have other : ¬ (item.header = .cookie ∧ header = .cookie) := by
          rintro ⟨named, rfl⟩
          exact same named
        rw [Function.update_of_ne (Ne.symm same), header_openHeader,
          if_neg other]
        simp [same]

/-- The last header that sets a pair determines it. -/
theorem header_foldl_record (items : List HeaderItem) (header : Header) :
    (items.foldl (HeaderItem.record captured) http).header header =
      match (items.filter (·.sets header)).getLast? with
      | none => http.header header
      | some item => item.range captured := by
  induction items using List.reverseRecOn with
  | nil => rfl
  | append_singleton items item induction =>
      rw [List.foldl_concat, header_record, List.filter_append]
      by_cases sets : item.sets header
      · simp [sets]
      · simp [sets, induction]

/-- Headers change neither the URI nor the payload. -/
theorem foldl_record_frame (captured : Int) (items : List HeaderItem)
    (http : HttpRequestKinfo) :
    (items.foldl (HeaderItem.record captured) http).uri = http.uri ∧
      (items.foldl (HeaderItem.record captured) http).content =
        http.content ∧
      (items.foldl (HeaderItem.record captured) http).len = http.len := by
  have once (http : HttpRequestKinfo) (item : HeaderItem) :
      (item.record captured http).uri = http.uri ∧
        (item.record captured http).content = http.content ∧
        (item.record captured http).len = http.len := by
    rw [HeaderItem.record, closeHeader]
    cases lastReturn item.line <;> cases item.header <;>
      exact ⟨rfl, rfl, rfl⟩
  induction items generalizing http with
  | nil => exact ⟨rfl, rfl, rfl⟩
  | cons item items induction =>
      obtain ⟨uri, content, len⟩ := once http item
      rw [List.foldl_cons, ← uri, ← content, ← len]
      exact induction _

/-- Headers do not change the method. -/
theorem httpType_foldl_record (captured : Int) (items : List HeaderItem)
    (http : HttpRequestKinfo) :
    (items.foldl (HeaderItem.record captured) http).httpType =
      http.httpType := by
  induction items generalizing http with
  | nil => rfl
  | cons item items induction =>
      have once : (item.record captured http).httpType = http.httpType := by
        rw [HeaderItem.record, closeHeader]
        cases lastReturn item.line <;> cases item.header <;> rfl
      rw [List.foldl_cons, ← once]
      exact induction _

end Recorded

/-! ## The request line -/

/-- The text behind the request line; line breaks before it are skipped. -/
def headerText (text : Bytes) : Bytes :=
  afterLine (text.dropWhile fun ch => ch == 13 || ch == 10)

/-- The headers of a request whose text ends at `finish`. -/
def requestHeaders (finish : Int) (text : Bytes) : List HeaderItem :=
  (readHeaders finish (headerText text)).2

/-- The struct after the request line. -/
def afterRequestLine (http : HttpRequestKinfo) (uri : Range)
    (httpType : Int) : HttpRequestKinfo :=
  { http with uri := uri, httpType := httpType }

/-- The text from the URI on: behind the method and the spaces after it. -/
def uriText (text : Bytes) : Bytes :=
  ((text.dropWhile fun ch => ch == 13 || ch == 10).dropWhile
    (· != 32)).dropWhile (· == 32)

/-- The URI begins and no space comes after it. -/
def UriOpen (uri : Bytes) : Prop :=
  uri ≠ [] ∧ 32 ∉ uri

/-- The machine has met the beginning of the URI. -/
structure UriBegun (content p : Int) (uri : Range) (start : Int) : Prop where
  begun : uri.start = some start
  low : content ≤ start
  high : start < p
  ended : ∀ stop ∈ uri.stop, start ≤ stop ∧ stop < p

/-- What is known at the address `p` in the states of the request line. -/
def InRequestLine (content p : Int) (machine : Machine) : Prop :=
  match machine.state with
  | .method | .spacesBeforeUri => machine.httprequest.uri = Range.unset
  | .uri => ∃ start, UriBegun content p machine.httprequest.uri start
  | .http09 | .spacesAfterDigit =>
      machine.httprequest.uri.stop ≠ none ∧
        ∃ start, UriBegun content p machine.httprequest.uri start
  | _ => False

/-- The text ends before the URI does. -/
def UriPending (machine : Machine) (text : Bytes) : Prop :=
  match machine.state with
  | .method =>
      UriOpen ((text.dropWhile (· != 32)).dropWhile (· == 32))
  | .spacesBeforeUri => UriOpen (text.dropWhile (· == 32))
  | .uri => machine.httprequest.uri.stop = none ∧ 32 ∉ text
  | _ => False

/-- The pair of the URI: only its beginning if the text is cut off. -/
def UriRead (cut : Prop) (first past : Int) (uri : Range) : Prop :=
  (cut ∧ ∃ start, uri = { start := some start, stop := none }) ∨
    (¬ cut ∧ uri.Inside first past)

/-- What a turn of the loop does in the request line. -/
def AfterTurn (content p : Int) (ch : UInt8) (text : Bytes)
    (machine : Machine) : Control → Prop
  | .next after =>
      (∃ uri httpType,
        after.httprequest =
          afterRequestLine machine.httprequest uri httpType) ∧
      (ch ≠ 10 ∧ InRequestLine content (p + 1) after ∧
          (UriPending machine (ch :: text) ↔ UriPending after text) ∨
        ch = 10 ∧ (∃ m, after = atHeader m after.httprequest) ∧
          ¬ UriPending machine (ch :: text) ∧
          after.httprequest.uri.Inside content p)
  | .requestDone _ => False
  | .error code _ => code ≠ 0

section RequestLine

variable {memory : Memory} {captured content finish p m start : Int}
  {http : HttpRequestKinfo} {machine : Machine}

theorem UriBegun.read {uri : Range}
    (begun : UriBegun content p uri start) :
    UriRead (uri.stop = none) content p uri := by
  obtain ⟨first, last⟩ := uri
  obtain rfl : first = some start := begun.begun
  cases last with
  | none => exact Or.inl ⟨rfl, start, rfl⟩
  | some stop =>
      obtain ⟨order, high⟩ := begun.ended stop rfl
      exact Or.inr ⟨Option.some_ne_none stop,
        Range.inside_some_iff.mpr ⟨begun.low, order, high⟩⟩

theorem UriRead.inside {cut : Prop} {first past : Int} {uri : Range}
    (read : UriRead cut first past uri) (whole : ¬ cut) :
    uri.Inside first past := by
  rcases read with ⟨given, -⟩ | ⟨-, inside⟩
  · exact absurd given whole
  · exact inside

theorem UriRead.inside_iff {cut : Prop} {first past : Int} {uri : Range}
    (read : UriRead cut first past uri) {first' past' : Int}
    (lower : first' ≤ first) (higher : past ≤ past') :
    uri.Inside first' past' ↔ ¬ cut := by
  rcases read with ⟨given, start, rfl⟩ | ⟨whole, inside⟩
  · exact iff_of_false Range.not_inside_half (not_not.mpr given)
  · exact iff_of_true (inside.mono lower higher) whole

theorem UriRead.ordered {cut : Prop} {first past : Int} {uri : Range}
    {start stop : Int} (read : UriRead cut first past uri)
    (started : uri.start = some start) (stopped : uri.stop = some stop) :
    first ≤ start ∧ start ≤ stop ∧ stop < past := by
  obtain ⟨_, _⟩ := uri
  obtain rfl := started
  obtain rfl := stopped
  rcases read with ⟨-, _, half⟩ | ⟨-, inside⟩
  · cases half
  · exact Range.inside_some_iff.mp inside

theorem UriRead.mono {cut : Prop} {first first' past past' : Int}
    {uri : Range} (read : UriRead cut first past uri)
    (lower : first' ≤ first) (higher : past ≤ past') :
    UriRead cut first' past' uri := by
  rcases read with begun | ⟨whole, inside⟩
  · exact Or.inl begun
  · exact Or.inr ⟨whole, inside.mono lower higher⟩

theorem UriBegun.succ {uri : Range}
    (begun : UriBegun content p uri start) :
    UriBegun content (p + 1) uri start :=
  { begun with
    high := by have := begun.high; omega
    ended := fun stop ended => by
      have := begun.ended stop ended
      omega }

section Turn

variable {ch : UInt8} (text : Bytes)

/-- One turn of the loop in the method. -/
theorem switch_method
    (line : InRequestLine content p ⟨.method, m, http⟩) :
    AfterTurn content p ch text ⟨.method, m, http⟩
      (switch memory captured p ch ⟨.method, m, http⟩) := by
  simp only [switch, switchMethod]
  split
  · rename_i blank
    subst blank
    have reached {after : Machine}
        (spaces : after.state = .spacesBeforeUri) :
        UriPending { state := .method, m := m, httprequest := http }
            (32 :: text) ↔ UriPending after text := by
      simp [UriPending, spaces]
    split
    · exact ⟨⟨http.uri, http.httpType, rfl⟩,
        Or.inl ⟨by decide, line, reached rfl⟩⟩
    split
    · exact ⟨⟨http.uri, 1, rfl⟩,
        Or.inl ⟨by decide, line, reached rfl⟩⟩
    · exact (by decide : (12 : Int) ≠ 0)
  split
  · exact (by decide : (13 : Int) ≠ 0)
  · rename_i noBlank capital
    refine ⟨⟨http.uri, http.httpType, rfl⟩, Or.inl ⟨?_, line, ?_⟩⟩
    · rintro rfl
      exact capital (by decide)
    · simp [UriPending, noBlank]

/-- One turn of the loop in front of the URI. -/
theorem switch_spacesBeforeUri
    (line : InRequestLine content p ⟨.spacesBeforeUri, m, http⟩)
    (started : content ≤ p) :
    AfterTurn content p ch text ⟨.spacesBeforeUri, m, http⟩
      (switch memory captured p ch ⟨.spacesBeforeUri, m, http⟩) := by
  have unset : http.uri = Range.unset := line
  simp only [switch]
  split
  · rename_i slash
    subst slash
    have begun :
        UriBegun content (p + 1) { http.uri with start := some p } p :=
      { begun := rfl
        low := started
        high := by omega
        ended := by simp [unset, Range.unset] }
    refine ⟨⟨_, http.httpType, rfl⟩,
      Or.inl ⟨by decide, ⟨p, begun⟩, ?_⟩⟩
    simp [UriPending, UriOpen, unset, Range.unset]
  split
  · rename_i blank
    subst blank
    exact ⟨⟨http.uri, http.httpType, rfl⟩,
      Or.inl ⟨by decide, line, by simp [UriPending]⟩⟩
  · exact (by decide : (14 : Int) ≠ 0)

/-- One turn of the loop in the URI. -/
theorem switch_uri
    (line : InRequestLine content p ⟨.uri, m, http⟩) :
    AfterTurn content p ch text ⟨.uri, m, http⟩
      (switch memory captured p ch ⟨.uri, m, http⟩) := by
  obtain ⟨start, begun⟩ := line
  simp only [switch]
  split
  · rename_i blank
    subst blank
    have ended :
        UriBegun content (p + 1)
          { http.uri with stop := some (p - 1) } start :=
      { begun.succ with
        ended := by
          rintro stop ⟨⟩
          have := begun.high
          omega }
    exact ⟨⟨_, http.httpType, rfl⟩,
      Or.inl ⟨by decide, ⟨Option.some_ne_none _, start, ended⟩,
        by simp [UriPending]⟩⟩
  rename_i noBlank
  have still {after : Machine} (uri : after.state = .uri)
      (same : after.httprequest = http) :
      UriPending { state := .uri, m := m, httprequest := http }
          (ch :: text) ↔ UriPending after text := by
    simp [UriPending, uri, same, Ne.symm noBlank]
  split
  · rename_i query
    subst query
    exact ⟨⟨http.uri, http.httpType, rfl⟩,
      Or.inl ⟨by decide, ⟨start, begun.succ⟩, still rfl rfl⟩⟩
  split
  · exact (by decide : (15 : Int) ≠ 0)
  split
  · exact (by decide : (16 : Int) ≠ 0)
  split
  · exact (by decide : (17 : Int) ≠ 0)
  · rename_i noFeed _
    exact ⟨⟨http.uri, http.httpType, rfl⟩,
      Or.inl ⟨noFeed, ⟨start, begun.succ⟩, still rfl rfl⟩⟩

/-- One turn of the loop behind the URI. -/
theorem switch_http09
    (line : InRequestLine content p ⟨.http09, m, http⟩) :
    AfterTurn content p ch text ⟨.http09, m, http⟩
      (switch memory captured p ch ⟨.http09, m, http⟩) := by
  obtain ⟨ended, start, begun⟩ := line
  simp only [switch]
  split
  · rename_i blank
    subst blank
    exact ⟨⟨http.uri, http.httpType, rfl⟩,
      Or.inl ⟨by decide, ⟨ended, start, begun.succ⟩, Iff.rfl⟩⟩
  split
  · exact (by decide : (18 : Int) ≠ 0)
  split
  · exact (by decide : (19 : Int) ≠ 0)
  rename_i noFeed
  split
  · exact ⟨⟨http.uri, http.httpType, rfl⟩,
      Or.inl ⟨noFeed, ⟨ended, start, begun.succ⟩, Iff.rfl⟩⟩
  · exact ⟨⟨http.uri, http.httpType, rfl⟩,
      Or.inl ⟨noFeed, ⟨start, begun.succ⟩,
        by simp [UriPending, ended]⟩⟩

/-- One turn of the loop behind the version. -/
theorem switch_spacesAfterDigit
    (line : InRequestLine content p ⟨.spacesAfterDigit, m, http⟩) :
    AfterTurn content p ch text ⟨.spacesAfterDigit, m, http⟩
      (switch memory captured p ch ⟨.spacesAfterDigit, m, http⟩) := by
  obtain ⟨ended, start, begun⟩ := line
  simp only [switch]
  split
  · rename_i feed
    exact ⟨⟨http.uri, http.httpType, rfl⟩,
      Or.inr ⟨feed, ⟨m, rfl⟩, by simp [UriPending],
        begun.read.inside ended⟩⟩
  · rename_i noFeed
    exact ⟨⟨http.uri, http.httpType, rfl⟩,
      Or.inl ⟨noFeed, ⟨ended, start, begun.succ⟩, Iff.rfl⟩⟩

/-- One turn of the loop in the request line. -/
theorem switch_requestLine
    (line : InRequestLine content p machine) (started : content ≤ p) :
    AfterTurn content p ch text machine
      (switch memory captured p ch machine) := by
  obtain ⟨state, m, http⟩ := machine
  cases state with
  | method => exact switch_method text line
  | spacesBeforeUri => exact switch_spacesBeforeUri text line started
  | uri => exact switch_uri text line
  | http09 => exact switch_http09 text line
  | spacesAfterDigit => exact switch_spacesAfterDigit text line
  | _ => cases line

end Turn

/-- The pair of the URI where the text ends. -/
theorem InRequestLine.read (line : InRequestLine content p machine) :
    UriRead (UriPending machine []) content p machine.httprequest.uri := by
  obtain ⟨state, m, http⟩ := machine
  cases state with
  | method | spacesBeforeUri =>
      have unset : http.uri = Range.unset := line
      refine Or.inr ⟨by simp [UriPending, UriOpen], ?_⟩
      simp only [unset]
      exact Range.inside_unset content p
  | uri =>
      obtain ⟨start, begun⟩ := line
      simpa [UriPending] using begun.read
  | http09 | spacesAfterDigit =>
      obtain ⟨ended, start, begun⟩ := line
      exact Or.inr ⟨by simp [UriPending], begun.read.inside ended⟩
  | _ => cases line

/-- A request line that is read without error. -/
theorem runText_requestLine {text : Bytes} {result : HttpRequestKinfo}
    (line : InRequestLine content (addressOf finish text) machine)
    (started : content ≤ addressOf finish text)
    (accepted :
      runText memory captured (addressOf finish text) text machine =
        (0, result)) :
    ∃ m uri httpType,
      UriRead (UriPending machine text) content finish uri ∧
      runText memory captured (addressOf finish (afterLine text))
          (afterLine text)
          (atHeader m
            (afterRequestLine machine.httprequest uri httpType)) =
        (0, result) := by
  induction text generalizing machine with
  | nil =>
      have read := line.read
      rw [addressOf, List.length_nil, Nat.cast_zero, Int.sub_zero] at read
      exact ⟨0, _, machine.httprequest.httpType, read, accepted⟩
  | cons ch text induction =>
      have turn :=
        @switch_requestLine memory captured content _ machine ch text line
          started
      have next := addressOf_cons finish ch text
      rw [runText] at accepted
      cases control : switch memory captured
          (addressOf finish (ch :: text)) ch machine with
      | next after =>
          rw [control] at turn accepted
          obtain ⟨⟨uri, httpType, frame⟩, feeds⟩ := turn
          rw [next] at accepted feeds
          rcases feeds with
            ⟨noFeed, line, pending⟩ | ⟨rfl, ⟨m, header⟩, whole, inside⟩
          · obtain ⟨m, uri, httpType, taken, read⟩ :=
              induction line (by omega) accepted
            rw [frame] at read
            have same : afterLine (ch :: text) = afterLine text := by
              simp [afterLine, noFeed]
            rw [same, pending]
            exact ⟨m, uri, httpType, taken, read⟩
          · have same : afterLine (10 :: text) = text := by
              simp [afterLine]
            rw [header] at accepted
            rw [same]
            rw [frame] at accepted inside
            have reached : addressOf finish (10 :: text) ≤ finish := by
              simp only [addressOf]
              omega
            exact
              ⟨m, uri, httpType,
                Or.inr ⟨whole, inside.mono (Int.le_refl _) reached⟩,
                accepted⟩
      | requestDone httprequest =>
          rw [control] at turn
          exact turn.elim
      | error code httprequest =>
          rw [control] at turn accepted
          exact absurd (congrArg Prod.fst accepted) turn

/-- A packet that is read without error: the URI lies in the text unless the
text is cut off there, and the headers are read behind the request line. -/
theorem runText_request {text : Bytes} {result : HttpRequestKinfo}
    (unset : http.uri = Range.unset)
    (accepted :
      runText memory captured (addressOf finish text) text
          { state := .start, m := m, httprequest := http } =
        (0, result)) :
    ∃ m uri httpType,
      UriRead (UriOpen (uriText text)) (addressOf finish text) finish uri ∧
      runText memory captured (addressOf finish (headerText text))
          (headerText text)
          (atHeader m (afterRequestLine http uri httpType)) =
        (0, result) := by
  induction text generalizing m with
  | nil =>
      refine
        ⟨m, http.uri, http.httpType,
          Or.inr ⟨by simp [uriText, UriOpen], ?_⟩, accepted⟩
      rw [unset]
      exact Range.inside_unset _ _
  | cons ch text induction =>
      have next := addressOf_cons finish ch text
      by_cases lineBreak : ch = 13 ∨ ch = 10
      · have skipped : headerText (ch :: text) = headerText text ∧
            uriText (ch :: text) = uriText text := by
          rcases lineBreak with rfl | rfl <;> simp [headerText, uriText]
        have turn :
            switch memory captured (addressOf finish (ch :: text)) ch
                { state := .start, m := m, httprequest := http } =
              .next
                { state := .start
                  m := addressOf finish (ch :: text)
                  httprequest := http } := by
          simp [switch, lineBreak]
        rw [runText_next turn, next] at accepted
        obtain ⟨m, uri, httpType, taken, read⟩ := induction accepted
        rw [skipped.1, skipped.2]
        exact
          ⟨m, uri, httpType, taken.mono (by omega) (Int.le_refl _), read⟩
      · have same : headerText (ch :: text) = afterLine text := by
          simp only [not_or] at lineBreak
          simp [headerText, afterLine, lineBreak.1, lineBreak.2]
        by_cases capital : notCapital ch
        · simp [runText, switch, lineBreak, capital] at accepted
        · have turn :
              switch memory captured (addressOf finish (ch :: text)) ch
                  { state := .start, m := m, httprequest := http } =
                .next
                  { state := .method
                    m := addressOf finish (ch :: text)
                    httprequest := http } := by
            simp [switch, lineBreak, capital]
          rw [runText_next turn, next] at accepted
          obtain ⟨m, uri, httpType, taken, read⟩ :=
            @runText_requestLine memory captured (addressOf finish text)
              finish
              { state := .method
                m := addressOf finish (ch :: text)
                httprequest := http }
              text result unset (Int.le_refl _) accepted
          have noBlank : ch ≠ 32 := by
            rintro rfl
            exact capital (by decide)
          have method : uriText (ch :: text) =
              (text.dropWhile (· != 32)).dropWhile (· == 32) := by
            simp only [not_or] at lineBreak
            simp [uriText, lineBreak.1, lineBreak.2, noBlank]
          rw [same, method]
          exact
            ⟨m, uri, httpType, taken.mono (by omega) (Int.le_refl _), read⟩

end RequestLine

end WindowSystem.Client.RequestGrammar
