import WindowSystem.ListFiles
import WindowSystem.SearchWords

/-!
# The keywords of the advertisements

`rule_pop_load_query_content` of `instant_query_content.c` reads a file with
an advertisement at level 0 and its keywords below, cuts every keyword into
words and files the advertisement under each of them that is no stop word.
The pointers of `get_name` run through the array `cur_line`, which keeps what
earlier lines have left there.  `none` stands for a read outside of this array
and for everything else that C leaves undefined.
-/

namespace WindowSystem.InstantQueryContent

open WindowSystem.CRuntime
open WindowSystem.Library
open WindowSystem.ListFiles
open WindowSystem.SearchWords
open WindowSystem.TextCodes
open WindowSystem.ToolHashMap

/-! ## The line in memory -/

/-- `char cur_line[1024]`. -/
def lineSize : Nat := 1024

/-- `cur_line` after `fgets` has stored so many bytes and the terminator. -/
def putLine (stored curLine : Bytes) : Bytes :=
  stored ++ 0 :: curLine.drop (stored.length + 1)

/-- A text without the blanks at its end. -/
def rtrim (text : Bytes) : Bytes :=
  (text.reverse.dropWhile isSpace).reverse

/-- The loop that overwrites the blanks at the end with zeros. -/
def trimLine (curLine : Bytes) : Bytes :=
  let text := cString curLine
  let kept := rtrim text
  kept ++ List.replicate (text.length - kept.length) 0 ++
    curLine.drop text.length

/-- `while (*readptr != '=') readptr++`, from the bytes that the pointer still
has in front of it. -/
def findEquals : Bytes → Option Bytes
  | [] => none
  | byte :: readptr =>
      if byte = 61 then some readptr else findEquals readptr

/-- A quote, single or double. -/
def isQuote (byte : UInt8) : Bool :=
  byte == 34 || byte == 39

/--
`get_name`: the outer `none` is a read outside of the array, the inner one the
result `NULL`.  Pointers are the bytes from their place on.

The length that the function computes is not used by its caller.
-/
def getName (start : Bytes) : Option (Option Bytes) :=
  (findEquals (start.dropWhile isSpace)).bind fun readptr =>
    match readptr.dropWhile isSpace with
    | [] => none
    | first :: after =>
        if 0 ∉ after then none
        else if isQuote first then
          if first ∈ cString after then some (some after) else some none
        else some (some (first :: after))

/-- `(scanner - cur_line) / 4`. -/
def level (curLine : Bytes) : Nat :=
  (curLine.takeWhile (· = 32)).length / 4

/-- A percent sign that is the last byte of a text lets `UrlGB2312Decode` read
behind its terminator. -/
def readsBehind : Bytes → Bool
  | [] => false
  | ch :: url =>
      if ch = 37 then
        match url with
        | [] => true
        | [_] => false
        | _ :: _ :: url => readsBehind url
      else readsBehind url

/-- `UrlGB2312Decode(value, dest)` for a pointer into `cur_line`. -/
def decodeValue (value : Bytes) : Option Bytes :=
  let url := cString value
  match value.drop (url.length + 1) with
  | behind :: _ => some (urlGB2312Decode behind url)
  | [] => if readsBehind url then none else some (urlGB2312Decode 0 url)

/-! ## Filing an advertisement -/

/-- The identifier is put at the end unless it is there already or the array
is full. -/
def fileAd (iadvId : Int) (padvId : AdFire) : AdFire :=
  if room : iadvId ∉ padvId.pvAdInfo ∧ padvId.pvAdInfo.length < 16 then
    { pvAdInfo := padvId.pvAdInfo ++ [iadvId]
      adlen := by
        rw [List.length_append]
        exact room.2 }
  else padvId

/-- What is done with a word that is no stop word. -/
def fileWord (pQCHashMap : HashMap AdFire) (iadvId : Int) (word : Bytes) :
    Option (HashMap AdFire) :=
  match findObject pQCHashMap word word.length with
  | none => none
  | some none =>
      some (hashMapInsert pQCHashMap word word.length
        (some (AdFire.single iadvId)))
  | some (some _) =>
      some (pQCHashMap.writeValue
        (fingerprint pQCHashMap.hashLen word word.length) (fileAd iadvId))

/--
What the loader reads besides the file: `g_pvStopHashMap`, and the words that
the segmenter finds, which `MixSegmentCut` joins with its third argument.

The words are found in memory that is allocated by every call, the word of
number `j` of a call at its `address`.
-/
structure Loader where
  stopWords : HashMap AdFire
  words : Bytes → List Bytes
  address : Nat → Nat → Nat

namespace Loader

variable (loader : Loader)

/-- `MixSegmentCut(g_handle, text, separator)`. -/
def mixSegmentCut (text separator : Bytes) : Bytes :=
  separator.intercalate (loader.words text)

/-- The texts in the array `p`. -/
def cutWords (dest : Bytes) : List Bytes :=
  strtokAny (ascii "-MEG-") (loader.mixSegmentCut dest (ascii "-MEG-"))

/-- The loop over the array `p`; the stop words are looked up with the pointer
to the word in the place of its length. -/
def fileWords (call : Nat) (iadvId : Int) :
    List (Bytes × Nat) → HashMap AdFire → Option (HashMap AdFire)
  | [], pQCHashMap => some pQCHashMap
  | (word, j) :: p, pQCHashMap =>
      if (hashMapFind loader.stopWords word
          (toInt32 (loader.address call j))).ret < 0 then
        (fileWord pQCHashMap iadvId word).bind
          (fileWords call iadvId p)
      else fileWords call iadvId p pQCHashMap

/-- A keyword line; the array `p` has 120 entries, the last one for `NULL`. -/
def loadKeyword (call : Nat) (iadvId : Int) (value : Bytes)
    (pQCHashMap : HashMap AdFire) : Option (HashMap AdFire) :=
  (decodeValue value).bind fun dest =>
    let p := loader.cutWords (cString dest)
    if p.length < 120 then
      loader.fileWords call iadvId p.zipIdx pQCHashMap
    else none

end Loader

/-- The variables of the loop over the lines, and how often the segmenter was
called. -/
structure LoadState where
  curLine : Bytes
  iadvId : Int
  calls : Nat
  pQCHashMap : HashMap AdFire

namespace Loader

variable (loader : Loader)

/-- One pass of the loop, after `fgets` has stored something; `atoi` and
`UrlGB2312Decode` use the value also when it is `NULL`. -/
def loadLine (stored : Bytes) (state : LoadState) : Option LoadState :=
  let curLine := trimLine (putLine stored state.curLine)
  ((getName (curLine.dropWhile (· = 32))).bind id).bind fun value =>
    if level curLine = 0 then
      some
        { state with
          curLine := curLine
          iadvId := atoi (cString value) }
    else
      (loader.loadKeyword state.calls state.iadvId value
        state.pQCHashMap).map fun pQCHashMap =>
          { curLine := curLine
            iadvId := state.iadvId
            calls := state.calls + 1
            pQCHashMap := pQCHashMap }

/-- The loop over what `fgets` stores. -/
def loadLines : List Bytes → LoadState → Option LoadState
  | [], state => some state
  | stored :: rest, state =>
      (loader.loadLine stored state).bind (loadLines rest)

end Loader

/-- What the calls of `while (fgets (cur_line, 1024, file))` store. -/
def readLines (file : Bytes) : List Bytes :=
  let reading := fgets (lineSize - 1) file
  if reading.stored = [] then []
  else reading.stored :: readLines reading.rest
termination_by file.length
decreasing_by
  rename_i some
  have front := congrArg List.length (fgets_append (lineSize - 1) file)
  have positive := List.length_pos_of_ne_nil some
  rw [List.length_append] at front
  simp only [reading] at positive ⊢
  omega

/-- `rule_pop_load_query_content`; a file that cannot be opened is `none`. -/
def rulePopLoadQueryContent (loader : Loader)
    (pQCHashMap : HashMap AdFire) :
    Option Bytes → Option (HashMap AdFire)
  | none => some pQCHashMap
  | some file =>
      (loader.loadLines (readLines file)
        { curLine := List.replicate lineSize 0
          iadvId := 0
          calls := 0
          pQCHashMap := pQCHashMap }).map LoadState.pQCHashMap

/-! ## The file as it is meant -/

/-- The lines of a file without their ends. -/
def textLines (file : Bytes) : List Bytes :=
  (lines file).map rtrim

/-- What stands behind the first equals sign and the blanks there. -/
def behindEquals (line : Bytes) : Option Bytes :=
  (findEquals line).map (List.dropWhile isSpace)

/-- The value of a line without its quotes; there is none on a line without
an equals sign and in quotes that are not closed. -/
def lineValue (line : Bytes) : Option Bytes :=
  (behindEquals line).bind fun text =>
    match text with
    | [] => some []
    | first :: after =>
        if isQuote first then
          if first ∈ after then some (after.takeWhile (· ≠ first)) else none
        else some (first :: after)

/-- What the result of `get_name` points to on the line. -/
def pointed (line : Bytes) : Option Bytes :=
  (behindEquals line).bind fun text =>
    match text with
    | [] => some []
    | first :: after =>
        if isQuote first then
          if first ∈ after then some after else none
        else some (first :: after)

/-- A value without its percent encoding. -/
def decoded (value : Bytes) : Bytes :=
  cString (urlGB2312Decode 0 value)

namespace Loader

variable (loader : Loader)

/-- The words of `g_pvStopHashMap`. -/
def IsStopWord (word : Bytes) : Prop :=
  (loader.stopWords.lookup
    (fingerprint loader.stopWords.hashLen word word.length)).isSome

instance (word : Bytes) : Decidable (loader.IsStopWord word) :=
  inferInstanceAs (Decidable (_ = true))

/-- The words of a value that are no stop words. -/
def tokens (value : Bytes) : List Bytes :=
  (loader.words (decoded value)).filter (¬ loader.IsStopWord ·)

/-- The advertisements whose keyword lines have a token like this, in the
order of these lines. -/
def adsWith (wanted : Bytes → Bool) :
    Option Int → List Bytes → List Int
  | _, [] => []
  | advId, line :: rest =>
      match lineValue line with
      | none => adsWith wanted advId rest
      | some value =>
          if level line = 0 then adsWith wanted (some (atoi value)) rest
          else
            (if (loader.tokens value).any wanted then advId.toList
              else []) ++ adsWith wanted advId rest

/-- The advertisements that have a token. -/
def adsOf (token : Bytes) (file : Bytes) : List Int :=
  loader.adsWith (· == token) none (textLines file)

/-- No other token of the file has the fingerprint of this one. -/
def Alone (token : Bytes) (file : Bytes) : Prop :=
  ∀ line ∈ textLines file, ∀ value ∈ lineValue line,
    ∀ other ∈ loader.tokens value,
      fingerprint 40960 other other.length =
        fingerprint 40960 token token.length → other = token

/-- A token leads to its first sixteen advertisements, and to each of them
once. -/
structure FiledExactly (file : Bytes) (pQCHashMap : HashMap AdFire) :
    Prop where
  maps : ∀ token, loader.Alone token file → ∀ iadvId,
    (∃ padvId,
      pQCHashMap.lookup (fingerprint 40960 token token.length) =
        some (some padvId) ∧ iadvId ∈ padvId.pvAdInfo) ↔
      ¬ loader.IsStopWord token ∧
        iadvId ∈ (loader.adsOf token file).eraseDups.take 16
  once : ∀ key padvId, pQCHashMap.lookup key = some (some padvId) →
    padvId.pvAdInfo.Nodup

/-- The file is read inside of the buffer and filed as it is meant. -/
def LoadsExactly (file : Bytes) : Prop :=
  ∃ pQCHashMap,
    rulePopLoadQueryContent loader (hashMapNew 40960) (some file) =
        some pQCHashMap ∧
      loader.FiledExactly file pQCHashMap

/-! ## What is cut out of a file -/

/-- The parts of a line that are not found among the stop words. -/
def kept (call : Nat) (p : List (Bytes × Nat)) : List Bytes :=
  (p.filter fun part => (hashMapFind loader.stopWords part.1
    (toInt32 (loader.address call part.2))).ret < 0).map Prod.fst

/-- The parts of a value. -/
def cutValue (call : Nat) (value : Bytes) : Option (List Bytes) :=
  (decodeValue value).bind fun dest =>
    let p := loader.cutWords (cString dest)
    if p.length < 120 then some (loader.kept call p.zipIdx) else none

end Loader

/-- The variables of the loop over the lines, without the table. -/
structure Place where
  curLine : Bytes
  iadvId : Int
  calls : Nat

/-- The place in front of the first line. -/
def Place.first : Place where
  curLine := List.replicate lineSize 0
  iadvId := 0
  calls := 0

/-- The place of the loop. -/
def LoadState.place (state : LoadState) : Place where
  curLine := state.curLine
  iadvId := state.iadvId
  calls := state.calls

/-- `cur_line` when a line is searched for its value. -/
def Place.line (place : Place) (stored : Bytes) : Bytes :=
  trimLine (putLine stored place.curLine)

namespace Loader

variable (loader : Loader)

/-- The place behind a line and the parts of the line; `none` is a pointer
that leaves the buffer or is `NULL`. -/
def cutLine (stored : Bytes) (place : Place) : Option (Place × List Bytes) :=
  let curLine := place.line stored
  ((getName (curLine.dropWhile (· = 32))).bind id).bind fun value =>
    if level curLine = 0 then
      some (⟨curLine, atoi (cString value), place.calls⟩, [])
    else
      (loader.cutValue place.calls value).map fun parts =>
        (⟨curLine, place.iadvId, place.calls + 1⟩, parts)

/-- The parts of all lines with the numbers that are in force. -/
def cutLines : List Bytes → Place → Option (List (Bytes × Int))
  | [], _ => some []
  | stored :: rest, place =>
      (loader.cutLine stored place).bind fun line =>
        (cutLines rest line.1).map fun later =>
          line.2.map (·, place.iadvId) ++ later

end Loader

/-- The fingerprint of a word in this table. -/
def keyOf (word : Bytes) : Fingerprint :=
  fingerprint 40960 word word.length

/-- The numbers of the parts with a fingerprint. -/
def adsUnder (key : Fingerprint) (parts : List (Bytes × Int)) : List Int :=
  (parts.filter (keyOf ·.1 = key)).map Prod.snd

/-! ## The files that are loaded exactly -/

namespace Loader

variable (loader : Loader)

/-- No pointer leaves the buffer, and for every token the first sixteen
advertisements out of whose lines it is cut are those of its lines. -/
def CutsExactly (file : Bytes) : Prop :=
  ∃ parts ∈ loader.cutLines (readLines file) Place.first,
    ∀ token, loader.Alone token file → ∀ iadvId,
      iadvId ∈ (adsUnder (keyOf token) parts).eraseDups.take 16 ↔
        ¬ loader.IsStopWord token ∧
          iadvId ∈ (loader.adsOf token file).eraseDups.take 16

/--
The value of a keyword line survives the way the loader takes it.

It does not end with a percent sign, it has not too many parts, and those that
are not taken for stop words are its tokens.
-/
structure KeywordFits (call : Nat) (raw value : Bytes) : Prop where
  percent : readsBehind raw = false
  parts : (loader.cutWords (decoded raw)).length < 120
  same : ∀ word, word ∈ loader.kept call
    (loader.cutWords (decoded raw)).zipIdx ↔ word ∈ loader.tokens value

/-- Every keyword line survives, and the number in force is that of its
advertisement if it has a token.  A line without a value stands at level 0 and
takes its number from what earlier lines have left in the buffer. -/
def Orderly : Option Int → Place → List Bytes → Prop
  | _, _, [] => True
  | advId, place, stored :: rest =>
      let line := rtrim stored
      let curLine := place.line stored
      match pointed line, lineValue line with
      | some raw, some value =>
          (raw = [] → line.length + 1 < lineSize) ∧
            if level line = 0 then
              Orderly (some (atoi value))
                ⟨curLine, atoi value, place.calls⟩ rest
            else
              loader.KeywordFits place.calls raw value ∧
                (loader.tokens value ≠ [] → advId = some place.iadvId) ∧
                Orderly advId ⟨curLine, place.iadvId, place.calls + 1⟩ rest
      | _, _ =>
          level line = 0 ∧
            ∃ value, getName (curLine.dropWhile (· = 32)) =
                some (some value) ∧
              Orderly advId ⟨curLine, atoi (cString value), place.calls⟩ rest

end Loader

/-- What a line has behind the size of the buffer is blank. -/
def LinesFit (file : Bytes) : Prop :=
  ∀ line ∈ lines file, ∀ byte ∈ line.drop (lineSize - 1),
    isSpace byte = true

/-! ## What a line leaves in memory -/

theorem takeWhile_stop {p : UInt8 → Bool} {stop : UInt8}
    (stops : p stop = false) (text rest : Bytes) :
    (text ++ stop :: rest).takeWhile p = text.takeWhile p := by
  rw [List.takeWhile_append]
  split
  · rename_i whole
    rw [List.takeWhile_cons_of_neg (by simp [stops]), List.append_nil,
      (List.takeWhile_prefix p).eq_of_length whole]
  · rfl

theorem dropWhile_stop {p : UInt8 → Bool} {stop : UInt8}
    (stops : p stop = false) (text rest : Bytes) :
    (text ++ stop :: rest).dropWhile p =
      text.dropWhile p ++ stop :: rest := by
  rw [List.dropWhile_append]
  split
  · rename_i whole
    rw [List.dropWhile_cons_of_neg (by simp [stops]),
      List.isEmpty_iff.mp whole, List.nil_append]
  · rfl

theorem cString_stop {text : Bytes} (noNul : 0 ∉ text) (rest : Bytes) :
    cString (text ++ 0 :: rest) = text := by
  rw [cString, takeWhile_stop (by rfl)]
  exact cString_eq_self noNul

theorem isPrefix_rtrim (text : Bytes) : rtrim text <+: text := by
  rw [rtrim, ← List.reverse_suffix, List.reverse_reverse]
  exact List.dropWhile_suffix isSpace

theorem rtrim_of_isSpace {byte : UInt8} (text : Bytes)
    (space : isSpace byte = true) : rtrim (text ++ [byte]) = rtrim text := by
  rw [rtrim, List.reverse_append, List.reverse_singleton,
    List.singleton_append, List.dropWhile_cons_of_pos space, rtrim]

theorem rtrim_newline (line : Bytes) : rtrim (line ++ [10]) = rtrim line :=
  rtrim_of_isSpace line (by decide)

theorem rtrim_append_blank {blank : Bytes}
    (spaces : ∀ byte ∈ blank, isSpace byte = true) (text : Bytes) :
    rtrim (text ++ blank) = rtrim text := by
  induction blank using List.reverseRecOn with
  | nil => rw [List.append_nil]
  | append_singleton blank last induction =>
      rw [List.forall_mem_append] at spaces
      rw [← List.append_assoc,
        rtrim_of_isSpace _ (spaces.2 last (List.mem_singleton_self last)),
        induction spaces.1]

/-- The array has its size and ends with a zero. -/
structure Terminated (curLine : Bytes) : Prop where
  size : curLine.length = lineSize
  last : ∃ front, curLine = front ++ [0]

theorem Terminated.putLine {curLine stored : Bytes}
    (terminated : Terminated curLine) (short : stored.length < lineSize) :
    ∃ behind, putLine stored curLine = stored ++ 0 :: behind ∧
      Terminated (stored ++ 0 :: behind) := by
  obtain ⟨size, front, rfl⟩ := terminated
  refine ⟨_, rfl, ?_, ?_⟩
  · simp only [List.length_append, List.length_cons, List.length_drop,
      List.length_nil] at size ⊢
    omega
  · rw [List.length_append, List.length_singleton] at size
    by_cases inside : stored.length + 1 ≤ front.length
    · refine ⟨stored ++ 0 :: front.drop (stored.length + 1), ?_⟩
      rw [List.drop_append_of_le_length inside, List.append_assoc,
        List.cons_append]
    · refine ⟨stored, ?_⟩
      rw [List.drop_of_length_le]
      rw [List.length_append, List.length_singleton]
      omega

/-- What `fgets` has stored stands trimmed in front of a zero and of what the
array held behind it. -/
theorem trimLine_putLine {curLine stored : Bytes}
    (terminated : Terminated curLine) (noNul : 0 ∉ stored)
    (short : stored.length < lineSize) :
    ∃ behind,
      trimLine (putLine stored curLine) = rtrim stored ++ 0 :: behind ∧
        Terminated (rtrim stored ++ 0 :: behind) := by
  obtain ⟨behind, put, kept⟩ := terminated.putLine short
  obtain ⟨blanks, whole⟩ := isPrefix_rtrim stored
  have sizes := congrArg List.length whole
  rw [List.length_append] at sizes
  have trimmed :
      trimLine (putLine stored curLine) =
        rtrim stored ++ 0 :: (List.replicate blanks.length 0 ++ behind) := by
    have zeros : stored.length - (rtrim stored).length = blanks.length := by
      omega
    rw [trimLine, put]
    simp only [cString_stop noNul, List.drop_left, zeros]
    rw [List.append_assoc, ← List.singleton_append, ← List.append_assoc _ [0],
      ← List.replicate_succ', List.replicate_succ, List.cons_append]
  refine ⟨_, trimmed, ?_, ?_⟩
  · have size := kept.size
    simp only [List.length_append, List.length_cons,
      List.length_replicate] at size ⊢
    omega
  · obtain ⟨front, equal⟩ := kept.last
    rcases List.eq_nil_or_concat behind with rfl | ⟨behind, last, rfl⟩
    · refine ⟨rtrim stored ++ List.replicate blanks.length 0, ?_⟩
      rw [List.append_nil, ← List.replicate_succ, List.replicate_succ',
        List.append_assoc]
    · rw [List.concat_eq_append, ← List.cons_append,
        ← List.append_assoc] at equal
      have zero : last = 0 := by
        simpa using (List.append_inj' equal rfl).2
      refine ⟨rtrim stored ++
        0 :: (List.replicate blanks.length 0 ++ behind), ?_⟩
      rw [zero, List.concat_eq_append, List.append_assoc, List.cons_append,
        List.append_assoc]

/-- There is something behind the terminator of a text that does not fill the
array, and it ends with a zero. -/
theorem Terminated.zero_mem {text behind : Bytes}
    (terminated : Terminated (text ++ 0 :: behind))
    (short : text.length + 1 < lineSize) : 0 ∈ behind := by
  obtain ⟨size, front, equal⟩ := terminated
  rcases List.eq_nil_or_concat behind with rfl | ⟨behind, last, rfl⟩
  · rw [List.length_append, List.length_singleton] at size
    omega
  · rw [List.concat_eq_append, ← List.cons_append,
      ← List.append_assoc] at equal
    have zero : last = 0 := by
      simpa using (List.append_inj' equal rfl).2
    simp [zero]

theorem findEquals_append {text after : Bytes}
    (found : findEquals text = some after) (rest : Bytes) :
    findEquals (text ++ rest) = some (after ++ rest) := by
  induction text with
  | nil => cases found
  | cons byte text induction =>
      rw [findEquals] at found
      rw [List.cons_append, findEquals]
      split
      · rename_i equals
        rw [if_pos equals, Option.some.injEq] at found
        rw [found]
      · rename_i other
        rw [if_neg other] at found
        exact induction found

/-- Bytes that are no equals sign may be skipped in front of the search. -/
theorem findEquals_dropWhile {p : UInt8 → Bool} (stops : p 61 = false)
    (text : Bytes) : findEquals (text.dropWhile p) = findEquals text := by
  induction text with
  | nil => rfl
  | cons byte text induction =>
      by_cases skipped : p byte = true
      · have other : byte ≠ 61 := by
          rintro rfl
          rw [stops] at skipped
          cases skipped
        rw [List.dropWhile_cons_of_pos skipped, induction, findEquals,
          if_neg other]
      · rw [List.dropWhile_cons_of_neg skipped]

theorem findEquals_suffix {text after : Bytes}
    (found : findEquals text = some after) : after <:+ text := by
  induction text with
  | nil => cases found
  | cons byte text induction =>
      rw [findEquals] at found
      split at found
      · rw [← Option.some.inj found]
        exact List.suffix_cons byte text
      · exact (induction found).trans (List.suffix_cons byte text)

/-- What a text has behind its equals sign is part of the text. -/
theorem behindEquals_suffix {line text : Bytes}
    (found : behindEquals line = some text) : text <:+ line := by
  obtain ⟨after, equals, rfl⟩ := Option.map_eq_some_iff.mp found
  exact (List.dropWhile_suffix isSpace).trans (findEquals_suffix equals)

theorem pointed_suffix {line raw : Bytes}
    (value : pointed line = some raw) : raw <:+ line := by
  obtain ⟨text, found, value⟩ := Option.bind_eq_some_iff.mp value
  have inside := behindEquals_suffix found
  cases text with
  | nil =>
      rw [← Option.some.inj value]
      exact inside
  | cons first after =>
      simp only at value
      split at value
      · split at value
        · rw [← Option.some.inj value]
          exact (List.suffix_cons first after).trans inside
        · cases value
      · rw [← Option.some.inj value]
        exact inside

theorem isSome_pointed (line : Bytes) :
    (pointed line).isSome = (lineValue line).isSome := by
  rw [pointed, lineValue]
  cases behindEquals line with
  | none => rfl
  | some text =>
      cases text with
      | nil => rfl
      | cons first after =>
          simp only [Option.bind_some]
          split_ifs <;> rfl

/-- A pointer to the line finds the value of the line. -/
theorem getName_eq {line behind raw : Bytes} (noNul : 0 ∉ line)
    (more : raw = [] → 0 ∈ behind) (value : pointed line = some raw) :
    getName ((line ++ 0 :: behind).dropWhile (· = 32)) =
      some (some (raw ++ 0 :: behind)) := by
  obtain ⟨text, found, value⟩ := Option.bind_eq_some_iff.mp value
  have inside := behindEquals_suffix found
  obtain ⟨after, equals, rfl⟩ := Option.map_eq_some_iff.mp found
  have noSpace : isSpace 61 = false := by decide
  have noBlank : decide ((61 : UInt8) = 32) = false := by decide
  have zero : isSpace 0 = false := by decide
  rw [getName, findEquals_dropWhile noSpace, findEquals_dropWhile noBlank,
    findEquals_append equals, Option.bind_some, dropWhile_stop zero]
  cases start : after.dropWhile isSpace with
  | nil =>
      rw [start] at value
      obtain rfl := Option.some.inj value
      simp only [List.nil_append]
      rw [if_neg (not_not_intro (more rfl)), if_neg (by decide)]
  | cons first text =>
      rw [start] at value inside
      have clean : 0 ∉ text := fun member =>
        noNul (inside.subset (List.mem_cons_of_mem _ member))
      simp only [List.cons_append]
      rw [if_neg (by simp), cString_stop clean]
      simp only at value
      split at value
      · rename_i quoted
        split at value
        · rename_i closed
          rw [if_pos quoted, if_pos closed, Option.some.inj value]
        · cases value
      · rename_i plain
        rw [if_neg plain, ← Option.some.inj value, List.cons_append]

theorem level_stop (line behind : Bytes) :
    level (line ++ 0 :: behind) = level line := by
  rw [level, level, takeWhile_stop (by decide)]

theorem readsBehind_cons {ch : UInt8} (notPercent : ch ≠ 37)
    (url : Bytes) : readsBehind (ch :: url) = readsBehind url := by
  rw [readsBehind.eq_def]
  simp only [if_neg notPercent]

/-- Decoding depends on the byte behind the terminator only when it reads
there. -/
theorem urlGB2312Decode_eq {url : Bytes} (inside : readsBehind url = false)
    (behind other : UInt8) :
    urlGB2312Decode behind url = urlGB2312Decode other url := by
  fun_induction urlGB2312Decode behind url with
  | case1 => rfl
  | case2 => simp [readsBehind] at inside
  | case3 first => rfl
  | case4 first second url induction =>
      have rest : readsBehind url = false := inside
      rw [urlGB2312Decode, if_pos rfl, induction rest]
  | case5 url notPercent induction =>
      rw [readsBehind_cons notPercent] at inside
      rw [induction inside, urlGB2312Decode.eq_def other (_ :: url)]
      simp only [if_neg notPercent, if_true]
  | case6 ch url notPercent notPlus induction =>
      rw [readsBehind_cons notPercent] at inside
      rw [induction inside, urlGB2312Decode.eq_def other (_ :: url)]
      simp only [if_neg notPercent, if_neg notPlus]

theorem decodeValue_eq {raw : Bytes} (noNul : 0 ∉ raw)
    (inside : readsBehind raw = false) (behind : Bytes) :
    decodeValue (raw ++ 0 :: behind) = some (urlGB2312Decode 0 raw) := by
  have front : (raw ++ 0 :: behind).drop (raw.length + 1) = behind := by
    rw [← List.drop_drop, List.drop_left]
    rfl
  simp only [decodeValue, cString_stop noNul, front]
  cases behind with
  | nil => simp [inside]
  | cons byte behind => exact congrArg some (urlGB2312Decode_eq inside byte 0)

/-- A number is read up to a quote. -/
theorem atoi_quote {quote : UInt8} (quoted : isQuote quote = true)
    (text rest : Bytes) : atoi (text ++ quote :: rest) = atoi text := by
  have marks : quote = 34 ∨ quote = 39 := by
    simpa [isQuote] using quoted
  have noSpace : isSpace quote = false := by
    rcases marks with rfl | rfl <;> decide
  have noDigit : Decimal.isDigit quote = false := by
    rcases marks with rfl | rfl <;> decide
  rw [atoi, atoi, dropWhile_stop noSpace]
  cases start : text.dropWhile isSpace with
  | nil =>
      rcases marks with rfl | rfl <;> rfl
  | cons first text =>
      rw [List.cons_append]
      by_cases minus : first = 45
      · rw [minus]
        simp only [takeWhile_stop noDigit]
      · by_cases plus : first = 43
        · rw [plus]
          simp only [takeWhile_stop noDigit]
        · rw [← List.cons_append]
          split
          · rename_i equal
            exact absurd (List.cons.inj equal).1 minus
          · rename_i equal
            exact absurd (List.cons.inj equal).1 plus
          · rw [takeWhile_stop noDigit]
            split
            · rename_i equal
              exact absurd (List.cons.inj equal).1 minus
            · rename_i equal
              exact absurd (List.cons.inj equal).1 plus
            · rfl

/-- The identifier of an advertisement does not depend on the quotes. -/
theorem atoi_pointed {line raw value : Bytes}
    (found : pointed line = some raw) (meant : lineValue line = some value) :
    atoi raw = atoi value := by
  rw [pointed] at found
  rw [lineValue] at meant
  cases parsed : behindEquals line with
  | none =>
      rw [parsed] at found
      cases found
  | some text =>
      rw [parsed, Option.bind_some] at found meant
      cases text with
      | nil => rw [← Option.some.inj found, ← Option.some.inj meant]
      | cons first after =>
          simp only at found meant
          split at found
          · rename_i quoted
            split at found
            · rename_i closed
              rw [if_pos quoted, if_pos closed] at meant
              rw [← Option.some.inj found, ← Option.some.inj meant]
              obtain ⟨inner, rest, whole, absent⟩ :=
                List.eq_append_cons_of_mem closed
              rw [whole, takeWhile_stop (by simp), atoi_quote quoted]
              congr 1
              refine (List.takeWhile_eq_self_iff.mpr ?_).symm
              intro byte member
              exact decide_eq_true fun equal => absent (equal ▸ member)
            · cases found
          · rename_i plain
            rw [if_neg plain] at meant
            rw [← Option.some.inj found, ← Option.some.inj meant]

/-! ## The identifiers of a word -/

/-- An identifier is put behind fewer than sixteen others. -/
def addAd (iadvId : Int) (ads : List Int) : List Int :=
  if iadvId ∉ ads ∧ ads.length < 16 then ads ++ [iadvId] else ads

theorem pvAdInfo_fileAd (iadvId : Int) (padvId : AdFire) :
    (fileAd iadvId padvId).pvAdInfo = addAd iadvId padvId.pvAdInfo := by
  rw [fileAd, addAd]
  split <;> rfl

theorem addAd_addAd (iadvId : Int) (ads : List Int) :
    addAd iadvId (addAd iadvId ads) = addAd iadvId ads := by
  by_cases room : iadvId ∉ ads ∧ ads.length < 16
  · rw [addAd, addAd, if_pos room, if_neg (by simp)]
  · rw [addAd, addAd, if_neg room, if_neg room]

/-- Only the first sixteen identifiers are kept. -/
theorem addAd_take (iadvId : Int) (ads : List Int) :
    addAd iadvId (ads.eraseDups.take 16) =
      (ads ++ [iadvId]).eraseDups.take 16 := by
  rw [addAd, eraseDups_concat]
  by_cases present : iadvId ∈ ads
  · rw [if_pos present, if_neg]
    rintro ⟨absent, room⟩
    rw [List.length_take] at room
    rw [List.take_of_length_le (by omega), List.mem_eraseDups] at absent
    exact absent present
  · rw [if_neg present]
    by_cases room : ads.eraseDups.length < 16
    · rw [List.take_of_length_le (by omega), if_pos, List.take_of_length_le]
      · rw [List.length_append, List.length_singleton]
        omega
      · exact ⟨fun member => present (List.mem_eraseDups.mp member), room⟩
    · rw [if_neg, List.take_append_of_le_length (by omega)]
      rintro ⟨_, short⟩
      rw [List.length_take] at short
      omega

/-- The identifiers that are filed under a fingerprint. -/
def listed (pQCHashMap : HashMap AdFire) (key : Fingerprint) : List Int :=
  ((pQCHashMap.lookup key).join.map AdFire.pvAdInfo).getD []

/-- A table of the length that `load_query_content` asks for, without `NULL`
pointers. -/
structure WellFormed (pQCHashMap : HashMap AdFire) : Prop where
  hashLen : pQCHashMap.hashLen = 40960
  pointers : ∀ key, pQCHashMap.lookup key ≠ some none

theorem wellFormed_hashMapNew : WellFormed (hashMapNew 40960) :=
  ⟨rfl, fun key => by simp⟩

theorem WellFormed.searchable {pQCHashMap : HashMap AdFire}
    (wellFormed : WellFormed pQCHashMap) : pQCHashMap.Searchable := by
  rw [HashMap.Searchable, wellFormed.hashLen]
  decide

/-- A word that is filed changes what is listed under its fingerprint. -/
theorem fileWord_eq {pQCHashMap : HashMap AdFire}
    (wellFormed : WellFormed pQCHashMap) (iadvId : Int) (word : Bytes) :
    ∃ filed, fileWord pQCHashMap iadvId word = some filed ∧
      WellFormed filed ∧
      ∀ key, listed filed key =
        if key = keyOf word then addAd iadvId (listed pQCHashMap key)
        else listed pQCHashMap key := by
  have place : fingerprint pQCHashMap.hashLen word word.length =
      keyOf word := by
    rw [wellFormed.hashLen, keyOf]
  rw [fileWord, findObject_eq wellFormed.searchable, place]
  cases stored : pQCHashMap.lookup (keyOf word) with
  | none =>
      refine ⟨_, rfl, ⟨?_, fun key => ?_⟩, fun key => ?_⟩
      · rw [hashLen_hashMapInsert, wellFormed.hashLen]
      · by_cases same : key = keyOf word
        · rw [same, ← place, lookup_hashMapInsert_same]
          simp
        · rw [← place] at same
          rw [lookup_hashMapInsert_other _ _ _ _ same]
          exact wellFormed.pointers key
      · by_cases same : key = keyOf word
        · rw [if_pos same, same, listed, listed, stored, ← place,
            lookup_hashMapInsert_same, place, stored]
          rfl
        · rw [if_neg same, listed, listed, lookup_hashMapInsert_other]
          rwa [place]
  | some pointer =>
      cases pointer with
      | none => exact absurd stored (wellFormed.pointers _)
      | some padvId =>
          refine ⟨_, rfl, ⟨wellFormed.hashLen, fun key => ?_⟩, fun key => ?_⟩
          · by_cases same : key = keyOf word
            · rw [same, lookup_writeValue_same, stored]
              simp
            · rw [lookup_writeValue_other _ same]
              exact wellFormed.pointers key
          · by_cases same : key = keyOf word
            · rw [if_pos same, same, listed, listed,
                lookup_writeValue_same, stored]
              exact pvAdInfo_fileAd iadvId padvId
            · rw [if_neg same, listed, listed,
                lookup_writeValue_other _ same]

/-! ## One line -/

namespace Loader

variable {loader : Loader}

theorem adsUnder_append (key : Fingerprint) (parts later : List (Bytes × Int)) :
    adsUnder key (parts ++ later) =
      adsUnder key parts ++ adsUnder key later := by
  rw [adsUnder, adsUnder, adsUnder, List.filter_append, List.map_append]

/-- What is listed once some parts are filed. -/
structure Filed (before after : HashMap AdFire) (parts : List (Bytes × Int)) :
    Prop where
  table : WellFormed after
  lists : ∀ key, listed after key =
    (adsUnder key parts).foldl (fun filed iadvId => addAd iadvId filed)
      (listed before key)

theorem Filed.refl {pQCHashMap : HashMap AdFire}
    (wellFormed : WellFormed pQCHashMap) : Filed pQCHashMap pQCHashMap [] :=
  ⟨wellFormed, fun _ => rfl⟩

theorem Filed.trans {before middle after : HashMap AdFire}
    {parts later : List (Bytes × Int)} (first : Filed before middle parts)
    (second : Filed middle after later) :
    Filed before after (parts ++ later) := by
  refine ⟨second.table, fun key => ?_⟩
  rw [second.lists, first.lists, adsUnder_append, List.foldl_append]

theorem filed_fileWord {pQCHashMap : HashMap AdFire}
    (wellFormed : WellFormed pQCHashMap) (iadvId : Int) (word : Bytes) :
    ∃ filed, fileWord pQCHashMap iadvId word = some filed ∧
      Filed pQCHashMap filed [(word, iadvId)] := by
  obtain ⟨filed, done, table, lists⟩ := fileWord_eq wellFormed iadvId word
  refine ⟨filed, done, table, fun key => ?_⟩
  rw [lists, adsUnder, List.filter_singleton]
  by_cases same : key = keyOf word
  · simp [same]
  · simp [same, Ne.symm same]

/-- The parts of a line are filed. -/
theorem fileWords_eq {call : Nat} (iadvId : Int) {p : List (Bytes × Nat)}
    {pQCHashMap : HashMap AdFire} (wellFormed : WellFormed pQCHashMap) :
    ∃ filed,
      loader.fileWords call iadvId p pQCHashMap = some filed ∧
        Filed pQCHashMap filed ((loader.kept call p).map (·, iadvId)) := by
  induction p generalizing pQCHashMap with
  | nil => exact ⟨pQCHashMap, rfl, .refl wellFormed⟩
  | cons part p induction =>
      obtain ⟨word, j⟩ := part
      rw [fileWords, kept, List.filter_cons]
      by_cases absent : (hashMapFind loader.stopWords word
          (toInt32 (loader.address call j))).ret < 0
      · rw [if_pos absent, if_pos (decide_eq_true absent), List.map_cons,
          List.map_cons, ← kept]
        obtain ⟨first, done, filed⟩ := filed_fileWord wellFormed iadvId word
        obtain ⟨last, loop, later⟩ := induction filed.table
        rw [done]
        exact ⟨last, loop, filed.trans later⟩
      · rw [if_neg absent, if_neg (by simpa using absent), ← kept]
        exact induction wellFormed

/-- A line is cut and its parts are filed, or a pointer leaves the buffer. -/
theorem loadLine_simulates {stored : Bytes} {state : LoadState}
    (wellFormed : WellFormed state.pQCHashMap) :
    (loader.cutLine stored state.place = none ∧
        loader.loadLine stored state = none) ∨
      ∃ line next, loader.cutLine stored state.place = some line ∧
        loader.loadLine stored state = some next ∧ next.place = line.1 ∧
        Filed state.pQCHashMap next.pQCHashMap
          (line.2.map (·, state.iadvId)) := by
  simp only [cutLine, loadLine, Place.line, LoadState.place, cutValue,
    loadKeyword]
  cases (getName ((trimLine (putLine stored state.curLine)).dropWhile
    (· = 32))).bind id with
  | none => exact .inl ⟨rfl, rfl⟩
  | some value =>
      simp only [Option.bind_some]
      by_cases top : level (trimLine (putLine stored state.curLine)) = 0
      · simp only [top, reduceIte]
        exact .inr ⟨_, _, rfl, rfl, rfl, .refl wellFormed⟩
      · simp only [top, reduceIte]
        cases decodeValue value with
        | none => exact .inl ⟨rfl, rfl⟩
        | some dest =>
            simp only [Option.bind_some]
            by_cases few : (loader.cutWords (cString dest)).length < 120
            · obtain ⟨filed, loop, lists⟩ :=
                @fileWords_eq loader state.calls state.iadvId
                  (loader.cutWords (cString dest)).zipIdx _ wellFormed
              simp only [if_pos few, loop]
              exact .inr ⟨_, _, rfl, rfl, rfl, lists⟩
            · simp only [if_neg few]
              exact .inl ⟨rfl, rfl⟩

/-- The lines are cut and their parts are filed, or a pointer leaves the
buffer on the way. -/
theorem loadLines_simulates {storedLines : List Bytes} {state : LoadState}
    (wellFormed : WellFormed state.pQCHashMap) :
    (loader.cutLines storedLines state.place = none ∧
        loader.loadLines storedLines state = none) ∨
      ∃ parts last, loader.cutLines storedLines state.place = some parts ∧
        loader.loadLines storedLines state = some last ∧
        Filed state.pQCHashMap last.pQCHashMap parts := by
  induction storedLines generalizing state with
  | nil => exact .inr ⟨[], state, rfl, rfl, .refl wellFormed⟩
  | cons stored rest induction =>
      rw [cutLines, loadLines]
      rcases @loadLine_simulates loader stored state wellFormed with
        ⟨cut, line⟩ | ⟨line, next, cut, done, place, filed⟩
      · rw [cut, line]
        exact .inl ⟨rfl, rfl⟩
      · rw [cut, done, Option.bind_some, Option.bind_some, ← place]
        rcases induction filed.table with
          ⟨later, loop⟩ | ⟨parts, last, later, loop, lists⟩
        · rw [later, loop]
          exact .inl ⟨rfl, rfl⟩
        · rw [later, loop]
          exact .inr ⟨_, last, rfl, rfl, filed.trans lists⟩

end Loader

/-! ## The lines that are read -/

/-- A line that is too long is read up to the size of the array. -/
theorem fgets_long {room : Nat} {line : Bytes} (noNewline : 10 ∉ line)
    (long : room ≤ line.length) (behind : Bytes) :
    (fgets room (line ++ behind)).stored = line.take room ∧
      (fgets room (line ++ behind)).rest = line.drop room ++ behind := by
  induction line generalizing room with
  | nil =>
      cases Nat.le_zero.mp long
      exact ⟨rfl, rfl⟩
  | cons byte line induction =>
      cases room with
      | zero => exact ⟨rfl, rfl⟩
      | succ room =>
          have other : byte ≠ 10 := fun equal =>
            noNewline (equal ▸ List.mem_cons_self)
          obtain ⟨front, remaining⟩ := induction
            (fun member => noNewline (List.mem_cons_of_mem _ member))
            (Nat.le_of_succ_le_succ long)
          rw [List.cons_append, fgets, if_neg other, List.take_succ_cons,
            List.drop_succ_cons]
          exact ⟨congrArg (byte :: ·) front, remaining⟩

theorem readLines_long {line : Bytes} (noNewline : 10 ∉ line)
    (long : lineSize ≤ line.length + 1) (behind : Bytes) :
    readLines (line ++ behind) =
      line.take (lineSize - 1) ::
        readLines (line.drop (lineSize - 1) ++ behind) := by
  obtain ⟨front, remaining⟩ := @fgets_long (lineSize - 1) line noNewline
    (Nat.sub_le_of_le_add long) behind
  have some : line.take (lineSize - 1) ≠ [] := by
    rw [← List.length_pos_iff, List.length_take]
    simp only [lineSize] at long ⊢
    omega
  rw [readLines]
  simp only [front, remaining, if_neg some]

theorem readLines_line {line : Bytes} (noNewline : 10 ∉ line)
    (fits : line.length + 1 < lineSize) (rest : Bytes) :
    readLines (line ++ 10 :: rest) = (line ++ [10]) :: readLines rest := by
  have read := @fgets_line (lineSize - 1) line noNewline
    (Nat.lt_sub_of_add_lt fits) rest
  rw [readLines]
  simp [read]

theorem readLines_last {line : Bytes} (noNewline : 10 ∉ line)
    (fits : line.length + 1 < lineSize) :
    readLines line = if line = [] then [] else [line] := by
  have read := @fgets_last (lineSize - 1) line noNewline
    (Nat.lt_sub_of_add_lt fits)
  have done : readLines [] = [] := by
    rw [readLines]
    rfl
  rw [readLines]
  simp only [read, done]

/-- What is read fits into the array and is a part of the file. -/
theorem mem_readLines {file stored : Bytes}
    (member : stored ∈ readLines file) :
    stored.length < lineSize ∧ stored ⊆ file := by
  induction file using readLines.induct with
  | case1 file reading empty =>
      rw [readLines] at member
      simp only [reading] at empty
      simp [empty] at member
  | case2 file reading some induction =>
      simp only [reading] at some induction
      have parts := fgets_append (lineSize - 1) file
      rw [readLines] at member
      simp only [if_neg some, List.mem_cons] at member
      rcases member with rfl | later
      · refine ⟨Nat.lt_of_le_sub_one (by decide)
          (length_stored_le (lineSize - 1) file), ?_⟩
        exact fun byte inside =>
          parts ▸ List.mem_append_left _ inside
      · obtain ⟨short, inside⟩ := induction later
        exact ⟨short, fun byte member =>
          parts ▸ List.mem_append_right _ (inside member)⟩

/-- A blank text is read as blank lines. -/
theorem readLines_blank {tail : Bytes} {after : List Bytes}
    (near : ∀ blank : Bytes, 10 ∉ blank →
      (∀ byte ∈ blank, isSpace byte = true) → blank.length + 1 < lineSize →
        ∃ number, (readLines (blank ++ tail)).map rtrim =
          List.replicate number [] ++ after)
    (blank : Bytes) (noNewline : 10 ∉ blank)
    (spaces : ∀ byte ∈ blank, isSpace byte = true) :
    ∃ number, (readLines (blank ++ tail)).map rtrim =
      List.replicate number [] ++ after := by
  by_cases fits : blank.length + 1 < lineSize
  · exact near blank noNewline spaces fits
  · have less : (blank.drop (lineSize - 1)).length < blank.length := by
      rw [List.length_drop]
      simp only [lineSize] at fits ⊢
      omega
    obtain ⟨number, rest⟩ := readLines_blank near
      (blank.drop (lineSize - 1))
      (fun member => noNewline (List.mem_of_mem_drop member))
      (fun byte member => spaces byte (List.mem_of_mem_drop member))
    have first : rtrim (blank.take (lineSize - 1)) = [] :=
      @rtrim_append_blank _
        (fun byte member => spaces byte (List.mem_of_mem_take member)) []
    refine ⟨number + 1, ?_⟩
    rw [readLines_long noNewline (Nat.le_of_not_lt fits), List.map_cons, rest,
      first, List.replicate_succ, List.cons_append]
termination_by blank.length
decreasing_by exact less

/-- A line is read as its text and as blank lines behind it. -/
theorem readLines_of_fits {line tail : Bytes} {after : List Bytes}
    (noNewline : 10 ∉ line)
    (spaces : ∀ byte ∈ line.drop (lineSize - 1), isSpace byte = true)
    (near : ∀ text : Bytes, 10 ∉ text → text.length + 1 < lineSize →
      (text = [] ∧ (readLines (text ++ tail)).map rtrim = after) ∨
        (readLines (text ++ tail)).map rtrim = rtrim text :: after) :
    (line = [] ∧ (readLines (line ++ tail)).map rtrim = after) ∨
      ∃ number, (readLines (line ++ tail)).map rtrim =
        rtrim line :: (List.replicate number [] ++ after) := by
  by_cases fits : line.length + 1 < lineSize
  · exact (near line noNewline fits).imp_right fun read => ⟨0, read⟩
  · obtain ⟨number, rest⟩ := readLines_blank
      (fun blank clean blanks short => by
        have empty : rtrim blank = [] := @rtrim_append_blank _ blanks []
        rcases near blank clean short with ⟨-, read⟩ | read
        · exact ⟨0, read⟩
        · exact ⟨1, by rw [read, empty]; rfl⟩)
      (line.drop (lineSize - 1))
      (fun member => noNewline (List.mem_of_mem_drop member)) spaces
    have whole : rtrim line = rtrim (line.take (lineSize - 1)) := by
      conv_lhs => rw [← List.take_append_drop (lineSize - 1) line]
      exact rtrim_append_blank spaces _
    refine .inr ⟨number, ?_⟩
    rw [readLines_long noNewline (Nat.le_of_not_lt fits), List.map_cons, rest,
      whole]

namespace Loader

variable {loader : Loader}

theorem adsWith_blank (wanted : Bytes → Bool) (advId : Option Int)
    (number : Nat) (texts : List Bytes) :
    loader.adsWith wanted advId (List.replicate number [] ++ texts) =
      loader.adsWith wanted advId texts := by
  induction number with
  | zero => rfl
  | succ number induction => exact induction

/-- A line and the blank lines behind it are one line. -/
theorem adsWith_cons_blank {wanted : Bytes → Bool} {line : Bytes}
    {number : Nat} {texts others : List Bytes}
    (same : ∀ advId, loader.adsWith wanted advId texts =
      loader.adsWith wanted advId others) (advId : Option Int) :
    loader.adsWith wanted advId
        (line :: (List.replicate number [] ++ texts)) =
      loader.adsWith wanted advId (line :: others) := by
  rw [adsWith, adsWith]
  simp only [adsWith_blank, same]

/-- What is read of a file whose lines fit has the same advertisements. -/
theorem adsWith_readLines {file : Bytes} (short : LinesFit file)
    (wanted : Bytes → Bool) (advId : Option Int) :
    loader.adsWith wanted advId ((readLines file).map rtrim) =
      loader.adsWith wanted advId (textLines file) := by
  induction file using lines_induction generalizing advId with
  | last line noNewline =>
      have spaces : ∀ byte ∈ line.drop (lineSize - 1),
          isSpace byte = true := by
        by_cases empty : line = []
        · simp [empty]
        · refine short line (mem_lines.mpr (.inr ⟨?_, empty⟩))
          rw [lastLine_of_not_mem noNewline]
      have read := @readLines_of_fits line [] [] noNewline spaces
        fun text clean fits => by
          rw [List.append_nil, readLines_last clean fits]
          split_ifs with empty
          · exact .inl ⟨empty, rfl⟩
          · exact .inr rfl
      rw [List.append_nil] at read
      rw [textLines, lines, terminated_of_not_mem noNewline,
        lastLine_of_not_mem noNewline]
      rcases read with ⟨rfl, read⟩ | ⟨number, read⟩
      · rw [read]
        rfl
      · rw [read]
        split_ifs with empty
        · rw [empty]
          exact adsWith_cons_blank (fun _ => rfl) advId
        · exact adsWith_cons_blank (fun _ => rfl) advId
  | front line rest noNewline induction =>
      have split : lines (line ++ 10 :: rest) = line :: lines rest := by
        rw [lines, lines, terminated_line noNewline,
          lastLine_line noNewline, List.cons_append]
      rw [LinesFit, split, List.forall_mem_cons] at short
      have read := @readLines_of_fits line (10 :: rest)
        ((readLines rest).map rtrim) noNewline short.1
        fun text clean fits => .inr (by
          rw [readLines_line clean fits, List.map_cons, rtrim_newline])
      rw [textLines, split, List.map_cons, ← textLines]
      rcases read with ⟨rfl, read⟩ | ⟨number, read⟩
      · rw [read]
        exact induction short.2 advId
      · rw [read]
        exact adsWith_cons_blank (induction short.2) advId

end Loader

/-- Identifiers that are filed one after the other. -/
theorem foldl_addAd (before ads : List Int) :
    ads.foldl (fun filed iadvId => addAd iadvId filed)
        (before.eraseDups.take 16) =
      (before ++ ads).eraseDups.take 16 := by
  induction ads generalizing before with
  | nil => rw [List.foldl_nil, List.append_nil]
  | cons iadvId ads induction =>
      rw [List.foldl_cons, addAd_take, induction, List.append_assoc,
        List.singleton_append]

theorem mem_listed {pQCHashMap : HashMap AdFire}
    (wellFormed : WellFormed pQCHashMap) (key : Fingerprint)
    (iadvId : Int) :
    (∃ padvId, pQCHashMap.lookup key = some (some padvId) ∧
        iadvId ∈ padvId.pvAdInfo) ↔
      iadvId ∈ listed pQCHashMap key := by
  rw [listed]
  cases stored : pQCHashMap.lookup key with
  | none => simp
  | some pointer =>
      cases pointer with
      | none => exact absurd stored (wellFormed.pointers key)
      | some padvId => simp

namespace Loader

variable {loader : Loader}

/-- What is filed for a keyword line. -/
theorem foldl_adsUnder_line {iadvId : Int} {parts : List Bytes}
    (key : Fingerprint) (ads : List Int) :
    (adsUnder key (parts.map (·, iadvId))).foldl
        (fun filed iadvId => addAd iadvId filed) ads =
      if parts.any (keyOf · = key) then addAd iadvId ads else ads := by
  induction parts generalizing ads with
  | nil => rfl
  | cons part parts induction =>
      rw [List.map_cons, adsUnder, List.filter_cons, List.any_cons]
      by_cases here : keyOf part = key
      · rw [if_pos (decide_eq_true here), List.map_cons, List.foldl_cons,
          ← adsUnder, induction, decide_eq_true here, Bool.true_or,
          if_pos rfl]
        split_ifs
        · exact addAd_addAd iadvId ads
        · rfl
      · rw [if_neg (by simpa using here), ← adsUnder, induction,
          decide_eq_false here, Bool.false_or]

/-- What is read of a line with a value. -/
theorem cutLine_value {stored raw : Bytes} {place : Place}
    (terminated : Terminated place.curLine) (noNul : 0 ∉ stored)
    (fits : stored.length < lineSize)
    (room : raw = [] → (rtrim stored).length + 1 < lineSize)
    (found : pointed (rtrim stored) = some raw) :
    Terminated (place.line stored) ∧
      ∃ behind, loader.cutLine stored place =
        if level (rtrim stored) = 0 then
          some (⟨place.line stored, atoi raw, place.calls⟩, [])
        else
          (loader.cutValue place.calls (raw ++ 0 :: behind)).map
            fun parts =>
              (⟨place.line stored, place.iadvId, place.calls + 1⟩,
                parts) := by
  obtain ⟨behind, trimmed, kept⟩ := trimLine_putLine terminated noNul fits
  have clean : 0 ∉ rtrim stored := fun member =>
    noNul ((isPrefix_rtrim stored).subset member)
  have rawClean : 0 ∉ raw := fun member =>
    clean ((pointed_suffix found).subset member)
  have name := getName_eq clean
    (fun empty => kept.zero_mem (room empty)) found
  refine ⟨by rw [Place.line, trimmed]; exact kept, behind, ?_⟩
  simp only [cutLine, Place.line, trimmed, name, Option.bind_some, id,
    level_stop, cString_stop rawClean]

/-- A line without a value sets the number that is left in the buffer. -/
theorem cutLine_blank {stored value : Bytes} {place : Place}
    (terminated : Terminated place.curLine) (noNul : 0 ∉ stored)
    (fits : stored.length < lineSize) (top : level (rtrim stored) = 0)
    (named : getName ((place.line stored).dropWhile (· = 32)) =
      some (some value)) :
    Terminated (place.line stored) ∧
      loader.cutLine stored place =
        some (⟨place.line stored, atoi (cString value), place.calls⟩,
          []) := by
  obtain ⟨behind, trimmed, kept⟩ := trimLine_putLine terminated noNul fits
  have same : level (place.line stored) = 0 := by
    rw [Place.line, trimmed, level_stop, top]
  refine ⟨by rw [Place.line, trimmed]; exact kept, ?_⟩
  simp only [cutLine, named, Option.bind_some, id, same, reduceIte]

theorem cutValue_eq {call : Nat} {raw value : Bytes} (noNul : 0 ∉ raw)
    (keyword : loader.KeywordFits call raw value) (behind : Bytes) :
    loader.cutValue call (raw ++ 0 :: behind) =
      some (loader.kept call (loader.cutWords (decoded raw)).zipIdx) := by
  rw [cutValue, decodeValue_eq noNul keyword.percent, Option.bind_some,
    ← decoded]
  exact if_pos keyword.parts

theorem KeywordFits.any_kept {call : Nat} {raw value : Bytes}
    (keyword : loader.KeywordFits call raw value) (wanted : Bytes → Bool) :
    (loader.kept call (loader.cutWords (decoded raw)).zipIdx).any wanted =
      (loader.tokens value).any wanted := by
  rw [Bool.eq_iff_iff, List.any_eq_true, List.any_eq_true]
  exact exists_congr fun word => and_congr_left' (keyword.same word)

/-- An orderly file is cut into the tokens of its lines. -/
theorem cutLines_of_orderly {advId : Option Int} {storedLines : List Bytes}
    (stores : ∀ stored ∈ storedLines, stored.length < lineSize ∧ 0 ∉ stored)
    {place : Place} (terminated : Terminated place.curLine)
    (orderly : loader.Orderly advId place storedLines) :
    ∃ parts, loader.cutLines storedLines place = some parts ∧
      ∀ key ads, (adsUnder key parts).foldl
          (fun filed iadvId => addAd iadvId filed) ads =
        (loader.adsWith (keyOf · = key) advId
          (storedLines.map rtrim)).foldl
            (fun filed iadvId => addAd iadvId filed) ads := by
  induction storedLines generalizing advId place with
  | nil => exact ⟨[], rfl, fun _ _ => rfl⟩
  | cons stored rest induction =>
      obtain ⟨⟨fits, noNul⟩, later⟩ := List.forall_mem_cons.mp stores
      rw [Orderly] at orderly
      rw [List.map_cons, cutLines]
      simp only [adsWith]
      cases found : pointed (rtrim stored) with
      | none =>
          have meant : lineValue (rtrim stored) = none := by
            rw [← Option.not_isSome_iff_eq_none, ← isSome_pointed, found]
            exact Bool.false_ne_true
          simp only [found, meant] at orderly ⊢
          obtain ⟨top, value, named, orderly⟩ := orderly
          obtain ⟨kept, cut⟩ :=
            @cutLine_blank loader _ _ place terminated noNul fits top named
          obtain ⟨parts, loop, lists⟩ := induction later kept orderly
          rw [cut, Option.bind_some, loop]
          exact ⟨parts, rfl, lists⟩
      | some raw =>
          obtain ⟨value, meant⟩ : ∃ value,
              lineValue (rtrim stored) = some value := by
            rw [← Option.isSome_iff_exists, ← isSome_pointed, found]
            rfl
          simp only [found, meant] at orderly ⊢
          obtain ⟨room, orderly⟩ := orderly
          obtain ⟨kept, behind, cut⟩ :=
            @cutLine_value loader _ _ place terminated noNul fits room found
          have rawClean : 0 ∉ raw := fun member =>
            noNul ((isPrefix_rtrim stored).subset
              ((pointed_suffix found).subset member))
          rw [cut]
          by_cases top : level (rtrim stored) = 0
          · rw [if_pos top] at orderly
            obtain ⟨parts, loop, lists⟩ := induction later kept orderly
            rw [atoi_pointed found meant, if_pos top, Option.bind_some, loop]
            refine ⟨parts, rfl, fun key ads => ?_⟩
            rw [if_pos top]
            exact lists key ads
          · rw [if_neg top] at orderly
            obtain ⟨keyword, below, orderly⟩ := orderly
            obtain ⟨parts, loop, lists⟩ := induction later kept orderly
            rw [if_neg top, cutValue_eq rawClean keyword, Option.map_some,
              Option.bind_some, loop]
            refine ⟨_, rfl, fun key ads => ?_⟩
            rw [if_neg top, adsUnder_append, List.foldl_append,
              List.foldl_append, lists, foldl_adsUnder_line,
              keyword.any_kept]
            congr 1
            by_cases wanted :
                (loader.tokens value).any (keyOf · = key) = true
            · have token : loader.tokens value ≠ [] := by
                rintro none
                rw [none] at wanted
                cases wanted
              rw [if_pos wanted, if_pos wanted, below token]
              rfl
            · rw [if_neg wanted, if_neg wanted]
              rfl

/-- What is listed depends on the tokens that are wanted. -/
theorem adsWith_congr {wanted other : Bytes → Bool} {advId : Option Int}
    {texts : List Bytes}
    (agree : ∀ line ∈ texts, ∀ value ∈ lineValue line,
      (loader.tokens value).any wanted = (loader.tokens value).any other) :
    loader.adsWith wanted advId texts =
      loader.adsWith other advId texts := by
  induction texts generalizing advId with
  | nil => rfl
  | cons line texts induction =>
      have later := fun rest member =>
        agree rest (List.mem_cons_of_mem line member)
      rw [adsWith, adsWith]
      cases meant : lineValue line with
      | none => exact induction later
      | some value =>
          simp only [agree line List.mem_cons_self value meant,
            induction later]

theorem adsWith_false (advId : Option Int) (texts : List Bytes) :
    loader.adsWith (fun _ => false) advId texts = [] := by
  induction texts generalizing advId with
  | nil => rfl
  | cons line texts induction =>
      rw [adsWith]
      cases lineValue line with
      | none => exact induction advId
      | some value => simp [induction]

/-- The words with the fingerprint of a token that is alone. -/
theorem adsWith_alone {token file : Bytes} (alone : loader.Alone token file) :
    loader.adsWith (keyOf · = keyOf token) none (textLines file) =
      if loader.IsStopWord token then [] else loader.adsOf token file := by
  split
  · rename_i stopWord
    rw [← adsWith_false none (textLines file)]
    refine adsWith_congr fun line member value meant => ?_
    refine (List.any_eq_false.mpr ?_).trans (by simp)
    intro word wordMember same
    have equal := alone line member value meant word wordMember
      (of_decide_eq_true same)
    rw [equal, tokens, List.mem_filter] at wordMember
    exact of_decide_eq_true wordMember.2 stopWord
  · rw [adsOf]
    refine adsWith_congr fun line member value meant => ?_
    rw [Bool.eq_iff_iff, List.any_eq_true, List.any_eq_true]
    refine exists_congr fun word => and_congr_right fun wordMember => ?_
    rw [decide_eq_true_eq, beq_iff_eq]
    exact ⟨alone line member value meant word wordMember, congrArg keyOf⟩

/-- A file is loaded exactly if it is cut exactly. -/
theorem loadsExactly_iff_cutsExactly {file : Bytes} :
    loader.LoadsExactly file ↔ loader.CutsExactly file := by
  have wellFormed := wellFormed_hashMapNew
  have place : LoadState.place
      ⟨List.replicate lineSize 0, 0, 0, hashMapNew 40960⟩ = Place.first :=
    rfl
  rcases @loadLines_simulates loader (readLines file)
      ⟨List.replicate lineSize 0, 0, 0, hashMapNew 40960⟩ wellFormed with
    ⟨cut, loop⟩ | ⟨parts, last, cut, loop, filed⟩
  · rw [place] at cut
    refine iff_of_false ?_ ?_
    · rintro ⟨pQCHashMap, loaded, _⟩
      rw [rulePopLoadQueryContent, loop] at loaded
      cases loaded
    · rintro ⟨parts, given, _⟩
      rw [cut] at given
      cases given
  · rw [place] at cut
    have loaded : rulePopLoadQueryContent loader (hashMapNew 40960)
        (some file) = some last.pQCHashMap := by
      rw [rulePopLoadQueryContent, loop]
      rfl
    have kept : ∀ key, listed last.pQCHashMap key =
        (adsUnder key parts).eraseDups.take 16 := fun key =>
      (filed.lists key).trans (foldl_addAd [] _)
    constructor
    · rintro ⟨pQCHashMap, same, exactly⟩
      obtain rfl := Option.some_inj.mp (loaded.symm.trans same)
      refine ⟨parts, cut, fun token alone iadvId => ?_⟩
      rw [← exactly.maps token alone iadvId, ← keyOf,
        mem_listed filed.table, kept]
    · rintro ⟨others, same, exactly⟩
      obtain rfl := Option.some_inj.mp (cut.symm.trans same)
      refine ⟨last.pQCHashMap, loaded, ?_, ?_⟩
      · intro token alone iadvId
        rw [← exactly token alone iadvId, ← keyOf, mem_listed filed.table,
          kept]
      · intro key padvId stored
        have ads : listed last.pQCHashMap key = padvId.pvAdInfo := by
          rw [listed, stored]
          rfl
        rw [← ads, kept]
        exact (nodup_eraseDups _).sublist (List.take_sublist _ _)

theorem cutsExactly_of_orderly {file : Bytes} (noNul : 0 ∉ file)
    (short : LinesFit file)
    (orderly : loader.Orderly none Place.first (readLines file)) :
    loader.CutsExactly file := by
  have stores : ∀ stored ∈ readLines file,
      stored.length < lineSize ∧ 0 ∉ stored := by
    intro stored member
    obtain ⟨fits, inside⟩ := mem_readLines member
    exact ⟨fits, fun zero => noNul (inside zero)⟩
  have terminated : Terminated Place.first.curLine :=
    ⟨List.length_replicate, _, List.replicate_succ'⟩
  obtain ⟨parts, cut, lists⟩ := cutLines_of_orderly stores terminated orderly
  refine ⟨parts, cut, fun token alone iadvId => ?_⟩
  have same : (adsUnder (keyOf token) parts).eraseDups.take 16 =
      (loader.adsWith (keyOf · = keyOf token) none
        (textLines file)).eraseDups.take 16 := by
    have ads := lists (keyOf token) ([] : List Int).eraseDups
    rw [adsWith_readLines short] at ads
    exact (foldl_addAd [] _).symm.trans (ads.trans (foldl_addAd [] _))
  rw [same, adsWith_alone alone]
  split_ifs with stopWord
  · simp [stopWord]
  · exact (and_iff_right stopWord).symm

/--
A file is loaded exactly if and only if it is cut exactly, and so is every
orderly file.

The parts of the lines are filed as they are cut, with the number that is in
force.
-/
theorem loadsExactly_iff (loader : Loader) (file : Bytes) :
    (loader.LoadsExactly file ↔ loader.CutsExactly file) ∧
      (0 ∉ file → LinesFit file →
        loader.Orderly none Place.first (readLines file) →
          loader.LoadsExactly file) :=
  ⟨loadsExactly_iff_cutsExactly, fun noNul short orderly =>
    loadsExactly_iff_cutsExactly.mpr
      (cutsExactly_of_orderly noNul short orderly)⟩

end Loader

section Orderly

variable {loader : Loader} {advId : Option Int} {place : Place}
  {stored raw value : Bytes} {rest : List Bytes}

theorem Loader.Orderly.ad (found : pointed (rtrim stored) = some raw)
    (meant : lineValue (rtrim stored) = some value)
    (top : level (rtrim stored) = 0) (some_value : raw ≠ [])
    (later : loader.Orderly (some (atoi value))
      ⟨place.line stored, atoi value, place.calls⟩ rest) :
    loader.Orderly advId place (stored :: rest) := by
  rw [Orderly]
  simp only [found, meant]
  refine ⟨fun empty => absurd empty some_value, ?_⟩
  rwa [if_pos top]

theorem Loader.Orderly.keyword (found : pointed (rtrim stored) = some raw)
    (meant : lineValue (rtrim stored) = some value)
    (below : level (rtrim stored) ≠ 0) (some_value : raw ≠ [])
    (fits : loader.KeywordFits place.calls raw value)
    (inForce : advId = some place.iadvId)
    (later : loader.Orderly advId
      ⟨place.line stored, place.iadvId, place.calls + 1⟩ rest) :
    loader.Orderly advId place (stored :: rest) := by
  rw [Orderly]
  simp only [found, meant]
  refine ⟨fun empty => absurd empty some_value, ?_⟩
  rw [if_neg below]
  exact ⟨fits, fun _ => inForce, later⟩

theorem Loader.Orderly.blank (found : pointed (rtrim stored) = none)
    (top : level (rtrim stored) = 0)
    (named : getName ((place.line stored).dropWhile (· = 32)) =
      some (some value))
    (later : loader.Orderly advId
      ⟨place.line stored, atoi (cString value), place.calls⟩ rest) :
    loader.Orderly advId place (stored :: rest) := by
  rw [Orderly]
  simp only [found]
  exact ⟨top, value, named, later⟩

end Orderly

/-- A loader without stop words whose segmenter leaves a text as it is. -/
def wholeTexts : Loader where
  stopWords := hashMapNew 40960
  words text := [text]
  address _ _ := 0

/-- A value that is one token fits where nothing is a stop word. -/
theorem wholeTexts_keywordFits (call : Nat) {text : Bytes}
    (percent : readsBehind text = false)
    (parts : strtokAny (ascii "-MEG-") (decoded text) = [decoded text]) :
    wholeTexts.KeywordFits call text text := by
  have cut : wholeTexts.cutWords (decoded text) = [decoded text] := by
    rw [Loader.cutWords, Loader.mixSegmentCut]
    simpa [wholeTexts] using parts
  refine ⟨percent, ?_, fun word => ?_⟩
  · rw [cut, List.length_singleton]
    exact Nat.lt_of_sub_pos (by decide)
  · rw [cut, Loader.kept, Loader.tokens]
    simp [hashMapFind_eq, wholeTexts, Loader.IsStopWord]

/-- Two advertisements with plain keywords and a blank line between them. -/
def plainKeywords : Bytes :=
  ascii "ad=7\n    kw=car\n    kw=b%75s\n\nad=9\n    kw=car\n"

theorem plainKeywords_loaded :
    (0 ∉ plainKeywords ∧ LinesFit plainKeywords ∧
      wholeTexts.Orderly none Place.first (readLines plainKeywords)) ∧
      wholeTexts.LoadsExactly plainKeywords := by
  have noNul : 0 ∉ plainKeywords := by decide
  have short : LinesFit plainKeywords := by
    unfold LinesFit
    decide +kernel
  have car : ∀ call, wholeTexts.KeywordFits call (ascii "car")
      (ascii "car") := fun call =>
    wholeTexts_keywordFits call (by decide) (by decide +kernel)
  have bus : ∀ call, wholeTexts.KeywordFits call (ascii "b%75s")
      (ascii "b%75s") := fun call =>
    wholeTexts_keywordFits call (by decide) (by decide +kernel)
  have orderly :
      wholeTexts.Orderly none Place.first (readLines plainKeywords) := by
    have read : readLines plainKeywords =
        [ascii "ad=7\n", ascii "    kw=car\n", ascii "    kw=b%75s\n",
          ascii "\n", ascii "ad=9\n", ascii "    kw=car\n"] := by
      decide +kernel
    rw [read]
    apply Loader.Orderly.ad (by decide +kernel : _ = some (ascii "7"))
      (by decide +kernel : _ = some (ascii "7")) (by decide +kernel)
      (by decide)
    apply Loader.Orderly.keyword
      (by decide +kernel : _ = some (ascii "car"))
      (by decide +kernel : _ = some (ascii "car")) (by decide +kernel)
      (by decide) (car 0) (by rfl)
    apply Loader.Orderly.keyword
      (by decide +kernel : _ = some (ascii "b%75s"))
      (by decide +kernel : _ = some (ascii "b%75s")) (by decide +kernel)
      (by decide) (bus 1) (by rfl)
    apply Loader.Orderly.blank (by decide +kernel) (by decide +kernel)
      (by decide +kernel : _ = some (some (ascii "b%75s" ++
        List.replicate 1012 0)))
    apply Loader.Orderly.ad (by decide +kernel : _ = some (ascii "9"))
      (by decide +kernel : _ = some (ascii "9")) (by decide +kernel)
      (by decide)
    apply Loader.Orderly.keyword
      (by decide +kernel : _ = some (ascii "car"))
      (by decide +kernel : _ = some (ascii "car")) (by decide +kernel)
      (by decide) (car 2) (by rfl)
    trivial
  exact ⟨⟨noNul, short, orderly⟩,
    (Loader.loadsExactly_iff wholeTexts plainKeywords).2 noNul short orderly⟩

/-- A quoted keyword is filed with its closing quote, a blank line in front is
read beyond the array, and one between the keywords ends the
advertisement. -/
theorem quotedKeyword_lost :
    ¬ wholeTexts.LoadsExactly (ascii "ad=7\n    kw=\"car\"\n") ∧
      ¬ wholeTexts.LoadsExactly (ascii "\nad=7\n    kw=car\n") ∧
      (rulePopLoadQueryContent wholeTexts (hashMapNew 40960)
          (some (ascii "ad=7\n    kw=car\n\n    kw=bus\n"))).map
        (listed · (keyOf (ascii "bus"))) = some [0] := by
  refine ⟨?_, ?_, by decide +kernel⟩
  · rintro ⟨pQCHashMap, loaded, exactly⟩
    have alone : wholeTexts.Alone (ascii "car")
        (ascii "ad=7\n    kw=\"car\"\n") := by
      unfold Loader.Alone
      decide +kernel
    obtain ⟨padvId, stored, filed⟩ :=
      (exactly.maps (ascii "car") alone 7).mpr (by decide +kernel)
    have nothing :
        (rulePopLoadQueryContent wholeTexts (hashMapNew 40960)
            (some (ascii "ad=7\n    kw=\"car\"\n"))).map
          (listed · (keyOf (ascii "car"))) = some [] := by
      decide +kernel
    rw [loaded, Option.map_some, listed, keyOf, stored] at nothing
    rw [show padvId.pvAdInfo = [] from Option.some.inj nothing] at filed
    cases filed
  · rintro ⟨pQCHashMap, loaded, _⟩
    have outside :
        (rulePopLoadQueryContent wholeTexts (hashMapNew 40960)
          (some (ascii "\nad=7\n    kw=car\n"))).isNone := by
      decide +kernel
    rw [loaded] at outside
    cases outside

end WindowSystem.InstantQueryContent
