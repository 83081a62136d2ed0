import WindowSystem.DcGlobal
import WindowSystem.Library.Substring

/-!
# The decoders of request messages

`mq_message_analysis_json` and `mq_mobile_message_analysis_json` of
`mq_message_analysis.c` cut a message of the capture client into the fields of
`MqHttpMessage`.  Each separator is located by its own `strstr`, and the bytes
between two of them are copied with `memcpy` into an array of the structure.

A copy that leaves its array, a copy of negative length and an offset from a
`NULL` result of `strstr` end the decoder with `violation`.
-/

namespace WindowSystem.MqMessageAnalysis

open WindowSystem.CRuntime
open WindowSystem.DcGlobal
open WindowSystem.Library
open WindowSystem.ToolHashMap

/-! ## Outcomes -/

/-- How a decoder leaves a message or one of its fields. -/
inductive Outcome (α : Type) where
  | violation
  | rejected
  | taken (value : α)
deriving DecidableEq

namespace Outcome

variable {α β : Type}

/-- Go on with a value that was taken. -/
def bind (outcome : Outcome α) (next : α → Outcome β) : Outcome β :=
  match outcome with
  | .violation => .violation
  | .rejected => .rejected
  | .taken value => next value

@[simp]
theorem bind_taken (value : α) (next : α → Outcome β) :
    (taken value).bind next = next value := rfl

theorem bind_eq_taken_iff {outcome : Outcome α} {next : α → Outcome β}
    {result : β} :
    outcome.bind next = .taken result ↔
      ∃ value, outcome = .taken value ∧ next value = .taken result := by
  cases outcome <;> simp [bind]

theorem bind_ne_violation_iff {outcome : Outcome α}
    {next : α → Outcome β} :
    outcome.bind next ≠ .violation ↔
      outcome = .rejected ∨
        ∃ value, outcome = .taken value ∧ next value ≠ .violation := by
  cases outcome <;> simp [bind]

end Outcome

/-! ## One field -/

/--
The code for one field.

`nullChecked` says that a missing end separator is tested, `signChecked` that
a negative length is, and `limit` is the length from which on the message is
given up.
-/
structure Field where
  separator : Bytes
  next : Bytes
  nullChecked : Bool
  signChecked : Bool
  limit : Option Int
  capacity : Nat

/-- The test of a length before the copy. -/
def Field.refuses (field : Field) (length : Int) : Bool :=
  (field.limit.any fun limit => limit ≤ length) ||
    (field.signChecked && length < 0)

/-- Test the length of a located field and copy it. -/
def Field.copyRange (field : Field) (pcMessage : Bytes)
    (pcBegin pcEnd : Nat) : Outcome Bytes :=
  if field.refuses ((pcEnd : Int) - pcBegin) then .rejected
  else if pcBegin ≤ pcEnd ∧ pcEnd - pcBegin < field.capacity then
    .taken (Substring.slice pcMessage pcBegin pcEnd)
  else .violation

/-- Locate a field and copy it. -/
def Field.copy (field : Field) (pcMessage : Bytes) : Outcome Bytes :=
  match strstr pcMessage field.separator with
  | none => .violation
  | some place =>
      match strstr pcMessage field.next with
      | none => if field.nullChecked then .rejected else .violation
      | some pcEnd =>
          field.copyRange pcMessage (place + field.separator.length) pcEnd

/-! ## The separators -/

namespace Separator

def cookie : Bytes := ascii "\",\"Cookie\":\""
def srcIP : Bytes := ascii "\",\"srcIP\":\""
def dstIP : Bytes := ascii "\",\"dstIP\":\""
def siteUrl : Bytes := ascii "\",\"siteUrl\":\""
def siteUri : Bytes := ascii "\",\"siteUri\":\""
def sec : Bytes := ascii "\",\"sec\":\""
def ua : Bytes := ascii "\",\"User-Agent\":\""
def finish : Bytes := ascii "\"\x7d"

end Separator

/-! ## The decoders -/

/-- What the two decoders do differently. -/
structure Decoder where
  dstIPChecked : Bool
  uriLimit : Int
  uaLimit : Int
  admits : Bytes → Bool

namespace Decoder

def cookieField : Field where
  separator := Separator.cookie
  next := Separator.srcIP
  nullChecked := true
  signChecked := false
  limit := none
  capacity := 4096

def srcIPField (decoder : Decoder) : Field where
  separator := Separator.srcIP
  next := Separator.dstIP
  nullChecked := decoder.dstIPChecked
  signChecked := false
  limit := some 16
  capacity := 16

def hostField : Field where
  separator := Separator.siteUrl
  next := Separator.siteUri
  nullChecked := false
  signChecked := false
  limit := some 256
  capacity := 256

def uriField (decoder : Decoder) : Field where
  separator := Separator.siteUri
  next := Separator.sec
  nullChecked := false
  signChecked := false
  limit := some decoder.uriLimit
  capacity := 8182

def secField : Field where
  separator := Separator.sec
  next := Separator.ua
  nullChecked := true
  signChecked := false
  limit := none
  capacity := 64

/-- The copy into `UATemp`; the one into `pcNoEncUa` has the same length and
capacity. -/
def uaField (decoder : Decoder) : Field where
  separator := Separator.ua
  next := Separator.finish
  nullChecked := true
  signChecked := true
  limit := some decoder.uaLimit
  capacity := 512

/-- The cookie is optional. -/
def readCookie (pcMessage : Bytes) : Outcome Bytes :=
  if (strstr pcMessage Separator.cookie).isSome then
    cookieField.copy pcMessage
  else .taken (ascii "NULL")

/-- The digest `cUaMD5s` of a User-Agent. -/
def cUaMD5s (UATemp : Bytes) : Bytes :=
  let nHash := hashMapGetHash UATemp UATemp.length 0
  let nHashA := hashMapGetHash UATemp UATemp.length 1
  let nHashB := hashMapGetHash UATemp UATemp.length 2
  Decimal.decimal nHash.toUInt32.toNat ++
    Decimal.decimal nHashA.toUInt32.toNat ++
    Decimal.decimal nHashB.toUInt32.toNat

/-- The decoding of a message. -/
def analysis (decoder : Decoder) (pcMessage : Bytes) :
    Outcome MqHttpMessage :=
  (readCookie pcMessage).bind fun pcCookie =>
  (decoder.srcIPField.copy pcMessage).bind fun pcSrcIP =>
  (hostField.copy pcMessage).bind fun host =>
  (decoder.uriField.copy pcMessage).bind fun pcUri =>
  (secField.copy pcMessage).bind fun pcSec =>
  (decoder.uaField.copy pcMessage).bind fun UATemp =>
    if decoder.admits UATemp then
      .taken
        { pcCookie := pcCookie
          pcSrcIP := pcSrcIP
          pcUri := pcUri
          host := host
          pcSec := pcSec
          lSec := atoi pcSec
          pcUa := cUaMD5s UATemp
          pcNoEncUa := UATemp }
    else .rejected

end Decoder

/-- The values of `mq_message_analysis_json`. -/
def jsonDecoder : Decoder where
  dstIPChecked := true
  uriLimit := 512
  uaLimit := 512
  admits UATemp :=
    !((strstr UATemp (ascii "Android")).isSome ||
      (strstr UATemp (ascii "Mac")).isSome)

/-- The values of `mq_mobile_message_analysis_json`. -/
def mobileDecoder : Decoder where
  dstIPChecked := false
  uriLimit := 8182
  uaLimit := 2083
  admits UATemp := (strstr UATemp (ascii "Mobile")).isSome

/-- `mq_message_analysis_json`, up to its call of the filter. -/
def mqMessageAnalysisJson (pcMessage : Bytes) : Outcome MqHttpMessage :=
  jsonDecoder.analysis pcMessage

/-- `mq_mobile_message_analysis_json`, up to its call of the filter. -/
def mqMobileMessageAnalysisJson (pcMessage : Bytes) :
    Outcome MqHttpMessage :=
  mobileDecoder.analysis pcMessage

/-! ## Memory safety of one field -/

namespace Field

variable {field : Field} {pcMessage : Bytes}

/-- The number of bytes from the end of the separator to the next one,
negative when they stand the other way round. -/
def span (field : Field) (pcMessage : Bytes) : Option Int :=
  (strstr pcMessage field.separator).bind fun place =>
    (strstr pcMessage field.next).map fun (pcEnd : Nat) =>
      (pcEnd : Int) - (place + field.separator.length : Nat)

/-- The message is given up at this field. -/
def Refused (field : Field) (pcMessage : Bytes) : Prop :=
  (strstr pcMessage field.next = none ∧ field.nullChecked = true) ∨
    ∃ length ∈ field.span pcMessage, field.refuses length = true

/-- The text of the field fits into its array. -/
def Fits (field : Field) (pcMessage : Bytes) : Prop :=
  ∃ length ∈ field.span pcMessage, 0 ≤ length ∧ length < field.capacity

theorem copyRange_eq_taken_iff {pcBegin pcEnd : Nat} {text : Bytes} :
    field.copyRange pcMessage pcBegin pcEnd = .taken text ↔
      field.refuses ((pcEnd : Int) - pcBegin) = false ∧
        (pcBegin ≤ pcEnd ∧ pcEnd - pcBegin < field.capacity) ∧
        Substring.slice pcMessage pcBegin pcEnd = text := by
  rw [copyRange]
  split
  · rename_i refused
    simp [refused]
  · rename_i passed
    split
    · rename_i inside
      simp [passed, inside]
    · rename_i outside
      simp only [reduceCtorEq, false_iff]
      exact fun read => outside read.2.1

/-- What a successful copy has read. -/
theorem copy_eq_taken_iff {text : Bytes} :
    field.copy pcMessage = .taken text ↔
      ∃ place pcEnd,
        strstr pcMessage field.separator = some place ∧
        strstr pcMessage field.next = some pcEnd ∧
        field.copyRange pcMessage (place + field.separator.length) pcEnd =
          .taken text := by
  rw [copy]
  cases strstr pcMessage field.separator with
  | none => simp
  | some place =>
      cases strstr pcMessage field.next with
      | none => cases field.nullChecked <;> simp
      | some pcEnd => simp

theorem copy_eq_rejected_iff :
    field.copy pcMessage = .rejected ↔
      (strstr pcMessage field.separator).isSome ∧
        field.Refused pcMessage := by
  rw [copy, Refused, span]
  cases strstr pcMessage field.separator with
  | none => simp
  | some place =>
      cases strstr pcMessage field.next with
      | none => cases field.nullChecked <;> simp
      | some pcEnd =>
          simp only [copyRange, Option.bind_some, Option.map_some,
            Option.mem_def, Option.some.injEq, exists_eq_left',
            reduceCtorEq, false_and, false_or, Option.isSome_some, true_and]
          split
          · rename_i refused
            simpa using refused
          · rename_i passed
            split <;> simpa using passed

/-- A field that is read lies between its separators in the message. -/
theorem fits_of_taken {text : Bytes}
    (read : field.copy pcMessage = .taken text) :
    field.Fits pcMessage ∧ ¬ field.Refused pcMessage := by
  obtain ⟨place, pcEnd, found, ended, copied⟩ := copy_eq_taken_iff.mp read
  obtain ⟨_, ⟨order, short⟩, _⟩ := copyRange_eq_taken_iff.mp copied
  constructor
  · refine
      ⟨(pcEnd : Int) - (place + field.separator.length : Nat), ?_,
        by omega, by omega⟩
    rw [span, found, ended]
    rfl
  · intro refused
    have given :=
      copy_eq_rejected_iff.mpr ⟨Option.isSome_of_eq_some found, refused⟩
    rw [read] at given
    cases given

theorem taken_of_fits (fits : field.Fits pcMessage)
    (passed : ¬ field.Refused pcMessage) :
    ∃ text, field.copy pcMessage = .taken text := by
  obtain ⟨length, measured, nonneg, short⟩ := fits
  have accepted : field.refuses length = false := by
    by_contra refused
    exact passed (Or.inr ⟨length, measured, by simpa using refused⟩)
  simp only [span, Option.mem_def, Option.bind_eq_some_iff,
    Option.map_eq_some_iff] at measured
  obtain ⟨place, found, pcEnd, ended, rfl⟩ := measured
  have copied :=
    copyRange_eq_taken_iff.mpr
      ⟨accepted, ⟨by omega, by omega⟩, @rfl _
        (Substring.slice pcMessage (place + field.separator.length) pcEnd)⟩
  exact ⟨_, copy_eq_taken_iff.mpr ⟨place, pcEnd, found, ended, copied⟩⟩

/-- The decoding up to and with one field. -/
theorem bind_copy_ne_violation_iff {β : Type}
    {next : Bytes → Outcome β} {safe : Prop}
    (later : ∀ text, next text ≠ .violation ↔ safe) :
    (field.copy pcMessage).bind next ≠ .violation ↔
      (strstr pcMessage field.separator).isSome ∧
        (field.Refused pcMessage ∨ field.Fits pcMessage ∧ safe) := by
  rw [Outcome.bind_ne_violation_iff, copy_eq_rejected_iff]
  constructor
  · rintro (⟨present, refused⟩ | ⟨text, read, continued⟩)
    · exact ⟨present, Or.inl refused⟩
    · obtain ⟨place, _, found, _⟩ := copy_eq_taken_iff.mp read
      exact ⟨by simp [found],
        Or.inr ⟨(fits_of_taken read).1, (later text).mp continued⟩⟩
  · rintro ⟨present, refused | ⟨fits, continued⟩⟩
    · exact Or.inl ⟨present, refused⟩
    · by_cases refused : field.Refused pcMessage
      · exact Or.inl ⟨present, refused⟩
      · obtain ⟨text, read⟩ := taken_of_fits fits refused
        exact Or.inr ⟨text, read, (later text).mpr continued⟩

end Field

/-! ## Memory safety of a decoder -/

/--
The fields of a message stand in order as far as they are read: each separator
occurs, and unless the message is given up at its field, the next separator
follows it with fewer bytes between them than the array holds.
-/
def Orderly (pcMessage : Bytes) : List Field → Prop
  | [] => True
  | field :: fields =>
      (strstr pcMessage field.separator).isSome ∧
        (field.Refused pcMessage ∨
          field.Fits pcMessage ∧ Orderly pcMessage fields)

namespace Decoder

/-- The fields after the cookie. -/
def plainFields (decoder : Decoder) : List Field :=
  [decoder.srcIPField, hostField, decoder.uriField, secField,
    decoder.uaField]

/-- The fields that are read from a message. -/
def fields (decoder : Decoder) (pcMessage : Bytes) : List Field :=
  if (strstr pcMessage Separator.cookie).isSome then
    cookieField :: decoder.plainFields
  else decoder.plainFields

/-- A decoder is memory safe exactly on the orderly messages. -/
theorem analysis_ne_violation_iff (decoder : Decoder)
    (pcMessage : Bytes) :
    decoder.analysis pcMessage ≠ .violation ↔
      Orderly pcMessage (decoder.fields pcMessage) := by
  have plain (pcCookie : Bytes) :
      ((decoder.srcIPField.copy pcMessage).bind fun pcSrcIP =>
        (hostField.copy pcMessage).bind fun host =>
        (decoder.uriField.copy pcMessage).bind fun pcUri =>
        (secField.copy pcMessage).bind fun pcSec =>
        (decoder.uaField.copy pcMessage).bind fun UATemp =>
          if decoder.admits UATemp then
            Outcome.taken
              { pcCookie := pcCookie
                pcSrcIP := pcSrcIP
                pcUri := pcUri
                host := host
                pcSec := pcSec
                lSec := atoi pcSec
                pcUa := cUaMD5s UATemp
                pcNoEncUa := UATemp : MqHttpMessage }
          else .rejected) ≠ .violation ↔
        Orderly pcMessage decoder.plainFields := by
    refine Field.bind_copy_ne_violation_iff fun _ => ?_
    refine Field.bind_copy_ne_violation_iff fun _ => ?_
    refine Field.bind_copy_ne_violation_iff fun _ => ?_
    refine Field.bind_copy_ne_violation_iff fun _ => ?_
    refine Field.bind_copy_ne_violation_iff fun UATemp => ?_
    rw [Orderly]
    split <;> simp
  rw [analysis, readCookie, fields]
  split
  · exact Field.bind_copy_ne_violation_iff plain
  · exact plain _

end Decoder

/-- Both decoders stay inside their arrays exactly on the messages whose
fields stand in order. -/
theorem messageAnalysis_safe_iff (pcMessage : Bytes) :
    (mqMessageAnalysisJson pcMessage ≠ .violation ∧
      mqMobileMessageAnalysisJson pcMessage ≠ .violation) ↔
      Orderly pcMessage (jsonDecoder.fields pcMessage) ∧
        Orderly pcMessage (mobileDecoder.fields pcMessage) :=
  and_congr (jsonDecoder.analysis_ne_violation_iff pcMessage)
    (mobileDecoder.analysis_ne_violation_iff pcMessage)

/-- A message with the given texts for the time and the User-Agent. -/
def sampleMessage (sec ua : Bytes) : Bytes :=
  ascii "\x7b\"sequence\":\"1" ++
    Separator.srcIP ++ ascii "10.0.0.7" ++
    Separator.dstIP ++ ascii "10.0.0.1" ++
    Separator.siteUrl ++ ascii "example.com" ++
    Separator.siteUri ++ ascii "/" ++
    Separator.sec ++ sec ++
    Separator.ua ++ ua ++
    Separator.finish

/-- An unchecked time, a User-Agent within the mobile limit and a message
without separators. -/
theorem messageAnalysis_unsafe :
    mqMessageAnalysisJson
        (sampleMessage (List.replicate 64 49) (ascii "Opera")) =
      .violation ∧
    mqMobileMessageAnalysisJson
        (sampleMessage (ascii "1400000000") (List.replicate 512 65)) =
      .violation ∧
    mqMessageAnalysisJson (ascii "sequence") = .violation := by
  refine ⟨?_, ?_, ?_⟩ <;> decide +kernel

/-! ## What is accepted -/

theorem length_of_copy {field : Field} {pcMessage text : Bytes}
    (read : field.copy pcMessage = .taken text) :
    text.length < field.capacity := by
  obtain ⟨place, pcEnd, _, _, copied⟩ := Field.copy_eq_taken_iff.mp read
  obtain ⟨_, ⟨_, short⟩, rfl⟩ := Field.copyRange_eq_taken_iff.mp copied
  exact Nat.lt_of_le_of_lt (Substring.length_slice_le _ _ _) short

theorem length_cUaMD5s (UATemp : Bytes) :
    (Decoder.cUaMD5s UATemp).length ≤ 30 := by
  have part (hash : UInt64) :
      (Decimal.decimal hash.toUInt32.toNat).length ≤ 10 := by
    refine Decimal.length_decimal_le (by omega) ?_
    have := hash.toUInt32.toNat_lt
    omega
  have first := part (hashMapGetHash UATemp UATemp.length 0)
  have second := part (hashMapGetHash UATemp UATemp.length 1)
  have third := part (hashMapGetHash UATemp UATemp.length 2)
  simp only [Decoder.cUaMD5s, List.length_append]
  omega

theorem not_mem_cUaMD5s {UATemp : Bytes} {byte : UInt8}
    (noDigit : Decimal.isDigit byte = false) :
    byte ∉ Decoder.cUaMD5s UATemp := by
  simp only [Decoder.cUaMD5s, List.mem_append, not_or]
  exact ⟨⟨Decimal.not_mem_decimal noDigit,
    Decimal.not_mem_decimal noDigit⟩, Decimal.not_mem_decimal noDigit⟩

theorem cUaMD5s_ne_nil (UATemp : Bytes) : Decoder.cUaMD5s UATemp ≠ [] := by
  simp [Decoder.cUaMD5s, Decimal.decimal_ne_nil]

/-- Every array of the structure holds a text with its terminator, and the
last three fields are computed from the text of the message. -/
structure WellFormed (psMqHttpMes : MqHttpMessage) : Prop where
  pcCookie : psMqHttpMes.pcCookie.length < 4096
  pcSrcIP : psMqHttpMes.pcSrcIP.length < 16
  pcUri : psMqHttpMes.pcUri.length < 8182
  host : psMqHttpMes.host.length < 256
  pcSec : psMqHttpMes.pcSec.length < 64
  pcUa : psMqHttpMes.pcUa.length < 64
  pcNoEncUa : psMqHttpMes.pcNoEncUa.length < 512
  time : psMqHttpMes.lSec = atoi psMqHttpMes.pcSec
  digest : psMqHttpMes.pcUa = Decoder.cUaMD5s psMqHttpMes.pcNoEncUa

/-- An accepted message gives a well-formed structure. -/
theorem analysis_wellFormed {decoder : Decoder} {pcMessage : Bytes}
    {psMqHttpMes : MqHttpMessage}
    (accepted : decoder.analysis pcMessage = .taken psMqHttpMes) :
    WellFormed psMqHttpMes ∧
      decoder.admits psMqHttpMes.pcNoEncUa = true := by
  simp only [Decoder.analysis, Outcome.bind_eq_taken_iff] at accepted
  rcases accepted with
    ⟨pcCookie, cookieRead, pcSrcIP, srcIPRead, host, hostRead, pcUri,
      uriRead, pcSec, secRead, UATemp, uaRead, accepted⟩
  split at accepted
  · rename_i admitted
    cases accepted
    refine ⟨?_, admitted⟩
    exact
      { pcCookie := by
          rw [Decoder.readCookie] at cookieRead
          split at cookieRead
          · exact length_of_copy cookieRead
          · cases cookieRead
            exact (by decide : (ascii "NULL").length < 4096)
        pcSrcIP := length_of_copy srcIPRead
        pcUri := length_of_copy uriRead
        host := length_of_copy hostRead
        pcSec := length_of_copy secRead
        pcUa := Nat.lt_of_le_of_lt (length_cUaMD5s UATemp) (by decide)
        pcNoEncUa := length_of_copy uaRead
        time := rfl
        digest := rfl }
  · cases accepted

end WindowSystem.MqMessageAnalysis
