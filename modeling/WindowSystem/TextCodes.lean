import WindowSystem.CRuntime

/-!
# The codes of a searched word

A browser sends the word of a search percent-encoded, in UTF-8 or in GBK.
`UrlGB2312Decode` of `url_code.c` undoes the first encoding,
`get_character_code_type` of `trans_code.c` tells the other two apart, and
`buffer_gbk2utf8` of `gbk2utf8.c` translates one into the other.
-/

namespace WindowSystem.TextCodes

open WindowSystem.CRuntime

/-! ## Percent encoding -/

/-- `CharToInt`, with `255` for the character `-1`. -/
def charToInt (ch : UInt8) : UInt8 :=
  if 48 ≤ ch ∧ ch ≤ 57 then ch - 48
  else if 97 ≤ ch ∧ ch ≤ 102 then ch - 97 + 10
  else if 65 ≤ ch ∧ ch ≤ 70 then ch - 65 + 10
  else 255

/-- `StrToBin`. -/
def strToBin (first second : UInt8) : UInt8 :=
  (charToInt first <<< 4) ||| charToInt second

/-- The bytes that `UrlGB2312Decode` writes.  A `%` at the end reads the
terminator of `url` and the byte `behind` it. -/
def urlGB2312Decode (behind : UInt8) : Bytes → Bytes
  | [] => []
  | ch :: url =>
      if ch = 37 then
        match url with
        | [] => [strToBin 0 behind]
        | [first] => [strToBin first 0]
        | first :: second :: url =>
            strToBin first second :: urlGB2312Decode behind url
      else if ch = 43 then 32 :: urlGB2312Decode behind url
      else ch :: urlGB2312Decode behind url

/-- Decoding does not make a text longer. -/
theorem length_urlGB2312Decode_le (behind : UInt8) (url : Bytes) :
    (urlGB2312Decode behind url).length ≤ url.length := by
  fun_induction urlGB2312Decode behind url with
  | case1 => exact Nat.le_refl 0
  | case2 => exact Nat.le_refl 1
  | case3 first => exact Nat.le_succ 1
  | case4 first second url induction =>
      simp only [List.length_cons]
      omega
  | case5 url notPercent induction => exact Nat.succ_le_succ induction
  | case6 ch url notPercent notPlus induction =>
      exact Nat.succ_le_succ induction

/-! ## The kind of a text -/

/-- `get_character_code_type`. -/
def getCharacterCodeType : Bytes → Int
  | [] => -1
  | ch :: s =>
      if ch &&& 0x80 = 0 then getCharacterCodeType s
      else
        match s with
        | second :: third :: _ =>
            if ch &&& 0xF0 = 0xE0 ∧ second &&& 0xC0 = 0x80 ∧
                third &&& 0xC0 = 0x80 then 1
            else 0
        | _ => 0

/-! ## GBK -/

/-- The second bytes that `cd2sub` admits behind a first one. -/
def cd2subAdmits (h l : UInt8) : Bool :=
  let low := 0x40 ≤ l && l ≤ 0x7e
  if h ≤ 0xa0 then low || (0x80 ≤ l && l ≤ 0xfe)
  else if h ≤ 0xa7 then 0xa1 ≤ l && l ≤ 0xfe
  else if h ≤ 0xa9 then low || (0x80 ≤ l && l ≤ 0xfe)
  else if h ≤ 0xaf then low || (0x80 ≤ l && l ≤ 0xa0)
  else if h ≤ 0xf7 then low || (0x80 ≤ l && l ≤ 0xfe)
  else low || (0x80 ≤ l && l ≤ 0xa0)

/-- `cd2sub`: the index of a character in `GBKHanzis`. -/
def cd2sub (h l : UInt8) : Int :=
  let first : Int := h.toNat
  let second : Int := l.toNat
  if !cd2subAdmits h l then -1
  else
    let rtn :=
      if h ≤ 0xa0 then (first - 0x81) * 190
      else if h ≤ 0xa7 then 6080 + (first - 0xa1) * 94
      else if h ≤ 0xa9 then 6738 + (first - 0xa8) * 190
      else if h ≤ 0xaf then 7118 + (first - 0xaa) * 96
      else if h ≤ 0xf7 then 7694 + (first - 0xb0) * 190
      else 21374 + (first - 0xf8) * 96
    if 0xa1 ≤ h ∧ h ≤ 0xa7 then rtn + second - 0xa1
    else if l ≤ 0x7e then rtn + second - 0x40
    else rtn + second + 0x3f - 0x80

/--
The member `unicode` of the array `GBKHanzis`.

Some pairs of bytes lead to an index outside the array; what is read there is
left open.
-/
abbrev GBKHanzis := Int → UInt32

/-- `char_gbk2utf8` for a first byte from `0x80` on; `none` is its result
`-1`. -/
def charGbk2utf8 (gbkHanzis : GBKHanzis) (h l : UInt8) : Option Bytes :=
  let i := cd2sub h l
  if i = -1 then none
  else
    let unicode := gbkHanzis i
    if unicode = 0 then none
    else
      some (cString
        [(unicode >>> 16).toUInt8, (unicode >>> 8).toUInt8,
          unicode.toUInt8])

/-- The terminator is no second byte: a text that ends inside a character ends
the translation. -/
theorem charGbk2utf8_terminator (gbkHanzis : GBKHanzis) (h : UInt8) :
    charGbk2utf8 gbkHanzis h 0 = none := by
  have refused : cd2subAdmits h 0 = false := by
    simp [cd2subAdmits]
  simp [charGbk2utf8, cd2sub, refused]

/-- The loop of `buffer_gbk2utf8` with the `output` written so far; its result
is what the array holds afterwards. -/
def gbkLoop (gbkHanzis : GBKHanzis) (outputLen : Nat) :
    Bytes → Bytes → Option Bytes
  | [], output => some output
  | h :: buffer, output =>
      if h < 0x80 then
        (store outputLen (output ++ [h])).bind
          (gbkLoop gbkHanzis outputLen buffer)
      else
        match buffer with
        | [] => some output
        | l :: buffer =>
            match charGbk2utf8 gbkHanzis h l with
            | none => some output
            | some temp =>
                if outputLen ≤ output.length + temp.length then some output
                else
                  gbkLoop gbkHanzis outputLen buffer (output ++ temp)

/-- `buffer_gbk2utf8` with an array of `outputLen` bytes.  The room for a
character of two bytes is tested, the room for a plain one is not. -/
def bufferGbk2utf8 (gbkHanzis : GBKHanzis) (outputLen : Nat)
    (buffer : Bytes) : Option Bytes :=
  gbkLoop gbkHanzis outputLen buffer []

/-- The text that the loop writes when plain characters find room
everywhere. -/
def utf8Text (gbkHanzis : GBKHanzis) (outputLen : Nat) :
    Bytes → Bytes → Bytes
  | [], output => output
  | h :: buffer, output =>
      if h < 0x80 then utf8Text gbkHanzis outputLen buffer (output ++ [h])
      else
        match buffer with
        | [] => output
        | l :: buffer =>
            match charGbk2utf8 gbkHanzis h l with
            | none => output
            | some temp =>
                if outputLen ≤ output.length + temp.length then output
                else
                  utf8Text gbkHanzis outputLen buffer (output ++ temp)

/-- The text only grows. -/
theorem length_le_utf8Text (gbkHanzis : GBKHanzis) (outputLen : Nat)
    (buffer output : Bytes) :
    output.length ≤
      (utf8Text gbkHanzis outputLen buffer output).length := by
  fun_induction utf8Text gbkHanzis outputLen buffer output with
  | case1 output => exact Nat.le_refl _
  | case2 h buffer output plain induction =>
      rw [List.length_append] at induction
      omega
  | case3 h output wide => exact Nat.le_refl _
  | case4 h output wide l buffer unknown => exact Nat.le_refl _
  | case5 h output wide l buffer temp known full => exact Nat.le_refl _
  | case6 h output wide l buffer temp known room induction =>
      rw [List.length_append] at induction
      omega

/-- The translation stays in its array exactly when the whole text fits. -/
theorem gbkLoop_eq_store {gbkHanzis : GBKHanzis} {outputLen : Nat}
    {output : Bytes} (buffer : Bytes) (fits : output.length < outputLen) :
    gbkLoop gbkHanzis outputLen buffer output =
      store outputLen (utf8Text gbkHanzis outputLen buffer output) := by
  fun_induction utf8Text gbkHanzis outputLen buffer output with
  | case1 output => simp [gbkLoop, store, fits]
  | case2 h buffer output plain induction =>
      rw [gbkLoop.eq_def]
      simp only [plain, if_true]
      by_cases room : (output ++ [h]).length < outputLen
      · rw [store, if_pos room, Option.bind_some, induction room]
      · have grows :=
          length_le_utf8Text gbkHanzis outputLen buffer (output ++ [h])
        rw [store, if_neg room, store, if_neg (by omega)]
        rfl
  | case3 h output wide => simp [gbkLoop, wide, store, fits]
  | case4 h output wide l buffer unknown =>
      simp [gbkLoop, wide, unknown, store, fits]
  | case5 h output wide l buffer temp known full =>
      simp [gbkLoop, wide, known, full, store, fits]
  | case6 h output wide l buffer temp known room induction =>
      have next : (output ++ temp).length < outputLen := by
        rw [List.length_append]
        omega
      simp only [gbkLoop, wide, known, room, if_false]
      exact induction next

theorem bufferGbk2utf8_eq_store {gbkHanzis : GBKHanzis} {outputLen : Nat}
    (buffer : Bytes) (positive : 0 < outputLen) :
    bufferGbk2utf8 gbkHanzis outputLen buffer =
      store outputLen (utf8Text gbkHanzis outputLen buffer []) :=
  gbkLoop_eq_store buffer positive

end WindowSystem.TextCodes
