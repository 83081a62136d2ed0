import WindowSystem.TextCodes

/-!
# Coding and decoding a searched word

`url_code.c` decodes the words of searches with `UrlGB2312Decode`, and has a
coder of its own, `UrlenUTF8`.  Both work on character strings with their
terminators and on buffers of their callers.  The module says which words
survive the coder and the decoder, and on which texts the decoder stays in
front of the terminator.
-/

namespace WindowSystem.UrlCode

open WindowSystem.CRuntime
open WindowSystem.TextCodes

/-! ## The functions -/

/-- What C leaves undefined. -/
inductive Fault where
  | read
  | write
deriving DecidableEq

/-- `UrlGB2312Decode` from an index on: what is left of `url` and of `dest`.
The terminator of `url` may be read, the bytes behind it may not. -/
def urlGB2312DecodeInto : Bytes → Bytes → Except Fault Bytes
  | [], dest => .ok dest
  | _ :: _, [] => .error .write
  | ch :: url, cell :: dest =>
      if ch = 37 then
        match url with
        | [] => .error .read
        | [first] => .ok ((cell + strToBin first 0) :: dest)
        | first :: second :: url =>
            (urlGB2312DecodeInto url dest).map
              ((cell + strToBin first second) :: ·)
      else if ch = 43 then (urlGB2312DecodeInto url dest).map (32 :: ·)
      else (urlGB2312DecodeInto url dest).map (ch :: ·)

/-- `isalnum` in the C locale. -/
def isAlnum (byte : UInt8) : Bool :=
  (48 ≤ byte && byte ≤ 57) || (65 ≤ byte && byte ≤ 90) ||
    (97 ≤ byte && byte ≤ 122)

/-- The conversion `%X` of an `int`. -/
def hexText (value : Int) : Bytes :=
  (Nat.toDigits 16 (value % 2 ^ 32).toNat).map fun digit =>
    digit.toUpper.toNat.toUInt8

/-- `sprintf (tempbuff, "%%%X%X", (str[i]) >>4, (str[i]) %16)`; `char` is a
signed type. -/
def escapeText (byte : UInt8) : Bytes :=
  37 :: hexText (byte.toInt8.toInt >>> (4 : Nat)) ++
    hexText (byte.toInt8.toInt.tmod 16)

/-- The text that is appended for a byte; `none` is a write behind
`tempbuff`. -/
def tempbuff (byte : UInt8) : Option Bytes :=
  if isAlnum byte then some [byte]
  else if isSpace byte then some [43]
  else store 4 (escapeText byte)

/-- `strcat` on a whole buffer. -/
def strcat (dest text : Bytes) : Option Bytes :=
  let written := cString dest ++ text
  if written.length < dest.length then
    some (written ++ 0 :: dest.drop (written.length + 1))
  else none

/-- `UrlenUTF8`. -/
def urlenUTF8 : Bytes → Bytes → Option Bytes
  | [], dest => some dest
  | byte :: str, dest =>
      (tempbuff byte).bind fun text =>
        (strcat dest text).bind (urlenUTF8 str)

/-- A buffer that was cleared. -/
def zeroed (room : Nat) : Bytes :=
  List.replicate room 0

/-! ## What is to hold -/

/-- The coder writes a text from which the decoder gets the string back, in
all cleared buffers that are long enough. -/
def RoundTrip (str : Bytes) : Prop :=
  ∀ room, 3 * str.length < room →
    ∃ coded, urlenUTF8 str (zeroed room) = some coded ∧
      ∀ more, str.length < more →
        ∃ decoded,
          urlGB2312DecodeInto (cString coded) (zeroed more) = .ok decoded ∧
          cString decoded = str

/-- A digit of an escape. -/
def hexDigit (upper : Bool) (nibble : UInt8) : UInt8 :=
  if nibble < 10 then 48 + nibble
  else if upper then 55 + nibble
  else 87 + nibble

/-- How a byte of a string is written. -/
inductive Letter where
  | plain (byte : UInt8)
  | escaped (byte : UInt8) (upperHigh upperLow : Bool)
  | plus

namespace Letter

def source : Letter → UInt8
  | plain byte => byte
  | escaped byte _ _ => byte
  | plus => 32

def text : Letter → Bytes
  | plain byte => [byte]
  | escaped byte upperHigh upperLow =>
      [37, hexDigit upperHigh (byte >>> 4), hexDigit upperLow (byte &&& 15)]
  | plus => [43]

/-- `%` and `+` mean something else when they are written as they are. -/
def Readable : Letter → Prop
  | plain byte => byte ≠ 37 ∧ byte ≠ 43
  | _ => True

end Letter

/-- A string with a choice of how each byte is written. -/
structure Spelling where
  letters : List Letter
  noNul : ∀ letter ∈ letters, letter.source ≠ 0

namespace Spelling

variable (spelling : Spelling)

def source : Bytes :=
  spelling.letters.map Letter.source

def text : Bytes :=
  spelling.letters.flatMap Letter.text

/-- The decoder gets the string back, in every cleared buffer that is long
enough. -/
def Restored : Prop :=
  ∀ room, spelling.source.length < room →
    ∃ decoded,
      urlGB2312DecodeInto spelling.text (zeroed room) = .ok decoded ∧
      cString decoded = spelling.source

end Spelling

/-- The decoder never reads behind the terminator. -/
def StaysInside (url : Bytes) : Prop :=
  ∀ dest, urlGB2312DecodeInto url dest ≠ .error .read

/-- A plain byte, or an escape with what stands in the place of its
digits. -/
inductive Piece where
  | plain (byte : UInt8) (notPercent : byte ≠ 37)
  | escape (first second : UInt8)

def Piece.text : Piece → Bytes
  | plain byte _ => [byte]
  | escape first second => [37, first, second]

/-- The last byte is the percent sign of an escape. -/
def CutOff (url : Bytes) : Prop :=
  ∃ pieces : List Piece, url = pieces.flatMap Piece.text ++ [37]

/-! ## Cut-off escapes -/

section CutOff

variable {ch first second : UInt8} {url : Bytes}

theorem not_cutOff_nil : ¬ CutOff [] := by
  rintro ⟨pieces, equal⟩
  simp at equal

theorem cutOff_percent : CutOff [37] :=
  ⟨[], rfl⟩

theorem cutOff_plain (notPercent : ch ≠ 37) :
    CutOff (ch :: url) ↔ CutOff url := by
  constructor
  · rintro ⟨pieces, equal⟩
    cases pieces with
    | nil => exact absurd (List.cons.inj equal).1 notPercent
    | cons piece pieces =>
        cases piece with
        | plain byte _ => exact ⟨pieces, (List.cons.inj equal).2⟩
        | escape first second =>
            exact absurd (List.cons.inj equal).1 notPercent
  · rintro ⟨pieces, rfl⟩
    exact ⟨.plain ch notPercent :: pieces, rfl⟩

theorem cutOff_escape :
    CutOff (37 :: first :: second :: url) ↔ CutOff url := by
  constructor
  · rintro ⟨pieces, equal⟩
    cases pieces with
    | nil => simp at equal
    | cons piece pieces =>
        cases piece with
        | plain byte notPercent =>
            exact absurd (List.cons.inj equal).1.symm notPercent
        | escape first second =>
            simp only [List.flatMap_cons, Piece.text, List.cons_append,
              List.nil_append, List.cons.injEq] at equal
            exact ⟨pieces, equal.2.2.2⟩
  · rintro ⟨pieces, rfl⟩
    exact ⟨.escape first second :: pieces, rfl⟩

end CutOff

/-! ## The decoder -/

section Decoder

variable {ch first second cell : UInt8} {url dest : Bytes} {room : Nat}

theorem decodeInto_escape :
    urlGB2312DecodeInto (37 :: first :: second :: url) (cell :: dest) =
      (urlGB2312DecodeInto url dest).map
        ((cell + strToBin first second) :: ·) :=
  rfl

theorem decodeInto_plus :
    urlGB2312DecodeInto (43 :: url) (cell :: dest) =
      (urlGB2312DecodeInto url dest).map (32 :: ·) := by
  rw [urlGB2312DecodeInto.eq_def]
  rfl

theorem decodeInto_plain (notPercent : ch ≠ 37) (notPlus : ch ≠ 43) :
    urlGB2312DecodeInto (ch :: url) (cell :: dest) =
      (urlGB2312DecodeInto url dest).map (ch :: ·) := by
  rw [urlGB2312DecodeInto.eq_def]
  simp only [if_neg notPercent, if_neg notPlus]

theorem zeroed_succ (room : Nat) : zeroed (room + 1) = 0 :: zeroed room :=
  rfl

theorem map_ne_read {result : Except Fault Bytes} {next : Bytes → Bytes}
    (inside : result ≠ .error .read) : result.map next ≠ .error .read := by
  cases result with
  | error fault => simpa [Except.map] using inside
  | ok bytes => simp [Except.map]

/-- Without a cut-off escape no buffer makes the decoder read behind the
terminator. -/
theorem staysInside_of_whole (whole : ¬ CutOff url) : StaysInside url := by
  intro dest
  fun_induction urlGB2312DecodeInto url dest with
  | case1 => simp
  | case2 => simp
  | case3 => exact absurd cutOff_percent whole
  | case4 => simp
  | case5 cell dest first second url induction =>
      exact map_ne_read (induction (mt cutOff_escape.mpr whole))
  | case6 cell dest url notPercent induction =>
      exact map_ne_read
        (induction (mt (cutOff_plain notPercent).mpr whole))
  | case7 ch url cell dest notPercent notPlus induction =>
      exact map_ne_read
        (induction (mt (cutOff_plain notPercent).mpr whole))

/-- Without a cut-off escape a cleared buffer holds the decoded text. -/
theorem decodeInto_of_whole (behind : UInt8) (whole : ¬ CutOff url)
    (enough : (urlGB2312Decode behind url).length ≤ room) :
    urlGB2312DecodeInto url (zeroed room) =
      .ok (urlGB2312Decode behind url ++
        zeroed (room - (urlGB2312Decode behind url).length)) := by
  fun_induction urlGB2312Decode behind url generalizing room with
  | case1 => simp [urlGB2312DecodeInto]
  | case2 => exact absurd cutOff_percent whole
  | case3 first =>
      obtain ⟨room, rfl⟩ := Nat.exists_eq_add_of_lt enough
      simp [zeroed_succ, urlGB2312DecodeInto]
  | case4 first second url induction =>
      obtain ⟨room, rfl⟩ := Nat.exists_eq_succ_of_ne_zero
        (Nat.ne_zero_of_lt enough)
      have rest := induction (mt cutOff_escape.mpr whole)
        (Nat.le_of_succ_le_succ enough)
      rw [zeroed_succ, decodeInto_escape, rest]
      simp [Except.map]
  | case5 url notPercent induction =>
      obtain ⟨room, rfl⟩ := Nat.exists_eq_succ_of_ne_zero
        (Nat.ne_zero_of_lt enough)
      have rest := induction (mt (cutOff_plain notPercent).mpr whole)
        (Nat.le_of_succ_le_succ enough)
      rw [zeroed_succ, decodeInto_plus, rest]
      simp [Except.map]
  | case6 ch url notPercent notPlus induction =>
      obtain ⟨room, rfl⟩ := Nat.exists_eq_succ_of_ne_zero
        (Nat.ne_zero_of_lt enough)
      have rest := induction (mt (cutOff_plain notPercent).mpr whole)
        (Nat.le_of_succ_le_succ enough)
      rw [zeroed_succ, decodeInto_plain notPercent notPlus, rest]
      simp [Except.map]

/-- Every piece is decoded into one byte. -/
theorem decodeInto_piece (piece : Piece) :
    ∃ byte, urlGB2312DecodeInto (piece.text ++ url) (cell :: dest) =
      (urlGB2312DecodeInto url dest).map (byte :: ·) := by
  cases piece with
  | plain byte notPercent =>
      by_cases plus : byte = 43
      · subst plus
        exact ⟨32, decodeInto_plus⟩
      · exact ⟨byte, decodeInto_plain notPercent plus⟩
  | escape first second => exact ⟨_, decodeInto_escape⟩

theorem length_piece_pos (piece : Piece) : 0 < piece.text.length := by
  cases piece with
  | plain => exact Nat.one_pos
  | escape => exact Nat.succ_pos 2

/-- A cut-off escape is reached where there is room for the whole text. -/
theorem decodeInto_of_cutOff (cutOff : CutOff url)
    (enough : url.length ≤ room) :
    urlGB2312DecodeInto url (zeroed room) = .error .read := by
  obtain ⟨pieces, rfl⟩ := cutOff
  induction pieces generalizing room with
  | nil =>
      obtain ⟨room, rfl⟩ := Nat.exists_eq_add_of_le' enough
      rfl
  | cons piece pieces induction =>
      have positive := length_piece_pos piece
      rw [List.flatMap_cons, List.append_assoc, List.length_append] at enough
      obtain ⟨room, rfl⟩ := Nat.exists_eq_succ_of_ne_zero
        (show room ≠ 0 by omega)
      obtain ⟨byte, decoded⟩ := @decodeInto_piece 0
        (pieces.flatMap Piece.text ++ [37]) (zeroed room) piece
      rw [List.flatMap_cons, List.append_assoc, zeroed_succ, decoded,
        induction (by omega)]
      rfl

theorem staysInside_iff : StaysInside url ↔ ¬ CutOff url := by
  constructor
  · intro inside cutOff
    exact inside _ (decodeInto_of_cutOff cutOff (Nat.le_refl _))
  · exact staysInside_of_whole

end Decoder

/-! ## Spelled strings -/

section Spelled

variable {letter : Letter} {letters : List Letter} {behind : UInt8}
  {url : Bytes}

/-- A check for all bytes. -/
theorem byte_of_lt {holds : UInt8 → Prop}
    (all : ∀ value < 256, holds (UInt8.ofNat value)) (byte : UInt8) :
    holds byte := by
  simpa using all byte.toNat byte.toNat_lt

theorem strToBin_hexDigit (byte : UInt8) (upperHigh upperLow : Bool) :
    strToBin (hexDigit upperHigh (byte >>> 4))
      (hexDigit upperLow (byte &&& 15)) = byte := by
  revert byte upperHigh upperLow
  refine byte_of_lt ?_
  decide +kernel

theorem decode_plus :
    urlGB2312Decode behind (43 :: url) = 32 :: urlGB2312Decode behind url := by
  rw [urlGB2312Decode.eq_def]
  rfl

/-- A letter that means itself is decoded into its byte. -/
theorem decode_letter (readable : letter.Readable) :
    urlGB2312Decode behind (letter.text ++ url) =
      letter.source :: urlGB2312Decode behind url := by
  cases letter with
  | plain byte =>
      rw [Letter.text, List.singleton_append, urlGB2312Decode.eq_def]
      simp only [if_neg readable.1, if_neg readable.2]
      rfl
  | escaped byte upperHigh upperLow =>
      rw [Letter.source]
      nth_rewrite 2 [← strToBin_hexDigit byte upperHigh upperLow]
      rfl
  | plus => exact decode_plus

theorem cutOff_letter (readable : letter.Readable) :
    CutOff (letter.text ++ url) ↔ CutOff url := by
  cases letter with
  | plain byte => exact cutOff_plain readable.1
  | escaped byte upperHigh upperLow => exact cutOff_escape
  | plus => exact cutOff_plain (by decide)

theorem decode_letters
    (readable : ∀ letter ∈ letters, letter.Readable) :
    ¬ CutOff (letters.flatMap Letter.text) ∧
      urlGB2312Decode behind (letters.flatMap Letter.text) =
        letters.map Letter.source := by
  induction letters with
  | nil => exact ⟨not_cutOff_nil, rfl⟩
  | cons letter letters induction =>
      obtain ⟨first, rest⟩ := List.forall_mem_cons.mp readable
      obtain ⟨whole, decoded⟩ := induction rest
      rw [List.flatMap_cons, cutOff_letter first, decode_letter first,
        decoded, List.map_cons]
      exact ⟨whole, rfl⟩

end Spelled

/-! ## Letters that mean something else -/

section Lengths

variable {ch first second behind : UInt8} {url : Bytes}
  {letters : List Letter}

theorem length_decode_escape :
    (urlGB2312Decode behind (37 :: first :: second :: url)).length =
      (urlGB2312Decode behind url).length + 1 :=
  rfl

theorem length_decode_other (notPercent : ch ≠ 37) :
    (urlGB2312Decode behind (ch :: url)).length =
      (urlGB2312Decode behind url).length + 1 := by
  rw [urlGB2312Decode.eq_def]
  simp only [if_neg notPercent]
  split_ifs <;> rfl

theorem length_decode_one :
    (urlGB2312Decode behind [ch]).length = 1 := by
  by_cases percent : ch = 37
  · subst percent
    rfl
  · rw [length_decode_other percent]
    rfl

/-- Another byte in front changes the length of what is decoded by at most
one, also where it makes an escape of the next two. -/
theorem length_decode_cons (behind ch : UInt8) (url : Bytes) :
    (urlGB2312Decode behind (ch :: url)).length ≤
        (urlGB2312Decode behind url).length + 1 ∧
      (urlGB2312Decode behind url).length ≤
        (urlGB2312Decode behind (ch :: url)).length + 1 := by
  induction size : url.length using Nat.strong_induction_on
    generalizing url ch with
  | _ length induction =>
    by_cases percent : ch = 37
    · subst percent
      match url, size with
      | [], _ =>
          rw [length_decode_one]
          exact ⟨Nat.le_refl 1, Nat.zero_le _⟩
      | [first], _ =>
          rw [length_decode_one]
          exact ⟨Nat.le_succ 1, Nat.le_succ 1⟩
      | first :: second :: url, size =>
          rw [length_decode_escape]
          have inner := induction url.length
            (by rw [← size]; exact Nat.lt_add_of_pos_right Nat.two_pos)
            second url rfl
          have outer := induction (second :: url).length
            (by rw [← size]; exact Nat.lt_succ_self _) first _ rfl
          refine ⟨?_, by omega⟩
          -- what is swallowed would have been decoded into at most one byte
          -- more than what is left of it
          by_cases again : first = 37
          · subst again
            match url, size with
            | [], _ => exact Nat.le_add_left 1 _
            | third :: url, size =>
                have last := induction url.length
                  (by rw [← size, List.length_cons, List.length_cons,
                    List.length_cons]; omega) third url rfl
                rw [length_decode_escape]
                omega
          · rw [length_decode_other again]
            omega
    · rw [length_decode_other percent]
      omega

/-- A spelled string is decoded into at most as many bytes as it has. -/
theorem length_decode_letters :
    (urlGB2312Decode behind (letters.flatMap Letter.text)).length ≤
      letters.length := by
  induction letters with
  | nil => exact Nat.le_refl 0
  | cons letter letters induction =>
      rw [List.flatMap_cons, List.length_cons]
      cases letter with
      | plain byte =>
          have front := (length_decode_cons behind byte
            (letters.flatMap Letter.text)).1
          exact front.trans (Nat.succ_le_succ induction)
      | escaped byte upperHigh upperLow =>
          exact Nat.succ_le_succ induction
      | plus =>
          have front := (length_decode_cons behind 43
            (letters.flatMap Letter.text)).1
          exact front.trans (Nat.succ_le_succ induction)

/-- The values of `CharToInt`. -/
def digitValues : List UInt8 :=
  (List.range 16).map UInt8.ofNat ++ [255]

theorem charToInt_mem (ch : UInt8) : charToInt ch ∈ digitValues := by
  revert ch
  refine byte_of_lt ?_
  decide +kernel

/-- The only escape of the percent sign. -/
theorem strToBin_eq_percent (equal : strToBin first second = 37) :
    first = 50 ∧ second = 53 := by
  have nibbles : charToInt first = 2 ∧ charToInt second = 5 := by
    have all : ∀ high ∈ digitValues, ∀ low ∈ digitValues,
        (high <<< 4) ||| low = 37 → high = 2 ∧ low = 5 := by
      decide +kernel
    exact all _ (charToInt_mem first) _ (charToInt_mem second) equal
  have two : ∀ ch : UInt8, charToInt ch = 2 → ch = 50 := by
    refine byte_of_lt ?_
    decide +kernel
  have five : ∀ ch : UInt8, charToInt ch = 5 → ch = 53 := by
    refine byte_of_lt ?_
    decide +kernel
  exact ⟨two _ nibbles.1, five _ nibbles.2⟩

/-- A percent sign that is written as it is is never decoded into the string
that was spelled: the only escape of a percent sign takes two bytes more. -/
theorem not_percent_of_decode_eq
    (whole : ¬ CutOff (37 :: letters.flatMap Letter.text))
    (decoded : urlGB2312Decode behind (37 :: letters.flatMap Letter.text) =
      37 :: letters.map Letter.source) : False := by
  have bound := @length_decode_letters behind letters
  have size := congrArg List.length decoded
  rw [List.length_cons, List.length_map] at size
  cases spelled : letters.flatMap Letter.text with
  | nil =>
      rw [spelled] at whole
      exact whole cutOff_percent
  | cons first url =>
      rw [spelled] at decoded bound size
      cases url with
      | nil =>
          have digits := strToBin_eq_percent (List.cons.inj decoded).1
          exact absurd digits.2 (by decide)
      | cons second url =>
          obtain ⟨rfl, rfl⟩ := strToBin_eq_percent (List.cons.inj decoded).1
          rw [length_decode_escape] at size
          rw [length_decode_other (by decide),
            length_decode_other (by decide)] at bound
          omega

/-- Only letters that mean themselves are decoded into what was spelled. -/
theorem readable_of_decode_eq
    (whole : ¬ CutOff (letters.flatMap Letter.text))
    (decoded : urlGB2312Decode behind (letters.flatMap Letter.text) =
      letters.map Letter.source) :
    ∀ letter ∈ letters, letter.Readable := by
  induction letters with
  | nil => exact List.forall_mem_nil _
  | cons letter letters induction =>
      rw [List.flatMap_cons] at whole decoded
      have readable : letter.Readable := by
        cases letter with
        | plain byte =>
            constructor
            · rintro rfl
              exact not_percent_of_decode_eq whole decoded
            · rintro rfl
              rw [Letter.text, List.singleton_append, decode_plus] at decoded
              exact absurd (List.cons.inj decoded).1 (by decide)
        | escaped byte upperHigh upperLow => trivial
        | plus => trivial
      rw [decode_letter readable] at decoded
      exact List.forall_mem_cons.mpr ⟨readable,
        induction (mt (cutOff_letter readable).mpr whole)
          (List.cons.inj decoded).2⟩

end Lengths

/-! ## The round trips -/

theorem Spelling.zero_not_mem_source (spelling : Spelling) :
    0 ∉ spelling.source := by
  intro member
  obtain ⟨letter, inside, zero⟩ := List.mem_map.mp member
  exact spelling.noNul letter inside zero

theorem Spelling.length_source (spelling : Spelling) :
    spelling.source.length = spelling.letters.length :=
  List.length_map _

/-- The decoder restores the strings whose letters all mean themselves. -/
theorem restoredSpelling_iff (spelling : Spelling) :
    spelling.Restored ↔ ∀ letter ∈ spelling.letters, letter.Readable := by
  constructor
  · intro restored
    have whole : ¬ CutOff spelling.text := by
      intro cutOff
      obtain ⟨decoded, run, _⟩ :=
        restored (spelling.text.length + spelling.source.length + 1)
          (by omega)
      rw [decodeInto_of_cutOff cutOff (by omega)] at run
      cases run
    obtain ⟨decoded, run, same⟩ :=
      restored (spelling.source.length + 1) (Nat.lt_succ_self _)
    have bound : (urlGB2312Decode 0 spelling.text).length ≤
        spelling.source.length := by
      rw [spelling.length_source]
      exact length_decode_letters
    rw [decodeInto_of_whole 0 whole (by omega)] at run
    cases run
    rw [zeroed, cString_append_zeros] at same
    have full : cString (urlGB2312Decode 0 spelling.text) =
        urlGB2312Decode 0 spelling.text := by
      refine (List.takeWhile_sublist _).eq_of_length_le ?_
      change _ ≤ (cString _).length
      rw [same]
      exact bound
    exact readable_of_decode_eq whole (full.symm.trans same)
  · intro readable room enough
    obtain ⟨whole, decoded⟩ := @decode_letters spelling.letters 0 readable
    change urlGB2312Decode 0 spelling.text = spelling.source at decoded
    have fits : (urlGB2312Decode 0 spelling.text).length ≤ room := by
      rw [decoded]
      exact enough.le
    refine ⟨_, decodeInto_of_whole 0 whole fits, ?_⟩
    rw [decoded, zeroed, cString_append_zeros]
    exact cString_eq_self spelling.zero_not_mem_source

/-- How the coder writes a byte that it can write. -/
def letterOf (byte : UInt8) : Letter :=
  if isAlnum byte then .plain byte
  else if isSpace byte then .plus
  else .escaped byte true true

section Coder

variable {byte : UInt8} {str : Bytes} {room : Nat}

/-- The escape of a byte from `0x80` on does not fit into `tempbuff`. -/
theorem tempbuff_eq (byte : UInt8) :
    tempbuff byte = if byte < 128 then some (letterOf byte).text else none := by
  revert byte
  refine byte_of_lt ?_
  decide +kernel

theorem hexDigit_ne_zero {nibble : UInt8} (small : nibble.toNat < 16) :
    hexDigit true nibble ≠ 0 := by
  intro zero
  have value := congrArg UInt8.toNat zero
  rw [hexDigit, if_pos rfl] at value
  split_ifs at value <;>
    simp only [UInt8.toNat_add, UInt8.reduceToNat] at value <;> omega

theorem zero_not_mem_letterOf (notNul : byte ≠ 0) :
    0 ∉ (letterOf byte).text := by
  have high : (byte >>> 4).toNat < 16 := by
    have small := byte.toNat_lt
    have shift : (4 : UInt8).toNat % 8 = 4 := rfl
    rw [UInt8.toNat_shiftRight, shift, Nat.shiftRight_eq_div_pow]
    omega
  have low : (byte &&& 15).toNat < 16 := by
    rw [UInt8.toNat_and]
    exact Nat.lt_succ_of_le Nat.and_le_right
  have highDigit := hexDigit_ne_zero high
  have lowDigit := hexDigit_ne_zero low
  rw [letterOf]
  split_ifs with alnum space
  · simpa [Letter.text] using notNul.symm
  · simp [Letter.text]
  · simp [Letter.text, highDigit.symm, lowDigit.symm]

theorem length_letterOf_le (byte : UInt8) :
    (letterOf byte).text.length ≤ 3 := by
  rw [letterOf]
  split_ifs <;> simp [Letter.text]

theorem readable_letterOf (byte : UInt8) : (letterOf byte).Readable := by
  rw [letterOf]
  split_ifs with alnum space
  · constructor
    · rintro rfl
      exact absurd alnum (by decide)
    · rintro rfl
      exact absurd alnum (by decide)
  · trivial
  · trivial

theorem isSpace_of_isAlnum (alnum : isAlnum byte = true) :
    isSpace byte = false := by
  simp only [isAlnum, Bool.or_eq_true, Bool.and_eq_true, decide_eq_true_eq,
    UInt8.le_iff_toNat_le, UInt8.reduceToNat] at alnum
  rw [← Bool.not_eq_true]
  intro space
  simp only [isSpace, Bool.or_eq_true, Bool.and_eq_true, decide_eq_true_eq,
    beq_iff_eq, ← UInt8.toNat_inj, UInt8.le_iff_toNat_le,
    UInt8.reduceToNat] at space
  omega

/-- What the decoder makes of a byte that the coder has written. -/
theorem source_letterOf (byte : UInt8) :
    (letterOf byte).source = byte ↔ (isSpace byte = true → byte = 32) := by
  rw [letterOf]
  split_ifs with alnum space
  · simp [Letter.source, isSpace_of_isAlnum alnum]
  · simp [Letter.source, space, eq_comm]
  · simp [Letter.source, space]

theorem source_letterOf_ne_zero (notNul : byte ≠ 0) :
    (letterOf byte).source ≠ 0 := by
  rw [letterOf]
  split_ifs
  · exact notNul
  · exact (by decide : (32 : UInt8) ≠ 0)
  · exact notNul

/-- `strcat` writes behind the text that is there. -/
theorem strcat_zeroed {written text : Bytes} (noNul : 0 ∉ written)
    (fits : text.length < room) :
    strcat (written ++ zeroed room) text =
      some (written ++ text ++ zeroed (room - text.length)) := by
  obtain ⟨more, rfl⟩ := Nat.exists_eq_add_of_lt fits
  have before : cString (written ++ zeroed (text.length + more + 1)) =
      written := by
    rw [zeroed, cString_append_zeros, cString_eq_self noNul]
  have behind :
      (written ++ zeroed (text.length + more + 1)).drop
        ((written ++ text).length + 1) = zeroed more := by
    rw [List.length_append, Nat.add_assoc, List.drop_length_add_append,
      zeroed, List.drop_replicate, zeroed]
    congr 1
    omega
  rw [strcat, before, behind, if_pos]
  · rw [show text.length + more + 1 - text.length = more + 1 by omega]
    rfl
  · simp only [List.length_append, zeroed, List.length_replicate]
    omega

/-- What the coder writes for a string. -/
def codedText (str : Bytes) : Bytes :=
  (str.map letterOf).flatMap Letter.text

theorem codedText_cons (byte : UInt8) (str : Bytes) :
    codedText (byte :: str) = (letterOf byte).text ++ codedText str :=
  rfl

theorem zero_not_mem_codedText (noNul : 0 ∉ str) : 0 ∉ codedText str := by
  intro member
  obtain ⟨letter, inside, zero⟩ := List.mem_flatMap.mp member
  obtain ⟨byte, known, rfl⟩ := List.mem_map.mp inside
  exact zero_not_mem_letterOf (fun nul => noNul (nul ▸ known)) zero

theorem urlenUTF8_zeroed (noNul : 0 ∉ str)
    (plain : ∀ byte ∈ str, byte < 128) {written : Bytes}
    (before : 0 ∉ written) (room : Nat) (fits : 3 * str.length < room) :
    ∃ rest, urlenUTF8 str (written ++ zeroed room) =
      some (written ++ codedText str ++ zeroed rest) := by
  induction str generalizing written room with
  | nil => exact ⟨room, by simp [urlenUTF8, codedText]⟩
  | cons byte str induction =>
      obtain ⟨first, rest⟩ := List.forall_mem_cons.mp plain
      rw [List.mem_cons, not_or] at noNul
      have short := length_letterOf_le byte
      rw [List.length_cons] at fits
      have next : 0 ∉ written ++ (letterOf byte).text := by
        rw [List.mem_append, not_or]
        exact ⟨before, zero_not_mem_letterOf (Ne.symm noNul.1)⟩
      obtain ⟨left, coded⟩ := induction noNul.2 rest next
        (room - (letterOf byte).text.length) (by omega)
      refine ⟨left, ?_⟩
      rw [urlenUTF8, tempbuff_eq, if_pos first, Option.bind_some,
        strcat_zeroed before (by omega), Option.bind_some, coded,
        codedText_cons, List.append_assoc written]

/-- Only ASCII bytes fit into `tempbuff`. -/
theorem ascii_of_urlenUTF8 {dest coded : Bytes}
    (run : urlenUTF8 str dest = some coded) : ∀ byte ∈ str, byte < 128 := by
  induction str generalizing dest with
  | nil => exact List.forall_mem_nil _
  | cons byte str induction =>
      rw [urlenUTF8, tempbuff_eq] at run
      obtain ⟨text, buffered, run⟩ := Option.bind_eq_some_iff.mp run
      obtain ⟨next, _, run⟩ := Option.bind_eq_some_iff.mp run
      rw [Option.ite_none_right_eq_some] at buffered
      exact List.forall_mem_cons.mpr ⟨buffered.1, induction run⟩

/-- The spelling that the coder chooses. -/
def spellingOf (str : Bytes) (noNul : 0 ∉ str) : Spelling where
  letters := str.map letterOf
  noNul := by
    intro letter member
    obtain ⟨byte, known, rfl⟩ := List.mem_map.mp member
    exact source_letterOf_ne_zero fun nul => noNul (nul ▸ known)

theorem restored_spellingOf (noNul : 0 ∉ str) :
    (spellingOf str noNul).Restored := by
  refine (restoredSpelling_iff _).mpr ?_
  intro letter member
  obtain ⟨byte, _, rfl⟩ := List.mem_map.mp member
  exact readable_letterOf byte

theorem source_spellingOf_eq_iff (noNul : 0 ∉ str) :
    (spellingOf str noNul).source = str ↔
      ∀ byte ∈ str, isSpace byte = true → byte = 32 := by
  have same : (spellingOf str noNul).source =
      str.map fun byte => (letterOf byte).source := by
    rw [Spelling.source, spellingOf, List.map_map]
    rfl
  rw [same]
  nth_rewrite 2 [← List.map_id str]
  rw [List.map_inj_left]
  exact forall₂_congr fun byte _ => source_letterOf byte

end Coder

/-- The bytes that the coder can write and that are no white space but the
blank. -/
def Codable (str : Bytes) : Prop :=
  ∀ byte ∈ str, byte < 128 ∧ (isSpace byte = true → byte = 32)

theorem roundTrip_iff {str : Bytes} (noNul : 0 ∉ str) :
    RoundTrip str ↔ Codable str := by
  have restored := restored_spellingOf noNul
  have length : (spellingOf str noNul).source.length = str.length := by
    rw [Spelling.length_source]
    exact List.length_map _
  have output (rest : Nat) : cString (codedText str ++ zeroed rest) =
      (spellingOf str noNul).text := by
    rw [zeroed, cString_append_zeros,
      cString_eq_self (zero_not_mem_codedText noNul)]
    rfl
  have coded (plain : ∀ byte ∈ str, byte < 128) {room : Nat}
      (fits : 3 * str.length < room) :=
    @urlenUTF8_zeroed str noNul plain [] List.not_mem_nil room fits
  simp only [List.nil_append] at coded
  constructor
  · intro trip
    obtain ⟨text, run, back⟩ := trip (3 * str.length + 1)
      (Nat.lt_succ_self _)
    have plain := ascii_of_urlenUTF8 run
    obtain ⟨rest, again⟩ := coded plain (Nat.lt_succ_self _)
    cases run.symm.trans again
    obtain ⟨decoded, decodes, same⟩ := back (str.length + 1)
      (Nat.lt_succ_self _)
    obtain ⟨other, otherDecodes, source⟩ := restored (str.length + 1)
      (by rw [length]; exact Nat.lt_succ_self _)
    rw [output] at decodes
    cases decodes.symm.trans otherDecodes
    have spaces := (source_spellingOf_eq_iff noNul).mp
      (source.symm.trans same)
    exact fun byte member => ⟨plain byte member, spaces byte member⟩
  · intro codable room fits
    obtain ⟨rest, run⟩ := coded (fun byte member => (codable byte member).1)
      fits
    refine ⟨_, run, fun more enough => ?_⟩
    obtain ⟨decoded, decodes, source⟩ := restored more
      (by rw [length]; exact enough)
    refine ⟨decoded, ?_, source.trans ?_⟩
    · rw [output]
      exact decodes
    · exact (source_spellingOf_eq_iff noNul).mpr
        fun byte member => (codable byte member).2

/-- **The coding of words can be undone.**

A string survives the coder exactly when all its bytes are ASCII and its white
space is blanks, a spelled string is restored exactly when it has no `%` and
no `+` that stands for itself, and the decoder stays in front of the
terminator exactly when the text does not end in the percent sign of an
escape. -/
theorem url_coding_iff {str : Bytes} (noNul : 0 ∉ str)
    (spelling : Spelling) (url : Bytes) :
    (RoundTrip str ↔ Codable str) ∧
      (spelling.Restored ↔
        ∀ letter ∈ spelling.letters, letter.Readable) ∧
      (StaysInside url ↔ ¬ CutOff url) :=
  ⟨roundTrip_iff noNul, restoredSpelling_iff spelling, staysInside_iff⟩

/-- A word with a blank, its spelling with a plus, and a whole escape. -/
theorem url_coding_iff_word :
    (RoundTrip (ascii "red car") ↔ Codable (ascii "red car")) ∧
      ((spellingOf (ascii "red car") (by decide)).Restored ↔
        ∀ letter ∈ (spellingOf (ascii "red car") (by decide)).letters,
          letter.Readable) ∧
      (StaysInside (ascii "%41") ↔ ¬ CutOff (ascii "%41")) :=
  url_coding_iff (by decide) _ _

/-- A byte from `0x80` on is not written inside `tempbuff`, a tabulator comes
back as a blank, and a percent sign at the end reads behind the
terminator. -/
theorem not_url_coding :
    ¬ RoundTrip [0xE8] ∧ ¬ RoundTrip [9] ∧ ¬ StaysInside (ascii "100%") := by
  refine ⟨?_, ?_, ?_⟩
  · intro trip
    have codable := (roundTrip_iff (by decide)).mp trip
    exact absurd (codable 0xE8 (by decide)).1 (by decide)
  · intro trip
    have codable := (roundTrip_iff (by decide)).mp trip
    exact absurd ((codable 9 (by decide)).2 (by decide)) (by decide)
  · intro inside
    exact inside (zeroed 4) (by decide +kernel)

end WindowSystem.UrlCode
