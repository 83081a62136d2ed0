import WindowSystem.ListFiles

/-!
# The white list of the mobile popups

`filter_rule_mobile.c` looks the account of a page, the parameter `__biz` of
its URI, up in a table of accounts.  `check_mobile_ad_white` finds the two ends
of the account with two independent searches from the front of the URI, and
copies what is between them into an array of 512 bytes.
-/

namespace WindowSystem.FilterRuleMobile

open WindowSystem.CRuntime
open WindowSystem.Library
open WindowSystem.ListFiles
open WindowSystem.ToolHashMap

/-! ## The functions -/

/-- `load_mobile_ad_white_dictory`, from the contents of the files in the
directory; a file that cannot be opened is `none`. -/
def loadMobileAdWhiteDictory (files : List (Option Bytes)) : HashMap Unit :=
  files.foldl hashMapReadFile (hashMapNew 40960)

/-- `begin`. -/
def biz : Bytes :=
  ascii "__biz="

/-- `check_mobile_ad_white`; `none` stands for a text without a terminator in
`Ad`, or a write behind it. -/
def checkMobileAdWhite (g_pMobileAdHashMap : HashMap Unit)
    (pcUri : Bytes) : Option Bool :=
  match strstr pcUri biz with
  | none => some false
  | some place =>
      let adBegin := place + biz.length
      match strstr pcUri (ascii "&") with
      | none => some false
      | some adEnd =>
          if adEnd ≤ adBegin then some false
          else
            (store 512 (Substring.slice pcUri adBegin adEnd)).map fun ad =>
              0 ≤ (hashMapFind g_pMobileAdHashMap ad ad.length).ret

/-! ## What is to hold -/

/-- The text is a key of the table. -/
def IsKey (table : HashMap Unit) (text : Bytes) : Prop :=
  (table.lookup (fingerprint table.hashLen text text.length)).isSome

/-- What is behind the first question mark. -/
def query (uri : Bytes) : Bytes :=
  (uri.dropWhile (· ≠ 63)).drop 1

/-- The value of the first parameter with this name. -/
def bizValue (uri : Bytes) : Option Bytes :=
  ((query uri).splitOn 38).findSome? fun parameter =>
    if biz.isPrefixOf parameter then some (parameter.drop biz.length)
    else none

/-- The account of the page is on the list. -/
def Listed (table : HashMap Unit) (uri : Bytes) : Prop :=
  ∃ value, bizValue uri = some value ∧ IsKey table value

/-- The function answers whether the account is on the list, inside its
array. -/
def Right (table : HashMap Unit) (uri : Bytes) : Prop :=
  ∃ answer, checkMobileAdWhite table uri = some answer ∧
    (answer = true ↔ Listed table uri)

/-- The first ampersand ends a text that begins behind the first `__biz=`. -/
structure Ended (uri front text : Bytes) : Prop where
  parts : ∃ rest, uri = front ++ biz ++ text ++ 38 :: rest
  first : strstr uri biz = some front.length
  noAmpersand : 38 ∉ front ++ text
  nonempty : text ≠ []

/-- In front of the text there is a path and its question mark. -/
def EndsPath (front : Bytes) : Prop :=
  ∃ path, 63 ∉ path ∧ front = path ++ [63]

/-- An ended text fits into the array, and it is the value of the parameter,
or as good as it; without one the account is not on the list. -/
structure Fits (table : HashMap Unit) (uri : Bytes) : Prop where
  ended {front text : Bytes} : Ended uri front text →
    text.length < 512 ∧
      (EndsPath front ∨ (IsKey table text ↔ Listed table uri))
  other : (∀ front text, ¬ Ended uri front text) → ¬ Listed table uri

/-! ## The table -/

section Table

variable {table : HashMap Unit}

theorem hashLen_foldl_insertLine (lines : List Bytes) :
    (lines.foldl insertLine table).hashLen = table.hashLen := by
  induction lines generalizing table with
  | nil => rfl
  | cons line lines induction =>
      rw [List.foldl_cons, induction, insertLine, hashLen_hashMapInsert]

theorem hashLen_hashMapReadFile (file : Option Bytes) :
    (hashMapReadFile table file).hashLen = table.hashLen := by
  cases file with
  | none => rfl
  | some content => exact hashLen_foldl_insertLine _

theorem hashLen_loadMobileAdWhiteDictory (files : List (Option Bytes)) :
    (loadMobileAdWhiteDictory files).hashLen = 40960 := by
  induction files using List.reverseRecOn with
  | nil => rfl
  | append_singleton files file induction =>
      rw [loadMobileAdWhiteDictory, List.foldl_concat,
        hashLen_hashMapReadFile]
      exact induction

theorem isKey_iff (searchable : table.Searchable) (text : Bytes) :
    0 ≤ (hashMapFind table text text.length).ret ↔ IsKey table text :=
  ret_hashMapFind_nonneg_iff searchable.1 searchable.2 text text.length

end Table

/-! ## The two searches -/

section Searches

variable {table : HashMap Unit} {uri front text : Bytes}

theorem strstr_ampersand (noAmpersand : 38 ∉ front) (rest : Bytes) :
    strstr (front ++ 38 :: rest) (ascii "&") = some front.length := by
  have found := (Substring.firstOccurrence_append_iff
    (List.cons_ne_nil 38 ([] : Bytes)) front rest).mpr
  rw [List.append_assoc] at found
  refine found ?_
  rw [List.dropLast_singleton, List.append_nil]
  exact Substring.not_infix_of_not_mem List.mem_cons_self noAmpersand

theorem strstr_ampersand_none (noAmpersand : 38 ∉ uri) :
    strstr uri (ascii "&") = none :=
  (Substring.firstOccurrence_eq_none_iff _ _).mpr
    (Substring.not_infix_of_not_mem List.mem_cons_self noAmpersand)

theorem ampersand_not_mem_biz : 38 ∉ biz := by
  decide

/-- An ended text is copied and looked up. -/
theorem check_of_ended (ended : Ended uri front text) :
    checkMobileAdWhite table uri =
      (store 512 text).map fun ad =>
        decide (0 ≤ (hashMapFind table ad ad.length).ret) := by
  obtain ⟨rest, parts⟩ := ended.parts
  have absent : 38 ∉ front ++ biz ++ text := by
    have outside := ended.noAmpersand
    simp only [List.mem_append, not_or] at outside ⊢
    exact ⟨⟨outside.1, ampersand_not_mem_biz⟩, outside.2⟩
  have adEnd : strstr uri (ascii "&") =
      some (front ++ biz ++ text).length := by
    rw [parts]
    exact strstr_ampersand absent rest
  have later : ¬ (front ++ biz ++ text).length ≤ front.length + biz.length := by
    have positive := List.length_pos_of_ne_nil ended.nonempty
    simp only [List.length_append]
    omega
  have cut : Substring.slice uri (front.length + biz.length)
      (front ++ biz ++ text).length = text := by
    rw [parts]
    exact Substring.slice_append front biz text _
  simp only [checkMobileAdWhite, ended.first, adEnd, if_neg later, cut]

/-- What the two searches find is an ended text. -/
theorem ended_of_found {place : Nat} {before rest : Bytes}
    (first : strstr uri biz = some place)
    (parts : uri = before ++ 38 :: rest) (noAmpersand : 38 ∉ before)
    (later : place + biz.length < before.length) :
    ∃ front text, Ended uri front text := by
  have occurs := ((Substring.firstOccurrence_eq_some_iff _ _ _).mp first).1
  have inside := occurs.length_le
  obtain ⟨behind, written⟩ := occurs
  have front : (uri.take place).length = place := by
    rw [List.length_take]
    rw [List.length_drop] at inside
    have positive : 0 < biz.length := by decide
    omega
  have cut : (uri.take place ++ biz) ++ behind = before ++ 38 :: rest := by
    rw [List.append_assoc, written, List.take_append_drop, parts]
  rcases List.append_eq_append_iff.mp cut with
    ⟨text, equal, after⟩ | ⟨text, equal, _⟩
  · refine ⟨uri.take place, text, ⟨rest, ?_⟩, ?_, ?_, ?_⟩
    · rw [← equal]
      exact parts
    · rw [front]
      exact first
    · rw [equal] at noAmpersand
      simp only [List.mem_append, not_or] at noAmpersand ⊢
      exact ⟨noAmpersand.1.1, noAmpersand.2⟩
    · rintro rfl
      rw [equal, List.append_nil, List.length_append, front] at later
      omega
  · have short := congrArg List.length equal
    simp only [List.length_append, front] at short
    omega

/-- Without an ended text the answer is negative. -/
theorem check_of_not_ended (nowhere : ∀ front text, ¬ Ended uri front text) :
    checkMobileAdWhite table uri = some false := by
  rw [checkMobileAdWhite]
  cases first : strstr uri biz with
  | none => rfl
  | some place =>
      by_cases ampersand : 38 ∈ uri
      · obtain ⟨before, rest, parts, absent⟩ :=
          List.eq_append_cons_of_mem ampersand
        have adEnd : strstr uri (ascii "&") = some before.length := by
          rw [parts]
          exact strstr_ampersand absent rest
        have early : before.length ≤ place + biz.length := by
          by_contra later
          obtain ⟨front, text, ended⟩ :=
            ended_of_found first parts absent (by omega)
          exact nowhere front text ended
        simp only [adEnd, if_pos early]
      · simp only [strstr_ampersand_none ampersand]

end Searches

/-! ## The parameter -/

section Parameter

variable {uri front text : Bytes}

/-- A text behind the question mark of the path is the value of the
parameter. -/
theorem bizValue_of_endsPath (ended : Ended uri front text)
    (endsPath : EndsPath front) : bizValue uri = some text := by
  obtain ⟨path, noQuery, rfl⟩ := endsPath
  obtain ⟨rest, rfl⟩ := ended.parts
  have absent : 38 ∉ biz ++ text := by
    have outside := ended.noAmpersand
    simp only [List.mem_append, not_or] at outside ⊢
    exact ⟨ampersand_not_mem_biz, outside.2⟩
  have behind : query (path ++ [63] ++ biz ++ text ++ 38 :: rest) =
      (biz ++ text) ++ 38 :: rest := by
    have stops : (path ++ 63 :: (biz ++ text ++ 38 :: rest)).dropWhile
        (· ≠ 63) = 63 :: (biz ++ text ++ 38 :: rest) := by
      rw [List.dropWhile_append_of_pos,
        List.dropWhile_cons_of_neg (by decide)]
      intro byte member
      exact decide_eq_true fun equal => noQuery (equal ▸ member)
    have shape : path ++ [63] ++ biz ++ text ++ 38 :: rest =
        path ++ 63 :: (biz ++ text ++ 38 :: rest) := by
      simp only [List.append_assoc, List.cons_append, List.nil_append]
    rw [query, shape, stops]
    rfl
  rw [bizValue, behind, List.splitOn_append_cons_self_of_not_mem absent,
    List.findSome?_cons]
  have isPrefix : biz.isPrefixOf (biz ++ text) = true :=
    List.isPrefixOf_iff_prefix.mpr (List.prefix_append _ _)
  rw [if_pos isPrefix, List.drop_left]

end Parameter

/-- **The white list is answered exactly.**

For every directory and every URI the answer is right exactly when a text that
the first ampersand ends has fewer than 512 bytes and is the value of the
parameter, or as good as it, and where it ends no text the account is not on
the list. -/
theorem white_list_iff (files : List (Option Bytes)) (uri : Bytes) :
    Right (loadMobileAdWhiteDictory files) uri ↔
      Fits (loadMobileAdWhiteDictory files) uri := by
  have searchable : (loadMobileAdWhiteDictory files).Searchable := by
    rw [HashMap.Searchable, hashLen_loadMobileAdWhiteDictory]
    decide
  constructor
  · rintro ⟨answer, run, right⟩
    constructor
    case ended =>
      intro front text ended
      rw [check_of_ended ended, Option.map_eq_some_iff] at run
      obtain ⟨ad, stored, rfl⟩ := run
      obtain ⟨fits, rfl⟩ := store_eq_some_iff.mp stored
      rw [decide_eq_true_iff, isKey_iff searchable] at right
      exact ⟨fits, Or.inr right⟩
    case other =>
      intro nowhere
      rw [check_of_not_ended nowhere] at run
      cases run
      exact mt right.mpr Bool.false_ne_true
  · intro fits
    by_cases found : ∃ front text, Ended uri front text
    · obtain ⟨front, text, ended⟩ := found
      obtain ⟨room, value⟩ := fits.ended ended
      refine ⟨_, by rw [check_of_ended ended, store, if_pos room,
        Option.map_some], ?_⟩
      rw [decide_eq_true_iff, isKey_iff searchable]
      rcases value with endsPath | same
      · have value := bizValue_of_endsPath ended endsPath
        constructor
        · exact fun key => ⟨text, value, key⟩
        · rintro ⟨other, known, key⟩
          rw [value] at known
          cases known
          exact key
      · exact same
    · push Not at found
      refine ⟨false, check_of_not_ended found, ?_⟩
      exact iff_of_false Bool.false_ne_true (fits.other found)

/-- A directory with one list of one account. -/
def oneAccount : List (Option Bytes) :=
  [some (ascii "MzA5\n")]

/-- The account is on the list, but another parameter stands in front of
it. -/
theorem not_right_secondParameter :
    ¬ Right (loadMobileAdWhiteDictory oneAccount)
      (ascii "/s?mid=1&__biz=MzA5&idx=2") := by
  rintro ⟨answer, run, right⟩
  have refused : checkMobileAdWhite (loadMobileAdWhiteDictory oneAccount)
      (ascii "/s?mid=1&__biz=MzA5&idx=2") = some false := by
    decide +kernel
  rw [refused] at run
  cases run
  have listed : Listed (loadMobileAdWhiteDictory oneAccount)
      (ascii "/s?mid=1&__biz=MzA5&idx=2") := by
    refine ⟨ascii "MzA5", by decide +kernel, ?_⟩
    unfold IsKey
    decide +kernel
  exact Bool.false_ne_true (right.mpr listed)

end WindowSystem.FilterRuleMobile
