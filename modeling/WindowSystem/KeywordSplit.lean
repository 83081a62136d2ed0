import WindowSystem.ContainKey
import WindowSystem.InstantQueryContent
import WindowSystem.Library.Tokens

/-!
# Splitting what the segmenter has joined

`MixSegmentCut` is called with the separator `-MEG-`, and its text is cut with
`strtok_r` and the delimiters `-MEG-`: by the loader in
`instant_query_content.c` and for a search in `instant_search_pop.c`.  The
separator is one text for the first and a set of bytes for the second.
-/

namespace WindowSystem.KeywordSplit

open WindowSystem.CRuntime
open WindowSystem.Library
open WindowSystem.SearchWords
open WindowSystem.TextCodes
open WindowSystem.ToolHashMap

/-! ## The loops -/

/-- A call of `strtok_r` with these delimiters: the token, and the text at
`outer_ptr`. -/
def strtokR (delimiters kbuf : Bytes) : Option (Bytes × Bytes) :=
  Tokens.next (delimiters.contains ·) kbuf

/-- `while ((p[in] = strtok_r (kbuf, "-MEG-", &outer_ptr)) != NULL) in++`, with
the number of entries of `p` that are left; `none` is a write behind the
last one. -/
def splitLoop : Nat → Bytes → Option (List Bytes)
  | 0, _ => none
  | free + 1, kbuf =>
      match strtokR (ascii "-MEG-") kbuf with
      | none => some []
      | some (token, outerPtr) => (splitLoop free outerPtr).map (token :: ·)

/-- The tokens in the array `p[120]` of the loader. -/
def loadTokens (result : Bytes) : Option (List Bytes) :=
  splitLoop 120 result

/-- The tokens in the array `p[120]` of a search. -/
def queryTokens (result : Bytes) : Option (List Bytes) :=
  splitLoop 120 result

theorem strtokAny_eq_tokens (delimiters text : Bytes) :
    strtokAny delimiters text =
      Tokens.tokens (delimiters.contains ·) text :=
  rfl

/-- The loop stores the tokens, and a null pointer behind them. -/
theorem splitLoop_eq (free : Nat) (kbuf : Bytes) :
    splitLoop free kbuf =
      if (strtokAny (ascii "-MEG-") kbuf).length < free then
        some (strtokAny (ascii "-MEG-") kbuf)
      else none := by
  rw [strtokAny_eq_tokens]
  induction free generalizing kbuf with
  | zero => rw [splitLoop, if_neg (Nat.not_lt_zero _)]
  | succ free induction =>
      rw [splitLoop, strtokR, Tokens.tokens_eq_next kbuf]
      cases Tokens.next ((ascii "-MEG-").contains ·) kbuf with
      | none => simp
      | some found =>
          obtain ⟨token, outerPtr⟩ := found
          simp only [induction, List.length_cons, Nat.add_lt_add_iff_right]
          split_ifs
          · rfl
          · rfl

/-- What is done with the array behind the loop. -/
theorem bind_splitLoop {β : Type} (kbuf : Bytes)
    (handle : List Bytes → Option β) :
    (splitLoop 120 kbuf).bind handle =
      if (strtokAny (ascii "-MEG-") kbuf).length < 120 then
        handle (strtokAny (ascii "-MEG-") kbuf)
      else none := by
  rw [splitLoop_eq]
  by_cases few : (strtokAny (ascii "-MEG-") kbuf).length < 120
  · rw [if_pos few, if_pos few, Option.bind_some]
  · rw [if_neg few, if_neg few, Option.bind_none]

/-- The loader files what its array holds. -/
theorem loadKeyword_eq_bind (loader : InstantQueryContent.Loader)
    (call : Nat) (iadvId : Int) (value : Bytes)
    (pQCHashMap : HashMap AdFire) :
    loader.loadKeyword call iadvId value pQCHashMap =
      (InstantQueryContent.decodeValue value).bind fun dest =>
        (loadTokens
            (loader.mixSegmentCut (cString dest) (ascii "-MEG-"))).bind
          fun p => loader.fileWords call iadvId p.zipIdx pQCHashMap := by
  simp only [InstantQueryContent.Loader.loadKeyword, loadTokens,
    bind_splitLoop, InstantQueryContent.Loader.cutWords]
  rfl

/-- The search counts what its array holds. -/
theorem checkContainKeyInto_eq_bind (conf : SearchConf)
    (psMqHttpMes : DcGlobal.MqHttpMessage) :
    ContainKey.checkContainKeyInto conf psMqHttpMes =
      (ContainKey.fenci conf psMqHttpMes).bind fun
      | none => some (-1, [])
      | some text =>
          (queryTokens text).bind fun p =>
            (countLoop conf p ⟨0, 0, []⟩).map fun count =>
              (ContainKey.result count, count.aid) := by
  rw [ContainKey.checkContainKeyInto]
  congr 1
  funext text
  cases text with
  | none => rfl
  | some text =>
      simp only [queryTokens, bind_splitLoop, ContainKey.checkTokens,
        ContainKey.tokens]
      rfl

/-! ## Joining and splitting -/

/-- A token of the segmenter: a nonempty C string without the separator. -/
structure Token where
  text : Bytes
  nonempty : text ≠ []
  noNul : 0 ∉ text
  noSeparator : ¬ ascii "-MEG-" <:+: text

/-- The text of `MixSegmentCut`. -/
def join (words : List Token) : Bytes :=
  (ascii "-MEG-").intercalate (words.map Token.text)

/-- Both places find the tokens that were joined. -/
structure Restored (words : List Token) : Prop where
  loader : loadTokens (join words) = some (words.map Token.text)
  query : queryTokens (join words) = some (words.map Token.text)

/-- The pointers fit, and no token holds a dash or one of the capitals `M`,
`E` and `G`. -/
structure Fits (words : List Token) : Prop where
  pointers : words.length ≤ 119
  plain : ∀ word ∈ words, ∀ byte ∈ word.text, byte ∉ ascii "-MEG-"

/-- The tokens of a joined text are the ones that were joined exactly when no
token holds a delimiter. -/
theorem strtokAny_join_eq_iff (words : List Token) :
    strtokAny (ascii "-MEG-") (join words) = words.map Token.text ↔
      ∀ word ∈ words, ∀ byte ∈ word.text, byte ∉ ascii "-MEG-" := by
  rw [strtokAny_eq_tokens, join,
    Tokens.tokens_intercalate_eq_iff (by decide) (by simp),
    List.forall_mem_map]
  refine forall₂_congr fun word _ => ?_
  rw [and_iff_right word.nonempty]
  simp only [List.contains_eq_mem, decide_eq_false_iff_not]

theorem splitLoop_join_eq_iff (words : List Token) :
    splitLoop 120 (join words) = some (words.map Token.text) ↔
      Fits words := by
  rw [splitLoop_eq]
  constructor
  · intro found
    split_ifs at found with few
    have same := Option.some.inj found
    rw [same, List.length_map] at few
    exact ⟨by omega, (strtokAny_join_eq_iff words).mp same⟩
  · intro fits
    have few := fits.pointers
    rw [(strtokAny_join_eq_iff words).mpr fits.plain, List.length_map,
      if_pos (by omega)]

/-- **Splitting undoes the join.**

The loader and the search find the tokens of the segmenter again exactly when
there are at most 119 and none of them holds a byte of the separator. -/
theorem restored_iff_fits (words : List Token) :
    Restored words ↔ Fits words := by
  constructor
  · intro restored
    exact (splitLoop_join_eq_iff words).mp restored.loader
  · intro fits
    have found := (splitLoop_join_eq_iff words).mpr fits
    exact ⟨found, found⟩

/-- The token `GPS`. -/
def gps : Token where
  text := ascii "GPS"
  nonempty := List.cons_ne_nil _ _
  noNul := of_decide_eq_true rfl
  noSeparator := of_decide_eq_true rfl

/-- `GPS` comes back as `PS`. -/
theorem not_restored_gps : ¬ Restored [gps] := by
  intro restored
  have plain := ((splitLoop_join_eq_iff [gps]).mp restored.loader).plain
  exact plain gps List.mem_cons_self 71 (by decide) (by decide)

end WindowSystem.KeywordSplit
