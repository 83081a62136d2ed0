import WindowSystem.SearchBuffers

/-!
# What a search hands to its caller

`rule_pop_check_contain_key` fills the array `aid` of its caller while it
counts the words of a search, and returns whether the search is reported.  The
array has 24 entries, and the pointers to the words 120, of which the last one
is `NULL`.
-/

namespace WindowSystem.ContainKey

open WindowSystem.CRuntime
open WindowSystem.DcGlobal
open WindowSystem.Library
open WindowSystem.SearchWords
open WindowSystem.TextCodes

/-! ## The function with its array -/

/-- The return value. -/
def result (count : Count) : Int :=
  if count.Reports then 1 else -1

/-- The parts into which the text of `MixSegmentCut` is cut. -/
def tokens (fenci : Bytes) : List Bytes :=
  strtokAny (ascii "-MEG-") fenci

/-- What is done with the text of `MixSegmentCut`: the return value and the
identifiers in `aid`. -/
def checkTokens (conf : SearchConf) (p : List Bytes) :
    Option (Int × List Int) :=
  if p.length < 120 then
    (countLoop conf p ⟨0, 0, []⟩).map fun count => (result count, count.aid)
  else none

/-- The text of `MixSegmentCut` for a request; `none` is a write behind one of
the three arrays in front of it, `some none` that no word is searched or
cut. -/
def fenci (conf : SearchConf) (psMqHttpMes : MqHttpMessage) :
    Option (Option Bytes) :=
  match conf.queryRule psMqHttpMes.host with
  | none => some none
  | some pReg =>
      match pReg.regexec psMqHttpMes.pcUri with
      | none => some none
      | some none => some none
      | some (some (start, stop)) =>
          if stop - start ≤ 512 ∧ stop < 512 then
            let word := Substring.slice psMqHttpMes.pcUri start stop
            (store 512 (urlGB2312Decode (conf.behind word) word)).bind
              fun desk =>
                (segmented conf (cString desk)).map conf.mixSegmentCut
          else none

/-- `rule_pop_check_contain_key` with an empty array: what it returns and what
it leaves in the array. -/
def checkContainKeyInto (conf : SearchConf) (psMqHttpMes : MqHttpMessage) :
    Option (Int × List Int) :=
  (fenci conf psMqHttpMes).bind fun
  | none => some (-1, [])
  | some text => checkTokens conf (tokens text)

/-- What the caller uses of the array. -/
def reported (answer : Int × List Int) : Option (List Int) :=
  if answer.1 = 1 then some answer.2 else none

section Reported

variable (conf : SearchConf)

theorem result_eq_one_iff {count : Count} :
    result count = 1 ↔ count.Reports := by
  unfold result
  split_ifs with reports
  · simp [reports]
  · simp [reports]

/-- What the caller sees of the parts. -/
theorem checkParts_eq_map (text : Bytes) :
    (if (tokens text).length < 120 then
        (countLoop conf (tokens text) ⟨0, 0, []⟩).map fun count =>
          if count.Reports then some count.aid else none
      else none) =
      (checkTokens conf (tokens text)).map reported := by
  rw [checkTokens]
  split_ifs
  · rw [Option.map_map]
    congr 1
    funext count
    simp only [Function.comp_apply, reported, result_eq_one_iff]
  · rfl

/-- The function of the search is this one, as far as its caller looks. -/
theorem rulePopCheckContainKey_eq_map (psMqHttpMes : MqHttpMessage) :
    rulePopCheckContainKey conf psMqHttpMes =
      (checkContainKeyInto conf psMqHttpMes).map reported := by
  rw [rulePopCheckContainKey, checkContainKeyInto, fenci]
  cases conf.queryRule psMqHttpMes.host with
  | none => rfl
  | some pReg =>
      rcases found : pReg.regexec psMqHttpMes.pcUri with
        _ | _ | ⟨start, stop⟩
      · simp only [found]
        rfl
      · simp only [found]
        rfl
      · simp only [found]
        split_ifs
        · rw [checkWord]
          generalize store 512 _ = stored
          cases stored with
          | none => rfl
          | some desk =>
              simp only [Option.bind_some]
              cases segmented conf (cString desk) with
              | none => rfl
              | some fact =>
                  simp only [Option.bind_some, Option.map_some]
                  cases conf.mixSegmentCut fact with
                  | none => rfl
                  | some text => exact checkParts_eq_map conf text
        · rfl

end Reported

/-! ## What the answer means -/

/-- The identifier is filed under a keyword of the parts. -/
def Attached (conf : SearchConf) (p : List Bytes) (iAdid : Int) : Prop :=
  ∃ word ∈ p, conf.stopWord word = false ∧
    ∃ advId ∈ conf.queryContent word, iAdid ∈ advId.pvAdInfo

/-- The number of keywords that are known. -/
def matching (conf : SearchConf) (p : List Bytes) : Nat :=
  (conf.keywords p).countP fun word => (conf.queryContent word).isSome

/-- Every identifier once, and the answer of the counters. -/
structure Exact (conf : SearchConf) (p : List Bytes) (ret : Int)
    (aid : List Int) : Prop where
  once : aid.Nodup
  attached : ∀ iAdid, iAdid ∈ aid ↔ Attached conf p iAdid
  ret_eq_one : ret = 1 ↔
    2 ≤ matching conf p ∨
      ((conf.keywords p).length = 1 ∧ matching conf p = 1)
  ret_cases : ret = 1 ∨ ret = -1

/-- The pointers and the identifiers fit into their arrays. -/
structure Fits (conf : SearchConf) (p : List Bytes) : Prop where
  pointers : p.length ≤ 119
  aid : ∀ ids : List Int, ids.Nodup →
    (∀ iAdid ∈ ids, Attached conf p iAdid) → ids.length ≤ 24

section Answer

variable {conf : SearchConf} {p : List Bytes}

theorem length_known : (conf.known p).length = matching conf p :=
  List.length_filterMap_eq_countP

theorem mem_filed_iff {iAdid : Int} :
    iAdid ∈ conf.filed p ↔ Attached conf p iAdid := by
  simp only [SearchConf.filed, SearchConf.known, SearchConf.keywords,
    Attached, List.mem_flatMap, List.mem_filterMap, List.mem_filter,
    Bool.not_eq_true', Option.mem_def]
  constructor
  · rintro ⟨advId, ⟨word, ⟨member, kept⟩, found⟩, filed⟩
    exact ⟨word, member, kept, advId, found, filed⟩
  · rintro ⟨word, member, kept, advId, found, filed⟩
    exact ⟨advId, ⟨word, ⟨member, kept⟩, found⟩, filed⟩

/-- The array has room for the different identifiers exactly when it has room
for every list of them. -/
theorem length_eraseDups_le_iff :
    (conf.filed p).eraseDups.length ≤ 24 ↔
      ∀ ids : List Int, ids.Nodup →
        (∀ iAdid ∈ ids, Attached conf p iAdid) → ids.length ≤ 24 := by
  constructor
  · intro room ids once attached
    have inside : ids ⊆ (conf.filed p).eraseDups := by
      intro iAdid member
      exact List.mem_eraseDups.mpr (mem_filed_iff.mpr (attached _ member))
    exact (once.subperm inside).length_le.trans room
  · intro room
    refine room _ (nodup_eraseDups _) ?_
    intro iAdid member
    exact mem_filed_iff.mp (List.mem_eraseDups.mp member)

/-- What the loop leaves. -/
theorem checkTokens_eq_some_iff {ret : Int} {aid : List Int} :
    checkTokens conf p = some (ret, aid) ↔
      Fits conf p ∧ aid = (conf.filed p).eraseDups ∧
        ret = result ⟨(conf.keywords p).length, matching conf p, aid⟩ := by
  have counted := @countLoop_eq conf p 0 0 [] (by simp)
  simp only [List.eraseDups_nil, List.nil_append, Nat.zero_add,
    length_known] at counted
  rw [checkTokens, counted]
  constructor
  · intro run
    split_ifs at run with few room
    · cases run
      exact ⟨⟨by omega, length_eraseDups_le_iff.mp room⟩, rfl, rfl⟩
    · cases run
  · rintro ⟨fits, rfl, rfl⟩
    rw [if_pos (by have := fits.pointers; omega),
      if_pos (length_eraseDups_le_iff.mpr fits.aid)]
    rfl

theorem result_cases (count : Count) :
    result count = 1 ∨ result count = -1 := by
  unfold result
  split_ifs
  · exact Or.inl rfl
  · exact Or.inr rfl

/-- The answer for parts that fit. -/
theorem exact_of_fits :
    Exact conf p
      (result ⟨(conf.keywords p).length, matching conf p,
        (conf.filed p).eraseDups⟩)
      (conf.filed p).eraseDups where
  once := nodup_eraseDups _
  attached _ := List.mem_eraseDups.trans mem_filed_iff
  ret_eq_one := result_eq_one_iff.trans or_comm
  ret_cases := result_cases _

end Answer

/-- **The words of a search are answered exactly.**

The function leaves every identifier of a known keyword once in the array of
its caller and returns what the two counters say, all inside the arrays,
exactly when there are at most 119 parts and at most 24 different
identifiers. -/
theorem answered_iff_fits {conf : SearchConf}
    {psMqHttpMes : MqHttpMessage} {text : Bytes}
    (produced : fenci conf psMqHttpMes = some (some text)) :
    (∃ ret aid,
        checkContainKeyInto conf psMqHttpMes = some (ret, aid) ∧
          Exact conf (tokens text) ret aid) ↔
      Fits conf (tokens text) := by
  rw [checkContainKeyInto, produced, Option.bind_some]
  constructor
  · rintro ⟨ret, aid, run, _⟩
    exact (checkTokens_eq_some_iff.mp run).1
  · intro fits
    exact ⟨_, _, checkTokens_eq_some_iff.mpr ⟨fits, rfl, rfl⟩,
      exact_of_fits⟩

/-- A search for one text with a stop word, a word that is not known, and two
words that share an advertisement. -/
def sharedConf : SearchConf where
  queryRule _ := some SearchBuffers.wordRegex
  stopWord word := decide (word = ascii "the")
  queryContent word :=
    if word = ascii "rose" then some ⟨[1, 7], by decide⟩
    else if word = ascii "flower" then some ⟨[7, 9], by decide⟩
    else none
  gbkHanzis _ := 0
  mixSegmentCut _ := some (ascii "the-MEG-red-MEG-rose-MEG-flower")
  behindWord := 0
  popAfterSearch := 0

/-- Both known words are answered, with the shared identifier once. -/
theorem answered_iff_fits_shared :
    ∃ ret aid,
      checkContainKeyInto sharedConf SearchBuffers.searchRequest =
          some (ret, aid) ∧
        Exact sharedConf (tokens (ascii "the-MEG-red-MEG-rose-MEG-flower"))
          ret aid := by
  have produced :
      fenci sharedConf SearchBuffers.searchRequest =
        some (some (ascii "the-MEG-red-MEG-rose-MEG-flower")) := by
    decide +kernel
  refine (answered_iff_fits produced).mpr ⟨?pointers, ?aid⟩
  case pointers => decide +kernel
  case aid => exact length_eraseDups_le_iff.mp (by decide +kernel)

/-- Thirteen identifiers from the first one on. -/
def thirteen (first : Int) : AdFire where
  pvAdInfo := (List.range 13).map fun place => first + place
  adlen := of_decide_eq_true rfl

/-- A search for one text of two words with thirteen identifiers each. -/
def crowdedConf : SearchConf where
  queryRule _ := some SearchBuffers.wordRegex
  stopWord _ := false
  queryContent word :=
    some (thirteen (if word = ascii "rose" then 1 else 21))
  gbkHanzis _ := 0
  mixSegmentCut _ := some (ascii "rose-MEG-flower")
  behindWord := 0
  popAfterSearch := 0

/-- Two words with thirteen identifiers each do not fit into the array. -/
theorem not_answered_crowded :
    fenci crowdedConf SearchBuffers.searchRequest =
        some (some (ascii "rose-MEG-flower")) ∧
      ¬ ∃ ret aid,
        checkContainKeyInto crowdedConf SearchBuffers.searchRequest =
            some (ret, aid) ∧
          Exact crowdedConf (tokens (ascii "rose-MEG-flower")) ret aid := by
  have produced :
      fenci crowdedConf SearchBuffers.searchRequest =
        some (some (ascii "rose-MEG-flower")) := by
    decide +kernel
  have stuck :
      checkContainKeyInto crowdedConf SearchBuffers.searchRequest = none := by
    decide +kernel
  refine ⟨produced, ?_⟩
  rintro ⟨ret, aid, run, _⟩
  rw [stuck] at run
  cases run

end WindowSystem.ContainKey
