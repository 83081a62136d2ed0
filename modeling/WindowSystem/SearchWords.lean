import Mathlib.Data.List.Nodup
import WindowSystem.DcGlobal
import WindowSystem.TextCodes

/-!
# The words of a search

`rule_pop_check_contain_key` of `instant_search_pop.c` cuts the searched words
out of a request and collects the advertisements that are filed under them.
The word goes through three arrays of 512 bytes, its parts through an array of
120 pointers and the identifiers through the array `aid` of the caller, which
has 24 entries.  `none` stands for a write behind one of them.
-/

namespace WindowSystem.SearchWords

open WindowSystem.CRuntime
open WindowSystem.DcGlobal
open WindowSystem.Library
open WindowSystem.TextCodes

/-! ## What the search rests on -/

/-- A compiled expression of `g_pQRHashMap`: what `regexec` finds for its
third group, `some none` when the group takes no part in the match. -/
structure Regex where
  regexec : Bytes → Option (Option (Nat × Nat))
  inside : ∀ {text start stop},
    regexec text = some (some (start, stop)) →
      start ≤ stop ∧ stop ≤ text.length

/-- `AdFire`: the identifiers that are filed under a word. -/
structure AdFire where
  pvAdInfo : List Int
  adlen : pvAdInfo.length ≤ 16

/-- An entry with one identifier. -/
def AdFire.single (iAdid : Int) : AdFire :=
  ⟨[iAdid], Nat.succ_le_succ (Nat.zero_le 15)⟩

/--
What the search reads: the tables `g_pQRHashMap`, `g_pvStopHashMap` and
`g_pQCHashMap`, each as the function that looks a text up, the array
`GBKHanzis`, the library function `MixSegmentCut`, the byte behind the array
`word`, and `g_conf_pop_after_search`.
-/
structure SearchConf where
  queryRule : Bytes → Option Regex
  stopWord : Bytes → Bool
  queryContent : Bytes → Option AdFire
  gbkHanzis : GBKHanzis
  mixSegmentCut : Bytes → Option Bytes
  behindWord : UInt8
  popAfterSearch : Int

/-! ## The function -/

/-- The tokens that repeated calls of `strtok_r` find with several separator
bytes. -/
def strtokAny (delimiters text : Bytes) : List Bytes :=
  (text.splitOnP (delimiters.contains ·)).filter (· ≠ [])

/-- The inner loop over `AdvId->pvAdInfo`, with `remove_dump_data` as its
test. -/
def addAids : List Int → List Int → Option (List Int)
  | [], aid => some aid
  | iAdid :: pvAdInfo, aid =>
      if iAdid ∈ aid then addAids pvAdInfo aid
      else if aid.length < 24 then addAids pvAdInfo (aid ++ [iAdid])
      else none

/-- What the loop over the parts of the word has counted and collected. -/
structure Count where
  keywordNum : Nat
  cmpNum : Nat
  aid : List Int

/-- The loop over the parts of the word. -/
def countLoop (conf : SearchConf) : List Bytes → Count → Option Count
  | [], count => some count
  | word :: p, count =>
      if conf.stopWord word then countLoop conf p count
      else
        match conf.queryContent word with
        | none =>
            countLoop conf p
              { count with keywordNum := count.keywordNum + 1 }
        | some advId =>
            (addAids advId.pvAdInfo count.aid).bind fun aid =>
              countLoop conf p
                { keywordNum := count.keywordNum + 1
                  cmpNum := count.cmpNum + 1
                  aid := aid }

/-- The result is `1`: one keyword, which is known, or two known ones. -/
def Count.Reports (count : Count) : Prop :=
  (count.keywordNum = 1 ∧ count.cmpNum = 1) ∨ 2 ≤ count.cmpNum

instance (count : Count) : Decidable count.Reports :=
  inferInstanceAs (Decidable (_ ∨ _))

/-- The text that is handed to `MixSegmentCut`: `desk`, or its translation in
`fact`. -/
def segmented (conf : SearchConf) (desk : Bytes) : Option Bytes :=
  if getCharacterCodeType desk = 1 then some desk
  else bufferGbk2utf8 conf.gbkHanzis 512 desk

/-- The byte behind the terminator of `word`, which holds zeros up to its
end. -/
def SearchConf.behind (conf : SearchConf) (word : Bytes) : UInt8 :=
  if word.length + 1 < 512 then 0 else conf.behindWord

/-- The part of the function behind `word`; the result is the array `aid`,
`some none` for the result `-1`. -/
def checkWord (conf : SearchConf) (word : Bytes) :
    Option (Option (List Int)) :=
  (store 512 (urlGB2312Decode (conf.behind word) word)).bind fun desk =>
  (segmented conf (cString desk)).bind fun fact =>
    match conf.mixSegmentCut fact with
    | none => some none
    | some result =>
        let p := strtokAny (ascii "-MEG-") result
        if p.length < 120 then
          (countLoop conf p ⟨0, 0, []⟩).map fun count =>
            if count.Reports then some count.aid else none
        else none

/-- `rule_pop_check_contain_key`; the copy is terminated at the index
`subs[3].rm_eo`, which counts from the start of the uri. -/
def rulePopCheckContainKey (conf : SearchConf)
    (psMqHttpMes : MqHttpMessage) : Option (Option (List Int)) :=
  match conf.queryRule psMqHttpMes.host with
  | none => some none
  | some pReg =>
      match pReg.regexec psMqHttpMes.pcUri with
      | none => some none
      | some none => some none
      | some (some (start, stop)) =>
          if stop - start ≤ 512 ∧ stop < 512 then
            checkWord conf
              (Substring.slice psMqHttpMes.pcUri start stop)
          else none

/-! ## What a search finds -/

namespace SearchConf

variable (conf : SearchConf)

/-- The parts that are no stop words. -/
def keywords (p : List Bytes) : List Bytes :=
  p.filter (!conf.stopWord ·)

/-- The entries of the keywords that are known. -/
def known (p : List Bytes) : List AdFire :=
  (conf.keywords p).filterMap conf.queryContent

/-- The identifiers that are filed under the parts. -/
def filed (p : List Bytes) : List Int :=
  (conf.known p).flatMap AdFire.pvAdInfo

/-- The word without its percent encoding. -/
def desk (word : Bytes) : Bytes :=
  cString (urlGB2312Decode (conf.behind word) word)

/-- The word in UTF-8. -/
def fact (word : Bytes) : Bytes :=
  if getCharacterCodeType (conf.desk word) = 1 then conf.desk word
  else utf8Text conf.gbkHanzis 512 (conf.desk word) []

/-- The parts of a searched word. -/
def parts (word : Bytes) : List Bytes :=
  ((conf.mixSegmentCut (conf.fact word)).map
    (strtokAny (ascii "-MEG-"))).getD []

/-- The different identifiers in the order of their first places. -/
def aids (word : Bytes) : List Int :=
  (conf.filed (conf.parts word)).eraseDups

/-- The word is one known keyword or holds two known ones. -/
def Reports (word : Bytes) : Prop :=
  ((conf.keywords (conf.parts word)).length = 1 ∧
      (conf.known (conf.parts word)).length = 1) ∨
    2 ≤ (conf.known (conf.parts word)).length

instance (word : Bytes) : Decidable (conf.Reports word) :=
  inferInstanceAs (Decidable (_ ∨ _))

/-- The word fits into the arrays. -/
structure WordFits (word : Bytes) : Prop where
  fact : (conf.fact word).length < 512
  parts : (conf.parts word).length < 120
  aid : (conf.aids word).length ≤ 24

end SearchConf

/-! ## The loops -/

theorem eraseDups_concat (aid : List Int) (iAdid : Int) :
    (aid ++ [iAdid]).eraseDups =
      if iAdid ∈ aid then aid.eraseDups else aid.eraseDups ++ [iAdid] := by
  rw [List.eraseDups_append]
  by_cases present : iAdid ∈ aid
  · simp [List.removeAll, present]
  · simp [List.removeAll, present, List.eraseDups_cons]

theorem nodup_eraseDups (aid : List Int) : aid.eraseDups.Nodup := by
  induction aid using List.reverseRecOn with
  | nil => exact List.nodup_nil
  | append_singleton aid iAdid induction =>
      rw [eraseDups_concat]
      split_ifs with present
      · exact induction
      · refine induction.append (List.nodup_singleton iAdid) ?_
        simpa [List.disjoint_singleton] using present

/-- More identifiers are never fewer different ones. -/
theorem length_eraseDups_le_append (first second : List Int) :
    first.eraseDups.length ≤ (first ++ second).eraseDups.length := by
  rw [List.eraseDups_append, List.length_append]
  exact Nat.le_add_right _ _

/-- The array holds the different identifiers, as long as there are no more
than 24. -/
theorem addAids_eq (pvAdInfo : List Int) {collected : List Int}
    (fits : collected.eraseDups.length ≤ 24) :
    addAids pvAdInfo collected.eraseDups =
      if (collected ++ pvAdInfo).eraseDups.length ≤ 24 then
        some (collected ++ pvAdInfo).eraseDups
      else none := by
  induction pvAdInfo generalizing collected with
  | nil => simp [addAids, fits]
  | cons iAdid pvAdInfo induction =>
      have next := eraseDups_concat collected iAdid
      rw [List.append_cons]
      simp only [addAids, List.mem_eraseDups]
      by_cases present : iAdid ∈ collected
      · rw [if_pos present] at next ⊢
        rw [← next]
        exact induction (next ▸ fits)
      · rw [if_neg present] at next ⊢
        by_cases room : collected.eraseDups.length < 24
        · rw [if_pos room, ← next]
          refine induction ?_
          rw [next, List.length_append]
          exact room
        · have grows :=
            length_eraseDups_le_append (collected ++ [iAdid]) pvAdInfo
          rw [next, List.length_append, List.length_singleton] at grows
          rw [if_neg room, if_neg (by omega)]

/-- The loop counts the keywords and the known ones, and collects what is
filed under them. -/
theorem countLoop_eq (conf : SearchConf) (p : List Bytes)
    {keywordNum cmpNum : Nat} {collected : List Int}
    (fits : collected.eraseDups.length ≤ 24) :
    countLoop conf p ⟨keywordNum, cmpNum, collected.eraseDups⟩ =
      if (collected ++ conf.filed p).eraseDups.length ≤ 24 then
        some
          { keywordNum := keywordNum + (conf.keywords p).length
            cmpNum := cmpNum + (conf.known p).length
            aid := (collected ++ conf.filed p).eraseDups }
      else none := by
  induction p generalizing keywordNum cmpNum collected with
  | nil =>
      simp [countLoop, SearchConf.filed, SearchConf.known,
        SearchConf.keywords, fits]
  | cons word p induction =>
      by_cases stop : conf.stopWord word = true
      · have skipped : conf.keywords (word :: p) = conf.keywords p :=
          List.filter_cons_of_neg (by simp [stop])
        have known : conf.known (word :: p) = conf.known p := by
          rw [SearchConf.known, skipped]
          rfl
        have filed : conf.filed (word :: p) = conf.filed p := by
          rw [SearchConf.filed, known]
          rfl
        rw [countLoop, if_pos stop, induction fits, skipped, known, filed]
      · have kept :
            conf.keywords (word :: p) = word :: conf.keywords p :=
          List.filter_cons_of_pos (by simpa using stop)
        rw [countLoop, if_neg stop]
        cases found : conf.queryContent word with
        | none =>
            have unknown : conf.known (word :: p) = conf.known p := by
              rw [SearchConf.known, kept, List.filterMap_cons_none found]
              rfl
            simp only [induction fits, SearchConf.filed, unknown, kept,
              List.length_cons]
            congr 3
            omega
        | some advId =>
            have known :
                conf.known (word :: p) = advId :: conf.known p := by
              rw [SearchConf.known, kept, List.filterMap_cons_some found]
              rfl
            have filed :
                conf.filed (word :: p) =
                  advId.pvAdInfo ++ conf.filed p := by
              rw [SearchConf.filed, known]
              rfl
            simp only [addAids_eq advId.pvAdInfo fits, filed,
              ← List.append_assoc]
            by_cases room :
                (collected ++ advId.pvAdInfo).eraseDups.length ≤ 24
            · rw [if_pos room, Option.bind_some, induction room, known,
                kept]
              simp only [List.length_cons]
              congr 3 <;> omega
            · have grows :=
                length_eraseDups_le_append
                  (collected ++ advId.pvAdInfo) (conf.filed p)
              rw [if_neg room, if_neg (by omega)]
              rfl

/-! ## The whole function -/

section Word

variable {conf : SearchConf} {word : Bytes}

/-- A text that was too long for `fact` is the translation of a word in
GBK. -/
theorem segmented_eq (short : word.length < 512) :
    segmented conf (conf.desk word) = store 512 (conf.fact word) := by
  rw [segmented, SearchConf.fact]
  split
  · have bound : (conf.desk word).length < 512 :=
      Nat.lt_of_le_of_lt (List.takeWhile_sublist _).length_le
        (Nat.lt_of_le_of_lt (length_urlGB2312Decode_le _ _) short)
    rw [store, if_pos bound]
  · exact bufferGbk2utf8_eq_store _ (by decide)

/-- A searched word is handled inside the arrays exactly when it fits. -/
theorem checkWord_eq_some_iff (short : word.length < 512)
    {found : Option (List Int)} :
    checkWord conf word = some found ↔
      conf.WordFits word ∧
        found = if conf.Reports word then some (conf.aids word) else none := by
  have decoded :
      (urlGB2312Decode (conf.behind word) word).length < 512 :=
    Nat.lt_of_le_of_lt (length_urlGB2312Decode_le _ _) short
  rw [checkWord, store, if_pos decoded, Option.bind_some]
  change (segmented conf (conf.desk word)).bind _ = _ ↔ _
  rw [segmented_eq short]
  by_cases factFits : (conf.fact word).length < 512
  · rw [store, if_pos factFits, Option.bind_some]
    cases cut : conf.mixSegmentCut (conf.fact word) with
    | none =>
        have noParts : conf.parts word = [] := by
          rw [SearchConf.parts, cut]
          rfl
        have fits : conf.WordFits word :=
          ⟨factFits, by simp [noParts],
            by simp [SearchConf.aids, noParts, SearchConf.filed,
              SearchConf.known, SearchConf.keywords]⟩
        simp [fits, SearchConf.Reports, noParts, SearchConf.known,
          SearchConf.keywords, eq_comm]
    | some result =>
        have parts :
            strtokAny (ascii "-MEG-") result = conf.parts word := by
          rw [SearchConf.parts, cut]
          rfl
        have counted :=
          @countLoop_eq conf (conf.parts word) 0 0 [] (by simp)
        simp only [List.eraseDups_nil, List.nil_append, Nat.zero_add]
          at counted
        simp only [parts, counted]
        by_cases few : (conf.parts word).length < 120
        · by_cases room : (conf.aids word).length ≤ 24
          · have fits : conf.WordFits word := ⟨factFits, few, room⟩
            rw [SearchConf.aids] at room
            rw [if_pos few, if_pos room, Option.map_some,
              Option.some.injEq, and_iff_right fits, eq_comm]
            rfl
          · have tight : ¬ conf.WordFits word := fun fits => room fits.aid
            rw [SearchConf.aids] at room
            simp [few, room, tight]
        · have tight : ¬ conf.WordFits word := fun fits => few fits.parts
          simp [few, tight]
  · have tight : ¬ conf.WordFits word := fun fits => factFits fits.fact
    rw [store, if_neg factFits]
    simp [tight]

end Word

/-- The text of the third group. -/
def SearchConf.searched (conf : SearchConf) (psMqHttpMes : MqHttpMessage) :
    Option Bytes :=
  (conf.queryRule psMqHttpMes.host).bind fun pReg =>
    (pReg.regexec psMqHttpMes.pcUri).join.map fun (start, stop) =>
      Substring.slice psMqHttpMes.pcUri start stop

/-- The function on a request whose uri is not too long. -/
theorem rulePopCheckContainKey_eq (conf : SearchConf)
    {psMqHttpMes : MqHttpMessage}
    (short : psMqHttpMes.pcUri.length < 512) :
    (conf.searched psMqHttpMes = none ∧
        rulePopCheckContainKey conf psMqHttpMes = some none) ∨
      ∃ word,
        conf.searched psMqHttpMes = some word ∧ word.length < 512 ∧
        rulePopCheckContainKey conf psMqHttpMes = checkWord conf word := by
  rw [rulePopCheckContainKey, SearchConf.searched]
  cases rule : conf.queryRule psMqHttpMes.host with
  | none => exact Or.inl ⟨rfl, rfl⟩
  | some pReg =>
      simp only [Option.bind_some]
      rcases found : pReg.regexec psMqHttpMes.pcUri with
        _ | _ | ⟨start, stop⟩
      · exact Or.inl ⟨rfl, rfl⟩
      · exact Or.inl ⟨rfl, rfl⟩
      · obtain ⟨order, inside⟩ := pReg.inside found
        have width :=
          Substring.length_slice_le psMqHttpMes.pcUri start stop
        refine Or.inr
          ⟨_, rfl, Nat.lt_of_le_of_lt width (by omega), ?_⟩
        exact if_pos ⟨by omega, by omega⟩

end WindowSystem.SearchWords
