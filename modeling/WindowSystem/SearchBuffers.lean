import WindowSystem.RulePopLoops
import WindowSystem.SearchWords

/-!
# The arrays behind a search

`rule_pop_crowd_search_loop` of `instant_search_pop.c` looks for the words of
a search and then either names the advertisements for a popup or reports the
hit.  A request, a subscriber and a table of keywords go through a chain of
arrays, of which only the first is guarded by the decoder.  This module says
which of them stay inside.
-/

namespace WindowSystem.SearchBuffers

open WindowSystem.CRuntime
open WindowSystem.DcGlobal
open WindowSystem.InstantSearchPop
open WindowSystem.Library
open WindowSystem.MqClientPopwin
open WindowSystem.MqMessageAnalysis
open WindowSystem.RulePopLoops
open WindowSystem.SearchWords

/-! ## The path of a search -/

/-- What the search has written when it calls a sender or returns: nothing,
the identifiers for a popup, or a hit. -/
inductive Search where
  | nothing
  | popup (cTotalAdvId : Bytes)
  | report (hit : Option SearchHit)

/-- `rule_pop_crowd_search_loop` for the subscriber that `g_pRadiusHashMap`
holds for the address, up to the calls of the senders. -/
def searchPath (conf : SearchConf) (adv : Option CharPointer)
    (psMqHttpMes : MqHttpMessage) : Option Search :=
  match adv with
  | none => some .nothing
  | some adv =>
      (rulePopCheckContainKey conf psMqHttpMes).bind fun
      | none => some .nothing
      | some aid =>
          if conf.popAfterSearch = 1 then
            (totalAdvId true aid []).bind fun cTotalAdvId =>
              (store 1024 (adv.text ++ psMqHttpMes.pcUa)).map fun _ =>
                .popup cTotalAdvId
          else
            (radiusPopCheckSearchWd psMqHttpMes (some adv.text) aid).map
              .report

/-- The calls of the senders at the end of the loop. -/
def sendSearch (conf : PopConf) (state : PopState) (pcMessage : Bytes)
    (psMqHttpMes : MqHttpMessage) (adv : Bytes) :
    Search → Option LoopResult
  | .nothing => refuse state
  | .popup cTotalAdvId =>
      (popAfterSendPopMessage conf state (userThread adv) psMqHttpMes
        adv).bind fun
      | (false, state) =>
          some { ret := 1, sent := none, hit := none, state := state }
      | (true, state) =>
          (callDeclared popMqDirectSendCrowdMsg pcMessage (ascii "5")
            cTotalAdvId adv).map fun message =>
              { ret := 1
                sent := message.map fun message =>
                  { table := .afterSearch, message := message }
                hit := none
                state := state }
  | .report hit => some { ret := 1, sent := none, hit := hit, state := state }

/-- The whole loop is the path with the calls at its end. -/
theorem rulePopCrowdSearchLoop_eq_bind {conf : PopConf}
    {search : SearchConf} {state : PopState} {adv : CharPointer}
    {psMqHttpMes : MqHttpMessage} (pcMessage : Bytes)
    (configured : conf.popAfterSearch = search.popAfterSearch)
    (checked :
      rulePopCheckContainKey search psMqHttpMes =
        some (conf.checkContainKey (userThread adv.text) psMqHttpMes))
    (found : findRadius state psMqHttpMes = some (some adv)) :
    rulePopCrowdSearchLoop conf state pcMessage psMqHttpMes =
      (searchPath search (some adv) psMqHttpMes).bind
        (sendSearch conf state pcMessage psMqHttpMes adv.text) := by
  rw [rulePopCrowdSearchLoop, found, searchPath, checked, configured]
  simp only [Option.bind_some]
  cases conf.checkContainKey (userThread adv.text) psMqHttpMes with
  | none => rfl
  | some aid =>
      simp only
      split
      · rw [popAfterSearch]
        cases totalAdvId true aid [] with
        | none => rfl
        | some cTotalAdvId =>
            simp only [Option.bind_some]
            cases fits : store 1024 (adv.text ++ psMqHttpMes.pcUa) with
            | none => simp [popAfterSendPopMessage, fits]
            | some szADUA => rfl
      · cases radiusPopCheckSearchWd psMqHttpMes (some adv.text) aid <;> rfl

/-! ## The identifiers for a popup -/

/-- The identifiers with underscores between them. -/
def underscored : Bool → List Int → Bytes
  | _, [] => []
  | first, iAdid :: aid =>
      (if first then [] else ascii "_") ++ Decimal.decimalInt iAdid ++
        underscored false aid

theorem totalAdvId_eq_store (first : Bool) (aid : List Int)
    {cTotalAdvId : Bytes} (fits : cTotalAdvId.length < 64) :
    totalAdvId first aid cTotalAdvId =
      store 64 (cTotalAdvId ++ underscored first aid) := by
  induction aid generalizing first cTotalAdvId with
  | nil => simp [totalAdvId, underscored, store, fits]
  | cons iAdid aid induction =>
      rw [totalAdvId, underscored, ← List.append_assoc, ← List.append_assoc]
      generalize
        cTotalAdvId ++ (if first then [] else ascii "_") ++
          Decimal.decimalInt iAdid = next
      by_cases room : next.length < 64
      · rw [store, if_pos room, Option.bind_some, induction false room]
      · rw [store, if_neg room, store, if_neg]
        · rfl
        · rw [List.length_append]
          omega

/-! ## The identifiers of a hit -/

/-- The list of the positive identifiers; all but the one at the first place
have a comma in front. -/
def positiveItems : Bool → List Int → Bytes
  | _, [] => []
  | first, iAdid :: aid =>
      (if 0 < iAdid then listItem first iAdid else []) ++
        positiveItems false aid

/-- The arrays that the loop over the identifiers fills, with the list
`szAdvId` and its number of identifiers `adlen` as they are before it. -/
structure LoopRoom (psMqHttpMes : MqHttpMessage) (sPcad : Bytes)
    (first : Bool) (aid : List Int) (adlen : Nat) (szAdvId : Bytes) :
    Prop where
  sPrefix : ∀ iAdid ∈ aid, (Decimal.decimalInt iAdid).length < 10
  cStore : ∀ iAdid ∈ aid, (storeLine psMqHttpMes sPcad iAdid).length < 4096
  szBuff : ∀ iAdid ∈ if first then aid.tail else aid,
    0 < iAdid → (listItem false iAdid).length < 10
  pvAdInfo : adlen + (aid.filter (0 < ·)).length ≤ 16
  szAdvId : (szAdvId ++ positiveItems first aid).length < 128

section Loop

variable {psMqHttpMes : MqHttpMessage} {sPcad szAdvId : Bytes}
  {first : Bool} {iAdid : Int} {aid : List Int} {adlen : Nat}

/-- A positive identifier in front of others. -/
theorem loopRoom_cons_pos (positive : 0 < iAdid) :
    LoopRoom psMqHttpMes sPcad first (iAdid :: aid) adlen szAdvId ↔
      (Decimal.decimalInt iAdid).length < 10 ∧
        (storeLine psMqHttpMes sPcad iAdid).length < 4096 ∧
        (listItem first iAdid).length < 10 ∧
        LoopRoom psMqHttpMes sPcad false aid (adlen + 1)
          (szAdvId ++ listItem first iAdid) := by
  have items :
      positiveItems first (iAdid :: aid) =
        listItem first iAdid ++ positiveItems false aid := by
    rw [positiveItems, if_pos positive]
  have count :
      ((iAdid :: aid).filter (0 < ·)).length =
        (aid.filter (0 < ·)).length + 1 := by
    rw [List.filter_cons_of_pos (by simpa using positive),
      List.length_cons]
  constructor
  · intro room
    have few := room.pvAdInfo
    have list := room.szAdvId
    rw [count] at few
    rw [items, ← List.append_assoc] at list
    have numeral := room.sPrefix iAdid List.mem_cons_self
    refine ⟨numeral, room.cStore iAdid List.mem_cons_self, ?_, ?_⟩
    · cases first with
      | true => exact numeral
      | false => exact room.szBuff iAdid List.mem_cons_self positive
    · refine ⟨fun other member =>
          room.sPrefix other (List.mem_cons_of_mem _ member),
        fun other member =>
          room.cStore other (List.mem_cons_of_mem _ member), ?_,
        by omega, list⟩
      intro other member
      cases first with
      | true => exact room.szBuff other member
      | false => exact room.szBuff other (List.mem_cons_of_mem _ member)
  · rintro ⟨numeral, line, item, room⟩
    have few := room.pvAdInfo
    have list := room.szAdvId
    refine ⟨?_, ?_, ?_, by rw [count]; omega,
      by rw [items, ← List.append_assoc]; exact list⟩
    · exact List.forall_mem_cons.mpr ⟨numeral, room.sPrefix⟩
    · exact List.forall_mem_cons.mpr ⟨line, room.cStore⟩
    · cases first with
      | true => exact room.szBuff
      | false =>
          exact List.forall_mem_cons.mpr ⟨fun _ => item, room.szBuff⟩

/-- Any other identifier in front of others. -/
theorem loopRoom_cons_neg (skipped : ¬ 0 < iAdid) :
    LoopRoom psMqHttpMes sPcad first (iAdid :: aid) adlen szAdvId ↔
      (Decimal.decimalInt iAdid).length < 10 ∧
        (storeLine psMqHttpMes sPcad iAdid).length < 4096 ∧
        LoopRoom psMqHttpMes sPcad false aid adlen szAdvId := by
  have items :
      positiveItems first (iAdid :: aid) = positiveItems false aid := by
    rw [positiveItems, if_neg skipped, List.nil_append]
  have count :
      (iAdid :: aid).filter (0 < ·) = aid.filter (0 < ·) :=
    List.filter_cons_of_neg (by simpa using skipped)
  constructor
  · intro room
    have few := room.pvAdInfo
    have list := room.szAdvId
    rw [count] at few
    rw [items] at list
    refine ⟨room.sPrefix iAdid List.mem_cons_self,
      room.cStore iAdid List.mem_cons_self, ?_⟩
    refine ⟨fun other member =>
        room.sPrefix other (List.mem_cons_of_mem _ member),
      fun other member =>
        room.cStore other (List.mem_cons_of_mem _ member), ?_, few, list⟩
    intro other member
    cases first with
    | true => exact room.szBuff other member
    | false => exact room.szBuff other (List.mem_cons_of_mem _ member)
  · rintro ⟨numeral, line, room⟩
    refine ⟨?_, ?_, ?_, by rw [count]; exact room.pvAdInfo,
      by rw [items]; exact room.szAdvId⟩
    · exact List.forall_mem_cons.mpr ⟨numeral, room.sPrefix⟩
    · exact List.forall_mem_cons.mpr ⟨line, room.cStore⟩
    · cases first with
      | true => exact room.szBuff
      | false =>
          exact List.forall_mem_cons.mpr
            ⟨fun positive => absurd positive skipped, room.szBuff⟩

/-- The loop ends inside its arrays exactly when there is room, and then it
has written all lines and the list. -/
theorem searchLoop_eq_some_iff (few : adlen ≤ 16)
    (short : szAdvId.length < 128) {result : List Bytes × Bytes} :
    searchLoop psMqHttpMes sPcad first aid adlen szAdvId = some result ↔
      LoopRoom psMqHttpMes sPcad first aid adlen szAdvId ∧
        (aid.map (storeLine psMqHttpMes sPcad),
          szAdvId ++ positiveItems first aid) = result := by
  induction aid generalizing first adlen szAdvId result with
  | nil =>
      have room : LoopRoom psMqHttpMes sPcad first [] adlen szAdvId :=
        ⟨by simp, by simp, by simp, by simpa using few,
          by simpa [positiveItems] using short⟩
      simp [searchLoop, positiveItems, room]
  | cons iAdid aid induction =>
      by_cases positive : 0 < iAdid
      · simp only [searchLoop, Option.bind_eq_some_iff,
          store_eq_some_iff, if_pos positive, positiveItems,
          Option.ite_none_right_eq_some, Option.map_eq_some_iff,
          loopRoom_cons_pos positive, List.map_cons]
        constructor
        · rintro ⟨_, ⟨numeral, _⟩, _, ⟨line, rfl⟩, _, ⟨item, rfl⟩, _,
            ⟨list, rfl⟩, room, rest, run, rfl⟩
          obtain ⟨loopRoom, rfl⟩ := (induction room list).mp run
          exact ⟨⟨numeral, line, item, loopRoom⟩, by
            simp [List.append_assoc]⟩
        · rintro ⟨⟨numeral, line, item, room⟩, rfl⟩
          have few := room.pvAdInfo
          have list := room.szAdvId
          rw [List.length_append] at list
          refine ⟨_, ⟨numeral, rfl⟩, _, ⟨line, rfl⟩, _, ⟨item, rfl⟩, _,
            ⟨by omega, rfl⟩, by omega, _,
            (induction (by omega) (by omega)).mpr ⟨room, rfl⟩, ?_⟩
          simp [List.append_assoc]
      · simp only [searchLoop, Option.bind_eq_some_iff,
          store_eq_some_iff, if_neg positive, positiveItems,
          Option.map_eq_some_iff, loopRoom_cons_neg positive,
          List.map_cons, List.nil_append]
        constructor
        · rintro ⟨_, ⟨numeral, _⟩, _, ⟨line, rfl⟩, rest, run, rfl⟩
          obtain ⟨loopRoom, rfl⟩ := (induction few short).mp run
          exact ⟨⟨numeral, line, loopRoom⟩, rfl⟩
        · rintro ⟨⟨numeral, line, room⟩, rfl⟩
          exact ⟨_, ⟨numeral, rfl⟩, _, ⟨line, rfl⟩, _,
            (induction few short).mpr ⟨room, rfl⟩, rfl⟩

end Loop

/-! ## What fits -/

/-- The arrays of `pop_after_search` and of `pop_after_send_pop_message`. -/
structure PopupFits (psMqHttpMes : MqHttpMessage) (adv : Bytes)
    (aid : List Int) : Prop where
  cTotalAdvId : (underscored true aid).length < 64
  szADUA : (adv ++ psMqHttpMes.pcUa).length < 1024

/-- The arrays of `radius_pop_check_search_wd`. -/
structure HitFits (psMqHttpMes : MqHttpMessage) (sPcad : Bytes)
    (aid : List Int) : Prop where
  loop : LoopRoom psMqHttpMes sPcad true aid 0 []
  pSend : positiveItems true aid ≠ [] →
    (onlineMessage psMqHttpMes sPcad (positiveItems true aid)).length < 4096
  szADUA :
    (hitPrefix psMqHttpMes sPcad ++ positiveItems true aid).length < 2048

/-- A subscriber's request whose search stays in its arrays. -/
structure Fits (conf : SearchConf) (adv : Bytes)
    (psMqHttpMes : MqHttpMessage) (word : Bytes) : Prop where
  inside : conf.WordFits word
  popup : conf.Reports word → conf.popAfterSearch = 1 →
    PopupFits psMqHttpMes adv (conf.aids word)
  hit : conf.Reports word → conf.popAfterSearch ≠ 1 →
    HitFits psMqHttpMes adv (conf.aids word)

/-- The identifiers for a popup stay in their arrays exactly when they
fit. -/
theorem popup_isSome_iff (psMqHttpMes : MqHttpMessage) (adv : Bytes)
    (aid : List Int) :
    ((totalAdvId true aid []).bind fun cTotalAdvId =>
        (store 1024 (adv ++ psMqHttpMes.pcUa)).map fun _ =>
          Search.popup cTotalAdvId).isSome = true ↔
      PopupFits psMqHttpMes adv aid := by
  rw [totalAdvId_eq_store true aid (by decide), List.nil_append,
    Option.isSome_iff_exists]
  simp only [Option.bind_eq_some_iff, Option.map_eq_some_iff,
    store_eq_some_iff]
  constructor
  · rintro ⟨_, _, ⟨short, rfl⟩, _, ⟨fits, rfl⟩, _⟩
    exact ⟨short, fits⟩
  · intro fits
    exact ⟨_, _, ⟨fits.cTotalAdvId, rfl⟩, _, ⟨fits.szADUA, rfl⟩, rfl⟩

/-- The report of a hit stays in its arrays exactly when it fits. -/
theorem radiusPopCheckSearchWd_isSome_iff {psMqHttpMes : MqHttpMessage}
    (short : psMqHttpMes.pcSrcIP.length + psMqHttpMes.pcUa.length < 512)
    (sPcad : Bytes) (aid : List Int) :
    (radiusPopCheckSearchWd psMqHttpMes (some sPcad) aid).isSome = true ↔
      HitFits psMqHttpMes sPcad aid := by
  have loop {result : List Bytes × Bytes} :=
    @searchLoop_eq_some_iff psMqHttpMes sPcad [] true aid 0
      (Nat.zero_le 16) (by decide) result
  simp only [List.nil_append] at loop
  rw [Option.isSome_iff_exists]
  simp only [radiusPopCheckSearchWd, if_neg (Nat.not_le.mpr short),
    Option.bind_eq_some_iff, Option.map_eq_some_iff, store_eq_some_iff]
  constructor
  · rintro ⟨_, _, ⟨_, rfl⟩, _, run, online, sent, _, ⟨whole, rfl⟩, _⟩
    obtain ⟨room, rfl⟩ := loop.mp run
    refine ⟨room, fun nonempty => ?_, whole⟩
    simp only [if_neg nonempty, Option.map_eq_some_iff,
      store_eq_some_iff] at sent
    obtain ⟨_, ⟨fits, rfl⟩, _⟩ := sent
    exact fits
  · intro fits
    have whole := fits.szADUA
    have front : (hitPrefix psMqHttpMes sPcad).length < 2048 := by
      rw [List.length_append] at whole
      omega
    by_cases empty : positiveItems true aid = []
    · exact ⟨_, _, ⟨front, rfl⟩, _, loop.mpr ⟨fits.loop, rfl⟩, none,
        if_pos empty, _, ⟨whole, rfl⟩, rfl⟩
    · refine ⟨_, _, ⟨front, rfl⟩, _, loop.mpr ⟨fits.loop, rfl⟩,
        some (onlineMessage psMqHttpMes sPcad (positiveItems true aid)), ?_,
        _, ⟨whole, rfl⟩, rfl⟩
      rw [if_neg empty, store, if_pos (fits.pSend empty)]
      rfl

/-- The decoder for the search limits the uri. -/
theorem length_pcUri_of_accepted {pcMessage : Bytes}
    {psMqHttpMes : MqHttpMessage}
    (accepted : mqMessageAnalysisJson pcMessage = .taken psMqHttpMes) :
    psMqHttpMes.pcUri.length < 512 := by
  simp only [mqMessageAnalysisJson, Decoder.analysis,
    Outcome.bind_eq_taken_iff] at accepted
  obtain ⟨_, _, _, _, _, _, pcUri, read, _, _, _, _, accepted⟩ := accepted
  split at accepted
  · cases accepted
    obtain ⟨place, pcEnd, _, _, copied⟩ := Field.copy_eq_taken_iff.mp read
    obtain ⟨passed, ⟨order, _⟩, rfl⟩ :=
      Field.copyRange_eq_taken_iff.mp copied
    refine Nat.lt_of_le_of_lt (Substring.length_slice_le _ _ _) ?_
    simp [Field.refuses, Decoder.uriField, jsonDecoder] at passed
    change place + Separator.siteUri.length ≤ pcEnd at order
    show pcEnd - (place + Separator.siteUri.length) < 512
    omega
  · cases accepted

/-- **The search stays in its arrays.**

For an accepted request no write leaves its array exactly when every searched
word of a subscriber fits. -/
theorem searchPath_isSome_iff {pcMessage : Bytes}
    {psMqHttpMes : MqHttpMessage}
    (accepted : mqMessageAnalysisJson pcMessage = .taken psMqHttpMes)
    (conf : SearchConf) (adv : Option CharPointer) :
    (searchPath conf adv psMqHttpMes).isSome = true ↔
      ∀ subscriber ∈ adv, ∀ word ∈ conf.searched psMqHttpMes,
        Fits conf subscriber.text psMqHttpMes word := by
  have wellFormed := (analysis_wellFormed accepted).1
  have srcIP := wellFormed.pcSrcIP
  have ua := wellFormed.pcUa
  cases adv with
  | none => simp [searchPath]
  | some adv =>
      simp only [searchPath, Option.mem_def, Option.some.injEq,
        forall_eq']
      rcases rulePopCheckContainKey_eq conf
          (length_pcUri_of_accepted accepted) with
        ⟨nothing, checked⟩ | ⟨word, found, short, checked⟩
      · simp [nothing, checked]
      · simp only [found, checked, Option.some.injEq, forall_eq']
        have word_iff {result : Option (List Int)} :=
          @checkWord_eq_some_iff conf word short result
        by_cases fits : conf.WordFits word
        · have run := word_iff.mpr ⟨fits, rfl⟩
          rw [run, Option.bind_some]
          by_cases reports : conf.Reports word
          · by_cases popup : conf.popAfterSearch = 1
            · simp only [if_pos reports, if_pos popup]
              rw [popup_isSome_iff]
              constructor
              · intro room
                exact ⟨fits, fun _ _ => room,
                  fun _ other => absurd popup other⟩
              · intro all
                exact all.popup reports popup
            · simp only [if_pos reports, if_neg popup, Option.isSome_map]
              rw [radiusPopCheckSearchWd_isSome_iff (by omega)]
              constructor
              · intro hit
                exact ⟨fits, fun _ equal => absurd equal popup,
                  fun _ _ => hit⟩
              · intro all
                exact all.hit reports popup
          · simp only [if_neg reports, Option.isSome_some, true_iff]
            exact ⟨fits, fun reported => absurd reported reports,
              fun reported => absurd reported reports⟩
        · have stuck : checkWord conf word = none := by
            by_contra run
            obtain ⟨result, run⟩ := Option.ne_none_iff_exists'.mp run
            exact fits (word_iff.mp run).1
          rw [stuck]
          simp only [Option.bind_none, Option.isSome_none,
            Bool.false_eq_true, false_iff]
          exact fun all => fits all.inside

/-! ## Two searches -/

/-- A request for `/s?wd=flower`. -/
def searchMessage : Bytes :=
  ascii "\x7b\"sequence\":\"1\",\"srcIP\":\"1.2.3.4\",\"dstIP\":\"5.6.7.8" ++
    ascii "\",\"siteUrl\":\"h\",\"siteUri\":\"/s?wd=flower\",\"sec\":\"1" ++
    ascii "\",\"User-Agent\":\"x\"\x7d"

/-- What the decoder makes of it. -/
def searchRequest : MqHttpMessage where
  pcCookie := ascii "NULL"
  pcSrcIP := ascii "1.2.3.4"
  pcUri := ascii "/s?wd=flower"
  host := ascii "h"
  pcSec := ascii "1"
  lSec := 1
  pcUa := Decoder.cUaMD5s (ascii "x")
  pcNoEncUa := ascii "x"

/-- The expression for the parameter `wd`, as far as the uri holds `?wd=` and
no other parameter. -/
def wordRegex : Regex where
  regexec text :=
    (strstr text (ascii "?wd=")).map fun place =>
      some (min (place + 4) text.length, text.length)
  inside := by
    intro text start stop found
    obtain ⟨place, _, ends⟩ := Option.map_eq_some_iff.mp found
    cases ends
    exact ⟨Nat.min_le_right _ _, Nat.le_refl _⟩

/-- A search for one word that has one advertisement. -/
def searchConf (iAdid : Int) : SearchConf where
  queryRule _ := some wordRegex
  stopWord _ := false
  queryContent _ := some (AdFire.single iAdid)
  gbkHanzis _ := 0
  mixSegmentCut := some
  behindWord := 0
  popAfterSearch := 0

theorem searchMessage_accepted :
    mqMessageAnalysisJson searchMessage = .taken searchRequest := by
  decide +kernel

/-- The search for an advertisement with a short identifier fits. -/
theorem searchConf_fits :
    (searchPath (searchConf 7) (some ⟨1, ascii "ad"⟩)
        searchRequest).isSome = true ∧
      ∀ subscriber ∈ some (⟨1, ascii "ad"⟩ : CharPointer),
        ∀ word ∈ (searchConf 7).searched searchRequest,
          Fits (searchConf 7) subscriber.text searchRequest word := by
  have run :
      (searchPath (searchConf 7) (some ⟨1, ascii "ad"⟩)
        searchRequest).isSome = true := by
    decide +kernel
  exact ⟨run,
    (searchPath_isSome_iff searchMessage_accepted (searchConf 7)
      (some ⟨1, ascii "ad"⟩)).mp run⟩

/-- An identifier of ten digits does not fit into `sPrefix`. -/
theorem searchConf_overflows :
    mqMessageAnalysisJson searchMessage = .taken searchRequest ∧
      (searchConf 1000000000).searched searchRequest =
        some (ascii "flower") ∧
      searchPath (searchConf 1000000000) (some ⟨1, ascii "ad"⟩)
        searchRequest = none := by
  refine ⟨searchMessage_accepted, by decide +kernel, ?_⟩
  rw [← Option.isNone_iff_eq_none]
  decide +kernel

end WindowSystem.SearchBuffers
