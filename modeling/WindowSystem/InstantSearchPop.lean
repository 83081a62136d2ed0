import WindowSystem.DataPassBack

/-!
# Search hits

A search that matches advertisements is reported as a text `ad::ua::ids`.
`radius_pop_check_search_wd` of `instant_search_pop.c` writes it;
`mq_instant_redis_store.c` and `instant_record.c` read it, both with `strsep`,
which takes every single `:` for a separator.
-/

namespace WindowSystem.InstantSearchPop

open WindowSystem.CRuntime
open WindowSystem.DataPassBack
open WindowSystem.DcGlobal
open WindowSystem.Library
open WindowSystem.ToolHashMap

/-! ## The writer -/

/-- The line about one advertisement that is written to a file. -/
def storeLine (psMqHttpMes : MqHttpMessage) (sPcad : Bytes) (iAdid : Int) :
    Bytes :=
  Decimal.decimalInt iAdid ++ ascii "###" ++ psMqHttpMes.host ++
    ascii "\t" ++ psMqHttpMes.pcCookie ++ ascii "\t" ++
    psMqHttpMes.pcUri ++ ascii "\t" ++ sPcad ++ ascii "\t" ++
    psMqHttpMes.pcSec

/-- The text of one identifier in the list; all but the first call put a
comma in front. -/
def listItem (first : Bool) (iAdid : Int) : Bytes :=
  if first then Decimal.decimalInt iAdid
  else ascii "," ++ Decimal.decimalInt iAdid

/-- The loop of `radius_pop_check_search_wd` over `aid`, with the list
`szAdvId` and its number of identifiers `adlen` as they are before the rest of
the loop.  The result holds the lines and the final list. -/
def searchLoop (psMqHttpMes : MqHttpMessage) (sPcad : Bytes) :
    Bool → List Int → Nat → Bytes → Option (List Bytes × Bytes)
  | _, [], _, szAdvId => some ([], szAdvId)
  | first, iAdid :: aid, adlen, szAdvId =>
      (store 10 (Decimal.decimalInt iAdid)).bind fun _ =>
        (store 4096 (storeLine psMqHttpMes sPcad iAdid)).bind fun cStore =>
          if 0 < iAdid then
            (store 10 (listItem first iAdid)).bind fun szBuff =>
              (store 128 (szAdvId ++ szBuff)).bind fun szAdvId =>
                if adlen < 16 then
                  (searchLoop psMqHttpMes sPcad false aid (adlen + 1)
                    szAdvId).map fun (lines, szAdvId) =>
                      (cStore :: lines, szAdvId)
                else none
          else
            (searchLoop psMqHttpMes sPcad false aid adlen szAdvId).map
              fun (lines, szAdvId) => (cStore :: lines, szAdvId)

/-- The message for the online display. -/
def onlineMessage (psMqHttpMes : MqHttpMessage) (sPcad szAdvId : Bytes) :
    Bytes :=
  sPcad ++ ascii "\t" ++ psMqHttpMes.pcSrcIP ++ ascii "\t" ++
    psMqHttpMes.pcUa ++ ascii "\t" ++ psMqHttpMes.pcUri ++ ascii "\t" ++
    psMqHttpMes.host ++ ascii "\t" ++ szAdvId ++ ascii "\t" ++
    psMqHttpMes.pcSec

/-- What a search hit sends. -/
structure SearchHit where
  lines : List Bytes
  online : Option Bytes
  szADUA : Bytes
deriving DecidableEq

/-- The text `ad::ua::` before the list. -/
def hitPrefix (psMqHttpMes : MqHttpMessage) (sPcad : Bytes) : Bytes :=
  sPcad ++ ascii "::" ++ (psMqHttpMes.pcNoEncUa ++ ascii "::")

/-- `radius_pop_check_search_wd`; `none` is undefined behaviour, `some none`
sends nothing. -/
def radiusPopCheckSearchWd (psMqHttpMes : MqHttpMessage)
    (sPcad : Option Bytes) (aid : List Int) : Option (Option SearchHit) :=
  if 512 ≤ psMqHttpMes.pcSrcIP.length + psMqHttpMes.pcUa.length then
    some none
  else
    match sPcad with
    | none => some none
    | some sPcad =>
        (store 2048 (hitPrefix psMqHttpMes sPcad)).bind fun szADUA =>
          (searchLoop psMqHttpMes sPcad true aid 0 []).bind
            fun (lines, szAdvId) =>
              (if szAdvId = [] then some none
              else
                (store 4096
                  (onlineMessage psMqHttpMes sPcad szAdvId)).map
                    some).bind fun online =>
                (store 2048 (szADUA ++ szAdvId)).map fun szADUA =>
                  some
                    { lines := lines, online := online, szADUA := szADUA }

/-! ## The readers -/

/-- What `redis_store` makes of a message: the two parts of the key and the
members that are added to its set. -/
structure RedisAdd where
  ad : Bytes
  ua : Bytes
  members : List Bytes
deriving DecidableEq

/-- The `sadd` commands for every redis server: key and member. -/
def RedisAdd.commands (add : RedisAdd) : List (Bytes × Bytes) :=
  add.members.map fun member => (add.ad ++ add.ua, member)

/-- `redis_store`; `some none` is its result `-1`. -/
def redisStore (msg : Bytes) : Option (Option RedisAdd) :=
  let token := strsep 58 msg
  if token.length < 20 then
    requireToken token 0 fun ad =>
    requireToken token 2 fun ua =>
    requireToken token 4 fun ids =>
      let members := strtok 44 ids
      if members.length < 40 then
        (store 1024 (ad ++ ua)).bind fun szADUA =>
          if members.all fun member =>
              (ascii "sadd " ++ szADUA ++ ascii " " ++ member).length <
                2048 then
            some (some { ad := ad, ua := ua, members := members })
          else none
      else none
  else none

/-- The tables `g_pSearchAdUaHashMap`. -/
abbrev SearchTables := ThreadId → HashMap Unit

/-- The key under which `instant_count_record` files a message, with its
thread. -/
def instantKey (message : Bytes) : Option (Option (ThreadId × Bytes)) :=
  (store 1024 message).bind fun packet =>
    let token := strsep 58 packet
    if token.length < 20 then
      requireToken token 0 fun ad =>
      requireToken token 2 fun ua =>
        (store 1024 (ad ++ ua)).map fun szADUA =>
          some (userThread ad, szADUA)
    else none

/-- One message of `instant_count_record`. -/
def instantCountRecord (tables : SearchTables) (message : Bytes) :
    Option SearchTables :=
  (instantKey message).map fun
    | none => tables
    | some (iTid, szADUA) =>
        if (hashMapFind (tables iTid) szADUA szADUA.length).ret < 0 then
          Function.update tables iTid
            (hashMapInsert (tables iTid) szADUA szADUA.length none)
        else tables

/-- The key that `radius_pop_check_pop_ip` looks up; `some none` looks
nothing up. -/
def popIpKey (psMqHttpMes : MqHttpMessage) (adv : Bytes) :
    Option (Option Bytes) :=
  if 512 ≤ psMqHttpMes.pcSrcIP.length + psMqHttpMes.pcNoEncUa.length then
    some none
  else (store 1024 (adv ++ psMqHttpMes.pcNoEncUa)).map some

/-- `radius_pop_check_pop_ip`. -/
def radiusPopCheckPopIp (tables : SearchTables) (iTid : ThreadId)
    (psMqHttpMes : MqHttpMessage) (adv : Option Bytes) : Option Bool :=
  match adv with
  | none => some false
  | some adv =>
      (popIpKey psMqHttpMes adv).map fun
        | none => false
        | some szADUA =>
            decide
              (0 ≤ (hashMapFind (tables iTid) szADUA szADUA.length).ret)

/-! ## The list of identifiers -/

/-- The text that the loop appends for identifiers that are all positive. -/
def listItems : Bool → List Int → Bytes
  | _, [] => []
  | first, iAdid :: aid => listItem first iAdid ++ listItems false aid

theorem comma_not_mem (number : Int) : 44 ∉ Decimal.decimalInt number :=
  Decimal.not_mem_decimalInt (by decide) (by decide)

theorem colon_not_mem (number : Int) : 58 ∉ Decimal.decimalInt number :=
  Decimal.not_mem_decimalInt (by decide) (by decide)

theorem strtok_append_listItem {first : Bool} {szAdvId : Bytes}
    (start : first = true → szAdvId = []) (iAdid : Int) :
    strtok 44 (szAdvId ++ listItem first iAdid) =
      strtok 44 szAdvId ++ [Decimal.decimalInt iAdid] := by
  cases first with
  | true =>
      rw [start rfl, listItem, if_pos rfl, List.nil_append,
        strtok_of_not_mem (Decimal.decimalInt_ne_nil _) (comma_not_mem _),
        strtok_nil, List.nil_append]
  | false =>
      exact strtok_append szAdvId (Decimal.decimalInt_ne_nil _)
        (comma_not_mem _)

theorem colon_not_mem_listItems (first : Bool) (aid : List Int) :
    58 ∉ listItems first aid := by
  induction aid generalizing first with
  | nil => simp [listItems]
  | cons iAdid aid induction =>
      have separator : (58 : UInt8) ∉ ascii "," := by decide
      cases first with
      | true => simp [listItems, listItem, colon_not_mem, induction]
      | false =>
          simp [listItems, listItem, colon_not_mem, induction, separator]

theorem strtok_append_listItems {first : Bool} {szAdvId : Bytes}
    (start : first = true → szAdvId = []) (aid : List Int) :
    strtok 44 (szAdvId ++ listItems first aid) =
      strtok 44 szAdvId ++ aid.map Decimal.decimalInt := by
  induction aid generalizing first szAdvId with
  | nil => simp [listItems]
  | cons iAdid aid induction =>
      rw [listItems, ← List.append_assoc, induction (by simp),
        strtok_append_listItem start, List.map_cons, List.append_assoc]
      rfl

section Loop

variable {psMqHttpMes : MqHttpMessage} {sPcad szAdvId final : Bytes}
  {first : Bool} {aid : List Int} {adlen : Nat} {lines : List Bytes}

/-- The bounds of the buffers that the loop fills. -/
structure LoopFits (psMqHttpMes : MqHttpMessage) (sPcad : Bytes)
    (first : Bool) (aid : List Int) (adlen : Nat) (szAdvId : Bytes) :
    Prop where
  numerals : ∀ iAdid ∈ aid, (Decimal.decimalInt iAdid).length < 10
  lines : ∀ iAdid ∈ aid, (storeLine psMqHttpMes sPcad iAdid).length < 4096
  items : ∀ iAdid ∈ if first then aid.tail else aid,
    (listItem false iAdid).length < 10
  few : adlen + aid.length ≤ 16
  list : (szAdvId ++ listItems first aid).length < 128

/-- The loop over positive identifiers that fit. -/
theorem searchLoop_of_fits
    (fits : LoopFits psMqHttpMes sPcad first aid adlen szAdvId)
    (positive : ∀ iAdid ∈ aid, 0 < iAdid) :
    searchLoop psMqHttpMes sPcad first aid adlen szAdvId =
      some (aid.map (storeLine psMqHttpMes sPcad),
        szAdvId ++ listItems first aid) := by
  induction aid generalizing first adlen szAdvId with
  | nil => simp [searchLoop, listItems]
  | cons iAdid aid induction =>
      have numeral := fits.numerals iAdid List.mem_cons_self
      have line := fits.lines iAdid List.mem_cons_self
      have few := fits.few
      have list := fits.list
      rw [listItems, ← List.append_assoc] at list
      have item : (listItem first iAdid).length < 10 := by
        cases first with
        | true => exact numeral
        | false => exact fits.items iAdid List.mem_cons_self
      have short : (szAdvId ++ listItem first iAdid).length < 128 := by
        rw [List.length_append] at list
        omega
      have room : adlen < 16 := by
        rw [List.length_cons] at few
        omega
      have rest :
          LoopFits psMqHttpMes sPcad false aid (adlen + 1)
            (szAdvId ++ listItem first iAdid) :=
        { numerals := fun other member =>
            fits.numerals other (List.mem_cons_of_mem _ member)
          lines := fun other member =>
            fits.lines other (List.mem_cons_of_mem _ member)
          items := fun other member => by
            cases first with
            | true => exact fits.items other member
            | false =>
                exact fits.items other (List.mem_cons_of_mem _ member)
          few := by
            rw [List.length_cons] at few
            omega
          list := list }
      rw [searchLoop, store, if_pos numeral, Option.bind_some, store,
        if_pos line, Option.bind_some,
        if_pos (positive iAdid List.mem_cons_self), store, if_pos item,
        Option.bind_some, store, if_pos short, Option.bind_some,
        if_pos room, induction rest fun other member =>
          positive other (List.mem_cons_of_mem _ member)]
      simp [listItems]

/-- The tokens of the list are the positive identifiers. -/
theorem strtok_searchLoop (start : first = true → szAdvId = [])
    (run :
      searchLoop psMqHttpMes sPcad first aid adlen szAdvId =
        some (lines, final)) :
    strtok 44 final =
      strtok 44 szAdvId ++
        (aid.filter (0 < ·)).map Decimal.decimalInt := by
  induction aid generalizing first adlen szAdvId lines with
  | nil =>
      cases run
      simp
  | cons iAdid aid induction =>
      simp only [searchLoop, Option.bind_eq_some_iff,
        store_eq_some_iff] at run
      rcases run with ⟨_, _, cStore, _, run⟩
      split at run
      · rename_i positive
        simp only [Option.bind_eq_some_iff, store_eq_some_iff,
          Option.ite_none_right_eq_some, Option.map_eq_some_iff,
          Prod.exists, Prod.mk.injEq] at run
        rcases run with
          ⟨_, ⟨_, rfl⟩, _, ⟨_, rfl⟩, _, lines, final, rest, _, rfl⟩
        rw [induction (by simp) rest, strtok_append_listItem start,
          List.filter_cons_of_pos (by simpa using positive),
          List.map_cons, List.append_assoc]
        rfl
      · rename_i skipped
        simp only [Option.map_eq_some_iff, Prod.exists,
          Prod.mk.injEq] at run
        rcases run with ⟨lines, final, rest, _, rfl⟩
        have still : false = true → szAdvId = [] := by simp
        rw [induction still rest,
          List.filter_cons_of_neg (by simpa using skipped)]

/-- The buffers of a loop over positive identifiers that ran to its end. -/
theorem fits_of_searchLoop (positive : ∀ iAdid ∈ aid, 0 < iAdid)
    (few : adlen ≤ 16) (short : szAdvId.length < 128)
    (run :
      searchLoop psMqHttpMes sPcad first aid adlen szAdvId =
        some (lines, final)) :
    LoopFits psMqHttpMes sPcad first aid adlen szAdvId ∧
      final = szAdvId ++ listItems first aid := by
  induction aid generalizing first adlen szAdvId lines with
  | nil =>
      cases run
      refine ⟨?_, by simp [listItems]⟩
      exact
        { numerals := by simp
          lines := by simp
          items := by simp
          few := by simpa using few
          list := by simpa [listItems] using short }
  | cons iAdid aid induction =>
      simp only [searchLoop, Option.bind_eq_some_iff, store_eq_some_iff,
        if_pos (positive iAdid List.mem_cons_self),
        Option.ite_none_right_eq_some, Option.map_eq_some_iff,
        Prod.exists, Prod.mk.injEq] at run
      rcases run with
        ⟨_, ⟨numeral, _⟩, _, ⟨line, _⟩, _, ⟨item, rfl⟩, _, ⟨list, rfl⟩,
          room, lines, final, rest, _, rfl⟩
      obtain ⟨fits, rfl⟩ :=
        induction
          (fun other member => positive other (List.mem_cons_of_mem _ member))
          room list rest
      refine ⟨?_, by rw [listItems, List.append_assoc]⟩
      exact
        { numerals := by
            rintro other (_ | ⟨_, member⟩)
            · exact numeral
            · exact fits.numerals other member
          lines := by
            rintro other (_ | ⟨_, member⟩)
            · exact line
            · exact fits.lines other member
          items := by
            cases first with
            | true => exact fits.items
            | false =>
                rintro other (_ | ⟨_, member⟩)
                · exact item
                · exact fits.items other member
          few := by
            have few := fits.few
            rw [List.length_cons]
            omega
          list := by
            rw [listItems, ← List.append_assoc]
            exact fits.list }

/-- The list holds no separator of the message. -/
theorem colon_not_mem_searchLoop (clean : 58 ∉ szAdvId)
    (run :
      searchLoop psMqHttpMes sPcad first aid adlen szAdvId =
        some (lines, final)) :
    58 ∉ final := by
  induction aid generalizing first adlen szAdvId lines with
  | nil =>
      cases run
      exact clean
  | cons iAdid aid induction =>
      have item : 58 ∉ listItem first iAdid := by
        have absent := colon_not_mem_listItems first [iAdid]
        rwa [listItems, listItems, List.append_nil] at absent
      simp only [searchLoop, Option.bind_eq_some_iff,
        store_eq_some_iff] at run
      rcases run with ⟨_, _, cStore, _, run⟩
      split at run
      · simp only [Option.bind_eq_some_iff, store_eq_some_iff,
          Option.ite_none_right_eq_some, Option.map_eq_some_iff,
          Prod.exists, Prod.mk.injEq] at run
        rcases run with
          ⟨_, ⟨_, rfl⟩, _, ⟨_, rfl⟩, _, lines, final, rest, _, rfl⟩
        refine induction ?_ rest
        simp [clean, item]
      · simp only [Option.map_eq_some_iff, Prod.exists,
          Prod.mk.injEq] at run
        rcases run with ⟨lines, final, rest, _, rfl⟩
        exact induction clean rest

end Loop

/-! ## The round trip -/

section RoundTrip

variable {psMqHttpMes : MqHttpMessage} {sPcad : Bytes} {aid : List Int}

/--
A search hit for `sPcad` and the identifiers `aid` arrives: `redis_store`
adds exactly these identifiers to the set of the subscriber and User-Agent,
and `instant_count_record` files the hit under the key that
`radius_pop_check_pop_ip` looks up for the same request.
-/
def RoundTrip (psMqHttpMes : MqHttpMessage) (sPcad : Bytes)
    (aid : List Int) : Prop :=
  ∃ hit szADUA,
    radiusPopCheckSearchWd psMqHttpMes (some sPcad) aid =
      some (some hit) ∧
    redisStore hit.szADUA =
      some (some
        { ad := sPcad
          ua := psMqHttpMes.pcNoEncUa
          members := aid.map Decimal.decimalInt }) ∧
    popIpKey psMqHttpMes sPcad = some (some szADUA) ∧
    szADUA = sPcad ++ psMqHttpMes.pcNoEncUa ∧
    instantKey hit.szADUA = some (some (userThread sPcad, szADUA))

/-- The hits that arrive. -/
structure Deliverable (psMqHttpMes : MqHttpMessage) (sPcad : Bytes)
    (aid : List Int) : Prop where
  ad_ne_nil : sPcad ≠ []
  ua_ne_nil : psMqHttpMes.pcNoEncUa ≠ []
  ids_ne_nil : aid ≠ []
  ad_plain : 58 ∉ sPcad
  ua_plain : 58 ∉ psMqHttpMes.pcNoEncUa
  positive : ∀ iAdid ∈ aid, 0 < iAdid
  digest_short :
    psMqHttpMes.pcSrcIP.length + psMqHttpMes.pcUa.length < 512
  agent_short :
    psMqHttpMes.pcSrcIP.length + psMqHttpMes.pcNoEncUa.length < 512
  loop : LoopFits psMqHttpMes sPcad true aid 0 []
  online :
    (onlineMessage psMqHttpMes sPcad (listItems true aid)).length < 4096
  packet :
    (hitPrefix psMqHttpMes sPcad ++ listItems true aid).length < 1024

theorem strsep_hit {szAdvId : Bytes} (ad_plain : 58 ∉ sPcad)
    (ua_plain : 58 ∉ psMqHttpMes.pcNoEncUa) (ids_plain : 58 ∉ szAdvId) :
    strsep 58 (hitPrefix psMqHttpMes sPcad ++ szAdvId) =
      [sPcad, [], psMqHttpMes.pcNoEncUa, [], szAdvId] := by
  have separator (rest : Bytes) : ascii "::" ++ rest = 58 :: 58 :: rest :=
    rfl
  rw [hitPrefix, List.append_assoc, List.append_assoc, List.append_assoc,
    separator, separator, strsep_double ad_plain, strsep_double ua_plain,
    strsep_of_not_mem ids_plain]

theorem listItems_ne_nil {first : Bool} (nonempty : aid ≠ []) :
    listItems first aid ≠ [] := by
  cases aid with
  | nil => exact absurd rfl nonempty
  | cons iAdid aid =>
      cases first <;>
        simp [listItems, listItem, Decimal.decimalInt_ne_nil]

theorem length_hitPrefix :
    (hitPrefix psMqHttpMes sPcad).length =
      sPcad.length + psMqHttpMes.pcNoEncUa.length + 4 := by
  have separator : (ascii "::").length = 2 := rfl
  simp only [hitPrefix, List.length_append, separator]
  omega

/-- What is sent for a hit that fits. -/
theorem Deliverable.sent (hit : Deliverable psMqHttpMes sPcad aid) :
    radiusPopCheckSearchWd psMqHttpMes (some sPcad) aid =
      some (some
        { lines := aid.map (storeLine psMqHttpMes sPcad)
          online :=
            some (onlineMessage psMqHttpMes sPcad (listItems true aid))
          szADUA :=
            hitPrefix psMqHttpMes sPcad ++ listItems true aid }) := by
  have packet := hit.packet
  have front : (hitPrefix psMqHttpMes sPcad).length < 2048 := by
    rw [List.length_append] at packet
    omega
  have whole :
      (hitPrefix psMqHttpMes sPcad ++ listItems true aid).length < 2048 := by
    omega
  have listed :=
    searchLoop_of_fits hit.loop hit.positive
  rw [List.nil_append] at listed
  rw [radiusPopCheckSearchWd, if_neg (by have := hit.digest_short; omega)]
  simp only [store, if_pos front, if_pos whole, listed, Option.bind_some,
    if_neg (listItems_ne_nil hit.ids_ne_nil), if_pos hit.online,
    Option.map_some]

theorem Deliverable.stored (hit : Deliverable psMqHttpMes sPcad aid) :
    redisStore (hitPrefix psMqHttpMes sPcad ++ listItems true aid) =
      some (some
        { ad := sPcad
          ua := psMqHttpMes.pcNoEncUa
          members := aid.map Decimal.decimalInt }) := by
  have packet := hit.packet
  rw [List.length_append, length_hitPrefix] at packet
  have start : true = true → ([] : Bytes) = [] := fun _ => rfl
  have members := strtok_append_listItems start aid
  rw [List.nil_append, strtok_nil, List.nil_append] at members
  have key : (sPcad ++ psMqHttpMes.pcNoEncUa).length < 1024 := by
    rw [List.length_append]
    omega
  have few : (aid.map Decimal.decimalInt).length < 40 := by
    have few := hit.loop.few
    rw [List.length_map]
    omega
  have commands :
      ((aid.map Decimal.decimalInt).all fun member =>
        (ascii "sadd " ++ (sPcad ++ psMqHttpMes.pcNoEncUa) ++ ascii " " ++
          member).length < 2048) = true := by
    rw [List.all_eq_true]
    intro member listed
    obtain ⟨iAdid, inside, rfl⟩ := List.mem_map.mp listed
    have numeral := hit.loop.numerals iAdid inside
    have word : (ascii "sadd ").length = 5 := rfl
    have blank : (ascii " ").length = 1 := rfl
    rw [List.length_append] at key
    simp only [List.length_append, word, blank, decide_eq_true_eq]
    omega
  rw [redisStore, strsep_hit hit.ad_plain hit.ua_plain
    (colon_not_mem_listItems _ _)]
  simp only [requireToken, List.length_cons, List.length_nil,
    List.getElem?_cons_zero, List.getElem?_cons_succ, Option.bind_some,
    if_neg hit.ad_ne_nil, if_neg hit.ua_ne_nil,
    if_neg (listItems_ne_nil hit.ids_ne_nil), members, if_pos few, store,
    if_pos key, if_pos commands]
  rfl

theorem Deliverable.filed (hit : Deliverable psMqHttpMes sPcad aid) :
    popIpKey psMqHttpMes sPcad =
        some (some (sPcad ++ psMqHttpMes.pcNoEncUa)) ∧
      instantKey (hitPrefix psMqHttpMes sPcad ++ listItems true aid) =
        some (some
          (userThread sPcad, sPcad ++ psMqHttpMes.pcNoEncUa)) := by
  have packet := hit.packet
  have agent := hit.agent_short
  have key : (sPcad ++ psMqHttpMes.pcNoEncUa).length < 1024 := by
    rw [List.length_append, length_hitPrefix] at packet
    rw [List.length_append]
    omega
  constructor
  · rw [popIpKey, if_neg (by omega), store, if_pos key, Option.map_some]
  · rw [instantKey, store, if_pos packet, Option.bind_some,
      strsep_hit hit.ad_plain hit.ua_plain (colon_not_mem_listItems _ _)]
    simp only [requireToken, List.length_cons, List.length_nil,
      List.getElem?_cons_zero, List.getElem?_cons_succ, Option.bind_some,
      if_neg hit.ad_ne_nil, if_neg hit.ua_ne_nil, store, if_pos key,
      Option.map_some]
    rfl

theorem Deliverable.roundTrip (hit : Deliverable psMqHttpMes sPcad aid) :
    RoundTrip psMqHttpMes sPcad aid :=
  ⟨_, _, hit.sent, hit.stored, hit.filed.1, rfl, hit.filed.2⟩

/-- Nothing was filtered from a list whose texts are those of the list
before. -/
theorem positive_of_map_filter
    (all :
      (aid.filter (0 < ·)).map Decimal.decimalInt =
        aid.map Decimal.decimalInt) :
    ∀ iAdid ∈ aid, 0 < iAdid := by
  have lengths := congrArg List.length all
  rw [List.length_map, List.length_map,
    List.length_filter_eq_length_iff] at lengths
  intro iAdid member
  simpa using lengths iAdid member

/-- The parts of a message that `redis_store` accepts. -/
theorem redisStore_eq_some {msg : Bytes} {add : RedisAdd}
    (accepted : redisStore msg = some (some add)) :
    ∃ ids, (strsep 58 msg)[0]? = some add.ad ∧ add.ad ≠ [] ∧
      (strsep 58 msg)[2]? = some add.ua ∧ add.ua ≠ [] ∧
      (strsep 58 msg)[4]? = some ids ∧ ids ≠ [] ∧
      strtok 44 ids = add.members := by
  simp only [redisStore, Option.ite_none_right_eq_some,
    requireToken_eq_some_iff, Option.bind_eq_some_iff, store_eq_some_iff,
    Option.some.injEq] at accepted
  rcases accepted with
    ⟨_, ad, adFound, adNonempty, ua, uaFound, uaNonempty, ids, idsFound,
      idsNonempty, _, _, _, _, rfl⟩
  exact ⟨ids, adFound, adNonempty, uaFound, uaNonempty, idsFound,
    idsNonempty, rfl⟩

theorem RoundTrip.deliverable (arrives : RoundTrip psMqHttpMes sPcad aid) :
    Deliverable psMqHttpMes sPcad aid := by
  rcases arrives with
    ⟨hit, szADUA, sent, stored, lookedUp, rfl, filed⟩
  rw [radiusPopCheckSearchWd] at sent
  split at sent
  · cases sent
  simp only [Option.bind_eq_some_iff, Option.map_eq_some_iff,
    store_eq_some_iff, Prod.exists, Option.some.injEq] at sent
  rcases sent with
    ⟨_, ⟨_, rfl⟩, lines, szAdvId, loop, online, shown, _, ⟨_, rfl⟩, rfl⟩
  obtain ⟨ids, adFound, adNonempty, uaFound, uaNonempty, idsFound,
    idsNonempty, members⟩ := redisStore_eq_some stored
  have adPlain := (mem_strsep (List.mem_of_getElem? adFound)).1
  have uaPlain := (mem_strsep (List.mem_of_getElem? uaFound)).1
  have start : true = true → ([] : Bytes) = [] := fun _ => rfl
  have idsPlain : 58 ∉ szAdvId :=
    colon_not_mem_searchLoop (by simp) loop
  rw [strsep_hit adPlain uaPlain idsPlain] at idsFound
  obtain rfl : szAdvId = ids := by simpa using idsFound
  have positive : ∀ iAdid ∈ aid, 0 < iAdid := by
    rw [strtok_searchLoop start loop, strtok_nil, List.nil_append]
      at members
    exact positive_of_map_filter members
  obtain ⟨fits, rfl⟩ :=
    fits_of_searchLoop positive (by omega) (by decide) loop
  rw [List.nil_append] at shown filed idsNonempty
  rw [if_neg idsNonempty] at shown
  simp only [Option.map_eq_some_iff, store_eq_some_iff] at shown
  rcases shown with ⟨_, ⟨online, rfl⟩, rfl⟩
  rw [popIpKey] at lookedUp
  split at lookedUp
  · cases lookedUp
  rename_i digestShort agentShort
  simp only [instantKey, Option.bind_eq_some_iff,
    store_eq_some_iff] at filed
  rcases filed with ⟨_, ⟨packet, rfl⟩, _⟩
  exact
    { ad_ne_nil := adNonempty
      ua_ne_nil := uaNonempty
      ids_ne_nil := by
        rintro rfl
        exact idsNonempty rfl
      ad_plain := adPlain
      ua_plain := uaPlain
      positive := positive
      digest_short := by omega
      agent_short := by omega
      loop := fits
      online := online
      packet := packet }

/-! ## The table of searches -/

/-- A filed key is found. -/
theorem find_instantCountRecord {tables tables' : SearchTables}
    {message szADUA : Bytes} {iTid : ThreadId}
    (searchable : (tables iTid).Searchable)
    (key : instantKey message = some (some (iTid, szADUA)))
    (recorded : instantCountRecord tables message = some tables') :
    0 ≤ (hashMapFind (tables' iTid) szADUA szADUA.length).ret := by
  rw [instantCountRecord, key, Option.map_some, Option.some.injEq]
    at recorded
  subst recorded
  dsimp only
  split
  · rw [Function.update_self, ret_hashMapFind_nonneg_iff
      (by rw [hashLen_hashMapInsert]; exact searchable.1)
      (by rw [hashLen_hashMapInsert]; exact searchable.2),
      hashLen_hashMapInsert, lookup_hashMapInsert_same]
    rfl
  · rename_i present
    exact not_lt.mp present

/-- After the hit was filed, `radius_pop_check_pop_ip` lets the request
through. -/
theorem popIp_after_hit {tables : SearchTables}
    (searchable : (tables (userThread sPcad)).Searchable)
    (hit : Deliverable psMqHttpMes sPcad aid) :
    ∃ sent tables',
      radiusPopCheckSearchWd psMqHttpMes (some sPcad) aid =
        some (some sent) ∧
      instantCountRecord tables sent.szADUA = some tables' ∧
      radiusPopCheckPopIp tables' (userThread sPcad) psMqHttpMes
        (some sPcad) = some true := by
  obtain ⟨lookedUp, filed⟩ := hit.filed
  refine ⟨_, _, hit.sent, by rw [instantCountRecord, filed]; rfl, ?_⟩
  have found :=
    find_instantCountRecord searchable filed
      (by rw [instantCountRecord, filed]; rfl)
  rw [radiusPopCheckPopIp, lookedUp]
  simpa using found

/-- A search hit arrives exactly when it is deliverable, and then the next
request of the subscriber is let through. -/
theorem roundTrip_iff_deliverable (psMqHttpMes : MqHttpMessage)
    (sPcad : Bytes) (aid : List Int) :
    (RoundTrip psMqHttpMes sPcad aid ↔ Deliverable psMqHttpMes sPcad aid) ∧
      (Deliverable psMqHttpMes sPcad aid →
        ∀ tables : SearchTables, (tables (userThread sPcad)).Searchable →
          ∃ sent tables',
            radiusPopCheckSearchWd psMqHttpMes (some sPcad) aid =
              some (some sent) ∧
            instantCountRecord tables sent.szADUA = some tables' ∧
            radiusPopCheckPopIp tables' (userThread sPcad) psMqHttpMes
              (some sPcad) = some true) :=
  ⟨⟨RoundTrip.deliverable, Deliverable.roundTrip⟩,
    fun hit _ searchable => popIp_after_hit searchable hit⟩

/-- The request of a browser that puts a colon into its User-Agent. -/
def revisionRequest : MqHttpMessage where
  pcCookie := ascii "NULL"
  pcSrcIP := ascii "10.0.0.7"
  pcUri := ascii "/s?wd=car"
  host := ascii "www.example.com"
  pcSec := ascii "1400000000"
  lSec := 1400000000
  pcUa := ascii "123456"
  pcNoEncUa := ascii "Mozilla/5.0 (rv:11.0) Gecko"

/-- Its hit is sent, not stored, and filed under a cut key. -/
theorem revisionRequest_lost :
    ¬ RoundTrip revisionRequest (ascii "user1") [7] ∧
      (radiusPopCheckSearchWd revisionRequest (some (ascii "user1"))
        [7]).map (Option.map SearchHit.szADUA) =
        some (some (ascii "user1::Mozilla/5.0 (rv:11.0) Gecko::7")) ∧
      redisStore (ascii "user1::Mozilla/5.0 (rv:11.0) Gecko::7") =
        some none ∧
      (instantKey
        (ascii "user1::Mozilla/5.0 (rv:11.0) Gecko::7")).map
          (Option.map Prod.snd) =
        some (some (ascii "user1Mozilla/5.0 (rv")) := by
  refine ⟨?_, by decide +kernel, by decide +kernel, by decide +kernel⟩
  intro arrives
  exact arrives.deliverable.ua_plain (by decide +kernel)

end RoundTrip

end WindowSystem.InstantSearchPop
