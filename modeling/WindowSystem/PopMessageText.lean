import WindowSystem.MqClientPopwin

/-!
# What the popup senders send

An accepted message less its cookie, with the digest in the place of the
User-Agent and the two members in front of the closing brace: this is what the
three senders should build.  They build it exactly for the messages whose
cookie stands before the name of User-Agent, whose first closing brace is
their end, and whose parts fit into the arrays.
-/

namespace WindowSystem.PopMessageText

open WindowSystem.CRuntime
open WindowSystem.DcGlobal
open WindowSystem.Library
open WindowSystem.MqClientPopwin
open WindowSystem.MqMessageAnalysis

/-! ## Accepted messages -/

/-- The field lies between its separators and passes the tests of its
length. -/
def Passes (field : Field) (pcMessage : Bytes) : Prop :=
  ∃ place pcEnd,
    strstr pcMessage field.separator = some place ∧
      strstr pcMessage field.next = some pcEnd ∧
      place + field.separator.length ≤ pcEnd ∧
      field.refuses
        ((pcEnd : Int) - (place + field.separator.length : Nat)) = false

/-- The text that the decoder reads as User-Agent. -/
def userAgent (pcMessage : Bytes) : Option Bytes :=
  (strstr pcMessage Separator.ua).bind fun place =>
    (strstr pcMessage Separator.finish).map fun pcUaEnd =>
      Substring.slice pcMessage (place + Separator.ua.length) pcUaEnd

/-- A message that passes all tests of a decoder.  Whether its fields fit into
the arrays of the decoder is not asked. -/
structure Accepts (decoder : Decoder) (pcMessage : Bytes) : Prop where
  cookie : (strstr pcMessage Separator.cookie).isSome = true →
    Passes Decoder.cookieField pcMessage
  srcIP : Passes decoder.srcIPField pcMessage
  host : Passes Decoder.hostField pcMessage
  uri : Passes decoder.uriField pcMessage
  sec : Passes Decoder.secField pcMessage
  ua : Passes decoder.uaField pcMessage
  admits : (userAgent pcMessage).any decoder.admits = true

theorem passes_of_taken {field : Field} {pcMessage text : Bytes}
    (read : field.copy pcMessage = .taken text) :
    Passes field pcMessage := by
  obtain ⟨place, pcEnd, found, ended, copied⟩ :=
    Field.copy_eq_taken_iff.mp read
  obtain ⟨passed, ⟨order, _⟩, _⟩ := Field.copyRange_eq_taken_iff.mp copied
  exact ⟨place, pcEnd, found, ended, order, passed⟩

/-- What a decoder hands on has passed its tests. -/
theorem accepts_of_taken {decoder : Decoder} {pcMessage : Bytes}
    {psMqHttpMes : MqHttpMessage}
    (taken : decoder.analysis pcMessage = .taken psMqHttpMes) :
    Accepts decoder pcMessage := by
  simp only [Decoder.analysis, Outcome.bind_eq_taken_iff] at taken
  obtain ⟨pcCookie, cookie, pcSrcIP, srcIP, host', host, pcUri, uri, pcSec, sec,
    UATemp, ua, admitted⟩ := taken
  refine ⟨fun present => ?_, passes_of_taken srcIP, passes_of_taken host,
    passes_of_taken uri, passes_of_taken sec, passes_of_taken ua, ?_⟩
  · rw [Decoder.readCookie, if_pos present] at cookie
    exact passes_of_taken cookie
  · obtain ⟨place, pcEnd, found, ended, copied⟩ :=
      Field.copy_eq_taken_iff.mp ua
    obtain ⟨_, _, rfl⟩ := Field.copyRange_eq_taken_iff.mp copied
    rw [userAgent, show strstr pcMessage Separator.ua = some place from found,
      show strstr pcMessage Separator.finish = some pcEnd from ended]
    by_contra refused
    cases admitted.symm.trans (if_neg refused)

/-! ## The intended text -/

/-- A text, starting at an offset of the message, without the bytes from one
offset of the message to another one. -/
def without (start stop offset : Nat) (text : Bytes) : Bytes :=
  text.take (start - offset) ++ text.drop (stop - offset)

/-- The places that the senders look for. -/
structure Places where
  cookie : Option Nat
  srcIP : Nat
  ua : Nat
  finish : Nat
deriving DecidableEq

/-- The places in a message. -/
def places (pcMessage : Bytes) : Option Places :=
  (strstr pcMessage Separator.srcIP).bind fun srcIP =>
  (strstr pcMessage Separator.ua).bind fun ua =>
  (strstr pcMessage Separator.finish).map fun finish =>
    ⟨strstr pcMessage Separator.cookie, srcIP, ua, finish⟩

/-- Where the value of User-Agent begins. -/
def Places.uaBegin (found : Places) : Nat :=
  found.ua + Separator.ua.length

/-- A part of the message without the cookie. -/
def Places.withoutCookie (found : Places) (offset : Nat) (text : Bytes) :
    Bytes :=
  match found.cookie with
  | some cookie => without cookie found.srcIP offset text
  | none => text

/-- The two members. -/
def members (cTotalAdvIds sAd : Option Bytes) : Bytes :=
  optionalMember advIdStr cTotalAdvIds ++ optionalMember adiusStr sAd

/-- The digest of the User-Agent. -/
def Places.digest (found : Places) (pcMessage : Bytes) : Bytes :=
  Decoder.cUaMD5s (Substring.slice pcMessage found.uaBegin found.finish)

/-- The message without its cookie, with the digest for the User-Agent and the
members before the closing brace. -/
def Places.intended (found : Places) (pcMessage : Bytes)
    (cTotalAdvIds sAd : Option Bytes) : Bytes :=
  found.withoutCookie 0 (pcMessage.take found.uaBegin) ++
    found.digest pcMessage ++ members cTotalAdvIds sAd ++
    found.withoutCookie found.finish (pcMessage.drop found.finish)

/-- How many bytes the cookie has with its name. -/
def Places.cookieLength (found : Places) : Nat :=
  match found.cookie with
  | some cookie => found.srcIP - cookie
  | none => 0

/-- The messages for which a sender is right. -/
structure Places.Fits (found : Places) (pcMessage : Bytes)
    (cTotalAdvIds sAd : Option Bytes) : Prop where
  order : found.cookie.isSome = true → found.srcIP ≤ found.uaBegin
  finish : found.finish + Separator.finish.length = pcMessage.length
  ua : found.finish - found.uaBegin < 512
  room : found.uaBegin - found.cookieLength +
      (found.digest pcMessage).length +
      (members cTotalAdvIds sAd).length + Separator.finish.length < 4096

/-! ## Where the parts of an accepted message stand -/

/-- What the tests of a decoder say about the places. -/
structure Places.InOrder (found : Places) (pcMessage : Bytes) : Prop where
  cookie : ∀ cookie, found.cookie = some cookie →
    cookie + Separator.cookie.length ≤ found.srcIP
  srcIP : found.srcIP < pcMessage.length
  ua : found.uaBegin ≤ found.finish
  finish : Separator.finish <+: pcMessage.drop found.finish

theorem places_of_accepts {decoder : Decoder} {pcMessage : Bytes}
    (accepts : Accepts decoder pcMessage) :
    ∃ found,
      places pcMessage = some found ∧ found.InOrder pcMessage := by
  obtain ⟨srcIP, dstIP, srcIPFound, dstIPFound, srcIPOrder, _⟩ :=
    accepts.srcIP
  obtain ⟨ua, finish, uaFound, finishFound, uaOrder, _⟩ := accepts.ua
  change strstr pcMessage Separator.srcIP = some srcIP at srcIPFound
  change strstr pcMessage Separator.ua = some ua at uaFound
  change strstr pcMessage Separator.finish = some finish at finishFound
  refine ⟨⟨strstr pcMessage Separator.cookie, srcIP, ua, finish⟩, ?_, ?_⟩
  · rw [places, srcIPFound, uaFound, finishFound]
    rfl
  constructor
  case cookie =>
      intro cookie present
      obtain ⟨place, pcEnd, cookieFound, cookieEnded, order, _⟩ :=
        accepts.cookie (Option.isSome_of_eq_some present)
      cases present.symm.trans cookieFound
      cases srcIPFound.symm.trans cookieEnded
      exact order
  case srcIP =>
      have bound := (occursAt_of_strstr srcIPFound).length_le
      have srcIPLength : Separator.srcIP.length = 11 := rfl
      rw [List.length_drop] at bound
      show srcIP < pcMessage.length
      omega
  case ua => exact uaOrder
  case finish => exact occursAt_of_strstr finishFound

section Text

variable {found : Places} {pcMessage : Bytes}
  {cTotalAdvIds sAd : Option Bytes}

theorem popMessage_of_places (located : places pcMessage = some found)
    (inOrder : found.InOrder pcMessage) (text : Bytes) :
    popMessage pcMessage cTotalAdvIds sAd = some text ↔
      ∃ szPcMessage,
        removeCookie pcMessage found.uaBegin = some szPcMessage ∧
        found.finish - found.uaBegin < 512 ∧
        text.length < 4096 ∧
        szPcMessage ++ found.digest pcMessage ++
            members cTotalAdvIds sAd ++ Separator.finish = text := by
  simp only [places, Option.bind_eq_some_iff, Option.map_eq_some_iff]
    at located
  obtain ⟨srcIP, _, ua, uaFound, finish, finishFound, rfl⟩ := located
  have order := inOrder.ua
  simp only [Places.uaBegin] at order
  simp only [popMessage, uaFound, finishFound, Option.bind_some,
    Option.bind_eq_some_iff, Option.ite_none_right_eq_some, order, true_and,
    store_eq_some_iff, members, Places.digest, Places.uaBegin,
    List.append_assoc]
  constructor
  · rintro ⟨szPcMessage, removed, ua, room, rfl⟩
    exact ⟨szPcMessage, removed, ua, room, rfl⟩
  · rintro ⟨szPcMessage, removed, ua, room, rfl⟩
    exact ⟨szPcMessage, removed, ua, room, rfl⟩

/-- Only the closing brace is behind the first one exactly when the message
ends there. -/
theorem drop_finish_iff (inOrder : found.InOrder pcMessage) :
    Separator.finish = pcMessage.drop found.finish ↔
      found.finish + Separator.finish.length = pcMessage.length := by
  have bound := inOrder.finish.length_le
  have finishLength : Separator.finish.length = 2 := rfl
  rw [List.length_drop] at bound
  constructor
  · intro same
    have length := congrArg List.length same
    rw [List.length_drop] at length
    omega
  · intro length
    refine inOrder.finish.eq_of_length ?_
    rw [List.length_drop]
    omega

theorem removeCookie_of_noCookie
    (located : places pcMessage = some found)
    (absent : found.cookie = none) :
    removeCookie pcMessage found.uaBegin =
      store 4096 (pcMessage.take found.uaBegin) := by
  simp only [places, Option.bind_eq_some_iff, Option.map_eq_some_iff]
    at located
  obtain ⟨srcIP, _, ua, _, finish, _, rfl⟩ := located
  simp only at absent
  simp only [removeCookie, absent]

theorem removeCookie_of_places {cookie : Nat}
    (located : places pcMessage = some found)
    (present : found.cookie = some cookie) :
    removeCookie pcMessage found.uaBegin =
      store 4096
        (pcMessage.take cookie ++
          catRange pcMessage found.srcIP found.uaBegin) := by
  simp only [places, Option.bind_eq_some_iff, Option.map_eq_some_iff]
    at located
  obtain ⟨srcIP, srcIPFound, ua, _, finish, _, rfl⟩ := located
  simp only at present
  simp only [removeCookie, present, srcIPFound, Option.bind_some]

/-- Where the cookie stands before the value of User-Agent, it is cut out of
the front and nothing is cut out of the rest. -/
theorem withoutCookie_of_before {cookie : Nat}
    (inOrder : found.InOrder pcMessage)
    (present : found.cookie = some cookie)
    (before : found.srcIP ≤ found.uaBegin) :
    found.withoutCookie 0 (pcMessage.take found.uaBegin) =
        pcMessage.take cookie ++
          Substring.slice pcMessage found.srcIP found.uaBegin ∧
      found.withoutCookie found.finish (pcMessage.drop found.finish) =
        pcMessage.drop found.finish := by
  have cookieOrder := inOrder.cookie cookie present
  have order := inOrder.ua
  constructor
  · rw [Places.withoutCookie, present]
    simp only [without, Nat.sub_zero]
    rw [List.take_take, Nat.min_eq_left (by omega), List.drop_take,
      Substring.slice]
  · rw [Places.withoutCookie, present]
    simp only [without]
    rw [Nat.sub_eq_zero_of_le (by omega),
      Nat.sub_eq_zero_of_le (by omega), List.take_zero, List.drop_zero,
      List.nil_append]

/-- The text where the cookie is cut out of the front only: what is built and
what is intended differ behind the members. -/
theorem popMessage_iff_of_front {szPcMessage : Bytes}
    (located : places pcMessage = some found)
    (inOrder : found.InOrder pcMessage)
    (order : found.cookie.isSome = true → found.srcIP ≤ found.uaBegin)
    (removed :
      removeCookie pcMessage found.uaBegin = store 4096 szPcMessage)
    (front :
      found.withoutCookie 0 (pcMessage.take found.uaBegin) = szPcMessage)
    (rest :
      found.withoutCookie found.finish (pcMessage.drop found.finish) =
        pcMessage.drop found.finish)
    (length : szPcMessage.length = found.uaBegin - found.cookieLength) :
    popMessage pcMessage cTotalAdvIds sAd =
        some (found.intended pcMessage cTotalAdvIds sAd) ↔
      found.Fits pcMessage cTotalAdvIds sAd := by
  rw [popMessage_of_places located inOrder, removed, Places.intended, front,
    rest]
  simp only [store_eq_some_iff]
  constructor
  · rintro ⟨_, ⟨_, rfl⟩, ua, room, same⟩
    have closing := List.append_cancel_left same
    refine ⟨order, (drop_finish_iff inOrder).mp closing, ua, ?_⟩
    rw [← same] at room
    simpa only [List.length_append, length] using room
  · intro fits
    have room := fits.room
    have closing := (drop_finish_iff inOrder).mpr fits.finish
    rw [← closing]
    refine ⟨szPcMessage, ⟨?_, rfl⟩, fits.ua, ?_, rfl⟩
    · omega
    · simpa only [List.length_append, length] using room

/-- The message without a cookie. -/
theorem popMessage_iff_of_noCookie
    (located : places pcMessage = some found)
    (inOrder : found.InOrder pcMessage) (absent : found.cookie = none) :
    popMessage pcMessage cTotalAdvIds sAd =
        some (found.intended pcMessage cTotalAdvIds sAd) ↔
      found.Fits pcMessage cTotalAdvIds sAd := by
  have order := inOrder.ua
  have finishInside := inOrder.finish.length_le
  have finishLength : Separator.finish.length = 2 := rfl
  rw [List.length_drop] at finishInside
  refine popMessage_iff_of_front located inOrder (by simp [absent])
    (removeCookie_of_noCookie located absent) ?_ ?_ ?_
  · rw [Places.withoutCookie, absent]
  · rw [Places.withoutCookie, absent]
  · rw [Places.cookieLength, absent, List.length_take]
    show min found.uaBegin pcMessage.length = found.uaBegin - 0
    omega

/-- The message with a cookie before the value of User-Agent. -/
theorem popMessage_iff_of_before {cookie : Nat}
    (located : places pcMessage = some found)
    (inOrder : found.InOrder pcMessage)
    (present : found.cookie = some cookie)
    (before : found.srcIP ≤ found.uaBegin) :
    popMessage pcMessage cTotalAdvIds sAd =
        some (found.intended pcMessage cTotalAdvIds sAd) ↔
      found.Fits pcMessage cTotalAdvIds sAd := by
  have cookieOrder := inOrder.cookie cookie present
  have order := inOrder.ua
  have finishInside := inOrder.finish.length_le
  have finishLength : Separator.finish.length = 2 := rfl
  rw [List.length_drop] at finishInside
  have removed := removeCookie_of_places located present
  rw [catRange, if_pos before] at removed
  obtain ⟨front, rest⟩ := withoutCookie_of_before inOrder present before
  refine popMessage_iff_of_front located inOrder (fun _ => before) removed
    front rest ?_
  rw [Places.cookieLength, present, List.length_append, List.length_take,
    Substring.slice, List.length_take, List.length_drop]
  show _ = found.uaBegin - (found.srcIP - cookie)
  omega

/-- Where the name of the address stands behind the name of User-Agent, the
negative difference lets the whole rest be copied, and the text that is built
is longer than it should be. -/
theorem popMessage_ne_of_behind {cookie : Nat}
    (located : places pcMessage = some found)
    (inOrder : found.InOrder pcMessage)
    (present : found.cookie = some cookie)
    (behind : found.uaBegin < found.srcIP) :
    popMessage pcMessage cTotalAdvIds sAd ≠
      some (found.intended pcMessage cTotalAdvIds sAd) := by
  have cookieOrder := inOrder.cookie cookie present
  have order := inOrder.ua
  have srcIPInside := inOrder.srcIP
  have finishLength : Separator.finish.length = 2 := rfl
  rw [Ne, popMessage_of_places located inOrder,
    removeCookie_of_places located present]
  simp only [catRange, if_neg (Nat.not_le.mpr behind), store_eq_some_iff]
  rintro ⟨szPcMessage, ⟨_, rfl⟩, _, _, same⟩
  have length := congrArg List.length same
  simp only [Places.intended, Places.withoutCookie, present, without,
    List.length_append, List.length_take, List.length_drop,
    Nat.sub_zero] at length
  have cookieInside : min cookie pcMessage.length = cookie :=
    Nat.min_eq_left (by omega)
  have uaInside : min found.uaBegin pcMessage.length = found.uaBegin :=
    Nat.min_eq_left (by omega)
  rw [cookieInside, uaInside, Nat.sub_eq_zero_of_le behind.le] at length
  omega

/-- A sender builds the text that it should exactly where it fits. -/
theorem popMessage_iff (located : places pcMessage = some found)
    (inOrder : found.InOrder pcMessage) :
    popMessage pcMessage cTotalAdvIds sAd =
        some (found.intended pcMessage cTotalAdvIds sAd) ↔
      found.Fits pcMessage cTotalAdvIds sAd := by
  cases present : found.cookie with
  | none => exact popMessage_iff_of_noCookie located inOrder present
  | some cookie =>
      rcases Nat.lt_or_ge found.uaBegin found.srcIP with behind | before
      · refine iff_of_false
          (popMessage_ne_of_behind located inOrder present behind) ?_
        intro fits
        exact Nat.not_le.mpr behind
          (fits.order (Option.isSome_of_eq_some present))
      · exact popMessage_iff_of_before located inOrder present before

end Text

/-! ## The three senders -/

/-- The senders. -/
inductive Kind where
  | crowd
  | mobile
  | surplus
deriving DecidableEq

/-- The sender of a kind. -/
def Kind.sender : Kind → Sender
  | .crowd => popMqDirectSendCrowdMsg
  | .mobile => popMqDirectSendMobileMsg
  | .surplus => popMqDirectSendSurplusMsg

/-- The sender to mobile devices sends nothing without a subscriber. -/
def Kind.Silent (kind : Kind) (sAd : Option Bytes) : Prop :=
  kind = .mobile ∧ sAd = none

instance (kind : Kind) (sAd : Option Bytes) :
    Decidable (kind.Silent sAd) :=
  inferInstanceAs (Decidable (_ ∧ _))

/-- On an accepted message a sender that is not silent builds the shared text:
the address fits into `srcip`. -/
theorem sender_eq {decoder : Decoder} {pcMessage : Bytes}
    (accepts : Accepts decoder pcMessage) (kind : Kind)
    (cTotalAdvIds sAd : Option Bytes) :
    kind.sender pcMessage cTotalAdvIds sAd =
      if kind.Silent sAd then some none
      else (popMessage pcMessage cTotalAdvIds sAd).map some := by
  cases kind with
  | crowd => rfl
  | mobile => simp [Kind.sender, popMqDirectSendMobileMsg, Kind.Silent]
  | surplus =>
      obtain ⟨place, pcEnd, srcIPFound, dstIPFound, order, passed⟩ :=
        accepts.srcIP
      change strstr pcMessage Separator.srcIP = some place at srcIPFound
      change strstr pcMessage Separator.dstIP = some pcEnd at dstIPFound
      change place + Separator.srcIP.length ≤ pcEnd at order
      simp [Field.refuses, Decoder.srcIPField] at passed
      have short :
          ¬ 16 ≤ (pcEnd : Int) - (place + Separator.srcIP.length : Nat) := by
        omega
      simp only [Kind.sender, popMqDirectSendSurplusMsg, srcIPFound,
        dstIPFound, Option.bind_some]
      rw [if_neg short, if_pos order, if_neg (by simp [Kind.Silent])]

/-! ## Two messages -/

/-- A message as the client writes it. -/
def plainMessage : Bytes :=
  ascii "\x7b\"sequence\":\"1\",\"Cookie\":\"a\",\"srcIP\":\"1.2.3.4" ++
    ascii "\",\"dstIP\":\"5.6.7.8\",\"siteUrl\":\"h\",\"siteUri\":\"/" ++
    ascii "\",\"sec\":\"1\",\"User-Agent\":\"x\"\x7d"

/-- The same message with a cookie that holds the names of later fields. -/
def quotedMessage : Bytes :=
  ascii "\x7b\"sequence\":\"1\",\"Cookie\":\"a\",\"siteUrl\":\"h" ++
    ascii "\",\"siteUri\":\"/\",\"sec\":\"1\",\"User-Agent\":\"b\"\x7d" ++
    ascii "\",\"srcIP\":\"1.2.3.4\",\"dstIP\":\"5.6.7.8\",\"siteUrl\":\"h" ++
    ascii "\",\"siteUri\":\"/\",\"sec\":\"1\",\"User-Agent\":\"x\"\x7d"

theorem accepts_plainMessage : Accepts jsonDecoder plainMessage :=
  accepts_of_taken
    (show _ = Outcome.taken
      { pcCookie := ascii "a", pcSrcIP := ascii "1.2.3.4",
        pcUri := ascii "/", host := ascii "h", pcSec := ascii "1",
        lSec := 1, pcUa := Decoder.cUaMD5s (ascii "x"),
        pcNoEncUa := ascii "x" } by decide +kernel)

theorem accepts_quotedMessage : Accepts jsonDecoder quotedMessage :=
  accepts_of_taken
    (show _ = Outcome.taken
      { pcCookie :=
          ascii "a\",\"siteUrl\":\"h\",\"siteUri\":\"/\",\"sec\":\"1" ++
            ascii "\",\"User-Agent\":\"b\"\x7d"
        pcSrcIP := ascii "1.2.3.4", pcUri := ascii "/", host := ascii "h",
        pcSec := ascii "1", lSec := 1,
        pcUa := Decoder.cUaMD5s (ascii "b"), pcNoEncUa := ascii "b" } by
      decide +kernel)

/-! ## The texts that are sent -/

/-- **What the three senders build from an accepted message.**

The text is the message without its cookie, with the digest for the
User-Agent and the members before the closing brace, and all writes stay in
their arrays, exactly when the places and the lengths fit; the digest always
fits. -/
theorem sender_builds_intended_iff {decoder : Decoder} {pcMessage : Bytes}
    (accepts : Accepts decoder pcMessage) (kind : Kind)
    (cTotalAdvIds sAd : Option Bytes) :
    ∃ found ∈ places pcMessage,
      (found.digest pcMessage).length < 33 ∧
        (kind.sender pcMessage cTotalAdvIds sAd =
            some
              (if kind.Silent sAd then none
              else some (found.intended pcMessage cTotalAdvIds sAd)) ↔
          kind.Silent sAd ∨ found.Fits pcMessage cTotalAdvIds sAd) := by
  obtain ⟨found, located, inOrder⟩ := places_of_accepts accepts
  refine ⟨found, located,
    Nat.lt_of_le_of_lt (length_cUaMD5s _) (by decide), ?_⟩
  rw [sender_eq accepts]
  split
  · rename_i silent
    simp [silent]
  · rename_i loud
    rw [or_iff_right loud, ← popMessage_iff located inOrder,
      Option.map_eq_some_iff]
    simp

/-- The plain message is sent as it should be. -/
theorem plainMessage_built :
    ∃ found ∈ places plainMessage,
      (found.digest plainMessage).length < 33 ∧
        popMqDirectSendCrowdMsg plainMessage none none =
          some (some (found.intended plainMessage none none)) := by
  obtain ⟨found, located, short, built⟩ :=
    sender_builds_intended_iff accepts_plainMessage .crowd none none
  refine ⟨found, located, short, built.mpr (Or.inr ?_)⟩
  have known : places plainMessage = some ⟨some 14, 27, 101, 118⟩ := by
    decide +kernel
  cases known.symm.trans located
  exact ⟨by decide, by decide +kernel, by decide, by decide +kernel⟩

/-- The quoted message is accepted, but the User-Agent stays in the text and
the digest stands behind the closing brace. -/
theorem quotedMessage_not_built :
    Accepts jsonDecoder quotedMessage ∧
      popMqDirectSendCrowdMsg quotedMessage none none =
        some (some
          (quotedMessage.take 14 ++ quotedMessage.drop 84 ++
            Decoder.cUaMD5s (ascii "b") ++ Separator.finish)) ∧
      ∀ found ∈ places quotedMessage,
        popMqDirectSendCrowdMsg quotedMessage none none ≠
          some (some (found.intended quotedMessage none none)) := by
  refine ⟨accepts_quotedMessage, by decide +kernel, ?_⟩
  decide +kernel

end WindowSystem.PopMessageText
