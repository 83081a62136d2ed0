import WindowSystem.Library.TaggedText
import WindowSystem.MqMessageAnalysis

/-!
# The popup senders of the server

`mq_client_popwin.c` of the server turns an accepted request message into a
popup message: the cookie is removed, the User-Agent is replaced by its digest,
and two more members are appended.  The three senders differ in their socket
and in a test at their beginning.  What is modelled is the text before the
base64 encoding; `none` stands for behaviour that C leaves undefined.
-/

namespace WindowSystem.MqClientPopwin

open WindowSystem.CRuntime
open WindowSystem.DcGlobal
open WindowSystem.Library
open WindowSystem.MqMessageAnalysis

/-! ## The text of a popup message -/

def advIdStr : Bytes := ascii "\",\"advId\":\""

def adiusStr : Bytes := ascii "\",\"radius\":\""

/-- `strncat(szPcMessage, pcCookieEnd, pcUaBegin - pcCookieEnd)`: the
difference is unsigned, so a negative one stands for the whole rest. -/
def catRange (pcMessage : Bytes) (pcCookieEnd pcUaBegin : Nat) : Bytes :=
  if pcCookieEnd ≤ pcUaBegin then
    Substring.slice pcMessage pcCookieEnd pcUaBegin
  else pcMessage.drop pcCookieEnd

/-- The copy of the message up to the value of User-Agent, less the
cookie. -/
def removeCookie (pcMessage : Bytes) (pcUaBegin : Nat) : Option Bytes :=
  match strstr pcMessage Separator.cookie with
  | some pcCookieBegin =>
      (strstr pcMessage Separator.srcIP).bind fun pcCookieEnd =>
        store 4096
          (pcMessage.take pcCookieBegin ++
            catRange pcMessage pcCookieEnd pcUaBegin)
  | none => store 4096 (pcMessage.take pcUaBegin)

/-- A member is appended unless its text is `NULL` or empty. -/
def optionalMember (tag : Bytes) (text : Option Bytes) : Bytes :=
  match text with
  | none => []
  | some [] => []
  | some text => tag ++ text

/-- The part that the three senders share. -/
def popMessage (pcMessage : Bytes) (cTotalAdvIds sAd : Option Bytes) :
    Option Bytes :=
  (strstr pcMessage Separator.ua).bind fun place =>
  (strstr pcMessage Separator.finish).bind fun pcUaEnd =>
    let pcUaBegin := place + Separator.ua.length
    (removeCookie pcMessage pcUaBegin).bind fun szPcMessage =>
      if pcUaBegin ≤ pcUaEnd ∧ pcUaEnd - pcUaBegin < 512 then
        store 4096
          (szPcMessage ++
            Decoder.cUaMD5s
              (Substring.slice pcMessage pcUaBegin pcUaEnd) ++
            optionalMember advIdStr cTotalAdvIds ++
            optionalMember adiusStr sAd ++
            Separator.finish)
      else none

/-! ## The senders -/

/-- A sender: the message, `cTotalAdvIds` and `sAd`, in this order.  The
result `some none` sends nothing. -/
abbrev Sender :=
  Bytes → Option Bytes → Option Bytes → Option (Option Bytes)

/-- `pop_mq_direct_send_crowd_msg`. -/
def popMqDirectSendCrowdMsg : Sender :=
  fun pcMessage cTotalAdvIds sAd =>
    (popMessage pcMessage cTotalAdvIds sAd).map some

/-- `pop_mq_direct_send_mobile_msg`. -/
def popMqDirectSendMobileMsg : Sender :=
  fun pcMessage cTotalAdvIds sAd =>
    if sAd = none then some none
    else (popMessage pcMessage cTotalAdvIds sAd).map some

/-- `pop_mq_direct_send_surplus_msg`, with its copy of the address. -/
def popMqDirectSendSurplusMsg : Sender :=
  fun pcMessage cTotalAdvIds sAd =>
    (strstr pcMessage Separator.srcIP).bind fun place =>
    (strstr pcMessage Separator.dstIP).bind fun pcEndIP =>
      let pcBeginIP := place + Separator.srcIP.length
      if 16 ≤ (pcEndIP : Int) - pcBeginIP then some none
      else if pcBeginIP ≤ pcEndIP then
        (popMessage pcMessage cTotalAdvIds sAd).map some
      else none

/-- Whatever a sender sends is the shared text. -/
def Sends (sender : Sender) : Prop :=
  ∀ {pcMessage cTotalAdvIds sAd message},
    sender pcMessage cTotalAdvIds sAd = some (some message) →
      popMessage pcMessage cTotalAdvIds sAd = some message

theorem sends_crowd : Sends popMqDirectSendCrowdMsg := by
  intro pcMessage cTotalAdvIds sAd message sent
  simpa [popMqDirectSendCrowdMsg] using sent

theorem sends_surplus : Sends popMqDirectSendSurplusMsg := by
  intro pcMessage cTotalAdvIds sAd message sent
  simp only [popMqDirectSendSurplusMsg, Option.bind_eq_some_iff] at sent
  obtain ⟨place, _, pcEndIP, _, sent⟩ := sent
  split at sent
  · cases sent
  split at sent
  · simpa using sent
  · cases sent

/-! ## The text that is sent for an accepted message -/

section Accepted

variable {decoder : Decoder} {pcMessage : Bytes}
  {psMqHttpMes : MqHttpMessage}

/-- What the decoder has read as User-Agent. -/
theorem userAgent_of_accepted
    (accepted : decoder.analysis pcMessage = .taken psMqHttpMes) :
    ∃ place pcUaEnd,
      strstr pcMessage Separator.ua = some place ∧
      strstr pcMessage Separator.finish = some pcUaEnd ∧
      (place + Separator.ua.length ≤ pcUaEnd ∧
        pcUaEnd - (place + Separator.ua.length) < 512) ∧
      Decoder.cUaMD5s
          (Substring.slice pcMessage (place + Separator.ua.length)
            pcUaEnd) =
        psMqHttpMes.pcUa := by
  simp only [Decoder.analysis, Outcome.bind_eq_taken_iff] at accepted
  rcases accepted with
    ⟨_, _, _, _, _, _, _, _, _, _, UATemp, read, accepted⟩
  split at accepted
  · cases accepted
    obtain ⟨place, pcUaEnd, found, ended, copied⟩ :=
      Field.copy_eq_taken_iff.mp read
    obtain ⟨_, inside, rfl⟩ := Field.copyRange_eq_taken_iff.mp copied
    exact ⟨place, pcUaEnd, found, ended, inside, rfl⟩
  · cases accepted

/-- What the decoder has read as addresses and cookie. -/
theorem addresses_of_accepted
    (accepted : decoder.analysis pcMessage = .taken psMqHttpMes) :
    ∃ srcIP dstIP,
      strstr pcMessage Separator.srcIP = some srcIP ∧
      strstr pcMessage Separator.dstIP = some dstIP ∧
      srcIP + Separator.srcIP.length ≤ dstIP ∧
      ∀ cookie, strstr pcMessage Separator.cookie = some cookie →
        cookie + Separator.cookie.length ≤ srcIP := by
  simp only [Decoder.analysis, Outcome.bind_eq_taken_iff] at accepted
  rcases accepted with ⟨pcCookie, cookieRead, pcSrcIP, srcIPRead, _⟩
  obtain ⟨srcIP, dstIP, found, ended, copied⟩ :=
    Field.copy_eq_taken_iff.mp srcIPRead
  obtain ⟨_, ⟨order, _⟩, _⟩ := Field.copyRange_eq_taken_iff.mp copied
  refine ⟨srcIP, dstIP, found, ended, order, ?_⟩
  intro cookie present
  rw [Decoder.readCookie, present] at cookieRead
  obtain ⟨place, pcEnd, cookieFound, cookieEnded, cookieCopied⟩ :=
    Field.copy_eq_taken_iff.mp cookieRead
  obtain ⟨_, ⟨cookieOrder, _⟩, _⟩ :=
    Field.copyRange_eq_taken_iff.mp cookieCopied
  cases present.symm.trans cookieFound
  cases found.symm.trans cookieEnded
  exact cookieOrder

/-- The text that is sent: what is left of the message, the digest that the
decoder has stored, and the members. -/
theorem popMessage_of_accepted {cTotalAdvIds sAd : Option Bytes}
    {message : Bytes}
    (accepted : decoder.analysis pcMessage = .taken psMqHttpMes)
    (built : popMessage pcMessage cTotalAdvIds sAd = some message) :
    ∃ place szPcMessage,
      strstr pcMessage Separator.ua = some place ∧
      removeCookie pcMessage (place + Separator.ua.length) =
        some szPcMessage ∧
      message =
        szPcMessage ++ psMqHttpMes.pcUa ++
          optionalMember advIdStr cTotalAdvIds ++
          optionalMember adiusStr sAd ++ Separator.finish := by
  obtain ⟨place, pcUaEnd, found, ended, inside, digest⟩ :=
    userAgent_of_accepted accepted
  simp only [popMessage, found, ended, Option.bind_some,
    Option.bind_eq_some_iff, if_pos inside, store_eq_some_iff,
    digest] at built
  obtain ⟨szPcMessage, removed, _, rfl⟩ := built
  exact ⟨place, szPcMessage, found, removed, rfl⟩

/-- The name of User-Agent is the last thing that is copied of the message:
there is no cookie to remove, or the part behind the cookie reaches up to it,
or the whole rest is copied and happens to end with it. -/
def UserAgentKept (pcMessage : Bytes) : Prop :=
  strstr pcMessage Separator.cookie = none ∨
    ∃ srcIP ∈ strstr pcMessage Separator.srcIP,
    ∃ ua ∈ strstr pcMessage Separator.ua,
      srcIP ≤ ua ∨
        (ua + Separator.ua.length < srcIP ∧ Separator.ua <:+ pcMessage)

theorem occursAt_of_strstr {pattern : Bytes} {place : Nat}
    (found : strstr pcMessage pattern = some place) :
    Substring.OccursAt pattern pcMessage place :=
  ((Substring.firstOccurrence_eq_some_iff _ _ _).mp found).1

/-- The name of the address can start at the last byte of the name of
User-Agent or behind it, but nowhere else inside it. -/
theorem srcIP_inside_ua {srcIP ua : Nat}
    (srcIPFound : strstr pcMessage Separator.srcIP = some srcIP)
    (uaFound : strstr pcMessage Separator.ua = some ua)
    (later : ua < srcIP) (near : srcIP ≤ ua + Separator.ua.length) :
    srcIP = ua + 15 ∨ srcIP = ua + 16 := by
  have uaLength : Separator.ua.length = 16 := rfl
  obtain ⟨offset, rfl⟩ := Nat.exists_eq_add_of_lt later
  have first :=
    (occursAt_of_strstr srcIPFound).getElem? (by decide : 0 < _)
  have second :=
    (occursAt_of_strstr srcIPFound).getElem? (by decide : 1 < _)
  have read {index : Nat} (inside : index < Separator.ua.length) :=
    (occursAt_of_strstr uaFound).getElem? inside
  by_contra outside
  have small : offset + 2 < Separator.ua.length := by omega
  have crossing := (read (by omega : offset + 1 < _)).symm.trans first
  have crossing' := (read small).symm.trans second
  have inside : offset < 14 := by omega
  revert crossing crossing'
  clear * - inside
  revert offset
  decide

/-- Where the name of the address starts inside the name of User-Agent, what
is left of the message ends before that name. -/
theorem not_ua_suffix_of_near {cookie srcIP ua : Nat}
    (cookieFound : strstr pcMessage Separator.cookie = some cookie)
    (srcIPFound : strstr pcMessage Separator.srcIP = some srcIP)
    (uaFound : strstr pcMessage Separator.ua = some ua)
    (order : cookie + Separator.cookie.length ≤ srcIP)
    (later : ua < srcIP) (near : srcIP ≤ ua + Separator.ua.length) :
    ¬ Separator.ua <:+
        pcMessage.take cookie ++
          catRange pcMessage srcIP (ua + Separator.ua.length) := by
  have uaLength : Separator.ua.length = 16 := rfl
  have cookieLength : Separator.cookie.length = 12 := rfl
  intro closes
  rw [catRange, if_pos near, Substring.slice] at closes
  rcases srcIP_inside_ua srcIPFound uaFound later near with
    rfl | rfl
  · have quote :=
      (occursAt_of_strstr cookieFound).getElem? (by decide : 0 < _)
    have quote' :=
      (occursAt_of_strstr srcIPFound).getElem? (by decide : 0 < _)
    have width : ua + Separator.ua.length - (ua + 15) = 1 := by omega
    have same : pcMessage[cookie]? = pcMessage[ua + 15]? :=
      quote.trans quote'.symm
    rw [width, List.take_one, List.head?_drop, ← same,
      ← List.take_add_one] at closes
    have bound :=
      Substring.firstOccurrence_le_of_suffix_take uaFound closes
    omega
  · rw [uaLength, Nat.sub_self, List.take_zero, List.append_nil] at closes
    have bound :=
      Substring.firstOccurrence_le_of_suffix_take uaFound closes
    omega

/-- Where the name of the address stands behind the name of User-Agent, the
whole rest of the message is copied. -/
theorem ua_suffix_iff_of_far {cookie srcIP dstIP ua : Nat}
    (dstIPFound : strstr pcMessage Separator.dstIP = some dstIP)
    (wide : srcIP + Separator.srcIP.length ≤ dstIP)
    (far : ua + Separator.ua.length < srcIP) :
    Separator.ua <:+
        pcMessage.take cookie ++
          catRange pcMessage srcIP (ua + Separator.ua.length) ↔
      Separator.ua <:+ pcMessage := by
  have long : Separator.ua.length ≤ (pcMessage.drop srcIP).length := by
    have bound := (occursAt_of_strstr dstIPFound).length_le
    have uaLength : Separator.ua.length = 16 := rfl
    have dstIPLength : Separator.dstIP.length = 11 := rfl
    have srcIPLength : Separator.srcIP.length = 11 := rfl
    rw [List.length_drop] at bound ⊢
    omega
  rw [catRange, if_neg (by omega)]
  constructor
  · intro closes
    exact
      (List.suffix_of_suffix_length_le closes (List.suffix_append _ _)
        long).trans (List.drop_suffix _ _)
  · intro closes
    exact
      (List.suffix_of_suffix_length_le closes (List.drop_suffix _ _)
        long).trans (List.suffix_append _ _)

/-- The name of User-Agent ends what is left of the message exactly when it is
the last thing that is copied. -/
theorem ua_suffix_iff {place : Nat} {szPcMessage : Bytes}
    (accepted : decoder.analysis pcMessage = .taken psMqHttpMes)
    (found : strstr pcMessage Separator.ua = some place)
    (removed :
      removeCookie pcMessage (place + Separator.ua.length) =
        some szPcMessage) :
    Separator.ua <:+ szPcMessage ↔ UserAgentKept pcMessage := by
  have uaLength : Separator.ua.length = 16 := rfl
  have named := (occursAt_of_strstr found).slice
  obtain ⟨srcIP, dstIP, srcIPFound, dstIPFound, wide, behind⟩ :=
    addresses_of_accepted accepted
  rw [removeCookie] at removed
  cases present : strstr pcMessage Separator.cookie with
  | none =>
      simp only [present, store_eq_some_iff] at removed
      obtain ⟨_, rfl⟩ := removed
      refine iff_of_true ?_ (Or.inl present)
      have front :=
        Substring.slice_append_slice pcMessage (Nat.zero_le place)
          (Nat.le_add_right place Separator.ua.length)
      rw [named] at front
      exact ⟨_, front⟩
  | some cookie =>
      have order := behind cookie present
      have cookieLength : Separator.cookie.length = 12 := rfl
      simp only [present, srcIPFound, Option.bind_some,
        store_eq_some_iff] at removed
      obtain ⟨_, rfl⟩ := removed
      simp only [UserAgentKept, present, reduceCtorEq, false_or, srcIPFound,
        found, Option.mem_def, Option.some.injEq, exists_eq_left']
      rcases Nat.lt_or_ge place srcIP with later | before
      · rcases Nat.lt_or_ge (place + Separator.ua.length) srcIP with
          far | near
        · rw [or_iff_right (by omega), and_iff_right far]
          exact ua_suffix_iff_of_far dstIPFound wide far
        · refine iff_of_false ?_ (by omega)
          exact
            not_ua_suffix_of_near present srcIPFound found order later near
      · refine iff_of_true ?_ (Or.inl before)
        rw [catRange, if_pos (by omega),
          ← Substring.slice_append_slice pcMessage before
            (Nat.le_add_right place Separator.ua.length), named,
          ← List.append_assoc]
        exact List.suffix_append _ _

end Accepted

end WindowSystem.MqClientPopwin
