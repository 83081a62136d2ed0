import Mathlib.Data.Nat.Digits.Defs
import WindowSystem.Client.PktParser
import WindowSystem.Library.TaggedText
import WindowSystem.MqMessageAnalysis

/-!
# The messages of the capture client

`pop_mq_direct_send_msg` of the client's `mq_client_popwin.c` writes a parsed
request between separators, and `mq_message_analysis_json` of the server reads
it.  The bytes of the request are not escaped.
-/

namespace WindowSystem.Client.MqClientPopwin

open WindowSystem.CRuntime
open WindowSystem.Client.PktParser
open WindowSystem.DcGlobal
open WindowSystem.Library
open WindowSystem.MqMessageAnalysis

/-! ## The append helpers -/

/-- `mq_pop_win_str_append_`; `none` is a read through `NULL`. -/
def mqPopWinStrAppend (memory : Memory) (range : Range) : Option Bytes :=
  match range.start, range.stop with
  | some start, some stop =>
      some (bytesAt memory start (stop - start + 1).toNat)
  | some _, none => some []
  | none, _ => none

/-- `mq_pop_win_int_append`. -/
def mqPopWinIntAppend (num : UInt32) : Bytes :=
  if num = 0 then [48]
  else (Nat.digits 10 num.toNat).reverse.map fun digit =>
    (48 + digit).toUInt8

/-- `mq_pop_win_MAC_append_`. -/
def mqPopWinMACAppend (dmac : Fin 6 → UInt8) : Bytes :=
  Decimal.decimal (dmac 0).toNat ++
    (List.ofFn fun i : Fin 5 =>
      ascii ":" ++ Decimal.decimal (dmac i.succ).toNat).flatten

/-- `inet_ntoa_r`, with the bytes `p[3]` to `p[0]` of the address. -/
def inetNtoaR (ip : UInt32) : Bytes :=
  Decimal.decimal ((ip >>> 24) &&& 255).toNat ++ ascii "." ++
    Decimal.decimal ((ip >>> 16) &&& 255).toNat ++ ascii "." ++
    Decimal.decimal ((ip >>> 8) &&& 255).toNat ++ ascii "." ++
    Decimal.decimal (ip &&& 255).toNat

/-! ## The message -/

/-- The texts that are written between the separators. -/
structure RequestTexts where
  sequence : Bytes
  ack : Bytes
  ipLength : Bytes
  tcpOptionLength : Bytes
  srcPort : Bytes
  dstPort : Bytes
  cookie : Option Bytes
  srcIP : Bytes
  dstIP : Bytes
  dstMac : Bytes
  srcMac : Bytes
  host : Bytes
  uri : Bytes
  sec : Bytes
  ua : Bytes
deriving DecidableEq

/-- The cookie, when both of its pointers are set. -/
def cookieText (memory : Memory) (http : HttpRequestKinfo) :
    Option (Option Bytes) :=
  let cookies := http.header .cookie
  if cookies.start.isSome ∧ cookies.stop.isSome then
    (mqPopWinStrAppend memory cookies).map some
  else some none

/-- The texts of a request. -/
def requestTexts (memory : Memory) (buffer : Int) (hdr : PfringPkthdr)
    (http : HttpRequestKinfo) : Option RequestTexts :=
  let ip := buffer + 2 + hdr.l3Offset
  let ipLength :=
    (memory ip).toNat * 256 + (memory (ip + 1)).toNat
  let tcp := buffer + hdr.l4Offset
  (cookieText memory http).bind fun cookie =>
  (mqPopWinStrAppend memory (http.header .host)).bind fun host =>
  (mqPopWinStrAppend memory http.uri).bind fun uri =>
  (mqPopWinStrAppend memory (http.header .userAgent)).map fun ua =>
    { sequence := mqPopWinIntAppend hdr.seqNum
      ack := mqPopWinIntAppend hdr.ackNum
      ipLength := mqPopWinIntAppend ipLength.toUInt32
      tcpOptionLength :=
        mqPopWinIntAppend (UInt32.ofInt (doff memory tcp * 4 - 20))
      srcPort := mqPopWinIntAppend hdr.l4SrcPort.toUInt32
      dstPort := mqPopWinIntAppend hdr.l4DstPort.toUInt32
      cookie := cookie
      srcIP := inetNtoaR hdr.ipv4Src
      dstIP := inetNtoaR hdr.ipv4Dst
      dstMac := mqPopWinMACAppend hdr.dmac
      srcMac := mqPopWinMACAppend hdr.smac
      host := host
      uri := uri
      sec := Decimal.decimal (UInt32.ofInt http.sec).toNat
      ua := ua }

namespace RequestTexts

/-- The part of the message before the optional cookie. -/
def front (texts : RequestTexts) : Bytes :=
  ascii "\x7b\"sequence\":\"" ++ texts.sequence ++
    ascii "\",\"ackNumber\":\"" ++ texts.ack ++
    ascii "\",\"ipLength\":\"" ++ texts.ipLength ++
    ascii "\",\"tcpOptionLength\":\"" ++ texts.tcpOptionLength ++
    ascii "\",\"srcPort\":\"" ++ texts.srcPort ++
    ascii "\",\"dstPort\":\"" ++ texts.dstPort

/-- The destination and the hardware addresses. -/
def addresses (texts : RequestTexts) : Bytes :=
  texts.dstIP ++
    ascii "\",\"dstMac\":\"" ++ texts.dstMac ++
    ascii "\",\"srcMac\":\"" ++ texts.srcMac

/-- The message `jsonstr`. -/
def jsonstr (texts : RequestTexts) : Bytes :=
  texts.front ++
    (match texts.cookie with
    | some cookie => Separator.cookie ++ cookie
    | none => []) ++
    Separator.srcIP ++ texts.srcIP ++
    Separator.dstIP ++ texts.addresses ++
    Separator.siteUrl ++ texts.host ++
    Separator.siteUri ++ texts.uri ++
    Separator.sec ++ texts.sec ++
    Separator.ua ++ texts.ua ++
    Separator.finish

end RequestTexts

/-- `pop_mq_direct_send_msg`: the message that `s_send` sends. -/
def popMqDirectSendMsg (memory : Memory) (buffer : Int)
    (hdr : PfringPkthdr) (http : HttpRequestKinfo) : Option Bytes :=
  (requestTexts memory buffer hdr http).bind fun texts =>
    (store 10240 texts.jsonstr).map cString

/-! ## The message as tagged fields -/

namespace RequestTexts

/-- The fields from `srcIP` on. -/
def plainParts (texts : RequestTexts) : List (Bytes × Bytes) :=
  [(Separator.srcIP, texts.srcIP), (Separator.dstIP, texts.addresses),
    (Separator.siteUrl, texts.host), (Separator.siteUri, texts.uri),
    (Separator.sec, texts.sec), (Separator.ua, texts.ua),
    (Separator.finish, [])]

/-- The fields that the server looks for. -/
def parts (texts : RequestTexts) : List (Bytes × Bytes) :=
  match texts.cookie with
  | some cookie => (Separator.cookie, cookie) :: texts.plainParts
  | none => texts.plainParts

theorem jsonstr_eq_assemble (texts : RequestTexts) :
    texts.jsonstr = TaggedText.assemble texts.front texts.parts := by
  rw [jsonstr, parts]
  cases texts.cookie <;> simp [TaggedText.assemble, plainParts]

/-- No separator that the server looks for occurs before its own place. -/
structure Undisturbed (texts : RequestTexts) : Prop where
  parts : TaggedText.Undisturbed texts.front texts.parts
  noCookie : texts.cookie = none →
    ¬ Separator.cookie <:+: texts.jsonstr

/-- The limits of the server. -/
structure Short (texts : RequestTexts) : Prop where
  cookie : ∀ cookie ∈ texts.cookie, cookie.length < 4096
  srcIP : texts.srcIP.length < 16
  host : texts.host.length < 256
  uri : texts.uri.length < 512
  sec : texts.sec.length < 64
  ua : texts.ua.length < 512

/-- The struct that holds the texts. -/
def message (texts : RequestTexts) : MqHttpMessage where
  pcCookie := texts.cookie.getD (ascii "NULL")
  pcSrcIP := texts.srcIP
  pcUri := texts.uri
  host := texts.host
  pcSec := texts.sec
  lSec := atoi texts.sec
  pcUa := Decoder.cUaMD5s texts.ua
  pcNoEncUa := texts.ua

end RequestTexts

/-! ## Reading one field -/

/-- A field between its two tags is copied. -/
theorem copy_assemble {field : Field} {front text later : Bytes}
    {after : List (Bytes × Bytes)}
    (tagged : field.separator ≠ [] ∧ field.next ≠ [])
    (undisturbed :
      TaggedText.Undisturbed front
        ((field.separator, text) :: (field.next, later) :: after))
    (accepted : field.refuses text.length = false)
    (short : text.length < field.capacity) :
    field.copy
        (TaggedText.assemble front
          ((field.separator, text) :: (field.next, later) :: after)) =
      .taken text := by
  have place :
      (front ++ field.separator ++ text).length =
        front.length + field.separator.length + text.length := by
    simp only [List.length_append]
  refine Field.copy_eq_taken_iff.mpr
    ⟨_, _, TaggedText.firstOccurrence_tag tagged.1 undisturbed,
      TaggedText.firstOccurrence_next tagged.2 undisturbed, ?_⟩
  refine Field.copyRange_eq_taken_iff.mpr
    ⟨?_, ⟨by omega, by omega⟩, TaggedText.slice_field⟩
  rw [place]
  have length :
      ((front.length + field.separator.length + text.length : Nat) : Int) -
          (front.length + field.separator.length : Nat) =
        text.length := by
    omega
  rw [length]
  exact accepted

/-- The same for a field behind other fields. -/
theorem copy_part {field : Field} {front text later : Bytes}
    {parts after : List (Bytes × Bytes)} (before : List (Bytes × Bytes))
    (written :
      parts = before ++ (field.separator, text) :: (field.next, later) ::
        after)
    (tagged : field.separator ≠ [] ∧ field.next ≠ [])
    (undisturbed : TaggedText.Undisturbed front parts)
    (accepted : field.refuses text.length = false)
    (short : text.length < field.capacity) :
    field.copy (TaggedText.assemble front parts) = .taken text := by
  subst written
  rw [TaggedText.assemble_append]
  exact copy_assemble tagged undisturbed.drop accepted short

section RoundTrip

variable {texts : RequestTexts} {front : Bytes}

/-- The fields from `srcIP` on, behind a front that may hold the cookie. -/
theorem copy_plainParts (short : texts.Short)
    (undisturbed : TaggedText.Undisturbed front texts.plainParts) :
    jsonDecoder.srcIPField.copy
        (TaggedText.assemble front texts.plainParts) =
      .taken texts.srcIP ∧
    Decoder.hostField.copy (TaggedText.assemble front texts.plainParts) =
      .taken texts.host ∧
    jsonDecoder.uriField.copy
        (TaggedText.assemble front texts.plainParts) =
      .taken texts.uri ∧
    Decoder.secField.copy (TaggedText.assemble front texts.plainParts) =
      .taken texts.sec ∧
    jsonDecoder.uaField.copy
        (TaggedText.assemble front texts.plainParts) =
      .taken texts.ua := by
  have srcIPShort := short.srcIP
  have hostShort := short.host
  have uriShort := short.uri
  have uaShort := short.ua
  refine ⟨?_, ?_, ?_, ?_, ?_⟩
  · refine copy_part [] rfl ⟨by decide, by decide⟩ undisturbed ?_ srcIPShort
    simp [Field.refuses, Decoder.srcIPField]
    omega
  · refine copy_part (texts.plainParts.take 2) rfl ⟨by decide, by decide⟩
      undisturbed ?_ hostShort
    simp [Field.refuses, Decoder.hostField]
    omega
  · refine copy_part (texts.plainParts.take 3) rfl ⟨by decide, by decide⟩
      undisturbed ?_ (Nat.lt_trans uriShort (by decide))
    simp [Field.refuses, Decoder.uriField, jsonDecoder]
    omega
  · exact copy_part (texts.plainParts.take 4) rfl ⟨by decide, by decide⟩
      undisturbed rfl short.sec
  · refine copy_part (texts.plainParts.take 5) rfl ⟨by decide, by decide⟩
      undisturbed ?_ uaShort
    simp [Field.refuses, Decoder.uaField, jsonDecoder]
    omega

/-- The decoder on a message whose fields are read back. -/
theorem analysis_of_copies {pcMessage : Bytes}
    (cookie : Decoder.readCookie pcMessage =
      .taken (texts.cookie.getD (ascii "NULL")))
    (srcIP : jsonDecoder.srcIPField.copy pcMessage = .taken texts.srcIP)
    (host : Decoder.hostField.copy pcMessage = .taken texts.host)
    (uri : jsonDecoder.uriField.copy pcMessage = .taken texts.uri)
    (sec : Decoder.secField.copy pcMessage = .taken texts.sec)
    (ua : jsonDecoder.uaField.copy pcMessage = .taken texts.ua) :
    mqMessageAnalysisJson pcMessage =
      if jsonDecoder.admits texts.ua then .taken texts.message
      else .rejected := by
  simp only [mqMessageAnalysisJson, Decoder.analysis, cookie, srcIP, host,
    uri, sec, ua, Outcome.bind_taken]
  rfl

/-- The server reads back an undisturbed message. -/
theorem analysis_jsonstr (short : texts.Short)
    (undisturbed : texts.Undisturbed) :
    mqMessageAnalysisJson texts.jsonstr =
      if jsonDecoder.admits texts.ua then .taken texts.message
      else .rejected := by
  have parts := undisturbed.parts
  have noCookie := undisturbed.noCookie
  rw [texts.jsonstr_eq_assemble] at noCookie ⊢
  rw [RequestTexts.parts] at parts noCookie ⊢
  cases given : texts.cookie with
  | some cookie =>
      rw [given] at parts
      simp only
      have cookieShort := short.cookie cookie given
      have read :
          Decoder.cookieField.copy
              (TaggedText.assemble texts.front
                ((Separator.cookie, cookie) :: texts.plainParts)) =
            .taken cookie :=
        copy_part [] rfl ⟨by decide, by decide⟩ parts rfl cookieShort
      have present :
          (strstr
            (TaggedText.assemble texts.front
              ((Separator.cookie, cookie) :: texts.plainParts))
            Separator.cookie).isSome = true :=
        Option.isSome_of_eq_some
          (TaggedText.firstOccurrence_tag (by decide) parts)
      obtain ⟨srcIP, host, uri, sec, ua⟩ := copy_plainParts short parts.2
      refine analysis_of_copies ?_ ?_ ?_ ?_ ?_ ?_
      · rw [Decoder.readCookie, if_pos present, read, given]
        rfl
      all_goals rw [TaggedText.assemble_cons]
      · exact srcIP
      · exact host
      · exact uri
      · exact sec
      · exact ua
  | none =>
      rw [given] at parts noCookie
      simp only
      have absent :
          strstr (TaggedText.assemble texts.front texts.plainParts)
            Separator.cookie = none :=
        (Substring.firstOccurrence_eq_none_iff _ _).mpr (noCookie rfl)
      obtain ⟨srcIP, host, uri, sec, ua⟩ := copy_plainParts short parts
      refine analysis_of_copies ?_ srcIP host uri sec ua
      rw [Decoder.readCookie, absent, given]
      rfl

end RoundTrip

/-! ## The texts of a packet -/

theorem zero_not_mem_decimal (number : Nat) :
    0 ∉ Decimal.decimal number :=
  Decimal.not_mem_decimal (by decide)

theorem zero_not_mem_intAppend (num : UInt32) :
    0 ∉ mqPopWinIntAppend num := by
  rw [mqPopWinIntAppend]
  split
  · decide
  · intro member
    obtain ⟨digit, inDigits, zero⟩ := List.mem_map.mp member
    have small :=
      Nat.digits_lt_base (by decide) (List.mem_reverse.mp inDigits)
    have value := congrArg UInt8.toNat zero
    simp only [Nat.toUInt8_eq, UInt8.toNat_ofNat', UInt8.toNat_zero] at value
    omega

theorem zero_not_mem_inetNtoaR (ip : UInt32) : 0 ∉ inetNtoaR ip := by
  have dot : 0 ∉ ascii "." := by decide
  simp [inetNtoaR, zero_not_mem_decimal, dot]

theorem zero_not_mem_MACAppend (dmac : Fin 6 → UInt8) :
    0 ∉ mqPopWinMACAppend dmac := by
  have colon : 0 ∉ ascii ":" := by decide
  simp [mqPopWinMACAppend, zero_not_mem_decimal, colon]

theorem length_inetNtoaR (ip : UInt32) : (inetNtoaR ip).length < 16 := by
  have part (word : UInt32) :
      (Decimal.decimal (word &&& 255).toNat).length ≤ 3 := by
    refine Decimal.length_decimal_le (by decide) ?_
    have small : (word &&& 255).toNat ≤ 255 := by
      rw [UInt32.toNat_and]
      exact Nat.and_le_right
    omega
  have dot : (ascii ".").length = 1 := rfl
  have first := part (ip >>> 24)
  have second := part (ip >>> 16)
  have third := part (ip >>> 8)
  have fourth := part ip
  simp only [inetNtoaR, List.length_append, dot]
  omega

section Packet

variable {memory : Memory} {buffer : Int} {hdr : PfringPkthdr}
  {http : HttpRequestKinfo} {texts : RequestTexts}

/-- The texts that are printed from numbers are short and hold no zero
byte. -/
theorem requestTexts_numbers
    (read : requestTexts memory buffer hdr http = some texts) :
    (0 ∉ texts.front ∧ 0 ∉ texts.srcIP ∧ 0 ∉ texts.addresses ∧
      0 ∉ texts.sec) ∧
      texts.srcIP.length < 16 ∧ texts.sec.length < 64 := by
  simp only [requestTexts, Option.bind_eq_some_iff,
    Option.map_eq_some_iff] at read
  rcases read with ⟨cookie, _, host, _, uri, _, ua, _, rfl⟩
  have small := (UInt32.ofInt http.sec).toNat_lt
  refine ⟨⟨?_, zero_not_mem_inetNtoaR _, ?_, zero_not_mem_decimal _⟩,
    length_inetNtoaR _, ?_⟩
  · simp only [RequestTexts.front, List.mem_append, not_or]
    and_intros <;> first | decide | exact zero_not_mem_intAppend _
  · simp only [RequestTexts.addresses, List.mem_append, not_or]
    and_intros <;> first
      | decide
      | exact zero_not_mem_inetNtoaR _
      | exact zero_not_mem_MACAppend _
  · have length :=
      @Decimal.length_decimal_le (UInt32.ofInt http.sec).toNat 10
        (by decide) (by omega)
    exact Nat.lt_of_le_of_lt length (by decide)

/-- The struct in terms of the packet. -/
theorem requestTexts_message
    (read : requestTexts memory buffer hdr http = some texts) :
    texts.message =
      { pcCookie := texts.cookie.getD (ascii "NULL")
        pcSrcIP := inetNtoaR hdr.ipv4Src
        pcUri := texts.uri
        host := texts.host
        pcSec := Decimal.decimal (UInt32.ofInt http.sec).toNat
        lSec := toInt32 (UInt32.ofInt http.sec).toNat
        pcUa := Decoder.cUaMD5s texts.ua
        pcNoEncUa := texts.ua } := by
  simp only [requestTexts, Option.bind_eq_some_iff,
    Option.map_eq_some_iff] at read
  rcases read with ⟨cookie, _, host, _, uri, _, ua, _, rfl⟩
  have small := (UInt32.ofInt http.sec).toNat_lt
  rw [RequestTexts.message, atoi_decimal_wrap (by omega)]

/-- The bytes of the request that are sent without escaping. -/
structure RequestTexts.Sendable (texts : RequestTexts) : Prop where
  cookie : ∀ cookie ∈ texts.cookie, 0 ∉ cookie ∧ cookie.length < 4096
  host : 0 ∉ texts.host ∧ texts.host.length < 256
  uri : 0 ∉ texts.uri ∧ texts.uri.length < 512
  ua : 0 ∉ texts.ua ∧ texts.ua.length < 512

theorem RequestTexts.Sendable.noNul (sendable : texts.Sendable)
    (read : requestTexts memory buffer hdr http = some texts) :
    0 ∉ texts.jsonstr := by
  obtain ⟨⟨front, srcIP, addresses, sec⟩, _⟩ := requestTexts_numbers read
  have cookie :
      0 ∉ (match texts.cookie with
        | some cookie => Separator.cookie ++ cookie
        | none => []) := by
    cases given : texts.cookie with
    | none => exact List.not_mem_nil
    | some cookie =>
        have separator : 0 ∉ Separator.cookie := by decide
        simp [separator, (sendable.cookie cookie given).1]
  have host := sendable.host.1
  have uri := sendable.uri.1
  have ua := sendable.ua.1
  simp only [jsonstr, List.mem_append, not_or, front, cookie, srcIP,
    addresses, sec, host, uri, ua, not_false_eq_true, and_true]
  and_intros <;> decide

theorem admits_eq_false_iff (ua : Bytes) :
    jsonDecoder.admits ua = false ↔
      (strstr ua (ascii "Android")).isSome ∨
        (strstr ua (ascii "Mac")).isSome := by
  rw [jsonDecoder, Bool.not_eq_false', Bool.or_eq_true]

/-- What the client sends is read back by the server when no separator occurs
before its own place; only User-Agents of other devices are rejected. -/
theorem message_roundTrip {message : Bytes}
    (read : requestTexts memory buffer hdr http = some texts)
    (sent : popMqDirectSendMsg memory buffer hdr http = some message)
    (sendable : texts.Sendable) (undisturbed : texts.Undisturbed) :
    mqMessageAnalysisJson message =
      (if (strstr texts.ua (ascii "Android")).isSome ∨
          (strstr texts.ua (ascii "Mac")).isSome then .rejected
      else
        .taken
          { pcCookie := texts.cookie.getD (ascii "NULL")
            pcSrcIP := inetNtoaR hdr.ipv4Src
            pcUri := texts.uri
            host := texts.host
            pcSec := Decimal.decimal (UInt32.ofInt http.sec).toNat
            lSec := toInt32 (UInt32.ofInt http.sec).toNat
            pcUa := Decoder.cUaMD5s texts.ua
            pcNoEncUa := texts.ua }) := by
  obtain ⟨_, srcIPShort, secShort⟩ := requestTexts_numbers read
  have short : texts.Short :=
    { cookie := fun cookie given => (sendable.cookie cookie given).2
      srcIP := srcIPShort
      host := sendable.host.2
      uri := sendable.uri.2
      sec := secShort
      ua := sendable.ua.2 }
  rw [popMqDirectSendMsg, read, Option.bind_some,
    Option.map_eq_some_iff] at sent
  obtain ⟨jsonstr, stored, rfl⟩ := sent
  obtain ⟨_, rfl⟩ := store_eq_some_iff.mp stored
  rw [cString_eq_self (sendable.noNul read), analysis_jsonstr short undisturbed,
    requestTexts_message read]
  by_cases device :
      (strstr texts.ua (ascii "Android")).isSome ∨
        (strstr texts.ua (ascii "Mac")).isSome
  · rw [if_pos device, (admits_eq_false_iff _).mpr device]
    rfl
  · have admitted := mt (admits_eq_false_iff _).mp device
    rw [if_neg device, Bool.eq_true_of_not_eq_false admitted]
    rfl

end Packet

/-! ## Sample packets -/

/-- A packet with a given cookie and User-Agent. -/
def browserPacket (cookie ua : Bytes) : Bytes :=
  ascii "GET /s?wd=car HTTP/1.1\x0d\x0aHost: h.com\x0d\x0aCookie: " ++
    cookie ++ ascii "\x0d\x0aUser-Agent: " ++ ua ++
    ascii "\x0d\x0a\x0d\x0a"

/-- The parsed packet. -/
def parsedPacket (packet : Bytes) : HttpRequestKinfo :=
  (httpCapFilter (packetMemory packet) (packetHdr packet) 0
    (previousKinfo Range.unset)).getD (previousKinfo Range.unset)

/-- What is sent for a packet. -/
def sentMessage (packet : Bytes) : Option Bytes :=
  popMqDirectSendMsg (packetMemory packet) 0 (packetHdr packet)
    (parsedPacket packet)

def plainPacket : Bytes :=
  browserPacket (ascii "id=1") (ascii "Opera")

/-- The texts of the plain packet. -/
def plainTexts : RequestTexts where
  sequence := ascii "1"
  ack := ascii "2"
  ipLength := ascii "21536"
  tcpOptionLength := ascii "8"
  srcPort := ascii "40000"
  dstPort := ascii "80"
  cookie := some (ascii "id=1")
  srcIP := ascii "10.0.0.7"
  dstIP := ascii "10.0.0.1"
  dstMac := ascii "1:1:1:1:1:1"
  srcMac := ascii "2:2:2:2:2:2"
  host := ascii "h.com"
  uri := ascii "/s?wd=car"
  sec := ascii "1400000000"
  ua := ascii "Opera"

theorem plainTexts_sendable : plainTexts.Sendable where
  cookie := by
    rintro cookie ⟨⟩
    decide
  host := by decide
  uri := by decide
  ua := by decide

theorem plainTexts_undisturbed : plainTexts.Undisturbed where
  parts := by decide +kernel
  noCookie := by nofun

theorem message_roundTrip_plainPacket :
    ∃ message, sentMessage plainPacket = some message ∧
      mqMessageAnalysisJson message =
        (if (strstr plainTexts.ua (ascii "Android")).isSome ∨
            (strstr plainTexts.ua (ascii "Mac")).isSome then .rejected
        else
          .taken
            { pcCookie := plainTexts.cookie.getD (ascii "NULL")
              pcSrcIP := inetNtoaR (packetHdr plainPacket).ipv4Src
              pcUri := plainTexts.uri
              host := plainTexts.host
              pcSec :=
                Decimal.decimal
                  (UInt32.ofInt (parsedPacket plainPacket).sec).toNat
              lSec :=
                toInt32 (UInt32.ofInt (parsedPacket plainPacket).sec).toNat
              pcUa := Decoder.cUaMD5s plainTexts.ua
              pcNoEncUa := plainTexts.ua }) := by
  have read :
      requestTexts (packetMemory plainPacket) 0 (packetHdr plainPacket)
        (parsedPacket plainPacket) = some plainTexts := by
    decide +kernel
  have sends : (sentMessage plainPacket).isSome = true := by
    rw [sentMessage, popMqDirectSendMsg, read]
    decide +kernel
  obtain ⟨message, sent⟩ := Option.isSome_iff_exists.mp sends
  exact ⟨message, sent,
    message_roundTrip read sent plainTexts_sendable plainTexts_undisturbed⟩

/-- A cookie that contains separators. -/
def forgedPacket : Bytes :=
  browserPacket (ascii "a\",\"srcIP\":\"6.6.6.6\",\"dstIP\":\"")
    (ascii "Opera")

/-- The cookie forges the source address, and a User-Agent with the text
`Mac` is rejected. -/
theorem forgedPacket_misread :
    (sentMessage forgedPacket).map mqMessageAnalysisJson =
        some (.taken
          { pcCookie := ascii "a"
            pcSrcIP := ascii "6.6.6.6"
            pcUri := ascii "/s?wd=car"
            host := ascii "h.com"
            pcSec := ascii "1400000000"
            lSec := 1400000000
            pcUa := Decoder.cUaMD5s (ascii "Opera")
            pcNoEncUa := ascii "Opera" }) ∧
      inetNtoaR (packetHdr forgedPacket).ipv4Src = ascii "10.0.0.7" ∧
      (sentMessage (browserPacket (ascii "id=1") (ascii "Mac"))).map
          mqMessageAnalysisJson =
        some .rejected := by
  refine ⟨?_, ?_, ?_⟩ <;> decide +kernel

end WindowSystem.Client.MqClientPopwin
