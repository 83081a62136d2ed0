import WindowSystem.Client.MqClientPopwin
import WindowSystem.Client.WellFormedRequest

/-!
# The four encoders of the capture client

`mq_client_popwin.c` and `mq_client_mobile.c` of the client write a parsed
request as the same text, for a plain packet and for one in a tunnel.  The
texts are appended without a test to an array on the stack, which has 5120
bytes in one of the four functions and 10240 in the others.
-/

namespace WindowSystem.Client.MqClientMobile

open WindowSystem.CRuntime
open WindowSystem.Client.MqClientPopwin
open WindowSystem.Client.PktParser
open WindowSystem.Client.WellFormedRequest
open WindowSystem.Library
open WindowSystem.MqMessageAnalysis

/-! ## Packets in a tunnel -/

/-- The header of a captured packet with the source port inside the
tunnel. -/
structure CapturedHdr extends PfringPkthdr where
  tunneledL4SrcPort : UInt16

/-- The number that `htons` makes of two bytes of the packet. -/
def networkShort (memory : Memory) (address : Int) : Nat :=
  (memory address).toNat * 256 + (memory (address + 1)).toNat

/-- The number that `ntohl` makes of four bytes of the packet. -/
def networkLong (memory : Memory) (address : Int) : Nat :=
  networkShort memory address * 65536 + networkShort memory (address + 2)

/-- The texts for a packet in a tunnel: the headers inside the tunnel stand in
the place of the parsed ones. -/
def tunneledTexts (memory : Memory) (buffer : Int) (hdr : CapturedHdr)
    (http : HttpRequestKinfo) : Option RequestTexts :=
  let ip := buffer + 2 + hdr.payloadOffset
  let tcp := buffer + hdr.payloadOffset + 20
  (requestTexts memory buffer hdr.toPfringPkthdr http).map fun texts =>
    { texts with
      sequence := mqPopWinIntAppend (networkLong memory (tcp + 4)).toUInt32
      ack := mqPopWinIntAppend (networkLong memory (tcp + 8)).toUInt32
      ipLength := mqPopWinIntAppend (networkShort memory ip).toUInt32
      tcpOptionLength :=
        mqPopWinIntAppend (UInt32.ofInt (doff memory tcp * 4 - 20))
      srcPort := mqPopWinIntAppend hdr.tunneledL4SrcPort.toUInt32
      dstPort := mqPopWinIntAppend hdr.tunneledL4DstPort.toUInt32
      srcIP := inetNtoaR hdr.tunneledIpSrc
      dstIP := inetNtoaR hdr.tunneledIpDst }

/-! ## The encoders -/

/-- `pop_mq_direct_send_msg_tunneled`. -/
def popMqDirectSendMsgTunneled (memory : Memory) (buffer : Int)
    (hdr : CapturedHdr) (http : HttpRequestKinfo) : Option Bytes :=
  (tunneledTexts memory buffer hdr http).bind fun texts =>
    (store 5120 texts.jsonstr).map cString

/-- `pop_mq_mobile_send_msg_tunneled`. -/
def popMqMobileSendMsgTunneled (memory : Memory) (buffer : Int)
    (hdr : CapturedHdr) (http : HttpRequestKinfo) : Option Bytes :=
  (tunneledTexts memory buffer hdr http).bind fun texts =>
    (store 10240 texts.jsonstr).map cString

/-- What is written before the length of the URI is tested. -/
def beforeUri (texts : RequestTexts) : Bytes :=
  texts.front ++
    (match texts.cookie with
    | some cookie => Separator.cookie ++ cookie
    | none => []) ++
    Separator.srcIP ++ texts.srcIP ++
    Separator.dstIP ++ texts.addresses ++
    Separator.siteUrl ++ texts.host

/-- `pop_mq_mobile_send_msg`; `some none` sends nothing. -/
def popMqMobileSendMsg (memory : Memory) (buffer : Int)
    (hdr : CapturedHdr) (http : HttpRequestKinfo) : Option (Option Bytes) :=
  (requestTexts memory buffer hdr.toPfringPkthdr http).bind fun texts =>
    if 2048 < texts.uri.length then
      if (beforeUri texts).length ≤ 10240 then some none else none
    else (store 10240 texts.jsonstr).map fun jsonstr => some (cString jsonstr)

/-- The encoders. -/
inductive Encoder where
  | direct
  | directTunneled
  | mobile
  | mobileTunneled
deriving DecidableEq

/-- The array `jsonstr`. -/
def Encoder.capacity : Encoder → Nat
  | .direct => 10240
  | .directTunneled => 5120
  | .mobile => 10240
  | .mobileTunneled => 10240

/-- The texts that an encoder writes. -/
def Encoder.texts (encoder : Encoder) (memory : Memory) (buffer : Int)
    (hdr : CapturedHdr) (http : HttpRequestKinfo) : Option RequestTexts :=
  match encoder with
  | .direct => requestTexts memory buffer hdr.toPfringPkthdr http
  | .directTunneled => tunneledTexts memory buffer hdr http
  | .mobile => requestTexts memory buffer hdr.toPfringPkthdr http
  | .mobileTunneled => tunneledTexts memory buffer hdr http

/-- A call of an encoder: what it sends, `none` when it leaves its array. -/
def Encoder.send (encoder : Encoder) (memory : Memory) (buffer : Int)
    (hdr : CapturedHdr) (http : HttpRequestKinfo) : Option (Option Bytes) :=
  match encoder with
  | .direct =>
      (popMqDirectSendMsg memory buffer hdr.toPfringPkthdr http).map some
  | .directTunneled =>
      (popMqDirectSendMsgTunneled memory buffer hdr http).map some
  | .mobile => popMqMobileSendMsg memory buffer hdr http
  | .mobileTunneled =>
      (popMqMobileSendMsgTunneled memory buffer hdr http).map some

/-! ## How long a text is -/

/-- The bytes of the numbers and addresses that are printed. -/
def printedLength (texts : RequestTexts) : Nat :=
  texts.sequence.length + texts.ack.length + texts.ipLength.length +
    texts.tcpOptionLength.length + texts.srcPort.length +
    texts.dstPort.length + texts.srcIP.length + texts.dstIP.length +
    texts.dstMac.length + texts.srcMac.length + texts.sec.length

/-- The bytes of the cookie with its name. -/
def cookieLength (texts : RequestTexts) : Nat :=
  match texts.cookie with
  | some cookie => 12 + cookie.length
  | none => 0

/-- The bytes that come from the request. -/
def requestLength (texts : RequestTexts) : Nat :=
  cookieLength texts + texts.host.length + texts.uri.length +
    texts.ua.length

/-- The names and marks of a message have 188 bytes. -/
theorem length_jsonstr (texts : RequestTexts) :
    texts.jsonstr.length =
      188 + printedLength texts + requestLength texts := by
  have sequence : (ascii "\x7b\"sequence\":\"").length = 13 := rfl
  have ack : (ascii "\",\"ackNumber\":\"").length = 15 := rfl
  have ipLength : (ascii "\",\"ipLength\":\"").length = 14 := rfl
  have option : (ascii "\",\"tcpOptionLength\":\"").length = 21 := rfl
  have srcPort : (ascii "\",\"srcPort\":\"").length = 13 := rfl
  have dstPort : (ascii "\",\"dstPort\":\"").length = 13 := rfl
  have dstMac : (ascii "\",\"dstMac\":\"").length = 12 := rfl
  have srcMac : (ascii "\",\"srcMac\":\"").length = 12 := rfl
  have cookie : Separator.cookie.length = 12 := rfl
  have srcIP : Separator.srcIP.length = 11 := rfl
  have dstIP : Separator.dstIP.length = 11 := rfl
  have siteUrl : Separator.siteUrl.length = 13 := rfl
  have siteUri : Separator.siteUri.length = 13 := rfl
  have sec : Separator.sec.length = 9 := rfl
  have ua : Separator.ua.length = 16 := rfl
  have finish : Separator.finish.length = 2 := rfl
  rw [requestLength, cookieLength, printedLength, RequestTexts.jsonstr,
    RequestTexts.front, RequestTexts.addresses]
  cases texts.cookie with
  | none =>
      simp only [List.length_append, List.length_nil, sequence, ack,
        ipLength, option, srcPort, dstPort, dstMac, srcMac, srcIP, dstIP,
        siteUrl, siteUri, sec, ua, finish]
      omega
  | some text =>
      simp only [List.length_append, sequence, ack, ipLength, option,
        srcPort, dstPort, dstMac, srcMac, cookie, srcIP, dstIP, siteUrl,
        siteUri, sec, ua, finish]
      omega

/-! ## What fits -/

section Fits

variable {memory : Memory} {buffer : Int} {hdr : CapturedHdr}
  {http : HttpRequestKinfo} {encoder : Encoder} {texts : RequestTexts}

/-- The texts of an encoder whose URI is short enough fit into its array with
their terminator. -/
theorem send_isSome_iff
    (read : encoder.texts memory buffer hdr http = some texts)
    (short : encoder = .mobile → texts.uri.length ≤ 2048) :
    (encoder.send memory buffer hdr http).isSome = true ↔
      188 + printedLength texts + requestLength texts <
        encoder.capacity := by
  have stored (capacity : Nat) :
      (store capacity texts.jsonstr).isSome = true ↔
        188 + printedLength texts + requestLength texts < capacity := by
    rw [← length_jsonstr, store]
    by_cases fits : texts.jsonstr.length < capacity
    · simp [fits]
    · simp only [if_neg fits, Option.isSome_none, Bool.false_eq_true,
        false_iff]
      exact fits
  cases encoder with
  | direct =>
      change requestTexts memory buffer hdr.toPfringPkthdr http = _ at read
      simpa [Encoder.send, Encoder.capacity, popMqDirectSendMsg, read]
        using stored 10240
  | directTunneled =>
      change tunneledTexts memory buffer hdr http = _ at read
      simpa [Encoder.send, Encoder.capacity, popMqDirectSendMsgTunneled,
        read] using stored 5120
  | mobile =>
      change requestTexts memory buffer hdr.toPfringPkthdr http = _ at read
      have passed : ¬ 2048 < texts.uri.length := Nat.not_lt.mpr (short rfl)
      simpa [Encoder.send, Encoder.capacity, popMqMobileSendMsg, read,
        passed] using stored 10240
  | mobileTunneled =>
      change tunneledTexts memory buffer hdr http = _ at read
      simpa [Encoder.send, Encoder.capacity, popMqMobileSendMsgTunneled,
        read] using stored 10240

/-- A request whose host, URI and User-Agent are recorded can be written. -/
theorem texts_of_recorded {host uri ua : Bytes} (encoder : Encoder)
    (hostRead : rangeText memory (http.header .host) = some host)
    (uriRead : rangeText memory http.uri = some uri)
    (uaRead : rangeText memory (http.header .userAgent) = some ua) :
    ∃ texts,
      encoder.texts memory buffer hdr http = some texts ∧
        texts.host = host ∧ texts.uri = uri ∧ texts.ua = ua ∧
        texts.cookie = rangeText memory (http.header .cookie) := by
  have append {range : Range} {text : Bytes}
      (read : rangeText memory range = some text) :
      mqPopWinStrAppend memory range = some text := by
    simp only [rangeText, Option.bind_eq_some_iff,
      Option.map_eq_some_iff] at read
    obtain ⟨start, started, stop, stopped, rfl⟩ := read
    rw [mqPopWinStrAppend, started, stopped]
  have cookie :
      cookieText memory http =
        some (rangeText memory (http.header .cookie)) := by
    rw [cookieText, rangeText, mqPopWinStrAppend]
    cases (http.header .cookie).start with
    | none => rfl
    | some start => cases (http.header .cookie).stop <;> rfl
  have plain :
      ∃ texts,
        requestTexts memory buffer hdr.toPfringPkthdr http = some texts ∧
          texts.host = host ∧ texts.uri = uri ∧ texts.ua = ua ∧
          texts.cookie = rangeText memory (http.header .cookie) := by
    simp only [requestTexts, cookie, append hostRead, append uriRead,
      append uaRead, Option.bind_some, Option.map_some]
    exact ⟨_, rfl, rfl, rfl, rfl, rfl⟩
  obtain ⟨texts, read, fields⟩ := plain
  cases encoder with
  | direct => exact ⟨texts, read, fields⟩
  | mobile => exact ⟨texts, read, fields⟩
  | directTunneled =>
      exact ⟨_, congrArg (Option.map _) read, fields⟩
  | mobileTunneled =>
      exact ⟨_, congrArg (Option.map _) read, fields⟩

end Fits

end WindowSystem.Client.MqClientMobile
