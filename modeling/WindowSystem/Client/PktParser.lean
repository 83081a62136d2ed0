import WindowSystem.CRuntime

/-!
# The packet parser of the capture client

`http_parser_level_1` of `pkt_parser.c` finds the TCP payload of a captured
packet, and `http_parser_level_2` runs a state machine over it that records
where the URI and five headers lie.  Addresses are integers and a pointer is
`none` when it is `NULL`; the machine reads arbitrary memory.
-/

namespace WindowSystem.Client.PktParser

open WindowSystem.CRuntime

/-! ## Memory -/

/-- The bytes of the process, by address. -/
abbrev Memory := Int → UInt8

/-- The bytes from an address on. -/
def bytesAt (memory : Memory) : Int → Nat → Bytes
  | _, 0 => []
  | address, count + 1 =>
      memory address :: bytesAt memory (address + 1) count

theorem length_bytesAt (memory : Memory) (address : Int) (count : Nat) :
    (bytesAt memory address count).length = count := by
  induction count generalizing address with
  | zero => rfl
  | succ count induction => rw [bytesAt, List.length_cons, induction]

theorem bytesAt_add (memory : Memory) (address : Int) (first rest : Nat) :
    bytesAt memory address (first + rest) =
      bytesAt memory address first ++
        bytesAt memory (address + first) rest := by
  induction first generalizing address with
  | zero => simp [bytesAt]
  | succ first induction =>
      rw [Nat.add_right_comm, bytesAt, bytesAt, induction, List.cons_append,
        Nat.cast_succ, Int.add_assoc, Int.add_comm 1]

/-! ## Data -/

/-- A pair of pointers to the first and the last byte of a text. -/
structure Range where
  start : Option Int
  stop : Option Int
deriving DecidableEq

/-- Both pointers are `NULL`. -/
def Range.unset : Range where
  start := none
  stop := none

/-- Both pointers are `NULL`, or they enclose bytes from the address `first` up
to but not including `past`. -/
def Range.Inside (range : Range) (first past : Int) : Prop :=
  range = Range.unset ∨
    ∃ start stop, range = { start := some start, stop := some stop } ∧
      first ≤ start ∧ start ≤ stop ∧ stop < past

theorem Range.inside_unset (first past : Int) :
    Range.unset.Inside first past :=
  Or.inl rfl

@[simp]
theorem Range.inside_some_iff {start stop first past : Int} :
    Range.Inside { start := some start, stop := some stop } first past ↔
      first ≤ start ∧ start ≤ stop ∧ stop < past := by
  simp [Range.Inside, Range.unset]

@[simp]
theorem Range.not_inside_half {start first past : Int} :
    ¬ Range.Inside { start := some start, stop := none } first past := by
  simp [Range.Inside, Range.unset]

theorem Range.Inside.mono {range : Range} {first first' past past' : Int}
    (inside : range.Inside first past) (lower : first' ≤ first)
    (higher : past ≤ past') : range.Inside first' past' := by
  rcases inside with unset | ⟨start, stop, given, low, order, high⟩
  · exact Or.inl unset
  · exact Or.inr ⟨start, stop, given, by omega, order, by omega⟩

/-- The headers that are recorded, with the constants `HS_HOST` to
`HS_CONTENT_LENGTH`. -/
inductive Header where
  | host
  | userAgent
  | referer
  | cookie
  | contentLength
deriving DecidableEq

/--
`struct http_request_kinfo`.

`uri` stands for `uri_start` and `uri_end`, and `header` for the pairs of the
five headers.  A `header_state` other than the five constants is `none`.
-/
structure HttpRequestKinfo where
  uri : Range
  header : Header → Range
  postStart : Option Int
  postEnd : Option Int
  httpType : Int
  sip : UInt32
  dip : UInt32
  sec : Int
  usec : Int
  content : Option Int
  len : UInt32
  headerState : Option Header

/-- Record the range of one header. -/
def HttpRequestKinfo.setHeader (httprequest : HttpRequestKinfo)
    (header : Header) (range : Range) : HttpRequestKinfo :=
  { httprequest with
    header := Function.update httprequest.header header range }

/-- What the client reads of `struct pfring_pkthdr`.  The `tunnel_id` is
`none` when it is `NO_TUNNEL_ID`. -/
structure PfringPkthdr where
  caplen : UInt32
  tvSec : Int
  tvUsec : Int
  tunnelId : Option UInt32
  tunneledL4DstPort : UInt16
  tunneledIpSrc : UInt32
  tunneledIpDst : UInt32
  l4SrcPort : UInt16
  l4DstPort : UInt16
  ipv4Src : UInt32
  ipv4Dst : UInt32
  seqNum : UInt32
  ackNum : UInt32
  dmac : Fin 6 → UInt8
  smac : Fin 6 → UInt8
  l3Offset : Int
  l4Offset : Int
  payloadOffset : Int

/-! ## Level 1 -/

/-- `tcp->doff` of the TCP header at an address. -/
def doff (memory : Memory) (tcp : Int) : Int :=
  (memory (tcp + 12) >>> 4).toNat

/-- The length of the headers before the payload. -/
def headerLen (memory : Memory) (hdr : PfringPkthdr) (buffer : Int) : Int :=
  match hdr.tunnelId with
  | some _ =>
      toInt32 (hdr.payloadOffset + 20 +
        doff memory (buffer + hdr.payloadOffset + 20) * 4)
  | none => toInt32 hdr.payloadOffset

/-- The struct before the ports are looked at. -/
def resetKinfo (hdr : PfringPkthdr) (buffer : Int)
    (http : HttpRequestKinfo) : HttpRequestKinfo :=
  { http with
    uri := Range.unset
    header := fun
      | .contentLength => http.header .contentLength
      | _ => Range.unset
    content := none
    httpType := 0
    postStart := none
    postEnd := some (buffer + hdr.caplen.toNat)
    sec := hdr.tvSec
    usec := hdr.tvUsec }

/-- `http_parser_level_1`. -/
def httpParserLevel1 (memory : Memory) (hdr : PfringPkthdr) (buffer : Int)
    (http : HttpRequestKinfo) : Int × HttpRequestKinfo :=
  let http := resetKinfo hdr buffer http
  let headerLen := headerLen memory hdr buffer
  match hdr.tunnelId with
  | some _ =>
      if hdr.tunneledL4DstPort ≠ 80 then (-66, http)
      else
        (0,
          { http with
            sip := hdr.tunneledIpSrc
            dip := hdr.tunneledIpDst
            content := some (buffer + headerLen)
            len := UInt32.ofInt (hdr.caplen.toNat - headerLen) })
  | none =>
      if hdr.l4DstPort ≠ 80 then (-6, http)
      else
        (0,
          { http with
            sip := hdr.ipv4Src
            dip := hdr.ipv4Dst
            content := some (buffer + headerLen)
            len := UInt32.ofInt (hdr.caplen.toNat - headerLen) })

/-! ## Level 2 -/

/-- The states of the machine. -/
inductive State where
  | start
  | method
  | spacesBeforeUri
  | uri
  | http09
  | spacesAfterDigit
  | headStart
  | name
  | spaceBeforeValue
  | value
  | spaceAfterValue
  | ignoreLine
  | almostDone
deriving DecidableEq

/-- The local variables of the loop and the struct it fills. -/
structure Machine where
  state : State
  m : Int
  httprequest : HttpRequestKinfo

/-- How one turn of the loop ends: in the next turn, at `request_done`, or
with an error code. -/
inductive Control where
  | next (machine : Machine)
  | requestDone (httprequest : HttpRequestKinfo)
  | error (code : Int) (httprequest : HttpRequestKinfo)

/-- The header that a name stands for.  The last three names are compared by
their length and first five bytes. -/
def headerOf (name : Bytes) : Option Header :=
  match name.length with
  | 4 => if name = ascii "Host" then some .host else none
  | 6 => if name = ascii "Cookie" then some .cookie else none
  | 7 => if name.take 5 = ascii "Refer" then some .referer else none
  | 10 => if name.take 5 = ascii "User-" then some .userAgent else none
  | 14 => if name.take 5 = ascii "Conte" then some .contentLength else none
  | _ => none

/-- Whether a byte is outside `'A'` to `'Z'`. -/
def notCapital (ch : UInt8) : Bool :=
  ch < 65 || 90 < ch

/-- The state `sw_method` at a space. -/
def switchMethod (memory : Memory) (p : Int) (machine : Machine) : Control :=
  let m := machine.m
  if p - m = 3 ∧ bytesAt memory m 4 = ascii "GET " then
    .next { machine with state := .spacesBeforeUri }
  else if p - m = 4 ∧ bytesAt memory m 5 = ascii "POST " then
    .next
      { machine with
        state := .spacesBeforeUri
        httprequest := { machine.httprequest with httpType := 1 } }
  else .error 12 machine.httprequest

/-- The state `sw_name` at the end of a name; `captured` is
`buffer + hdr->caplen`. -/
def switchName (memory : Memory) (captured p : Int) (machine : Machine) :
    Control :=
  match headerOf (bytesAt memory machine.m (p - machine.m).toNat) with
  | none => .next { machine with state := .spaceAfterValue }
  | some .cookie =>
      .next
        { machine with
          state := .spaceBeforeValue
          httprequest :=
            { machine.httprequest.setHeader .cookie
                { start := some (p + 1), stop := some captured } with
              headerState := some .cookie } }
  | some header =>
      .next
        { machine with
          state := .spaceBeforeValue
          httprequest :=
            { machine.httprequest with headerState := some header } }

/-- `m = (t - m > 10) ? (t - 10) : m`. -/
def lastTen (t m : Int) : Int :=
  if t - m > 10 then t - 10 else m

/-- The body of the loop for a byte `ch` at the address `p`. -/
def switch (memory : Memory) (captured p : Int) (ch : UInt8)
    (machine : Machine) : Control :=
  let http := machine.httprequest
  match machine.state with
  | .start =>
      let machine := { machine with m := p }
      if ch = 13 ∨ ch = 10 then .next machine
      else if notCapital ch then .error 998 http
      else .next { machine with state := .method }
  | .method =>
      if ch = 32 then switchMethod memory p machine
      else if notCapital ch then .error 13 http
      else .next machine
  | .spacesBeforeUri =>
      if ch = 47 then
        .next
          { state := .uri
            m := p
            httprequest :=
              { http with uri := { http.uri with start := some p } } }
      else if ch = 32 then .next machine
      else .error 14 http
  | .uri =>
      if ch = 32 then
        .next
          { state := .http09
            m := lastTen (p - 1) machine.m
            httprequest :=
              { http with uri := { http.uri with stop := some (p - 1) } } }
      else if ch = 63 then
        .next { machine with m := lastTen (p - 1) machine.m }
      else if ch = 13 then .error 15 http
      else if ch = 10 then .error 16 http
      else if ch = 0 then .error 17 http
      else .next machine
  | .http09 =>
      if ch = 32 then .next machine
      else if ch = 13 then .error 18 http
      else if ch = 10 then .error 19 http
      else if ch = 72 then .next { machine with state := .spacesAfterDigit }
      else .next { machine with state := .uri }
  | .spacesAfterDigit =>
      if ch = 10 then .next { machine with state := .headStart }
      else .next machine
  | .headStart =>
      if ch = 32 then .next machine
      else if ch = 13 then .next { machine with state := .almostDone }
      else if ch = 10 then
        .requestDone { http with postStart := some (p + 1) }
      else if ch = 0 then .error 21 http
      else .next { machine with m := p, state := .name }
  | .name =>
      if ch = 32 ∨ ch = 58 then switchName memory captured p machine
      else .next machine
  | .spaceBeforeValue =>
      if ch = 58 then .next machine
      else if ch = 32 then .next machine
      else .next { machine with m := p, state := .value }
  | .value =>
      if ch = 13 then
        match http.headerState with
        | some header =>
            .next
              { machine with
                httprequest :=
                  http.setHeader header
                    { start := some machine.m, stop := some (p - 1) } }
        | none => .error 22 http
      else if ch = 10 then .next { machine with state := .headStart }
      else if ch = 0 then .error 23 http
      else .next machine
  | .spaceAfterValue =>
      if ch = 10 then .next { machine with state := .headStart }
      else if ch = 0 then .error 24 http
      else .next machine
  | .almostDone =>
      if ch = 10 then
        .requestDone { http with postStart := some (p + 1) }
      else if ch = 13 then .next machine
      else .error 25 http
  | .ignoreLine => .error 26 http

/-- The loop with `count` turns left before the length is reached. -/
def loop (memory : Memory) (captured : Int) :
    Nat → Int → Machine → Int × HttpRequestKinfo
  | 0, _, machine => (0, machine.httprequest)
  | count + 1, p, machine =>
      if memory p = 0 then (0, machine.httprequest)
      else
        match switch memory captured p (memory p) machine with
        | .next machine => loop memory captured count (p + 1) machine
        | .requestDone httprequest => (0, httprequest)
        | .error code httprequest => (code, httprequest)

/-- `http_parser_level_2`; `none` is the use of a `NULL` content. -/
def httpParserLevel2 (memory : Memory) (hdr : PfringPkthdr) (buffer : Int)
    (httprequest : HttpRequestKinfo) :
    Option (Int × HttpRequestKinfo) :=
  httprequest.content.map fun content =>
    loop memory (buffer + hdr.caplen.toNat)
      (toInt32 httprequest.len.toNat).toNat content
      { state := .start, m := 0, httprequest := httprequest }

/-- The two levels as `http_cap_filter_main` of `filter_rule_main.c` calls
them, with the previous content of the struct; `none` when a level fails. -/
def httpCapFilter (memory : Memory) (hdr : PfringPkthdr) (buffer : Int)
    (http : HttpRequestKinfo) : Option HttpRequestKinfo :=
  let first := httpParserLevel1 memory hdr buffer http
  if first.1 ≠ 0 then none
  else
    (httpParserLevel2 memory hdr buffer first.2).bind fun second =>
      if second.1 ≠ 0 then none else some second.2

/-! ## Packets at the address zero -/

/-- Memory that holds a packet at the address zero. -/
def packetMemory (packet : Bytes) : Memory :=
  fun address => packet.getD address.toNat 0

/-- The header of a packet for port 80 whose payload starts at once. -/
def packetHdr (packet : Bytes) : PfringPkthdr where
  caplen := packet.length.toUInt32
  tvSec := 1400000000
  tvUsec := 0
  tunnelId := none
  tunneledL4DstPort := 0
  tunneledIpSrc := 0
  tunneledIpDst := 0
  l4SrcPort := 40000
  l4DstPort := 80
  ipv4Src := 0x0A000007
  ipv4Dst := 0x0A000001
  seqNum := 1
  ackNum := 2
  dmac := fun _ => 1
  smac := fun _ => 2
  l3Offset := 0
  l4Offset := 0
  payloadOffset := 0

/-- A struct with a given pair for the content length. -/
def previousKinfo (contentLength : Range) : HttpRequestKinfo where
  uri := Range.unset
  header := fun
    | .contentLength => contentLength
    | _ => Range.unset
  postStart := none
  postEnd := none
  httpType := 0
  sip := 0
  dip := 0
  sec := 0
  usec := 0
  content := none
  len := 0
  headerState := none

end WindowSystem.Client.PktParser
