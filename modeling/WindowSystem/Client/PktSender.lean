import WindowSystem.CRuntime
import WindowSystem.Library.OnesComplement

/-!
# The forged answer of the client

`pkt_sender.c` answers a request in the name of its server.  The packet is
built in a cleared buffer: an Ethernet header, an IP header and a TCP header of
20 bytes each, and the content.  The module follows the two checksums from the
numbers that are stored to the words that a receiver adds up.
-/

namespace WindowSystem.Client.PktSender

open WindowSystem.CRuntime
open WindowSystem.Library.OnesComplement

/-! ## Numbers in memory -/

/-- The bytes of an unsigned short in the memory of a little-endian
machine. -/
def storeShort (number : UInt16) : Bytes :=
  [number.toUInt8, (number >>> 8).toUInt8]

/-- The bytes of an unsigned int in the memory of a little-endian machine. -/
def storeLong (number : UInt32) : Bytes :=
  [number.toUInt8, (number >>> 8).toUInt8, (number >>> 16).toUInt8,
    (number >>> 24).toUInt8]

/-- The unsigned short that stands in two bytes of memory. -/
def loadShort (first second : UInt8) : UInt16 :=
  first.toUInt16 + second.toUInt16 * 256

/-- `htons`, which is also `ntohs`. -/
def htons (number : UInt16) : UInt16 :=
  number / 256 + number % 256 * 256

/-- `htonl`. -/
def htonl (number : UInt32) : UInt32 :=
  number / 16777216 + number / 65536 % 256 * 256 +
    number / 256 % 256 * 65536 + number % 256 * 16777216

/-! ## The headers -/

/-- `struct ip_header_sender`; `ihl` and `version` have four bits each. -/
structure IpHeaderSender where
  ihl : UInt8
  version : UInt8
  tos : UInt8
  totLen : UInt16
  id : UInt16
  fragOff : UInt16
  ttl : UInt8
  protocol : UInt8
  check : UInt16
  saddr : UInt32
  daddr : UInt32

/-- The 20 bytes of the header. -/
def IpHeaderSender.bytes (header : IpHeaderSender) : Bytes :=
  ((header.ihl + header.version * 16) :: header.tos ::
      (storeShort header.totLen ++ storeShort header.id ++
        storeShort header.fragOff ++ [header.ttl, header.protocol])) ++
    (storeShort header.check ++
      (storeLong header.saddr ++ storeLong header.daddr))

/-- `struct tcp_header_sender`. -/
structure TcpHeaderSender where
  thSport : UInt16
  thDport : UInt16
  thSeq : UInt32
  thAck : UInt32
  thOffx2 : UInt8
  thFlags : UInt8
  thWin : UInt16
  thSum : UInt16
  thUrp : UInt16

/-- The 20 bytes of the header. -/
def TcpHeaderSender.bytes (header : TcpHeaderSender) : Bytes :=
  (storeShort header.thSport ++ storeShort header.thDport ++
      storeLong header.thSeq ++ storeLong header.thAck ++
      [header.thOffx2, header.thFlags] ++ storeShort header.thWin) ++
    (storeShort header.thSum ++ storeShort header.thUrp)

/-- `struct pseudo_head`. -/
structure PseudoHead where
  saddr : UInt32
  daddr : UInt32
  zero : UInt8
  proto : UInt8
  len : UInt16

/-- The 12 bytes of the pseudo header. -/
def PseudoHead.bytes (ph : PseudoHead) : Bytes :=
  storeLong ph.saddr ++ storeLong ph.daddr ++ [ph.zero, ph.proto] ++
    storeShort ph.len

/-! ## The checksums -/

/-- Add the carry in `in_cksum2`. -/
def addCarry (sum : UInt32) : UInt32 :=
  if sum > 0xFFFF then sum - 0xFFFF else sum

/-- `in_cksum2` over the bytes that it is given. -/
def inCksum2 : Bytes → UInt32 → UInt32
  | [], sum => sum
  | [byte], sum => addCarry (sum + byte.toUInt32 <<< 8)
  | first :: second :: buf, sum =>
      inCksum2 buf
        (addCarry (sum + (htons (loadShort first second)).toUInt32))

/-- `wrapsum`. -/
def wrapsum (sum : UInt32) : UInt32 :=
  let sum := ~~~sum &&& 0xFFFF
  (htons sum.toUInt16).toUInt32

/-- The loop of `in_cksum` with the byte that may be left over.  The sum is an
`int`, which the words of a packet do not exceed. -/
def inCksumLoop : Bytes → Nat → Nat
  | [], sum => sum
  | [byte], sum => sum + byte.toNat
  | first :: second :: p, sum =>
      inCksumLoop p (sum + (loadShort first second).toNat)

/-- The end of `in_cksum`: the carries are added and the sum is inverted. -/
def foldSum (sum : Nat) : UInt16 :=
  let sum := (sum >>> 16) + (sum &&& 0xFFFF)
  let sum := sum + (sum >>> 16)
  ~~~sum.toUInt16

/-- `in_cksum`. -/
def inCksum (p : Bytes) (len sum : Nat) : UInt16 :=
  foldSum (inCksumLoop (p.take len) sum)

/-- `cal_sum`, for an even number of bytes. -/
def calSum : Bytes → Nat
  | first :: second :: p => (loadShort first second).toNat + calSum p
  | _ => 0

/-- The pseudo header that `cal_tcp_cksum` builds. -/
def pseudoHead (ipHeader : IpHeaderSender) (tcpLen : Nat) : PseudoHead where
  len := htons tcpLen.toUInt16
  saddr := ipHeader.saddr
  daddr := ipHeader.daddr
  proto := ipHeader.protocol
  zero := 0

/-- `cal_tcp_cksum`; `tcpHeader` is the memory from the header on. -/
def calTcpCksum (tcpHeader : Bytes) (ipHeader : IpHeaderSender)
    (ipTotalLen : Nat) : UInt16 :=
  let tcpLen := ipTotalLen - 20
  let sum := calSum (pseudoHead ipHeader tcpLen).bytes
  inCksum tcpHeader tcpLen sum

/-! ## The packet -/

/-- What `forge_tcp_packet` is called with, apart from the buffer and the
content. -/
structure Endpoints where
  dmac : Fin 6 → UInt8
  smac : Fin 6 → UInt8
  srcIp : UInt32
  dstIp : UInt32
  srcPort : UInt16
  dstPort : UInt16
  seq : UInt32
  ack : UInt32

/-- The Ethernet header. -/
def ethHeader (ends : Endpoints) : Bytes :=
  List.ofFn ends.dmac ++ (List.ofFn ends.smac ++ [0x08, 0x00])

/-- The IP header before its checksum is stored. -/
def ipHeaderUnchecked (ends : Endpoints) (totalLen : Nat) :
    IpHeaderSender where
  ihl := 5
  version := 4
  tos := 0
  totLen := htons totalLen.toUInt16
  id := htons 2012
  ttl := 249
  fragOff := htons 0x4000
  protocol := 6
  check := 0
  saddr := htonl ends.srcIp
  daddr := htonl ends.dstIp

/-- The IP header. -/
def ipHeader (ends : Endpoints) (totalLen : Nat) : IpHeaderSender :=
  let header := ipHeaderUnchecked ends totalLen
  { header with check := (wrapsum (inCksum2 header.bytes 0)).toUInt16 }

/-- The TCP header before its checksum is stored. -/
def tcpHeaderUnchecked (ends : Endpoints) : TcpHeaderSender where
  thSport := htons ends.srcPort
  thDport := htons ends.dstPort
  thSeq := htonl ends.seq
  thAck := htonl ends.ack
  thWin := htons 0x3fe4
  thOffx2 := 0x50
  thFlags := 0x19
  thSum := 0
  thUrp := 0

/-- `forge_tcp_packet`: the buffer and the length of the packet; `none` is a
write behind the buffer. -/
def forgeTcpPacket (pktLen : Nat) (ends : Endpoints) (content : Bytes) :
    Option (Bytes × Nat) :=
  let totalLen := content.length + 20 + 20
  let behind := List.replicate (pktLen - (totalLen + 14)) 0
  let header := tcpHeaderUnchecked ends
  let thSum :=
    calTcpCksum (header.bytes ++ (content ++ behind))
      (ipHeader ends totalLen) totalLen
  if totalLen + 14 ≤ pktLen then
    some
      (ethHeader ends ++ ((ipHeader ends totalLen).bytes ++
        ({ header with thSum := thSum }.bytes ++ (content ++ behind))),
        totalLen + 14)
  else none

/-! ## What a receiver adds up -/

/-- The IP header in a packet. -/
def ipHeaderOf (packet : Bytes) : Bytes :=
  (packet.drop 14).take 20

/-- The total length in the IP header. -/
def totalLengthOf (packet : Bytes) : Nat :=
  (bigWords ((packet.drop 16).take 2)).sum

/-- The length of the TCP segment. -/
def tcpLengthOf (packet : Bytes) : Nat :=
  totalLengthOf packet - 20

/-- The pseudo header: both addresses, a zero byte, the protocol and the
length of the segment. -/
def pseudoHeaderOf (packet : Bytes) : Bytes :=
  (packet.drop 26).take 8 ++ [0] ++ (packet.drop 23).take 1 ++
    [(tcpLengthOf packet / 256).toUInt8, (tcpLengthOf packet).toUInt8]

/-- The TCP header and the content. -/
def segmentOf (packet : Bytes) : Bytes :=
  (packet.drop 34).take (tcpLengthOf packet)

/-- The one's-complement sum of the words in network order is `0xFFFF`. -/
def Verifies (covered : Bytes) : Prop :=
  onesSum 0xFFFF (bigWords covered) = 0xFFFF

/-- Both checksums of a packet verify. -/
structure ChecksumsVerify (packet : Bytes) : Prop where
  ip : Verifies (ipHeaderOf packet)
  tcp : Verifies (pseudoHeaderOf packet ++ segmentOf packet)

/-! ## The words of stored numbers -/

theorem toNat_loadShort (first second : UInt8) :
    (loadShort first second).toNat = first.toNat + 256 * second.toNat := by
  have smallFirst := first.toNat_lt
  have smallSecond := second.toNat_lt
  simp only [loadShort, UInt16.toNat_add, UInt16.toNat_mul,
    UInt8.toNat_toUInt16, UInt16.reduceToNat]
  omega

theorem toNat_htons (number : UInt16) :
    (htons number).toNat = number.toNat / 256 + number.toNat % 256 * 256 := by
  have small := number.toNat_lt
  simp only [htons, UInt16.toNat_add, UInt16.toNat_mul, UInt16.toNat_div,
    UInt16.toNat_mod, UInt16.reduceToNat]
  omega

theorem toNat_htons_mod (number : UInt16) :
    (htons number).toNat % 256 = number.toNat / 256 := by
  have small := number.toNat_lt
  rw [toNat_htons, Nat.add_mul_mod_self_right]
  omega

theorem toNat_htons_div (number : UInt16) :
    (htons number).toNat / 256 = number.toNat % 256 := by
  have small := number.toNat_lt
  have high : number.toNat / 256 / 256 = 0 := by omega
  rw [toNat_htons, Nat.add_mul_div_right _ _ (by decide), high, Nat.zero_add]

/-- A loaded number after `ntohs` is the word in network order. -/
theorem toNat_htons_loadShort (first second : UInt8) :
    (htons (loadShort first second)).toNat =
      256 * first.toNat + second.toNat := by
  have smallFirst := first.toNat_lt
  rw [toNat_htons, toNat_loadShort]
  omega

theorem littleWords_storeShort (number : UInt16) :
    (littleWords (storeShort number)).sum = number.toNat := by
  have small := number.toNat_lt
  simp only [storeShort, littleWords, List.sum_singleton,
    UInt16.toNat_toUInt8, UInt16.toNat_shiftRight, UInt16.reduceToNat,
    Nat.shiftRight_eq_div_pow, Nat.reduceMod, Nat.reducePow]
  omega

/-- A number stored after `htons` stands in network order. -/
theorem bigWords_storeShort (number : UInt16) :
    (bigWords (storeShort (htons number))).sum = number.toNat := by
  have low := toNat_htons_mod number
  have high := toNat_htons_div number
  simp only [storeShort, bigWords, List.sum_singleton,
    UInt16.toNat_toUInt8, UInt16.toNat_shiftRight, UInt16.reduceToNat,
    Nat.shiftRight_eq_div_pow, Nat.reduceMod, Nat.reducePow]
  omega

/-! ## What the helpers compute -/

theorem toNat_addCarry (sum : UInt32) (word : Nat) {next : UInt32}
    (small : sum.toNat ≤ 0xFFFF) (smallWord : word ≤ 0xFFFF)
    (added : next.toNat = word) :
    (addCarry (sum + next)).toNat = add 0xFFFF sum.toNat word := by
  have total : (sum + next).toNat = sum.toNat + word := by
    rw [UInt32.toNat_add, added]
    omega
  rw [addCarry, add]
  by_cases carry : sum.toNat + word > 0xFFFF
  · have tooLarge : sum + next > 0xFFFF := by
      rw [gt_iff_lt, UInt32.lt_iff_toNat_lt, total]
      exact carry
    rw [if_pos carry, if_pos tooLarge, UInt32.toNat_sub_of_le, total]
    · rfl
    · rw [UInt32.le_iff_toNat_le, total]
      exact Nat.le_of_lt carry
  · have notLarge : ¬ sum + next > 0xFFFF := by
      rw [gt_iff_lt, UInt32.lt_iff_toNat_lt, total]
      exact carry
    rw [if_neg carry, if_neg notLarge, total]

/-- `in_cksum2` is the one's-complement sum in network order. -/
theorem toNat_inCksum2 (buf : Bytes) {sum : UInt32}
    (small : sum.toNat ≤ 0xFFFF) :
    (inCksum2 buf sum).toNat =
      (bigWords buf).foldl (add 0xFFFF) sum.toNat := by
  induction buf using bigWords.induct generalizing sum with
  | case1 => rfl
  | case2 byte =>
      have smallByte := byte.toNat_lt
      rw [inCksum2, bigWords, List.foldl_cons, List.foldl_nil]
      refine toNat_addCarry sum _ small (by omega) ?_
      simp only [UInt32.toNat_shiftLeft, UInt8.toNat_toUInt32,
        UInt32.reduceToNat, Nat.shiftLeft_eq, Nat.reduceMod, Nat.reducePow]
      omega
  | case3 first second buf induction =>
      have smallFirst := first.toNat_lt
      have smallSecond := second.toNat_lt
      have added : (htons (loadShort first second)).toUInt32.toNat =
          256 * first.toNat + second.toNat := by
        rw [UInt16.toNat_toUInt32, toNat_htons_loadShort]
      have next := toNat_addCarry sum _ small (by omega) added
      rw [inCksum2, bigWords, List.foldl_cons, ← next]
      apply induction
      rw [next]
      exact add_le small (by omega)

/-- `wrapsum` stores the complement in network order. -/
theorem bigWords_wrapsum {sum : UInt32} (small : sum.toNat ≤ 0xFFFF) :
    (bigWords (storeShort (wrapsum sum).toUInt16)).sum =
      0xFFFF - sum.toNat := by
  have inverted : (~~~sum &&& 0xFFFF).toUInt16.toNat =
      0xFFFF - sum.toNat := by
    have mask : (0xFFFF : UInt32).toNat = 2 ^ 16 - 1 := rfl
    rw [UInt32.toNat_toUInt16, UInt32.toNat_and, UInt32.toNat_not, mask,
      Nat.and_two_pow_sub_one_eq_mod]
    have size : UInt32.size = 4294967296 := rfl
    omega
  rw [wrapsum, UInt16.toUInt16_toUInt32, bigWords_storeShort, inverted]

theorem inCksumLoop_eq (p : Bytes) (sum : Nat) :
    inCksumLoop p sum = sum + (littleWords p).sum := by
  induction p using littleWords.induct generalizing sum with
  | case1 => rfl
  | case2 byte => rw [inCksumLoop, littleWords, List.sum_singleton]
  | case3 first second p induction =>
      rw [inCksumLoop, littleWords, induction, List.sum_cons,
        toNat_loadShort, Nat.add_assoc]

theorem calSum_eq {p : Bytes} (even : Even p.length) :
    calSum p = (littleWords p).sum := by
  induction p using littleWords.induct with
  | case1 => rfl
  | case2 byte => exact absurd even Nat.not_even_one
  | case3 first second p induction =>
      rw [List.length_cons, List.length_cons, Nat.even_add_one,
        Nat.even_add_one, not_not] at even
      rw [calSum, littleWords, List.sum_cons, induction even,
        toNat_loadShort]

/-- The inverted sum completes the sum to a multiple of `0xFFFF`. -/
theorem dvd_add_foldSum {sum : Nat} (small : sum < 2 ^ 31) :
    0xFFFF ∣ sum + (foldSum sum).toNat := by
  have mask : sum &&& 0xFFFF = sum % 65536 :=
    Nat.and_two_pow_sub_one_eq_mod sum 16
  have split := Nat.div_add_mod sum 65536
  have low := Nat.mod_lt sum (by decide : 0 < 65536)
  rw [foldSum, UInt16.toNat_not, mask, Nat.shiftRight_eq_div_pow,
    Nat.shiftRight_eq_div_pow, Nat.toUInt16, UInt16.toNat_ofNat']
  simp only [Nat.reducePow, UInt16.size]
  generalize sum / 65536 = q at *
  generalize sum % 65536 = r at *
  refine ⟨q + 1 + (q + r) / 65536, ?_⟩
  omega

/-! ## The stored checksums -/

/-- Storing the checksum of an IP header adds its word. -/
theorem sum_bigWords_check (header : IpHeaderSender) (check : UInt16) :
    (bigWords { header with check := check }.bytes).sum =
      (bigWords { header with check := 0 }.bytes).sum +
        (bigWords (storeShort check)).sum := by
  have blank : (bigWords (storeShort 0)).sum = 0 := rfl
  exact sum_bigWords_fill ⟨5, rfl⟩ ⟨1, rfl⟩ ⟨1, rfl⟩ blank

/-- Storing the checksum of a TCP header adds its word. -/
theorem sum_littleWords_thSum (header : TcpHeaderSender) (thSum : UInt16)
    (content : Bytes) :
    (littleWords ({ header with thSum := thSum }.bytes ++ content)).sum =
      (littleWords ({ header with thSum := 0 }.bytes ++ content)).sum +
        thSum.toNat := by
  have blank : (littleWords (storeShort 0)).sum = 0 := rfl
  have stored :
      (littleWords { header with thSum := thSum }.bytes).sum =
        (littleWords { header with thSum := 0 }.bytes).sum +
          (littleWords (storeShort thSum)).sum :=
    sum_littleWords_fill ⟨8, rfl⟩ ⟨1, rfl⟩ ⟨1, rfl⟩ blank
  rw [sum_littleWords_append ⟨10, rfl⟩, sum_littleWords_append ⟨10, rfl⟩,
    stored, littleWords_storeShort]
  omega

theorem ipHeader_verifies (ends : Endpoints) (totalLen : Nat) :
    Verifies (ipHeader ends totalLen).bytes := by
  have computed :
      (inCksum2 (ipHeaderUnchecked ends totalLen).bytes 0).toNat =
        onesSum 0xFFFF (bigWords (ipHeaderUnchecked ends totalLen).bytes) :=
    toNat_inCksum2 _ (by decide)
  have small := onesSum_le
    (bigWords_le (ipHeaderUnchecked ends totalLen).bytes)
  have words := sum_bigWords_check (ipHeaderUnchecked ends totalLen)
    (wrapsum (inCksum2 (ipHeaderUnchecked ends totalLen).bytes 0)).toUInt16
  rw [← computed] at small
  rw [bigWords_wrapsum small, computed] at words
  rw [Verifies, onesSum_eq_limit_iff (by decide) (bigWords_le _)]
  constructor
  · have version : 0 < (5 + 4 * 16 : UInt8).toNat := by decide
    exact sum_bigWords_pos (List.mem_append_left _ List.mem_cons_self) version
  · have complement := dvd_sum_add_complement
      (bigWords_le (ipHeaderUnchecked ends totalLen).bytes)
    rw [ipHeader, words]
    exact complement

/-- `cal_tcp_cksum` completes the words of the pseudo header and of the
segment. -/
theorem dvd_add_calTcpCksum (ipHeader : IpHeaderSender)
    (segment behind : Bytes) (small : segment.length ≤ 2014) :
    0xFFFF ∣
      (littleWords (pseudoHead ipHeader segment.length).bytes).sum +
        (littleWords segment).sum +
        (calTcpCksum (segment ++ behind) ipHeader
          (segment.length + 20)).toNat := by
  have pseudo := sum_littleWords_le (pseudoHead ipHeader segment.length).bytes
  have words := sum_littleWords_le segment
  have twelve : (pseudoHead ipHeader segment.length).bytes.length = 12 := rfl
  rw [twelve] at pseudo
  rw [calTcpCksum, Nat.add_sub_cancel, inCksum, List.take_left,
    calSum_eq ⟨6, rfl⟩, inCksumLoop_eq]
  exact dvd_add_foldSum (by omega)

theorem length_segment (header : TcpHeaderSender) (content : Bytes) :
    (header.bytes ++ content).length = content.length + 20 := by
  have twenty : header.bytes.length = 20 := rfl
  rw [List.length_append, twenty, Nat.add_comm]

/-- The stored checksum makes the pseudo header and the segment verify. -/
theorem segment_verifies (ipHeader : IpHeaderSender)
    (header : TcpHeaderSender) (content behind : Bytes) {thSum : UInt16}
    (protocol : 0 < ipHeader.protocol.toNat)
    (fits : content.length ≤ 1994)
    (stored :
      thSum = calTcpCksum
        ({ header with thSum := 0 }.bytes ++ (content ++ behind)) ipHeader
        (content.length + 20 + 20)) :
    Verifies
      ((pseudoHead ipHeader (content.length + 20)).bytes ++
        ({ header with thSum := thSum }.bytes ++ content)) := by
  have length := length_segment { header with thSum := 0 } content
  have completed := dvd_add_calTcpCksum ipHeader
    ({ header with thSum := 0 }.bytes ++ content) behind (by omega)
  rw [length, List.append_assoc _ content behind, ← stored] at completed
  have words := sum_littleWords_thSum header thSum content
  rw [Verifies, onesSum_eq_limit_iff (by decide) (bigWords_le _)]
  constructor
  · have byte : ipHeader.protocol ∈
        (pseudoHead ipHeader (content.length + 20)).bytes := by
      simp [PseudoHead.bytes, pseudoHead]
    exact sum_bigWords_pos (List.mem_append_left _ byte) protocol
  · have swapped := sum_bigWords_modEq
      ((pseudoHead ipHeader (content.length + 20)).bytes ++
        ({ header with thSum := thSum }.bytes ++ content))
    rw [sum_littleWords_append ⟨6, rfl⟩, words, ← Nat.add_assoc] at swapped
    exact Nat.modEq_zero_iff_dvd.mp
      (swapped.trans (Nat.modEq_zero_iff_dvd.mpr (completed.mul_left 256)))

/-! ## The packet that is sent -/

/-- A length stored after `htons` stands in network order. -/
theorem storeShort_htons {length : Nat} (small : length < 65536) :
    storeShort (htons length.toUInt16) =
      [(length / 256).toUInt8, length.toUInt8] := by
  have stored : length.toUInt16.toNat = length := Nat.mod_eq_of_lt small
  have first : (htons length.toUInt16).toUInt8 = (length / 256).toUInt8 := by
    rw [← UInt8.toNat_inj, UInt16.toNat_toUInt8, toNat_htons_mod, stored]
    exact (Nat.mod_eq_of_lt (by omega)).symm
  have second : (htons length.toUInt16 >>> 8).toUInt8 = length.toUInt8 := by
    have high := toNat_htons_div length.toUInt16
    rw [stored] at high
    have shift : (8 : UInt16).toNat % 16 = 8 := rfl
    rw [← UInt8.toNat_inj, UInt16.toNat_toUInt8, UInt16.toNat_shiftRight,
      shift, Nat.shiftRight_eq_div_pow, high, Nat.mod_mod]
    rfl
  rw [storeShort, first, second]

theorem length_ethHeader (ends : Endpoints) :
    (ethHeader ends).length = 14 := by
  simp [ethHeader]

theorem drop_ethHeader (ends : Endpoints) (behind : Bytes) (count : Nat) :
    (ethHeader ends ++ behind).drop (14 + count) = behind.drop count := by
  rw [← List.drop_drop, ← length_ethHeader ends, List.drop_left]

/-- The returned length leaves out the rest of the buffer. -/
theorem take_packet (ends : Endpoints) (ipHeader : IpHeaderSender)
    (header : TcpHeaderSender) (content behind : Bytes) :
    (ethHeader ends ++ (ipHeader.bytes ++
      (header.bytes ++ (content ++ behind)))).take
        (content.length + 20 + 20 + 14) =
      ethHeader ends ++ (ipHeader.bytes ++ (header.bytes ++ content)) := by
  have length :
      (ethHeader ends ++
        (ipHeader.bytes ++ (header.bytes ++ content))).length =
        content.length + 20 + 20 + 14 := by
    have twenty : ipHeader.bytes.length = 20 := rfl
    rw [List.length_append, List.length_append, length_segment,
      length_ethHeader, twenty]
    omega
  have whole :
      ethHeader ends ++
          (ipHeader.bytes ++ (header.bytes ++ (content ++ behind))) =
        ethHeader ends ++ (ipHeader.bytes ++ (header.bytes ++ content)) ++
          behind := by
    simp only [List.append_assoc]
  rw [whole, ← length, List.take_left]

section Reads

variable (ends : Endpoints) (header : IpHeaderSender) (segment : Bytes)

theorem ipHeaderOf_packet :
    ipHeaderOf (ethHeader ends ++ (header.bytes ++ segment)) =
      header.bytes := by
  rw [ipHeaderOf, drop_ethHeader ends _ 0, List.drop_zero]
  exact List.take_left' rfl

theorem totalLengthOf_packet {totalLen : Nat} (small : totalLen < 65536)
    (stored : header.totLen = htons totalLen.toUInt16) :
    totalLengthOf (ethHeader ends ++ (header.bytes ++ segment)) =
      totalLen := by
  have word : (bigWords (storeShort (htons totalLen.toUInt16))).sum =
      totalLen := by
    rw [bigWords_storeShort]
    exact Nat.mod_eq_of_lt small
  rw [totalLengthOf, drop_ethHeader ends _ 2]
  rw [← stored] at word
  exact word

theorem pseudoHeaderOf_packet {totalLen : Nat} (small : totalLen < 65536)
    (stored : header.totLen = htons totalLen.toUInt16) :
    pseudoHeaderOf (ethHeader ends ++ (header.bytes ++ segment)) =
      (pseudoHead header (totalLen - 20)).bytes := by
  have smaller : totalLen - 20 < 65536 := by omega
  rw [pseudoHeaderOf, tcpLengthOf,
    totalLengthOf_packet ends header segment small stored,
    drop_ethHeader ends _ 12, drop_ethHeader ends _ 9, PseudoHead.bytes,
    pseudoHead, storeShort_htons smaller]
  rfl

theorem segmentOf_packet (small : segment.length < 65516)
    (stored : header.totLen = htons (segment.length + 20).toUInt16) :
    segmentOf (ethHeader ends ++ (header.bytes ++ segment)) = segment := by
  have rest : (header.bytes ++ segment).drop 20 = segment :=
    List.drop_left' rfl
  rw [segmentOf, tcpLengthOf,
    totalLengthOf_packet ends header segment (by omega) stored,
    drop_ethHeader ends _ 20, rest, Nat.add_sub_cancel, List.take_length]

end Reads

/-! ## Every forged packet verifies -/

/-- What `pkt_sender_send` hands over for sending is the packet without the
rest of the buffer; a receiver finds the content in it, and both checksums
verify. -/
theorem forged_packet_verifies (ends : Endpoints) (content : Bytes)
    (fits : content.length ≤ 1994) :
    ∃ packet length,
      forgeTcpPacket 2048 ends content = some (packet, length) ∧
        (segmentOf (packet.take length)).drop 20 = content ∧
          ChecksumsVerify (packet.take length) := by
  have room : content.length + 20 + 20 + 14 ≤ 2048 := by omega
  refine ⟨_, _, if_pos room, ?_⟩
  generalize stored : calTcpCksum _ _ _ = thSum
  have verified := segment_verifies
    (ipHeader ends (content.length + 20 + 20)) (tcpHeaderUnchecked ends)
    content _ (by decide : 0 < (6 : UInt8).toNat) fits stored.symm
  have length :=
    length_segment { tcpHeaderUnchecked ends with thSum := thSum } content
  have segment := segmentOf_packet ends
    (ipHeader ends (content.length + 20 + 20))
    ({ tcpHeaderUnchecked ends with thSum := thSum }.bytes ++ content)
    (by omega) (by rw [length]; rfl)
  rw [take_packet]
  refine ⟨?_, ?_, ?_⟩
  · rw [segment]
    exact List.drop_left' rfl
  · rw [ipHeaderOf_packet]
    exact ipHeader_verifies ends _
  · rw [segment, pseudoHeaderOf_packet ends _ _ _ rfl]
    · exact verified
    · omega

/-- An answer of odd length from `10.0.0.1` to `10.0.0.2`. -/
theorem forged_packet_verifies_oddContent :
    ∃ packet length,
      forgeTcpPacket 2048
        ⟨fun _ => 1, fun _ => 2, 0x0A000001, 0x0A000002, 80, 50000, 7, 9⟩
        [0x48, 0x54, 0x54] = some (packet, length) ∧
        (segmentOf (packet.take length)).drop 20 = [0x48, 0x54, 0x54] ∧
          ChecksumsVerify (packet.take length) :=
  forged_packet_verifies
    ⟨fun _ => 1, fun _ => 2, 0x0A000001, 0x0A000002, 80, 50000, 7, 9⟩
    [0x48, 0x54, 0x54] (by decide)

end WindowSystem.Client.PktSender
