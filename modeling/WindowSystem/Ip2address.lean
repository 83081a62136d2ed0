import WindowSystem.CRuntime
import WindowSystem.Library.RangeTable

/-!
# `ip2address.c`: from an address to its place

A table holds ranges of addresses in the order of their first addresses, and
`ip2address_conv` looks for the range of an address by halving.  Both bounds
of the search are unsigned.  An address in front of the first range lets the
upper bound wrap around, and so does an empty table.
-/

namespace WindowSystem.Ip2address

open WindowSystem.CRuntime
open WindowSystem.Library
open WindowSystem.Library.IntervalSearch

/-- `MAX_ADDR_LEN` -/
def MAX_ADDR_LEN : Nat := 256

/-- A range of addresses and its place, a string in an array of
`MAX_ADDR_LEN` bytes. -/
structure IPNode where
  ip1 : UInt32
  ip2 : UInt32
  addr : Bytes
  noNul : 0 ∉ addr
  fits : addr.length < MAX_ADDR_LEN
deriving DecidableEq

/-- The table. -/
structure IP2AddressData where
  ipNodes : List IPNode
  small : ipNodes.length < 2 ^ 32

namespace IP2AddressData

/-- `pData->size` -/
def size (pData : IP2AddressData) : UInt32 :=
  UInt32.ofNat pData.ipNodes.length

end IP2AddressData

/-! ## Addresses as texts -/

/-- The conversion `%d` of `sscanf`, with the input that it leaves. -/
def scanInt (input : Bytes) : Option (Int × Bytes) :=
  let skipped := input.dropWhile isSpace
  let negative := skipped.head? = some 45
  let digits := if negative ∨ skipped.head? = some 43 then skipped.tail
    else skipped
  let number := digits.takeWhile Decimal.isDigit
  if number = [] then none
  else
    let value : Int := Decimal.readDigits 0 number
    some (toInt32 (clampLong (if negative then -value else value)),
      digits.dropWhile Decimal.isDigit)

/-- The character `.` in a format of `sscanf`. -/
def scanDot : Bytes → Option Bytes
  | 46 :: rest => some rest
  | _ => none

/-- A number as an `unsigned char`. -/
def octet (part : Int) : Nat :=
  (part % 256).toNat

/-- `ip2int`: the first number is the highest of the four bytes. -/
def ip2int (sip : Bytes) : Option UInt32 := do
  let (part3, rest) ← scanInt sip
  let (part2, rest) ← scanInt (← scanDot rest)
  let (part1, rest) ← scanInt (← scanDot rest)
  let (part0, _) ← scanInt (← scanDot rest)
  return UInt32.ofNat (octet part3 * 2 ^ 24 + octet part2 * 2 ^ 16 +
    octet part1 * 2 ^ 8 + octet part0)

/-- `ip2str`: the four bytes in decimal. -/
def ip2str (nip : UInt32) : Bytes :=
  Decimal.decimal (nip.toNat / 2 ^ 24) ++ 46 ::
    (Decimal.decimal (nip.toNat / 2 ^ 16 % 256) ++ 46 ::
      (Decimal.decimal (nip.toNat / 2 ^ 8 % 256) ++ 46 ::
        Decimal.decimal (nip.toNat % 256)))

theorem takeWhile_decimal_append {number : Nat} {rest : Bytes}
    (ends : ∀ byte ∈ rest.head?, Decimal.isDigit byte = false) :
    (Decimal.decimal number ++ rest).takeWhile Decimal.isDigit =
        Decimal.decimal number ∧
      (Decimal.decimal number ++ rest).dropWhile Decimal.isDigit = rest := by
  have digits : ∀ byte ∈ Decimal.decimal number,
      Decimal.isDigit byte = true :=
    fun byte member => Decimal.isDigit_of_mem_decimal member
  rw [List.takeWhile_append_of_pos digits, List.dropWhile_append_of_pos digits]
  cases rest with
  | nil => simp
  | cons byte rest =>
      have noDigit : ¬ Decimal.isDigit byte = true := by
        simp [ends byte rfl]
      rw [List.takeWhile_cons_of_neg noDigit,
        List.dropWhile_cons_of_neg noDigit]
      simp

/-- A printed number is read back, up to the character behind it. -/
theorem scanInt_decimal {number : Nat} (small : number < 2 ^ 31)
    {rest : Bytes} (ends : ∀ byte ∈ rest.head?, Decimal.isDigit byte = false) :
    scanInt (Decimal.decimal number ++ rest) = some ((number : Int), rest) := by
  have nonempty := Decimal.decimal_ne_nil number
  obtain ⟨first, behind, numeral⟩ := List.exists_cons_of_ne_nil nonempty
  have digit : Decimal.isDigit first = true :=
    @Decimal.isDigit_of_mem_decimal number first (by simp [numeral])
  obtain ⟨noSpace, notMinus, notPlus⟩ := not_isSpace_of_isDigit digit
  have unskipped : (Decimal.decimal number ++ rest).dropWhile isSpace =
      Decimal.decimal number ++ rest := by
    rw [numeral, List.cons_append,
      List.dropWhile_cons_of_neg (by simp [noSpace])]
  have head : (Decimal.decimal number ++ rest).head? = some first := by
    rw [numeral]
    rfl
  have value : toInt32 (clampLong (number : Int)) = number := by
    rw [toInt32_of_range] <;> simp only [clampLong] <;> omega
  obtain ⟨taken, dropped⟩ := @takeWhile_decimal_append number rest ends
  simp [scanInt, unskipped, head, notMinus, notPlus, taken, dropped, nonempty,
    Decimal.readDigits_decimal, value]

theorem octet_of_lt {part : Nat} (small : part < 256) :
    octet part = part := by
  rw [octet]
  omega

/-- Every address is read back from its text. -/
theorem ip2int_ip2str (nip : UInt32) : ip2int (ip2str nip) = some nip := by
  have small := nip.toNat_lt
  have dot : ∀ rest : Bytes, ∀ byte ∈ (46 :: rest).head?,
      Decimal.isDigit byte = false := by
    rintro rest byte ⟨⟩
    rfl
  have last : Decimal.decimal (nip.toNat % 256) =
      Decimal.decimal (nip.toNat % 256) ++ [] := (List.append_nil _).symm
  rw [ip2str, ip2int, scanInt_decimal (by omega) (dot _)]
  simp only [Option.bind_eq_bind, Option.bind_some, scanDot]
  rw [scanInt_decimal (by omega) (dot _)]
  simp only [Option.bind_some]
  rw [scanInt_decimal (by omega) (dot _)]
  simp only [Option.bind_some]
  rw [last, scanInt_decimal (by omega) (by simp)]
  simp only [Option.bind_some, Option.pure_def, Option.some.injEq]
  rw [octet_of_lt (by omega), octet_of_lt (by omega), octet_of_lt (by omega),
    octet_of_lt (by omega)]
  apply UInt32.toNat.inj
  rw [UInt32.toNat_ofNat']
  omega

/-! ## The search -/

/-- How a call ends: with a place and `0`, with `-1`, or with a read behind
the last entry. -/
inductive Outcome where
  | success (out : Bytes)
  | failure
  | outOfBounds (index : UInt32)
deriving DecidableEq

/-- `strncpy` of the place, and the terminator in the last byte. -/
def copied (addr : Bytes) : Bytes :=
  addr.take (MAX_ADDR_LEN - 1)

/-- The `while` loop, for at most so many rounds. -/
def loop (ipNodes : List IPNode) (nip : UInt32) :
    Nat → UInt32 → UInt32 → Option Outcome
  | 0, _, _ => none
  | rounds + 1, low, high =>
      if low ≤ high then
        let mid := low + (high - low) / 2
        match ipNodes[mid.toNat]? with
        | none => some (.outOfBounds mid)
        | some pn =>
            if pn.ip1 ≤ nip ∧ nip ≤ pn.ip2 then
              some (.success (copied pn.addr))
            else if pn.ip1 > nip then
              loop ipNodes nip rounds low (mid - 1)
            else
              loop ipNodes nip rounds (mid + 1) high
      else
        some .failure

/-- `ip2address_conv`, with at most so many rounds of its loop. -/
def ip2address_conv (pData : IP2AddressData) (sip : Bytes) (rounds : Nat) :
    Option Outcome :=
  match ip2int sip with
  | none => some .failure
  | some nip => loop pData.ipNodes nip rounds 0 (pData.size - 1)

/-! ## Tables -/

/-- `ipnode_cmp` -/
def ipnode_cmp (nd1 nd2 : IPNode) : Int :=
  if nd1.ip1 < nd2.ip1 then -1
  else if nd1.ip1 > nd2.ip1 then 1
  else 0

/-- The address lies in the range. -/
def Contains (node : IPNode) (nip : UInt32) : Prop :=
  node.ip1 ≤ nip ∧ nip ≤ node.ip2

instance (node : IPNode) (nip : UInt32) : Decidable (Contains node nip) :=
  inferInstanceAs (Decidable (_ ∧ _))

/-- Ranges in the order of their first addresses, no two of which share an
address. -/
structure SortedDisjoint (ipNodes : List IPNode) : Prop where
  ranges : ∀ node ∈ ipNodes, node.ip1 ≤ node.ip2
  sorted : ipNodes.Pairwise fun nd1 nd2 => ipnode_cmp nd1 nd2 ≤ 0
  disjoint : ipNodes.Pairwise fun nd1 nd2 =>
    ∀ nip, ¬ (Contains nd1 nip ∧ Contains nd2 nip)

/-- The call ends, reads only entries of the table, and succeeds with the
place of the range of the address exactly if there is such a range. -/
def Locates (pData : IP2AddressData) (sip : Bytes) (nip : UInt32) : Prop :=
  ∃ rounds outcome, ip2address_conv pData sip rounds = some outcome ∧
    ((∃ node ∈ pData.ipNodes, Contains node nip ∧
        outcome = .success node.addr) ∨
      (∀ node ∈ pData.ipNodes, ¬ Contains node nip) ∧ outcome = .failure)

/-! ## The order of the ranges -/

section Order

variable {ipNodes : List IPNode} {nip : UInt32}

theorem le_of_ipnode_cmp {nd1 nd2 : IPNode}
    (ordered : ipnode_cmp nd1 nd2 ≤ 0) :
    nd1.ip1 ≤ nd2.ip1 := by
  unfold ipnode_cmp at ordered
  split at ordered
  case isTrue less => exact UInt32.le_of_lt less
  case isFalse =>
    split at ordered
    case isTrue => omega
    case isFalse notGreater => exact UInt32.not_lt.mp notGreater

/-- Where the address lies, seen from an entry of the table. -/
def verdict (ipNodes : List IPNode) (nip : UInt32) (index : Nat) :
    Ordering :=
  match ipNodes[index]? with
  | none => .lt
  | some pn =>
      if Contains pn nip then .eq
      else if pn.ip1 > nip then .lt
      else .gt

theorem verdict_eq_iff {index : Nat} (inside : index < ipNodes.length) :
    verdict ipNodes nip index = .eq ↔ Contains ipNodes[index] nip := by
  rw [verdict, List.getElem?_eq_getElem inside]
  dsimp only
  split_ifs with contains front
  · simp [contains]
  · simp [contains]
  · simp [contains]

theorem verdict_lt_iff {index : Nat} (inside : index < ipNodes.length) :
    verdict ipNodes nip index = .lt ↔ nip < ipNodes[index].ip1 := by
  rw [verdict, List.getElem?_eq_getElem inside]
  dsimp only
  split_ifs with contains front
  · simp [UInt32.not_lt.mpr contains.1]
  · simpa using front
  · simpa using front

/-- The table as one of ranges of numbers. -/
theorem verdict_eq :
    verdict ipNodes nip =
      RangeTable.verdict (·.ip1.toNat) (·.ip2.toNat) ipNodes nip.toNat := by
  funext index
  rw [verdict, RangeTable.verdict]
  cases ipNodes[index]? with
  | none => rfl
  | some pn =>
      refine if_congr ?_ rfl (if_congr ?_ rfl rfl)
      · exact and_congr UInt32.le_iff_toNat_le UInt32.le_iff_toNat_le
      · exact UInt32.lt_iff_toNat_lt

theorem SortedDisjoint.disjointRanges (table : SortedDisjoint ipNodes) :
    RangeTable.DisjointRanges (fun node => node.ip1.toNat)
      (fun node => node.ip2.toNat) ipNodes where
  ranges node member := UInt32.le_iff_toNat_le.mp (table.ranges node member)
  apart := by
    refine table.disjoint.imp fun {nd1 nd2} apart key both => ?_
    have small : key < 2 ^ 32 := both.1.2.trans_lt nd1.ip2.toNat_lt
    have address : (UInt32.ofNat key).toNat = key :=
      UInt32.toNat_ofNat_of_lt' small
    apply apart (UInt32.ofNat key)
    simp only [Contains, UInt32.le_iff_toNat_le, address]
    exact both

theorem directed_verdict (table : SortedDisjoint ipNodes) :
    Directed (verdict ipNodes nip) ipNodes.length := by
  rw [verdict_eq]
  refine RangeTable.directed_verdict table.disjointRanges ?_
  refine table.sorted.imp fun ordered => ?_
  exact UInt32.le_iff_toNat_le.mp (le_of_ipnode_cmp ordered)

end Order

/-! ## The loop as a search -/

section Loop

variable {ipNodes : List IPNode} {nip : UInt32}

theorem copied_addr (node : IPNode) : copied node.addr = node.addr :=
  List.take_of_length_le (Nat.le_sub_one_of_lt node.fits)

theorem loop_more {rounds : Nat} {low high : UInt32} {outcome : Outcome}
    (ended : loop ipNodes nip rounds low high = some outcome) (more : Nat) :
    loop ipNodes nip (rounds + more) low high = some outcome := by
  induction rounds generalizing low high with
  | zero => cases ended
  | succ rounds ih =>
      rw [Nat.succ_add]
      rw [loop] at ended ⊢
      split at ended
      case isTrue ordered =>
        rw [if_pos ordered]
        dsimp only at ended ⊢
        cases read : ipNodes[(low + (high - low) / 2).toNat]? with
        | none =>
            rw [read] at ended
            exact ended
        | some pn =>
            rw [read] at ended
            dsimp only at ended ⊢
            split_ifs at ended ⊢
            · exact ended
            · exact ih ended
            · exact ih ended
      case isFalse crossed =>
        rw [if_neg crossed]
        exact ended

variable {low stop rounds : Nat} {lowIndex highIndex : UInt32}

theorem toNat_middle (lowIs : lowIndex.toNat = low)
    (highIs : highIndex.toNat + 1 = stop) (nonempty : low < stop) :
    (lowIndex + (highIndex - lowIndex) / 2).toNat = middle low stop := by
  have ordered : lowIndex ≤ highIndex := by
    rw [UInt32.le_iff_toNat_le]
    omega
  have top := highIndex.toNat_lt
  have two : (2 : UInt32).toNat = 2 := rfl
  rw [UInt32.toNat_add, UInt32.toNat_div, two,
    UInt32.toNat_sub_of_le _ _ ordered]
  unfold middle
  omega

/-- The place of the range at an index. -/
def placeOf (ipNodes : List IPNode) : Option Nat → Outcome
  | none => .failure
  | some index =>
      match ipNodes[index]? with
      | none => .failure
      | some pn => .success (copied pn.addr)

/-- One round. -/
theorem loop_succ (lowIs : lowIndex.toNat = low)
    (highIs : highIndex.toNat + 1 = stop) (nonempty : low < stop)
    (inside : stop ≤ ipNodes.length) :
    loop ipNodes nip (rounds + 1) lowIndex highIndex =
      match verdict ipNodes nip (middle low stop) with
      | .lt => loop ipNodes nip rounds lowIndex
          (lowIndex + (highIndex - lowIndex) / 2 - 1)
      | .gt => loop ipNodes nip rounds
          (lowIndex + (highIndex - lowIndex) / 2 + 1) highIndex
      | .eq => some (placeOf ipNodes (some (middle low stop))) := by
  have middleIs := toNat_middle lowIs highIs nonempty
  have present : middle low stop < ipNodes.length :=
    (middle_lt nonempty).trans_le inside
  have ordered : lowIndex ≤ highIndex := by
    rw [UInt32.le_iff_toNat_le]
    omega
  rw [loop, if_pos ordered]
  simp only [middleIs, List.getElem?_eq_getElem present, placeOf]
  cases seen : verdict ipNodes nip (middle low stop) with
  | lt =>
      have front := (verdict_lt_iff present).mp seen
      have misses : ¬ Contains ipNodes[middle low stop] nip := by
        intro contains
        rw [(verdict_eq_iff present).mpr contains] at seen
        cases seen
      exact (if_neg misses).trans (if_pos front)
  | eq => exact if_pos ((verdict_eq_iff present).mp seen)
  | gt =>
      have misses : ¬ Contains ipNodes[middle low stop] nip := by
        intro contains
        rw [(verdict_eq_iff present).mpr contains] at seen
        cases seen
      have notFront : ¬ ipNodes[middle low stop].ip1 > nip := by
        intro front
        rw [(verdict_lt_iff present).mpr front] at seen
        cases seen
      exact (if_neg misses).trans (if_neg notFront)

theorem loop_crossed (lowIs : lowIndex.toNat = low)
    (highIs : highIndex.toNat + 1 = stop) (empty : ¬ low < stop) :
    loop ipNodes nip (rounds + 1) lowIndex highIndex = some .failure := by
  rw [loop, if_neg]
  rw [UInt32.le_iff_toNat_le]
  omega

/-- From an address that is not in front of the first range, the loop is the
search: the upper bound never wraps around. -/
theorem loop_eq_search (lowIs : lowIndex.toNat = low)
    (highIs : highIndex.toNat + 1 = stop) (inside : stop ≤ ipNodes.length)
    (small : ipNodes.length < 2 ^ 32) (enough : stop - low < rounds)
    (notFront : verdict ipNodes nip 0 ≠ .lt) :
    loop ipNodes nip rounds lowIndex highIndex =
      some (placeOf ipNodes (search (verdict ipNodes nip) low stop)) := by
  obtain ⟨rounds, rfl⟩ : ∃ fewer, rounds = fewer + 1 :=
    ⟨rounds - 1, by omega⟩
  induction low, stop using search.induct (verdict ipNodes nip)
    generalizing rounds lowIndex highIndex with
  | case1 low stop nonempty left ih =>
      have below := middle_lt nonempty
      have above := low_le_middle nonempty
      have middleIs := toNat_middle lowIs highIs nonempty
      have positive : middle low stop ≠ 0 := by
        intro zero
        rw [zero] at left
        exact notFront left
      obtain ⟨fewer, rfl⟩ : ∃ fewer, rounds = fewer + 1 :=
        ⟨rounds - 1, by omega⟩
      rw [loop_succ lowIs highIs nonempty inside, left, search,
        if_pos nonempty, left]
      apply ih lowIs _ (by omega) _ (by omega)
      have one : (1 : UInt32).toNat = 1 := rfl
      rw [UInt32.toNat_sub_of_le, middleIs, one]
      · omega
      · rw [UInt32.le_iff_toNat_le, middleIs, one]
        omega
  | case2 low stop nonempty here =>
      rw [loop_succ lowIs highIs nonempty inside, here, search,
        if_pos nonempty, here]
  | case3 low stop nonempty right ih =>
      have below := middle_lt nonempty
      have above := low_le_middle nonempty
      have middleIs := toNat_middle lowIs highIs nonempty
      obtain ⟨fewer, rfl⟩ : ∃ fewer, rounds = fewer + 1 :=
        ⟨rounds - 1, by omega⟩
      rw [loop_succ lowIs highIs nonempty inside, right, search,
        if_pos nonempty, right]
      apply ih _ highIs inside _ (by omega)
      have one : (1 : UInt32).toNat = 1 := rfl
      rw [UInt32.toNat_add, middleIs, one]
      omega
  | case4 low stop empty =>
      rw [loop_crossed lowIs highIs empty, search, if_neg empty]
      rfl

/-- In front of the first range the lower bound stays at zero, and the loop
never comes to an answer. -/
theorem loop_front (front : ∀ node ∈ ipNodes, nip < node.ip1)
    {high : UInt32} {outcome : Outcome}
    (ended : loop ipNodes nip rounds 0 high = some outcome) :
    ∃ index, outcome = .outOfBounds index := by
  induction rounds generalizing high with
  | zero => cases ended
  | succ rounds ih =>
      rw [loop, if_pos (UInt32.zero_le)] at ended
      dsimp only at ended
      cases read : ipNodes[(0 + (high - 0) / 2).toNat]? with
      | none =>
          rw [read] at ended
          cases ended
          exact ⟨_, rfl⟩
      | some pn =>
          have before := front pn (List.mem_of_getElem? read)
          rw [read] at ended
          dsimp only at ended
          rw [if_neg fun contains => UInt32.not_lt.mpr contains.1 before,
            if_pos before] at ended
          exact ih ended

end Loop

/-! ## What the call answers -/

section Answer

variable {pData : IP2AddressData} {sip : Bytes} {nip : UInt32}

theorem placeOf_search (table : SortedDisjoint pData.ipNodes) :
    let outcome := placeOf pData.ipNodes
      (search (verdict pData.ipNodes nip) 0 pData.ipNodes.length)
    (∃ node ∈ pData.ipNodes, Contains node nip ∧
        outcome = .success node.addr) ∨
      (∀ node ∈ pData.ipNodes, ¬ Contains node nip) ∧
        outcome = .failure := by
  dsimp only
  cases found : search (verdict pData.ipNodes nip) 0
      pData.ipNodes.length with
  | none =>
      have nowhere :=
        (search_eq_none_iff (directed_verdict table) le_rfl).mp found
      refine .inr ⟨fun node member contains => ?_, rfl⟩
      obtain ⟨index, inside, rfl⟩ := List.mem_iff_getElem.mp member
      exact nowhere index (Nat.zero_le _) inside
        ((verdict_eq_iff inside).mpr contains)
  | some index =>
      have inside := search_sound found
      have bounded := inside.2.1
      refine .inl ⟨pData.ipNodes[index], List.getElem_mem bounded,
        (verdict_eq_iff inside.2.1).mp inside.2.2, ?_⟩
      rw [placeOf, List.getElem?_eq_getElem inside.2.1]
      simp only [copied_addr]

/-- The first range of a table is the one in front. -/
theorem front_of_head (table : SortedDisjoint pData.ipNodes)
    (front : ¬ ∃ first ∈ pData.ipNodes.head?, first.ip1 ≤ nip) :
    ∀ node ∈ pData.ipNodes, nip < node.ip1 := by
  intro node member
  obtain ⟨index, inside, rfl⟩ := List.mem_iff_getElem.mp member
  have first : nip < pData.ipNodes[0].ip1 := by
    by_contra behind
    apply front
    refine ⟨pData.ipNodes[0], ?_, UInt32.not_lt.mp behind⟩
    rw [List.head?_eq_getElem?, List.getElem?_eq_getElem (by omega)]
    rfl
  exact (verdict_lt_iff inside).mp ((directed_verdict table).left
    (Nat.zero_le _) inside ((verdict_lt_iff (by omega)).mpr first))

theorem ip2address_conv_of_parsed (parsed : ip2int sip = some nip)
    (rounds : Nat) :
    ip2address_conv pData sip rounds =
      loop pData.ipNodes nip rounds 0 (pData.size - 1) := by
  rw [ip2address_conv, parsed]

theorem not_locates_of_front (parsed : ip2int sip = some nip)
    (front : ∀ node ∈ pData.ipNodes, nip < node.ip1) :
    ¬ Locates pData sip nip := by
  rintro ⟨rounds, outcome, ended, answer⟩
  rw [ip2address_conv_of_parsed parsed] at ended
  obtain ⟨index, rfl⟩ := loop_front front ended
  rcases answer with ⟨node, -, -, impossible⟩ | ⟨-, impossible⟩
  · cases impossible
  · cases impossible

/-- The address is located exactly if the table is not empty and the address
is not in front of the first range. -/
theorem ip2address_conv_locates_iff (table : SortedDisjoint pData.ipNodes)
    (parsed : ip2int sip = some nip) :
    Locates pData sip nip ↔
      ∃ first ∈ pData.ipNodes.head?, first.ip1 ≤ nip := by
  constructor
  · intro located
    by_contra front
    exact not_locates_of_front parsed (front_of_head table front) located
  · rintro ⟨first, head, notFront⟩
    have nonempty : 0 < pData.ipNodes.length :=
      List.length_pos_of_mem (List.mem_of_head? head)
    have last : (pData.size - 1).toNat + 1 = pData.ipNodes.length := by
      have one : (1 : UInt32).toNat = 1 := rfl
      have size : pData.size.toNat = pData.ipNodes.length :=
        UInt32.toNat_ofNat_of_lt' pData.small
      rw [UInt32.toNat_sub_of_le, size, one]
      · omega
      · rw [UInt32.le_iff_toNat_le, size, one]
        exact nonempty
    have inTable : verdict pData.ipNodes nip 0 ≠ .lt := by
      rw [Ne, verdict_lt_iff nonempty, UInt32.not_lt]
      rw [List.head?_eq_getElem?, List.getElem?_eq_getElem nonempty] at head
      cases head
      exact notFront
    have zero : (0 : UInt32).toNat = 0 := rfl
    have ended := loop_eq_search zero last le_rfl pData.small
      (Nat.lt_succ_self _) inTable
    rw [← ip2address_conv_of_parsed parsed] at ended
    exact ⟨_, _, ended, placeOf_search table⟩

end Answer

/-- The range from `2.0.0.0` to `2.255.255.255`. -/
def nanjing : IPNode where
  ip1 := 33554432
  ip2 := 50331647
  addr := ascii "Nanjing"
  noNul := by decide
  fits := by decide

/-- The range from `5.0.0.0` to `5.0.0.255`. -/
def suzhou : IPNode where
  ip1 := 83886080
  ip2 := 83886335
  addr := ascii "Suzhou"
  noNul := by decide
  fits := by decide

/-- The range from `9.0.0.0` to `9.255.255.255`. -/
def wuxi : IPNode where
  ip1 := 150994944
  ip2 := 167772159
  addr := ascii "Wuxi"
  noNul := by decide
  fits := by decide

/-- A table with three ranges and gaps between them. -/
def threeRanges : IP2AddressData where
  ipNodes := [nanjing, suzhou, wuxi]
  small := by decide

/-- A range that ends in front of another one has no address of it. -/
theorem disjoint_of_lt {nd1 nd2 : IPNode} (before : nd1.ip2 < nd2.ip1)
    (nip : UInt32) : ¬ (Contains nd1 nip ∧ Contains nd2 nip) := by
  rintro ⟨one, two⟩
  have after := UInt32.lt_of_lt_of_le before (UInt32.le_trans two.1 one.2)
  exact UInt32.lt_irrefl _ after

theorem threeRanges_sortedDisjoint :
    SortedDisjoint threeRanges.ipNodes := by
  constructor
  case ranges => decide
  case sorted => decide
  case disjoint =>
    have before : threeRanges.ipNodes.Pairwise fun nd1 nd2 =>
        nd1.ip2 < nd2.ip1 := by
      decide
    exact before.imp disjoint_of_lt

/-- An address of the first range, one between two ranges, one of the last
range, and one behind it. -/
theorem threeRanges_locates :
    Locates threeRanges (ascii "2.10.0.7") 34209799 ∧
      Locates threeRanges (ascii "5.0.1.0") 83886336 ∧
      Locates threeRanges (ascii "9.0.0.1") 150994945 ∧
      Locates threeRanges (ascii "10.0.0.0") 167772160 := by
  have located : ∀ {sip : Bytes} {nip : UInt32}, ip2int sip = some nip →
      nanjing.ip1 ≤ nip → Locates threeRanges sip nip :=
    fun parsed behind =>
      (ip2address_conv_locates_iff threeRanges_sortedDisjoint parsed).mpr
        ⟨nanjing, rfl, behind⟩
  refine ⟨?first, ?gap, ?last, ?behind⟩
  case first => exact located (by decide +kernel) (by decide)
  case gap => exact located (by decide +kernel) (by decide)
  case last => exact located (by decide +kernel) (by decide)
  case behind => exact located (by decide +kernel) (by decide)

/-- A table with one range. -/
def oneRange : IP2AddressData where
  ipNodes := [nanjing]
  small := by decide

/-- For an address in front of the range the table is read at
`2 ^ 31 - 1`. -/
theorem front_not_located :
    SortedDisjoint oneRange.ipNodes ∧
      ip2address_conv oneRange (ascii "1.2.3.4") 2 =
        some (.outOfBounds 2147483647) ∧
      ¬ Locates oneRange (ascii "1.2.3.4") 16909060 := by
  refine ⟨⟨by decide, ?_, ?_⟩, by decide +kernel, ?_⟩
  · exact List.pairwise_singleton _ _
  · exact List.pairwise_singleton _ _
  · exact not_locates_of_front (by decide +kernel) (by decide)

end WindowSystem.Ip2address
