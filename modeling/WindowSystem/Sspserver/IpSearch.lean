import WindowSystem.HidataFramework.IPCheck
import WindowSystem.Library.RangeTable

/-!
# `IpSearch`: the place of an address

`readFile` takes ranges of addresses with the names of their places from the
lines of a file and sorts them with `IpCompareAsc`.  `getAddrByIp` looks for
the range of an address by halving.
-/

namespace WindowSystem.Sspserver.IpSearch

open WindowSystem.Admanager.EditAdPlan (trim)
open WindowSystem.HidataFramework.IPCheck
  (dottedQuad split_dottedQuad trim_of_visible visible_of_isDigit)
open WindowSystem.HidataFramework.JavaNumbers
open WindowSystem.Library.IntervalSearch
open WindowSystem.Library.RangeTable
open WindowSystem.Sspserver.JavaRuntime

/-- A range of addresses and its place. -/
structure IpNode where
  ip1 : Int
  ip2 : Int
  addr : JavaString
deriving DecidableEq

/-! ## The lines of a file -/

/-- `[0-9]{0,n}`, with the text behind it.  What follows in the pattern is no
digit, so that fewer digits do not match either. -/
def digitsUpTo (n : Nat) (string : JavaString) : JavaString × JavaString :=
  let digits := (string.take n).takeWhile Char.isDigit
  (digits, string.drop digits.length)

/-- `\.[0-9]{0,3}` -/
def matchPart : JavaString → Option (JavaString × JavaString)
  | '.' :: rest =>
      let (digits, rest) := digitsUpTo 3 rest
      some ('.' :: digits, rest)
  | _ => none

/-- `[1-9][0-9]{0,2}\.[0-9]{0,3}\.[0-9]{0,3}\.[0-9]{0,3}` -/
def matchAddress : JavaString → Option (JavaString × JavaString)
  | [] => none
  | first :: rest =>
      if '1' ≤ first ∧ first ≤ '9' then do
        let (digits, rest) := digitsUpTo 2 rest
        let (part2, rest) ← matchPart rest
        let (part3, rest) ← matchPart rest
        let (part4, rest) ← matchPart rest
        return (first :: (digits ++ part2 ++ part3 ++ part4), rest)
      else none

/-- `\s` -/
def isSpace (character : Char) : Bool :=
  (text " \t\n\x0b\x0c\r").contains character

/-- `\s+` -/
def matchSpaces : JavaString → Option JavaString
  | [] => none
  | first :: rest =>
      if isSpace first then some (rest.dropWhile isSpace) else none

/-- What `.` does not match. -/
def isTerminator (character : Char) : Bool :=
  (text "\n\r\u0085\u2028\u2029").contains character

/-- The three groups of a match that starts here, and the text behind it. -/
def matchHere (string : JavaString) :
    Option ((JavaString × JavaString × JavaString) × JavaString) := do
  let (group1, rest) ← matchAddress string
  let rest ← matchSpaces rest
  let (group2, rest) ← matchAddress rest
  let rest ← matchSpaces rest
  return ((group1, group2, rest.takeWhile (!isTerminator ·)),
    rest.dropWhile (!isTerminator ·))

/-- The matches of `m.find()`; the first characters belong to the match
before. -/
def finds (skipped : Nat) :
    JavaString → List (JavaString × JavaString × JavaString)
  | [] => []
  | first :: rest =>
      match skipped with
      | skipped + 1 => finds skipped rest
      | 0 =>
          match matchHere (first :: rest) with
          | some (groups, behind) =>
              groups :: finds (rest.length - behind.length) rest
          | none => finds 0 rest

section Program

variable (platform : Platform)

/-- `ip2Num` with the arithmetic of `long`; `none` is a
`NumberFormatException`. -/
def ip2Num (ip : JavaString) : Option Int :=
  if trim ip = [] then some 0
  else
    (split '.' ip).foldlM (fun ipNum str =>
      (parseInt platform str).map fun part =>
        (ipNum * 256 + part).bmod (2 ^ 64)) 0

/-- `adpterCity`; `none` is the literal `""`, which is compared by
reference. -/
def adpterCity (cityList : List JavaString) (str : JavaString) :
    Option JavaString :=
  cityList.find? fun tmpName => containsText str tmpName

/-- The nodes of the matches, up to the first exception. -/
def readNodes (cityList : List JavaString) :
    List (JavaString × JavaString × JavaString) → List IpNode
  | [] => []
  | (group1, group2, group3) :: groups =>
      match ip2Num platform group1, ip2Num platform group2 with
      | some ip1, some ip2 =>
          match adpterCity cityList group3 with
          | some cityName =>
              ⟨ip1, ip2, cityName⟩ :: readNodes cityList groups
          | none => readNodes cityList groups
      | _, _ => []

/-- The nodes in the order of the file. -/
def loaded (cityList lines : List JavaString) : List IpNode :=
  readNodes platform cityList (lines.flatMap (finds 0))

/-- `IpCompareAsc.compare` -/
def compare (o1 o2 : IpNode) : Int :=
  if o1.ip1 < o2.ip1 then -1
  else if o1.ip1 > o2.ip1 then 1
  else 0

/-- `readFile`; `Collections.sort` is stable. -/
def readFile (cityList lines : List JavaString) : List IpNode :=
  (loaded platform cityList lines).mergeSort fun o1 o2 => compare o1 o2 ≤ 0

/-! ## The search -/

/-- How a call ends. -/
inductive Outcome where
  | returned (addr : JavaString)
  | thrown
deriving DecidableEq

/-- `ipNodes.get(mid)` -/
def get (ipNodes : List IpNode) (index : Int) : Option IpNode :=
  if 0 ≤ index then ipNodes[index.toNat]? else none

/-- The `while` loop, for at most so many rounds. -/
def loop (ipNodes : List IpNode) (ipNum : Int) :
    Nat → Int → Int → Option Outcome
  | 0, _, _ => none
  | rounds + 1, low, high =>
      if low ≤ high then
        let mid := low + (high - low) / 2
        match get ipNodes mid with
        | none => some .thrown
        | some ipNode =>
            if ipNode.ip1 ≤ ipNum ∧ ipNum ≤ ipNode.ip2 then
              some (.returned ipNode.addr)
            else if ipNode.ip1 > ipNum then
              loop ipNodes ipNum rounds low (mid - 1)
            else
              loop ipNodes ipNum rounds (mid + 1) high
      else
        some (.returned [])

/-- `getAddrByIp`, with at most so many rounds of its loop. -/
def getAddrByIp (ipNodes : List IpNode) (ip : JavaString) (rounds : Nat) :
    Option Outcome :=
  match ip2Num platform ip with
  | none => some .thrown
  | some ipNum => loop ipNodes ipNum rounds 0 (ipNodes.length - 1)

end Program

/-! ## What a call answers -/

/-- The address lies in the range of a node. -/
abbrev Contains (node : IpNode) (ipNum : Int) : Prop :=
  WindowSystem.Library.RangeTable.Contains IpNode.ip1 IpNode.ip2 node ipNum

/-- The place of the first node, in the order of the file, that contains an
address; without one the place is the empty text. -/
def scanAddr (nodes : List IpNode) (ipNum : Int) : JavaString :=
  match scan IpNode.ip1 IpNode.ip2 nodes ipNum with
  | none => []
  | some node => node.addr

/-- The answer is the place of the range of the address if there is one, and
otherwise the empty text. -/
structure Locates (nodes : List IpNode) (ipNum : Int)
    (answer : JavaString) : Prop where
  inside : ∀ node ∈ nodes, Contains node ipNum → answer = node.addr
  outside : (∀ node ∈ nodes, ¬ Contains node ipNum) → answer = []
  scanned : answer = scanAddr nodes ipNum

/-! ## Addresses -/

section Address

variable {platform : Platform}

theorem ip2Num_step {number part : Nat} (small : number < 2 ^ 24)
    (octet : part < 256) :
    ((number : Int) * 256 + (part : Int)).bmod (2 ^ 64) =
      ((number * 256 + part : Nat) : Int) := by
  rw [Int.bmod_eq_of_le] <;> omega

theorem dot_mem_dottedQuad (address : UInt32) :
    '.' ∈ dottedQuad address := by
  simp [dottedQuad]

theorem visible_of_mem_dottedQuad {address : UInt32} {character : Char}
    (member : character ∈ dottedQuad address) : ¬ character ≤ ' ' := by
  simp only [dottedQuad, List.mem_append, List.mem_cons] at member
  rcases member with digit | rfl | digit | rfl | digit | rfl | digit
  · exact visible_of_isDigit (isDigit_of_mem_decimal digit)
  · decide
  · exact visible_of_isDigit (isDigit_of_mem_decimal digit)
  · decide
  · exact visible_of_isDigit (isDigit_of_mem_decimal digit)
  · decide
  · exact visible_of_isDigit (isDigit_of_mem_decimal digit)

theorem ip2Num_dottedQuad (digits : Digits platform) (address : UInt32) :
    ip2Num platform (dottedQuad address) = some (address.toNat : Int) := by
  have top := address.toNat_lt
  have visible : trim (dottedQuad address) ≠ [] := by
    rw [trim_of_visible fun _ member => visible_of_mem_dottedQuad member]
    exact List.ne_nil_of_mem (dot_mem_dottedQuad address)
  rw [ip2Num, if_neg visible, split_dottedQuad]
  simp only [List.foldlM_cons, List.foldlM_nil]
  rw [parseInt_decimal digits (by omega), parseInt_decimal digits (by omega),
    parseInt_decimal digits (by omega), parseInt_decimal digits (by omega)]
  simp only [Option.map_some, Option.bind_eq_bind, Option.bind_some,
    Option.pure_def, Option.some.injEq]
  have start := @ip2Num_step 0 (address.toNat / 2 ^ 24) (by omega) (by omega)
  rw [Nat.cast_zero] at start
  rw [start, ip2Num_step (by omega) (by omega),
    ip2Num_step (by omega) (by omega), ip2Num_step (by omega) (by omega),
    Int.natCast_inj]
  omega

end Address

/-! ## The loop as a search -/

section Loop

variable {ipNodes : List IpNode} {ipNum : Int}

/-- The verdicts of the search for an address. -/
abbrev verdicts (ipNodes : List IpNode) (ipNum : Int) : Nat → Ordering :=
  verdict IpNode.ip1 IpNode.ip2 ipNodes ipNum

/-- The place of the node at an index. -/
def placeOf (ipNodes : List IpNode) (index : Option Nat) : JavaString :=
  match index.bind (fun index => ipNodes[index]?) with
  | none => []
  | some node => node.addr

variable {low stop rounds : Nat}

theorem toNat_middle (nonempty : low < stop) :
    (low : Int) + ((stop : Int) - 1 - low) / 2 = (middle low stop : Nat) := by
  unfold middle
  omega

/-- One round. -/
theorem loop_succ (nonempty : low < stop) (inside : stop ≤ ipNodes.length) :
    loop ipNodes ipNum (rounds + 1) low (stop - 1) =
      match verdicts ipNodes ipNum (middle low stop) with
      | .lt => loop ipNodes ipNum rounds low ((middle low stop : Nat) - 1)
      | .gt =>
          loop ipNodes ipNum rounds ((middle low stop + 1 : Nat)) (stop - 1)
      | .eq =>
          some (.returned (placeOf ipNodes (some (middle low stop)))) := by
  have present : middle low stop < ipNodes.length :=
    (middle_lt nonempty).trans_le inside
  have ordered : (low : Int) ≤ (stop : Int) - 1 := by omega
  have read : get ipNodes (middle low stop : Nat) =
      some ipNodes[middle low stop] := by
    rw [get, if_pos (by omega), Int.toNat_natCast,
      List.getElem?_eq_getElem present]
  rw [loop, if_pos ordered]
  simp only [toNat_middle nonempty, read, placeOf, Option.bind_some,
    List.getElem?_eq_getElem present]
  cases seen : verdicts ipNodes ipNum (middle low stop) with
  | lt =>
      have front := (verdict_lt_iff present).mp seen
      rw [if_neg fun contains => not_lt.mpr contains.1 front, if_pos front]
  | eq => exact if_pos ((verdict_eq_iff present).mp seen)
  | gt =>
      have misses : ¬ Contains ipNodes[middle low stop] ipNum := by
        intro contains
        cases seen.symm.trans ((verdict_eq_iff present).mpr contains)
      have notFront : ¬ ipNodes[middle low stop].ip1 > ipNum := by
        intro front
        cases seen.symm.trans ((verdict_lt_iff present).mpr front)
      exact (if_neg misses).trans (if_neg notFront)

/-- The loop ends, and it is the search. -/
theorem loop_eq_search (inside : stop ≤ ipNodes.length)
    (enough : stop - low < rounds) (ordered : low ≤ stop) :
    loop ipNodes ipNum rounds low (stop - 1) =
      some (.returned (placeOf ipNodes
        (search (verdicts ipNodes ipNum) low stop))) := by
  obtain ⟨rounds, rfl⟩ : ∃ fewer, rounds = fewer + 1 :=
    ⟨rounds - 1, by omega⟩
  induction low, stop using search.induct (verdicts ipNodes ipNum)
    generalizing rounds with
  | case1 low stop nonempty left ih =>
      have below := middle_lt nonempty
      have above := low_le_middle nonempty
      obtain ⟨fewer, rfl⟩ : ∃ fewer, rounds = fewer + 1 :=
        ⟨rounds - 1, by omega⟩
      rw [loop_succ nonempty inside, left, search, if_pos nonempty, left]
      exact ih (by omega) above _ (by omega)
  | case2 low stop nonempty here =>
      rw [loop_succ nonempty inside, here, search, if_pos nonempty, here]
  | case3 low stop nonempty right ih =>
      have below := middle_lt nonempty
      have above := low_le_middle nonempty
      obtain ⟨fewer, rfl⟩ : ∃ fewer, rounds = fewer + 1 :=
        ⟨rounds - 1, by omega⟩
      rw [loop_succ nonempty inside, right, search, if_pos nonempty, right]
      exact ih inside (by omega) _ (by omega)
  | case4 low stop empty =>
      have crossed : ¬ (low : Int) ≤ (stop : Int) - 1 := by omega
      rw [loop, if_neg crossed, search, if_neg empty]
      rfl

end Loop

/-! ## The loaded ranges -/

section Loaded

variable {platform : Platform} {cityList lines : List JavaString}
  {nodes : List IpNode} {ipNum : Int}

theorem compare_le_iff {o1 o2 : IpNode} :
    compare o1 o2 ≤ 0 ↔ o1.ip1 ≤ o2.ip1 := by
  unfold compare
  split_ifs <;> omega

theorem sorted_readFile :
    (readFile platform cityList lines).Pairwise
      fun o1 o2 => o1.ip1 ≤ o2.ip1 := by
  have sorted := @List.pairwise_mergeSort _
    (fun o1 o2 : IpNode => decide (compare o1 o2 ≤ 0))
    (by simp only [decide_eq_true_eq, compare_le_iff]; omega)
    (by simp only [Bool.or_eq_true, decide_eq_true_eq, compare_le_iff]; omega)
    (loaded platform cityList lines)
  apply sorted.imp
  intro o1 o2 ordered
  exact compare_le_iff.mp (of_decide_eq_true ordered)

theorem readFile_perm :
    (readFile platform cityList lines).Perm
      (loaded platform cityList lines) :=
  List.mergeSort_perm _ _

theorem placeOf_search
    (table : DisjointRanges IpNode.ip1 IpNode.ip2
      (loaded platform cityList lines)) :
    placeOf (readFile platform cityList lines)
        (search (verdicts (readFile platform cityList lines) ipNum) 0
          (readFile platform cityList lines).length) =
      scanAddr (loaded platform cityList lines) ipNum := by
  have same := @readFile_perm platform cityList lines
  rw [placeOf, search_eq_scan (table.perm same.symm) sorted_readFile,
    scan_perm table same.symm]
  rfl

theorem locates_scanAddr (table : DisjointRanges IpNode.ip1 IpNode.ip2 nodes) :
    Locates nodes ipNum (scanAddr nodes ipNum) where
  inside node member contains := by
    rw [scanAddr, (scan_eq_some_iff table).mpr ⟨member, contains⟩]
  outside nowhere := by
    rw [scanAddr, scan_eq_none_iff.mpr nowhere]
  scanned := rfl

/-- Where no two ranges of the file share an address, every search ends with
what a scan of the ranges finds. -/
theorem getAddrByIp_scans (digits : Digits platform)
    (disjoint : DisjointRanges IpNode.ip1 IpNode.ip2
      (loaded platform cityList lines)) (address : UInt32) :
    ∃ rounds answer,
      getAddrByIp platform (readFile platform cityList lines)
          (dottedQuad address) rounds = some (.returned answer) ∧
        Locates (loaded platform cityList lines) address.toNat answer := by
  refine ⟨(readFile platform cityList lines).length + 1, _, ?_,
    locates_scanAddr disjoint⟩
  rw [getAddrByIp, ip2Num_dottedQuad digits, ← placeOf_search disjoint]
  exact loop_eq_search le_rfl (by omega) (Nat.zero_le _)

end Loaded

theorem loaded_two :
    loaded asciiPlatform [text "南京", text "北京"]
        [text "58.192.0.0\t58.192.15.255  江苏省南京市 教育网",
          text "1.1.0.0 1.1.0.7 北京市"] =
      [⟨985661440, 985665535, text "南京"⟩,
        ⟨16842752, 16842759, text "北京"⟩] := by
  decide +kernel

/-- Two ranges, which the file has in the other order. -/
theorem getAddrByIp_scans_two :
    ∃ rounds answer,
      getAddrByIp asciiPlatform
          (readFile asciiPlatform [text "南京", text "北京"]
            [text "58.192.0.0\t58.192.15.255  江苏省南京市 教育网",
              text "1.1.0.0 1.1.0.7 北京市"])
          (dottedQuad 985665535) rounds = some (.returned answer) ∧
        Locates
          [⟨985661440, 985665535, text "南京"⟩,
            ⟨16842752, 16842759, text "北京"⟩] 985665535 answer := by
  have disjoint : DisjointRanges IpNode.ip1 IpNode.ip2
      (loaded asciiPlatform [text "南京", text "北京"]
        [text "58.192.0.0\t58.192.15.255  江苏省南京市 教育网",
          text "1.1.0.0 1.1.0.7 北京市"]) := by
    rw [loaded_two]
    constructor
    case ranges => decide
    case apart =>
      simp only [List.pairwise_cons, List.mem_cons, List.not_mem_nil,
        WindowSystem.Library.RangeTable.Contains]
      grind
  rw [← loaded_two]
  exact getAddrByIp_scans digits_asciiPlatform disjoint 985665535
end WindowSystem.Sspserver.IpSearch
