import Mathlib.Tactic.Ring
import WindowSystem.Admanager.EditAdPlan
import WindowSystem.HidataFramework.JavaNumbers

/-!
# `IPCheck`: whether an address belongs to a network

`isSameNetWork` compares an address under the mask of a range with the address
in front of the slash as it is written.  A text that has not four parts is
encoded as `-1`, a part that is no number throws an exception.
-/

namespace WindowSystem.HidataFramework.IPCheck

open WindowSystem.Admanager.EditAdPlan (trim)
open WindowSystem.HidataFramework.JavaNumbers
open WindowSystem.Sspserver.JavaRuntime

/-! ## The program -/

/-- `mask_array`: the literals are of type `int`. -/
def mask_array : List (BitVec 64) :=
  [0x0, 0x80000000, 0xc0000000,
    0xe0000000, 0xf0000000, 0xf8000000, 0xfc000000, 0xfe000000,
    0xff000000, 0xff800000, 0xffc00000, 0xffe00000, 0xfff00000,
    0xfff80000, 0xfffc0000, 0xfffe0000, 0xffff0000, 0xffff8000,
    0xffffc000, 0xffffe000, 0xfffff000, 0xfffff800, 0xfffffc00,
    0xfffffe00, 0xffffff00, 0xffffff80, 0xffffffc0, 0xffffffe0,
    0xfffffff0, 0xfffffff8, 0xfffffffc, 0xfffffffe, 0xffffffff].map
      fun literal : BitVec 32 => literal.signExtend 64

section Program

variable (platform : Platform)

/-- `Long.valueOf(seg.trim())`; `none` is a `NumberFormatException`. -/
def valueOf (seg : JavaString) : Option (BitVec 64) :=
  (parseLong platform (trim seg)).map fun value => BitVec.ofInt 64 value

/-- `convert2Long` -/
def convert2Long (ip : JavaString) : Option (BitVec 64) :=
  match split '.' ip with
  | [seg0, seg1, seg2, seg3] => do
      let value0 ← valueOf platform seg0
      let value1 ← valueOf platform seg1
      let value2 ← valueOf platform seg2
      let value3 ← valueOf platform seg3
      return value0 <<< 24 ||| value1 <<< 16 ||| value2 <<< 8 |||
        value3 <<< 0
  | _ => some (-1)

/-- `isSameNetWork` -/
def isSameNetWork (ip ip_range : JavaString) : Option Bool :=
  match split '/' ip_range with
  | [base, length] => do
      let mask ← parseInt platform length
      if mask < 0 ∨ mask > 32 then
        return false
      else if mask = 32 then
        return ip == base
      else
        let address ← convert2Long platform ip
        let network ← convert2Long platform base
        return (address &&& mask_array.getD mask.toNat 0) == network
  | _ => some false

end Program

/-! ## Addresses and ranges -/

/-- An address as a dotted quad. -/
def dottedQuad (address : UInt32) : JavaString :=
  decimal (address.toNat / 2 ^ 24) ++ '.' ::
    (decimal (address.toNat / 2 ^ 16 % 256) ++ '.' ::
      (decimal (address.toNat / 2 ^ 8 % 256) ++ '.' ::
        decimal (address.toNat % 256)))

/-- `base/n` -/
def rangeText (base : UInt32) (n : Nat) : JavaString :=
  dottedQuad base ++ '/' :: decimal n

/-- The first `n` bits of an address. -/
def network (address : UInt32) (n : Nat) : Nat :=
  address.toNat / 2 ^ (32 - n)

/-- Two addresses with the same first bits, as the claim has them. -/
def SameNetwork (ip ip_range : JavaString) : Prop :=
  ∃ address base n, n ≤ 32 ∧ ip = dottedQuad address ∧
    ip_range = rangeText base n ∧ network address n = network base n

/-- The program answers whether the address belongs to the network. -/
def Answers (platform : Platform) (ip ip_range : JavaString) : Prop :=
  ∃ answer, isSameNetWork platform ip ip_range = some answer ∧
    (answer = true ↔ SameNetwork ip ip_range)

example : isSameNetWork asciiPlatform (text "210.0.217.179")
    (text "210.0.128.0/17") = some true := by
  decide +kernel

/-! ## Masks -/

theorem and_shiftLeft_allOnes {w : Nat} (x : BitVec w) (k : Nat) :
    x &&& BitVec.allOnes w <<< k = (x >>> k) <<< k := by
  apply BitVec.eq_of_getLsbD_eq
  intro i inside
  rcases lt_or_ge i k with low | high
  · simp [low]
  · have moved : k + (i - k) = i := by omega
    simp [not_lt.mpr high, inside, moved]

theorem mask_array_of_lt :
    ∀ n < 32, n ≠ 0 →
      mask_array.getD n 0 = BitVec.allOnes 64 <<< (32 - n) := by
  decide +kernel

theorem mask_array_even :
    ∀ n < 32, (mask_array.getD n 0).getLsbD 0 = false := by
  decide +kernel

/-- Under a mask the first bits are left. -/
theorem toNat_and_mask {x n : Nat} (address : x < 2 ^ 32) (small : n < 32) :
    (BitVec.ofNat 64 x &&& mask_array.getD n 0).toNat =
      x / 2 ^ (32 - n) * 2 ^ (32 - n) := by
  rcases Nat.eq_zero_or_pos n with rfl | positive
  · have zero : mask_array.getD 0 0 = 0#64 := rfl
    rw [zero, BitVec.and_zero, Nat.div_eq_of_lt address, Nat.zero_mul]
    rfl
  · have kept := Nat.div_mul_le_self x (2 ^ (32 - n))
    rw [mask_array_of_lt n small (by omega), and_shiftLeft_allOnes,
      BitVec.toNat_shiftLeft, BitVec.toNat_ushiftRight, BitVec.toNat_ofNat,
      @Nat.mod_eq_of_lt x _ (by omega), Nat.shiftRight_eq_div_pow,
      Nat.shiftLeft_eq, Nat.mod_eq_of_lt (by omega)]

/-! ## Reading an address -/

section Reading

variable {platform : Platform}

theorem split_eq_of_last {separator : Char} {string last : JavaString}
    {front : List JavaString}
    (parts : string.splitOn separator = front ++ [last])
    (nonempty : last ≠ []) :
    split separator string = front ++ [last] := by
  by_cases present : separator ∈ string
  · rw [split, if_pos present, parts, List.reverse_append,
      List.reverse_singleton, List.singleton_append,
      List.dropWhile_cons_of_neg (by simp [nonempty]), List.reverse_cons,
      List.reverse_reverse]
  · rw [split, if_neg present, ← parts,
      List.splitOn_eq_singleton present]

theorem split_dottedQuad (address : UInt32) :
    split '.' (dottedQuad address) =
      [decimal (address.toNat / 2 ^ 24),
        decimal (address.toNat / 2 ^ 16 % 256),
        decimal (address.toNat / 2 ^ 8 % 256),
        decimal (address.toNat % 256)] := by
  have noDot : ∀ number, '.' ∉ decimal number :=
    fun number => not_mem_decimal rfl
  apply @split_eq_of_last '.' (dottedQuad address) _
    [decimal (address.toNat / 2 ^ 24),
      decimal (address.toNat / 2 ^ 16 % 256),
      decimal (address.toNat / 2 ^ 8 % 256)] _ Nat.toDigits_ne_nil
  rw [dottedQuad, List.splitOn_append_cons_self_of_not_mem (noDot _),
    List.splitOn_append_cons_self_of_not_mem (noDot _),
    List.splitOn_append_cons_self_of_not_mem (noDot _),
    List.splitOn_eq_singleton (noDot _)]
  rfl

theorem split_rangeText (base : UInt32) (n : Nat) :
    split '/' (rangeText base n) = [dottedQuad base, decimal n] := by
  have noSlash : ∀ number, '/' ∉ decimal number :=
    fun number => not_mem_decimal rfl
  have noSlashToo : '/' ∉ dottedQuad base := by
    simp [dottedQuad, noSlash]
  apply @split_eq_of_last '/' (rangeText base n) _ [dottedQuad base] _
    Nat.toDigits_ne_nil
  rw [rangeText, List.splitOn_append_cons_self_of_not_mem noSlashToo,
    List.splitOn_eq_singleton (noSlash _)]
  rfl

theorem visible_of_isDigit {character : Char}
    (isDigit : character.isDigit = true) : ¬ character ≤ ' ' := by
  intro blank
  simp only [Char.isDigit, Bool.and_eq_true, decide_eq_true_eq] at isDigit
  rw [char_le_iff] at blank
  have low : 48 ≤ character.toNat := isDigit.1
  simp only [Char.reduceToNat] at blank
  omega

theorem trim_of_visible {string : JavaString}
    (visible : ∀ character ∈ string, ¬ character ≤ ' ') :
    trim string = string := by
  have front : ∀ string : JavaString,
      (∀ character ∈ string, ¬ character ≤ ' ') →
        string.dropWhile (· ≤ ' ') = string := by
    intro string all
    cases string with
    | nil => rfl
    | cons first rest =>
        apply List.dropWhile_cons_of_neg
        simpa using all first List.mem_cons_self
  rw [trim, front _ visible, front _ fun character member =>
    visible character (List.mem_reverse.mp member), List.reverse_reverse]

theorem trim_decimal (number : Nat) : trim (decimal number) = decimal number :=
  trim_of_visible fun _ member =>
    visible_of_isDigit (isDigit_of_mem_decimal member)

theorem valueOf_decimal (digits : Digits platform) {number : Nat}
    (small : number < 256) :
    valueOf platform (decimal number) = some (BitVec.ofNat 64 number) := by
  rw [valueOf, trim_decimal, parseLong_decimal digits (by omega)]
  rfl

theorem toNat_shifted {x k : Nat} (byte : x < 256) (small : k ≤ 24) :
    (BitVec.ofNat 64 x <<< k).toNat = x * 2 ^ k := by
  have bound : x * 2 ^ k ≤ 256 * 2 ^ 24 :=
    Nat.mul_le_mul byte.le (Nat.pow_le_pow_right (by omega) small)
  rw [BitVec.toNat_shiftLeft, BitVec.toNat_ofNat, Nat.shiftLeft_eq,
    @Nat.mod_eq_of_lt x _ (by omega), Nat.mod_eq_of_lt (by omega)]

theorem or_eq_add {high low k : Nat} (small : low < 2 ^ k) :
    high * 2 ^ k ||| low = high * 2 ^ k + low := by
  rw [← Nat.shiftLeft_eq, Nat.shiftLeft_add_eq_or_of_lt small]

/-- Four bytes, one behind the other. -/
theorem or_bytes {a b c d : Nat} (a_lt : a < 256) (b_lt : b < 256)
    (c_lt : c < 256) (d_lt : d < 256) :
    BitVec.ofNat 64 a <<< 24 ||| BitVec.ofNat 64 b <<< 16 |||
        BitVec.ofNat 64 c <<< 8 ||| BitVec.ofNat 64 d <<< 0 =
      BitVec.ofNat 64 (a * 2 ^ 24 + b * 2 ^ 16 + c * 2 ^ 8 + d) := by
  apply BitVec.eq_of_toNat_eq
  simp only [BitVec.toNat_or]
  rw [toNat_shifted a_lt (by omega), toNat_shifted b_lt (by omega),
    toNat_shifted c_lt (by omega), toNat_shifted d_lt (by omega),
    BitVec.toNat_ofNat, Nat.mod_eq_of_lt (by omega), or_eq_add (by omega)]
  have second : a * 2 ^ 24 + b * 2 ^ 16 = (a * 2 ^ 8 + b) * 2 ^ 16 := by
    omega
  have third : a * 2 ^ 24 + b * 2 ^ 16 + c * 2 ^ 8 =
      (a * 2 ^ 16 + b * 2 ^ 8 + c) * 2 ^ 8 := by
    ring
  rw [second, or_eq_add (by omega), ← second, third, or_eq_add (by omega),
    ← third, Nat.pow_zero, Nat.mul_one]

theorem convert2Long_of_split (digits : Digits platform)
    {ip : JavaString} {a b c d : Nat} (a_lt : a < 256) (b_lt : b < 256)
    (c_lt : c < 256) (d_lt : d < 256)
    (parts : split '.' ip = [decimal a, decimal b, decimal c, decimal d]) :
    convert2Long platform ip =
      some (BitVec.ofNat 64 (a * 2 ^ 24 + b * 2 ^ 16 + c * 2 ^ 8 + d)) := by
  rw [convert2Long, parts, ← or_bytes a_lt b_lt c_lt d_lt]
  simp only [valueOf_decimal digits a_lt, valueOf_decimal digits b_lt,
    valueOf_decimal digits c_lt, valueOf_decimal digits d_lt,
    Option.bind_eq_bind, Option.bind_some, Option.pure_def]

theorem convert2Long_dottedQuad (digits : Digits platform)
    (address : UInt32) :
    convert2Long platform (dottedQuad address) =
      some (BitVec.ofNat 64 address.toNat) := by
  have small := address.toNat_lt
  rw [convert2Long_of_split digits (by omega) (by omega) (by omega)
    (by omega) (split_dottedQuad address)]
  apply congrArg fun value => some (BitVec.ofNat 64 value)
  omega

end Reading

/-! ## Well-formed addresses and ranges -/

section WellFormed

variable {platform : Platform}

theorem dottedQuad_injective {address other : UInt32}
    (same : dottedQuad address = dottedQuad other) : address = other := by
  have read := convert2Long_dottedQuad digits_asciiPlatform address
  rw [same, convert2Long_dottedQuad digits_asciiPlatform other,
    Option.some.injEq] at read
  have small := address.toNat_lt
  have smallToo := other.toNat_lt
  have numbers := congrArg BitVec.toNat read
  rw [BitVec.toNat_ofNat, BitVec.toNat_ofNat, Nat.mod_eq_of_lt (by omega),
    Nat.mod_eq_of_lt (by omega)] at numbers
  exact UInt32.toNat.inj numbers.symm

theorem decimal_injective {number other : Nat}
    (same : decimal number = decimal other) : number = other := by
  have read := readNumber_decimal digits_asciiPlatform number
  rw [same, readNumber_decimal digits_asciiPlatform, Option.some.injEq] at read
  exact read.symm

theorem rangeText_injective {base other : UInt32} {n m : Nat}
    (same : rangeText base n = rangeText other m) : base = other ∧ n = m := by
  have parts := split_rangeText base n
  rw [same, split_rangeText, List.cons.injEq, List.cons.injEq] at parts
  exact ⟨(dottedQuad_injective parts.1).symm,
    (decimal_injective parts.2.1).symm⟩

theorem sameNetwork_iff {address base : UInt32} {n : Nat} (small : n ≤ 32) :
    SameNetwork (dottedQuad address) (rangeText base n) ↔
      network address n = network base n := by
  constructor
  · rintro ⟨address', base', n', -, addresses, ranges, same⟩
    obtain ⟨rfl, rfl⟩ := rangeText_injective ranges
    obtain rfl := dottedQuad_injective addresses
    exact same
  · intro same
    exact ⟨address, base, n, small, rfl, rfl, same⟩

/-- What the program answers for well-formed texts. -/
theorem isSameNetWork_wellFormed (digits : Digits platform)
    (address base : UInt32) {n : Nat} (small : n ≤ 32) :
    isSameNetWork platform (dottedQuad address) (rangeText base n) =
      some (decide (network address n * 2 ^ (32 - n) = base.toNat)) := by
  have addressSmall := address.toNat_lt
  have baseSmall := base.toNat_lt
  rw [isSameNetWork, split_rangeText]
  simp only [parseInt_decimal digits (show n < 2 ^ 31 by omega),
    convert2Long_dottedQuad digits, Option.bind_eq_bind, Option.bind_some,
    Option.pure_def, Int.toNat_natCast]
  rw [if_neg (by omega)]
  rcases Nat.eq_or_lt_of_le small with rfl | short
  · have full : network address 32 * 2 ^ (32 - 32) = address.toNat := by
      rw [network, Nat.sub_self, Nat.pow_zero, Nat.div_one, Nat.mul_one]
    rw [if_pos (by rfl), full, Option.some.injEq, Bool.eq_iff_iff, beq_iff_eq,
      decide_eq_true_eq]
    constructor
    · exact fun same => congrArg UInt32.toNat (dottedQuad_injective same)
    · exact fun same => congrArg dottedQuad (UInt32.toNat.inj same)
  · rw [if_neg (by omega), Option.some.injEq, Bool.eq_iff_iff, beq_iff_eq,
      decide_eq_true_eq, ← BitVec.toNat_inj,
      toNat_and_mask addressSmall short, BitVec.toNat_ofNat,
      Nat.mod_eq_of_lt (by omega), network]

/-- The answer for well-formed texts is right exactly if the base has no bits
after the prefix or the prefixes differ. -/
theorem network_mul_eq_iff {address base : UInt32} {n : Nat} :
    (network address n * 2 ^ (32 - n) = base.toNat ↔
        network address n = network base n) ↔
      base.toNat % 2 ^ (32 - n) = 0 ∨
        network address n ≠ network base n := by
  have split := Nat.div_add_mod' base.toNat (2 ^ (32 - n))
  have positive : 0 < 2 ^ (32 - n) := Nat.two_pow_pos _
  unfold network
  constructor
  · intro right
    by_cases same : address.toNat / 2 ^ (32 - n) = base.toNat / 2 ^ (32 - n)
    · have aligned := right.mpr same
      rw [same] at aligned
      left
      omega
    · exact .inr same
  · rintro (aligned | differ)
    · constructor
      · intro masked
        rw [← masked, Nat.mul_div_cancel _ positive]
      · intro same
        rw [same]
        omega
    · refine iff_of_false ?_ differ
      intro masked
      apply differ
      rw [← masked, Nat.mul_div_cancel _ positive]

end WellFormed

/-! ## Other texts -/

section Other

variable (platform : Platform)

/-- There are four parts between the dots. -/
def FourSegments (ip : JavaString) : Prop :=
  (split '.' ip).length = 4

/-- If there are four parts, they are numbers. -/
def Readable (ip : JavaString) : Prop :=
  FourSegments ip →
    ∀ seg ∈ split '.' ip, (parseLong platform (trim seg)).isSome = true

/-- The number of the parts, eight bits for each part behind the first. -/
def number (ip : JavaString) : BitVec 64 :=
  (split '.' ip).foldl
    (fun value seg => value <<< 8 ||| (valueOf platform seg).getD 0) 0

variable {platform} {ip : JavaString}

theorem isSome_valueOf {seg : JavaString} :
    (valueOf platform seg).isSome =
      (parseLong platform (trim seg)).isSome :=
  Option.isSome_map

theorem convert2Long_of_four (four : FourSegments ip)
    (readable : Readable platform ip) :
    convert2Long platform ip = some (number platform ip) := by
  have values := readable four
  obtain ⟨seg0, seg1, seg2, seg3, parts⟩ := List.length_eq_four.mp four
  simp only [parts, List.forall_mem_cons, ← isSome_valueOf,
    Option.isSome_iff_exists] at values
  obtain ⟨⟨value0, is0⟩, ⟨value1, is1⟩, ⟨value2, is2⟩, ⟨value3, is3⟩, -⟩ :=
    values
  rw [convert2Long, number, parts]
  simp [is0, is1, is2, is3, BitVec.shiftLeft_or_distrib,
    ← BitVec.shiftLeft_add]

theorem convert2Long_of_not_readable (unreadable : ¬ Readable platform ip) :
    convert2Long platform ip = none := by
  obtain ⟨four, part⟩ := Classical.not_imp.mp unreadable
  obtain ⟨seg0, seg1, seg2, seg3, parts⟩ := List.length_eq_four.mp four
  simp only [parts, List.forall_mem_cons, ← isSome_valueOf] at part
  rw [convert2Long, parts]
  cases is0 : valueOf platform seg0 with
  | none => simp [is0]
  | some value0 =>
      cases is1 : valueOf platform seg1 with
      | none => simp [is0, is1]
      | some value1 =>
          cases is2 : valueOf platform seg2 with
          | none => simp [is0, is1, is2]
          | some value2 =>
              cases is3 : valueOf platform seg3 with
              | none => simp [is0, is1, is2, is3]
              | some value3 => simp [is0, is1, is2, is3] at part

theorem convert2Long_of_not_four (notFour : ¬ FourSegments ip) :
    convert2Long platform ip = some (-1) := by
  rw [convert2Long]
  split
  case h_1 seg0 seg1 seg2 seg3 parts =>
    exact absurd (congrArg List.length parts) notFour
  case h_2 => rfl

variable (platform) in
/-- Under the mask of a length below 32 the two texts do not agree: all parts
are numbers, and if the base has four of them, then its number is neither the
masked number of an address with four parts nor, for another text, the mask
itself. -/
structure Differ (ip base : JavaString) (mask : Nat) : Prop where
  readableIp : Readable platform ip
  readableBase : Readable platform base
  masked : FourSegments base → FourSegments ip →
    number platform ip &&& mask_array.getD mask 0 ≠ number platform base
  notMask : FourSegments base → ¬ FourSegments ip →
    number platform base ≠ mask_array.getD mask 0

theorem masked_ne_minus_one {mask : Nat} (short : mask < 32)
    (x : BitVec 64) : x &&& mask_array.getD mask 0 ≠ -1 := by
  intro same
  have low := congrArg (fun value => value.getLsbD 0) same
  have even := mask_array_even mask short
  have odd : (-1 : BitVec 64).getLsbD 0 = true := rfl
  simp only [BitVec.getLsbD_and, even, Bool.and_false, odd] at low
  cases low

theorem minus_one_and (x : BitVec 64) : -1 &&& x = x :=
  BitVec.allOnes_and

theorem compared_eq_false_iff {base : JavaString} {mask : Nat}
    {left right : BitVec 64} (leftIs : convert2Long platform ip = some left)
    (rightIs : convert2Long platform base = some right) :
    (do
      let address ← convert2Long platform ip
      let network ← convert2Long platform base
      return (address &&& mask_array.getD mask 0) == network) =
        some false ↔
      left &&& mask_array.getD mask 0 ≠ right := by
  rw [leftIs, rightIs]
  simp only [Option.bind_eq_bind, Option.bind_some, Option.pure_def,
    Option.some.injEq, beq_eq_false_iff_ne]

/-- The comparison under a mask of a length below 32. -/
theorem masked_eq_false_iff {base : JavaString} {mask : Nat}
    (short : mask < 32) :
    (do
      let address ← convert2Long platform ip
      let network ← convert2Long platform base
      return (address &&& mask_array.getD mask 0) == network) =
        some false ↔
      Differ platform ip base mask := by
  by_cases readable : Readable platform ip ∧ Readable platform base
  case neg =>
    have fails : ¬ Differ platform ip base mask :=
      fun differ => readable ⟨differ.readableIp, differ.readableBase⟩
    refine iff_of_false ?_ fails
    rcases not_and_or.mp readable with unreadable | unreadable
    · simp [convert2Long_of_not_readable unreadable]
    · simp [convert2Long_of_not_readable unreadable]
  case pos =>
    have asFields : Differ platform ip base mask ↔
        (FourSegments base → FourSegments ip →
          number platform ip &&& mask_array.getD mask 0 ≠
            number platform base) ∧
        (FourSegments base → ¬ FourSegments ip →
          number platform base ≠ mask_array.getD mask 0) :=
      ⟨fun differ => ⟨differ.masked, differ.notMask⟩,
        fun fields => ⟨readable.1, readable.2, fields.1, fields.2⟩⟩
    rw [asFields]
    by_cases fourBase : FourSegments base
    · have right := convert2Long_of_four fourBase readable.2
      by_cases fourIp : FourSegments ip
      · have left := convert2Long_of_four fourIp readable.1
        rw [compared_eq_false_iff left right]
        exact ⟨fun differ => ⟨fun _ _ => differ, fun _ no => absurd fourIp no⟩,
          fun fields => fields.1 fourBase fourIp⟩
      · have left := @convert2Long_of_not_four platform ip fourIp
        rw [compared_eq_false_iff left right, minus_one_and]
        exact ⟨fun differ => ⟨fun _ yes => absurd yes fourIp,
            fun _ _ => differ.symm⟩,
          fun fields => (fields.2 fourBase fourIp).symm⟩
    · have right := @convert2Long_of_not_four platform base fourBase
      have vacuous : (FourSegments base → FourSegments ip →
          number platform ip &&& mask_array.getD mask 0 ≠
            number platform base) ∧
        (FourSegments base → ¬ FourSegments ip →
          number platform base ≠ mask_array.getD mask 0) :=
        ⟨fun yes => absurd yes fourBase, fun yes => absurd yes fourBase⟩
      refine iff_of_true ?_ vacuous
      by_cases fourIp : FourSegments ip
      · rw [compared_eq_false_iff (convert2Long_of_four fourIp readable.1) right]
        exact masked_ne_minus_one short _
      · rw [compared_eq_false_iff (convert2Long_of_not_four fourIp) right]
        exact masked_ne_minus_one short _

variable (platform) in
/-- A range without a base and a length is refused, and so is a length that is
out of bounds; otherwise the texts must differ. -/
def Refused (ip ip_range : JavaString) : Prop :=
  ∀ base length, split '/' ip_range = [base, length] →
    ∃ mask, parseInt platform length = some mask ∧
      (mask = 32 → ip ≠ base) ∧
      (0 ≤ mask → mask < 32 → Differ platform ip base mask.toNat)

theorem isSameNetWork_eq_false_iff {ip_range : JavaString} :
    isSameNetWork platform ip ip_range = some false ↔
      Refused platform ip ip_range := by
  rw [isSameNetWork]
  split
  case h_1 base length parts =>
    have only : Refused platform ip ip_range ↔
        ∃ mask, parseInt platform length = some mask ∧
          (mask = 32 → ip ≠ base) ∧
          (0 ≤ mask → mask < 32 → Differ platform ip base mask.toNat) := by
      constructor
      · exact fun refused => refused base length parts
      · intro conditions other otherLength otherParts
        rw [parts] at otherParts
        cases otherParts
        exact conditions
    rw [only]
    cases read : parseInt platform length with
    | none => simp
    | some mask =>
        simp only [Option.bind_eq_bind, Option.bind_some, Option.pure_def,
          Option.some.injEq, exists_eq_left']
        by_cases outside : mask < 0 ∨ mask > 32
        · rw [if_pos outside]
          refine iff_of_true rfl ⟨fun full => ?_, fun positive short => ?_⟩
          · omega
          · omega
        · rw [if_neg outside]
          by_cases full : mask = 32
          · subst full
            simp
          · have short : mask.toNat < 32 := by omega
            rw [if_neg full]
            refine (masked_eq_false_iff short).trans ⟨fun differ => ?_, ?_⟩
            · exact ⟨fun equal => absurd equal full, fun _ _ => differ⟩
            · exact fun conditions => conditions.2 (by omega) (by omega)
  case h_2 shape =>
    refine iff_of_true rfl ?_
    intro base length parts
    exact absurd parts (shape base length)

end Other

/-! ## When the program answers -/

section Answer

/-- An address and a range of addresses. -/
def WellFormed (ip ip_range : JavaString) : Prop :=
  ∃ address base n, n ≤ 32 ∧ ip = dottedQuad address ∧
    ip_range = rangeText base n

variable {platform : Platform} {ip ip_range : JavaString}

theorem answers_wellFormed_iff (digits : Digits platform)
    (address base : UInt32) {n : Nat} (small : n ≤ 32) :
    Answers platform (dottedQuad address) (rangeText base n) ↔
      base.toNat % 2 ^ (32 - n) = 0 ∨
        network address n ≠ network base n := by
  rw [Answers, isSameNetWork_wellFormed digits address base small,
    sameNetwork_iff small, ← network_mul_eq_iff]
  simp only [Option.some.injEq, exists_eq_left', decide_eq_true_eq]

theorem answers_malformed_iff (malformed : ¬ WellFormed ip ip_range) :
    Answers platform ip ip_range ↔ Refused platform ip ip_range := by
  have different : ¬ SameNetwork ip ip_range := by
    rintro ⟨address, base, n, small, addresses, ranges, -⟩
    exact malformed ⟨address, base, n, small, addresses, ranges⟩
  rw [← isSameNetWork_eq_false_iff]
  constructor
  · rintro ⟨answer, computed, right⟩
    have no : answer = false := by
      cases answer with
      | false => rfl
      | true => exact absurd (right.mp rfl) different
    rw [computed, no]
  · intro computed
    exact ⟨false, computed, iff_of_false Bool.false_ne_true different⟩

/-- For an address and a range of addresses the program is right exactly if
the base has no bits after the prefix or the prefixes differ; other texts are
refused as they should be exactly under the conditions of `Refused`. -/
theorem isSameNetWork_answers_iff (digits : Digits platform) :
    Answers platform ip ip_range ↔
      (∀ address base n, n ≤ 32 → ip = dottedQuad address →
          ip_range = rangeText base n →
          base.toNat % 2 ^ (32 - n) = 0 ∨
            network address n ≠ network base n) ∧
        (¬ WellFormed ip ip_range → Refused platform ip ip_range) := by
  by_cases wellFormed : WellFormed ip ip_range
  case pos =>
    obtain ⟨address, base, n, small, rfl, rfl⟩ := wellFormed
    rw [answers_wellFormed_iff digits address base small]
    constructor
    · intro right
      constructor
      · intro address' base' n' _ addresses ranges
        obtain ⟨rfl, rfl⟩ := rangeText_injective ranges
        obtain rfl := dottedQuad_injective addresses
        exact right
      · exact fun malformed =>
          absurd ⟨address, base, n, small, rfl, rfl⟩ malformed
    · exact fun conditions => conditions.1 address base n small rfl rfl
  case neg =>
    rw [answers_malformed_iff wellFormed]
    constructor
    · intro refused
      constructor
      · intro address base n small addresses ranges
        exact absurd ⟨address, base, n, small, addresses, ranges⟩ wellFormed
      · exact fun _ => refused
    · exact fun conditions => conditions.2 wellFormed

/-- The example of the documentation of `isSameNetWork`. -/
theorem documented_range_answered :
    Answers asciiPlatform (text "210.0.217.179")
      (text "210.0.128.0/17") := by
  have address : text "210.0.217.179" = dottedQuad 3523271091 := by
    decide +kernel
  have range : text "210.0.128.0/17" = rangeText 3523248128 17 := by
    decide +kernel
  apply (isSameNetWork_answers_iff digits_asciiPlatform).mpr
  constructor
  · intro address' base n _ _ ranges
    obtain ⟨rfl, rfl⟩ := rangeText_injective (range.symm.trans ranges)
    exact .inl (by decide)
  · exact fun malformed =>
      absurd ⟨_, _, 17, by decide, address, range⟩ malformed

/-- A base with a bit after the prefix, and a text that is no address in a
range of all addresses. -/
theorem host_bits_and_no_address :
    ¬ Answers asciiPlatform (text "210.0.217.179") (text "210.0.128.1/17") ∧
      ¬ Answers asciiPlatform (text "localhost") (text "0.0.0.0/0") := by
  constructor
  · have address : text "210.0.217.179" = dottedQuad 3523271091 := by
      decide +kernel
    have range : text "210.0.128.1/17" = rangeText 3523248129 17 := by
      decide +kernel
    rw [address, range,
      answers_wellFormed_iff digits_asciiPlatform _ _ (by decide)]
    decide
  · rintro ⟨answer, computed, right⟩
    have yes : isSameNetWork asciiPlatform (text "localhost")
        (text "0.0.0.0/0") = some true := by
      decide +kernel
    rw [yes, Option.some.injEq] at computed
    obtain ⟨address, -, -, -, addresses, -⟩ := right.mp computed.symm
    have parts := split_dottedQuad address
    rw [← addresses] at parts
    have onePart : (split '.' (text "localhost")).length = 1 := by
      decide +kernel
    rw [parts] at onePart
    cases onePart

end Answer

end WindowSystem.HidataFramework.IPCheck
