import Mathlib.Algebra.Order.Ring.Int
import WindowSystem.Sspserver.JavaRuntime

/-!
# Numbers as Java strings

The decimal numerals that Java prints for numbers that are not negative, and
what `Integer.parseInt` and `Long.parseLong` make of them.
-/

namespace WindowSystem.HidataFramework.JavaNumbers

open WindowSystem.Sspserver.JavaRuntime

/-- `String.valueOf` of a number that is not negative. -/
def decimal (number : Nat) : JavaString :=
  Nat.toDigits 10 number

/-- The values of a `long`. -/
def inLong (value : Int) : Option Int :=
  if -9223372036854775808 ≤ value ∧ value ≤ 9223372036854775807 then
    some value
  else none

/-- `Long.parseLong` -/
def parseLong (platform : Platform) : JavaString → Option Int
  | '-' :: digits => (readNumber platform digits).bind fun n => inLong (-n)
  | '+' :: digits => (readNumber platform digits).bind fun n => inLong n
  | digits => (readNumber platform digits).bind fun n => inLong n

/-- `Character.digit` knows the ASCII digits. -/
structure Digits (platform : Platform) : Prop where
  ascii : ∀ character : Char, character.isDigit = true →
    platform.digit character = some (character.toNat - 48)

theorem digits_asciiPlatform : Digits asciiPlatform where
  ascii character isDigit := by
    simp only [Char.isDigit, Bool.and_eq_true, decide_eq_true_eq] at isDigit
    exact if_pos isDigit

/-! ## Numerals -/

variable {platform : Platform} {number : Nat}

theorem isDigit_of_mem_decimal {character : Char}
    (member : character ∈ decimal number) : character.isDigit = true :=
  Nat.isDigit_of_mem_toDigits (by omega) (by omega) member

theorem not_mem_decimal {character : Char}
    (noDigit : character.isDigit = false) : character ∉ decimal number := by
  intro member
  rw [isDigit_of_mem_decimal member] at noDigit
  cases noDigit

theorem readDigits_of_isDigit (digits : Digits platform)
    {string : JavaString} {value : Nat}
    (all : ∀ character ∈ string, character.isDigit = true) :
    readDigits platform value string =
      some (Nat.ofDigitChars 10 string value) := by
  induction string generalizing value with
  | nil => rfl
  | cons first rest ih =>
      obtain ⟨isDigit, others⟩ := List.forall_mem_cons.mp all
      rw [readDigits, digits.ascii first isDigit, Option.bind_some,
        ih others, Nat.ofDigitChars_cons, Nat.mul_comm]
      rfl

/-- A numeral is read back. -/
theorem readNumber_decimal (digits : Digits platform) (number : Nat) :
    readNumber platform (decimal number) = some number := by
  rw [readNumber, readDigits_of_isDigit digits fun _ member =>
      isDigit_of_mem_decimal member, decimal, if_neg Nat.toDigits_ne_nil,
    Nat.ofDigitChars_toDigits (by omega) (by omega)]

theorem head_decimal (number : Nat) :
    ∃ first rest, decimal number = first :: rest ∧
      first.isDigit = true := by
  obtain ⟨first, rest, printed⟩ :=
    List.exists_cons_of_ne_nil (@Nat.toDigits_ne_nil number 10)
  refine ⟨first, rest, printed, @isDigit_of_mem_decimal number first ?_⟩
  rw [decimal, printed]
  exact List.mem_cons_self

theorem ne_of_isDigit {first sign : Char} (isDigit : first.isDigit = true)
    (noDigit : sign.isDigit = false) : first ≠ sign := by
  rintro rfl
  rw [isDigit] at noDigit
  cases noDigit

/-- A string that begins with a digit has no sign. -/
theorem parseInt_of_isDigit {first : Char} {rest : JavaString}
    (isDigit : first.isDigit = true) :
    parseInt platform (first :: rest) =
      (readNumber platform (first :: rest)).bind fun n => inInt n := by
  unfold parseInt
  split
  case h_1 equal =>
    exact absurd (List.cons.inj equal).1 (ne_of_isDigit isDigit rfl)
  case h_2 equal =>
    exact absurd (List.cons.inj equal).1 (ne_of_isDigit isDigit rfl)
  case h_3 => rfl

theorem parseLong_of_isDigit {first : Char} {rest : JavaString}
    (isDigit : first.isDigit = true) :
    parseLong platform (first :: rest) =
      (readNumber platform (first :: rest)).bind fun n => inLong n := by
  unfold parseLong
  split
  case h_1 equal =>
    exact absurd (List.cons.inj equal).1 (ne_of_isDigit isDigit rfl)
  case h_2 equal =>
    exact absurd (List.cons.inj equal).1 (ne_of_isDigit isDigit rfl)
  case h_3 => rfl

theorem parseInt_decimal (digits : Digits platform)
    (small : number < 2 ^ 31) :
    parseInt platform (decimal number) = some (number : Int) := by
  have read := readNumber_decimal digits number
  obtain ⟨first, rest, printed, isDigit⟩ := head_decimal number
  rw [printed] at read ⊢
  rw [parseInt_of_isDigit isDigit, read, Option.bind_some, inInt,
    if_pos (by omega)]

theorem parseLong_decimal (digits : Digits platform)
    (small : number < 2 ^ 63) :
    parseLong platform (decimal number) = some (number : Int) := by
  have read := readNumber_decimal digits number
  obtain ⟨first, rest, printed, isDigit⟩ := head_decimal number
  rw [printed] at read ⊢
  rw [parseLong_of_isDigit isDigit, read, Option.bind_some, inLong,
    if_pos (by omega)]

end WindowSystem.HidataFramework.JavaNumbers
