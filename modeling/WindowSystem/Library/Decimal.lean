import Mathlib.Data.List.Basic
import Mathlib.Data.Nat.Basic
import Mathlib.Tactic.IntervalCases

/-!
# Decimal numerals as byte strings

The numerals that `%u` and `%d` print and the value that a digit loop reads
back from them.
-/

namespace WindowSystem.Library.Decimal

/-- The byte is one of the characters `0` to `9`. -/
def isDigit (byte : UInt8) : Bool :=
  48 ≤ byte && byte ≤ 57

/-- The decimal numeral of a natural number. -/
def decimal (number : Nat) : List UInt8 :=
  (Nat.toDigits 10 number).map fun digit => digit.toNat.toUInt8

/-- The decimal numeral of an integer, with a minus sign when negative. -/
def decimalInt : Int → List UInt8
  | .ofNat number => decimal number
  | .negSucc number => 45 :: decimal (number + 1)

/-- The number that a digit loop accumulates. -/
def readDigits (initial : Nat) (digits : List UInt8) : Nat :=
  digits.foldl (fun value digit => 10 * value + (digit.toNat - 48)) initial

theorem char_digit_byte {digit : Char} (isDecimal : digit.isDigit) :
    digit.toNat.toUInt8.toNat = digit.toNat ∧
      48 ≤ digit.toNat ∧ digit.toNat ≤ 57 := by
  simp only [Char.isDigit, Bool.and_eq_true, decide_eq_true_eq] at isDecimal
  obtain ⟨low, high⟩ := isDecimal
  have lower : 48 ≤ digit.toNat := low
  have upper : digit.toNat ≤ 57 := high
  refine ⟨?_, lower, upper⟩
  simp only [Nat.toUInt8_eq, UInt8.toNat_ofNat']
  omega

theorem isDigit_of_mem_decimal {number : Nat} {byte : UInt8}
    (member : byte ∈ decimal number) :
    isDigit byte = true := by
  obtain ⟨digit, digitMember, rfl⟩ := List.mem_map.mp member
  have classified :=
    char_digit_byte
      (Nat.isDigit_of_mem_toDigits (by omega) (by omega) digitMember)
  simp only [isDigit, Bool.and_eq_true, decide_eq_true_eq,
    UInt8.le_iff_toNat_le, classified.1]
  exact classified.2

theorem not_mem_decimal {number : Nat} {byte : UInt8}
    (noDigit : isDigit byte = false) : byte ∉ decimal number := by
  intro member
  rw [isDigit_of_mem_decimal member] at noDigit
  cases noDigit

@[simp]
theorem decimal_ne_nil (number : Nat) : decimal number ≠ [] := by
  simp [decimal]

theorem length_decimal_le {number digits : Nat}
    (positive : 0 < digits) (small : number < 10 ^ digits) :
    (decimal number).length ≤ digits := by
  rw [decimal, List.length_map]
  exact (Nat.length_toDigits_le_iff (by omega) positive).mpr small

/-- Reading a numeral back gives the number. -/
theorem readDigits_decimal (number : Nat) :
    readDigits 0 (decimal number) = number := by
  have agree :
      ∀ (digits : List Char) (initial : Nat),
        (∀ digit ∈ digits, digit.isDigit) →
          readDigits initial
              (digits.map fun digit => digit.toNat.toUInt8) =
            Nat.ofDigitChars 10 digits initial := by
    intro digits
    induction digits with
    | nil =>
        intro initial _
        rfl
    | cons digit rest induction =>
        intro initial allDigits
        have first := (char_digit_byte (allDigits digit (by simp))).1
        rw [Nat.ofDigitChars_cons,
          ← induction _ fun other member =>
            allDigits other (List.mem_cons_of_mem _ member)]
        simp only [List.map_cons, readDigits, List.foldl_cons, first]
        rfl
  rw [decimal, agree _ _ fun digit member =>
    Nat.isDigit_of_mem_toDigits (by omega) (by omega) member]
  exact Nat.ofDigitChars_toDigits (by omega) (by omega)

theorem decimalInt_ne_nil (number : Int) : decimalInt number ≠ [] := by
  cases number <;> simp [decimalInt]

theorem length_decimalInt_le {number : Int} {digits : Nat}
    (positive : 0 < digits) (small : number.natAbs < 10 ^ digits) :
    (decimalInt number).length ≤ digits + 1 := by
  cases number with
  | ofNat number =>
      exact Nat.le_succ_of_le (length_decimal_le positive small)
  | negSucc number =>
      exact Nat.succ_le_succ (length_decimal_le positive small)

/-- The bytes of an integer numeral are digits and a minus sign. -/
theorem mem_decimalInt {number : Int} {byte : UInt8}
    (member : byte ∈ decimalInt number) :
    byte = 45 ∨ isDigit byte = true := by
  cases number with
  | ofNat number => exact Or.inr (isDigit_of_mem_decimal member)
  | negSucc number =>
      rcases List.mem_cons.mp member with sign | digit
      · exact Or.inl sign
      · exact Or.inr (isDigit_of_mem_decimal digit)

/-- Numerals hold no byte that is neither a digit nor a minus sign. -/
theorem not_mem_decimalInt {number : Int} {byte : UInt8}
    (noSign : byte ≠ 45) (noDigit : isDigit byte = false) :
    byte ∉ decimalInt number := by
  intro member
  rcases mem_decimalInt member with sign | digit
  · exact noSign sign
  · rw [digit] at noDigit
    cases noDigit

end WindowSystem.Library.Decimal
