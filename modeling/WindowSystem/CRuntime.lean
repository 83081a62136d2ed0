import Mathlib.Data.List.TakeWhile
import Mathlib.Data.Int.Order.Basic
import WindowSystem.Library.Decimal
import WindowSystem.Library.Substring

/-!
# The parts of the C runtime that the programs use

Character strings are lists of bytes without their terminator.  The functions
below keep the names of the C library.  `int` values are integers; where a
wider value is stored into an `int`, `toInt32` wraps it around as the
two's-complement targets of the makefiles do.
-/

namespace WindowSystem.CRuntime

open WindowSystem.Library

/-- The bytes of a character string or of a memory area. -/
abbrev Bytes := List UInt8

/-- The bytes of an ASCII literal of the source. -/
def ascii (text : String) : Bytes :=
  text.toList.map fun character => character.toNat.toUInt8

/-- What a C string function sees of a memory area: the bytes before the
first zero byte. -/
def cString (memory : Bytes) : Bytes :=
  memory.takeWhile (· != 0)

theorem cString_eq_self {memory : Bytes} (noNul : 0 ∉ memory) :
    cString memory = memory := by
  rw [cString, List.takeWhile_eq_self_iff]
  intro byte member
  have nonzero : byte ≠ 0 := fun zero => noNul (zero ▸ member)
  simpa using nonzero

/-- A `char *` with the string it points to. -/
structure CharPointer where
  address : Nat
  text : Bytes
deriving DecidableEq

/-- A string written with its terminator into an array of `capacity` bytes;
`none` when it does not fit, which C leaves undefined. -/
def store (capacity : Nat) (text : Bytes) : Option Bytes :=
  if text.length < capacity then some text else none

@[simp]
theorem store_eq_some_iff {capacity : Nat} {text stored : Bytes} :
    store capacity text = some stored ↔
      text.length < capacity ∧ text = stored := by
  simp [store]

theorem zero_not_mem_cString (memory : Bytes) : 0 ∉ cString memory := by
  intro member
  have nonzero := List.mem_takeWhile_imp member
  simp at nonzero

theorem cString_append_of_mem {front : Bytes} (ends : 0 ∈ front)
    (back : Bytes) : cString (front ++ back) = cString front := by
  rw [cString, List.takeWhile_append, if_neg]
  · rfl
  · intro whole
    have same := (List.takeWhile_sublist (· != 0)).eq_of_length whole
    have inside : 0 ∈ cString front := by
      rw [cString, same]
      exact ends
    exact zero_not_mem_cString front inside

theorem cString_append_zeros (text : Bytes) (number : Nat) :
    cString (text ++ List.replicate number 0) = cString text := by
  by_cases ends : 0 ∈ text
  · exact cString_append_of_mem ends _
  · have whole := cString_eq_self ends
    rw [cString] at whole
    rw [cString, List.takeWhile_append, if_pos (congrArg List.length whole),
      List.takeWhile_replicate, cString, whole]
    simp

/-- `strstr`: the offset of the first occurrence, `none` for `NULL`. -/
def strstr (text pattern : Bytes) : Option Nat :=
  Substring.firstOccurrence pattern text

/-- Conversion to `int`. -/
def toInt32 (value : Int) : Int :=
  value.bmod (2 ^ 32)

theorem toInt32_of_range {value : Int}
    (low : -2 ^ 31 ≤ value) (high : value < 2 ^ 31) :
    toInt32 value = value := by
  rw [toInt32, Int.bmod_eq_of_le] <;> omega

theorem toInt32_range (value : Int) :
    -2 ^ 31 ≤ toInt32 value ∧ toInt32 value < 2 ^ 31 := by
  rw [toInt32, Int.bmod_def]
  split <;> omega

/-- The tokens that repeated calls of `strsep` cut out of a string when the
only separator byte is `delimiter`. -/
def strsep (delimiter : UInt8) (text : Bytes) : List Bytes :=
  text.splitOn delimiter

theorem strsep_cons_of_not_mem {delimiter : UInt8} {token : Bytes}
    (absent : delimiter ∉ token) (rest : Bytes) :
    strsep delimiter (token ++ delimiter :: rest) =
      token :: strsep delimiter rest :=
  List.splitOn_append_cons_self_of_not_mem absent rest

/-- A doubled separator ends a token and encloses an empty one. -/
theorem strsep_double {delimiter : UInt8} {token : Bytes}
    (absent : delimiter ∉ token) (rest : Bytes) :
    strsep delimiter (token ++ delimiter :: delimiter :: rest) =
      token :: [] :: strsep delimiter rest := by
  rw [strsep_cons_of_not_mem absent]
  exact congrArg (List.cons token)
    (strsep_cons_of_not_mem List.not_mem_nil rest)

theorem strsep_of_not_mem {delimiter : UInt8} {token : Bytes}
    (absent : delimiter ∉ token) : strsep delimiter token = [token] :=
  List.splitOn_eq_singleton absent

/-- Tokens hold bytes of the text other than the separator. -/
theorem mem_strsep {delimiter : UInt8} {text token : Bytes}
    (cut : token ∈ strsep delimiter text) :
    delimiter ∉ token ∧ ∀ byte ∈ token, byte ∈ text := by
  induction text generalizing token with
  | nil =>
      have empty : token = [] := by simpa [strsep] using cut
      simp [empty]
  | cons head text induction =>
      rw [strsep, List.splitOn_cons_eq_if_modifyHead, ← strsep] at cut
      split at cut
      · rcases List.mem_cons.mp cut with rfl | later
        · simp
        · obtain ⟨absent, inside⟩ := induction later
          exact ⟨absent, fun byte member =>
            List.mem_cons_of_mem _ (inside byte member)⟩
      · rename_i other
        have notSeparator : delimiter ≠ head := by
          rintro rfl
          exact other (beq_self_eq_true _)
        obtain ⟨first, rest, tokens⟩ :=
          List.exists_cons_of_ne_nil (List.splitOn_ne_nil delimiter text)
        rw [strsep, tokens, List.modifyHead_cons] at cut
        rcases List.mem_cons.mp cut with rfl | later
        · obtain ⟨absent, inside⟩ :=
            @induction first (by simp [strsep, tokens])
          refine ⟨by simp [notSeparator, absent], ?_⟩
          intro byte member
          rcases List.mem_cons.mp member with rfl | member
          · exact List.mem_cons_self
          · exact List.mem_cons_of_mem _ (inside byte member)
        · obtain ⟨absent, inside⟩ :=
            @induction token (by simp [strsep, tokens, later])
          exact ⟨absent, fun byte member =>
            List.mem_cons_of_mem _ (inside byte member)⟩

/-- The tokens that repeated calls of `strtok_r` find with one separator
byte. -/
def strtok (delimiter : UInt8) (text : Bytes) : List Bytes :=
  (text.splitOn delimiter).filter (· ≠ [])

@[simp]
theorem strtok_nil (delimiter : UInt8) : strtok delimiter [] = [] := by
  simp [strtok]

/-- A token at the end, after a separator. -/
theorem strtok_append {delimiter : UInt8} {token : Bytes} (front : Bytes)
    (nonempty : token ≠ []) (absent : delimiter ∉ token) :
    strtok delimiter (front ++ delimiter :: token) =
      strtok delimiter front ++ [token] := by
  rw [strtok, List.splitOn_append_cons_self,
    List.splitOn_eq_singleton absent, List.filter_append, strtok]
  simp [nonempty]

theorem strtok_of_not_mem {delimiter : UInt8} {token : Bytes}
    (nonempty : token ≠ []) (absent : delimiter ∉ token) :
    strtok delimiter token = [token] := by
  simp [strtok, List.splitOn_eq_singleton absent, nonempty]

/-- `isspace` in the C locale. -/
def isSpace (byte : UInt8) : Bool :=
  byte == 32 || (9 ≤ byte && byte ≤ 13)

/-- The saturation of `strtol` at the bounds of a 64-bit `long`. -/
def clampLong (value : Int) : Int :=
  max (-2 ^ 63) (min value (2 ^ 63 - 1))

/-- `atoi`: `strtol` in base ten, stored into an `int`. -/
def atoi (text : Bytes) : Int :=
  match text.dropWhile isSpace with
  | 45 :: rest =>
      toInt32 (clampLong
        (-(Decimal.readDigits 0 (rest.takeWhile Decimal.isDigit))))
  | 43 :: rest =>
      toInt32 (clampLong
        (Decimal.readDigits 0 (rest.takeWhile Decimal.isDigit)))
  | digits =>
      toInt32 (clampLong
        (Decimal.readDigits 0 (digits.takeWhile Decimal.isDigit)))

theorem takeWhile_isDigit_decimal (number : Nat) :
    (Decimal.decimal number).takeWhile Decimal.isDigit =
      Decimal.decimal number := by
  rw [List.takeWhile_eq_self_iff]
  intro byte member
  exact Decimal.isDigit_of_mem_decimal member

theorem not_isSpace_of_isDigit {byte : UInt8}
    (digit : Decimal.isDigit byte = true) :
    isSpace byte = false ∧ byte ≠ 45 ∧ byte ≠ 43 := by
  simp only [Decimal.isDigit, Bool.and_eq_true, decide_eq_true_eq,
    UInt8.le_iff_toNat_le, UInt8.reduceToNat] at digit
  simp only [isSpace, Bool.or_eq_false_iff, beq_eq_false_iff_ne, ne_eq,
    Bool.and_eq_false_iff, decide_eq_false_iff_not, UInt8.le_iff_toNat_le,
    ← UInt8.toNat_inj, UInt8.reduceToNat]
  omega

/-- A printed number is read back and stored into an `int`. -/
theorem atoi_decimal_wrap {number : Nat} (small : number < 2 ^ 63) :
    atoi (Decimal.decimal number) = toInt32 number := by
  have clamped : clampLong (number : Int) = number := by
    simp only [clampLong]
    omega
  cases numeral : Decimal.decimal number with
  | nil => exact absurd numeral (Decimal.decimal_ne_nil number)
  | cons first rest =>
      have digit : Decimal.isDigit first = true :=
        @Decimal.isDigit_of_mem_decimal number first (by simp [numeral])
      obtain ⟨noSpace, notMinus, notPlus⟩ := not_isSpace_of_isDigit digit
      rw [atoi, List.dropWhile_cons_of_neg (by simp [noSpace])]
      split
      · rename_i equal
        exact absurd (List.cons.inj equal).1 notMinus
      · rename_i equal
        exact absurd (List.cons.inj equal).1 notPlus
      · rw [← numeral, takeWhile_isDigit_decimal,
          Decimal.readDigits_decimal, clamped]

/-- A printed non-negative `int` is read back. -/
theorem atoi_decimal {number : Nat} (small : number < 2 ^ 31) :
    atoi (Decimal.decimal number) = number := by
  rw [atoi_decimal_wrap (by omega)]
  exact toInt32_of_range (by omega) (by omega)

/-- A printed `int` is read back. -/
theorem atoi_decimalInt {number : Int}
    (low : -2 ^ 31 ≤ number) (high : number < 2 ^ 31) :
    atoi (Decimal.decimalInt number) = number := by
  cases number with
  | ofNat number => exact atoi_decimal (by simp at high; omega)
  | negSucc number =>
      have sign : isSpace 45 = false := by decide
      rw [Decimal.decimalInt, atoi,
        List.dropWhile_cons_of_neg (by simp [sign])]
      simp only [takeWhile_isDigit_decimal, Decimal.readDigits_decimal]
      have clamped :
          clampLong (-((number + 1 : Nat) : Int)) = Int.negSucc number := by
        simp only [clampLong]
        omega
      rw [clamped]
      exact toInt32_of_range low high

end WindowSystem.CRuntime
