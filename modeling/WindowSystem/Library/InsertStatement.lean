import Mathlib.Data.List.TakeWhile
import WindowSystem.Library.SeparatedText

/-!
# `INSERT` statements as MySQL reads them

String literals stand in either kind of quotes; a doubled quote, a backslash
and a following literal continue them.  A text that is pasted between two
quotes as it is comes out as it is exactly if it has no quote and no backslash
other than those of `\%` and `\_`, which MySQL keeps.  The same holds for a
whole list of pasted values: a literal that has swallowed its neighbour cannot
end up as what was meant.
-/

namespace WindowSystem.Library.InsertStatement

open WindowSystem.Library.SeparatedText

/-! ## String literals -/

/-- The quote that the literals are written with. -/
def quote : Char := '\x27'

/-- The other quote. -/
def doubleQuote : Char := '\x22'

/-- The escape character. -/
def backslash : Char := '\x5c'

/-- The two kinds of quotes. -/
def isQuote (character : Char) : Bool :=
  character == quote || character == doubleQuote

/-- The characters between tokens. -/
def isBlank (character : Char) : Bool :=
  character == ' ' || ('\t' ≤ character && character ≤ '\r')

/-- A text that stands for itself between two quotes. -/
def plain (closing : Char) : List Char → Bool
  | [] => true
  | character :: text =>
      character != closing &&
        (character != backslash ||
          text.head?.any fun next => next == '%' || next == '_') &&
        plain closing text

/-! ## Values and statements -/

/-- A literal. -/
inductive Literal where
  | number (value : Int)
  | text (value : List Char)
deriving DecidableEq

/-- Digits without a sign. -/
def readDigits (source : List Char) : Option (Nat × List Char) :=
  if source.takeWhile Char.isDigit = [] then none
  else
    some (Nat.ofDigitChars 10 (source.takeWhile Char.isDigit) 0,
      source.dropWhile Char.isDigit)

/-- An integer. -/
def readNumber : Reader Char Int
  | '-' :: source =>
      (readDigits source).map fun (value, rest) => (-(value : Int), rest)
  | source => (readDigits source).map fun (value, rest) => ((value : Int), rest)

/-- The characters of a name without quotes. -/
def isNameCharacter (character : Char) : Bool :=
  character.isAlphanum || character == '_' || character == '$' ||
    0x80 ≤ character.toNat

/-- A name. -/
def readName (source : List Char) : Option (List Char × List Char) :=
  if source.takeWhile isNameCharacter = [] then none
  else
    some (source.takeWhile isNameCharacter,
      source.dropWhile isNameCharacter)

/-- What an `INSERT` statement does. -/
structure Insertion where
  table : List Char
  columns : List (List Char)
  values : List Literal
deriving DecidableEq

/-- The characters of a keyword. -/
def word (characters : String) : List Char :=
  characters.toList

/-- An integer in base ten. -/
def decimalText : Int → List Char
  | .ofNat value => Nat.toDigits 10 value
  | .negSucc value => '-' :: Nat.toDigits 10 (value + 1)

/-- A literal, pasted as it is. -/
def Literal.paste : Literal → List Char
  | .number value => decimalText value
  | .text value => quote :: (value ++ [quote])

/-- A literal that stands for itself. -/
def Literal.plain : Literal → Bool
  | .number _ => true
  | .text value => InsertStatement.plain quote value

/-- A statement with pasted values. -/
def Insertion.paste (insertion : Insertion) : List Char :=
  word "insert into " ++ (insertion.table ++ (word " (" ++
    (joined ',' insertion.columns ++ (word ") values (" ++
      (joined ',' (insertion.values.map Literal.paste) ++ word ")")))))

/-! ## What a literal takes -/

/-- A character behind which a literal ends. -/
def Ends (rest : List Char) : Prop :=
  ∃ next behind, rest = next :: behind ∧ (next = ',' ∨ next = ')')

theorem Ends.dropWhile {rest : List Char} (ends : Ends rest) :
    rest.dropWhile isBlank = rest := by
  obtain ⟨_, behind, rfl, rfl | rfl⟩ := ends <;> rfl

/-- A numeral begins with a digit. -/
theorem toDigits_cons (value : Nat) :
    ∃ digit digits, Nat.toDigits 10 value = digit :: digits ∧
      digit.isDigit = true := by
  cases written : Nat.toDigits 10 value with
  | nil => simp at written
  | cons digit digits =>
      have member : digit ∈ Nat.toDigits 10 value := by
        rw [written]
        exact List.mem_cons_self
      exact ⟨digit, digits, rfl,
        Nat.isDigit_of_mem_toDigits (by omega) (by omega) member⟩

/-- A name that needs no quotes. -/
def IsName (name : List Char) : Prop :=
  name ≠ [] ∧ ∀ character ∈ name, isNameCharacter character = true

instance (name : List Char) : Decidable (IsName name) :=
  decidable_of_iff (name ≠ [] ∧ name.all isNameCharacter)
    (and_congr_right' List.all_eq_true)

/-- A written element does not look like the end of the list. -/
def Begins (text : List Char) : Prop :=
  ∃ first others, text = first :: others ∧ first ≠ ')'

theorem IsName.begins {name : List Char} (isName : IsName name) :
    Begins name := by
  obtain ⟨nonempty, all⟩ := isName
  cases name with
  | nil => exact absurd rfl nonempty
  | cons first others =>
      refine ⟨first, others, rfl, ?_⟩
      rintro rfl
      exact absurd (all _ List.mem_cons_self) (by decide)

theorem Literal.begins (literal : Literal) : Begins literal.paste := by
  cases literal with
  | number value =>
      cases value with
      | ofNat value =>
          obtain ⟨digit, digits, written, decimal⟩ := toDigits_cons value
          refine ⟨digit, digits, written, ?_⟩
          rintro rfl
          cases decimal
      | negSucc value => exact ⟨'-', _, rfl, by decide⟩
  | text value => exact ⟨quote, _, rfl, by decide⟩

end WindowSystem.Library.InsertStatement
