import Mathlib.Data.Int.Order.Basic
import Mathlib.Data.List.Basic
import WindowSystem.Library.Substring

/-!
# The parts of the Java runtime that the ad server uses

Strings are lists of characters.  A `null` string is the empty one: the
modelled methods test for both with `isEmpty` or `isBlank`, or compare with a
literal that is not empty.  What Java takes from the Unicode tables and from
`java.net.URL` is a parameter.  `none` stands for an exception.
-/

namespace WindowSystem.Sspserver.JavaRuntime

open WindowSystem.Library

/-- A `String`. -/
abbrev JavaString := List Char

/-- The characters of a literal of the source. -/
def text (literal : String) : JavaString :=
  literal.toList

/-- The parts of the platform whose definitions are large tables. -/
structure Platform where
  /-- `Character.isWhitespace` -/
  isWhitespace : Char → Bool
  /-- `Character.digit` in base ten -/
  digit : Char → Option Nat
  /-- `Character.toUpperCase` -/
  toUpperCase : Char → Char
  /-- `Character.toLowerCase` -/
  toLowerCase : Char → Char
  /-- `String.toLowerCase` -/
  lowerCase : JavaString → JavaString
  /-- `new URL(url).getHost()`; `none` is the `MalformedURLException` -/
  urlHost : JavaString → Option JavaString

variable (platform : Platform)

/-- `StringUtils.isBlank` -/
def isBlank (string : JavaString) : Bool :=
  string.all platform.isWhitespace

/-- `StringUtils.isNotBlank` -/
def isNotBlank (string : JavaString) : Bool :=
  !isBlank platform string

/-- `String.equalsIgnoreCase` for one character. -/
def sameIgnoringCase (left right : Char) : Bool :=
  left == right ||
    platform.toUpperCase left == platform.toUpperCase right ||
    platform.toLowerCase (platform.toUpperCase left) ==
      platform.toLowerCase (platform.toUpperCase right)

/-- `String.equalsIgnoreCase` -/
def equalsIgnoreCase : JavaString → JavaString → Bool
  | [], [] => true
  | first :: left, second :: right =>
      sameIgnoringCase platform first second && equalsIgnoreCase left right
  | _, _ => false

@[simp]
theorem equalsIgnoreCase_self (string : JavaString) :
    equalsIgnoreCase platform string string = true := by
  induction string with
  | nil => rfl
  | cons first string induction =>
      rw [equalsIgnoreCase, induction]
      simp [sameIgnoringCase]

/-- The digits of a number, read from the left. -/
def readDigits (value : Nat) : JavaString → Option Nat
  | [] => some value
  | first :: rest =>
      (platform.digit first).bind fun digit =>
        readDigits (value * 10 + digit) rest

/-- The number that digits denote, if there are any. -/
def readNumber (digits : JavaString) : Option Nat :=
  if digits = [] then none else readDigits platform 0 digits

/-- The values of an `int`. -/
def inInt (value : Int) : Option Int :=
  if -2147483648 ≤ value ∧ value ≤ 2147483647 then some value else none

/-- `Integer.parseInt` -/
def parseInt : JavaString → Option Int
  | '-' :: digits => (readNumber platform digits).bind fun n => inInt (-n)
  | '+' :: digits => (readNumber platform digits).bind fun n => inInt n
  | digits => (readNumber platform digits).bind fun n => inInt n

/-- `String.contains` -/
def containsText (string sub : JavaString) : Bool :=
  (Substring.firstOccurrence sub string).isSome

/-- `String.split` with a pattern that is one ordinary character: empty
strings at the end are removed, unless the character does not occur. -/
def split (separator : Char) (string : JavaString) : List JavaString :=
  if separator ∈ string then
    ((string.splitOn separator).reverse.dropWhile (· = [])).reverse
  else [string]

/-- The element that `get(r.nextInt(size()))` draws. -/
def draw {α : Type*} (random : Nat) (elements : List α) : Option α :=
  elements[random % elements.length]?

theorem draw_mem {α : Type*} {random : Nat} {elements : List α} {element : α}
    (drawn : draw random elements = some element) : element ∈ elements :=
  List.mem_of_getElem? drawn

theorem draw_eq_none_iff {α : Type*} {random : Nat} {elements : List α} :
    draw random elements = none ↔ elements = [] := by
  constructor
  · intro nothing
    by_contra nonempty
    have inside : random % elements.length < elements.length :=
      Nat.mod_lt _ (List.length_pos_iff.mpr nonempty)
    rw [draw, List.getElem?_eq_getElem inside] at nothing
    cases nothing
  · rintro rfl
    rfl

/-- Every element can be drawn. -/
theorem exists_draw {α : Type*} {elements : List α} {element : α}
    (member : element ∈ elements) :
    ∃ random, draw random elements = some element := by
  obtain ⟨index, inside, equal⟩ := List.getElem_of_mem member
  refine ⟨index, ?_⟩
  rw [draw, Nat.mod_eq_of_lt inside, List.getElem?_eq_getElem inside, equal]

/-! ## Texts of ASCII characters -/

/-- `Character.toUpperCase` of an ASCII character. -/
def asciiUpper (character : Char) : Char :=
  if 'a' ≤ character ∧ character ≤ 'z' then
    Char.ofNat (character.toNat - 32)
  else character

/-- `Character.toLowerCase` of an ASCII character. -/
def asciiLower (character : Char) : Char :=
  if 'A' ≤ character ∧ character ≤ 'Z' then
    Char.ofNat (character.toNat + 32)
  else character

/-- The host of a url `scheme://host/path`. -/
def simpleHost (url : JavaString) : Option JavaString :=
  (Substring.firstOccurrence (text "://") url).map fun scheme =>
    (url.drop (scheme + 3)).takeWhile (· ≠ '/')

/-- The platform on ASCII texts and on urls without a user or a port. -/
def asciiPlatform : Platform where
  isWhitespace character :=
    character = ' ' || ('\t' ≤ character && character ≤ '\r')
  digit character :=
    if '0' ≤ character ∧ character ≤ '9' then some (character.toNat - 48)
    else none
  toUpperCase := asciiUpper
  toLowerCase := asciiLower
  lowerCase string := string.map asciiLower
  urlHost := simpleHost

theorem toNat_ofNat_small {n : Nat} (small : n < 55296) :
    (Char.ofNat n).toNat = n := by
  rw [Char.ofNat, dif_pos (Or.inl small)]
  rfl

theorem char_le_iff (left right : Char) :
    left ≤ right ↔ left.toNat ≤ right.toNat := by
  rw [Char.le_def, UInt32.le_iff_toNat_le]
  rfl

theorem toNat_asciiUpper (character : Char) :
    (asciiUpper character).toNat =
      if 97 ≤ character.toNat ∧ character.toNat ≤ 122 then
        character.toNat - 32
      else character.toNat := by
  simp only [asciiUpper, char_le_iff, Char.reduceToNat]
  split_ifs
  · exact toNat_ofNat_small (by omega)
  · rfl

theorem toNat_asciiLower (character : Char) :
    (asciiLower character).toNat =
      if 65 ≤ character.toNat ∧ character.toNat ≤ 90 then
        character.toNat + 32
      else character.toNat := by
  simp only [asciiLower, char_le_iff, Char.reduceToNat]
  split_ifs
  · exact toNat_ofNat_small (by omega)
  · rfl

/-- Digits have no case. -/
theorem sameIgnoringCase_digit {digit other : Char} (low : '0' ≤ digit)
    (high : digit ≤ '9')
    (same : sameIgnoringCase asciiPlatform digit other = true) :
    other = digit := by
  simp only [sameIgnoringCase, asciiPlatform, Bool.or_eq_true, beq_iff_eq,
    ← Char.toNat_inj, toNat_asciiLower, toNat_asciiUpper] at same
  rw [char_le_iff] at low high
  simp only [Char.reduceToNat] at low high
  rw [← Char.toNat_inj]
  split_ifs at same <;> omega

/-- A number equals no other string up to case. -/
theorem equalsIgnoreCase_digits {digits other : JavaString}
    (all : ∀ digit ∈ digits, '0' ≤ digit ∧ digit ≤ '9')
    (same : equalsIgnoreCase asciiPlatform digits other = true) :
    other = digits := by
  induction digits generalizing other with
  | nil =>
      cases other with
      | nil => rfl
      | cons => cases same
  | cons digit digits induction =>
      cases other with
      | nil => cases same
      | cons first other =>
          rw [equalsIgnoreCase, Bool.and_eq_true] at same
          obtain ⟨⟨low, high⟩, others⟩ := List.forall_mem_cons.mp all
          rw [sameIgnoringCase_digit low high same.1,
            induction others same.2]

end WindowSystem.Sspserver.JavaRuntime
