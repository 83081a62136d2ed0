import Mathlib.Algebra.BigOperators.Group.List.Basic
import Mathlib.Algebra.Group.Nat.Even
import Mathlib.Data.Nat.ModEq

/-!
# One's-complement sums

The one's-complement sum of words adds them and adds every carry out of the
highest digit at the other end.  It is the sum modulo the greatest word, with
the greatest word in the place of zero unless all words are zero.  A text of
bytes can be taken as words in either byte order; which one is taken only
turns the sum over.
-/

namespace WindowSystem.Library.OnesComplement

/-! ## Sums with an end-around carry -/

/-- Add two words; `limit` is the greatest word. -/
def add (limit left right : Nat) : Nat :=
  if left + right > limit then left + right - limit else left + right

/-- The one's-complement sum of some words. -/
def onesSum (limit : Nat) (words : List Nat) : Nat :=
  words.foldl (add limit) 0

section Sums

variable {limit left right : Nat} {words : List Nat}

theorem add_modEq : add limit left right ≡ left + right [MOD limit] := by
  rw [add]
  split_ifs with carry
  · have back : left + right - limit + limit = left + right :=
      Nat.sub_add_cancel (Nat.le_of_lt carry)
    have same : left + right - limit ≡ left + right - limit + limit
        [MOD limit] := by
      rw [Nat.ModEq, Nat.add_mod_right]
    rw [back] at same
    exact same
  · exact Nat.ModEq.refl _

theorem add_le (smallLeft : left ≤ limit) (smallRight : right ≤ limit) :
    add limit left right ≤ limit := by
  rw [add]
  split_ifs <;> omega

theorem add_eq_zero_iff :
    add limit left right = 0 ↔ left = 0 ∧ right = 0 := by
  rw [add]
  split_ifs <;> omega

/-- What the words do to a sum that was begun. -/
theorem foldl_add (begun : Nat) (smallBegun : begun ≤ limit)
    (small : ∀ word ∈ words, word ≤ limit) :
    words.foldl (add limit) begun ≡ begun + words.sum [MOD limit] ∧
      words.foldl (add limit) begun ≤ limit ∧
        (words.foldl (add limit) begun = 0 ↔
          begun + words.sum = 0) := by
  induction words generalizing begun with
  | nil => exact ⟨Nat.ModEq.refl _, smallBegun, Iff.rfl⟩
  | cons word words induction =>
      rw [List.forall_mem_cons] at small
      obtain ⟨same, bounded, zero⟩ :=
        induction (add limit begun word) (add_le smallBegun small.1) small.2
      rw [List.foldl_cons, List.sum_cons]
      refine ⟨same.trans ?_, bounded, ?_⟩
      · rw [← Nat.add_assoc]
        exact add_modEq.add_right _
      · rw [zero]
        have first := @add_eq_zero_iff limit begun word
        omega

theorem onesSum_modEq (small : ∀ word ∈ words, word ≤ limit) :
    onesSum limit words ≡ words.sum [MOD limit] := by
  have sums := (foldl_add 0 (Nat.zero_le _) small).1
  rwa [Nat.zero_add] at sums

theorem onesSum_le (small : ∀ word ∈ words, word ≤ limit) :
    onesSum limit words ≤ limit :=
  (foldl_add 0 (Nat.zero_le _) small).2.1

theorem onesSum_eq_zero_iff (small : ∀ word ∈ words, word ≤ limit) :
    onesSum limit words = 0 ↔ words.sum = 0 := by
  have sums := (foldl_add 0 (Nat.zero_le _) small).2.2
  rwa [Nat.zero_add] at sums

/-- The sum is the greatest word exactly when the ordinary sum is a positive
multiple of it. -/
theorem onesSum_eq_limit_iff (positive : 0 < limit)
    (small : ∀ word ∈ words, word ≤ limit) :
    onesSum limit words = limit ↔ 0 < words.sum ∧ limit ∣ words.sum := by
  have same := onesSum_modEq small
  have bounded := onesSum_le small
  have zero := onesSum_eq_zero_iff small
  constructor
  · intro full
    rw [full] at same zero
    refine ⟨by omega, ?_⟩
    exact (Nat.modEq_zero_iff_dvd.mp
      (same.symm.trans (Nat.modEq_zero_iff_dvd.mpr dvd_rfl)))
  · rintro ⟨some, divides⟩
    have multiple : limit ∣ onesSum limit words :=
      Nat.modEq_zero_iff_dvd.mp
        (same.trans (Nat.modEq_zero_iff_dvd.mpr divides))
    refine Nat.le_antisymm bounded (Nat.le_of_dvd ?_ multiple)
    omega

/-- The complement of the sum of some words makes it a multiple of the
greatest word. -/
theorem dvd_sum_add_complement (small : ∀ word ∈ words, word ≤ limit) :
    limit ∣ words.sum + (limit - onesSum limit words) := by
  have same := (onesSum_modEq small).add_right (limit - onesSum limit words)
  rw [Nat.add_sub_cancel' (onesSum_le small)] at same
  exact Nat.modEq_zero_iff_dvd.mp
    (same.symm.trans (Nat.modEq_zero_iff_dvd.mpr dvd_rfl))

end Sums

/-! ## Words of two bytes -/

/-- The words of a text whose first byte is the high one; a last byte alone is
followed by zero. -/
def bigWords : List UInt8 → List Nat
  | [] => []
  | [byte] => [256 * byte.toNat]
  | high :: low :: bytes => (256 * high.toNat + low.toNat) :: bigWords bytes

/-- The words of a text whose first byte is the low one. -/
def littleWords : List UInt8 → List Nat
  | [] => []
  | [byte] => [byte.toNat]
  | low :: high :: bytes => (low.toNat + 256 * high.toNat) :: littleWords bytes

variable {front field blank back bytes : List UInt8}

theorem bigWords_le (bytes : List UInt8) :
    ∀ word ∈ bigWords bytes, word ≤ 0xFFFF := by
  induction bytes using bigWords.induct with
  | case1 => exact List.forall_mem_nil _
  | case2 byte =>
      have small := byte.toNat_lt
      rw [bigWords, List.forall_mem_singleton]
      omega
  | case3 high low bytes induction =>
      have smallHigh := high.toNat_lt
      have smallLow := low.toNat_lt
      rw [bigWords, List.forall_mem_cons]
      refine ⟨?_, induction⟩
      omega

theorem sum_bigWords_pos {byte : UInt8} (member : byte ∈ bytes)
    (positive : 0 < byte.toNat) : 0 < (bigWords bytes).sum := by
  induction bytes using bigWords.induct with
  | case1 => cases member
  | case2 last =>
      rw [List.mem_singleton] at member
      rw [bigWords, List.sum_singleton, ← member]
      omega
  | case3 high low bytes induction =>
      rw [bigWords, List.sum_cons]
      rcases List.mem_cons.mp member with rfl | later
      · omega
      · rcases List.mem_cons.mp later with rfl | rest
        · omega
        · have behind := induction rest
          omega

section Fields

variable {words : List UInt8 → List Nat} {pair : UInt8 → UInt8 → Nat}

/-- The words of a text in front of which there are whole words. -/
theorem sum_words_append (nil : words [] = [])
    (cons : ∀ first second bytes,
      words (first :: second :: bytes) = pair first second :: words bytes)
    (even : Even front.length) :
    (words (front ++ back)).sum = (words front).sum + (words back).sum := by
  induction front using bigWords.induct with
  | case1 => rw [nil, List.nil_append, List.sum_nil, Nat.zero_add]
  | case2 byte => exact absurd even Nat.not_even_one
  | case3 first second bytes induction =>
      rw [List.length_cons, List.length_cons, Nat.even_add_one,
        Nat.even_add_one, not_not] at even
      rw [List.cons_append, List.cons_append, cons, cons, List.sum_cons,
        List.sum_cons, induction even]
      exact (Nat.add_assoc _ _ _).symm

/-- Writing whole words over a blank field of the same kind adds them. -/
theorem sum_words_fill (nil : words [] = [])
    (cons : ∀ first second bytes,
      words (first :: second :: bytes) = pair first second :: words bytes)
    (evenFront : Even front.length) (evenField : Even field.length)
    (evenBlank : Even blank.length) (zero : (words blank).sum = 0) :
    (words (front ++ (field ++ back))).sum =
      (words (front ++ (blank ++ back))).sum + (words field).sum := by
  rw [sum_words_append nil cons evenFront, sum_words_append nil cons evenField,
    sum_words_append nil cons evenFront, sum_words_append nil cons evenBlank,
    zero]
  omega

end Fields

theorem sum_littleWords_append (even : Even front.length) :
    (littleWords (front ++ back)).sum =
      (littleWords front).sum + (littleWords back).sum :=
  sum_words_append rfl (fun _ _ _ => rfl) even

theorem sum_bigWords_fill (evenFront : Even front.length)
    (evenField : Even field.length) (evenBlank : Even blank.length)
    (zero : (bigWords blank).sum = 0) :
    (bigWords (front ++ (field ++ back))).sum =
      (bigWords (front ++ (blank ++ back))).sum + (bigWords field).sum :=
  sum_words_fill rfl (fun _ _ _ => rfl) evenFront evenField evenBlank zero

theorem sum_littleWords_fill (evenFront : Even front.length)
    (evenField : Even field.length) (evenBlank : Even blank.length)
    (zero : (littleWords blank).sum = 0) :
    (littleWords (front ++ (field ++ back))).sum =
      (littleWords (front ++ (blank ++ back))).sum +
        (littleWords field).sum :=
  sum_words_fill rfl (fun _ _ _ => rfl) evenFront evenField evenBlank zero

theorem sum_littleWords_le (bytes : List UInt8) :
    (littleWords bytes).sum ≤ 0xFFFF * bytes.length := by
  induction bytes using littleWords.induct with
  | case1 => exact Nat.zero_le _
  | case2 byte =>
      have small := byte.toNat_lt
      rw [littleWords, List.sum_singleton, List.length_singleton]
      omega
  | case3 low high bytes induction =>
      have smallLow := low.toNat_lt
      have smallHigh := high.toNat_lt
      rw [littleWords, List.sum_cons, List.length_cons, List.length_cons]
      omega

/-- Exchanging the bytes of all words multiplies their sum by 256. -/
theorem sum_bigWords_modEq (bytes : List UInt8) :
    (bigWords bytes).sum ≡ 256 * (littleWords bytes).sum [MOD 0xFFFF] := by
  induction bytes using bigWords.induct with
  | case1 => exact Nat.ModEq.refl _
  | case2 byte => simp [bigWords, littleWords, Nat.ModEq.refl]
  | case3 high low bytes induction =>
      rw [bigWords, littleWords, List.sum_cons, List.sum_cons, Nat.mul_add]
      refine Nat.ModEq.add ?_ induction
      rw [Nat.ModEq]
      omega

end WindowSystem.Library.OnesComplement
