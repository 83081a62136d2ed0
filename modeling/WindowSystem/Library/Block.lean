import Mathlib.Data.List.TakeWhile

/-!
# Blocks of allocated memory

A block is the list of the bytes that were allocated for it.  Writes at its
start are partial: they are undefined when they do not fit.  A block whose
bytes end with a zero byte somewhere holds a text, the bytes before the first
one.
-/

namespace WindowSystem.Library.Block

/-- A block of zero bytes. -/
def cleared (size : Nat) : List UInt8 :=
  List.replicate size 0

/-- Write bytes to the start of a block. -/
def copy (bytes block : List UInt8) : Option (List UInt8) :=
  if bytes.length ≤ block.length then
    some (bytes ++ block.drop bytes.length)
  else none

/-- Set a number of bytes at the start of a block to zero. -/
def clear (count : Nat) (block : List UInt8) : Option (List UInt8) :=
  copy (cleared count) block

/-- The text in a block; `none` when it is not terminated. -/
def text (block : List UInt8) : Option (List UInt8) :=
  if 0 ∈ block then some (block.takeWhile (· != 0)) else none

@[simp]
theorem length_cleared (size : Nat) : (cleared size).length = size :=
  List.length_replicate

theorem length_copy {bytes block next : List UInt8}
    (copied : copy bytes block = some next) :
    next.length = block.length := by
  rw [copy] at copied
  split_ifs at copied with fits
  cases copied
  rw [List.length_append, List.length_drop]
  exact Nat.add_sub_cancel' fits

theorem copy_isSome_iff {bytes block : List UInt8} :
    (copy bytes block).isSome ↔ bytes.length ≤ block.length := by
  rw [copy]
  split_ifs with fits
  · simpa using fits
  · simpa using fits

theorem clear_isSome_iff {count : Nat} {block : List UInt8} :
    (clear count block).isSome ↔ count ≤ block.length := by
  rw [clear, copy_isSome_iff, length_cleared]

/-- A block is cleared as a whole. -/
theorem clear_length (block : List UInt8) :
    clear block.length block = some (cleared block.length) := by
  rw [clear, copy, if_pos (Nat.le_of_eq (length_cleared _)),
    length_cleared, List.drop_length, List.append_nil]

/-- A text that is shorter than a cleared block is terminated there. -/
theorem exists_copy_cleared {bytes : List UInt8} {size : Nat}
    (noZero : 0 ∉ bytes) (short : bytes.length < size) :
    ∃ block, copy bytes (cleared size) = some block ∧
      block.length = size ∧ text block = some bytes := by
  have fits : bytes.length ≤ (cleared size).length := by
    rw [length_cleared]
    exact Nat.le_of_lt short
  obtain ⟨block, copied⟩ :=
    Option.isSome_iff_exists.mp (copy_isSome_iff.mpr fits)
  refine ⟨block, copied, ?_, ?_⟩
  · rw [length_copy copied, length_cleared]
  · rw [copy, if_pos fits] at copied
    cases copied
    obtain ⟨rest, remaining⟩ :=
      Nat.exists_eq_succ_of_ne_zero (Nat.sub_ne_zero_of_lt short)
    rw [cleared, List.drop_replicate, remaining, List.replicate_succ, text,
      if_pos (List.mem_append_right _ List.mem_cons_self),
      List.takeWhile_append_of_pos]
    · simp
    · intro byte member
      rw [bne_iff_ne]
      rintro rfl
      exact noZero member

end WindowSystem.Library.Block
