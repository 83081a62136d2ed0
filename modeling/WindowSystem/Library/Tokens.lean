import Mathlib.Data.List.TakeWhile

/-!
# Tokens between delimiters

A scanner that takes a set of delimiters steps over them, takes what stands
before the next one and goes on behind it.  Its tokens are the nonempty pieces
of the text, and a list that was joined with delimiters is found again exactly
when its entries are such pieces.
-/

namespace WindowSystem.Library.Tokens

variable {α : Type*} (isDelimiter : α → Bool)

/-- The next token and what is left behind its delimiter. -/
def next (text : List α) : Option (List α × List α) :=
  match text.dropWhile isDelimiter with
  | [] => none
  | first :: rest =>
      some ((first :: rest).takeWhile (!isDelimiter ·),
        ((first :: rest).dropWhile (!isDelimiter ·)).drop 1)

/-- The nonempty pieces of the text. -/
def tokens (text : List α) : List (List α) :=
  (text.splitOnP isDelimiter).filter (· ≠ [])

variable {isDelimiter}

@[simp]
theorem tokens_nil : tokens isDelimiter ([] : List α) = [] := by
  simp [tokens, List.splitOnP_nil]

/-- A delimiter ends the tokens in front of it. -/
theorem tokens_append_cons {delimiter : α}
    (separates : isDelimiter delimiter = true) (front back : List α) :
    tokens isDelimiter (front ++ delimiter :: back) =
      tokens isDelimiter front ++ tokens isDelimiter back := by
  rw [tokens, List.splitOnP_append_cons front back separates,
    List.filter_append]
  rfl

theorem tokens_cons {delimiter : α}
    (separates : isDelimiter delimiter = true) (text : List α) :
    tokens isDelimiter (delimiter :: text) = tokens isDelimiter text := by
  simpa using tokens_append_cons separates [] text

theorem tokens_of_plain {word : List α} (nonempty : word ≠ [])
    (plain : ∀ entry ∈ word, isDelimiter entry = false) :
    tokens isDelimiter word = [word] := by
  rw [tokens, List.splitOnP_eq_singleton plain]
  simp [nonempty]

theorem tokens_append_of_delimiters {separator : List α}
    (separates : ∀ entry ∈ separator, isDelimiter entry = true)
    (text : List α) :
    tokens isDelimiter (separator ++ text) = tokens isDelimiter text := by
  induction separator with
  | nil => rfl
  | cons delimiter separator induction =>
      rw [List.cons_append,
        tokens_cons (separates delimiter List.mem_cons_self)]
      exact induction fun entry member =>
        separates entry (List.mem_cons_of_mem _ member)

theorem tokens_dropWhile (text : List α) :
    tokens isDelimiter (text.dropWhile isDelimiter) =
      tokens isDelimiter text := by
  have front :=
    @tokens_append_of_delimiters α isDelimiter (text.takeWhile isDelimiter)
      (fun _ member => List.mem_takeWhile_imp member)
      (text.dropWhile isDelimiter)
  rw [List.takeWhile_append_dropWhile] at front
  exact front.symm

/-- A word without delimiters is the first token of a text that goes on with a
delimiter or ends. -/
theorem tokens_takeWhile {text : List α}
    (nonempty : text.takeWhile (!isDelimiter ·) ≠ []) :
    tokens isDelimiter text =
      text.takeWhile (!isDelimiter ·) ::
        tokens isDelimiter
          ((text.dropWhile (!isDelimiter ·)).drop 1) := by
  have plain : ∀ entry ∈ text.takeWhile (!isDelimiter ·),
      isDelimiter entry = false := by
    intro entry member
    simpa using List.mem_takeWhile_imp member
  have parts := @List.takeWhile_append_dropWhile α (!isDelimiter ·) text
  cases behind : text.dropWhile (!isDelimiter ·) with
  | nil =>
      rw [behind, List.append_nil] at parts
      have whole := tokens_of_plain nonempty plain
      rw [parts] at whole
      rw [whole, parts]
      simp
  | cons delimiter rest =>
      have separates : isDelimiter delimiter = true := by
        have stopped := List.head?_dropWhile_not (!isDelimiter ·) text
        simpa [behind] using stopped
      have found := tokens_append_cons separates
        (text.takeWhile (!isDelimiter ·)) rest
      rw [← behind, parts, tokens_of_plain nonempty plain] at found
      exact found

/-- The scanner finds the tokens one after the other. -/
theorem tokens_eq_next (text : List α) :
    tokens isDelimiter text =
      match next isDelimiter text with
      | none => []
      | some (token, rest) => token :: tokens isDelimiter rest := by
  rw [← tokens_dropWhile, next]
  cases front : text.dropWhile isDelimiter with
  | nil => exact tokens_nil
  | cons first rest =>
      have plain : isDelimiter first = false := by
        have stopped := List.head?_dropWhile_not isDelimiter text
        simpa [front] using stopped
      refine tokens_takeWhile ?_
      simp [plain]

/-- The pieces hold no delimiters. -/
theorem plain_of_mem_splitOnP {text piece : List α}
    (member : piece ∈ text.splitOnP isDelimiter) :
    ∀ entry ∈ piece, isDelimiter entry = false := by
  induction text generalizing piece with
  | nil =>
      rw [List.splitOnP_nil, List.mem_singleton] at member
      simp [member]
  | cons first text induction =>
      rw [List.splitOnP_cons_eq_if_modifyHead] at member
      split at member
      · rcases List.mem_cons.mp member with rfl | later
        · simp
        · exact induction later
      · rename_i plain
        obtain ⟨head, pieces, cut⟩ := List.exists_cons_of_ne_nil
          (List.splitOnP_ne_nil isDelimiter text)
        rw [cut, List.modifyHead_cons] at member
        rcases List.mem_cons.mp member with rfl | later
        · refine List.forall_mem_cons.mpr ⟨by simpa using plain, ?_⟩
          exact induction (cut ▸ List.mem_cons_self)
        · exact induction (cut ▸ List.mem_cons_of_mem _ later)

/-- The pieces between separators do not hold the separator. -/
theorem not_mem_of_mem_splitOn [BEq α] [LawfulBEq α] {separator : α}
    {text piece : List α} (member : piece ∈ text.splitOn separator) :
    separator ∉ piece := by
  intro inside
  have plain := plain_of_mem_splitOnP member separator inside
  simp at plain

/-- Tokens are nonempty and hold no delimiters. -/
theorem plain_of_mem_tokens {text token : List α}
    (member : token ∈ tokens isDelimiter text) :
    token ≠ [] ∧ ∀ entry ∈ token, isDelimiter entry = false := by
  obtain ⟨piece, nonempty⟩ := List.mem_filter.mp member
  exact ⟨of_decide_eq_true nonempty, plain_of_mem_splitOnP piece⟩

/-- A list that was joined with delimiters is found again exactly when its
entries can be tokens. -/
theorem tokens_intercalate_eq_iff {separator : List α}
    (nonempty : separator ≠ [])
    (separates : ∀ entry ∈ separator, isDelimiter entry = true)
    {words : List (List α)} :
    tokens isDelimiter (separator.intercalate words) = words ↔
      ∀ word ∈ words,
        word ≠ [] ∧ ∀ entry ∈ word, isDelimiter entry = false := by
  constructor
  · intro found word member
    rw [← found] at member
    exact plain_of_mem_tokens member
  · intro plain
    induction words with
    | nil => simp
    | cons word words induction =>
        obtain ⟨first, rest⟩ := List.forall_mem_cons.mp plain
        cases words with
        | nil =>
            rw [List.intercalate_singleton]
            exact tokens_of_plain first.1 first.2
        | cons other words =>
            obtain ⟨delimiter, separator, rfl⟩ :=
              List.exists_cons_of_ne_nil nonempty
            have ends := separates delimiter List.mem_cons_self
            rw [List.intercalate_cons_cons, List.append_assoc,
              List.cons_append, tokens_append_cons ends,
              tokens_of_plain first.1 first.2,
              tokens_append_of_delimiters fun entry member =>
                separates entry (List.mem_cons_of_mem _ member)]
            exact congrArg (word :: ·) (induction rest)

end WindowSystem.Library.Tokens
