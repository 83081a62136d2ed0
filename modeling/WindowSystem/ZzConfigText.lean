import WindowSystem.ZzConfig

/-!
# Configuration files that come back

`zz_config_save` writes names and values as they are, and `zz_config_load`
reads lines of at most 1023 bytes.  The module says which trees are the same
after both, and shows that all others are lost or changed.
-/

namespace WindowSystem.ZzConfigText

open WindowSystem.CRuntime
open WindowSystem.InstantQueryContent
open WindowSystem.Library.Outline
open WindowSystem.ListFiles
open WindowSystem.UrlCode (isAlnum)
open WindowSystem.ZzConfig

variable {level lineno : Nat} {self : Entry} {name value rest curLine : Bytes}

/-! ## Items that can be stored -/

/-- A name that `s_collect_name` takes as a whole. -/
structure Name (name : Bytes) : Prop where
  some : name ≠ []
  characters : ∀ byte ∈ name, sIsNamechar byte = true
  first : name.head? ≠ .some 47
  last : name.getLast? ≠ .some 47

/-- An item whose line is read back: it has a name, its value has no quote and
neither ends the line nor the string, and the line fits. -/
structure Storable (level : Nat) (entry : Entry) : Prop where
  name : Name entry.name
  value : ∀ value ∈ entry.value, 34 ∉ value ∧ 10 ∉ value ∧ 0 ∉ value
  fits : (sConfigSave level entry).length ≤ lineSize

/-- A saved item after loading: `NULL` has become the empty value. -/
def reloaded (self : Entry) : Entry :=
  { self with value := some (self.value.getD []) }

/-- The part of a line behind the name. -/
def valueText : Option Bytes → Bytes
  | none => []
  | some value => [32, 61, 32, 34] ++ (value ++ [34])

/-- A line without its newline. -/
def itemText (level : Nat) (self : Entry) : Bytes :=
  List.replicate (4 * level) 32 ++ (self.name ++ valueText self.value)

theorem sConfigSave_eq :
    sConfigSave level self = itemText level self ++ [10] := by
  have opening : ascii " = \"" = [32, 61, 32, 34] := by decide
  have closing : ascii "\"\n" = [34, 10] := by decide
  have ending : ascii "\n" = [10] := by decide
  obtain ⟨name, value⟩ := self
  cases value with
  | none => simp [sConfigSave, itemText, valueText, ending]
  | some value => simp [sConfigSave, itemText, valueText, opening, closing]

theorem sConfigExecute_eq (items : Items) :
    sConfigExecute level items =
      (items.lines level).flatMap fun line => sConfigSave line.1 line.2 := by
  induction items generalizing level with
  | nil => rfl
  | cons self child next below behind =>
      rw [sConfigExecute, Forest.lines, List.flatMap_cons,
        List.flatMap_append, below, behind]

/-! ## Trimmed lines -/

theorem rtrim_of_not_isSpace {byte : UInt8} (text : Bytes)
    (noSpace : isSpace byte = false) :
    rtrim (text ++ [byte]) = text ++ [byte] := by
  rw [rtrim, List.reverse_append, List.reverse_singleton,
    List.singleton_append, List.dropWhile_cons_of_neg (by simp [noSpace]),
    List.reverse_cons, List.reverse_reverse]

/-- Only the part behind a byte that is no blank is trimmed. -/
theorem rtrim_append {byte : UInt8} (text rest : Bytes)
    (noSpace : isSpace byte = false) :
    rtrim (text ++ byte :: rest) = text ++ byte :: rtrim rest := by
  induction rest using List.reverseRecOn with
  | nil =>
      exact rtrim_of_not_isSpace text noSpace
  | append_singleton rest last induction =>
      rw [← List.cons_append, ← List.append_assoc]
      cases space : isSpace last with
      | true =>
          rw [rtrim_of_isSpace _ space, induction, rtrim_of_isSpace _ space]
      | false =>
          rw [rtrim_of_not_isSpace _ space, rtrim_of_not_isSpace _ space,
            List.append_assoc, List.cons_append]

theorem not_isSpace_of_isNamechar {byte : UInt8}
    (character : sIsNamechar byte = true) : isSpace byte = false := by
  by_contra space
  simp only [isSpace, sIsNamechar, isAlnum, Bool.not_eq_false, Bool.or_eq_true,
    beq_iff_eq, Bool.and_eq_true, decide_eq_true_eq, UInt8.le_iff_toNat_le,
    ← UInt8.toNat_inj, UInt8.reduceToNat] at space character
  omega

/-- A name is not trimmed. -/
theorem rtrim_name (isName : Name name) (front rest : Bytes) :
    rtrim (front ++ (name ++ rest)) =
      front ++ (name ++ rtrim rest) := by
  obtain ⟨text, last, rfl⟩ :=
    (List.eq_nil_or_concat name).resolve_left isName.some
  have noSpace : isSpace last = false :=
    not_isSpace_of_isNamechar (isName.characters last (by simp))
  have trimmed := rtrim_append (front ++ text) rest noSpace
  simpa using trimmed

/-! ## The parts of a line -/

/-- What is collected ends where another kind of byte stands. -/
theorem collect_exact {p : UInt8 → Bool} {text : Bytes}
    (inside : ∀ byte ∈ text, p byte = true)
    (ends : ∀ byte ∈ rest.head?, p byte = false) :
    (text ++ rest).takeWhile p = text ∧ (text ++ rest).dropWhile p = rest := by
  rw [List.takeWhile_append_of_pos inside, List.dropWhile_append_of_pos inside]
  cases rest with
  | nil => simp
  | cons byte rest =>
      have stops : ¬ p byte = true := by simp [ends byte rfl]
      rw [List.takeWhile_cons_of_neg stops, List.dropWhile_cons_of_neg stops,
        List.append_nil]
      exact ⟨rfl, rfl⟩

theorem sCollectLevel_blanks (noBlank : ∀ byte ∈ rest.head?, byte ≠ 32) :
    sCollectLevel (List.replicate (4 * level) 32 ++ rest) =
      .ok (level, rest) := by
  have blanks : ∀ byte ∈ List.replicate (4 * level) (32 : UInt8),
      (byte == 32) = true := by
    intro byte member
    rw [List.eq_of_mem_replicate member]
    rfl
  obtain ⟨taken, dropped⟩ := @collect_exact rest _ _ blanks
    fun byte first => by simpa using noBlank byte first
  have number : 4 * level / 4 * 4 = 4 * level := by omega
  have levels : 4 * level / 4 = level := by omega
  rw [sCollectLevel, taken, dropped, List.length_replicate, if_pos number,
    levels]

theorem sCollectName_name (isName : Name name)
    (ends : ∀ byte ∈ rest.head?, sIsNamechar byte = false) :
    sCollectName (name ++ rest) = .ok (name, rest) := by
  obtain ⟨taken, dropped⟩ := collect_exact isName.characters ends
  have slashes : ¬ (name ≠ [] ∧
      (name.head? = some 47 ∨ name.getLast? = some 47)) := by
    rintro ⟨-, first | last⟩
    · exact isName.first first
    · exact isName.last last
  rw [sCollectName, taken, dropped, if_neg slashes]

/-- A line with a name is an item with the value behind the name. -/
theorem parseLine_name (isName : Name name)
    (ends : ∀ byte ∈ rest.head?, sIsNamechar byte = false)
    (trimmed : rtrim (cString curLine) =
      List.replicate (4 * level) 32 ++ (name ++ rest)) :
    parseLine curLine =
      (sCollectValue rest).map fun value =>
        ⟨level, some ⟨name, some value⟩⟩ := by
  have noBlank : ∀ byte ∈ (name ++ rest).head?, byte ≠ 32 := by
    obtain ⟨byte, text, rfl⟩ := List.exists_cons_of_ne_nil isName.some
    rintro _ ⟨⟩ rfl
    exact absurd (isName.characters 32 List.mem_cons_self) (by decide)
  rw [parseLine, trimmed, sCollectLevel_blanks noBlank]
  simp only [Except.bind, sCollectName_name isName ends, if_neg isName.some]

/-- A value in double quotes is read up to the first double quote. -/
theorem quoted_eq_ok {text : Bytes} (isRead : quoted 34 text = .ok value) :
    34 ∈ text ∧ value = text.takeWhile (· != 34) := by
  rw [quoted] at isRead
  split at isRead
  · cases isRead
  · rename_i byte behind found
    split_ifs at isRead
    cases isRead
    refine ⟨?_, rfl⟩
    by_contra noQuote
    have nothing : text.dropWhile (· != 34) = [] := by
      rw [List.dropWhile_eq_nil_iff]
      intro byte member
      have other : byte ≠ 34 := fun equal => noQuote (equal ▸ member)
      simpa using other
    rw [nothing] at found
    cases found

theorem quoted_quote (noQuote : 34 ∉ value) :
    quoted 34 (value ++ [34]) = .ok value := by
  have inside : ∀ byte ∈ value, (byte != 34) = true := by
    intro byte member
    have other : byte ≠ 34 := fun equal => noQuote (equal ▸ member)
    simpa using other
  obtain ⟨taken, dropped⟩ := @collect_exact [34] _ _ inside (by simp)
  rw [quoted, taken, dropped]
  rfl

theorem sCollectValue_text (text : Bytes) :
    sCollectValue ([32, 61, 32, 34] ++ text) = quoted 34 text := by
  rfl

/-! ## The lines that are read -/

/-- A newline is only stored as the last byte. -/
theorem fgets_stored (room : Nat) (stream : Bytes) :
    ∃ text, 10 ∉ text ∧ ((fgets room stream).stored = text ∨
      (fgets room stream).stored = text ++ [10]) := by
  induction room generalizing stream with
  | zero => exact ⟨[], List.not_mem_nil, .inl rfl⟩
  | succ room induction =>
      cases stream with
      | nil => exact ⟨[], List.not_mem_nil, .inl rfl⟩
      | cons byte stream =>
          rw [fgets]
          split_ifs with newline
          · exact ⟨[], List.not_mem_nil, .inr (by rw [newline]; rfl)⟩
          · obtain ⟨text, inside, whole⟩ := induction stream
            refine ⟨byte :: text, ?_, ?_⟩
            · rw [List.mem_cons, not_or]
              exact ⟨fun equal => newline equal.symm, inside⟩
            · exact whole.imp (congrArg (byte :: ·)) (congrArg (byte :: ·))

theorem rtrim_subset (text : Bytes) : rtrim text ⊆ text :=
  (isPrefix_rtrim text).subset

/-- What a line can be when it is read. -/
theorem readLines_mem {file : Bytes} (member : curLine ∈ readLines file) :
    curLine.length < lineSize ∧ 10 ∉ rtrim (cString curLine) := by
  induction file using readLines.induct with
  | case1 file reading empty =>
      rw [readLines] at member
      simp only [reading] at empty
      simp [empty] at member
  | case2 file reading some induction =>
      simp only [reading] at some induction
      rw [readLines] at member
      simp only [if_neg some, List.mem_cons] at member
      rcases member with rfl | later
      · have short := length_stored_le (lineSize - 1) file
        refine ⟨Nat.lt_of_le_sub_one (by decide) short, ?_⟩
        obtain ⟨text, inside, whole | whole⟩ :=
          fgets_stored (lineSize - 1) file
        · rw [whole]
          exact fun newline =>
            inside ((List.takeWhile_subset _) (rtrim_subset _ newline))
        · rw [whole]
          by_cases ends : 0 ∈ text
          · rw [cString_append_of_mem ends]
            exact fun newline =>
              inside ((List.takeWhile_subset _) (rtrim_subset _ newline))
          · rw [cString_eq_self (by simp [ends]), rtrim_newline]
            exact fun newline => inside (rtrim_subset _ newline)
      · exact induction later

/-- An item as it is read from a line. -/
structure Read (level : Nat) (entry : Entry) : Prop where
  name : Name entry.name
  fits : 4 * level + entry.name.length < lineSize
  value : ∃ value, entry.value = some value ∧ 10 ∉ value ∧ 0 ∉ value

theorem unquoted_subset (blanks : Bool) (text : Bytes) :
    unquoted blanks text ⊆ text := by
  simp only [unquoted]
  split_ifs
  · exact List.Subset.refl text
  · exact fun byte member =>
      List.takeWhile_subset _ (rtrim_subset _ member)
  · exact List.Subset.refl text

theorem quoted_subset {quote : UInt8} {text : Bytes}
    (isRead : quoted quote text = .ok value) : value ⊆ text := by
  rw [quoted] at isRead
  split at isRead
  · cases isRead
  · split_ifs at isRead
    cases isRead
    exact List.takeWhile_subset _

theorem sCollectValue_subset {text : Bytes}
    (isRead : sCollectValue text = .ok value) : value ⊆ text := by
  have skipped := (List.dropWhile_suffix isSpace (l := text)).subset
  rw [sCollectValue] at isRead
  split at isRead
  · cases isRead
    exact List.nil_subset text
  · rename_i byte readptr found
    rw [found] at skipped
    have behind := List.Subset.trans
      (List.subset_cons_self byte readptr) skipped
    have further := (List.dropWhile_suffix (l := readptr) isSpace).subset
    split_ifs at isRead
    · split at isRead
      · cases isRead
        exact List.nil_subset text
      · rename_i first rest found
        rw [found] at further
        split_ifs at isRead
        · exact fun byte member => behind (further
            (List.mem_cons_of_mem first (quoted_subset isRead member)))
        · cases isRead
          exact fun byte member =>
            behind (further (unquoted_subset _ _ member))
    · cases isRead
      exact List.nil_subset text

theorem sCollectLevel_eq_ok {text scanner : Bytes}
    (collected : sCollectLevel text = .ok (level, scanner)) :
    text.length = 4 * level + scanner.length ∧ scanner ⊆ text := by
  have whole := List.takeWhile_append_dropWhile (p := (· == 32)) (l := text)
  have sizes := congrArg List.length whole
  rw [List.length_append] at sizes
  simp only [sCollectLevel] at collected
  split_ifs at collected with fours
  cases collected
  exact ⟨by omega, (List.dropWhile_suffix _).subset⟩

theorem sCollectName_eq_ok {scanner : Bytes}
    (collected : sCollectName scanner = .ok (name, rest)) (some : name ≠ []) :
    Name name ∧ scanner = name ++ rest := by
  simp only [sCollectName] at collected
  split_ifs at collected with slashes
  cases collected
  have neither := not_and.mp slashes some
  rw [not_or] at neither
  refine ⟨⟨some, ?_, neither.1, neither.2⟩, ?_⟩
  · exact fun byte member => List.mem_takeWhile_imp member
  · exact (List.takeWhile_append_dropWhile).symm

theorem parseLine_read {file : Bytes} {parsed : Line} {entry : Entry}
    (member : curLine ∈ readLines file)
    (isRead : parseLine curLine = .ok parsed)
    (has : parsed.entry = some entry) : Read parsed.level entry := by
  obtain ⟨short, noNewline⟩ := readLines_mem member
  have noNul : 0 ∉ rtrim (cString curLine) := by
    intro zero
    have nonzero := List.mem_takeWhile_imp (rtrim_subset _ zero)
    simp at nonzero
  have smaller : (rtrim (cString curLine)).length < lineSize :=
    ((isPrefix_rtrim _).length_le.trans
      (List.takeWhile_prefix _).length_le).trans_lt short
  rw [parseLine, bind_eq_ok] at isRead
  obtain ⟨⟨level, scanner⟩, leveled, isRead⟩ := isRead
  obtain ⟨⟨name, behind⟩, named, isRead⟩ := bind_eq_ok.mp isRead
  obtain ⟨size, within⟩ := sCollectLevel_eq_ok leveled
  simp only at isRead
  split_ifs at isRead with empty end'
  · cases isRead
    cases has
  · obtain ⟨isName, parts⟩ := sCollectName_eq_ok named empty
    cases collected : sCollectValue behind with
    | error failure =>
        rw [collected] at isRead
        cases isRead
    | ok value =>
        rw [collected] at isRead
        cases isRead
        cases has
        have subset : value ⊆ rtrim (cString curLine) := by
          intro byte inside
          refine within ?_
          rw [parts]
          exact List.mem_append_right name
            (sCollectValue_subset collected inside)
        refine ⟨isName, ?_, value, rfl, fun newline =>
          noNewline (subset newline), fun zero => noNul (subset zero)⟩
        rw [parts, List.length_append] at size
        simp only
        omega

/-! ## One item -/

/-- The file gives these items, and so many lines at the second level. -/
def Gives (file : Bytes) (lineno : Nat) (items : List (Nat × Entry)) : Prop :=
  ∃ parsed, (readLines file).mapM parseLine = .ok parsed ∧
    lineno = nested parsed ∧ items = entries parsed

variable {file : Bytes} {items : List (Nat × Entry)}

theorem gives_cons {behind : Bytes}
    (split : readLines file = curLine :: readLines behind) :
    Gives file lineno items ↔
      ∃ line, parseLine curLine = .ok line ∧
        ∃ number others, Gives behind number others ∧
          lineno = nested [line] + number ∧
          items = entries [line] ++ others := by
  simp only [Gives, split, mapM_cons_eq_ok]
  constructor
  · rintro ⟨_, ⟨line, parsed, isRead, others, rfl⟩, rfl, rfl⟩
    exact ⟨line, isRead, _, _, ⟨parsed, others, rfl, rfl⟩, nested_cons,
      entries_cons⟩
  · rintro ⟨line, isRead, _, _, ⟨parsed, others, rfl, rfl⟩, rfl, rfl⟩
    exact ⟨line :: parsed, ⟨line, parsed, isRead, others, rfl⟩,
      nested_cons.symm, entries_cons.symm⟩

/-- Every item stands in one of the lines. -/
theorem entries_mem {curLines : List Bytes} {parsed : List Line}
    {item : Nat × Entry} (isRead : curLines.mapM parseLine = .ok parsed)
    (member : item ∈ entries parsed) :
    ∃ curLine ∈ curLines, ∃ line, parseLine curLine = .ok line ∧
      line.level = item.1 ∧ line.entry = some item.2 := by
  induction curLines generalizing parsed with
  | nil =>
      cases isRead
      exact (List.not_mem_nil member).elim
  | cons curLine curLines induction =>
      obtain ⟨line, rest, first, others, rfl⟩ := mapM_cons_eq_ok.mp isRead
      rw [entries_cons, List.mem_append] at member
      rcases member with here | later
      · refine ⟨curLine, List.mem_cons_self, line, first, ?_⟩
        cases has : line.entry with
        | none => simp [entries, has] at here
        | some entry =>
            have same : item = (line.level, entry) := by
              simpa [entries, has] using here
            rw [same]
            exact ⟨rfl, rfl⟩
      · obtain ⟨found, inside, further⟩ := induction others later
        exact ⟨found, List.mem_cons_of_mem _ inside, further⟩

theorem gives_read (gives : Gives file lineno items) {item : Nat × Entry}
    (member : item ∈ items) : Read item.1 item.2 := by
  obtain ⟨parsed, isRead, -, rfl⟩ := gives
  obtain ⟨curLine, inside, line, first, level, has⟩ :=
    entries_mem isRead member
  rw [← level]
  exact parseLine_read inside first has

/-- One line that says an item, before the others. -/
theorem gives_entry {behind : Bytes} {found : Except Failure Bytes}
    (split : readLines file = curLine :: readLines behind)
    (isRead : parseLine curLine =
      found.map fun value => ⟨level, some ⟨name, some value⟩⟩) :
    Gives file lineno ((level, ⟨name, some value⟩) :: items) ↔
      found = .ok value ∧ ∃ number, Gives behind number items ∧
        lineno = (if level = 1 then 1 else 0) + number := by
  have counted : nested [⟨level, some ⟨name, some value⟩⟩] =
      if level = 1 then 1 else 0 := by
    rw [nested, List.countP_singleton]
    simp
  rw [gives_cons split, isRead]
  constructor
  · rintro ⟨line, first, number, others, later, rfl, same⟩
    cases found with
    | error failure => cases first
    | ok other =>
        cases first
        obtain ⟨⟨⟩, rfl⟩ := List.cons.inj same
        exact ⟨rfl, number, later, by rw [counted]⟩
  · rintro ⟨rfl, number, later, rfl⟩
    exact ⟨_, rfl, number, items, later, by rw [counted], rfl⟩

theorem gives_newline :
    Gives (10 :: rest) lineno items ↔ Gives rest lineno items := by
  have split : readLines (10 :: rest) = [10] :: readLines rest :=
    readLines_line List.not_mem_nil (by decide) rest
  have blank : parseLine [10] = .ok ⟨0, none⟩ := by rfl
  rw [gives_cons split, blank]
  constructor
  · rintro ⟨line, ⟨⟩, number, others, later, rfl, rfl⟩
    have zero : nested [⟨0, none⟩] = 0 := by rfl
    rwa [zero, Nat.zero_add]
  · intro later
    exact ⟨_, rfl, lineno, items, later, (Nat.zero_add _).symm, rfl⟩

theorem sCollectValue_valueText {value : Option Bytes} :
    sCollectValue (valueText value) = .ok (value.getD []) ↔
      ∀ text ∈ value, 34 ∉ text := by
  cases value with
  | none =>
      refine ⟨?_, fun _ => rfl⟩
      rintro - _ ⟨⟩
  | some text =>
      rw [valueText, sCollectValue_text]
      constructor
      · rintro isRead _ ⟨⟩ quote
        obtain ⟨-, front⟩ := quoted_eq_ok isRead
        rw [takeWhile_stop (by rfl)] at front
        rw [Option.getD_some] at front
        rw [front] at quote
        simpa using List.mem_takeWhile_imp quote
      · exact fun noQuote => quoted_quote (noQuote text rfl)

theorem head_valueText {value : Option Bytes} {front : Bytes}
    (isFront : front <+: valueText value) :
    ∀ byte ∈ front.head?, sIsNamechar byte = false := by
  obtain ⟨behind, whole⟩ := isFront
  cases front with
  | nil => rintro _ ⟨⟩
  | cons first front =>
      rintro _ ⟨⟩
      cases value with
      | none => cases whole
      | some text =>
          cases (List.cons.inj whole).1
          decide

/-- A line that is cut behind the opening quote has no value, or another
one. -/
theorem cut_in_value {text : Bytes} {number : Nat} :
    sCollectValue ([32, 61, 32, 34] ++ rtrim (text.take number)) ≠
      .ok text := by
  intro isRead
  rw [sCollectValue_text] at isRead
  obtain ⟨quote, front⟩ := quoted_eq_ok isRead
  have inside : 34 ∈ text :=
    List.take_subset number text (rtrim_subset _ quote)
  rw [front] at inside
  simpa using List.mem_takeWhile_imp inside

/-- What is left of a line that is cut before the opening quote is no line. -/
theorem not_gives_rest {number : Nat} (before : number < 4) :
    ¬ Gives ((valueText (some [])).drop number ++ 10 :: rest) lineno items := by
  have noNewline : 10 ∉ (valueText (some [])).drop number := fun member =>
    absurd (List.drop_subset _ _ member) (by decide)
  have short : ((valueText (some [])).drop number).length + 1 < lineSize := by
    rw [List.length_drop]
    exact (Nat.succ_le_succ (Nat.sub_le _ _)).trans_lt (by decide)
  rw [gives_cons (readLines_line noNewline short rest)]
  rintro ⟨line, isRead, -⟩
  have invalid : parseLine ((valueText (some [])).drop number ++ [10]) =
      .error .invalid := by
    interval_cases number <;> rfl
  rw [invalid] at isRead
  cases isRead

section Item

variable (plain : Read level (reloaded self))
include plain

theorem noNewline_itemText : 10 ∉ itemText level self := by
  obtain ⟨isName, -, value, ⟨⟩, noNewline, -⟩ := plain
  have inName : 10 ∉ self.name := fun member =>
    absurd (isName.characters 10 member) (by decide)
  cases has : self.value with
  | none => simp [itemText, has, valueText, inName]
  | some text =>
      rw [has] at noNewline
      simpa [itemText, has, valueText, inName] using noNewline

theorem noNul_itemText : 0 ∉ itemText level self := by
  obtain ⟨isName, -, value, ⟨⟩, -, noNul⟩ := plain
  have inName : 0 ∉ self.name := fun member =>
    absurd (isName.characters 0 member) (by decide)
  cases has : self.value with
  | none => simp [itemText, has, valueText, inName]
  | some text =>
      rw [has] at noNul
      simpa [itemText, has, valueText, inName] using noNul

/-- What is read of a line from its beginning to somewhere behind the
name. -/
theorem parseLine_front {front : Bytes}
    (isFront : front <+: valueText self.value)
    (noNul : 0 ∉ curLine)
    (trimmed : rtrim curLine =
      List.replicate (4 * level) 32 ++ (self.name ++ front)) :
    parseLine curLine =
      (sCollectValue front).map fun value =>
        ⟨level, some ⟨self.name, some value⟩⟩ := by
  rw [← cString_eq_self noNul] at trimmed
  rw [parseLine_name plain.name (head_valueText isFront) trimmed]
  rfl

theorem rtrim_itemText : rtrim (itemText level self) = itemText level self := by
  have isName : Name self.name := plain.name
  rw [itemText, rtrim_name isName]
  cases self.value with
  | none => rfl
  | some text =>
      rw [valueText, ← List.append_assoc _ text,
        rtrim_of_not_isSpace _ (by rfl)]

/-- A line that fits is read completely. -/
theorem gives_short (fits : (sConfigSave level self).length ≤ lineSize) :
    Gives (sConfigSave level self ++ rest) lineno
        ((level, reloaded self) :: items) ↔
      (∀ text ∈ self.value, 34 ∉ text) ∧
        ∃ number, Gives rest number items ∧
          lineno = (if level = 1 then 1 else 0) + number := by
  have noNewline := noNewline_itemText plain
  have noNul := noNul_itemText plain
  have trimmed := rtrim_itemText plain
  have isFront := List.prefix_refl (valueText self.value)
  rw [sConfigSave_eq, List.length_append, List.length_singleton] at fits
  rw [sConfigSave_eq, List.append_assoc, List.singleton_append,
    ← sCollectValue_valueText]
  rcases Nat.lt_or_eq_of_le fits with short | exact
  · exact gives_entry (readLines_line noNewline short rest)
      (parseLine_front plain isFront (by simp [noNul])
        (by rw [rtrim_newline, trimmed]; rfl))
  · have size : (itemText level self).length = lineSize - 1 :=
      Nat.eq_sub_of_add_eq exact
    have split := readLines_long noNewline (Nat.le_of_eq exact.symm)
      (10 :: rest)
    rw [← size, List.take_length, List.drop_length, List.nil_append] at split
    have step := @gives_entry level lineno self.name (self.value.getD [])
      (itemText level self) _ items (10 :: rest) _ split
      (parseLine_front plain isFront noNul (by rw [trimmed]; rfl))
    simp only [gives_newline] at step
    exact step

/-- A line that does not fit is cut behind its name. -/
theorem cut_itemText (long : lineSize < (sConfigSave level self).length) :
    ∃ text number, self.value = some text ∧ number ≤ text.length + 4 ∧
      (itemText level self).take (lineSize - 1) =
        List.replicate (4 * level) 32 ++
          (self.name ++ (valueText (some text)).take number) ∧
      (itemText level self).drop (lineSize - 1) =
        (valueText (some text)).drop number := by
  have small : 4 * level + self.name.length < lineSize := plain.fits
  have size : (List.replicate (4 * level) (32 : UInt8) ++ self.name).length =
      4 * level + self.name.length := by
    rw [List.length_append, List.length_replicate]
  rw [sConfigSave_eq, List.length_append, List.length_singleton, itemText,
    ← List.append_assoc, List.length_append, size] at long
  obtain ⟨number, room⟩ := Nat.exists_eq_add_of_lt small
  have cut : lineSize - 1 = 4 * level + self.name.length + number := by
    omega
  cases has : self.value with
  | none =>
      rw [has, valueText, List.length_nil] at long
      omega
  | some text =>
      rw [has] at long
      refine ⟨text, number, rfl, ?_, ?_, ?_⟩
      · simp only [valueText, List.length_append, List.length_cons,
          List.length_nil] at long
        omega
      · rw [itemText, ← List.append_assoc, ← List.append_assoc, cut, ← size,
          List.take_length_add_append, has]
      · rw [itemText, ← List.append_assoc, cut, ← size,
          List.drop_length_add_append, has]

/-- A line that does not fit is not read back. -/
theorem not_gives_long (long : lineSize < (sConfigSave level self).length) :
    ¬ Gives (sConfigSave level self ++ rest) lineno
      ((level, reloaded self) :: items) := by
  obtain ⟨text, number, has, inside, front, behind⟩ := cut_itemText plain long
  rw [sConfigSave_eq, List.length_append, List.length_singleton] at long
  rw [sConfigSave_eq, List.append_assoc, List.singleton_append, reloaded, has]
  have split := readLines_long (noNewline_itemText plain)
    (Nat.le_of_lt long) (10 :: rest)
  have trimmed := rtrim_name plain.name (List.replicate (4 * level) 32)
    ((valueText (some text)).take number)
  have isFront : rtrim ((valueText (some text)).take number) <+:
      valueText self.value := by
    rw [has]
    exact (isPrefix_rtrim _).trans (List.take_prefix _ _)
  have noNul : 0 ∉ (itemText level self).take (lineSize - 1) :=
    fun member => noNul_itemText plain (List.take_subset _ _ member)
  have isRead := parseLine_front plain isFront noNul
    (by rw [front]; exact trimmed)
  rw [Option.getD_some, gives_entry split isRead, behind]
  rintro ⟨found, others, later, -⟩
  by_cases before : number < 4
  · have empty : sCollectValue
        (rtrim ((valueText (some text)).take number)) = .ok [] := by
      interval_cases number <;> rfl
    cases empty.symm.trans found
    exact not_gives_rest before later
  · obtain ⟨further, rfl⟩ :=
      Nat.exists_eq_add_of_le' (Nat.le_of_not_lt before)
    have taken : (valueText (some text)).take (further + 4) =
        [32, 61, 32] ++ 34 :: text.take further := by
      rw [← List.take_append_of_le_length (Nat.le_of_add_le_add_right inside)]
      rfl
    rw [taken, rtrim_append _ _ (by rfl)] at found
    exact cut_in_value found

/-- What is read from a file that begins with a saved item. -/
theorem gives_item :
    Gives (sConfigSave level self ++ rest) lineno
        ((level, reloaded self) :: items) ↔
      Storable level self ∧ ∃ number, Gives rest number items ∧
        lineno = (if level = 1 then 1 else 0) + number := by
  have isName : Name self.name := plain.name
  obtain ⟨value, ⟨⟩, noNewline, noNul⟩ := plain.value
  constructor
  · intro gives
    have fits := Nat.le_of_not_lt fun long => not_gives_long plain long gives
    obtain ⟨noQuote, later⟩ := (gives_short plain fits).mp gives
    refine ⟨⟨isName, ?_, fits⟩, later⟩
    intro text has
    rw [has] at noNewline noNul
    exact ⟨noQuote text has, noNewline, noNul⟩
  · rintro ⟨storable, later⟩
    exact (gives_short plain storable.fits).mpr
      ⟨fun text has => (storable.value text has).1, later⟩

end Item

theorem Storable.read (storable : Storable level self) :
    Read level (reloaded self) where
  name := storable.name
  fits := by
    have fits := storable.fits
    rw [sConfigSave_eq, itemText] at fits
    simp only [List.length_append, List.length_replicate,
      List.length_singleton] at fits
    change 4 * level + self.name.length < lineSize
    omega
  value := by
    refine ⟨self.value.getD [], rfl, ?_⟩
    cases has : self.value with
    | none => exact ⟨List.not_mem_nil, List.not_mem_nil⟩
    | some value => exact (storable.value value has).2

/-! ## A whole tree -/

/-- A sequence of saved items is read back when each of them can be
stored. -/
theorem gives_save {lines : List (Nat × Entry)} :
    Gives (lines.flatMap fun line => sConfigSave line.1 line.2) lineno
        (lines.map fun line => (line.1, reloaded line.2)) ↔
      (∀ line ∈ lines, Storable line.1 line.2) ∧
        lineno = lines.countP fun line => line.1 = 1 := by
  induction lines generalizing lineno with
  | nil =>
      have done : readLines [] = [] := by
        rw [readLines]
        rfl
      rw [List.flatMap_nil, Gives, done]
      constructor
      · rintro ⟨_, ⟨⟩, number, -⟩
        exact ⟨fun _ member => (List.not_mem_nil member).elim, number⟩
      · rintro ⟨-, number⟩
        exact ⟨[], rfl, number, rfl⟩
  | cons line lines induction =>
      obtain ⟨level, self⟩ := line
      rw [List.flatMap_cons, List.map_cons, List.forall_mem_cons,
        List.countP_cons]
      constructor
      · intro gives
        have plain := gives_read gives List.mem_cons_self
        obtain ⟨storable, number, later, rfl⟩ := (gives_item plain).mp gives
        obtain ⟨others, rfl⟩ := induction.mp later
        exact ⟨⟨storable, others⟩, by simp [Nat.add_comm]⟩
      · rintro ⟨⟨storable, others⟩, rfl⟩
        exact (gives_item storable.read).mpr
          ⟨storable, _, induction.mpr ⟨others, rfl⟩, by simp [Nat.add_comm]⟩

/-- A tree that is saved and loaded again is the same tree, with empty values
in the place of `NULL`, exactly when every item can be stored in its place.
The line number of the root then counts the items at the second level. -/
theorem zzConfigLoad_zzConfigSave (root : Root) :
    zzConfigLoad (zzConfigSave root) =
        .ok ⟨(root.child.lines 0).countP fun line => line.1 = 1,
          root.child.map reloaded⟩ ↔
      ∀ line ∈ root.child.lines 0, Storable line.1 line.2 := by
  rw [zzConfigLoad_eq_ok_iff, Forest.lines_map, zzConfigSave,
    sConfigExecute_eq]
  exact gives_save.trans (and_iff_left rfl)

theorem zzConfigLoad_eq_ok_iff_gives {root : Root} :
    zzConfigLoad file = .ok root ↔
      Gives file root.lineno (root.child.lines 0) :=
  zzConfigLoad_eq_ok_iff file root

theorem Read.reloaded_eq (isRead : Read level self) : reloaded self = self := by
  obtain ⟨value, has, -⟩ := isRead.value
  obtain ⟨name, _⟩ := self
  cases has
  rfl

theorem Read.storable_iff (isRead : Read level self) :
    Storable level self ↔
      (∀ value ∈ self.value, 34 ∉ value) ∧
        (sConfigSave level self).length ≤ lineSize := by
  constructor
  · intro storable
    exact ⟨fun value has => (storable.value value has).1, storable.fits⟩
  · rintro ⟨noQuote, fits⟩
    refine ⟨isRead.name, ?_, fits⟩
    intro value has
    obtain ⟨same, isValue, clean⟩ := isRead.value
    cases isValue.symm.trans has
    exact ⟨noQuote value has, clean⟩

/-- A tree that comes from a file survives another round exactly when no value
has a double quote and every line still fits with the quotes around its
value. -/
theorem zzConfigLoad_again {root : Root}
    (loaded : zzConfigLoad file = .ok root) :
    (∃ lineno, zzConfigLoad (zzConfigSave root) =
        .ok ⟨lineno, root.child⟩) ↔
      ∀ line ∈ root.child.lines 0,
        (∀ value ∈ line.2.value, 34 ∉ value) ∧
          (sConfigSave line.1 line.2).length ≤ lineSize := by
  have isRead : ∀ line ∈ root.child.lines 0, Read line.1 line.2 :=
    fun _ member => gives_read (zzConfigLoad_eq_ok_iff_gives.mp loaded) member
  have same : (root.child.lines 0).map
      (fun line => (line.1, reloaded line.2)) = root.child.lines 0 := by
    rw [List.map_congr_left (g := id)
      fun line member => by rw [(isRead line member).reloaded_eq]; rfl]
    exact List.map_id _
  have storable := fun lineno => @gives_save lineno (root.child.lines 0)
  rw [same] at storable
  simp only [zzConfigLoad_eq_ok_iff_gives, zzConfigSave, sConfigExecute_eq,
    storable, exists_and_left, exists_eq, and_true]
  exact forall₂_congr fun line member => (isRead line member).storable_iff

/-- The items of a file with two levels. -/
def serverItems : Items :=
  .cons ⟨ascii "server", some (ascii "main")⟩
    (.cons ⟨ascii "uri", some (ascii "/a b")⟩ .nil
      (.cons ⟨ascii "log", some []⟩ .nil .nil))
    (.cons ⟨ascii "pool", some (ascii "4")⟩ .nil .nil)

/-- A file with items at two levels, a blank line, a value in quotes and one
that is missing. -/
theorem zzConfigLoad_again_items :
    ∃ lineno, zzConfigLoad (zzConfigSave ⟨2, serverItems⟩) =
      .ok ⟨lineno, serverItems⟩ := by
  have split : readLines (ascii
      "server = main
    uri = \"/a b\"

    log
pool = 4
") =
      [ascii "server = main
", ascii "    uri = \"/a b\"
", ascii "
",
        ascii "    log
", ascii "pool = 4
"] := by
    have done : readLines [] = [] := by
      rw [readLines]
      rfl
    have pool := @readLines_line (ascii "pool = 4")
      (by decide) (by decide) []
    have log := @readLines_line (ascii "    log") (by decide) (by decide)
      (ascii "pool = 4
")
    have blank := @readLines_line [] (by decide) (by decide)
      (ascii "    log
pool = 4
")
    have uri := @readLines_line (ascii "    uri = \"/a b\"")
      (by decide) (by decide) (ascii "
    log
pool = 4
")
    have server := @readLines_line (ascii "server = main")
      (by decide) (by decide)
      (ascii "    uri = \"/a b\"

    log
pool = 4
")
    exact server.trans (congrArg _ (uri.trans (congrArg _ (blank.trans
      (congrArg _ (log.trans (congrArg _ (pool.trans
        (congrArg _ done)))))))))
  have loaded : zzConfigLoad (ascii
      "server = main
    uri = \"/a b\"

    log
pool = 4
") =
      .ok ⟨2, serverItems⟩ := by
    rw [zzConfigLoad, split]
    rfl
  refine (zzConfigLoad_again loaded).mpr ?_
  decide

end WindowSystem.ZzConfigText
