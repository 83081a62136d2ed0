import WindowSystem.Library.MissingResult
import WindowSystem.ToolHashMap

/-!
# The readers of list files

`hash_map_read_file`, `hash_map_host_white_read_file` and
`load_nolen_limit_hash_map` of `tool_hash_map_new.c` put the lines of a file
into a map.  They read with `fgets` into an array of 255 bytes until `feof`
answers true, and cut off the last character of whatever was read.
-/

namespace WindowSystem.ListFiles

open WindowSystem.CRuntime
open WindowSystem.Library.MissingResult (exists_of_mem_mapM)
open WindowSystem.ToolHashMap

/-! ## Reading a stream -/

/-- What a call of `fgets` stores, what it leaves of the stream, and whether
it has met the end of the file. -/
structure Reading where
  stored : Bytes
  rest : Bytes
  eof : Bool
deriving DecidableEq

/-- `fgets` into an array with room for so many bytes and the terminator. -/
def fgets : Nat → Bytes → Reading
  | 0, rest => ⟨[], rest, false⟩
  | _ + 1, [] => ⟨[], [], true⟩
  | room + 1, byte :: rest =>
      if byte = 10 then ⟨[byte], rest, false⟩
      else
        let reading := fgets room rest
        { reading with stored := byte :: reading.stored }

/-- Everything that is read comes from the front of the stream. -/
theorem fgets_append (room : Nat) (stream : Bytes) :
    (fgets room stream).stored ++ (fgets room stream).rest = stream := by
  induction room generalizing stream with
  | zero => rfl
  | succ room induction =>
      cases stream with
      | nil => rfl
      | cons byte rest =>
          rw [fgets]
          split
          · rfl
          · simp [induction rest]

theorem length_stored_le (room : Nat) (stream : Bytes) :
    (fgets room stream).stored.length ≤ room := by
  induction room generalizing stream with
  | zero => exact le_rfl
  | succ room induction =>
      cases stream with
      | nil => exact Nat.zero_le _
      | cons byte rest =>
          rw [fgets]
          split
          · exact Nat.succ_le_succ (Nat.zero_le _)
          · exact Nat.succ_le_succ (induction rest)

/-- A call that does not meet the end of the file takes something. -/
theorem length_rest_lt {room : Nat} {stream : Bytes} (positive : 0 < room)
    (more : (fgets room stream).eof = false) :
    (fgets room stream).rest.length < stream.length := by
  have front := congrArg List.length (fgets_append room stream)
  rw [List.length_append] at front
  suffices stored : (fgets room stream).stored ≠ [] by
    have some := List.length_pos_of_ne_nil stored
    omega
  cases room with
  | zero => cases positive
  | succ room =>
      cases stream with
      | nil => cases more
      | cons byte rest =>
          rw [fgets]
          split <;> exact List.cons_ne_nil _ _

/-- What has no newline and fits is read, and then what comes behind it. -/
theorem fgets_text {room : Nat} {line : Bytes} (noNewline : 10 ∉ line)
    (fits : line.length < room) (rest : Bytes) :
    fgets room (line ++ rest) =
      { fgets (room - line.length) rest with
        stored := line ++ (fgets (room - line.length) rest).stored } := by
  induction line generalizing room with
  | nil => rfl
  | cons byte line induction =>
      cases room with
      | zero => cases fits
      | succ room =>
          have other : byte ≠ 10 := fun equal =>
            noNewline (equal ▸ List.mem_cons_self)
          have read := induction
            (fun member => noNewline (List.mem_cons_of_mem _ member))
            (Nat.lt_of_succ_lt_succ fits)
          rw [List.cons_append, fgets, if_neg other, read, List.length_cons,
            Nat.succ_sub_succ]
          rfl

/-- A line that fits is read with its newline. -/
theorem fgets_line {room : Nat} {line : Bytes} (noNewline : 10 ∉ line)
    (fits : line.length < room) (rest : Bytes) :
    fgets room (line ++ 10 :: rest) = ⟨line ++ [10], rest, false⟩ := by
  obtain ⟨further, left⟩ := Nat.exists_eq_add_of_lt fits
  have remaining : room - line.length = further + 1 := by
    omega
  rw [fgets_text noNewline fits, remaining]
  rfl

/-- What stands behind the last newline is read up to the end of the file. -/
theorem fgets_last {room : Nat} {line : Bytes} (noNewline : 10 ∉ line)
    (fits : line.length < room) : fgets room line = ⟨line, [], true⟩ := by
  obtain ⟨further, left⟩ := Nat.exists_eq_add_of_lt fits
  have remaining : room - line.length = further + 1 := by
    omega
  have read := fgets_text noNewline fits []
  rw [remaining, List.append_nil] at read
  rw [read, fgets, List.append_nil]

/-! ## The loops -/

/-- `char wd[255]` has room for so many bytes and the terminator. -/
def wdRoom : Nat := 254

/--
The texts in `wd` in the passes of `while(!feof(fp))`.

The array is zeroed before every read, so that it is empty when `fgets`
returns `NULL`.
-/
def buffers (content : Bytes) : List Bytes :=
  let reading := fgets wdRoom content
  if reading.eof then [cString reading.stored]
  else cString reading.stored :: buffers reading.rest
termination_by content.length
decreasing_by
  rename_i more
  exact length_rest_lt (by decide) (Bool.eq_false_of_not_eq_true more)

variable {V : Type*}

/-- `hash_map_insert(psHashmap, wd, strlen(wd), 0)`. -/
def insertLine (psHashmap : HashMap V) (wd : Bytes) : HashMap V :=
  hashMapInsert psHashmap wd wd.length none

/-- One pass of the two readers with a lower limit: what stays in `wd`, when
the pass comes to the insertion. -/
def readFileLine (refused : Bytes → Bool) (wd : Bytes) : Option Bytes :=
  if wd.length < 5 then none
  else if refused wd.dropLast then none
  else some wd.dropLast

/-- The lines that the two readers with a lower limit insert. -/
def readFileLines (refused : Bytes → Bool) (content : Bytes) : List Bytes :=
  (buffers content).filterMap (readFileLine refused)

/-- `hash_map_read_file`; a file that cannot be opened is `none`. -/
def hashMapReadFile (psHashmap : HashMap V) : Option Bytes → HashMap V
  | none => psHashmap
  | some content =>
      (readFileLines (fun _ => false) content).foldl insertLine psHashmap

/-- The words that `hash_map_host_white_read_file` refuses. -/
def blackSites : List Bytes :=
  [ascii "suning", ascii "taobao", ascii "gome", ascii "yhd", ascii "gov",
    ascii "tuniu", ascii "cntv", ascii ".people.com", ascii ".china.com",
    ascii "api", ascii "plugin"]

/-- `hash_map_host_white_read_file`. -/
def hashMapHostWhiteReadFile (psHashmap : HashMap V) :
    Option Bytes → HashMap V
  | none => psHashmap
  | some content =>
      (readFileLines
        (fun wd => blackSites.any fun site => (strstr wd site).isSome)
        content).foldl insertLine psHashmap

/-- `wd[strlen(wd) - 1] = '\0'`; for an empty text it writes to `wd[-1]`. -/
def cutLast (wd : Bytes) : Option Bytes :=
  if wd = [] then none else some wd.dropLast

/-- The lines that `load_nolen_limit_hash_map` inserts. -/
def nolenLimitLines (content : Bytes) : Option (List Bytes) :=
  (buffers content).mapM cutLast

/-- `load_nolen_limit_hash_map`: the outer `none` is a write outside of `wd`,
the inner one the result `NULL`. -/
def loadNolenLimitHashMap (length : UInt32) :
    Option Bytes → Option (Option (HashMap V))
  | none => some none
  | some content =>
      (nolenLimitLines content).map fun lines =>
        some (lines.foldl insertLine (hashMapNew length))

/-! ## Lines of a text -/

/-- The lines that end with a newline, without it. -/
def terminated (text : Bytes) : List Bytes :=
  (text.splitOn 10).dropLast

/-- What stands behind the last newline. -/
def lastLine (text : Bytes) : Bytes :=
  (text.splitOn 10).getLast (List.splitOn_ne_nil 10 text)

/-- All lines of a text; a last line without a newline is one of them. -/
def lines (text : Bytes) : List Bytes :=
  terminated text ++ if lastLine text = [] then [] else [lastLine text]

theorem terminated_line {line : Bytes} (noNewline : 10 ∉ line)
    (rest : Bytes) :
    terminated (line ++ 10 :: rest) = line :: terminated rest := by
  rw [terminated, List.splitOn_append_cons_self_of_not_mem noNewline,
    List.dropLast_cons_of_ne_nil (List.splitOn_ne_nil 10 rest), terminated]

theorem lastLine_line {line : Bytes} (noNewline : 10 ∉ line)
    (rest : Bytes) : lastLine (line ++ 10 :: rest) = lastLine rest := by
  simp only [lastLine,
    List.splitOn_append_cons_self_of_not_mem noNewline]
  exact List.getLast_cons (List.splitOn_ne_nil 10 rest)

theorem terminated_of_not_mem {text : Bytes} (noNewline : 10 ∉ text) :
    terminated text = [] := by
  rw [terminated, List.splitOn_eq_singleton noNewline]
  rfl

theorem lastLine_of_not_mem {text : Bytes} (noNewline : 10 ∉ text) :
    lastLine text = text := by
  simp only [lastLine, List.splitOn_eq_singleton noNewline]
  rfl

theorem mem_lines {text line : Bytes} :
    line ∈ lines text ↔
      line ∈ terminated text ∨ line = lastLine text ∧ line ≠ [] := by
  rw [lines, List.mem_append]
  refine or_congr_right ?_
  split
  · rename_i empty
    simp [empty]
  · rename_i nonempty
    rw [List.mem_singleton]
    constructor
    · rintro rfl
      exact ⟨rfl, nonempty⟩
    · exact And.left

/-- A text is a line without a newline, or a line in front of a text. -/
theorem lines_induction {motive : Bytes → Prop}
    (last : ∀ line, 10 ∉ line → motive line)
    (front : ∀ line rest, 10 ∉ line → motive rest →
      motive (line ++ 10 :: rest))
    (text : Bytes) : motive text := by
  by_cases newline : 10 ∈ text
  · obtain ⟨line, rest, rfl, noNewline⟩ :=
      List.eq_append_cons_of_mem newline
    exact front line rest noNewline (lines_induction last front rest)
  · exact last text newline
termination_by text.length

/-! ## What the loops read -/

/-- Nothing longer than the array is read, and its terminator fits too. -/
theorem length_of_mem_buffers {content wd : Bytes}
    (read : wd ∈ buffers content) : wd.length ≤ wdRoom := by
  have short : ∀ stream : Bytes,
      (cString (fgets wdRoom stream).stored).length ≤ wdRoom := fun stream =>
    (List.takeWhile_prefix _).length_le.trans (length_stored_le _ _)
  induction content using buffers.induct with
  | case1 content reading eof =>
      rw [buffers, if_pos eof, List.mem_singleton] at read
      rw [read]
      exact short content
  | case2 content reading more induction =>
      rw [buffers, if_neg more] at read
      rcases List.mem_cons.mp read with rfl | later
      · exact short content
      · exact induction later

theorem buffers_line {line : Bytes} (noNewline : 10 ∉ line)
    (noNul : 0 ∉ line) (fits : line.length < wdRoom) (rest : Bytes) :
    buffers (line ++ 10 :: rest) = (line ++ [10]) :: buffers rest := by
  have text : 0 ∉ line ++ [10] := by simp [noNul]
  rw [buffers]
  simp [fgets_line noNewline fits, cString_eq_self text]

theorem buffers_last {line : Bytes} (noNewline : 10 ∉ line)
    (noNul : 0 ∉ line) (fits : line.length < wdRoom) :
    buffers line = [line] := by
  rw [buffers]
  simp [fgets_last noNewline fits, cString_eq_self noNul]

/-- The lines of a text with short lines are read one by one. -/
theorem buffers_of_short {text : Bytes} (noNul : 0 ∉ text)
    (short : ∀ line ∈ lines text, line.length < wdRoom) :
    buffers text =
      (terminated text).map (· ++ [10]) ++ [lastLine text] := by
  induction text using lines_induction with
  | last line noNewline =>
      rw [terminated_of_not_mem noNewline, lastLine_of_not_mem noNewline]
      refine buffers_last noNewline noNul ?_
      by_cases empty : line = []
      · rw [empty]
        exact Nat.zero_lt_succ _
      · refine short line (mem_lines.mpr (.inr ⟨?_, empty⟩))
        rw [lastLine_of_not_mem noNewline]
  | front line rest noNewline induction =>
      simp only [List.mem_append, List.mem_cons, not_or] at noNul
      simp only [mem_lines, terminated_line noNewline,
        lastLine_line noNewline, List.mem_cons] at short
      rw [buffers_line noNewline noNul.1 (short line (.inl (.inl rfl))),
        terminated_line noNewline, lastLine_line noNewline,
        induction noNul.2.2 fun line member =>
          short line ((mem_lines.mp member).imp_left .inr)]
      rfl

/-! ## What the readers insert -/

theorem length_of_mem_readFileLines {refused : Bytes → Bool}
    {text key : Bytes} (inserted : key ∈ readFileLines refused text) :
    key.length < wdRoom := by
  obtain ⟨wd, read, kept⟩ := List.mem_filterMap.mp inserted
  have fits := length_of_mem_buffers read
  simp only [readFileLine, Option.ite_none_left_eq_some,
    Option.some.injEq] at kept
  obtain ⟨long, _, rfl⟩ := kept
  rw [List.length_dropLast]
  simp only [wdRoom] at *
  omega

theorem length_of_mem_nolenLimitLines {text key : Bytes}
    {keys : List Bytes} (inserts : nolenLimitLines text = some keys)
    (inserted : key ∈ keys) : key.length < wdRoom := by
  obtain ⟨wd, read, cut⟩ := exists_of_mem_mapM inserts inserted
  have fits := length_of_mem_buffers read
  simp only [cutLast, Option.ite_none_left_eq_some,
    Option.some.injEq] at cut
  obtain ⟨nonempty, rfl⟩ := cut
  have positive := List.length_pos_of_ne_nil nonempty
  rw [List.length_dropLast]
  omega

/-- Short lines are inserted from the fourth character on; of a last line
without a newline, the last character is missing. -/
theorem mem_readFileLines_of_short {text key : Bytes} (noNul : 0 ∉ text)
    (short : ∀ line ∈ lines text, line.length < wdRoom) :
    key ∈ readFileLines (fun _ => false) text ↔
      (key ∈ terminated text ∧ 4 ≤ key.length) ∨
        5 ≤ (lastLine text).length ∧ key = (lastLine text).dropLast := by
  rw [readFileLines, buffers_of_short noNul short, List.filterMap_append,
    List.mem_append]
  refine or_congr ?_ ?_
  · rw [List.filterMap_map, List.mem_filterMap]
    constructor
    · rintro ⟨line, member, kept⟩
      simp only [readFileLine, Function.comp_apply, List.length_append,
        List.length_singleton, Bool.false_eq_true, if_false,
        List.dropLast_concat, Option.ite_none_left_eq_some,
        Option.some.injEq] at kept
      obtain ⟨long, rfl⟩ := kept
      exact ⟨member, by omega⟩
    · rintro ⟨member, long⟩
      refine ⟨key, member, ?_⟩
      have enough : ¬ key.length + 1 < 5 := by omega
      simp [readFileLine, enough]
  · simp only [readFileLine, Bool.false_eq_true, if_false,
      List.mem_filterMap, List.mem_singleton, exists_eq_left,
      Option.ite_none_left_eq_some, Option.some.injEq, not_lt]
    exact and_congr_right' eq_comm

theorem nolenLimitLines_of_short {text : Bytes} (noNul : 0 ∉ text)
    (short : ∀ line ∈ lines text, line.length < wdRoom) :
    nolenLimitLines text =
      if lastLine text = [] then none
      else some (terminated text ++ [(lastLine text).dropLast]) := by
  have front : ((terminated text).map (· ++ [10])).mapM cutLast =
      some (terminated text) := by
    induction terminated text with
    | nil => rfl
    | cons line rest induction => simp [induction, cutLast]
  rw [nolenLimitLines, buffers_of_short noNul short, List.mapM_append, front]
  by_cases empty : lastLine text = []
  · simp [cutLast, empty]
  · simp [cutLast, empty]

/-! ## Which files are loaded exactly -/

/-- The lines of at least four characters are inserted, and nothing else. -/
def ReadExactly (text : Bytes) : Prop :=
  ∀ key, key ∈ readFileLines (fun _ => false) text ↔
    key ∈ lines text ∧ 4 ≤ key.length

/-- The lines that are not empty are inserted, and nothing else, with no write
outside of the array. -/
def LoadedExactly (text : Bytes) : Prop :=
  ∃ keys, nolenLimitLines text = some keys ∧
    ∀ key, key ∈ keys ↔ key ∈ lines text ∧ key ≠ []

/-- Every line fits into the array together with its newline. -/
def LinesFit (text : Bytes) : Prop :=
  ∀ line ∈ lines text, line.length < wdRoom

/-- A last line that counts, but has no newline, stands in the file once more
with a newline, and so does what is left of it without its last character. -/
def LastLineRepeated (text : Bytes) : Prop :=
  (4 ≤ (lastLine text).length → lastLine text ∈ terminated text) ∧
    (5 ≤ (lastLine text).length →
      (lastLine text).dropLast ∈ terminated text)

/-- There is no empty line, and a last line without a newline, which stands in
the file with a newline, too, as does what is left of it without its last
character. -/
def LastLineNeeded (text : Bytes) : Prop :=
  [] ∉ terminated text ∧ lastLine text ∈ terminated text ∧
    (lastLine text).dropLast ∈ terminated text

theorem dropLast_ne_self {line : Bytes} (nonempty : line ≠ []) :
    line.dropLast ≠ line := by
  intro equal
  have shorter := congrArg List.length equal
  have positive := List.length_pos_of_ne_nil nonempty
  rw [List.length_dropLast] at shorter
  omega

theorem readExactly_iff {text : Bytes} (noNul : 0 ∉ text) :
    ReadExactly text ↔ LinesFit text ∧ LastLineRepeated text := by
  constructor
  · intro exactly
    have short : LinesFit text := by
      intro line member
      by_cases counts : 4 ≤ line.length
      · exact length_of_mem_readFileLines
          ((exactly line).mpr ⟨member, counts⟩)
      · exact (Nat.lt_of_not_le counts).trans (by decide)
    refine ⟨short, fun counts => ?_, fun cut => ?_⟩
    · have nonempty : lastLine text ≠ [] := by
        rintro empty
        rw [empty] at counts
        cases counts
      have inserted := (exactly (lastLine text)).mpr
        ⟨mem_lines.mpr (.inr ⟨rfl, nonempty⟩), counts⟩
      rcases (mem_readFileLines_of_short noNul short).mp inserted with
        ⟨member, _⟩ | ⟨_, equal⟩
      · exact member
      · exact absurd equal.symm (dropLast_ne_self nonempty)
    · have nonempty : lastLine text ≠ [] := by
        rintro empty
        rw [empty] at cut
        cases cut
      have line := ((exactly (lastLine text).dropLast).mp
        ((mem_readFileLines_of_short noNul short).mpr
          (.inr ⟨cut, rfl⟩))).1
      rcases mem_lines.mp line with member | ⟨equal, _⟩
      · exact member
      · exact absurd equal (dropLast_ne_self nonempty)
  · rintro ⟨short, counts, cut⟩ key
    rw [mem_readFileLines_of_short noNul short, mem_lines]
    constructor
    · rintro (⟨member, long⟩ | ⟨long, rfl⟩)
      · exact ⟨.inl member, long⟩
      · refine ⟨.inl (cut long), ?_⟩
        rw [List.length_dropLast]
        omega
    · rintro ⟨member | ⟨rfl, _⟩, long⟩
      · exact .inl ⟨member, long⟩
      · exact .inl ⟨counts long, long⟩

theorem loadedExactly_iff {text : Bytes} (noNul : 0 ∉ text) :
    LoadedExactly text ↔ LinesFit text ∧ LastLineNeeded text := by
  constructor
  · rintro ⟨keys, inserts, exactly⟩
    have short : LinesFit text := by
      intro line member
      by_cases empty : line = []
      · rw [empty]
        exact Nat.zero_lt_succ _
      · exact length_of_mem_nolenLimitLines inserts
          ((exactly line).mpr ⟨member, empty⟩)
    rw [nolenLimitLines_of_short noNul short] at inserts
    simp only [Option.ite_none_left_eq_some, Option.some.injEq] at inserts
    obtain ⟨nonempty, rfl⟩ := inserts
    simp only [List.mem_append, List.mem_singleton] at exactly
    refine ⟨short, fun empty => ?_, ?_, ?_⟩
    · exact ((exactly []).mp (.inl empty)).2 rfl
    · rcases (exactly (lastLine text)).mpr
        ⟨mem_lines.mpr (.inr ⟨rfl, nonempty⟩), nonempty⟩ with
        member | equal
      · exact member
      · exact absurd equal.symm (dropLast_ne_self nonempty)
    · have line := ((exactly _).mp (.inr rfl)).1
      rcases mem_lines.mp line with member | ⟨equal, _⟩
      · exact member
      · exact absurd equal (dropLast_ne_self nonempty)
  · rintro ⟨short, noEmpty, last, cut⟩
    have nonempty : lastLine text ≠ [] := fun empty =>
      noEmpty (empty ▸ last)
    refine ⟨_, (nolenLimitLines_of_short noNul short).trans
      (if_neg nonempty), fun key => ?_⟩
    rw [mem_lines, List.mem_append, List.mem_singleton]
    constructor
    · rintro (member | rfl)
      · exact ⟨.inl member, fun empty => noEmpty (empty ▸ member)⟩
      · exact ⟨.inl cut, fun empty => noEmpty (empty ▸ cut)⟩
    · rintro ⟨member | ⟨rfl, _⟩, _⟩
      · exact .inl member
      · exact .inl last

/-! ## What the maps find -/

/-- A search in a map finds the lines that count, and nothing else but what has
the fingerprint of one of them. -/
def Finds (map : HashMap Unit) (text : Bytes) (counts : Bytes → Prop) :
    Prop :=
  ∀ (start : Bytes) (len : Int), (hashMapFind map start len).ret ≠ -1 ↔
    ∃ line ∈ lines text, counts line ∧
      fingerprint map.hashLen line line.length =
        fingerprint map.hashLen start len

theorem foldl_insertLine (keys : List Bytes) (map : HashMap Unit) :
    keys.foldl insertLine map =
      insertAll map (keys.map fun key => ⟨key, key.length, none⟩) := by
  rw [insertAll, List.foldl_map]
  rfl

theorem finds_foldl_insertLine {length : UInt32} (positive : 0 < length)
    {text : Bytes} {keys : List Bytes} {counts : Bytes → Prop}
    (exactly : ∀ key, key ∈ keys ↔ key ∈ lines text ∧ counts key) :
    Finds (keys.foldl insertLine (hashMapNew length)) text counts := by
  intro start len
  rw [foldl_insertLine, hashLen_insertAll, ret_hashMapFind_ne_iff
    (by rw [hashLen_insertAll]; exact positive), hashLen_insertAll]
  change ((insertAll (hashMapNew length) _).lookup
    (fingerprint length start len)).isSome = true ↔ _
  rw [lookup_insertAll_isSome_iff]
  constructor
  · rintro ⟨call, member, same⟩
    obtain ⟨key, inserted, rfl⟩ := List.mem_map.mp member
    obtain ⟨line, counted⟩ := (exactly key).mp inserted
    exact ⟨key, line, counted, same⟩
  · rintro ⟨key, line, counted, same⟩
    exact ⟨_, List.mem_map_of_mem ((exactly key).mpr ⟨line, counted⟩), same⟩

/--
Which text files are loaded exactly.

`hash_map_read_file` misses long lines and cuts a last line that has no
newline; `load_nolen_limit_hash_map` also takes empty lines, and writes in
front of its array when the file ends with a newline.  Where a file is loaded
exactly, the map finds its lines.
-/
theorem listFile_exact_iff (text : Bytes) (noNul : 0 ∉ text) :
    (ReadExactly text ↔ LinesFit text ∧ LastLineRepeated text) ∧
      (LoadedExactly text ↔ LinesFit text ∧ LastLineNeeded text) ∧
      (∀ wd ∈ buffers text, wd.length + 1 ≤ 255) ∧
      ∀ length : UInt32, 0 < length →
        (ReadExactly text →
          Finds (hashMapReadFile (hashMapNew length) (some text)) text
            (4 ≤ ·.length)) ∧
        (LoadedExactly text →
          ∃ map, loadNolenLimitHashMap length (some text) =
              some (some map) ∧
            Finds map text (· ≠ [])) := by
  refine ⟨readExactly_iff noNul, loadedExactly_iff noNul, fun _ read =>
    Nat.succ_le_succ (length_of_mem_buffers read), ?_⟩
  intro length positive
  constructor
  · exact fun exactly => finds_foldl_insertLine positive exactly
  · rintro ⟨keys, inserts, exactly⟩
    refine ⟨_, ?_, finds_foldl_insertLine positive exactly⟩
    rw [loadNolenLimitHashMap, inserts]
    rfl

/-- A list whose lines all end with a newline. -/
def siteList : Bytes :=
  ascii "example.com\nwww.example.com\n"

theorem siteList_read :
    0 ∉ siteList ∧ ReadExactly siteList ∧ ¬ LoadedExactly siteList := by
  have noNul : 0 ∉ siteList := by decide
  have law := listFile_exact_iff siteList noNul
  refine ⟨noNul, law.1.mpr ⟨?_, ?_⟩, fun exactly => ?_⟩
  · unfold LinesFit
    decide +kernel
  · unfold LastLineRepeated
    decide +kernel
  · have needed := (law.2.1.mp exactly).2
    unfold LastLineNeeded at needed
    revert needed
    decide +kernel

/-- Without the newline at its end the last site loses a character, and with
it the reader without a limit leaves its array. -/
theorem lastLine_cut :
    readFileLines (fun _ => false) (ascii "www.example.com\nexample.com") =
        [ascii "www.example.com", ascii "example.co"] ∧
      ¬ ReadExactly (ascii "www.example.com\nexample.com") ∧
      nolenLimitLines (ascii "the\n") = none := by
  have cut :
      readFileLines (fun _ => false)
          (ascii "www.example.com\nexample.com") =
        [ascii "www.example.com", ascii "example.co"] := by
    decide +kernel
  refine ⟨cut, fun exactly => ?_, by decide +kernel⟩
  have wanted := exactly (ascii "example.com")
  rw [cut] at wanted
  revert wanted
  decide +kernel

end WindowSystem.ListFiles
