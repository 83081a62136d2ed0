import WindowSystem.DcConfJc
import WindowSystem.InstantQueryContent
import WindowSystem.Library.Outline
import WindowSystem.UrlCode

/-!
# Configuration files

`zz_config.c` reads a file of indented lines into a tree of items, changes and
finds items along paths, and writes a tree back as a file.  The module follows
the functions from the bytes of a line to the tree, and shows that the loader
takes the files whose lines can be read and are an outline, and that it returns
the only tree with these lines.
-/

namespace WindowSystem.ZzConfig

open WindowSystem.CRuntime
open WindowSystem.InstantQueryContent
open WindowSystem.Library.Outline
open WindowSystem.UrlCode (isAlnum)

/-! ## Items -/

/-- The name and the value of a `zzconfig_t`; the value may be `NULL`. -/
structure Entry where
  name : Bytes
  value : Option Bytes
deriving DecidableEq

/-- The items from a pointer on: each has a first child and a next sibling. -/
abbrev Items := Forest Entry

/-- The root, which has neither a value nor siblings. -/
structure Root where
  lineno : Nat
  child : Items

/-- A path without a leading slash. -/
def skipSlash : Bytes → Bytes
  | [] => []
  | byte :: path => if byte = 47 then path else byte :: path

/-- The next segment of a path. -/
def segment (path : Bytes) : Bytes :=
  path.takeWhile (· != 47)

/-- `strchr (path, '/')` -/
def slash (path : Bytes) : Option Bytes :=
  match path.dropWhile (· != 47) with
  | [] => none
  | rest => some rest

theorem length_slash {path rest : Bytes} (found : slash path = some rest) :
    rest.length ≤ path.length ∧ ∃ behind, rest = 47 :: behind := by
  rw [slash] at found
  cases dropped : path.dropWhile (· != 47) with
  | nil =>
      rw [dropped] at found
      cases found
  | cons byte behind =>
      rw [dropped] at found
      cases found
      have head := List.head?_dropWhile_not (· != 47) path
      rw [dropped] at head
      have isSlash : byte = 47 := by simpa using head
      refine ⟨?_, behind, by rw [isSlash]⟩
      rw [← dropped]
      exact (List.dropWhile_sublist _).length_le

/-- `zz_sys_vprintf` with the format `%s`.  A text that fills the first buffer
is printed again with a `va_list` that was used up, which is undefined. -/
def zzSysVprintf (string : Bytes) : Option Bytes :=
  if string.length < 1024 then some string else none

/-- `zz_config_set_value` with the format `%s`. -/
def zzConfigSetValue (self : Entry) (value : Bytes) : Option Entry :=
  (zzSysVprintf value).map fun string => { self with value := some string }

/-- The items that `zz_config_put` creates below an item without a child; the
path has no leading slash any more. -/
def create (path value : Bytes) : Option Items :=
  match _found : slash path with
  | none =>
      (zzConfigSetValue ⟨segment path, none⟩ value).map
        fun child => .cons child .nil .nil
  | some rest =>
      (create (skipSlash rest) value).map
        fun below => .cons ⟨segment path, none⟩ below .nil
termination_by path.length
decreasing_by
  obtain ⟨short, behind, rfl⟩ := length_slash ‹_›
  rw [skipSlash, if_pos rfl]
  exact Nat.lt_of_succ_le short

/-- The loop of `zz_config_locate`; the item comes with its children. -/
def locateLoop (path : Bytes) : Items → Option (Entry × Items)
  | .nil => none
  | .cons child below next =>
      if child.name = segment path then
        match slash path with
        | some rest => locateLoop (skipSlash rest) below
        | none => some (child, below)
      else locateLoop path next

/-- `zz_config_locate` -/
def zzConfigLocate (self : Items) (path : Bytes) : Option (Entry × Items) :=
  locateLoop (skipSlash path) self

/-- `zz_config_resolve` -/
def zzConfigResolve (self : Items) (path : Bytes)
    (defaultValue : Option Bytes) : Option Bytes :=
  match zzConfigLocate self path with
  | some (item, _) => item.value
  | none => defaultValue

/-! ## Writing a file -/

/-- `s_config_save` for an item below the root. -/
def sConfigSave (level : Nat) (self : Entry) : Bytes :=
  List.replicate (4 * level) 32 ++
    match self.value with
    | some value => self.name ++ ascii " = \"" ++ value ++ ascii "\"\n"
    | none => self.name ++ ascii "\n"

/-- `s_config_execute` with this handler, from the children of the root on. -/
def sConfigExecute (level : Nat) : Items → Bytes
  | .nil => []
  | .cons self child next =>
      sConfigSave level self ++
        (sConfigExecute (level + 1) child ++ sConfigExecute level next)

/-- What `zz_config_save` writes. -/
def zzConfigSave (self : Root) : Bytes :=
  sConfigExecute 0 self.child

/-! ## Reading a file -/

/-- How loading a file ends without a tree: `NULL` is returned, or a pointer
is used that was given to `free`. -/
inductive Failure where
  | invalid
  | undefined
deriving DecidableEq

/-- `s_collect_level` -/
def sCollectLevel (start : Bytes) : Except Failure (Nat × Bytes) :=
  let blanks := start.takeWhile (· == 32)
  if blanks.length / 4 * 4 = blanks.length then
    .ok (blanks.length / 4, start.dropWhile (· == 32))
  else .error .invalid

/-- `s_is_namechar` -/
def sIsNamechar (thischar : UInt8) : Bool :=
  isAlnum thischar || thischar == 36 || thischar == 45 || thischar == 95 ||
    thischar == 64 || thischar == 46 || thischar == 38 || thischar == 43 ||
    thischar == 47

/-- `s_collect_name`; a name that is freed is returned all the same. -/
def sCollectName (start : Bytes) : Except Failure (Bytes × Bytes) :=
  let name := start.takeWhile sIsNamechar
  if name ≠ [] ∧ (name.head? = some 47 ∨ name.getLast? = some 47) then
    .error .undefined
  else .ok (name, start.dropWhile sIsNamechar)

/-- `s_verify_eoln` returns 0. -/
def sVerifyEoln (readptr : Bytes) : Bool :=
  match readptr.dropWhile isSpace with
  | [] => true
  | byte :: _ => byte == 35

/-- An unquoted value up to its comment.  The blanks before a comment are
looked for up to the equals sign: when the value is a comment behind blanks,
the terminator is stored in front of it. -/
def unquoted (blanks : Bool) (readptr : Bytes) : Bytes :=
  if 35 ∈ readptr then
    let front := rtrim (readptr.takeWhile (· != 35))
    if front = [] ∧ blanks then readptr else front
  else readptr

/-- A value in quotes; a value that is freed is returned all the same. -/
def quoted (quote : UInt8) (readptr : Bytes) : Except Failure Bytes :=
  match readptr.dropWhile (· != quote) with
  | [] => .error .invalid
  | _ :: behind =>
      if sVerifyEoln behind then .ok (readptr.takeWhile (· != quote))
      else .error .undefined

/-- `s_collect_value` -/
def sCollectValue (start : Bytes) : Except Failure Bytes :=
  match start.dropWhile isSpace with
  | [] => .ok []
  | byte :: readptr =>
      if byte = 61 then
        match readptr.dropWhile isSpace with
        | [] => .ok []
        | first :: text =>
            if isQuote first then quoted first text
            else
              .ok (unquoted ((readptr.head?.map isSpace).getD false)
                (first :: text))
      else if sVerifyEoln (byte :: readptr) then .ok []
      else .error .undefined

/-- What a line of the file says: its level, and an item if it has a name. -/
structure Line where
  level : Nat
  entry : Option Entry

/-- The calls for one line. -/
def parseLine (curLine : Bytes) : Except Failure Line :=
  (sCollectLevel (rtrim (cString curLine))).bind fun (level, scanner) =>
    (sCollectName scanner).bind fun (name, scanner) =>
      if name = [] then
        if sVerifyEoln scanner then .ok ⟨level, none⟩ else .error .invalid
      else
        (sCollectValue scanner).map fun value =>
          ⟨level, some ⟨name, some value⟩⟩

/-- `zz_config_new` below `zz_config_at_depth`. -/
def addLine (self : Root) (line : Line) : Except Failure Root :=
  let lineno := if line.level = 1 then self.lineno + 1 else self.lineno
  match line.entry with
  | none => .ok { self with lineno := lineno }
  | some entry =>
      match self.child.attach entry line.level with
      | some child => .ok ⟨lineno, child⟩
      | none => .error .invalid

/-- The loop of `zz_config_load`. -/
def loadLoop : List Bytes → Root → Except Failure Root
  | [], self => .ok self
  | curLine :: rest, self =>
      (parseLine curLine).bind fun line =>
        (addLine self line).bind fun self => loadLoop rest self

/-- `zz_config_load` of a file that can be opened. -/
def zzConfigLoad (file : Bytes) : Except Failure Root :=
  loadLoop (readLines file) ⟨0, .nil⟩

/-! ## Which files are loaded -/

/-- The items of some lines with their levels. -/
def entries (parsed : List Line) : List (Nat × Entry) :=
  parsed.filterMap fun line => line.entry.map fun entry => (line.level, entry)

/-- How many lines stand at the first level below the root's children. -/
def nested (parsed : List Line) : Nat :=
  parsed.countP fun line => line.level = 1

variable {self root : Root} {curLines : List Bytes}

theorem addLine_eq_ok {line : Line} :
    addLine self line = .ok root ↔
      root.lineno = self.lineno + nested [line] ∧
        assemble (entries [line]) self.child = some root.child := by
  obtain ⟨level, entry⟩ := line
  obtain ⟨lineno, child⟩ := root
  have counted : nested [⟨level, entry⟩] = if level = 1 then 1 else 0 := by
    rw [nested, List.countP_singleton]
    simp
  have number : (if level = 1 then self.lineno + 1 else self.lineno) =
      self.lineno + nested [⟨level, entry⟩] := by
    rw [counted]
    split_ifs <;> rfl
  cases entry with
  | none =>
      simp only [addLine, number, Except.ok.injEq, Root.mk.injEq, entries,
        List.filterMap_cons, Option.map_none, List.filterMap_nil, assemble,
        Option.some.injEq]
      exact and_congr_left fun _ => eq_comm
  | some entry =>
      simp only [addLine, number, entries, List.filterMap_cons,
        Option.map_some, List.filterMap_nil]
      cases attached : self.child.attach entry level with
      | none => simp [assemble, attached]
      | some grown =>
          simp only [assemble, attached, Option.bind_some, Except.ok.injEq,
            Root.mk.injEq, Option.some.injEq]
          exact and_congr_left fun _ => eq_comm

theorem entries_cons {line : Line} {parsed : List Line} :
    entries (line :: parsed) = entries [line] ++ entries parsed := by
  rw [entries, entries, entries, ← List.filterMap_append]
  rfl

theorem nested_cons {line : Line} {parsed : List Line} :
    nested (line :: parsed) = nested [line] + nested parsed := by
  rw [nested, nested, nested, ← List.countP_append]
  rfl

theorem bind_eq_ok {ε α β : Type*} {first : Except ε α}
    {next : α → Except ε β} {result : β} :
    first.bind next = .ok result ↔
      ∃ value, first = .ok value ∧ next value = .ok result := by
  cases first with
  | error failure => simp [Except.bind]
  | ok value => simp [Except.bind]

theorem assemble_append {left right : List (Nat × Entry)} {forest : Items} :
    assemble (left ++ right) forest =
      (assemble left forest).bind (assemble right) := by
  induction left generalizing forest with
  | nil => rfl
  | cons entry left induction =>
      rw [List.cons_append, assemble, assemble]
      cases forest.attach entry.2 entry.1 with
      | none => rfl
      | some grown => exact induction

theorem mapM_cons_eq_ok {line : Bytes} {parsed : List Line} :
    (line :: curLines).mapM parseLine = .ok parsed ↔
      ∃ first rest, parseLine line = .ok first ∧
        curLines.mapM parseLine = .ok rest ∧ parsed = first :: rest := by
  rw [List.mapM_cons]
  cases parseLine line with
  | error failure => simp [bind, Except.bind]
  | ok first =>
      cases curLines.mapM parseLine with
      | error failure => simp [bind, Except.bind]
      | ok rest => simp [bind, Except.bind, pure, Except.pure, eq_comm]

/-- The loop takes the lines that can be read and that are an outline below
what is there. -/
theorem loadLoop_eq_ok :
    loadLoop curLines self = .ok root ↔
      ∃ parsed, curLines.mapM parseLine = .ok parsed ∧
        root.lineno = self.lineno + nested parsed ∧
        assemble (entries parsed) self.child = some root.child := by
  induction curLines generalizing self with
  | nil =>
      rw [loadLoop, List.mapM_nil]
      constructor
      · rintro ⟨⟩
        exact ⟨[], rfl, rfl, rfl⟩
      · rintro ⟨_, ⟨⟩, number, same⟩
        obtain ⟨lineno, child⟩ := root
        cases number
        cases same
        rfl
  | cons curLine curLines induction =>
      simp only [loadLoop, bind_eq_ok, mapM_cons_eq_ok, addLine_eq_ok,
        induction]
      constructor
      · rintro ⟨line, isRead, after, ⟨number, added⟩, parsed, others, count,
          result⟩
        refine ⟨line :: parsed, ⟨line, parsed, isRead, others, rfl⟩, ?_, ?_⟩
        · rw [count, number, Nat.add_assoc, ← nested_cons]
        · rw [entries_cons, assemble_append, added]
          exact result
      · rintro ⟨_, ⟨line, parsed, isRead, others, rfl⟩, count, result⟩
        rw [entries_cons, assemble_append] at result
        obtain ⟨child, added, result⟩ := Option.bind_eq_some_iff.mp result
        refine ⟨line, isRead, ⟨self.lineno + nested [line], child⟩,
          ⟨rfl, added⟩, parsed, others, ?_, result⟩
        rw [count, nested_cons, Nat.add_assoc]

/-- The root that comes back has the items of the lines as its outline. -/
theorem zzConfigLoad_eq_ok_iff (file : Bytes) (root : Root) :
    zzConfigLoad file = .ok root ↔
      ∃ parsed, (readLines file).mapM parseLine = .ok parsed ∧
        root.lineno = nested parsed ∧
        root.child.lines 0 = entries parsed := by
  simp only [zzConfigLoad, loadLoop_eq_ok, assemble_eq_some_iff, Nat.zero_add]

/-- A file is loaded exactly when each of its lines can be read, the first item
is at the first level, and no item is more than one level below the item before
it.  Exactly one tree comes back, the one with the outline of the file. -/
theorem zzConfigLoad_outline (file : Bytes) :
    ((∃ root, zzConfigLoad file = .ok root) ↔
      ∃ parsed, (readLines file).mapM parseLine = .ok parsed ∧
        Steps 0 (entries parsed)) ∧
    ∀ root, zzConfigLoad file = .ok root ↔
      ∃ parsed, (readLines file).mapM parseLine = .ok parsed ∧
        root.lineno = nested parsed ∧
        root.child.lines 0 = entries parsed := by
  refine ⟨?_, zzConfigLoad_eq_ok_iff file⟩
  constructor
  · rintro ⟨root, loaded⟩
    obtain ⟨parsed, isRead, -, result⟩ := loadLoop_eq_ok.mp loaded
    have assembled : (assemble (entries parsed) .nil).isSome := by
      rw [result]
      rfl
    exact ⟨parsed, isRead, assemble_isSome_iff.mp assembled⟩
  · rintro ⟨parsed, isRead, steps⟩
    have assembled : (assemble (entries parsed) .nil).isSome :=
      assemble_isSome_iff.mpr steps
    obtain ⟨child, result⟩ := Option.isSome_iff_exists.mp assembled
    exact ⟨⟨nested parsed, child⟩, loadLoop_eq_ok.mpr
      ⟨parsed, isRead, (Nat.zero_add _).symm, result⟩⟩

end WindowSystem.ZzConfig
