import Mathlib.Data.List.Nodup
import WindowSystem.CRuntime
import WindowSystem.Library.Refresh

/-!
# The directories with the lists

`dir_process.c` remembers the files of a directory with the times of their
last changes.  `dir_compare` reads the directory again and reports whether it
is still the same; the modules with lists then call `dir_reload` and read
their files.  `sTime` stands for `localtime` and `strftime` with the format
`%Y-%m-%d %H:%M`.
-/

namespace WindowSystem.DirProcess

open WindowSystem.CRuntime
open WindowSystem.Library
open WindowSystem.Library.LabelledRun
open WindowSystem.Library.Refresh

/-! ## What a directory holds -/

/-- An entry that `readdir` finds, and the time that `stat` reads for it. -/
structure Direntry where
  dName : Bytes
  fits : dName.length < 256
  stMtime : Option Int

/-- `.` and `..`. -/
def Direntry.isDots (direntp : Direntry) : Bool :=
  direntp.dName == ascii "." || direntp.dName == ascii ".."

/-- `CFileTable`. -/
structure CFileTable where
  szFileMTime : Bytes
  szFileName : Bytes
deriving DecidableEq

/-- `struct CDirProcess`.  The first `nFileNum` entries of the table are given;
`dir_init` leaves those that were there before as `NULL` pointers. -/
structure CDirProcess where
  cfTable : Option (List (Option CFileTable))
  szPath : Bytes
  pathFits : szPath.length < 128
  length : Nat

namespace CDirProcess

variable (dirProcess : CDirProcess)

/-- `nFileNum`. -/
def nFileNum : Nat :=
  (dirProcess.cfTable.getD []).length

/-- The length for which `dir_init` allocates the table. -/
def tableLength : Nat :=
  if dirProcess.length = 0 then 64 else dirProcess.length

/-- The table has `sizeof (CFileTable)`, 544 bytes, for each file, which is
enough for 68 pointers. -/
def capacity : Nat :=
  68 * dirProcess.tableLength

/-- The text in `sFileName`. -/
def sFileName (direntp : Direntry) : Bytes :=
  dirProcess.szPath ++ direntp.dName

/-- The text stays in `char sFileName[512]`. -/
theorem length_sFileName_lt (direntp : Direntry) :
    (dirProcess.sFileName direntp).length < 512 := by
  have path := dirProcess.pathFits
  have name := direntp.fits
  rw [sFileName, List.length_append]
  omega

end CDirProcess

/-! ## The functions -/

section Functions

variable (sTime : Int → Bytes) (dirProcess : CDirProcess)

/-- The loop of `dir_init` over the directory, with the table as it is before
the rest of the loop: its result and the table, `none` for a pointer that is
written behind the table. -/
def initLoop : List Direntry → List (Option CFileTable) →
    Option (Int × List (Option CFileTable))
  | [], cfTable => some (0, cfTable)
  | direntp :: dirp, cfTable =>
      if direntp.isDots then initLoop dirp cfTable
      else
        match direntp.stMtime with
        | none => some (-1, cfTable)
        | some stMtime =>
            if cfTable.length < dirProcess.capacity then
              initLoop dirp
                (cfTable ++
                  [some ⟨sTime stMtime, dirProcess.sFileName direntp⟩])
            else none

/-- `dir_init`; a directory that cannot be opened is `none`. -/
def dirInit (dirp : Option (List Direntry)) : Option (Int × CDirProcess) :=
  if dirProcess.nFileNum ≤ dirProcess.capacity then
    let nulls := List.replicate dirProcess.nFileNum none
    (match dirp with
      | none => some (-1, nulls)
      | some dirp => initLoop sTime dirProcess dirp nulls).map
        fun (ret, cfTable) =>
          (ret,
            { dirProcess with
              cfTable := some cfTable
              length := dirProcess.tableLength })
  else none

/-- `dir_reload`. -/
def dirReload (dirp : Option (List Direntry)) : Option CDirProcess :=
  match dirProcess.cfTable with
  | none => some dirProcess
  | some _ =>
      (dirInit sTime { dirProcess with cfTable := none } dirp).map Prod.snd

/-- The loop of `dir_compare` over the table. -/
def touched (cfTable : List (Option CFileTable)) (sFileName : Bytes)
    (stMtime : Int) : Bool :=
  cfTable.any fun entry =>
    entry.any fun file =>
      file.szFileName == sFileName && file.szFileMTime != sTime stMtime

/-- The loop of `dir_compare` over the directory. -/
def compareLoop (cfTable : List (Option CFileTable)) :
    List Direntry → Nat → Bool
  | [], nFileNum => nFileNum != cfTable.length
  | direntp :: dirp, nFileNum =>
      if direntp.isDots then compareLoop cfTable dirp nFileNum
      else
        match direntp.stMtime with
        | none => false
        | some stMtime =>
            if touched sTime cfTable (dirProcess.sFileName direntp)
                stMtime then true
            else compareLoop cfTable dirp (nFileNum + 1)

/-- `dir_compare`. -/
def dirCompare (dirp : Option (List Direntry)) : Bool :=
  match dirProcess.cfTable with
  | none => false
  | some cfTable =>
      match dirp with
      | none => false
      | some dirp => compareLoop sTime dirProcess cfTable dirp 0

end Functions

/-! ## Listings -/

/-- What is read of a directory without an error, in any order. -/
structure Listing where
  direntps : List Direntry
  once : (direntps.map Direntry.dName).Nodup
  readable : ∀ direntp ∈ direntps, direntp.isDots = false →
    direntp.stMtime.isSome

/-- The name and the time of a file. -/
def Direntry.file (direntp : Direntry) : Option (Bytes × Int) :=
  if direntp.isDots then none
  else direntp.stMtime.map fun stMtime => (direntp.dName, stMtime)

/-- The files among the entries. -/
def filesOf (direntps : List Direntry) : List (Bytes × Int) :=
  direntps.filterMap Direntry.file

namespace Listing

variable (listing : Listing)

def files : List (Bytes × Int) :=
  filesOf listing.direntps

/-- The set of the names with their times. -/
def pairs : Set (Bytes × Int) :=
  entries listing.files

/-- What the loops over the directory get. -/
def scan : Option (List Direntry) :=
  some listing.direntps

end Listing

/-! ## The loops on a listing -/

/-- The table of a listing behind so many `NULL` pointers. -/
def tableOf (sTime : Int → Bytes) (szPath : Bytes) (earlier : Nat)
    (files : List (Bytes × Int)) : List (Option CFileTable) :=
  List.replicate earlier none ++
    files.map fun (dName, stMtime) =>
      some ⟨sTime stMtime, szPath ++ dName⟩

section Loops

variable {sTime : Int → Bytes} {dirProcess : CDirProcess}
  {direntp : Direntry} {direntps : List Direntry}

theorem filesOf_dots (dots : direntp.isDots = true) :
    filesOf (direntp :: direntps) = filesOf direntps :=
  List.filterMap_cons_none (if_pos dots)

theorem filesOf_file {stMtime : Int} (file : direntp.isDots = false)
    (time : direntp.stMtime = some stMtime) :
    filesOf (direntp :: direntps) =
      (direntp.dName, stMtime) :: filesOf direntps := by
  refine List.filterMap_cons_some ?_
  rw [Direntry.file, file, time]
  rfl

theorem initLoop_eq
    (readable : ∀ direntp ∈ direntps, direntp.isDots = false →
      direntp.stMtime.isSome)
    {cfTable : List (Option CFileTable)}
    (room : cfTable.length ≤ dirProcess.capacity) :
    initLoop sTime dirProcess direntps cfTable =
      if cfTable.length + (filesOf direntps).length ≤ dirProcess.capacity then
        some (0, cfTable ++ tableOf sTime dirProcess.szPath 0
          (filesOf direntps))
      else none := by
  induction direntps generalizing cfTable with
  | nil => simp [initLoop, filesOf, tableOf, room]
  | cons direntp direntps induction =>
      obtain ⟨first, rest⟩ := List.forall_mem_cons.mp readable
      rw [initLoop]
      cases dots : direntp.isDots with
      | true => rw [if_pos rfl, induction rest room, filesOf_dots dots]
      | false =>
          obtain ⟨stMtime, time⟩ := Option.isSome_iff_exists.mp (first dots)
          rw [if_neg Bool.false_ne_true, filesOf_file dots time, time]
          simp only [List.length_cons]
          by_cases next : cfTable.length < dirProcess.capacity
          · rw [if_pos next, induction rest]
            · rw [List.length_append, List.length_singleton, Nat.add_assoc,
                Nat.add_comm 1, List.append_assoc]
              rfl
            · rw [List.length_append, List.length_singleton]
              exact next
          · rw [if_neg next, if_neg (by omega)]

theorem compareLoop_iff
    (readable : ∀ direntp ∈ direntps, direntp.isDots = false →
      direntp.stMtime.isSome)
    {cfTable : List (Option CFileTable)} {nFileNum : Nat} :
    compareLoop sTime dirProcess cfTable direntps nFileNum = true ↔
      nFileNum + (filesOf direntps).length ≠ cfTable.length ∨
        ∃ dName stMtime, (dName, stMtime) ∈ filesOf direntps ∧
          touched sTime cfTable (dirProcess.szPath ++ dName) stMtime =
            true := by
  induction direntps generalizing nFileNum with
  | nil => simp [compareLoop, filesOf]
  | cons direntp direntps induction =>
      obtain ⟨first, rest⟩ := List.forall_mem_cons.mp readable
      rw [compareLoop]
      cases dots : direntp.isDots with
      | true => rw [if_pos rfl, induction rest, filesOf_dots dots]
      | false =>
          obtain ⟨stMtime, time⟩ := Option.isSome_iff_exists.mp (first dots)
          rw [if_neg Bool.false_ne_true, filesOf_file dots time, time]
          simp only [List.length_cons, List.mem_cons]
          by_cases found : touched sTime cfTable
              (dirProcess.szPath ++ direntp.dName) stMtime = true
          · simp only [CDirProcess.sFileName, found, if_true, true_iff]
            exact Or.inr ⟨_, _, Or.inl rfl, found⟩
          · rw [CDirProcess.sFileName, if_neg found, induction rest,
              Nat.add_assoc, Nat.add_comm 1]
            refine or_congr_right ?_
            constructor
            · rintro ⟨dName, other, member, seen⟩
              exact ⟨dName, other, Or.inr member, seen⟩
            · rintro ⟨dName, other, head | member, seen⟩
              · cases head
                exact absurd seen found
              · exact ⟨dName, other, member, seen⟩

/-- The loop over a recorded table finds a file with another time. -/
theorem touched_tableOf {szPath dName : Bytes} {earlier : Nat}
    {files : List (Bytes × Int)} {stMtime : Int} :
    touched sTime (tableOf sTime szPath earlier files) (szPath ++ dName)
        stMtime = true ↔
      ∃ old, (dName, old) ∈ files ∧ sTime old ≠ sTime stMtime := by
  simp [touched, tableOf]

end Loops

/-! ## Recording and comparing -/

section Recording

variable {sTime : Int → Bytes} {dirProcess : CDirProcess}

/-- The instance behind a scan of the whole directory. -/
def recordedBy (sTime : Int → Bytes) (dirProcess : CDirProcess)
    (earlier : Nat) (listing : Listing) : CDirProcess :=
  { dirProcess with
    cfTable :=
      some (tableOf sTime dirProcess.szPath earlier listing.files)
    length := dirProcess.tableLength }

theorem dirInit_eq (listing : Listing) :
    dirInit sTime dirProcess listing.scan =
      if dirProcess.nFileNum + listing.files.length ≤
          dirProcess.capacity then
        some (0, recordedBy sTime dirProcess dirProcess.nFileNum listing)
      else none := by
  rw [dirInit]
  by_cases room : dirProcess.nFileNum ≤ dirProcess.capacity
  · rw [if_pos room]
    have loop := @initLoop_eq sTime dirProcess _ listing.readable
      (List.replicate dirProcess.nFileNum none)
      (by rwa [List.length_replicate])
    rw [List.length_replicate] at loop
    change (initLoop sTime dirProcess listing.direntps _).map _ = _
    rw [loop]
    change _ = if dirProcess.nFileNum + (filesOf listing.direntps).length ≤
      dirProcess.capacity then _ else _
    split_ifs
    · rfl
    · rfl
  · rw [if_neg room, if_neg (by omega)]

theorem dirReload_eq (loaded : dirProcess.cfTable.isSome = true)
    (listing : Listing) :
    dirReload sTime dirProcess listing.scan =
      if listing.files.length ≤ dirProcess.capacity then
        some (recordedBy sTime dirProcess 0 listing)
      else none := by
  obtain ⟨cfTable, table⟩ := Option.isSome_iff_exists.mp loaded
  rw [dirReload, table, dirInit_eq]
  change Option.map _ (if 0 + listing.files.length ≤ dirProcess.capacity then
    _ else _) = _
  rw [Nat.zero_add]
  split_ifs
  · rfl
  · rfl

theorem names_sublist (direntps : List Direntry) :
    ((filesOf direntps).map Prod.fst).Sublist
      (direntps.map Direntry.dName) := by
  induction direntps with
  | nil => exact List.Sublist.refl _
  | cons direntp direntps induction =>
      rw [List.map_cons]
      cases found : direntp.file with
      | none =>
          rw [filesOf, List.filterMap_cons_none found]
          exact induction.cons _
      | some file =>
          have name : file.1 = direntp.dName := by
            rw [Direntry.file, Option.ite_none_left_eq_some] at found
            obtain ⟨_, _, rfl⟩ := Option.map_eq_some_iff.mp found.2
            rfl
          rw [filesOf, List.filterMap_cons_some found, List.map_cons, name]
          exact induction.cons_cons _

theorem nodup_files (listing : Listing) :
    (listing.files.map Prod.fst).Nodup :=
  listing.once.sublist (names_sublist _)

theorem dirCompare_iff {earlier : Nat} {recorded : Listing}
    (table : dirProcess.cfTable =
      some (tableOf sTime dirProcess.szPath earlier recorded.files))
    (later : Listing) :
    dirCompare sTime dirProcess later.scan = true ↔
      Seen sTime earlier recorded.files later.files := by
  rw [dirCompare, table]
  have length :
      (tableOf sTime dirProcess.szPath earlier recorded.files).length =
        earlier + recorded.files.length := by
    simp [tableOf]
  simp only [Listing.scan, compareLoop_iff later.readable, touched_tableOf,
    length, Nat.zero_add]
  refine or_congr_right ?_
  constructor
  · rintro ⟨dName, new, now, old, before, differ⟩
    exact ⟨dName, old, new, before, now, differ⟩
  · rintro ⟨dName, old, new, before, now, differ⟩
    exact ⟨dName, new, now, old, before, differ⟩

end Recording

/-! ## One comparison -/

/-- The functions that record a listing. -/
inductive Recorder where
  | init
  | reload

/-- A listing is recorded without an error. -/
def Recorder.Records (sTime : Int → Bytes) (dirProcess : CDirProcess)
    (listing : Listing) (after : CDirProcess) : Recorder → Prop
  | .init => dirInit sTime dirProcess listing.scan = some (0, after)
  | .reload => dirProcess.cfTable.isSome = true ∧
      dirReload sTime dirProcess listing.scan = some after

/-- The number of `NULL` pointers in front of the recorded files. -/
def Recorder.earlier (dirProcess : CDirProcess) : Recorder → Nat
  | .init => dirProcess.nFileNum
  | .reload => 0

/-- The listing is recorded, and the comparison with the later one reports a
change exactly when the sets of pairs differ. -/
def Exact (sTime : Int → Bytes) (recorder : Recorder)
    (dirProcess : CDirProcess) (recorded later : Listing) : Prop :=
  ∃ after, recorder.Records sTime dirProcess recorded after ∧
    (dirCompare sTime after later.scan = true ↔
      recorded.pairs ≠ later.pairs)

/-- Every difference shows in the number of files, or in the minute of a file
that is in both listings. -/
structure Shows (sTime : Int → Bytes) (recorder : Recorder)
    (dirProcess : CDirProcess) (recorded later : Listing) : Prop where
  loaded : recorder = .reload → dirProcess.cfTable.isSome = true
  room : recorder.earlier dirProcess + recorded.files.length ≤
    dirProcess.capacity
  fresh : recorded.pairs = later.pairs → recorder.earlier dirProcess = 0
  seen : recorded.pairs ≠ later.pairs →
    Seen sTime (recorder.earlier dirProcess) recorded.files later.files

section Comparison

variable {sTime : Int → Bytes} {recorder : Recorder}
  {dirProcess after : CDirProcess} {recorded later : Listing}

/-- A listing is recorded when there is room for its files. -/
theorem records_iff :
    recorder.Records sTime dirProcess recorded after ↔
      (recorder = .reload → dirProcess.cfTable.isSome = true) ∧
        recorder.earlier dirProcess + recorded.files.length ≤
          dirProcess.capacity ∧
        after = recordedBy sTime dirProcess (recorder.earlier dirProcess)
          recorded := by
  cases recorder with
  | init =>
      simp only [Recorder.Records, Recorder.earlier, dirInit_eq,
        Option.ite_none_right_eq_some, Option.some.injEq, Prod.mk.injEq,
        true_and, reduceCtorEq, false_imp_iff]
      exact and_congr_right fun _ => eq_comm
  | reload =>
      simp only [Recorder.Records, Recorder.earlier, Nat.zero_add,
        true_imp_iff]
      refine and_congr_right fun loaded => ?_
      rw [dirReload_eq loaded, Option.ite_none_right_eq_some,
        Option.some.injEq]
      exact and_congr_right fun _ => eq_comm

theorem dirCompare_recordedBy {earlier : Nat} :
    dirCompare sTime (recordedBy sTime dirProcess earlier recorded)
        later.scan = true ↔
      Seen sTime earlier recorded.files later.files :=
  @dirCompare_iff sTime (recordedBy sTime dirProcess earlier recorded)
    earlier recorded rfl later

theorem exact_iff_shows :
    Exact sTime recorder dirProcess recorded later ↔
      Shows sTime recorder dirProcess recorded later := by
  have seen := @seen_iff_differ_iff _ _ _ sTime
    (recorder.earlier dirProcess) _ _ (nodup_files recorded)
    (nodup_files later)
  constructor
  · rintro ⟨after, records, exact⟩
    obtain ⟨loaded, room, rfl⟩ := records_iff.mp records
    rw [dirCompare_recordedBy] at exact
    obtain ⟨fresh, shown⟩ := seen.mp exact
    exact ⟨loaded, room, fresh, shown⟩
  · intro shows
    refine ⟨_, records_iff.mpr ⟨shows.loaded, shows.room, rfl⟩, ?_⟩
    rw [dirCompare_recordedBy]
    exact seen.mpr ⟨shows.fresh, shows.seen⟩

end Comparison

/-! ## Changes, comparisons and reloads -/

/-- A module with a list: its directory with what is known of it, and the
rules in force. -/
structure Watch (Rules : Type) where
  copy : Copy Listing
  dirProcess : CDirProcess
  rules : Rules

section Watching

variable {Rules : Type} (sTime : Int → Bytes)
  (rulesOf : Set (Bytes × Int) → Rules)

/-- The module behind its `load` function, which does not admit `NULL` in the
table. -/
def load (dirProcess : CDirProcess) (listing : Listing) :
    Option (Watch Rules) :=
  if dirProcess.nFileNum = 0 then
    (dirInit sTime dirProcess listing.scan).map fun (_, dirProcess) =>
      { copy := ⟨listing, listing, listing, false⟩
        dirProcess := dirProcess
        rules := rulesOf listing.pairs }
  else none

/-- The directory changes, or the module goes on in its `reload` function: a
comparison that reports a change is followed by `dir_reload` and by reading
the files. -/
def next (watch : Watch Rules) : Event Listing → Option (Watch Rules)
  | .change directory =>
      some { watch with copy := { watch.copy with current := directory } }
  | .compare =>
      if watch.copy.pending then none
      else
        some
          { watch with
            copy :=
              { watch.copy with
                compared := watch.copy.current
                pending :=
                  dirCompare sTime watch.dirProcess
                    watch.copy.current.scan } }
  | .reload =>
      if watch.copy.pending then
        (dirReload sTime watch.dirProcess watch.copy.current.scan).map
          fun dirProcess =>
            { copy :=
                { watch.copy with
                  recorded := watch.copy.current
                  pending := false }
              dirProcess := dirProcess
              rules := rulesOf watch.copy.current.pairs }
      else none

/-- What a comparison with a recorded listing sees. -/
def Detects (recorded later : Listing) : Prop :=
  Seen sTime 0 recorded.files later.files

/-- A step that does not change the directory in front of a reload, and does
not miss a change in a comparison. -/
def Step (before : Watch Rules) (event : Event Listing)
    (after : Watch Rules) : Prop :=
  Allowed (Detects sTime) Listing.pairs before.copy event ∧
    next sTime rulesOf before event = some after

/-- The table and the rules are those of the recorded listing. -/
structure Linked (watch : Watch Rules) : Prop where
  cfTable : watch.dirProcess.cfTable =
    some (tableOf sTime watch.dirProcess.szPath 0 watch.copy.recorded.files)
  rules : watch.rules = rulesOf watch.copy.recorded.pairs

variable {sTime rulesOf} {before after start last : Watch Rules}

theorem linked_load {dirProcess : CDirProcess} {listing : Listing}
    (loaded : load sTime rulesOf dirProcess listing = some start) :
    Linked sTime rulesOf start ∧
      start.copy = ⟨listing, listing, listing, false⟩ := by
  rw [load, Option.ite_none_right_eq_some] at loaded
  obtain ⟨fresh, loaded⟩ := loaded
  obtain ⟨⟨ret, dirProcess⟩, recorded, rfl⟩ :=
    Option.map_eq_some_iff.mp loaded
  rw [dirInit_eq, fresh, Option.ite_none_right_eq_some] at recorded
  cases recorded.2
  exact ⟨⟨rfl, rfl⟩, rfl⟩

/-- A step of the module is one of its copy. -/
theorem linked_next {event : Event Listing}
    (linked : Linked sTime rulesOf before)
    (taken : next sTime rulesOf before event = some after) :
    Linked sTime rulesOf after ∧
      Refresh.Step (Detects sTime) before.copy event after.copy := by
  cases event with
  | change directory =>
      cases taken
      exact ⟨⟨linked.cfTable, linked.rules⟩, .change _ _⟩
  | compare =>
      rw [next, Option.ite_none_left_eq_some] at taken
      obtain ⟨idle, taken⟩ := taken
      cases taken
      exact ⟨⟨linked.cfTable, linked.rules⟩,
        .compare _ _ (by simpa using idle)
          (dirCompare_iff linked.cfTable _)⟩
  | reload =>
      rw [next, Option.ite_none_right_eq_some] at taken
      obtain ⟨waiting, taken⟩ := taken
      obtain ⟨dirProcess, reloaded, rfl⟩ := Option.map_eq_some_iff.mp taken
      rw [dirReload_eq (by simp [linked.cfTable]),
        Option.ite_none_right_eq_some] at reloaded
      cases reloaded.2
      exact ⟨⟨rfl, rfl⟩, .reload _ waiting⟩

/-- The rules in force are those of the listing that was compared last. -/
theorem rules_eq {dirProcess : CDirProcess} {listing : Listing}
    {events : List (Event Listing)}
    (loaded : load sTime rulesOf dirProcess listing = some start)
    (run : Run (Step sTime rulesOf) start events last)
    (idle : last.copy.pending = false) :
    last.rules = rulesOf last.copy.compared.pairs := by
  obtain ⟨linked, began⟩ := linked_load loaded
  have still : Linked sTime rulesOf last :=
    run.invariant (fun linked ⟨_, taken⟩ => (linked_next linked taken).1)
      linked
  have matched : ∀ {before event after},
      Linked sTime rulesOf before → Step sTime rulesOf before event after →
        Linked sTime rulesOf after ∧
          Run (fun copy event next =>
            Allowed (Detects sTime) Listing.pairs copy event ∧
              Refresh.Step (Detects sTime) copy event next)
            before.copy [event] after.copy := by
    rintro before event after linked ⟨allowed, taken⟩
    obtain ⟨still, step⟩ := linked_next linked taken
    exact ⟨still, .single ⟨allowed, step⟩⟩
  have copies := run.simulate Watch.copy (fun event => [event])
    (Linked sTime rulesOf) matched linked
  have fresh : Fresh Listing.pairs start.copy := by
    rw [began]
    exact ⟨fun _ => rfl, fun _ => rfl⟩
  rw [still.rules, view_recorded_eq copies fresh idle]

end Watching

/-- **Changes of the directory are detected.**

A recorded listing is compared exactly with a later one exactly when every
difference shows, and the rules in force are those of the last comparison
after every run in which it does. -/
theorem changes_detected (sTime : Int → Bytes) :
    (∀ recorder dirProcess recorded later,
      Exact sTime recorder dirProcess recorded later ↔
        Shows sTime recorder dirProcess recorded later) ∧
      (∀ {Rules : Type} (rulesOf : Set (Bytes × Int) → Rules)
        {dirProcess : CDirProcess} {listing : Listing}
        {start last : Watch Rules} {events : List (Event Listing)},
        load sTime rulesOf dirProcess listing = some start →
        Run (Step sTime rulesOf) start events last →
        last.copy.pending = false →
        last.rules = rulesOf last.copy.compared.pairs) ∧
      ∀ (dirProcess : CDirProcess) (direntp : Direntry),
        (dirProcess.sFileName direntp).length < 512 := by
  refine ⟨fun _ _ _ _ => exact_iff_shows, ?_,
    CDirProcess.length_sFileName_lt⟩
  intro Rules rulesOf dirProcess listing start last events loaded run idle
  exact rules_eq loaded run idle

/-- A file that was last changed at the beginning of 1970. -/
def firstFile (dName : Bytes) (fits : dName.length < 256) : Direntry where
  dName := dName
  fits := fits
  stMtime := some 0

/-- `a.txt` is the only file. -/
def onlyA : Listing where
  direntps := [firstFile (ascii "a.txt") (of_decide_eq_true rfl)]
  once := of_decide_eq_true rfl
  readable := List.forall_mem_singleton.mpr fun _ => rfl

/-- `b.txt` is the only file. -/
def onlyB : Listing where
  direntps := [firstFile (ascii "b.txt") (of_decide_eq_true rfl)]
  once := of_decide_eq_true rfl
  readable := List.forall_mem_singleton.mpr fun _ => rfl

/-- An instance for the directory `list/`. -/
def listProcess : CDirProcess where
  cfTable := none
  szPath := ascii "list/"
  pathFits := of_decide_eq_true rfl
  length := 128

/-- Both files. -/
def bothFiles : Listing where
  direntps :=
    [firstFile (ascii "a.txt") (of_decide_eq_true rfl),
      firstFile (ascii "b.txt") (of_decide_eq_true rfl)]
  once := of_decide_eq_true rfl
  readable := List.forall_mem_cons.mpr
    ⟨fun _ => rfl, List.forall_mem_singleton.mpr fun _ => rfl⟩

/-- The minute in which both files were changed. -/
def firstMinute (_ : Int) : Bytes :=
  ascii "1970-01-01 00:00"

/-- A second file is seen, and its rules come into force. -/
theorem changes_detected_second :
    Exact firstMinute .init listProcess onlyA bothFiles ∧
      ∃ start last : Watch (Set (Bytes × Int)),
        load firstMinute id listProcess onlyA = some start ∧
          Run (Step firstMinute id) start
            [.change bothFiles, .compare, .reload] last ∧
          last.copy.pending = false ∧
          last.rules = last.copy.compared.pairs := by
  have counts : Seen firstMinute 0 onlyA.files bothFiles.files :=
    Or.inl (by decide)
  obtain ⟨exact, runs, _⟩ := changes_detected firstMinute
  have shows : Shows firstMinute .init listProcess onlyA bothFiles :=
    ⟨fun other => Recorder.noConfusion other, by decide,
      fun _ => rfl, fun _ => counts⟩
  let process := recordedBy firstMinute listProcess 0 onlyA
  let start : Watch (Set (Bytes × Int)) :=
    ⟨⟨onlyA, onlyA, onlyA, false⟩, process, onlyA.pairs⟩
  have loaded : load firstMinute id listProcess onlyA = some start := by
    rw [load, if_pos (by decide : listProcess.nFileNum = 0), dirInit_eq,
      if_pos (by decide)]
    rfl
  have compared : dirCompare firstMinute process bothFiles.scan = true :=
    dirCompare_recordedBy.mpr counts
  have run : Run (Step firstMinute id) start
      [.change bothFiles, .compare, .reload]
      ⟨⟨bothFiles, bothFiles, bothFiles, false⟩,
        recordedBy firstMinute process 0 bothFiles, bothFiles.pairs⟩ := by
    refine .cons ⟨rfl, rfl⟩ (.cons ⟨fun _ => counts, rfl⟩ (.single ?_))
    refine ⟨trivial, ?_⟩
    simp only [next, start, compared, if_true]
    rw [dirReload_eq rfl, if_pos (by decide)]
    rfl
  exact ⟨(exact _ _ _ _).mpr shows, start, _, loaded, run, rfl,
    runs id loaded run rfl⟩

/-- The replacement of the only file by another one is missed. -/
theorem not_exact_replaced :
    ¬ Exact firstMinute .init listProcess onlyA onlyB := by
  rintro ⟨after, records, exact⟩
  obtain ⟨_, _, rfl⟩ := records_iff.mp records
  have differ : onlyA.pairs ≠ onlyB.pairs := by
    intro same
    have member : (ascii "a.txt", 0) ∈ onlyB.files :=
      (Set.ext_iff.mp same (ascii "a.txt", 0)).mp
        (by decide : (ascii "a.txt", 0) ∈ onlyA.files)
    revert member
    decide
  have missed : dirCompare firstMinute
      (recordedBy firstMinute listProcess 0 onlyA) onlyB.scan = false := by
    decide +kernel
  exact Bool.false_ne_true (missed.symm.trans (exact.mpr differ))

end WindowSystem.DirProcess
