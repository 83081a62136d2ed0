import WindowSystem.Library.Ancestry
import WindowSystem.Sspserver.JavaRuntime

/-!
# The labels of an ad

For each label of an ad the names on the way from the root to the label are
written into one text with `>` in between.  The text is split again, and the
parts are hashed one after the other without a separator.  The hash is looked
up among the hashes of the labels that a user carries.
-/

namespace WindowSystem.Sspserver.LabelPaths

open WindowSystem.Library.Ancestry
open WindowSystem.Sspserver.JavaRuntime

/-! ## Labels -/

/-- A row of `all_base_label`. -/
structure AllLabelBaseInfo where
  id : JavaString
  pid : Option JavaString
  name : JavaString
deriving DecidableEq

/-- The table `all_base_label`. -/
structure LabelTable where
  rows : List AllLabelBaseInfo
  ids : (rows.map AllLabelBaseInfo.id).Nodup

/-- A label of an ad. -/
structure AdPlanLabelRel where
  labelValue : Option JavaString
  labelName : Option JavaString
  fullPathNameMDVal : Option JavaString
deriving DecidableEq

/-- MD5 of the bytes of a string in UTF-8, as hexadecimal digits. -/
structure Md5 where
  digits : JavaString → JavaString
  length : ∀ source, (digits source).length = 32

/-- What can be thrown. -/
inductive Throwable where
  | nullPointerException
  | stackOverflowError
deriving DecidableEq

/-! ## The program -/

section Program

variable (md5 : Md5) (table : LabelTable)

/-- `JavaMd5Util.md5Encryp` -/
def md5Encryp (vals : List JavaString) : JavaString :=
  md5.digits vals.flatten

/-- `JavaMd5Util.md5EncrypFirst16` -/
def md5EncrypFirst16 (vals : List JavaString) : JavaString :=
  (md5Encryp md5 vals).take 16

/-- `select * from all_base_label a where a.id=?` -/
def qryAllBaseLabelByLabelValue (labelId : Option JavaString) :
    Option AllLabelBaseInfo :=
  table.rows.find? fun label => some label.id = labelId

/-- `createShowLabelInfo` on a stack that holds so many more calls. -/
def createShowLabelInfo : Nat → Option JavaString → JavaString →
    Except Throwable JavaString
  | 0, _, _ => .error .stackOverflowError
  | stack + 1, parentLabelVal, label =>
      match qryAllBaseLabelByLabelValue table parentLabelVal with
      | none => .ok label
      | some parentLabel =>
          if parentLabel.id = text "0" then .ok label
          else
            createShowLabelInfo stack parentLabel.pid
              (parentLabel.name ++ '>' :: label)

/-- What `createAdPlanLabeList` does for one label.  The name is taken before
the label is compared with `null`. -/
def setFullPathName (stack : Nat) (rel : AdPlanLabelRel) :
    Except Throwable AdPlanLabelRel :=
  match qryAllBaseLabelByLabelValue table rel.labelValue with
  | none => .error .nullPointerException
  | some retBaseLabel =>
      (createShowLabelInfo table stack retBaseLabel.pid
        retBaseLabel.name).map fun label =>
          { rel with
            labelName := some retBaseLabel.name
            fullPathNameMDVal :=
              some (md5EncrypFirst16 md5 (split '>' label)) }

/-- `createAdPlanLabeList`, for the labels that were found for the ad. -/
def createAdPlanLabeList (stack : Nat) (rels : List AdPlanLabelRel) :
    Except Throwable (List AdPlanLabelRel) :=
  rels.mapM (setFullPathName md5 table stack)

/-- `adLabelFilter`, for the keys of `userLabelMap`. -/
def adLabelFilter (platform : Platform) (isLabelFilter : Bool)
    (adPlanLabelRelList : List AdPlanLabelRel) (adAcct ip : JavaString)
    (userLabels : List (Option JavaString)) : Bool :=
  if isLabelFilter then
    if isBlank platform adAcct && isBlank platform ip then false
    else adPlanLabelRelList.any fun rel =>
      userLabels.contains rel.fullPathNameMDVal
  else false

end Program

/-! ## What the keys should identify -/

section Purpose

variable (md5 : Md5) (table : LabelTable)

/-- The label above a label; the root with the id `0` does not count. -/
def parent (label : AllLabelBaseInfo) : Option AllLabelBaseInfo :=
  (qryAllBaseLabelByLabelValue table label.pid).filter fun above =>
    above.id ≠ text "0"

/-- The names from the root to a label. -/
def names (label : AllLabelBaseInfo) (ancestors : List AllLabelBaseInfo) :
    List JavaString :=
  (label :: ancestors).reverse.map AllLabelBaseInfo.name

/-- A label value has a label with these names from the root to it. -/
def Path (labelValue : Option JavaString) (path : List JavaString) : Prop :=
  ∃ label ancestors,
    qryAllBaseLabelByLabelValue table labelValue = some label ∧
      Chain (parent table) label ancestors ∧ path = names label ancestors

/-- With enough of stack every label gets a key, and labels get the same key
exactly when they have the same names from the root on. -/
def Identifies (rels : List AdPlanLabelRel) : Prop :=
  ∃ stack result, createAdPlanLabeList md5 table stack rels = .ok result ∧
    ∀ rel ∈ result, ∀ other ∈ result, ∀ path way,
      Path table rel.labelValue path → Path table other.labelValue way →
        (rel.fullPathNameMDVal = other.fullPathNameMDVal ↔ path = way)

/-- The names one after the other without any `>`. -/
def joined (path : List JavaString) : JavaString :=
  path.flatten.filter (· ≠ '>')

/-- The labels are in the table, below no cycle, and their names differ even
when they are joined. -/
structure Identifiable (rels : List AdPlanLabelRel) : Prop where
  known : ∀ rel ∈ rels,
    (qryAllBaseLabelByLabelValue table rel.labelValue).isSome = true
  acyclic : ∀ rel ∈ rels, ∀ label ∈
    qryAllBaseLabelByLabelValue table rel.labelValue,
      Acyclic (parent table) label
  separate : ∀ rel ∈ rels, ∀ other ∈ rels, ∀ path way,
    Path table rel.labelValue path → Path table other.labelValue way →
      joined path = joined way → path = way

/-- The strings that are hashed. -/
def hashed (rels : List AdPlanLabelRel) : Set JavaString :=
  {source | ∃ rel ∈ rels, ∃ path, Path table rel.labelValue path ∧
    source = joined path}

end Purpose

/-! ## The text of a path -/

theorem flatten_splitOn (separator : Char) (string : JavaString) :
    (string.splitOn separator).flatten =
      string.filter (· ≠ separator) := by
  induction string with
  | nil => rfl
  | cons first string induction =>
      rw [List.splitOn, List.splitOnP_cons_eq_if_modifyHead]
      rw [List.splitOn] at induction
      by_cases same : first = separator
      · simp [same, induction]
      · cases pieces : string.splitOnP (· == separator) with
        | nil => exact absurd pieces (List.splitOnP_ne_nil _ _)
        | cons piece rest =>
            rw [pieces, List.flatten_cons] at induction
            simp [same, induction]

/-- What is hashed is the text without the separators. -/
theorem flatten_split (separator : Char) (string : JavaString) :
    (split separator string).flatten =
      string.filter (· ≠ separator) := by
  have dropped (pieces : List JavaString) :
      (pieces.reverse.dropWhile (· = [])).reverse.flatten =
        pieces.flatten := by
    induction pieces using List.reverseRecOn with
    | nil => rfl
    | append_singleton pieces piece induction =>
        by_cases empty : piece = []
        · simpa [empty] using induction
        · simp [empty]
  by_cases inside : separator ∈ string
  · rw [split, if_pos inside, dropped, flatten_splitOn]
  · rw [split, if_neg inside, List.flatten_singleton, eq_comm,
      List.filter_eq_self]
    rintro character member
    exact decide_eq_true fun same => inside (same ▸ member)

/-- The text behind `createShowLabelInfo`. -/
def fullPath (label : JavaString) (ancestors : List AllLabelBaseInfo) :
    JavaString :=
  ancestors.foldl (fun label above => above.name ++ '>' :: label) label

theorem filter_fullPath (label : JavaString)
    (ancestors : List AllLabelBaseInfo) :
    (fullPath label ancestors).filter (· ≠ '>') =
      joined (ancestors.reverse.map AllLabelBaseInfo.name ++ [label]) := by
  induction ancestors generalizing label with
  | nil => simp [fullPath, joined]
  | cons above ancestors induction =>
      have step := induction (above.name ++ '>' :: label)
      rw [fullPath, List.foldl_cons]
      rw [fullPath] at step
      rw [step]
      simp [joined]

theorem joined_names (label : AllLabelBaseInfo)
    (ancestors : List AllLabelBaseInfo) :
    joined (names label ancestors) =
      (split '>' (fullPath label.name ancestors)).flatten := by
  rw [flatten_split, filter_fullPath, names, List.reverse_cons,
    List.map_append, List.map_singleton]

/-! ## The keys -/

section Keys

variable {md5 : Md5} {table : LabelTable}

/-- Going up comes to an end on the stack exactly when the chain of parents
is shorter than it. -/
theorem createShowLabelInfo_ok {stack : Nat} {below : AllLabelBaseInfo}
    {label full : JavaString} :
    createShowLabelInfo table stack below.pid label = .ok full ↔
      ∃ ancestors, Chain (parent table) below ancestors ∧
        ancestors.length < stack ∧ full = fullPath label ancestors := by
  induction stack generalizing below label with
  | zero => simp [createShowLabelInfo]
  | succ stack induction =>
      rw [createShowLabelInfo]
      cases found : qryAllBaseLabelByLabelValue table below.pid with
      | none =>
          have alone : parent table below = none := by
            rw [parent, found]
            rfl
          simp [chain_of_none alone, fullPath, eq_comm]
      | some above =>
          by_cases root : above.id = text "0"
          · have alone : parent table below = none := by
              rw [parent, found, Option.filter_some,
                if_neg (by simpa using root)]
            simp [chain_of_none alone, fullPath, eq_comm, root]
          · have up : parent table below = some above := by
              rw [parent, found, Option.filter_some,
                if_pos (by simpa using root)]
            simp only [root, if_false, induction, chain_of_some up]
            constructor
            · rintro ⟨ancestors, chain, short, rfl⟩
              exact ⟨above :: ancestors, ⟨ancestors, rfl, chain⟩,
                Nat.succ_lt_succ short, rfl⟩
            · rintro ⟨_, ⟨ancestors, rfl, chain⟩, short, rfl⟩
              exact ⟨ancestors, chain, Nat.lt_of_succ_lt_succ short, rfl⟩

theorem setFullPathName_ok {stack : Nat} {rel keyed : AdPlanLabelRel} :
    setFullPathName md5 table stack rel = .ok keyed ↔
      ∃ label ancestors,
        qryAllBaseLabelByLabelValue table rel.labelValue = some label ∧
          Chain (parent table) label ancestors ∧ ancestors.length < stack ∧
            keyed =
              { rel with
                labelName := some label.name
                fullPathNameMDVal := some
                  ((md5.digits (joined (names label ancestors))).take 16) } := by
  unfold setFullPathName
  cases found : qryAllBaseLabelByLabelValue table rel.labelValue with
  | none => simp
  | some label =>
      simp only [Option.some.injEq, exists_and_left, exists_eq_left']
      cases shown : createShowLabelInfo table stack label.pid label.name with
      | error thrown =>
          constructor
          · rintro ⟨⟩
          · rintro ⟨ancestors, chain, short, -⟩
            have shows : createShowLabelInfo table stack label.pid
                label.name = .ok (fullPath label.name ancestors) :=
              createShowLabelInfo_ok.mpr ⟨ancestors, chain, short, rfl⟩
            rw [shown] at shows
            cases shows
      | ok full =>
          obtain ⟨ancestors, chain, short, rfl⟩ :=
            createShowLabelInfo_ok.mp shown
          constructor
          · rintro ⟨⟩
            refine ⟨ancestors, chain, short, ?_⟩
            rw [joined_names]
            rfl
          · rintro ⟨others, other, -, rfl⟩
            obtain rfl := chain.unique other
            rw [joined_names]
            rfl

theorem createAdPlanLabeList_ok {stack : Nat} {rels : List AdPlanLabelRel}
    {result : List AdPlanLabelRel}
    (made : createAdPlanLabeList md5 table stack rels = .ok result) :
    (∀ rel ∈ rels, ∃ keyed ∈ result,
      setFullPathName md5 table stack rel = .ok keyed) ∧
      ∀ keyed ∈ result, ∃ rel ∈ rels,
        setFullPathName md5 table stack rel = .ok keyed := by
  induction rels generalizing result with
  | nil =>
      cases made
      exact ⟨by simp, by simp⟩
  | cons rel rels induction =>
      rw [createAdPlanLabeList, List.mapM_cons] at made
      cases first : setFullPathName md5 table stack rel with
      | error thrown =>
          rw [first] at made
          cases made
      | ok keyed =>
          rw [first] at made
          cases later : rels.mapM (setFullPathName md5 table stack) with
          | error thrown =>
              rw [later] at made
              cases made
          | ok rest =>
              rw [later] at made
              cases made
              obtain ⟨forth, back⟩ := induction later
              simp only [List.forall_mem_cons]
              constructor
              · exact ⟨⟨keyed, List.mem_cons_self, first⟩, fun rel member =>
                  let ⟨keyed, present, equal⟩ := forth rel member
                  ⟨keyed, List.mem_cons_of_mem _ present, equal⟩⟩
              · exact ⟨⟨rel, List.mem_cons_self, first⟩,
                  fun keyed member =>
                    let ⟨rel, present, equal⟩ := back keyed member
                    ⟨rel, List.mem_cons_of_mem _ present, equal⟩⟩

theorem createAdPlanLabeList_exists {stack : Nat}
    {rels : List AdPlanLabelRel}
    (each : ∀ rel ∈ rels, ∃ keyed,
      setFullPathName md5 table stack rel = .ok keyed) :
    ∃ result, createAdPlanLabeList md5 table stack rels = .ok result := by
  induction rels with
  | nil => exact ⟨[], rfl⟩
  | cons rel rels induction =>
      rw [List.forall_mem_cons] at each
      obtain ⟨⟨keyed, first⟩, later⟩ := each
      obtain ⟨rest, made⟩ := induction later
      refine ⟨keyed :: rest, ?_⟩
      rw [createAdPlanLabeList] at made
      rw [createAdPlanLabeList, List.mapM_cons, first, made]
      rfl

theorem Path.unique {labelValue : Option JavaString}
    {path way : List JavaString} (left : Path table labelValue path)
    (right : Path table labelValue way) : path = way := by
  obtain ⟨label, ancestors, found, chain, rfl⟩ := left
  obtain ⟨other, others, again, climb, rfl⟩ := right
  obtain rfl := Option.some.inj (found.symm.trans again)
  rw [chain.unique climb]

theorem labelValue_setFullPathName {stack : Nat}
    {rel keyed : AdPlanLabelRel}
    (set : setFullPathName md5 table stack rel = .ok keyed) :
    keyed.labelValue = rel.labelValue := by
  obtain ⟨_, _, -, -, -, rfl⟩ := setFullPathName_ok.mp set
  rfl

/-- The key of a label is the hash of its joined names. -/
theorem key_of_path {stack : Nat} {rel keyed : AdPlanLabelRel}
    {path : List JavaString}
    (set : setFullPathName md5 table stack rel = .ok keyed)
    (named : Path table rel.labelValue path) :
    keyed.fullPathNameMDVal =
      some ((md5.digits (joined path)).take 16) := by
  obtain ⟨label, ancestors, found, chain, -, rfl⟩ :=
    setFullPathName_ok.mp set
  rw [named.unique ⟨label, ancestors, found, chain, rfl⟩]

theorem ends_iff (label : AllLabelBaseInfo) :
    Ends (parent table) label ↔ Acyclic (parent table) label :=
  ends_iff_acyclic (List.finite_toSet table.rows) fun _ _ up =>
    List.mem_of_find?_eq_some (Option.filter_eq_some_iff.mp up).1

/-- Finitely many labels whose chains end have room on one stack. -/
theorem exists_stack {rels : List AdPlanLabelRel}
    (each : ∀ rel ∈ rels, ∃ path, Path table rel.labelValue path) :
    ∃ stack, ∀ rel ∈ rels, ∃ keyed,
      setFullPathName md5 table stack rel = .ok keyed := by
  induction rels with
  | nil => exact ⟨0, by simp⟩
  | cons rel rels induction =>
      rw [List.forall_mem_cons] at each
      obtain ⟨⟨-, label, ancestors, found, chain, -⟩, later⟩ := each
      obtain ⟨stack, enough⟩ := induction later
      refine ⟨max stack (ancestors.length + 1),
        List.forall_mem_cons.mpr ⟨?_, fun rel member => ?_⟩⟩
      · exact ⟨_, setFullPathName_ok.mpr ⟨label, ancestors, found, chain,
          le_max_right stack (ancestors.length + 1), rfl⟩⟩
      · obtain ⟨keyed, set⟩ := enough rel member
        obtain ⟨label, ancestors, found, chain, short, equal⟩ :=
          setFullPathName_ok.mp set
        exact ⟨keyed, setFullPathName_ok.mpr ⟨label, ancestors, found,
          chain, short.trans_le (le_max_left _ _), equal⟩⟩

theorem identifiable_of_identifies {rels : List AdPlanLabelRel}
    (identifies : Identifies md5 table rels) : Identifiable table rels := by
  obtain ⟨stack, result, made, keys⟩ := identifies
  obtain ⟨forth, -⟩ := createAdPlanLabeList_ok made
  refine ⟨fun rel member => ?_, fun rel member label found => ?_,
    fun rel member other present path way named called same => ?_⟩
  · obtain ⟨keyed, -, set⟩ := forth rel member
    obtain ⟨label, -, found, -⟩ := setFullPathName_ok.mp set
    rw [found]
    rfl
  · obtain ⟨keyed, -, set⟩ := forth rel member
    obtain ⟨known, ancestors, again, chain, -⟩ :=
      setFullPathName_ok.mp set
    obtain rfl := Option.some.inj (again.symm.trans found)
    exact chain.acyclic
  · obtain ⟨keyed, inside, set⟩ := forth rel member
    obtain ⟨second, within, put⟩ := forth other present
    have shown := keys keyed inside second within path way
    rw [labelValue_setFullPathName set, labelValue_setFullPathName put,
      key_of_path set named, key_of_path put called, same] at shown
    exact (shown named called).mp rfl

theorem identifies_of_identifiable {rels : List AdPlanLabelRel}
    (injective : Set.InjOn (fun source => (md5.digits source).take 16)
      (hashed table rels))
    (identifiable : Identifiable table rels) :
    Identifies md5 table rels := by
  obtain ⟨stack, enough⟩ := @exists_stack md5 table rels fun rel member => by
    obtain ⟨label, found⟩ :=
      Option.isSome_iff_exists.mp (identifiable.known rel member)
    obtain ⟨ancestors, chain⟩ :=
      (ends_iff label).mpr (identifiable.acyclic rel member label found)
    exact ⟨_, label, ancestors, found, chain, rfl⟩
  obtain ⟨result, made⟩ := createAdPlanLabeList_exists enough
  obtain ⟨-, back⟩ := createAdPlanLabeList_ok made
  refine ⟨stack, result, made, ?_⟩
  intro keyed inside second within path way named called
  obtain ⟨rel, member, set⟩ := back keyed inside
  obtain ⟨other, present, put⟩ := back second within
  rw [labelValue_setFullPathName set] at named
  rw [labelValue_setFullPathName put] at called
  rw [key_of_path set named, key_of_path put called, Option.some.injEq]
  constructor
  · intro same
    exact identifiable.separate rel member other present path way named
      called (injective ⟨rel, member, path, named, rfl⟩
        ⟨other, present, way, called, rfl⟩ same)
  · rintro rfl
    rfl

end Keys

/-- The keys identify the names on the way to a label exactly when the labels
are in the table, below no cycle, and no two different lists of names are the
same when they are joined. -/
theorem createAdPlanLabeList_identifies_iff (md5 : Md5) (table : LabelTable)
    (rels : List AdPlanLabelRel)
    (injective : Set.InjOn (fun source => (md5.digits source).take 16)
      (hashed table rels)) :
    Identifies md5 table rels ↔ Identifiable table rels :=
  ⟨identifiable_of_identifies, identifies_of_identifiable injective⟩

/-- A user who is known to the filter gets the ad exactly when one of the
labels that are carried has the same names as one of the ad. -/
theorem adLabelFilter_iff {md5 : Md5} {table : LabelTable}
    {platform : Platform} {own carried : List AdPlanLabelRel}
    (injective : Set.InjOn (fun source => (md5.digits source).take 16)
      (hashed table (own ++ carried)))
    (identifiable : Identifiable table (own ++ carried)) {stack : Nat}
    {labels worn : List AdPlanLabelRel}
    (made : createAdPlanLabeList md5 table stack own = .ok labels)
    (known : createAdPlanLabeList md5 table stack carried = .ok worn)
    {adAcct ip : JavaString} (given : isBlank platform adAcct = false) :
    adLabelFilter platform true labels adAcct ip
        (worn.map AdPlanLabelRel.fullPathNameMDVal) = true ↔
      ∃ rel ∈ own, ∃ other ∈ carried, ∃ path,
        Path table rel.labelValue path ∧
          Path table other.labelValue path := by
  obtain ⟨forth, back⟩ := createAdPlanLabeList_ok made
  obtain ⟨wears, bears⟩ := createAdPlanLabeList_ok known
  simp only [adLabelFilter, if_true, given, Bool.false_and,
    Bool.false_eq_true, if_false, List.any_eq_true, List.contains_iff_mem,
    List.mem_map]
  constructor
  · rintro ⟨keyed, inside, second, within, same⟩
    obtain ⟨rel, member, set⟩ := back keyed inside
    obtain ⟨other, present, put⟩ := bears second within
    obtain ⟨label, ancestors, found, chain, -, rfl⟩ :=
      setFullPathName_ok.mp set
    obtain ⟨mark, others, again, climb, -, rfl⟩ :=
      setFullPathName_ok.mp put
    have named : Path table rel.labelValue (names label ancestors) :=
      ⟨label, ancestors, found, chain, rfl⟩
    have called : Path table other.labelValue (names mark others) :=
      ⟨mark, others, again, climb, rfl⟩
    have left := List.mem_append_left carried member
    have right := List.mem_append_right own present
    have equal := identifiable.separate other right rel left _ _ called
      named (injective ⟨other, right, _, called, rfl⟩
        ⟨rel, left, _, named, rfl⟩ (Option.some.inj same))
    rw [equal] at called
    exact ⟨rel, member, other, present, _, named, called⟩
  · rintro ⟨rel, member, other, present, path, named, called⟩
    obtain ⟨keyed, inside, set⟩ := forth rel member
    obtain ⟨second, within, put⟩ := wears other present
    refine ⟨keyed, inside, second, within, ?_⟩
    rw [key_of_path set named, key_of_path put called]

/-! ## A table with two labels, and three tables without keys -/

/-- MD5 of the two strings that are hashed below. -/
def shopMd5 : Md5 where
  digits source :=
    if source = text "shop" then text "FB54F3C5992B96D001BB16E8E92D968D"
    else if source = text "shopshoes" then
      text "6692B776614A3BF2EBA384FF2BD5AB37"
    else List.replicate 32 '0'
  length source := by
    split_ifs
    · rfl
    · rfl
    · rfl

/-- Shoes below the shop below the root. -/
def shopTable : LabelTable where
  rows := [⟨text "1", some (text "0"), text "shop"⟩,
    ⟨text "2", some (text "1"), text "shoes"⟩]
  ids := by decide +kernel

/-- A label of an ad as it is found. -/
def relTo (labelValue : String) : AdPlanLabelRel where
  labelValue := some (text labelValue)
  labelName := none
  fullPathNameMDVal := none

/-- The paths `shop>shoes` and `shops>hoes`. -/
def shopsTable : LabelTable where
  rows := [⟨text "1", some (text "0"), text "shop"⟩,
    ⟨text "2", some (text "1"), text "shoes"⟩,
    ⟨text "3", some (text "0"), text "shops"⟩,
    ⟨text "4", some (text "3"), text "hoes"⟩]
  ids := by decide +kernel

/-- Two labels that are the parents of each other. -/
def cyclicTable : LabelTable where
  rows := [⟨text "1", some (text "2"), text "shop"⟩,
    ⟨text "2", some (text "1"), text "shoes"⟩]
  ids := by decide +kernel

theorem shopTable_path :
    Path shopTable (relTo "1").labelValue [text "shop"] :=
  ⟨⟨text "1", some (text "0"), text "shop"⟩, [], by decide +kernel,
    .root (by decide +kernel), rfl⟩

theorem shopTable_path_shoes :
    Path shopTable (relTo "2").labelValue [text "shop", text "shoes"] :=
  ⟨⟨text "2", some (text "1"), text "shoes"⟩,
    [⟨text "1", some (text "0"), text "shop"⟩], by decide +kernel,
    .child (by decide +kernel) (.root (by decide +kernel)), rfl⟩

theorem mem_hashed_shopTable {source : JavaString}
    (member : source ∈ hashed shopTable [relTo "1", relTo "2"]) :
    source = text "shop" ∨ source = text "shopshoes" := by
  obtain ⟨rel, inside, path, named, rfl⟩ := member
  simp only [List.mem_cons, List.not_mem_nil, or_false] at inside
  rcases inside with rfl | rfl
  · rw [named.unique shopTable_path]
    exact .inl (by decide +kernel)
  · rw [named.unique shopTable_path_shoes]
    exact .inr (by decide +kernel)

theorem Path.acyclic {table : LabelTable} {labelValue : Option JavaString}
    {path : List JavaString} (named : Path table labelValue path) :
    ∀ label ∈ qryAllBaseLabelByLabelValue table labelValue,
      Acyclic (parent table) label := by
  obtain ⟨label, ancestors, found, chain, -⟩ := named
  intro other again
  obtain rfl := Option.some.inj (found.symm.trans again)
  exact chain.acyclic

theorem identifiable_shopTable :
    Identifiable shopTable [relTo "1", relTo "2"] where
  known := by decide +kernel
  acyclic := by
    simp only [List.forall_mem_cons, List.not_mem_nil, false_imp_iff,
      implies_true, and_true]
    exact ⟨shopTable_path.acyclic, shopTable_path_shoes.acyclic⟩
  separate := by
    have apart : joined [text "shop"] ≠
        joined [text "shop", text "shoes"] := by
      decide +kernel
    simp only [List.forall_mem_cons, List.not_mem_nil, false_imp_iff,
      implies_true, and_true]
    refine ⟨⟨?_, ?_⟩, ?_, ?_⟩
    · exact fun path way named called _ => named.unique called
    · intro path way named called same
      rw [named.unique shopTable_path,
        called.unique shopTable_path_shoes] at same
      exact absurd same apart
    · intro path way named called same
      rw [named.unique shopTable_path_shoes,
        called.unique shopTable_path] at same
      exact absurd same.symm apart
    · exact fun path way named called _ => named.unique called

theorem shopTable_identifies :
    Identifies shopMd5 shopTable [relTo "1", relTo "2"] := by
  refine (createAdPlanLabeList_identifies_iff shopMd5 shopTable _ ?_).mpr
    identifiable_shopTable
  intro source member other present same
  rcases mem_hashed_shopTable member with rfl | rfl
  · rcases mem_hashed_shopTable present with rfl | rfl
    · rfl
    · exact absurd same (by decide +kernel)
  · rcases mem_hashed_shopTable present with rfl | rfl
    · exact absurd same (by decide +kernel)
    · rfl

/-- A missing label, a cycle, and two paths with one key. -/
theorem missing_cyclic_and_joined_not_identified :
    ¬ Identifies shopMd5 shopTable [relTo "5"] ∧
      ¬ Identifies shopMd5 cyclicTable [relTo "1"] ∧
        ¬ Identifies shopMd5 shopsTable [relTo "2", relTo "4"] := by
  refine ⟨fun identifies => ?_, fun identifies => ?_, fun identifies => ?_⟩
  · have known := (identifiable_of_identifies identifies).known
    exact absurd known (by decide +kernel)
  · have up : IsParent (parent cyclicTable)
        ⟨text "2", some (text "1"), text "shoes"⟩
        ⟨text "1", some (text "2"), text "shop"⟩ := by
      unfold IsParent
      decide +kernel
    have down : IsParent (parent cyclicTable)
        ⟨text "1", some (text "2"), text "shop"⟩
        ⟨text "2", some (text "1"), text "shoes"⟩ := by
      unfold IsParent
      decide +kernel
    exact (identifiable_of_identifies identifies).acyclic (relTo "1")
      List.mem_cons_self _ (by decide +kernel) _ .refl
      (.tail (.single down) up)
  · have shoes : Path shopsTable (relTo "2").labelValue
        [text "shop", text "shoes"] :=
      ⟨⟨text "2", some (text "1"), text "shoes"⟩,
        [⟨text "1", some (text "0"), text "shop"⟩], by decide +kernel,
        .child (by decide +kernel) (.root (by decide +kernel)), rfl⟩
    have hoes : Path shopsTable (relTo "4").labelValue
        [text "shops", text "hoes"] :=
      ⟨⟨text "4", some (text "3"), text "hoes"⟩,
        [⟨text "3", some (text "0"), text "shops"⟩], by decide +kernel,
        .child (by decide +kernel) (.root (by decide +kernel)), rfl⟩
    have same := (identifiable_of_identifies identifies).separate
      (relTo "2") List.mem_cons_self (relTo "4")
      (List.mem_cons_of_mem _ List.mem_cons_self) _ _ shoes hoes
      (by decide +kernel)
    exact absurd same (by decide +kernel)

end WindowSystem.Sspserver.LabelPaths
