import Mathlib.Data.List.TakeWhile
import WindowSystem.Admanager.EditAdPlan
import WindowSystem.Library.Tokens

/-!
# Creating and editing crowds

`addCrowdConfig` and `editSaveCrowdConfig` of `CrowdServiceImpl` store the
keywords, the urls and the rule of a crowd from the same form.  The first runs
in a transaction.  The second deletes the old rows before it inserts the new
ones, and each of its statements is committed by itself.
-/

namespace WindowSystem.Admanager.CrowdService

open WindowSystem.Admanager.EditAdPlan (pieces splitLines trim)
open WindowSystem.Library.Tokens (not_mem_of_mem_splitOn)
open WindowSystem.Library.Transaction
open WindowSystem.Sspserver.JavaRuntime

/-! ## Rows -/

/-- A keyword of a crowd. -/
structure CrowdKeyword where
  keyword : JavaString
  sourceType : JavaString
  sts : JavaString
deriving DecidableEq

/-- A url of a crowd. -/
structure CrowdUrl where
  url : JavaString
  sourceType : JavaString
  sts : JavaString
deriving DecidableEq

/-- The rule of a crowd. -/
structure CrowdRule where
  kwNum : Option JavaString
  kwSwitch : JavaString
  kwTimeNum : Option JavaString
  kwTimeType : Option JavaString
  remark : JavaString
  sts : JavaString
  urlNum : Option JavaString
  urlSwitch : JavaString
  urlTimeNum : Option JavaString
  urlTimeType : Option JavaString
deriving DecidableEq

/-- A row of the table `crowd`. -/
structure Crowd where
  crowdId : Nat
  crowdName : Option JavaString
  crowdDesc : Option JavaString
  sts : JavaString
  createTime : JavaString
  userId : JavaString
deriving DecidableEq

/-- A row with its id, its crowd and the time of its creation. -/
structure Entry (ρ : Type*) where
  id : Nat
  crowdId : Nat
  createTime : JavaString
  row : ρ
deriving DecidableEq

/-- A table that gives out its ids. -/
structure Table (ρ : Type*) where
  entries : List (Entry ρ)
  next : Nat
  below : ∀ entry ∈ entries, entry.id < next

section Table

variable {ρ : Type*}

def Table.insert (table : Table ρ) (crowdId : Nat) (createTime : JavaString)
    (row : ρ) : Table ρ where
  entries := table.entries ++ [⟨table.next, crowdId, createTime, row⟩]
  next := table.next + 1
  below := by
    intro entry member
    rcases List.mem_append.mp member with old | new
    · exact Nat.lt_succ_of_lt (table.below entry old)
    · rw [List.mem_singleton.mp new]
      exact Nat.lt_succ_self _

/-- `delete from ... where crowd_id = ?` -/
def Table.delete (table : Table ρ) (crowdId : Nat) : Table ρ where
  entries := table.entries.filter fun entry => entry.crowdId ≠ crowdId
  next := table.next
  below entry member := table.below entry (List.mem_of_mem_filter member)

/-- The rows of a crowd up to ids and times. -/
def Table.rows (table : Table ρ) (crowdId : Nat) : List ρ :=
  (table.entries.filter fun entry => entry.crowdId = crowdId).map Entry.row

end Table

/-- The database. -/
structure Tables where
  crowds : List Crowd
  nextCrowdId : Nat
  crowdKeywords : Table CrowdKeyword
  crowdUrls : Table CrowdUrl
  crowdRules : Table CrowdRule

/-! ## The form -/

/-- The parameters of both methods.  The lists and the switches are only
tested with `isNotBlank` and split, so that `null` is the empty string. -/
structure Form where
  crowdName : Option JavaString
  crowdDesc : Option JavaString
  searchKwFromOcean : JavaString
  searchKwFormCust : JavaString
  urlFromOcean : JavaString
  urlFromCust : JavaString
  searchKwNum : Option JavaString
  searchKwTimeNum : Option JavaString
  searchKwTimeType : Option JavaString
  urlNum : Option JavaString
  urlTimeType : Option JavaString
  urlTimeNum : Option JavaString
  searchKwSwitch : JavaString
  urlSwitch : JavaString

section Form

variable (platform : Platform) (form : Form)

/-- A list is split, and its blank parts are passed over. -/
def parts (split : JavaString → List JavaString) (string : JavaString) :
    List JavaString :=
  if isNotBlank platform string then
    (split string).filter (isNotBlank platform)
  else []

/-- `%XY` -/
def percent (byte : UInt8) : JavaString :=
  '%' :: ((Nat.toDigits 16 (byte.toNat + 256)).drop 1).map Char.toUpper

/-- `EncodUtil.EncodeUrl`: the characters from U+4E00 to U+9FA5 are encoded in
UTF-8. -/
def EncodeUrl (url : JavaString) : JavaString :=
  url.flatMap fun one =>
    if 0x4e00 ≤ one.toNat ∧ one.toNat ≤ 0x9fa5 then
      (String.utf8EncodeChar one).flatMap percent
    else [one]

/-- What is stored for a url of the customer. -/
def custUrl (part : JavaString) : JavaString :=
  EncodeUrl
    (if containsText (trim part) (text "http://") then trim part
    else text "http://" ++ trim part)

/-- The keywords in the order in which they are stored. -/
def keywordRows : List CrowdKeyword :=
  (parts platform (split ',') form.searchKwFromOcean).map
      (⟨·, text "O", text "A"⟩) ++
    (parts platform splitLines form.searchKwFormCust).map
      (⟨·, text "C", text "A"⟩)

/-- The urls in the order in which they are stored, for what the urls of the
ocean are split with. -/
def urlRows (splitOcean : JavaString → List JavaString) : List CrowdUrl :=
  (parts platform splitOcean form.urlFromOcean).map
      (⟨·, text "O", text "A"⟩) ++
    (parts platform splitLines form.urlFromCust).map
      fun part => ⟨custUrl part, text "C", text "A"⟩

/-- `KW_SWITCH_Y` and `KW_SWITCH_N`, as for urls. -/
def switch (value : JavaString) : JavaString :=
  if isNotBlank platform value then text "Y" else text "N"

def crowdRule : CrowdRule where
  kwNum := form.searchKwNum
  kwSwitch := switch platform form.searchKwSwitch
  kwTimeNum := form.searchKwTimeNum
  kwTimeType := form.searchKwTimeType
  remark := []
  sts := text "A"
  urlNum := form.urlNum
  urlSwitch := switch platform form.urlSwitch
  urlTimeNum := form.urlTimeNum
  urlTimeType := form.urlTimeType

end Form

/-! ## Statements -/

inductive Point where
  | addCrowd
  | updateCrowd
  | delCrowdKeywords
  | addCrowdKeywords (index : Nat)
  | delCrowdUrls
  | addCrowdUrls (index : Nat)
  | delCrowdRule
  | addCrowdRule
deriving DecidableEq

/-- A statement of `CrowdDaoImpl`. -/
abbrev CrowdStatement := Statement Point Tables

def dao (point : Point) (effect : Tables → Tables) : CrowdStatement :=
  ⟨point, fun tables => some (effect tables)⟩

/-- `addCrowdKeywords` for each row. -/
def addCrowdKeywords (crowdId : Nat) (ctStr : JavaString)
    (rows : List CrowdKeyword) : List CrowdStatement :=
  adding .addCrowdKeywords
    (fun row tables =>
      { tables with
        crowdKeywords := tables.crowdKeywords.insert crowdId ctStr row })
    (rows.map some)

/-- `addCrowdUrls` for each row. -/
def addCrowdUrls (crowdId : Nat) (ctStr : JavaString)
    (rows : List CrowdUrl) : List CrowdStatement :=
  adding .addCrowdUrls
    (fun row tables =>
      { tables with
        crowdUrls := tables.crowdUrls.insert crowdId ctStr row })
    (rows.map some)

def addCrowdRule (crowdId : Nat) (ctStr : JavaString) (row : CrowdRule) :
    CrowdStatement :=
  dao .addCrowdRule fun tables =>
    { tables with
      crowdRules := tables.crowdRules.insert crowdId ctStr row }

def delCrowdKeywords (crowdId : Nat) : CrowdStatement :=
  dao .delCrowdKeywords fun tables =>
    { tables with crowdKeywords := tables.crowdKeywords.delete crowdId }

def delCrowdUrls (crowdId : Nat) : CrowdStatement :=
  dao .delCrowdUrls fun tables =>
    { tables with crowdUrls := tables.crowdUrls.delete crowdId }

def delCrowdRule (crowdId : Nat) : CrowdStatement :=
  dao .delCrowdRule fun tables =>
    { tables with crowdRules := tables.crowdRules.delete crowdId }

/-- `update crowd set crowd_name = ?,crowd_desc = ? where crowd_id = ?` -/
def updateCrowd (form : Form) (crowdId : Nat) : CrowdStatement :=
  dao .updateCrowd fun tables =>
    { tables with
      crowds := tables.crowds.map fun crowd =>
        if crowd.crowdId = crowdId then
          { crowd with
            crowdName := form.crowdName
            crowdDesc := form.crowdDesc }
        else crowd }

def addCrowd (form : Form) (ctStr userId : JavaString) : CrowdStatement :=
  dao .addCrowd fun tables =>
    { tables with
      crowds := tables.crowds ++
        [⟨tables.nextCrowdId, form.crowdName, form.crowdDesc, text "A",
          ctStr, userId⟩]
      nextCrowdId := tables.nextCrowdId + 1 }

/-! ## The two methods -/

section Methods

variable (platform : Platform) (form : Form) (fails : Point → Bool)

/-- The statements of `addCrowdConfig`, once the id of the crowd is known. -/
def addStatements (ctStr userId : JavaString) (crowdId : Nat) :
    List CrowdStatement :=
  addCrowd form ctStr userId ::
    (addCrowdKeywords crowdId ctStr (keywordRows platform form) ++
      (addCrowdUrls crowdId ctStr (urlRows platform form splitLines) ++
        [addCrowdRule crowdId ctStr (crowdRule platform form)]))

/-- `addCrowdConfig`; a failure leaves the tables as they were. -/
def addCrowdConfig (ctStr userId : JavaString) (tables : Tables) :
    Option Tables :=
  runAll fails (addStatements platform form ctStr userId tables.nextCrowdId)
    tables

/-- The statements of `editSaveCrowdConfig`. -/
def editStatements (ctStr : JavaString) (oldCrowdId : Nat) :
    List CrowdStatement :=
  updateCrowd form oldCrowdId :: delCrowdKeywords oldCrowdId ::
    (addCrowdKeywords oldCrowdId ctStr (keywordRows platform form) ++
      delCrowdUrls oldCrowdId ::
        (addCrowdUrls oldCrowdId ctStr
            (urlRows platform form (split ',')) ++
          [delCrowdRule oldCrowdId,
            addCrowdRule oldCrowdId ctStr (crowdRule platform form)]))

/-- `editSaveCrowdConfig` up to its end or to the first failure. -/
def editSaveCrowdConfig (ctStr : JavaString) (oldCrowdId : Nat)
    (tables : Tables) : Tables :=
  runCaught fails (editStatements platform form ctStr oldCrowdId) tables

end Methods

/-! ## What an edit should do -/

/-- The rows of two crowds are the same up to ids and times. -/
structure SameRows (tables : Tables) (crowdId : Nat) (others : Tables)
    (other : Nat) : Prop where
  keywords : (tables.crowdKeywords.rows crowdId).Perm
    (others.crowdKeywords.rows other)
  urls : (tables.crowdUrls.rows crowdId).Perm (others.crowdUrls.rows other)
  rules : (tables.crowdRules.rows crowdId).Perm
    (others.crowdRules.rows other)

/-- The next crowd has no rows yet. -/
structure Fresh (tables : Tables) : Prop where
  keywords : tables.crowdKeywords.rows tables.nextCrowdId = []
  urls : tables.crowdUrls.rows tables.nextCrowdId = []
  rules : tables.crowdRules.rows tables.nextCrowdId = []

/-- The rows of a crowd are still there, with their ids. -/
def Table.Keeps {ρ : Type*} (before : Table ρ) (crowdId : Nat)
    (after : Table ρ) : Prop :=
  ∀ entry ∈ before.entries, entry.crowdId = crowdId →
    entry ∈ after.entries

structure Keeps (before : Tables) (crowdId : Nat) (after : Tables) :
    Prop where
  keywords : before.crowdKeywords.Keeps crowdId after.crowdKeywords
  urls : before.crowdUrls.Keeps crowdId after.crowdUrls
  rules : before.crowdRules.Keeps crowdId after.crowdRules

section Purpose

variable (platform : Platform) (form : Form) (fails : Point → Bool)
  (ctStr : JavaString) (oldCrowdId : Nat) (tables : Tables)

/-- An edit that completes stores what the creation of a crowd with the form
stores, and an edit that fails keeps what was stored before. -/
structure Faithful : Prop where
  agrees :
    (∀ statement ∈ editStatements platform form ctStr oldCrowdId,
      fails statement.point = false) →
      ∀ start added addTime userId, Fresh start →
        addCrowdConfig platform form (fun _ => false) addTime userId start =
            some added →
          SameRows
            (editSaveCrowdConfig platform form fails ctStr oldCrowdId tables)
            oldCrowdId added start.nextCrowdId
  keeps :
    (∃ statement ∈ editStatements platform form ctStr oldCrowdId,
      fails statement.point = true) →
      Keeps tables oldCrowdId
        (editSaveCrowdConfig platform form fails ctStr oldCrowdId tables)

/-- The statements up to the deletion of the keywords. -/
def upToKeywords : List Point :=
  [.updateCrowd, .delCrowdKeywords]

/-- The statements up to the deletion of the urls. -/
def upToUrls : List Point :=
  upToKeywords ++
    ((List.range (keywordRows platform form).length).map .addCrowdKeywords ++
      [.delCrowdUrls])

/-- The statements up to the deletion of the rule. -/
def upToRule : List Point :=
  upToUrls platform form ++
    ((List.range (urlRows platform form (split ',')).length).map
        .addCrowdUrls ++
      [.delCrowdRule])

/-- The statements of an edit. -/
def points : List Point :=
  upToRule platform form ++ [.addCrowdRule]

/-- A text that both separators leave whole. -/
def Whole (string : JavaString) : Prop :=
  ',' ∉ string ∧ ¬ ['\r', '\n'] <:+: string

/-- An edit without failure has a text of urls that is blank or whole, and
before each deletion a failing edit has failed already or has no rows to
lose. -/
structure Harmless : Prop where
  separators :
    (∀ point ∈ points platform form, fails point = false) →
      isBlank platform form.urlFromOcean = true ∨ Whole form.urlFromOcean
  keywords :
    (∃ point ∈ points platform form, fails point = true) →
      tables.crowdKeywords.rows oldCrowdId = [] ∨
        ∃ point ∈ upToKeywords, fails point = true
  urls :
    (∃ point ∈ points platform form, fails point = true) →
      tables.crowdUrls.rows oldCrowdId = [] ∨
        ∃ point ∈ upToUrls platform form, fails point = true
  rules :
    (∃ point ∈ points platform form, fails point = true) →
      tables.crowdRules.rows oldCrowdId = [] ∨
        ∃ point ∈ upToRule platform form, fails point = true

end Purpose

/-! ## Splitting -/

theorem mem_dropTrailing {parts : List JavaString} {part : JavaString}
    (nonempty : part ≠ []) :
    part ∈ (parts.reverse.dropWhile (· = [])).reverse ↔ part ∈ parts := by
  rw [List.mem_reverse]
  constructor
  · intro member
    exact List.mem_reverse.mp
      ((List.dropWhile_suffix _).subset member)
  · intro member
    have whole : part ∈ parts.reverse := List.mem_reverse.mpr member
    rw [← @List.takeWhile_append_dropWhile _ (fun piece => piece = [])
      parts.reverse, List.mem_append] at whole
    rcases whole with dropped | kept
    · have empty := List.mem_takeWhile_imp dropped
      exact absurd (of_decide_eq_true empty) nonempty
    · exact kept

theorem not_mem_of_mem_split {separator : Char} {string part : JavaString}
    (member : part ∈ split separator string) : separator ∉ part := by
  by_cases present : separator ∈ string
  · rw [split, if_pos present] at member
    by_cases empty : part = []
    · simp [empty]
    · exact not_mem_of_mem_splitOn ((mem_dropTrailing empty).mp member)
  · rw [split, if_neg present, List.mem_singleton] at member
    rwa [member]

/-- The first piece is the front of the text. -/
theorem pieces_head (string : JavaString) :
    ∃ piece others, pieces string = piece :: others ∧ piece <+: string := by
  fun_induction pieces string with
  | case1 => exact ⟨[], [], rfl, List.nil_prefix⟩
  | case2 rest induction => exact ⟨[], pieces rest, rfl, List.nil_prefix⟩
  | case3 character rest other empty induction =>
      obtain ⟨piece, others, equal, -⟩ := induction
      rw [equal] at empty
      cases empty
  | case4 character rest other piece others equal induction =>
      obtain ⟨head, tail, again, front⟩ := induction
      rw [equal] at again
      cases again
      exact ⟨character :: piece, others, rfl,
        List.cons_prefix_cons.mpr ⟨rfl, front⟩⟩

/-- No piece goes over the end of a line. -/
theorem not_infix_of_mem_pieces {string part : JavaString}
    (member : part ∈ pieces string) : ¬ ['\r', '\n'] <:+: part := by
  fun_induction pieces string generalizing part with
  | case1 =>
      obtain rfl := List.mem_singleton.mp member
      simp
  | case2 rest induction =>
      rcases List.mem_cons.mp member with rfl | later
      · simp
      · exact induction later
  | case3 character rest other empty induction =>
      obtain rfl := List.mem_singleton.mp member
      intro inside
      have short := inside.length_le
      simp at short
  | case4 character rest other piece others equal induction =>
      rw [equal] at induction
      rcases List.mem_cons.mp member with rfl | later
      · intro inside
        rcases List.infix_cons_iff.mp inside with front | behind
        · obtain ⟨rfl, next⟩ := List.cons_prefix_cons.mp front
          obtain ⟨head, tail, again, begins⟩ := pieces_head rest
          rw [equal] at again
          cases again
          obtain ⟨behind, rfl⟩ := next.trans begins
          exact other behind rfl rfl
        · exact induction List.mem_cons_self behind
      · exact induction (List.mem_cons_of_mem _ later)

/-- A character that ends no line is in one of the pieces. -/
theorem mem_pieces_of_mem {string : JavaString} {character : Char}
    (member : character ∈ string) (noReturn : character ≠ '\r')
    (noFeed : character ≠ '\n') : ∃ part ∈ pieces string, character ∈ part := by
  fun_induction pieces string with
  | case1 => cases member
  | case2 rest induction =>
      simp only [List.mem_cons, noReturn, noFeed, false_or] at member
      obtain ⟨part, inside, found⟩ := induction member
      exact ⟨part, List.mem_cons_of_mem _ inside, found⟩
  | case3 first rest other empty induction =>
      obtain ⟨piece, others, equal, -⟩ := pieces_head rest
      rw [equal] at empty
      cases empty
  | case4 first rest other piece others equal induction =>
      rcases List.mem_cons.mp member with rfl | later
      · exact ⟨_, List.mem_cons_self, List.mem_cons_self⟩
      · obtain ⟨part, inside, found⟩ := induction later
        rw [equal] at inside
        rcases List.mem_cons.mp inside with rfl | behind
        · exact ⟨_, List.mem_cons_self, List.mem_cons_of_mem _ found⟩
        · exact ⟨part, List.mem_cons_of_mem _ behind, found⟩

theorem pieces_of_not_infix {string : JavaString}
    (whole : ¬ ['\r', '\n'] <:+: string) : pieces string = [string] := by
  fun_induction pieces string with
  | case1 => rfl
  | case2 rest induction =>
      exact absurd (List.prefix_append ['\r', '\n'] rest).isInfix whole
  | case3 character rest other empty induction =>
      obtain ⟨piece, others, equal, -⟩ := pieces_head rest
      rw [equal] at empty
      cases empty
  | case4 character rest other piece others equal induction =>
      have rest := induction fun inside =>
        whole (inside.trans (List.suffix_cons character _).isInfix)
      rw [equal] at rest
      cases rest
      rfl

theorem splitLines_of_not_infix {string : JavaString}
    (whole : ¬ ['\r', '\n'] <:+: string) : splitLines string = [string] := by
  rw [splitLines, pieces_of_not_infix whole]

theorem mem_splitLines {string part : JavaString} (nonempty : part ≠ []) :
    part ∈ splitLines string ↔ part ∈ pieces string := by
  unfold splitLines
  split
  · rename_i piece single
    rw [single]
  · exact mem_dropTrailing nonempty

/-! ## The urls of the ocean -/

section Ocean

variable {platform : Platform} {string : JavaString}

theorem mem_parts {split : JavaString → List JavaString}
    {part : JavaString} (given : isNotBlank platform string = true) :
    part ∈ parts platform split string ↔
      part ∈ split string ∧ isNotBlank platform part = true := by
  rw [parts, if_pos given, List.mem_filter]

theorem parts_of_whole (given : isNotBlank platform string = true)
    (whole : Whole string) :
    parts platform splitLines string = [string] ∧
      parts platform (split ',') string = [string] := by
  have comma : split ',' string = [string] := by
    rw [split, if_neg whole.1]
  rw [parts, parts, if_pos given, if_pos given,
    splitLines_of_not_infix whole.2, comma]
  simp [given]

theorem isNotBlank_of_mem {character : Char}
    (visible : platform.isWhitespace character = false)
    (member : character ∈ string) : isNotBlank platform string = true := by
  rw [isNotBlank, isBlank, Bool.not_eq_true', List.all_eq_false]
  exact ⟨character, member, by simp [visible]⟩

/-- The two separators find the same parts only in a whole text. -/
theorem whole_of_parts (visible : platform.isWhitespace ',' = false)
    (given : isNotBlank platform string = true)
    (same : ∀ part, part ∈ parts platform (split ',') string ↔
      part ∈ parts platform splitLines string) : Whole string := by
  have comma : ',' ∉ string := by
    intro member
    obtain ⟨part, inside, found⟩ :=
      mem_pieces_of_mem member (by decide) (by decide)
    have nonempty : part ≠ [] := List.ne_nil_of_mem found
    have line : part ∈ parts platform splitLines string :=
      (mem_parts given).mpr ⟨(mem_splitLines nonempty).mpr inside,
        isNotBlank_of_mem visible found⟩
    exact not_mem_of_mem_split
      ((mem_parts given).mp ((same part).mpr line)).1 found
  refine ⟨comma, fun infix_ => ?_⟩
  have nonempty : string ≠ [] := by
    rintro rfl
    cases given
  have one : string ∈ parts platform (split ',') string := by
    refine (mem_parts given).mpr ⟨?_, given⟩
    rw [split, if_neg comma]
    exact List.mem_singleton_self string
  have piece := ((mem_parts given).mp ((same string).mp one)).1
  exact not_infix_of_mem_pieces ((mem_splitLines nonempty).mp piece) infix_

theorem parts_of_isBlank {split : JavaString → List JavaString}
    (blank : isBlank platform string = true) :
    parts platform split string = [] := by
  rw [parts, if_neg]
  simp [isNotBlank, blank]

/-- The urls of both methods are the same exactly when the text of the urls
of the ocean is blank or whole. -/
theorem urlRows_perm_iff (visible : platform.isWhitespace ',' = false)
    (form : Form) :
    (urlRows platform form (split ',')).Perm
        (urlRows platform form splitLines) ↔
      isBlank platform form.urlFromOcean = true ∨
        Whole form.urlFromOcean := by
  rw [urlRows, urlRows, List.perm_append_right_iff]
  constructor
  · intro perm
    cases blank : isBlank platform form.urlFromOcean with
    | true => exact .inl rfl
    | false =>
        refine .inr (whole_of_parts visible (by simp [isNotBlank, blank])
          fun part => ?_)
        have row : ∀ {parts : List JavaString},
            (⟨part, text "O", text "A"⟩ : CrowdUrl) ∈
                parts.map (⟨·, text "O", text "A"⟩) ↔ part ∈ parts := by
          simp
        rw [← row, perm.mem_iff, row]
  · rintro (blank | whole)
    · rw [parts_of_isBlank blank, parts_of_isBlank blank]
    · cases blank : isBlank platform form.urlFromOcean with
      | true => rw [parts_of_isBlank blank, parts_of_isBlank blank]
      | false =>
          have given : isNotBlank platform form.urlFromOcean = true := by
            simp [isNotBlank, blank]
          obtain ⟨lines, commas⟩ := parts_of_whole given whole
          rw [lines, commas]

end Ocean

/-! ## Rows behind statements -/

section Rows

variable {ρ : Type*} {table start : Table ρ} {crowdId : Nat}

theorem rows_insert (table : Table ρ) (crowdId : Nat)
    (createTime : JavaString) (row : ρ) :
    (table.insert crowdId createTime row).rows crowdId =
      table.rows crowdId ++ [row] := by
  simp [Table.insert, Table.rows]

theorem rows_delete (table : Table ρ) (crowdId : Nat) :
    (table.delete crowdId).rows crowdId = [] := by
  simp [Table.delete, Table.rows]

theorem rows_inserts (createTime : JavaString) (rows : List ρ) :
    (rows.foldl (fun table row => table.insert crowdId createTime row)
        table).rows crowdId = table.rows crowdId ++ rows := by
  induction rows generalizing table with
  | nil => rw [List.foldl_nil, List.append_nil]
  | cons row rows induction =>
      rw [List.foldl_cons, induction, rows_insert, List.append_assoc]
      rfl

/-- The rows of a crowd have been deleted; those it has now are newer. -/
structure Cleared (start : Table ρ) (crowdId : Nat) (table : Table ρ) :
    Prop where
  next : start.next ≤ table.next
  newer : ∀ entry ∈ table.entries, entry.crowdId = crowdId →
    start.next ≤ entry.id

theorem cleared_delete (start : Table ρ) (crowdId : Nat) :
    Cleared start crowdId (start.delete crowdId) where
  next := le_rfl
  newer entry member same := by
    have other := (List.mem_filter.mp member).2
    exact absurd same (of_decide_eq_true other)

theorem Cleared.insert (cleared : Cleared start crowdId table)
    (createTime : JavaString) (row : ρ) :
    Cleared start crowdId (table.insert crowdId createTime row) where
  next := Nat.le_succ_of_le cleared.next
  newer entry member same := by
    rcases List.mem_append.mp member with old | new
    · exact cleared.newer entry old same
    · rw [List.mem_singleton.mp new]
      exact cleared.next

/-- Only a crowd without rows has kept all of them. -/
theorem Cleared.keeps_iff (cleared : Cleared start crowdId table) :
    start.Keeps crowdId table ↔ start.rows crowdId = [] := by
  rw [Table.rows, List.map_eq_nil_iff, List.filter_eq_nil_iff]
  constructor
  · intro keeps entry member same
    have equal := of_decide_eq_true same
    have newer := cleared.newer entry (keeps entry member equal) equal
    exact absurd (start.below entry member) (Nat.not_lt.mpr newer)
  · intro none entry member same
    exact absurd (decide_eq_true same) (none entry member)

/-- The rows of a table survive a sequence of statements exactly when there
are none or the sequence does not come past the deletion. -/
theorem keeps_iff (get : Tables → Table ρ) {fails : Point → Bool}
    {front back : List CrowdStatement} {deletion : CrowdStatement}
    {tables : Tables}
    (total : ∀ statement ∈ front ++ [deletion], ∀ before,
      (statement.effect before).isSome = true)
    (untouched : ∀ statement ∈ front, ∀ before after,
      statement.effect before = some after → get after = get before)
    (deletes : ∀ before after, deletion.effect before = some after →
      get after = (get before).delete crowdId)
    (inserts : ∀ statement ∈ back, ∀ before after,
      statement.effect before = some after → get after = get before ∨
        ∃ createTime row,
          get after = (get before).insert crowdId createTime row) :
    (get tables).Keeps crowdId
        (get (runCaught fails (front ++ deletion :: back) tables)) ↔
      (get tables).rows crowdId = [] ∨
        ∃ point ∈ (front ++ [deletion]).map Statement.point,
          fails point = true := by
  have before : ∀ statement ∈ front, ∀ before after,
      get before = get tables → statement.effect before = some after →
        get after = get tables :=
    fun statement member before after same done =>
      (untouched statement member before after done).trans same
  by_cases fault : ∃ statement ∈ front ++ [deletion],
      fails statement.point = true
  · have same : get (runCaught fails (front ++ deletion :: back) tables) =
        get tables :=
      @runCaught_stopped _ _ fails tables front back deletion
        (fun after => get after = get tables) total before rfl fault
    rw [same]
    obtain ⟨statement, member, failed⟩ := fault
    exact iff_of_true (fun entry inside _ => inside)
      (.inr ⟨_, List.mem_map_of_mem member, failed⟩)
  · have works : ∀ statement ∈ front ++ [deletion],
        fails statement.point = false := fun statement member =>
      Bool.eq_false_iff.mpr fun failed => fault ⟨statement, member, failed⟩
    have cleared : Cleared (get tables) crowdId
        (get (runCaught fails (front ++ deletion :: back) tables)) := by
      refine @runCaught_crossed _ _ fails tables front back deletion
        (fun after => get after = get tables)
        (fun after => Cleared (get tables) crowdId (get after)) total before
        ?_ ?_ rfl works
      · intro before after same done
        rw [deletes before after done, same]
        exact cleared_delete _ _
      · intro statement member before after cleared done
        rcases inserts statement member before after done with
          same | ⟨createTime, row, inserted⟩
        · rwa [same]
        · rw [inserted]
          exact cleared.insert createTime row
    rw [cleared.keeps_iff]
    refine (or_iff_left ?_).symm
    rintro ⟨point, member, failed⟩
    obtain ⟨statement, inside, rfl⟩ := List.mem_map.mp member
    exact fault ⟨statement, inside, failed⟩

end Rows

/-! ## The statements of an edit -/

section Statements

variable {crowdId : Nat} {ctStr : JavaString} {fails : Point → Bool}
  {statement : CrowdStatement} {before after tables last : Tables}

theorem dao_effect {point : Point} {effect : Tables → Tables}
    (done : (dao point effect).effect before = some after) :
    after = effect before :=
  (Option.some.inj done).symm

theorem addCrowdKeywords_effect {rows : List CrowdKeyword}
    (member : statement ∈ addCrowdKeywords crowdId ctStr rows)
    (done : statement.effect before = some after) :
    ∃ row, after =
      { before with
        crowdKeywords := before.crowdKeywords.insert crowdId ctStr row } := by
  obtain ⟨row, -, equal⟩ := adding_effect member done
  exact ⟨row, equal⟩

theorem addCrowdUrls_effect {rows : List CrowdUrl}
    (member : statement ∈ addCrowdUrls crowdId ctStr rows)
    (done : statement.effect before = some after) :
    ∃ row, after =
      { before with
        crowdUrls := before.crowdUrls.insert crowdId ctStr row } := by
  obtain ⟨row, -, equal⟩ := adding_effect member done
  exact ⟨row, equal⟩

theorem runAll_dao {point : Point} {effect : Tables → Tables}
    {rest : List CrowdStatement} :
    runAll fails (dao point effect :: rest) tables = some last ↔
      fails point = false ∧ runAll fails rest (effect tables) = some last := by
  rw [runAll_cons_eq_some_iff]
  constructor
  · rintro ⟨after, done, rest⟩
    obtain ⟨works, effect⟩ := run_eq_some_iff.mp done
    rw [dao_effect effect] at rest
    exact ⟨works, rest⟩
  · rintro ⟨works, rest⟩
    exact ⟨_, run_eq_some_iff.mpr ⟨works, rfl⟩, rest⟩

theorem runAll_addCrowdKeywords {rows : List CrowdKeyword}
    {rest : List CrowdStatement}
    (completed : runAll fails (addCrowdKeywords crowdId ctStr rows ++ rest)
      tables = some last) :
    runAll fails rest
      { tables with
        crowdKeywords := rows.foldl
          (fun table row => table.insert crowdId ctStr row)
          tables.crowdKeywords } = some last := by
  rw [← runAll_adding_append completed]
  congr 1
  let put : Table CrowdKeyword → Tables := fun table =>
    { tables with crowdKeywords := table }
  symm
  apply List.foldl_hom put
  intro table row
  rfl

theorem runAll_addCrowdUrls {rows : List CrowdUrl}
    {rest : List CrowdStatement}
    (completed : runAll fails (addCrowdUrls crowdId ctStr rows ++ rest)
      tables = some last) :
    runAll fails rest
      { tables with
        crowdUrls := rows.foldl
          (fun table row => table.insert crowdId ctStr row)
          tables.crowdUrls } = some last := by
  rw [← runAll_adding_append completed]
  congr 1
  let put : Table CrowdUrl → Tables := fun table =>
    { tables with crowdUrls := table }
  symm
  apply List.foldl_hom put
  intro table row
  rfl

end Statements

section Edit

variable (platform : Platform) (form : Form) (fails : Point → Bool)
  (ctStr : JavaString) (oldCrowdId : Nat) (tables : Tables)

theorem editStatements_total :
    ∀ statement ∈ editStatements platform form ctStr oldCrowdId, ∀ before,
      (statement.effect before).isSome = true := by
  intro statement member before
  simp only [editStatements, List.mem_cons, List.mem_append,
    List.not_mem_nil, or_false] at member
  rcases member with rfl | rfl | keyword | rfl | url | rfl | rfl
  · rfl
  · rfl
  · exact adding_total statement keyword before
  · rfl
  · exact adding_total statement url before
  · rfl
  · rfl

theorem points_editStatements :
    (editStatements platform form ctStr oldCrowdId).map Statement.point =
      points platform form := by
  simp only [editStatements, addCrowdKeywords, addCrowdUrls, points,
    upToRule, upToUrls, upToKeywords, List.map_cons, List.map_append,
    map_point_adding, List.length_map, List.map_nil, List.append_assoc,
    List.cons_append, List.nil_append]
  rfl

/-- What an edit stores that completes. -/
theorem rows_editSaveCrowdConfig
    (works : ∀ statement ∈ editStatements platform form ctStr oldCrowdId,
      fails statement.point = false) :
    let after := editSaveCrowdConfig platform form fails ctStr oldCrowdId
      tables
    after.crowdKeywords.rows oldCrowdId = keywordRows platform form ∧
      after.crowdUrls.rows oldCrowdId = urlRows platform form (split ',') ∧
        after.crowdRules.rows oldCrowdId = [crowdRule platform form] := by
  obtain ⟨last, completed⟩ := Option.isSome_iff_exists.mp
    ((@runAll_isSome_iff _ _ fails _ tables
      (editStatements_total platform form ctStr oldCrowdId)).mpr works)
  have result : editSaveCrowdConfig platform form fails ctStr oldCrowdId
      tables = last := runCaught_of_runAll completed
  rw [result]
  have updated := (runAll_dao.mp completed).2
  have cleared := (runAll_dao.mp updated).2
  have keywords := runAll_addCrowdKeywords cleared
  have emptied := (runAll_dao.mp keywords).2
  have urls := runAll_addCrowdUrls emptied
  have deleted := (runAll_dao.mp urls).2
  obtain rfl := Option.some.inj (runAll_dao.mp deleted).2
  dsimp only
  rw [rows_inserts, rows_delete, rows_inserts, rows_delete, rows_insert,
    rows_delete]
  exact ⟨rfl, rfl, rfl⟩

/-- What is stored for a new crowd. -/
theorem rows_addCrowdConfig {userId : JavaString} {start added : Tables}
    (fresh : Fresh start)
    (done : addCrowdConfig platform form fails ctStr userId start =
      some added) :
    added.crowdKeywords.rows start.nextCrowdId = keywordRows platform form ∧
      added.crowdUrls.rows start.nextCrowdId =
          urlRows platform form splitLines ∧
        added.crowdRules.rows start.nextCrowdId =
          [crowdRule platform form] := by
  have created := (runAll_dao.mp done).2
  have keywords := runAll_addCrowdKeywords created
  have urls := runAll_addCrowdUrls keywords
  obtain rfl := Option.some.inj (runAll_dao.mp urls).2
  dsimp only
  rw [rows_inserts, rows_inserts, rows_insert, fresh.keywords, fresh.urls,
    fresh.rules]
  exact ⟨rfl, rfl, rfl⟩

end Edit

section Survival

variable (platform : Platform) (form : Form) (fails : Point → Bool)
  (ctStr : JavaString) (oldCrowdId : Nat) (tables : Tables)

theorem keeps_keywords_iff :
    tables.crowdKeywords.Keeps oldCrowdId
        (editSaveCrowdConfig platform form fails ctStr oldCrowdId
          tables).crowdKeywords ↔
      tables.crowdKeywords.rows oldCrowdId = [] ∨
        ∃ point ∈ upToKeywords, fails point = true := by
  apply @keeps_iff _ oldCrowdId Tables.crowdKeywords fails
    [updateCrowd form oldCrowdId] _ (delCrowdKeywords oldCrowdId) tables
  · simp [updateCrowd, delCrowdKeywords, dao]
  · intro statement member before after done
    obtain rfl := List.mem_singleton.mp member
    rw [dao_effect done]
  · intro before after done
    rw [dao_effect done]
  · intro statement member before after done
    simp only [List.mem_cons, List.mem_append, List.not_mem_nil,
      or_false] at member
    rcases member with keyword | rfl | url | rfl | rfl
    · obtain ⟨row, rfl⟩ := addCrowdKeywords_effect keyword done
      exact .inr ⟨ctStr, row, rfl⟩
    · exact .inl (by rw [dao_effect done])
    · obtain ⟨row, rfl⟩ := addCrowdUrls_effect url done
      exact .inl rfl
    · exact .inl (by rw [dao_effect done])
    · exact .inl (by rw [dao_effect done])

theorem keeps_urls_iff :
    tables.crowdUrls.Keeps oldCrowdId
        (editSaveCrowdConfig platform form fails ctStr oldCrowdId
          tables).crowdUrls ↔
      tables.crowdUrls.rows oldCrowdId = [] ∨
        ∃ point ∈ upToUrls platform form, fails point = true := by
  have points : (updateCrowd form oldCrowdId ::
      delCrowdKeywords oldCrowdId ::
        addCrowdKeywords oldCrowdId ctStr (keywordRows platform form) ++
          [delCrowdUrls oldCrowdId]).map Statement.point =
      upToUrls platform form := by
    simp only [addCrowdKeywords, upToUrls, upToKeywords, List.map_cons,
      List.map_append, map_point_adding, List.length_map, List.map_nil,
      List.cons_append, List.nil_append]
    rfl
  rw [← points]
  apply @keeps_iff _ oldCrowdId Tables.crowdUrls fails
    (updateCrowd form oldCrowdId :: delCrowdKeywords oldCrowdId ::
      addCrowdKeywords oldCrowdId ctStr (keywordRows platform form)) _
    (delCrowdUrls oldCrowdId) tables
  · intro statement member
    apply editStatements_total platform form ctStr oldCrowdId statement
    simp only [editStatements, List.mem_cons, List.mem_append,
      List.not_mem_nil, or_false] at member ⊢
    tauto
  · intro statement member before after done
    simp only [List.mem_cons] at member
    rcases member with rfl | rfl | keyword
    · rw [dao_effect done]
    · rw [dao_effect done]
    · obtain ⟨row, rfl⟩ := addCrowdKeywords_effect keyword done
      rfl
  · intro before after done
    rw [dao_effect done]
  · intro statement member before after done
    simp only [List.mem_cons, List.mem_append, List.not_mem_nil,
      or_false] at member
    rcases member with url | rfl | rfl
    · obtain ⟨row, rfl⟩ := addCrowdUrls_effect url done
      exact .inr ⟨ctStr, row, rfl⟩
    · exact .inl (by rw [dao_effect done])
    · exact .inl (by rw [dao_effect done])

theorem keeps_rules_iff :
    tables.crowdRules.Keeps oldCrowdId
        (editSaveCrowdConfig platform form fails ctStr oldCrowdId
          tables).crowdRules ↔
      tables.crowdRules.rows oldCrowdId = [] ∨
        ∃ point ∈ upToRule platform form, fails point = true := by
  have points : (updateCrowd form oldCrowdId ::
      delCrowdKeywords oldCrowdId ::
        (addCrowdKeywords oldCrowdId ctStr (keywordRows platform form) ++
          delCrowdUrls oldCrowdId ::
            addCrowdUrls oldCrowdId ctStr
              (urlRows platform form (split ','))) ++
          [delCrowdRule oldCrowdId]).map Statement.point =
      upToRule platform form := by
    simp only [addCrowdKeywords, addCrowdUrls, upToRule, upToUrls,
      upToKeywords, List.map_cons, List.map_append, map_point_adding,
      List.length_map, List.map_nil, List.cons_append, List.nil_append,
      List.append_assoc]
    rfl
  have whole : editStatements platform form ctStr oldCrowdId =
      updateCrowd form oldCrowdId :: delCrowdKeywords oldCrowdId ::
        (addCrowdKeywords oldCrowdId ctStr (keywordRows platform form) ++
          delCrowdUrls oldCrowdId ::
            addCrowdUrls oldCrowdId ctStr
              (urlRows platform form (split ','))) ++
        delCrowdRule oldCrowdId ::
          [addCrowdRule oldCrowdId ctStr (crowdRule platform form)] := by
    simp only [editStatements, List.cons_append, List.append_assoc]
  rw [← points, editSaveCrowdConfig, whole]
  apply keeps_iff Tables.crowdRules
  · intro statement member
    apply editStatements_total platform form ctStr oldCrowdId statement
    simp only [editStatements, List.mem_cons, List.mem_append,
      List.not_mem_nil, or_false] at member ⊢
    tauto
  · intro statement member before after done
    simp only [List.mem_cons, List.mem_append] at member
    rcases member with rfl | rfl | keyword | rfl | url
    · rw [dao_effect done]
    · rw [dao_effect done]
    · obtain ⟨row, rfl⟩ := addCrowdKeywords_effect keyword done
      rfl
    · rw [dao_effect done]
    · obtain ⟨row, rfl⟩ := addCrowdUrls_effect url done
      rfl
  · intro before after done
    rw [dao_effect done]
  · intro statement member before after done
    obtain rfl := List.mem_singleton.mp member
    exact .inr ⟨ctStr, crowdRule platform form, by rw [dao_effect done]⟩

end Survival

/-- A database without crowds. -/
def emptyTables : Tables where
  crowds := []
  nextCrowdId := 1
  crowdKeywords := ⟨[], 1, List.forall_mem_nil _⟩
  crowdUrls := ⟨[], 1, List.forall_mem_nil _⟩
  crowdRules := ⟨[], 1, List.forall_mem_nil _⟩

theorem addCrowdConfig_completes (platform : Platform) (form : Form)
    (ctStr userId : JavaString) (tables : Tables) :
    ∃ added, addCrowdConfig platform form (fun _ => false) ctStr userId
      tables = some added := by
  apply Option.isSome_iff_exists.mp
  apply (runAll_isSome_iff _).mpr fun _ _ => rfl
  intro statement member before
  simp only [addStatements, List.mem_cons, List.mem_append,
    List.not_mem_nil, or_false] at member
  rcases member with rfl | keyword | url | rfl
  · rfl
  · exact adding_total statement keyword before
  · exact adding_total statement url before
  · rfl

section Main

variable {platform : Platform} {form : Form} {fails : Point → Bool}
  {ctStr : JavaString} {oldCrowdId : Nat} {tables : Tables}

theorem works_iff :
    (∀ statement ∈ editStatements platform form ctStr oldCrowdId,
        fails statement.point = false) ↔
      ∀ point ∈ points platform form, fails point = false := by
  rw [← points_editStatements platform form ctStr oldCrowdId]
  simp

theorem fault_iff :
    (∃ statement ∈ editStatements platform form ctStr oldCrowdId,
        fails statement.point = true) ↔
      ∃ point ∈ points platform form, fails point = true := by
  rw [← points_editStatements platform form ctStr oldCrowdId]
  simp

theorem harmless_of_faithful (visible : platform.isWhitespace ',' = false)
    (faithful : Faithful platform form fails ctStr oldCrowdId tables) :
    Harmless platform form fails oldCrowdId tables := by
  have keeps := faithful.keeps
  rw [fault_iff] at keeps
  refine ⟨fun works => ?_, fun fault => ?_, fun fault => ?_,
    fun fault => ?_⟩
  · have completed := (@works_iff _ _ _ ctStr oldCrowdId).mpr works
    obtain ⟨added, done⟩ :=
      addCrowdConfig_completes platform form [] [] emptyTables
    have fresh : Fresh emptyTables := ⟨rfl, rfl, rfl⟩
    have same := (faithful.agrees completed emptyTables added [] [] fresh
      done).urls
    rw [(rows_editSaveCrowdConfig platform form fails ctStr oldCrowdId
        tables completed).2.1,
      (rows_addCrowdConfig platform form _ _ fresh done).2.1] at same
    exact (urlRows_perm_iff visible form).mp same
  · exact (keeps_keywords_iff _ _ _ _ _ _).mp (keeps fault).keywords
  · exact (keeps_urls_iff _ _ _ _ _ _).mp (keeps fault).urls
  · exact (keeps_rules_iff _ _ _ _ _ _).mp (keeps fault).rules

theorem faithful_of_harmless (visible : platform.isWhitespace ',' = false)
    (harmless : Harmless platform form fails oldCrowdId tables) :
    Faithful platform form fails ctStr oldCrowdId tables where
  agrees := by
    intro completed start added addTime userId fresh done
    obtain ⟨newKeywords, newUrls, newRules⟩ := rows_editSaveCrowdConfig
      platform form fails ctStr oldCrowdId tables completed
    obtain ⟨addedKeywords, addedUrls, addedRules⟩ :=
      rows_addCrowdConfig platform form _ _ fresh done
    constructor
    · rw [newKeywords, addedKeywords]
    · rw [newUrls, addedUrls]
      exact (urlRows_perm_iff visible form).mpr
        (harmless.separators (works_iff.mp completed))
    · rw [newRules, addedRules]
  keeps := by
    intro fault
    have failed := fault_iff.mp fault
    exact ⟨(keeps_keywords_iff _ _ _ _ _ _).mpr (harmless.keywords failed),
      (keeps_urls_iff _ _ _ _ _ _).mpr (harmless.urls failed),
      (keeps_rules_iff _ _ _ _ _ _).mpr (harmless.rules failed)⟩

end Main

/-- An edit is faithful exactly when its urls are the same for both separators
or it fails, and it fails only where it has nothing to lose. -/
theorem editSaveCrowdConfig_faithful_iff {platform : Platform}
    (visible : platform.isWhitespace ',' = false) (form : Form)
    (fails : Point → Bool) (ctStr : JavaString) (oldCrowdId : Nat)
    (tables : Tables) :
    Faithful platform form fails ctStr oldCrowdId tables ↔
      Harmless platform form fails oldCrowdId tables :=
  ⟨harmless_of_faithful visible, faithful_of_harmless visible⟩

/-! ## A form -/

/-- A form with two keywords, these urls of the ocean and a url of the
customer. -/
def sampleForm (urlFromOcean : String) : Form where
  crowdName := some (text "runners")
  crowdDesc := none
  searchKwFromOcean := text "shoes,socks"
  searchKwFormCust := []
  urlFromOcean := text urlFromOcean
  urlFromCust := text "c.com"
  searchKwNum := some (text "1")
  searchKwTimeNum := some (text "7")
  searchKwTimeType := some (text "D")
  urlNum := some (text "1")
  urlTimeType := some (text "D")
  urlTimeNum := some (text "7")
  searchKwSwitch := text "on"
  urlSwitch := text "on"

/-- The crowd 1 with one keyword. -/
def oneCrowd : Tables where
  crowds :=
    [⟨1, some (text "walkers"), none, text "A", text "2015-06-01", text "9"⟩]
  nextCrowdId := 2
  crowdKeywords :=
    ⟨[⟨1, 1, text "2015-06-01", ⟨text "boots", text "C", text "A"⟩⟩], 2,
      List.forall_mem_singleton.mpr Nat.one_lt_two⟩
  crowdUrls := ⟨[], 1, List.forall_mem_nil _⟩
  crowdRules := ⟨[], 1, List.forall_mem_nil _⟩

/-- One url of the ocean is stored by both methods. -/
theorem oneUrl_faithful :
    Faithful asciiPlatform (sampleForm "a.com") (fun _ => false)
      (text "2015-06-02") 1 oneCrowd := by
  have visible : asciiPlatform.isWhitespace ',' = false := by decide +kernel
  have works : ¬ ∃ point ∈ points asciiPlatform (sampleForm "a.com"),
      false = true := fun ⟨_, _, wrong⟩ => Bool.false_ne_true wrong
  apply (editSaveCrowdConfig_faithful_iff visible _ _ _ _ _).mpr
  refine ⟨fun _ => .inr ⟨?_, ?_⟩, fun fault => absurd fault works,
    fun fault => absurd fault works, fun fault => absurd fault works⟩
  · decide +kernel
  · decide +kernel

/-- Two urls of the ocean are stored as one when a crowd is created, and the
keyword of a crowd is lost when the insertion of the rule fails. -/
theorem twoUrls_and_failure_not_faithful :
    ¬ Faithful asciiPlatform (sampleForm "a.com,b.com") (fun _ => false)
        (text "2015-06-02") 1 oneCrowd ∧
      ¬ Faithful asciiPlatform (sampleForm "a.com")
        (fun point => point = .addCrowdRule) (text "2015-06-02") 1
        oneCrowd := by
  have visible : asciiPlatform.isWhitespace ',' = false := by decide +kernel
  constructor
  · intro faithful
    rcases (harmless_of_faithful visible faithful).separators
      (fun _ _ => rfl) with blank | whole
    · exact absurd blank (by decide +kernel)
    · exact absurd whole.1 (by decide +kernel)
  · intro faithful
    have last : Point.addCrowdRule ∈
        points asciiPlatform (sampleForm "a.com") :=
      List.mem_append_right _ List.mem_cons_self
    rcases (harmless_of_faithful visible faithful).keywords
      ⟨.addCrowdRule, last, by decide⟩ with none | early
    · exact absurd none (by decide +kernel)
    · exact absurd early (by decide +kernel)

end WindowSystem.Admanager.CrowdService
