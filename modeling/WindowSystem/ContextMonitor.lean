import WindowSystem.InstantQueryContent
import WindowSystem.Library.LabelledRun

/-!
# The monitor of the lists

The server checks from time to time whether the directories with its lists
have changed.  `monitor_loop_check` of `context_monitor.c` hands every entry
of the configuration to the modules that `business_init` of `control.c` has
registered, until one of them answers true.  Eight of these modules keep a
remembered flag, a snapshot of a directory and a live table.
-/

namespace WindowSystem.ContextMonitor

open WindowSystem.CRuntime
open WindowSystem.InstantQueryContent
open WindowSystem.Library.LabelledRun
open WindowSystem.ListFiles
open WindowSystem.SearchWords
open WindowSystem.ToolHashMap

/-! ## Directories -/

/-- A file of a directory; one that cannot be opened has no content. -/
structure File where
  szFileName : Bytes
  content : Option Bytes
deriving DecidableEq

/-- The listing of a directory; one that is missing is empty. -/
abbrev Directory := List File

/-- The directories of the file system by their paths. -/
abbrev Directories := Bytes → Directory

/-- `struct CDirProcess`; `nFileNum` is the length of the table, `0` while
`cfTable` is `NULL`. -/
structure CDirProcess where
  szPath : Bytes
  cfTable : Option Directory
deriving DecidableEq

namespace CDirProcess

variable (dirProcess : CDirProcess)

/-- The files of the table. -/
def files : Directory :=
  dirProcess.cfTable.getD []

/-- `set_path`: the path has an array of 128 bytes. -/
def setPath (path : Bytes) : Option CDirProcess :=
  (store 128 path).map fun szPath => { dirProcess with szPath := szPath }

/-- `dir_init`.  It keeps `nFileNum`, so that a table that is filled for the
second time starts with `NULL` pointers. -/
def dirInit (directories : Directories) : Option CDirProcess :=
  if dirProcess.files = [] then
    some
      { dirProcess with
        cfTable := some (directories dirProcess.szPath) }
  else none

/-- `dir_reload`. -/
def dirReload (directories : Directories) : CDirProcess :=
  { dirProcess with
    cfTable :=
      dirProcess.cfTable.map fun _ => directories dirProcess.szPath }

/-- `dir_compare`, taken as exact: the directory is not as it was. -/
def dirCompare (directories : Directories) : Bool :=
  match dirProcess.cfTable with
  | none => false
  | some dirTable => directories dirProcess.szPath ≠ dirTable

end CDirProcess

/-! ## The modules -/

/-- What is particular to a module: its name in the configuration, the length
of its table, and how it reads a file. -/
structure ListRule where
  name : Bytes
  length : UInt32
  readFile : HashMap AdFire → Option Bytes → Option (HashMap AdFire)

/-- `struct black_host` and its siblings, with the global table that belongs
to the module. -/
structure ListState where
  flag : Int
  dirUtil : CDirProcess
  table : Option (HashMap AdFire)

/-- The loop that reads the files of a directory into a new table. -/
def loadTable (rule : ListRule) (files : Directory) :
    Option (HashMap AdFire) :=
  files.foldlM (fun table file => rule.readFile table file.content)
    (hashMapNew rule.length)

/-- `load_black_host` and its siblings: what they answer, and the module
behind them. -/
def loadList (rule : ListRule) (name : Bytes) (flag : Int) (path : Bytes)
    (directories : Directories) (state : ListState) :
    Option (Bool × ListState) :=
  if name ≠ rule.name then some (false, state)
  else
    (state.dirUtil.setPath path).bind fun dirUtil =>
    (dirUtil.dirInit directories).bind fun dirUtil =>
    (loadTable rule dirUtil.files).map fun table =>
      (true, { flag := flag, dirUtil := dirUtil, table := some table })

/-- The part behind the conditions; `hash_map_destory` of the old table does
not admit `NULL`. -/
def swapTable (rule : ListRule) (flag : Int) (directories : Directories)
    (state : ListState) : Option (Bool × ListState) :=
  let dirUtil := state.dirUtil.dirReload directories
  (loadTable rule dirUtil.files).bind fun table =>
    state.table.map fun _ =>
      (true, { flag := flag, dirUtil := dirUtil, table := some table })

/-- `reload_black_host` and its siblings. -/
def reloadList (rule : ListRule) (name : Bytes) (flag isAuto : Int)
    (directories : Directories) (state : ListState) :
    Option (Bool × ListState) :=
  if name ≠ rule.name then some (false, state)
  else if isAuto ≠ 0 ∧ flag = state.flag then some (false, state)
  else if state.dirUtil.dirCompare directories = false then
    some (false, state)
  else swapTable rule flag directories state

/-- A reader that always succeeds. -/
def always (readFile : HashMap AdFire → Option Bytes → HashMap AdFire)
    (table : HashMap AdFire) (content : Option Bytes) :
    Option (HashMap AdFire) :=
  some (readFile table content)

/-- The modules with a directory. -/
inductive ListModule where
  | blackHost
  | popTarget
  | popTarget1
  | surplusUrl
  | radiusBlack
  | whiteHost
  | blackUri
  | queryContent
deriving DecidableEq

def blackHost : ListRule :=
  ⟨ascii "black_host_list", 10000, always hashMapReadFile⟩

def popTarget : ListRule :=
  ⟨ascii "pop_target", 40960, always hashMapReadFile⟩

def popTarget1 : ListRule :=
  ⟨ascii "pop_target1", 40960, always hashMapReadFile⟩

def surplusUrl : ListRule :=
  ⟨ascii "surplus_url", 40960, always hashMapReadFile⟩

def radiusBlack : ListRule :=
  ⟨ascii "ad_black_list", 2097152, always hashMapReadFile⟩

def whiteHost : ListRule :=
  ⟨ascii "white_host_list", 100000, always hashMapHostWhiteReadFile⟩

def blackUri : ListRule :=
  ⟨ascii "uri_black_list", 10000, always hashMapReadFile⟩

def queryContent (loader : Loader) : ListRule :=
  ⟨ascii "query_content", 40960, rulePopLoadQueryContent loader⟩

/-- What is particular to each module. -/
def ruleOf (loader : Loader) : ListModule → ListRule
  | .blackHost => blackHost
  | .popTarget => popTarget
  | .popTarget1 => popTarget1
  | .surplusUrl => surplusUrl
  | .radiusBlack => radiusBlack
  | .whiteHost => whiteHost
  | .blackUri => blackUri
  | .queryContent => queryContent loader

/-- `reload_black_uri`, which is declared with three arguments and called with
a fourth one. -/
def reloadBlackUri (name : Bytes) (flag : Int) (directories : Directories)
    (state : ListState) : Option (Bool × ListState) :=
  if name ≠ blackUri.name ∨ flag = state.flag then some (false, state)
  else swapTable blackUri flag directories state

/-- The member `load_business` of a module. -/
def loadBusiness (loader : Loader) (business : ListModule) :
    Bytes → Int → Bytes → Directories → ListState →
      Option (Bool × ListState) :=
  loadList (ruleOf loader business)

/-- The member `reload_business` of a module. -/
def reloadBusiness (loader : Loader) :
    ListModule → Bytes → Int → Int → Directories → ListState →
      Option (Bool × ListState)
  | .blackHost => reloadList blackHost
  | .popTarget => reloadList popTarget
  | .popTarget1 => reloadList popTarget1
  | .surplusUrl => reloadList surplusUrl
  | .radiusBlack => reloadList radiusBlack
  | .whiteHost => reloadList whiteHost
  | .blackUri => fun name flag _ => reloadBlackUri name flag
  | .queryContent => reloadList (queryContent loader)

/-! ## The control -/

/-- An entry of `table`. -/
inductive Business where
  | list (business : ListModule)
  | dcConf
deriving DecidableEq

/-- `table` after `business_init`. -/
def businessTable : List Business :=
  [.list .blackHost, .list .popTarget, .list .popTarget1,
    .list .surplusUrl, .list .radiusBlack, .list .whiteHost, .dcConf,
    .list .blackUri, .list .queryContent]

/-- The file system, the modules with a directory, and the flag of
`struct dc_conf`. -/
structure Monitor where
  directories : Directories
  lists : ListModule → ListState
  dcFlag : Int

/-- The module `business` in another state. -/
def Monitor.setList (mon : Monitor) (business : ListModule)
    (state : ListState) : Monitor :=
  { mon with lists := Function.update mon.lists business state }

/-- The loop of `load` and of `update`: the modules are asked one after the
other until one of them answers true.  `dc_conf` answers with its new flag. -/
def dispatch (ask : ListModule → ListState → Option (Bool × ListState))
    (askDcConf : Int → Option Int) :
    List Business → Monitor → Option Monitor
  | [], mon => some mon
  | .dcConf :: table, mon =>
      match askDcConf mon.dcFlag with
      | none => dispatch ask askDcConf table mon
      | some flag => some { mon with dcFlag := flag }
  | .list business :: table, mon =>
      (ask business (mon.lists business)).bind fun (answer, state) =>
        if answer then some (mon.setList business state)
        else dispatch ask askDcConf table (mon.setList business state)

/-- `load_dc_conf`. -/
def loadDcConf (name : Bytes) (flag _dcFlag : Int) : Option Int :=
  if name ≠ ascii "dc_conf" then none else some flag

/-- `reload_dc_conf`. -/
def reloadDcConf (name : Bytes) (flag dcFlag : Int) : Option Int :=
  if name ≠ ascii "dc_conf" ∨ flag = dcFlag then none else some flag

/-- `load`. -/
def load (loader : Loader) (name : Bytes) (flag : Int) (path : Bytes)
    (mon : Monitor) : Option Monitor :=
  dispatch
    (fun business =>
      loadBusiness loader business name flag path mon.directories)
    (loadDcConf name flag) businessTable mon

/-- `update`. -/
def update (loader : Loader) (name : Bytes) (flag isAuto : Int)
    (mon : Monitor) : Option Monitor :=
  dispatch
    (fun business =>
      reloadBusiness loader business name flag isAuto mon.directories)
    (reloadDcConf name flag) businessTable mon

/-- An entry of the configuration: its value and the values of its first two
children. -/
structure Entry where
  name : Bytes
  value : Bytes
  path : Bytes
  isAuto : Bytes

/-- The loop body of `monitor_init`. -/
def initEntry (loader : Loader) (mon : Monitor) (child : Entry) :
    Option Monitor :=
  let flag := atoi child.value
  if flag ≤ 0 then some mon
  else load loader child.name flag child.path mon

/-- The loop body of `monitor_loop_check`. -/
def checkEntry (loader : Loader) (mon : Monitor) (child : Entry) :
    Option Monitor :=
  let flag := atoi child.value
  if flag ≤ 0 then some mon
  else update loader child.name flag (atoi child.isAuto) mon

/-- The modules after `business_init`. -/
def newMonitor (directories : Directories) : Monitor where
  directories := directories
  lists _ := ⟨0, ⟨[], none⟩, none⟩
  dcFlag := 0

/-- `monitor_init`. -/
def monitorInit (loader : Loader) (config : List Entry)
    (directories : Directories) : Option Monitor :=
  config.foldlM (initEntry loader) (newMonitor directories)

/-- `monitor_loop_check`; the configuration is read again by every pass. -/
def monitorLoopCheck (loader : Loader) (config : List Entry)
    (mon : Monitor) : Option Monitor :=
  config.foldlM (checkEntry loader) mon

/-! ## Runs -/

/-- A directory changes, or a pass comes to an entry of its configuration. -/
inductive Event where
  | change (path : Bytes) (directory : Directory)
  | check (child : Entry)

/-- The monitor after an event. -/
def next (loader : Loader) (mon : Monitor) : Event → Option Monitor
  | .change path directory =>
      some
        { mon with
          directories := Function.update mon.directories path directory }
  | .check child => checkEntry loader mon child

/-- One event. -/
def Step (loader : Loader) (before : Monitor) (event : Event)
    (after : Monitor) : Prop :=
  next loader before event = some after

/-! ## What a pass has to do -/

/-- The module's live table after a pass over an entry is the one that the
claimed rule asks for, and no other module's table has changed. -/
structure Uniform (loader : Loader) (before : Monitor) (child : Entry)
    (after : Monitor) : Prop where
  reloaded : ∀ business, (ruleOf loader business).name = child.name →
    0 < atoi child.value →
    ∀ dirTable ∈ (before.lists business).dirUtil.cfTable,
      before.directories (before.lists business).dirUtil.szPath ≠ dirTable →
        (after.lists business).table =
          if atoi child.isAuto = 0 ∨
              atoi child.value ≠ (before.lists business).flag then
            loadTable (ruleOf loader business)
              (before.directories (before.lists business).dirUtil.szPath)
          else (before.lists business).table
  others : ∀ business, (ruleOf loader business).name ≠ child.name →
    (after.lists business).table = (before.lists business).table

/-- The rule for every event; a change of a directory reaches no table. -/
def UniformStep (loader : Loader) (before : Monitor) (after : Monitor) :
    Event → Prop
  | .change _ _ =>
      ∀ business,
        (after.lists business).table = (before.lists business).table
  | .check child => Uniform loader before child after

/-- A pass over `uri_black_list` with the remembered flag and the automatic
mode, whose directory has changed to files with another table. -/
structure MissesChange (before : Monitor) (child : Entry) : Prop where
  name : child.name = blackUri.name
  positive : 0 < atoi child.value
  automatic : atoi child.isAuto = 0
  remembered : atoi child.value = (before.lists .blackUri).flag
  changed : ∃ dirTable ∈ (before.lists .blackUri).dirUtil.cfTable,
    before.directories (before.lists .blackUri).dirUtil.szPath ≠ dirTable
  differs :
    loadTable blackUri
        (before.directories (before.lists .blackUri).dirUtil.szPath) ≠
      (before.lists .blackUri).table

/-- The event is no such pass. -/
def Noticed (before : Monitor) : Event → Prop
  | .change _ _ => True
  | .check child => ¬ MissesChange before child

/-- The live table is the one of the files that the module has listed. -/
def ListState.Loaded (rule : ListRule) (state : ListState) : Prop :=
  state.table = state.dirUtil.cfTable.bind (loadTable rule)

/-- Every live table is the one of the files that its module has listed. -/
def Loaded (loader : Loader) (mon : Monitor) : Prop :=
  ∀ business, (mon.lists business).Loaded (ruleOf loader business)

/-! ## The dispatch -/

theorem name_injective {loader : Loader} {business other : ListModule}
    (same : (ruleOf loader business).name = (ruleOf loader other).name) :
    business = other := by
  revert same
  cases business <;> cases other <;>
    simp only [ruleOf, queryContent] <;> decide +kernel

theorem name_ne_dcConf (loader : Loader) (business : ListModule) :
    (ruleOf loader business).name ≠ ascii "dc_conf" := by
  cases business <;> simp only [ruleOf, queryContent] <;> decide +kernel

/-- Only the module with the name is changed, by its own answer. -/
theorem dispatch_cases {loader : Loader} {name : Bytes}
    {ask : ListModule → ListState → Option (Bool × ListState)}
    {askDcConf : Int → Option Int}
    (others : ∀ business, (ruleOf loader business).name ≠ name →
      ∀ state, ask business state = some (false, state))
    (dcConf : ∀ dcFlag flag, askDcConf dcFlag = some flag →
      name = ascii "dc_conf")
    {table : List Business} (nodup : table.Nodup) {mon after : Monitor}
    (dispatched : dispatch ask askDcConf table mon = some after) :
    after.directories = mon.directories ∧
      ∀ business,
        if (ruleOf loader business).name = name ∧
            Business.list business ∈ table then
          ∃ answer, ask business (mon.lists business) =
            some (answer, after.lists business)
        else after.lists business = mon.lists business := by
  induction table generalizing mon with
  | nil =>
      rw [dispatch, Option.some.injEq] at dispatched
      rw [← dispatched]
      exact ⟨rfl, fun business => by simp⟩
  | cons first table induction =>
      obtain ⟨fresh, distinct⟩ := List.nodup_cons.mp nodup
      cases first with
      | dcConf =>
          rw [dispatch] at dispatched
          cases asked : askDcConf mon.dcFlag with
          | none =>
              rw [asked] at dispatched
              obtain ⟨files, lists⟩ := induction distinct dispatched
              refine ⟨files, fun business => ?_⟩
              simpa using lists business
          | some flag =>
              rw [asked] at dispatched
              rw [← Option.some.inj dispatched]
              refine ⟨rfl, fun business => ?_⟩
              rw [if_neg]
              rintro ⟨same, _⟩
              exact name_ne_dcConf loader business
                (same.trans (dcConf _ _ asked))
      | list first =>
          rw [dispatch] at dispatched
          obtain ⟨⟨answer, state⟩, asked, rest⟩ :=
            Option.bind_eq_some_iff.mp dispatched
          have elsewhere : ∀ business, business ≠ first →
              (mon.setList first state).lists business =
                mon.lists business := fun business other =>
            Function.update_of_ne other _ _
          have here : (mon.setList first state).lists first = state :=
            Function.update_self _ _ _
          cases answer with
          | true =>
              simp only [if_true, Option.some.injEq] at rest
              have named : (ruleOf loader first).name = name := by
                by_contra other
                rw [others first other] at asked
                cases asked
              rw [← rest]
              refine ⟨rfl, fun business => ?_⟩
              by_cases same : business = first
              · rw [same, here, if_pos ⟨named, List.mem_cons_self⟩]
                exact ⟨true, asked⟩
              · rw [elsewhere business same, if_neg]
                rintro ⟨other, _⟩
                exact same (name_injective (other.trans named.symm))
          | false =>
              simp only [Bool.false_eq_true, if_false] at rest
              obtain ⟨files, lists⟩ := induction distinct rest
              refine ⟨files, fun business => ?_⟩
              have later := lists business
              by_cases same : business = first
              · rw [same, here, if_neg fun both => fresh both.2] at later
                rw [same, later]
                by_cases named : (ruleOf loader first).name = name
                · rw [if_pos ⟨named, List.mem_cons_self⟩]
                  exact ⟨false, asked⟩
                · rw [if_neg fun both => named both.1]
                  rw [others first named] at asked
                  cases asked
                  rfl
              · have other : Business.list business ≠ .list first :=
                  fun equal => same (Business.list.inj equal)
                simpa [elsewhere business same, other] using later

theorem loadBusiness_other {loader : Loader} {business : ListModule}
    {name : Bytes} (other : (ruleOf loader business).name ≠ name)
    (flag : Int) (path : Bytes) (directories : Directories)
    (state : ListState) :
    loadBusiness loader business name flag path directories state =
      some (false, state) := by
  rw [loadBusiness, loadList, if_pos fun equal => other equal.symm]

/-- All modules but one take the first of the two conditions. -/
theorem reloadBusiness_eq (loader : Loader) {business : ListModule}
    (list : business ≠ .blackUri) (name : Bytes) (flag isAuto : Int) :
    reloadBusiness loader business name flag isAuto =
      reloadList (ruleOf loader business) name flag isAuto := by
  cases business with
  | blackUri => exact absurd rfl list
  | _ => rfl

theorem reloadBusiness_other {loader : Loader} {business : ListModule}
    {name : Bytes} (other : (ruleOf loader business).name ≠ name)
    (flag isAuto : Int) (directories : Directories) (state : ListState) :
    reloadBusiness loader business name flag isAuto directories state =
      some (false, state) := by
  have different : name ≠ (ruleOf loader business).name :=
    fun equal => other equal.symm
  by_cases uri : business = .blackUri
  · subst uri
    exact if_pos (.inl different)
  · rw [reloadBusiness_eq loader uri, reloadList, if_pos different]

theorem businessTable_nodup : businessTable.Nodup := by
  decide

theorem mem_businessTable (business : ListModule) :
    Business.list business ∈ businessTable := by
  cases business <;> decide

/-- What a pass over an entry does to the modules. -/
theorem checkEntry_cases {loader : Loader} {mon after : Monitor}
    {child : Entry} (checked : checkEntry loader mon child = some after) :
    after.directories = mon.directories ∧
      ∀ business,
        if (ruleOf loader business).name = child.name ∧
            0 < atoi child.value then
          ∃ answer,
            reloadBusiness loader business child.name (atoi child.value)
                (atoi child.isAuto) mon.directories (mon.lists business) =
              some (answer, after.lists business)
        else after.lists business = mon.lists business := by
  rw [checkEntry] at checked
  split at checked
  · rename_i negative
    rw [← Option.some.inj checked]
    refine ⟨rfl, fun business => ?_⟩
    rw [if_neg]
    rintro ⟨_, positive⟩
    exact absurd positive (Int.not_lt.mpr negative)
  · rename_i positive
    rw [update] at checked
    obtain ⟨files, lists⟩ :=
      @dispatch_cases loader child.name _ _
        (fun business other state => reloadBusiness_other other _ _ _ state)
        (fun dcFlag flag answered => by
          rw [reloadDcConf] at answered
          split at answered
          · cases answered
          · rename_i fresh
            exact not_not.mp fun other => fresh (.inl other))
        _ businessTable_nodup _ _ checked
    refine ⟨files, fun business => ?_⟩
    have changed := lists business
    simp only [mem_businessTable, and_true] at changed
    simpa only [Int.not_le.mp positive, and_true] using changed

/-- What an entry of the first configuration does to the modules. -/
theorem initEntry_cases {loader : Loader} {mon after : Monitor}
    {child : Entry} (loaded : initEntry loader mon child = some after) :
    ∀ business,
      after.lists business = mon.lists business ∨
        ∃ answer,
          loadBusiness loader business child.name (atoi child.value)
              child.path mon.directories (mon.lists business) =
            some (answer, after.lists business) := by
  intro business
  rw [initEntry] at loaded
  split at loaded
  · rw [← Option.some.inj loaded]
    exact .inl rfl
  · rw [load] at loaded
    obtain ⟨_, lists⟩ :=
      @dispatch_cases loader child.name _ _
        (fun business other state => loadBusiness_other other _ _ _ state)
        (fun dcFlag flag answered => by
          rw [loadDcConf] at answered
          split at answered
          · cases answered
          · rename_i named
            exact not_not.mp named)
        _ businessTable_nodup _ _ loaded
    have changed := lists business
    split at changed
    · exact .inr changed
    · exact .inl changed

/-! ## One module -/

/-- A table that is swapped in is the one of the current files. -/
theorem swapTable_table {rule : ListRule} {flag : Int}
    {directories : Directories} {state after : ListState} {answer : Bool}
    (swapped : swapTable rule flag directories state = some (answer, after))
    {dirTable : Directory} (listed : dirTable ∈ state.dirUtil.cfTable) :
    after.table =
      loadTable rule (directories state.dirUtil.szPath) := by
  obtain ⟨table, built, answered⟩ := Option.bind_eq_some_iff.mp swapped
  obtain ⟨old, _, equal⟩ := Option.map_eq_some_iff.mp answered
  rw [Option.mem_def] at listed
  simp only [CDirProcess.dirReload, CDirProcess.files, listed,
    Option.map_some, Option.getD_some] at built
  rw [built, ← (Prod.mk.inj equal).2]

/-- The rule that the modules with two conditions follow. -/
theorem reloadList_table {rule : ListRule} {flag isAuto : Int}
    {directories : Directories} {state after : ListState} {answer : Bool}
    (reloaded : reloadList rule rule.name flag isAuto directories state =
      some (answer, after))
    {dirTable : Directory} (listed : dirTable ∈ state.dirUtil.cfTable)
    (changed : directories state.dirUtil.szPath ≠ dirTable) :
    after.table =
      if isAuto = 0 ∨ flag ≠ state.flag then
        loadTable rule (directories state.dirUtil.szPath)
      else state.table := by
  rw [reloadList, if_neg (not_not_intro rfl)] at reloaded
  have noticed : state.dirUtil.dirCompare directories = true := by
    rw [Option.mem_def] at listed
    simp [CDirProcess.dirCompare, listed, changed]
  by_cases idle : isAuto ≠ 0 ∧ flag = state.flag
  · rw [if_pos idle, Option.some.injEq, Prod.mk.injEq] at reloaded
    rw [if_neg (by simpa [not_or] using idle), reloaded.2]
  · rw [if_neg idle, if_neg (by simp [noticed])] at reloaded
    rw [if_pos (by simpa [or_iff_not_imp_left] using idle)]
    exact swapTable_table reloaded listed

/-- The rule that `uri_black_list` follows. -/
theorem reloadBlackUri_table {flag : Int} {directories : Directories}
    {state after : ListState} {answer : Bool}
    (reloaded : reloadBlackUri blackUri.name flag directories state =
      some (answer, after))
    {dirTable : Directory} (listed : dirTable ∈ state.dirUtil.cfTable) :
    after.table =
      if flag ≠ state.flag then
        loadTable blackUri (directories state.dirUtil.szPath)
      else state.table := by
  rw [reloadBlackUri] at reloaded
  by_cases remembered : flag = state.flag
  · rw [if_pos (.inr remembered), Option.some.injEq,
      Prod.mk.injEq] at reloaded
    rw [if_neg (not_not_intro remembered), reloaded.2]
  · rw [if_neg (by simp [remembered])] at reloaded
    rw [if_pos remembered]
    exact swapTable_table reloaded listed

/-- A pass follows the rule unless it misses a change. -/
theorem uniform_iff {loader : Loader} {mon after : Monitor} {child : Entry}
    (checked : checkEntry loader mon child = some after) :
    Uniform loader mon child after ↔ ¬ MissesChange mon child := by
  obtain ⟨_, lists⟩ := checkEntry_cases checked
  constructor
  · rintro uniform ⟨named, positive, automatic, remembered, changed, differs⟩
    obtain ⟨dirTable, listed, changed⟩ := changed
    have wanted := uniform.reloaded .blackUri named.symm positive dirTable
      listed changed
    have answered := lists .blackUri
    rw [if_pos ⟨named.symm, positive⟩, named] at answered
    obtain ⟨answer, reloaded⟩ := answered
    have kept := reloadBlackUri_table reloaded listed
    rw [if_neg (not_not_intro remembered)] at kept
    rw [if_pos (.inl automatic), kept] at wanted
    exact differs wanted.symm
  · intro noticed
    refine ⟨fun business named positive dirTable listed changed => ?_,
      fun business other => ?_⟩
    · have answered := lists business
      rw [if_pos ⟨named, positive⟩, ← named] at answered
      obtain ⟨answer, reloaded⟩ := answered
      by_cases uri : business = .blackUri
      · subst uri
        rw [reloadBlackUri_table reloaded listed]
        by_cases remembered :
            atoi child.value = (mon.lists .blackUri).flag
        · rw [if_neg (not_not_intro remembered)]
          split
          · rename_i automatic
            have automatic := automatic.resolve_right
              (not_not_intro remembered)
            by_contra differs
            exact noticed ⟨named.symm, positive, automatic, remembered,
              ⟨dirTable, listed, changed⟩, fun equal => differs equal.symm⟩
          · rfl
        · rw [if_pos remembered, if_pos (.inr remembered)]
          rfl
      · rw [reloadBusiness_eq loader uri] at reloaded
        exact reloadList_table reloaded listed changed
    · have kept := lists business
      rw [if_neg fun both => other both.1] at kept
      rw [kept]

/-! ## Runs of the monitor -/

theorem ListState.Loaded.load {rule : ListRule} {name path : Bytes}
    {flag : Int} {directories : Directories} {state after : ListState}
    {answer : Bool} (loaded : state.Loaded rule)
    (answered : loadList rule name flag path directories state =
      some (answer, after)) : after.Loaded rule := by
  rw [loadList] at answered
  split at answered
  · cases answered
    exact loaded
  · obtain ⟨dirUtil, _, answered⟩ := Option.bind_eq_some_iff.mp answered
    obtain ⟨listed, filled, answered⟩ := Option.bind_eq_some_iff.mp answered
    obtain ⟨table, built, equal⟩ := Option.map_eq_some_iff.mp answered
    rw [CDirProcess.dirInit] at filled
    split at filled
    · rw [← Option.some.inj filled] at built
      rw [← (Prod.mk.inj equal).2, ListState.Loaded, ← built,
        ← Option.some.inj filled]
      rfl
    · cases filled

theorem ListState.Loaded.swap {rule : ListRule} {flag : Int}
    {directories : Directories} {state after : ListState} {answer : Bool}
    (loaded : state.Loaded rule)
    (swapped : swapTable rule flag directories state =
      some (answer, after)) : after.Loaded rule := by
  obtain ⟨table, built, answered⟩ := Option.bind_eq_some_iff.mp swapped
  obtain ⟨old, live, equal⟩ := Option.map_eq_some_iff.mp answered
  rw [ListState.Loaded, live] at loaded
  rw [← (Prod.mk.inj equal).2, ListState.Loaded, ← built]
  cases listed : state.dirUtil.cfTable with
  | none =>
      rw [listed] at loaded
      cases loaded
  | some dirTable =>
      simp [CDirProcess.dirReload, CDirProcess.files, listed]

theorem ListState.Loaded.reload {loader : Loader} {business : ListModule}
    {name : Bytes} {flag isAuto : Int} {directories : Directories}
    {state after : ListState} {answer : Bool}
    (loaded : state.Loaded (ruleOf loader business))
    (answered : reloadBusiness loader business name flag isAuto directories
      state = some (answer, after)) :
    after.Loaded (ruleOf loader business) := by
  by_cases uri : business = .blackUri
  · subst uri
    simp only [reloadBusiness, reloadBlackUri] at answered
    split at answered
    · cases answered
      exact loaded
    · exact loaded.swap answered
  · rw [reloadBusiness_eq loader uri, reloadList] at answered
    split at answered
    · cases answered
      exact loaded
    · split at answered
      · cases answered
        exact loaded
      · split at answered
        · cases answered
          exact loaded
        · exact loaded.swap answered

theorem Loaded.step {loader : Loader} {before after : Monitor}
    {event : Event} (loaded : Loaded loader before)
    (taken : Step loader before event after) : Loaded loader after := by
  cases event with
  | change path directory =>
      cases taken
      exact loaded
  | check child =>
      intro business
      have answered := (checkEntry_cases taken).2 business
      split at answered
      · obtain ⟨answer, reloaded⟩ := answered
        exact (loaded business).reload reloaded
      · rw [answered]
        exact loaded business

theorem loaded_monitorInit {loader : Loader} {config : List Entry}
    {directories : Directories} {start : Monitor}
    (started : monitorInit loader config directories = some start) :
    Loaded loader start := by
  have grows : ∀ {mon : Monitor}, Loaded loader mon →
      config.foldlM (initEntry loader) mon = some start →
        Loaded loader start := by
    clear started
    induction config with
    | nil =>
        rintro mon loaded ⟨⟩
        exact loaded
    | cons child config induction =>
        intro mon loaded folded
        obtain ⟨middle, first, rest⟩ := Option.bind_eq_some_iff.mp folded
        refine induction (fun business => ?_) rest
        rcases initEntry_cases first business with kept | ⟨answer, answered⟩
        · rw [kept]
          exact loaded business
        · exact (loaded business).load answered
  exact @grows (newMonitor directories) (fun business => rfl) started

/-- A pass of the loop is a run over the entries of its configuration. -/
theorem monitorLoopCheck_run {loader : Loader} {config : List Entry}
    {mon last : Monitor}
    (passed : monitorLoopCheck loader config mon = some last) :
    Run (Step loader) mon (config.map .check) last := by
  refine @run_of_foldlM _ _ (next loader) _ _ _ ?_
  rw [List.foldlM_map]
  exact passed

/-- An event follows the rule unless it is a pass that misses a change. -/
theorem uniformStep_iff {loader : Loader} {before after : Monitor}
    {event : Event} (taken : Step loader before event after) :
    UniformStep loader before after event ↔ Noticed before event := by
  cases event with
  | change path directory =>
      cases taken
      exact iff_of_true (fun business => rfl) trivial
  | check child => exact uniform_iff taken

/--
When the reload of the lists is uniform.

A run of directory changes and passes follows the rule at each step exactly
when it never comes to `uri_black_list` in the automatic mode with the flag
that this module remembers while the changed directory has another table.
In every run the live tables are those of the listed files.
-/
theorem reload_uniform_iff (loader : Loader) (config : List Entry)
    (directories : Directories) {start last : Monitor} {events : List Event}
    (started : monitorInit loader config directories = some start)
    (run : Run (Step loader) start events last) :
    (Run (fun before event after =>
          UniformStep loader before after event ∧
            Step loader before event after) start events last ↔
        Run (fun before event after =>
          Noticed before event ∧ Step loader before event after)
          start events last) ∧
      Loaded loader last := by
  refine ⟨⟨fun uniform => ?_, fun noticed => ?_⟩,
    run.invariant (fun loaded taken => loaded.step taken)
      (loaded_monitorInit started)⟩
  · exact uniform.mono fun both =>
      ⟨(uniformStep_iff both.2).mp both.1, both.2⟩
  · exact noticed.mono fun both =>
      ⟨(uniformStep_iff both.2).mpr both.1, both.2⟩

/-- The entry of the refused sites, in the automatic mode. -/
def hostEntry : Entry :=
  ⟨ascii "black_host_list", ascii "1", ascii "/host/", ascii "0"⟩

/-- The entry of the refused addresses, in the automatic mode. -/
def uriEntry : Entry :=
  ⟨ascii "uri_black_list", ascii "1", ascii "/uri/", ascii "0"⟩

/-- A new file with one line. -/
def newFile : File :=
  ⟨ascii "list", some (ascii "example.com/x\n")⟩

/-- The new file appears in a directory, and a pass over its entry follows. -/
def appears (child : Entry) : List Event :=
  [.change child.path [newFile], .check child]

theorem reload_uniform_hostEntry :
    ∃ start last,
      monitorInit wholeTexts [hostEntry] (fun _ => []) = some start ∧
        Run (Step wholeTexts) start (appears hostEntry) last ∧
        (Run (fun before event after =>
              UniformStep wholeTexts before after event ∧
                Step wholeTexts before event after)
            start (appears hostEntry) last ↔
          Run (fun before event after =>
              Noticed before event ∧ Step wholeTexts before event after)
            start (appears hostEntry) last) ∧
        Loaded wholeTexts last := by
  have reached :
      ((monitorInit wholeTexts [hostEntry] (fun _ => [])).bind fun start =>
        (appears hostEntry).foldlM (next wholeTexts) start).isSome := by
    decide +kernel
  obtain ⟨last, reached⟩ := Option.isSome_iff_exists.mp reached
  obtain ⟨start, started, reached⟩ := Option.bind_eq_some_iff.mp reached
  have run := run_of_foldlM reached
  exact ⟨start, last, started, run,
    reload_uniform_iff wholeTexts [hostEntry] (fun _ => []) started run⟩

/-- The new file in the directory of the addresses is not noticed, although
the entry asks for the automatic mode. -/
theorem uriEntry_missed :
    ∃ start last,
      monitorInit wholeTexts [uriEntry] (fun _ => []) = some start ∧
        Run (Step wholeTexts) start (appears uriEntry) last ∧
        ¬ Run (fun before event after =>
              UniformStep wholeTexts before after event ∧
                Step wholeTexts before event after)
            start (appears uriEntry) last := by
  have reached :
      ((monitorInit wholeTexts [uriEntry] (fun _ => [])).bind fun start =>
        (next wholeTexts start (.change (ascii "/uri/") [newFile])).bind
          fun before =>
            (next wholeTexts before (.check uriEntry)).map fun last =>
              ((before.lists .blackUri).dirUtil,
                before.directories (ascii "/uri/"),
                (last.lists .blackUri).table.map HashMap.size)) =
        some (⟨ascii "/uri/", some []⟩, [newFile], some 0) := by
    decide +kernel
  have wanted :
      (loadTable blackUri [newFile]).map HashMap.size = some 1 := by
    decide +kernel
  simp only [Option.bind_eq_some_iff, Option.map_eq_some_iff,
    Prod.mk.injEq] at reached
  obtain ⟨start, started, before, changed, last, checked, dirUtil, listing,
    size⟩ := reached
  have front : Run (Step wholeTexts) start
      [.change uriEntry.path [newFile]] before := .single changed
  refine ⟨start, last, started, front.append (.single checked), ?_⟩
  refine Run.not_restrict ?_ front fun uniform => ?_
  · intro before event one other taken another
    exact Option.some.inj (taken.symm.trans another)
  · have table := uniform.reloaded .blackUri rfl (by decide) []
      (by rw [dirUtil]; rfl)
      (by rw [dirUtil, listing]; exact List.cons_ne_nil _ _)
    rw [if_pos (.inl (by decide)), dirUtil, listing] at table
    rw [table] at size
    obtain ⟨loaded, built, empty⟩ := size
    rw [ruleOf] at built
    rw [built, Option.map_some, empty] at wanted
    exact absurd wanted (by decide)

end WindowSystem.ContextMonitor
