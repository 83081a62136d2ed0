import Mathlib.Data.List.Nodup
import Mathlib.Data.List.Pairwise
import Mathlib.Logic.Function.Basic
import WindowSystem.Sspserver.JavaRuntime

/-!
# `BeanOperator.map2Object`: from a row to a bean

For every column of a row the fields of the class are searched for one with
this column.  The search replaces the name of the column by the name of the
field; where it finds none, the name of the column stays and is taken as the
name of a property.  A bean is modelled by what was set: for each property the
column and the converted value that it was last set from.
-/

namespace WindowSystem.HidataFramework.Map2Object

open WindowSystem.Sspserver.JavaRuntime

/-! ## Rows and classes -/

/-- A column of a row with the text of its value, `none` for `null`. -/
structure Column where
  name : JavaString
  value : Option JavaString
deriving DecidableEq

/-- The columns of a map of JDBC in the order of its iteration.  No two of
them have the same name up to case, so that `get` with the name in lower case
finds the value of the column itself. -/
structure Row (platform : Platform) where
  columns : List Column
  distinct : columns.Pairwise fun column other => ∀ name,
    equalsIgnoreCase platform (platform.lowerCase column.name) name = true →
      equalsIgnoreCase platform (platform.lowerCase other.name) name = false

/-- A declared field: the values of `@DBExclude` and of `@Column`, and the
type of its property, if there is one that can be set. -/
structure Field (τ : Type*) where
  name : JavaString
  exclude : Option Bool
  column : Option JavaString
  type : Option τ

/-- `isExclude` -/
def Field.isExclude {τ : Type*} (field : Field τ) : Bool :=
  field.exclude == some true

/-- The class of a bean: its declared fields and the properties that are not
named after one of them, such as those of a superclass. -/
structure BeanClass (τ : Type*) where
  fields : List (Field τ)
  inherited : JavaString → Option τ
  names : (fields.map Field.name).Nodup

/-- What a property was set from. -/
structure Assigned (γ : Type*) where
  column : JavaString
  value : γ
deriving DecidableEq

section Program

variable {τ γ : Type*} (platform : Platform)
  (convert : τ → JavaString → Option γ) (clz : BeanClass τ)

/-- `name.equalsIgnoreCase(colName.value())`, or of the name of the field. -/
def Field.named (field : Field τ) (name : JavaString) : Bool :=
  equalsIgnoreCase platform name (field.column.getD field.name)

/-- The loop over the fields. -/
def fieldOf (name : JavaString) : Option (Field τ) :=
  clz.fields.find? fun field =>
    !field.isExclude && field.named platform name

/-- The name behind the loop. -/
def renamed (name : JavaString) : JavaString :=
  match fieldOf platform clz name with
  | some field => field.name
  | none => name

end Program

/-! ## What a bean should hold -/

section Purpose

variable {τ γ : Type*} (platform : Platform)
  (convert : τ → JavaString → Option γ)

/-- The value that a field can get from a column. -/
def Field.load (field : Field τ) (column : Column) : Option γ :=
  column.value.bind fun value => field.type.bind fun type =>
    convert type value

/-- The column of a field. -/
def Field.own (columns : List Column) (field : Field τ) : Option Column :=
  columns.find? fun column =>
    field.named platform (platform.lowerCase column.name)

/-- A field that is not excluded is set from its column. -/
def Field.expected (columns : List Column) (field : Field τ) :
    Option (Assigned γ) :=
  if field.isExclude then none
  else
    (field.own platform columns).bind fun column =>
      (field.load convert column).map fun value => ⟨column.name, value⟩

/-- The names of the columns and of the fields do not get in each other's
way. -/
structure Clean (clz : BeanClass τ) (row : Row platform) : Prop where
  /-- A column belongs to the first of its fields. -/
  first : ∀ column ∈ row.columns, ∀ field ∈ clz.fields,
    field.isExclude = false →
      field.named platform (platform.lowerCase column.name) = true →
        (field.load convert column).isSome = true →
          (fieldOf platform clz (platform.lowerCase column.name)).map
            Field.name = some field.name
  /-- A column without a field has the name of no field, unless the field is
  set from its own column later on. -/
  stray : ∀ front column back, row.columns = front ++ column :: back →
    fieldOf platform clz (platform.lowerCase column.name) = none →
      ∀ field ∈ clz.fields,
        field.name = platform.lowerCase column.name →
          (field.load convert column).isSome = true →
            field.isExclude = false ∧
              ∃ own ∈ back,
                field.named platform (platform.lowerCase own.name) = true ∧
                  (field.load convert own).isSome = true

end Purpose

/-! ## The last column that sets a field -/

section LastColumn

variable {τ γ : Type*} (platform : Platform)
  (convert : τ → JavaString → Option γ) (clz : BeanClass τ)

/-- What one column does to a declared field. -/
def Field.effect (field : Field τ) (column : Column) :
    Option (Assigned γ) :=
  if renamed platform clz (platform.lowerCase column.name) = field.name then
    (field.load convert column).map fun value => ⟨column.name, value⟩
  else none

variable {clz}

theorem eq_of_name_eq {field other : Field τ} (declared : field ∈ clz.fields)
    (found : other ∈ clz.fields) (same : other.name = field.name) :
    other = field :=
  List.inj_on_of_nodup_map clz.names found declared same

theorem effect_eq_some {field : Field τ} {column : Column}
    {assigned : Assigned γ} :
    field.effect platform convert clz column = some assigned ↔
      renamed platform clz (platform.lowerCase column.name) = field.name ∧
        ∃ value, field.load convert column = some value ∧
          assigned = ⟨column.name, value⟩ := by
  unfold Field.effect
  by_cases same :
    renamed platform clz (platform.lowerCase column.name) = field.name
  · rw [if_pos same, Option.map_eq_some_iff]
    exact ⟨fun ⟨value, loaded, made⟩ => ⟨same, value, loaded, made.symm⟩,
      fun ⟨_, value, loaded, made⟩ => ⟨value, loaded, made.symm⟩⟩
  · rw [if_neg same]
    exact ⟨nofun, fun ⟨equal, _⟩ => absurd equal same⟩

/-- A name becomes the name of a field for one of two reasons: the field was
found for it, or no field was and it is this name already. -/
theorem renamed_eq_name {field : Field τ} (declared : field ∈ clz.fields)
    {name : JavaString} (same : renamed platform clz name = field.name) :
    (field.isExclude = false ∧ field.named platform name = true) ∨
      (fieldOf platform clz name = none ∧ field.name = name) := by
  unfold renamed at same
  cases found : fieldOf platform clz name with
  | none =>
      rw [found] at same
      exact .inr ⟨rfl, same.symm⟩
  | some other =>
      rw [found] at same
      have member := List.mem_of_find?_eq_some found
      have chosen := @List.find?_some _ _ other clz.fields found
      rw [eq_of_name_eq declared member same] at chosen
      exact .inl (by simpa using chosen)

end LastColumn

/-! ## Names that do not get in each other's way -/

section Names

variable {τ γ : Type*} {platform : Platform}
  {convert : τ → JavaString → Option γ} {clz : BeanClass τ}
  {row : Row platform} {field : Field τ}

/-- A column that sets a field of a clean class is its own, or its own comes
behind. -/
theorem Clean.touched (clean : Clean platform convert clz row)
    (declared : field ∈ clz.fields) {front back : List Column}
    {column : Column} (place : row.columns = front ++ column :: back)
    {assigned : Assigned γ}
    (set : field.effect platform convert clz column = some assigned) :
    field.isExclude = false ∧ ∃ own ∈ column :: back,
      field.named platform (platform.lowerCase own.name) = true ∧
        (field.load convert own).isSome = true := by
  obtain ⟨same, value, loaded, -⟩ := (effect_eq_some _ _).mp set
  have loads : (field.load convert column).isSome = true := by
    rw [loaded]
    rfl
  rcases renamed_eq_name platform declared same with
    ⟨kept, named⟩ | ⟨missed, equal⟩
  · exact ⟨kept, column, List.mem_cons_self, named, loads⟩
  · obtain ⟨kept, own, behind, named, found⟩ :=
      clean.stray front column back place missed field declared equal loads
    exact ⟨kept, own, List.mem_cons_of_mem _ behind, named, found⟩

/-- Behind the own column of a field no column sets it. -/
theorem Clean.untouched (clean : Clean platform convert clz row)
    (declared : field ∈ clz.fields) {front back : List Column}
    {own : Column} (place : row.columns = front ++ own :: back)
    (named : field.named platform (platform.lowerCase own.name) = true) :
    ∀ other ∈ back, field.effect platform convert clz other = none := by
  intro other behind
  by_contra set
  obtain ⟨assigned, set⟩ := Option.ne_none_iff_exists'.mp set
  obtain ⟨between, after, rfl⟩ := List.append_of_mem behind
  have split : row.columns =
      (front ++ own :: between) ++ other :: after := by
    simp [place]
  obtain ⟨-, second, later, called, -⟩ :=
    clean.touched declared split set
  have distinct := row.distinct
  rw [place, List.pairwise_append] at distinct
  have separate := (List.pairwise_cons.mp distinct.2.1).1 second
    (List.mem_append_right between later)
  exact Bool.eq_false_iff.mp (separate _ named) called

end Names

end WindowSystem.HidataFramework.Map2Object
