import WindowSystem.Library.InsertStatement
import WindowSystem.Sspserver.JavaRuntime

/-!
# `BeanOperator`: statements for beans

`getSqlByObject` goes through the declared fields of a bean and writes the
columns into one buffer and the values into another one.  Numbers are written
as they are, everything else is pasted between two quotes.  Reflection is
modelled by its results: for each field its name, its annotations and what its
getter returns.
-/

namespace WindowSystem.HidataFramework.BeanOperator

open WindowSystem.Library.InsertStatement
open WindowSystem.Library.SeparatedText
open WindowSystem.Sspserver.JavaRuntime

/-! ## Beans -/

/-- A name of a table or of a column. -/
structure Name where
  text : JavaString
  isName : IsName text

/-- The calendar fields of a date. -/
structure DateTime where
  year : Nat
  month : Nat
  day : Nat
  hour : Nat
  minute : Nat
  second : Nat
deriving DecidableEq

/-- The value of a field by the declared type of the field: one of `intTypes`,
one of `dateTypes`, `String`, or another type with its `toString`. -/
inductive Value where
  | number (value : Int)
  | date (value : DateTime)
  | string (value : JavaString)
  | object (value : JavaString)
deriving DecidableEq

/-- The annotation `@Column`. -/
inductive Column where
  | absent
  | empty
  | named (name : Name)

/-- A declared field: the value of `@DBExclude`, `@Column`, and what the
getter returns.  There is no value where it returns `null` or throws. -/
structure Field where
  name : Name
  exclude : Option Bool
  column : Column
  value : Option Value

/-- A bean: the value of `@Table` and the fields of its class. -/
structure Bean where
  table : Option Name
  fields : List Field

/-! ## The statement -/

/-- Digits with zeros in front. -/
def pad (width value : Nat) : JavaString :=
  List.replicate (width - (Nat.toDigits 10 value).length) '0' ++
    Nat.toDigits 10 value

/-- `DateUtil.formatTime`: the pattern `yyyy-MM-dd HH:mm:ss`. -/
def formatTime (date : DateTime) : JavaString :=
  pad 4 date.year ++ text "-" ++ pad 2 date.month ++ text "-" ++
    pad 2 date.day ++ text " " ++ pad 2 date.hour ++ text ":" ++
    pad 2 date.minute ++ text ":" ++ pad 2 date.second

/-- The three branches for a value. -/
def valueText : Value → JavaString
  | .number value => decimalText value
  | .date value => text "'" ++ formatTime value ++ text "'"
  | .string value => text "'" ++ value ++ text "'"
  | .object value => text "'" ++ value ++ text "'"

/-- The two buffers and the counter of the columns. -/
structure Buffers where
  cols : JavaString
  values : JavaString
  index : Nat
deriving DecidableEq

/-- A column and its value are appended, with commas from the second one
on. -/
def Buffers.append (buffers : Buffers) (fieldName : JavaString)
    (value : Value) : Buffers :=
  if buffers.index = 1 then
    { cols := buffers.cols ++ fieldName
      values := buffers.values ++ valueText value
      index := buffers.index + 1 }
  else
    { cols := buffers.cols ++ text "," ++ fieldName
      values := buffers.values ++ text "," ++ valueText value
      index := buffers.index + 1 }

/-- The column of a field, unless its annotation has an empty name. -/
def Field.columnName (field : Field) : Option JavaString :=
  match field.column with
  | .absent => some field.name.text
  | .empty => none
  | .named name => some name.text

/-- What a field that is neither excluded nor empty assigns. -/
def Field.assignment (field : Field) : Option (JavaString × Value) :=
  if field.exclude = some true then none
  else
    field.columnName.bind fun fieldName =>
      (field.value.filter (· ≠ .string [])).map fun value =>
        (fieldName, value)

/-- The literal that stands for a value. -/
def Value.literal : Value → Literal
  | .number value => .number value
  | .date value => .text (formatTime value)
  | .string value => .text value
  | .object value => .text value

/-- All assignments of a bean. -/
def Bean.assignments (bean : Bean) : List (JavaString × Value) :=
  bean.fields.filterMap Field.assignment

/-- The insertion that a bean means. -/
def Bean.intended (bean : Bean) (table : Name) : Insertion where
  table := table.text
  columns := bean.assignments.map Prod.fst
  values := bean.assignments.map fun assigned => assigned.2.literal

/-- The buffers after some assignments. -/
def written (assigned : List (JavaString × Value)) : Buffers where
  cols := joined ',' (assigned.map Prod.fst)
  values := joined ',' (assigned.map fun one => valueText one.2)
  index := assigned.length + 1

end WindowSystem.HidataFramework.BeanOperator
