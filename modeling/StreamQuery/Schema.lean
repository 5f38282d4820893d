import StreamQuery.Text.Characters

/-! # Names, columns and schemas -/

set_option autoImplicit false

namespace StreamQuery

/-! ## Names

Sources and columns are identified without regard to case: a name that is written in a query is
folded to upper case.
-/

/-- The name of a stream or table, or the alias of one within a query. -/
@[ext] structure SourceName where
  text : String
deriving DecidableEq

namespace SourceName

def ofString (s : String) : SourceName :=
  ⟨Text.upper s⟩

@[simp] theorem text_ofString (s : String) : (ofString s).text = Text.upper s := rfl

end SourceName

@[ext] structure ColumnName where
  text : String
deriving DecidableEq

namespace ColumnName

def ofString (s : String) : ColumnName :=
  ⟨Text.upper s⟩

@[simp] theorem text_ofString (s : String) : (ofString s).text = Text.upper s := rfl

def rowtime : ColumnName := ⟨"ROWTIME"⟩

def windowStart : ColumnName := ⟨"WINDOWSTART"⟩

def windowEnd : ColumnName := ⟨"WINDOWEND"⟩

/-- Whether the platform itself supplies columns of this name. -/
def isSystem (name : ColumnName) : Bool :=
  name == rowtime || name == windowStart || name == windowEnd

end ColumnName

/-! ## Columns -/

inductive SqlType where
  | boolean
  | integer
  | bigint
  | double
  | string
  | bytes
  | timestamp
deriving DecidableEq

def SqlType.text : SqlType → String
  | boolean => "BOOLEAN"
  | integer => "INTEGER"
  | bigint => "BIGINT"
  | double => "DOUBLE"
  | string => "STRING"
  | bytes => "BYTES"
  | timestamp => "TIMESTAMP"

/-- The part of a record that a column is read from. -/
inductive Namespace where
  | key
  | value
  /-- What the platform supplies beside key and value. -/
  | metadata
deriving DecidableEq

structure Column where
  name : ColumnName
  type : SqlType
  home : Namespace
deriving DecidableEq

namespace Column

def asValue (column : Column) : Column :=
  { column with home := .value }

def text (column : Column) : String :=
  let plain := column.name.text ++ " " ++ column.type.text
  match column.home with
  | .key => plain ++ " KEY"
  | .value => plain
  | .metadata => plain ++ " META"

@[simp] theorem name_asValue (column : Column) : column.asValue.name = column.name := rfl

end Column

/-! ## Schemas

A schema lists the columns of a source in three groups: metadata columns, key columns and value
columns. The order within a group matters, and a name may occur several times. Flattening a schema
exposes every column as a value column; then all columns can be addressed in the same way.
-/

structure Schema where
  metaColumns : List Column
  keyColumns : List Column
  valueColumns : List Column
deriving DecidableEq

namespace Schema

def empty : Schema where
  metaColumns := [⟨.rowtime, .bigint, .metadata⟩]
  keyColumns := []
  valueColumns := []

def addKey (schema : Schema) (name : ColumnName) (type : SqlType) : Schema :=
  { schema with keyColumns := schema.keyColumns ++ [⟨name, type, .key⟩] }

def addValue (schema : Schema) (name : ColumnName) (type : SqlType) : Schema :=
  { schema with valueColumns := schema.valueColumns ++ [⟨name, type, .value⟩] }

def columns (schema : Schema) : List Column :=
  schema.metaColumns ++ schema.keyColumns ++ schema.valueColumns

def named? (name : ColumnName) (columns : List Column) : Option Column :=
  columns.find? fun column => column.name = name

def findValue? (schema : Schema) (name : ColumnName) : Option Column :=
  named? name schema.valueColumns

/-- The column that a name denotes: a value column if there is one, else a key column, else a
metadata column. -/
def find? (schema : Schema) (name : ColumnName) : Option Column :=
  (schema.findValue? name).or ((named? name schema.keyColumns).or (named? name schema.metaColumns))

/-- Those columns of a list before which no column of the same name stands. -/
def firstByName : List Column → List Column
  | [] => []
  | column :: rest => column :: (firstByName rest).filter fun other => other.name ≠ column.name

def columnNames (schema : Schema) : List ColumnName :=
  (firstByName schema.columns).map (·.name)

def windowBounds : List Column :=
  [⟨.windowStart, .bigint, .value⟩, ⟨.windowEnd, .bigint, .value⟩]

/-- Exposes metadata columns, key columns and window bounds as value columns in front of the value
columns; of several columns with one name the first is kept. -/
def flatten (schema : Schema) : Schema :=
  { schema with
    valueColumns := firstByName
      ((schema.metaColumns ++ schema.keyColumns).map Column.asValue ++ windowBounds ++
        schema.valueColumns) }

def flattenIf (schema : Schema) (flattened : Bool) : Schema :=
  if flattened then schema.flatten else schema

def text (schema : Schema) : String :=
  "[" ++ ", ".intercalate (schema.columns.map Column.text) ++ "]"

theorem named?_firstByName (name : ColumnName) (columns : List Column) :
    named? name (firstByName columns) = named? name columns := by
  induction columns with
  | nil => rfl
  | cons column rest ih =>
    simp only [named?] at ih
    simp only [firstByName, named?, List.find?_cons]
    by_cases equal : column.name = name
    · simp [equal]
    · simp only [equal, decide_false]
      rw [← ih, List.find?_filter]
      congr 1
      funext other
      by_cases found : other.name = name
      · subst found
        simp [Ne.symm equal]
      · simp [found]

@[simp] theorem metaColumns_flatten (schema : Schema) :
    schema.flatten.metaColumns = schema.metaColumns := rfl

@[simp] theorem keyColumns_flatten (schema : Schema) :
    schema.flatten.keyColumns = schema.keyColumns := rfl

end Schema

end StreamQuery
