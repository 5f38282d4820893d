import StreamQuery.Catalog
import StreamQuery.Json.Value
import StreamQuery.Schema
import StreamQuery.Topic

/-! # Stored forms of catalog entries

Catalog entries are stored as JSON values. A structure is an object with a member for each field; a
member that is not a field is ignored, and an optional field may be absent or null. The list of all
fields of a structure, in their order, is read as the same. An alternative without fields is the
string of its name; an object whose only member has that name and the value null is read as the same.
-/

set_option autoImplicit false

namespace StreamQuery.Stored

open Json (Value)

/-! ## Structures and alternatives -/

def alternative? : Value → Option String
  | .str name => some name
  | .obj [(name, .null)] => some name
  | _ => none

/-- The one of `all` whose name is stored. -/
def oneOf? {α : Type} (all : List α) (name : α → String) (value : Value) : Option α := do
  let stored ← alternative? value
  all.find? fun choice => name choice = stored

def members? (fields : List String) : Value → Option (List (String × Value))
  | .obj members => some members
  | .arr items => if items.length = fields.length then some (fields.zip items) else none
  | _ => none

def field? {α : Type} (read? : Value → Option α) (key : String)
    (members : List (String × Value)) : Option α := do
  read? (← members.lookup key)

/-- A field that may be absent or null. -/
def optionalField? {α : Type} (read? : Value → Option α) (key : String)
    (members : List (String × Value)) : Option (Option α) :=
  match members.lookup key with
  | none => some none
  | some .null => some none
  | some stored => (read? stored).map some

def optional {α : Type} (write : α → Value) : Option α → Value
  | none => .null
  | some value => write value

def list? {α : Type} (read? : Value → Option α) (value : Value) : Option (List α) := do
  (← value.items?).mapM read?

def nat (value : Nat) : Value :=
  .num (.int value)

theorem oneOf?_str {α : Type} {all : List α} {name : α → String} (s : String) :
    oneOf? all name (.str s) = all.find? fun choice => name choice = s := rfl

theorem list?_arr {α : Type} {read? : Value → Option α} {write : α → Value}
    (inverse : ∀ value, read? (write value) = some value) (values : List α) :
    list? read? (.arr (values.map write)) = some values := by
  simp only [list?, Value.items?, Option.bind_eq_bind, Option.bind_some]
  induction values with
  | nil => rfl
  | cons value rest ih => simp [inverse, ih]

end StreamQuery.Stored

/-! ## Names, columns and schemas

Names are stored and read as they are, without folding their case.
-/

namespace StreamQuery

open Json (Value)

namespace SourceName

def stored (name : SourceName) : Value :=
  .str name.text

def ofStored? (value : Value) : Option SourceName :=
  value.string?.map SourceName.mk

end SourceName

namespace ColumnName

def stored (name : ColumnName) : Value :=
  .str name.text

def ofStored? (value : Value) : Option ColumnName :=
  value.string?.map ColumnName.mk

end ColumnName

namespace SqlType

def all : List SqlType :=
  [boolean, integer, bigint, double, string, bytes, timestamp]

def storedName : SqlType → String
  | boolean => "Boolean"
  | integer => "Integer"
  | bigint => "BigInt"
  | double => "Double"
  | string => "String"
  | bytes => "Bytes"
  | timestamp => "Timestamp"

def stored (type : SqlType) : Value :=
  .str type.storedName

def ofStored? : Value → Option SqlType :=
  Stored.oneOf? all storedName

end SqlType

namespace Namespace

def all : List Namespace :=
  [key, value, metadata]

def storedName : Namespace → String
  | key => "Key"
  | value => "Value"
  | metadata => "Meta"

def stored (home : Namespace) : Value :=
  .str home.storedName

def ofStored? : Value → Option Namespace :=
  Stored.oneOf? all storedName

end Namespace

namespace Column

def stored (column : Column) : Value :=
  .obj [("name", column.name.stored), ("sql_type", column.type.stored),
    ("namespace", column.home.stored)]

def fields : List String :=
  ["name", "sql_type", "namespace"]

def ofStored? (value : Value) : Option Column := do
  let members ← Stored.members? fields value
  some
    { name := ← Stored.field? ColumnName.ofStored? "name" members
      type := ← Stored.field? SqlType.ofStored? "sql_type" members
      home := ← Stored.field? Namespace.ofStored? "namespace" members }

end Column

namespace Schema

def stored (schema : Schema) : Value :=
  .obj [("meta", .arr (schema.metaColumns.map Column.stored)),
    ("key", .arr (schema.keyColumns.map Column.stored)),
    ("value", .arr (schema.valueColumns.map Column.stored))]

def fields : List String :=
  ["meta", "key", "value"]

def ofStored? (value : Value) : Option Schema := do
  let members ← Stored.members? fields value
  some
    { metaColumns := ← Stored.field? (Stored.list? Column.ofStored?) "meta" members
      keyColumns := ← Stored.field? (Stored.list? Column.ofStored?) "key" members
      valueColumns := ← Stored.field? (Stored.list? Column.ofStored?) "value" members }

end Schema

/-! ## Topics and sources

A duration has exactly the fields `secs` and `nanos`; nanoseconds beyond a second are carried.
-/

namespace Duration

def stored (d : Duration) : Value :=
  .obj [("secs", Stored.nat d.seconds), ("nanos", Stored.nat d.nanoseconds)]

def fields : List String :=
  ["secs", "nanos"]

def storedPart? (bound : Nat) (value : Value) : Option Nat := do
  let part ← value.nat?
  if part < bound then some part else none

def ofStored? (value : Value) : Option Duration := do
  let members ← Stored.members? fields value
  let seconds ← Stored.field? (storedPart? UInt64.size) "secs" members
  let nanoseconds ← Stored.field? (storedPart? UInt32.size) "nanos" members
  if members.all fun member => member.1 ∈ fields then ofParts? seconds nanoseconds else none

end Duration

namespace Format

def storedName : Format → String
  | kafka => "Kafka"
  | json => "Json"
  | avro => "Avro"
  | delimited => "Delimited"
  | protobuf => "Protobuf"

def stored (format : Format) : Value :=
  .str format.storedName

def ofStored? : Value → Option Format :=
  Stored.oneOf? all storedName

end Format

namespace WindowKind

def all : List WindowKind :=
  [tumbling, hopping, session]

def storedName : WindowKind → String
  | tumbling => "Tumbling"
  | hopping => "Hopping"
  | session => "Session"

def stored (kind : WindowKind) : Value :=
  .str kind.storedName

def ofStored? : Value → Option WindowKind :=
  Stored.oneOf? all storedName

end WindowKind

namespace KeyWindow

def stored (window : KeyWindow) : Value :=
  .obj [("window_type", window.kind.stored), ("size", Stored.optional Duration.stored window.size)]

def fields : List String :=
  ["window_type", "size"]

def ofStored? (value : Value) : Option KeyWindow := do
  let members ← Stored.members? fields value
  some
    { kind := ← Stored.field? WindowKind.ofStored? "window_type" members
      size := ← Stored.optionalField? Duration.ofStored? "size" members }

end KeyWindow

namespace KeyFormat

def stored (keyFormat : KeyFormat) : Value :=
  .obj [("format", keyFormat.format.stored),
    ("window", Stored.optional KeyWindow.stored keyFormat.window)]

def fields : List String :=
  ["format", "window"]

def ofStored? (value : Value) : Option KeyFormat := do
  let members ← Stored.members? fields value
  some
    { format := ← Stored.field? Format.ofStored? "format" members
      window := ← Stored.optionalField? KeyWindow.ofStored? "window" members }

end KeyFormat

namespace ValueFormat

def stored (valueFormat : ValueFormat) : Value :=
  .obj [("format", valueFormat.format.stored)]

def fields : List String :=
  ["format"]

def ofStored? (value : Value) : Option ValueFormat := do
  let members ← Stored.members? fields value
  some { format := ← Stored.field? Format.ofStored? "format" members }

end ValueFormat

namespace Topic

def stored (topic : Topic) : Value :=
  .obj [("kafka_topic_name", .str topic.name), ("key_format", topic.keyFormat.stored),
    ("value_format", topic.valueFormat.stored)]

def fields : List String :=
  ["kafka_topic_name", "key_format", "value_format"]

def ofStored? (value : Value) : Option Topic := do
  let members ← Stored.members? fields value
  some
    { name := ← Stored.field? Value.string? "kafka_topic_name" members
      keyFormat := ← Stored.field? KeyFormat.ofStored? "key_format" members
      valueFormat := ← Stored.field? ValueFormat.ofStored? "value_format" members }

end Topic

namespace SourceKind

def all : List SourceKind :=
  [stream, table, subquery]

def storedName : SourceKind → String
  | stream => "Stream"
  | table => "Table"
  | subquery => "Subquery"

def stored (kind : SourceKind) : Value :=
  .str kind.storedName

def ofStored? : Value → Option SourceKind :=
  Stored.oneOf? all storedName

end SourceKind

namespace Source

def stored (source : Source) : Value :=
  .obj [("name", source.name.stored), ("source_type", source.kind.stored),
    ("schema", source.schema.stored), ("topic", source.topic.stored)]

def fields : List String :=
  ["name", "source_type", "schema", "topic"]

def ofStored? (value : Value) : Option Source := do
  let members ← Stored.members? fields value
  some
    { name := ← Stored.field? SourceName.ofStored? "name" members
      kind := ← Stored.field? SourceKind.ofStored? "source_type" members
      schema := ← Stored.field? Schema.ofStored? "schema" members
      topic := ← Stored.field? Topic.ofStored? "topic" members }

end Source

namespace Wrapping

def storedName : Wrapping → String
  | wrap => "WrapSingleValues"
  | unwrap => "UnwrapSingleValues"

def stored (wrapping : Wrapping) : Value :=
  .str wrapping.storedName

def ofStored? : Value → Option Wrapping :=
  Stored.oneOf? all storedName

end Wrapping

end StreamQuery
