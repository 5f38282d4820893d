import StreamQuery.Json.Reader
import StreamQuery.Json.Writer
import StreamQuery.Roster
import StreamQuery.Schema
import StreamQuery.Text.Characters
import StreamQuery.Topic

/-! # Sinks and their properties -/

set_option autoImplicit false

namespace StreamQuery

open Json (Value)

/-! ## Properties

There are seven properties. Each has its own kind of value, which is checked when the property is
read, so that a property at hand is always well formed. The JSON value from which a property was read
can be recovered from it.
-/

def isTopicChar (c : Char) : Bool :=
  c.isAlphanum || c == '.' || c == '_' || c == '-'

/-- Whether a topic may have this name: 1 to 249 characters, and not the name of a directory. -/
def isTopicName (s : String) : Bool :=
  decide (1 ≤ s.length ∧ s.length ≤ 249) && s.toList.all isTopicChar && s != "." && s != ".."

inductive PropertyFault where
  | unknownProperty
  | notString
  | notBool
  | notPositive
  | notColumn
  | illegalTopic (name : String)
  | unknownFormat (spelling : String)
  | notObject (value : Value)

def PropertyFault.reason : PropertyFault → String
  | unknownProperty => "unknown property"
  | notString => "expected a string"
  | notBool => "expected a boolean"
  | notPositive => "expected a positive integer"
  | notColumn => "expected a column name"
  | illegalTopic name => "illegal topic name '" ++ name ++ "'"
  | unknownFormat spelling => Format.unknownText spelling
  | notObject value => "expected an object of properties, got " ++ value.text

structure PropertyError where
  name : String
  fault : PropertyFault

inductive Property where
  | topic (name : String) (legal : isTopicName name = true)
  | valueFormat (spelling : String) (format : Format)
      (spells : Format.ofString? spelling = some format)
  | partitions (count : Nat) (inRange : 0 < count ∧ count < UInt32.size)
  | replicas (count : Nat) (inRange : 0 < count ∧ count < UInt16.size)
  | timestamp (column : String) (named : Text.isAllBlank column = false)
  | timestampFormat (pattern : String)
  | wrapSingleValue (wrap : Bool)

namespace Property

def key : Property → String
  | topic .. => "KAFKA_TOPIC"
  | valueFormat .. => "VALUE_FORMAT"
  | partitions .. => "PARTITIONS"
  | replicas .. => "REPLICAS"
  | timestamp .. => "TIMESTAMP"
  | timestampFormat .. => "TIMESTAMP_FORMAT"
  | wrapSingleValue .. => "WRAP_SINGLE_VALUE"

def value : Property → Value
  | topic name _ => .str name
  | valueFormat spelling _ _ => .str spelling
  | partitions count _ => .num (.int count)
  | replicas count _ => .num (.int count)
  | timestamp column _ => .str column
  | timestampFormat pattern => .str pattern
  | wrapSingleValue wrap => .bool wrap

def stringOf (value : Value) : Except PropertyFault String :=
  match value.string? with
  | some s => .ok s
  | none => .error .notString

def ofValue (key : String) (value : Value) : Except PropertyFault Property :=
  match key with
  | "KAFKA_TOPIC" => do
    let name ← stringOf value
    if legal : isTopicName name = true then .ok (.topic name legal)
    else .error (.illegalTopic name)
  | "VALUE_FORMAT" => do
    let spelling ← stringOf value
    match spells : Format.ofString? spelling with
    | some format => .ok (.valueFormat spelling format spells)
    | none => .error (.unknownFormat spelling)
  | "PARTITIONS" =>
    match value.nat? with
    | some count =>
      if inRange : 0 < count ∧ count < UInt32.size then .ok (.partitions count inRange)
      else .error .notPositive
    | none => .error .notPositive
  | "REPLICAS" =>
    match value.nat? with
    | some count =>
      if inRange : 0 < count ∧ count < UInt16.size then .ok (.replicas count inRange)
      else .error .notPositive
    | none => .error .notPositive
  | "TIMESTAMP" =>
    match value.string? with
    | some column =>
      if named : Text.isAllBlank column = false then .ok (.timestamp column named)
      else .error .notColumn
    | none => .error .notColumn
  | "TIMESTAMP_FORMAT" => do
    .ok (.timestampFormat (← stringOf value))
  | "WRAP_SINGLE_VALUE" =>
    match value.bool? with
    | some wrap => .ok (.wrapSingleValue wrap)
    | none => .error .notBool
  | _ => .error .unknownProperty

/-- The property that a key in letters of any case and a value give. -/
def ofPair (key : String) (value : Value) : Except PropertyError Property :=
  match ofValue (Text.upper key) value with
  | .ok property => .ok property
  | .error fault => .error ⟨Text.upper key, fault⟩

theorem ofValue_key_value (property : Property) :
    ofValue property.key property.value = .ok property := by
  cases property with
  | topic name legal =>
    simp [ofValue, key, value, stringOf, Value.string?, legal, bind, Except.bind]
  | valueFormat spelling format spells =>
    simp only [ofValue, key, value, stringOf, Value.string?, bind, Except.bind]
    split
    · rename_i found spells'
      cases spells.symm.trans spells'
      rfl
    · rename_i none
      cases spells.symm.trans none
  | partitions count inRange => simp only [ofValue, key, value, Value.nat?, dif_pos inRange]
  | replicas count inRange => simp only [ofValue, key, value, Value.nat?, dif_pos inRange]
  | timestamp column named => simp [ofValue, key, value, Value.string?, named]
  | timestampFormat pattern => simp [ofValue, key, value, stringOf, Value.string?, bind, Except.bind]
  | wrapSingleValue wrap => simp [ofValue, key, value, Value.bool?]

end Property

/-! ## The WITH clause

A list of pairs is read from left to right. The first pair that is no well-formed property is the
fault of the whole list, even if a later pair would replace it; otherwise the last value given for a
key counts, at the place where the key was first given.
-/

structure Properties where
  entries : Roster Property.key

namespace Properties

def none : Properties :=
  ⟨.empty⟩

def insert (properties : Properties) (property : Property) : Properties :=
  ⟨properties.entries.insert property⟩

def insertPairs : Properties → List (String × Value) → Except PropertyError Properties
  | properties, [] => .ok properties
  | properties, (key, value) :: rest => do
    let property ← Property.ofPair key value
    insertPairs (properties.insert property) rest

def ofPairs (pairs : List (String × Value)) : Except PropertyError Properties :=
  insertPairs none pairs

def ofValue : Value → Except PropertyError Properties
  | .obj members => ofPairs members
  | value => .error ⟨"WITH", .notObject value⟩

/-- The pairs of a list in the order of their keys, each key with its last value. -/
def lastOfEach (pairs : List (String × Value)) : List (String × Value) :=
  (Roster.ofList pairs : Roster (Prod.fst : String × Value → String)).toList

inductive TextFault where
  /-- The text is not an object, or not that alone. -/
  | malformed
  | property (error : PropertyError)

/-- The properties that an object in a JSON text gives, its members in the order of the text. A
faulty property is reported before anything behind the object is looked at. -/
def ofText (s : String) : Except TextFault Properties :=
  match Json.readObject? s with
  | .none => .error .malformed
  | some (members, rest) =>
    match ofPairs (lastOfEach (Value.canonicalMembers members)) with
    | .error error => .error (.property error)
    | .ok properties =>
      if (Json.skipBlanks rest).isEmpty then .ok properties else .error .malformed

/-! ### What properties hold -/

def isEmpty (properties : Properties) : Bool :=
  properties.entries.isEmpty

def toPairs (properties : Properties) : List (String × Value) :=
  properties.entries.toList.map fun property => (property.key, property.value)

def value (properties : Properties) : Value :=
  .obj properties.toPairs

def get? (properties : Properties) (key : String) : Option Value :=
  (properties.entries.get? (Text.upper key)).map Property.value

def topic? (properties : Properties) : Option String :=
  properties.entries.toList.findSome? fun
    | .topic name _ => some name
    | _ => .none

def valueFormat? (properties : Properties) : Option Format :=
  properties.entries.toList.findSome? fun
    | .valueFormat _ format _ => some format
    | _ => .none

def partitions? (properties : Properties) : Option Nat :=
  properties.entries.toList.findSome? fun
    | .partitions count _ => some count
    | _ => .none

def replicas? (properties : Properties) : Option Nat :=
  properties.entries.toList.findSome? fun
    | .replicas count _ => some count
    | _ => .none

def timestamp? (properties : Properties) : Option ColumnName :=
  properties.entries.toList.findSome? fun
    | .timestamp column _ => some (.ofString column)
    | _ => .none

def timestampFormat? (properties : Properties) : Option String :=
  properties.entries.toList.findSome? fun
    | .timestampFormat pattern => some pattern
    | _ => .none

def wrapSingleValue? (properties : Properties) : Option Bool :=
  properties.entries.toList.findSome? fun
    | .wrapSingleValue wrap => some wrap
    | _ => .none

end Properties

/-! ## Sinks -/

/-- The target of a statement: a new source that it creates, or one that it inserts into. -/
structure Sink where
  name : SourceName
  creates : Bool
  properties : Properties

structure BoundSink where
  name : SourceName
  topic : Topic
  creates : Bool
  wrappings : List Wrapping
deriving DecidableEq

namespace BoundSink

/-- Order and repetitions of the wrappings given do not matter. -/
def of (name : SourceName) (creates : Bool) (topic : Topic) (wrappings : List Wrapping) :
    BoundSink where
  name := name
  topic := topic
  creates := creates
  wrappings := Wrapping.distinct wrappings

end BoundSink

end StreamQuery
