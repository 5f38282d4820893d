import StreamQuery.Text.Characters

/-! # Topics, formats and windows -/

set_option autoImplicit false

namespace StreamQuery

/-! ## Durations -/

/-- A span of time in whole seconds and the nanoseconds of a started one. -/
structure Duration where
  seconds : Nat
  nanoseconds : Nat
  seconds_lt : seconds < UInt64.size
  nanoseconds_lt : nanoseconds < 1000000000
deriving DecidableEq

namespace Duration

/-- The duration of some seconds and any number of nanoseconds, if it is not too long. -/
def ofParts? (seconds nanoseconds : Nat) : Option Duration :=
  if inRange : seconds + nanoseconds / 1000000000 < UInt64.size then
    some ⟨seconds + nanoseconds / 1000000000, nanoseconds % 1000000000, inRange,
      Nat.mod_lt _ (by decide)⟩
  else
    none

def toNanoseconds (d : Duration) : Nat :=
  d.seconds * 1000000000 + d.nanoseconds

/-- The length in whole milliseconds; what is left over is dropped. -/
def toMilliseconds (d : Duration) : Nat :=
  d.seconds * 1000 + d.nanoseconds / 1000000

theorem toNanoseconds_of_ofParts? {seconds nanoseconds : Nat} {d : Duration}
    (accepted : ofParts? seconds nanoseconds = some d) :
    d.toNanoseconds = seconds * 1000000000 + nanoseconds := by
  unfold ofParts? at accepted
  split at accepted
  · cases accepted
    simp only [toNanoseconds]
    omega
  · cases accepted

def text (d : Duration) : String :=
  Nat.repr d.toMilliseconds ++ " MILLISECONDS"

end Duration

/-! ## Topics

A topic holds the records of a source or sink. Keys and values of its records are serialised in
formats of their own, and the keys of a windowed topic carry the window that a record belongs to.
-/

inductive Format where
  | kafka
  | json
  | avro
  | delimited
  | protobuf
deriving DecidableEq

namespace Format

def text : Format → String
  | kafka => "KAFKA"
  | json => "JSON"
  | avro => "AVRO"
  | delimited => "DELIMITED"
  | protobuf => "PROTOBUF"

def all : List Format :=
  [kafka, json, avro, delimited, protobuf]

/-- The format that a text names, in letters of any case. -/
def ofString? (s : String) : Option Format :=
  all.find? fun format => format.text = Text.upper s

def unknownText (s : String) : String :=
  "Unknown format: " ++ Text.upper s

theorem ofString?_eq_some_iff {s : String} {format : Format} :
    ofString? s = some format ↔ Text.upper s = format.text := by
  constructor
  · intro found
    have := List.find?_some found
    simpa using (of_decide_eq_true this).symm
  · intro equal
    simp only [ofString?, equal]
    cases format <;> decide

end Format

inductive WindowKind where
  | tumbling
  | hopping
  | session
deriving DecidableEq

/-- The window that a key carries. Session windows have no fixed size. -/
structure KeyWindow where
  kind : WindowKind
  size : Option Duration
deriving DecidableEq

structure KeyFormat where
  format : Format
  window : Option KeyWindow
deriving DecidableEq

def KeyFormat.isWindowed (keyFormat : KeyFormat) : Bool :=
  keyFormat.window.isSome

structure ValueFormat where
  format : Format
deriving DecidableEq

structure Topic where
  name : String
  keyFormat : KeyFormat
  valueFormat : ValueFormat
deriving DecidableEq

/-! ## Wrapping of single values -/

/-- How a sink writes values that have a single field. -/
inductive Wrapping where
  /-- Inside an object with that field. -/
  | wrap
  /-- As the bare field. -/
  | unwrap
deriving DecidableEq

namespace Wrapping

def all : List Wrapping :=
  [wrap, unwrap]

/-- The elements of a list, each once, in the order of `all`. -/
def distinct (wrappings : List Wrapping) : List Wrapping :=
  all.filter fun wrapping => wrapping ∈ wrappings

theorem mem_distinct_iff {wrapping : Wrapping} {wrappings : List Wrapping} :
    wrapping ∈ distinct wrappings ↔ wrapping ∈ wrappings := by
  cases wrapping <;> simp [distinct, all]

end Wrapping

/-! ## Window clauses -/

inductive WindowShape where
  | tumbling (size : Duration)
  | hopping (size advance : Duration)
  | session (gap : Duration)
deriving DecidableEq

structure Window where
  name : Option String
  shape : WindowShape
deriving DecidableEq

namespace Window

/-- The window that the keys of the result carry. -/
def keyWindow (window : Window) : KeyWindow :=
  match window.shape with
  | .tumbling size => ⟨.tumbling, some size⟩
  | .hopping size _ => ⟨.hopping, some size⟩
  | .session _ => ⟨.session, none⟩

def shapeText : WindowShape → String
  | .tumbling size => "TUMBLING (SIZE " ++ size.text ++ ")"
  | .hopping size advance => "HOPPING (SIZE " ++ size.text ++ ", ADVANCE BY " ++ advance.text ++ ")"
  | .session gap => "SESSION (" ++ gap.text ++ ")"

def text (window : Window) : String :=
  match window.name with
  | none => shapeText window.shape
  | some name => name ++ " " ++ shapeText window.shape

end Window

end StreamQuery
