import StreamQuery.Catalog
import StreamQuery.Expr
import StreamQuery.Roster
import StreamQuery.Sink

/-! # Errors and scopes -/

set_option autoImplicit false

namespace StreamQuery

/-! ## Analysis errors

What can be wrong with a query, a catalog entry or a property. Three of the errors are internal: they
blame the caller of the analysis and not the text of a query.
-/

inductive Clause where
  | sink
  | filter
  | grouping
  | window
  | having
  | partitioning
  | limit
deriving DecidableEq

def Clause.text : Clause → String
  | sink => "INTO"
  | filter => "WHERE"
  | grouping => "GROUP BY"
  | window => "WINDOW"
  | having => "HAVING"
  | partitioning => "PARTITION BY"
  | limit => "LIMIT"

inductive AnalysisError where
  | duplicateElement (clause : Clause) (expr : Expr)
  | invalidState (detail : String)
  | unsupportedKind (source : SourceName) (kind : SourceKind)
  | noSources
  | clauseAlreadySet (clause : Clause)
  | unknownSource (name : SourceName)
  /-- A column that no source in question has, and what columns there are instead, if one source was
  named. -/
  | unknownColumn (column : String) (candidates : List String)
  | ambiguousColumn (column : String) (sources : List SourceName)
  | duplicateAlias (name : SourceName)
  | unsupportedCriteria (criteria : String)
  | invalidProperty (name reason : String)

namespace AnalysisError

/-- A join is recorded only after the source that it brings in. -/
def joinWithoutSource (sources joins : Nat) : AnalysisError :=
  invalidState ("join info can only be supplied for joins: " ++ Nat.repr sources ++ " sources, " ++
    Nat.repr joins ++ " joins already recorded")

def ofPropertyError (error : PropertyError) : AnalysisError :=
  invalidProperty error.name error.fault.reason

/-- Whether the error blames the caller of the analysis. -/
def isInternal : AnalysisError → Bool
  | invalidState _ => true
  | noSources => true
  | clauseAlreadySet _ => true
  | _ => false

def message : AnalysisError → String
  | duplicateElement clause expr => "Duplicate " ++ clause.text ++ " expression: " ++ expr.text
  | invalidState detail => "Invalid analysis state: " ++ detail
  | unsupportedKind source kind =>
    "Data source type not supported yet: " ++ source.text ++ " (" ++ kind.text ++ ")"
  | noSources => "No data sources bound to the analysis"
  | clauseAlreadySet clause => clause.text ++ " clause already set"
  | unknownSource name => "Unknown source: " ++ name.text
  | unknownColumn column [] => "Column '" ++ column ++ "' cannot be resolved"
  | unknownColumn column candidates =>
    "Column '" ++ column ++ "' cannot be resolved, known columns: " ++ ", ".intercalate candidates
  | ambiguousColumn column sources =>
    "Column '" ++ column ++ "' is ambiguous, it exists in: " ++
      ", ".intercalate (sources.map (·.text))
  | duplicateAlias name => "Source alias '" ++ name.text ++ "' is used more than once"
  | unsupportedCriteria criteria =>
    "Unsupported join criteria: " ++ criteria ++
      ", only equality between the two sides is supported"
  | invalidProperty name reason => "Invalid property " ++ name ++ ": " ++ reason

end AnalysisError

/-! ## Scopes

A scope holds the schemas of the sources that a query can see, by alias and in the order of the FROM
clause. A column with a source belongs to that source; a column without one belongs to the only
source that has it.
-/

structure Scope where
  entries : Roster (Prod.fst : SourceName × Schema → SourceName)

namespace Scope

/-- The scope of some aliases with their schemas; a later schema of an alias replaces an earlier. -/
def ofList (entries : List (SourceName × Schema)) : Scope :=
  ⟨.ofList entries⟩

def toList (scope : Scope) : List (SourceName × Schema) :=
  scope.entries.toList

def isJoin (scope : Scope) : Bool :=
  decide (1 < scope.entries.size)

def aliases (scope : Scope) : List SourceName :=
  scope.entries.keys

def schema? (scope : Scope) (source : SourceName) : Option Schema :=
  (scope.entries.get? source).map Prod.snd

def entriesOf (scope : Scope) : Option SourceName → List (SourceName × Schema)
  | none => scope.toList
  | some source => scope.toList.filter fun entry => entry.1 = source

/-- The sources that have a column of a name, among one source or all. -/
def sourcesWith (scope : Scope) (source : Option SourceName) (name : ColumnName) :
    List SourceName :=
  ((scope.entriesOf source).filter fun entry => (entry.2.find? name).isSome).map Prod.fst

def resolve (scope : Scope) (column : ColumnRef) : Except AnalysisError SourceName :=
  match column.source with
  | some source =>
    match scope.schema? source with
    | none => .error (.unknownSource source)
    | some schema =>
      match schema.find? column.name with
      | some _ => .ok source
      | none => .error (.unknownColumn column.text (schema.columnNames.map (·.text)))
  | none =>
    match scope.sourcesWith none column.name with
    | [] => .error (.unknownColumn column.name.text [])
    | [source] => .ok source
    | sources => .error (.ambiguousColumn column.name.text sources)

def check (scope : Scope) : List ColumnRef → Except AnalysisError Unit
  | [] => .ok ()
  | column :: rest => do
    let _ ← scope.resolve column
    scope.check rest

/-- Whether a column belongs to a source in which no value column has its name. -/
def isNonValue (scope : Scope) (column : ColumnRef) : Bool :=
  match scope.resolve column with
  | .error _ => false
  | .ok source =>
    match scope.schema? source with
    | some schema => (schema.findValue? column.name).isNone
    | none => false

end Scope

end StreamQuery
