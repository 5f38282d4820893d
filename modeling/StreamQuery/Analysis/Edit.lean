import StreamQuery.Analysis.Scope
import StreamQuery.Query
import StreamQuery.Sink

/-! # Analyses and their edits

An analysis gathers what is known of one query. It grows by edits, of which some can fail; an edit
that fails gives no new analysis, so the old one stands. A clause can be set once.
-/

set_option autoImplicit false

namespace StreamQuery

/-- A stream or table of the catalog under its alias in the query. -/
structure BoundSource where
  «alias» : SourceName
  source : Source
  isInput : source.kind ≠ .subquery
deriving DecidableEq

namespace BoundSource

/-- Gives a source an alias. The error names the source as the catalog does. -/
def bind (name : SourceName) (source : Source) : Except AnalysisError BoundSource :=
  if subquery : source.kind = .subquery then .error (.unsupportedKind source.name source.kind)
  else .ok ⟨name, source, subquery⟩

def isTable (bound : BoundSource) : Bool :=
  bound.source.kind == .table

/-- The schema under which the source is visible: flattened if its own keys are windowed, or where
the query's window has been applied. -/
def visibleSchema (bound : BoundSource) (inWindow : Bool) : Schema :=
  bound.source.schema.flattenIf (bound.source.isWindowed || inWindow)

end BoundSource

structure Analysis where
  emission : Emission
  sources : List BoundSource := []
  joins : List BoundJoin := []
  select : List Projection := []
  selectNames : List ColumnName := []
  filter : Option Expr := none
  grouping : List Expr := []
  window : Option Window := none
  having : Option Expr := none
  partitioning : Option Expr := none
  limit : Option UInt32 := none
  sink : Option BoundSink := none
  properties : Properties := .none
  tableCalls : List Call := []

namespace Analysis

def start (emission : Emission) : Analysis where
  emission := emission

/-! ## Edits -/

def setOnce {α : Type} (clause : Clause) (place : Option α) (value : α) :
    Except AnalysisError (Option α) :=
  match place with
  | none => .ok (some value)
  | some _ => .error (.clauseAlreadySet clause)

def setSink (a : Analysis) (sink : BoundSink) : Except AnalysisError Analysis :=
  (setOnce .sink a.sink sink).map fun place => { a with sink := place }

def setFilter (a : Analysis) (expr : Expr) : Except AnalysisError Analysis :=
  (setOnce .filter a.filter expr).map fun place => { a with filter := place }

def setHaving (a : Analysis) (expr : Expr) : Except AnalysisError Analysis :=
  (setOnce .having a.having expr).map fun place => { a with having := place }

def setPartitioning (a : Analysis) (expr : Expr) : Except AnalysisError Analysis :=
  (setOnce .partitioning a.partitioning expr).map fun place => { a with partitioning := place }

def setWindow (a : Analysis) (window : Window) : Except AnalysisError Analysis :=
  (setOnce .window a.window window).map fun place => { a with window := place }

def setLimit (a : Analysis) (limit : UInt32) : Except AnalysisError Analysis :=
  (setOnce .limit a.limit limit).map fun place => { a with limit := place }

/-- A list of expressions with more of them at its end, unless one would be in it twice. -/
def appendDistinct (present : List Expr) : List Expr → Except AnalysisError (List Expr)
  | [] => .ok present
  | expr :: rest =>
    if expr.isIn present then .error (.duplicateElement .grouping expr)
    else appendDistinct (present ++ [expr]) rest

def addGrouping (a : Analysis) (exprs : List Expr) : Except AnalysisError Analysis :=
  (appendDistinct a.grouping exprs).map fun grouping => { a with grouping := grouping }

def bindSource (a : Analysis) (name : SourceName) (source : Source) :
    Except AnalysisError Analysis :=
  if name ∈ a.sources.map BoundSource.alias then .error (.duplicateAlias name)
  else (BoundSource.bind name source).map fun bound => { a with sources := a.sources ++ [bound] }

/-- Records the join of the sources so far with the next one, if there is a next one. -/
def addJoin (a : Analysis) (join : BoundJoin) : Except AnalysisError Analysis :=
  if a.joins.length + 1 < a.sources.length then .ok { a with joins := a.joins ++ [join] }
  else .error (.joinWithoutSource a.sources.length a.joins.length)

def addSelect (a : Analysis) (item : Projection) : Analysis :=
  { a with select := a.select ++ [item] }

def withName (names : List ColumnName) (name : ColumnName) : List ColumnName :=
  if name ∈ names then names else names ++ [name]

def addSelectNames (a : Analysis) (names : List ColumnName) : Analysis :=
  { a with selectNames := names.foldl withName a.selectNames }

def addTableCalls (a : Analysis) (calls : List Call) : Analysis :=
  { a with tableCalls := a.tableCalls ++ calls }

def setProperties (a : Analysis) (properties : Properties) : Analysis :=
  { a with properties := properties }

/-! ## Views -/

def isJoin (a : Analysis) : Bool :=
  !a.joins.isEmpty

def scope (a : Analysis) (afterGrouping : Bool) : Except AnalysisError Scope :=
  if a.sources.isEmpty then .error .noSources
  else
    .ok (.ofList (a.sources.map fun bound =>
      (bound.alias, bound.visibleSchema (afterGrouping && a.window.isSome))))

/-- The argument of functions that are called without one: the timestamp of the first source. -/
def defaultArgument (a : Analysis) : Except AnalysisError ColumnRef :=
  match a.sources with
  | [] => .error .noSources
  | first :: _ => .ok (.qualified first.alias .rowtime)

/-! ## What an edit changes -/

theorem setOnce_eq_ok_iff {α : Type} {clause : Clause} {place next : Option α} {value : α} :
    setOnce clause place value = .ok next ↔ place = none ∧ next = some value := by
  cases place <;> simp [setOnce, eq_comm]

end Analysis

/-! ## Edits as data

A history of an analysis is a list of edits. An edit that fails is skipped.
-/

inductive Edit where
  | bindSource (name : SourceName) (source : Source)
  | addJoin (join : BoundJoin)
  | addSelect (item : Projection)
  | addSelectNames (names : List ColumnName)
  | addTableCall (call : Call)
  | setFilter (expr : Expr)
  | addGrouping (exprs : List Expr)
  | setWindow (window : Window)
  | setHaving (expr : Expr)
  | setPartitioning (expr : Expr)
  | setLimit (limit : UInt32)
  | setSink (sink : BoundSink)
  | setProperties (properties : Properties)

namespace Analysis

def edit (a : Analysis) : Edit → Except AnalysisError Analysis
  | .bindSource name source => a.bindSource name source
  | .addJoin join => a.addJoin join
  | .addSelect item => .ok (a.addSelect item)
  | .addSelectNames names => .ok (a.addSelectNames names)
  | .addTableCall call => .ok (a.addTableCalls [call])
  | .setFilter expr => a.setFilter expr
  | .addGrouping exprs => a.addGrouping exprs
  | .setWindow window => a.setWindow window
  | .setHaving expr => a.setHaving expr
  | .setPartitioning expr => a.setPartitioning expr
  | .setLimit limit => a.setLimit limit
  | .setSink sink => a.setSink sink
  | .setProperties properties => .ok (a.setProperties properties)

/-- The analysis after an edit has been tried, and the error if it failed. -/
def attempt (a : Analysis) (edit : Edit) : Analysis × Option AnalysisError :=
  match a.edit edit with
  | .ok next => (next, none)
  | .error error => (a, some error)

def attemptAll (a : Analysis) : List Edit → Analysis × List (Option AnalysisError)
  | [] => (a, [])
  | edit :: rest =>
    let (next, error) := a.attempt edit
    let (last, errors) := next.attemptAll rest
    (last, error :: errors)

end Analysis

end StreamQuery
