import StreamQuery.Analysis.Edit
import StreamQuery.Catalog

/-! # The analysis of a query

A query is analysed clause by clause: sources and joins, the select list with its stars expanded, the
filter, the grouping, the window, the condition on groups, the columns of the select list, the
partitioning, the limit and the sink. Each clause is checked against the scope at its place, and the
first error ends the analysis.
-/

set_option autoImplicit false

namespace StreamQuery

/-- What queries are analysed against. -/
structure Analyzer where
  source? : SourceName → Option Source
  /-- The names of functions that turn one row into several. -/
  tableFunctions : List String

namespace Analyzer

/-- The analyzer of a catalog; one table function is known from the start. -/
def ofCatalog (catalog : Catalog) : Analyzer :=
  ⟨catalog.source?, ["EXPLODE"]⟩

def addTableFunction (analyzer : Analyzer) (name : String) : Analyzer :=
  { analyzer with tableFunctions := analyzer.tableFunctions ++ [Text.upper name] }

/-! ## Sources and joins -/

def bindRelation (analyzer : Analyzer) (relation : Relation) (a : Analysis) :
    Except AnalysisError Analysis :=
  match analyzer.source? relation.name with
  | none => .error (.unknownSource relation.name)
  | some source => a.bindSource relation.visibleName source

inductive Side where
  | left
  | right
deriving DecidableEq

def sideOf (scope : Scope) (next : SourceName) (column : ColumnRef) : Except AnalysisError Side :=
  (scope.resolve column).map fun source => if source = next then .right else .left

/-- The side that all of some columns are read from, given the side of earlier ones. There is none
without columns. Columns behind one from the other side are not looked at. -/
def commonSide (scope : Scope) (next : SourceName) :
    Option Side → List ColumnRef → Except AnalysisError (Option Side)
  | side, [] => .ok side
  | side, column :: rest => do
    let current ← sideOf scope next column
    match side with
    | none => commonSide scope next (some current) rest
    | some previous =>
      if previous = current then commonSide scope next (some previous) rest else .ok none

def orient (scope : Scope) (join : Join) (first second : Expr) : Except AnalysisError BoundJoin := do
  let firstSide ← commonSide scope join.relation.visibleName none first.columns
  let secondSide ← commonSide scope join.relation.visibleName none second.columns
  match firstSide, secondSide with
  | some .left, some .right => .ok ⟨first, second, join.kind, join.within⟩
  | some .right, some .left => .ok ⟨second, first, join.kind, join.within⟩
  | _, _ => .error (.unsupportedCriteria join.criteria.text)

def joinKeys (join : Join) (a : Analysis) : Except AnalysisError BoundJoin :=
  match join.criteria with
  | .comparison .equal first second => do
    let scope ← a.scope false
    orient scope join first second
  | criteria => .error (.unsupportedCriteria criteria.text)

def bindJoin (analyzer : Analyzer) (a : Analysis) (join : Join) : Except AnalysisError Analysis := do
  let a ← analyzer.bindRelation join.relation a
  let bound ← joinKeys join a
  a.addJoin bound

def bindSources (analyzer : Analyzer) (query : Query) (a : Analysis) :
    Except AnalysisError Analysis := do
  let a ← analyzer.bindRelation query.relation a
  query.joins.foldlM analyzer.bindJoin a

/-! ## The select list -/

/-- The name of a column in the result of a star. With several sources it starts with the alias. -/
def starName (isJoin : Bool) (source : SourceName) (name : ColumnName) : ColumnName :=
  if isJoin then .ofString (source.text ++ "_" ++ name.text) else name

def starItem (isJoin : Bool) (source : SourceName) (name : ColumnName) : Projection :=
  .single (.column (.qualified source name)) (some (starName isJoin source name))

def expandStar (scope : Scope) (source : Option SourceName) :
    Except AnalysisError (List Projection) :=
  let items := (scope.entriesOf source).flatMap fun entry =>
    entry.2.valueColumns.map fun column => starItem scope.isJoin entry.1 column.name
  match source with
  | none => .ok items
  | some name => if (scope.schema? name).isSome then .ok items else .error (.unknownSource name)

def expand (a : Analysis) : Projection → Except AnalysisError (List Projection)
  | .star source => do
    let scope ← a.scope false
    expandStar scope source
  | item => .ok [item]

def recordItem (analyzer : Analyzer) (a : Analysis) (item : Projection) : Analysis :=
  ((a.addSelectNames (item.columns.map (·.name))).addTableCalls
    (item.calls.filter fun call => call.name ∈ analyzer.tableFunctions)).addSelect item

def selectItem (analyzer : Analyzer) (a : Analysis) (item : Projection) :
    Except AnalysisError Analysis :=
  (expand a item).map fun items => items.foldl analyzer.recordItem a

def selectItems (analyzer : Analyzer) (query : Query) (a : Analysis) :
    Except AnalysisError Analysis :=
  query.select.foldlM analyzer.selectItem a

/-! ## The other clauses -/

def checkColumns (a : Analysis) (afterGrouping : Bool) (columns : List ColumnRef) :
    Except AnalysisError Unit := do
  let scope ← a.scope afterGrouping
  scope.check columns

def checkedClause (a : Analysis) (clause : Option Expr) (afterGrouping : Bool)
    (enter : Expr → Except AnalysisError Analysis) : Except AnalysisError Analysis :=
  match clause with
  | none => .ok a
  | some expr => do
    checkColumns a afterGrouping expr.columns
    enter expr

def filterClause (query : Query) (a : Analysis) : Except AnalysisError Analysis :=
  checkedClause a query.filter false a.setFilter

def groupingClause (query : Query) (a : Analysis) : Except AnalysisError Analysis :=
  match query.grouping with
  | [] => .ok a
  | exprs => do
    checkColumns a false (exprs.flatMap Expr.columns)
    a.addGrouping exprs

def windowClause (query : Query) (a : Analysis) : Except AnalysisError Analysis :=
  match query.window with
  | none => .ok a
  | some window => a.setWindow window

def havingClause (query : Query) (a : Analysis) : Except AnalysisError Analysis :=
  checkedClause a query.having true a.setHaving

def checkSelect (a : Analysis) : Except AnalysisError Analysis := do
  checkColumns a (!a.grouping.isEmpty) (a.select.flatMap Projection.columns)
  .ok a

def partitioningClause (query : Query) (a : Analysis) : Except AnalysisError Analysis :=
  checkedClause a query.partitioning false a.setPartitioning

def limitClause (query : Query) (a : Analysis) : Except AnalysisError Analysis :=
  match query.limit with
  | none => .ok a
  | some limit => a.setLimit limit

/-! ## The sink -/

def wrappings (properties : Properties) : List Wrapping :=
  match properties.wrapSingleValue? with
  | some true => [.wrap]
  | some false => [.unwrap]
  | none => []

/-- The format of the keys of a result: the window of the query applies if there is one; without
one, grouping gives keys of its own, and otherwise the keys of the first source are kept. -/
def resultKeyFormat (a : Analysis) (first : KeyFormat) : KeyFormat :=
  match a.window with
  | some window => ⟨first.format, some window.keyWindow⟩
  | none => if a.grouping.isEmpty then first else ⟨first.format, none⟩

def newTopic (a : Analysis) (sink : Sink) (first : Topic) : Topic where
  name := sink.properties.topic?.getD sink.name.text
  keyFormat := resultKeyFormat a first.keyFormat
  valueFormat :=
    match sink.properties.valueFormat? with
    | some format => ⟨format⟩
    | none => first.valueFormat

def sinkTopic (analyzer : Analyzer) (a : Analysis) (sink : Sink) : Except AnalysisError Topic :=
  if sink.creates then
    match a.sources with
    | [] => .error .noSources
    | first :: _ => .ok (newTopic a sink first.source.topic)
  else
    match analyzer.source? sink.name with
    | none => .error (.unknownSource sink.name)
    | some source => .ok source.topic

def sinkClause (analyzer : Analyzer) (sink : Option Sink) (a : Analysis) :
    Except AnalysisError Analysis :=
  match sink with
  | none => .ok a
  | some sink => do
    let topic ← analyzer.sinkTopic a sink
    (a.setProperties sink.properties).setSink
      (.of sink.name sink.creates topic (wrappings sink.properties))

/-! ## All clauses -/

def analyzeQuery (analyzer : Analyzer) (query : Query) : Except AnalysisError Analysis := do
  let a ← analyzer.bindSources query (.start query.emission)
  let a ← analyzer.selectItems query a
  let a ← filterClause query a
  let a ← groupingClause query a
  let a ← windowClause query a
  let a ← havingClause query a
  let a ← checkSelect a
  let a ← partitioningClause query a
  limitClause query a

def analyze (analyzer : Analyzer) (query : Query) (sink : Option Sink) :
    Except AnalysisError Analysis := do
  let a ← analyzer.analyzeQuery query
  analyzer.sinkClause sink a

end Analyzer

end StreamQuery
