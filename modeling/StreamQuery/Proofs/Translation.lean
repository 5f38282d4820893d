import StreamQuery.Proofs.JoinKeys

/-! # An analysis as a translation of its query

Each part of an analysis is read off the query and the sources that its relations denote. No clause
is lost, no item is taken twice, and every list keeps its order. `Projection.result` says what a star
stands for without the scope in which the walk expands it.
-/

set_option autoImplicit false

namespace StreamQuery

/-! ## The clauses in the scopes of the analysis

A clause is checked in the middle of the walk, against the sources and the window that are known at
that point. What comes later changes neither, so every column that a finished analysis mentions also
resolves in the scope that the analysis itself gives.
-/

def Analysis.Shows (a : Analysis) (afterGrouping : Bool) (column : ColumnRef) : Prop :=
  ∃ scope, a.scope afterGrouping = .ok scope ∧ scope.Resolves column

/-- Every column of every clause resolves in the scope of its clause. -/
structure Analysis.Readable (a : Analysis) : Prop where
  filter : ∀ expr ∈ a.filter, ∀ column ∈ expr.columns, a.Shows false column
  grouping : ∀ expr ∈ a.grouping, ∀ column ∈ expr.columns, a.Shows false column
  partitioning : ∀ expr ∈ a.partitioning, ∀ column ∈ expr.columns, a.Shows false column
  having : ∀ expr ∈ a.having, ∀ column ∈ expr.columns, a.Shows true column
  select : ∀ item ∈ a.select, ∀ column ∈ item.columns, a.Shows (!a.grouping.isEmpty) column

theorem Analysis.shows_iff {a : Analysis} {afterGrouping : Bool} {column : ColumnRef}
    (bound : a.sources ≠ []) :
    a.Shows afterGrouping column ↔
      (Scope.ofSources a.sources (afterGrouping && a.window.isSome)).Resolves column := by
  simp only [Shows, scope_of_ne_nil bound, Except.ok.injEq, exists_eq_left']

namespace Analyzer

variable {analyzer : Analyzer} {query : Query} {sink : Option Sink} {a : Analysis}

theorem readable_analysisOf {sources : List BoundSource} {keys : List BoundJoin}
    (bindsAll : BindsAll analyzer query sources keys) (hold : ClausesHold sources query) :
    (analysisOf analyzer query sources keys).Readable := by
  have bound : (analysisOf analyzer query sources keys).sources ≠ [] := bindsAll.sources_ne_nil
  -- The items of stars have no condition of their own in `ClausesHold`.
  have select := (expansion_resolves_iff _ bindsAll.nodup_aliases).mpr hold.select
  refine ⟨?_, ?_, ?_, ?_, ?_⟩
  · intro expr isFilter column isColumn
    exact (Analysis.shows_iff bound).mpr (hold.filter expr isFilter column isColumn)
  · intro expr isGrouping column isColumn
    exact (Analysis.shows_iff bound).mpr (hold.grouping expr isGrouping column isColumn)
  · intro expr isPartitioning column isColumn
    exact (Analysis.shows_iff bound).mpr (hold.partitioning expr isPartitioning column isColumn)
  · intro expr isHaving column isColumn
    exact (Analysis.shows_iff bound).mpr (hold.having expr isHaving column isColumn)
  · intro item isItem column isColumn
    have isSelected := List.mem_flatMap.mpr ⟨item, isItem, isColumn⟩
    exact (Analysis.shows_iff bound).mpr (select column isSelected)

/-- Every column that an analysis mentions resolves in its own scopes. -/
theorem readable_of_analyze (analyzed : analyzer.analyze query sink = .ok a) : a.Readable := by
  obtain ⟨sources, keys, bindsAll, hold, entered⟩ := analyze_eq_ok_iff.mp analyzed
  obtain ⟨properties, place, rfl⟩ := sinkClause_eq_ok rfl entered
  obtain ⟨filter, grouping, partitioning, having, select⟩ := readable_analysisOf bindsAll hold
  exact ⟨filter, grouping, partitioning, having, select⟩

/-- `SELECT ORDERS.*, ITEMS.WINDOWEND FROM ORDERS LEFT JOIN ITEMS ON ID = ITEM WHERE ID = ITEM
GROUP BY ITEM WINDOW SESSION (60 SECONDS) HAVING ORDERS.WINDOWSTART IS NOT NULL`. -/
def sessions : Query :=
  { ordersWithItems with
    select := [.star (some ⟨"ORDERS"⟩), .single (.column (.qualified ⟨"ITEMS"⟩ .windowEnd)) none]
    filter := some onItems.criteria
    grouping := [.column (.unqualified ⟨"ITEM"⟩)]
    window := some ⟨none, .session ⟨60, 0, by decide, by decide⟩⟩
    having := some (.isNotNull (.column (.qualified ⟨"ORDERS"⟩ .windowStart))) }

theorem readable_sessions : ∃ a, shop.analyze sessions none = .ok a ∧ a.Readable ∧
    a.having = some (.isNotNull (.column (.qualified ⟨"ORDERS"⟩ .windowStart))) := by
  have analyzed : shop.analyze sessions none = .ok _ := rfl
  exact ⟨_, analyzed, readable_of_analyze analyzed, rfl⟩

end Analyzer

/-! ## The parts of the query -/

/-- The name in the result of a column that a star gives; several sources are told apart by alias. -/
def outputName (sources : List BoundSource) (bound : BoundSource) (column : Column) : ColumnName :=
  if 1 < sources.length then .ofString (bound.alias.text ++ "_" ++ column.name.text)
  else column.name

def Projection.result (sources : List BoundSource) : Projection → List Projection
  | .single expr name => [.single expr name]
  | .star wanted =>
    (sources.filter fun bound => decide (wanted = none ∨ wanted = some bound.alias)).flatMap
      fun bound =>
        (bound.source.schema.flattenIf bound.source.isWindowed).valueColumns.map fun column =>
          .single (.column (.qualified bound.alias column.name))
            (some (outputName sources bound column))

/-- What an analysis owes to its query, to the catalog and to its sink. -/
structure Translates (analyzer : Analyzer) (query : Query) (sink : Option Sink) (a : Analysis) :
    Prop where
  sources : a.sources.map (fun bound => (bound.alias, some bound.source)) =
    query.relations.map fun relation => (relation.visibleName, analyzer.source? relation.name)
  select : a.select = query.select.flatMap (Projection.result a.sources)
  filter : a.filter = query.filter
  grouping : a.grouping = query.grouping
  window : a.window = query.window
  having : a.having = query.having
  partitioning : a.partitioning = query.partitioning
  limit : a.limit = query.limit
  emission : a.emission = query.emission
  noSink : sink = none → a.sink = none ∧ a.properties.isEmpty = true

namespace Analyzer

variable {analyzer : Analyzer} {query : Query} {sink : Option Sink} {a : Analysis}

theorem Binds.entry {relation : Relation} {bound : BoundSource}
    (binds : Binds analyzer relation bound) :
    (bound.alias, some bound.source) = (relation.visibleName, analyzer.source? relation.name) := by
  rw [binds.named, binds.denoted]

theorem Joined.entries {seen sources : List BoundSource} {joins : List Join}
    {keys : List BoundJoin} (joined : Joined analyzer seen joins sources keys) :
    sources.map (fun bound => (bound.alias, some bound.source)) =
      seen.map (fun bound => (bound.alias, some bound.source)) ++
        (joins.map (·.relation)).map fun relation =>
          (relation.visibleName, analyzer.source? relation.name) := by
  induction joined with
  | nil => simp
  | cons binds _ _ _ ih => simp [ih, binds.entry]

theorem BindsAll.entries {sources : List BoundSource} {keys : List BoundJoin}
    (bindsAll : BindsAll analyzer query sources keys) :
    sources.map (fun bound => (bound.alias, some bound.source)) =
      query.relations.map fun relation =>
        (relation.visibleName, analyzer.source? relation.name) := by
  obtain ⟨first, binds, joined⟩ := bindsAll
  rw [joined.entries, List.map_singleton, binds.entry, List.singleton_append]
  rfl

theorem entriesOf_ofSources {sources : List BoundSource}
    (distinct : (sources.map BoundSource.alias).Nodup) (wanted : Option SourceName) :
    (Scope.ofSources sources false).entriesOf wanted =
      (sources.filter fun bound => decide (wanted = none ∨ wanted = some bound.alias)).map
        fun bound => (bound.alias, bound.source.schema.flattenIf bound.source.isWindowed) := by
  have shown : (Scope.ofSources sources false).toList = sources.map fun bound =>
      (bound.alias, bound.source.schema.flattenIf bound.source.isWindowed) := by
    rw [Scope.toList_ofSources distinct]
    simp only [BoundSource.visibleSchema, Bool.or_false]
  cases wanted with
  | none =>
    have all : (sources.filter fun bound =>
        decide ((none : Option SourceName) = none ∨ none = some bound.alias)) = sources := by
      simp
    rw [Scope.entriesOf, shown, all]
  | some name =>
    rw [Scope.entriesOf, shown, List.filter_map]
    congr 1
    apply List.filter_congr
    intro bound _
    simp [eq_comm]

theorem expansion_eq_result {sources : List BoundSource}
    (distinct : (sources.map BoundSource.alias).Nodup) :
    expansion (.ofSources sources false) = Projection.result sources := by
  funext item
  cases item with
  | single expr name => rfl
  | star wanted =>
    have several : (Scope.ofSources sources false).isJoin = decide (1 < sources.length) :=
      Scope.isJoin_ofSources distinct
    simp only [expansion, starItems, entriesOf_ofSources distinct, several, List.flatMap_map,
      Projection.result, starItem, starName, outputName, decide_eq_true_eq]

theorem select_of_bindsAll {sources : List BoundSource} {keys : List BoundJoin}
    (bindsAll : BindsAll analyzer query sources keys) :
    (analysisOf analyzer query sources keys).select =
      query.select.flatMap (Projection.result sources) := by
  rw [← expansion_eq_result bindsAll.nodup_aliases]
  rfl

theorem select_of_analyze (analyzed : analyzer.analyze query sink = .ok a) :
    a.select = query.select.flatMap (Projection.result a.sources) := by
  obtain ⟨sources, keys, bindsAll, _, entered⟩ := analyze_eq_ok_iff.mp analyzed
  obtain ⟨_, _, rfl⟩ := sinkClause_eq_ok rfl entered
  exact select_of_bindsAll bindsAll

/-- An analysis is a translation of its query. -/
theorem translates_of_analyze (analyzed : analyzer.analyze query sink = .ok a) :
    Translates analyzer query sink a := by
  have select := select_of_analyze analyzed
  obtain ⟨sources, keys, bindsAll, _, entered⟩ := analyze_eq_ok_iff.mp analyzed
  obtain ⟨properties, place, rfl⟩ := sinkClause_eq_ok rfl entered
  refine ⟨bindsAll.entries, select, rfl, rfl, rfl, rfl, rfl, rfl, rfl, ?_⟩
  intro noSink
  subst noSink
  cases entered
  exact ⟨rfl, rfl⟩

/-- `SELECT ITEMS.*, ITEM AS WHAT FROM ORDERS LEFT JOIN ITEMS ON ID = ITEM LIMIT 5`. -/
def firstItems : Query :=
  { ordersWithItems with
    select := [.star (some ⟨"ITEMS"⟩), .single (.column (.unqualified ⟨"ITEM"⟩)) (some ⟨"WHAT"⟩)]
    limit := some 5 }

theorem translates_firstItems :
    ∃ a, shop.analyze firstItems none = .ok a ∧ Translates shop firstItems none a ∧
      a.select = [.single (.column (.qualified ⟨"ITEMS"⟩ ⟨"ID"⟩)) (some ⟨"ITEMS_ID"⟩),
        .single (.column (.unqualified ⟨"ITEM"⟩)) (some ⟨"WHAT"⟩)] := by
  have analyzed : shop.analyze firstItems none = .ok _ := rfl
  exact ⟨_, analyzed, translates_of_analyze analyzed, rfl⟩

end Analyzer

end StreamQuery
