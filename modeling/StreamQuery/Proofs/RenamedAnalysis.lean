import StreamQuery.Proofs.RenamedSources
import StreamQuery.Proofs.Translation

/-! # Analysis under new names

The aliases of a query matter only as far as they are equal or different. Under new names a query is
refused for the same kind of reason, or it has the same analysis under the new names; nothing else
changes but the names of star columns in the result of a join, which start with an alias.
-/

set_option autoImplicit false

namespace StreamQuery

/-- An item of the result under new names. If it stands for a star, and there are several sources, the
name of its column starts with the new alias. -/
def Projection.renameResult (newName : SourceName → SourceName) (several : Bool) :
    Projection → Projection → Projection
  | .star _, .single (.column ⟨some source, name⟩) output =>
    .single (.column ⟨some (newName source), name⟩)
      (if several then some (.ofString ((newName source).text ++ "_" ++ name.text)) else output)
  | _, item => item.rename newName

/-- The analysis `b` of a query under new names is the analysis `a` of the query under these names.
The items of the result are taken together with the item of the query that they stand for. -/
structure Analysis.Renames (newName : SourceName → SourceName) (query : Query) (a b : Analysis) :
    Prop where
  written : a.select = query.select.flatMap fun item => item.result a.sources
  renamed : b = a.rename newName (query.select.flatMap fun item =>
    (item.result a.sources).map (item.renameResult newName a.isJoin))

namespace Analyzer

variable {analyzer : Analyzer} {newName : SourceName → SourceName} {a b : Analysis}
  {scope renamed : Scope} {query : Query}

/-! ## The select list -/

/-- Items that mention the same columns and calls under new names. -/
structure ItemsRenamed (newName : SourceName → SourceName) (items renamed : List Projection) :
    Prop where
  columns : renamed.flatMap Projection.columns =
    (items.flatMap Projection.columns).map (ColumnRef.rename newName)
  calls : renamed.flatMap Projection.calls =
    (items.flatMap Projection.calls).map (Call.rename newName)

theorem itemsRenamed_singleton (item : Projection) :
    ItemsRenamed newName [item] [item.rename newName] := by
  refine ⟨?_, ?_⟩
  · rw [List.flatMap_singleton, List.flatMap_singleton, item.columns_rename]
  · rw [List.flatMap_singleton, List.flatMap_singleton, item.calls_rename]

theorem columns_starItems (scope : Scope) (source : Option SourceName) :
    (starItems scope source).flatMap Projection.columns =
      (scope.entriesOf source).flatMap fun entry =>
        entry.2.valueColumns.map fun column => .qualified entry.1 column.name := by
  simp only [starItems, List.map_eq_flatMap, List.flatMap_assoc, List.flatMap_singleton,
    columns_starItem]

theorem itemsRenamed_starItems (injective : Function.Injective newName)
    (renames : scope.RenamedBy newName renamed) (source : Option SourceName) :
    ItemsRenamed newName (starItems scope source) (starItems renamed (source.map newName)) := by
  refine ⟨?_, ?_⟩
  · rw [columns_starItems, columns_starItems, renames.entriesOf injective, List.flatMap_map,
      List.map_flatMap]
    simp only [List.map_map]
    rfl
  · rw [calls_starItems, calls_starItems, List.map_nil]

theorem expand_rename (injective : Function.Injective newName) (item : Projection)
    (renames : a.RenamedBy newName b) :
    Alike AnalysisError.SameKind (ItemsRenamed newName) (expand a item)
      (expand b (item.rename newName)) := by
  obtain ⟨select, _, rfl⟩ := renames
  cases item with
  | single expr name => exact .ok (itemsRenamed_singleton (.single expr name))
  | star source =>
    apply Alike.bind (Analysis.scope_rename injective select a false)
    intro scope renamed renames
    have items := itemsRenamed_starItems injective renames source
    cases source with
    | none => exact .ok items
    | some source =>
      have known := renames.schema? injective source
      by_cases isKnown : (scope.schema? source).isSome
      · simp only [expandStar, Option.map_some, known, if_pos isKnown]
        exact .ok items
      · simp only [expandStar, Option.map_some, known, if_neg isKnown]
        exact .error rfl

theorem recorded_rename {items items' : List Projection}
    (itemsRenamed : ItemsRenamed newName items items') (renames : a.RenamedBy newName b) :
    (recorded analyzer a items).RenamedBy newName (recorded analyzer b items') := by
  obtain ⟨select, columns, rfl⟩ := renames
  obtain ⟨itemColumns, itemCalls⟩ := itemsRenamed
  have names : (items'.flatMap Projection.columns).map (·.name) =
      (items.flatMap Projection.columns).map (·.name) := by
    rw [itemColumns, List.map_map]
    rfl
  have tableCalls : ((items'.flatMap Projection.calls).filter
      fun call => call.name ∈ analyzer.tableFunctions) =
      ((items.flatMap Projection.calls).filter
        fun call => call.name ∈ analyzer.tableFunctions).map (Call.rename newName) := by
    rw [itemCalls, List.filter_map]
    rfl
  refine ⟨select ++ items', ?_, ?_⟩
  · rw [List.flatMap_append, columns, itemColumns, ← List.map_append, ← List.flatMap_append]
    rfl
  · simp only [recorded, Analysis.rename, names, tableCalls, List.map_append]

theorem selectItems_rename (injective : Function.Injective newName) (query : Query)
    (renames : a.RenamedBy newName b) :
    Alike AnalysisError.SameKind (Analysis.RenamedBy newName) (analyzer.selectItems query a)
      (analyzer.selectItems (query.rename newName) b) := by
  apply Alike.foldlM (Projection.rename newName) _ query.select renames
  intro a b renames item
  apply Alike.map (expand_rename injective item renames)
  intro items items' itemsRenamed
  rw [foldl_recordItem, foldl_recordItem]
  exact recorded_rename itemsRenamed renames

/-! ## The other clauses -/

theorem checkColumns_rename (injective : Function.Injective newName) (select : List Projection)
    (afterGrouping : Bool) (columns : List ColumnRef) :
    Alike AnalysisError.SameKind Eq (checkColumns a afterGrouping columns)
      (checkColumns (a.rename newName select) afterGrouping
        (columns.map (ColumnRef.rename newName))) := by
  apply Alike.bind (Analysis.scope_rename injective select a afterGrouping)
  intro scope renamed renames
  exact renames.check injective columns

theorem checkedClause_rename (injective : Function.Injective newName) (clause : Option Expr)
    (afterGrouping : Bool) {enter enter' : Expr → Except AnalysisError Analysis}
    (renames : a.RenamedBy newName b)
    (enters : ∀ expr, Alike AnalysisError.SameKind (Analysis.RenamedBy newName) (enter expr)
      (enter' (expr.rename newName))) :
    Alike AnalysisError.SameKind (Analysis.RenamedBy newName)
      (checkedClause a clause afterGrouping enter)
      (checkedClause b (clause.map (Expr.rename newName)) afterGrouping enter') := by
  cases clause with
  | none => exact .ok renames
  | some expr =>
    obtain ⟨select, _, rfl⟩ := renames
    have checked : Alike AnalysisError.SameKind Eq (checkColumns a afterGrouping expr.columns)
        (checkColumns (a.rename newName select) afterGrouping (expr.rename newName).columns) := by
      rw [expr.columns_rename]
      exact checkColumns_rename injective select afterGrouping expr.columns
    apply Alike.bind checked
    intro _ _ _
    exact enters expr

theorem filterClause_rename (injective : Function.Injective newName) (query : Query)
    (renames : a.RenamedBy newName b) :
    Alike AnalysisError.SameKind (Analysis.RenamedBy newName) (filterClause query a)
      (filterClause (query.rename newName) b) := by
  apply checkedClause_rename injective query.filter false renames
  intro expr
  obtain ⟨select, columns, rfl⟩ := renames
  exact alike_map_setOnce rfl Option.isSome_map ⟨select, columns, rfl⟩

theorem havingClause_rename (injective : Function.Injective newName) (query : Query)
    (renames : a.RenamedBy newName b) :
    Alike AnalysisError.SameKind (Analysis.RenamedBy newName) (havingClause query a)
      (havingClause (query.rename newName) b) := by
  apply checkedClause_rename injective query.having true renames
  intro expr
  obtain ⟨select, columns, rfl⟩ := renames
  exact alike_map_setOnce rfl Option.isSome_map ⟨select, columns, rfl⟩

theorem partitioningClause_rename (injective : Function.Injective newName) (query : Query)
    (renames : a.RenamedBy newName b) :
    Alike AnalysisError.SameKind (Analysis.RenamedBy newName) (partitioningClause query a)
      (partitioningClause (query.rename newName) b) := by
  apply checkedClause_rename injective query.partitioning false renames
  intro expr
  obtain ⟨select, columns, rfl⟩ := renames
  exact alike_map_setOnce rfl Option.isSome_map ⟨select, columns, rfl⟩

theorem appendDistinct_rename (injective : Function.Injective newName) (present exprs : List Expr) :
    Alike AnalysisError.SameKind (fun after after' => after' = after.map (Expr.rename newName))
      (Analysis.appendDistinct present exprs)
      (Analysis.appendDistinct (present.map (Expr.rename newName))
        (exprs.map (Expr.rename newName))) := by
  induction exprs generalizing present with
  | nil => exact .ok rfl
  | cons expr rest ih =>
    rw [List.map_cons, Analysis.appendDistinct, Analysis.appendDistinct,
      Expr.isIn_rename injective]
    by_cases repeated : expr.isIn present = true
    · rw [if_pos repeated, if_pos repeated]
      exact .error rfl
    · rw [if_neg repeated, if_neg repeated]
      have later := ih (present ++ [expr])
      rwa [List.map_append, List.map_singleton] at later

theorem groupingClause_rename (injective : Function.Injective newName) (query : Query)
    (renames : a.RenamedBy newName b) :
    Alike AnalysisError.SameKind (Analysis.RenamedBy newName) (groupingClause query a)
      (groupingClause (query.rename newName) b) := by
  have grouping : (query.rename newName).grouping =
      query.grouping.map (Expr.rename newName) := rfl
  unfold groupingClause
  rw [grouping]
  cases query.grouping with
  | nil => exact .ok renames
  | cons first rest =>
    obtain ⟨select, columns, rfl⟩ := renames
    have checked : Alike AnalysisError.SameKind Eq
        (checkColumns a false ((first :: rest).flatMap Expr.columns))
        (checkColumns (a.rename newName select) false
          (((first :: rest).map (Expr.rename newName)).flatMap Expr.columns)) := by
      have mentioned : ((first :: rest).map (Expr.rename newName)).flatMap Expr.columns =
          ((first :: rest).flatMap Expr.columns).map (ColumnRef.rename newName) := by
        simp only [List.flatMap_map, List.map_flatMap, Expr.columns_rename]
      rw [mentioned]
      exact checkColumns_rename injective select false _
    apply Alike.bind checked
    intro _ _ _
    apply Alike.map (appendDistinct_rename injective a.grouping (first :: rest))
    rintro after _ rfl
    exact ⟨select, columns, rfl⟩

theorem windowClause_rename (query : Query) (renames : a.RenamedBy newName b) :
    Alike AnalysisError.SameKind (Analysis.RenamedBy newName) (windowClause query a)
      (windowClause (query.rename newName) b) := by
  have window : (query.rename newName).window = query.window := rfl
  unfold windowClause
  rw [window]
  cases query.window with
  | none => exact .ok renames
  | some window =>
    obtain ⟨select, columns, rfl⟩ := renames
    exact alike_map_setOnce rfl rfl ⟨select, columns, rfl⟩

theorem limitClause_rename (query : Query) (renames : a.RenamedBy newName b) :
    Alike AnalysisError.SameKind (Analysis.RenamedBy newName) (limitClause query a)
      (limitClause (query.rename newName) b) := by
  have limit : (query.rename newName).limit = query.limit := rfl
  unfold limitClause
  rw [limit]
  cases query.limit with
  | none => exact .ok renames
  | some limit =>
    obtain ⟨select, columns, rfl⟩ := renames
    exact alike_map_setOnce rfl rfl ⟨select, columns, rfl⟩

theorem checkSelect_rename (injective : Function.Injective newName)
    (renames : a.RenamedBy newName b) :
    Alike AnalysisError.SameKind (Analysis.RenamedBy newName) (checkSelect a) (checkSelect b) := by
  obtain ⟨select, columns, rfl⟩ := renames
  have grouped : (a.rename newName select).grouping.isEmpty = a.grouping.isEmpty := by
    simp only [Analysis.rename, List.isEmpty_map]
  have selected : (a.rename newName select).select = select := rfl
  unfold checkSelect
  rw [grouped, selected, columns]
  apply Alike.bind (checkColumns_rename injective select _ _)
  intro _ _ _
  exact .ok ⟨select, columns, rfl⟩

/-! ## The sink -/

theorem sinkTopic_rename (select : List Projection) (sink : Sink) :
    analyzer.sinkTopic (a.rename newName select) sink = analyzer.sinkTopic a sink := by
  have grouped : (a.rename newName select).grouping.isEmpty = a.grouping.isEmpty := by
    simp only [Analysis.rename, List.isEmpty_map]
  have window : (a.rename newName select).window = a.window := rfl
  have sources : (a.rename newName select).sources =
      a.sources.map (BoundSource.rename newName) := rfl
  unfold sinkTopic
  rw [sources]
  cases a.sources with
  | nil => rfl
  | cons first rest =>
    have sameSource : (first.rename newName).source = first.source := rfl
    simp only [List.map_cons, sameSource, newTopic, resultKeyFormat, window, grouped]

theorem sinkClause_rename (sink : Option Sink) (renames : a.RenamedBy newName b) :
    Alike AnalysisError.SameKind (Analysis.RenamedBy newName) (analyzer.sinkClause sink a)
      (analyzer.sinkClause sink b) := by
  cases sink with
  | none => exact .ok renames
  | some sink =>
    obtain ⟨select, columns, rfl⟩ := renames
    simp only [sinkClause, sinkTopic_rename]
    cases analyzer.sinkTopic a sink with
    | error error => exact .error rfl
    | ok topic => exact alike_map_setOnce rfl rfl ⟨select, columns, rfl⟩

/-! ## The whole walk -/

theorem start_renamedBy (emission : Emission) :
    (Analysis.start emission).RenamedBy newName (.start emission) :=
  ⟨[], rfl, rfl⟩

theorem alike_analyzeQuery (injective : Function.Injective newName) (query : Query) :
    Alike AnalysisError.SameKind (Analysis.RenamedBy newName) (analyzer.analyzeQuery query)
      (analyzer.analyzeQuery (query.rename newName)) := by
  -- `RenamedBy` holds of the two empty analyses, and each clause carries it on or ends both walks.
  apply Alike.bind (bindSources_rename injective query (start_renamedBy query.emission))
  intro _ _ bound
  apply Alike.bind (selectItems_rename injective query bound)
  intro _ _ selected
  apply Alike.bind (filterClause_rename injective query selected)
  intro _ _ filtered
  apply Alike.bind (groupingClause_rename injective query filtered)
  intro _ _ grouped
  apply Alike.bind (windowClause_rename query grouped)
  intro _ _ windowed
  apply Alike.bind (havingClause_rename injective query windowed)
  intro _ _ havingChecked
  apply Alike.bind (checkSelect_rename injective havingChecked)
  intro _ _ selectChecked
  apply Alike.bind (partitioningClause_rename injective query selectChecked)
  intro _ _ partitioned
  exact limitClause_rename query partitioned

theorem alike_analyze (injective : Function.Injective newName) (query : Query)
    (sink : Option Sink) :
    Alike AnalysisError.SameKind (Analysis.RenamedBy newName) (analyzer.analyze query sink)
      (analyzer.analyze (query.rename newName) sink) := by
  apply Alike.bind (alike_analyzeQuery injective query)
  intro _ _ analyzed
  exact sinkClause_rename sink analyzed

/-! ## The select list under new names -/

theorem result_rename (injective : Function.Injective newName) (sources : List BoundSource)
    (item : Projection) :
    (item.rename newName).result (sources.map (BoundSource.rename newName)) =
      (item.result sources).map (item.renameResult newName (decide (1 < sources.length))) := by
  cases item with
  | single expr name => rfl
  | star source =>
    have chosen : (fun bound : BoundSource => decide (source.map newName = none ∨
        source.map newName = some (bound.rename newName).alias)) =
        fun bound => decide (source = none ∨ source = some bound.alias) := by
      funext bound
      cases source with
      | none => simp
      | some source => simp [BoundSource.rename, injective.eq_iff]
    have items : ∀ bound column,
        Projection.single (.column (.qualified (newName bound.alias) column.name)) (some
          (outputName (sources.map (BoundSource.rename newName)) (bound.rename newName) column)) =
        Projection.renameResult newName (decide (1 < sources.length)) (.star source)
          (.single (.column (.qualified bound.alias column.name))
            (some (outputName sources bound column))) := by
      intro bound column
      by_cases several : 1 < sources.length
      · simp [Projection.renameResult, ColumnRef.qualified, outputName, several, BoundSource.rename]
      · simp [Projection.renameResult, ColumnRef.qualified, outputName, several]
    simp only [Projection.rename, Projection.result, List.filter_map, List.flatMap_map,
      List.map_flatMap, List.map_map, Function.comp_def, chosen, ← items]
    rfl

theorem isJoin_of_analyze {sink : Option Sink} (analyzed : analyzer.analyze query sink = .ok a) :
    a.isJoin = decide (1 < a.sources.length) :=
  (bindsAll_of_analyze analyzed).isEmpty_keys

/-- Under new names that keep names apart, a query has the same analysis under these names, or it is
refused for the same kind of reason. -/
theorem analyze_rename (analyzer : Analyzer) (query : Query) (sink : Option Sink)
    (injective : Function.Injective newName) :
    Alike AnalysisError.SameKind (Analysis.Renames newName query) (analyzer.analyze query sink)
      (analyzer.analyze (query.rename newName) sink) := by
  apply Alike.imp (alike_analyze injective query sink)
  intro a b analyzed analyzedRenamed renames
  -- The walk leaves the select list of `b` open; it is read off the query under new names.
  obtain ⟨select, _, rfl⟩ := renames
  refine ⟨select_of_analyze analyzed, ?_⟩
  have written : select = (query.select.map (Projection.rename newName)).flatMap
      (Projection.result (a.sources.map (BoundSource.rename newName))) :=
    select_of_analyze analyzedRenamed
  rw [written, List.flatMap_map, isJoin_of_analyze analyzed]
  simp only [result_rename injective]

def exchanged (name : SourceName) : SourceName :=
  if name = ⟨"ORDERS"⟩ then ⟨"ITEMS"⟩ else if name = ⟨"ITEMS"⟩ then ⟨"ORDERS"⟩ else name

theorem exchanged_injective : Function.Injective exchanged := by
  have involutive : ∀ name, exchanged (exchanged name) = name := by
    intro name
    by_cases orders : name = ⟨"ORDERS"⟩
    · subst orders
      rfl
    · by_cases items : name = ⟨"ITEMS"⟩
      · subst items
        rfl
      · simp only [exchanged, if_neg orders, if_neg items]
  intro first second equal
  rw [← involutive first, equal, involutive]

theorem analyze_rename_exchanged :
    Function.Injective exchanged ∧
      Alike AnalysisError.SameKind (Analysis.Renames exchanged ordersWithItems)
        (shop.analyze ordersWithItems none)
        (shop.analyze (ordersWithItems.rename exchanged) none) ∧
      (shop.analyze (ordersWithItems.rename exchanged) none).map Analysis.select =
        .ok [.single (.column (.qualified ⟨"ITEMS"⟩ ⟨"ITEM"⟩)) (some ⟨"ITEMS_ITEM"⟩),
          .single (.column (.qualified ⟨"ORDERS"⟩ ⟨"ID"⟩)) (some ⟨"ORDERS_ID"⟩)] :=
  ⟨exchanged_injective, analyze_rename shop ordersWithItems none exchanged_injective, rfl⟩

end Analyzer

end StreamQuery
