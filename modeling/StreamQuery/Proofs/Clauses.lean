import StreamQuery.Proofs.JoinedSources

/-! # The clauses of a query

Each clause is checked in the scope of the bound sources and then entered in a place of its own. So
an analysis that succeeds is known in full from the query, its sources and its join keys, and it
succeeds exactly if the sources can be bound and `ClausesHold`.
-/

set_option autoImplicit false

namespace StreamQuery.Analyzer

variable {analyzer : Analyzer} {query : Query} {a next : Analysis}

theorem checkColumns_eq_ok_iff {afterGrouping : Bool} {columns : List ColumnRef}
    (bound : a.sources ≠ []) :
    checkColumns a afterGrouping columns = .ok () ↔
      ∀ column ∈ columns,
        (Scope.ofSources a.sources (afterGrouping && a.window.isSome)).Resolves column := by
  simp only [checkColumns, Analysis.scope_of_ne_nil bound]
  exact Scope.check_eq_ok_iff

/-! ## The select list -/

/-- The value columns of one source, or of all, as items of a select list. -/
def starItems (scope : Scope) (source : Option SourceName) : List Projection :=
  (scope.entriesOf source).flatMap fun entry =>
    entry.2.valueColumns.map fun column => starItem scope.isJoin entry.1 column.name

theorem columns_starItem (isJoin : Bool) (source : SourceName) (name : ColumnName) :
    (starItem isJoin source name).columns = [.qualified source name] := rfl

theorem calls_starItem (isJoin : Bool) (source : SourceName) (name : ColumnName) :
    (starItem isJoin source name).calls = [] := rfl

theorem calls_starItems (scope : Scope) (source : Option SourceName) :
    (starItems scope source).flatMap Projection.calls = [] := by
  rw [List.flatMap_eq_nil_iff]
  intro item isItem
  simp only [starItems, List.mem_flatMap, List.mem_map] at isItem
  obtain ⟨entry, _, column, _, rfl⟩ := isItem
  exact calls_starItem scope.isJoin entry.1 column.name

/-- The items that an item of a select list stands for. -/
def expansion (scope : Scope) : Projection → List Projection
  | .star source => starItems scope source
  | .single expr name => [.single expr name]

def recorded (analyzer : Analyzer) (a : Analysis) (items : List Projection) : Analysis :=
  { a with
    select := a.select ++ items
    selectNames :=
      ((items.flatMap Projection.columns).map (·.name)).foldl Analysis.withName a.selectNames
    tableCalls := a.tableCalls ++
      (items.flatMap Projection.calls).filter fun call => call.name ∈ analyzer.tableFunctions }

theorem foldl_recordItem (analyzer : Analyzer) (a : Analysis) (items : List Projection) :
    items.foldl analyzer.recordItem a = recorded analyzer a items := by
  induction items generalizing a with
  | nil => simp [recorded]
  | cons item rest ih =>
    rw [List.foldl_cons, ih]
    simp [recorded, recordItem, Analysis.addSelect, Analysis.addTableCalls,
      Analysis.addSelectNames]

theorem recorded_recorded (analyzer : Analyzer) (a : Analysis) (first second : List Projection) :
    recorded analyzer (recorded analyzer a first) second = recorded analyzer a (first ++ second) := by
  rw [← foldl_recordItem, ← foldl_recordItem, ← foldl_recordItem, List.foldl_append]

theorem expandStar_eq_ok_iff {scope : Scope} {source : Option SourceName}
    {items : List Projection} :
    expandStar scope source = .ok items ↔
      (∀ name ∈ source, (scope.schema? name).isSome) ∧ items = starItems scope source := by
  cases source with
  | none =>
    rw [expandStar, ok_eq_ok_iff]
    simp [starItems]
  | some name =>
    by_cases known : (scope.schema? name).isSome
    · simp only [expandStar, if_pos known, ok_eq_ok_iff]
      simp [starItems, known]
    · simp [expandStar, known]

theorem expand_eq_ok_iff {item : Projection} {items : List Projection} (bound : a.sources ≠ []) :
    expand a item = .ok items ↔
      (∀ name, item = .star (some name) →
        ((Scope.ofSources a.sources false).schema? name).isSome) ∧
      items = expansion (.ofSources a.sources false) item := by
  cases item with
  | single expr name =>
    rw [expand, ok_eq_ok_iff]
    · simp [expansion]
    · intro source equal
      cases equal
  | star source =>
    have inScope : expand a (.star source) = expandStar (.ofSources a.sources false) source := by
      simp only [expand, Analysis.scope_of_ne_nil bound]
      rfl
    rw [inScope, expandStar_eq_ok_iff]
    simp [expansion]

theorem selectItem_eq_ok_iff {item : Projection} (bound : a.sources ≠ []) :
    analyzer.selectItem a item = .ok next ↔
      (∀ name, item = .star (some name) →
        ((Scope.ofSources a.sources false).schema? name).isSome) ∧
      next = recorded analyzer a (expansion (.ofSources a.sources false) item) := by
  simp only [selectItem, map_eq_ok_iff, expand_eq_ok_iff bound, foldl_recordItem]
  constructor
  · intro given
    obtain ⟨_, ⟨known, rfl⟩, rfl⟩ := given
    exact ⟨known, rfl⟩
  · intro given
    obtain ⟨known, rfl⟩ := given
    exact ⟨_, ⟨known, rfl⟩, rfl⟩

theorem foldlM_selectItem_eq_ok_iff {items : List Projection} (bound : a.sources ≠ []) :
    items.foldlM analyzer.selectItem a = .ok next ↔
      (∀ name, .star (some name) ∈ items →
        ((Scope.ofSources a.sources false).schema? name).isSome) ∧
      next = recorded analyzer a (items.flatMap (expansion (.ofSources a.sources false))) := by
  induction items generalizing a with
  | nil =>
    rw [List.foldlM_nil, List.flatMap_nil, ← foldl_recordItem]
    change (.ok a : Except AnalysisError Analysis) = .ok next ↔ _
    rw [ok_eq_ok_iff]
    simp
  | cons item rest ih =>
    rw [List.foldlM_cons, bind_eq_ok_iff, List.flatMap_cons, ← recorded_recorded]
    constructor
    · intro given
      obtain ⟨middle, selected, continued⟩ := given
      obtain ⟨known, rfl⟩ := (selectItem_eq_ok_iff bound).mp selected
      obtain ⟨othersKnown, rfl⟩ := (ih (by exact bound)).mp continued
      refine ⟨?_, rfl⟩
      intro name isItem
      rcases List.mem_cons.mp isItem with equal | isLater
      · exact known name equal.symm
      · exact othersKnown name isLater
    · intro given
      obtain ⟨known, rfl⟩ := given
      refine ⟨_, (selectItem_eq_ok_iff bound).mpr ⟨?_, rfl⟩, (ih (by exact bound)).mpr ⟨?_, rfl⟩⟩
      · intro name equal
        exact known name (equal ▸ List.mem_cons_self)
      · intro name isLater
        exact known name (List.mem_cons_of_mem item isLater)

/-! ## The other clauses -/

theorem map_setOnce_eq_ok_iff {α β : Type} {clause : Clause} {place : Option α} {value : α}
    {enter : Option α → β} {result : β} (unset : place = none) :
    (Analysis.setOnce clause place value).map enter = .ok result ↔ result = enter (some value) := by
  simp only [map_eq_ok_iff, Analysis.setOnce_eq_ok_iff, unset, true_and, exists_eq_left]

theorem alike_map_setOnce {α β γ δ : Type} {sameError : AnalysisError → AnalysisError → Prop}
    {related : γ → δ → Prop} {clause : Clause} {place : Option α} {place' : Option β} {value : α}
    {value' : β} {enter : Option α → γ} {enter' : Option β → δ}
    (refused : sameError (.clauseAlreadySet clause) (.clauseAlreadySet clause))
    (filled : place'.isSome = place.isSome)
    (entered : related (enter (some value)) (enter' (some value'))) :
    Alike sameError related ((Analysis.setOnce clause place value).map enter)
      ((Analysis.setOnce clause place' value').map enter') := by
  cases place with
  | none =>
    obtain rfl : place' = none := by simpa using filled
    exact .ok entered
  | some present =>
    obtain ⟨present', rfl⟩ := Option.isSome_iff_exists.mp filled
    exact .error refused

theorem checkedClause_eq_ok_iff {clause : Option Expr} {afterGrouping : Bool}
    {set : Expr → Except AnalysisError Analysis} (enter : Option Expr → Analysis)
    (bound : a.sources ≠ []) (untouched : enter none = a)
    (sets : ∀ expr, set expr = .ok next ↔ next = enter (some expr)) :
    checkedClause a clause afterGrouping set = .ok next ↔
      (∀ expr ∈ clause, ∀ column ∈ expr.columns,
        (Scope.ofSources a.sources (afterGrouping && a.window.isSome)).Resolves column) ∧
      next = enter clause := by
  cases clause with
  | none =>
    rw [checkedClause, ok_eq_ok_iff, untouched]
    simp
  | some expr => simp [checkedClause, bind_eq_ok_iff, checkColumns_eq_ok_iff bound, sets]

theorem filterClause_eq_ok_iff (bound : a.sources ≠ []) (unset : a.filter = none) :
    filterClause query a = .ok next ↔
      (∀ expr ∈ query.filter, ∀ column ∈ expr.columns,
        (Scope.ofSources a.sources false).Resolves column) ∧
      next = { a with filter := query.filter } :=
  checkedClause_eq_ok_iff (fun place => { a with filter := place }) bound (by rw [← unset])
    fun _ => map_setOnce_eq_ok_iff unset

theorem havingClause_eq_ok_iff (bound : a.sources ≠ []) (unset : a.having = none) :
    havingClause query a = .ok next ↔
      (∀ expr ∈ query.having, ∀ column ∈ expr.columns,
        (Scope.ofSources a.sources a.window.isSome).Resolves column) ∧
      next = { a with having := query.having } :=
  checkedClause_eq_ok_iff (fun place => { a with having := place }) bound (by rw [← unset])
    fun _ => map_setOnce_eq_ok_iff unset

theorem partitioningClause_eq_ok_iff (bound : a.sources ≠ []) (unset : a.partitioning = none) :
    partitioningClause query a = .ok next ↔
      (∀ expr ∈ query.partitioning, ∀ column ∈ expr.columns,
        (Scope.ofSources a.sources false).Resolves column) ∧
      next = { a with partitioning := query.partitioning } :=
  checkedClause_eq_ok_iff (fun place => { a with partitioning := place }) bound (by rw [← unset])
    fun _ => map_setOnce_eq_ok_iff unset

theorem windowClause_eq_ok_iff (unset : a.window = none) :
    windowClause query a = .ok next ↔ next = { a with window := query.window } := by
  unfold windowClause
  cases query.window with
  | none => rw [ok_eq_ok_iff, ← unset]
  | some window => exact map_setOnce_eq_ok_iff unset

theorem limitClause_eq_ok_iff (unset : a.limit = none) :
    limitClause query a = .ok next ↔ next = { a with limit := query.limit } := by
  unfold limitClause
  cases query.limit with
  | none => rw [ok_eq_ok_iff, ← unset]
  | some limit => exact map_setOnce_eq_ok_iff unset

theorem appendDistinct_cons_eq_ok_iff {present rest after : List Expr} {first : Expr} :
    Analysis.appendDistinct present (first :: rest) = .ok after ↔
      first.isIn present = false ∧ Analysis.appendDistinct (present ++ [first]) rest = .ok after := by
  rw [Analysis.appendDistinct]
  cases first.isIn present <;> simp

theorem appendDistinct_eq_ok_iff {present exprs after : List Expr} :
    Analysis.appendDistinct present exprs = .ok after ↔
      ((∀ expr ∈ exprs, expr.isIn present = false) ∧
        exprs.Pairwise fun earlier later => earlier.same later = false) ∧
      after = present ++ exprs := by
  induction exprs generalizing present with
  | nil =>
    rw [Analysis.appendDistinct, ok_eq_ok_iff]
    simp
  | cons expr rest ih =>
    rw [appendDistinct_cons_eq_ok_iff, ih]
    simp only [Expr.isIn_append, Expr.isIn_singleton, Bool.or_eq_false_iff, List.forall_mem_cons,
      List.pairwise_cons, forall_and, List.append_assoc, List.singleton_append, and_assoc]

theorem appendDistinct_eq_error_iff {present exprs : List Expr} {error : AnalysisError} :
    Analysis.appendDistinct present exprs = .error error ↔
      ∃ before expr after, exprs = before ++ expr :: after ∧
        Analysis.appendDistinct present before = .ok (present ++ before) ∧
        expr.isIn (present ++ before) = true ∧ error = .duplicateElement .grouping expr := by
  induction exprs generalizing present with
  | nil => simp [Analysis.appendDistinct]
  | cons first rest ih =>
    rw [Analysis.appendDistinct]
    constructor
    · intro refused
      split at refused
      · rename_i repeated
        cases refused
        exact ⟨[], first, rest, rfl, by simp [Analysis.appendDistinct], by simpa using repeated, rfl⟩
      · rename_i absent
        obtain ⟨before, expr, after, rfl, appended, repeated, rfl⟩ := ih.mp refused
        refine ⟨first :: before, expr, after, rfl, ?_, by simpa using repeated, rfl⟩
        apply appendDistinct_cons_eq_ok_iff.mpr
        exact ⟨Bool.eq_false_iff.mpr absent, by simpa using appended⟩
    · rintro ⟨before, expr, after, split, appended, repeated, rfl⟩
      cases before with
      | nil =>
        obtain ⟨rfl, _⟩ := List.cons.inj split
        exact if_pos (by simpa using repeated)
      | cons second before =>
        obtain ⟨rfl, rfl⟩ := List.cons.inj split
        obtain ⟨absent, others⟩ := appendDistinct_cons_eq_ok_iff.mp appended
        rw [if_neg (Bool.eq_false_iff.mp absent)]
        exact ih.mpr ⟨before, expr, after, rfl, by simpa using others, by simpa using repeated, rfl⟩

theorem groupingClause_eq_ok_iff (bound : a.sources ≠ []) (unset : a.grouping = []) :
    groupingClause query a = .ok next ↔
      ((∀ expr ∈ query.grouping, ∀ column ∈ expr.columns,
          (Scope.ofSources a.sources false).Resolves column) ∧
        query.grouping.Pairwise fun earlier later => earlier.same later = false) ∧
      next = { a with grouping := query.grouping } := by
  have isIn_nil : ∀ expr : Expr, expr.isIn [] = false := fun _ => rfl
  unfold groupingClause
  split
  · rename_i ungrouped
    have untouched : { a with grouping := [] } = a := by rw [← unset]
    rw [ok_eq_ok_iff, ungrouped, untouched]
    simp
  · simp only [bind_eq_ok_iff, checkColumns_eq_ok_iff bound, Bool.false_and, List.mem_flatMap,
      Analysis.addGrouping, map_eq_ok_iff, appendDistinct_eq_ok_iff, unset, isIn_nil,
      List.nil_append]
    constructor
    · intro given
      obtain ⟨_, resolved, _, ⟨⟨_, distinct⟩, rfl⟩, rfl⟩ := given
      exact ⟨⟨fun expr isExpr column isColumn => resolved column ⟨expr, isExpr, isColumn⟩,
        distinct⟩, rfl⟩
    · intro given
      obtain ⟨⟨resolved, distinct⟩, rfl⟩ := given
      refine ⟨(), ?_, _, ⟨⟨fun _ _ => trivial, distinct⟩, rfl⟩, rfl⟩
      rintro column ⟨expr, isExpr, isColumn⟩
      exact resolved expr isExpr column isColumn

/-! ## The columns of the select list

An item of a star was made from a scope before the grouping and is checked in one after it. It needs no
condition of its own, since the scope after the grouping shows no fewer columns. -/

theorem starItems_resolve {sources : List BoundSource} {source : Option SourceName}
    {item : Projection} {column : ColumnRef} (inWindow : Bool)
    (distinct : (sources.map BoundSource.alias).Nodup)
    (isItem : item ∈ starItems (.ofSources sources false) source)
    (isColumn : column ∈ item.columns) : (Scope.ofSources sources inWindow).Resolves column := by
  simp only [starItems, List.mem_flatMap, List.mem_map] at isItem
  obtain ⟨entry, isEntry, shown, isShown, rfl⟩ := isItem
  rw [columns_starItem] at isColumn
  obtain rfl := List.mem_singleton.mp isColumn
  have isAny : entry ∈ (Scope.ofSources sources false).toList := by
    cases source with
    | none => exact isEntry
    | some name => exact (List.mem_filter.mp isEntry).1
  rw [Scope.toList_ofSources distinct, List.mem_map] at isAny
  obtain ⟨bound, isBound, rfl⟩ := isAny
  have found : ((bound.visibleSchema false).find? shown.name).isSome :=
    Schema.find?_isSome_iff.mpr ⟨shown, List.mem_append_right _ isShown, rfl⟩
  refine ⟨bound.alias, Scope.resolve_qualified_eq_ok_iff.mpr ⟨rfl, ?_⟩⟩
  exact (Scope.has_ofSources_iff distinct).mpr
    ⟨bound, isBound, rfl, BoundSource.find?_visibleSchema_isSome inWindow found⟩

theorem expansion_resolves_iff {sources : List BoundSource} {items : List Projection}
    (inWindow : Bool) (distinct : (sources.map BoundSource.alias).Nodup) :
    (∀ column ∈ (items.flatMap (expansion (.ofSources sources false))).flatMap Projection.columns,
        (Scope.ofSources sources inWindow).Resolves column) ↔
      ∀ item ∈ items, ∀ column ∈ item.columns,
        (Scope.ofSources sources inWindow).Resolves column := by
  simp only [List.mem_flatMap]
  constructor
  · intro resolved item isItem column isColumn
    cases item with
    | star source => cases isColumn
    | single expr name =>
      exact resolved column ⟨_, ⟨_, isItem, List.mem_singleton_self _⟩, isColumn⟩
  · rintro resolved column ⟨expanded, ⟨item, isItem, isExpanded⟩, isColumn⟩
    cases item with
    | star source => exact starItems_resolve inWindow distinct isExpanded isColumn
    | single expr name =>
      obtain rfl := List.mem_singleton.mp isExpanded
      exact resolved _ isItem column isColumn

theorem checkSelect_eq_ok_iff (bound : a.sources ≠ []) :
    checkSelect a = .ok next ↔
      (∀ column ∈ a.select.flatMap Projection.columns,
        (Scope.ofSources a.sources (!a.grouping.isEmpty && a.window.isSome)).Resolves column) ∧
      next = a := by
  rw [checkSelect, bind_eq_ok_iff, ← checkColumns_eq_ok_iff bound]
  simp only [ok_eq_ok_iff]
  constructor
  · intro given
    obtain ⟨_, resolved, rfl⟩ := given
    exact ⟨resolved, rfl⟩
  · intro given
    obtain ⟨resolved, rfl⟩ := given
    exact ⟨(), resolved, rfl⟩

/-! ## All clauses -/

/-- What the clauses of a query must meet, given its sources. -/
structure ClausesHold (sources : List BoundSource) (query : Query) : Prop where
  stars : ∀ name, .star (some name) ∈ query.select →
    name ∈ query.relations.map Relation.visibleName
  filter : ∀ expr ∈ query.filter, ∀ column ∈ expr.columns,
    (Scope.ofSources sources false).Resolves column
  grouping : ∀ expr ∈ query.grouping, ∀ column ∈ expr.columns,
    (Scope.ofSources sources false).Resolves column
  groupingDistinct : query.grouping.Pairwise fun earlier later => earlier.same later = false
  having : ∀ expr ∈ query.having, ∀ column ∈ expr.columns,
    (Scope.ofSources sources query.window.isSome).Resolves column
  select : ∀ item ∈ query.select, ∀ column ∈ item.columns,
    (Scope.ofSources sources (!query.grouping.isEmpty && query.window.isSome)).Resolves column
  partitioning : ∀ expr ∈ query.partitioning, ∀ column ∈ expr.columns,
    (Scope.ofSources sources false).Resolves column

def analysisOf (analyzer : Analyzer) (query : Query) (sources : List BoundSource)
    (keys : List BoundJoin) : Analysis :=
  { recorded analyzer { Analysis.start query.emission with sources := sources, joins := keys }
      (query.select.flatMap (expansion (.ofSources sources false))) with
    filter := query.filter
    grouping := query.grouping
    window := query.window
    having := query.having
    partitioning := query.partitioning
    limit := query.limit }

theorem BindsAll.schema?_isSome_iff {sources : List BoundSource} {keys : List BoundJoin}
    {name : SourceName} (bound : BindsAll analyzer query sources keys) :
    ((Scope.ofSources sources false).schema? name).isSome ↔
      name ∈ query.relations.map Relation.visibleName := by
  rw [Scope.schema?_ofSources_isSome_iff bound.nodup_aliases, bound.aliases]

theorem analyzeQuery_eq_ok_iff :
    analyzer.analyzeQuery query = .ok a ↔
      ∃ sources keys, BindsAll analyzer query sources keys ∧ ClausesHold sources query ∧
        a = analysisOf analyzer query sources keys := by
  simp only [analyzeQuery, bind_eq_ok_iff, bindSources_eq_ok_iff]
  constructor
  · intro given
    obtain ⟨_, ⟨sources, keys, bound, rfl⟩, _, selected, _, filtered, _, grouped, _, windowed, _,
      havingChecked, _, selectChecked, _, partitioned, limited⟩ := given
    have nonempty := bound.sources_ne_nil
    obtain ⟨stars, rfl⟩ := (foldlM_selectItem_eq_ok_iff (by exact nonempty)).mp selected
    obtain ⟨filter, rfl⟩ := (filterClause_eq_ok_iff (by exact nonempty) rfl).mp filtered
    obtain ⟨⟨grouping, groupingDistinct⟩, rfl⟩ :=
      (groupingClause_eq_ok_iff (by exact nonempty) rfl).mp grouped
    obtain rfl := (windowClause_eq_ok_iff rfl).mp windowed
    obtain ⟨having, rfl⟩ := (havingClause_eq_ok_iff (by exact nonempty) rfl).mp havingChecked
    obtain ⟨select, rfl⟩ := (checkSelect_eq_ok_iff (by exact nonempty)).mp selectChecked
    obtain ⟨partitioning, rfl⟩ :=
      (partitioningClause_eq_ok_iff (by exact nonempty) rfl).mp partitioned
    obtain rfl := (limitClause_eq_ok_iff rfl).mp limited
    have starNames : ∀ name, .star (some name) ∈ query.select →
        name ∈ query.relations.map Relation.visibleName := by
      intro name isStar
      exact bound.schema?_isSome_iff.mp (stars name isStar)
    have selectItems := (expansion_resolves_iff _ bound.nodup_aliases).mp select
    have hold : ClausesHold sources query :=
      ⟨starNames, filter, grouping, groupingDistinct, having, selectItems, partitioning⟩
    exact ⟨sources, keys, bound, hold, rfl⟩
  · intro given
    obtain ⟨sources, keys, bound, hold, rfl⟩ := given
    have nonempty := bound.sources_ne_nil
    have stars : ∀ name, .star (some name) ∈ query.select →
        ((Scope.ofSources sources false).schema? name).isSome := by
      intro name isStar
      exact bound.schema?_isSome_iff.mpr (hold.stars name isStar)
    have select := (expansion_resolves_iff _ bound.nodup_aliases).mpr hold.select
    refine ⟨_, ⟨sources, keys, bound, rfl⟩, ?_⟩
    refine ⟨_, (foldlM_selectItem_eq_ok_iff (by exact nonempty)).mpr ⟨stars, rfl⟩, ?_⟩
    refine ⟨_, (filterClause_eq_ok_iff (by exact nonempty) rfl).mpr ⟨hold.filter, rfl⟩, ?_⟩
    refine ⟨_, (groupingClause_eq_ok_iff (by exact nonempty) rfl).mpr
      ⟨⟨hold.grouping, hold.groupingDistinct⟩, rfl⟩, ?_⟩
    refine ⟨_, (windowClause_eq_ok_iff rfl).mpr rfl, ?_⟩
    refine ⟨_, (havingClause_eq_ok_iff (by exact nonempty) rfl).mpr ⟨hold.having, rfl⟩, ?_⟩
    refine ⟨_, (checkSelect_eq_ok_iff (by exact nonempty)).mpr ⟨select, rfl⟩, ?_⟩
    refine ⟨_, (partitioningClause_eq_ok_iff (by exact nonempty) rfl).mpr
      ⟨hold.partitioning, rfl⟩, ?_⟩
    exact (limitClause_eq_ok_iff rfl).mpr rfl

/-! ## The sink -/

theorem sinkTopic_eq_ok_iff {sink : Sink} {topic : Topic} :
    analyzer.sinkTopic a sink = .ok topic ↔
      (sink.creates = true ∧
        ∃ first ∈ a.sources.head?, topic = newTopic a sink first.source.topic) ∨
      (sink.creates = false ∧
        ∃ source ∈ analyzer.source? sink.name, topic = source.topic) := by
  unfold sinkTopic
  cases creates : sink.creates with
  | true =>
    cases a.sources with
    | nil => simp
    | cons first rest => simp [eq_comm]
  | false =>
    cases analyzer.source? sink.name with
    | none => simp
    | some source => simp [eq_comm]

theorem sinkClause_some_eq_ok_iff {sink : Sink} (unset : a.sink = none) :
    analyzer.sinkClause (some sink) a = .ok next ↔
      ∃ topic, analyzer.sinkTopic a sink = .ok topic ∧
        next = { a with
          properties := sink.properties
          sink := some (.of sink.name sink.creates topic (wrappings sink.properties)) } := by
  simp only [sinkClause, bind_eq_ok_iff]
  constructor
  · intro given
    obtain ⟨topic, found, set⟩ := given
    exact ⟨topic, found, (map_setOnce_eq_ok_iff (by exact unset)).mp set⟩
  · intro given
    obtain ⟨topic, found, set⟩ := given
    exact ⟨topic, found, (map_setOnce_eq_ok_iff (by exact unset)).mpr set⟩

theorem exists_sinkTopic_iff {sink : Sink} (bound : a.sources ≠ []) :
    (∃ topic, analyzer.sinkTopic a sink = .ok topic) ↔
      (sink.creates = false → (analyzer.source? sink.name).isSome) := by
  simp only [sinkTopic_eq_ok_iff, Option.mem_def]
  cases sink.creates with
  | true =>
    obtain ⟨first, isFirst⟩ : ∃ first, a.sources.head? = some first :=
      ⟨_, List.head?_eq_some_head bound⟩
    simp [isFirst]
  | false =>
    cases analyzer.source? sink.name with
    | none => simp
    | some source => simp

theorem exists_sinkClause_iff {sink : Option Sink} (bound : a.sources ≠ [])
    (unset : a.sink = none) :
    (∃ next, analyzer.sinkClause sink a = .ok next) ↔
      ∀ target ∈ sink, target.creates = false → (analyzer.source? target.name).isSome := by
  cases sink with
  | none => simp [sinkClause]
  | some target =>
    simp only [sinkClause_some_eq_ok_iff unset, Option.mem_def, Option.some.injEq, forall_eq',
      ← exists_sinkTopic_iff bound]
    constructor
    · intro given
      obtain ⟨_, topic, found, _⟩ := given
      exact ⟨topic, found⟩
    · intro given
      obtain ⟨topic, found⟩ := given
      exact ⟨_, topic, found, rfl⟩

theorem sinkClause_eq_ok {sink : Option Sink} (unset : a.sink = none)
    (entered : analyzer.sinkClause sink a = .ok next) :
    ∃ properties place, next = { a with properties := properties, sink := place } := by
  cases sink with
  | none =>
    cases entered
    exact ⟨_, _, rfl⟩
  | some target =>
    obtain ⟨topic, _, rfl⟩ := (sinkClause_some_eq_ok_iff unset).mp entered
    exact ⟨_, _, rfl⟩

theorem analyze_eq_ok_iff {sink : Option Sink} :
    analyzer.analyze query sink = .ok a ↔
      ∃ sources keys, BindsAll analyzer query sources keys ∧ ClausesHold sources query ∧
        analyzer.sinkClause sink (analysisOf analyzer query sources keys) = .ok a := by
  rw [analyze, bind_eq_ok_iff]
  constructor
  · intro given
    obtain ⟨_, analyzed, entered⟩ := given
    obtain ⟨sources, keys, bound, hold, rfl⟩ := analyzeQuery_eq_ok_iff.mp analyzed
    exact ⟨sources, keys, bound, hold, entered⟩
  · intro given
    obtain ⟨sources, keys, bound, hold, entered⟩ := given
    exact ⟨_, analyzeQuery_eq_ok_iff.mpr ⟨sources, keys, bound, hold, rfl⟩, entered⟩

theorem bindsAll_of_analyze {sink : Option Sink} (analyzed : analyzer.analyze query sink = .ok a) :
    BindsAll analyzer query a.sources a.joins := by
  obtain ⟨sources, keys, bound, _, entered⟩ := analyze_eq_ok_iff.mp analyzed
  obtain ⟨_, _, rfl⟩ := sinkClause_eq_ok rfl entered
  exact bound

end StreamQuery.Analyzer
