import StreamQuery.Proofs.Clauses

/-! # Every analysis is complete

An analysis can refuse an edit because of its own state: a join before its source, a scope without
sources, a clause that is set twice. The walk through a query never runs into these refusals. Its joins
and sources stay in step, and it comes to each clause once; so a query fails only with errors about
the query, and one that succeeds has all of its joins and sources.
-/

set_option autoImplicit false

namespace StreamQuery

def NeverInternal {α : Type} (outcome : Except AnalysisError α) : Prop :=
  OnlyFails (fun error => error.isInternal = false) outcome

namespace Scope

variable {scope : Scope}

theorem neverInternal_resolve (column : ColumnRef) : NeverInternal (scope.resolve column) := by
  unfold resolve
  split
  · split
    · exact .error rfl
    · split
      · exact .ok _ _
      · exact .error rfl
  · split
    · exact .error rfl
    · exact .ok _ _
    · exact .error rfl

theorem neverInternal_check (columns : List ColumnRef) : NeverInternal (scope.check columns) := by
  induction columns with
  | nil => exact .ok _ _
  | cons column rest ih =>
    unfold check
    exact .bind (neverInternal_resolve column) fun _ _ => ih

end Scope

namespace Analyzer

variable {analyzer : Analyzer} {query : Query} {a : Analysis}

/-! ## Sources and joins -/

theorem neverInternal_bindRelation (relation : Relation) :
    NeverInternal (analyzer.bindRelation relation a) := by
  unfold bindRelation
  split
  · exact .error rfl
  · unfold Analysis.bindSource
    split
    · exact .error rfl
    · apply OnlyFails.map
      unfold BoundSource.bind
      split
      · exact .error rfl
      · exact .ok _ _

theorem neverInternal_commonSide {scope : Scope} {next : SourceName} (side : Option Side)
    (columns : List ColumnRef) : NeverInternal (commonSide scope next side columns) := by
  induction columns generalizing side with
  | nil => exact .ok _ _
  | cons column rest ih =>
    unfold commonSide
    apply OnlyFails.bind
    · exact .map _ (Scope.neverInternal_resolve column)
    · intro current _
      cases side with
      | none => exact ih _
      | some previous =>
        dsimp only
        split
        · exact ih _
        · exact .ok _ _

theorem neverInternal_orient {scope : Scope} {join : Join} (first second : Expr) :
    NeverInternal (orient scope join first second) := by
  unfold orient
  apply OnlyFails.bind (neverInternal_commonSide none _)
  intro firstSide _
  apply OnlyFails.bind (neverInternal_commonSide none _)
  intro secondSide _
  split
  · exact .ok _ _
  · exact .ok _ _
  · exact .error rfl

theorem neverInternal_joinKeys {join : Join} (bound : a.sources ≠ []) :
    NeverInternal (joinKeys join a) := by
  unfold joinKeys
  split
  · rw [Analysis.scope_of_ne_nil bound]
    exact neverInternal_orient _ _
  · exact .error rfl

theorem neverInternal_bindJoin {join : Join} (paired : a.joins.length + 1 = a.sources.length) :
    NeverInternal (analyzer.bindJoin a join) := by
  unfold bindJoin
  apply OnlyFails.bind (neverInternal_bindRelation join.relation)
  intro next bindsNext
  obtain ⟨bound, _, _, rfl⟩ := bindRelation_eq_ok_iff.mp bindsNext
  apply OnlyFails.bind (neverInternal_joinKeys (by simp))
  intro key _
  have room : a.joins.length + 1 < (a.sources ++ [bound]).length := by
    rw [List.length_append, List.length_singleton]
    omega
  rw [Analysis.addJoin, if_pos room]
  exact .ok _ _

theorem paired_of_bindJoin {join : Join} {next : Analysis}
    (paired : a.joins.length + 1 = a.sources.length) (joined : analyzer.bindJoin a join = .ok next) :
    next.joins.length + 1 = next.sources.length := by
  obtain ⟨bound, key, _, _, _, rfl⟩ := (bindJoin_eq_ok_iff paired).mp joined
  simp
  omega

theorem neverInternal_bindSources :
    NeverInternal (analyzer.bindSources query (.start query.emission)) := by
  unfold bindSources
  apply OnlyFails.bind (neverInternal_bindRelation query.relation)
  intro next bindsFirst
  obtain ⟨bound, _, _, rfl⟩ := bindRelation_eq_ok_iff.mp bindsFirst
  refine OnlyFails.foldlM (fun a => a.joins.length + 1 = a.sources.length) ?_ ?_ _ ?_
  · intro a paired join
    exact neverInternal_bindJoin paired
  · intro a paired join next joined
    exact paired_of_bindJoin paired joined
  · rfl

/-! ## The clauses -/

theorem neverInternal_expandStar {scope : Scope} (source : Option SourceName) :
    NeverInternal (expandStar scope source) := by
  unfold expandStar
  dsimp only
  split
  · exact .ok _ _
  · split
    · exact .ok _ _
    · exact .error rfl

theorem neverInternal_selectItem (item : Projection) (bound : a.sources ≠ []) :
    NeverInternal (analyzer.selectItem a item) := by
  unfold selectItem
  apply OnlyFails.map
  unfold expand
  split
  · rw [Analysis.scope_of_ne_nil bound]
    exact neverInternal_expandStar _
  · exact .ok _ _

theorem neverInternal_selectItems (bound : a.sources ≠ []) :
    NeverInternal (analyzer.selectItems query a) := by
  refine OnlyFails.foldlM (fun a => a.sources ≠ []) ?_ ?_ _ ?_
  · intro a bound item
    exact neverInternal_selectItem item bound
  · intro a bound item next selected
    obtain ⟨_, rfl⟩ := (selectItem_eq_ok_iff bound).mp selected
    exact bound
  · exact bound

theorem neverInternal_checkColumns {afterGrouping : Bool} (columns : List ColumnRef)
    (bound : a.sources ≠ []) : NeverInternal (checkColumns a afterGrouping columns) := by
  unfold checkColumns
  rw [Analysis.scope_of_ne_nil bound]
  exact Scope.neverInternal_check columns

theorem neverInternal_map_setOnce {α β : Type} {clause : Clause} {place : Option α} (value : α)
    (enter : Option α → β) (unset : place = none) :
    NeverInternal ((Analysis.setOnce clause place value).map enter) := by
  rw [unset]
  exact .ok _ _

theorem neverInternal_checkedClause {clause : Option Expr} {afterGrouping : Bool}
    {enter : Expr → Except AnalysisError Analysis} (bound : a.sources ≠ [])
    (enters : ∀ expr, NeverInternal (enter expr)) :
    NeverInternal (checkedClause a clause afterGrouping enter) := by
  cases clause with
  | none => exact .ok _ _
  | some expr => exact .bind (neverInternal_checkColumns _ bound) fun _ _ => enters expr

theorem neverInternal_appendDistinct (present exprs : List Expr) :
    NeverInternal (Analysis.appendDistinct present exprs) := by
  intro error refused
  obtain ⟨_, _, _, _, _, _, rfl⟩ := appendDistinct_eq_error_iff.mp refused
  rfl

theorem neverInternal_groupingClause (bound : a.sources ≠ []) :
    NeverInternal (groupingClause query a) := by
  unfold groupingClause
  split
  · exact .ok _ _
  · apply OnlyFails.bind (neverInternal_checkColumns _ bound)
    intro _ _
    exact .map _ (neverInternal_appendDistinct _ _)

theorem neverInternal_windowClause (unset : a.window = none) :
    NeverInternal (windowClause query a) := by
  unfold windowClause
  split
  · exact .ok _ _
  · exact neverInternal_map_setOnce _ _ unset

theorem neverInternal_limitClause (unset : a.limit = none) :
    NeverInternal (limitClause query a) := by
  unfold limitClause
  split
  · exact .ok _ _
  · exact neverInternal_map_setOnce _ _ unset

theorem neverInternal_sinkClause {sink : Option Sink} (bound : a.sources ≠ [])
    (unset : a.sink = none) : NeverInternal (analyzer.sinkClause sink a) := by
  cases sink with
  | none => exact .ok _ _
  | some target =>
    unfold sinkClause
    apply OnlyFails.bind
    · unfold sinkTopic
      split
      · split
        · rename_i unbound
          exact absurd unbound bound
        · exact .ok _ _
      · split
        · exact .error rfl
        · exact .ok _ _
    · intro topic _
      exact neverInternal_map_setOnce _ _ unset

/-! ## The whole walk -/

theorem neverInternal_analyzeQuery : NeverInternal (analyzer.analyzeQuery query) := by
  unfold analyzeQuery
  apply OnlyFails.bind neverInternal_bindSources
  intro _ walked
  obtain ⟨sources, keys, bindsAll, rfl⟩ := bindSources_eq_ok_iff.mp walked
  have bound := bindsAll.sources_ne_nil
  apply OnlyFails.bind (neverInternal_selectItems (by exact bound))
  intro _ selected
  obtain ⟨_, rfl⟩ := (foldlM_selectItem_eq_ok_iff (by exact bound)).mp selected
  apply OnlyFails.bind
    (neverInternal_checkedClause (by exact bound) fun _ => neverInternal_map_setOnce _ _ rfl)
  intro _ filtered
  obtain ⟨_, rfl⟩ := (filterClause_eq_ok_iff (by exact bound) rfl).mp filtered
  apply OnlyFails.bind (neverInternal_groupingClause (by exact bound))
  intro _ grouped
  obtain ⟨_, rfl⟩ := (groupingClause_eq_ok_iff (by exact bound) rfl).mp grouped
  apply OnlyFails.bind (neverInternal_windowClause rfl)
  intro _ windowed
  obtain rfl := (windowClause_eq_ok_iff rfl).mp windowed
  apply OnlyFails.bind
    (neverInternal_checkedClause (by exact bound) fun _ => neverInternal_map_setOnce _ _ rfl)
  intro _ havingChecked
  obtain ⟨_, rfl⟩ := (havingClause_eq_ok_iff (by exact bound) rfl).mp havingChecked
  apply OnlyFails.bind (.bind (neverInternal_checkColumns _ (by exact bound)) fun _ _ => .ok _ _)
  intro _ selectChecked
  obtain ⟨_, rfl⟩ := (checkSelect_eq_ok_iff (by exact bound)).mp selectChecked
  apply OnlyFails.bind
    (neverInternal_checkedClause (by exact bound) fun _ => neverInternal_map_setOnce _ _ rfl)
  intro _ partitioned
  obtain ⟨_, rfl⟩ := (partitioningClause_eq_ok_iff (by exact bound) rfl).mp partitioned
  exact neverInternal_limitClause rfl

theorem neverInternal_analyze {sink : Option Sink} :
    NeverInternal (analyzer.analyze query sink) := by
  unfold analyze
  apply OnlyFails.bind neverInternal_analyzeQuery
  intro _ analyzed
  obtain ⟨sources, keys, bindsAll, _, rfl⟩ := analyzeQuery_eq_ok_iff.mp analyzed
  exact neverInternal_sinkClause bindsAll.sources_ne_nil rfl

/-- An analysis has every join of its query and the sources that they join, and both of its scopes. -/
structure Complete (query : Query) (a : Analysis) : Prop where
  joins : a.joins.length = query.joins.length
  sources : a.sources.length = query.joins.length + 1
  scopes : ∀ afterGrouping, ∃ scope, a.scope afterGrouping = .ok scope ∧ scope.isJoin = a.isJoin

theorem complete_of_bindsAll {sources : List BoundSource} {keys : List BoundJoin}
    (bindsAll : BindsAll analyzer query sources keys) (isSources : a.sources = sources)
    (isKeys : a.joins = keys) : Complete query a := by
  subst isSources isKeys
  refine ⟨bindsAll.length_keys, bindsAll.length_sources, ?_⟩
  intro afterGrouping
  refine ⟨_, Analysis.scope_of_ne_nil bindsAll.sources_ne_nil afterGrouping, ?_⟩
  rw [Scope.isJoin_ofSources bindsAll.nodup_aliases, ← bindsAll.isEmpty_keys, Analysis.isJoin]

/-- A query either fails with an error that is not internal or gives a complete analysis. -/
theorem analyze_complete (analyzer : Analyzer) (query : Query) (sink : Option Sink) :
    match analyzer.analyze query sink with
    | .error error => error.isInternal = false
    | .ok a => Complete query a := by
  cases outcome : analyzer.analyze query sink with
  | error error => exact neverInternal_analyze error outcome
  | ok a =>
    obtain ⟨sources, keys, bindsAll, _, entered⟩ := analyze_eq_ok_iff.mp outcome
    obtain ⟨_, _, rfl⟩ := sinkClause_eq_ok rfl entered
    exact complete_of_bindsAll bindsAll rfl rfl

end Analyzer

end StreamQuery
