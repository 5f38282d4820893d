import StreamQuery.Proofs.Clauses
import StreamQuery.Proofs.JoinKeys

/-! # With a window and without one

The clauses behind the window see the bounds of the window as columns. A query that does not mention
these bounds is refused for the same cause with a window and without one, or it has the same analysis,
but for the window and for the keys of a sink that it creates.
-/

set_option autoImplicit false

namespace StreamQuery

/-! ## Resolution under a window

A window flattens the schemas of all sources. This exposes the bounds of the window and nothing else:
a column of another name resolves as it does without the window, to the same source or with the same
error. Only the columns that an error offers instead can be others.
-/

def ColumnName.IsWindowBound (name : ColumnName) : Prop :=
  name = .windowStart ∨ name = .windowEnd

instance (name : ColumnName) : Decidable name.IsWindowBound :=
  inferInstanceAs (Decidable (name = .windowStart ∨ name = .windowEnd))

namespace AnalysisError

/-- The error without the columns that it offers instead of an unknown one. -/
def withoutCandidates : AnalysisError → AnalysisError
  | unknownColumn column _ => unknownColumn column []
  | error => error

/-- Two errors report the same fault of the same things; they may offer different columns. -/
def SameCause (first second : AnalysisError) : Prop :=
  first.withoutCandidates = second.withoutCandidates

theorem SameCause.refl (error : AnalysisError) : SameCause error error := rfl

end AnalysisError

namespace Schema

theorem find?_flattenIf_isSome {schema : Schema} {name : ColumnName} (ordinary : ¬name.IsWindowBound)
    (flattened : Bool) :
    ((schema.flattenIf flattened).find? name).isSome = (schema.find? name).isSome := by
  cases flattened with
  | false => rfl
  | true =>
    rw [Bool.eq_iff_iff, flattenIf, if_pos rfl, find?_flatten_isSome_iff, ← or_assoc]
    exact or_iff_right ordinary

end Schema

namespace Scope

variable {sources : List BoundSource} {column : ColumnRef}

theorem schema?_ofSources (distinct : (sources.map BoundSource.alias).Nodup) (inWindow : Bool)
    (owner : SourceName) :
    (ofSources sources inWindow).schema? owner =
      (sources.find? fun bound => bound.alias = owner).map fun bound =>
        bound.visibleSchema inWindow := by
  have shown : (ofSources sources inWindow).entries.toList =
      sources.map fun bound => (bound.alias, bound.visibleSchema inWindow) :=
    toList_ofSources distinct
  rw [schema?, Roster.get?, shown, List.find?_map, Option.map_map]
  rfl

theorem sourcesWith_ofSources (distinct : (sources.map BoundSource.alias).Nodup) (inWindow : Bool)
    (name : ColumnName) :
    (ofSources sources inWindow).sourcesWith none name =
      (sources.filter fun bound =>
        ((bound.visibleSchema inWindow).find? name).isSome).map BoundSource.alias := by
  rw [sourcesWith, entriesOf, toList_ofSources distinct, List.filter_map, List.map_map]
  rfl

/-- A column resolves alike without the window of a query and under it. -/
def Steady (sources : List BoundSource) (column : ColumnRef) : Prop :=
  Alike AnalysisError.SameCause Eq ((ofSources sources false).resolve column)
    ((ofSources sources true).resolve column)

theorem steady_of_ordinary (distinct : (sources.map BoundSource.alias).Nodup)
    (ordinary : ¬column.name.IsWindowBound) : Steady sources column := by
  have visible : ∀ (bound : BoundSource) (inWindow : Bool),
      ((bound.visibleSchema inWindow).find? column.name).isSome =
        (bound.source.schema.find? column.name).isSome := by
    intro bound inWindow
    exact Schema.find?_flattenIf_isSome ordinary _
  unfold Steady resolve
  cases column.source with
  | none =>
    simp only [sourcesWith_ofSources distinct, visible]
    split
    · exact .error rfl
    · exact .ok rfl
    · exact .error rfl
  | some owner =>
    simp only [schema?_ofSources distinct]
    cases sources.find? fun bound => bound.alias = owner with
    | none => exact .error rfl
    | some bound =>
      have same : ((bound.visibleSchema false).find? column.name).isSome =
          ((bound.visibleSchema true).find? column.name).isSome := by
        rw [visible, visible]
      simp only [Option.map_some]
      cases before : (bound.visibleSchema false).find? column.name with
      | none =>
        cases after : (bound.visibleSchema true).find? column.name with
        | none => exact .error rfl
        | some found => simp [before, after] at same
      | some found =>
        cases after : (bound.visibleSchema true).find? column.name with
        | none => simp [before, after] at same
        | some other => exact .ok rfl

theorem steady_of_resolves {owner : SourceName} {name : ColumnName}
    (before : (ofSources sources false).Resolves (.qualified owner name))
    (after : (ofSources sources true).Resolves (.qualified owner name)) :
    Steady sources (.qualified owner name) := by
  obtain ⟨first, resolved⟩ := before
  obtain ⟨second, resolvedInWindow⟩ := after
  -- A column with a source resolves to this source or not at all.
  obtain ⟨rfl, _⟩ := resolve_qualified_eq_ok_iff.mp resolved
  obtain ⟨rfl, _⟩ := resolve_qualified_eq_ok_iff.mp resolvedInWindow
  rw [Steady, resolved, resolvedInWindow]
  exact .ok rfl

theorem check_steady {columns : List ColumnRef}
    (steady : ∀ column ∈ columns, Steady sources column) :
    Alike AnalysisError.SameCause Eq ((ofSources sources false).check columns)
      ((ofSources sources true).check columns) := by
  induction columns with
  | nil => exact .ok rfl
  | cons column rest ih =>
    obtain ⟨steadyFirst, steadyRest⟩ := List.forall_mem_cons.mp steady
    apply Alike.bind steadyFirst
    intro _ _ _
    exact ih steadyRest

end Scope

namespace Analyzer

theorem steady_of_starItems {sources : List BoundSource} {source : Option SourceName}
    {item : Projection} {column : ColumnRef} (distinct : (sources.map BoundSource.alias).Nodup)
    (isItem : item ∈ starItems (.ofSources sources false) source)
    (isColumn : column ∈ item.columns) : Scope.Steady sources column := by
  -- These columns can be bounds of a source's own window, so their names say nothing.
  have before := starItems_resolve false distinct isItem isColumn
  have after := starItems_resolve true distinct isItem isColumn
  simp only [starItems, List.mem_flatMap, List.mem_map] at isItem
  obtain ⟨entry, _, shown, _, rfl⟩ := isItem
  rw [columns_starItem] at isColumn
  obtain rfl := List.mem_singleton.mp isColumn
  exact Scope.steady_of_resolves before after

end Analyzer

def Query.windowed (query : Query) (window : Option Window) : Query :=
  { query with window := window }

/-- No column in the select list or in the condition on groups is named like a bound of a window. -/
structure Query.AvoidsWindowBounds (query : Query) : Prop where
  select : ∀ item ∈ query.select, ∀ column ∈ item.columns, ¬column.name.IsWindowBound
  having : ∀ expr ∈ query.having, ∀ column ∈ expr.columns, ¬column.name.IsWindowBound

def BoundSink.inWindow (window : Window) (sink : BoundSink) : BoundSink :=
  if sink.creates then
    { sink with
      topic.keyFormat := ⟨sink.topic.keyFormat.format, some window.keyWindow⟩ }
  else sink

def Analysis.inWindow (window : Window) (a : Analysis) : Analysis :=
  { a with
    window := some window
    sink := a.sink.map (BoundSink.inWindow window) }

/-- The second of two analyses has a window and the first has none. The select list that they share
resolves alike in both. -/
structure Analysis.GainsWindow (window : Window) (a b : Analysis) : Prop where
  unset : a.window = none
  gained : b = a.inWindow window
  distinct : (a.sources.map BoundSource.alias).Nodup
  steady : ∀ column ∈ a.select.flatMap Projection.columns, Scope.Steady a.sources column

namespace Analyzer

variable {analyzer : Analyzer} {query : Query} {window : Window} {a b : Analysis}

/-! ## Up to the window -/

def upToGrouping (analyzer : Analyzer) (query : Query) : Except AnalysisError Analysis := do
  let a ← analyzer.bindSources query (.start query.emission)
  let a ← analyzer.selectItems query a
  let a ← filterClause query a
  groupingClause query a

def behindWindow (query : Query) (a : Analysis) : Except AnalysisError Analysis := do
  let a ← havingClause query a
  let a ← checkSelect a
  let a ← partitioningClause query a
  limitClause query a

theorem analyzeQuery_windowed (query : Query) (window : Option Window) :
    analyzer.analyzeQuery (query.windowed window) = (do
      let a ← analyzer.upToGrouping query
      let a ← windowClause (query.windowed window) a
      behindWindow query a) := by
  simp only [upToGrouping, bind_assoc]
  rfl

theorem steady_of_expansion {sources : List BoundSource} {item expanded : Projection}
    {column : ColumnRef} (distinct : (sources.map BoundSource.alias).Nodup)
    (ordinary : ∀ column ∈ item.columns, ¬column.name.IsWindowBound)
    (isExpanded : expanded ∈ expansion (.ofSources sources false) item)
    (isColumn : column ∈ expanded.columns) : Scope.Steady sources column := by
  cases item with
  | star source => exact steady_of_starItems distinct isExpanded isColumn
  | single expr name =>
    obtain rfl := List.mem_singleton.mp isExpanded
    exact Scope.steady_of_ordinary distinct (ordinary column isColumn)

theorem gainsWindow_of_upToGrouping (avoids : query.AvoidsWindowBounds)
    (grouped : analyzer.upToGrouping query = .ok a) (window : Window) :
    windowClause (query.windowed (some window)) a = .ok (a.inWindow window) ∧
      a.GainsWindow window (a.inWindow window) := by
  simp only [upToGrouping, bind_eq_ok_iff, bindSources_eq_ok_iff] at grouped
  obtain ⟨_, ⟨sources, keys, bound, rfl⟩, _, selected, _, filtered, grouped⟩ := grouped
  have nonempty := bound.sources_ne_nil
  obtain ⟨_, rfl⟩ := (foldlM_selectItem_eq_ok_iff (by exact nonempty)).mp selected
  obtain ⟨_, rfl⟩ := (filterClause_eq_ok_iff (by exact nonempty) rfl).mp filtered
  obtain ⟨_, rfl⟩ := (groupingClause_eq_ok_iff (by exact nonempty) rfl).mp grouped
  refine ⟨(windowClause_eq_ok_iff rfl).mpr rfl, rfl, rfl, bound.nodup_aliases, ?_⟩
  intro column isColumn
  obtain ⟨expanded, isExpanded, isColumn⟩ := List.mem_flatMap.mp isColumn
  obtain ⟨item, isItem, isExpanded⟩ := List.mem_flatMap.mp isExpanded
  exact steady_of_expansion bound.nodup_aliases (avoids.select item isItem) isExpanded isColumn

/-! ## Behind the window -/

theorem checkColumns_inWindow (gains : a.GainsWindow window b) (afterGrouping : Bool)
    {columns : List ColumnRef}
    (steady : afterGrouping = true → ∀ column ∈ columns, Scope.Steady a.sources column) :
    Alike AnalysisError.SameCause Eq (checkColumns a afterGrouping columns)
      (checkColumns b afterGrouping columns) := by
  obtain rfl := gains.gained
  have sources : (a.inWindow window).sources = a.sources := rfl
  by_cases unbound : a.sources = []
  · simp only [checkColumns, Analysis.scope, sources, unbound]
    exact .error rfl
  · have bound : (a.inWindow window).sources ≠ [] := unbound
    simp only [checkColumns, Analysis.scope_of_ne_nil unbound, Analysis.scope_of_ne_nil bound,
      gains.unset, sources]
    -- In front of the grouping both analyses have one scope.
    cases afterGrouping with
    | false => exact Alike.refl AnalysisError.SameCause.refl (fun _ => rfl) _
    | true => exact Scope.check_steady (steady rfl)

theorem checkedClause_inWindow (gains : a.GainsWindow window b) (clause : Option Expr)
    (afterGrouping : Bool) {enter enter' : Expr → Except AnalysisError Analysis}
    (steady : afterGrouping = true → ∀ expr ∈ clause, ∀ column ∈ expr.columns,
      Scope.Steady a.sources column)
    (enters : ∀ expr, Alike AnalysisError.SameCause (Analysis.GainsWindow window) (enter expr)
      (enter' expr)) :
    Alike AnalysisError.SameCause (Analysis.GainsWindow window)
      (checkedClause a clause afterGrouping enter)
      (checkedClause b clause afterGrouping enter') := by
  cases clause with
  | none => exact .ok gains
  | some expr =>
    apply Alike.bind (checkColumns_inWindow gains afterGrouping fun after => steady after expr rfl)
    intro _ _ _
    exact enters expr

theorem havingClause_inWindow (avoids : query.AvoidsWindowBounds)
    (gains : a.GainsWindow window b) :
    Alike AnalysisError.SameCause (Analysis.GainsWindow window) (havingClause query a)
      (havingClause query b) := by
  apply checkedClause_inWindow gains query.having true
  · intro _ expr isHaving column isColumn
    exact Scope.steady_of_ordinary gains.distinct (avoids.having expr isHaving column isColumn)
  · intro expr
    obtain ⟨unset, rfl, distinct, steady⟩ := gains
    exact alike_map_setOnce rfl rfl ⟨unset, rfl, distinct, steady⟩

theorem checkSelect_inWindow (gains : a.GainsWindow window b) :
    Alike AnalysisError.SameCause (Analysis.GainsWindow window) (checkSelect a)
      (checkSelect b) := by
  have shared : b.grouping = a.grouping ∧ b.select = a.select := by
    rw [gains.gained]
    exact ⟨rfl, rfl⟩
  rw [checkSelect, checkSelect, shared.1, shared.2]
  apply Alike.bind (checkColumns_inWindow gains _ fun _ => gains.steady)
  intro _ _ _
  exact .ok gains

theorem partitioningClause_inWindow (gains : a.GainsWindow window b) :
    Alike AnalysisError.SameCause (Analysis.GainsWindow window) (partitioningClause query a)
      (partitioningClause query b) := by
  apply checkedClause_inWindow gains query.partitioning false nofun
  intro expr
  obtain ⟨unset, rfl, distinct, steady⟩ := gains
  exact alike_map_setOnce rfl rfl ⟨unset, rfl, distinct, steady⟩

theorem limitClause_inWindow (gains : a.GainsWindow window b) :
    Alike AnalysisError.SameCause (Analysis.GainsWindow window) (limitClause query a)
      (limitClause query b) := by
  unfold limitClause
  cases query.limit with
  | none => exact .ok gains
  | some limit =>
    obtain ⟨unset, rfl, distinct, steady⟩ := gains
    exact alike_map_setOnce rfl rfl ⟨unset, rfl, distinct, steady⟩

theorem behindWindow_inWindow (avoids : query.AvoidsWindowBounds)
    (gains : a.GainsWindow window b) :
    Alike AnalysisError.SameCause (Analysis.GainsWindow window) (behindWindow query a)
      (behindWindow query b) := by
  apply Alike.bind (havingClause_inWindow avoids gains)
  intro _ _ gains
  apply Alike.bind (checkSelect_inWindow gains)
  intro _ _ gains
  apply Alike.bind (partitioningClause_inWindow gains)
  intro _ _ gains
  exact limitClause_inWindow gains

/-! ## The sink -/

theorem sinkTopic_inWindow (analyzer : Analyzer) (gains : a.GainsWindow window b) (sink : Sink) :
    Alike AnalysisError.SameCause
      (fun topic topic' => BoundSink.of sink.name sink.creates topic' (wrappings sink.properties) =
        (BoundSink.of sink.name sink.creates topic (wrappings sink.properties)).inWindow window)
      (analyzer.sinkTopic a sink) (analyzer.sinkTopic b sink) := by
  obtain ⟨unset, rfl, _, _⟩ := gains
  have sources : (a.inWindow window).sources = a.sources := rfl
  -- The window replaces the one of the keys of `a`, whether grouping has kept it or not.
  have format : ∀ first, (resultKeyFormat a first).format = first.format := by
    intro first
    simp only [resultKeyFormat, unset]
    split <;> rfl
  unfold sinkTopic
  cases creates : sink.creates with
  | true =>
    rw [sources]
    cases a.sources with
    | nil => exact .error rfl
    | cons first rest =>
      apply Alike.ok
      simp only [BoundSink.of, BoundSink.inWindow, newTopic, format, if_true]
      rfl
  | false =>
    cases analyzer.source? sink.name with
    | none => exact .error rfl
    | some source => exact .ok rfl

theorem sinkClause_inWindow (gains : a.GainsWindow window b) (sink : Option Sink) :
    Alike AnalysisError.SameCause (Analysis.GainsWindow window) (analyzer.sinkClause sink a)
      (analyzer.sinkClause sink b) := by
  cases sink with
  | none => exact .ok gains
  | some sink =>
    apply Alike.bind (sinkTopic_inWindow analyzer gains sink)
    intro topic topic' sameSink
    obtain ⟨unset, rfl, distinct, steady⟩ := gains
    rw [sameSink]
    exact alike_map_setOnce rfl Option.isSome_map ⟨unset, rfl, distinct, steady⟩

/-! ## The whole walk -/

/-- A query that mentions no bound of a window has the same outcome with a window and without one, but
for the window itself and the keys of a sink that it creates. -/
theorem analyze_windowed (analyzer : Analyzer) (sink : Option Sink) (window : Window)
    (avoids : query.AvoidsWindowBounds) :
    Alike AnalysisError.SameCause (fun a b => a.window = none ∧ b = a.inWindow window)
      (analyzer.analyze (query.windowed none) sink)
      (analyzer.analyze (query.windowed (some window)) sink) := by
  have analyzed : Alike AnalysisError.SameCause (Analysis.GainsWindow window)
      (analyzer.analyzeQuery (query.windowed none))
      (analyzer.analyzeQuery (query.windowed (some window))) := by
    rw [analyzeQuery_windowed, analyzeQuery_windowed]
    apply Alike.bind (Alike.same AnalysisError.SameCause.refl (analyzer.upToGrouping query))
    rintro a _ ⟨grouped, rfl⟩
    obtain ⟨entered, gains⟩ := gainsWindow_of_upToGrouping avoids grouped window
    rw [entered]
    exact behindWindow_inWindow avoids gains
  apply Alike.imp (Alike.bind analyzed fun _ _ gains => sinkClause_inWindow gains sink)
  intro a b _ _ gains
  exact ⟨gains.unset, gains.gained⟩

def site : Analyzer where
  source? name :=
    if name = ⟨"VISITS"⟩ then
      some { numbers name ⟨"PAGE"⟩ with topic.keyFormat := ⟨.kafka, some ⟨.session, none⟩⟩ }
    else none
  tableFunctions := []

/-- `SELECT * FROM VISITS GROUP BY PAGE HAVING PAGE IS NOT NULL`, where the star has the bounds of the
window of `VISITS`. -/
def visitsByPage : Query where
  select := [.star none]
  relation := ⟨⟨"VISITS"⟩, none⟩
  grouping := [.column (.unqualified ⟨"PAGE"⟩)]
  having := some (.isNotNull (.column (.unqualified ⟨"PAGE"⟩)))

def hourly : Window :=
  ⟨none, .tumbling ((Duration.ofParts? 3600 0).get rfl)⟩

def createPages : Sink :=
  ⟨⟨"PAGES"⟩, true, .none⟩

theorem analyze_windowed_visitsByPage :
    visitsByPage.AvoidsWindowBounds ∧
      Alike AnalysisError.SameCause (fun a b => a.window = none ∧ b = a.inWindow hourly)
        (site.analyze (visitsByPage.windowed none) (some createPages))
        (site.analyze (visitsByPage.windowed (some hourly)) (some createPages)) ∧
      ∃ a b, site.analyze (visitsByPage.windowed none) (some createPages) = .ok a ∧
        site.analyze (visitsByPage.windowed (some hourly)) (some createPages) = .ok b ∧
        a.selectNames = [.rowtime, .windowStart, .windowEnd, ⟨"PAGE"⟩] ∧
        a.sink.map (·.topic.keyFormat.window) = some none ∧
        b.sink.map (·.topic.keyFormat.window) = some (some hourly.keyWindow) := by
  have avoids : visitsByPage.AvoidsWindowBounds := by
    refine ⟨?_, ?_⟩
    · intro item isItem column isColumn
      obtain rfl := List.mem_singleton.mp isItem
      cases isColumn
    · intro expr isHaving column isColumn
      obtain rfl := Option.some.inj isHaving
      obtain rfl := List.mem_singleton.mp isColumn
      decide
  exact ⟨avoids, analyze_windowed site (some createPages) hourly avoids,
    _, _, rfl, rfl, rfl, rfl, rfl⟩

end Analyzer

end StreamQuery
