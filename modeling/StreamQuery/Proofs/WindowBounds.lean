import StreamQuery.Proofs.Acceptance
import StreamQuery.Proofs.Translation
import StreamQuery.Proofs.WindowClause

/-! # Where the bounds of a window can be read

In the scope after the grouping, every source shows the bounds of the query's window, and it is the only
scope where they are shown. The select list is checked there if the query has a GROUP BY, but HAVING is
checked there always. So a bound is read in the select list only under a WINDOW and a GROUP BY, while in
HAVING the WINDOW is enough.
-/

set_option autoImplicit false

namespace StreamQuery

/-- A source has neither a column of a name nor a window that could give it one. -/
def BoundSource.Lacks (bound : BoundSource) (name : ColumnName) : Prop :=
  bound.source.isWindowed = false ∧ ∀ column ∈ bound.source.schema.columns, column.name ≠ name

theorem BoundSource.Lacks.find?_visibleSchema_isSome_iff {bound : BoundSource} {name : ColumnName}
    (lacks : bound.Lacks name) (isBound : name.IsWindowBound) (inWindow : Bool) :
    ((bound.visibleSchema inWindow).find? name).isSome ↔ inWindow = true := by
  obtain ⟨unwindowed, absent⟩ := lacks
  rw [visibleSchema, unwindowed, Bool.false_or]
  cases inWindow with
  | false =>
    have unknown : ¬(bound.source.schema.find? name).isSome := by
      rw [Schema.find?_isSome_iff]
      rintro ⟨column, isColumn, named⟩
      exact absent column isColumn named
    exact iff_of_false unknown Bool.false_ne_true
  | true =>
    have exposed : (bound.source.schema.flatten.find? name).isSome :=
      Schema.find?_flatten_isSome_iff.mpr (or_assoc.mp (.inl isBound))
    exact iff_of_true exposed rfl

theorem Scope.has_alias_iff {sources : List BoundSource} {bound : BoundSource} {name : ColumnName}
    {inWindow : Bool} (distinct : (sources.map BoundSource.alias).Nodup) (isSource : bound ∈ sources) :
    (ofSources sources inWindow).Has bound.alias name ↔
      ((bound.visibleSchema inWindow).find? name).isSome :=
  has_iff_of_schema? (schema?_ofSources_of_mem distinct isSource inWindow)

namespace Analysis

variable {a : Analysis} {afterGrouping : Bool} {column : ColumnRef}

/-- A column is read as a bound of the query's own window: it has the name of one, and the source that
it belongs to lacks a column of this name. -/
def ReadsBound (a : Analysis) (afterGrouping : Bool) (column : ColumnRef) : Prop :=
  column.name.IsWindowBound ∧ ∃ scope, a.scope afterGrouping = .ok scope ∧
    ∃ bound ∈ a.sources, scope.resolve column = .ok bound.alias ∧ bound.Lacks column.name

theorem ReadsBound.inWindow (distinct : (a.sources.map BoundSource.alias).Nodup)
    (reads : a.ReadsBound afterGrouping column) : afterGrouping = true ∧ a.window.isSome := by
  obtain ⟨isBound, scope, isScope, bound, isSource, resolved, lacks⟩ := reads
  obtain ⟨_, rfl⟩ := scope_eq_ok_iff.mp isScope
  have shows := (Scope.has_alias_iff distinct isSource).mp (Scope.has_of_resolve resolved)
  exact Bool.and_eq_true_iff.mp ((lacks.find?_visibleSchema_isSome_iff isBound _).mp shows)

theorem shows_bound_iff (distinct : (a.sources.map BoundSource.alias).Nodup) {bound : BoundSource}
    (isSource : bound ∈ a.sources) {name : ColumnName} (isBound : name.IsWindowBound)
    (lacks : bound.Lacks name) :
    a.Shows afterGrouping (.qualified bound.alias name) ↔
      afterGrouping = true ∧ a.window.isSome := by
  have shown := lacks.find?_visibleSchema_isSome_iff isBound (afterGrouping && a.window.isSome)
  rw [← Scope.has_alias_iff distinct isSource, Bool.and_eq_true] at shown
  simp only [shows_iff (List.ne_nil_of_mem isSource), Scope.Resolves,
    Scope.resolve_qualified_eq_ok_iff, exists_eq_left, shown]

end Analysis

namespace Analyzer

variable {analyzer : Analyzer} {query : Query} {sink : Option Sink} {a : Analysis}

theorem window_of_analyze (analyzed : analyzer.analyze query sink = .ok a) :
    a.window = query.window := by
  obtain ⟨sources, keys, _, _, entered⟩ := analyze_eq_ok_iff.mp analyzed
  obtain ⟨_, _, rfl⟩ := sinkClause_eq_ok rfl entered
  rfl

theorem exists_analyze_having_iff (analyzed : analyzer.analyze query sink = .ok a) (expr : Expr) :
    (∃ b, analyzer.analyze { query with having := some expr } sink = .ok b) ↔
      ∀ column ∈ expr.columns, a.Shows true column := by
  have bindsAll := bindsAll_of_analyze analyzed
  have shows_iff : ∀ column, a.Shows true column ↔
      (Scope.ofSources a.sources query.window.isSome).Resolves column := by
    intro column
    rw [Analysis.shows_iff bindsAll.sources_ne_nil, window_of_analyze analyzed, Bool.true_and]
  simp only [shows_iff, exists_analyze_iff]
  constructor
  · rintro ⟨⟨sources, keys, bindsAnew, hold⟩, _⟩ column isColumn
    have same : sources = a.sources := bindsAnew.sources_eq.trans bindsAll.sources_eq.symm
    rw [← same]
    exact hold.having expr rfl column isColumn
  · intro resolved
    obtain ⟨⟨sources, keys, binds, hold⟩, known⟩ := exists_analyze_iff.mp ⟨a, analyzed⟩
    obtain rfl : sources = a.sources := binds.sources_eq.trans bindsAll.sources_eq.symm
    refine ⟨⟨a.sources, keys, binds, ?_⟩, known⟩
    refine ⟨hold.stars, hold.filter, hold.grouping, hold.groupingDistinct, ?_, hold.select,
      hold.partitioning⟩
    intro other isOther
    obtain rfl := Option.some.inj isOther
    exact resolved

/-- A bound of the query's own window is read in HAVING under a WINDOW, in the select list under a
WINDOW and a GROUP BY, and before the grouping never. For HAVING nothing else is needed: it may read a
bound of any source exactly if there is a WINDOW, whether the query groups or not. -/
theorem windowBounds_of_analyze (analyzed : analyzer.analyze query sink = .ok a) :
    (∀ expr ∈ query.having, ∀ column ∈ expr.columns,
      a.ReadsBound true column → query.window.isSome) ∧
    (∀ item ∈ a.select, ∀ column ∈ item.columns, a.ReadsBound (!query.grouping.isEmpty) column →
      query.window.isSome ∧ query.grouping ≠ []) ∧
    (∀ column, ¬a.ReadsBound false column) ∧
    ∀ bound ∈ a.sources, ∀ name, name.IsWindowBound → bound.Lacks name → ∀ expr : Expr,
      expr.columns ≠ [] → (∀ column ∈ expr.columns, column = .qualified bound.alias name) →
      ((∃ b, analyzer.analyze { query with having := some expr } sink = .ok b) ↔
        query.window.isSome) := by
  have distinct := (bindsAll_of_analyze analyzed).nodup_aliases
  have sameWindow := window_of_analyze analyzed
  refine ⟨?_, ?_, ?_, ?_⟩
  · intro expr _ column _ reads
    rw [← sameWindow]
    exact (reads.inWindow distinct).2
  · intro item _ column _ reads
    obtain ⟨grouped, windowed⟩ := reads.inWindow distinct
    rw [← sameWindow]
    exact ⟨windowed, by simpa using grouped⟩
  · intro column reads
    exact absurd (reads.inWindow distinct).1 nofun
  · intro bound isSource name isBound lacks expr mentions qualified
    have shows_iff : a.Shows true (.qualified bound.alias name) ↔ true = true ∧ a.window.isSome :=
      Analysis.shows_bound_iff distinct isSource isBound lacks
    rw [exists_analyze_having_iff analyzed, ← sameWindow]
    constructor
    · intro shows
      obtain ⟨column, isColumn⟩ := List.exists_mem_of_ne_nil _ mentions
      have shown := shows column isColumn
      rw [qualified column isColumn] at shown
      exact (shows_iff.mp shown).2
    · intro windowed column isColumn
      rw [qualified column isColumn]
      exact shows_iff.mpr ⟨rfl, windowed⟩

def orders : BoundSource :=
  ⟨⟨"ORDERS"⟩, numbers ⟨"ORDERS"⟩ ⟨"ITEM"⟩, nofun⟩

theorem lacks_windowStart_orders : orders.Lacks .windowStart :=
  ⟨rfl, by decide⟩

theorem windowBounds_sessions :
    ∃ a, shop.analyze sessions none = .ok a ∧
      a.ReadsBound true (.qualified ⟨"ORDERS"⟩ .windowStart) ∧ sessions.window.isSome := by
  obtain ⟨a, analyzed, reads⟩ : ∃ a, shop.analyze sessions none = .ok a ∧
      a.ReadsBound true (.qualified ⟨"ORDERS"⟩ .windowStart) :=
    ⟨_, rfl, .inl rfl, _, rfl, orders, List.mem_cons_self, rfl, lacks_windowStart_orders⟩
  have inHaving := (windowBounds_of_analyze analyzed).1
  exact ⟨a, analyzed, reads, inHaving _ rfl _ (List.mem_singleton_self _) reads⟩

/-- `SELECT * FROM ORDERS WINDOW TUMBLING (3600 SECONDS) HAVING WINDOWSTART IS NOT NULL`. -/
def ungrouped : Query where
  select := [.star none]
  relation := ⟨⟨"ORDERS"⟩, none⟩
  window := some hourly
  having := some (.isNotNull (.column (.unqualified .windowStart)))

/-- HAVING reads the bound of a window although nothing is grouped. -/
theorem windowBounds_ungrouped :
    ∃ a, shop.analyze ungrouped none = .ok a ∧
      a.having = some (.isNotNull (.column (.unqualified .windowStart))) ∧
      a.ReadsBound true (.unqualified .windowStart) ∧ a.window = some hourly ∧ a.grouping = [] :=
  ⟨_, rfl, rfl, ⟨.inl rfl, _, rfl, orders, List.mem_cons_self, rfl, lacks_windowStart_orders⟩,
    rfl, rfl⟩

end Analyzer

end StreamQuery
