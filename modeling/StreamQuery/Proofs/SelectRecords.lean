import Mathlib.Data.List.Nodup
import StreamQuery.Proofs.ExprPositions
import StreamQuery.Proofs.NamedSources

/-! # What is recorded of the select list

With the select list an analysis records the names of its columns, each once, and its calls of table
functions, each as often as it occurs. Both can be read off the select list of the analysis, where stars
are expanded. The calls can be read off that of the query as well, as the columns of a star are no calls.
-/

set_option autoImplicit false

namespace StreamQuery

namespace Analysis

variable {names : List ColumnName}

theorem nodup_withName (distinct : names.Nodup) (name : ColumnName) :
    (withName names name).Nodup := by
  unfold withName
  split
  · exact distinct
  · rename_i absent
    exact List.concat_eq_append ▸ distinct.concat absent

theorem mem_withName {name other : ColumnName} :
    other ∈ withName names name ↔ other ∈ names ∨ other = name := by
  unfold withName
  split
  · rename_i present
    rw [or_iff_left_of_imp]
    rintro rfl
    exact present
  · rw [List.mem_append, List.mem_singleton]

theorem nodup_foldl_withName (distinct : names.Nodup) (added : List ColumnName) :
    (added.foldl withName names).Nodup := by
  induction added generalizing names with
  | nil => exact distinct
  | cons name rest ih => exact ih (nodup_withName distinct name)

theorem mem_foldl_withName {added : List ColumnName} {name : ColumnName} :
    name ∈ added.foldl withName names ↔ name ∈ names ∨ name ∈ added := by
  induction added generalizing names with
  | nil => simp
  | cons first rest ih => rw [List.foldl_cons, ih, mem_withName, List.mem_cons, or_assoc]

end Analysis

namespace Analyzer

variable {analyzer : Analyzer} {query : Query} {sink : Option Sink} {a : Analysis}

theorem calls_expansion (scope : Scope) (item : Projection) :
    (expansion scope item).flatMap Projection.calls = item.calls := by
  cases item with
  | single expr name => exact List.flatMap_singleton _ _
  | star source => exact calls_starItems scope source

theorem selectNames_of_analyze (analyzed : analyzer.analyze query sink = .ok a) :
    a.selectNames.Nodup ∧
      ∀ name, name ∈ a.selectNames ↔ ∃ column ∈ a.select.flatMap Projection.columns,
        column.name = name := by
  obtain ⟨sources, keys, _, _, entered⟩ := analyze_eq_ok_iff.mp analyzed
  obtain ⟨_, _, rfl⟩ := sinkClause_eq_ok rfl entered
  refine ⟨Analysis.nodup_foldl_withName .nil _, ?_⟩
  intro name
  have noneBefore : name ∉ (Analysis.start query.emission).selectNames := List.not_mem_nil
  refine Analysis.mem_foldl_withName.trans ?_
  rw [or_iff_right noneBefore, List.mem_map]
  rfl

theorem tableCalls_of_analyze (analyzed : analyzer.analyze query sink = .ok a) :
    a.tableCalls =
        (a.select.flatMap Projection.calls).filter (fun call => call.name ∈ analyzer.tableFunctions) ∧
      a.select.flatMap Projection.calls = query.select.flatMap Projection.calls := by
  obtain ⟨sources, keys, _, _, entered⟩ := analyze_eq_ok_iff.mp analyzed
  obtain ⟨_, _, rfl⟩ := sinkClause_eq_ok rfl entered
  refine ⟨rfl, ?_⟩
  calc (query.select.flatMap (expansion (.ofSources sources false))).flatMap Projection.calls
      = query.select.flatMap fun item =>
          (expansion (.ofSources sources false) item).flatMap Projection.calls :=
        List.flatMap_assoc
    _ = query.select.flatMap Projection.calls := by
        simp only [calls_expansion]

/-- At a position of a select list stands a call of a table function, given the names of those that were
made known. -/
def TableCallAt (functions : List String) (items : List Projection) (position : List Nat)
    (call : Call) : Prop :=
  partAt? items position = some call.toExpr ∧
    (call.name = "EXPLODE" ∨ ∃ name ∈ functions, call.name = Text.upper name)

theorem mem_tableFunctions_iff {source? : SourceName → Option Source} {functions : List String}
    {name : String} :
    name ∈ (functions.foldl addTableFunction ⟨source?, ["EXPLODE"]⟩).tableFunctions ↔
      name = "EXPLODE" ∨ ∃ known ∈ functions, name = Text.upper known := by
  rw [foldl_addTableFunction, List.mem_append, List.mem_singleton, List.mem_map]
  simp only [eq_comm]

/-- What an analysis records of the select list is what stands at the positions of this list: the names
of all columns, and the calls of table functions in the order of their positions. It is the calls at the
positions of the select list of the query that are recorded, and no others. -/
theorem recorded_of_analyze {source? : SourceName → Option Source} {functions : List String}
    (analyzed :
      (functions.foldl addTableFunction ⟨source?, ["EXPLODE"]⟩).analyze query sink = .ok a) :
    (a.selectNames.Nodup ∧ ∀ name, name ∈ a.selectNames ↔
      ∃ position column, partAt? a.select position = some (.column column) ∧ column.name = name) ∧
    (∀ calls, calls = a.tableCalls ↔ InOrder (TableCallAt functions a.select) calls) ∧
    InOrder (TableCallAt functions query.select) a.tableCalls := by
  obtain ⟨distinct, mem_selectNames_iff⟩ := selectNames_of_analyze analyzed
  obtain ⟨recordedCalls, sameCalls⟩ := tableCalls_of_analyze analyzed
  -- The select lists of the analysis and of the query have the same calls, at positions of their own.
  have listed : ∀ items : List Projection,
      items.flatMap Projection.calls = a.select.flatMap Projection.calls →
      InOrder (TableCallAt functions items) a.tableCalls := by
    intro items same
    rw [recordedCalls, ← same]
    apply ((inOrder_select_calls items).filter _).congr
    intro position call
    rw [decide_eq_true_eq, mem_tableFunctions_iff]
    rfl
  refine ⟨⟨distinct, ?_⟩, ?_, listed query.select sameCalls.symm⟩
  · intro name
    simp only [mem_selectNames_iff, (inOrder_select_columns a.select).mem_iff]
    constructor
    · rintro ⟨column, ⟨position, stands⟩, named⟩
      exact ⟨position, column, stands, named⟩
    · rintro ⟨position, column, stands, named⟩
      exact ⟨column, ⟨position, stands⟩, named⟩
  · intro calls
    constructor
    · rintro rfl
      exact listed a.select rfl
    · intro others
      exact others.unique (listed a.select rfl)

/-- A call of `UNNEST` in a scalar function in a call of `EXPLODE`, and another call of `UNNEST` next to
it. The call of `EXPLODE` in the filter is not in the select list. -/
def unnested : Query :=
  { ordersWithItems with
    select := [.single (.arithmetic .add (.call "EXPLODE" [.call "ABS" [unnestedItem]]) unnestedItem)
      none, .star none]
    filter := some (.isNull (.call "EXPLODE" [item])) }
where
  item : Expr := .column (.unqualified ⟨"ITEM"⟩)
  unnestedItem : Expr := .call "UNNEST" [item]

theorem recorded_unnested :
    ∃ a, (["unnest"].foldl addTableFunction ⟨shop.source?, ["EXPLODE"]⟩).analyze unnested none =
        .ok a ∧
      (∃ position column, partAt? a.select position = some (.column column) ∧
        column.name = ⟨"ID"⟩) ∧
      InOrder (TableCallAt ["unnest"] a.select)
        [⟨"EXPLODE", [.call "ABS" [unnested.unnestedItem]]⟩, ⟨"UNNEST", [unnested.item]⟩,
          ⟨"UNNEST", [unnested.item]⟩] := by
  have analyzed : (["unnest"].foldl addTableFunction ⟨shop.source?, ["EXPLODE"]⟩).analyze unnested
      none = .ok _ := rfl
  obtain ⟨⟨_, mem_selectNames_iff⟩, eq_tableCalls_iff, _⟩ := recorded_of_analyze analyzed
  refine ⟨_, analyzed, (mem_selectNames_iff _).mp ?_, (eq_tableCalls_iff _).mp rfl⟩
  decide

end Analyzer

end StreamQuery
