import Mathlib.Data.List.Basic
import StreamQuery.Proofs.ColumnOwners
import StreamQuery.Proofs.Histories
import StreamQuery.Proofs.WindowClause

/-! # Columns in the two scopes of an analysis

An analysis has a scope for what comes before the grouping and one for what comes after it. They differ
in the sources that are flattened, so in the bounds of the window and in what is shown as a value.
-/

set_option autoImplicit false

namespace StreamQuery

/-! ## Resolution before the grouping and after it

After the grouping a query with a window shows the bounds of this window at every source, and at sources
that are not windowed themselves this is new. So a bound that belonged to one source can become ambiguous,
and a bound that nothing had can come to belong to something. No other column resolves differently.
-/

/-- One scope reads a column as another does, unless the column has the name of a window bound. Then it
may also find the column at more sources. -/
structure Scope.Refines (after before : Scope) : Prop where
  ordinary : ∀ column : ColumnRef, ¬column.name.IsWindowBound →
    Alike AnalysisError.SameCause Eq (before.resolve column) (after.resolve column)
  resolved : ∀ column source, before.resolve column = .ok source → after.Keeps column source
  ambiguous : ∀ column text sources,
    before.resolve column = .error (.ambiguousColumn text sources) →
      ∃ more, sources.Sublist more ∧ after.resolve column = .error (.ambiguousColumn text more)

theorem BoundSource.visibleSchema_of_isWindowed {bound : BoundSource}
    (windowed : bound.source.isWindowed = true) (inWindow : Bool) :
    bound.visibleSchema inWindow = bound.source.schema.flatten := by
  rw [visibleSchema, windowed, Bool.true_or]
  rfl

namespace Scope

variable {sources : List BoundSource}

theorem ofSources_covers (distinct : (sources.map BoundSource.alias).Nodup) (inWindow : Bool) :
    (ofSources sources inWindow).Covers (ofSources sources false) := by
  intro name
  rw [sourcesWith_ofSources distinct, sourcesWith_ofSources distinct]
  apply List.Sublist.map
  apply List.monotone_filter_right
  intro bound found
  exact BoundSource.find?_visibleSchema_isSome inWindow found

theorem ofSources_refines (distinct : (sources.map BoundSource.alias).Nodup) (inWindow : Bool) :
    (ofSources sources inWindow).Refines (ofSources sources false) := by
  have covers := ofSources_covers distinct inWindow
  refine ⟨?_, fun _ _ => covers.keeps, fun _ _ _ => covers.ambiguous⟩
  intro column isOrdinary
  cases inWindow with
  | false => exact .refl AnalysisError.SameCause.refl (fun _ => rfl) _
  | true => exact steady_of_ordinary distinct isOrdinary

theorem ofSources_of_windowed (windowed : ∀ bound ∈ sources, bound.source.isWindowed = true)
    (inWindow : Bool) : ofSources sources inWindow = ofSources sources false := by
  unfold ofSources
  congr 1
  apply List.map_congr_left
  intro bound isBound
  have flattened := BoundSource.visibleSchema_of_isWindowed (windowed bound isBound)
  rw [flattened, flattened]

end Scope

namespace Analysis

variable {a : Analysis}

theorem scope_eq_scope (same : a.window = none ∨ ∀ bound ∈ a.sources, bound.source.isWindowed = true) :
    a.scope false = a.scope true := by
  by_cases unbound : a.sources = []
  · rw [scope, scope, unbound]
    rfl
  rw [scope_of_ne_nil unbound, scope_of_ne_nil unbound, Bool.false_and, Bool.true_and]
  rcases same with noWindow | windowed
  · rw [noWindow]
    rfl
  · rw [Scope.ofSources_of_windowed windowed a.window.isSome]

/-- Whatever was tried on the way to an analysis, its scope after the grouping refines the one before,
and only the query's own window can make a difference between the two. -/
theorem scope_refines (emission : Emission) (edits : List Edit)
    (reached : ((start emission).attemptAll edits).1 = a) (bound : a.sources ≠ []) :
    (∃ before after, a.scope false = .ok before ∧ a.scope true = .ok after ∧ after.Refines before) ∧
    ((a.window = none ∨ ∀ bound ∈ a.sources, bound.source.isWindowed = true) →
      a.scope false = a.scope true) := by
  have consistent : a.Consistent := reached ▸ consistent_attemptAll emission edits
  refine ⟨⟨_, _, scope_of_ne_nil bound false, scope_of_ne_nil bound true, ?_⟩, scope_eq_scope⟩
  exact Scope.ofSources_refines consistent.aliases (true && a.window.isSome)

def visitsAndOrders : List Edit :=
  [.bindSource ⟨"VISITS"⟩
    { Analyzer.numbers ⟨"VISITS"⟩ ⟨"PAGE"⟩ with topic.keyFormat := ⟨.kafka, some ⟨.session, none⟩⟩ },
    .bindSource ⟨"ORDERS"⟩ (Analyzer.numbers ⟨"ORDERS"⟩ ⟨"ITEM"⟩), .setWindow Analyzer.hourly]

theorem scope_refines_visitsAndOrders :
    ∃ a before after, ((start .changes).attemptAll visitsAndOrders).1 = a ∧ a.sources ≠ [] ∧
      a.scope false = .ok before ∧ a.scope true = .ok after ∧ after.Refines before ∧
      before.resolve (.unqualified .windowStart) = .ok ⟨"VISITS"⟩ ∧
      after.resolve (.unqualified .windowStart) =
        .error (.ambiguousColumn "WINDOWSTART" [⟨"VISITS"⟩, ⟨"ORDERS"⟩]) := by
  obtain ⟨⟨before, after, isBefore, isAfter, refines⟩, _⟩ :=
    scope_refines .changes visitsAndOrders rfl nofun
  refine ⟨_, before, after, rfl, nofun, isBefore, isAfter, refines, ?_, ?_⟩
  · obtain rfl := Except.ok.inj isBefore
    rfl
  · obtain rfl := Except.ok.inj isAfter
    rfl

end Analysis

/-! ## Columns that are not shown as values

Whether a column is shown as a value is asked of the scope, where sources may be flattened. The answer
comes from the catalog: a column is none if its source is not flattened there and has the name for a key
or metadata column, but for no value column. A flattened source shows all of its columns as values.
-/

namespace Schema

/-- A key or metadata column has the name, but no value column has it. -/
def OutsideValue (schema : Schema) (name : ColumnName) : Prop :=
  name ∈ (schema.keyColumns ++ schema.metaColumns).map (·.name) ∧
    name ∉ schema.valueColumns.map (·.name)

instance (schema : Schema) (name : ColumnName) : Decidable (schema.OutsideValue name) :=
  inferInstanceAs (Decidable (_ ∧ _))

variable {schema : Schema} {name : ColumnName}

theorem findValue?_eq_none_iff :
    schema.findValue? name = none ↔ name ∉ schema.valueColumns.map (·.name) := by
  rw [← Option.not_isSome_iff_eq_none, findValue?, named?_isSome_iff, List.mem_map]

theorem outsideValue_iff :
    schema.OutsideValue name ↔ (schema.find? name).isSome ∧ schema.findValue? name = none := by
  rw [OutsideValue, ← findValue?_eq_none_iff]
  apply and_congr_left
  intro noValue
  rw [find?, noValue, Option.none_or, Option.isSome_or, Bool.or_eq_true, named?_isSome_iff,
    named?_isSome_iff, List.map_append, List.mem_append, List.mem_map, List.mem_map]

end Schema

theorem BoundSource.findValue?_visibleSchema_eq_none_iff {bound : BoundSource} {name : ColumnName}
    {inWindow : Bool} (shown : ((bound.visibleSchema inWindow).find? name).isSome) :
    (bound.visibleSchema inWindow).findValue? name = none ↔
      bound.source.isWindowed = false ∧ inWindow = false ∧
        bound.source.schema.OutsideValue name := by
  unfold visibleSchema at shown ⊢
  rw [← and_assoc, ← Bool.or_eq_false_iff]
  -- What matters is whether the source is flattened, and not for which of the two reasons.
  generalize (bound.source.isWindowed || inWindow) = flattened at shown ⊢
  cases flattened with
  | true =>
    have exposed : (bound.source.schema.flatten.findValue? name).isSome := by
      rw [← Schema.find?_flatten]
      exact shown
    have notNone := Option.isSome_iff_ne_none.mp exposed
    exact iff_of_false notNone nofun
  | false =>
    rw [Schema.outsideValue_iff]
    constructor
    · intro noValue
      exact ⟨rfl, shown, noValue⟩
    · rintro ⟨_, _, noValue⟩
      exact noValue

namespace Scope

variable {sources : List BoundSource} {inWindow : Bool} {column : ColumnRef}

theorem isNonValue_eq_true_iff {scope : Scope} :
    scope.isNonValue column = true ↔ ∃ source schema, scope.resolve column = .ok source ∧
      scope.schema? source = some schema ∧ schema.findValue? column.name = none := by
  unfold isNonValue
  cases scope.resolve column with
  | error error => simp
  | ok source =>
    cases known : scope.schema? source with
    | none => simp [known]
    | some schema => simp [known]

theorem isNonValue_ofSources_iff (distinct : (sources.map BoundSource.alias).Nodup) :
    (ofSources sources inWindow).isNonValue column = true ↔ ∃ bound ∈ sources,
      (ofSources sources inWindow).resolve column = .ok bound.alias ∧
        bound.source.isWindowed = false ∧ inWindow = false ∧
          bound.source.schema.OutsideValue column.name := by
  rw [isNonValue_eq_true_iff]
  constructor
  · rintro ⟨source, schema, resolved, isSchema, noValue⟩
    have shown := (has_iff_of_schema? isSchema).mp (has_of_resolve resolved)
    obtain ⟨bound, isBound, rfl, rfl⟩ := (schema?_ofSources_eq_some_iff distinct).mp isSchema
    exact ⟨bound, isBound, resolved,
      (BoundSource.findValue?_visibleSchema_eq_none_iff shown).mp noValue⟩
  · rintro ⟨bound, isBound, resolved, outside⟩
    have isSchema := schema?_ofSources_of_mem distinct isBound inWindow
    have shown := (has_iff_of_schema? isSchema).mp (has_of_resolve resolved)
    exact ⟨bound.alias, bound.visibleSchema inWindow, resolved, isSchema,
      (BoundSource.findValue?_visibleSchema_eq_none_iff shown).mpr outside⟩

end Scope

namespace Analysis

variable {a : Analysis}

/-- Whatever was tried on the way to an analysis, a column is not a value in one of its scopes exactly if
it resolves there to a source that is not flattened and has the name outside the value. A flattened
source has no such column. -/
theorem isNonValue_iff_outsideValue (emission : Emission) (edits : List Edit)
    (reached : ((start emission).attemptAll edits).1 = a) (bound : a.sources ≠ [])
    (afterGrouping : Bool) :
    ∃ scope, a.scope afterGrouping = .ok scope ∧
      (∀ column : ColumnRef, scope.isNonValue column = true ↔
        ∃ bound ∈ a.sources, scope.resolve column = .ok bound.alias ∧
          bound.source.topic.keyFormat.isWindowed = false ∧
          ¬(afterGrouping = true ∧ a.window.isSome = true) ∧
          bound.source.schema.OutsideValue column.name) ∧
      ∀ bound ∈ a.sources, bound.source.topic.keyFormat.isWindowed = true ∨
          (afterGrouping = true ∧ a.window.isSome = true) →
        ∀ column : ColumnRef, scope.resolve column = .ok bound.alias →
          scope.isNonValue column = false := by
  have consistent : a.Consistent := reached ▸ consistent_attemptAll emission edits
  have distinct := consistent.aliases
  have inWindow_iff : (afterGrouping && a.window.isSome) = false ↔
      ¬(afterGrouping = true ∧ a.window.isSome = true) := by
    rw [← Bool.not_eq_true, Bool.and_eq_true]
  refine ⟨_, scope_of_ne_nil bound afterGrouping, ?_, ?_⟩
  · intro column
    rw [Scope.isNonValue_ofSources_iff distinct, inWindow_iff]
    rfl
  · intro bound isBound flattened column resolved
    rw [Bool.eq_false_iff]
    intro nonValue
    obtain ⟨other, isOther, resolvedOther, unwindowed, notInWindow, _⟩ :=
      (Scope.isNonValue_ofSources_iff distinct).mp nonValue
    have sameAlias := Except.ok.inj (resolved.symm.trans resolvedOther)
    obtain rfl := List.inj_on_of_nodup_map distinct isBound isOther sameAlias
    rcases flattened with windowed | inWindow
    · cases windowed.symm.trans unwindowed
    · exact inWindow_iff.mp notInWindow inWindow

theorem isNonValue_visitsAndOrders :
    ∃ a scope, ((start .changes).attemptAll visitsAndOrders).1 = a ∧ a.sources ≠ [] ∧
      a.scope false = .ok scope ∧
      scope.isNonValue (.qualified ⟨"ORDERS"⟩ .rowtime) = true ∧
      scope.isNonValue (.qualified ⟨"VISITS"⟩ .rowtime) = false := by
  obtain ⟨scope, isScope, nonValue_iff, flattened⟩ :=
    isNonValue_iff_outsideValue .changes visitsAndOrders rfl nofun false
  refine ⟨_, scope, rfl, nofun, isScope, ?_, ?_⟩
  · obtain rfl := Except.ok.inj isScope
    exact (nonValue_iff _).mpr ⟨_, .tail _ (.head _), rfl, rfl, nofun, by decide⟩
  · obtain rfl := Except.ok.inj isScope
    exact flattened _ (.head _) (.inl rfl) _ rfl

end Analysis

end StreamQuery
