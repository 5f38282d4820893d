import StreamQuery.Proofs.GroupedScope

/-! # The implicit argument

A function that is called without an argument is given the timestamp of the first source. The name of the
timestamp denotes a column in every schema that was made from the empty one, however often it was flattened
on the way, and sources are only ever added behind the first. So the implicit argument stays what it is and
resolves to the first source, whatever is added later. The name of the timestamp alone belongs to all
sources, so it resolves only if there is just one.
-/

set_option autoImplicit false

namespace StreamQuery

namespace Schema

/-- A schema that was made from the empty one by adding key columns and value columns and by flattening, in
any order. -/
inductive Built : Schema → Prop where
  | empty : Built empty
  | addKey {schema : Schema} (built : Built schema) (name : ColumnName) (type : SqlType) :
      Built (schema.addKey name type)
  | addValue {schema : Schema} (built : Built schema) (name : ColumnName) (type : SqlType) :
      Built (schema.addValue name type)
  | flattenIf {schema : Schema} (built : Built schema) (flattened : Bool) :
      Built (schema.flattenIf flattened)

variable {schema : Schema}

theorem Built.metaColumns (built : Built schema) :
    schema.metaColumns = [⟨.rowtime, .bigint, .metadata⟩] := by
  induction built with
  | empty => rfl
  | addKey _ _ _ ih => exact ih
  | addValue _ _ _ ih => exact ih
  | flattenIf _ flattened ih =>
    -- Flattening exposes the timestamp as a value too, but keeps the metadata columns.
    cases flattened with
    | false => exact ih
    | true => exact ih

theorem Built.find?_rowtime (built : Built schema) : (schema.find? .rowtime).isSome := by
  have isColumn : ⟨.rowtime, .bigint, .metadata⟩ ∈ schema.columns := by
    simp [columns, built.metaColumns]
  exact find?_isSome_iff.mpr ⟨_, isColumn, rfl⟩

end Schema

namespace Scope

variable {sources : List BoundSource} {first : BoundSource} {inWindow : Bool}

theorem find?_visibleSchema_rowtime (built : first.source.schema.Built) :
    ((first.visibleSchema inWindow).find? .rowtime).isSome :=
  (built.flattenIf _).find?_rowtime

theorem resolve_rowtime_of_mem (distinct : (sources.map BoundSource.alias).Nodup)
    (isBound : first ∈ sources) (built : first.source.schema.Built) :
    (ofSources sources inWindow).resolve (.qualified first.alias .rowtime) = .ok first.alias := by
  apply resolve_qualified_eq_ok_iff.mpr
  refine ⟨rfl, (has_ofSources_iff distinct).mpr ⟨first, isBound, rfl, ?_⟩⟩
  exact find?_visibleSchema_rowtime built

theorem sourcesWith_rowtime (distinct : (sources.map BoundSource.alias).Nodup)
    (built : ∀ bound ∈ sources, bound.source.schema.Built) :
    (ofSources sources inWindow).sourcesWith none .rowtime = sources.map BoundSource.alias := by
  have all : (sources.filter fun bound =>
      ((bound.visibleSchema inWindow).find? .rowtime).isSome) = sources :=
    List.filter_eq_self.mpr fun bound isBound => find?_visibleSchema_rowtime (built bound isBound)
  rw [sourcesWith_ofSources distinct, all]

theorem exists_resolve_rowtime_iff (distinct : (sources.map BoundSource.alias).Nodup)
    (built : ∀ bound ∈ sources, bound.source.schema.Built) (inWindow : Bool) :
    (∃ source, (ofSources sources inWindow).resolve (.unqualified .rowtime) = .ok source) ↔
      sources.length = 1 := by
  simp only [resolve_unqualified_eq_ok_iff, sourcesWith_rowtime distinct built,
    ← List.length_eq_one_iff, List.length_map]

theorem resolve_rowtime_of_several (distinct : (sources.map BoundSource.alias).Nodup)
    (built : ∀ bound ∈ sources, bound.source.schema.Built) (several : 1 < sources.length) :
    (ofSources sources inWindow).resolve (.unqualified .rowtime) =
      .error (.ambiguousColumn "ROWTIME" (sources.map BoundSource.alias)) := by
  apply resolve_eq_ambiguous_iff.mpr
  refine ⟨rfl, rfl, sourcesWith_rowtime distinct built, ?_⟩
  rw [List.length_map]
  exact several

end Scope

namespace Analysis

variable {a next : Analysis}

/-! ## Sources are only added -/

theorem sources_prefix_of_edit {edit : Edit} (edited : a.edit edit = .ok next) :
    a.sources <+: next.sources := by
  cases edit with
  | bindSource name source =>
    obtain ⟨bound, _, _, _, rfl⟩ := Analyzer.bindSource_eq_ok_iff.mp edited
    exact List.prefix_append a.sources [bound]
  | addJoin join =>
    change a.addJoin join = .ok next at edited
    unfold addJoin at edited
    split at edited
    · cases edited
      exact List.prefix_rfl
    · cases edited
  | _ =>
    have same : next.contents .sources = a.contents .sources := contents_edit_of_ne edited nofun
    exact (Prod.mk.inj same).1 ▸ List.prefix_rfl

theorem sources_prefix_attempt (a : Analysis) (edit : Edit) :
    a.sources <+: (a.attempt edit).1.sources := by
  rcases attempt_fst a edit with unchanged | edited
  · exact unchanged.symm ▸ List.prefix_rfl
  · exact sources_prefix_of_edit edited

theorem sources_prefix_attemptAll (a : Analysis) (edits : List Edit) :
    a.sources <+: (a.attemptAll edits).1.sources := by
  induction edits generalizing a with
  | nil => exact List.prefix_rfl
  | cons edit rest ih => exact (sources_prefix_attempt a edit).trans (ih (a.attempt edit).1)

/-! ## The anchor -/

/-- The implicit argument is the timestamp of the source with this alias, and it resolves to this source
before the grouping and after it. -/
def AnchoredAt (a : Analysis) (anchor : SourceName) : Prop :=
  a.defaultArgument = .ok (.qualified anchor .rowtime) ∧
    ∀ afterGrouping, ∃ scope, a.scope afterGrouping = .ok scope ∧
      scope.resolve (.qualified anchor .rowtime) = .ok anchor

theorem defaultArgument_eq_ok_iff {argument : ColumnRef} :
    a.defaultArgument = .ok argument ↔
      ∃ first, a.sources.head? = some first ∧ argument = .qualified first.alias .rowtime := by
  unfold defaultArgument
  cases a.sources with
  | nil => simp
  | cons first rest => simp [eq_comm]

theorem exists_defaultArgument_iff :
    (∃ argument, a.defaultArgument = .ok argument) ↔ a.sources ≠ [] := by
  simp only [defaultArgument_eq_ok_iff, ne_eq, ← List.head?_eq_none_iff,
    ← Option.isSome_iff_ne_none, Option.isSome_iff_exists]
  constructor
  · rintro ⟨_, first, isFirst, _⟩
    exact ⟨first, isFirst⟩
  · rintro ⟨first, isFirst⟩
    exact ⟨_, first, isFirst, rfl⟩

theorem Consistent.anchoredAt (consistent : a.Consistent) {first : BoundSource}
    (isFirst : a.sources.head? = some first) (built : first.source.schema.Built) :
    a.AnchoredAt first.alias := by
  have isBound := List.mem_of_head? isFirst
  refine ⟨defaultArgument_eq_ok_iff.mpr ⟨first, isFirst, rfl⟩, ?_⟩
  intro afterGrouping
  exact ⟨_, scope_of_ne_nil (List.ne_nil_of_mem isBound) afterGrouping,
    Scope.resolve_rowtime_of_mem consistent.aliases isBound built⟩

/-- Whatever was tried on the way to an analysis, it has an implicit argument exactly if it has a source,
and then this is the timestamp of the first source and resolves to it, and goes on doing so whatever is
tried later. The name of the timestamp alone resolves exactly with a single source, and with more it is
ambiguous between all of them. -/
theorem implicitArgument_resolves (emission : Emission) (edits : List Edit)
    (reached : ((start emission).attemptAll edits).1 = a)
    (built : ∀ bound ∈ a.sources, bound.source.schema.Built) :
    ((∃ argument, a.defaultArgument = .ok argument) ↔ a.sources ≠ []) ∧
    (∀ first, a.sources.head? = some first →
      a.AnchoredAt first.alias ∧ ∀ later, (a.attemptAll later).1.AnchoredAt first.alias) ∧
    (∀ afterGrouping,
      (∃ scope source, a.scope afterGrouping = .ok scope ∧
        scope.resolve (.unqualified .rowtime) = .ok source) ↔ a.sources.length = 1) ∧
    (1 < a.sources.length → ∀ afterGrouping, ∃ scope, a.scope afterGrouping = .ok scope ∧
      scope.resolve (.unqualified .rowtime) =
        .error (.ambiguousColumn "ROWTIME" (a.sources.map BoundSource.alias))) := by
  have invariant : a.Invariant := reached ▸ (start_invariant emission).attemptAll edits
  have distinct := invariant.aliases
  refine ⟨exists_defaultArgument_iff, ?_, ?_, ?_⟩
  · intro first isFirst
    have firstBuilt := built first (List.mem_of_head? isFirst)
    refine ⟨invariant.consistent.anchoredAt isFirst firstBuilt, ?_⟩
    intro later
    have isFirstLater : (a.attemptAll later).1.sources.head? = some first := by
      obtain ⟨more, added⟩ := sources_prefix_attemptAll a later
      rw [← added, List.head?_append, isFirst, Option.some_or]
    exact (invariant.attemptAll later).consistent.anchoredAt isFirstLater firstBuilt
  · intro afterGrouping
    have single_iff := Scope.exists_resolve_rowtime_iff distinct built
      (afterGrouping && a.window.isSome)
    constructor
    · rintro ⟨_, source, isScope, resolved⟩
      obtain ⟨_, rfl⟩ := scope_eq_ok_iff.mp isScope
      exact single_iff.mp ⟨source, resolved⟩
    · intro single
      obtain ⟨source, resolved⟩ := single_iff.mpr single
      have bound : a.sources ≠ [] := List.length_pos_iff.mp (by omega)
      exact ⟨_, source, scope_of_ne_nil bound afterGrouping, resolved⟩
  · intro several afterGrouping
    have bound : a.sources ≠ [] := List.length_pos_iff.mp (by omega)
    exact ⟨_, scope_of_ne_nil bound afterGrouping,
      Scope.resolve_rowtime_of_several distinct built several⟩

def flattenedVisits : Source :=
  { Analyzer.numbers ⟨"VISITS"⟩ ⟨"PAGE"⟩ with
    schema := ((Schema.empty.addKey ⟨"PAGE"⟩ .bigint).flattenIf true).addValue ⟨"USER"⟩ .string }

theorem built_flattenedVisits : flattenedVisits.schema.Built :=
  ((Schema.Built.empty.addKey _ _).flattenIf true).addValue _ _

def visitsThenOrders : List Edit :=
  [.bindSource ⟨"VISITS"⟩ flattenedVisits,
    .bindSource ⟨"ORDERS"⟩ (Analyzer.numbers ⟨"ORDERS"⟩ ⟨"ITEM"⟩)]

def pagesAndWindow : List Edit :=
  [.bindSource ⟨"PAGES"⟩ { Analyzer.numbers ⟨"PAGES"⟩ ⟨"ID"⟩ with schema := ⟨[], [], []⟩ },
    .setWindow Analyzer.hourly]

theorem implicitArgument_visitsThenOrders :
    ∃ a scope, ((start .changes).attemptAll visitsThenOrders).1 = a ∧
      (∀ bound ∈ a.sources, bound.source.schema.Built) ∧
      (a.attemptAll pagesAndWindow).1.AnchoredAt ⟨"VISITS"⟩ ∧
      a.scope false = .ok scope ∧
      scope.resolve (.unqualified .rowtime) =
        .error (.ambiguousColumn "ROWTIME" [⟨"VISITS"⟩, ⟨"ORDERS"⟩]) := by
  have isSources : ((start .changes).attemptAll visitsThenOrders).1.sources =
      [⟨⟨"VISITS"⟩, flattenedVisits, nofun⟩,
        ⟨⟨"ORDERS"⟩, Analyzer.numbers ⟨"ORDERS"⟩ ⟨"ITEM"⟩, nofun⟩] := rfl
  have built : ∀ bound ∈ ((start .changes).attemptAll visitsThenOrders).1.sources,
      bound.source.schema.Built := by
    rw [isSources, List.forall_mem_cons, List.forall_mem_singleton]
    exact ⟨built_flattenedVisits, Schema.Built.empty.addValue _ _⟩
  obtain ⟨_, anchored, _, ambiguous⟩ :=
    implicitArgument_resolves .changes visitsThenOrders rfl built
  obtain ⟨scope, isScope, refused⟩ := ambiguous (by decide) false
  exact ⟨_, scope, rfl, built, (anchored _ rfl).2 pagesAndWindow, isScope, refused⟩

end Analysis

end StreamQuery
