import StreamQuery.Analysis.Edit
import StreamQuery.Proofs.Flattening
import StreamQuery.Proofs.Outcome

/-! # Resolution of columns

A column with a source resolves exactly if that source has it, and one without a source exactly if a
single source has it. A scope in which more sources have a column does not take it away from those that
had it: at worst, a column without a source becomes ambiguous. Sources that are added make such a scope.
-/

set_option autoImplicit false

namespace StreamQuery

namespace Scope

def Has (scope : Scope) (owner : SourceName) (name : ColumnName) : Prop :=
  ∃ entry ∈ scope.toList, entry.1 = owner ∧ (entry.2.find? name).isSome

def Resolves (scope : Scope) (column : ColumnRef) : Prop :=
  ∃ source, scope.resolve column = .ok source

/-- A column belongs to some source, or that source is one of several that make it ambiguous. A column
with a source is never ambiguous. -/
def Keeps (scope : Scope) (column : ColumnRef) (source : SourceName) : Prop :=
  scope.resolve column = .ok source ∨
    column.source = none ∧ ∃ sources, source ∈ sources ∧
      scope.resolve column = .error (.ambiguousColumn column.name.text sources)

def Extends (later earlier : Scope) : Prop :=
  ∃ more, later.toList = earlier.toList ++ more

/-- Every source that has a column in one scope has it in another, and these sources come in the same
order there. -/
def Covers (later earlier : Scope) : Prop :=
  ∀ name, (earlier.sourcesWith none name).Sublist (later.sourcesWith none name)

theorem schema?_eq_some_iff {scope : Scope} {owner : SourceName} {schema : Schema} :
    scope.schema? owner = some schema ↔ (owner, schema) ∈ scope.toList := by
  simp only [schema?, Option.map_eq_some_iff, Roster.get?_eq_some_iff]
  constructor
  · intro given
    obtain ⟨⟨_, _⟩, ⟨isEntry, rfl⟩, rfl⟩ := given
    exact isEntry
  · intro isEntry
    exact ⟨(owner, schema), ⟨isEntry, rfl⟩, rfl⟩

theorem schema?_isSome_iff {scope : Scope} {owner : SourceName} :
    (scope.schema? owner).isSome ↔ owner ∈ scope.toList.map Prod.fst := by
  simp only [schema?, Option.isSome_map, Roster.get?_isSome_iff]
  rfl

theorem has_iff_of_schema? {scope : Scope} {owner : SourceName} {schema : Schema}
    {name : ColumnName} (known : scope.schema? owner = some schema) :
    scope.Has owner name ↔ (schema.find? name).isSome := by
  constructor
  · rintro ⟨⟨_, other⟩, isEntry, rfl, found⟩
    have same := (schema?_eq_some_iff.mpr isEntry).symm.trans known
    obtain rfl := Option.some.inj same
    exact found
  · intro found
    exact ⟨(owner, schema), schema?_eq_some_iff.mp known, rfl, found⟩

theorem mem_sourcesWith_iff {scope : Scope} {owner : SourceName} {name : ColumnName} :
    owner ∈ scope.sourcesWith none name ↔ scope.Has owner name := by
  simp only [sourcesWith, entriesOf, List.mem_map, List.mem_filter, Has]
  constructor
  · intro given
    obtain ⟨entry, ⟨isEntry, found⟩, rfl⟩ := given
    exact ⟨entry, isEntry, rfl, found⟩
  · intro given
    obtain ⟨entry, isEntry, rfl, found⟩ := given
    exact ⟨entry, ⟨isEntry, found⟩, rfl⟩

theorem resolve_qualified_eq_ok_iff {scope : Scope} {owner source : SourceName}
    {name : ColumnName} :
    scope.resolve (.qualified owner name) = .ok source ↔ source = owner ∧ scope.Has owner name := by
  simp only [resolve, ColumnRef.qualified]
  constructor
  · intro resolved
    split at resolved
    · cases resolved
    · rename_i schema known
      split at resolved
      · rename_i column found
        cases resolved
        exact ⟨rfl, (owner, schema), schema?_eq_some_iff.mp known, rfl, by simp [found]⟩
      · cases resolved
  · intro given
    obtain ⟨rfl, ⟨_, schema⟩, isEntry, rfl, found⟩ := given
    obtain ⟨column, found⟩ := Option.isSome_iff_exists.mp found
    simp only [schema?_eq_some_iff.mpr isEntry, found]

theorem resolve_unqualified_eq_ok_iff {scope : Scope} {source : SourceName} {name : ColumnName} :
    scope.resolve (.unqualified name) = .ok source ↔ scope.sourcesWith none name = [source] := by
  simp only [resolve, ColumnRef.unqualified]
  split
  · rename_i nowhere
    simp [nowhere]
  · rename_i only single
    simp [single]
  · rename_i sources _ several
    constructor
    · intro resolved
      cases resolved
    · intro single
      exact absurd single (several source)

theorem resolve_eq_ambiguous_iff {scope : Scope} {column : ColumnRef} {text : String}
    {sources : List SourceName} :
    scope.resolve column = .error (.ambiguousColumn text sources) ↔
      column.source = none ∧ text = column.name.text ∧
        scope.sourcesWith none column.name = sources ∧ 1 < sources.length := by
  constructor
  · intro refused
    unfold resolve at refused
    split at refused
    · split at refused
      · cases refused
      · split at refused <;> cases refused
    · rename_i noSource
      split at refused
      · cases refused
      · cases refused
      · rename_i shown notOne
        cases refused
        refine ⟨noSource, rfl, rfl, ?_⟩
        match given : scope.sourcesWith none column.name with
        | [] => exact absurd given shown
        | [source] => exact absurd given (notOne source)
        | _ :: _ :: _ => simp
  · rintro ⟨noSource, rfl, rfl, several⟩
    simp only [resolve, noSource]
    split
    · rename_i nowhere
      simp [nowhere] at several
    · rename_i single
      simp [single] at several
    · rfl

theorem has_of_resolve {scope : Scope} {column : ColumnRef} {source : SourceName}
    (resolved : scope.resolve column = .ok source) : scope.Has source column.name := by
  obtain ⟨owner, name⟩ := column
  cases owner with
  | none =>
    have single := resolve_unqualified_eq_ok_iff.mp resolved
    apply mem_sourcesWith_iff.mp
    simp [single]
  | some owner =>
    obtain ⟨rfl, has⟩ := resolve_qualified_eq_ok_iff.mp resolved
    exact has

theorem Covers.has {later earlier : Scope} (covers : later.Covers earlier) {owner : SourceName}
    {name : ColumnName} (has : earlier.Has owner name) : later.Has owner name :=
  mem_sourcesWith_iff.mp ((covers name).subset (mem_sourcesWith_iff.mpr has))

theorem Covers.keeps {later earlier : Scope} (covers : later.Covers earlier) {column : ColumnRef}
    {source : SourceName} (resolved : earlier.resolve column = .ok source) :
    later.Keeps column source := by
  obtain ⟨owner, name⟩ := column
  cases owner with
  | some owner =>
    obtain ⟨equal, has⟩ := resolve_qualified_eq_ok_iff.mp resolved
    exact .inl (resolve_qualified_eq_ok_iff.mpr ⟨equal, covers.has has⟩)
  | none =>
    have isShown : source ∈ later.sourcesWith none name :=
      mem_sourcesWith_iff.mpr (covers.has (has_of_resolve resolved))
    cases shown : later.sourcesWith none name with
    | nil => simp [shown] at isShown
    | cons first rest =>
      rw [shown] at isShown
      cases rest with
      | nil =>
        obtain rfl := List.mem_singleton.mp isShown
        exact .inl (resolve_unqualified_eq_ok_iff.mpr shown)
      | cons second rest =>
        have several : 1 < (first :: second :: rest).length := by simp
        exact .inr ⟨rfl, _, isShown, resolve_eq_ambiguous_iff.mpr ⟨rfl, rfl, shown, several⟩⟩

theorem Covers.ambiguous {later earlier : Scope} (covers : later.Covers earlier)
    {column : ColumnRef} {text : String} {sources : List SourceName}
    (refused : earlier.resolve column = .error (.ambiguousColumn text sources)) :
    ∃ more, sources.Sublist more ∧
      later.resolve column = .error (.ambiguousColumn text more) := by
  obtain ⟨noSource, rfl, rfl, several⟩ := resolve_eq_ambiguous_iff.mp refused
  have among := covers column.name
  have stillSeveral := Nat.lt_of_lt_of_le several among.length_le
  exact ⟨_, among, resolve_eq_ambiguous_iff.mpr ⟨noSource, rfl, rfl, stillSeveral⟩⟩

theorem Extends.covers {later earlier : Scope} (extended : later.Extends earlier) :
    later.Covers earlier := by
  obtain ⟨more, appended⟩ := extended
  intro name
  simp only [sourcesWith, entriesOf, appended, List.filter_append, List.map_append]
  exact List.sublist_append_left ..

theorem check_eq_ok_iff {scope : Scope} {columns : List ColumnRef} :
    scope.check columns = .ok () ↔ ∀ column ∈ columns, scope.Resolves column := by
  induction columns with
  | nil => simp [check]
  | cons column rest ih =>
    simp only [check, bind_eq_ok_iff, exists_and_right, List.forall_mem_cons, ih]
    rfl

/-! ## The scope of bound sources -/

/-- The scope of some bound sources, before the window of a query is applied or after it. -/
def ofSources (sources : List BoundSource) (inWindow : Bool) : Scope :=
  .ofList (sources.map fun bound => (bound.alias, bound.visibleSchema inWindow))

variable {sources more : List BoundSource} {inWindow : Bool}

theorem toList_ofSources (distinct : (sources.map BoundSource.alias).Nodup) :
    (ofSources sources inWindow).toList =
      sources.map fun bound => (bound.alias, bound.visibleSchema inWindow) := by
  apply Roster.toList_ofList
  rw [List.map_map]
  exact distinct

theorem ofSources_append_extends (distinct : ((sources ++ more).map BoundSource.alias).Nodup) :
    (ofSources (sources ++ more) inWindow).Extends (ofSources sources inWindow) := by
  have distinctFirst : (sources.map BoundSource.alias).Nodup := by
    rw [List.map_append] at distinct
    exact distinct.sublist (List.sublist_append_left ..)
  refine ⟨more.map fun bound => (bound.alias, bound.visibleSchema inWindow), ?_⟩
  rw [toList_ofSources distinct, toList_ofSources distinctFirst, List.map_append]

theorem has_ofSources_iff (distinct : (sources.map BoundSource.alias).Nodup) {owner : SourceName}
    {name : ColumnName} :
    (ofSources sources inWindow).Has owner name ↔
      ∃ bound ∈ sources, bound.alias = owner ∧ ((bound.visibleSchema inWindow).find? name).isSome := by
  rw [Has, toList_ofSources distinct]
  simp only [List.mem_map]
  constructor
  · intro given
    obtain ⟨_, ⟨bound, isBound, rfl⟩, named, found⟩ := given
    exact ⟨bound, isBound, named, found⟩
  · intro given
    obtain ⟨bound, isBound, named, found⟩ := given
    exact ⟨_, ⟨bound, isBound, rfl⟩, named, found⟩

theorem exists_of_resolve_take {column : ColumnRef} {source : SourceName} {count : Nat}
    (distinct : (sources.map BoundSource.alias).Nodup)
    (resolved : (ofSources (sources.take count) inWindow).resolve column = .ok source) :
    ∃ k bound, k < count ∧ sources[k]? = some bound ∧ bound.alias = source := by
  have distinctFront : ((sources.take count).map BoundSource.alias).Nodup :=
    distinct.sublist ((List.take_sublist count sources).map _)
  obtain ⟨bound, isFront, named, _⟩ := (has_ofSources_iff distinctFront).mp (has_of_resolve resolved)
  obtain ⟨k, isBound⟩ := List.mem_iff_getElem?.mp isFront
  rw [List.getElem?_take] at isBound
  split at isBound
  · rename_i inFront
    exact ⟨k, bound, inFront, isBound, named⟩
  · cases isBound

theorem schema?_ofSources_eq_some_iff (distinct : (sources.map BoundSource.alias).Nodup)
    {owner : SourceName} {schema : Schema} :
    (ofSources sources inWindow).schema? owner = some schema ↔
      ∃ bound ∈ sources, bound.alias = owner ∧ bound.visibleSchema inWindow = schema := by
  simp only [schema?_eq_some_iff, toList_ofSources distinct, List.mem_map, Prod.mk.injEq]

theorem schema?_ofSources_of_mem {bound : BoundSource}
    (distinct : (sources.map BoundSource.alias).Nodup) (isBound : bound ∈ sources)
    (inWindow : Bool) :
    (ofSources sources inWindow).schema? bound.alias = some (bound.visibleSchema inWindow) :=
  (schema?_ofSources_eq_some_iff distinct).mpr ⟨bound, isBound, rfl, rfl⟩

theorem schema?_ofSources_isSome_iff (distinct : (sources.map BoundSource.alias).Nodup)
    {owner : SourceName} :
    ((ofSources sources inWindow).schema? owner).isSome ↔ owner ∈ sources.map BoundSource.alias := by
  rw [schema?_isSome_iff, toList_ofSources distinct, List.map_map]
  rfl

theorem isJoin_ofSources (distinct : (sources.map BoundSource.alias).Nodup) :
    (ofSources sources inWindow).isJoin = decide (1 < sources.length) := by
  have size : (ofSources sources inWindow).entries.size = sources.length := by
    change (ofSources sources inWindow).toList.length = sources.length
    rw [toList_ofSources distinct, List.length_map]
  rw [isJoin, size]

end Scope

theorem BoundSource.find?_visibleSchema_isSome {bound : BoundSource} {name : ColumnName}
    (inWindow : Bool) (found : ((bound.visibleSchema false).find? name).isSome) :
    ((bound.visibleSchema inWindow).find? name).isSome := by
  rw [visibleSchema, Bool.or_false] at found
  exact Schema.find?_flattenIf_or_isSome inWindow found

namespace Analysis

theorem scope_eq_ok_iff {a : Analysis} {afterGrouping : Bool} {scope : Scope} :
    a.scope afterGrouping = .ok scope ↔
      a.sources ≠ [] ∧ scope = .ofSources a.sources (afterGrouping && a.window.isSome) := by
  unfold Analysis.scope
  split
  · rename_i unbound
    simp [List.isEmpty_iff.mp unbound]
  · rename_i bound
    rw [List.isEmpty_iff] at bound
    simp only [Except.ok.injEq, ne_eq, bound, not_false_eq_true, true_and]
    exact eq_comm

theorem scope_of_ne_nil {a : Analysis} (bound : a.sources ≠ []) (afterGrouping : Bool) :
    a.scope afterGrouping = .ok (.ofSources a.sources (afterGrouping && a.window.isSome)) :=
  scope_eq_ok_iff.mpr ⟨bound, rfl⟩

end Analysis

end StreamQuery
