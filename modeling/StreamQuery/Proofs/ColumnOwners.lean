import Mathlib.Data.List.Nodup
import StreamQuery.Proofs.Resolution

/-! # The owners of a column name

The owners of a name are the sources to which a column of this name belongs when it is written with its
source. They decide what becomes of the name alone: with one owner it belongs to this owner, with none it
is unknown, and with several it is ambiguous between exactly these. When a column is missing from the
source that it is written with, the names that the error offers are those that this source owns.
-/

set_option autoImplicit false

namespace StreamQuery

theorem Schema.mem_columnNames_iff {schema : Schema} {name : ColumnName} :
    name ∈ schema.columnNames ↔ (schema.find? name).isSome := by
  have kept : (∃ column ∈ firstByName schema.columns, column.name = name) ↔
      ∃ column ∈ schema.columns, column.name = name := by
    rw [← named?_isSome_iff, ← named?_isSome_iff, named?_firstByName]
  rw [columnNames, List.mem_map, kept, find?_isSome_iff]

theorem Schema.nodup_columnNames (schema : Schema) : schema.columnNames.Nodup :=
  nodup_names_firstByName schema.columns

theorem ColumnName.text_injective : Function.Injective ColumnName.text :=
  fun _ _ => ColumnName.ext

namespace Scope

/-- A column of the name belongs to the source when it is written with it. -/
def Owns (scope : Scope) (source : SourceName) (name : ColumnName) : Prop :=
  scope.resolve (.qualified source name) = .ok source

instance (scope : Scope) (source : SourceName) (name : ColumnName) :
    Decidable (scope.Owns source name) :=
  decidable_of_iff ((scope.resolve (.qualified source name)).toOption = some source)
    toOption_eq_some_iff

def owners (scope : Scope) (name : ColumnName) : List SourceName :=
  scope.aliases.filter fun source => scope.Owns source name

/-- What a scope answers for a column name alone, given the owners of the name. -/
structure AnswersBy (scope : Scope) (name : ColumnName) (owners : List SourceName) : Prop where
  distinct : owners.Nodup
  resolved : ∀ source, scope.resolve (.unqualified name) = .ok source ↔ owners = [source]
  unknown : ∀ text candidates,
    scope.resolve (.unqualified name) = .error (.unknownColumn text candidates) ↔
      owners = [] ∧ text = name.text ∧ candidates = []
  ambiguous : ∀ text sources,
    scope.resolve (.unqualified name) = .error (.ambiguousColumn text sources) ↔
      2 ≤ owners.length ∧ text = name.text ∧ sources = owners
  everywhere : scope.sourcesWith none name = owners
  within : ∀ source, scope.sourcesWith (some source) name = if source ∈ owners then [source] else []

/-- What a scope answers for a column name with a source that does not own it. -/
structure BlamesRightly (scope : Scope) (source : SourceName) (name : ColumnName) : Prop where
  unknownSource : ∀ blamed,
    scope.resolve (.qualified source name) = .error (.unknownSource blamed) ↔
      source ∉ scope.aliases ∧ blamed = source
  missing : (∃ text candidates,
    scope.resolve (.qualified source name) = .error (.unknownColumn text candidates)) ↔
      source ∈ scope.aliases ∧ ¬scope.Owns source name
  candidates : ∀ text candidates,
    scope.resolve (.qualified source name) = .error (.unknownColumn text candidates) →
      text = source.text ++ "." ++ name.text ∧ candidates.Nodup ∧
        ∀ other : ColumnName, other.text ∈ candidates ↔ scope.Owns source other

variable {scope : Scope} {source : SourceName} {name : ColumnName}

/-! ## Owners -/

theorem owns_iff_has : scope.Owns source name ↔ scope.Has source name := by
  rw [Owns, resolve_qualified_eq_ok_iff]
  exact and_iff_right rfl

theorem mem_aliases_of_owns (owns : scope.Owns source name) : source ∈ scope.aliases := by
  obtain ⟨entry, isEntry, rfl, _⟩ := owns_iff_has.mp owns
  exact List.mem_map_of_mem isEntry

theorem mem_owners_iff : source ∈ scope.owners name ↔ scope.Owns source name := by
  rw [owners, List.mem_filter, decide_eq_true_eq]
  exact and_iff_right_of_imp mem_aliases_of_owns

theorem nodup_owners (scope : Scope) (name : ColumnName) : (scope.owners name).Nodup :=
  scope.entries.nodup_keys.filter _

theorem sourcesWith_none (scope : Scope) (name : ColumnName) :
    scope.sourcesWith none name = scope.owners name := by
  have found : ∀ entry ∈ scope.toList,
      (entry.2.find? name).isSome = decide (scope.Owns entry.1 name) := by
    intro entry isEntry
    have known : scope.schema? entry.1 = some entry.2 := schema?_eq_some_iff.mpr isEntry
    rw [Bool.eq_iff_iff, decide_eq_true_eq, owns_iff_has, has_iff_of_schema? known]
  have aliases : scope.aliases = scope.toList.map Prod.fst := rfl
  rw [sourcesWith, entriesOf, List.filter_congr found, owners, aliases, List.filter_map]
  rfl

theorem sourcesWith_some (scope : Scope) (source : SourceName) (name : ColumnName) :
    scope.sourcesWith (some source) name =
      if source ∈ scope.owners name then [source] else [] := by
  have restricted : scope.sourcesWith (some source) name =
      (scope.owners name).filter fun owner => owner = source := by
    rw [← sourcesWith_none, sourcesWith, sourcesWith, entriesOf, entriesOf, List.filter_map,
      List.filter_filter, List.filter_filter]
    congr 2
    funext entry
    exact Bool.and_comm _ _
  rw [restricted, List.filter_eq]
  split
  · rename_i isOwner
    rw [List.count_eq_one_of_mem (nodup_owners scope name) isOwner]
    rfl
  · rename_i noOwner
    rw [List.count_eq_zero_of_not_mem noOwner]
    rfl

/-! ## The name alone -/

theorem resolve_unqualified_eq_unknown_iff {text : String} {candidates : List String} :
    scope.resolve (.unqualified name) = .error (.unknownColumn text candidates) ↔
      scope.sourcesWith none name = [] ∧ text = name.text ∧ candidates = [] := by
  simp only [resolve, ColumnRef.unqualified]
  split
  · rename_i nowhere
    simp [nowhere, eq_comm]
  · rename_i only single
    simp [single]
  · rename_i sources notNone several
    constructor
    · intro unknown
      cases unknown
    · rintro ⟨nowhere, _⟩
      exact absurd nowhere notNone

theorem answersBy_owners (scope : Scope) (name : ColumnName) :
    scope.AnswersBy name (scope.owners name) := by
  have everywhere := sourcesWith_none scope name
  refine ⟨nodup_owners scope name, ?_, ?_, ?_, everywhere, ?_⟩
  · intro source
    rw [resolve_unqualified_eq_ok_iff, everywhere]
  · intro text candidates
    rw [resolve_unqualified_eq_unknown_iff, everywhere]
  · intro text sources
    have refused_iff : scope.resolve (.unqualified name) = .error (.ambiguousColumn text sources) ↔
        text = name.text ∧ scope.sourcesWith none name = sources ∧ 1 < sources.length :=
      resolve_eq_ambiguous_iff.trans (and_iff_right rfl)
    rw [refused_iff, everywhere]
    constructor
    · rintro ⟨rfl, rfl, several⟩
      exact ⟨several, rfl, rfl⟩
    · rintro ⟨several, rfl, rfl⟩
      exact ⟨rfl, rfl, several⟩
  · intro source
    exact sourcesWith_some scope source name

/-! ## The name with a source -/

theorem mem_aliases_iff : source ∈ scope.aliases ↔ ∃ schema, scope.schema? source = some schema := by
  rw [← Option.isSome_iff_exists, schema?_isSome_iff]
  rfl

theorem blamesRightly (scope : Scope) (source : SourceName) (name : ColumnName) :
    scope.BlamesRightly source name := by
  cases known : scope.schema? source with
  | none =>
    have absent : source ∉ scope.aliases := by simp [mem_aliases_iff, known]
    have refused : scope.resolve (.qualified source name) = .error (.unknownSource source) := by
      simp only [resolve, ColumnRef.qualified, known]
    refine ⟨?_, ?_, ?_⟩
    · intro blamed
      simp [refused, absent, eq_comm]
    · simp [refused, absent]
    · intro text candidates unknown
      cases refused.symm.trans unknown
  | some schema =>
    have present : source ∈ scope.aliases := mem_aliases_iff.mpr ⟨schema, known⟩
    have owns_iff : ∀ other, scope.Owns source other ↔ (schema.find? other).isSome := by
      intro other
      rw [owns_iff_has, has_iff_of_schema? known]
    cases found : schema.find? name with
    | some column =>
      have resolved : scope.resolve (.qualified source name) = .ok source := by
        simp only [resolve, ColumnRef.qualified, known, found]
      refine ⟨?_, ?_, ?_⟩
      · intro blamed
        simp [resolved, present]
      · simp [resolved, Owns]
      · intro text candidates unknown
        cases resolved.symm.trans unknown
    | none =>
      have refused : scope.resolve (.qualified source name) =
          .error (.unknownColumn (source.text ++ "." ++ name.text)
            (schema.columnNames.map (·.text))) := by
        simp only [resolve, ColumnRef.qualified, known, found]
        rfl
      refine ⟨?_, ?_, ?_⟩
      · intro blamed
        simp [refused, present]
      · simp [refused, present, owns_iff, found]
      · intro text candidates unknown
        cases refused.symm.trans unknown
        refine ⟨rfl, schema.nodup_columnNames.map ColumnName.text_injective, ?_⟩
        intro other
        rw [List.mem_map_of_injective ColumnName.text_injective, Schema.mem_columnNames_iff,
          owns_iff]

/-- In every scope the owners of a name decide what the name alone resolves to, and the errors of a name
with a source say what is wrong with it. -/
theorem resolve_by_owners (scope : Scope) (name : ColumnName) :
    (∀ source, source ∈ scope.owners name ↔
      scope.resolve (.qualified source name) = .ok source) ∧
    scope.AnswersBy name (scope.owners name) ∧
    ∀ source, scope.BlamesRightly source name :=
  ⟨fun _ => mem_owners_iff, answersBy_owners scope name, fun source => blamesRightly scope source name⟩

end Scope

end StreamQuery
