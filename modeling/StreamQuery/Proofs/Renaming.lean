import StreamQuery.Analysis.OfQuery
import StreamQuery.Proofs.Resolution

/-! # Renaming of the sources of a query

A renaming is a map of source names; one that is meant for some names only leaves the others as they
are. It gives each relation of a query a new alias and replaces the source of every column and of
every star. The names by which relations are looked up and the names of columns stay.
-/

set_option autoImplicit false

namespace StreamQuery

def ColumnRef.rename (newName : SourceName → SourceName) (column : ColumnRef) : ColumnRef :=
  { column with source := column.source.map newName }

namespace Expr

mutual

def rename (newName : SourceName → SourceName) : Expr → Expr
  | literal value => literal value
  | column reference => column (reference.rename newName)
  | call name arguments => call name (renameAll newName arguments)
  | comparison op left right => comparison op (rename newName left) (rename newName right)
  | arithmetic op left right => arithmetic op (rename newName left) (rename newName right)
  | and left right => and (rename newName left) (rename newName right)
  | or left right => or (rename newName left) (rename newName right)
  | not operand => not (rename newName operand)
  | isNull operand => isNull (rename newName operand)
  | isNotNull operand => isNotNull (rename newName operand)

def renameAll (newName : SourceName → SourceName) : List Expr → List Expr
  | [] => []
  | e :: rest => rename newName e :: renameAll newName rest

end

end Expr

def Call.rename (newName : SourceName → SourceName) (c : Call) : Call :=
  ⟨c.name, Expr.renameAll newName c.arguments⟩

def Projection.rename (newName : SourceName → SourceName) : Projection → Projection
  | .single expr name => .single (expr.rename newName) name
  | .star source => .star (source.map newName)

/-- The relation under its new name. What it denotes does not change. -/
def Relation.rename (newName : SourceName → SourceName) (relation : Relation) : Relation :=
  { relation with «alias» := some (newName relation.visibleName) }

def Join.rename (newName : SourceName → SourceName) (join : Join) : Join :=
  { join with
    relation := join.relation.rename newName
    criteria := join.criteria.rename newName }

def Query.rename (newName : SourceName → SourceName) (query : Query) : Query :=
  { query with
    select := query.select.map (Projection.rename newName)
    relation := query.relation.rename newName
    joins := query.joins.map (Join.rename newName)
    filter := query.filter.map (Expr.rename newName)
    grouping := query.grouping.map (Expr.rename newName)
    having := query.having.map (Expr.rename newName)
    partitioning := query.partitioning.map (Expr.rename newName) }

def BoundSource.rename (newName : SourceName → SourceName) (bound : BoundSource) : BoundSource :=
  { bound with «alias» := newName bound.alias }

def BoundJoin.rename (newName : SourceName → SourceName) (key : BoundJoin) : BoundJoin :=
  { key with leftKey := key.leftKey.rename newName, rightKey := key.rightKey.rename newName }

def Analysis.rename (newName : SourceName → SourceName) (select : List Projection)
    (a : Analysis) : Analysis :=
  { a with
    sources := a.sources.map (BoundSource.rename newName)
    joins := a.joins.map (BoundJoin.rename newName)
    select := select
    filter := a.filter.map (Expr.rename newName)
    grouping := a.grouping.map (Expr.rename newName)
    having := a.having.map (Expr.rename newName)
    partitioning := a.partitioning.map (Expr.rename newName)
    tableCalls := a.tableCalls.map (Call.rename newName) }

/-! ## What a renaming does to the parts of an expression -/

variable {newName : SourceName → SourceName}

namespace Expr

mutual

theorem columns_rename : (e : Expr) →
    (e.rename newName).columns = e.columns.map (ColumnRef.rename newName)
  | literal _ => rfl
  | column _ => rfl
  | call _ arguments => columnsOfAll_renameAll arguments
  | comparison _ left right => by
    simp [rename, columns, columns_rename left, columns_rename right]
  | arithmetic _ left right => by
    simp [rename, columns, columns_rename left, columns_rename right]
  | and left right => by simp [rename, columns, columns_rename left, columns_rename right]
  | or left right => by simp [rename, columns, columns_rename left, columns_rename right]
  | not operand => columns_rename operand
  | isNull operand => columns_rename operand
  | isNotNull operand => columns_rename operand

theorem columnsOfAll_renameAll : (es : List Expr) →
    columnsOfAll (renameAll newName es) = (columnsOfAll es).map (ColumnRef.rename newName)
  | [] => rfl
  | e :: rest => by
    simp [renameAll, columnsOfAll, columns_rename e, columnsOfAll_renameAll rest]

end

mutual

theorem calls_rename : (e : Expr) →
    (e.rename newName).calls = e.calls.map (Call.rename newName)
  | literal _ => rfl
  | column _ => rfl
  | call name arguments => by
    simp [rename, calls, Call.rename, callsOfAll_renameAll arguments]
  | comparison _ left right => by simp [rename, calls, calls_rename left, calls_rename right]
  | arithmetic _ left right => by simp [rename, calls, calls_rename left, calls_rename right]
  | and left right => by simp [rename, calls, calls_rename left, calls_rename right]
  | or left right => by simp [rename, calls, calls_rename left, calls_rename right]
  | not operand => calls_rename operand
  | isNull operand => calls_rename operand
  | isNotNull operand => calls_rename operand

theorem callsOfAll_renameAll : (es : List Expr) →
    callsOfAll (renameAll newName es) = (callsOfAll es).map (Call.rename newName)
  | [] => rfl
  | e :: rest => by simp [renameAll, callsOfAll, calls_rename e, callsOfAll_renameAll rest]

end

end Expr

theorem ColumnRef.rename_injective (injective : Function.Injective newName) :
    Function.Injective (ColumnRef.rename newName) := by
  rintro ⟨source, name⟩ ⟨source', name'⟩ equal
  simp only [rename, ColumnRef.mk.injEq] at equal
  obtain ⟨sameRenamed, rfl⟩ := equal
  have same : source = source' := Option.map_injective injective sameRenamed
  rw [same]

theorem ColumnRef.rename_beq (injective : Function.Injective newName) (c d : ColumnRef) :
    (c.rename newName == d.rename newName) = (c == d) := by
  rw [Bool.eq_iff_iff, beq_iff_eq, beq_iff_eq, (rename_injective injective).eq_iff]

namespace Expr

mutual

theorem same_rename (injective : Function.Injective newName) : (e f : Expr) →
    (e.rename newName).same (f.rename newName) = e.same f
  | literal _, f => by cases f <;> simp [rename, same]
  | column c, f => by
    cases f <;> simp [rename, same, ColumnRef.rename_beq injective]
  | call _ es, f => by
    cases f with
    | call _ fs => simp [rename, same, sameAll_renameAll injective es fs]
    | _ => simp [rename, same]
  | comparison _ l r, f => by
    cases f with
    | comparison _ l' r' =>
      simp [rename, same, same_rename injective l l', same_rename injective r r']
    | _ => simp [rename, same]
  | arithmetic _ l r, f => by
    cases f with
    | arithmetic _ l' r' =>
      simp [rename, same, same_rename injective l l', same_rename injective r r']
    | _ => simp [rename, same]
  | and l r, f => by
    cases f with
    | and l' r' =>
      simp [rename, same, same_rename injective l l', same_rename injective r r']
    | _ => simp [rename, same]
  | or l r, f => by
    cases f with
    | or l' r' =>
      simp [rename, same, same_rename injective l l', same_rename injective r r']
    | _ => simp [rename, same]
  | not e, f => by
    cases f with
    | not e' => simp [rename, same, same_rename injective e e']
    | _ => simp [rename, same]
  | isNull e, f => by
    cases f with
    | isNull e' => simp [rename, same, same_rename injective e e']
    | _ => simp [rename, same]
  | isNotNull e, f => by
    cases f with
    | isNotNull e' => simp [rename, same, same_rename injective e e']
    | _ => simp [rename, same]

theorem sameAll_renameAll (injective : Function.Injective newName) : (es fs : List Expr) →
    sameAll (renameAll newName es) (renameAll newName fs) = sameAll es fs
  | [], fs => by cases fs <;> simp [renameAll, sameAll]
  | e :: es, fs => by
    cases fs with
    | nil => simp [renameAll, sameAll]
    | cons f fs =>
      simp [renameAll, sameAll, same_rename injective e f, sameAll_renameAll injective es fs]

end

theorem isIn_rename (injective : Function.Injective newName) (e : Expr) (es : List Expr) :
    (e.rename newName).isIn (es.map (rename newName)) = e.isIn es := by
  simp [isIn, same_rename injective, Function.comp_def]

end Expr

theorem Projection.columns_rename (item : Projection) :
    (item.rename newName).columns = item.columns.map (ColumnRef.rename newName) := by
  cases item with
  | single expr name => exact expr.columns_rename
  | star source => rfl

theorem Projection.calls_rename (item : Projection) :
    (item.rename newName).calls = item.calls.map (Call.rename newName) := by
  cases item with
  | single expr name => exact expr.calls_rename
  | star source => rfl

/-! ## Resolution under new names

If the sources of a scope and the source of a column are renamed alike, and no two names become one,
the column resolves to the source of the new name or fails for the same kind of reason.
-/

/-- Two errors have one cause, whatever names they report. -/
def AnalysisError.SameKind (first second : AnalysisError) : Prop :=
  first.ctorIdx = second.ctorIdx

namespace Scope

def renameEntry (newName : SourceName → SourceName) (entry : SourceName × Schema) :
    SourceName × Schema :=
  (newName entry.1, entry.2)

/-- One scope is another under new names. -/
def RenamedBy (newName : SourceName → SourceName) (scope renamed : Scope) : Prop :=
  renamed.toList = scope.toList.map (renameEntry newName)

variable {scope renamed : Scope}

theorem fst_renameEntry (newName : SourceName → SourceName) (entry : SourceName × Schema) :
    (renameEntry newName entry).1 = newName entry.1 := rfl

theorem RenamedBy.schema? (renames : scope.RenamedBy newName renamed)
    (injective : Function.Injective newName) (source : SourceName) :
    renamed.schema? (newName source) = scope.schema? source := by
  have found : renamed.entries.get? (newName source) =
      (scope.entries.get? source).map (renameEntry newName) :=
    Roster.get?_map injective (fst_renameEntry newName) renames source
  rw [Scope.schema?, found, Option.map_map]
  rfl

theorem RenamedBy.entriesOf (renames : scope.RenamedBy newName renamed)
    (injective : Function.Injective newName) (source : Option SourceName) :
    renamed.entriesOf (source.map newName) =
      (scope.entriesOf source).map (renameEntry newName) := by
  cases source with
  | none => exact renames
  | some source =>
    rw [Option.map_some, Scope.entriesOf, renames, List.filter_map, Scope.entriesOf]
    congr 2
    funext entry
    simp only [Function.comp_apply, fst_renameEntry, injective.eq_iff]

theorem RenamedBy.sourcesWith (renames : scope.RenamedBy newName renamed) (name : ColumnName) :
    renamed.sourcesWith none name = (scope.sourcesWith none name).map newName := by
  have entries : renamed.entriesOf none = (scope.entriesOf none).map (renameEntry newName) :=
    renames
  rw [Scope.sourcesWith, entries, List.filter_map, List.map_map, Scope.sourcesWith, List.map_map]
  rfl

theorem RenamedBy.resolve (renames : scope.RenamedBy newName renamed)
    (injective : Function.Injective newName) (column : ColumnRef) :
    Alike AnalysisError.SameKind (fun source source' => source' = newName source)
      (scope.resolve column) (renamed.resolve (column.rename newName)) := by
  obtain ⟨owner, name⟩ := column
  cases owner with
  | some owner =>
    simp only [Scope.resolve, ColumnRef.rename, Option.map_some, renames.schema? injective]
    cases scope.schema? owner with
    | none => exact .error rfl
    | some schema =>
      dsimp only
      cases schema.find? name with
      | none => exact .error rfl
      | some found => exact .ok rfl
  | none =>
    simp only [Scope.resolve, ColumnRef.rename, Option.map_none, renames.sourcesWith]
    cases scope.sourcesWith none name with
    | nil => exact .error rfl
    | cons first rest =>
      cases rest with
      | nil => exact .ok rfl
      | cons second others => exact .error rfl

theorem RenamedBy.check (renames : scope.RenamedBy newName renamed)
    (injective : Function.Injective newName) (columns : List ColumnRef) :
    Alike AnalysisError.SameKind Eq (scope.check columns)
      (renamed.check (columns.map (ColumnRef.rename newName))) := by
  induction columns with
  | nil => exact .ok rfl
  | cons column rest ih =>
    apply Alike.bind (renames.resolve injective column)
    intro _ _ _
    exact ih

theorem renamedBy_ofSources (injective : Function.Injective newName) (sources : List BoundSource)
    (inWindow : Bool) :
    (ofSources sources inWindow).RenamedBy newName
      (ofSources (sources.map (BoundSource.rename newName)) inWindow) := by
  have shown : (sources.map (BoundSource.rename newName)).map
      (fun bound => (bound.alias, bound.visibleSchema inWindow)) =
      (sources.map fun bound => (bound.alias, bound.visibleSchema inWindow)).map
        (renameEntry newName) := by
    rw [List.map_map, List.map_map]
    rfl
  unfold ofSources
  rw [shown]
  exact Roster.toList_foldl_insert_map injective (fst_renameEntry newName) _ rfl

end Scope

/-! ### The scope of an analysis -/

theorem Analysis.scope_rename (injective : Function.Injective newName) (select : List Projection)
    (a : Analysis) (afterGrouping : Bool) :
    Alike AnalysisError.SameKind (Scope.RenamedBy newName) (a.scope afterGrouping)
      ((a.rename newName select).scope afterGrouping) := by
  by_cases bound : a.sources = []
  · have unbound : (a.rename newName select).sources = [] := by
      simp only [Analysis.rename, bound, List.map_nil]
    simp only [Analysis.scope, bound, unbound]
    exact .error rfl
  · have renamedBound : (a.rename newName select).sources ≠ [] := by
      simpa only [Analysis.rename, ne_eq, List.map_eq_nil_iff] using bound
    rw [Analysis.scope_of_ne_nil bound, Analysis.scope_of_ne_nil renamedBound]
    exact .ok (Scope.renamedBy_ofSources injective a.sources _)

end StreamQuery
