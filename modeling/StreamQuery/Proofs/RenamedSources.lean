import StreamQuery.Proofs.Renaming

/-! # Binding sources under new names

A query and the query under new names bind their sources in step: after each relation and each join the
one analysis is the other under new names, or both walks have ended for the same kind of reason.
-/

set_option autoImplicit false

namespace StreamQuery

/-- One analysis is another under new names. Its select list is known by its columns alone, since the
names in the result of a star depend on the names of the sources. -/
def Analysis.RenamedBy (newName : SourceName → SourceName) (a b : Analysis) : Prop :=
  ∃ select : List Projection,
    select.flatMap Projection.columns =
        (a.select.flatMap Projection.columns).map (ColumnRef.rename newName) ∧
      b = a.rename newName select

theorem Expr.eq_comparison_of_rename {newName : SourceName → SourceName} {criteria left right : Expr}
    (renamed : criteria.rename newName = .comparison .equal left right) :
    ∃ first second, criteria = .comparison .equal first second := by
  cases criteria with
  | comparison op first second =>
    rw [Expr.rename, Expr.comparison.injEq] at renamed
    obtain ⟨rfl, _⟩ := renamed
    exact ⟨first, second, rfl⟩
  | _ => simp [Expr.rename] at renamed

namespace Analyzer

variable {analyzer : Analyzer} {newName : SourceName → SourceName} {a b : Analysis}
  {scope renamed : Scope}

/-! ## Relations -/

theorem mem_aliases_rename (injective : Function.Injective newName) {select : List Projection}
    {name : SourceName} :
    newName name ∈ (a.rename newName select).sources.map BoundSource.alias ↔
      name ∈ a.sources.map BoundSource.alias := by
  have aliases : (a.rename newName select).sources.map BoundSource.alias =
      (a.sources.map BoundSource.alias).map newName := by
    simp only [Analysis.rename, List.map_map]
    rfl
  rw [aliases]
  simp only [List.mem_map, injective.eq_iff, exists_eq_right]

theorem bindSource_rename (injective : Function.Injective newName) (name : SourceName)
    (source : Source) (renames : a.RenamedBy newName b) :
    Alike AnalysisError.SameKind (Analysis.RenamedBy newName) (a.bindSource name source)
      (b.bindSource (newName name) source) := by
  obtain ⟨select, columns, rfl⟩ := renames
  unfold Analysis.bindSource
  by_cases taken : name ∈ a.sources.map BoundSource.alias
  · rw [if_pos taken, if_pos ((mem_aliases_rename injective).mpr taken)]
    exact .error rfl
  · rw [if_neg taken, if_neg (mt (mem_aliases_rename injective).mp taken)]
    unfold BoundSource.bind
    by_cases subquery : source.kind = .subquery
    · rw [dif_pos subquery, dif_pos subquery]
      exact .error rfl
    · rw [dif_neg subquery, dif_neg subquery]
      refine .ok ⟨select, columns, ?_⟩
      simp [Analysis.rename, BoundSource.rename]

theorem bindRelation_rename (injective : Function.Injective newName) (relation : Relation)
    (renames : a.RenamedBy newName b) :
    Alike AnalysisError.SameKind (Analysis.RenamedBy newName) (analyzer.bindRelation relation a)
      (analyzer.bindRelation (relation.rename newName) b) := by
  have sameName : (relation.rename newName).name = relation.name := rfl
  unfold bindRelation
  rw [sameName]
  cases analyzer.source? relation.name with
  | none => exact .error rfl
  | some source => exact bindSource_rename injective relation.visibleName source renames

/-! ## Joins -/

theorem sideOf_rename (injective : Function.Injective newName)
    (renames : scope.RenamedBy newName renamed) (next : SourceName) (column : ColumnRef) :
    Alike AnalysisError.SameKind Eq (sideOf scope next column)
      (sideOf renamed (newName next) (column.rename newName)) := by
  apply Alike.map (renames.resolve injective column)
  rintro source _ rfl
  simp only [injective.eq_iff]

theorem commonSide_rename (injective : Function.Injective newName)
    (renames : scope.RenamedBy newName renamed) (next : SourceName) (side : Option Side)
    (columns : List ColumnRef) :
    Alike AnalysisError.SameKind Eq (commonSide scope next side columns)
      (commonSide renamed (newName next) side (columns.map (ColumnRef.rename newName))) := by
  induction columns generalizing side with
  | nil => exact .ok rfl
  | cons column rest ih =>
    apply Alike.bind (sideOf_rename injective renames next column)
    rintro current _ rfl
    -- The sides agree so far, so both walks go on or both stop at this column.
    cases side with
    | none => exact ih (some current)
    | some previous =>
      by_cases same : previous = current
      · simp only [if_pos same]
        exact ih (some previous)
      · simp only [if_neg same]
        exact .ok rfl

theorem orient_rename (injective : Function.Injective newName)
    (renames : scope.RenamedBy newName renamed) (join : Join) (first second : Expr) :
    Alike AnalysisError.SameKind (fun key key' => key' = BoundJoin.rename newName key)
      (orient scope join first second)
      (orient renamed (join.rename newName) (first.rename newName) (second.rename newName)) := by
  unfold orient
  rw [first.columns_rename, second.columns_rename]
  apply Alike.bind (commonSide_rename injective renames join.relation.visibleName none first.columns)
  rintro firstSide _ rfl
  apply Alike.bind (commonSide_rename injective renames join.relation.visibleName none second.columns)
  rintro secondSide _ rfl
  match firstSide, secondSide with
  | some .left, some .right => exact .ok rfl
  | some .right, some .left => exact .ok rfl
  | some .left, some .left => exact .error rfl
  | some .right, some .right => exact .error rfl
  | some .left, none => exact .error rfl
  | some .right, none => exact .error rfl
  | none, _ => exact .error rfl

theorem joinKeys_rename (injective : Function.Injective newName) (join : Join)
    (renames : a.RenamedBy newName b) :
    Alike AnalysisError.SameKind (fun key key' => key' = BoundJoin.rename newName key)
      (joinKeys join a) (joinKeys (join.rename newName) b) := by
  obtain ⟨select, _, rfl⟩ := renames
  by_cases equation : ∃ first second, join.criteria = .comparison .equal first second
  · obtain ⟨first, second, criteria⟩ := equation
    have criteriaRenamed : (join.rename newName).criteria =
        .comparison .equal (first.rename newName) (second.rename newName) := by
      rw [Join.rename, criteria, Expr.rename]
    simp only [joinKeys, criteria, criteriaRenamed]
    apply Alike.bind (Analysis.scope_rename injective select a false)
    intro scope renamed renames
    exact orient_rename injective renames join first second
  · unfold joinKeys
    split
    · rename_i first second criteria
      exact absurd ⟨first, second, criteria⟩ equation
    · split
      · rename_i criteriaRenamed
        exact absurd (Expr.eq_comparison_of_rename criteriaRenamed) equation
      · exact .error rfl

theorem addJoin_rename (key : BoundJoin) (renames : a.RenamedBy newName b) :
    Alike AnalysisError.SameKind (Analysis.RenamedBy newName) (a.addJoin key)
      (b.addJoin (key.rename newName)) := by
  obtain ⟨select, columns, rfl⟩ := renames
  have room : (a.rename newName select).joins.length + 1 < (a.rename newName select).sources.length ↔
      a.joins.length + 1 < a.sources.length := by
    simp only [Analysis.rename, List.length_map]
  unfold Analysis.addJoin
  by_cases hasRoom : a.joins.length + 1 < a.sources.length
  · rw [if_pos hasRoom, if_pos (room.mpr hasRoom)]
    refine .ok ⟨select, columns, ?_⟩
    simp [Analysis.rename]
  · rw [if_neg hasRoom, if_neg (mt room.mp hasRoom)]
    exact .error rfl

theorem bindJoin_rename (injective : Function.Injective newName) (join : Join)
    (renames : a.RenamedBy newName b) :
    Alike AnalysisError.SameKind (Analysis.RenamedBy newName) (analyzer.bindJoin a join)
      (analyzer.bindJoin b (join.rename newName)) := by
  apply Alike.bind (bindRelation_rename injective join.relation renames)
  intro a b renames
  apply Alike.bind (joinKeys_rename injective join renames)
  rintro key _ rfl
  exact addJoin_rename key renames

theorem bindSources_rename (injective : Function.Injective newName) (query : Query)
    (renames : a.RenamedBy newName b) :
    Alike AnalysisError.SameKind (Analysis.RenamedBy newName) (analyzer.bindSources query a)
      (analyzer.bindSources (query.rename newName) b) := by
  apply Alike.bind (bindRelation_rename injective query.relation renames)
  intro a b renames
  apply Alike.foldlM (Join.rename newName) _ query.joins renames
  intro a b renames join
  exact bindJoin_rename injective join renames

end Analyzer

end StreamQuery
