import StreamQuery.Analysis.OfQuery
import StreamQuery.Proofs.Resolution

/-! # The sources of a query and their joins

Each JOIN clause of a query binds one more source and records one join, whose keys are read in the
scope of the sources bound so far. `Joined` is this walk as a relation; it says which sources and keys
a list of JOIN clauses adds, and it holds of no others.
-/

set_option autoImplicit false

namespace StreamQuery.Analyzer

/-! ## The sides of a join

The walk over the columns of an operand may stop before their end; then the join is refused. So an
operand has a side exactly if it mentions a column and all of its columns are read from that side, and
this says which keys a join gets without a word on the order of the walk.
-/

/-- An expression reads columns, all of them from the source that a join brings in. -/
def ReadsNext (scope : Scope) (next : SourceName) (expr : Expr) : Prop :=
  expr.columns ≠ [] ∧ ∀ column ∈ expr.columns, scope.resolve column = .ok next

def ReadsEarlier (scope : Scope) (next : SourceName) (expr : Expr) : Prop :=
  expr.columns ≠ [] ∧
    ∀ column ∈ expr.columns, ∃ source, scope.resolve column = .ok source ∧ source ≠ next

/-- The keys of a join, which may be written in either order. -/
inductive Oriented (scope : Scope) (join : Join) : BoundJoin → Prop where
  | asWritten {first second : Expr} (criteria : join.criteria = .comparison .equal first second)
      (left : ReadsEarlier scope join.relation.visibleName first)
      (right : ReadsNext scope join.relation.visibleName second) :
      Oriented scope join ⟨first, second, join.kind, join.within⟩
  | exchanged {first second : Expr} (criteria : join.criteria = .comparison .equal first second)
      (right : ReadsNext scope join.relation.visibleName first)
      (left : ReadsEarlier scope join.relation.visibleName second) :
      Oriented scope join ⟨second, first, join.kind, join.within⟩

theorem sideOf_eq_ok_right_iff {scope : Scope} {next : SourceName} {column : ColumnRef} :
    sideOf scope next column = .ok .right ↔ scope.resolve column = .ok next := by
  rw [sideOf, map_eq_ok_iff]
  constructor
  · intro given
    obtain ⟨source, resolved, side⟩ := given
    split at side
    · rename_i same
      rw [resolved, same]
    · cases side
  · intro resolved
    exact ⟨next, resolved, by simp⟩

theorem sideOf_eq_ok_left_iff {scope : Scope} {next : SourceName} {column : ColumnRef} :
    sideOf scope next column = .ok .left ↔
      ∃ source, scope.resolve column = .ok source ∧ source ≠ next := by
  rw [sideOf, map_eq_ok_iff]
  constructor
  · intro given
    obtain ⟨source, resolved, side⟩ := given
    split at side
    · cases side
    · rename_i different
      exact ⟨source, resolved, different⟩
  · intro given
    obtain ⟨source, resolved, different⟩ := given
    exact ⟨source, resolved, by simp [different]⟩

theorem commonSide_some_eq_ok_iff {scope : Scope} {next : SourceName} {previous side : Side}
    {columns : List ColumnRef} :
    commonSide scope next (some previous) columns = .ok (some side) ↔
      previous = side ∧ ∀ column ∈ columns, sideOf scope next column = .ok side := by
  induction columns with
  | nil => simp [commonSide]
  | cons column rest ih =>
    simp only [commonSide, bind_eq_ok_iff, List.forall_mem_cons]
    constructor
    · intro given
      obtain ⟨current, found, continued⟩ := given
      split at continued
      · rename_i same
        obtain ⟨rfl, others⟩ := ih.mp continued
        exact ⟨rfl, same ▸ found, others⟩
      · cases continued
    · intro given
      obtain ⟨rfl, found, others⟩ := given
      exact ⟨previous, found, by rw [if_pos rfl]; exact ih.mpr ⟨rfl, others⟩⟩

theorem commonSide_none_eq_ok_iff {scope : Scope} {next : SourceName} {side : Side}
    {columns : List ColumnRef} :
    commonSide scope next none columns = .ok (some side) ↔
      columns ≠ [] ∧ ∀ column ∈ columns, sideOf scope next column = .ok side := by
  cases columns with
  | nil => simp [commonSide]
  | cons column rest =>
    simp only [commonSide, bind_eq_ok_iff, commonSide_some_eq_ok_iff, List.forall_mem_cons, ne_eq,
      reduceCtorEq, not_false_eq_true, true_and]
    constructor
    · intro given
      obtain ⟨current, found, rfl, others⟩ := given
      exact ⟨found, others⟩
    · intro given
      obtain ⟨found, others⟩ := given
      exact ⟨side, found, rfl, others⟩

theorem commonSide_eq_ok_right_iff {scope : Scope} {next : SourceName} {expr : Expr} :
    commonSide scope next none expr.columns = .ok (some .right) ↔ ReadsNext scope next expr := by
  simp only [commonSide_none_eq_ok_iff, sideOf_eq_ok_right_iff, ReadsNext]

theorem commonSide_eq_ok_left_iff {scope : Scope} {next : SourceName} {expr : Expr} :
    commonSide scope next none expr.columns = .ok (some .left) ↔ ReadsEarlier scope next expr := by
  simp only [commonSide_none_eq_ok_iff, sideOf_eq_ok_left_iff, ReadsEarlier]

theorem orient_eq_ok_iff {scope : Scope} {join : Join} {first second : Expr} {key : BoundJoin} :
    orient scope join first second = .ok key ↔
      (ReadsEarlier scope join.relation.visibleName first ∧
          ReadsNext scope join.relation.visibleName second ∧
          key = ⟨first, second, join.kind, join.within⟩) ∨
        (ReadsNext scope join.relation.visibleName first ∧
          ReadsEarlier scope join.relation.visibleName second ∧
          key = ⟨second, first, join.kind, join.within⟩) := by
  simp only [orient, bind_eq_ok_iff, ← commonSide_eq_ok_left_iff, ← commonSide_eq_ok_right_iff]
  constructor
  · intro given
    obtain ⟨firstSide, firstFound, secondSide, secondFound, keyed⟩ := given
    split at keyed
    · cases keyed
      exact .inl ⟨firstFound, secondFound, rfl⟩
    · cases keyed
      exact .inr ⟨firstFound, secondFound, rfl⟩
    · cases keyed
  · intro given
    rcases given with ⟨firstFound, secondFound, rfl⟩ | ⟨firstFound, secondFound, rfl⟩
    · exact ⟨_, firstFound, _, secondFound, rfl⟩
    · exact ⟨_, firstFound, _, secondFound, rfl⟩

theorem joinKeys_eq_ok_iff {a : Analysis} {join : Join} {key : BoundJoin} :
    joinKeys join a = .ok key ↔
      a.sources ≠ [] ∧ Oriented (.ofSources a.sources false) join key := by
  unfold joinKeys
  split
  · rename_i first second criteria
    simp only [bind_eq_ok_iff, Analysis.scope_eq_ok_iff, Bool.false_and, orient_eq_ok_iff]
    constructor
    · intro given
      rcases given with ⟨_, ⟨bound, rfl⟩, ⟨left, right, rfl⟩ | ⟨right, left, rfl⟩⟩
      · exact ⟨bound, .asWritten criteria left right⟩
      · exact ⟨bound, .exchanged criteria right left⟩
    · intro given
      obtain ⟨bound, oriented⟩ := given
      refine ⟨_, ⟨bound, rfl⟩, ?_⟩
      cases oriented with
      | asWritten same left right =>
        obtain ⟨rfl, rfl⟩ : first = _ ∧ second = _ := by simpa [criteria] using same
        exact .inl ⟨left, right, rfl⟩
      | exchanged same right left =>
        obtain ⟨rfl, rfl⟩ : first = _ ∧ second = _ := by simpa [criteria] using same
        exact .inr ⟨right, left, rfl⟩
  · rename_i criteria noEquality
    constructor
    · intro accepted
      cases accepted
    · intro given
      obtain ⟨_, oriented⟩ := given
      cases oriented with
      | asWritten same _ _ => exact absurd same (noEquality _ _)
      | exchanged same _ _ => exact absurd same (noEquality _ _)

end StreamQuery.Analyzer

/-! ## Relations and what they denote -/

namespace StreamQuery

def Query.relations (query : Query) : List Relation :=
  query.relation :: query.joins.map (·.relation)

namespace Analyzer

variable {analyzer : Analyzer}

/-- A stream or table that a relation of a query denotes, under the name that the relation gives it. -/
structure Binds (analyzer : Analyzer) (relation : Relation) (bound : BoundSource) : Prop where
  denoted : analyzer.source? relation.name = some bound.source
  named : bound.alias = relation.visibleName

/-- The sources and keys after some JOIN clauses, given the sources before them. -/
inductive Joined (analyzer : Analyzer) :
    List BoundSource → List Join → List BoundSource → List BoundJoin → Prop where
  | nil {seen : List BoundSource} : Joined analyzer seen [] seen []
  | cons {seen sources : List BoundSource} {join : Join} {rest : List Join} {bound : BoundSource}
      {key : BoundJoin} {keys : List BoundJoin}
      (binds : Binds analyzer join.relation bound)
      (unused : bound.alias ∉ seen.map BoundSource.alias)
      (oriented : Oriented (.ofSources (seen ++ [bound]) false) join key)
      (others : Joined analyzer (seen ++ [bound]) rest sources keys) :
      Joined analyzer seen (join :: rest) sources (key :: keys)

def BindsAll (analyzer : Analyzer) (query : Query) (sources : List BoundSource)
    (keys : List BoundJoin) : Prop :=
  ∃ first, Binds analyzer query.relation first ∧ Joined analyzer [first] query.joins sources keys

/-! ## The walk and the relation -/

theorem boundSource_bind_eq_ok_iff {name : SourceName} {source : Source} {bound : BoundSource} :
    BoundSource.bind name source = .ok bound ↔ bound.alias = name ∧ bound.source = source := by
  unfold BoundSource.bind
  split
  · rename_i subquery
    constructor
    · intro accepted
      cases accepted
    · intro given
      obtain ⟨_, rfl⟩ := given
      exact absurd subquery bound.isInput
  · obtain ⟨name', source', isInput⟩ := bound
    simp [eq_comm]

theorem bindSource_eq_ok_iff {name : SourceName} {source : Source} {a next : Analysis} :
    a.bindSource name source = .ok next ↔
      ∃ bound : BoundSource, bound.alias = name ∧ bound.source = source ∧
        bound.alias ∉ a.sources.map BoundSource.alias ∧
        next = { a with sources := a.sources ++ [bound] } := by
  unfold Analysis.bindSource
  split
  · rename_i taken
    constructor
    · intro accepted
      cases accepted
    · intro given
      obtain ⟨bound, rfl, _, unused, _⟩ := given
      exact absurd taken unused
  · rename_i free
    simp only [map_eq_ok_iff, boundSource_bind_eq_ok_iff]
    constructor
    · intro given
      obtain ⟨bound, ⟨rfl, rfl⟩, rfl⟩ := given
      exact ⟨bound, rfl, rfl, free, rfl⟩
    · intro given
      obtain ⟨bound, rfl, rfl, _, rfl⟩ := given
      exact ⟨bound, ⟨rfl, rfl⟩, rfl⟩

theorem bindRelation_eq_ok_iff {relation : Relation} {a next : Analysis} :
    analyzer.bindRelation relation a = .ok next ↔
      ∃ bound, Binds analyzer relation bound ∧ bound.alias ∉ a.sources.map BoundSource.alias ∧
        next = { a with sources := a.sources ++ [bound] } := by
  unfold bindRelation
  split
  · rename_i unknown
    constructor
    · intro accepted
      cases accepted
    · intro given
      obtain ⟨bound, binds, _⟩ := given
      cases unknown.symm.trans binds.denoted
  · rename_i source known
    rw [bindSource_eq_ok_iff]
    constructor
    · intro given
      obtain ⟨bound, named, rfl, unused, rfl⟩ := given
      exact ⟨bound, ⟨known, named⟩, unused, rfl⟩
    · intro given
      obtain ⟨bound, binds, unused, rfl⟩ := given
      have same : bound.source = source := Option.some.inj (binds.denoted.symm.trans known)
      exact ⟨bound, binds.named, same, unused, rfl⟩

theorem bindJoin_eq_ok_iff {a next : Analysis} {join : Join}
    (paired : a.joins.length + 1 = a.sources.length) :
    analyzer.bindJoin a join = .ok next ↔
      ∃ bound key, Binds analyzer join.relation bound ∧ bound.alias ∉ a.sources.map BoundSource.alias ∧
        Oriented (.ofSources (a.sources ++ [bound]) false) join key ∧
        next = { a with sources := a.sources ++ [bound], joins := a.joins ++ [key] } := by
  simp only [bindJoin, bind_eq_ok_iff, bindRelation_eq_ok_iff, joinKeys_eq_ok_iff]
  have room : ∀ bound : BoundSource, a.joins.length + 1 < (a.sources ++ [bound]).length := by
    intro bound
    rw [List.length_append, List.length_singleton]
    omega
  constructor
  · intro given
    obtain ⟨_, ⟨bound, binds, unused, rfl⟩, key, ⟨_, oriented⟩, added⟩ := given
    rw [Analysis.addJoin, if_pos (room bound)] at added
    cases added
    exact ⟨bound, key, binds, unused, oriented, rfl⟩
  · intro given
    obtain ⟨bound, key, binds, unused, oriented, rfl⟩ := given
    refine ⟨_, ⟨bound, binds, unused, rfl⟩, key, ⟨by simp, oriented⟩, ?_⟩
    rw [Analysis.addJoin, if_pos (room bound)]

theorem foldlM_bindJoin_eq_ok_iff {joins : List Join} {a next : Analysis}
    (paired : a.joins.length + 1 = a.sources.length) :
    joins.foldlM analyzer.bindJoin a = .ok next ↔
      ∃ sources keys, Joined analyzer a.sources joins sources keys ∧
        next = { a with sources := sources, joins := a.joins ++ keys } := by
  induction joins generalizing a with
  | nil =>
    constructor
    · intro done
      cases done
      exact ⟨_, [], .nil, by simp⟩
    · intro given
      obtain ⟨_, _, joined, rfl⟩ := given
      cases joined
      simp [pure, Except.pure]
  | cons join rest ih =>
    rw [List.foldlM_cons, bind_eq_ok_iff]
    constructor
    · intro given
      obtain ⟨middle, stepped, continued⟩ := given
      obtain ⟨bound, key, binds, unused, oriented, rfl⟩ := (bindJoin_eq_ok_iff paired).mp stepped
      obtain ⟨sources, keys, others, rfl⟩ := (ih (by simp; omega)).mp continued
      exact ⟨sources, key :: keys, .cons binds unused oriented others, by simp⟩
    · intro given
      obtain ⟨_, _, joined, rfl⟩ := given
      cases joined with
      | cons binds unused oriented others =>
        refine ⟨_, (bindJoin_eq_ok_iff paired).mpr ⟨_, _, binds, unused, oriented, rfl⟩, ?_⟩
        exact (ih (by simp; omega)).mpr ⟨_, _, others, by simp⟩

theorem bindSources_eq_ok_iff {query : Query} {emission : Emission} {a : Analysis} :
    analyzer.bindSources query (.start emission) = .ok a ↔
      ∃ sources keys, BindsAll analyzer query sources keys ∧
        a = { Analysis.start emission with sources := sources, joins := keys } := by
  simp only [bindSources, bind_eq_ok_iff, bindRelation_eq_ok_iff, BindsAll]
  constructor
  · intro given
    obtain ⟨_, ⟨first, binds, _, rfl⟩, continued⟩ := given
    obtain ⟨sources, keys, joined, rfl⟩ := (foldlM_bindJoin_eq_ok_iff rfl).mp continued
    exact ⟨sources, keys, ⟨first, binds, joined⟩, rfl⟩
  · intro given
    obtain ⟨sources, keys, ⟨first, binds, joined⟩, rfl⟩ := given
    refine ⟨_, ⟨first, binds, by simp [Analysis.start], rfl⟩, ?_⟩
    exact (foldlM_bindJoin_eq_ok_iff rfl).mpr ⟨sources, keys, joined, rfl⟩

/-! ## What the relation tells of sources and keys -/

variable {seen sources : List BoundSource} {joins : List Join} {keys : List BoundJoin}

theorem Joined.length_keys (joined : Joined analyzer seen joins sources keys) :
    keys.length = joins.length := by
  induction joined with
  | nil => rfl
  | cons _ _ _ _ ih => simp [ih]

theorem Joined.aliases (joined : Joined analyzer seen joins sources keys) :
    sources.map BoundSource.alias =
      seen.map BoundSource.alias ++ joins.map fun join => join.relation.visibleName := by
  induction joined with
  | nil => simp
  | cons binds _ _ _ ih => simp [ih, binds.named]

theorem nodup_aliases_append_iff {bound : BoundSource} :
    ((seen ++ [bound]).map BoundSource.alias).Nodup ↔
      (seen.map BoundSource.alias).Nodup ∧ bound.alias ∉ seen.map BoundSource.alias := by
  rw [List.map_append, List.map_singleton, List.nodup_append]
  constructor
  · intro distinct
    obtain ⟨distinctSeen, _, apart⟩ := distinct
    refine ⟨distinctSeen, ?_⟩
    intro isSeen
    exact apart _ isSeen _ (List.mem_singleton_self _) rfl
  · intro unused
    refine ⟨unused.1, by simp, ?_⟩
    intro name isSeen other isNew equal
    rw [List.mem_singleton] at isNew
    exact unused.2 (isNew ▸ equal ▸ isSeen)

theorem Joined.nodup_aliases (joined : Joined analyzer seen joins sources keys)
    (distinct : (seen.map BoundSource.alias).Nodup) : (sources.map BoundSource.alias).Nodup := by
  induction joined with
  | nil => exact distinct
  | cons _ unused _ _ ih => exact ih (nodup_aliases_append_iff.mpr ⟨distinct, unused⟩)

theorem Joined.append (joined : Joined analyzer seen joins sources keys) :
    ∃ more, sources = seen ++ more := by
  induction joined with
  | nil => exact ⟨[], by simp⟩
  | cons _ _ _ _ ih =>
    obtain ⟨more, appended⟩ := ih
    exact ⟨_ :: more, by rw [appended, List.append_assoc, List.singleton_append]⟩

theorem Joined.oriented (joined : Joined analyzer seen joins sources keys) {i : Nat} {join : Join}
    (isJoin : joins[i]? = some join) :
    ∃ key, keys[i]? = some key ∧
      Oriented (.ofSources (sources.take (seen.length + i + 1)) false) join key := by
  induction joined generalizing i with
  | nil => cases isJoin
  | @cons seen sources first rest bound key keys binds unused oriented others ih =>
    cases i with
    | zero =>
      cases isJoin
      obtain ⟨more, rfl⟩ := others.append
      have front : (seen ++ [bound] ++ more).take (seen.length + 0 + 1) = seen ++ [bound] := by
        apply List.take_left'
        simp
      exact ⟨key, rfl, by rw [front]; exact oriented⟩
    | succ i =>
      obtain ⟨key, isKey, oriented⟩ := ih (by simpa using isJoin)
      refine ⟨key, by simpa using isKey, ?_⟩
      have length : (seen ++ [bound]).length + i + 1 = seen.length + (i + 1) + 1 := by
        simp
        omega
      rwa [length] at oriented

section BindsAll

variable {query : Query}

theorem BindsAll.length_keys (bound : BindsAll analyzer query sources keys) :
    keys.length = query.joins.length := by
  obtain ⟨_, _, joined⟩ := bound
  exact joined.length_keys

theorem BindsAll.aliases (bound : BindsAll analyzer query sources keys) :
    sources.map BoundSource.alias = query.relations.map Relation.visibleName := by
  obtain ⟨_, binds, joined⟩ := bound
  rw [joined.aliases, List.map_singleton, binds.named, List.singleton_append, Query.relations,
    List.map_cons, List.map_map]
  rfl

theorem BindsAll.source_of_join (bound : BindsAll analyzer query sources keys) {i : Nat} {join : Join}
    (isJoin : query.joins[i]? = some join) :
    ∃ next, sources[i + 1]? = some next ∧ next.alias = join.relation.visibleName := by
  have named : (sources.map BoundSource.alias)[i + 1]? = some join.relation.visibleName := by
    rw [bound.aliases, Query.relations, List.map_cons, List.getElem?_cons_succ, List.map_map,
      List.getElem?_map, isJoin]
    rfl
  rw [List.getElem?_map, Option.map_eq_some_iff] at named
  exact named

theorem BindsAll.nodup_aliases (bound : BindsAll analyzer query sources keys) :
    (sources.map BoundSource.alias).Nodup := by
  obtain ⟨_, _, joined⟩ := bound
  exact joined.nodup_aliases (by simp)

theorem BindsAll.length_sources (bound : BindsAll analyzer query sources keys) :
    sources.length = query.joins.length + 1 := by
  rw [← List.length_map BoundSource.alias, bound.aliases, List.length_map, Query.relations,
    List.length_cons, List.length_map]

theorem BindsAll.isEmpty_keys (bound : BindsAll analyzer query sources keys) :
    (!keys.isEmpty) = decide (1 < sources.length) := by
  rw [bound.length_sources, ← bound.length_keys]
  cases keys with
  | nil => rfl
  | cons key rest => simp

theorem BindsAll.sources_ne_nil (bound : BindsAll analyzer query sources keys) : sources ≠ [] := by
  intro unbound
  have length := bound.length_sources
  rw [unbound] at length
  cases length

theorem BindsAll.oriented (bound : BindsAll analyzer query sources keys) {i : Nat} {join : Join}
    (isJoin : query.joins[i]? = some join) :
    ∃ key, keys[i]? = some key ∧ Oriented (.ofSources (sources.take (i + 2)) false) join key := by
  obtain ⟨first, _, joined⟩ := bound
  obtain ⟨key, isKey, oriented⟩ := joined.oriented isJoin
  refine ⟨key, isKey, ?_⟩
  have length : [first].length + i + 1 = i + 2 := by
    simp
    omega
  rwa [length] at oriented

end BindsAll

end Analyzer

end StreamQuery
