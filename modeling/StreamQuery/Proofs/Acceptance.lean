import StreamQuery.Proofs.Clauses

/-! # Which queries are accepted

A query is accepted exactly if its relations denote inputs under distinct names, each join is an
equation between its own source and earlier ones, every column resolves in the scope of its clause, no
grouping expression is repeated, and a sink that is inserted into is known.
-/

set_option autoImplicit false

namespace StreamQuery.Analyzer

variable {analyzer : Analyzer} {query : Query}

def bound? (analyzer : Analyzer) (relation : Relation) : Option BoundSource :=
  match analyzer.source? relation.name with
  | none => none
  | some source =>
    if isInput : source.kind ≠ .subquery then some ⟨relation.visibleName, source, isInput⟩ else none

def sourcesOf (analyzer : Analyzer) (relations : List Relation) : List BoundSource :=
  relations.filterMap analyzer.bound?

/-- The criteria of a join are an equation; one operand reads the source that the join brings in and
the other reads earlier ones. -/
def Joinable (scope : Scope) (join : Join) : Prop :=
  ∃ first second, join.criteria = .comparison .equal first second ∧
    ((ReadsEarlier scope join.relation.visibleName first ∧
        ReadsNext scope join.relation.visibleName second) ∨
      (ReadsNext scope join.relation.visibleName first ∧
        ReadsEarlier scope join.relation.visibleName second))

/-- The conditions on a query and its sink. -/
structure Accepts (analyzer : Analyzer) (query : Query) (sink : Option Sink) : Prop where
  inputs : ∀ relation ∈ query.relations, ∃ source,
    analyzer.source? relation.name = some source ∧ (source.kind = .stream ∨ source.kind = .table)
  distinct : (query.relations.map Relation.visibleName).Nodup
  joins : ∀ i join, query.joins[i]? = some join →
    Joinable (.ofSources (analyzer.sourcesOf (query.relations.take (i + 2))) false) join
  clauses : ClausesHold (analyzer.sourcesOf query.relations) query
  sink : ∀ target ∈ sink, target.creates = false → (analyzer.source? target.name).isSome

theorem bound?_eq_some_iff {relation : Relation} {bound : BoundSource} :
    analyzer.bound? relation = some bound ↔ Binds analyzer relation bound := by
  unfold bound?
  split
  · rename_i unknown
    constructor
    · intro found
      cases found
    · intro binds
      cases unknown.symm.trans binds.denoted
  · rename_i source known
    constructor
    · intro found
      split at found
      · cases found
        exact ⟨known, rfl⟩
      · cases found
    · intro binds
      obtain ⟨name, source', isInput⟩ := bound
      obtain rfl : source = source' := Option.some.inj (known.symm.trans binds.denoted)
      rw [dif_pos isInput, ← binds.named]

theorem exists_binds_iff {relation : Relation} :
    (∃ bound, Binds analyzer relation bound) ↔ ∃ source,
      analyzer.source? relation.name = some source ∧
        (source.kind = .stream ∨ source.kind = .table) := by
  constructor
  · intro given
    obtain ⟨bound, binds⟩ := given
    refine ⟨bound.source, binds.denoted, ?_⟩
    have isInput := bound.isInput
    cases kind : bound.source.kind with
    | stream => exact .inl rfl
    | table => exact .inr rfl
    | subquery => exact absurd kind isInput
  · intro given
    obtain ⟨source, known, isInput⟩ := given
    have notSubquery : source.kind ≠ .subquery := by
      intro subquery
      rw [subquery] at isInput
      rcases isInput with isStream | isTable
      · cases isStream
      · cases isTable
    exact ⟨⟨relation.visibleName, source, notSubquery⟩, known, rfl⟩

theorem sourcesOf_cons {relation : Relation} {bound : BoundSource} (relations : List Relation)
    (binds : Binds analyzer relation bound) :
    analyzer.sourcesOf (relation :: relations) = bound :: analyzer.sourcesOf relations :=
  List.filterMap_cons_some (bound?_eq_some_iff.mpr binds)

theorem exists_oriented_iff {scope : Scope} {join : Join} :
    (∃ key, Oriented scope join key) ↔ Joinable scope join := by
  constructor
  · intro given
    obtain ⟨_, oriented⟩ := given
    cases oriented with
    | asWritten criteria left right => exact ⟨_, _, criteria, .inl ⟨left, right⟩⟩
    | exchanged criteria right left => exact ⟨_, _, criteria, .inr ⟨right, left⟩⟩
  · intro given
    rcases given with ⟨first, second, criteria, ⟨left, right⟩ | ⟨right, left⟩⟩
    · exact ⟨_, .asWritten criteria left right⟩
    · exact ⟨_, .exchanged criteria right left⟩

theorem Joined.sources_eq {seen sources : List BoundSource} {joins : List Join}
    {keys : List BoundJoin} (joined : Joined analyzer seen joins sources keys) :
    sources = seen ++ analyzer.sourcesOf (joins.map (·.relation)) := by
  induction joined with
  | nil => simp [sourcesOf]
  | cons binds _ _ _ ih =>
    rw [ih, List.map_cons, sourcesOf_cons _ binds, List.append_assoc, List.singleton_append]

theorem exists_joined_cons_iff {seen : List BoundSource} {join : Join} {rest : List Join} :
    (∃ sources keys, Joined analyzer seen (join :: rest) sources keys) ↔
      ∃ bound, Binds analyzer join.relation bound ∧ bound.alias ∉ seen.map BoundSource.alias ∧
        Joinable (.ofSources (seen ++ [bound]) false) join ∧
        ∃ sources keys, Joined analyzer (seen ++ [bound]) rest sources keys := by
  constructor
  · intro given
    obtain ⟨sources, _, joined⟩ := given
    cases joined with
    | @cons _ _ _ _ bound key keys binds unused oriented others =>
      have joinable := exists_oriented_iff.mp ⟨key, oriented⟩
      exact ⟨bound, binds, unused, joinable, sources, keys, others⟩
  · intro given
    obtain ⟨bound, binds, unused, joinable, sources, keys, others⟩ := given
    obtain ⟨key, oriented⟩ := exists_oriented_iff.mpr joinable
    exact ⟨sources, key :: keys, .cons binds unused oriented others⟩

theorem exists_joined_iff {seen : List BoundSource} {joins : List Join}
    (distinct : (seen.map BoundSource.alias).Nodup) :
    (∃ sources keys, Joined analyzer seen joins sources keys) ↔
      (∀ join ∈ joins, ∃ bound, Binds analyzer join.relation bound) ∧
      (seen.map BoundSource.alias ++ joins.map fun join => join.relation.visibleName).Nodup ∧
      ∀ i join, joins[i]? = some join →
        Joinable (.ofSources
          (seen ++ analyzer.sourcesOf ((joins.take (i + 1)).map (·.relation))) false) join := by
  induction joins generalizing seen with
  | nil =>
    constructor
    · intro _
      exact ⟨by simp, by simpa using distinct, by simp⟩
    · intro _
      exact ⟨seen, [], .nil⟩
  | cons join rest ih =>
    -- The names and the fronts of `rest` behind `seen ++ [bound]` are those of the whole list.
    have names : ∀ bound, Binds analyzer join.relation bound →
        ((seen ++ [bound]).map BoundSource.alias ++ rest.map fun join => join.relation.visibleName) =
          seen.map BoundSource.alias ++ (join :: rest).map fun join => join.relation.visibleName := by
      intro bound binds
      simp [binds.named]
    have front : ∀ bound, Binds analyzer join.relation bound → ∀ i,
        seen ++ analyzer.sourcesOf (((join :: rest).take (i + 1)).map (·.relation)) =
          seen ++ [bound] ++ analyzer.sourcesOf ((rest.take i).map (·.relation)) := by
      intro bound binds i
      rw [List.take_succ_cons, List.map_cons, sourcesOf_cons _ binds, List.append_assoc,
        List.singleton_append]
    have frontFirst : ∀ bound, Binds analyzer join.relation bound →
        seen ++ analyzer.sourcesOf (((join :: rest).take (0 + 1)).map (·.relation)) =
          seen ++ [bound] := by
      intro bound binds
      rw [front bound binds, List.take_zero, List.map_nil, sourcesOf, List.filterMap_nil,
        List.append_nil]
    rw [exists_joined_cons_iff]
    constructor
    · intro given
      obtain ⟨bound, binds, unused, joinableFirst, others⟩ := given
      have distinctNext := nodup_aliases_append_iff.mpr ⟨distinct, unused⟩
      obtain ⟨inputs, distinctAll, joinable⟩ := (ih distinctNext).mp others
      refine ⟨List.forall_mem_cons.mpr ⟨⟨bound, binds⟩, inputs⟩, names bound binds ▸ distinctAll, ?_⟩
      intro i other isOther
      cases i with
      | zero =>
        cases isOther
        rw [frontFirst bound binds]
        exact joinableFirst
      | succ i =>
        rw [front bound binds]
        exact joinable i other (by simpa using isOther)
    · intro given
      obtain ⟨inputs, distinctAll, joinable⟩ := given
      obtain ⟨⟨bound, binds⟩, inputsLater⟩ := List.forall_mem_cons.mp inputs
      have distinctLater := (names bound binds).symm ▸ distinctAll
      have distinctNext := (List.nodup_append.mp distinctLater).1
      have unused := (nodup_aliases_append_iff.mp distinctNext).2
      have joinableFirst := joinable 0 join rfl
      rw [frontFirst bound binds] at joinableFirst
      refine ⟨bound, binds, unused, joinableFirst, ?_⟩
      apply (ih distinctNext).mpr
      refine ⟨inputsLater, distinctLater, ?_⟩
      intro i other isOther
      rw [← front bound binds]
      exact joinable (i + 1) other (by simpa using isOther)

/-! ## The conditions and the walk -/

theorem BindsAll.sources_eq {sources : List BoundSource} {keys : List BoundJoin}
    (bound : BindsAll analyzer query sources keys) :
    sources = analyzer.sourcesOf query.relations := by
  obtain ⟨first, binds, joined⟩ := bound
  rw [joined.sources_eq, Query.relations, sourcesOf_cons _ binds, List.singleton_append]

theorem exists_bindsAll_iff :
    (∃ sources keys, BindsAll analyzer query sources keys) ↔
      (∀ relation ∈ query.relations, ∃ bound, Binds analyzer relation bound) ∧
      (query.relations.map Relation.visibleName).Nodup ∧
      ∀ i join, query.joins[i]? = some join →
        Joinable (.ofSources (analyzer.sourcesOf (query.relations.take (i + 2))) false) join := by
  have names : ∀ first : BoundSource, Binds analyzer query.relation first →
      ([first].map BoundSource.alias ++ query.joins.map fun join => join.relation.visibleName) =
        query.relations.map Relation.visibleName := by
    intro first binds
    simp [Query.relations, binds.named]
  have front : ∀ first : BoundSource, Binds analyzer query.relation first → ∀ i : Nat,
      [first] ++ analyzer.sourcesOf ((query.joins.take (i + 1)).map (·.relation)) =
        analyzer.sourcesOf (query.relations.take (i + 2)) := by
    intro first binds i
    rw [Query.relations, List.take_succ_cons, sourcesOf_cons _ binds, List.map_take,
      List.singleton_append]
  constructor
  · intro given
    obtain ⟨sources, keys, first, binds, joined⟩ := given
    obtain ⟨inputs, distinct, joinable⟩ := (exists_joined_iff (by simp)).mp ⟨_, _, joined⟩
    refine ⟨?_, names first binds ▸ distinct, ?_⟩
    · intro relation isRelation
      rcases List.mem_cons.mp isRelation with rfl | isJoined
      · exact ⟨first, binds⟩
      · obtain ⟨join, isJoin, rfl⟩ := List.mem_map.mp isJoined
        exact inputs join isJoin
    · intro i join isJoin
      rw [← front first binds]
      exact joinable i join isJoin
  · intro given
    obtain ⟨inputs, distinct, joinable⟩ := given
    obtain ⟨first, binds⟩ := inputs query.relation List.mem_cons_self
    have later : ∀ join ∈ query.joins, ∃ bound, Binds analyzer join.relation bound := by
      intro join isJoin
      apply inputs
      exact List.mem_cons_of_mem _ (List.mem_map_of_mem isJoin)
    have joinableLater : ∀ i join, query.joins[i]? = some join →
        Joinable (.ofSources ([first] ++ analyzer.sourcesOf
          ((query.joins.take (i + 1)).map (·.relation))) false) join := by
      intro i join isJoin
      rw [front first binds]
      exact joinable i join isJoin
    obtain ⟨sources, keys, joined⟩ := (exists_joined_iff (by simp)).mpr
      ⟨later, (names first binds).symm ▸ distinct, joinableLater⟩
    exact ⟨sources, keys, first, binds, joined⟩

theorem exists_analyze_iff {sink : Option Sink} :
    (∃ a, analyzer.analyze query sink = .ok a) ↔
      (∃ sources keys, BindsAll analyzer query sources keys ∧ ClausesHold sources query) ∧
      ∀ target ∈ sink, target.creates = false → (analyzer.source? target.name).isSome := by
  simp only [analyze_eq_ok_iff]
  constructor
  · intro given
    obtain ⟨a, sources, keys, bound, hold, entered⟩ := given
    have nonempty : (analysisOf analyzer query sources keys).sources ≠ [] := bound.sources_ne_nil
    exact ⟨⟨sources, keys, bound, hold⟩, (exists_sinkClause_iff nonempty rfl).mp ⟨a, entered⟩⟩
  · intro given
    obtain ⟨⟨sources, keys, bound, hold⟩, known⟩ := given
    have nonempty : (analysisOf analyzer query sources keys).sources ≠ [] := bound.sources_ne_nil
    obtain ⟨a, entered⟩ := (exists_sinkClause_iff nonempty rfl).mpr known
    exact ⟨a, sources, keys, bound, hold, entered⟩

/-- A query and its sink are analysed successfully exactly if they meet the conditions. -/
theorem analyze_succeeds_iff_accepts {sink : Option Sink} :
    (∃ a, analyzer.analyze query sink = .ok a) ↔ Accepts analyzer query sink := by
  rw [exists_analyze_iff]
  constructor
  · intro given
    obtain ⟨⟨sources, keys, bound, hold⟩, known⟩ := given
    obtain ⟨inputs, distinct, joinable⟩ := exists_bindsAll_iff.mp ⟨sources, keys, bound⟩
    obtain rfl := bound.sources_eq
    refine ⟨?_, distinct, joinable, hold, known⟩
    intro relation isRelation
    exact exists_binds_iff.mp (inputs relation isRelation)
  · intro accepts
    have inputs : ∀ relation ∈ query.relations, ∃ bound, Binds analyzer relation bound := by
      intro relation isRelation
      exact exists_binds_iff.mpr (accepts.inputs relation isRelation)
    obtain ⟨sources, keys, bound⟩ :=
      exists_bindsAll_iff.mpr ⟨inputs, accepts.distinct, accepts.joins⟩
    have hold := accepts.clauses
    rw [← bound.sources_eq] at hold
    exact ⟨⟨sources, keys, bound, hold⟩, accepts.sink⟩

end StreamQuery.Analyzer
