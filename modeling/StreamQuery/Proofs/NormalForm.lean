import StreamQuery.Proofs.ErrorLayers
import StreamQuery.Proofs.JoinKeys

/-! # Queries that are analysed alike

A query has the same analysis if it is written as that analysis shows it, and also if every star in it
names its source.
-/

set_option autoImplicit false

namespace StreamQuery

/-! ## The normal form of an analysed query

The normal form has the items of the result in place of its stars, the keys of each join in the order
in which they are read, and an alias for every relation. It is analysed like the query itself, so no
part of an analysis depends on how its query was abbreviated.
-/

def Relation.aliased (relation : Relation) : Relation :=
  { relation with «alias» := some relation.visibleName }

/-- The join with its relation aliased and its criteria written as `left = right`. -/
def Join.normalForm (join : Join) (key : BoundJoin) : Join :=
  { join with
    relation := join.relation.aliased
    criteria := .comparison .equal key.leftKey key.rightKey }

/-- A query as its analysis shows it. -/
def Query.normalForm (query : Query) (a : Analysis) : Query :=
  { query with
    select := a.select
    relation := query.relation.aliased
    joins := query.joins.zipWith Join.normalForm a.joins }

namespace Analyzer

variable {analyzer : Analyzer} {query : Query} {sink : Option Sink} {a : Analysis}

/-! ### Sources and joins -/

theorem Binds.aliased {relation : Relation} {bound : BoundSource}
    (binds : Binds analyzer relation bound) : Binds analyzer relation.aliased bound :=
  ⟨binds.denoted, binds.named⟩

theorem Oriented.normalForm {scope : Scope} {join : Join} {key : BoundJoin}
    (oriented : Oriented scope join key) : Oriented scope (join.normalForm key) key := by
  obtain ⟨leftKey, rightKey, kind, within⟩ := key
  obtain ⟨left, right, rfl, rfl, _⟩ := oriented.sides
  exact .asWritten rfl left right

theorem Joined.normalForm {seen sources : List BoundSource} {joins : List Join}
    {keys : List BoundJoin} (joined : Joined analyzer seen joins sources keys) :
    Joined analyzer seen (joins.zipWith Join.normalForm keys) sources keys := by
  induction joined with
  | nil => exact .nil
  | cons binds unused oriented _ ih => exact .cons binds.aliased unused oriented.normalForm ih

theorem BindsAll.normalForm {keys : List BoundJoin} {sources : List BoundSource}
    (bindsAll : BindsAll analyzer query sources keys) (isKeys : a.joins = keys) :
    BindsAll analyzer (query.normalForm a) sources keys := by
  subst isKeys
  obtain ⟨first, binds, joined⟩ := bindsAll
  exact ⟨first, binds.aliased, joined.normalForm⟩

/-! ### The select list -/

theorem star_notMem_expansion (scope : Scope) (item : Projection) (source : Option SourceName) :
    .star source ∉ expansion scope item := by
  intro isItem
  cases item with
  | single expr name => cases List.mem_singleton.mp isItem
  | star wanted =>
    simp only [expansion, starItems, List.mem_flatMap, List.mem_map] at isItem
    obtain ⟨_, _, _, _, made⟩ := isItem
    cases made

theorem flatMap_expansion_of_noStar {items : List Projection} (scope : Scope)
    (noStar : ∀ source, .star source ∉ items) : items.flatMap (expansion scope) = items := by
  induction items with
  | nil => rfl
  | cons item rest ih =>
    have later : ∀ source, .star source ∉ rest := by
      intro source isLater
      exact noStar source (List.mem_cons_of_mem item isLater)
    rw [List.flatMap_cons, ih later]
    cases item with
    | single expr name => rfl
    | star source => exact absurd List.mem_cons_self (noStar source)

theorem star_notMem_select {sources : List BoundSource} {keys : List BoundJoin}
    (source : Option SourceName) :
    .star source ∉ (analysisOf analyzer query sources keys).select := by
  intro isItem
  obtain ⟨item, _, isExpanded⟩ := List.mem_flatMap.mp isItem
  exact star_notMem_expansion _ item source isExpanded

/-! ### The analysis of the normal form -/

theorem ClausesHold.normalForm {sources : List BoundSource} {keys : List BoundJoin}
    (bindsAll : BindsAll analyzer query sources keys) (hold : ClausesHold sources query)
    (isSelect : a.select = (analysisOf analyzer query sources keys).select) :
    ClausesHold sources (query.normalForm a) := by
  have noStar : ∀ source, .star source ∉ a.select := by
    intro source
    rw [isSelect]
    exact star_notMem_select source
  -- Items of stars come from the scope before the grouping and are now checked in the one after it.
  have resolved := (expansion_resolves_iff _ bindsAll.nodup_aliases).mpr hold.select
  refine ⟨?_, hold.filter, hold.grouping, hold.groupingDistinct, hold.having, ?_, hold.partitioning⟩
  · intro name isStar
    exact absurd isStar (noStar (some name))
  · intro item isItem column isColumn
    have isResult : item ∈ (analysisOf analyzer query sources keys).select := isSelect ▸ isItem
    exact resolved column (List.mem_flatMap.mpr ⟨item, isResult, isColumn⟩)

theorem analysisOf_normalForm {sources : List BoundSource} {keys : List BoundJoin}
    (isSelect : a.select = (analysisOf analyzer query sources keys).select) :
    analysisOf analyzer (query.normalForm a) sources keys =
      analysisOf analyzer query sources keys := by
  have unchanged : a.select.flatMap (expansion (.ofSources sources false)) =
      query.select.flatMap (expansion (.ofSources sources false)) := by
    rw [isSelect]
    exact flatMap_expansion_of_noStar _ star_notMem_select
  unfold analysisOf
  simp only [Query.normalForm, unchanged]

/-- The normal form of a query has the analysis that it was taken from, and that one has no stars. -/
theorem analyze_normalForm (analyzed : analyzer.analyze query sink = .ok a) :
    analyzer.analyze (query.normalForm a) sink = .ok a ∧ ∀ source, .star source ∉ a.select := by
  obtain ⟨sources, keys, bindsAll, hold, entered⟩ := analyze_eq_ok_iff.mp analyzed
  obtain ⟨properties, place, known⟩ := sinkClause_eq_ok rfl entered
  have isKeys : a.joins = keys := by rw [known]; rfl
  have isSelect : a.select = (analysisOf analyzer query sources keys).select := by rw [known]
  constructor
  · apply analyze_eq_ok_iff.mpr
    refine ⟨sources, keys, bindsAll.normalForm isKeys, hold.normalForm bindsAll isSelect, ?_⟩
    rw [analysisOf_normalForm isSelect]
    exact entered
  · intro source
    rw [isSelect]
    exact star_notMem_select source

theorem normalForm_ordersWithItems :
    ∃ a, shop.analyze ordersWithItems (some ⟨⟨"RESULT"⟩, true, .none⟩) = .ok a ∧
      ((ordersWithItems.normalForm a).joins.map Join.criteria =
        [.comparison .equal (.column (.unqualified ⟨"ITEM"⟩)) (.column (.unqualified ⟨"ID"⟩))]) ∧
      shop.analyze (ordersWithItems.normalForm a) (some ⟨⟨"RESULT"⟩, true, .none⟩) = .ok a ∧
      ∀ source, .star source ∉ a.select := by
  have analyzed : shop.analyze ordersWithItems (some ⟨⟨"RESULT"⟩, true, .none⟩) = .ok _ := rfl
  exact ⟨_, analyzed, rfl, analyze_normalForm analyzed⟩

end Analyzer

/-! ## Stars with and without a source

A star without a source stands for the columns of all sources. So it can be replaced by one star for
each source, in the order of the FROM clause, and the analysis of the query stays what it is. If the
analysis fails, it fails alike: the sources are bound before the select list is looked at, so the stars
that take the place of a star name known sources.
-/

/-- An item of a select list with a star for each of some names in place of one without a source. -/
def Projection.named (names : List SourceName) : Projection → List Projection
  | .star none => names.map fun name => .star (some name)
  | item => [item]

def Query.nameStars (query : Query) : Query :=
  { query with
    select := query.select.flatMap (Projection.named (query.relations.map Relation.visibleName)) }

/-! ### Stars in a scope -/

theorem Scope.entriesOf_of_mem {scope : Scope} {entry : SourceName × Schema}
    (isEntry : entry ∈ scope.toList) : scope.entriesOf (some entry.1) = [entry] :=
  Roster.filter_key_of_mem scope.entries.nodup_keys isEntry

namespace Analyzer

variable {analyzer : Analyzer} {query : Query} {sink : Option Sink} {a next : Analysis}

theorem flatMap_starItems (scope : Scope) :
    (scope.aliases.flatMap fun name => starItems scope (some name)) = starItems scope none := by
  change (scope.toList.map Prod.fst).flatMap _ = scope.toList.flatMap _
  rw [List.flatMap_map, List.flatMap_def, List.flatMap_def]
  congr 1
  apply List.map_congr_left
  intro entry isEntry
  rw [starItems, Scope.entriesOf_of_mem isEntry, List.flatMap_singleton]

theorem aliases_ofSources {sources : List BoundSource} {inWindow : Bool}
    (distinct : (sources.map BoundSource.alias).Nodup) :
    (Scope.ofSources sources inWindow).aliases = sources.map BoundSource.alias := by
  change (Scope.ofSources sources inWindow).toList.map Prod.fst = _
  rw [Scope.toList_ofSources distinct, List.map_map]
  rfl

/-! ### The select list -/

section Selecting

variable (bound : a.sources ≠ []) (distinct : (a.sources.map BoundSource.alias).Nodup)
include bound distinct

theorem selectItem_star :
    ((a.sources.map BoundSource.alias).map fun name => Projection.star (some name)).foldlM
        analyzer.selectItem a =
      analyzer.selectItem a (.star none) := by
  have expanded : ((a.sources.map BoundSource.alias).map fun name =>
        Projection.star (some name)).flatMap (expansion (.ofSources a.sources false)) =
      expansion (.ofSources a.sources false) (.star none) := by
    rw [← aliases_ofSources distinct, List.flatMap_map]
    exact flatMap_starItems _
  have unnamed : analyzer.selectItem a (.star none) =
      .ok (recorded analyzer a (expansion (.ofSources a.sources false) (.star none))) :=
    (selectItem_eq_ok_iff bound).mpr ⟨nofun, rfl⟩
  rw [unnamed, foldlM_selectItem_eq_ok_iff bound, expanded]
  refine ⟨?_, rfl⟩
  intro name isStar
  rw [Scope.schema?_ofSources_isSome_iff distinct]
  simpa using isStar

theorem selectItem_named (item : Projection) :
    (item.named (a.sources.map BoundSource.alias)).foldlM analyzer.selectItem a =
      analyzer.selectItem a item := by
  have alone : [item].foldlM analyzer.selectItem a = analyzer.selectItem a item := by
    rw [List.foldlM_cons]
    exact bind_pure _
  cases item with
  | single expr name => exact alone
  | star source =>
    cases source with
    | none => exact selectItem_star bound distinct
    | some name => exact alone

theorem foldlM_selectItem_named (items : List Projection) :
    (items.flatMap (Projection.named (a.sources.map BoundSource.alias))).foldlM analyzer.selectItem a =
      items.foldlM analyzer.selectItem a := by
  -- The sources, and with them the names that stars are given, stay the same from item to item.
  induction items generalizing a with
  | nil => rfl
  | cons item rest ih =>
    rw [List.flatMap_cons, List.foldlM_append, List.foldlM_cons, selectItem_named bound distinct]
    cases outcome : analyzer.selectItem a item with
    | error error => rfl
    | ok next =>
      obtain ⟨_, rfl⟩ := (selectItem_eq_ok_iff bound).mp outcome
      exact ih bound distinct

end Selecting

/-! ### The whole query -/

theorem behindSources_nameStars (bound : a.sources ≠ [])
    (distinct : (a.sources.map BoundSource.alias).Nodup)
    (aliases : a.sources.map BoundSource.alias = query.relations.map Relation.visibleName) :
    analyzer.behindSources query.nameStars a = analyzer.behindSources query a := by
  have selected : analyzer.selectItems query.nameStars a = analyzer.selectItems query a := by
    rw [selectItems, Query.nameStars, ← aliases]
    exact foldlM_selectItem_named bound distinct query.select
  rw [behindSources, selected]
  rfl

/-- Naming the sources of stars changes neither the analysis of a query nor its error. -/
theorem analyze_nameStars (analyzer : Analyzer) (query : Query) (sink : Option Sink) :
    analyzer.analyze query.nameStars sink = analyzer.analyze query sink := by
  have sameSources : analyzer.bindSources query.nameStars (.start query.nameStars.emission) =
      analyzer.bindSources query (.start query.emission) := rfl
  rw [analyze_eq_layers, analyze_eq_layers, sameSources]
  cases outcome : analyzer.bindSources query (.start query.emission) with
  | error error => rfl
  | ok a =>
    obtain ⟨sources, keys, bindsAll, rfl⟩ := bindSources_eq_ok_iff.mp outcome
    have behind : analyzer.behindSources query.nameStars
          { Analysis.start query.emission with sources := sources, joins := keys } =
        analyzer.behindSources query
          { Analysis.start query.emission with sources := sources, joins := keys } :=
      behindSources_nameStars bindsAll.sources_ne_nil bindsAll.nodup_aliases bindsAll.aliases
    exact congrArg (· >>= analyzer.sinkClause sink) behind

/-- `SELECT ORDERS.*, ITEMS.*` in place of `SELECT *`. -/
example :
    ordersWithItems.nameStars.select = [.star (some ⟨"ORDERS"⟩), .star (some ⟨"ITEMS"⟩)] := by
  rfl

end Analyzer

end StreamQuery
