import StreamQuery.Proofs.Clauses

/-! # The keys of a join

Each join of an analysis has the operands of the join that was written, exchanged if that is needed to
read the left key from earlier sources and the right key from the one that the join brings in. Joins
that come later can make a column of a key ambiguous, but they cannot move it to another source.
-/

set_option autoImplicit false

namespace StreamQuery.Analyzer

variable {analyzer : Analyzer} {query : Query} {a : Analysis}

/-- What the recorded join at some position owes to the join that was written there. -/
structure KeysOf (a : Analysis) (i : Nat) (join : Join) (key : BoundJoin) : Prop where
  kind : key.kind = join.kind
  within : key.within = join.within
  operands : join.criteria = .comparison .equal key.leftKey key.rightKey ∨
    join.criteria = .comparison .equal key.rightKey key.leftKey
  leftColumns : key.leftKey.columns ≠ []
  rightColumns : key.rightKey.columns ≠ []
  left : ∀ column ∈ key.leftKey.columns, ∃ k earlier, k ≤ i ∧ a.sources[k]? = some earlier ∧
    (Scope.ofSources (a.sources.take (i + 2)) false).resolve column = .ok earlier.alias
  right : ∃ next, a.sources[i + 1]? = some next ∧ ∀ column ∈ key.rightKey.columns,
    (Scope.ofSources (a.sources.take (i + 2)) false).resolve column = .ok next.alias
  kept : ∃ scope, a.scope false = .ok scope ∧
    ∀ column ∈ key.leftKey.columns ++ key.rightKey.columns, ∀ source,
      (Scope.ofSources (a.sources.take (i + 2)) false).resolve column = .ok source →
        scope.Keeps column source

theorem Oriented.sides {scope : Scope} {join : Join} {key : BoundJoin}
    (oriented : Oriented scope join key) :
    ReadsEarlier scope join.relation.visibleName key.leftKey ∧
      ReadsNext scope join.relation.visibleName key.rightKey ∧
      key.kind = join.kind ∧ key.within = join.within ∧
      (join.criteria = .comparison .equal key.leftKey key.rightKey ∨
        join.criteria = .comparison .equal key.rightKey key.leftKey) := by
  cases oriented with
  | asWritten criteria left right => exact ⟨left, right, rfl, rfl, .inl criteria⟩
  | exchanged criteria right left => exact ⟨left, right, rfl, rfl, .inr criteria⟩

theorem BindsAll.scope_extends {sources : List BoundSource} {keys : List BoundJoin}
    (bindsAll : BindsAll analyzer query sources keys) (count : Nat) :
    (Scope.ofSources sources false).Extends (.ofSources (sources.take count) false) := by
  have distinct := bindsAll.nodup_aliases
  rw [← List.take_append_drop count sources] at distinct
  have extended : (Scope.ofSources (sources.take count ++ sources.drop count) false).Extends
      (.ofSources (sources.take count) false) := Scope.ofSources_append_extends distinct
  rwa [List.take_append_drop] at extended

theorem BindsAll.keysOf {keys : List BoundJoin} {i : Nat} {join : Join} {key : BoundJoin}
    (bindsAll : BindsAll analyzer query a.sources keys) (isJoin : query.joins[i]? = some join)
    (isKey : keys[i]? = some key) : KeysOf a i join key := by
  obtain ⟨found, isFound, oriented⟩ := bindsAll.oriented isJoin
  obtain rfl : found = key := Option.some.inj (isFound.symm.trans isKey)
  obtain ⟨left, right, kind, within, operands⟩ := oriented.sides
  obtain ⟨next, isNext, named⟩ := bindsAll.source_of_join isJoin
  refine ⟨kind, within, operands, left.1, right.1, ?_, ⟨next, isNext, ?_⟩, ?_⟩
  · intro column isColumn
    obtain ⟨source, resolved, different⟩ := left.2 column isColumn
    obtain ⟨k, earlier, inFront, isEarlier, rfl⟩ :=
      Scope.exists_of_resolve_take bindsAll.nodup_aliases resolved
    refine ⟨k, earlier, ?_, isEarlier, resolved⟩
    -- Position `i + 1` is that of the source on the right, which `different` rules out.
    have notNext : k ≠ i + 1 := by
      rintro rfl
      obtain rfl : earlier = next := Option.some.inj (isEarlier.symm.trans isNext)
      exact different named
    omega
  · intro column isColumn
    rw [named]
    exact right.2 column isColumn
  · refine ⟨_, Analysis.scope_of_ne_nil bindsAll.sources_ne_nil false, ?_⟩
    intro column _ source resolved
    exact (bindsAll.scope_extends (i + 2)).covers.keeps resolved

/-- The joins of an analysis are those of its query, each with its keys on the right sides. -/
theorem keysOf_of_analyze {sink : Option Sink} (analyzed : analyzer.analyze query sink = .ok a) :
    a.joins.length = query.joins.length ∧
      ∀ i join key, query.joins[i]? = some join → a.joins[i]? = some key → KeysOf a i join key := by
  obtain ⟨sources, keys, bindsAll, _, entered⟩ := analyze_eq_ok_iff.mp analyzed
  obtain ⟨properties, place, rfl⟩ := sinkClause_eq_ok rfl entered
  refine ⟨bindsAll.length_keys, ?_⟩
  intro i join key isJoin isKey
  exact bindsAll.keysOf isJoin isKey

def numbers (name : SourceName) (column : ColumnName) : Source :=
  ⟨name, .stream, Schema.empty.addValue column .bigint, ⟨name.text, ⟨.kafka, none⟩, ⟨.json⟩⟩⟩

def shop : Analyzer where
  source? name :=
    if name = ⟨"ORDERS"⟩ then some (numbers name ⟨"ITEM"⟩)
    else if name = ⟨"ITEMS"⟩ then some (numbers name ⟨"ID"⟩)
    else none
  tableFunctions := []

/-- `LEFT JOIN ITEMS ON ID = ITEM`, with the key of the joined source first. -/
def onItems : Join where
  kind := .left
  relation := ⟨⟨"ITEMS"⟩, none⟩
  criteria := .comparison .equal (.column (.unqualified ⟨"ID"⟩)) (.column (.unqualified ⟨"ITEM"⟩))
  within := none

def ordersWithItems : Query where
  select := [.star none]
  relation := ⟨⟨"ORDERS"⟩, none⟩
  joins := [onItems]

theorem keysOf_onItems :
    ∃ a key, shop.analyze ordersWithItems none = .ok a ∧ a.joins = [key] ∧
      key.leftKey = .column (.unqualified ⟨"ITEM"⟩) ∧ KeysOf a 0 onItems key := by
  have analyzed : shop.analyze ordersWithItems none = .ok _ := rfl
  exact ⟨_, _, analyzed, rfl, rfl, (keysOf_of_analyze analyzed).2 0 onItems _ rfl rfl⟩

end StreamQuery.Analyzer

/-! ## The order of the operands

`ON a = b` and `ON b = a` are the same join. The analysis of a query does not tell which of the two was
written, for any of its joins.
-/

namespace StreamQuery

/-- The join with the operands of its equation exchanged; other criteria stay as they are. -/
def Join.exchange (join : Join) : Join :=
  match join.criteria with
  | .comparison .equal first second => { join with criteria := .comparison .equal second first }
  | _ => join

def Join.exchangeIf (exchanged : Bool) (join : Join) : Join :=
  if exchanged then join.exchange else join

def Query.exchange (query : Query) (chosen : Nat → Bool) : Query :=
  { query with joins := query.joins.mapIdx fun i join => join.exchangeIf (chosen i) }

theorem Join.exchange_of_equation {join : Join} {first second : Expr}
    (criteria : join.criteria = .comparison .equal first second) :
    join.exchange = { join with criteria := .comparison .equal second first } := by
  simp only [exchange, criteria]

theorem Join.exchange_exchange (join : Join) : join.exchange.exchange = join := by
  by_cases equation : ∃ first second, join.criteria = .comparison .equal first second
  · obtain ⟨first, second, criteria⟩ := equation
    rw [exchange_of_equation criteria, exchange_of_equation rfl, ← criteria]
  · have untouched : join.exchange = join := by
      unfold exchange
      split
      · rename_i first second criteria
        exact absurd ⟨first, second, criteria⟩ equation
      · rfl
    rw [untouched, untouched]

theorem Join.relation_exchange (join : Join) : join.exchange.relation = join.relation := by
  unfold exchange
  split
  · rfl
  · rfl

theorem Join.relation_exchangeIf (join : Join) (exchanged : Bool) :
    (join.exchangeIf exchanged).relation = join.relation := by
  cases exchanged with
  | false => rfl
  | true => exact join.relation_exchange

theorem Query.relations_exchange (query : Query) (chosen : Nat → Bool) :
    (query.exchange chosen).relations = query.relations := by
  have sameJoined : (query.exchange chosen).joins.map (·.relation) =
      query.joins.map (·.relation) := by
    apply List.ext_getElem?
    intro i
    simp only [exchange, List.getElem?_map, List.getElem?_mapIdx, Option.map_map,
      Function.comp_def, Join.relation_exchangeIf]
  rw [relations, sameJoined]
  rfl

namespace Analyzer

variable {analyzer : Analyzer} {query : Query} {a : Analysis}

theorem Oriented.exchange {scope : Scope} {join : Join} {key : BoundJoin}
    (oriented : Oriented scope join key) : Oriented scope join.exchange key := by
  -- Each order of the operands becomes the other; the keys are the same in both.
  cases oriented with
  | asWritten criteria left right =>
    rw [Join.exchange_of_equation criteria]
    exact .exchanged rfl right left
  | exchanged criteria right left =>
    rw [Join.exchange_of_equation criteria]
    exact .asWritten rfl left right

theorem oriented_exchange_iff {scope : Scope} {join : Join} {key : BoundJoin} :
    Oriented scope join.exchange key ↔ Oriented scope join key := by
  constructor
  · intro oriented
    rw [← join.exchange_exchange]
    exact oriented.exchange
  · exact Oriented.exchange

theorem oriented_exchangeIf_iff {scope : Scope} {join : Join} {key : BoundJoin}
    (exchanged : Bool) : Oriented scope (join.exchangeIf exchanged) key ↔ Oriented scope join key := by
  cases exchanged with
  | false => rfl
  | true => exact oriented_exchange_iff

theorem joined_exchangeIf_iff {seen sources : List BoundSource} {joins : List Join}
    {keys : List BoundJoin} (chosen : Nat → Bool) :
    Joined analyzer seen (joins.mapIdx fun i join => join.exchangeIf (chosen i)) sources keys ↔
      Joined analyzer seen joins sources keys := by
  induction joins generalizing seen keys chosen with
  | nil => rfl
  | cons join rest ih =>
    rw [List.mapIdx_cons]
    have relation := join.relation_exchangeIf (chosen 0)
    constructor
    · intro joined
      cases joined with
      | cons binds unused oriented others =>
        exact .cons (relation ▸ binds) unused ((oriented_exchangeIf_iff (chosen 0)).mp oriented)
          ((ih fun i => chosen (i + 1)).mp others)
    · intro joined
      cases joined with
      | cons binds unused oriented others =>
        exact .cons (relation.symm ▸ binds) unused
          ((oriented_exchangeIf_iff (chosen 0)).mpr oriented)
          ((ih fun i => chosen (i + 1)).mpr others)

theorem bindsAll_exchange_iff {sources : List BoundSource} {keys : List BoundJoin}
    (chosen : Nat → Bool) :
    BindsAll analyzer (query.exchange chosen) sources keys ↔ BindsAll analyzer query sources keys := by
  have joined : ∀ first, Joined analyzer [first] (query.exchange chosen).joins sources keys ↔
      Joined analyzer [first] query.joins sources keys := fun _ => joined_exchangeIf_iff chosen
  simp only [BindsAll, joined]
  rfl

theorem clausesHold_exchange_iff {sources : List BoundSource} (chosen : Nat → Bool) :
    ClausesHold sources (query.exchange chosen) ↔ ClausesHold sources query := by
  constructor
  · intro hold
    exact ⟨query.relations_exchange chosen ▸ hold.stars, hold.filter, hold.grouping,
      hold.groupingDistinct, hold.having, hold.select, hold.partitioning⟩
  · intro hold
    exact ⟨(query.relations_exchange chosen).symm ▸ hold.stars, hold.filter, hold.grouping,
      hold.groupingDistinct, hold.having, hold.select, hold.partitioning⟩

/-- However the operands of its joins are ordered, a query has the same analysis or none. -/
theorem analyze_exchange_iff (analyzer : Analyzer) (query : Query) (sink : Option Sink)
    (chosen : Nat → Bool) (a : Analysis) :
    analyzer.analyze (query.exchange chosen) sink = .ok a ↔ analyzer.analyze query sink = .ok a := by
  simp only [analyze_eq_ok_iff, bindsAll_exchange_iff, clausesHold_exchange_iff]
  rfl

end Analyzer

end StreamQuery
