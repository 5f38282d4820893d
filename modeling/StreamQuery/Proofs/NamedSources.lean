import StreamQuery.Proofs.JoinKeys

/-! # The sources that a query names

The analysis of a query looks up the names of its relations and, if it inserts into its sink, the name
of the sink. What else a catalog holds has no influence, neither on the analysis nor on its errors. So
of the changes that made a catalog, only the last one of each of these names counts.
-/

set_option autoImplicit false

namespace StreamQuery

def Query.lookups (query : Query) (sink : Option Sink) : List SourceName :=
  query.relations.map Relation.name ++
    (sink.filter fun target => !target.creates).toList.map Sink.name

namespace Analyzer

/-- Two analyzers know the same table functions, and under some names the same sources. -/
structure AgreeOn (names : List SourceName) (first second : Analyzer) : Prop where
  tableFunctions : first.tableFunctions = second.tableFunctions
  sources : ∀ name ∈ names, first.source? name = second.source? name

variable {first second : Analyzer} {query : Query}

/-! ## One lookup -/

theorem bindRelation_congr {relation : Relation}
    (same : first.source? relation.name = second.source? relation.name) (a : Analysis) :
    first.bindRelation relation a = second.bindRelation relation a := by
  unfold bindRelation
  rw [same]

theorem bindJoin_congr {join : Join}
    (same : first.source? join.relation.name = second.source? join.relation.name) (a : Analysis) :
    first.bindJoin a join = second.bindJoin a join := by
  unfold bindJoin
  rw [bindRelation_congr same]

theorem sinkTopic_congr {sink : Sink}
    (same : sink.creates = false → first.source? sink.name = second.source? sink.name)
    (a : Analysis) : first.sinkTopic a sink = second.sinkTopic a sink := by
  unfold sinkTopic
  cases creates : sink.creates with
  | true => rfl
  | false => rw [same creates]

/-! ## The whole walk -/

theorem foldlM_bindJoin_congr {joins : List Join}
    (same : ∀ join ∈ joins,
      first.source? join.relation.name = second.source? join.relation.name) (a : Analysis) :
    joins.foldlM first.bindJoin a = joins.foldlM second.bindJoin a := by
  induction joins generalizing a with
  | nil => rfl
  | cons join rest ih =>
    obtain ⟨sameFirst, sameRest⟩ := List.forall_mem_cons.mp same
    rw [List.foldlM_cons, List.foldlM_cons, bindJoin_congr sameFirst]
    congr 1
    funext next
    exact ih sameRest next

theorem bindSources_congr
    (same : ∀ relation ∈ query.relations,
      first.source? relation.name = second.source? relation.name) (a : Analysis) :
    first.bindSources query a = second.bindSources query a := by
  obtain ⟨sameFirst, sameRest⟩ := List.forall_mem_cons.mp same
  unfold bindSources
  rw [bindRelation_congr sameFirst]
  congr 1
  funext next
  apply foldlM_bindJoin_congr
  intro join isJoin
  exact sameRest join.relation (List.mem_map_of_mem isJoin)

theorem selectItems_congr (same : first.tableFunctions = second.tableFunctions) (a : Analysis) :
    first.selectItems query a = second.selectItems query a := by
  have recordItem : first.recordItem = second.recordItem := by
    funext a item
    simp only [Analyzer.recordItem, same]
  have selectItem : first.selectItem = second.selectItem := by
    funext a item
    rw [Analyzer.selectItem, Analyzer.selectItem, recordItem]
  rw [selectItems, selectItems, selectItem]

theorem sinkClause_congr {sink : Option Sink}
    (same : ∀ target ∈ sink, target.creates = false →
      first.source? target.name = second.source? target.name) (a : Analysis) :
    first.sinkClause sink a = second.sinkClause sink a := by
  cases sink with
  | none => rfl
  | some target =>
    unfold sinkClause
    dsimp only
    rw [sinkTopic_congr (same target rfl)]

theorem analyze_congr {sink : Option Sink} (agree : AgreeOn (query.lookups sink) first second) :
    first.analyze query sink = second.analyze query sink := by
  have relations : ∀ relation ∈ query.relations,
      first.source? relation.name = second.source? relation.name := by
    intro relation isRelation
    apply agree.sources
    exact List.mem_append_left _ (List.mem_map_of_mem isRelation)
  have target : ∀ target ∈ sink, target.creates = false →
      first.source? target.name = second.source? target.name := by
    rintro target rfl inserts
    apply agree.sources
    apply List.mem_append_right
    simp [Option.filter, inserts]
  have analyzeQuery : first.analyzeQuery query = second.analyzeQuery query := by
    simp only [Analyzer.analyzeQuery, bindSources_congr relations,
      selectItems_congr agree.tableFunctions]
  simp only [analyze, analyzeQuery, sinkClause_congr target]

end Analyzer

/-! ## Catalogs with a history -/

namespace Catalog

def Change.result : Change → Option Source
  | register source => some source
  | drop _ => none

def lastChange? (changes : List Change) (name : SourceName) : Option Change :=
  (changes.filter fun change => change.name = name).getLast?

theorem source?_apply (catalog : Catalog) (change : Change) (name : SourceName) :
    (catalog.apply change).1.source? name =
      if change.name = name then change.result else catalog.source? name := by
  cases change with
  | register source =>
    change (catalog.register source).source? name = _
    simp only [source?_register, Change.name, Change.result, eq_comm]
  | drop dropped =>
    change (catalog.drop dropped).source? name = _
    simp only [source?_drop, Change.name, Change.result, eq_comm]

theorem lastChange?_cons (change : Change) (changes : List Change) (name : SourceName) :
    lastChange? (change :: changes) name =
      (lastChange? changes name).or (if change.name = name then some change else none) := by
  unfold lastChange?
  by_cases touches : change.name = name
  · rw [List.filter_cons_of_pos (by simpa using touches), List.getLast?_cons, if_pos touches]
    cases (changes.filter fun change => change.name = name).getLast? <;> rfl
  · rw [List.filter_cons_of_neg (by simpa using touches), if_neg touches, Option.or_none]

theorem lastChange?_eq_none {changes : List Change} {name : SourceName}
    (unrelated : ∀ change ∈ changes, change.name ≠ name) : lastChange? changes name = none := by
  unfold lastChange?
  rw [List.getLast?_eq_none_iff, List.filter_eq_nil_iff]
  intro change isChange
  simpa using unrelated change isChange

theorem source?_applyAll (catalog : Catalog) (changes : List Change) (name : SourceName) :
    (catalog.applyAll changes).source? name =
      (lastChange? changes name).elim (catalog.source? name) Change.result := by
  induction changes generalizing catalog with
  | nil => rfl
  | cons change rest ih =>
    have stepped : catalog.applyAll (change :: rest) = (catalog.apply change).1.applyAll rest := rfl
    rw [stepped, ih, lastChange?_cons, source?_apply]
    cases lastChange? rest name with
    | some last => rfl
    | none => split <;> rfl

end Catalog

namespace Analyzer

def knowing (functions : List String) (catalog : Catalog) : Analyzer :=
  functions.foldl addTableFunction (ofCatalog catalog)

theorem foldl_addTableFunction (analyzer : Analyzer) (functions : List String) :
    functions.foldl addTableFunction analyzer =
      ⟨analyzer.source?, analyzer.tableFunctions ++ functions.map Text.upper⟩ := by
  induction functions generalizing analyzer with
  | nil => simp
  | cons name rest ih => simp [ih, addTableFunction]

theorem AgreeOn.knowing {names : List SourceName} {first second : Catalog}
    (same : ∀ name ∈ names, first.source? name = second.source? name) (functions : List String) :
    AgreeOn names (.knowing functions first) (.knowing functions second) := by
  unfold Analyzer.knowing
  rw [foldl_addTableFunction, foldl_addTableFunction]
  exact ⟨rfl, same⟩

/-- Two catalogs give the same analysis, or the same error, if they hold the same sources under the
names that the query looks up; two histories do so if the last change of each of these names is the
same, and a history that touches none of them has no effect. -/
theorem analyze_of_lookups (functions : List String) (query : Query) (sink : Option Sink) :
    (∀ first second : Catalog,
      (∀ name ∈ query.lookups sink, first.source? name = second.source? name) →
        (knowing functions first).analyze query sink =
          (knowing functions second).analyze query sink) ∧
    (∀ (catalog : Catalog) (first second : List Catalog.Change),
      (∀ name ∈ query.lookups sink,
        Catalog.lastChange? first name = Catalog.lastChange? second name) →
          (knowing functions (catalog.applyAll first)).analyze query sink =
            (knowing functions (catalog.applyAll second)).analyze query sink) ∧
    ∀ (catalog : Catalog) (changes : List Catalog.Change),
      (∀ change ∈ changes, change.name ∉ query.lookups sink) →
        (knowing functions (catalog.applyAll changes)).analyze query sink =
          (knowing functions catalog).analyze query sink := by
  refine ⟨?_, ?_, ?_⟩
  · intro first second same
    exact analyze_congr (AgreeOn.knowing same functions)
  · intro catalog first second same
    apply analyze_congr
    apply AgreeOn.knowing
    intro name isName
    rw [Catalog.source?_applyAll, Catalog.source?_applyAll, same name isName]
  · intro catalog changes unrelated
    apply analyze_congr
    apply AgreeOn.knowing
    intro name isName
    have untouched : Catalog.lastChange? changes name = none := by
      apply Catalog.lastChange?_eq_none
      rintro change isChange rfl
      exact unrelated change isChange isName
    rw [Catalog.source?_applyAll, untouched]
    rfl

def stocked : List Catalog.Change :=
  [.register (numbers ⟨"ORDERS"⟩ ⟨"ITEM"⟩), .register (numbers ⟨"ITEMS"⟩ ⟨"ID"⟩),
    .register (numbers ⟨"SOLD"⟩ ⟨"ITEM"⟩)]

/-- The same sources in another order, between sources that come and go. -/
def restocked : List Catalog.Change :=
  [.register (numbers ⟨"SOLD"⟩ ⟨"ITEM"⟩), .register (numbers ⟨"USERS"⟩ ⟨"ID"⟩),
    .register (numbers ⟨"ORDERS"⟩ ⟨"OLD"⟩), .register (numbers ⟨"ITEMS"⟩ ⟨"ID"⟩),
    .drop ⟨"USERS"⟩, .register (numbers ⟨"ORDERS"⟩ ⟨"ITEM"⟩)]

def intoSold : Sink :=
  ⟨⟨"SOLD"⟩, false, .none⟩

/-- What becomes of inserting `ordersWithItems` into `SOLD`, by the history of the catalog. -/
def soldAfter (changes : List Catalog.Change) : Except AnalysisError Analysis :=
  (knowing ["Unnest"] (Catalog.empty.applyAll changes)).analyze ordersWithItems (some intoSold)

theorem analyze_restocked :
    (∃ a, soldAfter stocked = .ok a) ∧ soldAfter stocked = soldAfter restocked ∧
      soldAfter (restocked ++ [.drop ⟨"ITEM"⟩]) = soldAfter restocked ∧
        soldAfter [] = soldAfter [.register (numbers ⟨"ITEMS"⟩ ⟨"ID"⟩), .drop ⟨"ITEMS"⟩] := by
  obtain ⟨byCatalogs, byLastChanges, byUnrelated⟩ :=
    analyze_of_lookups ["Unnest"] ordersWithItems (some intoSold)
  refine ⟨⟨_, rfl⟩, ?_, ?_, ?_⟩
  · apply byLastChanges
    exact List.forall_mem_cons.mpr ⟨rfl, List.forall_mem_cons.mpr
      ⟨rfl, List.forall_mem_singleton.mpr rfl⟩⟩
  · exact byUnrelated (Catalog.empty.applyAll restocked) [.drop ⟨"ITEM"⟩] (by decide)
  · apply byCatalogs
    decide

end Analyzer

end StreamQuery
