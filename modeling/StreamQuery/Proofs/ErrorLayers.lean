import StreamQuery.Proofs.JoinKeys

/-! # Which error is reported

The walk through a query has three layers: its relations and joins, its other clauses, and its sink. An
error of a layer hides whatever is wrong with the layers behind it. The clauses and the sink have errors
of their own kinds, none of which is about a relation or a join, and a sink that is entered changes
nothing but the sink and the properties of the analysis.
-/

set_option autoImplicit false

namespace StreamQuery

def Query.sourcesOnly (query : Query) : Query where
  select := []
  relation := query.relation
  joins := query.joins
  emission := query.emission

namespace AnalysisError

/-- Whether the error is about the alias of a relation, its kind, or the criteria of a join. -/
def blamesSources : AnalysisError → Bool
  | duplicateAlias _ => true
  | unsupportedKind .. => true
  | unsupportedCriteria _ => true
  | _ => false

/-- The errors that arise behind the relations and joins. -/
inductive OfClauses : AnalysisError → Prop where
  | noSources : OfClauses noSources
  | clauseAlreadySet (clause : Clause) : OfClauses (clauseAlreadySet clause)
  | duplicateElement (clause : Clause) (expr : Expr) : OfClauses (duplicateElement clause expr)
  | unknownSource (name : SourceName) : OfClauses (unknownSource name)
  | unknownColumn (column : String) (candidates : List String) :
      OfClauses (unknownColumn column candidates)
  | ambiguousColumn (column : String) (sources : List SourceName) :
      OfClauses (ambiguousColumn column sources)

theorem OfClauses.blamesSources_eq_false {error : AnalysisError} (ofClauses : error.OfClauses) :
    error.blamesSources = false := by
  cases ofClauses <;> rfl

end AnalysisError

open AnalysisError (OfClauses)

/-! ## The errors of each clause -/

theorem Scope.onlyFails_resolve {scope : Scope} (column : ColumnRef) :
    OnlyFails OfClauses (scope.resolve column) := by
  unfold Scope.resolve
  split
  · split
    · exact .error (.unknownSource _)
    · split
      · exact .ok _ _
      · exact .error (.unknownColumn _ _)
  · split
    · exact .error (.unknownColumn _ _)
    · exact .ok _ _
    · exact .error (.ambiguousColumn _ _)

theorem Scope.onlyFails_check {scope : Scope} (columns : List ColumnRef) :
    OnlyFails OfClauses (scope.check columns) := by
  induction columns with
  | nil => exact .ok _ _
  | cons column rest ih =>
    unfold Scope.check
    exact .bind (Scope.onlyFails_resolve column) fun _ _ => ih

namespace Analysis

theorem onlyFails_scope (a : Analysis) (afterGrouping : Bool) :
    OnlyFails OfClauses (a.scope afterGrouping) := by
  unfold scope
  split
  · exact .error .noSources
  · exact .ok _ _

theorem onlyFails_map_setOnce {α β : Type} (clause : Clause) (place : Option α) (value : α)
    (enter : Option α → β) : OnlyFails OfClauses ((setOnce clause place value).map enter) := by
  apply OnlyFails.map
  unfold setOnce
  split
  · exact .ok _ _
  · exact .error (.clauseAlreadySet clause)

theorem onlyFails_appendDistinct (present exprs : List Expr) :
    OnlyFails OfClauses (appendDistinct present exprs) := by
  intro error refused
  obtain ⟨_, _, _, _, _, _, rfl⟩ := Analyzer.appendDistinct_eq_error_iff.mp refused
  exact .duplicateElement _ _

end Analysis

namespace Analyzer

open Analysis (onlyFails_map_setOnce)

variable {analyzer : Analyzer} {query : Query} {a : Analysis}

theorem onlyFails_checkColumns (a : Analysis) (afterGrouping : Bool) (columns : List ColumnRef) :
    OnlyFails OfClauses (checkColumns a afterGrouping columns) := by
  unfold checkColumns
  exact .bind (a.onlyFails_scope afterGrouping) fun _ _ => Scope.onlyFails_check columns

theorem onlyFails_checkedClause (a : Analysis) (clause : Option Expr) (afterGrouping : Bool)
    {enter : Expr → Except AnalysisError Analysis}
    (enters : ∀ expr, OnlyFails OfClauses (enter expr)) :
    OnlyFails OfClauses (checkedClause a clause afterGrouping enter) := by
  cases clause with
  | none => exact .ok _ _
  | some expr => exact .bind (onlyFails_checkColumns a afterGrouping _) fun _ _ => enters expr

theorem onlyFails_selectItem (a : Analysis) (item : Projection) :
    OnlyFails OfClauses (analyzer.selectItem a item) := by
  unfold selectItem
  apply OnlyFails.map
  cases item with
  | single expr name => exact .ok _ _
  | star source =>
    unfold expand
    apply OnlyFails.bind (a.onlyFails_scope false)
    intro scope _
    cases source with
    | none => exact .ok _ _
    | some name =>
      unfold expandStar
      dsimp only
      split
      · exact .ok _ _
      · exact .error (.unknownSource name)

theorem onlyFails_selectItems (a : Analysis) :
    OnlyFails OfClauses (analyzer.selectItems query a) :=
  OnlyFails.foldlM (fun _ => True) (fun a _ item => onlyFails_selectItem a item)
    (fun _ _ _ _ _ => trivial) query.select trivial

theorem onlyFails_groupingClause (a : Analysis) :
    OnlyFails OfClauses (groupingClause query a) := by
  unfold groupingClause
  split
  · exact .ok _ _
  · apply OnlyFails.bind (onlyFails_checkColumns a false _)
    intro _ _
    exact .map _ (Analysis.onlyFails_appendDistinct _ _)

theorem onlyFails_windowClause (a : Analysis) : OnlyFails OfClauses (windowClause query a) := by
  unfold windowClause
  split
  · exact .ok _ _
  · exact onlyFails_map_setOnce _ _ _ _

theorem onlyFails_limitClause (a : Analysis) : OnlyFails OfClauses (limitClause query a) := by
  unfold limitClause
  split
  · exact .ok _ _
  · exact onlyFails_map_setOnce _ _ _ _

theorem onlyFails_sinkClause (sink : Option Sink) (a : Analysis) :
    OnlyFails OfClauses (analyzer.sinkClause sink a) := by
  cases sink with
  | none => exact .ok _ _
  | some target =>
    unfold sinkClause
    apply OnlyFails.bind
    · unfold sinkTopic
      split
      · split
        · exact .error .noSources
        · exact .ok _ _
      · split
        · exact .error (.unknownSource _)
        · exact .ok _ _
    · intro topic _
      exact onlyFails_map_setOnce _ _ _ _

/-! ## The layers of the walk -/

def behindSources (analyzer : Analyzer) (query : Query) (a : Analysis) :
    Except AnalysisError Analysis := do
  let a ← analyzer.selectItems query a
  let a ← filterClause query a
  let a ← groupingClause query a
  let a ← windowClause query a
  let a ← havingClause query a
  let a ← checkSelect a
  let a ← partitioningClause query a
  limitClause query a

theorem analyze_eq_layers (sink : Option Sink) :
    analyzer.analyze query sink =
      (analyzer.bindSources query (.start query.emission) >>= fun a =>
        analyzer.behindSources query a >>= analyzer.sinkClause sink) := by
  simp only [analyze, analyzeQuery, behindSources, bind_assoc]

theorem onlyFails_behindSources (a : Analysis) :
    OnlyFails OfClauses (analyzer.behindSources query a) := by
  unfold behindSources
  apply OnlyFails.bind (onlyFails_selectItems a)
  intro a _
  apply OnlyFails.bind (onlyFails_checkedClause a _ _ fun _ => onlyFails_map_setOnce _ _ _ _)
  intro a _
  apply OnlyFails.bind (onlyFails_groupingClause a)
  intro a _
  apply OnlyFails.bind (onlyFails_windowClause a)
  intro a _
  apply OnlyFails.bind (onlyFails_checkedClause a _ _ fun _ => onlyFails_map_setOnce _ _ _ _)
  intro a _
  apply OnlyFails.bind (.bind (onlyFails_checkColumns a _ _) fun _ _ => .ok _ _)
  intro a _
  apply OnlyFails.bind (onlyFails_checkedClause a _ _ fun _ => onlyFails_map_setOnce _ _ _ _)
  intro a _
  exact onlyFails_limitClause a

theorem behindSources_sourcesOnly (bound : a.sources ≠ []) (unselected : a.select = []) :
    analyzer.behindSources query.sourcesOnly a = .ok a := by
  have checked : checkSelect a = .ok a :=
    (checkSelect_eq_ok_iff bound).mpr ⟨by simp [unselected], rfl⟩
  have absent : analyzer.behindSources query.sourcesOnly a = (checkSelect a >>= .ok) := rfl
  rw [absent, checked]
  rfl

theorem analyze_sourcesOnly (analyzer : Analyzer) (query : Query) :
    analyzer.analyze query.sourcesOnly none =
      analyzer.bindSources query (.start query.emission) := by
  rw [analyze_eq_layers]
  change (analyzer.bindSources query (.start query.emission) >>= _) = _
  cases outcome : analyzer.bindSources query (.start query.emission) with
  | error error => rfl
  | ok a =>
    obtain ⟨sources, keys, bindsAll, rfl⟩ := bindSources_eq_ok_iff.mp outcome
    change (analyzer.behindSources query.sourcesOnly _ >>= .ok) = _
    rw [behindSources_sourcesOnly (by exact bindsAll.sources_ne_nil) rfl]
    rfl

/-- What becomes of a sink if the analysis without it is `a`. -/
structure EntersSink (analyzer : Analyzer) (query : Query) (a : Analysis) (target : Sink) : Prop where
  created : target.creates = true → ∃ b, analyzer.analyze query (some target) = .ok b
  inserted : target.creates = false →
    ((∃ b, analyzer.analyze query (some target) = .ok b) ↔
      (analyzer.source? target.name).isSome)
  unknown : target.creates = false → analyzer.source? target.name = none →
    analyzer.analyze query (some target) = .error (.unknownSource target.name)
  unchanged : ∀ b, analyzer.analyze query (some target) = .ok b →
    b = { a with sink := b.sink, properties := b.properties }

theorem analyze_none (analyzer : Analyzer) (query : Query) :
    analyzer.analyze query none = analyzer.analyzeQuery query := by
  unfold analyze
  cases analyzer.analyzeQuery query <;> rfl

theorem analyze_of_analyzeQuery (sink : Option Sink)
    (analyzed : analyzer.analyze query none = .ok a) :
    analyzer.analyze query sink = analyzer.sinkClause sink a := by
  rw [analyze_none] at analyzed
  rw [analyze, analyzed]
  rfl

theorem entersSink_of_analyze (target : Sink) (analyzed : analyzer.analyze query none = .ok a) :
    EntersSink analyzer query a target := by
  obtain ⟨sources, keys, bindsAll, _, entered⟩ := analyze_eq_ok_iff.mp analyzed
  obtain rfl := Except.ok.inj entered
  have walked := analyze_of_analyzeQuery (some target) analyzed
  have succeeds : (∃ b, analyzer.analyze query (some target) = .ok b) ↔
      (target.creates = false → (analyzer.source? target.name).isSome) := by
    rw [walked, exists_sinkClause_iff (by exact bindsAll.sources_ne_nil) rfl]
    simp
  refine ⟨?_, ?_, ?_, ?_⟩
  · intro creates
    apply succeeds.mpr
    intro inserts
    cases creates.symm.trans inserts
  · intro inserts
    simp [succeeds, inserts]
  · intro inserts unknown
    simp only [walked, sinkClause, sinkTopic, inserts, unknown]
    rfl
  · intro b entered
    rw [walked] at entered
    obtain ⟨_, _, rfl⟩ := sinkClause_eq_ok rfl entered
    rfl

/-- An error in the relations and joins comes first, whatever else is wrong; behind it, no error is
about them. An error without a sink is the error with any sink. Without such errors a sink fails only
if it is inserted into and unknown, and otherwise only the sink and the properties depend on it. -/
theorem analyze_layered (analyzer : Analyzer) (query : Query) (sink : Option Sink) :
    (∀ error, analyzer.analyze query.sourcesOnly none = .error error →
      analyzer.analyze query sink = .error error) ∧
    (∀ bound, analyzer.analyze query.sourcesOnly none = .ok bound →
      ∀ error, analyzer.analyze query sink = .error error → error.blamesSources = false) ∧
    (∀ error, analyzer.analyze query none = .error error →
      analyzer.analyze query sink = .error error) ∧
    ∀ a, analyzer.analyze query none = .ok a →
      ∀ target, EntersSink analyzer query a target := by
  refine ⟨?_, ?_, ?_, ?_⟩
  · intro error refused
    rw [analyze_sourcesOnly] at refused
    rw [analyze_eq_layers, refused]
    rfl
  · intro bound accepted error refused
    rw [analyze_sourcesOnly] at accepted
    rw [analyze_eq_layers, accepted] at refused
    have behind : OnlyFails OfClauses
        (analyzer.behindSources query bound >>= analyzer.sinkClause sink) :=
      .bind (onlyFails_behindSources bound) fun a _ => onlyFails_sinkClause sink a
    exact (behind error refused).blamesSources_eq_false
  · intro error refused
    rw [analyze_none] at refused
    rw [analyze, refused]
    rfl
  · intro a analyzed target
    exact entersSink_of_analyze target analyzed

/-- `SELECT USERS.* FROM ORDERS LEFT JOIN ITEMS AS ORDERS ON ID = ITEM`, with a fault in the relations
and one in the select list. -/
def faulty : Query where
  select := [.star (some ⟨"USERS"⟩)]
  relation := ⟨⟨"ORDERS"⟩, none⟩
  joins := [{ onItems with relation.alias := some ⟨"ORDERS"⟩ }]

def intoUnknown : Sink :=
  ⟨⟨"SOLD"⟩, false, .none⟩

theorem analyze_layered_faulty :
    shop.analyze faulty.sourcesOnly none = .error (.duplicateAlias ⟨"ORDERS"⟩) ∧
      shop.analyze faulty (some intoUnknown) = .error (.duplicateAlias ⟨"ORDERS"⟩) ∧
      ∃ a, shop.analyze ordersWithItems none = .ok a ∧
        shop.analyze ordersWithItems (some intoUnknown) = .error (.unknownSource ⟨"SOLD"⟩) ∧
        ∃ b, shop.analyze ordersWithItems (some ⟨⟨"SOLD"⟩, true, .none⟩) = .ok b ∧
          b = { a with sink := b.sink, properties := b.properties } := by
  obtain ⟨ofSources, _, _, _⟩ := analyze_layered shop faulty (some intoUnknown)
  obtain ⟨_, _, _, ofSinks⟩ := analyze_layered shop ordersWithItems none
  have analyzed : shop.analyze ordersWithItems none = .ok _ := rfl
  obtain ⟨b, created⟩ := (ofSinks _ analyzed ⟨⟨"SOLD"⟩, true, .none⟩).created rfl
  exact ⟨rfl, ofSources _ rfl, _, analyzed, (ofSinks _ analyzed intoUnknown).unknown rfl rfl,
    b, created, (ofSinks _ analyzed _).unchanged b created⟩

end Analyzer

end StreamQuery
