import StreamQuery.Proofs.AnalysisParts
import StreamQuery.Proofs.Clauses

/-! # Edits that are refused

An edit can be made in place: it writes as it goes, and nothing takes back what was written before a
fault. Every edit finds its faults before it writes, so in place it does the same as an edit that gives a
new analysis, and one that is refused leaves all of the analysis as it was. Which edits are refused and
for what reason is said by `Refuses` alone.
-/

set_option autoImplicit false

namespace StreamQuery

namespace Analysis

/-! ## Edits in place -/

def fillInPlace (single : SingleClause) (value : single.Value) :
    EStateM AnalysisError Analysis Unit := do
  let a ← get
  match (a.contents (.clause single) : Option single.Value) with
  | some _ => throw (.clauseAlreadySet single.clause)
  | none => set (a.write (.clause single) (some value))

/-- The expressions that are to be entered, unless one is present or among them already. -/
def pendingGrouping (pending : List Expr) :
    List Expr → EStateM AnalysisError Analysis (List Expr)
  | [] => pure pending
  | expr :: rest => do
    let a ← get
    if expr.isIn a.grouping || expr.isIn pending then throw (.duplicateElement .grouping expr)
    else pendingGrouping (pending ++ [expr]) rest

/-- Enters an expression. One that is present is left where it is. -/
def enterGrouping (expr : Expr) : EStateM AnalysisError Analysis Unit :=
  modify fun a => if expr.isIn a.grouping then a else { a with grouping := a.grouping ++ [expr] }

def groupInPlace (exprs : List Expr) : EStateM AnalysisError Analysis Unit := do
  let pending ← pendingGrouping [] exprs
  forM pending enterGrouping

def joinInPlace (join : BoundJoin) : EStateM AnalysisError Analysis Unit := do
  let a ← get
  if a.sources.length ≤ a.joins.length + 1 then
    throw (.joinWithoutSource a.sources.length a.joins.length)
  else set { a with joins := a.joins ++ [join] }

def bindInPlace (name : SourceName) (source : Source) : EStateM AnalysisError Analysis Unit := do
  let a ← get
  if name ∈ a.sources.map BoundSource.alias then throw (.duplicateAlias name)
  else
    match BoundSource.bind name source with
    | .error error => throw error
    | .ok bound => set { a with sources := a.sources ++ [bound] }

def editInPlace : Edit → EStateM AnalysisError Analysis Unit
  | .bindSource name source => bindInPlace name source
  | .addJoin join => joinInPlace join
  | .addSelect item => modify (·.addSelect item)
  | .addSelectNames names => modify (·.addSelectNames names)
  | .addTableCall call => modify (·.addTableCalls [call])
  | .setFilter expr => fillInPlace .filter expr
  | .addGrouping exprs => groupInPlace exprs
  | .setWindow window => fillInPlace .window window
  | .setHaving expr => fillInPlace .having expr
  | .setPartitioning expr => fillInPlace .partitioning expr
  | .setLimit limit => fillInPlace .limit limit
  | .setSink sink => fillInPlace .sink sink
  | .setProperties properties => modify (·.setProperties properties)

/-- The result in place of an edit that gives a new analysis or leaves the old one. -/
def settle (a : Analysis) :
    Except AnalysisError Analysis → EStateM.Result AnalysisError Analysis Unit
  | .ok next => .ok () next
  | .error error => .error error a

variable {a : Analysis}

theorem run_fillInPlace (a : Analysis) (single : SingleClause) (value : single.Value) :
    (fillInPlace single value).run a = a.settle (a.edit (single.setter value)) := by
  rw [edit_setter]
  simp only [fillInPlace, EStateM.run_bind, EStateM.run_get]
  cases (a.contents (.clause single) : Option single.Value) with
  | none => rfl
  | some present => rfl

theorem run_joinInPlace (a : Analysis) (join : BoundJoin) :
    (joinInPlace join).run a = a.settle (a.addJoin join) := by
  simp only [joinInPlace, EStateM.run_bind, EStateM.run_get, addJoin]
  by_cases noNext : a.sources.length ≤ a.joins.length + 1
  · rw [if_pos noNext, if_neg (Nat.not_lt.mpr noNext)]
    rfl
  · rw [if_neg noNext, if_pos (Nat.not_le.mp noNext)]
    rfl

theorem run_bindInPlace (a : Analysis) (name : SourceName) (source : Source) :
    (bindInPlace name source).run a = a.settle (a.bindSource name source) := by
  simp only [bindInPlace, EStateM.run_bind, EStateM.run_get, bindSource]
  by_cases taken : name ∈ a.sources.map BoundSource.alias
  · rw [if_pos taken, if_pos taken]
    rfl
  · rw [if_neg taken, if_neg taken]
    cases BoundSource.bind name source with
    | error error => rfl
    | ok bound => rfl

theorem run_pendingGrouping (a : Analysis) (pending exprs : List Expr) :
    (pendingGrouping pending exprs).run a =
      match appendDistinct (a.grouping ++ pending) exprs with
      | .ok _ => .ok (pending ++ exprs) a
      | .error error => .error error a := by
  induction exprs generalizing pending with
  | nil => simp [pendingGrouping, appendDistinct]
  | cons expr rest ih =>
    simp only [pendingGrouping, EStateM.run_bind, EStateM.run_get, appendDistinct,
      Expr.isIn_append]
    by_cases repeated : (expr.isIn a.grouping || expr.isIn pending) = true
    · rw [if_pos repeated, if_pos repeated]
      rfl
    · rw [if_neg repeated, if_neg repeated, ih]
      simp only [List.append_assoc, List.singleton_append]

theorem run_enterGrouping (a : Analysis) {exprs : List Expr}
    (distinct : appendDistinct a.grouping exprs = .ok (a.grouping ++ exprs)) :
    (forM exprs enterGrouping).run a = .ok () { a with grouping := a.grouping ++ exprs } := by
  induction exprs generalizing a with
  | nil => simp
  | cons expr rest ih =>
    -- Only new expressions were gathered, so none of them is left out now.
    obtain ⟨absent, others⟩ := Analyzer.appendDistinct_cons_eq_ok_iff.mp distinct
    have entered : (enterGrouping expr).run a =
        .ok () { a with grouping := a.grouping ++ [expr] } := by
      rw [enterGrouping, EStateM.run_modify, if_neg (Bool.eq_false_iff.mp absent)]
    have enteredOthers := ih { a with grouping := a.grouping ++ [expr] } (by simpa using others)
    rw [List.append_assoc, List.singleton_append] at enteredOthers
    rw [List.forM_cons, EStateM.run_bind, entered]
    exact enteredOthers

theorem run_groupInPlace (a : Analysis) (exprs : List Expr) :
    (groupInPlace exprs).run a = a.settle (a.addGrouping exprs) := by
  simp only [groupInPlace, EStateM.run_bind, run_pendingGrouping, List.append_nil, List.nil_append,
    addGrouping]
  cases appended : appendDistinct a.grouping exprs with
  | error error => rfl
  | ok grouping =>
    obtain ⟨_, rfl⟩ := Analyzer.appendDistinct_eq_ok_iff.mp appended
    exact run_enterGrouping a appended

theorem run_editInPlace (a : Analysis) (edit : Edit) :
    (editInPlace edit).run a = a.settle (a.edit edit) := by
  cases edit with
  | bindSource name source => exact run_bindInPlace a name source
  | addJoin join => exact run_joinInPlace a join
  | addGrouping exprs => exact run_groupInPlace a exprs
  | addSelect item => rfl
  | addSelectNames names => rfl
  | addTableCall call => rfl
  | setProperties properties => rfl
  | setSink sink => exact run_fillInPlace a .sink sink
  | setFilter expr => exact run_fillInPlace a .filter expr
  | setHaving expr => exact run_fillInPlace a .having expr
  | setPartitioning expr => exact run_fillInPlace a .partitioning expr
  | setWindow window => exact run_fillInPlace a .window window
  | setLimit limit => exact run_fillInPlace a .limit limit

/-! ## Reasons -/

/-- An analysis refuses an edit with an error. -/
inductive Refuses (a : Analysis) : Edit → AnalysisError → Prop where
  | filled {single : SingleClause} {present : single.Value} (value : single.Value)
      (filled : a.contents (.clause single) = some present) :
      Refuses a (single.setter value) (.clauseAlreadySet single.clause)
  /-- Each source behind the first has its join already. -/
  | unpaired (join : BoundJoin) (noNext : a.sources.length ≤ a.joins.length + 1) :
      Refuses a (.addJoin join) (.joinWithoutSource a.sources.length a.joins.length)
  | taken {bound : BoundSource} (source : Source) (isBound : bound ∈ a.sources) :
      Refuses a (.bindSource bound.alias source) (.duplicateAlias bound.alias)
  /-- The source is the result of a query. It is named as in the catalog. -/
  | subquery {name : SourceName} {source : Source} (free : ∀ bound ∈ a.sources, bound.alias ≠ name)
      (unsupported : source.kind = .subquery) :
      Refuses a (.bindSource name source) (.unsupportedKind source.name .subquery)
  /-- The expression is present or stands further in front, and it is the first such expression. -/
  | repeated {before : List Expr} {expr : Expr} (after : List Expr)
      (absent : ∀ earlier ∈ before, earlier.isIn a.grouping = false)
      (distinct : before.Pairwise fun earlier later => earlier.same later = false)
      (present : expr.isIn (a.grouping ++ before) = true) :
      Refuses a (.addGrouping (before ++ expr :: after)) (.duplicateElement .grouping expr)

theorem refuses_of_setter {single : SingleClause} {value : single.Value} {error : AnalysisError}
    (refused : a.edit (single.setter value) = .error error) :
    Refuses a (single.setter value) error := by
  rw [edit_setter] at refused
  cases place : (a.contents (.clause single) : Option single.Value) with
  | none =>
    rw [place] at refused
    cases refused
  | some present =>
    rw [place] at refused
    cases refused
    exact .filled value place

theorem refuses_of_addJoin {join : BoundJoin} {error : AnalysisError}
    (refused : a.addJoin join = .error error) : Refuses a (.addJoin join) error := by
  unfold addJoin at refused
  split at refused
  · cases refused
  · rename_i noNext
    cases refused
    exact .unpaired join (Nat.not_lt.mp noNext)

theorem refuses_of_bindSource {name : SourceName} {source : Source} {error : AnalysisError}
    (refused : a.bindSource name source = .error error) : Refuses a (.bindSource name source) error := by
  unfold bindSource at refused
  split at refused
  · rename_i taken
    obtain ⟨bound, isBound, rfl⟩ := List.mem_map.mp taken
    cases refused
    exact .taken source isBound
  · rename_i free
    unfold BoundSource.bind at refused
    split at refused
    · rename_i unsupported
      cases refused
      rw [unsupported]
      refine .subquery ?_ unsupported
      intro bound isBound named
      exact free (List.mem_map.mpr ⟨bound, isBound, named⟩)
    · cases refused

theorem refuses_of_addGrouping {exprs : List Expr} {error : AnalysisError}
    (refused : a.addGrouping exprs = .error error) : Refuses a (.addGrouping exprs) error := by
  cases appended : appendDistinct a.grouping exprs with
  | ok grouping =>
    rw [addGrouping, appended] at refused
    cases refused
  | error found =>
    rw [addGrouping, appended] at refused
    cases refused
    obtain ⟨before, expr, after, rfl, fresh, present, rfl⟩ :=
      Analyzer.appendDistinct_eq_error_iff.mp appended
    obtain ⟨⟨absent, distinct⟩, _⟩ := Analyzer.appendDistinct_eq_ok_iff.mp fresh
    exact .repeated after absent distinct present

theorem Refuses.edit_eq_error {edit : Edit} {error : AnalysisError} (refuses : Refuses a edit error) :
    a.edit edit = .error error := by
  cases refuses with
  | filled value filled =>
    rw [edit_setter, filled]
    rfl
  | unpaired join noNext => exact if_neg (Nat.not_lt.mpr noNext)
  | taken source isBound => exact if_pos (List.mem_map_of_mem isBound)
  | @subquery name source free unsupported =>
    have notTaken : name ∉ a.sources.map BoundSource.alias := by
      intro taken
      obtain ⟨bound, isBound, named⟩ := List.mem_map.mp taken
      exact free bound isBound named
    rw [edit, bindSource, if_neg notTaken, BoundSource.bind, dif_pos unsupported, unsupported]
    rfl
  | @repeated before expr after absent distinct present =>
    have fresh := Analyzer.appendDistinct_eq_ok_iff.mpr ⟨⟨absent, distinct⟩, rfl⟩
    have appended := Analyzer.appendDistinct_eq_error_iff.mpr
      ⟨before, expr, after, rfl, fresh, present, rfl⟩
    rw [edit, addGrouping, appended]
    rfl

theorem edit_eq_error_iff {edit : Edit} {error : AnalysisError} :
    a.edit edit = .error error ↔ Refuses a edit error := by
  constructor
  · intro refused
    cases edit with
    | bindSource name source => exact refuses_of_bindSource refused
    | addJoin join => exact refuses_of_addJoin refused
    | addGrouping exprs => exact refuses_of_addGrouping refused
    | setSink sink => exact @refuses_of_setter a .sink sink error refused
    | setFilter expr => exact @refuses_of_setter a .filter expr error refused
    | setHaving expr => exact @refuses_of_setter a .having expr error refused
    | setPartitioning expr => exact @refuses_of_setter a .partitioning expr error refused
    | setWindow window => exact @refuses_of_setter a .window window error refused
    | setLimit limit => exact @refuses_of_setter a .limit limit error refused
    | addSelect item => cases refused
    | addSelectNames names => cases refused
    | addTableCall call => cases refused
    | setProperties properties => cases refused
  · exact Refuses.edit_eq_error

/-- An edit fails exactly with the errors with which the analysis refuses it, and then, also in place,
the analysis stays as it is. -/
theorem attempt_fails_iff (a after : Analysis) (edit : Edit) (error : AnalysisError) :
    (a.attempt edit = (after, some error) ↔ after = a ∧ Refuses a edit error) ∧
    ((editInPlace edit).run a = .error error after ↔ after = a ∧ Refuses a edit error) := by
  rw [run_editInPlace, attempt, ← edit_eq_error_iff]
  cases a.edit edit with
  | ok next => simp [settle]
  | error refused => simp [settle, eq_comm, and_comm]

end Analysis

end StreamQuery
