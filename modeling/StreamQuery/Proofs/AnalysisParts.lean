import StreamQuery.Analysis.Edit
import StreamQuery.Proofs.Outcome

/-! # The parts of an analysis

Every edit belongs to one part of an analysis: the sources with their joins, one of the lists, the
properties, or the place of a clause that can be set once. The outcome of an edit depends on the
contents of its part alone, and the other parts stay as they are. `edit_eq_write` says both at once.
-/

set_option autoImplicit false

namespace StreamQuery

/-- A clause that can be set once. -/
inductive SingleClause where
  | sink
  | filter
  | having
  | partitioning
  | window
  | limit
deriving DecidableEq

namespace SingleClause

def Value : SingleClause → Type
  | sink => BoundSink
  | filter => Expr
  | having => Expr
  | partitioning => Expr
  | window => Window
  | limit => UInt32

def clause : SingleClause → Clause
  | sink => .sink
  | filter => .filter
  | having => .having
  | partitioning => .partitioning
  | window => .window
  | limit => .limit

def setter : (single : SingleClause) → single.Value → Edit
  | sink => .setSink
  | filter => .setFilter
  | having => .setHaving
  | partitioning => .setPartitioning
  | window => .setWindow
  | limit => .setLimit

end SingleClause

/-- What the edits of one kind have to themselves. Sources and joins are one part, because a join is
counted against the sources. -/
inductive Analysis.Part where
  | sources
  | grouping
  | select
  | selectNames
  | tableCalls
  | properties
  | clause (single : SingleClause)
deriving DecidableEq

def Analysis.Part.Contents : Part → Type
  | sources => List BoundSource × List BoundJoin
  | grouping => List Expr
  | select => List Projection
  | selectNames => List ColumnName
  | tableCalls => List Call
  | properties => Properties
  | clause single => Option single.Value

def Edit.part : Edit → Analysis.Part
  | bindSource _ _ => .sources
  | addJoin _ => .sources
  | addSelect _ => .select
  | addSelectNames _ => .selectNames
  | addTableCall _ => .tableCalls
  | setFilter _ => .clause .filter
  | addGrouping _ => .grouping
  | setWindow _ => .clause .window
  | setHaving _ => .clause .having
  | setPartitioning _ => .clause .partitioning
  | setLimit _ => .clause .limit
  | setSink _ => .clause .sink
  | setProperties _ => .properties

namespace Analysis

def contents (a : Analysis) : (part : Part) → part.Contents
  | .sources => (a.sources, a.joins)
  | .grouping => a.grouping
  | .select => a.select
  | .selectNames => a.selectNames
  | .tableCalls => a.tableCalls
  | .properties => a.properties
  | .clause .sink => a.sink
  | .clause .filter => a.filter
  | .clause .having => a.having
  | .clause .partitioning => a.partitioning
  | .clause .window => a.window
  | .clause .limit => a.limit

def write (a : Analysis) : (part : Part) → part.Contents → Analysis
  | .sources, (sources, joins) => { a with sources := sources, joins := joins }
  | .grouping, grouping => { a with grouping := grouping }
  | .select, select => { a with select := select }
  | .selectNames, names => { a with selectNames := names }
  | .tableCalls, calls => { a with tableCalls := calls }
  | .properties, properties => { a with properties := properties }
  | .clause .sink, place => { a with sink := place }
  | .clause .filter, place => { a with filter := place }
  | .clause .having, place => { a with having := place }
  | .clause .partitioning, place => { a with partitioning := place }
  | .clause .window, place => { a with window := place }
  | .clause .limit, place => { a with limit := place }

variable {a b next : Analysis} {edit : Edit} {part : Part}

theorem contents_write (a : Analysis) (part : Part) (contents : part.Contents) :
    (a.write part contents).contents part = contents := by
  cases part with
  | clause single => cases single <;> rfl
  | _ => rfl

theorem contents_write_of_ne {written : Part} (contents : written.Contents)
    (different : part ≠ written) : (a.write written contents).contents part = a.contents part := by
  rcases written with _ | _ | _ | _ | _ | _ | ⟨_ | _ | _ | _ | _ | _⟩ <;>
    rcases part with _ | _ | _ | _ | _ | _ | ⟨_ | _ | _ | _ | _ | _⟩ <;>
      first | rfl | exact absurd rfl different

theorem emission_write (a : Analysis) (part : Part) (contents : part.Contents) :
    (a.write part contents).emission = a.emission := by
  cases part with
  | clause single => cases single <;> rfl
  | _ => rfl

theorem eq_of_contents (emission : a.emission = b.emission)
    (same : ∀ part, a.contents part = b.contents part) : a = b := by
  obtain ⟨sources, joins⟩ := Prod.mk.inj (same .sources)
  have grouping : a.grouping = b.grouping := same .grouping
  have select : a.select = b.select := same .select
  have selectNames : a.selectNames = b.selectNames := same .selectNames
  have tableCalls : a.tableCalls = b.tableCalls := same .tableCalls
  have properties : a.properties = b.properties := same .properties
  have sink : a.sink = b.sink := same (.clause .sink)
  have filter : a.filter = b.filter := same (.clause .filter)
  have having : a.having = b.having := same (.clause .having)
  have partitioning : a.partitioning = b.partitioning := same (.clause .partitioning)
  have window : a.window = b.window := same (.clause .window)
  have limit : a.limit = b.limit := same (.clause .limit)
  cases a
  cases b
  simp_all only

/-! ## Edits and parts -/

theorem edit_setter (a : Analysis) (single : SingleClause) (value : single.Value) :
    a.edit (single.setter value) =
      (setOnce single.clause (a.contents (.clause single)) value).map (a.write (.clause single)) := by
  cases single <;> rfl

/-- An edit reads its part of an analysis and writes it back. -/
theorem edit_eq_write (edit : Edit) :
    ∃ change : edit.part.Contents → Except AnalysisError edit.part.Contents, ∀ a : Analysis,
      a.edit edit = (change (a.contents edit.part)).map (a.write edit.part) := by
  cases edit with
  | bindSource name source =>
    refine ⟨fun (present : List BoundSource × List BoundJoin) =>
      if name ∈ present.1.map BoundSource.alias then .error (.duplicateAlias name)
      else (BoundSource.bind name source).map fun bound => (present.1 ++ [bound], present.2), ?_⟩
    intro a
    change a.bindSource name source = Except.map (a.write .sources)
      (if name ∈ a.sources.map BoundSource.alias then .error (.duplicateAlias name)
      else (BoundSource.bind name source).map fun bound => (a.sources ++ [bound], a.joins))
    rw [bindSource]
    by_cases taken : name ∈ a.sources.map BoundSource.alias
    · rw [if_pos taken, if_pos taken]
      rfl
    · rw [if_neg taken, if_neg taken]
      cases BoundSource.bind name source <;> rfl
  | addJoin join =>
    refine ⟨fun (present : List BoundSource × List BoundJoin) =>
      if present.2.length + 1 < present.1.length then .ok (present.1, present.2 ++ [join])
      else .error (.joinWithoutSource present.1.length present.2.length), ?_⟩
    intro a
    change a.addJoin join = Except.map (a.write .sources)
      (if a.joins.length + 1 < a.sources.length then .ok (a.sources, a.joins ++ [join])
      else .error (.joinWithoutSource a.sources.length a.joins.length))
    rw [addJoin]
    by_cases room : a.joins.length + 1 < a.sources.length
    · rw [if_pos room, if_pos room]
      rfl
    · rw [if_neg room, if_neg room]
      rfl
  | addGrouping exprs => exact ⟨fun grouping => appendDistinct grouping exprs, fun _ => rfl⟩
  | addSelect item => exact ⟨fun (select : List Projection) => .ok (select ++ [item]), fun _ => rfl⟩
  | addSelectNames names => exact ⟨fun known => .ok (names.foldl withName known), fun _ => rfl⟩
  | addTableCall call => exact ⟨fun (calls : List Call) => .ok (calls ++ [call]), fun _ => rfl⟩
  | setProperties properties => exact ⟨fun _ => .ok properties, fun _ => rfl⟩
  | setSink sink => exact ⟨fun place => setOnce .sink place sink, fun _ => rfl⟩
  | setFilter expr => exact ⟨fun place => setOnce .filter place expr, fun _ => rfl⟩
  | setHaving expr => exact ⟨fun place => setOnce .having place expr, fun _ => rfl⟩
  | setPartitioning expr => exact ⟨fun place => setOnce .partitioning place expr, fun _ => rfl⟩
  | setWindow window => exact ⟨fun place => setOnce .window place window, fun _ => rfl⟩
  | setLimit limit => exact ⟨fun place => setOnce .limit place limit, fun _ => rfl⟩

theorem emission_attempt (a : Analysis) (edit : Edit) : (a.attempt edit).1.emission = a.emission := by
  obtain ⟨change, changes⟩ := edit_eq_write edit
  rw [attempt, changes]
  cases change (a.contents edit.part) with
  | error error => rfl
  | ok contents => exact emission_write a edit.part contents

theorem contents_edit_of_ne (edited : a.edit edit = .ok next) (different : part ≠ edit.part) :
    next.contents part = a.contents part := by
  obtain ⟨change, changes⟩ := edit_eq_write edit
  rw [changes] at edited
  obtain ⟨contents, _, rfl⟩ := map_eq_ok_iff.mp edited
  exact contents_write_of_ne contents different

theorem attempt_fst (a : Analysis) (edit : Edit) :
    (a.attempt edit).1 = a ∨ a.edit edit = .ok (a.attempt edit).1 := by
  unfold attempt
  cases a.edit edit with
  | error error => exact .inl rfl
  | ok next => exact .inr rfl

theorem contents_attempt_of_ne (a : Analysis) (different : part ≠ edit.part) :
    (a.attempt edit).1.contents part = a.contents part := by
  rcases attempt_fst a edit with unchanged | edited
  · rw [unchanged]
  · exact contents_edit_of_ne edited different

theorem attempt_of_same_contents (same : a.contents edit.part = b.contents edit.part) :
    (a.attempt edit).2 = (b.attempt edit).2 ∧
      (a.attempt edit).1.contents edit.part = (b.attempt edit).1.contents edit.part := by
  obtain ⟨change, changes⟩ := edit_eq_write edit
  rw [attempt, attempt, changes a, changes b, same]
  cases change (b.contents edit.part) with
  | error error => exact ⟨rfl, same⟩
  | ok contents =>
    refine ⟨rfl, ?_⟩
    exact (contents_write a edit.part contents).trans (contents_write b edit.part contents).symm

end Analysis

end StreamQuery
