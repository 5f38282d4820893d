import StreamQuery.Proofs.AnalysisParts
import StreamQuery.Proofs.Clauses

/-! # Histories of an analysis

A history is a list of edits that are tried one after the other. Whatever it tries, the analysis that it
leaves is consistent; how the edits of different parts are interleaved does not matter.
-/

set_option autoImplicit false

namespace StreamQuery.Analysis

/-! ## What every history keeps

A history may try any edits in any order, and some of them may fail. Whatever it tries, there are
never more joins than sources to join, aliases and grouping expressions stay distinct, and the scope
of the analysis shows each source once, under its own schema.
-/

structure Invariant (a : Analysis) : Prop where
  joins : a.joins.length + 1 ≤ max 1 a.sources.length
  aliases : (a.sources.map BoundSource.alias).Nodup
  grouping : a.grouping.Pairwise fun earlier later => earlier.same later = false

/-- The scope shows the sources in the order in which they were bound. A source is flattened if its own
keys are windowed, or behind the grouping if the query has a window. -/
def ShowsSources (a : Analysis) (afterGrouping : Bool) (scope : Scope) : Prop :=
  scope.toList = a.sources.map fun bound =>
    (bound.alias, bound.source.schema.flattenIf
      (bound.source.topic.keyFormat.isWindowed || (afterGrouping && a.window.isSome)))

/-- What holds of an analysis after every history. -/
structure Consistent (a : Analysis) : Prop extends a.Invariant where
  inputs : ∀ bound ∈ a.sources, bound.source.kind = .stream ∨ bound.source.kind = .table
  unbound : ∀ afterGrouping, a.scope afterGrouping = .error .noSources ↔ a.sources = []
  shown : a.sources ≠ [] → ∀ afterGrouping, ∃ scope, a.scope afterGrouping = .ok scope ∧
    a.ShowsSources afterGrouping scope
  joined : a.isJoin = true → ∀ afterGrouping, ∃ scope, a.scope afterGrouping = .ok scope ∧
    scope.isJoin = true

variable {a b next : Analysis}

/-! ### One edit -/

theorem start_invariant (emission : Emission) : (start emission).Invariant :=
  ⟨by simp [start], List.nodup_nil, List.Pairwise.nil⟩

theorem Invariant.of_contents (invariant : a.Invariant)
    (sources : b.contents .sources = a.contents .sources)
    (grouping : b.contents .grouping = a.contents .grouping) : b.Invariant := by
  obtain ⟨sameSources, sameJoins⟩ := Prod.mk.inj sources
  have sameGrouping : b.grouping = a.grouping := grouping
  refine ⟨?_, ?_, ?_⟩
  · rw [sameSources, sameJoins]
    exact invariant.joins
  · rw [sameSources]
    exact invariant.aliases
  · rw [sameGrouping]
    exact invariant.grouping

theorem Invariant.bindSource {name : SourceName} {source : Source} (invariant : a.Invariant)
    (bound : a.bindSource name source = .ok next) : next.Invariant := by
  obtain ⟨added, _, _, unused, rfl⟩ := Analyzer.bindSource_eq_ok_iff.mp bound
  refine ⟨?_, ?_, invariant.grouping⟩
  · have joins := invariant.joins
    simp only [List.length_append, List.length_singleton]
    omega
  · exact Analyzer.nodup_aliases_append_iff.mpr ⟨invariant.aliases, unused⟩

theorem Invariant.addJoin {join : BoundJoin} (invariant : a.Invariant)
    (added : a.addJoin join = .ok next) : next.Invariant := by
  unfold Analysis.addJoin at added
  split at added
  · rename_i room
    cases added
    refine ⟨?_, invariant.aliases, invariant.grouping⟩
    simp only [List.length_append, List.length_singleton]
    omega
  · cases added

theorem Invariant.addGrouping {exprs : List Expr} (invariant : a.Invariant)
    (added : a.addGrouping exprs = .ok next) : next.Invariant := by
  obtain ⟨grouping, appended, rfl⟩ := map_eq_ok_iff.mp added
  obtain ⟨⟨new, distinct⟩, rfl⟩ := Analyzer.appendDistinct_eq_ok_iff.mp appended
  refine ⟨invariant.joins, invariant.aliases,
    List.pairwise_append.mpr ⟨invariant.grouping, distinct, ?_⟩⟩
  intro earlier isPresent later isNew
  exact Expr.isIn_eq_false_iff.mp (new later isNew) earlier isPresent

theorem Invariant.of_edit {edit : Edit} (invariant : a.Invariant)
    (edited : a.edit edit = .ok next) : next.Invariant := by
  cases edit with
  | bindSource name source => exact invariant.bindSource edited
  | addJoin join => exact invariant.addJoin edited
  | addGrouping exprs => exact invariant.addGrouping edited
  | _ =>
    exact invariant.of_contents (contents_edit_of_ne edited nofun)
      (contents_edit_of_ne edited nofun)

/-! ### Whole histories -/

theorem Invariant.attempt (invariant : a.Invariant) (edit : Edit) :
    (a.attempt edit).1.Invariant := by
  rcases attempt_fst a edit with unchanged | edited
  · rw [unchanged]
    exact invariant
  · exact invariant.of_edit edited

theorem Invariant.attemptAll (invariant : a.Invariant) (edits : List Edit) :
    (a.attemptAll edits).1.Invariant := by
  induction edits generalizing a with
  | nil => exact invariant
  | cons edit rest ih => exact ih (invariant.attempt edit)

theorem Invariant.consistent (invariant : a.Invariant) : a.Consistent := by
  refine ⟨invariant, ?_, ?_, ?_, ?_⟩
  · intro bound _
    have isInput := bound.isInput
    cases kind : bound.source.kind with
    | stream => exact .inl rfl
    | table => exact .inr rfl
    | subquery => exact absurd kind isInput
  · intro afterGrouping
    constructor
    · intro refused
      by_cases bound : a.sources = []
      · exact bound
      · cases (scope_of_ne_nil bound afterGrouping).symm.trans refused
    · intro unbound
      rw [scope, unbound]
      rfl
  · intro bound afterGrouping
    exact ⟨_, scope_of_ne_nil bound afterGrouping, Scope.toList_ofSources invariant.aliases⟩
  · intro isJoin afterGrouping
    have several : 1 < a.sources.length := by
      have recorded : a.joins ≠ [] := by simpa [Analysis.isJoin] using isJoin
      have count := List.length_pos_iff.mpr recorded
      have room := invariant.joins
      omega
    have bound : a.sources ≠ [] := List.length_pos_iff.mp (by omega)
    refine ⟨_, scope_of_ne_nil bound afterGrouping, ?_⟩
    rw [Scope.isJoin_ofSources invariant.aliases]
    exact decide_eq_true several

/-- Every history from the start reaches a consistent analysis, whatever it tries. -/
theorem consistent_attemptAll (emission : Emission) (edits : List Edit) :
    ((start emission).attemptAll edits).1.Consistent :=
  ((start_invariant emission).attemptAll edits).consistent

end StreamQuery.Analysis

/-! ## Interleaved histories

Edits of different parts do not see each other. So two histories that have the same edits of each part
in the same order reach the same analysis, and every edit is answered alike in both, however the parts
are interleaved. Of the edits that set a clause the first alone succeeds, and of those that set the
properties the last one counts.
-/

namespace StreamQuery

def Analysis.Part.editsIn (part : Analysis.Part) (edits : List Edit) : List Edit :=
  edits.filter fun edit => edit.part = part

/-- Two histories have the same edits of each part in the same order. -/
def Interleaved (first second : List Edit) : Prop :=
  ∀ part : Analysis.Part, part.editsIn first = part.editsIn second

def Analysis.answers (a : Analysis) (part : Part) (edits : List Edit) :
    List (Edit × Option AnalysisError) :=
  (edits.zip (a.attemptAll edits).2).filter fun answer => answer.1.part = part

/-- What the edits that set a clause come to: the first one fills it and all others are refused. -/
def SingleClause.FilledOnce (single : SingleClause) (final : Analysis) :
    List (Edit × Option AnalysisError) → Prop
  | [] => final.contents (.clause single) = none
  | first :: later =>
    (∃ value, first = (single.setter value, none) ∧
        final.contents (.clause single) = some value) ∧
      ∀ answer ∈ later, answer.2 = some (.clauseAlreadySet single.clause)

def Edit.properties? : Edit → Option Properties
  | setProperties properties => some properties
  | _ => none

theorem Edit.eq_setter_of_part {edit : Edit} {single : SingleClause}
    (isSetter : edit.part = .clause single) : ∃ value, edit = single.setter value := by
  cases edit <;> cases isSetter <;> exact ⟨_, rfl⟩

namespace Analysis

variable {a b : Analysis} {part : Part}

/-! ### One part of a history -/

theorem attemptAll_cons (a : Analysis) (edit : Edit) (rest : List Edit) :
    a.attemptAll (edit :: rest) =
      (((a.attempt edit).1.attemptAll rest).1,
        (a.attempt edit).2 :: ((a.attempt edit).1.attemptAll rest).2) := rfl

theorem answers_cons_of_eq (a : Analysis) {edit : Edit} (rest : List Edit)
    (same : edit.part = part) :
    a.answers part (edit :: rest) =
      (edit, (a.attempt edit).2) :: (a.attempt edit).1.answers part rest := by
  rw [answers, attemptAll_cons, List.zip_cons_cons, List.filter_cons_of_pos (by simpa using same)]
  rfl

theorem answers_cons_of_ne (a : Analysis) {edit : Edit} (rest : List Edit)
    (different : edit.part ≠ part) :
    a.answers part (edit :: rest) = (a.attempt edit).1.answers part rest := by
  rw [answers, attemptAll_cons, List.zip_cons_cons,
    List.filter_cons_of_neg (by simpa using different)]
  rfl

/-- What becomes of a part, and how its edits are answered, can be read off its own edits. -/
theorem attemptAll_editsIn (edits : List Edit) (same : a.contents part = b.contents part) :
    (a.attemptAll edits).1.contents part =
        (b.attemptAll (part.editsIn edits)).1.contents part ∧
      a.answers part edits = b.answers part (part.editsIn edits) := by
  induction edits generalizing a b with
  | nil => exact ⟨same, rfl⟩
  | cons edit rest ih =>
    by_cases isOwn : edit.part = part
    · subst isOwn
      obtain ⟨sameAnswer, sameNext⟩ := attempt_of_same_contents same
      obtain ⟨sameFinal, sameLater⟩ := ih sameNext
      have kept : edit.part.editsIn (edit :: rest) = edit :: edit.part.editsIn rest :=
        List.filter_cons_of_pos (by simp)
      rw [kept, answers_cons_of_eq a rest rfl, answers_cons_of_eq b _ rfl, sameAnswer, sameLater]
      exact ⟨sameFinal, rfl⟩
    · have dropped : part.editsIn (edit :: rest) = part.editsIn rest :=
        List.filter_cons_of_neg (by simpa using isOwn)
      have sameNext := (contents_attempt_of_ne a (Ne.symm isOwn)).trans same
      obtain ⟨sameFinal, sameLater⟩ := ih sameNext
      rw [dropped, answers_cons_of_ne a rest isOwn]
      exact ⟨sameFinal, sameLater⟩

theorem emission_attemptAll (a : Analysis) (edits : List Edit) :
    (a.attemptAll edits).1.emission = a.emission := by
  induction edits generalizing a with
  | nil => rfl
  | cons edit rest ih => exact (ih _).trans (emission_attempt a edit)

/-! ### The clauses and the properties -/

theorem attempt_setter_of_none {single : SingleClause} (value : single.Value)
    (unset : a.contents (.clause single) = none) :
    a.attempt (single.setter value) = (a.write (.clause single) (some value), none) := by
  rw [attempt, edit_setter, unset]
  rfl

theorem attempt_setter_of_some {single : SingleClause} {present : single.Value}
    (value : single.Value) (isSet : a.contents (.clause single) = some present) :
    a.attempt (single.setter value) = (a, some (.clauseAlreadySet single.clause)) := by
  rw [attempt, edit_setter, isSet]
  rfl

theorem refused_of_set {single : SingleClause} {value : single.Value} (edits : List Edit)
    (isSet : a.contents (.clause single) = some value) :
    (a.attemptAll edits).1.contents (.clause single) = some value ∧
      ∀ answer ∈ a.answers (.clause single) edits,
        answer.2 = some (.clauseAlreadySet single.clause) := by
  induction edits generalizing a with
  | nil => exact ⟨isSet, by simp [answers]⟩
  | cons edit rest ih =>
    by_cases isSetter : edit.part = .clause single
    · obtain ⟨other, rfl⟩ := Edit.eq_setter_of_part isSetter
      have refused := attempt_setter_of_some other isSet
      rw [attemptAll_cons, answers_cons_of_eq a rest isSetter, refused, List.forall_mem_cons]
      obtain ⟨kept, later⟩ := ih isSet
      exact ⟨kept, rfl, later⟩
    · rw [attemptAll_cons, answers_cons_of_ne a rest isSetter]
      exact ih ((contents_attempt_of_ne a (Ne.symm isSetter)).trans isSet)

theorem filledOnce_of_unset {single : SingleClause} (edits : List Edit)
    (unset : a.contents (.clause single) = none) :
    single.FilledOnce (a.attemptAll edits).1 (a.answers (.clause single) edits) := by
  induction edits generalizing a with
  | nil => exact unset
  | cons edit rest ih =>
    by_cases isSetter : edit.part = .clause single
    · obtain ⟨value, rfl⟩ := Edit.eq_setter_of_part isSetter
      have filled := attempt_setter_of_none value unset
      rw [attemptAll_cons, answers_cons_of_eq a rest isSetter, filled]
      have isSet := contents_write a (.clause single) (some value)
      obtain ⟨kept, later⟩ := refused_of_set rest isSet
      exact ⟨⟨value, rfl, kept⟩, later⟩
    · rw [attemptAll_cons, answers_cons_of_ne a rest isSetter]
      exact ih ((contents_attempt_of_ne a (Ne.symm isSetter)).trans unset)

theorem properties_attempt (a : Analysis) (edit : Edit) :
    (a.attempt edit).1.properties = edit.properties?.getD a.properties := by
  have kept (different : .properties ≠ edit.part) :
      (a.attempt edit).1.properties = a.properties := contents_attempt_of_ne a different
  cases edit with
  | setProperties properties => rfl
  | _ => exact kept nofun

theorem properties_attemptAll (a : Analysis) (edits : List Edit) :
    (a.attemptAll edits).1.properties =
      (edits.filterMap Edit.properties?).getLast?.getD a.properties := by
  induction edits generalizing a with
  | nil => rfl
  | cons edit rest ih =>
    rw [attemptAll_cons, ih, properties_attempt]
    cases isSet : edit.properties? with
    | none => rw [List.filterMap_cons_none isSet, Option.getD_none]
    | some properties =>
      rw [List.filterMap_cons_some isSet, List.getLast?_cons, Option.getD_some, Option.getD_some]

/-! ### Whole histories -/

/-- Only the order of edits within each part matters. In a history from the start, a clause holds what
its first edit set, each later edit of it is refused, and the properties are those set last. -/
theorem attemptAll_of_interleaved :
    (∀ (a : Analysis) (first second : List Edit), Interleaved first second →
      (a.attemptAll first).1 = (a.attemptAll second).1 ∧
        ∀ part, a.answers part first = a.answers part second) ∧
    ∀ (emission : Emission) (edits : List Edit),
      (∀ single : SingleClause, single.FilledOnce ((start emission).attemptAll edits).1
        ((start emission).answers (.clause single) edits)) ∧
      ((start emission).attemptAll edits).1.properties =
        (edits.filterMap Edit.properties?).getLast?.getD .none := by
  refine ⟨?_, ?_⟩
  · intro a first second interleaved
    refine ⟨eq_of_contents ?_ ?_, ?_⟩
    · rw [emission_attemptAll, emission_attemptAll]
    · intro part
      rw [(attemptAll_editsIn first rfl).1, interleaved part, ← (attemptAll_editsIn second rfl).1]
    · intro part
      rw [(attemptAll_editsIn first rfl).2, interleaved part, ← (attemptAll_editsIn second rfl).2]
  · intro emission edits
    refine ⟨?_, properties_attemptAll (start emission) edits⟩
    intro single
    apply filledOnce_of_unset
    cases single <;> rfl

def bareTable (name : SourceName) : Source :=
  ⟨name, .table, .empty, ⟨name.text, ⟨.kafka, none⟩, ⟨.json⟩⟩⟩

def onRowtime : BoundJoin :=
  ⟨.column (.unqualified .rowtime), .column (.unqualified .rowtime), .inner, none⟩

/-- A join that comes too early, a second limit, and then the join again. -/
def mixedEdits : List Edit :=
  [.addJoin onRowtime, .setLimit 5, .bindSource ⟨"A"⟩ (bareTable ⟨"ORDERS"⟩),
    .bindSource ⟨"B"⟩ (bareTable ⟨"ITEMS"⟩), .setLimit 6, .addJoin onRowtime]

def limitsFirst : List Edit :=
  [.setLimit 5, .setLimit 6, .addJoin onRowtime, .bindSource ⟨"A"⟩ (bareTable ⟨"ORDERS"⟩),
    .bindSource ⟨"B"⟩ (bareTable ⟨"ITEMS"⟩), .addJoin onRowtime]

theorem attemptAll_limitsFirst :
    Interleaved mixedEdits limitsFirst ∧
      ((start .final).attemptAll mixedEdits).1 = ((start .final).attemptAll limitsFirst).1 ∧
      (∀ part, (start .final).answers part mixedEdits = (start .final).answers part limitsFirst) ∧
      ((start .final).answers (.clause .limit) mixedEdits).map Prod.snd =
        [none, some (.clauseAlreadySet .limit)] := by
  have interleaved : Interleaved mixedEdits limitsFirst := by
    intro part
    cases part with
    | clause single => cases single <;> rfl
    | _ => rfl
  obtain ⟨sameFinal, sameAnswers⟩ := attemptAll_of_interleaved.1 (start .final) _ _ interleaved
  exact ⟨interleaved, sameFinal, sameAnswers, rfl⟩

end Analysis

end StreamQuery
