import StreamQuery.Proofs.NamedSources

/-! # The history of a catalog

What a catalog holds is fixed by the changes that made it out of the empty one. Under a name stands the
source that the last change of the name has left. The names stand in the order in which they were
entered: a name is entered when a source is registered under it while there is none, and it keeps its
place until it is dropped.

Both are said here of the list of changes alone, as `sourceAfter?` and `EnteredAt`. A catalog `Follows`
a list of changes if it agrees with them, and goes on to do so with every further change.
-/

set_option autoImplicit false

namespace StreamQuery.Catalog

def answers (catalog : Catalog) : List Change → List (Option Source)
  | [] => []
  | change :: rest => (catalog.apply change).2 :: (catalog.apply change).1.answers rest

variable {changes : List Change} {change : Change} {catalog : Catalog}

/-! ## What a history says of a name -/

/-- The source left under a name: the last one registered, if the name was not dropped since. -/
def sourceAfter? (changes : List Change) (name : SourceName) : Option Source :=
  (lastChange? changes name).bind Change.result

/-- At a place in the history a source is registered under a name while there is none, and from then on
the name is not dropped. -/
def EnteredAt (changes : List Change) (name : SourceName) (place : Nat) : Prop :=
  ∃ before source after, changes = before ++ .register source :: after ∧
    before.length = place ∧ source.name = name ∧ sourceAfter? before name = none ∧
    .drop name ∉ after

theorem sourceAfter?_concat (changes : List Change) (change : Change) (name : SourceName) :
    sourceAfter? (changes ++ [change]) name =
      if change.name = name then change.result else sourceAfter? changes name := by
  unfold sourceAfter? lastChange?
  split
  · rename_i touches
    simp [touches]
  · rename_i different
    simp [different]

theorem EnteredAt.lt_length {name : SourceName} {place : Nat}
    (entered : EnteredAt changes name place) : place < changes.length := by
  obtain ⟨before, source, after, rfl, rfl, _⟩ := entered
  simp

theorem concat_eq_append_cons_iff {before after : List Change} {other : Change} :
    changes ++ [change] = before ++ other :: after ↔
      (changes = before ∧ change = other ∧ after = []) ∨
        ∃ rest, changes = before ++ other :: rest ∧ after = rest ++ [change] := by
  by_cases isLast : after = []
  · subst isLast
    rw [List.append_singleton_inj]
    simp
  · obtain ⟨rest, last, rfl⟩ : ∃ rest last, after = rest ++ [last] :=
      ⟨_, _, (List.dropLast_concat_getLast isLast).symm⟩
    rw [← List.cons_append, ← List.append_assoc, List.append_singleton_inj]
    simp only [isLast, and_false, false_or, List.append_singleton_inj]
    constructor
    · rintro ⟨split, rfl⟩
      exact ⟨rest, split, rfl, rfl⟩
    · rintro ⟨_, split, rfl, rfl⟩
      exact ⟨split, rfl⟩

theorem enteredAt_concat_iff {name : SourceName} {place : Nat} :
    EnteredAt (changes ++ [change]) name place ↔
      (∃ source, change = .register source ∧ source.name = name ∧
        sourceAfter? changes name = none ∧ changes.length = place) ∨
      (EnteredAt changes name place ∧ change ≠ .drop name) := by
  simp only [EnteredAt, concat_eq_append_cons_iff]
  constructor
  · rintro ⟨before, source, after, ⟨rfl, registered, _⟩ | ⟨rest, split, rfl⟩, atPlace, named,
      absent, kept⟩
    · exact .inl ⟨source, registered, named, absent, atPlace⟩
    · rw [List.mem_append, List.mem_singleton, not_or] at kept
      exact .inr ⟨⟨before, source, rest, split, atPlace, named, absent, kept.1⟩, Ne.symm kept.2⟩
  · rintro (⟨source, rfl, named, absent, atPlace⟩ |
      ⟨⟨before, source, rest, split, atPlace, named, absent, kept⟩, keeps⟩)
    · exact ⟨changes, source, [], .inl ⟨rfl, rfl, rfl⟩, atPlace, named, absent, List.not_mem_nil⟩
    · refine ⟨before, source, rest ++ [change], .inr ⟨rest, split, rfl⟩, atPlace, named, absent, ?_⟩
      rw [List.mem_append, List.mem_singleton, not_or]
      exact ⟨kept, Ne.symm keeps⟩

/-! ## Catalogs that follow a history -/

structure Follows (changes : List Change) (catalog : Catalog) : Prop where
  source : ∀ name, catalog.source? name = sourceAfter? changes name
  entered : ∀ name, name ∈ catalog.names ↔ ∃ place, EnteredAt changes name place
  ordered : catalog.names.Pairwise fun first second =>
    ∀ i j, EnteredAt changes first i → EnteredAt changes second j → i < j

theorem follows_empty : Follows [] empty := by
  refine ⟨fun _ => rfl, ?_, List.Pairwise.nil⟩
  simp [EnteredAt, empty, names, Roster.keys]

namespace Follows

variable (follows : Follows changes catalog)
include follows

theorem sourceAfter?_eq_none_iff {name : SourceName} :
    sourceAfter? changes name = none ↔ name ∉ catalog.names := by
  rw [← follows.source, ← source?_isSome_iff, Option.not_isSome_iff_eq_none]

theorem source_apply (change : Change) (name : SourceName) :
    (catalog.apply change).1.source? name = sourceAfter? (changes ++ [change]) name := by
  rw [source?_apply, sourceAfter?_concat, follows.source]

theorem enteredAt_of_concat {name : SourceName} {place : Nat} (present : name ∈ catalog.names)
    (entered : EnteredAt (changes ++ [change]) name place) : EnteredAt changes name place := by
  rcases enteredAt_concat_iff.mp entered with ⟨_, _, _, absent, _⟩ | ⟨before, _⟩
  · exact absurd present (follows.sourceAfter?_eq_none_iff.mp absent)
  · exact before

theorem ordered_concat (change : Change) :
    catalog.names.Pairwise fun first second => ∀ i j, EnteredAt (changes ++ [change]) first i →
      EnteredAt (changes ++ [change]) second j → i < j := by
  apply follows.ordered.imp_of_mem
  intro first second firstPresent secondPresent earlier i j enteredFirst enteredSecond
  exact earlier i j (follows.enteredAt_of_concat firstPresent enteredFirst)
    (follows.enteredAt_of_concat secondPresent enteredSecond)

theorem apply_drop (dropped : SourceName) :
    Follows (changes ++ [.drop dropped]) (catalog.apply (.drop dropped)).1 := by
  have namesAfter := names_drop catalog dropped
  refine ⟨follows.source_apply _, ?_, ?_⟩
  · intro name
    change name ∈ (catalog.drop dropped).names ↔ _
    simp only [namesAfter, List.mem_filter, decide_eq_true_eq, follows.entered,
      enteredAt_concat_iff, reduceCtorEq, false_and, exists_false, false_or, ne_eq,
      Change.drop.injEq, exists_and_right, eq_comm (a := name)]
  · change (catalog.drop dropped).names.Pairwise _
    rw [namesAfter]
    exact (follows.ordered_concat _).filter _

theorem entered_register (source : Source) (name : SourceName) :
    (∃ place, EnteredAt (changes ++ [.register source]) name place) ↔
      name ∈ catalog.names ∨ name = source.name := by
  constructor
  · rintro ⟨place, entered⟩
    rcases enteredAt_concat_iff.mp entered with ⟨_, ⟨⟩, named, _⟩ | ⟨before, _⟩
    · exact .inr named.symm
    · exact .inl ((follows.entered name).mpr ⟨place, before⟩)
  · intro known
    by_cases present : name ∈ catalog.names
    · obtain ⟨place, entered⟩ := (follows.entered name).mp present
      exact ⟨place, enteredAt_concat_iff.mpr (.inr ⟨entered, nofun⟩)⟩
    · have named := (known.resolve_left present).symm
      have nothingLeft := follows.sourceAfter?_eq_none_iff.mpr present
      exact ⟨changes.length,
        enteredAt_concat_iff.mpr (.inl ⟨source, rfl, named, nothingLeft, rfl⟩)⟩

theorem lt_of_absent {source : Source} (absent : source.name ∉ catalog.names) {name : SourceName}
    (present : name ∈ catalog.names) {i j : Nat}
    (entered : EnteredAt (changes ++ [.register source]) name i)
    (added : EnteredAt (changes ++ [.register source]) source.name j) : i < j := by
  have atEnd : changes.length = j := by
    rcases enteredAt_concat_iff.mp added with ⟨_, _, _, _, atEnd⟩ | ⟨before, _⟩
    · exact atEnd
    · exact absurd ((follows.entered _).mpr ⟨j, before⟩) absent
  rw [← atEnd]
  exact (follows.enteredAt_of_concat present entered).lt_length

theorem apply_register (source : Source) :
    Follows (changes ++ [.register source]) (catalog.apply (.register source)).1 := by
  have namesAfter := names_register catalog source
  refine ⟨follows.source_apply _, ?_, ?_⟩
  · intro name
    rw [follows.entered_register]
    change name ∈ (catalog.register source).names ↔ _
    rw [namesAfter]
    split
    · rename_i present
      exact ⟨.inl, fun known => known.elim id fun named => named ▸ present⟩
    · rw [List.mem_append, List.mem_singleton]
  · change (catalog.register source).names.Pairwise _
    rw [namesAfter]
    split
    · exact follows.ordered_concat _
    · rename_i absent
      rw [List.pairwise_append]
      refine ⟨follows.ordered_concat _, List.pairwise_singleton _ _, ?_⟩
      intro name present added isAdded i j entered
      rw [List.mem_singleton.mp isAdded]
      exact follows.lt_of_absent absent present entered

theorem apply (change : Change) : Follows (changes ++ [change]) (catalog.apply change).1 := by
  cases change with
  | register source => exact follows.apply_register source
  | drop name => exact follows.apply_drop name

theorem applyAll (more : List Change) : Follows (changes ++ more) (catalog.applyAll more) := by
  -- From any point of the history on: each step moves one change from `more` to `changes`.
  induction more generalizing changes catalog with
  | nil => rwa [List.append_nil]
  | cons change rest ih =>
    have stepped := ih (follows.apply change)
    rwa [List.append_assoc, List.singleton_append] at stepped

end Follows

/-! ## Whole histories -/

theorem getElem?_answers (catalog : Catalog) (changes : List Change) (place : Nat) :
    (catalog.answers changes)[place]? = changes[place]?.map fun change =>
      (catalog.applyAll (changes.take place)).source? change.name := by
  induction changes generalizing catalog place with
  | nil => rfl
  | cons change rest ih =>
    cases place with
    | zero => exact congrArg some (catalog.apply_snd change)
    | succ place => exact ih (catalog.apply change).1 place

/-- What a catalog and its answers have to be after changes to the empty catalog. -/
structure Refines (changes : List Change) (catalog : Catalog) (answers : List (Option Source)) :
    Prop extends Follows changes catalog where
  distinct : catalog.names.Nodup
  known : ∀ name, name ∈ catalog.names ↔ (catalog.source? name).isSome
  named : ∀ name source, catalog.source? name = some source → source.name = name
  answered : ∀ place, answers[place]? = changes[place]?.map fun change =>
    (empty.applyAll (changes.take place)).source? change.name
  replaced : ∀ source, source.name ∈ catalog.names →
    (catalog.register source).names = catalog.names
  dropped : ∀ name, (catalog.drop name).names = catalog.names.filter fun other => other ≠ name
  readded : ∀ source, ((catalog.drop source.name).register source).names =
    (catalog.drop source.name).names ++ [source.name]

theorem refines_applyAll (changes : List Change) :
    Refines changes (empty.applyAll changes) (empty.answers changes) := by
  refine ⟨follows_empty.applyAll changes, (empty.applyAll changes).sources.nodup_keys, ?_, ?_,
    getElem?_answers empty changes, ?_, names_drop _, ?_⟩
  · intro name
    exact source?_isSome_iff.symm
  · intro name source
    exact name_of_source?
  · intro source present
    rw [names_register, if_pos present]
  · intro source
    have absent : source.name ∉ ((empty.applyAll changes).drop source.name).names := by
      simp [names_drop]
    rw [names_register, if_neg absent]

/-- `A` is replaced where it stands; `B` is dropped and goes to the end when it is entered anew. -/
example :
    (empty.applyAll
      [.register (Analyzer.numbers ⟨"A"⟩ ⟨"X"⟩), .register (Analyzer.numbers ⟨"B"⟩ ⟨"X"⟩),
        .register (Analyzer.numbers ⟨"C"⟩ ⟨"X"⟩), .register (Analyzer.numbers ⟨"A"⟩ ⟨"Y"⟩),
        .drop ⟨"B"⟩, .register (Analyzer.numbers ⟨"B"⟩ ⟨"Y"⟩)]).names =
      [⟨"A"⟩, ⟨"C"⟩, ⟨"B"⟩] := by
  rfl

end StreamQuery.Catalog
