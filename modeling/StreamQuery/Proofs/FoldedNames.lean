import StreamQuery.Proofs.Clauses
import StreamQuery.Sink
import StreamQuery.Text.Characters

/-! # Folded names

Whatever is compared without regard to case is folded to upper case first: names, formats and the keys of
properties. A folded text is not changed by folding it again, so it may be given back in place of the text
it was made from. Folded names stay folded when they are put together, so a star over a join joins them as
they are.
-/

set_option autoImplicit false

namespace StreamQuery.Text

/-! ## Capital forms of capital forms

Every character of a capital form is its own capital form, so a text in upper case stays as it is when it
is taken to upper case again. Of the table of runs this is shown for whole runs and not character by
character: what one run gives lies outside another run, or it falls between the characters of that run.
-/

/-! ### Runs -/

namespace CaseRun

def lastTarget (run : CaseRun) : Nat :=
  run.target + (run.last - run.first)

/-- The capital forms of the run lie on one side of the other run, or both alternate: every second
character belongs to the other run, and the capital forms are among those in between. -/
def avoids (run other : CaseRun) : Bool :=
  run.lastTarget.blt other.first || other.last.blt run.target ||
    (other.step == 2 && (run.first == run.last || run.step == 2) &&
      run.target % 2 != other.first % 2)

variable {run other : CaseRun} {code capital : Nat}

theorem avoids_iff :
    run.avoids other = true ↔ run.lastTarget < other.first ∨ other.last < run.target ∨
      (other.step = 2 ∧ (run.first = run.last ∨ run.step = 2)) ∧
        run.target % 2 ≠ other.first % 2 := by
  simp [avoids, or_assoc]

theorem capital?_eq_some_iff :
    run.capital? code = some capital ↔
      (run.first ≤ code ∧ code ≤ run.last ∧ (code - run.first) % run.step = 0) ∧
        capital = run.target + (code - run.first) := by
  unfold capital?
  split
  · rename_i inRun
    simp [inRun, eq_comm]
  · rename_i outside
    simp [outside]

theorem le_of_capital? (isCapital : run.capital? code = some capital) :
    run.target ≤ capital ∧ capital ≤ run.lastTarget := by
  obtain ⟨⟨_, _, _⟩, rfl⟩ := capital?_eq_some_iff.mp isCapital
  unfold lastTarget
  omega

theorem capital?_eq_none_of_avoids (avoids : run.avoids other = true)
    (isCapital : run.capital? code = some capital) : other.capital? capital = none := by
  obtain ⟨fromTarget, toLast⟩ := le_of_capital? isCapital
  obtain ⟨⟨_, _, stepped⟩, rfl⟩ := capital?_eq_some_iff.mp isCapital
  rw [capital?, if_neg]
  rintro ⟨_, _, steppedAgain⟩
  rcases avoids_iff.mp avoids with before | behind | ⟨⟨alternates, single | alternatesToo⟩, between⟩
  · omega
  · omega
  · rw [alternates] at steppedAgain
    omega
  · rw [alternates] at steppedAgain
    rw [alternatesToo] at stepped
    omega

end CaseRun

/-! ### The tables -/

theorem all_avoids : (caseRuns.all fun run => caseRuns.all run.avoids) = true := by
  decide +kernel

theorem all_avoids_expansions : (caseRuns.all fun run => caseExpansions.all fun expansion =>
    expansion.1.blt run.target || run.lastTarget.blt expansion.1) = true := by
  decide +kernel

theorem isValidChar_targets : ∀ run ∈ caseRuns,
    run.lastTarget < 0xD800 ∨ 0xDFFF < run.target ∧ run.lastTarget < 0x110000 := by
  decide +kernel

theorem capitalCodes_of_mem_expansion : ∀ expansion ∈ caseExpansions, ∀ code ∈ expansion.2,
    capitalCodes code = [code] ∧ code.isValidChar := by
  decide +kernel

section Codes

variable {code capital : Nat}

theorem mem_of_lookup_expansions {codes : List Nat}
    (found : caseExpansions.lookup code = some codes) : (code, codes) ∈ caseExpansions := by
  obtain ⟨before, after, split, _⟩ := List.lookup_eq_some_iff.mp found
  rw [split]
  exact List.mem_append_right before List.mem_cons_self

theorem mem_capitalCodes (isCapital : capital ∈ capitalCodes code) :
    (∃ expansion ∈ caseExpansions, capital ∈ expansion.2) ∨
      (∃ run ∈ caseRuns, run.capital? code = some capital) ∨
        capital = code ∧ capitalCodes code = [code] := by
  have unchanged : capitalCodes code = [code] → capital = code := by
    intro single
    rw [single] at isCapital
    exact List.mem_singleton.mp isCapital
  unfold capitalCodes at isCapital unchanged ⊢
  split at isCapital
  · rename_i codes found
    exact .inl ⟨_, mem_of_lookup_expansions found, isCapital⟩
  · rename_i noExpansion
    split at isCapital
    · rename_i target found
      obtain rfl := List.mem_singleton.mp isCapital
      exact .inr (.inl (List.exists_of_findSome?_eq_some found))
    · rename_i noRun
      exact .inr (.inr ⟨List.mem_singleton.mp isCapital, rfl⟩)

theorem capitalCodes_of_capital? {run : CaseRun} (isRun : run ∈ caseRuns)
    (isCapital : run.capital? code = some capital) : capitalCodes capital = [capital] := by
  obtain ⟨fromTarget, toLast⟩ := CaseRun.le_of_capital? isCapital
  apply capitalCodes_eq_self
  · intro expansion isExpansion
    have apart := List.all_eq_true.mp (List.all_eq_true.mp all_avoids_expansions run isRun)
      expansion isExpansion
    rw [Bool.or_eq_true, Nat.blt_eq, Nat.blt_eq] at apart
    omega
  · intro other isOther
    have avoids := List.all_eq_true.mp (List.all_eq_true.mp all_avoids run isRun) other isOther
    exact CaseRun.capital?_eq_none_of_avoids avoids isCapital

theorem capitalCodes_of_mem (isCapital : capital ∈ capitalCodes code) :
    capitalCodes capital = [capital] := by
  rcases mem_capitalCodes isCapital with ⟨expansion, isExpansion, isCode⟩ | ⟨run, isRun, given⟩ |
    ⟨rfl, unchanged⟩
  · exact (capitalCodes_of_mem_expansion expansion isExpansion capital isCode).1
  · exact capitalCodes_of_capital? isRun given
  · exact unchanged

theorem isValidChar_of_mem_capitalCodes (valid : code.isValidChar)
    (isCapital : capital ∈ capitalCodes code) : capital.isValidChar := by
  rcases mem_capitalCodes isCapital with ⟨expansion, isExpansion, isCode⟩ | ⟨run, isRun, given⟩ |
    ⟨rfl, _⟩
  · exact (capitalCodes_of_mem_expansion expansion isExpansion capital isCode).2
  · obtain ⟨fromTarget, toLast⟩ := CaseRun.le_of_capital? given
    have inRange := isValidChar_targets run isRun
    unfold Nat.isValidChar
    omega
  · exact valid

end Codes

/-! ### Texts -/

theorem toNat_ofNat_of_isValidChar {code : Nat} (valid : code.isValidChar) :
    (Char.ofNat code).toNat = code := by
  rw [Char.ofNat, dif_pos valid]
  rfl

theorem capital_of_mem_capital {c d : Char} (isCapital : d ∈ capital c) : capital d = [d] := by
  obtain ⟨code, isCode, rfl⟩ := List.mem_map.mp isCapital
  have valid := isValidChar_of_mem_capitalCodes c.valid isCode
  rw [capital, toNat_ofNat_of_isValidChar valid, capitalCodes_of_mem isCode, List.map_singleton]

theorem upper_upper (s : String) : upper (upper s) = upper s := by
  apply upper_eq_self
  intro c isChar
  rw [toList_upper, List.mem_flatMap] at isChar
  obtain ⟨original, _, isCapital⟩ := isChar
  exact capital_of_mem_capital isCapital

end StreamQuery.Text

/-! ## Formats and properties -/

namespace StreamQuery

theorem Format.ofString?_upper (s : String) : ofString? (Text.upper s) = ofString? s := by
  rw [ofString?, ofString?, Text.upper_upper]

theorem Format.unknownText_upper (s : String) : unknownText (Text.upper s) = unknownText s :=
  congrArg ("Unknown format: " ++ ·) (Text.upper_upper s)

theorem Properties.get?_upper (properties : Properties) (key : String) :
    properties.get? (Text.upper key) = properties.get? key := by
  rw [get?, get?, Text.upper_upper]

/-! ## Stars over a join -/

namespace Analyzer

theorem starName_ofString (s t : String) : starName true (.ofString s) (.ofString t) =
    ⟨(SourceName.ofString s).text ++ "_" ++ (ColumnName.ofString t).text⟩ := by
  rw [starName, if_pos rfl, ColumnName.ofString, SourceName.text_ofString, ColumnName.text_ofString,
    Text.upper_joined (Text.upper_upper s) (Text.upper_upper t)]

theorem mem_starItems_iff {scope : Scope} {source : Option SourceName} {entry : SourceName × Schema}
    {column : Column} (isEntry : entry ∈ scope.entriesOf source)
    (isColumn : column ∈ entry.2.valueColumns) {given : Option ColumnName} :
    .single (.column (.qualified entry.1 column.name)) given ∈ starItems scope source ↔
      given = some (starName scope.isJoin entry.1 column.name) := by
  simp only [starItems, List.mem_flatMap, List.mem_map]
  constructor
  · rintro ⟨other, _, otherColumn, _, same⟩
    simp only [starItem, ColumnRef.qualified, Projection.single.injEq, Expr.column.injEq,
      ColumnRef.mk.injEq, Option.some.injEq] at same
    obtain ⟨⟨sameOwner, sameName⟩, isGiven⟩ := same
    rw [← isGiven, sameOwner, sameName]
  · rintro rfl
    exact ⟨entry, isEntry, column, isColumn, rfl⟩

end Analyzer

open Analyzer

/-- Folding is idempotent and goes through concatenation. So a name that is made from the text of a name
is this name, a text and its folded form name the same format and the same property, and a star over a
join shows each column under the alias, an underscore and the name of the column, letter by letter. -/
theorem foldedNames_stable :
    (∀ s, Text.upper (Text.upper s) = Text.upper s) ∧
    (∀ s t, Text.upper (s ++ t) = Text.upper s ++ Text.upper t) ∧
    (∀ s, SourceName.ofString (SourceName.ofString s).text = .ofString s) ∧
    (∀ s, ColumnName.ofString (ColumnName.ofString s).text = .ofString s) ∧
    (∀ s, Format.ofString? (Text.upper s) = Format.ofString? s ∧
      Format.unknownText (Text.upper s) = Format.unknownText s) ∧
    (∀ (properties : Properties) key, properties.get? (Text.upper key) = properties.get? key) ∧
    ∀ scope source items, scope.isJoin = true → expandStar scope source = .ok items →
      ∀ entry ∈ scope.entriesOf source, ∀ column ∈ entry.2.valueColumns,
        ∀ s t, entry.1 = .ofString s → column.name = .ofString t →
          ∀ given, .single (.column (.qualified entry.1 column.name)) given ∈ items ↔
            given = some ⟨entry.1.text ++ "_" ++ column.name.text⟩ := by
  refine ⟨Text.upper_upper, Text.upper_append, fun s => SourceName.ext (Text.upper_upper s),
    fun s => ColumnName.ext (Text.upper_upper s),
    fun s => ⟨Format.ofString?_upper s, Format.unknownText_upper s⟩, Properties.get?_upper, ?_⟩
  intro scope source items isJoin expanded entry isEntry column isColumn s t isOwner isName given
  obtain ⟨_, rfl⟩ := expandStar_eq_ok_iff.mp expanded
  rw [mem_starItems_iff isEntry isColumn, isJoin, isOwner, isName, starName_ofString]

def streetsWithCities : Scope :=
  .ofList [(.ofString "straße", Schema.empty.addValue (.ofString "ﬁrma") .string),
    (.ofString "ville", Schema.empty.addValue (.ofString "lǆ") .string)]

theorem foldedNames_streetsWithCities :
    ∃ items, expandStar streetsWithCities none = .ok items ∧ streetsWithCities.isJoin = true ∧
      .single (.column (.qualified (.ofString "straße") (.ofString "ﬁrma")))
        (some ⟨"STRASSE_FIRMA"⟩) ∈ items := by
  obtain ⟨_, _, _, _, _, _, star⟩ := foldedNames_stable
  have shown := star streetsWithCities none _ rfl rfl
    (.ofString "straße", Schema.empty.addValue (.ofString "ﬁrma") .string) List.mem_cons_self
    ⟨.ofString "ﬁrma", .string, .value⟩ (by decide +kernel) "straße" "ﬁrma" rfl rfl
  refine ⟨_, rfl, rfl, (shown _).mpr ?_⟩
  decide +kernel

end StreamQuery
