import StreamQuery.Proofs.ExprPositions

/-! # Quoted literals in a text

A string is shown between quotes, and its own quotes are doubled. A quote that closes a literal can be told
from a quote of the string as long as no further quote stands behind it. In the text of an expression none
does: what stands behind a part starts with a blank, a comma or a parenthesis, or the text is at its end.
-/

set_option autoImplicit false

namespace StreamQuery

/-! ## Reading up to the closing quote -/

namespace Literal

/-- The characters of a string, read up to its closing quote, and what stands behind this quote. -/
def readQuoted? : List Char → Option (List Char × List Char)
  | [] => none
  | '\'' :: '\'' :: rest => (readQuoted? rest).map fun read => ('\'' :: read.1, read.2)
  | '\'' :: rest => some ([], rest)
  | c :: rest => (readQuoted? rest).map fun read => (c :: read.1, read.2)

theorem readQuoted?_doubledQuotes (s : List Char) {behind : List Char}
    (noQuote : behind.head? ≠ some '\'') :
    readQuoted? (doubledQuotes s ++ '\'' :: behind) = some (s, behind) := by
  induction s with
  | nil =>
    cases behind with
    | nil => rfl
    | cons next rest =>
      have notQuote : next ≠ '\'' := by simpa using noQuote
      simp [doubledQuotes, readQuoted?, notQuote]
  | cons c rest ih =>
    by_cases isQuote : c = '\''
    · subst isQuote
      simp [doubledQuotes, readQuoted?, ih]
    · simp [doubledQuotes, readQuoted?, ih, isQuote]

theorem toList_text_string (s : String) :
    (string s).text.toList = '\'' :: (doubledQuotes s.toList ++ ['\'']) :=
  String.toList_ofList

theorem text_string_append_inj {s t rest rest' : String} (noQuote : rest.toList.head? ≠ some '\'')
    (noQuote' : rest'.toList.head? ≠ some '\'')
    (same : (string s).text ++ rest = (string t).text ++ rest') : s = t ∧ rest = rest' := by
  have quoted : doubledQuotes s.toList ++ '\'' :: rest.toList =
      doubledQuotes t.toList ++ '\'' :: rest'.toList := by
    simpa [toList_text_string] using congrArg String.toList same
  have read := readQuoted?_doubledQuotes s.toList noQuote
  rw [quoted, readQuoted?_doubledQuotes t.toList noQuote'] at read
  obtain ⟨sameString, sameRest⟩ := Prod.mk.inj (Option.some.inj read)
  exact ⟨(String.toList_injective sameString).symm, (String.toList_injective sameRest).symm⟩

end Literal

/-! ## The text around a part

The text of an expression is an opening, the texts of its operands with a separator between them, and a
closing; so nothing below has to go through the ten kinds of expressions. -/

theorem intercalate_cons_eq_append (separator part : String) (back : List String) :
    separator.intercalate (part :: back) = part ++ separator.intercalate ("" :: back) := by
  cases back with
  | nil => simp
  | cons next back => simp [String.intercalate_cons_cons, String.append_assoc]

theorem intercalate_append_cons (separator : String) (front : List String) (part : String)
    (back : List String) :
    separator.intercalate (front ++ part :: back) =
      separator.intercalate (front ++ [""]) ++ part ++ separator.intercalate ("" :: back) := by
  cases front with
  | nil =>
    rw [List.nil_append, List.nil_append, String.intercalate_singleton, String.empty_append,
      intercalate_cons_eq_append]
  | cons first front =>
    have notEmpty : first :: front ≠ [] := List.cons_ne_nil _ _
    rw [String.intercalate_append_of_ne_nil notEmpty (List.cons_ne_nil _ _),
      String.intercalate_append_of_ne_nil notEmpty (List.cons_ne_nil _ _), String.intercalate_singleton,
      String.append_empty, intercalate_cons_eq_append separator part back]
    simp only [String.append_assoc]

namespace Expr

def opening : Expr → String
  | literal value => value.text
  | column reference => reference.text
  | call name _ => name ++ "("
  | comparison .. | arithmetic .. | and .. | or .. | isNull _ | isNotNull _ => "("
  | not _ => "(NOT "

def separator : Expr → String
  | call _ _ => ", "
  | comparison op _ _ => " " ++ op.text ++ " "
  | arithmetic op _ _ => " " ++ op.text ++ " "
  | and _ _ => " AND "
  | or _ _ => " OR "
  | _ => ""

def closing : Expr → String
  | literal _ | column _ => ""
  | isNull _ => " IS NULL)"
  | isNotNull _ => " IS NOT NULL)"
  | _ => ")"

theorem texts_eq_map (es : List Expr) : texts es = es.map text := by
  induction es with
  | nil => rfl
  | cons e rest ih => rw [texts, ih, List.map_cons]

theorem text_eq (e : Expr) :
    e.text = e.opening ++ e.separator.intercalate (e.operands.map text) ++ e.closing := by
  cases e <;> simp [text, opening, separator, closing, operands, texts_eq_map,
    String.intercalate_cons_cons, String.append_assoc]

/-- The text of an expression before its part at a position; `behind` is what follows the part. -/
def before : Expr → List Nat → String
  | _, [] => ""
  | e, i :: path =>
    e.opening ++ e.separator.intercalate ((e.operands.take i).map text ++ [""]) ++
      e.operands[i]?.elim "" fun operand => before operand path

def behind : Expr → List Nat → String
  | _, [] => ""
  | e, i :: path =>
    (e.operands[i]?.elim "" fun operand => behind operand path) ++
      e.separator.intercalate ("" :: (e.operands.drop (i + 1)).map text) ++ e.closing

theorem text_eq_of_operand {e operand : Expr} {i : Nat} (isOperand : e.operands[i]? = some operand) :
    e.text = e.opening ++ e.separator.intercalate ((e.operands.take i).map text ++ [""]) ++
      operand.text ++
        (e.separator.intercalate ("" :: (e.operands.drop (i + 1)).map text) ++ e.closing) := by
  obtain ⟨inRange, rfl⟩ := List.getElem?_eq_some_iff.mp isOperand
  have split : e.operands = e.operands.take i ++ e.operands[i] :: e.operands.drop (i + 1) := by
    rw [List.getElem_cons_drop, List.take_append_drop]
  have parts : e.operands.map text =
      (e.operands.take i).map text ++ e.operands[i].text :: (e.operands.drop (i + 1)).map text := by
    rw [← List.map_cons, ← List.map_append, ← split]
  rw [text_eq, parts, intercalate_append_cons]
  simp only [String.append_assoc]

theorem text_eq_before_append {e part : Expr} {path : List Nat} (isPart : e.at? path = some part) :
    e.text = e.before path ++ part.text ++ e.behind path := by
  induction path generalizing e with
  | nil =>
    obtain rfl := Option.some.inj isPart
    simp [before, behind]
  | cons i path ih =>
    obtain ⟨operand, isOperand, isPart⟩ := Option.bind_eq_some_iff.mp isPart
    rw [text_eq_of_operand isOperand, ih isPart]
    simp only [before, behind, isOperand, Option.elim_some, String.append_assoc]

/-! ## What stands behind a part -/

/-- Whether a text is empty or starts with a blank, a comma or a closing parenthesis. -/
def Separates (s : String) : Prop :=
  ∀ c ∈ s.toList.head?, c = ' ' ∨ c = ',' ∨ c = ')'

theorem Separates.append {s t : String} (first : Separates s) (second : s = "" → Separates t) :
    Separates (s ++ t) := by
  intro c isFirst
  rw [String.toList_append, List.head?_append, Option.mem_def, Option.or_eq_some_iff,
    List.head?_eq_none_iff, String.toList_eq_nil_iff] at isFirst
  rcases isFirst with inFirst | ⟨isEmpty, inSecond⟩
  · exact first c inFirst
  · exact second isEmpty c inSecond

theorem Separates.noQuote {s : String} (separates : Separates s) : s.toList.head? ≠ some '\'' := by
  intro isQuote
  have sign := separates _ isQuote
  revert sign
  decide

theorem separates_closing (e : Expr) : Separates e.closing := by
  cases e <;> simp [closing, Separates]

theorem separates_separator (e : Expr) :
    e.operands.length ≤ 1 ∨ e.separator ≠ "" ∧ Separates e.separator := by
  cases e <;> simp [operands, separator, Separates]

theorem separates_operands (e : Expr) (i : Nat) :
    Separates (e.separator.intercalate ("" :: (e.operands.drop (i + 1)).map text)) := by
  cases others : e.operands.drop (i + 1) with
  | nil => simp [Separates]
  | cons next rest =>
    rcases e.separates_separator with atMostOne | ⟨visible, separates⟩
    · have length := congrArg List.length others
      simp only [List.length_drop, List.length_cons] at length
      omega
    · rw [List.map_cons, String.intercalate_cons_cons, String.empty_append]
      exact separates.append fun isEmpty => absurd isEmpty visible

theorem separates_behind (e : Expr) (path : List Nat) : Separates (e.behind path) := by
  induction path generalizing e with
  | nil => simp [behind, Separates]
  | cons i path ih =>
    have inOperand : Separates (e.operands[i]?.elim "" fun operand => behind operand path) := by
      cases e.operands[i]? with
      | none => simp [Separates]
      | some operand => exact ih operand
    exact (inOperand.append fun _ => e.separates_operands i).append fun _ => e.separates_closing

/-- What starts with the text of a string and does not go on with a quote starts so for no other string. In
the text of an expression, what stands behind a part starts with a blank, a comma or a parenthesis, if
anything does. So where a part is a string, the text shows this string and no other, and whatever is read
as the text of a string there ends where the part ends. -/
theorem text_string_unambiguous :
    (∀ s t rest rest' : String, rest.toList.head? ≠ some '\'' → rest'.toList.head? ≠ some '\'' →
      (Literal.string s).text ++ rest = (Literal.string t).text ++ rest' → s = t ∧ rest = rest') ∧
    ∀ (e : Expr) path s, e.at? path = some (.literal (.string s)) →
      e.text = e.before path ++ (Literal.string s).text ++ e.behind path ∧
      Separates (e.behind path) ∧
      ∀ t rest, rest.toList.head? ≠ some '\'' →
        e.text = e.before path ++ (Literal.string t).text ++ rest →
        t = s ∧ rest = e.behind path := by
  refine ⟨fun _ _ _ _ => Literal.text_string_append_inj, ?_⟩
  intro e path s isString
  have shown : e.text = e.before path ++ (Literal.string s).text ++ e.behind path := by
    rw [text_eq_before_append isString, text]
  have separates := e.separates_behind path
  refine ⟨shown, separates, ?_⟩
  intro t rest noQuote shownAs
  rw [shown, String.append_assoc, String.append_assoc, String.append_right_inj] at shownAs
  exact Literal.text_string_append_inj noQuote separates.noQuote shownAs.symm

/-- `CONCAT('it''s', '''') = ''''''`. -/
def quotes : Expr :=
  .comparison .equal (.call "CONCAT" [.literal (.string "it's"), .literal (.string "'")])
    (.literal (.string "''"))

theorem text_string_unambiguous_quotes :
    quotes.at? [0, 1] = some (.literal (.string "'")) ∧
      quotes.text = "(CONCAT('it''s', '''') = '''''')" ∧
      quotes.before [0, 1] = "(CONCAT('it''s', " ∧ ") = '''''')" = quotes.behind [0, 1] ∧
      (Literal.string "'").text ++ ")" ≠ (Literal.string "''").text ++ ")" := by
  obtain ⟨decoded, inExpr⟩ := text_string_unambiguous
  have isString : quotes.at? [0, 1] = some (.literal (.string "'")) := rfl
  have start : quotes.before [0, 1] = "(CONCAT('it''s', " := by decide +kernel
  have shown : quotes.text = quotes.before [0, 1] ++ (Literal.string "'").text ++ ") = '''''')" := by
    decide +kernel
  obtain ⟨_, _, unique⟩ := inExpr quotes [0, 1] "'" isString
  refine ⟨isString, by decide +kernel, start, (unique _ _ (by decide) shown).2, ?_⟩
  intro same
  have equal := (decoded _ _ _ _ (by decide) (by decide) same).1
  exact absurd equal (by decide)

end Expr

end StreamQuery
