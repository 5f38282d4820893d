import StreamQuery.Double
import StreamQuery.Schema

/-! # Expressions

Scalar and Boolean expressions of a query, and the text that they are shown as. The text of a
compound expression is in parentheses, so it shows the structure in full.
-/

set_option autoImplicit false

namespace StreamQuery

/-! ## Literals -/

inductive Literal where
  | string (value : String)
  | int (value : Int64)
  | double (value : Double)
  | bool (value : Bool)
  | null

namespace Literal

/-- The literal for the bits of a double; what is not a number is NULL. -/
def ofBits (bits : UInt64) : Literal :=
  match Double.ofBits? bits with
  | some value => double value
  | none => null

/-- Two literals are the same if they have one type and one value; doubles are compared as numbers,
so the two zeros are the same. -/
def same : Literal → Literal → Bool
  | string s, string t => s == t
  | int i, int j => i == j
  | double d, double e => d.same e
  | bool a, bool b => a == b
  | null, null => true
  | _, _ => false

def doubleLayout : Decimal.Layout where
  tie := .up
  positional _ := true
  wholeSuffix := ""
  risingMark := ""
  fallingMark := ""

/-- The characters of a string between single quotes, each single quote doubled. -/
def doubledQuotes : List Char → List Char
  | [] => []
  | c :: rest => if c = '\'' then '\'' :: '\'' :: doubledQuotes rest else c :: doubledQuotes rest

def quoted (s : String) : String :=
  String.ofList ('\'' :: (doubledQuotes s.toList ++ ['\'']))

def intText (i : Int64) : String :=
  (if i < 0 then "-" else "") ++ Nat.repr i.toInt.natAbs

def text : Literal → String
  | string value => quoted value
  | int value => intText value
  | double value => doubleLayout.text value
  | bool true => "true"
  | bool false => "false"
  | null => "NULL"

def unsignZero : Literal → Literal
  | double value => double value.unsignZero
  | literal => literal

theorem same_iff_unsignZero_eq {l m : Literal} : l.same m = true ↔ l.unsignZero = m.unsignZero := by
  cases l <;> cases m <;> simp [same, unsignZero, Double.same_iff_unsignZero_eq]

end Literal

/-! ## Expression trees -/

/-- A column, by its name alone or together with the source that it is taken from. -/
structure ColumnRef where
  source : Option SourceName
  name : ColumnName
deriving DecidableEq

namespace ColumnRef

def unqualified (name : ColumnName) : ColumnRef :=
  ⟨none, name⟩

def qualified (source : SourceName) (name : ColumnName) : ColumnRef :=
  ⟨some source, name⟩

def text (column : ColumnRef) : String :=
  match column.source with
  | none => column.name.text
  | some source => source.text ++ "." ++ column.name.text

end ColumnRef

inductive Comparison where
  | equal
  | notEqual
  | less
  | lessEqual
  | greater
  | greaterEqual
deriving DecidableEq

def Comparison.text : Comparison → String
  | equal => "="
  | notEqual => "<>"
  | less => "<"
  | lessEqual => "<="
  | greater => ">"
  | greaterEqual => ">="

inductive Arithmetic where
  | add
  | subtract
  | multiply
  | divide
  | remainder
deriving DecidableEq

def Arithmetic.text : Arithmetic → String
  | add => "+"
  | subtract => "-"
  | multiply => "*"
  | divide => "/"
  | remainder => "%"

inductive Expr where
  | literal (value : Literal)
  | column (reference : ColumnRef)
  | call (name : String) (arguments : List Expr)
  | comparison (op : Comparison) (left right : Expr)
  | arithmetic (op : Arithmetic) (left right : Expr)
  | and (left right : Expr)
  | or (left right : Expr)
  | not (operand : Expr)
  | isNull (operand : Expr)
  | isNotNull (operand : Expr)

structure Call where
  name : String
  arguments : List Expr

namespace Expr

def callOf (name : String) (arguments : List Expr) : Expr :=
  call (Text.upper name) arguments

mutual

def text : Expr → String
  | literal value => value.text
  | column reference => reference.text
  | call name arguments => name ++ "(" ++ ", ".intercalate (texts arguments) ++ ")"
  | comparison op left right => "(" ++ text left ++ " " ++ op.text ++ " " ++ text right ++ ")"
  | arithmetic op left right => "(" ++ text left ++ " " ++ op.text ++ " " ++ text right ++ ")"
  | and left right => "(" ++ text left ++ " AND " ++ text right ++ ")"
  | or left right => "(" ++ text left ++ " OR " ++ text right ++ ")"
  | not operand => "(NOT " ++ text operand ++ ")"
  | isNull operand => "(" ++ text operand ++ " IS NULL)"
  | isNotNull operand => "(" ++ text operand ++ " IS NOT NULL)"

def texts : List Expr → List String
  | [] => []
  | e :: rest => text e :: texts rest

end

end Expr

def Call.toExpr (c : Call) : Expr :=
  .call c.name c.arguments

def Call.text (c : Call) : String :=
  c.toExpr.text

/-! ## Columns and calls in an expression

Both are listed with an expression before its operands and the operands from left to right.
-/

namespace Expr

mutual

def columns : Expr → List ColumnRef
  | literal _ => []
  | column c => [c]
  | call _ arguments => columnsOfAll arguments
  | comparison _ left right => columns left ++ columns right
  | arithmetic _ left right => columns left ++ columns right
  | and left right => columns left ++ columns right
  | or left right => columns left ++ columns right
  | not operand => columns operand
  | isNull operand => columns operand
  | isNotNull operand => columns operand

def columnsOfAll : List Expr → List ColumnRef
  | [] => []
  | e :: rest => columns e ++ columnsOfAll rest

end

mutual

/-- The calls that occur in an expression, an outer one before those in its arguments. -/
def calls : Expr → List Call
  | literal _ => []
  | column _ => []
  | call name arguments => ⟨name, arguments⟩ :: callsOfAll arguments
  | comparison _ left right => calls left ++ calls right
  | arithmetic _ left right => calls left ++ calls right
  | and left right => calls left ++ calls right
  | or left right => calls left ++ calls right
  | not operand => calls operand
  | isNull operand => calls operand
  | isNotNull operand => calls operand

def callsOfAll : List Expr → List Call
  | [] => []
  | e :: rest => calls e ++ callsOfAll rest

end

theorem columnsOfAll_eq_flatMap (es : List Expr) : columnsOfAll es = es.flatMap columns := by
  induction es with
  | nil => rfl
  | cons e rest ih => simp [columnsOfAll, ih]

theorem callsOfAll_eq_flatMap (es : List Expr) : callsOfAll es = es.flatMap calls := by
  induction es with
  | nil => rfl
  | cons e rest ih => simp [callsOfAll, ih]

/-! ## Equality of expressions

Expressions are compared by their structure and their literals as literals are. So `0.0` and `-0.0`
are the same expression, and `1` and `1.0` are not. Without the signs of zeros, expressions that are the
same are equal.
-/

mutual

def same : Expr → Expr → Bool
  | literal l, literal m => l.same m
  | column c, column d => c == d
  | call f as, call g bs => f == g && sameAll as bs
  | comparison op l r, comparison op' l' r' => op == op' && same l l' && same r r'
  | arithmetic op l r, arithmetic op' l' r' => op == op' && same l l' && same r r'
  | and l r, and l' r' => same l l' && same r r'
  | or l r, or l' r' => same l l' && same r r'
  | not e, not e' => same e e'
  | isNull e, isNull e' => same e e'
  | isNotNull e, isNotNull e' => same e e'
  | _, _ => false

def sameAll : List Expr → List Expr → Bool
  | [], [] => true
  | e :: es, f :: fs => same e f && sameAll es fs
  | _, _ => false

end

def isIn (e : Expr) (es : List Expr) : Bool :=
  es.any fun other => other.same e

theorem isIn_singleton (e other : Expr) : e.isIn [other] = other.same e :=
  Bool.or_false _

theorem isIn_append (e : Expr) (es fs : List Expr) : e.isIn (es ++ fs) = (e.isIn es || e.isIn fs) :=
  List.any_append

theorem isIn_eq_true_iff {e : Expr} {es : List Expr} :
    e.isIn es = true ↔ ∃ other ∈ es, other.same e = true :=
  List.any_eq_true

theorem isIn_eq_false_iff {e : Expr} {es : List Expr} :
    e.isIn es = false ↔ ∀ other ∈ es, other.same e = false := by
  simp [isIn]

mutual

/-- The expression with every zero in it unsigned. -/
def unsignZeros : Expr → Expr
  | literal value => literal value.unsignZero
  | column reference => column reference
  | call name arguments => call name (unsignAllZeros arguments)
  | comparison op left right => comparison op (unsignZeros left) (unsignZeros right)
  | arithmetic op left right => arithmetic op (unsignZeros left) (unsignZeros right)
  | and left right => and (unsignZeros left) (unsignZeros right)
  | or left right => or (unsignZeros left) (unsignZeros right)
  | not operand => not (unsignZeros operand)
  | isNull operand => isNull (unsignZeros operand)
  | isNotNull operand => isNotNull (unsignZeros operand)

def unsignAllZeros : List Expr → List Expr
  | [] => []
  | e :: rest => unsignZeros e :: unsignAllZeros rest

end

mutual

theorem same_iff_unsignZeros_eq : (e f : Expr) →
    (e.same f = true ↔ e.unsignZeros = f.unsignZeros)
  | literal l, f => by
    cases f <;> simp [same, unsignZeros, Literal.same_iff_unsignZero_eq]
  | column c, f => by cases f <;> simp [same, unsignZeros]
  | call g as, f => by
    cases f <;> simp [same, unsignZeros, sameAll_iff_unsignAllZeros_eq as]
  | comparison op l r, f => by
    cases f <;> simp [same, unsignZeros, same_iff_unsignZeros_eq l, same_iff_unsignZeros_eq r,
      and_assoc]
  | arithmetic op l r, f => by
    cases f <;> simp [same, unsignZeros, same_iff_unsignZeros_eq l, same_iff_unsignZeros_eq r,
      and_assoc]
  | and l r, f => by
    cases f <;> simp [same, unsignZeros, same_iff_unsignZeros_eq l, same_iff_unsignZeros_eq r]
  | or l r, f => by
    cases f <;> simp [same, unsignZeros, same_iff_unsignZeros_eq l, same_iff_unsignZeros_eq r]
  | not e, f => by cases f <;> simp [same, unsignZeros, same_iff_unsignZeros_eq e]
  | isNull e, f => by cases f <;> simp [same, unsignZeros, same_iff_unsignZeros_eq e]
  | isNotNull e, f => by cases f <;> simp [same, unsignZeros, same_iff_unsignZeros_eq e]

theorem sameAll_iff_unsignAllZeros_eq : (es fs : List Expr) →
    (sameAll es fs = true ↔ unsignAllZeros es = unsignAllZeros fs)
  | [], fs => by cases fs <;> simp [sameAll, unsignAllZeros]
  | e :: es, fs => by
    cases fs <;> simp [sameAll, unsignAllZeros, same_iff_unsignZeros_eq e,
      sameAll_iff_unsignAllZeros_eq es]

end

theorem same_equivalence : Equivalence fun e f : Expr => e.same f = true where
  refl _ := (same_iff_unsignZeros_eq _ _).mpr rfl
  symm same := (same_iff_unsignZeros_eq _ _).mpr ((same_iff_unsignZeros_eq _ _).mp same).symm
  trans first second := (same_iff_unsignZeros_eq _ _).mpr
    (((same_iff_unsignZeros_eq _ _).mp first).trans ((same_iff_unsignZeros_eq _ _).mp second))

end Expr

end StreamQuery
