import StreamQuery.Json.Value

/-! # Reading JSON text

Texts are read from the left, each function giving what it read and the rest of the text. Blanks are
the space, the tab, the line feed and the carriage return. Strings hold no control characters below
U+0020 and no escaped surrogates other than a leading one directly followed by a trailing one.
Nesting is limited: a reader takes the number of containers that may still be opened.
-/

set_option autoImplicit false

namespace StreamQuery.Json

/-! ## Numerals

A numeral without fraction and exponent is a whole number if it lies between -2⁶³ and 2⁶⁴ - 1, except
`-0`. Every other numeral is a double. Its digits are gathered into a significand below 2⁶⁴: once a
digit of the whole part does not fit, that digit and the following ones only raise the exponent, and
once a digit of the fraction does not fit, it and the following ones are dropped. The significand is
rounded to a double, which is then multiplied or divided by a power of ten, with a rounding at each
step. A numeral whose value would be infinite is refused.
-/

def digitValue (c : Char) : Nat :=
  c.toNat - '0'.toNat

def significandLimit : Nat := UInt64.size - 1

/-- Appends digits to a significand while it stays within the limit. Gives the significand and the
number of digits that were left over. -/
def gather (significand : Nat) : List Char → Nat × Nat
  | [] => (significand, 0)
  | digit :: rest =>
    let longer := significand * 10 + digitValue digit
    if longer ≤ significandLimit then gather longer rest else (significand, rest.length + 1)

def tenTo (exponent : Nat) : Nat :=
  Double.nearest (Nat.pow 10 exponent) 1

def largestStep : Nat := 308

def dividedByTenTo (magnitude exponent : Nat) : Nat :=
  if exponent ≤ largestStep then Double.divMagnitude magnitude (tenTo exponent)
  else if magnitude = 0 then 0
  else dividedByTenTo (Double.divMagnitude magnitude (tenTo largestStep)) (exponent - largestStep)
termination_by exponent
decreasing_by simp only [largestStep] at *; omega

/-- The magnitude of `significand * 10 ^ exponent`; an infinite one is not given. -/
def scaled? (significand : Nat) (exponent : Int) : Option Nat :=
  let magnitude := Double.nearest significand 1
  match exponent with
  | .negSucc below => some (dividedByTenTo magnitude (below + 1))
  | .ofNat above =>
    if above ≤ largestStep then
      let product := Double.mulMagnitude magnitude (tenTo above)
      if product < Double.infinity then some product else none
    else if magnitude = 0 then some 0
    else none

def doubleNumeral? (negative : Bool) (significand : Nat) (exponent : Int) : Option Number := do
  let magnitude ← scaled? significand exponent
  let value ← Double.ofMagnitude? negative magnitude
  some (.double value)

def wholeNumeral? (negative : Bool) (significand : Nat) : Option Number :=
  if negative then
    if 0 < significand ∧ significand ≤ 0x8000000000000000 then some (.int (-significand))
    else doubleNumeral? true significand 0
  else
    some (.int significand)

def spanDigits (s : List Char) : List Char × List Char :=
  (s.takeWhile Char.isDigit, s.dropWhile Char.isDigit)

/-- The exponent at the start of a text, if there is one, and the rest. A mark without digits is
refused. -/
def readExponent? : List Char → Option (Option Int × List Char)
  | mark :: rest =>
    if mark = 'e' ∨ mark = 'E' then
      let (negative, unsigned) :=
        match rest with
        | '-' :: unsigned => (true, unsigned)
        | '+' :: unsigned => (false, unsigned)
        | unsigned => (false, unsigned)
      let (digits, after) := spanDigits unsigned
      if digits.isEmpty then none
      else
        let size : Nat := digits.foldl (fun value digit => value * 10 + digitValue digit) 0
        some (some (if negative then -size else size), after)
    else some (none, mark :: rest)
  | [] => some (none, [])

def readFraction? (negative : Bool) (significand raised : Nat) :
    List Char → Option (Number × List Char)
  | '.' :: rest => do
    let (digits, after) := spanDigits rest
    if digits.isEmpty then none
    else
      let (longer, dropped) := gather significand digits
      let shift : Int := (raised : Int) - (digits.length - dropped : Nat)
      let (exponent, after) ← readExponent? after
      let number ← doubleNumeral? negative longer (shift + exponent.getD 0)
      some (number, after)
  | rest => do
    let (exponent, after) ← readExponent? rest
    match exponent with
    | some exponent =>
      let number ← doubleNumeral? negative significand (raised + exponent)
      some (number, after)
    | none =>
      let number ←
        if raised = 0 then wholeNumeral? negative significand
        else doubleNumeral? negative significand raised
      some (number, after)

/-- The numeral at the start of a text, and the rest. A zero is not followed by a digit. -/
def readNumeral? (negative : Bool) (s : List Char) : Option (Number × List Char) :=
  match spanDigits s with
  | ([], _) => none
  | ('0' :: _ :: _, _) => none
  | (digits, rest) =>
    let (significand, raised) := gather 0 digits
    readFraction? negative significand raised rest

def skipBlanks : List Char → List Char :=
  List.dropWhile fun c => c == ' ' || c == '\t' || c == '\n' || c == '\r'

/-! ## Strings -/

def hexValue? (c : Char) : Option Nat :=
  if '0' ≤ c ∧ c ≤ '9' then some (c.toNat - '0'.toNat)
  else if 'a' ≤ c ∧ c ≤ 'f' then some (c.toNat - 'a'.toNat + 10)
  else if 'A' ≤ c ∧ c ≤ 'F' then some (c.toNat - 'A'.toNat + 10)
  else none

def unit? (a b c d : Char) : Option Nat := do
  some ((((← hexValue? a) * 16 + (← hexValue? b)) * 16 + (← hexValue? c)) * 16 + (← hexValue? d))

def escaped? (c : Char) : Option Char :=
  if c = '"' then some '"'
  else if c = '\\' then some '\\'
  else if c = '/' then some '/'
  else if c = 'b' then some '\x08'
  else if c = 'f' then some '\x0c'
  else if c = 'n' then some '\n'
  else if c = 'r' then some '\r'
  else if c = 't' then some '\t'
  else none

def isLeading (unit : Nat) : Bool :=
  decide (0xD800 ≤ unit ∧ unit ≤ 0xDBFF)

def isTrailing (unit : Nat) : Bool :=
  decide (0xDC00 ≤ unit ∧ unit ≤ 0xDFFF)

def joined (leading trailing : Nat) : Char :=
  Char.ofNat (0x10000 + (leading - 0xD800) * 0x400 + (trailing - 0xDC00))

def readString? : List Char → Option (List Char × List Char)
  | [] => none
  | '"' :: rest => some ([], rest)
  | '\\' :: 'u' :: a :: b :: c :: d :: rest =>
    match unit? a b c d with
    | none => none
    | some unit =>
      if isTrailing unit then none
      else if isLeading unit then
        match rest with
        | '\\' :: 'u' :: e :: f :: g :: h :: rest =>
          match unit? e f g h with
          | none => none
          | some trailing =>
            if isTrailing trailing then
              (readString? rest).map fun (chars, after) => (joined unit trailing :: chars, after)
            else none
        | _ => none
      else (readString? rest).map fun (chars, after) => (Char.ofNat unit :: chars, after)
  | '\\' :: c :: rest =>
    match escaped? c with
    | none => none
    | some char => (readString? rest).map fun (chars, after) => (char :: chars, after)
  | c :: rest =>
    if c = '\\' ∨ c.toNat < 0x20 then none
    else (readString? rest).map fun (chars, after) => (c :: chars, after)

/-! ## Values -/

/-- Items separated by commas up to a closing character. At most `count` items are read. -/
def readSeparated? {α : Type} (item? : List Char → Option (α × List Char)) (close : Char) :
    Nat → List Char → Option (List α × List Char)
  | 0, _ => none
  | count + 1, s =>
    match item? s with
    | none => none
    | some (item, rest) =>
      match skipBlanks rest with
      | [] => none
      | mark :: rest =>
        if mark = close then some ([item], rest)
        else if mark = ',' then
          (readSeparated? item? close count rest).map fun (items, after) => (item :: items, after)
        else none

def readContents? {α : Type} (item? : List Char → Option (α × List Char)) (close : Char)
    (s : List Char) : Option (List α × List Char) :=
  match skipBlanks s with
  | [] => none
  | c :: rest =>
    if c = close then some ([], rest) else readSeparated? item? close (rest.length + 1) (c :: rest)

def readMember? (value? : List Char → Option (Value × List Char)) (s : List Char) :
    Option ((String × Value) × List Char) :=
  match skipBlanks s with
  | '"' :: rest =>
    match readString? rest with
    | none => none
    | some (key, rest) =>
      match skipBlanks rest with
      | ':' :: rest => (value? rest).map fun (value, after) => ((String.ofList key, value), after)
      | _ => none
  | _ => none

/-- The value at the start of a text, as written: the members of objects are in the order of the
text, with their repetitions. At most `depth` containers lie inside one another. -/
def readValue? : Nat → List Char → Option (Value × List Char)
  | depth, s =>
    match skipBlanks s with
    | 'n' :: 'u' :: 'l' :: 'l' :: rest => some (.null, rest)
    | 't' :: 'r' :: 'u' :: 'e' :: rest => some (.bool true, rest)
    | 'f' :: 'a' :: 'l' :: 's' :: 'e' :: rest => some (.bool false, rest)
    | '"' :: rest =>
      (readString? rest).map fun (chars, after) => (.str (String.ofList chars), after)
    | '-' :: rest => (readNumeral? true rest).map fun (number, after) => (.num number, after)
    | '[' :: rest =>
      match depth with
      | 0 => none
      | depth + 1 =>
        (readContents? (fun s => readValue? depth s) ']' rest).map fun (items, after) =>
          (.arr items, after)
    | '\x7b' :: rest =>
      match depth with
      | 0 => none
      | depth + 1 =>
        (readContents? (readMember? fun s => readValue? depth s) '\x7d' rest).map
          fun (members, after) => (.obj members, after)
    | rest => (readNumeral? false rest).map fun (number, after) => (.num number, after)

/-- How many containers may lie inside one another in an ordinary text. -/
def depthLimit : Nat := 127

def readObject? (s : String) : Option (List (String × Value) × List Char) :=
  match readValue? depthLimit s.toList with
  | some (.obj members, rest) => some (members, rest)
  | _ => none

theorem readObject?_eq_some_iff {s : String} {members : List (String × Value)} {rest : List Char} :
    readObject? s = some (members, rest) ↔
      readValue? depthLimit s.toList = some (.obj members, rest) := by
  unfold readObject?
  split
  · rename_i read
    simp [read]
  · rename_i other
    simpa using other members rest

def read? (depth : Nat) (s : String) : Option Value :=
  match readValue? depth s.toList with
  | some (value, rest) => if (skipBlanks rest).isEmpty then some value.canonical else none
  | none => none

end StreamQuery.Json
