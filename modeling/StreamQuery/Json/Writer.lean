import StreamQuery.Double
import StreamQuery.Json.Value

/-! # Compact JSON text

Values are written without blanks. In strings only the quotation mark, the reverse solidus and the
control characters below U+0020 are escaped. Doubles have their shortest digits, positionally for a
leading digit between 10⁻⁵ and 10¹⁵ and with a signed exponent otherwise; a whole double that is
written positionally ends in `.0`.
-/

set_option autoImplicit false

namespace StreamQuery.Json

def doubleLayout : Decimal.Layout where
  tie := .even
  positional leading := decide (-5 ≤ leading ∧ leading ≤ 15)
  wholeSuffix := ".0"
  risingMark := "e+"
  fallingMark := "e-"

def hexDigits (code : Nat) : List Char :=
  [Nat.digitChar (code / 16 % 16), Nat.digitChar (code % 16)]

def escape (c : Char) : List Char :=
  if c = '"' then ['\\', '"']
  else if c = '\\' then ['\\', '\\']
  else if c = '\x08' then ['\\', 'b']
  else if c = '\t' then ['\\', 't']
  else if c = '\n' then ['\\', 'n']
  else if c = '\x0c' then ['\\', 'f']
  else if c = '\r' then ['\\', 'r']
  else if c.toNat < 0x20 then ['\\', 'u', '0', '0'] ++ hexDigits c.toNat
  else [c]

def quoted (s : String) : String :=
  String.ofList ('"' :: s.toList.flatMap escape ++ ['"'])

@[simp] theorem toList_quoted (s : String) :
    (quoted s).toList = '"' :: (s.toList.flatMap escape ++ ['"']) := by
  simp [quoted]

def Number.text : Number → String
  | .int value => if value < 0 then "-" ++ Nat.repr value.natAbs else Nat.repr value.natAbs
  | .double value => doubleLayout.text value

namespace Value

mutual

def text : Value → String
  | null => "null"
  | bool true => "true"
  | bool false => "false"
  | num value => value.text
  | str value => quoted value
  | arr items => "[" ++ ",".intercalate (itemTexts items) ++ "]"
  | obj members => "\x7b" ++ ",".intercalate (memberTexts members) ++ "\x7d"

def itemTexts : List Value → List String
  | [] => []
  | item :: rest => text item :: itemTexts rest

def memberTexts : List (String × Value) → List String
  | [] => []
  | (key, value) :: rest => (quoted key ++ ":" ++ text value) :: memberTexts rest

end

theorem itemTexts_eq_map (items : List Value) : itemTexts items = items.map text := by
  induction items with
  | nil => rfl
  | cons item items ih => rw [itemTexts, ih, List.map_cons]

theorem memberTexts_eq_map (members : List (String × Value)) :
    memberTexts members = members.map fun member => quoted member.1 ++ ":" ++ text member.2 := by
  induction members with
  | nil => rfl
  | cons member members ih => rw [memberTexts, ih, List.map_cons]

end Value

end StreamQuery.Json
