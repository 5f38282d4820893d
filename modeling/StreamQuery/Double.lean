/-! # Numbers of the SQL type DOUBLE

A double is a binary64 number: finite, or one of the two infinities. What is not a number has no
place here. The bits below the sign are the *magnitude*; magnitudes in order of size are numbers in
order of absolute value, and a finite magnitude stands for a whole multiple of 2 to the power -1074.
-/

set_option autoImplicit false

namespace StreamQuery

/-- A binary64 number other than NaN, given by its bits. -/
structure Double where
  bits : UInt64
  isNumber : bits.toNat % 0x8000000000000000 ≤ 0x7FF0000000000000

namespace Double

def ofBits? (bits : UInt64) : Option Double :=
  if number : bits.toNat % 0x8000000000000000 ≤ 0x7FF0000000000000 then some ⟨bits, number⟩ else none

def isNegative (d : Double) : Bool :=
  decide (0x8000000000000000 ≤ d.bits.toNat)

def magnitude (d : Double) : Nat :=
  d.bits.toNat % 0x8000000000000000

def infinity : Nat := 0x7FF0000000000000

def isInfinite (d : Double) : Bool :=
  d.magnitude == infinity

/-- Numeric equality: the two zeros are one number. -/
def same (d e : Double) : Bool :=
  d.bits == e.bits || (d.magnitude == 0 && e.magnitude == 0)

theorem same_iff {d e : Double} :
    d.same e = true ↔ d.bits = e.bits ∨ (d.magnitude = 0 ∧ e.magnitude = 0) := by
  simp [same]

theorem eq_iff_bits_eq {d e : Double} : d = e ↔ d.bits = e.bits := by
  cases d
  cases e
  simp

def unsignZero (d : Double) : Double :=
  if d.magnitude = 0 then ⟨0, by decide⟩ else d

theorem same_iff_unsignZero_eq {d e : Double} : d.same e = true ↔ d.unsignZero = e.unsignZero := by
  have isZero : (⟨0, by decide⟩ : Double).magnitude = 0 := rfl
  rw [same_iff, ← eq_iff_bits_eq, unsignZero, unsignZero]
  by_cases first : d.magnitude = 0
  · by_cases second : e.magnitude = 0
    · simp [first, second]
    · rw [if_pos first, if_neg second]
      constructor
      · rintro (rfl | ⟨_, zero⟩)
        · exact absurd first second
        · exact absurd zero second
      · rintro rfl
        exact absurd isZero second
  · by_cases second : e.magnitude = 0
    · rw [if_neg first, if_pos second]
      constructor
      · rintro (rfl | ⟨zero, _⟩)
        · exact absurd second first
        · exact absurd zero first
      · rintro rfl
        exact absurd isZero first
    · simp [first, second]

/-! ## Magnitudes as multiples of the smallest one

A finite magnitude is the pair of a significand below 2 to the power 53 and a shift. -/

/-- How many magnitudes lie between one power of two and the next. -/
def binade : Nat := 0x10000000000000

def parts (magnitude : Nat) : Nat × Nat :=
  if magnitude < binade then (magnitude, 0)
  else (binade + magnitude % binade, magnitude / binade - 1)

/-- How many times the smallest positive double a finite magnitude is. -/
def units (magnitude : Nat) : Nat :=
  (parts magnitude).1 <<< (parts magnitude).2

/-- The quotient `num / den` rounded to the nearest whole number, a half to the even one. -/
def roundHalfEven (num den : Nat) : Nat :=
  let quotient := num / den
  let twice := 2 * (num % den)
  if twice < den ∨ (twice = den ∧ quotient % 2 = 0) then quotient else quotient + 1

/-- The magnitude nearest to the quotient `num / den`, a half to the even one; from half a step past
the largest finite magnitude on it is the infinite one. -/
def nearest (num den : Nat) : Nat :=
  let whole := (num <<< 1074) / den
  let shift := if whole < 2 * binade then 0 else whole.log2 - 52
  min infinity (shift * binade + roundHalfEven (num <<< 1074) (den <<< shift))

def mulMagnitude (m n : Nat) : Nat :=
  nearest (units m * units n) (1 <<< 2148)

def divMagnitude (m n : Nat) : Nat :=
  nearest (units m) (units n)

def ofMagnitude? (negative : Bool) (magnitude : Nat) : Option Double :=
  if magnitude < infinity then
    ofBits? (UInt64.ofNat (if negative then 0x8000000000000000 + magnitude else magnitude))
  else
    none

end Double

/-! ## The shortest decimal of a double

Every real number in a certain interval around a double rounds to that double; the ends belong to it
when the significand is even. The shortest decimal is the one with the fewest digits in the interval,
and of two with that many digits the nearer one. For one digit, two digits and so on, the neighbours
of the double on that decimal grid are tested in exact arithmetic; seventeen digits always suffice.
-/

namespace Decimal

inductive Tie where
  | up
  | even
deriving DecidableEq

structure Scientific where
  digits : Nat
  exponent : Int

/-- The value, lower end and upper end of the rounding interval of a positive finite magnitude, as
multiples of 2 to the power -1076, and whether the ends belong to the interval. -/
structure Interval where
  value : Nat
  lower : Nat
  upper : Nat
  closed : Bool

/-- The rounding interval. Just above a power of two the neighbour below is at half the distance. -/
def interval (magnitude : Nat) : Interval :=
  let (significand, shift) := Double.parts magnitude
  let below := if significand = Double.binade ∧ shift ≠ 0 then 1 else 2
  { value := (4 * significand) <<< shift
    lower := (4 * significand - below) <<< shift
    upper := (4 * significand + 2) <<< shift
    closed := significand % 2 = 0 }

def bias : Nat := 340

def tens (exponent : Nat) : Nat :=
  Nat.pow 10 exponent

/-- Numerators are multiples of 2 to the power -1076 and of 10 to the power -340. -/
def scale : Nat := 1 <<< 1076

def Interval.holds (i : Interval) (unit count : Nat) : Bool :=
  let point := count * unit
  if i.closed then i.lower * tens bias ≤ point && point ≤ i.upper * tens bias
  else i.lower * tens bias < point && point < i.upper * tens bias

/-- The neighbour of the value on a grid that lies in the interval, if there is one. -/
def Interval.hit? (i : Interval) (tie : Tie) (unit : Nat) : Option Nat :=
  let value := i.value * tens bias
  let below := value / unit
  let rest := 2 * (value % unit)
  match i.holds unit below, i.holds unit (below + 1) with
  | true, false => some below
  | false, true => some (below + 1)
  | false, false => none
  | true, true =>
    if rest < unit then some below
    else if unit < rest then some (below + 1)
    else match tie with
      | .up => some (below + 1)
      | .even => some (if below % 2 = 0 then below else below + 1)

/-- The first hit on the grids of `count` digits and more, for a value whose leading digit stands at
`10 ^ (leading - bias)`; at most `more` further grids are tried. -/
def Interval.search (i : Interval) (tie : Tie) (leading : Nat) : Nat → Nat → Scientific
  | count, more =>
    let position := leading + 1 - count
    match i.hit? tie (tens position * scale), more with
    | some digits, _ =>
      if digits = tens count then ⟨1, position + count - bias⟩ else ⟨digits, position - bias⟩
    | none, 0 => ⟨i.value * tens bias / (tens position * scale), position - bias⟩
    | none, more + 1 => i.search tie leading (count + 1) more

def shortest (tie : Tie) (magnitude : Nat) : Scientific :=
  if magnitude = 0 then ⟨0, 0⟩
  else
    let i := interval magnitude
    let leading := (Nat.toDigits 10 (i.value * tens bias / scale)).length - 1
    i.search tie leading 1 16

/-! ## Layout of decimal numbers

How the shortest digits of a double are set: with the decimal point at its place and as many zeros
as that takes, or with one digit before the point and an exponent of ten.
-/

/-- The choices that a written form of doubles makes. -/
structure Layout where
  tie : Tie
  /-- Whether a number whose leading digit stands at this power of ten is written positionally. -/
  positional : Int → Bool
  /-- What follows the digits of a whole number that is written positionally. -/
  wholeSuffix : String
  risingMark : String
  fallingMark : String

/-- Digits with the leading one at `10 ^ leading`, the decimal point at its place. -/
def positionalText (digits : List Char) (leading : Int) (wholeSuffix : String) : String :=
  if leading < 0 then
    "0." ++ String.ofList (List.replicate (-leading - 1).toNat '0' ++ digits)
  else
    let whole := leading.toNat + 1
    if digits.length ≤ whole then
      String.ofList (digits ++ List.replicate (whole - digits.length) '0') ++ wholeSuffix
    else
      String.ofList (digits.take whole) ++ "." ++ String.ofList (digits.drop whole)

def exponentText (digits : List Char) (leading : Int) (risingMark fallingMark : String) : String :=
  let fraction := digits.drop 1
  String.ofList (digits.take 1) ++ (if fraction.isEmpty then "" else "." ++ String.ofList fraction) ++
    (if leading < 0 then fallingMark else risingMark) ++ Nat.repr leading.natAbs

def Layout.unsigned (layout : Layout) (number : Scientific) : String :=
  let digits := Nat.toDigits 10 number.digits
  let leading := number.exponent + digits.length - 1
  if layout.positional leading then positionalText digits leading layout.wholeSuffix
  else exponentText digits leading layout.risingMark layout.fallingMark

def Layout.text (layout : Layout) (d : Double) : String :=
  (if d.isNegative then "-" else "") ++
    if d.isInfinite then "inf" else layout.unsigned (shortest layout.tie d.magnitude)

end Decimal

end StreamQuery
