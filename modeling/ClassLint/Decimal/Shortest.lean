/-!
# Shortest decimals of binary floating-point values

A finite floating-point value is `significand * 2 ^ exponent`.  The reals that
round to it form an interval around it, whose ends belong to it when the
significand is even.  Its shortest decimal is the decimal with the fewest
digits in that interval; of several, the one nearest to the value, and of two
equally near the larger one.

The search is exact.  On each grid of decimals, from one digit on, only the
two neighbours of the value have to be tried: if any point of the grid lies in
the interval, so does one of them.
-/

namespace ClassLint

namespace Decimal

/-- A binary interchange format: how many bits its fraction and its exponent
field have. -/
structure BinaryFormat where
  fractionBits : Nat
  exponentBits : Nat
  deriving DecidableEq, Repr

/-- The 32-bit format. -/
def single : BinaryFormat := ⟨23, 8⟩

/-- The 64-bit format. -/
def double : BinaryFormat := ⟨52, 11⟩

/-- What a bit pattern stands for. -/
inductive FloatValue where
  | notANumber
  | infinite (negative : Bool)
  /-- The value `significand * 2 ^ exponent`; `narrow` says that the next value
  towards zero is only half as far away as the next one up. -/
  | finite (negative : Bool) (significand : Nat) (exponent : Int) (narrow : Bool)
  deriving DecidableEq, Repr

/-- Read a bit pattern of a format. -/
def BinaryFormat.value (format : BinaryFormat) (bits : Nat) : FloatValue :=
  let fraction := bits % Nat.pow 2 format.fractionBits
  let field := bits / Nat.pow 2 format.fractionBits % Nat.pow 2 format.exponentBits
  let negative := bits / Nat.pow 2 (format.fractionBits + format.exponentBits) % 2 == 1
  let lowest : Int := 2 - Nat.pow 2 (format.exponentBits - 1) - format.fractionBits
  if field = Nat.pow 2 format.exponentBits - 1 then
    if fraction = 0 then .infinite negative else .notANumber
  else if field = 0 then
    .finite negative fraction lowest false
  else
    .finite negative (Nat.pow 2 format.fractionBits + fraction) (lowest + field - 1)
      (fraction == 0 && field != 1)

/-- A number with its sign. -/
def signed (negative : Bool) (size : Nat) : Int :=
  if negative then -size else size

/-- Whether two values are equal as numbers.  The two zeros are, and what is not a
number equals nothing. -/
def FloatValue.equals : FloatValue → FloatValue → Bool
  | .infinite negative, .infinite otherNegative => negative == otherNegative
  | .finite negative significand exponent _,
      .finite otherNegative otherSignificand otherExponent _ =>
      -- Both are scaled to the lower one of the exponents.
      signed negative (significand * Nat.pow 2 (exponent - otherExponent).toNat) ==
        signed otherNegative (otherSignificand * Nat.pow 2 (otherExponent - exponent).toNat)
  | _, _ => false

/-- A positive decimal in scientific form: its digits, the first of which is not
zero, and the power of ten of the first digit. -/
structure Scientific where
  digits : List Char
  exponent : Int
  deriving DecidableEq, Repr

def decimalDigits (number : Nat) : List Char :=
  Nat.toDigits 10 number

def dropTrailingZeros (digits : List Char) : List Char :=
  (digits.reverse.dropWhile (· == '0')).reverse

def Scientific.ofScaled (number : Nat) (power : Int) : Scientific :=
  let written := decimalDigits number
  ⟨dropTrailingZeros written, power + written.length - 1⟩

/-- An interval of fractions over one denominator around a middle. -/
structure Interval where
  low : Nat
  middle : Nat
  high : Nat
  denominator : Nat
  /-- Whether the two ends belong to it. -/
  closed : Bool
  deriving DecidableEq, Repr

/-- The reals that round to `significand * 2 ^ exponent`. -/
def Interval.around (significand : Nat) (exponent : Int) (narrow : Bool) : Interval :=
  let scale := Nat.pow 2 (exponent - 2).toNat
  { low := (4 * significand - if narrow then 1 else 2) * scale
    middle := 4 * significand * scale
    high := (4 * significand + 2) * scale
    denominator := Nat.pow 2 (2 - exponent).toNat
    closed := significand % 2 == 0 }

/-- Whether `number * 10 ^ power` lies in the interval, for the numerator and the
denominator of the power of ten. -/
def Interval.contains (interval : Interval) (number up down : Nat) : Bool :=
  let point := number * up * interval.denominator
  if interval.closed then
    interval.low * down ≤ point && point ≤ interval.high * down
  else
    interval.low * down < point && point < interval.high * down

/-- The best point of the grid of multiples of `10 ^ power` in the interval. -/
def Interval.gridPoint? (interval : Interval) (power : Int) : Option Nat :=
  let up := Nat.pow 10 power.toNat
  let down := Nat.pow 10 (-power).toNat
  let unit := up * interval.denominator
  let below := interval.middle * down / unit
  let remainder := interval.middle * down % unit
  match interval.contains below up down, interval.contains (below + 1) up down with
  | true, true => some (if 2 * remainder < unit then below else below + 1)
  | true, false => some below
  | false, true => some (below + 1)
  | false, false => none

/-- A power of ten that is at most the middle of the interval, and more than a
hundredth of it. -/
def Interval.leadingPower (interval : Interval) : Int :=
  if interval.denominator ≤ interval.middle then
    (decimalDigits (interval.middle / interval.denominator)).length - 1
  else
    -(decimalDigits (interval.denominator / interval.middle)).length

/-- Try the grids from `10 ^ power` downwards. -/
def Interval.search (interval : Interval) : Nat → Int → Scientific
  | 0, power => Scientific.ofScaled (interval.middle / interval.denominator) power
  | grids + 1, power =>
      match interval.gridPoint? power with
      | some number => Scientific.ofScaled number power
      | none => interval.search grids (power - 1)

/-- Seventeen digits tell any two values of the formats apart; one grid more is
tried because the first one may be too fine by one digit. -/
def gridLimit : Nat := 18

/-- The shortest decimal of a positive value. -/
def shortest (significand : Nat) (exponent : Int) (narrow : Bool) : Scientific :=
  let interval := Interval.around significand exponent narrow
  interval.search gridLimit interval.leadingPower

/-- A decimal written without an exponent, with at least one digit after the
point. -/
def Scientific.positional (decimal : Scientific) : String :=
  let count : Int := decimal.digits.length
  if decimal.exponent < 0 then
    String.ofList
      ('0' :: '.' :: List.replicate (-decimal.exponent - 1).toNat '0' ++ decimal.digits)
  else if count ≤ decimal.exponent + 1 then
    String.ofList
      (decimal.digits ++ List.replicate (decimal.exponent + 1 - count).toNat '0' ++ ['.', '0'])
  else
    let (whole, fraction) := decimal.digits.splitAt (decimal.exponent + 1).toNat
    String.ofList (whole ++ '.' :: fraction)

/-- A decimal written with an exponent; a single digit takes no point. -/
def Scientific.exponential (decimal : Scientific) : String :=
  let mantissa :=
    match decimal.digits with
    | first :: second :: rest => first :: '.' :: second :: rest
    | short => short
  String.ofList mantissa ++ "e" ++ toString decimal.exponent

/-- The layout of a floating-point text. -/
structure Layout where
  /-- The least exponent that is still written without one. -/
  lowestPositional : Int
  /-- The greatest exponent that is still written without one. -/
  highestPositional : Int
  zero : String
  infinity : String
  notANumber : String
  deriving DecidableEq, Repr

/-- Write a value of a format in a layout. -/
def Layout.render (layout : Layout) (value : FloatValue) : String :=
  let signed (negative : Bool) (text : String) := if negative then "-" ++ text else text
  match value with
  | .notANumber => layout.notANumber
  | .infinite negative => signed negative layout.infinity
  | .finite negative 0 _ _ => signed negative layout.zero
  | .finite negative significand exponent narrow =>
      let decimal := shortest significand exponent narrow
      signed negative
        (if layout.lowestPositional ≤ decimal.exponent ∧
            decimal.exponent ≤ layout.highestPositional then
          decimal.positional
        else
          decimal.exponential)

end Decimal

end ClassLint
