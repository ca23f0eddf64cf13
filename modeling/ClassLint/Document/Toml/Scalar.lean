import ClassLint.Text.Digits

/-!
# Unquoted TOML values

Numbers, truth values and moments are written without quotes.  Digits may be
grouped by single underscores, and a number has no leading zero.  A moment is a
date, a time of day, or both, in which case the offset from universal time may
follow.  Its components are checked, but a setting never needs them.
-/

namespace ClassLint

namespace Toml

/-- An unquoted value. -/
inductive Scalar where
  | boolean (value : Bool)
  | integer (value : Int)
  /-- A binary floating-point number, which is within range or not. -/
  | float (inRange : Bool)
  | moment
  deriving DecidableEq, Repr

/-! ## Numbers -/

/-- The digits of a group without the underscores.  An underscore stands
between two digits. -/
def digits? (base : Nat) : List Char → Option (List Char)
  | [] => none
  | [char] => if Digits.isDigit base char then some [char] else none
  | char :: '_' :: rest =>
      if Digits.isDigit base char then (digits? base rest).map (char :: ·) else none
  | char :: rest =>
      if Digits.isDigit base char then (digits? base rest).map (char :: ·) else none

/-- The digits of a decimal number without leading zeros. -/
def wholeDigits? (chars : List Char) : Option (List Char) :=
  match digits? 10 chars with
  | some ('0' :: _ :: _) => none
  | digits => digits

/-- A sign, and what follows it. -/
def splitSign : List Char → Bool × List Char
  | '+' :: rest => (false, rest)
  | '-' :: rest => (true, rest)
  | chars => (false, chars)

/-- Read an integer. -/
def integer? : List Char → Option Int
  | '0' :: 'x' :: rest => (digits? 16 rest).map fun digits => Int.ofNat (Digits.number 16 digits)
  | '0' :: 'o' :: rest => (digits? 8 rest).map fun digits => Int.ofNat (Digits.number 8 digits)
  | '0' :: 'b' :: rest => (digits? 2 rest).map fun digits => Int.ofNat (Digits.number 2 digits)
  | chars =>
      let (negative, unsigned) := splitSign chars
      (wholeDigits? unsigned).map fun digits =>
        if negative then -Int.ofNat (Digits.number 10 digits) else Int.ofNat (Digits.number 10 digits)

/-- Read the digits after an exponent mark. -/
def exponent? (chars : List Char) : Option Int :=
  let (negative, unsigned) := splitSign chars
  (digits? 10 unsigned).map fun digits =>
    if negative then -Int.ofNat (Digits.number 10 digits) else Int.ofNat (Digits.number 10 digits)

/-- Whether the nearest double-precision number to `significand * 10 ^ exponent`
is finite.  The least number that is rounded up to infinity lies half a unit
above the greatest finite one. -/
def isInRange (significand : List Char) (exponent : Int) : Bool :=
  let number := Digits.number 10 significand
  let magnitude := Int.ofNat (Nat.toDigits 10 number).length + exponent
  let bound := (Nat.pow 2 54 - 1) * Nat.pow 2 970
  if number = 0 ∨ magnitude < 300 then true
  else if 320 < magnitude then false
  else if 0 ≤ exponent then number * Nat.pow 10 exponent.toNat < bound
  else number < bound * Nat.pow 10 (-exponent).toNat

/-- Read a floating-point number, and tell whether it is in range. -/
def float? (chars : List Char) : Option Bool :=
  let unsigned := (splitSign chars).2
  if unsigned = ['i', 'n', 'f'] ∨ unsigned = ['n', 'a', 'n'] then some true
  else
    let (mantissa, exponentPart) := unsigned.span fun char => char ≠ 'e' ∧ char ≠ 'E'
    let (whole, fractionPart) := mantissa.span (· ≠ '.')
    if exponentPart = [] ∧ fractionPart = [] then none
    else do
      let whole ← wholeDigits? whole
      let fraction ← match fractionPart with
        | [] => some []
        | _ :: digits => digits? 10 digits
      let exponent ← match exponentPart with
        | [] => some 0
        | _ :: digits => exponent? digits
      return isInRange (whole ++ fraction) (exponent - Int.ofNat fraction.length)

/-! ## Moments -/

/-- The number that two decimal digits stand for. -/
def twoDigits? (tens ones : Char) : Option Nat :=
  if tens.isDigit ∧ ones.isDigit then some (Digits.number 10 [tens, ones]) else none

/-- The number of days in a month. -/
def daysIn (year month : Nat) : Nat :=
  if month = 2 then
    if year % 4 = 0 ∧ (year % 100 ≠ 0 ∨ year % 400 = 0) then 29 else 28
  else if month = 4 ∨ month = 6 ∨ month = 9 ∨ month = 11 then 30
  else 31

/-- Pass over a date. -/
def skipDate? : List Char → Option (List Char)
  | a :: b :: c :: d :: '-' :: e :: f :: '-' :: g :: h :: rest => do
      let century ← twoDigits? a b
      let year ← twoDigits? c d
      let month ← twoDigits? e f
      let day ← twoDigits? g h
      let valid := 1 ≤ month ∧ month ≤ 12 ∧ 1 ≤ day ∧ day ≤ daysIn (century * 100 + year) month
      if valid then some rest else none
  | _ => none

/-- Pass over a fraction of a second. -/
def skipFraction? : List Char → Option (List Char)
  | '.' :: char :: rest => if char.isDigit then some (rest.dropWhile Char.isDigit) else none
  | '.' :: [] => none
  | rest => some rest

/-- Pass over the seconds of a time of day, if they are given.  A minute may
have a leap second. -/
def skipSeconds? : List Char → Option (List Char)
  | ':' :: a :: b :: rest => do
      let second ← twoDigits? a b
      if second ≤ 60 then skipFraction? rest else none
  | rest => some rest

/-- Pass over a time of day. -/
def skipClock? : List Char → Option (List Char)
  | a :: b :: ':' :: c :: d :: rest => do
      let hour ← twoDigits? a b
      let minute ← twoDigits? c d
      if hour ≤ 23 ∧ minute ≤ 59 then skipSeconds? rest else none
  | _ => none

/-- Whether characters are the offset from universal time, or nothing. -/
def isOffset : List Char → Bool
  | [] => true
  | ['Z'] => true
  | ['z'] => true
  | [sign, a, b, ':', c, d] =>
      match twoDigits? a b, twoDigits? c d with
      | some hours, some minutes =>
          (sign = '+' ∨ sign = '-') ∧ minutes ≤ 59 ∧ hours * 60 + minutes ≤ 24 * 60
      | _, _ => false
  | _ => false

/-- Whether characters are a moment. -/
def isMoment (chars : List Char) : Bool :=
  match skipDate? chars with
  | some [] => true
  | some (separator :: rest) =>
      (separator = 'T' ∨ separator = 't' ∨ separator = ' ') ∧
        ((skipClock? rest).map isOffset).getD false
  | none => skipClock? chars = some []

/-! ## Reading an unquoted value -/

/-- Read an unquoted value. -/
def scalar? (chars : List Char) : Option Scalar :=
  if chars = ['t', 'r', 'u', 'e'] then some (.boolean true)
  else if chars = ['f', 'a', 'l', 's', 'e'] then some (.boolean false)
  else if isMoment chars then some .moment
  else
    match integer? chars with
    | some value => some (.integer value)
    | none => (float? chars).map .float

/-- Whether a character may stand in an unquoted value. -/
def isAtomChar (char : Char) : Bool :=
  char.isAlphanum ∨ char = '_' ∨ char = '+' ∨ char = '-' ∨ char = '.' ∨ char = ':'

/-- The characters of an unquoted value, and what follows it.  A date may be
divided from the time of day by a blank. -/
def splitAtom (chars : List Char) : List Char × List Char :=
  let (first, rest) := chars.span isAtomChar
  match rest with
  | ' ' :: digit :: _ =>
      if skipDate? first = some [] ∧ digit.isDigit then
        let (second, later) := (rest.drop 1).span isAtomChar
        (first ++ ' ' :: second, later)
      else (first, rest)
  | _ => (first, rest)

end Toml

end ClassLint
