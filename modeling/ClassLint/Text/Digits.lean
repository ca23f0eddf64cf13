/-!
# Digits

Numbers in bases up to sixteen.  Letters of either case stand for the digits
from ten.
-/

namespace ClassLint

namespace Digits

/-- The value of a digit. -/
def value? (char : Char) : Option Nat :=
  if '0' ≤ char ∧ char ≤ '9' then some (char.toNat - '0'.toNat)
  else if 'a' ≤ char ∧ char ≤ 'f' then some (char.toNat - 'a'.toNat + 10)
  else if 'A' ≤ char ∧ char ≤ 'F' then some (char.toNat - 'A'.toNat + 10)
  else none

def isDigit (base : Nat) (char : Char) : Bool :=
  match value? char with
  | some value => value < base
  | none => false

/-- The number that digits stand for, the most significant first. -/
def number (base : Nat) (digits : List Char) : Nat :=
  digits.foldl (fun number char => number * base + (value? char).getD 0) 0

/-- The number that characters stand for, if they are digits and there is at
least one. -/
def number? (base : Nat) (chars : List Char) : Option Nat :=
  if chars ≠ [] ∧ chars.all (isDigit base) then some (number base chars) else none

end Digits

end ClassLint
