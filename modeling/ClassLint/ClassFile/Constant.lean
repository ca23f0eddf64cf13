import ClassLint.Decimal.Shortest

/-!
# Constants

The constants that an instruction may load or a field may be given.  Floating
constants are kept as bit patterns, so that a NaN keeps its payload and the two
zeros stay apart.
-/

namespace ClassLint

/-- A loadable constant. -/
inductive Constant where
  | integer (value : Int32)
  | long (value : Int64)
  /-- A 32-bit floating constant, by its bits. -/
  | float (bits : UInt32)
  /-- A 64-bit floating constant, by its bits. -/
  | double (bits : UInt64)
  /-- A string, a class or another constant without a number, by its text. -/
  | other (text : String)
  deriving DecidableEq, Repr

namespace Constant

/-- Whether the constant is a number. -/
def isNumeric : Constant → Bool
  | .other _ => false
  | _ => true

/-- Floating constants are written positionally from `1e-4` to below `1e16`. -/
def floatLayout : Decimal.Layout where
  lowestPositional := -4
  highestPositional := 15
  zero := "0.0"
  infinity := "inf"
  notANumber := "NaN"

/-- The text of a constant as a finding shows it: longs end in `L` and 32-bit
floating constants in `f`. -/
def text : Constant → String
  | .integer value => toString value.toInt
  | .long value => toString value.toInt ++ "L"
  | .float bits => floatLayout.render (Decimal.single.value bits.toNat) ++ "f"
  | .double bits => floatLayout.render (Decimal.double.value bits.toNat)
  | .other text => text

end Constant

end ClassLint
