import ClassLint.Check.MethodScope

/-!
# Magic numbers

Numbers other than -1, 0 and 1 (and the floating 0.0 and 1.0) should not stand
in a method body without a name.  Small pushes and loads of numeric constants
are looked at.  Constructors and static initialisers, where constants are
normally set up, are skipped.
-/

namespace ClassLint

namespace MagicNumber

/-- Integral numbers are compared in 64 bits, so that a number is judged alike in both
widths. -/
def isPlainIntegral (value : Int64) : Bool :=
  -1 ≤ value && value ≤ 1

/-- Floating numbers are compared by value.  A 32-bit number keeps its value when it is
widened to 64 bits, so that a number is judged alike in both widths. -/
def isPlainFloating (value : Decimal.FloatValue) : Bool :=
  value.equals (.finite false 0 0 false) || value.equals (.finite false 1 0 false)

/-- Whether a constant needs no name.  Constants that are not numbers never do. -/
def isPlain : Constant → Bool
  | .integer value => isPlainIntegral value.toInt64
  | .long value => isPlainIntegral value
  | .float bits => isPlainFloating (Decimal.single.value bits.toNat)
  | .double bits => isPlainFloating (Decimal.double.value bits.toNat)
  | .other _ => true

def literal? : Instruction → Option Constant
  | .push value => some (.integer value)
  | .loadConstant constant => if constant.isNumeric then some constant else none
  | _ => none

/-- The message for a magic number. -/
def message (constant : Constant) (method : String) : String :=
  "Magic number " ++ constant.text ++ " used in method '" ++ method ++
    "'. Consider extracting a named constant."

def findings (method : OpenMethod) (instruction : Instruction) : List String :=
  if method.isInitializer then []
  else
    match literal? instruction with
    | some constant => if isPlain constant then [] else [message constant method.name]
    | none => []

def react (scope : MethodScope) : Event → Reaction MethodScope
  | .classHeader _ => .next none
  | .field _ => .next scope
  | .methodStart method =>
      match scope.enter method with
      | .error fault => .fault scope fault
      | .ok opened => .next opened
  | .instruction instruction =>
      match scope.current .instruction with
      | .error fault => .fault scope fault
      | .ok method => .report scope (findings method instruction)
  | .methodEnd =>
      match scope.current .methodEnd with
      | .error fault => .fault scope fault
      | .ok _ => .next none
  | .classEnd =>
      match scope.ensureClosed with
      | .error fault => .fault scope fault
      | .ok () => .next scope

/-- The check for unexplained numbers. -/
def check : Check where
  name := "MagicNumber"
  State := MethodScope
  fresh := none
  reset _ := none
  react _ := react

end MagicNumber

end ClassLint
