import ClassLint.Check.ConstructorVisibility
import ClassLint.Check.LongMethod
import ClassLint.Check.MagicNumber
import ClassLint.Check.NamingConvention
import ClassLint.Check.NullReturn
import ClassLint.Check.UnusedField
import ClassLint.Config.Basic

/-!
# The built-in checks

There are six built-in checks, always run in the same order.  A configuration
can leave some out and sets the parameters of two.
-/

namespace ClassLint

/-- The built-in checks. -/
inductive BuiltInCheck where
  | namingConvention
  | constructorVisibility
  | longMethod
  | magicNumber
  | unusedField
  | nullReturn
  deriving DecidableEq, Repr

namespace BuiltInCheck

/-- The built-in checks in the order in which they run. -/
def all : List BuiltInCheck :=
  [.namingConvention, .constructorVisibility, .longMethod, .magicNumber, .unusedField,
    .nullReturn]

/-- The check with the parameters that a configuration gives it. -/
def toCheck (config : Config) : BuiltInCheck → Check
  | .namingConvention => NamingConvention.check
  | .constructorVisibility => ConstructorVisibility.check
  | .longMethod => LongMethod.check config.maxInstructions
  | .magicNumber => MagicNumber.check
  | .unusedField => UnusedField.check
  | .nullReturn => NullReturn.check config.scanInitializers

/-- The name of a check, which its parameters do not change. -/
def name (check : BuiltInCheck) : String :=
  (check.toCheck {}).name

/-- The names of the built-in checks in the order in which they run. -/
def names : List String :=
  all.map name

def ofName? (text : String) : Option BuiltInCheck :=
  all.find? (·.name == text)

/-- The checks that a configuration does not leave out. -/
def enabled (config : Config) : List Check :=
  (all.filter fun check => config.isEnabled check.name).map (·.toCheck config)

end BuiltInCheck

end ClassLint
