/-!
# Configuration

What a run may be told: the instruction limit, checks to leave out, paths to
leave out, whether initialisers are searched for null returns, and whether
files are analysed in parallel.
-/

namespace ClassLint

/-- The settings of a run. -/
structure Config where
  maxInstructions : Nat := 50
  disabledChecks : List String := []
  exclude : List String := []
  scanInitializers : Bool := true
  parallel : Bool := true
  deriving DecidableEq, Repr

/-- Whether a check is not left out. -/
def Config.isEnabled (config : Config) (check : String) : Bool :=
  check ∉ config.disabledChecks

end ClassLint
