import ClassLint.Config.Basic
import ClassLint.Document.Basic

/-!
# Configurations from documents

The settings of a configuration stand under their names, or in the order in
which they are declared.  A setting that is not given keeps its default.
-/

namespace ClassLint

namespace Config

/-- The greatest instruction limit. -/
def maxLimit : Nat := UInt64.size - 1

/-- The names of the settings, in the order in which they are declared. -/
def settingNames : List String :=
  ["max_instructions", "disabled_checks", "exclude", "null_return", "parallel"]

def nullReturnNames : List String := ["scan_initializers"]

/-- Read a limit. -/
def limit? {δ : Type} (view : Document.View δ) (value : δ) : Option Nat :=
  match view.natural? value with
  | some limit => if limit ≤ maxLimit then some limit else none
  | none => none

/-- Read the settings for null returns: whether initialisers are searched. -/
def nullReturn? {δ : Type} (view : Document.View δ) (default : Bool) (value : δ) :
    Option Bool := do
  let settings ← view.settings? nullReturnNames value
  Document.setting? settings "scan_initializers" default view.boolean?

/-- Read a configuration. -/
def ofDocument? {δ : Type} (view : Document.View δ) (document : δ) : Option Config := do
  let default : Config := {}
  let settings ← view.settings? settingNames document
  let maxInstructions ←
    Document.setting? settings "max_instructions" default.maxInstructions (limit? view)
  let disabledChecks ←
    Document.setting? settings "disabled_checks" default.disabledChecks view.texts?
  let exclude ← Document.setting? settings "exclude" default.exclude view.texts?
  let scanInitializers ←
    Document.setting? settings "null_return" default.scanInitializers
      (nullReturn? view default.scanInitializers)
  let parallel ← Document.setting? settings "parallel" default.parallel view.boolean?
  return ⟨maxInstructions, disabledChecks, exclude, scanInitializers, parallel⟩

end Config

end ClassLint
