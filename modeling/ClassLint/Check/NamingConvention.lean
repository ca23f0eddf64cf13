import ClassLint.Check.Basic
import ClassLint.Text.LetterCase

/-!
# Naming convention

Class names start with an uppercase letter, method and field names with a
lowercase one.  Constructors, static initialisers and empty names are exempt.
-/

namespace ClassLint

namespace NamingConvention

/-- Whether a name has a first character and it fails a test. -/
def startsOtherwise (name : String) (expected : Char → Bool) : Bool :=
  match name.toList with
  | [] => false
  | first :: _ => !expected first

/-- The messages for one event. -/
def findings : Event → List String
  | .classHeader header =>
      if startsOtherwise header.simpleName LetterCase.isUppercase then
        ["Class name should start with an uppercase letter."]
      else []
  | .methodStart method =>
      if !method.isInitializer && startsOtherwise method.name LetterCase.isLowercase then
        ["Method '" ++ method.name ++ "' should start with a lowercase letter."]
      else []
  | .field field =>
      if startsOtherwise field.name LetterCase.isLowercase then
        ["Field '" ++ field.name ++ "' should start with a lowercase letter."]
      else []
  | _ => []

/-- The check for the case of names. -/
def check : Check where
  name := "NamingConvention"
  State := Unit
  fresh := ()
  reset := id
  react _ state event := .report state (findings event)

end NamingConvention

end ClassLint
