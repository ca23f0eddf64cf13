/-!
# Documents

A configuration document can be written in more than one format, each with its
own type of values.  What the settings need of such a value is gathered in a
view: how it reads as a truth value, as a number, as a text, as a list, or as a
record of named settings.
-/

namespace ClassLint

namespace Document

/-- A value read as a record: settings under their names, or settings in the
order in which they are declared. -/
inductive Record (δ : Type) where
  | named (members : List (String × δ))
  | positional (values : List δ)

/-- How the values of a format are read.  Each reading fails on a value of
another kind. -/
structure View (δ : Type) where
  boolean? : δ → Option Bool
  natural? : δ → Option Nat
  text? : δ → Option String
  items? : δ → Option (List δ)
  record? : δ → Option (Record δ)
  /-- Whether a value under an unknown name may be passed over. -/
  skippable : δ → Bool
  /-- Whether values after the last declared setting are passed over. -/
  allowsSurplus : Bool

namespace View

variable {δ : Type} (view : View δ)

/-- The settings of a record, under the declared names.  A declared name may
stand only once; other names are passed over. -/
def settings? (names : List String) (document : δ) : Option (List (String × δ)) :=
  match view.record? document with
  | some (.named members) =>
      let known : List (String × δ) := members.filter fun member => member.1 ∈ names
      let unknown : List (String × δ) := members.filter fun member => member.1 ∉ names
      if (known.map Prod.fst).Nodup ∧ unknown.all (fun member => view.skippable member.2) then
        some known
      else none
  | some (.positional values) =>
      if values.length ≤ names.length ∨ view.allowsSurplus then some (names.zip values)
      else none
  | none => none

def texts? (value : δ) : Option (List String) :=
  match view.items? value with
  | some items => items.mapM view.text?
  | none => none

end View

/-- The value of a setting: the default if it is not given, and otherwise what
it reads as. -/
def setting? {δ α : Type} (settings : List (String × δ)) (name : String) (default : α)
    (read? : δ → Option α) : Option α :=
  match List.lookup name settings with
  | some value => read? value
  | none => some default

end Document

end ClassLint
