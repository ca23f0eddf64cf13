import ClassLint.Check.Basic

/-!
# Unused fields

A private field counts as used when some instruction of its class accesses it
through the name of the class.  Fields of any wider access are not considered.
-/

namespace ClassLint

namespace UnusedField

/-- The name of the class, its private fields in the order of their
declarations, and the names that were accessed through the class. -/
structure State where
  className : Option String
  declared : List String
  used : List String
  deriving DecidableEq, Repr

/-- Before a class header nothing is declared. -/
def State.fresh : State := ⟨none, [], []⟩

/-- Add a private field, unless one of that name is there. -/
def State.declare (state : State) (name : String) : State :=
  if name ∈ state.declared then state
  else { state with declared := state.declared ++ [name] }

/-- Note that a name was accessed through the class. -/
def State.access (state : State) (name : String) : State :=
  if name ∈ state.used then state
  else { state with used := name :: state.used }

/-- The declared names that were not accessed. -/
def State.unused (state : State) : List String :=
  state.declared.filter (· ∉ state.used)

/-- The message for an unused field. -/
def message (name : String) : String :=
  "Private field '" ++ name ++ "' appears to be unused."

def react (state : State) : Event → Reaction State
  | .classHeader header => .next ⟨some header.name, [], []⟩
  | .field field =>
      match state.className with
      | none => .fault state (.missingHeader .field)
      | some _ =>
          .next (if field.access.isPrivate then state.declare field.name else state)
  | .instruction (.fieldAccess _ field) =>
      .next (if state.className = some field.owner then state.access field.name else state)
  | .classEnd => .report state (state.unused.map message)
  | _ => .next state

/-- The check for private fields that are never accessed. -/
def check : Check where
  name := "UnusedField"
  State := State
  fresh := .fresh
  reset _ := .fresh
  react _ := react

end UnusedField

end ClassLint
