import ClassLint.Check.MethodScope
import ClassLint.ClassFile.Code

/-!
# Null returns

A method returns null directly when an instruction that pushes null is followed
at once by the return of a reference.  Each method is reported once at most, at
its end.
-/

namespace ClassLint

namespace NullReturn

/-- The open method, whether its latest instruction pushed null, and whether a
null return was seen in it. -/
structure State where
  scope : MethodScope
  sawNull : Bool
  flagged : Bool
  deriving DecidableEq, Repr

/-- No method is open and nothing was seen. -/
def State.fresh : State := ⟨none, false, false⟩

/-- The state after one more instruction of the open method. -/
def State.scan (state : State) (instruction : Instruction) : State :=
  if instruction = .simple Opcode.aconstNull then { state with sawNull := true }
  else if instruction = .simple Opcode.areturn ∧ state.sawNull then
    { state with flagged := true, sawNull := false }
  else { state with sawNull := false }

/-- The message for a method that returns null. -/
def message (name : String) : String :=
  "Method '" ++ name ++ "' returns null directly."

def react (scanInitializers : Bool) (state : State) : Event → Reaction State
  | .classHeader _ => .next .fresh
  | .field _ => .next state
  | .methodStart method =>
      match state.scope.enter method with
      | .error fault => .fault state fault
      | .ok scope => .next ⟨scope, false, false⟩
  | .instruction instruction =>
      match state.scope.current .instruction with
      | .error fault => .fault state fault
      | .ok method =>
          .next (if method.isInitializer && !scanInitializers then state
            else state.scan instruction)
  | .methodEnd =>
      match state.scope.current .methodEnd with
      | .error fault => .fault state fault
      | .ok method =>
          .report { state with scope := none }
            (if state.flagged then [message method.name] else [])
  | .classEnd =>
      match state.scope.ensureClosed with
      | .error fault => .fault state fault
      | .ok () => .next state

/-- The check for methods that return null.  Constructors and static
initialisers are looked at if `scanInitializers` says so. -/
def check (scanInitializers : Bool) : Check where
  name := "NullReturn"
  State := State
  fresh := .fresh
  reset _ := .fresh
  react _ := react scanInitializers

end NullReturn

end ClassLint
