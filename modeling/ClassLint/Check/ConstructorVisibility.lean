import ClassLint.Check.Basic

/-!
# Constructor visibility

A public class that is neither abstract nor an interface and declares
constructors should have a public or protected one.  The verdict waits for the
end of the class.
-/

namespace ClassLint

namespace ConstructorVisibility

/-- What is known of the class so far. -/
structure State where
  isPublic : Bool
  isAbstractOrInterface : Bool
  hasConstructor : Bool
  hasVisibleConstructor : Bool
  deriving DecidableEq, Repr

/-- Nothing is known before a class header. -/
def State.fresh : State := ⟨false, false, false, false⟩

/-- What is known right after a class header. -/
def State.ofHeader (header : ClassHeader) : State where
  isPublic := header.access.isPublic
  isAbstractOrInterface := header.access.isAbstract || header.access.isInterface
  hasConstructor := false
  hasVisibleConstructor := false

/-- What is known after one more constructor. -/
def State.addConstructor (state : State) (constructor : MethodDeclaration) : State :=
  { state with
    hasConstructor := true
    hasVisibleConstructor := state.hasVisibleConstructor ||
      constructor.access.isPublic || constructor.access.isProtected }

/-- Whether the class is to be reported. -/
def State.isHidden (state : State) : Bool :=
  state.isPublic && !state.isAbstractOrInterface && state.hasConstructor &&
    !state.hasVisibleConstructor

def react (state : State) : Event → Reaction State
  | .classHeader header => .next (State.ofHeader header)
  | .methodStart method =>
      .next (if method.isConstructor then state.addConstructor method else state)
  | .classEnd =>
      .report state
        (if state.isHidden then ["Public class has no public or protected constructors."]
          else [])
  | _ => .next state

/-- The check for public classes without a visible constructor. -/
def check : Check where
  name := "NonPublicConstructor"
  State := State
  fresh := .fresh
  reset _ := .fresh
  react _ := react

end ConstructorVisibility

end ClassLint
