import ClassLint.Check.Basic

/-!
# The open method

Checks that look into method bodies follow which method is open.  Methods do
not nest, instructions belong to an open method, and a class does not end
inside one.
-/

namespace ClassLint

/-- The method that is open in the event sequence. -/
structure OpenMethod where
  name : String
  /-- Whether it is a constructor or initialises the class. -/
  isInitializer : Bool
  deriving DecidableEq, Repr

/-- The open method, if there is one. -/
abbrev MethodScope := Option OpenMethod

namespace MethodScope

/-- Open a method. -/
def enter (scope : MethodScope) (method : MethodDeclaration) :
    Except CheckFault MethodScope :=
  match scope with
  | some current => .error (.unterminatedMethod current.name method.name)
  | none => .ok (some ⟨method.name, method.isInitializer⟩)

/-- The open method, needed by an event of some kind. -/
def current (scope : MethodScope) (kind : EventKind) : Except CheckFault OpenMethod :=
  match scope with
  | some current => .ok current
  | none => .error (.outsideMethod kind)

/-- Succeed if no method is open. -/
def ensureClosed (scope : MethodScope) : Except CheckFault Unit :=
  match scope with
  | some current => .error (.unclosedMethod current.name)
  | none => .ok ()

end MethodScope

end ClassLint
