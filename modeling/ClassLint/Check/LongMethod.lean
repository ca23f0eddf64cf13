import ClassLint.Check.MethodScope

/-!
# Long methods

A method is too long when it has more instructions than a limit.  Every
instruction counts as one.  Constructors and static initialisers are not
measured.
-/

namespace ClassLint

namespace LongMethod

/-- The open method and the number of its instructions so far. -/
structure State where
  scope : MethodScope
  count : Nat
  deriving DecidableEq, Repr

/-- No method is open and nothing is counted. -/
def State.fresh : State := ⟨none, 0⟩

/-- The message for a method with too many instructions. -/
def message (name : String) (count limit : Nat) : String :=
  "Method '" ++ name ++ "' has " ++ toString count ++ " bytecode instructions (limit " ++
    toString limit ++ ")."

def react (limit : Nat) (state : State) : Event → Reaction State
  | .classHeader _ => .next .fresh
  | .field _ => .next state
  | .methodStart method =>
      match state.scope.enter method with
      | .error fault => .fault state fault
      | .ok scope => .next ⟨scope, 0⟩
  | .instruction _ =>
      match state.scope.current .instruction with
      | .error fault => .fault state fault
      | .ok method =>
          .next (if method.isInitializer then state else { state with count := state.count + 1 })
  | .methodEnd =>
      match state.scope.current .methodEnd with
      | .error fault => .fault state fault
      | .ok method =>
          .report { state with scope := none }
            (if !method.isInitializer && limit < state.count then
              [message method.name state.count limit]
            else [])
  | .classEnd =>
      match state.scope.ensureClosed with
      | .error fault => .fault state fault
      | .ok () => .next state

/-- The check for methods with more than `limit` instructions. -/
def check (limit : Nat) : Check where
  name := "LongMethod"
  State := State
  fresh := .fresh
  reset _ := .fresh
  react _ := react limit

end LongMethod

end ClassLint
