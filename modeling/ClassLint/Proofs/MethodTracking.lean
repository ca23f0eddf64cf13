import ClassLint.Check.BuiltIn

/-!
# Checks that track the open method

Three of the built-in checks look into method bodies, and all three follow the
open method in the same way.  `MethodScope.follow` is that way alone, without what
a check counts or reports: it says which method is open after an event, or which
fault the event causes.
-/

namespace ClassLint

namespace MethodScope

/-- The scope after an event, or the fault of an event that is out of order. -/
def follow (scope : MethodScope) : Event → Except CheckFault MethodScope
  | .classHeader _ => .ok none
  | .field _ => .ok scope
  | .methodStart method => scope.enter method
  | .instruction _ => (scope.current .instruction).map fun _ => scope
  | .methodEnd => (scope.current .methodEnd).map fun _ => none
  | .classEnd => scope.ensureClosed.map fun _ => scope

/-- A reaction obeys a scope that is followed beside it if it goes on where that
gives a scope, with this scope, and else faults and changes nothing. -/
inductive Obeys {σ : Type} (scope : σ → MethodScope) (state : σ) :
    Except CheckFault MethodScope → Reaction σ → Prop
  | goesOn {next : MethodScope} {reaction : Reaction σ} (stopEq : reaction.stop = none)
      (scopeEq : scope reaction.state = next) : Obeys scope state (.ok next) reaction
  | faults (fault : CheckFault) : Obeys scope state (.error fault) (.fault state fault)

end MethodScope

/-- A check that keeps the open method in its state and does with it at every
event what the scope alone does. -/
structure Check.TracksScope (check : Check) where
  scope : check.State → MethodScope
  obeys (context : CheckContext) (state : check.State) (event : Event) :
    MethodScope.Obeys scope state ((scope state).follow event)
      (check.react context state event)

theorem Check.TracksScope.goesOn {check : Check} (tracks : check.TracksScope)
    {context : CheckContext} {state : check.State} {event : Event} {next : MethodScope}
    (followEq : (tracks.scope state).follow event = .ok next) :
    (check.react context state event).stop = none ∧
      tracks.scope (check.react context state event).state = next := by
  have obeys := tracks.obeys context state event
  rw [followEq] at obeys
  cases obeys with
  | goesOn stopEq scopeEq => exact ⟨stopEq, scopeEq⟩

theorem Check.TracksScope.faults {check : Check} (tracks : check.TracksScope)
    {context : CheckContext} {state : check.State} {event : Event} {fault : CheckFault}
    (followEq : (tracks.scope state).follow event = .error fault) :
    check.react context state event = .fault state fault := by
  have obeys := tracks.obeys context state event
  rw [followEq] at obeys
  generalize check.react context state event = reaction at obeys ⊢
  cases obeys with
  | faults => rfl

def LongMethod.tracksScope (limit : Nat) : (LongMethod.check limit).TracksScope where
  scope (state : State) := state.scope
  obeys _ state event := by
    rcases state with ⟨_ | method, count⟩
    · cases event with
      | classHeader _ | field _ | methodStart _ | classEnd => exact .goesOn rfl rfl
      | instruction _ | methodEnd => exact .faults _
    · cases event with
      | classHeader _ | field _ | methodEnd => exact .goesOn rfl rfl
      | instruction instruction =>
          refine .goesOn rfl ?_
          dsimp only [check, react, MethodScope.current, Reaction.next]
          split <;> rfl
      | methodStart _ | classEnd => exact .faults _

def MagicNumber.tracksScope : MagicNumber.check.TracksScope where
  scope (scope : MethodScope) := scope
  obeys _ scope event := by
    rcases scope with _ | method
    · cases event with
      | classHeader _ | field _ | methodStart _ | classEnd => exact .goesOn rfl rfl
      | instruction _ | methodEnd => exact .faults _
    · cases event with
      | classHeader _ | field _ | instruction _ | methodEnd => exact .goesOn rfl rfl
      | methodStart _ | classEnd => exact .faults _

theorem NullReturn.scope_scan (state : State) (instruction : Instruction) :
    (state.scan instruction).scope = state.scope := by
  unfold State.scan
  split
  · rfl
  · split <;> rfl

def NullReturn.tracksScope (scanInitializers : Bool) :
    (NullReturn.check scanInitializers).TracksScope where
  scope (state : State) := state.scope
  obeys _ state event := by
    rcases state with ⟨_ | method, sawNull, flagged⟩
    · cases event with
      | classHeader _ | field _ | methodStart _ | classEnd => exact .goesOn rfl rfl
      | instruction _ | methodEnd => exact .faults _
    · cases event with
      | classHeader _ | field _ | methodEnd => exact .goesOn rfl rfl
      | instruction instruction =>
          refine .goesOn rfl ?_
          dsimp only [check, react, MethodScope.current, Reaction.next]
          split
          · rfl
          · rw [scope_scan]
      | methodStart _ | classEnd => exact .faults _

end ClassLint
