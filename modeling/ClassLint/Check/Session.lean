import ClassLint.Check.Basic

/-!
# Sessions

A check can be driven without a runner: events and resets are fed to one
instance under one class name, and feeding goes on after a fault.
-/

namespace ClassLint

/-- An instance of a check under one class name, with the number of findings it
has reported so far. -/
structure Session (check : Check) where
  className : String
  state : check.State
  reported : Nat

namespace Session

/-- What one step of a session gave: the messages reported and the stop, if
there was one. -/
structure Outcome where
  reports : List String
  stop : Option Stop
  deriving DecidableEq, Repr

def new (check : Check) (className : String) : Session check :=
  ⟨className, check.fresh, 0⟩

/-- Forget what the events so far left behind.  The count of findings stays. -/
def reset {check : Check} (session : Session check) : Session check :=
  { session with state := check.reset session.state }

def feed {check : Check} (session : Session check) (event : Event) :
    Session check × Outcome :=
  let reaction := check.react ⟨session.className, session.reported⟩ session.state event
  ({ session with
      state := reaction.state
      reported := session.reported + reaction.reports.length },
    ⟨reaction.reports, reaction.stop⟩)

end Session

end ClassLint
