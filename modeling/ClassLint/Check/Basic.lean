import ClassLint.ClassFile.Event

/-!
# Checks

A check is a state machine that is fed the events of a class one at a time.  At
each event it may report findings, and it may stop: because the events are out
of order, or because it crashed.
-/

namespace ClassLint

/-- Why a check could not evaluate a class. -/
inductive CheckFault where
  /-- An event of a method body came while no method was open. -/
  | outsideMethod (kind : EventKind)
  /-- A method started while another one was open. -/
  | unterminatedMethod (current next : String)
  /-- The class ended while a method was open. -/
  | unclosedMethod (name : String)
  /-- An event that needs the class header came before it. -/
  | missingHeader (kind : EventKind)
  /-- The check crashed. -/
  | crashed (message : String)
  deriving DecidableEq, Repr

def CheckFault.message : CheckFault → String
  | .outsideMethod kind => kind.text ++ " event outside of a method body"
  | .unterminatedMethod current next =>
      "method '" ++ next ++ "' started before '" ++ current ++ "' ended"
  | .unclosedMethod name => "class ended while method '" ++ name ++ "' was still open"
  | .missingHeader kind => kind.text ++ " event before the class header"
  | .crashed message => "check panicked: " ++ message

/-- How a check may stop at an event. -/
inductive Stop where
  | fault (cause : CheckFault)
  /-- A crash, with its message if it has one. -/
  | crash (message : Option String)
  deriving DecidableEq, Repr

def Stop.toFault : Stop → CheckFault
  | .fault cause => cause
  | .crash message => .crashed (message.getD "unknown panic")

/-- What a check may know about its surroundings: the simple name of the class,
and how many findings it has reported so far. -/
structure CheckContext where
  className : String
  reported : Nat
  deriving DecidableEq, Repr

/-- What a check does at an event: its next state, the messages it reports, and
whether it stops. -/
structure Reaction (σ : Type) where
  state : σ
  reports : List String
  stop : Option Stop
  deriving DecidableEq, Repr

namespace Reaction

/-- Go on in a state without a report. -/
def next {σ : Type} (state : σ) : Reaction σ := ⟨state, [], none⟩

/-- Go on in a state and report messages. -/
def report {σ : Type} (state : σ) (messages : List String) : Reaction σ :=
  ⟨state, messages, none⟩

/-- Stop with a fault in a state. -/
def fault {σ : Type} (state : σ) (cause : CheckFault) : Reaction σ :=
  ⟨state, [], some (.fault cause)⟩

end Reaction

/-- A check: its name, its states, and how it reacts to events.  `fresh` is the
state of a new instance, and `reset` forgets what earlier classes left behind. -/
structure Check where
  name : String
  State : Type
  fresh : State
  reset : State → State
  react : CheckContext → State → Event → Reaction State

end ClassLint
