import ClassLint.Check.BuiltIn
import ClassLint.Proofs.Replay

/-!
# Class headers start afresh

A runner resets a check before each class.  This file shows that the header of a
class would do: from it on, a built-in check gives the same in whatever state it
was, after faults or inside of a method.  So one instance that is fed several
classes without a reset gives on each of them what a new instance gives.
-/

namespace ClassLint

/-- The events begin with a class header. -/
def HeaderLed (events : List Event) : Prop :=
  ∃ header since, events = .classHeader header :: since

namespace Check

/-- The reactions do not depend on the name of the class and the count of findings. -/
def IgnoresContext (check : Check) : Prop :=
  ∀ first second state event, check.react first state event = check.react second state event

/-- The reactions to class headers do not depend on the state. -/
def RestartsAtHeader (check : Check) : Prop :=
  ∀ context first second header,
    check.react context first (.classHeader header) =
      check.react context second (.classHeader header)

end Check

namespace Session

variable {check : Check}

/-- Two sessions give the same reports and stops on some events and end in the same
state. -/
def Agree (first second : Session check) (events : List Event) : Prop :=
  first.outcomes events = second.outcomes events ∧
    (first.after events).state = (second.after events).state

theorem Agree.cons {first second : Session check} {event : Event} {events : List Event}
    (reactEq : check.react ⟨first.className, first.reported⟩ first.state event =
      check.react ⟨second.className, second.reported⟩ second.state event)
    (agree : (first.feed event).1.state = (second.feed event).1.state →
      Agree (first.feed event).1 (second.feed event).1 events) :
    Agree first second (event :: events) := by
  have stateEq : (first.feed event).1.state = (second.feed event).1.state := by
    simp only [feed, reactEq]
  have outcomeEq : (first.feed event).2 = (second.feed event).2 := by
    simp only [feed, reactEq]
  obtain ⟨outcomesEq, afterEq⟩ := agree stateEq
  exact ⟨congrArg₂ List.cons outcomeEq outcomesEq, afterEq⟩

theorem agree_of_state_eq (ignores : check.IgnoresContext) {first second : Session check}
    (stateEq : first.state = second.state) (events : List Event) :
    Agree first second events := by
  induction events generalizing first second with
  | nil => exact ⟨rfl, stateEq⟩
  | cons event events ih =>
      apply Agree.cons _ ih
      rw [stateEq]
      exact ignores _ _ _ _

theorem agree_of_headerLed (ignores : check.IgnoresContext) (restarts : check.RestartsAtHeader)
    (first second : Session check) {events : List Event} (headerLed : HeaderLed events) :
    Agree first second events := by
  obtain ⟨header, since, rfl⟩ := headerLed
  -- All states react alike to the header, and it leaves them equal.
  apply Agree.cons
  · exact (ignores _ _ _ _).trans (restarts _ _ _ _)
  · intro stateEq
    exact agree_of_state_eq ignores stateEq since

theorem outcomes_flatten (ignores : check.IgnoresContext) (restarts : check.RestartsAtHeader)
    (session : Session check) (className : List Event → String) {classes : List (List Event)}
    (headerLed : ∀ events ∈ classes, HeaderLed events) :
    session.outcomes classes.flatten =
      classes.flatMap fun events => (new check (className events)).outcomes events := by
  induction classes generalizing session with
  | nil => rfl
  | cons events classes ih =>
      obtain ⟨firstLed, restLed⟩ := List.forall_mem_cons.mp headerLed
      rw [List.flatten_cons, List.flatMap_cons, outcomes_append, ih _ restLed,
        (agree_of_headerLed ignores restarts session (new check (className events)) firstLed).1]

end Session

namespace BuiltInCheck

theorem ignoresContext (config : Config) (check : BuiltInCheck) :
    (check.toCheck config).IgnoresContext := by
  cases check <;> exact fun _ _ _ _ => rfl

theorem restartsAtHeader (config : Config) (check : BuiltInCheck) :
    (check.toCheck config).RestartsAtHeader := by
  cases check <;> exact fun _ _ _ _ => rfl

/-- From a class header on a built-in check gives the same reports and stops in all
states.  So one instance that is fed any number of classes without a reset gives on
them, one after the other, what new instances give. -/
theorem headerLed_forgets (config : Config) (check : BuiltInCheck) :
    (∀ (first second : Session (check.toCheck config)) (events : List Event),
      HeaderLed events → Session.Agree first second events) ∧
    ∀ (session : Session (check.toCheck config)) (className : List Event → String)
      (classes : List (List Event)), (∀ events ∈ classes, HeaderLed events) →
        session.outcomes classes.flatten =
          classes.flatMap fun events =>
            (Session.new (check.toCheck config) (className events)).outcomes events := by
  have ignores := check.ignoresContext config
  have restarts := check.restartsAtHeader config
  constructor
  · intro first second events headerLed
    exact Session.agree_of_headerLed ignores restarts first second headerLed
  · intro session className classes headerLed
    exact session.outcomes_flatten ignores restarts className headerLed

/-- Events that leave a method open and one instruction counted. -/
def openHistory : List Event :=
  [.classHeader ⟨"pkg/Old", ⟨33⟩, none, []⟩, .methodStart ⟨"run", "()V", ⟨1⟩⟩,
    .instruction (.simple 0), .classEnd]

/-- A class with an instruction outside of its method. -/
def strayClass : List Event :=
  [.classHeader ⟨"pkg/New", ⟨33⟩, none, []⟩, .instruction (.simple 0),
    .methodStart ⟨"next", "()V", ⟨1⟩⟩, .methodEnd, .classEnd]

theorem headerLed_forgets_openHistory :
    let check := BuiltInCheck.longMethod.toCheck { maxInstructions := 0 }
    let used := (Session.new check "Old").after openHistory
    used.state = (⟨some ⟨"run", false⟩, 1⟩ : LongMethod.State) ∧
      HeaderLed strayClass ∧
      used.outcomes strayClass = (Session.new check "New").outcomes strayClass ∧
      (used.outcomes [strayClass, strayClass].flatten).map (·.stop) =
        [none, some (.fault (.outsideMethod .instruction)), none, none, none,
          none, some (.fault (.outsideMethod .instruction)), none, none, none] := by
  intro check used
  have headerLed : HeaderLed strayClass := ⟨_, _, rfl⟩
  have allLed : ∀ events ∈ [strayClass, strayClass], HeaderLed events := by simp [headerLed]
  obtain ⟨agree, concatenates⟩ := headerLed_forgets { maxInstructions := 0 } .longMethod
  refine ⟨rfl, headerLed, (agree used (Session.new check "New") strayClass headerLed).1, ?_⟩
  rw [concatenates used (fun _ => "New") [strayClass, strayClass] allLed]
  decide

end BuiltInCheck

end ClassLint
