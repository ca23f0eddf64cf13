import ClassLint.Check.Session
import ClassLint.Proofs.MethodTracking

/-!
# Faults change nothing

A check that stops at an event of a session may be driven on.  The built-in checks
then go on as if that event had not come: it has reported nothing and has left the
state as it was.  So events that stop a check can be deleted from what drives it,
and neither the reports nor the other stops change.
-/

namespace ClassLint

namespace Check

/-- Where the check stops it reports nothing and keeps its state. -/
def Atomic (check : Check) : Prop :=
  ∀ context state event, (check.react context state event).stop ≠ none →
    (check.react context state event).state = state ∧
      (check.react context state event).reports = []

theorem TracksScope.atomic {check : Check} (tracks : check.TracksScope) : check.Atomic := by
  intro context state event stops
  cases followEq : (tracks.scope state).follow event with
  | error fault =>
      rw [tracks.faults followEq]
      exact ⟨rfl, rfl⟩
  | ok next => exact absurd (tracks.goesOn followEq).1 stops

end Check

theorem UnusedField.atomic : UnusedField.check.Atomic := by
  intro context state event stops
  cases event with
  | field field =>
      cases nameEq : state.className with
      | none =>
          simp only [check, react, nameEq]
          exact ⟨rfl, rfl⟩
      | some name =>
          simp only [check, react, nameEq] at stops
          exact absurd rfl stops
  | instruction instruction => cases instruction <;> exact absurd rfl stops
  | classHeader _ | methodStart _ | methodEnd | classEnd => exact absurd rfl stops

theorem BuiltInCheck.atomic (config : Config) (check : BuiltInCheck) :
    (check.toCheck config).Atomic := by
  cases check with
  | namingConvention => exact fun _ _ _ stops => absurd rfl stops
  | constructorVisibility =>
      intro context state event stops
      cases event <;> exact absurd rfl stops
  | longMethod => exact (LongMethod.tracksScope config.maxInstructions).atomic
  | magicNumber => exact MagicNumber.tracksScope.atomic
  | unusedField => exact UnusedField.atomic
  | nullReturn => exact (NullReturn.tracksScope config.scanInitializers).atomic

namespace Session

/-- What drives a session: an event or a reset. -/
inductive Step where
  | event (event : Event)
  | reset
  deriving DecidableEq, Repr

variable {check : Check}

def step (session : Session check) : Step → Session check × Outcome
  | .event event => session.feed event
  | .reset => (session.reset, ⟨[], none⟩)

/-- The steps with their outcomes. -/
def log (session : Session check) : List Step → List (Step × Outcome)
  | [] => []
  | step :: steps => (step, (session.step step).2) :: (session.step step).1.log steps

/-- The session after some steps. -/
def driven (session : Session check) : List Step → Session check
  | [] => session
  | step :: steps => (session.step step).1.driven steps

/-- What is left of a log when some of the steps that stopped are deleted. -/
inductive Thinned : List (Step × Outcome) → List (Step × Outcome) → Prop
  | nil : Thinned [] []
  | keep {entry : Step × Outcome} {entries kept : List (Step × Outcome)}
      (thinned : Thinned entries kept) : Thinned (entry :: entries) (entry :: kept)
  | delete {entry : Step × Outcome} {entries kept : List (Step × Outcome)}
      (stops : entry.2.stop ≠ none) (thinned : Thinned entries kept) :
      Thinned (entry :: entries) kept

theorem thinned_filter (entries : List (Step × Outcome)) :
    Thinned entries (entries.filter fun entry => entry.2.stop = none) := by
  induction entries with
  | nil => exact .nil
  | cons entry entries ih =>
      by_cases goesOn : entry.2.stop = none
      · rw [List.filter_cons_of_pos (by simpa using goesOn)]
        exact .keep ih
      · rw [List.filter_cons_of_neg (by simpa using goesOn)]
        exact .delete goesOn ih

theorem feed_of_stop (atomic : check.Atomic) (session : Session check) {event : Event}
    (stops : (session.feed event).2.stop ≠ none) :
    (session.feed event).1 = session ∧ (session.feed event).2.reports = [] := by
  obtain ⟨stateEq, reportsEq⟩ := atomic ⟨session.className, session.reported⟩ _ event stops
  refine ⟨?_, reportsEq⟩
  simp only [feed, stateEq, reportsEq, List.length_nil, Nat.add_zero]

theorem step_of_stop (atomic : check.Atomic) (session : Session check) {step : Step}
    (stops : (session.step step).2.stop ≠ none) :
    (session.step step).1 = session ∧ (session.step step).2.reports = [] := by
  cases step with
  | event event => exact session.feed_of_stop atomic stops
  | reset => exact absurd rfl stops

/-- The steps that are left have the outcomes that they had, what is deleted has
reported nothing, and the same session is reached. -/
theorem log_of_thinned (atomic : check.Atomic) (session : Session check) (steps : List Step)
    {kept : List (Step × Outcome)} (thinned : Thinned (session.log steps) kept) :
    session.log (kept.map (·.1)) = kept ∧
      kept.flatMap (·.2.reports) = (session.log steps).flatMap (·.2.reports) ∧
      session.driven (kept.map (·.1)) = session.driven steps := by
  induction steps generalizing session kept with
  | nil =>
      cases thinned with
      | nil => exact ⟨rfl, rfl, rfl⟩
  | cons step steps ih =>
      cases thinned with
      | keep thinned =>
          obtain ⟨logEq, reportsEq, drivenEq⟩ := ih _ thinned
          simp only [List.map_cons, log, driven, List.flatMap_cons, logEq, reportsEq, drivenEq,
            and_self]
      | delete stops thinned =>
          -- The rest of the log starts from the same session as the deleted step did.
          obtain ⟨unchanged, silent⟩ := session.step_of_stop atomic stops
          rw [unchanged] at thinned
          rw [log, driven, List.flatMap_cons, unchanged, silent, List.nil_append]
          exact ih _ thinned

end Session

/-- Where a built-in check stops, it keeps its state and reports nothing.  So any
events that stop it can be deleted from what drives a session, in particular all of
them, and the steps that are left give the same reports and the same stops. -/
theorem BuiltInCheck.stops_deletable (config : Config) (check : BuiltInCheck) :
    (∀ context state event,
      ((check.toCheck config).react context state event).stop ≠ none →
        ((check.toCheck config).react context state event).state = state ∧
          ((check.toCheck config).react context state event).reports = []) ∧
    ∀ (session : Session (check.toCheck config)) (steps : List Session.Step),
      let entries := session.log steps
      Session.Thinned entries (entries.filter fun entry => entry.2.stop = none) ∧
      ∀ kept, Session.Thinned entries kept →
        session.log (kept.map (·.1)) = kept ∧
        kept.flatMap (·.2.reports) = entries.flatMap (·.2.reports) ∧
        session.driven (kept.map (·.1)) = session.driven steps := by
  refine ⟨check.atomic config, ?_⟩
  intro session steps entries
  refine ⟨Session.thinned_filter entries, ?_⟩
  intro kept thinned
  exact session.log_of_thinned (check.atomic config) steps thinned

/-- Steps at which the check for long methods stops five times. -/
def brokenSteps : List Session.Step :=
  [.event .methodEnd, .event (.methodStart ⟨"run", "()V", ⟨1⟩⟩),
    .event (.methodStart ⟨"next", "()V", ⟨1⟩⟩), .event (.instruction (.simple 0)),
    .event .classEnd, .event .methodEnd, .event .methodEnd, .reset,
    .event (.instruction (.simple 0))]

/-- The steps of `brokenSteps` at which it goes on. -/
def mendedSteps : List Session.Step :=
  [.event (.methodStart ⟨"run", "()V", ⟨1⟩⟩), .event (.instruction (.simple 0)),
    .event .methodEnd, .reset]

theorem BuiltInCheck.stops_deletable_brokenSteps :
    let config : Config := { maxInstructions := 0 }
    let check := BuiltInCheck.longMethod.toCheck config
    let session := Session.new check "Repo"
    (check.react ⟨"Repo", 0⟩ LongMethod.State.fresh .methodEnd).stop =
        some (.fault (.outsideMethod .methodEnd)) ∧
      (check.react ⟨"Repo", 0⟩ LongMethod.State.fresh .methodEnd).state =
        LongMethod.State.fresh ∧
      ((session.log brokenSteps).filter fun entry => entry.2.stop = none).map (·.1) =
        mendedSteps ∧
      (session.log mendedSteps).flatMap (·.2.reports) =
        (session.log brokenSteps).flatMap (·.2.reports) ∧
      (session.log mendedSteps).map (·.2.reports) =
        [[], [], ["Method 'run' has 1 bytecode instructions (limit 0)."], []] := by
  intro config check session
  have keptEq : ((session.log brokenSteps).filter fun entry => entry.2.stop = none).map (·.1) =
      mendedSteps := by decide +kernel
  obtain ⟨atomic, deletable⟩ := stops_deletable config .longMethod
  obtain ⟨thinned, same⟩ := deletable session brokenSteps
  obtain ⟨logEq, reportsEq, _⟩ := same _ thinned
  rw [keptEq] at logEq
  refine ⟨rfl, (atomic _ LongMethod.State.fresh .methodEnd nofun).1, keptEq, ?_, by decide +kernel⟩
  rw [logEq]
  exact reportsEq

end ClassLint
