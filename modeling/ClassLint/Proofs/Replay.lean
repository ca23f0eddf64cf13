import ClassLint.Check.Session
import ClassLint.Runner
import Mathlib.Data.List.Basic

/-!
# Replays and sessions

A replay feeds events to a check up to its first stop and gathers what it
reports on the way.  A session feeds all events, whatever happens.  This file
describes the first by the second: a replay reports what the session gives up to
the first stop, and then the fault.
-/

namespace ClassLint

namespace Session

variable {check : Check}

/-- What a session gives for events fed one after the other. -/
def outcomes (session : Session check) : List Event → List Outcome
  | [] => []
  | event :: events => (session.feed event).2 :: (session.feed event).1.outcomes events

/-- The session after events fed one after the other. -/
def after (session : Session check) : List Event → Session check
  | [] => session
  | event :: events => (session.feed event).1.after events

theorem outcomes_append (session : Session check) (first second : List Event) :
    session.outcomes (first ++ second) =
      session.outcomes first ++ (session.after first).outcomes second := by
  induction first generalizing session with
  | nil => rfl
  | cons event first ih =>
      simp only [List.cons_append, outcomes, after]
      rw [ih]

theorem after_append (session : Session check) (first second : List Event) :
    session.after (first ++ second) = (session.after first).after second := by
  induction first generalizing session with
  | nil => rfl
  | cons event first ih => exact ih (session.feed event).1

namespace Outcome

/-- The messages of a check that is stopped where it first stops: the reports up
to there and, if it stopped, the fault. -/
inductive Reported (outcomes : List Outcome) : List String → Prop
  | finished (goOn : ∀ outcome ∈ outcomes, outcome.stop = none) :
      Reported outcomes (outcomes.flatMap (·.reports))
  | stopped {earlier later : List Outcome} {last : Outcome} {stop : Stop}
      (outcomesEq : outcomes = earlier ++ last :: later)
      (goOn : ∀ outcome ∈ earlier, outcome.stop = none) (stops : last.stop = some stop) :
      Reported outcomes (earlier.flatMap (·.reports) ++ last.reports ++
        ["Check failed: " ++ stop.toFault.message])

theorem Reported.cons {outcome : Outcome} {outcomes : List Outcome} {messages : List String}
    (goesOn : outcome.stop = none) (reported : Reported outcomes messages) :
    Reported (outcome :: outcomes) (outcome.reports ++ messages) := by
  cases reported with
  | finished laterGoOn =>
      have allGoOn : ∀ other ∈ outcome :: outcomes, other.stop = none := by
        simpa using ⟨goesOn, laterGoOn⟩
      simpa using Reported.finished allGoOn
  | @stopped earlier later last stop outcomesEq earlierGoOn stops =>
      have allGoOn : ∀ other ∈ outcome :: earlier, other.stop = none := by
        simpa using ⟨goesOn, earlierGoOn⟩
      have allEq : outcome :: outcomes = (outcome :: earlier) ++ last :: later := by
        rw [outcomesEq]
        rfl
      simpa using Reported.stopped allEq allGoOn stops

theorem Reported.of_stop {outcome : Outcome} {outcomes : List Outcome} {stop : Stop}
    (stops : outcome.stop = some stop) :
    Reported (outcome :: outcomes)
      (outcome.reports ++ ["Check failed: " ++ stop.toFault.message]) := by
  have allEq : outcome :: outcomes = [] ++ outcome :: outcomes := rfl
  simpa using Reported.stopped allEq (by simp) stops

end Outcome

end Session

namespace Check

variable {check : Check} (session : Session check) {event : Event}

theorem replayFrom_of_stop {stop : Stop} (stops : (session.feed event).2.stop = some stop)
    (reports : List String) (events : List Event) :
    check.replayFrom session.className session.state session.reported reports
        (event :: events) =
      ⟨(session.feed event).1.state, reports.reverse ++ (session.feed event).2.reports,
        some stop⟩ := by
  simp only [Session.feed] at stops
  rw [replayFrom]
  simp only [stops, Session.feed, List.reverse_append, List.reverse_reverse]

theorem replayFrom_of_goesOn (goesOn : (session.feed event).2.stop = none)
    (reports : List String) (events : List Event) :
    check.replayFrom session.className session.state session.reported reports
        (event :: events) =
      check.replayFrom (session.feed event).1.className (session.feed event).1.state
        (session.feed event).1.reported ((session.feed event).2.reports.reverse ++ reports)
        events := by
  simp only [Session.feed] at goesOn
  rw [replayFrom]
  simp only [goesOn, Session.feed]

/-- The messages of a replay: its reports, and the fault if there was one. -/
def Replay.messages (replay : Replay check) : List String :=
  replay.reports ++ replay.stop.toList.map failureMessage

/-- A replay reports what a session gives up to its first stop.  The induction is
on the events, for every session and every list of earlier reports. -/
theorem replayFrom_reported (reports : List String) (events : List Event) :
    ∃ messages, Session.Outcome.Reported (session.outcomes events) messages ∧
      (check.replayFrom session.className session.state session.reported reports
        events).messages = reports.reverse ++ messages := by
  induction events generalizing session reports with
  | nil =>
      exact ⟨[], .finished (by simp [Session.outcomes]), by simp [replayFrom, Replay.messages]⟩
  | cons event events ih =>
      cases stopEq : (session.feed event).2.stop with
      | some stop =>
          refine ⟨_, .of_stop stopEq, ?_⟩
          rw [replayFrom_of_stop session stopEq]
          simp only [Replay.messages, Option.toList_some, List.map_cons, List.map_nil,
            List.append_assoc]
          rfl
      | none =>
          obtain ⟨messages, reported, messagesEq⟩ :=
            ih (session.feed event).1 ((session.feed event).2.reports.reverse ++ reports)
          refine ⟨_, .cons stopEq reported, ?_⟩
          rw [replayFrom_of_goesOn session stopEq, messagesEq]
          simp

/-- A replay stops exactly if some outcome of the session stops. -/
theorem replayFrom_stop_eq_none_iff (reports : List String) (events : List Event) :
    (check.replayFrom session.className session.state session.reported reports events).stop =
        none ↔
      ∀ outcome ∈ session.outcomes events, outcome.stop = none := by
  induction events generalizing session reports with
  | nil => simp [replayFrom, Session.outcomes]
  | cons event events ih =>
      cases stopEq : (session.feed event).2.stop with
      | some stop =>
          rw [replayFrom_of_stop session stopEq]
          simp [Session.outcomes, stopEq]
      | none =>
          rw [replayFrom_of_goesOn session stopEq, ih]
          simp [Session.outcomes, stopEq]

end Check

end ClassLint
