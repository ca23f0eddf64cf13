import ClassLint.Proofs.Replay
import Mathlib.Data.List.Induction

/-!
# What came before an event

Checks may be fed events in any order.  What a check does at an event is then a
matter of the events since the latest class header, and this file gives the
induction for that: over events among which there is no header.
-/

namespace ClassLint

/-- There is no class header among the events. -/
def HeaderFree (events : List Event) : Prop :=
  ∀ event ∈ events, event.kind ≠ .classHeader

instance : DecidablePred HeaderFree := fun events =>
  inferInstanceAs (Decidable (∀ event ∈ events, event.kind ≠ .classHeader))

namespace Session

variable {check : Check}

theorem length_outcomes (session : Session check) (events : List Event) :
    (session.outcomes events).length = events.length := by
  induction events generalizing session with
  | nil => rfl
  | cons event events ih => rw [outcomes, List.length_cons, ih, List.length_cons]

/-- Each event has its outcome in its place. -/
theorem getElem?_outcomes (session : Session check) (past later : List Event) (event : Event) :
    (session.outcomes (past ++ event :: later))[past.length]? =
      some ((session.after past).feed event).2 := by
  have lengthEq := session.length_outcomes past
  rw [outcomes_append, List.getElem?_append_right (Nat.le_of_eq lengthEq), lengthEq,
    Nat.sub_self]
  rfl

/-- A condition on the events so far and the state that every event but a header
keeps holds after any events without a header. -/
theorem after_headerFree (session : Session check) (holds : List Event → check.State → Prop)
    (start : holds [] session.state)
    (step : ∀ past event context state, event.kind ≠ .classHeader → holds past state →
      holds (past ++ [event]) (check.react context state event).state)
    {events : List Event} (headerFree : HeaderFree events) :
    holds events (session.after events).state := by
  induction events using List.reverseRecOn with
  | nil => exact start
  | append_singleton past event ih =>
      have pastFree : HeaderFree past := fun other member =>
        headerFree other (List.mem_append_left _ member)
      have notHeader : event.kind ≠ .classHeader := headerFree event (by simp)
      rw [after_append]
      exact step past event _ _ notHeader (ih pastFree)

/-- The same from the latest header on, if a header leads to states in which the
condition holds at the start. -/
theorem after_latestHeader (session : Session check)
    (holds : List Event → check.State → Prop) {header : ClassHeader}
    (start : ∀ context state,
      holds [] (check.react context state (.classHeader header)).state)
    (step : ∀ past event context state, event.kind ≠ .classHeader → holds past state →
      holds (past ++ [event]) (check.react context state event).state)
    (before : List Event) {since : List Event}
    (headerFree : HeaderFree since) :
    holds since (session.after (before ++ .classHeader header :: since)).state := by
  rw [after_append]
  exact after_headerFree _ holds (start _ _) step headerFree

end Session

end ClassLint
