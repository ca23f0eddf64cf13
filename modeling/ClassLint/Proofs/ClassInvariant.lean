import ClassLint.Proofs.ClassOutline
import ClassLint.Proofs.MethodTracking
import ClassLint.Proofs.Replay

/-!
# Checks along a class

This file shows that a check gets through the events of every class without a
stop.  What has to be shown of the check is about single events: one condition
holds of its states between methods and one inside of them, and each event that
may come next leads from one to the other.
-/

namespace ClassLint

namespace Check

variable {check : Check} {before middle after : check.State → Prop}

/-- From each state in which `before` holds the check takes the events without a
stop, into a state in which `after` holds. -/
def Accepts (check : Check) (before : check.State → Prop) (events : List Event)
    (after : check.State → Prop) : Prop :=
  ∀ session : Session check, before session.state →
    (∀ outcome ∈ session.outcomes events, outcome.stop = none) ∧
      after (session.after events).state

theorem accepts_singleton {event : Event}
    (goesOn : ∀ context state, before state →
      (check.react context state event).stop = none ∧
        after (check.react context state event).state) :
    check.Accepts before [event] after := by
  intro session holds
  obtain ⟨stopEq, holdsAfter⟩ := goesOn ⟨session.className, session.reported⟩ _ holds
  refine ⟨?_, holdsAfter⟩
  intro outcome member
  rw [List.mem_singleton.mp member]
  exact stopEq

theorem Accepts.append {first second : List Event}
    (acceptsFirst : check.Accepts before first middle)
    (acceptsSecond : check.Accepts middle second after) :
    check.Accepts before (first ++ second) after := by
  intro session holds
  obtain ⟨firstGoesOn, holdsMiddle⟩ := acceptsFirst session holds
  obtain ⟨secondGoesOn, holdsAfter⟩ := acceptsSecond _ holdsMiddle
  rw [Session.outcomes_append, Session.after_append]
  refine ⟨?_, holdsAfter⟩
  intro outcome member
  rcases List.mem_append.mp member with inFirst | inSecond
  · exact firstGoesOn outcome inFirst
  · exact secondGoesOn outcome inSecond

theorem accepts_flatMap {α : Type} {events : α → List Event}
    (accepts : ∀ item, check.Accepts before (events item) before) (items : List α) :
    check.Accepts before (items.flatMap events) before := by
  induction items with
  | nil =>
      intro session holds
      exact ⟨by simp [Session.outcomes], holds⟩
  | cons item items ih =>
      rw [List.flatMap_cons]
      exact (accepts item).append ih

theorem accepts_map {α : Type} {event : α → Event}
    (accepts : ∀ item, check.Accepts before [event item] before) (items : List α) :
    check.Accepts before (items.map event) before := by
  rw [List.map_eq_flatMap]
  exact accepts_flatMap accepts items

theorem Accepts.replay_stop {events : List Event} (accepts : check.Accepts before events after)
    (className : String) {state : check.State} (holds : before state) :
    (check.replay className state events).stop = none :=
  (replayFrom_stop_eq_none_iff ⟨className, state, 0⟩ [] events).mpr (accepts _ holds).1

/-- Two conditions that lead a check through a class: one holds between methods
and one inside of them. -/
structure ClassInvariant (check : Check) where
  between : check.State → Prop
  inside : check.State → Prop
  header (header : ClassHeader) :
    check.Accepts (fun _ => True) [.classHeader header] between
  field (field : FieldDeclaration) : check.Accepts between [.field field] between
  methodStart (method : MethodDeclaration) :
    check.Accepts between [.methodStart method] inside
  instruction (instruction : Instruction) :
    check.Accepts inside [.instruction instruction] inside
  methodEnd : check.Accepts inside [.methodEnd] between
  classEnd : check.Accepts between [.classEnd] between

namespace ClassInvariant

variable (invariant : check.ClassInvariant)

theorem accepts_method (method : MethodOutline) :
    check.Accepts invariant.between method.events invariant.between := by
  have acceptsBody : check.Accepts invariant.inside
      (method.instructions.map .instruction) invariant.inside :=
    accepts_map invariant.instruction method.instructions
  exact (invariant.methodStart method.declaration).append
    (acceptsBody.append invariant.methodEnd)

theorem accepts_class (outline : ClassOutline) :
    check.Accepts (fun _ => True) outline.events invariant.between := by
  have acceptsFields : check.Accepts invariant.between
      (outline.fields.map .field) invariant.between :=
    accepts_map invariant.field outline.fields
  have acceptsMethods : check.Accepts invariant.between
      (outline.methods.flatMap MethodOutline.events) invariant.between :=
    accepts_flatMap invariant.accepts_method outline.methods
  exact (invariant.header outline.header).append
    ((acceptsFields.append acceptsMethods).append invariant.classEnd)

/-- A check that stops at no event needs no condition. -/
def ofNeverStops (goesOn : ∀ context state event, (check.react context state event).stop = none) :
    check.ClassInvariant :=
  have accepts (event : Event) : check.Accepts (fun _ => True) [event] (fun _ => True) :=
    accepts_singleton fun context state _ => ⟨goesOn context state event, trivial⟩
  { between _ := True
    inside _ := True
    header _ := accepts _
    field _ := accepts _
    methodStart _ := accepts _
    instruction _ := accepts _
    methodEnd := accepts _
    classEnd := accepts _ }

/-- Between methods a scope is closed, inside of them it is open. -/
def ofScope (tracks : check.TracksScope) : check.ClassInvariant where
  between state := tracks.scope state = none
  inside state := ∃ method, tracks.scope state = some method
  header _ := accepts_singleton fun _ _ _ => tracks.goesOn rfl
  field _ := accepts_singleton fun _ _ closed => tracks.goesOn (by rw [closed]; rfl)
  methodStart method := accepts_singleton <| by
    intro context state closed
    have followEq : (tracks.scope state).follow (.methodStart method) =
        .ok (some ⟨method.name, method.isInitializer⟩) := by
      rw [closed]
      rfl
    obtain ⟨stopEq, scopeEq⟩ := tracks.goesOn followEq
    exact ⟨stopEq, _, scopeEq⟩
  instruction instruction := accepts_singleton <| by
    rintro context state ⟨method, isOpen⟩
    have followEq : (tracks.scope state).follow (.instruction instruction) =
        .ok (some method) := by
      rw [isOpen]
      rfl
    obtain ⟨stopEq, scopeEq⟩ := tracks.goesOn followEq
    exact ⟨stopEq, _, scopeEq⟩
  methodEnd := accepts_singleton <| by
    rintro context state ⟨method, isOpen⟩
    exact tracks.goesOn (by rw [isOpen]; rfl)
  classEnd := accepts_singleton fun _ _ closed => tracks.goesOn (by rw [closed]; rfl)

end ClassInvariant

end Check

end ClassLint
