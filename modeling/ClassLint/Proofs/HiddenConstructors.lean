import ClassLint.Check.ConstructorVisibility
import ClassLint.Proofs.EventHistory

/-!
# Hidden constructors in any sequence of events

The check for constructor visibility keeps four flags.  They stand for all that has
happened since the latest class header, in whatever order, and so the verdict at the
end of a class depends on that header and on which constructors came after it.
-/

namespace ClassLint

namespace ConstructorVisibility

/-- The constructor that starts at an event. -/
def constructor? : Event → Option MethodDeclaration
  | .methodStart method => if method.name = "<init>" then some method else none
  | _ => none

def constructors (events : List Event) : List MethodDeclaration :=
  events.filterMap constructor?

/-- A constructor that other packages can call. -/
def IsVisible (constructor : MethodDeclaration) : Prop :=
  constructor.access.isPublic = true ∨ constructor.access.isProtected = true

instance : DecidablePred IsVisible := fun constructor =>
  inferInstanceAs (Decidable (constructor.access.isPublic = true ∨
    constructor.access.isProtected = true))

/-- A class that everyone can see and nobody can construct from another package: it is
public and neither abstract nor an interface, and it has constructors, none of which is
visible. -/
def IsHidden (header : ClassHeader) (since : List Event) : Prop :=
  header.access.isPublic = true ∧ header.access.isAbstract = false ∧
    header.access.isInterface = false ∧ constructors since ≠ [] ∧
    ∀ constructor ∈ constructors since, ¬IsVisible constructor

instance (header : ClassHeader) (since : List Event) : Decidable (IsHidden header since) :=
  inferInstanceAs (Decidable (_ ∧ _))

/-- Whether each of the constructors among the events is visible. -/
def visibilities (events : List Event) : List Bool :=
  (constructors events).map fun constructor => decide (IsVisible constructor)

/-- Neither the order nor the number of the constructors matters. -/
theorem isHidden_congr {header : ClassHeader} {first second : List Event}
    (sameKinds : ∀ visible, visible ∈ visibilities first ↔ visible ∈ visibilities second) :
    IsHidden header first ↔ IsHidden header second := by
  have someIff (events : List Event) :
      constructors events ≠ [] ↔ ∃ visible, visible ∈ visibilities events := by
    have sameLength : constructors events ≠ [] ↔ visibilities events ≠ [] := by
      simp [visibilities]
    rw [sameLength]
    constructor
    · exact List.exists_mem_of_ne_nil _
    · rintro ⟨visible, member⟩
      exact List.ne_nil_of_mem member
  have noneVisibleIff (events : List Event) :
      (∀ constructor ∈ constructors events, ¬IsVisible constructor) ↔
        true ∉ visibilities events := by
    simp [visibilities]
  simp only [IsHidden, someIff, noneVisibleIff, sameKinds]

/-- The flags go with the events since a header. -/
structure Tracks (header : ClassHeader) (since : List Event) (state : State) : Prop where
  isPublic : state.isPublic = header.access.isPublic
  isAbstractOrInterface :
    state.isAbstractOrInterface = (header.access.isAbstract || header.access.isInterface)
  hasConstructor : state.hasConstructor = true ↔ constructors since ≠ []
  hasVisibleConstructor :
    state.hasVisibleConstructor = true ↔ ∃ constructor ∈ constructors since, IsVisible constructor

variable {header : ClassHeader} {since : List Event} {state : State}

theorem Tracks.isHidden_iff (tracks : Tracks header since state) :
    state.isHidden = true ↔ IsHidden header since := by
  have noneVisible : state.hasVisibleConstructor = false ↔
      ∀ constructor ∈ constructors since, ¬IsVisible constructor := by
    rw [← Bool.not_eq_true, tracks.hasVisibleConstructor]
    push Not
    exact Iff.rfl
  simp only [State.isHidden, IsHidden, Bool.and_eq_true, Bool.not_eq_true', noneVisible,
    tracks.isPublic, tracks.isAbstractOrInterface, tracks.hasConstructor,
    Bool.or_eq_false_iff, and_assoc]

theorem Tracks.of_silent (tracks : Tracks header since state) {event : Event}
    (noConstructor : constructor? event = none) : Tracks header (since ++ [event]) state := by
  have sameConstructors : constructors (since ++ [event]) = constructors since := by
    simp [constructors, noConstructor]
  constructor
  · exact tracks.isPublic
  · exact tracks.isAbstractOrInterface
  · rw [sameConstructors]
    exact tracks.hasConstructor
  · rw [sameConstructors]
    exact tracks.hasVisibleConstructor

theorem Tracks.addConstructor (tracks : Tracks header since state) {event : Event}
    {constructor : MethodDeclaration} (starts : constructor? event = some constructor) :
    Tracks header (since ++ [event]) (state.addConstructor constructor) := by
  have oneMore : constructors (since ++ [event]) = constructors since ++ [constructor] := by
    simp [constructors, starts]
  constructor
  · exact tracks.isPublic
  · exact tracks.isAbstractOrInterface
  · simp [State.addConstructor, oneMore]
  · -- The flag is raised if it was before or if the new constructor is visible.
    have added : (state.addConstructor constructor).hasVisibleConstructor = true ↔
        state.hasVisibleConstructor = true ∨ IsVisible constructor := by
      simp only [State.addConstructor, Bool.or_eq_true, IsVisible, or_assoc]
    rw [added, tracks.hasVisibleConstructor, oneMore]
    simp only [List.mem_append, List.mem_singleton, or_and_right, exists_or, exists_eq_left]

theorem Tracks.react (tracks : Tracks header since state) {event : Event}
    (notHeader : event.kind ≠ .classHeader) :
    Tracks header (since ++ [event]) (ConstructorVisibility.react state event).state := by
  cases event with
  | classHeader other => exact absurd rfl notHeader
  | methodStart method =>
      simp only [ConstructorVisibility.react, Reaction.next, MethodDeclaration.isConstructor,
        beq_iff_eq]
      split
      next isConstructor => exact tracks.addConstructor (if_pos isConstructor)
      next otherMethod => exact tracks.of_silent (if_neg otherMethod)
  | field _ | instruction _ | methodEnd | classEnd => exact tracks.of_silent rfl

theorem tracks_after_header (session : Session check) (before : List Event)
    (header : ClassHeader) {since : List Event} (headerFree : HeaderFree since) :
    Tracks header since (session.after (before ++ .classHeader header :: since)).state := by
  apply session.after_latestHeader (Tracks header) _ _ before headerFree
  · intro context state
    constructor
    · rfl
    · rfl
    · exact iff_of_false Bool.false_ne_true (not_not.mpr rfl)
    · exact iff_of_false Bool.false_ne_true nofun
  · intro past event context state notHeader tracks
    exact tracks.react notHeader

/-- Before a header constructors are noted, but no class is known to be public. -/
theorem isPublic_after_headerFree (session : Session check) {past : List Event}
    (headerFree : HeaderFree past) : (session.reset.after past).state.isPublic = false := by
  apply session.reset.after_headerFree (fun _ (state : State) => state.isPublic = false) rfl _
    headerFree
  intro _ event _ state notHeader notPublic
  cases event with
  | classHeader header => exact absurd rfl notHeader
  | methodStart method =>
      by_cases isConstructor : method.isConstructor = true
      · simp only [check, react, isConstructor]
        exact notPublic
      · simp only [check, react, isConstructor]
        exact notPublic
  | field _ | instruction _ | methodEnd | classEnd => exact notPublic

theorem feed_outcome (session : Session check) (event : Event) :
    (session.feed event).2 =
      ⟨if event = .classEnd ∧ session.state.isHidden = true then
        ["Public class has no public or protected constructors."] else [], none⟩ := by
  cases event with
  | classEnd => simp [Session.feed, check, react, Reaction.report]
  | classHeader _ | field _ | methodStart _ | instruction _ | methodEnd => rfl

/-- What the check does at an event after some others, in any order.  It never stops.  It
reports at the end of a class if the latest header and the constructors since then are
those of a hidden class, and at no other event.  So nothing matters that was before
that header, and of the constructors only whether there are visible and hidden ones. -/
theorem outcome_of_constructors (session : Session check) (past later : List Event)
    (event : Event) :
    (HeaderFree past →
      (session.reset.outcomes (past ++ event :: later))[past.length]? = some ⟨[], none⟩) ∧
    ∀ before header since, past = before ++ .classHeader header :: since → HeaderFree since →
      (session.reset.outcomes (past ++ event :: later))[past.length]? =
        some ⟨if event = .classEnd ∧ IsHidden header since then
          ["Public class has no public or protected constructors."] else [], none⟩ ∧
      ∀ (other : Session check) (otherPast otherLater otherBefore otherSince : List Event),
        otherPast = otherBefore ++ .classHeader header :: otherSince → HeaderFree otherSince →
        (∀ visible, visible ∈ visibilities since ↔ visible ∈ visibilities otherSince) →
          (other.reset.outcomes (otherPast ++ event :: otherLater))[otherPast.length]? =
            (session.reset.outcomes (past ++ event :: later))[past.length]? := by
  simp only [Session.getElem?_outcomes, feed_outcome]
  constructor
  · intro headerFree
    have notHidden : (session.reset.after past).state.isHidden = false := by
      simp [State.isHidden, isPublic_after_headerFree session headerFree]
    simp [notHidden]
  · rintro before header since rfl headerFree
    have tracks := tracks_after_header session.reset before header headerFree
    refine ⟨by simp only [tracks.isHidden_iff], ?_⟩
    rintro other _ otherLater otherBefore otherSince rfl otherFree sameKinds
    have otherTracks := tracks_after_header other.reset otherBefore header otherFree
    simp only [tracks.isHidden_iff, otherTracks.isHidden_iff, isHidden_congr sameKinds]

/-- Events with a visible constructor before the latest header, and two hidden ones and
another method after it. -/
def reopenedClass : List Event :=
  [.methodStart ⟨"<init>", "()V", ⟨1⟩⟩, .classHeader ⟨"pkg/Old", ⟨0x401⟩, none, []⟩,
    .methodStart ⟨"<init>", "()V", ⟨4⟩⟩, .classEnd,
    .classHeader ⟨"pkg/New", ⟨1⟩, none, []⟩, .methodStart ⟨"<init>", "()V", ⟨2⟩⟩,
    .methodStart ⟨"run", "()V", ⟨1⟩⟩, .classEnd, .methodStart ⟨"<init>", "(I)V", ⟨0⟩⟩]

theorem outcome_of_constructors_reopenedClass :
    HeaderFree (reopenedClass.take 1) ∧
      ((Session.new check "Old").reset.outcomes (reopenedClass.take 1 ++ [.classEnd]))[1]? =
        some ⟨[], none⟩ ∧
      HeaderFree (reopenedClass.drop 5) ∧
      ((Session.new check "New").reset.outcomes (reopenedClass ++ [.classEnd]))[9]? =
        some ⟨["Public class has no public or protected constructors."], none⟩ ∧
      ((Session.new check "Alone").reset.outcomes
          (([] ++ .classHeader ⟨"pkg/New", ⟨1⟩, none, []⟩ ::
            [.methodStart ⟨"<init>", "()V", ⟨2⟩⟩]) ++ [.classEnd]))[2]? =
        ((Session.new check "New").reset.outcomes (reopenedClass ++ [.classEnd]))[9]? := by
  have noHeader : HeaderFree (reopenedClass.take 1) := by decide
  have noLaterHeader : HeaderFree (reopenedClass.drop 5) := by decide
  have aloneFree : HeaderFree [.methodStart ⟨"<init>", "()V", ⟨2⟩⟩] := by decide
  obtain ⟨outcome, unaffected⟩ := (outcome_of_constructors (.new check "New") reopenedClass []
    .classEnd).2 (reopenedClass.take 4) ⟨"pkg/New", ⟨1⟩, none, []⟩ (reopenedClass.drop 5) rfl
    noLaterHeader
  refine ⟨noHeader, ?_, noLaterHeader, ?_, ?_⟩
  · exact (outcome_of_constructors (.new check "Old") (reopenedClass.take 1) [] .classEnd).1
      noHeader
  · have isHidden : IsHidden ⟨"pkg/New", ⟨1⟩, none, []⟩ (reopenedClass.drop 5) := by decide
    rw [if_pos ⟨rfl, isHidden⟩] at outcome
    exact outcome
  · exact unaffected (.new check "Alone") _ [] [] [.methodStart ⟨"<init>", "()V", ⟨2⟩⟩] rfl
      aloneFree (by decide)

end ConstructorVisibility

end ClassLint
