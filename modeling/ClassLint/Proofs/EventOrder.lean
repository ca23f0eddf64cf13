import ClassLint.Proofs.MethodTracking
import ClassLint.Proofs.Replay
import Mathlib.Data.List.Induction

/-!
# Events out of order

Methods do not nest, instructions stand inside of a method, and a class does not
end inside of one.  This file states these rules on the events alone, by which
method is open after those before.  The three checks that look into method bodies
all stop at the first event that breaks a rule, and with the same fault.
-/

namespace ClassLint

/-- A method is open after some events if its start is among them and since then
no class has begun and no method has started or ended. -/
def OpenAfter (past : List Event) (method : MethodDeclaration) : Prop :=
  ∃ before since, past = before ++ .methodStart method :: since ∧
    ∀ event ∈ since, event.kind ∉ [EventKind.classHeader, .methodStart, .methodEnd]

/-- An event that breaks a rule after some others, with the fault for it. -/
inductive OutOfOrder (past : List Event) : Event → CheckFault → Prop
  | startInside {current next : MethodDeclaration} (isOpen : OpenAfter past current) :
      OutOfOrder past (.methodStart next) (.unterminatedMethod current.name next.name)
  | instructionOutside {instruction : Instruction} (closed : ∀ method, ¬OpenAfter past method) :
      OutOfOrder past (.instruction instruction) (.outsideMethod .instruction)
  | endOutside (closed : ∀ method, ¬OpenAfter past method) :
      OutOfOrder past .methodEnd (.outsideMethod .methodEnd)
  | classEndInside {current : MethodDeclaration} (isOpen : OpenAfter past current) :
      OutOfOrder past .classEnd (.unclosedMethod current.name)

/-- No event breaks a rule after `past` and the events before it. -/
def InOrder (past : List Event) : List Event → Prop
  | [] => True
  | event :: events =>
      (∀ fault, ¬OutOfOrder past event fault) ∧ InOrder (past ++ [event]) events

/-- The first event that breaks a rule after `past` is the one at `position`. -/
def FirstOutOfOrder (past events : List Event) (position : Nat) (fault : CheckFault) : Prop :=
  ∃ earlier event later, events = earlier ++ event :: later ∧ earlier.length = position ∧
    InOrder past earlier ∧ OutOfOrder (past ++ earlier) event fault

theorem firstOutOfOrder_cons_iff {past events : List Event} {event : Event} {position : Nat}
    {fault : CheckFault} :
    FirstOutOfOrder past (event :: events) position fault ↔
      position = 0 ∧ OutOfOrder past event fault ∨
        ∃ previous, position = previous + 1 ∧ (∀ other, ¬OutOfOrder past event other) ∧
          FirstOutOfOrder (past ++ [event]) events previous fault := by
  constructor
  · rintro ⟨_ | ⟨first, earlier⟩, broken, later, eventsEq, rfl, inOrder, outOfOrder⟩
    · left
      obtain ⟨rfl, rfl⟩ := List.cons.inj eventsEq
      exact ⟨rfl, by simpa using outOfOrder⟩
    · right
      obtain ⟨rfl, rfl⟩ := List.cons.inj eventsEq
      exact ⟨earlier.length, rfl, inOrder.1, earlier, broken, later, rfl, rfl, inOrder.2,
        by simpa using outOfOrder⟩
  · rintro (⟨rfl, outOfOrder⟩ |
      ⟨_, rfl, fits, earlier, broken, later, rfl, rfl, inOrder, outOfOrder⟩)
    · exact ⟨[], event, events, rfl, rfl, trivial, by simpa using outOfOrder⟩
    · exact ⟨event :: earlier, broken, later, rfl, rfl, ⟨fits, inOrder⟩,
        by simpa using outOfOrder⟩

theorem openAfter_concat_iff {past : List Event} {event : Event} {method : MethodDeclaration} :
    OpenAfter (past ++ [event]) method ↔
      event = .methodStart method ∨
        event.kind ∉ [EventKind.classHeader, .methodStart, .methodEnd] ∧
          OpenAfter past method := by
  constructor
  · rintro ⟨before, since, pastEq, inner⟩
    rcases List.eq_nil_or_concat since with rfl | ⟨earlier, last, rfl⟩
    · left
      exact List.singleton_inj.mp (List.append_inj' pastEq rfl).2
    · right
      have splitEq : past ++ [event] = (before ++ .methodStart method :: earlier) ++ [last] := by
        simpa using pastEq
      obtain ⟨earlierEq, lastEq⟩ := List.append_inj' splitEq rfl
      obtain rfl := List.singleton_inj.mp lastEq
      refine ⟨inner event (by simp), before, earlier, earlierEq, ?_⟩
      intro other member
      exact inner other (by simp [member])
  · rintro (rfl | ⟨notBoundary, before, since, rfl, inner⟩)
    · exact ⟨past, [], rfl, by simp⟩
    · refine ⟨before, since ++ [event], by simp, ?_⟩
      intro other member
      rcases List.mem_append.mp member with earlier | last
      · exact inner other earlier
      · rwa [List.mem_singleton.mp last]

/-- The open method after one more event. -/
def Event.openNext (current : Option MethodDeclaration) : Event → Option MethodDeclaration
  | .classHeader _ | .methodEnd => none
  | .methodStart method => some method
  | .field _ | .instruction _ | .classEnd => current

/-- The method that is open after some events. -/
def openMethod? (past : List Event) : Option MethodDeclaration :=
  past.foldl Event.openNext none

theorem openMethod?_concat (past : List Event) (event : Event) :
    openMethod? (past ++ [event]) = event.openNext (openMethod? past) := by
  simp [openMethod?]

theorem openAfter_iff_openMethod? {past : List Event} {method : MethodDeclaration} :
    OpenAfter past method ↔ openMethod? past = some method := by
  induction past using List.reverseRecOn with
  | nil => simp [OpenAfter, openMethod?]
  | append_singleton past event ih =>
      rw [openAfter_concat_iff, ih, openMethod?_concat]
      cases event <;> simp [Event.openNext, Event.kind]

theorem closed_iff_openMethod? {past : List Event} :
    (∀ method, ¬OpenAfter past method) ↔ openMethod? past = none := by
  simp only [openAfter_iff_openMethod?, Option.eq_none_iff_forall_ne_some]

namespace MethodScope

/-- The scope that goes with the method that is open after some events. -/
def after (past : List Event) : MethodScope :=
  (openMethod? past).map fun method => ⟨method.name, method.isInitializer⟩

theorem follow_after_eq_error_iff {past : List Event} {event : Event} {fault : CheckFault} :
    (after past).follow event = .error fault ↔ OutOfOrder past event fault := by
  constructor
  · intro followEq
    cases openEq : openMethod? past with
    | none =>
        have closed := closed_iff_openMethod?.mpr openEq
        simp only [after, openEq, Option.map_none] at followEq
        cases event with
        | instruction instruction => cases followEq; exact .instructionOutside closed
        | methodEnd => cases followEq; exact .endOutside closed
        | classHeader _ | field _ | methodStart _ | classEnd => cases followEq
    | some current =>
        have isOpen := openAfter_iff_openMethod?.mpr openEq
        simp only [after, openEq, Option.map_some] at followEq
        cases event with
        | methodStart next => cases followEq; exact .startInside isOpen
        | classEnd => cases followEq; exact .classEndInside isOpen
        | classHeader _ | field _ | instruction _ | methodEnd => cases followEq
  · intro outOfOrder
    cases outOfOrder with
    | startInside isOpen | classEndInside isOpen =>
        simp only [after, openAfter_iff_openMethod?.mp isOpen]
        rfl
    | instructionOutside closed | endOutside closed =>
        simp only [after, closed_iff_openMethod?.mp closed]
        rfl

theorem eq_after_concat_of_follow {past : List Event} {event : Event} {next : MethodScope}
    (followEq : (after past).follow event = .ok next) : next = after (past ++ [event]) := by
  rw [after, openMethod?_concat]
  cases openEq : openMethod? past with
  | none =>
      simp only [after, openEq, Option.map_none] at followEq
      cases event <;> cases followEq <;> rfl
  | some current =>
      simp only [after, openEq, Option.map_some] at followEq
      cases event <;> cases followEq <;> rfl

/-- The position of the first event that is out of order, and its fault. -/
def firstFault? (scope : MethodScope) : List Event → Option (Nat × CheckFault)
  | [] => none
  | event :: events =>
      match scope.follow event with
      | .error fault => some (0, fault)
      | .ok next => (next.firstFault? events).map fun (position, fault) => (position + 1, fault)

variable {past events : List Event} {position : Nat} {fault : CheckFault}

theorem firstFault?_after_eq_none_iff :
    (after past).firstFault? events = none ↔ InOrder past events := by
  induction events generalizing past with
  | nil => simp [firstFault?, InOrder]
  | cons event events ih =>
      simp only [InOrder, ← follow_after_eq_error_iff]
      cases followEq : (after past).follow event with
      | error found => simp [firstFault?, followEq]
      | ok next =>
          obtain rfl := eq_after_concat_of_follow followEq
          simp [firstFault?, followEq, ih]

theorem firstFault?_after_eq_some_iff :
    (after past).firstFault? events = some (position, fault) ↔
      FirstOutOfOrder past events position fault := by
  -- The rules look at all earlier events, so `past` grows as the events are used up.
  induction events generalizing past position fault with
  | nil => simp [firstFault?, FirstOutOfOrder]
  | cons event events ih =>
      rw [firstOutOfOrder_cons_iff, firstFault?]
      cases followEq : (after past).follow event with
      | error found =>
          have broken (other : CheckFault) : OutOfOrder past event other ↔ found = other := by
            rw [← follow_after_eq_error_iff, followEq, Except.error.injEq]
          simp [broken, eq_comm]
      | ok next =>
          have fits (other : CheckFault) : ¬OutOfOrder past event other := by
            rw [← follow_after_eq_error_iff, followEq]
            nofun
          obtain rfl := eq_after_concat_of_follow followEq
          simp only [Option.map_eq_some_iff, Prod.exists, Prod.mk.injEq]
          constructor
          · rintro ⟨previous, _, foundEq, rfl, rfl⟩
            exact .inr ⟨previous, rfl, fits, ih.mp foundEq⟩
          · rintro (⟨_, broken⟩ | ⟨previous, rfl, _, isFirst⟩)
            · exact absurd broken (fits fault)
            · exact ⟨previous, fault, ih.mpr isFirst, rfl, rfl⟩

end MethodScope

namespace Session

/-- The position of the first event at which a session stops, and how it stops. -/
def firstStop? {check : Check} (session : Session check) : List Event → Option (Nat × Stop)
  | [] => none
  | event :: events =>
      match (session.feed event).2.stop with
      | some stop => some (0, stop)
      | none =>
          ((session.feed event).1.firstStop? events).map fun (position, stop) =>
            (position + 1, stop)

end Session

namespace Check

variable {check : Check}

theorem replayFrom_stop_eq_firstStop? (session : Session check) (reports : List String)
    (events : List Event) :
    (check.replayFrom session.className session.state session.reported reports events).stop =
      (session.firstStop? events).map (·.2) := by
  induction events generalizing session reports with
  | nil => rfl
  | cons event events ih =>
      rw [Session.firstStop?]
      cases stopEq : (session.feed event).2.stop with
      | some stop =>
          rw [replayFrom_of_stop session stopEq]
          rfl
      | none =>
          rw [replayFrom_of_goesOn session stopEq, ih, Option.map_map]
          rfl

/-- A check that tracks the open method stops where the scope alone faults. -/
theorem TracksScope.firstStop?_eq (tracks : check.TracksScope) (session : Session check)
    (events : List Event) :
    session.firstStop? events =
      ((tracks.scope session.state).firstFault? events).map fun (position, fault) =>
        (position, .fault fault) := by
  induction events generalizing session with
  | nil => rfl
  | cons event events ih =>
      rw [Session.firstStop?, MethodScope.firstFault?]
      cases followEq : (tracks.scope session.state).follow event with
      | error fault =>
          have stopEq : (session.feed event).2.stop = some (.fault fault) := by
            simp only [Session.feed, tracks.faults followEq]
            rfl
          rw [stopEq]
          rfl
      | ok next =>
          obtain ⟨stopEq, scopeEq⟩ : (session.feed event).2.stop = none ∧
              tracks.scope (session.feed event).1.state = next := tracks.goesOn followEq
          simp only [stopEq]
          rw [ih, scopeEq, Option.map_map, Option.map_map]
          rfl

/-- Once reset, the check goes on up to the event at the position that is given and
stops there with its fault, or goes through all events if none is given. -/
structure StopsAt (check : Check) (events : List Event) (found : Option (Nat × CheckFault)) :
    Prop where
  driven (session : Session check) :
    session.reset.firstStop? events =
      found.map fun (position, fault) => (position, .fault fault)
  replayed (className : String) (state : check.State) :
    (check.replay className (check.reset state) events).stop =
      found.map fun (_, fault) => .fault fault

theorem TracksScope.stopsAt (tracks : check.TracksScope)
    (closes : ∀ state, tracks.scope (check.reset state) = none) (events : List Event) :
    check.StopsAt events (MethodScope.firstFault? none events) := by
  have driven (session : Session check) :
      session.reset.firstStop? events =
        (MethodScope.firstFault? none events).map fun (position, fault) =>
          (position, .fault fault) := by
    rw [tracks.firstStop?_eq, ← closes session.state]
    rfl
  refine ⟨driven, ?_⟩
  intro className state
  let session : Session check := ⟨className, state, 0⟩
  have stopEq := replayFrom_stop_eq_firstStop? session.reset [] events
  rw [driven session, Option.map_map] at stopEq
  exact stopEq

end Check

/-- The three checks that look into method bodies stop at the same event of any
sequence and with the same fault: at the first event that is out of order.  If all
events are in order, none of them stops. -/
theorem methodChecks_stopAt_firstOutOfOrder (limit : Nat) (scanInitializers : Bool)
    (events : List Event) :
    ∃ found : Option (Nat × CheckFault),
      (LongMethod.check limit).StopsAt events found ∧
      MagicNumber.check.StopsAt events found ∧
      (NullReturn.check scanInitializers).StopsAt events found ∧
      (found = none ↔ InOrder [] events) ∧
      ∀ position fault,
        found = some (position, fault) ↔ FirstOutOfOrder [] events position fault := by
  refine ⟨(MethodScope.after []).firstFault? events, ?_, ?_, ?_,
    MethodScope.firstFault?_after_eq_none_iff,
    fun _ _ => MethodScope.firstFault?_after_eq_some_iff⟩
  · exact (LongMethod.tracksScope limit).stopsAt (fun _ => rfl) events
  · exact MagicNumber.tracksScope.stopsAt (fun _ => rfl) events
  · exact (NullReturn.tracksScope scanInitializers).stopsAt (fun _ => rfl) events

end ClassLint
