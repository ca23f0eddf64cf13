import ClassLint.Proofs.ClassInvariant

/-!
# Reports along a class

A check that follows the open method reports about one method at a time.  When
nothing is reported between methods, the reports on a class are those on its
methods, one after the other.
-/

namespace ClassLint

theorem MethodDeclaration.isInitializer_iff {method : MethodDeclaration} :
    method.isInitializer = true ↔ method.name ∈ ["<init>", "<clinit>"] := by
  simp [isInitializer, isConstructor, isStaticInitializer]

/-- A text for each item of a kind, and none for the others. -/
theorem flatMap_ite_eq_map_filter {α β : Type} (chosen : α → Prop) [DecidablePred chosen]
    (text : α → β) (items : List α) :
    items.flatMap (fun item => if chosen item then [text item] else []) =
      (items.filter fun item => chosen item).map text := by
  induction items with
  | nil => rfl
  | cons item items ih =>
      rw [List.flatMap_cons, ih, List.filter_cons]
      simp only [decide_eq_true_eq]
      split <;> rfl

namespace Check

variable {check : Check} {before middle after : check.State → Prop}

/-- From each state in which `before` holds the check takes the events without a
stop and reports the messages, into a state in which `after` holds. -/
structure Emits (check : Check) (before : check.State → Prop) (events : List Event)
    (messages : List String) (after : check.State → Prop) : Prop where
  accepts : check.Accepts before events after
  reports (session : Session check) (holds : before session.state) :
    (session.outcomes events).flatMap (·.reports) = messages

theorem emits_nil : check.Emits before [] [] before where
  accepts _ holds := ⟨by simp [Session.outcomes], holds⟩
  reports _ _ := rfl

theorem emits_singleton {event : Event} {messages : List String}
    (reacts : ∀ context state, before state →
      (check.react context state event).stop = none ∧
        (check.react context state event).reports = messages ∧
        after (check.react context state event).state) :
    check.Emits before [event] messages after where
  accepts := accepts_singleton fun context state holds =>
    ⟨(reacts context state holds).1, (reacts context state holds).2.2⟩
  reports session holds := by
    have reportsEq := (reacts ⟨session.className, session.reported⟩ _ holds).2.1
    simpa [Session.outcomes, Session.feed] using reportsEq

theorem Emits.append {first second : List Event} {firstMessages secondMessages : List String}
    (emitsFirst : check.Emits before first firstMessages middle)
    (emitsSecond : check.Emits middle second secondMessages after) :
    check.Emits before (first ++ second) (firstMessages ++ secondMessages) after where
  accepts := emitsFirst.accepts.append emitsSecond.accepts
  reports session holds := by
    have holdsMiddle := (emitsFirst.accepts session holds).2
    rw [Session.outcomes_append, List.flatMap_append, emitsFirst.reports session holds,
      emitsSecond.reports _ holdsMiddle]

theorem emits_flatMap {α : Type} {events : α → List Event} {messages : α → List String}
    (emits : ∀ item, check.Emits before (events item) (messages item) before) (items : List α) :
    check.Emits before (items.flatMap events) (items.flatMap messages) before := by
  induction items with
  | nil => exact emits_nil
  | cons item items ih =>
      rw [List.flatMap_cons, List.flatMap_cons]
      exact (emits item).append ih

/-- A replay of such events gives the messages. -/
theorem Emits.replay {events : List Event} {messages : List String}
    (emits : check.Emits before events messages after) (className : String)
    {state : check.State} (holds : before state) :
    (check.replay className state events).reports = messages ∧
      (check.replay className state events).stop = none := by
  have stopEq := emits.accepts.replay_stop className holds
  refine ⟨?_, stopEq⟩
  let session : Session check := ⟨className, state, 0⟩
  obtain ⟨replayed, reported, replayedEq⟩ := replayFrom_reported session [] events
  have messagesEq : (check.replay className state events).messages = replayed := replayedEq
  simp only [Replay.messages, stopEq, Option.toList_none, List.map_nil, List.append_nil]
    at messagesEq
  rw [messagesEq]
  cases reported with
  | finished _ => exact emits.reports session holds
  | @stopped earlier later last stop outcomesEq _ stops =>
      have member : last ∈ session.outcomes events := by
        rw [outcomesEq]
        simp
      rw [(emits.accepts session holds).1 last member] at stops
      cases stops

theorem Accepts.emits_of_quiet {event : Event} (accepts : check.Accepts before [event] after)
    (quiet : ∀ context state, (check.react context state event).reports = []) :
    check.Emits before [event] [] after where
  accepts := accepts
  reports session _ := by
    simp [Session.outcomes, Session.feed, quiet]

section Noted

variable {between inside : check.State → Prop} {note : check.State → Instruction → check.State}

/-- Instructions that a check only notes in its state are folded into it. -/
theorem emits_noted
    (notes : ∀ context state instruction, inside state →
      check.react context state (.instruction instruction) = .next (note state instruction) ∧
        inside (note state instruction))
    (instructions : List Instruction) {state : check.State} (isInside : inside state) :
    check.Emits (fun before => before = state) (instructions.map .instruction) []
      (fun after => after = instructions.foldl note state) := by
  induction instructions generalizing state with
  | nil => exact emits_nil
  | cons instruction instructions ih =>
      have emitsFirst : check.Emits (fun before => before = state) [.instruction instruction] []
          (fun after => after = note state instruction) := by
        apply emits_singleton
        rintro context before rfl
        rw [(notes context before instruction isInside).1]
        exact ⟨rfl, rfl, rfl⟩
      have stillInside := (notes ⟨"", 0⟩ state instruction isInside).2
      exact emitsFirst.append (ih stillInside)

/-- A check that starts each method in one state, notes its instructions and reports
at its end. -/
theorem emits_method_of_noted (inside : check.State → Prop) {method : MethodOutline}
    {started : check.State} {messages : List String}
    (starts : ∀ context state, between state →
      check.react context state (.methodStart method.declaration) = .next started)
    (notes : ∀ context state instruction, inside state →
      check.react context state (.instruction instruction) = .next (note state instruction) ∧
        inside (note state instruction))
    (isInside : inside started)
    (ends : ∀ context, inside (method.instructions.foldl note started) →
      ∃ closed, between closed ∧
        check.react context (method.instructions.foldl note started) .methodEnd =
          .report closed messages) :
    check.Emits between method.events messages between := by
  have emitsStart : check.Emits between [.methodStart method.declaration] []
      (fun state => state = started) := by
    apply emits_singleton
    intro context state isBetween
    rw [starts context state isBetween]
    exact ⟨rfl, rfl, rfl⟩
  have staysInside : inside (method.instructions.foldl note started) :=
    List.foldlRecOn _ _ isInside fun state stateInside instruction _ =>
      (notes ⟨"", 0⟩ state instruction stateInside).2
  have emitsEnd : check.Emits (fun state => state = method.instructions.foldl note started)
      [.methodEnd] messages between := by
    apply emits_singleton
    rintro context state rfl
    obtain ⟨closed, isBetween, reactEq⟩ := ends context staysInside
    rw [reactEq]
    exact ⟨rfl, rfl, isBetween⟩
  exact emitsStart.append ((emits_noted notes method.instructions isInside).append emitsEnd)

end Noted

/-- A check that reports nothing outside of methods reports on a class what it
reports on its methods. -/
theorem ClassInvariant.emits_class (invariant : check.ClassInvariant)
    (quiet : ∀ context state (event : Event),
      event.kind ∈ [EventKind.classHeader, .field, .classEnd] →
        (check.react context state event).reports = [])
    {messages : MethodOutline → List String}
    (emitsMethod : ∀ method : MethodOutline,
      check.Emits invariant.between method.events (messages method) invariant.between)
    (outline : ClassOutline) :
    check.Emits (fun _ => True) outline.events (outline.methods.flatMap messages)
      invariant.between := by
  have emitsHeader : check.Emits (fun _ => True) [.classHeader outline.header] []
      invariant.between :=
    (invariant.header outline.header).emits_of_quiet fun _ _ => quiet _ _ _ (by simp [Event.kind])
  have emitsField (field : FieldDeclaration) :
      check.Emits invariant.between [.field field] [] invariant.between :=
    (invariant.field field).emits_of_quiet fun _ _ => quiet _ _ _ (by simp [Event.kind])
  have emitsFields : check.Emits invariant.between (outline.fields.map .field) []
      invariant.between := by
    have noMessages : outline.fields.flatMap (fun _ => ([] : List String)) = [] := by
      simp [List.flatMap_eq_nil_iff]
    rw [List.map_eq_flatMap, ← noMessages]
    exact emits_flatMap emitsField outline.fields
  have emitsMethods : check.Emits invariant.between
      (outline.methods.flatMap MethodOutline.events) (outline.methods.flatMap messages)
      invariant.between :=
    emits_flatMap emitsMethod outline.methods
  have emitsEnd : check.Emits invariant.between [.classEnd] [] invariant.between :=
    invariant.classEnd.emits_of_quiet fun _ _ => quiet _ _ _ (by simp [Event.kind])
  have emitsAll := emitsHeader.append ((emitsFields.append emitsMethods).append emitsEnd)
  simpa [ClassOutline.events] using emitsAll

end Check

end ClassLint
