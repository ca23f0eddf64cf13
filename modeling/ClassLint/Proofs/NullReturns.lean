import ClassLint.Proofs.MethodReports

/-!
# Methods that return null

The check for null returns remembers one instruction.  This file shows that it
reports a method exactly if somewhere in its body a push of null stands right
before the return of a reference.
-/

namespace ClassLint

namespace NullReturn

/-- Somewhere a push of null stands right before the return of a reference. -/
def ReturnsNull (instructions : List Instruction) : Prop :=
  ∃ index, instructions[index]? = some (.simple Opcode.aconstNull) ∧
    instructions[index + 1]? = some (.simple Opcode.areturn)

theorem returnsNull_iff_lt {instructions : List Instruction} :
    ReturnsNull instructions ↔ ∃ index < instructions.length,
      instructions[index]? = some (.simple Opcode.aconstNull) ∧
        instructions[index + 1]? = some (.simple Opcode.areturn) := by
  constructor
  · rintro ⟨index, pushes, returns⟩
    obtain ⟨inside, _⟩ := List.getElem?_eq_some_iff.mp pushes
    exact ⟨index, inside, pushes, returns⟩
  · rintro ⟨index, _, pushes, returns⟩
    exact ⟨index, pushes, returns⟩

instance : DecidablePred ReturnsNull := fun _ =>
  decidable_of_iff _ returnsNull_iff_lt.symm

theorem returnsNull_cons_iff {instruction : Instruction} {instructions : List Instruction} :
    ReturnsNull (instruction :: instructions) ↔
      (instruction = .simple Opcode.aconstNull ∧
          instructions.head? = some (.simple Opcode.areturn)) ∨
        ReturnsNull instructions := by
  constructor
  · rintro ⟨_ | index, pushes, returns⟩
    · left
      rw [List.head?_eq_getElem?]
      exact ⟨by simpa using pushes, by simpa using returns⟩
    · right
      exact ⟨index, by simpa using pushes, by simpa using returns⟩
  · rintro (⟨rfl, returns⟩ | ⟨index, pushes, returns⟩)
    · rw [List.head?_eq_getElem?] at returns
      exact ⟨0, rfl, by simpa using returns⟩
    · exact ⟨index + 1, by simpa using pushes, by simpa using returns⟩

/-- A state that has been through instructions is flagged if it was so before or
has seen a null return.  The null of the first one may have been pushed before. -/
theorem flagged_foldl_scan (instructions : List Instruction) (state : State) :
    (instructions.foldl State.scan state).flagged = true ↔
      state.flagged = true ∨
        (state.sawNull = true ∧ instructions.head? = some (.simple Opcode.areturn)) ∨
        ReturnsNull instructions := by
  induction instructions generalizing state with
  | nil => simp [ReturnsNull]
  | cons instruction instructions ih =>
      have differ : Instruction.simple Opcode.aconstNull ≠ .simple Opcode.areturn := by decide
      rw [List.foldl_cons, ih, returnsNull_cons_iff, List.head?_cons, Option.some.injEq]
      -- A push of null sets the mark even after another one; any other instruction
      -- clears it, and only a return that finds it set raises the flag.
      by_cases pushes : instruction = .simple Opcode.aconstNull
      · subst pushes
        simp [State.scan, differ]
      · by_cases returns : instruction = .simple Opcode.areturn
        · subst returns
          cases sawEq : state.sawNull <;> simp [State.scan, sawEq, pushes]
        · simp [State.scan, pushes, returns]

/-- The state after one more instruction of a method, which is not looked at in an
initialiser unless `scanInitializers` says so. -/
def State.look (scanInitializers : Bool) (method : OpenMethod) (state : State)
    (instruction : Instruction) : State :=
  if method.isInitializer && !scanInitializers then state else state.scan instruction

theorem scope_look (scanInitializers : Bool) (method : OpenMethod) (state : State)
    (instruction : Instruction) :
    (state.look scanInitializers method instruction).scope = state.scope := by
  unfold State.look
  split
  · rfl
  · exact scope_scan state instruction

/-- A method is to be reported if it returns null, unless it is an initialiser and
these are not looked at. -/
def Reportable (scanInitializers : Bool) (method : MethodOutline) : Prop :=
  ReturnsNull method.instructions ∧
    (method.declaration.name ∉ ["<init>", "<clinit>"] ∨ scanInitializers = true)

instance (scanInitializers : Bool) : DecidablePred (Reportable scanInitializers) := fun _ =>
  inferInstanceAs (Decidable (_ ∧ _))

variable {scanInitializers : Bool} {method : OpenMethod}

theorem flagged_foldl_look (instructions : List Instruction) {state : State}
    (unflagged : state.flagged = false) (noNull : state.sawNull = false) :
    (instructions.foldl (State.look scanInitializers method) state).flagged = true ↔
      ReturnsNull instructions ∧ (method.isInitializer = false ∨ scanInitializers = true) := by
  by_cases skipped : method.isInitializer && !scanInitializers
  · have stays : instructions.foldl (State.look scanInitializers method) state = state := by
      induction instructions with
      | nil => rfl
      | cons instruction instructions ih =>
          rw [List.foldl_cons, State.look, if_pos skipped, ih]
    rw [stays, unflagged]
    simp_all
  · have looks : State.look scanInitializers method = State.scan := by
      funext state instruction
      rw [State.look, if_neg skipped]
    rw [looks, flagged_foldl_scan, unflagged, noNull]
    have looked : method.isInitializer = false ∨ scanInitializers = true := by
      cases initializerEq : method.isInitializer with
      | false => exact .inl rfl
      | true => exact .inr (by simpa [initializerEq] using skipped)
    simp [looked]

theorem react_instruction {state : State} (isOpen : state.scope = some method)
    (instruction : Instruction) :
    react scanInitializers state (.instruction instruction) =
      .next (state.look scanInitializers method instruction) := by
  simp only [react, isOpen, MethodScope.current]
  rfl

/-- The messages on a method. -/
def messages (scanInitializers : Bool) (method : MethodOutline) : List String :=
  if Reportable scanInitializers method then [message method.declaration.name] else []

theorem emits_method (method : MethodOutline) :
    (check scanInitializers).Emits (fun state : State => state.scope = none) method.events
      (messages scanInitializers method) (fun state : State => state.scope = none) := by
  let opened : OpenMethod := ⟨method.declaration.name, method.declaration.isInitializer⟩
  let started : State := ⟨some opened, false, false⟩
  let finished : State :=
    method.instructions.foldl (State.look scanInitializers opened) started
  have starts (context : CheckContext) (state : State) (closed : state.scope = none) :
      (check scanInitializers).react context state (.methodStart method.declaration) =
        .next started := by
    simp only [check, react, closed, MethodScope.enter]
    rfl
  have notes (context : CheckContext) (state : State) (instruction : Instruction)
      (isOpen : state.scope = some opened) :
      (check scanInitializers).react context state (.instruction instruction) =
          .next (state.look scanInitializers opened instruction) ∧
        (state.look scanInitializers opened instruction).scope = some opened :=
    ⟨react_instruction isOpen instruction, (scope_look _ _ _ _).trans isOpen⟩
  have flaggedIff : finished.flagged = true ↔ Reportable scanInitializers method := by
    rw [flagged_foldl_look method.instructions rfl rfl, ← Bool.not_eq_true,
      MethodDeclaration.isInitializer_iff]
    rfl
  have endEq (isOpen : finished.scope = some opened) :
      react scanInitializers finished .methodEnd =
        .report { finished with scope := none } (messages scanInitializers method) := by
    simp only [react, isOpen, MethodScope.current, flaggedIff]
    rfl
  apply Check.emits_method_of_noted (fun state : State => state.scope = some opened)
    starts notes rfl
  intro context isOpen
  exact ⟨{ finished with scope := none }, rfl, endEq isOpen⟩

theorem quiet_outside_methods (context : CheckContext)
    (state : (check scanInitializers).State) (event : Event)
    (outside : event.kind ∈ [EventKind.classHeader, .field, .classEnd]) :
    ((check scanInitializers).react context state event).reports = [] := by
  cases event with
  | classHeader header => rfl
  | field field => rfl
  | classEnd =>
      simp only [check, react]
      split <;> rfl
  | methodStart _ | instruction _ | methodEnd => simp [Event.kind] at outside

/-- On the events of a class the check for null returns reports, in their order,
the methods in which a push of null stands right before the return of a reference,
each of them once and by its name.  Initialisers are left out unless
`scanInitializers` says otherwise. -/
theorem replay_outline_reports (scanInitializers : Bool) (className : String)
    (earlier : (check scanInitializers).State) (outline : ClassOutline) :
    let replay := (check scanInitializers).replay className
      ((check scanInitializers).reset earlier) outline.events
    replay.stop = none ∧
      replay.reports =
        (outline.methods.filter fun method => Reportable scanInitializers method).map
          fun method => "Method '" ++ method.declaration.name ++ "' returns null directly." := by
  intro replay
  have emits := (Check.ClassInvariant.ofScope (tracksScope scanInitializers)).emits_class
    quiet_outside_methods emits_method outline
  obtain ⟨reportsEq, stopEq⟩ : replay.reports =
      outline.methods.flatMap (messages scanInitializers) ∧ replay.stop = none :=
    emits.replay className trivial
  refine ⟨stopEq, reportsEq.trans ?_⟩
  exact flatMap_ite_eq_map_filter (Reportable scanInitializers) _ outline.methods

/-- A class whose constructor returns null, with a method that does so twice, one that
pushes null last and one that begins with a return. -/
def nullBodies : ClassOutline where
  header := ⟨"pkg/Users", ⟨33⟩, none, []⟩
  fields := []
  methods :=
    [⟨⟨"<init>", "()V", ⟨1⟩⟩, [.simple 1, .simple 176]⟩,
      ⟨⟨"find", "()V", ⟨1⟩⟩, [.simple 1, .simple 176, .simple 1, .simple 1, .simple 176]⟩,
      ⟨⟨"push", "()V", ⟨1⟩⟩, [.simple 1]⟩,
      ⟨⟨"pull", "()V", ⟨1⟩⟩, [.simple 176, .simple 1, .simple 0, .simple 176]⟩]

theorem replay_outline_reports_nullBodies :
    let reports (scanInitializers : Bool) :=
      ((check scanInitializers).replay "Users" .fresh nullBodies.events).reports
    reports true = ["Method '<init>' returns null directly.",
        "Method 'find' returns null directly."] ∧
      reports false = ["Method 'find' returns null directly."] := by
  intro reports
  have reportsOf (scanInitializers : Bool) :=
    (replay_outline_reports scanInitializers "Users" .fresh nullBodies).2
  refine ⟨(reportsOf true).trans ?_, (reportsOf false).trans ?_⟩ <;> decide +kernel

end NullReturn

end ClassLint
