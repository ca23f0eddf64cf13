import ClassLint.Proofs.MethodReports

/-!
# Methods that are too long

The check for long methods has one counter for all methods.  This file shows that
at the end of a method the counter is the number of its instructions, so that a
method is reported by its own length alone.
-/

namespace ClassLint

namespace LongMethod

/-- A method that is too long: it is no initialiser and has more instructions than
the limit. -/
def Overlong (limit : Nat) (method : MethodOutline) : Prop :=
  method.declaration.name ∉ ["<init>", "<clinit>"] ∧ limit < method.instructions.length

instance (limit : Nat) : DecidablePred (Overlong limit) := fun _ =>
  inferInstanceAs (Decidable (_ ∧ _))

theorem Overlong.of_le {limit higher : Nat} (limitLe : limit ≤ higher) {method : MethodOutline}
    (overlong : Overlong higher method) : Overlong limit method :=
  ⟨overlong.1, Nat.lt_of_le_of_lt limitLe overlong.2⟩

/-- The state after one more instruction of a method. -/
def State.tally (method : OpenMethod) (state : State) (_ : Instruction) : State :=
  if method.isInitializer then state else { state with count := state.count + 1 }

variable {method : OpenMethod}

theorem react_instruction (limit : Nat) {state : State} (isOpen : state.scope = some method)
    (instruction : Instruction) :
    react limit state (.instruction instruction) = .next (state.tally method instruction) := by
  simp only [react, isOpen, MethodScope.current, State.tally]

theorem scope_tally (state : State) (instruction : Instruction) :
    (state.tally method instruction).scope = state.scope := by
  unfold State.tally
  split <;> rfl

/-- The counter grows by the number of instructions, except in an initialiser. -/
theorem count_foldl_tally (instructions : List Instruction) (state : State) :
    (instructions.foldl (State.tally method) state).count =
      if method.isInitializer then state.count else state.count + instructions.length := by
  induction instructions generalizing state with
  | nil => simp
  | cons instruction instructions ih =>
      rw [List.foldl_cons, ih, List.length_cons]
      unfold State.tally
      split
      · rfl
      · dsimp only
        omega

theorem react_methodEnd (limit : Nat) {declaration : MethodDeclaration} {state : State}
    (isOpen : state.scope = some ⟨declaration.name, declaration.isInitializer⟩) :
    react limit state .methodEnd =
      .report { state with scope := none }
        (if declaration.name ∉ ["<init>", "<clinit>"] ∧ limit < state.count then
          [message declaration.name state.count limit]
        else []) := by
  simp only [react, isOpen, MethodScope.current, Bool.and_eq_true, Bool.not_eq_true',
    ← Bool.not_eq_true, MethodDeclaration.isInitializer_iff, decide_eq_true_eq]

/-- The messages on a method. -/
def messages (limit : Nat) (method : MethodOutline) : List String :=
  if Overlong limit method then
    [message method.declaration.name method.instructions.length limit]
  else []

theorem emits_method (limit : Nat) (method : MethodOutline) :
    (check limit).Emits (fun state : State => state.scope = none) method.events
      (messages limit method) (fun state : State => state.scope = none) := by
  let opened : OpenMethod := ⟨method.declaration.name, method.declaration.isInitializer⟩
  let started : State := ⟨some opened, 0⟩
  let finished : State := method.instructions.foldl (State.tally opened) started
  have starts (context : CheckContext) (state : State) (closed : state.scope = none) :
      (check limit).react context state (.methodStart method.declaration) = .next started := by
    simp only [check, react, closed, MethodScope.enter]
    rfl
  have notes (context : CheckContext) (state : State) (instruction : Instruction)
      (isOpen : state.scope = some opened) :
      (check limit).react context state (.instruction instruction) =
          .next (state.tally opened instruction) ∧
        (state.tally opened instruction).scope = some opened :=
    ⟨react_instruction limit isOpen instruction, (scope_tally state instruction).trans isOpen⟩
  have countEq : finished.count =
      if method.declaration.isInitializer then 0 else 0 + method.instructions.length :=
    count_foldl_tally method.instructions started
  have endEq (isOpen : finished.scope = some opened) : react limit finished .methodEnd =
      .report { finished with scope := none } (messages limit method) := by
    rw [react_methodEnd limit isOpen]
    -- An initialiser is passed over; any other method leaves its length in the counter.
    by_cases named : method.declaration.name ∈ ["<init>", "<clinit>"]
    · have short : ¬Overlong limit method := fun overlong => overlong.1 named
      rw [messages, if_neg short, if_neg fun both => both.1 named]
    · simp only [MethodDeclaration.isInitializer_iff, if_neg named, Nat.zero_add] at countEq
      rw [countEq]
      rfl
  apply Check.emits_method_of_noted (fun state : State => state.scope = some opened)
    starts notes rfl
  intro context isOpen
  exact ⟨{ finished with scope := none }, rfl, endEq isOpen⟩

theorem quiet_outside_methods (limit : Nat) (context : CheckContext)
    (state : (check limit).State) (event : Event)
    (outside : event.kind ∈ [EventKind.classHeader, .field, .classEnd]) :
    ((check limit).react context state event).reports = [] := by
  cases event with
  | classHeader header => rfl
  | field field => rfl
  | classEnd =>
      simp only [check, react]
      split <;> rfl
  | methodStart _ | instruction _ | methodEnd => simp [Event.kind] at outside

theorem replay_outline (limit : Nat) (className : String) (state : (check limit).State)
    (outline : ClassOutline) :
    ((check limit).replay className state outline.events).reports =
        outline.methods.flatMap (messages limit) ∧
      ((check limit).replay className state outline.events).stop = none := by
  have emits := (Check.ClassInvariant.ofScope (tracksScope limit)).emits_class
    (quiet_outside_methods limit) (emits_method limit) outline
  exact emits.replay className trivial

theorem flatMap_messages (limit : Nat) (methods : List MethodOutline) :
    methods.flatMap (messages limit) =
      (methods.filter fun method => Overlong limit method).map fun method =>
        message method.declaration.name method.instructions.length limit :=
  flatMap_ite_eq_map_filter (Overlong limit) _ methods

theorem flatMap_messages_ordinary (limit : Nat) (methods : List MethodOutline) :
    (methods.filter fun method =>
      method.declaration.name ∉ ["<init>", "<clinit>"]).flatMap (messages limit) =
        methods.flatMap (messages limit) := by
  induction methods with
  | nil => rfl
  | cons method methods ih =>
      by_cases named : method.declaration.name ∈ ["<init>", "<clinit>"]
      · have silent : messages limit method = [] := if_neg fun overlong => overlong.1 named
        rw [List.filter_cons_of_neg (by rwa [decide_eq_true_eq, not_not]), List.flatMap_cons,
          silent, ih, List.nil_append]
      · rw [List.filter_cons_of_pos (by rwa [decide_eq_true_eq]), List.flatMap_cons,
          List.flatMap_cons, ih]

/-- On the events of a class the check for long methods reports, in their order, the
methods that are no initialisers and have more instructions than the limit, each once
and with the number of its own instructions.  With a higher limit it reports some of
these methods and no others.  Methods are reported alike whatever methods stand before
them, and initialisers might as well not be there. -/
theorem replay_outline_overlong (limit : Nat) (className : String) (earlier : State)
    (outline : ClassOutline) :
    let replay (limit : Nat) (methods : List MethodOutline) :=
      (check limit).replay className ((check limit).reset earlier) { outline with methods }.events
    let texts (limit : Nat) (methods : List MethodOutline) : List String :=
      methods.map fun method =>
        "Method '" ++ method.declaration.name ++ "' has " ++
          toString method.instructions.length ++ " bytecode instructions (limit " ++
            toString limit ++ ")."
    let overlong := outline.methods.filter fun method => Overlong limit method
    (replay limit outline.methods).stop = none ∧
    (replay limit outline.methods).reports = texts limit overlong ∧
    (∀ higher, limit ≤ higher → ∃ kept, List.Sublist kept overlong ∧
      (replay higher outline.methods).reports = texts higher kept) ∧
    (∀ first second, outline.methods = first ++ second →
      (replay limit outline.methods).reports =
        (replay limit first).reports ++ (replay limit second).reports) ∧
    (replay limit (outline.methods.filter fun method =>
      method.declaration.name ∉ ["<init>", "<clinit>"])).reports =
        (replay limit outline.methods).reports := by
  intro replay texts overlong
  have reportsEq (limit : Nat) (methods : List MethodOutline) :
      (replay limit methods).reports = methods.flatMap (messages limit) :=
    (replay_outline limit className _ { outline with methods }).1
  refine ⟨(replay_outline limit className _ outline).2, ?_, ?_, ?_, ?_⟩
  · rw [reportsEq, flatMap_messages]
    rfl
  · intro higher limitLe
    refine ⟨outline.methods.filter fun method => Overlong higher method, ?_, ?_⟩
    · apply List.monotone_filter_right
      intro method overlongHigher
      rw [decide_eq_true_eq] at overlongHigher ⊢
      exact overlongHigher.of_le limitLe
    · rw [reportsEq, flatMap_messages]
      rfl
  · intro first second methodsEq
    rw [reportsEq, reportsEq, reportsEq, methodsEq, List.flatMap_append]
  · rw [reportsEq, reportsEq, flatMap_messages_ordinary]

/-- A class whose constructor and first method have four instructions each, and whose
second method has three. -/
def threeBodies : ClassOutline where
  header := ⟨"pkg/Job", ⟨33⟩, none, []⟩
  fields := []
  methods :=
    [⟨⟨"<init>", "()V", ⟨1⟩⟩, [.simple 0, .simple 0, .simple 0, .simple 177]⟩,
      ⟨⟨"start", "()V", ⟨1⟩⟩, [.simple 0, .push 7, .simple 87, .simple 177]⟩,
      ⟨⟨"stop", "()V", ⟨1⟩⟩, [.simple 0, .simple 0, .simple 177]⟩]

theorem replay_outline_overlong_threeBodies :
    let reports (limit : Nat) :=
      ((check limit).replay "Job" .fresh threeBodies.events).reports
    reports 2 = ["Method 'start' has 4 bytecode instructions (limit 2).",
        "Method 'stop' has 3 bytecode instructions (limit 2)."] ∧
      reports 3 = ["Method 'start' has 4 bytecode instructions (limit 3)."] ∧
      reports 4 = [] := by
  intro reports
  have reportsOf (limit : Nat) := (replay_outline_overlong limit "Job" .fresh threeBodies).2.1
  refine ⟨(reportsOf 2).trans ?_, (reportsOf 3).trans ?_, (reportsOf 4).trans ?_⟩ <;>
    decide +kernel

end LongMethod

end ClassLint
