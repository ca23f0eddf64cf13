import ClassLint.Proofs.Builds
import ClassLint.Proofs.ClassInvariant
import ClassLint.Proofs.RunnerIsolation
import ClassLint.Proofs.UnusedFields

/-!
# Decoded classes cause no faults

The built-in checks fault when events are out of order.  The decoder gives events
in the order of a class outline, and each built-in check gets through these.  What
the checks report themselves is never the text for a failed check either, so there
is no such text among the findings on a decoded class.
-/

namespace ClassLint

namespace UnusedField

theorem stop_react_field {state : State} (known : state.className ≠ none)
    (field : FieldDeclaration) : (react state (.field field)).stop = none := by
  obtain ⟨name, nameEq⟩ := Option.ne_none_iff_exists'.mp known
  simp only [react, nameEq]
  rfl

theorem className_react_field (state : State) (field : FieldDeclaration) :
    (react state (.field field)).state.className = state.className := by
  dsimp only [react]
  split
  · rfl
  · dsimp only [Reaction.next]
    split
    · exact className_declare state field.name
    · rfl

theorem className_react_instruction (state : State) (instruction : Instruction) :
    (react state (.instruction instruction)).state.className = state.className := by
  cases instruction with
  | fieldAccess opcode field =>
      dsimp only [react, Reaction.next]
      split
      · exact className_access state field.name
      · rfl
  | _ => rfl

/-- After the header the name of the class is known. -/
def invariant : UnusedField.check.ClassInvariant where
  between (state : State) := state.className ≠ none
  inside (state : State) := state.className ≠ none
  header _ := Check.accepts_singleton fun _ _ _ => ⟨rfl, nofun⟩
  field field := Check.accepts_singleton <| by
    intro context state known
    refine ⟨stop_react_field known field, ?_⟩
    rwa [← className_react_field state field] at known
  methodStart _ := Check.accepts_singleton fun _ _ known => ⟨rfl, known⟩
  instruction instruction := Check.accepts_singleton <| by
    intro context state known
    refine ⟨by cases instruction <;> rfl, ?_⟩
    rwa [← className_react_instruction state instruction] at known
  methodEnd := Check.accepts_singleton fun _ _ known => ⟨rfl, known⟩
  classEnd := Check.accepts_singleton fun _ _ known => ⟨rfl, known⟩

end UnusedField

namespace BuiltInCheck

/-- How each built-in check gets through a class. -/
def invariant (config : Config) : (check : BuiltInCheck) → (check.toCheck config).ClassInvariant
  | .namingConvention => .ofNeverStops fun _ _ _ => rfl
  | .constructorVisibility => .ofNeverStops fun _ _ event => by cases event <;> rfl
  | .longMethod => .ofScope (LongMethod.tracksScope config.maxInstructions)
  | .magicNumber => .ofScope MagicNumber.tracksScope
  | .unusedField => UnusedField.invariant
  | .nullReturn => .ofScope (NullReturn.tracksScope config.scanInitializers)

theorem replay_outline_stop (config : Config) (check : BuiltInCheck) (className : String)
    (state : (check.toCheck config).State) (outline : ClassOutline) :
    ((check.toCheck config).replay className state outline.events).stop = none :=
  ((check.invariant config).accepts_class outline).replay_stop className trivial

end BuiltInCheck

/-- A message that begins as the one for a check that stopped. -/
def IsFailureText (message : String) : Prop :=
  "Check failed: ".toList <+: message.toList

instance : DecidablePred IsFailureText := fun message =>
  inferInstanceAs (Decidable ("Check failed: ".toList <+: message.toList))

/-- A message that is already different from the one for a check that stopped,
however it goes on. -/
def IsOtherText (message : String) : Prop :=
  ¬"Check failed: ".toList <+: message.toList ∧ ¬message.toList <+: "Check failed: ".toList

instance : DecidablePred IsOtherText := fun message =>
  inferInstanceAs (Decidable (¬"Check failed: ".toList <+: message.toList ∧
    ¬message.toList <+: "Check failed: ".toList))

theorem IsOtherText.append {message : String} (isOther : IsOtherText message) (rest : String) :
    IsOtherText (message ++ rest) := by
  have begins : message.toList <+: (message ++ rest).toList := by
    rw [String.toList_append]
    exact List.prefix_append _ _
  constructor
  · intro isFailure
    rcases List.prefix_or_prefix_of_prefix isFailure begins with begun | within
    · exact isOther.1 begun
    · exact isOther.2 within
  · intro within
    exact isOther.2 (begins.trans within)

theorem LongMethod.reports_react (limit : Nat) (state : State) (event : Event) :
    ∀ text ∈ (react limit state event).reports,
      ∃ method count, text = message method count limit := by
  cases event <;> grind [react, Reaction.next, Reaction.fault, Reaction.report]

theorem MagicNumber.reports_react (scope : MethodScope) (event : Event) :
    ∀ text ∈ (react scope event).reports, ∃ constant method, text = message constant method := by
  cases event <;> grind [react, findings, Reaction.next, Reaction.fault, Reaction.report]

theorem UnusedField.reports_react (state : State) (event : Event) :
    ∀ text ∈ (react state event).reports, ∃ name, text = message name := by
  intro text member
  cases event with
  | field field =>
      simp only [react] at member
      split at member <;> cases member
  | instruction instruction => cases instruction <;> cases member
  | classEnd =>
      obtain ⟨name, _, rfl⟩ := List.mem_map.mp member
      exact ⟨name, rfl⟩
  | classHeader _ | methodStart _ | methodEnd => cases member

theorem NullReturn.reports_react (scanInitializers : Bool) (state : State) (event : Event) :
    ∀ text ∈ (react scanInitializers state event).reports, ∃ method, text = message method := by
  cases event <;> grind [react, Reaction.next, Reaction.fault, Reaction.report]

theorem ConstructorVisibility.reports_react (state : State) (event : Event) :
    ∀ text ∈ (react state event).reports,
      text = "Public class has no public or protected constructors." := by
  cases event <;> grind [react, Reaction.next, Reaction.fault, Reaction.report]

theorem NamingConvention.mem_findings (event : Event) :
    ∀ text ∈ findings event,
      text = "Class name should start with an uppercase letter." ∨
        ∃ name, text = "Method '" ++ name ++ "' should start with a lowercase letter." ∨
          text = "Field '" ++ name ++ "' should start with a lowercase letter." := by
  cases event <;> grind [findings]

/-- No built-in check reports a text that could be taken for a failure. -/
theorem BuiltInCheck.not_isFailureText (config : Config) (check : BuiltInCheck)
    (context : CheckContext) (state : (check.toCheck config).State) (event : Event) :
    ∀ text ∈ ((check.toCheck config).react context state event).reports,
      ¬IsFailureText text := by
  intro text member
  have methodOther : IsOtherText "Method '" := by decide
  cases check with
  | namingConvention =>
      rcases NamingConvention.mem_findings event text member with rfl | ⟨name, rfl | rfl⟩
      · decide
      · exact ((methodOther.append _).append _).1
      · have fieldOther : IsOtherText "Field '" := by decide
        exact ((fieldOther.append _).append _).1
  | constructorVisibility =>
      rw [ConstructorVisibility.reports_react state event text member]
      decide
  | longMethod =>
      obtain ⟨method, count, rfl⟩ := LongMethod.reports_react _ state event text member
      exact ((((((methodOther.append _).append _).append _).append _).append _).append _).1
  | magicNumber =>
      obtain ⟨constant, method, rfl⟩ := MagicNumber.reports_react state event text member
      have numberOther : IsOtherText "Magic number " := by decide
      exact ((((numberOther.append _).append _).append _).append _).1
  | unusedField =>
      obtain ⟨name, rfl⟩ := UnusedField.reports_react state event text member
      have fieldOther : IsOtherText "Private field '" := by decide
      exact ((fieldOther.append _).append _).1
  | nullReturn =>
      obtain ⟨method, rfl⟩ := NullReturn.reports_react _ state event text member
      exact ((methodOther.append _).append _).1

namespace Check

variable {check : Check} {allowed : String → Prop}

theorem replayFrom_reports
    (reportsAllowed : ∀ context state event,
      ∀ text ∈ (check.react context state event).reports, allowed text)
    (className : String) (state : check.State) (reported : Nat) {reports : List String}
    (earlierAllowed : ∀ text ∈ reports, allowed text) (events : List Event) :
    ∀ text ∈ (check.replayFrom className state reported reports events).reports,
      allowed text := by
  induction events generalizing state reported reports with
  | nil => simpa [replayFrom] using earlierAllowed
  | cons event events ih =>
      have nextAllowed : ∀ text ∈
          (check.react ⟨className, reported⟩ state event).reports.reverse ++ reports,
          allowed text := by
        intro text member
        rcases List.mem_append.mp member with new | earlier
        · exact reportsAllowed _ _ _ text (List.mem_reverse.mp new)
        · exact earlierAllowed text earlier
      rw [replayFrom]
      split
      · intro text member
        exact nextAllowed text (List.mem_reverse.mp member)
      · exact ih _ _ nextAllowed

end Check

namespace BuiltInCheck

theorem replay_outline_messages (config : Config) (check : BuiltInCheck) (className : String)
    (state : (check.toCheck config).State) (outline : ClassOutline) :
    ∀ text ∈ ((check.toCheck config).replay className state outline.events).messages,
      ¬IsFailureText text := by
  intro text member
  rw [Check.Replay.messages, replay_outline_stop] at member
  have reported : text ∈
      ((check.toCheck config).replay className state outline.events).reports := by
    simpa using member
  exact Check.replayFrom_reports (check.not_isFailureText config) className state 0 (by simp)
    outline.events text reported

end BuiltInCheck

/-- The events of a decoded class have the order of an outline, and no built-in
check stops at one of them, whatever an earlier class left in it.  So a runner of
built-in checks gives no finding on a failed check, and each finding names an
enabled check and the class. -/
theorem decodeClass_faultFree (build : Build) (bytes : List UInt8) (events : List Event)
    (decoded : build.decode bytes = some (.ok events)) :
    ∃ outline : ClassOutline, events = outline.events ∧
      (∀ (config : Config) (check : BuiltInCheck) (className : String)
        (state : (check.toCheck config).State),
        ((check.toCheck config).replay className ((check.toCheck config).reset state)
          events).stop = none) ∧
      ∀ (config : Config) (runner : Runner) (path : Path),
        runner.checks = BuiltInCheck.enabled config →
          ∃ after diagnostics,
            runner.analyzeBytes build path bytes = some (after, ⟨true, diagnostics⟩) ∧
            ∀ diagnostic ∈ diagnostics,
              ¬IsFailureText diagnostic.message ∧
              (∃ check : BuiltInCheck, config.isEnabled check.name ∧
                diagnostic.check = check.name) ∧
              diagnostic.className = outline.header.simpleName := by
  obtain ⟨outline, rfl⟩ := Build.exists_outline_of_decode decoded
  refine ⟨outline, rfl, ?_, ?_⟩
  · intro config check className state
    exact check.replay_outline_stop config className _ outline
  · intro config runner path checksEq
    refine ⟨_, (runner.analyzeClass outline.events).2,
      Option.map_eq_some_iff.mpr ⟨_, decoded, rfl⟩, ?_⟩
    intro diagnostic member
    obtain ⟨check, checkMember, state, text, textMember, rfl⟩ := Runner.mem_analyzeClass member
    rw [checksEq] at checkMember
    obtain ⟨builtIn, isEnabled, rfl⟩ := BuiltInCheck.exists_of_mem_enabled checkMember
    exact ⟨builtIn.replay_outline_messages config _ _ outline text textMember,
      ⟨builtIn, isEnabled, builtIn.name_toCheck config⟩, rfl⟩

/-- A public class `Repo` with a private field and a method that returns null. -/
def repoClass : List UInt8 :=
  [0xCA, 0xFE, 0xBA, 0xBE, 0, 0, 0, 52, 0, 8,
    1, 0, 4, 82, 101, 112, 111,
    7, 0, 1,
    1, 0, 4, 102, 105, 110, 100,
    1, 0, 3, 40, 41, 86,
    1, 0, 4, 67, 111, 100, 101,
    1, 0, 5, 99, 111, 117, 110, 116,
    1, 0, 1, 73,
    0, 33, 0, 2, 0, 0, 0, 0,
    0, 1, 0, 2, 0, 6, 0, 7, 0, 0,
    0, 1, 0, 1, 0, 3, 0, 4, 0, 1,
    0, 5, 0, 0, 0, 14, 0, 1, 0, 1, 0, 0, 0, 2, 1, 0xB0, 0, 0, 0, 0,
    0, 0]

/-- The events of `repoClass`. -/
def repoEvents : List Event :=
  [.classHeader ⟨"Repo", ⟨33⟩, none, []⟩, .field ⟨"count", "I", ⟨2⟩, none⟩,
    .methodStart ⟨"find", "()V", ⟨1⟩⟩, .instruction (.simple 1), .instruction (.simple 0xB0),
    .methodEnd, .classEnd]

theorem decodeClass_faultFree_repoClass :
    Build.checked.decode repoClass = some (.ok repoEvents) ∧
      (Runner.ofConfig {}).checks = BuiltInCheck.enabled {} ∧
      ∃ after diagnostics,
        (Runner.ofConfig {}).analyzeBytes .checked ⟨"Repo.class"⟩ repoClass =
          some (after, ⟨true, diagnostics⟩) ∧
        diagnostics.map (·.check) = ["UnusedField", "NullReturn"] ∧
        ∀ diagnostic ∈ diagnostics,
          ¬IsFailureText diagnostic.message ∧ diagnostic.className = "Repo" := by
  have decoded : Build.checked.decode repoClass = some (.ok repoEvents) := by decide +kernel
  have checksEq : (Runner.ofConfig {}).checks = BuiltInCheck.enabled {} :=
    Runner.checks_ofConfig {}
  obtain ⟨outline, eventsEq, _, sound⟩ :=
    decodeClass_faultFree .checked repoClass repoEvents decoded
  have headerEq : outline.header = ⟨"Repo", ⟨33⟩, none, []⟩ :=
    (Event.classHeader.inj (List.cons.inj eventsEq).1).symm
  obtain ⟨after, diagnostics, resultEq, findings⟩ :=
    sound {} (Runner.ofConfig {}) ⟨"Repo.class"⟩ checksEq
  have checkNames :
      ((Runner.ofConfig {}).analyzeBytes .checked ⟨"Repo.class"⟩ repoClass).map
        (·.2.diagnostics.map (·.check)) = some ["UnusedField", "NullReturn"] := by
    decide +kernel
  rw [resultEq] at checkNames
  refine ⟨decoded, checksEq, after, diagnostics, resultEq, Option.some.inj checkNames, ?_⟩
  intro diagnostic member
  obtain ⟨noFailure, _, nameEq⟩ := findings diagnostic member
  refine ⟨noFailure, nameEq.trans ?_⟩
  rw [headerEq]
  decide

end ClassLint
