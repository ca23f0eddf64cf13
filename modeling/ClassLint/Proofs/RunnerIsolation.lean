import ClassLint.Proofs.Replay
import Mathlib.Data.List.Perm.Basic

/-!
# Isolation of checks in a runner

A runner uses the same instances of its checks for one class after the other,
and a fault may have left an instance in any state.  Since each check is reset
before a class, nothing of that shows: what a runner finds in a class is what
new runners with one check each find in it, put together in the order of the
checks.
-/

namespace ClassLint

namespace Check

/-- A check forgets when its reset leads from every state to that of a new
instance. -/
def Forgets (check : Check) : Prop :=
  ∀ state, check.reset state = check.fresh

/-- What a new runner with this check alone finds in a class. -/
def solo (check : Check) (events : List Event) : List Diagnostic :=
  ((Runner.new [check]).analyzeClass events).2

/-- A check that keeps nothing from one event to the next. -/
def stateless (name : String)
    (react : CheckContext → Event → List String × Option Stop) : Check where
  name := name
  State := Unit
  fresh := ()
  reset := id
  react context state event := ⟨state, (react context event).1, (react context event).2⟩

theorem stateless_forgets (name : String)
    (react : CheckContext → Event → List String × Option Stop) :
    (stateless name react).Forgets :=
  fun _ => rfl

end Check

theorem BuiltInCheck.toCheck_forgets (config : Config) (check : BuiltInCheck) :
    (check.toCheck config).Forgets := by
  cases check <;> exact fun _ => rfl

theorem BuiltInCheck.name_toCheck (config : Config) (check : BuiltInCheck) :
    (check.toCheck config).name = check.name := by
  cases check <;> rfl

theorem BuiltInCheck.exists_of_mem_enabled {config : Config} {check : Check}
    (member : check ∈ BuiltInCheck.enabled config) :
    ∃ builtIn : BuiltInCheck, config.isEnabled builtIn.name = true ∧
      builtIn.toCheck config = check := by
  obtain ⟨builtIn, filtered, checkEq⟩ := List.mem_map.mp member
  exact ⟨builtIn, (List.mem_filter.mp filtered).2, checkEq⟩

/-- A check to register: a built-in one with the parameters of a configuration,
or any check without state. -/
inductive RegisteredCheck where
  | builtIn (check : BuiltInCheck) (config : Config)
  | stateless (name : String)
      (react : CheckContext → Event → List String × Option Stop)

namespace RegisteredCheck

def toCheck : RegisteredCheck → Check
  | .builtIn check config => check.toCheck config
  | .stateless name react => Check.stateless name react

theorem toCheck_forgets (registered : RegisteredCheck) : registered.toCheck.Forgets := by
  cases registered with
  | builtIn check config => exact BuiltInCheck.toCheck_forgets config check
  | stateless name react => exact Check.stateless_forgets name react

end RegisteredCheck

namespace Runner

/-- The checks of a runner, whatever their states. -/
def checks (runner : Runner) : List Check :=
  runner.instances.map (·.check)

@[simp]
theorem checks_new (given : List Check) : (new given).checks = given := by
  simp [checks, new, CheckInstance.new, Function.comp_def]

@[simp]
theorem checks_ofConfig (config : Config) :
    (ofConfig config).checks = BuiltInCheck.enabled config := by
  simp [ofConfig]

theorem enabled_forget {runner : Runner} {config : Config}
    (checksEq : runner.checks = BuiltInCheck.enabled config) :
    ∀ check ∈ runner.checks, check.Forgets := by
  intro check member
  rw [checksEq] at member
  obtain ⟨builtIn, _, rfl⟩ := BuiltInCheck.exists_of_mem_enabled member
  exact builtIn.toCheck_forgets config

@[simp]
theorem checks_analyzeClass (runner : Runner) (events : List Event) :
    (runner.analyzeClass events).1.checks = runner.checks := by
  simp [checks, analyzeClass, CheckInstance.analyze, Function.comp_def]

@[simp]
theorem checks_analyze (runner : Runner) (classes : List (List Event)) :
    (runner.analyze classes).1.checks = runner.checks := by
  induction classes generalizing runner with
  | nil => rfl
  | cons events classes ih =>
      simp only [analyze]
      rw [ih, checks_analyzeClass]

end Runner

theorem CheckInstance.analyze_eq_solo {given : CheckInstance}
    (forgets : given.check.Forgets) (events : List Event) :
    (given.analyze (Runner.reportedName events) events).2 = given.check.solo events := by
  simp only [analyze, Check.solo, Runner.analyzeClass, Runner.new, List.map_cons, List.map_nil,
    List.flatMap_cons, List.flatMap_nil, List.append_nil, CheckInstance.new]
  rw [forgets given.state, forgets given.check.fresh]

namespace Runner

/-- The findings of a runner depend on its checks only, not on their states. -/
theorem analyzeClass_eq_flatMap_solo {runner : Runner}
    (forget : ∀ check ∈ runner.checks, check.Forgets) (events : List Event) :
    (runner.analyzeClass events).2 = runner.checks.flatMap (·.solo events) := by
  simp only [analyzeClass, checks, List.flatMap_map]
  apply List.flatMap_congr
  intro given member
  exact CheckInstance.analyze_eq_solo (forget given.check (List.mem_map_of_mem member)) events

theorem analyze_eq_map_solo {runner : Runner}
    (forget : ∀ check ∈ runner.checks, check.Forgets) (classes : List (List Event)) :
    (runner.analyze classes).2 =
      classes.map fun events => runner.checks.flatMap (·.solo events) := by
  induction classes generalizing runner with
  | nil => rfl
  | cons events classes ih =>
      simp only [analyze, List.map_cons]
      rw [analyzeClass_eq_flatMap_solo forget, ih (by simpa using forget), checks_analyzeClass]

end Runner

theorem Runner.mem_analyzeClass {runner : Runner} {events : List Event}
    {diagnostic : Diagnostic} (member : diagnostic ∈ (runner.analyzeClass events).2) :
    ∃ check ∈ runner.checks, ∃ state, ∃ text ∈
        (check.replay (reportedName events) (check.reset state) events).messages,
      diagnostic = ⟨check.name, reportedName events, text⟩ := by
  simp only [analyzeClass, List.mem_flatMap, List.mem_map] at member
  obtain ⟨_, ⟨given, givenMember, rfl⟩, found⟩ := member
  obtain ⟨text, textMember, rfl⟩ := List.mem_map.mp found
  exact ⟨given.check, List.mem_map_of_mem givenMember, given.state, text, textMember, rfl⟩

theorem Check.check_of_mem_solo {check : Check} {events : List Event} {diagnostic : Diagnostic}
    (member : diagnostic ∈ check.solo events) : diagnostic.check = check.name := by
  obtain ⟨other, otherMember, _, _, _, rfl⟩ := Runner.mem_analyzeClass member
  rw [Runner.checks_new, List.mem_singleton] at otherMember
  rw [otherMember]

/-- What a check finds alone is what a session of a new instance gives up to its
first stop, under the name of the check. -/
theorem Check.solo_reported {check : Check} (forgets : check.Forgets) (events : List Event) :
    ∃ messages, Session.Outcome.Reported
        ((Session.new check (Runner.reportedName events)).outcomes events) messages ∧
      check.solo events = messages.map fun message =>
        ⟨check.name, Runner.reportedName events, message⟩ := by
  obtain ⟨messages, reported, messagesEq⟩ := Check.replayFrom_reported
    (Session.new check (Runner.reportedName events)) [] events
  refine ⟨messages, reported, ?_⟩
  have soloEq : check.solo events =
      (check.replay (Runner.reportedName events) (check.reset check.fresh) events).messages.map
        fun message => ⟨check.name, Runner.reportedName events, message⟩ := by
    simp [solo, Runner.analyzeClass, Runner.new, CheckInstance.new, CheckInstance.analyze,
      Replay.diagnostics, Replay.messages]
  rw [soloEq, forgets]
  exact congrArg _ messagesEq

/-- A runner that has analysed any classes before finds in a class what its
checks find alone, each up to its first fault, in the order of the checks.  So it
analyses each of several classes as a new runner does, in any order. -/
theorem Runner.analyzeClass_isolated (registered : List RegisteredCheck)
    (history classes : List (List Event)) (events : List Event) :
    let checks := registered.map RegisteredCheck.toCheck
    let runner := ((Runner.new checks).analyze history).1
    let className := match events with
      | .classHeader header :: _ => header.simpleName
      | _ => "<unknown>"
    (runner.analyzeClass events).2 = checks.flatMap (·.solo events) ∧
      (∀ check ∈ checks, ∃ messages,
        Session.Outcome.Reported ((Session.new check className).outcomes events) messages ∧
          check.solo events = messages.map fun message => ⟨check.name, className, message⟩) ∧
      (runner.analyze classes).2 =
        classes.map (fun events => ((Runner.new checks).analyzeClass events).2) ∧
      ∀ reordered, reordered.Perm classes →
        (runner.analyze reordered).2.Perm (runner.analyze classes).2 := by
  intro checks runner className
  have forget : ∀ check ∈ checks, check.Forgets := by
    intro check member
    obtain ⟨given, _, rfl⟩ := List.mem_map.mp member
    exact given.toCheck_forgets
  have checksEq : runner.checks = checks := by simp [runner]
  have runnerForgets : ∀ check ∈ runner.checks, check.Forgets := by rwa [checksEq]
  have newForgets : ∀ check ∈ (Runner.new checks).checks, check.Forgets := by simpa using forget
  have nameEq : className = Runner.reportedName events := rfl
  refine ⟨?_, ?_, ?_, ?_⟩
  · rw [analyzeClass_eq_flatMap_solo runnerForgets, checksEq]
  · intro check member
    rw [nameEq]
    exact Check.solo_reported (forget check member) events
  · rw [analyze_eq_map_solo runnerForgets, checksEq]
    simp only [analyzeClass_eq_flatMap_solo newForgets, checks_new]
  · intro reordered permuted
    rw [analyze_eq_map_solo runnerForgets, analyze_eq_map_solo runnerForgets]
    exact permuted.map _

end ClassLint
