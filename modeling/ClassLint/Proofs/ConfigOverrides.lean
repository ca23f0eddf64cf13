import ClassLint.CommandLine.Run
import ClassLint.Proofs.ConfigValidity
import ClassLint.Proofs.Reading

/-!
# Settings on the command line

What the command line says about settings is put into the loaded configuration.
This file shows that a run does the same as one without these words under a
configuration that holds them, and that neither the order nor the repetition of
checks and globs matters.  All that a run does with the two lists is to ask whether
something is in them.
-/

namespace ClassLint

/-- Two configurations have the same settings, where checks and globs may be listed
in another order or more than once. -/
structure Config.Equivalent (first second : Config) : Prop where
  maxInstructions : first.maxInstructions = second.maxInstructions
  disabledChecks : ∀ check, check ∈ first.disabledChecks ↔ check ∈ second.disabledChecks
  exclude : ∀ glob, glob ∈ first.exclude ↔ glob ∈ second.exclude
  scanInitializers : first.scanInitializers = second.scanInitializers
  parallel : first.parallel = second.parallel

namespace Config.Equivalent

variable {first second : Config} (equivalent : first.Equivalent second)

include equivalent

theorem enabled_eq : BuiltInCheck.enabled first = BuiltInCheck.enabled second := by
  have isEnabledEq : first.isEnabled = second.isEnabled := by
    funext check
    simp only [Config.isEnabled, equivalent.disabledChecks check]
  have toCheckEq (check : BuiltInCheck) : check.toCheck first = check.toCheck second := by
    cases check <;>
      simp only [BuiltInCheck.toCheck, equivalent.maxInstructions, equivalent.scanInitializers]
  simp only [BuiltInCheck.enabled, isEnabledEq, toCheckEq]

theorem run_eq (build : Build) (source : Analyzer.FileSource) (files : List Path) :
    Analyzer.run build first source files = Analyzer.run build second source files := by
  have runnerEq : Runner.ofConfig first = Runner.ofConfig second := by
    rw [Runner.ofConfig, Runner.ofConfig, equivalent.enabled_eq]
  simp only [Analyzer.run, Analyzer.runParallel, Analyzer.runSequential, Analyzer.Work.start,
    runnerEq, equivalent.parallel]

theorem isExcluded_eq (text : String) :
    Discovery.isExcluded (first.exclude.map Glob.ofText) text =
      Discovery.isExcluded (second.exclude.map Glob.ofText) text := by
  rw [Bool.eq_iff_iff]
  simp only [Discovery.isExcluded, List.any_map, List.any_eq_true, equivalent.exclude]

theorem findFiles_eq (tree : FileTree) (root : Path) :
    Discovery.findFiles tree (first.exclude.map Glob.ofText) root =
      Discovery.findFiles tree (second.exclude.map Glob.ofText) root := by
  have isWantedEq : Discovery.isWanted (first.exclude.map Glob.ofText) =
      Discovery.isWanted (second.exclude.map Glob.ofText) := by
    funext file
    rw [Discovery.isWanted, Discovery.isWanted, equivalent.isExcluded_eq]
  simp only [Discovery.findFiles, equivalent.isExcluded_eq, isWantedEq]

theorem exists_refused {accepts : String → Bool} {error : ConfigError}
    (refused : second.excludeGlobs accepts = .error error) :
    ∃ other, first.excludeGlobs accepts = .error other := by
  cases firstEq : first.excludeGlobs accepts with
  | error other => exact ⟨other, rfl⟩
  | ok globs =>
      have accepted := (Config.excludeGlobs_eq_ok_iff.mp firstEq).1
      have secondEq : second.excludeGlobs accepts = .ok (second.exclude.map Glob.ofText) :=
        Config.excludeGlobs_eq_ok_iff.mpr
          ⟨fun glob member => accepted glob ((equivalent.exclude glob).mpr member), rfl⟩
      cases refused.symm.trans secondEq

variable {accepts : String → Bool}
  (accepted : ∀ glob ∈ second.exclude, accepts (Glob.ofText glob).pattern = true)

include accepted

theorem findFilesFor_eq (tree : FileTree) (root : Path) :
    Discovery.findFilesFor accepts tree first root =
      Discovery.findFilesFor accepts tree second root := by
  have firstAccepted : ∀ glob ∈ first.exclude, accepts (Glob.ofText glob).pattern = true :=
    fun glob member => accepted glob ((equivalent.exclude glob).mp member)
  have firstEq := Config.excludeGlobs_eq_ok_iff.mpr ⟨firstAccepted, rfl⟩
  have secondEq := Config.excludeGlobs_eq_ok_iff.mpr ⟨accepted, rfl⟩
  simp only [Discovery.findFilesFor, firstEq, secondEq, equivalent.findFiles_eq]

end Config.Equivalent

namespace CommandLine

/-! ## Checks named on the command line -/

/-- All checks that are to be left out are built-in ones. -/
def Invocation.LeavesOutBuiltIn (invocation : Invocation) : Prop :=
  ∀ check ∈ invocation.disable, check ∈ BuiltInCheck.names

theorem Invocation.LeavesOutBuiltIn.put {invocation next : Invocation}
    (builtIn : invocation.LeavesOutBuiltIn) {parameter : Parameter} {text : String}
    (putEq : invocation.put parameter text = .ok next) : next.LeavesOutBuiltIn := by
  cases parameter with
  | disable =>
      obtain ⟨checks, appendEq, nextEq⟩ := except_bind_eq_ok_iff.mp putEq
      cases nextEq
      unfold append check? at appendEq
      split at appendEq
      · cases appendEq
      · next check readEq =>
        split at readEq
        · next known =>
          cases readEq
          cases appendEq
          intro check member
          rcases List.mem_append.mp member with earlier | latest
          · exact builtIn check earlier
          · rw [List.mem_singleton.mp latest]
            exact known
        · cases readEq
  | path | config | format | output | maxInstructions | exclude | parallel | completions =>
      obtain ⟨filled, _, nextEq⟩ := except_bind_eq_ok_iff.mp putEq
      cases nextEq
      exact builtIn

namespace Parsing

/-- A step of the reading keeps to built-in checks. -/
def KeepsBuiltIn (step : Parsing → Except Stop Parsing) : Prop :=
  ∀ parsing next, parsing.invocation.LeavesOutBuiltIn → step parsing = .ok next →
    next.invocation.LeavesOutBuiltIn

theorem keepsBuiltIn_put (parameter : Parameter) (text : String) :
    KeepsBuiltIn (put · parameter text) := by
  intro parsing next builtIn putEq
  simp only [put] at putEq
  split at putEq
  · next invocation invocationEq =>
    cases putEq
    exact builtIn.put invocationEq
  · cases putEq

theorem keepsBuiltIn_settle : KeepsBuiltIn settle := by
  intro parsing next builtIn settleEq
  unfold settle at settleEq
  split at settleEq
  · cases settleEq
    exact builtIn
  · cases settleEq
  · next parameter text _ =>
    exact keepsBuiltIn_put parameter text { parsing with pending := none } next builtIn settleEq

theorem keepsBuiltIn_takeSwitch (switch : Switch) : KeepsBuiltIn (takeSwitch · switch) := by
  intro parsing next builtIn takeEq
  obtain ⟨settled, settleEq, takeEq⟩ := except_bind_eq_ok_iff.mp takeEq
  have settledBuiltIn := keepsBuiltIn_settle parsing settled builtIn settleEq
  cases switch with
  | help | version => cases takeEq
  | verbose | quiet | listChecks =>
      dsimp only at takeEq
      split at takeEq
      · cases takeEq
      · cases takeEq
        exact settledBuiltIn

theorem keepsBuiltIn_takeParameter (parameter : Parameter) (value : Option String) :
    KeepsBuiltIn (takeParameter · parameter value) := by
  intro parsing next builtIn takeEq
  obtain ⟨settled, settleEq, takeEq⟩ := except_bind_eq_ok_iff.mp takeEq
  have settledBuiltIn := keepsBuiltIn_settle parsing settled builtIn settleEq
  cases value with
  | some text => exact keepsBuiltIn_put parameter text settled next settledBuiltIn takeEq
  | none =>
      cases takeEq
      exact settledBuiltIn

theorem keepsBuiltIn_takePath (word : String) : KeepsBuiltIn (takePath · word) := by
  intro parsing next builtIn takeEq
  obtain ⟨settled, settleEq, takeEq⟩ := except_bind_eq_ok_iff.mp takeEq
  have settledBuiltIn := keepsBuiltIn_settle parsing settled builtIn settleEq
  split at takeEq
  · cases takeEq
  · cases takeEq
    exact settledBuiltIn

theorem keepsBuiltIn_takeLong (chars : List Char) : KeepsBuiltIn (takeLong · chars) := by
  intro parsing next builtIn takeEq
  simp only [takeLong] at takeEq
  split at takeEq
  · exact keepsBuiltIn_takeParameter _ _ parsing next builtIn takeEq
  · split at takeEq
    · exact keepsBuiltIn_takeSwitch _ parsing next builtIn takeEq
    · cases takeEq
  · cases takeEq

theorem keepsBuiltIn_takeShort (chars : List Char) : KeepsBuiltIn (takeShort · chars) := by
  induction chars with
  | nil =>
      rintro parsing next builtIn ⟨⟩
      exact builtIn
  | cons char rest ih =>
      intro parsing next builtIn takeEq
      simp only [takeShort] at takeEq
      split at takeEq
      · exact keepsBuiltIn_takeParameter _ _ parsing next builtIn takeEq
      · split at takeEq
        · next switched switchEq =>
          have switchedBuiltIn := keepsBuiltIn_takeSwitch _ parsing switched builtIn switchEq
          exact ih switched next switchedBuiltIn takeEq
        · cases takeEq
      · cases takeEq

theorem keepsBuiltIn_takeValue (word : String) : KeepsBuiltIn (takeValue · word) := by
  intro parsing next builtIn takeEq
  simp only [takeValue] at takeEq
  split at takeEq
  · cases takeEq
    exact builtIn
  · exact keepsBuiltIn_takePath word parsing next builtIn takeEq

theorem keepsBuiltIn_step (word : String) : KeepsBuiltIn (step · word) := by
  intro parsing next builtIn stepEq
  simp only [step] at stepEq
  split at stepEq
  · exact keepsBuiltIn_takePath word parsing next builtIn stepEq
  · split at stepEq
    · cases stepEq
      exact builtIn
    · exact keepsBuiltIn_takeLong _ parsing next builtIn stepEq
    · exact keepsBuiltIn_takeShort _ parsing next builtIn stepEq
    · exact keepsBuiltIn_takeValue word parsing next builtIn stepEq

theorem keepsBuiltIn_foldlM (words : List String) : KeepsBuiltIn (words.foldlM step ·) := by
  induction words with
  | nil =>
      rintro parsing next builtIn ⟨⟩
      exact builtIn
  | cons word words ih =>
      intro parsing next builtIn foldEq
      simp only [List.foldlM_cons] at foldEq
      obtain ⟨stepped, stepEq, foldEq⟩ := except_bind_eq_ok_iff.mp foldEq
      exact ih stepped next (keepsBuiltIn_step word parsing stepped builtIn stepEq) foldEq

end Parsing

theorem disable_builtIn_of_parse {words : List String} {request : Request}
    (parseEq : parse words = .ok (.analyze request)) :
    ∀ check ∈ request.overrides.disable, check ∈ BuiltInCheck.names := by
  unfold parse at parseEq
  split at parseEq
  · next parsing readEq =>
    obtain ⟨folded, foldEq, settleEq⟩ := except_bind_eq_ok_iff.mp readEq
    have noneYet : ({} : Parsing).invocation.LeavesOutBuiltIn := by
      intro check member
      cases member
    have foldedBuiltIn := Parsing.keepsBuiltIn_foldlM words {} folded noneYet foldEq
    have builtIn := Parsing.keepsBuiltIn_settle folded parsing foldedBuiltIn settleEq
    unfold Invocation.command at parseEq
    split at parseEq
    · cases parseEq
    · cases parseEq
    · cases parseEq
    · cases parseEq
      exact builtIn
  · cases parseEq
  · cases parseEq
  · cases parseEq

/-! ## Loaded configurations -/

section Loading

variable {accepts : String → Bool} {tree : FileTree}

theorem validate_of_ofFile {path : Path} {config : Config}
    (loadEq : Config.ofFile accepts tree path = .ok config) :
    config.validate accepts = .ok () := by
  unfold Config.ofFile at loadEq
  split at loadEq
  · cases loadEq
  · split at loadEq
    · cases loadEq
    · split at loadEq
      · cases loadEq
      · split at loadEq
        · next validateEq =>
          cases loadEq
          exact validateEq
        · cases loadEq

theorem validate_of_baseConfig {request : Request} {base : Config}
    (loadEq : baseConfig accepts tree request = .ok base) : base.validate accepts = .ok () := by
  unfold baseConfig Config.ofDefaultLocations at loadEq
  split at loadEq
  · exact validate_of_ofFile loadEq
  · split at loadEq
    · cases loadEq
      rfl
    · split at loadEq
      · exact validate_of_ofFile loadEq
      · cases loadEq
        rfl

end Loading

/-! ## Settings put in -/

/-- The configuration that holds what the command line says.  Its lists are those of
the given configuration, followed by those of the command line. -/
def Overrides.merged (overrides : Overrides) (base : Config) : Config where
  maxInstructions := overrides.maxInstructions.getD base.maxInstructions
  disabledChecks := base.disabledChecks ++ overrides.disable
  exclude := base.exclude ++ overrides.exclude
  scanInitializers := base.scanInitializers
  parallel := overrides.parallel.getD base.parallel

theorem mem_foldl_addNew (added : List String) (names : List String) (name : String) :
    name ∈ added.foldl (fun names check => if check ∈ names then names else names ++ [check])
        names ↔
      name ∈ names ∨ name ∈ added := by
  induction added generalizing names with
  | nil => simp
  | cons first added ih =>
      rw [List.foldl_cons, ih, List.mem_cons]
      by_cases known : first ∈ names
      · rw [if_pos known]
        constructor
        · rintro (earlier | later)
          · exact .inl earlier
          · exact .inr (.inr later)
        · rintro (earlier | rfl | later)
          · exact .inl earlier
          · exact .inl known
          · exact .inr later
      · rw [if_neg known, List.mem_append, List.mem_singleton, or_assoc]

theorem Overrides.apply_equivalent (overrides : Overrides) (base : Config) :
    (overrides.apply base).Equivalent (overrides.merged base) where
  maxInstructions := rfl
  disabledChecks check := by
    rw [Overrides.apply, Overrides.merged, mem_foldl_addNew, List.mem_append]
  exclude _ := Iff.rfl
  scanInitializers := rfl
  parallel := rfl

theorem Overrides.merged_nothing (base : Config) :
    (⟨none, [], [], none⟩ : Overrides).merged base = base := by
  simp [merged]

theorem Overrides.merged_equivalent (overrides other : Overrides)
    (maxInstructions : other.maxInstructions = overrides.maxInstructions)
    (disable : ∀ check, check ∈ other.disable ↔ check ∈ overrides.disable)
    (exclude : ∀ glob, glob ∈ other.exclude ↔ glob ∈ overrides.exclude)
    (parallel : other.parallel = overrides.parallel) (base : Config) :
    (other.merged base).Equivalent (overrides.merged base) where
  maxInstructions := by rw [merged, merged, maxInstructions]
  disabledChecks check := by
    rw [merged, merged, List.mem_append, List.mem_append, disable]
  exclude glob := by
    rw [merged, merged, List.mem_append, List.mem_append, exclude]
  scanInitializers := rfl
  parallel := by rw [merged, merged, parallel]

/-- The outcome of an analysis under a configuration. -/
def runUnder (host : Host) (tree : FileTree) (request : Request) (config : Config) : Outcome :=
  .ofReport tree (reportWith host tree request config)

theorem runUnder_of_equivalent {first second : Config} (equivalent : first.Equivalent second)
    {host : Host}
    (accepted : ∀ glob ∈ second.exclude, host.accepts (Glob.ofText glob).pattern = true)
    (tree : FileTree) (request : Request) :
    runUnder host tree request first = runUnder host tree request second := by
  simp only [runUnder, reportWith, equivalent.findFilesFor_eq accepted, equivalent.run_eq]

/-- Globs that are refused keep an analysis from being completed. -/
theorem runUnder_of_refused {host : Host} {config : Config} {error : ConfigError}
    (refused : config.excludeGlobs host.accepts = .error error) (tree : FileTree)
    (request : Request) :
    runUnder host tree request config = ⟨2, "", error.message ++ "\n", tree⟩ := by
  simp only [runUnder, reportWith, Discovery.findFilesFor, refused]
  rfl

theorem run_eq_runUnder {words : List String} {request : Request}
    (parseEq : parse words = .ok (.analyze request)) {host : Host} {tree : FileTree}
    {base : Config} (loadEq : baseConfig host.accepts tree request = .ok base) :
    run host tree words = runUnder host tree request (request.overrides.merged base) := by
  have equivalent := request.overrides.apply_equivalent base
  have known : ∀ check ∈ (request.overrides.apply base).disabledChecks,
      check ∈ BuiltInCheck.names := by
    intro check member
    rcases List.mem_append.mp ((equivalent.disabledChecks check).mp member) with given | added
    · exact (Config.validate_eq_ok_iff.mp (validate_of_baseConfig loadEq)).1 check given
    · exact disable_builtIn_of_parse parseEq check added
  have runEq : run host tree words = .ofReport tree (report host tree request) := by
    rw [run, parseEq]
    rfl
  -- What the command line excludes is put behind what the configuration excludes either way.
  have validateEq : (request.overrides.apply base).validate host.accepts =
      ((request.overrides.merged base).excludeGlobs host.accepts).map fun _ => () :=
    Config.validate_of_known known
  cases globsEq : (request.overrides.merged base).excludeGlobs host.accepts with
  | error error =>
      rw [globsEq] at validateEq
      have refused : loadConfig host.accepts tree request = .error error := by
        simp only [loadConfig, loadEq, validateEq]
        rfl
      rw [runEq, runUnder_of_refused globsEq]
      simp only [report, refused]
      rfl
  | ok globs =>
      rw [globsEq] at validateEq
      have loaded : loadConfig host.accepts tree request =
          .ok (request.overrides.apply base) := by
        simp only [loadConfig, loadEq, validateEq]
        rfl
      have accepted := (Config.excludeGlobs_eq_ok_iff.mp globsEq).1
      rw [runEq, ← runUnder_of_equivalent equivalent accepted]
      simp only [report, loaded]
      rfl

/-- A run whose command line gives settings does what a run under the configuration
with these settings does: it prints the same, leaves the same files behind and ends
with the same status.  So it does not matter whether settings are given on the command
line or in the configuration, nor in which order and how often checks and globs are
given.  Only which one is named of several globs that are refused depends on the order. -/
theorem run_overridden {words : List String} {request : Request}
    (parseEq : parse words = .ok (.analyze request)) {host : Host} {tree : FileTree}
    {base : Config} (loadEq : baseConfig host.accepts tree request = .ok base) :
    let given := request.overrides
    let merged : Config :=
      { maxInstructions := given.maxInstructions.getD base.maxInstructions
        disabledChecks := base.disabledChecks ++ given.disable
        exclude := base.exclude ++ given.exclude
        scanInitializers := base.scanInitializers
        parallel := given.parallel.getD base.parallel }
    run host tree words = runUnder host tree request merged ∧
      (∀ plainWords config,
        parse plainWords = .ok (.analyze
          { request with config := config, overrides := ⟨none, [], [], none⟩ }) →
        baseConfig host.accepts tree { request with config := config } = .ok merged →
        run host tree plainWords = run host tree words) ∧
      ∀ otherWords disable exclude,
        parse otherWords = .ok (.analyze
          { request with overrides := { given with disable := disable, exclude := exclude } }) →
        (∀ check, check ∈ disable ↔ check ∈ given.disable) →
        (∀ glob, glob ∈ exclude ↔ glob ∈ given.exclude) →
        (run host tree otherWords).status = (run host tree words).status ∧
        (run host tree otherWords).output = (run host tree words).output ∧
        (run host tree otherWords).tree = (run host tree words).tree ∧
        ((∀ glob ∈ merged.exclude, host.accepts (Glob.ofText glob).pattern = true) →
          run host tree otherWords = run host tree words) := by
  intro given merged
  have runEq : run host tree words = runUnder host tree request merged :=
    run_eq_runUnder parseEq loadEq
  refine ⟨runEq, ?_, ?_⟩
  · intro plainWords config plainEq plainLoad
    rw [runEq, run_eq_runUnder plainEq plainLoad, Overrides.merged_nothing]
    rfl
  · intro otherWords disable exclude otherEq sameChecks sameGlobs
    let other : Overrides := { given with disable := disable, exclude := exclude }
    have equivalent : (other.merged base).Equivalent merged :=
      given.merged_equivalent other rfl sameChecks sameGlobs rfl base
    have otherRunEq : run host tree otherWords =
        runUnder host tree request (other.merged base) :=
      run_eq_runUnder otherEq loadEq
    have same : (∀ glob ∈ merged.exclude, host.accepts (Glob.ofText glob).pattern = true) →
        run host tree otherWords = run host tree words := by
      intro accepted
      rw [otherRunEq, runEq, runUnder_of_equivalent equivalent accepted]
    cases globsEq : merged.excludeGlobs host.accepts with
    | ok globs =>
        have runsEq := same (Config.excludeGlobs_eq_ok_iff.mp globsEq).1
        exact ⟨by rw [runsEq], by rw [runsEq], by rw [runsEq], same⟩
    | error error =>
        obtain ⟨otherError, otherGlobsEq⟩ := equivalent.exists_refused globsEq
        rw [runUnder_of_refused globsEq] at runEq
        rw [runUnder_of_refused otherGlobsEq] at otherRunEq
        exact ⟨by rw [runEq, otherRunEq], by rw [runEq, otherRunEq], by rw [runEq, otherRunEq],
          same⟩

/-- The text of a configuration that leaves out one check. -/
def shortText : String := "\x7b\"disabled_checks\": [\"LongMethod\"]\x7d"

/-- The text of a configuration with the settings of a command line put in. -/
def fullText : String :=
  "\x7b\"max_instructions\": 7, \"disabled_checks\": [\"LongMethod\", \"NullReturn\"], " ++
    "\"exclude\": [\"*Test.class\"], \"parallel\": false\x7d"

/-- A class file in a directory, with both configurations beside the directory. -/
def twoConfigsTree : FileTree :=
  ⟨[(["short.json"], .file (Utf8.encode shortText)), (["full.json"], .file (Utf8.encode fullText)),
    (["classes"], .directory), (["A.class", "classes"], .file [0xca, 0xfe])]⟩

/-- A request to analyse the directory in that tree. -/
def twoConfigsRequest (config : String) (overrides : Overrides) : Request where
  path := ⟨"classes"⟩
  config := some ⟨config⟩
  format := .terminal
  output := none
  overrides := overrides
  verbose := false
  quiet := false

theorem read_twoConfigsTree :
    twoConfigsTree.read ⟨"short.json"⟩ = .ok (Utf8.encode shortText) ∧
      twoConfigsTree.read ⟨"full.json"⟩ = .ok (Utf8.encode fullText) := by
  have shortSteps : (Path.mk "short.json").steps = ["short.json"] := by decide
  have fullSteps : (Path.mk "full.json").steps = ["full.json"] := by decide
  have pathsFit : ¬pathLimit < "short.json".utf8ByteSize ∧
      ¬pathLimit < "full.json".utf8ByteSize := by decide
  have namesFit : ¬nameLimit < "short.json".utf8ByteSize ∧
      ¬nameLimit < "full.json".utf8ByteSize := by decide
  constructor
  all_goals
    simp [FileTree.read, FileTree.locate, FileTree.resolve, shortSteps, fullSteps, pathsFit,
      namesFit, FileTree.resolveFrom, FileTree.entry?, twoConfigsTree, bind, Except.bind, pure,
      Except.pure]

theorem baseConfig_twoConfigsTree (overrides : Overrides) :
    baseConfig (fun _ => true) twoConfigsTree (twoConfigsRequest "short.json" overrides) =
        .ok { disabledChecks := ["LongMethod"] } ∧
      baseConfig (fun _ => true) twoConfigsTree (twoConfigsRequest "full.json" overrides) =
        .ok ⟨7, ["LongMethod", "NullReturn"], ["*Test.class"], true, false⟩ := by
  simp only [baseConfig, twoConfigsRequest, Config.ofFile, Config.readText?, read_twoConfigsTree]
  decide +kernel

theorem run_overridden_twoConfigs :
    let words := ["classes", "-c", "short.json", "--max-instructions=7", "--disable=NullReturn",
      "-e", "*Test.class", "--parallel=false"]
    let repeated := words ++ ["--disable=NullReturn", "--exclude=*Test.class"]
    let overrides : Overrides := ⟨some 7, ["NullReturn"], ["*Test.class"], some false⟩
    let host : Host := ⟨.checked, false, fun _ => true⟩
    parse words = .ok (.analyze (twoConfigsRequest "short.json" overrides)) ∧
      baseConfig host.accepts twoConfigsTree (twoConfigsRequest "short.json" overrides) =
        .ok { disabledChecks := ["LongMethod"] } ∧
      run host twoConfigsTree ["classes", "-c", "full.json"] =
        run host twoConfigsTree words ∧
      run host twoConfigsTree repeated = run host twoConfigsTree words := by
  intro words repeated overrides host
  have parseEq : parse words = .ok (.analyze (twoConfigsRequest "short.json" overrides)) := rfl
  have loadEq : baseConfig host.accepts twoConfigsTree
      (twoConfigsRequest "short.json" overrides) = .ok { disabledChecks := ["LongMethod"] } :=
    (baseConfig_twoConfigsTree overrides).1
  obtain ⟨-, plain, shuffled⟩ := run_overridden parseEq loadEq
  refine ⟨parseEq, loadEq, ?_, ?_⟩
  · exact plain _ (some ⟨"full.json"⟩) rfl (baseConfig_twoConfigsTree _).2
  · obtain ⟨-, -, -, same⟩ :=
      shuffled repeated ["NullReturn", "NullReturn"] ["*Test.class", "*Test.class"] rfl
        (by simp [twoConfigsRequest, overrides]) (by simp [twoConfigsRequest, overrides])
    exact same fun _ _ => rfl

end CommandLine

end ClassLint
