import ClassLint.CommandLine.Run
import ClassLint.Proofs.ConfigValidity
import ClassLint.Proofs.RunAccounting
import ClassLint.Proofs.TreeShape

/-!
# The exit status of an analysis

An analysis ends with status 2 if it has no valid configuration, if no list of
files can be given, or if the report cannot be written.  It ends with status 101 if a
file stops the program, which only happens to a build with checks.  In all other cases
the status is 0, whatever is found in the files.  So the contents of files do not
matter to the status, except for that of the configuration file.
-/

namespace ClassLint

namespace CommandLine

/-- A file that is found stops the program. -/
def Stops (host : Host) (tree : FileTree) (request : Request) : Prop :=
  ∃ config files, loadConfig host.accepts tree request = .ok config ∧
    Discovery.findFilesFor host.accepts tree config request.path = .ok files ∧
    ∃ path ∈ files, Analyzer.Overflows host.build tree.read path

theorem not_stops_of_release {host : Host} (isRelease : host.build = .release)
    (tree : FileTree) (request : Request) : ¬Stops host tree request := by
  rintro ⟨config, files, _, _, path, _, overflows⟩
  rw [isRelease] at overflows
  exact Analyzer.not_overflows_release tree.read path overflows

/-- What keeps an analysis from being completed. -/
inductive Fatal (host : Host) (tree : FileTree) (request : Request) : Prop
  | loading {error : ConfigError}
      (loadEq : baseConfig host.accepts tree request = .error error)
  | unknownCheck {base : Config} {check : String}
      (loadEq : baseConfig host.accepts tree request = .ok base)
      (member : check ∈ (request.overrides.apply base).disabledChecks)
      (unknown : check ∉ BuiltInCheck.names)
  | refusedGlob {base : Config} {glob : String}
      (loadEq : baseConfig host.accepts tree request = .ok base)
      (member : glob ∈ (request.overrides.apply base).exclude)
      (refused : host.accepts (Glob.ofText glob).pattern = false)
  | discovery {config : Config} {error : DiscoveryError}
      (loadEq : loadConfig host.accepts tree request = .ok config)
      (findEq : Discovery.findFilesFor host.accepts tree config request.path = .error error)
  | delivery {path : Path} (completes : ¬Stops host tree request)
      (isJson : request.format = .json) (outputEq : request.output = some path)
      (cannotWrite : ¬tree.CanWrite path)

theorem deliver_eq_error_iff (tree : FileTree) (color : Bool) (format : ReportFormat)
    (output : Option Path) (calls : List ReportCall) :
    (∃ error, deliver tree color format output calls = .error error) ↔
      format = .json ∧ ∃ path, output = some path ∧ ¬tree.CanWrite path := by
  cases format with
  | terminal => simp [deliver]
  | json =>
      cases output with
      | none => simp [deliver, JsonReport.Gathered.deliver]
      | some path =>
          simp only [deliver, JsonReport.Gathered.deliver, true_and, Option.some.injEq,
            exists_eq_left']
          rw [← tree.exists_write_eq_ok_iff path (Utf8.encode (JsonReport.gather calls).document)]
          cases tree.write path (Utf8.encode (JsonReport.gather calls).document) with
          | ok after => simp
          | error error => simp

section Files

variable {host : Host} {tree : FileTree} {request : Request} {config : Config}
  {files : List Path}

theorem reportWith_of_overflows
    (findEq : Discovery.findFilesFor host.accepts tree config request.path = .ok files)
    (stops : ∃ path ∈ files, Analyzer.Overflows host.build tree.read path) :
    ∃ printed, reportWith host tree request config = .error (.stopped printed) := by
  obtain ⟨calls, runEq⟩ := Analyzer.run_of_overflows config stops
  obtain ⟨path, member, _⟩ := stops
  have someFile : ¬(files = [] ∧ request.format = .terminal) := by
    rintro ⟨rfl, _⟩
    cases member
  simp only [reportWith, findEq, if_neg someFile, runEq]
  exact ⟨_, rfl⟩

/-- Once there is a list of files that do not stop the program, only the delivery of the
report can fail. -/
theorem reportWith_of_goesOn
    (findEq : Discovery.findFilesFor host.accepts tree config request.path = .ok files)
    (goesOn : ∀ path ∈ files, ¬Analyzer.Overflows host.build tree.read path) :
    ∃ result : Except FatalError (String × FileTree),
      reportWith host tree request config = result.mapError .fatal ∧
      ((∃ error, result = .error error) ↔
        request.format = .json ∧ ∃ path, request.output = some path ∧ ¬tree.CanWrite path) := by
  by_cases nothing : files = [] ∧ request.format = .terminal
  · refine ⟨.ok (Terminal.noFilesLine host.color, tree), ?_, by simp [nothing.2]⟩
    simp only [reportWith, findEq, if_pos nothing]
    rfl
  · obtain ⟨course, runEq⟩ : ∃ course,
        Analyzer.run host.build config tree.read files = .ok course :=
      ⟨_, Analyzer.run_eq_reportFresh config goesOn⟩
    refine ⟨deliver tree host.color request.format request.output course.2, ?_,
      deliver_eq_error_iff tree host.color request.format request.output course.2⟩
    simp only [reportWith, findEq, if_neg nothing, runEq]

end Files

/-- The three ways in which an analysis ends. -/
inductive Ending (host : Host) (tree : FileTree) (request : Request) : Outcome → Prop
  | completed {printed : String} {after : FileTree} (notFatal : ¬Fatal host tree request)
      (notStopped : ¬Stops host tree request) :
      Ending host tree request ⟨0, printed, "", after⟩
  | fatal {error : FatalError} (isFatal : Fatal host tree request)
      (notStopped : ¬Stops host tree request) :
      Ending host tree request ⟨2, "", error.message ++ "\n", tree⟩
  | stopped {printed : String} (isStopped : Stops host tree request)
      (notFatal : ¬Fatal host tree request) :
      Ending host tree request ⟨101, printed, overflowNote ++ "\n", tree⟩

namespace Ending

variable {host : Host} {tree : FileTree} {request : Request} {outcome : Outcome}

theorem status_eq_two_iff (ending : Ending host tree request outcome) :
    outcome.status = 2 ↔ Fatal host tree request := by
  cases ending with
  | completed notFatal | stopped _ notFatal => simp [notFatal]
  | fatal isFatal => simp [isFatal]

theorem status_eq_stopped_iff (ending : Ending host tree request outcome) :
    outcome.status = 101 ↔ Stops host tree request := by
  cases ending with
  | completed _ notStopped | fatal _ notStopped => simp [notStopped]
  | stopped isStopped => simp [isStopped]

theorem status_eq_zero (ending : Ending host tree request outcome)
    (notFatal : ¬Fatal host tree request) (notStopped : ¬Stops host tree request) :
    outcome.status = 0 := by
  cases ending with
  | completed => rfl
  | fatal isFatal => exact absurd isFatal notFatal
  | stopped isStopped => exact absurd isStopped notStopped

theorem output_of_status_eq_two (ending : Ending host tree request outcome)
    (statusEq : outcome.status = 2) : outcome.output = "" ∧ outcome.tree = tree := by
  cases ending with
  | completed | stopped => cases statusEq
  | fatal => exact ⟨rfl, rfl⟩

theorem tree_of_status_eq_stopped (ending : Ending host tree request outcome)
    (statusEq : outcome.status = 101) : outcome.tree = tree := by
  cases ending with
  | completed | fatal => cases statusEq
  | stopped => rfl

/-- The causes of an ending determine its status. -/
theorem status_eq {otherTree : FileTree} {other : Outcome}
    (ending : Ending host tree request outcome)
    (otherEnding : Ending host otherTree request other)
    (sameFatal : Fatal host otherTree request ↔ Fatal host tree request)
    (sameStops : Stops host otherTree request ↔ Stops host tree request) :
    other.status = outcome.status := by
  cases ending with
  | completed notFatal notStopped =>
      exact otherEnding.status_eq_zero (mt sameFatal.mp notFatal) (mt sameStops.mp notStopped)
  | fatal isFatal => exact otherEnding.status_eq_two_iff.mpr (sameFatal.mpr isFatal)
  | stopped isStopped => exact otherEnding.status_eq_stopped_iff.mpr (sameStops.mpr isStopped)

end Ending

theorem exists_loadConfig_error_iff {host : Host} {tree : FileTree} {request : Request} :
    (∃ error, loadConfig host.accepts tree request = .error error) ↔
      (∃ error, baseConfig host.accepts tree request = .error error) ∨
      ∃ base, baseConfig host.accepts tree request = .ok base ∧
        ((∃ check ∈ (request.overrides.apply base).disabledChecks,
            check ∉ BuiltInCheck.names) ∨
          ∃ glob ∈ (request.overrides.apply base).exclude,
            host.accepts (Glob.ofText glob).pattern = false) := by
  simp only [← Config.exists_validate_error_iff]
  unfold loadConfig
  cases baseConfig host.accepts tree request with
  | error error => simp
  | ok base =>
      dsimp only
      cases validateEq : (request.overrides.apply base).validate host.accepts with
      | error error => simp [validateEq]
      | ok valid => simp [validateEq]

section Endings

variable {host : Host} {tree : FileTree} {request : Request}

theorem fatal_of_loadConfig_error {error : ConfigError}
    (loadEq : loadConfig host.accepts tree request = .error error) :
    Fatal host tree request := by
  rcases exists_loadConfig_error_iff.mp ⟨error, loadEq⟩ with
    ⟨_, baseEq⟩ | ⟨base, baseEq, ⟨check, member, unknown⟩ | ⟨glob, member, refused⟩⟩
  · exact .loading baseEq
  · exact .unknownCheck baseEq member unknown
  · exact .refusedGlob baseEq member refused

theorem stops_iff_of_found {config : Config} {files : List Path}
    (loadEq : loadConfig host.accepts tree request = .ok config)
    (findEq : Discovery.findFilesFor host.accepts tree config request.path = .ok files) :
    Stops host tree request ↔
      ∃ path ∈ files, Analyzer.Overflows host.build tree.read path := by
  constructor
  · rintro ⟨other, found, otherEq, foundEq, overflows⟩
    cases loadEq.symm.trans otherEq
    cases findEq.symm.trans foundEq
    exact overflows
  · intro overflows
    exact ⟨config, files, loadEq, findEq, overflows⟩

/-- Where there is a list of files, a report that cannot be written is the only fatal
cause. -/
theorem fatal_iff_of_found {config : Config} {files : List Path}
    (loadEq : loadConfig host.accepts tree request = .ok config)
    (findEq : Discovery.findFilesFor host.accepts tree config request.path = .ok files) :
    Fatal host tree request ↔ ¬Stops host tree request ∧ request.format = .json ∧
      ∃ path, request.output = some path ∧ ¬tree.CanWrite path := by
  have loads : ¬∃ error, loadConfig host.accepts tree request = .error error := by
    simp [loadEq]
  rw [exists_loadConfig_error_iff] at loads
  constructor
  · intro fatal
    cases fatal with
    | loading baseEq => exact absurd (.inl ⟨_, baseEq⟩) loads
    | unknownCheck baseEq member unknown =>
        exact absurd (.inr ⟨_, baseEq, .inl ⟨_, member, unknown⟩⟩) loads
    | refusedGlob baseEq member refused =>
        exact absurd (.inr ⟨_, baseEq, .inr ⟨_, member, refused⟩⟩) loads
    | discovery otherEq otherFind =>
        cases loadEq.symm.trans otherEq
        simp [findEq] at otherFind
    | delivery completes isJson outputEq cannotWrite =>
        exact ⟨completes, isJson, _, outputEq, cannotWrite⟩
  · rintro ⟨completes, isJson, path, outputEq, cannotWrite⟩
    exact .delivery completes isJson outputEq cannotWrite

theorem ending_run (host : Host) (tree : FileTree) (request : Request) :
    Ending host tree request ((Command.analyze request).run host tree) := by
  change Ending host tree request (.ofReport tree (report host tree request))
  cases loadEq : loadConfig host.accepts tree request with
  | error error =>
      simp only [report, loadEq]
      apply Ending.fatal (fatal_of_loadConfig_error loadEq)
      rintro ⟨config, files, otherEq, _⟩
      cases loadEq.symm.trans otherEq
  | ok config =>
      cases findEq : Discovery.findFilesFor host.accepts tree config request.path with
      | error error =>
          simp only [report, loadEq, reportWith, findEq]
          apply Ending.fatal (.discovery loadEq findEq)
          rintro ⟨other, files, otherEq, foundEq, _⟩
          cases loadEq.symm.trans otherEq
          cases findEq.symm.trans foundEq
      | ok files =>
          have stopsIff := stops_iff_of_found loadEq findEq
          have fatalIff := fatal_iff_of_found loadEq findEq
          by_cases stops : Stops host tree request
          · obtain ⟨printed, reportEq⟩ := reportWith_of_overflows findEq (stopsIff.mp stops)
            simp only [report, loadEq, reportEq]
            exact .stopped stops fun fatal => (fatalIff.mp fatal).1 stops
          · have goesOn : ∀ path ∈ files, ¬Analyzer.Overflows host.build tree.read path :=
              fun path member overflows => stops (stopsIff.mpr ⟨path, member, overflows⟩)
            obtain ⟨result, reportEq, failsIff⟩ := reportWith_of_goesOn findEq goesOn
            simp only [report, loadEq, reportEq]
            cases result with
            | error error =>
                exact .fatal (fatalIff.mpr ⟨stops, failsIff.mp ⟨error, rfl⟩⟩) stops
            | ok delivered =>
                refine .completed (fun fatal => ?_) stops
                obtain ⟨error, isError⟩ := failsIff.mpr (fatalIff.mp fatal).2
                cases isError

end Endings

/-! ## Contents that do not matter -/

/-- The configuration file of a request: the one it names, or the first one with
a default name. -/
def configPath? (tree : FileTree) (request : Request) : Option Path :=
  match request.config with
  | some path => some path
  | none =>
      (Config.directoryFor? tree request.path).bind fun directory =>
        (Config.defaultNames.map directory.child).find? tree.isFile

theorem baseConfig_eq (accepts : String → Bool) (tree : FileTree) (request : Request) :
    baseConfig accepts tree request =
      match configPath? tree request with
      | some path => Config.ofFile accepts tree path
      | none => .ok {} := by
  unfold baseConfig configPath?
  cases request.config with
  | some path => rfl
  | none =>
      unfold Config.ofDefaultLocations
      cases Config.directoryFor? tree request.path with
      | none => rfl
      | some directory => rfl

theorem configPath?_blank (tree : FileTree) (request : Request) :
    configPath? tree.blank request = configPath? tree request := by
  have isFileEq : tree.blank.isFile = tree.isFile := funext tree.isFile_blank
  simp only [configPath?, Config.directoryFor?, FileTree.isDirectory_blank, isFileEq]

/-- A configuration file whose name has no known extension is never accepted. -/
theorem ofFile_ne_ok_of_unknown {path : Path}
    (unknown : path.extension?.bind Config.Format.ofExtension? = none)
    (accepts : String → Bool) (tree : FileTree) (config : Config) :
    Config.ofFile accepts tree path ≠ .ok config := by
  unfold Config.ofFile
  cases Config.readText? tree path with
  | none => simp
  | some text => simp [unknown]

/-- A configuration is read from a place: the configuration file has a known
extension, and its path leads there. -/
def ReadsConfigAt (tree : FileTree) (request : Request) (location : Location) : Prop :=
  ∃ path, configPath? tree request = some path ∧
    (path.extension?.bind Config.Format.ofExtension?).isSome ∧
    tree.locate path = .ok location

theorem baseConfig_eq_ok_iff_of_agrees {tree other : FileTree} {request : Request}
    (agrees : tree.AgreesOn (ReadsConfigAt tree request) other) (accepts : String → Bool)
    (base : Config) :
    baseConfig accepts other request = .ok base ↔ baseConfig accepts tree request = .ok base := by
  have pathSame : configPath? other request = configPath? tree request := by
    rw [← configPath?_blank other, agrees.shape, configPath?_blank]
  rw [baseConfig_eq, baseConfig_eq, pathSame]
  cases pathEq : configPath? tree request with
  | none => rfl
  | some path =>
      dsimp only
      cases formatEq : path.extension?.bind Config.Format.ofExtension? with
      | none =>
          have otherFails := ofFile_ne_ok_of_unknown formatEq accepts other base
          have treeFails := ofFile_ne_ok_of_unknown formatEq accepts tree base
          exact ⟨fun otherEq => absurd otherEq otherFails, fun treeEq => absurd treeEq treeFails⟩
      | some format =>
          have readSame : other.read path = tree.read path := by
            apply agrees.read
            intro location locateEq
            exact ⟨path, pathEq, by simp [formatEq], locateEq⟩
          rw [Config.ofFile, Config.ofFile, Config.readText?, Config.readText?, readSame]

section SameShape

variable {host : Host} {tree other : FileTree} {request : Request}

theorem loadConfig_of_sameBase
    (sameBase : ∀ base, baseConfig host.accepts other request = .ok base ↔
      baseConfig host.accepts tree request = .ok base) {config : Config}
    (loadEq : loadConfig host.accepts tree request = .ok config) :
    loadConfig host.accepts other request = .ok config := by
  unfold loadConfig at loadEq ⊢
  cases baseEq : baseConfig host.accepts tree request with
  | error error => simp [baseEq] at loadEq
  | ok base =>
      rw [(sameBase base).mpr baseEq]
      rwa [baseEq] at loadEq

theorem Fatal.of_sameShape (sameShape : other.blank = tree.blank)
    (sameBase : ∀ base, baseConfig host.accepts other request = .ok base ↔
      baseConfig host.accepts tree request = .ok base)
    (sameStop : Stops host other request → Stops host tree request)
    (fatal : Fatal host tree request) : Fatal host other request := by
  cases fatal with
  | loading loadEq =>
      cases otherEq : baseConfig host.accepts other request with
      | error error => exact .loading otherEq
      | ok base =>
          have treeEq := (sameBase base).mp otherEq
          rw [loadEq] at treeEq
          cases treeEq
  | unknownCheck loadEq member unknown =>
      exact .unknownCheck ((sameBase _).mpr loadEq) member unknown
  | refusedGlob loadEq member refused =>
      exact .refusedGlob ((sameBase _).mpr loadEq) member refused
  | discovery loadEq findEq =>
      apply Fatal.discovery (loadConfig_of_sameBase sameBase loadEq)
      rw [← Discovery.findFilesFor_blank, sameShape, Discovery.findFilesFor_blank]
      exact findEq
  | delivery completes isJson outputEq cannotWrite =>
      exact .delivery (mt sameStop completes) isJson outputEq fun canWrite =>
        cannotWrite (FileTree.canWrite_of_blank sameShape.symm canWrite)

end SameShape

/-- An analysis that cannot be completed ends with status 2, prints nothing and
leaves all files as they were.  One that is stopped by a file ends with status 101, which a
build without checks never does.  Every other analysis ends with status 0.  Contents
of files do not change the status, except where the configuration is read, so
each class file that is found may hold what it will, as long as it does not stop the
program. -/
theorem run_status_of_analyze {words : List String} {request : Request}
    (parseEq : parse words = .ok (.analyze request)) (host : Host) (tree : FileTree) :
    ((run host tree words).status = 2 ↔ Fatal host tree request) ∧
      ((run host tree words).status = 101 ↔ Stops host tree request) ∧
      (¬Fatal host tree request → ¬Stops host tree request →
        (run host tree words).status = 0) ∧
      ((run host tree words).status = 2 →
        (run host tree words).output = "" ∧ (run host tree words).tree = tree) ∧
      ((run host tree words).status = 101 → (run host tree words).tree = tree) ∧
      (host.build = .release → ¬Stops host tree request) ∧
      ∀ other, tree.AgreesOn (ReadsConfigAt tree request) other →
        host.build = .release ∨ (Stops host other request ↔ Stops host tree request) →
          (run host other words).status = (run host tree words).status := by
  have runEq : ∀ given, run host given words = (Command.analyze request).run host given := by
    intro given
    rw [run, parseEq]
  simp only [runEq]
  have ending := ending_run host tree request
  refine ⟨ending.status_eq_two_iff, ending.status_eq_stopped_iff, ending.status_eq_zero,
    ending.output_of_status_eq_two, ending.tree_of_status_eq_stopped,
    fun isRelease => not_stops_of_release isRelease tree request, ?_⟩
  intro other agrees releaseOrSame
  have sameStops : Stops host other request ↔ Stops host tree request := by
    rcases releaseOrSame with isRelease | same
    · simp [not_stops_of_release isRelease]
    · exact same
  have sameBase := baseConfig_eq_ok_iff_of_agrees agrees host.accepts
  have sameFatal : Fatal host other request ↔ Fatal host tree request :=
    ⟨.of_sameShape agrees.shape.symm (fun base => (sameBase base).symm) sameStops.mpr,
      .of_sameShape agrees.shape sameBase sameStops.mp⟩
  exact ending.status_eq (ending_run host other request) sameFatal sameStops

/-- A class file in a directory, with a configuration file beside the directory. -/
def configuredTree (bytes : List UInt8) : FileTree :=
  ⟨[(["lint.json"], .file [0x7b, 0x7d]), (["classes"], .directory),
    (["A.class", "classes"], .file bytes)]⟩

/-- A request for a report in a directory that is not there. -/
def undeliverableRequest : Request where
  path := ⟨"classes"⟩
  config := some ⟨"lint.json"⟩
  format := .json
  output := some ⟨"reports/a.json"⟩
  overrides := ⟨none, [], [], none⟩
  verbose := false
  quiet := false

theorem locate_config_configuredTree (bytes : List UInt8) :
    (configuredTree bytes).locate ⟨"lint.json"⟩ = .ok ["lint.json"] := by
  have stepsEq : (Path.mk "lint.json").steps = ["lint.json"] := by decide
  have pathFits : ¬pathLimit < "lint.json".utf8ByteSize := by decide
  have nameFits : ¬nameLimit < "lint.json".utf8ByteSize := by decide
  have resolveEq : (configuredTree bytes).resolve ⟨"lint.json"⟩ = .ok (.found ["lint.json"]) := by
    simp [FileTree.resolve, stepsEq, pathFits, nameFits, FileTree.resolveFrom, FileTree.entry?,
      configuredTree]
  rw [FileTree.locate, resolveEq]
  rfl

theorem configuredTree_cannotWrite (bytes : List UInt8) :
    ¬(configuredTree bytes).CanWrite ⟨"reports/a.json"⟩ := by
  have stepsEq : (Path.mk "reports/a.json").steps = ["reports", "a.json"] := by decide
  have pathFits : ¬pathLimit < "reports/a.json".utf8ByteSize := by decide
  have nameFits : ¬nameLimit < "reports".utf8ByteSize := by decide
  have resolveFails : (configuredTree bytes).resolve ⟨"reports/a.json"⟩ = .error .notFound := by
    simp [FileTree.resolve, stepsEq, pathFits, nameFits, FileTree.resolveFrom, FileTree.entry?,
      configuredTree]
  intro canWrite
  cases canWrite with
  | create resolveEq | replace resolveEq => simp [resolveFails] at resolveEq

theorem configuredTree_agrees (bytes otherBytes : List UInt8) :
    (configuredTree bytes).AgreesOn
      (ReadsConfigAt (configuredTree bytes) undeliverableRequest)
      (configuredTree otherBytes) where
  shape := rfl
  entry location isConfig := by
    obtain ⟨path, pathEq, -, locateEq⟩ := isConfig
    cases pathEq
    rw [locate_config_configuredTree] at locateEq
    cases locateEq
    rfl

/-- A single class file. -/
def soleTree (bytes : List UInt8) : FileTree :=
  ⟨[(["A.class"], .file bytes)]⟩

/-- A request for a report on that file. -/
def soleRequest (exclude : List String) : Request where
  path := ⟨"A.class"⟩
  config := none
  format := .terminal
  output := none
  overrides := ⟨none, [], exclude, none⟩
  verbose := false
  quiet := false

theorem locate_soleTree (bytes : List UInt8) :
    (soleTree bytes).locate ⟨"A.class"⟩ = .ok ["A.class"] := by
  have stepsEq : (Path.mk "A.class").steps = ["A.class"] := by decide
  have pathFits : ¬pathLimit < "A.class".utf8ByteSize := by decide
  have nameFits : ¬nameLimit < "A.class".utf8ByteSize := by decide
  have resolveEq : (soleTree bytes).resolve ⟨"A.class"⟩ = .ok (.found ["A.class"]) := by
    simp [FileTree.resolve, stepsEq, pathFits, nameFits, FileTree.resolveFrom, FileTree.entry?,
      soleTree]
  rw [FileTree.locate, resolveEq]
  rfl

/-- There is no configuration file beside the class file. -/
theorem isFile_soleTree (bytes : List UInt8) {name : String}
    (member : name ∈ Config.defaultNames) :
    (soleTree bytes).isFile ((Path.mk "").child name) = false := by
  have nameFacts : ∀ name ∈ Config.defaultNames, ((Path.mk "").child name).steps = [name] ∧
      ((Path.mk "").child name).text = name ∧ '\x00' ∉ name.toList ∧ name ≠ "" ∧
      name ≠ "." ∧ name ≠ ".." ∧ name ≠ "A.class" ∧ ¬pathLimit < name.utf8ByteSize ∧
      ¬nameLimit < name.utf8ByteSize := by decide
  obtain ⟨stepsEq, textEq, noNull, notEmpty, notHere, notUp, other, pathFits, nameFits⟩ :=
    nameFacts name member
  have absent : FileTree.entry? (soleTree bytes) [name] = none := by
    simp [FileTree.entry?, soleTree, other.symm]
  have resolveEq : (soleTree bytes).resolve ((Path.mk "").child name) =
      .ok (.absent [] name) := by
    simp only [FileTree.resolve, textEq, noNull, notEmpty, pathFits, stepsEq, if_false,
      FileTree.resolveFrom, notHere, notUp, nameFits, absent]
    rfl
  simp only [FileTree.isFile, FileTree.target?, FileTree.locate, resolveEq]
  rfl

theorem baseConfig_soleTree (accepts : String → Bool) (bytes : List UInt8)
    (exclude : List String) :
    baseConfig accepts (soleTree bytes) (soleRequest exclude) = .ok {} := by
  have directoryEq : Config.directoryFor? (soleTree bytes) ⟨"A.class"⟩ = some ⟨""⟩ := by
    simp only [Config.directoryFor?, FileTree.isDirectory, FileTree.target?, locate_soleTree]
    rfl
  have nowhere : (Config.defaultNames.map (Path.mk "").child).find? (soleTree bytes).isFile =
      none := by
    rw [List.find?_eq_none]
    intro path member
    obtain ⟨name, nameMember, rfl⟩ := List.mem_map.mp member
    rw [isFile_soleTree bytes nameMember]
    decide
  simp only [baseConfig, soleRequest, Config.ofDefaultLocations, directoryEq, nowhere]

theorem findFilesFor_soleTree (accepts : String → Bool) (bytes : List UInt8) :
    Discovery.findFilesFor accepts (soleTree bytes) {} ⟨"A.class"⟩ = .ok [⟨"A.class"⟩] := by
  have isThere : (soleTree bytes).exists? ⟨"A.class"⟩ = true := by
    rw [FileTree.exists?, locate_soleTree]
    rfl
  have isFile : (soleTree bytes).isFile ⟨"A.class"⟩ = true := by
    simp only [FileTree.isFile, FileTree.target?, locate_soleTree]
    rfl
  have isWanted : (Discovery.isClassFile ⟨"A.class"⟩ && !Discovery.isExcluded [] "A.class") =
      true := by decide
  have globsEq : Config.excludeGlobs accepts {} = .ok [] := rfl
  simp only [Discovery.findFilesFor, globsEq, Discovery.findFiles, isThere, isFile, isWanted]
  rfl

theorem stops_soleTree {host : Host} {bytes : List UInt8}
    (stopped : host.build.decode bytes = none) :
    Stops host (soleTree bytes) (soleRequest []) := by
  have loadEq : loadConfig host.accepts (soleTree bytes) (soleRequest []) = .ok {} := by
    rw [loadConfig, baseConfig_soleTree]
    rfl
  have readEq : (soleTree bytes).read ⟨"A.class"⟩ = .ok bytes := by
    simp only [FileTree.read, locate_soleTree]
    rfl
  exact ⟨{}, [⟨"A.class"⟩], loadEq, findFilesFor_soleTree host.accepts bytes, ⟨"A.class"⟩,
    by simp, bytes, readEq, stopped⟩

theorem run_status_of_analyze_undeliverable :
    let words := ["classes", "-c", "lint.json", "--format=json", "-o", "reports/a.json"]
    let host : Host := ⟨.release, false, fun _ => true⟩
    let refusing : Host := ⟨.release, false, fun _ => false⟩
    let checked : Host := ⟨.checked, false, fun _ => true⟩
    parse words = .ok (.analyze undeliverableRequest) ∧
      (run host (configuredTree [0xca, 0xfe]) words).status = 2 ∧
      (run host (configuredTree []) words).status = 2 ∧
      parse ["A.class", "-e", "*Test.class"] = .ok (.analyze (soleRequest ["*Test.class"])) ∧
      (run refusing (soleTree []) ["A.class", "-e", "*Test.class"]).status = 2 ∧
      parse ["A.class"] = .ok (.analyze (soleRequest [])) ∧
      (run checked (soleTree (Machine.branchClass [127, 255, 255, 255])) ["A.class"]).status =
        101 := by
  intro words host refusing checked
  have parseEq : parse words = .ok (.analyze undeliverableRequest) := rfl
  have parseGlobEq : parse ["A.class", "-e", "*Test.class"] =
      .ok (.analyze (soleRequest ["*Test.class"])) := rfl
  have parseSoleEq : parse ["A.class"] = .ok (.analyze (soleRequest [])) := rfl
  obtain ⟨fatalIff, -, -, -, -, neverStops, sameStatus⟩ :=
    run_status_of_analyze parseEq host (configuredTree [0xca, 0xfe])
  have fatal : Fatal host (configuredTree [0xca, 0xfe]) undeliverableRequest :=
    .delivery (neverStops rfl) rfl rfl (configuredTree_cannotWrite _)
  have statusEq := fatalIff.mpr fatal
  obtain ⟨refusedIff, -⟩ := run_status_of_analyze parseGlobEq refusing (soleTree [])
  have refused : Fatal refusing (soleTree []) (soleRequest ["*Test.class"]) :=
    .refusedGlob (baseConfig_soleTree _ _ _) (List.mem_singleton.mpr rfl) rfl
  obtain ⟨-, stopsIff, -⟩ := run_status_of_analyze parseSoleEq checked
    (soleTree (Machine.branchClass [127, 255, 255, 255]))
  have stopped : Build.checked.decode (Machine.branchClass [127, 255, 255, 255]) = none := by
    decide +kernel
  exact ⟨parseEq, statusEq,
    (sameStatus _ (configuredTree_agrees _ []) (.inl rfl)).trans statusEq, parseGlobEq,
    refusedIff.mpr refused, parseSoleEq, stopsIff.mpr (stops_soleTree stopped)⟩

end CommandLine

end ClassLint
