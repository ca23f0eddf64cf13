import ClassLint.Analyzer
import ClassLint.CommandLine.Parse
import ClassLint.CommandLine.Usage
import ClassLint.Config.Load
import ClassLint.Discovery
import ClassLint.Report.Json
import ClassLint.Report.Terminal

/-!
# Running a command

A command is carried out on a file tree.  Its outcome is an exit status, what it
prints, and the tree afterwards.  The status is 1 if the command line cannot be
understood and 2 if an analysis cannot be completed.  It is 101 if the program is
stopped by a number that is out of bounds.  Findings do not change it.
-/

namespace ClassLint

namespace CommandLine

/-- Why an analysis cannot be completed. -/
inductive FatalError where
  | config (error : ConfigError)
  | discovery (error : DiscoveryError)
  /-- The report cannot be written. -/
  | report (path : Path)
  deriving DecidableEq, Repr

def FatalError.message : FatalError → String
  | .config error => error.message
  | .discovery error => error.message
  | .report path => JsonReport.writeFailure path

/-- Why there is no report on a path. -/
inductive Failure where
  | fatal (error : FatalError)
  /-- The program is stopped, when it has printed something already. -/
  | stopped (printed : String)
  deriving DecidableEq, Repr

/-- What a command is carried out by. -/
structure Host where
  build : Build
  /-- Whether what is printed has colors. -/
  color : Bool
  /-- The patterns that the engine for regular expressions can use. -/
  accepts : String → Bool

/-- What a command leads to. -/
structure Outcome where
  status : Nat
  /-- What is printed. -/
  output : String
  /-- What is said about mistakes. -/
  errors : String
  /-- The file tree afterwards. -/
  tree : FileTree
  deriving Repr

/-! ## Configuration -/

/-- The configuration with what the command line says put in.  A check that is
left out already is not named again. -/
def Overrides.apply (overrides : Overrides) (config : Config) : Config where
  maxInstructions := overrides.maxInstructions.getD config.maxInstructions
  disabledChecks := overrides.disable.foldl
    (fun disabled check => if check ∈ disabled then disabled else disabled ++ [check])
    config.disabledChecks
  exclude := config.exclude ++ overrides.exclude
  scanInitializers := config.scanInitializers
  parallel := overrides.parallel.getD config.parallel

/-- The configuration before the command line is taken into account. -/
def baseConfig (accepts : String → Bool) (tree : FileTree) (request : Request) :
    Except ConfigError Config :=
  match request.config with
  | some path => Config.ofFile accepts tree path
  | none => Config.ofDefaultLocations accepts tree request.path

/-- The configuration of a run. -/
def loadConfig (accepts : String → Bool) (tree : FileTree) (request : Request) :
    Except ConfigError Config :=
  match baseConfig accepts tree request with
  | .error error => .error error
  | .ok base =>
      let config := request.overrides.apply base
      match config.validate accepts with
      | .ok () => .ok config
      | .error error => .error error

/-! ## Analysis -/

/-- Print a report, or write it to a file: what is printed, and the tree
afterwards. -/
def deliver (tree : FileTree) (color : Bool) (format : ReportFormat) (output : Option Path)
    (calls : List ReportCall) : Except FatalError (String × FileTree) :=
  match format with
  | .terminal => .ok (Terminal.print color calls, tree)
  | .json =>
      match (JsonReport.gather calls).deliver tree output with
      | .ok delivered => .ok delivered
      | .error path => .error (.report path)

/-- What has been printed of a report after some calls.  A JSON report is printed at the
end. -/
def printedSoFar (color : Bool) (format : ReportFormat) (calls : List ReportCall) : String :=
  match format with
  | .terminal => Terminal.printUnfinished color calls
  | .json => ""

/-- Analyse a path with a configuration: what is printed, and the tree
afterwards. -/
def reportWith (host : Host) (tree : FileTree) (request : Request) (config : Config) :
    Except Failure (String × FileTree) :=
  match Discovery.findFilesFor host.accepts tree config request.path with
  | .error error => .error (.fatal (.discovery error))
  | .ok files =>
      if files = [] ∧ request.format = .terminal then
        .ok (Terminal.noFilesLine host.color, tree)
      else
        match Analyzer.run host.build config tree.read files with
        | .error calls => .error (.stopped (printedSoFar host.color request.format calls))
        | .ok (_, calls) =>
            (deliver tree host.color request.format request.output calls).mapError .fatal

/-- Analyse a path. -/
def report (host : Host) (tree : FileTree) (request : Request) :
    Except Failure (String × FileTree) :=
  match loadConfig host.accepts tree request with
  | .error error => .error (.fatal (.config error))
  | .ok config => reportWith host tree request config

/-! ## Commands -/

/-- What a stopped program says, apart from the place in its code. -/
def overflowNote : String := "attempt to add with overflow"

/-- The outcome of an analysis.  A report that fails leaves the tree as it was. -/
def Outcome.ofReport (tree : FileTree) : Except Failure (String × FileTree) → Outcome
  | .ok (printed, after) => ⟨0, printed, "", after⟩
  | .error (.fatal error) => ⟨2, "", error.message ++ "\n", tree⟩
  | .error (.stopped printed) => ⟨101, printed, overflowNote ++ "\n", tree⟩

def Command.run (host : Host) (tree : FileTree) : Command → Outcome
  | .help => ⟨0, helpText, "", tree⟩
  | .version => ⟨0, versionLine, "", tree⟩
  | .completions shell => ⟨0, completionScript shell, "", tree⟩
  | .listChecks => ⟨0, checkList, "", tree⟩
  | .analyze request => .ofReport tree (report host tree request)

/-- The outcome of a command line. -/
def run (host : Host) (tree : FileTree) (words : List String) : Outcome :=
  match parse words with
  | .ok command => command.run host tree
  | .error error => ⟨1, "", "error: " ++ error.message ++ "\n\n" ++ usageLine, tree⟩

end CommandLine

end ClassLint
