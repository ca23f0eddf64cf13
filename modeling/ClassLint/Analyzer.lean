import ClassLint.FileTree.Basic
import ClassLint.Report.Call

/-!
# Analysing many files

Files are analysed one by one with a single runner, or by several workers that
each have a runner of their own.  The results are reported in the order of the
list of files either way.

The program may be stopped while it decodes a file.  Of the run there are then only
the calls that were made before.
-/

namespace ClassLint

namespace Analyzer

/-- The totals of a run. -/
structure Stats where
  files : Nat
  /-- How many files could not be read or decoded. -/
  failed : Nat
  diagnostics : Nat
  deriving DecidableEq, Repr

/-- How the contents of files are come by. -/
abbrev FileSource := Path → Except AccessError (List UInt8)

/-- Read a file and analyse the class in it.  There is no result if the program is
stopped. -/
def analyzeFile (build : Build) (source : FileSource) (runner : Runner) (path : Path) :
    Option (Runner × Runner.FileResult) :=
  match source path with
  | .ok bytes => runner.analyzeBytes build path bytes
  | .error error =>
      some (runner, .failure path ("Could not read " ++ path.text ++ ": " ++ error.message))

def fileCalls (path : Path) (result : Runner.FileResult) : List ReportCall :=
  ReportCall.fileBlock path result.diagnostics

/-- What has been reported so far, and how many files could not be read or
decoded. -/
structure Progress where
  report : CountingReport
  failed : Nat
  deriving DecidableEq, Repr

namespace Progress

/-- Nothing has been reported. -/
def start : Progress := ⟨.empty, 0⟩

/-- Pass on the calls for one more file. -/
def addFile (progress : Progress) (calls : List ReportCall) (decoded : Bool) : Progress where
  report := progress.report.receiveAll calls
  failed := if decoded then progress.failed else progress.failed + 1

/-- The totals at the end of a run, with its course of calls. -/
def finish (progress : Progress) (files : List Path) : Stats × List ReportCall :=
  (⟨files.length, progress.failed, progress.report.count⟩, progress.report.calls)

end Progress

/-- What a run gives: its totals and its course of calls, or the calls that were made
before the program was stopped. -/
abbrev Course := Except (List ReportCall) (Stats × List ReportCall)

/-- Analyse files one after the other with one runner, and report each at once.  A file
starts before it is decoded. -/
def sequentialFrom (build : Build) (source : FileSource) (runner : Runner)
    (progress : Progress) : List Path → Except (List ReportCall) Progress
  | [] => .ok progress
  | path :: files =>
      match analyzeFile build source runner path with
      | none => .error (progress.report.receive (.startFile path)).calls
      | some (runner, result) =>
          sequentialFrom build source runner
            (progress.addFile (fileCalls path result) result.decoded) files

/-- Analyse files one by one. -/
def runSequential (build : Build) (config : Config) (source : FileSource)
    (files : List Path) : Course := do
  let progress ← sequentialFrom build source (Runner.ofConfig config) .start files
  return progress.finish files

/-- A turn of a worker: it takes the file at a place in the list of files. -/
structure Turn where
  worker : Nat
  place : Nat
  deriving DecidableEq, Repr

/-- An order in which workers take files, such that each file is taken once. -/
structure Schedule (count : Nat) where
  turns : List Turn
  complete : (turns.map (·.place)).Perm (List.range count)

/-- A worker for each file. -/
def Schedule.workerPerFile (count : Nat) : Schedule count where
  turns := (List.range count).map fun place => ⟨place, place⟩
  complete := by simp [Function.comp_def]

/-- What a worker keeps of one file: the calls that were made for it, and whether
it could be decoded. -/
structure Recording where
  calls : List ReportCall
  decoded : Bool
  deriving DecidableEq, Repr

/-- The work done so far: the runner of each worker, and what was recorded for
the files at their places. -/
structure Work where
  runners : Nat → Runner
  recorded : List (Nat × Recording)

namespace Work

/-- Each worker has a new runner. -/
def start (config : Config) : Work := ⟨fun _ => Runner.ofConfig config, []⟩

/-- A worker takes its turn.  The other workers are not touched. -/
def take (build : Build) (source : FileSource) (files : List Path) (work : Work)
    (turn : Turn) : Option Work :=
  match files[turn.place]? with
  | none => some work
  | some path =>
      match analyzeFile build source (work.runners turn.worker) path with
      | none => none
      | some (runner, result) =>
          some
            { runners := fun worker =>
                if worker = turn.worker then runner else work.runners worker
              recorded :=
                (turn.place, ⟨fileCalls path result, result.decoded⟩) :: work.recorded }

/-- What was recorded for each file, in the order of the list of files. -/
def collect (work : Work) (count : Nat) : List Recording :=
  (List.range count).filterMap fun place => work.recorded.lookup place

end Work

/-- Pass on what was recorded for files. -/
def replayFrom (progress : Progress) : List (Path × Recording) → Progress
  | [] => progress
  | (path, recording) :: files =>
      replayFrom (progress.addFile (ReportCall.replay path recording.calls) recording.decoded)
        files

/-- Analyse files by workers, then report them in the order of the list.  No call is
made before all the work is done. -/
def runParallel (build : Build) (config : Config) (source : FileSource) (files : List Path)
    (schedule : Schedule files.length) : Course :=
  match schedule.turns.foldlM (Work.take build source files) (.start config) with
  | none => .error []
  | some work => .ok ((replayFrom .start (files.zip (work.collect files.length))).finish files)

/-- Analyse files, by workers if the configuration asks for it and there is more
than one file. -/
def run (build : Build) (config : Config) (source : FileSource) (files : List Path) :
    Course :=
  if config.parallel ∧ 1 < files.length then
    runParallel build config source files (.workerPerFile files.length)
  else
    runSequential build config source files

end Analyzer

end ClassLint
