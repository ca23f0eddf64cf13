import ClassLint.Check.BuiltIn
import ClassLint.ClassFile.Machine
import ClassLint.Path

/-!
# Running checks

A runner holds instances of checks, each with the state that earlier classes
left in it.  It resets each check before a class and replays the events of the
class into it, up to its first fault; a fault becomes a finding of its own and
does not touch the other checks.
-/

namespace ClassLint

/-- A finding. -/
structure Diagnostic where
  check : String
  className : String
  message : String
  deriving DecidableEq, Repr

/-- The line that shows a finding. -/
def Diagnostic.line (diagnostic : Diagnostic) : String :=
  "[" ++ diagnostic.check ++ "] In class '" ++ diagnostic.className ++ "': " ++
    diagnostic.message

/-- The class name of events that do not start with a header, and of files
without a name. -/
def unknownClass : String := "<unknown>"

/-- The name under which files that cannot be read or decoded are reported. -/
def decoderName : String := "Decoder"

namespace Check

/-- What is left when a sequence of events has been replayed. -/
structure Replay (check : Check) where
  state : check.State
  /-- The messages reported, in order. -/
  reports : List String
  stop : Option Stop

/-- Replay events up to the first stop, after the messages reported so far
(latest first). -/
def replayFrom (check : Check) (className : String) (state : check.State)
    (reported : Nat) (reports : List String) : List Event → Replay check
  | [] => ⟨state, reports.reverse, none⟩
  | event :: events =>
      let reaction := check.react ⟨className, reported⟩ state event
      let reports := reaction.reports.reverse ++ reports
      match reaction.stop with
      | some stop => ⟨reaction.state, reports.reverse, some stop⟩
      | none =>
          check.replayFrom className reaction.state (reported + reaction.reports.length)
            reports events

def replay (check : Check) (className : String) (state : check.State)
    (events : List Event) : Replay check :=
  check.replayFrom className state 0 [] events

/-- The message for a check that stopped. -/
def failureMessage (stop : Stop) : String :=
  "Check failed: " ++ stop.toFault.message

/-- The findings of a replay: what was reported, and the stop if there was one. -/
def Replay.diagnostics {check : Check} (replay : Replay check) (className : String) :
    List Diagnostic :=
  (replay.reports ++ replay.stop.toList.map failureMessage).map
    fun message => ⟨check.name, className, message⟩

end Check

/-- A check with its state. -/
structure CheckInstance where
  check : Check
  state : check.State

def CheckInstance.new (check : Check) : CheckInstance :=
  ⟨check, check.fresh⟩

/-- Reset the check and replay a class into it. -/
def CheckInstance.analyze (checkInstance : CheckInstance) (className : String)
    (events : List Event) : CheckInstance × List Diagnostic :=
  let check := checkInstance.check
  let replay := check.replay className (check.reset checkInstance.state) events
  (⟨check, replay.state⟩, replay.diagnostics className)

/-- The instances of checks that are run one after the other. -/
structure Runner where
  instances : List CheckInstance

namespace Runner

def new (checks : List Check) : Runner :=
  ⟨checks.map .new⟩

/-- A runner of the built-in checks that a configuration leaves in. -/
def ofConfig (config : Config) : Runner :=
  new (BuiltInCheck.enabled config)

def checkNames (runner : Runner) : List String :=
  runner.instances.map (·.check.name)

/-- The name under which findings on a class are reported. -/
def reportedName : List Event → String
  | .classHeader header :: _ => header.simpleName
  | _ => unknownClass

/-- Analyse one class with each check in turn. -/
def analyzeClass (runner : Runner) (events : List Event) : Runner × List Diagnostic :=
  let results := runner.instances.map (·.analyze (reportedName events) events)
  (⟨results.map (·.1)⟩, results.flatMap (·.2))

/-- Analyse several classes one after the other. -/
def analyze (runner : Runner) : List (List Event) → Runner × List (List Diagnostic)
  | [] => (runner, [])
  | events :: classes =>
      let (runner, diagnostics) := runner.analyzeClass events
      let (runner, others) := runner.analyze classes
      (runner, diagnostics :: others)

/-- The class name for a file whose class is not known. -/
def fileClassName (path : Path) : String :=
  path.stem?.getD unknownClass

/-- What the analysis of one file gives: whether the file could be decoded, and
its findings. -/
structure FileResult where
  decoded : Bool
  diagnostics : List Diagnostic
  deriving DecidableEq, Repr

/-- The result for a file that could not be analysed. -/
def FileResult.failure (path : Path) (message : String) : FileResult :=
  ⟨false, [⟨decoderName, fileClassName path, message⟩]⟩

/-- Analyse the class that was decoded from a file. -/
def analyzeDecoded (runner : Runner) (path : Path) :
    Except DecodeError (List Event) → Runner × FileResult
  | .ok events =>
      let (runner, diagnostics) := runner.analyzeClass events
      (runner, ⟨true, diagnostics⟩)
  | .error error =>
      (runner,
        .failure path ("Could not decode " ++ path.text ++ ": " ++ error.message))

/-- Decode the bytes of a file and analyse the class in them.  There is no result if the
program is stopped. -/
def analyzeBytes (build : Build) (runner : Runner) (path : Path) (bytes : List UInt8) :
    Option (Runner × FileResult) :=
  (build.decode bytes).map (runner.analyzeDecoded path)

end Runner

end ClassLint
