import ClassLint.Runner

/-!
# Report calls

The course of an analysis is a sequence of calls: a file starts, findings are
reported, the file ends.  Reports are written from such sequences.
-/

namespace ClassLint

/-- A step in the course of an analysis. -/
inductive ReportCall where
  | startFile (path : Path)
  | report (diagnostic : Diagnostic)
  | endFile (path : Path)
  deriving DecidableEq, Repr

namespace ReportCall

def fileBlock (path : Path) (diagnostics : List Diagnostic) : List ReportCall :=
  .startFile path :: (diagnostics.map .report ++ [.endFile path])

def startedPath? : ReportCall → Option Path
  | .startFile path => some path
  | _ => none

/-- The finding that is reported. -/
def diagnostic? : ReportCall → Option Diagnostic
  | .report diagnostic => some diagnostic
  | _ => none

/-- The files that start in a course of calls, in order. -/
def startedPaths (calls : List ReportCall) : List Path :=
  calls.filterMap startedPath?

/-- The findings in a course of calls, in order. -/
def diagnostics (calls : List ReportCall) : List Diagnostic :=
  calls.filterMap diagnostic?

/-- The findings of one check in a course of calls, in order. -/
def diagnosticsOf (check : String) (calls : List ReportCall) : List Diagnostic :=
  (diagnostics calls).filter (·.check = check)

/-- The calls that pass on what was recorded for one file. -/
def replay (path : Path) (recorded : List ReportCall) : List ReportCall :=
  fileBlock path (diagnostics recorded)

end ReportCall

/-- A report that passes on its calls (latest first) and counts the findings
among them. -/
structure CountingReport where
  passed : List ReportCall
  count : Nat
  deriving DecidableEq, Repr

namespace CountingReport

/-- Nothing has been passed on. -/
def empty : CountingReport := ⟨[], 0⟩

/-- Pass on one call. -/
def receive (report : CountingReport) (call : ReportCall) : CountingReport :=
  match call with
  | .report _ => ⟨call :: report.passed, report.count + 1⟩
  | _ => ⟨call :: report.passed, report.count⟩

/-- Pass on calls one after the other. -/
def receiveAll (report : CountingReport) (calls : List ReportCall) : CountingReport :=
  calls.foldl receive report

/-- The calls passed on, in order. -/
def calls (report : CountingReport) : List ReportCall :=
  report.passed.reverse

end CountingReport

end ClassLint
