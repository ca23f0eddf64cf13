import ClassLint.Proofs.ParallelAnalysis
import ClassLint.Report.Json

/-!
# The accounts of a run

A run reports each file in a block of its own: the file starts, its findings
follow, the file ends.  The totals of the run are kept apart from the blocks, by
a counter for the findings and one for the files that could not be decoded, and
the JSON report keeps counts of its own.  They all agree with the blocks.

A run that is stopped by a file has no totals.  If it reports as it goes, there are the
blocks of the files before, and the start of this one.
-/

namespace ClassLint

namespace ReportCall

@[simp]
theorem diagnostics_nil : diagnostics [] = [] :=
  rfl

@[simp]
theorem diagnostics_startFile (path : Path) (calls : List ReportCall) :
    diagnostics (.startFile path :: calls) = diagnostics calls :=
  rfl

@[simp]
theorem diagnostics_report (diagnostic : Diagnostic) (calls : List ReportCall) :
    diagnostics (.report diagnostic :: calls) = diagnostic :: diagnostics calls :=
  rfl

@[simp]
theorem diagnostics_endFile (path : Path) (calls : List ReportCall) :
    diagnostics (.endFile path :: calls) = diagnostics calls :=
  rfl

end ReportCall

theorem CountingReport.receiveAll_eq (report : CountingReport) (calls : List ReportCall) :
    report.receiveAll calls =
      ⟨calls.reverse ++ report.passed,
        report.count + (ReportCall.diagnostics calls).length⟩ := by
  unfold receiveAll
  induction calls generalizing report with
  | nil => simp
  | cons call calls ih =>
      rw [List.foldl_cons, ih]
      cases call with
      | report diagnostic =>
          simp only [receive, ReportCall.diagnostics_report, List.length_cons,
            List.reverse_cons, List.append_assoc, List.singleton_append]
          congr 1
          omega
      | startFile path | endFile path => simp [receive]

namespace JsonReport

theorem foldl_take_reports (path : Path) (files : Nat) (earlier : List Finding)
    (diagnostics : List Diagnostic) :
    (diagnostics.map ReportCall.report).foldl Gathered.take ⟨some path, files, earlier⟩ =
      ⟨some path, files, (diagnostics.map (Finding.mk path.text)).reverse ++ earlier⟩ := by
  induction diagnostics generalizing earlier with
  | nil => rfl
  | cons diagnostic diagnostics ih =>
      rw [List.map_cons, List.foldl_cons, Gathered.take, ih]
      simp

theorem foldl_take_fileBlock (gathered : Gathered) (path : Path)
    (diagnostics : List Diagnostic) :
    (ReportCall.fileBlock path diagnostics).foldl Gathered.take gathered =
      ⟨none, gathered.files + 1,
        (diagnostics.map (Finding.mk path.text)).reverse ++ gathered.findings⟩ := by
  rw [ReportCall.fileBlock, List.foldl_cons, List.foldl_append, Gathered.take,
    foldl_take_reports, List.foldl_cons, List.foldl_nil, Gathered.take]

/-- The report counts the blocks, and gathers their findings under the names of
their files.  No file is open between two blocks. -/
theorem foldl_take_blocks (found : Path → List Diagnostic) (files : List Path) (count : Nat)
    (earlier : List Finding) :
    (files.flatMap fun path => ReportCall.fileBlock path (found path)).foldl Gathered.take
        ⟨none, count, earlier⟩ =
      ⟨none, count + files.length,
        (files.flatMap fun path => (found path).map (Finding.mk path.text)).reverse ++
          earlier⟩ := by
  induction files generalizing count earlier with
  | nil => rfl
  | cons path files ih =>
      rw [List.flatMap_cons, List.foldl_append, foldl_take_fileBlock, ih, List.flatMap_cons,
        List.length_cons, List.reverse_append, List.append_assoc, Nat.add_assoc,
        Nat.add_comm 1]

theorem gather_blocks (found : Path → List Diagnostic) (files : List Path) :
    gather (files.flatMap fun path => ReportCall.fileBlock path (found path)) =
      ⟨none, files.length,
        (files.flatMap fun path => (found path).map (Finding.mk path.text)).reverse⟩ := by
  rw [gather, Gathered.new, foldl_take_blocks, List.append_nil, Nat.zero_add]

end JsonReport

theorem BuiltInCheck.name_ne_decoder (check : BuiltInCheck) : check.name ≠ "Decoder" := by
  cases check <;> decide

namespace Analyzer

variable {build : Build} {config : Config} {source : FileSource}

/-! ## Blocks and totals -/

/-- What has been reported are the blocks of some files, and the totals are
theirs. -/
structure Progress.Accounts (build : Build) (config : Config) (source : FileSource)
    (files : List Path) (progress : Progress) : Prop where
  calls : progress.report.calls = files.flatMap fun path =>
    fileCalls path (freshResult build config source path)
  count : progress.report.count =
    (files.flatMap fun path => (freshResult build config source path).diagnostics).length
  failed : progress.failed =
    files.countP fun path => !(freshResult build config source path).decoded

theorem Progress.accounts_start : Progress.start.Accounts build config source [] where
  calls := rfl
  count := rfl
  failed := rfl

theorem Progress.Accounts.addFile {files : List Path} {progress : Progress}
    (accounts : progress.Accounts build config source files) (path : Path) :
    (progress.addFile (freshRecording build config source path).calls
      (freshRecording build config source path).decoded).Accounts build config source
        (files ++ [path]) := by
  have reportEq : (progress.addFile (freshRecording build config source path).calls
      (freshRecording build config source path).decoded).report =
        progress.report.receiveAll (fileCalls path (freshResult build config source path)) := rfl
  refine ⟨?_, ?_, ?_⟩
  · rw [reportEq, CountingReport.receiveAll_eq, CountingReport.calls, List.reverse_append,
      List.reverse_reverse, List.flatMap_append, ← accounts.calls]
    simp [CountingReport.calls]
  · rw [reportEq, CountingReport.receiveAll_eq, fileCalls, ReportCall.diagnostics_fileBlock,
      List.flatMap_append, List.length_append, ← accounts.count]
    simp
  · rw [List.countP_append, ← accounts.failed]
    cases decodedEq : (freshResult build config source path).decoded with
    | true => simp [Progress.addFile, freshRecording, decodedEq]
    | false => simp [Progress.addFile, freshRecording, decodedEq]

theorem Progress.Accounts.reportFresh {earlier : List Path} {progress : Progress}
    (accounts : progress.Accounts build config source earlier) (files : List Path) :
    (reportFresh build config source progress files).Accounts build config source
      (earlier ++ files) := by
  unfold Analyzer.reportFresh
  induction files generalizing earlier progress with
  | nil => simpa using accounts
  | cons path files ih => simpa using ih (accounts.addFile path)

/-- Ways to run an analysis: as the configuration says, one file after the other,
or by workers that take the files in a given order. -/
inductive Mode (count : Nat) where
  | configured
  | sequential
  | parallel (schedule : Schedule count)

/-- Whether all files are analysed before one is reported. -/
def Mode.reportsLast {count : Nat} (config : Config) : Mode count → Bool
  | .configured => decide (config.parallel ∧ 1 < count)
  | .sequential => false
  | .parallel _ => true

def runIn (build : Build) (config : Config) (source : FileSource) (files : List Path) :
    Mode files.length → Course
  | .configured => run build config source files
  | .sequential => runSequential build config source files
  | .parallel schedule => runParallel build config source files schedule

theorem runIn_eq_reportFresh (config : Config) {files : List Path}
    (goesOn : ∀ path ∈ files, ¬Overflows build source path) (mode : Mode files.length) :
    runIn build config source files mode =
      .ok ((reportFresh build config source .start files).finish files) := by
  cases mode with
  | configured => exact run_eq_reportFresh config goesOn
  | sequential => exact runSequential_eq_reportFresh config goesOn
  | parallel schedule => exact runParallel_eq_reportFresh config goesOn schedule

/-- The totals of a run and its course of calls, file by file. -/
theorem runIn_eq_blocks (config : Config) {files : List Path}
    (goesOn : ∀ path ∈ files, ¬Overflows build source path) (mode : Mode files.length) :
    runIn build config source files mode =
      .ok (⟨files.length,
          files.countP fun path => !(freshResult build config source path).decoded,
          (files.flatMap fun path => (freshResult build config source path).diagnostics).length⟩,
        files.flatMap fun path => fileCalls path (freshResult build config source path)) := by
  have accounts : (reportFresh build config source .start files).Accounts build config source
      files :=
    Progress.accounts_start.reportFresh files
  rw [runIn_eq_reportFresh config goesOn, Progress.finish, accounts.calls, accounts.count,
    accounts.failed]

/-- The calls of a run that is stopped by a file. -/
theorem runIn_of_overflows (config : Config) {earlier later : List Path} {path : Path}
    (goesOn : ∀ path ∈ earlier, ¬Overflows build source path)
    (overflows : Overflows build source path)
    (mode : Mode (earlier ++ path :: later).length) :
    runIn build config source (earlier ++ path :: later) mode =
      .error (if mode.reportsLast config then []
        else (earlier.flatMap fun path =>
          fileCalls path (freshResult build config source path)) ++ [.startFile path]) := by
  have accounts : (reportFresh build config source .start earlier).Accounts build config source
      earlier :=
    Progress.accounts_start.reportFresh earlier
  have sequentialEq := runSequential_of_overflows config goesOn overflows later
  rw [accounts.calls] at sequentialEq
  have member : path ∈ earlier ++ path :: later := by simp
  cases mode with
  | configured =>
      by_cases isParallel : config.parallel ∧ 1 < (earlier ++ path :: later).length
      · rw [runIn, run, if_pos isParallel, runParallel_of_overflows config member overflows,
          Mode.reportsLast, if_pos (decide_eq_true isParallel)]
      · rw [runIn, run, if_neg isParallel, sequentialEq, Mode.reportsLast,
          if_neg (by simpa only [decide_eq_true_eq] using isParallel)]
  | sequential => exact sequentialEq
  | parallel schedule => exact runParallel_of_overflows config member overflows schedule

theorem exists_first_overflow {files : List Path}
    (stops : ∃ path ∈ files, Overflows build source path) :
    ∃ earlier path later, files = earlier ++ path :: later ∧
      (∀ other ∈ earlier, ¬Overflows build source other) ∧ Overflows build source path := by
  induction files with
  | nil => simp at stops
  | cons first files ih =>
      by_cases overflows : Overflows build source first
      · exact ⟨[], first, files, rfl, by simp, overflows⟩
      · have stopsLater : ∃ path ∈ files, Overflows build source path := by
          simpa [overflows] using stops
        obtain ⟨earlier, path, later, rfl, goesOn, pathOverflows⟩ := ih stopsLater
        exact ⟨first :: earlier, path, later, rfl,
          List.forall_mem_cons.mpr ⟨overflows, goesOn⟩, pathOverflows⟩

theorem run_of_overflows (config : Config) {files : List Path}
    (stops : ∃ path ∈ files, Overflows build source path) :
    ∃ calls, run build config source files = .error calls := by
  obtain ⟨earlier, path, later, rfl, goesOn, overflows⟩ := exists_first_overflow stops
  exact ⟨_, runIn_of_overflows config goesOn overflows .configured⟩

/-! ## The findings on one file -/

/-- What a run finds in a file: the findings of the enabled checks on the class in
it, or a single finding that says why there is no class. -/
inductive Finds (build : Build) (config : Config) (source : FileSource) (path : Path) :
    Runner.FileResult → Prop
  | decoded {bytes : List UInt8} {events : List Event} (readEq : source path = .ok bytes)
      (decodeEq : build.decode bytes = some (.ok events)) :
      Finds build config source path
        ⟨true, (BuiltInCheck.enabled config).flatMap (·.solo events)⟩
  | undecodable {bytes : List UInt8} {error : DecodeError} (readEq : source path = .ok bytes)
      (decodeEq : build.decode bytes = some (.error error)) :
      Finds build config source path ⟨false, [⟨"Decoder", path.stem?.getD "<unknown>",
        "Could not decode " ++ path.text ++ ": " ++ error.message⟩]⟩
  | unreadable {error : AccessError} (readEq : source path = .error error) :
      Finds build config source path ⟨false, [⟨"Decoder", path.stem?.getD "<unknown>",
        "Could not read " ++ path.text ++ ": " ++ error.message⟩]⟩

theorem finds_freshResult (config : Config) {path : Path}
    (goesOn : ¬Overflows build source path) :
    Finds build config source path (freshResult build config source path) := by
  unfold freshResult analyzeFile
  cases readEq : source path with
  | error error => exact .unreadable readEq
  | ok bytes =>
      simp only [Runner.analyzeBytes]
      cases decodeEq : build.decode bytes with
      | none => exact absurd ⟨bytes, readEq, decodeEq⟩ goesOn
      | some decoded =>
          cases decoded with
          | error error => exact .undecodable readEq decodeEq
          | ok events =>
              have findings := Runner.analyzeClass_eq_flatMap_solo
                (Runner.enabled_forget (Runner.checks_ofConfig config)) events
              rw [Runner.checks_ofConfig] at findings
              simp only [Option.map_some, Runner.analyzeDecoded, findings]
              exact .decoded readEq decodeEq

theorem Finds.noDecoderFinding {path : Path} {result : Runner.FileResult}
    (finds : Finds build config source path result) (isDecoded : result.decoded = true) :
    ∀ diagnostic ∈ result.diagnostics, diagnostic.check ≠ "Decoder" := by
  cases finds with
  | decoded readEq decodeEq =>
      intro diagnostic member
      obtain ⟨check, enabled, found⟩ := List.mem_flatMap.mp member
      obtain ⟨builtIn, _, rfl⟩ := BuiltInCheck.exists_of_mem_enabled enabled
      rw [Check.check_of_mem_solo found, BuiltInCheck.name_toCheck]
      exact builtIn.name_ne_decoder
  | undecodable readEq decodeEq => cases isDecoded
  | unreadable readEq => cases isDecoded

theorem Finds.oneDecoderFinding {path : Path} {result : Runner.FileResult}
    (finds : Finds build config source path result) (notDecoded : result.decoded = false) :
    ∃ message, result.diagnostics = [⟨"Decoder", path.stem?.getD "<unknown>", message⟩] := by
  cases finds with
  | decoded readEq decodeEq => cases notDecoded
  | undecodable readEq decodeEq => exact ⟨_, rfl⟩
  | unreadable readEq => exact ⟨_, rfl⟩

/-- Each file that could not be decoded stands for one finding of the decoder. -/
theorem Finds.countP_decoder {path : Path} {result : Runner.FileResult}
    (finds : Finds build config source path result) :
    result.diagnostics.countP (fun diagnostic => diagnostic.check = "Decoder") =
      if result.decoded then 0 else 1 := by
  cases decodedEq : result.decoded with
  | true =>
      rw [if_pos rfl, List.countP_eq_zero]
      intro diagnostic member
      simpa using finds.noDecoderFinding decodedEq diagnostic member
  | false =>
      obtain ⟨message, diagnosticsEq⟩ := finds.oneDecoderFinding decodedEq
      rw [diagnosticsEq]
      rfl

theorem countP_decoder_flatMap {resultOf : Path → Runner.FileResult} {files : List Path}
    (finds : ∀ path ∈ files, Finds build config source path (resultOf path)) :
    (files.flatMap fun path =>
        (resultOf path).diagnostics.map (JsonReport.Finding.mk path.text)).countP
        (fun finding => finding.diagnostic.check = "Decoder") =
      files.countP fun path => !(resultOf path).decoded := by
  induction files with
  | nil => rfl
  | cons path files ih =>
      obtain ⟨finds, restFinds⟩ := List.forall_mem_cons.mp finds
      have fileCount := finds.countP_decoder
      rw [List.flatMap_cons, List.countP_append, ih restFinds, List.countP_map, List.countP_cons]
      simp only [Function.comp_def, fileCount]
      cases (resultOf path).decoded with
      | true => simp
      | false => simp [Nat.add_comm]

theorem length_findings (resultOf : Path → Runner.FileResult) (files : List Path) :
    (files.flatMap fun path =>
        (resultOf path).diagnostics.map (JsonReport.Finding.mk path.text)).length =
      (files.flatMap fun path => (resultOf path).diagnostics).length := by
  simp only [List.length_flatMap, List.length_map]

/-- A run calls for each file in turn its start, its findings and its end, and for
nothing else.  The JSON report of these calls lists the findings under the names
of their files, and its counts and the totals of the run are those of the blocks.
A file that could not be read or decoded stands for one finding of the decoder,
and any other file for none.  A build with checks may be stopped by a file, and then has
reported the files before or none, as its mode is. -/
theorem runIn_accounts (build : Build) (config : Config) (source : FileSource)
    (files : List Path) (mode : Mode files.length) :
    (∀ path, ¬Overflows .release source path) ∧
    ∃ resultOf : Path → Runner.FileResult,
      (∀ path, ¬Overflows build source path →
        Finds build config source path (resultOf path) ∧
        ((resultOf path).decoded = true →
          ∀ diagnostic ∈ (resultOf path).diagnostics, diagnostic.check ≠ "Decoder") ∧
        ((resultOf path).decoded = false → ∃ message,
          (resultOf path).diagnostics =
            [⟨"Decoder", path.stem?.getD "<unknown>", message⟩])) ∧
      ((∀ path ∈ files, ¬Overflows build source path) →
        ∃ stats calls, runIn build config source files mode = .ok (stats, calls) ∧
          let findings : List JsonReport.Finding := files.flatMap fun path =>
            (resultOf path).diagnostics.map fun diagnostic => ⟨path.text, diagnostic⟩
          calls = files.flatMap (fun path =>
            .startFile path :: ((resultOf path).diagnostics.map .report ++ [.endFile path])) ∧
          JsonReport.gather calls = ⟨none, stats.files, findings.reverse⟩ ∧
          JsonReport.document calls = "\x7b" ++ ",".intercalate
            [JsonReport.memberLine "  " "version" (JsonReport.quote "0.1.0"),
              JsonReport.memberLine "  " "files_analyzed" (toString stats.files),
              JsonReport.memberLine "  " "total_issues" (toString stats.diagnostics),
              JsonReport.memberLine "  " "issues" (JsonReport.findingArray findings)] ++
                "\n\x7d" ∧
          stats.files = files.length ∧
          stats.diagnostics = findings.length ∧
          stats.failed = files.countP (fun path => !(resultOf path).decoded) ∧
          stats.failed =
            findings.countP (fun finding => finding.diagnostic.check = "Decoder")) ∧
      ∀ earlier path later, files = earlier ++ path :: later →
        (∀ other ∈ earlier, ¬Overflows build source other) → Overflows build source path →
          runIn build config source files mode =
            .error (if mode.reportsLast config then []
              else earlier.flatMap (fun path => .startFile path ::
                ((resultOf path).diagnostics.map .report ++ [.endFile path])) ++
                  [.startFile path]) := by
  refine ⟨not_overflows_release source, freshResult build config source, ?_, ?_, ?_⟩
  · intro path goesOn
    have finds := finds_freshResult config goesOn
    exact ⟨finds, finds.noDecoderFinding, finds.oneDecoderFinding⟩
  · intro goesOn
    have gathered := JsonReport.gather_blocks
      (fun path => (freshResult build config source path).diagnostics) files
    have lengthEq := length_findings (freshResult build config source) files
    have finds : ∀ path ∈ files,
        Finds build config source path (freshResult build config source path) :=
      fun path member => finds_freshResult config (goesOn path member)
    refine ⟨_, _, runIn_eq_blocks config goesOn mode, rfl, gathered, ?_, rfl, lengthEq.symm, rfl,
      (countP_decoder_flatMap finds).symm⟩
    simp only [fileCalls, JsonReport.document, JsonReport.Gathered.document, gathered,
      List.reverse_reverse, ← lengthEq]
    rfl
  · rintro earlier path later rfl goesOn overflows
    exact runIn_of_overflows config goesOn overflows mode

theorem runIn_accounts_branchSource :
    (∃ stats findings,
      runIn .checked {} branchSource [⟨"Near.class"⟩] .configured =
        .ok (stats, ReportCall.fileBlock ⟨"Near.class"⟩ findings) ∧ stats.files = 1) ∧
    runIn .checked {} branchSource [⟨"Near.class"⟩, ⟨"Far.class"⟩] .configured = .error [] ∧
    ∃ findings,
      runIn .checked {} branchSource [⟨"Near.class"⟩, ⟨"Far.class"⟩] .sequential =
        .error (ReportCall.fileBlock ⟨"Near.class"⟩ findings ++ [.startFile ⟨"Far.class"⟩]) := by
  obtain ⟨_, resultOf, _, completes, _⟩ :=
    runIn_accounts .checked {} branchSource [⟨"Near.class"⟩] .configured
  obtain ⟨_, _, _, _, stopsBefore⟩ :=
    runIn_accounts .checked {} branchSource [⟨"Near.class"⟩, ⟨"Far.class"⟩] .configured
  obtain ⟨_, ownResultOf, _, _, stopsInBetween⟩ :=
    runIn_accounts .checked {} branchSource [⟨"Near.class"⟩, ⟨"Far.class"⟩] .sequential
  refine ⟨?_, stopsBefore [⟨"Near.class"⟩] ⟨"Far.class"⟩ [] rfl branchSource_goesOn
    overflows_branchSource, (ownResultOf ⟨"Near.class"⟩).diagnostics, ?_⟩
  · obtain ⟨stats, calls, runEq, callsEq, _, _, filesEq, _⟩ := completes branchSource_goesOn
    rw [callsEq, List.flatMap_singleton] at runEq
    exact ⟨stats, (resultOf ⟨"Near.class"⟩).diagnostics, runEq, filesEq⟩
  · have stopped :=
      stopsInBetween [⟨"Near.class"⟩] ⟨"Far.class"⟩ [] rfl branchSource_goesOn
        overflows_branchSource
    rw [List.flatMap_singleton] at stopped
    exact stopped

end Analyzer

end ClassLint
