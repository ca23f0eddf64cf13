import ClassLint.Proofs.RunAccounting

/-!
# Leaving checks out

To leave checks out is to drop their findings from the report: a check does not
see which others run beside it, so what the others find stays as it was.
-/

namespace ClassLint

namespace ReportCall

/-- Whether a call reports a finding of one of some checks. -/
def reportsFor (names : List String) : ReportCall → Bool
  | .report diagnostic => diagnostic.check ∈ names
  | _ => false

@[simp]
theorem reportsFor_startFile (names : List String) (path : Path) :
    (startFile path).reportsFor names = false :=
  rfl

@[simp]
theorem reportsFor_report (names : List String) (diagnostic : Diagnostic) :
    (report diagnostic).reportsFor names = decide (diagnostic.check ∈ names) :=
  rfl

@[simp]
theorem reportsFor_endFile (names : List String) (path : Path) :
    (endFile path).reportsFor names = false :=
  rfl

end ReportCall

namespace BuiltInCheck

theorem toCheck_disable (config : Config) (names : List String) (check : BuiltInCheck) :
    check.toCheck { config with disabledChecks := names } = check.toCheck config := by
  cases check <;> rfl

theorem enabled_eq_filter (config : Config) (names : List String) :
    enabled { config with disabledChecks := names } =
      (enabled { config with disabledChecks := [] }).filter fun check => check.name ∉ names := by
  simp only [enabled, Config.isEnabled, toCheck_disable, List.filter_map, List.filter_filter,
    Function.comp_def, name_toCheck]
  simp

theorem decoder_not_mem_names (checks : List BuiltInCheck) :
    "Decoder" ∉ checks.map (·.name) := by
  intro member
  obtain ⟨check, _, nameEq⟩ := List.mem_map.mp member
  exact check.name_ne_decoder nameEq

end BuiltInCheck

theorem Runner.checkNames_ofConfig (config : Config) :
    (Runner.ofConfig config).checkNames = BuiltInCheck.names.filter config.isEnabled := by
  have namesEq : (Runner.ofConfig config).checkNames =
      (Runner.ofConfig config).checks.map (·.name) := by
    simp [checkNames, checks]
  rw [namesEq, checks_ofConfig]
  simp only [BuiltInCheck.enabled, BuiltInCheck.names, List.map_map, List.filter_map,
    Function.comp_def, BuiltInCheck.name_toCheck]

theorem Check.flatMap_solo_filter (names : List String) (checks : List Check)
    (events : List Event) :
    (checks.filter fun check => check.name ∉ names).flatMap (·.solo events) =
      (checks.flatMap (·.solo events)).filter fun diagnostic => diagnostic.check ∉ names := by
  induction checks with
  | nil => rfl
  | cons check checks ih =>
      rw [List.flatMap_cons, List.filter_append, ← ih]
      -- All that a check finds carries its name, so it is kept or dropped as a whole.
      by_cases disabled : check.name ∈ names
      · have dropped : (check.solo events).filter (·.check ∉ names) = [] := by
          rw [List.filter_eq_nil_iff]
          intro diagnostic member
          simpa [Check.check_of_mem_solo member] using disabled
        rw [List.filter_cons_of_neg (by simpa using disabled), dropped, List.nil_append]
      · have kept : (check.solo events).filter (·.check ∉ names) = check.solo events := by
          rw [List.filter_eq_self]
          intro diagnostic member
          simpa [Check.check_of_mem_solo member] using disabled
        rw [List.filter_cons_of_pos (by simpa using disabled), kept, List.flatMap_cons]

namespace ReportCall

theorem filter_fileBlock (names : List String) (path : Path)
    (diagnostics : List Diagnostic) :
    (fileBlock path diagnostics).filter (fun call => !call.reportsFor names) =
      fileBlock path (diagnostics.filter fun diagnostic => diagnostic.check ∉ names) := by
  simp [fileBlock, List.filter_map, Function.comp_def]

/-- A choice of calls that takes no finding of the named checks does not see
whether these are there. -/
theorem filter_filter_reportsFor {names : List String} {chosen : ReportCall → Bool}
    (others : ∀ call, chosen call = true → call.reportsFor names = false)
    (calls : List ReportCall) :
    (calls.filter fun call => !call.reportsFor names).filter chosen = calls.filter chosen := by
  rw [List.filter_filter]
  apply List.filter_congr
  intro call _
  cases chosenEq : chosen call with
  | true => simp [others call chosenEq]
  | false => rfl

theorem length_diagnostics_filter (names : List String) (calls : List ReportCall) :
    (diagnostics (calls.filter fun call => !call.reportsFor names)).length +
        calls.countP (·.reportsFor names) =
      (diagnostics calls).length := by
  induction calls with
  | nil => rfl
  | cons call calls ih =>
      rw [List.countP_cons, List.filter_cons]
      cases call with
      | startFile path | endFile path => simpa using ih
      | report diagnostic =>
          by_cases disabled : diagnostic.check ∈ names
          · simp only [reportsFor_report, disabled, decide_true, Bool.not_true,
              Bool.false_eq_true, if_false, if_true, diagnostics_report, List.length_cons]
            omega
          · simp only [reportsFor_report, disabled, decide_false, Bool.not_false,
              Bool.false_eq_true, if_false, if_true, diagnostics_report, List.length_cons]
            omega

theorem diagnostics_flatMap_fileBlock (found : Path → List Diagnostic) (files : List Path) :
    diagnostics (files.flatMap fun path => fileBlock path (found path)) =
      files.flatMap found := by
  rw [diagnostics, List.filterMap_flatMap]
  exact List.flatMap_congr fun path _ => diagnostics_fileBlock path (found path)

end ReportCall

namespace Analyzer

variable {build : Build} {config : Config} {source : FileSource} {path : Path}

theorem Finds.unique {result other : Runner.FileResult}
    (finds : Finds build config source path result)
    (findsOther : Finds build config source path other) : result = other := by
  cases finds <;> cases findsOther <;> simp_all

theorem Finds.disable {result : Runner.FileResult} (disabled : List BuiltInCheck)
    (finds : Finds build { config with disabledChecks := [] } source path result) :
    Finds build { config with disabledChecks := disabled.map (·.name) } source path
      ⟨result.decoded,
        result.diagnostics.filter fun diagnostic => diagnostic.check ∉ disabled.map (·.name)⟩ := by
  have decoderKept := BuiltInCheck.decoder_not_mem_names disabled
  cases finds with
  | decoded readEq decodeEq =>
      rw [← Check.flatMap_solo_filter, ← BuiltInCheck.enabled_eq_filter]
      exact .decoded readEq decodeEq
  | undecodable readEq decodeEq =>
      rw [List.filter_cons_of_pos (by simpa using decoderKept)]
      exact .undecodable readEq decodeEq
  | unreadable readEq =>
      rw [List.filter_cons_of_pos (by simpa using decoderKept)]
      exact .unreadable readEq

theorem freshResult_disable (config : Config) (goesOn : ¬Overflows build source path)
    (disabled : List BuiltInCheck) :
    let full := freshResult build { config with disabledChecks := [] } source path
    freshResult build { config with disabledChecks := disabled.map (·.name) } source path =
      ⟨full.decoded,
        full.diagnostics.filter fun diagnostic => diagnostic.check ∉ disabled.map (·.name)⟩ :=
  (finds_freshResult _ goesOn).unique ((finds_freshResult _ goesOn).disable disabled)

theorem flatMap_fileCalls_disable (config : Config) {files : List Path}
    (goesOn : ∀ path ∈ files, ¬Overflows build source path) (disabled : List BuiltInCheck) :
    (files.flatMap fun path => fileCalls path
        (freshResult build { config with disabledChecks := disabled.map (·.name) } source path)) =
      (files.flatMap fun path => fileCalls path
        (freshResult build { config with disabledChecks := [] } source path)).filter
          fun call => !call.reportsFor (disabled.map (·.name)) := by
  rw [List.filter_flatMap]
  apply List.flatMap_congr
  intro path member
  rw [freshResult_disable config (goesOn path member) disabled]
  exact (ReportCall.filter_fileBlock _ path _).symm

theorem countP_failed_disable (config : Config) {files : List Path}
    (goesOn : ∀ path ∈ files, ¬Overflows build source path) (disabled : List BuiltInCheck) :
    (files.countP fun path =>
        !(freshResult build { config with disabledChecks := disabled.map (·.name) } source
          path).decoded) =
      files.countP fun path =>
        !(freshResult build { config with disabledChecks := [] } source path).decoded := by
  apply List.countP_congr
  intro path member
  rw [freshResult_disable config (goesOn path member) disabled]

theorem Mode.reportsLast_disable {count : Nat} (config : Config) (names : List String)
    (mode : Mode count) :
    mode.reportsLast { config with disabledChecks := names } = mode.reportsLast config := by
  cases mode <;> rfl

/-- A run counts the findings that it reports. -/
theorem diagnostics_eq_of_runIn {files : List Path} {mode : Mode files.length}
    (goesOn : ∀ path ∈ files, ¬Overflows build source path) {stats : Stats}
    {calls : List ReportCall} (runEq : runIn build config source files mode = .ok (stats, calls)) :
    stats.diagnostics = (ReportCall.diagnostics calls).length := by
  rw [runIn_eq_blocks config goesOn] at runEq
  obtain ⟨rfl, rfl⟩ := Prod.mk.inj (Except.ok.inj runEq)
  simp only [fileCalls, ReportCall.diagnostics_flatMap_fileBlock]

/-- A run that leaves checks out makes the calls of a run with all checks, less
the reports of the checks left out.  What is left has the files, the findings of
the decoder and the failures of the full run.  A build with checks is stopped in both
runs if it is stopped in one. -/
theorem runIn_disabled (build : Build) (config : Config) (source : FileSource)
    (files : List Path) (disabled : List BuiltInCheck) (modeAll mode : Mode files.length) :
    let names := disabled.map (·.name)
    (Runner.ofConfig { config with disabledChecks := names }).checkNames =
      ["NamingConvention", "NonPublicConstructor", "LongMethod", "MagicNumber",
        "UnusedField", "NullReturn"].filter (· ∉ names) ∧
    (∀ path, ¬Overflows .release source path) ∧
    ((∀ path ∈ files, ¬Overflows build source path) →
      ∃ full reduced : Stats × List ReportCall,
        runIn build { config with disabledChecks := [] } source files modeAll = .ok full ∧
        runIn build { config with disabledChecks := names } source files mode = .ok reduced ∧
        reduced.2 = full.2.filter (fun call => !call.reportsFor names) ∧
        reduced.2.filter (·.diagnostic?.isNone) = full.2.filter (·.diagnostic?.isNone) ∧
        reduced.2.filter (·.reportsFor ["Decoder"]) = full.2.filter (·.reportsFor ["Decoder"]) ∧
        reduced.1.files = full.1.files ∧
        reduced.1.failed = full.1.failed ∧
        reduced.1.diagnostics + full.2.countP (·.reportsFor names) = full.1.diagnostics) ∧
    ((∃ path ∈ files, Overflows build source path) →
      ∃ full reduced : List ReportCall,
        runIn build { config with disabledChecks := [] } source files modeAll = .error full ∧
        runIn build { config with disabledChecks := names } source files mode =
          .error reduced ∧
        (modeAll.reportsLast config = mode.reportsLast config →
          reduced = full.filter fun call => !call.reportsFor names)) := by
  intro names
  refine ⟨Runner.checkNames_ofConfig { config with disabledChecks := names },
    not_overflows_release source, ?_, ?_⟩
  · intro goesOn
    have callsEq := flatMap_fileCalls_disable config goesOn disabled
    have fullEq := runIn_eq_blocks { config with disabledChecks := [] } goesOn modeAll
    have reducedEq := runIn_eq_blocks { config with disabledChecks := names } goesOn mode
    refine ⟨_, _, fullEq, reducedEq, callsEq, ?_, ?_, rfl,
      countP_failed_disable config goesOn disabled, ?_⟩
    · rw [callsEq]
      apply ReportCall.filter_filter_reportsFor
      rintro (path | diagnostic | path) chosen
      · rfl
      · cases chosen
      · rfl
    · rw [callsEq]
      apply ReportCall.filter_filter_reportsFor
      rintro (path | diagnostic | path) chosen
      · rfl
      · have isDecoder : diagnostic.check = "Decoder" := by simpa using chosen
        rw [ReportCall.reportsFor_report, isDecoder]
        exact decide_eq_false (BuiltInCheck.decoder_not_mem_names disabled)
      · rfl
    · rw [diagnostics_eq_of_runIn goesOn fullEq, diagnostics_eq_of_runIn goesOn reducedEq, callsEq]
      exact ReportCall.length_diagnostics_filter names _
  · intro stops
    obtain ⟨earlier, path, later, rfl, goesOn, overflows⟩ := exists_first_overflow stops
    refine ⟨_, _, runIn_of_overflows _ goesOn overflows modeAll,
      runIn_of_overflows _ goesOn overflows mode, ?_⟩
    intro modesEq
    rw [Mode.reportsLast_disable config names mode, Mode.reportsLast_disable config [] modeAll,
      modesEq]
    split
    · rfl
    · rw [flatMap_fileCalls_disable config goesOn disabled, List.filter_append]
      rfl

theorem runIn_disabled_branchSource :
    (∃ full reduced : Stats × List ReportCall,
      runIn .checked {} branchSource [⟨"Near.class"⟩] .configured = .ok full ∧
      runIn .checked { disabledChecks := ["MagicNumber", "LongMethod"] } branchSource
        [⟨"Near.class"⟩] .sequential = .ok reduced ∧
      reduced.2 = full.2.filter fun call => !call.reportsFor ["MagicNumber", "LongMethod"]) ∧
    ∃ full reduced : List ReportCall,
      runIn .checked {} branchSource [⟨"Near.class"⟩, ⟨"Far.class"⟩] .sequential = .error full ∧
      runIn .checked { disabledChecks := ["MagicNumber", "LongMethod"] } branchSource
        [⟨"Near.class"⟩, ⟨"Far.class"⟩] .sequential = .error reduced ∧
      reduced = full.filter fun call => !call.reportsFor ["MagicNumber", "LongMethod"] := by
  obtain ⟨_, _, completes, _⟩ := runIn_disabled .checked {} branchSource [⟨"Near.class"⟩]
    [.magicNumber, .longMethod] .configured .sequential
  obtain ⟨_, _, _, stops⟩ := runIn_disabled .checked {} branchSource
    [⟨"Near.class"⟩, ⟨"Far.class"⟩] [.magicNumber, .longMethod] .sequential .sequential
  constructor
  · obtain ⟨full, reduced, fullEq, reducedEq, callsEq, _⟩ :=
      completes branchSource_goesOn
    exact ⟨full, reduced, fullEq, reducedEq, callsEq⟩
  · obtain ⟨full, reduced, fullEq, reducedEq, callsEq⟩ :=
      stops ⟨⟨"Far.class"⟩, by simp, overflows_branchSource⟩
    exact ⟨full, reduced, fullEq, reducedEq, callsEq rfl⟩

end Analyzer

end ClassLint
