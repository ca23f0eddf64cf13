import ClassLint.Analyzer
import ClassLint.Proofs.Builds
import ClassLint.Proofs.RunnerIsolation

/-!
# Parallel analysis

Workers take files in any order, each with a runner that it uses again and
again, and what they record is passed on in the order of the files.  The result
is the same as that of one runner that reports each file at once: a runner gives
for a file what a new runner gives, and replaying the recorded calls repeats
them.

A build with checks may be stopped by a file.  Then no run comes to its end, and
one that works in parallel has made no call.
-/

namespace ClassLint

namespace Runner

@[simp]
theorem checks_analyzeDecoded (runner : Runner) (path : Path)
    (decoded : Except DecodeError (List Event)) :
    (runner.analyzeDecoded path decoded).1.checks = runner.checks := by
  cases decoded <;> simp [analyzeDecoded]

theorem analyzeDecoded_eq_ofConfig {runner : Runner} {config : Config}
    (checksEq : runner.checks = BuiltInCheck.enabled config) (path : Path)
    (decoded : Except DecodeError (List Event)) :
    (runner.analyzeDecoded path decoded).2 =
      ((ofConfig config).analyzeDecoded path decoded).2 := by
  have findingsEq (events : List Event) :
      (runner.analyzeClass events).2 = ((ofConfig config).analyzeClass events).2 := by
    rw [analyzeClass_eq_flatMap_solo (enabled_forget checksEq),
      analyzeClass_eq_flatMap_solo (enabled_forget (checks_ofConfig config)), checksEq,
      checks_ofConfig]
  cases decoded with
  | ok events => simp only [analyzeDecoded, findingsEq]
  | error error => rfl

end Runner

theorem ReportCall.diagnostics_fileBlock (path : Path) (findings : List Diagnostic) :
    diagnostics (fileBlock path findings) = findings := by
  have reported : (findings.map ReportCall.report).filterMap diagnostic? = findings := by
    rw [List.filterMap_map]
    exact List.filterMap_some
  rw [diagnostics, fileBlock, List.filterMap_cons_none rfl, List.filterMap_append, reported]
  exact List.append_nil findings

namespace Analyzer

/-- A file that stops the program. -/
def Overflows (build : Build) (source : FileSource) (path : Path) : Prop :=
  ∃ bytes, source path = .ok bytes ∧ build.decode bytes = none

theorem not_overflows_release (source : FileSource) (path : Path) :
    ¬Overflows .release source path := by
  rintro ⟨bytes, _, stopped⟩
  cases stopped

variable {build : Build} {config : Config} {source : FileSource} {files : List Path}
  {path : Path}

/-- What a new runner gives for a file, if it is not stopped. -/
def freshResult (build : Build) (config : Config) (source : FileSource) (path : Path) :
    Runner.FileResult :=
  match analyzeFile build source (Runner.ofConfig config) path with
  | some (_, result) => result
  | none => ⟨false, []⟩

/-- What a new runner leaves recorded for a file. -/
def freshRecording (build : Build) (config : Config) (source : FileSource) (path : Path) :
    Recording :=
  ⟨fileCalls path (freshResult build config source path),
    (freshResult build config source path).decoded⟩

theorem analyzeFile_of_overflows (overflows : Overflows build source path) (runner : Runner) :
    analyzeFile build source runner path = none := by
  obtain ⟨bytes, readEq, stopped⟩ := overflows
  simp only [analyzeFile, readEq, Runner.analyzeBytes, stopped, Option.map_none]

/-- A runner that was used before gives what a new one gives. -/
theorem analyzeFile_eq_freshResult {runner : Runner}
    (checksEq : runner.checks = BuiltInCheck.enabled config)
    (goesOn : ¬Overflows build source path) :
    ∃ after, after.checks = BuiltInCheck.enabled config ∧
      analyzeFile build source runner path =
        some (after, freshResult build config source path) := by
  unfold freshResult
  cases readEq : source path with
  | error error =>
      refine ⟨runner, checksEq, ?_⟩
      simp only [analyzeFile, readEq]
  | ok bytes =>
      obtain ⟨decoded, decodeEq⟩ :=
        Option.ne_none_iff_exists'.mp fun stopped => goesOn ⟨bytes, readEq, stopped⟩
      refine ⟨(runner.analyzeDecoded path decoded).1, by simpa using checksEq, ?_⟩
      simp only [analyzeFile, readEq, Runner.analyzeBytes, decodeEq, Option.map_some,
        ← Runner.analyzeDecoded_eq_ofConfig checksEq]

/-- Reporting files one after the other, each as a new runner finds it. -/
def reportFresh (build : Build) (config : Config) (source : FileSource)
    (progress : Progress) : List Path → Progress :=
  List.foldl (fun progress path =>
    progress.addFile (freshRecording build config source path).calls
      (freshRecording build config source path).decoded) progress

/-- The first files are reported as new runners find them, if none of them stops the
program. -/
theorem sequentialFrom_append {runner : Runner}
    (checksEq : runner.checks = BuiltInCheck.enabled config) (progress : Progress)
    {earlier : List Path} (goesOn : ∀ path ∈ earlier, ¬Overflows build source path)
    (later : List Path) :
    ∃ after, after.checks = BuiltInCheck.enabled config ∧
      sequentialFrom build source runner progress (earlier ++ later) =
        sequentialFrom build source after (reportFresh build config source progress earlier)
          later := by
  induction earlier generalizing runner progress with
  | nil => exact ⟨runner, checksEq, rfl⟩
  | cons path earlier ih =>
      obtain ⟨goesOn, restGoesOn⟩ := List.forall_mem_cons.mp goesOn
      obtain ⟨middle, checksEq, resultEq⟩ := analyzeFile_eq_freshResult checksEq goesOn
      obtain ⟨after, checksEq, restEq⟩ := ih checksEq
        (progress.addFile (freshRecording build config source path).calls
          (freshRecording build config source path).decoded) restGoesOn
      refine ⟨after, checksEq, ?_⟩
      rw [List.cons_append, sequentialFrom, resultEq]
      exact restEq

theorem replayFrom_eq_reportFresh (progress : Progress) (files : List Path) :
    replayFrom progress (files.zip (files.map (freshRecording build config source))) =
      reportFresh build config source progress files := by
  induction files generalizing progress with
  | nil => rfl
  | cons path files ih =>
      simp only [List.map_cons, List.zip_cons_cons, replayFrom]
      rw [ih]
      simp only [reportFresh, List.foldl_cons, freshRecording, fileCalls, ReportCall.replay,
        ReportCall.diagnostics_fileBlock]

/-- What holds of the work at any time: each worker has the enabled checks, and
what was recorded for a file is what a new runner leaves. -/
structure Work.Sound (build : Build) (config : Config) (source : FileSource)
    (files : List Path) (work : Work) : Prop where
  checks : ∀ worker, (work.runners worker).checks = BuiltInCheck.enabled config
  recorded : ∀ place recording, (place, recording) ∈ work.recorded →
    files[place]?.map (freshRecording build config source) = some recording

theorem Work.start_sound : (Work.start config).Sound build config source files where
  checks := by simp [Work.start]
  recorded := by simp [Work.start]

/-- A turn that is not stopped keeps what was recorded, and adds the place that is taken. -/
theorem Work.Sound.take {work : Work} (sound : work.Sound build config source files)
    (turn : Turn) (goesOn : ∀ path ∈ files[turn.place]?, ¬Overflows build source path) :
    ∃ after, work.take build source files turn = some after ∧
      after.Sound build config source files ∧
      ∀ place, place ∈ work.recorded.map (·.1) ∨ place = turn.place ∧ place < files.length →
        place ∈ after.recorded.map (·.1) := by
  unfold Work.take
  split
  next outside =>
    refine ⟨work, rfl, sound, ?_⟩
    rintro place (earlier | ⟨rfl, inside⟩)
    · exact earlier
    · rw [List.getElem?_eq_none_iff] at outside
      omega
  next path found =>
    obtain ⟨runner, checksEq, resultEq⟩ :=
      analyzeFile_eq_freshResult (sound.checks turn.worker) (goesOn path found)
    rw [resultEq]
    refine ⟨_, rfl, ⟨?_, ?_⟩, ?_⟩
    · intro worker
      by_cases taking : worker = turn.worker
      · simp [taking, checksEq]
      · simp [taking, sound.checks]
    · intro place recording member
      rcases List.mem_cons.mp member with latest | earlier
      · obtain ⟨rfl, rfl⟩ := Prod.mk.inj latest
        rw [found]
        rfl
      · exact sound.recorded place recording earlier
    · rintro place (earlier | ⟨rfl, _⟩)
      · exact List.mem_cons_of_mem _ earlier
      · exact List.mem_cons_self

theorem Work.Sound.foldlM_take {work : Work} (sound : work.Sound build config source files)
    (goesOn : ∀ path ∈ files, ¬Overflows build source path) (turns : List Turn) :
    ∃ after, turns.foldlM (Work.take build source files) work = some after ∧
      after.Sound build config source files ∧
      ∀ place < files.length,
        place ∈ work.recorded.map (·.1) ∨ place ∈ turns.map (·.place) →
          place ∈ after.recorded.map (·.1) := by
  induction turns generalizing work with
  | nil => exact ⟨work, rfl, sound, fun place _ taken => by simpa using taken⟩
  | cons turn turns ih =>
      obtain ⟨middle, takeEq, sound, takes⟩ := sound.take turn
        fun path found => goesOn path (List.mem_of_getElem? found)
      obtain ⟨after, foldEq, sound, keeps⟩ := ih sound
      refine ⟨after, ?_, sound, ?_⟩
      · rw [List.foldlM_cons, takeEq]
        exact foldEq
      · intro place inside taken
        apply keeps place inside
        rcases taken with earlier | later
        · exact .inl (takes place (.inl earlier))
        · rcases List.mem_cons.mp later with now | later
          · exact .inl (takes place (.inr ⟨now, inside⟩))
          · exact .inr later

/-- The work is stopped at the latest when the file is taken that stops the program. -/
theorem Work.foldlM_take_eq_none {turns : List Turn} {turn : Turn} (member : turn ∈ turns)
    (found : files[turn.place]? = some path) (overflows : Overflows build source path)
    (work : Work) : turns.foldlM (Work.take build source files) work = none := by
  induction turns generalizing work with
  | nil => cases member
  | cons first turns ih =>
      rw [List.foldlM_cons]
      rcases List.mem_cons.mp member with rfl | later
      · have takeEq : work.take build source files turn = none := by
          simp only [Work.take, found, analyzeFile_of_overflows overflows]
        rw [takeEq]
        rfl
      · cases work.take build source files first with
        | none => rfl
        | some after => exact ih later after

private theorem filterMap_getElem?_range {α β : Type} (items : List α) (value : α → β) :
    (List.range items.length).filterMap (fun place => items[place]?.map value) =
      items.map value := by
  induction items with
  | nil => rfl
  | cons item items ih =>
      rw [List.length_cons, List.range_succ_eq_map, List.filterMap_cons, List.filterMap_map]
      simpa [Function.comp_def] using ih

theorem Work.collect_eq_map {work : Work} (sound : work.Sound build config source files)
    (complete : ∀ place < files.length, place ∈ work.recorded.map (·.1)) :
    work.collect files.length = files.map (freshRecording build config source) := by
  have lookupEq : ∀ place ∈ List.range files.length, work.recorded.lookup place =
      files[place]?.map (freshRecording build config source) := by
    intro place member
    obtain ⟨⟨key, recording⟩, keyMember, rfl⟩ :=
      List.mem_map.mp (complete place (List.mem_range.mp member))
    have isSome : (work.recorded.lookup key).isSome :=
      List.lookup_isSome_iff.mpr ⟨(key, recording), keyMember, by simp⟩
    obtain ⟨found, foundEq⟩ := Option.isSome_iff_exists.mp isSome
    obtain ⟨earlier, later, recordedEq, _⟩ := List.lookup_eq_some_iff.mp foundEq
    rw [foundEq, sound.recorded key found (by simp [recordedEq])]
  rw [Work.collect, List.filterMap_congr lookupEq, filterMap_getElem?_range]

theorem runSequential_eq_reportFresh (config : Config)
    (goesOn : ∀ path ∈ files, ¬Overflows build source path) :
    runSequential build config source files =
      .ok ((reportFresh build config source .start files).finish files) := by
  obtain ⟨after, _, sequentialEq⟩ :=
    sequentialFrom_append (Runner.checks_ofConfig config) .start goesOn []
  rw [List.append_nil] at sequentialEq
  rw [runSequential, sequentialEq]
  rfl

theorem runSequential_of_overflows (config : Config) {earlier : List Path}
    (goesOn : ∀ path ∈ earlier, ¬Overflows build source path)
    (overflows : Overflows build source path) (later : List Path) :
    runSequential build config source (earlier ++ path :: later) =
      .error ((reportFresh build config source .start earlier).report.calls ++
        [.startFile path]) := by
  obtain ⟨after, _, sequentialEq⟩ :=
    sequentialFrom_append (Runner.checks_ofConfig config) .start goesOn (path :: later)
  rw [runSequential, sequentialEq, sequentialFrom, analyzeFile_of_overflows overflows]
  exact congrArg Except.error List.reverse_cons

theorem runParallel_eq_reportFresh (config : Config)
    (goesOn : ∀ path ∈ files, ¬Overflows build source path)
    (schedule : Schedule files.length) :
    runParallel build config source files schedule =
      .ok ((reportFresh build config source .start files).finish files) := by
  have started : (Work.start config).Sound build config source files := Work.start_sound
  obtain ⟨work, foldEq, sound, keeps⟩ := started.foldlM_take goesOn schedule.turns
  have complete : ∀ place < files.length, place ∈ work.recorded.map (·.1) := by
    intro place inside
    exact keeps place inside
      (.inr (schedule.complete.mem_iff.mpr (List.mem_range.mpr inside)))
  simp only [runParallel, foldEq]
  rw [Work.collect_eq_map sound complete, replayFrom_eq_reportFresh]

theorem runParallel_of_overflows (config : Config) (member : path ∈ files)
    (overflows : Overflows build source path) (schedule : Schedule files.length) :
    runParallel build config source files schedule = .error [] := by
  obtain ⟨place, inside, rfl⟩ := List.mem_iff_getElem.mp member
  obtain ⟨turn, turnMember, rfl⟩ :=
    List.mem_map.mp (schedule.complete.mem_iff.mpr (List.mem_range.mpr inside))
  rw [runParallel, Work.foldlM_take_eq_none turnMember (List.getElem?_eq_getElem inside) overflows]

theorem run_eq_reportFresh (config : Config)
    (goesOn : ∀ path ∈ files, ¬Overflows build source path) :
    run build config source files =
      .ok ((reportFresh build config source .start files).finish files) := by
  unfold run
  split
  · exact runParallel_eq_reportFresh config goesOn (.workerPerFile files.length)
  · exact runSequential_eq_reportFresh config goesOn

/-- However the files are shared among workers, and in whatever order these take
them, the calls and the totals are those of the sequential run.  A build with checks may
be stopped by a file.  One that works in parallel has made no call then, where the other
has reported the files before and started this one. -/
theorem runParallel_eq_runSequential (build : Build) (config : Config) (source : FileSource)
    (files : List Path) (schedule : Schedule files.length) :
    (∀ path, ¬Overflows .release source path) ∧
    ((∀ path ∈ files, ¬Overflows build source path) →
      ∃ course, runSequential build config source files = .ok course ∧
        runParallel build config source files schedule = .ok course ∧
        run build config source files = .ok course) ∧
    ∀ earlier path later, files = earlier ++ path :: later →
      (∀ other ∈ earlier, ¬Overflows build source other) → Overflows build source path →
        ∃ stats calls, runSequential build config source earlier = .ok (stats, calls) ∧
          runSequential build config source files = .error (calls ++ [.startFile path]) ∧
          runParallel build config source files schedule = .error [] := by
  refine ⟨not_overflows_release source, ?_, ?_⟩
  · intro goesOn
    exact ⟨_, runSequential_eq_reportFresh config goesOn,
      runParallel_eq_reportFresh config goesOn schedule, run_eq_reportFresh config goesOn⟩
  · rintro earlier path later rfl goesOn overflows
    exact ⟨_, _, runSequential_eq_reportFresh config goesOn,
      runSequential_of_overflows config goesOn overflows later,
      runParallel_of_overflows config (by simp) overflows schedule⟩

/-- Class files with a branch, which leads too far in one of them. -/
def branchSource : FileSource := fun path =>
  .ok (Machine.branchClass [127, 255, 255, if path.text = "Far.class" then 255 else 254])

theorem branchSource_goesOn :
    ∀ path ∈ [Path.mk "Near.class"], ¬Overflows .checked branchSource path := by
  rintro path member ⟨bytes, readEq, stopped⟩
  rw [List.mem_singleton.mp member] at readEq
  have bytesEq : bytes = Machine.branchClass [127, 255, 255, 254] :=
    (Except.ok.inj readEq).symm
  have decoded : Build.checked.decode (Machine.branchClass [127, 255, 255, 254]) =
      some (.ok (Machine.branchEvents 2147483647)) := by decide +kernel
  rw [bytesEq, decoded] at stopped
  cases stopped

theorem overflows_branchSource : Overflows .checked branchSource ⟨"Far.class"⟩ :=
  ⟨Machine.branchClass [127, 255, 255, 255], rfl, by decide +kernel⟩

theorem runParallel_eq_runSequential_branchSource :
    (∃ course, runSequential .checked {} branchSource [⟨"Near.class"⟩] = .ok course ∧
      runParallel .checked {} branchSource [⟨"Near.class"⟩] (.workerPerFile 1) = .ok course) ∧
    (∃ stats calls,
      runSequential .checked {} branchSource [⟨"Near.class"⟩] = .ok (stats, calls) ∧
      runSequential .checked {} branchSource [⟨"Near.class"⟩, ⟨"Far.class"⟩] =
        .error (calls ++ [.startFile ⟨"Far.class"⟩])) ∧
    runParallel .checked {} branchSource [⟨"Near.class"⟩, ⟨"Far.class"⟩] (.workerPerFile 2) =
      .error [] := by
  obtain ⟨_, completes, _⟩ := runParallel_eq_runSequential .checked {} branchSource
    [⟨"Near.class"⟩] (.workerPerFile 1)
  obtain ⟨_, _, stops⟩ := runParallel_eq_runSequential .checked {} branchSource
    [⟨"Near.class"⟩, ⟨"Far.class"⟩] (.workerPerFile 2)
  obtain ⟨course, sequentialEq, parallelEq, _⟩ := completes branchSource_goesOn
  obtain ⟨stats, calls, beforeEq, stoppedEq, parallelStoppedEq⟩ :=
    stops [⟨"Near.class"⟩] ⟨"Far.class"⟩ [] rfl branchSource_goesOn overflows_branchSource
  exact ⟨⟨course, sequentialEq, parallelEq⟩, ⟨stats, calls, beforeEq, stoppedEq⟩,
    parallelStoppedEq⟩

end Analyzer

end ClassLint
