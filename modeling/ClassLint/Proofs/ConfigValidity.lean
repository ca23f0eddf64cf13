import ClassLint.Config.Validation

/-!
# Valid configurations

A configuration is valid exactly if all checks that it leaves out are built-in ones and
the patterns of all its globs are accepted.
-/

namespace ClassLint

namespace Config

variable {accepts : String → Bool}

theorem excludeGlobs_eq_ok_iff {config : Config} {globs : List Glob} :
    config.excludeGlobs accepts = .ok globs ↔
      (∀ glob ∈ config.exclude, accepts (Glob.ofText glob).pattern = true) ∧
        globs = config.exclude.map Glob.ofText := by
  unfold excludeGlobs
  cases findEq : config.exclude.find? fun text => !accepts (Glob.ofText text).pattern with
  | none =>
      have accepted : ∀ glob ∈ config.exclude, accepts (Glob.ofText glob).pattern = true := by
        simpa using findEq
      rw [and_iff_right accepted, Except.ok.injEq, eq_comm]
  | some text =>
      have refused : accepts (Glob.ofText text).pattern = false := by
        simpa using List.find?_some findEq
      have member := List.mem_of_find?_eq_some findEq
      constructor
      · rintro ⟨⟩
      · rintro ⟨accepted, _⟩
        rw [accepted text member] at refused
        cases refused

/-- Where all checks are known, only the globs can be refused. -/
theorem validate_of_known {config : Config}
    (known : ∀ check ∈ config.disabledChecks, check ∈ BuiltInCheck.names) :
    config.validate accepts = (config.excludeGlobs accepts).map fun _ => () := by
  have findEq : config.disabledChecks.find? (· ∉ BuiltInCheck.names) = none := by
    simpa [List.find?_eq_none] using known
  unfold validate
  rw [findEq]
  cases config.excludeGlobs accepts <;> rfl

theorem validate_eq_ok_iff {config : Config} :
    config.validate accepts = .ok () ↔
      (∀ check ∈ config.disabledChecks, check ∈ BuiltInCheck.names) ∧
        ∀ glob ∈ config.exclude, accepts (Glob.ofText glob).pattern = true := by
  by_cases known : ∀ check ∈ config.disabledChecks, check ∈ BuiltInCheck.names
  · rw [and_iff_right known, validate_of_known known]
    cases globsEq : config.excludeGlobs accepts with
    | ok globs => exact ⟨fun _ => (excludeGlobs_eq_ok_iff.mp globsEq).1, fun _ => rfl⟩
    | error error =>
        constructor
        · rintro ⟨⟩
        · intro accepted
          cases globsEq.symm.trans (excludeGlobs_eq_ok_iff.mpr ⟨accepted, rfl⟩)
  · have isSome : (config.disabledChecks.find? (· ∉ BuiltInCheck.names)).isSome := by
      simpa using known
    obtain ⟨check, findEq⟩ := Option.isSome_iff_exists.mp isSome
    have fails : config.validate accepts = .error (.unknownCheck check) := by
      unfold validate
      rw [findEq]
      rfl
    constructor
    · intro valid
      cases fails.symm.trans valid
    · rintro ⟨allKnown, _⟩
      exact absurd allKnown known

/-- What keeps a configuration from being valid. -/
theorem exists_validate_error_iff {config : Config} :
    (∃ error, config.validate accepts = .error error) ↔
      (∃ check ∈ config.disabledChecks, check ∉ BuiltInCheck.names) ∨
        ∃ glob ∈ config.exclude, accepts (Glob.ofText glob).pattern = false := by
  have fails : (∃ error, config.validate accepts = .error error) ↔
      ¬config.validate accepts = .ok () := by
    cases config.validate accepts with
    | ok valid => simp
    | error error => simp
  rw [fails, validate_eq_ok_iff, Classical.not_and_iff_not_or_not]
  simp

end Config

end ClassLint
