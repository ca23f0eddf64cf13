import ClassLint.Report.Terminal
import Mathlib.Algebra.BigOperators.Group.List.Lemmas
import Mathlib.Algebra.Ring.Nat

/-!
# The summary of a terminal report

A report goes through its calls, counts the files that start, and raises for each
finding the count of its check.  This file shows that the counts are then the tally of
the findings: there is one row for each check that reported, with the number of its
findings, and the summary lists the rows in a strict order.  So the order of the calls
does not show in the summary.  What the summary prints is written out, with and without
colour.
-/

namespace ClassLint

namespace ReportCall

/-- The checks under which findings are reported, one for each finding. -/
def reportedChecks (calls : List ReportCall) : List String :=
  (diagnostics calls).map (·.check)

end ReportCall

namespace Terminal

/-! ## Rows -/

/-- The order of rows: by falling count, and at equal counts by rising name. -/
def Row.Before (first second : Row) : Prop :=
  second.count < first.count ∨ first.count = second.count ∧ first.check < second.check

theorem Row.Before.asymm {first second : Row} (before : first.Before second) :
    ¬second.Before first := by
  rintro (countLess | ⟨countEq, checkLess⟩)
  · rcases before with less | ⟨equal, _⟩ <;> omega
  · rcases before with less | ⟨_, less⟩
    · omega
    · exact String.lt_asymm less checkLess

theorem Row.Before.trans {first second third : Row} (before : first.Before second)
    (beforeNext : second.Before third) : first.Before third := by
  rcases before with less | ⟨equal, checkLess⟩
  · rcases beforeNext with lessNext | ⟨equalNext, _⟩ <;> exact .inl (by omega)
  · rcases beforeNext with lessNext | ⟨equalNext, checkLessNext⟩
    · exact .inl (by omega)
    · exact .inr ⟨by omega, String.lt_trans checkLess checkLessNext⟩

theorem Row.before_trichotomy (first second : Row) :
    first.Before second ∨ first = second ∨ second.Before first := by
  obtain ⟨firstCheck, firstCount⟩ := first
  obtain ⟨secondCheck, secondCount⟩ := second
  rcases Nat.lt_trichotomy firstCount secondCount with less | rfl | more
  · exact .inr (.inr (.inl less))
  · rcases Std.lt_trichotomy firstCheck secondCheck with less | rfl | more
    · exact .inl (.inr ⟨rfl, less⟩)
    · exact .inr (.inl rfl)
    · exact .inr (.inr (.inr ⟨rfl, more⟩))
  · exact .inl (.inl more)

theorem compare_ne_gt_iff {first second : String} :
    compare first second ≠ .gt ↔ first < second ∨ first = second := by
  change compareOfLessAndEq first second ≠ .gt ↔ _
  unfold compareOfLessAndEq
  split
  next less => simp [less]
  next notLess =>
    split
    next equal => simp [equal]
    next distinct => simp [notLess, distinct]

/-- Rows are sorted by the reflexive form of their order. -/
theorem Row.precedes_iff {first second : Row} :
    first.precedes second = true ↔ first.Before second ∨ first = second := by
  obtain ⟨firstCheck, firstCount⟩ := first
  obtain ⟨secondCheck, secondCount⟩ := second
  simp only [precedes, Before, Bool.or_eq_true, decide_eq_true_eq, Bool.and_eq_true, beq_iff_eq,
    bne_iff_ne, compare_ne_gt_iff, Row.mk.injEq]
  grind

theorem Row.precedes_trans (first second third : Row) (precedes : first.precedes second = true)
    (precedesNext : second.precedes third = true) : first.precedes third = true := by
  rw [precedes_iff] at precedes precedesNext ⊢
  rcases precedes with before | rfl
  · rcases precedesNext with beforeNext | rfl
    · exact .inl (before.trans beforeNext)
    · exact .inl before
  · exact precedesNext

theorem Row.precedes_total (first second : Row) :
    (first.precedes second || second.precedes first) = true := by
  rw [Bool.or_eq_true, precedes_iff, precedes_iff]
  rcases before_trichotomy first second with before | equal | after
  · exact .inl (.inl before)
  · exact .inl (.inr equal)
  · exact .inr (.inl after)

/-- Rows are the tally of names: one row for each name that occurs, with the number
of its occurrences, in their order. -/
structure IsTally (names : List String) (rows : List Row) : Prop where
  listed (name : String) : name ∈ rows.map Row.check ↔ name ∈ names
  distinct : (rows.map Row.check).Nodup
  counted {row : Row} (member : row ∈ rows) : row.count = names.count row.check
  ordered : rows.Pairwise Row.Before

namespace IsTally

variable {names : List String} {rows others : List Row}

theorem mem_iff (tally : IsTally names rows) (row : Row) :
    row ∈ rows ↔ row.check ∈ names ∧ row.count = names.count row.check := by
  constructor
  · intro member
    exact ⟨(tally.listed row.check).mp (List.mem_map_of_mem member), tally.counted member⟩
  · rintro ⟨occurs, countEq⟩
    obtain ⟨other, member, checkEq⟩ := List.mem_map.mp ((tally.listed row.check).mpr occurs)
    have otherCount := tally.counted member
    rw [checkEq, ← countEq] at otherCount
    have rowEq : other = row := by
      cases other
      cases row
      simp_all
    rwa [← rowEq]

/-- Names have one tally. -/
theorem unique (tally : IsTally names rows) (otherTally : IsTally names others) :
    rows = others := by
  have sameRows : rows.Perm others := by
    rw [List.perm_ext_iff_of_nodup tally.distinct.of_map otherTally.distinct.of_map]
    intro row
    rw [tally.mem_iff, otherTally.mem_iff]
  refine sameRows.eq_of_pairwise ?_ tally.ordered otherTally.ordered
  intro first second _ _ before after
  exact absurd after before.asymm

theorem of_perm (tally : IsTally names rows) {otherNames : List String}
    (perm : otherNames.Perm names) : IsTally otherNames rows where
  listed name := by rw [tally.listed, perm.mem_iff]
  distinct := tally.distinct
  counted {row} member := by rw [tally.counted member, perm.count_eq]
  ordered := tally.ordered

end IsTally

/-! ## Counting -/

/-- A check is counted in its own row, or in a new one if it has none.  The other rows
stay. -/
theorem mem_countIn_iff {check : String} {rows : List Row}
    (rising : rows.Pairwise fun first second => first.check < second.check) (row : Row) :
    row ∈ countIn check rows ↔
      row ∈ rows ∧ row.check ≠ check ∨
      row.check = check ∧
        ((∃ old ∈ rows, old.check = check ∧ row.count = old.count + 1) ∨
          (∀ old ∈ rows, old.check ≠ check) ∧ row.count = 1) := by
  have rowEq (count : Nat) : row = ⟨check, count⟩ ↔ row.check = check ∧ row.count = count := by
    cases row
    simp
  induction rows with
  | nil => simp [countIn, rowEq]
  | cons first rows ih =>
      obtain ⟨firstLess, restRising⟩ := List.pairwise_cons.mp rising
      unfold countIn
      split
      next less =>
        -- The check comes before all rows, so it has none.
        have absent : ∀ old ∈ first :: rows, old.check ≠ check := by
          rintro old member rfl
          rcases List.mem_cons.mp member with rfl | member
          · exact String.lt_irrefl _ less
          · exact String.lt_asymm less (firstLess old member)
        rw [List.mem_cons, rowEq]
        grind
      next =>
        split
        next same =>
          subst same
          have absent : ∀ old ∈ rows, old.check ≠ first.check := fun old member sameCheck =>
            String.lt_irrefl _ (sameCheck ▸ firstLess old member)
          rw [List.mem_cons, rowEq]
          grind
        next distinct =>
          have later := ih restRising
          rw [List.mem_cons]
          grind

theorem sum_countIn (check : String) (rows : List Row) :
    ((countIn check rows).map Row.count).sum = (rows.map Row.count).sum + 1 := by
  induction rows with
  | nil => rfl
  | cons row rows ih =>
      unfold countIn
      split
      · simp only [List.map_cons, List.sum_cons]
        omega
      · split
        · simp only [List.map_cons, List.sum_cons]
          omega
        · simp only [List.map_cons, List.sum_cons, ih]
          omega

theorem Counts.total_eq_sum (counts : Counts) :
    counts.total = (counts.rows.map Row.count).sum := by
  rw [List.sum_eq_foldl, List.foldl_map]
  rfl

/-- Counts are those of names: there is a row for each name that occurs, with the
number of its occurrences, and the counts add up to the number of all names. -/
structure Counts.Tally (names : List String) (counts : Counts) : Prop where
  mem_iff (row : Row) :
    row ∈ counts.rows ↔ row.check ∈ names ∧ row.count = names.count row.check
  total : counts.total = names.length

namespace Counts.Tally

variable {names : List String} {counts : Counts}

theorem empty : Counts.empty.Tally [] where
  mem_iff row := by simp [Counts.empty]
  total := rfl

theorem increment (tally : counts.Tally names) (check : String) :
    (counts.increment check).Tally (check :: names) where
  mem_iff row := by
    rw [Counts.increment, mem_countIn_iff counts.rising, List.mem_cons]
    by_cases own : row.check = check
    · subst own
      simp only [ne_eq, not_true_eq_false, and_false, true_and, true_or, false_or,
        List.count_cons_self]
      by_cases occurs : row.check ∈ names
      · -- The row of a name that occurs is the one with its count.
        have old : (⟨row.check, names.count row.check⟩ : Row) ∈ counts.rows :=
          (tally.mem_iff _).mpr ⟨occurs, rfl⟩
        constructor
        · rintro (⟨other, member, sameCheck, countEq⟩ | ⟨absent, _⟩)
          · rw [countEq, ((tally.mem_iff other).mp member).2, sameCheck]
          · exact absurd rfl (absent ⟨row.check, names.count row.check⟩ old)
        · intro countEq
          exact .inl ⟨_, old, rfl, countEq⟩
      · have absent : ∀ other ∈ counts.rows, other.check ≠ row.check := by
          intro other member sameCheck
          exact occurs (sameCheck ▸ ((tally.mem_iff other).mp member).1)
        rw [List.count_eq_zero.mpr occurs]
        constructor
        · rintro (⟨other, member, sameCheck, _⟩ | ⟨_, countEq⟩)
          · exact absurd sameCheck (absent other member)
          · exact countEq
        · intro countEq
          exact .inr ⟨absent, countEq⟩
    · simp only [own, ne_eq, not_false_eq_true, and_true, false_and, or_false, false_or,
        tally.mem_iff, List.count_cons_of_ne (Ne.symm own)]
  total := by
    rw [Counts.total_eq_sum, Counts.increment, sum_countIn, ← Counts.total_eq_sum, tally.total,
      List.length_cons]

theorem of_perm (tally : counts.Tally names) {others : List String} (perm : others.Perm names) :
    counts.Tally others where
  mem_iff row := by rw [tally.mem_iff, perm.mem_iff, perm.count_eq]
  total := by rw [tally.total, perm.length_eq]

end Counts.Tally

/-! ## A course of calls -/

/-- The report after a course of calls. -/
def Report.after (report : Report) (calls : List ReportCall) : Report :=
  calls.foldl (fun report call => (report.take call).1) report

/-- A report has counted files and the checks of findings. -/
structure Report.Counted (color : Bool) (files : Nat) (names : List String) (report : Report) :
    Prop where
  color : report.color = color
  showSummary : report.showSummary = true
  files : report.files = files
  tally : report.counts.Tally names

theorem Report.Counted.take {color : Bool} {files : Nat} {names : List String} {report : Report}
    (counted : report.Counted color files names) (call : ReportCall) :
    (report.take call).1.Counted color (files + (ReportCall.startedPaths [call]).length)
      (ReportCall.reportedChecks [call] ++ names) := by
  obtain ⟨rfl, shows, rfl, tally⟩ := counted
  cases call with
  | startFile path => exact ⟨rfl, shows, rfl, tally⟩
  | report diagnostic => exact ⟨rfl, shows, rfl, tally.increment diagnostic.check⟩
  | endFile path => exact ⟨rfl, shows, rfl, tally⟩

theorem Report.Counted.after {color : Bool} {files : Nat} {names : List String}
    {report : Report} (counted : report.Counted color files names) (calls : List ReportCall) :
    (report.after calls).Counted color (files + (ReportCall.startedPaths calls).length)
      ((ReportCall.reportedChecks calls).reverse ++ names) := by
  unfold Report.after
  induction calls generalizing files names report with
  | nil => exact counted
  | cons call calls ih =>
      have paths : ReportCall.startedPaths (call :: calls) =
          ReportCall.startedPaths [call] ++ ReportCall.startedPaths calls :=
        List.filterMap_append (l := [call])
      have checks : (ReportCall.reportedChecks (call :: calls)).reverse ++ names =
          (ReportCall.reportedChecks calls).reverse ++
            (ReportCall.reportedChecks [call] ++ names) := by
        cases call with
        | startFile path | endFile path => rfl
        | report diagnostic =>
            simp [ReportCall.reportedChecks, ReportCall.diagnostics, ReportCall.diagnostic?]
      rw [List.foldl_cons, paths, List.length_append, ← Nat.add_assoc, checks]
      exact ih (counted.take call)

/-- Where a text itself turns styles off, the style is turned on again. -/
inductive Resumed (opening : String) : String → String → Prop
  | as_it_is (text : String) : Resumed opening text text
  | again {text shown : String} (front : String) (resumed : Resumed opening text shown) :
      Resumed opening (front ++ "\x1b[0m" ++ text) (front ++ "\x1b[0m" ++ opening ++ shown)

theorem Resumed.eq_of_plain {text shown : String} (resumed : Resumed "" text shown) :
    shown = text := by
  induction resumed with
  | as_it_is text => rfl
  | again front resumed ih => rw [ih, String.append_empty]

end Terminal

end ClassLint
