import ClassLint.Report.Call
import ClassLint.Report.Styled

/-!
# The terminal report

Each call prints at most one line as it comes.  At the end a summary tells how
many findings there were, and lists the checks by falling number of findings
with a bar for each.
-/

namespace ClassLint

namespace Terminal

/-- A row of the summary: a check and how many findings it reported. -/
structure Row where
  check : String
  count : Nat
  deriving DecidableEq, Repr

/-- Count one more finding of a check in rows that stand in rising order. -/
def countIn (check : String) : List Row → List Row
  | [] => [⟨check, 1⟩]
  | row :: rows =>
      if check < row.check then ⟨check, 1⟩ :: row :: rows
      else if check = row.check then ⟨check, row.count + 1⟩ :: rows
      else row :: countIn check rows

theorem eq_or_mem_of_mem_countIn {check : String} {rows : List Row} {row : Row}
    (member : row ∈ countIn check rows) :
    row.check = check ∨ ∃ other ∈ rows, row.check = other.check := by
  induction rows with
  | nil =>
      rw [countIn, List.mem_singleton] at member
      exact .inl (congrArg Row.check member)
  | cons first rows ih =>
      unfold countIn at member
      split at member
      · rcases List.mem_cons.mp member with rfl | member
        · exact .inl rfl
        · exact .inr ⟨row, member, rfl⟩
      · split at member
        · rcases List.mem_cons.mp member with rfl | member
          · exact .inl rfl
          · exact .inr ⟨row, List.mem_cons_of_mem _ member, rfl⟩
        · rcases List.mem_cons.mp member with rfl | member
          · exact .inr ⟨row, List.mem_cons_self, rfl⟩
          · rcases ih member with isCheck | ⟨other, inside, sameCheck⟩
            · exact .inl isCheck
            · exact .inr ⟨other, List.mem_cons_of_mem _ inside, sameCheck⟩

theorem pairwise_countIn {rows : List Row}
    (rising : rows.Pairwise fun first second => first.check < second.check) (check : String) :
    (countIn check rows).Pairwise fun first second => first.check < second.check := by
  induction rows with
  | nil => exact List.pairwise_singleton _ _
  | cons row rows ih =>
      obtain ⟨rowLess, restRising⟩ := List.pairwise_cons.mp rising
      unfold countIn
      split
      next less =>
        refine List.pairwise_cons.mpr ⟨?_, rising⟩
        intro other member
        rcases List.mem_cons.mp member with rfl | member
        · exact less
        · exact String.lt_trans less (rowLess other member)
      next notLess =>
        split
        next same =>
          rw [same]
          exact List.pairwise_cons.mpr ⟨rowLess, restRising⟩
        next distinct =>
          refine List.pairwise_cons.mpr ⟨?_, ih restRising⟩
          intro other member
          rcases eq_or_mem_of_mem_countIn member with isCheck | ⟨earlier, inside, sameCheck⟩
          · rw [isCheck]
            rcases Std.lt_trichotomy check row.check with less | same | more
            · exact absurd less notLess
            · exact absurd same distinct
            · exact more
          · rw [sameCheck]
            exact rowLess earlier inside

/-- How many findings each check reported: one row for each check that reported, in
rising order of the names. -/
structure Counts where
  rows : List Row
  rising : rows.Pairwise fun first second => first.check < second.check

def Counts.empty : Counts := ⟨[], List.Pairwise.nil⟩

/-- Count one more finding of a check. -/
def Counts.increment (counts : Counts) (check : String) : Counts :=
  ⟨countIn check counts.rows, pairwise_countIn counts.rising check⟩

/-- How many findings were counted. -/
def Counts.total (counts : Counts) : Nat :=
  counts.rows.foldl (fun sum row => sum + row.count) 0

/-- How to print, and what has to be summed up at the end: how many files started,
and how many findings each check reported. -/
structure Report where
  color : Bool
  showSummary : Bool
  files : Nat
  counts : Counts

/-- A report before the first call. -/
def Report.new (color showSummary : Bool) : Report :=
  ⟨color, showSummary, 0, .empty⟩

def headingStyle : Style := Style.cyan.asBold
def checkStyle : Style := Style.magenta
def classStyle : Style := Style.white.asBold
def countStyle : Style := Style.white.asBold
def successStyle : Style := Style.green.asBold
def barStyle : Style := Style.plain.asDimmed
def noticeStyle : Style := Style.yellow

/-- The line for a file that starts. -/
def headingLine (color : Bool) (path : Path) : String :=
  headingStyle.write color ("=== Analyzing " ++ path.text ++ " ===") ++ "\n"

def findingLine (color : Bool) (diagnostic : Diagnostic) : String :=
  "[" ++ checkStyle.write color diagnostic.check ++ "] In class '" ++
    classStyle.write color diagnostic.className ++ "': " ++ diagnostic.message ++ "\n"

/-- Take a call: the report after it, and what it prints. -/
def Report.take (report : Report) : ReportCall → Report × String
  | .startFile path =>
      ({ report with files := report.files + 1 }, headingLine report.color path)
  | .report diagnostic =>
      ({ report with counts := report.counts.increment diagnostic.check },
        findingLine report.color diagnostic)
  | .endFile _ => (report, "")

/-- Rows with more findings come first, then rows with the lesser name. -/
def Row.precedes (first second : Row) : Bool :=
  second.count < first.count ||
    (first.count == second.count && Ord.compare first.check second.check != .gt)

/-- The rows in the order of the summary. -/
def Counts.ranked (counts : Counts) : List Row :=
  counts.rows.mergeSort Row.precedes

/-- How many characters a bar has. -/
def barWidth : Nat := 20

/-- How many characters of a bar are filled for a share of the findings. -/
def filledWidth (count total : Nat) : Nat :=
  let percentage := count.toFloat * 100.0 / total.toFloat
  ((percentage / 100.0) * barWidth.toFloat).round.toUInt64.toNat

/-- The bar for a share of the findings. -/
def bar (count total : Nat) : String :=
  let filled := filledWidth count total
  String.ofList (List.replicate filled '█' ++ List.replicate (barWidth - filled) '░')

/-- A number with blanks on the left up to a width. -/
def alignRight (width number : Nat) : String :=
  let digits := toString number
  String.ofList (List.replicate (width - digits.length) ' ') ++ digits

def rowLine (color : Bool) (total : Nat) (row : Row) : String :=
  "  " ++ checkStyle.writePadded color 22 row.check ++ " " ++
    barStyle.write color (bar row.count total) ++ " " ++ alignRight 5 row.count ++ "\n"

/-- The line between the findings and the summary. -/
def separatorLine : String :=
  "\n" ++ String.ofList (List.replicate 50 '━') ++ "\n"

/-- The summary of a run. -/
def summary (color : Bool) (files : Nat) (counts : Counts) : String :=
  let counted (number : Nat) := countStyle.write color (toString number)
  separatorLine ++
    if counts.total = 0 then
      successStyle.write color "No issues found!" ++ " (" ++ counted files ++
        " files analyzed)\n"
    else
      "Found " ++ counted counts.total ++ " issues in " ++ counted files ++ " files:\n" ++
        String.join (counts.ranked.map (rowLine color counts.total))

/-- What the end of a run prints. -/
def Report.finish (report : Report) : String :=
  if report.showSummary then summary report.color report.files report.counts else ""

/-- What a course of calls prints, after the report and the text so far (latest
first). -/
def printFrom (report : Report) (printed : List String) : List ReportCall → String
  | [] => String.join (report.finish :: printed).reverse
  | call :: calls =>
      let (report, text) := report.take call
      printFrom report (text :: printed) calls

/-- Everything that a run prints. -/
def print (color : Bool) (calls : List ReportCall) : String :=
  printFrom (Report.new color true) [] calls

/-- Everything that a run prints which is stopped before its end. -/
def printUnfinished (color : Bool) (calls : List ReportCall) : String :=
  printFrom (Report.new color false) [] calls

/-- The line for a run that finds no class files. -/
def noFilesLine (color : Bool) : String :=
  noticeStyle.write color "No .class files found." ++ "\n"

end Terminal

end ClassLint
