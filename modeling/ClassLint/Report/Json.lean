import ClassLint.FileTree.Basic
import ClassLint.Report.Call
import ClassLint.Text.Utf8

/-!
# The JSON report

All findings are gathered and written as one JSON document, indented by two
blanks for each level.  Quotes, backslashes and control characters in a text
are escaped, and nothing else is.
-/

namespace ClassLint

namespace JsonReport

/-- The version that a report names. -/
def version : String := "0.1.0"

/-- The characters of a text inside quotes. -/
def escape (char : Char) : List Char :=
  if char = '"' then ['\\', '"']
  else if char = '\\' then ['\\', '\\']
  else if char = '\x08' then ['\\', 'b']
  else if char = '\x0c' then ['\\', 'f']
  else if char = '\n' then ['\\', 'n']
  else if char = '\r' then ['\\', 'r']
  else if char = '\t' then ['\\', 't']
  else if char.toNat < 0x20 then
    '\\' :: 'u' :: '0' :: '0' :: (Nat.digitChar (char.toNat / 16)) ::
      [Nat.digitChar (char.toNat % 16)]
  else [char]

/-- A text in quotes. -/
def quote (text : String) : String :=
  String.ofList ('"' :: (text.toList.flatMap escape ++ ['"']))

/-- A finding with the file it was reported for. -/
structure Finding where
  file : String
  diagnostic : Diagnostic
  deriving DecidableEq, Repr

/-- What has been gathered: the file that is open, how many files started, and
the findings (latest first). -/
structure Gathered where
  currentFile : Option Path
  files : Nat
  findings : List Finding
  deriving DecidableEq, Repr

/-- Nothing is gathered before the first call. -/
def Gathered.new : Gathered := ⟨none, 0, []⟩

def Gathered.take (gathered : Gathered) : ReportCall → Gathered
  | .startFile path =>
      { gathered with currentFile := some path, files := gathered.files + 1 }
  | .report diagnostic =>
      let file := (gathered.currentFile.map (·.text)).getD ""
      { gathered with findings := ⟨file, diagnostic⟩ :: gathered.findings }
  | .endFile _ => { gathered with currentFile := none }

/-- A member of an object, on a line of its own. -/
def memberLine (indent : String) (name value : String) : String :=
  "\n" ++ indent ++ quote name ++ ": " ++ value

def findingObject (finding : Finding) : String :=
  "\x7b" ++ ",".intercalate
    [memberLine "      " "file" (quote finding.file),
      memberLine "      " "check" (quote finding.diagnostic.check),
      memberLine "      " "class" (quote finding.diagnostic.className),
      memberLine "      " "message" (quote finding.diagnostic.message)] ++ "\n    \x7d"

def findingArray (findings : List Finding) : String :=
  if findings = [] then "[]"
  else
    "[" ++ ",".intercalate (findings.map fun finding => "\n    " ++ findingObject finding) ++
      "\n  ]"

def Gathered.document (gathered : Gathered) : String :=
  let findings := gathered.findings.reverse
  "\x7b" ++ ",".intercalate
    [memberLine "  " "version" (quote version),
      memberLine "  " "files_analyzed" (toString gathered.files),
      memberLine "  " "total_issues" (toString findings.length),
      memberLine "  " "issues" (findingArray findings)] ++ "\n\x7d"

/-- What has been gathered after a course of calls. -/
def gather (calls : List ReportCall) : Gathered :=
  calls.foldl Gathered.take .new

def document (calls : List ReportCall) : String :=
  (gather calls).document

/-- Print the document with a line end, or write it to a file: what is printed,
and the tree afterwards.  A file that cannot be written is named. -/
def Gathered.deliver (gathered : Gathered) (tree : FileTree) (output : Option Path) :
    Except Path (String × FileTree) :=
  match output with
  | none => .ok (gathered.document ++ "\n", tree)
  | some path =>
      match tree.write path (Utf8.encode gathered.document) with
      | .ok written => .ok ("", written)
      | .error _ => .error path

/-- The message for a document that cannot be written to a file. -/
def writeFailure (path : Path) : String :=
  "Failed to write JSON report to " ++ path.text

end JsonReport

end ClassLint
