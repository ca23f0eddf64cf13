import ClassLint.CommandLine.Invocation

/-!
# Reading a command line

Words are read from left to right.  A parameter takes its value from the same
word or from the next one, which must not look like a parameter itself.  A value
from a word of its own is looked at when the next argument has been recognised,
or when the words end.  Asking for help or for the version ends the reading, so
mistakes after it do not count.
-/

namespace ClassLint

namespace CommandLine

/-- What settings of a configuration the command line replaces or extends. -/
structure Overrides where
  maxInstructions : Option Nat
  disable : List String
  exclude : List String
  parallel : Option Bool
  deriving DecidableEq, Repr

/-- A request to analyse a path. -/
structure Request where
  path : Path
  config : Option Path
  format : ReportFormat
  output : Option Path
  overrides : Overrides
  verbose : Bool
  quiet : Bool
  deriving DecidableEq, Repr

/-- What a command line asks for. -/
inductive Command where
  | analyze (request : Request)
  | listChecks
  | completions (shell : Shell)
  | help
  | version
  deriving DecidableEq, Repr

/-- Why the reading of a command line ends before the last word. -/
inductive Stop where
  | error (error : UsageError)
  | help
  | version
  deriving DecidableEq, Repr

/-- A command line that has been read in part. -/
structure Parsing where
  invocation : Invocation := {}
  /-- A parameter that has not been looked at, with its value if it has come. -/
  pending : Option (Parameter × Option String) := none
  /-- Whether all words that follow are paths. -/
  onlyPaths : Bool := false
  deriving DecidableEq, Repr

namespace Parsing

/-- Give a parameter a value. -/
def put (parsing : Parsing) (parameter : Parameter) (text : String) : Except Stop Parsing :=
  match parsing.invocation.put parameter text with
  | .ok invocation => .ok { parsing with invocation := invocation }
  | .error error => .error (.error error)

/-- Look at the pending parameter. -/
def settle (parsing : Parsing) : Except Stop Parsing :=
  match parsing.pending with
  | none => .ok parsing
  | some (parameter, none) => .error (.error (.missingValue parameter))
  | some (parameter, some text) => { parsing with pending := none }.put parameter text

def takeSwitch (parsing : Parsing) (switch : Switch) : Except Stop Parsing := do
  let settled ← parsing.settle
  match switch with
  | .help => throw .help
  | .version => throw .version
  | _ =>
      if settled.invocation.has switch then throw (.error (.repeatedSwitch switch))
      else return { settled with invocation := settled.invocation.turnOn switch }

/-- Take a parameter, with its value if it stands in the same word. -/
def takeParameter (parsing : Parsing) (parameter : Parameter) (value : Option String) :
    Except Stop Parsing := do
  let settled ← parsing.settle
  match value with
  | some text => settled.put parameter text
  | none => return { settled with pending := some (parameter, none) }

def takePath (parsing : Parsing) (word : String) : Except Stop Parsing := do
  let settled ← parsing.settle
  if settled.invocation.path.isSome then throw (.error (.surplusArgument word))
  else return { settled with pending := some (.path, some word) }

/-- Split a word at the first equals sign. -/
def splitAtEquals (chars : List Char) : String × Option String :=
  match chars.span (· ≠ '=') with
  | (name, []) => (String.ofList name, none)
  | (name, _ :: value) => (String.ofList name, some (String.ofList value))

/-- Take a long name, with the value after an equals sign. -/
def takeLong (parsing : Parsing) (chars : List Char) : Except Stop Parsing :=
  let (name, value) := splitAtEquals chars
  match Parameter.ofLong? name, Switch.ofLong? name with
  | some parameter, _ => parsing.takeParameter parameter value
  | none, some switch =>
      match value with
      | none => parsing.takeSwitch switch
      | some text => .error (.error (.unexpectedValue switch text))
  | none, none => .error (.error (.unknownArgument ("--" ++ name)))

/-- The value that follows a short name in the same word, if there is one.  An
equals sign before it does not count. -/
def attachedValue : List Char → Option String
  | [] => none
  | '=' :: rest => some (String.ofList rest)
  | chars => some (String.ofList chars)

/-- Take short names.  The first one that takes a value takes the rest of the
word. -/
def takeShort (parsing : Parsing) : List Char → Except Stop Parsing
  | [] => .ok parsing
  | char :: rest =>
      match Parameter.ofShort? char, Switch.ofShort? char with
      | some parameter, _ => parsing.takeParameter parameter (attachedValue rest)
      | none, some switch =>
          match parsing.takeSwitch switch with
          | .ok next => next.takeShort rest
          | .error stop => .error stop
      | none, none => .error (.error (.unknownArgument (String.ofList ['-', char])))

/-- Take a word that is no name: the value of a parameter that waits for one, or
a path. -/
def takeValue (parsing : Parsing) (word : String) : Except Stop Parsing :=
  match parsing.pending with
  | some (parameter, none) => .ok { parsing with pending := some (parameter, some word) }
  | _ => parsing.takePath word

/-- Take one more word. -/
def step (parsing : Parsing) (word : String) : Except Stop Parsing :=
  if parsing.onlyPaths then parsing.takePath word
  else
    match word.toList with
    | ['-', '-'] => .ok { parsing with onlyPaths := true }
    | '-' :: '-' :: chars => parsing.takeLong chars
    | '-' :: char :: chars => parsing.takeShort (char :: chars)
    | _ => parsing.takeValue word

end Parsing

/-- What an invocation asks for.  Completions and the list of checks come before
an analysis, which needs a path. -/
def Invocation.command (invocation : Invocation) : Except UsageError Command :=
  match invocation.completions, invocation.listChecks, invocation.path with
  | some shell, _, _ => .ok (.completions shell)
  | none, true, _ => .ok .listChecks
  | none, false, none => .error .missingPath
  | none, false, some path =>
      .ok (.analyze
        { path := path
          config := invocation.config
          format := invocation.format.getD .terminal
          output := invocation.output
          overrides :=
            { maxInstructions := invocation.maxInstructions
              disable := invocation.disable
              exclude := invocation.exclude
              parallel := invocation.parallel }
          verbose := invocation.verbose
          quiet := invocation.quiet })

/-- Read the words of a command line. -/
def parse (words : List String) : Except UsageError Command :=
  match words.foldlM Parsing.step {} >>= Parsing.settle with
  | .ok parsing => parsing.invocation.command
  | .error .help => .ok .help
  | .error .version => .ok .version
  | .error (.error error) => .error error

end CommandLine

end ClassLint
