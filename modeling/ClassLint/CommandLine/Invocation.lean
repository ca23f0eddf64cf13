import ClassLint.Check.BuiltIn
import ClassLint.Config.Decode
import ClassLint.Path
import ClassLint.Text.Digits

/-!
# What a command line can ask for

An invocation gathers what the words of a command line say.  Each parameter
takes a value and each switch takes none; both are known under long and short
names.
-/

namespace ClassLint

namespace CommandLine

/-- The formats of a report. -/
inductive ReportFormat where
  | terminal
  | json
  deriving DecidableEq, Repr

def ReportFormat.ofName? (name : String) : Option ReportFormat :=
  if name = "terminal" then some .terminal
  else if name = "json" then some .json
  else none

/-- The shells for which completions can be written. -/
inductive Shell where
  | bash
  | elvish
  | fish
  | powershell
  | zsh
  deriving DecidableEq, Repr

def Shell.ofName? (name : String) : Option Shell :=
  if name = "bash" then some .bash
  else if name = "elvish" then some .elvish
  else if name = "fish" then some .fish
  else if name = "powershell" then some .powershell
  else if name = "zsh" then some .zsh
  else none

/-- What takes a value. -/
inductive Parameter where
  /-- What is analysed: a word of its own. -/
  | path
  | config
  | format
  | output
  | maxInstructions
  | disable
  | exclude
  | parallel
  | completions
  deriving DecidableEq, Repr

namespace Parameter

/-- How a parameter is written. -/
def name : Parameter → String
  | .path => "<PATH>"
  | .config => "--config"
  | .format => "--format"
  | .output => "--output"
  | .maxInstructions => "--max-instructions"
  | .disable => "--disable"
  | .exclude => "--exclude"
  | .parallel => "--parallel"
  | .completions => "--completions"

/-- The parameters that have a name of their own. -/
def named : List Parameter :=
  [.config, .format, .output, .maxInstructions, .disable, .exclude, .parallel, .completions]

def ofLong? (name : String) : Option Parameter :=
  named.find? fun parameter => parameter.name = "--" ++ name

def ofShort? : Char → Option Parameter
  | 'c' => some .config
  | 'f' => some .format
  | 'o' => some .output
  | 'e' => some .exclude
  | _ => none

end Parameter

/-- What takes no value. -/
inductive Switch where
  | verbose
  | quiet
  | listChecks
  | help
  | version
  deriving DecidableEq, Repr

namespace Switch

/-- How a switch is written. -/
def name : Switch → String
  | .verbose => "--verbose"
  | .quiet => "--quiet"
  | .listChecks => "--list-checks"
  | .help => "--help"
  | .version => "--version"

def all : List Switch := [.verbose, .quiet, .listChecks, .help, .version]

def ofLong? (name : String) : Option Switch :=
  all.find? fun switch => switch.name = "--" ++ name

def ofShort? : Char → Option Switch
  | 'v' => some .verbose
  | 'q' => some .quiet
  | 'h' => some .help
  | 'V' => some .version
  | _ => none

end Switch

/-- Why a command line cannot be understood. -/
inductive UsageError where
  | unknownArgument (word : String)
  | surplusArgument (word : String)
  | missingValue (parameter : Parameter)
  | invalidValue (parameter : Parameter) (value : String)
  | unexpectedValue (switch : Switch) (value : String)
  | repeatedParameter (parameter : Parameter)
  | repeatedSwitch (switch : Switch)
  | missingPath
  deriving DecidableEq, Repr

def UsageError.message : UsageError → String
  | .unknownArgument word => "unexpected argument '" ++ word ++ "' found"
  | .surplusArgument word => "unexpected argument '" ++ word ++ "' found"
  | .missingValue parameter => "a value is required for '" ++ parameter.name ++ "'"
  | .invalidValue parameter value =>
      "invalid value '" ++ value ++ "' for '" ++ parameter.name ++ "'"
  | .unexpectedValue switch value =>
      "unexpected value '" ++ value ++ "' for '" ++ switch.name ++ "'"
  | .repeatedParameter parameter =>
      "the argument '" ++ parameter.name ++ "' cannot be used multiple times"
  | .repeatedSwitch switch =>
      "the argument '" ++ switch.name ++ "' cannot be used multiple times"
  | .missingPath => "the following required arguments were not provided: <PATH>"

/-- What the words of a command line say. -/
structure Invocation where
  path : Option Path := none
  config : Option Path := none
  format : Option ReportFormat := none
  output : Option Path := none
  maxInstructions : Option Nat := none
  disable : List String := []
  exclude : List String := []
  parallel : Option Bool := none
  completions : Option Shell := none
  verbose : Bool := false
  quiet : Bool := false
  listChecks : Bool := false
  deriving DecidableEq, Repr

/-! ## Values -/

/-- Read a path, which is not empty. -/
def path? (text : String) : Option Path :=
  if text.isEmpty then none else some ⟨text⟩

/-- Read an instruction limit: decimal digits, which may follow a plus sign. -/
def limit? (text : String) : Option Nat :=
  let digits : List Char :=
    match text.toList with
    | '+' :: rest => rest
    | chars => chars
  match Digits.number? 10 digits with
  | some limit => if limit ≤ Config.maxLimit then some limit else none
  | none => none

/-- Read a truth value. -/
def boolean? (text : String) : Option Bool :=
  if text = "true" then some true else if text = "false" then some false else none

/-- Read the name of a check. -/
def check? (text : String) : Option String :=
  if text ∈ BuiltInCheck.names then some text else none

namespace Invocation

/-- Fill a place that is filled at most once. -/
def fill {α : Type} (parameter : Parameter) (text : String) (place : Option α)
    (read? : String → Option α) : Except UsageError (Option α) :=
  match place, read? text with
  | some _, _ => .error (.repeatedParameter parameter)
  | none, none => .error (.invalidValue parameter text)
  | none, some value => .ok (some value)

/-- Add to values that can be given repeatedly. -/
def append (parameter : Parameter) (text : String) (values : List String)
    (read? : String → Option String) : Except UsageError (List String) :=
  match read? text with
  | none => .error (.invalidValue parameter text)
  | some value => .ok (values ++ [value])

/-- Give a parameter a value. -/
def put (invocation : Invocation) (parameter : Parameter) (text : String) :
    Except UsageError Invocation :=
  match parameter with
  | .path => do
      return { invocation with path := ← fill .path text invocation.path path? }
  | .config => do
      return { invocation with config := ← fill .config text invocation.config path? }
  | .format => do
      return { invocation with
        format := ← fill .format text invocation.format ReportFormat.ofName? }
  | .output => do
      return { invocation with output := ← fill .output text invocation.output path? }
  | .maxInstructions => do
      return { invocation with
        maxInstructions := ← fill .maxInstructions text invocation.maxInstructions limit? }
  | .disable => do
      return { invocation with disable := ← append .disable text invocation.disable check? }
  | .exclude => do
      return { invocation with exclude := ← append .exclude text invocation.exclude some }
  | .parallel => do
      return { invocation with parallel := ← fill .parallel text invocation.parallel boolean? }
  | .completions => do
      return { invocation with
        completions := ← fill .completions text invocation.completions Shell.ofName? }

/-- Whether a switch that changes the invocation has been given. -/
def has (invocation : Invocation) : Switch → Bool
  | .verbose => invocation.verbose
  | .quiet => invocation.quiet
  | .listChecks => invocation.listChecks
  | .help | .version => false

def turnOn (invocation : Invocation) : Switch → Invocation
  | .verbose => { invocation with verbose := true }
  | .quiet => { invocation with quiet := true }
  | .listChecks => { invocation with listChecks := true }
  | .help | .version => invocation

end Invocation

end CommandLine

end ClassLint
