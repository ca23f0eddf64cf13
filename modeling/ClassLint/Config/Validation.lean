import ClassLint.Check.BuiltIn
import ClassLint.Glob
import ClassLint.Path

/-!
# Valid configurations

A configuration is valid when every check it leaves out is a built-in one, and when
the patterns of its exclude globs can be used.  Which patterns can be used is up to the
engine for regular expressions, which has limits on their size.
-/

namespace ClassLint

/-- Why a configuration cannot be used. -/
inductive ConfigError where
  /-- The file cannot be read as text. -/
  | unreadable (path : Path)
  /-- The document is ill-formed or does not describe a configuration. -/
  | illFormed (path : Path)
  /-- No document format has the extension of the file. -/
  | unsupportedFormat (path : Path)
  /-- A check to leave out is not a built-in one. -/
  | unknownCheck (name : String)
  /-- The pattern of an exclude glob cannot be used. -/
  | invalidPattern (glob : String)
  deriving DecidableEq, Repr

namespace ConfigError

/-- The message for a configuration error.  What is wrong in a document is not
told. -/
def message : ConfigError → String
  | .unreadable path => "Failed to read config file " ++ path.text
  | .illFormed path => "Invalid config file " ++ path.text
  | .unsupportedFormat path => "Unsupported config format: " ++ path.text
  | .unknownCheck name => "Unknown check '" ++ name ++ "'"
  | .invalidPattern glob => "Invalid exclude pattern '" ++ glob ++ "'"

def code : ConfigError → String
  | .unreadable _ => "bytelint::config::read"
  | .illFormed _ => "bytelint::config::parse"
  | .unsupportedFormat _ => "bytelint::config::format"
  | .unknownCheck _ => "bytelint::config::unknown_check"
  | .invalidPattern _ => "bytelint::config::pattern"

/-- What to do about a configuration error, if there is something to say. -/
def help? : ConfigError → Option String
  | .unsupportedFormat _ => some "use a .toml, .yml, .yaml or .json file"
  | .unknownCheck _ => some "run with --list-checks to see the available checks"
  | _ => none

end ConfigError

namespace Config

/-- The globs of the paths to leave out, if their patterns are accepted.  The first one
that is not is named otherwise. -/
def excludeGlobs (accepts : String → Bool) (config : Config) :
    Except ConfigError (List Glob) :=
  match config.exclude.find? fun text => !accepts (Glob.ofText text).pattern with
  | some text => .error (.invalidPattern text)
  | none => .ok (config.exclude.map Glob.ofText)

/-- Succeed if the configuration is valid.  The first unknown check is named
otherwise, or else the first glob that is not accepted. -/
def validate (accepts : String → Bool) (config : Config) : Except ConfigError Unit := do
  match config.disabledChecks.find? (· ∉ BuiltInCheck.names) with
  | some name => throw (.unknownCheck name)
  | none => let _ ← config.excludeGlobs accepts

end Config

end ClassLint
