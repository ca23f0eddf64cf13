import ClassLint.CommandLine.Invocation

/-!
# Texts about the command line

The version line, the help text, and scripts that let a shell complete the names
of parameters and switches.
-/

namespace ClassLint

namespace CommandLine

def programName : String := "bytelint"

def versionLine : String := programName ++ " 0.1.0\n"

/-- The list of built-in checks, one a line. -/
def checkList : String :=
  String.join (BuiltInCheck.names.map (· ++ "\n"))

/-- How the program is called. -/
def usageLine : String := "Usage: " ++ programName ++ " [OPTIONS] [PATH]\n"

def helpText : String :=
  "A fast CLI tool that lints compiled JVM class files for common code-quality issues\n\n" ++
    usageLine ++ "\n" ++
    "Arguments:\n" ++
    "  [PATH]  A .class file or a directory to search recursively\n\n" ++
    "Options:\n" ++
    "  -c, --config <CONFIG>        Path to configuration file\n" ++
    "  -f, --format <FORMAT>        Output format [default: terminal] " ++
    "[possible values: terminal, json]\n" ++
    "  -o, --output <OUTPUT>        Output file (for json format)\n" ++
    "      --max-instructions <N>   Instruction limit for the LongMethod check\n" ++
    "      --disable <CHECK>        Checks to skip (can be specified multiple times) " ++
    "[possible values: " ++ ", ".intercalate BuiltInCheck.names ++ "]\n" ++
    "  -e, --exclude <GLOB>         Patterns to exclude (can be specified multiple times)\n" ++
    "      --parallel <PARALLEL>    Analyze files in parallel (enabled by default) " ++
    "[possible values: true, false]\n" ++
    "  -v, --verbose                Verbose output\n" ++
    "  -q, --quiet                  Quiet mode - only output results\n" ++
    "      --completions <SHELL>    Generate shell completions " ++
    "[possible values: bash, elvish, fish, powershell, zsh]\n" ++
    "      --list-checks            List the available checks and exit\n" ++
    "  -h, --help                   Print help\n" ++
    "  -V, --version                Print version\n"

/-- The long names of all parameters and switches. -/
def longNames : List String :=
  Parameter.named.map Parameter.name ++ Switch.all.map Switch.name

/-- A script that completes long names in a shell. -/
def completionScript : Shell → String
  | .bash => "complete -f -W '" ++ " ".intercalate longNames ++ "' " ++ programName ++ "\n"
  | .elvish =>
      "set edit:completion:arg-completer[" ++ programName ++ "] = \x7b|@words| put " ++
        " ".intercalate longNames ++ " \x7d\n"
  | .fish =>
      String.join (longNames.map fun name =>
        "complete -c " ++ programName ++ " -l " ++ (name.drop 2).toString ++ "\n")
  | .powershell =>
      "Register-ArgumentCompleter -Native -CommandName " ++ programName ++
        " -ScriptBlock \x7b " ++ ", ".intercalate (longNames.map fun name => "'" ++ name ++ "'") ++
        " \x7d\n"
  | .zsh => "#compdef " ++ programName ++ "\n_arguments " ++ " ".intercalate longNames ++ "\n"

end CommandLine

end ClassLint
