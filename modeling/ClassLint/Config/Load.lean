import ClassLint.Config.Decode
import ClassLint.Config.Validation
import ClassLint.Document.Json
import ClassLint.Document.Toml.Reader
import ClassLint.Document.Yaml.Settings
import ClassLint.FileTree.Basic
import ClassLint.Text.Utf8

/-!
# Loading a configuration

The extension of a configuration file tells its format.  If no file is named,
one with a default name is looked for next to the path that is analysed.
-/

namespace ClassLint

namespace Config

/-- The formats of configuration documents. -/
inductive Format where
  | toml
  | yaml
  | json
  deriving DecidableEq, Repr

def Format.ofExtension? (extension : String) : Option Format :=
  if extension = "toml" then some .toml
  else if extension = "yml" ∨ extension = "yaml" then some .yaml
  else if extension = "json" then some .json
  else none

/-- Read a configuration from the text of a document. -/
def ofText? (format : Format) (text : String) : Option Config :=
  match format with
  | .toml => (Toml.parse? text).bind (ofDocument? Toml.view)
  | .yaml =>
      (Yaml.parse? text).bind fun root =>
        ofDocument? (Yaml.view (Yaml.anchoredFrom [] root)) root
  | .json => (Json.parse? text).bind (ofDocument? Json.view)

def readText? (tree : FileTree) (path : Path) : Option String :=
  match tree.read path with
  | .ok bytes => Utf8.decode? bytes
  | .error _ => none

/-- Load a configuration file. -/
def ofFile (accepts : String → Bool) (tree : FileTree) (path : Path) :
    Except ConfigError Config :=
  match readText? tree path with
  | none => .error (.unreadable path)
  | some text =>
      match path.extension?.bind Format.ofExtension? with
      | none => .error (.unsupportedFormat path)
      | some format =>
          match ofText? format text with
          | none => .error (.illFormed path)
          | some config =>
              match config.validate accepts with
              | .ok () => .ok config
              | .error error => .error error

/-- The default names of configuration files, in the order in which they are
tried. -/
def defaultNames : List String :=
  ["bytelint.toml", ".bytelint.toml", "bytelint.yml", "bytelint.yaml"]

/-- The directory in which a configuration file is looked for. -/
def directoryFor? (tree : FileTree) (root : Path) : Option Path :=
  if tree.isDirectory root then some root else root.parent?

/-- Load the configuration for a path that is analysed: that of the first file
with a default name, or the default. -/
def ofDefaultLocations (accepts : String → Bool) (tree : FileTree) (root : Path) :
    Except ConfigError Config :=
  match directoryFor? tree root with
  | none => .ok {}
  | some directory =>
      match (defaultNames.map directory.child).find? tree.isFile with
      | some path => ofFile accepts tree path
      | none => .ok {}

end Config

end ClassLint
