import ClassLint.Config.Validation
import ClassLint.FileTree.Walk

/-!
# Finding class files

The root of a run is a class file, or a directory below which class files are
looked for.  Files that an exclude glob matches are left out.  A glob is tried
on the path below the root, with backslashes turned into slashes.
-/

namespace ClassLint

/-- Why no list of files can be given. -/
inductive DiscoveryError where
  | notFound (root : Path)
  | unreadable (root : Path)
  /-- The exclude globs cannot be used. -/
  | config (error : ConfigError)
  deriving DecidableEq, Repr

namespace DiscoveryError

def message : DiscoveryError → String
  | .notFound root => "Path does not exist: " ++ root.text
  | .unreadable root => "Failed to read " ++ root.text
  | .config error => error.message

def code : DiscoveryError → String
  | .notFound _ => "bytelint::discovery::not_found"
  | .unreadable _ => "bytelint::discovery::unreadable"
  | .config error => error.code

end DiscoveryError

namespace Discovery

/-- Whether a path has the extension of class files. -/
def isClassFile (path : Path) : Bool :=
  path.extension? == some "class"

/-- A path text as globs see it. -/
def globText (text : String) : String :=
  text.map fun char => if char = '\\' then '/' else char

/-- Whether one of the globs matches a path text. -/
def isExcluded (globs : List Glob) (text : String) : Bool :=
  globs.any (·.matches (globText text))

/-- Whether a file met below the root is wanted. -/
def isWanted (globs : List Glob) (file : FileTree.WalkedFile) : Bool :=
  isClassFile file.path && !isExcluded globs (Path.joinSegments file.names)

/-- The class files at or below a root, in the order of paths. -/
def findFiles (tree : FileTree) (globs : List Glob) (root : Path) :
    Except DiscoveryError (List Path) :=
  if !tree.exists? root then .error (.notFound root)
  else if tree.isFile root then
    .ok (if isClassFile root && !isExcluded globs root.text then [root] else [])
  else
    match tree.walk root with
    | .error _ => .error (.unreadable root)
    | .ok files =>
        .ok (((files.filter (isWanted globs)).map (·.path)).mergeSort Path.precedes)

/-- The class files at or below a root that a configuration leaves in. -/
def findFilesFor (accepts : String → Bool) (tree : FileTree) (config : Config)
    (root : Path) : Except DiscoveryError (List Path) :=
  match config.excludeGlobs accepts with
  | .error error => .error (.config error)
  | .ok globs => findFiles tree globs root

end Discovery

end ClassLint
