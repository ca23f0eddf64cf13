import ClassLint.Path

/-!
# File trees

A file tree is a finite set of entries below one top directory: files,
directories and symbolic links.  The location of an entry is the list of names
that lead to it, the innermost first.  Relative paths start at the top
directory, and so do absolute ones.
-/

namespace ClassLint

/-- The place of an entry: its name, then the place of its directory. -/
abbrev Location := List String

/-- What stands at a location. -/
inductive Entry where
  | file (content : List UInt8)
  | directory
  /-- A symbolic link, with its target as it was written. -/
  | link (target : String)
  deriving DecidableEq, Repr

/-- A tree of files.  The top directory is always there and is not listed. -/
structure FileTree where
  entries : List (Location × Entry)
  deriving DecidableEq, Repr

/-- Why a path leads nowhere, or not to what was asked for. -/
inductive AccessError where
  | notFound
  | notDirectory
  | isDirectory
  | nameTooLong
  | tooManyLinks
  /-- The path holds a null character. -/
  | nullCharacter
  deriving DecidableEq, Repr

def AccessError.message : AccessError → String
  | .notFound => "No such file or directory (os error 2)"
  | .notDirectory => "Not a directory (os error 20)"
  | .isDirectory => "Is a directory (os error 21)"
  | .nameTooLong => "File name too long (os error 36)"
  | .tooManyLinks => "Too many levels of symbolic links (os error 40)"
  | .nullCharacter => "file name contained an unexpected NUL byte"

/-- How many bytes a name may have. -/
def nameLimit : Nat := 255

/-- How many bytes a path may have. -/
def pathLimit : Nat := 4095

/-- How many links may be followed on the way along one path. -/
def linkLimit : Nat := 40

/-- The names that a path takes one after the other.  A slash at the end asks for
a directory, as `.` does. -/
def Path.steps (path : Path) : List String :=
  let steps := path.segments.filter (· ≠ "")
  if path.segments.getLast? = some "" then steps ++ ["."] else steps

/-- Where a path leads. -/
inductive Resolution where
  | found (location : Location)
  /-- The directory is there but has no entry of the last name. -/
  | absent (directory : Location) (name : String)
  deriving DecidableEq, Repr

namespace FileTree

/-- The tree without entries. -/
def empty : FileTree := ⟨[]⟩

/-- What stands at a location. -/
def entry? (tree : FileTree) (location : Location) : Option Entry :=
  if location = [] then some .directory
  else (tree.entries.find? (·.1 = location)).map (·.2)

def names (tree : FileTree) (directory : Location) : List String :=
  tree.entries.filterMap fun (location, _) =>
    match location with
    | name :: parent => if parent = directory then some name else none
    | [] => none

/-- Go from a directory along the steps of a path, following at most `links`
links. -/
def resolveFrom (tree : FileTree) (links : Nat) (here : Location) :
    List String → Except AccessError Resolution
  | [] => .ok (.found here)
  | step :: steps =>
      if step = "." then tree.resolveFrom links here steps
      else if step = ".." then tree.resolveFrom links here.tail steps
      else if nameLimit < step.utf8ByteSize then .error .nameTooLong
      else
        match tree.entry? (step :: here) with
        | none => if steps = [] then .ok (.absent here step) else .error .notFound
        | some .directory => tree.resolveFrom links (step :: here) steps
        | some (.file _) =>
            if steps = [] then .ok (.found (step :: here)) else .error .notDirectory
        | some (.link target) =>
            match links with
            | 0 => .error .tooManyLinks
            | links + 1 =>
                let path : Path := ⟨target⟩
                tree.resolveFrom links (if path.isAbsolute then [] else here)
                  (path.steps ++ steps)
termination_by steps => (links, steps.length)

/-- Where a path leads, all links followed. -/
def resolve (tree : FileTree) (path : Path) : Except AccessError Resolution :=
  if '\x00' ∈ path.text.toList then .error .nullCharacter
  else if path.text = "" then .error .notFound
  else if pathLimit < path.text.utf8ByteSize then .error .nameTooLong
  else tree.resolveFrom linkLimit [] path.steps

def locate (tree : FileTree) (path : Path) : Except AccessError Location := do
  match ← tree.resolve path with
  | .found location => return location
  | .absent _ _ => throw .notFound

/-- Whether a path leads to a file or a directory. -/
def exists? (tree : FileTree) (path : Path) : Bool :=
  (tree.locate path).isOk

/-- What a path leads to. -/
def target? (tree : FileTree) (path : Path) : Option Entry :=
  match tree.locate path with
  | .ok location => tree.entry? location
  | .error _ => none

def isFile (tree : FileTree) (path : Path) : Bool :=
  match tree.target? path with
  | some (.file _) => true
  | _ => false

def isDirectory (tree : FileTree) (path : Path) : Bool :=
  tree.target? path == some .directory

/-- The content of the file to which a path leads. -/
def read (tree : FileTree) (path : Path) : Except AccessError (List UInt8) := do
  let location ← tree.locate path
  match tree.entry? location with
  | some (.file content) => return content
  | _ => throw .isDirectory

/-- Put an entry at a location, in place of what stands there. -/
def put (tree : FileTree) (location : Location) (entry : Entry) : FileTree :=
  ⟨tree.entries.filter (·.1 ≠ location) ++ [(location, entry)]⟩

/-- Write a file.  The directory has to be there; links are followed. -/
def write (tree : FileTree) (path : Path) (content : List UInt8) :
    Except AccessError FileTree := do
  match ← tree.resolve path with
  | .absent directory name => return tree.put (name :: directory) (.file content)
  | .found location =>
      match tree.entry? location with
      | some (.file _) => return tree.put location (.file content)
      | _ => throw .isDirectory

/-- Make the directories that steps from a directory name, as far as they are
not there. -/
def makeDirectoriesFrom (tree : FileTree) (here : Location) :
    List String → Except AccessError FileTree
  | [] => .ok tree
  | step :: steps =>
      match tree.resolveFrom linkLimit here [step] with
      | .error error => .error error
      | .ok (.absent directory name) =>
          (tree.put (name :: directory) .directory).makeDirectoriesFrom (name :: directory) steps
      | .ok (.found location) =>
          match tree.entry? location with
          | some .directory => tree.makeDirectoriesFrom location steps
          | _ => .error .notDirectory

/-- Make a directory and those above it, as far as they are not there. -/
def makeDirectories (tree : FileTree) (path : Path) : Except AccessError FileTree :=
  tree.makeDirectoriesFrom [] path.steps

def makeLink (tree : FileTree) (path : Path) (target : String) :
    Except AccessError FileTree := do
  match ← tree.resolve path with
  | .absent directory name => return tree.put (name :: directory) (.link target)
  | .found _ => throw .isDirectory

end FileTree

end ClassLint
