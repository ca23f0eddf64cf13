/-!
# Paths

A path is a text in which slashes separate names.  Its components disregard
repeated and trailing slashes and every `.` but a leading one.  Paths are
ordered by their components, so that all paths below a directory stand together.
-/

namespace ClassLint

/-- A path as it was written. -/
structure Path where
  text : String
  deriving DecidableEq, Repr

namespace Path

/-- One step of a path. -/
inductive Component where
  /-- The root, in front of an absolute path. -/
  | root
  /-- A leading `.`. -/
  | current
  /-- A `..`. -/
  | parent
  | name (text : String)
  deriving DecidableEq, Repr

/-- The place of a component's form in the order of components. -/
def Component.rank : Component → Nat
  | .root => 0
  | .current => 1
  | .parent => 2
  | .name _ => 3

/-- The order of components: names come last and are ordered by their
characters. -/
def Component.compare (first second : Component) : Ordering :=
  match first, second with
  | .name firstText, .name secondText => Ord.compare firstText secondText
  | first, second => Ord.compare first.rank second.rank

def cutAtSlashes : List Char → List (List Char)
  | [] => [[]]
  | char :: chars =>
      if char = '/' then [] :: cutAtSlashes chars
      else
        match cutAtSlashes chars with
        | [] => [[char]]
        | segment :: segments => (char :: segment) :: segments

/-- The texts between the slashes of a path, some of which may be empty. -/
def segments (path : Path) : List String :=
  (cutAtSlashes path.text.toList).map String.ofList

/-- Whether the path starts at the root. -/
def isAbsolute (path : Path) : Bool :=
  path.text.toList.head? == some '/'

/-- Whether a segment leads nowhere: it is empty or `.`. -/
def isIdle (segment : String) : Bool :=
  segment == "" || segment == "."

def componentOf? (segment : String) : Option Component :=
  if isIdle segment then none
  else if segment = ".." then some .parent
  else some (.name segment)

def components (path : Path) : List Component :=
  let steps := path.segments.filterMap componentOf?
  if path.isAbsolute then .root :: steps
  else if path.segments.head? = some "." then .current :: steps
  else steps

def compareComponents : List Component → List Component → Ordering
  | [], [] => .eq
  | [], _ :: _ => .lt
  | _ :: _, [] => .gt
  | first :: firsts, second :: seconds =>
      (first.compare second).then (compareComponents firsts seconds)

/-- Whether a path stands before another one or beside it. -/
def precedes (first second : Path) : Bool :=
  compareComponents first.components second.components != .gt

/-- The last name of a path, unless it ends in the root, `.` or `..`. -/
def fileName? (path : Path) : Option String :=
  match path.components.getLast? with
  | some (.name text) => some text
  | _ => none

/-- Split a file name at its last dot.  A dot at the start does not count. -/
def splitFileName (name : String) : String × Option String :=
  let reversed := name.toList.reverse
  let ending := reversed.takeWhile (· != '.')
  match reversed.drop ending.length with
  | _ :: before@(_ :: _) =>
      (String.ofList before.reverse, some (String.ofList ending.reverse))
  | _ => (name, none)

/-- The file name without its extension. -/
def stem? (path : Path) : Option String :=
  path.fileName?.map fun name => (splitFileName name).1

/-- The part of the file name after its last dot. -/
def extension? (path : Path) : Option String :=
  path.fileName?.bind fun name => (splitFileName name).2

/-- Put slashes between segments. -/
def joinSegments (segments : List String) : String :=
  "/".intercalate segments

/-- Drop the segments at the end that lead nowhere. -/
def dropIdleEnd (segments : List String) : List String :=
  (segments.reverse.dropWhile isIdle).reverse

/-- The path without its last component, or nothing if there is none to drop. -/
def parent? (path : Path) : Option Path :=
  let shorten (segments : List String) : Option (List String) :=
    match dropIdleEnd segments with
    | [] => none
    | kept@(_ :: _) => some (dropIdleEnd kept.dropLast)
  match path.isAbsolute, path.segments with
  | true, segments =>
      (shorten segments.tail).map fun kept =>
        ⟨if kept = [] then "/" else joinSegments ("" :: kept)⟩
  | false, "." :: segments =>
      match shorten segments with
      | some kept => some ⟨joinSegments ("." :: kept)⟩
      | none => some ⟨""⟩
  | false, segments => (shorten segments).map fun kept => ⟨joinSegments kept⟩

/-- The path of an entry of a directory. -/
def child (path : Path) (name : String) : Path :=
  if path.text = "" then ⟨name⟩
  else if path.text.toList.getLast? = some '/' then ⟨path.text ++ name⟩
  else ⟨path.text ++ "/" ++ name⟩

end Path

end ClassLint
