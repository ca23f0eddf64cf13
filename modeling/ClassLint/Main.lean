import ClassLint.CommandLine.Run

/-!
# The program

The part of the file system that a command concerns is copied into a file tree,
the command is carried out on the tree, and what it prints and writes is passed
on.
-/

namespace ClassLint

namespace CommandLine

/-- The entries of a file tree, latest first. -/
abbrev Snapshot := List (Location × Entry)

/-- The location to which steps lead from a directory, links left aside. -/
def locationOf (here : Location) : List String → Location
  | [] => here
  | step :: steps =>
      if step = "." then locationOf here steps
      else if step = ".." then locationOf here.tail steps
      else locationOf (step :: here) steps

/-- Add an entry unless there is one at its location. -/
def addNew (snapshot : Snapshot) (location : Location) (entry : Entry) : Snapshot :=
  if location = [] ∨ snapshot.any (·.1 = location) then snapshot
  else (location, entry) :: snapshot

def addAbove (snapshot : Snapshot) : Location → Snapshot
  | [] => snapshot
  | _ :: parent => addAbove (addNew snapshot parent .directory) parent

/-- Whether the content of a file can matter: it is a class file, or it can be a
configuration file. -/
def isOfInterest (path : Path) : Bool :=
  Discovery.isClassFile path || (path.extension?.bind Config.Format.ofExtension?).isSome

/-- Whether a path leads to a directory, if it leads anywhere. -/
def isDirectory? (path : Path) : IO (Option Bool) := do
  try return some (← (← IO.FS.realPath ⟨path.text⟩).isDir)
  catch _ => return none

/-- The content of a file, if it can matter. -/
def contentOf (path : Path) : IO (List UInt8) := do
  if isOfInterest path then return (← IO.FS.readBinFile ⟨path.text⟩).toList else return []

/-- Copy all that is below a directory.  A link to a directory that is being
copied leads back to itself, and a link that leads nowhere is kept as such. -/
partial def copyBelow (opened : List String) (location : Location) (directory : Path)
    (snapshot : Snapshot) : IO Snapshot := do
  let real ← IO.FS.realPath ⟨directory.text⟩
  let mut copied := snapshot
  for entry in ← real.readDir do
    let path : Path := ⟨entry.path.toString⟩
    let place := entry.fileName :: location
    match ← isDirectory? path with
    | none => copied := (place, .link entry.fileName) :: copied
    | some false => copied := (place, .file (← contentOf path)) :: copied
    | some true =>
        let target ← IO.FS.realPath ⟨path.text⟩
        if (real.toString :: opened).contains target.toString then
          copied := (place, .link entry.fileName) :: copied
        else
          copied ← copyBelow (real.toString :: opened) place path
            ((place, .directory) :: copied)
  return copied

/-- Copy what a path leads to, without what is below a directory. -/
def copyPath (snapshot : Snapshot) (path : Path) : IO Snapshot := do
  let location := locationOf [] path.steps
  match ← isDirectory? path with
  | none => return snapshot
  | some true => return addAbove (addNew snapshot location .directory) location
  | some false => return addAbove (addNew snapshot location (.file (← contentOf path))) location

/-- Copy what an analysis is about. -/
def copyRoot (path : Path) : IO Snapshot := do
  let snapshot ← copyPath [] path
  if (← isDirectory? path) = some true then
    copyBelow [] (locationOf [] path.steps) path snapshot
  else return snapshot

def directoryOf (path : Path) : Path :=
  match path.parent? with
  | some parent => if parent.text = "" then ⟨"."⟩ else parent
  | none => ⟨"."⟩

/-- Copy what a command concerns. -/
def copyFor (command : Command) : IO FileTree := do
  match command with
  | .analyze request =>
      let candidates := Config.defaultNames.map (directoryOf request.path).child
      let outputs := request.output.toList.flatMap fun path => [path, directoryOf path]
      let paths := candidates ++ request.config.toList ++ outputs
      return ⟨← paths.foldlM copyPath (← copyRoot request.path)⟩
  | _ => return .empty

/-- Whether output is coloured: if it is asked for, or if it goes to a terminal
and is not declined. -/
def wantsColor : IO Bool := do
  let isOn (value : Option String) : Option Bool := value.map (· ≠ "0")
  let forced := isOn (← IO.getEnv "CLICOLOR_FORCE")
  let declined := isOn (← IO.getEnv "NO_COLOR")
  let wanted := (isOn (← IO.getEnv "CLICOLOR")).getD true
  if forced = some true then return true
  else if declined.isSome then return false
  else return wanted && (← (← IO.getStdout).isTty)

/-- This program wraps numbers and uses no engine that could refuse a pattern. -/
def hostWith (color : Bool) : Host := ⟨.release, color, fun _ => true⟩

/-- Write the report of a request to its file, and tell whether that worked. -/
def writeReport (request : Request) (outcome : Outcome) : IO Bool := do
  match request.format, request.output with
  | .json, some path =>
      match outcome.tree.read path with
      | .ok content =>
          try
            IO.FS.writeBinFile ⟨path.text⟩ (ByteArray.mk content.toArray)
            return true
          catch _ => return false
      | .error _ => return false
  | _, _ => return true

/-- Carry out a command, and tell its exit status. -/
def perform (command : Command) : IO UInt32 := do
  let outcome := command.run (hostWith (← wantsColor)) (← copyFor command)
  let written ←
    match command with
    | .analyze request =>
        if outcome.status = 0 then writeReport request outcome else pure true
    | _ => pure true
  IO.print outcome.output
  IO.eprint outcome.errors
  return if written then UInt32.ofNat outcome.status else 2

end CommandLine

end ClassLint

/-- The program: carry out what the command line asks for. -/
def main (words : List String) : IO UInt32 := do
  match ClassLint.CommandLine.parse words with
  | .ok command => ClassLint.CommandLine.perform command
  | .error _ =>
      let outcome :=
        ClassLint.CommandLine.run (ClassLint.CommandLine.hostWith false) .empty words
      IO.eprint outcome.errors
      return UInt32.ofNat outcome.status
