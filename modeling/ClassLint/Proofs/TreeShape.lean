import ClassLint.Discovery

/-!
# The shape of a file tree

Where paths lead, what a walk meets, which files are found and which can be
written does not depend on the contents of files.  Each of these is the same for
a tree and for its shape, which is the tree with all files emptied.
-/

namespace ClassLint

/-- An entry with its content taken out. -/
def Entry.blank : Entry → Entry
  | .file _ => .file []
  | .directory => .directory
  | .link target => .link target

namespace FileTree

/-- The tree with all files emptied. -/
def blank (tree : FileTree) : FileTree :=
  ⟨tree.entries.map fun (location, entry) => (location, entry.blank)⟩

@[simp]
theorem entry?_blank (tree : FileTree) (location : Location) :
    tree.blank.entry? location = (tree.entry? location).map Entry.blank := by
  unfold entry?
  split
  · rfl
  · simp [blank, List.find?_map, Function.comp_def]

@[simp]
theorem names_blank (tree : FileTree) (directory : Location) :
    tree.blank.names directory = tree.names directory := by
  simp only [names, blank, List.filterMap_map]
  rfl

theorem resolveFrom_blank (tree : FileTree) (links : Nat) (here : Location)
    (steps : List String) :
    tree.blank.resolveFrom links here steps = tree.resolveFrom links here steps := by
  -- The two trees take the same turn at each step, since that depends on the kind
  -- of the entry and on the target of a link.
  fun_induction resolveFrom tree links here steps with
  | case11 here step steps notSelf notUp fits target isLink links path ih =>
      simp only [resolveFrom, entry?_blank, Entry.blank, Option.map_some, if_false, *]
      exact ih
  | _ =>
      simp only [resolveFrom, entry?_blank, Entry.blank, Option.map_some, Option.map_none,
        if_true, if_false, *]

@[simp]
theorem resolve_blank (tree : FileTree) (path : Path) :
    tree.blank.resolve path = tree.resolve path := by
  simp only [resolve, resolveFrom_blank]

@[simp]
theorem locate_blank (tree : FileTree) (path : Path) :
    tree.blank.locate path = tree.locate path := by
  simp only [locate, resolve_blank]

@[simp]
theorem exists?_blank (tree : FileTree) (path : Path) :
    tree.blank.exists? path = tree.exists? path := by
  simp only [exists?, locate_blank]

@[simp]
theorem target?_blank (tree : FileTree) (path : Path) :
    tree.blank.target? path = (tree.target? path).map Entry.blank := by
  unfold target?
  rw [locate_blank]
  cases tree.locate path with
  | error error => rfl
  | ok location => exact tree.entry?_blank location

@[simp]
theorem isFile_blank (tree : FileTree) (path : Path) :
    tree.blank.isFile path = tree.isFile path := by
  unfold isFile
  rw [target?_blank]
  rcases tree.target? path with _ | _ | _ | _ <;> rfl

@[simp]
theorem isDirectory_blank (tree : FileTree) (path : Path) :
    tree.blank.isDirectory path = tree.isDirectory path := by
  unfold isDirectory
  rw [target?_blank]
  rcases tree.target? path with _ | _ | _ | _ <;> rfl

/-! ## Walks -/

/-- Walk a directory that is new to the way. -/
def walkInto (tree : FileTree) (ancestors : List Location) (path : Path)
    (names : List String) (directory : Location) : Except WalkError (List WalkedFile) :=
  tree.walkEntries (directory :: ancestors) path names directory (tree.names directory)

/-- What a walk meets at one entry, by what stands there. -/
def walkEntry (tree : FileTree) (ancestors : List Location) (path : Path)
    (names : List String) (location : Location) : Except WalkError (List WalkedFile) :=
  match tree.entry? location with
  | none => .ok []
  | some (.file _) => .ok [⟨path, names⟩]
  | some .directory => tree.walkInto ancestors path names location
  | some (.link _) =>
      match tree.locate path with
      | .error _ => .error (.danglingLink path)
      | .ok target =>
          match tree.entry? target with
          | some .directory =>
              if ancestors.contains target then .error (.loop path)
              else tree.walkInto ancestors path names target
          | some (.file _) => .ok [⟨path, names⟩]
          | _ => .error (.danglingLink path)

theorem walkEntries_cons (tree : FileTree) (ancestors : List Location) (path : Path)
    (names : List String) (here : Location) (name : String) (others : List String) :
    tree.walkEntries ancestors path names here (name :: others) =
      appendWalks
        (tree.walkEntry ancestors (path.child name) (names ++ [name]) (name :: here))
        (tree.walkEntries ancestors path names here others) := by
  rw [walkEntries]
  congr 1
  unfold walkEntry
  cases isEntry : tree.entry? (name :: here) with
  | none => rfl
  | some entry =>
      cases entry with
      | file content => rfl
      | directory => rfl
      | link written =>
          dsimp only
          cases tree.locate (path.child name) with
          | error error => rfl
          | ok target =>
              dsimp only
              split
              · next isDirectory =>
                simp only [isDirectory, walkInto, dite_eq_ite, List.contains_iff_mem]
              · next isFile => simp only [isFile]
              · next notDirectory notFile =>
                rcases isTarget : tree.entry? target with _ | content | _ | written
                · rfl
                · exact (notFile content isTarget).elim
                · exact (notDirectory isTarget).elim
                · rfl

theorem walkEntry_blank {tree : FileTree} {ancestors : List Location} {path : Path}
    {names : List String} {location : Location}
    (directoryEq : tree.entry? location = some .directory →
      tree.blank.walkInto ancestors path names location =
        tree.walkInto ancestors path names location)
    (linkEq : ∀ target, tree.entry? target = some .directory → target ∉ ancestors →
      tree.blank.walkInto ancestors path names target =
        tree.walkInto ancestors path names target) :
    tree.blank.walkEntry ancestors path names location =
      tree.walkEntry ancestors path names location := by
  unfold walkEntry
  rw [entry?_blank, locate_blank]
  rcases isEntry : tree.entry? location with _ | content | _ | written
  · rfl
  · rfl
  · exact directoryEq isEntry
  · cases tree.locate path with
    | error error => rfl
    | ok target =>
        simp only [Option.map_some, Entry.blank, entry?_blank]
        rcases isTarget : tree.entry? target with _ | content | _ | written
        · rfl
        · rfl
        · simp only [Option.map_some, Entry.blank]
          by_cases loop : target ∈ ancestors
          · simp only [List.contains_iff_mem, loop, if_true]
          · simp only [List.contains_iff_mem, loop, if_false]
            exact linkEq target isTarget loop
        · rfl

theorem walkEntries_blank (tree : FileTree) (ancestors : List Location) (path : Path)
    (names : List String) (here : Location) (remaining : List String) :
    tree.blank.walkEntries ancestors path names here remaining =
      tree.walkEntries ancestors path names here remaining := by
  induction ancestors, path, names, here, remaining using walkEntries.induct tree with
  | case1 ancestors path names here => rw [walkEntries, walkEntries]
  | case2 ancestors path names here name others _ _ ihDirectory ihLink ihOthers =>
      rw [walkEntries_cons, walkEntries_cons, ihOthers]
      congr 1
      apply walkEntry_blank
      · intro isDirectory
        rw [walkInto, walkInto, names_blank]
        exact ihDirectory isDirectory
      · intro target isDirectory notLoop
        rw [walkInto, walkInto, names_blank]
        exact ihLink target isDirectory notLoop

@[simp]
theorem walk_blank (tree : FileTree) (root : Path) :
    tree.blank.walk root = tree.walk root := by
  simp only [walk, locate_blank, names_blank, walkEntries_blank]

/-! ## Writing -/

/-- A path can be written if it leads to a file, or to a new name in a
directory. -/
inductive CanWrite (tree : FileTree) (path : Path) : Prop
  | create {directory : Location} {name : String}
      (resolveEq : tree.resolve path = .ok (.absent directory name))
  | replace {location : Location} {content : List UInt8}
      (resolveEq : tree.resolve path = .ok (.found location))
      (isFile : tree.entry? location = some (.file content))

theorem exists_write_eq_ok_iff (tree : FileTree) (path : Path) (content : List UInt8) :
    (∃ after, tree.write path content = .ok after) ↔ tree.CanWrite path := by
  constructor
  · rintro ⟨after, writeEq⟩
    unfold write at writeEq
    cases resolveEq : tree.resolve path with
    | error error => simp [resolveEq, bind, Except.bind] at writeEq
    | ok resolution =>
        cases resolution with
        | absent directory name => exact .create resolveEq
        | found location =>
            rw [resolveEq] at writeEq
            rcases isFile : tree.entry? location with _ | content | _ | written
            · simp [isFile, bind, Except.bind, throw, throwThe, MonadExceptOf.throw] at writeEq
            · exact .replace resolveEq isFile
            · simp [isFile, bind, Except.bind, throw, throwThe, MonadExceptOf.throw] at writeEq
            · simp [isFile, bind, Except.bind, throw, throwThe, MonadExceptOf.throw] at writeEq
  · intro canWrite
    cases canWrite with
    | create resolveEq =>
        rw [write, resolveEq]
        exact ⟨_, rfl⟩
    | replace resolveEq isFile =>
        rw [write, resolveEq]
        simp only [bind, Except.bind, isFile]
        exact ⟨_, rfl⟩

theorem canWrite_of_blank {tree other : FileTree} (sameShape : other.blank = tree.blank)
    {path : Path} (can : tree.CanWrite path) : other.CanWrite path := by
  have resolveSame : other.resolve path = tree.resolve path := by
    rw [← resolve_blank other, sameShape, resolve_blank]
  cases can with
  | create resolveEq => exact .create (resolveSame.trans resolveEq)
  | @replace location content resolveEq isFile =>
      have blankEq : (other.entry? location).map Entry.blank = some (.file []) := by
        rw [← entry?_blank, sameShape, entry?_blank, isFile]
        rfl
      rcases otherFile : other.entry? location with _ | otherContent | _ | written
      all_goals rw [otherFile] at blankEq
      · cases blankEq
      · exact .replace (resolveSame.trans resolveEq) otherFile
      · cases blankEq
      · cases blankEq

/-! ## Trees that differ in contents -/

/-- Two trees differ at most in the contents of files, and not in those at the
kept places. -/
structure AgreesOn (kept : Location → Prop) (tree other : FileTree) : Prop where
  shape : other.blank = tree.blank
  entry : ∀ location, kept location → other.entry? location = tree.entry? location

theorem AgreesOn.read {kept : Location → Prop} {tree other : FileTree}
    (agrees : tree.AgreesOn kept other) {path : Path}
    (leadsToKept : ∀ location, tree.locate path = .ok location → kept location) :
    other.read path = tree.read path := by
  have locateSame : other.locate path = tree.locate path := by
    rw [← locate_blank other, agrees.shape, locate_blank]
  unfold FileTree.read
  rw [locateSame]
  cases locateEq : tree.locate path with
  | error error => rfl
  | ok location =>
      have keptHere := leadsToKept location locateEq
      simp only [bind, Except.bind, agrees.entry location keptHere]

end FileTree

@[simp]
theorem Discovery.findFiles_blank (tree : FileTree) (globs : List Glob) (root : Path) :
    findFiles tree.blank globs root = findFiles tree globs root := by
  simp only [findFiles, FileTree.exists?_blank, FileTree.isFile_blank, FileTree.walk_blank]

@[simp]
theorem Discovery.findFilesFor_blank (accepts : String → Bool) (tree : FileTree)
    (config : Config) (root : Path) :
    findFilesFor accepts tree.blank config root = findFilesFor accepts tree config root := by
  simp only [findFilesFor, findFiles_blank]

end ClassLint
