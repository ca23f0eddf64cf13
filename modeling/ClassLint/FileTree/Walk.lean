import ClassLint.FileTree.Basic

/-!
# Walking file trees

A walk visits everything below a directory and follows links.  It fails at a
link that leads nowhere, and at a link to a directory that the walk is already
in.  Every other walk ends: on the way down each link enters a directory that is
new to the way, and between two links the way goes deeper.
-/

namespace ClassLint

namespace FileTree

/-- A file met on a walk: its path, and the names that lead to it from the root
of the walk. -/
structure WalkedFile where
  path : Path
  names : List String
  deriving DecidableEq, Repr

/-- Why a walk fails. -/
inductive WalkError where
  /-- A link leads nowhere. -/
  | danglingLink (path : Path)
  /-- A link leads back to a directory that the walk is in. -/
  | loop (path : Path)
  deriving DecidableEq, Repr

def directories (tree : FileTree) : List Location :=
  [] :: tree.entries.filterMap fun (location, entry) =>
    match entry with
    | .directory => some location
    | _ => none

/-- How many directories are not among the ones that a walk is in. -/
def unvisited (tree : FileTree) (ancestors : List Location) : Nat :=
  (tree.directories.filter (· ∉ ancestors)).length

/-- The length of the longest location of a directory. -/
def depth (tree : FileTree) : Nat :=
  (tree.directories.map List.length).foldr max 0

theorem mem_directories {tree : FileTree} {location : Location}
    (isDirectory : tree.entry? location = some .directory) :
    location ∈ tree.directories := by
  unfold entry? at isDirectory
  unfold directories
  split at isDirectory
  · next isTop => simp [isTop]
  · obtain ⟨⟨found, entry⟩, findEq, entryEq⟩ := Option.map_eq_some_iff.mp isDirectory
    have foundEq : found = location := by simpa using List.find?_some findEq
    have foundMem := List.mem_of_find?_eq_some findEq
    apply List.mem_cons_of_mem
    apply List.mem_filterMap.mpr
    refine ⟨(found, entry), foundMem, ?_⟩
    simp only at entryEq
    simp [entryEq, foundEq]

theorem length_le_depth {tree : FileTree} {location : Location}
    (member : location ∈ tree.directories) : location.length ≤ tree.depth := by
  unfold depth
  revert member
  induction tree.directories with
  | nil => simp
  | cons first rest ih =>
      intro member
      simp only [List.map_cons, List.foldr_cons]
      rcases List.mem_cons.mp member with rfl | later
      · exact Nat.le_max_left _ _
      · exact Nat.le_trans (ih later) (Nat.le_max_right _ _)

theorem filter_length_le_of_imp {α : Type} {wide narrow : α → Bool} (items : List α)
    (imp : ∀ item, narrow item = true → wide item = true) :
    (items.filter narrow).length ≤ (items.filter wide).length := by
  induction items with
  | nil => simp
  | cons item items ih =>
      have itemImp := imp item
      cases narrowEq : narrow item <;> cases wideEq : wide item
      · simpa [narrowEq, wideEq] using ih
      · simp only [List.filter_cons, narrowEq, wideEq]
        simp only [Bool.false_eq_true, ↓reduceIte, List.length_cons]
        omega
      · simp [narrowEq, wideEq] at itemImp
      · simpa [narrowEq, wideEq] using ih

theorem filter_length_lt_of_imp {α : Type} {wide narrow : α → Bool} {items : List α}
    (witness : α) (imp : ∀ item, narrow item = true → wide item = true)
    (member : witness ∈ items) (isWide : wide witness = true)
    (notNarrow : narrow witness = false) :
    (items.filter narrow).length < (items.filter wide).length := by
  induction items with
  | nil => simp at member
  | cons item items ih =>
      have rest := filter_length_le_of_imp items imp
      rcases List.mem_cons.mp member with rfl | later
      · simp [isWide, notNarrow]
        omega
      · have itemImp := imp item
        have laterLt := ih later
        cases narrowEq : narrow item <;> cases wideEq : wide item
        · simpa [narrowEq, wideEq] using laterLt
        · simp only [List.filter_cons, narrowEq, wideEq]
          simp only [Bool.false_eq_true, ↓reduceIte, List.length_cons]
          omega
        · simp [narrowEq, wideEq] at itemImp
        · simpa [narrowEq, wideEq] using laterLt

theorem unvisited_cons_le (tree : FileTree) (ancestors : List Location)
    (location : Location) :
    tree.unvisited (location :: ancestors) ≤ tree.unvisited ancestors := by
  apply filter_length_le_of_imp
  intro other outside
  simp only [decide_eq_true_eq, List.mem_cons, not_or] at outside ⊢
  exact outside.2

theorem unvisited_cons_lt {tree : FileTree} {ancestors : List Location}
    {location : Location} (isDirectory : tree.entry? location = some .directory)
    (isNew : location ∉ ancestors) :
    tree.unvisited (location :: ancestors) < tree.unvisited ancestors := by
  apply filter_length_lt_of_imp location
  · intro other outside
    simp only [decide_eq_true_eq, List.mem_cons, not_or] at outside ⊢
    exact outside.2
  · exact mem_directories isDirectory
  · simpa using isNew
  · simp

/-- The files of two parts of a walk.  The first part that fails decides. -/
def appendWalks (first second : Except WalkError (List WalkedFile)) :
    Except WalkError (List WalkedFile) := do
  return (← first) ++ (← second)

/-- Walk the entries of the directory `here` that `path` leads to.  `names` leads
to it from the root of the walk, and `ancestors` are the directories that the
walk is in. -/
def walkEntries (tree : FileTree) (ancestors : List Location) (path : Path)
    (names : List String) (here : Location) :
    List String → Except WalkError (List WalkedFile)
  | [] => .ok []
  | name :: others =>
      let childPath := path.child name
      let childNames := names ++ [name]
      appendWalks
        (match _isEntry : tree.entry? (name :: here) with
        | none => .ok []
        | some (.file _) => .ok [⟨childPath, childNames⟩]
        | some .directory =>
            tree.walkEntries ((name :: here) :: ancestors) childPath childNames (name :: here)
              (tree.names (name :: here))
        | some (.link _) =>
            match tree.locate childPath with
            | .error _ => .error (.danglingLink childPath)
            | .ok location =>
                match _isTarget : tree.entry? location with
                | some .directory =>
                    if _isLoop : location ∈ ancestors then .error (.loop childPath)
                    else
                      tree.walkEntries (location :: ancestors) childPath childNames location
                        (tree.names location)
                | some (.file _) => .ok [⟨childPath, childNames⟩]
                | _ => .error (.danglingLink childPath))
        (tree.walkEntries ancestors path names here others)
termination_by remaining => (tree.unvisited ancestors, tree.depth - here.length, remaining.length)
decreasing_by
  · have unvisitedLe := tree.unvisited_cons_le ancestors (name :: here)
    have within := length_le_depth (mem_directories _isEntry)
    simp only [List.length_cons] at within ⊢
    rcases Nat.lt_or_eq_of_le unvisitedLe with less | equal
    · exact Prod.Lex.left _ _ less
    · rw [equal]
      exact Prod.Lex.right _ (Prod.Lex.left _ _ (by omega))
  · exact Prod.Lex.left _ _ (unvisited_cons_lt _isTarget _isLoop)
  · exact Prod.Lex.right _ (Prod.Lex.right _ (by simp))

/-- The files below the directory to which a path leads. -/
def walk (tree : FileTree) (root : Path) : Except WalkError (List WalkedFile) :=
  match tree.locate root with
  | .error _ => .error (.danglingLink root)
  | .ok location => tree.walkEntries [location] root [] location (tree.names location)

end FileTree

end ClassLint
