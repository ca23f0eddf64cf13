import ClassLint.Proofs.Walks

/-!
# Which class files are found

Below a directory, exactly the class files are found that no glob excludes, under all
the paths that lead to them, in strict order.  The order in which directories list
their entries has no influence.
-/

namespace ClassLint

namespace Discovery

/-- Names lead from the root to a class file: a file whose last name is more than the
extension, and that no glob matches. -/
structure Sought (tree : FileTree) (exclude : List String) (root : Path) (names : List String) :
    Prop where
  named : ∀ name ∈ names, Path.IsName name
  leads : tree.LeadsToFile (root.descendant names)
  extension : ∃ stem, stem ≠ "" ∧ names.getLast? = some (stem ++ ".class")
  /-- No glob matches the names with slashes between them, where backslashes in names
  count as slashes. -/
  kept : ∀ glob ∈ exclude,
    (Glob.ofText glob).matches (String.ofList (("/".intercalate names).toList.map
      fun char => if char = '\\' then '/' else char)) = false

variable {tree : FileTree} {root : Path}

theorem isClassFile_descendant (root : Path) {names : List String}
    (areNames : ∀ name ∈ names, Path.IsName name) (nonempty : names ≠ []) :
    isClassFile (root.descendant names) = true ↔
      ∃ stem, stem ≠ "" ∧ names.getLast? = some (stem ++ ".class") := by
  have dotted (stem : String) : stem ++ "." ++ "class" = stem ++ ".class" := by
    rw [String.append_assoc]
    rfl
  obtain ⟨last, lastEq⟩ := Option.ne_none_iff_exists'.mp (mt List.getLast?_eq_none_iff.mp nonempty)
  rw [isClassFile, beq_iff_eq, root.extension?_descendant areNames lastEq,
    Path.splitFileName_snd_eq_some_iff, lastEq]
  simp [dotted]

theorem isWanted_iff {exclude : List String} {file : FileTree.WalkedFile}
    (nonempty : file.names ≠ []) (stands : file.StandsBelow tree root) :
    isWanted (exclude.map Glob.ofText) file = true ↔ Sought tree exclude root file.names := by
  have classFile := isClassFile_descendant root stands.names nonempty
  rw [← stands.path] at classFile
  have textEq : globText (Path.joinSegments file.names) =
      String.ofList (("/".intercalate file.names).toList.map
        fun char => if char = '\\' then '/' else char) := by
    rw [← String.toList_inj, globText, Path.joinSegments, String.toList_map, String.toList_ofList]
  have excluded : isExcluded (exclude.map Glob.ofText) (Path.joinSegments file.names) = false ↔
      ∀ glob ∈ exclude,
        (Glob.ofText glob).matches (globText (Path.joinSegments file.names)) = false := by
    simp [isExcluded]
  rw [textEq] at excluded
  rw [isWanted, Bool.and_eq_true, classFile, Bool.not_eq_true', excluded]
  constructor
  · rintro ⟨extension, kept⟩
    exact ⟨stands.names, stands.path ▸ stands.leads, extension, kept⟩
  · intro sought
    exact ⟨sought.extension, sought.kept⟩

theorem findFiles_of_isDirectory (isDirectory : tree.isDirectory root = true) (globs : List Glob) :
    findFiles tree globs root =
      match tree.walk root with
      | .error _ => .error (.unreadable root)
      | .ok files =>
          .ok (((files.filter (isWanted globs)).map (·.path)).mergeSort Path.precedes) := by
  obtain ⟨top, locateEq, isTop⟩ := FileTree.exists_locate_of_isDirectory isDirectory
  have isThere : tree.exists? root = true := by
    rw [FileTree.exists?, locateEq]
    rfl
  have notFile : tree.isFile root = false := by
    rw [FileTree.isFile, FileTree.target?, locateEq]
    simp [isTop]
  rw [findFiles, isThere, notFile]
  rfl

theorem nodup_components {files : List FileTree.WalkedFile}
    (stands : ∀ file ∈ files, file.StandsBelow tree root)
    (distinct : (files.map (·.names)).Nodup) :
    ((files.map (·.path)).map Path.components).Nodup := by
  -- The components of a file's path are those of the root and then its names.
  have componentsEq : (files.map (·.path)).map Path.components =
      (files.map (·.names)).map fun names => root.components ++ names.map .name := by
    rw [List.map_map, List.map_map]
    apply List.map_congr_left
    intro file member
    have fileStands := stands file member
    simp only [Function.comp_apply]
    rw [fileStands.path, root.components_descendant fileStands.names]
  rw [componentsEq]
  apply distinct.map
  intro first second same
  have namesEq := List.append_cancel_left same
  exact List.map_injective_iff.mpr (fun _ _ => Path.Component.name.inj) namesEq

/-- What is found without trouble: paths with different components, sorted. -/
theorem exists_findFiles_eq_ok (wellFormed : tree.WellFormed)
    (isDirectory : tree.isDirectory root = true) (noTrouble : ¬tree.Trouble root)
    (exclude : List String) :
    ∃ paths : List Path,
      findFiles tree (exclude.map Glob.ofText) root = .ok (paths.mergeSort Path.precedes) ∧
      (paths.map Path.components).Nodup ∧
      ∀ path, path ∈ paths ↔ ∃ names, path = root.descendant names ∧
        Sought tree exclude root names := by
  obtain ⟨files, walkEq, distinct, memberIff⟩ :=
    FileTree.exists_walk_eq_ok wellFormed isDirectory noTrouble
  refine ⟨_, by rw [findFiles_of_isDirectory isDirectory, walkEq], ?_, fun path => ?_⟩
  · apply nodup_components
    · intro file member
      exact ((memberIff file).mp (List.mem_of_mem_filter member)).2
    · exact distinct.sublist (List.filter_sublist.map _)
  · rw [List.mem_map]
    constructor
    · rintro ⟨file, member, rfl⟩
      obtain ⟨listed, wanted⟩ := List.mem_filter.mp member
      obtain ⟨nonempty, stands⟩ := (memberIff file).mp listed
      exact ⟨file.names, stands.path, (isWanted_iff nonempty stands).mp wanted⟩
    · rintro ⟨names, rfl, sought⟩
      have nonempty : names ≠ [] := by
        rintro rfl
        obtain ⟨stem, _, lastEq⟩ := sought.extension
        cases lastEq
      have stands : FileTree.WalkedFile.StandsBelow ⟨root.descendant names, names⟩ tree root :=
        ⟨rfl, sought.named, sought.leads⟩
      refine ⟨⟨root.descendant names, names⟩, List.mem_filter.mpr ⟨?_, ?_⟩, rfl⟩
      · exact (memberIff _).mpr ⟨nonempty, stands⟩
      · exact (isWanted_iff nonempty stands).mpr sought

theorem findFiles_eq_unreadable (wellFormed : tree.WellFormed)
    (isDirectory : tree.isDirectory root = true) (trouble : tree.Trouble root)
    (globs : List Glob) : findFiles tree globs root = .error (.unreadable root) := by
  obtain ⟨error, walkEq⟩ := FileTree.exists_walk_eq_error wellFormed trouble
  rw [findFiles_of_isDirectory isDirectory, walkEq]

/-- What is found in a tree does not depend on how it lists its entries. -/
theorem findFiles_of_perm {other : FileTree} (wellFormed : tree.WellFormed)
    (isDirectory : tree.isDirectory root = true) (perm : other.entries.Perm tree.entries)
    (exclude : List String) :
    findFiles other (exclude.map Glob.ofText) root =
      findFiles tree (exclude.map Glob.ofText) root := by
  have same := wellFormed.entry?_of_perm perm
  have otherDirectory : other.isDirectory root = true := by
    rwa [FileTree.isDirectory, FileTree.target?, FileTree.locate_of_sameEntries same, same]
  by_cases trouble : tree.Trouble root
  · rw [findFiles_eq_unreadable wellFormed isDirectory trouble,
      findFiles_eq_unreadable (wellFormed.of_perm perm) otherDirectory
        (trouble.of_sameEntries same)]
  · obtain ⟨paths, pathsEq, distinct, pathsIff⟩ :=
      exists_findFiles_eq_ok wellFormed isDirectory trouble exclude
    obtain ⟨others, othersEq, othersDistinct, othersIff⟩ :=
      exists_findFiles_eq_ok (wellFormed.of_perm perm) otherDirectory
        (fun otherTrouble => trouble (otherTrouble.of_sameEntries same.symm)) exclude
    have soughtIff (names : List String) :
        Sought other exclude root names ↔ Sought tree exclude root names :=
      ⟨fun sought => { sought with leads := sought.leads.of_sameEntries same.symm },
        fun sought => { sought with leads := sought.leads.of_sameEntries same }⟩
    have samePaths : others.Perm paths := by
      apply (List.perm_ext_iff_of_nodup othersDistinct.of_map distinct.of_map).mpr
      intro path
      simp only [othersIff, pathsIff, soughtIff]
    rw [pathsEq, othersEq, Path.mergeSort_eq_of_perm distinct samePaths]

/-- Below a directory, if no link on a way leads nowhere or back, the paths that are
sought are found, all of them and no others, in strict order; otherwise the root is
reported as unreadable.  Either way the order in which directories list their entries
has no influence. -/
theorem findFiles_exact {tree : FileTree} (wellFormed : tree.WellFormed) {root : Path}
    (isDirectory : tree.isDirectory root = true) (exclude : List String) :
    (¬tree.Trouble root → ∃ files, findFiles tree (exclude.map Glob.ofText) root = .ok files ∧
      files.Pairwise Path.Before ∧
      ∀ path, path ∈ files ↔ ∃ names, path = root.descendant names ∧
        Sought tree exclude root names) ∧
      (tree.Trouble root →
        findFiles tree (exclude.map Glob.ofText) root = .error (.unreadable root)) ∧
      ∀ other : FileTree, other.entries.Perm tree.entries →
        findFiles other (exclude.map Glob.ofText) root =
          findFiles tree (exclude.map Glob.ofText) root := by
  refine ⟨fun noTrouble => ?_, fun trouble => ?_, fun other perm => ?_⟩
  · obtain ⟨paths, pathsEq, distinct, pathsIff⟩ :=
      exists_findFiles_eq_ok wellFormed isDirectory noTrouble exclude
    refine ⟨_, pathsEq, Path.pairwise_before_mergeSort distinct, fun path => ?_⟩
    rw [List.mem_mergeSort, pathsIff]
  · exact findFiles_eq_unreadable wellFormed isDirectory trouble _
  · exact findFiles_of_perm wellFormed isDirectory perm exclude

/-- A directory with a class file, and a link to that directory beside it. -/
def linkedPackage : FileTree :=
  ⟨[(["pkg"], .directory), (["A.class", "pkg"], .file []), (["lib"], .link "pkg")]⟩

theorem locate_linkedPackage :
    linkedPackage.locate ⟨"."⟩ = .ok [] ∧ linkedPackage.locate ⟨"./lib"⟩ = .ok ["pkg"] ∧
      linkedPackage.locate ⟨"./lib/A.class"⟩ = .ok ["A.class", "pkg"] := by
  have stepsEq : Path.steps ⟨"."⟩ = ["."] ∧ Path.steps ⟨"pkg"⟩ = ["pkg"] ∧
      Path.steps ⟨"./lib"⟩ = [".", "lib"] ∧
      Path.steps ⟨"./lib/A.class"⟩ = [".", "lib", "A.class"] := by decide +kernel
  refine ⟨?_, ?_, ?_⟩
  all_goals
    simp [FileTree.locate, FileTree.resolve, FileTree.resolveFrom, stepsEq, linkLimit, nameLimit,
      pathLimit, linkedPackage, FileTree.entry?, Path.isAbsolute]
    rfl

theorem walk_linkedPackage : linkedPackage.walk ⟨"."⟩ =
    .ok [⟨⟨"./pkg/A.class"⟩, ["pkg", "A.class"]⟩, ⟨⟨"./lib/A.class"⟩, ["lib", "A.class"]⟩] := by
  have entriesEq : linkedPackage.entry? ["pkg"] = some .directory ∧
      linkedPackage.entry? ["A.class", "pkg"] = some (.file []) ∧
      linkedPackage.entry? ["lib"] = some (.link "pkg") := by decide
  have namesEq : linkedPackage.names [] = ["pkg", "lib"] ∧
      linkedPackage.names ["pkg"] = ["A.class"] := by decide
  have childEq : Path.child ⟨"."⟩ "lib" = ⟨"./lib"⟩ := by decide +kernel
  simp [FileTree.walk, FileTree.walkEntries_cons, FileTree.walkEntry, FileTree.walkInto,
    FileTree.walkEntries, FileTree.appendWalks, locate_linkedPackage, entriesEq, namesEq, childEq]
  decide +kernel

theorem findFiles_exact_linkedPackage :
    linkedPackage.WellFormed ∧ linkedPackage.isDirectory ⟨"."⟩ = true ∧
      ¬linkedPackage.Trouble ⟨"."⟩ ∧
      ∃ files, findFiles linkedPackage (["pkg/*"].map Glob.ofText) ⟨"."⟩ = .ok files ∧
        ⟨"./lib/A.class"⟩ ∈ files := by
  have wellFormed : linkedPackage.WellFormed := ⟨by decide, by decide, by decide⟩
  have isDirectory : linkedPackage.isDirectory ⟨"."⟩ = true := by
    rw [FileTree.isDirectory, FileTree.target?, locate_linkedPackage.1]
    rfl
  have noTrouble := FileTree.not_trouble_of_walk wellFormed walk_linkedPackage
  obtain ⟨files, filesEq, -, memberIff⟩ :=
    (findFiles_exact wellFormed isDirectory ["pkg/*"]).1 noTrouble
  refine ⟨wellFormed, isDirectory, noTrouble, files, filesEq, ?_⟩
  refine (memberIff _).mpr ⟨["lib", "A.class"], by decide +kernel, by decide, ?_, ?_, ?_⟩
  · have pathEq : Path.descendant ⟨"."⟩ ["lib", "A.class"] = ⟨"./lib/A.class"⟩ := by decide +kernel
    have isFile : linkedPackage.isFile ⟨"./lib/A.class"⟩ = true := by
      rw [FileTree.isFile, FileTree.target?, locate_linkedPackage.2.2]
      rfl
    rw [pathEq]
    exact (FileTree.isFile_iff.mp isFile).2.2.2
  · exact ⟨"A", by decide, rfl⟩
  · decide +kernel

end Discovery

end ClassLint
