import Mathlib.Data.List.Induction
import ClassLint.Proofs.PathResolution
import ClassLint.Proofs.TreeShape

/-!
# What a walk meets

A walk goes down all ways that there are from its root.  It fails exactly if one of
them has a link that leads nowhere or back to a directory on the way.  Any other walk
meets each file once, under every path that leads to it from the root.
-/

namespace ClassLint

namespace FileTree

/-! ## Ways -/

/-- The ways of a walk: the names that lead to a directory from the root, the location
of the directory, and those above it on the way, the innermost first.  A link is
followed to a directory that is new to the way. -/
inductive Way (tree : FileTree) (root : Path) : List String → Location → List Location → Prop
  | start {top : Location} (locateEq : tree.locate root = .ok top)
      (isDirectory : tree.entry? top = some .directory) : Way tree root [] top []
  | descend {names : List String} {here : Location} {above : List Location} {name : String}
      (way : Way tree root names here above)
      (isDirectory : tree.entry? (name :: here) = some .directory) :
      Way tree root (names ++ [name]) (name :: here) (here :: above)
  | follow {names : List String} {here location : Location} {above : List Location}
      {name target : String} (way : Way tree root names here above)
      (isLink : tree.entry? (name :: here) = some (.link target))
      (locateEq : tree.locate (root.descendant (names ++ [name])) = .ok location)
      (isDirectory : tree.entry? location = some .directory) (isNew : location ∉ here :: above) :
      Way tree root (names ++ [name]) location (here :: above)

/-- On a way from the root stands a link that leads nowhere, or back to a directory on
the way. -/
inductive Trouble (tree : FileTree) (root : Path) : Prop
  | dangling {names : List String} {here : Location} {above : List Location}
      {name target : String} (way : tree.Way root names here above)
      (isLink : tree.entry? (name :: here) = some (.link target))
      (nowhere : tree.exists? (root.descendant (names ++ [name])) = false)
  | loop {names : List String} {here location : Location} {above : List Location}
      {name target : String} (way : tree.Way root names here above)
      (isLink : tree.entry? (name :: here) = some (.link target))
      (locateEq : tree.locate (root.descendant (names ++ [name])) = .ok location)
      (isBack : location ∈ here :: above)

variable {tree : FileTree} {root : Path}

theorem Way.of_sameEntries {other : FileTree} (same : other.entry? = tree.entry?)
    {names : List String} {here : Location} {above : List Location}
    (way : tree.Way root names here above) : other.Way root names here above := by
  have sameLocate := locate_of_sameEntries same
  induction way with
  | start locateEq isDirectory =>
      exact .start (sameLocate ▸ locateEq) (same ▸ isDirectory)
  | descend _ isDirectory ih => exact .descend ih (same ▸ isDirectory)
  | follow _ isLink locateEq isDirectory isNew ih =>
      exact .follow ih (same ▸ isLink) (sameLocate ▸ locateEq) (same ▸ isDirectory) isNew

theorem Trouble.of_sameEntries {other : FileTree} (same : other.entry? = tree.entry?)
    (trouble : tree.Trouble root) : other.Trouble root := by
  have sameLocate := locate_of_sameEntries same
  cases trouble with
  | dangling way isLink nowhere =>
      refine .dangling (way.of_sameEntries same) (same ▸ isLink) ?_
      rwa [exists?, sameLocate]
  | loop way isLink locateEq isBack =>
      exact .loop (way.of_sameEntries same) (same ▸ isLink) (sameLocate ▸ locateEq) isBack

theorem Way.leads (wellFormed : tree.WellFormed) {names : List String} {here : Location}
    {above : List Location} (way : tree.Way root names here above) :
    tree.Leads (root.descendant names) here ∧ tree.entry? here = some .directory ∧
      ∀ name ∈ names, Path.IsName name := by
  induction way with
  | start locateEq isDirectory => exact ⟨leads_of_locate locateEq, isDirectory, nofun⟩
  | @descend names here above name _ isDirectory ih =>
      obtain ⟨leads, _, areNames⟩ := ih
      have isName := (wellFormed.isName isDirectory).1
      refine ⟨?_, isDirectory,
        List.forall_mem_append.mpr ⟨areNames, List.forall_mem_singleton.mpr isName⟩⟩
      rw [Path.descendant_concat]
      exact wellFormed.leads_child leads isDirectory nofun
  | @follow names here location above name target _ isLink locateEq isDirectory _ ih =>
      have isName := (wellFormed.isName isLink).1
      exact ⟨leads_of_locate locateEq, isDirectory,
        List.forall_mem_append.mpr ⟨ih.2.2, List.forall_mem_singleton.mpr isName⟩⟩

theorem Way.isDirectory {names : List String} {here : Location} {above : List Location}
    (way : tree.Way root names here above) :
    ∀ location ∈ here :: above, tree.entry? location = some .directory := by
  induction way with
  | start _ isDirectory => exact List.forall_mem_singleton.mpr isDirectory
  | descend _ isDirectory ih => exact List.forall_mem_cons.mpr ⟨isDirectory, ih⟩
  | follow _ _ _ isDirectory _ ih => exact List.forall_mem_cons.mpr ⟨isDirectory, ih⟩

/-- Without trouble, a path below the root that leads to a directory is a way. -/
theorem exists_way (wellFormed : tree.WellFormed) (noTrouble : ¬tree.Trouble root)
    {top : Location} (locateEq : tree.locate root = .ok top) {names : List String}
    {here : Location} (areNames : ∀ name ∈ names, Path.IsName name)
    (leads : tree.Leads (root.descendant names) here)
    (isDirectory : tree.entry? here = some .directory) :
    ∃ above, tree.Way root names here above := by
  induction names using List.reverseRecOn generalizing here with
  | nil =>
      have topEq : top = here := (leads_of_locate locateEq).unique leads
      exact ⟨[], .start (topEq ▸ locateEq) isDirectory⟩
  | append_singleton names name ih =>
      obtain ⟨areBefore, isName⟩ := List.forall_mem_append.mp areNames
      rw [List.forall_mem_singleton] at isName
      have leadsChild := leads
      rw [Path.descendant_concat] at leadsChild
      obtain ⟨parent, entry, leadsParent, entryEq, ends⟩ :=
        wellFormed.exists_leads_of_child isName leadsChild
      obtain ⟨above, way⟩ := ih areBefore leadsParent (wellFormed.isDirectory_of_entry entryEq)
      rcases ends with ⟨target, rfl⟩ | rfl
      · cases locateChild : tree.locate (root.descendant (names ++ [name])) with
        | error error =>
            have nowhere : tree.exists? (root.descendant (names ++ [name])) = false := by
              rw [exists?, locateChild]
              rfl
            exact absurd (.dangling way entryEq nowhere) noTrouble
        | ok location =>
            have locationEq : location = here := (leads_of_locate locateChild).unique leads
            subst locationEq
            have isNew : location ∉ parent :: above := fun isBack =>
              noTrouble (.loop way entryEq locateChild isBack)
            exact ⟨_, way.follow entryEq locateChild isDirectory isNew⟩
      · exact ⟨_, way.descend isDirectory⟩

/-! ## What is met, and when a walk fails -/

/-- A file stands below the root under its path. -/
structure WalkedFile.StandsBelow (file : WalkedFile) (tree : FileTree) (root : Path) : Prop where
  path : file.path = root.descendant file.names
  names : ∀ name ∈ file.names, Path.IsName name
  leads : tree.LeadsToFile file.path

/-- Files that are met from a directory on, to which `names` lead, at the entries of the
given names and below them. -/
structure Meets (tree : FileTree) (root : Path) (names remaining : List String)
    (files : List WalkedFile) : Prop where
  stands : ∀ file ∈ files, file.StandsBelow tree root
  below : ∀ file ∈ files, ∃ name ∈ remaining, names ++ [name] <+: file.names
  distinct : (files.map (·.names)).Nodup

/-- A part of a walk fails for trouble on a way, or meets files. -/
def Accounts (tree : FileTree) (root : Path) (names remaining : List String) :
    Except WalkError (List WalkedFile) → Prop
  | .error _ => tree.Trouble root
  | .ok files => tree.Meets root names remaining files

section Meets

variable {names others remaining : List String} {name : String} {files more : List WalkedFile}

theorem Meets.nil : tree.Meets root names remaining [] :=
  ⟨nofun, nofun, .nil⟩

theorem Meets.single {file : WalkedFile} (stands : file.StandsBelow tree root)
    (namesEq : file.names = names ++ [name]) : tree.Meets root names [name] [file] where
  stands := List.forall_mem_singleton.mpr stands
  below := List.forall_mem_singleton.mpr
    ⟨name, List.mem_singleton_self name, namesEq ▸ List.prefix_refl _⟩
  distinct := List.nodup_singleton _

/-- What is met inside of a directory is met at its entry. -/
theorem Meets.outer (meets : tree.Meets root (names ++ [name]) remaining files) :
    tree.Meets root names [name] files where
  stands := meets.stands
  below file member := by
    obtain ⟨inner, _, isPrefix⟩ := meets.below file member
    exact ⟨name, List.mem_singleton_self name, (List.prefix_append _ [inner]).trans isPrefix⟩
  distinct := meets.distinct

theorem Meets.append (meets : tree.Meets root names [name] files)
    (meetsMore : tree.Meets root names others more) (isNew : name ∉ others) :
    tree.Meets root names (name :: others) (files ++ more) where
  stands := List.forall_mem_append.mpr ⟨meets.stands, meetsMore.stands⟩
  below file member := by
    rcases List.mem_append.mp member with member | member
    · obtain ⟨first, firstMember, isPrefix⟩ := meets.below file member
      exact ⟨first, List.mem_cons.mpr (.inl (List.mem_singleton.mp firstMember)), isPrefix⟩
    · obtain ⟨first, firstMember, isPrefix⟩ := meetsMore.below file member
      exact ⟨first, List.mem_cons_of_mem name firstMember, isPrefix⟩
  distinct := by
    rw [List.map_append]
    refine List.nodup_append.mpr ⟨meets.distinct, meetsMore.distinct, ?_⟩
    intro fileNames member moreNames memberMore same
    obtain ⟨file, fileMember, rfl⟩ := List.mem_map.mp member
    obtain ⟨moreFile, moreMember, rfl⟩ := List.mem_map.mp memberMore
    obtain ⟨first, firstMember, isPrefix⟩ := meets.below file fileMember
    obtain ⟨second, secondMember, isPrefixMore⟩ := meetsMore.below moreFile moreMember
    -- Both begin with the names of the directory and one more, so that one is the same.
    have sameStart : names ++ [first] = names ++ [second] := by
      apply List.IsPrefix.eq_of_length (List.prefix_of_prefix_length_le isPrefix
        (same ▸ isPrefixMore) (by simp)) (by simp)
    have sameFirst : first = second := by simpa using sameStart
    rw [List.mem_singleton.mp firstMember] at sameFirst
    exact isNew (sameFirst ▸ secondMember)

theorem Accounts.append {first second : Except WalkError (List WalkedFile)}
    (accounts : tree.Accounts root names [name] first)
    (accountsSecond : tree.Accounts root names others second) (isNew : name ∉ others) :
    tree.Accounts root names (name :: others) (appendWalks first second) := by
  cases first with
  | error error => exact accounts
  | ok files =>
      cases second with
      | error error => exact accountsSecond
      | ok more => exact Meets.append accounts accountsSecond isNew

theorem Accounts.outer {result : Except WalkError (List WalkedFile)}
    (accounts : tree.Accounts root (names ++ [name]) remaining result) :
    tree.Accounts root names [name] result := by
  cases result with
  | error error => exact accounts
  | ok files => exact Meets.outer accounts

end Meets

theorem accounts_walkEntry (wellFormed : tree.WellFormed) {names : List String} {here : Location}
    {above : List Location} {name : String} (way : tree.Way root names here above)
    (directoryAccounts : tree.entry? (name :: here) = some .directory →
      tree.Accounts root (names ++ [name]) (tree.names (name :: here))
        (tree.walkInto (here :: above) (root.descendant (names ++ [name])) (names ++ [name])
          (name :: here)))
    (linkAccounts : ∀ location, tree.entry? location = some .directory → location ∉ here :: above →
      tree.Way root (names ++ [name]) location (here :: above) →
      tree.Accounts root (names ++ [name]) (tree.names location)
        (tree.walkInto (here :: above) (root.descendant (names ++ [name])) (names ++ [name])
          location)) :
    tree.Accounts root names [name]
      (tree.walkEntry (here :: above) (root.descendant (names ++ [name])) (names ++ [name])
        (name :: here)) := by
  obtain ⟨leads, _, areNames⟩ := way.leads wellFormed
  have meetsFile {entry : Entry} {location : Location} {content : List UInt8}
      (entryEq : tree.entry? (name :: here) = some entry)
      (leadsFile : tree.Leads (root.descendant (names ++ [name])) location)
      (isFile : tree.entry? location = some (.file content)) :
      tree.Meets root names [name] [⟨root.descendant (names ++ [name]), names ++ [name]⟩] := by
    have isName := (wellFormed.isName entryEq).1
    exact .single ⟨rfl,
      List.forall_mem_append.mpr ⟨areNames, List.forall_mem_singleton.mpr isName⟩,
      location, content, leadsFile, isFile⟩ rfl
  unfold walkEntry
  rcases entryEq : tree.entry? (name :: here) with _ | content | _ | target
  · exact Meets.nil
  · have leadsFile := wellFormed.leads_child leads entryEq nofun
    rw [← Path.descendant_concat] at leadsFile
    exact meetsFile entryEq leadsFile entryEq
  · exact (directoryAccounts entryEq).outer
  · cases locateEq : tree.locate (root.descendant (names ++ [name])) with
    | error error => exact .dangling way entryEq (by rw [exists?, locateEq]; rfl)
    | ok location =>
        have leadsTarget := leads_of_locate locateEq
        dsimp only
        rcases wellFormed.entry?_of_resolveFrom rfl leadsTarget with isDirectory | ⟨content, isFile⟩
        · rw [isDirectory]
          dsimp only
          split
          · next isBack => exact .loop way entryEq locateEq (List.contains_iff_mem.mp isBack)
          · next isNew =>
            rw [List.contains_iff_mem] at isNew
            have wayOn := way.follow entryEq locateEq isDirectory isNew
            exact (linkAccounts location isDirectory isNew wayOn).outer
        · rw [isFile]
          exact meetsFile entryEq leadsTarget isFile

theorem accounts_walkEntries (wellFormed : tree.WellFormed) {ancestors : List Location}
    {path : Path} {names : List String} {here : Location} {remaining : List String}
    (distinct : remaining.Nodup) :
    ∀ above, tree.Way root names here above → ancestors = here :: above →
      path = root.descendant names →
      tree.Accounts root names remaining
        (tree.walkEntries ancestors path names here remaining) := by
  induction ancestors, path, names, here, remaining using walkEntries.induct tree with
  | case1 ancestors path names here =>
      intro above way _ _
      rw [walkEntries]
      exact Meets.nil
  | case2 ancestors path names here name others _ _ ihDirectory ihLink ihOthers =>
      rintro above way rfl rfl
      rw [List.nodup_cons] at distinct
      have childEq := Path.descendant_concat root names name
      rw [walkEntries_cons, ← childEq]
      apply Accounts.append _ (ihOthers distinct.2 above way rfl rfl) distinct.1
      apply accounts_walkEntry wellFormed way
      · intro isDirectory
        rw [walkInto, childEq]
        exact ihDirectory isDirectory (wellFormed.names_nodup _) _ (way.descend isDirectory) rfl
          childEq.symm
      · intro location isDirectory isNew wayOn
        rw [walkInto, childEq]
        exact ihLink location isDirectory isNew (wellFormed.names_nodup _) _ wayOn rfl childEq.symm

/-! ## Every way is walked -/

theorem exists_walkEntry_of_walkEntries {ancestors : List Location} {path : Path}
    {names : List String} {here : Location} {remaining : List String} {files : List WalkedFile}
    (walkEq : tree.walkEntries ancestors path names here remaining = .ok files) {name : String}
    (listed : name ∈ remaining) :
    ∃ met, tree.walkEntry ancestors (path.child name) (names ++ [name]) (name :: here) = .ok met ∧
      met ⊆ files := by
  induction remaining generalizing files with
  | nil => cases listed
  | cons first others ih =>
      rw [walkEntries_cons] at walkEq
      cases firstEq : tree.walkEntry ancestors (path.child first) (names ++ [first])
          (first :: here) with
      | error error =>
          rw [firstEq] at walkEq
          cases walkEq
      | ok met =>
          cases othersEq : tree.walkEntries ancestors path names here others with
          | error error =>
              rw [firstEq, othersEq] at walkEq
              cases walkEq
          | ok more =>
              rw [firstEq, othersEq] at walkEq
              cases walkEq
              rcases List.mem_cons.mp listed with rfl | listed
              · exact ⟨met, firstEq, List.subset_append_left met more⟩
              · obtain ⟨later, laterEq, laterSubset⟩ := ih othersEq listed
                have moreSubset := List.subset_append_right met more
                exact ⟨later, laterEq, List.Subset.trans laterSubset moreSubset⟩

section Walked

variable {files : List WalkedFile} {names : List String} {here : Location} {above : List Location}

theorem Way.exists_walkEntries (wellFormed : tree.WellFormed) (walkEq : tree.walk root = .ok files)
    (way : tree.Way root names here above) :
    ∃ met, tree.walkEntries (here :: above) (root.descendant names) names here
      (tree.names here) = .ok met ∧ met ⊆ files := by
  induction way with
  | start locateEq isDirectory =>
      rw [walk, locateEq] at walkEq
      exact ⟨files, walkEq, List.Subset.refl files⟩
  | @descend names here above name _ isDirectory ih =>
      obtain ⟨outer, outerEq, outerSubset⟩ := ih
      obtain ⟨met, metEq, metSubset⟩ := exists_walkEntry_of_walkEntries outerEq
        (wellFormed.mem_names_iff.mpr ⟨_, isDirectory⟩)
      refine ⟨met, ?_, List.Subset.trans metSubset outerSubset⟩
      rw [walkEntry, isDirectory] at metEq
      rwa [Path.descendant_concat]
  | @follow names here location above name target _ isLink locateEq isDirectory isNew ih =>
      obtain ⟨outer, outerEq, outerSubset⟩ := ih
      obtain ⟨met, metEq, metSubset⟩ := exists_walkEntry_of_walkEntries outerEq
        (wellFormed.mem_names_iff.mpr ⟨_, isLink⟩)
      refine ⟨met, ?_, List.Subset.trans metSubset outerSubset⟩
      rw [Path.descendant_concat] at locateEq ⊢
      rw [walkEntry, isLink] at metEq
      simp only [locateEq, isDirectory, List.contains_iff_mem, isNew, if_false] at metEq
      exact metEq

theorem Way.exists_walkEntry (wellFormed : tree.WellFormed) (walkEq : tree.walk root = .ok files)
    (way : tree.Way root names here above) {name : String} {entry : Entry}
    (entryEq : tree.entry? (name :: here) = some entry) :
    ∃ met, tree.walkEntry (here :: above) (root.descendant (names ++ [name])) (names ++ [name])
      (name :: here) = .ok met ∧ met ⊆ files := by
  obtain ⟨outer, outerEq, outerSubset⟩ := way.exists_walkEntries wellFormed walkEq
  obtain ⟨met, metEq, metSubset⟩ := exists_walkEntry_of_walkEntries outerEq
    (wellFormed.mem_names_iff.mpr ⟨entry, entryEq⟩)
  rw [← Path.descendant_concat] at metEq
  exact ⟨met, metEq, List.Subset.trans metSubset outerSubset⟩

theorem not_trouble_of_walk (wellFormed : tree.WellFormed) (walkEq : tree.walk root = .ok files) :
    ¬tree.Trouble root := by
  intro trouble
  cases trouble with
  | @dangling names _ _ name _ way isLink nowhere =>
      obtain ⟨met, metEq, _⟩ := way.exists_walkEntry wellFormed walkEq isLink
      rw [walkEntry, isLink] at metEq
      rw [exists?] at nowhere
      cases locateEq : tree.locate (root.descendant (names ++ [name])) with
      | error error =>
          rw [locateEq] at metEq
          cases metEq
      | ok location =>
          rw [locateEq] at nowhere
          cases nowhere
  | loop way isLink locateEq isBack =>
      obtain ⟨met, metEq, _⟩ := way.exists_walkEntry wellFormed walkEq isLink
      have isDirectory := way.isDirectory _ isBack
      rw [walkEntry, isLink] at metEq
      simp only [locateEq, isDirectory, List.contains_iff_mem, isBack, if_true] at metEq
      cases metEq

theorem mem_of_standsBelow (wellFormed : tree.WellFormed) (walkEq : tree.walk root = .ok files)
    {top : Location} (locateEq : tree.locate root = .ok top) {file : WalkedFile}
    (nonempty : file.names ≠ []) (stands : file.StandsBelow tree root) : file ∈ files := by
  obtain ⟨path, fileNames⟩ := file
  obtain ⟨pathEq, areNames, location, content, leads, isFile⟩ := stands
  obtain ⟨before, name, rfl⟩ := (List.eq_nil_or_concat' fileNames).resolve_left nonempty
  dsimp only at pathEq areNames leads
  subst pathEq
  obtain ⟨areBefore, isName⟩ := List.forall_mem_append.mp areNames
  rw [List.forall_mem_singleton] at isName
  have leadsChild := leads
  rw [Path.descendant_concat] at leadsChild
  obtain ⟨parent, entry, leadsParent, entryEq, ends⟩ :=
    wellFormed.exists_leads_of_child isName leadsChild
  obtain ⟨above, way⟩ := exists_way wellFormed (not_trouble_of_walk wellFormed walkEq) locateEq
    areBefore leadsParent (wellFormed.isDirectory_of_entry entryEq)
  obtain ⟨met, metEq, metSubset⟩ := way.exists_walkEntry wellFormed walkEq entryEq
  apply metSubset
  rw [walkEntry, entryEq] at metEq
  rcases ends with ⟨target, rfl⟩ | rfl
  · cases locateChild : tree.locate (root.descendant (before ++ [name])) with
    | error error =>
        rw [locateChild] at metEq
        cases metEq
    | ok target =>
        have targetEq : target = location := (leads_of_locate locateChild).unique leads
        simp only [locateChild, targetEq, isFile] at metEq
        cases metEq
        exact List.mem_singleton_self _
  · have fileEq : entry = .file content := Option.some.inj (entryEq.symm.trans isFile)
    rw [fileEq] at metEq
    cases metEq
    exact List.mem_singleton_self _

end Walked

/-! ## Whole walks -/

theorem exists_locate_of_isDirectory (isDirectory : tree.isDirectory root = true) :
    ∃ top, tree.locate root = .ok top ∧ tree.entry? top = some .directory := by
  unfold FileTree.isDirectory target? at isDirectory
  cases locateEq : tree.locate root with
  | error error =>
      rw [locateEq] at isDirectory
      cases isDirectory
  | ok top =>
      rw [locateEq] at isDirectory
      exact ⟨top, rfl, beq_iff_eq.mp isDirectory⟩

theorem accounts_walk (wellFormed : tree.WellFormed) {top : Location}
    (locateEq : tree.locate root = .ok top) (isDirectory : tree.entry? top = some .directory) :
    tree.Accounts root [] (tree.names top) (tree.walk root) := by
  rw [walk, locateEq]
  exact accounts_walkEntries wellFormed (wellFormed.names_nodup top) []
    (.start locateEq isDirectory) rfl rfl

/-- A walk with trouble on a way fails. -/
theorem exists_walk_eq_error (wellFormed : tree.WellFormed) (trouble : tree.Trouble root) :
    ∃ error, tree.walk root = .error error := by
  cases walkEq : tree.walk root with
  | error error => exact ⟨error, rfl⟩
  | ok files => exact absurd trouble (not_trouble_of_walk wellFormed walkEq)

/-- A walk without trouble meets the files below its root, each once for each path. -/
theorem exists_walk_eq_ok (wellFormed : tree.WellFormed)
    (isDirectory : tree.isDirectory root = true) (noTrouble : ¬tree.Trouble root) :
    ∃ files, tree.walk root = .ok files ∧ (files.map (·.names)).Nodup ∧
      ∀ file, file ∈ files ↔ file.names ≠ [] ∧ file.StandsBelow tree root := by
  obtain ⟨top, locateEq, isTop⟩ := exists_locate_of_isDirectory isDirectory
  have accounts := accounts_walk wellFormed locateEq isTop
  cases walkEq : tree.walk root with
  | error error =>
      rw [walkEq] at accounts
      exact absurd accounts noTrouble
  | ok files =>
      rw [walkEq] at accounts
      have meets : tree.Meets root [] (tree.names top) files := accounts
      refine ⟨files, rfl, meets.distinct, fun file => ⟨fun member => ?_, fun stands => ?_⟩⟩
      · obtain ⟨name, _, isPrefix⟩ := meets.below file member
        refine ⟨?_, meets.stands file member⟩
        rintro noNames
        rw [noNames] at isPrefix
        exact List.cons_ne_nil name [] (List.prefix_nil.mp isPrefix)
      · exact mem_of_standsBelow wellFormed walkEq locateEq stands.1 stands.2

end FileTree

end ClassLint
