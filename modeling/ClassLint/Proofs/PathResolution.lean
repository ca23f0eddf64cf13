import ClassLint.FileTree.Basic
import ClassLint.Proofs.PathOrder

/-!
# Where paths lead

A path is resolved step by step, and links spend from an allowance on the way.  If
a path leads to a directory, the path of an entry leads on from that directory with
what is left of the allowance; if the path of an entry leads somewhere, the path
before it leads to a directory.
-/

namespace ClassLint

namespace FileTree

/-! ## Trees that a file system can hold -/

/-- Locations are distinct, names can stand in a path, and entries stand in
directories. -/
structure WellFormed (tree : FileTree) : Prop where
  distinct : (tree.entries.map (·.1)).Nodup
  named : ∀ item ∈ tree.entries, ∀ name ∈ item.1,
    Path.IsName name ∧ name.utf8ByteSize ≤ nameLimit
  inside : ∀ item ∈ tree.entries, tree.entry? item.1.tail = some .directory

variable {tree : FileTree}

theorem mem_entries_of_entry {name : String} {directory : Location} {entry : Entry}
    (entryEq : tree.entry? (name :: directory) = some entry) :
    (name :: directory, entry) ∈ tree.entries := by
  unfold entry? at entryEq
  rw [if_neg (List.cons_ne_nil name directory)] at entryEq
  obtain ⟨⟨location, found⟩, findEq, rfl⟩ := Option.map_eq_some_iff.mp entryEq
  have locationEq : location = name :: directory := by simpa using List.find?_some findEq
  exact locationEq ▸ List.mem_of_find?_eq_some findEq

theorem entry?_eq_some_iff (distinct : (tree.entries.map (·.1)).Nodup) {name : String}
    {directory : Location} {entry : Entry} :
    tree.entry? (name :: directory) = some entry ↔ (name :: directory, entry) ∈ tree.entries := by
  refine ⟨mem_entries_of_entry, fun member => ?_⟩
  unfold entry?
  rw [if_neg (List.cons_ne_nil name directory)]
  cases findEq : tree.entries.find? (·.1 = name :: directory) with
  | none =>
      have notHere := List.find?_eq_none.mp findEq (name :: directory, entry) member
      simp at notHere
  | some found =>
      have locationEq : found.1 = name :: directory := by simpa using List.find?_some findEq
      have foundEq : found = (name :: directory, entry) :=
        List.inj_on_of_nodup_map distinct (List.mem_of_find?_eq_some findEq) member
          locationEq
      rw [Option.map_some, foundEq]

/-- The name of an entry that stands in a directory. -/
def nameIn? (directory : Location) : Location → Option String
  | name :: parent => if parent = directory then some name else none
  | [] => none

theorem nameIn?_eq_some_iff {directory location : Location} {name : String} :
    nameIn? directory location = some name ↔ location = name :: directory := by
  cases location with
  | nil => simp [nameIn?]
  | cons first parent => simp [nameIn?, and_comm]

theorem names_eq_filterMap (tree : FileTree) (directory : Location) :
    tree.names directory = (tree.entries.map (·.1)).filterMap (nameIn? directory) := by
  rw [List.filterMap_map]
  rfl

namespace WellFormed

variable (wellFormed : tree.WellFormed)

include wellFormed

theorem mem_names_iff {name : String} {directory : Location} :
    name ∈ tree.names directory ↔ ∃ entry, tree.entry? (name :: directory) = some entry := by
  simp [names_eq_filterMap, List.mem_filterMap, nameIn?_eq_some_iff,
    entry?_eq_some_iff wellFormed.distinct]

theorem names_nodup (directory : Location) : (tree.names directory).Nodup := by
  rw [names_eq_filterMap]
  apply wellFormed.distinct.filterMap
  intro first second name firstEq secondEq
  rw [nameIn?_eq_some_iff.mp firstEq, nameIn?_eq_some_iff.mp secondEq]

theorem isName {name : String} {directory : Location} {entry : Entry}
    (entryEq : tree.entry? (name :: directory) = some entry) :
    Path.IsName name ∧ name.utf8ByteSize ≤ nameLimit :=
  wellFormed.named _ (mem_entries_of_entry entryEq) name List.mem_cons_self

theorem isDirectory_of_entry {name : String} {directory : Location} {entry : Entry}
    (entryEq : tree.entry? (name :: directory) = some entry) :
    tree.entry? directory = some .directory :=
  wellFormed.inside _ (mem_entries_of_entry entryEq)

theorem isDirectory_tail {here : Location} (isDirectory : tree.entry? here = some .directory) :
    tree.entry? here.tail = some .directory := by
  cases here with
  | nil => rfl
  | cons name parent => exact wellFormed.isDirectory_of_entry isDirectory

/-- Resolution ends at a file or a directory, never at a link. -/
theorem entry?_of_resolveFrom {links : Nat} {here there : Location} {steps : List String}
    (isDirectory : tree.entry? here = some .directory)
    (resolved : tree.resolveFrom links here steps = .ok (.found there)) :
    tree.entry? there = some .directory ∨ ∃ content, tree.entry? there = some (.file content) := by
  fun_induction resolveFrom tree links here steps with
  | case1 links here =>
      cases resolved
      exact .inl isDirectory
  | case2 links here steps ih => exact ih isDirectory resolved
  | case3 links here steps _ ih => exact ih (wellFormed.isDirectory_tail isDirectory) resolved
  | case7 links here step steps _ _ _ isBelow ih => exact ih isBelow resolved
  | case8 links here step _ _ _ content isFile =>
      cases resolved
      exact .inr ⟨content, isFile⟩
  | case11 here step steps _ _ _ target _ links path ih =>
      refine ih ?_ resolved
      split
      · rfl
      · exact isDirectory
  | case4 | case5 | case6 | case9 | case10 => cases resolved

end WellFormed

/-! ## Resolution along joined steps -/

theorem resolveFrom_append {links : Nat} {here there : Location} {first : List String}
    (resolved : tree.resolveFrom links here first = .ok (.found there))
    (isDirectory : tree.entry? there = some .directory) :
    ∃ left, ∀ second,
      tree.resolveFrom links here (first ++ second) = tree.resolveFrom left there second := by
  fun_induction resolveFrom tree links here first with
  | case1 links here =>
      cases resolved
      exact ⟨links, fun _ => rfl⟩
  | case8 links here step notCurrent notParent fits content isFile =>
      cases resolved
      rw [isFile] at isDirectory
      cases isDirectory
  | case4 | case5 | case6 | case9 | case10 => cases resolved
  | case11 here step steps notCurrent notParent fits target isLink links path ih =>
      obtain ⟨left, leftEq⟩ := ih resolved
      refine ⟨left, fun second => ?_⟩
      rw [← leftEq second]
      simp only [List.cons_append, List.append_assoc, resolveFrom, *, if_false]
      rfl
  | case2 | case3 | case7 =>
      rename_i ih
      obtain ⟨left, leftEq⟩ := ih resolved
      refine ⟨left, fun second => ?_⟩
      rw [← leftEq second]
      simp only [List.cons_append, resolveFrom, *, if_true, if_false]

theorem exists_of_resolveFrom_append {links : Nat} {here : Location} {first second : List String}
    {resolution : Resolution} (nonempty : second ≠ [])
    (resolved : tree.resolveFrom links here (first ++ second) = .ok resolution) :
    ∃ left there, tree.resolveFrom links here first = .ok (.found there) ∧
      tree.resolveFrom left there second = .ok resolution := by
  fun_induction resolveFrom tree links here first with
  | case1 links here => exact ⟨links, here, rfl, resolved⟩
  | case11 here step steps notCurrent notParent fits target isLink links path ih =>
      apply ih
      simp only [List.cons_append, List.append_assoc, resolveFrom, *, if_false] at resolved ⊢
      exact resolved
  | case2 | case3 | case7 =>
      rename_i ih
      apply ih
      simpa only [List.cons_append, resolveFrom, *, if_true, if_false] using resolved
  | _ =>
      -- The steps do not lead on from here, to whatever follows them.
      simp only [List.cons_append, List.nil_append, resolveFrom, List.append_eq_nil_iff, and_false,
        *, if_true, if_false] at resolved
      cases resolved

/-! ## Paths of entries -/

/-- A path leads to a location, whatever its length. -/
def Leads (tree : FileTree) (path : Path) (location : Location) : Prop :=
  tree.resolveFrom linkLimit [] path.steps = .ok (.found location)

/-- A path leads to a file, whatever its length. -/
def LeadsToFile (tree : FileTree) (path : Path) : Prop :=
  ∃ location content, tree.Leads path location ∧ tree.entry? location = some (.file content)

theorem Leads.unique {path : Path} {first second : Location} (leadsFirst : tree.Leads path first)
    (leadsSecond : tree.Leads path second) : first = second := by
  unfold Leads at leadsFirst leadsSecond
  rw [leadsFirst] at leadsSecond
  cases leadsSecond
  rfl

theorem locate_eq_ok_iff {path : Path} {location : Location} :
    tree.locate path = .ok location ↔
      '\x00' ∉ path.text.toList ∧ path.text ≠ "" ∧ path.text.utf8ByteSize ≤ pathLimit ∧
        tree.Leads path location := by
  have locateIff : tree.locate path = .ok location ↔ tree.resolve path = .ok (.found location) := by
    unfold locate
    rcases tree.resolve path with error | there | ⟨directory, name⟩
    · simp [bind, Except.bind]
    · simp [bind, Except.bind, pure, Except.pure]
    · simp [bind, Except.bind, throw, throwThe, MonadExceptOf.throw]
  rw [locateIff, resolve, Leads]
  split
  · next isNull => simp [isNull]
  · next notNull =>
    split
    · next isEmpty => simp [isEmpty]
    · next nonempty =>
      split
      · next tooLong => simp [Nat.not_le.mpr tooLong]
      · next fits => simp [notNull, nonempty, Nat.not_lt.mp fits]

theorem leads_of_locate {path : Path} {location : Location}
    (locateEq : tree.locate path = .ok location) : tree.Leads path location :=
  (locate_eq_ok_iff.mp locateEq).2.2.2

/-- A path that can be opened leads to a file if it is one. -/
theorem isFile_iff {path : Path} :
    tree.isFile path = true ↔
      '\x00' ∉ path.text.toList ∧ path.text ≠ "" ∧ path.text.utf8ByteSize ≤ pathLimit ∧
        tree.LeadsToFile path := by
  have isFileIff : tree.isFile path = true ↔ ∃ location content,
      tree.locate path = .ok location ∧ tree.entry? location = some (.file content) := by
    unfold isFile target?
    cases tree.locate path with
    | error error => simp
    | ok location => rcases entryEq : tree.entry? location with _ | _ | _ | _ <;> simp [entryEq]
  simp only [isFileIff, locate_eq_ok_iff, LeadsToFile, and_assoc, exists_and_left]

theorem steps_eq_or (path : Path) :
    path.steps = path.segments.filter (· ≠ "") ∨
      path.steps = path.segments.filter (· ≠ "") ++ ["."] := by
  unfold Path.steps
  split
  · exact .inr rfl
  · exact .inl rfl

theorem steps_child (path : Path) {name : String} (isName : Path.IsName name) :
    (path.child name).steps = path.segments.filter (· ≠ "") ++ [name] := by
  obtain ⟨trunk, trunkEq, childEq⟩ := path.exists_segments_child
  have segmentsEq : path.segments.filter (· ≠ "") = trunk.filter (· ≠ "") := by
    rcases trunkEq with ⟨trunkEq, -⟩ | trunkEq <;> simp [trunkEq]
  rw [segmentsEq]
  simp [Path.steps, childEq name isName, isName.nonempty]

/-- Whether a path leads to a directory does not depend on a slash at its end. -/
theorem leads_iff_trunk {path : Path} {here : Location}
    (isDirectory : tree.entry? here = some .directory) :
    tree.Leads path here ↔
      tree.resolveFrom linkLimit [] (path.segments.filter (· ≠ "")) = .ok (.found here) := by
  unfold Leads
  rcases steps_eq_or path with stepsEq | stepsEq
  · rw [stepsEq]
  · rw [stepsEq]
    constructor
    · intro leads
      obtain ⟨left, there, trunkLeads, stays⟩ :=
        exists_of_resolveFrom_append (List.cons_ne_nil "." []) leads
      simp only [resolveFrom, if_true] at stays
      cases stays
      exact trunkLeads
    · intro trunkLeads
      obtain ⟨left, leftEq⟩ := resolveFrom_append trunkLeads isDirectory
      rw [leftEq]
      simp only [resolveFrom, if_true]

/-- From a directory that a path leads to, the path of an entry goes one step on. -/
theorem Leads.resolveFrom_child {path : Path} {here : Location} (leads : tree.Leads path here)
    (isDirectory : tree.entry? here = some .directory) {name : String}
    (isName : Path.IsName name) :
    ∃ left, tree.resolveFrom linkLimit [] (path.child name).steps =
      tree.resolveFrom left here [name] := by
  obtain ⟨left, leftEq⟩ :=
    resolveFrom_append ((leads_iff_trunk isDirectory).mp leads) isDirectory
  exact ⟨left, by rw [steps_child path isName, leftEq]⟩

/-- The step to an entry ends at the entry, unless it is a link. -/
theorem resolveFrom_name_eq_found {links : Nat} {here location : Location} {name : String}
    (isName : Path.IsName name)
    (resolved : tree.resolveFrom links here [name] = .ok (.found location)) :
    ∃ entry, tree.entry? (name :: here) = some entry ∧
      ((∃ target, entry = .link target) ∨ location = name :: here) := by
  simp only [resolveFrom, isName.notCurrent, isName.notParent, if_false, if_true] at resolved
  split at resolved
  · cases resolved
  · rcases entryEq : tree.entry? (name :: here) with _ | content | _ | target
    all_goals rw [entryEq] at resolved
    · cases resolved
    · cases resolved
      exact ⟨_, rfl, .inr rfl⟩
    · cases resolved
      exact ⟨_, rfl, .inr rfl⟩
    · exact ⟨_, rfl, .inl ⟨target, rfl⟩⟩

namespace WellFormed

variable (wellFormed : tree.WellFormed)

include wellFormed

/-- If the path of an entry leads somewhere, the path before it leads to a directory with
such an entry: the path ends there, unless it is a link. -/
theorem exists_leads_of_child {path : Path} {name : String} {location : Location}
    (isName : Path.IsName name) (leads : tree.Leads (path.child name) location) :
    ∃ here entry, tree.Leads path here ∧ tree.entry? (name :: here) = some entry ∧
      ((∃ target, entry = .link target) ∨ location = name :: here) := by
  unfold Leads at leads
  rw [steps_child path isName] at leads
  obtain ⟨left, here, trunkLeads, nameEq⟩ :=
    exists_of_resolveFrom_append (List.cons_ne_nil name []) leads
  obtain ⟨entry, entryEq, ends⟩ := resolveFrom_name_eq_found isName nameEq
  have isDirectory := wellFormed.isDirectory_of_entry entryEq
  exact ⟨here, entry, (leads_iff_trunk isDirectory).mpr trunkLeads, entryEq, ends⟩

theorem leads_child {path : Path} {here : Location} {name : String} {entry : Entry}
    (leads : tree.Leads path here) (entryEq : tree.entry? (name :: here) = some entry)
    (notLink : ∀ target, entry ≠ .link target) : tree.Leads (path.child name) (name :: here) := by
  obtain ⟨isName, fits⟩ := wellFormed.isName entryEq
  obtain ⟨left, leftEq⟩ :=
    leads.resolveFrom_child (wellFormed.isDirectory_of_entry entryEq) isName
  unfold Leads
  rw [leftEq]
  cases entry with
  | link target => exact absurd rfl (notLink target)
  | file content | directory =>
      simp [resolveFrom, isName.notCurrent, isName.notParent, Nat.not_lt.mpr fits, entryEq]

end WellFormed

/-! ## Trees that list their entries in another order -/

section Reordered

variable {other : FileTree}

theorem WellFormed.entry?_of_perm (wellFormed : tree.WellFormed)
    (perm : other.entries.Perm tree.entries) : other.entry? = tree.entry? := by
  have distinct : (other.entries.map (·.1)).Nodup :=
    (perm.map _).nodup_iff.mpr wellFormed.distinct
  funext location
  cases location with
  | nil => rfl
  | cons name directory =>
      apply Option.ext
      intro entry
      rw [entry?_eq_some_iff distinct, entry?_eq_some_iff wellFormed.distinct, perm.mem_iff]

theorem WellFormed.of_perm (wellFormed : tree.WellFormed)
    (perm : other.entries.Perm tree.entries) : other.WellFormed where
  distinct := (perm.map _).nodup_iff.mpr wellFormed.distinct
  named item member := wellFormed.named item (perm.mem_iff.mp member)
  inside item member := by
    rw [wellFormed.entry?_of_perm perm]
    exact wellFormed.inside item (perm.mem_iff.mp member)

theorem resolveFrom_of_sameEntries (same : other.entry? = tree.entry?) :
    other.resolveFrom = tree.resolveFrom := by
  funext links here steps
  fun_induction resolveFrom tree links here steps with
  | case11 here step steps notCurrent notParent fits target isLink links path ih =>
      simp only [resolveFrom, if_false, *]
      exact ih
  | _ => simp only [resolveFrom, if_true, if_false, *]

theorem locate_of_sameEntries (same : other.entry? = tree.entry?) : other.locate = tree.locate := by
  funext path
  simp only [locate, resolve, resolveFrom_of_sameEntries same]

theorem LeadsToFile.of_sameEntries (same : other.entry? = tree.entry?) {path : Path}
    (leadsToFile : tree.LeadsToFile path) : other.LeadsToFile path := by
  obtain ⟨location, content, leads, isFile⟩ := leadsToFile
  refine ⟨location, content, ?_, same ▸ isFile⟩
  unfold Leads
  rw [resolveFrom_of_sameEntries same]
  exact leads

end Reordered

end FileTree

end ClassLint
