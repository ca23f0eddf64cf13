import Mathlib.Data.List.Nodup
import ClassLint.Path

/-!
# The order of paths

Paths are ordered by their components, and names by their characters.  In UTF-8
that is the order of the bytes of the names.  The path of an entry has the
components of its directory's path and its own name behind them.
-/

namespace ClassLint

/-! ## Bytes of names -/

/-- The bytes of a character in UTF-8 tell it apart from a later character, whatever
bytes follow. -/
theorem utf8EncodeChar_append_lt {first second : Char} (less : first < second)
    (firstRest secondRest : List UInt8) :
    String.utf8EncodeChar first ++ firstRest < String.utf8EncodeChar second ++ secondRest := by
  have codeLess : first.val.toNat < second.val.toNat := UInt32.lt_iff_toNat_lt.mp less
  have codeBound : second.val.toNat < 0x110000 := by
    have valid := second.valid
    simp only [UInt32.isValidChar, Nat.isValidChar] at valid
    omega
  unfold String.utf8EncodeChar
  dsimp only
  generalize first.val.toNat = firstCode at *
  generalize second.val.toNat = secondCode at *
  have quotients (code : Nat) : code / 4096 = code / 64 / 64 ∧
      code / 262144 = code / 64 / 64 / 64 := by omega
  -- Fewer bytes mean a smaller first byte; among as many bytes, the first that differs decides.
  repeat' split
  all_goals
    simp only [List.cons_append, List.cons_lt_cons_iff, UInt8.lt_iff_toNat_lt, ← UInt8.toNat_inj,
      UInt8.toNat_ofNat', quotients]
    omega

theorem flatMap_utf8EncodeChar_lt {firsts seconds : List Char} (less : firsts < seconds) :
    firsts.flatMap String.utf8EncodeChar < seconds.flatMap String.utf8EncodeChar := by
  induction less with
  | @nil char chars =>
      have nonempty : String.utf8EncodeChar char ++ chars.flatMap String.utf8EncodeChar ≠ [] := by
        simp [String.utf8EncodeChar_ne_nil]
      obtain ⟨byte, bytes, bytesEq⟩ := List.exists_cons_of_ne_nil nonempty
      rw [List.flatMap_nil, List.flatMap_cons, bytesEq]
      exact List.nil_lt_cons byte bytes
  | rel charLess => exact utf8EncodeChar_append_lt charLess _ _
  | cons _ ih => exact List.append_left_lt ih

theorem bytes_lt_bytes {first second : String} (less : first < second) :
    first.toUTF8.data < second.toUTF8.data := by
  have bytesEq (text : String) :
      text.toUTF8.data.toList = text.toList.flatMap String.utf8EncodeChar := by
    have encoded : text.toUTF8 = text.toList.utf8Encode := by
      rw [← String.toByteArray_ofList, String.ofList_toList]
      rfl
    rw [encoded, List.utf8Encode, List.toList_data_toByteArray]
  rw [← Array.lt_toList, bytesEq, bytesEq]
  exact flatMap_utf8EncodeChar_lt less

namespace Path

/-- The order of components, names by their bytes. -/
def Component.Before : Component → Component → Prop
  | .name first, .name second => first.toUTF8.data < second.toUTF8.data
  | first, second => first.rank < second.rank

/-- The order of paths, component by component. -/
def Before (first second : Path) : Prop :=
  List.Lex Component.Before first.components second.components

/-- The name of a component, or nothing for the other forms. -/
def Component.text : Component → String
  | .name text => text
  | _ => ""

theorem Component.compare_eq_compareLex :
    Component.compare = compareLex (compareOn Component.rank) (compareOn Component.text) := by
  funext first second
  cases first <;> cases second <;> rfl

instance : Std.TransCmp Component.compare := by
  rw [Component.compare_eq_compareLex]
  infer_instance

instance : Std.LawfulEqCmp Component.compare where
  eq_of_compare {first second} compareEq := by
    cases first <;> cases second <;> simp_all [Component.compare, Component.rank]

theorem compareComponents_eq_compareLex :
    compareComponents = List.compareLex Component.compare := by
  funext firsts seconds
  induction firsts generalizing seconds with
  | nil => cases seconds <;> rfl
  | cons first firsts ih =>
      cases seconds with
      | nil => rfl
      | cons second seconds => rw [compareComponents, ih, List.compareLex_cons_cons]

theorem Component.before_of_compare {first second : Component}
    (less : first.compare second = .lt) : first.Before second := by
  cases first <;> cases second
  case name.name firstText secondText => exact bytes_lt_bytes (compareOfLessAndEq_eq_lt.mp less)
  all_goals exact Nat.compare_eq_lt.mp less

theorem before_of_compareComponents {firsts seconds : List Component}
    (less : compareComponents firsts seconds = .lt) :
    List.Lex Component.Before firsts seconds := by
  induction firsts generalizing seconds with
  | nil =>
      cases seconds with
      | nil => cases less
      | cons second seconds => exact .nil
  | cons first firsts ih =>
      cases seconds with
      | nil => cases less
      | cons second seconds =>
          rw [compareComponents, Ordering.then_eq_lt] at less
          rcases less with firstLess | ⟨firstEq, restLess⟩
          · exact .rel (Component.before_of_compare firstLess)
          · rw [Std.LawfulEqCmp.eq_of_compare firstEq]
            exact .cons (ih restLess)

theorem precedes_iff {first second : Path} : first.precedes second = true ↔
    (List.compareLex Component.compare first.components second.components).isLE = true := by
  rw [precedes, compareComponents_eq_compareLex, bne_iff_ne]
  exact Ordering.isLE_iff_ne_gt.symm

theorem precedes_trans (first second third : Path) (firstPrecedes : first.precedes second = true)
    (secondPrecedes : second.precedes third = true) : first.precedes third = true := by
  rw [precedes_iff] at firstPrecedes secondPrecedes ⊢
  exact Std.TransCmp.isLE_trans firstPrecedes secondPrecedes

theorem precedes_total (first second : Path) :
    (first.precedes second || second.precedes first) = true := by
  have swapped : List.compareLex Component.compare second.components first.components =
      (List.compareLex Component.compare first.components second.components).swap :=
    Std.OrientedCmp.eq_swap
  rw [Bool.or_eq_true, precedes_iff, precedes_iff, swapped]
  cases List.compareLex Component.compare first.components second.components
  · exact .inl rfl
  · exact .inl rfl
  · exact .inr rfl

theorem components_eq_of_precedes {first second : Path}
    (firstPrecedes : first.precedes second = true)
    (secondPrecedes : second.precedes first = true) :
    first.components = second.components := by
  rw [precedes_iff] at firstPrecedes secondPrecedes
  exact Std.LawfulEqCmp.eq_of_compare (Std.OrientedCmp.isLE_antisymm firstPrecedes secondPrecedes)

theorem before_of_precedes {first second : Path} (precedes : first.precedes second = true)
    (distinct : first.components ≠ second.components) : first.Before second := by
  apply before_of_compareComponents
  rw [precedes_iff, ← compareComponents_eq_compareLex] at precedes
  cases compareEq : compareComponents first.components second.components with
  | lt => rfl
  | eq =>
      rw [compareComponents_eq_compareLex] at compareEq
      exact absurd (Std.LawfulEqCmp.eq_of_compare compareEq) distinct
  | gt =>
      rw [compareEq] at precedes
      cases precedes

/-- Sorting puts paths with different components in a strict order. -/
theorem pairwise_before_mergeSort {paths : List Path} (distinct : (paths.map components).Nodup) :
    (paths.mergeSort precedes).Pairwise Before := by
  have sorted := List.pairwise_mergeSort precedes_trans precedes_total paths
  have apart : ((paths.mergeSort precedes).map components).Nodup :=
    ((List.mergeSort_perm paths precedes).map components).nodup_iff.mpr distinct
  exact (sorted.and (List.pairwise_map.mp apart)).imp fun both => before_of_precedes both.1 both.2

/-- What sorting gives does not depend on the order before it. -/
theorem mergeSort_eq_of_perm {paths others : List Path} (distinct : (paths.map components).Nodup)
    (perm : others.Perm paths) : others.mergeSort precedes = paths.mergeSort precedes := by
  have sameItems : (others.mergeSort precedes).Perm (paths.mergeSort precedes) :=
    ((List.mergeSort_perm others precedes).trans perm).trans
      (List.mergeSort_perm paths precedes).symm
  apply sameItems.eq_of_pairwise _ (List.pairwise_mergeSort precedes_trans precedes_total others)
    (List.pairwise_mergeSort precedes_trans precedes_total paths)
  intro first second firstMember secondMember firstPrecedes secondPrecedes
  have firstListed := perm.mem_iff.mp (List.mem_mergeSort.mp firstMember)
  have secondListed := List.mem_mergeSort.mp secondMember
  exact List.inj_on_of_nodup_map distinct firstListed secondListed
    (components_eq_of_precedes firstPrecedes secondPrecedes)

/-! ## Paths of entries -/

/-- A text that can be the name of an entry. -/
structure IsName (name : String) : Prop where
  nonempty : name ≠ ""
  noSlash : '/' ∉ name.toList
  notCurrent : name ≠ "."
  notParent : name ≠ ".."

instance (name : String) : Decidable (IsName name) :=
  decidable_of_iff (name ≠ "" ∧ '/' ∉ name.toList ∧ name ≠ "." ∧ name ≠ "..")
    ⟨fun ⟨nonempty, noSlash, notCurrent, notParent⟩ => ⟨nonempty, noSlash, notCurrent, notParent⟩,
      fun isName => ⟨isName.nonempty, isName.noSlash, isName.notCurrent, isName.notParent⟩⟩

/-- The path that names lead to from a directory. -/
def descendant (path : Path) (names : List String) : Path :=
  names.foldl child path

theorem descendant_concat (path : Path) (names : List String) (name : String) :
    path.descendant (names ++ [name]) = (path.descendant names).child name := by
  rw [descendant, List.foldl_append]
  rfl

theorem cutAtSlashes_of_noSlash {chars : List Char} (noSlash : '/' ∉ chars) :
    cutAtSlashes chars = [chars] := by
  induction chars with
  | nil => rfl
  | cons char chars ih =>
      rw [List.mem_cons, not_or] at noSlash
      rw [cutAtSlashes, if_neg (Ne.symm noSlash.1), ih noSlash.2]

theorem cutAtSlashes_ne_nil (chars : List Char) : cutAtSlashes chars ≠ [] := by
  cases chars with
  | nil => exact List.cons_ne_nil _ _
  | cons char chars =>
      rw [cutAtSlashes]
      split
      · exact List.cons_ne_nil _ _
      · split <;> exact List.cons_ne_nil _ _

/-- The last segment is empty only at the start or behind a slash. -/
theorem getLast?_cutAtSlashes {chars : List Char} (nonempty : chars ≠ [])
    (noSlash : chars.getLast? ≠ some '/') : (cutAtSlashes chars).getLast? ≠ some [] := by
  induction chars with
  | nil => exact absurd rfl nonempty
  | cons char chars ih =>
      by_cases single : chars = []
      · subst single
        have notSlash : char ≠ '/' := by
          rintro rfl
          exact noSlash rfl
        simp [cutAtSlashes, notSlash]
      · have lastEq : (char :: chars).getLast? = chars.getLast? := by
          obtain ⟨next, rest, rfl⟩ := List.exists_cons_of_ne_nil single
          exact List.getLast?_cons_cons
        have restLast := ih single (lastEq ▸ noSlash)
        obtain ⟨segment, segments, cutEq⟩ :=
          List.exists_cons_of_ne_nil (cutAtSlashes_ne_nil chars)
        rw [cutEq] at restLast
        rw [cutAtSlashes, cutEq]
        split
        · rwa [List.getLast?_cons_cons]
        · cases segments with
          | nil => simp
          | cons next segments => rwa [List.getLast?_cons_cons] at restLast ⊢

theorem cutAtSlashes_append_slash (front back : List Char) :
    cutAtSlashes (front ++ '/' :: back) = cutAtSlashes front ++ cutAtSlashes back := by
  induction front with
  | nil => rfl
  | cons char front ih =>
      rw [List.cons_append, cutAtSlashes, cutAtSlashes, ih]
      split
      · rfl
      · cases cutEq : cutAtSlashes front with
        | nil => exact absurd cutEq (cutAtSlashes_ne_nil front)
        | cons segment segments => rfl

/-- The segments of an entry's path: those of the directory's path, less the empty one
after a slash at the end, and the name. -/
theorem exists_segments_child (path : Path) :
    ∃ trunk, (path.segments = trunk ∧ trunk.getLast? ≠ some "" ∨ path.segments = trunk ++ [""]) ∧
      ∀ name, IsName name → (path.child name).segments = trunk ++ [name] := by
  have nameCut {name : String} (isName : IsName name) : cutAtSlashes name.toList = [name.toList] :=
    cutAtSlashes_of_noSlash isName.noSlash
  by_cases isEmpty : path.text = ""
  · refine ⟨[], .inr ?_, fun name isName => ?_⟩
    · rw [segments, isEmpty]
      rfl
    · rw [child, if_pos isEmpty, segments, nameCut isName]
      simp
  by_cases slashed : path.text.toList.getLast? = some '/'
  · obtain ⟨front, frontEq⟩ := List.getLast?_eq_some_iff.mp slashed
    refine ⟨(cutAtSlashes front).map String.ofList, .inr ?_, fun name isName => ?_⟩
    · rw [segments, frontEq, cutAtSlashes_append_slash, List.map_append]
      rfl
    · have textEq : (path.text ++ name).toList = front ++ '/' :: name.toList := by
        rw [String.toList_append, frontEq, List.append_assoc]
        rfl
      rw [child, if_neg isEmpty, if_pos slashed, segments, textEq, cutAtSlashes_append_slash,
        nameCut isName]
      simp
  · refine ⟨path.segments, .inl ⟨rfl, ?_⟩, fun name isName => ?_⟩
    · have nonempty : path.text.toList ≠ [] := by simpa using isEmpty
      have lastSegment := getLast?_cutAtSlashes nonempty slashed
      rw [segments, List.getLast?_map]
      intro lastEq
      obtain ⟨segment, segmentEq, isNil⟩ := Option.map_eq_some_iff.mp lastEq
      have segmentNil : segment = [] := by simpa using congrArg String.toList isNil
      exact lastSegment (segmentNil ▸ segmentEq)
    · have textEq : (path.text ++ "/" ++ name).toList = path.text.toList ++ '/' :: name.toList := by
        simp
      rw [child, if_neg isEmpty, if_neg slashed, segments, textEq, cutAtSlashes_append_slash,
        nameCut isName]
      simp [segments]

theorem isAbsolute_child (path : Path) {name : String} (isName : IsName name) :
    (path.child name).isAbsolute = path.isAbsolute := by
  have notAbsolute : name.toList.head? ≠ some '/' := fun headEq =>
    isName.noSlash (List.mem_of_head? headEq)
  unfold child
  split
  · next isEmpty => simpa [isAbsolute, isEmpty] using notAbsolute
  · next nonempty =>
    obtain ⟨char, chars, charsEq⟩ := List.exists_cons_of_ne_nil
      (show path.text.toList ≠ [] by simpa using nonempty)
    split <;> simp [isAbsolute, charsEq]

theorem components_child (path : Path) {name : String} (isName : IsName name) :
    (path.child name).components = path.components ++ [.name name] := by
  obtain ⟨trunk, trunkEq, childEq⟩ := exists_segments_child path
  have nameEq : componentOf? name = some (.name name) := by
    simp [componentOf?, isIdle, isName.nonempty, isName.notCurrent, isName.notParent]
  have stepsEq : path.segments.filterMap componentOf? = trunk.filterMap componentOf? := by
    rcases trunkEq with ⟨segmentsEq, -⟩ | segmentsEq
    · rw [segmentsEq]
    · rw [segmentsEq, List.filterMap_append]
      exact List.append_nil _
  have headEq : (trunk ++ [name]).head? = some "." ↔ path.segments.head? = some "." := by
    cases trunk with
    | nil =>
        have notCurrent := isName.notCurrent
        rcases trunkEq with ⟨segmentsEq, -⟩ | segmentsEq <;> simp [segmentsEq, notCurrent]
    | cons segment trunk =>
        rcases trunkEq with ⟨segmentsEq, -⟩ | segmentsEq <;> simp [segmentsEq]
  simp only [components, isAbsolute_child path isName, childEq name isName, headEq,
    List.filterMap_append, stepsEq, List.filterMap_cons, nameEq, List.filterMap_nil]
  split
  · rfl
  · split <;> rfl

theorem components_descendant (path : Path) {names : List String}
    (areNames : ∀ name ∈ names, IsName name) :
    (path.descendant names).components = path.components ++ names.map .name := by
  induction names generalizing path with
  | nil => exact (List.append_nil _).symm
  | cons name names ih =>
      have isName := areNames name List.mem_cons_self
      have areRest : ∀ other ∈ names, IsName other :=
        fun other member => areNames other (List.mem_cons_of_mem _ member)
      rw [descendant, List.foldl_cons]
      change ((path.child name).descendant names).components = _
      rw [ih (path.child name) areRest, components_child path isName, List.append_assoc]
      rfl

/-! ## Extensions -/

theorem splitFileName_snd_eq_some_iff {name ending : String} :
    (splitFileName name).2 = some ending ↔
      '.' ∉ ending.toList ∧ ∃ stem, stem ≠ "" ∧ name = stem ++ "." ++ ending := by
  -- The name is read from its end: characters up to a dot, then the dot, then the stem.
  have dropEq (chars : List Char) :
      chars.drop (chars.takeWhile (· != '.')).length = chars.dropWhile (· != '.') := by
    calc chars.drop (chars.takeWhile (· != '.')).length
        = (chars.takeWhile (· != '.') ++ chars.dropWhile (· != '.')).drop
            (chars.takeWhile (· != '.')).length := by rw [List.takeWhile_append_dropWhile]
      _ = chars.dropWhile (· != '.') := List.drop_left
  simp only [splitFileName, dropEq]
  constructor
  · intro splitEq
    split at splitEq
    · next dot char before restEq =>
      have endingEq : ending.toList.reverse = name.toList.reverse.takeWhile (· != '.') := by
        simp [← Option.some.inj splitEq]
      have isDot : '.' = dot := by
        have stops := List.head?_dropWhile_not (· != '.') name.toList.reverse
        simp only [restEq, List.head?_cons, bne_eq_false_iff_eq] at stops
        exact stops.symm
      subst isDot
      have charsEq : name.toList.reverse = ending.toList.reverse ++ '.' :: char :: before := by
        rw [endingEq, ← restEq, List.takeWhile_append_dropWhile]
      constructor
      · intro dotted
        rw [← List.mem_reverse, endingEq] at dotted
        have kept := List.all_eq_true.mp List.all_takeWhile '.' dotted
        cases kept
      · refine ⟨String.ofList (char :: before).reverse, by simp, ?_⟩
        apply String.toList_inj.mp
        rw [← List.reverse_inj, charsEq]
        simp
    · cases splitEq
  · rintro ⟨noDot, stem, nonempty, rfl⟩
    have charsEq : (stem ++ "." ++ ending).toList.reverse =
        ending.toList.reverse ++ '.' :: stem.toList.reverse := by simp
    have allKept : ∀ char ∈ ending.toList.reverse, (char != '.') = true := by
      intro char member
      rw [bne_iff_ne]
      rintro rfl
      exact noDot (List.mem_reverse.mp member)
    obtain ⟨char, before, stemEq⟩ := List.exists_cons_of_ne_nil
      (show stem.toList.reverse ≠ [] by simpa using nonempty)
    rw [charsEq, List.dropWhile_append_of_pos allKept, List.takeWhile_append_of_pos allKept, stemEq]
    simp

/-- The extension of an entry's path is what follows the last dot of its name. -/
theorem extension?_descendant (path : Path) {names : List String} {last : String}
    (areNames : ∀ name ∈ names, IsName name) (isLast : names.getLast? = some last) :
    (path.descendant names).extension? = (splitFileName last).2 := by
  have lastEq : (path.components ++ names.map Component.name).getLast? = some (.name last) := by
    rw [List.getLast?_append, List.getLast?_map, isLast]
    rfl
  rw [extension?, fileName?, components_descendant path areNames, lastEq]
  rfl

end Path

end ClassLint
