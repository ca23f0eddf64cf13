import ClassLint.Discovery
import ClassLint.Proofs.GlobLanguage
import ClassLint.Proofs.PathOrder

/-!
# Globs for file names

A glob without a slash is meant for the last segment of a path.  If it has no double
star either, then it matches a path exactly if it matches that segment and no directory
in front of it has a line break in its name.  So a line break in the name of a
directory hides all that is below from such globs.
-/

namespace ClassLint

namespace Path

theorem intercalate_cutAtSlashes (chars : List Char) :
    ['/'].intercalate (cutAtSlashes chars) = chars := by
  induction chars with
  | nil => rfl
  | cons char chars ih =>
      have nonempty := cutAtSlashes_ne_nil chars
      rw [cutAtSlashes]
      split
      next isSlash => rw [List.intercalate_cons_of_ne_nil nonempty, ih, isSlash]; rfl
      next =>
        cases cutEq : cutAtSlashes chars with
        | nil => exact absurd cutEq nonempty
        | cons segment segments =>
            rw [cutEq] at ih
            cases segments with
            | nil => simpa using ih
            | cons next segments => simpa using ih

/-- The text after the last slash. -/
def lastSegment (path : Path) : String :=
  path.segments.getLastD ""

/-- The segments in front of the last one. -/
def directories (path : Path) : List String :=
  path.segments.dropLast

theorem directories_append_lastSegment (path : Path) :
    path.directories ++ [path.lastSegment] = path.segments := by
  have nonempty : path.segments ≠ [] := by
    simp [segments, cutAtSlashes_ne_nil]
  rw [directories, lastSegment, List.getLastD_eq_getLast?, List.getLast?_eq_some_getLast nonempty]
  exact List.dropLast_append_getLast nonempty

theorem toList_text (path : Path) :
    path.text.toList = ['/'].intercalate
      (path.directories.map String.toList ++ [path.lastSegment.toList]) := by
  have segmentsEq : path.directories.map String.toList ++ [path.lastSegment.toList] =
      cutAtSlashes path.text.toList := by
    have := congrArg (List.map String.toList) path.directories_append_lastSegment
    simpa [segments] using this
  rw [segmentsEq, intercalate_cutAtSlashes]

end Path

namespace GlobToken

/-- A token that stands for words without slashes. -/
def InName : GlobToken → Prop
  | .directories => False
  | .anything => False
  | .segment => True
  | .character => True
  | .literal char => char ≠ '/'

theorem inName_of_mem_read {glob : List Char} (noSlash : '/' ∉ glob)
    (noDoubleStar : ¬['*', '*'] <:+: glob) : ∀ token ∈ read glob, token.InName := by
  have noneInTail {char : Char} {chars : List Char} (noneIn : ¬['*', '*'] <:+: char :: chars) :
      ¬['*', '*'] <:+: chars :=
    fun inTail => noneIn (inTail.trans (List.suffix_cons char chars).isInfix)
  fun_induction read glob with
  | case1 => simp
  | case2 glob ih => exact absurd (by simp) noSlash
  | case3 glob _ ih => exact absurd ⟨[], glob, rfl⟩ noDoubleStar
  | case4 glob _ _ ih | case5 glob ih =>
      rw [List.mem_cons, not_or] at noSlash
      exact List.forall_mem_cons.mpr ⟨trivial, ih noSlash.2 (noneInTail noDoubleStar)⟩
  | case6 char glob _ _ _ _ ih =>
      rw [List.mem_cons, not_or] at noSlash
      exact List.forall_mem_cons.mpr
        ⟨Ne.symm noSlash.1, ih noSlash.2 (noneInTail noDoubleStar)⟩

theorem Covers.noSlash {token : GlobToken} (inName : token.InName) {word : List Char}
    (covers : token.Covers word) : '/' ∉ word := by
  cases token with
  | directories => exact inName.elim
  | anything => exact inName.elim
  | segment => exact covers
  | character =>
      obtain ⟨char, notSlash, rfl⟩ := covers
      simpa using Ne.symm notSlash
  | literal char =>
      obtain rfl : word = [char] := covers
      simpa using Ne.symm inName

theorem Spells.noSlash {tokens : List GlobToken} (inName : ∀ token ∈ tokens, token.InName)
    {path : List Char} (spells : Spells tokens path) : '/' ∉ path := by
  induction tokens generalizing path with
  | nil =>
      obtain rfl : path = [] := spells
      simp
  | cons token tokens ih =>
      obtain ⟨word, rest, rfl, covers, spellsRest⟩ := spells
      obtain ⟨tokenInName, restInName⟩ := List.forall_mem_cons.mp inName
      rw [List.mem_append, not_or]
      exact ⟨covers.noSlash tokenInName, ih restInName spellsRest⟩

/-- Tokens of a name that may follow directories match behind a slash what they match
alone, unless a line break is in front of the slash. -/
theorem spells_append_slash_iff {tokens : List GlobToken}
    (inName : ∀ token ∈ tokens, token.InName) {front back : List Char} :
    Spells (.directories :: tokens) (front ++ '/' :: back) ↔
      '\n' ∉ front ∧ Spells (.directories :: tokens) back := by
  constructor
  · rintro ⟨part, rest, pathEq, isPart, spells⟩
    have noSlash := spells.noSlash inName
    -- The slash does not belong to the name, so the directories reach behind it.
    rcases List.append_eq_append_iff.mp pathEq with ⟨more, partEq, backEq⟩ | ⟨more, _, restEq⟩
    · cases more with
      | nil =>
          rw [List.nil_append] at backEq
          exact absurd (by simp [← backEq]) noSlash
      | cons char more =>
          obtain ⟨rfl, rfl⟩ := List.cons.inj backEq
          rcases isPart with isEmpty | ⟨name, inLine, nameEq⟩
          · simp [partEq] at isEmpty
          · rw [partEq] at nameEq
            rcases List.eq_nil_or_concat' more with rfl | ⟨others, last, rfl⟩
            · obtain ⟨frontEq, _⟩ := List.append_inj' nameEq rfl
              rw [frontEq]
              exact ⟨inLine, [], rest, rfl, .inl rfl, spells⟩
            · rw [← List.cons_append, ← List.append_assoc] at nameEq
              obtain ⟨nameEq, lastEq⟩ := List.append_inj' nameEq rfl
              rw [← nameEq, List.mem_append, List.mem_cons, not_or, not_or] at inLine
              exact ⟨inLine.1, others ++ [last], rest, rfl,
                .inr ⟨others, inLine.2.2, by rw [lastEq]⟩, spells⟩
    · exact absurd (by simp [restEq]) noSlash
  · rintro ⟨inLine, part, rest, rfl, isPart, spells⟩
    refine ⟨front ++ '/' :: part, rest, by simp, .inr ?_, spells⟩
    rcases isPart with rfl | ⟨name, nameInLine, rfl⟩
    · exact ⟨front, inLine, rfl⟩
    · refine ⟨front ++ '/' :: name, ?_, by simp⟩
      simp [inLine, nameInLine]

theorem spells_intercalate_iff {tokens : List GlobToken}
    (inName : ∀ token ∈ tokens, token.InName) (directories : List (List Char))
    (name : List Char) :
    Spells (.directories :: tokens) (['/'].intercalate (directories ++ [name])) ↔
      Spells (.directories :: tokens) name ∧ ∀ directory ∈ directories, '\n' ∉ directory := by
  induction directories with
  | nil => simp
  | cons directory directories ih =>
      have joined : ['/'].intercalate (directory :: directories ++ [name]) =
          directory ++ '/' :: ['/'].intercalate (directories ++ [name]) := by
        rw [List.cons_append, List.intercalate_cons_of_ne_nil (by simp)]
        simp
      rw [joined, spells_append_slash_iff inName, ih, List.forall_mem_cons]
      exact and_left_comm

end GlobToken

namespace Discovery

/-- A path text as globs see it is put together from its segments as globs see them. -/
theorem toList_globText_joinSegments (segments : List String) :
    (globText (Path.joinSegments segments)).toList =
      ['/'].intercalate (segments.map fun segment => (globText segment).toList) := by
  rw [globText, String.toList_map, Path.joinSegments, String.toList_intercalate]
  induction segments with
  | nil => rfl
  | cons segment segments ih =>
      cases segments with
      | nil => simp [globText]
      | cons next segments =>
          simp only [List.map_cons, List.intercalate_cons_cons, List.map_append] at ih ⊢
          rw [ih]
          simp [globText]

theorem lineBreak_mem_globText {text : String} :
    '\n' ∈ (globText text).toList ↔ '\n' ∈ text.toList := by
  simp only [globText, String.toList_map, List.mem_map]
  constructor
  · rintro ⟨char, member, charEq⟩
    split at charEq
    · cases charEq
    · rwa [← charEq]
  · intro member
    exact ⟨'\n', member, rfl⟩

end Discovery

namespace Glob

theorem tokens_ofText_of_noSlash {glob : String} (noSlash : '/' ∉ glob.toList) :
    (ofText glob).tokens = .directories :: GlobToken.read glob.toList := by
  rw [ofText, if_neg noSlash]

/-- A glob without a slash and a double star matches a path exactly if it matches the
last segment and there is no line break in the directories.  The same holds of the
files that it excludes. -/
theorem matches_iff_lastSegment (glob : String) (noSlash : '/' ∉ glob.toList)
    (noDoubleStar : ¬['*', '*'] <:+: glob.toList) :
    (∀ path : Path, (ofText glob).matches path.text = true ↔
      (ofText glob).matches path.lastSegment = true ∧
        ∀ directory ∈ path.directories, '\n' ∉ directory.toList) ∧
    ∀ (directories : List String) (name : String),
      Discovery.isExcluded [ofText glob] (Path.joinSegments (directories ++ [name])) = true ↔
        Discovery.isExcluded [ofText glob] name = true ∧
          ∀ directory ∈ directories, '\n' ∉ directory.toList := by
  have inName := GlobToken.inName_of_mem_read noSlash noDoubleStar
  constructor
  · intro path
    rw [matches_iff, matches_iff, tokens_ofText_of_noSlash noSlash, path.toList_text,
      GlobToken.spells_intercalate_iff inName]
    simp
  · intro directories name
    simp only [Discovery.isExcluded, List.any_cons, List.any_nil, Bool.or_false, matches_iff,
      tokens_ofText_of_noSlash noSlash, Discovery.toList_globText_joinSegments,
      List.map_append, List.map_cons, List.map_nil, GlobToken.spells_intercalate_iff inName]
    simp [Discovery.lineBreak_mem_globText]

theorem matches_iff_lastSegment_nested :
    '/' ∉ "Gen?*.class".toList ∧ ¬['*', '*'] <:+: "Gen?*.class".toList ∧
      (ofText "Gen?*.class").matches "a/b c/Gen1.class" = true ∧
      Discovery.isExcluded [ofText "Gen?*.class"]
        (Path.joinSegments (["a", "b c"] ++ ["Gen1.class"])) = true := by
  have noSlash : '/' ∉ "Gen?*.class".toList := by decide +kernel
  have noDoubleStar : ¬['*', '*'] <:+: "Gen?*.class".toList := by decide +kernel
  obtain ⟨matchesIff, excludedIff⟩ := matches_iff_lastSegment "Gen?*.class" noSlash noDoubleStar
  refine ⟨noSlash, noDoubleStar, (matchesIff ⟨"a/b c/Gen1.class"⟩).mpr ?_,
    (excludedIff ["a", "b c"] "Gen1.class").mpr ?_⟩
  · decide +kernel
  · decide +kernel

/-- A glob for a file name does not find the file in a directory with a line break in
its name, though it matches the file name. -/
theorem not_matches_iff_lastSegment_of_lineBreak :
    (ofText "A.class").matches "x\ny/A.class" = false ∧
    (ofText "A.class").matches "A.class" = true ∧
    ¬∀ (glob : String) (path : Path), '/' ∉ glob.toList → ¬['*', '*'] <:+: glob.toList →
      ((ofText glob).matches path.text = true ↔
        (ofText glob).matches path.lastSegment = true) := by
  have hidden : (ofText "A.class").matches "x\ny/A.class" = false := by decide +kernel
  have found : (ofText "A.class").matches "A.class" = true := by decide +kernel
  refine ⟨hidden, found, ?_⟩
  intro sameAsName
  have lastEq : (Path.mk "x\ny/A.class").lastSegment = "A.class" := by decide +kernel
  have noSlash : '/' ∉ "A.class".toList := by decide +kernel
  have noDoubleStar : ¬['*', '*'] <:+: "A.class".toList := by decide +kernel
  have foundBelow := (sameAsName "A.class" ⟨"x\ny/A.class"⟩ noSlash noDoubleStar).mpr
    (by rw [lastEq]; exact found)
  rw [hidden] at foundBelow
  cases foundBelow

end Glob

end ClassLint
