import ClassLint.Glob
import ClassLint.Proofs.RegexNotation

/-!
# The language of a glob

A glob is read from left to right, and each of its tokens stands for some words.
This file shows that the pattern of a glob, read as a regular expression, matches
a path exactly if the path is put together from such words.  The wildcards are the
only characters of a glob that become operators of the pattern.
-/

namespace ClassLint

/-- Nothing, or a text without line breaks that ends in a slash. -/
def IsDirectoryPart (part : List Char) : Prop :=
  part = [] ∨ ∃ name, '\n' ∉ name ∧ part = name ++ ['/']

namespace Glob

/-- The characters of a glob denote a path.  Two stars and a slash belong together,
and so do two stars. -/
inductive Denotes : List Char → List Char → Prop
  | done : Denotes [] []
  | directories {glob part path : List Char} (isPart : IsDirectoryPart part)
      (denotes : Denotes glob path) : Denotes ('*' :: '*' :: '/' :: glob) (part ++ path)
  | anything {glob part path : List Char} (noSlash : glob.head? ≠ some '/')
      (inLine : '\n' ∉ part) (denotes : Denotes glob path) :
      Denotes ('*' :: '*' :: glob) (part ++ path)
  | segment {glob part path : List Char} (noStar : glob.head? ≠ some '*')
      (inSegment : '/' ∉ part) (denotes : Denotes glob path) :
      Denotes ('*' :: glob) (part ++ path)
  | character {glob path : List Char} {char : Char} (inSegment : char ≠ '/')
      (denotes : Denotes glob path) : Denotes ('?' :: glob) (char :: path)
  | literal {glob path : List Char} {char : Char} (noStar : char ≠ '*') (noMark : char ≠ '?')
      (denotes : Denotes glob path) : Denotes (char :: glob) (char :: path)

/-- A path is in the language of a glob.  A glob without a slash may follow any
directories. -/
def Accepts (glob path : String) : Prop :=
  if '/' ∈ glob.toList then Denotes glob.toList path.toList
  else ∃ part rest, IsDirectoryPart part ∧ path.toList = part ++ rest ∧
    Denotes glob.toList rest

end Glob

namespace GlobToken

/-- The words that a token stands for. -/
def Covers : GlobToken → List Char → Prop
  | .directories, word => IsDirectoryPart word
  | .anything, word => '\n' ∉ word
  | .segment, word => '/' ∉ word
  | .character, word => ∃ char, char ≠ '/' ∧ word = [char]
  | .literal char, word => word = [char]

/-- A path is put together from words of the tokens. -/
def Spells : List GlobToken → List Char → Prop
  | [], path => path = []
  | token :: tokens, path =>
      ∃ word rest, path = word ++ rest ∧ token.Covers word ∧ Spells tokens rest

theorem spells_read_of_denotes {glob path : List Char} (denotes : Glob.Denotes glob path) :
    Spells (read glob) path := by
  induction denotes with
  | done => exact rfl
  | directories isPart _ ih => exact ⟨_, _, rfl, isPart, ih⟩
  | @anything glob part path noSlash inLine _ ih =>
      have readEq : read ('*' :: '*' :: glob) = .anything :: read glob := by
        cases glob <;> simp_all [read]
      rw [readEq]
      exact ⟨part, path, rfl, inLine, ih⟩
  | @segment glob part path noStar inSegment _ ih =>
      have readEq : read ('*' :: glob) = .segment :: read glob := by
        cases glob <;> simp_all [read]
      rw [readEq]
      exact ⟨part, path, rfl, inSegment, ih⟩
  | @character glob path char inSegment _ ih =>
      exact ⟨[char], path, rfl, ⟨char, inSegment, rfl⟩, ih⟩
  | @literal glob path char noStar noMark _ ih =>
      have readEq : read (char :: glob) = .literal char :: read glob := by
        simp_all [read]
      rw [readEq]
      exact ⟨[char], path, rfl, rfl, ih⟩

theorem denotes_of_spells_read {glob path : List Char} (spells : Spells (read glob) path) :
    Glob.Denotes glob path := by
  fun_induction read glob generalizing path with
  | case1 =>
      rw [show path = [] from spells]
      exact .done
  | case2 glob ih =>
      obtain ⟨part, rest, rfl, isPart, spellsRest⟩ := spells
      exact .directories isPart (ih spellsRest)
  | case3 glob noSlash ih =>
      obtain ⟨part, rest, rfl, inLine, spellsRest⟩ := spells
      refine .anything ?_ inLine (ih spellsRest)
      rw [Ne, List.head?_eq_some_iff]
      rintro ⟨tail, rfl⟩
      exact noSlash tail rfl
  | case4 glob _ noStar ih =>
      obtain ⟨part, rest, rfl, inSegment, spellsRest⟩ := spells
      refine .segment ?_ inSegment (ih spellsRest)
      rw [Ne, List.head?_eq_some_iff]
      rintro ⟨tail, rfl⟩
      exact noStar tail rfl
  | case5 glob ih =>
      obtain ⟨_, rest, rfl, ⟨char, inSegment, rfl⟩, spellsRest⟩ := spells
      exact .character inSegment (ih spellsRest)
  | case6 char glob _ _ noStar noMark ih =>
      obtain ⟨_, rest, rfl, rfl, spellsRest⟩ := spells
      exact .literal noStar noMark (ih spellsRest)

theorem denotes_iff_spells_read {glob path : List Char} :
    Glob.Denotes glob path ↔ Spells (read glob) path :=
  ⟨spells_read_of_denotes, denotes_of_spells_read⟩

/-- The signs of the pattern of a token. -/
def signs : GlobToken → List Regex.Sign
  | .directories => [.openGroup, .anyChar, .star, .literal '/', .closeGroup, .optional]
  | .anything => [.anyChar, .star]
  | .segment => [.otherThan '/', .star]
  | .character => [.otherThan '/']
  | .literal char => [.literal char]

/-- A token as a regular expression. -/
def regex : GlobToken → Regex
  | .directories => .optional (.ofItems [.star .anyChar, .literal '/'])
  | .anything => .star .anyChar
  | .segment => .star (.otherThan '/')
  | .character => .otherThan '/'
  | .literal char => .literal char

theorem readAll_escape (char : Char) (rest : List Char) :
    Regex.Sign.readAll (escape char ++ rest) =
      (Regex.Sign.readAll rest).map (.literal char :: ·) := by
  by_cases special : char ∈ metacharacters
  · rw [escape, if_pos special]
    exact Regex.Sign.readAll_escaped special rest
  · rw [escape, if_neg special]
    exact Regex.Sign.readAll_cons (Regex.Sign.ofChar?_eq_literal special) rest

/-- Each token of a glob is read back from its pattern, whatever follows. -/
theorem readAll_pattern (token : GlobToken) (rest : List Char) :
    Regex.Sign.readAll (token.pattern ++ rest) =
      (Regex.Sign.readAll rest).map (token.signs ++ ·) := by
  have readDot (chars : List Char) : Regex.Sign.readAll ('.' :: chars) =
      (Regex.Sign.readAll chars).map (.anyChar :: ·) := Regex.Sign.readAll_cons rfl chars
  have readStar (chars : List Char) : Regex.Sign.readAll ('*' :: chars) =
      (Regex.Sign.readAll chars).map (.star :: ·) := Regex.Sign.readAll_cons rfl chars
  have readClass (chars : List Char) : Regex.Sign.readAll ('[' :: '^' :: '/' :: ']' :: chars) =
      (Regex.Sign.readAll chars).map (.otherThan '/' :: ·) := rfl
  cases token with
  | directories =>
      change Regex.Sign.readAll ('(' :: '?' :: ':' :: '.' :: '*' :: '/' :: ')' :: '?' :: rest) = _
      have readOpen (chars : List Char) : Regex.Sign.readAll ('(' :: '?' :: ':' :: chars) =
          (Regex.Sign.readAll chars).map (.openGroup :: ·) := rfl
      have readSlash (chars : List Char) : Regex.Sign.readAll ('/' :: chars) =
          (Regex.Sign.readAll chars).map (.literal '/' :: ·) := Regex.Sign.readAll_cons rfl chars
      have readClose (chars : List Char) : Regex.Sign.readAll (')' :: chars) =
          (Regex.Sign.readAll chars).map (.closeGroup :: ·) := Regex.Sign.readAll_cons rfl chars
      have readMark (chars : List Char) : Regex.Sign.readAll ('?' :: chars) =
          (Regex.Sign.readAll chars).map (.optional :: ·) := Regex.Sign.readAll_cons rfl chars
      rw [readOpen, readDot, readStar, readSlash, readClose, readMark]
      simp only [Option.map_map, Function.comp_def, signs, List.cons_append, List.nil_append]
  | anything =>
      change Regex.Sign.readAll ('.' :: '*' :: rest) = _
      rw [readDot, readStar]
      simp only [Option.map_map, Function.comp_def, signs, List.cons_append, List.nil_append]
  | segment =>
      change Regex.Sign.readAll ('[' :: '^' :: '/' :: ']' :: '*' :: rest) = _
      rw [readClass, readStar]
      simp only [Option.map_map, Function.comp_def, signs, List.cons_append, List.nil_append]
  | character => exact readClass rest
  | literal char => exact readAll_escape char rest

theorem readAll_flatMap_pattern (tokens : List GlobToken) (rest : List Char) :
    Regex.Sign.readAll (tokens.flatMap pattern ++ rest) =
      (Regex.Sign.readAll rest).map (tokens.flatMap signs ++ ·) := by
  induction tokens with
  | nil => simp
  | cons token tokens ih =>
      rw [List.flatMap_cons, List.append_assoc, readAll_pattern, ih, Option.map_map]
      simp only [Function.comp_def, List.flatMap_cons, List.append_assoc]

theorem readSigns_signs (token : GlobToken) (groups : List (List Regex)) (items : List Regex)
    (rest : List Regex.Sign) :
    Regex.readSigns groups items (token.signs ++ rest) =
      Regex.readSigns groups (token.regex :: items) rest := by
  cases token <;> simp [signs, regex, Regex.readSigns]

theorem readSigns_flatMap_signs (tokens : List GlobToken) (groups : List (List Regex))
    (items : List Regex) (rest : List Regex.Sign) :
    Regex.readSigns groups items (tokens.flatMap signs ++ rest) =
      Regex.readSigns groups ((tokens.map regex).reverse ++ items) rest := by
  induction tokens generalizing items with
  | nil => rfl
  | cons token tokens ih =>
      rw [List.flatMap_cons, List.append_assoc, readSigns_signs, ih]
      simp

private theorem forall_ne_iff {excluded : Char} {part : List Char} :
    (∀ char ∈ part, char ≠ excluded) ↔ excluded ∉ part := by
  constructor
  · intro differs member
    exact differs excluded member rfl
  · rintro absent char member rfl
    exact absent member

/-- A token matches its words wherever they stand. -/
theorem spans_regex_iff (token : GlobToken) {before part after : List Char} :
    token.regex.Spans before part after ↔ token.Covers part := by
  cases token with
  | directories =>
      simp only [regex, Covers, IsDirectoryPart, Regex.ofItems, List.foldr_cons, List.foldr_nil,
        Regex.spans_optional_iff, Regex.spans_sequence_iff, Regex.spans_literal_iff,
        Regex.spans_empty_iff, Regex.spans_star_iff Regex.spans_anyChar_iff, forall_ne_iff]
      refine or_congr_right ?_
      constructor
      · rintro ⟨name, _, rfl, inLine, _, _, rfl, rfl, rfl⟩
        exact ⟨name, inLine, rfl⟩
      · rintro ⟨name, inLine, rfl⟩
        exact ⟨name, ['/'], rfl, inLine, ['/'], [], rfl, rfl, rfl⟩
  | anything =>
      rw [regex, Regex.spans_star_iff Regex.spans_anyChar_iff, forall_ne_iff]
      exact Iff.rfl
  | segment =>
      rw [regex, Regex.spans_star_iff Regex.spans_otherThan_iff, forall_ne_iff]
      exact Iff.rfl
  | character => exact Regex.spans_otherThan_iff
  | literal char => exact Regex.spans_literal_iff

/-- Tokens up to the end of the text match what they spell. -/
theorem spans_ofItems_iff (tokens : List GlobToken) {before part after : List Char} :
    (Regex.ofItems (tokens.map regex ++ [.textEnd])).Spans before part after ↔
      after = [] ∧ Spells tokens part := by
  induction tokens generalizing before part with
  | nil =>
      simp only [List.map_nil, List.nil_append, Regex.ofItems, List.foldr_cons, List.foldr_nil,
        Regex.spans_sequence_iff, Regex.spans_textEnd_iff, Regex.spans_empty_iff, Spells]
      constructor
      · rintro ⟨_, _, rfl, ⟨rfl, afterEq⟩, rfl⟩
        exact ⟨by simpa using afterEq, rfl⟩
      · rintro ⟨rfl, rfl⟩
        exact ⟨[], [], rfl, ⟨rfl, rfl⟩, rfl⟩
  | cons token tokens ih =>
      have itemsEq : Regex.ofItems ((token :: tokens).map regex ++ [.textEnd]) =
          .sequence token.regex (.ofItems (tokens.map regex ++ [.textEnd])) := rfl
      rw [itemsEq, Regex.spans_sequence_iff]
      simp only [spans_regex_iff, ih, Spells]
      constructor
      · rintro ⟨word, rest, rfl, covers, rfl, spells⟩
        exact ⟨rfl, word, rest, rfl, covers, spells⟩
      · rintro ⟨rfl, word, rest, rfl, covers, spells⟩
        exact ⟨word, rest, rfl, covers, rfl, spells⟩

theorem covers_nil_iff {token : GlobToken} : token.Covers [] ↔ token.isOptional = true := by
  cases token <;> simp [Covers, isOptional, IsDirectoryPart]

theorem spells_nil_iff {tokens : List GlobToken} :
    Spells tokens [] ↔ tokens.all isOptional = true := by
  induction tokens with
  | nil => simp [Spells]
  | cons token tokens ih =>
      rw [List.all_cons, Bool.and_eq_true, ← covers_nil_iff, ← ih, Spells]
      constructor
      · rintro ⟨word, rest, pathEq, covers, spells⟩
        obtain ⟨rfl, rfl⟩ := List.append_eq_nil_iff.mp pathEq.symm
        exact ⟨covers, spells⟩
      · rintro ⟨covers, spells⟩
        exact ⟨[], [], rfl, covers, spells⟩

/-- The word of a token starts with a character, and the tokens after it spell what
is left. -/
def Starts (token : GlobToken) (tokens : List GlobToken) (char : Char) (chars : List Char) :
    Prop :=
  ∃ word rest, chars = word ++ rest ∧ token.Covers (char :: word) ∧ Spells tokens rest

theorem spells_cons_cons_iff {token : GlobToken} {tokens : List GlobToken} {char : Char}
    {chars : List Char} :
    Spells (token :: tokens) (char :: chars) ↔
      token.Starts tokens char chars ∨
        (token.isOptional = true ∧ Spells tokens (char :: chars)) := by
  rw [← covers_nil_iff]
  constructor
  · rintro ⟨word, rest, pathEq, covers, spells⟩
    cases word with
    | nil =>
        rw [List.nil_append] at pathEq
        rw [← pathEq] at spells
        exact .inr ⟨covers, spells⟩
    | cons first word =>
        obtain ⟨rfl, rfl⟩ := List.cons.inj pathEq
        exact .inl ⟨word, rest, rfl, covers, spells⟩
  · rintro (⟨word, rest, rfl, covers, spells⟩ | ⟨covers, spells⟩)
    · exact ⟨char :: word, rest, rfl, covers, spells⟩
    · exact ⟨[], char :: chars, rfl, covers, spells⟩

theorem isDirectoryPart_cons_iff {char : Char} {part : List Char} :
    IsDirectoryPart (char :: part) ↔
      (char ≠ '\n' ∧ ∃ name, '\n' ∉ name ∧ part = name ++ ['/']) ∨ (char = '/' ∧ part = []) := by
  constructor
  · rintro (impossible | ⟨name, inLine, partEq⟩)
    · cases impossible
    · cases name with
      | nil =>
          obtain ⟨rfl, rfl⟩ := List.cons.inj partEq
          exact .inr ⟨rfl, rfl⟩
      | cons first name =>
          obtain ⟨rfl, rfl⟩ := List.cons.inj partEq
          rw [List.mem_cons, not_or] at inLine
          exact .inl ⟨Ne.symm inLine.1, name, inLine.2, rfl⟩
  · rintro (⟨inLine, name, nameInLine, rfl⟩ | ⟨rfl, rfl⟩)
    · refine .inr ⟨char :: name, ?_, rfl⟩
      rw [List.mem_cons, not_or]
      exact ⟨Ne.symm inLine, nameInLine⟩
    · exact .inr ⟨[], by simp, rfl⟩

theorem starts_directories_iff {tokens : List GlobToken} {char : Char} {chars : List Char} :
    directories.Starts tokens char chars ↔
      (char ≠ '\n' ∧ Spells (.anything :: .literal '/' :: tokens) chars) ∨
        (char = '/' ∧ Spells tokens chars) := by
  simp only [Starts, Covers, isDirectoryPart_cons_iff]
  constructor
  · rintro ⟨_, rest, rfl, ⟨inLine, name, nameInLine, rfl⟩ | ⟨rfl, rfl⟩, spells⟩
    · refine .inl ⟨inLine, name, '/' :: rest, by simp, nameInLine, ?_⟩
      exact ⟨['/'], rest, rfl, rfl, spells⟩
    · exact .inr ⟨rfl, spells⟩
  · rintro (⟨inLine, name, _, rfl, nameInLine, _, rest, rfl, rfl, spells⟩ | ⟨rfl, spells⟩)
    · exact ⟨name ++ ['/'], rest, by simp, .inl ⟨inLine, name, nameInLine, rfl⟩, spells⟩
    · exact ⟨[], chars, rfl, .inr ⟨rfl, rfl⟩, spells⟩

/-- A token for all words without one character goes on after any other. -/
theorem starts_iff_of_excludes {token : GlobToken} {excluded : Char}
    (covers_iff : ∀ word, token.Covers word ↔ excluded ∉ word) {tokens : List GlobToken}
    {char : Char} {chars : List Char} :
    token.Starts tokens char chars ↔ char ≠ excluded ∧ Spells (token :: tokens) chars := by
  simp only [Starts, Spells, covers_iff, List.mem_cons, not_or]
  constructor
  · rintro ⟨word, rest, charsEq, ⟨differs, absent⟩, spells⟩
    exact ⟨Ne.symm differs, word, rest, charsEq, absent, spells⟩
  · rintro ⟨differs, word, rest, charsEq, absent, spells⟩
    exact ⟨word, rest, charsEq, ⟨Ne.symm differs, absent⟩, spells⟩

/-- What tokens spell after a character is spelled by one of the token sequences
that may be left. -/
theorem spells_cons_iff {tokens : List GlobToken} {char : Char} {chars : List Char} :
    Spells tokens (char :: chars) ↔ ∃ left ∈ advance char tokens, Spells left chars := by
  induction tokens with
  | nil => simp [Spells, advance]
  | cons token tokens ih =>
      rw [spells_cons_cons_iff, ih]
      -- The last of the sequences in `advance` are those in which the token is skipped.
      cases token with
      | directories =>
          rw [starts_directories_iff]
          simp [advance, isOptional, or_and_right, exists_or, or_assoc]
      | anything =>
          rw [starts_iff_of_excludes fun _ => Iff.rfl]
          simp [advance, isOptional, or_and_right, exists_or]
      | segment =>
          rw [starts_iff_of_excludes fun _ => Iff.rfl]
          simp [advance, isOptional, or_and_right, exists_or]
      | character => simp [advance, isOptional, Starts, Covers]
      | literal expected => simp [advance, isOptional, Starts, Covers]

end GlobToken

namespace Glob

/-- A glob as a regular expression. -/
def regex (glob : Glob) : Regex :=
  .ofItems (.textStart :: (glob.tokens.map GlobToken.regex ++ [.textEnd]))

theorem read_pattern (glob : Glob) : Regex.read glob.pattern = some glob.regex := by
  have readStart (chars : List Char) : Regex.Sign.readAll ('^' :: chars) =
      (Regex.Sign.readAll chars).map (.textStart :: ·) := Regex.Sign.readAll_cons rfl chars
  have readEnd : Regex.Sign.readAll ['$'] = some [.textEnd] := rfl
  rw [Regex.read, pattern, String.toList_ofList, readStart, GlobToken.readAll_flatMap_pattern,
    readEnd]
  simp only [Option.map_some, Option.bind_some, Regex.readSigns]
  rw [GlobToken.readSigns_flatMap_signs]
  simp [Regex.readSigns, regex]

theorem foundIn_regex_iff (glob : Glob) (path : String) :
    glob.regex.FoundIn path ↔ GlobToken.Spells glob.tokens path.toList := by
  have regexEq : glob.regex =
      .sequence .textStart (.ofItems (glob.tokens.map GlobToken.regex ++ [.textEnd])) := rfl
  simp only [Regex.FoundIn, regexEq, Regex.spans_sequence_iff, Regex.spans_textStart_iff,
    GlobToken.spans_ofItems_iff]
  constructor
  · rintro ⟨_, _, _, pathEq, _, part, rfl, ⟨rfl, rfl⟩, rfl, spells⟩
    rw [pathEq]
    simpa using spells
  · intro spells
    exact ⟨[], path.toList, [], by simp, [], path.toList, rfl, ⟨rfl, rfl⟩, rfl, spells⟩

theorem anyMatches_iff {alternatives : List (List GlobToken)} {path : List Char} :
    anyMatches alternatives path = true ↔
      ∃ tokens ∈ alternatives, GlobToken.Spells tokens path := by
  induction path generalizing alternatives with
  | nil => simp only [anyMatches, List.any_eq_true, GlobToken.spells_nil_iff]
  | cons char chars ih =>
      simp only [anyMatches, ih, List.mem_eraseDups, List.mem_flatMap,
        GlobToken.spells_cons_iff]
      -- Alternatives that occur twice are dropped, which changes no membership.
      constructor
      · rintro ⟨left, ⟨tokens, member, advanced⟩, spells⟩
        exact ⟨tokens, member, left, advanced, spells⟩
      · rintro ⟨tokens, member, left, advanced, spells⟩
        exact ⟨left, ⟨tokens, member, advanced⟩, spells⟩

theorem matches_iff (glob : Glob) (path : String) :
    glob.matches path = true ↔ GlobToken.Spells glob.tokens path.toList := by
  simp [«matches», anyMatches_iff]

theorem accepts_iff (glob path : String) :
    Accepts glob path ↔ GlobToken.Spells (ofText glob).tokens path.toList := by
  unfold Accepts ofText
  split
  · exact GlobToken.denotes_iff_spells_read
  · simp only [GlobToken.denotes_iff_spells_read]
    constructor
    · rintro ⟨part, rest, isPart, pathEq, spells⟩
      exact ⟨part, rest, pathEq, isPart, spells⟩
    · rintro ⟨part, rest, pathEq, isPart, spells⟩
      exact ⟨part, rest, isPart, pathEq, spells⟩

/-- The pattern of a glob is a regular expression, in which only the wildcards of
the glob are operators.  It is found in exactly those paths that are in the language
of the glob, and these are the paths that the glob matches. -/
theorem pattern_denotes (glob path : String) :
    Regex.read (ofText glob).pattern = some (ofText glob).regex ∧
      ((ofText glob).regex.FoundIn path ↔ Accepts glob path) ∧
      ((ofText glob).matches path = true ↔ Accepts glob path) := by
  refine ⟨read_pattern _, ?_, ?_⟩
  · rw [foundIn_regex_iff, accepts_iff]
  · rw [matches_iff, accepts_iff]

example : (ofText "a.**/?*").pattern = "^a\\.(?:.*/)?[^/][^/]*$" := by decide +kernel

end Glob

end ClassLint
