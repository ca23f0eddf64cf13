import Mathlib.Data.List.Basic

/-!
# Regular expressions

The pattern of a glob is a text in the common notation for regular expressions.
This file reads the part of the notation that such patterns use, and says what
it means: characters that stand for themselves, with a backslash where they need
one, `.`, a class `[^c]`, groups `(?:…)`, the two marks `*` and `?` after what they
repeat or make optional, and `^` and `$` for the two ends of a text.  A text with
any other construct is not read.
-/

namespace ClassLint

inductive Regex where
  | empty
  | literal (char : Char)
  /-- Any character but a line break. -/
  | anyChar
  /-- Any character but one. -/
  | otherThan (char : Char)
  | textStart
  | textEnd
  | sequence (first second : Regex)
  | star (inner : Regex)
  | optional (inner : Regex)
  deriving DecidableEq, Repr

namespace Regex

/-- A sign of the notation. -/
inductive Sign where
  | literal (char : Char)
  | anyChar
  | otherThan (char : Char)
  | textStart
  | textEnd
  | star
  | optional
  | openGroup
  | closeGroup
  deriving DecidableEq, Repr

namespace Sign

/-- The characters that a backslash turns into themselves. -/
def escapable : List Char :=
  ['\\', '.', '+', '*', '?', '(', ')', '|', '[', ']', '{', '}', '^', '$', '#', '&', '-', '~']

/-- The sign that a character is on its own.  The characters that only start a
longer sign are none, and those of constructs that are not read are none. -/
def ofChar? : Char → Option Sign
  | '.' => some .anyChar
  | '^' => some .textStart
  | '$' => some .textEnd
  | '*' => some .star
  | '?' => some .optional
  | ')' => some .closeGroup
  | '\\' => none
  | '(' => none
  | '[' => none
  | '{' => none
  | '+' => none
  | '|' => none
  | char => some (.literal char)

def readAll : List Char → Option (List Sign)
  | [] => some []
  | '\\' :: char :: chars =>
      if escapable.contains char then (readAll chars).map (.literal char :: ·) else none
  | '(' :: '?' :: ':' :: chars => (readAll chars).map (.openGroup :: ·)
  | '[' :: '^' :: char :: ']' :: chars =>
      if escapable.contains char then none else (readAll chars).map (.otherThan char :: ·)
  | char :: chars => (ofChar? char).bind fun sign => (readAll chars).map (sign :: ·)

/-- A character that is a sign on its own does not depend on what follows. -/
theorem readAll_cons {char : Char} {sign : Sign} (signEq : ofChar? char = some sign)
    (chars : List Char) : readAll (char :: chars) = (readAll chars).map (sign :: ·) := by
  rw [readAll]
  · rw [signEq]
    rfl
  · rintro next rest rfl
    cases signEq
  · rintro rest rfl
    cases signEq
  · rintro excluded rest rfl
    cases signEq

theorem readAll_escaped {char : Char} (isEscapable : char ∈ escapable) (chars : List Char) :
    readAll ('\\' :: char :: chars) = (readAll chars).map (.literal char :: ·) := by
  rw [readAll, if_pos (List.elem_iff.mpr isEscapable)]

/-- A character that needs no backslash stands for itself. -/
theorem ofChar?_eq_literal {char : Char} (ordinary : char ∉ escapable) :
    ofChar? char = some (.literal char) := by
  unfold ofChar?
  split
  case h_13 => rfl
  all_goals exact absurd (by decide) ordinary

end Sign

def ofItems (items : List Regex) : Regex :=
  items.foldr .sequence .empty

/-- Read signs, after the items found so far in the open group and in those around
it (latest first).  A mark belongs to the item in front of it. -/
def readSigns : List (List Regex) → List Regex → List Sign → Option Regex
  | [], items, [] => some (ofItems items.reverse)
  | _ :: _, _, [] => none
  | groups, items, .literal char :: signs => readSigns groups (.literal char :: items) signs
  | groups, items, .anyChar :: signs => readSigns groups (.anyChar :: items) signs
  | groups, items, .otherThan char :: signs => readSigns groups (.otherThan char :: items) signs
  | groups, items, .textStart :: signs => readSigns groups (.textStart :: items) signs
  | groups, items, .textEnd :: signs => readSigns groups (.textEnd :: items) signs
  | groups, item :: items, .star :: signs => readSigns groups (.star item :: items) signs
  | _, [], .star :: _ => none
  | groups, item :: items, .optional :: signs => readSigns groups (.optional item :: items) signs
  | _, [], .optional :: _ => none
  | groups, items, .openGroup :: signs => readSigns (items :: groups) [] signs
  | outer :: groups, items, .closeGroup :: signs =>
      readSigns groups (ofItems items.reverse :: outer) signs
  | [], _, .closeGroup :: _ => none

/-- Read a regular expression. -/
def read (text : String) : Option Regex :=
  (Sign.readAll text.toList).bind (readSigns [] [])

/-- A regular expression matches a part of a text that stands between two others. -/
inductive Spans : Regex → List Char → List Char → List Char → Prop
  | empty {before after : List Char} : Spans .empty before [] after
  | literal {char : Char} {before after : List Char} : Spans (.literal char) before [char] after
  | anyChar {char : Char} {before after : List Char} (inLine : char ≠ '\n') :
      Spans .anyChar before [char] after
  | otherThan {excluded char : Char} {before after : List Char} (differs : char ≠ excluded) :
      Spans (.otherThan excluded) before [char] after
  | textStart {after : List Char} : Spans .textStart [] [] after
  | textEnd {before : List Char} : Spans .textEnd before [] []
  | sequence {first second : Regex} {before left right after : List Char}
      (spansFirst : Spans first before left (right ++ after))
      (spansSecond : Spans second (before ++ left) right after) :
      Spans (.sequence first second) before (left ++ right) after
  | starDone {inner : Regex} {before after : List Char} : Spans (.star inner) before [] after
  | starMore {inner : Regex} {before left right after : List Char}
      (spansInner : Spans inner before left (right ++ after))
      (spansStar : Spans (.star inner) (before ++ left) right after) :
      Spans (.star inner) before (left ++ right) after
  | skipped {inner : Regex} {before after : List Char} : Spans (.optional inner) before [] after
  | present {inner : Regex} {before part after : List Char}
      (spansInner : Spans inner before part after) :
      Spans (.optional inner) before part after

/-- A regular expression is found in a text when it matches some part of it. -/
def FoundIn (regex : Regex) (text : String) : Prop :=
  ∃ before part after, text.toList = before ++ part ++ after ∧ regex.Spans before part after

section Parts

variable {before part after : List Char}

theorem spans_empty_iff : empty.Spans before part after ↔ part = [] := by
  constructor
  · intro spans
    cases spans
    rfl
  · rintro rfl
    exact .empty

theorem spans_literal_iff {char : Char} :
    (literal char).Spans before part after ↔ part = [char] := by
  constructor
  · intro spans
    cases spans
    rfl
  · rintro rfl
    exact .literal

theorem spans_anyChar_iff :
    anyChar.Spans before part after ↔ ∃ char, char ≠ '\n' ∧ part = [char] := by
  constructor
  · intro spans
    cases spans with
    | anyChar inLine => exact ⟨_, inLine, rfl⟩
  · rintro ⟨char, inLine, rfl⟩
    exact .anyChar inLine

theorem spans_otherThan_iff {excluded : Char} :
    (otherThan excluded).Spans before part after ↔
      ∃ char, char ≠ excluded ∧ part = [char] := by
  constructor
  · intro spans
    cases spans with
    | otherThan differs => exact ⟨_, differs, rfl⟩
  · rintro ⟨char, differs, rfl⟩
    exact .otherThan differs

theorem spans_textStart_iff : textStart.Spans before part after ↔ before = [] ∧ part = [] := by
  constructor
  · intro spans
    cases spans
    exact ⟨rfl, rfl⟩
  · rintro ⟨rfl, rfl⟩
    exact .textStart

theorem spans_textEnd_iff : textEnd.Spans before part after ↔ part = [] ∧ after = [] := by
  constructor
  · intro spans
    cases spans
    exact ⟨rfl, rfl⟩
  · rintro ⟨rfl, rfl⟩
    exact .textEnd

theorem spans_sequence_iff {first second : Regex} :
    (sequence first second).Spans before part after ↔
      ∃ left right, part = left ++ right ∧ first.Spans before left (right ++ after) ∧
        second.Spans (before ++ left) right after := by
  constructor
  · intro spans
    cases spans with
    | sequence spansFirst spansSecond => exact ⟨_, _, rfl, spansFirst, spansSecond⟩
  · rintro ⟨left, right, rfl, spansFirst, spansSecond⟩
    exact .sequence spansFirst spansSecond

theorem spans_optional_iff {inner : Regex} :
    (optional inner).Spans before part after ↔ part = [] ∨ inner.Spans before part after := by
  constructor
  · intro spans
    cases spans with
    | skipped => exact .inl rfl
    | present spansInner => exact .inr spansInner
  · rintro (rfl | spansInner)
    · exact .skipped
    · exact .present spansInner

/-- To repeat what matches one character of some kind is to match characters of that
kind. -/
theorem spans_star_iff {inner : Regex} {allowed : Char → Prop}
    (single : ∀ {before part after}, inner.Spans before part after ↔
      ∃ char, allowed char ∧ part = [char]) :
    (star inner).Spans before part after ↔ ∀ char ∈ part, allowed char := by
  constructor
  · -- The induction is on the match, so the expression is first made a variable.
    generalize regexEq : star inner = regex
    intro spans
    induction spans with
    | starDone => simp
    | starMore spansInner _ _ ih =>
        cases regexEq
        obtain ⟨char, charAllowed, rfl⟩ := single.mp spansInner
        simpa using ⟨charAllowed, ih rfl⟩
    | _ => cases regexEq
  · intro allAllowed
    induction part generalizing before with
    | nil => exact .starDone
    | cons char chars ih =>
        rw [List.forall_mem_cons] at allAllowed
        have spansInner : inner.Spans before [char] (chars ++ after) :=
          single.mpr ⟨char, allAllowed.1, rfl⟩
        exact .starMore spansInner (ih allAllowed.2)

end Parts

end Regex

end ClassLint
