/-!
# Places in a YAML document

What a character means in a YAML document depends on where it stands, so the
characters that are left are kept together with the place of the first of them.
-/

namespace ClassLint

namespace Yaml

/-! ## Characters -/

/-- Whether a character may stand in a document at all. -/
def isAllowed (char : Char) : Bool :=
  let code := char.toNat
  char = '\t' ∨ char = '\n' ∨ char = '\r' ∨ (0x20 ≤ code ∧ code ≤ 0x7E) ∨ code = 0x85 ∨
    (0xA0 ≤ code ∧ code ≤ 0xFFFD) ∨ 0x10000 ≤ code

/-- Whether a character ends a line. -/
def isBreak (char : Char) : Bool :=
  char = '\n' ∨ char = '\r' ∨ char = '\u0085' ∨ char = '\u2028' ∨ char = '\u2029'

/-- Whether a character is a blank inside a line. -/
def isBlank (char : Char) : Bool := char = ' ' ∨ char = '\t'

/-- Whether a character is a blank or ends a line. -/
def isSpace (char : Char) : Bool := isBlank char || isBreak char

/-- Whether a space or the end of the document comes next. -/
def atSpace : List Char → Bool
  | [] => true
  | char :: _ => isSpace char

/-- The content that a line end contributes.  Separators keep their identity,
all other line ends count as line feeds. -/
def breakContent (char : Char) : Char :=
  if char = '\u2028' ∨ char = '\u2029' then char else '\n'

/-- Whether a character may stand in the name of an anchor, of a directive, or
of a tag handle. -/
def isNameChar (char : Char) : Bool :=
  char.isAlphanum ∨ char = '_' ∨ char = '-'

/-- Whether the mark that begins or ends a document comes next. -/
def atDocumentMark : List Char → Bool
  | '-' :: '-' :: '-' :: rest => atSpace rest
  | '.' :: '.' :: '.' :: rest => atSpace rest
  | _ => false

/-! ## Places -/

/-- A place: how many characters come before it, in which line it lies, and how
many characters of the line come before it. -/
structure Position where
  index : Nat
  line : Nat
  column : Nat
  deriving DecidableEq, Repr

namespace Position

/-- The place after some characters of the same line. -/
def advance (position : Position) (count : Nat) : Position :=
  { position with index := position.index + count, column := position.column + count }

/-- The place after a line end of some characters. -/
def nextLine (position : Position) (count : Nat) : Position :=
  ⟨position.index + count, position.line + 1, 0⟩

end Position

/-- The characters that are left, and the place of the first of them. -/
structure Cursor where
  chars : List Char
  position : Position
  deriving DecidableEq, Repr

namespace Cursor

/-- The beginning of a document. -/
def start (chars : List Char) : Cursor := ⟨chars, ⟨0, 0, 0⟩⟩

/-- Pass over characters of the same line. -/
def drop (cursor : Cursor) (count : Nat) : Cursor :=
  ⟨cursor.chars.drop count, cursor.position.advance count⟩

/-- The longest run of characters of some class, which holds no line end, and
what follows it. -/
def span (cursor : Cursor) (belongs : Char → Bool) : List Char × Cursor :=
  let taken := cursor.chars.takeWhile belongs
  (taken, cursor.drop taken.length)

/-- Pass over characters of some class, which holds no line end. -/
def dropWhile (cursor : Cursor) (belongs : Char → Bool) : Cursor :=
  (cursor.span belongs).2

/-- Pass over a line end, if one comes next. -/
def dropBreak (cursor : Cursor) : Cursor :=
  match cursor.chars with
  | '\r' :: '\n' :: rest => ⟨rest, cursor.position.nextLine 2⟩
  | char :: rest =>
      if isBreak char then ⟨rest, cursor.position.nextLine 1⟩ else cursor
  | [] => cursor

/-- Pass over the rest of a line, which holds only blanks and a comment. -/
def endLine? (cursor : Cursor) : Option Cursor :=
  let blankless := cursor.dropWhile isBlank
  let last :=
    match blankless.chars with
    | '#' :: _ => blankless.dropWhile fun char => !isBreak char
    | _ => blankless
  match last.chars with
  | [] => some last
  | char :: _ => if isBreak char then some last.dropBreak else none

end Cursor

end Yaml

end ClassLint
