import ClassLint.Document.Yaml.Cursor
import ClassLint.Text.Digits

/-!
# YAML scalars

A scalar is written plainly, between quotes, or as a block of indented lines.
Plain and quoted scalars may run over several lines.  A single line end inside
them counts as a blank, and of several line ends in a row the first is dropped.
Each reader goes through the characters once.
-/

namespace ClassLint

namespace Yaml

/-- How a scalar is written. -/
inductive ScalarStyle where
  | plain
  | quoted
  | literal
  | folded
  deriving DecidableEq, Repr

/-- Content that has been read, latest first, and spaces after it that count
only if more content follows. -/
structure Folding where
  content : List Char
  /-- Blanks before the first line end, latest first. -/
  blanks : List Char
  /-- Whether a line end has been passed. -/
  broken : Bool
  /-- The first line end, unless it was escaped. -/
  firstBreak : Option Char
  /-- Further line ends, latest first. -/
  laterBreaks : List Char
  deriving DecidableEq, Repr

namespace Folding

/-- Nothing has been read. -/
def empty : Folding := ⟨[], [], false, none, []⟩

/-- Take a blank.  Blanks at the beginning of a line do not count. -/
def blank (folding : Folding) (char : Char) : Folding :=
  if folding.broken then folding else { folding with blanks := char :: folding.blanks }

/-- Take a line end. -/
def lineBreak (folding : Folding) (char : Char) : Folding :=
  if folding.broken then
    { folding with laterBreaks := breakContent char :: folding.laterBreaks }
  else
    { folding with blanks := [], broken := true, firstBreak := some (breakContent char) }

/-- Take an escaped line end. -/
def escapedBreak (folding : Folding) : Folding :=
  { folding with broken := true }

/-- The content with the spaces after it. -/
def joined (folding : Folding) : List Char :=
  if folding.broken then
    match folding.firstBreak with
    | some '\n' =>
        if folding.laterBreaks = [] then ' ' :: folding.content
        else folding.laterBreaks ++ folding.content
    | some separator => folding.laterBreaks ++ separator :: folding.content
    | none => folding.laterBreaks ++ folding.content
  else folding.blanks ++ folding.content

/-- Take a character of the content, with the spaces before it. -/
def take (folding : Folding) (char : Char) : Folding :=
  { empty with content := char :: folding.joined }

/-- Count the spaces that have been read. -/
def join (folding : Folding) : Folding :=
  { empty with content := folding.joined }

/-- Whether there are spaces that have not been counted. -/
def hasSpaces (folding : Folding) : Bool :=
  folding.broken || !folding.blanks.isEmpty

end Folding

/-! ## Plain scalars -/

/-- Whether a character delimits values between brackets or braces. -/
def isFlowIndicator (char : Char) : Bool :=
  char = ',' ∨ char = '[' ∨ char = ']' ∨ char = '\x7b' ∨ char = '\x7d'

/-- Whether a plain scalar ends before the characters that are left, the first
of which is no space. -/
def endsPlain (inFlow : Bool) : List Char → Bool
  | [] => true
  | ':' :: rest => atSpace rest
  | char :: _ => inFlow && isFlowIndicator char

/-- Whether a colon stands before an indicator, which no plain scalar between
brackets or braces may hold. -/
def isMisplacedColon (inFlow : Bool) : List Char → Bool
  | ':' :: char :: _ => inFlow && (isFlowIndicator char || char = '?')
  | _ => false

/-- A plain scalar: its content, whether a line end follows it, and what is
left. -/
structure PlainScalar where
  content : String
  broken : Bool
  cursor : Cursor

/-- Read a plain scalar, whose lines after the first are indented by `indent`
characters at least. -/
def plainFrom (inFlow : Bool) (indent : Int) (folding : Folding) (position : Position)
    (chars : List Char) : Option PlainScalar :=
  let finish : PlainScalar :=
    ⟨String.ofList folding.content.reverse, folding.broken, ⟨chars, position⟩⟩
  match chars with
  | [] => some finish
  | '\r' :: '\n' :: rest =>
      plainFrom inFlow indent (folding.lineBreak '\n') (position.nextLine 2) rest
  | char :: rest =>
      if isBreak char then
        plainFrom inFlow indent (folding.lineBreak char) (position.nextLine 1) rest
      else if isBlank char then
        if char = '\t' ∧ folding.broken ∧ Int.ofNat position.column < indent then none
        else plainFrom inFlow indent (folding.blank char) (position.advance 1) rest
      else if folding.hasSpaces ∧
          ((!inFlow ∧ Int.ofNat position.column < indent) ∨ char = '#') then some finish
      else if position.column = 0 ∧ atDocumentMark (char :: rest) then some finish
      else if isMisplacedColon inFlow (char :: rest) then none
      else if endsPlain inFlow (char :: rest) then some finish
      else plainFrom inFlow indent (folding.take char) (position.advance 1) rest

/-- Read a plain scalar inside a block with some indentation. -/
def plain? (inFlow : Bool) (blockIndent : Int) (cursor : Cursor) : Option PlainScalar :=
  plainFrom inFlow (blockIndent + 1) .empty cursor.position cursor.chars

/-! ## Quoted scalars -/

/-- The character that an escape with a single character stands for. -/
def escaped? : Char → Option Char
  | '0' => some '\x00'
  | 'a' => some '\x07'
  | 'b' => some '\x08'
  | 't' => some '\t'
  | '\t' => some '\t'
  | 'n' => some '\n'
  | 'v' => some '\x0b'
  | 'f' => some '\x0c'
  | 'r' => some '\r'
  | 'e' => some '\x1b'
  | ' ' => some ' '
  | '"' => some '"'
  | '/' => some '/'
  | '\\' => some '\\'
  | 'N' => some '\u0085'
  | '_' => some '\u00a0'
  | 'L' => some '\u2028'
  | 'P' => some '\u2029'
  | _ => none

/-- The character with a code that is written in hexadecimal digits. -/
def coded? (digits : List Char) : Option Char :=
  match Digits.number? 16 digits with
  | some code => if code.isValidChar then some (Char.ofNat code) else none
  | none => none

/-- Read a scalar up to the closing quote. -/
def quotedFrom (quote : Char) (folding : Folding) (position : Position) (chars : List Char) :
    Option (String × Cursor) :=
  if position.column = 0 ∧ atDocumentMark chars then none
  else
    match chars with
    | [] => none
    | '\r' :: '\n' :: rest =>
        quotedFrom quote (folding.lineBreak '\n') (position.nextLine 2) rest
    | '\'' :: '\'' :: rest =>
        if quote = '\'' then
          quotedFrom quote (folding.take '\'') (position.advance 2) rest
        else
          quotedFrom quote ((folding.take '\'').take '\'') (position.advance 2) rest
    | '\\' :: '\r' :: '\n' :: rest =>
        if quote = '"' then
          quotedFrom quote folding.join.escapedBreak (position.nextLine 3) rest
        else
          quotedFrom quote ((folding.take '\\').lineBreak '\n') (position.nextLine 3) rest
    | '\\' :: char :: rest =>
        if quote = '\'' then
          quotedFrom quote (folding.take '\\') (position.advance 1) (char :: rest)
        else if isBreak char then
          quotedFrom quote folding.join.escapedBreak (position.nextLine 2) rest
        else
          match escaped? char with
          | some char => quotedFrom quote (folding.take char) (position.advance 2) rest
          | none =>
              match char, rest with
              | 'x', a :: b :: rest =>
                  match coded? [a, b] with
                  | some char => quotedFrom quote (folding.take char) (position.advance 4) rest
                  | none => none
              | 'u', a :: b :: c :: d :: rest =>
                  match coded? [a, b, c, d] with
                  | some char => quotedFrom quote (folding.take char) (position.advance 6) rest
                  | none => none
              | 'U', a :: b :: c :: d :: e :: f :: g :: h :: rest =>
                  match coded? [a, b, c, d, e, f, g, h] with
                  | some char => quotedFrom quote (folding.take char) (position.advance 10) rest
                  | none => none
              | _, _ => none
    | char :: rest =>
        if isBreak char then
          quotedFrom quote (folding.lineBreak char) (position.nextLine 1) rest
        else if isBlank char then
          quotedFrom quote (folding.blank char) (position.advance 1) rest
        else if char = quote then
          some (String.ofList folding.joined.reverse, ⟨rest, position.advance 1⟩)
        else if char = '\\' ∧ quote = '"' then none
        else quotedFrom quote (folding.take char) (position.advance 1) rest

/-- Read a scalar whose opening quote comes next. -/
def quoted? (quote : Char) (cursor : Cursor) : Option (String × Cursor) :=
  quotedFrom quote .empty (cursor.position.advance 1) (cursor.chars.drop 1)

/-! ## Block scalars -/

/-- What happens to the line ends after the last line of a block. -/
inductive Chomping where
  /-- All are dropped. -/
  | strip
  /-- The first is kept. -/
  | clip
  /-- All are kept. -/
  | keep
  deriving DecidableEq, Repr

/-- The chomping that an indicator asks for. -/
def chomping? : Char → Option Chomping
  | '+' => some .keep
  | '-' => some .strip
  | _ => none

/-- Read the indicators after the one that opens a block scalar: the chomping,
and the indentation relative to the enclosing block (zero if it is not
given). -/
def blockIndicators? (cursor : Cursor) : Option (Chomping × Nat × Cursor) :=
  match cursor.chars with
  | first :: second :: _ =>
      match chomping? first, digit? first, chomping? second, digit? second with
      | some chomping, _, _, some increment => accept chomping increment 2
      | some chomping, _, _, none => some (chomping, 0, cursor.drop 1)
      | none, some increment, some chomping, _ => accept chomping increment 2
      | none, some increment, none, _ => accept .clip increment 1
      | none, none, _, _ => some (.clip, 0, cursor)
  | [only] =>
      match chomping? only, digit? only with
      | some chomping, _ => some (chomping, 0, cursor.drop 1)
      | none, some increment => accept .clip increment 1
      | none, none => some (.clip, 0, cursor)
  | [] => some (.clip, 0, cursor)
where
  /-- The value of a decimal digit. -/
  digit? (char : Char) : Option Nat := Digits.number? 10 [char]
  /-- An indentation is positive. -/
  accept (chomping : Chomping) (increment count : Nat) : Option (Chomping × Nat × Cursor) :=
    if increment = 0 then none else some (chomping, increment, cursor.drop count)

/-- The deepest indentation of the blank lines that come next and of the line
after them.  A tab is no indentation. -/
def deepestIndent? (column deepest : Nat) : List Char → Option Nat
  | [] => some (max column deepest)
  | char :: rest =>
      if char = ' ' then deepestIndent? (column + 1) deepest rest
      else if char = '\t' then none
      else if isBreak char then deepestIndent? 0 (max column deepest) rest
      else some (max column deepest)

/-- A block that has been read in part. -/
structure Block where
  /-- The content, latest first. -/
  content : List Char
  /-- Whether the last line begins with a blank. -/
  startsBlank : Bool
  /-- The end of the last line. -/
  lastBreak : Option Char
  /-- The ends of the blank lines after it, latest first. -/
  laterBreaks : List Char
  /-- Whether the place is inside a line, after its indentation. -/
  insideLine : Bool
  deriving DecidableEq, Repr

namespace Block

/-- Nothing has been read. -/
def empty : Block := ⟨[], false, none, [], false⟩

/-- The content with the line ends after it, as far as the chomping keeps
them. -/
def chomped (block : Block) (chomping : Chomping) : String :=
  let withBreak := block.lastBreak.toList ++ block.content
  String.ofList <| List.reverse <|
    match chomping with
    | .strip => block.content
    | .clip => withBreak
    | .keep => block.laterBreaks ++ withBreak

/-- Begin a line.  In a folded block the end of the line before it counts as a
blank unless one of the two begins with a blank. -/
def beginLine (block : Block) (folded : Bool) (char : Char) : Block :=
  let joined :=
    if folded ∧ block.lastBreak = some '\n' ∧ !block.startsBlank ∧ !isBlank char then
      if block.laterBreaks = [] then ' ' :: block.content else block.content
    else block.lastBreak.toList ++ block.content
  ⟨char :: (block.laterBreaks ++ joined), isBlank char, none, [], true⟩

/-- Take a line end. -/
def lineBreak (block : Block) (char : Char) : Block :=
  if block.insideLine then
    { block with lastBreak := some (breakContent char), insideLine := false }
  else { block with laterBreaks := breakContent char :: block.laterBreaks }

end Block

/-- Read the lines of a block that are indented by `indent` characters. -/
def blockFrom (folded : Bool) (indent : Nat) (block : Block) (position : Position)
    (chars : List Char) : Option (Block × Cursor) :=
  match chars with
  | [] => some (block, ⟨[], position⟩)
  | '\r' :: '\n' :: rest =>
      blockFrom folded indent (block.lineBreak '\n') (position.nextLine 2) rest
  | char :: rest =>
      if isBreak char then
        blockFrom folded indent (block.lineBreak char) (position.nextLine 1) rest
      else if block.insideLine then
        blockFrom folded indent { block with content := char :: block.content }
          (position.advance 1) rest
      else if position.column < indent then
        if char = ' ' then blockFrom folded indent block (position.advance 1) rest
        else if char = '\t' then none
        else some (block, ⟨char :: rest, position⟩)
      else
        blockFrom folded indent (block.beginLine folded char) (position.advance 1) rest

/-- Read a block scalar whose opening indicator comes next, inside a block with
some indentation. -/
def block? (folded : Bool) (blockIndent : Int) (cursor : Cursor) :
    Option (String × Cursor) := do
  let (chomping, increment, afterIndicators) ← blockIndicators? (cursor.drop 1)
  let body ← afterIndicators.endLine?
  let indent ←
    if increment = 0 then do
      let deepest ← deepestIndent? body.position.column 0 body.chars
      pure (max (max deepest (blockIndent + 1).toNat) 1)
    else pure ((max blockIndent 0).toNat + increment)
  let (block, rest) ← blockFrom folded indent .empty body.position body.chars
  return (block.chomped chomping, rest)

end Yaml

end ClassLint
