import ClassLint.Document.Yaml.Scalar
import ClassLint.Text.Utf8

/-!
# YAML tokens

The structure of a document is made explicit as a list of tokens.  Blocks are
opened and closed by comparing columns.  Whether a scalar or a collection is a
key shows only at the colon after it, so the place where a key may have begun
is remembered, and the tokens that announce the key are put in there.
-/

namespace ClassLint

namespace Yaml

/-- The units of a document. -/
inductive Token where
  | version (major minor : Nat)
  /-- A tag handle, and what it stands for. -/
  | tagHandle (handle start : String)
  | documentStart
  | documentEnd
  | blockSequenceStart
  | blockMappingStart
  | blockEnd
  | flowSequenceStart
  | flowSequenceEnd
  | flowMappingStart
  | flowMappingEnd
  | blockEntry
  | flowEntry
  | key
  | value
  | alias (name : String)
  | anchor (name : String)
  /-- A tag: its handle (empty for a tag in full), and the rest of it. -/
  | tag (handle rest : String)
  | scalar (style : ScalarStyle) (content : String)
  deriving DecidableEq, Repr

/-- A place where a key may have begun. -/
structure KeyCandidate where
  /-- Whether nothing but a key can stand here. -/
  required : Bool
  /-- The number of tokens before it. -/
  tokenCount : Nat
  position : Position
  deriving DecidableEq, Repr

/-- A document that has been scanned in part. -/
structure Scanner where
  cursor : Cursor
  /-- The tokens found, latest first, and their number. -/
  tokens : List Token
  tokenCount : Nat
  /-- The key candidates of the open flow collections, innermost first, and of
  the block around them. -/
  candidates : List (Option KeyCandidate)
  /-- The indentation of the open block, or `-1`. -/
  indent : Int
  /-- The indentations of the blocks around it, innermost first. -/
  outerIndents : List Int
  /-- Whether a key may begin here. -/
  keyAllowed : Bool
  deriving DecidableEq, Repr

namespace Scanner

/-- The scanner at the beginning of a document. -/
def start (chars : List Char) : Scanner :=
  ⟨.start chars, [], 0, [none], -1, [], true⟩

/-- Whether the place is inside a flow collection. -/
def inFlow (scanner : Scanner) : Bool :=
  match scanner.candidates with
  | _ :: _ :: _ => true
  | _ => false

/-- The column of the place. -/
def column (scanner : Scanner) : Nat := scanner.cursor.position.column

/-- Add a token. -/
def push (scanner : Scanner) (token : Token) : Scanner :=
  { scanner with tokens := token :: scanner.tokens, tokenCount := scanner.tokenCount + 1 }

/-- Put in a token after the first `tokenCount` ones. -/
def insert (scanner : Scanner) (tokenCount : Nat) (token : Token) : Scanner :=
  let later := scanner.tokenCount - tokenCount
  { scanner with
    tokens := scanner.tokens.take later ++ token :: scanner.tokens.drop later
    tokenCount := scanner.tokenCount + 1 }

/-- Add a token that takes some characters of the line. -/
def pushIndicator (scanner : Scanner) (token : Token) (count : Nat) : Scanner :=
  { scanner.push token with cursor := scanner.cursor.drop count }

/-! ## Keys and blocks -/

/-- Forget the innermost key candidate.  A required one must not be
forgotten. -/
def dropCandidate? (scanner : Scanner) : Option Scanner :=
  match scanner.candidates with
  | some candidate :: outer =>
      if candidate.required then none else some { scanner with candidates := none :: outer }
  | _ => some scanner

/-- Remember the place as a key candidate, if a key may begin here. -/
def saveCandidate? (scanner : Scanner) : Option Scanner :=
  if scanner.keyAllowed then do
    let required := !scanner.inFlow && scanner.indent = Int.ofNat scanner.column
    let candidate : KeyCandidate := ⟨required, scanner.tokenCount, scanner.cursor.position⟩
    let cleared ← scanner.dropCandidate?
    return { cleared with candidates := some candidate :: cleared.candidates.drop 1 }
  else some scanner

/-- The longest distance in characters between the beginning of a key and its
colon. -/
def maxKeyLength : Nat := 1024

/-- Forget the candidates that lie on an earlier line or too far back. -/
def dropStale? (scanner : Scanner) : Option Scanner := do
  let position := scanner.cursor.position
  let candidates ← scanner.candidates.mapM fun entry =>
    match entry with
    | none => some none
    | some candidate =>
        if candidate.position.line < position.line ∨
            candidate.position.index + maxKeyLength < position.index then
          if candidate.required then none else some none
        else some (some candidate)
  return { scanner with candidates := candidates }

/-- Open a block if a column lies to the right of the open one.  The token goes
after the first `tokenCount` ones. -/
def openBlock (scanner : Scanner) (column tokenCount : Nat) (token : Token) : Scanner :=
  if !scanner.inFlow ∧ scanner.indent < Int.ofNat column then
    { scanner.insert tokenCount token with
      indent := Int.ofNat column
      outerIndents := scanner.indent :: scanner.outerIndents }
  else scanner

def closeBlocksFrom (column : Int) : List Int → Scanner → Scanner
  | [], scanner => scanner
  | outer :: outerIndents, scanner =>
      if column < scanner.indent then
        closeBlocksFrom column outerIndents
          { scanner.push .blockEnd with indent := outer, outerIndents := outerIndents }
      else scanner

/-- Close blocks to the right of a column, outside flow collections. -/
def closeBlocks (scanner : Scanner) (column : Int) : Scanner :=
  if scanner.inFlow then scanner else closeBlocksFrom column scanner.outerIndents scanner

/-! ## Filler -/

/-- Pass over blanks, line ends and comments.  A new line may begin with a byte
order mark, and outside flow collections it may begin with a key.  A tab counts
as a blank only where no key may begin. -/
def skipFillerFrom (flow keyAllowed inComment : Bool) (position : Position) :
    List Char → Bool × Cursor
  | [] => (keyAllowed, ⟨[], position⟩)
  | '\r' :: '\n' :: rest =>
      skipFillerFrom flow (keyAllowed || !flow) false (position.nextLine 2) rest
  | char :: rest =>
      if isBreak char then
        skipFillerFrom flow (keyAllowed || !flow) false (position.nextLine 1) rest
      else if inComment then
        skipFillerFrom flow keyAllowed true (position.advance 1) rest
      else if char = ' ' ∨ (char = '\t' ∧ (flow ∨ !keyAllowed)) ∨
          (char = '\ufeff' ∧ position.column = 0) then
        skipFillerFrom flow keyAllowed false (position.advance 1) rest
      else if char = '#' then
        skipFillerFrom flow keyAllowed true (position.advance 1) rest
      else (keyAllowed, ⟨char :: rest, position⟩)

/-- Pass over blanks, line ends and comments. -/
def skipFiller (scanner : Scanner) : Scanner :=
  let (keyAllowed, cursor) :=
    skipFillerFrom scanner.inFlow scanner.keyAllowed false scanner.cursor.position
      scanner.cursor.chars
  { scanner with keyAllowed := keyAllowed, cursor := cursor }

/-! ## Directives and tags -/

/-- Whether a character may stand in a tag as it is.  Some may only stand in a
tag in full. -/
def isTagChar (inFull : Bool) (char : Char) : Bool :=
  isNameChar char || ";/?:@&=+$.!~*'()".toList.contains char ||
    (inFull && (char = ',' || char = '[' || char = ']'))

/-- The number of bytes after the first byte of a character, unless the byte
cannot be the first one. -/
def continuation? (byte : Nat) : Option Nat :=
  if byte < 0x80 then some 0
  else if byte < 0xC0 then none
  else if byte < 0xE0 then some 1
  else if byte < 0xF0 then some 2
  else if byte < 0xF8 then some 3
  else none

/-- Read the bytes of a tag, after those already found (latest first).  Escaped
bytes come in groups that make up a character; `owed` of them are still to
come. -/
def tagBytesFrom (inFull : Bool) (found : List UInt8) (owed : Nat) (position : Position) :
    List Char → Option (List UInt8 × Cursor)
  | '%' :: a :: b :: rest =>
      match Digits.number? 16 [a, b] with
      | none => none
      | some byte =>
          let next := UInt8.ofNat byte :: found
          if owed = 0 then
            match continuation? byte with
            | none => none
            | some later => tagBytesFrom inFull next later (position.advance 3) rest
          else if 0x80 ≤ byte ∧ byte < 0xC0 then
            tagBytesFrom inFull next (owed - 1) (position.advance 3) rest
          else none
  | [] => if owed = 0 then some (found.reverse, ⟨[], position⟩) else none
  | char :: rest =>
      if owed ≠ 0 ∨ char = '%' then none
      else if isTagChar inFull char then
        tagBytesFrom inFull (UInt8.ofNat char.toNat :: found) 0 (position.advance 1) rest
      else some (found.reverse, ⟨char :: rest, position⟩)

def tagPart? (inFull : Bool) (cursor : Cursor) : Option (String × Cursor) :=
  (tagBytesFrom inFull [] 0 cursor.position cursor.chars).map fun (bytes, rest) =>
    (Utf8.decodeLossy bytes, rest)

/-- Read a part of a tag that is not empty. -/
def someTagPart? (inFull : Bool) (cursor : Cursor) : Option (String × Cursor) :=
  match tagPart? inFull cursor with
  | some (part, rest) => if part.isEmpty then none else some (part, rest)
  | none => none

/-- Read a tag: its handle and the rest of it. -/
def tag? (cursor : Cursor) : Option (String × String × Cursor) :=
  match cursor.chars with
  | '!' :: '<' :: _ => do
      let (full, rest) ← someTagPart? true (cursor.drop 2)
      match rest.chars with
      | '>' :: _ => return ("", full, rest.drop 1)
      | _ => none
  | _ => do
      let (name, afterName) := (cursor.drop 1).span isNameChar
      match afterName.chars with
      | '!' :: _ =>
          let (part, rest) ← someTagPart? false (afterName.drop 1)
          return ("!" ++ String.ofList name ++ "!", part, rest)
      | _ =>
          let (part, rest) ← tagPart? false afterName
          let whole := String.ofList name ++ part
          if whole.isEmpty then return ("", "!", rest) else return ("!", whole, rest)

/-- Read a part of a version number. -/
def versionNumber? (cursor : Cursor) : Option (Nat × Cursor) :=
  let (digits, rest) := cursor.span Char.isDigit
  if 9 < digits.length then none else (Digits.number? 10 digits).map fun number => (number, rest)

/-- Read what follows the name of a version directive. -/
def versionDirective? (cursor : Cursor) : Option (Token × Cursor) := do
  let (major, afterMajor) ← versionNumber? (cursor.dropWhile isBlank)
  match afterMajor.chars with
  | '.' :: _ =>
      let (minor, rest) ← versionNumber? (afterMajor.drop 1)
      return (.version major minor, rest)
  | _ => none

/-- Read a tag handle: an exclamation mark, or a name between two. -/
def handle? (cursor : Cursor) : Option (String × Cursor) :=
  match cursor.chars with
  | '!' :: _ =>
      let (name, rest) := (cursor.drop 1).span isNameChar
      match rest.chars with
      | '!' :: _ => some ("!" ++ String.ofList name ++ "!", rest.drop 1)
      | _ => if name = [] then some ("!", rest) else none
  | _ => none

/-- Read what follows the name of a tag directive. -/
def tagDirective? (cursor : Cursor) : Option (Token × Cursor) := do
  let (handle, afterHandle) ← handle? (cursor.dropWhile isBlank)
  match afterHandle.chars with
  | char :: _ =>
      if isBlank char then do
        let (start, rest) ← someTagPart? true (afterHandle.dropWhile isBlank)
        if atSpace rest.chars then return (.tagHandle handle start, rest) else none
      else none
  | [] => none

/-- Read a directive, with the line end after it. -/
def directive? (cursor : Cursor) : Option (Token × Cursor) := do
  let (name, afterName) := (cursor.drop 1).span isNameChar
  if !atSpace afterName.chars then none
  else
    let (token, rest) ←
      if name = ['Y', 'A', 'M', 'L'] then versionDirective? afterName
      else if name = ['T', 'A', 'G'] then tagDirective? afterName
      else none
    return (token, ← rest.endLine?)

/-! ## Fetching tokens -/

def fetchDirective? (scanner : Scanner) : Option Scanner := do
  let outside ← (scanner.closeBlocks (-1)).dropCandidate?
  let (token, cursor) ← directive? outside.cursor
  return { outside.push token with keyAllowed := false, cursor := cursor }

def fetchDocumentMark? (scanner : Scanner) (token : Token) : Option Scanner := do
  let outside ← (scanner.closeBlocks (-1)).dropCandidate?
  return { outside.pushIndicator token 3 with keyAllowed := false }

/-- Fetch the beginning of a flow collection. -/
def fetchFlowStart? (scanner : Scanner) (token : Token) : Option Scanner := do
  let saved ← scanner.saveCandidate?
  return { saved.pushIndicator token 1 with
    candidates := none :: saved.candidates, keyAllowed := true }

def fetchFlowEnd? (scanner : Scanner) (token : Token) : Option Scanner := do
  let cleared ← scanner.dropCandidate?
  let candidates := if cleared.inFlow then cleared.candidates.drop 1 else cleared.candidates
  return { cleared.pushIndicator token 1 with candidates := candidates, keyAllowed := false }

/-- Fetch a comma between the entries of a flow collection. -/
def fetchFlowEntry? (scanner : Scanner) : Option Scanner := do
  let cleared ← scanner.dropCandidate?
  return { cleared.pushIndicator .flowEntry 1 with keyAllowed := true }

/-- Open a block of some kind at the place, unless it is inside a flow
collection. -/
def openBlockHere? (scanner : Scanner) (token : Token) : Option Scanner :=
  if scanner.inFlow then some scanner
  else if scanner.keyAllowed then
    some (scanner.openBlock scanner.column scanner.tokenCount token)
  else none

/-- Fetch the dash before an entry of a block sequence. -/
def fetchBlockEntry? (scanner : Scanner) : Option Scanner := do
  let opened ← scanner.openBlockHere? .blockSequenceStart
  let cleared ← opened.dropCandidate?
  return { cleared.pushIndicator .blockEntry 1 with keyAllowed := true }

/-- Fetch the question mark before a key. -/
def fetchKey? (scanner : Scanner) : Option Scanner := do
  let opened ← scanner.openBlockHere? .blockMappingStart
  let cleared ← opened.dropCandidate?
  return { cleared.pushIndicator .key 1 with keyAllowed := !cleared.inFlow }

/-- Fetch the colon before a value.  If there is a key candidate, it is a key
after all. -/
def fetchValue? (scanner : Scanner) : Option Scanner :=
  match scanner.candidates with
  | some candidate :: outer =>
      let announced := scanner.insert candidate.tokenCount .key
      let opened :=
        announced.openBlock candidate.position.column candidate.tokenCount .blockMappingStart
      some { opened.pushIndicator .value 1 with
        candidates := none :: outer, keyAllowed := false }
  | _ => do
      let opened ← scanner.openBlockHere? .blockMappingStart
      return { opened.pushIndicator .value 1 with keyAllowed := !opened.inFlow }

/-- Whether a character may follow the name of an anchor. -/
def endsAnchor : List Char → Bool
  | [] => true
  | char :: _ =>
      isSpace char || char = '?' || char = ':' || char = ',' || char = ']' || char = '\x7d' ||
        char = '%' || char = '@' || char = '\x60'

/-- Fetch an anchor or an alias. -/
def fetchAnchor? (scanner : Scanner) (token : String → Token) : Option Scanner := do
  let saved ← scanner.saveCandidate?
  let (name, rest) := (saved.cursor.drop 1).span isNameChar
  if name = [] ∨ !endsAnchor rest.chars then none
  else return { saved.push (token (String.ofList name)) with keyAllowed := false, cursor := rest }

def fetchTag? (scanner : Scanner) : Option Scanner := do
  let saved ← scanner.saveCandidate?
  let (handle, part, rest) ← tag? saved.cursor
  let ends := atSpace rest.chars || (saved.inFlow && rest.chars.head? = some ',')
  if ends then return { saved.push (.tag handle part) with keyAllowed := false, cursor := rest }
  else none

def fetchBlockScalar? (scanner : Scanner) (style : ScalarStyle) : Option Scanner := do
  let cleared ← scanner.dropCandidate?
  let (content, rest) ← block? (style = .folded) cleared.indent cleared.cursor
  return { cleared.push (.scalar style content) with keyAllowed := true, cursor := rest }

def fetchQuoted? (scanner : Scanner) (quote : Char) : Option Scanner := do
  let saved ← scanner.saveCandidate?
  let (content, rest) ← quoted? quote saved.cursor
  return { saved.push (.scalar .quoted content) with keyAllowed := false, cursor := rest }

/-- Fetch a plain scalar.  A key may begin after it if it ends with its
line. -/
def fetchPlain? (scanner : Scanner) : Option Scanner := do
  let saved ← scanner.saveCandidate?
  let scalar ← plain? saved.inFlow saved.indent saved.cursor
  return { saved.push (.scalar .plain scalar.content) with
    keyAllowed := scalar.broken, cursor := scalar.cursor }

/-- Whether a plain scalar may begin with a character. -/
def beginsPlain (inFlow : Bool) (char : Char) (rest : List Char) : Bool :=
  let indicators := "-?:,[]\x7b\x7d#&*!|>'\"%@\x60".toList
  !(isSpace char || indicators.contains char) ||
    (char = '-' && !(rest.head?.map isBlank).getD false) ||
    (!inFlow && (char = '?' || char = ':') && !atSpace rest)

/-- Fetch the next token. -/
def fetch? (scanner : Scanner) : Option Scanner :=
  match scanner.cursor.chars with
  | [] => none
  | char :: rest =>
      if scanner.column = 0 ∧ char = '%' then scanner.fetchDirective?
      else if scanner.column = 0 ∧ atDocumentMark (char :: rest) then
        scanner.fetchDocumentMark? (if char = '-' then .documentStart else .documentEnd)
      else if char = '[' then scanner.fetchFlowStart? .flowSequenceStart
      else if char = '\x7b' then scanner.fetchFlowStart? .flowMappingStart
      else if char = ']' then scanner.fetchFlowEnd? .flowSequenceEnd
      else if char = '\x7d' then scanner.fetchFlowEnd? .flowMappingEnd
      else if char = ',' then scanner.fetchFlowEntry?
      else if char = '-' ∧ atSpace rest then scanner.fetchBlockEntry?
      else if char = '?' ∧ (scanner.inFlow ∨ atSpace rest) then scanner.fetchKey?
      else if char = ':' ∧ (scanner.inFlow ∨ atSpace rest) then scanner.fetchValue?
      else if char = '*' then scanner.fetchAnchor? .alias
      else if char = '&' then scanner.fetchAnchor? .anchor
      else if char = '!' then scanner.fetchTag?
      else if char = '|' ∧ !scanner.inFlow then scanner.fetchBlockScalar? .literal
      else if char = '>' ∧ !scanner.inFlow then scanner.fetchBlockScalar? .folded
      else if char = '\'' ∨ char = '"' then scanner.fetchQuoted? char
      else if beginsPlain scanner.inFlow char rest then scanner.fetchPlain?
      else none

/-- The tokens when the document ends. -/
def finish? (scanner : Scanner) : Option (List Token) :=
  (scanner.closeBlocks (-1)).dropCandidate?.map (·.tokens.reverse)

/-- Scan what is left of a document.  The bound is on the number of tokens
fetched. -/
def scanFrom? : Nat → Scanner → Option (List Token)
  | 0, _ => none
  | bound + 1, scanner =>
      match scanner.skipFiller.dropStale? with
      | none => none
      | some ready =>
          let closed := ready.closeBlocks (Int.ofNat ready.column)
          if closed.cursor.chars.isEmpty then closed.finish?
          else
            match closed.fetch? with
            | some next => scanFrom? bound next
            | none => none

end Scanner

def tokens? (document : String) : Option (List Token) :=
  let chars := document.toList
  if chars.all isAllowed then Scanner.scanFrom? (chars.length + 1) (.start chars) else none

end Yaml

end ClassLint
