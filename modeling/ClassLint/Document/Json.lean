import ClassLint.Document.Basic
import ClassLint.Text.Digits

/-!
# JSON documents

A document is read in two passes, each a machine that goes through its input
once.  The first takes characters and completes tokens; the second takes tokens
and keeps the arrays and objects that are still open on a stack.

A text may be written with escaped UTF-16 units that do not pair up.  Such a
text is well-formed but has no content, so it can only be passed over.
-/

namespace ClassLint

namespace Json

/-! ## Tokens -/

/-- The smallest units of a document. -/
inductive Token where
  | openArray
  | closeArray
  | openObject
  | closeObject
  | comma
  | colon
  | null
  | boolean (value : Bool)
  /-- A number as it is written. -/
  | number (literal : String)
  /-- A text, if it has a content. -/
  | text (content : Option String)
  deriving DecidableEq, Repr

/-- A piece of a text: a character, or an escaped UTF-16 unit. -/
inductive Piece where
  | char (char : Char)
  | unit (unit : Nat)
  deriving DecidableEq, Repr

/-- Whether a unit is the first half of a pair. -/
def isLeading (unit : Nat) : Bool := 0xD800 ≤ unit ∧ unit ≤ 0xDBFF

/-- Whether a unit is the second half of a pair. -/
def isTrailing (unit : Nat) : Bool := 0xDC00 ≤ unit ∧ unit ≤ 0xDFFF

/-- The content of a text, unless a unit has no partner. -/
def content? : List Piece → Option (List Char)
  | [] => some []
  | .char char :: pieces => (content? pieces).map (char :: ·)
  | .unit leading :: .unit trailing :: pieces =>
      if isLeading leading then
        if isTrailing trailing then
          let code := 0x10000 + (leading - 0xD800) * 0x400 + (trailing - 0xDC00)
          (content? pieces).map (Char.ofNat code :: ·)
        else none
      else if isTrailing leading then none
      else (content? (.unit trailing :: pieces)).map (Char.ofNat leading :: ·)
  | .unit unit :: pieces =>
      if isLeading unit ∨ isTrailing unit then none
      else (content? pieces).map (Char.ofNat unit :: ·)

/-- How far a number has been read. -/
inductive NumberPhase where
  | sign
  | zero
  | integer
  | point
  | fraction
  | exponentMark
  | exponentSign
  | exponent
  deriving DecidableEq, Repr

/-- Whether a number may end here. -/
def NumberPhase.isComplete : NumberPhase → Bool
  | .zero | .integer | .fraction | .exponent => true
  | _ => false

/-- The phase after one more character, if the character continues the
number. -/
def NumberPhase.next? (phase : NumberPhase) (char : Char) : Option NumberPhase :=
  match phase with
  | .sign =>
      if char = '0' then some .zero else if char.isDigit then some .integer else none
  | .zero => mark char
  | .integer => if char.isDigit then some .integer else mark char
  | .point => if char.isDigit then some .fraction else none
  | .fraction =>
      if char.isDigit then some .fraction
      else if char = 'e' ∨ char = 'E' then some .exponentMark
      else none
  | .exponentMark =>
      if char = '+' ∨ char = '-' then some .exponentSign
      else if char.isDigit then some .exponent
      else none
  | .exponentSign | .exponent => if char.isDigit then some .exponent else none
where
  /-- What may follow the digits before the point. -/
  mark (char : Char) : Option NumberPhase :=
    if char = '.' then some .point
    else if char = 'e' ∨ char = 'E' then some .exponentMark
    else none

/-- Where the first machine stands between two characters.  Characters and
pieces already read are kept latest first. -/
inductive Lexing where
  | between
  /-- Inside a word: the letters still owed. -/
  | word (owed : List Char) (token : Token)
  | number (phase : NumberPhase) (literal : List Char)
  | text (pieces : List Piece)
  /-- After a backslash. -/
  | escape (pieces : List Piece)
  /-- Inside an escaped unit: the digits still owed, and its value so far. -/
  | unit (pieces : List Piece) (owed : Nat) (value : Nat)
  deriving DecidableEq, Repr

/-- Whether a character may stand between tokens. -/
def isBlank (char : Char) : Bool :=
  char = ' ' ∨ char = '\t' ∨ char = '\n' ∨ char = '\r'

/-- The character that an escape with a single letter stands for. -/
def escaped? : Char → Option Char
  | '"' => some '"'
  | '\\' => some '\\'
  | '/' => some '/'
  | 'b' => some '\x08'
  | 'f' => some '\x0c'
  | 'n' => some '\n'
  | 'r' => some '\r'
  | 't' => some '\t'
  | _ => none

/-- Read a character between two tokens. -/
def Lexing.begin? (char : Char) : Option (List Token × Lexing) :=
  if isBlank char then some ([], .between)
  else if char.isDigit then
    some ([], .number (if char = '0' then .zero else .integer) [char])
  else
    match char with
    | '[' => some ([.openArray], .between)
    | ']' => some ([.closeArray], .between)
    | '\x7b' => some ([.openObject], .between)
    | '\x7d' => some ([.closeObject], .between)
    | ',' => some ([.comma], .between)
    | ':' => some ([.colon], .between)
    | '"' => some ([], .text [])
    | '-' => some ([], .number .sign [char])
    | 'n' => some ([], .word ['u', 'l', 'l'] .null)
    | 't' => some ([], .word ['r', 'u', 'e'] (.boolean true))
    | 'f' => some ([], .word ['a', 'l', 's', 'e'] (.boolean false))
    | _ => none

/-- The token for a number that has been read. -/
def numberToken (literal : List Char) : Token :=
  .number (String.ofList literal.reverse)

/-- The token for a text that has been read. -/
def textToken (pieces : List Piece) : Token :=
  .text ((content? pieces.reverse).map String.ofList)

/-- Take one more character: the tokens it completes, and where the machine
stands after it. -/
def Lexing.step? (lexing : Lexing) (char : Char) : Option (List Token × Lexing) :=
  match lexing with
  | .between => begin? char
  | .word owed token =>
      match owed with
      | [] => none
      | [last] => if char = last then some ([token], .between) else none
      | letter :: owed => if char = letter then some ([], .word owed token) else none
  | .number phase literal =>
      match phase.next? char with
      | some phase => some ([], .number phase (char :: literal))
      | none =>
          if phase.isComplete then
            (begin? char).map fun (tokens, next) => (numberToken literal :: tokens, next)
          else none
  | .text pieces =>
      if char = '"' then some ([textToken pieces], .between)
      else if char = '\\' then some ([], .escape pieces)
      else if char.toNat < 0x20 then none
      else some ([], .text (.char char :: pieces))
  | .escape pieces =>
      if char = 'u' then some ([], .unit pieces 4 0)
      else (escaped? char).map fun char => ([], .text (.char char :: pieces))
  | .unit pieces owed value =>
      match Digits.value? char with
      | none => none
      | some digit =>
          let value := value * 16 + digit
          if owed ≤ 1 then some ([], .text (.unit value :: pieces))
          else some ([], .unit pieces (owed - 1) value)

/-- The tokens owed when the characters end. -/
def Lexing.finish? : Lexing → Option (List Token)
  | .between => some []
  | .number phase literal => if phase.isComplete then some [numberToken literal] else none
  | _ => none

/-- All tokens of a document, after those already found (latest first). -/
def tokensFrom? (lexing : Lexing) (found : List Token) : List Char → Option (List Token)
  | [] => lexing.finish?.map (found.reverse ++ ·)
  | char :: chars =>
      match lexing.step? char with
      | some (tokens, next) => tokensFrom? next (tokens.reverse ++ found) chars
      | none => none

def tokens? (document : String) : Option (List Token) :=
  tokensFrom? .between [] document.toList

/-! ## Values -/

/-- The value of a document.  Texts without a content are kept apart, and so
are members with such a name. -/
inductive Value where
  | null
  | boolean (value : Bool)
  | number (literal : String)
  | text (content : Option String)
  | array (items : List Value)
  | object (members : List (Option String × Value))

/-- An array or object that is still open, with what it has so far (latest
first). -/
inductive Frame where
  | array (items : List Value)
  | object (members : List (Option String × Value))
  /-- An object with a name that still waits for its value. -/
  | member (members : List (Option String × Value)) (name : Option String)

/-- What may come next. -/
inductive Expectation where
  | value
  /-- A value, or the end of an array that has just been opened. -/
  | valueOrEnd
  | name
  /-- A name, or the end of an object that has just been opened. -/
  | nameOrEnd
  | colon
  /-- A comma, or the end of the innermost open value. -/
  | separator
  /-- Nothing: the value is complete. -/
  | nothing (value : Value)

/-- The second machine: what may come next, and the open values, innermost
first. -/
structure Building where
  expectation : Expectation
  frames : List Frame

namespace Building

/-- Put a complete value into the innermost open one. -/
def deliver (value : Value) : List Frame → Option Building
  | [] => some ⟨.nothing value, []⟩
  | .array items :: frames => some ⟨.separator, .array (value :: items) :: frames⟩
  | .member members name :: frames =>
      some ⟨.separator, .object ((name, value) :: members) :: frames⟩
  | .object _ :: _ => none

/-- Begin a value. -/
def begin? (frames : List Frame) : Token → Option Building
  | .null => deliver .null frames
  | .boolean value => deliver (.boolean value) frames
  | .number literal => deliver (.number literal) frames
  | .text content => deliver (.text content) frames
  | .openArray => some ⟨.valueOrEnd, .array [] :: frames⟩
  | .openObject => some ⟨.nameOrEnd, .object [] :: frames⟩
  | _ => none

/-- End the innermost open value. -/
def close? (token : Token) : List Frame → Option Building
  | .array items :: frames =>
      if token = .closeArray then deliver (.array items.reverse) frames else none
  | .object members :: frames =>
      if token = .closeObject then deliver (.object members.reverse) frames else none
  | _ => none

/-- Take a name in the innermost open object. -/
def name? (token : Token) : List Frame → Option Building
  | .object members :: frames =>
      match token with
      | .text name => some ⟨.colon, .member members name :: frames⟩
      | _ => none
  | _ => none

/-- Take one more token. -/
def step? (building : Building) (token : Token) : Option Building :=
  let frames := building.frames
  match building.expectation with
  | .value => begin? frames token
  | .valueOrEnd => if token = .closeArray then close? token frames else begin? frames token
  | .name => name? token frames
  | .nameOrEnd => if token = .closeObject then close? token frames else name? token frames
  | .colon => if token = .colon then some ⟨.value, frames⟩ else none
  | .separator =>
      if token = .comma then
        match frames with
        | .array _ :: _ => some ⟨.value, frames⟩
        | _ => some ⟨.name, frames⟩
      else close? token frames
  | .nothing _ => none

end Building

def ofTokens? (tokens : List Token) : Option Value :=
  match tokens.foldlM Building.step? ⟨.value, []⟩ with
  | some ⟨.nothing value, _⟩ => some value
  | _ => none

def parse? (document : String) : Option Value :=
  (tokens? document).bind ofTokens?

/-! ## Settings -/

/-- A member whose name has a content. -/
def named? (member : Option String × Value) : Option (String × Value) :=
  member.1.map fun name => (name, member.2)

/-- How JSON values are read as settings. -/
def view : Document.View Value where
  boolean?
    | .boolean value => some value
    | _ => none
  natural?
    | .number literal => Digits.number? 10 literal.toList
    | _ => none
  text?
    | .text content => content
    | _ => none
  items?
    | .array items => some items
    | _ => none
  record?
    | .object members => (members.mapM named?).map .named
    | .array items => some (.positional items)
    | _ => none
  skippable _ := true
  allowsSurplus := false

end Json

end ClassLint
