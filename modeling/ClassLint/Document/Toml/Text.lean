import ClassLint.Document.Toml.Scalar

/-!
# Quoted TOML texts

A text stands between single or double quotes, on one line or, between triple
quotes, on several.  Escapes are recognised between double quotes only.  A line
end counts as one line feed, and one directly after an opening triple quote is
dropped.  A backslash before a line end drops the line end and all blanks and
line ends after it.
-/

namespace ClassLint

namespace Toml

/-- Whether a character may stand in a text or comment as it is. -/
def isPlain (char : Char) : Bool :=
  char = '\t' ∨ (0x20 ≤ char.toNat ∧ char.toNat ≠ 0x7F)

/-- Whether a character is a blank inside a line. -/
def isBlank (char : Char) : Bool := char = ' ' ∨ char = '\t'

/-- What remains after the quotes that close a text, with the quotes before
them that belong to the text.  Of up to five quotes in a row the last three
close a text on several lines. -/
def closing? (quote : Char) (multiline : Bool) (chars : List Char) :
    Option (List Char × List Char) :=
  if multiline then
    let count := min (chars.takeWhile (· = quote)).length 5
    if 3 ≤ count then some (List.replicate (count - 3) quote, chars.drop count) else none
  else
    match chars with
    | char :: rest => if char = quote then some ([], rest) else none
    | [] => none

/-- Whether only blanks stand before the next line end. -/
def endsLine : List Char → Bool
  | '\n' :: _ => true
  | '\r' :: '\n' :: _ => true
  | char :: rest => isBlank char && endsLine rest
  | [] => false

/-- The character with a code that is written in hexadecimal digits. -/
def coded? (digits : List Char) : Option Char :=
  match Digits.number? 16 digits with
  | some code => if code.isValidChar then some (Char.ofNat code) else none
  | none => none

/-- The character that an escape with a single letter stands for. -/
def escaped? : Char → Option Char
  | 'b' => some '\x08'
  | 't' => some '\t'
  | 'n' => some '\n'
  | 'f' => some '\x0c'
  | 'r' => some '\r'
  | 'e' => some '\x1b'
  | '"' => some '"'
  | '\\' => some '\\'
  | _ => none

/-- Read a text between double quotes, after what has been found (latest
first).  After a backslash at the end of a line, blanks and line ends are
dropped. -/
def escapedTextFrom (multiline dropping : Bool) (found : List Char) (chars : List Char) :
    Option (String × List Char) :=
  match closing? '"' multiline chars with
  | some (quotes, rest) => some (String.ofList (found.reverse ++ quotes), rest)
  | none =>
      match chars with
      | [] => none
      | '\r' :: '\n' :: rest =>
          if multiline then
            escapedTextFrom multiline dropping (if dropping then found else '\n' :: found) rest
          else none
      | '\n' :: rest =>
          if multiline then
            escapedTextFrom multiline dropping (if dropping then found else '\n' :: found) rest
          else none
      | '\\' :: 'x' :: a :: b :: rest =>
          match coded? [a, b] with
          | some char => escapedTextFrom multiline false (char :: found) rest
          | none => none
      | '\\' :: 'u' :: a :: b :: c :: d :: rest =>
          match coded? [a, b, c, d] with
          | some char => escapedTextFrom multiline false (char :: found) rest
          | none => none
      | '\\' :: 'U' :: a :: b :: c :: d :: e :: f :: g :: h :: rest =>
          match coded? [a, b, c, d, e, f, g, h] with
          | some char => escapedTextFrom multiline false (char :: found) rest
          | none => none
      | '\\' :: char :: rest =>
          match escaped? char with
          | some char => escapedTextFrom multiline false (char :: found) rest
          | none =>
              if multiline ∧ endsLine (char :: rest) then
                escapedTextFrom multiline true found (char :: rest)
              else none
      | char :: rest =>
          if dropping ∧ isBlank char then escapedTextFrom multiline true found rest
          else if isPlain char ∧ char ≠ '\\' then
            escapedTextFrom multiline false (char :: found) rest
          else none

/-- Read a text between single quotes, after what has been found (latest
first). -/
def literalTextFrom (multiline : Bool) (found : List Char) (chars : List Char) :
    Option (String × List Char) :=
  match closing? '\'' multiline chars with
  | some (quotes, rest) => some (String.ofList (found.reverse ++ quotes), rest)
  | none =>
      match chars with
      | [] => none
      | '\r' :: '\n' :: rest =>
          if multiline then literalTextFrom multiline ('\n' :: found) rest else none
      | '\n' :: rest =>
          if multiline then literalTextFrom multiline ('\n' :: found) rest else none
      | char :: rest =>
          if isPlain char then literalTextFrom multiline (char :: found) rest else none

def dropLineEnd : List Char → List Char
  | '\n' :: rest => rest
  | '\r' :: '\n' :: rest => rest
  | chars => chars

def lineText? : List Char → Option (String × List Char)
  | '"' :: rest => escapedTextFrom false false [] rest
  | '\'' :: rest => literalTextFrom false [] rest
  | _ => none

/-- Read a text on one or several lines. -/
def text? : List Char → Option (String × List Char)
  | '"' :: '"' :: '"' :: rest => escapedTextFrom true false [] (dropLineEnd rest)
  | '\'' :: '\'' :: '\'' :: rest => literalTextFrom true [] (dropLineEnd rest)
  | chars => lineText? chars

end Toml

end ClassLint
