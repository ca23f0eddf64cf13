/-!
# Globs

A glob is read from left to right as a sequence of tokens, the longest token
first.  A glob without a slash matches file names at any depth, which is the
same as having a `**/` in front of it.

A glob is also written as a pattern in the common regular-expression notation,
and `Glob.matches` decides which texts that pattern matches.
-/

namespace ClassLint

/-- A piece of a glob. -/
inductive GlobToken where
  /-- `**/`: nothing, or a text without line breaks that ends in a slash. -/
  | directories
  /-- Any other `**`: a text without line breaks. -/
  | anything
  /-- `*`: a text without slashes. -/
  | segment
  /-- `?`: one character that is not a slash. -/
  | character
  /-- Any other character: itself. -/
  | literal (char : Char)
  deriving DecidableEq, Repr

namespace GlobToken

def read : List Char → List GlobToken
  | [] => []
  | '*' :: '*' :: '/' :: chars => .directories :: read chars
  | '*' :: '*' :: chars => .anything :: read chars
  | '*' :: chars => .segment :: read chars
  | '?' :: chars => .character :: read chars
  | char :: chars => .literal char :: read chars

/-- The characters that mean something else in a pattern unless a backslash
stands in front of them. -/
def metacharacters : List Char :=
  ['\\', '.', '+', '*', '?', '(', ')', '|', '[', ']', '{', '}', '^', '$', '#', '&', '-', '~']

/-- A character as it is written in a pattern. -/
def escape (char : Char) : List Char :=
  if char ∈ metacharacters then ['\\', char] else [char]

def pattern : GlobToken → List Char
  | .directories => "(?:.*/)?".toList
  | .anything => ".*".toList
  | .segment => "[^/]*".toList
  | .character => "[^/]".toList
  | .literal char => escape char

/-- Whether a token can match the empty text. -/
def isOptional : GlobToken → Bool
  | .directories => true
  | .anything => true
  | .segment => true
  | .character => false
  | .literal _ => false

/-- What may be left to match once tokens have matched a character. -/
def advance (char : Char) : List GlobToken → List (List GlobToken)
  | [] => []
  | .directories :: tokens =>
      (if char = '\n' then [] else [.anything :: .literal '/' :: tokens]) ++
        (if char = '/' then [tokens] else []) ++ advance char tokens
  | .anything :: tokens =>
      (if char = '\n' then [] else [.anything :: tokens]) ++ advance char tokens
  | .segment :: tokens =>
      (if char = '/' then [] else [.segment :: tokens]) ++ advance char tokens
  | .character :: tokens => if char = '/' then [] else [tokens]
  | .literal expected :: tokens => if char = expected then [tokens] else []

end GlobToken

/-- A glob as a sequence of tokens. -/
structure Glob where
  tokens : List GlobToken
  deriving DecidableEq, Repr

namespace Glob

/-- Read a glob. -/
def ofText (text : String) : Glob :=
  let tokens := GlobToken.read text.toList
  if '/' ∈ text.toList then ⟨tokens⟩ else ⟨.directories :: tokens⟩

/-- The glob as a pattern for whole texts. -/
def pattern (glob : Glob) : String :=
  String.ofList ('^' :: (glob.tokens.flatMap GlobToken.pattern ++ ['$']))

/-- Whether one of several token sequences matches a text. -/
def anyMatches (alternatives : List (List GlobToken)) : List Char → Bool
  | [] => alternatives.any (·.all GlobToken.isOptional)
  | char :: chars =>
      anyMatches (alternatives.flatMap (GlobToken.advance char)).eraseDups chars

def «matches» (glob : Glob) (text : String) : Bool :=
  anyMatches [glob.tokens] text.toList

end Glob

end ClassLint
