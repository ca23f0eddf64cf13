/-!
# UTF-8 text

Bytes are read as UTF-8 by a machine that takes one byte at a time.  It either
completes a character, waits for continuation bytes, or gives up on an
ill-formed sequence.  A sequence is given up as late as possible: a byte that
cannot continue the pending sequence ends it and is then read again as a first
byte, so each maximal ill-formed piece counts once.

`decodeLossy` puts the replacement character for each such piece, and
`decode?` accepts only byte sequences without one.
-/

namespace ClassLint

namespace Utf8

/-- The character that stands for an ill-formed piece. -/
def replacement : Char := '�'

/-- Where the machine stands between two bytes. -/
inductive Pending where
  /-- Between two characters. -/
  | idle
  /-- Inside a character: the continuation bytes still owed after the next one,
  the bounds of the next byte, and the bits collected so far. -/
  | inside (later : Nat) (low high : UInt8) (bits : Nat)
  deriving DecidableEq, Repr

/-- One piece of text: a character, or an ill-formed piece. -/
abbrev Piece := Option Char

/-- Read a byte as the first byte of a character. -/
def firstByte (byte : UInt8) : List Piece × Pending :=
  if byte < 0x80 then ([some (Char.ofNat byte.toNat)], .idle)
  else if byte < 0xC2 then ([none], .idle)
  else if byte < 0xE0 then ([], .inside 0 0x80 0xBF (byte.toNat - 0xC0))
  else if byte = 0xE0 then ([], .inside 1 0xA0 0xBF 0)
  else if byte = 0xED then ([], .inside 1 0x80 0x9F 0xD)
  else if byte < 0xF0 then ([], .inside 1 0x80 0xBF (byte.toNat - 0xE0))
  else if byte = 0xF0 then ([], .inside 2 0x90 0xBF 0)
  else if byte < 0xF4 then ([], .inside 2 0x80 0xBF (byte.toNat - 0xF0))
  else if byte = 0xF4 then ([], .inside 2 0x80 0x8F 4)
  else ([none], .idle)

/-- Take one more byte: the pieces it completes, and where the machine stands
after it. -/
def step (pending : Pending) (byte : UInt8) : List Piece × Pending :=
  match pending with
  | .idle => firstByte byte
  | .inside later low high bits =>
      if low ≤ byte ∧ byte ≤ high then
        let collected := bits * 64 + (byte.toNat - 0x80)
        match later with
        | 0 => ([some (Char.ofNat collected)], .idle)
        | later + 1 => ([], .inside later 0x80 0xBF collected)
      else
        let (pieces, next) := firstByte byte
        (none :: pieces, next)

/-- The pieces owed when the bytes end: a character cut short is ill-formed. -/
def finish : Pending → List Piece
  | .idle => []
  | .inside .. => [none]

/-- All pieces of a byte sequence, after the pieces already found (latest
first). -/
def piecesFrom (pending : Pending) (found : List Piece) : List UInt8 → List Piece
  | [] => found.reverse ++ finish pending
  | byte :: bytes =>
      let (pieces, next) := step pending byte
      piecesFrom next (pieces.reverse ++ found) bytes

/-- The pieces of a byte sequence, in order. -/
def pieces (bytes : List UInt8) : List Piece :=
  piecesFrom .idle [] bytes

/-- Read bytes as text, with the replacement character for each ill-formed
piece. -/
def decodeLossy (bytes : List UInt8) : String :=
  String.ofList ((pieces bytes).map (·.getD replacement))

/-- Read bytes as text if they are well-formed throughout. -/
def decode? (bytes : List UInt8) : Option String :=
  ((pieces bytes).mapM id).map String.ofList

/-- The bytes of a text. -/
def encode (text : String) : List UInt8 :=
  text.toUTF8.toList

end Utf8

end ClassLint
