/-!
# Reading class-file bytes

Class files are read front to back in big-endian words.  Readers take bytes from
a source over one region (the whole file, the body of an attribute or a code
array) and stop at the first error.  Offsets count from the start of the region.

Readers are written once for all sources.  A source says how bytes are taken and
what becomes of the numbers that are computed on the way.  The plain source is a
`Cursor`, for which numbers have no bounds.
-/

namespace ClassLint

/-- The kinds of constant-pool entries that a use may ask for. -/
inductive ConstantKind where
  | utf8
  | classReference
  | memberReference
  | nameAndType
  | loadable
  deriving DecidableEq, Repr

/-- The words for a kind of constant-pool entry. -/
def ConstantKind.text : ConstantKind → String
  | .utf8 => "Utf8"
  | .classReference => "Class"
  | .memberReference => "member reference"
  | .nameAndType => "NameAndType"
  | .loadable => "loadable constant"

/-- The parts of a class file whose counts may contradict each other. -/
inductive MalformedPart where
  | constantPool
  | tableSwitchBounds
  | lookupSwitchPairs
  deriving DecidableEq, Repr

def MalformedPart.text : MalformedPart → String
  | .constantPool => "constant pool"
  | .tableSwitchBounds => "tableswitch bounds"
  | .lookupSwitchPairs => "lookupswitch pair count"

/-- Why bytes are not a class file. -/
inductive DecodeError where
  /-- The file does not start with the class-file magic word. -/
  | badMagic (magic : UInt32)
  /-- The region ends too early: where a word or block starts, and how many of
  its bytes are missing. -/
  | unexpectedEnd (offset missing : Nat)
  /-- No usable constant-pool entry has this index. -/
  | badConstantIndex (index : UInt16)
  /-- The entry at this index is of another kind than its use needs. -/
  | unexpectedConstant (index : UInt16) (expected : ConstantKind)
  | unknownConstantTag (tag : UInt8) (index : Nat)
  | invalidOpcode (opcode : UInt8) (position : Nat)
  | malformed (part : MalformedPart)
  deriving DecidableEq, Repr

/-- The hexadecimal digits of a number, in capitals, padded with zeros. -/
def hexadecimal (width number : Nat) : String :=
  let written := (Nat.toDigits 16 number).map Char.toUpper
  String.ofList (List.replicate (width - written.length) '0' ++ written)

def DecodeError.message : DecodeError → String
  | .badMagic magic => s!"not a class file (magic 0x{hexadecimal 8 magic.toNat})"
  | .unexpectedEnd offset missing =>
      s!"unexpected end of data at offset {offset} (needed {missing} more bytes)"
  | .badConstantIndex index => s!"constant pool index {index} is out of range"
  | .unexpectedConstant index expected =>
      s!"constant pool entry {index} is not a {expected.text}"
  | .unknownConstantTag tag index => s!"unknown constant pool tag {tag} at entry {index}"
  | .invalidOpcode opcode position =>
      s!"invalid opcode 0x{hexadecimal 2 opcode.toNat} at pc {position}"
  | .malformed part => s!"malformed {part.text}"

/-- Where a number is computed. -/
inductive Operation where
  /-- The number of bytes behind the position, which is negative past the end. -/
  | remaining
  | missing
  | blockEnd
  | padding
  /-- The distance of an opcode from the first one of its group. -/
  | impliedVariable
  /-- A position in code, as a signed word. -/
  | branchOrigin
  | shortTarget
  | longTarget
  /-- The difference of the bounds of a table. -/
  | tableSpan
  | tableEntries
  | tableLength
  /-- A number of pairs, as an unsigned word. -/
  | pairCount
  | pairsLength
  | nextPosition
  | nextSlot
  /-- A slot, as a 16-bit word. -/
  | reportedSlot
  deriving DecidableEq, Repr

/-- Where bytes come from, and what becomes of numbers.  A source has reasons of
its own to stop, the errors of the format among them. -/
class Source (σ : Type) (ε : outParam Type) where
  /-- The start of a region. -/
  start : List UInt8 → σ
  /-- The number of bytes of the region taken so far. -/
  offset : σ → Nat
  /-- Whether the region is used up. -/
  atEnd : σ → Bool
  /-- Take the next bytes. -/
  take : Nat → σ → Except ε (List UInt8 × σ)
  reject : σ → DecodeError → ε
  /-- What an operation gives whose exact result is a number. -/
  compute : σ → Operation → Int → Except ε Int

/-- A place in a region of bytes: how many have been read, and what is left. -/
structure Cursor where
  offset : Nat
  rest : List UInt8
  deriving DecidableEq, Repr

namespace Cursor

/-- The start of a region. -/
def start (bytes : List UInt8) : Cursor :=
  ⟨0, bytes⟩

/-- Take the next `count` bytes. -/
def take (count : Nat) (cursor : Cursor) : Except DecodeError (List UInt8 × Cursor) :=
  let taken := cursor.rest.take count
  if taken.length = count then
    .ok (taken, ⟨cursor.offset + count, cursor.rest.drop count⟩)
  else
    .error (.unexpectedEnd cursor.offset (count - cursor.rest.length))

end Cursor

instance : Source Cursor DecodeError where
  start := Cursor.start
  offset cursor := cursor.offset
  atEnd cursor := cursor.rest.isEmpty
  take := Cursor.take
  reject _ error := error
  compute _ _ value := .ok value

/-- A computation that takes bytes from a source or stops. -/
abbrev ReaderOver (σ ε : Type) := StateT σ (Except ε)

/-- A computation that takes bytes from a cursor or fails. -/
abbrev Reader := ReaderOver Cursor DecodeError

/-- The number that big-endian bytes spell. -/
def bigEndian (bytes : List UInt8) : Nat :=
  bytes.foldl (fun number byte => number * 256 + byte.toNat) 0

namespace Reader

variable {σ ε α : Type} [Source σ ε]

/-- Take the next `count` bytes. -/
def bytes (count : Nat) : ReaderOver σ ε (List UInt8) :=
  Source.take count

/-- Read a big-endian word of `count` bytes. -/
def word (count : Nat) : ReaderOver σ ε Nat := do
  return bigEndian (← bytes count)

def u8 : ReaderOver σ ε UInt8 := do
  return UInt8.ofNat (← word 1)

def u16 : ReaderOver σ ε UInt16 := do
  return UInt16.ofNat (← word 2)

def u32 : ReaderOver σ ε UInt32 := do
  return UInt32.ofNat (← word 4)

def u64 : ReaderOver σ ε UInt64 := do
  return UInt64.ofNat (← word 8)

def i8 : ReaderOver σ ε Int8 := do
  return (← u8).toInt8

def i16 : ReaderOver σ ε Int16 := do
  return (← u16).toInt16

def i32 : ReaderOver σ ε Int32 := do
  return (← u32).toInt32

def i64 : ReaderOver σ ε Int64 := do
  return (← u64).toInt64

def fail (error : DecodeError) : ReaderOver σ ε α := fun source =>
  .error (Source.reject source error)

/-- Use a result that may be an error of the format. -/
def lift (result : Except DecodeError α) : ReaderOver σ ε α := fun source =>
  match result with
  | .ok value => .ok (value, source)
  | .error error => .error (Source.reject source error)

/-- Use the result of a reader on another region. -/
def embed (result : Except ε α) : ReaderOver σ ε α := fun source =>
  match result with
  | .ok value => .ok (value, source)
  | .error stop => .error stop

/-- Compute a number. -/
def compute (operation : Operation) (value : Int) : ReaderOver σ ε Int := fun source =>
  match Source.compute source operation value with
  | .ok result => .ok (result, source)
  | .error stop => .error stop

/-- The number of bytes of the region read so far. -/
def offset : ReaderOver σ ε Nat := fun source => .ok (Source.offset source, source)

/-- Whether the region is used up. -/
def atEnd : ReaderOver σ ε Bool := fun source => .ok (Source.atEnd source, source)

/-- Skip to the next offset that is a multiple of four. -/
def alignToFour : ReaderOver σ ε Unit := do
  let position ← offset
  let distance ← compute .padding (4 - (position % 4 : Nat))
  let _ ← bytes (distance.toNat % 4)

/-- Run a reader `count` times, after the results found so far (latest first). -/
def repeatedFrom (reader : ReaderOver σ ε α) : Nat → List α → ReaderOver σ ε (List α)
  | 0, found => pure found.reverse
  | count + 1, found => do
      let value ← reader
      repeatedFrom reader count (value :: found)

/-- Run a reader `count` times and collect its results. -/
def repeated (count : Nat) (reader : ReaderOver σ ε α) : ReaderOver σ ε (List α) :=
  repeatedFrom reader count []

/-- Run a reader on a region of its own. -/
def within (region : List UInt8) (reader : ReaderOver σ ε α) : Except ε α :=
  match reader (Source.start region) with
  | .ok (value, _) => .ok value
  | .error stop => .error stop

end Reader

end ClassLint
