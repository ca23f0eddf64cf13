import ClassLint.ClassFile.Decode

/-!
# Decoding with machine words

Numbers in a machine have bounds.  A `Region` is a source that keeps a whole region of
bytes and a position in it, and that holds each number against the bounds of its
operation.  A number out of bounds stops the decoder if the operation is checked, and
is wrapped otherwise.  A block that does not lie in its region always stops it.

The program can be built with checks or without them.  Without checks nothing stops it
but bytes that are not a class file.
-/

namespace ClassLint

namespace Operation

/-- The least number that an operation may give. -/
def least : Operation → Int
  | .branchOrigin | .shortTarget | .longTarget => -0x80000000
  | .tableSpan => -0x8000000000000000
  | .tableEntries => 1
  | _ => 0

/-- The greatest number that an operation may give.  Positions and lengths have 64 bits.
Tables have the bound that follows from those of their ends. -/
def greatest : Operation → Int
  | .remaining | .missing | .blockEnd | .padding | .tableLength | .pairCount | .pairsLength
  | .nextPosition => 0xFFFFFFFFFFFFFFFF
  | .impliedVariable => 0xFF
  | .branchOrigin | .shortTarget | .longTarget => 0x7FFFFFFF
  | .tableSpan => 0x7FFFFFFFFFFFFFFF
  | .tableEntries => 0x100000000
  | .nextSlot => 0xFFFFFFFF
  | .reportedSlot => 0xFFFF

def Allows (operation : Operation) (value : Int) : Prop :=
  operation.least ≤ value ∧ value ≤ operation.greatest

instance (operation : Operation) (value : Int) : Decidable (operation.Allows value) :=
  inferInstanceAs (Decidable (_ ∧ _))

/-- The number in the bounds of an operation that differs from a given one by a multiple
of their distance. -/
def wrap (operation : Operation) (value : Int) : Int :=
  operation.least + (value - operation.least) % (operation.greatest - operation.least + 1)

/-- Whether a build with checks holds an operation to its bounds.  Conversions are never
checked, and the length of a table is limited instead. -/
def isChecked : Operation → Bool
  | .branchOrigin | .tableLength | .pairCount | .reportedSlot => false
  | _ => true

end Operation

/-- Why a decoder with machine words stops without a class. -/
inductive Halt where
  /-- The bytes are not a class file. -/
  | rejected (error : DecodeError)
  /-- A number is out of the bounds of its operation. -/
  | outOfRange (operation : Operation) (value : Int)
  /-- A block does not lie in its region. -/
  | outOfRegion (first last size : Nat)
  deriving DecidableEq, Repr

/-- A region of bytes and a position in it, where some operations are checked. -/
structure Region (checks : Operation → Bool) where
  data : List UInt8
  position : Nat
  deriving DecidableEq, Repr

namespace Region

variable {checks : Operation → Bool}

def compute (_ : Region checks) (operation : Operation) (value : Int) : Except Halt Int :=
  if operation.Allows value then .ok value
  else if checks operation then .error (.outOfRange operation value)
  else .ok (operation.wrap value)

/-- Take the block up to a position, which becomes the position of the region.  No other
step moves a position. -/
def takeUpTo (last : Nat) (region : Region checks) : Except Halt (List UInt8 × Region checks) :=
  if region.position ≤ last ∧ last ≤ region.data.length then
    .ok ((region.data.drop region.position).take (last - region.position), ⟨region.data, last⟩)
  else
    .error (.outOfRegion region.position last region.data.length)

/-- Take the next `count` bytes. -/
def take (count : Nat) (region : Region checks) : Except Halt (List UInt8 × Region checks) := do
  let remaining ← region.compute .remaining (region.data.length - region.position)
  if remaining < count then
    let missing ← region.compute .missing (count - remaining)
    throw (.rejected (.unexpectedEnd region.position missing.toNat))
  else
    let last ← region.compute .blockEnd (region.position + count)
    region.takeUpTo last.toNat

end Region

instance (checks : Operation → Bool) : Source (Region checks) Halt where
  start data := ⟨data, 0⟩
  offset region := region.position
  atEnd region := decide (region.data.length ≤ region.position)
  take := Region.take
  reject _ error := .rejected error
  compute := Region.compute

/-- A reader with machine words. -/
abbrev Machine (checks : Operation → Bool) := ReaderOver (Region checks) Halt

namespace Machine

def decodeCode (checks : Operation → Bool) (pool : ConstantPool) (code : List UInt8) :
    Except Halt (List Instruction) :=
  Reader.within code
    (Instruction.readAllFrom pool code.length [] : Machine checks (List Instruction))

/-- The events of the class that the bytes of a class file hold. -/
def decodeClass (checks : Operation → Bool) (bytes : List UInt8) : Except Halt (List Event) :=
  Reader.within bytes (ClassFile.readClass (decodeCode checks) : Machine checks (List Event))

end Machine

/-- Ways to build the program. -/
inductive Build where
  /-- Numbers out of bounds are wrapped. -/
  | release
  /-- Numbers out of bounds stop the program. -/
  | checked
  deriving DecidableEq, Repr

/-- What a build makes of the bytes of a class file.  There is no result if the program is
stopped. -/
def Build.decode : Build → List UInt8 → Option (Except DecodeError (List Event))
  | .release, bytes => some (decodeClass bytes)
  | .checked, bytes =>
      match Machine.decodeClass Operation.isChecked bytes with
      | .ok events => some (.ok events)
      | .error (.rejected error) => some (.error error)
      | .error _ => none

end ClassLint
