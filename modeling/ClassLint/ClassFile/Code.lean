import ClassLint.ClassFile.ConstantPool

/-!
# Code arrays

The body of a method is an array of bytes in which instructions follow one
another without gaps.  The opcode of an instruction fixes the layout of its
operands; only the two switch instructions have padding, which depends on their
position in the array.
-/

namespace ClassLint

namespace Opcode

def aconstNull : UInt8 := 0x01
def iloadZero : UInt8 := 0x1A
def istoreZero : UInt8 := 0x3B
def iinc : UInt8 := 0x84
def areturn : UInt8 := 0xB0

/-- The first of the opcodes that name local variables in the group of an
opcode. -/
def firstOfGroup (opcode : UInt8) : UInt8 :=
  if opcode < istoreZero then iloadZero else istoreZero

/-- Whether the opcode reads or writes the local variable that its operand
names. -/
def hasVariableOperand (opcode : UInt8) : Bool :=
  0x15 ≤ opcode && opcode ≤ 0x19 || 0x36 ≤ opcode && opcode ≤ 0x3A || opcode == 0xA9

end Opcode

/-- What follows an opcode. -/
inductive OperandLayout where
  /-- Nothing. -/
  | empty
  /-- A signed byte to push. -/
  | byteImmediate
  /-- A signed 16-bit word to push. -/
  | shortImmediate
  /-- The slot of a constant, in one byte. -/
  | shortConstant
  /-- The slot of a constant, in two bytes. -/
  | longConstant
  /-- The number of a local variable, in one byte. -/
  | localVariable
  /-- Nothing; the opcode itself names the local variable. -/
  | impliedVariable (index : UInt16)
  /-- The number of a local variable and a signed byte to add to it. -/
  | increment
  /-- A signed 16-bit distance. -/
  | shortBranch
  /-- A signed 32-bit distance. -/
  | longBranch
  /-- Padding, a default distance, two bounds and a distance for each value
  between them. -/
  | tableSwitch
  /-- Padding, a default distance, a count and as many pairs of a value and a
  distance. -/
  | lookupSwitch
  /-- The slot of a field. -/
  | field
  /-- The slot of a method. -/
  | method
  /-- The slot of a method and two more bytes. -/
  | interfaceMethod
  /-- The slot of a call site and two more bytes. -/
  | dynamicCall
  /-- The slot of a class. -/
  | classReference
  /-- The slot of a class and a number of dimensions. -/
  | arrayClass
  /-- The code of a primitive type. -/
  | primitiveType
  /-- Another opcode, the number of its local variable in two bytes and, for an
  increment, a signed 16-bit word. -/
  | widened
  deriving DecidableEq, Repr

/-- The layout of the operands of an opcode.  The opcodes above `0xC9` have
none. -/
def OperandLayout.ofOpcode? (opcode : UInt8) : Option OperandLayout :=
  if opcode ≤ 0x0F then some .empty
  else if opcode = 0x10 then some .byteImmediate
  else if opcode = 0x11 then some .shortImmediate
  else if opcode = 0x12 then some .shortConstant
  else if opcode ≤ 0x14 then some .longConstant
  else if opcode ≤ 0x19 then some .localVariable
  else if opcode ≤ 0x2D then some (.impliedVariable ((opcode - Opcode.iloadZero) % 4).toUInt16)
  else if opcode ≤ 0x35 then some .empty
  else if opcode ≤ 0x3A then some .localVariable
  else if opcode ≤ 0x4E then some (.impliedVariable ((opcode - Opcode.istoreZero) % 4).toUInt16)
  else if opcode ≤ 0x83 then some .empty
  else if opcode = 0x84 then some .increment
  else if opcode ≤ 0x98 then some .empty
  else if opcode ≤ 0xA8 then some .shortBranch
  else if opcode = 0xA9 then some .localVariable
  else if opcode = 0xAA then some .tableSwitch
  else if opcode = 0xAB then some .lookupSwitch
  else if opcode ≤ 0xB1 then some .empty
  else if opcode ≤ 0xB5 then some .field
  else if opcode ≤ 0xB8 then some .method
  else if opcode = 0xB9 then some .interfaceMethod
  else if opcode = 0xBA then some .dynamicCall
  else if opcode = 0xBB then some .classReference
  else if opcode = 0xBC then some .primitiveType
  else if opcode = 0xBD then some .classReference
  else if opcode ≤ 0xBF then some .empty
  else if opcode ≤ 0xC1 then some .classReference
  else if opcode ≤ 0xC3 then some .empty
  else if opcode = 0xC4 then some .widened
  else if opcode = 0xC5 then some .arrayClass
  else if opcode ≤ 0xC7 then some .shortBranch
  else if opcode ≤ 0xC9 then some .longBranch
  else none

namespace Instruction

variable {σ ε : Type} [Source σ ε]

/-- Read the operands of the instruction at a position whose opcode has been
read. -/
def readOperands (pool : ConstantPool) (position : Nat) (opcode : UInt8) :
    OperandLayout → ReaderOver σ ε Instruction
  | .empty => return .simple opcode
  | .byteImmediate => do
      let value ← Reader.i8
      return .push value.toInt32
  | .shortImmediate => do
      let value ← Reader.i16
      return .push value.toInt32
  | .shortConstant => do
      let slot ← Reader.u8
      return .loadConstant (← Reader.lift (pool.constant slot.toUInt16))
  | .longConstant => do
      let slot ← Reader.u16
      return .loadConstant (← Reader.lift (pool.constant slot))
  | .localVariable => do
      let index ← Reader.u8
      return .localAccess opcode index.toUInt16
  | .impliedVariable index => do
      -- The index is what this distance leaves when it is divided by four.
      let _ ← Reader.compute .impliedVariable
        (opcode.toNat - (Opcode.firstOfGroup opcode).toNat)
      return .localAccess opcode index
  | .increment => do
      let index ← Reader.u8
      let _ ← Reader.i8
      return .localAccess opcode index.toUInt16
  | .shortBranch => do
      let origin ← Reader.compute .branchOrigin position
      let distance ← Reader.i16
      let target ← Reader.compute .shortTarget (origin + distance.toInt)
      return .jump opcode (Int32.ofInt target)
  | .longBranch => do
      let origin ← Reader.compute .branchOrigin position
      let distance ← Reader.i32
      let target ← Reader.compute .longTarget (origin + distance.toInt)
      return .jump opcode (Int32.ofInt target)
  | .tableSwitch => do
      Reader.alignToFour
      let _ ← Reader.i32
      let low ← Reader.i32
      let high ← Reader.i32
      if high < low then
        Reader.fail (.malformed .tableSwitchBounds)
      else
        let span ← Reader.compute .tableSpan (high.toInt - low.toInt)
        let entries ← Reader.compute .tableEntries (span + 1)
        let length ← Reader.compute .tableLength (entries * 4)
        let _ ← Reader.bytes length.toNat
        return .other opcode
  | .lookupSwitch => do
      Reader.alignToFour
      let _ ← Reader.i32
      let pairs ← Reader.i32
      if pairs < 0 then
        Reader.fail (.malformed .lookupSwitchPairs)
      else
        let count ← Reader.compute .pairCount pairs.toInt
        let length ← Reader.compute .pairsLength (count * 8)
        let _ ← Reader.bytes length.toNat
        return .other opcode
  | .field => do
      let slot ← Reader.u16
      let (field, _) ← Reader.lift (pool.member slot)
      return .fieldAccess opcode field
  | .method => do
      let slot ← Reader.u16
      let (method, ofInterface) ← Reader.lift (pool.member slot)
      return .call opcode method ofInterface
  | .interfaceMethod => do
      let slot ← Reader.u16
      let (method, ofInterface) ← Reader.lift (pool.member slot)
      let _ ← Reader.u8
      let _ ← Reader.u8
      return .call opcode method ofInterface
  | .dynamicCall => do
      let _ ← Reader.u16
      let _ ← Reader.bytes 2
      return .other opcode
  | .classReference => do
      let slot ← Reader.u16
      return .typeReference opcode (← Reader.lift (pool.className slot))
  | .arrayClass => do
      let slot ← Reader.u16
      let typeName ← Reader.lift (pool.className slot)
      let _ ← Reader.u8
      return .typeReference opcode typeName
  | .primitiveType => do
      let _ ← Reader.u8
      return .other opcode
  | .widened => do
      let widened ← Reader.u8
      let index ← Reader.u16
      if widened = Opcode.iinc then
        let _ ← Reader.i16
        return .localAccess widened index
      else if Opcode.hasVariableOperand widened then
        return .localAccess widened index
      else
        let next ← Reader.compute .nextPosition (position + 1)
        Reader.fail (.invalidOpcode widened next.toNat)

def read (pool : ConstantPool) : ReaderOver σ ε Instruction := do
  let position ← Reader.offset
  let opcode ← Reader.u8
  match OperandLayout.ofOpcode? opcode with
  | some layout => readOperands pool position opcode layout
  | none => Reader.fail (.invalidOpcode opcode position)

/-- Read instructions to the end of the region, after those found so far (latest
first).  Each instruction takes a byte at least, so the number of bytes bounds
the number of instructions. -/
def readAllFrom (pool : ConstantPool) :
    Nat → List Instruction → ReaderOver σ ε (List Instruction)
  | 0, found => return found.reverse
  | bound + 1, found => do
      if ← Reader.atEnd then
        return found.reverse
      else
        let instruction ← read pool
        readAllFrom pool bound (instruction :: found)

end Instruction

def decodeCode (pool : ConstantPool) (code : List UInt8) :
    Except DecodeError (List Instruction) :=
  Reader.within code (Instruction.readAllFrom pool code.length [] : Reader (List Instruction))

end ClassLint
