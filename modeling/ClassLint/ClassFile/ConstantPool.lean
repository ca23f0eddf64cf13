import ClassLint.ClassFile.Event
import ClassLint.ClassFile.Reader
import ClassLint.Text.Utf8

/-!
# The constant pool

A class file keeps its names and constants in a table of numbered slots.  Slot
zero holds no entry, and a 64-bit number takes two slots, the second of which
holds none.  Every other slot holds one entry, and entries refer to each other
by slot number.
-/

namespace ClassLint

/-- An entry of the constant pool, as it is written in the file. -/
inductive PoolEntry where
  | utf8 (bytes : List UInt8)
  | integer (value : Int32)
  | float (bits : UInt32)
  | long (value : Int64)
  | double (bits : UInt64)
  | classReference (name : UInt16)
  | string (text : UInt16)
  | fieldReference (owner nameAndType : UInt16)
  | methodReference (owner nameAndType : UInt16)
  | interfaceMethodReference (owner nameAndType : UInt16)
  | nameAndType (name descriptor : UInt16)
  | methodHandle (kind : UInt8) (reference : UInt16)
  | methodType (descriptor : UInt16)
  | dynamicConstant (bootstrap nameAndType : UInt16)
  | dynamicCall (bootstrap nameAndType : UInt16)
  | moduleName (name : UInt16)
  | packageName (name : UInt16)
  deriving DecidableEq, Repr

namespace PoolEntry

variable {σ ε : Type} [Source σ ε]

/-- Whether the entry takes two slots. -/
def isWide : PoolEntry → Bool
  | .long _ => true
  | .double _ => true
  | _ => false

/-- Read the rest of an entry after its tag.  The slot is named in the error for
an unknown tag. -/
def readTagged (tag : UInt8) (slot : Nat) : ReaderOver σ ε PoolEntry := do
  match tag with
  | 1 =>
      let length ← Reader.u16
      return .utf8 (← Reader.bytes length.toNat)
  | 3 => return .integer (← Reader.i32)
  | 4 => return .float (← Reader.u32)
  | 5 => return .long (← Reader.i64)
  | 6 => return .double (← Reader.u64)
  | 7 => return .classReference (← Reader.u16)
  | 8 => return .string (← Reader.u16)
  | 9 => return .fieldReference (← Reader.u16) (← Reader.u16)
  | 10 => return .methodReference (← Reader.u16) (← Reader.u16)
  | 11 => return .interfaceMethodReference (← Reader.u16) (← Reader.u16)
  | 12 => return .nameAndType (← Reader.u16) (← Reader.u16)
  | 15 =>
      let payload ← Reader.bytes 3
      return .methodHandle (UInt8.ofNat (bigEndian (payload.take 1)))
        (UInt16.ofNat (bigEndian (payload.drop 1)))
  | 16 => return .methodType (← Reader.u16)
  | 17 =>
      let payload ← Reader.bytes 4
      return .dynamicConstant (UInt16.ofNat (bigEndian (payload.take 2)))
        (UInt16.ofNat (bigEndian (payload.drop 2)))
  | 18 =>
      let payload ← Reader.bytes 4
      return .dynamicCall (UInt16.ofNat (bigEndian (payload.take 2)))
        (UInt16.ofNat (bigEndian (payload.drop 2)))
  | 19 => return .moduleName (← Reader.u16)
  | 20 => return .packageName (← Reader.u16)
  | _ =>
      let reported ← Reader.compute .reportedSlot slot
      Reader.fail (.unknownConstantTag tag reported.toNat)

end PoolEntry

/-- The slots of a constant pool.  An unusable slot holds no entry. -/
structure ConstantPool where
  slots : Array (Option PoolEntry)
  deriving DecidableEq, Repr

namespace ConstantPool

variable {σ ε : Type} [Source σ ε]

/-- Read entries until `remaining` slots are filled, from a slot on.  An entry that
takes two slots needs both of them to remain. -/
def readSlots :
    Nat → Nat → Array (Option PoolEntry) → ReaderOver σ ε (Array (Option PoolEntry))
  | 0, _, slots => pure slots
  | 1, slot, slots => do
      let tag ← Reader.u8
      let entry ← PoolEntry.readTagged tag slot
      let _ ← Reader.compute .nextSlot (slot + 1)
      if entry.isWide then
        Reader.fail (.malformed .constantPool)
      else
        return slots.push (some entry)
  | remaining + 2, slot, slots => do
      let tag ← Reader.u8
      let entry ← PoolEntry.readTagged tag slot
      let next ← Reader.compute .nextSlot (slot + 1)
      if entry.isWide then
        let afterNext ← Reader.compute .nextSlot (next + 1)
        readSlots remaining afterNext.toNat ((slots.push (some entry)).push none)
      else
        readSlots (remaining + 1) next.toNat (slots.push (some entry))

/-- Read the constant pool.  Its count includes slot zero. -/
def read : ReaderOver σ ε ConstantPool := do
  let count ← Reader.u16
  return ⟨← readSlots (count.toNat - 1) 1 #[none]⟩

def entry (pool : ConstantPool) (index : UInt16) : Except DecodeError PoolEntry :=
  match pool.slots[index.toNat]? with
  | some (some entry) => .ok entry
  | _ => .error (.badConstantIndex index)

/-- The text of the entry at an index. -/
def utf8 (pool : ConstantPool) (index : UInt16) : Except DecodeError String := do
  match ← pool.entry index with
  | .utf8 bytes => return Utf8.decodeLossy bytes
  | _ => throw (.unexpectedConstant index .utf8)

def className (pool : ConstantPool) (index : UInt16) : Except DecodeError String := do
  match ← pool.entry index with
  | .classReference name => pool.utf8 name
  | _ => throw (.unexpectedConstant index .classReference)

def nameAndType (pool : ConstantPool) (index : UInt16) :
    Except DecodeError (String × String) := do
  match ← pool.entry index with
  | .nameAndType name descriptor => return (← pool.utf8 name, ← pool.utf8 descriptor)
  | _ => throw (.unexpectedConstant index .nameAndType)

/-- The field or method at an index, and whether it is a method of an
interface.  The owner is looked up last. -/
def member (pool : ConstantPool) (index : UInt16) : Except DecodeError (Member × Bool) := do
  let resolve (owner nameAndType : UInt16) (ofInterface : Bool) := do
    let (name, descriptor) ← pool.nameAndType nameAndType
    let owner ← pool.className owner
    return (⟨owner, name, descriptor⟩, ofInterface)
  match ← pool.entry index with
  | .fieldReference owner nameAndType => resolve owner nameAndType false
  | .methodReference owner nameAndType => resolve owner nameAndType false
  | .interfaceMethodReference owner nameAndType => resolve owner nameAndType true
  | _ => throw (.unexpectedConstant index .memberReference)

/-- The loadable constant at an index. -/
def constant (pool : ConstantPool) (index : UInt16) : Except DecodeError Constant := do
  match ← pool.entry index with
  | .integer value => return .integer value
  | .float bits => return .float bits
  | .long value => return .long value
  | .double bits => return .double bits
  | .string text => return .other ("\"" ++ (← pool.utf8 text) ++ "\"")
  | .classReference name => return .other ((← pool.utf8 name) ++ ".class")
  | .methodType descriptor => return .other (← pool.utf8 descriptor)
  | .methodHandle _ _ => return .other "method handle"
  | .dynamicConstant _ _ => return .other "dynamic constant"
  | .dynamicCall _ _ => return .other "dynamic constant"
  | _ => throw (.unexpectedConstant index .loadable)

end ConstantPool

end ClassLint
