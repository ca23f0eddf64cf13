import ClassLint.ClassFile.Code

/-!
# Class files

A class file is a magic word, two version words, a constant pool, the header of
the class, its fields, its methods and its attributes.  `decodeClass` flattens
it into a list of events.  Only the constant values of fields and the code of
methods are looked at among the attributes, and bytes after the class are
ignored.
-/

namespace ClassLint

namespace ClassFile

/-- The first word of every class file. -/
def magic : UInt32 := 0xCAFEBABE

variable {σ ε : Type} [Source σ ε]

/-- Read the attributes of a field or a method.  The body of each is a region of
its own, read under the name of the attribute and with what the earlier attributes
gave. -/
def readAttributesFrom {α : Type} (pool : ConstantPool)
    (readBody : String → α → ReaderOver σ ε α) : Nat → α → ReaderOver σ ε α
  | 0, collected => return collected
  | count + 1, collected => do
      let nameSlot ← Reader.u16
      let name ← Reader.lift (pool.utf8 nameSlot)
      let length ← Reader.u32
      let body ← Reader.bytes length.toNat
      let collected ← Reader.embed (Reader.within body (readBody name collected))
      readAttributesFrom pool readBody count collected

/-- Read the attributes of a field or a method, with their count. -/
def readAttributes {α : Type} (pool : ConstantPool)
    (readBody : String → α → ReaderOver σ ε α) (initial : α) : ReaderOver σ ε α := do
  let count ← Reader.u16
  readAttributesFrom pool readBody count.toNat initial

/-- The constant value of a field after one more of its attributes: the last
`ConstantValue` attribute counts. -/
def readFieldAttribute (pool : ConstantPool) (name : String) (value : Option Constant) :
    ReaderOver σ ε (Option Constant) :=
  if name = "ConstantValue" then do
    let slot ← Reader.u16
    return some (← Reader.lift (pool.constant slot))
  else
    return value

def readCodeArray : ReaderOver σ ε (List UInt8) := do
  let _ ← Reader.u16
  let _ ← Reader.u16
  let length ← Reader.u32
  Reader.bytes length.toNat

/-- The instructions of a method after one more of its attributes: those of each
`Code` attribute follow those of the earlier ones. -/
def readMethodAttribute (decode : List UInt8 → Except ε (List Instruction)) (name : String)
    (instructions : List Instruction) : ReaderOver σ ε (List Instruction) :=
  if name = "Code" then do
    let code ← readCodeArray
    return instructions ++ (← Reader.embed (decode code))
  else
    return instructions

def readField (pool : ConstantPool) : ReaderOver σ ε FieldDeclaration := do
  let access ← Reader.u16
  let nameSlot ← Reader.u16
  let name ← Reader.lift (pool.utf8 nameSlot)
  let descriptorSlot ← Reader.u16
  let descriptor ← Reader.lift (pool.utf8 descriptorSlot)
  let constantValue ← readAttributes pool (readFieldAttribute pool) none
  return ⟨name, descriptor, ⟨access⟩, constantValue⟩

/-- Read a method with its instructions, which `decode` takes from code arrays. -/
def readMethod (decode : ConstantPool → List UInt8 → Except ε (List Instruction))
    (pool : ConstantPool) : ReaderOver σ ε (MethodDeclaration × List Instruction) := do
  let access ← Reader.u16
  let nameSlot ← Reader.u16
  let name ← Reader.lift (pool.utf8 nameSlot)
  let descriptorSlot ← Reader.u16
  let descriptor ← Reader.lift (pool.utf8 descriptorSlot)
  let instructions ← readAttributes pool (readMethodAttribute (decode pool)) []
  return (⟨name, descriptor, ⟨access⟩⟩, instructions)

def methodEvents (method : MethodDeclaration × List Instruction) : List Event :=
  .methodStart method.1 :: (method.2.map .instruction ++ [.methodEnd])

/-- Skip one attribute of the class.  Its name is not looked up. -/
def skipAttribute : ReaderOver σ ε Unit := do
  let _ ← Reader.u16
  let length ← Reader.u32
  let _ ← Reader.bytes length.toNat

/-- Read the name of a superclass: slot zero means that there is none. -/
def readSuperName (pool : ConstantPool) : ReaderOver σ ε (Option String) := do
  let slot ← Reader.u16
  if slot = 0 then
    return none
  else
    return some (← Reader.lift (pool.className slot))

def readClassName (pool : ConstantPool) : ReaderOver σ ε String := do
  let slot ← Reader.u16
  Reader.lift (pool.className slot)

def readHeader (pool : ConstantPool) : ReaderOver σ ε ClassHeader := do
  let access ← Reader.u16
  let name ← readClassName pool
  let superName ← readSuperName pool
  let interfaceCount ← Reader.u16
  let interfaces ← Reader.repeated interfaceCount.toNat (readClassName pool)
  return ⟨name, ⟨access⟩, superName, interfaces⟩

/-- Read a class file up to the end of the class. -/
def readClass (decode : ConstantPool → List UInt8 → Except ε (List Instruction)) :
    ReaderOver σ ε (List Event) := do
  let found ← Reader.u32
  if found ≠ magic then
    Reader.fail (.badMagic found)
  else
    let _ ← Reader.u16
    let _ ← Reader.u16
    let pool ← ConstantPool.read
    let header ← readHeader pool
    let fieldCount ← Reader.u16
    let fields ← Reader.repeated fieldCount.toNat (readField pool)
    let methodCount ← Reader.u16
    let methods ← Reader.repeated methodCount.toNat (readMethod decode pool)
    let attributeCount ← Reader.u16
    let _ ← Reader.repeated attributeCount.toNat skipAttribute
    return .classHeader header ::
      (fields.map .field ++ methods.flatMap methodEvents ++ [.classEnd])

end ClassFile

/-- The events of the class that the bytes of a class file hold. -/
def decodeClass (bytes : List UInt8) : Except DecodeError (List Event) :=
  Reader.within bytes (ClassFile.readClass decodeCode : Reader (List Event))

end ClassLint
