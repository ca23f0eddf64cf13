import ClassLint.ClassFile.Machine
import ClassLint.Proofs.ClassOutline
import ClassLint.Proofs.InstructionSet

/-!
# The grammar of class files

A class file is written as nested records with counted lists.  This file gives
the syntax of such files, their written form, and what they describe once their
slot numbers are looked up.  Decoding accepts exactly the written forms of
files that describe a class, whatever bytes follow, and gives the events of
that class.  A build that checks its numbers does not get past a branch that leads too
far, so what a file describes depends on the build.
-/

namespace ClassLint

/-- The written form of a block of bytes after its length. -/
def blockBytes (block : Counted 4 UInt8) : List UInt8 :=
  block.bytes fun byte => [byte]

/-- An attribute as it is written: the slot of its name, and its body. -/
structure WrittenAttribute where
  nameSlot : UInt16
  body : Counted 4 UInt8

namespace WrittenAttribute

def bytes (written : WrittenAttribute) : List UInt8 :=
  shortBytes written.nameSlot ++ blockBytes written.body

/-- The constant value that an attribute of a field gives.  The first two bytes
of a `ConstantValue` attribute are the slot of the constant. -/
inductive GivesConstant (table : ConstantTable) (written : WrittenAttribute) :
    Option Constant → Prop
  | constantValue {slot : UInt16} {rest : List UInt8} {constant : Constant}
      (named : table.HasText written.nameSlot "ConstantValue")
      (starts : written.body.val = shortBytes slot ++ rest)
      (held : table.HasConstant slot constant) :
      GivesConstant table written (some constant)
  | skipped {name : String} (named : table.HasText written.nameSlot name)
      (other : name ≠ "ConstantValue") :
      GivesConstant table written none

/-- The instructions that an attribute of a method gives.  A `Code` attribute
starts with the sizes of the stack and of the local variables, and a code array
after its length. -/
inductive GivesInstructions (build : Build) (table : ConstantTable)
    (written : WrittenAttribute) : List Instruction → Prop
  | code {maxStack maxLocals : UInt16} {array : Counted 4 UInt8} {rest : List UInt8}
      {instructions : List Instruction}
      (named : table.HasText written.nameSlot "Code")
      (starts : written.body.val =
        shortBytes maxStack ++ (shortBytes maxLocals ++ blockBytes array) ++ rest)
      (decoded : decodeCode table.pool array.val = .ok instructions)
      (near : build = .checked → ¬Instruction.FarBranch table.pool array.val) :
      GivesInstructions build table written instructions
  | skipped {name : String} (named : table.HasText written.nameSlot name)
      (other : name ≠ "Code") :
      GivesInstructions build table written []

end WrittenAttribute

/-- A field or a method as it is written. -/
structure WrittenMember where
  access : UInt16
  nameSlot : UInt16
  descriptorSlot : UInt16
  attributes : Counted 2 WrittenAttribute

namespace WrittenMember

/-- The written form of a field or a method. -/
def bytes (member : WrittenMember) : List UInt8 :=
  shortBytes member.access ++ (shortBytes member.nameSlot ++
    (shortBytes member.descriptorSlot ++ member.attributes.bytes WrittenAttribute.bytes))

/-- What a written field describes.  The last constant value counts. -/
structure IsField (table : ConstantTable) (member : WrittenMember)
    (field : FieldDeclaration) : Prop where
  access : field.access = ⟨member.access⟩
  name : table.HasText member.nameSlot field.name
  descriptor : table.HasText member.descriptorSlot field.descriptor
  constantValue : ∃ values,
    List.Forall₂ (WrittenAttribute.GivesConstant table) member.attributes.val values ∧
      field.constantValue = (values.filterMap id).getLast?

/-- What a written method describes.  The instructions of all its code follow one
another. -/
structure IsMethod (build : Build) (table : ConstantTable) (member : WrittenMember)
    (method : MethodOutline) : Prop where
  access : method.declaration.access = ⟨member.access⟩
  name : table.HasText member.nameSlot method.declaration.name
  descriptor : table.HasText member.descriptorSlot method.declaration.descriptor
  instructions : ∃ bodies,
    List.Forall₂ (WrittenAttribute.GivesInstructions build table) member.attributes.val
        bodies ∧
      method.instructions = bodies.flatten

end WrittenMember

/-- The header of a class as it is written. -/
structure WrittenHeader where
  access : UInt16
  nameSlot : UInt16
  superSlot : UInt16
  interfaceSlots : Counted 2 UInt16

/-- The table holds the name of a superclass at a slot.  Slot zero stands for no
superclass. -/
inductive ConstantTable.HasSuper (table : ConstantTable) : UInt16 → Option String → Prop
  | absent : HasSuper table 0 none
  | present {slot : UInt16} {name : String} (nonzero : slot ≠ 0)
      (hasClass : table.HasClass slot name) : HasSuper table slot (some name)

namespace WrittenHeader

def bytes (header : WrittenHeader) : List UInt8 :=
  shortBytes header.access ++ (shortBytes header.nameSlot ++
    (shortBytes header.superSlot ++ header.interfaceSlots.bytes shortBytes))

/-- What a written header describes. -/
structure IsHeader (table : ConstantTable) (written : WrittenHeader)
    (header : ClassHeader) : Prop where
  access : header.access = ⟨written.access⟩
  name : table.HasClass written.nameSlot header.name
  superName : table.HasSuper written.superSlot header.superName
  interfaces : List.Forall₂ table.HasClass written.interfaceSlots.val header.interfaces

end WrittenHeader

/-- A class file as it is written. -/
structure WrittenClass where
  minorVersion : UInt16
  majorVersion : UInt16
  constants : ConstantTable
  header : WrittenHeader
  fields : Counted 2 WrittenMember
  methods : Counted 2 WrittenMember
  attributes : Counted 2 WrittenAttribute

namespace WrittenClass

def bytes (file : WrittenClass) : List UInt8 :=
  [0xCA, 0xFE, 0xBA, 0xBE] ++ (shortBytes file.minorVersion ++
    (shortBytes file.majorVersion ++ (file.constants.bytes ++ (file.header.bytes ++
      (file.fields.bytes WrittenMember.bytes ++ (file.methods.bytes WrittenMember.bytes ++
        file.attributes.bytes WrittenAttribute.bytes))))))

/-- What a written class file describes to a build.  The attributes of the class are
not looked at. -/
structure Describes (file : WrittenClass) (build : Build) (outline : ClassOutline) :
    Prop where
  header : file.header.IsHeader file.constants outline.header
  fields : List.Forall₂ (WrittenMember.IsField file.constants) file.fields.val outline.fields
  methods : List.Forall₂ (WrittenMember.IsMethod build file.constants) file.methods.val
    outline.methods

end WrittenClass

end ClassLint
