import ClassLint.ClassFile.AccessFlags
import ClassLint.ClassFile.Constant

/-!
# Events

A decoded class is a flat list of events: its header, its fields, then for each
method a start, the instructions of its body and an end, and last the end of
the class.  Checks see one event at a time.
-/

namespace ClassLint

/-- The part of a qualified name after its last `/` or `.`. -/
def simpleName (qualified : String) : String :=
  String.ofList
    (qualified.toList.reverse.takeWhile fun char => char != '/' && char != '.').reverse

/-- The header of a class. -/
structure ClassHeader where
  name : String
  access : AccessFlags
  superName : Option String
  interfaces : List String
  deriving DecidableEq, Repr

/-- The name of a class without its package. -/
def ClassHeader.simpleName (header : ClassHeader) : String :=
  ClassLint.simpleName header.name

/-- A declared field. -/
structure FieldDeclaration where
  name : String
  descriptor : String
  access : AccessFlags
  constantValue : Option Constant
  deriving DecidableEq, Repr

/-- A declared method. -/
structure MethodDeclaration where
  name : String
  descriptor : String
  access : AccessFlags
  deriving DecidableEq, Repr

namespace MethodDeclaration

def isConstructor (method : MethodDeclaration) : Bool :=
  method.name == "<init>"

/-- Whether the method initialises the class. -/
def isStaticInitializer (method : MethodDeclaration) : Bool :=
  method.name == "<clinit>"

/-- Whether the method is a constructor or initialises the class. -/
def isInitializer (method : MethodDeclaration) : Bool :=
  method.isConstructor || method.isStaticInitializer

end MethodDeclaration

/-- A field or a method as an instruction names it. -/
structure Member where
  owner : String
  name : String
  descriptor : String
  deriving DecidableEq, Repr

/-- An instruction of a method body, with the operands that checks look at. -/
inductive Instruction where
  /-- An instruction without operands. -/
  | simple (opcode : UInt8)
  /-- A push of a small integer. -/
  | push (value : Int32)
  /-- A load of a constant. -/
  | loadConstant (constant : Constant)
  | fieldAccess (opcode : UInt8) (field : Member)
  | call (opcode : UInt8) (method : Member) (ofInterface : Bool)
  /-- A read or write of a local variable. -/
  | localAccess (opcode : UInt8) (index : UInt16)
  /-- An instruction that names a type. -/
  | typeReference (opcode : UInt8) (typeName : String)
  /-- A branch to a position in the code, as a signed word. -/
  | jump (opcode : UInt8) (target : Int32)
  /-- Any other instruction. -/
  | other (opcode : UInt8)
  deriving DecidableEq, Repr

/-- One step of a walk over a class. -/
inductive Event where
  | classHeader (header : ClassHeader)
  | field (field : FieldDeclaration)
  | methodStart (method : MethodDeclaration)
  | instruction (instruction : Instruction)
  | methodEnd
  | classEnd
  deriving DecidableEq, Repr

/-- The kinds of events. -/
inductive EventKind where
  | classHeader
  | field
  | methodStart
  | instruction
  | methodEnd
  | classEnd
  deriving DecidableEq, Repr

def Event.kind : Event → EventKind
  | .classHeader _ => .classHeader
  | .field _ => .field
  | .methodStart _ => .methodStart
  | .instruction _ => .instruction
  | .methodEnd => .methodEnd
  | .classEnd => .classEnd

def EventKind.text : EventKind → String
  | .classHeader => "class"
  | .field => "field"
  | .methodStart => "method start"
  | .instruction => "instruction"
  | .methodEnd => "method end"
  | .classEnd => "class end"

end ClassLint
