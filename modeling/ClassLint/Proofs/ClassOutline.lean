import ClassLint.ClassFile.Event

/-!
# Class outlines

The events of a class come in a fixed order: the header, the fields, for each
method its start, its instructions and its end, and last the end of the class.
An outline keeps what may vary in that order, and `ClassOutline.events` puts it
into the sequence that checks see.
-/

namespace ClassLint

/-- A method with the instructions of its body. -/
structure MethodOutline where
  declaration : MethodDeclaration
  instructions : List Instruction
  deriving DecidableEq, Repr

def MethodOutline.events (method : MethodOutline) : List Event :=
  .methodStart method.declaration :: (method.instructions.map .instruction ++ [.methodEnd])

/-- A class with its fields and its methods. -/
structure ClassOutline where
  header : ClassHeader
  fields : List FieldDeclaration
  methods : List MethodOutline
  deriving DecidableEq, Repr

def ClassOutline.events (outline : ClassOutline) : List Event :=
  .classHeader outline.header ::
    (outline.fields.map .field ++ outline.methods.flatMap MethodOutline.events ++ [.classEnd])

end ClassLint
