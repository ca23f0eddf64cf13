import ClassLint.ClassFile.Code
import ClassLint.Proofs.ConstantTable

/-!
# The instruction set

The instructions of the machine are listed here by name, in the order of their
opcodes, each with the layout of its operands.  An instruction is written as its
opcode and its operands; `OperandLayout.Encodes` says what those bytes are for
each layout and what is kept of them.  A code array is made of such words, put
one after the other without gaps.
-/

namespace ClassLint

/-- The instructions of the machine, in the order of their opcodes. -/
inductive Mnemonic where
  | nop | aconstNull | iconstM1 | iconst0 | iconst1 | iconst2 | iconst3 | iconst4
  | iconst5 | lconst0 | lconst1 | fconst0 | fconst1 | fconst2 | dconst0 | dconst1
  | bipush | sipush | ldc | ldcW | ldc2W | iload | lload | fload
  | dload | aload | iload0 | iload1 | iload2 | iload3 | lload0 | lload1
  | lload2 | lload3 | fload0 | fload1 | fload2 | fload3 | dload0 | dload1
  | dload2 | dload3 | aload0 | aload1 | aload2 | aload3 | iaload | laload
  | faload | daload | aaload | baload | caload | saload | istore | lstore
  | fstore | dstore | astore | istore0 | istore1 | istore2 | istore3 | lstore0
  | lstore1 | lstore2 | lstore3 | fstore0 | fstore1 | fstore2 | fstore3 | dstore0
  | dstore1 | dstore2 | dstore3 | astore0 | astore1 | astore2 | astore3 | iastore
  | lastore | fastore | dastore | aastore | bastore | castore | sastore | pop
  | pop2 | dup | dupX1 | dupX2 | dup2 | dup2X1 | dup2X2 | swap
  | iadd | ladd | fadd | dadd | isub | lsub | fsub | dsub
  | imul | lmul | fmul | dmul | idiv | ldiv | fdiv | ddiv
  | irem | lrem | frem | drem | ineg | lneg | fneg | dneg
  | ishl | lshl | ishr | lshr | iushr | lushr | iand | land
  | ior | lor | ixor | lxor | iinc | i2l | i2f | i2d
  | l2i | l2f | l2d | f2i | f2l | f2d | d2i | d2l
  | d2f | i2b | i2c | i2s | lcmp | fcmpl | fcmpg | dcmpl
  | dcmpg | ifeq | ifne | iflt | ifge | ifgt | ifle | ifIcmpeq
  | ifIcmpne | ifIcmplt | ifIcmpge | ifIcmpgt | ifIcmple | ifAcmpeq | ifAcmpne | goto
  | jsr | ret | tableswitch | lookupswitch | ireturn | lreturn | freturn | dreturn
  | areturn | returnVoid | getstatic | putstatic | getfield | putfield | invokevirtual
  | invokespecial | invokestatic | invokeinterface | invokedynamic | new | newarray
  | anewarray | arraylength | athrow | checkcast | instanceof | monitorenter
  | monitorexit | wide | multianewarray | ifnull | ifnonnull | gotoW | jsrW
  deriving DecidableEq, Repr

namespace Mnemonic

/-- The opcodes count the instructions from zero. -/
def opcode (mnemonic : Mnemonic) : UInt8 :=
  UInt8.ofNat mnemonic.ctorIdx

/-- The layout of the operands of an instruction. -/
def layout : Mnemonic → OperandLayout
  | bipush => .byteImmediate
  | sipush => .shortImmediate
  | ldc => .shortConstant
  | ldcW | ldc2W => .longConstant
  | iload | lload | fload | dload | aload
  | istore | lstore | fstore | dstore | astore | ret => .localVariable
  | iload0 | lload0 | fload0 | dload0 | aload0
  | istore0 | lstore0 | fstore0 | dstore0 | astore0 => .impliedVariable 0
  | iload1 | lload1 | fload1 | dload1 | aload1
  | istore1 | lstore1 | fstore1 | dstore1 | astore1 => .impliedVariable 1
  | iload2 | lload2 | fload2 | dload2 | aload2
  | istore2 | lstore2 | fstore2 | dstore2 | astore2 => .impliedVariable 2
  | iload3 | lload3 | fload3 | dload3 | aload3
  | istore3 | lstore3 | fstore3 | dstore3 | astore3 => .impliedVariable 3
  | iinc => .increment
  | ifeq | ifne | iflt | ifge | ifgt | ifle | ifIcmpeq | ifIcmpne | ifIcmplt | ifIcmpge
  | ifIcmpgt | ifIcmple | ifAcmpeq | ifAcmpne | ifnull | ifnonnull | goto | jsr => .shortBranch
  | gotoW | jsrW => .longBranch
  | tableswitch => .tableSwitch
  | lookupswitch => .lookupSwitch
  | getstatic | putstatic | getfield | putfield => .field
  | invokevirtual | invokespecial | invokestatic => .method
  | invokeinterface => .interfaceMethod
  | invokedynamic => .dynamicCall
  | new | anewarray | checkcast | instanceof => .classReference
  | multianewarray => .arrayClass
  | newarray => .primitiveType
  | wide => .widened
  | _ => .empty

/-- An opcode has a layout exactly if it is that of an instruction, and then it
is the layout of that instruction. -/
theorem ofOpcode?_eq_some_iff {opcode : UInt8} {layout : OperandLayout} :
    OperandLayout.ofOpcode? opcode = some layout ↔
      ∃ mnemonic : Mnemonic, mnemonic.opcode = opcode ∧ mnemonic.layout = layout := by
  have ofNumber : ∀ number < 256, OperandLayout.ofOpcode? (UInt8.ofNat number) =
      if number < 202 then some (ofNat number).layout else none := by
    decide +kernel
  have opcodeEq : ∀ number < 202, (ofNat number).opcode = UInt8.ofNat number := by
    decide +kernel
  have lookup := ofNumber opcode.toNat opcode.toNat_lt
  rw [UInt8.ofNat_toNat] at lookup
  constructor
  · intro found
    rw [lookup] at found
    split at found
    next isInstruction =>
      refine ⟨ofNat opcode.toNat, ?_, Option.some.inj found⟩
      rw [opcodeEq opcode.toNat isInstruction, UInt8.ofNat_toNat]
    next => cases found
  · rintro ⟨mnemonic, rfl, rfl⟩
    cases mnemonic <;> rfl

/-- The widened instructions are those with a local variable as their operand. -/
theorem hasVariableOperand_iff {opcode : UInt8} :
    Opcode.hasVariableOperand opcode = true ↔
      ∃ mnemonic : Mnemonic, mnemonic.opcode = opcode ∧ mnemonic.layout = .localVariable := by
  have ofNumber : ∀ number < 256, Opcode.hasVariableOperand (UInt8.ofNat number) = true ↔
      OperandLayout.ofOpcode? (UInt8.ofNat number) = some .localVariable := by
    decide +kernel
  have lookup := ofNumber opcode.toNat opcode.toNat_lt
  rw [UInt8.ofNat_toNat] at lookup
  rw [lookup, ofOpcode?_eq_some_iff]

end Mnemonic

/-- The written form of a signed word of 32 bits. -/
def wordBytes (word : Int32) : List UInt8 :=
  bigEndianBytes 4 word.toUInt32.toNat

theorem length_wordBytes (word : Int32) : (wordBytes word).length = 4 :=
  length_bigEndianBytes 4 word.toUInt32.toNat

theorem exists_wordBytes (block : List UInt8) (lengthEq : block.length = 4) :
    ∃ word, wordBytes word = block := by
  have bounded : bigEndian block < 2 ^ 32 := by
    have := bigEndian_lt block
    rwa [lengthEq] at this
  refine ⟨(UInt32.ofNat (bigEndian block)).toInt32, ?_⟩
  rw [wordBytes, UInt32.toUInt32_toInt32, UInt32.toNat_ofNat_of_lt' bounded, ← lengthEq,
    bigEndianBytes_bigEndian]

theorem length_wordPairBytes (pair : Int32 × Int32) :
    (wordBytes pair.1 ++ wordBytes pair.2).length = 8 := by
  rw [List.length_append, length_wordBytes, length_wordBytes]

theorem exists_wordPairBytes (block : List UInt8) (lengthEq : block.length = 8) :
    ∃ pair : Int32 × Int32, wordBytes pair.1 ++ wordBytes pair.2 = block := by
  obtain ⟨first, firstEq⟩ := exists_wordBytes (block.take 4) (by simp [lengthEq])
  obtain ⟨second, secondEq⟩ := exists_wordBytes (block.drop 4) (by simp [lengthEq])
  refine ⟨(first, second), ?_⟩
  rw [firstEq, secondEq, List.take_append_drop]

/-- `layout.Encodes table position opcode instruction operands` says that the
bytes after an opcode at a position of a code array are operands of the given
layout, and that the instruction is what they make of it.  Positions count from
the start of the array, and slots are those of the table. -/
inductive OperandLayout.Encodes (table : ConstantTable) (position : Nat) (opcode : UInt8) :
    OperandLayout → Instruction → List UInt8 → Prop
  | empty : Encodes table position opcode .empty (.simple opcode) []
  | byteImmediate (value : Int8) :
      Encodes table position opcode .byteImmediate (.push value.toInt32) [value.toUInt8]
  | shortImmediate (value : Int16) :
      Encodes table position opcode .shortImmediate (.push value.toInt32)
        (shortBytes value.toUInt16)
  | shortConstant {slot : UInt8} {constant : Constant}
      (held : table.HasConstant slot.toUInt16 constant) :
      Encodes table position opcode .shortConstant (.loadConstant constant) [slot]
  | longConstant {slot : UInt16} {constant : Constant}
      (held : table.HasConstant slot constant) :
      Encodes table position opcode .longConstant (.loadConstant constant) (shortBytes slot)
  | localVariable (index : UInt8) :
      Encodes table position opcode .localVariable (.localAccess opcode index.toUInt16) [index]
  | impliedVariable (index : UInt16) :
      Encodes table position opcode (.impliedVariable index) (.localAccess opcode index) []
  | increment (index delta : UInt8) :
      Encodes table position opcode .increment (.localAccess opcode index.toUInt16)
        [index, delta]
  | shortBranch (distance : Int16) :
      Encodes table position opcode .shortBranch
        (.jump opcode (Int32.ofInt (position + distance.toInt))) (shortBytes distance.toUInt16)
  | longBranch (distance : Int32) :
      Encodes table position opcode .longBranch
        (.jump opcode (Int32.ofInt (position + distance.toInt))) (wordBytes distance)
  /-- The padding leads to the next multiple of four.  There is a distance for
  each value from the low bound to the high one. -/
  | tableSwitch {padding : List UInt8} {low high : Int32} {distances : List Int32}
      (fallback : Int32) (aligned : padding.length = 3 - position % 4)
      (ordered : low.toInt ≤ high.toInt)
      (complete : (distances.length : Int) = high.toInt - low.toInt + 1) :
      Encodes table position opcode .tableSwitch (.other opcode)
        (padding ++ (wordBytes fallback ++ (wordBytes low ++ (wordBytes high ++
          distances.flatMap wordBytes))))
  /-- The padding leads to the next multiple of four.  The count is that of the
  pairs of a value and a distance. -/
  | lookupSwitch {padding : List UInt8} {count : Int32} {pairs : List (Int32 × Int32)}
      (fallback : Int32) (aligned : padding.length = 3 - position % 4)
      (complete : count.toInt = pairs.length) :
      Encodes table position opcode .lookupSwitch (.other opcode)
        (padding ++ (wordBytes fallback ++ (wordBytes count ++
          pairs.flatMap fun pair => wordBytes pair.1 ++ wordBytes pair.2)))
  | field {slot : UInt16} {member : Member} {ofInterface : Bool}
      (held : table.HasMember slot member ofInterface) :
      Encodes table position opcode .field (.fieldAccess opcode member) (shortBytes slot)
  | method {slot : UInt16} {member : Member} {ofInterface : Bool}
      (held : table.HasMember slot member ofInterface) :
      Encodes table position opcode .method (.call opcode member ofInterface) (shortBytes slot)
  | interfaceMethod {slot : UInt16} {member : Member} {ofInterface : Bool}
      (held : table.HasMember slot member ofInterface) (first second : UInt8) :
      Encodes table position opcode .interfaceMethod (.call opcode member ofInterface)
        (shortBytes slot ++ [first, second])
  | dynamicCall (slot : UInt16) (first second : UInt8) :
      Encodes table position opcode .dynamicCall (.other opcode)
        (shortBytes slot ++ [first, second])
  | classReference {slot : UInt16} {name : String} (held : table.HasClass slot name) :
      Encodes table position opcode .classReference (.typeReference opcode name)
        (shortBytes slot)
  | arrayClass {slot : UInt16} {name : String} (held : table.HasClass slot name)
      (dimensions : UInt8) :
      Encodes table position opcode .arrayClass (.typeReference opcode name)
        (shortBytes slot ++ [dimensions])
  | primitiveType (code : UInt8) :
      Encodes table position opcode .primitiveType (.other opcode) [code]
  /-- The opcode of the widened instruction is kept in place of the first one. -/
  | widened {mnemonic : Mnemonic} (isVariable : mnemonic.layout = .localVariable)
      (index : UInt16) :
      Encodes table position opcode .widened (.localAccess mnemonic.opcode index)
        (mnemonic.opcode :: shortBytes index)
  | widenedIncrement (index delta : UInt16) :
      Encodes table position opcode .widened (.localAccess Mnemonic.iinc.opcode index)
        (Mnemonic.iinc.opcode :: (shortBytes index ++ shortBytes delta))

/-- The operands of a branch spell a distance. -/
inductive OperandLayout.Spells : OperandLayout → List UInt8 → Int → Prop
  | short (distance : Int16) :
      Spells .shortBranch (shortBytes distance.toUInt16) distance.toInt
  | long (distance : Int32) : Spells .longBranch (wordBytes distance) distance.toInt

namespace Instruction

/-- A word encodes an instruction at a position of a code array: it is the opcode
of an instruction of the machine with its operands. -/
def Encodes (table : ConstantTable) (position : Nat) (instruction : Instruction)
    (word : List UInt8) : Prop :=
  ∃ (mnemonic : Mnemonic) (operands : List UInt8), word = mnemonic.opcode :: operands ∧
    mnemonic.layout.Encodes table position mnemonic.opcode instruction operands

/-- From a position on, a code array is made of words that encode instructions,
each at the position where the words before it end. -/
inductive Tiles (table : ConstantTable) : Nat → List Instruction → List UInt8 → Prop
  | nil (position : Nat) : Tiles table position [] []
  | cons {position : Nat} {instruction : Instruction} {word : List UInt8}
      {instructions : List Instruction} {rest : List UInt8}
      (encodes : instruction.Encodes table position word)
      (tiles : Tiles table (position + word.length) instructions rest) :
      Tiles table position (instruction :: instructions) (word ++ rest)

/-- A code array is decoded up to a branch over a distance of 32 bits that leads further
than a signed word of 32 bits reaches. -/
inductive FarBranch (pool : ConstantPool) (code : List UInt8) : Prop
  | intro {earlier : List Instruction} {before after : List UInt8} {mnemonic : Mnemonic}
      {distance : Int32} (decoded : decodeCode pool before = .ok earlier)
      (isLong : mnemonic.layout = .longBranch)
      (codeEq : code = before ++ (mnemonic.opcode :: wordBytes distance ++ after))
      (far : 0x7FFFFFFF < before.length + distance.toInt)

end Instruction

end ClassLint
