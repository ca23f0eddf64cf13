import ClassLint.Proofs.InstructionReading
import Mathlib.Algebra.Group.Int.Defs

/-!
# Decoded code arrays

Reading the operands of an instruction is matched with the encoding of each
layout, and reading a whole code array with a tiling of the array by such
encodings.  So a code array is decoded exactly if instructions of the machine
tile it, and the decoded instructions are these, in order.
-/

namespace ClassLint

/-- At the byte after an opcode, the padding depends on the position of the
opcode. -/
theorem Reader.alignToFour_eq_ok_iff {position : Nat} {before after : Cursor}
    (offsetEq : before.offset = position + 1) :
    alignToFour before = .ok ((), after) ↔
      ∃ padding : List UInt8, padding.length = 3 - position % 4 ∧
        before.Passes padding after := by
  have lengthEq : (4 - before.offset % 4) % 4 = 3 - position % 4 := by omega
  rw [alignToFour_eq, offset_bind, lengthEq]
  simp only [bind_eq_ok_iff, pure_eq_ok_iff, bytes_eq_ok_iff]
  constructor
  · rintro ⟨padding, _, ⟨aligned, passes⟩, _, rfl⟩
    exact ⟨padding, aligned, passes⟩
  · rintro ⟨padding, aligned, passes⟩
    exact ⟨padding, after, ⟨aligned, passes⟩, trivial, rfl⟩

namespace Instruction

variable {table : ConstantTable} {position : Nat} {opcode : UInt8} {instruction : Instruction}
  {before after : Cursor}

theorem readTableSwitch_eq_ok_iff (offsetEq : before.offset = position + 1) :
    readOperands table.pool position opcode .tableSwitch before = .ok (instruction, after) ↔
      ∃ operands, before.Passes operands after ∧
        OperandLayout.tableSwitch.Encodes table position opcode instruction operands := by
  simp only [readOperands_tableSwitch, Reader.bind_eq_ok_iff,
    Reader.alignToFour_eq_ok_iff offsetEq, Reader.i32_eq_ok_iff]
  constructor
  · rintro ⟨_, _, ⟨padding, aligned, passesPadding⟩, fallback, _, passesFallback, low, _,
      passesLow, high, _, passesHigh, read⟩
    split at read
    next => exact (Reader.fail_ne_ok read).elim
    next notBelow =>
      rw [Int32.lt_iff_toInt_lt] at notBelow
      simp only [Reader.bind_eq_ok_iff, Reader.pure_eq_ok_iff] at read
      obtain ⟨block, _, readBlock, rfl, rfl⟩ := read
      obtain ⟨distances, countEq, passesDistances⟩ :=
        (Reader.bytes_items_iff length_wordBytes exists_wordBytes).mp ⟨block, readBlock⟩
      have ordered : low.toInt ≤ high.toInt := by omega
      have complete : (distances.length : Int) = high.toInt - low.toInt + 1 := by omega
      refine ⟨_, ?_, .tableSwitch fallback aligned ordered complete⟩
      exact Cursor.passes_append.mpr ⟨_, passesPadding, Cursor.passes_append.mpr
        ⟨_, passesFallback, Cursor.passes_append.mpr
          ⟨_, passesLow, Cursor.passes_append.mpr ⟨_, passesHigh, passesDistances⟩⟩⟩⟩
  · rintro ⟨_, passes, encodes⟩
    cases encodes with
    | @tableSwitch padding low high distances fallback aligned ordered complete =>
        obtain ⟨_, passesPadding, passes⟩ := Cursor.passes_append.mp passes
        obtain ⟨_, passesFallback, passes⟩ := Cursor.passes_append.mp passes
        obtain ⟨_, passesLow, passes⟩ := Cursor.passes_append.mp passes
        obtain ⟨afterHigh, passesHigh, passesDistances⟩ := Cursor.passes_append.mp passes
        refine ⟨(), _, ⟨padding, aligned, passesPadding⟩, fallback, _, passesFallback, low, _,
          passesLow, high, afterHigh, passesHigh, ?_⟩
        have countEq : distances.length = (high.toInt - low.toInt + 1).toNat := by omega
        obtain ⟨block, readBlock⟩ := (Reader.bytes_items_iff length_wordBytes
          exists_wordBytes).mpr ⟨distances, countEq, passesDistances⟩
        have notBelow : ¬high < low := by
          rw [Int32.lt_iff_toInt_lt]
          omega
        rw [if_neg notBelow]
        simp only [Reader.bind_eq_ok_iff, Reader.pure_eq_ok_iff]
        exact ⟨block, after, readBlock, trivial, rfl⟩

theorem readLookupSwitch_eq_ok_iff (offsetEq : before.offset = position + 1) :
    readOperands table.pool position opcode .lookupSwitch before = .ok (instruction, after) ↔
      ∃ operands, before.Passes operands after ∧
        OperandLayout.lookupSwitch.Encodes table position opcode instruction operands := by
  have isNegative (count : Int32) : count < 0 ↔ count.toInt < 0 := by
    rw [Int32.lt_iff_toInt_lt]
    rfl
  simp only [readOperands_lookupSwitch, Reader.bind_eq_ok_iff,
    Reader.alignToFour_eq_ok_iff offsetEq, Reader.i32_eq_ok_iff, isNegative]
  constructor
  · rintro ⟨_, _, ⟨padding, aligned, passesPadding⟩, fallback, _, passesFallback, count, _,
      passesCount, read⟩
    split at read
    next => exact (Reader.fail_ne_ok read).elim
    next nonnegative =>
      simp only [Reader.bind_eq_ok_iff, Reader.pure_eq_ok_iff] at read
      obtain ⟨block, _, readBlock, rfl, rfl⟩ := read
      obtain ⟨pairs, countEq, passesPairs⟩ :=
        (Reader.bytes_items_iff length_wordPairBytes exists_wordPairBytes).mp
          ⟨block, readBlock⟩
      have complete : count.toInt = pairs.length := by omega
      refine ⟨_, ?_, .lookupSwitch fallback aligned complete⟩
      exact Cursor.passes_append.mpr ⟨_, passesPadding, Cursor.passes_append.mpr
        ⟨_, passesFallback, Cursor.passes_append.mpr ⟨_, passesCount, passesPairs⟩⟩⟩
  · rintro ⟨_, passes, encodes⟩
    cases encodes with
    | @lookupSwitch padding count pairs fallback aligned complete =>
        obtain ⟨_, passesPadding, passes⟩ := Cursor.passes_append.mp passes
        obtain ⟨_, passesFallback, passes⟩ := Cursor.passes_append.mp passes
        obtain ⟨afterCount, passesCount, passesPairs⟩ := Cursor.passes_append.mp passes
        refine ⟨(), _, ⟨padding, aligned, passesPadding⟩, fallback, _, passesFallback, count,
          afterCount, passesCount, ?_⟩
        have countEq : pairs.length = count.toInt.toNat := by omega
        obtain ⟨block, readBlock⟩ := (Reader.bytes_items_iff length_wordPairBytes
          exists_wordPairBytes).mpr ⟨pairs, countEq, passesPairs⟩
        rw [if_neg (by omega)]
        simp only [Reader.bind_eq_ok_iff, Reader.pure_eq_ok_iff]
        exact ⟨block, after, readBlock, trivial, rfl⟩

theorem readWidened_eq_ok_iff :
    readOperands table.pool position opcode .widened before = .ok (instruction, after) ↔
      ∃ operands, before.Passes operands after ∧
        OperandLayout.widened.Encodes table position opcode instruction operands := by
  simp only [readOperands_widened, Reader.bind_eq_ok_iff, Reader.u8_eq_ok_iff,
    Reader.u16_eq_ok_iff]
  constructor
  · rintro ⟨widened, _, passesWidened, index, _, passesIndex, read⟩
    split at read
    next isIncrement =>
      subst isIncrement
      simp only [Reader.bind_eq_ok_iff, Reader.pure_eq_ok_iff, Reader.i16_eq_ok_iff] at read
      obtain ⟨delta, _, passesDelta, rfl, rfl⟩ := read
      refine ⟨_, ?_, .widenedIncrement index delta.toUInt16⟩
      exact Cursor.passes_append.mpr ⟨_, passesWidened,
        Cursor.passes_append.mpr ⟨_, passesIndex, passesDelta⟩⟩
    next =>
      split at read
      next hasVariable =>
        obtain ⟨mnemonic, rfl, isVariable⟩ := Mnemonic.hasVariableOperand_iff.mp hasVariable
        obtain ⟨rfl, rfl⟩ := Reader.pure_eq_ok_iff.mp read
        exact ⟨_, Cursor.passes_append.mpr ⟨_, passesWidened, passesIndex⟩,
          .widened isVariable index⟩
      next => exact (Reader.fail_ne_ok read).elim
  · rintro ⟨_, passes, encodes⟩
    cases encodes with
    | @widened mnemonic isVariable index =>
        obtain ⟨_, passesWidened, passesIndex⟩ := Cursor.passes_cons.mp passes
        refine ⟨mnemonic.opcode, _, passesWidened, index, after, passesIndex, ?_⟩
        have hasVariable : Opcode.hasVariableOperand mnemonic.opcode = true :=
          Mnemonic.hasVariableOperand_iff.mpr ⟨mnemonic, rfl, isVariable⟩
        have notIncrement : mnemonic.opcode ≠ Opcode.iinc := by
          intro isIncrement
          rw [isIncrement] at hasVariable
          exact absurd hasVariable (by decide)
        rw [if_neg notIncrement, if_pos hasVariable]
        rfl
    | widenedIncrement index delta =>
        obtain ⟨_, passesWidened, passes⟩ := Cursor.passes_cons.mp passes
        obtain ⟨afterIndex, passesIndex, passesDelta⟩ := Cursor.passes_append.mp passes
        refine ⟨Opcode.iinc, _, passesWidened, index, afterIndex, passesIndex, ?_⟩
        rw [if_pos rfl]
        simp only [Reader.bind_eq_ok_iff, Reader.pure_eq_ok_iff, Reader.i16_eq_ok_iff]
        refine ⟨delta.toInt16, after, ?_, rfl, rfl⟩
        rwa [UInt16.toUInt16_toInt16]

/-- What is read are operands that encode the instruction. -/
theorem encodes_of_readOperands {layout : OperandLayout}
    (offsetEq : before.offset = position + 1)
    (read : readOperands table.pool position opcode layout before = .ok (instruction, after)) :
    ∃ operands, before.Passes operands after ∧
      layout.Encodes table position opcode instruction operands := by
  cases layout with
  | empty =>
      obtain ⟨rfl, rfl⟩ := Reader.pure_eq_ok_iff.mp read
      exact ⟨[], Cursor.passes_nil.mpr rfl, .empty⟩
  | byteImmediate =>
      obtain ⟨value, rfl, passes⟩ := (Reader.map_eq_ok_iff Reader.i8_eq_ok_iff).mp read
      exact ⟨_, passes, .byteImmediate value⟩
  | shortImmediate =>
      obtain ⟨value, rfl, passes⟩ := (Reader.map_eq_ok_iff Reader.i16_eq_ok_iff).mp read
      exact ⟨_, passes, .shortImmediate value⟩
  | shortConstant =>
      obtain ⟨slot, constant, found, rfl, passes⟩ :=
        (Reader.lookup_eq_ok_iff Reader.u8_eq_ok_iff).mp read
      exact ⟨_, passes, .shortConstant (ConstantTable.constant_pool_eq_ok_iff.mp found)⟩
  | longConstant =>
      obtain ⟨slot, constant, found, rfl, passes⟩ :=
        (Reader.lookup_eq_ok_iff Reader.u16_eq_ok_iff).mp read
      exact ⟨_, passes, .longConstant (ConstantTable.constant_pool_eq_ok_iff.mp found)⟩
  | localVariable =>
      obtain ⟨index, rfl, passes⟩ := (Reader.map_eq_ok_iff Reader.u8_eq_ok_iff).mp read
      exact ⟨_, passes, .localVariable index⟩
  | impliedVariable index =>
      obtain ⟨rfl, rfl⟩ := Reader.pure_eq_ok_iff.mp read
      exact ⟨[], Cursor.passes_nil.mpr rfl, .impliedVariable index⟩
  | increment =>
      simp only [readOperands, Reader.bind_eq_ok_iff, Reader.pure_eq_ok_iff,
        Reader.u8_eq_ok_iff, Reader.i8_eq_ok_iff] at read
      obtain ⟨index, _, passesIndex, delta, _, passesDelta, rfl, rfl⟩ := read
      exact ⟨_, Cursor.passes_cons.mpr ⟨_, passesIndex, passesDelta⟩,
        .increment index delta.toUInt8⟩
  | shortBranch =>
      rw [readOperands_shortBranch] at read
      obtain ⟨distance, rfl, passes⟩ := (Reader.map_eq_ok_iff Reader.i16_eq_ok_iff).mp read
      exact ⟨_, passes, .shortBranch distance⟩
  | longBranch =>
      rw [readOperands_longBranch] at read
      obtain ⟨distance, rfl, passes⟩ := (Reader.map_eq_ok_iff Reader.i32_eq_ok_iff).mp read
      exact ⟨_, passes, .longBranch distance⟩
  | tableSwitch => exact (readTableSwitch_eq_ok_iff offsetEq).mp read
  | lookupSwitch => exact (readLookupSwitch_eq_ok_iff offsetEq).mp read
  | field =>
      obtain ⟨slot, ⟨member, ofInterface⟩, found, rfl, passes⟩ :=
        (Reader.lookup_eq_ok_iff Reader.u16_eq_ok_iff).mp read
      exact ⟨_, passes, .field (ConstantTable.member_pool_eq_ok_iff.mp found)⟩
  | method =>
      obtain ⟨slot, ⟨member, ofInterface⟩, found, rfl, passes⟩ :=
        (Reader.lookup_eq_ok_iff Reader.u16_eq_ok_iff).mp read
      exact ⟨_, passes, .method (ConstantTable.member_pool_eq_ok_iff.mp found)⟩
  | interfaceMethod =>
      simp only [readOperands, Reader.bind_eq_ok_iff, Reader.pure_eq_ok_iff,
        Reader.u8_eq_ok_iff, Reader.u16_eq_ok_iff, Reader.lift_eq_ok_iff] at read
      obtain ⟨slot, _, passesSlot, ⟨member, ofInterface⟩, _, ⟨found, rfl⟩, first, _,
        passesFirst, second, _, passesSecond, rfl, rfl⟩ := read
      refine ⟨_, ?_, .interfaceMethod (ConstantTable.member_pool_eq_ok_iff.mp found) first
        second⟩
      exact Cursor.passes_append.mpr ⟨_, passesSlot,
        Cursor.passes_cons.mpr ⟨_, passesFirst, passesSecond⟩⟩
  | dynamicCall =>
      simp only [readOperands, Reader.bind_eq_ok_iff, Reader.pure_eq_ok_iff,
        Reader.u16_eq_ok_iff, Reader.bytes_eq_ok_iff] at read
      obtain ⟨slot, _, passesSlot, block, _, ⟨lengthEq, passesBlock⟩, rfl, rfl⟩ := read
      obtain ⟨first, second, rfl⟩ := List.length_eq_two.mp lengthEq
      exact ⟨_, Cursor.passes_append.mpr ⟨_, passesSlot, passesBlock⟩,
        .dynamicCall slot first second⟩
  | classReference =>
      obtain ⟨slot, name, found, rfl, passes⟩ :=
        (Reader.lookup_eq_ok_iff Reader.u16_eq_ok_iff).mp read
      exact ⟨_, passes, .classReference (ConstantTable.className_pool_eq_ok_iff.mp found)⟩
  | arrayClass =>
      simp only [readOperands, Reader.bind_eq_ok_iff, Reader.pure_eq_ok_iff,
        Reader.u8_eq_ok_iff, Reader.u16_eq_ok_iff, Reader.lift_eq_ok_iff] at read
      obtain ⟨slot, _, passesSlot, name, _, ⟨found, rfl⟩, dimensions, _, passesDimensions,
        rfl, rfl⟩ := read
      exact ⟨_, Cursor.passes_append.mpr ⟨_, passesSlot, passesDimensions⟩,
        .arrayClass (ConstantTable.className_pool_eq_ok_iff.mp found) dimensions⟩
  | primitiveType =>
      obtain ⟨code, rfl, passes⟩ := (Reader.map_eq_ok_iff Reader.u8_eq_ok_iff).mp read
      exact ⟨_, passes, .primitiveType code⟩
  | widened => exact readWidened_eq_ok_iff.mp read

/-- Operands that encode an instruction are read. -/
theorem readOperands_of_encodes {layout : OperandLayout} {operands : List UInt8}
    (offsetEq : before.offset = position + 1) (passes : before.Passes operands after)
    (encodes : layout.Encodes table position opcode instruction operands) :
    readOperands table.pool position opcode layout before = .ok (instruction, after) := by
  cases encodes with
  | empty => exact Reader.pure_eq_ok_iff.mpr ⟨rfl, Cursor.passes_nil.mp passes⟩
  | byteImmediate value =>
      exact (Reader.map_eq_ok_iff Reader.i8_eq_ok_iff).mpr ⟨value, rfl, passes⟩
  | shortImmediate value =>
      exact (Reader.map_eq_ok_iff Reader.i16_eq_ok_iff).mpr ⟨value, rfl, passes⟩
  | @shortConstant slot constant held =>
      exact (Reader.lookup_eq_ok_iff Reader.u8_eq_ok_iff).mpr
        ⟨slot, constant, ConstantTable.constant_pool_eq_ok_iff.mpr held, rfl, passes⟩
  | @longConstant slot constant held =>
      exact (Reader.lookup_eq_ok_iff Reader.u16_eq_ok_iff).mpr
        ⟨slot, constant, ConstantTable.constant_pool_eq_ok_iff.mpr held, rfl, passes⟩
  | localVariable index =>
      exact (Reader.map_eq_ok_iff Reader.u8_eq_ok_iff).mpr ⟨index, rfl, passes⟩
  | impliedVariable index =>
      exact Reader.pure_eq_ok_iff.mpr ⟨rfl, Cursor.passes_nil.mp passes⟩
  | increment index delta =>
      obtain ⟨_, passesIndex, passesDelta⟩ := Cursor.passes_cons.mp passes
      simp only [readOperands, Reader.bind_eq_ok_iff, Reader.pure_eq_ok_iff,
        Reader.u8_eq_ok_iff, Reader.i8_eq_ok_iff]
      exact ⟨index, _, passesIndex, delta.toInt8, after, passesDelta, rfl, rfl⟩
  | shortBranch distance =>
      rw [readOperands_shortBranch]
      exact (Reader.map_eq_ok_iff Reader.i16_eq_ok_iff).mpr ⟨distance, rfl, passes⟩
  | longBranch distance =>
      rw [readOperands_longBranch]
      exact (Reader.map_eq_ok_iff Reader.i32_eq_ok_iff).mpr ⟨distance, rfl, passes⟩
  | tableSwitch fallback aligned ordered complete =>
      exact (readTableSwitch_eq_ok_iff offsetEq).mpr
        ⟨_, passes, .tableSwitch fallback aligned ordered complete⟩
  | lookupSwitch fallback aligned complete =>
      exact (readLookupSwitch_eq_ok_iff offsetEq).mpr
        ⟨_, passes, .lookupSwitch fallback aligned complete⟩
  | @field slot member ofInterface held =>
      exact (Reader.lookup_eq_ok_iff Reader.u16_eq_ok_iff).mpr ⟨slot, (member, ofInterface),
        ConstantTable.member_pool_eq_ok_iff.mpr held, rfl, passes⟩
  | @method slot member ofInterface held =>
      exact (Reader.lookup_eq_ok_iff Reader.u16_eq_ok_iff).mpr ⟨slot, (member, ofInterface),
        ConstantTable.member_pool_eq_ok_iff.mpr held, rfl, passes⟩
  | @interfaceMethod slot member ofInterface held first second =>
      obtain ⟨afterSlot, passesSlot, passes⟩ := Cursor.passes_append.mp passes
      obtain ⟨_, passesFirst, passesSecond⟩ := Cursor.passes_cons.mp passes
      simp only [readOperands, Reader.bind_eq_ok_iff, Reader.pure_eq_ok_iff,
        Reader.u8_eq_ok_iff, Reader.u16_eq_ok_iff, Reader.lift_eq_ok_iff]
      exact ⟨slot, afterSlot, passesSlot, (member, ofInterface), afterSlot,
        ⟨ConstantTable.member_pool_eq_ok_iff.mpr held, rfl⟩, first, _, passesFirst, second,
        after, passesSecond, rfl, rfl⟩
  | dynamicCall slot first second =>
      obtain ⟨_, passesSlot, passesBlock⟩ := Cursor.passes_append.mp passes
      simp only [readOperands, Reader.bind_eq_ok_iff, Reader.pure_eq_ok_iff,
        Reader.u16_eq_ok_iff, Reader.bytes_eq_ok_iff]
      exact ⟨slot, _, passesSlot, [first, second], after, ⟨rfl, passesBlock⟩, trivial, rfl⟩
  | @classReference slot name held =>
      exact (Reader.lookup_eq_ok_iff Reader.u16_eq_ok_iff).mpr
        ⟨slot, name, ConstantTable.className_pool_eq_ok_iff.mpr held, rfl, passes⟩
  | @arrayClass slot name held dimensions =>
      obtain ⟨afterSlot, passesSlot, passesDimensions⟩ := Cursor.passes_append.mp passes
      simp only [readOperands, Reader.bind_eq_ok_iff, Reader.pure_eq_ok_iff,
        Reader.u8_eq_ok_iff, Reader.u16_eq_ok_iff, Reader.lift_eq_ok_iff]
      exact ⟨slot, afterSlot, passesSlot, name, afterSlot,
        ⟨ConstantTable.className_pool_eq_ok_iff.mpr held, rfl⟩, dimensions, after,
        passesDimensions, rfl, rfl⟩
  | primitiveType code =>
      exact (Reader.map_eq_ok_iff Reader.u8_eq_ok_iff).mpr ⟨code, rfl, passes⟩
  | widened isVariable index =>
      exact readWidened_eq_ok_iff.mpr ⟨_, passes, .widened isVariable index⟩
  | widenedIncrement index delta =>
      exact readWidened_eq_ok_iff.mpr ⟨_, passes, .widenedIncrement index delta⟩

theorem read_eq_ok_iff :
    read table.pool before = .ok (instruction, after) ↔
      ∃ word, before.Passes word after ∧ instruction.Encodes table before.offset word := by
  rw [read, Reader.offset_bind]
  simp only [Reader.bind_eq_ok_iff, Reader.u8_eq_ok_iff]
  constructor
  · rintro ⟨opcode, middle, passesOpcode, read⟩
    have offsetEq : middle.offset = before.offset + 1 := passesOpcode.offset
    cases found : OperandLayout.ofOpcode? opcode with
    | none =>
        rw [found] at read
        exact (Reader.fail_ne_ok read).elim
    | some layout =>
        rw [found] at read
        obtain ⟨mnemonic, rfl, rfl⟩ := Mnemonic.ofOpcode?_eq_some_iff.mp found
        obtain ⟨operands, passesOperands, encodes⟩ :=
          encodes_of_readOperands offsetEq read
        exact ⟨_, Cursor.passes_cons.mpr ⟨middle, passesOpcode, passesOperands⟩, mnemonic,
          operands, rfl, encodes⟩
  · rintro ⟨_, passes, mnemonic, operands, rfl, encodes⟩
    obtain ⟨middle, passesOpcode, passesOperands⟩ := Cursor.passes_cons.mp passes
    have offsetEq : middle.offset = before.offset + 1 := passesOpcode.offset
    refine ⟨mnemonic.opcode, middle, passesOpcode, ?_⟩
    rw [Mnemonic.ofOpcode?_eq_some_iff.mpr ⟨mnemonic, rfl, rfl⟩]
    exact readOperands_of_encodes offsetEq passesOperands encodes

theorem Encodes.ne_nil {word : List UInt8} (encodes : instruction.Encodes table position word) :
    word ≠ [] := by
  obtain ⟨mnemonic, operands, rfl, _⟩ := encodes
  exact List.cons_ne_nil _ _

theorem tiles_nil_iff {instructions : List Instruction} :
    Tiles table position instructions [] ↔ instructions = [] := by
  constructor
  · generalize codeEq : [] = code
    intro tiles
    cases tiles with
    | nil => rfl
    | cons encodes _ => exact (encodes.ne_nil (List.append_eq_nil_iff.mp codeEq.symm).1).elim
  · rintro rfl
    exact .nil position

/-- What is left of a region, if it is not used up, is tiled by an instruction
that is read from it and by the ones that tile the rest. -/
theorem tiles_iff_read {instructions : List Instruction} (notAtEnd : before.rest ≠ []) :
    Tiles table before.offset instructions before.rest ↔
      ∃ first others middle, instructions = first :: others ∧
        read table.pool before = .ok (first, middle) ∧
        Tiles table middle.offset others middle.rest := by
  simp only [read_eq_ok_iff]
  constructor
  · generalize restEq : before.rest = rest at notAtEnd
    intro tiles
    cases tiles with
    | nil => exact (notAtEnd rfl).elim
    | @cons _ first word others rest encodes tiles =>
        exact ⟨first, others, ⟨before.offset + word.length, rest⟩, rfl,
          ⟨word, ⟨restEq, rfl⟩, encodes⟩, tiles⟩
  · rintro ⟨first, others, middle, rfl, ⟨word, passes, encodes⟩, tiles⟩
    rw [passes.offset] at tiles
    rw [passes.rest]
    exact .cons encodes tiles

theorem pure_eq_ok_iff_tiles {found instructions : List Instruction}
    (atEnd : before.rest = []) :
    (∃ after, (pure found.reverse : Reader (List Instruction)) before =
        .ok (instructions, after)) ↔
      ∃ others, instructions = found.reverse ++ others ∧
        Tiles table before.offset others before.rest := by
  simp only [Reader.pure_eq_ok_iff, atEnd, tiles_nil_iff, exists_eq_right, List.append_nil]

/-- Instructions are read to the end of a region exactly if they tile what is left
of it.  The induction is on the bound, for every list of instructions found
before. -/
theorem readAllFrom_eq_ok_iff {bound : Nat} {found instructions : List Instruction}
    (enough : before.rest.length ≤ bound) :
    (∃ after, readAllFrom table.pool bound found before = .ok (instructions, after)) ↔
      ∃ others, instructions = found.reverse ++ others ∧
        Tiles table before.offset others before.rest := by
  induction bound generalizing found before with
  | zero => exact pure_eq_ok_iff_tiles (List.length_eq_zero_iff.mp (Nat.le_zero.mp enough))
  | succ bound ih =>
      rw [readAllFrom, Reader.atEnd_bind]
      split
      next atEnd => exact pure_eq_ok_iff_tiles (List.isEmpty_iff.mp atEnd)
      next notAtEnd =>
        rw [List.isEmpty_iff] at notAtEnd
        simp only [Reader.bind_eq_ok_iff, tiles_iff_read notAtEnd]
        constructor
        · rintro ⟨after, first, middle, readFirst, readOthers⟩
          have shorter := length_rest_lt_of_read_eq_ok readFirst
          obtain ⟨others, rfl, tiles⟩ := (ih (by omega)).mp ⟨after, readOthers⟩
          exact ⟨first :: others, by simp, first, others, middle, rfl, readFirst, tiles⟩
        · rintro ⟨_, rfl, first, others, middle, rfl, readFirst, tiles⟩
          have shorter := length_rest_lt_of_read_eq_ok readFirst
          have foundEq : found.reverse ++ first :: others =
              (first :: found).reverse ++ others := by simp
          obtain ⟨after, readOthers⟩ := (ih (by omega)).mpr ⟨others, foundEq, tiles⟩
          exact ⟨after, first, middle, readFirst, readOthers⟩

/-- Each of the instructions that tile a code array has its word in it, after the
words of some others. -/
theorem Tiles.exists_of_mem {instructions : List Instruction} {code : List UInt8}
    (tiles : Tiles table position instructions code) (isMember : instruction ∈ instructions) :
    ∃ earlier before word after, code = before ++ (word ++ after) ∧
      Tiles table position earlier before ∧
      instruction.Encodes table (position + before.length) word := by
  induction tiles with
  | nil position => cases isMember
  | @cons position first word others rest encodes _ ih =>
      rcases List.mem_cons.mp isMember with rfl | later
      · exact ⟨[], [], word, rest, rfl, .nil position, encodes⟩
      · obtain ⟨earlier, before, found, after, rfl, tilesEarlier, encodesFound⟩ := ih later
        refine ⟨first :: earlier, word ++ before, found, after, by simp,
          .cons encodes tilesEarlier, ?_⟩
        rwa [List.length_append, ← Nat.add_assoc]

/-- The word of a branch spells a distance, and the target is the sum of the position and
the distance as a word of 32 bits. -/
theorem Encodes.exists_distance {target : Int32} {word : List UInt8}
    (encodes : (jump opcode target).Encodes table position word) :
    ∃ (mnemonic : Mnemonic) (operands : List UInt8) (distance : Int),
      mnemonic.opcode = opcode ∧ mnemonic.layout.Spells operands distance ∧
      word = opcode :: operands ∧ target = Int32.ofInt (position + distance) := by
  obtain ⟨mnemonic, operands, rfl, encodes⟩ := encodes
  generalize layoutEq : mnemonic.layout = layout at encodes
  cases encodes with
  | shortBranch distance =>
      exact ⟨mnemonic, _, distance.toInt, rfl, layoutEq ▸ .short distance, rfl, rfl⟩
  | longBranch distance =>
      exact ⟨mnemonic, _, distance.toInt, rfl, layoutEq ▸ .long distance, rfl, rfl⟩

/-- From a position that is not too far, a branch leads exactly over its distance, unless
this is one of 32 bits that leads too far. -/
theorem target_eq_of_spells {mnemonic : Mnemonic} {operands : List UInt8} {distance : Int}
    (spells : mnemonic.layout.Spells operands distance) (near : position < 2 ^ 31 - 2 ^ 15)
    (notFar : mnemonic.layout = .shortBranch ∨ position + distance < 2 ^ 31) :
    (Int32.ofInt (position + distance)).toInt = position + distance := by
  generalize mnemonic.layout = layout at spells notFar
  cases spells with
  | short distance =>
      have lower := distance.le_toInt
      have upper := distance.toInt_lt
      exact Int32.toInt_ofInt_of_le (by omega) (by omega)
  | long distance =>
      have inside := notFar.resolve_left (by simp)
      have lower := distance.le_toInt
      exact Int32.toInt_ofInt_of_le (by omega) inside

end Instruction

theorem ConstantPool.exists_table_of_read {pool : ConstantPool} {before after : Cursor}
    (readEq : ConstantPool.read before = .ok (pool, after)) :
    ∃ table : ConstantTable, pool = table.pool := by
  rcases ConstantPool.read_eq_ok_iff.mp readEq with ⟨table, _, poolEq⟩ | ⟨_, poolEq⟩
  · exact ⟨table, poolEq⟩
  · exact ⟨⟨[], by simp, by decide⟩, poolEq⟩

theorem decodeCode_iff_tiles {table : ConstantTable} {code : List UInt8}
    {instructions : List Instruction} :
    decodeCode table.pool code = .ok instructions ↔
      Instruction.Tiles table 0 instructions code := by
  rw [decodeCode, Reader.within_eq_ok_iff,
    Instruction.readAllFrom_eq_ok_iff (Nat.le_refl code.length)]
  simp [Cursor.start]

/-- Every constant pool that is read is the pool of a table.  With such a pool, a
code array is decoded exactly if instructions of the machine tile it.  In an array
that is not too long, each branch leads exactly over the distance that stands behind
its opcode, unless this is a distance of 32 bits that leads too far. -/
theorem decodeCode_eq_ok_iff :
    (∀ (before : Cursor) pool after, ConstantPool.read before = .ok (pool, after) →
      ∃ table : ConstantTable, pool = table.pool) ∧
    ∀ (table : ConstantTable) (code : List UInt8) (instructions : List Instruction),
      (decodeCode table.pool code = .ok instructions ↔
        Instruction.Tiles table 0 instructions code) ∧
      (code.length < 2 ^ 31 - 2 ^ 15 → decodeCode table.pool code = .ok instructions →
        ∀ opcode target, .jump opcode target ∈ instructions →
          ∃ (mnemonic : Mnemonic) (earlier : List Instruction) (before operands after : List UInt8)
            (distance : Int),
            mnemonic.opcode = opcode ∧ mnemonic.layout.Spells operands distance ∧
            code = before ++ (opcode :: operands ++ after) ∧
            Instruction.Tiles table 0 earlier before ∧
            (mnemonic.layout = .shortBranch ∨ before.length + distance < 2 ^ 31 →
              target.toInt = before.length + distance)) := by
  refine ⟨fun _ _ _ readEq => ConstantPool.exists_table_of_read readEq, ?_⟩
  intro table code instructions
  refine ⟨decodeCode_iff_tiles, ?_⟩
  intro short decoded opcode target isMember
  obtain ⟨earlier, before, word, after, rfl, tiles, encodes⟩ :=
    (decodeCode_iff_tiles.mp decoded).exists_of_mem isMember
  rw [Nat.zero_add] at encodes
  obtain ⟨mnemonic, operands, distance, opcodeEq, spells, rfl, rfl⟩ := encodes.exists_distance
  have near : before.length < 2 ^ 31 - 2 ^ 15 := by
    rw [List.length_append] at short
    omega
  exact ⟨mnemonic, earlier, before, operands, after, distance, opcodeEq, spells, rfl, tiles,
    Instruction.target_eq_of_spells spells near⟩

/-- A table with the name of one class. -/
def singleClassTable : ConstantTable where
  entries := [.utf8 [65], .classReference 1]
  writable := by simp [PoolEntry.Writable]
  slotCount_lt := by decide

/-- A code array with a switch that is padded with any bytes, a branch back to the
start, a widened increment and the creation of an object. -/
def switchingCode : List UInt8 :=
  [0x00,
    0xAA, 0xFF, 0xEE, 0, 0, 0, 0, 0, 0, 0, 1, 0, 0, 0, 1, 0, 0, 0, 19,
    0xA7, 0xFF, 0xEC,
    0xC4, 0x84, 0, 5, 0xFF, 0xFF,
    0xBB, 0, 2,
    0xB1]

/-- The instructions of `switchingCode`. -/
def switchingInstructions : List Instruction :=
  [.simple 0x00, .other 0xAA, .jump 0xA7 0, .localAccess 0x84 5, .typeReference 0xBB "A",
    .simple 0xB1]

theorem decodeCode_eq_ok_iff_switchingCode :
    decodeCode singleClassTable.pool switchingCode = .ok switchingInstructions ∧
      Instruction.Tiles singleClassTable 0 switchingInstructions switchingCode ∧
      ∃ (mnemonic : Mnemonic) (earlier : List Instruction) (before operands after : List UInt8)
        (distance : Int),
        mnemonic.opcode = 0xA7 ∧ mnemonic.layout.Spells operands distance ∧
        switchingCode = before ++ (0xA7 :: operands ++ after) ∧
        Instruction.Tiles singleClassTable 0 earlier before ∧
        (mnemonic.layout = .shortBranch ∨ before.length + distance < 2 ^ 31 →
          (0 : Int32).toInt = before.length + distance) := by
  have decoded : decodeCode singleClassTable.pool switchingCode = .ok switchingInstructions := by
    decide +kernel
  obtain ⟨tilesIff, branches⟩ :=
    decodeCode_eq_ok_iff.2 singleClassTable switchingCode switchingInstructions
  exact ⟨decoded, tilesIff.mp decoded, branches (by decide) decoded 0xA7 0 (by decide)⟩

end ClassLint
