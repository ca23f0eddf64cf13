import ClassLint.ClassFile.Decode

/-!
# Exact numbers

A cursor gives every operation its exact result.  So the readers that compute numbers on
the way are, at a cursor, readers that do not.
-/

namespace ClassLint

namespace Reader

variable {α : Type}

theorem compute_bind (operation : Operation) (value : Int) (next : Int → Reader α) :
    compute operation value >>= next = next value :=
  rfl

theorem embed_eq_lift (result : Except DecodeError α) :
    (embed result : Reader α) = lift result := by
  cases result with
  | error error => rfl
  | ok value => rfl

theorem bytes_eq (count : Nat) (cursor : Cursor) :
    bytes count cursor =
      if (cursor.rest.take count).length = count then
        .ok (cursor.rest.take count, ⟨cursor.offset + count, cursor.rest.drop count⟩)
      else
        .error (.unexpectedEnd cursor.offset (count - cursor.rest.length)) :=
  rfl

theorem alignToFour_eq :
    (alignToFour : Reader Unit) = (do
      let position ← offset
      let _ ← bytes ((4 - position % 4) % 4)) := by
  have paddingEq (position : Nat) :
      (4 - (position % 4 : Nat) : Int).toNat % 4 = (4 - position % 4) % 4 := by
    omega
  simp only [alignToFour, compute_bind, paddingEq]

end Reader

namespace Instruction

variable (pool : ConstantPool) (position : Nat) (opcode : UInt8)

theorem readOperands_impliedVariable (index : UInt16) :
    (readOperands pool position opcode (.impliedVariable index) : Reader Instruction) =
      return .localAccess opcode index :=
  rfl

theorem readOperands_shortBranch :
    (readOperands pool position opcode .shortBranch : Reader Instruction) = (do
      let distance ← Reader.i16
      return .jump opcode (Int32.ofInt (position + distance.toInt))) :=
  rfl

theorem readOperands_longBranch :
    (readOperands pool position opcode .longBranch : Reader Instruction) = (do
      let distance ← Reader.i32
      return .jump opcode (Int32.ofInt (position + distance.toInt))) :=
  rfl

theorem readOperands_tableSwitch :
    (readOperands pool position opcode .tableSwitch : Reader Instruction) = (do
      Reader.alignToFour
      let _ ← Reader.i32
      let low ← Reader.i32
      let high ← Reader.i32
      if high < low then
        Reader.fail (.malformed .tableSwitchBounds)
      else
        let _ ← Reader.bytes ((high.toInt - low.toInt + 1).toNat * 4)
        return .other opcode) := by
  have lengthEq (entries : Int) : (entries * 4).toNat = entries.toNat * 4 := by omega
  simp only [readOperands, Reader.compute_bind, lengthEq]

theorem readOperands_lookupSwitch :
    (readOperands pool position opcode .lookupSwitch : Reader Instruction) = (do
      Reader.alignToFour
      let _ ← Reader.i32
      let pairs ← Reader.i32
      if pairs < 0 then
        Reader.fail (.malformed .lookupSwitchPairs)
      else
        let _ ← Reader.bytes (pairs.toInt.toNat * 8)
        return .other opcode) := by
  have lengthEq (pairs : Int) : (pairs * 8).toNat = pairs.toNat * 8 := by omega
  simp only [readOperands, Reader.compute_bind, lengthEq]

theorem readOperands_widened :
    (readOperands pool position opcode .widened : Reader Instruction) = (do
      let widened ← Reader.u8
      let index ← Reader.u16
      if widened = Opcode.iinc then
        let _ ← Reader.i16
        return .localAccess widened index
      else if Opcode.hasVariableOperand widened then
        return .localAccess widened index
      else
        Reader.fail (.invalidOpcode widened (position + 1))) := by
  have nextEq : (position + 1 : Int).toNat = position + 1 := by omega
  simp only [readOperands, Reader.compute_bind, nextEq]

end Instruction

namespace ConstantPool

theorem readSlots_one (slot : Nat) (slots : Array (Option PoolEntry)) :
    (readSlots 1 slot slots : Reader (Array (Option PoolEntry))) = (do
      let tag ← Reader.u8
      let entry ← PoolEntry.readTagged tag slot
      if entry.isWide then
        Reader.fail (.malformed .constantPool)
      else
        return slots.push (some entry)) :=
  rfl

theorem readSlots_add_two (remaining slot : Nat) (slots : Array (Option PoolEntry)) :
    (readSlots (remaining + 2) slot slots : Reader (Array (Option PoolEntry))) = (do
      let tag ← Reader.u8
      let entry ← PoolEntry.readTagged tag slot
      if entry.isWide then
        readSlots remaining (slot + 2) ((slots.push (some entry)).push none)
      else
        readSlots (remaining + 1) (slot + 1) (slots.push (some entry))) := by
  have nextEq : (slot + 1 : Int).toNat = slot + 1 := by omega
  have afterNextEq : (slot + 1 + 1 : Int).toNat = slot + 2 := by omega
  simp only [readSlots, Reader.compute_bind, nextEq, afterNextEq]

end ConstantPool

end ClassLint
