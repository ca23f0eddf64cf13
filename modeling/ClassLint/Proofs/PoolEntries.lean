import ClassLint.ClassFile.ConstantPool
import ClassLint.Proofs.Reading

/-!
# Written pool entries

An entry of a constant pool is written as a tag and a payload, whose layout the
tag fixes.  Reading an entry succeeds exactly on the payload of an entry with
the given tag, so the tag and the payload say all that there is to an entry.
-/

namespace ClassLint

namespace PoolEntry

/-- The byte that starts the written form of an entry. -/
def tag : PoolEntry → UInt8
  | .utf8 _ => 1
  | .integer _ => 3
  | .float _ => 4
  | .long _ => 5
  | .double _ => 6
  | .classReference _ => 7
  | .string _ => 8
  | .fieldReference _ _ => 9
  | .methodReference _ _ => 10
  | .interfaceMethodReference _ _ => 11
  | .nameAndType _ _ => 12
  | .methodHandle _ _ => 15
  | .methodType _ => 16
  | .dynamicConstant _ _ => 17
  | .dynamicCall _ _ => 18
  | .moduleName _ => 19
  | .packageName _ => 20

/-- What follows the tag in the written form of an entry. -/
def payload : PoolEntry → List UInt8
  | .utf8 bytes => bigEndianBytes 2 bytes.length ++ bytes
  | .integer value => bigEndianBytes 4 value.toUInt32.toNat
  | .float bits => bigEndianBytes 4 bits.toNat
  | .long value => bigEndianBytes 8 value.toUInt64.toNat
  | .double bits => bigEndianBytes 8 bits.toNat
  | .classReference name => bigEndianBytes 2 name.toNat
  | .string text => bigEndianBytes 2 text.toNat
  | .fieldReference owner signature =>
      bigEndianBytes 2 owner.toNat ++ bigEndianBytes 2 signature.toNat
  | .methodReference owner signature =>
      bigEndianBytes 2 owner.toNat ++ bigEndianBytes 2 signature.toNat
  | .interfaceMethodReference owner signature =>
      bigEndianBytes 2 owner.toNat ++ bigEndianBytes 2 signature.toNat
  | .nameAndType name descriptor =>
      bigEndianBytes 2 name.toNat ++ bigEndianBytes 2 descriptor.toNat
  | .methodHandle kind reference => kind :: bigEndianBytes 2 reference.toNat
  | .methodType descriptor => bigEndianBytes 2 descriptor.toNat
  | .dynamicConstant bootstrap signature =>
      bigEndianBytes 2 bootstrap.toNat ++ bigEndianBytes 2 signature.toNat
  | .dynamicCall bootstrap signature =>
      bigEndianBytes 2 bootstrap.toNat ++ bigEndianBytes 2 signature.toNat
  | .moduleName name => bigEndianBytes 2 name.toNat
  | .packageName name => bigEndianBytes 2 name.toNat

/-- The written form of an entry. -/
def bytes (entry : PoolEntry) : List UInt8 :=
  entry.tag :: entry.payload

/-- An entry can be written when the length of its text fits in two bytes. -/
def Writable : PoolEntry → Prop
  | .utf8 bytes => bytes.length < 256 ^ 2
  | _ => True

/-- An entry with two slot numbers is read off their written forms. -/
private theorem pair_eq_ok_iff {make : UInt16 → UInt16 → PoolEntry} {entry : PoolEntry}
    {before after : Cursor} :
    (do return make (← Reader.u16) (← Reader.u16) : Reader PoolEntry) before =
        .ok (entry, after) ↔
      ∃ first second, entry = make first second ∧
        before.Passes (bigEndianBytes 2 first.toNat ++ bigEndianBytes 2 second.toNat)
          after := by
  simp only [Reader.bind_eq_ok_iff, Reader.pure_eq_ok_iff, Reader.u16_eq_ok_iff,
    Cursor.passes_append]
  constructor
  · rintro ⟨first, middle, passesFirst, second, _, passesSecond, rfl, rfl⟩
    exact ⟨first, second, rfl, middle, passesFirst, passesSecond⟩
  · rintro ⟨first, second, rfl, middle, passesFirst, passesSecond⟩
    exact ⟨first, middle, passesFirst, second, after, passesSecond, rfl, rfl⟩

/-- A block of bytes that is cut in two spells two numbers. -/
private theorem bigEndianBytes_take_drop {block : List UInt8} {first second : Nat}
    (lengthEq : block.length = first + second) :
    bigEndianBytes first (bigEndian (block.take first)) ++
      bigEndianBytes second (bigEndian (block.drop first)) = block := by
  have firstLength : (block.take first).length = first := by simp [lengthEq]
  have secondLength : (block.drop first).length = second := by simp [lengthEq]
  have firstBytes := bigEndianBytes_bigEndian (block.take first)
  have secondBytes := bigEndianBytes_bigEndian (block.drop first)
  rw [firstLength] at firstBytes
  rw [secondLength] at secondBytes
  rw [firstBytes, secondBytes, List.take_append_drop]

private theorem toNat_ofNat_bigEndian {block : List UInt8} (lengthEq : block.length = 2) :
    (UInt16.ofNat (bigEndian block)).toNat = bigEndian block := by
  apply UInt16.toNat_ofNat_of_lt'
  have bounded := bigEndian_lt block
  rwa [lengthEq] at bounded

/-- Two slot numbers may also be cut out of one block. -/
private theorem block_pair_eq_ok_iff {make : UInt16 → UInt16 → PoolEntry}
    {entry : PoolEntry} {before after : Cursor} :
    (do
      let block ← Reader.bytes 4
      return make (UInt16.ofNat (bigEndian (block.take 2)))
        (UInt16.ofNat (bigEndian (block.drop 2))) : Reader PoolEntry) before =
        .ok (entry, after) ↔
      ∃ first second, entry = make first second ∧
        before.Passes (bigEndianBytes 2 first.toNat ++ bigEndianBytes 2 second.toNat)
          after := by
  simp only [Reader.bind_eq_ok_iff, Reader.pure_eq_ok_iff, Reader.bytes_eq_ok_iff]
  constructor
  · rintro ⟨block, _, ⟨lengthEq, passes⟩, rfl, rfl⟩
    refine ⟨_, _, rfl, ?_⟩
    rw [toNat_ofNat_bigEndian (by simp [lengthEq]), toNat_ofNat_bigEndian (by simp [lengthEq]),
      bigEndianBytes_take_drop lengthEq]
    exact passes
  · rintro ⟨first, second, rfl, passes⟩
    refine ⟨_, after, ⟨by simp, passes⟩, ?_, rfl⟩
    rw [List.take_left' (by simp), List.drop_left' (by simp),
      bigEndian_bigEndianBytes first.toNat_lt, bigEndian_bigEndianBytes second.toNat_lt,
      UInt16.ofNat_toNat, UInt16.ofNat_toNat]

/-- A block of a byte and a slot number makes a method handle. -/
private theorem block_handle_eq_ok_iff {entry : PoolEntry} {before after : Cursor} :
    (do
      let block ← Reader.bytes 3
      return .methodHandle (UInt8.ofNat (bigEndian (block.take 1)))
        (UInt16.ofNat (bigEndian (block.drop 1))) : Reader PoolEntry) before =
        .ok (entry, after) ↔
      ∃ kind reference, entry = .methodHandle kind reference ∧
        before.Passes (kind :: bigEndianBytes 2 reference.toNat) after := by
  simp only [Reader.bind_eq_ok_iff, Reader.pure_eq_ok_iff, Reader.bytes_eq_ok_iff]
  constructor
  · rintro ⟨block, _, ⟨lengthEq, passes⟩, rfl, rfl⟩
    refine ⟨_, _, rfl, ?_⟩
    obtain ⟨kind, reference, rfl⟩ : ∃ kind reference, block = kind :: reference :=
      List.exists_cons_of_length_eq_add_one lengthEq
    have referenceLength : reference.length = 2 := by simpa using lengthEq
    have referenceBytes := bigEndianBytes_bigEndian reference
    rw [referenceLength] at referenceBytes
    simp only [List.drop_succ_cons, List.drop_zero]
    rw [toNat_ofNat_bigEndian referenceLength, referenceBytes]
    simpa [bigEndian] using passes
  · rintro ⟨kind, reference, rfl, passes⟩
    refine ⟨_, after, ⟨by simp, passes⟩, ?_, rfl⟩
    simp only [List.take_succ_cons, List.take_zero, List.drop_succ_cons, List.drop_zero]
    rw [bigEndian_bigEndianBytes reference.toNat_lt, UInt16.ofNat_toNat]
    simp [bigEndian]

private theorem utf8_eq_ok_iff {entry : PoolEntry} {before after : Cursor} :
    (do
      let length ← Reader.u16
      return .utf8 (← Reader.bytes length.toNat) : Reader PoolEntry) before =
        .ok (entry, after) ↔
      ∃ bytes, bytes.length < 256 ^ 2 ∧ entry = .utf8 bytes ∧
        before.Passes (bigEndianBytes 2 bytes.length ++ bytes) after := by
  have writtenIff : _ ↔ ∃ list : Counted 2 UInt8,
      before.Passes (list.bytes fun byte => [byte]) after ∧ entry = .utf8 list.val :=
    Reader.u16_items_iff fun bytes => entry = .utf8 bytes
  simp only [Counted.bytes, List.flatMap_singleton', Subtype.exists] at writtenIff
  simp only [Reader.bind_eq_ok_iff, Reader.pure_eq_ok_iff, Reader.bytes_eq_ok_iff]
  constructor
  · rintro ⟨length, middle, readLength, bytes, _, ⟨lengthEq, passes⟩, entryEq, rfl⟩
    obtain ⟨bytes, bounded, passes, entryEq⟩ :=
      writtenIff.mp ⟨length, middle, readLength, bytes, lengthEq, passes, entryEq⟩
    exact ⟨bytes, bounded, entryEq, passes⟩
  · rintro ⟨bytes, bounded, entryEq, passes⟩
    obtain ⟨length, middle, readLength, bytes, lengthEq, passes, entryEq⟩ :=
      writtenIff.mpr ⟨bytes, bounded, passes, entryEq⟩
    exact ⟨length, middle, readLength, bytes, after, ⟨lengthEq, passes⟩, entryEq, rfl⟩

/-- An entry is read off its payload, under its own tag. -/
theorem readTagged_eq_ok_iff {found : UInt8} {slot : Nat} {entry : PoolEntry}
    {before after : Cursor} :
    readTagged found slot before = .ok (entry, after) ↔
      found = entry.tag ∧ entry.Writable ∧ before.Passes entry.payload after := by
  constructor
  · intro read
    unfold readTagged at read
    split at read
    · obtain ⟨bytes, bounded, rfl, passes⟩ := utf8_eq_ok_iff.mp read
      exact ⟨rfl, bounded, passes⟩
    · obtain ⟨value, rfl, passes⟩ := (Reader.map_eq_ok_iff Reader.i32_eq_ok_iff).mp read
      exact ⟨rfl, trivial, passes⟩
    · obtain ⟨bits, rfl, passes⟩ := (Reader.map_eq_ok_iff Reader.u32_eq_ok_iff).mp read
      exact ⟨rfl, trivial, passes⟩
    · obtain ⟨value, rfl, passes⟩ := (Reader.map_eq_ok_iff Reader.i64_eq_ok_iff).mp read
      exact ⟨rfl, trivial, passes⟩
    · obtain ⟨bits, rfl, passes⟩ := (Reader.map_eq_ok_iff Reader.u64_eq_ok_iff).mp read
      exact ⟨rfl, trivial, passes⟩
    · obtain ⟨name, rfl, passes⟩ := (Reader.map_eq_ok_iff Reader.u16_eq_ok_iff).mp read
      exact ⟨rfl, trivial, passes⟩
    · obtain ⟨text, rfl, passes⟩ := (Reader.map_eq_ok_iff Reader.u16_eq_ok_iff).mp read
      exact ⟨rfl, trivial, passes⟩
    · obtain ⟨owner, signature, rfl, passes⟩ := pair_eq_ok_iff.mp read
      exact ⟨rfl, trivial, passes⟩
    · obtain ⟨owner, signature, rfl, passes⟩ := pair_eq_ok_iff.mp read
      exact ⟨rfl, trivial, passes⟩
    · obtain ⟨owner, signature, rfl, passes⟩ := pair_eq_ok_iff.mp read
      exact ⟨rfl, trivial, passes⟩
    · obtain ⟨name, descriptor, rfl, passes⟩ := pair_eq_ok_iff.mp read
      exact ⟨rfl, trivial, passes⟩
    · obtain ⟨kind, reference, rfl, passes⟩ := block_handle_eq_ok_iff.mp read
      exact ⟨rfl, trivial, passes⟩
    · obtain ⟨descriptor, rfl, passes⟩ := (Reader.map_eq_ok_iff Reader.u16_eq_ok_iff).mp read
      exact ⟨rfl, trivial, passes⟩
    · obtain ⟨bootstrap, signature, rfl, passes⟩ := block_pair_eq_ok_iff.mp read
      exact ⟨rfl, trivial, passes⟩
    · obtain ⟨bootstrap, signature, rfl, passes⟩ := block_pair_eq_ok_iff.mp read
      exact ⟨rfl, trivial, passes⟩
    · obtain ⟨name, rfl, passes⟩ := (Reader.map_eq_ok_iff Reader.u16_eq_ok_iff).mp read
      exact ⟨rfl, trivial, passes⟩
    · obtain ⟨name, rfl, passes⟩ := (Reader.map_eq_ok_iff Reader.u16_eq_ok_iff).mp read
      exact ⟨rfl, trivial, passes⟩
    · exact (Reader.fail_ne_ok read).elim
  · rintro ⟨rfl, writable, passes⟩
    cases entry with
    | utf8 bytes => exact utf8_eq_ok_iff.mpr ⟨bytes, writable, rfl, passes⟩
    | integer value =>
        exact (Reader.map_eq_ok_iff Reader.i32_eq_ok_iff).mpr ⟨value, rfl, passes⟩
    | float bits =>
        exact (Reader.map_eq_ok_iff Reader.u32_eq_ok_iff).mpr ⟨bits, rfl, passes⟩
    | long value =>
        exact (Reader.map_eq_ok_iff Reader.i64_eq_ok_iff).mpr ⟨value, rfl, passes⟩
    | double bits =>
        exact (Reader.map_eq_ok_iff Reader.u64_eq_ok_iff).mpr ⟨bits, rfl, passes⟩
    | classReference slot | string slot | methodType slot | moduleName slot
    | packageName slot =>
        exact (Reader.map_eq_ok_iff Reader.u16_eq_ok_iff).mpr ⟨slot, rfl, passes⟩
    | fieldReference first second | methodReference first second
    | interfaceMethodReference first second | nameAndType first second =>
        exact pair_eq_ok_iff.mpr ⟨first, second, rfl, passes⟩
    | dynamicConstant bootstrap signature | dynamicCall bootstrap signature =>
        exact block_pair_eq_ok_iff.mpr ⟨bootstrap, signature, rfl, passes⟩
    | methodHandle kind reference =>
        exact block_handle_eq_ok_iff.mpr ⟨kind, reference, rfl, passes⟩

end PoolEntry

end ClassLint
