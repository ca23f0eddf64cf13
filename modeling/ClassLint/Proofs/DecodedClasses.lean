import ClassLint.Proofs.ClassGrammar

/-!
# Decoded classes

Each reader of a class file is matched with a part of the grammar, from the
attributes up to the whole file.  The result is that `decodeClass` accepts
exactly the written class files, and flattens them into the events of the class
that they describe.
-/

namespace ClassLint

namespace Reader

theorem block_eq_ok_iff {block : List UInt8} {before after : Cursor} :
    (∃ length middle, u32 before = .ok (length, middle) ∧
        bytes length.toNat middle = .ok (block, after)) ↔
      ∃ counted : Counted 4 UInt8, before.Passes (blockBytes counted) after ∧
        block = counted.val := by
  simp only [blockBytes]
  rw [← u32_items_iff fun items => block = items]
  simp only [bytes_eq_ok_iff, List.flatMap_singleton']
  refine exists_congr fun length => exists_congr fun middle => and_congr_right fun _ => ?_
  constructor
  · rintro ⟨lengthEq, passes⟩
    exact ⟨block, lengthEq, passes, rfl⟩
  · rintro ⟨_, lengthEq, passes, rfl⟩
    exact ⟨lengthEq, passes⟩

end Reader

namespace ClassFile

section Attributes

variable {α β : Type} {pool : ConstantPool}
  {readBody : String → α → Reader α}
  {gives : WrittenAttribute → β → Prop} {combine : α → β → α}

/-- Attributes whose bodies each combine a value with what was collected before are
read off their written forms. -/
theorem readAttributesFrom_eq_ok_iff
    (uses : ∀ written collected next,
      (do
        let name ← pool.utf8 written.nameSlot
        Reader.within written.body.val (readBody name collected)) = .ok next ↔
        ∃ value, gives written value ∧ next = combine collected value)
    {count : Nat} {collected result : α} {before after : Cursor} :
    readAttributesFrom pool readBody count collected before = .ok (result, after) ↔
      ∃ attributes values, attributes.length = count ∧
        before.Passes (attributes.flatMap WrittenAttribute.bytes) after ∧
        List.Forall₂ gives attributes values ∧ result = values.foldl combine collected := by
  induction count generalizing collected before with
  | zero =>
      simp only [readAttributesFrom, Reader.pure_eq_ok_iff, List.length_eq_zero_iff]
      constructor
      · rintro ⟨rfl, rfl⟩
        exact ⟨[], [], rfl, by simp, .nil, rfl⟩
      · rintro ⟨_, values, rfl, passes, related, rfl⟩
        cases related
        exact ⟨rfl, by simpa using passes⟩
  | succ count ih =>
      simp only [readAttributesFrom, Reader.embed_eq_lift, Reader.bind_eq_ok_iff,
        Reader.lift_eq_ok_iff, Reader.u16_eq_ok_iff, ih]
      constructor
      · rintro ⟨nameSlot, afterName, passesName, name, _, ⟨hasName, rfl⟩, length, afterLength,
          readLength, body, afterBody, readBlock, next, _, ⟨used, rfl⟩, attributes, values, rfl,
          passes, related, rfl⟩
        obtain ⟨block, passesBody, rfl⟩ :=
          Reader.block_eq_ok_iff.mp ⟨length, afterLength, readLength, readBlock⟩
        obtain ⟨value, given, rfl⟩ := (uses ⟨nameSlot, block⟩ collected next).mp
          (except_bind_eq_ok_iff.mpr ⟨name, hasName, used⟩)
        refine ⟨⟨nameSlot, block⟩ :: attributes, value :: values, rfl, ?_,
          .cons given related, rfl⟩
        rw [List.flatMap_cons, Cursor.passes_append]
        exact ⟨_, Cursor.passes_append.mpr ⟨_, passesName, passesBody⟩, passes⟩
      · rintro ⟨attributes, values, lengthEq, passes, related, rfl⟩
        cases related with
        | nil => simp at lengthEq
        | @cons written value attributes values given related =>
            rw [List.flatMap_cons, Cursor.passes_append] at passes
            obtain ⟨afterBody, passesWritten, passes⟩ := passes
            rw [WrittenAttribute.bytes, Cursor.passes_append] at passesWritten
            obtain ⟨afterName, passesName, passesBody⟩ := passesWritten
            obtain ⟨length, afterLength, readLength, readBlock⟩ :=
              Reader.block_eq_ok_iff.mpr ⟨written.body, passesBody, rfl⟩
            obtain ⟨name, hasName, used⟩ := except_bind_eq_ok_iff.mp
              ((uses written collected _).mpr ⟨value, given, rfl⟩)
            exact ⟨written.nameSlot, afterName, passesName, name, afterName, ⟨hasName, rfl⟩,
              length, afterLength, readLength, written.body.val, afterBody, readBlock, _,
              afterBody, ⟨used, rfl⟩, attributes, values, by simpa using lengthEq, passes,
              related, rfl⟩

theorem readAttributes_eq_ok_iff
    (uses : ∀ written collected next,
      (do
        let name ← pool.utf8 written.nameSlot
        Reader.within written.body.val (readBody name collected)) = .ok next ↔
        ∃ value, gives written value ∧ next = combine collected value)
    {first result : α} {before after : Cursor} :
    readAttributes pool readBody first before = .ok (result, after) ↔
      ∃ (attributes : Counted 2 WrittenAttribute) (values : List β),
        before.Passes (attributes.bytes WrittenAttribute.bytes) after ∧
        List.Forall₂ gives attributes.val values ∧ result = values.foldl combine first := by
  simp only [readAttributes, Reader.bind_eq_ok_iff, readAttributesFrom_eq_ok_iff uses,
    exists_and_left]
  exact Reader.u16_items_iff fun attributes =>
    ∃ values, List.Forall₂ gives attributes values ∧ result = values.foldl combine first

end Attributes

theorem readCodeArray_start_iff {region code : List UInt8} :
    (∃ after, readCodeArray (Cursor.start region) = .ok (code, after)) ↔
      ∃ (maxStack maxLocals : UInt16) (array : Counted 4 UInt8) (rest : List UInt8),
        region = shortBytes maxStack ++ (shortBytes maxLocals ++ blockBytes array) ++ rest ∧
          code = array.val := by
  simp only [readCodeArray, Reader.bind_eq_ok_iff, Reader.u16_eq_ok_iff]
  constructor
  · rintro ⟨after, maxStack, afterStack, passesStack, maxLocals, afterLocals, passesLocals,
      length, afterLength, readLength, readCode⟩
    obtain ⟨array, passesArray, codeEq⟩ :=
      Reader.block_eq_ok_iff.mp ⟨length, afterLength, readLength, readCode⟩
    have passes : (Cursor.start region).Passes
        (shortBytes maxStack ++ (shortBytes maxLocals ++ blockBytes array)) after :=
      Cursor.passes_append.mpr ⟨afterStack, passesStack,
        Cursor.passes_append.mpr ⟨afterLocals, passesLocals, passesArray⟩⟩
    exact ⟨maxStack, maxLocals, array, after.rest, passes.rest, codeEq⟩
  · rintro ⟨maxStack, maxLocals, array, rest, regionEq, codeEq⟩
    obtain ⟨after, passes⟩ := Cursor.start_passes_iff.mpr ⟨rest, regionEq⟩
    obtain ⟨afterStack, passesStack, passes⟩ := Cursor.passes_append.mp passes
    obtain ⟨afterLocals, passesLocals, passesArray⟩ := Cursor.passes_append.mp passes
    obtain ⟨length, afterLength, readLength, readCode⟩ :=
      Reader.block_eq_ok_iff.mpr ⟨array, passesArray, codeEq⟩
    exact ⟨after, maxStack, afterStack, passesStack, maxLocals, afterLocals, passesLocals,
      length, afterLength, readLength, readCode⟩

variable {table : ConstantTable}

theorem readFieldAttribute_eq_ok_iff (written : WrittenAttribute)
    (collected next : Option Constant) :
    (do
      let name ← table.pool.utf8 written.nameSlot
      Reader.within written.body.val
        (readFieldAttribute table.pool name collected : Reader (Option Constant))) = .ok next ↔
      ∃ value, written.GivesConstant table value ∧ next = value.or collected := by
  simp only [except_bind_eq_ok_iff, ConstantTable.utf8_pool_eq_ok_iff, Reader.within_eq_ok_iff,
    readFieldAttribute]
  constructor
  · rintro ⟨name, named, after, read⟩
    split at read
    next nameEq =>
      subst nameEq
      simp only [Reader.bind_eq_ok_iff, Reader.u16_eq_ok_iff, Reader.lift_eq_ok_iff,
        Reader.pure_eq_ok_iff, ConstantTable.constant_pool_eq_ok_iff] at read
      obtain ⟨slot, _, passes, constant, _, ⟨held, rfl⟩, nextEq, _⟩ := read
      exact ⟨some constant, .constantValue named passes.rest held, nextEq⟩
    next other => exact ⟨none, .skipped named other, (Reader.pure_eq_ok_iff.mp read).1⟩
  · rintro ⟨value, given, rfl⟩
    cases given with
    | constantValue named starts held =>
        obtain ⟨after, passes⟩ := Cursor.start_passes_iff.mpr ⟨_, starts⟩
        refine ⟨_, named, after, ?_⟩
        rw [if_pos rfl]
        simp only [Reader.bind_eq_ok_iff, Reader.u16_eq_ok_iff, Reader.lift_eq_ok_iff,
          Reader.pure_eq_ok_iff, ConstantTable.constant_pool_eq_ok_iff]
        exact ⟨_, after, passes, _, after, ⟨held, rfl⟩, rfl, rfl⟩
    | skipped named other =>
        refine ⟨_, named, Cursor.start written.body.val, ?_⟩
        rw [if_neg other]
        rfl

end ClassFile

/-- Code arrays are decoded as a build does it: with checks there is nothing behind a branch
that leads too far. -/
def Build.DecodesBy (build : Build)
    (decode : ConstantPool → List UInt8 → Except DecodeError (List Instruction)) : Prop :=
  ∀ pool code instructions, decode pool code = .ok instructions ↔
    decodeCode pool code = .ok instructions ∧
      (build = .checked → ¬Instruction.FarBranch pool code)

theorem Build.release_decodesBy : Build.release.DecodesBy decodeCode := by
  intro pool code instructions
  simp

namespace ClassFile

variable {table : ConstantTable} {build : Build}
  {decode : ConstantPool → List UInt8 → Except DecodeError (List Instruction)}

theorem readMethodAttribute_eq_ok_iff (decodesBy : build.DecodesBy decode)
    (written : WrittenAttribute) (collected next : List Instruction) :
    (do
      let name ← table.pool.utf8 written.nameSlot
      Reader.within written.body.val
        (readMethodAttribute (decode table.pool) name collected : Reader (List Instruction))) =
        .ok next ↔
      ∃ body, written.GivesInstructions build table body ∧ next = collected ++ body := by
  simp only [except_bind_eq_ok_iff, ConstantTable.utf8_pool_eq_ok_iff, Reader.within_eq_ok_iff,
    readMethodAttribute, Reader.embed_eq_lift]
  constructor
  · rintro ⟨name, named, after, read⟩
    split at read
    next nameEq =>
      subst nameEq
      simp only [Reader.bind_eq_ok_iff, Reader.lift_eq_ok_iff, Reader.pure_eq_ok_iff] at read
      obtain ⟨code, _, readCode, body, _, ⟨decoded, rfl⟩, nextEq, _⟩ := read
      obtain ⟨maxStack, maxLocals, array, rest, starts, rfl⟩ :=
        readCodeArray_start_iff.mp ⟨_, readCode⟩
      obtain ⟨decoded, near⟩ := (decodesBy _ _ _).mp decoded
      exact ⟨body, .code named starts decoded near, nextEq⟩
    next other =>
      refine ⟨[], .skipped named other, ?_⟩
      rw [List.append_nil]
      exact (Reader.pure_eq_ok_iff.mp read).1
  · rintro ⟨body, given, rfl⟩
    cases given with
    | code named starts decoded near =>
        obtain ⟨after, readCode⟩ := readCodeArray_start_iff.mpr ⟨_, _, _, _, starts, rfl⟩
        refine ⟨_, named, after, ?_⟩
        rw [if_pos rfl]
        simp only [Reader.bind_eq_ok_iff, Reader.lift_eq_ok_iff, Reader.pure_eq_ok_iff]
        exact ⟨_, after, readCode, body, after, ⟨(decodesBy _ _ _).mpr ⟨decoded, near⟩, rfl⟩,
          rfl, rfl⟩
    | skipped named other =>
        refine ⟨_, named, Cursor.start written.body.val, ?_⟩
        rw [if_neg other, List.append_nil]
        rfl

private theorem foldl_or_eq_getLast? {values : List (Option Constant)}
    {first : Option Constant} :
    values.foldl (fun collected value => value.or collected) first =
      (values.filterMap id).getLast?.or first := by
  induction values generalizing first with
  | nil => rfl
  | cons value values ih =>
      cases value with
      | none => simp [ih]
      | some constant => simp [ih, List.getLast?_cons, Option.or_some]

/-- Fields and methods start alike: with their access, their name and their
descriptor. -/
private theorem member_eq_ok_iff {γ : Type} {next : UInt16 → String → String → Reader γ}
    {value : γ} {before after : Cursor} :
    (do
      let access ← Reader.u16
      let nameSlot ← Reader.u16
      let name ← Reader.lift (table.pool.utf8 nameSlot)
      let descriptorSlot ← Reader.u16
      let descriptor ← Reader.lift (table.pool.utf8 descriptorSlot)
      next access name descriptor : Reader γ) before = .ok (value, after) ↔
      ∃ (access nameSlot descriptorSlot : UInt16) (name descriptor : String)
        (middle : Cursor),
        before.Passes (shortBytes access ++ (shortBytes nameSlot ++ shortBytes descriptorSlot))
          middle ∧
        table.HasText nameSlot name ∧ table.HasText descriptorSlot descriptor ∧
        next access name descriptor middle = .ok (value, after) := by
  simp only [Reader.bind_eq_ok_iff, Reader.u16_eq_ok_iff, Reader.lift_eq_ok_iff,
    ConstantTable.utf8_pool_eq_ok_iff, Cursor.passes_append]
  constructor
  · rintro ⟨access, afterAccess, passesAccess, nameSlot, afterName, passesName, name, _,
      ⟨hasName, rfl⟩, descriptorSlot, afterDescriptor, passesDescriptor, descriptor, _,
      ⟨hasDescriptor, rfl⟩, continued⟩
    exact ⟨access, nameSlot, descriptorSlot, name, descriptor, _,
      ⟨afterAccess, passesAccess, _, passesName, passesDescriptor⟩, hasName, hasDescriptor,
      continued⟩
  · rintro ⟨access, nameSlot, descriptorSlot, name, descriptor, middle,
      ⟨afterAccess, passesAccess, afterName, passesName, passesDescriptor⟩, hasName,
      hasDescriptor, continued⟩
    exact ⟨access, afterAccess, passesAccess, nameSlot, afterName, passesName, name, afterName,
      ⟨hasName, rfl⟩, descriptorSlot, middle, passesDescriptor, descriptor, middle,
      ⟨hasDescriptor, rfl⟩, continued⟩

private theorem passes_member_iff {member : WrittenMember} {before after : Cursor} :
    before.Passes member.bytes after ↔
      ∃ middle : Cursor, before.Passes (shortBytes member.access ++
          (shortBytes member.nameSlot ++ shortBytes member.descriptorSlot)) middle ∧
        middle.Passes (member.attributes.bytes WrittenAttribute.bytes) after := by
  rw [← Cursor.passes_append]
  simp only [WrittenMember.bytes, List.append_assoc]

theorem readField_parses :
    Reader.Parses (readField table.pool) WrittenMember.bytes (WrittenMember.IsField table) := by
  intro before field after
  rw [readField, member_eq_ok_iff]
  simp only [Reader.bind_eq_ok_iff, Reader.pure_eq_ok_iff, passes_member_iff,
    readAttributes_eq_ok_iff readFieldAttribute_eq_ok_iff, foldl_or_eq_getLast?, Option.or_none]
  constructor
  · rintro ⟨access, nameSlot, descriptorSlot, name, descriptor, middle, passes, hasName,
      hasDescriptor, _, _, ⟨attributes, values, passesAttributes, related, rfl⟩, rfl, rfl⟩
    exact ⟨⟨access, nameSlot, descriptorSlot, attributes⟩, ⟨middle, passes, passesAttributes⟩,
      rfl, hasName, hasDescriptor, values, related, rfl⟩
  · rintro ⟨member, ⟨middle, passes, passesAttributes⟩, isField⟩
    obtain ⟨values, related, constantEq⟩ := isField.constantValue
    refine ⟨member.access, member.nameSlot, member.descriptorSlot, field.name,
      field.descriptor, middle, passes, isField.name, isField.descriptor, _, after,
      ⟨member.attributes, values, passesAttributes, related, rfl⟩, ?_, rfl⟩
    rw [← constantEq, ← isField.access]

theorem readMethod_parses (decodesBy : build.DecodesBy decode) :
    Reader.Parses (readMethod decode table.pool) WrittenMember.bytes
      (fun member method => member.IsMethod build table ⟨method.1, method.2⟩) := by
  intro before method after
  rw [readMethod, member_eq_ok_iff]
  simp only [Reader.bind_eq_ok_iff, Reader.pure_eq_ok_iff, passes_member_iff,
    readAttributes_eq_ok_iff (readMethodAttribute_eq_ok_iff decodesBy)]
  have foldEq (bodies : List (List Instruction)) :
      bodies.foldl (fun collected body => collected ++ body) [] = bodies.flatten := by
    simpa using @List.foldl_append_eq_append _ _ bodies id []
  constructor
  · rintro ⟨access, nameSlot, descriptorSlot, name, descriptor, middle, passes, hasName,
      hasDescriptor, _, _, ⟨attributes, bodies, passesAttributes, related, rfl⟩, rfl, rfl⟩
    exact ⟨⟨access, nameSlot, descriptorSlot, attributes⟩, ⟨middle, passes, passesAttributes⟩,
      rfl, hasName, hasDescriptor, bodies, related, foldEq bodies⟩
  · rintro ⟨member, ⟨middle, passes, passesAttributes⟩, isMethod⟩
    obtain ⟨bodies, related, instructionsEq⟩ := isMethod.instructions
    refine ⟨member.access, member.nameSlot, member.descriptorSlot, method.1.name,
      method.1.descriptor, middle, passes, isMethod.name, isMethod.descriptor, _, after,
      ⟨member.attributes, bodies, passesAttributes, related, rfl⟩, ?_, rfl⟩
    have accessEq : method.1.access = ⟨member.access⟩ := isMethod.access
    have bodyEq : method.2 = bodies.flatten := instructionsEq
    rw [foldEq, ← bodyEq, ← accessEq]

theorem skipAttribute_parses :
    Reader.Parses skipAttribute WrittenAttribute.bytes (fun _ _ => True) := by
  intro before skipped after
  simp only [skipAttribute, Reader.bind_eq_ok_iff, Reader.u16_eq_ok_iff, and_true,
    Reader.pure_eq_ok_iff, WrittenAttribute.bytes, Cursor.passes_append]
  constructor
  · rintro ⟨nameSlot, afterName, passesName, length, afterLength, readLength, body, _, readBody,
      _, rfl⟩
    obtain ⟨block, passesBody, rfl⟩ :=
      Reader.block_eq_ok_iff.mp ⟨length, afterLength, readLength, readBody⟩
    exact ⟨⟨nameSlot, block⟩, afterName, passesName, passesBody⟩
  · rintro ⟨written, afterName, passesName, passesBody⟩
    obtain ⟨length, afterLength, readLength, readBody⟩ :=
      Reader.block_eq_ok_iff.mpr ⟨written.body, passesBody, rfl⟩
    exact ⟨written.nameSlot, afterName, passesName, length, afterLength, readLength,
      written.body.val, after, readBody, trivial, rfl⟩

theorem readClassName_parses :
    Reader.Parses (readClassName table.pool) shortBytes table.HasClass := by
  intro before name after
  simp only [readClassName, Reader.bind_eq_ok_iff, Reader.u16_eq_ok_iff, Reader.lift_eq_ok_iff,
    ConstantTable.className_pool_eq_ok_iff]
  constructor
  · rintro ⟨slot, _, passes, hasClass, rfl⟩
    exact ⟨slot, passes, hasClass⟩
  · rintro ⟨slot, passes, hasClass⟩
    exact ⟨slot, after, passes, hasClass, rfl⟩

theorem readSuperName_parses :
    Reader.Parses (readSuperName table.pool) shortBytes table.HasSuper := by
  intro before superName after
  simp only [readSuperName, Reader.bind_eq_ok_iff, Reader.u16_eq_ok_iff]
  refine exists_congr fun slot => ?_
  by_cases absent : slot = 0
  · subst absent
    simp only [if_true, Reader.pure_eq_ok_iff]
    constructor
    · rintro ⟨_, passes, rfl, rfl⟩
      exact ⟨passes, .absent⟩
    · rintro ⟨passes, hasSuper⟩
      cases hasSuper with
      | absent => exact ⟨after, passes, rfl, rfl⟩
      | present nonzero => exact (nonzero rfl).elim
  · simp only [absent, if_false, Reader.bind_eq_ok_iff, Reader.lift_eq_ok_iff,
      Reader.pure_eq_ok_iff, ConstantTable.className_pool_eq_ok_iff]
    constructor
    · rintro ⟨_, passes, name, _, ⟨hasClass, rfl⟩, rfl, rfl⟩
      exact ⟨passes, .present absent hasClass⟩
    · rintro ⟨passes, hasSuper⟩
      cases hasSuper with
      | absent => exact (absent rfl).elim
      | present nonzero hasClass =>
          exact ⟨after, passes, _, after, ⟨hasClass, rfl⟩, rfl, rfl⟩

theorem readHeader_parses :
    Reader.Parses (readHeader table.pool) WrittenHeader.bytes (WrittenHeader.IsHeader table) := by
  intro before header after
  simp only [readHeader, Reader.bind_eq_ok_iff, Reader.pure_eq_ok_iff, readClassName_parses _ _ _,
    readSuperName_parses _ _ _, WrittenHeader.bytes, Cursor.passes_append]
  constructor
  · rintro ⟨access, afterAccess, readAccess, name, afterName,
      ⟨nameSlot, passesName, hasName⟩, superName, afterSuper, ⟨superSlot, passesSuper, hasSuper⟩,
      count, afterCount, readCount, interfaces, _, readInterfaces, rfl, rfl⟩
    obtain ⟨interfaceSlots, passesInterfaces, related⟩ :=
      (Reader.counted_eq_ok_iff readClassName_parses).mp
        ⟨count, afterCount, readCount, readInterfaces⟩
    exact ⟨⟨access, nameSlot, superSlot, interfaceSlots⟩,
      ⟨afterAccess, Reader.u16_eq_ok_iff.mp readAccess, afterName, passesName, afterSuper,
        passesSuper, passesInterfaces⟩,
      rfl, hasName, hasSuper, related⟩
  · rintro ⟨written, ⟨afterAccess, passesAccess, afterName, passesName, afterSuper, passesSuper,
      passesInterfaces⟩, isHeader⟩
    obtain ⟨count, afterCount, readCount, readInterfaces⟩ :=
      (Reader.counted_eq_ok_iff readClassName_parses).mpr
        ⟨written.interfaceSlots, passesInterfaces, isHeader.interfaces⟩
    refine ⟨written.access, afterAccess, Reader.u16_eq_ok_iff.mpr passesAccess, header.name,
      afterName, ⟨written.nameSlot, passesName, isHeader.name⟩, header.superName, afterSuper,
      ⟨written.superSlot, passesSuper, isHeader.superName⟩, count, afterCount, readCount,
      header.interfaces, after, readInterfaces, ?_, rfl⟩
    rw [← isHeader.access]

/-- No class has its name in an empty pool. -/
theorem readHeader_empty_ne_ok {header : ClassHeader} {before after : Cursor} :
    readHeader ⟨#[none]⟩ before ≠ .ok (header, after) := by
  intro read
  simp only [readHeader, readClassName, Reader.bind_eq_ok_iff, Reader.lift_eq_ok_iff,
    ConstantPool.className, except_bind_eq_ok_iff] at read
  obtain ⟨_, _, _, _, _, ⟨nameSlot, _, _, ⟨entry, found, _⟩, _⟩, _⟩ := read
  unfold ConstantPool.entry at found
  split at found
  next held => cases slotEq : nameSlot.toNat <;> simp [slotEq] at held
  next => cases found

/-- What follows the constant pool of a class file. -/
private theorem body_eq_ok_iff (decodesBy : build.DecodesBy decode) {events : List Event}
    {before after : Cursor} :
    (do
      let header ← readHeader table.pool
      let fieldCount ← Reader.u16
      let fields ← Reader.repeated fieldCount.toNat (readField table.pool)
      let methodCount ← Reader.u16
      let methods ← Reader.repeated methodCount.toNat (readMethod decode table.pool)
      let attributeCount ← Reader.u16
      let _ ← Reader.repeated attributeCount.toNat skipAttribute
      return .classHeader header ::
        (fields.map .field ++ methods.flatMap methodEvents ++ [.classEnd]) :
      Reader (List Event)) before = .ok (events, after) ↔
      ∃ (header : WrittenHeader) (fields methods : Counted 2 WrittenMember)
        (attributes : Counted 2 WrittenAttribute) (outline : ClassOutline),
        before.Passes (header.bytes ++ (fields.bytes WrittenMember.bytes ++
          (methods.bytes WrittenMember.bytes ++ attributes.bytes WrittenAttribute.bytes)))
          after ∧
        header.IsHeader table outline.header ∧
        List.Forall₂ (WrittenMember.IsField table) fields.val outline.fields ∧
        List.Forall₂ (WrittenMember.IsMethod build table) methods.val outline.methods ∧
        events = outline.events := by
  simp only [Reader.bind_eq_ok_iff, Reader.pure_eq_ok_iff, readHeader_parses _ _ _,
    Cursor.passes_append]
  constructor
  · rintro ⟨header, afterHeader, ⟨writtenHeader, passesHeader, isHeader⟩, fieldCount,
      afterFieldCount, readFieldCount, fields, afterFields, readFields, methodCount,
      afterMethodCount, readMethodCount, methods, afterMethods, readMethods, attributeCount,
      afterAttributeCount, readAttributeCount, skipped, _, readAttributes, rfl, rfl⟩
    obtain ⟨writtenFields, passesFields, areFields⟩ :=
      (Reader.counted_eq_ok_iff readField_parses).mp ⟨_, _, readFieldCount, readFields⟩
    obtain ⟨writtenMethods, passesMethods, areMethods⟩ :=
      (Reader.counted_eq_ok_iff (readMethod_parses decodesBy)).mp
        ⟨_, _, readMethodCount, readMethods⟩
    obtain ⟨attributes, passesAttributes, _⟩ :=
      (Reader.counted_eq_ok_iff skipAttribute_parses).mp
        ⟨_, _, readAttributeCount, readAttributes⟩
    refine ⟨writtenHeader, writtenFields, writtenMethods, attributes,
      ⟨header, fields, methods.map fun method => ⟨method.1, method.2⟩⟩,
      ⟨afterHeader, passesHeader, afterFields, passesFields, afterMethods, passesMethods,
        passesAttributes⟩,
      isHeader, areFields, List.forall₂_map_right_iff.mpr areMethods, ?_⟩
    simp only [ClassOutline.events, List.flatMap_map]
    rfl
  · rintro ⟨writtenHeader, writtenFields, writtenMethods, attributes, outline,
      ⟨afterHeader, passesHeader, afterFields, passesFields, afterMethods, passesMethods,
        passesAttributes⟩, isHeader, areFields, areMethods, rfl⟩
    obtain ⟨fieldCount, afterFieldCount, readFieldCount, readFields⟩ :=
      (Reader.counted_eq_ok_iff readField_parses).mpr ⟨writtenFields, passesFields, areFields⟩
    have areReadMethods : List.Forall₂
        (fun (member : WrittenMember) (method : MethodDeclaration × List Instruction) =>
          member.IsMethod build table ⟨method.1, method.2⟩) writtenMethods.val
        (outline.methods.map fun method => (method.declaration, method.instructions)) :=
      List.forall₂_map_right_iff.mpr areMethods
    obtain ⟨methodCount, afterMethodCount, readMethodCount, readMethods⟩ :=
      (Reader.counted_eq_ok_iff (readMethod_parses decodesBy)).mpr
        ⟨writtenMethods, passesMethods, areReadMethods⟩
    have areSkipped : List.Forall₂ (fun (_ : WrittenAttribute) (_ : Unit) => True)
        attributes.val (attributes.val.map fun _ => ()) :=
      List.forall₂_map_right_iff.mpr (List.forall₂_same.mpr fun _ _ => trivial)
    obtain ⟨attributeCount, afterAttributeCount, readAttributeCount, readAttributes⟩ :=
      (Reader.counted_eq_ok_iff skipAttribute_parses).mpr
        ⟨attributes, passesAttributes, areSkipped⟩
    refine ⟨outline.header, afterHeader, ⟨writtenHeader, passesHeader, isHeader⟩, fieldCount,
      afterFieldCount, readFieldCount, outline.fields, afterFields, readFields, methodCount,
      afterMethodCount, readMethodCount, _, afterMethods, readMethods, attributeCount,
      afterAttributeCount, readAttributeCount, _, after, readAttributes, ?_, rfl⟩
    simp only [ClassOutline.events, List.flatMap_map]
    rfl

private theorem bigEndianBytes_magic :
    bigEndianBytes 4 magic.toNat = [0xCA, 0xFE, 0xBA, 0xBE] := by
  decide

theorem readClass_eq_ok_iff (decodesBy : build.DecodesBy decode) {events : List Event}
    {before after : Cursor} :
    readClass decode before = .ok (events, after) ↔
      ∃ (file : WrittenClass) (outline : ClassOutline), before.Passes file.bytes after ∧
        file.Describes build outline ∧ events = outline.events := by
  rw [readClass, Reader.bind_eq_ok_iff]
  constructor
  · rintro ⟨found, afterMagic, readMagic, continued⟩
    by_cases isMagic : found = magic
    · rw [if_neg (not_not.mpr isMagic), Reader.bind_eq_ok_iff] at continued
      obtain ⟨minor, afterMinor, readMinor, continued⟩ := continued
      rw [Reader.bind_eq_ok_iff] at continued
      obtain ⟨major, afterMajor, readMajor, continued⟩ := continued
      rw [Reader.bind_eq_ok_iff] at continued
      obtain ⟨pool, afterPool, readPool, continued⟩ := continued
      rw [isMagic, Reader.u32_eq_ok_iff, bigEndianBytes_magic] at readMagic
      rcases ConstantPool.read_eq_ok_iff.mp readPool with
        ⟨constants, passesConstants, rfl⟩ | ⟨_, rfl⟩
      · obtain ⟨header, fields, methods, attributes, outline, passes, isHeader, areFields,
          areMethods, eventsEq⟩ := (body_eq_ok_iff decodesBy).mp continued
        refine ⟨⟨minor, major, constants, header, fields, methods, attributes⟩, outline, ?_,
          ⟨isHeader, areFields, areMethods⟩, eventsEq⟩
        rw [WrittenClass.bytes]
        exact Cursor.passes_append.mpr ⟨afterMagic, readMagic,
          Cursor.passes_append.mpr ⟨afterMinor, Reader.u16_eq_ok_iff.mp readMinor,
            Cursor.passes_append.mpr ⟨afterMajor, Reader.u16_eq_ok_iff.mp readMajor,
              Cursor.passes_append.mpr ⟨afterPool, passesConstants, passes⟩⟩⟩⟩
      · obtain ⟨header, afterHeader, readHeader, _⟩ := Reader.bind_eq_ok_iff.mp continued
        exact (readHeader_empty_ne_ok readHeader).elim
    · rw [if_pos isMagic] at continued
      exact (Reader.fail_ne_ok continued).elim
  · rintro ⟨file, outline, passes, describes, rfl⟩
    rw [WrittenClass.bytes] at passes
    obtain ⟨afterMagic, passesMagic, passes⟩ := Cursor.passes_append.mp passes
    obtain ⟨afterMinor, passesMinor, passes⟩ := Cursor.passes_append.mp passes
    obtain ⟨afterMajor, passesMajor, passes⟩ := Cursor.passes_append.mp passes
    obtain ⟨afterPool, passesConstants, passes⟩ := Cursor.passes_append.mp passes
    rw [← bigEndianBytes_magic, ← Reader.u32_eq_ok_iff] at passesMagic
    refine ⟨magic, afterMagic, passesMagic, ?_⟩
    rw [if_neg (not_not.mpr rfl), Reader.bind_eq_ok_iff]
    refine ⟨file.minorVersion, afterMinor, Reader.u16_eq_ok_iff.mpr passesMinor, ?_⟩
    rw [Reader.bind_eq_ok_iff]
    refine ⟨file.majorVersion, afterMajor, Reader.u16_eq_ok_iff.mpr passesMajor, ?_⟩
    rw [Reader.bind_eq_ok_iff]
    refine ⟨file.constants.pool, afterPool,
      ConstantPool.read_eq_ok_iff.mpr (.inl ⟨file.constants, passesConstants, rfl⟩), ?_⟩
    exact (body_eq_ok_iff decodesBy).mpr ⟨file.header, file.fields, file.methods,
      file.attributes, outline, passes, describes.header, describes.fields, describes.methods,
      rfl⟩

end ClassFile

theorem within_readClass_eq_ok_iff {build : Build}
    {decode : ConstantPool → List UInt8 → Except DecodeError (List Instruction)}
    (decodesBy : build.DecodesBy decode) {bytes : List UInt8} {events : List Event} :
    Reader.within bytes (ClassFile.readClass decode : Reader (List Event)) = .ok events ↔
      ∃ (file : WrittenClass) (trailing : List UInt8) (outline : ClassOutline),
        bytes = file.bytes ++ trailing ∧ file.Describes build outline ∧
          events = outline.events := by
  simp only [Reader.within_eq_ok_iff, ClassFile.readClass_eq_ok_iff decodesBy]
  constructor
  · rintro ⟨after, file, outline, passes, describes, eventsEq⟩
    exact ⟨file, after.rest, outline, passes.rest, describes, eventsEq⟩
  · rintro ⟨file, trailing, outline, bytesEq, describes, eventsEq⟩
    obtain ⟨after, passes⟩ := Cursor.start_passes_iff.mpr ⟨trailing, bytesEq⟩
    exact ⟨after, file, outline, passes, describes, eventsEq⟩

end ClassLint
