import ClassLint.Proofs.BrokenCode
import ClassLint.Proofs.CodeTiling
import ClassLint.Proofs.DecodedClasses
import ClassLint.Proofs.MethodReports
import ClassLint.Proofs.UnusedFields

/-!
# Field accesses in class files

An instruction that accesses a field holds a slot, and the member at that slot has
its name at another one.  This file follows the slots from the code of a class file
to those names.  So it says, in terms of the file, which private fields of a class
the check for unused fields reports.
-/

namespace ClassLint

namespace ConstantTable

variable {table : ConstantTable} {slot nameSlot : UInt16} {member : Member}
  {ofInterface : Bool}

theorem Holds.unique {entry other : PoolEntry} (held : table.Holds slot entry)
    (otherHeld : table.Holds slot other) : entry = other := by
  rw [← entry_pool_eq_ok_iff] at held otherHeld
  rw [held] at otherHeld
  exact Except.ok.inj otherHeld

theorem HasText.unique {text other : String} (hasText : table.HasText slot text)
    (hasOther : table.HasText slot other) : text = other := by
  rw [← utf8_pool_eq_ok_iff] at hasText hasOther
  rw [hasText] at hasOther
  exact Except.ok.inj hasOther

theorem HasClass.unique {name other : String} (hasClass : table.HasClass slot name)
    (hasOther : table.HasClass slot other) : name = other := by
  rw [← className_pool_eq_ok_iff] at hasClass hasOther
  rw [hasClass] at hasOther
  exact Except.ok.inj hasOther

/-- The member at a slot has its name at another slot. -/
def NamesMember (table : ConstantTable) (slot nameSlot : UInt16) : Prop :=
  ∃ owner signature descriptorSlot,
    (table.Holds slot (.fieldReference owner signature) ∨
      table.Holds slot (.methodReference owner signature) ∨
      table.Holds slot (.interfaceMethodReference owner signature)) ∧
    table.Holds signature (.nameAndType nameSlot descriptorSlot)

theorem HasMember.exists_namesMember (hasMember : table.HasMember slot member ofInterface) :
    ∃ nameSlot, table.NamesMember slot nameSlot := by
  cases hasMember with
  | field held hasSignature _ =>
      obtain ⟨nameSlot, descriptorSlot, heldSignature, _⟩ := hasSignature
      exact ⟨nameSlot, _, _, descriptorSlot, .inl held, heldSignature⟩
  | method held hasSignature _ =>
      obtain ⟨nameSlot, descriptorSlot, heldSignature, _⟩ := hasSignature
      exact ⟨nameSlot, _, _, descriptorSlot, .inr (.inl held), heldSignature⟩
  | interfaceMethod held hasSignature _ =>
      obtain ⟨nameSlot, descriptorSlot, heldSignature, _⟩ := hasSignature
      exact ⟨nameSlot, _, _, descriptorSlot, .inr (.inr held), heldSignature⟩

theorem HasSignature.hasText {signature descriptorSlot : UInt16} {name descriptor : String}
    (hasSignature : table.HasSignature signature name descriptor)
    (held : table.Holds signature (.nameAndType nameSlot descriptorSlot)) :
    table.HasText nameSlot name := by
  obtain ⟨otherSlot, _, otherHeld, hasName, _⟩ := hasSignature
  cases held.unique otherHeld
  exact hasName

theorem HasMember.hasText_name (hasMember : table.HasMember slot member ofInterface)
    (names : table.NamesMember slot nameSlot) : table.HasText nameSlot member.name := by
  obtain ⟨owner, signature, descriptorSlot, reference, heldSignature⟩ := names
  cases hasMember with
  | field held hasSignature _ | method held hasSignature _
  | interfaceMethod held hasSignature _ =>
      rcases reference with other | other | other <;>
        cases held.unique other
      exact hasSignature.hasText heldSignature

end ConstantTable

namespace Instruction

variable {table : ConstantTable} {position : Nat} {member : Member}
  {instructions : List Instruction} {code : List UInt8}

theorem Encodes.exists_slot {opcode : UInt8} {word : List UInt8}
    (encodes : (Instruction.fieldAccess opcode member).Encodes table position word) :
    ∃ (mnemonic : Mnemonic) (slot : UInt16) (ofInterface : Bool), mnemonic.layout = .field ∧
      word = mnemonic.opcode :: shortBytes slot ∧ table.HasMember slot member ofInterface := by
  obtain ⟨mnemonic, operands, rfl, encodes⟩ := encodes
  generalize layoutEq : mnemonic.layout = layout at encodes
  cases encodes with
  | @field slot _ ofInterface held => exact ⟨mnemonic, slot, ofInterface, layoutEq, rfl, held⟩

/-- In a code array an instruction accesses the field at a slot.  It stands where the
instructions before it end. -/
def AccessesField (table : ConstantTable) (code : List UInt8) (slot : UInt16) : Prop :=
  ∃ (mnemonic : Mnemonic) (earlier : List Instruction) (before after : List UInt8),
    mnemonic.layout = .field ∧ decodeCode table.pool before = .ok earlier ∧
      code = before ++ (mnemonic.opcode :: shortBytes slot ++ after)

theorem fieldAccess_mem_iff (decoded : decodeCode table.pool code = .ok instructions) :
    (∃ opcode, .fieldAccess opcode member ∈ instructions) ↔
      ∃ slot ofInterface, AccessesField table code slot ∧
        table.HasMember slot member ofInterface := by
  constructor
  · rintro ⟨opcode, isMember⟩
    obtain ⟨earlier, before, word, after, rfl, tiles, encodes⟩ :=
      (decodeCode_iff_tiles.mp decoded).exists_of_mem isMember
    obtain ⟨mnemonic, slot, ofInterface, isField, rfl, hasMember⟩ := encodes.exists_slot
    exact ⟨slot, ofInterface,
      ⟨mnemonic, earlier, before, after, isField, decodeCode_iff_tiles.mpr tiles, rfl⟩, hasMember⟩
  · rintro ⟨slot, ofInterface, ⟨mnemonic, earlier, before, after, isField, decodedBefore, rfl⟩,
      hasMember⟩
    have readEq : read table.pool
        (Cursor.mk before.length (mnemonic.opcode :: shortBytes slot ++ after)) =
        .ok (.fieldAccess mnemonic.opcode member,
          ⟨before.length + (mnemonic.opcode :: shortBytes slot).length, after⟩) := by
      refine read_eq_ok_iff.mpr ⟨mnemonic.opcode :: shortBytes slot, ⟨rfl, rfl⟩, mnemonic,
        shortBytes slot, rfl, ?_⟩
      rw [isField]
      exact .field hasMember
    -- All instructions are read through the place where the access stands.
    have runs := (decodeCode_iff_runs []).mp decoded
    have runsBefore := (decodeCode_iff_runs
      (mnemonic.opcode :: shortBytes slot ++ after)).mp decodedBefore
    rw [List.append_nil] at runs
    obtain ⟨rest, runsRest, rfl⟩ := runs.leadsOn (read_nil _ _) runsBefore
    obtain ⟨later, _, rfl⟩ := runsRest.leadsOn (read_nil _ _) (.step readEq (.done _))
    exact ⟨mnemonic.opcode, by simp⟩

end Instruction

/-- What holds of an item on one side exactly if it does on the other holds of some
item here exactly if it does there. -/
theorem exists_mem_iff_of_forall₂ {α β : Type} {related : α → β → Prop} {left : α → Prop}
    {right : β → Prop} (sides : ∀ first second, related first second →
      (left first ↔ right second))
    {firsts : List α} {seconds : List β} (allRelated : List.Forall₂ related firsts seconds) :
    (∃ first ∈ firsts, left first) ↔ ∃ second ∈ seconds, right second := by
  induction allRelated with
  | nil => simp
  | cons isRelated _ ih => simp only [List.exists_mem_cons_iff, sides _ _ isRelated, ih]

/-- The code in an attribute of a method accesses the field at a slot. -/
def WrittenAttribute.AccessesField (table : ConstantTable) (written : WrittenAttribute)
    (slot : UInt16) : Prop :=
  table.HasText written.nameSlot "Code" ∧
    ∃ (maxStack maxLocals : UInt16) (array : Counted 4 UInt8) (rest : List UInt8),
      written.body.val = shortBytes maxStack ++ (shortBytes maxLocals ++ blockBytes array) ++ rest ∧
        Instruction.AccessesField table array.val slot

theorem WrittenAttribute.GivesInstructions.fieldAccess_mem_iff {build : Build}
    {table : ConstantTable} {written : WrittenAttribute} {instructions : List Instruction}
    {member : Member} (gives : written.GivesInstructions build table instructions) :
    (∃ opcode, .fieldAccess opcode member ∈ instructions) ↔
      ∃ slot ofInterface, written.AccessesField table slot ∧
        table.HasMember slot member ofInterface := by
  cases gives with
  | @code maxStack maxLocals array rest _ named starts decoded =>
      rw [Instruction.fieldAccess_mem_iff decoded]
      refine exists_congr fun slot => exists_congr fun ofInterface => and_congr_left fun _ => ?_
      constructor
      · intro accesses
        exact ⟨named, maxStack, maxLocals, array, rest, starts, accesses⟩
      · rintro ⟨_, otherStack, otherLocals, otherArray, otherRest, otherStarts, accesses⟩
        have arrayEq : array.val = otherArray.val := by
          obtain ⟨after, readArray⟩ := ClassFile.readCodeArray_start_iff.mpr
            ⟨maxStack, maxLocals, array, rest, starts, rfl⟩
          obtain ⟨otherAfter, readOther⟩ := ClassFile.readCodeArray_start_iff.mpr
            ⟨otherStack, otherLocals, otherArray, otherRest, otherStarts, rfl⟩
          rw [readArray] at readOther
          exact congrArg Prod.fst (Except.ok.inj readOther)
        rwa [arrayEq]
  | skipped named other =>
      constructor
      · rintro ⟨opcode, isMember⟩
        cases isMember
      · rintro ⟨slot, ofInterface, ⟨isCode, _⟩, _⟩
        exact absurd (named.unique isCode) other

namespace WrittenClass

variable {file : WrittenClass} {build : Build} {outline : ClassOutline} {member : Member}

/-- The code of a class accesses the field at a slot. -/
def AccessesField (file : WrittenClass) (slot : UInt16) : Prop :=
  ∃ method ∈ file.methods.val, ∃ written ∈ method.attributes.val,
    written.AccessesField file.constants slot

/-- The code of a class accesses, through the class itself, a field that has its name
at a slot. -/
def AccessesOwn (file : WrittenClass) (nameSlot : UInt16) : Prop :=
  ∃ slot member ofInterface, file.AccessesField slot ∧
    file.constants.HasMember slot member ofInterface ∧
    file.constants.HasClass file.header.nameSlot member.owner ∧
    file.constants.NamesMember slot nameSlot

theorem Describes.fieldAccess_mem_iff (describes : file.Describes build outline) :
    (∃ method ∈ outline.methods, ∃ opcode, .fieldAccess opcode member ∈ method.instructions) ↔
      ∃ slot ofInterface, file.AccessesField slot ∧
        file.constants.HasMember slot member ofInterface := by
  have inMethod (source : WrittenMember) (method : MethodOutline)
      (isMethod : source.IsMethod build file.constants method) :
      (∃ written ∈ source.attributes.val, ∃ slot ofInterface,
        written.AccessesField file.constants slot ∧
          file.constants.HasMember slot member ofInterface) ↔
        ∃ opcode, .fieldAccess opcode member ∈ method.instructions := by
    obtain ⟨bodies, giveBodies, instructionsEq⟩ := isMethod.instructions
    rw [instructionsEq, exists_mem_iff_of_forall₂
      (fun written body gives => gives.fieldAccess_mem_iff.symm) giveBodies]
    simp only [List.mem_flatten]
    constructor
    · rintro ⟨body, isBody, opcode, isMember⟩
      exact ⟨opcode, body, isBody, isMember⟩
    · rintro ⟨opcode, body, isBody, isMember⟩
      exact ⟨body, isBody, opcode, isMember⟩
  rw [← exists_mem_iff_of_forall₂ inMethod describes.methods]
  constructor
  · rintro ⟨method, isMethod, written, isWritten, slot, ofInterface, accesses, hasMember⟩
    exact ⟨slot, ofInterface, ⟨method, isMethod, written, isWritten, accesses⟩, hasMember⟩
  · rintro ⟨slot, ofInterface, ⟨method, isMethod, written, isWritten, accesses⟩, hasMember⟩
    exact ⟨method, isMethod, written, isWritten, slot, ofInterface, accesses, hasMember⟩

theorem Describes.accessesOwn_iff (describes : file.Describes build outline) (name : String) :
    (∃ method ∈ outline.methods, ∃ opcode member,
        .fieldAccess opcode member ∈ method.instructions ∧
          member.owner = outline.header.name ∧ member.name = name) ↔
      ∃ nameSlot, file.AccessesOwn nameSlot ∧ file.constants.HasText nameSlot name := by
  constructor
  · rintro ⟨method, isMethod, opcode, member, isMember, ownerEq, rfl⟩
    obtain ⟨slot, ofInterface, accesses, hasMember⟩ :=
      describes.fieldAccess_mem_iff.mp ⟨method, isMethod, opcode, isMember⟩
    obtain ⟨nameSlot, names⟩ := hasMember.exists_namesMember
    have hasOwner := describes.header.name
    rw [← ownerEq] at hasOwner
    exact ⟨nameSlot, ⟨slot, member, ofInterface, accesses, hasMember, hasOwner, names⟩,
      hasMember.hasText_name names⟩
  · rintro ⟨nameSlot, ⟨slot, member, ofInterface, accesses, hasMember, hasOwner, names⟩, hasText⟩
    obtain ⟨method, isMethod, opcode, isMember⟩ :=
      describes.fieldAccess_mem_iff.mpr ⟨slot, ofInterface, accesses, hasMember⟩
    exact ⟨method, isMethod, opcode, member, isMember, hasOwner.unique describes.header.name,
      (hasMember.hasText_name names).unique hasText⟩

end WrittenClass

namespace UnusedField

variable {header : ClassHeader}

theorem emits_tracked {events : List Event} (headerFree : HeaderFree events)
    (notEnd : .classEnd ∉ events) (since : List Event) :
    check.Emits (Tracks header since) events [] (Tracks header (since ++ events)) := by
  induction events generalizing since with
  | nil =>
      rw [List.append_nil]
      exact Check.emits_nil
  | cons event events ih =>
      have emitsFirst : check.Emits (Tracks header since) [event] []
          (Tracks header (since ++ [event])) := by
        apply Check.emits_singleton
        intro context state tracks
        have outcome := tracks.react_outcome event
        rw [if_neg fun eventEq => notEnd (by simp [eventEq])] at outcome
        exact ⟨outcome.2, outcome.1, tracks.react (headerFree event (by simp))⟩
      have emitsRest := ih (fun other isMember => headerFree other (by simp [isMember]))
        (fun isMember => notEnd (by simp [isMember])) (since ++ [event])
      rw [List.append_assoc] at emitsRest
      exact emitsFirst.append emitsRest

/-- The events of a class between its header and its end. -/
def body (outline : ClassOutline) : List Event :=
  outline.fields.map .field ++ outline.methods.flatMap MethodOutline.events

theorem mem_body_iff {outline : ClassOutline} {event : Event} :
    event ∈ body outline ↔
      (∃ field ∈ outline.fields, event = .field field) ∨
      ∃ method ∈ outline.methods, event = .methodStart method.declaration ∨
        (∃ instruction ∈ method.instructions, event = .instruction instruction) ∨
        event = .methodEnd := by
  simp [body, MethodOutline.events, eq_comm]

theorem headerFree_body (outline : ClassOutline) : HeaderFree (body outline) := by
  intro event isMember
  rcases mem_body_iff.mp isMember with
    ⟨field, _, rfl⟩ | ⟨method, _, rfl | ⟨instruction, _, rfl⟩ | rfl⟩ <;> simp [Event.kind]

theorem classEnd_not_mem_body (outline : ClassOutline) : .classEnd ∉ body outline := by
  simp [mem_body_iff]

theorem replay_outline_unused (outline : ClassOutline) (className : String) (state : State) :
    (check.replay className state outline.events).reports =
      (unusedNames outline.header (body outline)).map message := by
  have emitsHeader : check.Emits (fun _ => True) [.classHeader outline.header] []
      (Tracks outline.header []) := by
    apply Check.emits_singleton
    intro context state _
    exact ⟨rfl, rfl, rfl, rfl, fun _ => Iff.rfl⟩
  have emitsBody : check.Emits (Tracks outline.header []) (body outline) []
      (Tracks outline.header (body outline)) :=
    emits_tracked (headerFree_body outline) (classEnd_not_mem_body outline) []
  have emitsEnd : check.Emits (Tracks outline.header (body outline)) [.classEnd]
      ((unusedNames outline.header (body outline)).map message) (fun _ => True) := by
    apply Check.emits_singleton
    intro context state tracks
    have outcome := tracks.react_outcome .classEnd
    exact ⟨outcome.2, outcome.1, trivial⟩
  exact ((emitsHeader.append (emitsBody.append emitsEnd)).replay className trivial).1

theorem mem_privateNames_body_iff {outline : ClassOutline} {name : String} :
    name ∈ (body outline).filterMap privateName? ↔
      ∃ field ∈ outline.fields, field.access.isPrivate = true ∧ field.name = name := by
  rw [List.mem_filterMap]
  constructor
  · rintro ⟨event, isMember, declares⟩
    rcases mem_body_iff.mp isMember with
      ⟨field, isField, rfl⟩ | ⟨method, _, rfl | ⟨instruction, _, rfl⟩ | rfl⟩
    · obtain ⟨isPrivate, nameEq⟩ := Option.ite_none_right_eq_some.mp declares
      exact ⟨field, isField, isPrivate, Option.some.inj nameEq⟩
    all_goals cases declares
  · rintro ⟨field, isField, isPrivate, rfl⟩
    exact ⟨.field field, mem_body_iff.mpr (.inl ⟨field, isField, rfl⟩), if_pos isPrivate⟩

theorem mem_accessedNames_body_iff {outline : ClassOutline} {owner name : String} :
    name ∈ (body outline).filterMap (accessedName? owner) ↔
      ∃ method ∈ outline.methods, ∃ opcode member,
        .fieldAccess opcode member ∈ method.instructions ∧
          member.owner = owner ∧ member.name = name := by
  rw [List.mem_filterMap]
  constructor
  · rintro ⟨event, isMember, accesses⟩
    rcases mem_body_iff.mp isMember with
      ⟨field, _, rfl⟩ | ⟨method, isMethod, rfl | ⟨instruction, isInstruction, rfl⟩ | rfl⟩
    · cases accesses
    · cases accesses
    · cases instruction with
      | fieldAccess opcode member =>
          obtain ⟨ownerEq, nameEq⟩ := Option.ite_none_right_eq_some.mp accesses
          exact ⟨method, isMethod, opcode, member, isInstruction, ownerEq, Option.some.inj nameEq⟩
      | _ => cases accesses
    · cases accesses
  · rintro ⟨method, isMethod, opcode, member, isInstruction, ownerEq, rfl⟩
    exact ⟨.instruction (.fieldAccess opcode member),
      mem_body_iff.mpr (.inr ⟨method, isMethod, .inr (.inl ⟨_, isInstruction, rfl⟩)⟩),
      if_pos ownerEq⟩

theorem append_append_cancel {before after name other : String}
    (textEq : before ++ name ++ after = before ++ other ++ after) : name = other := by
  rw [← String.toList_inj, String.toList_append, String.toList_append, String.toList_append,
    String.toList_append] at textEq
  exact String.toList_inj.mp (List.append_cancel_left (List.append_cancel_right textEq))

theorem message_injective : Function.Injective message := by
  intro name other messageEq
  exact append_append_cancel messageEq

/-- In terms of the class file, a private field is reported exactly if no access
through the class itself names it. -/
theorem message_mem_replay_iff {file : WrittenClass} {build : Build} {outline : ClassOutline}
    (describes : file.Describes build outline) {field : FieldDeclaration}
    (isField : field ∈ outline.fields) (isPrivate : field.access.isPrivate = true)
    (className : String) (state : State) :
    message field.name ∈ (check.replay className state outline.events).reports ↔
      ¬∃ nameSlot, file.AccessesOwn nameSlot ∧ file.constants.HasText nameSlot field.name := by
  rw [replay_outline_unused, List.mem_map_of_injective message_injective, unusedNames,
    List.mem_filter, List.mem_eraseDups, decide_eq_true_eq, mem_privateNames_body_iff,
    mem_accessedNames_body_iff, describes.accessesOwn_iff]
  exact and_iff_right ⟨field, isField, isPrivate, rfl⟩

end UnusedField

end ClassLint
