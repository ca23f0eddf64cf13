import ClassLint.Proofs.PoolEntries
import Mathlib.Data.Nat.Init

/-!
# Written constant pools

A constant pool is written as a count of slots and a list of tagged entries.  A
`ConstantTable` is such a list, and the slot of an entry is found by counting
the slots that the entries before it take.  Reading a pool succeeds exactly on
the written form of a table, and each way to look up a slot of the pool agrees
with what the table holds there.
-/

namespace ClassLint

namespace PoolEntry

/-- The number of slots that an entry takes. -/
def width (entry : PoolEntry) : Nat :=
  if entry.isWide then 2 else 1

/-- The slots that an entry takes: itself, and an unusable one if it is wide. -/
def slots (entry : PoolEntry) : List (Option PoolEntry) :=
  some entry :: List.replicate (entry.width - 1) none

/-- The number of slots that entries take together. -/
def slotCount : List PoolEntry → Nat
  | [] => 0
  | entry :: entries => entry.width + slotCount entries

@[simp]
theorem slotCount_nil : slotCount [] = 0 :=
  rfl

@[simp]
theorem slotCount_cons (entry : PoolEntry) (entries : List PoolEntry) :
    slotCount (entry :: entries) = entry.width + slotCount entries :=
  rfl

theorem width_pos (entry : PoolEntry) : 0 < entry.width := by
  unfold width
  split <;> omega

theorem width_of_wide {entry : PoolEntry} (wide : entry.isWide = true) :
    entry.width = 2 := by
  simp [width, wide]

theorem width_of_narrow {entry : PoolEntry} (narrow : entry.isWide = false) :
    entry.width = 1 := by
  simp [width, narrow]

@[simp]
theorem length_slots (entry : PoolEntry) : entry.slots.length = entry.width := by
  have positive := entry.width_pos
  simp only [slots, List.length_cons, List.length_replicate]
  omega

theorem append_slots_of_wide {entry : PoolEntry} (wide : entry.isWide = true)
    (earlier : Array (Option PoolEntry)) :
    earlier ++ entry.slots.toArray = (earlier.push (some entry)).push none := by
  rw [← Array.toList_inj]
  simp [slots, width_of_wide wide]

theorem append_slots_of_narrow {entry : PoolEntry} (narrow : entry.isWide = false)
    (earlier : Array (Option PoolEntry)) :
    earlier ++ entry.slots.toArray = earlier.push (some entry) := by
  simp [slots, width_of_narrow narrow]

/-- A slot of the table made from entries holds an entry when the entries before
it take just the slots below. -/
theorem getElem?_flatMap_slots_eq_some_iff {entries : List PoolEntry} {entry : PoolEntry}
    {index : Nat} :
    (entries.flatMap slots)[index]? = some (some entry) ↔
      ∃ earlier later, entries = earlier ++ entry :: later ∧ index = slotCount earlier := by
  induction entries generalizing index with
  | nil => simp
  | cons first entries ih =>
      have lengthEq := first.length_slots
      rw [List.flatMap_cons]
      by_cases inside : index < first.width
      · rw [List.getElem?_append_left (by omega)]
        constructor
        · intro found
          cases index with
          | zero =>
              have firstEq : first = entry := by simpa [slots] using found
              exact ⟨[], entries, by rw [firstEq]; rfl, rfl⟩
          | succ index =>
              have unusable := List.mem_of_getElem? found
              simp [slots, List.getElem?_replicate] at found
        · rintro ⟨earlier, later, split, rfl⟩
          cases earlier with
          | nil =>
              obtain ⟨rfl, rfl⟩ := List.cons.inj split
              rfl
          | cons other earlier =>
              obtain ⟨rfl, rfl⟩ := List.cons.inj split
              rw [slotCount_cons] at inside
              omega
      · rw [List.getElem?_append_right (by omega), lengthEq, ih]
        constructor
        · rintro ⟨earlier, later, rfl, indexEq⟩
          refine ⟨first :: earlier, later, rfl, ?_⟩
          rw [slotCount_cons]
          omega
        · rintro ⟨earlier, later, split, rfl⟩
          cases earlier with
          | nil =>
              have positive := first.width_pos
              rw [slotCount_nil] at inside
              omega
          | cons other earlier =>
              obtain ⟨rfl, rfl⟩ := List.cons.inj split
              refine ⟨earlier, later, rfl, ?_⟩
              rw [slotCount_cons]
              omega

end PoolEntry

namespace ConstantPool

/-- Read an entry with its tag for a slot. -/
def readEntry (slot : Nat) : Reader PoolEntry := do
  let tag ← Reader.u8
  PoolEntry.readTagged tag slot

theorem readEntry_eq_ok_iff (slot : Nat) {entry : PoolEntry} {start rest : Cursor} :
    readEntry slot start = .ok (entry, rest) ↔
      entry.Writable ∧ start.Passes entry.bytes rest := by
  simp only [readEntry, Reader.bind_eq_ok_iff, Reader.u8_eq_ok_iff,
    PoolEntry.readTagged_eq_ok_iff]
  constructor
  · rintro ⟨_, middle, passesTag, rfl, writable, passesPayload⟩
    exact ⟨writable, Cursor.passes_cons.mpr ⟨middle, passesTag, passesPayload⟩⟩
  · rintro ⟨writable, passes⟩
    obtain ⟨middle, passesTag, passesPayload⟩ := Cursor.passes_cons.mp passes
    exact ⟨entry.tag, middle, passesTag, rfl, writable, passesPayload⟩

/-- Reading one entry and going on according to its width. -/
private theorem entry_eq_ok_iff {α : Type} {slot : Nat} {next : PoolEntry → Reader α}
    {value : α} {before after : Cursor} :
    (do
      let tag ← Reader.u8
      let entry ← PoolEntry.readTagged tag slot
      next entry : Reader α) before = .ok (value, after) ↔
      ∃ (entry : PoolEntry) (middle : Cursor), entry.Writable ∧
        before.Passes entry.bytes middle ∧ next entry middle = .ok (value, after) := by
  have regrouped : (do
      let tag ← Reader.u8
      let entry ← PoolEntry.readTagged tag slot
      next entry : Reader α) = readEntry slot >>= next := by
    rw [readEntry, bind_assoc]
  simp only [regrouped, Reader.bind_eq_ok_iff, readEntry_eq_ok_iff, and_assoc]

/-- The word between two cursors holds entries that fill the remaining slots. -/
def Fills (remaining : Nat) (slots : Array (Option PoolEntry)) (before : Cursor)
    (filled : Array (Option PoolEntry)) (after : Cursor) : Prop :=
  ∃ entries : List PoolEntry, (∀ entry ∈ entries, entry.Writable) ∧
    PoolEntry.slotCount entries = remaining ∧
    before.Passes (entries.flatMap PoolEntry.bytes) after ∧
    filled = slots ++ (entries.flatMap PoolEntry.slots).toArray

theorem fills_zero_iff {slots filled : Array (Option PoolEntry)} {before after : Cursor} :
    Fills 0 slots before filled after ↔ filled = slots ∧ after = before := by
  constructor
  · rintro ⟨entries, _, countEq, passes, rfl⟩
    cases entries with
    | nil => exact ⟨by simp, by simpa using passes⟩
    | cons entry entries =>
        have positive := entry.width_pos
        rw [PoolEntry.slotCount_cons] at countEq
        omega
  · rintro ⟨rfl, rfl⟩
    exact ⟨[], by simp, rfl, by simp, by simp⟩

theorem fills_succ_iff {remaining : Nat} {slots filled : Array (Option PoolEntry)}
    {before after : Cursor} :
    Fills (remaining + 1) slots before filled after ↔
      ∃ (entry : PoolEntry) (middle : Cursor), entry.Writable ∧
        before.Passes entry.bytes middle ∧
        ∃ later, entry.width + later = remaining + 1 ∧
          Fills later (slots ++ entry.slots.toArray) middle filled after := by
  constructor
  · rintro ⟨entries, writable, countEq, passes, rfl⟩
    cases entries with
    | nil => simp at countEq
    | cons entry entries =>
        rw [List.flatMap_cons, Cursor.passes_append] at passes
        obtain ⟨middle, passesEntry, passes⟩ := passes
        refine ⟨entry, middle, writable entry (by simp), passesEntry,
          PoolEntry.slotCount entries, by simpa using countEq, entries, ?_, rfl, passes,
          by simp⟩
        intro other member
        exact writable other (by simp [member])
  · rintro ⟨entry, middle, entryWritable, passesEntry, _, countEq, entries, writable, rfl,
      passes, rfl⟩
    refine ⟨entry :: entries, by simpa using ⟨entryWritable, writable⟩,
      by simpa using countEq, ?_, by simp⟩
    rw [List.flatMap_cons, Cursor.passes_append]
    exact ⟨middle, passesEntry, passes⟩

/-- Reading slots succeeds exactly on entries that fill them. -/
theorem readSlots_eq_ok_iff {remaining slot : Nat} {slots filled : Array (Option PoolEntry)}
    {before after : Cursor} :
    readSlots remaining slot slots before = .ok (filled, after) ↔
      Fills remaining slots before filled after := by
  induction remaining using Nat.twoStepInduction generalizing slot slots before with
  | zero => rw [readSlots, Reader.pure_eq_ok_iff, fills_zero_iff]
  | one =>
      rw [readSlots_one, entry_eq_ok_iff, fills_succ_iff]
      refine exists_congr fun entry => exists_congr fun middle => and_congr_right fun _ =>
        and_congr_right fun _ => ?_
      -- Only a narrow entry fits into the last slot.
      cases wide : entry.isWide with
      | true =>
          rw [if_pos rfl, PoolEntry.width_of_wide wide]
          constructor
          · intro read
            exact (Reader.fail_ne_ok read).elim
          · rintro ⟨later, countEq, _⟩
            omega
      | false =>
          rw [if_neg Bool.false_ne_true, Reader.pure_eq_ok_iff, ← fills_zero_iff,
            PoolEntry.width_of_narrow wide, PoolEntry.append_slots_of_narrow wide]
          constructor
          · intro fills
            exact ⟨0, rfl, fills⟩
          · rintro ⟨later, countEq, fills⟩
            obtain rfl : later = 0 := by omega
            exact fills
  | more remaining wideIH narrowIH =>
      rw [readSlots_add_two, entry_eq_ok_iff, fills_succ_iff]
      refine exists_congr fun entry => exists_congr fun middle => and_congr_right fun _ =>
        and_congr_right fun _ => ?_
      cases wide : entry.isWide with
      | true =>
          rw [if_pos rfl, wideIH, PoolEntry.width_of_wide wide,
            PoolEntry.append_slots_of_wide wide]
          constructor
          · intro fills
            exact ⟨remaining, by omega, fills⟩
          · rintro ⟨later, countEq, fills⟩
            obtain rfl : later = remaining := by omega
            exact fills
      | false =>
          rw [if_neg Bool.false_ne_true, narrowIH, PoolEntry.width_of_narrow wide,
            PoolEntry.append_slots_of_narrow wide]
          constructor
          · intro fills
            exact ⟨remaining + 1, by omega, fills⟩
          · rintro ⟨later, countEq, fills⟩
            obtain rfl : later = remaining + 1 := by omega
            exact fills

theorem entry_eq_ok_iff_slots {pool : ConstantPool} {index : UInt16} {entry : PoolEntry} :
    pool.entry index = .ok entry ↔ pool.slots[index.toNat]? = some (some entry) := by
  unfold ConstantPool.entry
  split
  next found => simp [found]
  next unusable =>
    constructor
    · simp
    · intro found
      exact (unusable entry found).elim

end ConstantPool

/-- A constant pool as it is written.  Slot zero and the slots of the entries
must fit into the count. -/
structure ConstantTable where
  entries : List PoolEntry
  writable : ∀ entry ∈ entries, entry.Writable
  slotCount_lt : 1 + PoolEntry.slotCount entries < 256 ^ 2

namespace ConstantTable

/-- The written form of a table. -/
def bytes (table : ConstantTable) : List UInt8 :=
  bigEndianBytes 2 (1 + PoolEntry.slotCount table.entries) ++
    table.entries.flatMap PoolEntry.bytes

/-- The pool that a table is read as. -/
def pool (table : ConstantTable) : ConstantPool :=
  ⟨#[none] ++ (table.entries.flatMap PoolEntry.slots).toArray⟩

/-- The table holds an entry at a slot: the entries before it take the slots from
one up to there. -/
def Holds (table : ConstantTable) (slot : UInt16) (entry : PoolEntry) : Prop :=
  ∃ earlier later, table.entries = earlier ++ entry :: later ∧
    slot.toNat = 1 + PoolEntry.slotCount earlier

def HasText (table : ConstantTable) (slot : UInt16) (text : String) : Prop :=
  ∃ bytes, table.Holds slot (.utf8 bytes) ∧ text = Utf8.decodeLossy bytes

def HasClass (table : ConstantTable) (slot : UInt16) (name : String) : Prop :=
  ∃ nameSlot, table.Holds slot (.classReference nameSlot) ∧ table.HasText nameSlot name

/-- The table holds a loadable constant at a slot. -/
inductive HasConstant (table : ConstantTable) (slot : UInt16) : Constant → Prop
  | integer {value : Int32} (held : table.Holds slot (.integer value)) :
      HasConstant table slot (.integer value)
  | float {bits : UInt32} (held : table.Holds slot (.float bits)) :
      HasConstant table slot (.float bits)
  | long {value : Int64} (held : table.Holds slot (.long value)) :
      HasConstant table slot (.long value)
  | double {bits : UInt64} (held : table.Holds slot (.double bits)) :
      HasConstant table slot (.double bits)
  | string {textSlot : UInt16} {text : String} (held : table.Holds slot (.string textSlot))
      (hasText : table.HasText textSlot text) :
      HasConstant table slot (.other ("\"" ++ text ++ "\""))
  | classReference {nameSlot : UInt16} {name : String}
      (held : table.Holds slot (.classReference nameSlot))
      (hasText : table.HasText nameSlot name) :
      HasConstant table slot (.other (name ++ ".class"))
  | methodType {descriptorSlot : UInt16} {descriptor : String}
      (held : table.Holds slot (.methodType descriptorSlot))
      (hasText : table.HasText descriptorSlot descriptor) :
      HasConstant table slot (.other descriptor)
  | methodHandle {kind : UInt8} {reference : UInt16}
      (held : table.Holds slot (.methodHandle kind reference)) :
      HasConstant table slot (.other "method handle")
  | dynamicConstant {bootstrap signature : UInt16}
      (held : table.Holds slot (.dynamicConstant bootstrap signature)) :
      HasConstant table slot (.other "dynamic constant")
  | dynamicCall {bootstrap signature : UInt16}
      (held : table.Holds slot (.dynamicCall bootstrap signature)) :
      HasConstant table slot (.other "dynamic constant")

/-- The table holds a name and a descriptor at a slot. -/
def HasSignature (table : ConstantTable) (slot : UInt16) (name descriptor : String) : Prop :=
  ∃ nameSlot descriptorSlot, table.Holds slot (.nameAndType nameSlot descriptorSlot) ∧
    table.HasText nameSlot name ∧ table.HasText descriptorSlot descriptor

/-- The table holds a member at a slot, and whether it is a method of an
interface.  All three kinds of member references count. -/
inductive HasMember (table : ConstantTable) (slot : UInt16) (member : Member) : Bool → Prop
  | field {owner signature : UInt16} (held : table.Holds slot (.fieldReference owner signature))
      (hasSignature : table.HasSignature signature member.name member.descriptor)
      (hasOwner : table.HasClass owner member.owner) : HasMember table slot member false
  | method {owner signature : UInt16}
      (held : table.Holds slot (.methodReference owner signature))
      (hasSignature : table.HasSignature signature member.name member.descriptor)
      (hasOwner : table.HasClass owner member.owner) : HasMember table slot member false
  | interfaceMethod {owner signature : UInt16}
      (held : table.Holds slot (.interfaceMethodReference owner signature))
      (hasSignature : table.HasSignature signature member.name member.descriptor)
      (hasOwner : table.HasClass owner member.owner) : HasMember table slot member true

theorem entry_pool_eq_ok_iff {table : ConstantTable} {slot : UInt16} {entry : PoolEntry} :
    table.pool.entry slot = .ok entry ↔ table.Holds slot entry := by
  have slotsEq : table.pool.slots[slot.toNat]? =
      (none :: table.entries.flatMap PoolEntry.slots)[slot.toNat]? := by
    simp [pool]
  rw [ConstantPool.entry_eq_ok_iff_slots, slotsEq, Holds]
  cases slotEq : slot.toNat with
  | zero =>
      constructor
      · simp
      · rintro ⟨earlier, later, _, slotEq⟩
        omega
  | succ index =>
      rw [List.getElem?_cons_succ, PoolEntry.getElem?_flatMap_slots_eq_some_iff]
      refine exists_congr fun earlier => exists_congr fun later => and_congr_right fun _ => ?_
      omega

theorem utf8_pool_eq_ok_iff {table : ConstantTable} {slot : UInt16} {text : String} :
    table.pool.utf8 slot = .ok text ↔ table.HasText slot text := by
  simp only [ConstantPool.utf8, except_bind_eq_ok_iff, entry_pool_eq_ok_iff, HasText]
  constructor
  · rintro ⟨entry, held, found⟩
    split at found
    next bytes => exact ⟨bytes, held, (Except.ok.inj found).symm⟩
    next => cases found
  · rintro ⟨bytes, held, rfl⟩
    exact ⟨.utf8 bytes, held, rfl⟩

theorem className_pool_eq_ok_iff {table : ConstantTable} {slot : UInt16} {name : String} :
    table.pool.className slot = .ok name ↔ table.HasClass slot name := by
  simp only [ConstantPool.className, except_bind_eq_ok_iff, entry_pool_eq_ok_iff, HasClass]
  constructor
  · rintro ⟨entry, held, found⟩
    split at found
    next nameSlot => exact ⟨nameSlot, held, utf8_pool_eq_ok_iff.mp found⟩
    next => cases found
  · rintro ⟨nameSlot, held, hasText⟩
    exact ⟨.classReference nameSlot, held, utf8_pool_eq_ok_iff.mpr hasText⟩

private theorem text_constant_eq_ok_iff {table : ConstantTable} {slot : UInt16}
    {make : String → Constant} {constant : Constant} :
    (do return make (← table.pool.utf8 slot)) = Except.ok (ε := DecodeError) constant ↔
      ∃ text, table.HasText slot text ∧ constant = make text := by
  simp only [except_bind_eq_ok_iff, utf8_pool_eq_ok_iff]
  refine exists_congr fun text => and_congr_right fun _ => ?_
  exact ⟨fun found => (Except.ok.inj found).symm, fun constantEq => by rw [constantEq]; rfl⟩

theorem constant_pool_eq_ok_iff {table : ConstantTable} {slot : UInt16}
    {constant : Constant} :
    table.pool.constant slot = .ok constant ↔ table.HasConstant slot constant := by
  simp only [ConstantPool.constant, except_bind_eq_ok_iff, entry_pool_eq_ok_iff]
  constructor
  · rintro ⟨entry, held, found⟩
    split at found
    next => cases found; exact .integer held
    next => cases found; exact .float held
    next => cases found; exact .long held
    next => cases found; exact .double held
    next =>
      obtain ⟨text, hasText, rfl⟩ := text_constant_eq_ok_iff.mp found
      exact .string held hasText
    next =>
      obtain ⟨name, hasText, rfl⟩ := text_constant_eq_ok_iff.mp found
      exact .classReference held hasText
    next =>
      obtain ⟨descriptor, hasText, rfl⟩ := text_constant_eq_ok_iff.mp found
      exact .methodType held hasText
    next => cases found; exact .methodHandle held
    next => cases found; exact .dynamicConstant held
    next => cases found; exact .dynamicCall held
    next => cases found
  · intro hasConstant
    cases hasConstant with
    | integer held | float held | long held | double held | methodHandle held
    | dynamicConstant held | dynamicCall held => exact ⟨_, held, rfl⟩
    | string held hasText | classReference held hasText | methodType held hasText =>
        exact ⟨_, held, text_constant_eq_ok_iff.mpr ⟨_, hasText, rfl⟩⟩

theorem nameAndType_pool_eq_ok_iff {table : ConstantTable} {slot : UInt16}
    {name descriptor : String} :
    table.pool.nameAndType slot = .ok (name, descriptor) ↔
      table.HasSignature slot name descriptor := by
  simp only [ConstantPool.nameAndType, except_bind_eq_ok_iff, entry_pool_eq_ok_iff, HasSignature]
  constructor
  · rintro ⟨entry, held, found⟩
    split at found
    next nameSlot descriptorSlot =>
      simp only [except_bind_eq_ok_iff, utf8_pool_eq_ok_iff] at found
      obtain ⟨_, hasName, _, hasDescriptor, pairEq⟩ := found
      cases pairEq
      exact ⟨nameSlot, descriptorSlot, held, hasName, hasDescriptor⟩
    next => cases found
  · rintro ⟨nameSlot, descriptorSlot, held, hasName, hasDescriptor⟩
    refine ⟨.nameAndType nameSlot descriptorSlot, held, ?_⟩
    simp only [except_bind_eq_ok_iff, utf8_pool_eq_ok_iff]
    exact ⟨name, hasName, descriptor, hasDescriptor, rfl⟩

/-- A member is put together from its signature and its owner. -/
private theorem resolve_eq_ok_iff {table : ConstantTable} {owner signature : UInt16}
    {found : Bool} {member : Member} {ofInterface : Bool} :
    (do
      let (name, descriptor) ← table.pool.nameAndType signature
      let owner ← table.pool.className owner
      return (⟨owner, name, descriptor⟩, found)) =
        Except.ok (ε := DecodeError) (member, ofInterface) ↔
      table.HasSignature signature member.name member.descriptor ∧
        table.HasClass owner member.owner ∧ found = ofInterface := by
  simp only [except_bind_eq_ok_iff, Prod.exists, nameAndType_pool_eq_ok_iff,
    className_pool_eq_ok_iff]
  constructor
  · rintro ⟨name, descriptor, hasSignature, ownerName, hasOwner, pairEq⟩
    cases pairEq
    exact ⟨hasSignature, hasOwner, rfl⟩
  · rintro ⟨hasSignature, hasOwner, rfl⟩
    exact ⟨member.name, member.descriptor, hasSignature, member.owner, hasOwner, rfl⟩

theorem member_pool_eq_ok_iff {table : ConstantTable} {slot : UInt16} {member : Member}
    {ofInterface : Bool} :
    table.pool.member slot = .ok (member, ofInterface) ↔
      table.HasMember slot member ofInterface := by
  rw [ConstantPool.member, except_bind_eq_ok_iff]
  simp only [entry_pool_eq_ok_iff]
  constructor
  · rintro ⟨entry, held, found⟩
    split at found
    next =>
      obtain ⟨hasSignature, hasOwner, rfl⟩ := resolve_eq_ok_iff.mp found
      exact .field held hasSignature hasOwner
    next =>
      obtain ⟨hasSignature, hasOwner, rfl⟩ := resolve_eq_ok_iff.mp found
      exact .method held hasSignature hasOwner
    next =>
      obtain ⟨hasSignature, hasOwner, rfl⟩ := resolve_eq_ok_iff.mp found
      exact .interfaceMethod held hasSignature hasOwner
    next => cases found
  · intro hasMember
    cases hasMember with
    | field held hasSignature hasOwner | method held hasSignature hasOwner
    | interfaceMethod held hasSignature hasOwner =>
        exact ⟨_, held, resolve_eq_ok_iff.mpr ⟨hasSignature, hasOwner, rfl⟩⟩

end ConstantTable

/-- A pool is read off the written form of a table.  A count of zero is read as
an empty pool as well. -/
theorem ConstantPool.read_eq_ok_iff {pool : ConstantPool} {before after : Cursor} :
    ConstantPool.read before = .ok (pool, after) ↔
      (∃ table : ConstantTable, before.Passes table.bytes after ∧ pool = table.pool) ∨
        (before.Passes (bigEndianBytes 2 0) after ∧ pool = ⟨#[none]⟩) := by
  simp only [ConstantPool.read, Reader.bind_eq_ok_iff, Reader.pure_eq_ok_iff,
    Reader.u16_eq_ok_iff, readSlots_eq_ok_iff]
  constructor
  · rintro ⟨count, middle, passesCount, slots, _, fills, rfl, rfl⟩
    cases countEq : count.toNat with
    | zero =>
        rw [countEq] at passesCount fills
        obtain ⟨rfl, rfl⟩ := fills_zero_iff.mp fills
        exact .inr ⟨passesCount, rfl⟩
    | succ remaining =>
        rw [countEq] at passesCount fills
        obtain ⟨entries, writable, filledEq, passes, rfl⟩ := fills
        have countLt := count.toNat_lt
        have totalEq : remaining + 1 = 1 + PoolEntry.slotCount entries := by omega
        rw [totalEq] at passesCount
        exact .inl ⟨⟨entries, writable, by omega⟩,
          Cursor.passes_append.mpr ⟨middle, passesCount, passes⟩, rfl⟩
  · rintro (⟨table, passes, rfl⟩ | ⟨passes, rfl⟩)
    · have countEq : (UInt16.ofNat (1 + PoolEntry.slotCount table.entries)).toNat =
          1 + PoolEntry.slotCount table.entries :=
        UInt16.toNat_ofNat_of_lt' table.slotCount_lt
      rw [ConstantTable.bytes, Cursor.passes_append] at passes
      obtain ⟨middle, passesCount, passes⟩ := passes
      refine ⟨UInt16.ofNat (1 + PoolEntry.slotCount table.entries), middle, ?_,
        table.pool.slots, after, ⟨table.entries, table.writable, ?_, passes, rfl⟩, rfl, rfl⟩
      · rwa [countEq]
      · omega
    · exact ⟨0, after, passes, #[none], after, fills_zero_iff.mpr ⟨rfl, rfl⟩, rfl, rfl⟩

end ClassLint
