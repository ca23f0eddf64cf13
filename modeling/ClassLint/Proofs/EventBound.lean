import ClassLint.Proofs.DecodedClasses
import ClassLint.Proofs.SlotFilling
import Mathlib.Algebra.Ring.Nat

/-!
# Decoding does not amplify

The counts and lengths in a class file may be as large as they like, but whatever a
reader makes of them is paid for with bytes of the file.  A reader has a cost for
each value that it gives, and costs add up along a sequence of readers.  Events cost
less than the bytes that they are read from, so a class file has more bytes than
events, and the loops over code arrays and constant pools come to an end.
-/

namespace ClassLint

namespace Reader

variable {α β : Type}

/-- A reader takes at least as many bytes as the value that it gives costs. -/
def Pays (reader : Reader α) (cost : α → Nat) : Prop :=
  ∀ before value after, reader before = .ok (value, after) →
    after.rest.length + cost value ≤ before.rest.length

theorem Pays.mono {reader : Reader α} {cost less : α → Nat} (pays : reader.Pays cost)
    (below : ∀ value, less value ≤ cost value) : reader.Pays less := by
  intro before value after read
  have paid := pays before value after read
  have := below value
  omega

theorem pays_pure {value : α} {cost : α → Nat} (free : cost value = 0) :
    (pure value : Reader α).Pays cost := by
  intro before found after read
  obtain ⟨rfl, rfl⟩ := pure_eq_ok_iff.mp read
  omega

theorem pays_bytes (count : Nat) : Pays (bytes count) List.length := by
  intro before word after read
  obtain ⟨_, passes⟩ := bytes_eq_ok_iff.mp read
  rw [passes.rest, List.length_append]
  omega

/-- What is left of the cost after the first reader is paid by the second. -/
theorem Pays.bind {reader : Reader α} {next : α → Reader β} {first : α → Nat} {total : β → Nat}
    (pays : reader.Pays first)
    (nextPays : ∀ found, (next found).Pays fun value => total value - first found) :
    (reader >>= next).Pays total := by
  intro before value after read
  obtain ⟨found, middle, readFirst, readNext⟩ := bind_eq_ok_iff.mp read
  have paidFirst := pays before found middle readFirst
  have paidNext := nextPays found middle value after readNext
  dsimp only at paidNext
  omega

/-- A result that is already there takes no bytes. -/
theorem pays_lift_bind {result : Except DecodeError α} {next : α → Reader β} {total : β → Nat}
    (nextPays : ∀ found, result = .ok found → (next found).Pays total) :
    Pays (lift result >>= next) total := by
  intro before value after read
  obtain ⟨found, middle, readFirst, readNext⟩ := bind_eq_ok_iff.mp read
  obtain ⟨resultEq, rfl⟩ := lift_eq_ok_iff.mp readFirst
  exact nextPays found resultEq middle value after readNext

theorem pays_u16 : Pays u16 fun _ => 2 := by
  intro before value after read
  rw [(u16_eq_ok_iff.mp read).rest, List.length_append, length_bigEndianBytes, Nat.add_comm]

theorem pays_u32 : Pays u32 fun _ => 4 := by
  intro before value after read
  rw [(u32_eq_ok_iff.mp read).rest, List.length_append, length_bigEndianBytes, Nat.add_comm]

theorem Pays.repeatedFrom {reader : Reader α} {cost : α → Nat} (pays : reader.Pays cost)
    (count : Nat) (found : List α) :
    Pays (repeatedFrom reader count found) fun values =>
      (values.map cost).sum - (found.map cost).sum := by
  induction count generalizing found with
  | zero =>
      apply pays_pure
      rw [List.map_reverse, List.sum_reverse]
      omega
  | succ count ih =>
      apply pays.bind
      intro value
      apply (ih (value :: found)).mono
      intro values
      rw [List.map_cons, List.sum_cons]
      omega

theorem Pays.repeated {reader : Reader α} {cost : α → Nat} (pays : reader.Pays cost)
    (count : Nat) : Pays (repeated count reader) fun values => (values.map cost).sum :=
  pays.repeatedFrom count []

end Reader

/-! ## Code arrays -/

theorem Instruction.Runs.length_le {pool : ConstantPool} {before after : Cursor}
    {instructions : List Instruction} (runs : Runs pool before instructions after) :
    instructions.length + after.rest.length ≤ before.rest.length := by
  induction runs with
  | done => simp
  | step readEq _ ih =>
      have shorter := length_rest_lt_of_read_eq_ok readEq
      rw [List.length_cons]
      omega

theorem length_le_of_decodeCode {pool : ConstantPool} {code : List UInt8}
    {instructions : List Instruction} (decoded : decodeCode pool code = .ok instructions) :
    instructions.length ≤ code.length := by
  have runs := (decodeCode_iff_runs []).mp decoded
  have bound := runs.length_le
  rwa [List.append_nil] at bound

/-! ## Fields, methods and headers -/

namespace ClassFile

open Reader

variable {α : Type} {pool : ConstantPool}

/-- If the body of an attribute pays for what it adds to a size, then the attributes
together pay for what they add. -/
theorem pays_readAttributesFrom {readBody : String → α → Reader α} {size : α → Nat}
    (bodyPays : ∀ name collected,
      (readBody name collected).Pays fun next => size next - size collected)
    (count : Nat) (collected : α) :
    Pays (readAttributesFrom pool readBody count collected) fun result =>
      size result - size collected := by
  induction count generalizing collected with
  | zero => exact pays_pure (Nat.sub_self _)
  | succ count ih =>
      apply pays_u16.bind
      intro nameSlot
      apply pays_lift_bind
      intro name _
      apply pays_u32.bind
      intro length
      apply (pays_bytes length.toNat).bind
      intro body
      rw [embed_eq_lift]
      apply pays_lift_bind
      intro next readEq
      obtain ⟨after, readEq⟩ := within_eq_ok_iff.mp readEq
      have paid := bodyPays name collected _ _ _ readEq
      dsimp only [Cursor.start] at paid
      apply (ih next).mono
      intro result
      omega

theorem pays_readAttributes {readBody : String → α → Reader α} {size : α → Nat}
    (bodyPays : ∀ name collected,
      (readBody name collected).Pays fun next => size next - size collected)
    (first : α) :
    Pays (readAttributes pool readBody first) fun result => 2 + (size result - size first) := by
  apply pays_u16.bind
  intro count
  apply (pays_readAttributesFrom bodyPays count.toNat first).mono
  intro result
  omega

theorem pays_readCodeArray : Pays readCodeArray List.length := by
  apply pays_u16.bind
  intro maxStack
  apply pays_u16.bind
  intro maxLocals
  apply pays_u32.bind
  intro length
  apply (pays_bytes length.toNat).mono
  intro array
  omega

theorem pays_readFieldAttribute (name : String) (value : Option Constant) :
    Pays (readFieldAttribute pool name value) fun _ => 0 := by
  unfold readFieldAttribute
  split
  · apply pays_u16.bind
    intro slot
    apply pays_lift_bind
    intro constant _
    exact pays_pure rfl
  · exact pays_pure rfl

/-- A code array lies in its attribute, and has a byte for each instruction. -/
theorem pays_readMethodAttribute (name : String) (collected : List Instruction) :
    Pays (readMethodAttribute (decodeCode pool) name collected) fun next =>
      next.length - collected.length := by
  unfold readMethodAttribute
  split
  · apply pays_readCodeArray.bind
    intro code
    rw [embed_eq_lift]
    apply pays_lift_bind
    intro instructions decoded
    apply pays_pure
    have inCode := length_le_of_decodeCode decoded
    rw [List.length_append]
    omega
  · exact pays_pure (Nat.sub_self _)

/-- Fields and methods start with three words. -/
theorem pays_member {next : UInt16 → String → String → Reader α} {total : α → Nat}
    (pays : ∀ access name descriptor,
      (next access name descriptor).Pays fun value => total value - 6) :
    (do
      let access ← Reader.u16
      let nameSlot ← Reader.u16
      let name ← Reader.lift (pool.utf8 nameSlot)
      let descriptorSlot ← Reader.u16
      let descriptor ← Reader.lift (pool.utf8 descriptorSlot)
      next access name descriptor : Reader α).Pays total := by
  apply pays_u16.bind
  intro access
  apply pays_u16.bind
  intro nameSlot
  apply pays_lift_bind
  intro name _
  apply pays_u16.bind
  intro descriptorSlot
  apply pays_lift_bind
  intro descriptor _
  apply (pays access name descriptor).mono
  intro value
  omega

theorem pays_readField : Pays (readField pool) fun _ => 8 := by
  apply pays_member
  intro access name descriptor
  have pays : Pays (readAttributes pool (readFieldAttribute pool) none) fun _ => 2 + (0 - 0) :=
    pays_readAttributes pays_readFieldAttribute none
  apply pays.bind
  intro constantValue
  exact pays_pure rfl

theorem pays_readMethod : Pays (readMethod decodeCode pool) fun method => 8 + method.2.length := by
  apply pays_member
  intro access name descriptor
  apply (pays_readAttributes pays_readMethodAttribute []).bind
  intro instructions
  apply pays_pure
  dsimp only [List.length_nil]
  omega

theorem pays_readClassName : Pays (readClassName pool) fun _ => 2 := by
  apply pays_u16.bind
  intro slot before name after read
  obtain ⟨_, rfl⟩ := lift_eq_ok_iff.mp read
  exact Nat.le_refl _

theorem pays_readSuperName : Pays (readSuperName pool) fun _ => 2 := by
  apply pays_u16.bind
  intro slot
  split
  · exact pays_pure rfl
  · apply pays_lift_bind
    intro name _
    exact pays_pure rfl

theorem pays_readHeader : Pays (readHeader pool) fun _ => 8 := by
  apply pays_u16.bind
  intro access
  apply pays_readClassName.bind
  intro name
  apply pays_readSuperName.bind
  intro superName
  apply pays_u16.bind
  intro count
  apply (pays_readClassName.repeated count.toNat).bind
  intro interfaces
  apply pays_pure
  omega

end ClassFile

/-! ## Constant pools -/

theorem PoolEntry.three_le_length_bytes (entry : PoolEntry) : 3 ≤ entry.bytes.length := by
  cases entry <;> simp [bytes, payload]

namespace ConstantTable

variable {table : ConstantTable}

theorem three_mul_length_le (entries : List PoolEntry) :
    3 * entries.length ≤ (entries.flatMap PoolEntry.bytes).length := by
  induction entries with
  | nil => simp
  | cons entry entries ih =>
      have atLeast := entry.three_le_length_bytes
      rw [List.flatMap_cons, List.length_append, List.length_cons]
      omega

/-- The name of a class takes two entries, the class and its text. -/
theorem HasClass.eight_le_length_bytes {slot : UInt16} {name : String}
    (hasClass : table.HasClass slot name) : 8 ≤ table.bytes.length := by
  obtain ⟨nameSlot, ⟨earlier, later, entriesEq, _⟩, text, ⟨before, after, sameEntries, _⟩, _⟩ :=
    hasClass
  have atLeast := three_mul_length_le table.entries
  have twoEntries : 2 ≤ table.entries.length := by
    have classMem : PoolEntry.classReference nameSlot ∈ table.entries := by simp [entriesEq]
    have textMem : PoolEntry.utf8 text ∈ table.entries := by simp [sameEntries]
    match table.entries, classMem, textMem with
    | [entry], isClass, isText =>
        rw [List.mem_singleton] at isClass isText
        cases isClass.trans isText.symm
    | _ :: _ :: _, _, _ => simp
  rw [bytes, List.length_append, length_bigEndianBytes]
  omega

end ConstantTable

namespace ClassFile

open Reader

variable {α : Type}

theorem exists_className_of_readHeader {pool : ConstantPool} {header : ClassHeader}
    {before after : Cursor} (read : readHeader pool before = .ok (header, after)) :
    ∃ slot, pool.className slot = .ok header.name := by
  simp only [readHeader, readClassName, Reader.bind_eq_ok_iff, Reader.lift_eq_ok_iff,
    Reader.pure_eq_ok_iff] at read
  obtain ⟨_, _, _, name, _, ⟨slot, _, _, found, _⟩, _, _, _, _, _, _, _, _, _, rfl, _⟩ := read
  exact ⟨slot, found⟩

/-- A header needs a pool that has the name of the class, so the two together take
more than the least pool and the least header. -/
theorem pays_pool_header {next : ConstantPool → ClassHeader → Reader α} {total : α → Nat}
    (pays : ∀ pool header, (next pool header).Pays fun value => total value - 16) :
    (do
      let pool ← ConstantPool.read
      let header ← readHeader pool
      next pool header : Reader α).Pays total := by
  intro before value after read
  obtain ⟨pool, afterPool, readPool, read⟩ := bind_eq_ok_iff.mp read
  obtain ⟨header, afterHeader, readHeader, read⟩ := bind_eq_ok_iff.mp read
  have paidHeader := pays_readHeader _ _ _ readHeader
  have paidRest := pays pool header _ _ _ read
  have paidPool : afterPool.rest.length + 8 ≤ before.rest.length := by
    rcases ConstantPool.read_eq_ok_iff.mp readPool with ⟨table, passes, rfl⟩ | ⟨_, rfl⟩
    · obtain ⟨slot, found⟩ := exists_className_of_readHeader readHeader
      have atLeast := (ConstantTable.className_pool_eq_ok_iff.mp found).eight_le_length_bytes
      rw [passes.rest, List.length_append]
      omega
    · exact (readHeader_empty_ne_ok readHeader).elim
  dsimp only at paidHeader paidRest
  omega

theorem pays_skipAttribute : Pays skipAttribute fun _ => 6 := by
  apply pays_u16.bind
  intro nameSlot
  apply pays_u32.bind
  intro length
  apply (pays_bytes length.toNat).bind
  intro body
  apply pays_pure
  omega

theorem length_flatMap_methodEvents_le (methods : List (MethodDeclaration × List Instruction)) :
    (methods.flatMap methodEvents).length ≤
      (methods.map fun method => 8 + method.2.length).sum := by
  induction methods with
  | nil => simp
  | cons method methods ih =>
      rw [List.flatMap_cons, List.length_append, List.map_cons, List.sum_cons]
      have length : (methodEvents method).length = method.2.length + 2 := by simp [methodEvents]
      omega

theorem pays_readClass : Pays (readClass decodeCode) fun events => events.length + 28 := by
  apply pays_u32.bind
  intro found
  split
  · intro before events after read
    exact (fail_ne_ok read).elim
  · apply pays_u16.bind
    intro minor
    apply pays_u16.bind
    intro major
    apply pays_pool_header
    intro pool header
    apply pays_u16.bind
    intro fieldCount
    apply (pays_readField.repeated fieldCount.toNat).bind
    intro fields
    apply pays_u16.bind
    intro methodCount
    apply (pays_readMethod.repeated methodCount.toNat).bind
    intro methods
    apply pays_u16.bind
    intro attributeCount
    apply (pays_skipAttribute.repeated attributeCount.toNat).bind
    intro skipped
    apply pays_pure
    have fieldsEq : (fields.map fun _ => 8).sum = fields.length * 8 := by simp
    have methodsLe := length_flatMap_methodEvents_le methods
    simp only [List.length_cons, List.length_append, List.length_map, List.length_nil]
    omega

end ClassFile

/-! ## Loops -/

/-- One round of the loop over a code array. -/
def Instruction.Next (pool : ConstantPool) (after before : Cursor) : Prop :=
  ∃ instruction, read pool before = .ok (instruction, after)

theorem Instruction.wellFounded_next (pool : ConstantPool) : WellFounded (Next pool) := by
  apply Subrelation.wf _ (measure fun place : Cursor => place.rest.length).wf
  rintro after before ⟨instruction, readEq⟩
  exact length_rest_lt_of_read_eq_ok readEq

namespace ConstantPool

variable {count : Nat}

/-- One round of the loop over the slots of a pool. -/
def Filling.Next (count : Nat) (after before : Filling) : Prop :=
  before.index < count ∧ ∃ entry, before.round count = .ok (entry, after)

theorem Filling.wellFounded_next (count : Nat) : WellFounded (Next count) := by
  apply Subrelation.wf _ (measure fun place : Filling => place.cursor.rest.length).wf
  rintro after before ⟨_, entry, roundEq⟩
  obtain ⟨_, passes, _⟩ := round_eq_ok_iff.mp roundEq
  have atLeast := entry.three_le_length_bytes
  change after.cursor.rest.length < before.cursor.rest.length
  rw [passes.rest, List.length_append]
  omega

theorem Rounds.length_le {before after : Filling} {entries : List PoolEntry}
    (rounds : Rounds count before entries after) :
    3 * entries.length + after.cursor.rest.length ≤ before.cursor.rest.length := by
  induction rounds with
  | done => simp
  | @step before middle after entry entries _ roundEq _ ih =>
      obtain ⟨_, passes, _⟩ := Filling.round_eq_ok_iff.mp roundEq
      have atLeast := entry.three_le_length_bytes
      rw [passes.rest, List.length_append, List.length_cons]
      omega

/-- A pool with a count that can be read is read in rounds until the count is reached
or a round fails. -/
theorem read_outcome {file start : Cursor} {declared : UInt16}
    (readCount : Reader.u16 file = .ok (declared, start)) :
    ∃ entries last, Rounds declared.toNat (.start start) entries last ∧
      (declared.toNat ≤ last.index ∧ read file = .ok (⟨last.slots⟩, last.cursor) ∨
        ∃ error, last.index < declared.toNat ∧ last.round declared.toNat = .error error ∧
          read file = .error error) := by
  obtain ⟨entries, last, rounds, ended | ⟨below, error, failed⟩⟩ :=
    exists_last declared.toNat (.start start)
  · exact ⟨entries, last, rounds, .inl ⟨ended, rounds.read_of_ended readCount ended⟩⟩
  · exact ⟨entries, last, rounds,
      .inr ⟨error, below, failed, rounds.read_of_failed readCount below failed⟩⟩

end ConstantPool

/-- A class file has at least 28 bytes more than events.  Every event is paid for: fields
take eight bytes each, methods eight bytes and one for each instruction, and the loops
take bytes in every round, so they end. -/
theorem decodeClass_pays_for_events :
    (∀ bytes events, decodeClass bytes = .ok events → events.length + 28 ≤ bytes.length) ∧
    (∀ pool (before : Cursor) field after, ClassFile.readField pool before = .ok (field, after) →
      after.rest.length + 8 ≤ before.rest.length) ∧
    (∀ pool (before : Cursor) method after,
      ClassFile.readMethod decodeCode pool before = .ok (method, after) →
      after.rest.length + (8 + method.2.length) ≤ before.rest.length) ∧
    (∀ pool before instructions after, Instruction.Runs pool before instructions after →
      instructions.length + after.rest.length ≤ before.rest.length) ∧
    (∀ pool, WellFounded (Instruction.Next pool)) ∧
    (∀ pool code, ∃ instructions last,
      Instruction.Runs pool (Cursor.start code) instructions last ∧
      (last.rest = [] ∧ decodeCode pool code = .ok instructions ∨
        ∃ error, last.rest ≠ [] ∧ Instruction.read pool last = .error error ∧
          decodeCode pool code = .error error)) ∧
    (∀ count before entries after, ConstantPool.Rounds count before entries after →
      3 * entries.length + after.cursor.rest.length ≤ before.cursor.rest.length) ∧
    (∀ count, WellFounded (ConstantPool.Filling.Next count)) ∧
    (∀ (file start : Cursor) declared, Reader.u16 file = .ok (declared, start) →
      ∃ entries last, ConstantPool.Rounds declared.toNat (.start start) entries last ∧
      (declared.toNat ≤ last.index ∧
          ConstantPool.read file = .ok (⟨last.slots⟩, last.cursor) ∨
        ∃ error, last.index < declared.toNat ∧ last.round declared.toNat = .error error ∧
          ConstantPool.read file = .error error)) := by
  refine ⟨?_, fun _ => ClassFile.pays_readField, fun _ => ClassFile.pays_readMethod,
    fun _ _ _ _ runs => runs.length_le, Instruction.wellFounded_next,
    decodeCode_outcome, fun _ _ _ _ rounds => rounds.length_le,
    ConstantPool.Filling.wellFounded_next, fun _ _ _ => ConstantPool.read_outcome⟩
  intro bytes events decoded
  obtain ⟨after, readEq⟩ := Reader.within_eq_ok_iff.mp decoded
  have paid := ClassFile.pays_readClass _ _ _ readEq
  dsimp only [Cursor.start] at paid
  omega

/-- A class with an empty name and nothing in it. -/
def smallestClass : List UInt8 :=
  [0xCA, 0xFE, 0xBA, 0xBE, 0, 0, 0, 0, 0, 3, 1, 0, 0, 7, 0, 1, 0, 0, 0, 2, 0, 0, 0, 0,
    0, 0, 0, 0, 0, 0]

/-- A method whose code does nothing and returns, where slot one is the text that it
needs. -/
def idleMethod : List UInt8 :=
  [0, 0, 0, 1, 0, 1, 0, 1, 0, 1, 0, 0, 0, 10, 0, 0, 0, 0, 0, 0, 0, 2, 0, 177]

theorem decodeClass_pays_for_events_smallestClass :
    (∃ events, decodeClass smallestClass = .ok events ∧ events.length + 28 ≤ 30 ∧
      events.length = 2) ∧
    (∃ method, ClassFile.readMethod decodeCode ⟨#[none, some (.utf8 [67, 111, 100, 101])]⟩
        (Cursor.start idleMethod) = .ok (method, ⟨24, []⟩) ∧
      0 + (8 + method.2.length) ≤ 24 ∧ method.2.length = 2) ∧
    ∃ entries last, ConstantPool.Rounds 3 (.start ⟨10, smallestClass.drop 10⟩) entries last ∧
      3 * entries.length + last.cursor.rest.length ≤ 20 := by
  obtain ⟨events, _, method, _, _, _, rounds, _, outcome⟩ := decodeClass_pays_for_events
  refine ⟨?_, ?_, ?_⟩
  · have decoded : decodeClass smallestClass =
        .ok [.classHeader ⟨"", ⟨0⟩, none, []⟩, .classEnd] := by decide +kernel
    exact ⟨_, decoded, events _ _ decoded, rfl⟩
  · have read : ClassFile.readMethod decodeCode ⟨#[none, some (.utf8 [67, 111, 100, 101])]⟩
        (Cursor.start idleMethod) =
        .ok ((⟨"Code", "Code", ⟨0⟩⟩, [.simple 0, .simple 177]), ⟨24, []⟩) := by decide +kernel
    exact ⟨_, read, method _ _ _ _ read, rfl⟩
  · obtain ⟨entries, last, reached, _⟩ :=
      outcome ⟨8, smallestClass.drop 8⟩ ⟨10, smallestClass.drop 10⟩ 3 (by decide +kernel)
    exact ⟨entries, last, reached, rounds _ _ _ _ reached⟩

end ClassLint
