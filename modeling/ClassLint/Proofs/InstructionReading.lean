import ClassLint.Proofs.InstructionSet
import ClassLint.Proofs.Truncation

/-!
# Reading one instruction

An instruction is read off its opcode and then off its operands, front to back.
Operands may be missing, or lead to the wrong place in the constant pool, but only
two things make an opcode itself wrong: there is no such opcode, or it stands behind
a `wide` and cannot be widened.
-/

namespace ClassLint

namespace Reader

variable {α β : Type}

/-- A binding fails in its first part, or in its second after the first. -/
theorem bind_eq_error_iff {reader : Reader α} {next : α → Reader β} {before : Cursor}
    {error : DecodeError} :
    (reader >>= next) before = .error error ↔
      reader before = .error error ∨
        ∃ found middle, reader before = .ok (found, middle) ∧
          next found middle = .error error := by
  cases read : reader before with
  | error found => simp [bind_of_error read]
  | ok pair =>
      obtain ⟨found, middle⟩ := pair
      simp [bind_of_ok read]

theorem sequential_offset : Sequential offset where
  takes {before after value} read := by
    cases read
    refine ⟨[], Cursor.passes_nil.mpr rfl, fun _ => rfl, ?_⟩
    intro count short
    exact absurd short (Nat.not_lt_zero count)
  fails failed _ _ := by cases failed

theorem sequential_alignToFour : Sequential alignToFour := by
  rw [alignToFour_eq]
  exact sequential_offset.bind fun _ => (sequential_bytes _).map _

end Reader

/-- A result that is not an error about an opcode. -/
def SparesOpcodes {α : Type} (result : Except DecodeError α) : Prop :=
  ∀ opcode position, result ≠ .error (.invalidOpcode opcode position)

theorem sparesOpcodes_ok {α : Type} (value : α) :
    SparesOpcodes (.ok value : Except DecodeError α) := by
  intro opcode position failed
  cases failed

theorem sparesOpcodes_unexpectedConstant {α : Type} (index : UInt16) (expected : ConstantKind) :
    SparesOpcodes (.error (.unexpectedConstant index expected) : Except DecodeError α) := by
  intro opcode position failed
  cases failed

theorem SparesOpcodes.bind {α β : Type} {result : Except DecodeError α}
    {next : α → Except DecodeError β} (spares : SparesOpcodes result)
    (nextSpares : ∀ found, SparesOpcodes (next found)) : SparesOpcodes (result >>= next) := by
  intro opcode position failed
  cases result with
  | error error =>
      cases failed
      exact spares opcode position rfl
  | ok found => exact nextSpares found opcode position failed

namespace ConstantPool

variable (pool : ConstantPool) (index : UInt16)

theorem sparesOpcodes_entry : SparesOpcodes (pool.entry index) := by
  intro opcode position
  unfold entry
  split <;> simp

theorem sparesOpcodes_utf8 : SparesOpcodes (pool.utf8 index) := by
  refine (pool.sparesOpcodes_entry index).bind fun entry => ?_
  split
  · exact sparesOpcodes_ok _
  · exact sparesOpcodes_unexpectedConstant index .utf8

theorem sparesOpcodes_className : SparesOpcodes (pool.className index) := by
  refine (pool.sparesOpcodes_entry index).bind fun entry => ?_
  split
  · exact pool.sparesOpcodes_utf8 _
  · exact sparesOpcodes_unexpectedConstant index .classReference

theorem sparesOpcodes_nameAndType : SparesOpcodes (pool.nameAndType index) := by
  refine (pool.sparesOpcodes_entry index).bind fun entry => ?_
  split
  · refine (pool.sparesOpcodes_utf8 _).bind fun name => ?_
    exact (pool.sparesOpcodes_utf8 _).bind fun _ => sparesOpcodes_ok _
  · exact sparesOpcodes_unexpectedConstant index .nameAndType

theorem sparesOpcodes_member : SparesOpcodes (pool.member index) := by
  refine (pool.sparesOpcodes_entry index).bind fun entry => ?_
  split
  case h_1 | h_2 | h_3 =>
    refine (pool.sparesOpcodes_nameAndType _).bind fun signature => ?_
    exact (pool.sparesOpcodes_className _).bind fun _ => sparesOpcodes_ok _
  case h_4 => exact sparesOpcodes_unexpectedConstant index .memberReference

theorem sparesOpcodes_constant : SparesOpcodes (pool.constant index) := by
  have makes (slot : UInt16) (make : String → Constant) :
      SparesOpcodes (do return make (← pool.utf8 slot)) :=
    (pool.sparesOpcodes_utf8 slot).bind fun _ => sparesOpcodes_ok _
  refine (pool.sparesOpcodes_entry index).bind fun entry => ?_
  split
  case h_5 | h_6 | h_7 => exact makes _ _
  case h_11 => exact sparesOpcodes_unexpectedConstant index .loadable
  all_goals exact sparesOpcodes_ok _

end ConstantPool

namespace Reader

variable {α β : Type}

/-- A reader of operands goes front to back and never fails for an opcode. -/
structure ReadsOperands (reader : Reader α) : Prop where
  sequential : reader.Sequential
  spares (before : Cursor) : SparesOpcodes (reader before)

theorem readsOperands_lift {result : Except DecodeError α} (spares : SparesOpcodes result) :
    ReadsOperands (lift result) where
  sequential := sequential_lift result
  spares before := by
    cases result with
    | error error =>
        intro opcode position failed
        cases failed
        exact spares opcode position rfl
    | ok value => exact sparesOpcodes_ok _

theorem readsOperands_pure (value : α) : (pure value : Reader α).ReadsOperands :=
  readsOperands_lift (sparesOpcodes_ok value)

theorem readsOperands_malformed (part : MalformedPart) :
    ReadsOperands (fail (.malformed part) : Reader α) where
  sequential := sequential_fail _
  spares before := by
    intro opcode position failed
    cases failed

theorem readsOperands_bytes (count : Nat) : ReadsOperands (bytes count) where
  sequential := sequential_bytes count
  spares before := by
    intro opcode position
    rw [bytes_eq]
    split <;> simp

theorem ReadsOperands.bind {reader : Reader α} {next : α → Reader β}
    (reads : reader.ReadsOperands) (nextReads : ∀ found, (next found).ReadsOperands) :
    (reader >>= next).ReadsOperands where
  sequential := reads.sequential.bind fun found => (nextReads found).sequential
  spares before := (reads.spares before).bind fun pair => (nextReads pair.1).spares pair.2

theorem ReadsOperands.map {reader : Reader α} (reads : reader.ReadsOperands) (make : α → β) :
    (do return make (← reader) : Reader β).ReadsOperands :=
  reads.bind fun _ => readsOperands_pure _

theorem readsOperands_u8 : ReadsOperands u8 :=
  ((readsOperands_bytes 1).map _).map _

theorem readsOperands_u16 : ReadsOperands u16 :=
  ((readsOperands_bytes 2).map _).map _

theorem readsOperands_i32 : ReadsOperands i32 :=
  (((readsOperands_bytes 4).map _).map _).map _

theorem readsOperands_alignToFour : ReadsOperands alignToFour where
  sequential := sequential_alignToFour
  spares before := by
    rw [alignToFour_eq]
    exact ((readsOperands_bytes _).map fun _ => ()).spares before

/-- The value that a slot of the constant pool leads to. -/
theorem ReadsOperands.lookup {reader : Reader α} (reads : reader.ReadsOperands) {γ : Type}
    {resolve : α → Except DecodeError γ} (spares : ∀ slot, SparesOpcodes (resolve slot))
    (make : γ → β) :
    (do
      let slot ← reader
      let found ← lift (resolve slot)
      return make found : Reader β).ReadsOperands :=
  reads.bind fun slot => (readsOperands_lift (spares slot)).map make

end Reader

namespace Instruction

variable (pool : ConstantPool)

theorem readsOperands_readOperands (position : Nat) (opcode : UInt8) {layout : OperandLayout}
    (notWidened : layout ≠ .widened) :
    Reader.ReadsOperands (readOperands pool position opcode layout) := by
  cases layout with
  | empty => exact Reader.readsOperands_pure _
  | impliedVariable index =>
      rw [readOperands_impliedVariable]
      exact Reader.readsOperands_pure _
  | byteImmediate => exact (Reader.readsOperands_u8.map _).map _
  | shortImmediate => exact (Reader.readsOperands_u16.map _).map _
  | shortBranch =>
      rw [readOperands_shortBranch]
      exact (Reader.readsOperands_u16.map _).map _
  | longBranch =>
      rw [readOperands_longBranch]
      exact Reader.readsOperands_i32.map _
  | localVariable | primitiveType => exact Reader.readsOperands_u8.map _
  | shortConstant =>
      exact Reader.readsOperands_u8.lookup (fun _ => pool.sparesOpcodes_constant _) _
  | longConstant => exact Reader.readsOperands_u16.lookup pool.sparesOpcodes_constant _
  | increment =>
      refine Reader.readsOperands_u8.bind fun index => ?_
      exact (Reader.readsOperands_u8.map _).map _
  | tableSwitch =>
      rw [readOperands_tableSwitch]
      refine Reader.readsOperands_alignToFour.bind fun _ => ?_
      refine Reader.readsOperands_i32.bind fun fallback => ?_
      refine Reader.readsOperands_i32.bind fun low => ?_
      refine Reader.readsOperands_i32.bind fun high => ?_
      split
      · exact Reader.readsOperands_malformed _
      · exact (Reader.readsOperands_bytes _).map _
  | lookupSwitch =>
      rw [readOperands_lookupSwitch]
      refine Reader.readsOperands_alignToFour.bind fun _ => ?_
      refine Reader.readsOperands_i32.bind fun fallback => ?_
      refine Reader.readsOperands_i32.bind fun pairs => ?_
      split
      · exact Reader.readsOperands_malformed _
      · exact (Reader.readsOperands_bytes _).map _
  | field | method => exact Reader.readsOperands_u16.lookup pool.sparesOpcodes_member _
  | interfaceMethod =>
      refine Reader.readsOperands_u16.bind fun slot => ?_
      refine (Reader.readsOperands_lift (pool.sparesOpcodes_member slot)).bind fun found => ?_
      refine Reader.readsOperands_u8.bind fun first => ?_
      exact Reader.readsOperands_u8.map _
  | dynamicCall =>
      refine Reader.readsOperands_u16.bind fun slot => ?_
      exact (Reader.readsOperands_bytes 2).map _
  | classReference => exact Reader.readsOperands_u16.lookup pool.sparesOpcodes_className _
  | arrayClass =>
      refine Reader.readsOperands_u16.bind fun slot => ?_
      refine (Reader.readsOperands_lift (pool.sparesOpcodes_className slot)).bind fun name => ?_
      exact Reader.readsOperands_u8.map _
  | widened => exact absurd rfl notWidened

theorem sequential_readOperands (position : Nat) (opcode : UInt8) (layout : OperandLayout) :
    Reader.Sequential (readOperands pool position opcode layout) := by
  by_cases isWidened : layout = .widened
  · subst isWidened
    rw [readOperands_widened]
    refine Reader.sequential_u8.bind fun widened => ?_
    refine Reader.sequential_u16.bind fun index => ?_
    split
    · exact (Reader.sequential_u16.map _).map _
    · split
      · exact Reader.sequential_pure _
      · exact Reader.sequential_fail _
  · exact (readsOperands_readOperands pool position opcode isWidened).sequential

theorem sequential_read : Reader.Sequential (read pool) := by
  refine Reader.sequential_offset.bind fun position => ?_
  refine Reader.sequential_u8.bind fun opcode => ?_
  split
  · exact sequential_readOperands pool position opcode _
  · exact Reader.sequential_fail _

/-- An instruction is read off its opcode and then off its operands. -/
theorem read_cons (position : Nat) (opcode : UInt8) (rest : List UInt8) :
    read pool (Cursor.mk position (opcode :: rest)) =
      match OperandLayout.ofOpcode? opcode with
      | some layout => readOperands pool position opcode layout ⟨position + 1, rest⟩
      | none => .error (.invalidOpcode opcode position) := by
  have readOpcode :
      Reader.u8 (Cursor.mk position (opcode :: rest)) = .ok (opcode, ⟨position + 1, rest⟩) :=
    Reader.u8_eq_ok_iff.mpr ⟨rfl, rfl⟩
  rw [read, Reader.offset_bind, Reader.bind_of_ok readOpcode]
  cases OperandLayout.ofOpcode? opcode <;> rfl

theorem read_nil (position : Nat) :
    read pool (Cursor.mk position []) = .error (.unexpectedEnd position 1) :=
  rfl

variable {pool} {before after : Cursor} {instruction : Instruction}

theorem read_of_atEnd (atEnd : before.rest = []) :
    read pool before = .error (.unexpectedEnd before.offset 1) := by
  have failed := read_nil pool before.offset
  rwa [← atEnd] at failed

/-- An instruction takes its opcode at least. -/
theorem length_rest_lt_of_read_eq_ok (readEq : read pool before = .ok (instruction, after)) :
    after.rest.length < before.rest.length := by
  obtain ⟨position, rest⟩ := before
  cases rest with
  | nil => cases readEq
  | cons opcode rest =>
      rw [read_cons] at readEq
      split at readEq
      next layout _ =>
        obtain ⟨word, passes, _⟩ :=
          (sequential_readOperands pool position opcode layout).takes readEq
        have restEq : rest = word ++ after.rest := passes.rest
        rw [restEq, List.length_cons, List.length_append]
        omega
      next => cases readEq

end Instruction

/-! ## Errors that blame an opcode -/

namespace Mnemonic

/-- The instructions that can be widened. -/
def widenable : List Mnemonic :=
  [.iinc, .iload, .lload, .fload, .dload, .aload, .istore, .lstore, .fstore, .dstore, .astore,
    .ret]

/-- What holds of all bytes by their numbers. -/
theorem forall_byte {holds : UInt8 → Prop}
    (ofNumber : ∀ number < 256, holds (UInt8.ofNat number)) (byte : UInt8) : holds byte := by
  have lookup := ofNumber byte.toNat byte.toNat_lt
  rwa [UInt8.ofNat_toNat] at lookup

/-- The instructions that are read behind a `wide` are those that can be widened. -/
theorem mem_widenable_iff (opcode : UInt8) :
    opcode ∈ widenable.map Mnemonic.opcode ↔
      opcode = Opcode.iinc ∨ Opcode.hasVariableOperand opcode = true := by
  revert opcode
  exact forall_byte (by decide +kernel)

/-- The opcodes end with that of the last instruction. -/
theorem ofOpcode?_eq_none_iff (opcode : UInt8) :
    OperandLayout.ofOpcode? opcode = none ↔ 0xC9 < opcode := by
  revert opcode
  exact forall_byte (by decide +kernel)

theorem ofOpcode?_eq_widened_iff (opcode : UInt8) :
    OperandLayout.ofOpcode? opcode = some .widened ↔ opcode = wide.opcode := by
  revert opcode
  exact forall_byte (by decide +kernel)

end Mnemonic

namespace Instruction

variable {pool : ConstantPool}

theorem readWidened_eq_invalidOpcode_iff {position offset place : Nat} {opcode widened : UInt8}
    {rest : List UInt8} :
    readOperands pool position opcode .widened (Cursor.mk offset rest) =
        .error (.invalidOpcode widened place) ↔
      ∃ first second tail, rest = widened :: first :: second :: tail ∧ place = position + 1 ∧
        widened ∉ Mnemonic.widenable.map Mnemonic.opcode := by
  simp only [readOperands_widened, Reader.bind_eq_error_iff]
  rw [or_iff_right (Reader.readsOperands_u8.spares _ _ _)]
  constructor
  · rintro ⟨found, middle, readFound, indexFails | ⟨index, after, readIndex, failed⟩⟩
    · exact absurd indexFails (Reader.readsOperands_u16.spares _ _ _)
    · have passesFound := Reader.u8_eq_ok_iff.mp readFound
      have passesIndex := Reader.u16_eq_ok_iff.mp readIndex
      obtain ⟨first, second, indexEq⟩ :=
        List.length_eq_two.mp (length_bigEndianBytes 2 index.toNat)
      have restEq : rest = found :: first :: second :: after.rest := by
        have := passesFound.rest
        rwa [passesIndex.rest, indexEq] at this
      split at failed
      · -- A widened increment takes one more word and is then complete.
        exact absurd failed (((Reader.readsOperands_u16.map _).map _).spares _ _ _)
      · split at failed
        · cases failed
        · cases failed
          refine ⟨first, second, after.rest, restEq, rfl, ?_⟩
          rw [Mnemonic.mem_widenable_iff, not_or]
          exact ⟨by assumption, by assumption⟩
  · rintro ⟨first, second, tail, rfl, rfl, cannotWiden⟩
    rw [Mnemonic.mem_widenable_iff, not_or] at cannotWiden
    refine ⟨widened, ⟨offset + 1, first :: second :: tail⟩,
      Reader.u8_eq_ok_iff.mpr ⟨rfl, rfl⟩, .inr ?_⟩
    refine ⟨UInt16.ofNat (bigEndian [first, second]), ⟨offset + 1 + 2, tail⟩, rfl, ?_⟩
    rw [if_neg cannotWiden.1, if_neg cannotWiden.2]
    rfl

/-- An instruction fails for its opcode exactly if there is none such, or for the one
behind a `wide` exactly if it cannot be widened. -/
theorem read_eq_invalidOpcode_iff {position place : Nat} {opcode : UInt8} {rest : List UInt8} :
    read pool (Cursor.mk position rest) = .error (.invalidOpcode opcode place) ↔
      (∃ tail, rest = opcode :: tail ∧ place = position ∧ 0xC9 < opcode) ∨
      ∃ first second tail, rest = Mnemonic.wide.opcode :: opcode :: first :: second :: tail ∧
        place = position + 1 ∧ opcode ∉ Mnemonic.widenable.map Mnemonic.opcode := by
  cases rest with
  | nil => simp [read_nil]
  | cons byte rest =>
      rw [read_cons]
      cases layoutEq : OperandLayout.ofOpcode? byte with
      | none =>
          have above := (Mnemonic.ofOpcode?_eq_none_iff byte).mp layoutEq
          constructor
          · intro failed
            cases failed
            exact .inl ⟨rest, rfl, rfl, above⟩
          · rintro (⟨tail, restEq, rfl, _⟩ | ⟨first, second, tail, restEq, _⟩)
            · cases restEq
              rfl
            · cases restEq
              exact absurd above (by decide)
      | some layout =>
          have notAbove : ¬0xC9 < byte := by
            rw [← Mnemonic.ofOpcode?_eq_none_iff, layoutEq]
            nofun
          by_cases isWidened : layout = .widened
          · subst isWidened
            have byteEq := (Mnemonic.ofOpcode?_eq_widened_iff byte).mp layoutEq
            dsimp only
            rw [readWidened_eq_invalidOpcode_iff, byteEq]
            constructor
            · rintro ⟨first, second, tail, rfl, placeEq, cannotWiden⟩
              exact .inr ⟨first, second, tail, rfl, placeEq, cannotWiden⟩
            · rintro (⟨tail, restEq, _, above⟩ | ⟨first, second, tail, restEq, blamed⟩)
              · cases restEq
                exact absurd above (by decide)
              · cases restEq
                exact ⟨first, second, tail, rfl, blamed⟩
          · constructor
            · intro failed
              exact absurd failed
                ((readsOperands_readOperands pool position byte isWidened).spares _ _ _)
            · rintro (⟨tail, restEq, _, above⟩ | ⟨first, second, tail, restEq, _⟩)
              · cases restEq
                exact absurd above notAbove
              · cases restEq
                rw [(Mnemonic.ofOpcode?_eq_widened_iff _).mpr rfl] at layoutEq
                exact absurd (Option.some.inj layoutEq).symm isWidened

end Instruction

end ClassLint
