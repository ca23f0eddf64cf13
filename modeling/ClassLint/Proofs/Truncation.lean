import ClassLint.ClassFile.Decode
import ClassLint.Proofs.Reading
import Mathlib.Data.Nat.Init

/-!
# Truncated and extended files

A class file is read front to back, and nothing depends on bytes that have not
been reached.  So a file that was accepted stays so when bytes are added after
the class, and a file that is cut off inside of the class is missing bytes and
has no other fault.
-/

namespace ClassLint

namespace Reader

variable {α β : Type}

/-- From an offset on, a reader takes exactly the bytes of a word to give a value.
What follows the word does not matter.  On a part of the word the reader misses
bytes, and no more of them than the word has left. -/
structure Takes (reader : Reader α) (offset : Nat) (word : List UInt8) (value : α) :
    Prop where
  complete (tail : List UInt8) :
    reader ⟨offset, word ++ tail⟩ = .ok (value, ⟨offset + word.length, tail⟩)
  truncated {count : Nat} (short : count < word.length) :
    ∃ place missing, reader ⟨offset, word.take count⟩ = .error (.unexpectedEnd place missing) ∧
      place ≤ offset + count ∧ 1 ≤ missing ∧ count + missing ≤ word.length

/-- A reader whose result rests on the bytes that it has reached. -/
structure Sequential (reader : Reader α) : Prop where
  takes {before after : Cursor} {value : α} (read : reader before = .ok (value, after)) :
    ∃ word, before.Passes word after ∧ reader.Takes before.offset word value
  fails {before : Cursor} {error : DecodeError} (failed : reader before = .error error)
    (other : ∀ place missing, error ≠ .unexpectedEnd place missing) (tail : List UInt8) :
    reader ⟨before.offset, before.rest ++ tail⟩ = .error error

/-- A result that is already there takes no bytes. -/
theorem sequential_lift (result : Except DecodeError α) : Sequential (lift result) where
  takes {before after value} read := by
    obtain ⟨rfl, rfl⟩ := lift_eq_ok_iff.mp read
    refine ⟨[], Cursor.passes_nil.mpr rfl, fun _ => rfl, ?_⟩
    intro count short
    exact absurd short (Nat.not_lt_zero count)
  fails {before error} failed _ tail := by
    cases result with
    | error found => exact failed
    | ok found => cases failed

theorem sequential_pure (value : α) : (pure value : Reader α).Sequential :=
  sequential_lift (.ok value)

theorem sequential_fail (error : DecodeError) : Sequential (fail error : Reader α) :=
  sequential_lift (.error error)

theorem sequential_bytes (count : Nat) : Sequential (bytes count) where
  takes {before after word} read := by
    obtain ⟨lengthEq, passes⟩ := bytes_eq_ok_iff.mp read
    refine ⟨word, passes, ?_, ?_⟩
    · intro tail
      exact bytes_eq_ok_iff.mpr ⟨lengthEq, rfl, rfl⟩
    · intro available short
      have takenLength : (word.take available).length = available := by
        rw [List.length_take]
        omega
      have incomplete : ((word.take available).take count).length ≠ count := by
        rw [List.length_take]
        omega
      refine ⟨before.offset, count - available, ?_, by omega, by omega, by omega⟩
      rw [bytes_eq, if_neg incomplete, takenLength]
  fails {before error} failed other _ := by
    -- The end of the region is all that this reader can miss.
    rw [bytes_eq] at failed
    split at failed
    · cases failed
    · exact absurd (Except.error.inj failed).symm (other _ _)

theorem Takes.bind {reader : Reader α} {next : α → Reader β} {offset : Nat}
    {first second : List UInt8} {found : α} {value : β}
    (takesFirst : reader.Takes offset first found)
    (takesSecond : (next found).Takes (offset + first.length) second value) :
    (reader >>= next).Takes offset (first ++ second) value where
  complete tail := by
    rw [List.append_assoc, bind_of_ok (takesFirst.complete _), takesSecond.complete,
      List.length_append, Nat.add_assoc]
  truncated {count} short := by
    rw [List.length_append] at short ⊢
    rcases Nat.lt_or_ge count first.length with inFirst | inSecond
    · obtain ⟨place, missing, failed, placeLe, missingPos, missingLe⟩ :=
        takesFirst.truncated inFirst
      refine ⟨place, missing, ?_, placeLe, missingPos, by omega⟩
      rw [List.take_append_of_le_length (Nat.le_of_lt inFirst), bind_of_error failed]
    · have shortSecond : count - first.length < second.length := by omega
      obtain ⟨place, missing, failed, placeLe, missingPos, missingLe⟩ :=
        takesSecond.truncated shortSecond
      refine ⟨place, missing, ?_, by omega, missingPos, by omega⟩
      rw [List.take_append, List.take_of_length_le inSecond,
        bind_of_ok (takesFirst.complete _), failed]

theorem Sequential.bind {reader : Reader α} {next : α → Reader β}
    (sequential : reader.Sequential) (nextSequential : ∀ found, (next found).Sequential) :
    (reader >>= next).Sequential where
  takes {before after value} read := by
    obtain ⟨found, middle, readFirst, readSecond⟩ := bind_eq_ok_iff.mp read
    obtain ⟨first, passesFirst, takesFirst⟩ := sequential.takes readFirst
    obtain ⟨second, passesSecond, takesSecond⟩ := (nextSequential found).takes readSecond
    rw [passesFirst.offset] at takesSecond
    exact ⟨first ++ second, Cursor.passes_append.mpr ⟨middle, passesFirst, passesSecond⟩,
      takesFirst.bind takesSecond⟩
  fails {before error} failed other tail := by
    cases readFirst : reader before with
    | error found =>
        rw [bind_of_error readFirst] at failed
        cases failed
        exact bind_of_error (sequential.fails readFirst other tail)
    | ok pair =>
        obtain ⟨found, middle⟩ := pair
        rw [bind_of_ok readFirst] at failed
        obtain ⟨first, passes, takesFirst⟩ := sequential.takes readFirst
        have failedLater := (nextSequential found).fails failed other tail
        rw [passes.rest, List.append_assoc, bind_of_ok (takesFirst.complete _),
          ← passes.offset, failedLater]

/-- What is made of the value of a sequential reader. -/
theorem Sequential.map {reader : Reader α} (sequential : reader.Sequential) (make : α → β) :
    (do return make (← reader) : Reader β).Sequential :=
  sequential.bind fun _ => sequential_pure _

theorem sequential_word (width : Nat) : Sequential (word width) :=
  (sequential_bytes width).map _

theorem sequential_u8 : Sequential u8 :=
  (sequential_word 1).map _

theorem sequential_u16 : Sequential u16 :=
  (sequential_word 2).map _

theorem sequential_u32 : Sequential u32 :=
  (sequential_word 4).map _

theorem sequential_u64 : Sequential u64 :=
  (sequential_word 8).map _

/-- Two words one after the other. -/
theorem sequential_pair (make : UInt16 → UInt16 → β) :
    (do return make (← u16) (← u16) : Reader β).Sequential :=
  sequential_u16.bind fun _ => sequential_u16.map _

theorem sequential_repeatedFrom {reader : Reader α} (sequential : reader.Sequential)
    (count : Nat) (found : List α) : Sequential (repeatedFrom reader count found) := by
  induction count generalizing found with
  | zero => exact sequential_pure _
  | succ count ih => exact sequential.bind fun value => ih (value :: found)

theorem Sequential.repeated {reader : Reader α} (sequential : reader.Sequential) (count : Nat) :
    Sequential (repeated count reader) :=
  sequential_repeatedFrom sequential count []

end Reader

open Reader

theorem PoolEntry.sequential_readTagged (tag : UInt8) (slot : Nat) :
    Sequential (readTagged tag slot) := by
  unfold readTagged
  split
  case h_1 => exact sequential_u16.bind fun _ => (sequential_bytes _).map _
  case h_2 => exact (sequential_u32.map _).map _
  case h_3 => exact sequential_u32.map _
  case h_4 => exact (sequential_u64.map _).map _
  case h_5 => exact sequential_u64.map _
  case h_6 | h_7 | h_13 | h_16 | h_17 => exact sequential_u16.map _
  case h_8 | h_9 | h_10 | h_11 => exact sequential_pair _
  case h_12 | h_14 | h_15 => exact (sequential_bytes _).map _
  case h_18 => exact sequential_fail _

namespace ConstantPool

theorem sequential_readSlots (remaining slot : Nat) (slots : Array (Option PoolEntry)) :
    Sequential (readSlots remaining slot slots) := by
  induction remaining using Nat.twoStepInduction generalizing slot slots with
  | zero => exact sequential_pure slots
  | one =>
      rw [readSlots_one]
      refine sequential_u8.bind fun tag => ?_
      refine (PoolEntry.sequential_readTagged tag _).bind fun entry => ?_
      split
      · exact sequential_fail _
      · exact sequential_pure _
  | more remaining wideStep narrowStep =>
      rw [readSlots_add_two]
      refine sequential_u8.bind fun tag => ?_
      refine (PoolEntry.sequential_readTagged tag _).bind fun entry => ?_
      split
      · exact wideStep _ _
      · exact narrowStep _ _

theorem sequential_read : Sequential read :=
  sequential_u16.bind fun _ => (sequential_readSlots _ _ _).map _

end ConstantPool

namespace ClassFile

variable {α : Type} (pool : ConstantPool)

theorem sequential_readAttributesFrom (readBody : String → α → Reader α) (count : Nat)
    (collected : α) : Sequential (readAttributesFrom pool readBody count collected) := by
  induction count generalizing collected with
  | zero => exact sequential_pure collected
  | succ count ih =>
      -- The body is taken as a whole before it is looked at, so no part of it is
      -- read off a region that ends too early.
      refine sequential_u16.bind fun nameSlot => ?_
      refine (sequential_lift _).bind fun name => ?_
      refine sequential_u32.bind fun length => ?_
      refine (sequential_bytes _).bind fun body => ?_
      rw [embed_eq_lift]
      exact (sequential_lift _).bind ih

theorem sequential_readAttributes (readBody : String → α → Reader α) (first : α) :
    Sequential (readAttributes pool readBody first) :=
  sequential_u16.bind fun _ => sequential_readAttributesFrom pool readBody _ first

/-- Fields and methods start alike: with their access, their name and their
descriptor. -/
private theorem sequential_member {next : UInt16 → String → String → Reader α}
    (sequential : ∀ access name descriptor, (next access name descriptor).Sequential) :
    (do
      let access ← Reader.u16
      let nameSlot ← Reader.u16
      let name ← Reader.lift (pool.utf8 nameSlot)
      let descriptorSlot ← Reader.u16
      let descriptor ← Reader.lift (pool.utf8 descriptorSlot)
      next access name descriptor : Reader α).Sequential := by
  refine sequential_u16.bind fun access => ?_
  refine sequential_u16.bind fun nameSlot => ?_
  refine (sequential_lift _).bind fun name => ?_
  refine sequential_u16.bind fun descriptorSlot => ?_
  refine (sequential_lift _).bind fun descriptor => ?_
  exact sequential access name descriptor

theorem sequential_readField : Sequential (readField pool) :=
  sequential_member pool fun _ _ _ => (sequential_readAttributes pool _ _).map _

theorem sequential_readMethod
    (decode : ConstantPool → List UInt8 → Except DecodeError (List Instruction)) :
    Sequential (readMethod decode pool) :=
  sequential_member pool fun _ _ _ => (sequential_readAttributes pool _ _).map _

theorem sequential_skipAttribute : Sequential skipAttribute := by
  refine sequential_u16.bind fun nameSlot => ?_
  refine sequential_u32.bind fun length => ?_
  exact (sequential_bytes _).map _

theorem sequential_readClassName : Sequential (readClassName pool) :=
  sequential_u16.bind fun _ => sequential_lift _

theorem sequential_readSuperName : Sequential (readSuperName pool) := by
  refine sequential_u16.bind fun slot => ?_
  split
  · exact sequential_pure none
  · exact (sequential_lift _).map _

theorem sequential_readHeader : Sequential (readHeader pool) := by
  refine sequential_u16.bind fun access => ?_
  refine (sequential_readClassName pool).bind fun name => ?_
  refine (sequential_readSuperName pool).bind fun superName => ?_
  refine sequential_u16.bind fun interfaceCount => ?_
  exact ((sequential_readClassName pool).repeated _).map _

theorem sequential_readClass
    (decode : ConstantPool → List UInt8 → Except DecodeError (List Instruction)) :
    Sequential (readClass decode) := by
  refine sequential_u32.bind fun found => ?_
  split
  · exact sequential_fail _
  · refine sequential_u16.bind fun minorVersion => ?_
    refine sequential_u16.bind fun majorVersion => ?_
    refine ConstantPool.sequential_read.bind fun pool => ?_
    refine (sequential_readHeader pool).bind fun header => ?_
    refine sequential_u16.bind fun fieldCount => ?_
    refine ((sequential_readField pool).repeated _).bind fun fields => ?_
    refine sequential_u16.bind fun methodCount => ?_
    refine ((sequential_readMethod pool decode).repeated _).bind fun methods => ?_
    refine sequential_u16.bind fun attributeCount => ?_
    exact (sequential_skipAttribute.repeated _).map _

end ClassFile

/-- An accepted file has a part at its front that alone decides about it.  Any bytes
may follow that part, and a file that ends inside of it is rejected for missing
bytes, of which the part really has so many left.  A file that is rejected for
another reason stays rejected for it, whatever follows. -/
theorem decodeClass_truncation (bytes : List UInt8) :
    (∀ events, decodeClass bytes = .ok events →
      ∃ length ≤ bytes.length,
        (∀ trailing, decodeClass (bytes.take length ++ trailing) = .ok events) ∧
        ∀ count < length, ∃ offset missing,
          decodeClass (bytes.take count) = .error (.unexpectedEnd offset missing) ∧
            offset ≤ count ∧ 1 ≤ missing ∧ count + missing ≤ length) ∧
    ∀ error, decodeClass bytes = .error error →
      (∀ offset missing, error ≠ .unexpectedEnd offset missing) →
        ∀ trailing, decodeClass (bytes ++ trailing) = .error error := by
  constructor
  · intro events decoded
    obtain ⟨after, read⟩ := Reader.within_eq_ok_iff.mp decoded
    obtain ⟨word, passes, takes⟩ := (ClassFile.sequential_readClass decodeCode).takes read
    have bytesEq : bytes = word ++ after.rest := passes.rest
    refine ⟨word.length, ?_, ?_, ?_⟩
    · rw [bytesEq, List.length_append]
      omega
    · intro trailing
      rw [bytesEq, List.take_left]
      exact Reader.within_eq_ok_iff.mpr ⟨_, takes.complete trailing⟩
    · intro count short
      obtain ⟨offset, missing, failed, offsetLe, missingPos, missingLe⟩ := takes.truncated short
      refine ⟨offset, missing, ?_, ?_, missingPos, missingLe⟩
      · rw [bytesEq, List.take_append_of_le_length (Nat.le_of_lt short)]
        exact Reader.within_eq_error_iff.mpr failed
      · rwa [Cursor.start, Nat.zero_add] at offsetLe
  · intro error failed other trailing
    have failedRead := Reader.within_eq_error_iff.mp failed
    exact Reader.within_eq_error_iff.mpr
      ((ClassFile.sequential_readClass decodeCode).fails failedRead other trailing)

/-- A class `A` without members, and with one attribute of two bytes. -/
def plainClass : List UInt8 :=
  [0xCA, 0xFE, 0xBA, 0xBE, 0, 0, 0, 52, 0, 3,
    1, 0, 1, 65,
    7, 0, 1,
    0, 33, 0, 2, 0, 0, 0, 0, 0, 0, 0, 0,
    0, 1, 0, 1, 0, 0, 0, 2, 7, 7]

/-- A file whose first constant has a tag that no constant has. -/
def unknownTagClass : List UInt8 :=
  [0xCA, 0xFE, 0xBA, 0xBE, 0, 0, 0, 52, 0, 3, 2]

theorem decodeClass_truncation_plainClass :
    (∃ events, decodeClass (plainClass ++ [1, 2, 3]) = .ok events ∧
      ∃ length ≤ (plainClass ++ [1, 2, 3]).length,
        (∀ trailing, decodeClass ((plainClass ++ [1, 2, 3]).take length ++ trailing) =
          .ok events) ∧
        ∀ count < length, ∃ offset missing,
          decodeClass ((plainClass ++ [1, 2, 3]).take count) =
              .error (.unexpectedEnd offset missing) ∧
            offset ≤ count ∧ 1 ≤ missing ∧ count + missing ≤ length) ∧
    decodeClass unknownTagClass = .error (.unknownConstantTag 2 1) ∧
    ∀ trailing, decodeClass (unknownTagClass ++ trailing) = .error (.unknownConstantTag 2 1) := by
  have decoded : decodeClass (plainClass ++ [1, 2, 3]) =
      .ok [.classHeader ⟨"A", ⟨33⟩, none, []⟩, .classEnd] := by
    decide +kernel
  have failed : decodeClass unknownTagClass = .error (.unknownConstantTag 2 1) := by
    decide +kernel
  refine ⟨⟨_, decoded, ?_⟩, failed, ?_⟩
  · exact (decodeClass_truncation _).1 _ decoded
  · exact (decodeClass_truncation _).2 _ failed nofun

end ClassLint
