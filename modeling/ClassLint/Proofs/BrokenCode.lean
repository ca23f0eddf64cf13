import ClassLint.Proofs.InstructionReading
import Mathlib.Data.Nat.Find

/-!
# The first bad instruction

A code array that cannot be decoded has a first instruction that cannot be read.
This file finds it: the parts of the array that can be decoded alone end where an
instruction starts, and the longest of them ends at the bad one.  Its error rests
on its own bytes, as far as they are read, and blames an opcode exactly if there
is none such or it cannot be widened.
-/

namespace ClassLint

/-- Bytes are missing. -/
def DecodeError.IsEnd (error : DecodeError) : Prop :=
  ∃ place missing, error = .unexpectedEnd place missing

namespace Reader

variable {α : Type}

/-- A reader that fails misses bytes on every part of its region, or fails there in
the same way. -/
theorem Sequential.fails_take {reader : Reader α} (sequential : reader.Sequential)
    {before : Cursor} {error : DecodeError} (failed : reader before = .error error)
    (count : Nat) :
    (∃ other : DecodeError, other.IsEnd ∧
      reader ⟨before.offset, before.rest.take count⟩ = .error other) ∨
    reader ⟨before.offset, before.rest.take count⟩ = .error error := by
  cases readTaken : reader ⟨before.offset, before.rest.take count⟩ with
  | ok pair =>
      -- What is enough for the reader here would have been enough on all of the region.
      obtain ⟨value, after⟩ := pair
      obtain ⟨word, passes, takes⟩ := sequential.takes readTaken
      have restEq : before.rest = word ++ (after.rest ++ before.rest.drop count) := by
        rw [← List.append_assoc, ← passes.rest, List.take_append_drop]
      have succeeds := takes.complete (after.rest ++ before.rest.drop count)
      rw [← restEq, failed] at succeeds
      cases succeeds
  | error other =>
      by_cases isEnd : other.IsEnd
      · exact .inl ⟨other, isEnd, rfl⟩
      · have stays := sequential.fails readTaken
          (fun place missing otherEq => isEnd ⟨place, missing, otherEq⟩)
          (before.rest.drop count)
        rw [List.take_append_drop, failed] at stays
        exact .inr stays.symm

/-- From an offset on, a reader fails on the bytes of a word.  What follows them does
not matter, unless the error is that nothing does.  On a part of the word the reader
misses bytes. -/
structure Breaks (reader : Reader α) (offset : Nat) (word : List UInt8)
    (error : DecodeError) : Prop where
  complete {tail : List UInt8} (atEnd : error.IsEnd → tail = []) :
    reader ⟨offset, word ++ tail⟩ = .error error
  truncated {count : Nat} (short : count < word.length) :
    ∃ other : DecodeError, other.IsEnd ∧ reader ⟨offset, word.take count⟩ = .error other

theorem Sequential.breaks {reader : Reader α} (sequential : reader.Sequential)
    {before : Cursor} {error : DecodeError} (failed : reader before = .error error) :
    ∃ word tail, before.rest = word ++ tail ∧ (error.IsEnd → tail = []) ∧
      reader.Breaks before.offset word error := by
  by_cases isEnd : error.IsEnd
  · refine ⟨before.rest, [], (List.append_nil _).symm, fun _ => rfl, ?_, ?_⟩
    · intro tail atEnd
      rw [atEnd isEnd, List.append_nil]
      exact failed
    · intro count _
      rcases sequential.fails_take failed count with missing | same
      · exact missing
      · exact ⟨error, isEnd, same⟩
  · -- The word is the shortest part on which the reader fails as on all of the region.
    have fails : ∃ count, reader ⟨before.offset, before.rest.take count⟩ = .error error := by
      refine ⟨before.rest.length, ?_⟩
      rw [List.take_length]
      exact failed
    classical
    refine ⟨before.rest.take (Nat.find fails), before.rest.drop (Nat.find fails),
      (List.take_append_drop _ _).symm, fun atEnd => absurd atEnd isEnd, ?_, ?_⟩
    · intro tail _
      exact sequential.fails (Nat.find_spec fails)
        (fun place missing errorEq => isEnd ⟨place, missing, errorEq⟩) tail
    · intro count short
      have earlier : count < Nat.find fails := by
        rw [List.length_take] at short
        omega
      rw [List.take_take, Nat.min_eq_left (Nat.le_of_lt earlier)]
      rcases sequential.fails_take failed count with missing | same
      · exact missing
      · exact absurd same (Nat.find_min fails earlier)

end Reader

namespace Instruction

variable {pool : ConstantPool} {before middle after : Cursor}
  {instructions : List Instruction} {error : DecodeError}

/-- Instructions are read one after the other on the way from one place of a code
array to another. -/
inductive Runs (pool : ConstantPool) : Cursor → List Instruction → Cursor → Prop
  | done (place : Cursor) : Runs pool place [] place
  | step {before middle after : Cursor} {instruction : Instruction}
      {instructions : List Instruction} (readEq : read pool before = .ok (instruction, middle))
      (runs : Runs pool middle instructions after) :
      Runs pool before (instruction :: instructions) after

namespace Runs

/-- The bytes passed on the way lead on it, whatever follows them. -/
theorem passes (runs : Runs pool before instructions after) :
    ∃ word, before.Passes word after ∧
      ∀ tail, Runs pool ⟨before.offset, word ++ tail⟩ instructions
        ⟨before.offset + word.length, tail⟩ := by
  induction runs with
  | done place => exact ⟨[], Cursor.passes_nil.mpr rfl, fun tail => .done _⟩
  | @step before middle after instruction instructions readEq _ ih =>
      obtain ⟨first, passesFirst, takesFirst⟩ := (sequential_read pool).takes readEq
      obtain ⟨second, passesSecond, runsSecond⟩ := ih
      refine ⟨first ++ second, Cursor.passes_append.mpr ⟨middle, passesFirst, passesSecond⟩, ?_⟩
      intro tail
      have runsRest := runsSecond tail
      rw [passesFirst.offset] at runsRest
      rw [List.append_assoc, List.length_append, ← Nat.add_assoc]
      exact .step (takesFirst.complete (second ++ tail)) runsRest

/-- No way leads on from a place where no instruction can be read. -/
theorem eq_of_fails (runs : Runs pool before instructions after)
    (failed : read pool before = .error error) : after = before ∧ instructions = [] := by
  cases runs with
  | done => exact ⟨rfl, rfl⟩
  | step readEq _ =>
      rw [failed] at readEq
      cases readEq

/-- Every way from a place leads on to where the instructions cannot be read. -/
theorem leadsOn {stuck : Cursor} {others : List Instruction}
    (runs : Runs pool before instructions stuck) (failed : read pool stuck = .error error)
    (runsOthers : Runs pool before others middle) :
    ∃ more, Runs pool middle more stuck ∧ instructions = others ++ more := by
  induction runsOthers generalizing instructions with
  | done place => exact ⟨instructions, runs, rfl⟩
  | @step before next middle other others readOther _ ih =>
      cases runs with
      | done =>
          rw [failed] at readOther
          cases readOther
      | @step _ _ _ instruction instructions readFirst runsRest =>
          rw [readOther] at readFirst
          cases readFirst
          obtain ⟨more, runsMore, instructionsEq⟩ := ih runsRest
          exact ⟨more, runsMore, by rw [instructionsEq, List.cons_append]⟩

end Runs

/-- Reading to the end of a region runs as far as instructions can be read, and fails
if that is not at the end.  The induction is on the bound, for every list of
instructions found before. -/
theorem readAllFrom_outcome (pool : ConstantPool) (bound : Nat) (found : List Instruction)
    (before : Cursor) (enough : before.rest.length ≤ bound) :
    ∃ instructions place, Runs pool before instructions place ∧
      (place.rest = [] ∧
          readAllFrom pool bound found before = .ok (found.reverse ++ instructions, place) ∨
        ∃ error, place.rest ≠ [] ∧ read pool place = .error error ∧
          readAllFrom pool bound found before = .error error) := by
  induction bound generalizing found before with
  | zero =>
      have atEnd : before.rest = [] := List.length_eq_zero_iff.mp (Nat.le_zero.mp enough)
      refine ⟨[], before, .done before, .inl ⟨atEnd, ?_⟩⟩
      rw [List.append_nil]
      rfl
  | succ bound ih =>
      rw [readAllFrom, Reader.atEnd_bind]
      by_cases atEnd : before.rest = []
      · refine ⟨[], before, .done before, .inl ⟨atEnd, ?_⟩⟩
        rw [atEnd, List.append_nil]
        rfl
      · rw [if_neg (mt List.isEmpty_iff.mp atEnd)]
        cases readFirst : read pool before with
        | error error =>
            exact ⟨[], before, .done before,
              .inr ⟨error, atEnd, readFirst, Reader.bind_of_error readFirst⟩⟩
        | ok pair =>
            obtain ⟨first, middle⟩ := pair
            have shorter := length_rest_lt_of_read_eq_ok readFirst
            obtain ⟨instructions, place, runs, outcome⟩ :=
              ih (first :: found) middle (by omega)
            refine ⟨first :: instructions, place, .step readFirst runs, ?_⟩
            rw [Reader.bind_of_ok readFirst]
            rwa [List.reverse_cons, List.append_assoc] at outcome

end Instruction

open Instruction

variable {pool : ConstantPool} {code decoded rest : List UInt8} {instructions : List Instruction}
  {error : DecodeError}

theorem decodeCode_outcome (pool : ConstantPool) (code : List UInt8) :
    ∃ instructions place, Runs pool (Cursor.start code) instructions place ∧
      (place.rest = [] ∧ decodeCode pool code = .ok instructions ∨
        ∃ error, place.rest ≠ [] ∧ read pool place = .error error ∧
          decodeCode pool code = .error error) := by
  obtain ⟨instructions, place, runs, outcome⟩ :=
    readAllFrom_outcome pool code.length [] (Cursor.start code) (Nat.le_refl _)
  refine ⟨instructions, place, runs, ?_⟩
  rcases outcome with ⟨atEnd, readAll⟩ | ⟨error, notAtEnd, failed, readAll⟩
  · exact .inl ⟨atEnd, Reader.within_eq_ok_iff.mpr ⟨place, readAll⟩⟩
  · exact .inr ⟨error, notAtEnd, failed, Reader.within_eq_error_iff.mpr readAll⟩

/-- The parts at the front of a code array that can be decoded alone are those that end
where an instruction starts. -/
theorem decodeCode_iff_runs (rest : List UInt8) :
    decodeCode pool decoded = .ok instructions ↔
      Runs pool (Cursor.start (decoded ++ rest)) instructions ⟨decoded.length, rest⟩ := by
  obtain ⟨found, place, runs, outcome⟩ := decodeCode_outcome pool decoded
  obtain ⟨word, passes, runsOn⟩ := runs.passes
  constructor
  · intro decodes
    rcases outcome with ⟨atEnd, foundEq⟩ | ⟨error, _, _, failed⟩
    · rw [decodes] at foundEq
      cases foundEq
      have wordEq : decoded = word := by
        have restEq := passes.rest
        rwa [atEnd, List.append_nil] at restEq
      rw [← wordEq] at runsOn
      have runsDecoded := runsOn rest
      rwa [Cursor.start, Nat.zero_add] at runsDecoded
    · rw [decodes] at failed
      cases failed
  · intro runsDecoded
    obtain ⟨passed, passesDecoded, runsAlone⟩ := runsDecoded.passes
    have passedEq : passed = decoded := (List.append_cancel_right passesDecoded.rest).symm
    have runsToEnd := runsAlone []
    rw [passedEq, List.append_nil] at runsToEnd
    -- Both ways end where nothing can be read, so they are the same.
    rcases outcome with ⟨atEnd, foundEq⟩ | ⟨error, notAtEnd, failed, _⟩
    · obtain ⟨more, runsMore, instructionsEq⟩ := runsToEnd.leadsOn (read_nil pool _) runs
      obtain ⟨_, moreEq⟩ := runsMore.eq_of_fails (read_of_atEnd atEnd)
      rw [instructionsEq, moreEq, List.append_nil]
      exact foundEq
    · obtain ⟨more, runsMore, _⟩ := runsToEnd.leadsOn (read_nil pool _) runs
      obtain ⟨placeEq, _⟩ := runsMore.eq_of_fails failed
      rw [← placeEq] at notAtEnd
      exact absurd rfl notAtEnd

/-- A code array is decoded up to some place, and the instruction there cannot be
read. -/
structure FailsAfter (pool : ConstantPool) (decoded rest : List UInt8) (error : DecodeError) :
    Prop where
  decodes : ∃ instructions, decodeCode pool decoded = .ok instructions
  fails : Instruction.read pool (Cursor.mk decoded.length rest) = .error error

namespace FailsAfter

theorem runs (failsAfter : FailsAfter pool decoded rest error) :
    ∃ instructions,
      Runs pool (Cursor.start (decoded ++ rest)) instructions ⟨decoded.length, rest⟩ := by
  obtain ⟨instructions, decodes⟩ := failsAfter.decodes
  exact ⟨instructions, (decodeCode_iff_runs rest).mp decodes⟩

/-- A code array fails as its first bad instruction does. -/
theorem decodeCode_eq (failsAfter : FailsAfter pool decoded rest error)
    (notAtEnd : rest ≠ []) : decodeCode pool (decoded ++ rest) = .error error := by
  obtain ⟨instructions, runsDecoded⟩ := failsAfter.runs
  obtain ⟨found, place, runs, outcome⟩ := decodeCode_outcome pool (decoded ++ rest)
  rcases outcome with ⟨atEnd, _⟩ | ⟨other, _, failed, decodeEq⟩
  · obtain ⟨more, runsMore, _⟩ := runs.leadsOn (read_of_atEnd atEnd) runsDecoded
    obtain ⟨placeEq, _⟩ := runsMore.eq_of_fails failsAfter.fails
    rw [placeEq] at atEnd
    exact absurd atEnd notAtEnd
  · obtain ⟨more, runsMore, _⟩ := runs.leadsOn failed runsDecoded
    obtain ⟨placeEq, _⟩ := runsMore.eq_of_fails failsAfter.fails
    rw [placeEq, failsAfter.fails] at failed
    rw [decodeEq, Except.error.inj failed]

/-- What can be decoded alone ends before the bad instruction. -/
theorem isPrefix_of_decodes (failsAfter : FailsAfter pool decoded rest error)
    {longer : List UInt8} (isPrefix : longer <+: decoded ++ rest)
    (decodes : decodeCode pool longer = .ok instructions) : longer <+: decoded := by
  obtain ⟨found, runs⟩ := failsAfter.runs
  obtain ⟨after, splitEq⟩ := isPrefix
  have runsLonger := (decodeCode_iff_runs after).mp decodes
  rw [splitEq] at runsLonger
  obtain ⟨more, runsMore, _⟩ := runs.leadsOn failsAfter.fails runsLonger
  obtain ⟨word, passes, _⟩ := runsMore.passes
  have lengthEq : decoded.length = longer.length + word.length := passes.offset
  rcases List.append_eq_append_iff.mp splitEq with ⟨between, decodedEq, _⟩ | ⟨between, longerEq, _⟩
  · exact ⟨between, decodedEq.symm⟩
  · rw [longerEq, List.length_append] at lengthEq
    have noneBetween : between = [] := List.length_eq_zero_iff.mp (by omega)
    exact ⟨[], by rw [longerEq, noneBetween, List.append_nil, List.append_nil]⟩

theorem unique (failsAfter : FailsAfter pool decoded rest error)
    {otherDecoded otherRest : List UInt8} {otherError : DecodeError}
    (otherFails : FailsAfter pool otherDecoded otherRest otherError)
    (splitEq : decoded ++ rest = otherDecoded ++ otherRest) :
    otherDecoded = decoded ∧ otherRest = rest := by
  obtain ⟨instructions, decodes⟩ := failsAfter.decodes
  obtain ⟨others, otherDecodes⟩ := otherFails.decodes
  have within : otherDecoded <+: decoded := by
    refine failsAfter.isPrefix_of_decodes ?_ otherDecodes
    rw [splitEq]
    exact List.prefix_append _ _
  have around : decoded <+: otherDecoded := by
    refine otherFails.isPrefix_of_decodes ?_ decodes
    rw [← splitEq]
    exact List.prefix_append _ _
  have decodedEq : otherDecoded = decoded := within.eq_of_length_le around.length_le
  rw [decodedEq] at splitEq
  exact ⟨decodedEq, (List.append_cancel_left splitEq).symm⟩

end FailsAfter

theorem exists_failsAfter (failed : decodeCode pool code = .error error) :
    ∃ decoded rest, code = decoded ++ rest ∧ FailsAfter pool decoded rest error := by
  obtain ⟨found, place, runs, outcome⟩ := decodeCode_outcome pool code
  rcases outcome with ⟨_, decodeEq⟩ | ⟨other, _, failedHere, decodeEq⟩
  · rw [failed] at decodeEq
    cases decodeEq
  · rw [failed] at decodeEq
    cases decodeEq
    obtain ⟨decoded, passes, _⟩ := runs.passes
    have codeEq : code = decoded ++ place.rest := passes.rest
    have placeEq : place = ⟨decoded.length, place.rest⟩ := by
      have offsetEq := passes.offset
      rw [Cursor.start, Nat.zero_add] at offsetEq
      rw [← offsetEq]
    refine ⟨decoded, place.rest, codeEq, ⟨found, ?_⟩, ?_⟩
    · refine (decodeCode_iff_runs place.rest).mpr ?_
      rwa [← codeEq, ← placeEq]
    · rwa [← placeEq]

/-- The opcode at a position of a code array is wrong in the instruction that starts
at another: there is no such opcode, or it stands behind a `wide`, before two more
bytes, and cannot be widened. -/
def BlamesOpcode (code : List UInt8) (start : Nat) (opcode : UInt8) (position : Nat) : Prop :=
  code[position]? = some opcode ∧
    (position = start ∧ 0xC9 < opcode ∨
      code[start]? = some Mnemonic.wide.opcode ∧ position = start + 1 ∧
        position + 2 < code.length ∧ opcode ∉ Mnemonic.widenable.map Mnemonic.opcode)

theorem blamesOpcode_iff_read {opcode : UInt8} {position : Nat} :
    BlamesOpcode (decoded ++ rest) decoded.length opcode position ↔
      Instruction.read pool (Cursor.mk decoded.length rest) =
        .error (.invalidOpcode opcode position) := by
  rw [Instruction.read_eq_invalidOpcode_iff, BlamesOpcode]
  have atStart : (decoded ++ rest)[decoded.length]? = rest[0]? := by
    rw [List.getElem?_append_right (Nat.le_refl _), Nat.sub_self]
  have atNext : (decoded ++ rest)[decoded.length + 1]? = rest[1]? := by
    rw [List.getElem?_append_right (by omega), Nat.add_sub_cancel_left]
  constructor
  · rintro ⟨found, ⟨rfl, above⟩ | ⟨isWide, rfl, enough, cannotWiden⟩⟩
    · rw [atStart, ← List.head?_eq_getElem?, List.head?_eq_some_iff] at found
      obtain ⟨tail, restEq⟩ := found
      exact .inl ⟨tail, restEq, rfl, above⟩
    · rw [atStart] at isWide
      rw [atNext] at found
      rw [List.length_append] at enough
      match rest with
      | [] | [_] | [_, _] | [_, _, _] =>
          simp only [List.length_cons, List.length_nil] at enough
          omega
      | wide :: widened :: first :: second :: tail =>
          cases isWide
          cases found
          exact .inr ⟨first, second, tail, rfl, rfl, cannotWiden⟩
  · rintro (⟨tail, rfl, rfl, above⟩ | ⟨first, second, tail, rfl, rfl, cannotWiden⟩)
    · exact ⟨atStart, .inl ⟨rfl, above⟩⟩
    · refine ⟨atNext, .inr ⟨atStart, rfl, ?_, cannotWiden⟩⟩
      simp only [List.length_append, List.length_cons]
      omega

/-- The bytes of the bad instruction, as far as they are read, decide about the code
array.  A part of them is too short, and what follows them does not matter, unless
they are missing bytes and nothing follows. -/
theorem FailsAfter.exists_word (failsAfter : FailsAfter pool decoded rest error) :
    ∃ word tail, rest = word ++ tail ∧
      (∀ count, 0 < count → count < word.length → ∃ place missing,
        decodeCode pool (decoded ++ word.take count) = .error (.unexpectedEnd place missing)) ∧
      (error.IsEnd ∧ tail = [] ∨
        ¬error.IsEnd ∧ ∀ other, decodeCode pool (decoded ++ (word ++ other)) = .error error) := by
  obtain ⟨word, tail, restEq, endsWith, breaks⟩ :=
    (sequential_read pool).breaks failsAfter.fails
  refine ⟨word, tail, restEq, ?_, ?_⟩
  · intro count positive short
    obtain ⟨_, ⟨place, missing, rfl⟩, failed⟩ := breaks.truncated short
    have someTaken : word.take count ≠ [] := by
      rw [Ne, List.take_eq_nil_iff, not_or]
      exact ⟨Nat.ne_of_gt positive, fun wordEq => by simp [wordEq] at short⟩
    exact ⟨place, missing, FailsAfter.decodeCode_eq ⟨failsAfter.decodes, failed⟩ someTaken⟩
  · by_cases isEnd : error.IsEnd
    · exact .inl ⟨isEnd, endsWith isEnd⟩
    · refine .inr ⟨isEnd, ?_⟩
      intro other
      have failed : read pool (Cursor.mk decoded.length (word ++ other)) = .error error :=
        breaks.complete fun atEnd => absurd atEnd isEnd
      have someLeft : word ++ other ≠ [] := by
        intro noneLeft
        rw [noneLeft, read_nil] at failed
        exact isEnd ⟨decoded.length, 1, (Except.error.inj failed).symm⟩
      exact FailsAfter.decodeCode_eq ⟨failsAfter.decodes, failed⟩ someLeft

/-- A code array that cannot be decoded is split in just one way into a part that can
be and an instruction with the error of the array.  No longer part can be decoded.
The error blames an opcode exactly if it is wrong in that instruction, and it depends
on no byte after those of the instruction that are read. -/
theorem decodeCode_fails_at_first_bad (pool : ConstantPool) (code : List UInt8) :
    (∀ error, decodeCode pool code = .error error →
      (∃! split : List UInt8 × List UInt8,
        code = split.1 ++ split.2 ∧ FailsAfter pool split.1 split.2 error) ∧
      ∀ decoded rest, code = decoded ++ rest → FailsAfter pool decoded rest error →
        (∀ longer instructions, longer <+: code → decodeCode pool longer = .ok instructions →
          longer <+: decoded) ∧
        (∀ opcode position, error = .invalidOpcode opcode position →
          BlamesOpcode code decoded.length opcode position) ∧
        ∃ word tail, rest = word ++ tail ∧
          (∀ count, 0 < count → count < word.length → ∃ place missing,
            decodeCode pool (decoded ++ word.take count) =
              .error (.unexpectedEnd place missing)) ∧
          (error.IsEnd ∧ tail = [] ∨
            ¬error.IsEnd ∧
              ∀ other, decodeCode pool (decoded ++ (word ++ other)) = .error error)) ∧
    ∀ decoded rest instructions opcode position, code = decoded ++ rest →
      decodeCode pool decoded = .ok instructions →
      BlamesOpcode code decoded.length opcode position →
        decodeCode pool code = .error (.invalidOpcode opcode position) := by
  constructor
  · intro error failed
    constructor
    · obtain ⟨decoded, rest, rfl, failsAfter⟩ := exists_failsAfter failed
      refine ⟨(decoded, rest), ⟨rfl, failsAfter⟩, ?_⟩
      rintro ⟨otherDecoded, otherRest⟩ ⟨splitEq, otherFails⟩
      obtain ⟨decodedEq, restEq⟩ := failsAfter.unique otherFails splitEq
      exact Prod.ext decodedEq restEq
    · rintro decoded rest rfl failsAfter
      refine ⟨?_, ?_, failsAfter.exists_word⟩
      · intro longer instructions isPrefix decodes
        exact failsAfter.isPrefix_of_decodes isPrefix decodes
      · rintro opcode position rfl
        exact blamesOpcode_iff_read.mpr failsAfter.fails
  · rintro decoded rest instructions opcode position rfl decodes blames
    have failed : Instruction.read pool (Cursor.mk decoded.length rest) =
        .error (.invalidOpcode opcode position) := blamesOpcode_iff_read.mp blames
    have notAtEnd : rest ≠ [] := by
      rintro rfl
      cases failed
    exact FailsAfter.decodeCode_eq ⟨⟨instructions, decodes⟩, failed⟩ notAtEnd

/-- A code array with an instruction that cannot be widened, and some bytes after it. -/
def strayWide : List UInt8 :=
  [0x00, 0xC4, 0x60, 0x00, 0x01, 0xFE]

theorem decodeCode_fails_at_first_bad_strayWide :
    decodeCode ⟨#[none]⟩ strayWide = .error (.invalidOpcode 0x60 2) ∧
    FailsAfter ⟨#[none]⟩ [0x00] [0xC4, 0x60, 0x00, 0x01, 0xFE] (.invalidOpcode 0x60 2) ∧
    (∃! split : List UInt8 × List UInt8, strayWide = split.1 ++ split.2 ∧
      FailsAfter ⟨#[none]⟩ split.1 split.2 (.invalidOpcode 0x60 2)) ∧
    BlamesOpcode strayWide 1 0x60 2 := by
  have failed : decodeCode ⟨#[none]⟩ strayWide = .error (.invalidOpcode 0x60 2) := by
    decide +kernel
  have decodes : decodeCode ⟨#[none]⟩ [0x00] = .ok [.simple 0x00] := by decide +kernel
  have failsAfter : FailsAfter ⟨#[none]⟩ [0x00] [0xC4, 0x60, 0x00, 0x01, 0xFE]
      (.invalidOpcode 0x60 2) := ⟨⟨_, decodes⟩, by decide +kernel⟩
  obtain ⟨unique, located⟩ := (decodeCode_fails_at_first_bad ⟨#[none]⟩ strayWide).1 _ failed
  have blames := (located [0x00] _ rfl failsAfter).2.1 0x60 2 rfl
  have failsAgain := (decodeCode_fails_at_first_bad ⟨#[none]⟩ strayWide).2 [0x00] _ _ 0x60 2 rfl
    decodes blames
  exact ⟨failsAgain, failsAfter, unique, blames⟩

end ClassLint
