import ClassLint.Proofs.BrokenCode
import ClassLint.Proofs.DecodedClasses
import ClassLint.Proofs.WordAgreement

/-!
# Words are wide enough

On short files, decoding with machine words is compared with decoding with plain numbers.
No number leaves its bounds but the target of a branch with a 32-bit distance.  Where such
targets are not checked the results are the same.  Where they are, the decoder gets as far
as the first branch that leads too far.
-/

namespace ClassLint

/-! ## Branches that lead too far -/

namespace Instruction

variable {pool : ConstantPool}

/-- A branch over a distance of 32 bits stands at a place of a code array and leads too
far. -/
def FarAt (place : Cursor) : Prop :=
  ∃ (mnemonic : Mnemonic) (distance : Int32) (after : List UInt8),
    mnemonic.layout = .longBranch ∧
      place.rest = mnemonic.opcode :: wordBytes distance ++ after ∧
      0x7FFFFFFF < place.offset + distance.toInt

/-- From a place on, instructions are read up to a branch that leads too far. -/
def FarAhead (pool : ConstantPool) (place : Cursor) : Prop :=
  ∃ instructions there, Runs pool place instructions there ∧ FarAt there

theorem not_farAt_of_atEnd {place : Cursor} (atEnd : place.rest = []) : ¬FarAt place := by
  rintro ⟨mnemonic, distance, after, _, restEq, _⟩
  rw [atEnd] at restEq
  cases restEq

theorem farAt_cons_iff {position : Nat} {opcode : UInt8} {rest : List UInt8} :
    FarAt ⟨position, opcode :: rest⟩ ↔
      OperandLayout.ofOpcode? opcode = some .longBranch ∧
        ∃ distance after, rest = wordBytes distance ++ after ∧
          0x7FFFFFFF < position + distance.toInt := by
  rw [Mnemonic.ofOpcode?_eq_some_iff]
  constructor
  · rintro ⟨mnemonic, distance, after, isLong, restEq, far⟩
    obtain ⟨rfl, rfl⟩ := List.cons.inj restEq
    exact ⟨⟨mnemonic, rfl, isLong⟩, distance, after, rfl, far⟩
  · rintro ⟨⟨mnemonic, rfl, isLong⟩, distance, after, rfl, far⟩
    exact ⟨mnemonic, distance, after, isLong, rfl, far⟩

/-- What cannot be read leads to no branch. -/
theorem FarAhead.farAt_of_fails {place : Cursor} {error : DecodeError}
    (ahead : FarAhead pool place) (failed : read pool place = .error error) : FarAt place := by
  obtain ⟨instructions, there, runs, far⟩ := ahead
  obtain ⟨rfl, _⟩ := runs.eq_of_fails failed
  exact far

theorem farAhead_iff_of_read {place middle : Cursor} {instruction : Instruction}
    (readEq : read pool place = .ok (instruction, middle)) :
    FarAhead pool place ↔ FarAt place ∨ FarAhead pool middle := by
  constructor
  · rintro ⟨instructions, there, runs, far⟩
    cases runs with
    | done => exact .inl far
    | step readFirst runs =>
        rw [readEq] at readFirst
        cases readFirst
        exact .inr ⟨_, there, runs, far⟩
  · rintro (far | ⟨instructions, there, runs, far⟩)
    · exact ⟨[], place, .done place, far⟩
    · exact ⟨instruction :: instructions, there, .step readEq runs, far⟩

theorem farBranch_iff_farAhead {code : List UInt8} :
    FarBranch pool code ↔ FarAhead pool (Cursor.start code) := by
  constructor
  · rintro ⟨decoded, isLong, rfl, far⟩
    exact ⟨_, _, (decodeCode_iff_runs _).mp decoded, _, _, _, isLong, rfl, far⟩
  · rintro ⟨instructions, ⟨position, rest⟩, runs, mnemonic, distance, after, isLong, rfl, far⟩
    obtain ⟨before, passes, _⟩ := runs.passes
    have codeEq : code = before ++ (mnemonic.opcode :: wordBytes distance ++ after) :=
      passes.rest
    have positionEq : position = before.length := by
      have offsetEq := passes.offset
      rwa [Cursor.start, Nat.zero_add] at offsetEq
    rw [positionEq, codeEq] at runs
    rw [positionEq] at far
    exact .intro ((decodeCode_iff_runs _).mpr runs) isLong codeEq far

end Instruction

/-! ## Code arrays -/

/-- A result is halted by a target exactly under a condition, and is exact otherwise. -/
def FollowsUnless {α β : Type} (halts : Prop) (alike : α → β → Prop) (result : Except Halt α)
    (expected : Except DecodeError β) : Prop :=
  halts ∧ (∃ target, Operation.longTarget.greatest < target ∧
    result = .error (.outOfRange .longTarget target)) ∨
  ¬halts ∧ Follows False False alike result expected

/-- A wrapped target is the same word of 32 bits. -/
theorem Operation.ofInt_wrap_longTarget (target : Int) :
    Int32.ofInt (Operation.longTarget.wrap target) = Int32.ofInt target := by
  rw [← Int32.toInt_inj, Int32.toInt_ofInt, Int32.toInt_ofInt]
  have size : (2147483647 - -2147483648 + 1 : Int) = 4294967296 := rfl
  simp only [Operation.wrap, Operation.least, Operation.greatest, size, Int.bmod, Int32.size]
  omega

namespace Opcode

/-- Whether the variable that a layout implies is counted from the first opcode of its
group. -/
def countsFromFirst (opcode : UInt8) : OperandLayout → Bool
  | .impliedVariable index =>
      (firstOfGroup opcode).toNat ≤ opcode.toNat &&
        index == UInt16.ofNat ((opcode.toNat - (firstOfGroup opcode).toNat) % 4)
  | _ => true

theorem countsFromFirst_ofOpcode? (opcode : UInt8) :
    (OperandLayout.ofOpcode? opcode).all (countsFromFirst opcode) = true := by
  revert opcode
  exact Mnemonic.forall_byte (by decide +kernel)

theorem impliedVariable_eq {opcode : UInt8} {index : UInt16}
    (found : OperandLayout.ofOpcode? opcode = some (.impliedVariable index)) :
    (firstOfGroup opcode).toNat ≤ opcode.toNat ∧
      index = UInt16.ofNat ((opcode.toNat - (firstOfGroup opcode).toNat) % 4) := by
  have counts := countsFromFirst_ofOpcode? opcode
  rw [found, Option.all_some, countsFromFirst, Bool.and_eq_true, decide_eq_true_iff,
    beq_iff_eq] at counts
  exact counts

end Opcode

namespace Machine

variable {checks : Operation → Bool} {pool : ConstantPool} {position : Nat} {opcode : UInt8}

theorem exact_readShortBranch (inside : position < 2 ^ 31 - 2 ^ 15) :
    Exact (Instruction.readOperands pool position opcode .shortBranch : Machine checks Instruction)
      (Instruction.readOperands pool position opcode .shortBranch) fun _ => True := by
  have originAllowed : Operation.branchOrigin.Allows position := by
    simp only [Operation.Allows, Operation.least, Operation.greatest]
    omega
  apply agrees_compute_bind originAllowed
  apply exact_i16.bind
  intro distance _
  have above := distance.le_toInt
  have below := distance.toInt_lt
  have targetAllowed : Operation.shortTarget.Allows (position + distance.toInt) := by
    simp only [Operation.Allows, Operation.least, Operation.greatest]
    omega
  exact agrees_compute_bind targetAllowed (agrees_pure trivial)

theorem exact_readTableSwitch :
    Exact (Instruction.readOperands pool position opcode .tableSwitch : Machine checks Instruction)
      (Instruction.readOperands pool position opcode .tableSwitch) fun _ => True := by
  apply exact_alignToFour.bind
  intro _ _
  apply exact_i32.bind
  intro fallback _
  apply exact_i32.bind
  intro low _
  apply exact_i32.bind
  intro high _
  by_cases disordered : high < low
  · rw [if_pos disordered, if_pos disordered]
    exact agrees_fail _
  · rw [if_neg disordered, if_neg disordered]
    have ordered : low.toInt ≤ high.toInt := by
      rw [Int32.lt_iff_toInt_lt] at disordered
      omega
    have lowAbove := low.le_toInt
    have highBelow := high.toInt_lt
    have spanAllowed : Operation.tableSpan.Allows (high.toInt - low.toInt) := by
      simp only [Operation.Allows, Operation.least, Operation.greatest]
      omega
    have entriesAllowed : Operation.tableEntries.Allows (high.toInt - low.toInt + 1) := by
      simp only [Operation.Allows, Operation.least, Operation.greatest]
      omega
    have lengthAllowed : Operation.tableLength.Allows ((high.toInt - low.toInt + 1) * 4) := by
      simp only [Operation.Allows, Operation.least, Operation.greatest]
      omega
    apply agrees_compute_bind spanAllowed
    apply agrees_compute_bind entriesAllowed
    apply agrees_compute_bind lengthAllowed
    exact (exact_bytes (by omega)).map _

theorem exact_readLookupSwitch :
    Exact (Instruction.readOperands pool position opcode .lookupSwitch : Machine checks Instruction)
      (Instruction.readOperands pool position opcode .lookupSwitch) fun _ => True := by
  apply exact_alignToFour.bind
  intro _ _
  apply exact_i32.bind
  intro fallback _
  apply exact_i32.bind
  intro pairs _
  by_cases negative : pairs < 0
  · rw [if_pos negative, if_pos negative]
    exact agrees_fail _
  · rw [if_neg negative, if_neg negative]
    have atLeast : 0 ≤ pairs.toInt := by
      rw [Int32.lt_iff_toInt_lt, Int32.toInt_zero] at negative
      omega
    have below := pairs.toInt_lt
    have countAllowed : Operation.pairCount.Allows pairs.toInt := by
      simp only [Operation.Allows, Operation.least, Operation.greatest]
      omega
    have lengthAllowed : Operation.pairsLength.Allows (pairs.toInt * 8) := by
      simp only [Operation.Allows, Operation.least, Operation.greatest]
      omega
    apply agrees_compute_bind countAllowed
    apply agrees_compute_bind lengthAllowed
    exact (exact_bytes (by omega)).map _

theorem exact_readWidened (inside : position < 2 ^ 31 - 2 ^ 15) :
    Exact (Instruction.readOperands pool position opcode .widened : Machine checks Instruction)
      (Instruction.readOperands pool position opcode .widened) fun _ => True := by
  apply exact_u8.bind
  intro widened _
  apply exact_u16.bind
  intro index _
  by_cases increments : widened = Opcode.iinc
  · rw [if_pos increments, if_pos increments]
    exact exact_i16.map _
  · rw [if_neg increments, if_neg increments]
    by_cases accesses : Opcode.hasVariableOperand widened = true
    · rw [if_pos accesses, if_pos accesses]
      exact agrees_pure trivial
    · rw [if_neg accesses, if_neg accesses]
      have allowed : Operation.nextPosition.Allows (position + 1) := by
        simp only [Operation.Allows, Operation.least, Operation.greatest]
        omega
      exact agrees_compute_bind allowed (agrees_fail _)

theorem exact_readOperands {layout : OperandLayout}
    (found : OperandLayout.ofOpcode? opcode = some layout) (notLong : layout ≠ .longBranch)
    (inside : position < 2 ^ 31 - 2 ^ 15) :
    Exact (Instruction.readOperands pool position opcode layout : Machine checks Instruction)
      (Instruction.readOperands pool position opcode layout) fun _ => True := by
  cases layout with
  | empty => exact agrees_pure trivial
  | byteImmediate => exact exact_i8.map _
  | shortImmediate => exact exact_i16.map _
  | shortConstant => exact exact_u8.bind fun _ _ => (exact_lift _).map _
  | longConstant | classReference => exact exact_u16.bind fun _ _ => (exact_lift _).map _
  | field | method => exact exact_u16.bind fun _ _ => (exact_lift _).map _
  | localVariable | primitiveType => exact exact_u8.map _
  | impliedVariable index =>
      have inGroup := (Opcode.impliedVariable_eq found).1
      have below := opcode.toNat_lt
      have allowed : Operation.impliedVariable.Allows
          (opcode.toNat - (Opcode.firstOfGroup opcode).toNat) := by
        simp only [Operation.Allows, Operation.least, Operation.greatest]
        omega
      exact agrees_compute_bind allowed (agrees_pure trivial)
  | increment => exact exact_u8.bind fun _ _ => exact_i8.map _
  | shortBranch => exact exact_readShortBranch inside
  | longBranch => exact absurd rfl notLong
  | tableSwitch => exact exact_readTableSwitch
  | lookupSwitch => exact exact_readLookupSwitch
  | interfaceMethod =>
      apply exact_u16.bind
      intro slot _
      apply (exact_lift _).bind
      intro member _
      exact exact_u8.bind fun _ _ => exact_u8.map _
  | dynamicCall => exact exact_u16.bind fun _ _ => (exact_bytes (by omega)).map _
  | arrayClass =>
      apply exact_u16.bind
      intro slot _
      apply (exact_lift _).bind
      intro typeName _
      exact exact_u8.map _
  | widened => exact exact_readWidened inside

/-- The target of a branch halts the decoder exactly if it is too far and targets are
checked.  Otherwise it is the same word of 32 bits. -/
theorem jump_followsUnless {target : Int} (above : Operation.longTarget.least ≤ target)
    {region : Region checks} (sound : region.Sound) :
    FollowsUnless (checks .longTarget = true ∧ Operation.longTarget.greatest < target)
      (Alike fun _ => True)
      ((do
        let found ← Reader.compute .longTarget target
        return .jump opcode (Int32.ofInt found) : Machine checks Instruction) region)
      ((pure (.jump opcode (Int32.ofInt target)) : Reader Instruction) region.cursor) := by
  by_cases far : Operation.longTarget.greatest < target
  · have outside : ¬Operation.longTarget.Allows target := fun allowed =>
      absurd allowed.2 (Int.not_le.mpr far)
    cases checked : checks .longTarget with
    | true =>
        have computed : Source.compute region .longTarget target =
            .error (.outOfRange .longTarget target) := by
          change Region.compute region .longTarget target = _
          rw [Region.compute, if_neg outside, if_pos checked]
        have halted : Reader.compute .longTarget target region =
            .error (.outOfRange .longTarget target) := by
          rw [Reader.compute, computed]
        exact .inl ⟨⟨rfl, far⟩, target, far, Reader.bind_of_error halted⟩
    | false =>
        have computed : Source.compute region .longTarget target =
            .ok (Operation.longTarget.wrap target) := by
          change Region.compute region .longTarget target = _
          rw [Region.compute, if_neg outside, if_neg (by simp [checked])]
        have wrapped : Reader.compute .longTarget target region =
            .ok (Operation.longTarget.wrap target, region) := by
          rw [Reader.compute, computed]
        refine .inr ⟨by simp, ?_⟩
        rw [Reader.bind_of_ok wrapped, Operation.ofInt_wrap_longTarget]
        exact .ok ⟨rfl, trivial, sound⟩
  · refine .inr ⟨fun halts => far halts.2, ?_⟩
    rw [compute_bind ⟨above, Int.not_lt.mp far⟩]
    exact .ok ⟨rfl, trivial, sound⟩

theorem readLongBranch_followsUnless (inside : position < 2 ^ 31 - 2 ^ 15)
    {region : Region checks} (sound : region.Sound) :
    FollowsUnless
      (checks .longTarget = true ∧ ∃ distance after,
        region.cursor.rest = wordBytes distance ++ after ∧
          0x7FFFFFFF < position + distance.toInt)
      (Alike fun _ => True)
      (Instruction.readOperands pool position opcode .longBranch region)
      (Instruction.readOperands pool position opcode .longBranch region.cursor) := by
  have originAllowed : Operation.branchOrigin.Allows position := by
    simp only [Operation.Allows, Operation.least, Operation.greatest]
    omega
  have isDistance (distance : Int32) (after : List UInt8)
      (restEq : region.cursor.rest = wordBytes distance ++ after) :
      Reader.i32 region.cursor = .ok (distance, ⟨region.cursor.offset + 4, after⟩) :=
    Reader.i32_eq_ok_iff.mpr ⟨restEq, by simp [length_bigEndianBytes]⟩
  rw [Instruction.readOperands, compute_bind originAllowed, Instruction.readOperands_longBranch]
  rcases (exact_i32 region sound).outcome with
    ⟨⟨distance, after⟩, _, ⟨rfl, _, afterSound⟩, readEq, expectedEq⟩ | ⟨error, readEq, expectedEq⟩
  · have isFar : (∃ distance after, region.cursor.rest = wordBytes distance ++ after ∧
        0x7FFFFFFF < position + distance.toInt) ↔ 0x7FFFFFFF < position + distance.toInt := by
      constructor
      · rintro ⟨other, rest, restEq, far⟩
        have otherEq := isDistance other rest restEq
        rw [expectedEq] at otherEq
        have distanceEq : distance = other := congrArg Prod.fst (Except.ok.inj otherEq)
        rwa [distanceEq]
      · intro far
        exact ⟨distance, _, (Reader.i32_eq_ok_iff.mp expectedEq).rest, far⟩
    have above : Operation.longTarget.least ≤ position + distance.toInt := by
      have := distance.le_toInt
      simp only [Operation.least]
      omega
    rw [Reader.bind_of_ok expectedEq, Reader.bind_of_ok readEq, isFar]
    exact jump_followsUnless above afterSound
  · refine .inr ⟨?_, ?_⟩
    · rintro ⟨_, distance, rest, restEq, _⟩
      rw [isDistance distance rest restEq] at expectedEq
      cases expectedEq
    · rw [Reader.bind_of_error expectedEq, Reader.bind_of_error readEq]
      exact .rejected error

theorem read_followsUnless (pool : ConstantPool) {region : Region checks} (sound : region.Sound) :
    FollowsUnless (checks .longTarget = true ∧ Instruction.FarAt region.cursor)
      (Alike fun _ => True)
      (Instruction.read pool region) (Instruction.read pool region.cursor) := by
  have inside : region.position < 2 ^ 31 - 2 ^ 15 :=
    Nat.lt_of_le_of_lt sound.inside sound.short
  unfold Instruction.read
  rw [offset_bind, Reader.offset_bind]
  rcases (exact_u8 region sound).outcome with
    ⟨⟨opcode, after⟩, _, ⟨rfl, _, afterSound⟩, readEq, expectedEq⟩ | ⟨error, readEq, expectedEq⟩
  · rw [Reader.bind_of_ok expectedEq, Reader.bind_of_ok readEq]
    have restEq : region.cursor = ⟨region.position, opcode :: after.cursor.rest⟩ :=
      congrArg (Cursor.mk region.position) (Reader.u8_eq_ok_iff.mp expectedEq).rest
    rw [restEq, Instruction.farAt_cons_iff]
    dsimp only
    cases found : OperandLayout.ofOpcode? opcode with
    | none => exact .inr ⟨by simp, .rejected _⟩
    | some layout =>
        by_cases isLong : layout = .longBranch
        · subst isLong
          rw [and_iff_right rfl]
          exact readLongBranch_followsUnless inside afterSound
        · refine .inr ⟨by simp [isLong], ?_⟩
          exact exact_readOperands found isLong inside after afterSound
  · refine .inr ⟨?_, ?_⟩
    · rintro ⟨_, mnemonic, distance, rest, _, restEq, _⟩
      have readOpcode : Reader.u8 region.cursor =
          .ok (mnemonic.opcode, ⟨region.cursor.offset + 1, wordBytes distance ++ rest⟩) :=
        Reader.u8_eq_ok_iff.mpr ⟨restEq, rfl⟩
      rw [expectedEq] at readOpcode
      cases readOpcode
    · rw [Reader.bind_of_error expectedEq, Reader.bind_of_error readEq]
      exact .rejected error

/-- Reading to the end of a region is halted exactly if a branch ahead leads too far and
targets are checked.  The induction is on the bound, for every list of instructions found
before. -/
theorem readAllFrom_followsUnless (pool : ConstantPool) (bound : Nat) (found : List Instruction)
    {region : Region checks} (sound : region.Sound)
    (enough : region.cursor.rest.length ≤ bound) :
    FollowsUnless (checks .longTarget = true ∧ Instruction.FarAhead pool region.cursor)
      (Alike fun _ => True)
      (Instruction.readAllFrom pool bound found region)
      (Instruction.readAllFrom pool bound found region.cursor) := by
  have notAhead {place : Cursor} (atEnd : place.rest = []) : ¬Instruction.FarAhead pool place :=
    fun ahead => Instruction.not_farAt_of_atEnd atEnd
      (ahead.farAt_of_fails (Instruction.read_of_atEnd atEnd))
  induction bound generalizing found region with
  | zero =>
      have atEnd := List.length_eq_zero_iff.mp (Nat.le_zero.mp enough)
      exact .inr ⟨fun halts => notAhead atEnd halts.2, .ok ⟨rfl, trivial, sound⟩⟩
  | succ bound ih =>
      rw [Instruction.readAllFrom, Instruction.readAllFrom, atEnd_bind, Reader.atEnd_bind]
      by_cases atEnd : region.cursor.rest = []
      · rw [List.isEmpty_iff.mpr atEnd]
        exact .inr ⟨fun halts => notAhead atEnd halts.2, .ok ⟨rfl, trivial, sound⟩⟩
      · rw [if_neg (mt List.isEmpty_iff.mp atEnd), if_neg (mt List.isEmpty_iff.mp atEnd)]
        rcases read_followsUnless pool sound with
          ⟨⟨checked, far⟩, target, outside, halted⟩ | ⟨notFar, follows⟩
        · exact .inl ⟨⟨checked, [], _, .done _, far⟩, target, outside,
            Reader.bind_of_error halted⟩
        · rcases follows.outcome with
            ⟨⟨first, middle⟩, _, ⟨rfl, _, middleSound⟩, readEq, expectedEq⟩ |
              ⟨error, readEq, expectedEq⟩
          · rw [Reader.bind_of_ok expectedEq, Reader.bind_of_ok readEq,
              Instruction.farAhead_iff_of_read expectedEq]
            have shorter := Instruction.length_rest_lt_of_read_eq_ok expectedEq
            rcases ih (first :: found) middleSound (by omega) with
              ⟨⟨checked, ahead⟩, stops⟩ | ⟨notAhead, follows⟩
            · exact .inl ⟨⟨checked, .inr ahead⟩, stops⟩
            · refine .inr ⟨?_, follows⟩
              rintro ⟨checked, far | ahead⟩
              · exact notFar ⟨checked, far⟩
              · exact notAhead ⟨checked, ahead⟩
          · refine .inr ⟨?_, ?_⟩
            · rintro ⟨checked, ahead⟩
              exact notFar ⟨checked, ahead.farAt_of_fails expectedEq⟩
            · rw [Reader.bind_of_error expectedEq, Reader.bind_of_error readEq]
              exact .rejected error

theorem decodeCode_followsUnless (pool : ConstantPool) {code : List UInt8}
    (short : code.length < 2 ^ 31 - 2 ^ 15) :
    FollowsUnless (checks .longTarget = true ∧ Instruction.FarBranch pool code)
      (fun value found => found = value ∧ True) (decodeCode checks pool code)
      (ClassLint.decodeCode pool code) := by
  have sound : (Region.mk code 0 : Region checks).Sound := ⟨Nat.zero_le _, short⟩
  rw [Instruction.farBranch_iff_farAhead]
  rcases readAllFrom_followsUnless pool code.length [] sound (Nat.le_refl _) with
    ⟨halts, target, outside, halted⟩ | ⟨notHalts, follows⟩
  · have stops : Instruction.readAllFrom pool code.length []
        (Source.start code : Region checks) = .error (.outOfRange .longTarget target) := halted
    exact .inl ⟨halts, target, outside, by rw [decodeCode, Reader.within, stops]⟩
  · exact .inr ⟨notHalts, follows_within follows⟩

theorem follows_decodeCode (pool : ConstantPool) {code : List UInt8}
    (short : code.length < 2 ^ 31 - 2 ^ 15) :
    Follows (checks .longTarget = true) False (fun value found => found = value ∧ True)
      (decodeCode checks pool code) (ClassLint.decodeCode pool code) := by
  rcases decodeCode_followsUnless pool short with
    ⟨⟨checked, _⟩, target, outside, halted⟩ | ⟨_, follows⟩
  · rw [halted]
    exact .beyond checked outside False.elim
  · exact follows.weaken

open Classical in
/-- Decoding that gives nothing if a branch leads too far.  The error does not matter. -/
noncomputable def decodeNear (halts : Prop) (pool : ConstantPool) (code : List UInt8) :
    Except DecodeError (List Instruction) :=
  if halts ∧ Instruction.FarBranch pool code then .error (.malformed .constantPool)
  else ClassLint.decodeCode pool code

theorem decodeNear_decodesBy (build : Build) :
    build.DecodesBy (decodeNear (build = .checked)) := by
  intro pool code instructions
  unfold decodeNear
  split
  next halts =>
    constructor
    · intro failed
      cases failed
    · rintro ⟨_, near⟩
      exact absurd halts.2 (near halts.1)
  next near =>
    rw [not_and] at near
    exact (and_iff_left near).symm

theorem follows_decodeNear (pool : ConstantPool) {code : List UInt8}
    (short : code.length < 2 ^ 31 - 2 ^ 15) :
    Follows (checks .longTarget = true) True (fun value found => found = value ∧ True)
      (decodeCode checks pool code) (decodeNear (checks .longTarget = true) pool code) := by
  unfold decodeNear
  rcases decodeCode_followsUnless pool short with
    ⟨halts, target, outside, halted⟩ | ⟨near, follows⟩
  · rw [halted, if_pos halts]
    exact .beyond halts.1 outside (by simp)
  · rw [if_neg near]
    exact follows.weaken

/-! ## Classes -/

section Classes

variable {α : Type} {halts strict : Prop}

theorem agrees_readAttributesFrom {readBody : String → α → Machine checks α}
    {expectedBody : String → α → Reader α}
    (agrees : ∀ name collected, Agrees halts strict (readBody name collected)
      (expectedBody name collected) fun _ => True)
    (count : Nat) (collected : α) :
    Agrees halts strict (ClassFile.readAttributesFrom pool readBody count collected)
      (ClassFile.readAttributesFrom pool expectedBody count collected) fun _ => True := by
  induction count generalizing collected with
  | zero => exact agrees_pure trivial
  | succ count ih =>
      apply exact_u16.bind
      intro nameSlot _
      apply (exact_lift _).bind
      intro name _
      apply exact_u32.bind
      intro length _
      apply (exact_bytes (Nat.lt_trans length.toNat_lt (by omega))).bind
      intro body short
      apply (agrees_embed ((agrees name collected).within short)).bind
      intro next _
      exact ih next

theorem agrees_readAttributes {readBody : String → α → Machine checks α}
    {expectedBody : String → α → Reader α}
    (agrees : ∀ name collected, Agrees halts strict (readBody name collected)
      (expectedBody name collected) fun _ => True)
    (initial : α) :
    Agrees halts strict (ClassFile.readAttributes pool readBody initial)
      (ClassFile.readAttributes pool expectedBody initial) fun _ => True := by
  apply exact_u16.bind
  intro count _
  exact agrees_readAttributesFrom agrees count.toNat initial

theorem exact_readFieldAttribute (name : String) (value : Option Constant) :
    Exact (ClassFile.readFieldAttribute pool name value : Machine checks (Option Constant))
      (ClassFile.readFieldAttribute pool name value) fun _ => True := by
  unfold ClassFile.readFieldAttribute
  by_cases isValue : name = "ConstantValue"
  · rw [if_pos isValue, if_pos isValue]
    exact exact_u16.bind fun _ _ => (exact_lift _).map _
  · rw [if_neg isValue, if_neg isValue]
    exact agrees_pure trivial

theorem exact_readCodeArray :
    Exact (ClassFile.readCodeArray : Machine checks (List UInt8)) ClassFile.readCodeArray
      fun code => code.length < 2 ^ 31 - 2 ^ 15 := by
  apply exact_u16.bind
  intro maxStack _
  apply exact_u16.bind
  intro maxLocals _
  apply exact_u32.bind
  intro length _
  exact exact_bytes (Nat.lt_trans length.toNat_lt (by omega))

theorem agrees_readMethodAttribute {decodeWords : List UInt8 → Except Halt (List Instruction)}
    {decode : List UInt8 → Except DecodeError (List Instruction)}
    (follows : ∀ code, code.length < 2 ^ 31 - 2 ^ 15 →
      Follows halts strict (fun value found => found = value ∧ True) (decodeWords code)
        (decode code))
    (name : String) (instructions : List Instruction) :
    Agrees halts strict
      (ClassFile.readMethodAttribute decodeWords name instructions :
        Machine checks (List Instruction))
      (ClassFile.readMethodAttribute decode name instructions) fun _ => True := by
  unfold ClassFile.readMethodAttribute
  by_cases isCode : name = "Code"
  · rw [if_pos isCode, if_pos isCode]
    apply exact_readCodeArray.bind
    intro code short
    apply (agrees_embed (follows code short)).bind
    intro body _
    exact agrees_pure trivial
  · rw [if_neg isCode, if_neg isCode]
    exact agrees_pure trivial

/-- Fields and methods start with three words. -/
theorem agrees_member {good : α → Prop} {next : UInt16 → String → String → Machine checks α}
    {readNext : UInt16 → String → String → Reader α}
    (agrees : ∀ access name descriptor,
      Agrees halts strict (next access name descriptor) (readNext access name descriptor) good) :
    Agrees halts strict
      (do
        let access ← Reader.u16
        let nameSlot ← Reader.u16
        let name ← Reader.lift (pool.utf8 nameSlot)
        let descriptorSlot ← Reader.u16
        let descriptor ← Reader.lift (pool.utf8 descriptorSlot)
        next access name descriptor)
      (do
        let access ← Reader.u16
        let nameSlot ← Reader.u16
        let name ← Reader.lift (pool.utf8 nameSlot)
        let descriptorSlot ← Reader.u16
        let descriptor ← Reader.lift (pool.utf8 descriptorSlot)
        readNext access name descriptor) good := by
  apply exact_u16.bind
  intro access _
  apply exact_u16.bind
  intro nameSlot _
  apply (exact_lift _).bind
  intro name _
  apply exact_u16.bind
  intro descriptorSlot _
  apply (exact_lift _).bind
  intro descriptor _
  exact agrees access name descriptor

theorem exact_readField :
    Exact (ClassFile.readField pool : Machine checks FieldDeclaration) (ClassFile.readField pool)
      fun _ => True := by
  apply agrees_member
  intro access name descriptor
  apply (agrees_readAttributes exact_readFieldAttribute none).bind
  intro constantValue _
  exact agrees_pure trivial

theorem exact_skipAttribute :
    Exact (ClassFile.skipAttribute : Machine checks Unit) ClassFile.skipAttribute
      fun _ => True := by
  apply exact_u16.bind
  intro nameSlot _
  apply exact_u32.bind
  intro length _
  exact (exact_bytes (Nat.lt_trans length.toNat_lt (by omega))).map _

theorem exact_readSuperName :
    Exact (ClassFile.readSuperName pool : Machine checks (Option String))
      (ClassFile.readSuperName pool) fun _ => True := by
  apply exact_u16.bind
  intro slot _
  by_cases isZero : slot = 0
  · rw [if_pos isZero, if_pos isZero]
    exact agrees_pure trivial
  · rw [if_neg isZero, if_neg isZero]
    exact (exact_lift _).map _

theorem exact_readClassName :
    Exact (ClassFile.readClassName pool : Machine checks String) (ClassFile.readClassName pool)
      fun _ => True :=
  exact_u16.bind fun _ _ => exact_lift _

theorem exact_readHeader :
    Exact (ClassFile.readHeader pool : Machine checks ClassHeader) (ClassFile.readHeader pool)
      fun _ => True := by
  apply exact_u16.bind
  intro access _
  apply exact_readClassName.bind
  intro name _
  apply exact_readSuperName.bind
  intro superName _
  apply exact_u16.bind
  intro count _
  exact (Agrees.repeated exact_readClassName count.toNat).bind fun _ _ => agrees_pure trivial

variable {decodeWords : ConstantPool → List UInt8 → Except Halt (List Instruction)}
  {decode : ConstantPool → List UInt8 → Except DecodeError (List Instruction)}

/-- Classes are read alike if short code arrays are decoded alike. -/
theorem agrees_readClass
    (follows : ∀ pool code, code.length < 2 ^ 31 - 2 ^ 15 →
      Follows halts strict (fun value found => found = value ∧ True) (decodeWords pool code)
        (decode pool code)) :
    Agrees halts strict (ClassFile.readClass decodeWords : Machine checks (List Event))
      (ClassFile.readClass decode) fun _ => True := by
  have agreesMethod (pool : ConstantPool) : Agrees halts strict
      (ClassFile.readMethod decodeWords pool :
        Machine checks (MethodDeclaration × List Instruction))
      (ClassFile.readMethod decode pool) fun _ => True := by
    apply agrees_member
    intro access name descriptor
    apply (agrees_readAttributes (agrees_readMethodAttribute (follows pool)) []).bind
    intro instructions _
    exact agrees_pure trivial
  apply exact_u32.bind
  intro magic _
  by_cases foreign : magic ≠ ClassFile.magic
  · rw [if_pos foreign, if_pos foreign]
    exact agrees_fail _
  · rw [if_neg foreign, if_neg foreign]
    apply exact_u16.bind
    intro minor _
    apply exact_u16.bind
    intro major _
    apply exact_readPool.bind
    intro pool _
    apply exact_readHeader.bind
    intro header _
    apply exact_u16.bind
    intro fieldCount _
    apply (Agrees.repeated exact_readField.agrees fieldCount.toNat).bind
    intro fields _
    apply exact_u16.bind
    intro methodCount _
    apply ((agreesMethod pool).repeated methodCount.toNat).bind
    intro methods _
    apply exact_u16.bind
    intro attributeCount _
    apply (Agrees.repeated exact_skipAttribute.agrees attributeCount.toNat).bind
    intro skipped _
    exact agrees_pure trivial

end Classes

theorem follows_decodeClass {bytes : List UInt8} (short : bytes.length < 2 ^ 31 - 2 ^ 15) :
    Follows (checks .longTarget = true) False (fun value found => found = value ∧ True)
      (decodeClass checks bytes) (ClassLint.decodeClass bytes) :=
  (agrees_readClass fun pool _ => follows_decodeCode pool).within short

/-- With machine words the written class files are decoded that describe a class to the
build. -/
theorem decodeClass_eq_ok_iff_describes {build : Build}
    (buildEq : checks .longTarget = true ↔ build = .checked) {bytes : List UInt8}
    (short : bytes.length < 2 ^ 31 - 2 ^ 15) {events : List Event} :
    decodeClass checks bytes = .ok events ↔
      ∃ (file : WrittenClass) (trailing : List UInt8) (outline : ClassOutline),
        bytes = file.bytes ++ trailing ∧ file.Describes build outline ∧
          events = outline.events := by
  have follows : Follows (checks .longTarget = true) True
      (fun value found => found = value ∧ True) (decodeClass checks bytes)
      (Reader.within bytes (ClassFile.readClass (decodeNear (checks .longTarget = true)) :
        Reader (List Event))) :=
    (agrees_readClass fun pool _ => follows_decodeNear pool).within short
  rw [buildEq] at follows
  rw [← within_readClass_eq_ok_iff (decodeNear_decodesBy build)]
  exact follows.eq_ok_iff

/-- A class whose one method goes from its second byte over a distance of four bytes. -/
def branchClass (distance : List UInt8) : List UInt8 :=
  [0xCA, 0xFE, 0xBA, 0xBE, 0, 0, 0, 0, 0, 3, 1, 0, 4, 67, 111, 100, 101, 7, 0, 1, 0, 0, 0, 2,
    0, 0, 0, 0, 0, 0, 0, 1, 0, 0, 0, 1, 0, 1, 0, 1, 0, 1, 0, 0, 0, 14, 0, 0, 0, 0, 0, 0, 0, 6,
    0, 200] ++ distance ++ [0, 0]

/-- The events of such a class, with the target of its branch. -/
def branchEvents (target : Int32) : List Event :=
  [.classHeader ⟨"Code", ⟨0⟩, none, []⟩, .methodStart ⟨"Code", "Code", ⟨0⟩⟩,
    .instruction (.simple 0), .instruction (.jump 200 target), .methodEnd, .classEnd]

/-- Short files are decoded with machine words, whichever operations are checked.  No number
leaves its bounds but the target of a branch with a 32-bit distance, and no block leaves its
region, whose position moves only to the end of a block.  Where targets are not checked the
result is that of plain numbers, also after a target that is wrapped.  Where they are, the
classes are decoded in which no branch leads too far.  A target can in fact be too far. -/
theorem decodeClass_keeps_bounds :
    (∀ (checks : Operation → Bool) (bytes : List UInt8), bytes.length < 2 ^ 31 - 2 ^ 15 →
      (checks .longTarget = false →
        decodeClass checks bytes = (ClassLint.decodeClass bytes).mapError .rejected) ∧
      (checks .longTarget = true →
        ∀ events, decodeClass checks bytes = .ok events ↔
          ∃ (file : WrittenClass) (trailing : List UInt8) (outline : ClassOutline),
            bytes = file.bytes ++ trailing ∧ file.Describes .checked outline ∧
              events = outline.events) ∧
      (∀ events, decodeClass checks bytes = .ok events →
        ClassLint.decodeClass bytes = .ok events) ∧
      (∀ error, decodeClass checks bytes = .error (.rejected error) →
        ClassLint.decodeClass bytes = .error error) ∧
      (∀ operation value, decodeClass checks bytes = .error (.outOfRange operation value) →
        operation = .longTarget ∧ checks operation = true ∧ operation.greatest < value) ∧
      ∀ first last size, decodeClass checks bytes ≠ .error (.outOfRegion first last size)) ∧
    ∃ bytes : List UInt8, bytes.length < 2 ^ 31 - 2 ^ 15 ∧
      (∃ target, decodeClass (fun _ => true) bytes = .error (.outOfRange .longTarget target)) ∧
      ∃ events, ClassLint.decodeClass bytes = .ok events := by
  constructor
  · intro checks bytes short
    have follows : Follows (checks .longTarget = true) False _ (decodeClass checks bytes) _ :=
      follows_decodeClass short
    refine ⟨?_, ?_, fun _ => follows.eq_ok_of_eq_ok, fun _ => follows.eq_of_rejected, ?_,
      follows.ne_outOfRegion⟩
    · intro unchecked
      exact follows.eq_mapError (by simp [unchecked])
    · intro checked events
      exact decodeClass_eq_ok_iff_describes (by simp [checked]) short
    · intro operation value halted
      obtain ⟨checked, rfl, outside⟩ := follows.eq_longTarget_of_outOfRange halted
      exact ⟨rfl, checked, outside⟩
  · exact ⟨branchClass [127, 255, 255, 255], by decide, ⟨2147483648, by decide +kernel⟩,
      branchEvents (-2147483648), by decide +kernel⟩

theorem decodeClass_keeps_bounds_branchClass :
    decodeClass (fun _ => true) (branchClass [127, 255, 255, 254]) =
      .ok (branchEvents 2147483647) ∧
    ClassLint.decodeClass (branchClass [127, 255, 255, 254]) = .ok (branchEvents 2147483647) ∧
    (∃ (file : WrittenClass) (trailing : List UInt8) (outline : ClassOutline),
      branchClass [127, 255, 255, 254] = file.bytes ++ trailing ∧
        file.Describes .checked outline ∧ branchEvents 2147483647 = outline.events) ∧
    decodeClass (fun _ => true) (branchClass [127, 255, 255, 255]) =
      .error (.outOfRange .longTarget 2147483648) ∧
    Operation.longTarget.greatest < 2147483648 ∧
    decodeClass (fun operation => operation ≠ .longTarget) (branchClass [127, 255, 255, 255]) =
      .ok (branchEvents (-2147483648)) := by
  obtain ⟨keeps, _⟩ := decodeClass_keeps_bounds
  obtain ⟨_, near, same, _⟩ :=
    keeps (fun _ => true) (branchClass [127, 255, 255, 254]) (by decide)
  obtain ⟨_, _, _, _, far, _⟩ :=
    keeps (fun _ => true) (branchClass [127, 255, 255, 255]) (by decide)
  obtain ⟨wraps, _⟩ := keeps (fun operation => operation ≠ .longTarget)
    (branchClass [127, 255, 255, 255]) (by decide)
  have decoded : decodeClass (fun _ => true) (branchClass [127, 255, 255, 254]) =
      .ok (branchEvents 2147483647) := by decide +kernel
  have halted : decodeClass (fun _ => true) (branchClass [127, 255, 255, 255]) =
      .error (.outOfRange .longTarget 2147483648) := by decide +kernel
  have expected : ClassLint.decodeClass (branchClass [127, 255, 255, 255]) =
      .ok (branchEvents (-2147483648)) := by decide +kernel
  refine ⟨decoded, same _ decoded, (near rfl _).mp decoded, halted, (far _ _ halted).2.2, ?_⟩
  rw [wraps (by decide), expected]
  rfl

end Machine

end ClassLint
