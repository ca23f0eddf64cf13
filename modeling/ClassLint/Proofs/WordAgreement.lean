import ClassLint.ClassFile.Machine
import ClassLint.Proofs.SlotFilling

/-!
# Machine words and plain numbers

A reader is compared at two sources: at a region, where numbers have bounds, and at a
cursor, where they have none.  On short regions, taking words and blocks agrees, and
agreement is kept when readers follow one another or are repeated.  Constant pools are
read without a number out of bounds.
-/

namespace ClassLint

/-- The result with machine words follows the expected one.  It may only differ by a
target that is too far, where such targets halt the decoder.  In the strict sense nothing
is expected then. -/
inductive Follows {α β : Type} (halts strict : Prop) (alike : α → β → Prop) :
    Except Halt α → Except DecodeError β → Prop
  | ok {value : α} {expected : β} (same : alike value expected) :
      Follows halts strict alike (.ok value) (.ok expected)
  | rejected (error : DecodeError) :
      Follows halts strict alike (.error (.rejected error)) (.error error)
  | beyond {target : Int} {result : Except DecodeError β} (halted : halts)
      (outside : Operation.longTarget.greatest < target)
      (stops : strict → ∀ expected, result ≠ .ok expected) :
      Follows halts strict alike (.error (.outOfRange .longTarget target)) result

namespace Follows

variable {α β γ δ : Type} {halts strict : Prop} {alike : α → β → Prop}
  {result : Except Halt α} {expected : Except DecodeError β}

/-- What is not halted by a target follows in every sense. -/
theorem weaken (follows : Follows False False alike result expected) :
    Follows halts strict alike result expected := by
  cases follows with
  | ok same => exact .ok same
  | rejected error => exact .rejected error
  | beyond halted => exact halted.elim

/-- What is not halted by a target gives a value or is rejected. -/
theorem outcome (follows : Follows False False alike result expected) :
    (∃ value found, alike value found ∧ result = .ok value ∧ expected = .ok found) ∨
      ∃ error, result = .error (.rejected error) ∧ expected = .error error := by
  cases follows with
  | @ok value found same => exact .inl ⟨value, found, same, rfl, rfl⟩
  | rejected error => exact .inr ⟨error, rfl, rfl⟩
  | beyond halted => exact halted.elim

theorem bind {nextAlike : γ → δ → Prop} {next : α → Except Halt γ}
    {expectedNext : β → Except DecodeError δ} (follows : Follows halts strict alike result expected)
    (nextFollows : ∀ value found, alike value found →
      Follows halts strict nextAlike (next value) (expectedNext found)) :
    Follows halts strict nextAlike (result >>= next) (expected >>= expectedNext) := by
  cases follows with
  | ok same => exact nextFollows _ _ same
  | rejected error => exact .rejected error
  | beyond halted outside stops =>
      apply Follows.beyond halted outside
      intro isStrict value bound
      obtain ⟨found, foundEq, _⟩ := except_bind_eq_ok_iff.mp bound
      exact stops isStrict found foundEq

theorem eq_of_rejected (follows : Follows halts strict alike result expected)
    {error : DecodeError} (halted : result = .error (.rejected error)) :
    expected = .error error := by
  subst halted
  cases follows with
  | rejected => rfl

theorem eq_longTarget_of_outOfRange (follows : Follows halts strict alike result expected)
    {operation : Operation} {value : Int} (halted : result = .error (.outOfRange operation value)) :
    halts ∧ operation = .longTarget ∧ operation.greatest < value := by
  subst halted
  cases follows with
  | beyond halted outside _ => exact ⟨halted, rfl, outside⟩

theorem ne_outOfRegion (follows : Follows halts strict alike result expected)
    (first last size : Nat) : result ≠ .error (.outOfRegion first last size) := by
  rintro rfl
  cases follows

section Equal

variable {good : α → Prop} {expected : Except DecodeError α}

theorem eq_ok_of_eq_ok
    (follows : Follows halts strict (fun value found => found = value ∧ good value) result
      expected) {value : α} (given : result = .ok value) : expected = .ok value := by
  subst given
  cases follows with
  | ok same => rw [same.1]

theorem eq_mapError
    (follows : Follows halts strict (fun value found => found = value ∧ good value) result
      expected) (notHalted : ¬halts) : result = expected.mapError .rejected := by
  cases follows with
  | ok same =>
      rw [same.1]
      rfl
  | rejected error => rfl
  | beyond halted => exact absurd halted notHalted

/-- In the strict sense, values are given exactly where they are expected. -/
theorem eq_ok_iff
    (follows : Follows halts True (fun value found => found = value ∧ good value) result
      expected) {value : α} : result = .ok value ↔ expected = .ok value := by
  constructor
  · exact follows.eq_ok_of_eq_ok
  · rintro rfl
    cases follows with
    | ok same => rw [same.1]
    | beyond _ _ stops => exact absurd rfl (stops trivial value)

end Equal

end Follows

namespace Region

variable {checks : Operation → Bool}

/-- The cursor at the position of a region. -/
def cursor (region : Region checks) : Cursor :=
  ⟨region.position, region.data.drop region.position⟩

structure Sound (region : Region checks) : Prop where
  inside : region.position ≤ region.data.length
  short : region.data.length < 2 ^ 31 - 2 ^ 15

end Region

namespace Machine

variable {checks : Operation → Bool} {α β : Type}

/-- The same good value is given, at the same place. -/
abbrev Alike (good : α → Prop) (given : α × Region checks) (expected : α × Cursor) : Prop :=
  expected = (given.1, given.2.cursor) ∧ good given.1 ∧ given.2.Sound

/-- A reader with machine words agrees with one that knows no bounds, and gives good
values. -/
def Agrees (halts strict : Prop) (machine : Machine checks α) (reader : Reader α)
    (good : α → Prop) : Prop :=
  ∀ region : Region checks, region.Sound →
    Follows halts strict (Alike good) (machine region) (reader region.cursor)

/-- A reader with machine words is not halted by a number. -/
def Exact (machine : Machine checks α) (reader : Reader α) (good : α → Prop) : Prop :=
  Agrees False False machine reader good

section Steps

variable {halts strict : Prop} {machine : Machine checks α} {reader : Reader α}
  {good : α → Prop} {next : α → Machine checks β} {readNext : α → Reader β}
  {nextGood : β → Prop}

theorem Exact.agrees (exact : Exact machine reader good) :
    Agrees halts strict machine reader good := by
  intro region sound
  exact (exact region sound).weaken

theorem Agrees.bind (agrees : Agrees halts strict machine reader good)
    (nextAgrees : ∀ value, good value →
      Agrees halts strict (next value) (readNext value) nextGood) :
    Agrees halts strict (machine >>= next) (reader >>= readNext) nextGood := by
  intro region sound
  apply Follows.bind (agrees region sound)
  rintro ⟨value, after⟩ _ ⟨rfl, isGood, afterSound⟩
  exact nextAgrees value isGood after afterSound

theorem Exact.bind (exact : Exact machine reader good)
    (nextAgrees : ∀ value, good value →
      Agrees halts strict (next value) (readNext value) nextGood) :
    Agrees halts strict (machine >>= next) (reader >>= readNext) nextGood :=
  exact.agrees.bind nextAgrees

theorem agrees_pure {value : α} (isGood : good value) :
    Agrees halts strict (pure value : Machine checks α) (pure value) good := by
  intro region sound
  exact .ok ⟨rfl, isGood, sound⟩

theorem agrees_fail (error : DecodeError) :
    Agrees halts strict (Reader.fail error : Machine checks α) (Reader.fail error) good := by
  intro region _
  exact .rejected error

theorem exact_lift (result : Except DecodeError α) :
    Exact (Reader.lift result : Machine checks α) (Reader.lift result) fun _ => True := by
  intro region sound
  cases result with
  | error error => exact .rejected error
  | ok value => exact .ok ⟨rfl, trivial, sound⟩

theorem agrees_embed {result : Except Halt α} {expected : Except DecodeError α}
    (follows : Follows halts strict (fun value found => found = value ∧ good value) result
      expected) :
    Agrees halts strict (Reader.embed result : Machine checks α) (Reader.embed expected)
      good := by
  intro region sound
  cases follows with
  | ok same =>
      obtain ⟨rfl, isGood⟩ := same
      exact .ok ⟨rfl, isGood, sound⟩
  | rejected error => exact .rejected error
  | beyond halted outside stops =>
      apply Follows.beyond halted outside
      rintro isStrict ⟨value, after⟩ embedded
      rw [Reader.embed_eq_lift] at embedded
      exact stops isStrict value (Reader.lift_eq_ok_iff.mp embedded).1

/-- A number that is in its bounds can be computed on the way. -/
theorem compute_bind {operation : Operation} {value : Int} {after : Int → Machine checks α}
    (allowed : operation.Allows value) :
    Reader.compute operation value >>= after = after value := by
  funext region
  have inBounds : Source.compute region operation value = .ok value := if_pos allowed
  have computed : Reader.compute operation value region = .ok (value, region) := by
    rw [Reader.compute, inBounds]
  change Reader.compute operation value region >>= _ = _
  rw [computed]
  rfl

theorem agrees_compute_bind {operation : Operation} {value : Int}
    {after : Int → Machine checks α} {readAfter : Int → Reader α}
    (allowed : operation.Allows value)
    (agrees : Agrees halts strict (after value) (readAfter value) good) :
    Agrees halts strict (Reader.compute operation value >>= after)
      (Reader.compute operation value >>= readAfter) good := by
  rw [compute_bind allowed, Reader.compute_bind]
  exact agrees

theorem offset_bind (after : Nat → Machine checks α) (region : Region checks) :
    (Reader.offset >>= after) region = after region.position region :=
  rfl

theorem atEnd_bind (after : Bool → Machine checks α) (region : Region checks) :
    (Reader.atEnd >>= after) region = after region.cursor.rest.isEmpty region := by
  have sameAnswer : decide (region.data.length ≤ region.position) =
      region.cursor.rest.isEmpty := by
    rw [Bool.eq_iff_iff, decide_eq_true_iff, List.isEmpty_iff, Region.cursor,
      List.drop_eq_nil_iff]
  rw [← sameAnswer]
  rfl

theorem agrees_offset_bind {after : Nat → Machine checks α} {readAfter : Nat → Reader α}
    (agrees : ∀ position < 2 ^ 31 - 2 ^ 15,
      Agrees halts strict (after position) (readAfter position) good) :
    Agrees halts strict (Reader.offset >>= after) (Reader.offset >>= readAfter) good := by
  intro region sound
  exact agrees region.position (Nat.lt_of_le_of_lt sound.inside sound.short) region sound

theorem follows_within {data : List UInt8}
    (follows : Follows halts strict (Alike good) (machine (Source.start data))
      (reader (Source.start data))) :
    Follows halts strict (fun value found => found = value ∧ good value)
      (Reader.within data machine) (Reader.within data reader) := by
  unfold Reader.within
  generalize machine (Source.start data) = result at follows ⊢
  generalize reader (Source.start data) = expected at follows ⊢
  cases follows with
  | @ok given found same =>
      obtain ⟨rfl, isGood, _⟩ := same
      exact .ok ⟨rfl, isGood⟩
  | rejected error => exact .rejected error
  | beyond halted outside stops =>
      apply Follows.beyond halted outside
      intro isStrict value valueEq
      cases expected with
      | error error => cases valueEq
      | ok pair => exact stops isStrict pair rfl

theorem Agrees.within (agrees : Agrees halts strict machine reader good) {data : List UInt8}
    (short : data.length < 2 ^ 31 - 2 ^ 15) :
    Follows halts strict (fun value found => found = value ∧ good value)
      (Reader.within data machine) (Reader.within data reader) :=
  follows_within (agrees ⟨data, 0⟩ ⟨Nat.zero_le _, short⟩)

end Steps

/-! ## Words -/

/-- A block whose length fits into a word is taken or is missing, with no number out of
bounds. -/
theorem exact_bytes {count : Nat} (fits : count < 2 ^ 64) :
    Exact (Reader.bytes count : Machine checks (List UInt8)) (Reader.bytes count) fun block =>
      block.length < 2 ^ 31 - 2 ^ 15 := by
  rintro ⟨data, position⟩ ⟨inside, short⟩
  dsimp only at inside short
  have remainingEq :
      (Region.mk data position : Region checks).compute .remaining (data.length - position) =
        .ok (data.length - position) := by
    apply if_pos
    simp only [Operation.Allows, Operation.least, Operation.greatest]
    omega
  change Follows _ _ _ (Region.take count ⟨data, position⟩) _
  rw [Region.take, remainingEq, Reader.bytes_eq, Region.cursor]
  change Follows _ _ _ (if _ then _ else _) _
  by_cases enough : count ≤ data.length - position
  · have notLess : ¬ (data.length - position : Int) < count := by omega
    have endEq : (Region.mk data position : Region checks).compute .blockEnd (position + count) =
        .ok (position + count) := by
      apply if_pos
      simp only [Operation.Allows, Operation.least, Operation.greatest]
      omega
    have lastEq : (position + count : Int).toNat = position + count := by omega
    have inRegion : position ≤ position + count ∧ position + count ≤ data.length := by omega
    have takes : (Region.mk data position : Region checks).takeUpTo (position + count) =
        .ok ((data.drop position).take (position + count - position), ⟨data, position + count⟩) :=
      if_pos inRegion
    have complete : ((data.drop position).take count).length = count := by
      rw [List.length_take, List.length_drop]
      omega
    rw [if_neg notLess, endEq, if_pos complete]
    change Follows _ _ _ (Region.takeUpTo (position + count : Int).toNat _) _
    rw [lastEq, takes, Nat.add_sub_cancel_left, List.drop_drop]
    refine .ok ⟨rfl, ?_, inRegion.2, short⟩
    dsimp only
    omega
  · have less : (data.length - position : Int) < count := by omega
    have missingEq : (Region.mk data position : Region checks).compute .missing
        (count - (data.length - position)) = .ok (count - (data.length - position) : Int) := by
      apply if_pos
      simp only [Operation.Allows, Operation.least, Operation.greatest]
      omega
    have lengthEq : (count - (data.length - position) : Int).toNat =
        count - (data.drop position).length := by
      rw [List.length_drop]
      omega
    have incomplete : ((data.drop position).take count).length ≠ count := by
      rw [List.length_take, List.length_drop]
      omega
    rw [if_pos less, missingEq, if_neg incomplete, ← lengthEq]
    exact .rejected _

theorem Exact.map {machine : Machine checks α} {reader : Reader α} {good : α → Prop}
    (exact : Exact machine reader good) (make : α → β) :
    Exact (do return make (← machine) : Machine checks β) (do return make (← reader))
      fun _ => True :=
  exact.bind fun _ _ => agrees_pure trivial

theorem exact_word {width : Nat} (fits : width < 2 ^ 64) :
    Exact (Reader.word width : Machine checks Nat) (Reader.word width) fun _ => True :=
  (exact_bytes fits).map _

theorem exact_u8 : Exact (Reader.u8 : Machine checks UInt8) Reader.u8 fun _ => True :=
  (exact_word (by omega)).map _

theorem exact_u16 : Exact (Reader.u16 : Machine checks UInt16) Reader.u16 fun _ => True :=
  (exact_word (by omega)).map _

theorem exact_u32 : Exact (Reader.u32 : Machine checks UInt32) Reader.u32 fun _ => True :=
  (exact_word (by omega)).map _

theorem exact_u64 : Exact (Reader.u64 : Machine checks UInt64) Reader.u64 fun _ => True :=
  (exact_word (by omega)).map _

theorem exact_i8 : Exact (Reader.i8 : Machine checks Int8) Reader.i8 fun _ => True :=
  exact_u8.map _

theorem exact_i16 : Exact (Reader.i16 : Machine checks Int16) Reader.i16 fun _ => True :=
  exact_u16.map _

theorem exact_i32 : Exact (Reader.i32 : Machine checks Int32) Reader.i32 fun _ => True :=
  exact_u32.map _

theorem exact_i64 : Exact (Reader.i64 : Machine checks Int64) Reader.i64 fun _ => True :=
  exact_u64.map _

theorem exact_alignToFour :
    Exact (Reader.alignToFour : Machine checks Unit) Reader.alignToFour fun _ => True := by
  apply agrees_offset_bind
  intro position _
  have allowed : Operation.padding.Allows (4 - (position % 4 : Nat)) := by
    simp only [Operation.Allows, Operation.least, Operation.greatest]
    omega
  apply agrees_compute_bind allowed
  exact (exact_bytes (by omega)).map _

/-! ## Repetition -/

theorem Agrees.repeatedFrom {halts strict : Prop} {machine : Machine checks α}
    {reader : Reader α} {good : α → Prop} (agrees : Agrees halts strict machine reader good)
    (count : Nat) (found : List α) :
    Agrees halts strict (Reader.repeatedFrom machine count found)
      (Reader.repeatedFrom reader count found) fun _ => True := by
  induction count generalizing found with
  | zero => exact agrees_pure trivial
  | succ count ih =>
      apply agrees.bind
      intro value _
      exact ih (value :: found)

theorem Agrees.repeated {halts strict : Prop} {machine : Machine checks α} {reader : Reader α}
    {good : α → Prop} (agrees : Agrees halts strict machine reader good) (count : Nat) :
    Agrees halts strict (Reader.repeated count machine) (Reader.repeated count reader)
      fun _ => True :=
  agrees.repeatedFrom count []

/-! ## Constant pools -/

/-- An entry is read without a number out of bounds, when its slot fits into a 16-bit
word. -/
theorem exact_readTagged {slot : Nat} (fits : slot < 2 ^ 16) (tag : UInt8) :
    Exact (PoolEntry.readTagged tag slot : Machine checks PoolEntry)
      (PoolEntry.readTagged tag slot) fun _ => True := by
  unfold PoolEntry.readTagged
  split
  case h_1 =>
      apply exact_u16.bind
      intro length _
      have small : length.toNat < 2 ^ 64 := Nat.lt_trans length.toNat_lt (by omega)
      exact (exact_bytes small).map _
  case h_2 => exact exact_i32.map _
  case h_3 => exact exact_u32.map _
  case h_4 => exact exact_i64.map _
  case h_5 => exact exact_u64.map _
  case h_6 | h_7 | h_13 | h_16 | h_17 => exact exact_u16.map _
  case h_8 | h_9 | h_10 | h_11 => exact exact_u16.bind fun _ _ => exact_u16.map _
  case h_12 | h_14 | h_15 => exact (exact_bytes (by omega)).map _
  case h_18 =>
      have allowed : Operation.reportedSlot.Allows slot := by
        simp only [Operation.Allows, Operation.least, Operation.greatest]
        omega
      exact agrees_compute_bind allowed (agrees_fail _)

/-- Slots are filled up to a count that fits into 16 bits. -/
theorem exact_readSlots (remaining slot : Nat) (slots : Array (Option PoolEntry))
    (fits : slot + remaining < 2 ^ 16) :
    Exact (ConstantPool.readSlots remaining slot slots : Machine checks _)
      (ConstantPool.readSlots remaining slot slots) fun _ => True := by
  have nextAllowed (slot : Nat) (fits : slot < 2 ^ 16) : Operation.nextSlot.Allows (slot + 1) := by
    simp only [Operation.Allows, Operation.least, Operation.greatest]
    omega
  induction remaining using Nat.twoStepInduction generalizing slot slots with
  | zero => exact agrees_pure trivial
  | one =>
      apply exact_u8.bind
      intro tag _
      apply (exact_readTagged (by omega) tag).bind
      intro entry _
      apply agrees_compute_bind (nextAllowed slot (by omega))
      cases entry.isWide with
      | true => exact agrees_fail _
      | false => exact agrees_pure trivial
  | more remaining ih ihNext =>
      apply exact_u8.bind
      intro tag _
      apply (exact_readTagged (by omega) tag).bind
      intro entry _
      apply agrees_compute_bind (nextAllowed slot (by omega))
      cases entry.isWide with
      | true =>
          apply agrees_compute_bind
          · have allowed := nextAllowed (slot + 1) (by omega)
            rwa [Int.natCast_add, Int.natCast_one] at allowed
          · exact ih _ _ (by omega)
      | false => exact ihNext _ _ (by omega)

theorem exact_readPool :
    Exact (ConstantPool.read : Machine checks ConstantPool) ConstantPool.read fun _ => True := by
  apply exact_u16.bind
  intro count _
  have fits : count.toNat < 2 ^ 16 := count.toNat_lt
  exact (exact_readSlots (count.toNat - 1) 1 _ (by omega)).map _

end Machine

end ClassLint
