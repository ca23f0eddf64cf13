import ClassLint.Proofs.WordArithmetic

/-!
# What builds decode

A build with checks and one without differ only at a branch that leads too far.  The
first is stopped there.  The other goes on with a wrapped target, and so accepts every
written class file.  This file also shows that the events of a class have the order of
an outline, whichever build has decoded it.
-/

namespace ClassLint

namespace ClassFile

/-- Whatever source the bytes come from, and however code arrays are decoded, the events
have the order of an outline. -/
theorem exists_outline_of_within_readClass {σ ε : Type} [Source σ ε]
    {decode : ConstantPool → List UInt8 → Except ε (List Instruction)} {bytes : List UInt8}
    {events : List Event}
    (decoded : Reader.within bytes (readClass decode : ReaderOver σ ε (List Event)) =
      .ok events) :
    ∃ outline : ClassOutline, events = outline.events := by
  unfold Reader.within at decoded
  split at decoded
  next given _ readEq =>
    rw [← Except.ok.inj decoded]
    unfold readClass at readEq
    obtain ⟨found, _, _, readEq⟩ := Reader.bind_eq_ok_iff.mp readEq
    split at readEq
    · cases readEq
    · simp only [Reader.bind_eq_ok_iff, Reader.pure_eq_ok_iff] at readEq
      obtain ⟨_, _, _, _, _, _, pool, _, _, header, _, _, _, _, _, fields, _, _, _, _, _, methods,
        _, _, _, _, _, _, _, _, eventsEq, _⟩ := readEq
      refine ⟨⟨header, fields, methods.map fun method => ⟨method.1, method.2⟩⟩, ?_⟩
      rw [eventsEq, ClassOutline.events, List.flatMap_map]
      rfl
  next => cases decoded

end ClassFile

namespace Build

theorem decode_checked_eq_ok_iff {bytes : List UInt8} {events : List Event} :
    Build.checked.decode bytes = some (.ok events) ↔
      Machine.decodeClass Operation.isChecked bytes = .ok events := by
  cases decoded : Machine.decodeClass Operation.isChecked bytes with
  | ok found => simp [decode, decoded]
  | error halt =>
      cases halt with
      | rejected error | outOfRange operation value | outOfRegion first last size =>
          simp [decode, decoded]

theorem exists_outline_of_decode {build : Build} {bytes : List UInt8}
    {events : List Event} (decoded : build.decode bytes = some (.ok events)) :
    ∃ outline : ClassOutline, events = outline.events := by
  cases build with
  | release =>
      exact ClassFile.exists_outline_of_within_readClass (Option.some.inj decoded)
  | checked =>
      exact ClassFile.exists_outline_of_within_readClass (decode_checked_eq_ok_iff.mp decoded)

/-- What is not stopped gives the result of plain numbers, for a short file. -/
theorem decode_checked_eq_none_or {bytes : List UInt8}
    (short : bytes.length < 2 ^ 31 - 2 ^ 15) :
    Build.checked.decode bytes = none ∨
      Build.checked.decode bytes = some (decodeClass bytes) := by
  have follows : Follows (Operation.longTarget.isChecked = true) False _
      (Machine.decodeClass Operation.isChecked bytes) (decodeClass bytes) :=
    Machine.follows_decodeClass short
  cases decoded : Machine.decodeClass Operation.isChecked bytes with
  | ok events =>
      right
      rw [decode_checked_eq_ok_iff.mpr decoded, follows.eq_ok_of_eq_ok decoded]
  | error halt =>
      cases halt with
      | rejected error =>
          right
          rw [follows.eq_of_rejected decoded]
          simp only [decode, decoded]
      | outOfRange operation value | outOfRegion first last size =>
          left
          simp only [decode, decoded]

end Build

/-- A build without checks is never stopped.  It decodes exactly the written class files,
each followed by any bytes, and flattens them into the events of the class that they
describe.  With checks a short file is decoded if no branch in it leads too far.  Otherwise
the program is stopped, or the file is not a class file at all. -/
theorem decodeClass_eq_ok_iff (bytes : List UInt8) (events : List Event) :
    Build.release.decode bytes = some (decodeClass bytes) ∧
    (decodeClass bytes = .ok events ↔
      ∃ (file : WrittenClass) (trailing : List UInt8) (outline : ClassOutline),
        bytes = file.bytes ++ trailing ∧ file.Describes .release outline ∧
          events = outline.events) ∧
    (bytes.length < 2 ^ 31 - 2 ^ 15 →
      (Build.checked.decode bytes = some (.ok events) ↔
        ∃ (file : WrittenClass) (trailing : List UInt8) (outline : ClassOutline),
          bytes = file.bytes ++ trailing ∧ file.Describes .checked outline ∧
            events = outline.events) ∧
      (Build.checked.decode bytes = none ∨
        Build.checked.decode bytes = some (decodeClass bytes))) := by
  refine ⟨rfl, within_readClass_eq_ok_iff Build.release_decodesBy, ?_⟩
  intro short
  refine ⟨?_, Build.decode_checked_eq_none_or short⟩
  rw [Build.decode_checked_eq_ok_iff]
  exact Machine.decodeClass_eq_ok_iff_describes (by decide) short

theorem decodeClass_eq_ok_iff_branchClass :
    Build.checked.decode (Machine.branchClass [127, 255, 255, 254]) =
      some (.ok (Machine.branchEvents 2147483647)) ∧
    (∃ (file : WrittenClass) (trailing : List UInt8) (outline : ClassOutline),
      Machine.branchClass [127, 255, 255, 254] = file.bytes ++ trailing ∧
        file.Describes .checked outline ∧
          Machine.branchEvents 2147483647 = outline.events) ∧
    Build.checked.decode (Machine.branchClass [127, 255, 255, 255]) = none ∧
    ∃ (file : WrittenClass) (trailing : List UInt8) (outline : ClassOutline),
      Machine.branchClass [127, 255, 255, 255] = file.bytes ++ trailing ∧
        file.Describes .release outline ∧
          Machine.branchEvents (-2147483648) = outline.events := by
  have near : Build.checked.decode (Machine.branchClass [127, 255, 255, 254]) =
      some (.ok (Machine.branchEvents 2147483647)) := by decide +kernel
  obtain ⟨_, _, checked⟩ := decodeClass_eq_ok_iff (Machine.branchClass [127, 255, 255, 254])
    (Machine.branchEvents 2147483647)
  obtain ⟨_, wrapped, _⟩ := decodeClass_eq_ok_iff (Machine.branchClass [127, 255, 255, 255])
    (Machine.branchEvents (-2147483648))
  exact ⟨near, (checked (by decide)).1.mp near, by decide +kernel,
    wrapped.mp (by decide +kernel)⟩

end ClassLint
