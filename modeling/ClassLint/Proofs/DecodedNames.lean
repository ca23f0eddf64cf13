import ClassLint.Proofs.FieldAccesses
import ClassLint.Proofs.ModifiedUtf8

/-!
# Names that decoding keeps apart

Fields are told apart by their decoded names.  Two names are decoded to the same text
exactly if they are alike, and names of plain units are alike only if they are equal.
So among such names no access to a field is taken for one to another.  Names with
surrogates may be alike without being equal.
-/

namespace ClassLint

open Utf8

namespace ConstantTable

/-- The table holds the written form of a text at a slot. -/
def HasUnits (table : ConstantTable) (slot : UInt16) (units : List UInt16) : Prop :=
  table.Holds slot (.utf8 (modifiedUtf8 units))

variable {table : ConstantTable} {slot otherSlot : UInt16} {units otherUnits : List UInt16}

theorem Holds.mem {entry : PoolEntry} (held : table.Holds slot entry) :
    entry ∈ table.entries := by
  obtain ⟨earlier, later, entriesEq, _⟩ := held
  rw [entriesEq]
  simp

theorem HasUnits.hasText (hasUnits : table.HasUnits slot units) :
    table.HasText slot (decodeLossy (modifiedUtf8 units)) :=
  ⟨modifiedUtf8 units, hasUnits, rfl⟩

theorem HasUnits.text_eq_iff {text otherText : String} (hasUnits : table.HasUnits slot units)
    (hasOther : table.HasUnits otherSlot otherUnits) (hasText : table.HasText slot text)
    (hasOtherText : table.HasText otherSlot otherText) :
    text = otherText ↔ Alike units otherUnits := by
  rw [hasText.unique hasUnits.hasText, hasOtherText.unique hasOther.hasText,
    decodeLossy_eq_iff_alike]

theorem HasUnits.utf8_pool_eq_iff (hasUnits : table.HasUnits slot units)
    (hasOther : table.HasUnits otherSlot otherUnits) :
    table.pool.utf8 slot = table.pool.utf8 otherSlot ↔ Alike units otherUnits := by
  rw [utf8_pool_eq_ok_iff.mpr hasUnits.hasText, utf8_pool_eq_ok_iff.mpr hasOther.hasText,
    Except.ok.injEq, decodeLossy_eq_iff_alike]

end ConstantTable

namespace WrittenClass.Describes

variable {file : WrittenClass} {outline : ClassOutline}

theorem decodeClass_bytes (describes : file.Describes .release outline) (trailing : List UInt8) :
    decodeClass (file.bytes ++ trailing) = .ok outline.events := by
  rw [decodeClass, within_readClass_eq_ok_iff Build.release_decodesBy]
  exact ⟨file, trailing, outline, rfl, describes, rfl⟩

/-- If the names that the code accesses through the class are written texts, a private
field is reported exactly if its name is unlike all of them. -/
theorem reported_iff_unlike (describes : file.Describes .release outline)
    {written : WrittenMember} {field : FieldDeclaration} {units : List UInt16}
    (paired : (written, field) ∈ file.fields.val.zip outline.fields)
    (hasUnits : file.constants.HasUnits written.nameSlot units)
    (isPrivate : field.access.isPrivate = true)
    (areTexts : ∀ slot, file.AccessesOwn slot →
      ∃ accessed, file.constants.HasUnits slot accessed)
    (className : String) (state : UnusedField.State) :
    UnusedField.message field.name ∈
        (UnusedField.check.replay className state outline.events).reports ↔
      ∀ slot accessed, file.AccessesOwn slot → file.constants.HasUnits slot accessed →
        ¬Alike accessed units := by
  have isField := List.forall₂_zip describes.fields paired
  rw [UnusedField.message_mem_replay_iff describes (List.of_mem_zip paired).2 isPrivate]
  constructor
  · intro unnamed slot accessed accesses hasAccessed alike
    have nameEq : decodeLossy (modifiedUtf8 accessed) = field.name :=
      (hasAccessed.text_eq_iff hasUnits hasAccessed.hasText isField.name).mpr alike
    refine unnamed ⟨slot, accesses, ?_⟩
    rw [← nameEq]
    exact hasAccessed.hasText
  · rintro unlike ⟨slot, accesses, hasText⟩
    obtain ⟨accessed, hasAccessed⟩ := areTexts slot accesses
    exact unlike slot accessed accesses hasAccessed
      ((hasAccessed.text_eq_iff hasUnits hasText isField.name).mp rfl)

end WrittenClass.Describes

/-- Names of plain units are alike only if they are equal.  Texts of a constant pool,
and names of two fields in the events of a class, are equal exactly if the written ones
are alike; and the check for unused fields takes an access for one to a private field
exactly if their names are alike. -/
theorem names_eq_iff_alike (first second : List UInt16) :
    ((∀ unit ∈ first, IsPlain unit) → (∀ unit ∈ second, IsPlain unit) →
      Alike first second → first = second) ∧
    (∀ (table : ConstantTable) (firstSlot secondSlot : UInt16),
      table.HasUnits firstSlot first → table.HasUnits secondSlot second →
        (table.pool.utf8 firstSlot = table.pool.utf8 secondSlot ↔ Alike first second)) ∧
    ∀ (file : WrittenClass) (outline : ClassOutline), file.Describes .release outline →
      (∀ trailing, decodeClass (file.bytes ++ trailing) = .ok outline.events) ∧
      ∀ written field, (written, field) ∈ file.fields.val.zip outline.fields →
        file.constants.HasUnits written.nameSlot first →
        (∀ otherWritten other, (otherWritten, other) ∈ file.fields.val.zip outline.fields →
          file.constants.HasUnits otherWritten.nameSlot second →
            (field.name = other.name ↔ Alike first second)) ∧
        (field.access.isPrivate = true →
          (∀ slot, file.AccessesOwn slot →
            ∃ accessed, file.constants.HasUnits slot accessed) →
          ∀ (className : String) (state : UnusedField.State),
            (UnusedField.message field.name ∈
                (UnusedField.check.replay className state outline.events).reports ↔
              ∀ slot accessed, file.AccessesOwn slot →
                file.constants.HasUnits slot accessed → ¬Alike accessed first)) := by
  refine ⟨?_, ?_, ?_⟩
  · intro firstPlain secondPlain alike
    exact alike.eq_of_plain firstPlain secondPlain
  · intro table firstSlot secondSlot hasFirst hasSecond
    exact hasFirst.utf8_pool_eq_iff hasSecond
  · intro file outline describes
    refine ⟨describes.decodeClass_bytes, ?_⟩
    intro written field paired hasFirst
    refine ⟨?_, describes.reported_iff_unlike paired hasFirst⟩
    intro otherWritten other otherPaired hasSecond
    have isField := List.forall₂_zip describes.fields paired
    have isOther := List.forall₂_zip describes.fields otherPaired
    exact hasFirst.text_eq_iff hasSecond isField.name isOther.name

/-- A table with a class, two names and a reference to a field of the first name. -/
def pairTable (first second : Counted 2 UInt8) : ConstantTable where
  entries := [.utf8 [65], .classReference 1, .utf8 first.val, .utf8 second.val, .utf8 [73],
    .nameAndType 3 5, .fieldReference 2 6, .utf8 [109], .utf8 [40, 41, 73],
    .utf8 [67, 111, 100, 101]]
  writable := by
    have firstFits := first.property
    have secondFits := second.property
    simp [PoolEntry.Writable] at firstFits secondFits ⊢
    exact ⟨firstFits, secondFits⟩
  slotCount_lt := by simp [PoolEntry.width, PoolEntry.isWide]

/-- A class with two private fields and a method that reads the first. -/
def pairFile (first second : Counted 2 UInt8) : WrittenClass where
  minorVersion := 0
  majorVersion := 52
  constants := pairTable first second
  header := ⟨33, 2, 0, ⟨[], by decide⟩⟩
  fields := ⟨[⟨2, 3, 5, ⟨[], by decide⟩⟩, ⟨2, 4, 5, ⟨[], by decide⟩⟩], by decide⟩
  methods := ⟨[⟨1, 8, 9, ⟨[⟨10, ⟨[0, 1, 0, 1, 0, 0, 0, 5, 42, 180, 0, 7, 172, 0, 0, 0, 0],
    by decide⟩⟩], by decide⟩⟩], by decide⟩
  attributes := ⟨[], by decide⟩

def pairOutline (first second : String) : ClassOutline where
  header := ⟨"A", ⟨33⟩, none, []⟩
  fields := [⟨first, "I", ⟨2⟩, none⟩, ⟨second, "I", ⟨2⟩, none⟩]
  methods := [⟨⟨"m", "()I", ⟨1⟩⟩,
    [.localAccess 42 0, .fieldAccess 180 ⟨"A", first, "I"⟩, .simple 172]⟩]

section Pair

variable (first second : Counted 2 UInt8)

theorem pairFile_describes :
    (pairFile first second).Describes .release
      (pairOutline (decodeLossy first.val) (decodeLossy second.val)) := by
  let table := pairTable first second
  have hasClass : table.HasClass 2 "A" :=
    ⟨1, ⟨[_], _, rfl, rfl⟩, [65], ⟨[], _, rfl, rfl⟩, by decide⟩
  have hasFirst : table.HasText 3 (decodeLossy first.val) :=
    ⟨_, ⟨[_, _], _, rfl, rfl⟩, rfl⟩
  have hasSecond : table.HasText 4 (decodeLossy second.val) :=
    ⟨_, ⟨[_, _, _], _, rfl, rfl⟩, rfl⟩
  have hasType : table.HasText 5 "I" :=
    ⟨[73], ⟨[_, _, _, _], _, rfl, rfl⟩, by decide⟩
  have hasMember : table.HasMember 7 ⟨"A", decodeLossy first.val, "I"⟩ false :=
    .field ⟨[_, _, _, _, _, _], _, rfl, rfl⟩
      ⟨3, 5, ⟨[_, _, _, _, _], _, rfl, rfl⟩, hasFirst, hasType⟩ hasClass
  have hasMethod : table.HasText 8 "m" :=
    ⟨[109], ⟨[_, _, _, _, _, _, _], _, rfl, rfl⟩, by decide⟩
  have hasMethodType : table.HasText 9 "()I" :=
    ⟨[40, 41, 73], ⟨[_, _, _, _, _, _, _, _], _, rfl, rfl⟩, by decide⟩
  have hasCode : table.HasText 10 "Code" :=
    ⟨[67, 111, 100, 101], ⟨[_, _, _, _, _, _, _, _, _], _, rfl, rfl⟩, by decide⟩
  have decoded : decodeCode table.pool [42, 180, 0, 7, 172] =
      .ok [.localAccess 42 0, .fieldAccess 180 ⟨"A", decodeLossy first.val, "I"⟩,
        .simple 172] :=
    decodeCode_iff_tiles.mpr
      (.cons ⟨.aload0, [], rfl, .impliedVariable 0⟩
        (.cons ⟨.getfield, shortBytes 7, rfl, .field hasMember⟩
          (.cons ⟨.ireturn, [], rfl, .empty⟩ (.nil _))))
  have gives : WrittenAttribute.GivesInstructions .release table
      ⟨10, ⟨[0, 1, 0, 1, 0, 0, 0, 5, 42, 180, 0, 7, 172, 0, 0, 0, 0], by decide⟩⟩
      [.localAccess 42 0, .fieldAccess 180 ⟨"A", decodeLossy first.val, "I"⟩, .simple 172] := by
    exact @WrittenAttribute.GivesInstructions.code .release table _ 1 1
      ⟨[42, 180, 0, 7, 172], by decide⟩ [0, 0, 0, 0] _ hasCode (by decide) decoded (by simp)
  exact
    { header := ⟨rfl, hasClass, .absent, .nil⟩
      fields := .cons ⟨rfl, hasFirst, hasType, [], .nil, rfl⟩
        (.cons ⟨rfl, hasSecond, hasType, [], .nil, rfl⟩ .nil)
      methods := .cons ⟨rfl, hasMethod, hasMethodType, [_], .cons gives .nil, rfl⟩ .nil }

/-- The only field that is accessed has its name at slot three. -/
theorem eq_three_of_accessesOwn {nameSlot : UInt16}
    (accesses : (pairFile first second).AccessesOwn nameSlot) : nameSlot = 3 := by
  obtain ⟨_, _, _, _, _, _, _, _, descriptorSlot, _, held⟩ := accesses
  have isEntry := held.mem
  simp only [pairFile, pairTable, List.mem_cons, reduceCtorEq, PoolEntry.nameAndType.injEq,
    false_or, List.not_mem_nil, or_false] at isEntry
  exact isEntry.1

end Pair

/-- The class with two fields whose names are plain. -/
def plainPair : WrittenClass :=
  pairFile ⟨modifiedUtf8 [0xE9], by decide⟩ ⟨modifiedUtf8 [0x20AC], by decide⟩

theorem names_eq_iff_alike_plainPair :
    ¬Alike [0x20AC] [0xE9] ∧
      plainPair.constants.pool.utf8 4 ≠ plainPair.constants.pool.utf8 3 ∧
      plainPair.Describes .release (pairOutline "é" "€") ∧
      decodeClass plainPair.bytes = .ok (pairOutline "é" "€").events ∧
      UnusedField.message "€" ∈
        (UnusedField.check.replay "A" .fresh (pairOutline "é" "€").events).reports := by
  obtain ⟨plainEqual, onPools, onFiles⟩ := names_eq_iff_alike [0x20AC] [0xE9]
  have unlike : ¬Alike [0x20AC] [0xE9] := by
    intro alike
    have euroPlain : ∀ unit ∈ [0x20AC], IsPlain unit := List.forall_mem_singleton.mpr (by decide)
    have accentPlain : ∀ unit ∈ [0xE9], IsPlain unit := List.forall_mem_singleton.mpr (by decide)
    exact absurd (plainEqual euroPlain accentPlain alike) (by decide)
  have hasAccent : plainPair.constants.HasUnits 3 [0xE9] := ⟨[_, _], _, rfl, rfl⟩
  have hasEuro : plainPair.constants.HasUnits 4 [0x20AC] := ⟨[_, _, _], _, rfl, rfl⟩
  have accentEq : decodeLossy (modifiedUtf8 [0xE9]) = "é" := by decide
  have euroEq : decodeLossy (modifiedUtf8 [0x20AC]) = "€" := by decide
  have describes : plainPair.Describes .release (pairOutline "é" "€") := by
    rw [← accentEq, ← euroEq]
    exact pairFile_describes _ _
  obtain ⟨decoded, onFields⟩ := onFiles plainPair (pairOutline "é" "€") describes
  have decodedAlone := decoded []
  rw [List.append_nil] at decodedAlone
  refine ⟨unlike, mt (onPools _ 4 3 hasEuro hasAccent).mp unlike, describes, decodedAlone, ?_⟩
  obtain ⟨_, reported⟩ := onFields ⟨2, 4, 5, ⟨[], by decide⟩⟩ ⟨"€", "I", ⟨2⟩, none⟩
    (by simp [plainPair, pairFile, pairOutline]) hasEuro
  refine (reported rfl ?_ "A" .fresh).mpr ?_
  · intro slot accesses
    rw [eq_three_of_accessesOwn _ _ accesses]
    exact ⟨[0xE9], hasAccent⟩
  · intro slot accessed accesses hasAccessed alike
    rw [eq_three_of_accessesOwn _ _ accesses] at hasAccessed
    have textEq := (hasEuro.utf8_pool_eq_iff hasAccessed).mpr alike.symm
    exact unlike ((hasEuro.utf8_pool_eq_iff hasAccent).mp textEq)

/-- The class with two fields whose names are surrogate pairs. -/
def surrogatePair : WrittenClass :=
  pairFile ⟨modifiedUtf8 [0xD800, 0xDC00], by decide⟩ ⟨modifiedUtf8 [0xD800, 0xDC01], by decide⟩

/-- Different names can be alike: then the events have one name for both fields, and the
access to the first is taken for one to the second. -/
theorem names_alike_of_surrogates :
    let lost := "\uFFFD\uFFFD\uFFFD\uFFFD\uFFFD\uFFFD"
    surrogatePair.constants.HasUnits 3 [0xD800, 0xDC00] ∧
      surrogatePair.constants.HasUnits 4 [0xD800, 0xDC01] ∧
      surrogatePair.constants.pool.utf8 3 = surrogatePair.constants.pool.utf8 4 ∧
      (∀ slot, surrogatePair.AccessesOwn slot → slot = 3) ∧
      decodeClass surrogatePair.bytes = .ok (pairOutline lost lost).events ∧
      (UnusedField.check.replay "A" .fresh (pairOutline lost lost).events).reports = [] := by
  intro lost
  have hasFirst : surrogatePair.constants.HasUnits 3 [0xD800, 0xDC00] :=
    ⟨[_, _], _, rfl, rfl⟩
  have hasSecond : surrogatePair.constants.HasUnits 4 [0xD800, 0xDC01] :=
    ⟨[_, _, _], _, rfl, rfl⟩
  have firstEq : decodeLossy (modifiedUtf8 [0xD800, 0xDC00]) = lost := by decide
  have secondEq : decodeLossy (modifiedUtf8 [0xD800, 0xDC01]) = lost := by decide
  have alike : Alike [0xD800, 0xDC00] [0xD800, 0xDC01] := by
    rw [← decodeLossy_eq_iff_alike, firstEq, secondEq]
  have describes : surrogatePair.Describes .release (pairOutline lost lost) := by
    have describesPair := pairFile_describes ⟨modifiedUtf8 [0xD800, 0xDC00], by decide⟩
      ⟨modifiedUtf8 [0xD800, 0xDC01], by decide⟩
    rwa [firstEq, secondEq] at describesPair
  have decoded := describes.decodeClass_bytes []
  rw [List.append_nil] at decoded
  refine ⟨hasFirst, hasSecond, (hasFirst.utf8_pool_eq_iff hasSecond).mpr alike, ?_, decoded, ?_⟩
  · intro slot accesses
    exact eq_three_of_accessesOwn _ _ accesses
  · decide +kernel

end ClassLint
