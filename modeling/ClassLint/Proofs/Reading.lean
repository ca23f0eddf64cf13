import ClassLint.Proofs.ExactNumbers
import Mathlib.Algebra.Group.Nat.Defs
import Mathlib.Data.List.Forall2
import Mathlib.Data.List.Induction

/-!
# What readers accept

A reader that succeeds has passed over a word of its region.  This file says
for each reader which words those are: words of a fixed width are the
big-endian bytes of the number that was read, and a reader that is run several
times passes over as many words, one after the other.  The readers of a whole
format are then described by the written form of what they read.
-/

namespace ClassLint

theorem except_bind_eq_ok_iff {ε α β : Type} {result : Except ε α}
    {next : α → Except ε β} {value : β} :
    (result >>= next) = .ok value ↔
      ∃ found, result = .ok found ∧ next found = .ok value := by
  cases result with
  | error error => simp [bind, Except.bind]
  | ok found => simp [bind, Except.bind]

/-- The low `width` bytes of a number, the most significant one first. -/
def bigEndianBytes : Nat → Nat → List UInt8
  | 0, _ => []
  | width + 1, number => bigEndianBytes width (number / 256) ++ [UInt8.ofNat number]

@[simp]
theorem length_bigEndianBytes (width number : Nat) :
    (bigEndianBytes width number).length = width := by
  induction width generalizing number with
  | zero => rfl
  | succ width ih => simp [bigEndianBytes, ih]

/-- The written form of a slot number or of another word of 16 bits. -/
def shortBytes (word : UInt16) : List UInt8 :=
  bigEndianBytes 2 word.toNat

theorem bigEndian_append_byte (bytes : List UInt8) (byte : UInt8) :
    bigEndian (bytes ++ [byte]) = bigEndian bytes * 256 + byte.toNat := by
  simp [bigEndian]

theorem bigEndian_lt (bytes : List UInt8) :
    bigEndian bytes < 256 ^ bytes.length := by
  induction bytes using List.reverseRecOn with
  | nil => simp [bigEndian]
  | append_singleton bytes byte ih =>
      have byteLt := byte.toNat_lt
      rw [bigEndian_append_byte, List.length_append, List.length_singleton, Nat.pow_succ]
      omega

theorem bigEndian_bigEndianBytes {width number : Nat}
    (bounded : number < 256 ^ width) :
    bigEndian (bigEndianBytes width number) = number := by
  induction width generalizing number with
  | zero =>
      have : number = 0 := by simpa using bounded
      subst number
      rfl
  | succ width ih =>
      have quotientLt : number / 256 < 256 ^ width := by
        rw [Nat.pow_succ] at bounded
        omega
      rw [bigEndianBytes, bigEndian_append_byte, ih quotientLt, UInt8.toNat_ofNat']
      omega

theorem bigEndianBytes_bigEndian (bytes : List UInt8) :
    bigEndianBytes bytes.length (bigEndian bytes) = bytes := by
  induction bytes using List.reverseRecOn with
  | nil => rfl
  | append_singleton bytes byte ih =>
      have byteLt := byte.toNat_lt
      have quotient : (bigEndian bytes * 256 + byte.toNat) / 256 = bigEndian bytes := by
        omega
      have lowByte : UInt8.ofNat (bigEndian bytes * 256 + byte.toNat) = byte := by
        apply UInt8.toNat_inj.mp
        rw [UInt8.toNat_ofNat']
        omega
      rw [bigEndian_append_byte, List.length_append, List.length_singleton,
        bigEndianBytes, quotient, ih, lowByte]

namespace Cursor

/-- One cursor leads over a word to another. -/
structure Passes (before : Cursor) (word : List UInt8) (after : Cursor) : Prop where
  rest : before.rest = word ++ after.rest
  offset : after.offset = before.offset + word.length

@[simp]
theorem passes_nil {before after : Cursor} :
    before.Passes [] after ↔ after = before := by
  constructor
  · intro passes
    cases before
    cases after
    have rest := passes.rest
    have offset := passes.offset
    simp_all
  · rintro rfl
    exact ⟨rfl, rfl⟩

theorem passes_append {before after : Cursor} {first second : List UInt8} :
    before.Passes (first ++ second) after ↔
      ∃ middle : Cursor, before.Passes first middle ∧ middle.Passes second after := by
  constructor
  · intro passes
    refine ⟨⟨before.offset + first.length, second ++ after.rest⟩, ⟨?_, rfl⟩, ⟨rfl, ?_⟩⟩
    · rw [passes.rest, List.append_assoc]
    · rw [passes.offset, List.length_append, Nat.add_assoc]
  · rintro ⟨middle, passesFirst, passesSecond⟩
    refine ⟨?_, ?_⟩
    · rw [passesFirst.rest, passesSecond.rest, List.append_assoc]
    · rw [passesSecond.offset, passesFirst.offset, List.length_append]
      omega

theorem passes_cons {before after : Cursor} {byte : UInt8} {word : List UInt8} :
    before.Passes (byte :: word) after ↔
      ∃ middle : Cursor, before.Passes [byte] middle ∧ middle.Passes word after := by
  rw [← List.singleton_append, passes_append]

/-- The start of a region leads over a word exactly if the region starts with
it. -/
theorem start_passes_iff {region word : List UInt8} :
    (∃ after, (Cursor.start region).Passes word after) ↔
      ∃ trailing, region = word ++ trailing := by
  constructor
  · rintro ⟨after, passes⟩
    exact ⟨after.rest, passes.rest⟩
  · rintro ⟨trailing, regionEq⟩
    exact ⟨⟨0 + word.length, trailing⟩, regionEq, rfl⟩

end Cursor

namespace Reader

theorem pure_eq_ok_iff {σ ε α : Type} {given value : α} {before after : σ} :
    (pure given : ReaderOver σ ε α) before = .ok (value, after) ↔
      value = given ∧ after = before := by
  constructor
  · intro read
    cases read
    exact ⟨rfl, rfl⟩
  · rintro ⟨rfl, rfl⟩
    rfl

theorem bind_eq_ok_iff {σ ε α β : Type} {reader : ReaderOver σ ε α}
    {next : α → ReaderOver σ ε β} {value : β} {before after : σ} :
    (reader >>= next) before = .ok (value, after) ↔
      ∃ found middle, reader before = .ok (found, middle) ∧
        next found middle = .ok (value, after) := by
  change (reader before >>= fun pair => next pair.1 pair.2) = _ ↔ _
  rw [except_bind_eq_ok_iff, Prod.exists]

theorem bind_of_ok {σ ε α β : Type} {reader : ReaderOver σ ε α} {next : α → ReaderOver σ ε β}
    {before middle : σ} {found : α} (read : reader before = .ok (found, middle)) :
    (reader >>= next) before = next found middle := by
  change (reader before >>= fun pair => next pair.1 pair.2) = _
  rw [read]
  rfl

theorem bind_of_error {σ ε α β : Type} {reader : ReaderOver σ ε α}
    {next : α → ReaderOver σ ε β} {before : σ} {error : ε} (failed : reader before = .error error) :
    (reader >>= next) before = .error error := by
  change (reader before >>= fun pair => next pair.1 pair.2) = _
  rw [failed]
  rfl

theorem lift_eq_ok_iff {α : Type} {result : Except DecodeError α} {value : α}
    {before after : Cursor} :
    lift result before = .ok (value, after) ↔ result = .ok value ∧ after = before := by
  cases result with
  | error error => simp [lift]
  | ok found => simp [lift, eq_comm]

theorem offset_bind {α : Type} (next : Nat → Reader α) (before : Cursor) :
    (offset >>= next) before = next before.offset before :=
  rfl

theorem atEnd_bind {α : Type} (next : Bool → Reader α) (before : Cursor) :
    (atEnd >>= next) before = next before.rest.isEmpty before :=
  rfl

theorem fail_ne_ok {α : Type} {error : DecodeError} {value : α} {before after : Cursor} :
    (fail error : Reader α) before ≠ .ok (value, after) := by
  simp [fail]

theorem bytes_eq_ok_iff {count : Nat} {word : List UInt8} {before after : Cursor} :
    bytes count before = .ok (word, after) ↔
      word.length = count ∧ before.Passes word after := by
  obtain ⟨offset, rest⟩ := before
  rw [bytes_eq]
  split
  next complete =>
    constructor
    · intro read
      cases read
      refine ⟨complete, (List.take_append_drop count rest).symm, ?_⟩
      change offset + count = offset + _
      rw [complete]
    · rintro ⟨rfl, restEq, offsetEq⟩
      cases after
      simp_all
  next incomplete =>
    constructor
    · simp
    · rintro ⟨rfl, restEq, offsetEq⟩
      simp_all

/-- A word of fixed width is read off its big-endian bytes. -/
theorem word_eq_ok_iff {width number : Nat} {before after : Cursor} :
    word width before = .ok (number, after) ↔
      number < 256 ^ width ∧ before.Passes (bigEndianBytes width number) after := by
  simp only [word, bind_eq_ok_iff, pure_eq_ok_iff, bytes_eq_ok_iff]
  constructor
  · rintro ⟨taken, _, ⟨rfl, passes⟩, rfl, rfl⟩
    refine ⟨bigEndian_lt taken, ?_⟩
    rwa [bigEndianBytes_bigEndian]
  · rintro ⟨bounded, passes⟩
    exact ⟨bigEndianBytes width number, after, ⟨length_bigEndianBytes width number, passes⟩,
      (bigEndian_bigEndianBytes bounded).symm, rfl⟩

/-- A reader of numbers of one type, each written in `width` bytes. -/
private theorem number_eq_ok_iff {α : Type} {width : Nat} {ofNumber : Nat → α}
    {toNumber : α → Nat} (bounded : ∀ value, toNumber value < 256 ^ width)
    (ofNumber_toNumber : ∀ value, ofNumber (toNumber value) = value)
    (toNumber_ofNumber : ∀ number < 256 ^ width, toNumber (ofNumber number) = number)
    {value : α} {before after : Cursor} :
    (do return ofNumber (← word width) : Reader α) before = .ok (value, after) ↔
      before.Passes (bigEndianBytes width (toNumber value)) after := by
  simp only [bind_eq_ok_iff, pure_eq_ok_iff, word_eq_ok_iff]
  constructor
  · rintro ⟨number, _, ⟨numberLt, passes⟩, rfl, rfl⟩
    rwa [toNumber_ofNumber number numberLt]
  · intro passes
    exact ⟨toNumber value, after, ⟨bounded value, passes⟩,
      (ofNumber_toNumber value).symm, rfl⟩

theorem u8_eq_ok_iff {value : UInt8} {before after : Cursor} :
    u8 before = .ok (value, after) ↔ before.Passes [value] after := by
  have written : bigEndianBytes 1 value.toNat = [value] := by
    simp [bigEndianBytes]
  rw [← written]
  exact number_eq_ok_iff (fun value => value.toNat_lt) (fun _ => UInt8.ofNat_toNat)
    (fun _ numberLt => UInt8.toNat_ofNat_of_lt' numberLt)

theorem u16_eq_ok_iff {value : UInt16} {before after : Cursor} :
    u16 before = .ok (value, after) ↔
      before.Passes (bigEndianBytes 2 value.toNat) after :=
  number_eq_ok_iff (fun value => value.toNat_lt) (fun _ => UInt16.ofNat_toNat)
    (fun _ numberLt => UInt16.toNat_ofNat_of_lt' numberLt)

theorem u32_eq_ok_iff {value : UInt32} {before after : Cursor} :
    u32 before = .ok (value, after) ↔
      before.Passes (bigEndianBytes 4 value.toNat) after :=
  number_eq_ok_iff (fun value => value.toNat_lt) (fun _ => UInt32.ofNat_toNat)
    (fun _ numberLt => UInt32.toNat_ofNat_of_lt' numberLt)

theorem u64_eq_ok_iff {value : UInt64} {before after : Cursor} :
    u64 before = .ok (value, after) ↔
      before.Passes (bigEndianBytes 8 value.toNat) after :=
  number_eq_ok_iff (fun value => value.toNat_lt) (fun _ => UInt64.ofNat_toNat)
    (fun _ numberLt => UInt64.toNat_ofNat_of_lt' numberLt)

/-- What is made of the value that a reader gives is read off the written form of
that value. -/
theorem map_eq_ok_iff {α β : Type} {reader : Reader α} {written : α → List UInt8}
    (reads : ∀ {value before after}, reader before = .ok (value, after) ↔
      Cursor.Passes before (written value) after)
    {make : α → β} {result : β} {before after : Cursor} :
    (do return make (← reader) : Reader β) before = .ok (result, after) ↔
      ∃ value, result = make value ∧ before.Passes (written value) after := by
  simp only [bind_eq_ok_iff, pure_eq_ok_iff, reads]
  constructor
  · rintro ⟨value, _, passes, rfl, rfl⟩
    exact ⟨value, rfl, passes⟩
  · rintro ⟨value, rfl, passes⟩
    exact ⟨value, after, passes, rfl, rfl⟩

/-- What is made of the entry that a slot leads to is read off the written form of
the slot. -/
theorem lookup_eq_ok_iff {α β γ : Type} {reader : Reader α} {written : α → List UInt8}
    (reads : ∀ {value before after}, reader before = .ok (value, after) ↔
      Cursor.Passes before (written value) after)
    {resolve : α → Except DecodeError β} {make : β → γ} {result : γ} {before after : Cursor} :
    (do
      let slot ← reader
      let found ← lift (resolve slot)
      return make found : Reader γ) before = .ok (result, after) ↔
      ∃ slot found, resolve slot = .ok found ∧ result = make found ∧
        before.Passes (written slot) after := by
  simp only [bind_eq_ok_iff, pure_eq_ok_iff, lift_eq_ok_iff, reads]
  constructor
  · rintro ⟨slot, _, passes, found, _, ⟨resolved, rfl⟩, rfl, rfl⟩
    exact ⟨slot, found, resolved, rfl, passes⟩
  · rintro ⟨slot, found, resolved, rfl, passes⟩
    exact ⟨slot, after, passes, found, after, ⟨resolved, rfl⟩, rfl, rfl⟩

/-- A signed number is written as the word that it is read from. -/
private theorem signed_eq_ok_iff {α β : Type} {reader : Reader α}
    {written : α → List UInt8}
    (reads : ∀ {value before after}, reader before = .ok (value, after) ↔
      Cursor.Passes before (written value) after)
    {toSigned : α → β} {toWord : β → α} (toWord_toSigned : ∀ word, toWord (toSigned word) = word)
    (toSigned_toWord : ∀ value, toSigned (toWord value) = value)
    {value : β} {before after : Cursor} :
    (do return toSigned (← reader) : Reader β) before = .ok (value, after) ↔
      before.Passes (written (toWord value)) after := by
  rw [map_eq_ok_iff reads]
  constructor
  · rintro ⟨word, rfl, passes⟩
    rwa [toWord_toSigned]
  · intro passes
    exact ⟨toWord value, (toSigned_toWord value).symm, passes⟩

theorem i8_eq_ok_iff {value : Int8} {before after : Cursor} :
    i8 before = .ok (value, after) ↔ before.Passes [value.toUInt8] after :=
  signed_eq_ok_iff u8_eq_ok_iff UInt8.toUInt8_toInt8 Int8.toInt8_toUInt8

theorem i16_eq_ok_iff {value : Int16} {before after : Cursor} :
    i16 before = .ok (value, after) ↔
      before.Passes (bigEndianBytes 2 value.toUInt16.toNat) after :=
  signed_eq_ok_iff u16_eq_ok_iff UInt16.toUInt16_toInt16 Int16.toInt16_toUInt16

theorem i32_eq_ok_iff {value : Int32} {before after : Cursor} :
    i32 before = .ok (value, after) ↔
      before.Passes (bigEndianBytes 4 value.toUInt32.toNat) after :=
  signed_eq_ok_iff u32_eq_ok_iff UInt32.toUInt32_toInt32 Int32.toInt32_toUInt32

theorem i64_eq_ok_iff {value : Int64} {before after : Cursor} :
    i64 before = .ok (value, after) ↔
      before.Passes (bigEndianBytes 8 value.toUInt64.toNat) after :=
  signed_eq_ok_iff u64_eq_ok_iff UInt64.toUInt64_toInt64 Int64.toInt64_toUInt64

/-- A reader parses a syntax when it succeeds exactly on the written form of an
item, whatever follows it, and gives a value that the item means. -/
def Parses {σ α : Type} (reader : Reader α) (write : σ → List UInt8)
    (means : σ → α → Prop) : Prop :=
  ∀ before value after, reader before = .ok (value, after) ↔
    ∃ item, before.Passes (write item) after ∧ means item value

end Reader

/-- A list whose length can be written in `width` bytes. -/
abbrev Counted (width : Nat) (α : Type) :=
  { items : List α // items.length < 256 ^ width }

/-- The written form of a list: its length, then its items. -/
def Counted.bytes {width : Nat} {α : Type} (write : α → List UInt8)
    (list : Counted width α) : List UInt8 :=
  bigEndianBytes width list.val.length ++ list.val.flatMap write

namespace Reader

theorem repeatedFrom_eq_ok_iff {σ α : Type} {reader : Reader α} {write : σ → List UInt8}
    {means : σ → α → Prop} (parses : reader.Parses write means) {count : Nat}
    {found values : List α} {before after : Cursor} :
    repeatedFrom reader count found before = .ok (values, after) ↔
      ∃ items results, items.length = count ∧ before.Passes (items.flatMap write) after ∧
        List.Forall₂ means items results ∧ values = found.reverse ++ results := by
  induction count generalizing found before with
  | zero =>
      simp only [repeatedFrom, pure_eq_ok_iff, List.length_eq_zero_iff]
      constructor
      · rintro ⟨rfl, rfl⟩
        exact ⟨[], [], rfl, by simp, .nil, by simp⟩
      · rintro ⟨_, results, rfl, passes, related, rfl⟩
        cases related
        exact ⟨by simp, by simpa using passes⟩
  | succ count ih =>
      simp only [repeatedFrom, bind_eq_ok_iff, parses _ _ _, ih]
      constructor
      · rintro ⟨value, middle, ⟨item, passesItem, itemMeans⟩, items, results, rfl, passes,
          related, rfl⟩
        refine ⟨item :: items, value :: results, rfl, ?_, .cons itemMeans related, by simp⟩
        rw [List.flatMap_cons, Cursor.passes_append]
        exact ⟨middle, passesItem, passes⟩
      · rintro ⟨allItems, allResults, lengthEq, passes, related, rfl⟩
        cases related with
        | nil => simp at lengthEq
        | @cons item value items results itemMeans related =>
            rw [List.flatMap_cons, Cursor.passes_append] at passes
            obtain ⟨middle, passesItem, passes⟩ := passes
            exact ⟨value, middle, ⟨item, passesItem, itemMeans⟩, items, results,
              by simpa using lengthEq, passes, related, by simp⟩

/-- A count, and then as many items, is the written form of a list. -/
private theorem number_items_iff {ν σ : Type} {width : Nat} {reader : Reader ν}
    {ofNumber : Nat → ν} {toNumber : ν → Nat}
    (reads : ∀ {count before after}, reader before = .ok (count, after) ↔
      before.Passes (bigEndianBytes width (toNumber count)) after)
    (bounded : ∀ count, toNumber count < 256 ^ width)
    (toNumber_ofNumber : ∀ number < 256 ^ width, toNumber (ofNumber number) = number)
    {write : σ → List UInt8} (holds : List σ → Prop) {before after : Cursor} :
    (∃ count middle, reader before = .ok (count, middle) ∧
        ∃ items, items.length = toNumber count ∧ middle.Passes (items.flatMap write) after ∧
          holds items) ↔
      ∃ list : Counted width σ, before.Passes (list.bytes write) after ∧ holds list.val := by
  simp only [reads, Counted.bytes, Cursor.passes_append]
  constructor
  · rintro ⟨count, middle, passesCount, items, lengthEq, passes, itemsHold⟩
    refine ⟨⟨items, ?_⟩, ⟨middle, ?_, passes⟩, itemsHold⟩
    · rw [lengthEq]
      exact bounded count
    · rwa [lengthEq]
  · rintro ⟨⟨items, itemsBounded⟩, ⟨middle, passesCount, passes⟩, itemsHold⟩
    have lengthEq : toNumber (ofNumber items.length) = items.length :=
      toNumber_ofNumber items.length itemsBounded
    refine ⟨ofNumber items.length, middle, ?_, items, lengthEq.symm, passes, itemsHold⟩
    rwa [lengthEq]

theorem u16_items_iff {σ : Type} {write : σ → List UInt8} (holds : List σ → Prop)
    {before after : Cursor} :
    (∃ count middle, u16 before = .ok (count, middle) ∧
        ∃ items, items.length = count.toNat ∧ middle.Passes (items.flatMap write) after ∧
          holds items) ↔
      ∃ list : Counted 2 σ, before.Passes (list.bytes write) after ∧ holds list.val :=
  number_items_iff u16_eq_ok_iff (fun count => count.toNat_lt)
    (fun _ numberLt => UInt16.toNat_ofNat_of_lt' numberLt) holds

theorem u32_items_iff {σ : Type} {write : σ → List UInt8} (holds : List σ → Prop)
    {before after : Cursor} :
    (∃ count middle, u32 before = .ok (count, middle) ∧
        ∃ items, items.length = count.toNat ∧ middle.Passes (items.flatMap write) after ∧
          holds items) ↔
      ∃ list : Counted 4 σ, before.Passes (list.bytes write) after ∧ holds list.val :=
  number_items_iff u32_eq_ok_iff (fun count => count.toNat_lt)
    (fun _ numberLt => UInt32.toNat_ofNat_of_lt' numberLt) holds

/-- A list that is written after its length is read item by item. -/
theorem counted_eq_ok_iff {σ α : Type} {reader : Reader α} {write : σ → List UInt8}
    {means : σ → α → Prop} (parses : reader.Parses write means)
    {values : List α} {before after : Cursor} :
    (∃ count middle, u16 before = .ok (count, middle) ∧
        repeated count.toNat reader middle = .ok (values, after)) ↔
      ∃ list : Counted 2 σ, before.Passes (list.bytes write) after ∧
        List.Forall₂ means list.val values := by
  rw [← u16_items_iff fun items => List.Forall₂ means items values]
  simp only [repeated, repeatedFrom_eq_ok_iff parses, List.reverse_nil, List.nil_append]
  refine exists_congr fun count => exists_congr fun middle => and_congr_right fun _ => ?_
  refine exists_congr fun items => ?_
  constructor
  · rintro ⟨_, lengthEq, passes, related, rfl⟩
    exact ⟨lengthEq, passes, related⟩
  · rintro ⟨lengthEq, passes, related⟩
    exact ⟨values, lengthEq, passes, related, rfl⟩

/-- A block of `count` times `width` bytes is the written form of `count` items, if
all words of that width are written forms. -/
private theorem exists_flatMap_eq {α : Type} {write : α → List UInt8} {width : Nat}
    (covers : ∀ word : List UInt8, word.length = width → ∃ item, write item = word)
    {count : Nat} {block : List UInt8} (lengthEq : block.length = count * width) :
    ∃ items : List α, items.length = count ∧ items.flatMap write = block := by
  induction count generalizing block with
  | zero =>
      rw [Nat.zero_mul, List.length_eq_zero_iff] at lengthEq
      exact ⟨[], rfl, lengthEq.symm⟩
  | succ count ih =>
      rw [Nat.succ_mul] at lengthEq
      obtain ⟨item, itemEq⟩ : ∃ item, write item = block.take width :=
        covers _ (by rw [List.length_take]; omega)
      obtain ⟨items, countEq, itemsEq⟩ : ∃ items : List α, items.length = count ∧
          items.flatMap write = block.drop width :=
        ih (by rw [List.length_drop]; omega)
      refine ⟨item :: items, by rw [List.length_cons, countEq], ?_⟩
      rw [List.flatMap_cons, itemEq, itemsEq, List.take_append_drop]

/-- A block that is skipped is the written form of some items. -/
theorem bytes_items_iff {α : Type} {write : α → List UInt8} {width : Nat}
    (uniform : ∀ item, (write item).length = width)
    (covers : ∀ word : List UInt8, word.length = width → ∃ item, write item = word)
    {count : Nat} {before after : Cursor} :
    (∃ block, bytes (count * width) before = .ok (block, after)) ↔
      ∃ items : List α, items.length = count ∧ before.Passes (items.flatMap write) after := by
  simp only [bytes_eq_ok_iff]
  constructor
  · rintro ⟨block, lengthEq, passes⟩
    obtain ⟨items, countEq, rfl⟩ := exists_flatMap_eq covers lengthEq
    exact ⟨items, countEq, passes⟩
  · rintro ⟨items, rfl, passes⟩
    exact ⟨items.flatMap write, by simp [List.length_flatMap, uniform], passes⟩

/-- A reader on a region of its own succeeds on what the region starts with. -/
theorem within_eq_ok_iff {α : Type} {reader : Reader α} {region : List UInt8} {value : α} :
    within region reader = .ok value ↔
      ∃ after, reader (Cursor.start region) = .ok (value, after) := by
  unfold within
  cases read : reader (Cursor.start region) with
  | error error => simp
  | ok pair =>
      obtain ⟨found, after⟩ := pair
      simp

theorem within_eq_error_iff {α : Type} {reader : Reader α} {region : List UInt8}
    {error : DecodeError} :
    within region reader = .error error ↔ reader (Cursor.start region) = .error error := by
  unfold within
  cases read : reader (Cursor.start region) with
  | error found => simp
  | ok pair => simp

end Reader

end ClassLint
